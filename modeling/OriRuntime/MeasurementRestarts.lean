import OriRuntime.MeasurementWrites

/-!
# The notice schedule across restarts

A restart restores the start that was first persisted in an episode and a stage that is not lower
than any recorded in it, and no stage of the schedule is sent twice in one episode.
-/

namespace OriRuntime

open Option

open Execution

variable {s t : SensorMeasurement}

theorem diskRecovered_reconcile (clear : Bool) (streak : ℕ) (taken : Bool) :
    (s.reconcile clear streak taken).diskRecovered = s.diskRecovered := by
  rcases reconcile_cases (s := s) clear streak taken with
    ⟨-, h⟩ | ⟨-, -, ⟨-, h⟩ | ⟨-, h⟩⟩ <;> rw [h]

theorem landed_of_reconcile {clear : Bool} {streak : ℕ} {taken : Bool} {w : OwedWrite}
    (hl : (s.reconcile clear streak taken).writer = .landed w) : s.writer = .landed w := by
  rcases reconcile_cases (s := s) clear streak taken with
    ⟨-, h⟩ | ⟨-, -, ⟨-, h⟩ | ⟨-, h⟩⟩
  · rwa [h] at hl
  · rw [h] at hl
    cases hl
  · rwa [h] at hl

namespace EpisodeSound

variable (hs : EpisodeSound s)

include hs

/-! ### Windows -/

theorem reconciles (clear : Bool) (streak : ℕ) (taken : Bool) :
    EpisodeSound (s.reconcile clear streak taken) := by
  have hl := reconcile_reconciles (s := s) clear streak taken
  exact hs.frame hl.row hl.degraded (fun h => hl.unnotified.trans h) hl.stage
    (fun h => .inl ((diskRecovered_reconcile clear streak taken).symm.trans h))
    (fun _ h => landed_of_reconcile h) (fun h => hl.window ▸ h)
    (fun h => .inl (hl.window ▸ h)) (fun h => hl.window.trans h)
    (.inl hl.escalation) hl.episode

theorem counted (validStreak refusals notifyAttempts : ℕ) : EpisodeSound
      { s with
        validStreak := validStreak, refusals := refusals, notifyAttempts := notifyAttempts } :=
  hs.frame rfl rfl id rfl .inl (fun _ h => h) id .inl id (.inl rfl) rfl

theorem noteAccepted {taken : Bool} (ht : s.noteAccepted taken = some t) : EpisodeSound t := by
  have hc : ∀ n, EpisodeSound { s with validStreak := n } := fun n =>
    hs.counted n s.refusals s.notifyAttempts
  obtain ⟨-, ⟨-, rfl⟩ | ⟨-, -, rfl⟩ | ⟨-, -, -, rfl⟩ | ⟨-, -, -, -, rfl⟩ | ⟨-, -, -, rfl⟩⟩ :=
    noteAccepted_cases ht
  · exact hs.counted s.validStreak 0 s.notifyAttempts
  · exact (hc _).reconciles _ _ _
  · exact hc _
  · exact hs.finished rfl rfl rfl rfl nofun rfl rfl
  · exact (hc _).reconciles _ _ _

theorem broken (taken : Bool) : EpisodeSound (s.breakRun taken) :=
  ((hs.counted 0 s.refusals s.notifyAttempts).reconciles false 0 taken).counted _ _ _

theorem noteRefusal (hd : DiskSound s) (hh : s.Healthy) {now : ℤ} {taken : Bool}
    (ht : s.noteRefusal now taken = some t) : EpisodeSound t := by
  have hb := hs.broken taken
  have hl := reconcile_reconciles (s := { s with validStreak := 0 }) false 0 taken
  obtain ⟨hi, rfl | ⟨he, hu, rfl⟩ | ⟨he, rfl⟩⟩ := noteRefusal_cases ht
  · exact hb
  · have hidle : (s.breakRun taken).window = .idle := hl.window.trans hi
    have hf : 0 ∉ (s.breakRun taken).episode.sent := fun h => by
      have hzero := hb.zero (hl.degraded.trans he) h
      exact absurd ((hl.unnotified.trans hu).symm.trans hzero) nofun
    exact hb.frame rfl rfl id rfl .inl (fun _ h => h)
      (fun _ h => by rw [hidle] at h; cases h) (fun _ => .inr hf)
      (fun h => by rw [hidle] at h; cases h) (.inl rfl) rfl
  · have hw : (s.breakRun taken).degraded = false := hl.degraded.trans he
    have hdisk := hd.breakRun taken
    have hn : ∀ {p : Bool}, (p = true → (s.breakRun taken).degraded = true) → p = false := by
      intro p hp
      cases p with
      | false => rfl
      | true => exact absurd (hw.symm.trans (hp rfl)) nofun
    exact hb.begins (hh.kept hl.degraded hl.row) hw (hn hdisk.recovered)
      (hn fun h => (hdisk.clearing h).2) now

/-! ### The writes a window awaits -/

theorem enterLands (hd : DiskSound s) {now : ℤ} (ht : s.enterLands now = some t) :
    EpisodeSound t := by
  obtain ⟨hw, rfl⟩ := enterLands_cases ht
  have hn : s.window.notifies = true := by
    rw [hw]
    rfl
  exact hs.persisted (hd.window (by rw [hw]; exact nofun)).1 (.inl rfl)
    (fun _ => hn) fun _ h => absurd h (hs.notifying hn)

theorem enterResumes {failed : Bool} (hl : failed = false)
    (ht : s.enterResumes failed = some t) : EpisodeSound t := by
  subst hl
  obtain ⟨hw, rfl⟩ := enterResumes_cases ht
  exact hs.frame rfl rfl id rfl .inl (fun _ h => h)
    (fun _ h => by rw [hw] at h; cases h) (fun _ => .inl (by rw [hw]; rfl))
    (fun h => by rw [hw] at h; cases h) (.inl rfl) rfl

theorem delivered (hd : DiskSound s) {ok : Bool} (ht : s.delivered ok = some t) :
    EpisodeSound t := by
  obtain ⟨hw, rfl | rfl⟩ := delivered_cases ht
  · exact hs.frame rfl rfl id rfl .inl (fun _ h => h) (fun _ h => by rw [hw] at h; cases h) nofun
      (fun h => by rw [hw] at h; cases h) (.inl rfl) rfl
  · exact hs.noticed (hd.window (by rw [hw]; exact nofun)).1 hw

theorem notifiedLands (hd : DiskSound s) {now : ℤ} (ht : s.notifiedLands now = some t) :
    EpisodeSound t := by
  obtain ⟨hw, rfl⟩ := notifiedLands_cases ht
  exact hs.persisted (hd.window (by rw [hw]; exact nofun)).1 (.inl rfl) nofun fun _ _ => rfl

theorem notifiedResumes {failed : Bool} (hl : failed = false)
    (ht : s.notifiedResumes failed = some t) : EpisodeSound t := by
  subst hl
  obtain ⟨hw, rfl⟩ := notifiedResumes_cases ht
  exact hs.frame rfl rfl id rfl .inl (fun _ h => h) (fun _ h => by rw [hw] at h; cases h) nofun
    (fun h => by rw [hw] at h; cases h) (.inl rfl) rfl

/-! ### The writes of the measurement writer -/

theorem writerMoved {writer : WriterPhase} {reconciling lost : Bool}
    (hl : ∀ w, writer ≠ .landed w) :
    EpisodeSound { s with writer := writer, reconciling := reconciling, lost := lost } :=
  hs.frame rfl rfl id rfl .inl (fun _ h => absurd h (hl _)) id .inl id (.inl rfl) rfl

theorem writerLands (hd : DiskSound s) {now : ℤ} (ht : s.writerLands now = some t) :
    EpisodeSound t := by
  rcases writerLands_cases ht with ⟨streak, notified, -, rfl⟩ | ⟨notified, hw, rfl⟩
  · exact hs.cleared
  have hr := hd.restoring (by rw [hw]; rfl)
  exact hs.persisted (hd.recovered hr) (.inr rfl) id fun hc _ =>
    absurd (hc.symm.trans (hs.marked hr)) nofun

theorem writerResumes (hd : DiskSound s) {taken : Bool} (ht : s.writerResumes taken = some t) :
    EpisodeSound t := by
  rcases writerResumes_cases ht with ⟨streak, hw, rfl⟩ | ⟨-, hc⟩
  · have hidle : EpisodeSound { s with writer := .idle, reconciling := false } :=
      hs.writerMoved fun _ h => (nomatch h)
    rcases clearedOnDisk_cases (s := { s with writer := .idle, reconciling := false }) taken
      (hd.clearing (by rw [hw]; rfl)).2 with ⟨-, h⟩ | ⟨-, h⟩
    · rw [h]
      have hm : EpisodeSound
          { s with writer := .idle, reconciling := false, diskRecovered := true } :=
        hidle.frame rfl rfl id rfl (fun _ => .inr (hs.landed streak hw)) (fun _ h => h) id
          .inl id (.inl rfl) rfl
      exact hm.reconciles _ _ _
    · rw [h]
      exact hidle.finished rfl rfl rfl rfl id rfl rfl
  · have hst : EpisodeSound
        { s with writer := .idle, reconciling := false, diskRecovered := false } :=
      hs.frame rfl rfl id rfl nofun (fun _ h => (nomatch h)) id .inl id (.inl rfl) rfl
    rcases hc with ⟨-, rfl⟩ | rfl
    · exact hst.reconciles _ _ _
    · exact hst

/-! ### Escalations -/

theorem visit {now : ℤ} {reachable : Bool} (ht : s.visit now reachable = some t) :
    EpisodeSound t := by
  obtain ⟨hidle, ⟨-, rfl⟩ | rfl | ⟨since, -, hd, rfl⟩⟩ := visit_cases ht
  · exact hs.frame rfl rfl id rfl .inl (fun _ h => h) id .inl id (.inl rfl) rfl
  · exact hs.frame rfl rfl id rfl .inl (fun _ h => h) id .inl id (.inl rfl) rfl
  · exact hs.sending hd hidle

theorem escalationSent {now : ℤ} {ok : Bool} (hk : KeepsEpisode s (.sent now ok))
    (ht : s.sent now ok = some t) : EpisodeSound t := by
  obtain ⟨stage, episode, he, ⟨-, rfl⟩ | ⟨ho, rfl⟩⟩ := sent_cases ht
  · exact hs.frame rfl rfl id rfl .inl (fun _ h => h) id .inl id
      (.inr ⟨rfl, fun _ _ _ h => by rw [he] at h; cases h⟩) rfl
  · obtain ⟨hd, rfl⟩ := hk ho stage episode he
    exact hs.escalated hd he

theorem recordLands {now : ℤ} (hk : KeepsEpisode s (.recordLands now))
    (ht : s.recordLands now = some t) : EpisodeSound t := by
  obtain ⟨stage, since, episode, hr, rfl⟩ := recordLands_cases ht
  obtain rfl := hk.2 stage since episode false hr
  exact hs.escalationRecorded hk.1 hr

theorem recordResumes (ht : s.recordResumes = some t) : EpisodeSound t := by
  obtain ⟨stage, since, episode, hr, rfl⟩ := recordResumes_cases ht
  exact hs.frame rfl rfl (fun _ => rfl) rfl .inl (fun _ h => h) id .inl id
    (.inr ⟨rfl, fun _ _ _ h => by rw [hr] at h; cases h⟩) rfl

/-! ### Every step -/

theorem step (hd : DiskSound s) (hh : s.Healthy) {a : SensorAct} (hl : Lands s a)
    (hk : KeepsEpisode s a) (ht : sensorStep s a = some t) : EpisodeSound t := by
  cases a with
  | noteAccepted taken => exact hs.noteAccepted ht
  | noteRefusal now taken => exact hs.noteRefusal hd hh ht
  | enterLands now => exact hs.enterLands hd ht
  | enterResumes failed => exact hs.enterResumes hl ht
  | delivered ok => exact hs.delivered hd ht
  | notifiedLands now => exact hs.notifiedLands hd ht
  | notifiedResumes failed => exact hs.notifiedResumes hl ht
  | writerStarts =>
    obtain ⟨w, -, rfl⟩ := writerStarts_cases ht
    exact hs.writerMoved fun _ h => (nomatch h)
  | writerRetries =>
    obtain ⟨w, notified, -, rfl⟩ := writerRetries_cases ht
    exact hs.writerMoved fun _ h => (nomatch h)
  | writerLands now => exact hs.writerLands hd ht
  | writerLost =>
    obtain ⟨-, rfl⟩ := writerLost_cases ht
    exact hs.writerMoved fun _ h => (nomatch h)
  | writerResumes taken => exact hs.writerResumes hd ht
  | visit now reachable => exact hs.visit ht
  | sent now ok => exact hs.escalationSent hk ht
  | recordLands now => exact hs.recordLands hk ht
  | recordResumes => exact hs.recordResumes ht
  | recordFails => exact absurd hl id

/-! ### Restarts -/

theorem restored (hl : Landed s) (hd : s.degraded = true)
    (hw : s.episode.cleared = false) : ∃ row since, s.row = some row ∧
      row.degradedSince = some since ∧ s.episode.firstPersisted = some since ∧
      s.restore.degraded = true ∧ s.restore.since = some since ∧
      s.restore.stage = some row.noticeStage ∧
      (∀ k ∈ s.episode.recorded, k ≤ row.noticeStage) ∧
      (row.noticeStage = 0 ∨ row.noticeStage ∈ s.episode.recorded) := by
  have ht := hs.row hd hw
  have hdisk := ht.started hl.entering
  obtain ⟨row, hr, hdown⟩ := SensorMeasurement.exists_row_of_rowDegraded hdisk
  obtain ⟨since, hi⟩ := ne_none_iff_exists'.mp (hs.dated row hr hdown)
  have hc : s.row.bind MeasurementRow.noticeSchedule = some (since, row.noticeStage) := by
    rw [hr, bind_some, MeasurementRow.noticeSchedule, if_pos hdown, hi]
    rfl
  have he := ht.reached row hr hdown
  refine ⟨row, since, hr, hi, (ht.first row hr hdown).trans hi, hdisk, ?_, ?_, he.1, he.2⟩
  · change (s.row.bind MeasurementRow.noticeSchedule).map Prod.fst = _
    rw [hc]
    rfl
  · change (s.row.bind MeasurementRow.noticeSchedule).map Prod.snd = _
    rw [hc]
    rfl

theorem restore (hh : s.Healthy) (hl : Landed s) (hwh : RestartsWhole s) :
    EpisodeSound s.restore := by
  have hd : s.restore.degraded = true → s.degraded = true := fun h => by
    by_contra hhe
    have hr := hh (Bool.not_eq_true _ ▸ hhe)
    exact absurd (hr.symm.trans h) nofun
  have ht : s.restore.degraded = true → RowTells s := fun h =>
    hs.row (hd h) (hwh (hd h))
  have ha : s.restore.degraded = true → ∃ row, s.row = some row ∧ row.degraded = true ∧
      s.restore.stage.getD 0 = row.noticeStage ∧
      ∀ k ∈ s.episode.recorded, k ≤ row.noticeStage := fun h => by
    obtain ⟨row, since, hr, -, -, -, -, hg, hle, -⟩ :=
      hs.restored hl (hd h) (hwh (hd h))
    obtain ⟨old, hold, hdown⟩ := SensorMeasurement.exists_row_of_rowDegraded h
    obtain rfl := mem_unique hr hold
    exact ⟨row, hr, hdown, by rw [hg]; rfl, hle⟩
  exact
    { clean := hs.clean
      dated := hs.dated
      nodup := hs.nodup
      past := fun episode h => by cases h
      marked := fun h => by cases h
      landed := fun streak h => by cases h
      sent := fun h k hk => by
        obtain ⟨row, -, -, hg, hle⟩ := ha h
        rw [hg]
        rcases (ht h).told k hk with rfl | hreco | ⟨since, he⟩
        · exact Nat.zero_le _
        · exact hle k hreco
        · exact absurd he (hl.recording _ _ _)
      recorded := fun h k hk => by
        obtain ⟨row, -, -, hg, hle⟩ := ha h
        rw [hg]
        exact hle k hk
      due := fun _ k h => by cases h
      recording := fun _ k since landed h => by cases h
      zero := fun h hm => by
        obtain ⟨row, hr, hdown, -⟩ := ha h
        rcases (ht h).noticed hm with hw | ⟨old, hold, htold⟩
        · exact absurd hw hl.notified
        obtain rfl := mem_unique hr hold
        change decide (s.row.bind MeasurementRow.degradation = some false) = false
        rw [hr, bind_some, MeasurementRow.degradation, if_pos hdown]
        obtain ⟨at', hat⟩ := ne_none_iff_exists'.mp htold
        rw [hat]
        rfl
      notifying := fun h => by cases h
      row := fun h _ =>
        { started := fun _ => h
          unpersisted := (ht h).unpersisted
          first := (ht h).first
          reached := (ht h).reached
          told := fun k hk => by
            rcases (ht h).told k hk with hzero | hreco | ⟨since, he⟩
            · exact .inl hzero
            · exact .inr (.inl hreco)
            · exact absurd he (hl.recording _ _ _)
          noticed := fun hm => by
            rcases (ht h).noticed hm with hw | htold
            · exact absurd hw hl.notified
            · exact .inr htold } }

end EpisodeSound

/-! ### Every run -/

/-- The run meets the schedule's conditions. -/
def ScheduleKept : (String → SensorMeasurement) → MeasurementStep → Prop :=
  EachSensor (fun u a => Lands u a ∧ KeepsEpisode u a) fun u => Landed u ∧ RestartsWhole u

theorem measurement_schedule_survives {as : List MeasurementStep}
    {s t : String → SensorMeasurement} (h : run measurementStep (fun _ => {}) as = some s)
    (hkept : Meets measurementStep ScheduleKept (fun _ => {}) as) (x : String) :
    (s x).episode.sent.Nodup ∧
    (ScheduleKept s .restart → measurementStep s .restart = some t → (s x).degraded = true →
      ∃ since stage first, (t x).degraded = true ∧ (t x).episode = (s x).episode ∧
        (t x).since = some since ∧ (t x).stage = some stage ∧
        (s x).episode.firstPersisted = some first ∧ since ≤ first ∧
        (∀ k ∈ (s x).episode.recorded, k ≤ stage) ∧
        ∀ now k, 0 < k → (∀ j ∈ (s x).episode.recorded, j < k) →
          k ≤ measurementNoticeStageDue (now - first) →
          stage < k ∧ k ≤ measurementNoticeStageDue (now - since)) := by
  have hall : DiskSound (s x) ∧ (s x).Healthy ∧ EpisodeSound (s x) := by
    have hstart : DiskSound {} ∧ SensorMeasurement.Healthy {} ∧ EpisodeSound {} :=
      ⟨.start, fun _ => rfl, .start⟩
    refine @run_eachSensor (fun u a => Lands u a ∧ KeepsEpisode u a)
      (fun u => Landed u ∧ RestartsWhole u)
      (fun u => DiskSound u ∧ u.Healthy ∧ EpisodeSound u) hstart
      (fun u a v hu hC hv => ⟨hu.1.step hv, hu.2.1.step hu.1 hC.2.rowAgrees hv,
        hu.2.2.step hu.1 hu.2.1 hC.1 hC.2 hv⟩)
      (fun u hu => ⟨hu.1.beside (.inr rfl) id, hu.2.1.kept rfl rfl,
        hu.2.2.frame rfl rfl id rfl .inl (fun _ h => h) id .inl id (.inl rfl) rfl⟩)
      (fun u hu hR => ⟨.restore, fun h => h, hu.2.2.restore hu.2.1 hR.1 hR.2⟩) as s h hkept x
  obtain ⟨-, -, hs⟩ := hall
  refine ⟨hs.nodup, fun hrestart ht hdegraded => ?_⟩
  cases ht
  obtain ⟨hlanded, hwhole⟩ := hrestart x
  obtain ⟨row, since, -, -, hfirst, hdown, hsince, hstage, hle, hreached⟩ :=
    hs.restored hlanded hdegraded (hwhole hdegraded)
  refine ⟨since, row.noticeStage, since, hdown, rfl, hsince, hstage, hfirst, le_refl _, hle,
    fun now k hpos hnew hdue => ⟨?_, hdue⟩⟩
  rcases hreached with hzero | hrecorded
  · rw [hzero]
    exact hpos
  · exact hnew _ hrecorded

/-! ### A recovery begun and broken -/

def MeasurementStep.only (x : String) : MeasurementStep → Bool
  | .sensor y _ => y = x
  | _ => true

theorem untouched {x : String} {as : List MeasurementStep} (ho : ∀ a ∈ as, a.only x = true)
    {s : String → SensorMeasurement} (h : run measurementStep (fun _ => {}) as = some s) :
    ∀ y, y ≠ x → s y = {} := by
  have ht : ∀ (u : String → SensorMeasurement) (a : MeasurementStep)
      (v : String → SensorMeasurement), (∀ y, y ≠ x → u y = {}) → a.only x = true →
      measurementStep u a = some v → ∀ y, y ≠ x → v y = {} := by
    intro u a v hu ha hv y hy
    cases a with
    | sensor z a =>
      obtain rfl : z = x := of_decide_eq_true ha
      obtain ⟨w, -, rfl⟩ := map_eq_some_iff.mp hv
      rw [Function.update_of_ne hy]
      exact hu y hy
    | pass =>
      cases hv
      change ({ u y with listed := (u y).degraded } : SensorMeasurement) = {}
      rw [hu y hy]
    | restart =>
      cases hv
      change (u y).restore = {}
      rw [hu y hy]
      rfl
  exact run_invariant_of_meets ht (fun _ _ => rfl) (meets_of_forall ho _) h

def escalatedOnce : List MeasurementStep :=
  ([.noteRefusal 0 true, .noteRefusal 1 true, .noteRefusal 2 true, .enterLands 3,
    .enterResumes false, .delivered true, .notifiedLands 4, .notifiedResumes false] : List
      SensorAct).map (.sensor "ct") ++ [.pass] ++
  ([.visit 21700000 true, .sent 21700001 true, .recordLands 21700002, .recordResumes] : List
    SensorAct).map (.sensor "ct")

/-- Its recovery is broken while the clear is written, and the row is restored. -/
def brokenRecovery : List MeasurementStep :=
  escalatedOnce ++
    ([.noteAccepted true, .noteAccepted true, .noteAccepted true, .noteAccepted true,
      .noteAccepted true, .writerStarts, .noteRefusal 21700010 true, .writerLands 21700011,
      .writerResumes true, .writerStarts, .writerLands 21700020, .writerResumes true] : List
        SensorAct).map (.sensor "ct")

def escalatedAgain : List MeasurementStep :=
  [.pass, .sensor "ct" (.visit 43400000 true), .sensor "ct" (.sent 43400001 true)]

def landsCheck (s : String → SensorMeasurement) : MeasurementStep → Bool
  | .sensor _ (.enterResumes failed) | .sensor _ (.notifiedResumes failed) => !failed
  | .sensor _ .recordFails | .sensor _ .writerLost | .restart => false
  | .sensor x (.sent _ _) => (s x).degraded && (s x).escalation.episode = some (s x).episode.number
  | .sensor x (.recordLands _) =>
    (s x).degraded && (s x).escalation.episode = some (s x).episode.number
  | .sensor x (.writerResumes _) => (s x).validStreak < MEASUREMENT_WINDOWS_TO_RECOVER
  | .sensor x (.noteAccepted _) => !(s x).diskRecovered
  | _ => true

theorem kept_of_check (s : String → SensorMeasurement) (a : MeasurementStep)
    (h : landsCheck s a = true) : ScheduleKept s a := by
  cases a with
  | pass => trivial
  | restart => cases h
  | sensor x a =>
    cases a with
    | enterResumes failed | notifiedResumes failed => exact ⟨Bool.not_inj h, trivial⟩
    | recordFails | writerLost => cases h
    | sent now ok =>
      obtain ⟨hd, he⟩ := Bool.and_eq_true_iff.mp h
      refine ⟨trivial, fun _ k episode hse => ⟨hd, ?_⟩⟩
      have hm := of_decide_eq_true he
      rw [hse] at hm
      exact some.inj hm
    | recordLands now =>
      obtain ⟨hd, he⟩ := Bool.and_eq_true_iff.mp h
      refine ⟨trivial, hd, fun k since episode landed hre => ?_⟩
      have hm := of_decide_eq_true he
      rw [hre] at hm
      exact some.inj hm
    | writerResumes taken =>
      exact ⟨trivial, fun _ _ hlong => absurd (of_decide_eq_true h) (Nat.not_lt.mpr hlong)⟩
    | noteAccepted taken =>
      refine ⟨trivial, fun _ hr => ?_⟩
      have hn : (s x).diskRecovered = false := Bool.not_inj h
      rw [hr] at hn
      cases hn
    | _ => exact ⟨trivial, trivial⟩

def SensorMeasurement.settled (s : SensorMeasurement) : Bool :=
  s.window = .idle && s.writer = .idle && s.escalation = .idle

theorem Landed.of_settled (h : s.settled = true) : Landed s := by
  obtain ⟨hboth, he⟩ := Bool.and_eq_true_iff.mp h
  obtain ⟨hw, hr⟩ := Bool.and_eq_true_iff.mp hboth
  have hw := of_decide_eq_true hw
  have hr := of_decide_eq_true hr
  have he := of_decide_eq_true he
  exact
    { entering := by rw [hw]; exact nofun
      notified := by rw [hw]; exact nofun
      writing := fun w notified => by rw [hr]; exact nofun
      recording := fun k since episode => by rw [he]; exact nofun }

theorem brokenRecovery_repeats : ∃ s t u, run measurementStep (fun _ => {}) brokenRecovery = some s ∧
    Meets measurementStep (EachSensor Lands Landed) (fun _ => {}) brokenRecovery ∧
    (∀ x, Landed (s x)) ∧ measurementStep s .restart = some t ∧ (s "ct").degraded = true ∧
    (s "ct").episode.firstPersisted = some 3 ∧ (t "ct").since = some 21700020 ∧
    1 ∈ (s "ct").episode.recorded ∧ (t "ct").stage = some 0 ∧
    run measurementStep t escalatedAgain = some u ∧
    Meets measurementStep (EachSensor Lands Landed) t escalatedAgain ∧
    (u "ct").episode.number = (s "ct").episode.number ∧ ¬(u "ct").episode.sent.Nodup := by
  have hlands : ∀ (s : String → SensorMeasurement) (a : MeasurementStep),
      landsCheck s a = true → EachSensor Lands Landed s a := by
    intro s a h
    cases a with
    | pass => trivial
    | restart => cases h
    | sensor x a => exact (kept_of_check s (.sensor x a) h).1
  obtain ⟨s, hrun, hs⟩ := (any_eq_true _ _).mp
    (show (run measurementStep (fun _ => {}) brokenRecovery).any (fun s =>
      (s "ct").settled && (measurementStep s .restart).any fun t =>
        meetsCheck measurementStep landsCheck t escalatedAgain &&
        (run measurementStep t escalatedAgain).any fun u => decide
          ((s "ct").degraded = true ∧ (s "ct").episode.firstPersisted = some 3 ∧
            (t "ct").since = some 21700020 ∧ 1 ∈ (s "ct").episode.recorded ∧
            (t "ct").stage = some 0 ∧ (u "ct").episode.number = (s "ct").episode.number ∧
            ¬(u "ct").episode.sent.Nodup)) = true by decide +kernel)
  obtain ⟨hsettled, hs⟩ := Bool.and_eq_true_iff.mp hs
  obtain ⟨t, ht, hs⟩ := (any_eq_true _ _).mp hs
  obtain ⟨hcheck, hs⟩ := Bool.and_eq_true_iff.mp hs
  obtain ⟨u, hu, hs⟩ := (any_eq_true _ _).mp hs
  obtain ⟨hdegraded, hfirst, hsince, hrecorded, hstage, hnumber, hsent⟩ := of_decide_eq_true hs
  refine ⟨s, t, u, hrun, meets_of_check hlands (by decide +kernel), fun x => ?_, ht, hdegraded,
    hfirst, hsince, hrecorded, hstage, hu, meets_of_check hlands hcheck, hnumber, hsent⟩
  by_cases hx : x = "ct"
  · rw [hx]
    exact .of_settled hsettled
  · rw [untouched (by decide) hrun x hx]
    exact .of_settled rfl

theorem measurement_schedule_survives_of_escalated : ∃ s t,
    run measurementStep (fun _ => {}) escalatedOnce = some s ∧
      measurementStep s .restart = some t ∧ (s "ct").episode.recorded = [1] ∧
      ∃ since stage, (t "ct").since = some since ∧ (t "ct").stage = some stage ∧ since ≤ 3 ∧
        1 ≤ stage := by
  obtain ⟨s, hrun, hs⟩ := (any_eq_true _ _).mp
    (show (run measurementStep (fun _ => {}) escalatedOnce).any (fun s => (s "ct").settled &&
      decide ((s "ct").degraded = true ∧ (s "ct").episode.cleared = false ∧
        (s "ct").episode.firstPersisted = some 3 ∧ (s "ct").episode.recorded = [1])) = true by
      decide +kernel)
  obtain ⟨hsettled, hs⟩ := Bool.and_eq_true_iff.mp hs
  obtain ⟨hdegraded, hcleared, hfirst, hrecorded⟩ := of_decide_eq_true hs
  have hrestart : ScheduleKept s .restart := by
    intro x
    by_cases hx : x = "ct"
    · rw [hx]
      exact ⟨.of_settled hsettled, fun _ => hcleared⟩
    · rw [untouched (by decide) hrun x hx]
      exact ⟨.of_settled rfl, nofun⟩
  obtain ⟨since, stage, first, -, -, hsince, hstage, hpersisted, hle, hreached, -⟩ :=
    (measurement_schedule_survives hrun (meets_of_check kept_of_check (by decide +kernel))
      "ct").2 hrestart rfl hdegraded
  obtain rfl := mem_unique hfirst hpersisted
  exact ⟨s, _, hrun, rfl, hrecorded, since, stage, hsince, hstage, hle,
    hreached 1 (by rw [hrecorded]; exact List.mem_singleton_self 1)⟩

end OriRuntime
