import OriRuntime.MeasurementCases

/-!
# Memory and disk of a degraded sensor

A write the sensor is owed is at the writer, or its loss is counted; what is restored and what is
cleared are told apart by the mark `diskRecovered`, and no degradation ends under a window.
-/

namespace OriRuntime

variable {s t : SensorMeasurement}

/-! ### The rows the store writes -/

@[simp] theorem MeasurementRow.degraded_setDegraded (now : ℤ) (notified : Bool)
    (row : Option MeasurementRow) : (MeasurementRow.setDegraded now notified row).degraded = true := by
  cases row <;> rfl

@[simp] theorem MeasurementRow.degraded_clear (now : ℤ) (row : Option MeasurementRow) :
    (MeasurementRow.clear now row).degraded = false := by
  cases row <;> rfl

@[simp] theorem MeasurementRow.degraded_recordNoticeDelivered (now : ℤ) (stage : ℕ) (since : ℤ)
    (row : Option MeasurementRow) :
    (MeasurementRow.recordNoticeDelivered now stage since row).degraded = true := by
  cases row <;> rfl

/-! ### The writer of a sensor -/

namespace WriterPhase

def write : WriterPhase → Option OwedWrite
  | .idle => none
  | .queued w | .writing w _ | .landed w => some w

def restoring (p : WriterPhase) : Bool := p.write = some .restore

def clearing (p : WriterPhase) : Bool := p ≠ .idle && p.write ≠ some .restore

/-- The row is not yet back, or not yet known to be gone. -/
def owesRow : WriterPhase → Bool
  | .queued .restore | .writing .restore _ | .landed (.clear _) => true
  | _ => false

end WriterPhase

structure DiskSound (s : SensorMeasurement) : Prop where
  window : s.window ≠ .idle → s.degraded = true ∧ s.validStreak = 0
  reconciling : s.reconciling = false ↔ s.writer = .idle
  recovered : s.diskRecovered = true → s.degraded = true
  restoring : s.writer.restoring = true → s.diskRecovered = true
  clearing : s.writer.clearing = true → s.diskRecovered = false ∧ s.degraded = true
  restored : s.writer = .landed .restore → s.rowDegraded = true
  followed : s.lost = false → s.diskRecovered = true → s.writer.restoring = true
  owed : s.lost = false → s.degraded = true → s.rowDegraded = false →
    s.window = .entering false ∨ s.writer.owesRow = true

theorem DiskSound.start : DiskSound {} where
  window h := absurd rfl h
  reconciling := ⟨fun _ => rfl, fun _ => rfl⟩
  recovered h := by cases h
  restoring h := by cases h
  clearing h := by cases h
  restored h := by cases h
  followed _ h := by cases h
  owed _ h := by cases h

/-! ### What is reconciled -/

theorem reconcile_cases (clear : Bool) (streak : ℕ) (taken : Bool) :
    (((clear = false ∧ s.diskRecovered = false) ∨ s.reconciling = true) ∧
        s.reconcile clear streak taken = s) ∨
      ((clear = true ∨ s.diskRecovered = true) ∧ s.reconciling = false ∧
        ((taken = true ∧ s.reconcile clear streak taken =
            { s with
              reconciling := true
              writer := .queued (if clear = true then .clear streak else .restore) }) ∨
          (taken = false ∧ s.reconcile clear streak taken = { s with lost := true }))) := by
  unfold SensorMeasurement.reconcile
  split <;> rename_i hn
  · exact .inl ⟨.inl hn, rfl⟩
  · split <;> rename_i hr
    · exact .inl ⟨.inr hr, rfl⟩
    · refine .inr ⟨?_, Bool.not_eq_true _ ▸ hr, ?_⟩
      · cases hc : clear with
        | true => exact .inl rfl
        | false => exact .inr (Bool.not_eq_false _ ▸ fun h => hn ⟨hc, h⟩)
      · cases ht : taken with
        | true => exact .inl ⟨rfl, if_pos rfl⟩
        | false => exact .inr ⟨rfl, if_neg nofun⟩

/-- What `_reconcile_measurement` leaves alone. -/
structure Reconciles (s t : SensorMeasurement) : Prop where
  row : t.row = s.row
  degraded : t.degraded = s.degraded
  unnotified : t.unnotified = s.unnotified
  validStreak : t.validStreak = s.validStreak
  since : t.since = s.since
  stage : t.stage = s.stage
  window : t.window = s.window
  escalation : t.escalation = s.escalation
  episode : t.episode = s.episode

theorem reconcile_reconciles (clear : Bool) (streak : ℕ) (taken : Bool) :
    Reconciles s (s.reconcile clear streak taken) := by
  rcases reconcile_cases (s := s) clear streak taken with
    ⟨-, h⟩ | ⟨-, -, ⟨-, h⟩ | ⟨-, h⟩⟩ <;> rw [h] <;> exact ⟨rfl, rfl, rfl, rfl, rfl, rfl, rfl, rfl, rfl⟩

namespace DiskSound

variable (hs : DiskSound s)

include hs

theorem writer_idle (h : s.reconciling = false) : s.writer = .idle := hs.reconciling.mp h

theorem reconcile {clear : Bool} {streak : ℕ} {taken : Bool}
    (hc : clear = true → s.degraded = true ∧ s.diskRecovered = false) :
    DiskSound (s.reconcile clear streak taken) := by
  rcases reconcile_cases (s := s) clear streak taken with
    ⟨-, h⟩ | ⟨hne, hf, ⟨-, h⟩ | ⟨-, h⟩⟩
  · rw [h]
    exact hs
  · rw [h]
    have hidle := hs.writer_idle hf
    have howed : s.lost = false → s.degraded = true → s.rowDegraded = false →
        s.window = .entering false := fun hl hd hr => by
      rcases hs.owed hl hd hr with he | howes
      · exact he
      · rw [hidle] at howes
        cases howes
    cases clear with
    | true =>
      obtain ⟨hd, hn⟩ := hc rfl
      exact
        { window := hs.window
          reconciling := ⟨nofun, nofun⟩
          recovered := hs.recovered
          restoring := nofun
          clearing := fun _ => ⟨hn, hd⟩
          restored := nofun
          followed := fun _ hrc => absurd (hn.symm.trans hrc)
            nofun
          owed := fun hl hd hr => .inl (howed hl hd hr) }
    | false =>
      have hrc := hne.resolve_left nofun
      exact
        { window := hs.window
          reconciling := ⟨nofun, nofun⟩
          recovered := hs.recovered
          restoring := fun _ => hrc
          clearing := nofun
          restored := nofun
          followed := fun _ _ => rfl
          owed := fun hl hd hr => .inl (howed hl hd hr) }
  · rw [h]
    exact
      { window := hs.window
        reconciling := hs.reconciling
        recovered := hs.recovered
        restoring := hs.restoring
        clearing := hs.clearing
        restored := hs.restored
        followed := nofun
        owed := nofun }

theorem counts (refusals validStreak notifyAttempts : ℕ) (unnotified : Bool)
    (ht : s.window ≠ .idle → validStreak = 0) :
    DiskSound
      { s with
        refusals := refusals, validStreak := validStreak, notifyAttempts := notifyAttempts
        unnotified := unnotified } where
  window h := ⟨(hs.window h).1, ht h⟩
  reconciling := hs.reconciling
  recovered := hs.recovered
  restoring := hs.restoring
  clearing := hs.clearing
  restored := hs.restored
  followed := hs.followed
  owed := hs.owed

end DiskSound

theorem DiskSound.finished (hi : s.window = .idle) (hw : s.writer = .idle)
    (he : s.reconciling = false) (hr : s.diskRecovered = false) :
    DiskSound s.finishRecovery where
  window h := absurd hi h
  reconciling := ⟨fun _ => hw, fun _ => he⟩
  recovered h := by
    change s.diskRecovered = true at h
    rw [hr] at h
    cases h
  restoring h := by
    change s.writer.restoring = true at h
    rw [hw] at h
    cases h
  clearing h := by
    change s.writer.clearing = true at h
    rw [hw] at h
    cases h
  restored h := by
    change s.writer = _ at h
    rw [hw] at h
    cases h
  followed _ h := by
    change s.diskRecovered = true at h
    rw [hr] at h
    cases h
  owed _ h := by cases h

theorem DiskSound.recoveredOnDisk (hd : s.degraded = true)
    (hi : s.window ≠ .idle → s.validStreak = 0) (hw : s.writer = .idle)
    (hr : s.reconciling = false) (taken : Bool) :
    DiskSound (SensorMeasurement.reconcile { s with diskRecovered := true } false 0 taken) := by
  rcases reconcile_cases (s := { s with diskRecovered := true }) false 0 taken with
    ⟨hn | hn, -⟩ | ⟨-, -, ⟨-, h⟩ | ⟨-, h⟩⟩
  · cases hn.2
  · exact absurd (hn.symm.trans hr) nofun
  · rw [h]
    exact
      { window := fun h => ⟨hd, hi h⟩
        reconciling := ⟨nofun, nofun⟩
        recovered := fun _ => hd
        restoring := fun _ => rfl
        clearing := nofun
        restored := nofun
        followed := fun _ _ => rfl
        owed := fun _ _ _ => .inr rfl }
  · rw [h]
    exact
      { window := fun h => ⟨hd, hi h⟩
        reconciling := ⟨fun _ => hw, fun _ => hr⟩
        recovered := fun _ => hd
        restoring := fun _ => rfl
        clearing := fun h => by
          change s.writer.clearing = true at h
          rw [hw] at h
          cases h
        restored := fun h => by
          change s.writer = _ at h
          rw [hw] at h
          cases h
        followed := nofun
        owed := nofun }

/-! ### Windows -/

theorem rowDegraded_persist (now : ℤ) (notified : Bool) :
    (s.persist now notified).rowDegraded = true :=
  MeasurementRow.degraded_setDegraded now notified s.row

namespace DiskSound

variable (hs : DiskSound s)

include hs

theorem noteAccepted {taken : Bool} (ht : s.noteAccepted taken = some t) : DiskSound t := by
  obtain ⟨hw, ha⟩ := noteAccepted_cases ht
  have hc : ∀ n, DiskSound { s with validStreak := n } := fun n =>
    hs.counts s.refusals n s.notifyAttempts s.unnotified fun h => absurd hw h
  rcases ha with ⟨-, rfl⟩ | ⟨hd, -, rfl⟩ | ⟨-, -, -, rfl⟩ | ⟨-, -, -, hr, rfl⟩ | ⟨hd, -, hrc, rfl⟩
  · exact hs.counts 0 s.validStreak s.notifyAttempts s.unnotified fun h => absurd hw h
  · exact (hc _).reconcile nofun
  · exact hc _
  · exact .finished hw (hs.writer_idle hr) hr rfl
  · exact (hc _).reconcile fun _ => ⟨hd, hrc⟩

theorem breakRun (taken : Bool) : DiskSound (s.breakRun taken) := by
  have hzero := hs.counts s.refusals 0 s.notifyAttempts s.unnotified fun _ => rfl
  have hb : DiskSound (SensorMeasurement.reconcile { s with validStreak := 0 } false 0 taken) :=
    hzero.reconcile nofun
  exact hb.counts _ _ _ _ fun h => (hb.window h).2

theorem noteRefusal {now : ℤ} {taken : Bool} (ht : s.noteRefusal now taken = some t) :
    DiskSound t := by
  have hb := hs.breakRun taken
  have hl := reconcile_reconciles (s := { s with validStreak := 0 }) false 0 taken
  obtain ⟨hi, rfl | ⟨hd, -, rfl⟩ | ⟨hd, rfl⟩⟩ := noteRefusal_cases ht
  · exact hb
  · exact
      { window := fun _ => ⟨hl.degraded.trans hd, hl.validStreak⟩
        reconciling := hb.reconciling
        recovered := hb.recovered
        restoring := hb.restoring
        clearing := hb.clearing
        restored := hb.restored
        followed := hb.followed
        owed := fun ho hd' hr =>
          (hb.owed ho hd' hr).imp (fun h => by
            have hidle : (s.breakRun taken).window = .idle := hl.window.trans hi
            rw [hidle] at h
            cases h) id }
  · have hw : (s.breakRun taken).degraded = false := hl.degraded.trans hd
    have hn : ∀ {o : Prop}, (s.breakRun taken).degraded = true → o := fun h => by
      rw [hw] at h
      cases h
    exact
      { window := fun _ => ⟨rfl, hl.validStreak⟩
        reconciling := hb.reconciling
        recovered := fun _ => rfl
        restoring := hb.restoring
        clearing := fun h => hn (hb.clearing h).2
        restored := hb.restored
        followed := hb.followed
        owed := fun _ _ _ => .inl rfl }

/-! ### Writes -/

theorem windowMoves {window : WindowPhase} {row : Option MeasurementRow} {unnotified : Bool}
    {notifyAttempts : ℕ} {lost : Bool} {episode : MeasurementEpisode}
    (hw : s.window ≠ .idle) (hr : (row.map MeasurementRow.degraded).getD false = true ∨
      row = s.row) (hl : lost = false → s.lost = false)
    (howed : lost = false → s.window = .entering false →
      (row.map MeasurementRow.degraded).getD false = true ∨ window = .entering false) :
    DiskSound
      { s with
        window := window, row := row, unnotified := unnotified
        notifyAttempts := notifyAttempts, lost := lost, episode := episode } where
  window _ := hs.window hw
  reconciling := hs.reconciling
  recovered := hs.recovered
  restoring := hs.restoring
  clearing := hs.clearing
  restored h := by
    rcases hr with hback | rfl
    · exact hback
    · exact hs.restored h
  followed h := hs.followed (hl h)
  owed h hd hr' := by
    rcases hr with hback | rfl
    · rw [SensorMeasurement.rowDegraded, hback] at hr'
      cases hr'
    · rcases hs.owed (hl h) hd hr' with he | howes
      · rcases howed h he with hback | ht
        · rw [SensorMeasurement.rowDegraded, hback] at hr'
          cases hr'
        · exact .inl ht
      · exact .inr howes

theorem enterLands {now : ℤ} (ht : s.enterLands now = some t) : DiskSound t := by
  obtain ⟨he, rfl⟩ := enterLands_cases ht
  exact hs.windowMoves (by rw [he]; exact nofun)
    (.inl (rowDegraded_persist now false)) id fun _ _ => .inl (rowDegraded_persist now false)

theorem enterResumes {failed : Bool} (ht : s.enterResumes failed = some t) : DiskSound t := by
  obtain ⟨he, rfl⟩ := enterResumes_cases ht
  refine hs.windowMoves (by rw [he]; exact nofun) (.inr rfl)
    (fun h => (Bool.or_eq_false_iff.mp h).1) fun h hf => ?_
  rw [he, (Bool.or_eq_false_iff.mp h).2] at hf
  cases hf

theorem delivered {ok : Bool} (ht : s.delivered ok = some t) : DiskSound t := by
  obtain ⟨hnoti, hc⟩ := delivered_cases ht
  have hh : s.window ≠ .idle := by
    rw [hnoti]
    exact nofun
  have hn : ∀ {o : Prop}, s.window = .entering false → o := fun h => by
    rw [hnoti] at h
    cases h
  rcases hc with rfl | rfl
  all_goals exact hs.windowMoves hh (.inr rfl) id fun _ h => hn h

theorem notifiedLands {now : ℤ} (ht : s.notifiedLands now = some t) : DiskSound t := by
  obtain ⟨hn, rfl⟩ := notifiedLands_cases ht
  exact hs.windowMoves (by rw [hn]; exact nofun)
    (.inl (rowDegraded_persist now true)) id fun _ _ => .inl (rowDegraded_persist now true)

theorem notifiedResumes {failed : Bool} (ht : s.notifiedResumes failed = some t) : DiskSound t := by
  obtain ⟨hn, rfl⟩ := notifiedResumes_cases ht
  refine hs.windowMoves (by rw [hn]; exact nofun) (.inr rfl)
    (fun h => (Bool.or_eq_false_iff.mp h).1) fun _ he => ?_
  rw [hn] at he
  cases he

theorem writerMoves {w : OwedWrite} {writer : WriterPhase} (hold : s.writer.write = some w)
    (hn : writer.write = some w) (hl : writer ≠ .landed .restore)
    (howes : s.writer.owesRow = true → writer.owesRow = true) :
    DiskSound { s with writer := writer } where
  window := hs.window
  recovered := hs.recovered
  reconciling := by
    have hh : s.writer ≠ .idle := by
      intro h
      rw [h] at hold
      cases hold
    have hx : writer ≠ .idle := by
      rintro rfl
      cases hn
    exact ⟨fun h => absurd (hs.reconciling.mp h) hh, fun h => absurd h hx⟩
  restoring h := hs.restoring (by
    unfold WriterPhase.restoring at h ⊢
    rw [hold, ← hn]
    exact h)
  clearing h := hs.clearing (by
    have hh : s.writer ≠ .idle := by
      intro h
      rw [h] at hold
      cases hold
    unfold WriterPhase.clearing at h ⊢
    rw [hold, ← hn]
    simp only [ne_eq, Bool.and_eq_true, decide_eq_true_eq] at h ⊢
    exact ⟨hh, h.2⟩)
  restored h := absurd h hl
  followed ho hr := by
    have h := hs.followed ho hr
    unfold WriterPhase.restoring at h ⊢
    change decide (writer.write = some OwedWrite.restore) = true
    rw [hold] at h
    rw [hn]
    exact h
  owed ho hd hro := (hs.owed ho hd hro).imp id howes

theorem writerStarts (ht : s.writerStarts = some t) : DiskSound t := by
  obtain ⟨w, hw, rfl⟩ := writerStarts_cases ht
  refine hs.writerMoves (w := w) (by rw [hw]; rfl) rfl nofun fun h => ?_
  rw [hw] at h
  cases w with
  | clear streak => cases h
  | restore => rfl

theorem writerRetries (ht : s.writerRetries = some t) : DiskSound t := by
  obtain ⟨w, notified, hw, rfl⟩ := writerRetries_cases ht
  refine hs.writerMoves (w := w) (by rw [hw]; rfl) rfl nofun fun h => ?_
  rw [hw] at h
  cases w with
  | clear streak => cases h
  | restore => rfl

theorem writerLost (ht : s.writerLost = some t) : DiskSound t := by
  obtain ⟨-, rfl⟩ := writerLost_cases ht
  exact
    { window := hs.window
      reconciling := ⟨fun _ => rfl, fun _ => rfl⟩
      recovered := hs.recovered
      restoring := nofun
      clearing := nofun
      restored := nofun
      followed := nofun
      owed := nofun }

theorem writerLands {now : ℤ} (ht : s.writerLands now = some t) : DiskSound t := by
  have hh : ∀ {w notified} {o : Prop}, s.writer = .writing w notified →
      s.reconciling = false → o := fun hw h => by
    have hidle := hs.writer_idle h
    rw [hw] at hidle
    cases hidle
  rcases writerLands_cases ht with ⟨streak, notified, hw, rfl⟩ | ⟨notified, hw, rfl⟩
  · have hc := hs.clearing (by rw [hw]; rfl)
    exact
      { window := hs.window
        reconciling := ⟨fun h => hh hw h, nofun⟩
        recovered := hs.recovered
        restoring := nofun
        clearing := fun _ => hc
        restored := nofun
        followed := fun _ h => absurd (hc.1.symm.trans h) nofun
        owed := fun _ _ _ => .inr rfl }
  · have hr := hs.restoring (by rw [hw]; rfl)
    exact
      { window := hs.window
        reconciling := ⟨fun h => hh hw h, nofun⟩
        recovered := hs.recovered
        restoring := fun _ => hr
        clearing := nofun
        restored := fun _ => rowDegraded_persist now notified
        followed := fun _ _ => rfl
        owed := fun _ _ ho =>
          absurd ((rowDegraded_persist (s := s) now notified).symm.trans ho)
            nofun }

theorem writerResumes {taken : Bool} (ht : s.writerResumes taken = some t) : DiskSound t := by
  rcases writerResumes_cases ht with ⟨streak, hw, rfl⟩ | ⟨hw, ha⟩
  · obtain ⟨hn, hd⟩ := hs.clearing (by rw [hw]; rfl)
    rcases clearedOnDisk_cases (s := { s with writer := .idle, reconciling := false }) taken
      hd with ⟨-, h⟩ | ⟨hc, h⟩
    · rw [h]
      exact .recoveredOnDisk (s := { s with writer := .idle, reconciling := false }) hd
        (fun h => (hs.window h).2) rfl rfl taken
    · rw [h]
      refine .finished ?_ rfl rfl hn
      by_contra hi
      change MEASUREMENT_WINDOWS_TO_RECOVER ≤ s.validStreak at hc
      rw [(hs.window hi).2] at hc
      exact absurd hc (by decide)
  · have hr := hs.restored hw
    have hst : DiskSound
        { s with writer := .idle, reconciling := false, diskRecovered := false } :=
      { window := hs.window
        reconciling := ⟨fun _ => rfl, fun _ => rfl⟩
        recovered := nofun
        restoring := nofun
        clearing := nofun
        restored := nofun
        followed := fun _ h => (nomatch h)
        owed := fun _ _ h => absurd (hr.symm.trans h) nofun }
    rcases ha with ⟨hd, rfl⟩ | rfl
    · exact hst.reconcile fun _ => ⟨hd, rfl⟩
    · exact hst

/-! ### Escalations -/

theorem beside {row : Option MeasurementRow} {unnotified listed lost : Bool} {notifyAttempts : ℕ}
    {since : Option ℤ} {stage : Option ℕ} {escalation : EscalationPhase}
    {episode : MeasurementEpisode}
    (hr : (row.map MeasurementRow.degraded).getD false = true ∨ row = s.row)
    (hl : lost = false → s.lost = false) :
    DiskSound
      { s with
        row := row, unnotified := unnotified, listed := listed, lost := lost
        notifyAttempts := notifyAttempts, since := since, stage := stage
        escalation := escalation, episode := episode } where
  window := hs.window
  reconciling := hs.reconciling
  recovered := hs.recovered
  restoring := hs.restoring
  clearing := hs.clearing
  restored h := by
    rcases hr with hback | rfl
    · exact hback
    · exact hs.restored h
  followed h := hs.followed (hl h)
  owed h hd hr' := by
    rcases hr with hback | rfl
    · rw [SensorMeasurement.rowDegraded, hback] at hr'
      cases hr'
    · exact hs.owed (hl h) hd hr'

theorem visit {now : ℤ} {reachable : Bool} (ht : s.visit now reachable = some t) : DiskSound t := by
  obtain ⟨-, ⟨-, rfl⟩ | rfl | ⟨since, -, -, rfl⟩⟩ := visit_cases ht
  all_goals exact hs.beside (.inr rfl) id

theorem sent {now : ℤ} {ok : Bool} (ht : s.sent now ok = some t) : DiskSound t := by
  obtain ⟨stage, episode, -, ⟨-, rfl⟩ | ⟨-, rfl⟩⟩ := sent_cases ht
  all_goals exact hs.beside (.inr rfl) id

theorem recordLands {now : ℤ} (ht : s.recordLands now = some t) : DiskSound t := by
  obtain ⟨stage, since, episode, -, rfl⟩ := recordLands_cases ht
  exact hs.beside (.inl (MeasurementRow.degraded_recordNoticeDelivered _ _ _ _)) id

theorem recordResumes (ht : s.recordResumes = some t) : DiskSound t := by
  obtain ⟨stage, since, episode, -, rfl⟩ := recordResumes_cases ht
  exact hs.beside (.inr rfl) id

theorem recordFails (ht : s.recordFails = some t) : DiskSound t := by
  obtain ⟨stage, since, episode, -, rfl⟩ := recordFails_cases ht
  exact hs.beside (.inr rfl) nofun

omit hs in
theorem restore : DiskSound s.restore where
  window h := absurd rfl h
  reconciling := ⟨fun _ => rfl, fun _ => rfl⟩
  recovered h := by cases h
  restoring h := by cases h
  clearing h := by cases h
  restored h := by cases h
  followed _ h := by cases h
  owed _ hd hr := by
    change s.rowDegraded = true at hd
    change s.rowDegraded = false at hr
    rw [hr] at hd
    cases hd

theorem step {a : SensorAct} (ht : sensorStep s a = some t) : DiskSound t := by
  cases a with
  | noteAccepted taken => exact hs.noteAccepted ht
  | noteRefusal now taken => exact hs.noteRefusal ht
  | enterLands now => exact hs.enterLands ht
  | enterResumes failed => exact hs.enterResumes ht
  | delivered ok => exact hs.delivered ht
  | notifiedLands now => exact hs.notifiedLands ht
  | notifiedResumes failed => exact hs.notifiedResumes ht
  | writerStarts => exact hs.writerStarts ht
  | writerRetries => exact hs.writerRetries ht
  | writerLands now => exact hs.writerLands ht
  | writerLost => exact hs.writerLost ht
  | writerResumes taken => exact hs.writerResumes ht
  | visit now reachable => exact hs.visit ht
  | sent now ok => exact hs.sent ht
  | recordLands now => exact hs.recordLands ht
  | recordResumes => exact hs.recordResumes ht
  | recordFails => exact hs.recordFails ht

end DiskSound

end OriRuntime
