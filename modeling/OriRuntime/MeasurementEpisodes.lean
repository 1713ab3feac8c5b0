import OriRuntime.MeasurementCases

/-!
# The facts of an episode

What the runtime holds of a degraded sensor beside what happened: when the sensor entered
degradation in this process, in which episode the stage it holds was sent, and from what start each
escalation was measured.
-/

namespace OriRuntime

open Option

open Execution

structure EpisodeWatch where
  sensor : SensorMeasurement := {}
  /-- When the sensor last entered degradation in this process. -/
  entered : Option ℤ := none
  /-- The episode in which the stage that is held was set. -/
  staged : ℕ := 0
  /-- The start every escalation was measured from, and when the sensor had entered degradation. -/
  measured : List (ℤ × Option ℤ) := []
deriving DecidableEq

namespace EpisodeWatch

def enters (s t : SensorMeasurement) : Bool := !s.degraded && t.degraded

def note (w : EpisodeWatch) (t : SensorMeasurement) : SensorAct → EpisodeWatch
  | .noteRefusal now _ =>
    if enters w.sensor t then
      { w with sensor := t, entered := some now, staged := t.episode.number }
    else { w with sensor := t }
  | .sent _ true =>
    match w.sensor.escalation with
    | .sending _ episode => { w with sensor := t, staged := episode }
    | _ => { w with sensor := t }
  | .visit _ _ =>
    match w.sensor.since, t.escalation with
    | some since, .sending _ _ =>
      { w with sensor := t, measured := w.measured ++ [(since, w.entered)] }
    | _, _ => { w with sensor := t }
  | _ => { w with sensor := t }

def restart (w : EpisodeWatch) : EpisodeWatch :=
  { w with
    sensor := w.sensor.restore
    entered := none
    staged := w.sensor.episode.number }

/-- The steps of `measurementStep`, watched. -/
def step (w : String → EpisodeWatch) : MeasurementStep → Option (String → EpisodeWatch)
  | .sensor x a =>
    (sensorStep (w x).sensor a).map fun t => Function.update w x ((w x).note t a)
  | .pass => some fun x => { w x with sensor := { (w x).sensor with listed := (w x).sensor.degraded } }
  | .restart => some fun x => (w x).restart

theorem sensor_note (w : EpisodeWatch) (t : SensorMeasurement) (a : SensorAct) :
    (w.note t a).sensor = t := by
  unfold note
  split
  · split_ifs <;> rfl
  all_goals first
    | rfl
    | split <;> rfl

theorem measurementStep_of_step {w w' : String → EpisodeWatch} {a : MeasurementStep}
    (h : step w a = some w') :
    measurementStep (fun x => (w x).sensor) a = some fun x => (w' x).sensor := by
  cases a with
  | sensor x a =>
    obtain ⟨t, ht, rfl⟩ := map_eq_some_iff.mp h
    change Option.map _ (sensorStep (w x).sensor a) = _
    rw [ht, map_some]
    congr 1
    funext y
    by_cases hy : y = x
    · subst hy
      rw [Function.update_self, Function.update_self, sensor_note]
    · rw [Function.update_of_ne hy, Function.update_of_ne hy]
  | pass | restart =>
    cases h
    rfl

/-- Nothing is held of a sensor that is not degraded. A degraded one is held to have started no
earlier than it entered degradation, the stage held was set in its episode, and no escalation was
measured from before. -/
structure OfEpisode (w : EpisodeWatch) : Prop where
  healthy : w.sensor.degraded = false →
    w.sensor.since = none ∧ w.sensor.stage = none ∧ w.sensor.unnotified = false
  started : w.sensor.degraded = true → ∀ at', w.entered = some at' →
    ∃ since, w.sensor.since = some since ∧ at' ≤ since
  staged : w.sensor.stage.isSome = true → w.staged = w.sensor.episode.number
  measured : ∀ m ∈ w.measured, ∀ at', m.2 = some at' → at' ≤ m.1

/-- A pass comes to a sensor while it is degraded, and an escalation that gets out is of the episode
it was begun in. -/
def InEpisode (w : String → EpisodeWatch) : MeasurementStep → Prop
  | .sensor x (.visit _ _) => (w x).sensor.degraded = true
  | .sensor x (.sent _ true) => (w x).sensor.degraded = true ∧
      ∀ stage episode, (w x).sensor.escalation = .sending stage episode →
        episode = (w x).sensor.episode.number
  | _ => True

/-! ### What a step does to what is held -/

/-- What is held of the sensor stays, but that its operator may have been told. -/
structure Kept (s t : SensorMeasurement) : Prop where
  degraded : t.degraded = s.degraded
  since : t.since = s.since
  stage : t.stage = s.stage
  number : t.episode.number = s.episode.number
  unnotified : t.unnotified = true → s.unnotified = true

theorem kept_reconcile (s : SensorMeasurement) (clear : Bool) (streak : ℕ) (taken : Bool) :
    Kept s (s.reconcile clear streak taken) := by
  unfold SensorMeasurement.reconcile
  split_ifs <;> exact ⟨rfl, rfl, rfl, rfl, id⟩

theorem kept_breakRun (s : SensorMeasurement) (taken : Bool) : Kept s (s.breakRun taken) := by
  have h := kept_reconcile { s with validStreak := 0 } false 0 taken
  exact ⟨h.degraded, h.since, h.stage, h.number, h.unnotified⟩

inductive Moves (s : SensorMeasurement) (a : SensorAct) (t : SensorMeasurement) : Prop
  | kept (ha : ∀ now, a ≠ .sent now true) (h : Kept s t)
  | recovered (ha : ∀ now, a ≠ .sent now true) (u : SensorMeasurement) (h : t = u.finishRecovery)
  | entered (now : ℤ) (taken : Bool) (ha : a = .noteRefusal now taken) (hs : s.degraded = false)
      (h : t = (s.breakRun taken).enterDegradation now)
  | anchored (now : ℤ) (reachable : Bool) (ha : a = .visit now reachable) (hs : s.since = none)
      (h : t = { s with listed := false, since := some now })
  | staged (now : ℤ) (stage episode : ℕ) (ha : a = .sent now true)
      (hs : s.escalation = .sending stage episode) (hstage : t.stage = some stage)
      (h : Kept s { t with stage := s.stage })

theorem moves_of_sensorStep {s t : SensorMeasurement} {a : SensorAct} (h : sensorStep s a = some t) :
    Moves s a t := by
  cases a with
  | noteAccepted taken =>
    obtain ⟨-, ⟨-, rfl⟩ | ⟨-, -, rfl⟩ | ⟨-, -, -, rfl⟩ | ⟨-, -, -, -, rfl⟩ | ⟨-, -, -, rfl⟩⟩ :=
      noteAccepted_cases h
    · exact .kept nofun ⟨rfl, rfl, rfl, rfl, id⟩
    · exact .kept nofun { kept_reconcile _ _ _ _ with }
    · exact .kept nofun ⟨rfl, rfl, rfl, rfl, id⟩
    · exact .recovered nofun _ rfl
    · exact .kept nofun { kept_reconcile _ _ _ _ with }
  | noteRefusal now taken =>
    obtain ⟨-, rfl | ⟨-, -, rfl⟩ | ⟨hs, rfl⟩⟩ := noteRefusal_cases h
    · exact .kept nofun (kept_breakRun s taken)
    · exact .kept nofun { kept_breakRun s taken with }
    · exact .entered now taken rfl hs rfl
  | enterLands now =>
    obtain ⟨-, rfl⟩ := enterLands_cases h
    exact .kept nofun ⟨rfl, rfl, rfl, rfl, id⟩
  | enterResumes failed =>
    obtain ⟨-, rfl⟩ := enterResumes_cases h
    exact .kept nofun ⟨rfl, rfl, rfl, rfl, id⟩
  | delivered ok =>
    obtain ⟨-, rfl | rfl⟩ := delivered_cases h
    · exact .kept nofun ⟨rfl, rfl, rfl, rfl, id⟩
    · exact .kept nofun ⟨rfl, rfl, rfl, rfl, nofun⟩
  | notifiedLands now =>
    obtain ⟨-, rfl⟩ := notifiedLands_cases h
    exact .kept nofun ⟨rfl, rfl, rfl, rfl, id⟩
  | notifiedResumes failed =>
    obtain ⟨-, rfl⟩ := notifiedResumes_cases h
    exact .kept nofun ⟨rfl, rfl, rfl, rfl, id⟩
  | writerStarts =>
    obtain ⟨w, -, rfl⟩ := writerStarts_cases h
    exact .kept nofun ⟨rfl, rfl, rfl, rfl, id⟩
  | writerRetries =>
    obtain ⟨w, notified, -, rfl⟩ := writerRetries_cases h
    exact .kept nofun ⟨rfl, rfl, rfl, rfl, id⟩
  | writerLands now =>
    obtain ⟨streak, notified, -, rfl⟩ | ⟨notified, -, rfl⟩ := writerLands_cases h
    · exact .kept nofun ⟨rfl, rfl, rfl, rfl, id⟩
    · exact .kept nofun ⟨rfl, rfl, rfl, rfl, id⟩
  | writerLost =>
    obtain ⟨-, rfl⟩ := writerLost_cases h
    exact .kept nofun ⟨rfl, rfl, rfl, rfl, id⟩
  | writerResumes taken =>
    obtain ⟨streak, -, rfl⟩ | ⟨-, ⟨-, rfl⟩ | rfl⟩ := writerResumes_cases h
    · unfold SensorMeasurement.clearedOnDisk
      split_ifs
      · exact .kept nofun ⟨rfl, rfl, rfl, rfl, id⟩
      · exact .kept nofun { kept_reconcile _ _ _ _ with }
      · exact .recovered nofun _ rfl
    · exact .kept nofun { kept_reconcile _ _ _ _ with }
    · exact .kept nofun ⟨rfl, rfl, rfl, rfl, id⟩
  | visit now reachable =>
    obtain ⟨-, ⟨hs, rfl⟩ | rfl | ⟨since, -, -, rfl⟩⟩ := visit_cases h
    · exact .anchored now reachable rfl hs rfl
    · exact .kept nofun ⟨rfl, rfl, rfl, rfl, id⟩
    · exact .kept nofun ⟨rfl, rfl, rfl, rfl, id⟩
  | sent now ok =>
    obtain ⟨stage, episode, hs, ⟨rfl, rfl⟩ | ⟨rfl, rfl⟩⟩ := sent_cases h
    · exact .kept nofun ⟨rfl, rfl, rfl, rfl, id⟩
    · exact .staged now stage episode rfl hs rfl ⟨rfl, rfl, rfl, rfl, id⟩
  | recordLands now =>
    obtain ⟨stage, since, episode, -, rfl⟩ := recordLands_cases h
    exact .kept nofun ⟨rfl, rfl, rfl, rfl, id⟩
  | recordResumes =>
    obtain ⟨stage, since, episode, -, rfl⟩ := recordResumes_cases h
    exact .kept nofun ⟨rfl, rfl, rfl, rfl, nofun⟩
  | recordFails =>
    obtain ⟨stage, since, episode, -, rfl⟩ := recordFails_cases h
    exact .kept nofun ⟨rfl, rfl, rfl, rfl, id⟩

/-! ### Over whole runs -/

variable {w : EpisodeWatch} {t : SensorMeasurement} {a : SensorAct}

theorem note_same (he : enters w.sensor t = false) (ha : ∀ now, a ≠ .sent now true) :
    w.note t a = { w with sensor := t, measured := (w.note t a).measured } := by
  unfold note
  split
  · rw [he]
    rfl
  · exact absurd rfl (ha _)
  · split <;> rfl
  · rfl

theorem measured_note (w : EpisodeWatch) (t : SensorMeasurement) (a : SensorAct) :
    (w.note t a).measured = w.measured ∨ ∃ now reachable since, a = .visit now reachable ∧
      w.sensor.since = some since ∧ (w.note t a).measured = w.measured ++ [(since, w.entered)] := by
  unfold note
  split
  · split_ifs <;> exact .inl rfl
  · split <;> exact .inl rfl
  · split
    · rename_i hs hg
      exact .inr ⟨_, _, _, rfl, hs, rfl⟩
    · exact .inl rfl
  · exact .inl rfl

theorem ofEpisode_empty : OfEpisode {} where
  healthy _ := ⟨rfl, rfl, rfl⟩
  started h := by cases h
  staged h := by cases h
  measured _ h := absurd h List.not_mem_nil

theorem OfEpisode.restart (h : OfEpisode w) : OfEpisode w.restart := by
  refine ⟨fun hh => ?_, fun _ _ ha => ?_, fun _ => rfl, h.measured⟩
  rotate_left
  · cases ha
  unfold EpisodeWatch.restart SensorMeasurement.restore at hh ⊢
  dsimp only at hh ⊢
  unfold SensorMeasurement.rowDegraded at hh
  cases hr : w.sensor.row with
  | none => exact ⟨rfl, rfl, rfl⟩
  | some row =>
    rw [hr, map_some, getD_some] at hh
    rw [bind_some, bind_some]
    unfold MeasurementRow.noticeSchedule MeasurementRow.degradation
    rw [hh]
    exact ⟨rfl, rfl, rfl⟩

/-- A visit is of a degraded sensor, and what is sent is of the episode it was begun in. -/
theorem OfEpisode.note (h : OfEpisode w)
    (hv : ∀ now reachable, a = .visit now reachable → w.sensor.degraded = true)
    (hse : ∀ now, a = .sent now true → w.sensor.degraded = true ∧
      ∀ stage episode, w.sensor.escalation = .sending stage episode →
        episode = w.sensor.episode.number)
    (hst : sensorStep w.sensor a = some t) : OfEpisode (w.note t a) := by
  have hme : ∀ m ∈ (w.note t a).measured, ∀ at', m.2 = some at' → at' ≤ m.1 := by
    rcases measured_note w t a with hsm | ⟨now, reachable, since, ha, hi, hr⟩
    · rw [hsm]
      exact h.measured
    · intro m hm at' hat
      rcases List.mem_append.mp (hr ▸ hm) with hold | hn
      · exact h.measured m hold at' hat
      rw [List.mem_singleton.mp hn] at hat ⊢
      obtain ⟨since', hs', hl⟩ := h.started (hv now reachable ha) at' hat
      cases hi.symm.trans hs'
      exact hl
  cases moves_of_sensorStep hst with
  | kept ha hk =>
    rw [note_same (by unfold enters; rw [hk.degraded]; cases w.sensor.degraded <;> rfl) ha]
    refine ⟨fun ht => ?_, fun ht => ?_, fun ht => ?_, hme⟩
    · obtain ⟨hi, hg, hun⟩ := h.healthy (hk.degraded ▸ ht)
      refine ⟨hk.since.trans hi, hk.stage.trans hg, Bool.eq_false_iff.mpr fun hu => ?_⟩
      exact absurd (hun.symm.trans (hk.unnotified hu)) nofun
    · rw [hk.since]
      exact h.started (hk.degraded ▸ ht)
    · exact (h.staged (hk.stage ▸ ht)).trans hk.number.symm
  | recovered ha u ht =>
    subst ht
    rw [note_same (show enters w.sensor u.finishRecovery = false from Bool.and_false _) ha]
    exact ⟨fun _ => ⟨rfl, rfl, rfl⟩, nofun, nofun, hme⟩
  | entered now taken ha hs ht =>
    subst ha ht
    obtain ⟨hi, -, -⟩ := h.healthy hs
    have hnote : w.note ((w.sensor.breakRun taken).enterDegradation now) (.noteRefusal now taken) =
        { w with
          sensor := (w.sensor.breakRun taken).enterDegradation now
          entered := some now
          staged := ((w.sensor.breakRun taken).enterDegradation now).episode.number } :=
      if_pos (Bool.and_eq_true_iff.mpr ⟨Bool.not_eq_true' _ ▸ hs, rfl⟩)
    rw [hnote]
    refine ⟨nofun, fun _ at' hat => ⟨now, ?_, (some.inj hat).symm.le⟩, fun _ => rfl, h.measured⟩
    change (w.sensor.breakRun taken).since.or (some now) = some now
    rw [(kept_breakRun w.sensor taken).since, hi]
    rfl
  | anchored now reachable ha hs ht =>
    have hd := hv now reachable ha
    subst ha ht
    rw [note_same (by unfold enters; rw [hd]; rfl) fun _ h => by cases h]
    refine ⟨fun ho => absurd (hd.symm.trans ho) nofun, fun _ at' hat => ?_, h.staged, hme⟩
    obtain ⟨since, hi, -⟩ := h.started hd at' hat
    exact absurd (hs.symm.trans hi) nofun
  | staged now stage episode ha hs hg hk =>
    obtain ⟨hd, he⟩ := hse now ha
    subst ha
    have hnote : w.note t (.sent now true) = { w with sensor := t, staged := episode } := by
      unfold EpisodeWatch.note
      dsimp only
      rw [hs]
    rw [hnote]
    refine ⟨fun ho => ?_, fun _ => ?_, fun _ => ?_, h.measured⟩
    · exact absurd (hd.symm.trans (hk.degraded.symm.trans ho)) nofun
    · exact hk.since ▸ h.started hd
    · exact (he stage episode hs).trans hk.number.symm

theorem OfEpisode.step {w w' : String → EpisodeWatch} {a : MeasurementStep}
    (h : ∀ x, OfEpisode (w x)) (hi : InEpisode w a) (hs : EpisodeWatch.step w a = some w')
    (x : String) : OfEpisode (w' x) := by
  cases a with
  | sensor y a =>
    obtain ⟨t, ht, rfl⟩ := map_eq_some_iff.mp hs
    by_cases hx : x = y
    · subst hx
      rw [Function.update_self]
      refine (h x).note (fun now reachable ha => ?_) (fun now ha => ?_) ht
      · subst ha
        exact hi
      · subst ha
        exact hi
    · rw [Function.update_of_ne hx]
      exact h x
  | pass =>
    cases hs
    exact { h x with }
  | restart =>
    cases hs
    exact (h x).restart

/-- In every run in which a pass comes to sensors that are still degraded, and an escalation gets
out within its episode, what is held of a sensor is of the episode it is in. -/
theorem episode_facts_own {steps : List MeasurementStep} {w : String → EpisodeWatch}
    (hin : Meets step InEpisode (fun _ => {}) steps)
    (hrun : run step (fun _ => {}) steps = some w) (x : String) : OfEpisode (w x) :=
  @run_invariant_of_meets _ _ step _ (fun w => ∀ x, OfEpisode (w x))
    (fun w a w' h hin hstep => @OfEpisode.step w w' a h hin hstep) _ _ _ (fun _ => ofEpisode_empty)
    hin hrun x

section Bench

def benchEntry : List SensorAct :=
  [.noteRefusal 100 true, .noteRefusal 100 true, .noteRefusal 100 true, .enterLands 100,
    .enterResumes false, .delivered true, .notifiedLands 101, .notifiedResumes false]

/-- The sensor recovers between the listing of a pass and its visit. -/
def visitedLate : List MeasurementStep :=
  benchEntry.map (.sensor "b") ++ [.pass] ++
    ([.noteAccepted true, .noteAccepted true, .noteAccepted true, .noteAccepted true,
      .noteAccepted true, .writerStarts, .writerLands 300, .writerResumes true,
      .visit 500 true] : List SensorAct).map (.sensor "b")

def refusedAgain : List MeasurementStep :=
  visitedLate ++ ([.noteRefusal 900 true, .noteRefusal 900 true, .noteRefusal 900 true] :
    List SensorAct).map (.sensor "b")

theorem episode_start_left_behind : (∃ w, Reaches step (fun _ => {}) w ∧
      (w "b").sensor.degraded = false ∧ (w "b").sensor.since = some 500) ∧
    ∃ w, Reaches step (fun _ => {}) w ∧ (w "b").sensor.degraded = true ∧
      (w "b").entered = some 900 ∧ (w "b").sensor.since = some 500 := by
  have hleft : ∃ w, run step (fun _ => {}) visitedLate = some w ∧
      (w "b").sensor.degraded = false ∧ (w "b").sensor.since = some 500 :=
    exists_of_check (by decide +kernel)
  have hagain : ∃ w, run step (fun _ => {}) refusedAgain = some w ∧ (w "b").sensor.degraded = true ∧
      (w "b").entered = some 900 ∧ (w "b").sensor.since = some 500 :=
    exists_of_check (by decide +kernel)
  exact ⟨hleft.imp fun _ hw => ⟨⟨_, hw.1⟩, hw.2⟩, hagain.imp fun _ hw => ⟨⟨_, hw.1⟩, hw.2⟩⟩

def inEpisodeCheck (w : String → EpisodeWatch) : MeasurementStep → Bool
  | .sensor x (.visit _ _) => (w x).sensor.degraded
  | .sensor x (.sent _ true) => (w x).sensor.degraded &&
      match (w x).sensor.escalation with
      | .sending _ episode => decide (episode = (w x).sensor.episode.number)
      | _ => true
  | _ => true

theorem inEpisode_of_check (w : String → EpisodeWatch) (a : MeasurementStep)
    (h : inEpisodeCheck w a = true) : InEpisode w a := by
  unfold inEpisodeCheck at h
  split at h
  · exact h
  · obtain ⟨hd, he⟩ := Bool.and_eq_true_iff.mp h
    refine ⟨hd, fun stage episode hs => ?_⟩
    rw [hs] at he
    exact of_decide_eq_true he
  · unfold InEpisode
    split
    · rename_i hv hse
      exact absurd rfl (hv _ _ _)
    · rename_i hv hse
      exact absurd rfl (hse _ _)
    · trivial

/-- A reminder after six hours, within the episode. -/
def reminded : List MeasurementStep :=
  benchEntry.map (.sensor "b") ++ [.pass, .sensor "b" (.visit 21600100 true),
    .sensor "b" (.sent 21600200 true)]

theorem episode_facts_own_reminded : ∃ w, run step (fun _ => {}) reminded = some w ∧
    (w "b").measured = [(100, some 100)] ∧ (w "b").sensor.stage = some 1 ∧ OfEpisode (w "b") := by
  obtain ⟨w, hw, hmeasured, hstage⟩ : ∃ w, run step (fun _ => {}) reminded = some w ∧
      (w "b").measured = [(100, some 100)] ∧ (w "b").sensor.stage = some 1 :=
    exists_of_check (by decide +kernel)
  have hin : Meets step InEpisode (fun _ => {}) reminded :=
    meets_of_check inEpisode_of_check (by decide +kernel)
  exact ⟨w, hw, hmeasured, hstage, episode_facts_own hin hw "b"⟩

end Bench

end EpisodeWatch

end OriRuntime
