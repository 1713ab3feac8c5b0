import OriRuntime.MeasurementDisk

/-!
# Memory never healthier than disk

Where the runtime ends a degradation it takes the row to say recovered, and where an escalation is
recorded it takes the sensor to be degraded still.
-/

namespace OriRuntime

open Option

open Execution

variable {s t : SensorMeasurement}

/-! ### Sensor by sensor -/

/-- What every step of a sensor, and a restart for every sensor, meets. -/
def EachSensor (C : SensorMeasurement → SensorAct → Prop) (R : SensorMeasurement → Prop)
    (s : String → SensorMeasurement) : MeasurementStep → Prop
  | .sensor x a => C (s x) a
  | .pass => True
  | .restart => ∀ x, R (s x)

theorem run_eachSensor {C : SensorMeasurement → SensorAct → Prop} {R Inv : SensorMeasurement → Prop}
    (hs : Inv {}) (ht : ∀ u a v, Inv u → C u a → sensorStep u a = some v → Inv v)
    (hpass : ∀ u, Inv u → Inv { u with listed := u.degraded })
    (hr : ∀ u, Inv u → R u → Inv u.restore) {as : List MeasurementStep}
    {s : String → SensorMeasurement} (h : run measurementStep (fun _ => {}) as = some s)
    (hm : Meets measurementStep (EachSensor C R) (fun _ => {}) as) (x : String) : Inv (s x) := by
  have ha : ∀ u a v, (∀ y, Inv (u y)) → EachSensor C R u a → measurementStep u a = some v →
      ∀ y, Inv (v y) := by
    intro u a v hu hC hv y
    cases a with
    | sensor z a =>
      obtain ⟨w, hw, rfl⟩ := map_eq_some_iff.mp hv
      by_cases hsm : y = z
      · subst hsm
        rw [Function.update_self]
        exact ht _ _ _ (hu y) hC hw
      · rw [Function.update_of_ne hsm]
        exact hu y
    | pass =>
      cases hv
      exact hpass _ (hu y)
    | restart =>
      cases hv
      exact hr _ (hu y) (hC y)
  exact run_invariant_of_meets ha (fun _ => hs) hm h x

/-! ### What memory calls healthy -/

def SensorMeasurement.Healthy (s : SensorMeasurement) : Prop :=
  s.degraded = false → s.rowDegraded = false

/-- An escalation is recorded only while its sensor is degraded, and a degradation is ended without
a write only while the row says recovered. -/
def RowAgrees (s : SensorMeasurement) : SensorAct → Prop
  | .recordLands _ => s.degraded = true
  | .writerResumes _ => ∀ streak, s.writer = .landed (.clear streak) →
      MEASUREMENT_WINDOWS_TO_RECOVER ≤ s.validStreak → s.rowDegraded = false
  | .noteAccepted _ => s.degraded = true → s.diskRecovered = true → s.reconciling = false →
      MEASUREMENT_WINDOWS_TO_RECOVER ≤ s.validStreak + 1 → s.rowDegraded = false
  | _ => True

namespace SensorMeasurement.Healthy

theorem of_degraded (h : t.degraded = true) : t.Healthy := by
  intro he
  rw [h] at he
  cases he

variable (hh : s.Healthy)

include hh

theorem kept (hd : t.degraded = s.degraded) (hr : t.row = s.row) : t.Healthy := by
  intro he
  unfold SensorMeasurement.rowDegraded
  rw [hr]
  exact hh (hd ▸ he)

theorem noteAccepted {taken : Bool} (ha : RowAgrees s (.noteAccepted taken))
    (ht : s.noteAccepted taken = some t) : t.Healthy := by
  obtain ⟨-, ⟨-, rfl⟩ | ⟨hd, -, rfl⟩ | ⟨hd, -, -, rfl⟩ |
    ⟨hd, hlong, hr, hf, rfl⟩ | ⟨hd, -, -, rfl⟩⟩ := noteAccepted_cases ht
  · exact hh.kept rfl rfl
  · exact of_degraded ((reconcile_reconciles _ _ _).degraded.trans hd)
  · exact of_degraded hd
  · exact fun _ => ha hd hr hf hlong
  · exact of_degraded ((reconcile_reconciles _ _ _).degraded.trans hd)

theorem noteRefusal {now : ℤ} {taken : Bool} (ht : s.noteRefusal now taken = some t) :
    t.Healthy := by
  have hl := reconcile_reconciles (s := { s with validStreak := 0 }) false 0 taken
  obtain ⟨-, rfl | ⟨hd, -, rfl⟩ | ⟨-, rfl⟩⟩ := noteRefusal_cases ht
  · exact hh.kept hl.degraded hl.row
  · exact of_degraded (hl.degraded.trans hd)
  · exact of_degraded rfl

omit hh in
theorem writerLands (hs : DiskSound s) {now : ℤ} (ht : s.writerLands now = some t) : t.Healthy := by
  rcases writerLands_cases ht with ⟨streak, notified, -, rfl⟩ | ⟨notified, hw, rfl⟩
  · exact fun _ => MeasurementRow.degraded_clear now s.row
  · exact of_degraded (hs.recovered (hs.restoring (by rw [hw]; rfl)))

theorem writerResumes (hs : DiskSound s) {taken : Bool}
    (ha : RowAgrees s (.writerResumes taken)) (ht : s.writerResumes taken = some t) :
    t.Healthy := by
  rcases writerResumes_cases ht with ⟨streak, hw, rfl⟩ | ⟨-, ⟨hd, rfl⟩ | rfl⟩
  · obtain ⟨-, hd⟩ := hs.clearing (by rw [hw]; rfl)
    rcases clearedOnDisk_cases (s := { s with writer := .idle, reconciling := false }) taken
      hd with ⟨-, h⟩ | ⟨hc, h⟩
    · rw [h]
      exact of_degraded ((reconcile_reconciles _ _ _).degraded.trans hd)
    · rw [h]
      exact fun _ => ha streak hw hc
  · exact of_degraded ((reconcile_reconciles _ _ _).degraded.trans hd)
  · exact hh.kept rfl rfl

theorem step (hs : DiskSound s) {a : SensorAct} (ha : RowAgrees s a)
    (ht : sensorStep s a = some t) : t.Healthy := by
  have hu : ∀ {u : SensorMeasurement}, s.window ≠ .idle → u.degraded = s.degraded →
      u.Healthy := fun hw hd => of_degraded (hd.trans (hs.window hw).1)
  cases a with
  | noteAccepted taken => exact hh.noteAccepted ha ht
  | noteRefusal now taken => exact hh.noteRefusal ht
  | enterLands now =>
    obtain ⟨hw, rfl⟩ := enterLands_cases ht
    exact hu (by rw [hw]; exact nofun) rfl
  | enterResumes failed =>
    obtain ⟨-, rfl⟩ := enterResumes_cases ht
    exact hh.kept rfl rfl
  | delivered ok =>
    obtain ⟨-, rfl | rfl⟩ := delivered_cases ht
    all_goals exact hh.kept rfl rfl
  | notifiedLands now =>
    obtain ⟨hw, rfl⟩ := notifiedLands_cases ht
    exact hu (by rw [hw]; exact nofun) rfl
  | notifiedResumes failed =>
    obtain ⟨-, rfl⟩ := notifiedResumes_cases ht
    exact hh.kept rfl rfl
  | writerStarts =>
    obtain ⟨w, -, rfl⟩ := writerStarts_cases ht
    exact hh.kept rfl rfl
  | writerRetries =>
    obtain ⟨w, notified, -, rfl⟩ := writerRetries_cases ht
    exact hh.kept rfl rfl
  | writerLands now => exact writerLands hs ht
  | writerLost =>
    obtain ⟨-, rfl⟩ := writerLost_cases ht
    exact hh.kept rfl rfl
  | writerResumes taken => exact hh.writerResumes hs ha ht
  | visit now reachable =>
    obtain ⟨-, ⟨-, rfl⟩ | rfl | ⟨since, -, -, rfl⟩⟩ := visit_cases ht
    all_goals exact hh.kept rfl rfl
  | sent now ok =>
    obtain ⟨stage, episode, -, ⟨-, rfl⟩ | ⟨-, rfl⟩⟩ := sent_cases ht
    all_goals exact hh.kept rfl rfl
  | recordLands now =>
    obtain ⟨stage, since, episode, -, rfl⟩ := recordLands_cases ht
    exact of_degraded ha
  | recordResumes =>
    obtain ⟨stage, since, episode, -, rfl⟩ := recordResumes_cases ht
    exact hh.kept rfl rfl
  | recordFails =>
    obtain ⟨stage, since, episode, -, rfl⟩ := recordFails_cases ht
    exact hh.kept rfl rfl

end SensorMeasurement.Healthy

/-! ### Every run -/

/-- No write of the sensor is owed or under way, and no notice or escalation of it. -/
structure SensorMeasurement.Quiet (s : SensorMeasurement) : Prop where
  window : s.window = .idle
  writer : s.writer = .idle
  escalation : s.escalation = .idle

theorem measurement_memory_not_healthier {as : List MeasurementStep}
    {s : String → SensorMeasurement} (h : run measurementStep (fun _ => {}) as = some s)
    (hagrees : Meets measurementStep (EachSensor RowAgrees fun _ => True) (fun _ => {}) as)
    (x : String) :
    ((s x).degraded = false → (s x).rowDegraded = false) ∧
    ((s x).Quiet → (s x).lost = false → ((s x).degraded = true ↔ (s x).rowDegraded = true)) := by
  have hboth : DiskSound (s x) ∧ (s x).Healthy := by
    refine @run_eachSensor RowAgrees (fun _ => True) (fun u => DiskSound u ∧ u.Healthy)
      ⟨.start, fun _ => rfl⟩ (fun u a v hu ha hv => ⟨hu.1.step hv, hu.2.step hu.1 ha hv⟩)
      (fun u hu => ⟨hu.1.beside (.inr rfl) id, hu.2.kept rfl rfl⟩)
      (fun u hu _ => ⟨.restore, fun h => h⟩) as s h hagrees x
  obtain ⟨hs, hh⟩ := hboth
  refine ⟨hh, fun hquiet hlost => ⟨fun hdegraded => ?_, fun hrow => ?_⟩⟩
  · by_contra hrow
    rcases hs.owed hlost hdegraded (Bool.not_eq_true _ ▸ hrow) with hentering | howes
    · rw [hquiet.window] at hentering
      cases hentering
    · rw [hquiet.writer] at howes
      cases howes
  · by_contra hhealthy
    rw [hh (Bool.not_eq_true _ ▸ hhealthy)] at hrow
    cases hrow

/-- A sensor degrades and is reported, and an escalation of it is being sent when it recovers. -/
def recoveredWhileSending : List MeasurementStep :=
  ([.noteRefusal 0 true, .noteRefusal 1 true, .noteRefusal 2 true, .enterLands 3,
    .enterResumes false, .delivered true, .notifiedLands 4, .notifiedResumes false] : List
      SensorAct).map (.sensor "ct") ++ [.pass] ++
  ([.visit 22000000 true, .noteAccepted true, .noteAccepted true, .noteAccepted true,
    .noteAccepted true, .noteAccepted true, .writerStarts, .writerLands 22000001,
    .writerResumes true] : List SensorAct).map (.sensor "ct")

def recordedAfterRecovery : List MeasurementStep :=
  recoveredWhileSending ++
    ([.sent 22000002 true, .recordLands 22000003, .recordResumes] : List SensorAct).map
      (.sensor "ct")

theorem recordedAfterRecovery_healthier : ∃ s,
    run measurementStep (fun _ => {}) recordedAfterRecovery = some s ∧ (s "ct").Quiet ∧
      (s "ct").lost = false ∧ (s "ct").degraded = false ∧ (s "ct").rowDegraded = true := by
  obtain ⟨s, hrun, hwindow, hwriter, hescalation, hrest⟩ : ∃ s,
      run measurementStep (fun _ => {}) recordedAfterRecovery = some s ∧ (s "ct").window = .idle ∧
      (s "ct").writer = .idle ∧ (s "ct").escalation = .idle ∧ (s "ct").lost = false ∧
      (s "ct").degraded = false ∧ (s "ct").rowDegraded = true := exists_of_check (by decide +kernel)
  exact ⟨s, hrun, ⟨hwindow, hwriter, hescalation⟩, hrest⟩

def rowAgreesCheck (s : String → SensorMeasurement) : MeasurementStep → Bool
  | .sensor x (.recordLands _) => (s x).degraded
  | .sensor x (.writerResumes _) => !(s x).rowDegraded
  | .sensor x (.noteAccepted _) => !(s x).diskRecovered
  | _ => true

theorem rowAgrees_of_check (s : String → SensorMeasurement) (a : MeasurementStep)
    (h : rowAgreesCheck s a = true) : EachSensor RowAgrees (fun _ => True) s a := by
  cases a with
  | pass => trivial
  | restart => exact fun _ => trivial
  | sensor x a =>
    cases a with
    | recordLands now => exact h
    | writerResumes taken => exact fun _ _ _ => Bool.not_inj h
    | noteAccepted taken =>
      intro _ hr
      have hn : (s x).diskRecovered = false := Bool.not_inj h
      rw [hr] at hn
      cases hn
    | _ => trivial

theorem measurement_memory_not_healthier_of_recovered : ∃ s,
    run measurementStep (fun _ => {}) recoveredWhileSending = some s ∧
      (s "ct").degraded = false ∧ (s "ct").rowDegraded = false := by
  obtain ⟨s, hrun, hdegraded⟩ : ∃ s, run measurementStep (fun _ => {}) recoveredWhileSending =
      some s ∧ (s "ct").degraded = false := exists_of_check (by decide +kernel)
  exact ⟨s, hrun, hdegraded, (measurement_memory_not_healthier hrun
    (meets_of_check rowAgrees_of_check (by decide +kernel)) "ct").1 hdegraded⟩

end OriRuntime
