import OriRuntime.MeasurementState

/-!
# The steps of a sensor, by what they find

One lemma for each step: the phase it is taken in, and what it makes of the sensor.
-/

namespace OriRuntime

open Option

variable {s t : SensorMeasurement}

/-! ### Windows -/

theorem noteAccepted_cases {taken : Bool} (ht : s.noteAccepted taken = some t) : s.window = .idle ∧
      ((s.degraded = false ∧ t = { s with refusals := 0 }) ∨
        (s.degraded = true ∧ s.validStreak + 1 < MEASUREMENT_WINDOWS_TO_RECOVER ∧
          t = SensorMeasurement.reconcile { s with validStreak := s.validStreak + 1 } false 0 taken) ∨
        (s.degraded = true ∧ s.diskRecovered = true ∧ s.reconciling = true ∧
          t = { s with validStreak := s.validStreak + 1 }) ∨
        (s.degraded = true ∧ MEASUREMENT_WINDOWS_TO_RECOVER ≤ s.validStreak + 1 ∧
          s.diskRecovered = true ∧ s.reconciling = false ∧
          t = SensorMeasurement.finishRecovery { s with diskRecovered := false }) ∨
        (s.degraded = true ∧ MEASUREMENT_WINDOWS_TO_RECOVER ≤ s.validStreak + 1 ∧
          s.diskRecovered = false ∧
          t = SensorMeasurement.reconcile { s with validStreak := s.validStreak + 1 } true
            (s.validStreak + 1) taken)) := by
  unfold SensorMeasurement.noteAccepted at ht
  split at ht <;> rename_i hw
  · cases ht
  · refine ⟨not_not.mp hw, ?_⟩
    by_cases hd : s.degraded = false
    · rw [if_pos hd] at ht
      exact .inl ⟨hd, (some.inj ht).symm⟩
    · rw [if_neg hd] at ht
      have hd : s.degraded = true := Bool.not_eq_false _ ▸ hd
      by_cases hs : s.validStreak + 1 < MEASUREMENT_WINDOWS_TO_RECOVER
      · rw [if_pos hs] at ht
        exact .inr (.inl ⟨hd, hs, (some.inj ht).symm⟩)
      · rw [if_neg hs] at ht
        by_cases hr : s.diskRecovered = true
        · rw [if_pos hr] at ht
          by_cases he : s.reconciling = true
          · rw [if_pos he] at ht
            exact .inr (.inr (.inl ⟨hd, hr, he, (some.inj ht).symm⟩))
          · rw [if_neg he] at ht
            exact .inr (.inr (.inr (.inl ⟨hd, Nat.not_lt.mp hs, hr,
              Bool.not_eq_true _ ▸ he, (some.inj ht).symm⟩)))
        · rw [if_neg hr] at ht
          exact .inr (.inr (.inr (.inr ⟨hd, Nat.not_lt.mp hs,
            Bool.not_eq_true _ ▸ hr, (some.inj ht).symm⟩)))

theorem noteRefusal_cases {now : ℤ} {taken : Bool} (ht : s.noteRefusal now taken = some t) :
    s.window = .idle ∧ (t = s.breakRun taken ∨ (s.degraded = true ∧ s.unnotified = true ∧
          t = { s.breakRun taken with
            notifyAttempts := s.notifyAttempts + 1, window := .notifying }) ∨
        (s.degraded = false ∧ t = (s.breakRun taken).enterDegradation now)) := by
  unfold SensorMeasurement.noteRefusal at ht
  split at ht <;> rename_i hw
  · cases ht
  · refine ⟨not_not.mp hw, ?_⟩
    by_cases hf : s.refusals + 1 < MEASUREMENT_REFUSALS_BEFORE_DEGRADED
    · rw [if_pos hf] at ht
      exact .inl (some.inj ht).symm
    · rw [if_neg hf] at ht
      by_cases hd : s.degraded = true
      · rw [if_pos hd] at ht
        by_cases hn : s.unnotified = false
        · rw [if_pos hn] at ht
          exact .inl (some.inj ht).symm
        · rw [if_neg hn] at ht
          by_cases hs : MEASUREMENT_NOTIFY_MAX_ATTEMPTS ≤ s.notifyAttempts
          · rw [if_pos hs] at ht
            exact .inl (some.inj ht).symm
          · rw [if_neg hs] at ht
            exact .inr (.inl ⟨hd, Bool.not_eq_false _ ▸ hn, (some.inj ht).symm⟩)
      · rw [if_neg hd] at ht
        exact .inr (.inr ⟨Bool.not_eq_true _ ▸ hd, (some.inj ht).symm⟩)

theorem enterLands_cases {now : ℤ} (ht : s.enterLands now = some t) : s.window = .entering false ∧
    t = { s.persist now false with window := .entering true } := by
  unfold SensorMeasurement.enterLands at ht
  split at ht <;> rename_i he
  · exact ⟨he, (some.inj ht).symm⟩
  · cases ht

theorem enterResumes_cases {failed : Bool} (ht : s.enterResumes failed = some t) :
    s.window = .entering (!failed) ∧
      t = { s with window := .notifying, notifyAttempts := 1, lost := s.lost || failed } := by
  unfold SensorMeasurement.enterResumes at ht
  split at ht <;> rename_i he
  · exact ⟨he, (some.inj ht).symm⟩
  · cases ht

theorem delivered_cases {ok : Bool} (ht : s.delivered ok = some t) : s.window = .notifying ∧
    (t = { s with window := .idle } ∨
      t = { s with
        window := .notified false
        unnotified := false
        notifyAttempts := 0
        episode := { s.episode with sent := s.episode.sent ++ [0] } }) := by
  unfold SensorMeasurement.delivered at ht
  split at ht <;> rename_i hn
  · cases ht
  · refine ⟨not_not.mp hn, ?_⟩
    split_ifs at ht with ho
    · exact .inl (some.inj ht).symm
    · exact .inr (some.inj ht).symm

theorem notifiedLands_cases {now : ℤ} (ht : s.notifiedLands now = some t) :
    s.window = .notified false ∧ t = { s.persist now true with window := .notified true } := by
  unfold SensorMeasurement.notifiedLands at ht
  split at ht <;> rename_i hn
  · exact ⟨hn, (some.inj ht).symm⟩
  · cases ht

theorem notifiedResumes_cases {failed : Bool} (ht : s.notifiedResumes failed = some t) :
    s.window = .notified (!failed) ∧ t = { s with window := .idle, lost := s.lost || failed } := by
  unfold SensorMeasurement.notifiedResumes at ht
  split at ht <;> rename_i hn
  · exact ⟨hn, (some.inj ht).symm⟩
  · cases ht

/-! ### The measurement writer -/

theorem writerStarts_cases (ht : s.writerStarts = some t) : ∃ w, s.writer = .queued w ∧
    t = { s with writer := .writing w (!s.unnotified) } := by
  unfold SensorMeasurement.writerStarts at ht
  cases hw : s.writer with
  | queued w =>
    rw [hw] at ht
    exact ⟨w, rfl, (some.inj ht).symm⟩
  | _ =>
    rw [hw] at ht
    cases ht

theorem writerRetries_cases (ht : s.writerRetries = some t) : ∃ w notified,
    s.writer = .writing w notified ∧ t = { s with writer := .queued w } := by
  unfold SensorMeasurement.writerRetries at ht
  cases hw : s.writer with
  | writing w notified =>
    rw [hw] at ht
    exact ⟨w, notified, rfl, (some.inj ht).symm⟩
  | _ =>
    rw [hw] at ht
    cases ht

theorem writerLost_cases (ht : s.writerLost = some t) :
    s.writer ≠ .idle ∧ t = { s with writer := .idle, reconciling := false, lost := true } := by
  unfold SensorMeasurement.writerLost at ht
  cases hw : s.writer with
  | queued w | writing w notified =>
    rw [hw] at ht
    exact ⟨nofun, (some.inj ht).symm⟩
  | _ =>
    rw [hw] at ht
    cases ht

theorem writerLands_cases {now : ℤ} (ht : s.writerLands now = some t) :
    (∃ streak notified, s.writer = .writing (.clear streak) notified ∧
        t = { s with
          row := some (MeasurementRow.clear now s.row)
          writer := .landed (.clear streak)
          episode := { s.episode with cleared := true } }) ∨
      (∃ notified, s.writer = .writing .restore notified ∧
        t = { s.persist now notified with writer := .landed .restore }) := by
  unfold SensorMeasurement.writerLands at ht
  cases hw : s.writer with
  | writing w notified =>
    cases w with
    | clear streak =>
      simp only [hw] at ht
      exact .inl ⟨streak, notified, rfl, (some.inj ht).symm⟩
    | restore =>
      simp only [hw] at ht
      exact .inr ⟨notified, rfl, (some.inj ht).symm⟩
  | _ =>
    simp only [hw] at ht
    cases ht

theorem clearedOnDisk_cases (taken : Bool) (hd : s.degraded = true) :
    (s.validStreak < MEASUREMENT_WINDOWS_TO_RECOVER ∧ s.clearedOnDisk taken =
        SensorMeasurement.reconcile { s with diskRecovered := true } false 0 taken) ∨
      (MEASUREMENT_WINDOWS_TO_RECOVER ≤ s.validStreak ∧
        s.clearedOnDisk taken = s.finishRecovery) := by
  unfold SensorMeasurement.clearedOnDisk
  rw [if_neg (by rw [hd]; exact nofun)]
  by_cases hb : s.validStreak < MEASUREMENT_WINDOWS_TO_RECOVER
  · exact .inl ⟨hb, if_pos hb⟩
  · exact .inr ⟨Nat.not_lt.mp hb, if_neg hb⟩

theorem writerResumes_cases {taken : Bool} (ht : s.writerResumes taken = some t) :
    (∃ streak, s.writer = .landed (.clear streak) ∧ t = SensorMeasurement.clearedOnDisk
          { s with writer := .idle, reconciling := false } taken) ∨
      (s.writer = .landed .restore ∧ ((s.degraded = true ∧ t = SensorMeasurement.reconcile
            { s with writer := .idle, reconciling := false, diskRecovered := false } true
              s.validStreak taken) ∨
          t = { s with writer := .idle, reconciling := false, diskRecovered := false })) := by
  unfold SensorMeasurement.writerResumes at ht
  cases hw : s.writer with
  | landed w =>
    cases w with
    | clear streak =>
      simp only [hw] at ht
      exact .inl ⟨streak, rfl, (some.inj ht).symm⟩
    | restore =>
      simp only [hw] at ht
      refine .inr ⟨rfl, ?_⟩
      split_ifs at ht with hc
      · exact .inl ⟨hc.1, (some.inj ht).symm⟩
      · exact .inr (some.inj ht).symm
  | _ =>
    simp only [hw] at ht
    cases ht

/-! ### Escalations -/

theorem visit_cases {now : ℤ} {reachable : Bool} (ht : s.visit now reachable = some t) :
    s.escalation = .idle ∧ ((s.since = none ∧ t = { s with listed := false, since := some now }) ∨
        t = { s with listed := false } ∨
        (∃ since, s.since = some since ∧ s.stage.getD 0 < measurementNoticeStageDue (now - since) ∧
          t = { s with
            listed := false
            escalation := .sending (measurementNoticeStageDue (now - since)) s.episode.number })) := by
  unfold SensorMeasurement.visit at ht
  split at ht <;> rename_i hn
  · cases ht
  · refine ⟨not_not.mp (not_or.mp hn).2, ?_⟩
    cases hs : s.since with
    | none =>
      simp only [hs] at ht
      exact .inl ⟨rfl, (some.inj ht).symm⟩
    | some since =>
      simp only [hs] at ht
      split_ifs at ht with hd
      · refine .inr (.inl ?_)
        exact (some.inj ht).symm
      · refine .inr (.inr ⟨since, rfl, Nat.not_le.mp (not_or.mp hd).1, ?_⟩)
        exact (some.inj ht).symm

theorem sent_cases {now : ℤ} {ok : Bool} (ht : s.sent now ok = some t) : ∃ stage episode,
    s.escalation = .sending stage episode ∧ ((ok = false ∧ t = { s with escalation := .idle }) ∨
        (ok = true ∧
          t = { s with
            stage := some stage
            escalation := .recording stage (s.since.getD now) episode false
            episode := { s.episode with sent := s.episode.sent ++ [stage] } })) := by
  unfold SensorMeasurement.sent at ht
  cases he : s.escalation with
  | sending stage episode =>
    simp only [he] at ht
    refine ⟨stage, episode, rfl, ?_⟩
    cases ok with
    | false =>
      rw [if_pos rfl] at ht
      exact .inl ⟨rfl, (some.inj ht).symm⟩
    | true =>
      rw [if_neg nofun] at ht
      exact .inr ⟨rfl, (some.inj ht).symm⟩
  | _ =>
    simp only [he] at ht
    cases ht

theorem recordLands_cases {now : ℤ} (ht : s.recordLands now = some t) : ∃ stage since episode,
    s.escalation = .recording stage since episode false ∧
      t = { s with
        row := some (MeasurementRow.recordNoticeDelivered now stage since s.row)
        escalation := .recording stage since episode true
        episode :=
          { s.episode with
            firstPersisted := s.episode.firstPersisted.or
              (MeasurementRow.recordNoticeDelivered now stage since s.row).degradedSince
            recorded := s.episode.recorded ++ [stage] } } := by
  unfold SensorMeasurement.recordLands at ht
  split at ht
  · rename_i stage since episode he
    exact ⟨stage, since, episode, he, (some.inj ht).symm⟩
  · cases ht

theorem recordResumes_cases (ht : s.recordResumes = some t) : ∃ stage since episode,
    s.escalation = .recording stage since episode true ∧
      t = { s with escalation := .idle, unnotified := false, notifyAttempts := 0 } := by
  unfold SensorMeasurement.recordResumes at ht
  split at ht
  · rename_i stage since episode he
    exact ⟨stage, since, episode, he, (some.inj ht).symm⟩
  · cases ht

theorem recordFails_cases (ht : s.recordFails = some t) : ∃ stage since episode,
    s.escalation = .recording stage since episode false ∧
      t = { s with escalation := .idle, lost := true } := by
  unfold SensorMeasurement.recordFails at ht
  split at ht
  · rename_i stage since episode he
    exact ⟨stage, since, episode, he, (some.inj ht).symm⟩
  · cases ht

end OriRuntime
