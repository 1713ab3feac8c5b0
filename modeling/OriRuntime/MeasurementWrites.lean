import OriRuntime.MeasurementSchedule

/-!
# Writes and notices of an episode

The steps that write the row or send a notice keep what the row tells of an episode.
-/

namespace OriRuntime

open List Option

variable {s t : SensorMeasurement}

namespace EpisodeSound

variable (hs : EpisodeSound s)

include hs

/-! ### Writes of the row -/

theorem persisted (hd : s.degraded = true) {now : ℤ} {notified : Bool}
    {window : WindowPhase} {writer : WriterPhase}
    (hw : writer = s.writer ∨ writer = .landed .restore)
    (hn : window.notifies = true → s.window.notifies = true)
    (hnoti : s.episode.cleared = false → 0 ∈ s.episode.sent → notified = true) :
    EpisodeSound { s.persist now notified with window := window, writer := writer } where
  clean row hr hh := by
    cases hr
    rw [MeasurementRow.degraded_setDegraded] at hh
    cases hh
  dated row hr _ := by
    cases hr
    rw [MeasurementRow.degradedSince_setDegraded]
    exact or_some_ne_none _ _
  nodup := hs.nodup
  past := hs.past
  marked := hs.marked
  landed streak h := by
    rcases hw with rfl | rfl
    · exact hs.landed streak h
    · cases h
  sent := hs.sent
  recorded := hs.recorded
  due := hs.due
  recording := hs.recording
  zero := hs.zero
  notifying h := hs.notifying (hn h)
  row _ hc := by
    have ht := hs.row hd hc
    exact
      { started := fun _ => rowDegraded_persist now notified
        unpersisted := fun h =>
          absurd ((rowDegraded_persist (s := s) now notified).symm.trans h) nofun
        first := fun row hr _ => by
          cases hr
          change s.episode.firstPersisted.or _ = _
          cases hdown : s.rowDegraded with
          | false =>
            rw [(ht.unpersisted hdown).1]
            rfl
          | true =>
            obtain ⟨old, hold, hdown⟩ := SensorMeasurement.exists_row_of_rowDegraded hdown
            obtain ⟨since, hi⟩ := ne_none_iff_exists'.mp (hs.dated old hold hdown)
            rw [ht.first old hold hdown, MeasurementRow.degradedSince_setDegraded, hold,
              bind_some, hi]
            rfl
        reached := fun row hr _ => by
          cases hr
          rw [MeasurementRow.noticeStage_setDegraded]
          change (∀ k ∈ s.episode.recorded, _) ∧ (_ ∨ _ ∈ s.episode.recorded)
          cases hold : s.row with
          | none =>
            have ho := (ht.unpersisted (by
              unfold SensorMeasurement.rowDegraded
              rw [hold]
              rfl)).2
            rw [ho]
            exact ⟨fun k hk => (by cases hk), .inl rfl⟩
          | some old =>
            cases hdown : old.degraded with
            | true => exact ht.reached old hold hdown
            | false =>
              have ho := (ht.unpersisted (by
                unfold SensorMeasurement.rowDegraded
                rw [hold]
                exact hdown)).2
              rw [ho]
              exact ⟨fun k hk => (by cases hk), .inl (hs.clean old hold hdown).2⟩
        told := ht.told
        noticed := fun hm => by
          obtain rfl := hnoti hc hm
          refine .inr ⟨_, rfl, ?_⟩
          rw [MeasurementRow.notifiedAt_setDegraded]
          exact or_some_ne_none _ _ }

theorem cleared {now : ℤ} {writer : WriterPhase} : EpisodeSound
      { s with
        row := some (MeasurementRow.clear now s.row)
        writer := writer
        episode := { s.episode with cleared := true } } where
  clean row hr _ := by
    cases hr
    cases s.row <;> exact ⟨rfl, rfl⟩
  dated row hr hdown := by
    cases hr
    rw [MeasurementRow.degraded_clear] at hdown
    cases hdown
  nodup := hs.nodup
  past := hs.past
  marked _ := rfl
  landed _ _ := rfl
  sent := hs.sent
  recorded := hs.recorded
  due := hs.due
  recording := hs.recording
  zero := hs.zero
  notifying := hs.notifying
  row _ h := by cases h

/-! ### Notices -/

theorem noticed (hd : s.degraded = true) (hw : s.window = .notifying) :
    EpisodeSound
      { s with
        window := .notified false
        unnotified := false
        notifyAttempts := 0
        episode := { s.episode with sent := s.episode.sent ++ [0] } } := by
  have hf := hs.notifying (by rw [hw]; rfl)
  have hm : ∀ {k}, k ∈ s.episode.sent ++ [0] → k ∈ s.episode.sent ∨ k = 0 := fun hk => by
    rcases mem_append.mp hk with hold | hn
    · exact .inl hold
    · exact .inr (mem_singleton.mp hn)
  exact
    { clean := hs.clean
      dated := hs.dated
      nodup := nodup_append.mpr ⟨hs.nodup, nodup_singleton 0, fun a ha b hb => by
        obtain rfl := mem_singleton.mp hb
        rintro rfl
        exact hf ha⟩
      past := hs.past
      marked := hs.marked
      landed := hs.landed
      sent := fun _ k hk => by
        rcases hm hk with hold | rfl
        · exact hs.sent hd k hold
        · exact Nat.zero_le _
      recorded := hs.recorded
      due := hs.due
      recording := hs.recording
      zero := fun _ _ => rfl
      notifying := fun h => by cases h
      row := fun _ hc => by
        have ht := hs.row hd hc
        exact
          { started := fun _ => ht.started (by rw [hw]; exact nofun)
            unpersisted := ht.unpersisted
            first := ht.first
            reached := ht.reached
            told := fun k hk => by
              rcases hm hk with hold | rfl
              · exact ht.told k hold
              · exact .inl rfl
            noticed := fun _ => .inl rfl } }

theorem sending {k : ℕ} (hu : s.stage.getD 0 < k) (hidle : s.escalation = .idle) :
    EpisodeSound { s with listed := false, escalation := .sending k s.episode.number } where
  clean := hs.clean
  dated := hs.dated
  nodup := hs.nodup
  past episode h := by
    cases h
    exact le_refl _
  marked := hs.marked
  landed := hs.landed
  sent := hs.sent
  recorded := hs.recorded
  due _ j h := by
    obtain ⟨rfl, -⟩ := EscalationPhase.sending.inj h
    exact hu
  recording _ j since landed h := by cases h
  zero := hs.zero
  notifying := hs.notifying
  row hd hc := by
    have ht := hs.row hd hc
    exact
      { started := ht.started
        unpersisted := ht.unpersisted
        first := ht.first
        reached := ht.reached
        told := fun j hj => by
          rcases ht.told j hj with hzero | hreco | ⟨since, hr⟩
          · exact .inl hzero
          · exact .inr (.inl hreco)
          · rw [hidle] at hr
            cases hr
        noticed := ht.noticed }

theorem escalated (hd : s.degraded = true) {k : ℕ} {since : ℤ}
    (he : s.escalation = .sending k s.episode.number) :
    EpisodeSound
      { s with
        stage := some k
        escalation := .recording k since s.episode.number false
        episode := { s.episode with sent := s.episode.sent ++ [k] } } := by
  have hu := hs.due hd k he
  have hf : k ∉ s.episode.sent := fun h => by
    have hl := hs.sent hd k h
    omega
  have hm : ∀ {j}, j ∈ s.episode.sent ++ [k] → j ∈ s.episode.sent ∨ j = k := fun hj => by
    rcases mem_append.mp hj with hold | hn
    · exact .inl hold
    · exact .inr (mem_singleton.mp hn)
  have hzero : 0 ∈ s.episode.sent ++ [k] → 0 ∈ s.episode.sent := fun h => by
    rcases hm h with hold | rfl
    · exact hold
    · omega
  exact
    { clean := hs.clean
      dated := hs.dated
      nodup := nodup_append.mpr ⟨hs.nodup, nodup_singleton k, fun a ha b hb => by
        obtain rfl := mem_singleton.mp hb
        rintro rfl
        exact hf ha⟩
      past := fun episode h => by
        cases h
        exact le_refl _
      marked := hs.marked
      landed := hs.landed
      sent := fun _ j hj => by
        rcases hm hj with hold | rfl
        · exact Nat.le_of_lt (Nat.lt_of_le_of_lt (hs.sent hd j hold) hu)
        · exact le_refl _
      recorded := fun _ j hj =>
        Nat.le_of_lt (Nat.lt_of_le_of_lt (hs.recorded hd j hj) hu)
      due := fun _ j h => by cases h
      recording := fun _ j since' landed h => by
        obtain ⟨rfl, -⟩ := EscalationPhase.recording.inj h
        rfl
      zero := fun h hj => hs.zero h (hzero hj)
      notifying := fun h hj => hs.notifying h (hzero hj)
      row := fun _ hc => by
        have ht := hs.row hd hc
        exact
          { started := ht.started
            unpersisted := ht.unpersisted
            first := ht.first
            reached := ht.reached
            told := fun j hj => by
              rcases hm hj with hold | rfl
              · rcases ht.told j hold with ho | hreco | ⟨since', hr⟩
                · exact .inl ho
                · exact .inr (.inl hreco)
                · rw [he] at hr
                  cases hr
              · exact .inr (.inr ⟨since, rfl⟩)
            noticed := fun hj => ht.noticed (hzero hj) } }

theorem escalationRecorded (hd : s.degraded = true) {k : ℕ} {since now : ℤ}
    (he : s.escalation = .recording k since s.episode.number false) :
    EpisodeSound
      { s with
        row := some (MeasurementRow.recordNoticeDelivered now k since s.row)
        escalation := .recording k since s.episode.number true
        episode :=
          { s.episode with
            firstPersisted := s.episode.firstPersisted.or
              (MeasurementRow.recordNoticeDelivered now k since s.row).degradedSince
            recorded := s.episode.recorded ++ [k] } } := by
  have hg := hs.recording hd k since false he
  have hl : ∀ j ∈ s.episode.recorded, j ≤ k := fun j hj => by
    have h := hs.recorded hd j hj
    rw [hg] at h
    exact h
  have hm : ∀ {j}, j ∈ s.episode.recorded ++ [k] → j ∈ s.episode.recorded ∨ j = k := fun hj => by
    rcases mem_append.mp hj with hold | hn
    · exact .inl hold
    · exact .inr (mem_singleton.mp hn)
  exact
    { clean := fun row hr hh => by
        cases hr
        rw [MeasurementRow.degraded_recordNoticeDelivered] at hh
        cases hh
      dated := fun row hr _ => by
        cases hr
        rw [MeasurementRow.degradedSince_recordNoticeDelivered]
        exact or_some_ne_none _ _
      nodup := hs.nodup
      past := fun episode h => by
        cases h
        exact le_refl _
      marked := hs.marked
      landed := hs.landed
      sent := hs.sent
      recorded := fun _ j hj => by
        change j ≤ s.stage.getD 0
        rw [hg]
        rcases hm hj with hold | rfl
        · exact hl j hold
        · exact le_refl _
      due := fun _ j h => by cases h
      recording := fun _ j since' landed h => by
        obtain ⟨rfl, -⟩ := EscalationPhase.recording.inj h
        exact hg
      zero := hs.zero
      notifying := hs.notifying
      row := fun _ hc => by
        have ht := hs.row hd hc
        exact
          { started := fun _ => MeasurementRow.degraded_recordNoticeDelivered now k since s.row
            unpersisted := fun h => absurd
              ((MeasurementRow.degraded_recordNoticeDelivered now k since s.row).symm.trans h)
              nofun
            first := fun row hr _ => by
              cases hr
              change s.episode.firstPersisted.or _ = _
              cases hdown : s.rowDegraded with
              | false =>
                rw [(ht.unpersisted hdown).1]
                rfl
              | true =>
                obtain ⟨old, hold, hdown⟩ := SensorMeasurement.exists_row_of_rowDegraded hdown
                obtain ⟨start, hst⟩ :=
                  ne_none_iff_exists'.mp (hs.dated old hold hdown)
                rw [ht.first old hold hdown,
                  MeasurementRow.degradedSince_recordNoticeDelivered, hold, bind_some,
                  hst]
                rfl
            reached := fun row hr _ => by
              cases hr
              rw [MeasurementRow.noticeStage_recordNoticeDelivered]
              refine ⟨fun j hj => ?_, .inr (mem_append_right _ (mem_singleton_self k))⟩
              rcases hm hj with hold | rfl
              · exact hl j hold
              · exact le_refl _
            told := fun j hj => by
              rcases ht.told j hj with hno | hreco | ⟨since', ho⟩
              · exact .inl hno
              · exact .inr (.inl (mem_append_left _ hreco))
              · obtain ⟨rfl, -⟩ := EscalationPhase.recording.inj (he.symm.trans ho)
                exact .inr (.inl (mem_append_right _ (mem_singleton_self k)))
            noticed := fun _ => .inr ⟨_, rfl, by
              rw [MeasurementRow.notifiedAt_recordNoticeDelivered]
              exact or_some_ne_none _ _⟩ } }

end EpisodeSound

end OriRuntime
