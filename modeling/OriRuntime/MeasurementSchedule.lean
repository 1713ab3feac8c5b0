import OriRuntime.MeasurementAgreement

/-!
# The notice schedule of an episode

While no clear of an episode has landed, the row keeps the start that was first persisted in it and
the highest stage recorded in it, and memory is never behind either.
-/

namespace OriRuntime

variable {s t : SensorMeasurement}

/-! ### The rows the store writes -/

namespace MeasurementRow

theorem degradedSince_setDegraded (now : ℤ) (notified : Bool) (row : Option MeasurementRow) :
    (setDegraded now notified row).degradedSince = (row.bind degradedSince).or (some now) := by
  cases row <;> rfl

theorem noticeStage_setDegraded (now : ℤ) (notified : Bool) (row : Option MeasurementRow) :
    (setDegraded now notified row).noticeStage = (row.map noticeStage).getD 0 := by
  cases row <;> rfl

theorem notifiedAt_setDegraded (now : ℤ) (notified : Bool) (row : Option MeasurementRow) :
    (setDegraded now notified row).notifiedAt =
      (row.bind notifiedAt).or (if notified then some now else none) := by
  cases row <;> rfl

theorem degradedSince_recordNoticeDelivered (now : ℤ) (stage : ℕ) (since : ℤ)
    (row : Option MeasurementRow) :
    (recordNoticeDelivered now stage since row).degradedSince =
      (row.bind degradedSince).or (some since) := by
  cases row <;> rfl

theorem noticeStage_recordNoticeDelivered (now : ℤ) (stage : ℕ) (since : ℤ)
    (row : Option MeasurementRow) :
    (recordNoticeDelivered now stage since row).noticeStage = stage := by
  cases row <;> rfl

theorem notifiedAt_recordNoticeDelivered (now : ℤ) (stage : ℕ) (since : ℤ)
    (row : Option MeasurementRow) :
    (recordNoticeDelivered now stage since row).notifiedAt =
      (row.bind notifiedAt).or (some now) := by
  cases row <;> rfl

end MeasurementRow

theorem or_some_ne_none {α : Type} (o : Option α) (a : α) : o.or (some a) ≠ none := by
  cases o <;> exact nofun

theorem SensorMeasurement.exists_row_of_rowDegraded (h : s.rowDegraded = true) :
    ∃ row, s.row = some row ∧ row.degraded = true := by
  unfold SensorMeasurement.rowDegraded at h
  cases hr : s.row with
  | none =>
    rw [hr] at h
    cases h
  | some row =>
    rw [hr] at h
    exact ⟨row, rfl, h⟩

/-! ### The invariant -/

def WindowPhase.notifies : WindowPhase → Bool
  | .entering _ | .notifying => true
  | _ => false

def EscalationPhase.episode : EscalationPhase → Option ℕ
  | .idle => none
  | .sending _ episode | .recording _ _ episode _ => some episode

/-- What the row tells of an episode no clear has landed in. -/
structure RowTells (s : SensorMeasurement) : Prop where
  started : s.window ≠ .entering false → s.rowDegraded = true
  unpersisted : s.rowDegraded = false →
    s.episode.firstPersisted = none ∧ s.episode.recorded = []
  first : ∀ row, s.row = some row → row.degraded = true →
    s.episode.firstPersisted = row.degradedSince
  reached : ∀ row, s.row = some row → row.degraded = true →
    (∀ k ∈ s.episode.recorded, k ≤ row.noticeStage) ∧
      (row.noticeStage = 0 ∨ row.noticeStage ∈ s.episode.recorded)
  told : ∀ k ∈ s.episode.sent, k = 0 ∨ k ∈ s.episode.recorded ∨
    ∃ since, s.escalation = .recording k since s.episode.number false
  noticed : 0 ∈ s.episode.sent → s.window = .notified false ∨
    ∃ row, s.row = some row ∧ row.notifiedAt ≠ none

structure EpisodeSound (s : SensorMeasurement) : Prop where
  clean : ∀ row, s.row = some row → row.degraded = false →
    row.degradedSince = none ∧ row.noticeStage = 0
  dated : ∀ row, s.row = some row → row.degraded = true → row.degradedSince ≠ none
  nodup : s.episode.sent.Nodup
  past : ∀ episode, s.escalation.episode = some episode → episode ≤ s.episode.number
  marked : s.diskRecovered = true → s.episode.cleared = true
  landed : ∀ streak, s.writer = .landed (.clear streak) → s.episode.cleared = true
  sent : s.degraded = true → ∀ k ∈ s.episode.sent, k ≤ s.stage.getD 0
  recorded : s.degraded = true → ∀ k ∈ s.episode.recorded, k ≤ s.stage.getD 0
  due : s.degraded = true → ∀ k, s.escalation = .sending k s.episode.number → s.stage.getD 0 < k
  recording : s.degraded = true → ∀ k since landed,
    s.escalation = .recording k since s.episode.number landed → s.stage = some k
  zero : s.degraded = true → 0 ∈ s.episode.sent → s.unnotified = false
  notifying : s.window.notifies = true → 0 ∉ s.episode.sent
  row : s.degraded = true → s.episode.cleared = false → RowTells s

theorem EpisodeSound.start : EpisodeSound {} where
  clean row h := by cases h
  dated row h := by cases h
  nodup := List.nodup_nil
  past episode h := by cases h
  marked h := by cases h
  landed streak h := by cases h
  sent h := by cases h
  recorded h := by cases h
  due h := by cases h
  recording h := by cases h
  zero h := by cases h
  notifying h := by cases h
  row h := by cases h

/-! ### What a run must meet -/

def Lands (s : SensorMeasurement) : SensorAct → Prop
  | .enterResumes failed => failed = false
  | .notifiedResumes failed => failed = false
  | .recordFails => False
  | .writerLost => ∀ w notified, s.writer ≠ .writing w notified
  | _ => True

/-- A restart cuts no write off that was attempted. -/
structure Landed (s : SensorMeasurement) : Prop where
  entering : s.window ≠ .entering false
  notified : s.window ≠ .notified false
  writing : ∀ w notified, s.writer ≠ .writing w notified
  recording : ∀ k since episode, s.escalation ≠ .recording k since episode false

/-- An escalation is delivered and recorded in the episode it was begun in, and an episode is ended
without a write only while the row says recovered. -/
def KeepsEpisode (s : SensorMeasurement) : SensorAct → Prop
  | .sent _ ok => ok = true → ∀ k episode, s.escalation = .sending k episode →
      s.degraded = true ∧ episode = s.episode.number
  | .recordLands _ => s.degraded = true ∧ ∀ k since episode landed,
      s.escalation = .recording k since episode landed → episode = s.episode.number
  | a => RowAgrees s a

theorem KeepsEpisode.rowAgrees {a : SensorAct} (h : KeepsEpisode s a) : RowAgrees s a := by
  cases a with
  | recordLands now => exact h.1
  | sent now ok => trivial
  | _ => exact h

/-- No restart comes between the landing of a clear and the end of its episode. -/
def RestartsWhole (s : SensorMeasurement) : Prop := s.degraded = true → s.episode.cleared = false

/-! ### Steps that write nothing of the episode -/

namespace EpisodeSound

variable (hs : EpisodeSound s)

include hs

theorem frame (ho : t.row = s.row) (hd : t.degraded = s.degraded)
    (hu : s.unnotified = false → t.unnotified = false) (hg : t.stage = s.stage)
    (ha : t.diskRecovered = true → s.diskRecovered = true ∨ s.episode.cleared = true)
    (hl : ∀ streak, t.writer = .landed (.clear streak) → s.writer = .landed (.clear streak))
    (hen : t.window ≠ .entering false → s.window ≠ .entering false)
    (hnoti : t.window.notifies = true → s.window.notifies = true ∨ 0 ∉ s.episode.sent)
    (hno : s.window = .notified false → t.window = .notified false)
    (hes : t.escalation = s.escalation ∨
      (t.escalation = .idle ∧ ∀ k since episode, s.escalation ≠ .recording k since episode false))
    (he : t.episode = s.episode) : EpisodeSound t where
  clean row h := hs.clean row (ho ▸ h)
  dated row h := hs.dated row (ho ▸ h)
  nodup := he ▸ hs.nodup
  past episode h := by
    rcases hes with hsm | ⟨hidle, -⟩
    · rw [hsm] at h
      rw [he]
      exact hs.past episode h
    · rw [hidle] at h
      cases h
  marked h := by
    rw [he]
    exact (ha h).elim hs.marked id
  landed streak h := by
    rw [he]
    exact hs.landed streak (hl streak h)
  sent h := by
    rw [he, hg]
    exact hs.sent (hd ▸ h)
  recorded h := by
    rw [he, hg]
    exact hs.recorded (hd ▸ h)
  due h k hse := by
    rw [hg]
    rw [he] at hse
    rcases hes with hsm | ⟨hidle, -⟩
    · exact hs.due (hd ▸ h) k (hsm ▸ hse)
    · rw [hidle] at hse
      cases hse
  recording h k since landed hr := by
    rw [hg]
    rw [he] at hr
    rcases hes with hsm | ⟨hidle, -⟩
    · exact hs.recording (hd ▸ h) k since landed (hsm ▸ hr)
    · rw [hidle] at hr
      cases hr
  zero h hm := hu (hs.zero (hd ▸ h) (he ▸ hm))
  notifying h := by
    rw [he]
    exact (hnoti h).elim hs.notifying id
  row h hc := by
    have ht := hs.row (hd ▸ h) (he ▸ hc)
    have hdisk : t.rowDegraded = s.rowDegraded := by
      unfold SensorMeasurement.rowDegraded
      rw [ho]
    exact
      { started := fun hw => hdisk ▸ ht.started (hen hw)
        unpersisted := fun h => by
          rw [he]
          exact ht.unpersisted (hdisk ▸ h)
        first := fun row h => by
          rw [he]
          exact ht.first row (ho ▸ h)
        reached := fun row h => by
          rw [he]
          exact ht.reached row (ho ▸ h)
        told := fun k hk => by
          rw [he] at hk ⊢
          rcases ht.told k hk with hzero | hreco | ⟨since, hr⟩
          · exact .inl hzero
          · exact .inr (.inl hreco)
          · rcases hes with hsm | ⟨-, hn⟩
            · exact .inr (.inr ⟨since, hsm.trans hr⟩)
            · exact absurd hr (hn _ _ _)
        noticed := fun hm => by
          rw [ho]
          exact (ht.noticed (he ▸ hm)).imp hno id }

theorem finished (hd : t.degraded = false) (hr : t.row = s.row)
    (hw : t.window = s.window) (hwr : t.writer = s.writer)
    (hc : t.diskRecovered = true → s.diskRecovered = true)
    (hes : t.escalation = s.escalation) (he : t.episode = s.episode) :
    EpisodeSound t := by
  have hn : ∀ {o : Prop}, t.degraded = true → o := fun h => by
    rw [hd] at h
    cases h
  exact
    { clean := fun row h => hs.clean row (hr ▸ h)
      dated := fun row h => hs.dated row (hr ▸ h)
      nodup := he ▸ hs.nodup
      past := fun episode h => by
        rw [he]
        exact hs.past episode (hes ▸ h)
      marked := fun h => by
        rw [he]
        exact hs.marked (hc h)
      landed := fun streak h => by
        rw [he]
        exact hs.landed streak (hwr ▸ h)
      sent := fun h => hn h
      recorded := fun h => hn h
      due := fun h => hn h
      recording := fun h => hn h
      zero := fun h => hn h
      notifying := fun h => by
        rw [he]
        exact hs.notifying (hw ▸ h)
      row := fun h => hn h }

theorem begins (hh : s.Healthy) (hd : s.degraded = false)
    (hrc : s.diskRecovered = false) (hw : s.writer.clearing = false) (now : ℤ) : EpisodeSound (s.enterDegradation now) where
  clean := hs.clean
  dated := hs.dated
  nodup := List.nodup_nil
  past episode h := Nat.le_succ_of_le (hs.past episode h)
  marked h := by
    change s.diskRecovered = true at h
    rw [hrc] at h
    cases h
  landed streak h := by
    change s.writer = _ at h
    rw [h] at hw
    cases hw
  sent _ k hk := by cases hk
  recorded _ k hk := by cases hk
  due _ k h := by
    have hpast := hs.past (s.episode.number + 1) (by
      change s.escalation = .sending k (s.episode.number + 1) at h
      rw [h]
      rfl)
    omega
  recording _ k since landed h := by
    have hpast := hs.past (s.episode.number + 1) (by
      change s.escalation = .recording k since (s.episode.number + 1) landed at h
      rw [h]
      rfl)
    omega
  zero _ h := by cases h
  notifying _ h := by cases h
  row _ _ := by
    have hc : s.rowDegraded = false := hh hd
    have hn : ∀ row, s.row = some row → row.degraded = true → ∀ {o : Prop}, o := by
      intro row hr hdown o
      unfold SensorMeasurement.rowDegraded at hc
      rw [hr] at hc
      exact absurd (hdown.symm.trans hc) nofun
    exact
      { started := fun h => absurd rfl h
        unpersisted := fun _ => ⟨rfl, rfl⟩
        first := fun row hr hdown => hn row hr hdown
        reached := fun row hr hdown => hn row hr hdown
        told := fun k hk => by cases hk
        noticed := fun h => by cases h }

end EpisodeSound

end OriRuntime
