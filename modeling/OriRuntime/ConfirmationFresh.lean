import OriRuntime.FirmwareConfirmations

/-!
# What a confirmation rests on

A confirmed obligation was resolved after the latest promotion of its epoch, by a call that read
the device in service under that epoch and then read the same epoch back. A promotion opens the
obligation again unless it is quarantined, and nothing else moves it but a call's resolution.
-/

namespace OriRuntime

open List Option

open Execution

namespace FirmwareStore

variable {k : FirmwareKeys} {st st' : FirmwareStore} {d e : Text}

/-! ### What the lifecycle records -/

/-- The transition with a number, counted from the oldest, promoted an epoch of a device. -/
def PromotedAt (ts : List AnchorTransition) (d e : Text) (p : ℕ) : Prop :=
  ∃ newer t older, ts = newer ++ t :: older ∧ older.length + 1 = p ∧ t.deviceId = d ∧
    t.transition = .promoted ∧ t.toEpochId = some e

variable {p : ℕ} {ts : List AnchorTransition} {atMs : ℤ} {d' e' : Text}

theorem PromotedAt.le_length (h : PromotedAt ts d e p) : p ≤ ts.length := by
  obtain ⟨newer, t, older, rfl, rfl, -⟩ := h
  simp only [length_append, length_cons]
  omega

theorem promotedAt_cons {t : AnchorTransition} (h : PromotedAt (t :: ts) d e p) :
    (p = ts.length + 1 ∧ t.deviceId = d ∧ t.transition = .promoted ∧ t.toEpochId = some e) ∨
      PromotedAt ts d e p := by
  obtain ⟨newer, t', older, hs, rfl, ht⟩ := h
  cases newer with
  | nil =>
    obtain ⟨rfl, rfl⟩ := List.cons.inj hs
    exact .inl ⟨rfl, ht⟩
  | cons t₀ newer =>
    obtain ⟨rfl, rfl⟩ := List.cons.inj hs
    exact .inr ⟨newer, t', older, rfl, rfl, ht⟩

theorem promotedAt_append {news : List AnchorTransition}
    (hn : ∀ t ∈ news, t.transition ≠ .promoted) (h : PromotedAt (news ++ ts) d e p) :
    PromotedAt ts d e p := by
  induction news with
  | nil => exact h
  | cons t news ih =>
    rcases promotedAt_cons h with ⟨-, -, ht, -⟩ | hr
    · exact absurd ht (hn t mem_cons_self)
    · exact ih (fun t' ht' => hn t' (mem_cons_of_mem t ht')) hr

/-- What an operation adds to the log, and when it touches the outbox. -/
inductive Recorded (st st' : FirmwareStore) : Prop
  | kept (news : List AnchorTransition) (htransitions : st'.transitions = news ++ st.transitions)
      (hnone : ∀ t ∈ news, t.transition ≠ .promoted) (houtbox : st'.outbox = st.outbox)
  | promoted (d epoch : Text) (t : AnchorTransition) (atMs : ℤ)
      (htransitions : st'.transitions = t :: st.transitions) (hdevice : t.deviceId = d)
      (hkind : t.transition = .promoted) (hepoch : t.toEpochId = some epoch)
      (houtbox : st'.outbox = (st.reopenConfirmation d epoch atMs).outbox)

/-- What neither the log nor the outbox is in. -/
def SameLog (st st' : FirmwareStore) : Prop :=
  st'.transitions = st.transitions ∧ st'.outbox = st.outbox

theorem sameLog_setDevice (d : Text) (row : FirmwareDevice) : SameLog st (st.setDevice d row) :=
  ⟨rfl, rfl⟩

theorem reopenConfirmation_transitions (d e : Text) (atMs : ℤ) :
    (st.reopenConfirmation d e atMs).transitions = st.transitions := by
  unfold reopenConfirmation
  split
  · rfl
  · split <;> rfl

theorem reopenConfirmation_outbox_congr (h : st'.outbox = st.outbox) (d e : Text) (atMs : ℤ) :
    (st'.reopenConfirmation d e atMs).outbox = (st.reopenConfirmation d e atMs).outbox := by
  unfold reopenConfirmation
  rw [h]
  split
  · rfl
  split
  · exact h
  · rfl

theorem perform_recorded {op : AnchorOp} (h : st.perform k op = some st') : Recorded st st' := by
  rcases (perform_performed h).shape with ⟨_, _, news, rfl, hn⟩ |
    ⟨d, epoch, x, atMs, _, _, hd, hk, he, rfl⟩
  · exact .kept news rfl hn rfl
  · refine .promoted d epoch x atMs (reopenConfirmation_transitions ..) hd hk he ?_
    exact reopenConfirmation_outbox_congr (by rfl) d epoch atMs

/-! ### What moves an obligation -/

theorem confirmationStatus_congr (h : st'.outbox = st.outbox) (d e : Text) :
    st'.confirmationStatus d e = st.confirmationStatus d e := by
  unfold confirmationStatus
  rw [h]

theorem confirmationStatus_reopen : (st.reopenConfirmation d e atMs).confirmationStatus d' e' =
      if (d', e') = (d, e) ∧ st.confirmationStatus d e ≠ some .quarantined then
        some .confirmationPending
      else st.confirmationStatus d' e' := by
  unfold confirmationStatus reopenConfirmation
  cases hg : st.outbox.get? (d, e) with
  | none =>
    rw [Dict.get?_set]
    by_cases hk : (d', e') = (d, e)
    all_goals simp [hk]
  | some c =>
    dsimp only
    split <;> rename_i hq
    · simp [hq]
    · rw [Dict.get?_set]
      by_cases hk : (d', e') = (d, e)
      · simp [hk, hq]
      · simp [hk]

theorem confirmationStatus_updatePending {f : FirmwareConfirmation → FirmwareConfirmation} :
    (st.updatePending d e f).confirmationStatus d' e' =
      if (d', e') = (d, e) ∧ st.confirmationStatus d e = some .confirmationPending then
        (st.outbox.get? (d, e)).map (fun c => (f c).status)
      else st.confirmationStatus d' e' := by
  unfold confirmationStatus updatePending
  cases hg : st.outbox.get? (d, e) with
  | none => simp
  | some c =>
    dsimp only
    split <;> rename_i hp
    · rw [Dict.get?_set]
      by_cases hk : (d', e') = (d, e)
      · simp [hk, hp]
      · simp [hk]
    · simp [hp]

theorem confirmationStatus_resolve {status : ConfirmationStatus} :
    (st.resolveFirmwareConfirmation d e status atMs).confirmationStatus d' e' =
      if (d', e') = (d, e) ∧ st.confirmationStatus d e = some .confirmationPending then some status
      else st.confirmationStatus d' e' := by
  unfold resolveFirmwareConfirmation
  rw [confirmationStatus_updatePending]
  by_cases h : (d', e') = (d, e) ∧ st.confirmationStatus d e = some .confirmationPending
  · rw [if_pos h, if_pos h]
    obtain ⟨c, hc, -⟩ := map_eq_some_iff.mp h.2
    rw [hc]
    rfl
  · rw [if_neg h, if_neg h]

theorem confirmationStatus_attempt :
    (st.recordFirmwareConfirmationAttempt d e atMs).confirmationStatus d' e' =
      st.confirmationStatus d' e' := by
  unfold recordFirmwareConfirmationAttempt
  rw [confirmationStatus_updatePending]
  by_cases h : (d', e') = (d, e) ∧ st.confirmationStatus d e = some .confirmationPending
  · rw [if_pos h]
    obtain ⟨rfl, rfl⟩ := Prod.mk.inj h.1
    rfl
  · rw [if_neg h]

/-! ### What an allocation takes -/

/-- The device is in service and its active epoch is confirmed. -/
def InService (st : FirmwareStore) (d : Text) (row : FirmwareDevice) : Prop :=
  row.revoked = false ∧ row.approved = true ∧
    st.confirmationStatus d row.anchorEpochId = some .confirmed

theorem authority_eq_true_iff {row : FirmwareDevice} :
    st.authority d row = true ↔ InService st d row := by
  unfold authority InService
  simp [and_assoc]

theorem allocate_ok {counter : FirmwareDevice → ℤ} {bump : FirmwareDevice → FirmwareDevice}
    {allowed : FirmwareDevice → Bool} {n : ℤ}
    (h : st.allocate d counter bump allowed = .ok (n, st')) :
    ∃ row, st.registry.get? d = some row ∧ allowed row = true ∧ SameLog st st' := by
  unfold allocate at h
  cases hr : st.registry.get? d with
  | none =>
    rw [hr] at h
    cases h
  | some row =>
    rw [hr] at h
    dsimp only at h
    split_ifs at h with ha
    cases h
    exact ⟨row, rfl, ha.2, sameLog_setDevice ..⟩

end FirmwareStore

namespace Confirmation

open FirmwareStore (DeviceRead AnchorOp PromotedAt InService SameLog Recorded)

variable {k : FirmwareKeys} {s s' : State}

/-! ### The invariant -/

/-- What a grant says of the row it was read from. -/
structure Grant.Sound (g : Grant) (now : ℕ) : Prop where
  approved : g.device.device.approved = true
  unrevoked : g.device.device.revoked = false
  readAt_le : g.readAt ≤ now

/-- A suspended call holds a sound grant, and its readback began after the grant was read. -/
def PhaseSound (now : ℕ) : ConfirmPhase → Prop
  | .reading => True
  | .status g => g.Sound now
  | .attributing g => g.Sound now
  | .readingBack g began _ _ => g.Sound began ∧ began ≤ now
  | .pushing g => g.Sound now
  | .recording _ => True
  | .resolving g began _ => g.Sound began ∧ began ≤ now
  | .done _ => True

variable {g : Grant} {d : Text} {st : FirmwareStore} {c : ConfirmCall}

variable {m n began : ℕ} {phase : ConfirmPhase} {e : Text} {atMs : ℤ} {fails : Bool}
  {allowed : FirmwareDevice → Bool} {bump : FirmwareDevice → FirmwareDevice}
  {counter : FirmwareDevice → ℤ} {l : Label}

theorem Grant.Sound.mono (h : g.Sound m) (hm : m ≤ n) : g.Sound n :=
  ⟨h.approved, h.unrevoked, h.readAt_le.trans hm⟩

theorem phaseSound_mono (h : PhaseSound m phase) (hm : m ≤ n) : PhaseSound n phase := by
  cases phase with
  | reading => trivial
  | status g | attributing g => exact Grant.Sound.mono h hm
  | readingBack g began pushed seen => exact ⟨h.1, h.2.trans hm⟩
  | pushing g => exact Grant.Sound.mono h hm
  | recording g => trivial
  | resolving g began chainEpoch => exact ⟨h.1, h.2.trans hm⟩
  | done answer => trivial

/-- A promotion of the device between the call's read of it and the resolution. -/
def Overtakes (x : Resolution) (p : ℕ) : Prop := x.grant.readAt < p ∧ p ≤ x.resolvedAt

/-- A resolution that confirms an epoch of a device: the call read the device in service under it,
read it back, and did so after the epoch's every promotion that did not overtake the call. -/
structure Confirms (st : FirmwareStore) (d e : Text) (x : Resolution) : Prop where
  device : x.deviceId = d
  epoch : x.grant.epoch = e
  readBack : x.readBack = e
  grant : x.grant.Sound x.began
  after : ∀ p, PromotedAt st.transitions d e p → p ≤ x.began ∨ Overtakes x p

structure ConfirmSound (s : State) : Prop where
  calls : ∀ c ∈ s.calls, PhaseSound s.store.transitions.length c.phase
  confirmed : ∀ d e, s.store.confirmationStatus d e = some .confirmed →
    ∃ x ∈ s.resolved, Confirms s.store d e x

theorem Confirms.of_promotedAt {st' : FirmwareStore} {x : Resolution} (h : Confirms st d e x)
    (hs : ∀ p, PromotedAt st'.transitions d e p → PromotedAt st.transitions d e p) :
    Confirms st' d e x :=
  { h with after := fun p hp => h.after p (hs p hp) }

theorem confirmSound_empty : ConfirmSound {} := by
  refine ⟨fun c hc => (by cases hc), fun d e h => ?_⟩
  cases h

theorem ConfirmSound.sameLog (h : ConfirmSound s) (hm : SameLog s.store st) :
    ConfirmSound { s with store := st } := by
  refine ⟨fun c hc => ?_, fun d e hs => ?_⟩
  · rw [hm.1]
    exact h.calls c hc
  · rw [FirmwareStore.confirmationStatus_congr hm.2] at hs
    obtain ⟨x, hx, ho⟩ := h.confirmed d e hs
    refine ⟨x, hx, ho.of_promotedAt (fun p hp => ?_)⟩
    rw [hm.1] at hp
    exact hp

theorem ConfirmSound.recorded (h : ConfirmSound s) (hr : Recorded s.store st) :
    ConfirmSound { s with store := st } := by
  cases hr with
  | kept news ht hno ho =>
    refine ⟨fun c hc => phaseSound_mono (h.calls c hc) ?_, fun d e hs => ?_⟩
    · rw [ht, length_append]
      exact Nat.le_add_left _ _
    · rw [FirmwareStore.confirmationStatus_congr ho] at hs
      obtain ⟨x, hx, hco⟩ := h.confirmed d e hs
      refine ⟨x, hx, hco.of_promotedAt (fun p hp => ?_)⟩
      rw [ht] at hp
      exact FirmwareStore.promotedAt_append hno hp
  | promoted d' e' t atMs ht hde hk hep ho =>
    refine ⟨fun c hc => phaseSound_mono (h.calls c hc) ?_, fun d e hs => ?_⟩
    · rw [ht]
      exact Nat.le_succ _
    · rw [FirmwareStore.confirmationStatus_congr ho, FirmwareStore.confirmationStatus_reopen] at hs
      split_ifs at hs with hw
      · cases hs
      obtain ⟨x, hx, hco⟩ := h.confirmed d e hs
      refine ⟨x, hx, hco.of_promotedAt (fun p hp => ?_)⟩
      rw [ht] at hp
      rcases FirmwareStore.promotedAt_cons hp with ⟨-, hd, -, he⟩ | hold
      · -- A confirmed obligation promoted again is open, not confirmed.
        obtain rfl : d' = d := hde.symm.trans hd
        obtain rfl : e' = e := mem_unique hep he
        have hn : s.store.confirmationStatus d' e' ≠ some .quarantined := by
          rw [hs]
          nofun
        exact absurd ⟨rfl, hn⟩ hw
      · exact hold

/-! ### A resumption -/

theorem phaseSound_begin (st : FirmwareStore) (d : Text) :
    PhaseSound st.transitions.length (begin st d) := by
  unfold begin
  split
  · trivial
  split
  · trivial
  split
  · trivial
  rename_i device _ hs _
  rw [not_or] at hs
  exact ⟨Bool.of_not_eq_false hs.1, Bool.eq_false_iff.mpr hs.2, le_refl _⟩

theorem phaseSound_answered {now : ℕ} (h : g.Sound began) (hn : began ≤ now) (pushed : Bool)
    (r : ReadBack) : PhaseSound now (readBackAnswered g began pushed r) := by
  cases r with
  | failed => trivial
  | epoch e => exact ⟨h, hn⟩
  | nothing =>
    cases pushed with
    | true => trivial
    | false => exact h.mono hn

/-- What a resumption does: only a resolution or an attempt writes, and the log stays. -/
inductive Resumption (st : FirmwareStore) (c : ConfirmCall) : Resumed → Prop
  | quiet (phase : ConfirmPhase) (hsound : PhaseSound st.transitions.length c.phase →
      PhaseSound st.transitions.length phase) : Resumption st c { store := st, phase := phase }
  | attempted (g : Grant) (atMs : ℤ) : Resumption st c
      { store := st.recordFirmwareConfirmationAttempt c.deviceId g.epoch atMs
        phase := .done .confirmationPending }
  | resolved (g : Grant) (began : ℕ) (chainEpoch : Text) (atMs : ℤ)
      (hphase : c.phase = .resolving g began chainEpoch) :
      Resumption st c (decided st c.deviceId g began chainEpoch atMs)

theorem resume_cases {r : Resumed} (h : resume st c fails atMs = some r) : Resumption st c r := by
  unfold resume at h
  split at h
  · cases h
    exact .quiet _ (fun _ => phaseSound_begin st c.deviceId)
  · rename_i g hp
    split at h
    · cases h
      exact .quiet _ (fun _ => trivial)
    · cases h
      exact .quiet _ (fun _ => trivial)
    · cases h
      exact .quiet _ (fun hs => by rwa [hp] at hs)
  · rename_i g hp
    split at h
    · cases h
      exact .quiet _ (fun _ => trivial)
    · cases h
      refine .quiet _ (fun hs => ?_)
      rw [hp] at hs
      exact ⟨hs, le_refl _⟩
  · cases h
  · rename_i g began pushed r' hp
    cases h
    refine .quiet _ (fun hs => ?_)
    rw [hp] at hs
    exact phaseSound_answered hs.1 hs.2 pushed r'
  · rename_i g hp
    split_ifs at h
    · cases h
      exact .quiet _ (fun _ => trivial)
    · cases h
      refine .quiet _ (fun hs => ?_)
      rw [hp] at hs
      exact ⟨hs, le_refl _⟩
  · rename_i g hp
    cases h
    exact .attempted g atMs
  · rename_i g began chainEpoch hp
    cases h
    exact .resolved g began chainEpoch atMs hp
  · cases h

theorem resumed_of_step {i : ℕ} (h : step k s (.resume i fails atMs) = some s') :
    ∃ c r, s.calls[i]? = some c ∧ resume s.store c fails atMs = some r ∧
      s' = { s with store := r.store, calls := s.calls.set i { c with phase := r.phase }
                    resolved := s.resolved ++ r.resolved.toList } := by
  unfold step at h
  dsimp only at h
  cases hc : s.calls[i]? with
  | none =>
    rw [hc] at h
    cases h
  | some c =>
    rw [hc] at h
    obtain ⟨r, hr, rfl⟩ := map_eq_some_iff.mp h
    exact ⟨c, r, rfl, hr, rfl⟩

theorem ConfirmSound.moved (h : ConfirmSound s) (i : ℕ)
    (hp : PhaseSound s.store.transitions.length phase) :
    ConfirmSound { s with calls := s.calls.set i { c with phase := phase } } := by
  refine ⟨fun c' hc' => ?_, h.confirmed⟩
  rcases mem_or_eq_of_mem_set hc' with hm | rfl
  · exact h.calls c' hm
  · exact hp

theorem updatePending_same (st : FirmwareStore) (d e : Text)
    (f : FirmwareConfirmation → FirmwareConfirmation) :
    (st.updatePending d e f).registry = st.registry ∧ (st.updatePending d e f).anchors = st.anchors ∧
      (st.updatePending d e f).transitions = st.transitions := by
  unfold FirmwareStore.updatePending
  split
  · exact ⟨rfl, rfl, rfl⟩
  · split <;> exact ⟨rfl, rfl, rfl⟩

theorem ConfirmSound.attempted (h : ConfirmSound s) (d e : Text) (atMs : ℤ) :
    ConfirmSound { s with store := s.store.recordFirmwareConfirmationAttempt d e atMs } := by
  have ht : (s.store.recordFirmwareConfirmationAttempt d e atMs).transitions = _ :=
    (updatePending_same s.store d e _).2.2
  refine ⟨fun c hc => ?_, fun d' e' hs => ?_⟩
  · rw [ht]
    exact h.calls c hc
  · rw [FirmwareStore.confirmationStatus_attempt] at hs
    obtain ⟨x, hx, ho⟩ := h.confirmed d' e' hs
    refine ⟨x, hx, ho.of_promotedAt (fun p hp => ?_)⟩
    rw [ht] at hp
    exact hp

theorem ConfirmSound.decided (h : ConfirmSound s) (hc : c ∈ s.calls) {chainEpoch : Text}
    (hh : c.phase = .resolving g began chainEpoch) (atMs : ℤ) :
    ConfirmSound { s with
      store := (Confirmation.decided s.store c.deviceId g began chainEpoch atMs).store
      resolved := s.resolved ++
        (Confirmation.decided s.store c.deviceId g began chainEpoch atMs).resolved.toList } := by
  have hs := h.calls c hc
  rw [hh] at hs
  unfold Confirmation.decided
  generalize hst : (if chainEpoch = g.epoch then ConfirmationStatus.confirmed else .quarantined) =
    status
  have ht : (s.store.resolveFirmwareConfirmation c.deviceId g.epoch status atMs).transitions =
      _ := (updatePending_same s.store c.deviceId g.epoch _).2.2
  refine ⟨fun c' hc' => ?_, fun d' e' hco => ?_⟩
  · rw [ht]
    exact h.calls c' hc'
  · rw [FirmwareStore.confirmationStatus_resolve] at hco
    split_ifs at hco with ho
    · cases hco
      obtain ⟨rfl, rfl⟩ := Prod.mk.inj ho.1
      have hr : chainEpoch = g.epoch := by
        by_contra hn
        rw [if_neg hn] at hst
        cases hst
      rw [if_pos ho.2]
      refine ⟨_, mem_append_right _ (mem_singleton.mpr rfl), rfl, rfl, hr, hs.1, fun p hp => ?_⟩
      rw [ht] at hp
      by_cases hb : p ≤ began
      · exact .inl hb
      · exact .inr ⟨hs.1.readAt_le.trans_lt (not_le.mp hb), hp.le_length⟩
    · obtain ⟨x, hx, hconf⟩ := h.confirmed d' e' hco
      refine ⟨x, mem_append_left _ hx, hconf.of_promotedAt (fun p hp => ?_)⟩
      rw [ht] at hp
      exact hp

theorem allocated_of_step (hstep : allocated s (s.store.allocate d counter bump allowed) = some s') :
    ∃ row, s.store.registry.get? d = some row ∧ allowed row = true ∧
      ∃ st, SameLog s.store st ∧ s' = { s with store := st } := by
  unfold allocated at hstep
  split at hstep
  · cases hstep
  rename_i n st hs
  cases hstep
  obtain ⟨row, hr, ha, hm⟩ := FirmwareStore.allocate_ok hs
  exact ⟨row, hr, ha, st, hm, rfl⟩

theorem ConfirmSound.allocated (h : ConfirmSound s)
    (ht : Confirmation.allocated s (s.store.allocate d counter bump allowed) = some s') :
    ConfirmSound s' := by
  obtain ⟨row, -, -, st, hs, rfl⟩ := allocated_of_step ht
  exact h.sameLog hs

theorem ConfirmSound.step (h : ConfirmSound s) (hstep : step k s l = some s') :
    ConfirmSound s' := by
  cases l with
  | lifecycle op =>
    obtain ⟨st, ht, rfl⟩ := map_eq_some_iff.mp hstep
    exact h.recorded (FirmwareStore.perform_recorded ht)
  | evidence d epoch =>
    cases epoch with
    | none | some e =>
      cases hstep
      exact ⟨h.calls, h.confirmed⟩
  | confirm d =>
    cases hstep
    refine ⟨fun c hc => ?_, h.confirmed⟩
    rcases mem_append.mp hc with hm | hn
    · exact h.calls c hm
    · obtain rfl := mem_singleton.mp hn
      trivial
  | resume i fails atMs =>
    obtain ⟨c, r, hc, hr, rfl⟩ := resumed_of_step hstep
    have hm := mem_of_getElem? hc
    cases resume_cases hr with
    | quiet phase hs =>
      rw [toList_none, append_nil]
      exact h.moved i (hs (h.calls c hm))
    | attempted g atMs' =>
      rw [toList_none, append_nil]
      exact (h.attempted c.deviceId g.epoch atMs').moved i trivial
    | resolved g began chainEpoch atMs' hp =>
      exact (h.decided hm hp atMs').moved i trivial
  | observe i fails =>
    unfold Confirmation.step at hstep
    dsimp only at hstep
    split at hstep
    · cases hstep
    rename_i c hc
    obtain ⟨phase, hp, rfl⟩ := map_eq_some_iff.mp hstep
    have hs := h.calls c (mem_of_getElem? hc)
    refine h.moved i ?_
    unfold observe at hp
    split at hp
    · rename_i hl
      cases hp
      rw [hl] at hs
      exact hs
    · cases hp
  | allocateRuntime d capabilityHash | allocateCommand d anchor
  | allocateProvision d expectedEpoch allowRevoked =>
    exact h.allocated hstep
  | restart =>
    cases hstep
    exact ⟨fun c hc => (by cases hc), h.confirmed⟩

/-! ### Quarantine -/

theorem quarantined_step (hstep : step k s l = some s')
    (h : s.store.confirmationStatus d e = some .quarantined) :
    s'.store.confirmationStatus d e = some .quarantined := by
  have ha : ∀ {d' : Text} {counter : FirmwareDevice → ℤ}
      {bump : FirmwareDevice → FirmwareDevice} {allowed : FirmwareDevice → Bool},
      allocated s (s.store.allocate d' counter bump allowed) = some s' →
      s'.store.confirmationStatus d e = some .quarantined := by
    intro d' counter bump allowed hs
    obtain ⟨row, -, -, st, hm, rfl⟩ := allocated_of_step hs
    exact (FirmwareStore.confirmationStatus_congr hm.2 d e).trans h
  cases l with
  | lifecycle op =>
    obtain ⟨st, hst, rfl⟩ := map_eq_some_iff.mp hstep
    cases FirmwareStore.perform_recorded hst with
    | kept news ht hno hu =>
      exact (FirmwareStore.confirmationStatus_congr hu d e).trans h
    | promoted d' e' t atMs ht hd hk he hu =>
      rw [FirmwareStore.confirmationStatus_congr hu, FirmwareStore.confirmationStatus_reopen]
      by_cases ho : (d, e) = (d', e') ∧ s.store.confirmationStatus d' e' ≠ some .quarantined
      · obtain ⟨rfl, rfl⟩ := Prod.mk.inj ho.1
        exact absurd h ho.2
      · rw [if_neg ho]
        exact h
  | evidence d' epoch =>
    cases epoch with
    | none | some e' =>
      cases hstep
      exact h
  | confirm d' =>
    cases hstep
    exact h
  | resume i fails atMs =>
    obtain ⟨c, r, hc, hr, rfl⟩ := resumed_of_step hstep
    cases resume_cases hr with
    | quiet phase hn => exact h
    | attempted g atMs' => exact FirmwareStore.confirmationStatus_attempt.trans h
    | resolved g began chainEpoch atMs' hp =>
      refine FirmwareStore.confirmationStatus_resolve.trans ?_
      by_cases ho : (d, e) = (c.deviceId, g.epoch) ∧
          s.store.confirmationStatus c.deviceId g.epoch = some .confirmationPending
      · obtain ⟨rfl, rfl⟩ := Prod.mk.inj ho.1
        cases h.symm.trans ho.2
      · rw [if_neg ho]
        exact h
  | observe i fails =>
    unfold step at hstep
    dsimp only at hstep
    split at hstep
    · cases hstep
    · obtain ⟨phase, -, rfl⟩ := map_eq_some_iff.mp hstep
      exact h
  | allocateRuntime d' capabilityHash | allocateCommand d' anchor
  | allocateProvision d' expectedEpoch allowRevoked => exact ha hstep
  | restart =>
    cases hstep
    exact h

/-! ### What holds over every interleaving -/

structure ConfirmationFresh (k : FirmwareKeys) (s : State) : Prop where
  confirmed : ∀ d e, s.store.confirmationStatus d e = some .confirmed →
    ∃ x ∈ s.resolved, Confirms s.store d e x
  quarantined : ∀ s', Reaches (step k) s s' → ∀ d e,
    s.store.confirmationStatus d e = some .quarantined →
    s'.store.confirmationStatus d e = some .quarantined
  runtime_seq : ∀ d capabilityHash s', step k s (.allocateRuntime d capabilityHash) = some s' →
    ∃ row, s.store.registry.get? d = some row ∧ InService s.store d row
  command_seq : ∀ d anchor s', step k s (.allocateCommand d anchor) = some s' →
    ∃ row, s.store.registry.get? d = some row ∧ row.toAnchorColumns = anchor ∧
      InService s.store d row
  provision_seq : ∀ d epoch allowRevoked s',
    step k s (.allocateProvision d epoch allowRevoked) = some s' →
    ∃ row, s.store.registry.get? d = some row ∧ row.anchorEpochId = epoch ∧
      (InService s.store d row ∨ allowRevoked = true ∧ row.revoked = true)

theorem confirmation_fresh (k : FirmwareKeys) (s : State) (h : Reaches (step k) {} s) :
    ConfirmationFresh k s := by
  have hsound : ConfirmSound s :=
    h.invariant (fun _ _ _ hs hstep => hs.step hstep) confirmSound_empty
  refine ⟨hsound.confirmed, fun s' hreach d e hquarantined => ?_, ?_, ?_, ?_⟩
  · exact hreach.invariant (fun _ _ _ hs hstep => quarantined_step hstep hs) hquarantined
  · intro d capabilityHash s' hstep
    obtain ⟨row, hrow, hallowed, -⟩ := allocated_of_step hstep
    exact ⟨row, hrow, FirmwareStore.authority_eq_true_iff.mp (Bool.and_eq_true_iff.mp hallowed).2⟩
  · intro d anchor s' hstep
    obtain ⟨row, hrow, hallowed, -⟩ := allocated_of_step hstep
    obtain ⟨hcolumns, hauthority⟩ := Bool.and_eq_true_iff.mp hallowed
    exact ⟨row, hrow, of_decide_eq_true hcolumns, FirmwareStore.authority_eq_true_iff.mp hauthority⟩
  · intro d epoch allowRevoked s' hstep
    obtain ⟨row, hrow, hallowed, -⟩ := allocated_of_step hstep
    obtain ⟨hepoch, hauthority⟩ := Bool.and_eq_true_iff.mp hallowed
    refine ⟨row, hrow, of_decide_eq_true hepoch, ?_⟩
    rcases Bool.or_eq_true_iff.mp hauthority with hrevoked | hin
    · exact .inr (Bool.and_eq_true_iff.mp hrevoked)
    · exact .inl (FirmwareStore.authority_eq_true_iff.mp hin)

section Bench

open FirmwareStore (benchKeys valveManifest operator)

def valve : Text := text "valve-1"

def valveAnchor : ManifestAnchor :=
  valveManifest (text "AAAAAAAAAAAAAAAAAAAAAAAAAAAAAAAAAAAAAAAAAAA=")

def valveEpoch : Text :=
  (benchKeys.anchorEpochId valve valveAnchor.publicKeyB64 valveAnchor.posture
    valveAnchor.capabilityHash).getD []

/-- Promoted, and confirmed by a call that found the evidence store agreeing. -/
def confirmedOnce : List Label :=
  [.lifecycle (.upsert valveAnchor 1), .lifecycle (.approve valve (operator 2) none),
    .evidence valve (some valveEpoch), .confirm valve, .resume 0 false 3, .resume 0 false 4,
    .resume 0 false 5, .observe 0 false, .resume 0 false 6, .resume 0 false 7]

/-- The claim's last part: a provisioning sequence is allocated only in service. -/
theorem revoked_provisioned : ¬ ∀ s, Reaches (step benchKeys) {} s → ∀ d epoch allowRevoked s',
    step benchKeys s (.allocateProvision d epoch allowRevoked) = some s' →
    ∃ row, s.store.registry.get? d = some row ∧ InService s.store d row := by
  intro h
  have hrun : (run (step benchKeys) {} (confirmedOnce ++ [.lifecycle (.revoke valve (operator 8))])).any
      (fun s => (step benchKeys s (.allocateProvision valve valveEpoch true)).isSome &&
        (s.store.registry.get? valve).all (·.revoked)) = true := by
    decide +kernel
  obtain ⟨s, hs, hfacts⟩ := (any_eq_true _ _).mp hrun
  obtain ⟨hallocated, hrevoked⟩ := Bool.and_eq_true_iff.mp hfacts
  obtain ⟨s', hs'⟩ := isSome_iff_exists.mp hallocated
  obtain ⟨row, hrow, hservice, -⟩ := h s ⟨_, hs⟩ valve valveEpoch true s' hs'
  rw [hrow] at hrevoked
  cases hservice.symm.trans hrevoked

theorem confirmation_fresh_of_confirmedOnce : ∃ s : State,
    s.store.confirmationStatus valve valveEpoch = some .confirmed ∧
      s.resolved.map (·.began) = [2] ∧ ConfirmationFresh benchKeys s := by
  obtain ⟨s, hs, hstatus, hbegan⟩ : ∃ s, run (step benchKeys) {} confirmedOnce = some s ∧
    s.store.confirmationStatus valve valveEpoch = some .confirmed ∧ s.resolved.map (·.began) = [2]
    := exists_of_check (by decide +kernel)
  exact ⟨s, hstatus, hbegan, confirmation_fresh benchKeys s ⟨_, hs⟩⟩

end Bench

end Confirmation

end OriRuntime
