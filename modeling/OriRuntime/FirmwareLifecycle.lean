import OriRuntime.Execution
import OriRuntime.FirmwareEpochs

/-!
# One anchor in force

The registry row of a device and its anchors agree: it is approved exactly while one of its anchors
is active, and is then described by that anchor alone. A key that a promotion replaced is one the
device has held, so no later operation brings it back.
-/

namespace OriRuntime

open List Option

open Execution

namespace FirmwareStore

open FirmwareKeys

variable {k : FirmwareKeys} {st st' : FirmwareStore} {d e : Text} {a : FirmwareAnchor}

/-! ### What an operation does -/

/-- One registry row set, the others as they were. -/
def Rewrites (st st' : FirmwareStore) (d : Text) (row : FirmwareDevice) : Prop :=
  ∀ d', st'.registry.get? d' = if d' = d then some row else st.registry.get? d'

theorem rewrites_set {row : FirmwareDevice} (h : st'.registry = st.registry.set d row) :
    Rewrites st st' d row := by
  intro d'
  rw [h, Dict.get?_set]

theorem rewrites_same {row : FirmwareDevice} (hr : st.registry.get? d = some row)
    (h : st'.registry = st.registry) : Rewrites st st' d row := by
  intro d'
  rw [h]
  split_ifs with hd
  · rw [hd, hr]
  · rfl

/-- The row of a device whose candidate changed while none of its anchors was active. -/
def describedBy (row : FirmwareDevice) (m : ManifestAnchor) (atMs : ℤ) : FirmwareDevice :=
  { row with posture := m.posture, capabilityHash := m.capabilityHash
             manifestJson := m.manifestJson, channelMapJson := m.channelMapJson
             boardProfile := m.boardProfile, provisionedAtMs := atMs }

def revokedDevice (row : FirmwareDevice) (atMs : ℤ) : FirmwareDevice :=
  { row with revoked := true, approved := false, revokedAtMs := some atMs }

def reinstatedDevice (row : FirmwareDevice) : FirmwareDevice :=
  { row with revoked := false, revokedAtMs := none, approved := false }

/-- What an operation that returns leaves: the store as it was, or one of these. -/
inductive Performed (k : FirmwareKeys) (st : FirmwareStore) : AnchorOp → FirmwareStore → Prop
  | kept (op : AnchorOp) : Performed k st op st
  | registered (m : ManifestAnchor) (atMs : ℤ) (keyEpoch epoch : Text)
      (hkey : k.keyEpochId m.deviceId m.publicKeyB64 = some keyEpoch)
      (hepoch : k.anchorEpochId m.deviceId m.publicKeyB64 m.posture m.capabilityHash = some epoch)
      (hnew : st.registry.get? m.deviceId = none) :
      Performed k st (.upsert m atMs) (((st.setDevice m.deviceId
        (registeredDevice m keyEpoch atMs)).recordAnchor m epoch keyEpoch atMs).recordTransition
          { deviceId := m.deviceId, transition := .registered, fromEpochId := none
            toEpochId := some epoch, keyEpochId := keyEpoch, occurredAtMs := atMs })
  | candidate (m : ManifestAnchor) (atMs : ℤ) (keyEpoch epoch : Text) (row : FirmwareDevice)
      (hkey : k.keyEpochId m.deviceId m.publicKeyB64 = some keyEpoch)
      (hepoch : k.anchorEpochId m.deviceId m.publicKeyB64 m.posture m.capabilityHash = some epoch)
      (hrow : st.registry.get? m.deviceId = some row) (hrevoked : row.revoked = false)
      (hsame : row.publicKeyB64 = m.publicKeyB64)
      (hidle : ∀ a, st.anchors.get? epoch = some a → a.state ≠ .active) :
      Performed k st (.upsert m atMs) (st.addCandidate m row epoch keyEpoch atMs)
  | promoted (d : Text) (who : Attribution) (expected : Option Text) (row : FirmwareDevice)
      (epoch : Text) (a : FirmwareAnchor) (hrow : st.registry.get? d = some row)
      (hrevoked : row.revoked = false) (hheld : Held st d epoch a) (hpending : a.state = .pending) :
      Performed k st (.approve d who expected) (st.promote d row epoch a who)
  | revoked (d : Text) (who : Attribution) (row : FirmwareDevice)
      (hrow : st.registry.get? d = some row) :
      Performed k st (.revoke d who) ((((st.setDevice d
        (revokedDevice row who.occurredAtMs)).moveState d .active .revoked
          who.occurredAtMs).discardPending d who.occurredAtMs (fun _ => none)).recordTransition
        { deviceId := d, transition := .revoked, fromEpochId := (st.anchorIn d .active).map (·.1)
          toEpochId := none, keyEpochId := ((st.anchorIn d .active).map (·.2.keyEpochId)).getD []
          actor := who.actor, reason := who.reason, occurredAtMs := who.occurredAtMs })
  | reinstated (d : Text) (who : Attribution) (row : FirmwareDevice)
      (hrow : st.registry.get? d = some row) (hrevoked : row.revoked = true) :
      Performed k st (.reinstate d who) (((st.setDevice d (reinstatedDevice row)).moveState d
        .revoked .pending who.occurredAtMs).recordTransition
        { deviceId := d, transition := .reinstated
          fromEpochId := (st.anchorIn d .revoked).map (·.1)
          toEpochId := (st.anchorIn d .revoked).map (·.1)
          keyEpochId := ((st.anchorIn d .revoked).map (·.2.keyEpochId)).getD []
          actor := who.actor, reason := who.reason, occurredAtMs := who.occurredAtMs })
  | reprovisioned (m : ManifestAnchor) (who : Attribution) (keyEpoch epoch : Text)
      (row : FirmwareDevice) (hkey : k.keyEpochId m.deviceId m.publicKeyB64 = some keyEpoch)
      (hepoch : k.anchorEpochId m.deviceId m.publicKeyB64 m.posture m.capabilityHash = some epoch)
      (hrow : st.registry.get? m.deviceId = some row) (hrevoked : row.revoked = false)
      (hfresh : ∀ e a, Held st m.deviceId e a →
        k.keyIdentity a.publicKeyB64 ≠ k.keyIdentity m.publicKeyB64)
      (hnew : st.anchors.get? epoch = none) :
      Performed k st (.reprovision m who) (((st.discardPending m.deviceId who.occurredAtMs
        (fun _ => none)).recordAnchor m epoch keyEpoch who.occurredAtMs).recordTransition
          { deviceId := m.deviceId, transition := .reprovisioned
            fromEpochId := nonempty row.anchorEpochId, toEpochId := some epoch
            keyEpochId := keyEpoch, actor := who.actor, reason := who.reason
            occurredAtMs := who.occurredAtMs })

variable {atMs : ℤ} {m : ManifestAnchor} {out : Bool} {who : Attribution} {op : AnchorOp}
  {st₁ st₂ : FirmwareStore} {epoch keyEpoch : Text} {b : FirmwareAnchor} {row' : FirmwareDevice}

theorem performed_upsert {out : UpsertOutcome}
    (h : st.upsertFirmwareDeviceAnchor k m atMs = some (out, st')) :
    Performed k st (.upsert m atMs) st' := by
  unfold upsertFirmwareDeviceAnchor at h
  split at h
  · rename_i keyEpoch epoch hk he
    split at h
    · rename_i hn
      cases h
      exact .registered m atMs keyEpoch epoch hk he hn
    · rename_i row ho
      split at h <;> rename_i hr
      · cases h
        exact .kept _
      split at h <;> rename_i hs
      · cases h
        exact .kept _
      by_cases hl : (st.anchors.get? epoch).any
          (fun a => decide (a.state = .active ∨ a.state = .pending)) = true
      · rw [if_pos hl] at h
        cases h
        exact .kept _
      split_ifs at h
      · cases h
        exact .kept _
      · cases h
        refine .candidate m atMs keyEpoch epoch row hk he ho
          (Bool.not_eq_true _ ▸ hr) (not_not.mp hs) ?_
        intro a ha hc
        rw [ha] at hl
        exact hl (decide_eq_true (.inl hc))
  · cases h

theorem performed_approve {expected : Option Text}
    (h : st.approveFirmwareDevice d who expected = some (out, st')) :
    Performed k st (.approve d who expected) st' := by
  unfold approveFirmwareDevice at h
  split at h <;> rename_i hg
  · cases h
  split at h
  · cases h
    exact .kept _
  · rename_i row ho
    split_ifs at h with hr
    · cases h
      exact .kept _
    split at h
    · cases h
      exact .kept _
    · rename_i epoch a hi
      obtain ⟨hh, hp⟩ := anchorIn_some hi
      split_ifs at h
      · cases h
        exact .kept _
      · cases h
        exact .kept _
      · cases h
        exact .promoted d who expected row epoch a ho (Bool.not_eq_true _ ▸ hr) hh hp

theorem performed_revoke (h : st.revokeFirmwareDevice d who = some (out, st')) :
    Performed k st (.revoke d who) st' := by
  unfold revokeFirmwareDevice at h
  split_ifs at h
  split at h
  · cases h
    exact .kept _
  · rename_i row hr
    cases h
    exact .revoked d who row hr

theorem performed_reinstate (h : st.reinstateFirmwareDevice d who = some (out, st')) :
    Performed k st (.reinstate d who) st' := by
  unfold reinstateFirmwareDevice at h
  split at h <;> rename_i hg
  · cases h
  split at h
  · cases h
    exact .kept _
  · rename_i row ho
    split_ifs at h with hr
    · cases h
      exact .kept _
    cases h
    exact .reinstated d who row ho (Bool.not_eq_false _ ▸ hr)

theorem performed_reprovision {out : ReprovisionOutcome}
    (h : st.reprovisionFirmwareDevice k m who = some (out, st')) :
    Performed k st (.reprovision m who) st' := by
  unfold reprovisionFirmwareDevice at h
  split_ifs at h with hg
  split at h
  · cases h
    exact .kept _
  · rename_i row ho
    split at h <;> rename_i hr
    · cases h
      exact .kept _
    split at h
    · rename_i keyEpoch epoch identity hk hp hi
      split at h <;> rename_i hc
      · cases h
        exact .kept _
      split at h <;> rename_i hused
      · cases h
        exact .kept _
      split at h <;> rename_i hn
      · cases h
      cases h
      refine .reprovisioned m who keyEpoch epoch row hk hp ho
        (Bool.not_eq_true _ ▸ hr) ?_ (Option.not_isSome_iff_eq_none.mp hn)
      rintro e a ⟨he, hd⟩ hs
      apply hused
      rw [List.any_eq_true]
      refine ⟨a, List.mem_filter.mpr ⟨Dict.mem_values_iff.mpr ⟨e, he⟩, decide_eq_true hd⟩, ?_⟩
      exact decide_eq_true (.inr (hs.trans hi))
    · cases h

theorem perform_performed (h : st.perform k op = some st') : Performed k st op st' := by
  cases op with
  | upsert m atMs =>
    obtain ⟨⟨out, _⟩, ho, rfl⟩ := map_eq_some_iff.mp h
    exact performed_upsert ho
  | approve d who expected =>
    obtain ⟨⟨out, _⟩, ho, rfl⟩ := map_eq_some_iff.mp h
    exact performed_approve ho
  | revoke d who =>
    obtain ⟨⟨out, _⟩, ho, rfl⟩ := map_eq_some_iff.mp h
    exact performed_revoke ho
  | reinstate d who =>
    obtain ⟨⟨out, _⟩, ho, rfl⟩ := map_eq_some_iff.mp h
    exact performed_reinstate ho
  | reprovision m who =>
    obtain ⟨⟨out, _⟩, ho, rfl⟩ := map_eq_some_iff.mp h
    exact performed_reprovision ho

/-- What each operation that changes the store did to the row and the anchors of its device. -/
inductive Change (k : FirmwareKeys) (st st' : FirmwareStore) : AnchorOp → Prop
  | kept (op : AnchorOp) (hreg : st'.registry = st.registry) (hanc : st'.anchors = st.anchors) :
      Change k st st' op
  | registered (m : ManifestAnchor) (atMs : ℤ) (keyEpoch epoch : Text)
      (hkey : k.keyEpochId m.deviceId m.publicKeyB64 = some keyEpoch)
      (hepoch : k.anchorEpochId m.deviceId m.publicKeyB64 m.posture m.capabilityHash = some epoch)
      (hnew : st.registry.get? m.deviceId = none)
      (hreg : Rewrites st st' m.deviceId (registeredDevice m keyEpoch atMs))
      (hanc : st'.anchors = (st.recordAnchor m epoch keyEpoch atMs).anchors) :
      Change k st st' (.upsert m atMs)
  | candidate (m : ManifestAnchor) (atMs : ℤ) (keyEpoch epoch : Text) (row row' : FirmwareDevice)
      (hkey : k.keyEpochId m.deviceId m.publicKeyB64 = some keyEpoch)
      (hepoch : k.anchorEpochId m.deviceId m.publicKeyB64 m.posture m.capabilityHash = some epoch)
      (hrow : st.registry.get? m.deviceId = some row) (hrevoked : row.revoked = false)
      (hsame : row.publicKeyB64 = m.publicKeyB64)
      (hidle : ∀ a, st.anchors.get? epoch = some a → a.state ≠ .active)
      (hrow' : row' = row ∨ row' = describedBy row m atMs ∧
        ∀ e a, Held st' m.deviceId e a → a.state ≠ .active)
      (hreg : Rewrites st st' m.deviceId row')
      (hanc : st'.anchors = ((st.moveState m.deviceId .pending .discarded atMs).recordAnchor m epoch
        keyEpoch atMs).anchors) :
      Change k st st' (.upsert m atMs)
  | promoted (d : Text) (who : Attribution) (expected : Option Text) (row : FirmwareDevice)
      (epoch : Text) (a : FirmwareAnchor) (hrow : st.registry.get? d = some row)
      (hrevoked : row.revoked = false) (hheld : Held st d epoch a) (hpending : a.state = .pending)
      (hreg : Rewrites st st' d (promotedDevice row epoch a))
      (hanc : st'.anchors = ((st.moveState d .active .superseded who.occurredAtMs).setState epoch
        .active who.occurredAtMs).anchors) :
      Change k st st' (.approve d who expected)
  | revoked (d : Text) (who : Attribution) (row : FirmwareDevice)
      (hrow : st.registry.get? d = some row)
      (hreg : Rewrites st st' d (revokedDevice row who.occurredAtMs))
      (hanc : st'.anchors = ((st.moveState d .active .revoked who.occurredAtMs).moveState d .pending
        .discarded who.occurredAtMs).anchors) :
      Change k st st' (.revoke d who)
  | reinstated (d : Text) (who : Attribution) (row : FirmwareDevice)
      (hrow : st.registry.get? d = some row) (hrevoked : row.revoked = true)
      (hreg : Rewrites st st' d (reinstatedDevice row))
      (hanc : st'.anchors = (st.moveState d .revoked .pending who.occurredAtMs).anchors) :
      Change k st st' (.reinstate d who)
  | reprovisioned (m : ManifestAnchor) (who : Attribution) (keyEpoch epoch : Text)
      (row : FirmwareDevice) (hkey : k.keyEpochId m.deviceId m.publicKeyB64 = some keyEpoch)
      (hepoch : k.anchorEpochId m.deviceId m.publicKeyB64 m.posture m.capabilityHash = some epoch)
      (hrow : st.registry.get? m.deviceId = some row) (hrevoked : row.revoked = false)
      (hfresh : ∀ e a, Held st m.deviceId e a →
        k.keyIdentity a.publicKeyB64 ≠ k.keyIdentity m.publicKeyB64)
      (hnew : st.anchors.get? epoch = none) (hreg : Rewrites st st' m.deviceId row)
      (hanc : st'.anchors = ((st.moveState m.deviceId .pending .discarded
        who.occurredAtMs).recordAnchor m epoch keyEpoch who.occurredAtMs).anchors) :
      Change k st st' (.reprovision m who)

theorem recordAnchor_anchors_congr (h : st₁.anchors = st₂.anchors) (m : ManifestAnchor)
    (epoch keyEpoch : Text) (atMs : ℤ) :
    (st₁.recordAnchor m epoch keyEpoch atMs).anchors =
      (st₂.recordAnchor m epoch keyEpoch atMs).anchors := by
  unfold recordAnchor
  rw [h]

theorem change_addCandidate {row : FirmwareDevice}
    (hk : k.keyEpochId m.deviceId m.publicKeyB64 = some keyEpoch)
    (he : k.anchorEpochId m.deviceId m.publicKeyB64 m.posture m.capabilityHash = some epoch)
    (hr : st.registry.get? m.deviceId = some row) (hv : row.revoked = false)
    (hs : row.publicKeyB64 = m.publicKeyB64)
    (hidle : ∀ a, st.anchors.get? epoch = some a → a.state ≠ .active) :
    Change k st (st.addCandidate m row epoch keyEpoch atMs) (.upsert m atMs) := by
  unfold addCandidate
  dsimp only
  generalize hd : st.discardPending m.deviceId atMs _ = discarded
  have ha : discarded.anchors = (st.moveState m.deviceId .pending .discarded atMs).anchors :=
    hd ▸ discardPending_anchors ..
  have hre : discarded.registry = st.registry := hd ▸ discardPending_registry ..
  have hc := recordAnchor_anchors_congr ha m epoch keyEpoch atMs
  split
  · exact .candidate m atMs keyEpoch epoch row row hk he hr hv hs hidle
      (.inl rfl) (rewrites_same hr hre) hc
  · rename_i hn
    refine .candidate m atMs keyEpoch epoch row (describedBy row m atMs) hk he hr hv
      hs hidle (.inr ⟨rfl, ?_⟩) (rewrites_set ?_) hc
    · exact anchorIn_none hn
    · exact congrArg (fun r : Dict Text FirmwareDevice => r.set m.deviceId
        (describedBy row m atMs)) hre

theorem reopenConfirmation_registry (st : FirmwareStore) (d epoch : Text) (atMs : ℤ) :
    (st.reopenConfirmation d epoch atMs).registry = st.registry := by
  unfold reopenConfirmation
  split
  · rfl
  · split_ifs <;> rfl

theorem reopenConfirmation_anchors (st : FirmwareStore) (d epoch : Text) (atMs : ℤ) :
    (st.reopenConfirmation d epoch atMs).anchors = st.anchors := by
  unfold reopenConfirmation
  split
  · rfl
  · split_ifs <;> rfl

theorem promote_registry (st : FirmwareStore) (row : FirmwareDevice) (who : Attribution) :
    (st.promote d row e a who).registry = st.registry.set d (promotedDevice row e a) := by
  unfold promote
  rw [reopenConfirmation_registry]
  show Dict.set (setState _ e .active who.occurredAtMs).registry d _ = _
  rw [setState_registry]
  split
  · rfl
  · rw [setState_registry]

theorem promote_anchors (st : FirmwareStore) (row : FirmwareDevice) (who : Attribution) :
    (st.promote d row e a who).anchors =
      ((st.moveState d .active .superseded who.occurredAtMs).setState e .active
        who.occurredAtMs).anchors := by
  unfold promote
  rw [reopenConfirmation_anchors]
  rfl

theorem Performed.change (h : Performed k st op st') : Change k st st' op := by
  cases h with
  | kept op => exact .kept op rfl rfl
  | registered m atMs keyEpoch epoch hk hep hn =>
    exact .registered m atMs keyEpoch epoch hk hep hn (rewrites_set rfl) rfl
  | candidate m atMs keyEpoch epoch row hk hep hr he hm hidle =>
    exact change_addCandidate hk hep hr he hm hidle
  | promoted d who expected row epoch a hr he hh hp =>
    exact .promoted d who expected row epoch a hr he hh hp
      (rewrites_set (promote_registry ..)) (promote_anchors ..)
  | revoked d who row hr =>
    refine .revoked d who row hr (rewrites_set ?_) ?_
    · exact (discardPending_registry ..).trans (moveState_registry ..)
    have hs : (st.setDevice d (revokedDevice row who.occurredAtMs)).anchors = st.anchors := rfl
    exact (discardPending_anchors ..).trans (moveState_anchors_congr (moveState_anchors_congr
      hs .active .revoked who.occurredAtMs) .pending .discarded who.occurredAtMs)
  | reinstated d who row hr he =>
    have hs : (st.setDevice d (reinstatedDevice row)).anchors = st.anchors := rfl
    exact .reinstated d who row hr he (rewrites_set (moveState_registry ..))
      (moveState_anchors_congr hs .revoked .pending who.occurredAtMs)
  | reprovisioned m who keyEpoch epoch row hk hep hr he hf hn =>
    exact .reprovisioned m who keyEpoch epoch row hk hep hr he hf hn
      (rewrites_same hr (discardPending_registry ..))
      (recordAnchor_anchors_congr (discardPending_anchors ..) m epoch keyEpoch who.occurredAtMs)

theorem perform_change (h : st.perform k op = some st') : Change k st st' op :=
  (perform_performed h).change

/-! ### What an operation leaves alone -/

theorem setState_shape (st : FirmwareStore) (e : Text) (s : AnchorState) (atMs : ℤ) :
    ∃ anchors, st.setState e s atMs = { st with anchors := anchors } := by
  unfold setState
  split
  · exact ⟨st.anchors, rfl⟩
  · exact ⟨_, rfl⟩

theorem moveState_shape (st : FirmwareStore) (d : Text) (s s' : AnchorState) (atMs : ℤ) :
    ∃ anchors, st.moveState d s s' atMs = { st with anchors := anchors } := by
  unfold moveState
  split
  · exact ⟨st.anchors, rfl⟩
  · exact setState_shape ..

theorem discardPending_shape (st : FirmwareStore) (d : Text) (atMs : ℤ)
    (t : Text → Option AnchorTransition) : ∃ anchors news, st.discardPending d atMs t =
      { st with anchors := anchors, transitions := news ++ st.transitions } ∧
      ∀ x ∈ news, ∃ pending, t pending = some x := by
  unfold discardPending
  split
  · exact ⟨st.anchors, [], rfl, nofun⟩
  rename_i pending _ _
  obtain ⟨anchors, ha⟩ := setState_shape st pending .discarded atMs
  rw [ha]
  split
  · exact ⟨anchors, [], rfl, nofun⟩
  · rename_i x hx
    exact ⟨anchors, [x], rfl, fun y hy => ⟨pending, mem_singleton.mp hy ▸ hx⟩⟩

theorem reopenConfirmation_shape (st : FirmwareStore) (d e : Text) (atMs : ℤ) :
    ∃ outbox, st.reopenConfirmation d e atMs = { st with outbox := outbox } := by
  unfold reopenConfirmation
  split
  · exact ⟨_, rfl⟩
  split
  · exact ⟨st.outbox, rfl⟩
  · exact ⟨_, rfl⟩

theorem promote_shape (st : FirmwareStore) (row : FirmwareDevice) (who : Attribution) :
    ∃ anchors, st.promote d row e a who = ({ st with
      registry := st.registry.set d (promotedDevice row e a), anchors := anchors
      transitions := { deviceId := d, transition := .promoted
                       fromEpochId := (st.anchorIn d .active).map (·.1), toEpochId := some e
                       keyEpochId := a.keyEpochId, actor := who.actor, reason := who.reason
                       occurredAtMs := who.occurredAtMs } :: st.transitions } :
        FirmwareStore).reopenConfirmation d e who.occurredAtMs := by
  obtain ⟨superseded, hs⟩ := moveState_shape st d .active .superseded who.occurredAtMs
  change ∃ anchors, reopenConfirmation (recordTransition (setDevice (setState
    (st.moveState d .active .superseded who.occurredAtMs) e .active _) d _) _) d e _ = _
  rw [hs]
  obtain ⟨anchors, ha⟩ := setState_shape { st with anchors := superseded } e .active
    who.occurredAtMs
  rw [ha]
  exact ⟨anchors, rfl⟩

theorem addCandidate_shape (st : FirmwareStore) (m : ManifestAnchor) (row : FirmwareDevice)
    (epoch keyEpoch : Text) (atMs : ℤ) : ∃ registry anchors news,
      st.addCandidate m row epoch keyEpoch atMs =
        { st with registry := registry, anchors := anchors
                  transitions := news ++ st.transitions } ∧
      (registry = st.registry ∨ registry = st.registry.set m.deviceId (describedBy row m atMs)) ∧
      ∀ x ∈ news, x.transition ≠ .promoted ∧ x.transition ≠ .revoked := by
  unfold addCandidate
  dsimp only
  generalize hnote : (fun pending => some ({
    deviceId := m.deviceId, transition := .discarded, fromEpochId := some pending
    toEpochId := some epoch, keyEpochId := keyEpoch, occurredAtMs := atMs } : AnchorTransition)) =
      note
  obtain ⟨anchors, news, hd, hnews⟩ := discardPending_shape st m.deviceId atMs note
  rw [hd]
  have hq : ∀ x ∈ news, x.transition ≠ .promoted ∧ x.transition ≠ .revoked := by
    intro x hx
    obtain ⟨pending, hx⟩ := hnews x hx
    rw [← hnote] at hx
    cases hx
    exact ⟨nofun, nofun⟩
  split
  · exact ⟨_, _, _ :: news, rfl, .inl rfl, forall_mem_cons.mpr ⟨⟨nofun, nofun⟩, hq⟩⟩
  · exact ⟨_, _, _ :: news, rfl, .inr rfl, forall_mem_cons.mpr ⟨⟨nofun, nofun⟩, hq⟩⟩

theorem Performed.shape (h : Performed k st op st') :
    (∃ registry anchors news, st' = { st with registry := registry, anchors := anchors
                                              transitions := news ++ st.transitions } ∧
      ∀ x ∈ news, x.transition ≠ .promoted) ∨
    ∃ d epoch x atMs registry anchors, x.deviceId = d ∧ x.transition = .promoted ∧
      x.toEpochId = some epoch ∧ st' = ({ st with
        registry := registry, anchors := anchors
        transitions := x :: st.transitions } : FirmwareStore).reopenConfirmation d epoch atMs := by
  cases h with
  | kept op => exact .inl ⟨_, _, [], rfl, nofun⟩
  | registered => exact .inl ⟨_, _, [_], rfl, forall_mem_singleton.mpr nofun⟩
  | candidate m atMs keyEpoch epoch row hkey hepoch hrow hrevoked hsame hidle =>
      obtain ⟨registry, anchors, news, heq, -, hnews⟩ :=
        addCandidate_shape st m row epoch keyEpoch atMs
      exact .inl ⟨registry, anchors, news, heq, fun x hx => (hnews x hx).1⟩
  | promoted d who expected row epoch a hrow hrevoked hheld hpending =>
      obtain ⟨anchors, heq⟩ := promote_shape (d := d) (e := epoch) (a := a) st row who
      exact .inr ⟨d, epoch, _, who.occurredAtMs, _, anchors, rfl, rfl, rfl, heq⟩
  | revoked d who row hrow =>
      obtain ⟨anchors, hmoved⟩ := moveState_shape (st.setDevice d
        (revokedDevice row who.occurredAtMs)) d .active .revoked who.occurredAtMs
      rw [hmoved]
      obtain ⟨anchors', news, hdis, hnews⟩ := discardPending_shape { st.setDevice d
        (revokedDevice row who.occurredAtMs) with anchors := anchors } d who.occurredAtMs
          (fun _ => none)
      rw [hdis]
      refine .inl ⟨_, _, _ :: news, rfl, forall_mem_cons.mpr ⟨nofun, fun x hx => ?_⟩⟩
      obtain ⟨_, hx⟩ := hnews x hx
      cases hx
  | reinstated d who row hrow hrevoked =>
      obtain ⟨anchors, hmoved⟩ := moveState_shape (st.setDevice d (reinstatedDevice row)) d
        .revoked .pending who.occurredAtMs
      rw [hmoved]
      exact .inl ⟨_, _, [_], rfl, forall_mem_singleton.mpr nofun⟩
  | reprovisioned m who keyEpoch epoch row hkey hepoch hrow hrevoked hfresh hnew =>
      obtain ⟨anchors, news, hdis, hnews⟩ := discardPending_shape st m.deviceId
        who.occurredAtMs (fun _ => none)
      rw [hdis]
      refine .inl ⟨_, _, _ :: news, rfl, forall_mem_cons.mpr ⟨nofun, fun x hx => ?_⟩⟩
      obtain ⟨_, hx⟩ := hnews x hx
      cases hx

/-! ### The row and the anchors agree -/

def Describes (row : FirmwareDevice) (epoch : Text) (a : FirmwareAnchor) : Prop :=
  row.toAnchorColumns = ⟨a.publicKeyB64, a.posture, a.capabilityHash, a.channelMapJson, epoch,
    a.keyEpochId⟩ ∧ row.manifestJson = a.manifestJson

structure RowSound (st : FirmwareStore) (d : Text) (row : FirmwareDevice) : Prop where
  keyed : ∃ e a, Held st d e a ∧ a.publicKeyB64 = row.publicKeyB64
  inForce : ∀ e a, Held st d e a → a.state = .active → row.approved = true ∧ Describes row e a
  approved : row.approved = true → ∃ e a, Held st d e a ∧ a.state = .active
  revoked : row.revoked = true → ∀ e a, Held st d e a → a.state ≠ .active ∧ a.state ≠ .pending
  unrevoked : row.revoked = false → ∀ e a, Held st d e a → a.state ≠ .revoked

structure Sound (k : FirmwareKeys) (st : FirmwareStore) : Prop where
  anchors : AnchorsSound k st
  registered : ∀ d e a, Held st d e a → st.registry.get? d ≠ none
  rows : ∀ d row, st.registry.get? d = some row → RowSound st d row

theorem held_congr (h : st₁.anchors = st₂.anchors) : Held st₁ d e a ↔ Held st₂ d e a := by
  unfold Held
  rw [h]

theorem AnchorsSound.congr (h : st₁.anchors = st₂.anchors) (hs : AnchorsSound k st₂) :
    AnchorsSound k st₁ where
  epochs e a hg := hs.epochs e a (h ▸ hg)
  one d e a e' a' ha ha' := hs.one d e a e' a' ((held_congr h).mp ha) ((held_congr h).mp ha')
  identities d e a e' a' ha ha' :=
    hs.identities d e a e' a' ((held_congr h).mp ha) ((held_congr h).mp ha')

theorem sound_empty : Sound k {} := by
  have hn : ∀ d e a, ¬ Held ({} : FirmwareStore) d e a := fun d e a h => by cases h.1
  refine ⟨⟨?_, ?_, ?_⟩, ?_, ?_⟩
  · intro e a h
    cases h
  · exact fun d e a _ _ ha => absurd ha (hn d e a)
  · exact fun d e a _ _ ha => absurd ha (hn d e a)
  · exact fun d e a ha => absurd ha (hn d e a)
  · intro d row h
    cases h

/-! ### The other devices -/

theorem not_live_discarded : ¬ Live .discarded := by
  rintro (h | h | h) <;> cases h

theorem not_live_superseded : ¬ Live .superseded := by
  rintro (h | h | h) <;> cases h

theorem live_pending : Live .pending := .inl rfl

theorem live_active : Live .active := .inr (.inl rfl)

theorem live_revoked : Live .revoked := .inr (.inr rfl)

theorem AnchorsSound.discard (h : AnchorsSound k st) (d : Text) (atMs : ℤ) :
    AnchorsSound k (st.moveState d .pending .discarded atMs) :=
  h.move live_pending (fun hl => absurd hl not_live_discarded) atMs

theorem AnchorsSound.supersede (h : AnchorsSound k st) (d : Text) (atMs : ℤ) :
    AnchorsSound k (st.moveState d .active .superseded atMs) :=
  h.move live_active (fun hl => absurd hl not_live_superseded) atMs

theorem AnchorsSound.promote_eq (h : AnchorsSound k st) (ha : Held st d e a)
    (hp : a.state = .pending) (atMs : ℤ) :
    Held (st.moveState d .active .superseded atMs) d e a ∧
      (st.moveState d .active .superseded atMs).setState e .active atMs =
        (st.moveState d .active .superseded atMs).moveState d .pending .active atMs := by
  have hn : a.state ≠ .active := by
    rw [hp]
    nofun
  have hh : Held (st.moveState d .active .superseded atMs) d e a :=
    (h.held_move_self live_active).mpr (.inl ⟨ha, hn⟩)
  exact ⟨hh, (moveState_of_held (h.supersede d atMs) live_pending hh hp).symm⟩

theorem AnchorsSound.superseded (h : AnchorsSound k st)
    (hb : Held (st.moveState d .active .superseded atMs) d e b) : b.state ≠ .active := by
  rcases (h.held_move_self live_active).mp hb with ⟨-, hn⟩ | ⟨a, -, -, rfl⟩
  · exact hn
  · nofun

theorem Rewrites.self {row : FirmwareDevice} (h : Rewrites st st' d row) :
    st'.registry.get? d = some row :=
  (h d).trans (if_pos rfl)

theorem Rewrites.other {row : FirmwareDevice} (h : Rewrites st st' d row) {d' : Text}
    (hd : d' ≠ d) : st'.registry.get? d' = st.registry.get? d' :=
  (h d').trans (if_neg hd)

theorem Sound.retain (h : Sound k st) (d : Text) (atMs : ℤ) :
    AnchorsSound k (st.moveState d .active .revoked atMs) := by
  refine h.anchors.move live_active (fun _ e a e' a' ha ha' hc => ?_) atMs
  cases ho : st.registry.get? d with
  | none => exact absurd ho (h.registered d e a ha)
  | some row =>
    have hs := h.rows d row ho
    cases hr : row.revoked with
    | true => exact absurd hc (hs.revoked hr e a ha).1
    | false => exact hs.unrevoked hr e' a' ha'

theorem Sound.giveBack (h : Sound k st) {row : FirmwareDevice}
    (ho : st.registry.get? d = some row) (hr : row.revoked = true) (atMs : ℤ) :
    AnchorsSound k (st.moveState d .revoked .pending atMs) :=
  h.anchors.move live_revoked
    (fun _ _ _ e' a' _ ha' _ => ((h.rows d row ho).revoked hr e' a' ha').2) atMs

theorem Change.frame (hs : Function.Injective k.sha256) (h : Sound k st) (hc : Change k st st' op)
    (hd : d ≠ op.deviceId) :
    st'.registry.get? d = st.registry.get? d ∧ ∀ e a, Held st' d e a ↔ Held st d e a := by
  cases hc with
  | kept op hr ha => exact ⟨by rw [hr], fun e a => held_congr ha⟩
  | registered m atMs keyEpoch epoch hk he hn hr ha =>
    exact ⟨hr.other hd, fun e a =>
      (held_congr ha).trans (h.anchors.held_record_ne hs he hd)⟩
  | candidate m atMs keyEpoch epoch row row' hk he ho hre hm hidle hr' hr ha =>
    refine ⟨hr.other hd, fun e a => (held_congr ha).trans ?_⟩
    exact ((h.anchors.discard m.deviceId atMs).held_record_ne hs he hd).trans
      (h.anchors.held_move_ne live_pending hd)
  | promoted d' who expected row epoch b ho hre hh hp hr ha =>
    refine ⟨hr.other hd, fun e a => (held_congr ha).trans ?_⟩
    rw [(h.anchors.promote_eq hh hp who.occurredAtMs).2]
    exact ((h.anchors.supersede d' who.occurredAtMs).held_move_ne live_pending hd).trans
      (h.anchors.held_move_ne live_active hd)
  | revoked d' who row ho hr ha =>
    refine ⟨hr.other hd, fun e a => (held_congr ha).trans ?_⟩
    exact ((h.retain d' who.occurredAtMs).held_move_ne live_pending hd).trans
      (h.anchors.held_move_ne live_active hd)
  | reinstated d' who row ho hre hr ha =>
    exact ⟨hr.other hd, fun e a =>
      (held_congr ha).trans (h.anchors.held_move_ne live_revoked hd)⟩
  | reprovisioned m who keyEpoch epoch row hk he ho hre hf hn hr ha =>
    refine ⟨hr.other hd, fun e a => (held_congr ha).trans ?_⟩
    exact ((h.anchors.discard m.deviceId who.occurredAtMs).held_record_ne hs he hd).trans
      (h.anchors.held_move_ne live_pending hd)

/-! ### Every operation keeps them so -/

theorem AnchorsSound.of_discard (h : AnchorsSound k st)
    (hb : Held (st.moveState d .pending .discarded atMs) d e b) :
    b.state ≠ .pending ∧ (Held st d e b ∨ ∃ a, Held st d e a ∧ b = moved a .discarded atMs) := by
  rcases (h.held_move_self live_pending).mp hb with ⟨hh, hn⟩ | ⟨a, ha, -, rfl⟩
  · exact ⟨hn, .inl hh⟩
  · exact ⟨by nofun, .inr ⟨a, ha, rfl⟩⟩

theorem AnchorsSound.held_moved (h : AnchorsSound k st) {s s' : AnchorState} (hs : Live s)
    (atMs : ℤ) {d' : Text} (ha : Held st d' e a) :
    ∃ b, Held (st.moveState d s s' atMs) d' e b ∧ b.publicKeyB64 = a.publicKeyB64 := by
  refine ⟨_, (h.held_move hs).mpr ⟨a, ha, rfl⟩, ?_⟩
  split_ifs <;> rfl

theorem Change.anchorsSound (h : Sound k st) (hc : Change k st st' op) : AnchorsSound k st' := by
  cases hc with
  | kept op he han => exact h.anchors.congr han
  | registered m atMs keyEpoch epoch hk hep hn he han =>
    have ho : ∀ e a, ¬ Held st m.deviceId e a := fun e a ha => h.registered _ e a ha hn
    exact (h.anchors.record hk hep (fun e a ha => absurd ha (ho e a))
      (fun e a ha => absurd ha (ho e a))).congr han
  | candidate m atMs keyEpoch epoch row row' hk hep hr hv hs hidle hr' he han =>
    refine ((h.anchors.discard m.deviceId atMs).record hk hep
      (fun e b hb => (h.anchors.of_discard hb).1) ?_).congr han
    intro e b hb hi
    obtain ⟨e', a', ha', hk'⟩ := (h.rows _ row hr).keyed
    obtain ⟨b', hb', hs'⟩ : ∃ b, Held (st.moveState m.deviceId .pending .discarded atMs)
        m.deviceId e' b ∧ b.publicKeyB64 = a'.publicKeyB64 :=
      h.anchors.held_moved live_pending atMs ha'
    have hp : b'.publicKeyB64 = m.publicKeyB64 := (hs'.trans hk').trans hs
    rw [← hp] at hi ⊢
    exact (h.anchors.discard m.deviceId atMs).identities _ e b e' b' hb hb' hi
  | promoted d' who expected row epoch b hr hv hh hpe he han =>
    refine AnchorsSound.congr han ?_
    rw [(h.anchors.promote_eq hh hpe who.occurredAtMs).2]
    exact (h.anchors.supersede d' who.occurredAtMs).move live_pending
      (fun _ _ _ e' a' _ ha' _ => h.anchors.superseded ha') who.occurredAtMs
  | revoked d' who row hr he han =>
    exact ((h.retain d' who.occurredAtMs).discard d' who.occurredAtMs).congr han
  | reinstated d' who row hr hv he han =>
    exact (h.giveBack hr hv who.occurredAtMs).congr han
  | reprovisioned m who keyEpoch epoch row hk hep hr hv hf hn he han =>
    refine ((h.anchors.discard m.deviceId who.occurredAtMs).record hk hep
      (fun e b hb => (h.anchors.of_discard hb).1) ?_).congr han
    intro e b hb hi
    rcases (h.anchors.of_discard hb).2 with ha | ⟨a, ha, rfl⟩
    · exact absurd hi (hf e b ha)
    · exact absurd hi (hf e a ha)

theorem RowSound.congr {row : FirmwareDevice} (hh : ∀ e a, Held st₁ d e a ↔ Held st₂ d e a)
    (h : RowSound st₂ d row) :
    RowSound st₁ d row where
  keyed := by
    obtain ⟨e, a, ha, hk⟩ := h.keyed
    exact ⟨e, a, (hh e a).mpr ha, hk⟩
  inForce e a ha := h.inForce e a ((hh e a).mp ha)
  approved hp := by
    obtain ⟨e, a, ha, hc⟩ := h.approved hp
    exact ⟨e, a, (hh e a).mpr ha, hc⟩
  revoked hr e a ha := h.revoked hr e a ((hh e a).mp ha)
  unrevoked hr e a ha := h.unrevoked hr e a ((hh e a).mp ha)

theorem rowSound_registered (hn : ∀ e a, ¬ Held st m.deviceId e a) :
    RowSound (st.recordAnchor m epoch keyEpoch atMs) m.deviceId
      (registeredDevice m keyEpoch atMs) := by
  have hh : ∀ e a, Held (st.recordAnchor m epoch keyEpoch atMs) m.deviceId e a →
      a = pendingAnchor m keyEpoch atMs := by
    intro e a ha
    rcases held_recordAnchor.mp ha with ⟨-, h, -⟩ | ⟨-, h⟩
    · exact h
    · exact absurd h (hn e a)
  refine ⟨⟨epoch, _, held_recordAnchor.mpr (.inl ⟨rfl, rfl, rfl⟩), rfl⟩, ?_, nofun, nofun, ?_⟩
  · intro e a ha hc
    rw [hh e a ha] at hc
    cases hc
  · intro _ e a ha hr
    rw [hh e a ha] at hr
    cases hr

theorem rowSound_candidate (h : Sound k st) {row : FirmwareDevice}
    (hro : st.registry.get? m.deviceId = some row) (he : row.revoked = false)
    (hm : row.publicKeyB64 = m.publicKeyB64)
    (hidle : ∀ a, st.anchors.get? epoch = some a → a.state ≠ .active) {c : FirmwareStore}
    (hc : c.anchors = ((st.moveState m.deviceId .pending .discarded
      atMs).recordAnchor m epoch keyEpoch atMs).anchors)
    (hr' : row' = row ∨ row' = describedBy row m atMs ∧
      ∀ e a, Held c m.deviceId e a → a.state ≠ .active) : RowSound c m.deviceId row' := by
  have hn := h.rows _ row hro
  have hf : row'.publicKeyB64 = m.publicKeyB64 ∧ row'.approved = row.approved ∧
      row'.revoked = false := by
    rcases hr' with rfl | ⟨rfl, -⟩
    all_goals exact ⟨hm, rfl, he⟩
  -- A candidate recorded over an epoch the device has held, or beside it, is the only pending one.
  have hh : ∀ e a, Held c m.deviceId e a → a.state = .pending ∨ a.state = .discarded ∨
      e ≠ epoch ∧ Held st m.deviceId e a := by
    intro e a ha
    rcases held_recordAnchor.mp ((held_congr hc).mp ha) with ⟨-, rfl, -⟩ | ⟨hne, ha⟩
    · exact .inl rfl
    rcases (h.anchors.of_discard ha).2 with ha | ⟨b, -, rfl⟩
    · exact .inr (.inr ⟨hne, ha⟩)
    · exact .inr (.inl rfl)
  refine ⟨?_, ?_, ?_, ?_, ?_⟩
  · exact ⟨epoch, _, (held_congr hc).mpr (held_recordAnchor.mpr (.inl ⟨rfl, rfl, rfl⟩)), hf.1.symm⟩
  · intro e a ha hac
    rcases hr' with rfl | ⟨-, ho⟩
    · rcases hh e a ha with hs | hs | ⟨-, ha⟩
      · cases hs.symm.trans hac
      · cases hs.symm.trans hac
      · exact hn.inForce e a ha hac
    · exact absurd hac (ho e a ha)
  · intro hp
    obtain ⟨e, a, ha, hac⟩ := hn.approved (hf.2.1 ▸ hp)
    refine ⟨e, a, (held_congr hc).mpr (held_recordAnchor.mpr (.inr ⟨?_, ?_⟩)), hac⟩
    · rintro rfl
      exact hidle a ha.1 hac
    · refine (h.anchors.held_move_self live_pending).mpr (.inl ⟨ha, ?_⟩)
      rw [hac]
      nofun
  · intro hr
    cases hf.2.2.symm.trans hr
  · intro _ e a ha ht
    rcases hh e a ha with hs | hs | ⟨-, ha⟩
    · cases hs.symm.trans ht
    · cases hs.symm.trans ht
    · exact hn.unrevoked he e a ha ht

theorem held_promoted (h : Sound k st) {row : FirmwareDevice} (ho : st.registry.get? d = some row)
    (hr : row.revoked = false) (ha : Held st d e a) (hp : a.state = .pending)
    {e' : Text}
    (hb : Held ((st.moveState d .active .superseded atMs).setState e .active atMs) d e' b) :
    e' = e ∧ b = moved a .active atMs ∨ ¬ Live b.state := by
  obtain ⟨hh, heq⟩ := h.anchors.promote_eq ha hp atMs
  rw [heq] at hb
  have hn := h.anchors.supersede d atMs
  rcases (hn.held_move_self live_pending).mp hb with ⟨hb, he⟩ | ⟨a', ha', ht, rfl⟩
  · right
    rintro (hs | hs | hs)
    · exact he hs
    · exact h.anchors.superseded hb hs
    · rcases (h.anchors.held_move_self live_active).mp hb with ⟨hb, -⟩ | ⟨a', -, -, rfl⟩
      · exact (h.rows d row ho).unrevoked hr e' b hb hs
      · cases hs
  · obtain rfl := hn.one d _ _ _ _ ha' hh (ht.trans hp.symm) (ht ▸ live_pending)
    obtain rfl := mem_unique ha'.1 hh.1
    exact .inl ⟨rfl, rfl⟩

theorem rowSound_promoted (h : Sound k st) {row : FirmwareDevice}
    (ho : st.registry.get? d = some row) (he : row.revoked = false) (ha : Held st d e a)
    (hp : a.state = .pending) (atMs : ℤ) :
    RowSound ((st.moveState d .active .superseded atMs).setState e .active atMs) d
      (promotedDevice row e a) := by
  obtain ⟨hh, heq⟩ := h.anchors.promote_eq ha hp atMs
  have hc : Held ((st.moveState d .active .superseded atMs).setState e .active atMs) d e
      (moved a .active atMs) := by
    rw [heq]
    exact ((h.anchors.supersede d atMs).held_move_self live_pending).mpr (.inr ⟨a, hh, hp, rfl⟩)
  refine ⟨⟨e, _, hc, rfl⟩, ?_, fun _ => ⟨e, _, hc, rfl⟩, ?_, ?_⟩
  · intro e' b hb hs
    rcases held_promoted h ho he ha hp hb with ⟨rfl, rfl⟩ | hn
    · exact ⟨rfl, rfl, rfl⟩
    · exact absurd (hs ▸ live_active) hn
  · intro hr
    cases he.symm.trans hr
  · intro _ e' b hb hs
    rcases held_promoted h ho he ha hp hb with ⟨-, rfl⟩ | hn
    · cases hs
    · exact hn (hs ▸ live_revoked)

theorem rowSound_revoked (h : Sound k st) {row : FirmwareDevice}
    (hro : st.registry.get? d = some row) (atMs : ℤ) :
    RowSound ((st.moveState d .active .revoked atMs).moveState d .pending .discarded atMs) d
      (revokedDevice row atMs) := by
  have hr := h.retain d atMs
  have ho : ∀ e b, Held ((st.moveState d .active .revoked atMs).moveState d .pending .discarded
      atMs) d e b → b.state ≠ .active ∧ b.state ≠ .pending := by
    intro e b hb
    obtain ⟨hp, hb | ⟨a, -, rfl⟩⟩ := hr.of_discard hb
    · rcases (h.anchors.held_move_self live_active).mp hb with ⟨-, hac⟩ | ⟨a, -, -, rfl⟩
      · exact ⟨hac, hp⟩
      · exact ⟨nofun, nofun⟩
    · exact ⟨nofun, nofun⟩
  refine ⟨?_, fun e b hb hac => absurd hac (ho e b hb).1, nofun, fun _ => ho, nofun⟩
  obtain ⟨e, a, ha, hk⟩ := (h.rows d row hro).keyed
  obtain ⟨b, hb, hs⟩ : ∃ b, Held (st.moveState d .active .revoked atMs) d e b ∧
      b.publicKeyB64 = a.publicKeyB64 := h.anchors.held_moved live_active atMs ha
  obtain ⟨c, hc, hs'⟩ : ∃ c, Held ((st.moveState d .active .revoked atMs).moveState d .pending
      .discarded atMs) d e c ∧ c.publicKeyB64 = b.publicKeyB64 :=
    hr.held_moved live_pending atMs hb
  exact ⟨e, c, hc, (hs'.trans hs).trans hk⟩

theorem rowSound_reinstated (h : Sound k st) {row : FirmwareDevice}
    (ho : st.registry.get? d = some row) (hr : row.revoked = true) (atMs : ℤ) :
    RowSound (st.moveState d .revoked .pending atMs) d (reinstatedDevice row) := by
  have hs := h.rows d row ho
  refine ⟨?_, ?_, nofun, nofun, ?_⟩
  · obtain ⟨e, a, ha, hk⟩ := hs.keyed
    obtain ⟨b, hb, hm⟩ : ∃ b, Held (st.moveState d .revoked .pending atMs) d e b ∧
        b.publicKeyB64 = a.publicKeyB64 := h.anchors.held_moved live_revoked atMs ha
    exact ⟨e, b, hb, hm.trans hk⟩
  · intro e b hb hc
    rcases (h.anchors.held_move_self live_revoked).mp hb with ⟨hb, -⟩ | ⟨a, -, -, rfl⟩
    · exact absurd hc (hs.revoked hr e b hb).1
    · cases hc
  · intro _ e b hb ht
    rcases (h.anchors.held_move_self live_revoked).mp hb with ⟨-, hn⟩ | ⟨a, -, -, rfl⟩
    · exact hn ht
    · cases ht

theorem rowSound_reprovisioned (h : Sound k st) {row : FirmwareDevice}
    (ho : st.registry.get? m.deviceId = some row) (hre : row.revoked = false)
    (hn : st.anchors.get? epoch = none) :
    RowSound ((st.moveState m.deviceId .pending .discarded atMs).recordAnchor m epoch keyEpoch atMs)
      m.deviceId row := by
  have hsn := h.rows _ row ho
  have he : ∀ e a, Held st m.deviceId e a → e ≠ epoch := by
    rintro e a ⟨hg, -⟩ rfl
    cases hn.symm.trans hg
  have hh : ∀ e a, Held ((st.moveState m.deviceId .pending .discarded atMs).recordAnchor m epoch
      keyEpoch atMs) m.deviceId e a → a.state = .pending ∨ a.state = .discarded ∨
        Held st m.deviceId e a := by
    intro e a ha
    rcases held_recordAnchor.mp ha with ⟨-, rfl, -⟩ | ⟨-, ha⟩
    · exact .inl rfl
    rcases (h.anchors.of_discard ha).2 with ha | ⟨b, -, rfl⟩
    · exact .inr (.inr ha)
    · exact .inr (.inl rfl)
  refine ⟨?_, ?_, ?_, ?_, ?_⟩
  · obtain ⟨e, a, ha, hk⟩ := hsn.keyed
    obtain ⟨b, hb, hm⟩ : ∃ b, Held (st.moveState m.deviceId .pending .discarded atMs) m.deviceId
        e b ∧ b.publicKeyB64 = a.publicKeyB64 := h.anchors.held_moved live_pending atMs ha
    exact ⟨e, b, held_recordAnchor.mpr (.inr ⟨he e a ha, hb⟩), hm.trans hk⟩
  · intro e a ha hc
    rcases hh e a ha with hs | hs | ha
    · cases hs.symm.trans hc
    · cases hs.symm.trans hc
    · exact hsn.inForce e a ha hc
  · intro hp
    obtain ⟨e, a, ha, hc⟩ := hsn.approved hp
    refine ⟨e, a, held_recordAnchor.mpr (.inr ⟨he e a ha, ?_⟩), hc⟩
    refine (h.anchors.held_move_self live_pending).mpr (.inl ⟨ha, ?_⟩)
    rw [hc]
    nofun
  · intro hr
    cases hre.symm.trans hr
  · intro _ e a ha ht
    rcases hh e a ha with hs | hs | ha
    · cases hs.symm.trans ht
    · cases hs.symm.trans ht
    · exact hsn.unrevoked hre e a ha ht

theorem Change.row (h : Sound k st) (hc : Change k st st' op)
    (hr' : st'.registry.get? op.deviceId = some row') : RowSound st' op.deviceId row' := by
  cases hc with
  | kept op he han =>
    rw [he] at hr'
    exact (h.rows _ row' hr').congr (fun e a => held_congr han)
  | registered m atMs keyEpoch epoch hk hep hn he han =>
    obtain rfl := mem_unique he.self hr'
    have ho : ∀ e a, ¬ Held st m.deviceId e a := fun e a ha => h.registered _ e a ha hn
    exact (rowSound_registered ho).congr (fun e a => held_congr han)
  | candidate m atMs keyEpoch epoch row row₁ hk hep hr hv hs hidle hr₁ he han =>
    obtain rfl := mem_unique he.self hr'
    exact rowSound_candidate h hr hv hs hidle han hr₁
  | promoted d' who expected row epoch b hr hv hh hp he han =>
    obtain rfl := mem_unique he.self hr'
    exact (rowSound_promoted h hr hv hh hp who.occurredAtMs).congr (fun e a => held_congr han)
  | revoked d' who row hr he han =>
    obtain rfl := mem_unique he.self hr'
    exact (rowSound_revoked h hr who.occurredAtMs).congr (fun e a => held_congr han)
  | reinstated d' who row hr hv he han =>
    obtain rfl := mem_unique he.self hr'
    exact (rowSound_reinstated h hr hv who.occurredAtMs).congr (fun e a => held_congr han)
  | reprovisioned m who keyEpoch epoch row hk hep hr hv hf hn he han =>
    obtain rfl := mem_unique he.self hr'
    exact (rowSound_reprovisioned h hr hv hn).congr (fun e a => held_congr han)

theorem Change.registered_or (hc : Change k st st' op) :
    (st'.registry = st.registry ∧ st'.anchors = st.anchors) ∨
      st'.registry.get? op.deviceId ≠ none := by
  have hs : ∀ {d : Text} {row : FirmwareDevice}, Rewrites st st' d row →
      st'.registry.get? d ≠ none := by
    intro d row hr hno
    cases hr.self.symm.trans hno
  cases hc with
  | kept op hr ha => exact .inl ⟨hr, ha⟩
  | registered m atMs keyEpoch epoch hk hep hn hr ha => exact .inr (hs hr)
  | candidate m atMs keyEpoch epoch row row₁ hk hep ho he hm hidle hr₁ hr ha
  | promoted d' who expected row epoch b ho he hh hp hr ha
  | revoked d' who row ho hr ha | reinstated d' who row ho he hr ha
  | reprovisioned m who keyEpoch epoch row hk hep ho he hf hn hr ha =>
    exact .inr (hs hr)

theorem Sound.change (hs : Function.Injective k.sha256) (h : Sound k st) (hc : Change k st st' op) :
    Sound k st' := by
  refine ⟨hc.anchorsSound h, ?_, ?_⟩
  · intro d e a ha
    by_cases hd : d = op.deviceId
    · rcases hc.registered_or with ⟨hr, hn⟩ | he
      · rw [hr]
        exact h.registered d e a ((held_congr hn).mp ha)
      · exact hd ▸ he
    · obtain ⟨hr, hh⟩ := hc.frame hs h hd
      rw [hr]
      exact h.registered d e a ((hh e a).mp ha)
  · intro d row ho
    by_cases hd : d = op.deviceId
    · subst hd
      exact hc.row h ho
    · obtain ⟨hr, hh⟩ := hc.frame hs h hd
      rw [hr] at ho
      exact (h.rows d row ho).congr hh

theorem sound_of_reaches (hh : Function.Injective k.sha256)
    (h : Reaches (fun (st : FirmwareStore) op => st.perform k op) {} st) : Sound k st :=
  h.invariant (fun _ _ _ hs ht => hs.change hh (perform_change ht)) sound_empty

/-! ### The keys of a device -/

theorem Change.held_key (hs : Function.Injective k.sha256) (h : Sound k st)
    (hc : Change k st st' op) (ha : Held st d e a) :
    ∃ b, Held st' d e b ∧ b.publicKeyB64 = a.publicKeyB64 := by
  by_cases hd : d ≠ op.deviceId
  · exact ⟨a, ((hc.frame hs h hd).2 e a).mpr ha, rfl⟩
  obtain rfl := not_not.mp hd
  -- An anchor recorded over one of its epoch has its key, an epoch being one key's.
  have hrc : ∀ {c : FirmwareStore} {m : ManifestAnchor} {epoch : Text} {b : FirmwareAnchor}
      (keyEpoch : Text) (atMs : ℤ), Held c m.deviceId e b → AnchorsSound k c →
      k.anchorEpochId m.deviceId m.publicKeyB64 m.posture m.capabilityHash = some epoch →
      ∃ b', Held (c.recordAnchor m epoch keyEpoch atMs) m.deviceId e b' ∧
        b'.publicKeyB64 = b.publicKeyB64 := by
    intro c m epoch b keyEpoch atMs hb hsn hep
    by_cases he : e = epoch
    · refine ⟨_, held_recordAnchor.mpr (.inl ⟨he, rfl, rfl⟩), ?_⟩
      exact (anchorEpochId_inj hs hep (he ▸ (hsn.epochs e b hb.1).1)).2
    · exact ⟨b, held_recordAnchor.mpr (.inr ⟨he, hb⟩), rfl⟩
  cases hc with
  | kept op hr han => exact ⟨a, (held_congr han).mpr ha, rfl⟩
  | registered m atMs keyEpoch epoch hk hep hn hr han =>
    exact absurd hn (h.registered _ e a ha)
  | candidate m atMs keyEpoch epoch row row₁ hk hep ho hre hm hidle hr₁ hr han =>
    obtain ⟨b, hb, hb'⟩ : ∃ b, Held (st.moveState m.deviceId .pending .discarded atMs) m.deviceId
        e b ∧ b.publicKeyB64 = a.publicKeyB64 := h.anchors.held_moved live_pending atMs ha
    obtain ⟨c, hc, hc'⟩ := hrc keyEpoch atMs hb (h.anchors.discard m.deviceId atMs) hep
    exact ⟨c, (held_congr han).mpr hc, hc'.trans hb'⟩
  | promoted d' who expected row epoch b ho hre hh hp hr han =>
    obtain ⟨b, hb, hb'⟩ : ∃ b, Held (st.moveState d' .active .superseded who.occurredAtMs) d'
        e b ∧ b.publicKeyB64 = a.publicKeyB64 :=
      h.anchors.held_moved live_active who.occurredAtMs ha
    obtain ⟨c, hc, hc'⟩ : ∃ c, Held ((st.moveState d' .active .superseded
        who.occurredAtMs).moveState d' .pending .active who.occurredAtMs) d' e c ∧
          c.publicKeyB64 = b.publicKeyB64 :=
      (h.anchors.supersede d' who.occurredAtMs).held_moved live_pending who.occurredAtMs hb
    refine ⟨c, (held_congr han).mpr ?_, hc'.trans hb'⟩
    rw [(h.anchors.promote_eq hh hp who.occurredAtMs).2]
    exact hc
  | revoked d' who row ho hr han =>
    obtain ⟨b, hb, hb'⟩ : ∃ b, Held (st.moveState d' .active .revoked who.occurredAtMs) d'
        e b ∧ b.publicKeyB64 = a.publicKeyB64 :=
      h.anchors.held_moved live_active who.occurredAtMs ha
    obtain ⟨c, hc, hc'⟩ : ∃ c, Held ((st.moveState d' .active .revoked
        who.occurredAtMs).moveState d' .pending .discarded who.occurredAtMs) d' e c ∧
          c.publicKeyB64 = b.publicKeyB64 :=
      (h.retain d' who.occurredAtMs).held_moved live_pending who.occurredAtMs hb
    exact ⟨c, (held_congr han).mpr hc, hc'.trans hb'⟩
  | reinstated d' who row ho hre hr han =>
    obtain ⟨b, hb, hb'⟩ : ∃ b, Held (st.moveState d' .revoked .pending who.occurredAtMs) d'
        e b ∧ b.publicKeyB64 = a.publicKeyB64 :=
      h.anchors.held_moved live_revoked who.occurredAtMs ha
    exact ⟨b, (held_congr han).mpr hb, hb'⟩
  | reprovisioned m who keyEpoch epoch row hk hep ho hre hf hn hr han =>
    obtain ⟨b, hb, hb'⟩ : ∃ b, Held (st.moveState m.deviceId .pending .discarded
        who.occurredAtMs) m.deviceId e b ∧ b.publicKeyB64 = a.publicKeyB64 :=
      h.anchors.held_moved live_pending who.occurredAtMs ha
    obtain ⟨c, hc, hc'⟩ := hrc keyEpoch who.occurredAtMs hb
      (h.anchors.discard m.deviceId who.occurredAtMs) hep
    exact ⟨c, (held_congr han).mpr hc, hc'.trans hb'⟩

/-- A key in force after an operation is one the device had in force, one its row had, the key of a
first registration, or one of an identity it never held. -/
theorem Change.live_key (hs : Function.Injective k.sha256) (h : Sound k st)
    (hc : Change k st st' op) (hb : Held st' d e b) (hl : Live b.state) :
    (∃ e a, Held st d e a ∧ Live a.state ∧ a.publicKeyB64 = b.publicKeyB64) ∨
      (∃ row, st.registry.get? d = some row ∧ row.publicKeyB64 = b.publicKeyB64) ∨
      st.registry.get? d = none ∨
      ∀ e a, Held st d e a → k.keyIdentity a.publicKeyB64 ≠ k.keyIdentity b.publicKeyB64 := by
  by_cases hd : d ≠ op.deviceId
  · exact .inl ⟨e, b, ((hc.frame hs h hd).2 e b).mp hb, hl, rfl⟩
  obtain rfl := not_not.mp hd
  cases hc with
  | kept op he han => exact .inl ⟨e, b, (held_congr han).mp hb, hl, rfl⟩
  | registered m atMs keyEpoch epoch hk hep hn he han =>
    exact .inr (.inr (.inl hn))
  | candidate m atMs keyEpoch epoch row row₁ hk hep hr hv hm hidle hr₁ he han =>
    rcases held_recordAnchor.mp ((held_congr han).mp hb) with ⟨-, rfl, -⟩ | ⟨-, hb⟩
    · exact .inr (.inl ⟨row, hr, hm⟩)
    rcases (h.anchors.of_discard hb).2 with hb | ⟨a, -, rfl⟩
    · exact .inl ⟨e, b, hb, hl, rfl⟩
    · exact absurd hl not_live_discarded
  | promoted d' who expected row epoch a hr hv hh hp he han =>
    rcases held_promoted h hr hv hh hp ((held_congr han).mp hb) with
      ⟨-, rfl⟩ | ho
    · exact .inl ⟨epoch, a, hh, hp ▸ live_pending, rfl⟩
    · exact absurd hl ho
  | revoked d' who row hr he han =>
    rcases ((h.retain d' who.occurredAtMs).of_discard ((held_congr han).mp hb)).2 with
      hb | ⟨a, -, rfl⟩
    · rcases (h.anchors.held_move_self live_active).mp hb with ⟨hb, -⟩ | ⟨a, ha, hac, rfl⟩
      · exact .inl ⟨e, b, hb, hl, rfl⟩
      · exact .inl ⟨e, a, ha, hac ▸ live_active, rfl⟩
    · exact absurd hl not_live_discarded
  | reinstated d' who row hr hv he han =>
    rcases (h.anchors.held_move_self live_revoked).mp ((held_congr han).mp hb) with
      ⟨hb, -⟩ | ⟨a, ha, ht, rfl⟩
    · exact .inl ⟨e, b, hb, hl, rfl⟩
    · exact .inl ⟨e, a, ha, ht ▸ live_revoked, rfl⟩
  | reprovisioned m who keyEpoch epoch row hk hep hr hv hf hn he han =>
    rcases held_recordAnchor.mp ((held_congr han).mp hb) with ⟨-, rfl, -⟩ | ⟨-, hb⟩
    · exact .inr (.inr (.inr hf))
    rcases (h.anchors.of_discard hb).2 with hb | ⟨a, -, rfl⟩
    · exact .inl ⟨e, b, hb, hl, rfl⟩
    · exact absurd hl not_live_discarded

/-- The key of a row after an operation is the one it had, that of a first registration, or, once
promoted, that of the anchor that was pending. -/
theorem Change.row_key (hs : Function.Injective k.sha256) (h : Sound k st)
    (hc : Change k st st' op) (hr' : st'.registry.get? d = some row') :
    (∃ row, st.registry.get? d = some row ∧ row'.publicKeyB64 = row.publicKeyB64) ∨
      st.registry.get? d = none ∨
      ∃ row e a, st.registry.get? d = some row ∧ row.revoked = false ∧ Held st d e a ∧
        a.state = .pending ∧ row'.publicKeyB64 = a.publicKeyB64 ∧
        ∀ e' b, Held st' d e' b → Live b.state → b.publicKeyB64 = a.publicKeyB64 := by
  by_cases hd : d ≠ op.deviceId
  · obtain ⟨he, -⟩ := hc.frame hs h hd
    exact .inl ⟨row', he ▸ hr', rfl⟩
  obtain rfl := not_not.mp hd
  cases hc with
  | kept op he ha => exact .inl ⟨row', he ▸ hr', rfl⟩
  | registered m atMs keyEpoch epoch hk hep hn he ha => exact .inr (.inl hn)
  | candidate m atMs keyEpoch epoch row row₁ hk hep hr hv hm hidle hr₁ he ha =>
    obtain rfl := mem_unique he.self hr'
    rcases hr₁ with rfl | ⟨rfl, -⟩
    · exact .inl ⟨row₁, hr, rfl⟩
    · exact .inl ⟨row, hr, rfl⟩
  | promoted d' who expected row epoch a hr hv hh hp he ha =>
    obtain rfl := mem_unique he.self hr'
    refine .inr (.inr ⟨row, epoch, a, hr, hv, hh, hp, rfl, ?_⟩)
    intro e' b hb hl
    rcases held_promoted h hr hv hh hp ((held_congr ha).mp hb) with
      ⟨-, rfl⟩ | ho
    · rfl
    · exact absurd hl ho
  | revoked d' who row hr he ha | reinstated d' who row hr hv he ha
  | reprovisioned m who keyEpoch epoch row hk hep hr hv hf hn he ha =>
    obtain rfl := mem_unique he.self hr'
    exact .inl ⟨row, hr, rfl⟩

/-- A key identity the device has held and neither its row nor any live anchor has. -/
structure Retired (k : FirmwareKeys) (st : FirmwareStore) (d key : Text) : Prop where
  held : ∃ e a, Held st d e a ∧ k.keyIdentity a.publicKeyB64 = k.keyIdentity key
  live : ∀ e a, Held st d e a → Live a.state → k.keyIdentity a.publicKeyB64 ≠ k.keyIdentity key
  row : ∀ row, st.registry.get? d = some row → k.keyIdentity row.publicKeyB64 ≠ k.keyIdentity key

theorem Retired.change (hs : Function.Injective k.sha256) (h : Sound k st)
    (hc : Change k st st' op) {key : Text} (he : Retired k st d key) : Retired k st' d key := by
  obtain ⟨e, a, ha, hk⟩ := he.held
  refine ⟨?_, ?_, ?_⟩
  · obtain ⟨b, hb, hm⟩ := hc.held_key hs h ha
    exact ⟨e, b, hb, hm ▸ hk⟩
  · intro e' b hb hl
    rcases hc.live_key hs h hb hl with
      ⟨e₁, a₁, ha₁, hl₁, hm⟩ | ⟨row, hr, hm⟩ | hn | hf
    · exact hm ▸ he.live e₁ a₁ ha₁ hl₁
    · exact hm ▸ he.row row hr
    · exact absurd hn (h.registered d e a ha)
    · exact fun hb' => hf e a ha (hk.trans hb'.symm)
  · intro row' hr'
    rcases hc.row_key hs h hr' with
      ⟨row, hr, hm⟩ | hn | ⟨row, e₁, a₁, hr, -, ha₁, hp, hm, -⟩
    · exact hm ▸ he.row row hr
    · exact absurd hn (h.registered d e a ha)
    · exact hm ▸ he.live e₁ a₁ ha₁ (hp ▸ live_pending)

theorem retired_of_replaced (hs : Function.Injective k.sha256) (h : Sound k st)
    (hc : Change k st st' op) {row : FirmwareDevice} (hr : st.registry.get? d = some row)
    (hr' : st'.registry.get? d = some row') (hn : row'.publicKeyB64 ≠ row.publicKeyB64) :
    Retired k st' d row.publicKeyB64 := by
  rcases hc.row_key hs h hr' with
    ⟨row₁, hr₁, hm⟩ | ho | ⟨row₁, e, a, hr₁, he, ha, hp, hm, hon⟩
  · obtain rfl := mem_unique hr hr₁
    exact absurd hm hn
  · cases hr.symm.trans ho
  obtain ⟨e₀, a₀, ha₀, hk₀⟩ := (h.rows d row hr).keyed
  have hi : k.keyIdentity a.publicKeyB64 ≠ k.keyIdentity row.publicKeyB64 := by
    intro hd
    rw [← hk₀] at hd
    exact hn (hm.trans ((h.anchors.identities d e a e₀ a₀ ha ha₀ hd).trans hk₀))
  refine ⟨?_, ?_, ?_⟩
  · obtain ⟨b, hb, hs₀⟩ := hc.held_key hs h ha₀
    exact ⟨e₀, b, hb, congrArg k.keyIdentity (hs₀.trans hk₀)⟩
  · intro e' b hb hl
    rw [hon e' b hb hl]
    exact hi
  · intro row₂ hr₂
    obtain rfl := mem_unique hr' hr₂
    rw [hm]
    exact hi

theorem Change.active (hs : Function.Injective k.sha256) (h : Sound k st)
    (hc : Change k st st' op) (hb : Held st' d e b) (hac : b.state = .active) :
    (∃ a, Held st d e a ∧ a.state = .active) ∨ ∃ who expected, op = .approve d who expected := by
  by_cases hd : d ≠ op.deviceId
  · exact .inl ⟨b, ((hc.frame hs h hd).2 e b).mp hb, hac⟩
  obtain rfl := not_not.mp hd
  cases hc with
  | kept op hr han => exact .inl ⟨b, (held_congr han).mp hb, hac⟩
  | registered m atMs keyEpoch epoch hk hep hn hr han =>
    rcases held_recordAnchor.mp ((held_congr han).mp hb) with ⟨-, rfl, -⟩ | ⟨-, hb⟩
    · cases hac
    · exact .inl ⟨b, hb, hac⟩
  | candidate m atMs keyEpoch epoch row row₁ hk hep ho he hm hidle hr₁ hr han =>
    rcases held_recordAnchor.mp ((held_congr han).mp hb) with ⟨-, rfl, -⟩ | ⟨-, hb⟩
    · cases hac
    rcases (h.anchors.of_discard hb).2 with hb | ⟨a, -, rfl⟩
    · exact .inl ⟨b, hb, hac⟩
    · cases hac
  | promoted d' who expected row epoch a ho he hh hp hr han =>
    exact .inr ⟨who, expected, rfl⟩
  | revoked d' who row ho hr han =>
    rcases ((h.retain d' who.occurredAtMs).of_discard ((held_congr han).mp hb)).2 with
      hb | ⟨a, -, rfl⟩
    · rcases (h.anchors.held_move_self live_active).mp hb with ⟨hb, -⟩ | ⟨a, ha, -, rfl⟩
      · exact .inl ⟨b, hb, hac⟩
      · cases hac
    · cases hac
  | reinstated d' who row ho he hr han =>
    rcases (h.anchors.held_move_self live_revoked).mp ((held_congr han).mp hb) with
      ⟨hb, -⟩ | ⟨a, ha, ht, rfl⟩
    · exact .inl ⟨b, hb, hac⟩
    · cases hac
  | reprovisioned m who keyEpoch epoch row hk hep ho he hf hn hr han =>
    rcases held_recordAnchor.mp ((held_congr han).mp hb) with ⟨-, rfl, -⟩ | ⟨-, hb⟩
    · cases hac
    rcases (h.anchors.of_discard hb).2 with hb | ⟨a, -, rfl⟩
    · exact .inl ⟨b, hb, hac⟩
    · cases hac

/-- What every reachable store keeps, and what a step from it does. -/
structure LifecycleSafe (k : FirmwareKeys) (st : FirmwareStore) : Prop where
  one_active : ∀ d e a e' a', Held st d e a → Held st d e' a' → a.state = .active →
    a'.state = .active → e = e'
  one_pending : ∀ d e a e' a', Held st d e a → Held st d e' a' → a.state = .pending →
    a'.state = .pending → e = e'
  approved_iff : ∀ d, (∃ row, st.registry.get? d = some row ∧ row.approved = true) ↔
    ∃ e a, Held st d e a ∧ a.state = .active
  described : ∀ d row e a, st.registry.get? d = some row → Held st d e a → a.state = .active →
    Describes row e a
  revoked : ∀ d row e a, st.registry.get? d = some row → row.revoked = true → Held st d e a →
    a.state ≠ .active ∧ a.state ≠ .pending
  only_promotion : ∀ op st' d e b, st.perform k op = some st' → Held st' d e b →
    b.state = .active → (∃ a, Held st d e a ∧ a.state = .active) ∨
      ∃ who expected, op = .approve d who expected
  replaced_gone : ∀ op st₁ d row row₁ st₂ row₂, st.perform k op = some st₁ →
    st.registry.get? d = some row → st₁.registry.get? d = some row₁ →
    row₁.publicKeyB64 ≠ row.publicKeyB64 →
    Reaches (fun (s : FirmwareStore) op => s.perform k op) st₁ st₂ →
    st₂.registry.get? d = some row₂ →
    k.keyIdentity row₂.publicKeyB64 ≠ k.keyIdentity row.publicKeyB64

theorem retired_of_reaches (hh : Function.Injective k.sha256) {key : Text} (h : Sound k st)
    (hrt : Retired k st d key)
    (he : Reaches (fun (s : FirmwareStore) op => s.perform k op) st st') :
    Retired k st' d key := by
  have ht : ∀ (s : FirmwareStore) (op : AnchorOp) (t : FirmwareStore),
      Sound k s ∧ Retired k s d key → s.perform k op = some t → Sound k t ∧ Retired k t d key := by
    rintro s op t ⟨hs, hr⟩ ht
    have hc := perform_change ht
    exact ⟨hs.change hh hc, hr.change hh hs hc⟩
  exact (he.invariant ht ⟨h, hrt⟩).2

theorem anchor_lifecycle (k : FirmwareKeys) (hsha : Function.Injective k.sha256)
    (st : FirmwareStore) (h : Reaches (fun (s : FirmwareStore) op => s.perform k op) {} st) :
    LifecycleSafe k st := by
  have hsound := sound_of_reaches hsha h
  refine ⟨?_, ?_, ?_, ?_, ?_, ?_, ?_⟩
  · intro d e a e' a' ha ha' hs hs'
    exact hsound.anchors.unique live_active e a e' a' ha ha' hs hs'
  · intro d e a e' a' ha ha' hs hs'
    exact hsound.anchors.unique live_pending e a e' a' ha ha' hs hs'
  · intro d
    constructor
    · rintro ⟨row, hrow, happroved⟩
      exact (hsound.rows d row hrow).approved happroved
    · rintro ⟨e, a, ha, hactive⟩
      obtain ⟨row, hrow⟩ := ne_none_iff_exists'.mp (hsound.registered d e a ha)
      exact ⟨row, hrow, ((hsound.rows d row hrow).inForce e a ha hactive).1⟩
  · intro d row e a hrow ha hactive
    exact ((hsound.rows d row hrow).inForce e a ha hactive).2
  · intro d row e a hrow hrevoked ha
    exact (hsound.rows d row hrow).revoked hrevoked e a ha
  · intro op st' d e b hstep hb hactive
    exact (perform_change hstep).active hsha hsound hb hactive
  · intro op st₁ d row row₁ st₂ row₂ hstep hrow hrow₁ hne hreach hrow₂
    have hc := perform_change hstep
    have hret := retired_of_replaced hsha hsound hc hrow hrow₁ hne
    exact (retired_of_reaches hsha (hsound.change hsha hc) hret hreach).row row₂ hrow₂

section Bench

/-- A hash, and the decodings of two keys of 32 bytes. -/
def benchKeys : FirmwareKeys where
  sha256 bytes := text "sha256 of " ++ bytes
  b64decode key :=
    if key = text "AAAAAAAAAAAAAAAAAAAAAAAAAAAAAAAAAAAAAAAAAAA=" then some (List.replicate 32 0)
    else if key = text "AQEBAQEBAQEBAQEBAQEBAQEBAQEBAQEBAQEBAQEBAQE=" then
      some (List.replicate 32 1)
    else none

def valveManifest (publicKeyB64 : Text) : ManifestAnchor where
  deviceId := text "valve-1"
  publicKeyB64 := publicKeyB64
  posture := text "sealed"
  capabilityHash := text "sha256:cap"
  manifestJson := text "{}"
  channelMapJson := text "[]"
  boardProfile := text "esp32"

def operator (occurredAtMs : ℤ) : Attribution := ⟨text "operator", text "bench", occurredAtMs⟩

/-- Registered, promoted, its key replaced and the new key promoted. -/
def rekeyed : List AnchorOp :=
  [.upsert (valveManifest (text "AAAAAAAAAAAAAAAAAAAAAAAAAAAAAAAAAAAAAAAAAAA=")) 1,
    .approve (text "valve-1") (operator 2) none,
    .reprovision (valveManifest (text "AQEBAQEBAQEBAQEBAQEBAQEBAQEBAQEBAQEBAQEBAQE=")) (operator 3),
    .approve (text "valve-1") (operator 4) none]

theorem anchor_lifecycle_rekeyed : ∃ st : FirmwareStore,
    st.registry.values.map (fun row => (row.approved, row.publicKeyB64)) =
      [(true, text "AQEBAQEBAQEBAQEBAQEBAQEBAQEBAQEBAQEBAQEBAQE=")] ∧
    LifecycleSafe benchKeys st := by
  obtain ⟨st, hst, hrow⟩ : ∃ st, run (fun (s : FirmwareStore) op => s.perform benchKeys op) {}
      rekeyed = some st ∧ st.registry.values.map (fun row => (row.approved, row.publicKeyB64)) =
        [(true, text "AQEBAQEBAQEBAQEBAQEBAQEBAQEBAQEBAQEBAQEBAQE=")] :=
    exists_of_check (by decide +kernel)
  have hsha : Function.Injective benchKeys.sha256 := fun _ _ h => append_cancel_left h
  exact ⟨st, hrow, anchor_lifecycle benchKeys hsha st ⟨rekeyed, hst⟩⟩

end Bench

end FirmwareStore

end OriRuntime
