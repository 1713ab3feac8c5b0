import OriRuntime.Canonical
import OriRuntime.Dict

/-!
# Firmware anchors

`FirmwareStore` of `ori/state/_firmware.py`: the registry row of each device, every anchor it has
held, the transitions between them, newest first, the confirmation outbox and the faults. A
transition's id is its place from the oldest. Each operation is one transaction; where it raises it
leaves nothing.
-/

namespace OriRuntime

inductive AnchorState where
  | pending
  | active
  | superseded
  | discarded
  | revoked
  deriving DecidableEq

structure FirmwareAnchor where
  deviceId : Text
  keyEpochId : Text
  publicKeyB64 : Text
  posture : Text
  capabilityHash : Text
  manifestJson : Text
  channelMapJson : Text
  boardProfile : Text
  state : AnchorState
  createdAtMs : ℤ
  stateChangedAtMs : ℤ
  deriving DecidableEq

/-- The registry columns a firmware message is verified against. -/
structure AnchorColumns where
  publicKeyB64 : Text
  posture : Text
  capabilityHash : Text
  channelMapJson : Text
  anchorEpochId : Text
  keyEpochId : Text
  deriving DecidableEq

structure FirmwareDevice extends AnchorColumns where
  manifestJson : Text
  boardProfile : Text
  approved : Bool := false
  provisionedAtMs : ℤ
  lastBootId : ℤ := 0
  lastSeq : ℤ := 0
  lastCmdSeq : ℤ := 0
  lastProvisionSeq : ℤ := 0
  lastRuntimeSeq : ℤ := 0
  lastUptimeMs : Option ℤ := none
  /-- The key epoch, boot and sequence the uptime was stored with. -/
  lastUptimeMark : Option (Text × ℤ × ℤ) := none
  revoked : Bool := false
  revokedAtMs : Option ℤ := none
  deriving DecidableEq

inductive AnchorTransitionKind where
  | registered
  | promoted
  | discarded
  | revoked
  | reinstated
  | reprovisioned
  deriving DecidableEq

structure AnchorTransition where
  deviceId : Text
  transition : AnchorTransitionKind
  fromEpochId : Option Text
  toEpochId : Option Text
  keyEpochId : Text
  actor : Text := []
  reason : Text := []
  occurredAtMs : ℤ
  deriving DecidableEq

inductive ConfirmationStatus where
  | confirmationPending
  | confirmed
  | quarantined
  deriving DecidableEq

structure FirmwareConfirmation where
  status : ConfirmationStatus := .confirmationPending
  attemptCount : ℕ := 0
  createdAtMs : ℤ
  lastAttemptMs : Option ℤ := none
  resolvedAtMs : Option ℤ := none
  deriving DecidableEq

/-- A fault's key, and its other columns as one text. -/
structure FirmwareFault where
  deviceId : Text
  keyEpochId : Text
  bootId : ℤ
  seq : ℤ
  event : Text
  deriving DecidableEq

structure FirmwareStore where
  registry : Dict Text FirmwareDevice := Dict.empty
  anchors : Dict Text FirmwareAnchor := Dict.empty
  transitions : List AnchorTransition := []
  outbox : Dict (Text × Text) FirmwareConfirmation := Dict.empty
  faults : List FirmwareFault := []

/-! ### Identifiers -/

/-- A hash and a base64 decoder. -/
structure FirmwareKeys where
  sha256 : Text → Text
  b64decode : Text → Option (List ℕ)

structure ManifestAnchor where
  deviceId : Text
  publicKeyB64 : Text
  posture : Text
  capabilityHash : Text
  manifestJson : Text
  channelMapJson : Text
  boardProfile : Text

namespace FirmwareKeys

variable (k : FirmwareKeys)

/-- `"sha256:"` and the hash of the canonical JSON; nothing where the encoder raises. -/
def epochId (v : Json) : Option Text :=
  match Json.canonicalJson v with
  | .ok bytes => some (text "sha256:" ++ k.sha256 bytes)
  | .error _ => none

def keyEpochId (deviceId publicKeyB64 : Text) : Option Text :=
  k.epochId (.obj [("device_id", .str deviceId), ("public_key_b64", .str publicKeyB64),
    ("v", .int 1)])

def anchorEpochId (deviceId publicKeyB64 posture capabilityHash : Text) : Option Text :=
  k.epochId (.obj [("capability_hash", .str capabilityHash), ("device_id", .str deviceId),
    ("posture", .str posture), ("public_key_b64", .str publicKeyB64), ("v", .int 1)])

/-- `_firmware_key_identity`: the key's bytes with the sign bit cleared. -/
def keyIdentity (publicKeyB64 : Text) : Option (List ℕ) :=
  match k.b64decode publicKeyB64 with
  | none => none
  | some raw => if raw.length = 32 then some (raw.take 31 ++ [raw.getD 31 0 % 128]) else none

end FirmwareKeys

namespace FirmwareStore

variable (k : FirmwareKeys) (st : FirmwareStore)

def anchorIn (deviceId : Text) (state : AnchorState) : Option (Text × FirmwareAnchor) :=
  st.anchors.items.find? (fun p => decide (p.2.deviceId = deviceId ∧ p.2.state = state))

def setState (epoch : Text) (state : AnchorState) (atMs : ℤ) : FirmwareStore :=
  match st.anchors.get? epoch with
  | none => st
  | some a =>
    { st with anchors := st.anchors.set epoch { a with state := state, stateChangedAtMs := atMs } }

def recordTransition (t : AnchorTransition) : FirmwareStore :=
  { st with transitions := t :: st.transitions }

def setDevice (deviceId : Text) (row : FirmwareDevice) : FirmwareStore :=
  { st with registry := st.registry.set deviceId row }

def pendingAnchor (m : ManifestAnchor) (keyEpoch : Text) (atMs : ℤ) : FirmwareAnchor where
  deviceId := m.deviceId
  keyEpochId := keyEpoch
  publicKeyB64 := m.publicKeyB64
  posture := m.posture
  capabilityHash := m.capabilityHash
  manifestJson := m.manifestJson
  channelMapJson := m.channelMapJson
  boardProfile := m.boardProfile
  state := .pending
  createdAtMs := atMs
  stateChangedAtMs := atMs

def recordAnchor (m : ManifestAnchor) (epoch keyEpoch : Text) (atMs : ℤ) : FirmwareStore :=
  { st with anchors := st.anchors.set epoch (pendingAnchor m keyEpoch atMs) }

/-- The latest promotion of a device. -/
def activationId : List AnchorTransition → Text → Option ℕ
  | [], _ => none
  | t :: ts, deviceId =>
    if t.deviceId = deviceId ∧ t.transition = .promoted then some (ts.length + 1)
    else activationId ts deviceId

/-! ### Registration -/

inductive UpsertOutcome where
  | registered
  | unchanged
  | pendingManifestEpoch
  | refusedRevoked
  | refusedKeyChange
  deriving DecidableEq

/-- A registry row before any promotion names no active anchor. -/
def registeredDevice (m : ManifestAnchor) (keyEpoch : Text) (atMs : ℤ) : FirmwareDevice where
  publicKeyB64 := m.publicKeyB64
  posture := m.posture
  capabilityHash := m.capabilityHash
  channelMapJson := m.channelMapJson
  anchorEpochId := []
  keyEpochId := keyEpoch
  manifestJson := m.manifestJson
  boardProfile := m.boardProfile
  provisionedAtMs := atMs

def nonempty (epoch : Text) : Option Text := if epoch = [] then none else some epoch

/-- The pending candidate, if another, discarded, with the transition where there is one to record. -/
def discardPending (deviceId : Text) (atMs : ℤ) (t : Text → Option AnchorTransition) :
    FirmwareStore :=
  match st.anchorIn deviceId .pending with
  | none => st
  | some (pending, _) =>
    match t pending with
    | none => st.setState pending .discarded atMs
    | some t => (st.setState pending .discarded atMs).recordTransition t

/-- A candidate beside the active anchor, or the identity's only one, which its row then describes. -/
def addCandidate (m : ManifestAnchor) (row : FirmwareDevice) (epoch keyEpoch : Text) (atMs : ℤ) :
    FirmwareStore :=
  let discarded := st.discardPending m.deviceId atMs (fun pending => some
    { deviceId := m.deviceId, transition := .discarded, fromEpochId := some pending
      toEpochId := some epoch, keyEpochId := keyEpoch, occurredAtMs := atMs })
  let recorded := (discarded.recordAnchor m epoch keyEpoch atMs).recordTransition
    { deviceId := m.deviceId, transition := .registered, fromEpochId := nonempty row.anchorEpochId
      toEpochId := some epoch, keyEpochId := keyEpoch, occurredAtMs := atMs }
  match recorded.anchorIn m.deviceId .active with
  | some _ => recorded
  | none =>
    recorded.setDevice m.deviceId
      { row with posture := m.posture, capabilityHash := m.capabilityHash
                 manifestJson := m.manifestJson, channelMapJson := m.channelMapJson
                 boardProfile := m.boardProfile, provisionedAtMs := atMs }

def upsertFirmwareDeviceAnchor (m : ManifestAnchor) (atMs : ℤ) :
    Option (UpsertOutcome × FirmwareStore) :=
  match k.keyEpochId m.deviceId m.publicKeyB64,
    k.anchorEpochId m.deviceId m.publicKeyB64 m.posture m.capabilityHash with
  | some keyEpoch, some epoch =>
    match st.registry.get? m.deviceId with
    | none =>
      some (.registered, ((st.setDevice m.deviceId (registeredDevice m keyEpoch atMs)).recordAnchor m
        epoch keyEpoch atMs).recordTransition
          { deviceId := m.deviceId, transition := .registered, fromEpochId := none
            toEpochId := some epoch, keyEpochId := keyEpoch, occurredAtMs := atMs })
    | some row =>
      if row.revoked then some (.refusedRevoked, st)
      else if row.publicKeyB64 ≠ m.publicKeyB64 then some (.refusedKeyChange, st)
      else if (st.anchors.get? epoch).any
          (fun a => decide (a.state = .active ∨ a.state = .pending)) then some (.unchanged, st)
      else if (st.anchorIn m.deviceId .pending).any (fun p => decide (p.1 = epoch)) then
        some (.unchanged, st)
      else some (.pendingManifestEpoch, st.addCandidate m row epoch keyEpoch atMs)
  | _, _ => none

/-! ### Trust transitions -/

/-- Who decided, why and when. -/
structure Attribution where
  actor : Text
  reason : Text
  occurredAtMs : ℤ

/-- `_require_attribution`. -/
def Attribution.given (who : Attribution) : Bool := !isBlank who.actor && !isBlank who.reason

/-- The obligation a promotion opens, again where the epoch was promoted before. -/
def reopenConfirmation (deviceId epoch : Text) (atMs : ℤ) : FirmwareStore :=
  match st.outbox.get? (deviceId, epoch) with
  | none => { st with outbox := st.outbox.set (deviceId, epoch) { createdAtMs := atMs } }
  | some c =>
    if c.status = .quarantined then st
    else { st with outbox := st.outbox.set (deviceId, epoch) { createdAtMs := atMs } }

/-- The registry row of a promoted anchor; a new key epoch starts a fresh replay window. -/
def promotedDevice (row : FirmwareDevice) (epoch : Text) (a : FirmwareAnchor) : FirmwareDevice :=
  let fresh := decide (a.keyEpochId ≠ row.keyEpochId)
  { row with
    approved := true
    publicKeyB64 := a.publicKeyB64, posture := a.posture, capabilityHash := a.capabilityHash
    manifestJson := a.manifestJson, channelMapJson := a.channelMapJson
    boardProfile := a.boardProfile, anchorEpochId := epoch, keyEpochId := a.keyEpochId
    lastBootId := if fresh then 0 else row.lastBootId
    lastSeq := if fresh then 0 else row.lastSeq
    lastUptimeMs := if fresh then none else row.lastUptimeMs
    lastUptimeMark := if fresh then none else row.lastUptimeMark }

/-- The active anchor, if any, superseded and the pending one active, in one transaction with the
row, the transition and the obligation. -/
def promote (deviceId : Text) (row : FirmwareDevice) (epoch : Text) (a : FirmwareAnchor)
    (who : Attribution) : FirmwareStore :=
  let previous := st.anchorIn deviceId .active
  let superseded := match previous with
    | none => st
    | some p => st.setState p.1 .superseded who.occurredAtMs
  (((superseded.setState epoch .active who.occurredAtMs).setDevice deviceId
    (promotedDevice row epoch a)).recordTransition
      { deviceId := deviceId, transition := .promoted, fromEpochId := previous.map (·.1)
        toEpochId := some epoch, keyEpochId := a.keyEpochId, actor := who.actor
        reason := who.reason, occurredAtMs := who.occurredAtMs }).reopenConfirmation deviceId epoch
          who.occurredAtMs

def approveFirmwareDevice (deviceId : Text) (who : Attribution) (expected : Option Text) :
    Option (Bool × FirmwareStore) :=
  if who.given = false then none
  else
    match st.registry.get? deviceId with
    | none => some (false, st)
    | some row =>
      if row.revoked then some (false, st)
      else
        match st.anchorIn deviceId .pending with
        | none => some (false, st)
        | some (epoch, a) =>
          if expected.any (fun e => decide (epoch ≠ e)) then some (false, st)
          else if (st.outbox.get? (deviceId, epoch)).any
              (fun c => decide (c.status = .quarantined)) then some (false, st)
          else some (true, st.promote deviceId row epoch a who)

def revokeFirmwareDevice (deviceId : Text) (who : Attribution) : Option (Bool × FirmwareStore) :=
  if who.given = false then none
  else
    match st.registry.get? deviceId with
    | none => some (false, st)
    | some row =>
      let revoked := st.setDevice deviceId
        { row with revoked := true, approved := false, revokedAtMs := some who.occurredAtMs }
      let active := revoked.anchorIn deviceId .active
      let retained := match active with
        | none => revoked
        | some p => revoked.setState p.1 .revoked who.occurredAtMs
      some (true, (retained.discardPending deviceId who.occurredAtMs (fun _ => none)).recordTransition
        { deviceId := deviceId, transition := .revoked, fromEpochId := active.map (·.1)
          toEpochId := none, keyEpochId := (active.map (·.2.keyEpochId)).getD []
          actor := who.actor, reason := who.reason, occurredAtMs := who.occurredAtMs })

def reinstateFirmwareDevice (deviceId : Text) (who : Attribution) : Option (Bool × FirmwareStore) :=
  if who.given = false then none
  else
    match st.registry.get? deviceId with
    | none => some (false, st)
    | some row =>
      if row.revoked = false then some (false, st)
      else
        let retained := st.anchorIn deviceId .revoked
        let cleared := st.setDevice deviceId
          { row with revoked := false, revokedAtMs := none, approved := false }
        let returned := match retained with
          | none => cleared
          | some p => cleared.setState p.1 .pending who.occurredAtMs
        some (true, returned.recordTransition
          { deviceId := deviceId, transition := .reinstated, fromEpochId := retained.map (·.1)
            toEpochId := retained.map (·.1), keyEpochId := (retained.map (·.2.keyEpochId)).getD []
            actor := who.actor, reason := who.reason, occurredAtMs := who.occurredAtMs })

inductive ReprovisionOutcome where
  | reprovisioned
  | unknownDevice
  | revoked
  | refusedSameKey
  | refusedKeyReuse
  deriving DecidableEq

/-- A key already held under an epoch or an encoding. -/
def sameKey (keyEpoch : Text) (identity : Option (List ℕ)) (heldEpoch heldKeyB64 : Text) : Bool :=
  decide (heldEpoch = keyEpoch ∨ k.keyIdentity heldKeyB64 = identity)

def reprovisionFirmwareDevice (m : ManifestAnchor) (who : Attribution) :
    Option (ReprovisionOutcome × FirmwareStore) :=
  if who.given = false then none
  else
    match st.registry.get? m.deviceId with
    | none => some (.unknownDevice, st)
    | some row =>
      if row.revoked then some (.revoked, st)
      else
        match k.keyEpochId m.deviceId m.publicKeyB64,
          k.anchorEpochId m.deviceId m.publicKeyB64 m.posture m.capabilityHash,
          k.keyIdentity m.publicKeyB64 with
        | some keyEpoch, some epoch, some identity =>
          if sameKey k keyEpoch (some identity) row.keyEpochId row.publicKeyB64 then
            some (.refusedSameKey, st)
          else if (st.anchors.values.filter (fun a => decide (a.deviceId = m.deviceId))).any
              (fun a => sameKey k keyEpoch (some identity) a.keyEpochId a.publicKeyB64) then
            some (.refusedKeyReuse, st)
          else if (st.anchors.get? epoch).isSome then none
          else some (.reprovisioned, ((st.discardPending m.deviceId who.occurredAtMs
            (fun _ => none)).recordAnchor m epoch keyEpoch who.occurredAtMs).recordTransition
              { deviceId := m.deviceId, transition := .reprovisioned
                fromEpochId := nonempty row.anchorEpochId, toEpochId := some epoch
                keyEpochId := keyEpoch, actor := who.actor, reason := who.reason
                occurredAtMs := who.occurredAtMs })
        | _, _, _ => none

/-! ### Freshness -/

/-- What `get_firmware_device` reads: an uptime stored with another mark is not comparable. -/
structure DeviceRead where
  device : FirmwareDevice
  lastUptimeMs : Option ℤ
  activationId : Option ℕ
  deriving DecidableEq

def uptimeMark (row : FirmwareDevice) : Text × ℤ × ℤ :=
  (row.keyEpochId, row.lastBootId, row.lastSeq)

def getFirmwareDevice (deviceId : Text) : Option DeviceRead :=
  (st.registry.get? deviceId).map (fun row =>
    { device := row
      lastUptimeMs := if row.lastUptimeMark = some (uptimeMark row) then row.lastUptimeMs else none
      activationId := activationId st.transitions deviceId })

inductive Advance where
  | advanced (st : FirmwareStore)
  | lost
  /-- A fault already stored under its key. -/
  | raised

/-- The guard of the advance's UPDATE. -/
def advances (row : FirmwareDevice) (bootId seq uptimeMs : ℤ) : Prop :=
  row.revoked = false ∧ row.approved = true ∧ row.lastBootId ≤ bootId ∧ row.lastSeq < seq ∧
    (row.lastBootId < bootId ∨ row.lastUptimeMs = none ∨
      row.lastUptimeMark ≠ some (uptimeMark row) ∨ ∃ u, row.lastUptimeMs = some u ∧ u ≤ uptimeMs)

instance (row : FirmwareDevice) (bootId seq uptimeMs : ℤ) :
    Decidable (advances row bootId seq uptimeMs) := by
  unfold advances
  have : Decidable (∃ u, row.lastUptimeMs = some u ∧ u ≤ uptimeMs) :=
    decidable_of_iff (row.lastUptimeMs.any (fun u => decide (u ≤ uptimeMs)) = true)
      (by simp [Option.any_eq_true])
  infer_instance

def advancedDevice (row : FirmwareDevice) (bootId seq uptimeMs : ℤ) : FirmwareDevice :=
  { row with lastBootId := bootId, lastSeq := seq, lastUptimeMs := some uptimeMs
             lastUptimeMark := some (row.keyEpochId, bootId, seq) }

/-- The mark moves only under the columns and the activation verified against, with the fault. -/
def advanceFirmwareFreshness (deviceId : Text) (bootId seq uptimeMs : ℤ) (anchor : AnchorColumns)
    (activation : Option ℕ) (fault : Option Text) : Advance :=
  match st.registry.get? deviceId with
  | none => .lost
  | some row =>
    if advances row bootId seq uptimeMs ∧ row.toAnchorColumns = anchor ∧
        activationId st.transitions deviceId = activation then
      let st' := st.setDevice deviceId (advancedDevice row bootId seq uptimeMs)
      match fault with
      | none => .advanced st'
      | some event =>
        if st.faults.any (fun f => decide (f.deviceId = deviceId ∧
            f.keyEpochId = anchor.keyEpochId ∧ f.bootId = bootId ∧ f.seq = seq)) then .raised
        else .advanced { st' with faults := st.faults ++ [{ deviceId := deviceId
                                                            keyEpochId := anchor.keyEpochId
                                                            bootId := bootId, seq := seq
                                                            event := event }] }
    else .lost

/-! ### Confirmation -/

def confirmationStatus (deviceId epoch : Text) : Option ConfirmationStatus :=
  (st.outbox.get? (deviceId, epoch)).map (·.status)

def updatePending (deviceId epoch : Text) (f : FirmwareConfirmation → FirmwareConfirmation) :
    FirmwareStore :=
  match st.outbox.get? (deviceId, epoch) with
  | none => st
  | some c =>
    if c.status = .confirmationPending then
      { st with outbox := st.outbox.set (deviceId, epoch) (f c) }
    else st

def recordFirmwareConfirmationAttempt (deviceId epoch : Text) (atMs : ℤ) : FirmwareStore :=
  st.updatePending deviceId epoch (fun c =>
    { c with attemptCount := c.attemptCount + 1, lastAttemptMs := some atMs })

def resolveFirmwareConfirmation (deviceId epoch : Text) (status : ConfirmationStatus) (atMs : ℤ) :
    FirmwareStore :=
  st.updatePending deviceId epoch (fun c =>
    { c with status := status, resolvedAtMs := some atMs, attemptCount := c.attemptCount + 1
             lastAttemptMs := some atMs })

/-- The attribution of the promotion that made the registry's anchor active. -/
def activePromotionAttribution (deviceId : Text) : Option (Text × Text) :=
  match st.registry.get? deviceId with
  | none => none
  | some row =>
    if row.approved ∧ row.revoked = false then
      (st.transitions.find? (fun t => decide (t.deviceId = deviceId ∧ t.transition = .promoted ∧
        t.toEpochId = some row.anchorEpochId))).map (fun t => (t.actor, t.reason))
    else none

/-! ### Sequences -/

inductive SeqError where
  | unknownDevice
  | exhausted
  | authorityChanged
  deriving DecidableEq

/-- `2 ** 53 - 1`. -/
def maxSeq : ℤ := 9007199254740991

/-- In service, and its epoch confirmed by the evidence store. -/
def authority (deviceId : Text) (row : FirmwareDevice) : Bool :=
  !row.revoked && row.approved &&
    decide (st.confirmationStatus deviceId row.anchorEpochId = some .confirmed)

/-- One allocation: the counter, its update, and the condition it lands under. -/
def allocate (deviceId : Text) (counter : FirmwareDevice → ℤ)
    (bump : FirmwareDevice → FirmwareDevice) (allowed : FirmwareDevice → Bool) :
    Except SeqError (ℤ × FirmwareStore) :=
  match st.registry.get? deviceId with
  | none => .error .unknownDevice
  | some row =>
    if counter row < maxSeq ∧ allowed row = true then
      .ok (counter (bump row), st.setDevice deviceId (bump row))
    else if maxSeq ≤ counter row then .error .exhausted
    else .error .authorityChanged

def allocateFirmwareRuntimeSeq (deviceId capabilityHash : Text) :
    Except SeqError (ℤ × FirmwareStore) :=
  st.allocate deviceId (·.lastRuntimeSeq)
    (fun row => { row with lastRuntimeSeq := row.lastRuntimeSeq + 1 })
    (fun row => decide (row.capabilityHash = capabilityHash) && st.authority deviceId row)

def allocateFirmwareCommandSeq (deviceId : Text) (anchor : AnchorColumns) :
    Except SeqError (ℤ × FirmwareStore) :=
  st.allocate deviceId (·.lastCmdSeq) (fun row => { row with lastCmdSeq := row.lastCmdSeq + 1 })
    (fun row => decide (row.toAnchorColumns = anchor) && st.authority deviceId row)

def allocateFirmwareProvisionSeq (deviceId expectedEpoch : Text) (allowRevoked : Bool) :
    Except SeqError (ℤ × FirmwareStore) :=
  st.allocate deviceId (·.lastProvisionSeq)
    (fun row => { row with lastProvisionSeq := row.lastProvisionSeq + 1 })
    (fun row => decide (row.anchorEpochId = expectedEpoch) &&
      (allowRevoked && row.revoked || st.authority deviceId row))

/-! ### Operations -/

/-- The lifecycle operations, with any arguments. -/
inductive AnchorOp where
  | upsert (m : ManifestAnchor) (atMs : ℤ)
  | approve (deviceId : Text) (who : Attribution) (expected : Option Text)
  | revoke (deviceId : Text) (who : Attribution)
  | reinstate (deviceId : Text) (who : Attribution)
  | reprovision (m : ManifestAnchor) (who : Attribution)

def AnchorOp.deviceId : AnchorOp → Text
  | .upsert m _ => m.deviceId
  | .approve d _ _ => d
  | .revoke d _ => d
  | .reinstate d _ => d
  | .reprovision m _ => m.deviceId

/-- The store an operation leaves; nothing where it raises. -/
def perform : AnchorOp → Option FirmwareStore
  | .upsert m atMs => (st.upsertFirmwareDeviceAnchor k m atMs).map (·.2)
  | .approve d who expected => (st.approveFirmwareDevice d who expected).map (·.2)
  | .revoke d who => (st.revokeFirmwareDevice d who).map (·.2)
  | .reinstate d who => (st.reinstateFirmwareDevice d who).map (·.2)
  | .reprovision m who => (st.reprovisionFirmwareDevice k m who).map (·.2)

end FirmwareStore

end OriRuntime
