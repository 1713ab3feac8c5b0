import OriRuntime.Ingest

/-!
# The tables of the delivery ledger

The other operations of `ori/security/evidence/ledger.py`, each one transaction on the tables:
checkpoints and registrations sealed for the courier, its answers, and what an authority sends back.
An operation that raises leaves the tables as they were. A member of a registration or of an
artifact is read only where it is text, which is all this device seals.
-/

namespace OriRuntime

/-! ### Rows -/

inductive ArtifactType where
  | checkpoint
  | anchorRegistration
  deriving DecidableEq

inductive RetireOutcome where
  | queued
  | refused
  deriving DecidableEq

structure OutboxRow where
  id : ℕ
  artifactType : ArtifactType
  artifactJson : Text
  artifactDigest : Text
  createdAtMs : ℤ
  attempts : ℕ := 0
  lastAttemptMs : Option ℤ := none
  retiredAtMs : Option ℤ := none
  retireOutcome : Option RetireOutcome := none
  withdrawnAtMs : Option ℤ := none
  deriving DecidableEq

inductive DispositionValue where
  | retainedPending
  | artifactTerminal
  | epochReprovisioningRequired
  | identityReplacementRequired
  deriving DecidableEq

inductive DispositionScope where
  | artifact
  | epoch
  | identity
  deriving DecidableEq

inductive ObligationState where
  | opened
  | confirmed
  | superseded
  | closed
  deriving DecidableEq

structure Obligation where
  id : ℕ
  deviceId : Text
  anchorEpochId : Text
  pubkeyHex : Text
  commissioningReference : Text
  artifactJson : Text
  artifactDigest : Text
  sealedAtMs : ℤ
  offers : ℕ := 0
  lastOfferMs : Option ℤ := none
  state : ObligationState := .opened
  closedAtMs : Option ℤ := none
  suspendedAtMs : Option ℤ := none
  closedReason : Option DispositionValue := none
  deriving DecidableEq

structure Confirmation where
  anchorEpochId : Text
  deviceId : Text
  pubkeyHex : Text
  actor : Text
  confirmedAtMs : ℤ
  keyId : Text
  appliedAtMs : ℤ
  deriving DecidableEq

structure DeviceEpoch where
  anchorEpochId : Text
  pubkeyHex : Text
  actor : Text
  confirmedAtMs : ℤ
  keyId : Text
  deriving DecidableEq

inductive StopScope where
  | epoch
  | identity
  deriving DecidableEq

structure OfferStop where
  scope : StopScope
  deviceId : Text
  anchorEpochId : Option Text
  disposition : DispositionValue
  artifactDigest : Text
  stoppedAtMs : ℤ
  deriving DecidableEq

inductive SealedKind where
  | outbox (artifactType : ArtifactType)
  | deliveryEnvelope
  deriving DecidableEq

structure DispositionRow where
  digest : Text
  triggeringDigest : Text
  artifactType : SealedKind
  deviceId : Text
  anchorEpochId : Text
  scope : DispositionScope
  disposition : DispositionValue
  decidedAtMs : ℤ
  keyId : Text
  observedAtMs : ℤ
  deriving DecidableEq

inductive FaultHolder where
  | outbox
  | obligation
  | envelope
  deriving DecidableEq

inductive FaultReason where
  | unreadable
  | digestMismatch
  deriving DecidableEq

structure ArtifactFault where
  holder : FaultHolder
  holderId : ℕ
  reason : FaultReason
  observedAtMs : ℤ
  deriving DecidableEq

structure Tables where
  rows : List LedgerRow := []
  outbox : List OutboxRow := []
  obligations : List Obligation := []
  confirmations : List Confirmation := []
  epochs : Dict Text DeviceEpoch := Dict.empty
  dispositions : List DispositionRow := []
  stops : List OfferStop := []
  faults : List ArtifactFault := []
  bootCounter : Option ℕ := none

structure VerifiedDisposition where
  digest : Text
  triggeringDigest : Text
  deviceId : Text
  anchorEpochId : Text
  scope : DispositionScope
  value : DispositionValue
  decidedAtMs : ℤ
  keyId : Text

inductive LedgerFault where
  | sealing (e : DeliveryLedgerError)
  | rejected (reason : RejectReason)
  | storeFault
  | canonicalisation (e : CanonicalisationError)
  | registration
  | constraint
  | notSealed
  | answer
  | reason

/-! ### Damage -/

namespace Tables

def lower (s : Text) : Text :=
  s.map (fun c => if 65 ≤ c.val ∧ c.val ≤ 90 then Fin.ofNat 0x110000 (c.val + 32) else c)

def inZone (time : Option ℤ) : Bool := time.all (fun at_ => decide (|at_| ≤ integerMax))

/-- A row's custody and receipt, each held to its companions. -/
def heldDelivery (d : Delivery) : Bool :=
  (match d.custodyState with
    | .held => d.custodyAtMs.isSome && inZone d.custodyAtMs &&
        d.custodyKeyId.any isWellFormedKeyId && inZone d.custodyRecordedAtMs
    | .none => d.custodyAtMs.isNone && d.custodyKeyId.isNone && d.custodyRecordedAtMs.isNone) &&
  match d.receiptState with
  | .accepted => d.receiptAtMs.isSome && inZone d.receiptAtMs && d.receiptKeyId.any isSha256
  | .none => d.receiptAtMs.isNone && d.receiptKeyId.isNone

/-- A row's envelope and chain row digests, each held to its bytes. -/
def sealedDigests (l : EvidenceDeliveryLedger) (r : SealedColumns) : Bool :=
  isSha256 r.envelopeDigest &&
    decide (text "sha256:" ++ l.keys.sha256 r.envelopeJson = r.envelopeDigest) &&
    match Json.loads Json.dictOf r.envelopeJson with
    | some (.dict items) =>
      let read := fun field => ((Json.dict items).get? field).getD .null
      (read "chain_row_digest").pyEq (.str r.chainRowDigest) &&
        (read "device_id").pyEq (.str r.deviceId) &&
        (read "anchor_epoch_id").pyEq (.str r.anchorEpochId) &&
        (read "local_seq").pyEq (.int r.localSeq)
    | _ => true

/-- An obligation held to the sealed bytes it carries. -/
def intactObligation (l : EvidenceDeliveryLedger) (o : Obligation) : Bool :=
  decide ((o.state = .opened) = (o.closedAtMs = none)) && inZone o.closedAtMs &&
    inZone o.suspendedAtMs && decide ((o.state = .closed) = (o.closedReason ≠ none)) &&
    decide (text "sha256:" ++ l.keys.sha256 o.artifactJson = o.artifactDigest) &&
    match Json.loads Json.dictOf o.artifactJson with
    | some (.dict items) =>
      let read := fun field => ((Json.dict items).get? field).getD .null
      (read "anchor_epoch_id").pyEq (.str o.anchorEpochId) &&
        (read "device_id").pyEq (.str o.deviceId) &&
        decide (lower ((Json.dict items).strMember "pubkey_hex") = o.pubkeyHex) &&
        (read "commissioning_digest").pyEq (.str o.commissioningReference) &&
        hexForm "" 64 o.pubkeyHex
    | _ => false

def stopDisposition : StopScope → DispositionValue
  | .epoch => .epochReprovisioningRequired
  | .identity => .identityReplacementRequired

def intactStop (s : OfferStop) : Bool :=
  decide ((s.scope = .epoch) = (s.anchorEpochId ≠ none)) &&
    decide (s.disposition = stopDisposition s.scope) && decide (s.anchorEpochId ≠ some [])

/-- `local_seq` runs from one with no gap. -/
def gapless (rows : List LedgerRow) : Bool :=
  decide (rows.length = (rows.map (·.localSeq)).foldl max 0 ∧ ∀ r ∈ rows, 1 ≤ r.localSeq)

/-! ### Reads -/

def highWaterSeq (t : Tables) : ℕ := (t.rows.map (·.localSeq)).foldl max 0

def findSeq (t : Tables) (localSeq : ℤ) : Option LedgerRow :=
  t.rows.find? (fun r => decide ((r.localSeq : ℤ) = localSeq))

def openRegistrationObligation (t : Tables) (anchorEpochId : Text) : Option Obligation :=
  t.obligations.find? (fun o => decide (o.anchorEpochId = anchorEpochId ∧ o.state = .opened))

def registrationSealed (t : Tables) (deviceId anchorEpochId pubkeyHex : Text) : Bool :=
  t.obligations.any (fun o => decide (o.anchorEpochId = anchorEpochId ∧ o.deviceId = deviceId ∧
    o.pubkeyHex = lower pubkeyHex))

def activeAnchorEpochId (t : Tables) (deviceId : Text) : Option Text :=
  (t.epochs.get? deviceId).map (·.anchorEpochId)

/-- A stop recorded for a device covers what that device seals under an epoch. -/
def covers (s : OfferStop) (deviceId anchorEpochId : Text) : Bool :=
  decide (s.deviceId = deviceId ∧ (s.scope = .identity ∨ s.anchorEpochId = some anchorEpochId))

def offersStopped (t : Tables) (deviceId anchorEpochId : Text) : Bool :=
  t.stops.any (fun s => covers s deviceId anchorEpochId)

def identityStopped (t : Tables) (deviceId : Text) : Bool :=
  t.stops.any (fun s => decide (s.deviceId = deviceId ∧ s.scope = .identity))

def wireMember (wire : Text) (name : String) : Option Text :=
  match (Json.loads Json.dictOf wire).bind (fun artifact => artifact.get? name) with
  | some (.str s) => some s
  | _ => none

/-- `sealed_artifact`: the kind, epoch and device of an artifact sealed for delivery here. -/
def sealedArtifact (l : EvidenceDeliveryLedger) (t : Tables) (digest : Text) :
    Except LedgerFault (Option (SealedKind × Text × Text)) :=
  match t.outbox.find? (fun b => decide (b.artifactDigest = digest)) with
  | some b =>
    match Json.loads Json.dictOf b.artifactJson with
    | some (.dict items) =>
      if (b.artifactType = .anchorRegistration) ≠
          (t.obligations.any (fun o => decide (o.artifactDigest = digest)) = true) then
        .error .storeFault
      else if (Json.dict items).strMember "anchor_epoch_id" = [] ∨
          (Json.dict items).strMember "device_id" = [] then .error .storeFault
      else .ok (some (.outbox b.artifactType, (Json.dict items).strMember "anchor_epoch_id",
        (Json.dict items).strMember "device_id"))
    | _ => .error .storeFault
  | none =>
    match t.rows.find? (fun r => decide (r.envelopeDigest = digest)) with
    | some r =>
      if sealedDigests l r.toSealedColumns = false ∨ r.anchorEpochId = [] ∨ r.deviceId = [] then
        .error .storeFault
      else .ok (some (.deliveryEnvelope, r.anchorEpochId, r.deviceId))
    | none => .ok none

end Tables

end OriRuntime
