import OriRuntime.CanonicalZone
import OriRuntime.LedgerTables

/-!
# Operations on the ledger's tables

A statement that updates a row passes the table's triggers and checks or fails the operation. An
operation gives the tables it leaves and its answer, or a fault. A process names itself by the
ledger it has open, whose epoch and device may be another's.
-/

namespace OriRuntime

namespace Tables

/-! ### Updates -/

/-- `evidence_ledger_custody_is_final`. -/
def custodyFinal (old new : Delivery) : Bool :=
  decide (old.custodyState = .held → new.custodyState = .held ∧ new.custodyAtMs = old.custodyAtMs ∧
    new.custodyKeyId = old.custodyKeyId ∧
    (old.custodyRecordedAtMs ≠ none → new.custodyRecordedAtMs = old.custodyRecordedAtMs))

/-- `evidence_ledger_receipt_is_final`. -/
def receiptFinal (old new : Delivery) : Bool :=
  decide (old.receiptState = .accepted → new.receiptState = .accepted ∧
    new.receiptAtMs = old.receiptAtMs ∧ new.receiptKeyId = old.receiptKeyId)

/-- The table's checks on one row. -/
def checked (d : Delivery) : Bool :=
  (match d.custodyState with
    | .none => d.custodyAtMs.isNone && d.custodyKeyId.isNone
    | .held => d.custodyAtMs.isSome && d.custodyKeyId.any (fun k => !k.isEmpty)) &&
  (match d.receiptState with
    | .none => d.receiptAtMs.isNone && d.receiptKeyId.isNone
    | .accepted => d.receiptAtMs.isSome && d.receiptKeyId.any (fun k => !k.isEmpty)) &&
  d.courierAnswer.all (fun a => decide (a ∈ ["queued", "queue_full", "refused"]))

/-- One `UPDATE` of the delivery columns of the row numbered `localSeq`. -/
def updateDelivery (t : Tables) (localSeq : ℕ) (f : Delivery → Delivery) :
    Except LedgerFault Tables :=
  if t.rows.all (fun r => decide (r.localSeq ≠ localSeq) || custodyFinal r.delivery (f r.delivery) &&
      receiptFinal r.delivery (f r.delivery) && checked (f r.delivery)) then
    .ok { t with rows := t.rows.map (fun r =>
      if r.localSeq = localSeq then { r with delivery := f r.delivery } else r) }
  else .error .constraint

/-! ### Custody and receipts -/

def applyVerifiedCustody (t : Tables) (v : VerifiedCustody) (recordedAtMs : ℤ) :
    Except LedgerFault Tables :=
  if v.keyId = [] then .error .reason
  else
    match t.findSeq v.localSeq with
    | none => .error .notSealed
    | some held =>
      if heldDelivery held.delivery = false then .error .storeFault
      else if held.delivery.custodyState = .held then
        if held.delivery.custodyAtMs ≠ some v.custodyAtMs then
          .error (.rejected .restatementConflict)
        else if held.delivery.custodyRecordedAtMs = none then
          t.updateDelivery held.localSeq (fun d =>
            if d.custodyRecordedAtMs = none then { d with custodyRecordedAtMs := some recordedAtMs }
            else d)
        else .ok t
      else t.updateDelivery held.localSeq (fun d =>
        { d with custodyState := .held, custodyAtMs := some v.custodyAtMs
                 custodyKeyId := some v.keyId, custodyRecordedAtMs := some recordedAtMs })

/-- The sequences not yet receipted, each given the receipt. -/
def applyReceipts (atMs : ℤ) (keyId : Text) : Tables → List ℕ → Except LedgerFault (Tables × List ℕ)
  | t, [] => .ok (t, [])
  | t, n :: ns =>
    match t.findSeq n with
    | none => .error .notSealed
    | some held =>
      if heldDelivery held.delivery = false then .error .storeFault
      else if held.delivery.receiptState = .accepted then applyReceipts atMs keyId t ns
      else
        match t.updateDelivery held.localSeq (fun d =>
            { d with receiptState := .accepted, receiptAtMs := some atMs
                     receiptKeyId := some keyId }) with
        | .error e => .error e
        | .ok t' => (applyReceipts atMs keyId t' ns).map (fun r => (r.1, n :: r.2))

def applyVerifiedReceipts (t : Tables) (v : VerifiedReceipt) :
    Except LedgerFault (Tables × List ℕ) :=
  if v.keyId = [] then .error .reason
  else applyReceipts v.acceptedAtMs v.keyId t (v.sequences.dedup.insertionSort (· ≤ ·))

def ofIngest : IngestError → LedgerFault
  | .rejected reason => .rejected reason
  | .storeFault => .storeFault
  | .ledger => .reason

/-- An integer of the artifact in the zone, read before any store lookup. -/
def intField (artifact : Json) (name : String) : Option ℤ :=
  match artifact.get? name with
  | some (.int n) => if |n| ≤ integerMax then some n else none
  | _ => none

def sealedEnvelopeDigest (l : EvidenceDeliveryLedger) (t : Tables) (localSeq : ℤ) :
    Except LedgerFault (Option Text) :=
  match t.findSeq localSeq with
  | none => if gapless t.rows then .ok none else .error .storeFault
  | some r => if sealedDigests l r.toSealedColumns then .ok (some r.envelopeDigest)
      else .error .storeFault

def chainRowDigests (l : EvidenceDeliveryLedger) (t : Tables) (fromSeq toSeq : ℤ) :
    Except LedgerFault (List (ℕ × Text)) :=
  let held := t.rows.filter (fun r => decide (fromSeq ≤ r.localSeq ∧ r.localSeq ≤ toSeq))
  if gapless t.rows = false then .error .storeFault
  else if held.any (fun r => isSha256 r.chainRowDigest && !sealedDigests l r.toSealedColumns) then
    .error .storeFault
  else .ok (held.map (fun r => (r.localSeq, r.chainRowDigest)))

variable (k : IngestKeys) (l : EvidenceDeliveryLedger)

/-- What an acknowledgement proves here. -/
def provenCustody (t : Tables) (artifact : Json) : Except LedgerFault VerifiedCustody :=
  match intField artifact "local_seq" with
  | none => .error (.rejected .malformed)
  | some localSeq =>
    match sealedEnvelopeDigest l t localSeq with
    | .error e => .error e
    | .ok none => .error (.rejected .unknownSequence)
    | .ok (some digest) =>
      match k.custody with
      | none => .error (.rejected .unknownKey)
      | some generations =>
        match k.verifyCustody generations artifact l.deviceId digest localSeq with
        | .error e => .error (ofIngest e)
        | .ok v => .ok v

def acceptCustody (t : Tables) (artifact : Json) (recordedAtMs : ℤ) : Except LedgerFault Tables :=
  match provenCustody k l t artifact with
  | .error e => .error e
  | .ok v => t.applyVerifiedCustody v recordedAtMs

def provenReceipt (t : Tables) (artifact : Json) : Except LedgerFault VerifiedReceipt :=
  let digests := match intField artifact "from_seq", intField artifact "to_seq" with
    | some fromSeq, some toSeq =>
      if fromSeq ≤ toSeq then chainRowDigests l t fromSeq toSeq else .ok []
    | _, _ => .ok []
  match digests with
  | .error e => .error e
  | .ok digests =>
    match k.verifyReceipt artifact l.deviceId digests with
    | .error e => .error (ofIngest e)
    | .ok v => .ok v

def acceptReceipt (t : Tables) (artifact : Json) : Except LedgerFault (Tables × List ℕ) :=
  match provenReceipt k l t artifact with
  | .error e => .error e
  | .ok v => t.applyVerifiedReceipts v

/-! ### Epoch confirmations -/

def applyVerifiedEpochConfirmation (t : Tables) (v : VerifiedEpochConfirmation)
    (closedAtMs : ℤ) : Except LedgerFault Tables :=
  let pubkey := lower v.pubkeyHex
  if t.obligations.all (intactObligation l) = false then .error .storeFault
  else if v.deviceId ≠ l.deviceId ∨ t.registrationSealed l.deviceId v.anchorEpochId pubkey = false
  then .error (.rejected .bindingMismatch)
  else
    match t.confirmations.find? (fun c => decide (c.anchorEpochId = v.anchorEpochId)) with
    | some held =>
      if held.deviceId ≠ l.deviceId ∨ held.pubkeyHex ≠ pubkey then .error .storeFault
      else if ¬ (|held.appliedAtMs| ≤ integerMax ∧ |held.confirmedAtMs| ≤ integerMax ∧
          isSha256 held.keyId = true) then .error .storeFault
      else if (held.confirmedAtMs, held.actor, held.keyId) ≠ (v.confirmedAtMs, v.actor, v.keyId)
      then .error (.rejected .restatementConflict)
      else .ok t
    | none =>
      if t.obligations.any (fun o => decide (o.anchorEpochId = v.anchorEpochId ∧
          o.pubkeyHex = pubkey ∧ o.state = .confirmed)) then .error .storeFault
      else .ok { t with
        confirmations := t.confirmations ++
          [{ anchorEpochId := v.anchorEpochId, deviceId := l.deviceId, pubkeyHex := pubkey
             actor := v.actor, confirmedAtMs := v.confirmedAtMs, keyId := v.keyId
             appliedAtMs := closedAtMs }]
        epochs :=
          if v.anchorEpochId = l.anchorEpochId then
            t.epochs.set v.deviceId
              { anchorEpochId := v.anchorEpochId, pubkeyHex := pubkey, actor := v.actor
                confirmedAtMs := v.confirmedAtMs, keyId := v.keyId }
          else t.epochs
        obligations := t.obligations.map (fun o =>
          if o.anchorEpochId = v.anchorEpochId ∧ o.pubkeyHex = pubkey ∧ o.state = .opened then
            { o with state := .confirmed, closedAtMs := some closedAtMs }
          else o) }

def acceptEpochConfirmation (t : Tables) (artifact : Json) (closedAtMs : ℤ) :
    Except LedgerFault Tables :=
  match k.verifyEpochConfirmation artifact l.deviceId with
  | .error e => .error (ofIngest e)
  | .ok v => t.applyVerifiedEpochConfirmation l v closedAtMs

/-! ### Sealing -/

def nextId (ids : List ℕ) : ℕ := ids.foldl max 0 + 1

/-- `INSERT OR IGNORE` of a copy under its digest. -/
def insertArtifact (t : Tables) (artifactType : ArtifactType) (wire digest : Text)
    (createdAtMs : ℤ) : Tables :=
  if t.outbox.any (fun b => decide (b.artifactDigest = digest)) then t
  else { t with outbox := t.outbox ++
    [{ id := nextId (t.outbox.map (·.id)), artifactType := artifactType, artifactJson := wire
       artifactDigest := digest, createdAtMs := createdAtMs }] }

/-- Withdraws a copy neither retired nor withdrawn. -/
def withdraw (t : Tables) (digest : Text) (atMs : ℤ) : Tables :=
  { t with outbox := t.outbox.map (fun b =>
      if b.artifactDigest = digest ∧ b.retiredAtMs = none ∧ b.withdrawnAtMs = none then
        { b with withdrawnAtMs := some atMs }
      else b) }

/-- `seal`, with no other writer between its look up and its transaction. -/
def sealChainRow (t : Tables) (row : CarriedRow) (sealedAtMs : ℤ) : Except LedgerFault Tables :=
  match l.checkRow row with
  | .error e => .error (.sealing e)
  | .ok () =>
    match EvidenceDeliveryLedger.find t.rows row.eventId with
    | some existing =>
      match EvidenceDeliveryLedger.reconcileReseal existing row with
      | .error e => .error (.sealing e)
      | .ok _ => .ok t
    | none =>
      match l.sealInTransaction t.rows row sealedAtMs with
      | .error e => .error (.sealing e)
      | .ok (rows, _) => .ok { t with rows := rows }

/-- `seal_registration`: the obligation and the courier's copy together, in the place of an open
obligation under another reference. -/
def sealRegistration (t : Tables) (registration : Json) (sealedAtMs : ℤ) :
    Except LedgerFault Tables :=
  if ((registration.get? "device_id").getD .null).pyEq (.str l.deviceId) = false then
    .error .registration
  else
    match Json.canonicalJson registration with
    | .error e => .error (.canonicalisation e)
    | .ok wire =>
      let digest := text "sha256:" ++ l.keys.sha256 wire
      match registration.get? "anchor_epoch_id", registration.get? "commissioning_digest",
          registration.get? "pubkey_hex" with
      | some (.str epoch), some (.str reference), some (.str pubkey) =>
        let current := t.openRegistrationObligation epoch
        if current.map (·.commissioningReference) = some reference then .ok t
        else if ¬ (isSha256 epoch = true ∧ isSha256 reference = true) ∨
            t.obligations.any (fun o => decide (o.artifactDigest = digest)) = true then
          .error .constraint
        else
          let superseded : Tables := match current with
            | none => t
            | some o => withdraw { t with obligations := t.obligations.map (fun p =>
              if p.id = o.id then
                { p with state := .superseded, closedAtMs := some sealedAtMs }
              else p) } o.artifactDigest sealedAtMs
          .ok (insertArtifact { superseded with obligations := superseded.obligations ++
            [{ id := nextId (superseded.obligations.map (·.id)), deviceId := l.deviceId
               anchorEpochId := epoch, pubkeyHex := lower pubkey
               commissioningReference := reference, artifactJson := wire, artifactDigest := digest
               sealedAtMs := sealedAtMs }] } .anchorRegistration wire digest sealedAtMs)
      | _, _, _ => .error .registration

def allocateBootId (t : Tables) : Tables × ℕ :=
  let bootId := match t.bootCounter with
    | none => 1
    | some n => n + 1
  ({ t with bootCounter := some bootId }, bootId)

def checkpointBody (t : Tables) (bootId : ℕ) (issuedAtMs : ℤ) : List (String × Json) :=
  [("v", .int 1), ("device_id", .str l.deviceId), ("high_water_seq", .int t.highWaterSeq),
   ("anchor_epoch_id", .str l.anchorEpochId), ("boot_id", .int bootId), ("key_id", .str l.keyId),
   ("issued_at_ms", .int issuedAtMs)]

/-- The checkpoint signed and retained for the courier. -/
def issueCheckpoint (t : Tables) (bootId : ℕ) (issuedAtMs : ℤ) : Except LedgerFault Tables :=
  let body := checkpointBody l t bootId issuedAtMs
  match Json.canonicalJson (Json.obj body) with
  | .error e => .error (.canonicalisation e)
  | .ok signed =>
    match Json.canonicalJson (Json.obj (body ++ [("signature",
        .str (l.keys.sign (text "ori.evidence_checkpoint.v1" ++ [0] ++ signed)))])) with
    | .error e => .error (.canonicalisation e)
    | .ok wire => .ok (t.insertArtifact .checkpoint wire (text "sha256:" ++ l.keys.sha256 wire)
        issuedAtMs)

/-! ### Dispositions -/

/-- The obligation a disposition of one registration acts on. -/
def dispositionTarget (t : Tables) (d : VerifiedDisposition) (kind : SealedKind) :
    Except LedgerFault (Option Obligation) :=
  if kind = .outbox .anchorRegistration ∧
      (d.value = .retainedPending ∨ d.value = .artifactTerminal) then
    match t.obligations.find? (fun o => decide (o.artifactDigest = d.triggeringDigest)) with
    | none => .error (.rejected .superseded)
    | some o => if o.state = .opened then .ok (some o) else .error (.rejected .superseded)
  else .ok none

def dispose (t : Tables) (d : VerifiedDisposition) (target : Option Obligation) (epoch : Text)
    (atMs : ℤ) : Tables :=
  match d.value, target with
  | .retainedPending, some o =>
    { t with obligations := t.obligations.map (fun p =>
        if p.id = o.id ∧ o.suspendedAtMs = none then { p with suspendedAtMs := some atMs } else p) }
  | .artifactTerminal, some o =>
    withdraw { t with obligations := t.obligations.map (fun p =>
        if p.id = o.id then
          { p with state := .closed, closedAtMs := some atMs, closedReason := some d.value }
        else p) } d.triggeringDigest atMs
  | .epochReprovisioningRequired, _ =>
    { t with stops := t.stops ++ [{ scope := .epoch, deviceId := l.deviceId
                                    anchorEpochId := some epoch, disposition := d.value
                                    artifactDigest := d.triggeringDigest, stoppedAtMs := atMs }] }
  | .identityReplacementRequired, _ =>
    { t with stops := t.stops ++ [{ scope := .identity, deviceId := l.deviceId
                                    anchorEpochId := none, disposition := d.value
                                    artifactDigest := d.triggeringDigest, stoppedAtMs := atMs }] }
  | _, none => t

/-- `_apply_verified_disposition`: whether it was applied, or is a repetition. -/
def applyVerifiedDisposition (t : Tables) (d : VerifiedDisposition) (atMs : ℤ) :
    Except LedgerFault (Tables × Bool) :=
  if t.dispositions.any (fun r => decide (r.digest = d.digest)) then .ok (t, false)
  else if d.deviceId ≠ l.deviceId then .error (.rejected .bindingMismatch)
  else if t.obligations.all (intactObligation l) = false then .error .storeFault
  else if t.stops.all intactStop = false then .error .storeFault
  else
    match sealedArtifact l t d.triggeringDigest with
    | .error e => .error e
    | .ok none => .error (.rejected .bindingMismatch)
    | .ok (some (kind, epoch, device)) =>
      if device ≠ l.deviceId then .error (.rejected .bindingMismatch)
      else if d.anchorEpochId ≠ [] ∧ d.anchorEpochId ≠ epoch then
        .error (.rejected .bindingMismatch)
      else if d.value = .retainedPending ∧ kind ≠ .outbox .anchorRegistration then
        .error (.rejected .bindingMismatch)
      else
        match dispositionTarget t d kind with
        | .error e => .error e
        | .ok target =>
          if d.value = .epochReprovisioningRequired ∧ t.offersStopped l.deviceId epoch = true then
            .error (.rejected .superseded)
          else if d.value = .identityReplacementRequired ∧ t.identityStopped l.deviceId = true then
            .error (.rejected .superseded)
          else
            let t' := t.dispose l d target epoch atMs
            .ok ({ t' with dispositions := t'.dispositions ++
              [{ digest := d.digest, triggeringDigest := d.triggeringDigest, artifactType := kind
                 deviceId := l.deviceId, anchorEpochId := epoch, scope := d.scope
                 disposition := d.value, decidedAtMs := d.decidedAtMs, keyId := d.keyId
                 observedAtMs := atMs }] }, true)

/-! ### The courier -/

def failureReasons : List String :=
  ["unreachable", "timeout", "refused", "queue_full", "auth_failed", "malformed_response",
   "internal_error"]

def courierAnswers : List String := ["queued", "queue_full", "refused"]

def recordAttempt (t : Tables) (localSeq : ℕ) (atMs : ℤ) (failure : Option String) :
    Except LedgerFault Tables :=
  match t.findSeq localSeq with
  | none => .error .notSealed
  | some _ =>
    if failure.any (fun f => decide (f ∉ failureReasons ∨ f ∈ courierAnswers)) then .error .reason
    else t.updateDelivery localSeq (fun d =>
    { d with attempts := d.attempts + 1, lastAttemptMs := some atMs, lastFailure := failure })

def recordTransportFailure (t : Tables) (localSeq : ℕ) (failure : String) :
    Except LedgerFault Tables :=
  match t.findSeq localSeq with
  | none => .error .notSealed
  | some _ =>
    if failure ∉ failureReasons ∨ failure ∈ courierAnswers then .error .reason
    else t.updateDelivery localSeq (fun d => { d with lastFailure := some failure })

/-- `apply_courier_answer`: an answer no later than the one standing changes nothing. -/
def applyCourierAnswer (t : Tables) (localSeq : ℕ) (answer : String) (atMs answeredAtMs : ℤ) :
    Except LedgerFault Tables :=
  if answer ∉ courierAnswers then .error .answer
  else
    match t.findSeq localSeq with
    | none => .error .notSealed
    | some held =>
      if held.delivery.courierAnswer.any (fun a => decide (a ∉ courierAnswers)) then .error .answer
      else if held.delivery.courierAnswerAtMs.any (fun stored => decide (answeredAtMs ≤ stored)) then
        .ok t
      else if answer = "queued" then
        t.updateDelivery localSeq (fun d =>
          { d with courierAnswer := some answer, courierAnswerAtMs := some answeredAtMs })
      else t.updateDelivery localSeq (fun d =>
        { d with courierAnswer := some answer, courierAnswerAtMs := some answeredAtMs
                 attempts := d.attempts + 1, lastAttemptMs := some atMs })

def retireArtifact (t : Tables) (digest : Text) (outcome : RetireOutcome) (atMs : ℤ) : Tables :=
  { t with outbox := t.outbox.map (fun b =>
      if b.artifactDigest = digest ∧ b.retiredAtMs = none then
        { b with retiredAtMs := some atMs, retireOutcome := some outcome }
      else b) }

def noteArtifactAttempt (t : Tables) (digest : Text) (atMs : ℤ) : Tables :=
  { t with outbox := t.outbox.map (fun b =>
      if b.artifactDigest = digest then
        { b with attempts := b.attempts + 1, lastAttemptMs := some atMs }
      else b) }

def noteRegistrationOffer (t : Tables) (digest : Text) (atMs : ℤ) : Tables :=
  { t with obligations := t.obligations.map (fun o =>
      if o.artifactDigest = digest ∧ o.state = .opened then
        { o with offers := o.offers + 1, lastOfferMs := some atMs }
      else o) }

def recordArtifactFault (t : Tables) (holder : FaultHolder) (holderId : ℕ) (reason : FaultReason)
    (atMs : ℤ) : Tables :=
  if t.faults.any (fun f => decide (f.holder = holder ∧ f.holderId = holderId)) then t
  else { t with faults := t.faults ++
    [{ holder := holder, holderId := holderId, reason := reason, observedAtMs := atMs }] }

end Tables

/-! ### Runs -/

/-- What a process asks of the ledger it has open. -/
inductive LedgerOp where
  | sealChainRow (row : CarriedRow) (sealedAtMs : ℤ)
  | sealRegistration (registration : Json.Value) (sealedAtMs : ℤ)
  | issueCheckpoint (issuedAtMs : ℤ)
  | custody (artifact : Json) (recordedAtMs : ℤ)
  | receipt (artifact : Json)
  | confirmation (artifact : Json) (closedAtMs : ℤ)
  | disposition (d : VerifiedDisposition) (atMs : ℤ)
  | recordAttempt (localSeq : ℕ) (atMs : ℤ) (failure : Option String)
  | recordTransportFailure (localSeq : ℕ) (failure : String)
  | courierAnswer (localSeq : ℕ) (answer : String) (atMs answeredAtMs : ℤ)
  | retireArtifact (digest : Text) (outcome : RetireOutcome) (atMs : ℤ)
  | noteArtifactAttempt (digest : Text) (atMs : ℤ)
  | noteRegistrationOffer (digest : Text) (atMs : ℤ)
  | recordArtifactFault (holder : FaultHolder) (holderId : ℕ) (reason : FaultReason) (atMs : ℤ)
  | restart

/-- The tables, and the boot each running process has claimed. -/
structure LedgerState where
  tables : Tables := {}
  boots : Dict ℕ ℕ := Dict.empty

/-- Everything outside the tables: the ledgers processes open, and the keys they verify with. -/
structure LedgerSetting where
  ledgers : EvidenceDeliveryLedger.Ledgers
  keys : IngestKeys

namespace LedgerState

variable (e : LedgerSetting)

/-- The boot a process signs checkpoints under, claimed on first use. -/
def bootId (s : LedgerState) (w : ℕ) : LedgerState × ℕ :=
  match s.boots.get? w with
  | some bootId => (s, bootId)
  | none =>
    let allocated := s.tables.allocateBootId
    ({ tables := allocated.1, boots := s.boots.set w allocated.2 }, allocated.2)

/-- The tables an operation leaves, when it does not raise. -/
def perform (w : ℕ) (t : Tables) : LedgerOp → Except LedgerFault Tables
  | .sealChainRow row sealedAtMs => t.sealChainRow (e.ledgers.ledger w) row sealedAtMs
  | .sealRegistration registration sealedAtMs =>
    t.sealRegistration (e.ledgers.ledger w) registration.json sealedAtMs
  | .issueCheckpoint _ => .ok t
  | .custody artifact recordedAtMs =>
    t.acceptCustody e.keys (e.ledgers.ledger w) artifact recordedAtMs
  | .receipt artifact => (t.acceptReceipt e.keys (e.ledgers.ledger w) artifact).map (·.1)
  | .confirmation artifact closedAtMs =>
    t.acceptEpochConfirmation e.keys (e.ledgers.ledger w) artifact closedAtMs
  | .disposition d atMs => (t.applyVerifiedDisposition (e.ledgers.ledger w) d atMs).map (·.1)
  | .recordAttempt localSeq atMs failure => t.recordAttempt localSeq atMs failure
  | .recordTransportFailure localSeq failure => t.recordTransportFailure localSeq failure
  | .courierAnswer localSeq answer atMs answeredAtMs =>
    t.applyCourierAnswer localSeq answer atMs answeredAtMs
  | .retireArtifact digest outcome atMs => .ok (t.retireArtifact digest outcome atMs)
  | .noteArtifactAttempt digest atMs => .ok (t.noteArtifactAttempt digest atMs)
  | .noteRegistrationOffer digest atMs => .ok (t.noteRegistrationOffer digest atMs)
  | .recordArtifactFault holder holderId reason atMs =>
    .ok (t.recordArtifactFault holder holderId reason atMs)
  | .restart => .ok t

/-- One operation of process `w`: the state it leaves, and the fault it raised. -/
def apply (s : LedgerState) (w : ℕ) : LedgerOp → LedgerState × Option LedgerFault
  | .issueCheckpoint issuedAtMs =>
    let (s', bootId) := s.bootId w
    match s'.tables.issueCheckpoint (e.ledgers.ledger w) bootId issuedAtMs with
    | .error fault => (s', some fault)
    | .ok t => ({ s' with tables := t }, none)
  | .restart => ({ s with boots := s.boots.pop w }, none)
  | op =>
    match perform e w s.tables op with
    | .error fault => (s, some fault)
    | .ok t => ({ s with tables := t }, none)

def step (s : LedgerState) (a : ℕ × LedgerOp) : Option LedgerState := some (apply e s a.1 a.2).1

end LedgerState

end OriRuntime
