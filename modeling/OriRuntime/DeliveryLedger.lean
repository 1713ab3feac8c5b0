import OriRuntime.EvidenceChain

/-!
# The delivery ledger

`EvidenceDeliveryLedger.seal` of `ori/security/evidence/ledger.py`: a chain row is checked, then
wrapped in a signed envelope under the next number of the ledger. Writers share one table. A seal
looks its event up, then takes the write lock, writes a working copy and commits it; other writers
run between these, and an exception or a crash at any of them drops the working copy.
-/

namespace OriRuntime

def envelopeVersion : ℤ := 1

def envelopeDomain : Text := text "ori.evidence_delivery_envelope.v1" ++ [0]

/-- The immutable columns of a chain row. -/
structure CarriedRow where
  seq : ℤ
  eventId : Text
  eventType : Text
  deviceId : Text
  emittedAtMs : ℤ
  payloadJson : Text
  canonicalJson : Text
  eventHash : Text
  prevEventHash : Text
  signature : Text
  createdAtMs : ℤ
  deriving DecidableEq

namespace CarriedRow

/-- The columns that travel, by name. -/
def columns (row : CarriedRow) : List (String × Json) :=
  [("seq", .int row.seq), ("event_id", .str row.eventId), ("event_type", .str row.eventType),
   ("device_id", .str row.deviceId), ("emitted_at_ms", .int row.emittedAtMs),
   ("payload_json", .str row.payloadJson), ("canonical_json", .str row.canonicalJson),
   ("event_hash", .str row.eventHash), ("prev_event_hash", .str row.prevEventHash),
   ("signature", .str row.signature), ("created_at_ms", .int row.createdAtMs)]

/-- The columns the signed bytes name, under the field each is named by. -/
def signedColumns (row : CarriedRow) : List (String × String × Json) :=
  [("sequence_num", "seq", .int row.seq), ("prev_event_hash", "prev_event_hash",
      .str row.prevEventHash), ("event_id", "event_id", .str row.eventId),
   ("event_type", "event_type", .str row.eventType), ("device_id", "device_id", .str row.deviceId),
   ("emitted_at_ms", "emitted_at_ms", .int row.emittedAtMs)]

/-- The chain row as the envelope carries it. -/
def members (row : CarriedRow) : List (String × Json) :=
  [("canonical_json", .str row.canonicalJson), ("created_at_ms", .int row.createdAtMs),
   ("device_id", .str row.deviceId), ("emitted_at_ms", .int row.emittedAtMs),
   ("event_hash", .str row.eventHash), ("event_id", .str row.eventId),
   ("event_type", .str row.eventType), ("payload_json", .str row.payloadJson),
   ("prev_event_hash", .str row.prevEventHash), ("seq", .int row.seq),
   ("signature", .str row.signature)]

def toJson (row : CarriedRow) : Json := Json.obj row.members

end CarriedRow

inductive CustodyState where
  | none
  | held
  deriving DecidableEq

inductive ReceiptState where
  | none
  | accepted
  deriving DecidableEq

/-- The columns of a ledger row that no update may change. -/
structure SealedColumns where
  localSeq : ℕ
  eventId : Text
  chainSeq : ℤ
  deviceId : Text
  anchorEpochId : Text
  keyId : Text
  envelopeJson : Text
  envelopeDigest : Text
  chainRowDigest : Text
  sealedAtMs : ℤ
  deriving DecidableEq

/-- What became of an envelope. -/
structure Delivery where
  custodyState : CustodyState := .none
  custodyAtMs : Option ℤ := none
  custodyKeyId : Option Text := none
  custodyRecordedAtMs : Option ℤ := none
  receiptState : ReceiptState := .none
  receiptAtMs : Option ℤ := none
  receiptKeyId : Option Text := none
  attempts : ℕ := 0
  lastAttemptMs : Option ℤ := none
  lastFailure : Option String := none
  courierAnswer : Option String := none
  courierAnswerAtMs : Option ℤ := none
  deriving DecidableEq

structure LedgerRow extends SealedColumns where
  delivery : Delivery := {}
  deriving DecidableEq

/-- Why a chain row does not verify. -/
inductive RowFault where
  | encoding
  | notJson
  | fields
  | schemaVersion
  | notCanonicalisable
  | notCanonical
  | column (name : String)
  | payloadNotJson
  | payload
  | eventHash
  | signature
  deriving DecidableEq

inductive DeliveryLedgerError where
  | noEventId
  | otherDevice
  | unverified (fault : RowFault)
  | unreadable
  | otherRow (columns : List String)
  | canonicalisation (e : CanonicalisationError)
  | constraint
  | begin
  | store
  | readBack

/-- A ledger bound to one device's key, and to the epoch and key its envelopes name. -/
structure EvidenceDeliveryLedger where
  keys : EvidenceKeys
  deviceId : Text
  anchorEpochId : Text
  keyId : Text
  named : deviceId ≠ [] ∧ anchorEpochId ≠ [] ∧ keyId ≠ []

namespace EvidenceDeliveryLedger

variable (l : EvidenceDeliveryLedger)

/-! ### The chain row -/

/-- Refuses a row that is not this device's signed, canonical bytes and what they say. -/
def verifyChainRow (row : CarriedRow) : Except RowFault Unit :=
  if row.canonicalJson.any isSurrogate then .error .encoding
  else
    match Json.loads Json.dictOf row.canonicalJson with
    | none => .error .notJson
    | some (.dict items) =>
      let named := envelopeFields.map (fun field => some (text field))
      let read := fun field => ((Json.dict items).get? field).getD .null
      if ¬ ((∀ key ∈ items.map (·.1), key ∈ named) ∧ ∀ key ∈ named, key ∈ items.map (·.1)) then
        .error .fields
      else if (read "schema_version").pyEq (.str (text schemaVersion)) = false then
        .error .schemaVersion
      else
        match Json.canonicalJson (.dict items) with
        | .error _ => .error .notCanonicalisable
        | .ok recanonicalised =>
          if recanonicalised ≠ row.canonicalJson then .error .notCanonical
          else
            match row.signedColumns.find? (fun column => !(read column.1).pyEq column.2.2) with
            | some column => .error (.column column.2.1)
            | none =>
              match Json.loads Json.dictOf row.payloadJson with
              | none => .error .payloadNotJson
              | some stored =>
                if stored.pyEq (read "payload") = false then .error .payload
                else if l.keys.sha256 row.canonicalJson ≠ row.eventHash then .error .eventHash
                else if l.keys.verify row.signature row.canonicalJson = false then
                  .error .signature
                else .ok ()
    | some _ => .error .fields

/-- What is refused before the ledger is read. -/
def checkRow (row : CarriedRow) : Except DeliveryLedgerError Unit :=
  if row.eventId = [] then .error .noEventId
  else if row.deviceId ≠ l.deviceId then .error .otherDevice
  else
    match l.verifyChainRow row with
    | .error fault => .error (.unverified fault)
    | .ok () => .ok ()

/-! ### The envelope -/

def chainRowDigest (row : CarriedRow) : Text :=
  text "sha256:" ++ l.keys.sha256 row.canonicalJson

def envelopeBody (row : CarriedRow) (localSeq : ℕ) (sealedAtMs : ℤ) : List (String × Json) :=
  [("v", .int envelopeVersion), ("device_id", .str l.deviceId),
   ("anchor_epoch_id", .str l.anchorEpochId), ("key_id", .str l.keyId),
   ("local_seq", .int localSeq), ("chain_row", row.toJson),
   ("chain_row_digest", .str (l.chainRowDigest row)), ("sealed_at_ms", .int sealedAtMs)]

/-- The envelope, signed over its domain and its own canonical bytes. -/
def buildEnvelope (row : CarriedRow) (localSeq : ℕ) (sealedAtMs : ℤ) :
    Except CanonicalisationError Json :=
  match Json.canonicalJson (Json.obj (l.envelopeBody row localSeq sealedAtMs)) with
  | .error e => .error e
  | .ok signed => .ok (Json.obj (l.envelopeBody row localSeq sealedAtMs ++
      [("signature", .str (l.keys.sign (envelopeDomain ++ signed)))]))

/-! ### The table -/

def find (rows : List LedgerRow) (eventId : Text) : Option LedgerRow :=
  rows.find? (fun row => decide (row.eventId = eventId))

/-- The successor of the highest number ever allocated. -/
def nextLocalSeq (rows : List LedgerRow) : ℕ :=
  (rows.map (·.localSeq)).foldl max 0 + 1

/-- The primary key and the unique event id. -/
def insert (rows : List LedgerRow) (row : LedgerRow) :
    Except DeliveryLedgerError (List LedgerRow) :=
  if rows.any (fun r => decide (r.localSeq = row.localSeq ∨ r.eventId = row.eventId)) then
    .error .constraint
  else .ok (rows ++ [row])

def sealedRow (row : CarriedRow) (localSeq : ℕ) (sealedAtMs : ℤ) (wire : Text) : LedgerRow where
  localSeq := localSeq
  eventId := row.eventId
  chainSeq := row.seq
  deviceId := l.deviceId
  anchorEpochId := l.anchorEpochId
  keyId := l.keyId
  envelopeJson := wire
  envelopeDigest := text "sha256:" ++ l.keys.sha256 wire
  chainRowDigest := l.chainRowDigest row
  sealedAtMs := sealedAtMs

/-- The body of the transaction: the row that raced the call, or none and the rows with its own. -/
def sealInTransaction (rows : List LedgerRow) (row : CarriedRow) (sealedAtMs : ℤ) :
    Except DeliveryLedgerError (List LedgerRow × Option LedgerRow) :=
  match find rows row.eventId with
  | some raced => .ok (rows, some raced)
  | none =>
    let localSeq := nextLocalSeq rows
    match l.buildEnvelope row localSeq sealedAtMs with
    | .error e => .error (.canonicalisation e)
    | .ok envelope =>
      match Json.canonicalJson envelope with
      | .error e => .error (.canonicalisation e)
      | .ok wire =>
        (insert rows (l.sealedRow row localSeq sealedAtMs wire)).map (fun rows' => (rows', none))

def storedChainRow (existing : LedgerRow) : Option Json :=
  (Json.loads Json.dictOf existing.envelopeJson).bind (fun envelope => envelope.get? "chain_row")

/-- The columns of the stored chain row that differ from the call's. -/
def differing (stored : Json) (row : CarriedRow) : List String :=
  (row.columns.filter (fun column => !((stored.get? column.1).getD .null).pyEq column.2)).map (·.1)

/-- The sealed envelope, only when the request means the same row. -/
def reconcileReseal (existing : LedgerRow) (row : CarriedRow) :
    Except DeliveryLedgerError LedgerRow :=
  match storedChainRow existing with
  | none => .error .unreadable
  | some stored =>
    if differing stored row = [] then .ok existing
    else .error (.otherRow ((differing stored row).insertionSort (· ≤ ·)))

def readBack (rows : List LedgerRow) (row : CarriedRow) : Except DeliveryLedgerError LedgerRow :=
  match find rows row.eventId with
  | none => .error .readBack
  | some sealed => .ok sealed

/-! ### Writers -/

/-- The ledgers open on one table, each a writer's own, with one hash. -/
structure Ledgers where
  ledger : ℕ → EvidenceDeliveryLedger
  sha256 : Text → Text
  hash : ∀ w, (ledger w).keys.sha256 = sha256

/-- Where a writer's call of `seal` stands. -/
inductive Progress where
  | lookedUp (row : CarriedRow) (sealedAtMs : ℤ)
  | begun (row : CarriedRow) (sealedAtMs : ℤ)
  | written (row : CarriedRow) (raced : Option LedgerRow) (working : List LedgerRow)
  | committed (row : CarriedRow) (raced : Option LedgerRow)
  | returned (row : CarriedRow) (answer : Except DeliveryLedgerError LedgerRow)

structure Store where
  rows : List LedgerRow := []
  lock : Option ℕ := none
  calls : Dict ℕ Progress := Dict.empty

/-- A statement of a writer's call, an exception or a crash at the statement it stands at, or a
change of a row's delivery by another method. -/
inductive Label where
  | call (w : ℕ) (row : CarriedRow) (sealedAtMs : ℤ)
  | begin (w : ℕ)
  | write (w : ℕ)
  | commit (w : ℕ)
  | answer (w : ℕ)
  | raise (w : ℕ)
  | crash (w : ℕ)
  | deliver (localSeq : ℕ) (delivery : Delivery)

def Store.unlock (s : Store) (w : ℕ) : Option ℕ := if s.lock = some w then none else s.lock

def Store.respond (s : Store) (w : ℕ) (row : CarriedRow)
    (answer : Except DeliveryLedgerError LedgerRow) : Store :=
  { s with lock := s.unlock w, calls := s.calls.set w (.returned row answer) }

def deliver (rows : List LedgerRow) (localSeq : ℕ) (delivery : Delivery) : List LedgerRow :=
  rows.map (fun row => if row.localSeq = localSeq then { row with delivery := delivery } else row)

variable (ls : Ledgers)

/-- The call up to its transaction. -/
def lookUp (s : Store) (w : ℕ) (row : CarriedRow) (sealedAtMs : ℤ) : Store :=
  match (ls.ledger w).checkRow row with
  | .error e => s.respond w row (.error e)
  | .ok () =>
    match find s.rows row.eventId with
    | none => { s with calls := s.calls.set w (.lookedUp row sealedAtMs) }
    | some existing => s.respond w row (reconcileReseal existing row)

def step (s : Store) : Label → Option Store
  | .call w row sealedAtMs =>
    match s.calls.get? w with
    | none => some (lookUp ls s w row sealedAtMs)
    | some (.returned _ _) => some (lookUp ls s w row sealedAtMs)
    | some _ => none
  | .begin w =>
    match s.calls.get? w with
    | some (.lookedUp row sealedAtMs) =>
      if s.lock = none then
        some { s with lock := some w, calls := s.calls.set w (.begun row sealedAtMs) }
      else none
    | _ => none
  | .write w =>
    match s.calls.get? w with
    | some (.begun row sealedAtMs) =>
      match (ls.ledger w).sealInTransaction s.rows row sealedAtMs with
      | .error e => some (s.respond w row (.error e))
      | .ok (working, raced) =>
        some { s with calls := s.calls.set w (.written row raced working) }
    | _ => none
  | .commit w =>
    match s.calls.get? w with
    | some (.written row raced working) =>
      some { rows := working, lock := s.unlock w, calls := s.calls.set w (.committed row raced) }
    | _ => none
  | .answer w =>
    match s.calls.get? w with
    | some (.committed row (some raced)) => some (s.respond w row (reconcileReseal raced row))
    | some (.committed row none) => some (s.respond w row (readBack s.rows row))
    | _ => none
  | .raise w =>
    match s.calls.get? w with
    | some (.lookedUp row _) => some (s.respond w row (.error .begin))
    | some (.begun row _) => some (s.respond w row (.error .store))
    | some (.written row _ _) => some (s.respond w row (.error .store))
    | some (.committed row _) => some (s.respond w row (.error .store))
    | _ => none
  | .crash w => some { s with lock := s.unlock w, calls := s.calls.pop w }
  | .deliver localSeq delivery =>
    if s.lock = none then some { s with rows := deliver s.rows localSeq delivery } else none

end EvidenceDeliveryLedger

end OriRuntime
