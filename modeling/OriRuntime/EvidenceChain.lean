import OriRuntime.Canonical
import OriRuntime.Dict
import OriRuntime.Execution

/-!
# The evidence chain

`ori/security/evidence/chain.py`. A table of the rows committed, and the calls of `append` in
progress on it: a call looks its event up, then runs its transaction, then reads its row back, and
other calls run between these. A transaction that raises leaves the table as it was.
-/

namespace OriRuntime

/-- The hash, the device's signature and its check, with the wire form of each as its text. -/
structure EvidenceKeys where
  sha256 : Text → Text
  sign : Text → Text
  verify : Text → Text → Bool
  verify_sign : ∀ b, verify (sign b) b = true

def schemaVersion : String := "ori.evidence.v2"

def genesisPreimage : String := "ori.evidence.genesis.v2"

def eventTypes : List Text :=
  [text "UPTIME_HEARTBEAT", text "OUTAGE_STARTED", text "OUTAGE_RESOLVED",
   text "DISPLACEMENT_RECORD", text "MAINTENANCE_PERFORMED", text "REVENUE_COLLECTED",
   text "UTILISATION_RECORD", text "KEY_ROTATION", text "SAFETY_ACTION_EXECUTED"]

def envelopeFields : List String :=
  ["device_id", "emitted_at_ms", "event_id", "event_type", "payload", "prev_event_hash",
   "schema_version", "sequence_num"]

structure ChainRow where
  seq : ℕ
  eventId : Text
  eventType : Text
  deviceId : Text
  emittedAtMs : ℤ
  payloadJson : Text
  canonicalJson : Text
  eventHash : Text
  prevEventHash : Text
  signature : Text
  exported : Bool := false
  exportedAtMs : Option ℤ := none
  createdAtMs : ℤ
  deriving DecidableEq

inductive EvidenceChainError where
  | emptyEventId
  | eventType
  | canonicalisation (e : CanonicalisationError)
  | differentContent (fields : List String)
  | constraint
  | store
  | readBack

/-- One call of `append`. Its payload is a dict, so holds no key twice. -/
structure AppendCall where
  eventId : Text
  eventType : Text
  emittedAtMs : ℤ
  payload : Json
  createdAtMs : ℤ
  distinct : payload.DistinctKeys

/-- A chain bound to one device's key and identity. -/
structure EvidenceChain where
  keys : EvidenceKeys
  deviceId : Text

namespace EvidenceChain

variable (c : EvidenceChain)

def genesisPrevEventHash : Text := c.keys.sha256 (text genesisPreimage)

/-- The row of the highest sequence number. -/
def latest (rows : List ChainRow) : Option ChainRow :=
  rows.foldl (fun best row =>
    match best with
    | none => some row
    | some b => if b.seq < row.seq then some row else some b) none

/-- The current sequence number and hash. Genesis when the chain is empty. -/
def head (rows : List ChainRow) : ℕ × Text :=
  match latest rows with
  | none => (0, c.genesisPrevEventHash)
  | some row => (row.seq, row.eventHash)

def findByEventId (rows : List ChainRow) (eventId : Text) : Option ChainRow :=
  rows.find? (fun row => decide (row.eventId = eventId))

def envelope (eventId eventType : Text) (emittedAtMs : ℤ) (payload : Json) (prevEventHash : Text)
    (sequenceNum : ℕ) : Json :=
  Json.obj [("device_id", .str c.deviceId), ("emitted_at_ms", .int emittedAtMs),
    ("event_id", .str eventId), ("event_type", .str eventType), ("payload", payload),
    ("prev_event_hash", .str prevEventHash), ("schema_version", .str (text schemaVersion)),
    ("sequence_num", .int sequenceNum)]

/-- The primary key and the unique event id. -/
def insert (rows : List ChainRow) (row : ChainRow) : Except EvidenceChainError (List ChainRow) :=
  if rows.any (fun r => decide (r.seq = row.seq ∨ r.eventId = row.eventId)) then .error .constraint
  else .ok (rows ++ [row])

/-- Signs the event against the head of the rows the transaction reads, and inserts its row. -/
def appendInTransaction (rows : List ChainRow) (call : AppendCall) (payloadBytes : Text) :
    Except EvidenceChainError (List ChainRow) :=
  let previous := c.head rows
  match Json.canonicalJson (c.envelope call.eventId call.eventType call.emittedAtMs call.payload
      previous.2 (previous.1 + 1)) with
  | .error e => .error (.canonicalisation e)
  | .ok signedBytes =>
    insert rows
      { seq := previous.1 + 1, eventId := call.eventId, eventType := call.eventType
        deviceId := c.deviceId, emittedAtMs := call.emittedAtMs, payloadJson := payloadBytes
        canonicalJson := signedBytes, eventHash := c.keys.sha256 signedBytes
        prevEventHash := previous.2, signature := c.keys.sign signedBytes
        createdAtMs := call.createdAtMs }

/-- The fields of the stored row that differ from the call's. -/
def differing (existing : ChainRow) (call : AppendCall) (payloadBytes : Text) : List String :=
  (if existing.eventType = call.eventType then [] else ["event_type"]) ++
  (if existing.deviceId = c.deviceId then [] else ["device_id"]) ++
  (if existing.emittedAtMs = call.emittedAtMs then [] else ["emitted_at_ms"]) ++
  (if existing.payloadJson = payloadBytes then [] else ["payload"])

/-- The stored row, when the replay means the same thing. -/
def reconcileReplay (existing : ChainRow) (call : AppendCall) (payloadBytes : Text) :
    Except EvidenceChainError ChainRow :=
  if c.differing existing call payloadBytes = [] then .ok existing
  else .error (.differentContent (c.differing existing call payloadBytes))

/-- What `append` does before its transaction: its payload's bytes, and its answer when the event
is refused or has a row. -/
def lookUp (rows : List ChainRow) (call : AppendCall) :
    Except EvidenceChainError (Text × Option ChainRow) :=
  if call.eventId = [] then .error .emptyEventId
  else if call.eventType ∉ eventTypes then .error .eventType
  else
    match Json.canonicalJson call.payload with
    | .error e => .error (.canonicalisation e)
    | .ok payloadBytes =>
      match findByEventId rows call.eventId with
      | none => .ok (payloadBytes, none)
      | some existing => (c.reconcileReplay existing call payloadBytes).map (fun row =>
        (payloadBytes, some row))

/-- One transaction: the row that raced the call, or none and the rows with its own. -/
def transact (rows : List ChainRow) (call : AppendCall) (payloadBytes : Text) :
    Except EvidenceChainError (List ChainRow × Option ChainRow) :=
  match findByEventId rows call.eventId with
  | some raced => (c.reconcileReplay raced call payloadBytes).map (fun row => (rows, some row))
  | none => (c.appendInTransaction rows call payloadBytes).map (fun rows' => (rows', none))

def readBack (rows : List ChainRow) (call : AppendCall) : Except EvidenceChainError ChainRow :=
  match findByEventId rows call.eventId with
  | none => .error .readBack
  | some row => .ok row

/-! ### Calls -/

/-- Where a call of `append` stands. -/
inductive Progress where
  | lookedUp (call : AppendCall) (payloadBytes : Text)
  | committed (call : AppendCall)
  | returned (call : AppendCall) (answer : Except EvidenceChainError ChainRow)

structure Store where
  rows : List ChainRow := []
  calls : Dict ℕ Progress := Dict.empty

inductive Label where
  | append (w : ℕ) (call : AppendCall)
  | transact (w : ℕ)
  | fail (w : ℕ)
  | readBack (w : ℕ)
  | markExported (seq : ℕ) (exportedAtMs : ℤ)

def markExported (rows : List ChainRow) (seq : ℕ) (exportedAtMs : ℤ) : List ChainRow :=
  rows.map (fun row =>
    if row.seq = seq then { row with exported := true, exportedAtMs := some exportedAtMs } else row)

def step (s : Store) : Label → Option Store
  | .append w call =>
    match s.calls.get? w with
    | some _ => none
    | none =>
      match c.lookUp s.rows call with
      | .error e => some { s with calls := s.calls.set w (.returned call (.error e)) }
      | .ok (payloadBytes, none) =>
        some { s with calls := s.calls.set w (.lookedUp call payloadBytes) }
      | .ok (_, some row) => some { s with calls := s.calls.set w (.returned call (.ok row)) }
  | .transact w =>
    match s.calls.get? w with
    | some (.lookedUp call payloadBytes) =>
      match c.transact s.rows call payloadBytes with
      | .error e => some { s with calls := s.calls.set w (.returned call (.error e)) }
      | .ok (rows, none) => some { rows := rows, calls := s.calls.set w (.committed call) }
      | .ok (rows, some row) =>
        some { rows := rows, calls := s.calls.set w (.returned call (.ok row)) }
    | _ => none
  | .fail w =>
    match s.calls.get? w with
    | some (.lookedUp call _) =>
      some { s with calls := s.calls.set w (.returned call (.error .store)) }
    | _ => none
  | .readBack w =>
    match s.calls.get? w with
    | some (.committed call) =>
      some { s with calls := s.calls.set w (.returned call (readBack s.rows call)) }
    | _ => none
  | .markExported seq exportedAtMs => some { s with rows := markExported s.rows seq exportedAtMs }

/-! ### Verification -/

/-- A rule `verify_chain` reports a row for, with the row's sequence number. -/
inductive Finding where
  | successor (seq expected : ℕ)
  | unlinked (seq : ℕ)
  | eventHash (seq : ℕ)
  | signature (seq : ℕ)
  | unparseable (seq : ℕ)
  | notObject (seq : ℕ)
  | undefinedFields (seq : ℕ) (fields : List (Option Text))
  | missingFields (seq : ℕ) (fields : List String)
  | schemaVersion (seq : ℕ)
  | column (seq : ℕ) (name : String)
  | payloadUnparseable (seq : ℕ)
  | payload (seq : ℕ)
  deriving DecidableEq

/-- The columns the signed envelope names, under the field each is named by. -/
def signedColumns (row : ChainRow) : List (String × String × Json) :=
  [("sequence_num", "seq", .int row.seq), ("prev_event_hash", "prev_event_hash",
      .str row.prevEventHash), ("event_id", "event_id", .str row.eventId),
   ("event_type", "event_type", .str row.eventType), ("device_id", "device_id", .str row.deviceId),
   ("emitted_at_ms", "emitted_at_ms", .int row.emittedAtMs)]

/-- The findings of a row whose envelope parsed to the dict of `items`. -/
def verifyEnvelope (row : ChainRow) (items : List (Option Text × Json)) : List Finding :=
  let named := envelopeFields.map (fun field => some (text field))
  let undefinedKeys := (items.map (·.1)).filter (fun key => decide (key ∉ named))
  let missing := envelopeFields.filter (fun field => decide (some (text field) ∉ items.map (·.1)))
  let read := fun field => ((Json.dict items).get? field).getD .null
  (if undefinedKeys = [] then [] else [.undefinedFields row.seq undefinedKeys]) ++
  (if missing = [] then [] else [.missingFields row.seq missing]) ++
  (if (read "schema_version").pyEq (.str (text OriRuntime.schemaVersion)) then []
    else [.schemaVersion row.seq]) ++
  (signedColumns row).flatMap (fun column =>
    if (read column.1).pyEq column.2.2 then [] else [.column row.seq column.2.1]) ++
  match Json.loads Json.dictOf row.payloadJson with
  | none => [.payloadUnparseable row.seq]
  | some stored => if stored.pyEq (read "payload") then [] else [.payload row.seq]

/-- The findings of one row, given the sequence number and the hash it should follow. -/
def verifyRow (expectedSeq : ℕ) (expectedPrev : Text) (row : ChainRow) : List Finding :=
  (if row.seq = expectedSeq then [] else [.successor row.seq expectedSeq]) ++
  (if row.prevEventHash = expectedPrev then [] else [.unlinked row.seq]) ++
  (if c.keys.sha256 row.canonicalJson = row.eventHash then [] else [.eventHash row.seq]) ++
  (if c.keys.verify row.signature row.canonicalJson then [] else [.signature row.seq]) ++
  match Json.loads Json.uniqueMembers row.canonicalJson with
  | none => [.unparseable row.seq]
  | some (.dict items) => verifyEnvelope row items
  | some _ => [.notObject row.seq]

def verifyRows : ℕ → Text → List ChainRow → List Finding
  | _, _, [] => []
  | expectedSeq, expectedPrev, row :: rows =>
    c.verifyRow expectedSeq expectedPrev row ++ verifyRows (row.seq + 1) row.eventHash rows

/-- `verify_chain`: every rule every row fails, in the order of their sequence numbers. -/
def verifyChain (rows : List ChainRow) : List Finding :=
  c.verifyRows 1 c.genesisPrevEventHash
    (rows.insertionSort (fun r r' => r.seq ≤ r'.seq))

end EvidenceChain

end OriRuntime
