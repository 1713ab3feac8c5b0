import Mathlib.Data.List.DropRight
import OriRuntime.JsonReading
import OriRuntime.JsonParse

/-!
# How a producer reads an answer to a telemetry batch

`telemetry/delivery.py` and the payload's `delivery.rs`, each as its own language has it. What both
take from their JSON libraries is one grammar on the decoded text; what each makes of a constant, a
number, a lone surrogate and a repeated name is written out. The reason of a verdict, which only
the logs read, is left out.
-/

namespace OriRuntime

abbrev Bytes := List UInt8

abbrev HeaderFields := List (Bytes × Bytes)

/-- A number as it stands in the text, or one of `NaN`, `Infinity` and `-Infinity`. -/
inductive NumberToken where
  | integer (neg : Bool) (magnitude : ℕ)
  | decimal (literal : Text)
  | constant (name : Text)

abbrev JsonText := JsonOf NumberToken

/-- A closing bracket outside a string stands where no container is open. -/
def closesUnopened : Bytes → ℕ → Bool → Bool → Bool
  | [], _, _, _ => false
  | byte :: rest, depth, true, escaped =>
    if escaped then closesUnopened rest depth true false
    else if byte = 0x5C then closesUnopened rest depth true true
    else closesUnopened rest depth (byte ≠ 0x22) false
  | byte :: rest, depth, false, escaped =>
    if byte = 0x22 then closesUnopened rest depth true escaped
    else if byte = 0x5B ∨ byte = 0x7B then closesUnopened rest (depth + 1) false escaped
    else if byte = 0x5D ∨ byte = 0x7D then
      depth = 0 || closesUnopened rest (depth - 1) false escaped
    else closesUnopened rest depth false escaped

/-- What both producers take from their libraries: UTF-8, the JSON grammar with the three constants
that are not of it, which decimals are out of a double's range, and `String::from_utf8_lossy`. -/
structure JsonLibrary where
  decode : Bytes → Option Text
  grammar : Text → Option JsonText
  finite : Text → Bool
  lossy : Bytes → Text
  balanced : ∀ body s x, decode body = some s → grammar s = some x →
    closesUnopened body 0 false false = false
  lossyAscii : ∀ bytes : Bytes, (∀ b ∈ bytes, b < 0x80) →
    lossy bytes = bytes.map (fun b => Fin.ofNat 0x110000 b.toNat)

def terminalRefusalStatus : ℕ := 403

def terminalRefusalDetail : Text := text "device is suspended"

def batchStatuses : List Text := [text "accepted", text "duplicate", text "partial"]

def maxResponseBytes : ℕ := 64 * 1024

def maxJsonDepth : ℕ := 32

def maxHeaderFieldBytes : ℕ := 100 * 1024

def verdictFields : List Text :=
  [text "content-type", text "www-authenticate", text "content-encoding", text "content-length",
    text "transfer-encoding"]

inductive DeliveryOutcome where
  | delivered
  | retain
  | suspend
deriving DecidableEq, Repr

structure DeliveryVerdict where
  outcome : DeliveryOutcome
  declinedEvents : ℕ := 0
  duplicateEvents : ℕ := 0
  refusedEvents : ℕ := 0
  nonconformantBody : Bool := false
  bodyUnreadable : Bool := false
  receiverAnswered : Bool := false
deriving DecidableEq

namespace DeliveryVerdict

/-- `_retain`, and what `delivery.rs` builds with `retain`, `unreadable` and `unconfirmed`. -/
def retained (bodyUnreadable receiverAnswered : Bool) : DeliveryVerdict :=
  { outcome := .retain, bodyUnreadable := bodyUnreadable, receiverAnswered := receiverAnswered }

end DeliveryVerdict

/-- An integer's nearest double is finite. -/
def finiteInteger (magnitude : ℕ) : Bool := decide (magnitude < 2 ^ 1024 - 2 ^ 970)

/-- Without the characters of `p` at its two ends. -/
def trimmed (p : CodePoint → Bool) (s : Text) : Text := (s.dropWhile p).rdropWhile p

def isOws (c : CodePoint) : Bool := decide (c.val = 32 ∨ c.val = 9)

def isDetailSpace (c : CodePoint) : Bool :=
  decide (c.val = 32 ∨ c.val = 9 ∨ c.val = 13 ∨ c.val = 10)

def joinHeaderValues (values : List Text) : Option Text :=
  if values.isEmpty then none else some ((values.intersperse (text ", ")).flatten)

/-- A surrogate code point; in a decoded string it is an unpaired one. -/
def isSurrogateText (s : Text) : Bool :=
  s.any (fun c => decide (0xD800 ≤ c.val ∧ c.val ≤ 0xDFFF))

/-! ### `delivery.py` -/

namespace TelemetryDelivery

/-- `bytes.decode("latin-1")`. -/
def latin1 (bytes : Bytes) : Text := bytes.map (fun b => Fin.ofNat 0x110000 b.toNat)

/-- `str.lower` on text of that decoding. -/
def lower (s : Text) : Text :=
  s.map (fun c =>
    if 65 ≤ c.val ∧ c.val ≤ 90 ∨ 192 ≤ c.val ∧ c.val ≤ 222 ∧ c.val ≠ 215 then
      Fin.ofNat 0x110000 (c.val + 32)
    else c)

def isWhitespace (c : CodePoint) : Bool := isBlank [c]

def readableContentCoding (contentEncoding : Option Text) : Bool :=
  match contentEncoding with
  | none => true
  | some value =>
    let value := lower (trimmed isOws value)
    decide (value = [] ∨ value = text "identity")

def isVisible (b : UInt8) : Bool := decide (0x21 ≤ b ∧ b < 0x7F ∨ b = 0x20 ∨ b = 0x09)

def fieldName (name : Bytes) : Text := lower (latin1 name)

def readableHeaderSection (fields : HeaderFields) : Bool :=
  let size := (fields.map (fun f => f.1.length + f.2.length)).sum
  let names := fields.map (fun f => fieldName f.1)
  if size > maxHeaderFieldBytes then false
  else if text "transfer-encoding" ∈ names ∧ text "content-length" ∈ names then false
  else fields.all (fun f => decide (fieldName f.1 ∉ verdictFields) || f.2.all isVisible)

def field (fields : HeaderFields) (wanted : Text) : Option Text :=
  joinHeaderValues ((fields.filter (fun f => fieldName f.1 = wanted)).map (fun f => latin1 f.2))

def declaredPastCeiling (fields : HeaderFields) : Bool :=
  let length := trimmed isWhitespace ((field fields (text "content-length")).getD [])
  !length.isEmpty && length.all Json.isDigit && decide (Json.natOf length > maxResponseBytes)

def bodyIsWanted (fields : HeaderFields) : Bool :=
  readableHeaderSection fields &&
    readableContentCoding (field fields (text "content-encoding")) &&
      !declaredPastCeiling fields

/-- `_nesting_exceeds`; the depth is a Python integer and goes below zero. -/
def nestingExceeds (limit : ℕ) : Bytes → ℤ → Bool → Bool → Bool
  | [], _, _, _ => false
  | byte :: rest, depth, true, escaped =>
    if escaped then nestingExceeds limit rest depth true false
    else if byte = 0x5C then nestingExceeds limit rest depth true true
    else nestingExceeds limit rest depth (byte ≠ 0x22) false
  | byte :: rest, depth, false, escaped =>
    if byte = 0x22 then nestingExceeds limit rest depth true escaped
    else if byte = 0x5B ∨ byte = 0x7B then
      depth + 1 > limit || nestingExceeds limit rest (depth + 1) false escaped
    else if byte = 0x5D ∨ byte = 0x7D then nestingExceeds limit rest (depth - 1) false escaped
    else nestingExceeds limit rest depth false escaped

inductive PyNumber where
  | int (n : ℤ)
  | float (token : NumberToken)

/-- `_refuse_constant`, `_finite_float` and `_integer_token`. -/
def numberOf (lib : JsonLibrary) : NumberToken → Option PyNumber
  | .constant _ => none
  | .decimal literal => if lib.finite literal then some (.float (.decimal literal)) else none
  | .integer neg magnitude =>
    if !finiteInteger magnitude then none
    else if neg && magnitude = 0 then some (.float (.integer neg magnitude))
    else some (.int (if neg then -magnitude else magnitude))

def uniqueMembers (pairs : List (Text × JsonOf PyNumber)) :
    Option (List (Text × JsonOf PyNumber)) :=
  pairs.foldl (fun members pair =>
    members.bind (fun members =>
      if members.any (fun m => decide (m.1 = pair.1)) then none else some (members ++ [pair])))
    (some [])

def hooks (lib : JsonLibrary) : JsonOf.Hooks NumberToken PyNumber where
  str := some
  number := numberOf lib
  pairs := uniqueMembers

def parseStrictJson (lib : JsonLibrary) (body : Bytes) : Option (JsonOf PyNumber) :=
  if body.length > maxResponseBytes || [0xEF, 0xBB, 0xBF].isPrefixOf body then none
  else
    match lib.decode body with
    | none => none
    | some s =>
      if nestingExceeds maxJsonDepth body 0 false false then none
      else
        match (lib.grammar s).bind (JsonOf.read (hooks lib)) with
        | none => none
        | some value => if value.anyText isSurrogateText then none else some value

def isJsonMediaType (contentType : Text) : Bool :=
  let base := lower (trimmed isWhitespace (contentType.takeWhile (· ≠ codePoint ';')))
  decide (base = text "application/json") || (text "+json").isSuffixOf base

def count (body : JsonOf PyNumber) (key : Text) (batchEvents : ℕ) : Option ℕ :=
  match body.get? key with
  | some (.number (.int n)) => if n < 0 ∨ n > batchEvents then none else some n.toNat
  | _ => none

def isTerminalRefusal (status : ℕ) (contentType : Text) (wwwAuthenticate : Option Text)
    (body : Option (JsonOf PyNumber)) : Bool :=
  if status ≠ terminalRefusalStatus then false
  else if wwwAuthenticate.getD [] ≠ [] then false
  else if !isJsonMediaType contentType then false
  else
    match body.bind (fun body => body.get? (text "detail")) with
    | some (.str detail) => decide (trimmed isDetailSpace detail = terminalRefusalDetail)
    | _ => false

/-- The ids the entries of `rejected_events` name, or none where one is not read. -/
def declinedIds : List (JsonOf PyNumber) → List Text → Option (List Text)
  | [], ids => some ids
  | entry :: rest, ids =>
    if !entry.isObject then none
    else
      match entry.get? (text "event_id") with
      | some (.str eventId) =>
        if eventId = [] then none
        else if eventId ∈ ids then none
        else declinedIds rest (ids ++ [eventId])
      | _ => none

/-- The verdict's own members of `delivery.py`. -/
structure Verdict extends DeliveryVerdict where
  refusalStatus : Option ℕ := none
  refusalDetail : Option Text := none
  declinedEventIds : List Text := []
deriving DecidableEq

def retain (bodyUnreadable receiverAnswered : Bool) : Verdict :=
  { DeliveryVerdict.retained bodyUnreadable receiverAnswered with }

inductive PyError where
  | typeError
deriving DecidableEq

/-- `batch_status in _BATCH_STATUSES`: a list and a dict have no hash. -/
def isBatchStatus (status : Option (JsonOf PyNumber)) : Except PyError Bool :=
  match status with
  | some (.list _) | some (.object _) => .error .typeError
  | some (.str s) => .ok (decide (s ∈ batchStatuses))
  | _ => .ok false

structure Counted where
  accepted : ℕ
  duplicate : ℕ
  declinedIds : List Text
  nonconformant : Bool

/-- The counts of an answer; a required member that is absent is read as zero, and recorded. -/
def counted (decoded : JsonOf PyNumber) (batchEvents : ℕ) : Option Counted :=
  match count decoded (text "accepted_events") batchEvents with
  | none => none
  | some accepted =>
    let rejected :=
      match decoded.get? (text "rejected_events") with
      | none => some ([], true)
      | some (.list entries) => (declinedIds entries []).map (fun ids => (ids, false))
      | some _ => none
    match rejected with
    | none => none
    | some (ids, noRejected) =>
      match decoded.get? (text "duplicate_events") with
      | none => some ⟨accepted, 0, ids, true⟩
      | some _ =>
        (count decoded (text "duplicate_events") batchEvents).map (fun duplicate =>
        ⟨accepted, duplicate, ids, noRejected⟩)

/-- From the counts on: what an answer with a batch status says of the batch. -/
def readCounts (decoded : JsonOf PyNumber) (speaksContract : Bool) (batchEvents : ℕ) : Verdict :=
  match counted decoded batchEvents with
  | none => retain false speaksContract
  | some c =>
    if c.accepted + c.duplicate + c.declinedIds.length ≠ batchEvents then
      retain false speaksContract
    else
      { outcome := .delivered
        declinedEvents := c.declinedIds.length
        duplicateEvents := c.duplicate
        nonconformantBody := c.nonconformant
        receiverAnswered := true
        declinedEventIds := c.declinedIds }

/-- The answer once its body is decoded, or is not there to decode. -/
def readDecoded (status : ℕ) (contentType : Text) (wwwAuthenticate : Option Text)
    (decoded : Option (JsonOf PyNumber)) (batchEvents : ℕ) : Except PyError Verdict :=
  if isTerminalRefusal status contentType wwwAuthenticate decoded then
    .ok
      { outcome := .suspend
        refusedEvents := batchEvents
        refusalStatus := some status
        refusalDetail := some terminalRefusalDetail }
  else if ¬(200 ≤ status ∧ status < 300) then .ok (retain false false)
  else
    match decoded with
    | some (.object members) =>
      match isBatchStatus ((JsonOf.object members).get? (text "status")) with
      | .error e => .error e
      | .ok false => .ok (retain false false)
      | .ok true => .ok (readCounts (.object members) (isJsonMediaType contentType) batchEvents)
    | _ => .ok (retain true false)

def readBatchResponse (lib : JsonLibrary) (status : Option ℕ) (contentType : Text)
    (wwwAuthenticate : Option Text) (body : Option Bytes) (batchEvents : ℕ) :
    Except PyError Verdict :=
  if batchEvents = 0 then .ok (retain false false)
  else
    match status with
    | none => .ok (retain false false)
    | some status =>
      readDecoded status contentType wwwAuthenticate
        (body.bind (fun b => if b.isEmpty then none else parseStrictJson lib b)) batchEvents

def readAnswer (lib : JsonLibrary) (status : Option ℕ) (fields : HeaderFields)
    (body : Option Bytes) (batchEvents : ℕ) : Except PyError Verdict :=
  if status.isNone || !readableHeaderSection fields then
    readBatchResponse lib none [] none none batchEvents
  else
    readBatchResponse lib status ((field fields (text "content-type")).getD [])
      (field fields (text "www-authenticate")) (if bodyIsWanted fields then body else none)
      batchEvents

end TelemetryDelivery

/-! ### `delivery.rs` -/

namespace MobileDelivery

def asciiLower (b : UInt8) : UInt8 := if 0x41 ≤ b ∧ b ≤ 0x5A then b + 0x20 else b

/-- `str::eq_ignore_ascii_case` against a literal. -/
def eqIgnoreAsciiCase (name : Bytes) (wanted : Text) : Bool :=
  decide ((name.map asciiLower).map (fun b => (b.toNat : ℕ)) = wanted.map (fun c => c.val))

def lowerAscii (s : Text) : Text :=
  s.map (fun c => if 65 ≤ c.val ∧ c.val ≤ 90 then Fin.ofNat 0x110000 (c.val + 32) else c)

/-- `char::is_whitespace`. -/
def isWhitespace (c : CodePoint) : Bool :=
  decide (c.val ∈ [9, 10, 11, 12, 13, 32, 0x85, 0xA0, 0x1680, 0x2000, 0x2001, 0x2002, 0x2003,
    0x2004, 0x2005, 0x2006, 0x2007, 0x2008, 0x2009, 0x200A, 0x2028, 0x2029, 0x202F, 0x205F, 0x3000])

def isVisible (b : UInt8) : Bool := decide (b = 0x20 ∨ b = 0x09 ∨ 0x21 ≤ b ∧ b ≤ 0x7E)

def readableHeaderSection (fields : HeaderFields) : Bool :=
  let size := (fields.map (fun f => f.1.length + f.2.length)).sum
  let named := fun wanted => fields.any (fun f => eqIgnoreAsciiCase f.1 wanted)
  if size > maxHeaderFieldBytes then false
  else if named (text "transfer-encoding") && named (text "content-length") then false
  else
    fields.all (fun f =>
      !verdictFields.any (fun wanted => eqIgnoreAsciiCase f.1 wanted) || f.2.all isVisible)

def field (lib : JsonLibrary) (fields : HeaderFields) (wanted : Text) : Option Text :=
  joinHeaderValues
    ((fields.filter (fun f => eqIgnoreAsciiCase f.1 wanted)).map (fun f => lib.lossy f.2))

/-- `str::parse::<u128>`: digits, after one plus sign at most. -/
def parseU128 (s : Text) : Option ℕ :=
  let digits :=
    match s with
    | [] => []
    | c :: cs => if c = codePoint '+' then cs else c :: cs
  if digits.isEmpty || !digits.all Json.isDigit then none
  else if Json.natOf digits < 2 ^ 128 then some (Json.natOf digits)
  else none

def declaredPastCeiling (lib : JsonLibrary) (fields : HeaderFields) : Bool :=
  ((field lib fields (text "content-length")).bind (fun length =>
    parseU128 (trimmed isWhitespace length))).any (fun length => decide (length > maxResponseBytes))

def readableContentCoding (contentEncoding : Option Text) : Bool :=
  match contentEncoding with
  | none => true
  | some value =>
    let value := trimmed isOws value
    value.isEmpty || decide (lowerAscii value = text "identity")

def bodyIsWanted (lib : JsonLibrary) (fields : HeaderFields) : Bool :=
  readableHeaderSection fields &&
    readableContentCoding (field lib fields (text "content-encoding")) &&
      !declaredPastCeiling lib fields

def isJsonMediaType (contentType : Text) : Bool :=
  let base := lowerAscii (trimmed isWhitespace (contentType.takeWhile (· ≠ codePoint ';')))
  decide (base = text "application/json") || (text "+json").isSuffixOf base

/-- `nesting_exceeds`; the depth is a `usize` and stays at zero. -/
def nestingExceeds (limit : ℕ) : Bytes → ℕ → Bool → Bool → Bool
  | [], _, _, _ => false
  | byte :: rest, depth, true, escaped =>
    if escaped then nestingExceeds limit rest depth true false
    else if byte = 0x5C then nestingExceeds limit rest depth true true
    else nestingExceeds limit rest depth (byte ≠ 0x22) false
  | byte :: rest, depth, false, escaped =>
    if byte = 0x22 then nestingExceeds limit rest depth true escaped
    else if byte = 0x5B ∨ byte = 0x7B then
      depth + 1 > limit || nestingExceeds limit rest (depth + 1) false escaped
    else if byte = 0x5D ∨ byte = 0x7D then nestingExceeds limit rest (depth - 1) false escaped
    else nestingExceeds limit rest depth false escaped

/-- `serde_json::Number`: what `visit_u64`, `visit_i64` and `visit_f64` were given. -/
inductive MobileNumber where
  | posInt (n : ℕ)
  | negInt (n : ℕ)
  | float (token : NumberToken)

/-- What serde_json reads a number as; it refuses the constants and what has no finite value. -/
def numberOf (lib : JsonLibrary) : NumberToken → Option MobileNumber
  | .constant _ => none
  | .decimal literal => if lib.finite literal then some (.float (.decimal literal)) else none
  | .integer neg magnitude =>
    if !neg && decide (magnitude < 2 ^ 64) then some (.posInt magnitude)
    else if neg && decide (0 < magnitude ∧ magnitude ≤ 2 ^ 63) then some (.negInt magnitude)
    else if finiteInteger magnitude then some (.float (.integer neg magnitude))
    else none

/-- `visit_map` of `UniqueMembersVisitor`. -/
def visitMap (pairs : List (Text × JsonOf MobileNumber)) :
    Option (List (Text × JsonOf MobileNumber)) :=
  pairs.foldl (fun members pair =>
    members.bind (fun members =>
      if members.any (fun m => decide (m.1 = pair.1)) then none else some (members ++ [pair])))
    (some [])

def hooks (lib : JsonLibrary) : JsonOf.Hooks NumberToken MobileNumber where
  str := fun s => if isSurrogateText s then none else some s
  number := numberOf lib
  pairs := visitMap

def parseStrictJson (lib : JsonLibrary) (body : Bytes) : Option (JsonOf MobileNumber) :=
  if body.isEmpty || body.length > maxResponseBytes then none
  else if nestingExceeds maxJsonDepth body 0 false false then none
  else if [0xEF, 0xBB, 0xBF].isPrefixOf body then none
  else (lib.decode body).bind (fun s => (lib.grammar s).bind (JsonOf.read (hooks lib)))

/-- `Value::as_u64` of a member, within the batch; `usizeMax` is the platform's. -/
def count (usizeMax : ℕ) (body : JsonOf MobileNumber) (key : Text) (batchEvents : ℕ) : Option ℕ :=
  match body.get? key with
  | some (.number (.posInt n)) =>
    if n ≤ usizeMax then (if n ≤ batchEvents then some n else none) else none
  | _ => none

def isTerminalRefusal (status : ℕ) (contentType : Text) (wwwAuthenticate : Option Text)
    (body : Option (JsonOf MobileNumber)) : Bool :=
  if status ≠ terminalRefusalStatus then false
  else if wwwAuthenticate.any (fun value => !value.isEmpty) then false
  else if !isJsonMediaType contentType then false
  else
    match body.bind (fun body => body.get? (text "detail")) with
    | some (.str detail) => decide (trimmed isDetailSpace detail = terminalRefusalDetail)
    | _ => false

/-- Whether every entry of `rejected_events` names an event no other entry names. -/
def namesEvents : List (JsonOf MobileNumber) → List Text → Bool
  | [], _ => true
  | entry :: rest, named =>
    match entry.get? (text "event_id") with
    | some (.str eventId) =>
      if eventId = [] then false
      else if eventId ∈ named then false
      else namesEvents rest (eventId :: named)
    | _ => false

def saturatingAdd (usizeMax a b : ℕ) : ℕ := min (a + b) usizeMax

structure Counted where
  accepted : ℕ
  duplicate : ℕ
  declined : ℕ
  nonconformant : Bool

def counted (usizeMax : ℕ) (body : JsonOf MobileNumber) (batchEvents : ℕ) : Option Counted :=
  match count usizeMax body (text "accepted_events") batchEvents with
  | none => none
  | some accepted =>
    let rejected :=
      match body.get? (text "rejected_events") with
      | none => some (0, true)
      | some (.list entries) =>
        if namesEvents entries [] then some (entries.length, false) else none
      | some _ => none
    match rejected with
    | none => none
    | some (declined, noRejected) =>
      match body.get? (text "duplicate_events") with
      | none => some ⟨accepted, 0, declined, true⟩
      | some _ =>
        (count usizeMax body (text "duplicate_events") batchEvents).map (fun duplicate =>
        ⟨accepted, duplicate, declined, noRejected⟩)

def readCounts (usizeMax : ℕ) (body : JsonOf MobileNumber) (speaks : Bool) (batchEvents : ℕ) :
    DeliveryVerdict :=
  match counted usizeMax body batchEvents with
  | none => .retained false speaks
  | some c =>
    if saturatingAdd usizeMax (saturatingAdd usizeMax c.accepted c.duplicate) c.declined ≠
        batchEvents then
      .retained false speaks
    else
      { outcome := .delivered
        declinedEvents := c.declined
        duplicateEvents := c.duplicate
        nonconformantBody := c.nonconformant
        receiverAnswered := true }

def readDecoded (usizeMax status : ℕ) (contentType : Text) (wwwAuthenticate : Option Text)
    (decoded : Option (JsonOf MobileNumber)) (batchEvents : ℕ) : DeliveryVerdict :=
  if isTerminalRefusal status contentType wwwAuthenticate decoded then
    { outcome := .suspend, refusedEvents := batchEvents }
  else if ¬(200 ≤ status ∧ status < 300) then .retained false false
  else
    match decoded with
    | some (.object members) =>
      match (JsonOf.object members).get? (text "status") with
      | some (.str s) =>
        if s ∈ batchStatuses then
          readCounts usizeMax (.object members) (isJsonMediaType contentType) batchEvents
        else .retained false false
      | _ => .retained false false
    | _ => .retained true false

def readBatchResponse (lib : JsonLibrary) (usizeMax : ℕ) (status : Option ℕ) (contentType : Text)
    (wwwAuthenticate : Option Text) (body : Option Bytes) (batchEvents : ℕ) : DeliveryVerdict :=
  if batchEvents = 0 then .retained false false
  else
    match status with
    | none => .retained false false
    | some status =>
      readDecoded usizeMax status contentType wwwAuthenticate (body.bind (parseStrictJson lib))
        batchEvents

def readAnswer (lib : JsonLibrary) (usizeMax : ℕ) (status : Option ℕ) (fields : HeaderFields)
    (body : Option Bytes) (batchEvents : ℕ) : DeliveryVerdict :=
  if status.isNone || !readableHeaderSection fields then
    readBatchResponse lib usizeMax none [] none none batchEvents
  else
    readBatchResponse lib usizeMax status ((field lib fields (text "content-type")).getD [])
      (field lib fields (text "www-authenticate"))
      (if bodyIsWanted lib fields then body else none) batchEvents

end MobileDelivery

end OriRuntime
