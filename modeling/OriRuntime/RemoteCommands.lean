import OriRuntime.Canonical
import OriRuntime.Dict
import OriRuntime.Execution

/-!
# Remote commands

`RemoteCommandVerifier` of `ori/security/remote_commands/commands.py` over the command log of
`ori/state/_remote_commands.py`. The replay check and the record that makes it effective are two
store operations, and a call is suspended at each of them.
-/

namespace OriRuntime

structure RemoteCommand where
  commandId : Text
  channel : Text
  deviceId : Text
  issuedAtMs : ℤ
  command : Text
  args : Json
  signature : Option Text
  fromNumber : Text

/-- The text functions of Python the verifier rests on, and its HMAC-SHA256, in hexadecimal. -/
structure CommandText where
  str : Json → Text
  lower : Text → Text
  upper : Text → Text
  strip : Text → Text
  /-- `json.dumps` with sorted keys and no spaces. -/
  canonicalJson : Json → Text
  hmacSha256 : Text → Text → Text

structure RemoteCommandVerifier where
  deviceId : Text
  sharedSecret : Text
  previousSharedSecret : Text
  maxSkewMs : ℤ
  allowedSenders : Dict Text (List Text)
  allowUnlistedSenders : Bool

/-- A row of `remote_command_log`. -/
structure CommandAttempt where
  commandId : Text
  channel : Text
  fromNumber : Text
  command : Text
  accepted : Bool
  reason : Text
  issuedAtMs : Option ℤ
  deriving DecidableEq

def Json.truthy : Json → Bool
  | .null => false
  | .bool b => b
  | .int n => decide (n ≠ 0)
  | .float (.finite d) => decide (d.digits ≠ 0)
  | .float _ => true
  | .str s => !s.isEmpty
  | .dict items => !items.isEmpty
  | .list xs => !xs.isEmpty
  | .other _ => true

namespace CommandText

variable (t : CommandText)

def textOf : Json → Text
  | .str s => s
  | v => t.str v

/-- `str(payload.get(key, "") or "")`. -/
def field (payload : Json) (key : String) : Text :=
  match payload.get? key with
  | none => []
  | some v => if v.truthy then t.textOf v else []

/-! ### Safety mutations -/

def isFalseLike : Json → Bool
  | .bool b => !b
  | .str s => ["false", "0", "no", "off", "disabled"].any (fun w =>
    decide (t.lower (t.strip s) = text w))
  | .int n => decide (n = 0)
  | .float (.finite d) => decide (d.digits = 0)
  | _ => false

def normalizeKey (key : Option Text) : Text :=
  (t.lower (key.getD (text "None"))).filter (fun c =>
    decide (c ≠ codePoint '_' ∧ c ≠ codePoint '-' ∧ c ≠ codePoint '.'))

/-- The value a normalised name ends up with: the last of its members. -/
def normalized (items : List (Option Text × Json)) (name : String) : Json :=
  match items.reverse.find? (fun item => decide (t.normalizeKey item.1 = text name)) with
  | none => .null
  | some item => item.2

def disablesTierD (items : List (Option Text × Json)) : Bool :=
  let tier := if (t.normalized items "actiontier").truthy then t.normalized items "actiontier"
    else t.normalized items "tier"
  decide (t.upper (if tier.truthy then t.textOf tier else []) = text "D") &&
    (t.isFalseLike (t.normalized items "enabled") || t.isFalseLike (t.normalized items "bypassllm"))

def disablesSafety (name : Text) (v : Json) : Bool :=
  ["disabletierd", "disablesafety", "disablesensorvalidation"].any (fun w =>
      decide (name = text w)) ||
    ["tierdenabled", "safetyenabled", "sensorvalidationenabled"].any (fun w =>
      decide (name = text w)) && t.isFalseLike v

mutual

def containsForbiddenSafetyDisable : Json → Bool
  | .dict items => t.disablesTierD items || forbiddenItems items
  | .list xs => forbiddenList xs
  | _ => false

/-- A member whose normalised name comes again later is overwritten. -/
def forbiddenItems : List (Option Text × Json) → Bool
  | [] => false
  | (key, v) :: rest =>
    (!(rest.any (fun item => decide (t.normalizeKey item.1 = t.normalizeKey key))) &&
      (t.disablesSafety (t.normalizeKey key) v || containsForbiddenSafetyDisable v)) ||
      forbiddenItems rest

def forbiddenList : List Json → Bool
  | [] => false
  | v :: vs => containsForbiddenSafetyDisable v || forbiddenList vs

end

/-! ### Parsing -/

def encodable (s : Text) : Bool := s.all (fun c => !isSurrogate c)

def isAscii (s : Text) : Bool := s.all (fun c => decide (c.val < 128))

def isAlphanumeric (c : CodePoint) : Bool :=
  decide (65 ≤ c.val ∧ c.val ≤ 90 ∨ 97 ≤ c.val ∧ c.val ≤ 122 ∨ 48 ≤ c.val ∧ c.val ≤ 57)

/-- `[A-Za-z0-9._-]{1,128}`. -/
def isCommandId (s : Text) : Bool :=
  decide (1 ≤ s.length ∧ s.length ≤ 128) && s.all (fun c => isAlphanumeric c ||
    decide (c = codePoint '.' ∨ c = codePoint '_' ∨ c = codePoint '-'))

/-- `[A-Z][A-Z0-9_]{0,63}`. -/
def isCommandName : Text → Bool
  | [] => false
  | c :: cs => decide (65 ≤ c.val ∧ c.val ≤ 90) && decide (cs.length ≤ 63) &&
      cs.all (fun c => decide (65 ≤ c.val ∧ c.val ≤ 90 ∨ 48 ≤ c.val ∧ c.val ≤ 57) ||
        decide (c = codePoint '_'))

def inInt64 (n : ℤ) : Bool := decide (-(2 ^ 63) ≤ n ∧ n ≤ 2 ^ 63 - 1)

def parseCommand (payload : Json) : Except String RemoteCommand :=
  if !(encodable (t.field payload "command_id") && encodable (t.field payload "device_id") &&
      encodable (t.field payload "command") &&
        encodable (Json.render ((payload.get? "args").getD .null))) then .error "invalid_encoding"
  else
    match payload.get? "command_id" with
    | none => .error "missing_command_id"
    | some .null => .error "missing_command_id"
    | some (.str []) => .error "missing_command_id"
    | some (.str commandId) =>
      if !isCommandId commandId then .error "invalid_command_id"
      else
        match payload.get? "device_id" with
        | none => .error "missing_device_id"
        | some .null => .error "missing_device_id"
        | some (.str []) => .error "missing_device_id"
        | some (.str deviceId) =>
          match payload.get? "issued_at_ms" with
          | some (.int issuedAtMs) =>
            if !inInt64 issuedAtMs then .error "invalid_timestamp"
            else
              match signatureOf (payload.get? "signature") with
              | none => .error "invalid_signature"
              | some signature =>
                match payload.get? "command" with
                | none => .error "missing_command"
                | some .null => .error "missing_command"
                | some (.str []) => .error "missing_command"
                | some (.str command) =>
                  if !isCommandName command then .error "invalid_command"
                  else
                    match payload.get? "args" with
                    | some (.dict items) =>
                      .ok { commandId := commandId, channel := t.field payload "channel"
                            deviceId := deviceId, issuedAtMs := issuedAtMs, command := command
                            args := .dict items, signature := signature
                            fromNumber := t.field payload "from_number" }
                    | _ => .error "invalid_args"
                | some _ => .error "invalid_command"
          | _ => .error "invalid_timestamp"
        | some _ => .error "invalid_device_id"
    | some _ => .error "invalid_command_id"
where
  /-- Nothing where the member is not an ASCII text; an empty one is no signature. -/
  signatureOf : Option Json → Option (Option Text)
    | none => some none
    | some .null => some none
    | some (.str s) => if isAscii s then some (if s = [] then none else some s) else none
    | some _ => none

/-! ### Verification -/

def startsWith (s : Text) (start : String) : Bool := (text start).isPrefixOf s

def signRemoteCommand (c : RemoteCommand) (secret : Text) : Text :=
  let newline : Text := [codePoint '\n']
  text "hmac-sha256:" ++ t.hmacSha256 secret (c.deviceId ++ newline ++ c.commandId ++ newline ++
    Json.intText c.issuedAtMs ++ newline ++ c.command ++ newline ++ t.canonicalJson c.args)

def normalizeChannel (channel : Text) : Text := t.lower (t.strip channel)

def isSpace (c : CodePoint) : Bool := isBlank [c]

def normalizeSender (channel sender : Text) : Text :=
  if !isAscii sender then []
  else
    let value := t.strip sender
    if t.normalizeChannel channel = text "sms" then
      value.filter (fun c => decide (c ∈ text "0123456789+"))
    else if t.normalizeChannel channel = text "whatsapp" then
      (t.lower value).filter (fun c => !isSpace c)
    else value

def senderIsAllowed (v : RemoteCommandVerifier) (c : RemoteCommand) : Bool :=
  if v.allowUnlistedSenders then true
  else
    let channel := t.normalizeChannel c.channel
    let sender := t.normalizeSender channel c.fromNumber
    if channel = [] ∨ sender = [] then false
    else ((v.allowedSenders.get? channel).getD []).any (fun s => decide (s = sender))

def allowedCommands : List String :=
  ["UPDATE_CONFIG", "UPDATE_SKILL", "APPLY_POLICY", "REFRESH_POLICY", "RESTART_RUNTIME",
    "SET_THRESHOLD", "SET_RELAY_MODE", "TRIGGER_SYNC"]

def forbiddenCommands : List String :=
  ["DISABLE_TIER_D", "DISABLE_SAFETY", "DISABLE_SENSOR_VALIDATION",
    "BYPASS_DEVICE_POLICY_FOR_TIER_B_OR_C", "EXECUTE_RELAY", "FORCE_ACTUATOR"]

def named (names : List String) (command : Text) : Bool :=
  names.any (fun name => decide (text name = command))

/-- The checks before the replay check: why the command is refused, or why it may be accepted. -/
def judge (v : RemoteCommandVerifier) (c : RemoteCommand) (nowMs : ℤ) : Except String String :=
  if c.deviceId ≠ v.deviceId then .error "device_mismatch"
  else if v.sharedSecret = [] then .error "missing_shared_secret"
  else if c.issuedAtMs < nowMs - v.maxSkewMs then .error "stale_timestamp"
  else if nowMs + v.maxSkewMs < c.issuedAtMs then .error "future_timestamp"
  else if named forbiddenCommands c.command then .error "forbidden_command"
  else if !named allowedCommands c.command then .error "unknown_command"
  else if t.containsForbiddenSafetyDisable c.args then .error "forbidden_safety_mutation"
  else
    match c.signature with
    | none => .error "missing_signature"
    | some signature =>
      if !startsWith signature "hmac-sha256:" then .error "unsupported_signature"
      else if signature = t.signRemoteCommand c v.sharedSecret then
        if t.senderIsAllowed v c then .ok "accepted" else .error "sender_not_allowed"
      else if v.previousSharedSecret = [] then .error "invalid_signature"
      else if signature = t.signRemoteCommand c v.previousSharedSecret then
        if t.senderIsAllowed v c then .ok "accepted_previous_secret" else .error "sender_not_allowed"
      else .error "invalid_signature"

/-- A surrogate as its escape, anything else as it stands. -/
def storable (s : Text) : Text :=
  s.flatMap (fun c =>
    if isSurrogate c then
      text "\\u" ++ [Json.hexDigit (c.val / 4096), Json.hexDigit (c.val / 256 % 16),
        Json.hexDigit (c.val / 16 % 16), Json.hexDigit (c.val % 16)]
    else [c])

def attemptOf (c : RemoteCommand) (accepted : Bool) (reason : String) : CommandAttempt where
  commandId := storable c.commandId
  channel := storable c.channel
  fromNumber := storable c.fromNumber
  command := storable c.command
  accepted := accepted
  reason := text reason
  issuedAtMs := some c.issuedAtMs

/-- The refusal of a payload no command was read from. -/
def refusalOf (payload : Json) (reason : String) : CommandAttempt where
  commandId := storable (t.field payload "command_id")
  channel := storable (t.field payload "channel")
  fromNumber := storable (t.field payload "from_number")
  command := storable (t.field payload "command")
  accepted := false
  reason := text reason
  issuedAtMs :=
    match payload.get? "issued_at_ms" with
    | some (.int n) => if inInt64 n then some n else none
    | _ => none

end CommandText

/-! ### Calls -/

/-- Where a call of `verify` stands. A refusal after an exception is written outside the `try`. -/
inductive VerifyStage where
  | checking (command : RemoteCommand) (reason : String)
  | writing (row : CommandAttempt) (command : Option RemoteCommand) (outer : Bool)
  | written (row : CommandAttempt) (command : Option RemoteCommand) (outer : Bool)
  /-- Cancelled at its write, which the store may still take. -/
  | abandoned (row : CommandAttempt)
  | done

structure VerifyCall where
  payload : Json
  stage : VerifyStage

structure CommandDesk where
  log : List CommandAttempt := []
  calls : List VerifyCall := []
  /-- The command of each result that was returned accepted. -/
  returned : List RemoteCommand := []

namespace CommandDesk

variable (t : CommandText) (s : CommandDesk)

def hasRemoteCommand (log : List CommandAttempt) (commandId : Text) : Bool :=
  log.any (fun row => decide (row.commandId = commandId) && row.accepted)

inductive Step where
  | call (v : RemoteCommandVerifier) (payload : Json) (nowMs : ℤ)
  | check (i : ℕ)
  | land (i : ℕ)
  | resume (i : ℕ)
  /-- The operation the call awaits raises, or the code up to it. -/
  | fail (i : ℕ)
  | cancel (i : ℕ)
  | restart

def begin (v : RemoteCommandVerifier) (payload : Json) (nowMs : ℤ) : VerifyStage :=
  match t.parseCommand payload with
  | .error reason => .writing (t.refusalOf payload reason) none false
  | .ok c =>
    match t.judge v c nowMs with
    | .error reason => .writing (CommandText.attemptOf c false reason) (some c) false
    | .ok reason => .checking c reason

def setStage (i : ℕ) (call : VerifyCall) (stage : VerifyStage) : CommandDesk :=
  { s with calls := s.calls.set i { call with stage := stage } }

/-- What an exception at an await leads to. -/
def failed (payload : Json) : VerifyStage → Option VerifyStage
  | .checking _ _ => some (.writing (t.refusalOf payload "verifier_error") none true)
  | .writing _ _ false => some (.writing (t.refusalOf payload "verifier_error") none true)
  | .written _ _ false => some (.writing (t.refusalOf payload "verifier_error") none true)
  | .writing _ _ true => some .done
  | .written _ _ true => some .done
  | .abandoned _ => none
  | .done => none

def cancelled : VerifyStage → Option VerifyStage
  | .checking _ _ => some .done
  | .writing row _ _ => some (.abandoned row)
  | .written _ _ _ => some .done
  | .abandoned _ => none
  | .done => none

/-- What the replay check leads to. -/
def checked (log : List CommandAttempt) (c : RemoteCommand) (reason : String) : VerifyStage :=
  if hasRemoteCommand log c.commandId then
    .writing (CommandText.attemptOf c false "replay_detected") (some c) false
  else .writing (CommandText.attemptOf c true reason) (some c) false

def step : Step → Option CommandDesk
  | .call v payload nowMs =>
    some { s with calls := s.calls ++ [⟨payload, begin t v payload nowMs⟩] }
  | .check i =>
    match s.calls[i]? with
    | none => none
    | some call =>
      match call.stage with
      | .checking c reason => some (s.setStage i call (checked s.log c reason))
      | _ => none
  | .land i =>
    match s.calls[i]? with
    | none => none
    | some call =>
      match call.stage with
      | .writing row c outer =>
        some { s.setStage i call (.written row c outer) with log := s.log ++ [row] }
      | .abandoned row => some { s.setStage i call .done with log := s.log ++ [row] }
      | _ => none
  | .resume i =>
    match s.calls[i]? with
    | none => none
    | some call =>
      match call.stage with
      | .written row c _ =>
        some { s.setStage i call .done with
          returned := if row.accepted then s.returned ++ c.toList else s.returned }
      | _ => none
  | .fail i =>
    match s.calls[i]? with
    | none => none
    | some call => (failed t call.payload call.stage).map (fun stage => s.setStage i call stage)
  | .cancel i =>
    match s.calls[i]? with
    | none => none
    | some call => (cancelled call.stage).map (fun stage => s.setStage i call stage)
  | .restart => some { s with calls := [] }

end CommandDesk

end OriRuntime
