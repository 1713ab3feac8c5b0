import Mathlib.Data.List.DropRight
import OriRuntime.JsonRoundTrip
import OriRuntime.Dict
import OriRuntime.Execution

/-!
# The device policy in force

`ori/policy/remote_fetch.py`, `ori/runtime/_device_policy.py` and the policy cache of
`ori/state/_device_policy.py`. A process starts by loading the newest cached policy, then fetches
run over it: each reads the version in force, awaits its response, and checks and applies what it
received before another runs. The write of an applied policy to the cache lands later or is lost,
and a restart leaves the cache alone.

A body that is UTF-8 is held as the text it encodes.
-/

namespace OriRuntime

/-! ### Python's conversions -/

namespace Json

def strip (s : Text) : Text :=
  (s.dropWhile (fun c => isBlank [c])).rdropWhile (fun c => isBlank [c])

/-- The digits of an integer literal, single underscores between them left out. -/
def literalDigits (decimal : CodePoint → Option ℕ) : Text → Option (List ℕ)
  | [] => none
  | [c] => (decimal c).map (fun d => [d])
  | c :: d :: rest =>
    match decimal c with
    | none => none
    | some n =>
      if d = codePoint '_' then (literalDigits decimal rest).map (fun ds => n :: ds)
      else (literalDigits decimal (d :: rest)).map (fun ds => n :: ds)

/-- `int` of a string: `decimal` reads the decimal digits of every script. -/
def intOfText (decimal : CodePoint → Option ℕ) (s : Text) : Option ℤ :=
  let stripped := strip s
  let unsigned := match stripped with
    | c :: cs => if c = codePoint '-' ∨ c = codePoint '+' then cs else stripped
    | [] => []
  match literalDigits decimal unsigned with
  | none => none
  | some ds =>
    if 4300 < ds.length then none
    else
      let n : ℤ := ds.foldl (fun n d => 10 * n + d) 0
      some (if stripped.head? = some (codePoint '-') then -n else n)

/-- The double nearest a whole number, half to even. -/
def nearestDouble (n : ℕ) : ℕ :=
  if n < 2 ^ 53 then n
  else
    let unit := 2 ^ (n.log2 - 52)
    let q := n / unit
    let r := n % unit
    if 2 * r < unit ∨ 2 * r = unit ∧ q % 2 = 0 then q * unit else (q + 1) * unit

/-- `int` of a finite float, towards zero. -/
def truncate (d : Decimal) : ℤ :=
  let n := nearestDouble (if 0 ≤ d.exponent then d.digits * 10 ^ d.exponent.toNat
    else d.digits / 10 ^ (-d.exponent).toNat)
  if d.neg then -n else n

/-- What `int` raises. -/
inductive IntError where
  | type
  | value
  | overflow
  deriving DecidableEq

/-- `int` of a value of a parsed document. -/
def toInt (decimal : CodePoint → Option ℕ) : Json → Except IntError ℤ
  | .bool b => .ok (if b then 1 else 0)
  | .int n => .ok n
  | .float .nan => .error .value
  | .float (.infinity _) => .error .overflow
  | .float (.finite d) => .ok (truncate d)
  | .str s =>
    match intOfText decimal s with
    | some n => .ok n
    | none => .error .value
  | .null | .list _ | .dict _ | .other _ => .error .type

def lowerAscii (s : Text) : Text :=
  s.map (fun c => if 65 ≤ c.val ∧ c.val ≤ 90 then Fin.ofNat 0x110000 (c.val + 32) else c)

/-- `_parse_bool`. No character outside ASCII lowers to a letter of the four words. -/
def parseBool : Json → Bool
  | .bool b => b
  | .str s => decide (lowerAscii (strip s) ∈ [text "1", text "true", text "yes", text "on"])
  | .null => false
  | .int n => decide (n ≠ 0)
  | .float (.finite d) => decide (d.digits ≠ 0)
  | .float _ => true
  | .list xs => !xs.isEmpty
  | .dict items => !items.isEmpty
  | .other _ => true

end Json

namespace RemotePolicy

/-! ### Fetched policies -/

structure RemotePolicyFetchError where
  code : String
  detail : String
  policyVersion : Option ℤ := none
  payloadTimestamp : Option ℤ := none
  deriving DecidableEq

/-- What a fetch raises: a refusal, or an exception no check of its own raised. -/
inductive FetchRaised where
  | refused (e : RemotePolicyFetchError)
  | unexpected
  deriving DecidableEq

def AlertCap : Type := { cap : Option ℤ // ∀ n ∈ cap, -1 ≤ n }

structure DevicePolicy where
  relayBEnabled : Bool
  relayCEnabled : Bool
  cloudLlmEnabled : Bool
  validUntil : ℤ
  policyVersion : ℤ
  issuedAt : ℤ
  alertSmsMonthlyCap : AlertCap
  alertWhatsappMonthlyCap : AlertCap

namespace DevicePolicy

def unrestricted : DevicePolicy where
  relayBEnabled := true
  relayCEnabled := true
  cloudLlmEnabled := true
  validUntil := 2 ^ 63 - 1
  policyVersion := 0
  issuedAt := 0
  alertSmsMonthlyCap := ⟨none, nofun⟩
  alertWhatsappMonthlyCap := ⟨none, nofun⟩

end DevicePolicy

inductive PolicyBody where
  | utf8 (raw : Text)
  | bytes (raw : List (Fin 256))
  deriving DecidableEq

/-- The hash, the check of a signed payload under a public key with the text of its refusal, and
the decimal digits of a character. -/
structure PolicyChecks where
  sha256 : PolicyBody → Text
  verifySignedPayload : Json → Text → Bool
  signatureRefusal : Json → Text → String
  decimal : CodePoint → Option ℕ

structure RemotePolicyFetchConfig where
  url : Text
  authToken : Text
  publicKeyB64 : Text
  requestTimeoutMs : ℤ := 3000
  maxClockSkewS : ℤ := 300

structure FetchedRemotePolicy where
  policy : DevicePolicy
  rawPayload : Text

namespace PolicyChecks

variable (k : PolicyChecks)

def refuse {α : Type} (code detail : String) (policyVersion payloadTimestamp : Option ℤ) :
    Except FetchRaised α :=
  .error (.refused { code := code, detail := detail, policyVersion := policyVersion
                     payloadTimestamp := payloadTimestamp })

def toInt (value : Json) (field : String) : Except FetchRaised ℤ :=
  match value.toInt k.decimal with
  | .ok n => .ok n
  | .error .overflow => .error .unexpected
  | .error _ => refuse "invalid_payload" ("policy field '" ++ field ++ "' must be an integer")
      none none

/-- `payload.get(field)`. -/
def read (payload : Json) (field : String) : Json := (payload.get? field).getD .null

def missing (payload : Json) (required : List String) : List String :=
  required.filter (fun field => (payload.get? field).isNone)

def optionalAlertCap (value : Json) (field : String) : Except FetchRaised AlertCap :=
  match value with
  | .null => .ok ⟨none, nofun⟩
  | value =>
    match k.toInt value field with
    | .error e => .error e
    | .ok cap =>
      if h : -1 ≤ cap then .ok ⟨some cap, fun _ hn => Option.some.inj hn ▸ h⟩
      else refuse "invalid_payload" (field ++ " must be null, -1, or non-negative") none none

def requiredFields : List String :=
  ["tier", "relay_b_enabled", "relay_c_enabled", "cloud_llm_enabled", "valid_until",
   "policy_version", "issued_at", "signature"]

def devicePolicyFromPayload (payload : Json) (contextLabel : String) :
    Except FetchRaised DevicePolicy :=
  if missing payload requiredFields ≠ [] then
    refuse "invalid_payload" (contextLabel ++ " missing required fields: " ++
      ", ".intercalate (missing payload requiredFields)) none none
  else do
    let validUntil ← k.toInt (read payload "valid_until") "valid_until"
    let policyVersion ← k.toInt (read payload "policy_version") "policy_version"
    let issuedAt ← k.toInt (read payload "issued_at") "issued_at"
    let sms ← k.optionalAlertCap (read payload "alert_sms_monthly_cap") "alert_sms_monthly_cap"
    let whatsapp ← k.optionalAlertCap (read payload "alert_whatsapp_monthly_cap")
      "alert_whatsapp_monthly_cap"
    .ok { relayBEnabled := (read payload "relay_b_enabled").parseBool
          relayCEnabled := (read payload "relay_c_enabled").parseBool
          cloudLlmEnabled := (read payload "cloud_llm_enabled").parseBool
          validUntil := validUntil, policyVersion := policyVersion, issuedAt := issuedAt
          alertSmsMonthlyCap := sms, alertWhatsappMonthlyCap := whatsapp }

def decodeJsonBody : PolicyBody → Except FetchRaised (Text × Json)
  | .bytes _ => refuse "invalid_payload" "policy endpoint returned non-UTF8 payload" none none
  | .utf8 raw =>
    match Json.loads Json.uniqueMembers raw with
    | none => refuse "invalid_payload" "policy endpoint returned non-JSON payload" none none
    | some (.dict items) => .ok (raw, .dict items)
    | some _ => refuse "invalid_payload" "policy payload must be a JSON object" none none

def verifyPayload (nowS : ℤ) (payload : Json) (cfg : RemotePolicyFetchConfig)
    (currentPolicyVersion : ℤ) : Except FetchRaised DevicePolicy :=
  if missing payload ["timestamp"] ≠ [] then
    refuse "invalid_payload" "policy payload missing required fields: timestamp" none none
  else do
    let payloadTs ← k.toInt (read payload "timestamp") "timestamp"
    let policyVersion ← k.toInt (read payload "policy_version") "policy_version"
    if cfg.maxClockSkewS < |nowS - payloadTs| then
      refuse "stale_timestamp" "policy payload timestamp is outside allowed skew window"
        (some policyVersion) (some payloadTs)
    else if policyVersion < currentPolicyVersion then
      refuse "version_downgrade" "policy_version is lower than current in-memory version"
        (some policyVersion) (some payloadTs)
    else if k.verifySignedPayload payload cfg.publicKeyB64 then
      k.devicePolicyFromPayload payload "policy payload"
    else
      refuse "invalid_signature" (k.signatureRefusal payload cfg.publicKeyB64)
        (some policyVersion) (some payloadTs)

def validateFetchConfig (cfg : RemotePolicyFetchConfig) : Except FetchRaised Unit :=
  if ¬ (text "https://").isPrefixOf cfg.url then
    refuse "invalid_config" "device_policy.url must start with https://" none none
  else if cfg.authToken = [] then
    refuse "invalid_config" "device_policy.auth_token is empty" none none
  else if cfg.publicKeyB64 = [] then
    refuse "invalid_config" "device_policy.public_key_b64 is empty" none none
  else if cfg.requestTimeoutMs < 100 then
    refuse "invalid_config" "device_policy.request_timeout_ms must be >= 100" none none
  else if cfg.maxClockSkewS < 1 then
    refuse "invalid_config" "device_policy.max_clock_skew_s must be >= 1" none none
  else .ok ()

/-- The checks of a reference before it is fetched, and the digest its content has to hash to. -/
def validateReference (url expectedSha256 : Text) : Except FetchRaised (Text × Text) :=
  let refUrl := Json.strip url
  let digest := Json.lowerAscii (Json.strip expectedSha256)
  if refUrl = [] then refuse "invalid_config" "policy reference URL is empty" none none
  else if ¬ (text "https://").isPrefixOf refUrl then
    refuse "invalid_config" "policy reference URL must start with https://" none none
  else if digest.length ≠ 64 ∨ digest.any (fun ch => decide (ch ∉ text "0123456789abcdef")) then
    refuse "invalid_config" "policy reference sha256 must be a 64-character hex digest" none none
  else .ok (refUrl, digest)

/-- A fetch awaiting its response: what it asks, the digest a reference names, and the version in
force when it was begun. -/
structure Fetch where
  cfg : RemotePolicyFetchConfig
  digest : Option Text
  currentPolicyVersion : ℤ

/-- What a fetch makes of its response. -/
def received (f : Fetch) (nowS : ℤ) (response : Except RemotePolicyFetchError PolicyBody) :
    Except FetchRaised FetchedRemotePolicy :=
  match response with
  | .error e => .error (.refused e)
  | .ok body =>
    if f.digest.any (fun digest => decide (k.sha256 body ≠ digest)) then
      refuse "hash_mismatch" "policy reference content hash does not match expected sha256"
        none none
    else do
      let (raw, payload) ← decodeJsonBody body
      let policy ← k.verifyPayload nowS payload f.cfg f.currentPolicyVersion
      .ok { policy := policy, rawPayload := raw }

end PolicyChecks

/-! ### The runtime -/

structure CachedPolicy where
  rawPayload : Text
  cachedAtMs : ℤ

/-- `config.device_policy`, its texts stripped. -/
structure PolicyRuntime where
  checks : PolicyChecks
  enabled : Bool
  devicePolicy : RemotePolicyFetchConfig

namespace PolicyRuntime

/-- The process and the cache, with the versions handed to the dispatcher in this process and in
every process, and the versions whose write to the cache was lost. -/
structure State where
  starting : Bool := true
  policy : DevicePolicy := DevicePolicy.unrestricted
  fetches : Dict ℕ PolicyChecks.Fetch := Dict.empty
  writes : Dict ℕ FetchedRemotePolicy := Dict.empty
  cache : Dict ℤ CachedPolicy := Dict.empty
  handed : List ℤ := []
  everInForce : List ℤ := []
  lost : List ℤ := []

inductive Label where
  | load (readFails : Bool)
  | refresh (id : ℕ)
  | applyReference (id : ℕ) (url expectedSha256 : Text)
  | receive (id : ℕ) (nowS : ℤ) (response : Except RemotePolicyFetchError PolicyBody)
  | abandon (id : ℕ)
  | cached (id : ℕ) (cachedAtMs : ℤ)
  | notCached (id : ℕ)
  | restart

variable (r : PolicyRuntime)

def updatePolicy (s : State) (policy : DevicePolicy) : State :=
  { s with policy := policy, handed := s.handed ++ [policy.policyVersion]
           everInForce := s.everInForce ++ [policy.policyVersion] }

def upsertDevicePolicyCache (cache : Dict ℤ CachedPolicy) (fetched : FetchedRemotePolicy)
    (cachedAtMs : ℤ) : Dict ℤ CachedPolicy :=
  cache.set fetched.policy.policyVersion
    { rawPayload := fetched.rawPayload, cachedAtMs := cachedAtMs }

/-- The row of the highest version. -/
def getLatestDevicePolicyCache (cache : Dict ℤ CachedPolicy) : Option (ℤ × CachedPolicy) :=
  match cache.keys.max? with
  | none => none
  | some v => (cache.get? v).map (fun row => (v, row))

def cachedPolicy (row : CachedPolicy) : Option DevicePolicy :=
  if r.devicePolicy.publicKeyB64 = [] ∨ row.rawPayload = [] then none
  else
    match Json.loads Json.uniqueMembers row.rawPayload with
    | some (.dict items) =>
      if r.checks.verifySignedPayload (.dict items) r.devicePolicy.publicKeyB64 then
        (r.checks.devicePolicyFromPayload (.dict items) "cached device policy payload").toOption
      else none
    | _ => none

def loadCachedDevicePolicy (s : State) : State :=
  match getLatestDevicePolicyCache s.cache with
  | none => s
  | some (_, row) =>
    match r.cachedPolicy row with
    | none => s
    | some policy => updatePolicy s policy

/-- A fetch is begun once its own checks of the request pass. -/
def begin (s : State) (id : ℕ) (cfg : RemotePolicyFetchConfig) (digest : Option Text) : State :=
  match PolicyChecks.validateFetchConfig cfg with
  | .error _ => s
  | .ok () =>
    { s with fetches := s.fetches.set id { cfg := cfg, digest := digest
                                           currentPolicyVersion := s.policy.policyVersion } }

/-- `_apply_fetched_remote_device_policy` up to its write. -/
def applyFetched (s : State) (id : ℕ) (fetched : FetchedRemotePolicy) : State :=
  { updatePolicy s fetched.policy with writes := s.writes.set id fetched }

/-- SQLite's integers. -/
def storable (fetched : FetchedRemotePolicy) : Bool :=
  [fetched.policy.policyVersion, fetched.policy.validUntil, fetched.policy.issuedAt].all
    (fun n => decide (-2 ^ 63 ≤ n ∧ n < 2 ^ 63))

def step (s : State) : Label → Option State
  | .load readFails =>
    if s.starting then
      some { if readFails then s else r.loadCachedDevicePolicy s with starting := false }
    else none
  | .refresh id =>
    if ¬ r.enabled ∨ s.starting ∨ (s.fetches.get? id).isSome ∨ (s.writes.get? id).isSome then none
    else some (begin s id r.devicePolicy none)
  | .applyReference id url expectedSha256 =>
    if ¬ r.enabled ∨ s.starting ∨ (s.fetches.get? id).isSome ∨ (s.writes.get? id).isSome then none
    else
      match PolicyChecks.validateReference url expectedSha256 with
      | .error _ => some s
      | .ok (refUrl, digest) =>
        some (begin s id { r.devicePolicy with url := refUrl } (some digest))
  | .receive id nowS response =>
    match s.fetches.get? id with
    | none => none
    | some f =>
      let s := { s with fetches := s.fetches.pop id }
      match r.checks.received f nowS response with
      | .error _ => some s
      | .ok fetched => some (applyFetched s id fetched)
  | .abandon id =>
    match s.fetches.get? id with
    | none => none
    | some _ => some { s with fetches := s.fetches.pop id }
  | .cached id cachedAtMs =>
    match s.writes.get? id with
    | none => none
    | some fetched =>
      if storable fetched then
        some { s with writes := s.writes.pop id
                      cache := upsertDevicePolicyCache s.cache fetched cachedAtMs }
      else none
  | .notCached id =>
    match s.writes.get? id with
    | none => none
    | some fetched => some { s with writes := s.writes.pop id
                                    lost := s.lost ++ [fetched.policy.policyVersion] }
  | .restart =>
    some { cache := s.cache, everInForce := s.everInForce
           lost := s.lost ++ s.writes.values.map (fun fetched => fetched.policy.policyVersion) }

end PolicyRuntime

end RemotePolicy

end OriRuntime
