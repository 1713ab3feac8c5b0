import OriRuntime.Execution
import OriRuntime.FirmwareStore

/-!
# Firmware telemetry

`verify_telemetry_message` and `verify_fault_message` of `ori/security/firmware/telemetry.py`. A
message is a value its JSON was read into; base64, the signature scheme and the keys it refuses are
parameters. A refusal is held by its code.
-/

namespace OriRuntime

inductive TelemetryError where
  | unknownDevice
  | invalidSignatureFormat
  | publicKeyMismatch
  | signatureFailed
  | capabilityHashMismatch
  | sequenceReplay
  | bootRollback
  | uptimeRegression
  | unsupportedChannel
  | invalidPosture
  | invalidReading
  | invalidEnvelope
  | unsupportedAlg
  | deviceRevoked
  | deviceNotApproved
  | unsupportedVersion
  | livenessNonceAtV1
  | livenessNonceMissing
  | invalidLivenessNonce
  | unexpectedField
  | anchorMissing
  | anchorUnstable
  /-- A code of the manifest rules. -/
  | manifestRefused (code : Text)
  deriving DecidableEq

/-- How a verification stops: a refusal, or an exception that is none. -/
inductive Unverified where
  | refused (e : TelemetryError)
  | raised
  deriving DecidableEq

inductive TelemetryGrade where
  | attested
  | attestedDev
  deriving DecidableEq

structure TelemetryReading where
  channel : Text
  sensorType : Text
  unit : Text
  value : ℚ
  quality : ℚ
  deriving DecidableEq

structure TelemetryVerification where
  grade : TelemetryGrade
  deviceId : Text
  bootId : ℤ
  seq : ℤ
  posture : Text
  capabilityHash : Text
  deviceUptimeMs : ℤ
  isHeartbeat : Bool
  readings : List TelemetryReading
  version : ℤ
  livenessNonce : Option Text
  deriving DecidableEq

structure FirmwareFaultVerification where
  grade : TelemetryGrade
  deviceId : Text
  bootId : ℤ
  seq : ℤ
  posture : Text
  deviceUptimeMs : ℤ
  code : Text
  subject : Text
  detail : Text
  version : ℤ
  deriving DecidableEq

/-- Base64, the signatures, `str` of a signature that is no string, and the manifest rules. -/
structure TelemetryKeys extends FirmwareKeys where
  b64encode : List ℕ → Text
  refusedPublicKey : List ℕ → Bool
  verifies : List ℕ → List ℕ → Text → Bool
  str : Json → Text
  manifestPolicy : Json → Option Text

namespace Telemetry

open Json
open FirmwareStore (DeviceRead)

abbrev Verified := Except Unverified

def refuse {α : Type} (e : TelemetryError) : Verified α := .error (.refused e)

/-- Goes on where the check holds. -/
def check (ok : Bool) (e : TelemetryError) : Verified Unit := if ok then .ok () else refuse e

/-! ### Fields -/

def keys : Json → List Text
  | .dict items => items.filterMap (·.1)
  | _ => []

def isDict : Json → Bool
  | .dict _ => true
  | _ => false

/-- `set(obj) == allowed`. -/
def hasExactly (v : Json) (allowed : List String) : Bool :=
  (keys v).all (fun key => allowed.any (fun a => decide (text a = key))) &&
    allowed.all (fun a => decide (text a ∈ keys v))

def familyKeys : List String := ["envelope", "fault", "maintenance_event", "result", "command_result"]

def payloadFamily (message : Json) : Option Text :=
  if text "signature" ∉ keys message then none
  else
    match (keys message).filter (fun key => decide (key ≠ text "signature")) with
    | [family] => if familyKeys.any (fun f => decide (text f = family)) then some family else none
    | _ => none

def requireStr (obj : Json) (key : String) (e : TelemetryError) : Verified Text :=
  match obj.get? key with
  | some (.str s) => if s = [] then refuse e else .ok s
  | _ => refuse e

def requireInt (obj : Json) (key : String) (e : TelemetryError) : Verified ℤ :=
  match obj.get? key with
  | some (.int n) => if n < 0 then refuse e else if integerMax < n then refuse e else .ok n
  | _ => refuse e

def finiteNumber (v : Json) : Option ℚ :=
  match v with
  | .int n => some n
  | .float (.finite d) => some ((if d.neg then -1 else 1) * d.digits * 10 ^ d.exponent)
  | _ => none

/-! ### Signatures -/

variable (k : TelemetryKeys)

/-- `canonical_json_bytes`: a lone surrogate is met by the encoder, not by the rules. -/
def canonicalJsonBytes (obj : Json) : Verified Text :=
  match canonicalJson obj with
  | .ok bytes => .ok bytes
  | .error e =>
    match e.fault with
    | .loneSurrogate => .error .raised
    | .noForm _ => .error .raised
    | _ => refuse .invalidEnvelope

def decodePublicKey (publicKeyB64 : Text) : Verified (List ℕ) :=
  match k.b64decode publicKeyB64 with
  | none => refuse .publicKeyMismatch
  | some raw =>
    if raw.length ≠ 32 ∨ k.b64encode raw ≠ publicKeyB64 then refuse .publicKeyMismatch
    else if k.refusedPublicKey raw then refuse .publicKeyMismatch
    else .ok raw

def signaturePrefix : Text := text "ed25519:"

def decodeWireSignature (signature : Text) : Verified (List ℕ) :=
  if signature.take signaturePrefix.length ≠ signaturePrefix then refuse .invalidSignatureFormat
  else
    let payload := signature.drop signaturePrefix.length
    match k.b64decode payload with
    | none => refuse .invalidSignatureFormat
    | some raw =>
      if raw.length ≠ 64 then refuse .invalidSignatureFormat
      else if k.b64encode raw ≠ payload then refuse .invalidSignatureFormat
      else .ok raw

/-- `str(message.get("signature", ""))`. -/
def signatureText (message : Json) : Text :=
  match message.get? "signature" with
  | none => []
  | some (.str s) => s
  | some v => k.str v

/-- The canonical bytes of the signed object, verified under the anchored key. -/
def verifySigned (message signed : Json) (publicKeyB64 : Text) : Verified Unit := do
  let canonical ← canonicalJsonBytes signed
  let publicKey ← decodePublicKey k publicKeyB64
  let signature ← decodeWireSignature k (signatureText k message)
  check (k.verifies publicKey signature canonical) .signatureFailed

/-! ### What both families check -/

def postures : List String := ["development", "sealed_flash", "hardware_key"]

def gradeOf (posture : Text) : TelemetryGrade :=
  if posture = text "sealed_flash" ∨ posture = text "hardware_key" then .attested else .attestedDev

def requireInService (row : FirmwareDevice) : Verified Unit :=
  if row.revoked then refuse .deviceRevoked
  else if row.approved then .ok ()
  else refuse .deviceNotApproved

/-- The object a message carries under its one family. -/
def requireFamily (message : Json) (family : String) : Verified Json :=
  if payloadFamily message ≠ some (text family) then refuse .invalidEnvelope
  else
    match message.get? family with
    | some (.dict items) => .ok (.dict items)
    | _ => refuse .invalidEnvelope

def requireAlg (obj : Json) : Verified Unit :=
  match obj.get? "alg" with
  | some (.str s) => check (decide (s = text "ed25519")) .unsupportedAlg
  | _ => refuse .unsupportedAlg

def requireDevice (obj : Json) (anchorDeviceId : Text) : Verified Unit := do
  let deviceId ← requireStr obj "device_id" .invalidEnvelope
  check (decide (deviceId = anchorDeviceId)) .unknownDevice

def requireCapability (obj : Json) (acceptedManifestHash : Text) : Verified Text := do
  let capabilityHash ← requireStr obj "capability_hash" .capabilityHashMismatch
  check (decide (capabilityHash = acceptedManifestHash)) .capabilityHashMismatch
  return capabilityHash

def requirePosture (obj : Json) (anchorPosture : Text) : Verified Text := do
  let posture ← requireStr obj "posture" .invalidPosture
  check (postures.any (fun p => decide (text p = posture))) .invalidPosture
  check (decide (posture = anchorPosture)) .invalidPosture
  return posture

/-- What of a message moves the mark. -/
structure Counters where
  bootId : ℤ
  seq : ℤ
  uptimeMs : ℤ
  deriving DecidableEq

def requireCounters (obj : Json) : Verified Counters := do
  let bootId ← requireInt obj "boot_id" .invalidEnvelope
  let seq ← requireInt obj "seq" .invalidEnvelope
  let uptime ← requireInt obj "device_uptime_ms" .invalidEnvelope
  return { bootId := bootId, seq := seq, uptimeMs := uptime }

/-- The counters against the mark the row was read with. -/
def requireFresh (row : DeviceRead) (c : Counters) : Verified Unit :=
  if c.bootId < row.device.lastBootId then refuse .bootRollback
  else if c.seq ≤ row.device.lastSeq then refuse .sequenceReplay
  else if c.bootId = row.device.lastBootId ∧ row.lastUptimeMs.any (fun u => decide (c.uptimeMs < u))
  then refuse .uptimeRegression
  else .ok ()

/-! ### Telemetry -/

def isLivenessNonce (s : Text) : Bool :=
  decide (s.length = 32) && s.all (fun c => (text "0123456789abcdef").any (fun h => decide (h = c)))

def envelopeV2Fields : List String :=
  ["v", "alg", "device_id", "boot_id", "seq", "capability_hash", "posture", "device_uptime_ms",
    "emitted_at_ms", "liveness_nonce", "readings"]

def envelopeVersion (envelope : Json) : Verified (ℤ × Option Text) :=
  match envelope.get? "v" with
  | some (.int 1) =>
    if (envelope.get? "liveness_nonce").isSome then refuse .livenessNonceAtV1 else .ok (1, none)
  | some (.int 2) =>
    match envelope.get? "liveness_nonce" with
    | none => refuse .livenessNonceMissing
    | some .null => onlyKnown (2, none)
    | some (.str s) => if isLivenessNonce s then onlyKnown (2, some s) else refuse .invalidLivenessNonce
    | some _ => refuse .invalidLivenessNonce
  | _ => refuse .unsupportedVersion
where
  onlyKnown (v : ℤ × Option Text) : Verified (ℤ × Option Text) :=
    if (keys envelope).all (fun key => envelopeV2Fields.any (fun f => decide (text f = key))) then
      .ok v
    else refuse .unexpectedField

def requireEmittedAt (envelope : Json) : Verified Unit :=
  match envelope.get? "emitted_at_ms" with
  | some .null => .ok ()
  | some (.int _) => .ok ()
  | _ => refuse .invalidEnvelope

def requireNumber (obj : Json) (key : String) : Verified ℚ :=
  match (obj.get? key).bind finiteNumber with
  | none => refuse .invalidReading
  | some q => .ok q

/-- The reading's channel of the accepted manifest. A map or an entry of another form has no `get`. -/
def requireChannel (accepted : Json) (channel sensorType unit : Text) (quality : ℚ) :
    Verified Unit :=
  match accepted with
  | .dict items =>
    match find? items (some channel) with
    | none => refuse .unsupportedChannel
    | some .null => refuse .unsupportedChannel
    | some (.dict entry) => describes (.dict entry)
    | some _ => .error .raised
  | _ => .error .raised
where
  describes (expected : Json) : Verified Unit :=
    if isText (expected.get? "sensor_type") sensorType && isText (expected.get? "unit") unit then
      if sensorType = text "controller_alarm_word" then .ok ()
      else
        match expected.get? "quality_floor" with
        | none => .ok ()
        | some .null => .ok ()
        | some v =>
          match v.number with
          | some (.inl floor) => check (decide (floor ≤ quality)) .invalidReading
          | some (.inr neg) => check neg .invalidReading
          | none => .error .raised
    else refuse .invalidReading
  isText (v : Option Json) (s : Text) : Bool :=
    match v with
    | some (.str t) => decide (s = t)
    | _ => false

def validateReading (accepted reading : Json) : Verified TelemetryReading := do
  check (isDict reading) .invalidReading
  check (hasExactly reading ["channel", "sensor_type", "unit", "value", "quality"]) .invalidReading
  let channel ← requireStr reading "channel" .unsupportedChannel
  let sensorType ← requireStr reading "sensor_type" .invalidReading
  let unit ← requireStr reading "unit" .invalidReading
  let value ← requireNumber reading "value"
  let quality ← requireNumber reading "quality"
  check (decide (0 ≤ quality ∧ quality ≤ 1)) .invalidReading
  requireChannel accepted channel sensorType unit quality
  return { channel := channel, sensorType := sensorType, unit := unit, value := value
           quality := quality }

def requireReadings (accepted envelope : Json) : Verified (List TelemetryReading) :=
  match envelope.get? "readings" with
  | some (.list readings) => readings.mapM (validateReading accepted)
  | _ => refuse .invalidEnvelope

/-- The registry row a message is verified against, its two JSON columns read. -/
structure VerifiedAgainst where
  deviceId : Text
  row : DeviceRead
  manifest : Json
  channelMap : Json

def verifyTelemetryMessage (message : Json) (a : VerifiedAgainst) :
    Verified TelemetryVerification := do
  requireInService a.row.device
  let envelope ← requireFamily message "envelope"
  requireAlg envelope
  requireDevice envelope a.deviceId
  let capabilityHash ← requireCapability envelope a.row.device.capabilityHash
  verifySigned k message envelope a.row.device.publicKeyB64
  let (version, livenessNonce) ← envelopeVersion envelope
  let posture ← requirePosture envelope a.row.device.posture
  let counters ← requireCounters envelope
  requireEmittedAt envelope
  let readings ← requireReadings a.channelMap envelope
  requireFresh a.row counters
  return { grade := gradeOf posture, deviceId := a.deviceId, bootId := counters.bootId
           seq := counters.seq, posture := posture, capabilityHash := capabilityHash
           deviceUptimeMs := counters.uptimeMs, isHeartbeat := readings.isEmpty
           readings := readings, version := version, livenessNonce := livenessNonce }

/-! ### Faults -/

def faultFields : List String :=
  ["v", "alg", "device_id", "boot_id", "seq", "capability_hash", "posture", "device_uptime_ms",
    "code", "subject", "detail"]

def firmwareFaultCodes : List String :=
  ["command_rejected", "interlock_input_fault", "interlock_recovered", "interlock_tripped",
    "sensor_fault", "brownout_relay_fault", "ingress_degraded", "storage_degraded"]

def commandRejectionVerdicts : List String :=
  ["malformed", "wrong_device", "bad_signature", "replayed", "capability_mismatch",
    "unknown_action", "storage_failure"]

def ingressDegradedDetails : List String :=
  ["inbound_overflow", "subscribe_failed", "anchor_persist_failed", "mqtt_provision_epoch_failed",
    "provisioning_serial_io_failed", "provisioning_serial_overflow"]

def storageDegradedDetails : List String := ["buffer_write_failed", "buffer_mount_failed"]

/-- `CLOSED_FAULT_DETAILS_BY_VERSION`. -/
def closedFaultDetails (version : ℤ) (code : Text) : Option (List String) :=
  let added (s : String) : List String := if version = 1 then [] else [s]
  if code = text "command_rejected" then some (commandRejectionVerdicts ++ added "rate_limited")
  else if code = text "ingress_degraded" then
    some (ingressDegradedDetails ++ added "liveness_authority_failed")
  else if code = text "storage_degraded" then
    some (storageDegradedDetails ++ added "command_record_write_failed")
  else none

def faultTokenMaxLen : ℕ := 63

def fleetTokenChars : Text :=
  text "ABCDEFGHIJKLMNOPQRSTUVWXYZabcdefghijklmnopqrstuvwxyz0123456789._-"

/-- A string short enough and of fleet-safe characters. -/
def requireToken (obj : Json) (key : String) : Verified Text :=
  match obj.get? key with
  | some (.str s) =>
    if faultTokenMaxLen < s.length then refuse .invalidEnvelope
    else if s.all (fun c => fleetTokenChars.any (fun f => decide (f = c))) then .ok s
    else refuse .invalidEnvelope
  | _ => refuse .invalidEnvelope

def requireFaultVersion (fault : Json) : Verified ℤ :=
  match fault.get? "v" with
  | some (.int n) => if n = 1 ∨ n = 2 then .ok n else refuse .invalidEnvelope
  | _ => refuse .invalidEnvelope

def verifyFaultMessage (message : Json) (a : VerifiedAgainst) :
    Verified FirmwareFaultVerification := do
  requireInService a.row.device
  let fault ← requireFamily message "fault"
  check (hasExactly fault faultFields) .invalidEnvelope
  let version ← requireFaultVersion fault
  requireAlg fault
  requireDevice fault a.deviceId
  let _ ← requireCapability fault a.row.device.capabilityHash
  let posture ← requirePosture fault a.row.device.posture
  let counters ← requireCounters fault
  let code ← requireStr fault "code" .invalidEnvelope
  check (firmwareFaultCodes.any (fun c => decide (text c = code))) .invalidEnvelope
  let subject ← requireToken fault "subject"
  let detail ← requireToken fault "detail"
  check ((closedFaultDetails version code).all (fun closed =>
    closed.any (fun d => decide (text d = detail)))) .invalidEnvelope
  verifySigned k message fault a.row.device.publicKeyB64
  requireFresh a.row counters
  return { grade := gradeOf posture, deviceId := a.deviceId, bootId := counters.bootId
           seq := counters.seq, posture := posture, deviceUptimeMs := counters.uptimeMs
           code := code, subject := subject, detail := detail, version := version }

/-! ### What a verification says of the row -/

variable {k}

theorem check_eq_ok_iff {ok : Bool} {e : TelemetryError} : check ok e = .ok () ↔ ok = true := by
  unfold check refuse
  split_ifs with h
  · simp [h]
  · simp [h]

theorem inService_of_requireInService {row : FirmwareDevice} (h : requireInService row = .ok ()) :
    row.revoked = false ∧ row.approved = true := by
  unfold requireInService refuse at h
  split_ifs at h with hr ha
  exact ⟨Bool.eq_false_iff.mpr hr, ha⟩

theorem verifyTelemetryMessage_spec {message : Json} {a : VerifiedAgainst}
    {v : TelemetryVerification} (h : verifyTelemetryMessage k message a = .ok v) :
    requireInService a.row.device = .ok () ∧
      requireFresh a.row ⟨v.bootId, v.seq, v.deviceUptimeMs⟩ = .ok () ∧ v.deviceId = a.deviceId := by
  unfold verifyTelemetryMessage at h
  simp only [Execution.bind_eq_ok_iff] at h
  obtain ⟨_, hs, _, -, _, -, _, -, _, -, _, -, ⟨_, _⟩, -, _, -, counters, -, _, -, _, -, _, hf,
    hv⟩ := h
  cases hv
  exact ⟨hs, hf, rfl⟩

theorem verifyFaultMessage_spec {message : Json} {a : VerifiedAgainst}
    {v : FirmwareFaultVerification} (h : verifyFaultMessage k message a = .ok v) :
    requireInService a.row.device = .ok () ∧
      requireFresh a.row ⟨v.bootId, v.seq, v.deviceUptimeMs⟩ = .ok () ∧ v.deviceId = a.deviceId := by
  unfold verifyFaultMessage at h
  simp only [Execution.bind_eq_ok_iff] at h
  obtain ⟨_, hs, _, -, _, -, _, -, _, -, _, -, _, -, _, -, counters, -, _, -, _, -, _, -, _, -,
    _, -, _, -, _, hf, hv⟩ := h
  cases hv
  exact ⟨hs, hf, rfl⟩

end Telemetry

end OriRuntime
