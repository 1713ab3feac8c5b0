import OriRuntime.FirmwareLifecycle
import OriRuntime.FirmwareTelemetry

/-!
# The telemetry gate

`FirmwareTelemetryGate` of `ori/security/firmware/ingest.py`: each call verifies a message against
the row it read and advances the mark under that row, reading again where the advance was lost. A
call is resumed at each of its awaits, so others and the anchor lifecycle run between them.
-/

namespace OriRuntime

namespace TelemetryGate

open FirmwareStore (DeviceRead AnchorOp Advance)
open Telemetry (VerifiedAgainst)
open Json (loads dictOf dumps)

inductive MessageFamily where
  | telemetry
  | fault
  deriving DecidableEq

def MessageFamily.name : MessageFamily → String
  | .telemetry => "envelope"
  | .fault => "fault"

inductive VerifiedMessage where
  | telemetry (v : TelemetryVerification)
  | fault (v : FirmwareFaultVerification)
  deriving DecidableEq

namespace VerifiedMessage

def deviceId : VerifiedMessage → Text
  | telemetry v => v.deviceId
  | fault v => v.deviceId

def counters : VerifiedMessage → Telemetry.Counters
  | telemetry v => ⟨v.bootId, v.seq, v.deviceUptimeMs⟩
  | fault v => ⟨v.bootId, v.seq, v.deviceUptimeMs⟩

end VerifiedMessage

inductive IngestAnswer where
  | accepted (v : VerifiedMessage) (a : VerifiedAgainst)
  | rejected (e : TelemetryError)
  | raised

/-- Where a call waits: for the row, its advance, the row again, or the row its refusal is read
against. -/
inductive IngestPhase where
  | reading
  | advancing (a : VerifiedAgainst) (v : VerifiedMessage) (attempts : ℕ)
  | rereading (a : VerifiedAgainst) (v : VerifiedMessage) (attempts : ℕ)
  | explaining (v : VerifiedMessage)
  | done (answer : IngestAnswer)

structure IngestCall where
  family : MessageFamily
  message : Json
  receivedAtMs : ℤ
  phase : IngestPhase := .reading

/-- A message whose advance landed, with what it was verified against. -/
structure Acceptance where
  message : Json
  receivedAtMs : ℤ
  verified : VerifiedMessage
  against : VerifiedAgainst

/-- What `_stored_manifest_refusal` decided, by device and capability hash. -/
abbrev ManifestPolicy := Dict (Text × Text) (Option Text)

structure State where
  store : FirmwareStore := {}
  policy : ManifestPolicy := Dict.empty
  calls : List IngestCall := []
  accepted : List Acceptance := []

def maxLostAdvances : ℕ := 3

variable (k : TelemetryKeys)

def IngestCall.deviceId (c : IngestCall) : Text :=
  match (c.message.get? c.family.name).bind (fun inner => inner.get? "device_id") with
  | some (.str s) => s
  | _ => []

/-- `get_firmware_device`; nothing where a column is no JSON. -/
def readDevice (st : FirmwareStore) (deviceId : Text) : Option (Option VerifiedAgainst) :=
  match st.getFirmwareDevice deviceId with
  | none => some none
  | some row =>
    match loads dictOf row.device.manifestJson, loads dictOf row.device.channelMapJson with
    | some manifest, some channelMap =>
      some (some { deviceId := deviceId, row := row, manifest := manifest, channelMap := channelMap })
    | _, _ => none

def storedManifestRefusal (policy : ManifestPolicy) (a : VerifiedAgainst) :
    Option Text × ManifestPolicy :=
  let key := (a.deviceId, a.row.device.capabilityHash)
  match policy.get? key with
  | some refusal => (refusal, policy)
  | none =>
    let refusal := k.manifestPolicy a.manifest
    (refusal, policy.set key refusal)

def verify (family : MessageFamily) (message : Json) (a : VerifiedAgainst) :
    Telemetry.Verified VerifiedMessage :=
  match family with
  | .telemetry => (Telemetry.verifyTelemetryMessage k message a).map .telemetry
  | .fault => (Telemetry.verifyFaultMessage k message a).map .fault

/-- One pass of the loop, up to its advance. -/
def judge (policy : ManifestPolicy) (c : IngestCall) (row : Option VerifiedAgainst)
    (attempts : ℕ) : IngestPhase × ManifestPolicy :=
  match row with
  | none => (.done (.rejected .anchorMissing), policy)
  | some a =>
    let r := storedManifestRefusal k policy a
    match r.1 with
    | some code => (.done (.rejected (.manifestRefused code)), r.2)
    | none =>
      match verify k c.family c.message a with
      | .error (.refused e) => (.done (.rejected e), r.2)
      | .error .raised => (.done .raised, r.2)
      | .ok v =>
        if maxLostAdvances ≤ attempts then (.done (.rejected .anchorUnstable), r.2)
        else (.advancing a v attempts, r.2)

def gradeName : TelemetryGrade → String
  | .attested => "attested"
  | .attestedDev => "attested_dev"

/-- The columns of a fault row past its key. -/
def faultEvent (message : Json) (receivedAtMs : ℤ) (v : FirmwareFaultVerification)
    (a : VerifiedAgainst) : Text :=
  dumps (.obj [("grade", .str (text (gradeName v.grade))), ("posture", .str v.posture),
    ("capability_hash", .str a.row.device.capabilityHash), ("code", .str v.code),
    ("subject", .str v.subject), ("detail", .str v.detail),
    ("device_uptime_ms", .int v.deviceUptimeMs), ("received_at_ms", .int receivedAtMs),
    ("fault_json", .str (dumps ((message.get? "fault").getD (.obj []))))])

/-- `record`, which only faults have. -/
def recorded (message : Json) (receivedAtMs : ℤ) (v : VerifiedMessage) (a : VerifiedAgainst) :
    Option Text :=
  match v with
  | .telemetry _ => none
  | .fault f => some (faultEvent message receivedAtMs f a)

def advance (st : FirmwareStore) (c : IngestCall) (a : VerifiedAgainst) (v : VerifiedMessage) :
    Advance :=
  st.advanceFirmwareFreshness v.deviceId v.counters.bootId v.counters.seq v.counters.uptimeMs
    a.row.device.toAnchorColumns a.row.activationId (recorded c.message c.receivedAtMs v a)

def freshnessRefusal (v : VerifiedMessage) (row : Option VerifiedAgainst) : TelemetryError :=
  match row with
  | none => .sequenceReplay
  | some a =>
    if a.row.device.revoked then .deviceRevoked
    else if a.row.device.approved = false then .deviceNotApproved
    else if v.counters.bootId < a.row.device.lastBootId then .bootRollback
    else if v.counters.bootId = a.row.device.lastBootId ∧ a.row.device.lastSeq < v.counters.seq ∧
        a.row.lastUptimeMs.any (fun u => decide (v.counters.uptimeMs < u)) then .uptimeRegression
    else .sequenceReplay

/-- The anchor and the activation are still those the message was verified against. -/
def sameAnchor (a : VerifiedAgainst) (current : Option VerifiedAgainst) : Bool :=
  current.any (fun b => decide (b.row.device.toAnchorColumns = a.row.device.toAnchorColumns ∧
    b.row.activationId = a.row.activationId))

structure Resumed where
  store : FirmwareStore
  policy : ManifestPolicy
  phase : IngestPhase
  accepted : Option Acceptance := none

def judged (st : FirmwareStore) (r : IngestPhase × ManifestPolicy) : Resumed where
  store := st
  policy := r.2
  phase := r.1

/-- A call resumed: its await's result, and what it does up to the next. -/
def resume (st : FirmwareStore) (policy : ManifestPolicy) (c : IngestCall) : Option Resumed :=
  match c.phase with
  | .reading =>
    if c.deviceId = [] then some (judged st (judge k policy c none 0))
    else
      match readDevice st c.deviceId with
      | none => some { store := st, policy := policy, phase := .done .raised }
      | some row => some (judged st (judge k policy c row 0))
  | .advancing a v attempts =>
    match advance st c a v with
    | .advanced st' =>
      some { store := st', policy := policy, phase := .done (.accepted v a)
             accepted := some { message := c.message, receivedAtMs := c.receivedAtMs
                                verified := v, against := a } }
    | .lost => some { store := st, policy := policy, phase := .rereading a v (attempts + 1) }
    | .raised => some { store := st, policy := policy, phase := .done .raised }
  | .rereading a v attempts =>
    match readDevice st c.deviceId with
    | none => some { store := st, policy := policy, phase := .done .raised }
    | some current =>
      if sameAnchor a current then some { store := st, policy := policy, phase := .explaining v }
      else some (judged st (judge k policy c current attempts))
  | .explaining v =>
    match readDevice st v.deviceId with
    | none => some { store := st, policy := policy, phase := .done .raised }
    | some row =>
      some { store := st, policy := policy, phase := .done (.rejected (freshnessRefusal v row)) }
  | .done _ => none

inductive Label where
  | lifecycle (op : AnchorOp)
  | ingest (family : MessageFamily) (message : Json) (receivedAtMs : ℤ)
  | resume (i : ℕ)
  /-- The process ends: its calls are gone, what the store committed stays. -/
  | restart

def step (s : State) : Label → Option State
  | .lifecycle op => (s.store.perform k.toFirmwareKeys op).map (fun st => { s with store := st })
  | .ingest family message receivedAtMs =>
    some { s with calls := s.calls ++ [{ family := family, message := message
                                         receivedAtMs := receivedAtMs }] }
  | .resume i =>
    match s.calls[i]? with
    | none => none
    | some c =>
      (resume k s.store s.policy c).map (fun r =>
      { s with store := r.store, policy := r.policy
               calls := s.calls.set i { c with phase := r.phase }
               accepted := s.accepted ++ r.accepted.toList })
  | .restart => some { s with policy := Dict.empty, calls := [] }

end TelemetryGate

end OriRuntime
