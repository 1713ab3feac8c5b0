import OriRuntime.BindingVerifier
import OriRuntime.Execution

/-!
# Loading the commissioned binding at startup

`load_commissioning_state` reloads the binding in force, sets aside one that is unreadable, another
device's or short of a proof leg, and then presents the file beside the configuration. Its writes
are separate transactions, and a crash may come between any two of them.
-/

namespace OriRuntime

structure CapacityProfile where
  kind : Text
  quantity : Text
  unit : Text
  capacityParameter : Text
  multiplier : Option ℚ
deriving DecidableEq

/-- The larger of two multipliers, if any. -/
def widest : Option ℚ → Option ℚ → Option ℚ
  | none, found => found
  | multiplier, none => multiplier
  | some multiplier, some found => some (max multiplier found)

def capacityMultiplier (profiles : List CapacityProfile) (quantity unit parameter : Text) :
    Option ℚ :=
  (profiles.filter fun p => decide (p.kind = text "upper_capacity_multiplier" ∧
    p.quantity = quantity ∧ p.unit = unit ∧ p.capacityParameter = parameter)).foldl
    (fun found p => widest found p.multiplier) none

/-- What stands beside the configuration file. -/
inductive PresentedFile
  | absent
  | unreadable
  | malformed (bindingSeq : Option ℤ)
  | breaking (bindingSeq : Option ℤ)
  | envelope (e : BindingEnvelope)
deriving DecidableEq

structure Startup where
  deviceId : Text
  commissioningAnchorCurrent : Option Text
  commissioningAnchorPrevious : Option Text
  provisioningAnchor : Option Text
  sensorIds : List Text
  actuators : List ActuatorKey
  posture : Posture
  profiles : List CapacityProfile
  presented : PresentedFile
  nowMs : ℤ

structure BindingVerdict where
  stage : Text
  reason : Text
  bindingSeq : Option ℤ
  atMs : ℤ
deriving DecidableEq

structure CommissioningState where
  actuators : List ActuatorKey
  inForce : Option AcceptedBinding := none
  provisional : Option AcceptedBinding := none
  lastVerdict : Option BindingVerdict := none
  problems : List Text := []

namespace CommissioningState

variable (s : CommissioningState)

/-- Every declared actuator is bound by a zone carrying both proof legs. -/
def actuationLicensed : Bool :=
  match s.inForce with
  | none => s.actuators.isEmpty
  | some b => s.actuators.all fun key =>
    b.zones.any fun zone => zone.inForceEligible && decide (zone.identity.key = key)

def zoneForLocalGpio (gpioPin : ℤ) : Option AcceptedZone :=
  match s.inForce with
  | none => none
  | some b => (b.zoneForActuator (.localGpio gpioPin)).filter AcceptedZone.inForceEligible

def problem (name : String) : CommissioningState :=
  { s with problems := s.problems ++ [text name] }

def problemOnce (name : String) : CommissioningState :=
  if text name ∈ s.problems then s else s.problem name

end CommissioningState

inductive TableWrite
  | retainProvisional (row : BindingRow)
  | retire
  | retainCommissioned (row : BindingRow)
  | clearProvisional
deriving DecidableEq

/-- A write that raises leaves the tables as they were. -/
def TableWrite.apply (nowMs : ℤ) (t : CommissioningTables) : TableWrite → Option CommissioningTables
  | .retainProvisional row => some (t.retainProvisionalBinding row nowMs)
  | .retire => some (t.retireCommissionedBindingInForce nowMs)
  | .retainCommissioned row => t.retainCommissionedBinding row nowMs
  | .clearProvisional => some t.clearProvisionalBinding

/-- The writes in order, up to the first that raises, and whether all landed. -/
def applyWrites (nowMs : ℤ) : CommissioningTables → List TableWrite → CommissioningTables × Bool
  | t, [] => (t, true)
  | t, w :: ws =>
    match w.apply nowMs t with
    | none => (t, false)
    | some t' => applyWrites nowMs t' ws

/-! ### The load -/

def AcceptedZone.state (zone : AcceptedZone) : ZoneState where
  identity := zone.identity
  mapping := zone.mapping
  sensor := zone.sensor
  proofAtMs := zone.proofPerformedAtMs
  controlProofAtMs := zone.controlProofPerformedAtMs

/-- The retained zones by id; of two under one id the later stands. -/
def acceptedZoneState (zones : List AcceptedZone) : Dict Text ZoneState :=
  zones.foldl (fun d zone => d.set zone.zoneId zone.state) Dict.empty

def verifierContext (u : Startup) (inForce : Option AcceptedBinding) (b : BindingDocument) :
    VerifierContext where
  deviceId := u.deviceId
  commissioningAnchorCurrent := u.commissioningAnchorCurrent
  commissioningAnchorPrevious := u.commissioningAnchorPrevious
  provisioningAnchor := u.provisioningAnchor
  acceptedBindingSeq := (inForce.map AcceptedBinding.bindingSeq).getD 0
  acceptedBindingHash := inForce.map AcceptedBinding.canonicalHash
  declaredSensorIds := u.sensorIds
  declaredActuators := u.actuators
  deploymentPosture := u.posture
  profileMultiplier := b.zones.foldl (fun found zone => widest found
    (capacityMultiplier u.profiles zone.sensor.quantity zone.sensor.unit
      zone.ratedCapacityParameter)) none
  acceptedZoneState := acceptedZoneState ((inForce.map AcceptedBinding.zones).getD [])

/-- A row that holds no readable binding is reported once. -/
def readRow (row : Option BindingRow) (s : CommissioningState) :
    Option AcceptedBinding × CommissioningState :=
  match row with
  | none => (none, s)
  | some row =>
    match row.readable with
    | none => (none, s.problemOnce "retained_binding_unreadable")
    | some b => (some b, s)

def adoptProvisional (u : Startup) (provisional : Option AcceptedBinding)
    (s : CommissioningState) : CommissioningState :=
  match provisional with
  | none => s
  | some b =>
    if b.deviceId = u.deviceId then { s with provisional := some b }
    else s.problem "retained_binding_for_another_device"

/-- A retained binding that proves half a chain moves to the provisional slot where that is free,
and is retired. -/
def retireIneligible (s : CommissioningState) (retained : AcceptedBinding) (slotOccupied : Bool) :
    CommissioningState × List TableWrite :=
  if slotOccupied then (s.problem "retained_binding_not_in_force", [.retire])
  else
    (({ s with provisional := some retained }).problem "retained_binding_not_in_force",
      [.retainProvisional retained.row, .retire])

def adoptInForce (u : Startup) (retained : Option AcceptedBinding) (slotOccupied : Bool)
    (s : CommissioningState) : CommissioningState × List TableWrite :=
  match retained with
  | none => (s, [])
  | some b =>
    if b.deviceId ≠ u.deviceId then (s.problem "retained_binding_for_another_device", [])
    else if b.inForceEligible = false then retireIneligible s b slotOccupied
    else ({ s with inForce := some b }, [])

def reload (t : CommissioningTables) (u : Startup) : CommissioningState × List TableWrite :=
  let (retained, s) := readRow t.getCommissionedBindingInForce { actuators := u.actuators }
  let (provisional, s) := readRow t.provisional s
  adoptInForce u retained provisional.isSome (adoptProvisional u provisional s)

variable (crypto : BindingCrypto)

/-- Same signed bytes and same signature as the retained document. -/
def isTheBindingInForce (e : BindingEnvelope) (inForce : AcceptedBinding) : Bool :=
  decide (e.signature = inForce.signature ∧
    crypto.canonicalBytes e.binding = inForce.canonicalBytes)

def judged (u : Startup) (s : CommissioningState) (stage reason : Text)
    (bindingSeq : Option ℤ) : CommissioningState :=
  { s with lastVerdict := some ⟨stage, reason, bindingSeq, u.nowMs⟩ }

/-- A verified document comes into force with both legs on every zone, else it is provisional. -/
def takeAccepted (u : Startup) (s : CommissioningState) (accepted : AcceptedBinding) :
    CommissioningState × List TableWrite :=
  let s := judged u s (text "accepted") (text "accepted") (some accepted.bindingSeq)
  if accepted.inForceEligible = false then
    ({ s with provisional := some accepted }, [.retainProvisional accepted.row])
  else
    ({ s with
        inForce := some accepted
        provisional := none
        problems := s.problems.filter (fun p => decide (p ≠ text "binding_missing")) },
      [.retainCommissioned accepted.row, .clearProvisional])

def present (u : Startup) (s : CommissioningState) : CommissioningState × List TableWrite :=
  match u.presented with
  | .absent =>
    (if u.actuators ≠ [] ∧ s.inForce.isNone then s.problem "binding_missing" else s, [])
  | .unreadable => (judged u s (text "parses") (text "malformed") none, [])
  | .malformed bindingSeq => (judged u s (text "parses") (text "malformed") bindingSeq, [])
  | .breaking bindingSeq =>
    ((judged u s (text "parses") (text "malformed") bindingSeq).problemOnce
      "binding_verifier_error", [])
  | .envelope e =>
    if s.inForce.any (isTheBindingInForce crypto e) then
      (judged u s (text "accepted") (text "accepted") (some e.binding.bindingSeq), [])
    else
      match verifyBindingEnvelope crypto e (verifierContext u s.inForce e.binding) with
      | .error refusal =>
        (judged u s refusal.stage refusal.reason (some e.binding.bindingSeq), [])
      | .ok accepted => takeAccepted u s accepted

def loadCommissioningState (t : CommissioningTables) (u : Startup) :
    CommissioningState × List TableWrite :=
  ((present crypto u (reload t u).1).1, (reload t u).2 ++ (present crypto u (reload t u).1).2)

/-- A startup, cut off by a crash after so many writes where it does not complete. -/
structure StartupRun where
  startup : Startup
  writes : ℕ

def runStartup (t : CommissioningTables) (r : StartupRun) : Option CommissioningTables :=
  some (applyWrites r.startup.nowMs t
    ((loadCommissioningState crypto t r.startup).2.take r.writes)).1

end OriRuntime
