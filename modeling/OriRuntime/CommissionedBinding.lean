import OriRuntime.Json

/-!
# Commissioned bindings in the store

Two tables: the bindings that came into force, each under a `binding_seq` and a canonical hash no
other row has, all but the current one retired; and one provisional record. A zone licenses an
actuator only with both proof legs.
-/

namespace OriRuntime

inductive CoilState
  | energised
  | deEnergised
deriving DecidableEq, Repr

inductive CircuitState
  | opened
  | closed
deriving DecidableEq, Repr

inductive ProtectedOutcome
  | openProtectedCircuit
  | closeProtectedCircuit
deriving DecidableEq, Repr

structure CommissionedMapping where
  openProtectedCircuit : CoilState
  closeProtectedCircuit : CoilState
  deEnergisedTerminalState : CircuitState
deriving DecidableEq, Repr

def CommissionedMapping.of (m : CommissionedMapping) : ProtectedOutcome → CoilState
  | .openProtectedCircuit => m.openProtectedCircuit
  | .closeProtectedCircuit => m.closeProtectedCircuit

inductive ActuatorIdentity
  | localGpio (gpioPin : ℤ) (activeHigh : Bool)
  | firmwareChannel (firmwareDeviceId channel : Text)
deriving DecidableEq, Repr

inductive ActuatorKey
  | localGpio (gpioPin : ℤ)
  | firmwareChannel (firmwareDeviceId channel : Text)
deriving DecidableEq, Repr

/-- `actuator_identity`: polarity is no part of what is bound. -/
def ActuatorIdentity.key : ActuatorIdentity → ActuatorKey
  | .localGpio gpioPin _ => .localGpio gpioPin
  | .firmwareChannel firmwareDeviceId channel => .firmwareChannel firmwareDeviceId channel

def ActuatorIdentity.isLocalGpio : ActuatorIdentity → Bool
  | .localGpio _ _ => true
  | .firmwareChannel _ _ => false

inductive ProofMethod
  | actuateAndObserve
  | preEnergisation
  | undemonstrated
deriving DecidableEq, Repr

inductive ControlMethod
  | commandedAndObserved
  | undemonstrated
deriving DecidableEq, Repr

structure ZoneSensor where
  sensorId : Text
  quantity : Text
  unit : Text
  rangeMin : ℚ
  rangeMax : ℚ
  direction : Text
  noiseFloor : ℚ
  calibrationRef : Text
deriving DecidableEq

structure AcceptedZone where
  zoneId : Text
  sensor : ZoneSensor
  ratedCapacityParameter : Text
  ratedCapacityValue : ℚ
  identity : ActuatorIdentity
  mapping : CommissionedMapping
  proofMethod : ProofMethod
  proofPerformedAtMs : ℤ
  controlProofMethod : Option ControlMethod
  controlProofPerformedAtMs : Option ℤ
deriving DecidableEq

/-- `zone_row_in_force_eligible`: both legs are proven. -/
def AcceptedZone.inForceEligible (z : AcceptedZone) : Bool :=
  z.identity.isLocalGpio && decide (z.proofMethod ≠ .undemonstrated) &&
    decide (z.controlProofMethod = some .commandedAndObserved)

structure AcceptedBinding where
  bindingSeq : ℤ
  canonicalHash : Text
  inventoryGeneration : ℤ
  deviceId : Text
  signerId : Text
  issuedAtMs : ℤ
  supersedes : Option Text
  zones : List AcceptedZone
  canonicalBytes : Text
  signature : Text
deriving DecidableEq

namespace AcceptedBinding

def inForceEligible (b : AcceptedBinding) : Bool := b.zones.all AcceptedZone.inForceEligible

def zoneForActuator (b : AcceptedBinding) (wanted : ActuatorKey) : Option AcceptedZone :=
  b.zones.find? (fun zone => decide (zone.identity.key = wanted))

end AcceptedBinding

/-- A retained row; its zones are nothing where `zones_json` cannot be read. -/
structure BindingRow where
  bindingSeq : ℤ
  canonicalHash : Text
  deviceId : Text
  inventoryGeneration : ℤ
  signerId : Text
  supersedes : Option Text
  canonicalJson : Text
  signature : Text
  zones : Option (List AcceptedZone)
  atMs : ℤ := 0
  retiredAtMs : Option ℤ := none
deriving DecidableEq

def AcceptedBinding.row (b : AcceptedBinding) : BindingRow where
  bindingSeq := b.bindingSeq
  canonicalHash := b.canonicalHash
  deviceId := b.deviceId
  inventoryGeneration := b.inventoryGeneration
  signerId := b.signerId
  supersedes := b.supersedes
  canonicalJson := b.canonicalBytes
  signature := b.signature
  zones := some b.zones

/-- `_readable`: the binding a row holds. -/
def BindingRow.readable (row : BindingRow) : Option AcceptedBinding :=
  row.zones.map fun zones =>
    { bindingSeq := row.bindingSeq
      canonicalHash := row.canonicalHash
      inventoryGeneration := row.inventoryGeneration
      deviceId := row.deviceId
      signerId := row.signerId
      issuedAtMs := 0
      supersedes := row.supersedes
      zones := zones
      canonicalBytes := row.canonicalJson
      signature := row.signature }

/-- `commissioned_binding`, in the order of its row ids, and the provisional record. -/
structure CommissioningTables where
  rows : List BindingRow
  provisional : Option BindingRow
deriving DecidableEq

namespace CommissioningTables

def empty : CommissioningTables := ⟨[], none⟩

variable (t : CommissioningTables)

def unretired : List BindingRow := t.rows.filter (fun row => row.retiredAtMs.isNone)

/-- The unretired row of the greatest `binding_seq`. -/
def getCommissionedBindingInForce : Option BindingRow :=
  (t.unretired.insertionSort (fun r r' => r'.bindingSeq ≤ r.bindingSeq)).head?

def retireRow (nowMs : ℤ) (row : BindingRow) : BindingRow :=
  if row.retiredAtMs = none then { row with retiredAtMs := some nowMs } else row

def retireCommissionedBindingInForce (nowMs : ℤ) : CommissioningTables :=
  { t with rows := t.rows.map (retireRow nowMs) }

/-- Refused, with nothing written, where a zone lacks a leg or the `binding_seq` or the hash is
already in the table. -/
def retainCommissionedBinding (row : BindingRow) (nowMs : ℤ) : Option CommissioningTables :=
  match row.zones with
  | none => none
  | some zones =>
    if zones = [] ∨ zones.all AcceptedZone.inForceEligible = false then none
    else if ∃ r ∈ t.rows, r.bindingSeq = row.bindingSeq ∨ r.canonicalHash = row.canonicalHash then
      none
    else
      some { t with
        rows := t.rows.map (retireRow nowMs) ++ [{ row with atMs := nowMs, retiredAtMs := none }] }

def retainProvisionalBinding (row : BindingRow) (nowMs : ℤ) : CommissioningTables :=
  { t with provisional := some { row with atMs := nowMs } }

def clearProvisionalBinding : CommissioningTables := { t with provisional := none }

end CommissioningTables

end OriRuntime
