import OriRuntime.CommissionedBinding
import OriRuntime.Dict

/-!
# Verifying a binding document

A document that parses is decided by eleven further stages in a fixed order, each against the
verifier's context. The revision rule of `proof_consistency` reads the zones of the binding in
force as a dictionary keyed by zone id.
-/

namespace OriRuntime

/-! ### Documents -/

structure ProofObservation where
  commanded : ProtectedOutcome
  coilState : CoilState
  loadPresentBefore : Bool
  loadPresentAfter : Bool
  terminalStateObserved : CircuitState
  gpioHigh : Option Bool := none
  sensorReadings : Option (ℚ × ℚ) := none
deriving DecidableEq

structure ControlLeg where
  method : ControlMethod
  performedAtMs : ℤ
  observations : List ProofObservation
deriving DecidableEq

structure ZoneProof where
  method : ProofMethod
  performedAtMs : ℤ
  observations : List ProofObservation
  controlPath : Option ControlLeg
deriving DecidableEq

structure DocumentZone where
  zoneId : Text
  ratedCapacityParameter : Text
  ratedCapacityValue : ℚ
  sensor : ZoneSensor
  identity : ActuatorIdentity
  mapping : CommissionedMapping
  proof : ZoneProof
deriving DecidableEq

/-- The signed part of the envelope, of the shape the grammar closes. -/
structure BindingDocument where
  bindingSeq : ℤ
  deviceId : Text
  issuedAtMs : ℤ
  signerId : Text
  signingKey : Text
  inventoryGeneration : ℤ
  supersedes : Option Text
  actor : Text
  reason : Text
  zones : List DocumentZone
deriving DecidableEq

structure BindingEnvelope where
  binding : BindingDocument
  signature : Text
deriving DecidableEq

/-! ### The context -/

structure ZoneState where
  identity : ActuatorIdentity
  mapping : CommissionedMapping
  sensor : ZoneSensor
  proofAtMs : ℤ
  controlProofAtMs : Option ℤ
deriving DecidableEq

inductive Posture
  | development
  | staging
  | production
deriving DecidableEq, Repr

structure VerifierContext where
  deviceId : Text
  commissioningAnchorCurrent : Option Text
  commissioningAnchorPrevious : Option Text
  provisioningAnchor : Option Text
  acceptedBindingSeq : ℤ
  acceptedBindingHash : Option Text
  declaredSensorIds : List Text
  declaredActuators : List ActuatorKey
  deploymentPosture : Posture
  profileMultiplier : Option ℚ
  acceptedZoneState : Dict Text ZoneState

structure BindingRefused where
  stage : Text
  reason : Text
deriving DecidableEq, Repr

/-- Keys, signatures and canonical bytes, as the libraries and the encoder compute them. -/
structure BindingCrypto where
  keyIdentity : Text → Text
  verifies : Text → Text → Text → Bool
  canonicalBytes : BindingDocument → Text
  sha256Hex : Text → Text

/-! ### The stages -/

abbrev StageResult := Except BindingRefused Unit

def refuse (stage reason : String) : StageResult := .error ⟨text stage, text reason⟩

def refuseIf (c : Prop) [Decidable c] (stage reason : String) : StageResult :=
  if c then refuse stage reason else .ok ()

/-- What the grammar asks of a document's numbers and lists. -/
def stParses (b : BindingDocument) : StageResult :=
  refuseIf (b.bindingSeq < 1 ∨ b.inventoryGeneration < 1 ∨ b.zones = [] ∨
    ∃ zone ∈ b.zones, ¬ zone.sensor.rangeMin < zone.sensor.rangeMax ∨ zone.sensor.noiseFloor ≤ 0 ∨
      (zone.proof.method = .undemonstrated ↔ zone.proof.observations ≠ []) ∨
      (zone.identity.isLocalGpio = false ∧ ∃ ob ∈ zone.proof.observations, ob.gpioHigh ≠ none) ∨
      ∃ leg ∈ zone.proof.controlPath.toList,
        (leg.method = .undemonstrated ↔ leg.observations ≠ []) ∨
        (leg.method = .commandedAndObserved ∧ (zone.identity.isLocalGpio = false ∨
          ∃ ob ∈ leg.observations, ob.gpioHigh = none)))
    "parses" "malformed"

def stDeviceId (b : BindingDocument) (ctx : VerifierContext) : StageResult :=
  refuseIf (b.deviceId ≠ ctx.deviceId) "device_id" "wrong_device"

section Keys

variable (crypto : BindingCrypto)

def sameHolder (key : Text) (others : List (Option Text)) : Bool :=
  others.any fun other => decide (other.map crypto.keyIdentity = some (crypto.keyIdentity key))

def anchorCollision (ctx : VerifierContext) : Bool :=
  match ctx.provisioningAnchor with
  | none => false
  | some provisioning => sameHolder crypto provisioning
      [ctx.commissioningAnchorCurrent, ctx.commissioningAnchorPrevious]

def stKeySelection (b : BindingDocument) (ctx : VerifierContext) : StageResult :=
  if anchorCollision crypto ctx then refuse "key_selection" "anchor_collision"
  else refuseIf (some b.signingKey ∉ [ctx.commissioningAnchorCurrent,
    ctx.commissioningAnchorPrevious, ctx.provisioningAnchor]) "key_selection" "unknown_signer"

def stSignature (b : BindingDocument) (signature : Text) : StageResult :=
  refuseIf (crypto.verifies b.signingKey signature (crypto.canonicalBytes b) = false)
    "signature" "bad_signature"

def stAuthority (b : BindingDocument) (ctx : VerifierContext) : StageResult :=
  if ctx.provisioningAnchor.isSome ∧ sameHolder crypto b.signingKey [ctx.provisioningAnchor] then
    refuse "authority" "wrong_authority"
  else if ctx.commissioningAnchorPrevious = some b.signingKey then
    refuse "authority" "superseded_signer"
  else
    refuseIf (ctx.commissioningAnchorCurrent ≠ some b.signingKey) "authority" "unknown_signer"

end Keys

def stFreshness (b : BindingDocument) (ctx : VerifierContext) : StageResult :=
  if b.bindingSeq ≤ ctx.acceptedBindingSeq then refuse "freshness" "stale"
  else refuseIf (b.supersedes ≠ ctx.acceptedBindingHash) "freshness" "stale"

/-- The stages that go zone by zone stop at the first refusal. -/
def eachZone (check : DocumentZone → StageResult) : List DocumentZone → StageResult
  | [] => .ok ()
  | zone :: zones => (check zone).bind (fun _ => eachZone check zones)

def checkMapping (zone : DocumentZone) : StageResult :=
  if zone.mapping.openProtectedCircuit = zone.mapping.closeProtectedCircuit then
    refuse "mapping_self_consistency" "mapping_contradiction"
  else
    refuseIf (¬ (zone.mapping.openProtectedCircuit = .deEnergised ↔
      zone.mapping.deEnergisedTerminalState = .opened))
      "mapping_self_consistency" "mapping_contradiction"

def stMappingSelfConsistency (b : BindingDocument) : StageResult := eachZone checkMapping b.zones

/-- An observation agrees with the mapping, the sensor and the polarity. -/
def observationAgrees (zone : DocumentZone) (ob : ProofObservation) : Bool :=
  decide (ob.coilState = zone.mapping.of ob.commanded) &&
  decide (ob.terminalStateObserved =
    if ob.commanded = .openProtectedCircuit then .opened else .closed) &&
  decide ((ob.loadPresentBefore, ob.loadPresentAfter) =
    if ob.commanded = .openProtectedCircuit then (true, false) else (false, true)) &&
  (match ob.sensorReadings with
    | none => true
    | some (before, after) => decide (zone.sensor.noiseFloor < |after - before|) &&
        (decide (0 < after - before) == ob.loadPresentAfter)) &&
  match ob.gpioHigh, zone.identity with
    | none, _ => true
    | some high, .localGpio _ activeHigh =>
      high == (decide (ob.coilState = .energised) == activeHigh)
    | some _, .firmwareChannel _ _ => false

def checkObservations (zone : DocumentZone) (observations : List ProofObservation) : StageResult :=
  if observations.all (observationAgrees zone) = false then
    refuse "proof_consistency" "proof_contradiction"
  else
    refuseIf (¬ ∀ outcome ∈ [ProtectedOutcome.openProtectedCircuit, .closeProtectedCircuit],
      ∃ ob ∈ observations, ob.commanded = outcome) "proof_consistency" "proof_contradiction"

def checkLegs (zone : DocumentZone) : StageResult :=
  (if zone.proof.method = .undemonstrated then .ok ()
    else checkObservations zone zone.proof.observations).bind fun _ =>
  match zone.proof.controlPath with
  | none => .ok ()
  | some leg =>
    if leg.method = .undemonstrated then .ok () else checkObservations zone leg.observations

def sameActuator : ActuatorIdentity → ActuatorIdentity → Bool
  | .localGpio pin _, .localGpio pin' _ => decide (pin = pin')
  | retained, identity => decide (retained = identity)

def retainedMatches (zone : DocumentZone) (retained : Dict Text ZoneState) : List ZoneState :=
  (retained.items.filter fun was => decide (was.1 = zone.zoneId) ||
    sameActuator was.2.identity zone.identity ||
    decide (was.2.sensor.sensorId = zone.sensor.sensorId)).map Prod.snd

def zoneChanged (was : ZoneState) (zone : DocumentZone) : Bool :=
  decide (was.identity ≠ zone.identity ∨ was.mapping ≠ zone.mapping ∨ was.sensor ≠ zone.sensor)

def staleAgainst (zone : DocumentZone) (was : ZoneState) : Bool :=
  zoneChanged was zone &&
    (decide (zone.proof.method ≠ .undemonstrated ∧ zone.proof.performedAtMs ≤ was.proofAtMs) ||
      match zone.proof.controlPath, was.controlProofAtMs with
      | some leg, some controlProofAtMs => decide (leg.method = .commandedAndObserved ∧
          leg.performedAtMs ≤ controlProofAtMs)
      | _, _ => false)

def checkRevision (ctx : VerifierContext) (zone : DocumentZone) : StageResult :=
  refuseIf ((retainedMatches zone ctx.acceptedZoneState).any (staleAgainst zone) = true)
    "proof_consistency" "stale_proof"

def stProofConsistency (b : BindingDocument) (ctx : VerifierContext) : StageResult :=
  (eachZone checkLegs b.zones).bind fun _ => eachZone (checkRevision ctx) b.zones

def checkBounds (ctx : VerifierContext) (zone : DocumentZone) : StageResult :=
  if zone.ratedCapacityValue ≤ 0 ∨ zone.sensor.rangeMax < zone.ratedCapacityValue ∨
      zone.ratedCapacityValue < zone.sensor.rangeMin then
    refuse "bounds" "out_of_bounds"
  else
    refuseIf (∃ multiplier ∈ ctx.profileMultiplier.toList,
      zone.sensor.rangeMax < zone.ratedCapacityValue * multiplier) "bounds" "out_of_bounds"

def stBounds (b : BindingDocument) (ctx : VerifierContext) : StageResult :=
  eachZone (checkBounds ctx) b.zones

def stDisambiguation (b : BindingDocument) : StageResult :=
  refuseIf (¬ (b.zones.map (fun zone => zone.sensor.sensorId)).Nodup ∨
    ¬ (b.zones.map (fun zone => zone.identity.key)).Nodup) "disambiguation" "ambiguous_binding"

def checkDeclared (ctx : VerifierContext) (zone : DocumentZone) : StageResult :=
  refuseIf (zone.sensor.sensorId ∉ ctx.declaredSensorIds ∨
    zone.identity.key ∉ ctx.declaredActuators) "inventory" "unknown_hardware"

def stInventory (b : BindingDocument) (ctx : VerifierContext) : StageResult :=
  (eachZone (checkDeclared ctx) b.zones).bind fun _ =>
    refuseIf (∃ key ∈ ctx.declaredActuators, key ∉ b.zones.map (fun zone => zone.identity.key))
      "inventory" "unbound_actuator"

def checkDemonstrated (zone : DocumentZone) : StageResult :=
  refuseIf (zone.proof.method = .undemonstrated) "activation_posture" "undemonstrated_binding"

def stActivationPosture (b : BindingDocument) (ctx : VerifierContext) : StageResult :=
  if ctx.deploymentPosture = .development then .ok () else eachZone checkDemonstrated b.zones

/-! ### The verdict -/

def DocumentZone.accepted (zone : DocumentZone) : AcceptedZone where
  zoneId := zone.zoneId
  sensor := zone.sensor
  ratedCapacityParameter := zone.ratedCapacityParameter
  ratedCapacityValue := zone.ratedCapacityValue
  identity := zone.identity
  mapping := zone.mapping
  proofMethod := zone.proof.method
  proofPerformedAtMs := zone.proof.performedAtMs
  controlProofMethod := zone.proof.controlPath.map ControlLeg.method
  controlProofPerformedAtMs := zone.proof.controlPath.map ControlLeg.performedAtMs

variable (crypto : BindingCrypto)

def BindingEnvelope.accepted (e : BindingEnvelope) : AcceptedBinding where
  bindingSeq := e.binding.bindingSeq
  canonicalHash := text "sha256:" ++ crypto.sha256Hex (crypto.canonicalBytes e.binding)
  inventoryGeneration := e.binding.inventoryGeneration
  deviceId := e.binding.deviceId
  signerId := e.binding.signerId
  issuedAtMs := e.binding.issuedAtMs
  supersedes := e.binding.supersedes
  zones := e.binding.zones.map DocumentZone.accepted
  canonicalBytes := crypto.canonicalBytes e.binding
  signature := e.signature

/-- Every stage, in the contract's order. -/
def stages (e : BindingEnvelope) (ctx : VerifierContext) : List StageResult :=
  [stParses e.binding, stDeviceId e.binding ctx, stKeySelection crypto e.binding ctx,
    stSignature crypto e.binding e.signature, stAuthority crypto e.binding ctx,
    stFreshness e.binding ctx, stMappingSelfConsistency e.binding,
    stProofConsistency e.binding ctx, stBounds e.binding ctx, stDisambiguation e.binding,
    stInventory e.binding ctx, stActivationPosture e.binding ctx]

def firstRefusal : List StageResult → StageResult
  | [] => .ok ()
  | .ok () :: rest => firstRefusal rest
  | .error refusal :: _ => .error refusal

def verifyBindingEnvelope (e : BindingEnvelope) (ctx : VerifierContext) :
    Except BindingRefused AcceptedBinding :=
  (firstRefusal (stages crypto e ctx)).map (fun _ => e.accepted crypto)

/-! ### What acceptance says of each stage -/

theorem refuseIf_eq_ok {c : Prop} [Decidable c] {stage reason : String} :
    refuseIf c stage reason = .ok () ↔ ¬ c := by
  unfold refuseIf refuse
  split_ifs with hc
  · exact ⟨fun h => (nomatch h), fun h => absurd hc h⟩
  · exact ⟨fun _ => hc, fun _ => rfl⟩

theorem bind_eq_ok {r : StageResult} {next : Unit → StageResult} :
    r.bind next = .ok () ↔ r = .ok () ∧ next () = .ok () := by
  cases r with
  | error refusal => exact ⟨fun h => (nomatch h), fun h => nomatch h.1⟩
  | ok _ => exact ⟨fun h => ⟨rfl, h⟩, fun h => h.2⟩

theorem eachZone_eq_ok {check : DocumentZone → StageResult} {zones : List DocumentZone} :
    eachZone check zones = .ok () ↔ ∀ zone ∈ zones, check zone = .ok () := by
  induction zones with
  | nil => exact ⟨fun _ _ hz => (nomatch hz), fun _ => rfl⟩
  | cons zone zones ih =>
    unfold eachZone
    rw [bind_eq_ok, ih, List.forall_mem_cons]

theorem firstRefusal_eq_ok {results : List StageResult} :
    firstRefusal results = .ok () ↔ ∀ r ∈ results, r = .ok () := by
  induction results with
  | nil => exact ⟨fun _ _ hr => (nomatch hr), fun _ => rfl⟩
  | cons r results ih =>
    rw [List.forall_mem_cons]
    cases r with
    | ok _ => exact ⟨fun h => ⟨rfl, ih.mp h⟩, fun h => ih.mpr h.2⟩
    | error refusal => exact ⟨fun h => (nomatch h), fun h => nomatch h.1⟩

variable {crypto} {e : BindingEnvelope} {ctx : VerifierContext} {b : AcceptedBinding}

theorem verifyBindingEnvelope_eq_ok : verifyBindingEnvelope crypto e ctx = .ok b ↔
    (∀ r ∈ stages crypto e ctx, r = .ok ()) ∧ b = e.accepted crypto := by
  rw [← firstRefusal_eq_ok]
  unfold verifyBindingEnvelope
  cases firstRefusal (stages crypto e ctx) with
  | ok _ => exact ⟨fun h => ⟨rfl, (Except.ok.inj h).symm⟩, fun h => h.2 ▸ rfl⟩
  | error refusal => exact ⟨fun h => (nomatch h), fun h => nomatch h.1⟩

theorem stage_ok (h : verifyBindingEnvelope crypto e ctx = .ok b) {r : StageResult}
    (hr : r ∈ stages crypto e ctx) : r = .ok () :=
  (verifyBindingEnvelope_eq_ok.mp h).1 r hr

theorem accepted_of_ok (h : verifyBindingEnvelope crypto e ctx = .ok b) : b = e.accepted crypto :=
  (verifyBindingEnvelope_eq_ok.mp h).2

theorem fresh_of_ok (h : verifyBindingEnvelope crypto e ctx = .ok b) :
    ctx.acceptedBindingSeq < b.bindingSeq ∧ b.supersedes = ctx.acceptedBindingHash ∧
      b.deviceId = ctx.deviceId := by
  have hf : stFreshness e.binding ctx = .ok () := stage_ok h (by simp [stages])
  have hd : stDeviceId e.binding ctx = .ok () := stage_ok h (by simp [stages])
  obtain rfl := accepted_of_ok h
  unfold stFreshness at hf
  split_ifs at hf with hs
  · cases hf
  · exact ⟨not_le.mp hs, not_not.mp (refuseIf_eq_ok.mp hf), not_not.mp (refuseIf_eq_ok.mp hd)⟩

end OriRuntime
