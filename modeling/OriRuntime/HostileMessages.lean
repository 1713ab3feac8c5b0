import OriRuntime.CanonicalZone
import OriRuntime.FirmwareTelemetry

/-!
# Hostile firmware messages

Where `verify_telemetry_message` and `verify_fault_message` raise instead of returning a
verification. Every refusal is caught by its one type of exception; what the encoder raises on a
lone surrogate is of another.
-/

namespace OriRuntime

open List Option

namespace Json

mutual

/-- A value JSON has a form for. -/
def Formed : Json → Prop
  | .other _ => False
  | .list xs => FormedList xs
  | .dict items => FormedItems items
  | _ => True

def FormedList : List Json → Prop
  | [] => True
  | v :: vs => Formed v ∧ FormedList vs

def FormedItems : List (Option Text × Json) → Prop
  | [] => True
  | (key, v) :: rest => key.isSome = true ∧ Formed v ∧ FormedItems rest

end

theorem formedItems_iff {items : List (Option Text × Json)} :
    FormedItems items ↔ ∀ item ∈ items, item.1.isSome = true ∧ Formed item.2 := by
  induction items with
  | nil => exact ⟨fun _ => by simp, fun _ => trivial⟩
  | cons item rest ih =>
    rw [FormedItems, ih, forall_mem_cons, and_assoc]

theorem Formed.get? {v w : Json} {key : String} (h : Formed v) (hg : v.get? key = some w) :
    Formed w := by
  cases v with
  | dict items =>
    obtain ⟨item, hitem, rfl⟩ := map_eq_some_iff.mp hg
    exact (formedItems_iff.mp h item (mem_of_find?_eq_some hitem)).2
  | _ => cases hg

/-- A fault of the rules, not of the encoder. -/
def CanonicalFault.ofRules : CanonicalFault → Bool
  | .noForm _ => false
  | .loneSurrogate => false
  | _ => true

mutual

theorem reject_ofRules : ∀ (v : Json) (path : List PathStep) (e : CanonicalisationError), Formed v →
    reject path v = .error e → CanonicalFault.ofRules e.fault = true
  | .null, _, _, _, h | .bool _, _, _, _, h | .str _, _, _, _, h => nomatch h
  | .int n, path, e, _, h => by
      rw [reject] at h
      split_ifs at h
      obtain rfl := Except.error.inj h
      rfl
  | .float .nan, _, _, _, h | .float (.infinity _), _, _, _, h => by
      obtain rfl := Except.error.inj h
      rfl
  | .float (.finite d), path, e, _, h => by
      rw [reject] at h
      split_ifs at h
      obtain rfl := Except.error.inj h
      rfl
  | .other _, _, _, hf, _ => hf.elim
  | .list xs, path, e, hf, h => rejectList_ofRules xs path 0 e hf h
  | .dict items, path, e, hf, h => rejectItems_ofRules items path e hf h

theorem rejectList_ofRules : ∀ (xs : List Json) (path : List PathStep) (i : ℕ)
    (e : CanonicalisationError), FormedList xs → rejectList path i xs = .error e →
      CanonicalFault.ofRules e.fault = true
  | [], _, _, _, _, h => nomatch h
  | v :: vs, path, i, e, hf, h => by
      rw [rejectList] at h
      cases hv : reject (path ++ [.index i]) v with
      | error e' =>
        rw [hv] at h
        obtain rfl := Except.error.inj h
        exact reject_ofRules v _ _ hf.1 hv
      | ok u =>
        rw [hv] at h
        exact rejectList_ofRules vs path (i + 1) e hf.2 h

theorem rejectItems_ofRules : ∀ (items : List (Option Text × Json)) (path : List PathStep)
    (e : CanonicalisationError), FormedItems items → rejectItems path items = .error e →
      CanonicalFault.ofRules e.fault = true
  | [], _, _, _, h => nomatch h
  | (none, _) :: _, _, _, hf, _ => nomatch hf.1
  | (some key, v) :: rest, path, e, hf, h => by
      rw [rejectItems] at h
      cases hv : reject (path ++ [.member key]) v with
      | error e' =>
        rw [hv] at h
        obtain rfl := Except.error.inj h
        exact reject_ofRules v _ _ hf.2.1 hv
      | ok u =>
        rw [hv] at h
        exact rejectItems_ofRules rest path e hf.2.2 h

end

/-- Every number is in the zone, and some string holds a lone surrogate. -/
def Unencodable (v : Json) : Prop := InZone v ∧ ¬ Plain v

end Json

namespace Telemetry

open Json (Formed Unencodable)

variable {k : TelemetryKeys} {α β : Type}

/-! ### Raising -/

def Raises (x : Verified α) : Prop := x = .error .raised

variable {f : α → Verified β} {e : TelemetryError} {key family : String}
  {obj message accepted envelope : Json} {s hash posture : Text} {u : Unit} {a : VerifiedAgainst}

variable {x : Verified α} {ok : Bool} {deviceId publicKeyB64 : Text} {v : Json}

theorem raises_bind_iff : Raises (x >>= f) ↔ Raises x ∨ ∃ a, x = .ok a ∧ Raises (f a) := by
  cases x with
  | error e =>
    constructor
    · intro h
      exact .inl (congrArg Except.error (Except.error.inj h))
    · rintro (h | ⟨a, h, -⟩)
      · exact congrArg Except.error (Except.error.inj h)
      · cases h
  | ok a =>
    constructor
    · intro h
      exact .inr ⟨a, rfl, h⟩
    · rintro (h | ⟨_, ⟨⟩, h⟩)
      · cases h
      · exact h

theorem not_raises_ok {a : α} : ¬ Raises (.ok a : Verified α) := nofun

theorem not_raises_refuse : ¬ Raises (refuse e : Verified α) := nofun

theorem not_raises_check : ¬ Raises (check ok e) := by
  unfold check
  split_ifs <;> exact nofun

theorem not_raises_requireStr : ¬ Raises (requireStr obj key e) := by
  unfold requireStr
  split
  · split_ifs <;> exact nofun
  · exact nofun

theorem not_raises_requireInt : ¬ Raises (requireInt obj key e) := by
  unfold requireInt
  split
  · split_ifs <;> exact nofun
  · exact nofun

theorem not_raises_requireInService {row : FirmwareDevice} : ¬ Raises (requireInService row) := by
  unfold requireInService
  split_ifs <;> exact nofun

theorem not_raises_requireFamily : ¬ Raises (requireFamily message family) := by
  unfold requireFamily
  split_ifs
  · exact nofun
  · split <;> exact nofun

theorem not_raises_requireAlg : ¬ Raises (requireAlg obj) := by
  unfold requireAlg
  split
  · exact not_raises_check
  · exact nofun

theorem not_raises_bind (hx : ¬ Raises x) (hf : ∀ a, ¬ Raises (f a)) : ¬ Raises (x >>= f) := by
  rw [raises_bind_iff]
  rintro (h | ⟨a, -, h⟩)
  · exact hx h
  · exact hf a h

theorem not_raises_requireDevice : ¬ Raises (requireDevice obj deviceId) :=
  not_raises_bind not_raises_requireStr fun _ => not_raises_check

theorem not_raises_requireCapability : ¬ Raises (requireCapability obj hash) :=
  not_raises_bind not_raises_requireStr fun _ =>
    not_raises_bind not_raises_check fun _ => not_raises_ok

theorem not_raises_requirePosture : ¬ Raises (requirePosture obj posture) :=
  not_raises_bind not_raises_requireStr fun _ =>
    not_raises_bind not_raises_check fun _ =>
      not_raises_bind not_raises_check fun _ => not_raises_ok

theorem not_raises_requireCounters : ¬ Raises (requireCounters obj) :=
  not_raises_bind not_raises_requireInt fun _ =>
    not_raises_bind not_raises_requireInt fun _ =>
      not_raises_bind not_raises_requireInt fun _ => not_raises_ok

theorem not_raises_requireFresh {row : FirmwareStore.DeviceRead} {c : Counters} :
    ¬ Raises (requireFresh row c) := by
  unfold requireFresh
  split_ifs <;> exact nofun

theorem not_raises_envelopeVersion : ¬ Raises (envelopeVersion envelope) := by
  have hk : ∀ v, ¬ Raises (envelopeVersion.onlyKnown envelope v) := by
    unfold envelopeVersion.onlyKnown
    split_ifs <;> exact nofun
  unfold envelopeVersion
  split
  · split_ifs <;> exact nofun
  · split
    · exact nofun
    · exact hk _
    · split_ifs
      · exact hk _
      · exact nofun
    · exact nofun
  · exact nofun

theorem not_raises_requireEmittedAt : ¬ Raises (requireEmittedAt envelope) := by
  unfold requireEmittedAt
  split <;> exact nofun

theorem not_raises_requireNumber : ¬ Raises (requireNumber obj key) := by
  unfold requireNumber
  split <;> exact nofun

/-- What `manifest_channel_map` builds: an object for each channel, with a number for its floor. -/
def ChannelsFormed (accepted : Json) : Prop :=
  ∃ items, accepted = .dict items ∧ ∀ item ∈ items, ∃ entry, item.2 = .dict entry ∧
    ∀ floor, (Json.dict entry).get? "quality_floor" = some floor → floor.number.isSome = true

theorem not_raises_requireChannel (h : ChannelsFormed accepted) {channel sensorType unit : Text}
    {quality : ℚ} : ¬ Raises (requireChannel accepted channel sensorType unit quality) := by
  obtain ⟨items, rfl, hi⟩ := h
  unfold requireChannel
  dsimp only
  cases hd : Json.find? items (some channel) with
  | none => exact nofun
  | some v =>
    obtain ⟨item, hitem, rfl⟩ := map_eq_some_iff.mp hd
    obtain ⟨entry, he, hf⟩ := hi item (mem_of_find?_eq_some hitem)
    rw [he]
    dsimp only
    unfold requireChannel.describes
    split_ifs
    · exact nofun
    · split
      · exact nofun
      · exact nofun
      · rename_i floor _ hg
        have hn := hf floor hg
        split
        · exact not_raises_check
        · exact not_raises_check
        · rename_i ho
          rw [ho] at hn
          cases hn
    · exact nofun

theorem not_raises_validateReading (h : ChannelsFormed accepted) {reading : Json} :
    ¬ Raises (validateReading accepted reading) :=
  not_raises_bind not_raises_check fun _ =>
    not_raises_bind not_raises_check fun _ =>
      not_raises_bind not_raises_requireStr fun _ =>
        not_raises_bind not_raises_requireStr fun _ =>
          not_raises_bind not_raises_requireStr fun _ =>
            not_raises_bind not_raises_requireNumber fun _ =>
              not_raises_bind not_raises_requireNumber fun _ =>
                not_raises_bind not_raises_check fun _ =>
                  not_raises_bind (not_raises_requireChannel h) fun _ => not_raises_ok

theorem not_raises_mapM (hf : ∀ a, ¬ Raises (f a)) {as : List α} : ¬ Raises (as.mapM f) := by
  induction as with
  | nil => exact nofun
  | cons a as ih =>
    rw [mapM_cons]
    exact not_raises_bind (hf a) fun _ => not_raises_bind ih fun _ => not_raises_ok

theorem not_raises_requireReadings (h : ChannelsFormed accepted) :
    ¬ Raises (requireReadings accepted envelope) := by
  unfold requireReadings
  split
  · exact not_raises_mapM (fun _ => not_raises_validateReading h)
  · exact nofun

theorem not_raises_requireToken : ¬ Raises (requireToken obj key) := by
  unfold requireToken
  split
  · split_ifs <;> exact nofun
  · exact nofun

theorem not_raises_requireFaultVersion {fault : Json} : ¬ Raises (requireFaultVersion fault) := by
  unfold requireFaultVersion
  split
  · split_ifs <;> exact nofun
  · exact nofun

/-! ### Canonical bytes -/

theorem raises_canonicalJsonBytes_iff (h : Formed v) :
    Raises (canonicalJsonBytes v) ↔ Unencodable v := by
  unfold Raises canonicalJsonBytes Json.canonicalJson
  cases hr : Json.reject [] v with
  | error e =>
    have hru := Json.reject_ofRules v [] e h hr
    have hz : ¬ Json.InZone v := by
      rw [← Json.reject_eq_ok_iff v [], hr]
      intro h
      cases h
    obtain ⟨path, fault⟩ := e
    refine iff_of_false ?_ fun hu => hz hu.1
    cases fault with
    | noForm typeName | loneSurrogate => cases hru
    | _ => exact not_raises_refuse
  | ok u =>
    have hz : Json.InZone v := (Json.reject_eq_ok_iff v []).mp hr
    have hl : (Json.dumps v).any isSurrogate = false ↔ Json.Plain v := by
      rw [Json.dumps, Json.any_render, Json.plain_sorted]
    split_ifs with ha
    · refine iff_of_true rfl ⟨hz, fun hp => ?_⟩
      rw [hl.mpr hp] at ha
      cases ha
    · exact iff_of_false (fun h => by cases h) fun hu => hu.2 (hl.mp (Bool.eq_false_iff.mpr ha))

theorem not_raises_decodePublicKey : ¬ Raises (decodePublicKey k publicKeyB64) := by
  unfold decodePublicKey
  split
  · exact nofun
  · split_ifs <;> exact nofun

theorem not_raises_decodeWireSignature {signature : Text} :
    ¬ Raises (decodeWireSignature k signature) := by
  unfold decodeWireSignature
  split_ifs
  · exact nofun
  dsimp only
  split
  · exact nofun
  · split_ifs <;> exact nofun

theorem raises_verifySigned_iff {signed : Json} (h : Formed signed) :
    Raises (verifySigned k message signed publicKeyB64) ↔ Unencodable signed := by
  unfold verifySigned
  rw [raises_bind_iff, raises_canonicalJsonBytes_iff h]
  constructor
  · rintro (hu | ⟨canonical, -, hr⟩)
    · exact hu
    · exact absurd hr (not_raises_bind not_raises_decodePublicKey fun _ =>
        not_raises_bind not_raises_decodeWireSignature fun _ => not_raises_check)
  · exact .inl

/-! ### Messages -/

/-- A telemetry message gets as far as the canonical bytes of its envelope. -/
structure EnvelopeSigned (message : Json) (a : VerifiedAgainst) (envelope : Json) : Prop where
  service : requireInService a.row.device = .ok ()
  family : requireFamily message "envelope" = .ok envelope
  alg : requireAlg envelope = .ok ()
  device : requireDevice envelope a.deviceId = .ok ()
  capability : ∃ hash, requireCapability envelope a.row.device.capabilityHash = .ok hash

/-- A fault message gets as far as the canonical bytes of its fault. -/
structure FaultSigned (message : Json) (a : VerifiedAgainst) (fault : Json) : Prop where
  service : requireInService a.row.device = .ok ()
  family : requireFamily message "fault" = .ok fault
  fields : hasExactly fault faultFields = true
  version : ∃ version, requireFaultVersion fault = .ok version ∧
    ∃ code, requireStr fault "code" .invalidEnvelope = .ok code ∧
      firmwareFaultCodes.any (fun c => decide (text c = code)) = true ∧
      (∃ subject, requireToken fault "subject" = .ok subject) ∧
      ∃ detail, requireToken fault "detail" = .ok detail ∧
        (closedFaultDetails version code).all (fun closed =>
          closed.any (fun d => decide (text d = detail))) = true
  alg : requireAlg fault = .ok ()
  device : requireDevice fault a.deviceId = .ok ()
  capability : ∃ hash, requireCapability fault a.row.device.capabilityHash = .ok hash
  posture : ∃ posture, requirePosture fault a.row.device.posture = .ok posture
  counters : ∃ counters, requireCounters fault = .ok counters

theorem formed_of_requireFamily (h : Formed message)
    (hf : requireFamily message family = .ok obj) : Formed obj := by
  unfold requireFamily at hf
  split_ifs at hf
  · cases hf
  split at hf
  · rename_i items hg
    cases hf
    exact h.get? hg
  · cases hf

theorem check_ok : check ok e = .ok u ↔ ok = true := check_eq_ok_iff

theorem raises_verifyTelemetryMessage_iff (ho : Formed message) (hh : ChannelsFormed a.channelMap) :
    Raises (verifyTelemetryMessage k message a) ↔
      ∃ envelope, EnvelopeSigned message a envelope ∧ Unencodable envelope := by
  unfold verifyTelemetryMessage
  simp only [raises_bind_iff, not_raises_requireInService, not_raises_requireFamily,
    not_raises_requireAlg, not_raises_requireDevice, not_raises_requireCapability,
    not_raises_envelopeVersion, not_raises_requirePosture, not_raises_requireCounters,
    not_raises_requireEmittedAt, not_raises_requireReadings hh, not_raises_requireFresh,
    false_or]
  constructor
  · rintro ⟨_, hs, envelope, hf, _, ha, _, hd, hash, hc,
      hg | ⟨_, -, ⟨_, _⟩, -, _, -, _, -, _, -, _, -, _, -, hk⟩⟩
    · have hu := (raises_verifySigned_iff (formed_of_requireFamily ho hf)).mp hg
      exact ⟨envelope, ⟨hs, hf, ha, hd, hash, hc⟩, hu⟩
    · exact absurd hk not_raises_ok
  · rintro ⟨envelope, ⟨hs, hf, ha, hd, hash, hc⟩, hu⟩
    have hg : Raises (verifySigned k message envelope a.row.device.publicKeyB64) :=
      (raises_verifySigned_iff (formed_of_requireFamily ho hf)).mpr hu
    exact ⟨_, hs, envelope, hf, _, ha, _, hd, hash, hc, .inl hg⟩

theorem raises_verifyFaultMessage_iff (hfo : Formed message) :
    Raises (verifyFaultMessage k message a) ↔
      ∃ fault, FaultSigned message a fault ∧ Unencodable fault := by
  unfold verifyFaultMessage
  simp only [raises_bind_iff, not_raises_requireInService, not_raises_requireFamily,
    not_raises_requireAlg, not_raises_requireDevice, not_raises_requireCapability, not_raises_check,
    not_raises_requireFaultVersion, not_raises_requirePosture, not_raises_requireCounters,
    not_raises_requireStr, not_raises_requireToken, not_raises_requireFresh, check_ok, false_or]
  constructor
  · rintro ⟨_, hs, fault, hf, _, hl, version, hv, _, ha, _, he, hash,
      hca, posture, hp, counters, ho, code, hcd, _, hk, subject, hsu,
      detail, hd, _, hc, hg | ⟨_, -, _, -, hok⟩⟩
    · have hu := (raises_verifySigned_iff (formed_of_requireFamily hfo hf)).mp hg
      exact ⟨fault, ⟨hs, hf, hl, ⟨version, hv, code, hcd, hk,
        ⟨subject, hsu⟩, detail, hd, hc⟩, ha, he, ⟨hash, hca⟩,
        ⟨posture, hp⟩, ⟨counters, ho⟩⟩, hu⟩
    · exact absurd hok not_raises_ok
  · rintro ⟨fault, ⟨hs, hf, hl, ⟨version, hv, code, hcd, hk,
        ⟨subject, hsu⟩, detail, hd, hc⟩, ha, he, ⟨hash, hca⟩,
        ⟨posture, hp⟩, ⟨counters, ho⟩⟩, hu⟩
    have hg : Raises (verifySigned k message fault a.row.device.publicKeyB64) :=
      (raises_verifySigned_iff (formed_of_requireFamily hfo hf)).mpr hu
    exact ⟨(), hs, fault, hf, (), hl, version, hv, (), ha, (), he, hash,
      hca, posture, hp, counters, ho, code, hcd, (), hk, subject, hsu,
      detail, hd, (), hc, .inl hg⟩

/-! ### What is accepted -/

/-- The object `message` carries under `family`, as an accepted verification has it. -/
structure AcceptedUnder (k : TelemetryKeys) (message : Json) (a : VerifiedAgainst) (family : String) :
    Prop where
  members : ∀ key, key ∈ keys message ↔ key = text family ∨ key = text "signature"
  signed : ∃ items, message.get? family = some (.dict items) ∧
    (Json.dict items).get? "device_id" = some (.str a.deviceId) ∧
    (Json.dict items).get? "capability_hash" = some (.str a.row.device.capabilityHash) ∧
    (Json.dict items).get? "posture" = some (.str a.row.device.posture) ∧
    ∃ canonical publicKey signature, Json.canonicalJson (.dict items) = .ok canonical ∧
      decodePublicKey k a.row.device.publicKeyB64 = .ok publicKey ∧
      decodeWireSignature k (signatureText k message) = .ok signature ∧
      k.verifies publicKey signature canonical = true

theorem requireStr_ok (h : requireStr obj key e = .ok s) : obj.get? key = some (.str s) := by
  unfold requireStr at h
  split at h
  · rename_i t hg
    split_ifs at h
    · cases h
    · cases h
      exact hg
  · cases h

theorem requireDevice_ok (h : requireDevice obj deviceId = .ok u) :
    obj.get? "device_id" = some (.str deviceId) := by
  obtain ⟨s, hs, hc⟩ := Execution.bind_eq_ok_iff.mp h
  rw [← of_decide_eq_true (check_ok.mp hc)]
  exact requireStr_ok hs

theorem requireCapability_ok (h : requireCapability obj hash = .ok s) :
    obj.get? "capability_hash" = some (.str hash) := by
  obtain ⟨t, ht, hr⟩ := Execution.bind_eq_ok_iff.mp h
  obtain ⟨_, hc, -⟩ := Execution.bind_eq_ok_iff.mp hr
  rw [← of_decide_eq_true (check_ok.mp hc)]
  exact requireStr_ok ht

theorem requirePosture_ok (h : requirePosture obj posture = .ok s) :
    obj.get? "posture" = some (.str posture) := by
  obtain ⟨t, ht, hr⟩ := Execution.bind_eq_ok_iff.mp h
  obtain ⟨_, -, hr⟩ := Execution.bind_eq_ok_iff.mp hr
  obtain ⟨_, hc, -⟩ := Execution.bind_eq_ok_iff.mp hr
  rw [← of_decide_eq_true (check_ok.mp hc)]
  exact requireStr_ok ht

theorem canonicalJsonBytes_ok {b : Text} (h : canonicalJsonBytes v = .ok b) :
    Json.canonicalJson v = .ok b := by
  unfold canonicalJsonBytes at h
  split at h
  · rename_i bytes hb
    cases h
    exact hb
  · split at h <;> cases h

theorem payloadFamily_members {family : Text} (h : payloadFamily message = some family) (key : Text) :
    key ∈ keys message ↔ key = family ∨ key = text "signature" := by
  unfold payloadFamily at h
  split_ifs at h with hs
  split at h
  · rename_i found hi
    split_ifs at h
    obtain rfl := some.inj h
    have hm : key ∈ (keys message).filter (fun key => decide (key ≠ text "signature")) ↔
        key = found := by
      rw [hi, mem_singleton]
    rw [mem_filter, decide_eq_true_eq] at hm
    by_cases hk : key = text "signature"
    · rw [hk]
      exact iff_of_true hs (.inr rfl)
    · constructor
      · intro hn
        exact .inl (hm.mp ⟨hn, hk⟩)
      · rintro (hf | hsm)
        · exact (hm.mpr hf).1
        · exact absurd hsm hk
  · cases h

theorem acceptedUnder (hf : requireFamily message family = .ok obj)
    (hd : requireDevice obj a.deviceId = .ok u)
    (ha : requireCapability obj a.row.device.capabilityHash = .ok hash)
    (hp : requirePosture obj a.row.device.posture = .ok posture)
    (hsg : verifySigned k message obj a.row.device.publicKeyB64 = .ok u) :
    AcceptedUnder k message a family := by
  unfold requireFamily at hf
  split_ifs at hf with hm
  · cases hf
  rw [not_not] at hm
  split at hf
  · rename_i items hg
    cases hf
    obtain ⟨canonical, hc, hr⟩ := Execution.bind_eq_ok_iff.mp hsg
    obtain ⟨publicKey, hk, hr⟩ := Execution.bind_eq_ok_iff.mp hr
    obtain ⟨signature, hs, hv⟩ := Execution.bind_eq_ok_iff.mp hr
    exact ⟨payloadFamily_members hm, items, hg, requireDevice_ok hd,
      requireCapability_ok ha, requirePosture_ok hp, canonical, publicKey, signature,
      canonicalJsonBytes_ok hc, hk, hs, check_ok.mp hv⟩
  · cases hf

theorem verifyTelemetryMessage_accepts {v : TelemetryVerification}
    (h : verifyTelemetryMessage k message a = .ok v) : AcceptedUnder k message a "envelope" := by
  unfold verifyTelemetryMessage at h
  simp only [Execution.bind_eq_ok_iff] at h
  obtain ⟨_, -, envelope, hf, _, -, _, hd, _, hc, _, hs, ⟨_, _⟩, -, _, hp, -⟩ := h
  exact acceptedUnder hf hd hc hp hs

theorem verifyFaultMessage_accepts {v : FirmwareFaultVerification}
    (h : verifyFaultMessage k message a = .ok v) : AcceptedUnder k message a "fault" := by
  unfold verifyFaultMessage at h
  simp only [Execution.bind_eq_ok_iff] at h
  obtain ⟨_, -, fault, hf, _, -, _, -, _, -, _, hd, _, hc, _, hp, _, -, _, -,
    _, -, _, -, _, -, _, -, _, hs, -⟩ := h
  exact acceptedUnder hf hd hc hp hs

/-- Both verifications of a message return, and what they accept is one signed family object of the
anchor. -/
structure Verifies (k : TelemetryKeys) (message : Json) (a : VerifiedAgainst) : Prop where
  telemetry : ¬ Raises (verifyTelemetryMessage k message a)
  fault : ¬ Raises (verifyFaultMessage k message a)
  acceptsTelemetry : ∀ v, verifyTelemetryMessage k message a = .ok v →
    AcceptedUnder k message a "envelope"
  acceptsFault : ∀ v, verifyFaultMessage k message a = .ok v → AcceptedUnder k message a "fault"

/-- Verification of a message goes as it should exactly where no object gets as far as its canonical
bytes with a lone surrogate in it. -/
theorem verifies_iff {message : Json} {a : VerifiedAgainst} (hformed : Formed message)
    (hchannels : ChannelsFormed a.channelMap) :
    Verifies k message a ↔
      ¬ (∃ envelope, EnvelopeSigned message a envelope ∧ Unencodable envelope) ∧
        ¬ ∃ fault, FaultSigned message a fault ∧ Unencodable fault := by
  rw [← raises_verifyTelemetryMessage_iff (k := k) hformed hchannels,
    ← raises_verifyFaultMessage_iff (k := k) hformed]
  constructor
  · intro h
    exact ⟨h.telemetry, h.fault⟩
  · rintro ⟨htelemetry, hfault⟩
    exact ⟨htelemetry, hfault, fun _ => verifyTelemetryMessage_accepts,
      fun _ => verifyFaultMessage_accepts⟩

/-! ### Runs -/

/-- Base64 that reads a text as its code points, and a signature that is the front of the bytes. -/
def benchKeys : TelemetryKeys where
  sha256 := id
  b64decode t := some (t.map (·.val))
  b64encode raw := raw.map (Fin.ofNat 0x110000)
  refusedPublicKey _ := false
  verifies _ signature canonical := decide (signature = (canonical.take 64).map (·.val))
  str _ := []
  manifestPolicy _ := none

def benchAnchor : VerifiedAgainst where
  deviceId := text "ridge-node-1"
  row := {
    device := {
      publicKeyB64 := List.replicate 32 (codePoint 'k')
      posture := text "development"
      capabilityHash := text "sha256:00"
      channelMapJson := []
      anchorEpochId := []
      keyEpochId := []
      manifestJson := []
      boardProfile := []
      approved := true
      provisionedAtMs := 0 }
    lastUptimeMs := none
    activationId := none }
  manifest := .null
  channelMap := .dict []

def benchEnvelope (more : List (String × Json)) : Json :=
  .obj ([("v", .int 1), ("alg", .str (text "ed25519")), ("device_id", .str (text "ridge-node-1")),
    ("boot_id", .int 1), ("seq", .int 5), ("capability_hash", .str (text "sha256:00")),
    ("posture", .str (text "development")), ("device_uptime_ms", .int 10), ("emitted_at_ms", .null),
    ("readings", .list [])] ++ more)

def benchMessage (more : List (String × Json)) : Json :=
  .obj [("envelope", benchEnvelope more),
    ("signature", .str (text "ed25519:" ++ (Json.dumps (benchEnvelope more)).take 64))]

/-- A heartbeat of the device. -/
theorem verifies_heartbeat : Verifies benchKeys (benchMessage []) benchAnchor := by
  have hformed : Formed (benchMessage []) := by
    simp [benchMessage, benchEnvelope, Json.obj, Formed, Json.FormedItems, Json.FormedList]
  refine (verifies_iff hformed ⟨[], rfl, fun _ h => by cases h⟩).mpr ⟨?_, ?_⟩
  · rintro ⟨envelope, hsigned, -, hplain⟩
    obtain rfl : benchEnvelope [] = envelope := Except.ok.inj hsigned.family
    refine hplain ?_
    simp only [benchEnvelope, Json.obj, append_nil, map_cons, map_nil, Json.Plain,
      Json.PlainItems, Json.PlainList]
    decide
  · rintro ⟨fault, hsigned, -⟩
    cases hsigned.family

/-- The same with one more member, whose value is a lone surrogate. -/
theorem raises_on_surrogate :
    ¬ Verifies benchKeys (benchMessage [("note", .str [0xD800])]) benchAnchor := by
  intro h
  exact h.telemetry rfl

end Telemetry

end OriRuntime
