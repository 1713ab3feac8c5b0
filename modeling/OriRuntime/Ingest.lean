import OriRuntime.DeliveryLedger

/-!
# Artifacts that come back

`ori/security/evidence/ingest.py`: a gateway's custody acknowledgement, an authority's delivery
receipt and its epoch confirmation, each proven before the ledger is told of it. Keys, codes and
hashes are parameters, each on the wire form of what it reads.
-/

namespace OriRuntime

open List

inductive RejectReason where
  | unrecognisedVersion
  | malformed
  | unknownKey
  | retiredKey
  | wrongPurpose
  | badAuthenticator
  | unknownSequence
  | bindingMismatch
  | nonContiguous
  | restatementConflict
  | superseded
  deriving DecidableEq

inductive IngestError where
  | rejected (reason : RejectReason)
  | storeFault
  | ledger
  deriving DecidableEq

/-! ### Wire forms -/

def isLowerHex (c : CodePoint) : Bool :=
  decide (48 ≤ c.val ∧ c.val ≤ 57 ∨ 97 ≤ c.val ∧ c.val ≤ 102)

/-- `wire` is the scheme and then `n` lowercase hex digits. -/
def hexForm (scheme : String) (n : ℕ) (wire : Text) : Bool :=
  decide (text scheme <+: wire) && decide (wire.length = scheme.length + n) &&
    (wire.drop scheme.length).all isLowerHex

def isSha256 (wire : Text) : Bool := hexForm "sha256:" 64 wire

def isWellFormedKeyId (wire : Text) : Bool := hexForm "hkdf-sha256:" 32 wire

def isCustodyMac (wire : Text) : Bool := hexForm "hmac-sha256:" 64 wire

/-! ### Keys -/

/-- A key of the authority, with the check of a signature's wire form under it. -/
structure AuthorityKey where
  keyId : Text
  purpose : String
  verifies : Bool
  check : Text → Text → Bool

/-- A generation of the custody secret; a retired one has none. -/
structure CustodyGeneration where
  keyId : Text
  secret : Option Text

/-- What this device verifies artifacts with: `decodes` says a signature's wire form is one prefix
and the standard Base64 of 64 bytes, and `rangeHash` is the hash of the raw digests, joined. -/
structure IngestKeys where
  registry : List AuthorityKey
  named : ∀ key ∈ registry, isSha256 key.keyId = true
  decodes : Text → Bool
  custody : Option (List CustodyGeneration)
  hmac : Text → Text → Text
  rangeHash : List Text → Text

namespace IngestKeys

variable (k : IngestKeys)

/-- `select_verifying_key`: the key of that purpose and identity. -/
def select (purpose : String) (keyId : Text) : Except IngestError AuthorityKey :=
  match k.registry.find? (fun key => decide (key.purpose = purpose ∧ key.keyId = keyId)) with
  | none =>
    if k.registry.any (fun key => decide (key.keyId = keyId)) then .error (.rejected .wrongPurpose)
    else .error (.rejected .unknownKey)
  | some key => if key.verifies then .ok key else .error (.rejected .retiredKey)

end IngestKeys

/-! ### Shapes -/

inductive FieldType where
  | int
  | str
  deriving DecidableEq

def custodyShape : List (String × FieldType) :=
  [("v", .int), ("device_id", .str), ("local_seq", .int), ("envelope_digest", .str),
   ("custody_at_ms", .int), ("key_id", .str), ("mac", .str)]

def receiptShape : List (String × FieldType) :=
  [("v", .int), ("device_id", .str), ("from_seq", .int), ("to_seq", .int), ("range_digest", .str),
   ("accepted_at_ms", .int), ("key_id", .str), ("signature", .str)]

def epochShape : List (String × FieldType) :=
  [("v", .int), ("device_id", .str), ("anchor_epoch_id", .str), ("pubkey_hex", .str),
   ("actor", .str), ("confirmed_at_ms", .int), ("key_id", .str), ("signature", .str)]

def artifactVersion : ℤ := 1

namespace Json

/-- An integer, not a boolean, in the contract's zone. -/
def isJsonInteger : Json → Bool
  | .int n => decide (|n| ≤ integerMax)
  | _ => false

def hasType (v : Json) : FieldType → Bool
  | .int => v.isJsonInteger
  | .str => match v with
    | .str _ => true
    | _ => false

def intMember (artifact : Json) (name : String) : ℤ :=
  match artifact.get? name with
  | some (.int n) => n
  | _ => 0

def strMember (artifact : Json) (name : String) : Text :=
  match artifact.get? name with
  | some (.str s) => s
  | _ => []

/-- An object of exactly these members, each of its type, at the version this contract is. -/
def requireShape (artifact : Json) (shape : List (String × FieldType)) : Except IngestError Unit :=
  match artifact with
  | .dict items =>
    let named := shape.map (fun field => some (text field.1))
    if ¬ ((∀ key ∈ items.map Prod.fst, key ∈ named) ∧ ∀ key ∈ named, key ∈ items.map Prod.fst) then
      .error (.rejected .malformed)
    else if shape.all (fun field => ((Json.dict items).get? field.1).any (hasType · field.2)) =
        false then
      .error (.rejected .malformed)
    else if (Json.dict items).intMember "v" ≠ artifactVersion then
      .error (.rejected .unrecognisedVersion)
    else .ok ()
  | _ => .error (.rejected .malformed)

/-- What the authenticator covers: the other members, after the domain. -/
def signingBytes (artifact : Json) (authenticator : String) (domain : String) :
    Except IngestError Text :=
  match artifact with
  | .dict items =>
    match canonicalJson (.dict (items.filter (fun item =>
        decide (item.1 ≠ some (text authenticator))))) with
    | .error _ => .error (.rejected .malformed)
    | .ok body => .ok (text domain ++ [0] ++ body)
  | _ => .error (.rejected .malformed)

end Json

/-! ### Verified artifacts -/

structure VerifiedCustody where
  localSeq : ℤ
  custodyAtMs : ℤ
  keyId : Text
  deriving DecidableEq

structure VerifiedReceipt where
  sequences : List ℕ
  acceptedAtMs : ℤ
  keyId : Text
  deriving DecidableEq

structure VerifiedEpochConfirmation where
  deviceId : Text
  anchorEpochId : Text
  pubkeyHex : Text
  actor : Text
  confirmedAtMs : ℤ
  keyId : Text
  deriving DecidableEq

namespace IngestKeys

variable (k : IngestKeys)

def heldUnderAnotherPurpose (keyId : Text) : Bool :=
  k.registry.any (fun key => decide (key.keyId = keyId ∧ key.purpose ≠ "gateway_custody"))

/-- The secret of the generation the acknowledgement names, never found by trial. -/
def custodySecret (generations : List CustodyGeneration) (keyId : Text) : Except IngestError Text :=
  if isWellFormedKeyId keyId = false then .error (.rejected .malformed)
  else
    match generations.find? (fun g => decide (g.keyId = keyId)) with
    | none =>
      if k.heldUnderAnotherPurpose keyId then .error (.rejected .wrongPurpose)
      else .error (.rejected .unknownKey)
    | some g =>
      match g.secret with
      | none => .error (.rejected .retiredKey)
      | some secret => .ok secret

/-- `verify_custody_acknowledgement`. -/
def verifyCustody (generations : List CustodyGeneration) (artifact : Json) (deviceId : Text)
    (expectedDigest : Text) (expectedLocalSeq : ℤ) : Except IngestError VerifiedCustody := do
  artifact.requireShape custodyShape
  let keyId := artifact.strMember "key_id"
  let secret ← k.custodySecret generations keyId
  let mac := artifact.strMember "mac"
  if isCustodyMac mac = false then throw (.rejected .malformed)
  let signed ← artifact.signingBytes "mac" "ori.evidence_custody_ack.v1"
  if mac.drop 12 ≠ k.hmac secret signed then throw (.rejected .badAuthenticator)
  if artifact.strMember "device_id" ≠ deviceId then throw (.rejected .bindingMismatch)
  if artifact.intMember "local_seq" ≠ expectedLocalSeq then throw (.rejected .unknownSequence)
  if artifact.strMember "envelope_digest" ≠ expectedDigest then throw (.rejected .bindingMismatch)
  return { localSeq := artifact.intMember "local_seq"
           custodyAtMs := artifact.intMember "custody_at_ms", keyId := keyId }

/-- An artifact the authority signed with a key of the purpose, for this device. -/
def verifySigned (artifact : Json) (shape : List (String × FieldType)) (purpose domain : String)
    (deviceId : Text) : Except IngestError Unit := do
  artifact.requireShape shape
  let key ← k.select purpose (artifact.strMember "key_id")
  if k.decodes (artifact.strMember "signature") = false then throw (.rejected .malformed)
  let signed ← artifact.signingBytes "signature" domain
  if key.check (artifact.strMember "signature") signed = false then
    throw (.rejected .badAuthenticator)
  if artifact.strMember "device_id" ≠ deviceId then throw (.rejected .bindingMismatch)

/-- `verify_delivery_receipt`: the range is sealed here whole, over the digests it names. -/
def verifyReceipt (artifact : Json) (deviceId : Text) (digests : List (ℕ × Text)) :
    Except IngestError VerifiedReceipt := do
  k.verifySigned artifact receiptShape "evidence_authority_receipt"
    "ori.evidence_delivery_receipt.v1" deviceId
  let fromSeq := artifact.intMember "from_seq"
  let toSeq := artifact.intMember "to_seq"
  if fromSeq < 1 ∨ toSeq < fromSeq then throw (.rejected .nonContiguous)
  let held := (digests.filter (fun d => decide (fromSeq ≤ d.1 ∧ d.1 ≤ toSeq))).insertionSort
    (fun d e => d.1 ≤ e.1)
  if held.length ≠ toSeq - fromSeq + 1 ∨ held.map (·.1) ≠ List.range' fromSeq.toNat held.length then
    throw (.rejected .unknownSequence)
  if held.all (fun d => isSha256 d.2) = false then throw .storeFault
  if artifact.strMember "range_digest" ≠ text "sha256:" ++ k.rangeHash (held.map (·.2)) then
    throw (.rejected .bindingMismatch)
  return { sequences := held.map (·.1), acceptedAtMs := artifact.intMember "accepted_at_ms"
           keyId := artifact.strMember "key_id" }

def verifyEpochConfirmation (artifact : Json) (deviceId : Text) :
    Except IngestError VerifiedEpochConfirmation := do
  k.verifySigned artifact epochShape "evidence_authority_epoch"
    "ori.evidence_epoch_confirmation.v1" deviceId
  if artifact.strMember "anchor_epoch_id" = [] then throw (.rejected .malformed)
  return { deviceId := artifact.strMember "device_id"
           anchorEpochId := artifact.strMember "anchor_epoch_id"
           pubkeyHex := artifact.strMember "pubkey_hex", actor := artifact.strMember "actor"
           confirmedAtMs := artifact.intMember "confirmed_at_ms"
           keyId := artifact.strMember "key_id" }

end IngestKeys

/-! ### What a proof says -/

namespace Json

variable {artifact : Json} {shape : List (String × FieldType)}

theorem requireShape_member (h : artifact.requireShape shape = .ok ()) {field : String × FieldType}
    (hf : field ∈ shape) : ∃ v, artifact.get? field.1 = some v ∧ v.hasType field.2 = true := by
  unfold requireShape at h
  split at h
  · dsimp only at h
    split at h
    · cases h
    split at h
    · cases h
    rename_i ha
    simp only [Bool.not_eq_false, all_eq_true] at ha
    exact (Option.any_eq_true _ _).mp (ha field hf)
  · cases h

theorem requireShape_int (h : artifact.requireShape shape = .ok ()) {name : String}
    (hf : (name, .int) ∈ shape) : |artifact.intMember name| ≤ integerMax := by
  obtain ⟨v, hg, ht⟩ := requireShape_member h hf
  unfold intMember
  rw [hg]
  cases v with
  | int n => exact of_decide_eq_true ht
  | _ => cases ht

end Json

namespace IngestKeys

variable {k : IngestKeys}

variable {purpose : String} {artifact : Json} {deviceId : Text}

theorem select_keyId {keyId : Text} {key : AuthorityKey} (h : k.select purpose keyId = .ok key) :
    isSha256 keyId = true := by
  unfold select at h
  split at h
  · split_ifs at h
  · rename_i key' hd
    have hf : key'.purpose = purpose ∧ key'.keyId = keyId := by
      simpa using List.find?_some hd
    rw [← hf.2]
    exact k.named key' (mem_of_find?_eq_some hd)

theorem verifySigned_facts {shape : List (String × FieldType)} {domain : String}
    (h : k.verifySigned artifact shape purpose domain deviceId = .ok ()) :
    artifact.requireShape shape = .ok () ∧ isSha256 (artifact.strMember "key_id") = true := by
  unfold verifySigned at h
  simp only [bind, Except.bind] at h
  split at h
  · cases h
  rename_i hh
  split at h
  · cases h
  rename_i hs
  exact ⟨hh, select_keyId hs⟩

theorem verifyReceipt_facts {digests : List (ℕ × Text)} {v : VerifiedReceipt}
    (h : k.verifyReceipt artifact deviceId digests = .ok v) :
    |v.acceptedAtMs| ≤ integerMax ∧ isSha256 v.keyId = true ∧
      v.sequences = List.range' (artifact.intMember "from_seq").toNat
        (artifact.intMember "to_seq" - artifact.intMember "from_seq" + 1).toNat ∧
      ∃ held : List (ℕ × Text), held.map Prod.fst = v.sequences ∧ (∀ d ∈ held, d ∈ digests) ∧
        artifact.strMember "range_digest" = text "sha256:" ++ k.rangeHash (held.map Prod.snd) := by
  unfold verifyReceipt at h
  simp only [bind, Except.bind, throw, throwThe, MonadExceptOf.throw] at h
  split at h
  · cases h
  rename_i hs
  obtain ⟨hh, hk⟩ := verifySigned_facts hs
  split at h
  · cases h
  split at h
  · cases h
  rename_i hl
  split at h
  · cases h
  split at h
  · cases h
  rename_i hi
  cases h
  rw [not_or, not_not, not_not] at hl
  refine ⟨Json.requireShape_int hh (by decide), hk, ?_, _, rfl, ?_, not_not.mp hi⟩
  · rw [← hl.1]
    exact hl.2
  · intro d hd
    exact mem_of_mem_filter ((mem_insertionSort _).mp hd)

end IngestKeys

end OriRuntime
