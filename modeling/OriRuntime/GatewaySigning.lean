import OriRuntime.GatewayReplay
import OriRuntime.JsonDumps
import OriRuntime.RemoteCommands

/-!
# The signature of gateway envelopes

`GatewayMessageAuthenticator` of `ori/security/gateway_messages.py`: the text an HMAC is taken of is
the message type, the device, the request, the signing time and the canonical JSON of the payload
without its auth block, a line each.
-/

namespace OriRuntime

open List Option

namespace GatewayMessages

abbrev Items := List (Option Text × Json)

/-- Python's text functions and HMAC-SHA256: a digest is 64 hexadecimal digits, and the text of a
value that is no string has no line break. -/
structure GatewayTexts extends CommandText where
  hex : ∀ secret t, (hmacSha256 secret t).length = 64 ∧
    ∀ c ∈ hmacSha256 secret t, c ∈ text "0123456789abcdef"
  str_oneLine : ∀ v, codePoint '\n' ∉ str v

structure GatewayMessageAuthenticator where
  secret : Text
  /-- Empty where there is none. -/
  previousSecret : Text

inductive GatewayRefusal where
  | missingAuth
  | unsupportedAuthScheme
  | missingSignature
  | invalidSignedAtMs
  | deviceMismatch
  | requestIdMismatch
  | malformedSignature
  | invalidSignature
  | unverifiablePayload
  | replay (reason : ReplayRefusal)
  deriving DecidableEq

structure SignedMessage extends AuthenticatedMessage where
  payload : Items
  signedAtMs : ℤ

def payloadWithoutAuth (payload : Items) : Items :=
  payload.filter (fun item => decide (item.1 ≠ some (text "auth")))

/-- `"\n".join`. -/
def lines (ts : List Text) : Text := [codePoint '\n'].intercalate ts

def signaturePrefix : Text := text "hmac-sha256:"

/-- `_SIGNATURE_RE`. -/
def IsSignature (s : Text) : Prop :=
  signaturePrefix <+: s ∧ (s.drop signaturePrefix.length).length = 64 ∧
    ∀ c ∈ s.drop signaturePrefix.length, c ∈ text "0123456789abcdef"

instance (s : Text) : Decidable (IsSignature s) := inferInstanceAs (Decidable (_ ∧ _ ∧ _))

variable (k : GatewayTexts) (a : GatewayMessageAuthenticator)

/-- None where the JSON or the bytes of the text cannot be written. -/
def signedText (payload : Items) (messageType : Text) (signedAtMs : ℤ) : Option Text :=
  match Json.dumpsStrict (.dict payload) with
  | none => none
  | some json =>
    let signed := lines [messageType, k.field (.dict payload) "device_id",
      k.field (.dict payload) "request_id", Json.intText signedAtMs, json]
    if signed.any isSurrogate then none else some signed

def tag (secret signed : Text) : Text := signaturePrefix ++ k.hmacSha256 secret signed

def signatureWithSecret (secret : Text) (payload : Items) (messageType : Text) (signedAtMs : ℤ) :
    Option Text :=
  (signedText k payload messageType signedAtMs).map (tag k secret)

def sign (payload : Items) (messageType : Text) (signedAtMs : ℤ) : Option Items :=
  (signatureWithSecret k a.secret (payloadWithoutAuth payload) messageType signedAtMs).map
    (fun signature => payloadWithoutAuth payload ++ [(some (text "auth"), .obj
      [("scheme", .str (text "hmac-sha256")), ("signed_at_ms", .int signedAtMs),
        ("signature", .str signature)])])

/-- `_signature_match`, which names the secret in its log only. -/
def signatureMatch (signature : Text) (payload : Items) (messageType : Text) (signedAtMs : ℤ) :
    Except GatewayRefusal Unit :=
  if ¬ IsSignature signature then .error .malformedSignature
  else
    match signatureWithSecret k a.secret payload messageType signedAtMs with
    | none => .error .unverifiablePayload
    | some expected =>
      if signature = expected then .ok ()
      else if a.previousSecret = [] then .error .invalidSignature
      else
        match signatureWithSecret k a.previousSecret payload messageType signedAtMs with
        | none => .error .unverifiablePayload
        | some expectedPrevious =>
          if signature = expectedPrevious then .ok () else .error .invalidSignature

def replayKey (payload : Items) (messageType : Text) (signedAtMs : ℤ) (signature : Text) : Text :=
  lines [messageType, k.field (.dict payload) "device_id", k.field (.dict payload) "request_id",
    Json.intText signedAtMs, signature]

/-- `_verify`, and the error `authenticate` makes of a payload that cannot be verified. -/
def verifyEnvelope (c : GatewayReplayCache) (payload : Items) (messageType expectedDeviceId : Text)
    (expectedRequestId : Option Text) (currentMs : ℤ) : Except GatewayRefusal SignedMessage :=
  match (Json.dict payload).get? "auth" with
  | some (.dict auth) =>
    let signature := k.field (.dict auth) "signature"
    if k.field (.dict auth) "scheme" ≠ text "hmac-sha256" then .error .unsupportedAuthScheme
    else if ¬ signaturePrefix <+: signature then .error .missingSignature
    else
      match (Json.dict auth).get? "signed_at_ms" with
      | some (.int signedAtMs) =>
        let unsigned := payloadWithoutAuth payload
        if k.field (.dict unsigned) "device_id" ≠ expectedDeviceId then .error .deviceMismatch
        else if expectedRequestId.isSome ∧
            expectedRequestId ≠ some (k.field (.dict unsigned) "request_id") then
          .error .requestIdMismatch
        else
          match signatureMatch k a signature unsigned messageType signedAtMs with
          | .error reason => .error reason
          | .ok () =>
            let key := replayKey k unsigned messageType signedAtMs signature
            match (freshness c signedAtMs currentMs).or (c.refusal key signedAtMs) with
            | some reason => .error (.replay reason)
            | none => .ok { replayKey := key, atMs := currentMs, payload := unsigned
                            signedAtMs := signedAtMs }
      | _ => .error .invalidSignedAtMs
  | _ => .error .missingAuth

/-- `verify`: what verified is committed as of its receipt. -/
def verify (c : GatewayReplayCache) (st : ReplayStore) (payload : Items)
    (messageType expectedDeviceId : Text) (expectedRequestId : Option Text) (currentMs : ℤ)
    (failure : Option StoreFailure) :
    GatewayReplayCache × ReplayStore × Except GatewayRefusal Items :=
  match verifyEnvelope k a c payload messageType expectedDeviceId expectedRequestId currentMs with
  | .error reason => (c, st, .error reason)
  | .ok m =>
    let admitted := c.admitKey st m.replayKey m.signedAtMs m.atMs m.atMs failure
    match admitted.2.2 with
    | some reason => (admitted.1, admitted.2.1, .error (.replay reason))
    | none => (admitted.1, admitted.2.1, .ok m.payload)

/-! ### What a signed text names -/

section

variable {α : Type} {b : α} {x x' y y' : List α}

theorem break_first (hx : b ∉ x) (hx' : b ∉ x') (h : x ++ b :: y = x' ++ b :: y') :
    x = x' ∧ y = y' := by
  obtain ⟨z, hz, hy⟩ | ⟨z, hz, hy⟩ := append_eq_append_iff.mp h
  · cases z with
    | nil => exact ⟨by rw [hz, append_nil], (List.cons.inj hy).2⟩
    | cons c z =>
      obtain ⟨rfl, -⟩ := List.cons.inj hy
      exact absurd (hz ▸ mem_append_right _ mem_cons_self) hx'
  · cases z with
    | nil => exact ⟨by rw [hz, append_nil], (List.cons.inj hy).2.symm⟩
    | cons c z =>
      obtain ⟨rfl, -⟩ := List.cons.inj hy
      exact absurd (hz ▸ mem_append_right _ mem_cons_self) hx

theorem break_last (hy : b ∉ y) (hy' : b ∉ y') (h : x ++ b :: y = x' ++ b :: y') :
    x = x' ∧ y = y' := by
  have hr := congrArg List.reverse h
  simp only [reverse_append, reverse_cons, append_assoc, singleton_append] at hr
  obtain ⟨hyy, hx⟩ := break_first (by rwa [mem_reverse]) (by rwa [mem_reverse]) hr
  exact ⟨reverse_injective hx, reverse_injective hyy⟩

end

variable {k} {p p' : Items} {messageType messageType' t : Text} {signedAtMs signedAtMs' : ℤ}

theorem signedText_eq_some (h : signedText k p messageType signedAtMs = some t) :
    ∃ json, Json.dumpsStrict (.dict p) = some json ∧
      t = messageType ++ codePoint '\n' :: (k.field (.dict p) "device_id" ++
        codePoint '\n' :: k.field (.dict p) "request_id") ++
        codePoint '\n' :: Json.intText signedAtMs ++ codePoint '\n' :: json := by
  unfold signedText at h
  cases hjson : Json.dumpsStrict (.dict p) with
  | none =>
    rw [hjson] at h
    cases h
  | some json =>
    rw [hjson] at h
    obtain ⟨-, h⟩ := ite_none_left_eq_some.mp h
    refine ⟨json, rfl, (some.inj h).symm.trans ?_⟩
    simp [lines, List.intercalate, List.intersperse]

theorem signedText_inj (hb : codePoint '\n' ∉ messageType)
    (hb' : codePoint '\n' ∉ messageType') (h : signedText k p messageType signedAtMs = some t)
    (h' : signedText k p' messageType' signedAtMs' = some t) :
    messageType = messageType' ∧ signedAtMs = signedAtMs' ∧ Json.Same (.dict p) (.dict p') ∧
      k.field (.dict p) "device_id" ++ codePoint '\n' :: k.field (.dict p) "request_id" =
        k.field (.dict p') "device_id" ++ codePoint '\n' :: k.field (.dict p') "request_id" := by
  obtain ⟨json, hjson, rfl⟩ := signedText_eq_some h
  obtain ⟨json', hjson', heq⟩ := signedText_eq_some h'
  obtain ⟨hinit, rfl⟩ := break_last (Json.dumpsStrict_oneLine hjson)
    (Json.dumpsStrict_oneLine hjson') heq
  obtain ⟨hf, ht⟩ := break_last (ConfigSignature.numeral_intText _).oneLine
    (ConfigSignature.numeral_intText _).oneLine hinit
  obtain ⟨hy, hi⟩ := break_first hb hb' hf
  have hs := congrArg Json.ofAtom ht
  rw [Json.ofAtom_intText, Json.ofAtom_intText] at hs
  exact ⟨hy, Json.int.inj hs, Json.dumpsStrict_same hjson hjson', hi⟩

variable {key : Option Text} {v : Json} {signature : Text} {payload : Items}

theorem find?_of_sameItems (h : Json.SameItems p p') (hv : Json.find? p key = some v) :
    ∃ w, Json.find? p' key = some w ∧ Json.Same v w := by
  induction p with
  | nil => cases hv
  | cons item rest ih =>
    obtain ⟨key', u⟩ := item
    obtain ⟨hitem, hr⟩ := h
    by_cases hk : key' = key
    · subst hk
      obtain rfl : u = v := by simpa [Json.find?] using hv
      exact hitem
    · exact ih hr (by simpa [Json.find?, hk] using hv)

theorem find?_eq_none_of_same (h : Json.Same (.dict p) (.dict p')) (hp : Json.find? p key = none) :
    Json.find? p' key = none := by
  rw [Json.find?, map_eq_none_iff, List.find?_eq_none] at hp ⊢
  intro item hitem hk
  obtain ⟨item', hm, heq⟩ := mem_map.mp (h.2 _ (mem_map_of_mem hitem))
  exact hp item' hm (by rw [heq]; exact hk)

theorem same_str {w : Json} (h : Json.Same v w) :
    (∃ s, v = .str s ∧ w = .str s) ∨ (∀ s, v ≠ .str s) ∧ ∀ s, w ≠ .str s := by
  cases v with
  | str s =>
    cases w with
    | str s' => exact .inl ⟨s, rfl, congrArg Json.str h.symm⟩
    | _ => exact h.elim
  | _ =>
    refine .inr ⟨nofun, ?_⟩
    rintro s rfl
    exact h.elim

theorem textOf_oneLine (h : ∀ s, v ≠ .str s) : codePoint '\n' ∉ k.textOf v := by
  cases v with
  | str s => exact absurd rfl (h s)
  | _ => exact k.str_oneLine _

theorem field_eq_of_same (hs : Json.Same (.dict p) (.dict p')) {key : String} {rest rest' : Text}
    (h : k.field (.dict p) key ++ codePoint '\n' :: rest =
      k.field (.dict p') key ++ codePoint '\n' :: rest') :
    k.field (.dict p) key = k.field (.dict p') key := by
  have hline : ∀ v : Json, (∀ s, v ≠ .str s) →
      codePoint '\n' ∉ if v.truthy then k.textOf v else [] := by
    intro v hv
    split_ifs
    · exact textOf_oneLine hv
    · exact not_mem_nil
  simp only [CommandText.field, Json.get?] at h ⊢
  cases hv : Json.find? p (some (text key)) with
  | none => simp only [find?_eq_none_of_same hs hv]
  | some v =>
    obtain ⟨w, hw, hvw⟩ := find?_of_sameItems hs.1 hv
    simp only [hv, hw] at h ⊢
    obtain ⟨s, rfl, rfl⟩ | ⟨hn, hnw⟩ := same_str hvw
    · rfl
    · exact (break_first (hline v hn) (hline w hnw) h).1

/-! ### Envelopes -/

/-- What an envelope's auth block says. -/
def authOf (env : Items) : Json := ((Json.dict env).get? "auth").getD .null

/-- The signature is a MAC, under a secret in force, of no text but the one signed. -/
def Unforged (k : GatewayTexts) (a : GatewayMessageAuthenticator) (signed signature : Text) : Prop :=
  ∀ t, signature = tag k a.secret t ∨ a.previousSecret ≠ [] ∧ signature = tag k a.previousSecret t →
    t = signed

theorem signatureMatch_ok (h : signatureMatch k a signature p messageType signedAtMs = .ok ()) :
    ∃ t, signedText k p messageType signedAtMs = some t ∧ (signature = tag k a.secret t ∨
      a.previousSecret ≠ [] ∧ signature = tag k a.previousSecret t) := by
  unfold signatureMatch signatureWithSecret at h
  cases ht : signedText k p messageType signedAtMs with
  | none =>
    rw [ht] at h
    split_ifs at h <;> cases h
  | some t =>
    rw [ht] at h
    simp only [map_some] at h
    split_ifs at h with _ hc hp hm
    · exact ⟨t, rfl, .inl hc⟩
    · exact ⟨t, rfl, .inr ⟨hp, hm⟩⟩

variable {c : GatewayReplayCache} {st : ReplayStore} {env : Items} {device : Text}
  {requestId : Option Text} {currentMs : ℤ} {failure : Option StoreFailure}

theorem verifyEnvelope_ok {m : SignedMessage}
    (h : verifyEnvelope k a c env messageType device requestId currentMs = .ok m) :
    ∃ n t, (authOf env).get? "signed_at_ms" = some (.int n) ∧
      k.field (.dict (payloadWithoutAuth env)) "device_id" = device ∧
      signedText k (payloadWithoutAuth env) messageType n = some t ∧
      (k.field (authOf env) "signature" = tag k a.secret t ∨ a.previousSecret ≠ [] ∧
        k.field (authOf env) "signature" = tag k a.previousSecret t) := by
  unfold verifyEnvelope at h
  unfold authOf
  split at h
  case h_2 => cases h
  case h_1 auth hauth =>
    rw [hauth, getD_some]
    simp only at h
    split_ifs at h with _ _ hd
    · split at h <;> cases h
    · split at h <;> cases h
    · split at h
      case h_2 => cases h
      case h_1 n hn =>
        split at h
        case h_1 => cases h
        case h_2 hm =>
          obtain ⟨t, ht, ha⟩ := signatureMatch_ok a hm
          exact ⟨n, t, hn, not_not.mp hd, ht, ha⟩

theorem payloadWithoutAuth_sign (v : Json) :
    payloadWithoutAuth (payloadWithoutAuth payload ++ [(some (text "auth"), v)]) =
      payloadWithoutAuth payload := by
  unfold payloadWithoutAuth
  rw [List.filter_append, List.filter_filter]
  simp

theorem get?_auth_sign (v : Json) :
    (Json.dict (payloadWithoutAuth payload ++ [(some (text "auth"), v)])).get? "auth" = some v := by
  have hn : List.find? (fun item => decide (item.1 = some (text "auth")))
      (payloadWithoutAuth payload) = none :=
    List.find?_eq_none.mpr (fun item hitem => by simpa using (mem_filter.mp hitem).2)
  simp only [Json.get?, Json.find?, List.find?_append, hn]
  simp

theorem isSignature_tag (secret t : Text) : IsSignature (tag k secret t) := by
  unfold IsSignature tag
  rw [drop_left]
  exact ⟨prefix_append _ _, k.hex secret t⟩

theorem verifyEnvelope_sign
    (hs : signatureWithSecret k a.secret (payloadWithoutAuth payload) messageType signedAtMs =
      some signature) (hsign : sign k a payload messageType signedAtMs = some env)
    (hr : ∀ r ∈ requestId, r = k.field (.dict (payloadWithoutAuth payload)) "request_id") :
    verifyEnvelope k a c env messageType (k.field (.dict (payloadWithoutAuth payload)) "device_id")
        requestId currentMs =
      match (freshness c signedAtMs currentMs).or (c.refusal
        (replayKey k (payloadWithoutAuth payload) messageType signedAtMs signature) signedAtMs) with
      | some reason => .error (.replay reason)
      | none => .ok
        { replayKey := replayKey k (payloadWithoutAuth payload) messageType signedAtMs signature
          atMs := currentMs, payload := payloadWithoutAuth payload, signedAtMs := signedAtMs } := by
  unfold sign at hsign
  rw [hs, map_some] at hsign
  obtain rfl := some.inj hsign
  obtain ⟨t, -, ht⟩ := map_eq_some_iff.mp hs
  have hh : IsSignature signature := ht ▸ isSignature_tag _ _
  have hm : signatureMatch k a signature (payloadWithoutAuth payload) messageType signedAtMs =
      .ok () := by
    rw [signatureMatch, if_neg (not_not.mpr hh), hs]
    exact if_pos rfl
  have hr' : ¬ (requestId.isSome ∧
      requestId ≠ some (k.field (.dict (payloadWithoutAuth payload)) "request_id")) := by
    cases requestId with
    | none => exact fun h => absurd h.1 (by decide)
    | some r => exact fun h => h.2 (congrArg some (hr r rfl))
  obtain ⟨auth, hauth⟩ : ∃ auth, Json.obj [("scheme", .str (text "hmac-sha256")),
      ("signed_at_ms", .int signedAtMs), ("signature", .str signature)] = .dict auth := ⟨_, rfl⟩
  have hc : k.field (.dict auth) "scheme" = text "hmac-sha256" := by
    rw [← hauth]
    rfl
  have ha : k.field (.dict auth) "signature" = signature := by
    have htr : (Json.str (tag k a.secret t)).truthy = true := by
      simp [tag, Json.truthy, signaturePrefix, text]
    rw [← hauth, ← ht, CommandText.field, Json.get?_obj]
    simp [htr, CommandText.textOf]
  have htm : (Json.dict auth).get? "signed_at_ms" = some (.int signedAtMs) := by
    rw [← hauth, Json.get?_obj]
    simp
  rw [verifyEnvelope, get?_auth_sign, hauth]
  simp only [hc, ha, htm, payloadWithoutAuth_sign, hh.1, hr', hm, ne_eq,
    not_true_eq_false, if_false]

variable (k) in
/-- What the text under the MAC names, and what follows of the envelopes that verify. -/
structure UnambiguousMac : Prop where
  unambiguous : ∀ {p p' : Items} {messageType messageType' t : Text} {signedAtMs signedAtMs' : ℤ},
    codePoint '\n' ∉ messageType → codePoint '\n' ∉ messageType' →
    signedText k p messageType signedAtMs = some t →
    signedText k p' messageType' signedAtMs' = some t →
    messageType = messageType' ∧ signedAtMs = signedAtMs' ∧ Json.Same (.dict p) (.dict p')
  /-- Within the skew, only the replay cache decides. -/
  accepts : ∀ {c : GatewayReplayCache} (st : ReplayStore) {payload env : Items} {messageType : Text}
    {requestId : Option Text} {signature : Text} {signedAtMs currentMs : ℤ}
    (failure : Option StoreFailure),
    signatureWithSecret k a.secret (payloadWithoutAuth payload) messageType signedAtMs =
      some signature →
    sign k a payload messageType signedAtMs = some env →
    (∀ r ∈ requestId, r = k.field (.dict (payloadWithoutAuth payload)) "request_id") →
    c.refusal (replayKey k (payloadWithoutAuth payload) messageType signedAtMs signature)
      signedAtMs = none →
    freshness c signedAtMs currentMs = none →
    let key := replayKey k (payloadWithoutAuth payload) messageType signedAtMs signature
    let admitted := c.admitKey st key signedAtMs currentMs currentMs failure
    verify k a c st env messageType (k.field (.dict (payloadWithoutAuth payload)) "device_id")
        requestId currentMs failure =
      (admitted.1, admitted.2.1, match admitted.2.2 with
        | some reason => .error (.replay reason)
        | none => .ok (payloadWithoutAuth payload))
  rejects : ∀ {p : Items} {messageType t : Text} {signedAtMs : ℤ} (c : GatewayReplayCache)
    (st : ReplayStore) (env : Items) (messageType' device : Text) (requestId : Option Text)
    (currentMs : ℤ) (failure : Option StoreFailure),
    codePoint '\n' ∉ messageType → codePoint '\n' ∉ messageType' →
    signedText k p messageType signedAtMs = some t →
    Unforged k a t (k.field (authOf env) "signature") →
    messageType' ≠ messageType ∨ (authOf env).get? "signed_at_ms" ≠ some (.int signedAtMs) ∨
      ¬ Json.Same (.dict p) (.dict (payloadWithoutAuth env)) ∨
      device ≠ k.field (.dict p) "device_id" →
    ∃ reason, verify k a c st env messageType' device requestId currentMs failure =
      (c, st, .error reason)

theorem gateway_mac_unambiguous (k : GatewayTexts) (a : GatewayMessageAuthenticator) :
    UnambiguousMac k a where
  unambiguous hbreak hbreak' h h' := have hnamed := signedText_inj hbreak hbreak' h h'
    ⟨hnamed.1, hnamed.2.1, hnamed.2.2.1⟩
  accepts := by
    intro c st payload env messageType requestId signature signedAtMs currentMs failure hsignature
      hsign hrequest hunseen hfresh
    simp only [verify, verifyEnvelope_sign a hsignature hsign hrequest, hfresh, hunseen, none_or]
    split <;> rfl
  rejects := by
    intro p messageType t signedAtMs c st env messageType' device requestId currentMs failure hbreak
      hbreak' ht hunforged hdiffers
    unfold verify
    cases h : verifyEnvelope k a c env messageType' device requestId currentMs with
    | error reason => exact ⟨reason, rfl⟩
    | ok m =>
      exfalso
      obtain ⟨n, t', hn, rfl, ht', htag⟩ := verifyEnvelope_ok a h
      obtain rfl := hunforged t' htag
      obtain ⟨htype, rfl, hsame, hids⟩ := signedText_inj hbreak hbreak' ht ht'
      obtain hne | hne | hne | hne := hdiffers
      · exact hne htype.symm
      · exact hne hn
      · exact hne hsame
      · exact hne (field_eq_of_same hsame hids).symm

/-! ### An altered envelope -/

def benchPayload : Items := [(some (text "device_id"), .str (text "pump\n7"))]

def benchSigned : Text := text "command\npump\n7\n\n5\n\x7b\"device_id\":\"pump\\n7\"\x7d"

/-- A MAC that tells one text from every other. -/
def benchTexts : GatewayTexts where
  str _ := text "None"
  lower := id
  upper := id
  strip := id
  canonicalJson _ := []
  hmacSha256 _ t := List.replicate 64 (if t = benchSigned then codePoint '1' else codePoint '0')
  hex secret t := by
    refine ⟨List.length_replicate, fun c hc => ?_⟩
    rw [List.eq_of_mem_replicate hc]
    split_ifs <;> decide
  str_oneLine _ := by decide

def benchAuthenticator : GatewayMessageAuthenticator := ⟨text "secret", []⟩

/-- Moved under another message type, the envelope is refused and nothing is recorded. -/
theorem gateway_mac_unambiguous_retyped : ∃ env reason,
    sign benchTexts benchAuthenticator benchPayload (text "command") 5 = some env ∧
      verify benchTexts benchAuthenticator (.created 10 10 4 0) {} env (text "export")
        (text "pump\n7") none 5 none = (.created 10 10 4 0, {}, .error reason) := by
  have hsigned : signedText benchTexts benchPayload (text "command") 5 = some benchSigned := by
    decide +kernel
  have hsign : (sign benchTexts benchAuthenticator benchPayload (text "command") 5).any (fun env =>
      benchTexts.field (authOf env) "signature" = tag benchTexts [] benchSigned) = true := by
    decide +kernel
  obtain ⟨env, henv, hsignature⟩ := (any_eq_true _ _).mp hsign
  obtain ⟨reason, hrefused⟩ := (gateway_mac_unambiguous benchTexts benchAuthenticator).rejects
    (.created 10 10 4 0) {} env (text "export") (text "pump\n7") none 5 none (by decide) (by decide)
    hsigned (by
      rintro t (htag | ⟨hprevious, -⟩)
      · by_contra hne
        rw [of_decide_eq_true hsignature] at htag
        simp only [tag, benchTexts, if_neg hne] at htag
        exact absurd htag (by decide)
      · exact absurd rfl hprevious)
    (.inl (by decide))
  exact ⟨env, reason, henv, hrefused⟩

end GatewayMessages

end OriRuntime
