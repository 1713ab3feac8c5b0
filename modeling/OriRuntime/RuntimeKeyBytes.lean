import OriRuntime.CanonicalZone
import OriRuntime.FirmwareTelemetry
import OriRuntime.Ingest
import OriRuntime.SignedConfigs

/-!
# What the runtime command key signs

`build_command_bytes` of `ori/security/firmware/commands.py`, `build_liveness_bytes` of
`liveness.py` and the two domains of `signing_domains.py`. A field is given as any value; what the
checks let through needs no escape.
-/

namespace OriRuntime

open List Option

namespace RuntimeKey

open Telemetry (fleetTokenChars isLivenessNonce)
open JsonTree (AtomText)

def isFleetId (s : Text) : Bool :=
  decide (1 ≤ s.length ∧ s.length ≤ 48) &&
    s.all (fun c => fleetTokenChars.any (fun f => decide (f = c)))

/-- A field the device verifier would refuse. -/
inductive Unsignable where
  | notFleetIdentifier (field : String)
  | outsideVocabulary
  | capabilityHash
  | outOfRange (field : String)
  | nonce
  deriving DecidableEq

def actionMax : ℕ := 31

def channelMax : ℕ := 31

def bootIdMax : ℤ := 4294967295

def actions : List String := ["relay_open", "relay_close"]

/-! ### Commands -/

def requireFleetId (value : Json) (field : String) (maxLen : ℕ) : Except Unsignable Text :=
  match value with
  | .str s =>
    if isFleetId s = true ∧ s.length ≤ maxLen then .ok s else .error (.notFleetIdentifier field)
  | _ => .error (.notFleetIdentifier field)

def requireCapabilityHash (value : Json) : Except Unsignable Text :=
  match value with
  | .str s => if isSha256 s then .ok s else .error .capabilityHash
  | _ => .error .capabilityHash

/-- An integer, and no boolean, from one up to the bound. -/
def requireWithin (value : Json) (field : String) (max : ℤ) : Except Unsignable ℤ :=
  match value with
  | .int n => if 1 ≤ n ∧ n ≤ max then .ok n else .error (.outOfRange field)
  | _ => .error (.outOfRange field)

def requireVocabulary (action : Text) : Except Unsignable Unit :=
  if actions.any (fun a => decide (text a = action)) then .ok () else .error .outsideVocabulary

structure CommandFields where
  action : Json
  capabilityHash : Json
  channel : Json
  cmdSeq : Json
  deviceId : Json

/-- `_validate_command_fields`: the action, the channel and the device. -/
def validateCommandFields (action channel deviceId : Json) :
    Except Unsignable (Text × Text × Text) := do
  let actionId ← requireFleetId action "action" actionMax
  requireVocabulary actionId
  let channelId ← requireFleetId channel "channel" channelMax
  let device ← requireFleetId deviceId "device_id" 48
  return (actionId, channelId, device)

def commandText (action capabilityHash channel : Text) (cmdSeq : ℤ) (deviceId : Text) : Text :=
  text "\x7b\"action\":\"" ++ action ++ text "\",\"capability_hash\":\"" ++ capabilityHash ++
    text "\",\"channel\":\"" ++ channel ++ text "\",\"cmd_seq\":" ++ Json.intText cmdSeq ++
    text ",\"device_id\":\"" ++ deviceId ++ text "\",\"v\":1\x7d"

def buildCommandBytes (f : CommandFields) : Except Unsignable Text := do
  let (action, channel, deviceId) ← validateCommandFields f.action f.channel f.deviceId
  let capabilityHash ← requireCapabilityHash f.capabilityHash
  let cmdSeq ← requireWithin f.cmdSeq "cmd_seq" integerMax
  return commandText action capabilityHash channel cmdSeq deviceId

/-! ### Liveness -/

/-- A `nonce` of `None` is `null`. -/
structure LivenessFields where
  bootId : Json
  capabilityHash : Json
  deviceId : Json
  runtimeSeq : Json
  nonce : Json

def livenessText (bootId : ℤ) (capabilityHash deviceId : Text) (runtimeSeq : ℤ) :
    Option Text → Text
  | some nonce =>
    text "\x7b\"boot_id\":" ++ Json.intText bootId ++ text ",\"capability_hash\":\"" ++
      capabilityHash ++ text "\",\"device_id\":\"" ++ deviceId ++ text "\",\"nonce\":\"" ++ nonce ++
      text "\",\"runtime_seq\":" ++ Json.intText runtimeSeq ++ text ",\"v\":2\x7d"
  | none =>
    text "\x7b\"boot_id\":" ++ Json.intText bootId ++ text ",\"capability_hash\":\"" ++
      capabilityHash ++ text "\",\"device_id\":\"" ++ deviceId ++ text "\",\"runtime_seq\":" ++
      Json.intText runtimeSeq ++ text ",\"v\":1\x7d"

def requireNonce (value : Json) : Except Unsignable (Option Text) :=
  match value with
  | .null => .ok none
  | .str s => if isLivenessNonce s then .ok (some s) else .error .nonce
  | _ => .error .nonce

def buildLivenessBytes (f : LivenessFields) : Except Unsignable Text := do
  let deviceId ← requireFleetId f.deviceId "device_id" 48
  let capabilityHash ← requireCapabilityHash f.capabilityHash
  let bootId ← requireWithin f.bootId "boot_id" bootIdMax
  let runtimeSeq ← requireWithin f.runtimeSeq "runtime_seq" integerMax
  let nonce ← requireNonce f.nonce
  return livenessText bootId capabilityHash deviceId runtimeSeq nonce

/-! ### Domains -/

def commandDomain : Text := text "ori.firmware_command.v2"

def livenessDomain : Text := text "ori.firmware_liveness.v2"

def commandPreimage (command : Text) : Text := commandDomain ++ (0 : CodePoint) :: command

def livenessPreimage (liveness : Text) : Text := livenessDomain ++ (0 : CodePoint) :: liveness

/-! ### The objects -/

def CommandFields.object (f : CommandFields) : Json :=
  .obj [("action", f.action), ("capability_hash", f.capabilityHash), ("channel", f.channel),
    ("cmd_seq", f.cmdSeq), ("device_id", f.deviceId), ("v", .int 1)]

def LivenessFields.object (f : LivenessFields) : Json :=
  match f.nonce with
  | .null =>
    .obj [("boot_id", f.bootId), ("capability_hash", f.capabilityHash), ("device_id", f.deviceId),
      ("runtime_seq", f.runtimeSeq), ("v", .int 1)]
  | _ =>
    .obj [("boot_id", f.bootId), ("capability_hash", f.capabilityHash), ("device_id", f.deviceId),
      ("nonce", f.nonce), ("runtime_seq", f.runtimeSeq), ("v", .int 2)]

/-! ### Accepted fields -/

/-- A text whose UTF-8 bytes are its code points. -/
def Ascii (s : Text) : Prop := s.all (fun c => decide (c.val < 128)) = true

instance (s : Text) : Decidable (Ascii s) := inferInstanceAs (Decidable (_ = true))

variable {b p r s r' : Text} {value : Json} {n : ℤ} {f : LivenessFields}

theorem Ascii.append {t : Text} (hs : Ascii s) (ht : Ascii t) : Ascii (s ++ t) := by
  rw [Ascii, all_append, hs, ht, Bool.and_self]

theorem ascii_intText (n : ℤ) : Ascii (Json.intText n) := by
  have hn : Ascii (Json.natText n.natAbs) := by
    refine all_eq_true.mpr fun c hc => ?_
    have hd := Json.natText_digits _ c hc
    simp only [Json.isDigit, decide_eq_true_eq] at hd ⊢
    omega
  unfold Json.intText
  split_ifs
  · exact Ascii.append (s := [codePoint '-']) (by decide) hn
  · exact hn

/-- A text the encoder writes between its quotes as it is. -/
def Verbatim (s : Text) : Prop := ∀ c ∈ s, Json.escapeChar c = [c] ∧ c.val < 128

theorem verbatim_of_chars (chars : Text) (hs : ∀ c ∈ s, c ∈ chars)
    (hh : chars.all (fun c => decide (Json.escapeChar c = [c] ∧ c.val < 128)) = true) :
    Verbatim s :=
  fun c hc => by simpa using all_eq_true.mp hh c (hs c hc)

theorem verbatim_of_isFleetId (h : isFleetId s = true) : Verbatim s := by
  refine verbatim_of_chars fleetTokenChars (fun c hc => ?_) (by decide)
  have ha := (Bool.and_eq_true_iff.mp h).2
  simpa using all_eq_true.mp ha c hc

theorem escapeChar_plain {c : CodePoint} (hl : 35 ≤ c.val) (hback : c.val ≠ 92) :
    Json.escapeChar c = [c] := by
  have hn : ∀ d : CodePoint, d.val < 35 ∨ d.val = 92 → c ≠ d := by
    rintro d hd rfl
    omega
  unfold Json.escapeChar
  rw [if_neg (hn _ (by decide)), if_neg (hn _ (by decide)), if_neg (hn _ (by decide)),
    if_neg (hn _ (by decide)), if_neg (hn _ (by decide)), if_neg (hn _ (by decide)),
    if_neg (hn _ (by decide)), if_neg]
  intro ht
  have hv : c.val < 32 := ht
  omega

theorem verbatim_of_isLowerHex (h : ∀ c ∈ s, isLowerHex c = true) : Verbatim s := by
  intro c hc
  have hh : 48 ≤ c.val ∧ c.val ≤ 57 ∨ 97 ≤ c.val ∧ c.val ≤ 102 := of_decide_eq_true (h c hc)
  exact ⟨escapeChar_plain (by omega) (by omega), by omega⟩

theorem verbatim_of_isSha256 (h : isSha256 s = true) : Verbatim s := by
  unfold isSha256 hexForm at h
  simp only [Bool.and_eq_true, decide_eq_true_eq, List.all_eq_true] at h
  obtain ⟨⟨⟨rest, rfl⟩, -⟩, hh⟩ := h
  have hs : Verbatim (text "sha256:") :=
    verbatim_of_chars (text "sha256:") (fun _ => id) (by decide)
  intro c hc
  obtain hc | hc := List.mem_append.mp hc
  · exact hs c hc
  · refine verbatim_of_isLowerHex (fun d hd => hh d ?_) c hc
    rwa [List.drop_left' (show (text "sha256:").length = "sha256:".length by decide)]

theorem verbatim_of_isLivenessNonce (h : isLivenessNonce s = true) : Verbatim s := by
  refine verbatim_of_chars (text "0123456789abcdef") (fun c hc => ?_) (by decide)
  have ha := (Bool.and_eq_true_iff.mp h).2
  simpa using all_eq_true.mp ha c hc

theorem requireFleetId_spec {field : String} {maxLen : ℕ}
    (h : requireFleetId value field maxLen = .ok s) : value = .str s ∧ Verbatim s := by
  unfold requireFleetId at h
  split at h
  · split_ifs at h with hi
    cases h
    exact ⟨rfl, verbatim_of_isFleetId hi.1⟩
  · cases h

theorem requireCapabilityHash_spec (h : requireCapabilityHash value = .ok s) :
    value = .str s ∧ Verbatim s := by
  unfold requireCapabilityHash at h
  split at h
  · split_ifs at h with hs
    cases h
    exact ⟨rfl, verbatim_of_isSha256 hs⟩
  · cases h

theorem requireWithin_spec {field : String} {max : ℤ} (h : requireWithin value field max = .ok n) :
    value = .int n ∧ 1 ≤ n ∧ n ≤ max := by
  unfold requireWithin at h
  split at h
  · split_ifs at h with hr
    cases h
    exact ⟨rfl, hr⟩
  · cases h

def nonceJson : Option Text → Json
  | none => .null
  | some s => .str s

theorem requireNonce_spec {nonce : Option Text} (h : requireNonce value = .ok nonce) :
    value = nonceJson nonce ∧ ∀ s, nonce = some s → Verbatim s := by
  unfold requireNonce at h
  split at h
  · cases h
    exact ⟨rfl, nofun⟩
  · split_ifs at h with hn
    cases h
    refine ⟨rfl, fun s hs => ?_⟩
    cases hs
    exact verbatim_of_isLivenessNonce hn
  · cases h

/-- The fields of a command whose bytes are built. -/
structure CommandParts where
  action : Text
  capabilityHash : Text
  channel : Text
  cmdSeq : ℤ
  deviceId : Text
  actionVerbatim : Verbatim action
  capabilityVerbatim : Verbatim capabilityHash
  channelVerbatim : Verbatim channel
  deviceVerbatim : Verbatim deviceId
  seqWithin : 1 ≤ cmdSeq ∧ cmdSeq ≤ integerMax

def CommandParts.fields (p : CommandParts) : CommandFields where
  action := .str p.action
  capabilityHash := .str p.capabilityHash
  channel := .str p.channel
  cmdSeq := .int p.cmdSeq
  deviceId := .str p.deviceId

def CommandParts.bytes (p : CommandParts) : Text :=
  commandText p.action p.capabilityHash p.channel p.cmdSeq p.deviceId

theorem buildCommandBytes_spec {f : CommandFields} (h : buildCommandBytes f = .ok b) :
    ∃ p : CommandParts, f = p.fields ∧ b = p.bytes := by
  unfold buildCommandBytes validateCommandFields at h
  simp only [Execution.bind_eq_ok_iff] at h
  obtain ⟨⟨action, channel, deviceId⟩, hv, capabilityHash, hc, cmdSeq, hs, hb⟩ := h
  obtain ⟨_, ha, _, -, _, hh, _, hd, hp⟩ := hv
  obtain ⟨rfl, rfl, rfl⟩ : _ ∧ _ ∧ _ := by simpa using Except.ok.inj hp
  obtain ⟨ha, ha'⟩ := requireFleetId_spec ha
  obtain ⟨hh, hh'⟩ := requireFleetId_spec hh
  obtain ⟨hd, hd'⟩ := requireFleetId_spec hd
  obtain ⟨hc, hc'⟩ := requireCapabilityHash_spec hc
  obtain ⟨hs, hw⟩ := requireWithin_spec hs
  obtain ⟨a, c, ch, s, d⟩ := f
  subst ha hh hd hc hs
  exact ⟨⟨_, _, _, _, _, ha', hc', hh', hd', hw⟩, rfl, (Except.ok.inj hb).symm⟩

structure LivenessParts where
  bootId : ℤ
  capabilityHash : Text
  deviceId : Text
  runtimeSeq : ℤ
  nonce : Option Text
  capabilityVerbatim : Verbatim capabilityHash
  deviceVerbatim : Verbatim deviceId
  nonceVerbatim : ∀ s, nonce = some s → Verbatim s
  bootWithin : 1 ≤ bootId ∧ bootId ≤ bootIdMax
  seqWithin : 1 ≤ runtimeSeq ∧ runtimeSeq ≤ integerMax

def LivenessParts.fields (p : LivenessParts) : LivenessFields where
  bootId := .int p.bootId
  capabilityHash := .str p.capabilityHash
  deviceId := .str p.deviceId
  runtimeSeq := .int p.runtimeSeq
  nonce := nonceJson p.nonce

def LivenessParts.bytes (p : LivenessParts) : Text :=
  livenessText p.bootId p.capabilityHash p.deviceId p.runtimeSeq p.nonce

theorem buildLivenessBytes_spec (h : buildLivenessBytes f = .ok b) :
    ∃ p : LivenessParts, f = p.fields ∧ b = p.bytes := by
  unfold buildLivenessBytes at h
  simp only [Execution.bind_eq_ok_iff] at h
  obtain ⟨deviceId, hd, capabilityHash, hc, bootId, hboot, runtimeSeq, hs, nonce, hn, hb⟩ := h
  obtain ⟨hd, hd'⟩ := requireFleetId_spec hd
  obtain ⟨hc, hc'⟩ := requireCapabilityHash_spec hc
  obtain ⟨hboot, hbootWithin⟩ := requireWithin_spec hboot
  obtain ⟨hs, hseqWithin⟩ := requireWithin_spec hs
  obtain ⟨hn, hn'⟩ := requireNonce_spec hn
  obtain ⟨bo, ca, de, se, no⟩ := f
  subst hd hc hboot hs hn
  exact ⟨⟨_, _, _, _, _, hc', hd', hn', hbootWithin, hseqWithin⟩, rfl, (Except.ok.inj hb).symm⟩

/-! ### The text as that of an object -/

theorem escaped_verbatim (h : Verbatim s) : Json.escaped s = s := by
  induction s with
  | nil => rfl
  | cons c cs ih =>
    have hr := ih fun d hd => h d (mem_cons_of_mem _ hd)
    rw [Json.escaped, map_cons, flatten_cons, (h c mem_cons_self).1]
    exact congrArg (c :: ·) hr

theorem quoted_verbatim (h : Verbatim s) :
    Json.quoted s = codePoint '"' :: s ++ [codePoint '"'] := by
  rw [Json.quoted, escaped_verbatim h]

def CommandParts.tree (p : CommandParts) : List (Text × JsonTree) :=
  [(text "action", .str p.action), (text "capability_hash", .str p.capabilityHash),
    (text "channel", .str p.channel), (text "cmd_seq", .atom (Json.intText p.cmdSeq)),
    (text "device_id", .str p.deviceId), (text "v", .atom (text "1"))]

theorem CommandParts.render_tree (p : CommandParts) : JsonTree.render (.dict p.tree) = p.bytes := by
  have hopen : text "\x7b\"action\":\"" =
      codePoint '\x7b' :: (Json.quoted (text "action") ++ [codePoint ':', codePoint '"']) := by decide
  have hhash : text "\",\"capability_hash\":\"" = codePoint '"' :: codePoint ',' ::
      (Json.quoted (text "capability_hash") ++ [codePoint ':', codePoint '"']) := by decide
  have hchannel : text "\",\"channel\":\"" = codePoint '"' :: codePoint ',' ::
      (Json.quoted (text "channel") ++ [codePoint ':', codePoint '"']) := by decide
  have hs : text "\",\"cmd_seq\":" = codePoint '"' :: codePoint ',' ::
      (Json.quoted (text "cmd_seq") ++ [codePoint ':']) := by decide
  have hdevice : text ",\"device_id\":\"" =
      codePoint ',' :: (Json.quoted (text "device_id") ++ [codePoint ':', codePoint '"']) := by decide
  have hclose : text "\",\"v\":1\x7d" = codePoint '"' :: codePoint ',' ::
      (Json.quoted (text "v") ++ codePoint ':' :: (text "1" ++ [codePoint '\x7d'])) := by decide
  simp only [CommandParts.tree, JsonTree.render, JsonTree.renderItems, CommandParts.bytes, commandText,
    quoted_verbatim p.actionVerbatim, quoted_verbatim p.capabilityVerbatim,
    quoted_verbatim p.channelVerbatim, quoted_verbatim p.deviceVerbatim, hopen, hhash, hchannel, hs,
    hdevice, hclose, append_assoc, cons_append, nil_append]

def LivenessParts.tree (p : LivenessParts) : List (Text × JsonTree) :=
  match p.nonce with
  | none =>
    [(text "boot_id", .atom (Json.intText p.bootId)), (text "capability_hash", .str p.capabilityHash),
      (text "device_id", .str p.deviceId), (text "runtime_seq", .atom (Json.intText p.runtimeSeq)),
      (text "v", .atom (text "1"))]
  | some nonce =>
    [(text "boot_id", .atom (Json.intText p.bootId)), (text "capability_hash", .str p.capabilityHash),
      (text "device_id", .str p.deviceId), (text "nonce", .str nonce),
      (text "runtime_seq", .atom (Json.intText p.runtimeSeq)), (text "v", .atom (text "2"))]

theorem LivenessParts.render_tree (p : LivenessParts) :
    JsonTree.render (.dict p.tree) = p.bytes := by
  have hopen : text "\x7b\"boot_id\":" =
      codePoint '\x7b' :: (Json.quoted (text "boot_id") ++ [codePoint ':']) := by decide
  have hhash : text ",\"capability_hash\":\"" =
      codePoint ',' :: (Json.quoted (text "capability_hash") ++ [codePoint ':', codePoint '"']) := by
    decide
  have hdevice : text "\",\"device_id\":\"" = codePoint '"' :: codePoint ',' ::
      (Json.quoted (text "device_id") ++ [codePoint ':', codePoint '"']) := by decide
  have hnonce : text "\",\"nonce\":\"" = codePoint '"' :: codePoint ',' ::
      (Json.quoted (text "nonce") ++ [codePoint ':', codePoint '"']) := by decide
  have hs : text "\",\"runtime_seq\":" = codePoint '"' :: codePoint ',' ::
      (Json.quoted (text "runtime_seq") ++ [codePoint ':']) := by decide
  have hclose₁ : text ",\"v\":1\x7d" = codePoint ',' ::
      (Json.quoted (text "v") ++ codePoint ':' :: (text "1" ++ [codePoint '\x7d'])) := by decide
  have hclose₂ : text ",\"v\":2\x7d" = codePoint ',' ::
      (Json.quoted (text "v") ++ codePoint ':' :: (text "2" ++ [codePoint '\x7d'])) := by decide
  unfold LivenessParts.tree LivenessParts.bytes
  split
  · rename_i hnone
    simp only [hnone, livenessText, JsonTree.render, JsonTree.renderItems,
      quoted_verbatim p.capabilityVerbatim, quoted_verbatim p.deviceVerbatim, hopen, hhash, hdevice,
      hs, hclose₁, append_assoc, cons_append, nil_append]
  · rename_i nonce hsome
    simp only [hsome, livenessText, JsonTree.render, JsonTree.renderItems,
      quoted_verbatim p.capabilityVerbatim, quoted_verbatim p.deviceVerbatim,
      quoted_verbatim (p.nonceVerbatim nonce hsome), hopen, hhash, hdevice, hnonce, hs, hclose₂,
      append_assoc, cons_append, nil_append]

/-! ### Canonical bytes -/

theorem sorted_obj {items : List (String × Json)}
    (hn : (items.map fun i => some (text i.1)).Pairwise fun k l => Json.keyLe k l = true)
    (ha : ∀ item ∈ items, item.2.sorted = item.2) : (Json.obj items).sorted = .obj items := by
  have hv : (items.map fun i => ((some (text i.1), i.2) : Option Text × Json)).map
      (fun i => (i.1, i.2.sorted)) = items.map fun i => (some (text i.1), i.2) := by
    rw [List.map_map]
    apply List.map_congr_left
    intro i hi
    simp only [Function.comp_apply, ha i hi]
  rw [Json.obj, Json.sorted_dict, hv, List.Pairwise.insertionSort_eq]
  rw [List.pairwise_map] at hn ⊢
  exact hn

theorem Verbatim.not_surrogate (h : Verbatim s) : s.any isSurrogate = false := by
  rw [List.any_eq_false]
  intro c hc
  have hl := (h c hc).2
  simp only [isSurrogate, decide_eq_true_eq]
  omega

theorem Verbatim.ascii (h : Verbatim s) : Ascii s :=
  all_eq_true.mpr fun c hc => decide_eq_true (h c hc).2

theorem abs_le_integerMax {max : ℤ} (hm : max ≤ integerMax) (h : 1 ≤ n ∧ n ≤ max) :
    |n| ≤ integerMax := by
  rw [abs_of_nonneg (by omega)]
  omega

theorem CommandParts.canonical (p : CommandParts) :
    Json.canonicalJson p.fields.object = .ok p.bytes := by
  have hs : p.fields.object.sorted = p.fields.object := by
    refine sorted_obj (by simp only [map_cons, map_nil]; decide) ?_
    simp [CommandParts.fields, Json.sorted]
  have hr : Json.render p.fields.object = JsonTree.render (.dict p.tree) := by
    simp only [CommandFields.object, CommandParts.fields, CommandParts.tree, Json.obj, map_cons,
      map_nil, Json.render, Json.renderItems, JsonTree.render, JsonTree.renderItems,
      getD_some]
    rfl
  rw [Json.canonicalJson_eq_ok_iff, Json.dumps, hs]
  refine ⟨?_, ?_, hr.trans p.render_tree⟩
  · simp only [CommandFields.object, CommandParts.fields, Json.obj, map_cons, map_nil,
      Json.InZone, Json.InZoneItems]
    exact ⟨rfl, trivial, rfl, trivial, rfl, trivial, rfl, abs_le_integerMax le_rfl p.seqWithin, rfl,
      trivial, rfl, by decide, trivial⟩
  · rw [Json.any_render]
    simp only [CommandFields.object, CommandParts.fields, Json.obj, map_cons, map_nil,
      Json.Plain, Json.PlainItems]
    exact ⟨by decide, p.actionVerbatim.not_surrogate, by decide, p.capabilityVerbatim.not_surrogate,
      by decide, p.channelVerbatim.not_surrogate, by decide, trivial, by decide,
      p.deviceVerbatim.not_surrogate, by decide, trivial, trivial⟩

theorem LivenessParts.canonical (p : LivenessParts) :
    Json.canonicalJson p.fields.object = .ok p.bytes := by
  have hboot := abs_le_integerMax (by decide : bootIdMax ≤ integerMax) p.bootWithin
  have he := abs_le_integerMax le_rfl p.seqWithin
  rw [Json.canonicalJson_eq_ok_iff, Json.dumps, ← p.render_tree]
  cases hn : p.nonce with
  | none =>
    have ho : p.fields.object = .obj [("boot_id", .int p.bootId),
        ("capability_hash", .str p.capabilityHash), ("device_id", .str p.deviceId),
        ("runtime_seq", .int p.runtimeSeq), ("v", .int 1)] := by
      simp only [LivenessFields.object, LivenessParts.fields, hn, nonceJson]
    have hs : p.fields.object.sorted = p.fields.object := by
      rw [ho]
      refine sorted_obj (by simp only [map_cons, map_nil]; decide) ?_
      simp [Json.sorted]
    rw [hs, ho]
    refine ⟨?_, ?_, ?_⟩
    · simp only [Json.obj, map_cons, map_nil, Json.InZone, Json.InZoneItems]
      exact ⟨rfl, hboot, rfl, trivial, rfl, trivial, rfl, he, rfl, by decide, trivial⟩
    · rw [Json.any_render]
      simp only [Json.obj, map_cons]
      exact ⟨by decide, trivial, by decide, p.capabilityVerbatim.not_surrogate, by decide,
        p.deviceVerbatim.not_surrogate, by decide, trivial, by decide, trivial, trivial⟩
    · simp only [LivenessParts.tree, hn, Json.obj, map_cons, map_nil, Json.render,
        Json.renderItems, JsonTree.render, JsonTree.renderItems, getD_some]
      rfl
  | some nonce =>
    have ho : p.fields.object = .obj [("boot_id", .int p.bootId),
        ("capability_hash", .str p.capabilityHash), ("device_id", .str p.deviceId),
        ("nonce", .str nonce), ("runtime_seq", .int p.runtimeSeq), ("v", .int 2)] := by
      simp only [LivenessFields.object, LivenessParts.fields, hn, nonceJson]
    have hs : p.fields.object.sorted = p.fields.object := by
      rw [ho]
      refine sorted_obj (by simp only [map_cons, map_nil]; decide) ?_
      simp [Json.sorted]
    rw [hs, ho]
    refine ⟨?_, ?_, ?_⟩
    · simp only [Json.obj, map_cons, map_nil, Json.InZone, Json.InZoneItems]
      exact ⟨rfl, hboot, rfl, trivial, rfl, trivial, rfl, trivial, rfl, he, rfl, by decide, trivial⟩
    · rw [Json.any_render]
      simp only [Json.obj, map_cons]
      exact ⟨by decide, trivial, by decide, p.capabilityVerbatim.not_surrogate, by decide,
        p.deviceVerbatim.not_surrogate, by decide, (p.nonceVerbatim nonce hn).not_surrogate,
        by decide, trivial, by decide, trivial, trivial⟩
    · simp only [LivenessParts.tree, hn, Json.obj, map_cons, map_nil, Json.render,
        Json.renderItems, JsonTree.render, JsonTree.renderItems, getD_some]
      rfl

theorem CommandParts.ascii (p : CommandParts) : Ascii p.bytes := by
  exact ((((((((((show Ascii _ by decide).append p.actionVerbatim.ascii).append (by decide)).append
    p.capabilityVerbatim.ascii).append (by decide)).append p.channelVerbatim.ascii).append
    (by decide)).append (ascii_intText _)).append (by decide)).append p.deviceVerbatim.ascii).append
    (by decide)

theorem LivenessParts.ascii (p : LivenessParts) : Ascii p.bytes := by
  unfold LivenessParts.bytes
  cases hn : p.nonce with
  | none =>
    exact ((((((((show Ascii _ by decide).append (ascii_intText _)).append (by decide)).append
      p.capabilityVerbatim.ascii).append (by decide)).append p.deviceVerbatim.ascii).append
      (by decide)).append (ascii_intText _)).append (by decide)
  | some nonce =>
    exact ((((((((((show Ascii _ by decide).append (ascii_intText _)).append (by decide)).append
      p.capabilityVerbatim.ascii).append (by decide)).append p.deviceVerbatim.ascii).append
      (by decide)).append (p.nonceVerbatim nonce hn).ascii).append (by decide)).append
      (ascii_intText _)).append (by decide)

/-! ### What the bytes name -/

theorem intText_injective {m : ℤ} (h : Json.intText n = Json.intText m) : n = m := by
  have hstop : Json.Stops [] := nofun
  have hn := Json.parseNumber_intText n hstop
  rw [h, Json.parseNumber_intText m hstop] at hn
  obtain ⟨hv, -⟩ := Prod.mk.inj (some.inj hn)
  exact (Json.int.inj hv).symm

theorem CommandParts.plain (p : CommandParts) : JsonTree.PlainItems p.tree :=
  ⟨trivial, trivial, trivial, ConfigSignature.atomText_intText _, trivial,
    ConfigSignature.atomText_intText 1, trivial⟩

theorem LivenessParts.plain (p : LivenessParts) : JsonTree.PlainItems p.tree := by
  unfold LivenessParts.tree
  split
  · exact ⟨ConfigSignature.atomText_intText _, trivial, trivial, ConfigSignature.atomText_intText _,
      ConfigSignature.atomText_intText 1, trivial⟩
  · exact ⟨ConfigSignature.atomText_intText _, trivial, trivial, trivial,
      ConfigSignature.atomText_intText _, ConfigSignature.atomText_intText 2, trivial⟩

theorem CommandParts.fields_of_tree {p q : CommandParts} (h : p.tree = q.tree) :
    p.fields = q.fields := by
  simp only [CommandParts.tree, List.cons.injEq, Prod.mk.injEq, true_and, and_true, JsonTree.str.injEq,
    JsonTree.atom.injEq] at h
  obtain ⟨ha, hhash, hc, hs, hd⟩ := h
  simp only [CommandParts.fields, ha, hhash, hc, intText_injective hs, hd]

theorem LivenessParts.fields_of_tree {p q : LivenessParts} (h : p.tree = q.tree) :
    p.fields = q.fields := by
  unfold LivenessParts.tree at h
  cases hp : p.nonce with
  | none =>
    cases hq : q.nonce with
    | none =>
      simp only [hp, hq, List.cons.injEq, Prod.mk.injEq, true_and, and_true, JsonTree.str.injEq,
        JsonTree.atom.injEq] at h
      obtain ⟨hboot, hhash, hd, hs⟩ := h
      simp only [LivenessParts.fields, hp, hq, intText_injective hboot, hhash, hd,
        intText_injective hs]
    | some _ =>
      rw [hp, hq] at h
      exact absurd (congrArg List.length h) (by simp)
  | some _ =>
    cases hq : q.nonce with
    | none =>
      rw [hp, hq] at h
      exact absurd (congrArg List.length h) (by simp)
    | some _ =>
      simp only [hp, hq, List.cons.injEq, Prod.mk.injEq, true_and, and_true, JsonTree.str.injEq,
        JsonTree.atom.injEq] at h
      obtain ⟨hboot, hhash, hd, hn, hs⟩ := h
      simp only [LivenessParts.fields, hp, hq, intText_injective hboot, hhash, hd, hn,
        intText_injective hs]

theorem command_append_inj {f g : CommandFields} {c : Text} (hf : buildCommandBytes f = .ok b)
    (hg : buildCommandBytes g = .ok c) (h : b ++ r = c ++ r') : f = g ∧ r = r' := by
  obtain ⟨p, rfl, rfl⟩ := buildCommandBytes_spec hf
  obtain ⟨q, rfl, rfl⟩ := buildCommandBytes_spec hg
  rw [← p.render_tree, ← q.render_tree] at h
  obtain ⟨htree, hr⟩ := JsonTree.dict_append_inj p.plain q.plain h
  exact ⟨CommandParts.fields_of_tree htree, hr⟩

theorem liveness_append_inj {g : LivenessFields} {c : Text} (hf : buildLivenessBytes f = .ok b)
    (hg : buildLivenessBytes g = .ok c) (h : b ++ r = c ++ r') : f = g ∧ r = r' := by
  obtain ⟨p, rfl, rfl⟩ := buildLivenessBytes_spec hf
  obtain ⟨q, rfl, rfl⟩ := buildLivenessBytes_spec hg
  rw [← p.render_tree, ← q.render_tree] at h
  obtain ⟨htree, hr⟩ := JsonTree.dict_append_inj p.plain q.plain h
  exact ⟨LivenessParts.fields_of_tree htree, hr⟩

/-- What a signature of the runtime command key covers. -/
inductive Signed where
  | command (f : CommandFields)
  | liveness (f : LivenessFields)

def Signed.preimage : Signed → Except Unsignable Text
  | .command f => do
    let b ← buildCommandBytes f
    return commandPreimage b
  | .liveness f => do
    let b ← buildLivenessBytes f
    return livenessPreimage b

theorem preimage_command {f : CommandFields} (h : (Signed.command f).preimage = .ok p) :
    ∃ b, buildCommandBytes f = .ok b ∧ p = commandPreimage b := by
  obtain ⟨b, hb, hp⟩ := Execution.bind_eq_ok_iff.mp h
  exact ⟨b, hb, (Except.ok.inj hp).symm⟩

theorem preimage_liveness (h : (Signed.liveness f).preimage = .ok p) :
    ∃ b, buildLivenessBytes f = .ok b ∧ p = livenessPreimage b := by
  obtain ⟨b, hb, hp⟩ := Execution.bind_eq_ok_iff.mp h
  exact ⟨b, hb, (Except.ok.inj hp).symm⟩

theorem domains_apart (b c : Text) (r r' : Text) :
    commandPreimage b ++ r ≠ livenessPreimage c ++ r' := by
  intro h
  have hchar := congrArg (fun t => t[13]?) h
  simp only [commandPreimage, livenessPreimage, append_assoc] at hchar
  rw [List.getElem?_append_left (by decide), List.getElem?_append_left (by decide)] at hchar
  exact absurd hchar (by decide)

theorem preimage_append_inj {s s' : Signed} {q : Text} (hp : s.preimage = .ok p)
    (hq : s'.preimage = .ok q) (h : p ++ r = q ++ r') : s = s' ∧ r = r' := by
  cases s with
  | command f =>
    obtain ⟨b, hb, rfl⟩ := preimage_command hp
    cases s' with
    | command g =>
      obtain ⟨c, hc, rfl⟩ := preimage_command hq
      simp only [commandPreimage, append_assoc] at h
      obtain ⟨rfl, hr⟩ := command_append_inj hb hc (List.cons.inj (append_cancel_left h)).2
      exact ⟨rfl, hr⟩
    | liveness g =>
      obtain ⟨c, -, rfl⟩ := preimage_liveness hq
      exact (domains_apart _ _ _ _ h).elim
  | liveness f =>
    obtain ⟨b, hb, rfl⟩ := preimage_liveness hp
    cases s' with
    | command g =>
      obtain ⟨c, -, rfl⟩ := preimage_command hq
      exact (domains_apart _ _ _ _ h.symm).elim
    | liveness g =>
      obtain ⟨c, hc, rfl⟩ := preimage_liveness hq
      simp only [livenessPreimage, append_assoc] at h
      obtain ⟨rfl, hr⟩ := liveness_append_inj hb hc (List.cons.inj (append_cancel_left h)).2
      exact ⟨rfl, hr⟩

theorem preimage_ascii {s : Signed} (hp : s.preimage = .ok p) : Ascii p := by
  have hf : ∀ {domain b : Text}, Ascii domain → Ascii b → Ascii (domain ++ (0 : CodePoint) :: b) :=
    fun hd hb => hd.append (Ascii.append (s := [0]) (by decide) hb)
  cases s with
  | command f =>
    obtain ⟨b, hb, rfl⟩ := preimage_command hp
    obtain ⟨parts, -, rfl⟩ := buildCommandBytes_spec hb
    exact hf (by decide) parts.ascii
  | liveness f =>
    obtain ⟨b, hb, rfl⟩ := preimage_liveness hp
    obtain ⟨parts, -, rfl⟩ := buildLivenessBytes_spec hb
    exact hf (by decide) parts.ascii

theorem canonicalJsonBytes_of_canonical {v : Json} (h : Json.canonicalJson v = .ok b) :
    Telemetry.canonicalJsonBytes v = .ok b := by
  rw [Telemetry.canonicalJsonBytes, h]

/-- What is signed is canonical, names its fields, and stands apart from whatever else is signed. -/
theorem preimages_apart :
    (∀ f b, buildCommandBytes f = .ok b → Telemetry.canonicalJsonBytes f.object = .ok b) ∧
    (∀ f b, buildLivenessBytes f = .ok b → Telemetry.canonicalJsonBytes f.object = .ok b) ∧
    (∀ f g b, buildCommandBytes f = .ok b → buildCommandBytes g = .ok b → f = g) ∧
    (∀ f g b, buildLivenessBytes f = .ok b → buildLivenessBytes g = .ok b → f = g) ∧
    (∀ b c, commandPreimage b ≠ livenessPreimage c) ∧
    (∀ s s' : Signed, ∀ p q, s.preimage = .ok p → s'.preimage = .ok q → p <+: q → s = s' ∧ p = q) ∧
    ∀ s : Signed, ∀ p, s.preimage = .ok p → Ascii p := by
  refine ⟨?_, ?_, ?_, ?_, ?_, ?_, fun s p => preimage_ascii⟩
  · intro f b h
    obtain ⟨p, rfl, rfl⟩ := buildCommandBytes_spec h
    exact canonicalJsonBytes_of_canonical p.canonical
  · intro f b h
    obtain ⟨p, rfl, rfl⟩ := buildLivenessBytes_spec h
    exact canonicalJsonBytes_of_canonical p.canonical
  · intro f g b hf hg
    exact (command_append_inj hf hg (Eq.refl (b ++ []))).1
  · intro f g b hf hg
    exact (liveness_append_inj hf hg (Eq.refl (b ++ []))).1
  · intro b c h
    exact domains_apart b c [] [] (by rw [h])
  · rintro s s' p q hp hq ⟨r, hr⟩
    have heq : p ++ r = q ++ [] := by rw [hr, append_nil]
    obtain ⟨hsame, hempty⟩ := preimage_append_inj hp hq heq
    exact ⟨hsame, by rw [← hr, hempty, append_nil]⟩

def benchCommand : CommandFields where
  action := .str (text "relay_open")
  capabilityHash := .str (text "sha256:" ++ List.replicate 64 (codePoint '0'))
  channel := .str (text "relay-a")
  cmdSeq := .int 7
  deviceId := .str (text "ridge-node-1")

theorem preimages_apart_bench : ∃ b, buildCommandBytes benchCommand = .ok b ∧
    Telemetry.canonicalJsonBytes benchCommand.object = .ok b := by
  have hbuilt : (buildCommandBytes benchCommand).toOption.isSome = true := by decide +kernel
  cases hb : buildCommandBytes benchCommand with
  | error e =>
    rw [hb] at hbuilt
    cases hbuilt
  | ok b => exact ⟨b, rfl, preimages_apart.1 _ _ hb⟩

end RuntimeKey

end OriRuntime
