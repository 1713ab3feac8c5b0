import OriRuntime.Json
import Mathlib.Data.List.DropRight

/-!
# Classifying an approval reply

`_classify_approval_response` of `ori/reasoning/action_dispatcher.py`. Only ASCII is folded and
trimmed, so every test of it reads a reply through the lower case of its ASCII letters.
-/

namespace OriRuntime

open List

namespace Reply

inductive ReplyClass where
  | invalid
  | token
  | approve
  | reject
  deriving DecidableEq

def isAsciiSpace (c : CodePoint) : Bool :=
  decide (c.val ∈ [32, 9, 10, 13, 11, 12, 28, 29, 30, 31])

def isAscii (c : CodePoint) : Bool := decide (c.val < 128)

def lowerChar (c : CodePoint) : CodePoint :=
  if 65 ≤ c.val ∧ c.val ≤ 90 then Fin.ofNat 0x110000 (c.val + 32) else c

def upperChar (c : CodePoint) : CodePoint :=
  if 97 ≤ c.val ∧ c.val ≤ 122 then Fin.ofNat 0x110000 (c.val - 32) else c

/-- `lower` and `upper` of an ASCII text. -/
def lower (s : Text) : Text := s.map lowerChar

def upper (s : Text) : Text := s.map upperChar

def isAsciiAlnum (c : CodePoint) : Bool :=
  decide (48 ≤ c.val ∧ c.val ≤ 57 ∨ 65 ≤ c.val ∧ c.val ≤ 90 ∨ 97 ≤ c.val ∧ c.val ≤ 122)

/-- `strip(ASCII_WHITESPACE)`. -/
def strip (s : Text) : Text := (s.dropWhile isAsciiSpace).rdropWhile isAsciiSpace

def normalizeProposalId (value : Option Text) : Text :=
  upper ((value.getD []).filter isAsciiAlnum)

def yesTokens : List String := ["yes", "y", "approve", "go", "ok", "confirm"]

def noTokens : List String := ["no", "n", "cancel", "stop", "reject", "deny"]

def among (tokens : List String) (s : Text) : Bool := tokens.any (fun t => decide (text t = s))

def hyphen : CodePoint := codePoint '-'

/-- The parts of `split("-", 1)`. -/
def head (raw : Text) : Text := raw.takeWhile (fun c => decide (c ≠ hyphen))

def suffix (raw : Text) : Text := (raw.dropWhile (fun c => decide (c ≠ hyphen))).drop 1

/-- What a classification is made under. -/
structure Scope where
  proposalId : Option Text
  allowOfflineToken : Bool := false
  requireScoped : Bool := false

/-- The lower case of a token, or the empty text where it is not ASCII. -/
def folded (s : Text) : Text := if s.all isAscii then lower s else []

def verdict (s : Text) : ReplyClass :=
  if among yesTokens s then .approve else if among noTokens s then .reject else .invalid

/-- The scoped form: a verb, a hyphen and the proposal's id. -/
def classifyScoped (raw : Text) (proposalId : Option Text) : ReplyClass :=
  let expected := normalizeProposalId proposalId
  if expected = [] ∨ normalizeProposalId (some (suffix raw)) ≠ expected then .invalid
  else if (head raw).all isAscii then verdict (lower (strip (head raw)))
  else verdict []

def classifyRaw (raw : Text) (scope : Scope) : ReplyClass :=
  if raw = [] then .invalid
  else if scope.allowOfflineToken ∧ (raw.take 6).all isAscii ∧ upper (raw.take 6) = text "TOKEN:" then
    .token
  else if scope.requireScoped then
    if hyphen ∉ raw then .invalid else classifyScoped raw scope.proposalId
  else if among yesTokens (folded raw) then .approve
  else if among noTokens (folded raw) then .reject
  else if hyphen ∉ raw then .invalid
  else classifyScoped raw scope.proposalId

def classify (response : Option Text) (scope : Scope) : ReplyClass :=
  match response with
  | none => .invalid
  | some r => classifyRaw (strip r) scope

/-! ### Case -/

theorem val_ofNat {n : ℕ} (h : n < 0x110000) : (Fin.ofNat 0x110000 n).val = n := Nat.mod_eq_of_lt h

theorem val_lowerChar (c : CodePoint) :
    (lowerChar c).val = if 65 ≤ c.val ∧ c.val ≤ 90 then c.val + 32 else c.val := by
  unfold lowerChar
  split_ifs with h
  · exact val_ofNat (by omega)
  · rfl

theorem val_upperChar (c : CodePoint) :
    (upperChar c).val = if 97 ≤ c.val ∧ c.val ≤ 122 then c.val - 32 else c.val := by
  unfold upperChar
  split_ifs with h
  · exact val_ofNat (by omega)
  · rfl

@[simp] theorem lowerChar_lowerChar (c : CodePoint) : lowerChar (lowerChar c) = lowerChar c := by
  apply Fin.ext
  simp only [val_lowerChar]
  split_ifs <;> omega

@[simp] theorem upperChar_lowerChar (c : CodePoint) : upperChar (lowerChar c) = upperChar c := by
  apply Fin.ext
  simp only [val_upperChar, val_lowerChar]
  split_ifs <;> omega

@[simp] theorem isAscii_lowerChar (c : CodePoint) : isAscii (lowerChar c) = isAscii c := by
  unfold isAscii
  rw [val_lowerChar, decide_eq_decide]
  split_ifs <;> omega

@[simp] theorem isAsciiSpace_lowerChar (c : CodePoint) :
    isAsciiSpace (lowerChar c) = isAsciiSpace c := by
  unfold isAsciiSpace
  rw [val_lowerChar, decide_eq_decide]
  simp only [mem_cons, not_mem_nil, or_false]
  split_ifs <;> omega

@[simp] theorem isAsciiAlnum_lowerChar (c : CodePoint) :
    isAsciiAlnum (lowerChar c) = isAsciiAlnum c := by
  unfold isAsciiAlnum
  rw [val_lowerChar, decide_eq_decide]
  split_ifs <;> omega

variable {c : CodePoint} {p : CodePoint → Bool} {b r : Text}

theorem lowerChar_eq_hyphen_iff : lowerChar c = hyphen ↔ c = hyphen := by
  have hv : hyphen.val = 45 := rfl
  rw [Fin.ext_iff, Fin.ext_iff, val_lowerChar, hv]
  split_ifs <;> omega

theorem lower_lower (s : Text) : lower (lower s) = lower s := by
  unfold lower
  rw [map_map]
  exact map_congr_left (fun c _ => lowerChar_lowerChar c)

theorem upper_lower (s : Text) : upper (lower s) = upper s := by
  unfold upper lower
  rw [map_map]
  exact map_congr_left (fun c _ => upperChar_lowerChar c)

theorem all_lower (hp : ∀ c, p (lowerChar c) = p c) (s : Text) : (lower s).all p = s.all p := by
  unfold lower
  rw [all_map]
  exact congrArg (fun q => s.all q) (funext hp)

theorem dropWhile_lower (hp : ∀ c, p (lowerChar c) = p c) (s : Text) :
    (lower s).dropWhile p = lower (s.dropWhile p) := by
  unfold lower
  rw [dropWhile_map]
  exact congrArg (fun q => (s.dropWhile q).map lowerChar) (funext hp)

theorem takeWhile_lower (hp : ∀ c, p (lowerChar c) = p c) (s : Text) :
    (lower s).takeWhile p = lower (s.takeWhile p) := by
  unfold lower
  rw [takeWhile_map]
  exact congrArg (fun q => (s.takeWhile q).map lowerChar) (funext hp)

theorem rdropWhile_lower (hp : ∀ c, p (lowerChar c) = p c) (s : Text) :
    (lower s).rdropWhile p = lower (s.rdropWhile p) := by
  unfold List.rdropWhile
  have hr : (lower s).reverse = lower s.reverse := map_reverse.symm
  rw [hr, dropWhile_lower hp]
  exact map_reverse.symm

theorem strip_lower (s : Text) : strip (lower s) = lower (strip s) := by
  unfold strip
  rw [dropWhile_lower isAsciiSpace_lowerChar, rdropWhile_lower isAsciiSpace_lowerChar]

theorem ne_hyphen_lowerChar (c : CodePoint) : decide (lowerChar c ≠ hyphen) = decide (c ≠ hyphen) :=
  decide_eq_decide.mpr (not_congr lowerChar_eq_hyphen_iff)

theorem head_lower (s : Text) : head (lower s) = lower (head s) :=
  takeWhile_lower ne_hyphen_lowerChar s

theorem suffix_lower (s : Text) : suffix (lower s) = lower (suffix s) := by
  unfold suffix
  rw [dropWhile_lower ne_hyphen_lowerChar]
  exact map_drop.symm

theorem mem_hyphen_lower {s : Text} : hyphen ∈ lower s ↔ hyphen ∈ s := by
  unfold lower
  rw [mem_map]
  constructor
  · rintro ⟨c, hc, heq⟩
    exact lowerChar_eq_hyphen_iff.mp heq ▸ hc
  · exact fun h => ⟨hyphen, h, lowerChar_eq_hyphen_iff.mpr rfl⟩

theorem normalizeProposalId_lower (s : Text) :
    normalizeProposalId (some (lower s)) = normalizeProposalId (some s) := by
  unfold normalizeProposalId
  have hf : (lower s).filter isAsciiAlnum = lower (s.filter isAsciiAlnum) := by
    unfold lower
    rw [filter_map]
    exact congrArg (fun q => (s.filter q).map lowerChar) (funext isAsciiAlnum_lowerChar)
  change upper ((lower s).filter isAsciiAlnum) = _
  rw [hf, upper_lower]
  rfl

theorem folded_lower (s : Text) : folded (lower s) = folded s := by
  unfold folded
  rw [all_lower isAscii_lowerChar, lower_lower]

theorem classifyScoped_lower (raw : Text) (proposalId : Option Text) :
    classifyScoped (lower raw) proposalId = classifyScoped raw proposalId := by
  unfold classifyScoped
  rw [suffix_lower, normalizeProposalId_lower, head_lower, all_lower isAscii_lowerChar, strip_lower,
    lower_lower]

theorem classifyRaw_lower (raw : Text) (scope : Scope) :
    classifyRaw (lower raw) scope = classifyRaw raw scope := by
  have hn : lower raw = [] ↔ raw = [] := map_eq_nil_iff
  have htake : (lower raw).take 6 = lower (raw.take 6) := map_take.symm
  unfold classifyRaw
  simp only [hn, htake, all_lower isAscii_lowerChar, upper_lower, mem_hyphen_lower, folded_lower,
    classifyScoped_lower]

/-! ### Surrounding whitespace -/

theorem rdropWhile_append_of_all (hb : ∀ c ∈ b, p c = true) (s : Text) :
    (s ++ b).rdropWhile p = s.rdropWhile p := by
  unfold List.rdropWhile
  rw [reverse_append, dropWhile_append_of_pos]
  intro c hc
  exact hb c (mem_reverse.mp hc)

theorem dropWhile_eq_nil_of_all (hb : ∀ c ∈ b, p c = true) :
    b.dropWhile p = [] := dropWhile_eq_nil_iff.mpr hb

theorem strip_append {a : Text} (ha : ∀ c ∈ a, isAsciiSpace c = true)
    (hb : ∀ c ∈ b, isAsciiSpace c = true) (m : Text) : strip (a ++ m ++ b) = strip m := by
  unfold strip
  rw [append_assoc, dropWhile_append_of_pos ha, dropWhile_append]
  split_ifs with hm
  · rw [dropWhile_eq_nil_of_all hb, isEmpty_iff.mp hm]
  · rw [rdropWhile_append_of_all hb]

theorem exists_strip (s : Text) : ∃ a b, s = a ++ strip s ++ b ∧
    (∀ c ∈ a, isAsciiSpace c = true) ∧ ∀ c ∈ b, isAsciiSpace c = true := by
  refine ⟨s.takeWhile isAsciiSpace, (s.dropWhile isAsciiSpace).rtakeWhile isAsciiSpace, ?_,
    fun c hc => mem_takeWhile_imp hc, fun c hc => mem_rtakeWhile_imp hc⟩
  unfold strip
  have hback : (s.dropWhile isAsciiSpace).rdropWhile isAsciiSpace ++
      (s.dropWhile isAsciiSpace).rtakeWhile isAsciiSpace = s.dropWhile isAsciiSpace := by
    unfold List.rdropWhile List.rtakeWhile
    rw [← reverse_append, takeWhile_append_dropWhile, reverse_reverse]
  rw [append_assoc, hback, takeWhile_append_dropWhile]

/-- One text and another that differs from it in ASCII case and in the spaces around it alone. -/
def Respelled (space : CodePoint → Bool) (r r' : Text) : Prop :=
  ∃ a m b a' m' b', r = a ++ m ++ b ∧ r' = a' ++ m' ++ b' ∧ lower m = lower m' ∧
    (∀ c ∈ a ++ b, space c = true) ∧ ∀ c ∈ a' ++ b', space c = true

theorem classify_respelled {r' : Text} (h : Respelled isAsciiSpace r r') (scope : Scope) :
    classify (some r) scope = classify (some r') scope := by
  obtain ⟨a, m, b, a', m', b', rfl, rfl, hl, hs, hs'⟩ := h
  have ht : strip (a ++ m ++ b) = strip m := strip_append (fun c hc => hs c (mem_append_left _ hc))
      (fun c hc => hs c (mem_append_right _ hc)) m
  have ht' : strip (a' ++ m' ++ b') = strip m' :=
    strip_append (fun c hc => hs' c (mem_append_left _ hc))
      (fun c hc => hs' c (mem_append_right _ hc)) m'
  change classifyRaw _ scope = classifyRaw _ scope
  rw [ht, ht', ← classifyRaw_lower, ← strip_lower, hl, strip_lower, classifyRaw_lower]

/-! ### What a decision says -/

def ReplyClass.decides : ReplyClass → Bool
  | .approve => true
  | .reject => true
  | _ => false

/-- The verb part of a reply: what stands before its first hyphen, or all of it. -/
def verb (r : Text) : Text := head r

/-- What a reply says, whatever proposal it is about. -/
def decision (raw : Text) : ReplyClass :=
  if hyphen ∈ raw then
    if (head raw).all isAscii then verdict (lower (strip (head raw))) else verdict []
  else verdict (folded raw)

theorem hyphen_not_mem_of_token {tokens : List String} (ho : ∀ t ∈ tokens, hyphen ∉ text t)
    {raw : Text} (h : among tokens (folded raw) = true) (hn : ∀ t ∈ tokens, text t ≠ []) :
    hyphen ∉ raw := by
  unfold among at h
  obtain ⟨t, ht, hx⟩ := any_eq_true.mp h
  have hf := of_decide_eq_true hx
  intro hm
  unfold folded at hf
  split_ifs at hf
  · exact ho t ht (hf ▸ mem_hyphen_lower.mpr hm)
  · exact hn t ht hf

theorem yes_plain : ∀ t ∈ yesTokens, hyphen ∉ text t ∧ text t ≠ [] := by decide

theorem no_plain : ∀ t ∈ noTokens, hyphen ∉ text t ∧ text t ≠ [] := by decide

theorem classifyScoped_decides {raw : Text} {proposalId : Option Text} (hm : hyphen ∈ raw)
    (h : (classifyScoped raw proposalId).decides = true) :
    classifyScoped raw proposalId = decision raw ∧
      normalizeProposalId (some (suffix raw)) = normalizeProposalId proposalId := by
  unfold classifyScoped at h ⊢
  dsimp only at h ⊢
  by_cases ho : normalizeProposalId proposalId = [] ∨
      normalizeProposalId (some (suffix raw)) ≠ normalizeProposalId proposalId
  · rw [if_pos ho] at h
    cases h
  · rw [if_neg ho]
    refine ⟨?_, not_not.mp (not_or.mp ho).2⟩
    unfold decision
    rw [if_pos hm]

/-- A decision is what the reply says; one with a hyphen names the proposal it is classified under,
and one that must be scoped has a hyphen. -/
theorem classifyRaw_decides (raw : Text) (scope : Scope)
    (h : (classifyRaw raw scope).decides = true) :
    classifyRaw raw scope = decision raw ∧ (hyphen ∈ raw → normalizeProposalId (some (suffix raw)) =
        normalizeProposalId scope.proposalId) ∧
      (scope.requireScoped = true → hyphen ∈ raw) := by
  unfold classifyRaw at h ⊢
  by_cases hni : raw = []
  · rw [if_pos hni] at h
    cases h
  rw [if_neg hni] at h ⊢
  by_cases hto : scope.allowOfflineToken ∧ (raw.take 6).all isAscii ∧
      upper (raw.take 6) = text "TOKEN:"
  · rw [if_pos hto] at h
    cases h
  rw [if_neg hto] at h ⊢
  by_cases hc : scope.requireScoped = true
  · rw [if_pos hc] at h ⊢
    by_cases hm : hyphen ∉ raw
    · rw [if_pos hm] at h
      cases h
    rw [if_neg hm] at h ⊢
    obtain ⟨hword, hn⟩ := classifyScoped_decides (not_not.mp hm) h
    exact ⟨hword, fun _ => hn, fun _ => not_not.mp hm⟩
  rw [if_neg hc] at h ⊢
  by_cases hy : among yesTokens (folded raw) = true
  · have hm := hyphen_not_mem_of_token (fun t ht => (yes_plain t ht).1) hy
      (fun t ht => (yes_plain t ht).2)
    rw [if_pos hy]
    refine ⟨?_, fun hi => absurd hi hm, fun hs => absurd hs hc⟩
    unfold decision verdict
    rw [if_neg hm, if_pos hy]
  rw [if_neg hy] at h ⊢
  by_cases ho : among noTokens (folded raw) = true
  · have hm := hyphen_not_mem_of_token (fun t ht => (no_plain t ht).1) ho
      (fun t ht => (no_plain t ht).2)
    rw [if_pos ho]
    refine ⟨?_, fun hi => absurd hi hm, fun hs => absurd hs hc⟩
    unfold decision verdict
    rw [if_neg hm, if_neg hy, if_pos ho]
  rw [if_neg ho] at h ⊢
  by_cases hm : hyphen ∉ raw
  · rw [if_pos hm] at h
    cases h
  rw [if_neg hm] at h ⊢
  obtain ⟨hword, hn⟩ := classifyScoped_decides (not_not.mp hm) h
  exact ⟨hword, fun _ => hn, fun hs => absurd hs hc⟩

theorem verdict_nil : verdict [] = .invalid := by decide

theorem mem_head_strip (hc : c ∈ head r) (hs : isAsciiSpace c = false) : c ∈ head (strip r) := by
  obtain ⟨a, b, hr, ha, hb⟩ := exists_strip r
  have hp : ∀ d ∈ a, decide (d ≠ hyphen) = true := by
    intro d hd
    refine decide_eq_true ?_
    rintro rfl
    exact absurd (ha _ hd) (by decide)
  unfold head at hc ⊢
  rw [hr, append_assoc, takeWhile_append_of_pos hp] at hc
  rcases mem_append.mp hc with hm | hm
  · exact absurd (ha c hm) (by rw [hs]; nofun)
  rw [takeWhile_append] at hm
  split_ifs at hm with hl
  · rcases mem_append.mp hm with hi | hi
    · rwa [( takeWhile_prefix _).eq_of_length hl]
    · have hcb := hb c (( takeWhile_prefix _).subset hi)
      exact absurd hcb (by rw [hs]; nofun)
  · exact hm

theorem not_approve_of_not_ascii (hc : c ∈ verb r) (ha : isAscii c = false) (scope : Scope) :
    classify (some r) scope ≠ .approve := by
  intro h
  have hp : isAsciiSpace c = false := by
    unfold isAscii at ha
    unfold isAsciiSpace
    have hl := of_decide_eq_false ha
    refine decide_eq_false ?_
    simp only [mem_cons, not_mem_nil, or_false]
    omega
  have hm := mem_head_strip hc hp
  change classifyRaw (strip r) scope = .approve at h
  have hword := (classifyRaw_decides (strip r) scope (by rw [h]; rfl)).1
  rw [h] at hword
  have hn : ∀ {s : Text}, c ∈ s → s.all isAscii ≠ true := by
    intro s hs hal
    have ho := all_eq_true.mp hal c hs
    rw [ha] at ho
    cases ho
  unfold decision at hword
  split_ifs at hword with hh hhh
  · exact hn hm hhh
  · rw [verdict_nil] at hword
    cases hword
  · unfold folded at hword
    rw [if_neg (hn (( takeWhile_prefix _).subset hm)), verdict_nil] at hword
    cases hword

/-- Replies are scoped to their proposals, say one thing, are read up to ASCII case and surrounding
ASCII whitespace, and approve in ASCII alone. -/
theorem reply_classification :
    (∀ r p q offline offline' required, normalizeProposalId p ≠ normalizeProposalId q →
      (classify (some r) ⟨p, offline, true⟩).decides = true →
      (classify (some r) ⟨q, offline', required⟩).decides = false) ∧
    (∀ r scope scope', classify (some r) scope = .approve → classify (some r) scope' ≠ .reject) ∧
    (∀ r r' scope, Respelled isAsciiSpace r r' →
      classify (some r) scope = classify (some r') scope) ∧
    ∀ r c scope, c ∈ verb r → isAscii c = false → classify (some r) scope ≠ .approve := by
  refine ⟨?_, ?_, fun r r' scope h => classify_respelled h scope,
    fun r c scope hc hascii => not_approve_of_not_ascii hc hascii scope⟩
  · intro r p q offline offline' required hne h
    rw [← Bool.not_eq_true]
    intro h'
    obtain ⟨-, hnames, hscoped⟩ := classifyRaw_decides (strip r) _ h
    obtain ⟨-, hnames', -⟩ := classifyRaw_decides (strip r) _ h'
    have hmem := hscoped rfl
    exact hne ((hnames hmem).symm.trans (hnames' hmem))
  · intro r scope scope' happrove hreject
    have h := (classifyRaw_decides (strip r) scope
      (show (classify (some r) scope).decides = true by rw [happrove]; rfl)).1
    have h' := (classifyRaw_decides (strip r) scope'
      (show (classify (some r) scope').decides = true by rw [hreject]; rfl)).1
    have hsame : classify (some r) scope = classify (some r) scope' := h.trans h'.symm
    rw [happrove, hreject] at hsame
    cases hsame

/-- Whitespace that is not ASCII is part of the reply. -/
theorem wide_space_read : ¬ ∀ r r' scope, Respelled (fun c => isBlank [c]) r r' →
    classify (some r) scope = classify (some r') scope := by
  intro h
  have hspace : ∀ c ∈ text "\u00a0" ++ [], isBlank [c] = true := by
    rw [append_nil]
    exact all_eq_true.mp (by decide +kernel)
  have hrespelled : Respelled (fun c => isBlank [c]) (text "yes") (text "\u00a0yes") :=
    ⟨[], text "yes", [], text "\u00a0", text "yes", [], by decide +kernel, by decide +kernel, rfl,
      fun c hc => (by cases hc), fun c hc => hspace c hc⟩
  have hsame := h _ _ { proposalId := none } hrespelled
  have hdiffer : classify (some (text "yes")) { proposalId := none } ≠
      classify (some (text "\u00a0yes")) { proposalId := none } := by decide +kernel
  exact hdiffer hsame

theorem reply_classification_of_approved :
    classify (some (text " Yes-ab12cd34 ")) ⟨some (text "AB12CD34"), false, true⟩ = .approve ∧
    (classify (some (text " Yes-ab12cd34 ")) ⟨some (text "AB12CD35"), false, true⟩).decides = false ∧
    classify (some (text " Yes-ab12cd34 ")) ⟨some (text "AB12CD34"), true, false⟩ ≠ .reject ∧
    classify (some (text "y\u0435s")) ⟨none, false, false⟩ ≠ .approve := by
  have happroved : classify (some (text " Yes-ab12cd34 ")) ⟨some (text "AB12CD34"), false, true⟩ =
      .approve := by decide +kernel
  have hne : normalizeProposalId (some (text "AB12CD34")) ≠
      normalizeProposalId (some (text "AB12CD35")) := by decide +kernel
  obtain ⟨hscoped, hone, -, hascii⟩ := reply_classification
  exact ⟨happroved, hscoped _ _ _ false false true hne (by rw [happroved]; rfl),
    hone _ _ _ happroved, hascii _ (codePoint '\u0435') _ (by decide +kernel) (by decide +kernel)⟩

end Reply

end OriRuntime
