import OriRuntime.JsonParse

/-!
# Reading back what was written

`json.loads` of the text of a readable value is that value: the strings, the numbers, and then the
values by induction on their structure.
-/

namespace OriRuntime

open List Option

namespace Json

/-! ### Strings -/

/-- How a character of a string is written. -/
def unitOf (c : CodePoint) : CharUnit :=
  if c < 32 ∧ c ≠ 10 ∧ c ≠ 13 ∧ c ≠ 9 ∧ c ≠ 12 ∧ c ≠ 8 then .escape c.val else .plain c

theorem hexUnit_control : ∀ n < 32, hexUnit (codePoint '0') (codePoint '0') (hexDigit (n / 16))
    (hexDigit (n % 16)) = some n := by
  decide

theorem parseUnits_short (e c : CodePoint) (rest : Text) (he : e ≠ codePoint 'u')
    (hc : unescape e = some c) :
    parseUnits (codePoint '\\' :: e :: rest) = consUnit (.plain c) (parseUnits rest) := by
  rw [parseUnits.eq_def]
  simp only [if_neg (show codePoint '\\' ≠ codePoint '"' by decide), if_true, if_neg he, hc]

theorem parseUnits_hex (c : CodePoint) (rest : Text) (hc : c < 32) :
    parseUnits (text "\\u00" ++ [hexDigit (c.val / 16), hexDigit (c.val % 16)] ++ rest) =
      consUnit (.escape c.val) (parseUnits rest) := by
  change parseUnits (codePoint '\\' :: codePoint 'u' :: codePoint '0' :: codePoint '0' ::
    hexDigit (c.val / 16) :: hexDigit (c.val % 16) :: rest) = _
  rw [parseUnits.eq_def]
  simp only [if_neg (show codePoint '\\' ≠ codePoint '"' by decide), if_true,
    hexUnit_control c.val hc]

variable {c : CodePoint} {ds rest : Text} {v : Json}

theorem parseUnits_plain (rest : Text) (hq : c ≠ codePoint '"') (he : c ≠ codePoint '\\')
    (hc : ¬ c < 32) : parseUnits (c :: rest) = consUnit (.plain c) (parseUnits rest) := by
  rw [parseUnits.eq_def]
  simp only [if_neg hq, if_neg he, if_neg hc]

theorem parseUnits_quote (rest : Text) : parseUnits (codePoint '"' :: rest) = some ([], rest) := by
  rw [parseUnits.eq_def]
  simp only [if_true]

theorem parseUnits_escapeChar (c : CodePoint) (rest : Text) :
    parseUnits (escapeChar c ++ rest) = consUnit (unitOf c) (parseUnits rest) := by
  unfold escapeChar
  split_ifs with h₁ h₂ h₃ h₄ h₅ h₆ h₇ h₈
  · subst h₁
    exact parseUnits_short _ _ _ (by decide) (by decide)
  · subst h₂
    exact parseUnits_short _ _ _ (by decide) (by decide)
  · subst h₃
    exact parseUnits_short _ _ _ (by decide) (by decide)
  · subst h₄
    exact parseUnits_short _ _ _ (by decide) (by decide)
  · subst h₅
    exact parseUnits_short _ _ _ (by decide) (by decide)
  · subst h₆
    exact parseUnits_short _ _ _ (by decide) (by decide)
  · subst h₇
    exact parseUnits_short _ _ _ (by decide) (by decide)
  · rw [unitOf, if_pos ⟨h₈, h₃, h₄, h₅, h₆, h₇⟩]
    exact parseUnits_hex c rest h₈
  · rw [unitOf, if_neg (fun h => h₈ h.1), singleton_append, parseUnits_plain rest h₁ h₂ h₈]

theorem parseUnits_escaped (s rest : Text) :
    parseUnits (escaped s ++ codePoint '"' :: rest) = some (s.map unitOf, rest) := by
  induction s with
  | nil => exact parseUnits_quote rest
  | cons c s ih =>
    rw [escaped, map_cons, flatten_cons, append_assoc, parseUnits_escapeChar]
    change consUnit (unitOf c) (parseUnits (escaped s ++ codePoint '"' :: rest)) = _
    rw [ih]
    rfl

theorem joinUnits_unitOf (s : Text) : joinUnits none (s.map unitOf) = s := by
  induction s with
  | nil => rfl
  | cons c s ih =>
    rw [map_cons]
    by_cases hc : c < 32 ∧ c ≠ 10 ∧ c ≠ 13 ∧ c ≠ 9 ∧ c ≠ 12 ∧ c ≠ 8
    · have hv : c.val < 32 := hc.1
      have hhigh : isHighSurrogate c.val = false := by
        simp only [isHighSurrogate, decide_eq_false_iff_not, not_and]
        intro h
        omega
      rw [unitOf, if_pos hc, joinUnits, if_neg (by rw [hhigh]; decide), ih, Fin.ofNat_val_eq_self]
    · rw [unitOf, if_neg hc, joinUnits, ih]

theorem parseChars_escaped (s rest : Text) :
    parseChars (escaped s ++ codePoint '"' :: rest) = some (s, rest) := by
  rw [parseChars, parseUnits_escaped, map_some, joinUnits_unitOf]

/-! ### Numbers -/

variable {d n fuel : ℕ} {items : List (Option Text × Json)} {hook : PairsHook}

theorem digitsOf_eq (h : n ≤ fuel) : digitsOf fuel n = Nat.digits 10 n := by
  induction fuel generalizing n with
  | zero =>
    obtain rfl : n = 0 := by omega
    simp [digitsOf]
  | succ fuel ih =>
    rw [digitsOf]
    split_ifs with hzero
    · simp [hzero]
    · rw [ih (by omega), ← Nat.digits_def' (by decide) (by omega)]

theorem digitChar_val (h : d < 10) : (digitChar d).val = 48 + d := by
  simp only [digitChar, Fin.ofNat]
  omega

theorem isDigit_digitChar (h : d < 10) : isDigit (digitChar d) = true := by
  rw [isDigit, digitChar_val h]
  simp only [decide_eq_true_eq]
  omega

theorem natOf_digits {ds : List ℕ} (h : ∀ d ∈ ds, d < 10) :
    natOf (ds.reverse.map digitChar) = Nat.ofDigits 10 ds := by
  induction ds with
  | nil => rfl
  | cons d ds ih =>
    have hd := digitChar_val (h d mem_cons_self)
    have ht := ih (fun e he => h e (mem_cons_of_mem _ he))
    rw [natOf] at ht ⊢
    rw [reverse_cons, map_append, foldl_append, ht, Nat.ofDigits_cons]
    simp only [map_cons, map_nil, foldl_cons, foldl_nil, hd]
    omega

theorem natText_digits (n : ℕ) : ∀ c ∈ natText n, isDigit c = true := by
  intro c hc
  unfold natText at hc
  split_ifs at hc with hzero
  · obtain rfl := mem_singleton.mp hc
    decide
  · obtain ⟨d, hd, rfl⟩ := mem_map.mp hc
    rw [mem_reverse, digitsOf_eq le_rfl] at hd
    exact isDigit_digitChar (Nat.digits_lt_base (by decide) hd)

theorem natOf_natText (n : ℕ) : natOf (natText n) = n := by
  unfold natText
  split_ifs with hzero
  · rw [hzero]
    decide
  · rw [digitsOf_eq le_rfl, natOf_digits (fun d hd => Nat.digits_lt_base (by decide) hd),
      Nat.ofDigits_digits]

theorem natText_head (h : n ≠ 0) :
    ∃ c cs, natText n = c :: cs ∧ c ≠ codePoint '0' ∧ isDigit c = true := by
  have hn : Nat.digits 10 n ≠ [] := Nat.digits_ne_nil_iff_ne_zero.mpr h
  have hs := Nat.getLast_digit_ne_zero 10 h
  have hl : (Nat.digits 10 n).getLast hn < 10 := Nat.digits_lt_base (by decide) (getLast_mem hn)
  have hr : (Nat.digits 10 n).reverse =
      (Nat.digits 10 n).getLast hn :: (Nat.digits 10 n).dropLast.reverse := by
    conv_lhs => rw [← dropLast_append_getLast hn]
    rw [reverse_append, reverse_singleton, singleton_append]
  refine ⟨_, _, by rw [natText, if_neg h, digitsOf_eq le_rfl, hr, map_cons], ?_,
    isDigit_digitChar hl⟩
  intro heq
  have hv := congrArg Fin.val heq
  rw [digitChar_val hl] at hv
  have hzero : (codePoint '0').val = 48 := rfl
  omega

theorem natText_ne_nil (n : ℕ) : natText n ≠ [] := by
  by_cases h : n = 0
  · simp [natText, h]
  obtain ⟨c, cs, hc, -⟩ := natText_head h
  rw [hc]
  exact cons_ne_nil c cs

/-- What may follow a number without being read into it. -/
def Stops (rest : Text) : Prop :=
  ∀ c cs, rest = c :: cs → isDigit c = false ∧ c ≠ codePoint '.' ∧ c ≠ codePoint 'e' ∧
    c ≠ codePoint 'E'

theorem takeWhile_digits (hs : ∀ c ∈ ds, isDigit c = true)
    (hr : ∀ c cs, rest = c :: cs → isDigit c = false) :
    (ds ++ rest).takeWhile isDigit = ds ∧ (ds ++ rest).dropWhile isDigit = rest := by
  induction ds with
  | nil =>
    cases rest with
    | nil => exact ⟨rfl, rfl⟩
    | cons c cs =>
      have hc := hr c cs rfl
      simp [hc]
  | cons d ds ih =>
    have hd := hs d mem_cons_self
    obtain ⟨htake, hp⟩ := ih (fun c hc => hs c (mem_cons_of_mem _ hc))
    simp [hd, htake, hp]

theorem wholeDigits_natText (n : ℕ) (hr : ∀ c cs, rest = c :: cs → isDigit c = false) :
    wholeDigits (natText n ++ rest) = (natText n, rest) := by
  by_cases hzero : n = 0
  · rw [hzero]
    rfl
  · obtain ⟨c, cs, hc, hn, -⟩ := natText_head hzero
    have hs := takeWhile_digits (natText_digits n) hr
    rw [hc, cons_append] at hs ⊢
    rw [wholeDigits, if_neg hn, hs.1, hs.2]

theorem fracDigits_stops (h : Stops rest) : fracDigits rest = ([], rest) := by
  cases rest with
  | nil => rfl
  | cons c cs => rw [fracDigits, if_neg (fun hc => (h c cs rfl).2.1 hc.1)]

theorem expDigits_stops (h : Stops rest) : expDigits rest = (none, rest) := by
  cases rest with
  | nil => rfl
  | cons c cs =>
    obtain ⟨-, -, he, hE⟩ := h c cs rfl
    rw [expDigits.eq_def]
    simp only [if_neg (show ¬ (c = codePoint 'e' ∨ c = codePoint 'E') from
      fun hc => hc.elim he hE)]

theorem splitSign_natText (n : ℕ) (rest : Text) :
    splitSign (natText n ++ rest) = (false, natText n ++ rest) := by
  cases hc : natText n with
  | nil => exact absurd hc (natText_ne_nil n)
  | cons c cs =>
    have hd := natText_digits n c (by rw [hc]; exact mem_cons_self)
    rw [cons_append, splitSign, if_neg]
    rintro rfl
    exact absurd hd (by decide)

theorem parseNumber_intText (n : ℤ) (h : Stops rest) :
    parseNumber (intText n ++ rest) = some (.int n, rest) := by
  have hd : ∀ c cs, rest = c :: cs → isDigit c = false := fun c cs hc => (h c cs hc).1
  unfold intText
  split_ifs with hn
  · have ha : -(n.natAbs : ℤ) = n := by omega
    rw [cons_append, parseNumber]
    simp only [splitSign, if_pos, wholeDigits_natText _ hd, natText_ne_nil, if_false,
      fracDigits_stops h, expDigits_stops h, natOf_natText, and_self, ha]
  · have ha : (n.natAbs : ℤ) = n := by omega
    rw [parseNumber]
    simp only [splitSign_natText, wholeDigits_natText _ hd, natText_ne_nil, if_false,
      fracDigits_stops h, expDigits_stops h, natOf_natText, and_self, if_true, ha,
      Bool.false_eq_true]

/-! ### Floats -/

theorem stripZeros_mul_pow {digits : ℕ} (h : digits % 10 ≠ 0) {places : ℕ} (hfuel : places < fuel)
    (exponent : ℤ) :
    stripZeros fuel (digits * 10 ^ places) exponent = (digits, exponent + places) := by
  induction places generalizing fuel exponent with
  | zero =>
    obtain ⟨fuel, rfl⟩ : ∃ k, fuel = k + 1 := ⟨fuel - 1, by omega⟩
    have hn : digits ≠ 0 := fun hzero => h (by rw [hzero])
    simp [stripZeros, hn, h]
  | succ places ih =>
    obtain ⟨fuel, rfl⟩ : ∃ k, fuel = k + 1 := ⟨fuel - 1, by omega⟩
    have hp : 0 < digits := Nat.pos_of_ne_zero (fun hzero => h (by rw [hzero]))
    have hv : digits * 10 ^ (places + 1) = digits * 10 ^ places * 10 := by ring
    have hn : digits * 10 ^ (places + 1) ≠ 0 := by positivity
    rw [stripZeros, if_neg hn, if_pos (by omega), hv, Nat.mul_div_cancel _ (by decide),
      ih (by omega)]
    congr 1
    push_cast
    ring

theorem of_shortest (d : Decimal) (places : ℕ) (exponent : ℤ) (h : exponent + places = d.exponent) :
    Decimal.of d.neg (d.digits * 10 ^ places) exponent = d := by
  obtain ⟨neg, digits, e, hzero, hs⟩ := d
  simp only at h
  by_cases hd : digits = 0
  · obtain rfl := hzero hd
    subst hd
    simp [Decimal.of, stripZeros]
  · have hl : places < digits * 10 ^ places + 1 := by
      have hp : places < 10 ^ places := Nat.lt_pow_self (by decide)
      have he : 10 ^ places ≤ digits * 10 ^ places :=
        Nat.le_mul_of_pos_left _ (Nat.pos_of_ne_zero hd)
      omega
    have ht := stripZeros_mul_pow (hs hd) hl exponent
    simp only [Decimal.of, ht, h]

theorem natOf_append (ds es : Text) : natOf (ds ++ es) =
    es.foldl (fun n d => 10 * n + (d.val - 48)) (natOf ds) :=
  foldl_append

theorem natOf_zeros (n : ℕ) (ds : Text) :
    natOf (List.replicate n (codePoint '0') ++ ds) = natOf ds := by
  induction n with
  | zero => rfl
  | succ n ih =>
    rw [replicate_succ, cons_append]
    exact ih

/-- Digits that a number may start with: one zero, or no zero first. -/
def Whole (ds : Text) : Prop :=
  ds = [codePoint '0'] ∨ ∃ c cs, ds = c :: cs ∧ c ≠ codePoint '0' ∧ ∀ d ∈ ds, isDigit d = true

theorem Whole.ne_nil (h : Whole ds) : ds ≠ [] := by
  rintro rfl
  obtain h | ⟨c, cs, h, -⟩ := h <;> cases h

theorem Whole.split (h : Whole ds) (hr : ∀ c cs, rest = c :: cs → isDigit c = false) :
    wholeDigits (ds ++ rest) = (ds, rest) ∧ splitSign (ds ++ rest) = (false, ds ++ rest) := by
  obtain rfl | ⟨c, cs, rfl, hn, hd⟩ := h
  · exact ⟨rfl, rfl⟩
  obtain ⟨htake, hp⟩ := takeWhile_digits hd hr
  constructor
  · rw [cons_append] at htake hp ⊢
    rw [wholeDigits, if_neg hn, htake, hp]
  · rw [cons_append, splitSign, if_neg]
    rintro rfl
    exact absurd (hd _ mem_cons_self) (by decide)

theorem whole_natText (n : ℕ) : Whole (natText n) := by
  by_cases h : n = 0
  · exact .inl (by rw [natText, if_pos h])
  · obtain ⟨c, cs, hc, hn, -⟩ := natText_head h
    exact .inr ⟨c, cs, hc, hn, natText_digits n⟩

theorem parseNumber_point (neg : Bool) {whole frac : Text} (hw : Whole whole)
    (hfrac : ∀ c ∈ frac, isDigit c = true) (hn : frac ≠ []) (hr : Stops rest) :
    parseNumber ((if neg then [codePoint '-'] else []) ++ (whole ++ codePoint '.' :: frac) ++ rest) =
      some (.float (.finite (Decimal.of neg (natOf (whole ++ frac)) (-frac.length))), rest) := by
  have hp : ∀ c cs, codePoint '.' :: (frac ++ rest) = c :: cs → isDigit c = false := by
    intro c cs h
    obtain rfl := (List.cons.inj h).1
    decide
  obtain ⟨hs, hu⟩ := hw.split hp
  obtain ⟨htake, hd⟩ := takeWhile_digits hfrac (fun c cs hc => (hr c cs hc).1)
  have hsign : splitSign ((if neg then [codePoint '-'] else []) ++ (whole ++ codePoint '.' :: frac) ++
      rest) = (neg, whole ++ codePoint '.' :: (frac ++ rest)) := by
    cases neg with
    | true => simp [splitSign]
    | false => simpa using hu
  have hfracDigits : fracDigits (codePoint '.' :: (frac ++ rest)) = (frac, rest) := by
    rw [fracDigits, if_pos ⟨rfl, by rwa [htake]⟩, htake, hd]
  rw [parseNumber]
  simp only [hsign, hs, hw.ne_nil, if_false, hfracDigits, expDigits_stops hr, hn,
    false_and, getD_none, zero_sub]

theorem parseNumber_decimalText (d : Decimal) (h : Stops rest) :
    parseNumber (decimalText d ++ rest) = some (.float (.finite d), rest) := by
  by_cases hsign : 0 ≤ d.exponent
  · have hzero : ∀ c ∈ text "0", isDigit c = true := by
      intro c hc
      obtain rfl := mem_singleton.mp hc
      decide
    have ha := parseNumber_point d.neg (whole_natText (d.digits * 10 ^ d.exponent.toNat)) hzero (by decide) h
    have hv : natOf (natText (d.digits * 10 ^ d.exponent.toNat) ++ text "0") =
        d.digits * 10 ^ (d.exponent.toNat + 1) := by
      rw [natOf_append, natOf_natText]
      change 10 * (d.digits * 10 ^ d.exponent.toNat) + 0 = _
      ring
    rw [hv, of_shortest d _ _ (by simp [text]; omega)] at ha
    rw [decimalText, if_pos hsign]
    exact ha
  · rw [decimalText, if_neg hsign]
    rw [not_le] at hsign
    have hne : d.digits ≠ 0 := by
      intro hzero
      have := d.zero hzero
      omega
    obtain ⟨places, hpl⟩ : ∃ k, (-d.exponent).toNat = k := ⟨_, rfl⟩
    have hpo : 0 < places := by omega
    simp only [hpl]
    generalize hp : List.replicate (places + 1 - (natText d.digits).length) (codePoint '0') ++
      natText d.digits = padded
    have hl : places + 1 ≤ padded.length := by
      rw [← hp, length_append, length_replicate]
      omega
    have hd : ∀ c ∈ padded, isDigit c = true := by
      intro c hc
      rw [← hp] at hc
      obtain hc | hc := mem_append.mp hc
      · rw [eq_of_mem_replicate hc]
        decide
      · exact natText_digits _ c hc
    have hw : Whole (padded.take (padded.length - places)) := by
      by_cases hs : (natText d.digits).length ≤ places
      · left
        have hex : padded.length - places = 1 := by
          rw [← hp, length_append, length_replicate]
          omega
        obtain ⟨n, hn⟩ : ∃ n, places + 1 - (natText d.digits).length = n + 1 :=
          ⟨places - (natText d.digits).length, by omega⟩
        rw [hex, ← hp, hn, replicate_succ]
        rfl
      · right
        have hno : places + 1 - (natText d.digits).length = 0 := by omega
        rw [hno, replicate_zero, nil_append] at hp
        obtain ⟨c, cs, hcs, hf, -⟩ := natText_head hne
        obtain ⟨n, hn⟩ : ∃ n, padded.length - places = n + 1 := ⟨padded.length - places - 1, by omega⟩
        refine ⟨c, cs.take n, ?_, hf, fun e he => hd e (mem_of_mem_take he)⟩
        rw [hn, ← hp, hcs, take_succ_cons]
    have hfrac : (padded.drop (padded.length - places)).length = places := by
      rw [length_drop]
      omega
    have ha := parseNumber_point d.neg hw (fun c hc => hd c (mem_of_mem_drop hc))
      (fun hi => by rw [hi] at hfrac; simp at hfrac; omega) h
    rw [take_append_drop, hfrac, ← hp, natOf_zeros, natOf_natText, hp] at ha
    have ho := of_shortest d 0 (-(places : ℤ)) (by omega)
    rw [pow_zero, mul_one] at ho
    rw [ho] at ha
    exact ha

/-! ### Values -/

mutual

/-- A value with a text that names it: every key a string, none twice, and every float finite. -/
def Readable : Json → Prop
  | .float (.finite _) => True
  | .float _ => False
  | .other _ => False
  | .list xs => ReadableList xs
  | .dict items => ReadableItems items ∧ (items.map (·.1)).Nodup
  | _ => True

def ReadableList : List Json → Prop
  | [] => True
  | v :: vs => Readable v ∧ ReadableList vs

def ReadableItems : List (Option Text × Json) → Prop
  | [] => True
  | (key, v) :: rest => key.isSome = true ∧ Readable v ∧ ReadableItems rest

end

/-- A hook that makes of members with distinct names the dict of them. -/
def Keeps (hook : PairsHook) : Prop :=
  ∀ pairs : List (Text × Json), (pairs.map (·.1)).Nodup →
    hook pairs = some (pairs.map (fun pair => (some pair.1, pair.2)))

theorem uniqueMembers_keeps : Keeps uniqueMembers := fun _ h => if_pos h

theorem dictOf_keeps : Keeps dictOf := by
  intro pairs h
  have hg : ∀ (items : List (Option Text × Json)) (pairs : List (Text × Json)),
      (pairs.map (·.1)).Nodup → (∀ pair ∈ pairs, ∀ item ∈ items, item.1 ≠ some pair.1) →
      pairs.foldl (fun items pair => setItem items pair.1 pair.2) items =
        items ++ pairs.map (fun pair => (some pair.1, pair.2)) := by
    intro items pairs
    induction pairs generalizing items with
    | nil => simp
    | cons pair pairs ih =>
      intro hd hf
      rw [List.map_cons, List.nodup_cons] at hd
      have hn : items.any (fun item => decide (item.1 = some pair.1)) = false := by
        rw [List.any_eq_false]
        intro item hitem
        simpa using hf pair List.mem_cons_self item hitem
      rw [List.foldl_cons, setItem, if_neg (by rw [hn]; decide), ih _ hd.2]
      · simp
      intro other ho item hitem
      obtain hitem | hitem := List.mem_append.mp hitem
      · exact hf other (List.mem_cons_of_mem _ ho) item hitem
      obtain rfl := List.mem_singleton.mp hitem
      intro heq
      have hm : pair.1 = other.1 := Option.some.inj heq
      exact hd.1 (hm ▸ List.mem_map_of_mem ho)
  exact congrArg some (by simpa using hg [] pairs h (by simp))

/-- Text that starts a number. -/
def Numeric (s : Text) : Prop :=
  ∃ c cs, s = c :: cs ∧ (isDigit c = true ∨
    c = codePoint '-' ∧ ∃ d ds, cs = d :: ds ∧ isDigit d = true)

theorem numeric_digits (hn : ds ≠ []) (h : ∀ c ∈ ds, isDigit c = true) (rest : Text) :
    Numeric (ds ++ rest) ∧ Numeric (codePoint '-' :: (ds ++ rest)) := by
  cases ds with
  | nil => exact absurd rfl hn
  | cons d ds =>
    have hd := h d mem_cons_self
    exact ⟨⟨d, _, rfl, .inl hd⟩, ⟨_, _, rfl, .inr ⟨rfl, d, _, rfl, hd⟩⟩⟩

theorem numeric_intText (n : ℤ) (rest : Text) : Numeric (intText n ++ rest) := by
  obtain ⟨hp, hs⟩ := numeric_digits (natText_ne_nil n.natAbs) (natText_digits _) rest
  unfold intText
  split_ifs
  · exact hs
  · exact hp

theorem numeric_decimalText (d : Decimal) (rest : Text) : Numeric (decimalText d ++ rest) := by
  have hsign : ∀ whole tail : Text, whole ≠ [] → (∀ c ∈ whole, isDigit c = true) →
      Numeric ((if d.neg then [codePoint '-'] else []) ++ (whole ++ tail) ++ rest) := by
    intro whole tail hne hd
    obtain ⟨hp, hs⟩ := numeric_digits hne hd (tail ++ rest)
    rw [append_assoc, append_assoc]
    cases d.neg with
    | true => exact hs
    | false => exact hp
  unfold decimalText
  by_cases he : 0 ≤ d.exponent
  · rw [if_pos he]
    exact hsign _ _ (natText_ne_nil _) (natText_digits _)
  · rw [if_neg he]
    refine hsign _ _ ?_ ?_
    · intro hn
      have hl := congrArg List.length hn
      simp only [length_take, length_append, length_replicate, length_nil]
        at hl
      omega
    · intro c hc
      obtain hc | hc := mem_append.mp (mem_of_mem_take hc)
      · rw [eq_of_mem_replicate hc]
        decide
      · exact natText_digits _ c hc

theorem isDigit_ne (h : isDigit c = true) (e : CodePoint) (he : isDigit e = false) : c ≠ e := by
  rintro rfl
  rw [he] at h
  cases h

theorem parseValue_numeric (hook : PairsHook) {s : Text} (h : Numeric s) (fuel : ℕ) :
    parseValue hook (fuel + 1) s = parseNumber s := by
  obtain ⟨c, cs, rfl, hc⟩ := h
  have hh : ∀ e : CodePoint, isDigit e = false → e ≠ codePoint '-' → c ≠ e := by
    intro e he hm
    obtain hd | ⟨rfl, -⟩ := hc
    · exact isDigit_ne hd e he
    · exact hm.symm
  have hl : parseLiteral (c :: cs) = none := by
    have hpref : ∀ (e : CodePoint) (es : Text), c ≠ e → ¬ (e :: es) <+: (c :: cs) := by
      intro e es hn hp
      exact hn (cons_prefix_cons.mp hp).1.symm
    have hi : ¬ text "-Infinity" <+: (c :: cs) := by
      intro hp
      obtain hd | ⟨rfl, d, ds, rfl, hd⟩ := hc
      · exact hpref (codePoint '-') (text "Infinity") (isDigit_ne hd _ (by decide)) hp
      have hx := (cons_prefix_cons.mp hp).2
      have heq : codePoint 'I' = d :=
        (cons_prefix_cons.mp (show codePoint 'I' :: text "nfinity" <+: d :: ds from hx)).1
      exact isDigit_ne hd _ (by decide) heq.symm
    have hword : ∀ (word : Text) (e : CodePoint) (es : Text), word = e :: es → isDigit e = false →
        e ≠ codePoint '-' → ¬ word <+: (c :: cs) := by
      rintro _ e es rfl he hm
      exact hpref e es (hh e he hm)
    unfold parseLiteral
    rw [if_neg (hword (text "null") _ _ rfl (by decide) (by decide)),
      if_neg (hword (text "true") _ _ rfl (by decide) (by decide)),
      if_neg (hword (text "false") _ _ rfl (by decide) (by decide)),
      if_neg (hword (text "NaN") _ _ rfl (by decide) (by decide)),
      if_neg (hword (text "Infinity") _ _ rfl (by decide) (by decide)), if_neg hi]
  rw [parseValue.eq_def]
  simp only [if_neg (hh (codePoint '"') (by decide) (by decide)),
    if_neg (hh (codePoint '\x7b') (by decide) (by decide)),
    if_neg (hh (codePoint '[') (by decide) (by decide)), hl]

theorem render_head (h : Readable v) (rest : Text) :
    ∃ c cs, render v ++ rest = c :: cs ∧ isSpace c = false ∧ c ≠ codePoint ']' := by
  have hn : ∀ s : Text, Numeric s →
      ∃ c cs, s = c :: cs ∧ isSpace c = false ∧ c ≠ codePoint ']' := by
    rintro s ⟨c, cs, rfl, hd | ⟨rfl, -⟩⟩
    · refine ⟨c, cs, rfl, ?_, isDigit_ne hd _ (by decide)⟩
      rw [isSpace, decide_eq_false_iff_not]
      rintro (hc | hc | hc | hc) <;> exact isDigit_ne hd _ (by decide) hc
    · exact ⟨_, cs, rfl, by decide, by decide⟩
  cases v with
  | null => exact ⟨_, _, rfl, by decide, by decide⟩
  | bool b => cases b <;> exact ⟨_, _, rfl, by decide, by decide⟩
  | int n => exact hn _ (numeric_intText n rest)
  | float f =>
    cases f with
    | finite d => exact hn _ (numeric_decimalText d rest)
    | nan | infinity neg => exact absurd h (by simp [Readable])
  | str s => exact ⟨_, _, rfl, by decide, by decide⟩
  | list xs => cases xs <;> exact ⟨_, _, rfl, by decide, by decide⟩
  | dict items => cases items <;> exact ⟨_, _, rfl, by decide, by decide⟩
  | other typeName => exact absurd h (by simp [Readable])

theorem skipSpace_render (h : Readable v) (rest : Text) :
    skipSpace (render v ++ rest) = render v ++ rest := by
  obtain ⟨c, cs, hc, hs, -⟩ := render_head h rest
  rw [hc, skipSpace, dropWhile_cons, if_neg (by rw [hs]; decide)]

theorem stops_cons (cs : Text) (hd : isDigit c = false) (hp : c ≠ codePoint '.')
    (he : c ≠ codePoint 'e') (hE : c ≠ codePoint 'E') : Stops (c :: cs) := by
  intro d ds h
  obtain rfl := (List.cons.inj h).1
  exact ⟨hd, hp, he, hE⟩

theorem stops_renderList (vs : List Json) (rest : Text) : Stops (renderList vs ++ rest) := by
  cases vs <;> exact stops_cons _ (by decide) (by decide) (by decide) (by decide)

theorem stops_renderItems (items : List (Option Text × Json)) (rest : Text) :
    Stops (renderItems items ++ rest) := by
  cases items <;> exact stops_cons _ (by decide) (by decide) (by decide) (by decide)

/-- `v` is read off the front of every text it starts, given two fuel a character. -/
def Reads (hook : PairsHook) (v : Json) : Prop :=
  ∀ (fuel : ℕ) (rest : Text), 2 * (render v).length ≤ fuel → Stops rest →
    parseValue hook fuel (render v ++ rest) = some (v, rest)

theorem render_length (h : Readable v) : 0 < (render v).length := by
  obtain ⟨c, cs, hc, -⟩ := render_head h []
  rw [append_nil] at hc
  rw [hc]
  exact Nat.succ_pos _

theorem reads_literal (hook : PairsHook) {v : Json} {c : CodePoint} {cs : Text}
    (hr : render v = c :: cs) (hq : c ≠ codePoint '"') (hbrac : c ≠ codePoint '\x7b')
    (hb : c ≠ codePoint '[')
    (hl : ∀ rest, parseLiteral (c :: cs ++ rest) = some (v, rest)) : Reads hook v := by
  intro fuel rest hfuel _
  rw [hr] at hfuel ⊢
  obtain ⟨k, rfl⟩ : ∃ k, fuel = k + 1 := ⟨fuel - 1, by rw [length_cons] at hfuel; omega⟩
  have hs := hl rest
  rw [cons_append] at hs ⊢
  rw [parseValue.eq_def]
  simp only [if_neg hq, if_neg hbrac, if_neg hb, hs]

theorem skipSpace_cons (cs : Text) (h : isSpace c = false) : skipSpace (c :: cs) = c :: cs := by
  rw [skipSpace, dropWhile_cons, if_neg (by rw [h]; decide)]

theorem parseElements_render (hook : PairsHook) (hv : Reads hook v) :
    ∀ (vs : List Json), (∀ w ∈ vs, Readable w ∧ Reads hook w) → ∀ (fuel : ℕ) (rest : Text),
      2 * ((render v).length + (renderList vs).length) ≤ fuel →
      parseElements hook fuel (render v ++ (renderList vs ++ rest)) = some (v :: vs, rest) := by
  intro vs
  induction vs generalizing v with
  | nil =>
    intro _ fuel rest hfuel
    rw [renderList, length_singleton] at hfuel
    obtain ⟨k, rfl⟩ : ∃ k, fuel = k + 1 := ⟨fuel - 1, by omega⟩
    rw [parseElements, hv k _ (by omega) (stops_renderList [] rest)]
    simp only [renderList, singleton_append,
      skipSpace_cons rest (show isSpace (codePoint ']') = false by decide), if_true]
  | cons w ws ih =>
    intro hw fuel rest hfuel
    rw [renderList, length_cons, length_append] at hfuel
    obtain ⟨k, rfl⟩ : ∃ k, fuel = k + 1 := ⟨fuel - 1, by omega⟩
    obtain ⟨hr, he⟩ := hw w mem_cons_self
    have ht := ih he (fun u hu => hw u (mem_cons_of_mem _ hu)) k rest (by omega)
    rw [parseElements, hv k _ (by omega) (stops_renderList (w :: ws) rest)]
    simp only [renderList, cons_append, append_assoc,
      skipSpace_cons _ (show isSpace (codePoint ',') = false by decide),
      if_neg (show codePoint ',' ≠ codePoint ']' by decide), if_true,
      skipSpace_render hr, ht, map_some]

theorem parseMembers_render (hook : PairsHook) {key : Text} (hr : Readable v)
    (hv : Reads hook v) : ∀ (items : List (Option Text × Json)),
      (∀ item ∈ items, item.1.isSome = true ∧ Readable item.2 ∧ Reads hook item.2) →
      ∀ (fuel : ℕ) (rest : Text), 2 * ((render v).length + (renderItems items).length) < fuel →
      parseMembers hook fuel (quoted key ++ codePoint ':' :: (render v ++
        (renderItems items ++ rest))) =
        some ((key, v) :: items.map (fun item => (item.1.getD [], item.2)), rest) := by
  intro items
  induction items generalizing key v with
  | nil =>
    intro _ fuel rest hfuel
    obtain ⟨k, rfl⟩ : ∃ k, fuel = k + 1 := ⟨fuel - 1, by omega⟩
    rw [renderItems, length_singleton] at hfuel
    rw [quoted, cons_append, cons_append, append_assoc, singleton_append, parseMembers.eq_def]
    simp only [if_true, parseChars_escaped, skipSpace_render hr,
      skipSpace_cons _ (show isSpace (codePoint ':') = false by decide),
      hv k _ (by omega) (stops_renderItems [] rest)]
    simp only [renderItems, singleton_append, map_nil,
      skipSpace_cons rest (show isSpace (codePoint '\x7d') = false by decide), if_true]
  | cons item items ih =>
    intro hi fuel rest hfuel
    obtain ⟨name, w⟩ := item
    rw [renderItems, length_cons, length_append, length_cons, length_append] at hfuel
    obtain ⟨k, rfl⟩ : ∃ k, fuel = k + 1 := ⟨fuel - 1, by omega⟩
    obtain ⟨-, hw, he⟩ : name.isSome = true ∧ Readable w ∧ Reads hook w :=
      hi (name, w) mem_cons_self
    have ht : parseMembers hook k (quoted (name.getD []) ++ codePoint ':' :: (render w ++
        (renderItems items ++ rest))) =
        some ((name.getD [], w) :: items.map (fun item => (item.1.getD [], item.2)), rest) :=
      ih hw he (fun u hu => hi u (mem_cons_of_mem _ hu)) k rest (by omega)
    have hq : skipSpace (quoted (name.getD []) ++ codePoint ':' :: (render w ++
        (renderItems items ++ rest))) = quoted (name.getD []) ++ codePoint ':' :: (render w ++
        (renderItems items ++ rest)) := skipSpace_cons _ (by decide)
    rw [quoted, cons_append, cons_append, append_assoc, singleton_append, parseMembers.eq_def]
    simp only [if_true, parseChars_escaped, skipSpace_render hr,
      skipSpace_cons _ (show isSpace (codePoint ':') = false by decide),
      hv k _ (by omega) (stops_renderItems ((name, w) :: items) rest)]
    simp only [renderItems, cons_append, append_assoc,
      skipSpace_cons _ (show isSpace (codePoint ',') = false by decide),
      if_neg (show codePoint ',' ≠ codePoint '\x7d' by decide), if_true, hq, ht,
      map_some, map_cons]

theorem reads_list (hook : PairsHook) {xs : List Json}
    (h : ∀ v ∈ xs, Readable v ∧ Reads hook v) : Reads hook (.list xs) := by
  cases xs with
  | nil =>
    intro fuel rest hfuel _
    obtain ⟨k, rfl⟩ : ∃ k, fuel = k + 1 := ⟨fuel - 1, by
      change 2 * 2 ≤ fuel at hfuel
      omega⟩
    rfl
  | cons v vs =>
    intro fuel rest hfuel _
    rw [render, length_cons, length_append] at hfuel
    obtain ⟨k, rfl⟩ : ∃ k, fuel = k + 1 := ⟨fuel - 1, by omega⟩
    obtain ⟨hr, hre⟩ := h v mem_cons_self
    have he := parseElements_render hook hre vs
      (fun w hw => h w (mem_cons_of_mem _ hw)) k rest (by omega)
    rw [render, cons_append, append_assoc, parseValue.eq_def]
    simp only [if_neg (show codePoint '[' ≠ codePoint '"' by decide),
      if_neg (show codePoint '[' ≠ codePoint '\x7b' by decide), if_true,
      skipSpace_render hr]
    obtain ⟨c, cs, hc, -, hb⟩ := render_head hr (renderList vs ++ rest)
    rw [hc] at he ⊢
    simp only [if_neg hb, he, map_some]

theorem getD_some (h : ∀ item ∈ items, item.1.isSome = true) :
    items.map (fun item => (some (item.1.getD []), item.2)) = items := by
  rw [List.map_congr_left (g := id), List.map_id]
  rintro ⟨key, v⟩ hitem
  obtain ⟨name, rfl⟩ := Option.isSome_iff_exists.mp (h _ hitem)
  rfl

theorem reads_dict (hkeeps : Keeps hook)
    (h : ∀ item ∈ items, item.1.isSome = true ∧ Readable item.2 ∧ Reads hook item.2)
    (hnodup : (items.map (·.1)).Nodup) : Reads hook (.dict items) := by
  have hsome : ∀ item ∈ items, item.1.isSome = true := fun item hitem => (h item hitem).1
  have hpairs : hook (items.map (fun item => (item.1.getD [], item.2))) = some items := by
    rw [hkeeps, List.map_map]
    · exact congrArg some (getD_some hsome)
    rw [List.map_map]
    refine List.Nodup.of_map some ?_
    rw [← getD_some hsome, List.map_map] at hnodup
    rw [List.map_map]
    exact hnodup
  cases items with
  | nil =>
    intro fuel rest hfuel _
    obtain ⟨k, rfl⟩ : ∃ k, fuel = k + 1 := ⟨fuel - 1, by
      change 2 * 2 ≤ fuel at hfuel
      omega⟩
    change (hook []).map _ = _
    rw [show hook [] = some [] from hpairs]
    rfl
  | cons item items =>
    obtain ⟨key, v⟩ := item
    intro fuel rest hfuel _
    rw [render, List.length_cons, List.length_append, List.length_cons, List.length_append] at hfuel
    obtain ⟨k, rfl⟩ : ∃ k, fuel = k + 1 := ⟨fuel - 1, by omega⟩
    obtain ⟨-, hreadable, hreads⟩ : key.isSome = true ∧ Readable v ∧ Reads hook v :=
      h (key, v) List.mem_cons_self
    have hmembers : parseMembers hook k (quoted (key.getD []) ++ codePoint ':' :: (render v ++
        (renderItems items ++ rest))) =
        some ((key.getD [], v) :: items.map (fun item => (item.1.getD [], item.2)), rest) :=
      parseMembers_render hook hreadable hreads items
        (fun u hu => h u (List.mem_cons_of_mem _ hu)) k rest (by omega)
    have hquote : skipSpace (quoted (key.getD []) ++ codePoint ':' :: (render v ++
        (renderItems items ++ rest))) = quoted (key.getD []) ++ codePoint ':' :: (render v ++
        (renderItems items ++ rest)) := skipSpace_cons _ (by decide)
    rw [render, List.cons_append, List.append_assoc, List.cons_append, List.append_assoc,
      parseValue.eq_def]
    simp only [if_neg (show codePoint '\x7b' ≠ codePoint '"' by decide), if_true, hquote]
    rw [show quoted (key.getD []) ++ codePoint ':' :: (render v ++ (renderItems items ++ rest)) =
      codePoint '"' :: (escaped (key.getD []) ++ [codePoint '"'] ++ codePoint ':' :: (render v ++
        (renderItems items ++ rest))) from rfl] at hmembers ⊢
    simp only [if_neg (show codePoint '"' ≠ codePoint '\x7d' by decide), hmembers]
    rw [show (key.getD [], v) :: items.map (fun item => (item.1.getD [], item.2)) =
      ((key, v) :: items).map (fun item => (item.1.getD [], item.2)) from rfl, hpairs]
    rfl

mutual

theorem reads {hook : PairsHook} (hk : Keeps hook) : ∀ v : Json, Readable v → Reads hook v
  | .null, _ | .bool true, _ | .bool false, _ =>
    reads_literal hook rfl (by decide) (by decide) (by decide) (fun _ => rfl)
  | .int n, h => by
      intro fuel rest hfuel hr
      have hl := render_length h
      obtain ⟨k, rfl⟩ : ∃ k, fuel = k + 1 := ⟨fuel - 1, by omega⟩
      exact (parseValue_numeric hook (numeric_intText n rest) k).trans (parseNumber_intText n hr)
  | .float (.finite d), h => by
      intro fuel rest hfuel hr
      have hl := render_length h
      obtain ⟨k, rfl⟩ : ∃ k, fuel = k + 1 := ⟨fuel - 1, by omega⟩
      exact (parseValue_numeric hook (numeric_decimalText d rest) k).trans
        (parseNumber_decimalText d hr)
  | .float .nan, h | .float (.infinity _), h | .other _, h => absurd h (by simp [Readable])
  | .str s, _ => by
      intro fuel rest hfuel _
      obtain ⟨k, rfl⟩ : ∃ k, fuel = k + 1 := ⟨fuel - 1, by
        rw [render, quoted, length_append, length_cons] at hfuel
        omega⟩
      rw [render, quoted, cons_append, cons_append, append_assoc,
        singleton_append, parseValue.eq_def]
      simp only [if_true, parseChars_escaped, map_some]
  | .list xs, h => reads_list hook (readsList hk xs h)
  | .dict items, h => reads_dict hk (readsItems hk items h.1) h.2

theorem readsList {hook : PairsHook} (hk : Keeps hook) :
    ∀ xs : List Json, ReadableList xs → ∀ v ∈ xs, Readable v ∧ Reads hook v
  | [], _ => nofun
  | v :: vs, h => forall_mem_cons.mpr ⟨⟨h.1, reads hk v h.1⟩, readsList hk vs h.2⟩

theorem readsItems {hook : PairsHook} (hk : Keeps hook) :
    ∀ items : List (Option Text × Json), ReadableItems items →
      ∀ item ∈ items, item.1.isSome = true ∧ Readable item.2 ∧ Reads hook item.2
  | [], _ => nofun
  | (_, v) :: rest, h =>
    forall_mem_cons.mpr ⟨⟨h.1, h.2.1, reads hk v h.2.1⟩, readsItems hk rest h.2.2⟩

end

theorem loads_render (hk : Keeps hook) (h : Readable v) : loads hook (render v) = some v := by
  have hskip := skipSpace_render h []
  have hr := reads hk v h (2 * (render v).length) [] le_rfl (by simp [Stops])
  rw [append_nil] at hskip hr
  rw [loads, hskip, hr]
  rfl

end Json

end OriRuntime
