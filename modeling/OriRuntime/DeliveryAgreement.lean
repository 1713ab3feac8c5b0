import OriRuntime.TelemetryDelivery

/-!
# The two producers' verdicts

On a header section in the form a parser delivers, the two producers read the same fields as the
same text, and on every body the same document or none. They then differ in two places: the status
of the answer is looked up in a hash set by one, and the counts are added with saturation by the
other.
-/

namespace OriRuntime

open List Option

/-! ### Trimming and letter case -/

variable {p : CodePoint → Bool} {s : Text} {c : CodePoint} {fields : HeaderFields} {batchEvents : ℕ}

theorem trimmed_congr {q : CodePoint → Bool} (h : ∀ c ∈ s, p c = q c) :
    trimmed p s = trimmed q s := by
  have hp : ∀ {t : Text}, (∀ c ∈ t, p c = q c) → t.dropWhile p = t.dropWhile q := by
    intro t ht
    induction t with
    | nil => rfl
    | cons c cs ih =>
      rw [dropWhile_cons, dropWhile_cons, ht c mem_cons_self,
        ih (fun d hd => ht d (mem_cons_of_mem c hd))]
  unfold trimmed List.rdropWhile
  rw [hp h, hp]
  intro c hc
  exact h c ((dropWhile_sublist q).mem (mem_reverse.mp hc))

theorem trimmed_of_none (h : ∀ c ∈ s, p c = false) : trimmed p s = s := by
  have hd : ∀ {t : Text}, (∀ c ∈ t, p c = false) → t.dropWhile p = t := by
    intro t ht
    cases t with
    | nil => rfl
    | cons c cs => rw [dropWhile_cons, ht c mem_cons_self]; rfl
  unfold trimmed List.rdropWhile
  rw [hd h, hd (fun c hc => h c (mem_reverse.mp hc)), reverse_reverse]

theorem mem_trimmed (hc : c ∈ s) (hp : p c = false) : c ∈ trimmed p s := by
  have hd : ∀ {t : Text}, c ∈ t → c ∈ t.dropWhile p := by
    intro t ht
    rw [← takeWhile_append_dropWhile (p := p) (l := t)] at ht
    rcases mem_append.mp ht with htake | hd
    · rw [mem_takeWhile_imp htake] at hp
      cases hp
    · exact hd
  exact mem_reverse.mpr (hd (mem_reverse.mpr (hd hc)))

theorem trimmed_subset (hc : c ∈ trimmed p s) : c ∈ s :=
  (dropWhile_sublist p).mem (( rdropWhile_prefix p _).subset hc)

/-- The characters a verdict field's value is held to. -/
def VisibleText (s : Text) : Prop :=
  ∀ c ∈ s, c.val = 32 ∨ c.val = 9 ∨ 33 ≤ c.val ∧ c.val ≤ 126

theorem isBlank_visible (h : c.val = 32 ∨ c.val = 9 ∨ 33 ≤ c.val ∧ c.val ≤ 126) :
    TelemetryDelivery.isWhitespace c = MobileDelivery.isWhitespace c := by
  unfold TelemetryDelivery.isWhitespace MobileDelivery.isWhitespace isBlank
  simp only [all_cons, all_nil, Bool.and_true, decide_eq_decide, mem_cons, not_mem_nil, or_false]
  rcases h with h | h | h <;> omega

theorem lower_visible (h : VisibleText s) :
    TelemetryDelivery.lower s = MobileDelivery.lowerAscii s := by
  refine map_congr_left (fun c hc => ?_)
  have := h c hc
  by_cases hu : 65 ≤ c.val ∧ c.val ≤ 90
  · rw [if_pos (.inl hu), if_pos hu]
  · rw [if_neg (by omega), if_neg hu]

theorem isJsonMediaType_visible (h : VisibleText s) :
    TelemetryDelivery.isJsonMediaType s = MobileDelivery.isJsonMediaType s := by
  have htake : VisibleText (s.takeWhile (· ≠ codePoint ';')) :=
    fun c hc => h c (takeWhile_subset _ hc)
  unfold TelemetryDelivery.isJsonMediaType MobileDelivery.isJsonMediaType
  rw [trimmed_congr (fun c hc => isBlank_visible (htake c hc)),
    lower_visible (fun c hc => htake c (trimmed_subset hc))]

theorem readableContentCoding_visible {value : Option Text}
    (h : ∀ s, value = some s → VisibleText s) :
    TelemetryDelivery.readableContentCoding value = MobileDelivery.readableContentCoding value := by
  cases value with
  | none => rfl
  | some s =>
    have hs : VisibleText (trimmed isOws s) := fun c hc => h s rfl c (trimmed_subset hc)
    unfold TelemetryDelivery.readableContentCoding MobileDelivery.readableContentCoding
    dsimp only
    rw [lower_visible hs]
    cases trimmed isOws s with
    | nil => rfl
    | cons c cs => simp [MobileDelivery.lowerAscii]

/-! ### Header fields -/

/-- A field name as the code writes it: ASCII, with no capital letter. -/
def PlainName (wanted : Text) : Prop := ∀ c ∈ wanted, c.val < 128 ∧ ¬(65 ≤ c.val ∧ c.val ≤ 90)

theorem plain_verdictFields : ∀ wanted ∈ verdictFields, PlainName wanted := by
  have ha : verdictFields.all (fun wanted => wanted.all (fun c =>
      decide (c.val < 128 ∧ ¬(65 ≤ c.val ∧ c.val ≤ 90)))) = true := by
    decide +kernel
  intro wanted hw c hc
  exact of_decide_eq_true (all_eq_true.mp (all_eq_true.mp ha wanted hw) c hc)

theorem val_latin1 (b : UInt8) : (Fin.ofNat 0x110000 b.toNat : CodePoint).val = b.toNat :=
  Nat.mod_eq_of_lt (by have := b.toNat_lt; omega)

theorem lower_byte (b : UInt8) (hc : c.val < 128 ∧ ¬(65 ≤ c.val ∧ c.val ≤ 90)) :
    TelemetryDelivery.lower [Fin.ofNat 0x110000 b.toNat] = [c] ↔
      (MobileDelivery.asciiLower b).toNat = c.val := by
  have hv := val_latin1 b
  have hu : (0x41 ≤ b ∧ b ≤ 0x5A) ↔ (65 ≤ b.toNat ∧ b.toNat ≤ 90) := by
    exact Iff.rfl
  have ha : 65 ≤ b.toNat ∧ b.toNat ≤ 90 → (b + 0x20).toNat = b.toNat + 32 := by
    intro h
    change (b.toNat + 32) % 256 = b.toNat + 32
    omega
  have hs : ∀ n : ℕ, n < 300 → (Fin.ofNat 0x110000 n : CodePoint).val = n :=
    fun n hn => Nat.mod_eq_of_lt (by omega)
  unfold TelemetryDelivery.lower MobileDelivery.asciiLower
  simp only [map_cons, map_nil, List.cons.injEq, and_true, Fin.ext_iff, hv, hu]
  split_ifs with h₁ h₂ h₂
  · rw [hs _ (by omega), ha h₂]
  · rw [hs _ (by omega)]
    omega
  · omega
  · rw [hv]

theorem fieldName_eq (name : Bytes) {wanted : Text} (h : PlainName wanted) :
    TelemetryDelivery.fieldName name = wanted ↔
      MobileDelivery.eqIgnoreAsciiCase name wanted = true := by
  unfold MobileDelivery.eqIgnoreAsciiCase
  induction name generalizing wanted with
  | nil =>
    cases wanted with
    | nil => exact ⟨fun _ => rfl, fun _ => rfl⟩
    | cons c cs => exact ⟨(fun h => by cases h), fun h => by cases h⟩
  | cons b bs ih =>
    cases wanted with
    | nil => exact ⟨(fun h => by cases h), fun h => by cases h⟩
    | cons c cs =>
      have hbyte := lower_byte b (h c mem_cons_self)
      have hr := ih (fun d hd => h d (mem_cons_of_mem c hd))
      have hc : TelemetryDelivery.fieldName (b :: bs) =
          TelemetryDelivery.lower [Fin.ofNat 0x110000 b.toNat] ++
            TelemetryDelivery.fieldName bs := rfl
      obtain ⟨d, hd⟩ : ∃ d, TelemetryDelivery.lower [Fin.ofNat 0x110000 b.toNat] = [d] := ⟨_, rfl⟩
      rw [hd, List.cons.injEq, eq_self, and_true] at hbyte
      rw [hc, hd, singleton_append, List.cons.injEq, hbyte, hr]
      simp

theorem mem_names {wanted : Text} (h : PlainName wanted) :
    wanted ∈ fields.map (fun f => TelemetryDelivery.fieldName f.1) ↔
      fields.any (fun f => MobileDelivery.eqIgnoreAsciiCase f.1 wanted) = true := by
  rw [List.mem_map, List.any_eq_true]
  constructor
  · rintro ⟨f, hf, hn⟩
    exact ⟨f, hf, (fieldName_eq f.1 h).mp hn⟩
  · rintro ⟨f, hf, hn⟩
    exact ⟨f, hf, (fieldName_eq f.1 h).mpr hn⟩

theorem visible_bounds : (32 : UInt8).toNat = 32 ∧ (9 : UInt8).toNat = 9 ∧ (33 : UInt8).toNat = 33 ∧
    (126 : UInt8).toNat = 126 ∧ (127 : UInt8).toNat = 127 :=
  ⟨rfl, rfl, rfl, rfl, rfl⟩

theorem isVisible_eq (b : UInt8) : TelemetryDelivery.isVisible b = MobileDelivery.isVisible b := by
  unfold TelemetryDelivery.isVisible MobileDelivery.isVisible
  rw [decide_eq_decide]
  obtain ⟨h32, h9, h33, h126, h127⟩ := visible_bounds
  simp only [UInt8.le_iff_toNat_le, UInt8.lt_iff_toNat_lt, ← UInt8.toNat_inj, h32, h9, h33, h126,
    h127]
  omega

theorem readableHeaderSection_eq (fields : HeaderFields) :
    TelemetryDelivery.readableHeaderSection fields =
      MobileDelivery.readableHeaderSection fields := by
  have hp := plain_verdictFields
  have ht := @mem_names fields _ (hp (text "transfer-encoding") (by decide))
  have hl := @mem_names fields _ (hp (text "content-length") (by decide))
  have ha : ∀ f : Bytes × Bytes, (decide (TelemetryDelivery.fieldName f.1 ∉ verdictFields) ||
          f.2.all TelemetryDelivery.isVisible) =
        (!verdictFields.any (fun wanted => MobileDelivery.eqIgnoreAsciiCase f.1 wanted) ||
          f.2.all MobileDelivery.isVisible) := by
    intro f
    have hm : TelemetryDelivery.fieldName f.1 ∈ verdictFields ↔
        verdictFields.any (fun wanted => MobileDelivery.eqIgnoreAsciiCase f.1 wanted) = true := by
      rw [List.any_eq_true]
      constructor
      · intro hi
        exact ⟨_, hi, (fieldName_eq f.1 (hp _ hi)).mp rfl⟩
      · rintro ⟨wanted, hi, hn⟩
        exact (fieldName_eq f.1 (hp _ hi)).mpr hn ▸ hi
    rw [show TelemetryDelivery.isVisible = MobileDelivery.isVisible from funext isVisible_eq]
    congr 1
    rw [decide_not, Bool.not_inj_iff, Bool.eq_iff_iff, decide_eq_true_iff]
    exact hm
  unfold TelemetryDelivery.readableHeaderSection MobileDelivery.readableHeaderSection
  simp only [ha, ht, hl, Bool.and_eq_true]

/-! ### The values of the verdict's fields -/

theorem visible_of_readable (h : TelemetryDelivery.readableHeaderSection fields = true)
    {f : Bytes × Bytes} (hf : f ∈ fields) (hn : TelemetryDelivery.fieldName f.1 ∈ verdictFields) :
    ∀ b ∈ f.2, b.toNat = 32 ∨ b.toNat = 9 ∨ 33 ≤ b.toNat ∧ b.toNat ≤ 126 := by
  unfold TelemetryDelivery.readableHeaderSection at h
  dsimp only at h
  split_ifs at h
  have hi := all_eq_true.mp h f hf
  rw [decide_eq_false (not_not.mpr hn), Bool.false_or] at hi
  intro b hb
  have := all_eq_true.mp hi b hb
  unfold TelemetryDelivery.isVisible at this
  rw [decide_eq_true_iff] at this
  obtain ⟨h32, h9, h33, h126, h127⟩ := visible_bounds
  simp only [UInt8.le_iff_toNat_le, UInt8.lt_iff_toNat_lt, ← UInt8.toNat_inj, h32, h9, h33,
    h127] at this
  omega

theorem visible_join {values : List Text} (h : ∀ v ∈ values, VisibleText v)
    (hs : joinHeaderValues values = some s) : VisibleText s := by
  unfold joinHeaderValues at hs
  split_ifs at hs with he
  cases hs
  intro c hc
  obtain ⟨v, hv, hcv⟩ := mem_flatten.mp hc
  have hm : v ∈ values ∨ v = text ", " := by
    clear h hc hcv he
    induction values with
    | nil => cases hv
    | cons w ws ih =>
      cases ws with
      | nil => exact .inl hv
      | cons w' ws =>
        rcases mem_cons.mp hv with rfl | hv
        · exact .inl mem_cons_self
        rcases mem_cons.mp hv with rfl | hv
        · exact .inr rfl
        rcases ih hv with hi | hse
        · exact .inl (mem_cons_of_mem _ hi)
        · exact .inr hse
  rcases hm with hi | rfl
  · exact h v hi c hcv
  have hse : (text ", ").all (fun c =>
      decide (c.val = 32 ∨ c.val = 9 ∨ 33 ≤ c.val ∧ c.val ≤ 126)) = true := by
    decide +kernel
  exact of_decide_eq_true (all_eq_true.mp hse c hcv)

section Fields

variable (lib : JsonLibrary) {fields : HeaderFields} {wanted : Text}

theorem filter_fields (hw : wanted ∈ verdictFields) :
    fields.filter (fun f => MobileDelivery.eqIgnoreAsciiCase f.1 wanted) =
      fields.filter (fun f => TelemetryDelivery.fieldName f.1 = wanted) := by
  refine filter_congr (fun f _ => ?_)
  rw [Bool.eq_iff_iff, decide_eq_true_iff]
  exact (fieldName_eq f.1 (plain_verdictFields _ hw)).symm

theorem field_eq (h : TelemetryDelivery.readableHeaderSection fields = true)
    (hw : wanted ∈ verdictFields) :
    MobileDelivery.field lib fields wanted = TelemetryDelivery.field fields wanted := by
  unfold MobileDelivery.field TelemetryDelivery.field
  rw [filter_fields hw]
  congr 1
  refine map_congr_left (fun f hf => ?_)
  obtain ⟨hf, hn⟩ := mem_filter.mp hf
  refine lib.lossyAscii f.2 (fun b hb => ?_)
  have := visible_of_readable h hf (of_decide_eq_true hn ▸ hw) b hb
  change b.toNat < 128
  omega

theorem field_visible (h : TelemetryDelivery.readableHeaderSection fields = true)
    (hw : wanted ∈ verdictFields) {s : Text}
    (hs : TelemetryDelivery.field fields wanted = some s) : VisibleText s := by
  refine visible_join (fun v hv => ?_) hs
  obtain ⟨f, hf, rfl⟩ := mem_map.mp hv
  obtain ⟨hf, hn⟩ := mem_filter.mp hf
  intro c hc
  obtain ⟨b, hb, rfl⟩ := mem_map.mp hc
  rw [val_latin1]
  exact visible_of_readable h hf (of_decide_eq_true hn ▸ hw) b hb

end Fields

/-! ### Which bodies are read -/

/-- The form a parser delivers: a `Content-Length` is at most twenty ASCII digits. -/
def ContentLengths (fields : HeaderFields) : Prop :=
  ∀ f ∈ fields, TelemetryDelivery.fieldName f.1 = text "content-length" →
    f.2.length ≤ 20 ∧ ∀ b ∈ f.2, 48 ≤ b.toNat ∧ b.toNat ≤ 57

theorem isDigit_iff (c : CodePoint) : Json.isDigit c = true ↔ 48 ≤ c.val ∧ c.val ≤ 57 := by
  exact decide_eq_true_iff

theorem natOf_lt {ds : Text} (h : ∀ c ∈ ds, Json.isDigit c = true) :
    Json.natOf ds < 10 ^ ds.length := by
  induction ds using List.reverseRecOn with
  | nil => decide
  | append_singleton ds d ih =>
    have hd := (isDigit_iff d).mp (h d (by simp))
    have hs := ih (fun c hc => h c (mem_append_left _ hc))
    have ht : Json.natOf (ds ++ [d]) = 10 * Json.natOf ds + (d.val - 48) := by
      unfold Json.natOf
      rw [foldl_append]
      rfl
    rw [length_append, length_singleton]
    omega

theorem parseU128_digits (hn : s ≠ []) (hl : s.length ≤ 20) (h : ∀ c ∈ s, Json.isDigit c = true) :
    MobileDelivery.parseU128 s = some (Json.natOf s) := by
  have ht : Json.natOf s < 2 ^ 128 := calc Json.natOf s < 10 ^ s.length := natOf_lt h
      _ ≤ 10 ^ 20 := Nat.pow_le_pow_right (by decide) hl
      _ < 2 ^ 128 := by norm_num
  cases s with
  | nil => exact absurd rfl hn
  | cons c cs =>
    have hplus : c ≠ codePoint '+' := by
      rintro rfl
      exact absurd (h _ mem_cons_self) (by decide)
    have ha : (c :: cs).all Json.isDigit = true := all_eq_true.mpr h
    unfold MobileDelivery.parseU128
    simp only [if_neg hplus, isEmpty_cons, ha, Bool.not_true, Bool.or_self,
      Bool.false_eq_true, if_false, if_pos ht]

theorem parseU128_comma (h : codePoint ',' ∈ s) : MobileDelivery.parseU128 s = none := by
  have hb : ∀ t : Text, codePoint ',' ∈ t → t.all Json.isDigit = false := by
    intro t ht
    rw [List.all_eq_false]
    exact ⟨_, ht, by decide⟩
  cases s with
  | nil => cases h
  | cons c cs =>
    unfold MobileDelivery.parseU128
    by_cases hplus : c = codePoint '+'
    · subst hplus
      rcases List.mem_cons.mp h with heq | hi
      · exact absurd heq (by decide)
      · simp only [if_true, hb cs hi, Bool.not_false, Bool.or_true]
    · simp only [if_neg hplus, hb _ h, Bool.not_false, Bool.or_true, if_true]

theorem declaredPastCeiling_eq (lib : JsonLibrary)
    (h : TelemetryDelivery.readableHeaderSection fields = true) (hleng : ContentLengths fields) :
    MobileDelivery.declaredPastCeiling lib fields =
      TelemetryDelivery.declaredPastCeiling fields := by
  have hw : text "content-length" ∈ verdictFields := by simp [verdictFields]
  unfold MobileDelivery.declaredPastCeiling TelemetryDelivery.declaredPastCeiling
  rw [field_eq lib h hw]
  cases hi : TelemetryDelivery.field fields (text "content-length") with
  | none => rfl
  | some s =>
    have hvi := field_visible h hw hi
    simp only [Option.bind_some, Option.getD_some]
    rw [← trimmed_congr (fun c hc => isBlank_visible (hvi c hc))]
    unfold TelemetryDelivery.field joinHeaderValues at hi
    split_ifs at hi with he
    match hva : (fields.filter (fun f => TelemetryDelivery.fieldName f.1 =
        text "content-length")).map (fun f => TelemetryDelivery.latin1 f.2) with
    | [] => simp [hva] at he
    | [v] =>
      rw [hva] at hi
      have hv : s = v := by simpa using hi.symm
      subst hv
      obtain ⟨f, hf, rfl⟩ := List.mem_map.mp (hva ▸ List.mem_singleton_self s)
      obtain ⟨hf, hm⟩ := List.mem_filter.mp hf
      obtain ⟨hl, hd⟩ := hleng f hf (of_decide_eq_true hm)
      have ha : ∀ c ∈ TelemetryDelivery.latin1 f.2, Json.isDigit c = true := by
        intro c hc
        obtain ⟨b, hb, rfl⟩ := List.mem_map.mp hc
        rw [isDigit_iff, val_latin1]
        exact hd b hb
      have hs : ∀ c ∈ TelemetryDelivery.latin1 f.2, TelemetryDelivery.isWhitespace c = false := by
        intro c hc
        have := (isDigit_iff c).mp (ha c hc)
        rw [isBlank_visible (by omega)]
        unfold MobileDelivery.isWhitespace
        rw [decide_eq_false_iff_not]
        simp only [List.mem_cons, List.not_mem_nil, or_false]
        omega
      have htrim := trimmed_of_none hs
      simp only [htrim]
      by_cases hn : TelemetryDelivery.latin1 f.2 = []
      · rw [hn]
        rfl
      · rw [parseU128_digits hn (by simpa [TelemetryDelivery.latin1] using hl) ha,
          List.all_eq_true.mpr ha]
        simp [hn]
    | v :: v' :: vs =>
      rw [hva] at hi
      have ho : codePoint ',' ∈ s := by
        cases hi
        simp [List.intersperse_cons_cons, text]
      have htrim := mem_trimmed (p := TelemetryDelivery.isWhitespace) ho (by decide)
      rw [parseU128_comma htrim]
      have hba : (trimmed TelemetryDelivery.isWhitespace s).all Json.isDigit = false := by
        rw [List.all_eq_false]
        exact ⟨_, htrim, by decide⟩
      rw [hba]
      simp

theorem bodyIsWanted_eq (lib : JsonLibrary)
    (h : TelemetryDelivery.readableHeaderSection fields = true) (hl : ContentLengths fields) :
    MobileDelivery.bodyIsWanted lib fields = TelemetryDelivery.bodyIsWanted fields := by
  have hw : text "content-encoding" ∈ verdictFields := by simp [verdictFields]
  unfold MobileDelivery.bodyIsWanted TelemetryDelivery.bodyIsWanted
  rw [← readableHeaderSection_eq, field_eq lib h hw, declaredPastCeiling_eq lib h hl,
    readableContentCoding_visible (fun s hs => field_visible h hw hs)]

/-! ### One document or none -/

theorem nestingExceeds_eq {limit : ℕ} {body : Bytes} {depth : ℕ} {inString escaped : Bool}
    (h : closesUnopened body depth inString escaped = false) :
    TelemetryDelivery.nestingExceeds limit body depth inString escaped =
      MobileDelivery.nestingExceeds limit body depth inString escaped := by
  induction body generalizing depth inString escaped with
  | nil => cases inString <;> rfl
  | cons byte rest ih =>
    cases inString with
    | true =>
      simp only [closesUnopened, TelemetryDelivery.nestingExceeds,
        MobileDelivery.nestingExceeds] at h ⊢
      split_ifs at h ⊢
      all_goals exact ih h
    | false =>
      simp only [closesUnopened, TelemetryDelivery.nestingExceeds,
        MobileDelivery.nestingExceeds] at h ⊢
      split_ifs at h ⊢
      · exact ih h
      · have := ih h
        congr 1
        rw [decide_eq_decide]
        omega
      · obtain ⟨hzero, hr⟩ := Bool.or_eq_false_iff.mp h
        have hp : depth ≠ 0 := of_decide_eq_false hzero
        have := ih hr
        rwa [Nat.cast_sub (Nat.one_le_iff_ne_zero.mpr hp), Nat.cast_one] at this
      · exact ih h

/-- The two numbers give the same count, whatever the batch. -/
def NumberRel (a : TelemetryDelivery.PyNumber) (b : MobileDelivery.MobileNumber) : Prop :=
  match a, b with
  | .int n, .posInt m => n = m
  | .int n, .negInt _ => n < 0
  | .int n, .float _ => n < 0 ∨ 2 ^ 64 ≤ n
  | .float _, .float _ => True
  | .float _, .posInt _ | .float _, .negInt _ => False

theorem finiteInteger_of_lt {magnitude : ℕ} (h : magnitude < 2 ^ 64) :
    finiteInteger magnitude = true := by
  unfold finiteInteger
  rw [decide_eq_true_iff]
  exact h.trans (by decide +kernel)

theorem number_integer (lib : JsonLibrary) (neg : Bool) (magnitude : ℕ) :
    TelemetryDelivery.numberOf lib (.integer neg magnitude) = none ∧
        MobileDelivery.numberOf lib (.integer neg magnitude) = none ∨
      ∃ a b, TelemetryDelivery.numberOf lib (.integer neg magnitude) = some a ∧
        MobileDelivery.numberOf lib (.integer neg magnitude) = some b ∧ NumberRel a b := by
  unfold TelemetryDelivery.numberOf MobileDelivery.numberOf
  dsimp only
  cases hf : finiteInteger magnitude with
  | false =>
    have hl : 2 ^ 64 ≤ magnitude := by
      by_contra ht
      rw [finiteInteger_of_lt (by omega)] at hf
      cases hf
    refine .inl ⟨by simp, ?_⟩
    rw [if_neg (by simp; omega), if_neg (by simp; omega), if_neg (by decide)]
  | true =>
    right
    cases neg with
    | false =>
      simp only [Bool.false_and, Bool.false_eq_true, if_false, Bool.not_false, Bool.true_and,
        decide_eq_true_eq]
      by_cases hs : magnitude < 2 ^ 64
      · exact ⟨_, _, rfl, if_pos hs, rfl⟩
      · refine ⟨_, _, rfl, if_neg hs, .inr ?_⟩
        exact_mod_cast Nat.not_lt.mp hs
    | true =>
      simp only [Bool.true_and, Bool.not_true, Bool.false_and, Bool.false_eq_true, if_false,
        decide_eq_true_eq, if_true]
      split <;> rename_i hzero
      · rw [if_neg (by omega)]
        exact ⟨_, _, rfl, rfl, trivial⟩
      · have hn : (-magnitude : ℤ) < 0 := by omega
        split_ifs
        · exact ⟨_, _, rfl, rfl, hn⟩
        · exact ⟨_, _, rfl, rfl, .inl hn⟩

theorem unique_fold {α : Type} (pairs : List (Text × α)) : pairs.foldl (fun members pair =>
      members.bind (fun members =>
        if members.any (fun m => decide (m.1 = pair.1)) then none else some (members ++ [pair])))
      (some []) = if (pairs.map (·.1)).Nodup then some pairs else none := by
  have ho : ∀ pairs : List (Text × α), pairs.foldl (fun members pair =>
      members.bind (fun members =>
        if members.any (fun m => decide (m.1 = pair.1)) then none else some (members ++ [pair])))
      none = none := by
    intro pairs
    induction pairs with
    | nil => rfl
    | cons pair pairs ih => exact ih
  have hg : ∀ (pairs before : List (Text × α)), (before.map (·.1)).Nodup →
      pairs.foldl (fun members pair =>
        members.bind (fun members =>
          if members.any (fun m => decide (m.1 = pair.1)) then none else some (members ++ [pair])))
        (some before) =
          if ((before ++ pairs).map (·.1)).Nodup then some (before ++ pairs) else none := by
    intro pairs
    induction pairs with
    | nil =>
      intro before hbe
      simp [hbe]
    | cons pair pairs ih =>
      intro before hbe
      rw [List.foldl_cons, Option.bind_some]
      by_cases he : pair.1 ∈ before.map (·.1)
      · have hn : before.any (fun m => decide (m.1 = pair.1)) = true := by
          obtain ⟨m, hm, heq⟩ := List.mem_map.mp he
          exact List.any_eq_true.mpr ⟨m, hm, decide_eq_true heq⟩
        rw [if_pos hn, ho, if_neg]
        rw [List.map_append, List.nodup_append]
        rintro ⟨-, -, hd⟩
        exact hd _ he _ (by simp) rfl
      · have hn : before.any (fun m => decide (m.1 = pair.1)) = false := by
          rw [List.any_eq_false]
          intro m hm heq
          exact he (List.mem_map.mpr ⟨m, hm, of_decide_eq_true heq⟩)
        rw [hn, if_neg (by decide), ih, List.append_assoc, List.singleton_append]
        rw [List.map_append, List.nodup_append]
        refine ⟨hbe, by simp, ?_⟩
        intro a ha b hb
        rw [List.map_cons, List.map_nil, List.mem_singleton] at hb
        subst hb
        exact fun heq => he (heq ▸ ha)
  exact hg pairs [] List.nodup_nil

theorem refines_hooks (lib : JsonLibrary) :
    JsonOf.Refines isSurrogateText NumberRel (TelemetryDelivery.hooks lib)
      (MobileDelivery.hooks lib) where
  str _ := rfl
  str' _ := rfl
  number n := by
    change TelemetryDelivery.numberOf lib n = none ∧ MobileDelivery.numberOf lib n = none ∨
      ∃ a b, TelemetryDelivery.numberOf lib n = some a ∧ MobileDelivery.numberOf lib n = some b ∧
        NumberRel a b
    cases n with
    | constant name => exact .inl ⟨rfl, rfl⟩
    | decimal literal =>
      simp only [TelemetryDelivery.numberOf, MobileDelivery.numberOf]
      cases lib.finite literal with
      | false => exact .inl ⟨rfl, rfl⟩
      | true => exact .inr ⟨_, _, rfl, rfl, trivial⟩
    | integer neg magnitude => exact number_integer lib neg magnitude
  keeps xs := by
    change TelemetryDelivery.uniqueMembers xs = none ∨ TelemetryDelivery.uniqueMembers xs = some xs
    unfold TelemetryDelivery.uniqueMembers
    rw [unique_fold]
    split_ifs
    · exact .inr rfl
    · exact .inl rfl
  pairs xs ys h := by
    change TelemetryDelivery.uniqueMembers xs = none ∧ MobileDelivery.visitMap ys = none ∨
      TelemetryDelivery.uniqueMembers xs = some xs ∧ MobileDelivery.visitMap ys = some ys
    unfold TelemetryDelivery.uniqueMembers MobileDelivery.visitMap
    rw [unique_fold, unique_fold, h.names]
    split_ifs
    · exact .inr ⟨rfl, rfl⟩
    · exact .inl ⟨rfl, rfl⟩

/-- What the two parsers make of a body, an empty one apart. -/
inductive Parsed : Option (JsonOf TelemetryDelivery.PyNumber) →
    Option (JsonOf MobileDelivery.MobileNumber) → Prop
  | none : Parsed none none
  | some {v : JsonOf TelemetryDelivery.PyNumber} {w : JsonOf MobileDelivery.MobileNumber}
      (h : JsonOf.Same NumberRel v w) : Parsed (some v) (some w)

theorem parseStrictJson_agree (lib : JsonLibrary) {body : Bytes} (hn : body.isEmpty = false) :
    Parsed (TelemetryDelivery.parseStrictJson lib body)
      (MobileDelivery.parseStrictJson lib body) := by
  unfold TelemetryDelivery.parseStrictJson MobileDelivery.parseStrictJson
  rw [hn, Bool.false_or]
  by_cases hl : body.length > maxResponseBytes
  · rw [decide_eq_true hl, Bool.true_or, if_pos rfl, if_pos rfl]
    exact .none
  rw [decide_eq_false hl, Bool.false_or, if_neg (c := false = true) (by decide)]
  cases hb : [0xEF, 0xBB, 0xBF].isPrefixOf body with
  | true =>
    rw [if_pos rfl, if_pos rfl]
    split_ifs <;> exact .none
  | false =>
    cases hd : lib.decode body with
    | none =>
      simp only [bind_none, ite_self]
      exact .none
    | some s =>
      dsimp only
      cases hg : lib.grammar s with
      | none =>
        simp only [bind_some, bind_none, ite_self, hg]
        exact .none
      | some x =>
        have hnest := @nestingExceeds_eq maxJsonDepth _ _ _ _ (lib.balanced body s x hd hg)
        rw [Nat.cast_zero] at hnest
        rw [hnest]
        by_cases hdeep : MobileDelivery.nestingExceeds maxJsonDepth body 0 false false = true
        · rw [if_pos hdeep, if_pos hdeep]
          exact .none
        rw [if_neg hdeep, if_neg hdeep]
        simp only [bind_some, hg]
        rcases (refines_hooks lib).read x with ⟨hp, hr⟩ | ⟨v, hp, ⟨hlone, hr⟩ | ⟨hlone, w, hr, hs⟩⟩
        · rw [hp, hr]
          exact .none
        · rw [hp, hr]
          simp only [hlone]
          exact .none
        · rw [hp, hr]
          simp only [hlone]
          exact .some hs

/-! ### What the answer says of the batch -/

section Answer

variable {v : JsonOf TelemetryDelivery.PyNumber} {w : JsonOf MobileDelivery.MobileNumber}
  {usizeMax batchEvents : ℕ}

theorem count_eq (h : JsonOf.Same NumberRel v w) (hm : usizeMax < 2 ^ 64)
    (hb : batchEvents ≤ usizeMax) (key : Text) :
    MobileDelivery.count usizeMax w key batchEvents =
      TelemetryDelivery.count v key batchEvents := by
  unfold MobileDelivery.count TelemetryDelivery.count
  have hf := h.get key
  generalize v.get? key = a at hf
  generalize w.get? key = b at hf
  cases hf with
  | absent => rfl
  | found hs =>
    rename_i x y
    cases x <;> cases y <;> first
      | exact hs.elim
      | rfl
      | skip
    rename_i m n
    cases m with
    | float token => cases n <;> first | exact hs.elim | rfl
    | int m =>
      cases n with
      | posInt n =>
        subst hs
        dsimp only
        by_cases hl : n ≤ batchEvents
        · rw [if_pos (hl.trans hb), if_pos hl, if_neg (by omega), Int.toNat_natCast]
        · rw [if_neg hl, ite_self, if_pos (by omega)]
      | negInt n =>
        dsimp only
        rw [if_pos (.inl hs)]
      | float token =>
        change m < 0 ∨ 2 ^ 64 ≤ m at hs
        dsimp only
        rw [if_pos (by omega)]

theorem declinedIds_agree {xs : List (JsonOf TelemetryDelivery.PyNumber)}
    {ys : List (JsonOf MobileDelivery.MobileNumber)} (h : JsonOf.SameList NumberRel xs ys)
    (ids named : List Text) (hi : ∀ id, id ∈ ids ↔ id ∈ named) (hd : ids.Nodup) :
    (TelemetryDelivery.declinedIds xs ids = none ∧ MobileDelivery.namesEvents ys named = false) ∨
      ∃ all, TelemetryDelivery.declinedIds xs ids = some all ∧
        MobileDelivery.namesEvents ys named = true ∧ all.length = ids.length + ys.length ∧
          all.Nodup := by
  induction xs generalizing ys ids named with
  | nil =>
    cases ys with
    | nil => exact .inr ⟨ids, rfl, rfl, rfl, hd⟩
    | cons y ys => exact h.elim
  | cons x xs ih =>
    cases ys with
    | nil => exact h.elim
    | cons y ys =>
      obtain ⟨hh, hr⟩ := h
      have ho := hh.isObject
      have hf := hh.get (text "event_id")
      simp only [TelemetryDelivery.declinedIds, MobileDelivery.namesEvents]
      cases hx : x.isObject with
      | false =>
        have hno : y.get? (text "event_id") = none := by
          rw [hx] at ho
          cases y <;> first | rfl | cases ho
        exact .inl ⟨by simp, by rw [hno]⟩
      | true =>
        generalize x.get? (text "event_id") = a at hf
        generalize y.get? (text "event_id") = b at hf
        cases hf with
        | absent => exact .inl ⟨rfl, rfl⟩
        | found hs =>
          rename_i c d
          cases c <;> cases d <;> first
            | exact hs.elim
            | exact .inl ⟨rfl, rfl⟩
            | skip
          rename_i s t
          subst hs
          dsimp only
          by_cases he : s = []
          · rw [if_pos he, if_pos he]
            exact .inl ⟨rfl, rfl⟩
          rw [if_neg he, if_neg he]
          by_cases hm : s ∈ ids
          · rw [if_pos hm, if_pos ((hi s).mp hm)]
            exact .inl ⟨rfl, rfl⟩
          rw [if_neg hm, if_neg (fun hin => hm ((hi s).mpr hin))]
          have hi' : ∀ id, id ∈ ids ++ [s] ↔ id ∈ s :: named := by
            intro id
            rw [mem_append, mem_singleton, mem_cons, hi id, or_comm]
          have hn' : (ids ++ [s]).Nodup := by
            rw [nodup_append]
            refine ⟨hd, by simp, ?_⟩
            rintro a ha b hb rfl
            exact hm (mem_singleton.mp hb ▸ ha)
          rcases ih hr _ _ hi' hn' with ⟨hno, hfa⟩ | ⟨all, hal, ht, hl, hn⟩
          · exact .inl ⟨hno, hfa⟩
          refine .inr ⟨all, hal, ht, ?_, hn⟩
          rw [hl, length_append, length_singleton, length_cons]
          omega

/-- The counts of the two producers, and that the declined ids are distinct. -/
inductive CountedAlike :
    Option TelemetryDelivery.Counted → Option MobileDelivery.Counted → Prop
  | none : CountedAlike none none
  | some {c : TelemetryDelivery.Counted} (h : c.declinedIds.Nodup) :
      CountedAlike (some c) (some ⟨c.accepted, c.duplicate, c.declinedIds.length, c.nonconformant⟩)

theorem counted_agree (h : JsonOf.Same NumberRel v w) (hm : usizeMax < 2 ^ 64)
    (hb : batchEvents ≤ usizeMax) :
    CountedAlike (TelemetryDelivery.counted v batchEvents)
      (MobileDelivery.counted usizeMax w batchEvents) := by
  unfold TelemetryDelivery.counted MobileDelivery.counted
  rw [count_eq h hm hb]
  cases TelemetryDelivery.count v (text "accepted_events") batchEvents with
  | none => exact .none
  | some accepted =>
    have hd : ∀ (ids : List Text) (b : Bool), ids.Nodup → CountedAlike
        ((v.get? (text "duplicate_events")).elim (some ⟨accepted, 0, ids, true⟩) fun _ =>
          (TelemetryDelivery.count v (text "duplicate_events") batchEvents).map
            fun duplicate => ⟨accepted, duplicate, ids, b⟩)
        ((w.get? (text "duplicate_events")).elim (some ⟨accepted, 0, ids.length, true⟩) fun _ =>
          (MobileDelivery.count usizeMax w (text "duplicate_events") batchEvents).map
            fun duplicate => ⟨accepted, duplicate, ids.length, b⟩) := by
      intro ids b hi
      rw [count_eq h hm hb]
      have hf := h.get (text "duplicate_events")
      generalize v.get? (text "duplicate_events") = x at hf
      generalize w.get? (text "duplicate_events") = y at hf
      cases hf with
      | absent => exact .some (c := ⟨accepted, 0, ids, true⟩) hi
      | found _ =>
        cases TelemetryDelivery.count v (text "duplicate_events") batchEvents with
        | none => exact .none
        | some duplicate => exact .some (c := ⟨accepted, duplicate, ids, b⟩) hi
    have hf := h.get (text "rejected_events")
    generalize v.get? (text "rejected_events") = x at hf
    generalize w.get? (text "rejected_events") = y at hf
    cases hf with
    | absent =>
      have hd := hd [] true nodup_nil
      revert hd
      cases v.get? (text "duplicate_events") <;> cases w.get? (text "duplicate_events") <;>
        exact id
    | found hs =>
      rename_i c d
      cases c <;> cases d <;> first
        | exact hs.elim
        | exact .none
        | skip
      dsimp only
      rcases declinedIds_agree hs [] [] (fun _ => Iff.rfl) nodup_nil with
        ⟨hno, ha⟩ | ⟨ids, ho, ht, hl, hn⟩
      · rw [hno, ha]
        exact .none
      · rw [ho, ht]
        rw [length_nil, Nat.zero_add] at hl
        simp only [← hl]
        have hd := hd ids false hn
        revert hd
        cases v.get? (text "duplicate_events") <;> cases w.get? (text "duplicate_events") <;>
          exact id

theorem saturatingAdd_twice (usizeMax a b c : ℕ) :
    MobileDelivery.saturatingAdd usizeMax (MobileDelivery.saturatingAdd usizeMax a b) c =
      min (a + b + c) usizeMax := by
  unfold MobileDelivery.saturatingAdd
  omega

end Answer

/-! ### The verdict -/

/-- The document the answer's body is read as, where it is read. -/
def decodedAnswer (lib : JsonLibrary) (fields : HeaderFields) (body : Option Bytes) :
    Option (JsonOf TelemetryDelivery.PyNumber) :=
  (if TelemetryDelivery.bodyIsWanted fields then body else none).bind (fun b =>
    if b.isEmpty then none else TelemetryDelivery.parseStrictJson lib b)

theorem decoded_agree (lib : JsonLibrary) (body : Option Bytes) : Parsed (body.bind (fun b =>
        if b.isEmpty then none else TelemetryDelivery.parseStrictJson lib b))
      (body.bind (MobileDelivery.parseStrictJson lib)) := by
  cases body with
  | none => exact .none
  | some b =>
    cases he : b.isEmpty with
    | false =>
      simp only [bind_some, he]
      exact parseStrictJson_agree lib he
    | true =>
      simp only [bind_some, he, if_true, MobileDelivery.parseStrictJson, Bool.true_or]
      exact .none

variable {a : Option (JsonOf TelemetryDelivery.PyNumber)} {contentType : Text} {usizeMax : ℕ}
  {v : JsonOf TelemetryDelivery.PyNumber} {w : JsonOf MobileDelivery.MobileNumber}
  {status : Option ℕ}

theorem isTerminalRefusal_eq {b : Option (JsonOf MobileDelivery.MobileNumber)} (h : Parsed a b)
    (status : ℕ) (hv : VisibleText contentType) (challenge : Option Text) :
    MobileDelivery.isTerminalRefusal status contentType challenge b =
      TelemetryDelivery.isTerminalRefusal status contentType challenge a := by
  have hc : (challenge.any (fun value => !value.isEmpty) = true) ↔ challenge.getD [] ≠ [] := by
    cases challenge with
    | none | some value => simp
  unfold MobileDelivery.isTerminalRefusal TelemetryDelivery.isTerminalRefusal
  simp only [hc, ← isJsonMediaType_visible hv]
  cases h with
  | none => rfl
  | some hs =>
    have hf := hs.get (text "detail")
    simp only [bind_some]
    rename_i v w
    generalize v.get? (text "detail") = x at hf
    generalize w.get? (text "detail") = y at hf
    cases hf with
    | absent => rfl
    | found hs =>
      rename_i c d
      cases c <;> cases d <;> first
        | exact hs.elim
        | rfl
        | skip
      rw [hs]

/-- An answer whose body is read: it is past the refusals of an empty batch, of no answer and of an
unreadable header section. -/
def Read (status : Option ℕ) (fields : HeaderFields) (batchEvents s : ℕ) : Prop :=
  batchEvents ≠ 0 ∧ TelemetryDelivery.readableHeaderSection fields = true ∧ status = some s ∧
    200 ≤ s ∧ s < 300

/-- A status that is a list or an object, in the body of a readable success. -/
def UnhashableStatus (lib : JsonLibrary) (status : Option ℕ) (fields : HeaderFields)
    (body : Option Bytes) (batchEvents : ℕ) : Prop :=
  ∃ s decoded, Read status fields batchEvents s ∧ decodedAnswer lib fields body = some decoded ∧
    ((∃ xs, decoded.get? (text "status") = some (.list xs)) ∨
      ∃ members, decoded.get? (text "status") = some (.object members))

/-- Counts that only a batch of the platform's largest size admits, and that add up past it. -/
def CountsOverflow (lib : JsonLibrary) (usizeMax : ℕ) (status : Option ℕ) (fields : HeaderFields)
    (body : Option Bytes) (batchEvents : ℕ) : Prop :=
  batchEvents = usizeMax ∧ ∃ s decoded name c, Read status fields batchEvents s ∧
    decodedAnswer lib fields body = some decoded ∧
    decoded.get? (text "status") = some (.str name) ∧ name ∈ batchStatuses ∧
    TelemetryDelivery.counted decoded batchEvents = some c ∧
    usizeMax < c.accepted + c.duplicate + c.declinedIds.length

/-- What a delivered and a suspending verdict rest on. -/
structure Grounded (lib : JsonLibrary) (status : Option ℕ) (fields : HeaderFields)
    (body : Option Bytes) (batchEvents : ℕ) (v : TelemetryDelivery.Verdict) : Prop where
  delivered : v.outcome = .delivered →
    v.declinedEventIds.Nodup ∧ v.declinedEvents = v.declinedEventIds.length ∧
      ∃ decoded accepted, decodedAnswer lib fields body = some decoded ∧
        TelemetryDelivery.count decoded (text "accepted_events") batchEvents = some accepted ∧
        accepted + v.duplicateEvents + v.declinedEvents = batchEvents
  suspended : v.outcome = .suspend →
    status = some terminalRefusalStatus ∧ v.refusedEvents = batchEvents ∧
      v.refusalStatus = some terminalRefusalStatus ∧
      v.refusalDetail = some terminalRefusalDetail ∧
      (TelemetryDelivery.field fields (text "www-authenticate")).getD [] = [] ∧
      TelemetryDelivery.isJsonMediaType
        ((TelemetryDelivery.field fields (text "content-type")).getD []) = true ∧
      ∃ decoded detail, decodedAnswer lib fields body = some decoded ∧
        decoded.get? (text "detail") = some (.str detail) ∧
        trimmed isDetailSpace detail = terminalRefusalDetail

theorem grounded_retain (lib : JsonLibrary) (status : Option ℕ) (fields : HeaderFields)
    (body : Option Bytes) (batchEvents : ℕ) (unreadable answered : Bool) :
    Grounded lib status fields body batchEvents (TelemetryDelivery.retain unreadable answered) :=
  ⟨nofun, nofun⟩

theorem accepted_of_counted {decoded : JsonOf TelemetryDelivery.PyNumber}
    {c : TelemetryDelivery.Counted} (h : TelemetryDelivery.counted decoded batchEvents = some c) :
    TelemetryDelivery.count decoded (text "accepted_events") batchEvents = some c.accepted := by
  unfold TelemetryDelivery.counted at h
  split at h
  · cases h
  rename_i accepted ha
  rw [ha]
  dsimp only at h
  split at h
  · cases h
  split at h
  · cases h
    rfl
  · obtain ⟨duplicate, -, rfl⟩ := map_eq_some_iff.mp h
    rfl

theorem terminal_facts {status : ℕ} {challenge : Option Text}
    (h : TelemetryDelivery.isTerminalRefusal status contentType challenge a = true) :
    status = terminalRefusalStatus ∧ challenge.getD [] = [] ∧
      TelemetryDelivery.isJsonMediaType contentType = true ∧
      ∃ decoded detail, a = some decoded ∧ decoded.get? (text "detail") = some (.str detail) ∧
        trimmed isDetailSpace detail = terminalRefusalDetail := by
  unfold TelemetryDelivery.isTerminalRefusal at h
  split_ifs at h with hs hc hm
  refine ⟨not_not.mp hs, not_not.mp hc, by simpa using hm, ?_⟩
  split at h
  · rename_i detail he
    obtain ⟨decoded, hd, hg⟩ := bind_eq_some_iff.mp he
    exact ⟨decoded, detail, hd, hg, of_decide_eq_true h⟩
  · cases h

theorem readCounts_agree (speaks : Bool) (h : JsonOf.Same NumberRel v w) (hm : usizeMax < 2 ^ 64)
    (hb : batchEvents ≤ usizeMax) :
    (TelemetryDelivery.readCounts v speaks batchEvents).toDeliveryVerdict =
        MobileDelivery.readCounts usizeMax w speaks batchEvents ↔
      ¬(batchEvents = usizeMax ∧ ∃ c, TelemetryDelivery.counted v batchEvents = some c ∧
        usizeMax < c.accepted + c.duplicate + c.declinedIds.length) := by
  unfold TelemetryDelivery.readCounts MobileDelivery.readCounts
  have hc := counted_agree h hm hb
  generalize TelemetryDelivery.counted v batchEvents = a at hc
  generalize MobileDelivery.counted usizeMax w batchEvents = b at hc
  cases hc with
  | none => exact ⟨fun _ => by simp, fun _ => rfl⟩
  | some hi =>
    rename_i c
    simp only [saturatingAdd_twice, some.injEq, exists_eq_left']
    by_cases hs : c.accepted + c.duplicate + c.declinedIds.length = batchEvents
    · rw [if_neg (not_not.mpr hs), if_neg (not_not.mpr (by omega))]
      exact ⟨fun _ => by omega, fun _ => rfl⟩
    · rw [if_pos hs]
      by_cases hover : batchEvents = usizeMax ∧
          usizeMax < c.accepted + c.duplicate + c.declinedIds.length
      · rw [if_neg (not_not.mpr (by omega))]
        refine ⟨fun heq => ?_, fun hn => absurd hover hn⟩
        cases congrArg DeliveryVerdict.outcome heq
      · rw [if_pos (by omega)]
        exact ⟨fun _ => hover, fun _ => rfl⟩

theorem grounded_readCounts {lib : JsonLibrary} {body : Option Bytes}
    (hsm : JsonOf.Same NumberRel v w) (hm : usizeMax < 2 ^ 64) (hb : batchEvents ≤ usizeMax)
    (h : decodedAnswer lib fields body = some v) (speaks : Bool) :
    Grounded lib status fields body batchEvents
      (TelemetryDelivery.readCounts v speaks batchEvents) := by
  have ho := counted_agree hsm hm hb
  unfold TelemetryDelivery.readCounts
  cases hc : TelemetryDelivery.counted v batchEvents with
  | none => exact grounded_retain lib status fields body batchEvents false speaks
  | some c =>
    rw [hc] at ho
    generalize MobileDelivery.counted usizeMax w batchEvents = b at ho
    dsimp only
    split_ifs with hs
    · exact grounded_retain lib status fields body batchEvents false speaks
    refine ⟨fun _ => ?_, nofun⟩
    cases ho with
    | some hi =>
      exact ⟨hi, rfl, v, c.accepted, h, accepted_of_counted hc, not_not.mp hs⟩

theorem readAnswer_unread (lib : JsonLibrary) (usizeMax : ℕ) (body : Option Bytes)
    (h : batchEvents = 0 ∨ TelemetryDelivery.readableHeaderSection fields = false ∨ status = none) :
    TelemetryDelivery.readAnswer lib status fields body batchEvents =
        .ok (TelemetryDelivery.retain false false) ∧
      MobileDelivery.readAnswer lib usizeMax status fields body batchEvents =
        .retained false false := by
  unfold TelemetryDelivery.readAnswer MobileDelivery.readAnswer
    TelemetryDelivery.readBatchResponse MobileDelivery.readBatchResponse
  rw [← readableHeaderSection_eq]
  rcases h with hzero | hu | hn
  · simp only [if_pos hzero, ite_self, and_self]
  · simp only [hu, Bool.not_false, Bool.or_true, if_true, ite_self, and_self]
  · simp only [hn, isNone_none, Bool.true_or, ite_self, and_self]

/-- What is promised of the two answers to a batch. -/
def Alike (lib : JsonLibrary) (status : Option ℕ) (fields : HeaderFields) (body : Option Bytes)
    (batchEvents : ℕ) (answer : Except TelemetryDelivery.PyError TelemetryDelivery.Verdict)
    (mobile : DeliveryVerdict) : Prop :=
  ∃ v, answer = .ok v ∧ v.toDeliveryVerdict = mobile ∧
    Grounded lib status fields body batchEvents v

section Decoded

variable {lib : JsonLibrary} {usizeMax s : ℕ} {fields : HeaderFields} {body : Option Bytes}
  {batchEvents : ℕ} {b : Option (JsonOf MobileDelivery.MobileNumber)}

theorem alike_retain (unreadable answered : Bool) : Alike lib (some s) fields body batchEvents
      (.ok (TelemetryDelivery.retain unreadable answered)) (.retained unreadable answered) :=
  ⟨_, rfl, rfl, grounded_retain ..⟩

theorem readStatus_alike (hma : usizeMax < 2 ^ 64) (ha : batchEvents ≤ usizeMax)
    {contentType : Text} (hv : VisibleText contentType)
    {v : JsonOf TelemetryDelivery.PyNumber} {w : JsonOf MobileDelivery.MobileNumber}
    (hs : JsonOf.Same NumberRel v w) (hd : decodedAnswer lib fields body = some v)
    (x : Option (JsonOf TelemetryDelivery.PyNumber))
    (y : Option (JsonOf MobileDelivery.MobileNumber)) : JsonOf.SameFound NumberRel x y →
    (Alike lib (some s) fields body batchEvents
        (match TelemetryDelivery.isBatchStatus x with
          | .error e => .error e
          | .ok false => .ok (TelemetryDelivery.retain false false)
          | .ok true =>
            .ok (TelemetryDelivery.readCounts v (TelemetryDelivery.isJsonMediaType contentType)
              batchEvents))
        (match y with
          | some (.str name) =>
            if name ∈ batchStatuses then
              MobileDelivery.readCounts usizeMax w (MobileDelivery.isJsonMediaType contentType)
                batchEvents
            else .retained false false
          | _ => .retained false false) ↔
      ¬((∃ xs, x = some (.list xs)) ∨ ∃ members, x = some (.object members)) ∧
        ¬(batchEvents = usizeMax ∧ ∃ name c, x = some (.str name) ∧ name ∈ batchStatuses ∧
          TelemetryDelivery.counted v batchEvents = some c ∧
          usizeMax < c.accepted + c.duplicate + c.declinedIds.length)) := by
  intro hf
  cases hf with
  | absent => exact iff_of_true (alike_retain false false) (by simp)
  | found hm =>
    rename_i c d
    cases c with
    | list xs | object members =>
      refine iff_of_false ?_ (by simp)
      rintro ⟨verdict, he, -⟩
      cases he
    | str name =>
      cases d with
      | str name' =>
        subst hm
        rw [← isJsonMediaType_visible hv]
        by_cases hnm : name ∈ batchStatuses
        · simp only [TelemetryDelivery.isBatchStatus, decide_eq_true hnm, if_pos hnm]
          have hi := readCounts_agree (TelemetryDelivery.isJsonMediaType contentType) hs hma ha
          constructor
          · rintro ⟨verdict, ho, heq, -⟩
            cases ho
            refine ⟨by simp, ?_⟩
            rintro ⟨hb, _, count, -, -, hc, hover⟩
            exact hi.mp heq ⟨hb, count, hc, hover⟩
          · rintro ⟨-, hn⟩
            refine ⟨_, rfl, hi.mpr ?_, grounded_readCounts hs hma ha hd _⟩
            rintro ⟨hb, count, hc, hover⟩
            exact hn ⟨hb, name, count, rfl, hnm, hc, hover⟩
        · simp only [TelemetryDelivery.isBatchStatus, decide_eq_false hnm, if_neg hnm]
          refine iff_of_true (alike_retain false false) ⟨by simp, ?_⟩
          rintro ⟨-, name', _, hso, hin, -⟩
          cases hso
          exact hnm hin
      | _ => exact hm.elim
    | _ =>
      cases d <;> first
        | exact hm.elim
        | exact iff_of_true (alike_retain false false) (by simp)

theorem readDecoded_success (hm : usizeMax < 2 ^ 64) (hb : batchEvents ≤ usizeMax)
    (contentType : Text) (hv : VisibleText contentType) (challenge : Option Text)
    (hr : Read (some s) fields batchEvents s)
    (hp : Parsed (decodedAnswer lib fields body) b)
    (hterm : TelemetryDelivery.isTerminalRefusal s contentType challenge
      (decodedAnswer lib fields body) = false) :
    Alike lib (some s) fields body batchEvents
        (TelemetryDelivery.readDecoded s contentType challenge (decodedAnswer lib fields body)
          batchEvents)
        (MobileDelivery.readDecoded usizeMax s contentType challenge b batchEvents) ↔
      ¬UnhashableStatus lib (some s) fields body batchEvents ∧
        ¬CountsOverflow lib usizeMax (some s) fields body batchEvents := by
  have hrs := isTerminalRefusal_eq hp s hv challenge
  unfold TelemetryDelivery.readDecoded MobileDelivery.readDecoded
  simp only [hterm, hrs, Bool.false_eq_true, if_false, if_neg (not_not.mpr hr.2.2.2)]
  cases hd : decodedAnswer lib fields body with
  | none =>
    rw [hd] at hp
    cases hp
    refine iff_of_true (alike_retain true false) ⟨?_, ?_⟩
    · rintro ⟨_, decoded, -, ho, -⟩
      rw [hd] at ho
      cases ho
    · rintro ⟨-, _, decoded, _, _, -, ho, -⟩
      rw [hd] at ho
      cases ho
  | some v =>
    rw [hd] at hp
    obtain ⟨w, rfl, hsm⟩ : ∃ w, b = some w ∧ JsonOf.Same NumberRel v w := by
      cases hp with
      | some h => exact ⟨_, rfl, h⟩
    have hs : ∀ decoded, decodedAnswer lib fields body = some decoded → decoded = v :=
      fun decoded h => mem_unique h hd
    have hhash : UnhashableStatus lib (some s) fields body batchEvents ↔
        (∃ xs, v.get? (text "status") = some (.list xs)) ∨
          ∃ members, v.get? (text "status") = some (.object members) :=
      ⟨fun ⟨_, decoded, _, ho, h⟩ => hs decoded ho ▸ h, fun h => ⟨s, v, hr, hd, h⟩⟩
    have hover : CountsOverflow lib usizeMax (some s) fields body batchEvents ↔
        batchEvents = usizeMax ∧ ∃ name c, v.get? (text "status") = some (.str name) ∧
          name ∈ batchStatuses ∧ TelemetryDelivery.counted v batchEvents = some c ∧
          usizeMax < c.accepted + c.duplicate + c.declinedIds.length :=
      ⟨fun ⟨heq, _, decoded, name, c, _, ho, h⟩ => ⟨heq, name, c, hs decoded ho ▸ h⟩,
        fun ⟨heq, name, c, h⟩ => ⟨heq, s, v, name, c, hr, hd, h⟩⟩
    rw [hhash, hover]
    have hf := hsm.get (text "status")
    cases v with
    | object members =>
      cases w with
      | object members' => exact readStatus_alike hm hb hv hsm hd _ _ hf
      | _ => exact hsm.elim
    | _ =>
      cases w with
      | object members' => exact hsm.elim
      | _ => exact iff_of_true (alike_retain true false) (by simp [JsonOf.get?])

end Decoded

/-- The producers reach one verdict, and a grounded one, exactly where the status has a hash and the
counts do not add up past the platform's largest size. -/
theorem verdicts_alike_iff (lib : JsonLibrary) {usizeMax : ℕ} (hmax : usizeMax < 2 ^ 64)
    (status : Option ℕ) {fields : HeaderFields} (hlengths : ContentLengths fields)
    (body : Option Bytes) {batchEvents : ℕ} (hbatch : batchEvents ≤ usizeMax) :
    Alike lib status fields body batchEvents
        (TelemetryDelivery.readAnswer lib status fields body batchEvents)
        (MobileDelivery.readAnswer lib usizeMax status fields body batchEvents) ↔
      ¬UnhashableStatus lib status fields body batchEvents ∧
        ¬CountsOverflow lib usizeMax status fields body batchEvents := by
  by_cases hunread : batchEvents = 0 ∨ TelemetryDelivery.readableHeaderSection fields = false ∨
      status = none
  · obtain ⟨hpy, hrs⟩ := readAnswer_unread lib usizeMax body hunread
    have hnot : ∀ s, ¬Read status fields batchEvents s := by
      rintro s ⟨hne, hreadable, hstatus, -⟩
      rcases hunread with hzero | hunreadable | hnone
      · exact hne hzero
      · rw [hunreadable] at hreadable
        cases hreadable
      · rw [hnone] at hstatus
        cases hstatus
    rw [hpy, hrs]
    refine iff_of_true ⟨_, rfl, rfl, grounded_retain ..⟩ ⟨?_, ?_⟩
    · rintro ⟨s, decoded, hread, -⟩
      exact hnot s hread
    · rintro ⟨-, s, decoded, name, c, hread, -⟩
      exact hnot s hread
  have hne : batchEvents ≠ 0 := fun h => hunread (.inl h)
  have hreadable : TelemetryDelivery.readableHeaderSection fields = true := by
    by_contra h
    exact hunread (.inr (.inl (by simpa using h)))
  obtain ⟨s, rfl⟩ : ∃ s, status = some s :=
    ne_none_iff_exists'.mp (fun h => hunread (.inr (.inr h)))
  have htype : text "content-type" ∈ verdictFields := by simp [verdictFields]
  have hvisible : VisibleText ((TelemetryDelivery.field fields (text "content-type")).getD []) := by
    cases hfield : TelemetryDelivery.field fields (text "content-type") with
    | none => exact fun c hc => absurd hc (by simp)
    | some t => exact field_visible hreadable htype hfield
  have hparsed := decoded_agree lib (if TelemetryDelivery.bodyIsWanted fields then body else none)
  have hrs : MobileDelivery.readAnswer lib usizeMax (some s) fields body batchEvents =
      MobileDelivery.readDecoded usizeMax s
        ((TelemetryDelivery.field fields (text "content-type")).getD [])
        (TelemetryDelivery.field fields (text "www-authenticate"))
        ((if TelemetryDelivery.bodyIsWanted fields then body else none).bind
          (MobileDelivery.parseStrictJson lib)) batchEvents := by
    unfold MobileDelivery.readAnswer MobileDelivery.readBatchResponse
    rw [← readableHeaderSection_eq, hreadable, field_eq lib hreadable htype,
      field_eq lib hreadable (by simp [verdictFields]), bodyIsWanted_eq lib hreadable hlengths]
    simp [hne]
  have hpy : TelemetryDelivery.readAnswer lib (some s) fields body batchEvents =
      TelemetryDelivery.readDecoded s
        ((TelemetryDelivery.field fields (text "content-type")).getD [])
        (TelemetryDelivery.field fields (text "www-authenticate"))
        (decodedAnswer lib fields body) batchEvents := by
    unfold TelemetryDelivery.readAnswer TelemetryDelivery.readBatchResponse
    rw [hreadable]
    simp only [isNone_some, Bool.not_true, Bool.or_self, Bool.false_eq_true, if_false, if_neg hne]
    rfl
  have hsame : ∀ s', Read (some s) fields batchEvents s' → s' = s :=
    fun s' h => (some.inj h.2.2.1).symm
  rw [hpy, hrs]
  cases hterm : TelemetryDelivery.isTerminalRefusal s
      ((TelemetryDelivery.field fields (text "content-type")).getD [])
      (TelemetryDelivery.field fields (text "www-authenticate"))
      (decodedAnswer lib fields body) with
  | true =>
    obtain ⟨hstatus, hchallenge, hmedia, hdetail⟩ := terminal_facts hterm
    have hmobile := isTerminalRefusal_eq hparsed s hvisible
      (TelemetryDelivery.field fields (text "www-authenticate"))
    change _ = TelemetryDelivery.isTerminalRefusal s _ _ (decodedAnswer lib fields body)
      at hmobile
    rw [hterm] at hmobile
    have hnot : ∀ s', ¬Read (some s) fields batchEvents s' := by
      intro s' hread
      have := hsame s' hread
      have := hread.2.2.2
      unfold terminalRefusalStatus at hstatus
      omega
    unfold TelemetryDelivery.readDecoded MobileDelivery.readDecoded
    rw [hterm, hmobile]
    refine iff_of_true ⟨_, rfl, rfl, nofun, fun _ => ?_⟩ ⟨?_, ?_⟩
    · exact ⟨congrArg some hstatus, rfl, congrArg some hstatus, rfl, hchallenge, hmedia, hdetail⟩
    · rintro ⟨s', decoded, hread, -⟩
      exact hnot s' hread
    · rintro ⟨-, s', decoded, name, c, hread, -⟩
      exact hnot s' hread
  | false =>
    by_cases hsuccess : 200 ≤ s ∧ s < 300
    · exact readDecoded_success hmax hbatch _ hvisible _
        ⟨hne, hreadable, rfl, hsuccess⟩ hparsed hterm
    · have hmobile := isTerminalRefusal_eq hparsed s hvisible
        (TelemetryDelivery.field fields (text "www-authenticate"))
      change _ = TelemetryDelivery.isTerminalRefusal s _ _ (decodedAnswer lib fields body)
        at hmobile
      rw [hterm] at hmobile
      have hnot : ∀ s', ¬Read (some s) fields batchEvents s' := by
        intro s' hread
        have := hsame s' hread
        have := hread.2.2.2
        omega
      unfold TelemetryDelivery.readDecoded MobileDelivery.readDecoded
      rw [hterm, hmobile]
      simp only [if_pos hsuccess]
      refine iff_of_true (alike_retain false false) ⟨?_, ?_⟩
      · rintro ⟨s', decoded, hread, -⟩
        exact hnot s' hread
      · rintro ⟨-, s', decoded, name, c, hread, -⟩
        exact hnot s' hread

section Bench

def asciiBytes (s : String) : Bytes := s.toList.map (fun c => UInt8.ofNat c.toNat)

def listStatus : Bytes := asciiBytes "\x7b\"status\": []\x7d"

def oneDuplicate : Bytes :=
  asciiBytes
    "\x7b\"status\": \"accepted\", \"accepted_events\": 1, \"duplicate_events\": 1\x7d"

/-- The documents of the two bodies. -/
def benchTexts : List (Bytes × JsonText) :=
  [(listStatus, .object [(text "status", .list [])]),
    (oneDuplicate,
      .object [(text "status", .str (text "accepted")),
        (text "accepted_events", .number (.integer false 1)),
        (text "duplicate_events", .number (.integer false 1))])]

def benchLibrary : JsonLibrary where
  decode body :=
    if benchTexts.any (fun e => decide (e.1 = body)) then some (TelemetryDelivery.latin1 body)
    else none
  grammar s :=
    (benchTexts.find? (fun e => decide (TelemetryDelivery.latin1 e.1 = s))).map (·.2)
  finite _ := true
  lossy bytes := TelemetryDelivery.latin1 bytes
  balanced body s x hdecode _ := by
    have hall : benchTexts.all (fun e => !closesUnopened e.1 0 false false) = true := by
      decide +kernel
    split_ifs at hdecode with hany
    obtain ⟨e, he, heq⟩ := List.any_eq_true.mp hany
    have := List.all_eq_true.mp hall e he
    rw [of_decide_eq_true heq] at this
    simpa using this
  lossyAscii _ _ := rfl

theorem list_status_raises :
    TelemetryDelivery.readAnswer benchLibrary (some 200) [] (some listStatus) 1 =
        .error .typeError ∧
      MobileDelivery.readAnswer benchLibrary (2 ^ 64 - 1) (some 200) [] (some listStatus) 1 =
        .retained false false := by
  constructor <;> decide +kernel

def jsonAnswer : HeaderFields :=
  [(asciiBytes "Content-Type", asciiBytes "application/json; charset=utf-8"),
    (asciiBytes "Content-Length", asciiBytes "66")]

theorem verdicts_alike_duplicate : (Alike benchLibrary (some 200) jsonAnswer (some oneDuplicate) 2
        (TelemetryDelivery.readAnswer benchLibrary (some 200) jsonAnswer (some oneDuplicate) 2)
        (MobileDelivery.readAnswer benchLibrary (2 ^ 32 - 1) (some 200) jsonAnswer
          (some oneDuplicate) 2) ↔
      ¬UnhashableStatus benchLibrary (some 200) jsonAnswer (some oneDuplicate) 2 ∧
        ¬CountsOverflow benchLibrary (2 ^ 32 - 1) (some 200) jsonAnswer (some oneDuplicate) 2) ∧
      MobileDelivery.readAnswer benchLibrary (2 ^ 32 - 1) (some 200) jsonAnswer
          (some oneDuplicate) 2 =
        { outcome := .delivered, duplicateEvents := 1, nonconformantBody := true,
          receiverAnswered := true } := by
  have hlengths : ContentLengths jsonAnswer := by
    unfold ContentLengths
    decide +kernel
  exact ⟨verdicts_alike_iff benchLibrary (by norm_num) (some 200) hlengths (some oneDuplicate)
    (by norm_num), by decide +kernel⟩

end Bench

end OriRuntime
