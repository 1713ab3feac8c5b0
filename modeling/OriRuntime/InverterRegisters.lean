import OriRuntime.Execution
import Mathlib.Data.Nat.Bitwise
import Mathlib.Data.Nat.Size

/-!
# Inverter register decoding

`_parse_metric` and `decode_raw_registers` of `ori/hal/inverter_profiles/__init__.py`. The fields of
a metric are taken as the host language converted them, or as the error of the conversion. The sign
bit is the top bit of the words, or of the mask where there is one.
-/

namespace OriRuntime

open Execution (bind_eq_ok_iff)

namespace InverterProfiles

inductive InverterProfileError
  | metric (profileName name reason : String)
  | payload (reason : String)
  deriving DecidableEq, Repr

def validValueTypes : List String := ["numeric", "enum", "string"]

def validWordOrders : List String := ["big", "little"]

structure MetricFields (F : Type) where
  register : ℤ
  count : ℤ := 1
  scale : F
  unit : String
  signed : Bool := false
  offset : F
  wordOrder : String := "big"
  valueType : String := "numeric"
  mask : Option ℤ := none
  lookup : List (ℤ × String) := []

structure MetricSpec (F : Type) where
  register : ℕ
  count : ℕ
  scale : F
  unit : String
  signed : Bool
  offset : F
  mask : Option ℕ
  wordOrder : String
  valueType : String
  lookup : List (ℤ × String)

def requires (ok : Bool) (e : InverterProfileError) : Except InverterProfileError Unit :=
  if ok then .ok () else .error e

def parseMetric {F : Type} [DecidableEq F] [One F] [Zero F] (name : String)
    (data : Option (Except String (MetricFields F))) (profileName : String) :
    Except InverterProfileError (MetricSpec F) :=
  let refusal reason := InverterProfileError.metric profileName name reason
  match data with
  | none => .error (refusal "must be a mapping")
  | some (.error exc) => .error (refusal ("invalid spec (" ++ exc ++ ")"))
  | some (.ok d) => do
    let string := d.valueType = "string"
    let maxCount := if string then 32 else 4
    requires (0 ≤ d.register) (refusal "register must be >= 0")
    requires (1 ≤ d.count ∧ d.count ≤ maxCount)
      (refusal ("count must be 1.." ++ toString maxCount))
    requires (d.unit ≠ "") (refusal "unit is required")
    requires (d.valueType ∈ validValueTypes)
      (refusal "value_type must be one of ['enum', 'numeric', 'string']")
    requires (d.wordOrder ∈ validWordOrders)
      (refusal "word_order must be one of ['big', 'little']")
    requires (d.mask.all (0 ≤ ·)) (refusal "mask must be >= 0")
    requires (d.valueType = "numeric" → d.lookup = [])
      (refusal "numeric metrics cannot declare lookup")
    requires (d.valueType = "enum" → d.lookup ≠ []) (refusal "enum metrics require lookup")
    requires (string → d.lookup = []) (refusal "string metrics cannot declare lookup")
    requires (string → d.signed = false) (refusal "string metrics cannot be signed")
    requires (string → d.mask = none) (refusal "string metrics cannot declare mask")
    requires (string → d.scale = 1 ∧ d.offset = 0)
      (refusal "string metrics cannot scale or offset")
    return {
      register := d.register.toNat, count := d.count.toNat, scale := d.scale, unit := d.unit,
      signed := d.signed, offset := d.offset, mask := d.mask.map Int.toNat,
      wordOrder := d.wordOrder, valueType := d.valueType, lookup := d.lookup }

/-- The words of the registers, joined in their order. -/
def concatenate (ordered : List ℕ) : ℕ :=
  ordered.foldl (fun value register => value <<< 16 ||| register) 0

def widthBits (words : ℕ) : Option ℕ → ℕ
  | none => 16 * words
  | some mask => max 1 mask.size

def masked (value : ℕ) : Option ℕ → ℕ
  | none => value
  | some mask => value &&& mask

def inOrder (wordOrder : String) (regs : List ℕ) : List ℕ :=
  if wordOrder = "big" then regs else regs.reverse

def decodeRawRegisters (registers : List ℤ) (signed : Bool) (wordOrder : String)
    (mask : Option ℕ) : Except InverterProfileError ℤ :=
  let regs := registers.map (fun register => (register % 65536).toNat)
  if regs = [] then .error (.payload "empty register payload")
  else if wordOrder ∉ validWordOrders then .error (.payload ("unsupported word_order '" ++
    wordOrder ++ "'; expected ['big', 'little']"))
  else
    let value := masked (concatenate (inOrder wordOrder regs)) mask
    let width := widthBits regs.length mask
    if signed && decide (2 ^ (width - 1) ≤ value) then .ok (value - 2 ^ width) else .ok value

/-! ### Two's complement -/

/-- The integers of `w` bits. -/
def InRange (signed : Bool) (w : ℕ) (n : ℤ) : Prop :=
  if signed then -2 ^ (w - 1) ≤ n ∧ n < 2 ^ (w - 1) else 0 ≤ n ∧ n < 2 ^ w

instance (signed : Bool) (w : ℕ) (n : ℤ) : Decidable (InRange signed w n) :=
  inferInstanceAs (Decidable (if signed then -2 ^ (w - 1) ≤ n ∧ n < 2 ^ (w - 1) else _))

variable {signed : Bool} {w : ℕ} {n u : ℤ}

theorem two_pow_pred (hw : 1 ≤ w) : (2 : ℤ) ^ w = 2 * 2 ^ (w - 1) := by
  rw [← pow_succ', Nat.sub_add_cancel hw]

theorem InRange.eq_of_modEq (hw : 1 ≤ w) (hu : InRange signed w u) (hn : InRange signed w n)
    (h : u ≡ n [ZMOD 2 ^ w]) : u = n := by
  have hd : (2 : ℤ) ^ w ∣ n - u := h.dvd
  have h2 := two_pow_pred hw
  have hlt : |n - u| < 2 ^ w := by
    rw [abs_lt]
    cases signed with
    | false =>
      simp only [InRange, Bool.false_eq_true, if_false] at hu hn
      omega
    | true =>
      simp only [InRange, if_true] at hu hn
      omega
  have := Int.eq_zero_of_abs_lt_dvd hd hlt
  omega

/-- The value the sign rule gives. -/
def signRead (signed : Bool) (w value : ℕ) : ℤ :=
  if signed && decide (2 ^ (w - 1) ≤ value) then value - 2 ^ w else value

theorem signRead_modEq (value : ℕ) : signRead signed w value ≡ value [ZMOD 2 ^ w] := by
  unfold signRead
  split
  · exact (Int.modEq_iff_dvd.mpr ⟨1, by ring⟩)
  · rfl

theorem signRead_inRange (hw : 1 ≤ w) {value : ℕ} (h : value < 2 ^ w) :
    InRange signed w (signRead signed w value) := by
  have h2 := two_pow_pred hw
  have hv : (value : ℤ) < 2 ^ w := by exact_mod_cast h
  unfold signRead InRange
  cases signed with
  | false => simpa using hv
  | true =>
    by_cases hle : 2 ^ (w - 1) ≤ value
    · have : (2 : ℤ) ^ (w - 1) ≤ value := by exact_mod_cast hle
      simp only [hle, decide_true, Bool.and_self, if_true]
      omega
    · have : (value : ℤ) < 2 ^ (w - 1) := by exact_mod_cast not_le.mp hle
      have hp : (0 : ℤ) < 2 ^ (w - 1) := by positivity
      simp only [hle, decide_false, Bool.and_false, Bool.false_eq_true, if_false, if_true]
      omega

/-! ### Words -/

/-- The lowest `k` words of `m`, the highest first. -/
def wordsOf : ℕ → ℕ → List ℕ
  | 0, _ => []
  | k + 1, m => wordsOf k (m / 65536) ++ [m % 65536]

theorem length_wordsOf (k m : ℕ) : (wordsOf k m).length = k := by
  induction k generalizing m with
  | zero => rfl
  | succ k ih => simp [wordsOf, ih]

theorem lt_of_mem_wordsOf {k m r : ℕ} (h : r ∈ wordsOf k m) : r < 65536 := by
  induction k generalizing m with
  | zero => cases h
  | succ k ih =>
    rcases List.mem_append.mp h with h | h
    · exact ih h
    · rw [List.mem_singleton.mp h]
      omega

theorem shift_or {a b : ℕ} (hb : b < 65536) : a <<< 16 ||| b = a * 65536 + b := by
  rw [← Nat.shiftLeft_add_eq_or_of_lt (by simpa using hb), Nat.shiftLeft_eq]

theorem two_pow_words (k : ℕ) : 2 ^ (16 * (k + 1)) = 2 ^ (16 * k) * 65536 := by
  rw [Nat.mul_add_one, Nat.pow_add]

theorem concatenate_append (l : List ℕ) {r : ℕ} (hr : r < 65536) :
    concatenate (l ++ [r]) = concatenate l * 65536 + r := by
  rw [concatenate, List.foldl_append]
  exact shift_or hr

theorem concatenate_lt (l : List ℕ) (h : ∀ r ∈ l, r < 65536) :
    concatenate l < 2 ^ (16 * l.length) := by
  induction l using List.reverseRecOn with
  | nil => decide
  | append_singleton l r ih =>
    have hr := h r (by simp)
    have hl := ih fun x hx => h x (by simp [hx])
    rw [concatenate_append l hr, List.length_append, List.length_singleton, two_pow_words]
    omega

theorem concatenate_wordsOf (k m : ℕ) : concatenate (wordsOf k m) = m % 2 ^ (16 * k) := by
  induction k generalizing m with
  | zero => simp [wordsOf, concatenate, Nat.mod_one]
  | succ k ih =>
    rw [wordsOf, concatenate_append _ (Nat.mod_lt _ (by decide)), ih, two_pow_words,
      Nat.mul_comm (2 ^ (16 * k)), Nat.mod_mul]
    omega

/-! ### An accepted metric -/

namespace MetricSpec

variable {F : Type} (spec : MetricSpec F)

def width : ℕ := widthBits spec.count spec.mask

/-- What `decode_metric_value` decodes. -/
def decode (registers : List ℤ) : Except InverterProfileError ℤ :=
  decodeRawRegisters (registers.take spec.count) spec.signed spec.wordOrder spec.mask

/-- The first words of the registers, joined and masked. -/
def value (registers : List ℤ) : ℕ :=
  masked (concatenate (inOrder spec.wordOrder
    ((registers.take spec.count).map (fun register => (register % 65536).toNat)))) spec.mask

def residue (n : ℤ) : ℕ := (n % 2 ^ spec.width).toNat

/-- The registers that hold an integer. -/
def write (n : ℤ) : List ℤ :=
  (inOrder spec.wordOrder (wordsOf spec.count (spec.residue n))).map (↑)

/-- The words and the mask keep every bit of the integer. -/
def Keeps (n : ℤ) : Prop :=
  masked (spec.residue n % 2 ^ (16 * spec.count)) spec.mask = spec.residue n

/-- The mask is a low part of the words. -/
def Whole : Prop :=
  ∀ mask ∈ spec.mask, ∃ k, 1 ≤ k ∧ k ≤ 16 * spec.count ∧ mask = 2 ^ k - 1

end MetricSpec

section Accepted

variable {F : Type} {spec : MetricSpec F} {name profileName : String}
  {data : Option (Except String (MetricFields F))}

theorem requires_ok {ok : Bool} {e : InverterProfileError} {r : Unit}
    (h : requires ok e = .ok r) : ok = true := by
  unfold requires at h
  split at h
  · assumption
  · cases h

theorem parseMetric_spec [DecidableEq F] [One F] [Zero F]
    (h : parseMetric name data profileName = .ok spec) :
    1 ≤ spec.count ∧ spec.wordOrder ∈ validWordOrders := by
  cases data with
  | none => cases h
  | some read =>
    cases read with
    | error exc => cases h
    | ok d =>
      obtain ⟨-, -, h⟩ := bind_eq_ok_iff.mp h
      obtain ⟨_, hcount, h⟩ := bind_eq_ok_iff.mp h
      obtain ⟨-, -, h⟩ := bind_eq_ok_iff.mp h
      obtain ⟨-, -, h⟩ := bind_eq_ok_iff.mp h
      obtain ⟨_, horder, h⟩ := bind_eq_ok_iff.mp h
      obtain ⟨-, -, h⟩ := bind_eq_ok_iff.mp h
      obtain ⟨-, -, h⟩ := bind_eq_ok_iff.mp h
      obtain ⟨-, -, h⟩ := bind_eq_ok_iff.mp h
      obtain ⟨-, -, h⟩ := bind_eq_ok_iff.mp h
      obtain ⟨-, -, h⟩ := bind_eq_ok_iff.mp h
      obtain ⟨-, -, h⟩ := bind_eq_ok_iff.mp h
      obtain ⟨-, -, h⟩ := bind_eq_ok_iff.mp h
      cases h
      have hc := of_decide_eq_true (requires_ok hcount)
      exact ⟨by simp only; omega, of_decide_eq_true (requires_ok horder)⟩

theorem inOrder_perm (wordOrder : String) (regs : List ℕ) : (inOrder wordOrder regs).Perm regs := by
  unfold inOrder
  split
  · rfl
  · exact List.reverse_perm regs

theorem inOrder_inOrder (wordOrder : String) (regs : List ℕ) :
    inOrder wordOrder (inOrder wordOrder regs) = regs := by
  unfold inOrder
  split
  · rfl
  · exact List.reverse_reverse regs

theorem masked_lt {words value : ℕ} (h : value < 2 ^ (16 * words)) (mask : Option ℕ) :
    masked value mask < 2 ^ widthBits words mask := by
  cases mask with
  | none => exact h
  | some mask =>
    have hm : value &&& mask ≤ mask := Nat.and_le_right
    have hs : mask < 2 ^ mask.size := Nat.lt_size_self mask
    have hw : 2 ^ mask.size ≤ 2 ^ max 1 mask.size :=
      Nat.pow_le_pow_right (by decide) (le_max_right _ _)
    exact lt_of_le_of_lt hm (hs.trans_le hw)

theorem width_pos (h : 1 ≤ spec.count) : 1 ≤ spec.width := by
  unfold MetricSpec.width widthBits
  split <;> omega

theorem decode_eq (hc : 1 ≤ spec.count) (ho : spec.wordOrder ∈ validWordOrders)
    {registers : List ℤ} (hl : spec.count ≤ registers.length) :
    spec.decode registers = .ok (signRead spec.signed spec.width (spec.value registers)) ∧
      spec.value registers < 2 ^ spec.width := by
  have hlen : ((registers.take spec.count).map fun r => (r % 65536).toNat).length = spec.count := by
    simp [hl]
  refine ⟨?_, masked_lt ?_ _⟩
  · have hne : (registers.take spec.count).map (fun r => (r % 65536).toNat) ≠ [] := by
      intro h
      rw [h] at hlen
      exact absurd hlen (by simp; omega)
    simp only [MetricSpec.decode, decodeRawRegisters, hne, ho, not_true, if_false, hlen, signRead,
      MetricSpec.value, MetricSpec.width]
    exact (apply_ite Except.ok _ _ _).symm
  · have hlt := concatenate_lt (inOrder spec.wordOrder
      ((registers.take spec.count).map fun r => (r % 65536).toNat)) fun r hr => by
        obtain ⟨x, -, rfl⟩ := List.mem_map.mp ((inOrder_perm _ _).mem_iff.mp hr)
        omega
    rwa [(inOrder_perm _ _).length_eq, hlen] at hlt

theorem value_write (n : ℤ) (rest : List ℤ) : spec.value (spec.write n ++ rest) =
    masked (spec.residue n % 2 ^ (16 * spec.count)) spec.mask := by
  have hlen : (spec.write n).length = spec.count := by
    rw [MetricSpec.write, List.length_map, (inOrder_perm _ _).length_eq, length_wordsOf]
  have hmod : (spec.write n).map (fun r => (r % 65536).toNat) =
      inOrder spec.wordOrder (wordsOf spec.count (spec.residue n)) := by
    rw [MetricSpec.write, List.map_map]
    refine (List.map_congr_left fun r hr => ?_).trans (List.map_id _)
    have := lt_of_mem_wordsOf ((inOrder_perm _ _).mem_iff.mp hr)
    simp only [Function.comp_apply, id_eq]
    omega
  rw [MetricSpec.value, List.take_left' hlen, hmod, inOrder_inOrder, concatenate_wordsOf]

theorem residue_modEq (n : ℤ) : (spec.residue n : ℤ) ≡ n [ZMOD 2 ^ spec.width] := by
  rw [MetricSpec.residue, Int.toNat_of_nonneg (Int.emod_nonneg _ (by positivity))]
  exact Int.mod_modEq _ _

theorem residue_lt (n : ℤ) : spec.residue n < 2 ^ spec.width := by
  have := Int.emod_lt_of_pos n (show (0 : ℤ) < 2 ^ spec.width by positivity)
  rw [MetricSpec.residue, Int.toNat_lt' (by positivity)]
  exact_mod_cast this

theorem keeps_of_whole (hw : spec.Whole) (n : ℤ) : spec.Keeps n := by
  have hn : spec.residue n < 2 ^ spec.width := residue_lt n
  unfold MetricSpec.Keeps
  unfold MetricSpec.width at hn
  cases hm : spec.mask with
  | none =>
    rw [hm] at hn
    exact Nat.mod_eq_of_lt hn
  | some mask =>
    obtain ⟨k, hk, hle, rfl⟩ := hw mask hm
    have hpos : 2 ^ k = 2 * 2 ^ (k - 1) := by rw [← pow_succ', Nat.sub_add_cancel hk]
    have hsize : (2 ^ k - 1).size = k := by
      refine le_antisymm (Nat.size_le.mpr (Nat.sub_lt (Nat.two_pow_pos k) one_pos)) ?_
      have hp := Nat.two_pow_pos (k - 1)
      have := Nat.lt_size.mpr (show 2 ^ (k - 1) ≤ 2 ^ k - 1 by omega)
      omega
    rw [hm, widthBits, hsize, max_eq_right hk] at hn
    rw [masked, Nat.mod_eq_of_lt (hn.trans_le (Nat.pow_le_pow_right (by decide) hle)),
      Nat.and_two_pow_sub_one_eq_mod, Nat.mod_eq_of_lt hn]

/-- Every accepted metric decodes to the one integer of its width that its masked words are
congruent to. What is written comes back exactly where the words and the mask keep all its bits, so
always without a mask and under one that is a low part of the words. -/
theorem register_decoding [DecidableEq F] [One F] [Zero F]
    (h : parseMetric name data profileName = .ok spec) :
    (∀ registers : List ℤ, spec.count ≤ registers.length → ∃ v, spec.decode registers = .ok v ∧
      InRange spec.signed spec.width v ∧ v ≡ spec.value registers [ZMOD 2 ^ spec.width] ∧
      ∀ u, InRange spec.signed spec.width u → u ≡ spec.value registers [ZMOD 2 ^ spec.width] →
        u = v) ∧
    ∀ n, InRange spec.signed spec.width n → ∀ rest,
      (spec.decode (spec.write n ++ rest) = .ok n ↔ spec.Keeps n) ∧
      (spec.Whole → spec.decode (spec.write n ++ rest) = .ok n) := by
  obtain ⟨hc, ho⟩ := parseMetric_spec h
  have hw := width_pos hc
  refine ⟨fun registers hl => ?_, fun n hn rest => ?_⟩
  · obtain ⟨hd, hlt⟩ := decode_eq hc ho hl
    have hr : InRange spec.signed spec.width _ := signRead_inRange hw hlt
    exact ⟨_, hd, hr, signRead_modEq _, fun u hu hmod =>
      hu.eq_of_modEq hw hr (hmod.trans (signRead_modEq _).symm)⟩
  · have hl : spec.count ≤ (spec.write n ++ rest).length := by
      rw [List.length_append, MetricSpec.write, List.length_map, (inOrder_perm _ _).length_eq,
        length_wordsOf]
      exact Nat.le_add_right _ _
    obtain ⟨hd, hlt⟩ := decode_eq hc ho hl
    rw [value_write] at hd hlt
    have hiff : spec.decode (spec.write n ++ rest) = .ok n ↔ spec.Keeps n := by
      rw [hd, Except.ok.injEq]
      constructor
      · intro he
        have hmod := (@signRead_modEq spec.signed spec.width
          (masked (spec.residue n % 2 ^ (16 * spec.count)) spec.mask)).symm
        rw [he] at hmod
        have := Int.natCast_modEq_iff.mp (by exact_mod_cast hmod.trans (residue_modEq n).symm)
        exact Nat.ModEq.eq_of_lt_of_lt this hlt (residue_lt n)
      · intro hk
        refine InRange.eq_of_modEq hw (signRead_inRange hw hlt) hn ((signRead_modEq _).trans ?_)
        rw [hk]
        exact residue_modEq n
    exact ⟨hiff, fun hwhole => hiff.mpr (keeps_of_whole hwhole n)⟩

end Accepted

/-- A signed metric of two words, the low one first. -/
def benchMetric : MetricFields ℤ where
  register := 10
  count := 2
  scale := 1
  unit := "W"
  signed := true
  offset := 0
  wordOrder := "little"

theorem register_decoding_pair : ∃ spec : MetricSpec ℤ,
    parseMetric "power" (some (.ok benchMetric)) "inverter" = .ok spec ∧
      spec.decode [-5, -1] = .ok (-5) ∧
      spec.decode (spec.write (-70000) ++ [7]) = .ok (-70000) := by
  have hparse : parseMetric "power" (some (.ok benchMetric)) "inverter" = .ok _ := rfl
  exact ⟨_, hparse, by decide, ((register_decoding hparse).2 (-70000) (by decide) [7]).2 nofun⟩

/-- A mask with a hole loses what is written there. -/
theorem masked_write_lost : ¬ ∀ (fields : MetricFields ℤ) (spec : MetricSpec ℤ) (n : ℤ),
    parseMetric "power" (some (.ok fields)) "inverter" = .ok spec →
      InRange spec.signed spec.width n → spec.decode (spec.write n) = .ok n :=
  fun h => absurd (h { benchMetric with mask := some 5 } _ (-2) rfl (by decide)) (by decide)

end InverterProfiles

end OriRuntime
