import Mathlib.Tactic

/-!
# JSON values and their text

The values Python's `json` module reads and writes, and the compact text `json.dumps` gives them
with `sort_keys`, `ensure_ascii=False` and the separators `,` and `:`. A string is a list of code
points, so a surrogate can stand alone in one; a finite float is named by its shortest decimal.
-/

namespace OriRuntime

abbrev CodePoint := Fin 0x110000

abbrev Text := List CodePoint

instance neZero_codePoints : NeZero 0x110000 := ⟨by decide⟩

instance lawfulBEq_codePoint : LawfulBEq CodePoint := inferInstance

instance lawfulBEq_text : LawfulBEq Text := inferInstance

instance lawfulBEq_optionText : LawfulBEq (Option Text) := inferInstance

def codePoint (c : Char) : CodePoint :=
  ⟨c.toNat, by
    have h : c.toNat < 0xD800 ∨ 0xDFFF < c.toNat ∧ c.toNat < 0x110000 := c.valid
    omega⟩

def text (s : String) : Text := s.toList.map codePoint

theorem text_injective {s t : String} (h : text s = text t) : s = t := by
  have hcode : Function.Injective codePoint := by
    intro c d hc
    exact Char.toNat_inj.mp (Fin.mk.inj hc)
  exact String.toList_injective (List.map_injective_iff.mpr hcode h)

/-- `not s.strip()`. -/
def isBlank (s : Text) : Bool :=
  s.all (fun c => decide (c.val ∈ [9, 10, 11, 12, 13, 28, 29, 30, 31, 32, 0x85, 0xA0, 0x1680, 0x2000,
    0x2001, 0x2002, 0x2003, 0x2004, 0x2005, 0x2006, 0x2007, 0x2008, 0x2009, 0x200A, 0x2028, 0x2029,
    0x202F, 0x205F, 0x3000]))

/-- `± digits * 10 ^ exponent`, with no zero at the end of its digits. -/
structure Decimal where
  neg : Bool
  digits : ℕ
  exponent : ℤ
  zero : digits = 0 → exponent = 0
  shortest : digits ≠ 0 → digits % 10 ≠ 0
  deriving DecidableEq

inductive JsonFloat where
  | nan
  | infinity (neg : Bool)
  | finite (d : Decimal)
  deriving DecidableEq

/-- A value given to the encoder. A key of `none` is one that is not a string, and `other` a value
of a type JSON has no form for. -/
inductive Json where
  | null
  | bool (b : Bool)
  | int (n : ℤ)
  | float (f : JsonFloat)
  | str (s : Text)
  | list (xs : List Json)
  | dict (items : List (Option Text × Json))
  | other (typeName : String)

namespace Json

def obj (items : List (String × Json)) : Json :=
  .dict (items.map (fun item => (some (text item.1), item.2)))

def find? (items : List (Option Text × Json)) (key : Option Text) : Option Json :=
  (items.find? (fun item => decide (item.1 = key))).map (·.2)

/-- `d.get(key)` of a dict; nothing of any other value. -/
def get? (v : Json) (key : String) : Option Json :=
  match v with
  | .dict items => find? items (some (text key))
  | _ => none

theorem get?_obj (items : List (String × Json)) (key : String) :
    (obj items).get? key = (items.find? (fun item => decide (item.1 = key))).map (·.2) := by
  change find? _ _ = _
  rw [find?, List.find?_map, Option.map_map]
  have hs : ((fun item : Option Text × Json => decide (item.1 = some (text key))) ∘
      fun item : String × Json => (some (text item.1), item.2)) =
      fun item => decide (item.1 = key) := by
    funext item
    simp only [Function.comp_apply, Option.some.injEq]
    congr 1
    exact propext ⟨text_injective, fun h => congrArg text h⟩
  rw [hs]
  rfl

/-! ### Equality in Python -/

/-- A number's value: a boolean counts as one, and `nan` equals nothing. -/
def number : Json → Option (ℚ ⊕ Bool)
  | .bool b => some (.inl (if b then 1 else 0))
  | .int n => some (.inl n)
  | .float (.finite d) => some (.inl ((if d.neg then -1 else 1) * d.digits * 10 ^ d.exponent))
  | .float (.infinity neg) => some (.inr neg)
  | _ => none

mutual

/-- `==` of two values. -/
def pyEq : Json → Json → Bool
  | .null, .null => true
  | .str s, .str t => decide (s = t)
  | .list xs, .list ys => pyEqList xs ys
  | .dict xs, .dict ys => decide (xs.length = ys.length) && pyEqItems xs ys
  | v, w => v.number.isSome && decide (v.number = w.number)

def pyEqList : List Json → List Json → Bool
  | [], [] => true
  | v :: vs, w :: ws => pyEq v w && pyEqList vs ws
  | _, _ => false

def pyEqItems : List (Option Text × Json) → List (Option Text × Json) → Bool
  | [], _ => true
  | (key, v) :: rest, ys =>
    (match find? ys key with
      | some w => pyEq v w
      | none => false) && pyEqItems rest ys

end

/-! ### Sorting keys -/

/-- The order of strings, by code point, with a key that is not a string before them. -/
def keyLe (k l : Option Text) : Bool :=
  match k, l with
  | none, _ => true
  | some _, none => false
  | some s, some t => decide (s ≤ t)

mutual

/-- The value with the members of every dict sorted by key. -/
def sorted : Json → Json
  | .list xs => .list (sortedList xs)
  | .dict items => .dict ((sortedItems items).insertionSort (fun i j => keyLe i.1 j.1 = true))
  | v => v

def sortedList : List Json → List Json
  | [] => []
  | v :: vs => sorted v :: sortedList vs

def sortedItems : List (Option Text × Json) → List (Option Text × Json)
  | [] => []
  | (key, v) :: rest => (key, sorted v) :: sortedItems rest

end

/-! ### Text of a value -/

/-- The decimal digits of `n`, least significant first, of a number with at most `fuel` digits. -/
def digitsOf : ℕ → ℕ → List ℕ
  | 0, _ => []
  | fuel + 1, n => if n = 0 then [] else n % 10 :: digitsOf fuel (n / 10)

def digitChar (d : ℕ) : CodePoint := Fin.ofNat 0x110000 (48 + d)

def natText (n : ℕ) : Text :=
  if n = 0 then [codePoint '0'] else ((digitsOf n n).reverse).map digitChar

def intText (n : ℤ) : Text :=
  if n < 0 then codePoint '-' :: natText n.natAbs else natText n.natAbs

/-- A finite float in fixed notation. -/
def decimalText (d : Decimal) : Text :=
  (if d.neg then [codePoint '-'] else []) ++
    if 0 ≤ d.exponent then natText (d.digits * 10 ^ d.exponent.toNat) ++ text ".0"
    else
      let places := (-d.exponent).toNat
      let digits := natText d.digits
      let padded := List.replicate (places + 1 - digits.length) (codePoint '0') ++ digits
      padded.take (padded.length - places) ++ codePoint '.' ::
        padded.drop (padded.length - places)

def floatText : JsonFloat → Text
  | .nan => text "NaN"
  | .infinity neg => if neg then text "-Infinity" else text "Infinity"
  | .finite d => decimalText d

def hexDigit (d : ℕ) : CodePoint :=
  if d < 10 then Fin.ofNat 0x110000 (48 + d) else Fin.ofNat 0x110000 (87 + d)

def escapeChar (c : CodePoint) : Text :=
  if c = codePoint '"' then text "\\\""
  else if c = codePoint '\\' then text "\\\\"
  else if c = codePoint '\n' then text "\\n"
  else if c = codePoint '\r' then text "\\r"
  else if c = codePoint '\t' then text "\\t"
  else if c = 12 then text "\\f"
  else if c = 8 then text "\\b"
  else if c < 32 then text "\\u00" ++ [hexDigit (c.val / 16), hexDigit (c.val % 16)]
  else [c]

def escaped (s : Text) : Text := (s.map escapeChar).flatten

def quoted (s : Text) : Text := codePoint '"' :: escaped s ++ [codePoint '"']

mutual

/-- The text of a value, its members in the order they stand. -/
def render : Json → Text
  | .null => text "null"
  | .bool true => text "true"
  | .bool false => text "false"
  | .int n => intText n
  | .float f => floatText f
  | .str s => quoted s
  | .list [] => text "[]"
  | .list (v :: vs) => codePoint '[' :: (render v ++ renderList vs)
  | .dict [] => text "\x7b\x7d"
  | .dict ((key, v) :: rest) =>
    codePoint '\x7b' :: (quoted (key.getD []) ++ codePoint ':' :: (render v ++ renderItems rest))
  | .other _ => []

def renderList : List Json → Text
  | [] => [codePoint ']']
  | v :: vs => codePoint ',' :: (render v ++ renderList vs)

def renderItems : List (Option Text × Json) → Text
  | [] => [codePoint '\x7d']
  | (key, v) :: rest =>
    codePoint ',' :: (quoted (key.getD []) ++ codePoint ':' :: (render v ++ renderItems rest))

end

/-- `json.dumps` with sorted keys. -/
def dumps (v : Json) : Text := render v.sorted

end Json

end OriRuntime
