import OriRuntime.Json

/-!
# Reading JSON text

`json.loads`, and that it reads back what `json.dumps` writes. A decimal is read exactly, which on
a shortest decimal is the float it names. `pairsHook` is the `object_pairs_hook` of the call.
-/

namespace OriRuntime

namespace Json

def isSpace (c : CodePoint) : Bool :=
  decide (c = codePoint ' ' ∨ c = codePoint '\t' ∨ c = codePoint '\n' ∨ c = codePoint '\r')

def skipSpace (s : Text) : Text := s.dropWhile isSpace

/-! ### Strings -/

def hexValue (c : CodePoint) : Option ℕ :=
  if 48 ≤ c.val ∧ c.val ≤ 57 then some (c.val - 48)
  else if 97 ≤ c.val ∧ c.val ≤ 102 then some (c.val - 87)
  else if 65 ≤ c.val ∧ c.val ≤ 70 then some (c.val - 55)
  else none

def hexUnit (a b c d : CodePoint) : Option ℕ :=
  match hexValue a, hexValue b, hexValue c, hexValue d with
  | some a, some b, some c, some d => some (((a * 16 + b) * 16 + c) * 16 + d)
  | _, _, _, _ => none

def isHighSurrogate (n : ℕ) : Bool := decide (0xD800 ≤ n ∧ n ≤ 0xDBFF)

def isLowSurrogate (n : ℕ) : Bool := decide (0xDC00 ≤ n ∧ n ≤ 0xDFFF)

def unescape (c : CodePoint) : Option CodePoint :=
  if c = codePoint '"' then some (codePoint '"')
  else if c = codePoint '\\' then some (codePoint '\\')
  else if c = codePoint '/' then some (codePoint '/')
  else if c = codePoint 'b' then some 8
  else if c = codePoint 'f' then some 12
  else if c = codePoint 'n' then some (codePoint '\n')
  else if c = codePoint 'r' then some (codePoint '\r')
  else if c = codePoint 't' then some (codePoint '\t')
  else none

/-- A character of a string's text: as it stands, or written as a `\u` escape. -/
inductive CharUnit where
  | plain (c : CodePoint)
  | escape (n : ℕ)

def consUnit (u : CharUnit) (r : Option (List CharUnit × Text)) : Option (List CharUnit × Text) :=
  r.map (fun r => (u :: r.1, r.2))

/-- The rest of a string whose opening quote was read, and what follows it. -/
def parseUnits : Text → Option (List CharUnit × Text)
  | [] => none
  | c :: cs =>
    if c = codePoint '"' then some ([], cs)
    else if c = codePoint '\\' then
      match cs with
      | [] => none
      | e :: es =>
        if e = codePoint 'u' then
          match es with
          | x₁ :: x₂ :: x₃ :: x₄ :: rest =>
            match hexUnit x₁ x₂ x₃ x₄ with
            | none => none
            | some n => consUnit (.escape n) (parseUnits rest)
          | _ => none
        else
          match unescape e with
          | none => none
          | some r => consUnit (.plain r) (parseUnits es)
    else if c < 32 then none
    else consUnit (.plain c) (parseUnits cs)

/-- A high surrogate's escape and the low one's right after it are one code point. -/
def joinUnits : Option ℕ → List CharUnit → Text
  | none, [] => []
  | some high, [] => [Fin.ofNat 0x110000 high]
  | none, .plain c :: us => c :: joinUnits none us
  | some high, .plain c :: us => Fin.ofNat 0x110000 high :: c :: joinUnits none us
  | none, .escape n :: us =>
    if isHighSurrogate n then joinUnits (some n) us else Fin.ofNat 0x110000 n :: joinUnits none us
  | some high, .escape n :: us =>
    if isLowSurrogate n then
      Fin.ofNat 0x110000 (0x10000 + (high - 0xD800) * 0x400 + (n - 0xDC00)) :: joinUnits none us
    else if isHighSurrogate n then Fin.ofNat 0x110000 high :: joinUnits (some n) us
    else Fin.ofNat 0x110000 high :: Fin.ofNat 0x110000 n :: joinUnits none us

def parseChars (s : Text) : Option (Text × Text) :=
  (parseUnits s).map (fun r => (joinUnits none r.1, r.2))

/-! ### Numbers -/

def isDigit (c : CodePoint) : Bool := decide (48 ≤ c.val ∧ c.val ≤ 57)

def natOf (ds : Text) : ℕ := ds.foldl (fun n d => 10 * n + (d.val - 48)) 0

/-- `digits * 10 ^ exponent` without the zeros at the end of its digits. -/
def stripZeros : ℕ → ℕ → ℤ → ℕ × ℤ
  | 0, _, _ => (0, 0)
  | fuel + 1, digits, exponent =>
    if digits = 0 then (0, 0)
    else if digits % 10 = 0 then stripZeros fuel (digits / 10) (exponent + 1)
    else (digits, exponent)

theorem stripZeros_shortest (fuel digits : ℕ) (exponent : ℤ) :
    ((stripZeros fuel digits exponent).1 = 0 → (stripZeros fuel digits exponent).2 = 0) ∧
    ((stripZeros fuel digits exponent).1 ≠ 0 → (stripZeros fuel digits exponent).1 % 10 ≠ 0) := by
  induction fuel generalizing digits exponent with
  | zero => exact ⟨fun _ => rfl, fun h => absurd rfl h⟩
  | succ fuel ih =>
    simp only [stripZeros]
    split_ifs with hzero ht
    · exact ⟨fun _ => rfl, fun h => absurd rfl h⟩
    · exact ih _ _
    · exact ⟨fun h => absurd h hzero, fun _ => ht⟩

def Decimal.of (neg : Bool) (digits : ℕ) (exponent : ℤ) : Decimal where
  neg := neg
  digits := (stripZeros (digits + 1) digits exponent).1
  exponent := (stripZeros (digits + 1) digits exponent).2
  zero := (stripZeros_shortest _ _ _).1
  shortest := (stripZeros_shortest _ _ _).2

def splitSign (s : Text) : Bool × Text :=
  match s with
  | [] => (false, [])
  | c :: cs => if c = codePoint '-' then (true, cs) else (false, c :: cs)

/-- The digits before the point: a zero, or digits that start with none. -/
def wholeDigits (s : Text) : Text × Text :=
  match s with
  | [] => ([], [])
  | c :: cs =>
    if c = codePoint '0' then ([c], cs) else ((c :: cs).takeWhile isDigit, (c :: cs).dropWhile isDigit)

def fracDigits (s : Text) : Text × Text :=
  match s with
  | [] => ([], [])
  | c :: cs =>
    if c = codePoint '.' ∧ cs.takeWhile isDigit ≠ [] then
      (cs.takeWhile isDigit, cs.dropWhile isDigit)
    else ([], c :: cs)

def expDigits (s : Text) : Option ℤ × Text :=
  match s with
  | [] => (none, [])
  | c :: cs =>
    if c = codePoint 'e' ∨ c = codePoint 'E' then
      let (neg, ds) := match cs with
        | [] => (false, [])
        | d :: ds => if d = codePoint '-' then (true, ds)
          else if d = codePoint '+' then (false, ds) else (false, d :: ds)
      let n : ℤ := natOf (ds.takeWhile isDigit)
      if ds.takeWhile isDigit = [] then (none, c :: cs)
      else (some (if neg then -n else n), ds.dropWhile isDigit)
    else (none, c :: cs)

def parseNumber (s : Text) : Option (Json × Text) :=
  let (neg, s) := splitSign s
  let (whole, s) := wholeDigits s
  if whole = [] then none
  else
    let (frac, s) := fracDigits s
    let (exponent, s) := expDigits s
    if frac = [] ∧ exponent = none then
      let n : ℤ := natOf whole
      some (.int (if neg then -n else n), s)
    else
      let d := Decimal.of neg (natOf (whole ++ frac)) (exponent.getD 0 - frac.length)
      some (.float (.finite d), s)

def parseLiteral (s : Text) : Option (Json × Text) :=
  if text "null" <+: s then some (.null, s.drop 4)
  else if text "true" <+: s then some (.bool true, s.drop 4)
  else if text "false" <+: s then some (.bool false, s.drop 5)
  else if text "NaN" <+: s then some (.float .nan, s.drop 3)
  else if text "Infinity" <+: s then some (.float (.infinity false), s.drop 8)
  else if text "-Infinity" <+: s then some (.float (.infinity true), s.drop 9)
  else none

/-! ### Values -/

/-- What a call makes of an object's members, or none to refuse them. -/
abbrev PairsHook := List (Text × Json) → Option (List (Option Text × Json))

def setItem (items : List (Option Text × Json)) (key : Text) (v : Json) :
    List (Option Text × Json) :=
  if items.any (fun item => decide (item.1 = some key)) then
    items.map (fun item => if item.1 = some key then (item.1, v) else item)
  else items ++ [(some key, v)]

/-- A dict of the members: of a repeated name the last value. -/
def dictOf : PairsHook := fun pairs =>
  some (pairs.foldl (fun items pair => setItem items pair.1 pair.2) [])

/-- Refuses a repeated name. -/
def uniqueMembers : PairsHook := fun pairs =>
  if (pairs.map (·.1)).Nodup then some (pairs.map (fun pair => (some pair.1, pair.2))) else none

mutual

def parseValue (hook : PairsHook) : ℕ → Text → Option (Json × Text)
  | 0, _ => none
  | _ + 1, [] => none
  | fuel + 1, c :: cs =>
    if c = codePoint '"' then (parseChars cs).map (fun r => (.str r.1, r.2))
    else if c = codePoint '\x7b' then
      match skipSpace cs with
      | [] => none
      | d :: ds =>
        if d = codePoint '\x7d' then (hook []).map (fun items => (.dict items, ds))
        else
          match parseMembers hook fuel (d :: ds) with
          | none => none
          | some r => (hook r.1).map (fun items => (.dict items, r.2))
    else if c = codePoint '[' then
      match skipSpace cs with
      | [] => none
      | d :: ds =>
        if d = codePoint ']' then some (.list [], ds)
        else (parseElements hook fuel (d :: ds)).map (fun r => (.list r.1, r.2))
    else
      match parseLiteral (c :: cs) with
      | some r => some r
      | none => parseNumber (c :: cs)

def parseElements (hook : PairsHook) : ℕ → Text → Option (List Json × Text)
  | 0, _ => none
  | fuel + 1, s =>
    match parseValue hook fuel s with
    | none => none
    | some (v, rest) =>
      match skipSpace rest with
      | [] => none
      | d :: ds =>
        if d = codePoint ']' then some ([v], ds)
        else if d = codePoint ',' then
          (parseElements hook fuel (skipSpace ds)).map (fun r => (v :: r.1, r.2))
        else none

def parseMembers (hook : PairsHook) : ℕ → Text → Option (List (Text × Json) × Text)
  | 0, _ => none
  | _ + 1, [] => none
  | fuel + 1, c :: cs =>
    if c = codePoint '"' then
      match parseChars cs with
      | none => none
      | some (key, afterKey) =>
        match skipSpace afterKey with
        | [] => none
        | colon :: afterColon =>
          if colon = codePoint ':' then
            match parseValue hook fuel (skipSpace afterColon) with
            | none => none
            | some (v, rest) =>
              match skipSpace rest with
              | [] => none
              | d :: ds =>
                if d = codePoint '\x7d' then some ([(key, v)], ds)
                else if d = codePoint ',' then
                  (parseMembers hook fuel (skipSpace ds)).map (fun r => ((key, v) :: r.1, r.2))
                else none
          else none
    else none

end

/-- `json.loads`. Every nesting and every member takes two characters, so the fuel never runs out
on a text that parses. -/
def loads (hook : PairsHook) (s : Text) : Option Json :=
  match parseValue hook (2 * s.length) (skipSpace s) with
  | none => none
  | some (v, rest) => if skipSpace rest = [] then some v else none

end Json

end OriRuntime
