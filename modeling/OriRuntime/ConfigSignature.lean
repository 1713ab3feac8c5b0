import OriRuntime.DevicePolicyRefresh
import OriRuntime.JsonTree

/-!
# The signed bytes of a configuration

`canonical_config_signature_payload` of `ori/security/config_signatures.py` and of the mobile
runtime's `main.rs`, on a document both YAML readers read. Python writes the payload with
`json.dumps`, the mobile runtime with `serde_json`, whose texts of a float and of a mapping's key
are parameters. Bytes are held as the text they encode.
-/

namespace OriRuntime

inductive YamlKey where
  | null
  | bool (b : Bool)
  | int (n : ℤ)
  | float (f : JsonFloat)
  | str (s : Text)
  deriving DecidableEq

inductive Yaml where
  | null
  | bool (b : Bool)
  | int (n : ℤ)
  | float (f : JsonFloat)
  | str (s : Text)
  | seq (xs : List Yaml)
  | mapping (items : List (YamlKey × Yaml))

/-! ### Texts of numbers -/

namespace Json

/-- The exponent of `repr`, of two digits at least. -/
def exponentText (e : ℤ) : Text :=
  (if e < 0 then codePoint '-' else codePoint '+') ::
    (List.replicate (2 - (natText e.natAbs).length) (codePoint '0') ++ natText e.natAbs)

/-- `repr` of a finite float. -/
def reprText (d : Decimal) : Text :=
  let point : ℤ := (natText d.digits).length + d.exponent
  if d.digits = 0 ∨ -4 < point ∧ point ≤ 16 then decimalText d
  else
    (if d.neg then [codePoint '-'] else []) ++ (natText d.digits).take 1 ++
      (if (natText d.digits).length ≤ 1 then []
        else codePoint '.' :: (natText d.digits).drop 1) ++
      codePoint 'e' :: exponentText (point - 1)

/-- A float as `json.dumps` writes it. -/
def pyFloatText : JsonFloat → Text
  | .finite d => reprText d
  | f => floatText f

def boolText (b : Bool) : Text := if b then text "true" else text "false"

end Json

namespace YamlKey

def isStr : YamlKey → Bool
  | .str _ => true
  | _ => false

def isNumber : YamlKey → Bool
  | .bool _ | .int _ | .float _ => true
  | _ => false

/-- The text `json.dumps` writes for a key. -/
def pyText : YamlKey → Text
  | .null => text "null"
  | .bool b => Json.boolText b
  | .int n => Json.intText n
  | .float f => Json.pyFloatText f
  | .str s => s

/-- The number a key is, an infinity apart. -/
def number : YamlKey → Option (ℚ ⊕ Bool)
  | .bool b => (Json.bool b).number
  | .int n => (Json.int n).number
  | .float f => (Json.float f).number
  | _ => none

/-- Whether Python leaves a number before another. -/
def notAfter (k l : YamlKey) : Bool :=
  match k.number, l.number with
  | some (.inl q), some (.inl q') => decide (q ≤ q')
  | some (.inr neg), _ => neg
  | _, some (.inr neg) => !neg
  | _, _ => true

end YamlKey

/-! ### Python -/

namespace ConfigSignature

/-- `sorted` of the items, which compares two keys as strings or as numbers and raises otherwise. -/
def sortItems {α : Type} (items : List (YamlKey × α)) : Option (List (YamlKey × α)) :=
  if items.all (fun item => item.1.isStr) then
    some (items.insertionSort (fun x y => x.1.pyText ≤ y.1.pyText))
  else if items.length ≤ 1 ∨ items.all (fun item => item.1.isNumber) then
    some (items.insertionSort (fun x y => x.1.notAfter y.1 = true))
  else none

mutual

/-- What `json.dumps` writes with `sort_keys`, or none where it raises. -/
def pyTree : Yaml → Option JsonTree
  | .null => some (.atom (text "null"))
  | .bool b => some (.atom (Json.boolText b))
  | .int n => some (.atom (Json.intText n))
  | .float f => some (.atom (Json.pyFloatText f))
  | .str s => some (.str s)
  | .seq xs => (pyTreeList xs).map .list
  | .mapping items =>
    match pyTreeItems items with
    | none => none
    | some items => (sortItems items).map (fun items =>
      .dict (items.map (fun item => (item.1.pyText, item.2))))

def pyTreeList : List Yaml → Option (List JsonTree)
  | [] => some []
  | v :: vs =>
    match pyTree v, pyTreeList vs with
    | some t, some ts => some (t :: ts)
    | _, _ => none

def pyTreeItems : List (YamlKey × Yaml) → Option (List (YamlKey × JsonTree))
  | [] => some []
  | (key, v) :: rest =>
    match pyTree v, pyTreeItems rest with
    | some t, some ts => some ((key, t) :: ts)
    | _, _ => none

end

/-- `str` of a value that is not a string, and the decimal digits of every script. -/
structure PyBuiltins where
  str : Yaml → Text
  decimal : CodePoint → Option ℕ

variable (b : PyBuiltins)

def find? (items : List (YamlKey × Yaml)) (key : String) : Option Yaml :=
  (items.find? (fun item => decide (item.1 = .str (text key)))).map (·.2)

/-- `str(value or "").strip()` -/
def pyField : Option Yaml → Text
  | none | some .null | some (.bool false) | some (.int 0) => []
  | some (.seq []) | some (.mapping []) => []
  | some (.str s) => Json.strip s
  | some (.float f) => if (Json.float f).parseBool then Json.strip (b.str (.float f)) else []
  | some v => Json.strip (b.str v)

/-- `_int_field`: none where it raises. -/
def pyInt : Option Yaml → Option ℤ
  | some (.bool v) => some (if v then 1 else 0)
  | some (.int n) => some n
  | some (.float (.finite d)) => some (Json.truncate d)
  | some (.str s) => Json.intOfText b.decimal s
  | _ => none

def unsignedConfig (items : List (YamlKey × Yaml)) : Yaml :=
  .mapping (items.filter (fun item => decide (item.1 ≠ .str (text "config_signature"))))

def envelope (config : JsonTree) (schema : Text) (signedAtMs : ℤ) (signerId : Text) : JsonTree :=
  .dict [(text "config", config), (text "schema", .str schema),
    (text "signed_at_ms", .atom (Json.intText signedAtMs)), (text "signer_id", .str signerId)]

/-- `canonical_config_signature_payload` of `config_signatures.py`: none where it raises. -/
def pyPayload (rawConfig : Yaml) : Option Text :=
  match rawConfig with
  | .mapping items =>
    match find? items "config_signature" with
    | some (.mapping block) =>
      match pyInt b (find? block "signed_at_ms"), pyTree (unsignedConfig items) with
      | some signedAtMs, some config =>
        some (envelope config (pyField b (find? block "schema")) signedAtMs
          (pyField b (find? block "signer_id"))).render
      | _, _ => none
    | _ => none
  | _ => none

/-! ### The mobile runtime -/

/-- The texts `serde_json` writes: of a float, which is `null` unless finite, and of a key, which it
refuses where it has no text. A number's text is that of no other number. -/
structure SerdeJson where
  floatText : JsonFloat → Text
  keyText : YamlKey → Option Text
  float_atom : ∀ f, JsonTree.AtomText (floatText f)
  keyText_str : ∀ s, keyText (.str s) = some s
  keyText_number : ∀ k l, k.isNumber = true → l.isNumber = true → keyText l = some k.pyText → k = l

variable (serde : SerdeJson)

/-- A map of `serde_json` keeps its members by key: a later one replaces an earlier. -/
def insertMember (key : Text) (v : JsonTree) : List (Text × JsonTree) → List (Text × JsonTree)
  | [] => [(key, v)]
  | (key', w) :: rest =>
    if key = key' then (key, v) :: rest
    else if key < key' then (key, v) :: (key', w) :: rest
    else (key', w) :: insertMember key v rest

def collect (members : List (Text × JsonTree)) : List (Text × JsonTree) :=
  members.foldl (fun kept member => insertMember member.1 member.2 kept) []

mutual

/-- `serde_json::to_value`. -/
def rustTree : Yaml → Option JsonTree
  | .null => some (.atom (text "null"))
  | .bool b => some (.atom (Json.boolText b))
  | .int n => some (.atom (Json.intText n))
  | .float f => some (.atom (serde.floatText f))
  | .str s => some (.str s)
  | .seq xs => (rustTreeList xs).map .list
  | .mapping items => (rustTreeItems items).map (fun members => .dict (collect members))

def rustTreeList : List Yaml → Option (List JsonTree)
  | [] => some []
  | v :: vs =>
    match rustTree v, rustTreeList vs with
    | some t, some ts => some (t :: ts)
    | _, _ => none

def rustTreeItems : List (YamlKey × Yaml) → Option (List (Text × JsonTree))
  | [] => some []
  | (key, v) :: rest =>
    match serde.keyText key, rustTree v, rustTreeItems rest with
    | some k, some t, some ts => some ((k, t) :: ts)
    | _, _, _ => none

end

def yamlString : Option Yaml → Option Text
  | some (.str s) => some s
  | _ => none

def yamlI64 : Option Yaml → Option ℤ
  | some (.int n) => if -2 ^ 63 ≤ n ∧ n < 2 ^ 63 then some n else none
  | _ => none

/-- `canonical_config_signature_payload` of `main.rs`: none where it returns an error. -/
def rustPayload (rawYaml : Yaml) : Option Text :=
  match rawYaml with
  | .mapping root =>
    match find? root "config_signature" with
    | some (.mapping block) =>
      match rustTree serde (unsignedConfig root), yamlString (find? block "schema"),
        yamlI64 (find? block "signed_at_ms"), yamlString (find? block "signer_id") with
      | some config, some schema, some signedAtMs, some signerId =>
        some (envelope config schema signedAtMs signerId).render
      | _, _, _, _ => none
    | _ => none
  | _ => none

end ConfigSignature

end OriRuntime
