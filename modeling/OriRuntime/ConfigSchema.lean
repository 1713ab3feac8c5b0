import OriRuntime.Evaluation

/-!
# Declared sensor configurations

`ori/hal/config_schema.py`, the declaration. A descriptor is given by its type: what it may declare
beside its rules, an alias the field it supersedes, an object its properties and an array its items,
is part of the form it takes here. A config path is a list of its segments.
-/

namespace OriRuntime.ConfigSchema

/-- A value of a loaded configuration. A key of `none` is one that is not a string. -/
inductive YamlValue where
  | null
  | bool (b : Bool)
  | int (n : ℤ)
  | float (f : PyFloat)
  | str (s : String)
  | list (xs : List YamlValue)
  | dict (items : List (Option String × YamlValue))
  | other (typeName : String)

abbrev Items := List (Option String × YamlValue)

def find? (items : Items) (key : Option String) : Option YamlValue :=
  (items.find? (fun item => decide (item.1 = key))).map Prod.snd

/-- `items[key] = v` of a dict. -/
def setItem (key : String) (v : YamlValue) : Items → Items
  | [] => [(some key, v)]
  | item :: rest =>
    if item.1 = some key then (some key, v) :: rest else item :: setItem key v rest

/-- `del items[key]` -/
def delItem (key : String) (items : Items) : Items :=
  items.filter (fun item => decide (item.1 ≠ some key))

/-! ### Equality in Python -/

namespace YamlValue

/-- A number's value: a boolean counts as one, and `nan` equals nothing. -/
def number? : YamlValue → Option PyFloat
  | .bool b => some (.finite (if b then 1 else 0))
  | .int n => some (.finite n)
  | .float .nan => none
  | .float f => some f
  | _ => none

mutual

/-- `==` of two values. -/
def pyEq : YamlValue → YamlValue → Bool
  | .null, .null => true
  | .str s, .str t => decide (s = t)
  | .list xs, .list ys => pyEqList xs ys
  | .dict xs, .dict ys => decide (xs.length = ys.length) && pyEqItems xs ys
  | .other s, .other t => decide (s = t)
  | v, w => v.number?.isSome && decide (v.number? = w.number?)

def pyEqList : List YamlValue → List YamlValue → Bool
  | [], [] => true
  | v :: vs, w :: ws => pyEq v w && pyEqList vs ws
  | _, _ => false

def pyEqItems : Items → Items → Bool
  | [], _ => true
  | (key, v) :: rest, ys =>
    (match find? ys key with
      | some w => pyEq v w
      | none => false) && pyEqItems rest ys

end

/-- `v in values` -/
def isIn (v : YamlValue) (values : List YamlValue) : Bool := values.any v.pyEq

end YamlValue

def pathValue : YamlValue → List String → Option YamlValue
  | node, [] => some node
  | .dict items, segment :: rest => (find? items (some segment)).bind (pathValue · rest)
  | _, _ :: _ => none

/-! ### Descriptors -/

inductive ValueType where
  | string
  | integer
  | number
  | boolean
  | array
  | object
  deriving DecidableEq, Repr

inductive Bound where
  | int (n : ℤ)
  | float (f : PyFloat)

def Bound.value : Bound → PyFloat
  | .int n => .finite n
  | .float f => f

/-- What a descriptor that is not an alias may declare of its field. -/
structure FieldRules where
  required : Bool := false
  defaultsTo : Option YamlValue := none
  minimum : Option Bound := none
  maximum : Option Bound := none
  enum : Option (List YamlValue) := none
  requiredUnless : Option (String × YamlValue) := none
  fallbackFrom : Option (List String) := none
  mustBeSubsetOf : Option (List String) := none

inductive Descriptor where
  | aliasFor (type : ValueType) (supersedes : List String)
  | scalar (type : ValueType) (rules : FieldRules)
  | object (rules : FieldRules) (properties : List (String × Descriptor))
  | array (rules : FieldRules) (items : Descriptor)

abbrev Fields := List (String × Descriptor)

namespace Descriptor

def type : Descriptor → ValueType
  | .aliasFor type _ | .scalar type _ => type
  | .object _ _ => .object
  | .array _ _ => .array

def rules : Descriptor → FieldRules
  | .aliasFor _ _ => {}
  | .scalar _ rules | .object rules _ | .array rules _ => rules

def deprecated : Descriptor → Bool
  | .aliasFor _ _ => true
  | _ => false

end Descriptor

def field? (fields : Fields) (key : String) : Option Descriptor :=
  (fields.find? (fun field => decide (field.1 = key))).map Prod.snd

/-! ### Refusals -/

inductive Finding where
  | wrongType (type : ValueType)
  | notFinite
  | notInEnum
  | belowMinimum
  | aboveMaximum
  | notDeclared
  | missing
  | requiredUnless (other : String)
  | bothSpellings (replacement : List String) (spelling : String)
  | bothAliases (replacement : List String) (first second : String)
  | notAnObject (segment : String)
  | unresolved (path : List String)
  | notAnArray
  | notPermitted (path : List String)
  | needsExternal (fields : List String)
  | notExactlyOne (satisfied : ℕ)
  | strays (fields : List String)
  | noneOf
  | aliasWithoutTarget
  | requiredWithDefault
  | noContents (type : ValueType)
  | boundOnType
  | boundNotFinite
  | boundNotInteger
  | boundsCrossed
  | emptyEnum
  | badPath
  | subsetOfNonArray
  | aliasTarget (path : List String)
  | aliasOfAlias (path : List String)
  | aliasType (path : List String)
  | conditionNamesNothing (key : String)
  | cycle (start : String)
  | emptyGroups
  | emptyGroup (index : ℕ)
  | groupNamesNothing (index : ℕ) (name : String)
  | inTwoGroups (name : String)
  /-- A `KeyError`: an alias declares no contents. -/
  | keyError
  deriving DecidableEq, Repr

/-- A `SchemaError` or a `DocumentError`, with the path of the offending key. -/
structure ConfigError where
  place : String
  finding : Finding
  deriving DecidableEq, Repr

def join (path key : String) : String := if path = "" then key else path ++ "." ++ key

def indexed (path : String) (index : ℕ) : String := path ++ "[" ++ toString index ++ "]"

/-! ### Checking a value -/

/-- `isinstance`, with a boolean never an integer. -/
def ValueType.admits : ValueType → YamlValue → Bool
  | .boolean, .bool _ => true
  | .integer, .int _ => true
  | .number, .int _ | .number, .float _ => true
  | .string, .str _ => true
  | .array, .list _ => true
  | .object, .dict _ => true
  | _, _ => false

/-- `_finite_number`: from `2 ^ 1024 - 2 ^ 970` on an int has no float. -/
def finiteNumber : YamlValue → Bool
  | .int n => decide (n.natAbs < 2 ^ 1024 - 2 ^ 970)
  | .float f => f.isFinite
  | _ => false

/-- `value < bound` of a number; the bounds of other types are never declared. -/
def below (v : YamlValue) (bound : Option Bound) : Bool :=
  match bound, v.number? with
  | some bound, some x => x.lt bound.value
  | _, _ => false

def above (v : YamlValue) (bound : Option Bound) : Bool :=
  match bound, v.number? with
  | some bound, some x => bound.value.lt x
  | _, _ => false

/-- `_check_value` up to the contents of the value. -/
def checkOwn (type : ValueType) (rules : FieldRules) (place : String) (v : YamlValue) :
    Except ConfigError Unit :=
  if type.admits v = false then .error ⟨place, .wrongType type⟩
  else if type = .number ∧ finiteNumber v = false then .error ⟨place, .notFinite⟩
  else if rules.enum.any (fun values => !v.isIn values) then .error ⟨place, .notInEnum⟩
  else if below v rules.minimum then .error ⟨place, .belowMinimum⟩
  else if above v rules.maximum then .error ⟨place, .aboveMaximum⟩
  else .ok ()

def checkDeclared (fields : Fields) (place : String) : Items → Except ConfigError Unit
  | [] => .ok ()
  | (none, _) :: _ => .error ⟨place, .notDeclared⟩
  | (some key, _) :: rest =>
    if (field? fields key).isNone then .error ⟨join place key, .notDeclared⟩
    else checkDeclared fields place rest

/-- `for index, item in enumerate(xs)` -/
def forEach (f : String → YamlValue → Except ConfigError Unit) (place : String) :
    List YamlValue → ℕ → Except ConfigError Unit
  | [], _ => .ok ()
  | x :: xs, i => do
    f (indexed place i) x
    forEach f place xs (i + 1)

/-- The contents of a mapping, where the value is one. -/
def onDict (f : Items → Except ConfigError Unit) : YamlValue → Except ConfigError Unit
  | .dict items => f items
  | _ => .ok ()

/-- The contents of a list, where the value is one. -/
def onList (f : List YamlValue → Except ConfigError Unit) : YamlValue → Except ConfigError Unit
  | .list xs => f xs
  | _ => .ok ()

/-- An alias declares neither the properties nor the items that are asked for. -/
def noContents (place : String) : YamlValue → Except ConfigError Unit
  | .dict _ | .list (_ :: _) => .error ⟨place, .keyError⟩
  | _ => .ok ()

mutual

def checkValue : Descriptor → String → YamlValue → Except ConfigError Unit
  | .aliasFor type _, place, v => do
    checkOwn type {} place v
    noContents place v
  | .scalar type rules, place, v => checkOwn type rules place v
  | .object rules properties, place, v => do
    checkOwn .object rules place v
    onDict (fun items => do
      checkDeclared properties place items
      checkProperties properties place items) v
  | .array rules items, place, v => do
    checkOwn .array rules place v
    onList (fun xs => forEach (fun place x => checkValue items place x) place xs 0) v

/-- The second loop of `_check_object`. -/
def checkProperties : Fields → String → Items → Except ConfigError Unit
  | [], _, _ => .ok ()
  | (key, d) :: rest, place, items => do
    match find? items (some key) with
    | some v => checkValue d (join place key) v
    | none => if d.rules.required = true then .error ⟨join place key, .missing⟩ else .ok ()
    checkProperties rest place items

end

/-! ### Checking a declaration -/

/-- `_validate_fallback_path` -/
def validPath (path : List String) : Bool :=
  decide ("" ∉ path) && decide (path ≠ []) && decide (path.head? ≠ some "sensors")

def checkBound (type : ValueType) (place : String) : Option Bound → Except ConfigError Unit
  | none => .ok ()
  | some bound =>
    if type ≠ .integer ∧ type ≠ .number then .error ⟨place, .boundOnType⟩
    else if bound.value.isFinite = false then .error ⟨place, .boundNotFinite⟩
    else
      match type, bound with
      | .integer, .float _ => .error ⟨place, .boundNotInteger⟩
      | _, _ => .ok ()

def boundsCrossed (rules : FieldRules) : Bool :=
  match rules.minimum, rules.maximum with
  | some lo, some hi => hi.value.lt lo.value
  | _, _ => false

/-- `_validate_descriptor` after the contents of the descriptor. -/
def validateRules (d : Descriptor) (place : String) : Except ConfigError Unit := do
  checkBound d.type place d.rules.minimum
  checkBound d.type place d.rules.maximum
  if boundsCrossed d.rules = true then .error ⟨place, .boundsCrossed⟩
  match d.rules.enum with
  | none => .ok ()
  | some [] => .error ⟨place, .emptyEnum⟩
  | some values => values.forM (fun value => checkValue d (place ++ " enum") value)
  match d.rules.defaultsTo with
  | none => .ok ()
  | some value => checkValue d (place ++ " default") value
  if (d.rules.fallbackFrom.all validPath && d.rules.mustBeSubsetOf.all validPath) = false then
    .error ⟨place, .badPath⟩
  if d.rules.mustBeSubsetOf.isSome = true ∧ d.type ≠ .array then
    .error ⟨place, .subsetOfNonArray⟩

def requiredWithDefault (rules : FieldRules) (place : String) : Except ConfigError Unit :=
  if rules.required = true ∧ rules.defaultsTo.isSome = true then
    .error ⟨place, .requiredWithDefault⟩
  else .ok ()

mutual

def validateDescriptor : Descriptor → String → Except ConfigError Unit
  | .aliasFor _ supersedes, place =>
    if supersedes = [] ∨ supersedes = [""] then .error ⟨place, .aliasWithoutTarget⟩ else .ok ()
  | .scalar type rules, place => do
    requiredWithDefault rules place
    if type = .object ∨ type = .array then .error ⟨place, .noContents type⟩
    validateRules (.scalar type rules) place
  | .object rules properties, place => do
    requiredWithDefault rules place
    validateProperties properties place
    validateRules (.object rules properties) place
  | .array rules items, place => do
    requiredWithDefault rules place
    validateDescriptor items (place ++ "[]")
    validateRules (.array rules items) place

def validateProperties : Fields → String → Except ConfigError Unit
  | [], _ => .ok ()
  | (key, d) :: rest, place => do
    validateDescriptor d (join place key)
    validateProperties rest place

end

/-! ### References among siblings -/

def schemaPath : Fields → List String → Option Descriptor
  | _, [] => none
  | fields, [segment] => field? fields segment
  | fields, segment :: rest =>
    match field? fields segment with
    | some (.object _ properties) => schemaPath properties rest
    | _ => none

def validateReferences (d : Descriptor) (fields : Fields) (place : String) :
    Except ConfigError Unit :=
  match d with
  | .aliasFor type path =>
    match schemaPath fields path with
    | none => .error ⟨place, .aliasTarget path⟩
    | some target =>
      if target.deprecated = true then .error ⟨place, .aliasOfAlias path⟩
      else if type ≠ target.type then .error ⟨place, .aliasType path⟩
      else .ok ()
  | d =>
    match d.rules.requiredUnless with
    | none => .ok ()
    | some (key, _) =>
      if (field? fields key).isNone then .error ⟨place, .conditionNamesNothing key⟩ else .ok ()

def conditions (fields : Fields) : List (String × String) :=
  fields.filterMap (fun field => field.2.rules.requiredUnless.map (fun c => (field.1, c.1)))

/-- The walk of `_validate_conditional_cycles`; it meets a node twice within as many steps as there
are edges, or ends. -/
def walksIntoCycle (edges : List (String × String)) : ℕ → List String → String → Bool
  | 0, _, _ => false
  | n + 1, path, node =>
    match (edges.find? (fun edge => decide (edge.1 = node))).map Prod.snd with
    | none => false
    | some next => decide (node ∈ path) || walksIntoCycle edges n (path ++ [node]) next

def validateConditionalCycles (fields : Fields) (place : String) : Except ConfigError Unit :=
  match (conditions fields).find? (fun edge =>
    walksIntoCycle (conditions fields) ((conditions fields).length + 1) [] edge.1) with
  | some edge => .error ⟨place, .cycle edge.1⟩
  | none => .ok ()

mutual

/-- `_validate_references_in` from one field on. -/
def validateReferencesOf : Descriptor → Fields → String → Except ConfigError Unit
  | .object rules properties, fields, place => do
    validateReferences (.object rules properties) fields place
    validateConditionalCycles properties place
    validateReferencesIn properties properties place
  | .array rules (.object itemRules properties), fields, place => do
    validateReferences (.array rules (.object itemRules properties)) fields place
    validateConditionalCycles properties (place ++ "[]")
    validateReferencesIn properties properties (place ++ "[]")
  | .array rules (.aliasFor type path), fields, place => do
    validateReferences (.array rules (.aliasFor type path)) fields place
    if type = .object then .error ⟨place, .keyError⟩
  | d, fields, place => validateReferences d fields place

def validateReferencesIn : Fields → Fields → String → Except ConfigError Unit
  | [], _, _ => .ok ()
  | (key, d) :: rest, fields, place => do
    validateReferencesOf d fields (join place key)
    validateReferencesIn rest fields place

end

/-! ### Groups -/

/-- The loop of `_validate_groups` over the fields of a group. -/
def validateGroup (fields : Fields) (place : String) (index : ℕ) :
    List String → List (String × ℕ) → Except ConfigError (List (String × ℕ))
  | [], members => .ok members
  | name :: rest, members =>
    if (field? fields name).isNone then .error ⟨place, .groupNamesNothing index name⟩
    else if members.any (fun m => decide (m.1 = name ∧ m.2 ≠ index)) then
      .error ⟨place, .inTwoGroups name⟩
    else validateGroup fields place index rest ((name, index) :: members)

/-- `_validate_groups` over the groups; two that are alike share their fields. -/
def validateGroups (fields : Fields) (place : String) :
    List (List String) → ℕ → List (String × ℕ) → Except ConfigError Unit
  | [], _, _ => .ok ()
  | [] :: _, index, _ => .error ⟨place, .emptyGroup index⟩
  | group :: rest, index, members => do
    let members ← validateGroup fields place index group members
    validateGroups fields place rest (index + 1) members

def validateConstraint (fields : Fields) (place : String) :
    Option (List (List String)) → Except ConfigError Unit
  | none => .ok ()
  | some [] => .error ⟨place, .emptyGroups⟩
  | some groups => validateGroups fields place groups 0 []

/-! ### Declarations -/

mutual

/-- The fields of each mapping have keys of their own. -/
def Descriptor.distinct : Descriptor → Bool
  | .aliasFor _ _ | .scalar _ _ => true
  | .object _ properties => decide (properties.map Prod.fst).Nodup && distinctFields properties
  | .array _ items => items.distinct

def distinctFields : Fields → Bool
  | [] => true
  | (_, d) :: rest => d.distinct && distinctFields rest

end

structure Declaration where
  fields : Fields
  exactlyOneOf : Option (List (List String)) := none
  atLeastOneOf : Option (List (List String)) := none
  nodup : (fields.map Prod.fst).Nodup
  distinct : distinctFields fields = true

structure ValidatedSchema extends Declaration where
  name : String

def validateSchema (schema : Declaration) (name : String) : Except ConfigError ValidatedSchema := do
  validateProperties schema.fields name
  validateConstraint schema.fields name schema.exactlyOneOf
  validateConstraint schema.fields name schema.atLeastOneOf
  validateConditionalCycles schema.fields name
  validateReferencesIn schema.fields schema.fields name
  .ok { schema with name := name }

end OriRuntime.ConfigSchema
