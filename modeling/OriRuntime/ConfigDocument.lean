import OriRuntime.ConfigSchema

/-!
# Resolving a sensor configuration

`ori/hal/config_schema.py`, the document: aliases are moved to the fields they supersede, groups are
decided, and each mapping is resolved with its fallbacks and defaults before its requirements are
asked for.
-/

namespace OriRuntime.ConfigSchema

/-! ### Aliases -/

def setPath : Items → List String → YamlValue → String → Except ConfigError Items
  | items, [], _, _ => .ok items
  | items, [segment], v, _ => .ok (setItem segment v items)
  | items, segment :: rest, v, context =>
    match find? items (some segment) with
    | none => do
      let inner ← setPath [] rest v context
      .ok (setItem segment (.dict inner) items)
    | some (.dict inner) => do
      let inner ← setPath inner rest v context
      .ok (setItem segment (.dict inner) items)
    | some _ => .error ⟨context, .notAnObject segment⟩

/-- `_alias_origin_for_path`: the alias that supplied the path, or else its longest parent. -/
def aliasOrigin (origins : List (List String × String)) (path : List String) : Option String :=
  path.inits.reverse.findSome? fun parent =>
    if parent = [] then none
    else (origins.find? (fun origin => decide (origin.1 = parent))).map Prod.snd

/-- The loop of `_resolve_aliases`. -/
def moveAliases (document : Items) (context : String) :
    Fields → Items → List (List String × String) → Except ConfigError Items
  | [], resolved, _ => .ok resolved
  | (key, .aliasFor _ replacement) :: fields, resolved, origins =>
    match find? document (some key) with
    | none => moveAliases document context fields resolved origins
    | some v =>
      if (pathValue (.dict resolved) replacement).isSome then
        match aliasOrigin origins replacement with
        | some first => .error ⟨context, .bothAliases replacement first key⟩
        | none => .error ⟨context, .bothSpellings replacement key⟩
      else do
        let moved ← setPath resolved replacement v context
        moveAliases document context fields (delItem key moved) ((replacement, key) :: origins)
  | _ :: fields, resolved, origins => moveAliases document context fields resolved origins

def resolveAliases (document : Items) (fields : Fields) (context : String) :
    Except ConfigError Items :=
  moveAliases document context fields document []

/-! ### The surrounding configuration -/

def resolvePath (path : List String) (external : Option Items) (place : String) :
    Except ConfigError YamlValue :=
  match external.bind (fun external => pathValue (.dict external) path) with
  | none => .error ⟨place, .unresolved path⟩
  | some v => .ok v

def checkSubset (v : YamlValue) (path : List String) (external : Option Items) (place : String) :
    Except ConfigError Unit := do
  let node ← resolvePath path external place
  match node, v with
  | .list allowed, .list xs =>
    if xs.all (fun x => x.isIn allowed) = true then .ok () else .error ⟨place, .notPermitted path⟩
  | .list _, _ => .ok ()
  | _, _ => .error ⟨place, .notAnArray⟩

/-! ### One mapping -/

/-- `document.get(other) == value`; a sibling that is absent counts as null. -/
def conditionHolds (resolved : Items) (condition : String × YamlValue) : Bool :=
  ((find? resolved (some condition.1)).getD .null).pyEq condition.2

def checkConditionalRequirement (resolved : Items) (context key : String) (rules : FieldRules) :
    Except ConfigError Unit :=
  match rules.requiredUnless with
  | none => .ok ()
  | some condition =>
    if conditionHolds resolved condition = true then .ok ()
    else .error ⟨join context key, .requiredUnless condition.1⟩

/-- The second pass of `_resolve_mapping`, for one field. -/
def checkRequirement (resolved : Items) (inactive : List String) (context key : String)
    (d : Descriptor) : Except ConfigError Unit :=
  if key ∈ inactive ∨ (find? resolved (some key)).isSome = true then .ok ()
  else do
    checkConditionalRequirement resolved context key d.rules
    if d.rules.required = true then .error ⟨join context key, .missing⟩ else .ok ()

/-- The last pass of `_resolve_mapping`, for one field. -/
def checkSubsetOf (resolved : Items) (inactive : List String) (external : Option Items)
    (context key : String) (d : Descriptor) : Except ConfigError Unit :=
  if key ∈ inactive then .ok ()
  else
    match d.rules.mustBeSubsetOf, find? resolved (some key) with
    | some path, some v => checkSubset v path external (join context key)
    | _, _ => .ok ()

def forFields (f : String → Descriptor → Except ConfigError Unit) :
    Fields → Except ConfigError Unit
  | [] => .ok ()
  | (key, d) :: rest => do
    f key d
    forFields f rest

/-- What the first pass resolves of a field, and the place it names. -/
def fieldSource (document : Items) (external : Option Items) (key : String) (d : Descriptor)
    (place : String) : Except ConfigError (Option (String × YamlValue)) :=
  match find? document (some key) with
  | some v => .ok (some (place, v))
  | none =>
    match d.rules.fallbackFrom with
    | some path => do
      let inherited ← resolvePath path external place
      .ok (some (place ++ " (inherited from " ++ ".".intercalate path ++ ")", inherited))
    | none => .ok (d.rules.defaultsTo.map fun v => (place, v))

/-- `_resolve_mapping` around its first pass. -/
def resolveWith (firstPass : Items → Except ConfigError Items) (document : Items)
    (fields : Fields) (inactive : List String) (context : String) (external : Option Items) :
    Except ConfigError Items := do
  checkDeclared fields context document
  let resolved ← firstPass document
  forFields (checkRequirement resolved inactive context) fields
  forFields (checkSubsetOf resolved inactive external context) fields
  .ok resolved

/-- `[f(item) for i, item in enumerate(xs)]` -/
def mapEach (f : String → YamlValue → Except ConfigError YamlValue) (place : String) :
    List YamlValue → ℕ → Except ConfigError (List YamlValue)
  | [], _ => .ok []
  | x :: xs, i => do
    let y ← f (indexed place i) x
    let ys ← mapEach f place xs (i + 1)
    .ok (y :: ys)

def mapList (f : List YamlValue → Except ConfigError (List YamlValue)) :
    YamlValue → Except ConfigError YamlValue
  | .list xs => do
    let ys ← f xs
    .ok (.list ys)
  | v => .ok v

def resolveMoved (firstPass : String → Items → Except ConfigError Items) (fields : Fields)
    (external : Option Items) (place : String) : YamlValue → Except ConfigError YamlValue
  | .dict items => do
    let moved ← resolveAliases items fields place
    let resolved ← resolveWith (firstPass place) moved fields [] place external
    .ok (.dict resolved)
  | _ => .error ⟨place, .wrongType .object⟩

mutual

def resolveValue (external : Option Items) :
    Descriptor → String → YamlValue → Except ConfigError YamlValue
  | .object rules properties, place, v => do
    checkValue (.object rules properties) place v
    resolveMoved (fun place items => resolveFields external properties items [] place) properties
      external place v
  | .array rules (.object itemRules properties), place, v => do
    checkValue (.array rules (.object itemRules properties)) place v
    mapList (fun xs => mapEach (fun place x => resolveMoved
      (fun place items => resolveFields external properties items [] place) properties
        external place x) place xs 0) v
  | d, place, v => do
    checkValue d place v
    .ok v

/-- The first pass of `_resolve_mapping`. -/
def resolveFields (external : Option Items) :
    Fields → Items → List String → String → Except ConfigError Items
  | [], _, _, _ => .ok []
  | (key, d) :: rest, document, inactive, context => do
    if key ∈ inactive then resolveFields external rest document inactive context
    else
      match ← fieldSource document external key d (join context key) with
      | none => resolveFields external rest document inactive context
      | some (place, v) => do
        let r ← resolveValue external d place v
        let rs ← resolveFields external rest document inactive context
        .ok ((some key, r) :: rs)

end

def resolveMapping (document : Items) (fields : Fields) (context : String)
    (external : Option Items) (inactive : List String) : Except ConfigError Items :=
  resolveWith (fun document => resolveFields external fields document inactive context) document
    fields inactive context external

/-! ### The document -/

def requireExternal (schema : ValidatedSchema) (context : String) (external : Option Items) :
    Except ConfigError Unit :=
  let needs := schema.fields.filter fun field =>
    field.2.rules.fallbackFrom.isSome || field.2.rules.mustBeSubsetOf.isSome
  if external.isSome = true ∨ needs = [] then .ok ()
  else .error ⟨context, .needsExternal (needs.map Prod.fst)⟩

def isPresent (document : Items) (group : List String) : Bool :=
  group.all fun name => (find? document (some name)).isSome

/-- The fields of the groups that were not chosen. -/
def rejected (groups : List (List String)) (chosen : List String) : List String :=
  groups.flatten.filter fun name => decide (name ∉ chosen)

/-- The fields `_check_groups` makes inactive. -/
def checkExactlyOne (document : Items) (context : String) :
    Option (List (List String)) → Except ConfigError (List String)
  | none => .ok []
  | some groups =>
    match groups.filter (isPresent document) with
    | [chosen] =>
      let strays := (rejected groups chosen).filter fun name =>
        (find? document (some name)).isSome
      if strays = [] then .ok (rejected groups chosen) else .error ⟨context, .strays strays⟩
    | satisfied => .error ⟨context, .notExactlyOne satisfied.length⟩

def checkGroups (document : Items) (schema : ValidatedSchema) (context : String) :
    Except ConfigError (List String) := do
  let inactive ← checkExactlyOne document context schema.exactlyOneOf
  if schema.atLeastOneOf.any (fun groups => !groups.any (isPresent document)) = true then
    .error ⟨context, .noneOf⟩
  else .ok inactive

def validateDocument (document : YamlValue) (schema : ValidatedSchema) (context : String)
    (external : Option Items) : Except ConfigError YamlValue :=
  match document with
  | .dict items => do
    requireExternal schema context external
    let moved ← resolveAliases items schema.fields context
    let inactive ← checkGroups moved schema context
    let resolved ← resolveMapping moved schema.fields context external inactive
    .ok (.dict resolved)
  | _ => .error ⟨context, .wrongType .object⟩

end OriRuntime.ConfigSchema
