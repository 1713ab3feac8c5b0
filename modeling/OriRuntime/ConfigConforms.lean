import OriRuntime.ConfigLevels

/-!
# A resolved configuration conforms

What a resolved value is at each depth, and what it carries of the value that was written. An array
whose items are not objects is checked and not resolved.
-/

namespace OriRuntime.ConfigSchema

open List Option

open Execution

/-! ### What conforms -/

inductive Checked : Descriptor → YamlValue → Prop
  | scalar {type : ValueType} {rules : FieldRules} {v : YamlValue} (fits : Fits type rules v) :
    Checked (.scalar type rules) v
  | deprecated {type : ValueType} {path : List String} {v : YamlValue} (fits : Fits type {} v) :
    Checked (.aliasFor type path) v
  | object {rules : FieldRules} {properties : Fields} {items : Items}
    (fits : Fits .object rules (.dict items))
    (declared : ∀ item ∈ items, ∃ key d, item.1 = some key ∧ (key, d) ∈ properties)
    (present : ∀ key d v, (key, d) ∈ properties → find? items (some key) = some v → Checked d v)
    (required : ∀ key d, (key, d) ∈ properties → find? items (some key) = none →
      d.rules.required = false) : Checked (.object rules properties) (.dict items)
  | array {rules : FieldRules} {items : Descriptor} {xs : List YamlValue}
    (fits : Fits .array rules (.list xs)) (each : ∀ x ∈ xs, Checked items x) :
    Checked (.array rules items) (.list xs)

/-- The value is a mapping, or a list of mappings. -/
def Descriptor.holdsMappings : Descriptor → Bool
  | .object _ _ | .array _ (.object _ _) => true
  | _ => false

mutual

/-- A resolved value. -/
inductive Conforms (external : Option Items) : Descriptor → YamlValue → Prop
  | checked {d : Descriptor} {v : YamlValue} (hd : d.holdsMappings = false) (h : Checked d v) :
    Conforms external d v
  | object {rules : FieldRules} {properties : Fields} {items : Items}
    (h : ConformsMapping external properties [] items) :
    Conforms external (.object rules properties) (.dict items)
  | objects {rules itemRules : FieldRules} {properties : Fields} {xs : List YamlValue}
    (each : ∀ x ∈ xs, Conforms external (.object itemRules properties) x) :
    Conforms external (.array rules (.object itemRules properties)) (.list xs)

/-- A resolved mapping, with the fields that are inactive in it. -/
inductive ConformsMapping (external : Option Items) : Fields → List String → Items → Prop
  | intro {fields : Fields} {inactive : List String} {items : Items}
    (declared : ∀ item ∈ items, ∃ key d, item.1 = some key ∧ (key, d) ∈ fields ∧
      d.deprecated = false ∧ key ∉ inactive)
    (present : ∀ key d v, (key, d) ∈ fields → find? items (some key) = some v →
      Conforms external d v)
    (included : ∀ key d path v, (key, d) ∈ fields → d.rules.mustBeSubsetOf = some path →
      find? items (some key) = some v → IncludedIn external path v)
    (absent : ∀ key d, (key, d) ∈ fields → key ∉ inactive → find? items (some key) = none →
      MayBeAbsent items d.rules ∧ d.rules.fallbackFrom = none ∧ d.rules.defaultsTo = none) :
    ConformsMapping external fields inactive items

end

/-- The value a field takes: written, or inherited, or else its default. -/
def effective? (external : Option Items) (document : Items) (key : String) (rules : FieldRules) :
    Option YamlValue :=
  match find? document (some key) with
  | some v => some v
  | none =>
    match rules.fallbackFrom with
    | some path => external.bind (fun external => pathValue (.dict external) path)
    | none => rules.defaultsTo

mutual

/-- A value as written, and what it is resolved to. -/
inductive Carries (external : Option Items) : Descriptor → YamlValue → YamlValue → Prop
  | same {d : Descriptor} {v : YamlValue} (hd : d.holdsMappings = false) : Carries external d v v
  | object {rules : FieldRules} {properties : Fields} {written moved items : Items}
    {context : String} (checked : Checked (.object rules properties) (.dict written))
    (hmoved : resolveAliases written properties context = .ok moved)
    (h : CarriesMapping external properties [] moved items) :
    Carries external (.object rules properties) (.dict written) (.dict items)
  | objects {rules itemRules : FieldRules} {properties : Fields} {xs ys : List YamlValue}
    (checked : Checked (.array rules (.object itemRules properties)) (.list xs))
    (length : xs.length = ys.length)
    (each : ∀ (i : ℕ) x y, xs[i]? = some x → ys[i]? = some y →
      Carries external (.object itemRules properties) x y) :
    Carries external (.array rules (.object itemRules properties)) (.list xs) (.list ys)

inductive CarriesMapping (external : Option Items) : Fields → List String → Items → Items → Prop
  | intro {fields : Fields} {inactive : List String} {document items : Items}
    (present : ∀ key d, (key, d) ∈ fields → key ∉ inactive →
      ((find? items (some key)).isSome = true ↔
        (effective? external document key d.rules).isSome = true))
    (carried : ∀ key d v r, (key, d) ∈ fields → key ∉ inactive →
      effective? external document key d.rules = some v → find? items (some key) = some r →
        Carries external d v r) :
    CarriesMapping external fields inactive document items

end

/-! ### Checked values -/

theorem checked_of_admits (d : Descriptor) : ∀ v, Admits d v → Checked d v := by
  induction d using Descriptor.induct with
  | aliasFor type path =>
    intro v h
    obtain ⟨⟨⟩, ho, -⟩ := bind_eq_ok_iff.mp h
    exact .deprecated (fits_iff.mp ho)
  | scalar type rules => exact fun v h => .scalar (admits_scalar_iff.mp h)
  | object rules properties ih =>
    intro v h
    obtain ⟨hfits, items, rfl, hd, hf⟩ := admits_object_iff.mp h
    exact .object hfits hd (fun key d v hm hv => ih (key, d) hm v ((hf key d hm).1 v hv))
      (fun key d hm => (hf key d hm).2)
  | array rules items ih =>
    intro v h
    obtain ⟨hfits, xs, rfl, ha⟩ := admits_array_iff.mp h
    exact .array hfits fun x hx => ih x (ha x hx)

/-! ### The first pass -/

/-- What the first pass makes of one field. -/
def FieldResolved (external : Option Items) (document resolved : Items) (key : String)
    (d : Descriptor) : Prop :=
  (effective? external document key d.rules = none ∧ find? resolved (some key) = none ∧
      d.rules.fallbackFrom = none ∧ d.rules.defaultsTo = none) ∨
    ∃ place v r, effective? external document key d.rules = some v ∧
      resolveValue external d place v = .ok r ∧ find? resolved (some key) = some r

variable {d : Descriptor} {items document : Items} {external : Option Items}
  {place context : String} {r v : YamlValue} {fields properties : Fields} {inactive : List String}

variable {key : String} {f : String → YamlValue → Except ConfigError YamlValue} {i : ℕ}
  {xs : List YamlValue} {rules : FieldRules}

theorem fieldSource_none (h : fieldSource document external key d place = .ok none) :
    effective? external document key d.rules = none ∧ d.rules.fallbackFrom = none ∧
      d.rules.defaultsTo = none := by
  unfold fieldSource at h
  unfold effective?
  cases hw : find? document (some key) with
  | some v =>
    rw [hw] at h
    cases h
  | none =>
    rw [hw] at h
    cases hf : d.rules.fallbackFrom with
    | some path =>
      rw [hf] at h
      obtain ⟨inherited, -, h⟩ := bind_eq_ok_iff.mp h
      cases h
    | none =>
      rw [hf] at h
      have hd := map_eq_none_iff.mp (Except.ok.inj h)
      exact ⟨hd, rfl, hd⟩

theorem fieldSource_some {source : String}
    (h : fieldSource document external key d place = .ok (some (source, v))) :
    effective? external document key d.rules = some v := by
  unfold fieldSource at h
  unfold effective?
  cases hr : find? document (some key) with
  | some w =>
    rw [hr] at h
    obtain ⟨-, rfl⟩ := Prod.mk.inj (some.inj (Except.ok.inj h))
    rfl
  | none =>
    rw [hr] at h
    cases ha : d.rules.fallbackFrom with
    | some path =>
      rw [ha] at h
      obtain ⟨inherited, hpath, h⟩ := bind_eq_ok_iff.mp h
      obtain ⟨-, rfl⟩ := Prod.mk.inj (some.inj (Except.ok.inj h))
      unfold resolvePath at hpath
      split at hpath
      · cases hpath
      rename_i w hf
      exact hf.trans (congrArg some (Except.ok.inj hpath))
    | none =>
      rw [ha] at h
      obtain ⟨w, hw, hp⟩ := map_eq_some_iff.mp (Except.ok.inj h)
      obtain ⟨-, rfl⟩ := Prod.mk.inj hp
      exact hw

theorem resolveValue_other_iff (hd : d.holdsMappings = false) :
    resolveValue external d place v = .ok r ↔ Admits d v ∧ r = v := by
  have heq : resolveValue external d place v = checkValue d place v >>= fun _ => .ok v := by
    rw [resolveValue]
    · rintro rules properties rfl
      cases hd
    · rintro rules itemRules properties rfl
      cases hd
  rw [heq, bind_eq_ok_iff]
  constructor
  · rintro ⟨⟨⟩, hc, h⟩
    exact ⟨admits_of_checkValue hc, (Except.ok.inj h).symm⟩
  · rintro ⟨ha, rfl⟩
    exact ⟨(), ha.checkValue place, rfl⟩

def ordered (fields : Fields) (items : Items) : Items :=
  fields.filterMap fun field => (find? items (some field.1)).map fun v => (some field.1, v)

structure FirstPass (external : Option Items) (fields : Fields) (inactive : List String)
    (document resolved : Items) : Prop where
  keys : ∀ item ∈ resolved, ∃ key d, item.1 = some key ∧ (key, d) ∈ fields ∧ key ∉ inactive
  each : ∀ key d, (key, d) ∈ fields → key ∉ inactive →
    FieldResolved external document resolved key d
  order : resolved = ordered fields resolved

theorem ordered_congr {items' : Items}
    (h : ∀ key d, (key, d) ∈ fields → find? items (some key) = find? items' (some key)) :
    ordered fields items = ordered fields items' := by
  apply filterMap_congr
  intro field hm
  rw [h field.1 field.2 hm]

theorem resolveFields_firstPass {resolved : Items} (hd : (fields.map Prod.fst).Nodup)
    (h : resolveFields external fields document inactive context = .ok resolved) :
    FirstPass external fields inactive document resolved := by
  induction fields generalizing resolved with
  | nil =>
    cases h
    exact ⟨fun _ h => absurd h not_mem_nil, fun _ _ h => absurd h not_mem_nil, rfl⟩
  | cons field rest ih =>
    obtain ⟨name, e⟩ := field
    obtain ⟨hnm, hrest⟩ := nodup_cons.mp hd
    have ho : ∀ key d, (key, d) ∈ rest → name ≠ key := by
      rintro key d hm rfl
      exact hnm (mem_map.mpr ⟨_, hm, rfl⟩)
    -- A field that is skipped leaves nothing under its name.
    have hsk : ∀ {rs}, FirstPass external rest inactive document rs →
        (name ∈ inactive ∨ fieldSource document external name e (join context name) = .ok none) →
        FirstPass external ((name, e) :: rest) inactive document rs := by
      intro rs hrs hw
      have hb : find? rs (some name) = none := by
        rw [find?_eq_none_iff]
        intro v hm
        obtain ⟨key, d, hk, hf, -⟩ := hrs.keys _ hm
        exact ho key d hf (some.inj hk)
      refine ⟨fun item hm => ?_, fun key d hm ha => ?_, ?_⟩
      · obtain ⟨key, d, hk, hf, ha⟩ := hrs.keys item hm
        exact ⟨key, d, hk, mem_cons_of_mem _ hf, ha⟩
      · rcases mem_cons.mp hm with heq | hm
        · obtain ⟨rfl, rfl⟩ := Prod.mk.inj heq
          have hn := fieldSource_none (hw.resolve_left ha)
          exact .inl ⟨hn.1, hb, hn.2⟩
        · exact hrs.each key d hm ha
      · unfold ordered
        rw [filterMap_cons, hb]
        exact hrs.order
    rw [resolveFields] at h
    split_ifs at h with hi
    · exact hsk (ih hrest h) (.inl hi)
    obtain ⟨source, hs, h⟩ := bind_eq_ok_iff.mp h
    cases source with
    | none => exact hsk (ih hrest h) (.inr hs)
    | some pair =>
      obtain ⟨place, v⟩ := pair
      obtain ⟨r, hr, h⟩ := bind_eq_ok_iff.mp h
      obtain ⟨rs, hrs, h⟩ := bind_eq_ok_iff.mp h
      cases h
      have hrs := ih hrest hrs
      have hsm : ∀ key d, (key, d) ∈ rest →
          find? ((some name, r) :: rs) (some key) = find? rs (some key) :=
        fun key d hm => find?_cons_of_ne (fun heq => ho key d hm (some.inj heq)) r rs
      refine ⟨fun item hm => ?_, fun key d hm ha => ?_, ?_⟩
      · rcases mem_cons.mp hm with rfl | hm
        · exact ⟨name, e, rfl, mem_cons_self, hi⟩
        · obtain ⟨key, d, hk, hf, ha⟩ := hrs.keys item hm
          exact ⟨key, d, hk, mem_cons_of_mem _ hf, ha⟩
      · rcases mem_cons.mp hm with heq | hm
        · obtain ⟨rfl, rfl⟩ := Prod.mk.inj heq
          exact .inr ⟨place, v, r, fieldSource_some hs, hr, find?_cons_self _ _ _⟩
        · unfold FieldResolved
          rw [hsm key d hm]
          exact hrs.each key d hm ha
      · unfold ordered
        rw [filterMap_cons, find?_cons_self]
        exact congrArg _ (hrs.order.trans (ordered_congr hsm).symm)

/-! ### One mapping -/

theorem resolveMapping_ok_iff :
    resolveMapping document fields context external inactive = .ok items ↔
      (∀ item ∈ document, ∃ key d, item.1 = some key ∧ (key, d) ∈ fields) ∧
      resolveFields external fields document inactive context = .ok items ∧
      (∀ key d, (key, d) ∈ fields → key ∉ inactive → find? items (some key) = none →
        MayBeAbsent items d.rules) ∧
      ∀ key d, (key, d) ∈ fields → key ∉ inactive → ∀ path v,
        d.rules.mustBeSubsetOf = some path → find? items (some key) = some v →
          IncludedIn external path v := by
  unfold resolveMapping resolveWith
  rw [bind_eq_ok_iff]
  constructor
  · rintro ⟨⟨⟩, hd, h⟩
    obtain ⟨resolved, hf, h⟩ := bind_eq_ok_iff.mp h
    obtain ⟨⟨⟩, hr, h⟩ := bind_eq_ok_iff.mp h
    obtain ⟨⟨⟩, hs, h⟩ := bind_eq_ok_iff.mp h
    cases h
    exact ⟨checkDeclared_ok_iff.mp hd, hf,
      fun key d hm => checkRequirement_ok_iff.mp (forFields_ok_iff.mp hr key d hm),
      fun key d hm => checkSubsetOf_ok_iff.mp (forFields_ok_iff.mp hs key d hm)⟩
  · rintro ⟨hd, hf, hr, hs⟩
    refine ⟨(), checkDeclared_ok_iff.mpr hd, bind_eq_ok_iff.mpr ⟨items, hf,
      bind_eq_ok_iff.mpr ⟨(), ?_, bind_eq_ok_iff.mpr ⟨(), ?_, rfl⟩⟩⟩⟩
    · exact forFields_ok_iff.mpr fun key d hm => checkRequirement_ok_iff.mpr (hr key d hm)
    · exact forFields_ok_iff.mpr fun key d hm => checkSubsetOf_ok_iff.mpr (hs key d hm)

theorem resolveMapping_sound (hn : (fields.map Prod.fst).Nodup) (hc : Canonical fields document)
    (ih : ∀ field ∈ fields, ∀ place v r, resolveValue external field.2 place v = .ok r →
      Conforms external field.2 r ∧ Carries external field.2 v r)
    (h : resolveMapping document fields context external inactive = .ok items) :
    ConformsMapping external fields inactive items ∧
      CarriesMapping external fields inactive document items := by
  obtain ⟨-, hl, hre, hu⟩ := resolveMapping_ok_iff.mp h
  have hpass := resolveFields_firstPass hn hl
  have hac : ∀ {key v}, find? items (some key) = some v → key ∉ inactive := by
    intro key v hv
    obtain ⟨key', d, hk, -, hac⟩ := hpass.keys _ (find?_mem hv)
    cases hk
    exact hac
  constructor
  · refine .intro (fun item hm => ?_) (fun key d v hm hv => ?_)
      (fun key d path v hm hpath hv => hu key d hm (hac hv) path v hpath hv)
      fun key d hm hk ha => ?_
    · obtain ⟨key, d, hk, hf, hac⟩ := hpass.keys item hm
      refine ⟨key, d, hk, hf, ?_, hac⟩
      cases d with
      | aliasFor type path =>
        -- Nothing was written under a deprecated key, and nothing is inherited there.
        exfalso
        have heffe : effective? external document key (Descriptor.aliasFor type path).rules =
            none := by
          unfold effective?
          rw [hc key type path hf]
          rfl
        rcases hpass.each key _ hf hac with ⟨-, ha, -⟩ | ⟨_, v, _, hv, _⟩
        · exact find?_eq_none_iff.mp ha item.2 (hk ▸ hm)
        · exact absurd (heffe.symm.trans hv) nofun
      | _ => rfl
    · rcases hpass.each key d hm (hac hv) with ⟨-, ha, -⟩ | ⟨place, w, r, -, hr, hd⟩
      · exact absurd (ha.symm.trans hv) nofun
      · obtain rfl := mem_unique hd hv
        exact (ih (key, d) hm place w r hr).1
    · rcases hpass.each key d hm hk with ⟨-, -, ho⟩ | ⟨_, _, r, -, -, hd⟩
      · exact ⟨hre key d hm hk ha, ho⟩
      · exact absurd (ha.symm.trans hd) nofun
  · refine .intro (fun key d hm hk => ?_) fun key d v r hm hk hv hr => ?_
    · rcases hpass.each key d hm hk with ⟨he, ha, -⟩ | ⟨_, v, r, he, -, hd⟩
      · rw [he, ha]
      · rw [he, hd]
        exact ⟨fun _ => rfl, fun _ => rfl⟩
    · rcases hpass.each key d hm hk with ⟨he, -⟩ | ⟨place, w, s, he, hs, hd⟩
      · exact absurd (he.symm.trans hv) nofun
      obtain rfl := mem_unique he hv
      obtain rfl := mem_unique hd hr
      exact (ih (key, d) hm place w s hs).2

/-! ### Every depth -/

@[elab_as_elim]
theorem Descriptor.inductMappings {P : Descriptor → Prop}
    (object : ∀ rules properties, (∀ field ∈ properties, P field.2) → P (.object rules properties))
    (objects : ∀ rules itemRules properties, (∀ field ∈ properties, P field.2) →
      P (.array rules (.object itemRules properties)))
    (other : ∀ d, d.holdsMappings = false → P d) (d : Descriptor) : P d := by
  have hboth : P d ∧ ∀ rules properties, d = .object rules properties →
      ∀ field ∈ properties, P field.2 := by
    induction d using Descriptor.induct with
    | aliasFor type path | scalar type rules => exact ⟨other _ rfl, fun _ _ h => (nomatch h)⟩
    | object rules properties ih =>
      refine ⟨object _ _ fun field hm => (ih field hm).1, fun _ _ h => ?_⟩
      obtain ⟨-, rfl⟩ := Descriptor.object.inj h
      exact fun field hm => (ih field hm).1
    | array rules items ih =>
      refine ⟨?_, fun _ _ h => (nomatch h)⟩
      cases items with
      | object itemRules properties => exact objects _ _ _ (ih.2 itemRules properties rfl)
      | _ => exact other _ rfl
  exact hboth.1

mutual

/-- The aliases of each mapping that is resolved name fields that are not deprecated. -/
def Descriptor.AliasesSound : Descriptor → Prop
  | .object _ properties =>
    ConfigSchema.AliasesSound properties ∧ FieldsSound properties
  | .array _ (.object _ properties) =>
    ConfigSchema.AliasesSound properties ∧ FieldsSound properties
  | _ => True

def FieldsSound : Fields → Prop
  | [] => True
  | (_, d) :: rest => d.AliasesSound ∧ FieldsSound rest

end

theorem FieldsSound.mem (h : FieldsSound fields) {field : String × Descriptor}
    (hm : field ∈ fields) : field.2.AliasesSound := by
  induction fields with
  | nil => cases hm
  | cons first rest ih =>
    rcases mem_cons.mp hm with rfl | hm
    · exact h.1
    · exact ih h.2 hm

theorem resolveMoved_ok_iff :
    resolveMoved (fun place items => resolveFields external properties items [] place) properties
        external place v = .ok r ↔
      ∃ written moved items, v = .dict written ∧ r = .dict items ∧
        resolveAliases written properties place = .ok moved ∧
        resolveMapping moved properties place external [] = .ok items := by
  cases v with
  | dict written =>
    rw [resolveMoved, bind_eq_ok_iff]
    constructor
    · rintro ⟨moved, hm, h⟩
      obtain ⟨items, hi, h⟩ := bind_eq_ok_iff.mp h
      cases h
      exact ⟨written, moved, items, rfl, rfl, hm, hi⟩
    · rintro ⟨_, moved, items, hw, rfl, hm, hi⟩
      obtain rfl := YamlValue.dict.inj hw
      exact ⟨moved, hm, bind_eq_ok_iff.mpr ⟨items, hi, rfl⟩⟩
  | _ => exact ⟨nofun, fun ⟨_, _, _, h, _⟩ => (nomatch h)⟩

theorem mapEach_ok {ys : List YamlValue} (h : mapEach f place xs i = .ok ys) :
    List.Forall₂ (fun x y => ∃ p, f p x = .ok y) xs ys := by
  induction xs generalizing ys i with
  | nil =>
    cases h
    exact .nil
  | cons x xs ih =>
    obtain ⟨y, hy, h⟩ := bind_eq_ok_iff.mp h
    obtain ⟨rest, hr, h⟩ := bind_eq_ok_iff.mp h
    cases h
    exact .cons ⟨_, hy⟩ (ih hr)

theorem mapEach_same (h : ∀ x ∈ xs, ∀ p, f p x = .ok x) : mapEach f place xs i = .ok xs := by
  induction xs generalizing i with
  | nil => rfl
  | cons x xs ih =>
    obtain ⟨hx, hs⟩ := forall_mem_cons.mp h
    exact bind_eq_ok_iff.mpr ⟨x, hx _, bind_eq_ok_iff.mpr ⟨xs, ih hs, rfl⟩⟩

theorem resolveValue_object_iff : resolveValue external (.object rules properties) place v = .ok r ↔
      Admits (.object rules properties) v ∧ ∃ written moved items, v = .dict written ∧
        r = .dict items ∧ resolveAliases written properties place = .ok moved ∧
        resolveMapping moved properties place external [] = .ok items := by
  rw [resolveValue, bind_eq_ok_iff, ← resolveMoved_ok_iff]
  exact ⟨fun ⟨⟨⟩, hc, h⟩ => ⟨admits_of_checkValue hc, h⟩,
    fun ⟨ha, h⟩ => ⟨(), ha.checkValue place, h⟩⟩

theorem resolveValue_objects_iff {itemRules : FieldRules} :
    resolveValue external (.array rules (.object itemRules properties)) place v = .ok r ↔
      Admits (.array rules (.object itemRules properties)) v ∧ ∃ xs ys, v = .list xs ∧
        r = .list ys ∧ mapEach (fun place x => resolveMoved
          (fun place items => resolveFields external properties items [] place) properties
            external place x) place xs 0 = .ok ys := by
  rw [resolveValue, bind_eq_ok_iff]
  constructor
  · rintro ⟨⟨⟩, hc, h⟩
    have ha := admits_of_checkValue hc
    refine ⟨ha, ?_⟩
    obtain ⟨-, xs, rfl, -⟩ := admits_array_iff.mp ha
    obtain ⟨ys, hy, h⟩ := bind_eq_ok_iff.mp h
    exact ⟨xs, ys, rfl, (Except.ok.inj h).symm, hy⟩
  · rintro ⟨ha, xs, ys, rfl, rfl, hy⟩
    exact ⟨(), ha.checkValue place, bind_eq_ok_iff.mpr ⟨ys, hy, rfl⟩⟩

theorem resolveValue_sound (external : Option Items) (d : Descriptor) : d.distinct = true →
    d.AliasesSound → ∀ place v r, resolveValue external d place v = .ok r →
      Conforms external d r ∧ Carries external d v r := by
  have hma : ∀ {properties : Fields},
      (∀ field ∈ properties, field.2.distinct = true → field.2.AliasesSound → ∀ place v r,
        resolveValue external field.2 place v = .ok r →
          Conforms external field.2 r ∧ Carries external field.2 v r) →
      (properties.map Prod.fst).Nodup → distinctFields properties = true →
      ConfigSchema.AliasesSound properties → FieldsSound properties →
      ∀ {written moved items place}, resolveAliases written properties place = .ok moved →
        resolveMapping moved properties place external [] = .ok items →
          ConformsMapping external properties [] items ∧
            CarriesMapping external properties [] moved items := by
    intro properties ih hn hds hs hf written moved items place hm ht
    exact resolveMapping_sound hn (resolveAliases_canonical hn hs hm)
      (fun field he => ih field he (distinctFields_mem hds he) (hf.mem he))
      ht
  induction d using Descriptor.inductMappings with
  | object rules properties ih =>
    intro hds hs place v r h
    obtain ⟨hn, hds⟩ := Bool.and_eq_true_iff.mp hds
    obtain ⟨ha, written, moved, items, rfl, rfl, hm, ht⟩ := resolveValue_object_iff.mp h
    obtain ⟨hc, hca⟩ := hma ih (of_decide_eq_true hn) hds hs.1 hs.2 hm ht
    exact ⟨.object hc, .object (checked_of_admits _ _ ha) hm hca⟩
  | objects rules itemRules properties ih =>
    intro hds hs place v r h
    obtain ⟨hn, hds⟩ := Bool.and_eq_true_iff.mp hds
    obtain ⟨ha, xs, ys, rfl, rfl, hys⟩ := resolveValue_objects_iff.mp h
    obtain ⟨-, _, hxs, hea⟩ := admits_array_iff.mp ha
    obtain rfl := YamlValue.list.inj hxs
    have hal := mapEach_ok hys
    have ho : ∀ x y, x ∈ xs → (∃ p, resolveMoved
        (fun place items => resolveFields external properties items [] place) properties
          external p x = .ok y) →
        Conforms external (.object itemRules properties) y ∧
          Carries external (.object itemRules properties) x y := by
      rintro x y hx ⟨p, hp⟩
      obtain ⟨written, moved, items, rfl, rfl, hm, ht⟩ := resolveMoved_ok_iff.mp hp
      obtain ⟨hc, hca⟩ := hma ih (of_decide_eq_true hn) hds hs.1 hs.2 hm ht
      exact ⟨.object hc, .object (checked_of_admits _ _ (hea _ hx)) hm hca⟩
    constructor
    · refine .objects fun y hy => ?_
      obtain ⟨i, hi⟩ := mem_iff_getElem?.mp hy
      obtain ⟨hlt, hg⟩ := List.getElem?_eq_some_iff.mp hi
      have hx := (forall₂_iff_get.mp hal).2 i ((hal.length_eq).symm ▸ hlt) hlt
      have h := (ho _ _ (get_mem _ _) hx).1
      rw [get_eq_getElem, hg] at h
      exact h
    · refine .objects (checked_of_admits _ _ ha) hal.length_eq fun i x y hx hy => ?_
      obtain ⟨hlx, hgetx⟩ := List.getElem?_eq_some_iff.mp hx
      obtain ⟨hl, hgety⟩ := List.getElem?_eq_some_iff.mp hy
      have h := (ho _ _ (get_mem _ _) ((forall₂_iff_get.mp hal).2 i hlx hl)).2
      rw [get_eq_getElem, get_eq_getElem, hgetx, hgety] at h
      exact h
  | other d hd =>
    intro _ _ place v r h
    obtain ⟨ha, rfl⟩ := (resolveValue_other_iff hd).mp h
    exact ⟨.checked hd (checked_of_admits d r ha), .same hd⟩

end OriRuntime.ConfigSchema
