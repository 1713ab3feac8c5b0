import OriRuntime.ConfigConforms

/-!
# A resolved configuration, validated again

Where no value that holds mappings is limited to an enum, a resolved value passes the checks it was
resolved under and is resolved to itself. A declaration that is accepted decides its groups.
-/

namespace OriRuntime.ConfigSchema

open List Option

open Execution

/-! ### References -/

variable {fields : Fields} {place : String} {index : ℕ} {members : List (String × ℕ)}
  {external : Option Items} {items : Items}

variable {path group inactive : List String} {members' : List (String × ℕ)}
  {groups : List (List String)} {context : String} {rules : FieldRules}

theorem schemaPath_head {target : Descriptor} (h : schemaPath fields path = some target)
    (hd : target.deprecated = false) :
    ∃ segment rest d, path = segment :: rest ∧ field? fields segment = some d ∧
      d.deprecated = false := by
  cases path with
  | nil => cases h
  | cons segment rest =>
    cases rest with
    | nil => exact ⟨segment, [], target, rfl, h, hd⟩
    | cons next rest =>
      rw [schemaPath] at h
      · cases hf : field? fields segment with
        | none =>
          rw [hf] at h
          cases h
        | some d =>
          rw [hf] at h
          cases d with
          | object rules properties => exact ⟨segment, _, _, rfl, hf, rfl⟩
          | _ => cases h
      · exact nofun

theorem validateReferences_alias {type : ValueType}
    (h : validateReferences (.aliasFor type path) fields place = .ok ()) :
    ∃ segment rest d, path = segment :: rest ∧ field? fields segment = some d ∧
      d.deprecated = false := by
  unfold validateReferences at h
  cases ht : schemaPath fields path with
  | none =>
    simp only [ht] at h
    cases h
  | some target =>
    simp only [ht] at h
    cases hd : target.deprecated with
    | true =>
      rw [if_pos hd] at h
      cases h
    | false => exact schemaPath_head ht hd

theorem validateReferencesIn_mem {rest : Fields}
    (h : validateReferencesIn rest fields place = .ok ()) : ∀ field ∈ rest,
      ∃ p, validateReferencesOf field.2 fields p = .ok () := by
  induction rest with
  | nil => exact fun _ h => absurd h not_mem_nil
  | cons field rest ih =>
    obtain ⟨⟨⟩, hf, hr⟩ := bind_eq_ok_iff.mp h
    exact forall_mem_cons.mpr ⟨⟨_, hf⟩, ih hr⟩

theorem aliasesSound_of_validated
    (ih : ∀ field ∈ fields, ∀ siblings p, validateReferencesOf field.2 siblings p = .ok () →
      field.2.AliasesSound) (h : validateReferencesIn fields fields place = .ok ()) :
    AliasesSound fields ∧ FieldsSound fields := by
  have ha := validateReferencesIn_mem h
  constructor
  · intro key type path hm
    obtain ⟨p, hp⟩ := ha _ hm
    rw [validateReferencesOf] at hp
    · exact validateReferences_alias hp
    · intro rules properties h
      cases h
    · intro rules itemRules properties h
      cases h
    · intro rules type path h
      cases h
  · have hl : ∀ rest : Fields, (∀ field ∈ rest, field.2.AliasesSound) → FieldsSound rest := by
      intro rest hr
      induction rest with
      | nil => rw [FieldsSound]; trivial
      | cons field rest ih =>
        obtain ⟨hf, hr⟩ := forall_mem_cons.mp hr
        exact ⟨hf, ih hr⟩
    exact hl fields fun field hm => by
      obtain ⟨p, hp⟩ := ha field hm
      exact ih field hm fields p hp

theorem validateReferencesOf_sound (d : Descriptor) : ∀ siblings place,
    validateReferencesOf d siblings place = .ok () → d.AliasesSound := by
  induction d using Descriptor.inductMappings with
  | object rules properties ih | objects rules itemRules properties ih =>
    intro siblings place h
    obtain ⟨⟨⟩, -, h⟩ := bind_eq_ok_iff.mp h
    obtain ⟨⟨⟩, -, h⟩ := bind_eq_ok_iff.mp h
    exact aliasesSound_of_validated ih h
  | other d hd =>
    intro _ _ _
    rw [Descriptor.AliasesSound]
    · trivial
    · rintro rules properties rfl
      cases hd
    · rintro rules itemRules properties rfl
      cases hd

/-! ### Groups -/

theorem validateGroup_keeps (h : validateGroup fields place index group members = .ok members') :
    ∀ m ∈ members, m ∈ members' := by
  induction group generalizing members with
  | nil =>
    cases h
    exact fun _ hm => hm
  | cons name rest ih =>
    rw [validateGroup] at h
    split_ifs at h
    exact fun m hm => ih h m (mem_cons_of_mem _ hm)

theorem validateGroup_ok (h : validateGroup fields place index group members = .ok members') :
    (∀ m ∈ members, m.1 ∈ group → m.2 = index) ∧ (∀ name ∈ group, (name, index) ∈ members') ∧
      ∀ m ∈ members', m ∈ members ∨ m.2 = index := by
  induction group generalizing members with
  | nil =>
    cases h
    exact ⟨fun _ _ h => absurd h not_mem_nil, fun _ h => absurd h not_mem_nil, fun _ h => .inl h⟩
  | cons name rest ih =>
    rw [validateGroup] at h
    split_ifs at h with hd ht
    obtain ⟨hold, hn, ha⟩ := ih h
    refine ⟨fun m hm hnm => ?_, fun other ho => ?_, fun m hm => ?_⟩
    · rcases mem_cons.mp hnm with heq | hr
      · by_contra hne
        exact ht (any_eq_true.mpr ⟨m, hm, decide_eq_true ⟨heq, hne⟩⟩)
      · exact hold m (mem_cons_of_mem _ hm) hr
    · rcases mem_cons.mp ho with rfl | hr
      · exact validateGroup_keeps h _ mem_cons_self
      · exact hn other hr
    · rcases ha m hm with he | hi
      · rcases mem_cons.mp he with rfl | he
        · exact .inr rfl
        · exact .inl he
      · exact .inr hi

/-- No field is in two groups. -/
def Apart (group other : List String) : Prop := ∀ name ∈ group, name ∉ other

theorem validateGroups_apart (hmemb : ∀ m ∈ members, m.2 < index)
    (h : validateGroups fields place groups index members = .ok ()) :
    groups.Pairwise Apart ∧ ∀ group ∈ groups, group ≠ [] ∧ ∀ m ∈ members, m.1 ∉ group := by
  induction groups generalizing index members with
  | nil => exact ⟨.nil, fun _ h => absurd h not_mem_nil⟩
  | cons group rest ih =>
    cases group with
    | nil => cases h
    | cons name tail =>
      rw [validateGroups] at h
      · obtain ⟨members', hg, h⟩ := bind_eq_ok_iff.mp h
        obtain ⟨hold, hn, ha⟩ := validateGroup_ok hg
        have hl : ∀ m ∈ members', m.2 < index + 1 := fun m hm => by
          rcases ha m hm with he | hi
          · exact Nat.lt_succ_of_lt (hmemb m he)
          · rw [hi]
            exact Nat.lt_succ_self index
        obtain ⟨hp, hr⟩ := ih hl h
        refine ⟨.cons (fun other ho x hx => ?_) hp,
          forall_mem_cons.mpr ⟨⟨cons_ne_nil _ _, fun m hm hin => ?_⟩,
            fun other ho => ⟨(hr other ho).1, fun m hm hin => ?_⟩⟩⟩
        · exact (hr other ho).2 (x, index) (hn x hx)
        · exact absurd (hold m hm hin) (Nat.ne_of_lt (hmemb m hm))
        · exact (hr other ho).2 m (validateGroup_keeps hg m hm) hin
      · exact nofun

instance : Std.Symm Apart := ⟨fun _ _ h name hname hother => h name hother hname⟩

theorem validateConstraint_apart (h : validateConstraint fields place (some groups) = .ok ()) :
    (∀ group ∈ groups, group ≠ []) ∧
      ∀ group ∈ groups, ∀ other ∈ groups, group ≠ other → Apart group other := by
  cases groups with
  | nil => cases h
  | cons group rest =>
    rw [validateConstraint] at h
    · obtain ⟨hp, ha⟩ := validateGroups_apart (fun _ hm => absurd hm not_mem_nil) h
      exact ⟨fun g hg => (ha g hg).1, fun g hg o ho hn => hp.forall hg ho hn⟩
    · exact nofun

theorem validateSchema_ok {schema : Declaration} {name : String} {validated : ValidatedSchema}
    (h : validateSchema schema name = .ok validated) : validated.toDeclaration = schema ∧
      validateConstraint schema.fields name schema.exactlyOneOf = .ok () ∧
      AliasesSound schema.fields ∧ FieldsSound schema.fields := by
  obtain ⟨⟨⟩, -, h⟩ := bind_eq_ok_iff.mp h
  obtain ⟨⟨⟩, hg, h⟩ := bind_eq_ok_iff.mp h
  obtain ⟨⟨⟩, -, h⟩ := bind_eq_ok_iff.mp h
  obtain ⟨⟨⟩, -, h⟩ := bind_eq_ok_iff.mp h
  obtain ⟨⟨⟩, hr, h⟩ := bind_eq_ok_iff.mp h
  cases h
  exact ⟨rfl, hg, aliasesSound_of_validated
    (fun field _ siblings p => validateReferencesOf_sound field.2 siblings p) hr⟩

/-! ### The same mapping again -/

mutual

/-- No value that holds mappings is limited to an enum. -/
def Descriptor.plainEnums : Descriptor → Bool
  | .object rules properties => rules.enum.isNone && plainFields properties
  | .array rules (.object itemRules properties) =>
    rules.enum.isNone && itemRules.enum.isNone && plainFields properties
  | _ => true

def plainFields : Fields → Bool
  | [] => true
  | (_, d) :: rest => d.plainEnums && plainFields rest

end

theorem plainFields_mem (h : plainFields fields = true) {field : String × Descriptor}
    (hm : field ∈ fields) : field.2.plainEnums = true := by
  induction fields with
  | nil => cases hm
  | cons first rest ih =>
    obtain ⟨hf, hr⟩ := Bool.and_eq_true_iff.mp h
    rcases mem_cons.mp hm with rfl | hm
    · exact hf
    · exact ih hr hm

theorem resolveFields_same
    (hi : ∀ key d, (key, d) ∈ fields → key ∈ inactive → find? items (some key) = none)
    (hp : ∀ key d r, (key, d) ∈ fields → find? items (some key) = some r →
      ∀ p, resolveValue external d p r = .ok r)
    (hb : ∀ key d, (key, d) ∈ fields → key ∉ inactive → find? items (some key) = none →
      d.rules.fallbackFrom = none ∧ d.rules.defaultsTo = none) :
    resolveFields external fields items inactive context = .ok (ordered fields items) := by
  induction fields with
  | nil => rw [resolveFields]; rfl
  | cons field rest ih =>
    obtain ⟨name, e⟩ := field
    have hs := ih (fun key d hm => hi key d (mem_cons_of_mem _ hm))
      (fun key d r hm => hp key d r (mem_cons_of_mem _ hm))
      (fun key d hm => hb key d (mem_cons_of_mem _ hm))
    rw [resolveFields]
    unfold ordered at hs ⊢
    rw [filterMap_cons]
    split_ifs with ha
    · rw [hi name e mem_cons_self ha]
      exact hs
    · unfold fieldSource
      cases hfd : find? items (some name) with
      | none =>
        obtain ⟨hf, hd⟩ := hb name e mem_cons_self ha hfd
        rw [hf, hd]
        exact hs
      | some r =>
        have hr := hp name e r mem_cons_self hfd (join context name)
        exact bind_eq_ok_iff.mpr ⟨_, rfl, bind_eq_ok_iff.mpr ⟨r, hr,
          bind_eq_ok_iff.mpr ⟨_, hs, rfl⟩⟩⟩

theorem resolveMapping_again {document : Items} (hn : (fields.map Prod.fst).Nodup)
    (hc : Canonical fields document)
    (ih : ∀ field ∈ fields, ∀ place v r, resolveValue external field.2 place v = .ok r →
      ∀ p, resolveValue external field.2 p r = .ok r)
    (h : resolveMapping document fields context external inactive = .ok items) :
    Canonical fields items ∧ ∀ p, resolveMapping items fields p external inactive = .ok items := by
  obtain ⟨-, hf, he, hu⟩ := resolveMapping_ok_iff.mp h
  have hpass := resolveFields_firstPass hn hf
  have hi : ∀ key, key ∈ inactive → find? items (some key) = none := by
    intro key hk
    rw [find?_eq_none_iff]
    intro v hm
    obtain ⟨other, d, ho, -, hac⟩ := hpass.keys _ hm
    cases ho
    exact hac hk
  refine ⟨fun key type path hm => ?_, fun p => resolveMapping_ok_iff.mpr
    ⟨fun item hm => ?_, ?_, he, hu⟩⟩
  · by_cases hk : key ∈ inactive
    · exact hi key hk
    rcases hpass.each key _ hm hk with ⟨-, ha, -⟩ | ⟨_, v, _, hv, -, -⟩
    · exact ha
    unfold effective? at hv
    rw [hc key type path hm] at hv
    cases hv
  · obtain ⟨key, d, hk, hfi, -⟩ := hpass.keys item hm
    exact ⟨key, d, hk, hfi⟩
  · refine (resolveFields_same (fun key d _ => hi key) (fun key d r hm hr => ?_)
      fun key d hm hk ha => ?_).trans (congrArg _ hpass.order.symm)
    · have hk : key ∉ inactive := fun hin =>
        absurd ((hi key hin).symm.trans hr) nofun
      rcases hpass.each key d hm hk with ⟨-, ha, -⟩ | ⟨place, v, s, -, hs, hd⟩
      · exact absurd (ha.symm.trans hr) nofun
      · obtain rfl := mem_unique hd hr
        exact ih (key, d) hm place v s hs
    · rcases hpass.each key d hm hk with ⟨-, -, hno⟩ | ⟨_, _, r, -, -, hd⟩
      · exact hno
      · exact absurd (ha.symm.trans hd) nofun

theorem admits_of_resolveValue {d : Descriptor} {v r : YamlValue}
    (h : resolveValue external d place v = .ok r) : Admits d v := by
  induction d using Descriptor.inductMappings with
  | object rules properties ih => exact (resolveValue_object_iff.mp h).1
  | objects rules itemRules properties ih => exact (resolveValue_objects_iff.mp h).1
  | other d hd => exact ((resolveValue_other_iff hd).mp h).1

theorem fits_dict (h : rules.enum = none) (items : Items) : Fits .object rules (.dict items) where
  admitted := rfl
  finite h := by cases h
  enum values hv := by
    rw [h] at hv
    cases hv
  minimum := by
    cases rules.minimum <;> rfl
  maximum := by
    cases rules.maximum <;> rfl

theorem fits_list (h : rules.enum = none) (xs : List YamlValue) : Fits .array rules (.list xs) where
  admitted := rfl
  finite h := by cases h
  enum values hv := by
    rw [h] at hv
    cases hv
  minimum := by
    cases rules.minimum <;> rfl
  maximum := by
    cases rules.maximum <;> rfl

theorem resolveMoved_again {properties : Fields} {written moved : Items}
    (hn : (properties.map Prod.fst).Nodup) (hs : AliasesSound properties)
    (ih : ∀ field ∈ properties, ∀ place v r, resolveValue external field.2 place v = .ok r →
      ∀ p, resolveValue external field.2 p r = .ok r)
    (hv : resolveAliases written properties place = .ok moved)
    (h : resolveMapping moved properties place external [] = .ok items) :
    (∀ p, resolveAliases items properties p = .ok items ∧
        resolveMapping items properties p external [] = .ok items) ∧
      ∀ rules : FieldRules, rules.enum = none → Admits (.object rules properties) (.dict items) := by
  obtain ⟨hc, hg⟩ := resolveMapping_again hn (resolveAliases_canonical hn hs hv) ih h
  refine ⟨fun p => ⟨resolveAliases_of_canonical hc p, hg p⟩, fun rules henum =>
    admits_object_iff.mpr ⟨fits_dict henum items, items, rfl, ?_, fun key d hm => ⟨?_, ?_⟩⟩⟩
  · exact (resolveMapping_ok_iff.mp (hg place)).1
  · intro w hw
    obtain ⟨-, hf, -, -⟩ := resolveMapping_ok_iff.mp h
    rcases (resolveFields_firstPass hn hf).each key d hm not_mem_nil with
      ⟨-, ha, -⟩ | ⟨place, v, r, -, hr, hd⟩
    · exact absurd (ha.symm.trans hw) nofun
    · obtain rfl := mem_unique hd hw
      exact admits_of_resolveValue (ih (key, d) hm place v r hr place)
  · intro ha
    exact ((resolveMapping_ok_iff.mp h).2.2.1 key d hm not_mem_nil ha).required

theorem resolveValue_again (external : Option Items) (d : Descriptor) : d.distinct = true →
    d.AliasesSound → d.plainEnums = true → ∀ place v r, resolveValue external d place v = .ok r →
      ∀ p, resolveValue external d p r = .ok r := by
  induction d using Descriptor.inductMappings with
  | object rules properties ih =>
    intro hds hs hp place v r h p
    obtain ⟨hn, hds⟩ := Bool.and_eq_true_iff.mp hds
    obtain ⟨henum, hp⟩ := Bool.and_eq_true_iff.mp hp
    obtain ⟨-, written, moved, items, rfl, rfl, hv, ht⟩ := resolveValue_object_iff.mp h
    obtain ⟨ha, had⟩ := resolveMoved_again (of_decide_eq_true hn) hs.1
      (fun field hm => ih field hm (distinctFields_mem hds hm)
        (hs.2.mem hm) (plainFields_mem hp hm)) hv ht
    exact resolveValue_object_iff.mpr ⟨had rules (isNone_iff_eq_none.mp henum), items,
      items, items, rfl, rfl, (ha p).1, (ha p).2⟩
  | objects rules itemRules properties ih =>
    intro hds hs hp place v r h p
    obtain ⟨hn, hds⟩ := Bool.and_eq_true_iff.mp hds
    obtain ⟨he, hp⟩ := Bool.and_eq_true_iff.mp hp
    obtain ⟨henum, hitemEnum⟩ := Bool.and_eq_true_iff.mp he
    obtain ⟨-, xs, ys, rfl, rfl, hys⟩ := resolveValue_objects_iff.mp h
    have hal := mapEach_ok hys
    have ho : ∀ y ∈ ys, Admits (.object itemRules properties) y ∧ ∀ q, resolveMoved
        (fun place items => resolveFields external properties items [] place) properties
          external q y = .ok y := by
      intro y hy
      obtain ⟨i, hi⟩ := mem_iff_getElem?.mp hy
      obtain ⟨hl, hg⟩ := List.getElem?_eq_some_iff.mp hi
      obtain ⟨place, hpl⟩ := (forall₂_iff_get.mp hal).2 i ((hal.length_eq).symm ▸ hl) hl
      have hy : ys.get ⟨i, hl⟩ = y := hg
      rw [hy] at hpl
      obtain ⟨written, moved, items, -, rfl, hv, ht⟩ := resolveMoved_ok_iff.mp hpl
      obtain ⟨ha, had⟩ := resolveMoved_again (of_decide_eq_true hn) hs.1
        (fun field hm => ih field hm (distinctFields_mem hds hm)
          (hs.2.mem hm) (plainFields_mem hp hm)) hv ht
      exact ⟨had itemRules (isNone_iff_eq_none.mp hitemEnum), fun q =>
        resolveMoved_ok_iff.mpr ⟨items, items, items, rfl, rfl, (ha q).1, (ha q).2⟩⟩
    exact resolveValue_objects_iff.mpr ⟨admits_array_iff.mpr
      ⟨fits_list (isNone_iff_eq_none.mp henum) ys, ys, rfl, fun y hy => (ho y hy).1⟩,
      ys, ys, rfl, rfl, mapEach_same fun y hy => (ho y hy).2⟩
  | other d hd =>
    intro _ _ _ place v r h p
    obtain ⟨had, rfl⟩ := (resolveValue_other_iff hd).mp h
    exact (resolveValue_other_iff hd).mpr ⟨had, rfl⟩

end OriRuntime.ConfigSchema
