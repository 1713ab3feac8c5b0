import OriRuntime.ConfigResolution

/-!
# One mapping, resolved

Moving aliases leaves no deprecated key. A resolved mapping lists, in the order of the declaration,
what was resolved of each field; what it requires, and what it bounds, holds of it wherever the
mapping stands.
-/

namespace OriRuntime.ConfigSchema

open List Option

open Execution

/-! ### Aliases -/

variable {key context : String} {moved document resolved : Items} {fields : Fields}

variable {v : YamlValue} {path inactive : List String} {d : Descriptor} {external : Option Items}

theorem setPath_find? {items : Items} {segment : String} {rest : List String}
    (h : setPath items (segment :: rest) v context = .ok moved) (hk : segment ≠ key) :
    find? moved (some key) = find? items (some key) := by
  cases rest with
  | nil =>
    cases h
    exact find?_setItem_of_ne hk v items
  | cons next rest =>
    rw [setPath] at h
    · cases hf : find? items (some segment) with
      | none =>
        rw [hf] at h
        obtain ⟨inner, -, h⟩ := bind_eq_ok_iff.mp h
        cases h
        exact find?_setItem_of_ne hk _ items
      | some w =>
        rw [hf] at h
        cases w with
        | dict inner =>
          obtain ⟨inner, -, h⟩ := bind_eq_ok_iff.mp h
          cases h
          exact find?_setItem_of_ne hk _ items
        | _ => cases h
    · exact nofun

/-- Every alias of the fields names a path that starts at a field that is not deprecated. -/
def AliasesSound (fields : Fields) : Prop :=
  ∀ key type path, (key, Descriptor.aliasFor type path) ∈ fields → ∃ segment rest d,
    path = segment :: rest ∧ field? fields segment = some d ∧ d.deprecated = false

theorem moveAliases_absent {all : Fields} (hnd : (all.map Prod.fst).Nodup)
    (hsn : AliasesSound all) {type : ValueType}
    (hk : (key, Descriptor.aliasFor type path) ∈ all) {origins : List (List String × String)}
    (hu : ∀ field ∈ fields, field ∈ all) (hr : find? resolved (some key) = none ∨
      ((key, Descriptor.aliasFor type path) ∈ fields ∧
        (find? document (some key) = none → find? resolved (some key) = none)))
    (h : moveAliases document context fields resolved origins = .ok moved) :
    find? moved (some key) = none := by
  induction fields generalizing resolved origins with
  | nil =>
    cases h
    exact hr.resolve_right fun hm => absurd hm.1 not_mem_nil
  | cons field rest ih =>
    obtain ⟨name, d⟩ := field
    have hrs : ∀ field ∈ rest, field ∈ all := fun field hm =>
      hu field (mem_cons_of_mem _ hm)
    have hskip : (name, d) ≠ (key, Descriptor.aliasFor type path) →
        find? resolved (some key) = none ∨ ((key, Descriptor.aliasFor type path) ∈ rest ∧
            (find? document (some key) = none → find? resolved (some key) = none)) := fun hn =>
      hr.imp id fun hm =>
        ⟨(mem_cons.mp hm.1).resolve_left fun heq => hn heq.symm, hm.2⟩
    cases d with
    | aliasFor type' path' =>
      rw [moveAliases] at h
      have hnm := hu _ mem_cons_self
      cases hw : find? document (some name) with
      | none =>
        rw [hw] at h
        refine ih hrs ?_ h
        by_cases hsm : (name, Descriptor.aliasFor type' path') =
            (key, Descriptor.aliasFor type path)
        · obtain rfl := (Prod.mk.inj hsm).1
          exact .inl (hr.elim id fun hm => hm.2 hw)
        · exact hskip hsm
      | some w =>
        rw [hw] at h
        simp only at h
        split_ifs at h with he
        · split at h
          all_goals cases h
        · obtain ⟨set, hs, h⟩ := bind_eq_ok_iff.mp h
          refine ih hrs ?_ h
          by_cases hsm : name = key
          · subst hsm
            exact .inl (find?_delItem_self name set)
          · obtain ⟨segment, tail, d, rfl, hf, hd⟩ := hsn name type' path' hnm
            have hn : segment ≠ key := by
              rintro rfl
              have ho := (field?_eq_some_iff hnd).mpr hk
              obtain rfl := mem_unique hf ho
              cases hd
            have hs' := setPath_find? hs hn
            refine (hskip fun heq => hsm (Prod.mk.inj heq).1).imp (fun hno => ?_)
              fun hm => ⟨hm.1, fun hno => ?_⟩
            · exact find?_delItem_eq_none (hs'.trans hno)
            · exact find?_delItem_eq_none (hs'.trans (hm.2 hno))
    | scalar type' rules | object rules properties | array rules items =>
      exact ih hrs (hskip fun heq => (nomatch (Prod.mk.inj heq).2)) h

/-- No deprecated key is left where aliases have been moved. -/
def Canonical (fields : Fields) (items : Items) : Prop :=
  ∀ key type path, (key, Descriptor.aliasFor type path) ∈ fields → find? items (some key) = none

theorem resolveAliases_canonical (hn : (fields.map Prod.fst).Nodup)
    (hs : AliasesSound fields) (h : resolveAliases document fields context = .ok moved) :
    Canonical fields moved :=
  fun _ _ _ hk => moveAliases_absent hn hs hk (fun _ hm => hm) (.inr ⟨hk, id⟩) h

theorem resolveAliases_of_canonical (h : Canonical fields document) (context : String) :
    resolveAliases document fields context = .ok document := by
  have ha : ∀ (rest : Fields) resolved origins, (∀ field ∈ rest, field ∈ fields) →
      moveAliases document context rest resolved origins = .ok resolved := by
    intro rest
    induction rest with
    | nil => exact fun _ _ _ => rfl
    | cons field rest ih =>
      intro resolved origins hs
      obtain ⟨name, d⟩ := field
      have hr := ih resolved origins fun field hm => hs field (mem_cons_of_mem _ hm)
      cases d with
      | aliasFor type path =>
        rw [moveAliases, h name type path (hs _ mem_cons_self)]
        exact hr
      | scalar type rules | object rules properties | array rules items => exact hr
  exact ha fields document [] fun _ hm => hm

/-! ### Requirements and bounds -/

structure MayBeAbsent (resolved : Items) (rules : FieldRules) : Prop where
  conditional : ∀ condition, rules.requiredUnless = some condition →
    conditionHolds resolved condition = true
  required : rules.required = false

theorem forFields_ok_iff {f : String → Descriptor → Except ConfigError Unit} :
    forFields f fields = .ok () ↔ ∀ key d, (key, d) ∈ fields → f key d = .ok () := by
  induction fields with
  | nil => exact ⟨fun _ _ _ h => absurd h not_mem_nil, fun _ => rfl⟩
  | cons field rest ih =>
    obtain ⟨name, e⟩ := field
    rw [forFields, bind_eq_ok_iff]
    constructor
    · rintro ⟨⟨⟩, hf, hr⟩ key d hm
      rcases mem_cons.mp hm with heq | hm
      · obtain ⟨rfl, rfl⟩ := Prod.mk.inj heq
        exact hf
      · exact ih.mp hr key d hm
    · intro h
      exact ⟨(), h name e mem_cons_self, ih.mpr fun key d hm => h key d (mem_cons_of_mem _ hm)⟩

theorem checkConditionalRequirement_ok_iff {rules : FieldRules} :
    checkConditionalRequirement resolved context key rules = .ok () ↔
      ∀ condition, rules.requiredUnless = some condition →
        conditionHolds resolved condition = true := by
  unfold checkConditionalRequirement
  cases rules.requiredUnless with
  | none => exact ⟨fun _ _ h => (nomatch h), fun _ => rfl⟩
  | some condition =>
    cases hh : conditionHolds resolved condition with
    | true =>
      refine ⟨fun _ c hc => ?_, fun _ => if_pos hh⟩
      cases hc
      exact hh
    | false =>
      refine ⟨fun h => ?_, fun h => ?_⟩
      · simp only [hh] at h
        cases h
      · rw [h condition rfl] at hh
        cases hh

theorem checkRequirement_ok_iff : checkRequirement resolved inactive context key d = .ok () ↔
      (key ∉ inactive → find? resolved (some key) = none → MayBeAbsent resolved d.rules) := by
  unfold checkRequirement
  split <;> rename_i hskip
  · refine ⟨fun _ ha hb => ?_, fun _ => rfl⟩
    rcases hskip with hi | hp
    · exact absurd hi ha
    · rw [hb] at hp
      cases hp
  · rw [bind_eq_ok_iff]
    obtain ⟨ha, hn⟩ := not_or.mp hskip
    have hb := not_isSome_iff_eq_none.mp hn
    constructor
    · rintro ⟨⟨⟩, hc, hr⟩ - -
      refine ⟨checkConditionalRequirement_ok_iff.mp hc, ?_⟩
      by_contra h
      rw [if_pos (Bool.not_eq_false _ ▸ h)] at hr
      cases hr
    · intro h
      obtain ⟨hc, hr⟩ := h ha hb
      refine ⟨(), checkConditionalRequirement_ok_iff.mpr hc, ?_⟩
      rw [hr]
      rfl

/-- A value that names the list of a path is included in it. -/
def IncludedIn (external : Option Items) (path : List String) (v : YamlValue) : Prop :=
  ∃ allowed, external.bind (fun external => pathValue (.dict external) path) =
    some (.list allowed) ∧ ∀ xs, v = .list xs → ∀ x ∈ xs, x.isIn allowed = true

theorem checkSubset_ok_iff {place : String} :
    checkSubset v path external place = .ok () ↔ IncludedIn external path v := by
  unfold checkSubset resolvePath IncludedIn
  cases external.bind (fun external => pathValue (.dict external) path) with
  | none => exact ⟨nofun, fun ⟨_, h, _⟩ => (nomatch h)⟩
  | some node =>
    cases node with
    | list allowed =>
      cases v with
      | list xs =>
        change (if xs.all (fun x => x.isIn allowed) = true then Except.ok () else _) = _ ↔ _
        split_ifs with ha
        · refine ⟨fun _ => ⟨allowed, rfl, ?_⟩, fun _ => rfl⟩
          intro ys hy
          obtain rfl := YamlValue.list.inj hy
          exact all_eq_true.mp ha
        · refine ⟨nofun, fun ⟨other, ho, h⟩ => absurd ?_ ha⟩
          obtain rfl := YamlValue.list.inj (some.inj ho)
          exact all_eq_true.mpr (h xs rfl)
      | _ => exact ⟨fun _ => ⟨allowed, rfl, fun _ h => (nomatch h)⟩, fun _ => rfl⟩
    | _ => exact ⟨nofun, fun ⟨_, h, _⟩ => (nomatch h)⟩

theorem checkSubsetOf_ok_iff : checkSubsetOf resolved inactive external context key d = .ok () ↔
      (key ∉ inactive → ∀ path v, d.rules.mustBeSubsetOf = some path →
        find? resolved (some key) = some v → IncludedIn external path v) := by
  unfold checkSubsetOf
  split_ifs with hi
  · exact ⟨fun _ h => absurd hi h, fun _ => rfl⟩
  cases d.rules.mustBeSubsetOf with
  | none => exact ⟨fun _ _ _ _ h => (nomatch h), fun _ => rfl⟩
  | some path =>
    cases find? resolved (some key) with
    | none => exact ⟨fun _ _ _ _ _ h => (nomatch h), fun _ => rfl⟩
    | some v =>
      refine checkSubset_ok_iff.trans ⟨fun h _ p w hp hw => ?_, fun h =>
        h hi path v rfl rfl⟩
      cases hp
      cases hw
      exact h

end OriRuntime.ConfigSchema
