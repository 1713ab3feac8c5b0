import OriRuntime.ConfigRevalidated

/-!
# What `validate_document` returns

The groups of a declaration are decided on the document with its aliases moved, and again alike on
the document it is resolved to.
-/

namespace OriRuntime.ConfigSchema

open List Option

open Execution

variable {schema : ValidatedSchema} {document moved items : Items} {context : String}
  {external : Option Items}

variable {constraint : Option (List (List String))} {inactive : List String}

theorem checkExactlyOne_ok_iff : checkExactlyOne document context constraint = .ok inactive ↔
      (constraint = none ∧ inactive = []) ∨ ∃ groups chosen, constraint = some groups ∧
          groups.filter (isPresent document) = [chosen] ∧ inactive = rejected groups chosen ∧
          ∀ name ∈ inactive, find? document (some name) = none := by
  cases constraint with
  | none => exact ⟨fun h => .inl ⟨rfl, (Except.ok.inj h).symm⟩, fun h => by
      rcases h with ⟨-, rfl⟩ | ⟨_, _, h, -⟩
      · rfl
      · cases h⟩
  | some groups =>
    rw [checkExactlyOne]
    split
    · rename_i chosen hc
      have hs : (rejected groups chosen).filter
          (fun name => (find? document (some name)).isSome) = [] ↔
          ∀ name ∈ rejected groups chosen, find? document (some name) = none := by
        rw [filter_eq_nil_iff]
        exact forall₂_congr fun name _ => not_isSome_iff_eq_none
      simp only [hs]
      split_ifs with hno
      · constructor
        · intro h
          cases h
          exact .inr ⟨groups, chosen, rfl, hc, rfl, hno⟩
        · rintro (⟨h, -⟩ | ⟨_, other, hg, ho, rfl, -⟩)
          · cases h
          cases hg
          obtain rfl := (List.cons.inj (hc.symm.trans ho)).1
          rfl
      · refine ⟨nofun, fun h => ?_⟩
        rcases h with ⟨h, -⟩ | ⟨_, other, hg, ho, rfl, ha⟩
        · cases h
        cases hg
        obtain rfl := (List.cons.inj (hc.symm.trans ho)).1
        exact absurd ha hno
    · rename_i hn
      refine ⟨nofun, fun h => ?_⟩
      rcases h with ⟨h, -⟩ | ⟨_, chosen, hg, hc, -⟩
      · cases h
      · cases hg
        exact absurd hc (hn chosen)

theorem checkGroups_ok_iff : checkGroups document schema context = .ok inactive ↔
      checkExactlyOne document context schema.exactlyOneOf = .ok inactive ∧
        ∀ groups, schema.atLeastOneOf = some groups → groups.any (isPresent document) = true := by
  unfold checkGroups
  rw [bind_eq_ok_iff]
  have han : schema.atLeastOneOf.any (fun groups => !groups.any (isPresent document)) = true ↔
      ¬ ∀ groups, schema.atLeastOneOf = some groups → groups.any (isPresent document) = true := by
    rw [Option.any_eq_true]
    constructor
    · rintro ⟨groups, hg, hn⟩ ha
      rw [ha groups hg] at hn
      cases hn
    · intro h
      obtain ⟨groups, hg⟩ := not_forall.mp h
      obtain ⟨hs, hn⟩ := Classical.not_imp.mp hg
      exact ⟨groups, hs, by simpa using hn⟩
  simp only [han]
  constructor
  · rintro ⟨inactive', ho, h⟩
    split_ifs at h with ha
    · cases h
      exact ⟨ho, ha⟩
  · rintro ⟨ho, ha⟩
    exact ⟨inactive, ho, if_neg (not_not.mpr ha)⟩

theorem isPresent_iff {group : List String} : isPresent document group = true ↔
    ∀ name ∈ group, (find? document (some name)).isSome = true :=
  all_eq_true

theorem checkExactlyOne_again (place : String)
    (ha : ∀ groups, constraint = some groups → (∀ group ∈ groups, group ≠ []) ∧
      ∀ group ∈ groups, ∀ other ∈ groups, group ≠ other → Apart group other)
    (h : checkExactlyOne moved context constraint = .ok inactive)
    (hk : ∀ name, (find? moved (some name)).isSome = true → (find? items (some name)).isSome = true)
    (hin : ∀ name ∈ inactive, find? items (some name) = none) :
    checkExactlyOne items place constraint = .ok inactive ∧
      ∀ groups, constraint = some groups → ∃ chosen ∈ groups, inactive = rejected groups chosen ∧
        ∀ group ∈ groups, isPresent items group = true ↔ group = chosen := by
  rcases checkExactlyOne_ok_iff.mp h with ⟨hno, he⟩ | ⟨groups, chosen, hgrou, hf, hr, -⟩
  · refine ⟨checkExactlyOne_ok_iff.mpr (.inl ⟨hno, he⟩), fun groups hs => ?_⟩
    rw [hno] at hs
    cases hs
  · obtain ⟨hn, ha⟩ := ha groups hgrou
    have hm : chosen ∈ groups ∧ isPresent moved chosen = true := by
      have h : chosen ∈ groups.filter (isPresent moved) := by
        rw [hf]
        exact mem_singleton_self _
      exact mem_filter.mp h
    have hv : ∀ group ∈ groups, isPresent moved group = true → group = chosen := by
      intro group hg hp
      have h : group ∈ groups.filter (isPresent moved) := mem_filter.mpr ⟨hg, hp⟩
      rw [hf] at h
      exact mem_singleton.mp h
    have hi : ∀ group ∈ groups, isPresent items group = true ↔ group = chosen := by
      intro group hg
      constructor
      · intro hp
        by_contra hne
        obtain ⟨name, hnm⟩ := exists_mem_of_ne_nil group (hn group hg)
        have ho := ha group hg chosen hm.1 hne name hnm
        have hb := hin name (hr ▸ mem_filter.mpr
          ⟨mem_flatten.mpr ⟨group, hg, hnm⟩, decide_eq_true ho⟩)
        have hs := isPresent_iff.mp hp name hnm
        rw [hb] at hs
        cases hs
      · rintro rfl
        exact isPresent_iff.mpr fun name hnm => hk name (isPresent_iff.mp hm.2 name hnm)
    refine ⟨checkExactlyOne_ok_iff.mpr (.inr ⟨groups, chosen, hgrou, ?_, hr,
      hin⟩), fun groups' hs => ?_⟩
    · rw [← hf]
      refine filter_congr fun group hg => ?_
      rw [Bool.eq_iff_iff, hi group hg]
      exact ⟨fun heq => heq ▸ hm.2, hv group hg⟩
    · obtain rfl := mem_unique hgrou hs
      exact ⟨chosen, hm.1, hr, hi⟩

theorem validateDocument_ok_iff {value result : YamlValue} :
    validateDocument value schema context external = .ok result ↔
      ∃ written moved inactive items, value = .dict written ∧ result = .dict items ∧
        requireExternal schema context external = .ok () ∧
        resolveAliases written schema.fields context = .ok moved ∧
        checkGroups moved schema context = .ok inactive ∧
        resolveMapping moved schema.fields context external inactive = .ok items := by
  cases value with
  | dict written =>
    rw [validateDocument, bind_eq_ok_iff]
    constructor
    · rintro ⟨⟨⟩, he, h⟩
      obtain ⟨moved, hm, h⟩ := bind_eq_ok_iff.mp h
      obtain ⟨inactive, hn, h⟩ := bind_eq_ok_iff.mp h
      obtain ⟨items, hi, h⟩ := bind_eq_ok_iff.mp h
      exact ⟨written, moved, inactive, items, rfl, (Except.ok.inj h).symm, he, hm, hn, hi⟩
    · rintro ⟨_, moved, inactive, items, hw, rfl, he, hm, hn, hi⟩
      obtain rfl := YamlValue.dict.inj hw
      exact ⟨(), he, bind_eq_ok_iff.mpr ⟨moved, hm, bind_eq_ok_iff.mpr
        ⟨inactive, hn, bind_eq_ok_iff.mpr ⟨items, hi, rfl⟩⟩⟩⟩
  | _ => exact ⟨nofun, fun ⟨_, _, _, _, h, _⟩ => (nomatch h)⟩

theorem requireExternal_again {place : String}
    (h : requireExternal schema context external = .ok ()) :
    requireExternal schema place external = .ok () := by
  unfold requireExternal at h ⊢
  dsimp only at h ⊢
  split_ifs at h ⊢ with hn
  rfl

theorem resolveMapping_keeps {fields : Fields} (hnd : (fields.map Prod.fst).Nodup)
    (h : resolveMapping moved fields context external inactive = .ok items) :
    (∀ name ∉ inactive, (find? moved (some name)).isSome = true →
      (find? items (some name)).isSome = true) ∧
      ∀ name ∈ inactive, find? items (some name) = none := by
  obtain ⟨hd, hf, -, -⟩ := resolveMapping_ok_iff.mp h
  have hpass := resolveFields_firstPass hnd hf
  constructor
  · intro name ha hp
    obtain ⟨v, hv⟩ := isSome_iff_exists.mp hp
    obtain ⟨key, d, hk, hm⟩ := hd _ (find?_mem hv)
    cases hk
    rcases hpass.each name d hm ha with ⟨hn, -⟩ | ⟨_, _, r, -, -, hfd⟩
    · unfold effective? at hn
      rw [hv] at hn
      cases hn
    · rw [hfd]
      rfl
  · intro name hi
    rw [find?_eq_none_iff]
    intro v hm
    obtain ⟨key, d, hk, -, ha⟩ := hpass.keys _ hm
    cases hk
    exact ha hi

theorem resolved_configuration_conforms {declared : Declaration} {name : String}
    (hschema : validateSchema declared name = .ok schema) {value result : YamlValue}
    (h : validateDocument value schema context external = .ok result) :
    ∃ written moved inactive items, value = .dict written ∧ result = .dict items ∧
      resolveAliases written declared.fields context = .ok moved ∧
      ConformsMapping external declared.fields inactive items ∧
      CarriesMapping external declared.fields inactive moved items ∧
      (declared.exactlyOneOf = none → inactive = []) ∧
      (∀ groups, declared.exactlyOneOf = some groups → ∃ chosen ∈ groups,
        inactive = rejected groups chosen ∧
          ∀ group ∈ groups, isPresent items group = true ↔ group = chosen) ∧
      (plainFields declared.fields = true → ∀ place,
        validateDocument result schema place external = .ok result) := by
  obtain ⟨rfl, hconstraint, hsound, hfields⟩ := validateSchema_ok hschema
  obtain ⟨written, moved, inactive, items, rfl, rfl, hexternal, hmoved, hgroups, hitems⟩ :=
    validateDocument_ok_iff.mp h
  obtain ⟨hone, hleast⟩ := checkGroups_ok_iff.mp hgroups
  have hcanonical := resolveAliases_canonical schema.nodup hsound hmoved
  obtain ⟨hactive, hinactive⟩ := resolveMapping_keeps schema.nodup hitems
  have hkept : ∀ name, (find? moved (some name)).isSome = true →
      (find? items (some name)).isSome = true := by
    intro name hpresent
    by_cases hname : name ∈ inactive
    · rcases checkExactlyOne_ok_iff.mp hone with ⟨-, rfl⟩ | ⟨_, _, -, -, -, hnone⟩
      · exact absurd hname not_mem_nil
      · rw [hnone name hname] at hpresent
        cases hpresent
    · exact hactive name hname hpresent
  have hagain := checkExactlyOne_again context
    (fun groups hsome => validateConstraint_apart (hsome ▸ hconstraint)) hone hkept hinactive
  obtain ⟨hconforms, hcarries⟩ := resolveMapping_sound schema.nodup hcanonical
    (fun field hmem => resolveValue_sound external field.2
      (distinctFields_mem schema.distinct hmem) (hfields.mem hmem)) hitems
  refine ⟨written, moved, inactive, items, rfl, rfl, hmoved, hconforms, hcarries, fun hnone => ?_,
    hagain.2, fun hplain place => ?_⟩
  · rcases checkExactlyOne_ok_iff.mp hone with ⟨-, hempty⟩ | ⟨_, _, hsome, -⟩
    · exact hempty
    · exact absurd (hnone.symm.trans hsome) nofun
  · obtain ⟨hcanonical', hsame⟩ := resolveMapping_again schema.nodup hcanonical
      (fun field hmem => resolveValue_again external field.2
        (distinctFields_mem schema.distinct hmem) (hfields.mem hmem) (plainFields_mem hplain hmem))
      hitems
    have hagain := checkExactlyOne_again place
      (fun groups hsome => validateConstraint_apart (hsome ▸ hconstraint)) hone hkept hinactive
    refine validateDocument_ok_iff.mpr ⟨items, items, inactive, items, rfl, rfl,
      requireExternal_again hexternal, resolveAliases_of_canonical hcanonical' place,
      checkGroups_ok_iff.mpr ⟨hagain.1, fun groups hsome => ?_⟩, hsame place⟩
    obtain ⟨group, hgroup, hpresent⟩ := any_eq_true.mp (hleast groups hsome)
    exact any_eq_true.mpr ⟨group, hgroup, isPresent_iff.mpr fun name hname =>
      hkept name (isPresent_iff.mp hpresent name hname)⟩

/-! ### A gateway -/

/-- A gateway is reached over the network or over a serial line, and may bound its channels. -/
def gateway : Declaration where
  fields :=
    [("host", .scalar .string {}),
      ("serial", .scalar .string { defaultsTo := some (.str "ttyUSB0") }),
      ("port", .scalar .integer { defaultsTo := some (.int 502), minimum := some (.int 1) }),
      ("limits", .array {} (.array {} (.object {}
        [("max", .scalar .integer {}), ("maximum", .aliasFor .integer ["max"]),
          ("unit", .scalar .string { defaultsTo := some (.str "A") })])))]
  exactlyOneOf := some [["host"], ["serial"]]
  nodup := by decide
  distinct := by decide

def networked : YamlValue :=
  .dict [(some "host", .str "10.0.0.5"),
    (some "limits", .list [.list [.dict [(some "maximum", .int 16)]]])]

theorem networked_resolved : ∃ schema items, validateSchema gateway "modbus" = .ok schema ∧
    validateDocument networked schema "sensors[0]" none = .ok (.dict items) ∧
    field? gateway.fields "serial" =
      some (.scalar .string { defaultsTo := some (.str "ttyUSB0") }) ∧
    find? items (some "serial") = none ∧
    find? items (some "limits") = some (.list [.list [.dict [(some "maximum", .int 16)]]]) :=
  ⟨_, _, rfl, rfl, rfl, rfl, rfl⟩

theorem resolved_configuration_conforms_of_networked : ∃ schema result,
    validateSchema gateway "modbus" = .ok schema ∧
      validateDocument networked schema "sensors[0]" none = .ok result ∧
      (∃ inactive items, result = .dict items ∧
        ConformsMapping none gateway.fields inactive items) ∧
      ∀ place, validateDocument result schema place none = .ok result := by
  have h := resolved_configuration_conforms (show validateSchema gateway "modbus" = .ok _ from rfl)
    (show validateDocument networked _ "sensors[0]" none = .ok _ from rfl)
  obtain ⟨_, _, inactive, items, -, hresult, -, hconforms, -, -, -, hagain⟩ := h
  exact ⟨_, _, rfl, rfl, ⟨inactive, items, hresult, hconforms⟩, hagain rfl⟩

end OriRuntime.ConfigSchema
