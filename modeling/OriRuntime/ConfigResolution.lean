import OriRuntime.ConfigDocument
import OriRuntime.Execution

/-!
# What is checked and what is resolved

One lemma for each check: what it says of the value, wherever the value stands. A resolved mapping
lists, in the order of the declaration, what was resolved of each field.
-/

namespace OriRuntime.ConfigSchema

open List Option

open Execution

/-! ### Descriptors -/

@[elab_as_elim]
theorem Descriptor.induct {P : Descriptor → Prop} (aliasFor : ∀ type path, P (.aliasFor type path))
    (scalar : ∀ type rules, P (.scalar type rules))
    (object : ∀ rules properties, (∀ field ∈ properties, P field.2) → P (.object rules properties))
    (array : ∀ rules items, P items → P (.array rules items)) (d : Descriptor) : P d :=
  @Descriptor.rec P (fun fields => ∀ field ∈ fields, P field.2) (fun field => P field.2)
    aliasFor scalar object array (fun _ h => absurd h not_mem_nil)
    (fun _ _ hf hr => forall_mem_cons.mpr ⟨hf, hr⟩) (fun _ _ h => h) d

variable {d : Descriptor} {fields : Fields} {key place : String} {items : Items} {v : YamlValue}
  {rules : FieldRules} {type : ValueType}

theorem distinctFields_mem (h : distinctFields fields = true) (hm : (key, d) ∈ fields) :
    d.distinct = true := by
  induction fields with
  | nil => cases hm
  | cons field rest ih =>
    obtain ⟨first, hr⟩ := Bool.and_eq_true_iff.mp h
    rcases mem_cons.mp hm with rfl | hm
    · exact first
    · exact ih hr hm

theorem field?_eq_some_iff (hn : (fields.map Prod.fst).Nodup) :
    field? fields key = some d ↔ (key, d) ∈ fields := by
  induction fields with
  | nil => simp [field?]
  | cons field rest ih =>
    obtain ⟨name, e⟩ := field
    obtain ⟨hnm, hr⟩ := nodup_cons.mp hn
    unfold field? at ih ⊢
    by_cases hk : name = key
    · subst hk
      rw [List.find?_cons_of_pos (by simp)]
      constructor
      · intro h
        cases h
        exact mem_cons_self
      · intro h
        rcases mem_cons.mp h with heq | hm
        · rw [(Prod.mk.inj heq).2]
          rfl
        · exact absurd (mem_map_of_mem hm) hnm
    · rw [List.find?_cons_of_neg (by simpa using hk), ih hr, mem_cons]
      constructor
      · exact .inr
      rintro (heq | hm)
      · exact absurd (Prod.mk.inj heq).1.symm hk
      · exact hm

theorem field?_isSome_iff : (field? fields key).isSome = true ↔ ∃ d, (key, d) ∈ fields := by
  unfold field?
  rw [isSome_map, List.find?_isSome]
  constructor
  · rintro ⟨field, hm, hk⟩
    obtain rfl := of_decide_eq_true hk
    exact ⟨field.2, hm⟩
  · rintro ⟨d, hm⟩
    exact ⟨(key, d), hm, decide_eq_true rfl⟩

/-! ### Items -/

theorem find?_mem {key : Option String} (h : find? items key = some v) : (key, v) ∈ items := by
  obtain ⟨item, hitem, rfl⟩ := map_eq_some_iff.mp h
  have hk := List.find?_some hitem
  obtain rfl : item.1 = key := of_decide_eq_true hk
  exact mem_of_find?_eq_some hitem

theorem find?_eq_none_iff {key : Option String} :
    find? items key = none ↔ ∀ v, (key, v) ∉ items := by
  unfold find?
  rw [map_eq_none_iff, List.find?_eq_none]
  constructor
  · intro h v hm
    exact h _ hm (decide_eq_true rfl)
  · intro h item hm hk
    obtain rfl := of_decide_eq_true hk
    exact h item.2 hm

theorem find?_cons_self (key : Option String) (v : YamlValue) (items : Items) :
    find? ((key, v) :: items) key = some v := by
  unfold find?
  rw [List.find?_cons_of_pos (by simp)]
  rfl

theorem find?_cons_of_ne {key other : Option String} (h : other ≠ key) (v : YamlValue)
    (items : Items) : find? ((other, v) :: items) key = find? items key := by
  unfold find?
  rw [List.find?_cons_of_neg (by simpa using h)]

theorem find?_setItem_of_ne {other : String} (h : other ≠ key) (v : YamlValue) (items : Items) :
    find? (setItem other v items) (some key) = find? items (some key) := by
  have hn : some other ≠ some key := fun heq => h (some.inj heq)
  induction items with
  | nil => exact find?_cons_of_ne hn v []
  | cons item rest ih =>
    unfold setItem
    split_ifs with hitem
    · rw [find?_cons_of_ne hn]
      exact (find?_cons_of_ne (hitem ▸ hn) item.2 rest).symm
    · by_cases hk : item.1 = some key
      · rw [← hk]
        exact (find?_cons_self item.1 item.2 _).trans (find?_cons_self item.1 item.2 _).symm
      · exact (find?_cons_of_ne hk item.2 _).trans (ih.trans (find?_cons_of_ne hk item.2 _).symm)

theorem find?_delItem_self (key : String) (items : Items) :
    find? (delItem key items) (some key) = none := by
  rw [find?_eq_none_iff]
  intro v hm
  exact of_decide_eq_true (mem_filter.mp hm).2 rfl

theorem find?_delItem_eq_none {other : String} (h : find? items (some key) = none) :
    find? (delItem other items) (some key) = none := by
  rw [find?_eq_none_iff] at h ⊢
  exact fun v hm => h v (mem_filter.mp hm).1

/-! ### Checks of a value -/

theorem checkOwn_ok_iff : checkOwn type rules place v = .ok () ↔ type.admits v = true ∧
      (type = .number → finiteNumber v = true) ∧
      (∀ values, rules.enum = some values → v.isIn values = true) ∧
      below v rules.minimum = false ∧ above v rules.maximum = false := by
  unfold checkOwn
  split <;> rename_i ha
  · simp [ha]
  · split <;> rename_i hf
    · simp [hf.1, hf.2]
    · have hf' : type = .number → finiteNumber v = true := fun ht =>
        Bool.not_eq_false _ ▸ fun h => hf ⟨ht, h⟩
      split <;> rename_i henum
      · obtain ⟨values, hv, hn⟩ := (any_eq_true _ _).mp henum
        refine ⟨nofun, fun ⟨_, _, h, _⟩ => ?_⟩
        rw [h values hv] at hn
        cases hn
      · have henum' : ∀ values, rules.enum = some values → v.isIn values = true := by
          intro values hv
          by_contra hn
          exact henum ((any_eq_true _ _).mpr ⟨values, hv, by simpa using hn⟩)
        cases hb : below v rules.minimum with
        | true => simp
        | false =>
          cases hab : above v rules.maximum with
          | true => simp
          | false =>
            simp only [Bool.false_eq_true, if_false, and_true]
            exact ⟨fun _ => ⟨Bool.not_eq_false _ ▸ ha, hf', henum'⟩, fun _ => trivial⟩

theorem forEach_ok_iff {f : String → YamlValue → Except ConfigError Unit}
    (hp : ∀ x p q, f p x = .ok () → f q x = .ok ()) {xs : List YamlValue} {i : ℕ} :
    forEach f place xs i = .ok () ↔ ∀ x ∈ xs, f place x = .ok () := by
  induction xs generalizing i with
  | nil => exact ⟨fun _ _ h => absurd h not_mem_nil, fun _ => rfl⟩
  | cons x xs ih =>
    rw [forall_mem_cons, ← ih]
    constructor
    · intro h
      obtain ⟨⟨⟩, hx, hs⟩ := bind_eq_ok_iff.mp h
      exact ⟨hp x _ _ hx, hs⟩
    · rintro ⟨hx, hs⟩
      exact bind_eq_ok_iff.mpr ⟨(), hp x _ _ hx, hs⟩

theorem checkDeclared_ok_iff : checkDeclared fields place items = .ok () ↔
      ∀ item ∈ items, ∃ key d, item.1 = some key ∧ (key, d) ∈ fields := by
  induction items with
  | nil => exact ⟨fun _ _ h => absurd h not_mem_nil, fun _ => rfl⟩
  | cons item rest ih =>
    obtain ⟨key, v⟩ := item
    rw [forall_mem_cons]
    cases key with
    | none => exact ⟨nofun, fun ⟨⟨_, _, h, _⟩, _⟩ => (nomatch h)⟩
    | some key =>
      rw [checkDeclared]
      cases hf : field? fields key with
      | none =>
        refine ⟨nofun, fun ⟨⟨_, d, hk, hm⟩, _⟩ => ?_⟩
        cases hk
        have hs := field?_isSome_iff.mpr ⟨d, hm⟩
        rw [hf] at hs
        cases hs
      | some d =>
        obtain ⟨e, hm⟩ := field?_isSome_iff.mp (by rw [hf]; rfl : (field? fields key).isSome = true)
        exact ih.trans ⟨fun h => ⟨⟨key, e, rfl, hm⟩, h⟩, fun h => h.2⟩

/-- What `_check_object` asks of one property. -/
def CheckedProperty (items : Items) (key : String) (d : Descriptor) (place : String) : Prop :=
  (∀ v, find? items (some key) = some v → checkValue d place v = .ok ()) ∧
    (find? items (some key) = none → d.rules.required = false)

theorem checkProperties_ok_iff : checkProperties fields place items = .ok () ↔
      ∀ field ∈ fields, CheckedProperty items field.1 field.2 (join place field.1) := by
  induction fields with
  | nil => exact ⟨fun _ _ h => absurd h not_mem_nil, fun _ => by rw [checkProperties]⟩
  | cons field rest ih =>
    obtain ⟨key, d⟩ := field
    rw [checkProperties, forall_mem_cons, ← ih]
    unfold CheckedProperty
    cases hf : find? items (some key) with
    | none =>
      cases hr : d.rules.required with
      | true | false => simp [bind_eq_ok_iff]
    | some v =>
      simp only [bind_eq_ok_iff, some.injEq, forall_eq', reduceCtorEq, false_imp_iff, and_true]
      exact ⟨fun ⟨⟨⟩, h⟩ => h, fun h => ⟨(), h⟩⟩

theorem checkValue_place (d : Descriptor) : ∀ (v : YamlValue) (p q : String),
    checkValue d p v = .ok () → checkValue d q v = .ok () := by
  induction d using Descriptor.induct with
  | aliasFor type path =>
    intro v p q h
    obtain ⟨⟨⟩, ho, h⟩ := bind_eq_ok_iff.mp h
    refine bind_eq_ok_iff.mpr ⟨(), checkOwn_ok_iff.mpr (checkOwn_ok_iff.mp ho), ?_⟩
    cases v with
    | dict items => cases h
    | list xs =>
      cases xs with
      | nil => rfl
      | cons x xs => cases h
    | _ => rfl
  | scalar type rules =>
    intro v p q h
    exact checkOwn_ok_iff.mpr (checkOwn_ok_iff.mp h)
  | object rules properties ih =>
    intro v p q h
    obtain ⟨⟨⟩, ho, h⟩ := bind_eq_ok_iff.mp h
    refine bind_eq_ok_iff.mpr ⟨(), checkOwn_ok_iff.mpr (checkOwn_ok_iff.mp ho), ?_⟩
    cases v with
    | dict items =>
      obtain ⟨⟨⟩, hd, hc⟩ := bind_eq_ok_iff.mp h
      refine bind_eq_ok_iff.mpr ⟨(), checkDeclared_ok_iff.mpr (checkDeclared_ok_iff.mp hd),
          checkProperties_ok_iff.mpr fun field hm => ?_⟩
      have hf := checkProperties_ok_iff.mp hc field hm
      exact ⟨fun v hv => ih field hm v _ _ (hf.1 v hv), hf.2⟩
    | _ => rfl
  | array rules items ih =>
    intro v p q h
    obtain ⟨⟨⟩, ho, h⟩ := bind_eq_ok_iff.mp h
    refine bind_eq_ok_iff.mpr ⟨(), checkOwn_ok_iff.mpr (checkOwn_ok_iff.mp ho), ?_⟩
    cases v with
    | list xs =>
      refine (forEach_ok_iff ih).mpr fun x hx => ?_
      exact ih x _ _ ((forEach_ok_iff ih).mp h x hx)
    | _ => rfl

/-- `_check_value`, wherever the value stands. -/
def Admits (d : Descriptor) (v : YamlValue) : Prop := checkValue d "" v = .ok ()

theorem admits_of_checkValue (h : checkValue d place v = .ok ()) :
    Admits d v := checkValue_place d v _ _ h

theorem Admits.checkValue (h : Admits d v) (place : String) :
    checkValue d place v = .ok () := checkValue_place d v _ _ h

/-- What a field asks of its value beside the contents of it. -/
structure Fits (type : ValueType) (rules : FieldRules) (v : YamlValue) : Prop where
  admitted : type.admits v = true
  finite : type = .number → finiteNumber v = true
  enum : ∀ values, rules.enum = some values → v.isIn values = true
  minimum : below v rules.minimum = false
  maximum : above v rules.maximum = false

theorem fits_iff : checkOwn type rules place v = .ok () ↔ Fits type rules v :=
  checkOwn_ok_iff.trans ⟨fun ⟨a, b, c, d, e⟩ => ⟨a, b, c, d, e⟩, fun ⟨a, b, c, d, e⟩ =>
    ⟨a, b, c, d, e⟩⟩

theorem admits_scalar_iff : Admits (.scalar type rules) v ↔ Fits type rules v := by
  exact fits_iff

theorem admits_object_iff {properties : Fields} :
    Admits (.object rules properties) v ↔ Fits .object rules v ∧ ∃ items, v = .dict items ∧
      (∀ item ∈ items, ∃ key d, item.1 = some key ∧ (key, d) ∈ properties) ∧
      ∀ key d, (key, d) ∈ properties → (∀ w, find? items (some key) = some w → Admits d w) ∧
          (find? items (some key) = none → d.rules.required = false) := by
  unfold Admits
  rw [checkValue, bind_eq_ok_iff]
  constructor
  · rintro ⟨⟨⟩, ho, h⟩
    have hfits := fits_iff.mp ho
    refine ⟨hfits, ?_⟩
    cases v with
    | dict items =>
      obtain ⟨⟨⟩, hd, hc⟩ := bind_eq_ok_iff.mp h
      refine ⟨items, rfl, checkDeclared_ok_iff.mp hd, fun key d hm => ?_⟩
      have hf := checkProperties_ok_iff.mp hc (key, d) hm
      exact ⟨fun w hw => admits_of_checkValue (hf.1 w hw), hf.2⟩
    | _ => exact absurd hfits.admitted nofun
  · rintro ⟨hfits, items, rfl, hd, hc⟩
    refine ⟨(), fits_iff.mpr hfits, bind_eq_ok_iff.mpr ⟨(), checkDeclared_ok_iff.mpr hd,
      checkProperties_ok_iff.mpr fun field hm => ?_⟩⟩
    have hf := hc field.1 field.2 hm
    exact ⟨fun w hw => Admits.checkValue (hf.1 w hw) _, hf.2⟩

theorem admits_array_iff {items : Descriptor} :
    Admits (.array rules items) v ↔ Fits .array rules v ∧ ∃ xs, v = .list xs ∧
      ∀ x ∈ xs, Admits items x := by
  unfold Admits
  rw [checkValue, bind_eq_ok_iff]
  constructor
  · rintro ⟨⟨⟩, ho, h⟩
    have hfits := fits_iff.mp ho
    refine ⟨hfits, ?_⟩
    cases v with
    | list xs => exact ⟨xs, rfl, (forEach_ok_iff (checkValue_place items)).mp h⟩
    | _ => exact absurd hfits.admitted nofun
  · rintro ⟨hfits, xs, rfl, ha⟩
    exact ⟨(), fits_iff.mpr hfits, (forEach_ok_iff (checkValue_place items)).mpr ha⟩

end OriRuntime.ConfigSchema
