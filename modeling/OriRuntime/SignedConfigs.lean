import OriRuntime.ConfigSignature

/-!
# Where the two canonical forms agree

Both runtimes write a configuration as a compact JSON text, so the texts are equal where the trees
are. The trees differ in an envelope field that is not a trimmed string, a float the two write
differently, and a key that is not a string.
-/

namespace OriRuntime

open List Option

namespace Yaml

mutual

/-- No mapping holds a key twice. -/
def DistinctKeys : Yaml → Prop
  | .seq xs => DistinctKeysList xs
  | .mapping items => (items.map (·.1)).Nodup ∧ DistinctKeysItems items
  | _ => True

def DistinctKeysList : List Yaml → Prop
  | [] => True
  | v :: vs => DistinctKeys v ∧ DistinctKeysList vs

def DistinctKeysItems : List (YamlKey × Yaml) → Prop
  | [] => True
  | (_, v) :: rest => DistinctKeys v ∧ DistinctKeysItems rest

end

end Yaml

theorem YamlKey.pyText_inj {k l : YamlKey} (hk : k.isStr = true) (hl : l.isStr = true)
    (h : k.pyText = l.pyText) : k = l := by
  cases k <;> cases l <;> simp only [isStr, Bool.false_eq_true] at hk hl
  exact congrArg YamlKey.str h

namespace ConfigSignature

open JsonTree (AtomText plainList_iff plainItems_iff)

/-- Python compares the keys: all are strings, or all numbers. -/
def Sorts (keys : List YamlKey) : Prop :=
  keys.all YamlKey.isStr = true ∨ keys.length ≤ 1 ∨ keys.all YamlKey.isNumber = true

/-- The keys are strings, or numbers that both write alike and whose texts are in the order of the
numbers. -/
def KeysAlike (serde : SerdeJson) (keys : List YamlKey) : Prop :=
  keys.all YamlKey.isStr = true ∨
    (keys.length ≤ 1 ∨ keys.all YamlKey.isNumber = true) ∧
    (∀ k ∈ keys, serde.keyText k = some k.pyText) ∧
    ((keys.insertionSort (fun k l => k.notAfter l = true)).map YamlKey.pyText).Pairwise (· < ·)

mutual

/-- Python has an order for the keys of every mapping. -/
def Sortable : Yaml → Prop
  | .seq xs => SortableList xs
  | .mapping items => Sorts (items.map (·.1)) ∧ SortableItems items
  | _ => True

def SortableList : List Yaml → Prop
  | [] => True
  | v :: vs => Sortable v ∧ SortableList vs

def SortableItems : List (YamlKey × Yaml) → Prop
  | [] => True
  | (_, v) :: rest => Sortable v ∧ SortableItems rest

end

mutual

/-- The mobile runtime has a text for every key. -/
def Keyed (serde : SerdeJson) : Yaml → Prop
  | .seq xs => KeyedList serde xs
  | .mapping items => KeyedItems serde items
  | _ => True

def KeyedList (serde : SerdeJson) : List Yaml → Prop
  | [] => True
  | v :: vs => Keyed serde v ∧ KeyedList serde vs

def KeyedItems (serde : SerdeJson) : List (YamlKey × Yaml) → Prop
  | [] => True
  | (key, v) :: rest => (serde.keyText key).isSome = true ∧ Keyed serde v ∧ KeyedItems serde rest

end

mutual

/-- Every float is written alike, and the keys of every mapping. -/
def Alike (serde : SerdeJson) : Yaml → Prop
  | .float f => serde.floatText f = Json.pyFloatText f
  | .seq xs => AlikeList serde xs
  | .mapping items => KeysAlike serde (items.map (·.1)) ∧ AlikeItems serde items
  | _ => True

def AlikeList (serde : SerdeJson) : List Yaml → Prop
  | [] => True
  | v :: vs => Alike serde v ∧ AlikeList serde vs

def AlikeItems (serde : SerdeJson) : List (YamlKey × Yaml) → Prop
  | [] => True
  | (_, v) :: rest => Alike serde v ∧ AlikeItems serde rest

end

variable {serde : SerdeJson}

theorem alikeItems_iff {items : List (YamlKey × Yaml)} :
    AlikeItems serde items ↔ ∀ item ∈ items, Alike serde item.2 := by
  induction items with
  | nil => exact ⟨fun _ => nofun, fun _ => trivial⟩
  | cons item rest ih => rw [AlikeItems, ih, forall_mem_cons]

/-! ### Texts of atoms -/

def isSafe (c : CodePoint) : Bool := decide (c ∉ JsonTree.delimiters ++ text "\"[\x7b")

/-- No character of the text opens or ends a value. -/
def Safe (t : Text) : Prop := t.all isSafe = true

instance (t : Text) : Decidable (Safe t) := inferInstanceAs (Decidable (_ = true))

variable {t : Text} {xs : List Yaml} {ts : List (YamlKey × JsonTree)}
  {members : List (Text × JsonTree)} {α : Type} {keys : List YamlKey}

def isNumeral (c : CodePoint) : Bool := Json.isDigit c || decide (c ∈ text "+-.e")

/-- The text is of digits and of the marks a number is written with. -/
def Numeral (t : Text) : Prop := t.all isNumeral = true

instance (t : Text) : Decidable (Numeral t) := inferInstanceAs (Decidable (_ = true))

variable {u key : Text} {kept : List (Text × JsonTree)} {v config : JsonTree}
  {sorted : List (YamlKey × JsonTree)}

theorem Numeral.append (ht : Numeral t) (hu : Numeral u) : Numeral (t ++ u) := by
  rw [Numeral, all_append, ht, hu, Bool.and_self]

theorem Numeral.sub (ht : Numeral t) (h : u ⊆ t) : Numeral u :=
  all_eq_true.mpr (fun c hc => all_eq_true.mp ht c (h hc))

theorem Numeral.mem {c : CodePoint} (h : Numeral t) (hc : c ∈ t) :
    Json.isDigit c = true ∨ c ∈ text "+-.e" := by
  have hn := all_eq_true.mp h c hc
  rw [isNumeral, Bool.or_eq_true] at hn
  exact hn.imp_right of_decide_eq_true

theorem Numeral.safe (h : Numeral t) : Safe t := by
  have hm : (JsonTree.delimiters ++ text "\"[\x7b").all (fun d => !Json.isDigit d) = true := by
    decide
  refine all_eq_true.mpr (fun c hc => decide_eq_true (fun he => ?_))
  obtain hd | hmark := h.mem hc
  · have hn := all_eq_true.mp hm c he
    rw [hd] at hn
    exact absurd hn (by decide)
  · exact absurd he (of_decide_eq_true (all_eq_true.mp
      (show (text "+-.e").all isSafe = true by decide) c hmark))

theorem Numeral.oneLine (h : Numeral t) : codePoint '\n' ∉ t := fun hm =>
  absurd (all_eq_true.mp h _ hm) (by decide)

theorem numeral_natText (n : ℕ) : Numeral (Json.natText n) :=
  all_eq_true.mpr (fun c hc => by rw [isNumeral, Json.natText_digits n c hc, Bool.true_or])

theorem numeral_zeros (n : ℕ) : Numeral (List.replicate n (codePoint '0')) := by
  refine all_eq_true.mpr (fun c hc => ?_)
  rw [eq_of_mem_replicate hc]
  decide

theorem numeral_sign {p : Prop} [Decidable p] : Numeral (if p then [codePoint '-'] else []) := by
  split_ifs <;> decide

theorem numeral_intText (n : ℤ) : Numeral (Json.intText n) := by
  have hm : Numeral [codePoint '-'] := by decide
  unfold Json.intText
  split_ifs
  · exact hm.append (numeral_natText _)
  · exact numeral_natText _

theorem numeral_decimalText (d : Decimal) : Numeral (Json.decimalText d) := by
  have ho : Numeral [codePoint '.'] := by decide
  have ht : Numeral (text ".0") := by decide
  refine numeral_sign.append ?_
  split_ifs
  · exact (numeral_natText _).append ht
  have hp := (numeral_zeros ((-d.exponent).toNat + 1 -
    (Json.natText d.digits).length)).append (numeral_natText d.digits)
  exact (hp.sub (take_subset _ _)).append (ho.append (hp.sub (drop_subset _ _)))

theorem numeral_exponentText (e : ℤ) : Numeral (Json.exponentText e) := by
  have hsign : Numeral [if e < 0 then codePoint '-' else codePoint '+'] := by
    split_ifs <;> decide
  exact hsign.append ((numeral_zeros _).append (numeral_natText _))

theorem numeral_reprText (d : Decimal) : Numeral (Json.reprText d) := by
  have hp : Numeral [codePoint '.'] := by decide
  have he : Numeral [codePoint 'e'] := by decide
  unfold Json.reprText
  simp only
  have hf : Numeral (if (Json.natText d.digits).length ≤ 1 then []
      else codePoint '.' :: (Json.natText d.digits).drop 1) := by
    split_ifs
    · rfl
    · exact hp.append ((numeral_natText _).sub (drop_subset _ _))
  split
  · exact numeral_decimalText d
  · exact ((numeral_sign.append ((numeral_natText _).sub (take_subset _ _))).append
      hf).append (he.append (numeral_exponentText _))

theorem Safe.atomText (h : Safe t) (he : t ≠ []) : AtomText t := by
  cases t with
  | nil => exact absurd rfl he
  | cons c cs =>
    have hn : ∀ d ∈ c :: cs, d ∉ JsonTree.delimiters ++ text "\"[\x7b" :=
      fun d hd => of_decide_eq_true (all_eq_true.mp h d hd)
    refine ⟨c, cs, rfl, ?_, ?_⟩
    · exact fun hm => hn c mem_cons_self (mem_append_right _ hm)
    · exact fun d hd hm => hn d hd (mem_append_left _ hm)

theorem intText_ne_nil (n : ℤ) : Json.intText n ≠ [] := by
  unfold Json.intText
  split_ifs
  · exact cons_ne_nil _ _
  · exact Json.natText_ne_nil _

theorem atomText_intText (n : ℤ) : AtomText (Json.intText n) :=
  (numeral_intText n).safe.atomText (intText_ne_nil n)

theorem reprText_ne_nil (d : Decimal) : Json.reprText d ≠ [] := by
  unfold Json.reprText
  simp only
  split
  · unfold Json.decimalText
    split_ifs <;> simp [text]
  · exact append_ne_nil_of_right_ne_nil _ (cons_ne_nil _ _)

theorem atomText_literal (s : String) (h : s ∈ ["null", "true", "false", "NaN", "Infinity",
    "-Infinity"]) : AtomText (text s) := by
  have hsafe : ∀ s ∈ ["null", "true", "false", "NaN", "Infinity", "-Infinity"],
      Safe (text s) ∧ text s ≠ [] := by decide
  exact Safe.atomText (hsafe s h).1 (hsafe s h).2

theorem atomText_boolText (b : Bool) : AtomText (Json.boolText b) := by
  cases b <;> exact atomText_literal _ (by decide)

theorem atomText_pyFloatText (f : JsonFloat) : AtomText (Json.pyFloatText f) := by
  cases f with
  | nan => exact atomText_literal "NaN" (by decide)
  | infinity neg => cases neg <;> exact atomText_literal _ (by decide)
  | finite d => exact (numeral_reprText d).safe.atomText (reprText_ne_nil d)

/-! ### Trees -/

theorem pyTreeList_some {ts : List JsonTree} (h : pyTreeList xs = some ts) :
    xs.map pyTree = ts.map some := by
  induction xs generalizing ts with
  | nil =>
    cases h
    rfl
  | cons v vs ih =>
    rw [pyTreeList] at h
    split at h
    · rename_i t ts' hv hs
      cases h
      rw [map_cons, map_cons, hv, ih hs]
    · cases h

theorem rustTreeList_some {ts : List JsonTree} (h : rustTreeList serde xs = some ts) :
    xs.map (rustTree serde) = ts.map some := by
  induction xs generalizing ts with
  | nil =>
    cases h
    rfl
  | cons v vs ih =>
    rw [rustTreeList] at h
    split at h
    · rename_i t ts' hv hs
      cases h
      rw [map_cons, map_cons, hv, ih hs]
    · cases h

theorem pyTreeItems_some {items : List (YamlKey × Yaml)} (h : pyTreeItems items = some ts) :
    List.Forall₂ (fun item t => item.1 = t.1 ∧ pyTree item.2 = some t.2) items ts := by
  induction items generalizing ts with
  | nil =>
    cases h
    exact .nil
  | cons item rest ih =>
    rw [pyTreeItems] at h
    split at h
    · rename_i t ts' hv hr
      cases h
      exact .cons ⟨rfl, hv⟩ (ih hr)
    · cases h

theorem rustTreeItems_some {items : List (YamlKey × Yaml)}
    (h : rustTreeItems serde items = some members) :
    List.Forall₂ (fun item m => serde.keyText item.1 = some m.1 ∧
      rustTree serde item.2 = some m.2) items members := by
  induction items generalizing members with
  | nil =>
    cases h
    exact .nil
  | cons item rest ih =>
    rw [rustTreeItems] at h
    split at h
    · rename_i k t ts' hk hv hr
      cases h
      exact .cons ⟨hk, hv⟩ (ih hr)
    · cases h

/-! ### Members in order -/

theorem insertMember_subset (key : Text) (v : JsonTree) (kept : List (Text × JsonTree)) :
    insertMember key v kept ⊆ (key, v) :: kept := by
  induction kept with
  | nil => exact List.Subset.refl _
  | cons m rest ih =>
    rw [insertMember]
    split_ifs
    · exact cons_subset_cons _ (subset_cons_self _ _)
    · exact List.Subset.refl _
    · intro m hm
      obtain rfl | hm := mem_cons.mp hm
      · exact mem_cons_of_mem _ mem_cons_self
      obtain rfl | hm := mem_cons.mp (ih hm)
      · exact mem_cons_self
      · exact mem_cons_of_mem _ (mem_cons_of_mem _ hm)

theorem insertMember_sorted (h : kept.Pairwise (fun m m' => m.1 < m'.1)) :
    (insertMember key v kept).Pairwise (fun m m' => m.1 < m'.1) := by
  induction kept with
  | nil => exact pairwise_singleton _ _
  | cons m rest ih =>
    rw [pairwise_cons] at h
    rw [insertMember]
    split_ifs with heq hl
    · subst heq
      exact pairwise_cons.mpr h
    · refine pairwise_cons.mpr ⟨?_, pairwise_cons.mpr h⟩
      intro m hm
      obtain rfl | hm := mem_cons.mp hm
      · exact hl
      · exact lt_trans hl (h.1 m hm)
    · refine pairwise_cons.mpr ⟨?_, ih h.2⟩
      intro m hm
      obtain rfl | hm := mem_cons.mp (insertMember_subset _ _ _ hm)
      · exact lt_of_le_of_ne (not_lt.mp hl) (Ne.symm heq)
      · exact h.1 m hm

theorem insertMember_perm (h : ∀ m ∈ kept, m.1 ≠ key) :
    (insertMember key v kept).Perm ((key, v) :: kept) := by
  induction kept with
  | nil => exact List.Perm.refl _
  | cons m rest ih =>
    rw [forall_mem_cons] at h
    rw [insertMember, if_neg (Ne.symm h.1)]
    split_ifs
    · exact List.Perm.refl _
    · exact ((ih h.2).cons _).trans (List.Perm.swap _ _ _)

theorem collect_append (members : List (Text × JsonTree)) (m : Text × JsonTree) :
    collect (members ++ [m]) = insertMember m.1 m.2 (collect members) := by
  rw [collect, foldl_append]
  rfl

theorem collect_subset (members : List (Text × JsonTree)) : collect members ⊆ members := by
  induction members using List.reverseRecOn with
  | nil => exact List.Subset.refl _
  | append_singleton members m ih =>
    rw [collect_append]
    intro x hx
    obtain rfl | hx := mem_cons.mp (insertMember_subset _ _ _ hx)
    · exact mem_append_right _ (mem_singleton_self _)
    · exact mem_append_left _ (ih hx)

theorem collect_sorted (members : List (Text × JsonTree)) :
    (collect members).Pairwise (fun m m' => m.1 < m'.1) := by
  induction members using List.reverseRecOn with
  | nil => exact List.Pairwise.nil
  | append_singleton members m ih =>
    rw [collect_append]
    exact insertMember_sorted ih

theorem collect_perm (h : (members.map (·.1)).Nodup) : (collect members).Perm members := by
  induction members using List.reverseRecOn with
  | nil => exact List.Perm.refl _
  | append_singleton members m ih =>
    rw [map_append, nodup_append] at h
    rw [collect_append]
    have hn : ∀ m' ∈ collect members, m'.1 ≠ m.1 := fun m' hm' =>
      h.2.2 m'.1 (mem_map_of_mem (collect_subset _ hm')) m.1 (mem_singleton_self _)
    refine (insertMember_perm hn).trans (((ih h.1).cons _).trans ?_)
    exact (perm_append_singleton _ _).symm

theorem eq_collect {sorted : List (Text × JsonTree)} (hperm : sorted.Perm members)
    (hs : sorted.Pairwise (fun m m' => m.1 < m'.1)) : sorted = collect members := by
  have hn : (members.map (·.1)).Nodup := by
    refine (hperm.map _).nodup_iff.mp (pairwise_map.mpr ?_)
    exact hs.imp (fun hl => ne_of_lt hl)
  refine List.Perm.eq_of_pairwise ?_ hs (collect_sorted members)
    (hperm.trans (collect_perm hn).symm)
  intro m m' _ _ hl hg
  exact absurd hg (not_lt.mpr (le_of_lt hl))

/-! ### Mappings -/

theorem exists_of_forall₂ {β : Type} {rel : α → β → Prop} {xs : List α} {ys : List β}
    (h : List.Forall₂ rel xs ys) {x : α} (hx : x ∈ xs) : ∃ y ∈ ys, rel x y := by
  induction h with
  | nil => cases hx
  | cons hh _ ih =>
    obtain rfl | hx := mem_cons.mp hx
    · exact ⟨_, mem_cons_self, hh⟩
    · obtain ⟨y, hy, hr⟩ := ih hx
      exact ⟨y, mem_cons_of_mem _ hy, hr⟩

theorem map_fst_of_forall₂ {items : List (YamlKey × Yaml)}
    (h : List.Forall₂ (fun item t => item.1 = t.1 ∧ pyTree item.2 = some t.2) items ts) :
    ts.map (·.1) = items.map (·.1) := by
  induction h with
  | nil => rfl
  | cons hh _ ih => rw [map_cons, map_cons, hh.1, ih]

theorem sortItems_some {items sorted : List (YamlKey × α)} (h : sortItems items = some sorted) :
    sorted.Perm items ∧ Sorts (items.map (·.1)) ∧
    ((items.map (·.1)).all YamlKey.isStr = true →
      sorted = items.insertionSort (fun x y => x.1.pyText ≤ y.1.pyText)) ∧
    ((items.map (·.1)).all YamlKey.isStr = false →
      sorted.map (·.1) = (items.map (·.1)).insertionSort (fun k l => k.notAfter l = true)) := by
  have ha : ∀ p : YamlKey → Bool, (items.map (·.1)).all p = items.all (fun item => p item.1) :=
    fun p => all_map
  unfold sortItems at h
  rw [ha]
  split_ifs at h with hs hu
  · cases h
    refine ⟨perm_insertionSort _ _, .inl (by rw [ha, hs]), fun _ => rfl, ?_⟩
    intro hn
    rw [hs] at hn
    cases hn
  · cases h
    refine ⟨perm_insertionSort _ _, .inr ?_, fun hy => absurd hy hs, fun _ => ?_⟩
    · rw [ha, length_map]
      exact hu
    · exact map_insertionSort _ _ _ _ (fun _ _ _ _ => Iff.rfl)

theorem sortItems_isSome {items : List (YamlKey × α)} :
    (sortItems items).isSome = true ↔ Sorts (items.map (·.1)) := by
  have ha : ∀ p : YamlKey → Bool, (items.map (·.1)).all p = items.all (fun item => p item.1) :=
    fun p => all_map
  unfold sortItems Sorts
  rw [ha, ha, length_map]
  split_ifs with hs hn
  · simp [hs]
  · simp only [isSome_some, true_iff]
    exact .inr hn
  · simp only [isSome_none, Bool.false_eq_true, hs, false_or, false_iff]
    exact hn

theorem key_eq_of_text (hso : Sorts keys) {k l : YamlKey} (hk : k ∈ keys) (hl : l ∈ keys)
    (h : serde.keyText l = some k.pyText) : k = l := by
  obtain hs | ho | hn := hso
  · have hkstr := all_eq_true.mp hs k hk
    have hlstr := all_eq_true.mp hs l hl
    cases k <;> cases l <;> simp only [YamlKey.isStr, Bool.false_eq_true] at hkstr hlstr
    rw [serde.keyText_str, some.injEq] at h
    exact congrArg YamlKey.str h.symm
  · match keys, ho with
    | [], _ => cases hk
    | [key], _ => rw [mem_singleton.mp hk, mem_singleton.mp hl]
  · exact serde.keyText_number k l (all_eq_true.mp hn k hk) (all_eq_true.mp hn l hl) h

def TreesAgree (serde : SerdeJson) (v : Yaml) : Prop :=
  ∀ t t', pyTree v = some t → rustTree serde v = some t' → (t = t' ↔ Alike serde v)

theorem alike_of_dict {items : List (YamlKey × Yaml)} (hkeys : (items.map (·.1)).Nodup)
    (hv : ∀ item ∈ items, TreesAgree serde item.2)
    (hy : List.Forall₂ (fun item t => item.1 = t.1 ∧ pyTree item.2 = some t.2) items ts)
    (hrust : List.Forall₂ (fun item m => serde.keyText item.1 = some m.1 ∧
      rustTree serde item.2 = some m.2) items members) (hr : sortItems ts = some sorted)
    (h : sorted.map (fun item => (item.1.pyText, item.2)) = collect members) :
    KeysAlike serde (items.map (·.1)) ∧ AlikeItems serde items := by
  obtain ⟨hperm, hs, -, hn⟩ := sortItems_some hr
  rw [map_fst_of_forall₂ hy] at hs hn
  have hp : ∀ item ∈ items, serde.keyText item.1 = some item.1.pyText ∧ Alike serde item.2 := by
    intro item hitem
    obtain ⟨t, ht, he, htree⟩ := exists_of_forall₂ hy hitem
    have hm : (t.1.pyText, t.2) ∈ members := by
      apply collect_subset
      rw [← h]
      exact List.mem_map_of_mem (hperm.mem_iff.mpr ht)
    obtain ⟨item', hitem', hk', htree'⟩ := exists_of_forall₂ hrust.flip hm
    rw [← he] at hk'
    have hsm : item = item' := by
      have hq := key_eq_of_text hs (List.mem_map_of_mem hitem) (List.mem_map_of_mem hitem') hk'
      exact List.inj_on_of_nodup_map hkeys hitem hitem' hq
    subst hsm
    exact ⟨hk', (hv item hitem t.2 t.2 htree htree').mp rfl⟩
  refine ⟨?_, alikeItems_iff.mpr (fun item hitem => (hp item hitem).2)⟩
  cases hst : (items.map (·.1)).all YamlKey.isStr with
  | true => exact .inl hst
  | false =>
    refine .inr ⟨hs.resolve_left (by rw [hst]; decide), ?_, ?_⟩
    · intro k hk
      obtain ⟨item, hitem, rfl⟩ := List.mem_map.mp hk
      exact (hp item hitem).1
    · have ho := collect_sorted members
      rw [← h, List.pairwise_map] at ho
      rw [← hn hst, List.map_map, List.pairwise_map]
      exact ho

theorem members_of_alike {items : List (YamlKey × Yaml)}
    (hv : ∀ item ∈ items, TreesAgree serde item.2)
    (hp : List.Forall₂ (fun item t => item.1 = t.1 ∧ pyTree item.2 = some t.2) items ts)
    (hrust : List.Forall₂ (fun item m => serde.keyText item.1 = some m.1 ∧
      rustTree serde item.2 = some m.2) items members)
    (hkeys : ∀ item ∈ items, serde.keyText item.1 = some item.1.pyText)
    (ha : ∀ item ∈ items, Alike serde item.2) :
    members = ts.map (fun item => (item.1.pyText, item.2)) := by
  induction hp generalizing members with
  | nil =>
    cases hrust
    rfl
  | cons hh _ ih =>
    cases hrust with
    | cons hm hr =>
      rw [forall_mem_cons] at hv hkeys ha
      rw [map_cons, ← ih hv.2 hr hkeys.2 ha.2]
      refine congrArg (· :: _) (Prod.ext ?_ ?_)
      · have ht := hkeys.1
        rw [hm.1, some.injEq] at ht
        rw [ht, hh.1]
      · exact ((hv.1 _ _ hh.2 hm.2).mpr ha.1).symm

theorem dict_of_alike {items : List (YamlKey × Yaml)} (hkeys : (items.map (·.1)).Nodup)
    (hv : ∀ item ∈ items, TreesAgree serde item.2)
    (hp : List.Forall₂ (fun item t => item.1 = t.1 ∧ pyTree item.2 = some t.2) items ts)
    (hrust : List.Forall₂ (fun item m => serde.keyText item.1 = some m.1 ∧
      rustTree serde item.2 = some m.2) items members) (hr : sortItems ts = some sorted)
    (ha : KeysAlike serde (items.map (·.1))) (hi : AlikeItems serde items) :
    sorted.map (fun item => (item.1.pyText, item.2)) = collect members := by
  obtain ⟨hperm, -, hst, hn⟩ := sortItems_some hr
  rw [map_fst_of_forall₂ hp] at hst hn
  have ht : ∀ item ∈ items, serde.keyText item.1 = some item.1.pyText := by
    intro item hitem
    obtain hs | ⟨-, htx, -⟩ := ha
    · have hk := List.all_eq_true.mp hs item.1 (List.mem_map_of_mem hitem)
      obtain ⟨key, v⟩ := item
      cases key <;> simp only [YamlKey.isStr, Bool.false_eq_true] at hk
      exact serde.keyText_str _
    · exact htx item.1 (List.mem_map_of_mem hitem)
  have hm := members_of_alike hv hp hrust ht (alikeItems_iff.mp hi)
  refine eq_collect (hm ▸ hperm.map _) ?_
  rw [List.pairwise_map]
  cases hs : (items.map (·.1)).all YamlKey.isStr with
  | true =>
    have hl : sorted.Pairwise (fun x y => x.1.pyText ≤ y.1.pyText) := by
      rw [hst hs]
      exact List.pairwise_insertionSort _ _
    have hne : sorted.Pairwise (fun x y => x.1 ≠ y.1) := by
      refine List.pairwise_map.mp ?_
      exact (hperm.map _).nodup_iff.mpr (map_fst_of_forall₂ hp ▸ hkeys)
    refine (hl.and hne).imp_of_mem ?_
    rintro x y hx hy ⟨hxy, hd⟩
    refine lt_of_le_of_ne hxy (fun htx => hd ?_)
    have hstri : ∀ z ∈ sorted, z.1.isStr = true := fun z hz => List.all_eq_true.mp hs z.1
      (map_fst_of_forall₂ hp ▸ List.mem_map_of_mem (hperm.mem_iff.mp hz))
    exact YamlKey.pyText_inj (hstri x hx) (hstri y hy) htx
  | false =>
    obtain he | ⟨-, -, ho⟩ := ha
    · rw [hs] at he
      cases he
    · rw [← hn hs, List.map_map, List.pairwise_map] at ho
      exact ho

theorem mapping_agrees {items : List (YamlKey × Yaml)} (hkeys : (items.map (·.1)).Nodup)
    (hv : ∀ item ∈ items, TreesAgree serde item.2) : TreesAgree serde (.mapping items) := by
  intro t t' ht ht'
  rw [pyTree] at ht
  obtain ⟨members, hm, rfl⟩ := map_eq_some_iff.mp ht'
  split at ht
  · cases ht
  rename_i ts hts
  obtain ⟨sorted, hs, rfl⟩ := map_eq_some_iff.mp ht
  have hp := pyTreeItems_some hts
  have hrust := rustTreeItems_some hm
  constructor
  · intro h
    exact alike_of_dict hkeys hv hp hrust hs (JsonTree.dict.inj h)
  · rintro ⟨hkeysAlike, hi⟩
    exact congrArg JsonTree.dict (dict_of_alike hkeys hv hp hrust hs hkeysAlike hi)

theorem seq_agrees (hv : ∀ v ∈ xs, TreesAgree serde v) : TreesAgree serde (.seq xs) := by
  intro t t' ht ht'
  obtain ⟨ts, hs, rfl⟩ := map_eq_some_iff.mp ht
  obtain ⟨ts', hs', rfl⟩ := map_eq_some_iff.mp ht'
  have hp := pyTreeList_some hs
  have hrust := rustTreeList_some hs'
  clear ht ht' hs hs'
  rw [JsonTree.list.injEq]
  induction xs generalizing ts ts' with
  | nil =>
    rw [map_nil, eq_comm, map_eq_nil_iff] at hp hrust
    rw [hp, hrust]
    exact iff_of_true rfl trivial
  | cons v vs ih =>
    rw [forall_mem_cons] at hv
    rw [map_cons, eq_comm, map_eq_cons_iff] at hp hrust
    obtain ⟨u, us, rfl, hu, hus⟩ := hp
    obtain ⟨u', us', rfl, hu', hus'⟩ := hrust
    rw [List.cons.injEq]
    exact and_congr (hv.1 u u' hu.symm hu'.symm) (ih hv.2 us us' hus.symm hus'.symm)

mutual

theorem trees_agree : ∀ v : Yaml, v.DistinctKeys → TreesAgree serde v
  | .null, _ | .bool _, _ | .int _, _ | .str _, _ =>
    fun _ _ ht ht' => iff_of_true (mem_unique ht ht') trivial
  | .float f, _ => by
      intro t t' ht ht'
      rw [pyTree, some.injEq] at ht
      rw [rustTree, some.injEq] at ht'
      rw [← ht, ← ht', JsonTree.atom.injEq, Alike, eq_comm]
  | .seq xs, h => seq_agrees (trees_agree_list xs h)
  | .mapping items, h => mapping_agrees h.1 (trees_agree_items items h.2)

theorem trees_agree_list : ∀ xs : List Yaml, Yaml.DistinctKeysList xs → ∀ v ∈ xs, TreesAgree serde v
  | [], _ => nofun
  | v :: vs, h => forall_mem_cons.mpr ⟨trees_agree v h.1, trees_agree_list vs h.2⟩

theorem trees_agree_items : ∀ items : List (YamlKey × Yaml), Yaml.DistinctKeysItems items →
    ∀ item ∈ items, TreesAgree serde item.2
  | [], _ => nofun
  | (_, v) :: rest, h => forall_mem_cons.mpr ⟨trees_agree v h.1, trees_agree_items rest h.2⟩

end

/-! ### What each side refuses -/

mutual

theorem pyTree_isSome : ∀ v : Yaml, (pyTree v).isSome = true ↔ Sortable v
  | .null | .bool _ | .int _ | .float _ | .str _ => iff_of_true rfl trivial
  | .seq xs => by rw [pyTree, isSome_map, pyTreeList_isSome xs, Sortable]
  | .mapping items => by
      rw [pyTree, Sortable, ← pyTreeItems_isSome items]
      cases ht : pyTreeItems items with
      | none => simp
      | some ts =>
        simp only [isSome_map, isSome_some, and_true]
        rw [sortItems_isSome, map_fst_of_forall₂ (pyTreeItems_some ht)]

theorem pyTreeList_isSome : ∀ xs : List Yaml, (pyTreeList xs).isSome = true ↔ SortableList xs
  | [] => iff_of_true rfl trivial
  | v :: vs => by
      rw [pyTreeList, SortableList, ← pyTree_isSome v, ← pyTreeList_isSome vs]
      cases pyTree v <;> cases pyTreeList vs <;> simp

theorem pyTreeItems_isSome : ∀ items : List (YamlKey × Yaml),
    (pyTreeItems items).isSome = true ↔ SortableItems items
  | [] => iff_of_true rfl trivial
  | (_, v) :: rest => by
      rw [pyTreeItems, SortableItems, ← pyTree_isSome v, ← pyTreeItems_isSome rest]
      cases pyTree v <;> cases pyTreeItems rest <;> simp

end

mutual

theorem rustTree_isSome : ∀ v : Yaml, (rustTree serde v).isSome = true ↔ Keyed serde v
  | .null | .bool _ | .int _ | .float _ | .str _ => iff_of_true rfl trivial
  | .seq xs => by rw [rustTree, isSome_map, rustTreeList_isSome xs, Keyed]
  | .mapping items => by rw [rustTree, isSome_map, rustTreeItems_isSome items, Keyed]

theorem rustTreeList_isSome : ∀ xs : List Yaml,
    (rustTreeList serde xs).isSome = true ↔ KeyedList serde xs
  | [] => iff_of_true rfl trivial
  | v :: vs => by
      rw [rustTreeList, KeyedList, ← rustTree_isSome v, ← rustTreeList_isSome vs]
      cases rustTree serde v <;> cases rustTreeList serde vs <;> simp

theorem rustTreeItems_isSome : ∀ items : List (YamlKey × Yaml),
    (rustTreeItems serde items).isSome = true ↔ KeyedItems serde items
  | [] => iff_of_true rfl trivial
  | (key, v) :: rest => by
      rw [rustTreeItems, KeyedItems, ← rustTree_isSome v, ← rustTreeItems_isSome rest]
      cases serde.keyText key <;> cases rustTree serde v <;> cases rustTreeItems serde rest <;> simp

end

theorem sorts_of_keysAlike (h : KeysAlike serde keys) : Sorts keys := by
  obtain hs | ⟨hn, -⟩ := h
  · exact .inl hs
  · exact .inr hn

theorem keyText_of_keysAlike (h : KeysAlike serde keys) :
    ∀ k ∈ keys, (serde.keyText k).isSome = true := by
  intro k hk
  obtain hs | ⟨-, ht, -⟩ := h
  · have he := all_eq_true.mp hs k hk
    cases k <;> simp only [YamlKey.isStr, Bool.false_eq_true] at he
    rw [serde.keyText_str]
    rfl
  · rw [ht k hk]
    rfl

/-! ### Plain trees -/

mutual

theorem pyTree_plain : ∀ (v : Yaml) (t : JsonTree), pyTree v = some t → JsonTree.Plain t
  | .null, _, h => some.inj h ▸ atomText_literal "null" (by decide)
  | .bool b, _, h => some.inj h ▸ atomText_boolText b
  | .int n, _, h => some.inj h ▸ atomText_intText n
  | .float f, _, h => some.inj h ▸ atomText_pyFloatText f
  | .str _, _, h => some.inj h ▸ trivial
  | .seq xs, t, h => by
      rw [pyTree] at h
      obtain ⟨ts, ht, rfl⟩ := map_eq_some_iff.mp h
      exact plainList_iff.mpr (pyTreeList_plain xs ts ht)
  | .mapping items, t, h => by
      rw [pyTree] at h
      split at h
      · cases h
      rename_i ts ht
      obtain ⟨sorted, hs, rfl⟩ := map_eq_some_iff.mp h
      refine plainItems_iff.mpr (fun m hm => ?_)
      obtain ⟨x, hx, rfl⟩ := mem_map.mp hm
      exact pyTreeItems_plain items ts ht x ((sortItems_some hs).1.mem_iff.mp hx)

theorem pyTreeList_plain : ∀ (xs : List Yaml) (ts : List JsonTree), pyTreeList xs = some ts →
    ∀ t ∈ ts, JsonTree.Plain t
  | [], _, h => by
      cases h
      exact nofun
  | v :: vs, _, h => by
      rw [pyTreeList] at h
      split at h
      · rename_i t ts hv hs
        cases h
        exact forall_mem_cons.mpr ⟨pyTree_plain v t hv, pyTreeList_plain vs ts hs⟩
      · cases h

theorem pyTreeItems_plain : ∀ (items : List (YamlKey × Yaml)) (ts : List (YamlKey × JsonTree)),
    pyTreeItems items = some ts → ∀ t ∈ ts, JsonTree.Plain t.2
  | [], _, h => by
      cases h
      exact nofun
  | (_, v) :: rest, _, h => by
      rw [pyTreeItems] at h
      split at h
      · rename_i t ts hv hr
        cases h
        exact forall_mem_cons.mpr ⟨pyTree_plain v t hv, pyTreeItems_plain rest ts hr⟩
      · cases h

end

mutual

theorem rustTree_plain : ∀ (v : Yaml) (t : JsonTree), rustTree serde v = some t → JsonTree.Plain t
  | .null, _, h => some.inj h ▸ atomText_literal "null" (by decide)
  | .bool b, _, h => some.inj h ▸ atomText_boolText b
  | .int n, _, h => some.inj h ▸ atomText_intText n
  | .float f, _, h => some.inj h ▸ serde.float_atom f
  | .str _, _, h => some.inj h ▸ trivial
  | .seq xs, t, h => by
      rw [rustTree] at h
      obtain ⟨ts, ht, rfl⟩ := map_eq_some_iff.mp h
      exact plainList_iff.mpr (rustTreeList_plain xs ts ht)
  | .mapping items, t, h => by
      rw [rustTree] at h
      obtain ⟨members, he, rfl⟩ := map_eq_some_iff.mp h
      exact plainItems_iff.mpr (fun m hm =>
        rustTreeItems_plain items members he m (collect_subset members hm))

theorem rustTreeList_plain : ∀ (xs : List Yaml) (ts : List JsonTree),
    rustTreeList serde xs = some ts → ∀ t ∈ ts, JsonTree.Plain t
  | [], _, h => by
      cases h
      exact nofun
  | v :: vs, _, h => by
      rw [rustTreeList] at h
      split at h
      · rename_i t ts hv hs
        cases h
        exact forall_mem_cons.mpr ⟨rustTree_plain v t hv, rustTreeList_plain vs ts hs⟩
      · cases h

theorem rustTreeItems_plain : ∀ (items : List (YamlKey × Yaml)) (ms : List (Text × JsonTree)),
    rustTreeItems serde items = some ms → ∀ m ∈ ms, JsonTree.Plain m.2
  | [], _, h => by
      cases h
      exact nofun
  | (_, v) :: rest, _, h => by
      rw [rustTreeItems] at h
      split at h
      · rename_i k t ts hk hv hr
        cases h
        exact forall_mem_cons.mpr ⟨rustTree_plain v t hv, rustTreeItems_plain rest ts hr⟩
      · cases h

end

mutual

theorem alike_written : ∀ v : Yaml, Alike serde v → Sortable v ∧ Keyed serde v
  | .null, _ | .bool _, _ | .int _, _ | .float _, _ | .str _, _ => ⟨trivial, trivial⟩
  | .seq xs, h => alikeList_written xs h
  | .mapping items, h =>
    have hi := alikeItems_written items h.2 (fun item hitem =>
      keyText_of_keysAlike h.1 item.1 (mem_map_of_mem hitem))
    ⟨⟨sorts_of_keysAlike h.1, hi.1⟩, hi.2⟩

theorem alikeList_written : ∀ xs : List Yaml, AlikeList serde xs →
    SortableList xs ∧ KeyedList serde xs
  | [], _ => ⟨trivial, trivial⟩
  | v :: vs, h =>
    ⟨⟨(alike_written v h.1).1, (alikeList_written vs h.2).1⟩,
      (alike_written v h.1).2, (alikeList_written vs h.2).2⟩

theorem alikeItems_written : ∀ items : List (YamlKey × Yaml), AlikeItems serde items →
    (∀ item ∈ items, (serde.keyText item.1).isSome = true) →
      SortableItems items ∧ KeyedItems serde items
  | [], _, _ => ⟨trivial, trivial⟩
  | (_, v) :: rest, h, hkeys =>
    have hr := alikeItems_written rest h.2 (fun item hitem =>
      hkeys item (mem_cons_of_mem _ hitem))
    ⟨⟨(alike_written v h.1).1, hr.1⟩, hkeys _ mem_cons_self, (alike_written v h.1).2, hr.2⟩

end

/-! ### Payloads -/

variable {b : PyBuiltins} {items block : List (YamlKey × Yaml)}

theorem distinctKeysItems_filter {p : YamlKey × Yaml → Bool} :
    ∀ {items : List (YamlKey × Yaml)}, Yaml.DistinctKeysItems items →
      Yaml.DistinctKeysItems (items.filter p)
  | [], _ => trivial
  | (key, v) :: rest, h => by
      rw [filter_cons]
      split_ifs
      · exact ⟨h.1, distinctKeysItems_filter h.2⟩
      · exact distinctKeysItems_filter h.2

theorem distinctKeys_unsignedConfig (h : (Yaml.mapping items).DistinctKeys) :
    (unsignedConfig items).DistinctKeys := by
  refine ⟨?_, distinctKeysItems_filter h.2⟩
  exact h.1.sublist (filter_sublist.map _)

/-- Python reads an integer and has an order for every mapping's keys. -/
def PyAccepts (b : PyBuiltins) (doc : Yaml) : Prop :=
  ∃ items block, doc = .mapping items ∧ find? items "config_signature" = some (.mapping block) ∧
    (pyInt b (find? block "signed_at_ms")).isSome = true ∧ Sortable (unsignedConfig items)

/-- The mobile runtime reads two strings and an integer, and has a text for every key. -/
def RustAccepts (serde : SerdeJson) (doc : Yaml) : Prop :=
  ∃ items block, doc = .mapping items ∧ find? items "config_signature" = some (.mapping block) ∧
    (yamlString (find? block "schema")).isSome = true ∧
    (yamlI64 (find? block "signed_at_ms")).isSome = true ∧
    (yamlString (find? block "signer_id")).isSome = true ∧ Keyed serde (unsignedConfig items)

/-- The envelope's fields are an integer and two strings with no space around them, and the rest
of the document is written alike. -/
def WrittenAlike (serde : SerdeJson) (doc : Yaml) : Prop :=
  ∃ items block schema signedAtMs signerId, doc = .mapping items ∧
    find? items "config_signature" = some (.mapping block) ∧
    find? block "schema" = some (.str schema) ∧ Json.strip schema = schema ∧
    find? block "signed_at_ms" = some (.int signedAtMs) ∧
    -2 ^ 63 ≤ signedAtMs ∧ signedAtMs < 2 ^ 63 ∧
    find? block "signer_id" = some (.str signerId) ∧ Json.strip signerId = signerId ∧
    Alike serde (unsignedConfig items)

theorem pyPayload_cases (doc : Yaml) : (pyPayload b doc = none ∧ ¬ PyAccepts b doc) ∨
    ∃ items block signedAtMs config, doc = .mapping items ∧
      find? items "config_signature" = some (.mapping block) ∧
      pyInt b (find? block "signed_at_ms") = some signedAtMs ∧
      pyTree (unsignedConfig items) = some config ∧
      pyPayload b doc = some (envelope config (pyField b (find? block "schema")) signedAtMs
        (pyField b (find? block "signer_id"))).render := by
  cases hp : pyPayload b doc with
  | none =>
    refine .inl ⟨rfl, ?_⟩
    rintro ⟨items, block, rfl, hb, hi, hs⟩
    obtain ⟨signedAtMs, hi⟩ := isSome_iff_exists.mp hi
    obtain ⟨config, hc⟩ := isSome_iff_exists.mp ((pyTree_isSome _).mpr hs)
    simp only [pyPayload, hb, hi, hc] at hp
    cases hp
  | some payload =>
    unfold pyPayload at hp
    split at hp
    · rename_i items
      split at hp
      · rename_i block hb
        split at hp
        · rename_i signedAtMs config hi hc
          exact .inr ⟨items, block, signedAtMs, config, rfl, hb, hi, hc, hp.symm⟩
        · cases hp
      · cases hp
    · cases hp

theorem rustPayload_cases (serde : SerdeJson) (doc : Yaml) :
    (rustPayload serde doc = none ∧ ¬ RustAccepts serde doc) ∨
    ∃ items block config schema signedAtMs signerId, doc = .mapping items ∧
      find? items "config_signature" = some (.mapping block) ∧
      rustTree serde (unsignedConfig items) = some config ∧
      find? block "schema" = some (.str schema) ∧ find? block "signed_at_ms" =
        some (.int signedAtMs) ∧ -2 ^ 63 ≤ signedAtMs ∧ signedAtMs < 2 ^ 63 ∧
      find? block "signer_id" = some (.str signerId) ∧
      rustPayload serde doc = some (envelope config schema signedAtMs signerId).render := by
  have ht : ∀ {v : Option Yaml} {s : Text}, yamlString v = some s → v = some (.str s) := by
    intro v s h
    unfold yamlString at h
    split at h
    · rw [some.inj h]
    · cases h
  have hi64 : ∀ {v : Option Yaml} {n : ℤ}, yamlI64 v = some n → v = some (.int n) ∧ -2 ^ 63 ≤ n ∧
      n < 2 ^ 63 := by
    intro v n h
    unfold yamlI64 at h
    split at h
    · split_ifs at h with hr
      rw [some.injEq] at h
      exact ⟨by rw [h], h ▸ hr⟩
    · cases h
  cases hp : rustPayload serde doc with
  | none =>
    refine .inl ⟨rfl, ?_⟩
    rintro ⟨items, block, rfl, hb, hsc, hi, hs, hk⟩
    obtain ⟨schema, hsc⟩ := isSome_iff_exists.mp hsc
    obtain ⟨signedAtMs, hi⟩ := isSome_iff_exists.mp hi
    obtain ⟨signerId, hs⟩ := isSome_iff_exists.mp hs
    obtain ⟨config, hc⟩ := isSome_iff_exists.mp ((rustTree_isSome _).mpr hk)
    simp only [rustPayload, hb, hsc, hi, hs, hc] at hp
    cases hp
  | some payload =>
    unfold rustPayload at hp
    split at hp
    · rename_i items
      split at hp
      · rename_i block hb
        split at hp
        · rename_i config schema signedAtMs signerId hc hsc hi hs
          obtain ⟨hi, hl, hhigh⟩ := hi64 hi
          exact .inr ⟨items, block, config, schema, signedAtMs, signerId, rfl, hb, hc,
            ht hsc, hi, hl, hhigh, ht hs, hp.symm⟩
        · cases hp
      · cases hp
    · cases hp

theorem envelope_plain (h : JsonTree.Plain config) (schema : Text) (signedAtMs : ℤ)
    (signerId : Text) : JsonTree.Plain (envelope config schema signedAtMs signerId) :=
  ⟨h, trivial, atomText_intText signedAtMs, trivial, trivial⟩

theorem envelope_inj {config' : JsonTree} {schema schema' signerId signerId' : Text} {n : ℤ}
    (h : envelope config schema n signerId = envelope config' schema' n signerId') :
    config = config' ∧ schema = schema' ∧ signerId = signerId' := by
  simp only [envelope, JsonTree.dict.injEq, List.cons.injEq, Prod.mk.injEq, true_and, and_true,
    JsonTree.str.injEq] at h
  exact h

/-- Of a document both readers read, the two payloads are the same bytes, or both are refused,
exactly where both refuse it or its fields, floats and keys are such that both write them alike. -/
theorem canonical_payloads_agree {doc : Yaml} (h : doc.DistinctKeys) :
    pyPayload b doc = rustPayload serde doc ↔
      (¬ PyAccepts b doc ∧ ¬ RustAccepts serde doc) ∨ WrittenAlike serde doc := by
  constructor
  · intro hsame
    obtain ⟨hpy, hpyRefuses⟩ | ⟨items, block, signedAtMs, config, rfl, hblock, hint, hconfig,
      hpy⟩ := pyPayload_cases (b := b) doc
    · obtain ⟨-, hrustRefuses⟩ | ⟨_, _, _, _, _, _, -, -, -, -, -, -, -, -, hrust⟩ :=
        rustPayload_cases serde doc
      · exact .inl ⟨hpyRefuses, hrustRefuses⟩
      · rw [hpy, hrust] at hsame
        cases hsame
    · obtain ⟨hrust, -⟩ | ⟨items', block', config', schema, signedAtMs', signerId, hdoc, hblock',
        hconfig', hschema, hint', hlow, hhigh, hsigner, hrust⟩ :=
        rustPayload_cases serde (.mapping items)
      · rw [hpy, hrust] at hsame
        cases hsame
      · obtain rfl := Yaml.mapping.inj hdoc
        rw [hblock, some.injEq, Yaml.mapping.injEq] at hblock'
        subst hblock'
        rw [hint', pyInt, some.injEq] at hint
        subst hint
        rw [hpy, hrust, some.injEq, hschema, hsigner] at hsame
        obtain ⟨htree, hstrip, hstrip'⟩ := envelope_inj (JsonTree.render_inj
          (envelope_plain (pyTree_plain _ _ hconfig) _ _ _)
          (envelope_plain (rustTree_plain _ _ hconfig') _ _ _) hsame)
        have halike := (trees_agree _ (distinctKeys_unsignedConfig h) _ _ hconfig hconfig').mp htree
        exact .inr ⟨items, block, schema, signedAtMs', signerId, rfl, hblock, hschema, hstrip,
          hint', hlow, hhigh, hsigner, hstrip', halike⟩
  · rintro (⟨hpyRefuses, hrustRefuses⟩ | ⟨items, block, schema, signedAtMs, signerId, rfl, hblock,
      hschema, hstrip, hint, hlow, hhigh, hsigner, hstrip', halike⟩)
    · obtain ⟨hpy, -⟩ | ⟨items, block, signedAtMs, config, rfl, hblock, hint, hconfig, -⟩ :=
        pyPayload_cases (b := b) doc
      · obtain ⟨hrust, -⟩ | ⟨items, block, config, schema, signedAtMs, signerId, rfl, hblock,
          hconfig, hschema, hint, hlow, hhigh, hsigner, -⟩ := rustPayload_cases serde doc
        · rw [hpy, hrust]
        · refine absurd ⟨items, block, rfl, hblock, ?_, ?_, ?_, ?_⟩ hrustRefuses
          · rw [hschema]
            rfl
          · rw [hint, yamlI64, if_pos ⟨hlow, hhigh⟩]
            rfl
          · rw [hsigner]
            rfl
          · rw [← rustTree_isSome, hconfig]
            rfl
      · refine absurd ⟨items, block, rfl, hblock, ?_, ?_⟩ hpyRefuses
        · rw [hint]
          rfl
        · rw [← pyTree_isSome, hconfig]
          rfl
    · obtain ⟨hsortable, hkeyed⟩ := alike_written _ halike
      obtain ⟨config, hconfig⟩ := isSome_iff_exists.mp ((pyTree_isSome _).mpr hsortable)
      obtain ⟨config', hconfig'⟩ := isSome_iff_exists.mp ((rustTree_isSome _).mpr hkeyed)
      obtain rfl := (trees_agree _ (distinctKeys_unsignedConfig h) _ _ hconfig hconfig').mpr halike
      simp only [pyPayload, rustPayload, hblock, hconfig, hconfig', hint, hschema, hsigner, pyInt,
        pyField, yamlString, yamlI64, hstrip, hstrip', if_pos (And.intro hlow hhigh)]

def benchBuiltins : PyBuiltins where
  str _ := []
  decimal c := if Json.isDigit c then some (c.val - 48) else none

/-- String keys only. -/
def benchSerde : SerdeJson where
  floatText
    | .finite d => Json.reprText d
    | _ => text "null"
  keyText
    | .str s => some s
    | _ => none
  float_atom f := by
    cases f with
    | nan => exact atomText_literal "null" (by decide)
    | infinity neg => exact atomText_literal "null" (by decide)
    | finite d => exact (numeral_reprText d).safe.atomText (reprText_ne_nil d)
  keyText_str _ := rfl
  keyText_number k l _ hl h := by
    cases l <;> simp [YamlKey.isNumber] at hl h

/-- A signed document, its signer as the YAML gives it. -/
def signedDocument (signerId : String) : Yaml :=
  .mapping [(.str (text "device"), .mapping [(.str (text "id"), .str (text "phone-01"))]),
    (.str (text "config_signature"), .mapping [(.str (text "schema"),
        .str (text "ori.config_signature.v1")), (.str (text "signer_id"), .str (text signerId)),
      (.str (text "signed_at_ms"), .int 1719000000000)])]

theorem signedDocument_distinct (signerId : String) : (signedDocument signerId).DistinctKeys := by
  have hroot : [YamlKey.str (text "device"), .str (text "config_signature")].Nodup := by decide
  have hd : [YamlKey.str (text "id")].Nodup := by decide
  have hb : [YamlKey.str (text "schema"), .str (text "signer_id"),
      .str (text "signed_at_ms")].Nodup := by decide
  exact ⟨hroot, ⟨hd, trivial, trivial⟩, ⟨hb, trivial, trivial, trivial, trivial⟩, trivial⟩

/-- A signer written with a space before it: one runtime trims it, the other does not. -/
theorem untrimmed_signer_differs : (signedDocument " provisioning").DistinctKeys ∧
    pyPayload benchBuiltins (signedDocument " provisioning") ≠
      rustPayload benchSerde (signedDocument " provisioning") := by
  refine ⟨signedDocument_distinct _, ?_⟩
  decide +kernel

theorem canonical_payloads_agree_of_trimmed :
    pyPayload benchBuiltins (signedDocument "provisioning") =
      rustPayload benchSerde (signedDocument "provisioning") := by
  refine (canonical_payloads_agree (signedDocument_distinct "provisioning")).mpr (.inr ?_)
  exact ⟨_, _, text "ori.config_signature.v1", 1719000000000, text "provisioning", rfl,
    rfl, rfl, by decide +kernel, rfl, by decide, by decide, rfl, by decide +kernel,
    .inl (by decide), ⟨.inl (by decide), trivial, trivial⟩, trivial⟩

end ConfigSignature

end OriRuntime
