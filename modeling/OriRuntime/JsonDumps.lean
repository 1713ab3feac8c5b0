import OriRuntime.CanonicalZone
import OriRuntime.SignedConfigs

/-!
# What `json.dumps` writes

`json.dumps` with sorted keys, no spaces and `allow_nan=False`: the text of a value with string keys,
which names it up to the order of its members and holds no line break.
-/

namespace OriRuntime

open List Option

namespace Json

open ConfigSignature

mutual

/-- The value as its text has it. -/
def tree : Json → JsonTree
  | .null => .atom (text "null")
  | .bool b => .atom (boolText b)
  | .int n => .atom (intText n)
  | .float f => .atom (pyFloatText f)
  | .str s => .str s
  | .list xs => .list (treeList xs)
  | .dict items => .dict (treeItems items)
  | .other _ => .atom []

def treeList : List Json → List JsonTree
  | [] => []
  | v :: vs => tree v :: treeList vs

def treeItems : List (Option Text × Json) → List (Text × JsonTree)
  | [] => []
  | (key, v) :: rest => (key.getD [], tree v) :: treeItems rest

end

mutual

def decideReadable : (v : Json) → Decidable (Readable v)
  | .null | .bool _ | .int _ | .str _ | .float (.finite _) => .isTrue trivial
  | .float .nan | .float (.infinity _) | .other _ => .isFalse id
  | .list xs => decideReadableList xs
  | .dict items => @instDecidableAnd _ _ (decideReadableItems items) inferInstance

def decideReadableList : (xs : List Json) → Decidable (ReadableList xs)
  | [] => .isTrue trivial
  | v :: vs => @instDecidableAnd _ _ (decideReadable v) (decideReadableList vs)

def decideReadableItems : (items : List (Option Text × Json)) → Decidable (ReadableItems items)
  | [] => .isTrue trivial
  | (_, v) :: rest =>
    @instDecidableAnd _ _ inferInstance
      (@instDecidableAnd _ _ (decideReadable v) (decideReadableItems rest))

end

instance : DecidablePred Readable := decideReadable

/-- None where the encoder raises. -/
def dumpsStrict (v : Json) : Option Text :=
  if Readable v then some (tree v.sorted).render else none

/-! ### Numbers -/

theorem expDigits_exponentText (e : ℤ) :
    expDigits (codePoint 'e' :: exponentText e) = (some e, []) := by
  have hd : ∀ c ∈ List.replicate (2 - (natText e.natAbs).length) (codePoint '0') ++
      natText e.natAbs, isDigit c = true := by
    intro c hc
    rcases mem_append.mp hc with hzero | hna
    · rw [eq_of_mem_replicate hzero]
      decide
    · exact natText_digits _ c hna
  have he : List.replicate (2 - (natText e.natAbs).length) (codePoint '0') ++
      natText e.natAbs ≠ [] := append_ne_nil_of_right_ne_nil _ (natText_ne_nil _)
  have hv : natOf (List.replicate (2 - (natText e.natAbs).length) (codePoint '0') ++
      natText e.natAbs) = e.natAbs := by
    rw [natOf_zeros, natOf_natText]
  obtain ⟨htake, hp⟩ := takeWhile_digits hd (show ∀ c cs, [] = c :: cs → _ from nofun)
  rw [append_nil] at htake hp
  unfold exponentText
  generalize List.replicate (2 - (natText e.natAbs).length) (codePoint '0') ++
    natText e.natAbs = ds at *
  rw [expDigits.eq_def]
  by_cases hn : e < 0
  · have ha : -(e.natAbs : ℤ) = e := by omega
    simp only [true_or, if_true, hn, htake, hp, he, if_false, hv, ha]
  · have ha : (e.natAbs : ℤ) = e := by omega
    have hplus : codePoint '+' ≠ codePoint '-' := by decide
    simp only [true_or, if_true, hn, hplus, htake, hp, he, if_false, hv, ha, Bool.false_eq_true]

theorem parseNumber_exponent (neg : Bool) {c : CodePoint} {cs : Text} (hc : c ≠ codePoint '0')
    (hi : ∀ d ∈ c :: cs, isDigit d = true) (e : ℤ) :
    parseNumber ((if neg then [codePoint '-'] else []) ++ [c] ++
        (if cs = [] then [] else codePoint '.' :: cs) ++ codePoint 'e' :: exponentText e) =
      some (.float (.finite (Decimal.of neg (natOf (c :: cs)) (e - cs.length))), []) := by
  have he : ∀ d ds, codePoint 'e' :: exponentText e = d :: ds → isDigit d = false := by
    intro d ds h
    rw [← (List.cons.inj h).1]
    decide
  have hfrac : fracDigits ((if cs = [] then [] else codePoint '.' :: cs) ++
      codePoint 'e' :: exponentText e) = (cs, codePoint 'e' :: exponentText e) := by
    by_cases hcs : cs = []
    · have hp : codePoint 'e' ≠ codePoint '.' := by decide
      rw [if_pos hcs, hcs, List.nil_append, fracDigits, if_neg (fun h => hp h.1)]
    · obtain ⟨htake, hdp⟩ := takeWhile_digits (fun d hd => hi d (List.mem_cons_of_mem _ hd)) he
      rw [if_neg hcs, List.cons_append, fracDigits, htake, hdp, if_pos ⟨rfl, hcs⟩]
  have hr : ∀ d ds, (if cs = [] then [] else codePoint '.' :: cs) ++
      codePoint 'e' :: exponentText e = d :: ds → isDigit d = false := by
    intro d ds h
    split_ifs at h with hcs
    · exact he d ds h
    · rw [← (List.cons.inj h).1]
      decide
  have hw : Whole [c] := .inr ⟨c, [], rfl, hc, fun d hd => hi d (by
      rw [List.mem_singleton.mp hd]
      exact List.mem_cons_self)⟩
  rw [List.append_assoc]
  generalize (if cs = [] then [] else codePoint '.' :: cs) ++
    codePoint 'e' :: exponentText e = tail at hfrac hr ⊢
  obtain ⟨hs, hu⟩ := hw.split hr
  have hsign : splitSign ((if neg then [codePoint '-'] else []) ++ [c] ++ tail) =
      (neg, [c] ++ tail) := by
    cases neg with
    | true => rfl
    | false => exact hu
  rw [parseNumber]
  simp only [hsign, hs, hfrac, expDigits_exponentText, List.cons_ne_nil, if_false,
    reduceCtorEq, and_false, Option.getD_some]
  rfl

theorem parseNumber_reprText (d : Decimal) :
    parseNumber (reprText d) = some (.float (.finite d), []) := by
  rw [reprText]
  by_cases hp : d.digits = 0 ∨ -4 < ((natText d.digits).length + d.exponent : ℤ) ∧
      ((natText d.digits).length + d.exponent : ℤ) ≤ 16
  · simp only [if_pos hp]
    rw [← append_nil (decimalText d)]
    exact parseNumber_decimalText d nofun
  · simp only [if_neg hp]
    obtain ⟨c, cs, hc, hn, -⟩ := natText_head (not_or.mp hp).1
    have hd : natOf (c :: cs) = d.digits := by rw [← hc, natOf_natText]
    have ho := of_shortest d 0 d.exponent (add_zero _)
    rw [pow_zero, mul_one] at ho
    have ha := parseNumber_exponent d.neg hn (hc ▸ natText_digits d.digits)
      ((natText d.digits).length + d.exponent - 1)
    have he : ((natText d.digits).length + d.exponent - 1 - cs.length : ℤ) = d.exponent := by
      rw [hc, length_cons]
      push_cast
      ring
    rw [hd, he, ho] at ha
    have hs : (cs.length + 1 ≤ 1) = (cs = []) := by
      rw [← length_eq_zero_iff]
      exact propext (by omega)
    rw [← ha, hc, length_cons]
    simp only [hs, take_succ_cons, take_zero, drop_succ_cons, drop_zero]

/-! ### Values of trees -/

def ofAtom (t : Text) : Json :=
  match parseNumber t with
  | some (v, _) => v
  | none => if t = text "true" then .bool true else if t = text "false" then .bool false else .null

mutual

def ofTree : JsonTree → Json
  | .atom t => ofAtom t
  | .str s => .str s
  | .list xs => .list (ofTreeList xs)
  | .dict items => .dict (ofTreeItems items)

def ofTreeList : List JsonTree → List Json
  | [] => []
  | v :: vs => ofTree v :: ofTreeList vs

def ofTreeItems : List (Text × JsonTree) → List (Option Text × Json)
  | [] => []
  | (key, v) :: rest => (some key, ofTree v) :: ofTreeItems rest

end

theorem ofAtom_intText (n : ℤ) : ofAtom (intText n) = .int n := by
  have hp := parseNumber_intText n (show Stops [] from nofun)
  rw [append_nil] at hp
  rw [ofAtom, hp]

theorem ofAtom_boolText (b : Bool) : ofAtom (boolText b) = .bool b := by
  cases b <;> rfl

mutual

theorem ofTree_tree : ∀ v : Json, Readable v → ofTree (tree v) = v
  | .null, _ => rfl
  | .bool b, _ => ofAtom_boolText b
  | .int n, _ => ofAtom_intText n
  | .str _, _ => rfl
  | .float (.finite d), _ => by rw [tree, pyFloatText, ofTree, ofAtom, parseNumber_reprText]
  | .list xs, h => by rw [tree, ofTree, ofTreeList_treeList xs h]
  | .dict items, h => by rw [tree, ofTree, ofTreeItems_treeItems items h.1]

theorem ofTreeList_treeList : ∀ xs : List Json, ReadableList xs → ofTreeList (treeList xs) = xs
  | [], _ => rfl
  | v :: vs, h => by
    rw [treeList, ofTreeList, ofTree_tree v h.1, ofTreeList_treeList vs h.2]

theorem ofTreeItems_treeItems : ∀ items : List (Option Text × Json), ReadableItems items →
    ofTreeItems (treeItems items) = items
  | [], _ => rfl
  | (some key, v) :: rest, h => by
    rw [treeItems, ofTreeItems, ofTree_tree v h.2.1, ofTreeItems_treeItems rest h.2.2,
      Option.getD_some]

end

mutual

theorem plain_tree : ∀ v : Json, Readable v → JsonTree.Plain (tree v)
  | .null, _ => atomText_literal "null" (by decide)
  | .bool b, _ => atomText_boolText b
  | .int n, _ => atomText_intText n
  | .str _, _ => trivial
  | .float f, _ => atomText_pyFloatText f
  | .list xs, h => plainList_treeList xs h
  | .dict items, h => plainItems_treeItems items h.1

theorem plainList_treeList : ∀ xs : List Json, ReadableList xs → JsonTree.PlainList (treeList xs)
  | [], _ => trivial
  | v :: vs, h => ⟨plain_tree v h.1, plainList_treeList vs h.2⟩

theorem plainItems_treeItems : ∀ items : List (Option Text × Json), ReadableItems items →
    JsonTree.PlainItems (treeItems items)
  | [], _ => trivial
  | (_, v) :: rest, h => ⟨plain_tree v h.2.1, plainItems_treeItems rest h.2.2⟩

end

theorem dumpsStrict_same {v w : Json} {t : Text} (hv : dumpsStrict v = some t)
    (hw : dumpsStrict w = some t) : Same v w := by
  obtain ⟨hd, hv⟩ := ite_none_right_eq_some.mp hv
  obtain ⟨hr, hw⟩ := ite_none_right_eq_some.mp hw
  have hsv := readable_sorted v hd
  have hs := readable_sorted w hr
  have htree : tree v.sorted = tree w.sorted := JsonTree.render_inj (plain_tree _ hsv)
    (plain_tree _ hs) (some.inj (hv.trans hw.symm))
  refine same_of_sorted v w hd hr ?_
  rw [← ofTree_tree _ hsv, htree, ofTree_tree _ hs]

/-! ### One line -/

theorem escapeChar_oneLine (c : CodePoint) : codePoint '\n' ∉ escapeChar c := by
  have ho : ∀ n < 32,
      codePoint '\n' ∉ text "\\u00" ++ [hexDigit (n / 16), hexDigit (n % 16)] := by decide
  unfold escapeChar
  split_ifs with _ _ hb _ _ _ _ hl
  any_goals decide
  · exact ho c.val hl
  · exact fun hc => hb (mem_singleton.mp hc).symm

theorem quoted_oneLine (s : Text) : codePoint '\n' ∉ quoted s := by
  have he : codePoint '\n' ∉ escaped s := by
    intro hm
    obtain ⟨t, ht, hm⟩ := mem_flatten.mp hm
    obtain ⟨c, -, rfl⟩ := mem_map.mp ht
    exact escapeChar_oneLine c hm
  have hq : codePoint '\n' ≠ codePoint '"' := by decide
  simp [quoted, he, hq]

mutual

theorem tree_oneLine : ∀ v : Json, Readable v → codePoint '\n' ∉ (tree v).render
  | .null, _ | .bool true, _ | .bool false, _ | .list [], _ | .dict [], _ => by decide
  | .int n, _ => (numeral_intText n).oneLine
  | .str s, _ => quoted_oneLine s
  | .float (.finite d), _ => (numeral_reprText d).oneLine
  | .list (v :: vs), h => by
    have ho : codePoint '\n' ≠ codePoint '[' := by decide
    simp [tree, treeList, JsonTree.render, ho, tree_oneLine v h.1, treeList_oneLine vs h.2]
  | .dict ((key, v) :: rest), h => by
    have ho : codePoint '\n' ≠ codePoint '\x7b' := by decide
    have hc : codePoint '\n' ≠ codePoint ':' := by decide
    simp [tree, treeItems, JsonTree.render, ho, hc, quoted_oneLine, tree_oneLine v h.1.2.1,
      treeItems_oneLine rest h.1.2.2]

theorem treeList_oneLine : ∀ xs : List Json, ReadableList xs →
    codePoint '\n' ∉ JsonTree.renderList (treeList xs)
  | [], _ => by decide
  | v :: vs, h => by
    have hc : codePoint '\n' ≠ codePoint ',' := by decide
    simp [treeList, JsonTree.renderList, hc, tree_oneLine v h.1, treeList_oneLine vs h.2]

theorem treeItems_oneLine : ∀ items : List (Option Text × Json), ReadableItems items →
    codePoint '\n' ∉ JsonTree.renderItems (treeItems items)
  | [], _ => by decide
  | (key, v) :: rest, h => by
    have ho : codePoint '\n' ≠ codePoint ',' := by decide
    have hc : codePoint '\n' ≠ codePoint ':' := by decide
    simp [treeItems, JsonTree.renderItems, ho, hc, quoted_oneLine, tree_oneLine v h.2.1,
      treeItems_oneLine rest h.2.2]

end

theorem dumpsStrict_oneLine {v : Json} {t : Text} (h : dumpsStrict v = some t) :
    codePoint '\n' ∉ t := by
  obtain ⟨hr, h⟩ := ite_none_right_eq_some.mp h
  rw [← some.inj h]
  exact tree_oneLine _ (readable_sorted v hr)

end Json

end OriRuntime
