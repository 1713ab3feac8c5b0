import OriRuntime.JsonRoundTrip

/-!
# Compact JSON texts

The text of a JSON document in compact form, its numbers and literals given by their own texts and
its members in the order they stand. The text of a tree whose atoms hold no delimiter names the
tree.
-/

namespace OriRuntime

open List Option

inductive JsonTree where
  | atom (t : Text)
  | str (s : Text)
  | list (xs : List JsonTree)
  | dict (items : List (Text × JsonTree))

namespace JsonTree

mutual

def render : JsonTree → Text
  | .atom t => t
  | .str s => Json.quoted s
  | .list [] => text "[]"
  | .list (v :: vs) => codePoint '[' :: (render v ++ renderList vs)
  | .dict [] => text "\x7b\x7d"
  | .dict ((key, v) :: rest) =>
    codePoint '\x7b' :: (Json.quoted key ++ codePoint ':' :: (render v ++ renderItems rest))

def renderList : List JsonTree → Text
  | [] => [codePoint ']']
  | v :: vs => codePoint ',' :: (render v ++ renderList vs)

def renderItems : List (Text × JsonTree) → Text
  | [] => [codePoint '\x7d']
  | (key, v) :: rest =>
    codePoint ',' :: (Json.quoted key ++ codePoint ':' :: (render v ++ renderItems rest))

end

def delimiters : Text := text ",]\x7d"

def Ends (r : Text) : Prop := ∀ c ∈ r.head?, c ∈ delimiters

def AtomText (t : Text) : Prop :=
  ∃ c cs, t = c :: cs ∧ c ∉ text "\"[\x7b" ∧ ∀ d ∈ t, d ∉ delimiters

mutual

def Plain : JsonTree → Prop
  | .atom t => AtomText t
  | .str _ => True
  | .list xs => PlainList xs
  | .dict items => PlainItems items

def PlainList : List JsonTree → Prop
  | [] => True
  | v :: vs => Plain v ∧ PlainList vs

def PlainItems : List (Text × JsonTree) → Prop
  | [] => True
  | (_, v) :: rest => Plain v ∧ PlainItems rest

end

theorem plainList_iff {xs : List JsonTree} : PlainList xs ↔ ∀ v ∈ xs, Plain v := by
  induction xs with
  | nil => exact ⟨fun _ => nofun, fun _ => trivial⟩
  | cons v vs ih => rw [PlainList, ih, forall_mem_cons]

variable {items : List (Text × JsonTree)} {v w : JsonTree} {r t r' : Text}

theorem plainItems_iff : PlainItems items ↔ ∀ item ∈ items, Plain item.2 := by
  induction items with
  | nil => exact ⟨fun _ => nofun, fun _ => trivial⟩
  | cons item rest ih => rw [PlainItems, ih, forall_mem_cons]

/-! ### First characters -/

inductive Kind where
  | atom
  | str
  | list
  | dict
  deriving DecidableEq

/-- What a first character says a value is. -/
def kindOf (c : CodePoint) : Kind :=
  if c = codePoint '"' then .str else if c = codePoint '[' then .list
  else if c = codePoint '\x7b' then .dict else .atom

def kind : JsonTree → Kind
  | .atom _ => .atom
  | .str _ => .str
  | .list _ => .list
  | .dict _ => .dict

theorem render_head (h : Plain v) :
    ∃ c cs, render v = c :: cs ∧ kindOf c = v.kind ∧ c ∉ delimiters := by
  cases v with
  | atom t =>
    obtain ⟨c, cs, rfl, ho, hp⟩ := h
    refine ⟨c, cs, rfl, ?_, hp c mem_cons_self⟩
    unfold kindOf
    rw [if_neg, if_neg, if_neg]
    · rfl
    all_goals
      rintro rfl
      exact ho (by decide)
  | str s => exact ⟨codePoint '"', _, rfl, show kindOf (codePoint '"') = .str by decide, by decide⟩
  | list xs =>
    have hl : kindOf (codePoint '[') = .list := by decide
    cases xs with
    | nil => exact ⟨codePoint '[', _, rfl, hl, by decide⟩
    | cons v vs => exact ⟨codePoint '[', _, by rw [render], hl, by decide⟩
  | dict items =>
    have hdict : kindOf (codePoint '\x7b') = .dict := by decide
    cases items with
    | nil => exact ⟨codePoint '\x7b', _, rfl, hdict, by decide⟩
    | cons item rest =>
      exact ⟨codePoint '\x7b', _, by rw [render], hdict, by decide⟩

theorem kind_eq (hv : Plain v) (hw : Plain w) (h : render v ++ r = render w ++ r') :
    v.kind = w.kind := by
  obtain ⟨c, cs, hc, hk, -⟩ := render_head hv
  obtain ⟨d, ds, hd, hk', -⟩ := render_head hw
  rw [hc, hd, cons_append, cons_append, List.cons.injEq] at h
  rw [← hk, ← hk', h.1]

/-! ### Unique reading -/

theorem ends_renderList (vs : List JsonTree) (r : Text) : Ends (renderList vs ++ r) := by
  intro c hc
  cases vs with
  | nil =>
    obtain rfl : codePoint ']' = c := some.inj hc
    decide
  | cons v vs =>
    obtain rfl : codePoint ',' = c := some.inj hc
    decide

theorem ends_renderItems (items : List (Text × JsonTree)) (r : Text) :
    Ends (renderItems items ++ r) := by
  intro c hc
  cases items with
  | nil =>
    obtain rfl : codePoint '\x7d' = c := some.inj hc
    decide
  | cons item rest =>
    obtain rfl : codePoint ',' = c := some.inj hc
    decide

theorem quoted_append_inj {s : Text} (h : Json.quoted s ++ r = Json.quoted t ++ r') :
    s = t ∧ r = r' := by
  have hp : ∀ s r, Json.quoted s ++ r = codePoint '"' :: (Json.escaped s ++
      codePoint '"' :: r) := by
    simp [Json.quoted]
  rw [hp, hp, List.cons.injEq] at h
  have hc := congrArg Json.parseChars h.2
  rw [Json.parseChars_escaped, Json.parseChars_escaped, some.injEq, Prod.mk.injEq] at hc
  exact hc

theorem atom_append_inj {u : Text} (ht : AtomText t) (hu : AtomText u) (hr : Ends r) (hr' : Ends r')
    (h : t ++ r = u ++ r') : t = u ∧ r = r' := by
  have hp : ∀ {t r : Text}, AtomText t → Ends r →
      (t ++ r).takeWhile (fun c => decide (c ∉ delimiters)) = t := by
    intro t r ht hr
    obtain ⟨-, -, -, -, hl⟩ := ht
    rw [takeWhile_append_of_pos (fun c hc => decide_eq_true (hl c hc))]
    cases r with
    | nil => exact append_nil t
    | cons c cs =>
      have hc : c ∈ delimiters := hr c rfl
      rw [takeWhile_cons_of_neg (by simpa using hc), append_nil]
  have htu : t = u := by
    rw [← hp ht hr, h, hp hu hr']
  subst htu
  exact ⟨rfl, append_cancel_left h⟩

theorem member_append_inj {key key' v w rest rest' : Text}
    (h : Json.quoted key ++ codePoint ':' :: (v ++ rest) ++ r =
      Json.quoted key' ++ codePoint ':' :: (w ++ rest') ++ r') :
    key = key' ∧ v ++ (rest ++ r) = w ++ (rest' ++ r') := by
  rw [append_assoc, append_assoc, cons_append, cons_append, append_assoc, append_assoc] at h
  obtain ⟨rfl, hr⟩ := quoted_append_inj h
  exact ⟨rfl, (List.cons.inj hr).2⟩

theorem close_ne_render (hv : Plain v) {c : CodePoint} (hc : c ∈ delimiters) (cs r : Text) :
    c :: cs ≠ render v ++ r := by
  obtain ⟨d, ds, hd, -, hp⟩ := render_head hv
  rw [hd]
  intro h
  exact hp ((List.cons.inj h).1 ▸ hc)

mutual

theorem render_append_inj : ∀ (v w : JsonTree) (r r' : Text), Plain v → Plain w → Ends r → Ends r' →
    render v ++ r = render w ++ r' → v = w ∧ r = r'
  | .atom t, .atom u, r, r', hv, hw, hr, hr', h => by
      obtain ⟨rfl, rfl⟩ := atom_append_inj hv hw hr hr' h
      exact ⟨rfl, rfl⟩
  | .str s, .str t, r, r', _, _, _, _, h => by
      obtain ⟨rfl, rfl⟩ := quoted_append_inj h
      exact ⟨rfl, rfl⟩
  | .list [], .list [], r, r', _, _, _, _, h => ⟨rfl, append_cancel_left h⟩
  | .list [], .list (w :: ws), r, r', _, hw, _, _, h => by
      rw [render, render, cons_append, append_assoc] at h
      exact absurd (List.cons.inj h).2 (close_ne_render hw.1 (by decide) _ _)
  | .list (v :: vs), .list [], r, r', hv, _, _, _, h => by
      rw [render, render, cons_append, append_assoc] at h
      exact absurd (List.cons.inj h).2.symm (close_ne_render hv.1 (by decide) _ _)
  | .list (v :: vs), .list (w :: ws), r, r', hv, hw, _, _, h => by
      rw [render, render, cons_append, cons_append, append_assoc, append_assoc] at h
      obtain ⟨rfl, hs⟩ := render_append_inj v w _ _ hv.1 hw.1 (ends_renderList vs r)
        (ends_renderList ws r') (List.cons.inj h).2
      obtain ⟨rfl, rfl⟩ := renderList_append_inj vs ws r r' hv.2 hw.2 hs
      exact ⟨rfl, rfl⟩
  | .dict [], .dict [], r, r', _, _, _, _, h => ⟨rfl, append_cancel_left h⟩
  | .dict [], .dict ((key, w) :: ws), r, r', _, _, _, _, h
  | .dict ((key, v) :: vs), .dict [], r, r', _, _, _, _, h => by
      rw [render, render] at h
      exact absurd (List.cons.inj (List.cons.inj h).2).1 (by decide)
  | .dict ((key, v) :: vs), .dict ((key', w) :: ws), r, r', hv, hw, _, _, h => by
      rw [render, render, cons_append, cons_append] at h
      obtain ⟨rfl, hm⟩ := member_append_inj (List.cons.inj h).2
      obtain ⟨rfl, hs⟩ := render_append_inj v w _ _ hv.1 hw.1 (ends_renderItems vs r)
        (ends_renderItems ws r') hm
      obtain ⟨rfl, rfl⟩ := renderItems_append_inj vs ws r r' hv.2 hw.2 hs
      exact ⟨rfl, rfl⟩
  | .atom _, .str _, _, _, hv, hw, _, _, h | .atom _, .list _, _, _, hv, hw, _, _, h
  | .atom _, .dict _, _, _, hv, hw, _, _, h | .str _, .atom _, _, _, hv, hw, _, _, h
  | .str _, .list _, _, _, hv, hw, _, _, h | .str _, .dict _, _, _, hv, hw, _, _, h
  | .list _, .atom _, _, _, hv, hw, _, _, h | .list _, .str _, _, _, hv, hw, _, _, h
  | .list _, .dict _, _, _, hv, hw, _, _, h | .dict _, .atom _, _, _, hv, hw, _, _, h
  | .dict _, .str _, _, _, hv, hw, _, _, h | .dict _, .list _, _, _, hv, hw, _, _, h =>
    nomatch kind_eq hv hw h

theorem renderList_append_inj : ∀ (vs ws : List JsonTree) (r r' : Text), PlainList vs →
    PlainList ws → renderList vs ++ r = renderList ws ++ r' → vs = ws ∧ r = r'
  | [], [], _, _, _, _, h => ⟨rfl, append_cancel_left h⟩
  | [], w :: ws, _, _, _, _, h | v :: vs, [], _, _, _, _, h =>
    absurd (List.cons.inj h).1 (by decide)
  | v :: vs, w :: ws, r, r', hv, hw, h => by
      rw [renderList, renderList, cons_append, cons_append, append_assoc, append_assoc] at h
      obtain ⟨rfl, hr⟩ := render_append_inj v w _ _ hv.1 hw.1 (ends_renderList vs r)
        (ends_renderList ws r') (List.cons.inj h).2
      obtain ⟨rfl, rfl⟩ := renderList_append_inj vs ws r r' hv.2 hw.2 hr
      exact ⟨rfl, rfl⟩

theorem renderItems_append_inj : ∀ (vs ws : List (Text × JsonTree)) (r r' : Text), PlainItems vs →
    PlainItems ws → renderItems vs ++ r = renderItems ws ++ r' → vs = ws ∧ r = r'
  | [], [], _, _, _, _, h => ⟨rfl, append_cancel_left h⟩
  | [], (_, w) :: ws, _, _, _, _, h | (_, v) :: vs, [], _, _, _, _, h =>
    absurd (List.cons.inj h).1 (by decide)
  | (key, v) :: vs, (key', w) :: ws, r, r', hv, hw, h => by
      rw [renderItems, renderItems, cons_append, cons_append] at h
      obtain ⟨rfl, hm⟩ := member_append_inj (List.cons.inj h).2
      obtain ⟨rfl, hr⟩ := render_append_inj v w _ _ hv.1 hw.1 (ends_renderItems vs r)
        (ends_renderItems ws r') hm
      obtain ⟨rfl, rfl⟩ := renderItems_append_inj vs ws r r' hv.2 hw.2 hr
      exact ⟨rfl, rfl⟩

end

theorem dict_append_inj {items' : List (Text × JsonTree)} (hv : PlainItems items)
    (hw : PlainItems items') (h : render (.dict items) ++ r = render (.dict items') ++ r') :
    items = items' ∧ r = r' := by
  cases items with
  | nil =>
    cases items' with
    | nil => exact ⟨rfl, append_cancel_left h⟩
    | cons m ms =>
      exact absurd (List.cons.inj (List.cons.inj h).2).1 (by decide)
  | cons m ms =>
    cases items' with
    | nil =>
      exact absurd (List.cons.inj (List.cons.inj h).2).1 (by decide)
    | cons m' ms' =>
      obtain ⟨key, v⟩ := m
      obtain ⟨key', w⟩ := m'
      obtain ⟨rfl, hm⟩ := member_append_inj (List.cons.inj h).2
      obtain ⟨rfl, hr⟩ := render_append_inj v w _ _ hv.1 hw.1 (ends_renderItems ms r)
        (ends_renderItems ms' r') hm
      obtain ⟨rfl, rfl⟩ := renderItems_append_inj ms ms' r r' hv.2 hw.2 hr
      exact ⟨rfl, rfl⟩

theorem render_inj (hv : Plain v) (hw : Plain w) (h : render v = render w) : v = w := by
  have ha : render v ++ [] = render w ++ [] := by rw [h]
  exact (render_append_inj v w [] [] hv hw nofun nofun ha).1

end JsonTree

end OriRuntime
