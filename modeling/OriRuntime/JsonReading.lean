import OriRuntime.Json

/-!
# Reading JSON text through hooks

A JSON document over a type of numbers, with the members of an object as they stand in the text, and
a reader that passes every string, number and member list of it through a hook. Two readers agree on
a document where their hooks do.
-/

namespace OriRuntime

open Option

inductive JsonOf (ν : Type) where
  | null
  | bool (b : Bool)
  | number (n : ν)
  | str (s : Text)
  | list (xs : List (JsonOf ν))
  | object (members : List (Text × JsonOf ν))

namespace JsonOf

variable {μ ν ξ : Type}

def get? (v : JsonOf ν) (key : Text) : Option (JsonOf ν) :=
  match v with
  | .object members => (members.find? (fun m => decide (m.1 = key))).map (·.2)
  | _ => none

def isObject : JsonOf ν → Bool
  | .object _ => true
  | _ => false

structure Hooks (μ ν : Type) where
  str : Text → Option Text
  number : μ → Option ν
  pairs : List (Text × JsonOf ν) → Option (List (Text × JsonOf ν))

mutual

def read (h : Hooks μ ν) : JsonOf μ → Option (JsonOf ν)
  | .null => some .null
  | .bool b => some (.bool b)
  | .number n => (h.number n).map .number
  | .str s => (h.str s).map .str
  | .list xs => (readList h xs).map .list
  | .object members => ((readMembers h members).bind h.pairs).map .object

def readList (h : Hooks μ ν) : List (JsonOf μ) → Option (List (JsonOf ν))
  | [] => some []
  | x :: xs => (read h x).bind (fun v => (readList h xs).map (v :: ·))

def readMembers (h : Hooks μ ν) : List (Text × JsonOf μ) → Option (List (Text × JsonOf ν))
  | [] => some []
  | (name, x) :: rest =>
    (h.str name).bind (fun name =>
    (read h x).bind (fun v => (readMembers h rest).map ((name, v) :: ·)))

end

mutual

/-- A string or a name of the document, at any depth, meets `p`. -/
def anyText (p : Text → Bool) : JsonOf ν → Bool
  | .str s => p s
  | .list xs => anyTextList p xs
  | .object members => anyTextMembers p members
  | .null | .bool _ | .number _ => false

def anyTextList (p : Text → Bool) : List (JsonOf ν) → Bool
  | [] => false
  | x :: xs => anyText p x || anyTextList p xs

def anyTextMembers (p : Text → Bool) : List (Text × JsonOf ν) → Bool
  | [] => false
  | (name, x) :: rest => p name || anyText p x || anyTextMembers p rest

end

mutual

/-- The same document but for its numbers, and these related. -/
def Same (rel : ν → ξ → Prop) : JsonOf ν → JsonOf ξ → Prop
  | .null, .null => True
  | .bool a, .bool b => a = b
  | .number m, .number n => rel m n
  | .str s, .str t => s = t
  | .list xs, .list ys => SameList rel xs ys
  | .object xs, .object ys => SameMembers rel xs ys
  | _, _ => False

def SameList (rel : ν → ξ → Prop) : List (JsonOf ν) → List (JsonOf ξ) → Prop
  | [], [] => True
  | x :: xs, y :: ys => Same rel x y ∧ SameList rel xs ys
  | _, _ => False

def SameMembers (rel : ν → ξ → Prop) : List (Text × JsonOf ν) → List (Text × JsonOf ξ) → Prop
  | [], [] => True
  | (k, x) :: xs, (l, y) :: ys => (k = l ∧ Same rel x y) ∧ SameMembers rel xs ys
  | _, _ => False

end

variable {rel : ν → ξ → Prop}

variable {xs : List (Text × JsonOf ν)} {ys : List (Text × JsonOf ξ)} {v : JsonOf ν} {w : JsonOf ξ}

theorem SameMembers.names (h : SameMembers rel xs ys) : xs.map (·.1) = ys.map (·.1) := by
  induction xs generalizing ys with
  | nil =>
    cases ys with
    | nil => rfl
    | cons y ys => exact h.elim
  | cons x xs ih =>
    cases ys with
    | nil => exact h.elim
    | cons y ys =>
      obtain ⟨⟨hn, -⟩, hr⟩ := h
      rw [List.map_cons, ih hr]
      exact congrArg (· :: _) hn

/-- What either document has under a name, the other has. -/
inductive SameFound (rel : ν → ξ → Prop) : Option (JsonOf ν) → Option (JsonOf ξ) → Prop
  | absent : SameFound rel none none
  | found {v : JsonOf ν} {w : JsonOf ξ} (h : Same rel v w) : SameFound rel (some v) (some w)

theorem SameMembers.find (h : SameMembers rel xs ys) (key : Text) :
    SameFound rel ((xs.find? (fun m => decide (m.1 = key))).map (·.2))
      ((ys.find? (fun m => decide (m.1 = key))).map (·.2)) := by
  induction xs generalizing ys with
  | nil =>
    cases ys with
    | nil => exact .absent
    | cons y ys => exact h.elim
  | cons x xs ih =>
    cases ys with
    | nil => exact h.elim
    | cons y ys =>
      obtain ⟨⟨hn, hv⟩, hr⟩ := h
      rw [List.find?_cons, List.find?_cons, ← hn]
      by_cases hk : x.1 = key
      · simpa only [hk, decide_true] using .found hv
      · simpa only [hk, decide_false] using ih hr

theorem Same.get (h : Same rel v w) (key : Text) : SameFound rel (v.get? key) (w.get? key) := by
  cases v <;> cases w <;> first
    | exact h.elim
    | exact .absent
    | exact SameMembers.find h key

theorem Same.isObject (h : Same rel v w) : v.isObject = w.isObject := by
  cases v <;> cases w <;> first
    | exact h.elim
    | rfl

/-! ### Two readers of one document -/

/-- The second reader refuses the strings that meet `p` and reads all else as the first does. -/
structure Refines (p : Text → Bool) (rel : ν → ξ → Prop) (h : Hooks μ ν) (g : Hooks μ ξ) :
    Prop where
  str : ∀ s, h.str s = some s
  str' : ∀ s, g.str s = if p s then none else some s
  number : ∀ n, h.number n = none ∧ g.number n = none ∨
    ∃ a b, h.number n = some a ∧ g.number n = some b ∧ rel a b
  keeps : ∀ xs, h.pairs xs = none ∨ h.pairs xs = some xs
  pairs : ∀ xs ys, SameMembers rel xs ys →
    h.pairs xs = none ∧ g.pairs ys = none ∨ h.pairs xs = some xs ∧ g.pairs ys = some ys

/-- What the two readers make of a document, by the texts of what the first makes of it. -/
def Agree {α β : Type} (p : α → Bool) (rel : α → β → Prop) (a : Option α) (b : Option β) : Prop :=
  (a = none ∧ b = none) ∨ ∃ v, a = some v ∧
    ((p v = true ∧ b = none) ∨ (p v = false ∧ ∃ w, b = some w ∧ rel v w))

variable {p : Text → Bool} {h : Hooks μ ν} {g : Hooks μ ξ}

mutual

theorem Refines.read (r : Refines p rel h g) :
    ∀ x : JsonOf μ, Agree (anyText p) (Same rel) (JsonOf.read h x) (JsonOf.read g x)
  | .null => .inr ⟨.null, rfl, .inr ⟨rfl, .null, rfl, trivial⟩⟩
  | .bool b => .inr ⟨.bool b, rfl, .inr ⟨rfl, .bool b, rfl, rfl⟩⟩
  | .number n => by
      simp only [JsonOf.read]
      rcases r.number n with ⟨hn, gn⟩ | ⟨a, b, hn, gn, ha⟩
      · exact .inl ⟨by rw [hn]; rfl, by rw [gn]; rfl⟩
      · exact .inr ⟨.number a, by rw [hn]; rfl, .inr ⟨rfl, .number b, by rw [gn]; rfl, ha⟩⟩
  | .str s => by
      simp only [JsonOf.read, r.str, r.str']
      refine .inr ⟨.str s, rfl, ?_⟩
      cases hp : p s with
      | true => exact .inl ⟨hp, rfl⟩
      | false => exact .inr ⟨hp, .str s, rfl, rfl⟩
  | .list xs => by
      simp only [JsonOf.read]
      rcases r.readList xs with ⟨hn, gn⟩ | ⟨vs, hn, ⟨hp, gn⟩ | ⟨hp, ws, gn, hs⟩⟩
      · exact .inl ⟨by rw [hn]; rfl, by rw [gn]; rfl⟩
      · exact .inr ⟨.list vs, by rw [hn]; rfl, .inl ⟨hp, by rw [gn]; rfl⟩⟩
      · exact .inr ⟨.list vs, by rw [hn]; rfl, .inr ⟨hp, .list ws, by rw [gn]; rfl, hs⟩⟩
  | .object members => by
      simp only [JsonOf.read]
      rcases r.readMembers members with ⟨hn, gn⟩ | ⟨vs, hn, ⟨hp, gn⟩ | ⟨hp, ws, gn, hs⟩⟩
      · exact .inl ⟨by rw [hn]; rfl, by rw [gn]; rfl⟩
      · rw [hn, gn]
        simp only [bind_some, bind_none, map_none]
        rcases r.keeps vs with hno | ho
        · exact .inl ⟨by rw [hno]; rfl, rfl⟩
        · exact .inr ⟨.object vs, by rw [ho]; rfl, .inl ⟨hp, rfl⟩⟩
      · rw [hn, gn]
        simp only [bind_some]
        rcases r.pairs vs ws hs with ⟨hno, gnone⟩ | ⟨ho, gsome⟩
        · exact .inl ⟨by rw [hno]; rfl, by rw [gnone]; rfl⟩
        · exact .inr ⟨.object vs, by rw [ho]; rfl, .inr ⟨hp, .object ws, by rw [gsome]; rfl, hs⟩⟩

theorem Refines.readList (r : Refines p rel h g) : ∀ xs : List (JsonOf μ),
      Agree (anyTextList p) (SameList rel) (JsonOf.readList h xs) (JsonOf.readList g xs)
  | [] => .inr ⟨[], rfl, .inr ⟨rfl, [], rfl, trivial⟩⟩
  | x :: xs => by
      simp only [JsonOf.readList]
      rcases r.read x with ⟨hn, gn⟩ | ⟨v, hn, ha⟩
      · exact .inl ⟨by rw [hn]; rfl, by rw [gn]; rfl⟩
      rcases r.readList xs with ⟨hns, gns⟩ | ⟨vs, hns, hc⟩
      · refine .inl ⟨by rw [hn, hns]; rfl, ?_⟩
        rw [gns]
        cases JsonOf.read g x <;> rfl
      refine .inr ⟨v :: vs, by rw [hn, hns]; rfl, ?_⟩
      rcases ha with ⟨hp, gn⟩ | ⟨hp, w, gn, hm⟩
      · exact .inl ⟨by simp [anyTextList, hp], by rw [gn]; rfl⟩
      rcases hc with ⟨hps, gns⟩ | ⟨hps, ws, gns, hs⟩
      · exact .inl ⟨by simp [anyTextList, hps], by rw [gn, gns]; rfl⟩
      · exact .inr ⟨by simp [anyTextList, hp, hps], w :: ws, by rw [gn, gns]; rfl, hm, hs⟩

theorem Refines.readMembers (r : Refines p rel h g) : ∀ xs : List (Text × JsonOf μ),
      Agree (anyTextMembers p) (SameMembers rel) (JsonOf.readMembers h xs) (JsonOf.readMembers g xs)
  | [] => .inr ⟨[], rfl, .inr ⟨rfl, [], rfl, trivial⟩⟩
  | (name, x) :: xs => by
      simp only [JsonOf.readMembers, r.str, r.str', bind_some]
      rcases r.read x with ⟨hn, gn⟩ | ⟨v, hn, ha⟩
      · refine .inl ⟨by rw [hn]; rfl, ?_⟩
        rw [gn]
        split_ifs <;> rfl
      rcases r.readMembers xs with ⟨hns, gns⟩ | ⟨vs, hns, hc⟩
      · refine .inl ⟨by rw [hn, hns]; rfl, ?_⟩
        rw [gns]
        split_ifs
        · rfl
        · cases JsonOf.read g x <;> rfl
      refine .inr ⟨(name, v) :: vs, by rw [hn, hns]; rfl, ?_⟩
      cases hm : p name with
      | true => exact .inl ⟨by simp [anyTextMembers, hm], rfl⟩
      | false =>
        rcases ha with ⟨hp, gn⟩ | ⟨hp, w, gn, hsm⟩
        · exact .inl ⟨by simp [anyTextMembers, hp], by rw [gn]; rfl⟩
        rcases hc with ⟨hps, gns⟩ | ⟨hps, ws, gns, hs⟩
        · exact .inl ⟨by simp [anyTextMembers, hps], by rw [gn, gns]; rfl⟩
        · exact .inr ⟨by simp [anyTextMembers, hm, hp, hps], (name, w) :: ws,
            by rw [gn, gns]; rfl, ⟨rfl, hsm⟩, hs⟩

end

end JsonOf

end OriRuntime
