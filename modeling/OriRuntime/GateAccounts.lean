import OriRuntime.GateForeclosure
import OriRuntime.GateTierD

/-!
# The entries an event keeps

A record gives an open event its account when the attempt becomes uncertain and when it ends. The
account of an uncertain command is replaced by the final one; a final account, of an act that ran or
of an attempt that never entered its executor, stays until the event closes.
-/

namespace OriRuntime

open List Option

namespace Gate

variable {g g' : Gate} {t u : ℕ} {scope s : String} {identity i : ResourceIdentity} {tier : String}
  {c : Contributor} {awaitsOperator ran : Bool} {P : Entry → Prop}

/-- Event `scope` is open and has an entry of the kind. -/
def Left (P : Entry → Prop) (g : Gate) (scope : String) : Prop :=
  ∃ entries, g.scopes.get? scope = some entries ∧ ∃ e ∈ entries, P e

theorem Left.mono {Q : Entry → Prop} (h : Left P g scope) (hPQ : ∀ e, P e → Q e) :
    Left Q g scope := by
  obtain ⟨entries, hg, e, he, hP⟩ := h
  exact ⟨entries, hg, e, he, hPQ e hP⟩

theorem Left.of_scopes_eq (h : Left P g scope) (heq : g'.scopes = g.scopes) : Left P g' scope := by
  unfold Left
  rw [heq]
  exact h

theorem Left.request (h : Left P g s) :
    Left P (g.request scope identity tier c awaitsOperator).1 s := by
  rcases g.request_outcome scope identity tier c awaitsOperator with
    ⟨_, _, _, hc, _⟩ | ⟨entries, e, _, hg, _, _, _, _, _, _, _, hc, _⟩ |
    ⟨_, _, _, _, _, _, _, _, _, hc, _⟩ | ⟨_, _, _, _, _, hc, _⟩ |
    ⟨_, _, _, _, _, _, _, _, _, hc, _⟩ | ⟨_, _, _, _, _, _, _, _, _, hc, _⟩ |
    ⟨_, _, _, _, _, _, _, _, hc, _⟩
  · exact h.of_scopes_eq hc
  · split_ifs at hc with hr
    · obtain ⟨held, hh, e', he', hP⟩ := h
      by_cases hs : s = scope
      · subst hs
        have heq : held = entries := mem_unique hh hg
        refine ⟨_, by rw [hc, Dict.get?_set_self], e', ?_, hP⟩
        exact mem_append_left _ (heq ▸ he')
      · exact ⟨held, by rw [hc, Dict.get?_set_of_ne _ _ hs, hh], e', he', hP⟩
    · exact h.of_scopes_eq hc
  all_goals exact h.of_scopes_eq hc

theorem joinCompleted_ne_none (h : Left (fun e => e.identity = identity ∧
      (e.ran = true ∨ tierRank tier < tierRank "D" ∧ e.entered = false ∧ e.asked = true)) g scope) :
    g.joinCompleted scope identity tier c ≠ none := by
  obtain ⟨entries, hg, e, he, hi, hr⟩ := h
  intro hn
  unfold joinCompleted at hn
  simp only [hg] at hn
  split at hn
  · rename_i hf
    rw [List.find?_eq_none] at hf
    apply hf e he
    simp only [hi, Bool.and_eq_true, decide_eq_true_eq, Bool.or_eq_true, Bool.not_eq_true',
      decide_eq_false_iff_not, not_le, true_and, and_assoc]
    exact hr
  · cases hn

/-! ### Recording accounts -/

theorem nodup_eraseDups {α : Type*} [DecidableEq α] (l : List α) : l.eraseDups.Nodup := by
  induction hn : l.length using Nat.strong_induction_on generalizing l with
  | _ n ih =>
    cases l with
    | nil => simp
    | cons a l =>
      rw [eraseDups_cons, nodup_cons]
      refine ⟨by simp [mem_eraseDups], ih _ ?_ _ rfl⟩
      have hl := length_filter_le (fun b => !b == a) l
      simp only [length_cons] at hn
      omega

theorem nodup_claimingScopes (r : Record) : (claimingScopes r).Nodup := (nodup_eraseDups _).filter _

theorem new_mem_placeEntry (entries : List Entry) (old : Option Entry) (new : Entry) :
    new ∈ placeEntry entries old new := by
  cases old with
  | none => exact mem_append_right _ mem_cons_self
  | some e =>
    simp only [placeEntry]
    split_ifs with he
    · exact mem_set (idxOf_lt_length_of_mem he) new
    · exact mem_append_right _ mem_cons_self

theorem recordEntry_other (hs : s ≠ scope) :
    (recordEntry t ran g scope).scopes.get? s = g.scopes.get? s := by
  unfold recordEntry
  split
  · exact Dict.get?_set_of_ne _ _ hs
  · rfl

theorem foldl_recordEntry_other {scopes : List String} (hs : s ∉ scopes) :
    (scopes.foldl (recordEntry t ran) g).scopes.get? s = g.scopes.get? s := by
  induction scopes generalizing g with
  | nil => rfl
  | cons scope scopes ih =>
    obtain ⟨hn, hr⟩ := ne_and_not_mem_of_not_mem_cons hs
    rw [foldl_cons, ih hr, recordEntry_other hn]

/-- What recording accounts leaves of a record. -/
structure Recounted (ran : Bool) (r r' : Record) : Prop where
  identity : r'.identity = r.identity
  scope : r'.scope = r.scope
  entered : r'.entered = r.entered
  asked : r'.asked = r.asked
  entry : ∀ s b, entryFor r' s b = entryFor r s b
  entries : ∀ s e, r'.entries.get? s = some e → r.entries.get? s = some e ∨ e = entryFor r s ran

theorem recounted_refl (r : Record) : Recounted ran r r :=
  ⟨rfl, rfl, rfl, rfl, fun _ _ => rfl, fun _ _ h => .inl h⟩

theorem Recounted.trans {r r' r'' : Record} (h : Recounted ran r r') (h' : Recounted ran r' r'') :
    Recounted ran r r'' := by
  refine ⟨h'.identity.trans h.identity, h'.scope.trans h.scope, h'.entered.trans h.entered,
    h'.asked.trans h.asked, fun s b => (h'.entry s b).trans (h.entry s b), ?_⟩
  intro s e he
  obtain hold | hn := h'.entries s e he
  · exact h.entries s e hold
  · exact .inr (hn.trans (h.entry s ran))

theorem recordEntry_self {r : Record} (hr : g.heap[t]? = some r) :
    ∃ r', (recordEntry t ran g scope).heap[t]? = some r' ∧ Recounted ran r r' := by
  unfold recordEntry
  split
  · rename_i r₀ entries hr₀ hg
    refine ⟨{ r with entries := r.entries.set scope (entryFor r scope ran) }, ?_, ?_⟩
    · simp [hr]
    refine ⟨rfl, rfl, rfl, rfl, fun _ _ => rfl, ?_⟩
    intro s e he
    simp only [Dict.get?_set] at he
    split_ifs at he with hs
    · exact .inr (hs ▸ (some.inj he).symm)
    · exact .inl he
  · exact ⟨r, hr, recounted_refl r⟩

theorem foldl_recordEntry_self {scopes : List String} {r : Record} (hr : g.heap[t]? = some r) :
    ∃ r', (scopes.foldl (recordEntry t ran) g).heap[t]? = some r' ∧ Recounted ran r r' := by
  induction scopes generalizing g r with
  | nil => exact ⟨r, hr, recounted_refl r⟩
  | cons scope scopes ih =>
    have hself : ∃ r', (recordEntry t ran g scope).heap[t]? = some r' ∧ Recounted ran r r' :=
      recordEntry_self hr
    obtain ⟨r₁, hr₁, hf⟩ := hself
    obtain ⟨r₂, hr₂, hs⟩ := ih hr₁
    exact ⟨r₂, hr₂, hf.trans hs⟩

theorem recordEntries_self {r : Record} (hr : g.heap[t]? = some r) :
    ∃ r', (g.recordEntries t ran).heap[t]? = some r' ∧ Recounted ran r r' := by
  unfold recordEntries
  rw [hr]
  exact foldl_recordEntry_self hr

theorem recordEntries_ne (hu : u ≠ t) : (g.recordEntries t ran).heap[u]? = g.heap[u]? := by
  unfold recordEntries
  split
  · rfl
  rename_i r hr
  generalize claimingScopes r = scopes
  clear hr
  induction scopes generalizing g with
  | nil => rfl
  | cons scope scopes ih =>
    rw [foldl_cons, ih]
    unfold recordEntry
    split
    · simp [Ne.symm hu]
    · rfl

theorem Left.recordEntry (h : Left P g s) (hold : ∀ r e, g.heap[t]? = some r →
    r.entries.get? s = some e → ¬ P e) : Left P (recordEntry t ran g scope) s := by
  by_cases hs : s = scope
  · subst hs
    obtain ⟨entries, hg, e, he, hP⟩ := h
    unfold Gate.recordEntry
    split
    · rename_i r entries' hr hg'
      obtain rfl := mem_unique hg hg'
      refine ⟨_, Dict.get?_set_self _ _ _, e, ?_, hP⟩
      obtain hkeep | ⟨hre, -⟩ := mem_placeEntry (r.entries.get? s) (entryFor r s ran) he
      · exact hkeep
      · exact absurd hP (hold r e hr hre)
    · exact ⟨entries, hg, e, he, hP⟩
  · unfold Left
    rw [recordEntry_other hs]
    exact h

theorem Left.recordEntries (h : Left P g s) (hold : ∀ r e, g.heap[t]? = some r →
    r.entries.get? s = some e → ¬ P e) : Left P (g.recordEntries t ran) s := by
  unfold Gate.recordEntries
  split
  · exact h
  rename_i r hr
  have hd : (claimingScopes r).Nodup := nodup_claimingScopes r
  generalize claimingScopes r = scopes at hd
  clear hr
  induction scopes generalizing g with
  | nil => exact h
  | cons scope scopes ih =>
    obtain ⟨hn, hrs⟩ := List.nodup_cons.mp hd
    rw [List.foldl_cons]
    have hf : Left P (Gate.recordEntry t ran g scope) s := h.recordEntry hold
    by_cases hs : s = scope
    · subst hs
      unfold Left
      rw [foldl_recordEntry_other hn]
      exact hf
    · refine ih hf ?_ hrs
      intro r e hr he
      unfold Gate.recordEntry at hr
      split at hr
      · rename_i r₀ entries hr₀ hg
        simp only [List.getElem?_modify_eq, hr₀, Option.map_eq_map, Option.map_some,
          Option.some.injEq] at hr
        subst hr
        rw [Dict.get?_set_of_ne _ _ hs] at he
        exact hold r₀ e hr₀ he
      · exact hold r e hr he

theorem left_recordEntries {r : Record} (hr : g.heap[t]? = some r)
    (hs : s ∈ claimingScopes r) (ho : (g.scopes.get? s).isSome = true) :
    Left (fun e => e = entryFor r s ran) (g.recordEntries t ran) s := by
  unfold Gate.recordEntries
  rw [hr]
  simp only
  have hd := nodup_claimingScopes r
  generalize claimingScopes r = scopes at hs hd
  generalize hwant : entryFor r s ran = want
  induction scopes generalizing g r with
  | nil => cases hs
  | cons scope scopes ih =>
    obtain ⟨hn, hrs⟩ := nodup_cons.mp hd
    rw [foldl_cons]
    by_cases hss : s = scope
    · subst hss
      unfold Left
      rw [foldl_recordEntry_other hn]
      obtain ⟨entries, hg⟩ := isSome_iff_exists.mp ho
      unfold Gate.recordEntry
      simp only [hr, hg]
      exact ⟨_, Dict.get?_set_self _ _ _, want, hwant ▸ new_mem_placeEntry _ _ _, rfl⟩
    · have hself : ∃ r', (Gate.recordEntry t ran g scope).heap[t]? = some r' ∧
          Recounted ran r r' := recordEntry_self hr
      obtain ⟨r', hr', he⟩ := hself
      refine ih hr' ?_ ((mem_cons.mp hs).resolve_left hss) hrs ?_
      · rw [recordEntry_other hss]
        exact ho
      · rw [he.entry, hwant]

end Gate

end OriRuntime
