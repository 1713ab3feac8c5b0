import OriRuntime.GateSteps

/-!
# Foreclosure outlives the attempt

An entry left by an entered act keeps refusing the opposite act for as long as its event is open.
Entries are replaced by value, so the argument needs one invariant of the records: the account a
record last gave an event has the record's identity, never claims more than the record's present
claim for that event, and is entered only if the record is.
-/

namespace OriRuntime.Gate

open List Option

open Execution

variable {g : Gate} {scope s : String} {identity i : ResourceIdentity} {tier : String} {n : ℕ}

def claimRank (r : Record) (scope : String) : ℕ :=
  tierRank (((claimedTiers r scope).argmax tierRank).getD "")

variable {r r' : Record} {g' : Gate} {op : Op} {ops : List Op}

theorem claimRank_mono {scope : String} (h : ∀ c ∈ claimedTiers r scope, c ∈ claimedTiers r' scope) :
    claimRank r scope ≤ claimRank r' scope := by
  unfold claimRank
  cases hm : (claimedTiers r scope).argmax tierRank with
  | none => exact Nat.zero_le _
  | some m =>
    have he : m ∈ claimedTiers r' scope := h m (argmax_mem hm)
    cases hm' : (claimedTiers r' scope).argmax tierRank with
    | none =>
      rw [argmax_eq_none] at hm'
      simp [hm'] at he
    | some m' => exact le_of_mem_argmax he hm'

/-- Every account the record has given is below what the record claims now. -/
def Accounted (r : Record) : Prop :=
  ∀ scope e, r.entries.get? scope = some e →
    e.identity = r.identity ∧ tierRank e.tier ≤ claimRank r scope ∧
      (e.entered = true → r.entered = true)

theorem Accounted.of_le (h : Accounted r) (hd : r'.identity = r.identity)
    (hentr : r'.entries = r.entries) (hc : ∀ scope, claimRank r scope ≤ claimRank r' scope)
    (het : r.entered = true → r'.entered = true) : Accounted r' := by
  intro scope e he
  rw [hentr] at he
  obtain ⟨hi, ht, hn⟩ := h scope e he
  exact ⟨hi.trans hd.symm, ht.trans (hc scope), fun hen => het (hn hen)⟩

theorem Accounted.join (h : Accounted r) (c : Contributor) :
    Accounted { r with contributors := r.contributors ++ [c] } := by
  refine h.of_le rfl rfl ?_ id
  intro scope
  apply claimRank_mono
  intro x hx
  simp only [claimedTiers, filter_append, map_append, mem_append] at hx ⊢
  rcases hx with hx | hx
  · exact .inl (.inl hx)
  · exact .inr hx

theorem Accounted.recordEntry (h : Accounted r) (scope : String) (ran : Bool) :
    Accounted { r with entries := r.entries.set scope (entryFor r scope ran) } := by
  intro s e he
  simp only [Dict.get?_set] at he
  split_ifs at he with hs
  · cases he
    subst hs
    exact ⟨rfl, le_rfl, id⟩
  · exact h s e he

def HeapAccounted (g : Gate) : Prop := ∀ r ∈ g.heap, Accounted r

theorem forall_mem_modify {α : Type*} {P : α → Prop} {f : α → α} (hf : ∀ a, P a → P (f a))
    {l : List α} (h : ∀ a ∈ l, P a) (t : ℕ) : ∀ a ∈ l.modify t f, P a := by
  intro a ha
  obtain ⟨u, hu⟩ := mem_iff_getElem?.mp ha
  rw [List.getElem?_modify] at hu
  obtain ⟨b, hb, rfl⟩ := map_eq_some_iff.mp hu
  have hPb := h b (mem_of_getElem? hb)
  split_ifs
  · exact hf b hPb
  · exact hPb

theorem HeapAccounted.modifyRecord (h : HeapAccounted g) (t : ℕ) {f : Record → Record}
    (hf : ∀ r, Accounted r → Accounted (f r)) : HeapAccounted (g.modifyRecord t f) :=
  forall_mem_modify hf h t

theorem HeapAccounted.recordEntry (h : HeapAccounted g) (t : ℕ) (ran : Bool) (scope : String) :
    HeapAccounted (recordEntry t ran g scope) := by
  unfold Gate.recordEntry
  split
  · exact forall_mem_modify (fun r hr => hr.recordEntry scope ran) h t
  · exact h

theorem HeapAccounted.recordEntries (h : HeapAccounted g) (t : ℕ) (ran : Bool) :
    HeapAccounted (g.recordEntries t ran) := by
  unfold Gate.recordEntries
  split
  · exact h
  · exact List.foldlRecOn (motive := HeapAccounted) _ _ h (fun u hu sc _ => hu.recordEntry t ran sc)

theorem HeapAccounted.release (h : HeapAccounted g) (t : ℕ) (key : List String) :
    HeapAccounted (g.release t key) := by
  simpa only [HeapAccounted, release_heap] using h

theorem accounted_freshRecord (scope : String) (identity : ResourceIdentity) (tier : String)
    (c : Contributor) (awaitsOperator : Bool) :
    Accounted (freshRecord scope identity tier c awaitsOperator) := by
  intro s e he
  simp [freshRecord] at he

theorem Accounted.of_attempt (h : Accounted r) (hi : r'.identity = r.identity)
    (htier : r'.tier = r.tier) (hs : r'.scope = r.scope)
    (hc : r'.contributors = r.contributors) (hentr : r'.entries = r.entries)
    (he : r.entered = true → r'.entered = true) : Accounted r' := by
  refine h.of_le hi hentr ?_ he
  intro scope
  simp only [claimRank, claimedTiers, htier, hs, hc, le_rfl]

theorem heapAccounted_request (h : HeapAccounted g) (scope : String) (identity : ResourceIdentity)
    (tier : String) (c : Contributor) (awaitsOperator : Bool) :
    HeapAccounted (g.request scope identity tier c awaitsOperator).1 := by
  have hf : ∀ {l : List Record}, (∀ r ∈ l, Accounted r) →
      ∀ r ∈ l ++ [freshRecord scope identity tier c awaitsOperator], Accounted r := by
    intro l hl r hr
    rcases mem_append.mp hr with hr | hr
    · exact hl r hr
    · rw [mem_singleton.mp hr]
      exact accounted_freshRecord scope identity tier c awaitsOperator
  unfold HeapAccounted
  rcases g.request_outcome scope identity tier c awaitsOperator with
    ⟨_, hheap⟩ | ⟨_, _, _, _, _, _, _, _, _, hheap⟩ | ⟨t, _, _, _, _, _, _, hheap⟩ |
    ⟨_, _, _, hheap⟩ | ⟨t, _, _, _, _, _, _, hheap⟩ | ⟨t, _, _, _, _, _, _, hheap⟩ |
    ⟨t, _, _, _, _, _, hheap⟩
  · rw [hheap]
    exact h
  · rw [hheap]
    exact h
  · rw [hheap]
    exact forall_mem_modify (fun r hr => hr.join _) h t
  · rw [hheap]
    exact hf h
  · rw [hheap]
    exact hf (forall_mem_modify (fun r hr => hr.of_attempt rfl rfl rfl rfl rfl id) h t)
  · rw [hheap]
    exact hf (forall_mem_modify (fun r hr => hr.of_attempt rfl rfl rfl rfl rfl id) h t)
  · rw [hheap]
    exact forall_mem_modify (fun r hr => hr.of_attempt rfl rfl rfl rfl rfl id) h t

theorem heapAccounted_apply (h : HeapAccounted g) (op : Op) : HeapAccounted (g.apply op) := by
  cases op with
  | openScope scope | closeScope scope => exact h
  | request scope identity tier c aw => exact heapAccounted_request h scope identity tier c aw
  | markProposal t pid => exact h.modifyRecord t (fun r hr => hr.of_attempt rfl rfl rfl rfl rfl id)
  | markRunning t => exact h.modifyRecord t (fun r hr => hr.of_attempt rfl rfl rfl rfl rfl (fun _ => rfl))
  | replyAdmitted t =>
    simp only [apply, replyAdmitted]
    split
    · exact h
    split_ifs
    · exact h
    · exact h
    · exact h.modifyRecord t (fun r hr => hr.of_attempt rfl rfl rfl rfl rfl (fun _ => rfl))
  | markUncertain t =>
    simp only [apply, markUncertain]
    split
    · exact h
    · apply HeapAccounted.recordEntries
      exact h.modifyRecord t (fun r hr => hr.of_attempt rfl rfl rfl rfl rfl (fun _ => rfl))
  | retire t result =>
    simp only [apply, retire]
    split
    · exact h
    split_ifs
    · exact h
    apply HeapAccounted.release
    refine HeapAccounted.modifyRecord ?_ t (fun r hr => hr.of_attempt rfl rfl rfl rfl rfl id)
    apply HeapAccounted.recordEntries
    exact h.modifyRecord t (fun r hr => hr.of_attempt rfl rfl rfl rfl rfl id)
  | resolveUncertain t accepted =>
    simp only [apply, resolveUncertain]
    split
    · exact h
    split_ifs
    · exact h
    apply HeapAccounted.release
    apply HeapAccounted.recordEntries
    exact h.modifyRecord t (fun r hr => hr.of_attempt rfl rfl rfl rfl rfl id)

/-- Event `s` is open and holds an entry of `i` left by an entered act at rank `n` or above. -/
def Forecloses (g : Gate) (s : String) (i : ResourceIdentity) (n : ℕ) : Prop :=
  ∃ entries, g.scopes.get? s = some entries ∧
    ∃ e ∈ entries, e.entered = true ∧ e.identity = i ∧ n ≤ tierRank e.tier

theorem Forecloses.of_scopes_eq (h : Forecloses g s i n) (heq : g'.scopes = g.scopes) :
    Forecloses g' s i n := by
  unfold Forecloses
  rw [heq]
  exact h

theorem Forecloses.modifyRecord (h : Forecloses g s i n) (t : ℕ) (f : Record → Record) :
    Forecloses (g.modifyRecord t f) s i n := h

theorem Forecloses.recordEvent (h : Forecloses g s i n) (e : Suppression) :
    Forecloses (g.recordEvent e) s i n := h

theorem Forecloses.release (h : Forecloses g s i n) (t : ℕ) (key : List String) :
    Forecloses (g.release t key) s i n := h.of_scopes_eq (release_scopes g t key)

theorem mem_placeEntry {entries : List Entry} {e : Entry} (old : Option Entry) (new : Entry)
    (he : e ∈ entries) :
    e ∈ placeEntry entries old new ∨ old = some e ∧ new ∈ placeEntry entries old new := by
  cases old with
  | none => exact .inl (mem_append_left _ he)
  | some o =>
    simp only [placeEntry]
    split_ifs with ho
    · have hl : entries.idxOf o < entries.length := idxOf_lt_length_of_mem ho
      by_cases heo : e = o
      · exact .inr ⟨by rw [heo], mem_set hl new⟩
      obtain ⟨k, hk⟩ := mem_iff_getElem?.mp he
      have hn : entries.idxOf o ≠ k := by
        rintro rfl
        rw [List.getElem?_eq_getElem hl, getElem_idxOf hl] at hk
        exact heo (some.inj hk).symm
      refine .inl (mem_iff_getElem?.mpr ⟨k, ?_⟩)
      rw [List.getElem?_set_ne hn]
      exact hk
    · exact .inl (mem_append_left _ he)

/-- The one place an entry can go: it is replaced by the newer account of the record that left it,
or of one that left an equal entry, and that account claims no less. -/
theorem Forecloses.recordEntry (ha : HeapAccounted g) (h : Forecloses g s i n) (t : ℕ)
    (ran : Bool) (scope : String) : Forecloses (recordEntry t ran g scope) s i n := by
  obtain ⟨entries, hg, e, he, hen, hd, hn⟩ := h
  unfold Gate.recordEntry
  split
  · rename_i r entries' hr he'
    by_cases hs : s = scope
    · subst hs
      have heq : entries' = entries := mem_unique he' hg
      subst heq
      refine ⟨_, Dict.get?_set_self _ _ _, ?_⟩
      rcases mem_placeEntry (r.entries.get? s) (entryFor r s ran) he with hkeep | ⟨hold, hne⟩
      · exact ⟨e, hkeep, hen, hd, hn⟩
      · obtain ⟨hi, ht, hentr⟩ := ha r (mem_of_getElem? hr) s e hold
        exact ⟨_, hne, hentr hen, hi.symm.trans hd, hn.trans ht⟩
    · exact ⟨entries, (Dict.get?_set_of_ne _ _ hs).trans hg, e, he, hen, hd, hn⟩
  · exact ⟨entries, hg, e, he, hen, hd, hn⟩

theorem Forecloses.recordEntries (ha : HeapAccounted g) (h : Forecloses g s i n) (t : ℕ)
    (ran : Bool) : Forecloses (g.recordEntries t ran) s i n := by
  unfold Gate.recordEntries
  split
  · exact h
  rename_i r _
  suffices ∀ scopes : List String, ∀ g : Gate, HeapAccounted g → Forecloses g s i n →
      Forecloses (scopes.foldl (Gate.recordEntry t ran) g) s i n from this _ g ha h
  intro scopes
  induction scopes with
  | nil => exact fun _ _ hf => hf
  | cons scope scopes ih =>
    intro g hg hf
    exact ih _ (hg.recordEntry t ran scope) (hf.recordEntry hg t ran scope)

theorem Forecloses.request (h : Forecloses g s i n) (scope : String) (identity : ResourceIdentity)
    (tier : String) (c : Contributor) (awaitsOperator : Bool) :
    Forecloses (g.request scope identity tier c awaitsOperator).1 s i n := by
  rcases g.request_outcome scope identity tier c awaitsOperator with
    ⟨_, _, _, hc⟩ | ⟨entries, e, _, hg, _, _, _, _, _, _, _, hc⟩ |
    ⟨_, _, _, _, _, _, _, _, _, hc⟩ | ⟨_, _, _, _, _, hc⟩ | ⟨_, _, _, _, _, _, _, _, _, hc⟩ |
    ⟨_, _, _, _, _, _, _, _, _, hc⟩ | ⟨_, _, _, _, _, _, _, _, hc⟩
  · exact h.of_scopes_eq hc
  · split_ifs at hc with hr
    · obtain ⟨held, hh, e', he', hrs⟩ := h
      by_cases hs : s = scope
      · subst hs
        have heq : held = entries := mem_unique hh hg
        refine ⟨_, by rw [hc, Dict.get?_set_self], e', ?_, hrs⟩
        exact mem_append_left _ (heq ▸ he')
      · exact ⟨held, by rw [hc, Dict.get?_set_of_ne _ _ hs, hh], e', he', hrs⟩
    · exact h.of_scopes_eq hc
  all_goals exact h.of_scopes_eq hc

theorem Forecloses.apply (ha : HeapAccounted g) (h : Forecloses g s i n)
    (ho : op ≠ .closeScope s) : Forecloses (g.apply op) s i n := by
  cases op with
  | openScope scope =>
    obtain ⟨entries, hg, hrs⟩ := h
    refine ⟨entries, ?_, hrs⟩
    simp only [Gate.apply, openScope, Dict.get?_setdefault]
    split_ifs with hs
    · rw [← hs, hg, getD_some]
    · exact hg
  | closeScope scope =>
    obtain ⟨entries, hg, hrs⟩ := h
    have hs : s ≠ scope := fun he => ho (he ▸ rfl)
    exact ⟨entries, (Dict.get?_pop_of_ne _ hs).trans hg, hrs⟩
  | request scope identity tier c aw => exact h.request scope identity tier c aw
  | markProposal t pid | markRunning t => exact h
  | replyAdmitted t =>
    simp only [Gate.apply, replyAdmitted]
    split
    · exact h
    · split_ifs
      all_goals exact h
  | markUncertain t =>
    simp only [Gate.apply, markUncertain]
    split
    · exact h
    apply Forecloses.recordEvent
    apply Forecloses.recordEntries
    · exact ha.modifyRecord t (fun r hr => hr.of_attempt rfl rfl rfl rfl rfl (fun _ => rfl))
    · exact h.modifyRecord t _
  | retire t result =>
    simp only [Gate.apply, retire]
    split
    · exact h
    split_ifs
    · exact h
    apply Forecloses.release
    apply Forecloses.recordEntries
    · exact ha.modifyRecord t (fun r hr => hr.of_attempt rfl rfl rfl rfl rfl id)
    · exact h.modifyRecord t _
  | resolveUncertain t accepted =>
    simp only [Gate.apply, resolveUncertain]
    split
    · exact h
    split_ifs
    · exact h
    apply Forecloses.recordEvent
    apply Forecloses.release
    apply Forecloses.recordEntries
    · exact ha.modifyRecord t (fun r hr => hr.of_attempt rfl rfl rfl rfl rfl id)
    · exact h.modifyRecord t _

theorem opposingEntries_of_forecloses (h : Forecloses g s i n) (ho : opposes i identity = true) :
    ∃ e ∈ g.opposingEntries identity, n ≤ tierRank e.tier := by
  obtain ⟨entries, hg, e, he, hen, rfl, hn⟩ := h
  refine ⟨e, ?_, hn⟩
  rw [opposingEntries, mem_filter, mem_flatten]
  refine ⟨⟨entries, Dict.mem_values_iff.mpr ⟨s, hg⟩, he⟩, ?_⟩
  simp only [Entry.forecloses, hen, opposes_resourceKey ho, decide_true, ho, Bool.and_self]

/-- Rule 3 of the decision order: at or below the entry's tier the opposite act is refused,
whatever holds the resource by then. -/
theorem request_refused_of_forecloses (h : Forecloses g s i n) (ho : opposes i identity = true)
    (hn : tierRank tier ≤ n) (scope : String) (c : Contributor) (awaitsOperator : Bool) :
    (g.request scope identity tier c awaitsOperator).2.admission = .refused := by
  obtain ⟨e, he, hrank⟩ := opposingEntries_of_forecloses h ho
  have hne : g.refuseOpposing (g.holder identity.resourceKey) identity tier c ≠ none := by
    intro hno
    simp only [refuseOpposing] at hno
    split_ifs at hno
    split at hno
    · rename_i hi
      rw [filter_eq_nil_iff] at hi
      exact hi e he (decide_eq_true (hn.trans hrank))
    · cases hno
  obtain ⟨p, hp⟩ := ne_none_iff_exists'.mp hne
  simp only [request, hp]
  exact (refuseOpposing_refuses hp).1

theorem recordEntry_closed (h : g.scopes.get? s = none) (t : ℕ) (ran : Bool) (scope : String) :
    (recordEntry t ran g scope).scopes.get? s = none := by
  unfold Gate.recordEntry
  split
  · rename_i hs
    have hn : s ≠ scope := by
      rintro rfl
      rw [h] at hs
      cases hs
    exact (Dict.get?_set_of_ne _ _ hn).trans h
  · exact h

theorem recordEntries_closed (h : g.scopes.get? s = none) (t : ℕ) (ran : Bool) :
    (g.recordEntries t ran).scopes.get? s = none := by
  unfold Gate.recordEntries
  split
  · exact h
  · exact List.foldlRecOn (motive := fun u : Gate => u.scopes.get? s = none) _ _ h
      (fun u hu scope _ => recordEntry_closed hu t ran scope)

theorem request_closed (h : g.scopes.get? s = none) (scope : String) (identity : ResourceIdentity)
    (tier : String) (c : Contributor) (awaitsOperator : Bool) :
    (g.request scope identity tier c awaitsOperator).1.scopes.get? s = none := by
  rcases g.request_outcome scope identity tier c awaitsOperator with
    ⟨_, _, _, hs⟩ | ⟨entries, e, _, hg, _, _, _, _, _, _, _, hs⟩ |
    ⟨_, _, _, _, _, _, _, _, _, hs⟩ | ⟨_, _, _, _, _, hs⟩ | ⟨_, _, _, _, _, _, _, _, _, hs⟩ |
    ⟨_, _, _, _, _, _, _, _, _, hs⟩ | ⟨_, _, _, _, _, _, _, _, hs⟩
  · rw [hs, h]
  · have hn : s ≠ scope := by
      rintro rfl
      rw [h] at hg
      cases hg
    rw [hs]
    split_ifs
    · exact (Dict.get?_set_of_ne _ _ hn).trans h
    · exact h
  all_goals rw [hs, h]

theorem apply_closed (h : g.scopes.get? s = none) (ho : op ≠ .openScope s) :
    (g.apply op).scopes.get? s = none := by
  cases op with
  | openScope scope =>
    have hn : s ≠ scope := fun he => ho (he ▸ rfl)
    simp only [Gate.apply, openScope, Dict.get?_setdefault, if_neg hn, h]
  | closeScope scope =>
    simp only [Gate.apply, closeScope, Dict.get?_pop, h, ite_self]
  | request scope identity tier c aw => exact request_closed h scope identity tier c aw
  | markProposal t pid | markRunning t => exact h
  | replyAdmitted t =>
    simp only [Gate.apply, replyAdmitted]
    split
    · exact h
    · split_ifs
      all_goals exact h
  | markUncertain t =>
    simp only [Gate.apply, markUncertain]
    split
    · exact h
    rw [recordEvent_scopes]
    apply recordEntries_closed
    exact h
  | retire t result =>
    simp only [Gate.apply, retire]
    split
    · exact h
    split_ifs
    · exact h
    rw [release_scopes, modifyRecord_scopes]
    apply recordEntries_closed
    exact h
  | resolveUncertain t accepted =>
    simp only [Gate.apply, resolveUncertain]
    split
    · exact h
    split_ifs
    · exact h
    rw [recordEvent_scopes, release_scopes]
    apply recordEntries_closed
    exact h

theorem forecloses_run (ha : HeapAccounted g) (h : Forecloses g s i n)
    (hp : ∀ op ∈ ops, op ≠ .closeScope s) (hr : run step g ops = some g') :
    Forecloses g' s i n := by
  induction ops generalizing g with
  | nil => exact some.inj hr ▸ h
  | cons op ops ih =>
    obtain ⟨u, hu, hs⟩ := run_cons_eq_some_iff.mp hr
    cases hu
    exact ih (heapAccounted_apply ha op) (h.apply ha (hp op (by simp)))
      (fun o ho => hp o (by simp [ho])) hs

theorem closed_run (h : g.scopes.get? s = none) (hp : ∀ op ∈ ops, op ≠ .openScope s)
    (hr : run step g ops = some g') : g'.scopes.get? s = none := by
  induction ops generalizing g with
  | nil => exact some.inj hr ▸ h
  | cons op ops ih =>
    obtain ⟨u, hu, hs⟩ := run_cons_eq_some_iff.mp hr
    cases hu
    exact ih (apply_closed h (hp op (by simp))) (fun o ho => hp o (by simp [ho])) hs

theorem heapAccounted_of_reaches (h : Reaches step {} g) : HeapAccounted g := by
  refine h.invariant ?_ (fun r hr => by simp at hr)
  intro u op v hu hs
  cases hs
  exact heapAccounted_apply hu op

/-- In every reachable gate an entered entry of an open event refuses each opposing request at or
below its tier, and its event keeps such an entry through every step until it closes; closing an
event removes its own entries and nothing else, and nothing brings one back after the close. -/
theorem foreclosure_outlives_attempt {g : Gate} (hg : Reaches step {} g) :
    (∀ s entries e, g.scopes.get? s = some entries → e ∈ entries → e.entered = true →
      (∀ scope identity tier c awaitsOperator, opposes e.identity identity = true →
        tierRank tier ≤ tierRank e.tier →
        (g.request scope identity tier c awaitsOperator).2.admission = .refused) ∧
      ∀ ops g', (∀ op ∈ ops, op ≠ .closeScope s) → run step g ops = some g' →
        ∃ entries', g'.scopes.get? s = some entries' ∧ ∃ e' ∈ entries', e'.entered = true ∧
          e'.identity = e.identity ∧ tierRank e.tier ≤ tierRank e'.tier) ∧
    (∀ s, (g.closeScope s).scopes.get? s = none ∧
      (∀ s', s' ≠ s → (g.closeScope s).scopes.get? s' = g.scopes.get? s') ∧
      (g.closeScope s).records = g.records ∧ (g.closeScope s).heap = g.heap) ∧
    ∀ s ops g', (∀ op ∈ ops, op ≠ .openScope s) → run step (g.closeScope s) ops = some g' →
      g'.scopes.get? s = none := by
  have hacc := heapAccounted_of_reaches hg
  refine ⟨?_, ?_, ?_⟩
  · intro s entries e hget he hent
    have hf : Forecloses g s e.identity (tierRank e.tier) := ⟨entries, hget, e, he, hent, rfl, le_rfl⟩
    refine ⟨?_, fun ops g' hops hrun => forecloses_run hacc hf hops hrun⟩
    intro scope identity tier c aw hopp hn
    exact request_refused_of_forecloses hf hopp hn scope c aw
  · intro s
    exact ⟨Dict.get?_pop_self _ s, fun s' hs' => Dict.get?_pop_of_ne _ hs', rfl, rfl⟩
  · intro s ops g' hops hrun
    exact closed_run (Dict.get?_pop_self _ s) hops hrun

def tripOps : List Op :=
  [.openScope "trip-event",
   .request "trip-event" ⟨["device", "zone"], openProtectedCircuit, []⟩ "D"
     { skillName := "skill", triggerName := "over_current", action := "trip_relay",
       dispatchTier := "D", tierDGranted := true } false,
   .markRunning 0, .retire 0 (some true)]

/-- A Tier D trip that ran and retired: its event still refuses a Tier C close from another. -/
theorem foreclosure_outlives_attempt_trip : ∃ g, run step {} tripOps = some g ∧
      (g.request "other-event" ⟨["device", "zone"], closeProtectedCircuit, []⟩ "C"
        { skillName := "skill", triggerName := "reclose", action := "release_relay",
          dispatchTier := "C" } true).2.admission = .refused := by
  refine ⟨_, rfl, ?_⟩
  refine ((foreclosure_outlives_attempt ⟨tripOps, rfl⟩).1 "trip-event" _ _ rfl
    (mem_singleton.mpr rfl) rfl).1 _ _ _ _ _ ?_ ?_
  · decide
  · decide

end OriRuntime.Gate
