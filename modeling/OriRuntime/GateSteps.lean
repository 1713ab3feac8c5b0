import OriRuntime.ResourceGate
import OriRuntime.Execution

/-!
# What each gate step can do

`RequestOutcome` lists the effects of one request, with the holder each of them needs, so that an
invariant is proved by its cases and never by unfolding the decision order again. The remaining
operations change one record, the entries of its claimants, and the hold on its own resource.
-/

namespace OriRuntime.Gate

open Option

variable {g g' : Gate} {scope : String} {identity : ResourceIdentity} {tier : String}
  {contributor : Contributor} {awaitsOperator : Bool}

@[simp] theorem recordEvent_heap (g : Gate) (e : Suppression) : (g.recordEvent e).heap = g.heap :=
  rfl

@[simp] theorem recordEvent_records (g : Gate) (e : Suppression) :
    (g.recordEvent e).records = g.records := rfl

@[simp] theorem recordEvent_scopes (g : Gate) (e : Suppression) :
    (g.recordEvent e).scopes = g.scopes := rfl

@[simp] theorem modifyRecord_heap (g : Gate) (t : ℕ) (f : Record → Record) :
    (g.modifyRecord t f).heap = g.heap.modify t f := rfl

@[simp] theorem modifyRecord_records (g : Gate) (t : ℕ) (f : Record → Record) :
    (g.modifyRecord t f).records = g.records := rfl

@[simp] theorem modifyRecord_scopes (g : Gate) (t : ℕ) (f : Record → Record) :
    (g.modifyRecord t f).scopes = g.scopes := rfl

def freshRecord (scope : String) (identity : ResourceIdentity) (tier : String)
    (contributor : Contributor) (awaitsOperator : Bool) : Record :=
  { identity := identity, tier := tier, state := if awaitsOperator then .proposal else .reserved,
    contributors := [{ contributor with scope := scope }], scope := scope }

def joinedEntry (e : Entry) (tier : String) (contributor : Contributor) : Entry :=
  { identity := e.identity, tier := tier, entered := true, ran := true,
    holdsTierD := contributor.tierDGranted, contributors := e.contributors }

variable {r : Record} {t : ℕ} {p : Gate × GateDecision} {β : Type*}

theorem holder_eq_some_iff {key : List String} : g.holder key = some (t, r) ↔
      g.records.get? key = some t ∧ g.heap[t]? = some r ∧ r.state ≠ .retired := by
  unfold holder
  cases hk : g.records.get? key with
  | none => simp
  | some u =>
    cases hu : g.heap[u]? with
    | none =>
      simp only [hu, reduceCtorEq, some.injEq, false_iff, not_and]
      rintro rfl hr
      simp [hu] at hr
    | some v =>
      simp only [hu, ite_none_left_eq_some, some.injEq, Prod.mk.injEq]
      constructor
      · rintro ⟨hs, rfl, rfl⟩
        exact ⟨rfl, hu, hs⟩
      · rintro ⟨rfl, hr, hs⟩
        have hv : v = r := mem_unique hu hr
        exact ⟨hv ▸ hs, rfl, hv⟩

/-- The effects of one request on the records, the holds and the entries. -/
inductive RequestOutcome (g : Gate) (scope : String) (identity : ResourceIdentity) (tier : String)
    (contributor : Contributor) (awaitsOperator : Bool) (g' : Gate) (d : GateDecision) : Prop
  | refused (hd : d.admission = .refused) (hheap : g'.heap = g.heap)
      (hrecords : g'.records = g.records) (hscopes : g'.scopes = g.scopes)
      (hdisplaced : d.displaced = none)
  | joinedCompleted (entries : List Entry) (e : Entry)
      (hfree : g.holder identity.resourceKey = none)
      (hget : g.scopes.get? scope = some entries) (he : e ∈ entries) (hid : e.identity = identity)
      (hran : e.ran = true ∨
        tierRank tier < tierRank "D" ∧ e.entered = false ∧ e.asked = true)
      (hd : d.admission = .joined) (htok : d.token = some (.entry e)) (hheap : g'.heap = g.heap)
      (hrecords : g'.records = g.records)
      (hscopes : g'.scopes = if e.ran then
        g.scopes.set scope (entries ++ [joinedEntry e tier contributor]) else g.scopes)
      (hdisplaced : d.displaced = none)
  | joinedHolder (t : ℕ) (r : Record) (hhold : g.holder identity.resourceKey = some (t, r))
      (hid : r.identity = identity)
      (hprop : r.state = .proposal → tierRank tier < tierRank "D")
      (hd : d.admission = .joined) (htok : d.token = some (.record t))
      (hheap : g'.heap = g.heap.modify t (fun r => { r with
        contributors := r.contributors ++ [{ contributor with scope := scope }] }))
      (hrecords : g'.records = g.records) (hscopes : g'.scopes = g.scopes)
      (hdisplaced : d.displaced = none)
  | admittedFree (hfree : g.holder identity.resourceKey = none)
      (hd : d.admission = .admitted) (htok : d.token = some (.record g.heap.length))
      (hheap : g'.heap = g.heap ++ [freshRecord scope identity tier contributor awaitsOperator])
      (hrecords : g'.records = g.records.set identity.resourceKey g.heap.length)
      (hscopes : g'.scopes = g.scopes) (hdisplaced : d.displaced = none)
      (hjoin : g.joinCompleted scope identity tier contributor = none)
  | displacedProposal (t : ℕ) (r : Record)
      (hhold : g.holder identity.resourceKey = some (t, r)) (hstate : r.state = .proposal)
      (hwhy : r.identity = identity ∧ tierRank "D" ≤ tierRank tier ∨
        opposes r.identity identity = true ∧ tierRank r.tier < tierRank tier)
      (hd : d.admission = .admitted) (htok : d.token = some (.record g.heap.length))
      (hheap : g'.heap = g.heap.modify t (fun r => { r with invalidated := true }) ++
        [freshRecord scope identity tier contributor awaitsOperator])
      (hrecords : g'.records = g.records.set identity.resourceKey g.heap.length)
      (hscopes : g'.scopes = g.scopes) (hdisplaced : d.displaced = some t)
  | preemptedReserved (t : ℕ) (r : Record)
      (hhold : g.holder identity.resourceKey = some (t, r)) (hstate : r.state = .reserved)
      (hwhy : opposes r.identity identity = true ∧ tierRank r.tier < tierRank tier)
      (hd : d.admission = .preemptedHolder) (htok : d.token = some (.record g.heap.length))
      (hheap : g'.heap = g.heap.modify t (fun r => { r with state := .retired, done := true }) ++
        [freshRecord scope identity tier contributor awaitsOperator])
      (hrecords : g'.records = g.records.set identity.resourceKey g.heap.length)
      (hscopes : g'.scopes = g.scopes) (hdisplaced : d.displaced = some t)
  | bothRefused (t : ℕ) (r : Record)
      (hhold : g.holder identity.resourceKey = some (t, r)) (hstate : r.state = .reserved)
      (hwhy : opposes r.identity identity = true ∧ tierRank tier = tierRank r.tier)
      (hd : d.admission = .refused)
      (hheap : g'.heap = g.heap.modify t (fun r => { r with state := .retired, done := true }))
      (hrecords : g'.records = g.records.pop identity.resourceKey)
      (hscopes : g'.scopes = g.scopes) (hdisplaced : d.displaced = none)

theorem refuseOpposing_refuses {held : Option (ℕ × Record)}
    (h : g.refuseOpposing held identity tier contributor = some p) :
    p.2.admission = .refused ∧ p.1.heap = g.heap ∧ p.1.records = g.records ∧
      p.1.scopes = g.scopes ∧ p.2.displaced = none := by
  unfold refuseOpposing at h
  simp only at h
  split_ifs at h
  · cases h
    exact ⟨rfl, rfl, rfl, rfl, rfl⟩
  · cases h
    exact ⟨rfl, rfl, rfl, rfl, rfl⟩
  · split at h
    · cases h
    · cases h
      exact ⟨rfl, rfl, rfl, rfl, rfl⟩

theorem not_uncertain_of_refuseOpposing_eq_none
    (h : g.refuseOpposing (some (t, r)) identity tier contributor = none)
    (ho : opposes r.identity identity = true) : r.state ≠ .uncertain := by
  intro hs
  unfold refuseOpposing at h
  simp only [any_some, hs, decide_true, Bool.and_true] at h
  split_ifs at h

theorem joinCompleted_outcome (hfr : g.holder identity.resourceKey = none)
    (h : g.joinCompleted scope identity tier contributor = some p) :
    RequestOutcome g scope identity tier contributor awaitsOperator p.1 p.2 := by
  unfold joinCompleted at h
  cases hg : g.scopes.get? scope with
  | none => simp [hg] at h
  | some entries =>
    simp only [hg] at h
    split at h
    · cases h
    rename_i e hf
    cases h
    have hm := List.mem_of_find?_eq_some hf
    have hp := List.find?_some hf
    simp only [Bool.and_eq_true, decide_eq_true_eq, Bool.or_eq_true, Bool.not_eq_true',
      decide_eq_false_iff_not, not_le, and_assoc] at hp
    obtain ⟨hk, ha⟩ := hp
    refine .joinedCompleted entries e hfr hg hm
      (ResourceIdentity.joinKey_injective hk) ha rfl rfl ?_ ?_ ?_ rfl
    · by_cases hr : e.ran = true <;> simp [hr]
    · by_cases hr : e.ran = true <;> simp [hr]
    · by_cases hr : e.ran = true <;> simp [hr, joinedEntry]

theorem sameOutcome_outcome (hh : g.holder identity.resourceKey = some (t, r))
    (hi : r.identity = identity) :
    RequestOutcome g scope identity tier contributor awaitsOperator
      (g.sameOutcome scope t r tier contributor awaitsOperator).1
      (g.sameOutcome scope t r tier contributor awaitsOperator).2 := by
  unfold sameOutcome
  split_ifs with hc
  · refine .displacedProposal t r hh hc.1 (.inl ⟨hi, hc.2⟩) rfl ?_ ?_ ?_ rfl rfl
    · simp [admitEntry]
    · simp [admitEntry, freshRecord, hi]
    · simp [admitEntry, hi]
  · refine .joinedHolder t r hh hi ?_ rfl rfl rfl rfl rfl rfl
    intro hs
    by_contra hd
    exact hc ⟨hs, by omega⟩

theorem opposing_outcome (hh : g.holder identity.resourceKey = some (t, r))
    (ho : opposes r.identity identity = true) (hu : r.state ≠ .uncertain) :
    RequestOutcome g scope identity tier contributor awaitsOperator
      (g.opposing scope t r identity tier contributor awaitsOperator).1
      (g.opposing scope t r identity tier contributor awaitsOperator).2 := by
  have hr := (holder_eq_some_iff.mp hh).2.2
  unfold opposing
  split_ifs with hru hprop hl hl' heq
  · exact .refused rfl rfl rfl rfl rfl
  · refine .displacedProposal t r hh hprop (.inr ⟨ho, hl⟩) rfl ?_ ?_ ?_ rfl rfl
    · simp [admitEntry]
    · simp [admitEntry, freshRecord]
    · simp [admitEntry]
  · exact .refused rfl rfl rfl rfl rfl
  · have hs : r.state = .reserved := by cases h : r.state <;> simp_all
    refine .preemptedReserved t r hh hs ⟨ho, hl'⟩ rfl ?_ ?_ ?_ rfl rfl
    · simp [admitEntry]
    · simp [admitEntry, freshRecord]
    · simp [admitEntry]
  · have hs : r.state = .reserved := by cases h : r.state <;> simp_all
    exact .bothRefused t r hh hs ⟨ho, heq⟩ rfl rfl rfl rfl rfl
  · exact .refused rfl rfl rfl rfl rfl

theorem request_outcome (g : Gate) (scope : String) (identity : ResourceIdentity) (tier : String)
    (contributor : Contributor) (awaitsOperator : Bool) :
    RequestOutcome g scope identity tier contributor awaitsOperator
      (g.request scope identity tier contributor awaitsOperator).1
      (g.request scope identity tier contributor awaitsOperator).2 := by
  unfold request
  simp only
  cases he : g.refuseOpposing (g.holder identity.resourceKey) identity tier contributor with
  | some p =>
    obtain ⟨hd, hh, hr, hs, hi⟩ := refuseOpposing_refuses he
    exact .refused hd hh hr hs hi
  | none =>
    cases hho : g.holder identity.resourceKey with
    | none =>
      cases hj : g.joinCompleted scope identity tier contributor with
      | some p => exact joinCompleted_outcome hho hj
      | none => exact .admittedFree hho rfl rfl rfl rfl rfl rfl hj
    | some p =>
      rw [hho] at he
      simp only
      split_ifs with hk ho
      · exact sameOutcome_outcome hho (ResourceIdentity.joinKey_injective hk)
      · exact opposing_outcome hho ho (not_uncertain_of_refuseOpposing_eq_none he ho)
      · exact .refused rfl rfl rfl rfl rfl

theorem request_token_of_mayExecute
    (h : (g.request scope identity tier contributor awaitsOperator).2.mayExecute = true) :
    (g.request scope identity tier contributor awaitsOperator).2.token =
      some (.record g.heap.length) := by
  rcases g.request_outcome scope identity tier contributor awaitsOperator with
    hd | ⟨_, _, _, _, _, _, _, hd⟩ | ⟨_, _, _, _, _, hd⟩ | ⟨_, _, ht⟩ |
    ⟨_, _, _, _, _, _, ht⟩ | ⟨_, _, _, _, _, _, ht⟩ | ⟨_, _, _, _, _, hd⟩
  · simp [GateDecision.mayExecute, hd] at h
  · simp [GateDecision.mayExecute, hd] at h
  · simp [GateDecision.mayExecute, hd] at h
  · exact ht
  · exact ht
  · exact ht
  · simp [GateDecision.mayExecute, hd] at h

@[simp] theorem recordEntry_records (t : ℕ) (ran : Bool) (g : Gate) (scope : String) :
    (recordEntry t ran g scope).records = g.records := by
  unfold recordEntry
  split <;> rfl

theorem recordEntry_project (f : Record → β) (hf : ∀ r d, f { r with entries := d } = f r) (t : ℕ)
    (ran : Bool) (g : Gate) (scope : String) (u : ℕ) :
    ((recordEntry t ran g scope).heap[u]?).map f = (g.heap[u]?).map f := by
  unfold recordEntry
  split
  · simp only [List.getElem?_modify]
    by_cases ht : t = u
    · simp only [ht, if_true, map_eq_map, map_map]
      congr 1
      funext r
      exact hf r _
    · simp [ht]
  · rfl

theorem foldl_recordEntry_project (f : Record → β) (hf : ∀ r d, f { r with entries := d } = f r)
    (t : ℕ) (ran : Bool) (scopes : List String) (g : Gate) (u : ℕ) :
    ((scopes.foldl (recordEntry t ran) g).heap[u]?).map f = (g.heap[u]?).map f := by
  induction scopes generalizing g with
  | nil => rfl
  | cons scope scopes ih => rw [List.foldl_cons, ih, recordEntry_project f hf]

theorem recordEntries_project (f : Record → β) (hf : ∀ r d, f { r with entries := d } = f r)
    (g : Gate) (t : ℕ) (ran : Bool) (u : ℕ) :
    ((g.recordEntries t ran).heap[u]?).map f = (g.heap[u]?).map f := by
  unfold recordEntries
  split
  · rfl
  · exact foldl_recordEntry_project f hf t ran _ g u

theorem foldl_recordEntry_records (t : ℕ) (ran : Bool) (scopes : List String) (g : Gate) :
    (scopes.foldl (recordEntry t ran) g).records = g.records := by
  induction scopes generalizing g with
  | nil => rfl
  | cons scope scopes ih => rw [List.foldl_cons, ih, recordEntry_records]

@[simp] theorem recordEntries_records (g : Gate) (t : ℕ) (ran : Bool) :
    (g.recordEntries t ran).records = g.records := by
  unfold recordEntries
  split
  · rfl
  · exact foldl_recordEntry_records t ran _ g

@[simp] theorem release_heap (g : Gate) (t : ℕ) (key : List String) :
    (g.release t key).heap = g.heap := by
  unfold release
  split_ifs <;> rfl

@[simp] theorem release_scopes (g : Gate) (t : ℕ) (key : List String) :
    (g.release t key).scopes = g.scopes := by
  unfold release
  split_ifs <;> rfl

/-- One atomic step of the gate, by any task, on any token. -/
inductive Op where
  | openScope (scope : String)
  | closeScope (scope : String)
  | request (scope : String) (identity : ResourceIdentity) (tier : String)
      (contributor : Contributor) (awaitsOperator : Bool)
  | markProposal (t : ℕ) (proposalId : String)
  | markRunning (t : ℕ)
  | replyAdmitted (t : ℕ)
  | markUncertain (t : ℕ)
  | retire (t : ℕ) (result : Option Bool)
  | resolveUncertain (t : ℕ) (accepted : Bool)
  deriving DecidableEq

def apply (g : Gate) : Op → Gate
  | .openScope scope => g.openScope scope
  | .closeScope scope => g.closeScope scope
  | .request scope identity tier contributor awaitsOperator =>
    (g.request scope identity tier contributor awaitsOperator).1
  | .markProposal t proposalId => g.markProposal t proposalId
  | .markRunning t => g.markRunning t
  | .replyAdmitted t => (g.replyAdmitted t).1
  | .markUncertain t => g.markUncertain t
  | .retire t result => g.retire t result
  | .resolveUncertain t accepted => g.resolveUncertain t accepted

/-- The gate as a transition system: every operation is always enabled. -/
def step (g : Gate) (op : Op) : Option Gate := some (g.apply op)

end OriRuntime.Gate
