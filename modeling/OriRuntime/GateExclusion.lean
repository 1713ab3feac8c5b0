import OriRuntime.GateSteps

/-!
# Exclusion on a resource under the dispatcher's protocol

Any number of clients follow `ActionDispatcher._admit_and_run`: a client whose request may execute
either marks itself running and drives, or waits for an operator and drives only on an admitted
reply; a driver ends in `retire`, or in `mark_uncertain` and then `resolve_uncertain`. The gate's
own steps keep one holder per resource; `mark_running` alone does not look whether its caller still
is that holder.
-/

namespace OriRuntime

open Option

open Execution

namespace Gate

variable {g g' : Gate} {t u : ℕ}

/-- What the protocol reads of a record: its identity and how far the attempt has got. -/
def view (g : Gate) (t : ℕ) : Option (ResourceIdentity × HolderState) :=
  (g.heap[t]?).map (fun r => (r.identity, r.state))

/-- Token `t` is in state `st` and is the current holder of its resource. -/
def Holding (g : Gate) (t : ℕ) (st : HolderState) : Prop :=
  ∃ i, g.view t = some (i, st) ∧ g.records.get? i.resourceKey = some t

theorem view_lt (h : (g.view t).isSome) : t < g.heap.length := by
  unfold view at h
  rw [isSome_map] at h
  exact (List.getElem?_eq_some_iff.mp (get_mem h)).1

variable {f : Record → Record} {st : HolderState}

theorem view_modifyRecord (g : Gate) (t : ℕ) (hi : ∀ r, (f r).identity = r.identity)
    (hs : ∀ r, (f r).state = r.state) : (g.modifyRecord t f).view u = g.view u := by
  unfold view
  by_cases ht : t = u
  · simp [ht, hi, hs, Function.comp_def]
  · simp [ht]

theorem view_modifyRecord_self {i : ResourceIdentity} {st' : HolderState}
    (hv : g.view t = some (i, st)) (hi : ∀ r, (f r).identity = r.identity)
    (hs : ∀ r, (f r).state = st') : (g.modifyRecord t f).view t = some (i, st') := by
  obtain ⟨r, hr, he⟩ := map_eq_some_iff.mp hv
  obtain ⟨rfl, rfl⟩ := Prod.mk.inj he
  simp [view, hr, hi, hs]

theorem view_recordEntries (g : Gate) (t : ℕ) (ran : Bool) (u : ℕ) :
    (g.recordEntries t ran).view u = g.view u :=
  recordEntries_project (fun r => (r.identity, r.state)) (fun _ _ => rfl) g t ran u

theorem foldl_recordEntry_length (t : ℕ) (ran : Bool) (scopes : List String) (g : Gate) :
    (scopes.foldl (recordEntry t ran) g).heap.length = g.heap.length := by
  induction scopes generalizing g with
  | nil => rfl
  | cons scope scopes ih =>
    rw [List.foldl_cons, ih]
    unfold recordEntry
    split
    · exact List.length_modify ..
    · rfl

@[simp] theorem recordEntries_length (g : Gate) (t : ℕ) (ran : Bool) :
    (g.recordEntries t ran).heap.length = g.heap.length := by
  unfold recordEntries
  split
  · rfl
  · exact foldl_recordEntry_length t ran _ g

/-- The effect of an operation by the owner of `t`: no other record changes, `t` keeps its
identity, and at most `t`'s own hold is given up. -/
structure OwnStep (g g' : Gate) (t : ℕ) : Prop where
  length : g'.heap.length = g.heap.length
  view_ne : ∀ u, u ≠ t → g'.view u = g.view u
  identity : (g'.view t).map Prod.fst = (g.view t).map Prod.fst
  records : g'.records = g.records ∨
    ∃ key, g.records.get? key = some t ∧ g'.records = g.records.pop key

theorem OwnStep.holding (h : OwnStep g g' t) (hu : u ≠ t) (hold : Holding g u st) :
    Holding g' u st := by
  obtain ⟨i, hv, hr⟩ := hold
  refine ⟨i, (h.view_ne u hu).trans hv, ?_⟩
  rcases h.records with heq | ⟨key, hk, heq⟩
  · rw [heq, hr]
  · have hn : i.resourceKey ≠ key := by
      intro he
      rw [he, hk] at hr
      exact hu (some.inj hr).symm
    rw [heq, Dict.get?_pop_of_ne _ hn, hr]

theorem ownStep_refl (g : Gate) (t : ℕ) : OwnStep g g t := ⟨rfl, fun _ _ => rfl, rfl, .inl rfl⟩

theorem ownStep_modifyRecord (g : Gate) (t : ℕ) (hi : ∀ r, (f r).identity = r.identity) :
    OwnStep g (g.modifyRecord t f) t where
  length := List.length_modify ..
  view_ne u hu := by
    unfold view
    simp [Ne.symm hu]
  identity := by
    unfold view
    simp [hi, Function.comp_def]
  records := .inl rfl

theorem OwnStep.recordEntries (h : OwnStep g g' t) (ran : Bool) :
    OwnStep g (g'.recordEntries t ran) t where
  length := (recordEntries_length g' t ran).trans h.length
  view_ne u hu := (view_recordEntries g' t ran u).trans (h.view_ne u hu)
  identity := by rw [view_recordEntries, h.identity]
  records := by rw [recordEntries_records]; exact h.records

theorem OwnStep.modifyRecord (h : OwnStep g g' t) (hi : ∀ r, (f r).identity = r.identity) :
    OwnStep g (g'.modifyRecord t f) t := by
  have hf := ownStep_modifyRecord g' t hi
  exact ⟨hf.length.trans h.length, fun u hu => (hf.view_ne u hu).trans (h.view_ne u hu),
    hf.identity.trans h.identity, h.records⟩

theorem OwnStep.recordEvent (h : OwnStep g g' t) (e : Suppression) :
    OwnStep g (g'.recordEvent e) t := { h with }

theorem OwnStep.release (h : OwnStep g g' t) (hr : g'.records = g.records) (key : List String) :
    OwnStep g (g'.release t key) t := by
  unfold Gate.release
  split_ifs with hk
  · exact { h with records := .inr ⟨key, hr ▸ hk, by rw [hr]⟩ }
  · exact h

theorem ownStep_markProposal (g : Gate) (t : ℕ) (proposalId : String) :
    OwnStep g (g.markProposal t proposalId) t := ownStep_modifyRecord g t (fun _ => rfl)

theorem ownStep_markRunning (g : Gate) (t : ℕ) : OwnStep g (g.markRunning t) t :=
  ownStep_modifyRecord g t (fun _ => rfl)

theorem ownStep_replyAdmitted (g : Gate) (t : ℕ) : OwnStep g (g.replyAdmitted t).1 t := by
  unfold replyAdmitted
  split
  · exact ownStep_refl g t
  split_ifs
  · exact (ownStep_refl g t).recordEvent _
  · exact (ownStep_refl g t).recordEvent _
  · exact ownStep_modifyRecord g t (fun _ => rfl)

theorem ownStep_markUncertain (g : Gate) (t : ℕ) : OwnStep g (g.markUncertain t) t := by
  unfold markUncertain
  split
  · exact ownStep_refl g t
  apply OwnStep.recordEvent
  apply OwnStep.recordEntries
  exact ownStep_modifyRecord g t (fun _ => rfl)

theorem ownStep_retire (g : Gate) (t : ℕ) (result : Option Bool) :
    OwnStep g (g.retire t result) t := by
  unfold retire
  split
  · exact ownStep_refl g t
  split_ifs
  · exact ownStep_refl g t
  refine OwnStep.release ?_ (by simp) _
  refine OwnStep.modifyRecord ?_ (fun _ => rfl)
  apply OwnStep.recordEntries
  exact ownStep_modifyRecord g t (fun _ => rfl)

theorem ownStep_resolveUncertain (g : Gate) (t : ℕ) (accepted : Bool) :
    OwnStep g (g.resolveUncertain t accepted) t := by
  unfold resolveUncertain
  split
  · exact ownStep_refl g t
  split_ifs
  · exact ownStep_refl g t
  apply OwnStep.recordEvent
  refine OwnStep.release ?_ (by simp) _
  apply OwnStep.recordEntries
  exact ownStep_modifyRecord g t (fun _ => rfl)

theorem Holding.lt (h : Holding g t st) : t < g.heap.length := by
  obtain ⟨i, hv, _⟩ := h
  exact view_lt (by rw [hv]; rfl)

theorem holding_markRunning {i : ResourceIdentity} (hv : g.view t = some (i, st))
    (hc : g.records.get? i.resourceKey = some t) : Holding (g.markRunning t) t .running := by
  refine ⟨i, ?_, hc⟩
  exact view_modifyRecord_self hv (fun _ => rfl) (fun _ => rfl)

theorem holding_replyAdmitted (h : (g.replyAdmitted t).2 = true) :
    Holding (g.replyAdmitted t).1 t .running := by
  unfold replyAdmitted at h ⊢
  cases hr : g.heap[t]? with
  | none => simp [hr] at h
  | some r =>
    simp only [hr] at h ⊢
    by_cases hi : r.invalidated = true
    · simp [hi] at h
    by_cases hc : g.records.get? r.identity.resourceKey = some t
    · simp only [hi, hc, ne_eq, not_true_eq_false, if_false]
      have hv : g.view t = some (r.identity, r.state) := by simp [view, hr]
      exact holding_markRunning hv hc
    · simp [hi, hc] at h

theorem Holding.markUncertain (h : Holding g t .running) : Holding (g.markUncertain t) t .uncertain := by
  obtain ⟨i, hv, hc⟩ := h
  obtain ⟨r, hr, _⟩ := map_eq_some_iff.mp hv
  refine ⟨i, ?_, ?_⟩
  · simp only [Gate.markUncertain, hr]
    change (Gate.recordEntries _ t false).view t = _
    rw [view_recordEntries]
    exact view_modifyRecord_self hv (fun _ => rfl) (fun _ => rfl)
  · simp only [Gate.markUncertain, hr, recordEvent_records, recordEntries_records,
      modifyRecord_records, hc]

theorem Holding.holder (h : Holding g t st) (hs : st ≠ .retired) :
    ∃ r, g.view t = some (r.identity, r.state) ∧ r.state = st ∧
      g.holder r.identity.resourceKey = some (t, r) := by
  obtain ⟨i, hv, hc⟩ := h
  obtain ⟨r, hr, he⟩ := map_eq_some_iff.mp hv
  obtain ⟨rfl, rfl⟩ := Prod.mk.inj he
  exact ⟨r, hv, rfl, holder_eq_some_iff.mpr ⟨hc, hr, hs⟩⟩

theorem view_append (g : Gate) (r : Record) {h : List Record} (hu : u < g.heap.length)
    (hv : (h[u]?).map (fun r => (r.identity, r.state)) = g.view u) :
    ((h ++ [r])[u]?).map (fun r => (r.identity, r.state)) = g.view u := by
  have hl : u < h.length := by
    by_contra hg
    rw [List.getElem?_eq_none (by omega)] at hv
    have hs : (g.view u).isSome := by simp [view, hu]
    rw [← hv] at hs
    cases hs
  rw [List.getElem?_append_left hl, hv]

section Request

variable {scope : String} {identity : ResourceIdentity} {tier : String} {c : Contributor}
  {awaitsOperator : Bool}

theorem Holding.request {st : HolderState} (h : Holding g t st)
    (ht : st = .running ∨ st = .uncertain) :
    Holding (g.request scope identity tier c awaitsOperator).1 t st := by
  have hl := h.lt
  obtain ⟨r, hw, hrs, ho⟩ := h.holder (by rcases ht with rfl | rfl <;> simp)
  obtain ⟨i, hi, hc⟩ := h
  obtain ⟨rfl, rfl⟩ := Prod.mk.inj (mem_unique hw hi)
  have hkeep : ∀ {u : ℕ} {r' : Record} {f : Record → Record},
      g.holder identity.resourceKey = some (u, r') → r'.state = .proposal ∨ r'.state = .reserved →
      (((g.heap.modify u f)[t]?).map (fun r => (r.identity, r.state)) = g.view t ∧
        r.identity.resourceKey ≠ identity.resourceKey) := by
    intro u r' f hu hs
    obtain ⟨_, hru, _⟩ := holder_eq_some_iff.mp hu
    have hn : r.identity.resourceKey ≠ identity.resourceKey := by
      intro he
      rw [he, hu] at ho
      cases ho
      rcases hs with hs | hs <;> rcases ht with ht | ht <;> rw [hs] at ht <;> cases ht
    have hut : u ≠ t := by
      rintro rfl
      obtain ⟨_, hrt, _⟩ := holder_eq_some_iff.mp ho
      obtain rfl := mem_unique hru hrt
      rcases hs with hs | hs <;> rcases ht with ht | ht <;> rw [hs] at ht <;> cases ht
    exact ⟨by simp [hut, view], hn⟩
  rcases g.request_outcome scope identity tier c awaitsOperator with
    ⟨_, hh, hr, _⟩ | ⟨_, _, _, _, _, _, _, _, _, hh, hr, _⟩ | ⟨u, _, _, _, _, _, _, hh, hr, _⟩ |
    ⟨hf, _, _, hh, hr, _⟩ | ⟨u, r', hu, hs, _, _, _, hh, hr, _⟩ |
    ⟨u, r', hu, hs, _, _, _, hh, hr, _⟩ | ⟨u, r', hu, hs, _, _, hh, hr, _⟩
  · exact ⟨r.identity, by rw [view, hh]; exact hw, by rw [hr, hc]⟩
  · exact ⟨r.identity, by rw [view, hh]; exact hw, by rw [hr, hc]⟩
  · refine ⟨r.identity, ?_, by rw [hr, hc]⟩
    rw [← hw, view, hh]
    exact view_modifyRecord g u (fun _ => rfl) (fun _ => rfl)
  · have hn : r.identity.resourceKey ≠ identity.resourceKey := by
      intro he
      rw [he, hf] at ho
      cases ho
    refine ⟨r.identity, ?_, by rw [hr, Dict.get?_set_of_ne _ _ hn, hc]⟩
    rw [view, hh]
    exact (view_append g _ hl rfl).trans hw
  · obtain ⟨hv, hn⟩ := hkeep hu (.inl hs)
    refine ⟨r.identity, ?_, by rw [hr, Dict.get?_set_of_ne _ _ hn, hc]⟩
    rw [view, hh]
    exact (view_append g _ hl hv).trans hw
  · obtain ⟨hv, hn⟩ := hkeep hu (.inr hs)
    refine ⟨r.identity, ?_, by rw [hr, Dict.get?_set_of_ne _ _ hn, hc]⟩
    rw [view, hh]
    exact (view_append g _ hl hv).trans hw
  · obtain ⟨hv, hn⟩ := hkeep hu (.inr hs)
    refine ⟨r.identity, ?_, by rw [hr, Dict.get?_pop_of_ne _ hn, hc]⟩
    rw [view, hh]
    exact hv.trans hw

theorem request_length (g : Gate) (scope : String) (identity : ResourceIdentity) (tier : String)
    (c : Contributor) (awaitsOperator : Bool) :
    g.heap.length ≤ (g.request scope identity tier c awaitsOperator).1.heap.length ∧
      ((g.request scope identity tier c awaitsOperator).2.mayExecute = true →
        g.heap.length < (g.request scope identity tier c awaitsOperator).1.heap.length) := by
  rcases g.request_outcome scope identity tier c awaitsOperator with
    ⟨hd, hh, _, _⟩ | ⟨_, _, _, _, _, _, _, hd, _, hh, _, _⟩ | ⟨_, _, _, _, _, hd, _, hh, _, _⟩ |
    ⟨_, _, _, hh, _, _⟩ | ⟨_, _, _, _, _, _, _, hh, _, _⟩ | ⟨_, _, _, _, _, _, _, hh, _, _⟩ |
    ⟨_, _, _, _, _, hd, hh, _, _⟩
  · simp [hh, GateDecision.mayExecute, hd]
  · simp [hh, GateDecision.mayExecute, hd]
  · simp [hh, GateDecision.mayExecute, hd]
  · simp [hh]
  · simp [hh]
  · simp [hh]
  · simp [hh, GateDecision.mayExecute, hd]

end Request

end Gate

/-- Where a dispatch stands between its request and its end. A cleared client has marked itself
running or had its reply admitted, and enters the executor next. -/
inductive Client where
  | admitted (t : ℕ) (awaitsOperator : Bool)
  | cleared (t : ℕ)
  | driving (t : ℕ)
  | uncertain (t : ℕ)
  | ended
  deriving DecidableEq, Repr

namespace Client

def token : Client → Option ℕ
  | admitted t _ => some t
  | cleared t => some t
  | driving t => some t
  | uncertain t => some t
  | ended => none

/-- The state the client's record has to be in while the client may be driving. -/
def engaged : Client → Option (ℕ × HolderState)
  | cleared t => some (t, .running)
  | driving t => some (t, .running)
  | uncertain t => some (t, .uncertain)
  | _ => none

/-- The token of a client between entering the executor and its retirement or resolution. -/
def drives : Client → Option ℕ
  | driving t => some t
  | uncertain t => some t
  | _ => none

variable {c : Client} {t : ℕ}

theorem token_of_engaged {st : HolderState} (h : c.engaged = some (t, st)) : c.token = some t := by
  cases c <;> simp_all [engaged, token]

theorem state_of_engaged {st : HolderState} (h : c.engaged = some (t, st)) :
    st = .running ∨ st = .uncertain := by
  cases c <;> simp_all [engaged]

theorem engaged_of_drives (h : c.drives = some t) : ∃ st, c.engaged = some (t, st) := by
  cases c <;> simp_all [engaged, drives]

end Client

structure Dispatch where
  gate : Gate := {}
  clients : Dict ℕ Client := Dict.empty

namespace Dispatch

inductive Action where
  | openScope (scope : String)
  | closeScope (scope : String)
  | request (c : ℕ) (scope : String) (identity : ResourceIdentity) (tier : String)
      (contributor : Contributor) (awaitsOperator : Bool)
  | markProposal (c : ℕ) (proposalId : String)
  | markRunning (c : ℕ)
  | replyAdmitted (c : ℕ)
  | enterExecutor (c : ℕ)
  | markUncertain (c : ℕ)
  | retire (c : ℕ) (result : Bool)
  | resolveUncertain (c : ℕ) (accepted : Bool)

/-- The client after its request: it proceeds only when the decision lets it execute. -/
def afterRequest (d : GateDecision) (awaitsOperator : Bool) : Client :=
  match d.mayExecute, d.token with
  | true, some (.record t) => .admitted t awaitsOperator
  | _, _ => .ended

def step (s : Dispatch) : Action → Option Dispatch
  | .openScope scope => some { s with gate := s.gate.openScope scope }
  | .closeScope scope => some { s with gate := s.gate.closeScope scope }
  | .request c scope identity tier contributor awaitsOperator =>
    match s.clients.get? c with
    | some _ => none
    | none =>
      let p := s.gate.request scope identity tier contributor awaitsOperator
      some { gate := p.1, clients := s.clients.set c (afterRequest p.2 awaitsOperator) }
  | .markProposal c proposalId =>
    match s.clients.get? c with
    | some (.admitted t true) => some { s with gate := s.gate.markProposal t proposalId }
    | _ => none
  | .markRunning c =>
    match s.clients.get? c with
    | some (.admitted t false) =>
      some { gate := s.gate.markRunning t, clients := s.clients.set c (.cleared t) }
    | _ => none
  | .replyAdmitted c =>
    match s.clients.get? c with
    | some (.admitted t true) =>
      let p := s.gate.replyAdmitted t
      some { gate := p.1,
             clients := s.clients.set c (if p.2 then .cleared t else .admitted t true) }
    | _ => none
  | .enterExecutor c =>
    match s.clients.get? c with
    | some (.cleared t) => some { s with clients := s.clients.set c (.driving t) }
    | _ => none
  | .markUncertain c =>
    match s.clients.get? c with
    | some (.driving t) =>
      some { gate := s.gate.markUncertain t, clients := s.clients.set c (.uncertain t) }
    | _ => none
  | .retire c result =>
    match s.clients.get? c with
    | some (.admitted t _) | some (.cleared t) | some (.driving t) =>
      some { gate := s.gate.retire t (some result), clients := s.clients.set c .ended }
    | _ => none
  | .resolveUncertain c accepted =>
    match s.clients.get? c with
    | some (.uncertain t) =>
      some { gate := s.gate.resolveUncertain t accepted, clients := s.clients.set c .ended }
    | _ => none

/-- What a step can do: one gate operation, on the token of the client that takes it. -/
inductive Stepped (s : Dispatch) : Action → Dispatch → Prop
  | opens (scope : String) :
      Stepped s (.openScope scope) { s with gate := s.gate.openScope scope }
  | closes (scope : String) :
      Stepped s (.closeScope scope) { s with gate := s.gate.closeScope scope }
  | requests (c : ℕ) (scope : String) (identity : ResourceIdentity) (tier : String)
      (contributor : Contributor) (awaitsOperator : Bool) (hnew : s.clients.get? c = none) :
      Stepped s (.request c scope identity tier contributor awaitsOperator)
        { gate := (s.gate.request scope identity tier contributor awaitsOperator).1
          clients := s.clients.set c (afterRequest
            (s.gate.request scope identity tier contributor awaitsOperator).2 awaitsOperator) }
  | proposes (c t : ℕ) (proposalId : String)
      (hc : s.clients.get? c = some (.admitted t true)) :
      Stepped s (.markProposal c proposalId) { s with gate := s.gate.markProposal t proposalId }
  | marks (c t : ℕ) (hc : s.clients.get? c = some (.admitted t false)) :
      Stepped s (.markRunning c)
        { gate := s.gate.markRunning t, clients := s.clients.set c (.cleared t) }
  | replies (c t : ℕ) (hc : s.clients.get? c = some (.admitted t true)) :
      Stepped s (.replyAdmitted c)
        { gate := (s.gate.replyAdmitted t).1
          clients := s.clients.set c
            (if (s.gate.replyAdmitted t).2 then .cleared t else .admitted t true) }
  | enters (c t : ℕ) (hc : s.clients.get? c = some (.cleared t)) :
      Stepped s (.enterExecutor c) { s with clients := s.clients.set c (.driving t) }
  | doubts (c t : ℕ) (hc : s.clients.get? c = some (.driving t)) :
      Stepped s (.markUncertain c)
        { gate := s.gate.markUncertain t, clients := s.clients.set c (.uncertain t) }
  | retires (c : ℕ) (cl : Client) (t : ℕ) (result : Bool) (hc : s.clients.get? c = some cl)
      (hcl : (∃ aw, cl = .admitted t aw) ∨ cl = .cleared t ∨ cl = .driving t) :
      Stepped s (.retire c result)
        { gate := s.gate.retire t (some result), clients := s.clients.set c .ended }
  | resolves (c t : ℕ) (accepted : Bool) (hc : s.clients.get? c = some (.uncertain t)) :
      Stepped s (.resolveUncertain c accepted)
        { gate := s.gate.resolveUncertain t accepted, clients := s.clients.set c .ended }

theorem step_cases {s s' : Dispatch} {a : Action} (h : step s a = some s') : s.Stepped a s' := by
  cases a with
  | openScope scope =>
    cases h
    exact .opens scope
  | closeScope scope =>
    cases h
    exact .closes scope
  | request c scope identity tier contributor aw =>
    simp only [step] at h
    split at h
    · cases h
    rename_i hn
    cases h
    exact .requests c scope identity tier contributor aw hn
  | markProposal c proposalId =>
    simp only [step] at h
    split at h
    · rename_i t hc
      cases h
      exact .proposes c t proposalId hc
    · cases h
  | markRunning c =>
    simp only [step] at h
    split at h
    · rename_i t hc
      cases h
      exact .marks c t hc
    · cases h
  | replyAdmitted c =>
    simp only [step] at h
    split at h
    · rename_i t hc
      cases h
      exact .replies c t hc
    · cases h
  | enterExecutor c =>
    simp only [step] at h
    split at h
    · rename_i t hc
      cases h
      exact .enters c t hc
    · cases h
  | markUncertain c =>
    simp only [step] at h
    split at h
    · rename_i t hc
      cases h
      exact .doubts c t hc
    · cases h
  | retire c result =>
    simp only [step] at h
    split at h
    · rename_i t aw hc
      cases h
      exact .retires c _ t result hc (.inl ⟨aw, rfl⟩)
    · rename_i t hc
      cases h
      exact .retires c _ t result hc (.inr (.inl rfl))
    · rename_i t hc
      cases h
      exact .retires c _ t result hc (.inr (.inr rfl))
    · cases h
  | resolveUncertain c accepted =>
    simp only [step] at h
    split at h
    · rename_i t hc
      cases h
      exact .resolves c t accepted hc
    · cases h

/-- The side condition on `mark_running`: its caller's record is still the one the gate holds for
that resource, so no request displaced or refused it since its admission. -/
def HoldsWhenMarked (s : Dispatch) : Action → Prop
  | .markRunning c => ∀ t, s.clients.get? c = some (.admitted t false) →
      ∃ i st, s.gate.view t = some (i, st) ∧ s.gate.records.get? i.resourceKey = some t
  | _ => True

structure Exclusive (s : Dispatch) : Prop where
  owned : ∀ c cl t, s.clients.get? c = some cl → cl.token = some t → t < s.gate.heap.length
  distinct : ∀ c c' cl cl' t, s.clients.get? c = some cl → s.clients.get? c' = some cl' →
    cl.token = some t → cl'.token = some t → c = c'
  holding : ∀ c cl t st, s.clients.get? c = some cl → cl.engaged = some (t, st) →
    s.gate.Holding t st

variable {s s' : Dispatch} {c t : ℕ} {cl cl' : Client}

theorem Exclusive.own (h : Exclusive s) (hc : s.clients.get? c = some cl)
    (ht : cl.token = some t) (ho : s.gate.OwnStep s'.gate t)
    (hl : ∀ c', s'.clients.get? c' = if c' = c then some cl' else s.clients.get? c')
    (hto : cl'.token = none ∨ cl'.token = some t)
    (he : ∀ st, cl'.engaged = some (t, st) → s'.gate.Holding t st) : Exclusive s' := by
  have hmine : ∀ u, cl'.token = some u → u = t := by
    intro u hu
    rcases hto with h' | h'
    · rw [h'] at hu
      cases hu
    · exact (mem_unique h' hu).symm
  refine ⟨?_, ?_, ?_⟩
  · intro d k u hd hu
    rw [ho.length]
    rw [hl] at hd
    split_ifs at hd with hdc
    · cases hd
      rw [hmine u hu]
      exact h.owned c cl t hc ht
    · exact h.owned d k u hd hu
  · intro d d' k k' u hd hd' hu hu'
    rw [hl] at hd hd'
    split_ifs at hd hd' with hdc hc' hc'
    · rw [hdc, hc']
    · cases hd
      obtain rfl := hmine u hu
      exact absurd (h.distinct c d' cl k' u hc hd' ht hu').symm hc'
    · cases hd'
      obtain rfl := hmine u hu'
      exact absurd (h.distinct c d cl k u hc hd ht hu).symm hdc
    · exact h.distinct d d' k k' u hd hd' hu hu'
  · intro d k u st hd hu
    rw [hl] at hd
    split_ifs at hd with hdc
    · cases hd
      obtain rfl := hmine u (Client.token_of_engaged hu)
      exact he st hu
    · have hn : u ≠ t := by
        rintro rfl
        exact hdc (h.distinct d c k cl u hd hc (Client.token_of_engaged hu) ht)
      exact ho.holding hn (h.holding d k u st hd hu)

theorem exclusive_request (h : Exclusive s) (c : ℕ) (scope : String)
    (identity : ResourceIdentity) (tier : String) (contributor : Contributor)
    (awaitsOperator : Bool) :
    Exclusive
      { gate := (s.gate.request scope identity tier contributor awaitsOperator).1
        clients := s.clients.set c (afterRequest
          (s.gate.request scope identity tier contributor awaitsOperator).2 awaitsOperator) } := by
  obtain ⟨hle, hlt⟩ := s.gate.request_length scope identity tier contributor awaitsOperator
  have hn : ∀ u, (afterRequest (s.gate.request scope identity tier contributor
      awaitsOperator).2 awaitsOperator).token = some u →
      u = s.gate.heap.length ∧
        u < (s.gate.request scope identity tier contributor awaitsOperator).1.heap.length := by
    intro u hu
    unfold afterRequest at hu
    split at hu
    · rename_i hm ht
      have he := Gate.request_token_of_mayExecute hm
      rw [ht] at he
      have hut : u = s.gate.heap.length := by
        simp only [Client.token, some.injEq] at hu he
        rw [← hu]
        exact Token.record.inj he
      exact ⟨hut, hut ▸ hlt hm⟩
    · cases hu
  have hidle : (afterRequest (s.gate.request scope identity tier contributor
      awaitsOperator).2 awaitsOperator).engaged = none := by
    unfold afterRequest
    split <;> rfl
  refine ⟨?_, ?_, ?_⟩
  · intro d k u hd hu
    simp only [Dict.get?_set] at hd
    split_ifs at hd with hc
    · cases hd
      exact (hn u hu).2
    · exact (h.owned d k u hd hu).trans_le hle
  · intro d d' k k' u hd hd' hu hu'
    simp only [Dict.get?_set] at hd hd'
    split_ifs at hd hd' with hc hc' hc'
    · rw [hc, hc']
    · cases hd
      have hl := h.owned d' k' u hd' hu'
      have heq := (hn u hu).1
      omega
    · cases hd'
      have hl := h.owned d k u hd hu
      have heq := (hn u hu').1
      omega
    · exact h.distinct d d' k k' u hd hd' hu hu'
  · intro d k u st hd hu
    simp only [Dict.get?_set] at hd
    split_ifs at hd with hc
    · cases hd
      rw [hidle] at hu
      cases hu
    · exact (h.holding d k u st hd hu).request (Client.state_of_engaged hu)

theorem exclusive_retire (h : Exclusive s) (hc : s.clients.get? c = some cl)
    (ht : cl.token = some t) (result : Bool) :
    Exclusive { gate := s.gate.retire t (some result), clients := s.clients.set c .ended } :=
  h.own hc ht (Gate.ownStep_retire s.gate t (some result)) (fun c' => Dict.get?_set _ c c' _)
    (.inl rfl) (fun _ he => by cases he)

theorem clients_keep (hc : s.clients.get? c = some cl) (c' : ℕ) :
    s.clients.get? c' = if c' = c then some cl else s.clients.get? c' := by
  split_ifs with he
  · rw [he, hc]
  · rfl

theorem token_of_retires (h : (∃ aw, cl = .admitted t aw) ∨ cl = .cleared t ∨ cl = .driving t) :
    cl.token = some t := by
  obtain ⟨aw, rfl⟩ | rfl | rfl := h <;> rfl

theorem exclusive_step (h : Exclusive s) {a : Action} (ha : HoldsWhenMarked s a)
    (hs : step s a = some s') : Exclusive s' := by
  cases step_cases hs with
  | opens scope | closes scope => exact ⟨h.owned, h.distinct, h.holding⟩
  | requests c scope identity tier contributor aw hn =>
    exact exclusive_request h c scope identity tier contributor aw
  | proposes c t proposalId hc =>
    exact h.own hc rfl (Gate.ownStep_markProposal s.gate t proposalId) (clients_keep hc)
      (.inr rfl) (fun _ he => by cases he)
  | marks c t hc =>
    refine h.own hc rfl (Gate.ownStep_markRunning s.gate t) (fun c' => Dict.get?_set _ c c' _)
      (.inr rfl) ?_
    intro st he
    obtain ⟨i, st', hv, hu⟩ := ha t hc
    obtain rfl := (Prod.mk.inj (Option.some.inj he)).2
    exact Gate.holding_markRunning hv hu
  | replies c t hc =>
    refine h.own hc rfl (Gate.ownStep_replyAdmitted s.gate t) (fun c' => Dict.get?_set _ c c' _)
      ?_ ?_
    · split_ifs <;> exact .inr rfl
    · intro st he
      split_ifs at he with ho
      · obtain rfl := (Prod.mk.inj (Option.some.inj he)).2
        exact Gate.holding_replyAdmitted ho
      · cases he
  | enters c t hc =>
    exact h.own hc rfl (Gate.ownStep_refl s.gate t) (fun c' => Dict.get?_set _ c c' _)
      (.inr rfl) (fun st he => h.holding c _ t st hc he)
  | doubts c t hc =>
    refine h.own hc rfl (Gate.ownStep_markUncertain s.gate t) (fun c' => Dict.get?_set _ c c' _)
      (.inr rfl) ?_
    intro st he
    obtain rfl := (Prod.mk.inj (Option.some.inj he)).2
    exact (h.holding c _ t .running hc rfl).markUncertain
  | retires c cl t result hc hl => exact exclusive_retire h hc (token_of_retires hl) result
  | resolves c t accepted hc =>
    exact h.own hc rfl (Gate.ownStep_resolveUncertain s.gate t accepted)
      (fun c' => Dict.get?_set _ c c' _) (.inl rfl) (fun _ he => by cases he)

theorem exclusive_init : Exclusive {} := by
  refine ⟨?_, ?_, ?_⟩
  · intro c cl t hc
    cases hc
  · intro c c' cl cl' t hc
    cases hc
  · intro c cl t st hc
    cases hc

/-- The identity client `c` is driving, between entering the executor and its end. -/
def drivenBy (s : Dispatch) (c : ℕ) : Option (ℕ × ResourceIdentity) := do
  let cl ← s.clients.get? c
  let t ← cl.drives
  let p ← s.gate.view t
  pure (t, p.1)

theorem Exclusive.drivenBy (h : Exclusive s) {i : ResourceIdentity}
    (hd : s.drivenBy c = some (t, i)) : s.gate.records.get? i.resourceKey = some t := by
  simp only [Dispatch.drivenBy, bind_eq_bind, bind_eq_some_iff, pure_def,
    some.injEq, Prod.mk.injEq] at hd
  obtain ⟨cl, hc, u, hu, ⟨j, st⟩, hv, rfl, rfl⟩ := hd
  obtain ⟨st', he⟩ := Client.engaged_of_drives hu
  obtain ⟨k, hk, hcu⟩ := h.holding c cl u st' hc he
  obtain ⟨rfl, _⟩ := Prod.mk.inj (mem_unique hv hk)
  exact hcu

theorem drivenBy_view {i : ResourceIdentity} (hd : s.drivenBy c = some (t, i)) :
    (s.gate.view t).map Prod.fst = some i := by
  simp only [Dispatch.drivenBy, bind_eq_bind, bind_eq_some_iff, pure_def,
    some.injEq, Prod.mk.injEq] at hd
  obtain ⟨_, _, u, _, p, hv, rfl, rfl⟩ := hd
  rw [hv]
  rfl

/-- In every run whose `mark_running` steps are all taken by the current holder, every driver holds
its resource, so a displaced or refused holder never drives, and no two clients drive opposing
acts on one resource. -/
theorem no_opposing_drivers {as : List Action} {s : Dispatch}
    (hmarked : Meets step HoldsWhenMarked {} as) (hrun : run step {} as = some s) :
    (∀ c t i, s.drivenBy c = some (t, i) → s.gate.records.get? i.resourceKey = some t) ∧
    ∀ c d t u i j, s.drivenBy c = some (t, i) → s.drivenBy d = some (u, j) →
      opposes i j = false := by
  have hex : Exclusive s :=
    run_invariant_of_meets (fun _ _ _ hu hC hv => exclusive_step hu hC hv) exclusive_init
      hmarked hrun
  refine ⟨fun c t i hd => hex.drivenBy hd, ?_⟩
  intro c d t u i j hc hd
  by_contra hopp
  have hopp' : opposes i j = true := by simpa using hopp
  have ht := hex.drivenBy hc
  rw [opposes_resourceKey hopp', hex.drivenBy hd] at ht
  cases ht
  have hij : i = j := mem_unique (drivenBy_view hc) (drivenBy_view hd)
  rw [hij, opposes_self] at hopp'
  cases hopp'

def breakerOpen : ResourceIdentity := ⟨["device", "zone"], openProtectedCircuit, []⟩

def breakerClose : ResourceIdentity := ⟨["device", "zone"], closeProtectedCircuit, []⟩

def tripContributor : Contributor :=
  { skillName := "skill", triggerName := "over_current", action := "trip_relay",
    dispatchTier := "D", tierDGranted := true }

def recloseContributor : Contributor :=
  { skillName := "skill", triggerName := "reclose", action := "release_relay", dispatchTier := "B" }

def tripRun : List Action :=
  [.request 0 "event" breakerOpen "D" tripContributor false, .markRunning 0, .enterExecutor 0]

/-- The trip alone: admitted, marked while it holds the breaker, and driving. -/
theorem no_opposing_drivers_trip :
    ∃ s, run step {} tripRun = some s ∧ s.drivenBy 0 = some (0, breakerOpen) ∧
      s.gate.records.get? breakerOpen.resourceKey = some 0 := by
  have hmarked : Meets step HoldsWhenMarked {} tripRun := by
    refine meets_cons trivial rfl (meets_cons ?_ rfl (meets_cons trivial rfl trivial))
    intro t ht
    obtain rfl : 0 = t := by injection ht with ht; injection ht
    exact ⟨_, _, rfl, rfl⟩
  exact ⟨_, rfl, rfl, (no_opposing_drivers hmarked rfl).1 0 0 breakerOpen rfl⟩

/-- A Tier B close is admitted, a Tier D open preempts it, and both then mark themselves running. -/
def preemptionRun : List Action :=
  [.request 0 "event" breakerClose "B" recloseContributor false,
   .request 1 "event" breakerOpen "D" tripContributor false,
   .markRunning 0, .enterExecutor 0, .markRunning 1, .enterExecutor 1]

theorem preempted_holder_drives :
    ∃ s, run step {} preemptionRun = some s ∧ s.drivenBy 0 = some (0, breakerClose) ∧
      s.drivenBy 1 = some (1, breakerOpen) ∧ opposes breakerClose breakerOpen = true :=
  ⟨_, rfl, rfl, rfl, by decide⟩

end Dispatch

end OriRuntime
