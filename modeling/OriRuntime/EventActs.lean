import OriRuntime.GateEvents

/-!
# One act per event and outcome

`EventActs` is a dispatch beside the marks one open event leaves for one outcome, newest first: its
requests that were admitted, the executors entered, and the attempts it claims that were accepted or
declined by an operator.
-/

namespace OriRuntime

open List Option

open Execution

namespace Gate

variable {g g' : Gate} {t u : ℕ} {scope : String} {identity : ResourceIdentity} {tier : String}
  {c : Contributor} {awaitsOperator : Bool} {d : GateDecision} {key : List String}

/-- The request is refused, or joins an attempt or an entry of its own join key. -/
def Attaches (g : Gate) (identity : ResourceIdentity) (d : GateDecision) : Prop :=
  d.admission = .refused ∨
    d.admission = .joined ∧
      ((∃ t r, d.token = some (.record t) ∧ g.heap[t]? = some r ∧ r.identity = identity) ∨
        ∃ e, d.token = some (.entry e) ∧ e.identity = identity)

/-- The request takes over from a holder in flight: a Tier D request from a proposal of its own
outcome, any request from an opposing proposal or reservation of a lower tier. -/
def Displaces (g : Gate) (identity : ResourceIdentity) (tier : String) (d : GateDecision) : Prop :=
  ∃ t r, d.displaced = some t ∧ g.holder identity.resourceKey = some (t, r) ∧
    (r.state = .proposal ∧ r.identity = identity ∧ tierRank "D" ≤ tierRank tier ∨
      opposes r.identity identity = true ∧ tierRank r.tier < tierRank tier)

theorem request_attaches (he : g.joinCompleted scope identity tier c ≠ none) :
    g.Attaches identity (g.request scope identity tier c awaitsOperator).2 ∨
      g.Displaces identity tier (g.request scope identity tier c awaitsOperator).2 := by
  rcases g.request_outcome scope identity tier c awaitsOperator with
    ⟨hd, _⟩ | ⟨_, e, _, _, _, hi, _, hd, ht, _⟩ | ⟨t, r, hh, hi, _, hd, ht, _⟩ |
    ⟨_, _, _, _, _, _, _, hjoin⟩ | ⟨t, r, hh, hs, hw, _, _, _, _, _, hdi⟩ |
    ⟨t, r, hh, _, hw, _, _, _, _, _, hdi⟩ | ⟨_, _, _, _, _, hd, _⟩
  · exact .inl (.inl hd)
  · exact .inl (.inr ⟨hd, .inr ⟨e, ht, hi⟩⟩)
  · exact .inl (.inr ⟨hd, .inl ⟨t, r, ht, (holder_eq_some_iff.mp hh).2.1, hi⟩⟩)
  · exact absurd hjoin he
  · refine .inr ⟨t, r, hdi, hh, ?_⟩
    obtain ⟨hi, hd⟩ | ho := hw
    · exact .inl ⟨hs, hi, hd⟩
    · exact .inr ho
  · exact .inr ⟨t, r, hdi, hh, .inr hw⟩
  · exact .inl (.inl hd)

theorem mayExecute_of_attaches (h : g.Attaches identity d) : d.mayExecute = false := by
  obtain hd | ⟨hd, -⟩ := h <;> simp [GateDecision.mayExecute, hd]

/-! ### A token that no longer holds -/

theorem records_ne_request (hu : u < g.heap.length) (h : g.records.get? key ≠ some u) :
    (g.request scope identity tier c awaitsOperator).1.records.get? key ≠ some u := by
  have hs : (g.records.set identity.resourceKey g.heap.length).get? key ≠ some u := by
    rw [Dict.get?_set]
    split_ifs
    · intro heq
      have hl := some.inj heq
      omega
    · exact h
  rcases g.request_outcome scope identity tier c awaitsOperator with
    ⟨_, _, hr, _⟩ | ⟨_, _, _, _, _, _, _, _, _, _, hr, _⟩ | ⟨_, _, _, _, _, _, _, _, hr, _⟩ |
    ⟨_, _, _, _, hr, _⟩ | ⟨_, _, _, _, _, _, _, _, hr, _⟩ |
    ⟨_, _, _, _, _, _, _, _, hr, _⟩ | ⟨_, _, _, _, _, _, _, hr, _⟩
  · rw [hr]
    exact h
  · rw [hr]
    exact h
  · rw [hr]
    exact h
  · rw [hr]
    exact hs
  · rw [hr]
    exact hs
  · rw [hr]
    exact hs
  · rw [hr, Dict.get?_pop]
    split_ifs
    · nofun
    · exact h

theorem OwnStep.records_ne (ho : OwnStep g g' t) (h : g.records.get? key ≠ some u) :
    g'.records.get? key ≠ some u := by
  obtain heq | ⟨key', -, heq⟩ := ho.records
  · rw [heq]
    exact h
  · rw [heq, Dict.get?_pop]
    split_ifs
    · nofun
    · exact h

theorem release_frees (h : g.records.get? key = some t) :
    (g.release t key).records.get? key = none := by
  unfold release
  rw [if_pos h, Dict.get?_pop_self]

theorem retire_frees {r : Record} {result : Option Bool} (hr : g.heap[t]? = some r)
    (hs : r.state ≠ .uncertain) (hc : g.records.get? r.identity.resourceKey = some t) :
    (g.retire t result).records.get? r.identity.resourceKey = none := by
  unfold retire
  rw [hr]
  simp only [if_neg hs]
  apply release_frees
  rw [modifyRecord_records, recordEntries_records, modifyRecord_records, hc]

theorem resolveUncertain_frees {r : Record} {accepted : Bool} (hr : g.heap[t]? = some r)
    (hs : r.state = .uncertain) (hc : g.records.get? r.identity.resourceKey = some t) :
    (g.resolveUncertain t accepted).records.get? r.identity.resourceKey = none := by
  unfold resolveUncertain
  rw [hr]
  simp only [hs]
  apply release_frees
  rw [recordEntries_records, modifyRecord_records, hc]

/-! ### The identity of a record -/

theorem OwnStep.identity_eq (ho : OwnStep g g' t) (u : ℕ) :
    (g'.view u).map Prod.fst = (g.view u).map Prod.fst := by
  by_cases hu : u = t
  · rw [hu, ho.identity]
  · rw [ho.view_ne u hu]

theorem identity_request (h : (g.view u).map Prod.fst = some identity) {i : ResourceIdentity} :
    ((g.request scope i tier c awaitsOperator).1.view u).map Prod.fst = some identity := by
  have hl : u < g.heap.length := by
    obtain ⟨p, hp, -⟩ := Option.map_eq_some_iff.mp h
    exact view_lt (by rw [hp]; rfl)
  have hk : (g.request scope i tier c awaitsOperator).1.view u = g.view u ∨
      (g.request scope i tier c awaitsOperator).1.view u =
        (g.view u).map (fun p => (p.1, .retired)) := request_view hl
  obtain hs | hr := hk
  · rw [hs, h]
  · rw [hr, Option.map_map]
    exact h

/-! ### An event stays open until it is closed -/

theorem recordEntries_isSome (g : Gate) (t : ℕ) (ran : Bool) (s : String) :
    ((g.recordEntries t ran).scopes.get? s).isSome = (g.scopes.get? s).isSome := by
  unfold recordEntries
  split
  · rfl
  rename_i r hr
  generalize claimingScopes r = scopes
  clear hr
  induction scopes generalizing g with
  | nil => rfl
  | cons scope scopes ih =>
    rw [foldl_cons, ih]
    by_cases hs : s = scope
    · subst hs
      unfold recordEntry
      split
      · rename_i hg
        simp [hg]
      · rfl
    · rw [recordEntry_other hs]

theorem request_isSome {s : String} (h : (g.scopes.get? s).isSome = true) :
    ((g.request scope identity tier c awaitsOperator).1.scopes.get? s).isSome = true := by
  rcases g.request_outcome scope identity tier c awaitsOperator with
    ⟨_, _, _, hs, _⟩ | ⟨entries, e, _, hg, _, _, _, _, _, _, _, hs, _⟩ |
    ⟨_, _, _, _, _, _, _, _, _, hs, _⟩ | ⟨_, _, _, _, _, hs, _⟩ |
    ⟨_, _, _, _, _, _, _, _, _, hs, _⟩ | ⟨_, _, _, _, _, _, _, _, _, hs, _⟩ |
    ⟨_, _, _, _, _, _, _, _, hs, _⟩
  · rw [hs, h]
  · rw [hs]
    split_ifs
    · rw [Dict.get?_set]
      split_ifs
      · rfl
      · exact h
    · exact h
  all_goals rw [hs, h]

theorem apply_isSome {o : Op} (ho : o ≠ .closeScope scope)
    (h : (g.scopes.get? scope).isSome = true) :
    ((g.apply o).scopes.get? scope).isSome = true := by
  cases o with
  | openScope scope' =>
    simp only [apply, Gate.openScope, Dict.get?_setdefault]
    split_ifs
    · rfl
    · exact h
  | closeScope scope' =>
    have hn : scope ≠ scope' := by
      rintro rfl
      exact ho rfl
    simpa only [apply, Gate.closeScope, Dict.get?_pop_of_ne _ hn] using h
  | request scope' identity tier c aw => exact request_isSome h
  | markProposal t proposalId | markRunning t => exact h
  | replyAdmitted t =>
    simp only [apply, Gate.replyAdmitted]
    split
    · exact h
    · split_ifs <;> exact h
  | markUncertain t =>
    simp only [apply, Gate.markUncertain]
    split
    · exact h
    · rw [recordEvent_scopes, recordEntries_isSome]
      exact h
  | retire t result =>
    simp only [apply, Gate.retire]
    split
    · exact h
    split_ifs
    · exact h
    · rw [release_scopes, modifyRecord_scopes, recordEntries_isSome]
      exact h
  | resolveUncertain t accepted =>
    simp only [apply, Gate.resolveUncertain]
    split
    · exact h
    split_ifs
    · exact h
    · rw [recordEvent_scopes, release_scopes, recordEntries_isSome]
      exact h

end Gate

namespace Dispatch

variable {s s' : Dispatch} {t : ℕ} {identity : ResourceIdentity}

/-- What every run keeps of a record: its identity, and that it never takes a resource again once
the resource is not held by it. -/
theorem record_step {a : Action} (hs : step s a = some s')
    (hi : (s.gate.view t).map Prod.fst = some identity) :
    (s'.gate.view t).map Prod.fst = some identity ∧
      ∀ key, s.gate.records.get? key ≠ some t → s'.gate.records.get? key ≠ some t := by
  have hl : t < s.gate.heap.length := by
    obtain ⟨p, hp, -⟩ := map_eq_some_iff.mp hi
    exact Gate.view_lt (by rw [hp]; rfl)
  have ho : ∀ {g' u}, s.gate.OwnStep g' u → (g'.view t).map Prod.fst = some identity ∧
      ∀ key, s.gate.records.get? key ≠ some t → g'.records.get? key ≠ some t :=
    fun h => ⟨(h.identity_eq t).trans hi, fun _ he => h.records_ne he⟩
  cases step_cases hs with
  | opens scope | closes scope => exact ⟨hi, fun _ he => he⟩
  | requests c scope i tier contributor aw hn =>
    exact ⟨Gate.identity_request hi, fun _ he => Gate.records_ne_request hl he⟩
  | proposes c u proposalId hc => exact ho (Gate.ownStep_markProposal _ u _)
  | marks c u hc => exact ho (Gate.ownStep_markRunning _ u)
  | replies c u hc => exact ho (Gate.ownStep_replyAdmitted _ u)
  | enters c u hc => exact ⟨hi, fun _ he => he⟩
  | doubts c u hc => exact ho (Gate.ownStep_markUncertain _ u)
  | retires c cl u result hc hcl => exact ho (Gate.ownStep_retire _ u _)
  | resolves c u accepted hc => exact ho (Gate.ownStep_resolveUncertain _ u accepted)

theorem isSome_step {scope : String} {a : Action} (hs : step s a = some s')
    (ho : a ≠ .closeScope scope) (h : (s.gate.scopes.get? scope).isSome = true) :
    (s'.gate.scopes.get? scope).isSome = true := by
  cases step_cases hs with
  | opens scope' => exact Gate.apply_isSome (o := .openScope scope') nofun h
  | closes scope' =>
    refine Gate.apply_isSome (o := .closeScope scope') ?_ h
    rintro heq
    cases heq
    exact ho rfl
  | requests c scope' identity tier contributor aw hn => exact Gate.request_isSome h
  | proposes c t proposalId hc | marks c t hc => exact h
  | replies c t hc => exact Gate.apply_isSome (o := .replyAdmitted t) nofun h
  | enters c t hc => exact h
  | doubts c t hc => exact Gate.apply_isSome (o := .markUncertain t) nofun h
  | retires c cl t result hc hl => exact Gate.apply_isSome (o := .retire t (some result)) nofun h
  | resolves c t accepted hc => exact Gate.apply_isSome (o := .resolveUncertain t accepted) nofun h

end Dispatch

inductive EventMark where
  | admitted (t : ℕ) (d : GateDecision)
  | entered (t : ℕ)
  | accepted (t : ℕ)
  | declined (t : ℕ)
  deriving DecidableEq

structure EventActs where
  dispatch : Dispatch
  marks : List EventMark := []

namespace EventActs

open Dispatch (Action HoldsWhenMarked Exclusive Protocol Accounts)

/-- The event admitted or joined attempt `t` of the outcome. -/
def claims (scope : String) (identity : ResourceIdentity) (g : Gate) (t : ℕ) : Bool :=
  (g.heap[t]?).any (fun r =>
    decide (r.identity = identity) && decide (scope ∈ Gate.claimingScopes r))

def markOf (scope : String) (identity : ResourceIdentity) (s : Dispatch) :
    Action → List EventMark
  | .request _ scope' identity' tier contributor aw =>
    let d := (s.gate.request scope' identity' tier contributor aw).2
    match d.mayExecute, d.token with
    | true, some (.record t) =>
      if scope' = scope ∧ identity' = identity then [.admitted t d] else []
    | _, _ => []
  | .enterExecutor c =>
    match s.clients.get? c with
    | some (.cleared t) => [.entered t]
    | _ => []
  | .retire c result =>
    match s.clients.get? c with
    | some (.admitted t true) =>
      if claims scope identity s.gate t && (s.gate.heap[t]?).any (·.asked) then [.declined t]
      else []
    | some (.driving t) =>
      if claims scope identity s.gate t && result then [.accepted t] else []
    | _ => []
  | .resolveUncertain c accepted =>
    match s.clients.get? c with
    | some (.uncertain t) =>
      if claims scope identity s.gate t && accepted then [.accepted t] else []
    | _ => []
  | _ => []

def step (scope : String) (identity : ResourceIdentity) (s : EventActs) (a : Action) :
    Option EventActs :=
  (Dispatch.step s.dispatch a).map
    (fun d => { dispatch := d, marks := markOf scope identity s.dispatch a ++ s.marks })

/-- Attempt `t` was admitted after every accepted one, in the place of a holder in flight. -/
def FollowsUp (marks : List EventMark) (t : ℕ) : Prop :=
  ∀ later u earlier, marks = later ++ .accepted u :: earlier →
    ∃ d, .admitted t d ∈ later ∧ d.displaced ≠ none

variable {scope : String} {identity : ResourceIdentity} {marks : List EventMark} {m : EventMark}
  {t u : ℕ} {s s' : EventActs}

theorem FollowsUp.cons (h : FollowsUp marks t) (hm : ∀ u, m ≠ .accepted u) :
    FollowsUp (m :: marks) t := by
  intro later u earlier heq
  cases later with
  | nil => exact absurd (List.cons.inj heq).1 (hm u)
  | cons m' later =>
    obtain ⟨rfl, hr⟩ := List.cons.inj heq
    obtain ⟨d, hd, hi⟩ := h later u earlier hr
    exact ⟨d, mem_cons_of_mem _ hd, hi⟩

theorem followsUp_of_displaced {d : GateDecision} (hd : d.displaced ≠ none) :
    FollowsUp (.admitted t d :: marks) t := by
  intro later u earlier heq
  cases later with
  | nil => cases (List.cons.inj heq).1
  | cons m' later =>
    obtain ⟨rfl, -⟩ := List.cons.inj heq
    exact ⟨d, mem_cons_self, hd⟩

theorem followsUp_of_none (h : ∀ u, .accepted u ∉ marks) : FollowsUp marks t := by
  rintro later u earlier rfl
  exact absurd (mem_append_right later mem_cons_self) (h u)

/-- What the marks of the event say of the gate. -/
structure Settles (scope : String) (identity : ResourceIdentity) (s : EventActs) : Prop where
  exclusive : Exclusive s.dispatch
  protocol : Protocol s.dispatch
  accounts : Accounts s.dispatch
  isOpen : (s.dispatch.gate.scopes.get? scope).isSome = true
  ran : ∀ t, .accepted t ∈ s.marks →
    s.dispatch.gate.Left (fun e => e.identity = identity ∧ e.ran = true) scope
  declined : ∀ t, .declined t ∈ s.marks → s.dispatch.gate.Left (fun e =>
    e.identity = identity ∧ (e.ran = true ∨ e.entered = false ∧ e.asked = true)) scope
  mine : ∀ t d, .admitted t d ∈ s.marks →
    (s.dispatch.gate.view t).map Prod.fst = some identity
  follows : ∀ t d, .admitted t d ∈ s.marks → FollowsUp s.marks t ∨
    s.dispatch.gate.records.get? identity.resourceKey ≠ some t
  entered : ∀ later t earlier, s.marks = later ++ .entered t :: earlier →
    ∀ d, .admitted t d ∈ earlier → FollowsUp earlier t

/-! ### One step -/

theorem Settles.keep (h : Settles scope identity s) {a : Action} {d : Dispatch}
    (hh : HoldsWhenMarked s.dispatch a) (ho : a ≠ .closeScope scope)
    (hs : Dispatch.step s.dispatch a = some d) : Settles scope identity { s with dispatch := d } where
  exclusive := Dispatch.exclusive_step h.exclusive hh hs
  protocol := h.protocol.step hs
  accounts := h.accounts.step h.protocol hs
  isOpen := Dispatch.isSome_step hs ho h.isOpen
  ran t ht := Dispatch.left_step (fun _ he _ => he.2) h.accounts hs ho (h.ran t ht)
  declined t ht := by
    refine Dispatch.left_step ?_ h.accounts hs ho (h.declined t ht)
    rintro e ⟨-, hr | ⟨hn, -⟩⟩ he
    · exact hr
    · rw [hn] at he
      cases he
  mine t d' ht := (Dispatch.record_step hs (h.mine t d' ht)).1
  follows t d' ht := by
    obtain hfo | hf := h.follows t d' ht
    · exact .inl hfo
    · exact .inr ((Dispatch.record_step hs (h.mine t d' ht)).2 _ hf)
  entered := h.entered

theorem Settles.enter (h : Settles scope identity s)
    (ho : ∀ d, .admitted t d ∈ s.marks → FollowsUp s.marks t) :
    Settles scope identity { s with marks := .entered t :: s.marks } where
  exclusive := h.exclusive
  protocol := h.protocol
  accounts := h.accounts
  isOpen := h.isOpen
  ran u hu := h.ran u (by simpa using hu)
  declined u hu := h.declined u (by simpa using hu)
  mine u d hu := h.mine u d (by simpa using hu)
  follows u d hu := by
    obtain hold | hf := h.follows u d (by simpa using hu)
    · exact .inl (hold.cons nofun)
    · exact .inr hf
  entered later u earlier heq d hd := by
    cases later with
    | nil =>
      obtain ⟨hmark, rfl⟩ := List.cons.inj heq
      cases hmark
      exact ho d hd
    | cons m later => exact h.entered later u earlier (List.cons.inj heq).2 d hd

theorem Settles.admitted (h : Settles scope identity s) {d : GateDecision}
    (hi : (s.dispatch.gate.view t).map Prod.fst = some identity)
    (ho : FollowsUp (.admitted t d :: s.marks) t) :
    Settles scope identity { s with marks := .admitted t d :: s.marks } where
  exclusive := h.exclusive
  protocol := h.protocol
  accounts := h.accounts
  isOpen := h.isOpen
  ran u hu := h.ran u (by simpa using hu)
  declined u hu := h.declined u (by simpa using hu)
  mine u d' hu := by
    obtain hh | ht := mem_cons.mp hu
    · cases hh
      exact hi
    · exact h.mine u d' ht
  follows u d' hu := by
    obtain hh | ht := mem_cons.mp hu
    · cases hh
      exact .inl ho
    · obtain hold | hf := h.follows u d' ht
      · exact .inl (hold.cons nofun)
      · exact .inr hf
  entered later u earlier heq d' hd' := by
    cases later with
    | nil => cases (List.cons.inj heq).1
    | cons m later => exact h.entered later u earlier (List.cons.inj heq).2 d' hd'

theorem Settles.accept (h : Settles scope identity s)
    (hr : s.dispatch.gate.Left (fun e => e.identity = identity ∧ e.ran = true) scope)
    (hf : s.dispatch.gate.records.get? identity.resourceKey = none) :
    Settles scope identity { s with marks := .accepted t :: s.marks } where
  exclusive := h.exclusive
  protocol := h.protocol
  accounts := h.accounts
  isOpen := h.isOpen
  ran u _ := hr
  declined u hu := h.declined u (by simpa using hu)
  mine u d hu := h.mine u d (by simpa using hu)
  follows u d hu := .inr (by simp [hf])
  entered later u earlier heq d hd := by
    cases later with
    | nil => cases (List.cons.inj heq).1
    | cons m later => exact h.entered later u earlier (List.cons.inj heq).2 d hd

theorem Settles.decline (h : Settles scope identity s)
    (he : s.dispatch.gate.Left (fun e => e.identity = identity ∧
      (e.ran = true ∨ e.entered = false ∧ e.asked = true)) scope) :
    Settles scope identity { s with marks := .declined t :: s.marks } where
  exclusive := h.exclusive
  protocol := h.protocol
  accounts := h.accounts
  isOpen := h.isOpen
  ran u hu := h.ran u (by simpa using hu)
  declined u _ := he
  mine u d hu := h.mine u d (by simpa using hu)
  follows u d hu := by
    obtain hold | hf := h.follows u d (by simpa using hu)
    · exact .inl (hold.cons nofun)
    · exact .inr hf
  entered later u earlier heq d hd := by
    cases later with
    | nil => cases (List.cons.inj heq).1
    | cons m later => exact h.entered later u earlier (List.cons.inj heq).2 d hd

theorem claims_iff {g : Gate} : claims scope identity g t = true ↔
    ∃ r, g.heap[t]? = some r ∧ r.identity = identity ∧ scope ∈ Gate.claimingScopes r := by
  unfold claims
  cases hr : g.heap[t]? with
  | none => simp
  | some r => simp

theorem Settles.followsUp_of_holding (h : Settles scope identity s) {st : HolderState}
    {d : GateDecision} (hold : s.dispatch.gate.Holding t st) (hd : .admitted t d ∈ s.marks) :
    FollowsUp s.marks t := by
  obtain ⟨i, hv, hc⟩ := hold
  have hi := h.mine t d hd
  rw [hv] at hi
  obtain rfl : i = identity := some.inj hi
  obtain ho | hf := h.follows t d hd
  · exact ho
  · exact absurd hc hf

theorem Settles.followsUp_request (h : Settles scope identity s) {tier : String} {c : Contributor}
    {aw : Bool}
    (hm : (s.dispatch.gate.request scope identity tier c aw).2.mayExecute = true) :
    FollowsUp (.admitted t (s.dispatch.gate.request scope identity tier c aw).2 :: s.marks) t := by
  by_cases hr : ∃ u, .accepted u ∈ s.marks
  · obtain ⟨u, hu⟩ := hr
    have hl : s.dispatch.gate.Left (fun e => e.identity = identity ∧ (e.ran = true ∨
        tierRank tier < tierRank "D" ∧ e.entered = false ∧ e.asked = true)) scope := by
      obtain ⟨entries, hg, e, he, hi, hru⟩ := h.ran u hu
      exact ⟨entries, hg, e, he, hi, .inl hru⟩
    have hansr : s.dispatch.gate.Attaches identity
          (s.dispatch.gate.request scope identity tier c aw).2 ∨
        s.dispatch.gate.Displaces identity tier
          (s.dispatch.gate.request scope identity tier c aw).2 :=
      Gate.request_attaches (Gate.joinCompleted_ne_none hl)
    obtain ha | ⟨t', r, hd, -⟩ := hansr
    · rw [Gate.mayExecute_of_attaches ha] at hm
      cases hm
    · exact followsUp_of_displaced (by simp [hd])
  · have hn : FollowsUp s.marks t := followsUp_of_none (fun u hu => hr ⟨u, hu⟩)
    exact hn.cons nofun

theorem step_eq_some_iff {a : Action} : step scope identity s a = some s' ↔
    ∃ d, Dispatch.step s.dispatch a = some d ∧
      s' = { dispatch := d, marks := markOf scope identity s.dispatch a ++ s.marks } := by
  simp only [step, map_eq_some_iff, eq_comm (a := s')]

/-- The event's side of the protocol: it stays open, and `mark_running` is called by the current
holder. -/
def StaysOpen (scope : String) (s : EventActs) (a : Action) : Prop :=
  HoldsWhenMarked s.dispatch a ∧ a ≠ .closeScope scope

theorem Settles.step (h : Settles scope identity s) {a : Action} (ha : StaysOpen scope s a)
    (hstep : step scope identity s a = some s') : Settles scope identity s' := by
  obtain ⟨d, hd, rfl⟩ := step_eq_some_iff.mp hstep
  have hkeep := h.keep ha.1 ha.2 hd
  cases Dispatch.step_cases hd with
  | opens scope' | closes scope' => exact hkeep
  | requests c scope' i tier contributor aw hn =>
    simp only [markOf]
    split
    · rename_i t hm ht
      split_ifs with hmine
      · obtain ⟨rfl, rfl⟩ := hmine
        obtain rfl : t = s.dispatch.gate.heap.length := by
          rw [Gate.request_token_of_mayExecute hm] at ht
          exact (Token.record.inj (some.inj ht)).symm
        refine hkeep.admitted ?_ (h.followsUp_request hm)
        simp only [Gate.view, (Gate.request_fresh hm).1]
        rfl
      · exact hkeep
    · exact hkeep
  | proposes c t proposalId hc | marks c t hc | replies c t hc => exact hkeep
  | enters c t hc =>
    simp only [markOf, hc]
    refine hkeep.enter ?_
    intro d hd
    exact h.followsUp_of_holding (h.exclusive.holding c _ t .running hc rfl) hd
  | doubts c t hc => exact hkeep
  | retires c cl t result hc hl =>
    have hst : ∀ r, s.dispatch.gate.heap[t]? = some r → r.state ≠ .uncertain := by
      intro r hr hu
      have hre := h.protocol.reporting c cl t r.identity hc
        (Dispatch.token_of_retires hl) (by simp [Gate.view, hr, hu])
      obtain ⟨aw, rfl⟩ | rfl | rfl := hl <;> cases hre
    obtain ⟨r', hr', he, -⟩ := h.accounts c cl t hc (Dispatch.token_of_retires hl)
    obtain ⟨aw, rfl⟩ | rfl | rfl := hl
    · cases aw with
      | false => simpa only [markOf, hc, nil_append] using hkeep
      | true =>
        simp only [markOf, hc]
        split_ifs with hcm
        · rw [Bool.and_eq_true, claims_iff] at hcm
          obtain ⟨⟨r, hr, rfl, hs⟩, has⟩ := hcm
          obtain rfl := mem_unique hr hr'
          refine hkeep.decline (Gate.Left.mono (Gate.left_retire hr (hst r hr) hs h.isOpen) ?_)
          rintro e rfl
          refine ⟨rfl, .inr ⟨he, ?_⟩⟩
          simpa [Gate.entryFor, hr] using has
        · exact hkeep
    · simpa only [markOf, hc, nil_append] using hkeep
    · simp only [markOf, hc]
      split_ifs with hcm
      · rw [Bool.and_eq_true, claims_iff] at hcm
        obtain ⟨⟨r, hr, rfl, hs⟩, rfl⟩ := hcm
        obtain rfl := mem_unique hr hr'
        obtain ⟨i, hv, hcu⟩ := h.exclusive.holding c _ t .running hc rfl
        simp only [Gate.view, hr, map_some, some.injEq, Prod.mk.injEq] at hv
        obtain ⟨rfl, -⟩ := hv
        refine hkeep.accept ?_ (Gate.retire_frees hr (hst r hr) hcu)
        refine Gate.Left.mono (Gate.left_retire hr (hst r hr) hs h.isOpen) ?_
        rintro e rfl
        exact ⟨rfl, by simp [Gate.entryFor, he, Client.engaged]⟩
      · exact hkeep
  | resolves c t accepted hc =>
    simp only [markOf, hc]
    split_ifs with hcm
    · rw [Bool.and_eq_true, claims_iff] at hcm
      obtain ⟨⟨r, hr, rfl, hs⟩, rfl⟩ := hcm
      have hh := h.exclusive.holding c _ t .uncertain hc rfl
      obtain ⟨i, hv, hcu⟩ := hh
      simp only [Gate.view, hr, map_some, some.injEq, Prod.mk.injEq] at hv
      obtain ⟨rfl, hst⟩ := hv
      obtain ⟨r', hr', he, -⟩ := h.accounts c _ t hc rfl
      obtain rfl := mem_unique hr hr'
      refine hkeep.accept ?_ (Gate.resolveUncertain_frees hr hst hcu)
      refine Gate.Left.mono (Gate.left_resolveUncertain hr hst hs h.isOpen) ?_
      rintro e rfl
      exact ⟨rfl, by simp [Gate.entryFor, he, Client.engaged]⟩
    · exact hkeep

/-! ### Runs of an open event -/

theorem Settles.drives (h : Settles scope identity s) {c : ℕ}
    (hc : s.dispatch.drivenBy c = some (t, identity)) :
    ∃ st, s.dispatch.gate.Holding t st ∧ (st = .running ∨ st = .uncertain) := by
  simp only [Dispatch.drivenBy, Option.bind_eq_bind, Option.bind_eq_some_iff, Option.pure_def,
    Option.some.injEq, Prod.mk.injEq] at hc
  obtain ⟨cl, hl, u, hu, p, -, rfl, -⟩ := hc
  obtain ⟨st, he⟩ := Client.engaged_of_drives hu
  exact ⟨st, h.exclusive.holding c cl u st hl he, Client.state_of_engaged he⟩

end EventActs

end OriRuntime
