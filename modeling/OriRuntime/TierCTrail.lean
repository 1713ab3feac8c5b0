import OriRuntime.TierCMoves
import OriRuntime.Execution

/-!
# The trail a proposal leaves

The records of a proposal over every run of the store's transactions. `forward` is the order the
moves of the store and of its callers come to; a rank that every move raises shows it acyclic.
-/

namespace OriRuntime

open List Option

open DecisionState

namespace DecisionState

/-- The states a proposal in one state may be moved to. -/
def forward : DecisionState → List DecisionState
  | proposed => [approvedPendingDispatch, rejected, proposalExpired, proposalAbortedRestart,
      approvalBindingChanged, proposalBlockedUncertainOutcome]
  | approvedPendingDispatch => [dispatchStarted, executed, dispatchFailed, dispatchOutcomeUnknown,
      dispatchNotProven, approvalExpiredUndispatched, dispatchRefusedContention]
  | dispatchStarted => [executed, dispatchFailed, dispatchOutcomeUnknown]
  | dispatchOutcomeUnknown => [reconciledExecuted, reconciledNotExecuted]
  | dispatchNotProven => [reconciledExecuted, reconciledNotExecuted]
  | _ => []

def rank : DecisionState → ℕ
  | proposed => 0
  | approvedPendingDispatch => 1
  | dispatchStarted => 2
  | dispatchOutcomeUnknown => 3
  | dispatchNotProven => 3
  | _ => 4

/-- The states an operator's observation puts in place of an uncertain dispatch. -/
def reconciled (s : DecisionState) : Bool :=
  decide (s ∈ [reconciledExecuted, reconciledNotExecuted])

/-- Closed for good: dispatched to an end, closed without a dispatch, or reconciled. -/
def terminal (s : DecisionState) : Bool :=
  s.closedUndispatched || s.reconciled || decide (s ∈ [executed, dispatchFailed])

variable {a b : DecisionState}

theorem rank_lt_of_forward (h : b ∈ a.forward) : a.rank < b.rank := by
  have ha : ∀ a : DecisionState, ∀ b ∈ a.forward, a.rank < b.rank := by
    intro a
    cases a <;> decide
  exact ha a b h

theorem not_terminal_of_forward (h : b ∈ a.forward) : a.terminal = false := by
  cases a <;> first | rfl | exact absurd h not_mem_nil

theorem uncertain_of_forward (h : b ∈ a.forward) (hb : b.reconciled = true) :
    a.uncertain = true := by
  have ha : ∀ a : DecisionState, ∀ b ∈ a.forward, b.reconciled = true → a.uncertain = true := by
    intro a
    cases a <;> decide
  exact ha a b h hb

theorem not_reconciled_of_forward (h : b ∈ a.forward) : a.reconciled = false := by
  cases a <;> first | rfl | exact absurd h not_mem_nil

end DecisionState

namespace TierCStore

variable {b : DecisionState} {op : Op} {p : String} {s : TierCStore}

theorem Moves.forward {a : DecisionState} (h : Moves p op a b) : b ∈ a.forward := by
  cases h with
  | advanced m _ _ _ _ ha =>
    cases m <;> simp only [Move.fromStates, mem_cons, not_mem_nil, or_false] at ha <;>
      first | (obtain rfl := ha; decide) | (obtain rfl | rfl := ha <;> decide)
  | bindingChanged | blocked => decide
  | reconciled _ _ _ _ ha hb =>
    simp only [DecisionState.uncertain, mem_cons, not_mem_nil, or_false, decide_eq_true_eq] at ha hb
    obtain rfl | rfl := ha <;> obtain rfl | rfl := hb <;> decide

theorem Moves.reconciles {a : DecisionState} (h : Moves p op a b) (hb : b.reconciled = true) :
    ∃ req, op = .reconcile req := by
  cases h with
  | advanced m =>
    cases m <;> exact absurd hb (by decide)
  | bindingChanged | blocked => exact absurd hb (by decide)
  | reconciled req => exact ⟨req, rfl⟩

/-- The states a proposal passed through, in order. -/
def trail (s : TierCStore) (p : String) : List DecisionState :=
  (s.records.filter (fun r => decide (r.proposalId = p))).map (·.decisionState)

theorem trail_append {s' : TierCStore} {q : String} {reason : String} {now : ℤ}
    (h : s'.records = s.records ++ [⟨q, b, reason, now⟩]) (p : String) :
    s'.trail p = if q = p then s.trail p ++ [b] else s.trail p := by
  unfold trail
  rw [h, filter_append, map_append]
  split_ifs with hq
  · simp [hq]
  · simp [hq]

/-! ### The reconciliations across a transaction -/

theorem insertIntent_reconciliations (s : TierCStore) (p action reason : String) (now : ℤ) :
    (s.insertIntent p action reason now).1.reconciliations = s.reconciliations := by
  unfold insertIntent
  split_ifs <;> rfl

/-- A request answered by what is recorded, or refused, leaves every proposal and reconciliation;
one that is taken records its observation beside the move. -/
theorem reconcile_cases (s : TierCStore) (req : ReconcileRequest) (now : ℤ) :
    ((s.reconcileTierC req now).1.proposals = s.proposals ∧
      (s.reconcileTierC req now).1.reconciliations = s.reconciliations) ∨
    ∃ record row, s.reconciliations.get? req.proposalId = none ∧
      (s.reconcileTierC req now).1.reconciliations =
        s.reconciliations.set req.proposalId record ∧
      (s.reconcileTierC req now).1.proposals = s.proposals.set req.proposalId row ∧
      row.decisionState.reconciled = true := by
  unfold reconcileTierC
  cases hs : reconcileState? req.outcome with
  | none => exact .inl ⟨rfl, rfl⟩
  | some state =>
    have hr : state.reconciled = true := by
      unfold reconcileState? at hs
      split_ifs at hs
      all_goals
        cases hs
        rfl
    simp only
    split_ifs with hd
    · exact .inl ⟨rfl, rfl⟩
    cases ho : s.proposals.get? req.proposalId with
    | none => exact .inl ⟨rfl, rfl⟩
    | some row =>
      cases he : s.reconciliations.get? req.proposalId with
      | some existing =>
        simp only
        unfold repeatReconcile
        split_ifs <;> exact .inl ⟨rfl, rfl⟩
      | none =>
        simp only
        split_ifs
        · exact .inl ⟨rfl, rfl⟩
        · exact .inl ⟨rfl, rfl⟩
        · exact .inr ⟨_, _, trivial, rfl, rfl, hr⟩
        · exact .inl ⟨rfl, rfl⟩

theorem reconciliations_perform (s : TierCStore) (now : ℤ) (ho : ∀ req, op ≠ .reconcile req) :
    (s.perform now op).1.reconciliations = s.reconciliations := by
  cases op with
  | create p row =>
    simp only [perform, createTierCProposal]
    split_ifs <;> rfl
  | admitApproval p binding authority ceiling ingress =>
    simp only [perform, admitTierCApproval]
    cases s.proposals.get? p with
    | none => rfl
    | some row =>
      simp only
      split_ifs
      · rfl
      · rfl
      · exact insertIntent_reconciliations ..
      · exact insertIntent_reconciliations ..
      · rfl
      · split
        · rfl
        rename_i s' hc
        unfold claimToken at hc
        split_ifs at hc
        all_goals
          cases hc
          rfl
  | advance p m reason outcomeJson safeDefaultAction =>
    simp only [perform, advanceTierCProposal]
    split_ifs
    · rfl
    cases s.proposals.get? p with
    | none => rfl
    | some row =>
      simp only
      split_ifs
      · exact insertIntent_reconciliations ..
      · rfl
  | ensureIntent p action reason => exact insertIntent_reconciliations ..
  | markIntent p outcome =>
    simp only [perform, markTierCSafeDefaultIntent]
    split <;> rfl
  | reconcile req => exact absurd rfl (ho req)

theorem reconciliation_kept (s : TierCStore) (op : Op) (now : ℤ) {r : Reconciliation}
    (h : s.reconciliations.get? p = some r) :
    (s.perform now op).1.reconciliations.get? p = some r := by
  by_cases ho : ∃ req, op = .reconcile req
  · obtain ⟨req, rfl⟩ := ho
    rcases reconcile_cases s req now with ⟨-, hm⟩ | ⟨record, row, hno, hs, -, -⟩
    · exact (congrArg (fun d => d.get? p) hm).trans h
    have hn : p ≠ req.proposalId := by
      rintro rfl
      rw [hno] at h
      cases h
    exact ((congrArg (fun d => d.get? p) hs).trans (Dict.get?_set_of_ne _ _ hn)).trans h
  · rw [reconciliations_perform s now (fun req hr => ho ⟨req, hr⟩)]
    exact h

/-! ### What every run keeps -/

/-- A proposal's records are its states from `proposed` to the one it is in, each moved to from the
one before; it has a reconciliation exactly in a reconciled state. -/
structure Trailed (s : TierCStore) : Prop where
  absent : ∀ p, s.proposals.get? p = none → s.trail p = [] ∧ s.reconciliations.get? p = none
  head : ∀ p row, s.proposals.get? p = some row → (s.trail p).head? = some .proposed
  last : ∀ p row, s.proposals.get? p = some row → (s.trail p).getLast? = some row.decisionState
  chain : ∀ p, (s.trail p).IsChain (fun a b => b ∈ a.forward)
  reconciled : ∀ p row, s.proposals.get? p = some row →
    ((s.reconciliations.get? p).isSome = true ↔ row.decisionState.reconciled = true)

theorem trailed_empty : ({} : TierCStore).Trailed where
  absent := fun _ _ => ⟨rfl, rfl⟩
  head := fun p row h => by simp at h
  last := fun p row h => by simp at h
  chain := fun _ => .nil
  reconciled := fun p row h => by simp at h

theorem trail_moved {s' : TierCStore} {r r' : Proposal} (hs : s.Trailed)
    (hm : Moved s p r r' s') (hf : r'.decisionState ∈ r.decisionState.forward) :
    (s'.trail p).head? = some .proposed ∧ (s'.trail p).getLast? = some r'.decisionState ∧
      (s'.trail p).IsChain (fun a b => b ∈ a.forward) := by
  obtain ⟨reason, now, hr⟩ := hm.records
  have ht := trail_append hr p
  rw [if_pos rfl] at ht
  rw [ht]
  refine ⟨?_, List.getLast?_concat, ?_⟩
  · rw [List.head?_append, hs.head p r hm.row]
    rfl
  · refine (hs.chain p).append (.singleton _) ?_
    intro x hx y hy
    rw [hs.last p r hm.row] at hx
    cases hx
    cases hy
    exact hf

theorem reconciled_perform (hs : s.Trailed) (op : Op) (now : ℤ) {row' : Proposal}
    (hr' : (s.perform now op).1.proposals.get? p = some row') :
    ((s.perform now op).1.reconciliations.get? p).isSome = true ↔
      row'.decisionState.reconciled = true := by
  by_cases ho : ∃ req, op = .reconcile req
  · obtain ⟨req, rfl⟩ := ho
    change (s.reconcileTierC req now).1.proposals.get? p = some row' at hr'
    change ((s.reconcileTierC req now).1.reconciliations.get? p).isSome = true ↔ _
    rcases reconcile_cases s req now with ⟨hpr, hm⟩ | ⟨record, row, hno, hse, hpr, ht⟩
    · rw [hpr] at hr'
      rw [hm]
      exact hs.reconciled p row' hr'
    · rw [hpr] at hr'
      rw [hse]
      by_cases hp : p = req.proposalId
      · subst hp
        rw [Dict.get?_set_self] at hr'
        cases hr'
        rw [Dict.get?_set_self]
        exact ⟨fun _ => ht, fun _ => rfl⟩
      · rw [Dict.get?_set_of_ne _ _ hp] at hr'
        rw [Dict.get?_set_of_ne _ _ hp]
        exact hs.reconciled p row' hr'
  · have hn : ∀ req, op ≠ .reconcile req := fun req hq => ho ⟨req, hq⟩
    rw [reconciliations_perform s now hn]
    rcases row_of_perform hr' with ⟨row, hr⟩ | ⟨_, -, hno, -, -, ht, -⟩
    · obtain ⟨row'', hr'', -, hstep⟩ := row_perform hr op now
      obtain rfl := mem_unique hr' hr''
      rw [hs.reconciled p row hr]
      cases hstep with
      | kept h => rw [h]
      | approved _ _ _ _ _ ha hb =>
        rw [ha, hb]
        decide
      | moved h =>
        constructor
        · intro he
          rw [not_reconciled_of_forward h.forward] at he
          cases he
        · intro he
          obtain ⟨req, hq⟩ := h.reconciles he
          exact absurd hq (hn req)
    · rw [(hs.absent p hno).2, ht]
      decide

theorem Trailed.perform (hs : s.Trailed) (op : Op) (now : ℤ) : (s.perform now op).1.Trailed := by
  have ha : ∀ p, (s.perform now op).1.proposals.get? p = none →
      s.proposals.get? p = none ∧ (s.perform now op).1.reconciliations.get? p = none := by
    intro p hp
    have hno : s.proposals.get? p = none := by
      cases hr : s.proposals.get? p with
      | none => rfl
      | some row =>
        obtain ⟨row', hr', -⟩ := row_perform hr op now
        rw [hp] at hr'
        cases hr'
    refine ⟨hno, ?_⟩
    by_cases hop : ∃ req, op = .reconcile req
    · obtain ⟨req, rfl⟩ := hop
      change (s.reconcileTierC req now).1.proposals.get? p = none at hp
      change (s.reconcileTierC req now).1.reconciliations.get? p = none
      rcases reconcile_cases s req now with ⟨-, hsm⟩ | ⟨record, row, -, he, hpr, -⟩
      · rw [hsm]
        exact (hs.absent p hno).2
      · rw [hpr, Dict.get?_set] at hp
        split_ifs at hp with hn
        rw [he, Dict.get?_set, if_neg hn]
        exact (hs.absent p hno).2
    · rw [reconciliations_perform s now (fun req hre => hop ⟨req, hre⟩)]
      exact (hs.absent p hno).2
  -- a step that appends at most one record, of the proposal it touches
  have hmo : ∀ {q : String} {r r' : Proposal}, Moved s q r r' (s.perform now op).1 →
      r'.decisionState ∈ r.decisionState.forward → (s.perform now op).1.Trailed := by
    intro q r r' hm hf
    obtain ⟨hh, hl, hc⟩ := trail_moved hs hm hf
    obtain ⟨reason, at_, hrc⟩ := hm.records
    have ho : ∀ p, p ≠ q → (s.perform now op).1.trail p = s.trail p ∧
        (s.perform now op).1.proposals.get? p = s.proposals.get? p := by
      intro p hn
      rw [trail_append hrc p, if_neg (Ne.symm hn), hm.proposals, Dict.get?_set_of_ne _ _ hn]
      exact ⟨rfl, rfl⟩
    have hself : (s.perform now op).1.proposals.get? q = some r' := by
      rw [hm.proposals, Dict.get?_set_self]
    refine ⟨fun p hp => ⟨?_, (ha p hp).2⟩, fun p row hr => ?_, fun p row hr => ?_,
      fun p => ?_, fun p row hr => reconciled_perform hs op now hr⟩
    · have hn : p ≠ q := by
        rintro rfl
        rw [hself] at hp
        cases hp
      rw [(ho p hn).1]
      exact (hs.absent p (ha p hp).1).1
    · by_cases hq : p = q
      · subst hq
        exact hh
      · rw [(ho p hq).1]
        exact hs.head p row ((ho p hq).2 ▸ hr)
    · by_cases hq : p = q
      · subst hq
        obtain rfl := mem_unique hself hr
        exact hl
      · rw [(ho p hq).1]
        exact hs.last p row ((ho p hq).2 ▸ hr)
    · by_cases hq : p = q
      · subst hq
        exact hc
      · rw [(ho p hq).1]
        exact hs.chain p
  obtain ⟨hpr, hrc, -, -⟩ | ⟨q, row, createdAt, -, -, hno, -, hpr, hrc, -⟩ |
    ⟨q, b, au, c, i, r, r', -, -, hm, hst, hs', -⟩ | ⟨q, r, r', hm, hv, -, -⟩ :=
    touched s op now
  · have ht : ∀ p, (s.perform now op).1.trail p = s.trail p := by
      intro p
      unfold trail
      rw [hrc]
    refine ⟨fun p hp => ⟨?_, (ha p hp).2⟩, fun p row hr => ?_, fun p row hr => ?_,
      fun p => ?_, fun p row hr => reconciled_perform hs op now hr⟩
    · rw [ht]
      exact (hs.absent p (ha p hp).1).1
    · rw [ht]
      exact hs.head p row (hpr ▸ hr)
    · rw [ht]
      exact hs.last p row (hpr ▸ hr)
    · rw [ht]
      exact hs.chain p
  · have ht : ∀ p, (s.perform now op).1.trail p = if p = q then [.proposed] else s.trail p := by
      intro p
      rw [trail_append hrc p]
      by_cases hq : q = p
      · subst hq
        rw [if_pos rfl, if_pos rfl, (hs.absent q hno).1]
        rfl
      · rw [if_neg hq, if_neg (Ne.symm hq)]
    refine ⟨fun p hp => ⟨?_, (ha p hp).2⟩, fun p row' hr => ?_, fun p row' hr => ?_,
      fun p => ?_, fun p row hr => reconciled_perform hs op now hr⟩
    · rw [hpr, Dict.get?_set] at hp
      split_ifs at hp with hq
      rw [ht, if_neg hq]
      exact (hs.absent p hp).1
    · rw [hpr, Dict.get?_set] at hr
      rw [ht]
      split_ifs at hr ⊢ with hq
      · rfl
      · exact hs.head p row' hr
    · rw [hpr, Dict.get?_set] at hr
      rw [ht]
      split_ifs at hr ⊢ with hq
      · cases hr
        rfl
      · exact hs.last p row' hr
    · rw [ht]
      split_ifs
      · exact .singleton _
      · exact hs.chain p
  · refine hmo hm ?_
    rw [hst, hs']
    decide
  · exact hmo hm hv.forward

/-! ### The trail of every run -/

def transact (s : TierCStore) (action : Op × ℤ) : Option TierCStore :=
  some (s.perform action.2 action.1).1

theorem trailed_of_run {actions : List (Op × ℤ)} (hr : Execution.run transact {} actions = some s) :
    s.Trailed := by
  have hst : ∀ (s : TierCStore) (action : Op × ℤ) (t : TierCStore), s.Trailed →
      transact s action = some t → t.Trailed := by
    intro s action t hs ht
    cases ht
    exact hs.perform action.1 action.2
  exact Execution.run_invariant hst trailed_empty hr

theorem refused_unchanged {req : ReconcileRequest} {now : ℤ} {e : ReconcileError}
    (h : (s.reconcileTierC req now).2 = .error e) : (s.reconcileTierC req now).1 = s := by
  unfold reconcileTierC at h ⊢
  cases hs : reconcileState? req.outcome with
  | none => rfl
  | some state =>
    rw [hs] at h
    simp only at h ⊢
    split_ifs at h ⊢ with hd
    · rfl
    cases hr : s.proposals.get? req.proposalId with
    | none => rfl
    | some row =>
      rw [hr] at h
      cases he : s.reconciliations.get? req.proposalId with
      | some existing =>
        rw [he] at h
        simp only at h ⊢
        unfold repeatReconcile at h ⊢
        split_ifs at h ⊢ <;> rfl
      | none =>
        rw [he] at h
        simp only at h ⊢
        split_ifs at h ⊢ <;> rfl

/-- Over every run of the store's transactions a proposal's records are a path of the forward order
that ends in its state, and its reconciliation is there exactly in a reconciled state and for good;
a refused reconciliation changes nothing. -/
theorem tier_c_trail {s : TierCStore} {actions : List (Op × ℤ)}
    (hrun : Execution.run transact {} actions = some s) :
    (∀ p row, s.proposals.get? p = some row →
      (s.trail p).head? = some .proposed ∧ (s.trail p).getLast? = some row.decisionState ∧
      (∀ a b l l', s.trail p = l ++ a :: b :: l' → b ∈ a.forward ∧ a.rank < b.rank ∧
        a.terminal = false ∧ (b.reconciled = true → a.uncertain = true)) ∧
      ((s.reconciliations.get? p).isSome = true ↔ row.decisionState.reconciled = true)) ∧
    (∀ req now e, (s.reconcileTierC req now).2 = .error e → (s.reconcileTierC req now).1 = s) ∧
    (∀ req now existing, s.reconciliations.get? req.proposalId = some existing →
      (s.reconcileTierC req now).1.reconciliations = s.reconciliations) ∧
    ∀ op now p record, s.reconciliations.get? p = some record →
      (s.perform now op).1.reconciliations.get? p = some record := by
  have hs := trailed_of_run hrun
  refine ⟨fun p row hrow => ⟨hs.head p row hrow, hs.last p row hrow, fun a b l l' htrail => ?_,
    hs.reconciled p row hrow⟩, fun req now e h => refused_unchanged h, fun req now existing h => ?_,
    fun op now p record h => reconciliation_kept s op now h⟩
  · have hforward := isChain_iff_forall_rel_of_append_cons_cons.mp (hs.chain p) htrail
    exact ⟨hforward, rank_lt_of_forward hforward, not_terminal_of_forward hforward,
      uncertain_of_forward hforward⟩
  · rcases reconcile_cases s req now with ⟨-, hsame⟩ | ⟨record, row, hnone, -⟩
    · exact hsame
    · rw [hnone] at h
      cases h

/-- A valve's proposal, approved, lost in a restart and observed on site. -/
def observedDispatch : List (Op × ℤ) :=
  [(.create "p1" { deviceId := "d1", action := "close_gas_valve", zoneId := "z1"
                   outcome := "open_protected_circuit", createdAtMs := 1, expiresAtMs := 100 }, 1),
    (.admitApproval "p1" "" "" 4 {}, 2), (.advance "p1" .start "" none none, 3),
    (.advance "p1" .recoverUnknown "runtime_restart" none none, 4),
    (.reconcile
      { proposalId := "p1", deviceId := "d1", runtimeDeviceId := "d1", zoneId := "z1"
        outcome := "executed", reason := "site_inspection", note := none, source := "cli"
        entryPoint := "cli", principal := ⟨some 0, none, none⟩ }, 5)]

theorem tier_c_trail_of_observedDispatch : ∃ s, Execution.run transact {} observedDispatch = some s ∧
    s.trail "p1" = [.proposed, .approvedPendingDispatch, .dispatchStarted, .dispatchOutcomeUnknown,
      .reconciledExecuted] ∧ (s.reconciliations.get? "p1").isSome = true := by
  obtain ⟨s, hs, hcheck⟩ : ∃ s, Execution.run transact {} observedDispatch = some s ∧
      (decide (s.trail "p1" = [.proposed, .approvedPendingDispatch, .dispatchStarted,
        .dispatchOutcomeUnknown, .reconciledExecuted]) &&
        (s.proposals.get? "p1").any (fun r => r.decisionState.reconciled)) = true :=
    ⟨_, rfl, by decide +kernel⟩
  obtain ⟨htrail, hrow⟩ := (Bool.and_eq_true _ _ ▸ hcheck)
  obtain ⟨row, hget, hreconciled⟩ := (any_eq_true _ _).mp hrow
  exact ⟨s, hs, of_decide_eq_true htrail,
    (((tier_c_trail hs).1 "p1" row hget).2.2.2).mpr hreconciled⟩

end TierCStore

end OriRuntime
