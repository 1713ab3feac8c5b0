import OriRuntime.TierCStore

/-!
# What one Tier C transaction can do

The moves the dispatcher and its startup recovery ask of the store, and the transactions a run is
made of. A transaction touches one proposal: it creates it, approves it, or makes it one of the moves
of `Moves`.
-/

namespace OriRuntime

open DecisionState

/-- The advances of `action_dispatcher.py`: the closing moves, the dispatch marker, the appended
outcome, and what recovery makes of an approval it finds. -/
inductive Move where
  | reject
  | expire
  | abortRestart
  | expireApproval
  | refuseContention
  | start
  | recordExecuted
  | recordFailed
  | recordUnknown
  | recoverUnproven
  | recoverUnknown
  deriving DecidableEq, Repr

namespace Move

def target : Move → DecisionState
  | reject => .rejected
  | expire => .proposalExpired
  | abortRestart => .proposalAbortedRestart
  | expireApproval => .approvalExpiredUndispatched
  | refuseContention => .dispatchRefusedContention
  | start => .dispatchStarted
  | recordExecuted => .executed
  | recordFailed => .dispatchFailed
  | recordUnknown => .dispatchOutcomeUnknown
  | recoverUnproven => .dispatchNotProven
  | recoverUnknown => .dispatchOutcomeUnknown

def fromStates : Move → List DecisionState
  | reject | expire | abortRestart => [.proposed]
  | expireApproval | refuseContention | start | recoverUnproven => [.approvedPendingDispatch]
  | recordExecuted | recordFailed | recordUnknown => [.approvedPendingDispatch, .dispatchStarted]
  | recoverUnknown => [.dispatchStarted]

end Move

namespace DecisionState

/-- Dispatch began, or a restart could not rule out that it did. -/
def dispatched (s : DecisionState) : Bool :=
  decide (s ∈ [dispatchStarted, executed, dispatchFailed, dispatchOutcomeUnknown, dispatchNotProven,
    reconciledExecuted, reconciledNotExecuted])

def closedUndispatched (s : DecisionState) : Bool :=
  decide (s ∈ [proposalExpired, rejected, approvalExpiredUndispatched, approvalAbortedUndispatched,
    proposalAbortedRestart, approvalBindingChanged, proposalBlockedUncertainOutcome,
    dispatchRefusedContention])

end DecisionState

namespace TierCStore

/-- A transaction. -/
inductive Op where
  | create (proposalId : String) (row : ProposalFields)
  | admitApproval (proposalId bindingDigest authorityJson : String) (ceiling : ℤ) (ingress : Ingress)
  | advance (proposalId : String) (move : Move) (reason : String)
      (outcomeJson safeDefaultAction : Option String)
  | ensureIntent (proposalId action reason : String)
  | markIntent (proposalId : String) (outcome : IntentOutcome)
  | reconcile (req : ReconcileRequest)
  deriving DecidableEq, Repr

inductive Answer where
  | created (c : Creation)
  | admitted (a : ReplyAdmission)
  | moved (b : Bool)
  | intent (o : IntentOutcome)
  | done
  deriving DecidableEq, Repr

/-- A step of a proposal's life other than its creation and its approval, and the transaction that
makes it. -/
inductive Moves (p : String) : Op → DecisionState → DecisionState → Prop
  | advanced (m : Move) (reason : String) (outcomeJson safeDefaultAction : Option String)
      (a : DecisionState) (h : a ∈ m.fromStates) :
      Moves p (.advance p m reason outcomeJson safeDefaultAction) a m.target
  | bindingChanged (binding authority : String) (ceiling : ℤ) (ingress : Ingress) :
      Moves p (.admitApproval p binding authority ceiling ingress) .proposed .approvalBindingChanged
  | blocked (binding authority : String) (ceiling : ℤ) (ingress : Ingress) :
      Moves p (.admitApproval p binding authority ceiling ingress) .proposed .proposalBlockedUncertainOutcome
  | reconciled (req : ReconcileRequest) (hreq : req.proposalId = p) (a b : DecisionState)
      (ha : a.uncertain = true) (hb : b ∈ [.reconciledExecuted, .reconciledNotExecuted]) :
      Moves p (.reconcile req) a b

variable {op : Op} {p : String} {r r' : Proposal} {s : TierCStore} {now : ℤ}

theorem Moves.blocks {a b : DecisionState} (h : Moves p op a b) (hb : b.blocks = true) :
    a.blocks = true := by
  cases h with
  | advanced m _ _ _ _ ha => cases m <;> simp_all [Move.fromStates, Move.target,
      DecisionState.blocks, inFlight, uncertain]
  | bindingChanged | blocked => simp [DecisionState.blocks, inFlight, uncertain] at hb
  | reconciled _ _ _ _ ha _ => simp [DecisionState.blocks, ha]

theorem Moves.inFlight {a b : DecisionState} (h : Moves p op a b) (hb : b.inFlight = true) :
    a.inFlight = true := by
  cases h with
  | advanced m _ _ _ _ ha => cases m <;> simp_all [Move.fromStates, Move.target,
      DecisionState.inFlight]
  | bindingChanged | blocked => simp [DecisionState.inFlight] at hb
  | reconciled _ _ _ _ _ hm =>
    simp only [List.mem_cons, List.not_mem_nil, or_false] at hm
    obtain rfl | rfl := hm <;> simp [DecisionState.inFlight] at hb

def perform (s : TierCStore) (now : ℤ) : Op → TierCStore × Answer
  | .create p row =>
    let r := s.createTierCProposal p row now
    (r.1, .created r.2)
  | .admitApproval p binding authority ceiling ingress =>
    let r := s.admitTierCApproval p binding authority ceiling ingress now
    (r.1, .admitted r.2)
  | .advance p m reason outcomeJson safeDefaultAction =>
    let r := s.advanceTierCProposal p m.target m.fromStates reason outcomeJson safeDefaultAction now
    (r.1, .moved r.2)
  | .ensureIntent p action reason =>
    let r := s.ensureTierCSafeDefaultIntent p action reason now
    (r.1, .intent r.2)
  | .markIntent p outcome => (s.markTierCSafeDefaultIntent p outcome now, .done)
  | .reconcile req => ((s.reconcileTierC req now).1, .done)

/-! ### The proposals after a transaction -/

theorem insertIntent_proposals (s : TierCStore) (p action reason : String) (now : ℤ) :
    (s.insertIntent p action reason now).1.proposals = s.proposals ∧
      (s.insertIntent p action reason now).1.records = s.records := by
  unfold insertIntent
  split_ifs <;> exact ⟨rfl, rfl⟩

/-- A proposal in another state, with its record. -/
structure Moved (s : TierCStore) (p : String) (r r' : Proposal) (s' : TierCStore) : Prop where
  row : s.proposals.get? p = some r
  fields : r'.toProposalFields = r.toProposalFields
  proposals : s'.proposals = s.proposals.set p r'
  records : ∃ reason now, s'.records = s.records ++ [⟨p, r'.decisionState, reason, now⟩]

/-- What a transaction does to the proposals. -/
inductive Touched (s : TierCStore) (op : Op) (s' : TierCStore) (a : Answer) : Prop
  | same (hproposals : s'.proposals = s.proposals) (hrecords : s'.records = s.records)
      (hcreated : a ≠ .created .committed) (hadmitted : a ≠ .admitted .committed)
  | created (p : String) (row : ProposalFields) (now : ℤ) (hop : op = .create p row)
      (hanswer : a = .created .committed) (hnone : s.proposals.get? p = none)
      (hfree : s.outcomeBlocked row.zoneId row.outcome none false = false)
      (hproposals : s'.proposals = s.proposals.set p
        { row with decisionState := .proposed, updatedAtMs := now })
      (hrecords : s'.records = s.records ++ [⟨p, .proposed, "", now⟩])
      (hintents : s'.intents = s.intents)
  | approved (p binding authority : String) (ceiling : ℤ) (ingress : Ingress) (r r' : Proposal)
      (hop : op = .admitApproval p binding authority ceiling ingress)
      (hanswer : a = .admitted .committed) (hmoved : Moved s p r r' s')
      (hstate : r.decisionState = .proposed) (hstate' : r'.decisionState = .approvedPendingDispatch)
      (hbinding : r.bindingDigest = binding) (hauthority : r.authorityJson = authority)
      (hfree : s.outcomeBlocked r.zoneId r.outcome (some p) true = false)
      (hceiling : s.reserved < ceiling) (hintents : s'.intents = s.intents)
  | moved (p : String) (r r' : Proposal) (hmoved : Moved s p r r' s')
      (hmoves : Moves p op r.decisionState r'.decisionState) (hcreated : a ≠ .created .committed)
      (hadmitted : a ≠ .admitted .committed)

theorem moved_setState (hr : s.proposals.get? p = some r) (state : DecisionState) (reason : String)
    (outcomeJson : Option String) (now : ℤ) :
    ∃ r', r'.decisionState = state ∧ Moved s p r r' (s.setState p r state reason outcomeJson now) := by
  refine ⟨{ r with
    decisionState := state
    stateReason := reason
    outcomeJson := outcomeJson.or r.outcomeJson
    updatedAtMs := now }, rfl, hr, rfl, rfl, reason, now, rfl⟩

theorem Moved.congr {s' s'' : TierCStore} (h : Moved s p r r' s')
    (hp : s''.proposals = s'.proposals) (hr : s''.records = s'.records) :
    Moved s p r r' s'' := by
  obtain ⟨reason, now, he⟩ := h.records
  exact ⟨h.row, h.fields, hp.trans h.proposals, reason, now, hr.trans he⟩

theorem moved_refuseReply (hr : s.proposals.get? p = some r) (state : DecisionState) (now : ℤ) :
    ∃ r', r'.decisionState = state ∧ Moved s p r r' (s.refuseReply p r state now) := by
  obtain ⟨r', hs, hm⟩ := moved_setState hr state "" none now
  obtain ⟨hp, hc⟩ := insertIntent_proposals (s.setState p r state "" none now) p
    r.safeDefaultAction state.text now
  exact ⟨r', hs, hm.congr hp hc⟩

theorem moved_approve {s₁ : TierCStore} (hr : s.proposals.get? p = some r) (ingress : Ingress)
    (now : ℤ) (hp : s₁.proposals = s.proposals) (hc : s₁.records = s.records) :
    ∃ r', r'.decisionState = .approvedPendingDispatch ∧
      Moved s p r r' (s₁.approve p r ingress now) := by
  refine ⟨{ r with
    decisionState := .approvedPendingDispatch
    stateReason := ""
    ingressChannel := ingress.channel
    ingressFrom := ingress.sender
    ingressMessageId := ingress.messageId
    operatorResponse := ingress.operatorResponse
    offlineTokenId := ingress.offlineTokenId
    committedAtMs := some now
    updatedAtMs := now }, rfl, hr, rfl, ?_, "", now, ?_⟩
  · rw [← hp]
    rfl
  · rw [← hc]
    rfl

theorem touched_create (s : TierCStore) (p : String) (row : ProposalFields) (now : ℤ) :
    Touched s (.create p row) (s.perform now (.create p row)).1
      (s.perform now (.create p row)).2 := by
  simp only [perform, createTierCProposal]
  split_ifs with hb hd
  · exact .same rfl rfl (by simp) (by simp)
  · exact .same rfl rfl (by simp) (by simp)
  · refine .created p row now rfl rfl ?_ (by simpa using hb) rfl rfl rfl
    simpa using hd

theorem claimToken_eq_some {s' : TierCStore} {tokenId : String}
    (h : s.claimToken tokenId r now = some s') :
    s'.proposals = s.proposals ∧ s'.records = s.records ∧ s'.intents = s.intents := by
  unfold claimToken at h
  split_ifs at h <;> cases h <;> exact ⟨rfl, rfl, rfl⟩

theorem touched_admit (s : TierCStore) (p binding authority : String) (ceiling : ℤ)
    (ingress : Ingress) (now : ℤ) : Touched s (.admitApproval p binding authority ceiling ingress)
      (s.perform now (.admitApproval p binding authority ceiling ingress)).1
      (s.perform now (.admitApproval p binding authority ceiling ingress)).2 := by
  simp only [perform, admitTierCApproval]
  cases hr : s.proposals.get? p with
  | none => exact .same rfl rfl (by simp) (by simp)
  | some r =>
    simp only
    split_ifs with hs ha hb hl hca
    · exact .same rfl rfl (by simp) (by simp)
    · exact .same rfl rfl (by simp) (by simp)
    · obtain ⟨r', hs', hm⟩ := moved_refuseReply hr .approvalBindingChanged now
      refine .moved p r r' hm ?_ (by simp) (by simp)
      rw [hs', not_not.mp hs]
      exact .bindingChanged _ _ _ _
    · obtain ⟨r', hs', hm⟩ := moved_refuseReply hr .proposalBlockedUncertainOutcome now
      refine .moved p r r' hm ?_ (by simp) (by simp)
      rw [hs', not_not.mp hs]
      exact .blocked _ _ _ _
    · exact .same rfl rfl (by simp) (by simp)
    · split
      · exact .same rfl rfl (by simp) (by simp)
      rename_i s' hc
      obtain ⟨hp, hrc, hi⟩ := claimToken_eq_some hc
      simp only [not_or, not_not] at hb
      obtain ⟨r', hs', hm⟩ := moved_approve hr ingress now hp hrc
      exact .approved p binding authority ceiling ingress r r' rfl rfl hm (not_not.mp hs)
        hs' hb.1 hb.2 (by simpa using hl) (by omega) hi

theorem touched_advance (s : TierCStore) (p : String) (m : Move) (reason : String)
    (outcomeJson safeDefaultAction : Option String) (now : ℤ) :
    Touched s (.advance p m reason outcomeJson safeDefaultAction)
      (s.perform now (.advance p m reason outcomeJson safeDefaultAction)).1
      (s.perform now (.advance p m reason outcomeJson safeDefaultAction)).2 := by
  have ht : m.target ≠ .proposed := by cases m <;> simp [Move.target]
  simp only [perform, advanceTierCProposal, if_neg ht]
  cases hr : s.proposals.get? p with
  | none => exact .same rfl rfl (by simp) (by simp)
  | some r =>
    simp only
    split_ifs with hfrom
    · obtain ⟨r', hs', hm⟩ := moved_setState hr m.target reason outcomeJson now
      obtain ⟨hp, hc⟩ := insertIntent_proposals
        (s.setState p r m.target reason outcomeJson now) p (safeDefaultAction.getD "") reason now
      refine .moved p r r' (hm.congr hp hc) ?_ (by simp) (by simp)
      rw [hs']
      exact .advanced m _ _ _ _ hfrom
    · exact .same rfl rfl (by simp) (by simp)

theorem touched_reconcile (s : TierCStore) (req : ReconcileRequest) (now : ℤ) :
    Touched s (.reconcile req) (s.perform now (.reconcile req)).1
      (s.perform now (.reconcile req)).2 := by
  have hs : ∀ s' : TierCStore, s'.proposals = s.proposals → s'.records = s.records →
      Touched s (.reconcile req) s' .done := fun s' hp hr => .same hp hr (by simp) (by simp)
  simp only [perform, reconcileTierC]
  split
  · exact hs _ rfl rfl
  rename_i state ht
  split
  · exact hs _ rfl rfl
  split
  · exact hs _ rfl rfl
  rename_i r hr
  split
  · exact hs _ rfl rfl
  split
  · exact hs _ rfl rfl
  split
  · simp only [repeatReconcile]
    split_ifs <;> exact hs _ rfl rfl
  · split
    · rename_i hu
      obtain ⟨r', hs', hm⟩ := moved_setState hr state req.source none now
      refine .moved req.proposalId r r' (hm.congr rfl rfl) ?_ (by simp) (by simp)
      rw [hs']
      refine .reconciled req rfl _ _ hu ?_
      unfold reconcileState? at ht
      split_ifs at ht <;> cases ht <;> simp
    · exact hs _ rfl rfl

theorem touched (s : TierCStore) (op : Op) (now : ℤ) :
    Touched s op (s.perform now op).1 (s.perform now op).2 := by
  cases op with
  | create p row => exact touched_create s p row now
  | admitApproval p binding authority ceiling ingress => exact touched_admit s p binding authority ceiling _ now
  | advance p m reason outcomeJson sd => exact touched_advance s p m reason outcomeJson sd now
  | ensureIntent p action reason =>
    obtain ⟨hp, hr⟩ := insertIntent_proposals s p action reason now
    exact .same hp hr (by simp [perform]) (by simp [perform])
  | markIntent p outcome =>
    refine .same ?_ ?_ (by simp [perform]) (by simp [perform])
    all_goals
      simp only [perform, markTierCSafeDefaultIntent]
      split <;> rfl
  | reconcile req => exact touched_reconcile s req now

theorem row_of_moved {m : Move} {reason : String} {json sd : Option String}
    (h : (s.perform now (.advance p m reason json sd)).2 = .moved true) :
    ∃ r', (s.perform now (.advance p m reason json sd)).1.proposals.get? p = some r' ∧
      r'.decisionState = m.target := by
  simp only [perform, advanceTierCProposal] at h ⊢
  split at h
  · simp at h
  split at h
  · simp at h
  rename_i ht _ r hr
  split at h
  · rename_i hfrom
    obtain ⟨r', hs, hm⟩ := moved_setState hr m.target reason json now
    refine ⟨r', ?_, hs⟩
    simp only [if_neg ht, if_pos hfrom]
    rw [(insertIntent_proposals _ _ _ _ _).1, hm.proposals, Dict.get?_set_self]
  · simp at h

theorem created_of_answer (h : (s.perform now op).2 = .created .committed) :
    ∃ p row r, op = .create p row ∧ s.proposals.get? p = none ∧
      (s.perform now op).1.proposals.get? p = some r ∧ r.toProposalFields = row ∧
        r.decisionState = .proposed := by
  obtain ⟨-, -, hn, -⟩ | ⟨p, row, createdAt, ho, -, hno, -, hp, -, -⟩ |
    ⟨p, b, a, c, i, r, r', -, hansr, -⟩ | ⟨p, r, r', -, -, hn, -⟩ := touched s op now
  · exact absurd h hn
  · exact ⟨p, row, _, ho, hno, by rw [hp, Dict.get?_set_self], rfl, rfl⟩
  · simp [hansr] at h
  · exact absurd h hn

theorem approved_of_answer (h : (s.perform now op).2 = .admitted .committed) :
    ∃ p b a c i r r', op = .admitApproval p b a c i ∧ s.proposals.get? p = some r ∧
      r.decisionState = .proposed ∧ (s.perform now op).1.proposals.get? p = some r' ∧
      r'.decisionState = .approvedPendingDispatch ∧ r'.bindingDigest = b ∧ r'.authorityJson = a := by
  obtain ⟨-, -, -, hn⟩ | ⟨p, row, createdAt, ho, hansr, -⟩ |
    ⟨p, b, a, c, i, r, r', ho, -, hm, hs, hs', hb, ha, -⟩ |
    ⟨p, r, r', -, -, -, hn⟩ := touched s op now
  · exact absurd h hn
  · simp [hansr] at h
  · refine ⟨p, b, a, c, i, r, r', ho, hm.row, hs, ?_, hs', ?_, ?_⟩
    · rw [hm.proposals, Dict.get?_set_self]
    · rw [← hb, ← congrArg ProposalFields.bindingDigest hm.fields]
    · rw [← ha, ← congrArg ProposalFields.authorityJson hm.fields]
  · exact absurd h hn

/-! ### One proposal across a transaction -/

/-- What a transaction does to the state of an existing proposal. -/
inductive RowStep (p : String) (op : Op) (a b : DecisionState) : Prop
  | kept (h : b = a)
  | approved (binding authority : String) (ceiling : ℤ) (ingress : Ingress)
      (hop : op = .admitApproval p binding authority ceiling ingress) (ha : a = .proposed)
      (hb : b = .approvedPendingDispatch)
  | moved (h : Moves p op a b)

theorem row_perform (hr : s.proposals.get? p = some r) (op : Op) (now : ℤ) :
    ∃ r', (s.perform now op).1.proposals.get? p = some r' ∧
      r'.toProposalFields = r.toProposalFields ∧ RowStep p op r.decisionState r'.decisionState := by
  have hs : ∀ {s' : TierCStore} {q : String} {u u' : Proposal}, Moved s q u u' s' →
      (q = p → RowStep p op u.decisionState u'.decisionState) →
      ∃ r', s'.proposals.get? p = some r' ∧ r'.toProposalFields = r.toProposalFields ∧
        RowStep p op r.decisionState r'.decisionState := by
    intro s' q u u' hm hstep
    rw [hm.proposals]
    by_cases hq : q = p
    · subst hq
      obtain rfl := Option.mem_unique hr hm.row
      exact ⟨u', Dict.get?_set_self _ _ _, hm.fields, hstep rfl⟩
    · exact ⟨r, by rw [Dict.get?_set_of_ne _ _ (Ne.symm hq), hr], rfl, .kept rfl⟩
  obtain ⟨hp, -, -, -⟩ | ⟨q, row, createdAt, -, -, hno, -, hp, -, -⟩ |
    ⟨q, b, au, c, i, u, u', hop, -, hm, ht, hs', -, -, -, -, -⟩ |
    ⟨q, u, u', hm, ho, -, -⟩ := touched s op now
  · exact ⟨r, by rw [hp, hr], rfl, .kept rfl⟩
  · have hn : p ≠ q := by
      rintro rfl
      simp [hr] at hno
    exact ⟨r, by rw [hp, Dict.get?_set_of_ne _ _ hn, hr], rfl, .kept rfl⟩
  · refine hs hm ?_
    rintro rfl
    exact .approved b au c i hop ht hs'
  · refine hs hm ?_
    rintro rfl
    exact .moved ho

theorem row_of_perform (hr' : (s.perform now op).1.proposals.get? p = some r') :
    (∃ r, s.proposals.get? p = some r) ∨ (∃ row, op = .create p row ∧
      s.proposals.get? p = none ∧ (s.perform now op).2 = .created .committed ∧
      r'.toProposalFields = row ∧ r'.decisionState = .proposed ∧
      (s.perform now op).1.intents = s.intents) := by
  cases hr : s.proposals.get? p with
  | some r => exact .inl ⟨r, rfl⟩
  | none =>
    have hs : ∀ {q : String} {u u' : Proposal}, Moved s q u u' (s.perform now op).1 → False := by
      intro q u u' hm
      have hro := hm.row
      have hn : p ≠ q := by
        rintro rfl
        simp [hr] at hro
      rw [hm.proposals, Dict.get?_set_of_ne _ _ hn, hr] at hr'
      simp at hr'
    obtain ⟨hp, -, -, -⟩ | ⟨q, row, createdAt, ho, hansr, hno, -, hp, -, hi⟩ |
      ⟨q, b, au, c, i, u, u', -, -, hm, -⟩ | ⟨q, u, u', hm, -⟩ := touched s op now
    · rw [hp, hr] at hr'
      simp at hr'
    · rw [hp, Dict.get?_set] at hr'
      split_ifs at hr' with hq
      · subst hq
        cases hr'
        exact .inr ⟨row, ho, rfl, hansr, rfl, rfl, hi⟩
      · simp [hr] at hr'
    all_goals exact (hs hm).elim

theorem records_perform {rec : ProposalRecord} (hr : rec ∈ (s.perform now op).1.records) :
    rec ∈ s.records ∨ ∃ r', (s.perform now op).1.proposals.get? rec.proposalId = some r' ∧
        r'.decisionState = rec.decisionState := by
  have hs : ∀ {q : String} {u u' : Proposal}, Moved s q u u' (s.perform now op).1 →
      rec ∈ s.records ∨ ∃ r', (s.perform now op).1.proposals.get? rec.proposalId = some r' ∧
        r'.decisionState = rec.decisionState := by
    intro q u u' hm
    obtain ⟨reason, recordedAt, hc⟩ := hm.records
    rw [hc, List.mem_append, List.mem_singleton] at hr
    obtain hr | rfl := hr
    · exact .inl hr
    · exact .inr ⟨u', by rw [hm.proposals, Dict.get?_set_self], rfl⟩
  obtain ⟨-, hc, -, -⟩ | ⟨q, row, createdAt, -, -, -, -, hp, hc, -⟩ |
    ⟨q, b, au, c, i, u, u', -, -, hm, -⟩ | ⟨q, u, u', hm, -⟩ := touched s op now
  · exact .inl (hc ▸ hr)
  · rw [hc, List.mem_append, List.mem_singleton] at hr
    obtain hr | rfl := hr
    · exact .inl hr
    · exact .inr ⟨_, by rw [hp, Dict.get?_set_self], rfl⟩
  all_goals exact hs hm

/-! ### One intent across a transaction -/

theorem get?_insertIntent (s : TierCStore) (p action reason : String) (now : ℤ) (q : String) :
    (s.insertIntent p action reason now).1.intents.get? q =
      if q = p ∧ action ≠ "" ∧ s.intents.get? p = none then
        some ⟨action, reason, .pending, now, now⟩
      else s.intents.get? q := by
  unfold insertIntent
  by_cases ha : action = ""
  · simp [ha]
  cases hi : s.intents.get? p with
  | some i => simp [ha]
  | none =>
    simp only [ha, Option.isSome_none, Bool.false_eq_true, or_self, if_false, Dict.get?_set]
    split_ifs with hq hboth hboth
    · rfl
    · exact absurd ⟨hq, ha, trivial⟩ hboth
    · exact absurd hboth.1 hq
    · rfl

/-- What a transaction does to a proposal's intent. -/
inductive IntentStep (s : TierCStore) (p : String) (op : Op) (s' : TierCStore) : Prop
  | kept (h : s'.intents.get? p = s.intents.get? p)
  | ensured (action reason : String) (hop : op = .ensureIntent p action reason)
      (hnone : s.intents.get? p = none) (i : SafeDefaultIntent) (hi : s'.intents.get? p = some i)
      (hpending : i.outcome = .pending)
  | closed (hnone : s.intents.get? p = none) (i : SafeDefaultIntent)
      (hi : s'.intents.get? p = some i) (hpending : i.outcome = .pending) (a b : DecisionState)
      (hmoves : Moves p op a b) (r' : Proposal) (hr' : s'.proposals.get? p = some r')
      (hstate : r'.decisionState = b)
      (hop : ∀ m reason json sd, op = .advance p m reason json sd → sd.getD "" ≠ "")
      (hreq : ∀ req, op ≠ .reconcile req)
  | marked (o : IntentOutcome) (hop : op = .markIntent p o) (i i' : SafeDefaultIntent)
      (hi : s.intents.get? p = some i) (hi' : s'.intents.get? p = some i')

theorem intent_refuseReply {q : String} (hr : s.proposals.get? q = some r) (state : DecisionState)
    (now : ℤ) (p : String) (hm : Moves q op r.decisionState state)
    (ho : ∀ m reason json sd, op ≠ .advance q m reason json sd) (he : ∀ req, op ≠ .reconcile req) :
    IntentStep s p op (s.refuseReply q r state now) := by
  have hg := get?_insertIntent (s.setState q r state "" none now) q r.safeDefaultAction state.text
    now p
  by_cases hcond : p = q ∧ r.safeDefaultAction ≠ "" ∧ s.intents.get? q = none
  · obtain ⟨hp, -, hn⟩ := id hcond
    subst hp
    obtain ⟨r', hs, hv⟩ := moved_refuseReply hr state now
    refine .closed hn _ (hg.trans (if_pos hcond)) rfl _ _ hm r' ?_ hs ?_ he
    · rw [hv.proposals, Dict.get?_set_self]
    · intro m reason json sd heq
      exact absurd heq (ho m reason json sd)
  · exact .kept (hg.trans (if_neg hcond))

theorem intent_perform (s : TierCStore) (op : Op) (now : ℤ) (p : String) :
    IntentStep s p op (s.perform now op).1 := by
  cases op with
  | create q row =>
    refine .kept ?_
    simp only [perform, createTierCProposal]
    split_ifs <;> rfl
  | admitApproval q binding authority ceiling ingress =>
    simp only [perform, admitTierCApproval]
    split
    · exact .kept rfl
    rename_i r hr
    split
    · exact .kept rfl
    rename_i hs
    have hp : r.decisionState = .proposed := by simpa using hs
    split
    · refine intent_refuseReply hr _ now p ?_ (by simp) (by simp)
      rw [hp]
      exact .bindingChanged _ _ _ _
    · split
      · refine intent_refuseReply hr _ now p ?_ (by simp) (by simp)
        rw [hp]
        exact .blocked _ _ _ _
      · split
        · exact .kept rfl
        split
        · exact .kept rfl
        rename_i s' hc
        obtain ⟨-, -, hin⟩ := claimToken_eq_some hc
        exact .kept (by rw [← hin]; rfl)
  | advance q m reason json sd =>
    simp only [perform, advanceTierCProposal]
    split
    · exact .kept rfl
    split
    · exact .kept rfl
    rename_i r hr
    split
    · rename_i hfrom
      have hg := get?_insertIntent (s.setState q r m.target reason json now) q (sd.getD "")
        reason now p
      by_cases hcond : p = q ∧ sd.getD "" ≠ "" ∧ s.intents.get? q = none
      · obtain ⟨hpq, hd, hn⟩ := id hcond
        subst hpq
        obtain ⟨r', hs, hm⟩ := moved_setState hr m.target reason json now
        refine .closed hn _ (hg.trans (if_pos hcond)) rfl _ _
          (.advanced m reason json sd _ hfrom) r' ?_ hs ?_ (by simp)
        · rw [(insertIntent_proposals _ _ _ _ _).1, hm.proposals, Dict.get?_set_self]
        · intro m' reason' json' sd' heq
          cases heq
          exact hd
      · exact .kept (hg.trans (if_neg hcond))
    · exact .kept rfl
  | ensureIntent q action reason =>
    have hg := get?_insertIntent s q action reason now p
    by_cases hcond : p = q ∧ action ≠ "" ∧ s.intents.get? q = none
    · obtain ⟨hpq, -, hn⟩ := id hcond
      subst hpq
      exact .ensured action reason rfl hn _ (hg.trans (if_pos hcond)) rfl
    · exact .kept (hg.trans (if_neg hcond))
  | markIntent q o =>
    simp only [perform, markTierCSafeDefaultIntent]
    split
    · exact .kept rfl
    rename_i i hi
    by_cases hq : p = q
    · subst hq
      exact .marked o rfl i _ hi (Dict.get?_set_self _ _ _)
    · exact .kept (Dict.get?_set_of_ne _ _ hq)
  | reconcile req =>
    refine .kept ?_
    simp only [perform, reconcileTierC]
    split
    · rfl
    split
    · rfl
    split
    · rfl
    split
    · rfl
    split
    · rfl
    split
    · simp only [repeatReconcile]
      split_ifs <;> rfl
    · split <;> rfl

theorem isSome_insertIntent (s : TierCStore) {action : String} (ha : action ≠ "")
    (reason : String) (now : ℤ) :
    ((s.insertIntent p action reason now).1.intents.get? p).isSome = true := by
  rw [get?_insertIntent]
  split_ifs with hcond
  · rfl
  cases hi : s.intents.get? p with
  | some i => rfl
  | none => exact absurd ⟨rfl, ha, hi⟩ hcond

theorem admit_cases (hr : s.proposals.get? p = some r) (hp : r.decisionState = .proposed)
    (binding authority : String) (ceiling : ℤ) (ingress : Ingress) (now : ℤ) :
    (∃ state, (s.admitTierCApproval p binding authority ceiling ingress now).1 =
      s.refuseReply p r state now) ∨
    (s.admitTierCApproval p binding authority ceiling ingress now).1 = s ∨
    ∃ s' : TierCStore, (s.admitTierCApproval p binding authority ceiling ingress now).1 =
      s'.approve p r ingress now := by
  simp only [admitTierCApproval, hr, hp, ne_eq, not_true_eq_false, if_false]
  split_ifs
  · exact .inl ⟨_, rfl⟩
  · exact .inl ⟨_, rfl⟩
  · exact .inr (.inl rfl)
  · split
    · exact .inr (.inl rfl)
    · exact .inr (.inr ⟨_, rfl⟩)

theorem intent_of_closed (hr : s.proposals.get? p = some r)
    (hr' : (s.perform now op).1.proposals.get? p = some r')
    (hopen : r.decisionState.closedUndispatched = false)
    (hc : r'.decisionState.closedUndispatched = true) (hd : r.safeDefaultAction ≠ "")
    (hop : ∀ m reason json sd, op = .advance p m reason json sd → sd.getD "" ≠ "") :
    ((s.perform now op).1.intents.get? p).isSome = true := by
  obtain ⟨r'', hr'', -, hs⟩ := row_perform hr op now
  obtain rfl := Option.mem_unique hr' hr''
  have hm : Moves p op r.decisionState r'.decisionState := by
    obtain hk | ⟨_, _, _, _, -, -, hap⟩ | hm := hs
    · rw [hk, hopen] at hc
      simp at hc
    · simp [hap, closedUndispatched] at hc
    · exact hm
  have had : ∀ binding authority ceiling ingress, r.decisionState = .proposed →
      (s.admitTierCApproval p binding authority ceiling ingress now).1.proposals.get? p = some r' →
      ((s.admitTierCApproval p binding authority ceiling ingress now).1.intents.get? p).isSome =
        true := by
    intro binding authority ceiling ingress hp ho
    obtain ⟨state, heq⟩ | heq | ⟨s', heq⟩ := admit_cases hr hp binding authority ceiling ingress now
    · rw [heq]
      exact isSome_insertIntent _ hd _ _
    · rw [heq, hr] at ho
      cases ho
      simp [hopen] at hc
    · rw [heq] at ho
      simp only [approve, appendRecord, Dict.get?_set_self, Option.some.injEq] at ho
      rw [← ho] at hc
      simp [closedUndispatched] at hc
  generalize hb : r'.decisionState = b at hm hc
  generalize ha : r.decisionState = a at hm hopen
  cases hm with
  | advanced m reason json sd _ hfrom =>
    have ht : m.target ≠ .proposed := by cases m <;> simp [Move.target]
    simp only [perform, advanceTierCProposal, if_neg ht, hr, ha, if_pos hfrom]
    exact isSome_insertIntent _ (hop m reason json sd rfl) _ _
  | bindingChanged binding authority ceiling ingress
  | blocked binding authority ceiling ingress =>
    exact had binding authority ceiling ingress ha hr'
  | reconciled req _ _ _ _ hb =>
    simp only [List.mem_cons, List.not_mem_nil, or_false] at hb
    obtain rfl | rfl := hb <;> simp [closedUndispatched] at hc

end TierCStore

end OriRuntime
