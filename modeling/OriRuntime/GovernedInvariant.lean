import OriRuntime.Execution
import OriRuntime.GovernedSteps

/-!
# What the governed workflow keeps

`Sound` ties the store to the coroutines around it. The one notion it rests on is `Barred`: the
executor of a barred proposal was never entered and never will be. Intents and safe defaults exist for
barred proposals alone.
-/

namespace OriRuntime

open List Option

open TierCStore (Op Answer Moves RowStep)

namespace Governed

def Entered (s : Governed) (p : String) : Prop := .entered p ∈ s.trace

def Defaulted (s : Governed) (p : String) : Prop := .safeDefault p ∈ s.trace

/-- An attempt at the safe default ended. -/
def Reported (s : Governed) (p : String) : Prop := .reported p ∈ s.trace

/-- No act of the proposal has begun, and no workflow can begin one any more. -/
structure Barred (s : Governed) (p : String) : Prop where
  row : ∃ r, s.store.proposals.get? p = some r
  unentered : ¬ s.Entered p
  flows : ∀ n j, s.jobs (.flow n) = some j → j.proposalId = p →
    j.phase ≠ .approved ∧ (j.phase = .listening → s.held p ≠ some .proposed)

def Undispatched (s : Governed) (p : String) : Prop :=
  ∃ r, s.store.proposals.get? p = some r ∧ r.decisionState.dispatched = false

def Closed (s : Governed) (p : String) : Prop :=
  ∃ r, s.store.proposals.get? p = some r ∧ r.decisionState.closedUndispatched = true

/-- A proposal whose safe-default intent may be made sure of. -/
structure Ensurable (s : Governed) (p : String) : Prop where
  barred : s.Barred p
  state : s.Closed p ∨ (s.store.intents.get? p).isSome = true ∨
    (s.recovery = .done ∧ s.Undispatched p)

/-- A close carries the safe default its proposal has. -/
def CarriesDefault (s : Governed) (p : String) (safeDefaultAction : Option String) : Prop :=
  safeDefaultAction.getD "" ≠ "" ∨ ∃ r, s.store.proposals.get? p = some r ∧ r.safeDefaultAction = ""

/-- What holds when a coroutine asks the store for a transaction, and until it lands. -/
def OpOk (s : Governed) : Op → Prop
  | .advance p m _ _ sd =>
    match m with
    | .reject | .expire | .abortRestart => s.CarriesDefault p sd
    | .expireApproval | .refuseContention => s.CarriesDefault p sd ∧ s.Barred p
    | .start | .recordExecuted | .recordFailed | .recordUnknown => sd = none ∧ s.Entered p
    | .recoverUnproven | .recoverUnknown => False
  | .ensureIntent p _ _ => s.Ensurable p
  | .markIntent p _ => s.Reported p
  | _ => True

def Recovers (s : Governed) (op : Op) : Prop :=
  ∃ p m, op = .advance p m "runtime_restart" none none ∧
    (m = .recoverUnproven ∨ m = .recoverUnknown) ∧ s.recovery ≠ .done

/-- The proposal of a workflow past its creation. -/
structure Owned (s : Governed) (j : Job) : Prop where
  row : ∃ r, s.store.proposals.get? j.proposalId = some r ∧ r.safeDefaultAction = j.safeDefault
  unentered : ¬ s.Entered j.proposalId
  undispatched : s.Undispatched j.proposalId

/-- Its reply was admitted under these bytes. -/
def Licensed (s : Governed) (p binding authority : String) : Prop :=
  ∃ r, s.store.proposals.get? p = some r ∧ r.decisionState = .approvedPendingDispatch ∧
    r.bindingDigest = binding ∧ r.authorityJson = authority

def FlowOk (s : Governed) (j : Job) : Prop :=
  match j.stage with
  | .creating row _ => j.safeDefault = row.safeDefaultAction ∧
      (j.landed = some (.created .committed) → s.Owned j)
  | .listening => s.Owned j
  | .admitting b a _ => s.Owned j ∧
      (j.landed = some (.admitted .committed) → s.Licensed j.proposalId b a)
  | .admitted => s.Owned j ∧ ∃ b a, s.Licensed j.proposalId b a ∧
      .committed j.proposalId b a ∈ s.trace
  | .closing m _ _ _ | .holding m _ _ _ => m.closes = true ∧ s.Owned j ∧ s.Barred j.proposalId
  | .ensuring _ => s.Owned j ∧ s.Barred j.proposalId
  | .defaulting => s.Defaulted j.proposalId
  | .marking _ => s.Defaulted j.proposalId ∧ s.Reported j.proposalId
  | .acting => s.Entered j.proposalId
  | .starting | .appending _ _ | .settling _ => False

def TaskOk (s : Governed) (j : Job) : Prop :=
  (j.stage = .starting ∨ ∃ m json, j.stage = .appending m json ∧ m.records = true) ∧
    s.Entered j.proposalId

def PassOk (s : Governed) (j : Job) : Prop :=
  match j.stage with
  | .closing m _ _ _ => m = .abortRestart ∧ j.safeDefault ≠ "" ∧
      (j.landed = some (.moved true) → s.Closed j.proposalId)
  | .holding m _ _ _ => m = .abortRestart ∧ j.safeDefault ≠ ""
  | .ensuring _ => s.Ensurable j.proposalId
  | .defaulting => s.Defaulted j.proposalId
  | .marking _ => s.Defaulted j.proposalId ∧ s.Reported j.proposalId
  | _ => False

def RecoveryOk (s : Governed) (j : Job) : Prop :=
  s.recovery ≠ .done ∧
    (s.PassOk j ∨ j.stage = .settling .recoverUnproven ∨ j.stage = .settling .recoverUnknown)

def JobOk (s : Governed) : JobId → Job → Prop
  | .flow _, j => s.FlowOk j
  | .background _, j => s.TaskOk j
  | .recovery, j => s.RecoveryOk j
  | .stop, j => s.PassOk j

structure Sound (s : Governed) : Prop where
  entered_row : ∀ p, s.Entered p → ∃ r, s.store.proposals.get? p = some r ∧
    (r.decisionState = .approvedPendingDispatch ∨ r.decisionState.dispatched = true)
  intent_barred : ∀ p, (s.store.intents.get? p).isSome = true → s.Barred p
  default_barred : ∀ p, s.Defaulted p → s.Barred p
  closed_intent : ∀ p r, s.store.proposals.get? p = some r →
    r.decisionState.closedUndispatched = true → r.safeDefaultAction ≠ "" →
    (s.store.intents.get? p).isSome = true
  reported : ∀ p i, s.store.intents.get? p = some i → i.outcome ≠ .pending → s.Reported p
  history : ∀ rec ∈ s.store.records, rec.decisionState.dispatched = true →
    ∃ r, s.store.proposals.get? rec.proposalId = some r ∧ r.decisionState.dispatched = true
  job : ∀ id j, s.jobs id = some j → s.JobOk id j
  unique : ∀ n n' j j', s.jobs (.flow n) = some j → s.jobs (.flow n') = some j' →
    j.phase ≠ .unborn → j'.phase ≠ .unborn → j.proposalId = j'.proposalId → n = n'
  adrift : ∀ op ∈ s.adrift, s.OpOk op
  idle : s.recovery ≠ .done → ∀ n, s.jobs (.flow n) = none ∧ s.jobs (.background n) = none
  resuming : ∀ todo, s.recovery = .resuming todo →
    ∀ e ∈ todo, (s.store.intents.get? e.1).isSome = true

/-! ### What the jobs are allowed to ask -/

variable {j : Job} {n : ℕ} {s : Governed} {p : String}

theorem Sound.flow (hs : Sound s) (hj : s.jobs (.flow n) = some j) :
    s.FlowOk j := hs.job (.flow n) j hj

theorem Sound.recovery_done (hs : Sound s) (hj : s.jobs (.flow n) = some j) :
    s.recovery = .done := by
  by_contra hd
  simp [(hs.idle hd n).1] at hj

theorem FlowOk.owned (h : s.FlowOk j) (hp : j.phase = .listening ∨ j.phase = .approved) :
    s.Owned j := by
  cases hs : j.stage with
  | creating row n =>
    simp only [FlowOk, hs] at h
    by_cases hl : j.landed = some (.created .committed)
    · exact h.2 hl
    · simp [Job.phase, hs, hl] at hp
  | listening => simpa only [FlowOk, hs] using h
  | admitting b a i | admitted =>
    simp only [FlowOk, hs] at h
    exact h.1
  | _ => simp [Job.phase, hs] at hp

theorem FlowOk.approved (h : s.FlowOk j) (hp : j.phase = .approved) :
    ∃ b a, s.Licensed j.proposalId b a := by
  cases hs : j.stage with
  | creating row n =>
    simp only [Job.phase, hs] at hp
    split_ifs at hp
  | admitting b a i =>
    simp only [FlowOk, hs] at h
    simp only [Job.phase, hs] at hp
    split_ifs at hp with hn
    exact ⟨b, a, h.2 hn⟩
  | admitted =>
    simp only [FlowOk, hs] at h
    obtain ⟨-, b, a, hl, -⟩ := h
    exact ⟨b, a, hl⟩
  | _ => simp [Job.phase, hs] at hp

theorem FlowOk.entered (h : s.FlowOk j) (hp : j.phase = .acting) : s.Entered j.proposalId := by
  cases hs : j.stage with
  | creating row n | admitting b a i =>
    simp only [Job.phase, hs] at hp
    split_ifs at hp
  | acting => simpa only [FlowOk, hs] using h
  | _ => simp [Job.phase, hs] at hp

theorem Sound.barred_of_flow (hs : Sound s) (hj : s.jobs (.flow n) = some j)
    (hp : j.phase = .closed) : s.Barred j.proposalId := by
  have h := hs.flow hj
  cases hg : j.stage with
  | creating row n | admitting b a i =>
    simp only [Job.phase, hg] at hp
    split_ifs at hp
  | closing m r ir k | holding m r ir k =>
    simp only [FlowOk, hg] at h
    exact h.2.2
  | ensuring r =>
    simp only [FlowOk, hg] at h
    exact h.2
  | defaulting =>
    simp only [FlowOk, hg] at h
    exact hs.default_barred _ h
  | marking o =>
    simp only [FlowOk, hg] at h
    exact hs.default_barred _ h.1
  | _ => simp [Job.phase, hg] at hp

theorem FlowOk.not_aside (h : s.FlowOk j) : j.phase ≠ .aside := by
  cases hs : j.stage with
  | creating row n | admitting b a i =>
    simp only [Job.phase, hs]
    split_ifs <;> simp
  | starting | appending m json | settling m => simp [FlowOk, hs] at h
  | _ => simp [Job.phase, hs]

theorem Sound.row_of_flow (hs : Sound s) (hj : s.jobs (.flow n) = some j)
    (hh : j.phase ≠ .unborn) : ∃ r, s.store.proposals.get? j.proposalId = some r := by
  have ho := hs.flow hj
  cases hp : j.phase with
  | unborn => exact absurd hp hh
  | listening =>
    obtain ⟨r, hr, -⟩ := (ho.owned (.inl hp)).row
    exact ⟨r, hr⟩
  | approved =>
    obtain ⟨r, hr, -⟩ := (ho.owned (.inr hp)).row
    exact ⟨r, hr⟩
  | closed => exact (hs.barred_of_flow hj hp).row
  | acting =>
    obtain ⟨r, hr, -⟩ := hs.entered_row _ (ho.entered hp)
    exact ⟨r, hr⟩
  | aside => exact absurd hp ho.not_aside

theorem barred_of_closed (hn : ∀ p, s.Entered p → ∃ r, s.store.proposals.get? p = some r ∧
        (r.decisionState = .approvedPendingDispatch ∨ r.decisionState.dispatched = true))
    (ha : ∀ n j, s.jobs (.flow n) = some j → j.phase = .approved →
      ∃ b a, s.Licensed j.proposalId b a) (h : s.Closed p) : s.Barred p := by
  obtain ⟨r, hr, hc⟩ := h
  refine ⟨⟨r, hr⟩, ?_, ?_⟩
  · intro he
    obtain ⟨r', hr', hs⟩ := hn p he
    obtain rfl := mem_unique hr hr'
    revert hc hs
    cases r.decisionState <;> simp [DecisionState.closedUndispatched, DecisionState.dispatched]
  · rintro n j hj rfl
    refine ⟨?_, ?_⟩
    · intro hp
      obtain ⟨_, _, r', hr', hs, -⟩ := ha n j hj hp
      obtain rfl := mem_unique hr hr'
      simp [hs, DecisionState.closedUndispatched] at hc
    · intro _ hh
      simp only [held, hr, map_some, some.injEq] at hh
      simp [hh, DecisionState.closedUndispatched] at hc

theorem Sound.barred_of_closed (hs : Sound s) (h : s.Closed p) : s.Barred p :=
  Governed.barred_of_closed hs.entered_row (fun _ _ hj hp => (hs.flow hj).approved hp) h

theorem Sound.opOk (hs : Sound s) {id : JobId} (hj : s.jobs id = some j) {ceiling : ℤ} {op : Op}
    (hp : j.op? ceiling = some op) : s.OpOk op ∨ (id = .recovery ∧ s.Recovers op) := by
  have hk := hs.job id j hj
  have hc : s.Owned j → s.CarriesDefault j.proposalId (some j.safeDefault) := by
    intro ho
    obtain ⟨r, hr, hsd⟩ := ho.row
    by_cases he : j.safeDefault = ""
    · exact .inr ⟨r, hr, hsd.trans he⟩
    · exact .inl he
  have hpass : s.PassOk j → s.OpOk op := by
    intro hpass
    unfold PassOk at hpass
    unfold Job.op? at hp
    split at hpass <;> simp_all
    · cases hp
      exact .inl hpass.2.1
    · cases hp
      exact hpass
    · cases hp
      exact hpass.2
  cases id with
  | flow n =>
    have hd := hs.recovery_done hj
    unfold Job.op? at hp
    simp only [JobOk, FlowOk] at hk
    split at hp <;> simp_all
    · cases hp
      trivial
    · cases hp
      trivial
    · rename_i m _ _ _ _
      cases hp
      cases m <;> simp_all [Move.closes, OpOk]
    · cases hp
      exact ⟨hk.2, .inr (.inr ⟨hd, hk.1.undispatched⟩)⟩
    · cases hp
      exact hk.2
  | background n =>
    left
    obtain ⟨hg | ⟨m, json, hg, hm⟩, hn⟩ := hk
    · simp only [Job.op?, hg, some.injEq] at hp
      subst hp
      exact ⟨rfl, hn⟩
    · simp only [Job.op?, hg, some.injEq] at hp
      subst hp
      cases m <;> simp_all [Move.records, OpOk]
  | recovery =>
    obtain ⟨hd, hk | hg | hg⟩ := hk
    · exact .inl (hpass hk)
    · simp only [Job.op?, hg, some.injEq] at hp
      exact .inr ⟨rfl, _, _, hp.symm, .inl rfl, hd⟩
    · simp only [Job.op?, hg, some.injEq] at hp
      exact .inr ⟨rfl, _, _, hp.symm, .inr rfl, hd⟩
  | stop => exact .inl (hpass hk)

/-! ### A transaction lands -/

/-- Why a transaction moves a proposal. -/
inductive Cause (s : Governed) (p : String) (a b : DecisionState) : Prop
  | close (ha : a = .proposed) (hb : b.closedUndispatched = true)
  | closeApproval (ha : a = .approvedPendingDispatch) (hb : b.closedUndispatched = true)
      (hbarred : s.Barred p)
  | dispatch (ha : a = .approvedPendingDispatch ∨ a = .dispatchStarted) (hb : b.dispatched = true)
      (hentered : s.Entered p)
  | recover (ha : a = .approvedPendingDispatch ∨ a = .dispatchStarted) (hb : b.dispatched = true)
      (hdone : s.recovery ≠ .done)
  | reconcile (ha : a.dispatched = true) (hb : b.dispatched = true)

theorem cause_of_moves {op : Op} {a b : DecisionState} (hp : s.OpOk op ∨ s.Recovers op)
    (h : Moves p op a b) : s.Cause p a b := by
  cases h with
  | advanced m reason json sd _ hfrom =>
    obtain ho | ⟨q, m', heq, hm, hd⟩ := hp
    · cases m <;> simp only [Move.fromStates, mem_cons, not_mem_nil, or_false] at hfrom
      all_goals simp only [OpOk] at ho
      · exact .close hfrom rfl
      · exact .close hfrom rfl
      · exact .close hfrom rfl
      · exact .closeApproval hfrom rfl ho.2
      · exact .closeApproval hfrom rfl ho.2
      · exact .dispatch (.inl hfrom) rfl ho.2
      all_goals exact .dispatch hfrom rfl ho.2
    · cases heq
      obtain rfl | rfl := hm
      · simp only [Move.fromStates, mem_cons, not_mem_nil, or_false] at hfrom
        exact .recover (.inl hfrom) rfl hd
      · simp only [Move.fromStates, mem_cons, not_mem_nil, or_false] at hfrom
        exact .recover (.inr hfrom) rfl hd
  | bindingChanged | blocked => exact .close rfl rfl
  | reconciled req _ _ _ ha hb =>
    simp only [mem_cons, not_mem_nil, or_false] at hb
    simp only [DecisionState.uncertain, mem_cons, not_mem_nil, or_false, decide_eq_true_eq] at ha
    refine .reconcile ?_ ?_
    · obtain rfl | rfl := ha <;> rfl
    · obtain rfl | rfl := hb <;> rfl

/-- One transaction landed. Its job, if it still awaits it, holds the answer. -/
structure Landed (s : Governed) (op : Op) (now : ℤ) (s₁ : Governed) : Prop where
  store : s₁.store = (s.store.perform now op).1
  trace : s₁.trace = s.trace
  recovery : s₁.recovery = s.recovery
  adrift : ∀ op' ∈ s₁.adrift, op' ∈ s.adrift
  jobs : ∀ id j₁, s₁.jobs id = some j₁ → ∃ j, s.jobs id = some j ∧ (j₁ = j ∨
    (j₁ = { j with landed := some (s.store.perform now op).2 } ∧ j.landed = none ∧
      ∃ ceiling, j.op? ceiling = some op))
  one : ∀ id id', s₁.jobs id ≠ s.jobs id → s₁.jobs id' ≠ s.jobs id' → id = id'
  kept : ∀ id, (s.jobs id).isSome = true → (s₁.jobs id).isSome = true

section Landed

variable {s s₁ : Governed} {op : Op} {now : ℤ} {p : String}

theorem Landed.entered (hl : s.Landed op now s₁) : s₁.Entered p ↔ s.Entered p := by
  simp only [Entered, hl.trace]

theorem Landed.defaulted (hl : s.Landed op now s₁) : s₁.Defaulted p ↔ s.Defaulted p := by
  simp only [Defaulted, hl.trace]

theorem Landed.reported (hl : s.Landed op now s₁) : s₁.Reported p ↔ s.Reported p := by
  simp only [Reported, hl.trace]

theorem Landed.row (hl : s.Landed op now s₁) (ho : s.OpOk op ∨ s.Recovers op) {r : Proposal}
    (hr : s.store.proposals.get? p = some r) :
    ∃ r', s₁.store.proposals.get? p = some r' ∧ r'.toProposalFields = r.toProposalFields ∧
      (r'.decisionState = r.decisionState ∨
        (r.decisionState = .proposed ∧ r'.decisionState = .approvedPendingDispatch) ∨
        s.Cause p r.decisionState r'.decisionState) := by
  rw [hl.store]
  obtain ⟨r', hr', hf, hk | ⟨_, _, _, _, -, ha, hb⟩ | hm⟩ := TierCStore.row_perform hr op now
  · exact ⟨r', hr', hf, .inl hk⟩
  · exact ⟨r', hr', hf, .inr (.inl ⟨ha, hb⟩)⟩
  · exact ⟨r', hr', hf, .inr (.inr (cause_of_moves ho hm))⟩

theorem Cause.not_proposed {a b : DecisionState} (h : s.Cause p a b) : b ≠ .proposed := by
  rintro rfl
  cases h <;> simp_all [DecisionState.closedUndispatched, DecisionState.dispatched]

variable {j j₁ : Job}

theorem phase_of_landed (h : j₁ = j ∨
      (j₁ = { j with landed := some (s.store.perform now op).2 } ∧ j.landed = none ∧
        ∃ ceiling, j.op? ceiling = some op)) :
    j₁.proposalId = j.proposalId ∧ (j₁.phase = j.phase ∨
      (j.phase = .unborn ∧ j₁.phase = .listening ∧ ∃ row n, j.stage = .creating row n ∧
        op = .create j.proposalId row ∧ (s.store.perform now op).2 = .created .committed) ∨
      (j.phase = .listening ∧ j₁.phase = .approved ∧ ∃ b a i ceiling,
        j.stage = .admitting b a i ∧ op = .admitApproval j.proposalId b a ceiling i ∧
        (s.store.perform now op).2 = .admitted .committed)) := by
  obtain rfl | ⟨rfl, hn, ceiling, ho⟩ := h
  · exact ⟨rfl, .inl rfl⟩
  refine ⟨rfl, ?_⟩
  cases hs : j.stage with
  | creating row n =>
    simp only [Job.op?, hs, some.injEq] at ho
    by_cases hansr : (s.store.perform now op).2 = .created .committed
    · refine .inr (.inl ⟨?_, ?_, row, n, rfl, ho.symm, hansr⟩)
      · simp [Job.phase, hs, hn]
      · simp [Job.phase, hansr]
    · exact .inl (by simp [Job.phase, hs, hn, hansr])
  | admitting b a i =>
    simp only [Job.op?, hs, some.injEq] at ho
    by_cases hansr : (s.store.perform now op).2 = .admitted .committed
    · refine .inr (.inr ⟨?_, ?_, b, a, i, ceiling, rfl, ho.symm, hansr⟩)
      · simp [Job.phase, hs, hn]
      · simp [Job.phase, hansr]
    · exact .inl (by simp [Job.phase, hs, hn, hansr])
  | _ => exact .inl (by simp [Job.phase, hs])

theorem Barred.landed (h : s.Barred p) (hl : s.Landed op now s₁) (ho : s.OpOk op ∨ s.Recovers op) :
    s₁.Barred p := by
  obtain ⟨r, hr⟩ := h.row
  obtain ⟨r', hr', -, hs⟩ := hl.row ho hr
  refine ⟨⟨r', hr'⟩, by rw [hl.entered]; exact h.unentered, ?_⟩
  intro n j₁ hj₁ hp
  obtain ⟨j, hj, hln⟩ := hl.jobs _ _ hj₁
  obtain ⟨hi, hph | ⟨-, -, row, _, -, rfl, hansr⟩ | ⟨hli, -, b, a, i, c, -, rfl, hansr⟩⟩ :=
    phase_of_landed hln
  · rw [hph]
    obtain ⟨ha, hli⟩ := h.flows n j hj (hi.symm.trans hp)
    refine ⟨ha, ?_⟩
    intro hph hh
    simp only [held, hr', map_some, some.injEq] at hh
    obtain hk | ⟨-, hb⟩ | hc := hs
    · apply hli hph
      simp only [held, hr, map_some, ← hk, hh]
    · simp [hb] at hh
    · exact absurd hh hc.not_proposed
  · obtain ⟨_, _, _, heq, hn, -⟩ := TierCStore.created_of_answer hansr
    cases heq
    rw [← hi, hp, hr] at hn
    simp at hn
  · obtain ⟨_, _, _, _, _, u, _, heq, hu, hpr, -⟩ := TierCStore.approved_of_answer hansr
    cases heq
    exfalso
    apply (h.flows n j hj (hi.symm.trans hp)).2 hli
    rw [← hp, hi]
    simp [held, hu, hpr]

theorem Closed.landed (h : s.Closed p) (hl : s.Landed op now s₁) (ho : s.OpOk op ∨ s.Recovers op) :
    s₁.Closed p := by
  obtain ⟨r, hr, hc⟩ := h
  obtain ⟨r', hr', -, hk | ⟨ha, -⟩ | hca⟩ := hl.row ho hr
  · exact ⟨r', hr', by rw [hk, hc]⟩
  · simp [ha, DecisionState.closedUndispatched] at hc
  · refine ⟨r', hr', ?_⟩
    obtain ⟨ha, hb⟩ | ⟨ha, hb, -⟩ | ⟨ha | ha, -, -⟩ | ⟨ha | ha, -, -⟩ | ⟨ha, -⟩ := hca
    · exact hb
    · exact hb
    all_goals
      revert ha hc
      cases r.decisionState <;> simp [DecisionState.closedUndispatched, DecisionState.dispatched]

theorem Undispatched.landed (h : s.Undispatched p) (hl : s.Landed op now s₁)
    (ho : s.OpOk op ∨ s.Recovers op) (hen : ¬ s.Entered p) (hn : s.recovery = .done) :
    s₁.Undispatched p := by
  obtain ⟨r, hr, hs⟩ := h
  obtain ⟨r', hr', -, hk | ⟨-, hb⟩ | hc⟩ := hl.row ho hr
  · exact ⟨r', hr', by rw [hk, hs]⟩
  · exact ⟨r', hr', by simp [hb, DecisionState.dispatched]⟩
  · refine ⟨r', hr', ?_⟩
    obtain ⟨-, hb⟩ | ⟨-, hb, -⟩ | ⟨-, -, he⟩ | ⟨-, -, hd⟩ | ⟨ha, -⟩ := hc
    · revert hb
      cases r'.decisionState <;> simp [DecisionState.closedUndispatched, DecisionState.dispatched]
    · revert hb
      cases r'.decisionState <;> simp [DecisionState.closedUndispatched, DecisionState.dispatched]
    · exact absurd he hen
    · exact absurd hn hd
    · simp [hs] at ha

theorem Landed.dispatched (hl : s.Landed op now s₁) (ho : s.OpOk op ∨ s.Recovers op)
    (h : ∃ r, s.store.proposals.get? p = some r ∧ r.decisionState.dispatched = true) :
    ∃ r, s₁.store.proposals.get? p = some r ∧ r.decisionState.dispatched = true := by
  obtain ⟨r, hr, hs⟩ := h
  obtain ⟨r', hr', -, hk | ⟨ha, -⟩ | hc⟩ := hl.row ho hr
  · exact ⟨r', hr', by rw [hk, hs]⟩
  · simp [ha, DecisionState.dispatched] at hs
  · refine ⟨r', hr', ?_⟩
    obtain ⟨ha, -⟩ | ⟨ha, -, -⟩ | ⟨-, hb, -⟩ | ⟨-, hb, -⟩ | ⟨-, hb⟩ := hc
    · simp [ha, DecisionState.dispatched] at hs
    · simp [ha, DecisionState.dispatched] at hs
    all_goals exact hb

theorem Landed.intent (hl : s.Landed op now s₁) (h : (s.store.intents.get? p).isSome = true) :
    (s₁.store.intents.get? p).isSome = true := by
  rw [hl.store]
  obtain hk | ⟨_, _, -, -, i, hi, -⟩ | ⟨-, i, hi, -, -⟩ | ⟨_, -, _, i', -, hi'⟩ :=
    TierCStore.intent_perform s.store op now p
  · rw [hk, h]
  · rw [hi]
    rfl
  · rw [hi]
    rfl
  · rw [hi']
    rfl

theorem Ensurable.landed (h : s.Ensurable p) (hl : s.Landed op now s₁)
    (ho : s.OpOk op ∨ s.Recovers op) : s₁.Ensurable p := by
  refine ⟨h.barred.landed hl ho, ?_⟩
  obtain hc | hi | ⟨hd, hu⟩ := h.state
  · exact .inl (hc.landed hl ho)
  · exact .inr (.inl (hl.intent hi))
  · refine .inr (.inr ⟨hl.recovery.trans hd, ?_⟩)
    exact hu.landed hl ho h.barred.unentered hd

theorem CarriesDefault.landed {sd : Option String} (h : s.CarriesDefault p sd)
    (hl : s.Landed op now s₁) (ho : s.OpOk op ∨ s.Recovers op) : s₁.CarriesDefault p sd := by
  obtain hs | ⟨r, hr, he⟩ := h
  · exact .inl hs
  · obtain ⟨r', hr', hf, -⟩ := hl.row ho hr
    exact .inr ⟨r', hr', by rw [← he, ← congrArg ProposalFields.safeDefaultAction hf]⟩

theorem OpOk.landed {op' : Op} (h : s.OpOk op') (hl : s.Landed op now s₁)
    (ho : s.OpOk op ∨ s.Recovers op) : s₁.OpOk op' := by
  cases op' with
  | advance q m reason json sd =>
    cases m <;> simp only [OpOk] at h ⊢
    · exact h.landed hl ho
    · exact h.landed hl ho
    · exact h.landed hl ho
    · exact ⟨h.1.landed hl ho, h.2.landed hl ho⟩
    · exact ⟨h.1.landed hl ho, h.2.landed hl ho⟩
    all_goals exact ⟨h.1, hl.entered.mpr h.2⟩
  | ensureIntent q action reason => exact Ensurable.landed h hl ho
  | markIntent q o => exact hl.reported.mpr h
  | create q row | admitApproval q b a c i | reconcile req => trivial

theorem Owned.landed (h : s.Owned j) (hl : s.Landed op now s₁) (ho : s.OpOk op ∨ s.Recovers op)
    (hn : s.recovery = .done) (hi : j₁.proposalId = j.proposalId)
    (hs : j₁.safeDefault = j.safeDefault) : s₁.Owned j₁ := by
  obtain ⟨r, hr, hd⟩ := h.row
  obtain ⟨r', hr', hf, -⟩ := hl.row ho hr
  refine ⟨⟨r', hi ▸ hr', ?_⟩, ?_, ?_⟩
  · rw [hs, ← hd, ← congrArg ProposalFields.safeDefaultAction hf]
  · rw [hi, hl.entered]
    exact h.unentered
  · rw [hi]
    exact h.undispatched.landed hl ho h.unentered hn

theorem Sound.licensed_landed (hs : Sound s) (hl : s.Landed op now s₁)
    (ho : s.OpOk op ∨ s.Recovers op) {n : ℕ} (hj : s.jobs (.flow n) = some j)
    (hh : j.phase = .approved) {b a : String} (h : s.Licensed j.proposalId b a) :
    s₁.Licensed j.proposalId b a := by
  obtain ⟨r, hr, ht, hb, ha⟩ := h
  obtain ⟨r', hr', hf, hk | ⟨hp, -⟩ | hc⟩ := hl.row ho hr
  · exact ⟨r', hr', by rw [hk, ht], by rw [← hb, ← congrArg ProposalFields.bindingDigest hf],
      by rw [← ha, ← congrArg ProposalFields.authorityJson hf]⟩
  · simp [ht] at hp
  · exfalso
    obtain ⟨hfrom, -⟩ | ⟨-, -, hba⟩ | ⟨-, -, he⟩ | ⟨-, -, hd⟩ | ⟨hfrom, -⟩ := hc
    · simp [ht] at hfrom
    · exact (hba.flows n j hj rfl).1 hh
    · exact ((hs.flow hj).owned (.inr hh)).unentered he
    · exact hd (hs.recovery_done hj)
    · simp [ht, DecisionState.dispatched] at hfrom

theorem FlowOk.landed (hs : Sound s) (hl : s.Landed op now s₁) (hop : s.OpOk op ∨ s.Recovers op)
    {n : ℕ} (hj : s.jobs (.flow n) = some j) (hj₁ : j₁ = j ∨
      (j₁ = { j with landed := some (s.store.perform now op).2 } ∧ j.landed = none ∧
        ∃ ceiling, j.op? ceiling = some op)) : s₁.FlowOk j₁ := by
  have hk := hs.flow hj
  have hdn := hs.recovery_done hj
  have hsm : j₁.stage = j.stage ∧ j₁.proposalId = j.proposalId ∧
      j₁.safeDefault = j.safeDefault := by
    obtain rfl | ⟨rfl, -⟩ := hj₁ <;> exact ⟨rfl, rfl, rfl⟩
  obtain ⟨hs₁, hi, hd⟩ := hsm
  have howne : s.Owned j → s₁.Owned j₁ := fun h => h.landed hl hop hdn hi hd
  have hba : s.Barred j.proposalId → s₁.Barred j₁.proposalId := by
    intro h
    rw [hi]
    exact h.landed hl hop
  cases hg : j.stage with
  | creating row k =>
    simp only [FlowOk, hg] at hk
    simp only [FlowOk, hs₁, hg]
    refine ⟨hd.trans hk.1, ?_⟩
    intro hn
    obtain rfl | ⟨rfl, -, ceiling, ho'⟩ := hj₁
    · exact howne (hk.2 hn)
    obtain ⟨p, row', r, heq, hno, hr, hf, hp⟩ := TierCStore.created_of_answer (some.inj hn)
    simp only [Job.op?, hg, some.injEq] at ho'
    obtain ⟨rfl, rfl⟩ := Op.create.inj (ho'.trans heq)
    refine ⟨⟨r, by rw [hl.store]; exact hr, ?_⟩, ?_,
      ⟨r, by rw [hl.store]; exact hr, by rw [hp]; rfl⟩⟩
    · change r.toProposalFields.safeDefaultAction = j.safeDefault
      rw [hf, hk.1]
    · intro he
      obtain ⟨u, hu, -⟩ := hs.entered_row _ (hl.entered.mp he)
      simp [hno] at hu
  | listening =>
    simp only [FlowOk, hg] at hk
    simp only [FlowOk, hs₁, hg]
    exact howne hk
  | admitting b a i =>
    simp only [FlowOk, hg] at hk
    simp only [FlowOk, hs₁, hg]
    refine ⟨howne hk.1, ?_⟩
    intro hn
    obtain rfl | ⟨rfl, -, ceiling, ho'⟩ := hj₁
    · exact hs.licensed_landed hl hop hj (by simp [Job.phase, hg, hn]) (hk.2 hn)
    obtain ⟨p, b', a', c, i', r, r', heq, -, -, hr', ht, hb, ha⟩ :=
      TierCStore.approved_of_answer (some.inj hn)
    simp only [Job.op?, hg, some.injEq] at ho'
    obtain ⟨rfl, rfl, rfl, -, -⟩ := Op.admitApproval.inj (ho'.trans heq)
    exact ⟨r', by rw [hl.store]; exact hr', ht, hb, ha⟩
  | admitted =>
    have hh : j.phase = .approved := by simp [Job.phase, hg]
    simp only [FlowOk, hg] at hk
    simp only [FlowOk, hs₁, hg]
    obtain ⟨ho, b, a, hli, hm⟩ := hk
    refine ⟨howne ho, b, a, ?_, ?_⟩
    · rw [hi]
      exact hs.licensed_landed hl hop hj hh hli
    · rw [hi, hl.trace]
      exact hm
  | closing m r ir k | holding m r ir k =>
    simp only [FlowOk, hg] at hk
    simp only [FlowOk, hs₁, hg]
    exact ⟨hk.1, howne hk.2.1, hba hk.2.2⟩
  | ensuring r =>
    simp only [FlowOk, hg] at hk
    simp only [FlowOk, hs₁, hg]
    exact ⟨howne hk.1, hba hk.2⟩
  | defaulting =>
    simp only [FlowOk, hg] at hk
    simp only [FlowOk, hs₁, hg, hi]
    exact hl.defaulted.mpr hk
  | marking o =>
    simp only [FlowOk, hg] at hk
    simp only [FlowOk, hs₁, hg, hi]
    exact ⟨hl.defaulted.mpr hk.1, hl.reported.mpr hk.2⟩
  | acting =>
    simp only [FlowOk, hg] at hk
    simp only [FlowOk, hs₁, hg, hi]
    exact hl.entered.mpr hk
  | starting | appending m json | settling m => simp [FlowOk, hg] at hk

theorem PassOk.landed (hl : s.Landed op now s₁) (hp : s.OpOk op ∨ s.Recovers op) (ho : s.PassOk j)
    (hj₁ : j₁ = j ∨ (j₁ = { j with landed := some (s.store.perform now op).2 } ∧ j.landed = none ∧
        ∃ ceiling, j.op? ceiling = some op)) : s₁.PassOk j₁ := by
  have hm : j₁.stage = j.stage ∧ j₁.proposalId = j.proposalId ∧ j₁.safeDefault = j.safeDefault := by
    obtain rfl | ⟨rfl, -⟩ := hj₁ <;> exact ⟨rfl, rfl, rfl⟩
  obtain ⟨hs₁, hi, hd⟩ := hm
  cases hs : j.stage with
  | closing m r ir k =>
    simp only [PassOk, hs] at ho
    simp only [PassOk, hs₁, hs, hd]
    refine ⟨ho.1, ho.2.1, ?_⟩
    intro hn
    obtain rfl | ⟨rfl, -, ceiling, ho'⟩ := hj₁
    · exact (ho.2.2 hn).landed hl hp
    simp only [Job.op?, hs, some.injEq] at ho'
    subst ho'
    obtain ⟨r', hr', ht⟩ := TierCStore.row_of_moved (some.inj hn)
    exact ⟨r', by rw [hl.store]; exact hr', by rw [ht, ho.1]; rfl⟩
  | holding m r ir k =>
    simp only [PassOk, hs] at ho
    simp only [PassOk, hs₁, hs, hd]
    exact ho
  | ensuring r =>
    simp only [PassOk, hs] at ho
    simp only [PassOk, hs₁, hs, hi]
    exact ho.landed hl hp
  | defaulting =>
    simp only [PassOk, hs] at ho
    simp only [PassOk, hs₁, hs, hi]
    exact hl.defaulted.mpr ho
  | marking o =>
    simp only [PassOk, hs] at ho
    simp only [PassOk, hs₁, hs, hi]
    exact ⟨hl.defaulted.mpr ho.1, hl.reported.mpr ho.2⟩
  | _ => simp [PassOk, hs] at ho

theorem JobOk.landed (hs : Sound s) (hl : s.Landed op now s₁) (hp : s.OpOk op ∨ s.Recovers op)
    {id : JobId} (hj₁ : s₁.jobs id = some j₁) : s₁.JobOk id j₁ := by
  obtain ⟨j, hj, hn⟩ := hl.jobs id j₁ hj₁
  have ho := hs.job id j hj
  have hm : j₁.stage = j.stage ∧ j₁.proposalId = j.proposalId := by
    obtain rfl | ⟨rfl, -⟩ := hn <;> exact ⟨rfl, rfl⟩
  cases id with
  | flow n => exact FlowOk.landed hs hl hp hj hn
  | background n =>
    obtain ⟨hg, he⟩ := ho
    refine ⟨?_, ?_⟩
    · rw [hm.1]
      exact hg
    · rw [hm.2]
      exact hl.entered.mpr he
  | recovery =>
    obtain ⟨hd, ho⟩ := ho
    refine ⟨by rw [hl.recovery]; exact hd, ?_⟩
    rw [hm.1]
    obtain ho | hg := ho
    · exact .inl (PassOk.landed hl hp ho hn)
    · exact .inr hg
  | stop => exact PassOk.landed hl hp ho hn

theorem closed_of_intent (hp : s.OpOk op ∨ s.Recovers op) {a b : DecisionState}
    (hm : Moves p op a b)
    (hs : ∀ m reason json sd, op = .advance p m reason json sd → sd.getD "" ≠ "")
    (hr : ∀ req, op ≠ .reconcile req) : b.closedUndispatched = true := by
  cases hm with
  | advanced m reason json sd _ hfrom =>
    have hd := hs m reason json sd rfl
    obtain ho | ⟨q, m', heq, -, -⟩ := hp
    · cases m <;> simp only [OpOk] at ho
      · rfl
      · rfl
      · rfl
      · rfl
      · rfl
      all_goals simp [ho.1] at hd
    · cases heq
      simp at hd
  | bindingChanged => rfl
  | blocked => rfl
  | reconciled req => exact absurd rfl (hr req)

theorem Sound.landed (hs : Sound s) (hl : s.Landed op now s₁) (hop : s.OpOk op ∨ s.Recovers op) :
    Sound s₁ := by
  have hen : ∀ p, s₁.Entered p → ∃ r, s₁.store.proposals.get? p = some r ∧
      (r.decisionState = .approvedPendingDispatch ∨ r.decisionState.dispatched = true) := by
    intro p he
    rw [hl.entered] at he
    obtain ⟨r, hr, ht | ht⟩ := hs.entered_row p he
    · obtain ⟨r', hr', -, hkp | ⟨ha, -⟩ | hca⟩ := hl.row hop hr
      · exact ⟨r', hr', .inl (hkp.trans ht)⟩
      · simp [ht] at ha
      · refine ⟨r', hr', .inr ?_⟩
        obtain ⟨ha, -⟩ | ⟨-, -, hba⟩ | ⟨-, hb, -⟩ | ⟨-, hb, -⟩ | ⟨-, hb⟩ := hca
        · simp [ht] at ha
        · exact absurd he hba.unentered
        all_goals exact hb
    · obtain ⟨r', hr', hd⟩ := hl.dispatched hop ⟨r, hr, ht⟩
      exact ⟨r', hr', .inr hd⟩
  have hap : ∀ n j, s₁.jobs (.flow n) = some j → j.phase = .approved →
      ∃ b a, s₁.Licensed j.proposalId b a := by
    intro n j hj hh
    have hk : s₁.FlowOk j := JobOk.landed hs hl hop hj
    exact hk.approved hh
  refine ⟨hen, ?_, ?_, ?_, ?_, ?_, fun id j hj => JobOk.landed hs hl hop hj, ?_, ?_, ?_, ?_⟩
  · intro p hin
    have hstep := TierCStore.intent_perform s.store op now p
    rw [← hl.store] at hstep
    obtain hkp | ⟨action, reason, heq, -⟩ |
      ⟨-, i, -, -, a, b, hv, r', hr', ht, hsd, hq⟩ | ⟨o, -, i, -, hi, -⟩ := hstep
    · rw [hkp] at hin
      exact (hs.intent_barred p hin).landed hl hop
    · subst heq
      obtain hk | ⟨_, _, heq, -⟩ := hop
      · exact hk.barred.landed hl (.inl hk)
      · cases heq
    · exact Governed.barred_of_closed hen hap
        ⟨r', hr', by rw [ht]; exact closed_of_intent hop hv hsd hq⟩
    · exact (hs.intent_barred p (by rw [hi]; rfl)).landed hl hop
  · intro p hde
    exact (hs.default_barred p (hl.defaulted.mp hde)).landed hl hop
  · intro p r' hr' hc hsd
    rw [hl.store] at hr'
    obtain ⟨r, hr⟩ | ⟨row, -, -, -, -, hpr, -⟩ := TierCStore.row_of_perform hr'
    · obtain ⟨r'', hr'', hf, hstep⟩ := TierCStore.row_perform hr op now
      obtain rfl := mem_unique hr' hr''
      have hs' : r.safeDefaultAction ≠ "" := by
        rw [← congrArg ProposalFields.safeDefaultAction hf]
        exact hsd
      cases hopen : r.decisionState.closedUndispatched with
      | true => exact hl.intent (hs.closed_intent p r hr hopen hs')
      | false =>
        rw [hl.store]
        refine TierCStore.intent_of_closed hr hr' hopen hc hs' ?_
        rintro m reason json sd rfl
        have hcr : s.CarriesDefault p sd := by
          obtain hkp | ⟨_, _, _, _, heq, -, -⟩ | hv := hstep
          · simp [hkp, hopen] at hc
          · cases heq
          · generalize hb : r'.decisionState = b at hv hc
            cases hv
            obtain hk | ⟨_, _, heq, hm, -⟩ := hop
            · cases m <;> simp only [OpOk] at hk
              · exact hk
              · exact hk
              · exact hk
              · exact hk.1
              · exact hk.1
              all_goals simp [Move.target, DecisionState.closedUndispatched] at hc
            · cases heq
              obtain rfl | rfl := hm <;>
                simp [Move.target, DecisionState.closedUndispatched] at hc
        obtain hde | ⟨u, hu, hem⟩ := hcr
        · exact hde
        · obtain rfl := mem_unique hr hu
          exact absurd hem hs'
    · simp [hpr, DecisionState.closedUndispatched] at hc
  · intro p i hi hrp
    have hstep := TierCStore.intent_perform s.store op now p
    rw [← hl.store] at hstep
    rw [hl.reported]
    obtain hkp | ⟨_, _, -, -, i', hi', hp⟩ | ⟨-, i', hi', hp, -⟩ | ⟨o, heq, -, -, -, -⟩ := hstep
    · exact hs.reported p i (hkp ▸ hi) hrp
    · cases hi.symm.trans hi'
      exact absurd hp hrp
    · cases hi.symm.trans hi'
      exact absurd hp hrp
    · subst heq
      obtain hk | ⟨_, _, heq, -⟩ := hop
      · exact hk
      · cases heq
  · intro rec hre hd
    rw [hl.store] at hre
    obtain hre | ⟨r', hr', ht⟩ := TierCStore.records_perform hre
    · exact hl.dispatched hop (hs.history rec hre hd)
    · exact ⟨r', by rw [hl.store]; exact hr', by rw [ht]; exact hd⟩
  · intro n n' j₁ j₁' hj₁ hj₁' hh hp' hsm
    obtain ⟨j, hj, hln⟩ := hl.jobs _ _ hj₁
    obtain ⟨j', hj', hl'⟩ := hl.jobs _ _ hj₁'
    obtain ⟨hid, hmo⟩ := phase_of_landed hln
    obtain ⟨hd', hm'⟩ := phase_of_landed hl'
    rw [hid, hd'] at hsm
    -- a proposal just created is no other workflow's
    have hn : ∀ k u, s.jobs (.flow k) = some u → u.phase ≠ .unborn → ∀ row,
        op = .create u.proposalId row → (s.store.perform now op).2 = .created .committed →
        False := by
      intro k u hu hborn row heq hansr
      obtain ⟨q, _, _, he', hno, -⟩ := TierCStore.created_of_answer hansr
      obtain ⟨rfl, -⟩ := Op.create.inj (heq.symm.trans he')
      obtain ⟨r, hr⟩ := hs.row_of_flow hu hborn
      simp [hno] at hr
    have hborn : ∀ {u u₁ : Job}, u₁.phase ≠ .unborn → (u₁.phase = u.phase ∨
        (u.phase = .unborn ∧ u₁.phase = .listening ∧ ∃ row n, u.stage = .creating row n ∧
          op = .create u.proposalId row ∧ (s.store.perform now op).2 = .created .committed) ∨
        (u.phase = .listening ∧ u₁.phase = .approved ∧ ∃ b a i ceiling,
          u.stage = .admitting b a i ∧ op = .admitApproval u.proposalId b a ceiling i ∧
          (s.store.perform now op).2 = .admitted .committed)) → u.phase ≠ .unborn ∨
        (u₁ ≠ u ∧ ∃ row, op = .create u.proposalId row ∧
          (s.store.perform now op).2 = .created .committed) := by
      rintro u u₁ hne (hsm | ⟨hun, hli, row, _, -, heq, hansr⟩ | ⟨hli, -⟩)
      · exact .inl (hsm ▸ hne)
      · refine .inr ⟨?_, row, heq, hansr⟩
        rintro rfl
        simp [hun] at hli
      · exact .inl (by simp [hli])
    obtain hborn₁ | ⟨hch, row, heq, hansr⟩ := hborn hh hmo
    · obtain hborn₂ | ⟨-, row, heq, hansr⟩ := hborn hp' hm'
      · exact hs.unique n n' j j' hj hj' hborn₁ hborn₂ hsm
      · exact (hn n j hj hborn₁ row (hsm ▸ heq) hansr).elim
    · obtain hborn₂ | ⟨hc', -⟩ := hborn hp' hm'
      · exact (hn n' j' hj' hborn₂ row (hsm ▸ heq) hansr).elim
      have ho := hl.one (.flow n) (.flow n') (by rw [hj₁, hj]; simpa using hch)
        (by rw [hj₁', hj']; simpa using hc')
      exact JobId.flow.inj ho
  · intro op' ho'
    exact (hs.adrift op' (hl.adrift op' ho')).landed hl hop
  · intro hdn n
    rw [hl.recovery] at hdn
    obtain ⟨hflow, htk⟩ := hs.idle hdn n
    refine ⟨?_, ?_⟩
    · rw [eq_none_iff_forall_ne_some]
      intro j₁ hj₁
      obtain ⟨j, hj, -⟩ := hl.jobs _ _ hj₁
      simp [hflow] at hj
    · rw [eq_none_iff_forall_ne_some]
      intro j₁ hj₁
      obtain ⟨j, hj, -⟩ := hl.jobs _ _ hj₁
      simp [htk] at hj
  · intro todo hrs e he
    rw [hl.recovery] at hrs
    exact hl.intent (hs.resuming todo hrs e he)

end Landed

end Governed

end OriRuntime
