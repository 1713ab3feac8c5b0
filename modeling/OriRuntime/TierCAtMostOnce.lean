import OriRuntime.GovernedSound
import OriRuntime.TierCExclusion

/-!
# The executor of a Tier C proposal is entered at most once

Over the whole history of the store an act is entered at most once, after a reply was committed
under the bytes its row stands on. The record that dispatch started stands beside the act: it is
never there without the act, and the act may be there without it.
-/

namespace OriRuntime

open List Option

open TierCStore (Op Answer Moves)

namespace Governed

/-- What a history says of the acts it entered. -/
structure ActsOnce (s : Governed) : Prop where
  once : ∀ p, s.trace.count (.entered p) ≤ 1
  consented : ∀ p older, (.entered p :: older) <:+ s.trace → ∃ b a r, .committed p b a ∈ older ∧
    s.store.proposals.get? p = some r ∧ r.bindingDigest = b ∧ r.authorityJson = a
  marked : ∀ rec ∈ s.store.records, rec.decisionState = .dispatchStarted →
    s.Entered rec.proposalId
  started : ∀ p r, s.store.proposals.get? p = some r → r.decisionState = .dispatchStarted →
    s.Entered p

section ActsOnce

variable {s s' : Governed} {p : String}

variable {id : JobId} {j : Job} {a : Action} {b : DecisionState} {op : Op} {now : ℤ}
  {as : List Action} {config : GovernedConfig}

theorem events_of_resumes {held : Option DecisionState} {next : Option Job}
    {events : List TierCEvent} {spawned : Option Job} {escapes : Bool}
    (hr : Resumes id held j next events spawned escapes) : events = [] ∨ ∃ e, events = [e] ∧
      (∀ p, e = .entered p → j.stage = .admitted ∧ p = j.proposalId) := by
  cases hr with
  | enters hs =>
    refine .inr ⟨_, rfl, ?_⟩
    rintro p ⟨⟩
    exact ⟨hs, rfl⟩
  | refused row n hs | commits binding authority ingress hs hl
  | attempts reason hs | marks hs o => exact .inr ⟨_, rfl, nofun⟩
  | _ => exact .inl rfl

theorem Sound.trace_step (hs : Sound s) (h : s.Stepped a s') : s'.trace = s.trace ∨
    ∃ e, s'.trace = e :: s.trace ∧ ∀ p, e = .entered p → ∃ b a, s.Licensed p b a ∧
      .committed p b a ∈ s.trace ∧ ¬ s.Entered p ∧ s'.store = s.store := by
  cases h with
  | lands _ _ op now has hl => exact .inl hl.trace
  | resumes _ id j out hj hr =>
    obtain hn | ⟨e, he, ha⟩ := events_of_resumes hr
    · exact .inl (by simp [hn])
    refine .inr ⟨e, by simp [he], ?_⟩
    intro p hen
    obtain ⟨hg, rfl⟩ := ha p hen
    obtain ⟨n, rfl⟩ := hs.flow_of_stage hj (.inl hg)
    have hk := hs.flow hj
    simp only [FlowOk, hg] at hk
    obtain ⟨ho, b, a, hi, hc⟩ := hk
    exact ⟨b, a, hi, hc, ho.unentered, apply_store s _ out⟩
  | refuses p row => exact .inr ⟨.unboundDefault, rfl, fun _ h => by cases h⟩
  | proposes p row hd => exact .inl rfl
  | drops id j adrift hid hj had => exact .inl (by simp [setJob])
  | _ => exact .inl rfl

theorem started_of_moves (ho : s.OpOk op ∨ s.Recovers op) {a : DecisionState} (h : Moves p op a b)
    (hb : b = .dispatchStarted) : s.Entered p := by
  cases h with
  | advanced m reason json sd _ hfrom =>
    obtain hk | ⟨q, m', heq, hm, -⟩ := ho
    · cases m <;> simp only [Move.target, reduceCtorEq] at hb
      exact hk.2
    · cases heq
      obtain rfl | rfl := hm <;> simp [Move.target] at hb
  | bindingChanged | blocked => cases hb
  | reconciled req hr a b ha he => simp [hb] at he

theorem ActsOnce.landed (h : ActsOnce s) (hl : s.Landed op now s') (ho : s.OpOk op ∨ s.Recovers op) :
    ActsOnce s' := by
  have hsa : ∀ p r', s'.store.proposals.get? p = some r' →
      r'.decisionState = .dispatchStarted → s'.Entered p := by
    intro p r' hr' ht
    rw [hl.entered]
    rw [hl.store] at hr'
    obtain ⟨r, hr⟩ | ⟨row, -, -, -, -, hp, -⟩ := TierCStore.row_of_perform hr'
    · obtain ⟨r'', hr'', -, hk | ⟨_, _, _, _, -, -, hb⟩ | hmo⟩ := TierCStore.row_perform hr op now
      · obtain rfl := mem_unique hr' hr''
        exact h.started p r hr (hk.symm.trans ht)
      · obtain rfl := mem_unique hr' hr''
        simp [hb] at ht
      · obtain rfl := mem_unique hr' hr''
        exact started_of_moves ho hmo ht
    · simp [hp] at ht
  refine ⟨?_, ?_, ?_, hsa⟩
  · rw [hl.trace]
    exact h.once
  · intro p older hs
    rw [hl.trace] at hs
    obtain ⟨b, a, r, hm, hr, hb, ha⟩ := h.consented p older hs
    obtain ⟨r', hr', hf, -⟩ := hl.row ho hr
    exact ⟨b, a, r', hm, hr', by rw [← hb, ← congrArg ProposalFields.bindingDigest hf],
      by rw [← ha, ← congrArg ProposalFields.authorityJson hf]⟩
  · intro rec he ht
    rw [hl.store] at he
    obtain he | ⟨r', hr', hs'⟩ := TierCStore.records_perform he
    · exact hl.entered.mpr (h.marked rec he ht)
    · exact hsa _ r' (by rw [hl.store]; exact hr') (hs'.trans ht)

theorem ActsOnce.traced (h : ActsOnce s) (ho : s'.store = s.store)
    (ht : s'.trace = s.trace ∨ ∃ e, s'.trace = e :: s.trace ∧ ∀ p, e = .entered p →
      ∃ b a, s.Licensed p b a ∧ .committed p b a ∈ s.trace ∧ ¬ s.Entered p) : ActsOnce s' := by
  have hk : ∀ p, s.Entered p → s'.Entered p := by
    intro p hn
    unfold Entered
    obtain ht | ⟨e, ht, -⟩ := ht
    · rw [ht]
      exact hn
    · rw [ht]
      exact mem_cons_of_mem _ hn
  refine ⟨?_, ?_, ?_, ?_⟩
  · intro p
    obtain ht | ⟨e, ht, hac⟩ := ht
    · rw [ht]
      exact h.once p
    · rw [ht]
      by_cases he : e = .entered p
      · obtain ⟨_, _, -, -, hu⟩ := hac p he
        rw [he, count_cons_self, count_eq_zero_of_not_mem hu]
      · rw [count_cons_of_ne he]
        exact h.once p
  · intro p older hs
    rw [ho]
    obtain ht | ⟨e, ht, hac⟩ := ht
    · exact h.consented p older (ht ▸ hs)
    rw [ht, suffix_cons_iff] at hs
    obtain heq | hs := hs
    · obtain ⟨he, rfl⟩ := List.cons.inj heq
      obtain ⟨b, a, ⟨r, hr, -, hb, ha⟩, hc, -⟩ := hac p he.symm
      exact ⟨b, a, r, hc, hr, hb, ha⟩
    · exact h.consented p older hs
  · rw [ho]
    exact fun rec hre hst => hk _ (h.marked rec hre hst)
  · rw [ho]
    exact fun p r hr hst => hk _ (h.started p r hr hst)

theorem ActsOnce.step (h : ActsOnce s) (hs : Sound s) (hst : s.step a = some s') : ActsOnce s' := by
  have hse := step_cases hst
  have ht : s'.trace = s.trace ∨ ∃ e, s'.trace = e :: s.trace ∧ ∀ p, e = .entered p →
      ∃ b a, s.Licensed p b a ∧ .committed p b a ∈ s.trace ∧ ¬ s.Entered p := by
    obtain hm | ⟨e, he, hac⟩ := hs.trace_step hse
    · exact .inl hm
    refine .inr ⟨e, he, ?_⟩
    intro p hn
    obtain ⟨b, a, hi, hc, hu, -⟩ := hac p hn
    exact ⟨b, a, hi, hc, hu⟩
  cases hse with
  | lands _ _ op now ha hl => exact h.landed hl (hs.opOk_of_asked ha)
  | resumes _ id j out hj hr => exact h.traced (apply_store s id out) ht
  | drops id j adrift hid hj hd => exact h.traced (by simp [setJob]) ht
  | _ => exact h.traced rfl ht

theorem actsOnce_of_run (h : Execution.run Governed.step { config := config } as = some s) :
    ActsOnce s := by
  have ht : ∀ s a t, Sound s ∧ ActsOnce s → step s a = some t → Sound t ∧ ActsOnce t :=
    fun s a t hs ht => ⟨hs.1.step ht, hs.2.step hs.1 ht⟩
  have hb : ActsOnce { config := config } := by
    refine ⟨fun p => Nat.zero_le 1, ?_, ?_, ?_⟩
    · intro p older hu
      simp at hu
    · exact fun rec he => by cases he
    · exact fun p r hr => by cases hr
  exact (Execution.run_invariant ht ⟨sound_blank config, hb⟩ h).2

/-! ### After a restart -/

/-- A proposal no workflow of this process drives. -/
structure Inherited (s : Governed) (p : String) : Prop where
  row : ∃ r, s.store.proposals.get? p = some r
  jobs : ∀ id j, s.jobs id = some j → j.proposalId = p → j.phase = .unborn ∨ id.aborts = true
  adrift : ∀ m reason json sd, .advance p m reason json sd ∈ s.adrift → m = .abortRestart

theorem Inherited.move_of_job (h : s.Inherited p) (hs : Sound s) (hj : s.jobs id = some j)
    {ceiling : ℤ} {m : Move} {reason : String} {json sd : Option String}
    (ho : j.op? ceiling = some (.advance p m reason json sd)) :
    m = .abortRestart ∨ (id = .recovery ∧ (m = .recoverUnproven ∨ m = .recoverUnknown)) := by
  have hi : j.proposalId = p := by
    unfold Job.op? at ho
    split at ho <;> simp_all
  have hpass : s.PassOk j → m = .abortRestart := by
    intro hpass
    unfold PassOk at hpass
    unfold Job.op? at ho
    split at hpass <;> simp_all
  have hk := hs.job id j hj
  obtain hu | ha := h.jobs id j hj hi
  · unfold Job.op? at ho
    split at ho <;> simp_all [Job.phase]
  · cases id with
    | recovery =>
      obtain ⟨-, hk | hg | hg⟩ := hk
      · exact .inl (hpass hk)
      · simp only [Job.op?, hg, some.injEq] at ho
        cases ho
        exact .inr ⟨rfl, .inl rfl⟩
      · simp only [Job.op?, hg, some.injEq] at ho
        cases ho
        exact .inr ⟨rfl, .inr rfl⟩
    | stop => exact .inl (hpass hk)
    | _ => cases ha

theorem Inherited.asked (h : s.Inherited p) (hs : Sound s) (has : s.Asked op) {a : DecisionState}
    (hmo : Moves p op a b) : a = .proposed ∨
      (a = .approvedPendingDispatch ∧ b = .dispatchNotProven) ∨
      (a = .dispatchStarted ∧ b = .dispatchOutcomeUnknown) ∨
      (a.uncertain = true ∧ b ∈ [DecisionState.reconciledExecuted, .reconciledNotExecuted]) := by
  cases hmo with
  | advanced m reason json sd _ hfrom =>
    have hm : m = .abortRestart ∨ m = .recoverUnproven ∨ m = .recoverUnknown := by
      obtain ⟨id, j, hj, ho⟩ | ho | ⟨req, heq⟩ := has
      · obtain hab | ⟨-, hr⟩ := h.move_of_job hs hj ho
        · exact .inl hab
        · exact .inr hr
      · exact .inl (h.adrift m reason json sd ho)
      · cases heq
    obtain rfl | rfl | rfl := hm
    · simp only [Move.fromStates, mem_cons, not_mem_nil, or_false] at hfrom
      exact .inl hfrom
    · simp only [Move.fromStates, mem_cons, not_mem_nil, or_false] at hfrom
      exact .inr (.inl ⟨hfrom, rfl⟩)
    · simp only [Move.fromStates, mem_cons, not_mem_nil, or_false] at hfrom
      exact .inr (.inr (.inl ⟨hfrom, rfl⟩))
  | bindingChanged | blocked => exact .inl rfl
  | reconciled req he a b ha hb => exact .inr (.inr (.inr ⟨ha, hb⟩))

theorem Inherited.landed (h : s.Inherited p) (hl : s.Landed op now s')
    (ho : s.OpOk op ∨ s.Recovers op) : s'.Inherited p := by
  obtain ⟨r, hr⟩ := h.row
  obtain ⟨r', hr', -⟩ := hl.row ho hr
  refine ⟨⟨r', hr'⟩, ?_, fun m reason json sd hm => h.adrift m reason json sd (hl.adrift _ hm)⟩
  intro id j₁ hj₁ hp
  obtain ⟨j, hj, hln⟩ := hl.jobs id j₁ hj₁
  obtain ⟨hi, hh⟩ := phase_of_landed hln
  obtain hu | ha := h.jobs id j hj (hi.symm.trans hp)
  · left
    obtain hk | ⟨-, -, row, n, -, heq, hansr⟩ | ⟨hli, -⟩ := hh
    · rw [hk, hu]
    · obtain ⟨q, _, _, he', hn, -⟩ := TierCStore.created_of_answer hansr
      obtain ⟨rfl, -⟩ := Op.create.inj (heq.symm.trans he')
      rw [← hi, hp, hr] at hn
      cases hn
    · simp [hu] at hli
  · exact .inr ha

theorem Inherited.applied (h : s.Inherited p) (hs : Sound s) {out : Handled}
    (hj : s.jobs id = some j)
    (hr : Resumes id (s.held j.proposalId) j out.next out.events out.spawn out.escapes) :
    (s.apply id out).Inherited p := by
  refine ⟨by rw [apply_store]; exact h.row, ?_, by rw [apply_adrift]; exact h.adrift⟩
  intro k j' hj' hp
  obtain ⟨rfl, hn⟩ | ⟨hsp, rfl⟩ | ⟨-, hk⟩ := apply_jobs hj'
  · obtain hu | ⟨hi, hborn, -⟩ := phase_of_resumes hr hn
    · exact .inl hu
    obtain hu | ha := h.jobs _ j hj (hi.symm.trans hp)
    · exact absurd hu hborn
    · exact .inr ha
  · exfalso
    have hspaw : (j.stage = .admitted ∨ j.stage = .acting) ∧ j'.proposalId = j.proposalId := by
      obtain ⟨hg, rfl, -⟩ | ⟨hg, m, json, -, rfl⟩ := spawned_of_resumes hr hsp
      · exact ⟨.inl hg, rfl⟩
      · exact ⟨.inr hg, rfl⟩
    obtain ⟨n, rfl⟩ := hs.flow_of_stage hj hspaw.1
    obtain hu | ha := h.jobs _ j hj (hspaw.2.symm.trans hp)
    · obtain hg | hg := hspaw.1 <;> simp [Job.phase, hg] at hu
    · cases ha
  · exact h.jobs k j' hk hp

theorem Inherited.passes (h : s.Inherited p) (hs : s'.store = s.store)
    (ha : s'.adrift = s.adrift) (hjobs : ∀ id j', s'.jobs id = some j' →
      s.jobs id = some j' ∨ j'.phase = .unborn ∨ id.aborts = true) : s'.Inherited p := by
  refine ⟨by rw [hs]; exact h.row, ?_, by rw [ha]; exact h.adrift⟩
  intro id j' hj' hp
  obtain hk | hn := hjobs id j' hj'
  · exact h.jobs id j' hk hp
  · exact hn

theorem jobs_setJob {k : JobId} {j : Option Job} {j' : Job} (h : (s.setJob id j).jobs k = some j') :
    (k = id ∧ j = some j') ∨ s.jobs k = some j' := by
  by_cases hk : k = id
  · subst hk
    exact .inl ⟨rfl, by simpa [setJob] using h⟩
  · exact .inr (by simpa [setJob, hk] using h)

theorem Inherited.step (h : s.Inherited p) (hs : Sound s) (ht : s.Stepped a s') :
    s'.Inherited p := by
  cases ht with
  | restarts config =>
    refine ⟨h.row, ?_, ?_⟩
    · exact fun id j hj => by cases hj
    · exact fun m reason json sd hm => by cases hm
  | lands _ _ op now has hl => exact h.landed hl (hs.opOk_of_asked has)
  | resumes _ id j out hj hr => exact h.applied hs hj hr
  | drops id j adrift hi hj had =>
    refine ⟨by simpa [setJob] using h.row, ?_, ?_⟩
    · intro k j' hj' hp
      rw [passEnds_jobs] at hj'
      obtain ⟨-, ho⟩ | hk := jobs_setJob hj'
      · cases ho
      · exact h.jobs k j' hk hp
    · intro m reason json sd hm
      rw [passEnds_adrift] at hm
      obtain hm | hop := had _ hm
      · exact h.adrift m reason json sd hm
      obtain ha | ⟨he, -⟩ := h.move_of_job hs hj hop
      · exact ha
      · exact absurd he hi
  | refuses q row => exact h.passes rfl rfl (fun _ _ hj => .inl hj)
  | proposes q row hdn =>
    refine h.passes rfl rfl ?_
    intro id j' hj'
    obtain ⟨-, hn⟩ | hk := jobs_setJob hj'
    · cases hn
      exact .inr (.inl rfl)
    · exact .inl hk
  | recovers hd => exact h.passes rfl rfl (fun _ _ hj => .inl hj)
  | settles q row rest hse ho =>
    refine h.passes rfl rfl ?_
    intro id j' hj'
    obtain ⟨rfl, -⟩ | hk := jobs_setJob hj'
    · exact .inr (.inr rfl)
    · exact .inl hk
  | settled hsl ho => exact h.passes rfl rfl (fun _ _ hj => .inl hj)
  | resumesIntent q i rest hrs ho =>
    refine h.passes rfl rfl ?_
    intro id j' hj'
    obtain ⟨rfl, -⟩ | hk := jobs_setJob hj'
    · exact .inr (.inr rfl)
    · exact .inl hk
  | recovered hresu ho | fails hu | stops =>
    exact h.passes rfl rfl (fun _ _ hj => .inl hj)
  | stopsRow q row rest hso ho =>
    refine h.passes rfl rfl ?_
    intro id j' hj'
    obtain ⟨rfl, -⟩ | hk := jobs_setJob hj'
    · exact .inr (.inr rfl)
    · exact .inl hk

/-- Where a proposal goes from where a restart found it. -/
def settlesTo (a : DecisionState) : List DecisionState :=
  match a with
  | .approvedPendingDispatch =>
    [.approvedPendingDispatch, .dispatchNotProven, .reconciledExecuted, .reconciledNotExecuted]
  | .dispatchStarted =>
    [.dispatchStarted, .dispatchOutcomeUnknown, .reconciledExecuted, .reconciledNotExecuted]
  | _ => []

theorem settlesTo_step {a c : DecisionState} (hb : b ∈ settlesTo a)
    (hs : b = .proposed ∨ (b = .approvedPendingDispatch ∧ c = .dispatchNotProven) ∨
      (b = .dispatchStarted ∧ c = .dispatchOutcomeUnknown) ∨
      (b.uncertain = true ∧ c ∈ [DecisionState.reconciledExecuted, .reconciledNotExecuted])) :
    c ∈ settlesTo a := by
  cases a <;> simp only [settlesTo, not_mem_nil, mem_cons, or_false] at hb ⊢
  all_goals obtain rfl | rfl | rfl | rfl := hb <;> simp_all [DecisionState.uncertain]

theorem Inherited.settles (h : s.Inherited p) (hs : Sound s) (ht : s.Stepped a s')
    {d : DecisionState} {r : Proposal} (hr : s.store.proposals.get? p = some r)
    (hd : r.decisionState ∈ settlesTo d) :
    ∃ r', s'.store.proposals.get? p = some r' ∧ r'.decisionState ∈ settlesTo d := by
  have hsm : s'.store = s.store → ∃ r', s'.store.proposals.get? p = some r' ∧
      r'.decisionState ∈ settlesTo d := fun ho => ⟨r, ho ▸ hr, hd⟩
  cases ht with
  | lands _ _ op now has hl =>
    rw [hl.store]
    obtain ⟨r', hr', -, hk | ⟨_, _, _, _, -, ha, -⟩ | hm⟩ := TierCStore.row_perform hr op now
    · exact ⟨r', hr', hk ▸ hd⟩
    · exfalso
      rw [ha] at hd
      cases d <;> simp [settlesTo] at hd
    · exact ⟨r', hr', settlesTo_step hd (h.asked hs has hm)⟩
  | resumes _ id j out hj he => exact hsm (apply_store s id out)
  | drops id j adrift hi hj had => exact hsm (by simp [setJob])
  | _ => exact hsm rfl

theorem Inherited.count_step (h : s.Inherited p) (hs : Sound s) (ht : s.Stepped a s') :
    s'.trace.count (.entered p) = s.trace.count (.entered p) := by
  cases ht with
  | lands _ _ op now has hl => rw [hl.trace]
  | resumes _ id j out hj hr =>
    rw [apply_trace]
    obtain hn | ⟨e, he, hc⟩ := events_of_resumes hr
    · rw [hn, nil_append]
    · rw [he, singleton_append, count_cons_of_ne]
      intro hen
      obtain ⟨hg, hp⟩ := hc p hen
      obtain ⟨n, rfl⟩ := hs.flow_of_stage hj (.inl hg)
      obtain hu | ha := h.jobs _ j hj hp.symm
      · simp [Job.phase, hg] at hu
      · cases ha
  | refuses q row => exact count_cons_of_ne (by simp)
  | drops id j adrift hi hj hd => simp [setJob]
  | _ => rfl

theorem settled_after_restart {t : Governed} (hs : Sound s)
    (h : Execution.run Governed.step s (.restart config :: as) = some t) (p : String) (r : Proposal)
    (hr : s.store.proposals.get? p = some r) :
    t.trace.count (.entered p) = s.trace.count (.entered p) ∧ ∀ d, r.decisionState ∈ settlesTo d →
        ∃ r', t.store.proposals.get? p = some r' ∧ r'.decisionState ∈ settlesTo d := by
  obtain ⟨u, hu, hru⟩ := Execution.run_cons_eq_some_iff.mp h
  cases hu
  have ht : ∀ v a w, (Sound v ∧ v.Inherited p ∧
      v.trace.count (.entered p) = s.trace.count (.entered p) ∧
      ∀ d, r.decisionState ∈ settlesTo d →
        ∃ r', v.store.proposals.get? p = some r' ∧ r'.decisionState ∈ settlesTo d) →
      v.step a = some w → (Sound w ∧ w.Inherited p ∧
        w.trace.count (.entered p) = s.trace.count (.entered p) ∧
        ∀ d, r.decisionState ∈ settlesTo d →
          ∃ r', w.store.proposals.get? p = some r' ∧ r'.decisionState ∈ settlesTo d) := by
    rintro v a w ⟨hv, hi, hc, hset⟩ hw
    have he := step_cases hw
    refine ⟨hv.step hw, hi.step hv he, ?_, ?_⟩
    · rw [hi.count_step hv he, hc]
    · intro d hd
      obtain ⟨r', hr', hd'⟩ := hset d hd
      exact hi.settles hv he hr' hd'
  have hi : Inherited { config := config, store := s.store, trace := s.trace } p := by
    refine ⟨⟨r, hr⟩, ?_, ?_⟩
    · exact fun id j hj => by cases hj
    · exact fun m reason json sd hm => by cases hm
  have hf := Execution.run_invariant ht ⟨hs.restart config, hi, rfl, fun d hd => ⟨r, hr, hd⟩⟩ hru
  exact ⟨hf.2.2.1, hf.2.2.2⟩

/-- Over every run of the process and its restarts, from a blank store: an act is entered at most once,
after its reply was committed under the bytes its row stands on; a record that dispatch started stands
for an act; and after a restart a proposal found there is entered no more, and one found approved or
started goes only to where it is known unproven or unknown, until an operator reconciles it. -/
theorem entered_at_most_once {config : GovernedConfig} {as : List Action}
    (h : Execution.run Governed.step { config := config } as = some s) :
    (∀ p, s.trace.count (.entered p) ≤ 1) ∧
    (∀ p older, (.entered p :: older) <:+ s.trace → ∃ b a r, .committed p b a ∈ older ∧
      s.store.proposals.get? p = some r ∧ r.bindingDigest = b ∧ r.authorityJson = a) ∧
    (∀ rec ∈ s.store.records, rec.decisionState = .dispatchStarted →
      .entered rec.proposalId ∈ s.trace) ∧
    ∀ config' bs t, Execution.run Governed.step s (.restart config' :: bs) = some t →
      ∀ p r, s.store.proposals.get? p = some r →
        t.trace.count (.entered p) = s.trace.count (.entered p) ∧
        (r.decisionState = .approvedPendingDispatch → ∃ r', t.store.proposals.get? p = some r' ∧
          r'.decisionState ∈ [DecisionState.approvedPendingDispatch, .dispatchNotProven,
            .reconciledExecuted, .reconciledNotExecuted]) ∧
        (r.decisionState = .dispatchStarted → ∃ r', t.store.proposals.get? p = some r' ∧
          r'.decisionState ∈ [DecisionState.dispatchStarted, .dispatchOutcomeUnknown,
            .reconciledExecuted, .reconciledNotExecuted]) := by
  have honce := actsOnce_of_run h
  refine ⟨honce.once, honce.consented, honce.marked, ?_⟩
  intro config' bs t hrun p r hr
  obtain ⟨hcount, hsettles⟩ := settled_after_restart (sound_of_run h) hrun p r hr
  refine ⟨hcount, ?_, ?_⟩
  · intro hstate
    exact hsettles .approvedPendingDispatch (by simp [hstate, settlesTo])
  · intro hstate
    exact hsettles .dispatchStarted (by simp [hstate, settlesTo])

def pumpConfig : GovernedConfig where
  pendingCeiling := 1
  safeDefaultAdmitted := fun _ => false

def pumpEntered : List Action :=
  [.recover, .resume, .recovered, .propose "p1" TierCLedger.pumpProposal, .lands (.flow 0) 1,
    .input (.flow 0) (.answers (.created .committed) ""), .input (.flow 0) (.reply "b1" "a1" {}),
    .lands (.flow 0) 2, .input (.flow 0) (.answers (.admitted .committed) ""),
    .input (.flow 0) (.checks .clear)]

/-- The process dies before the marker lands. -/
def pumpLost : List Action := [.recover, .recoverNext, .lands .recovery 3]

theorem pumpEntered_runs :
    (Execution.run Governed.step { config := pumpConfig } pumpEntered).isSome = true := by
  decide +kernel

theorem pumpLost_runs : (Execution.run Governed.step (Option.get _ pumpEntered_runs)
    (.restart pumpConfig :: pumpLost)).isSome = true := by
  decide +kernel

theorem entered_at_most_once_lost : ∃ s t r,
    Execution.run Governed.step { config := pumpConfig } pumpEntered = some s ∧
    Execution.run Governed.step s (.restart pumpConfig :: pumpLost) = some t ∧
    t.trace.count (.entered "p1") = 1 ∧ t.store.proposals.get? "p1" = some r ∧
    r.decisionState = .dispatchNotProven ∧
    r.decisionState ∈ [DecisionState.approvedPendingDispatch, .dispatchNotProven,
      .reconciledExecuted, .reconciledNotExecuted] := by
  have hs := (some_get pumpEntered_runs).symm
  have ht := (some_get pumpLost_runs).symm
  have hone : (Option.get _ pumpEntered_runs).trace.count (.entered "p1") = 1 := by decide +kernel
  have hfound : ((Option.get _ pumpEntered_runs).store.proposals.get? "p1").map
      (·.decisionState) = some .approvedPendingDispatch := by decide +kernel
  have hleft : ((Option.get _ pumpLost_runs).store.proposals.get? "p1").map (·.decisionState) =
      some .dispatchNotProven := by decide +kernel
  obtain ⟨r, hr, hstate⟩ := map_eq_some_iff.mp hfound
  obtain ⟨-, -, -, hrestart⟩ := entered_at_most_once hs
  obtain ⟨hcount, happroved, -⟩ := hrestart _ _ _ ht "p1" r hr
  obtain ⟨r', hr', hsettled⟩ := happroved hstate
  rw [hr'] at hleft
  exact ⟨_, _, r', hs, ht, hcount.trans hone, hr', some.inj hleft, hsettled⟩

/-- The act is entered while the record that dispatch started is still to land. -/
theorem entered_unmarked : ¬ ∀ (config : GovernedConfig) (as : List Action) (s : Governed),
    Execution.run Governed.step { config := config } as = some s →
      ∀ p, .entered p ∈ s.trace → ∃ rec ∈ s.store.records, rec.proposalId = p ∧
        rec.decisionState = .dispatchStarted := by
  intro h
  have htrace : .entered "p1" ∈ (Option.get _ pumpEntered_runs).trace := by decide +kernel
  have hrecords : ∀ rec ∈ (Option.get _ pumpEntered_runs).store.records,
      rec.decisionState ≠ .dispatchStarted := by decide +kernel
  obtain ⟨rec, hrec, -, hstarted⟩ :=
    h pumpConfig pumpEntered _ (some_get pumpEntered_runs).symm "p1" htrace
  exact hrecords rec hrec hstarted

end ActsOnce

end Governed

end OriRuntime
