import OriRuntime.TierCAtMostOnce

/-!
# An act and a safe default exclude each other

No history enters a proposal and runs its safe default. A proposal closed without a dispatch has its
intent in the state that closes it, and the intent stays pending until an attempt reported.
-/

namespace OriRuntime

open List Option

open TierCStore (Op Answer Moves)

namespace Governed

section Intents

variable {s s' : Governed} {p : String}

variable {a : Action} {i : SafeDefaultIntent} {id : JobId}

theorem Sound.created_undispatched (hs : Sound s) (hs' : Sound s') (h : s.Stepped a s')
    (hn : s.store.intents.get? p = none) (hi : s'.store.intents.get? p = some i) :
    i.outcome = .pending ∧
      ∀ rec ∈ s'.store.records, rec.proposalId = p → rec.decisionState.dispatched = false := by
  have hrc : (∃ r, s'.store.proposals.get? p = some r ∧ r.decisionState.dispatched = false) →
      ∀ rec ∈ s'.store.records, rec.proposalId = p → rec.decisionState.dispatched = false := by
    rintro ⟨r, hr, ht⟩ rec hre rfl
    by_contra hd
    obtain ⟨r', hr', ht'⟩ := hs'.history rec hre (by simpa using hd)
    obtain rfl := mem_unique hr hr'
    simp [ht] at ht'
  have hc : s'.Closed p →
      ∃ r, s'.store.proposals.get? p = some r ∧ r.decisionState.dispatched = false := by
    rintro ⟨r, hr, ht⟩
    refine ⟨r, hr, ?_⟩
    revert ht
    cases r.decisionState <;> simp [DecisionState.closedUndispatched, DecisionState.dispatched]
  have hk : s'.store = s.store → False := by
    intro hso
    rw [hso, hn] at hi
    cases hi
  cases h with
  | lands _ _ op now ha hl =>
    have hop := hs.opOk_of_asked ha
    have hstep := TierCStore.intent_perform s.store op now p
    rw [← hl.store] at hstep
    obtain hsm | ⟨action, reason, heq, -, i', hi', hp⟩ |
      ⟨-, i', hi', hp, a, b, hm, r', hr', ht, hsd, hq⟩ |
      ⟨o, -, u, _, hu, -⟩ := hstep
    · rw [hsm, hn] at hi
      cases hi
    · subst heq
      obtain rfl := mem_unique hi hi'
      refine ⟨hp, hrc ?_⟩
      obtain ho | ⟨_, _, heq, -⟩ := hop
      · have he : s.Ensurable p := ho
        obtain hc' | hin | ⟨hdn, hun⟩ := he.state
        · exact hc (hc'.landed hl (.inl ho))
        · simp [hn] at hin
        · exact hun.landed hl (.inl ho) he.barred.unentered hdn
      · cases heq
    · obtain rfl := mem_unique hi hi'
      refine ⟨hp, hrc (hc ⟨r', hr', ?_⟩)⟩
      rw [ht]
      exact closed_of_intent hop hm hsd hq
    · simp [hn] at hu
  | resumes _ id j out hj hr => exact (hk (apply_store s id out)).elim
  | drops id j adrift hid hj had => exact (hk (by simp [setJob])).elim
  | _ => exact (hk rfl).elim

theorem intent_step (h : s.Stepped a s') (hi : (s.store.intents.get? p).isSome = true) :
    (s'.store.intents.get? p).isSome = true := by
  cases h with
  | lands _ _ op now ha hl => exact hl.intent hi
  | resumes _ id j out hj hr => rwa [apply_store]
  | drops id j adrift hd hj had => simpa [setJob] using hi
  | _ => exact hi

theorem mem_pending_of {st : TierCStore} (hi : st.intents.get? p = some i)
    (hp : i.outcome = .pending) (hr : (st.proposals.get? p).isSome = true) :
    (p, i) ∈ st.getPendingTierCSafeDefaultIntents := by
  simp only [TierCStore.getPendingTierCSafeDefaultIntents, mem_mergeSort, mem_filter,
    Bool.and_eq_true, decide_eq_true_eq]
  exact ⟨Dict.get?_eq_some_iff.mp hi, hp, hr⟩

/-! ### Recovery attempts what it found pending -/

def Resuming (s : Governed) (p : String) : Prop :=
  ∃ j reason, s.jobs .recovery = some j ∧ j.proposalId = p ∧ j.stage = .ensuring reason ∧
    ∀ o, j.landed = some (.intent o) → o = .pending

/-- A pending intent recovery has still to come to. -/
structure Waits (s : Governed) (p : String) : Prop where
  pending : ∃ i, s.store.intents.get? p = some i ∧ i.outcome = .pending
  jobs : ∀ id j, s.jobs id = some j → j.proposalId = p →
    j.stage ≠ .defaulting ∧ ∀ o, j.stage ≠ .marking o
  adrift : ∀ o, .markIntent p o ∉ s.adrift
  place : s.recovery ≠ .done ∧ ∀ todo, s.recovery = .resuming todo →
    (∃ i, (p, i) ∈ todo) ∨ s.Resuming p

theorem Waits.unmarked (h : s.Waits p) {o : IntentOutcome} (ha : s.Asked (.markIntent p o)) :
    False := by
  obtain ⟨id, j, hj, ho⟩ | ho | ⟨req, heq⟩ := ha
  · unfold Job.op? at ho
    split at ho <;> simp_all
    rename_i hs
    exact (h.jobs id j hj ho.1).2 _ hs
  · exact h.adrift o ho
  · cases heq

theorem intent_of_ensure (st : TierCStore) (hi : st.intents.get? p = some i)
    (action reason : String) (now : ℤ) {o : IntentOutcome}
    (h : (st.perform now (.ensureIntent p action reason)).2 = .intent o) : o = i.outcome := by
  simp only [TierCStore.perform, TierCStore.ensureTierCSafeDefaultIntent, TierCStore.insertIntent,
    hi, isSome_some, or_true, if_true, map_some, getD_some,
    Answer.intent.injEq] at h
  exact h.symm

theorem Waits.landed (h : s.Waits p) {op : Op} {now : ℤ} (ha : s.Asked op)
    (hl : s.Landed op now s') : s'.Waits p := by
  obtain ⟨i, hi, he⟩ := h.pending
  refine ⟨?_, ?_, fun o hm => h.adrift o (hl.adrift _ hm), ?_, ?_⟩
  · rw [hl.store]
    obtain hsm | ⟨_, _, -, hn, -⟩ | ⟨hn, -⟩ | ⟨o, rfl, -⟩ :=
      TierCStore.intent_perform s.store op now p
    · exact ⟨i, hsm.trans hi, he⟩
    · simp [hi] at hn
    · simp [hi] at hn
    · exact (h.unmarked ha).elim
  · intro id j₁ hj₁ hp
    obtain ⟨j, hj, rfl | ⟨rfl, -⟩⟩ := hl.jobs id j₁ hj₁
    · exact h.jobs id j₁ hj hp
    · exact h.jobs id j hj hp
  · rw [hl.recovery]
    exact h.place.1
  · intro todo htodo
    rw [hl.recovery] at htodo
    obtain htodo' | ⟨j, reason, hj, hp, hs, hansr⟩ := h.place.2 todo htodo
    · exact .inl htodo'
    right
    obtain ⟨j₁, hj₁⟩ := isSome_iff_exists.mp (hl.kept .recovery (by rw [hj]; rfl))
    obtain ⟨j', hj', rfl | ⟨rfl, -, ceiling, hop⟩⟩ := hl.jobs _ _ hj₁
    · obtain rfl := mem_unique hj hj'
      exact ⟨j, reason, hj₁, hp, hs, hansr⟩
    · obtain rfl := mem_unique hj hj'
      refine ⟨_, reason, hj₁, hp, hs, ?_⟩
      intro o ho
      simp only [Job.op?, hs, some.injEq] at hop
      subst hop
      subst hp
      exact (intent_of_ensure s.store hi _ _ now (some.inj ho)).trans he

theorem apply_other {k : JobId} {out : Handled} (hk : k ≠ id) (hslot : ∀ n, k ≠ .background n) :
    (s.apply id out).jobs k = s.jobs k := by
  unfold apply spawn
  split_ifs <;> cases out.spawn <;> simp [setJob, hk, hslot]

theorem Waits.applied (h : s.Waits p) {j : Job} {out : Handled} (hj : s.jobs id = some j)
    (hr : Resumes id (s.held j.proposalId) j out.next out.events out.spawn out.escapes) :
    .safeDefault p ∈ out.events ∨ (s.apply id out).Waits p := by
  by_cases ha : .safeDefault p ∈ out.events
  · exact .inl ha
  right
  refine ⟨by rw [apply_store]; exact h.pending, ?_, by rw [apply_adrift]; exact h.adrift, ?_, ?_⟩
  · intro k j' hj' hp
    obtain ⟨rfl, hn⟩ | ⟨hsp, rfl⟩ | ⟨-, hk⟩ := apply_jobs hj'
    · have hs : (∃ reason, j.stage = .ensuring reason ∧
          out.events = [.safeDefault j.proposalId] ∧ j'.proposalId = j.proposalId) ∨
          (j.stage = .defaulting ∧ j'.proposalId = j.proposalId) ∨
          (j'.stage ≠ .defaulting ∧ ∀ o, j'.stage ≠ .marking o) := by
        generalize hou : out.next = next at hr hn
        generalize he : out.events = events at hr
        generalize out.spawn = spawned at hr
        generalize out.escapes = escapes at hr
        cases hr with
        | attempts reason hg =>
          cases hn
          exact .inl ⟨reason, hg, rfl, rfl⟩
        | marks hg o =>
          cases hn
          exact .inr (.inl ⟨hg, rfl⟩)
        | recloses m r ir n n' hg stage hn' =>
          cases hn
          obtain rfl | rfl := hn' <;> exact .inr (.inr ⟨nofun, nofun⟩)
        | _ =>
          cases hn <;> exact .inr (.inr ⟨nofun, nofun⟩)
      obtain ⟨reason, hg, he, hi⟩ | ⟨hg, hi⟩ | hfr := hs
      · rw [he, ← hi, hp] at ha
        exact absurd mem_cons_self ha
      · exact absurd hg (h.jobs _ j hj (hi.symm.trans hp)).1
      · exact hfr
    · obtain ⟨-, rfl, -⟩ | ⟨-, m, json, -, rfl⟩ := spawned_of_resumes hr hsp
      all_goals exact ⟨nofun, nofun⟩
    · exact h.jobs k j' hk hp
  · obtain hk | ⟨-, hf⟩ := apply_recovery s id out
    · rw [hk]
      exact h.place.1
    · simp [hf]
  · intro todo htodo
    obtain hk | ⟨-, hf⟩ := apply_recovery s id out
    · rw [hk] at htodo
      obtain htodo' | ⟨u, reason, hu, hp, hg, hansr⟩ := h.place.2 todo htodo
      · exact .inl htodo'
      by_cases hi : id = .recovery
      · subst hi
        obtain rfl := mem_unique hj hu
        exfalso
        have hc : j.phase = .closed := by simp [Job.phase, hg]
        generalize he : out.events = events at hr ha
        generalize out.next = next at hr
        generalize out.spawn = spawned at hr
        generalize out.escapes = escapes at hr
        cases hr with
        | attempts reason' hs' => simp [hp] at ha
        | leaves reason' hs' o ho hl => exact ho (hansr o hl)
        | ends hs' => exact hs' reason hg
        | _ => simp_all [Job.phase]
      · refine .inr ⟨u, reason, ?_, hp, hg, hansr⟩
        rw [apply_other (Ne.symm hi) (by simp), hu]
    · simp [hf] at htodo

theorem Waits.dropped (h : s.Waits p) {j : Job} {adrift : List Op} (hi : id ≠ .recovery)
    (hj : s.jobs id = some j)
    (ha : ∀ op ∈ adrift, op ∈ s.adrift ∨ j.op? s.config.pendingCeiling = some op) :
    ((({ s with adrift := adrift } : Governed).setJob id none).passEnds id).Waits p := by
  have hr : ((({ s with adrift := adrift } : Governed).setJob id none).passEnds id).recovery =
      s.recovery := by
    cases id with
    | recovery => exact absurd rfl hi
    | _ => rfl
  refine ⟨by simpa [setJob] using h.pending, ?_, ?_, by rw [hr]; exact h.place.1, ?_⟩
  · intro k j' hj' hp
    rw [passEnds_jobs] at hj'
    obtain ⟨-, hn⟩ | hk := jobs_setJob hj'
    · cases hn
    · exact h.jobs k j' hk hp
  · intro o hm
    rw [passEnds_adrift] at hm
    obtain hm | ho := ha _ hm
    · exact h.adrift o hm
    · exact h.unmarked (.inl ⟨id, j, hj, ho⟩)
  · intro todo htodo
    rw [hr] at htodo
    obtain htodo' | ⟨u, reason, hu, hs⟩ := h.place.2 todo htodo
    · exact .inl htodo'
    refine .inr ⟨u, reason, ?_, hs⟩
    rw [passEnds_jobs]
    simpa [setJob, Ne.symm hi] using hu

theorem Waits.passes (h : s.Waits p) (hs : s'.store = s.store) (ha : s'.adrift = s.adrift)
    (hjobs : ∀ id j', s'.jobs id = some j' → s.jobs id = some j' ∨
      (j'.stage ≠ .defaulting ∧ ∀ o, j'.stage ≠ .marking o))
    (hl : s'.recovery ≠ .done ∧ ∀ todo, s'.recovery = .resuming todo →
      (∃ i, (p, i) ∈ todo) ∨ s'.Resuming p) : s'.Waits p := by
  refine ⟨by rw [hs]; exact h.pending, ?_, by rw [ha]; exact h.adrift, hl⟩
  intro id j' hj' hp
  obtain hk | hn := hjobs id j' hj'
  · exact h.jobs id j' hk hp
  · exact hn

theorem Waits.step (h : s.Waits p) (hs : Sound s) (hrt : ∀ config, a ≠ .restart config)
    (hst : s.Stepped a s') :
    s'.Waits p ∨ s.trace.count (.safeDefault p) < s'.trace.count (.safeDefault p) := by
  cases hst with
  | restarts config => exact absurd rfl (hrt config)
  | lands _ _ op now ha hl => exact .inl (h.landed ha hl)
  | resumes _ id j out hj hr =>
    obtain ht | hw := h.applied hj hr
    · right
      rw [apply_trace, count_append]
      have hpo := count_pos_iff.mpr ht
      omega
    · exact .inl hw
  | drops id j adrift hid hj had => exact .inl (h.dropped hid hj had)
  | refuses q row => exact .inl (h.passes rfl rfl (fun _ _ hj => .inl hj) h.place)
  | proposes q row hdn => exact absurd hdn h.place.1
  | recovers hd =>
    exact .inl (h.passes rfl rfl (fun _ _ hj => .inl hj) ⟨by rintro ⟨⟩, by rintro _ ⟨⟩⟩)
  | settles q row rest hse hn =>
    refine .inl (h.passes rfl rfl ?_ ⟨by rintro ⟨⟩, by rintro _ ⟨⟩⟩)
    intro id j' hj'
    obtain ⟨rfl, ho⟩ | hk := jobs_setJob hj'
    · right
      unfold recoverRow at ho
      split at ho <;> cases ho <;> exact ⟨by rintro ⟨⟩, by rintro _ ⟨⟩⟩
    · exact .inl hk
  | settled hsl hn =>
    refine .inl (h.passes rfl rfl (fun _ _ hj => .inl hj) ⟨by rintro ⟨⟩, ?_⟩)
    rintro todo ⟨⟩
    obtain ⟨i, hi, hp⟩ := h.pending
    obtain ⟨r, hr⟩ := (hs.intent_barred p (by rw [hi]; rfl)).row
    exact .inl ⟨i, mem_pending_of hi hp (by rw [hr]; rfl)⟩
  | resumesIntent q i rest he hn =>
    refine .inl (h.passes rfl rfl ?_ ⟨by rintro ⟨⟩, ?_⟩)
    · intro id j' hj'
      obtain ⟨rfl, ho⟩ | hk := jobs_setJob hj'
      · cases ho
        exact .inr ⟨by rintro ⟨⟩, by rintro _ ⟨⟩⟩
      · exact .inl hk
    · rintro todo ⟨⟩
      obtain ⟨i', hm⟩ | ⟨u, reason, hu, -⟩ := h.place.2 _ he
      · obtain heq | hm := mem_cons.mp hm
        · right
          obtain ⟨rfl, rfl⟩ := Prod.mk.inj heq
          exact ⟨resumeJob s.config p i', _, by simp [setJob], rfl, rfl, by rintro _ ⟨⟩⟩
        · exact .inl ⟨i', hm⟩
      · simp [hn] at hu
  | recovered hresu hn =>
    exfalso
    obtain ⟨i, hm⟩ | ⟨u, reason, hu, -⟩ := h.place.2 _ hresu
    · cases hm
    · simp [hn] at hu
  | fails hun =>
    exact .inl (h.passes rfl rfl (fun _ _ hj => .inl hj) ⟨by rintro ⟨⟩, by rintro _ ⟨⟩⟩)
  | stops => exact .inl (h.passes rfl rfl (fun _ _ hj => .inl hj) h.place)
  | stopsRow q row rest hso hn =>
    refine .inl (h.passes rfl rfl ?_ ⟨h.place.1, ?_⟩)
    · intro id j' hj'
      obtain ⟨rfl, ho⟩ | hk := jobs_setJob hj'
      · cases ho
        exact .inr ⟨by rintro ⟨⟩, by rintro _ ⟨⟩⟩
      · exact .inl hk
    · intro todo htodo
      obtain htodo' | ⟨u, reason, hu, hrs⟩ := h.place.2 todo htodo
      · exact .inl htodo'
      · exact .inr ⟨u, reason, by simpa [setJob] using hu, hrs⟩

theorem count_step (h : s.Stepped a s') (e : TierCEvent) : s.trace.count e ≤ s'.trace.count e := by
  cases h with
  | lands _ _ op now ha hl => rw [hl.trace]
  | resumes _ id j out hj hr =>
    rw [apply_trace, count_append]
    omega
  | refuses q row => exact count_le_count_cons
  | drops id j adrift hi hj hd => simp [setJob]
  | _ => rfl

theorem resumed_after_restart {as : List Action} {config : GovernedConfig} {t : Governed}
    (hs : Sound s) (has : ∀ a ∈ as, ∀ c, a ≠ .restart c)
    (h : Execution.run Governed.step s (.restart config :: as) = some t)
    (hi : s.store.intents.get? p = some i) (hp : i.outcome = .pending) :
    s.trace.count (.safeDefault p) < t.trace.count (.safeDefault p) ∨ t.Waits p := by
  obtain ⟨u, hu, hr⟩ := Execution.run_cons_eq_some_iff.mp h
  cases hu
  have hstep : ∀ v a w, (Sound v ∧
      (s.trace.count (.safeDefault p) < v.trace.count (.safeDefault p) ∨
        (v.Waits p ∧ s.trace.count (.safeDefault p) = v.trace.count (.safeDefault p)))) →
      (∀ c, a ≠ Action.restart c) → v.step a = some w → (Sound w ∧
      (s.trace.count (.safeDefault p) < w.trace.count (.safeDefault p) ∨
        (w.Waits p ∧ s.trace.count (.safeDefault p) = w.trace.count (.safeDefault p)))) := by
    rintro v a w ⟨hv, ht⟩ hre hw
    have he := step_cases hw
    have hc := count_step he (.safeDefault p)
    refine ⟨hv.step hw, ?_⟩
    obtain hmr | ⟨ha, hsm⟩ := ht
    · exact .inl (lt_of_lt_of_le hmr hc)
    obtain hl | heq := Nat.lt_or_eq_of_le hc
    · exact .inl (hsm ▸ hl)
    obtain hw' | hl := ha.step hv hre he
    · exact .inr ⟨hw', hsm.trans heq⟩
    · exact .inl (hsm ▸ hl)
  have ha : Waits { config := config, store := s.store, trace := s.trace } p := by
    refine ⟨⟨i, hi, hp⟩, ?_, ?_, nofun, nofun⟩
    · exact fun id j hj => by cases hj
    · exact fun o hm => by cases hm
  obtain ⟨-, hmr | ⟨hw', -⟩⟩ := Execution.run_invariant_of_meets hstep
    ⟨hs.restart config, .inr ⟨ha, rfl⟩⟩ (Execution.meets_of_forall has _) hr
  · exact .inl hmr
  · exact .inr hw'

/-- Over every run of the process and its restarts, from a blank store: no history enters a proposal
and runs its safe default; a proposal closed without a dispatch has its one intent in every state, the
one that closed it included; an intent goes from pending only once an attempt reported, stays, and is
pending when created, for a proposal no record of which dispatched; and recovery is done only after it
attempted again every intent a restart found pending. -/
theorem act_excludes_default {config : GovernedConfig} {as : List Action}
    (h : Execution.run Governed.step { config := config } as = some s) :
    (∀ p, ¬ (.entered p ∈ s.trace ∧ .safeDefault p ∈ s.trace)) ∧
    (∀ p r, s.store.proposals.get? p = some r → r.decisionState.closedUndispatched = true →
      r.safeDefaultAction ≠ "" → ∃! i, (p, i) ∈ s.store.intents.items) ∧
    (∀ p i, s.store.intents.get? p = some i → i.outcome = .pending ∨ .reported p ∈ s.trace) ∧
    (∀ a t, s.step a = some t → ∀ p,
      ((s.store.intents.get? p).isSome = true → (t.store.intents.get? p).isSome = true) ∧
      (s.store.intents.get? p = none → ∀ i, t.store.intents.get? p = some i → i.outcome = .pending ∧
        ∀ rec ∈ t.store.records, rec.proposalId = p → rec.decisionState.dispatched = false)) ∧
    ∀ config' bs t, (∀ b ∈ bs, ∀ c, b ≠ .restart c) →
      Execution.run Governed.step s (.restart config' :: bs) = some t →
      ∀ p i, s.store.intents.get? p = some i → i.outcome = .pending →
        s.trace.count (.safeDefault p) < t.trace.count (.safeDefault p) ∨
        (t.recovery ≠ .done ∧ ∃ i', t.store.intents.get? p = some i' ∧ i'.outcome = .pending) := by
  have hs := sound_of_run h
  refine ⟨?_, ?_, ?_, ?_, ?_⟩
  · rintro p ⟨hentered, hdefaulted⟩
    exact (hs.default_barred p hdefaulted).unentered hentered
  · intro p r hr hclosed hsd
    obtain ⟨i, hi⟩ := isSome_iff_exists.mp (hs.closed_intent p r hr hclosed hsd)
    refine ⟨i, Dict.get?_eq_some_iff.mp hi, ?_⟩
    intro i' hi'
    exact mem_unique (Dict.get?_eq_some_iff.mpr hi') hi
  · intro p i hi
    by_cases hpending : i.outcome = .pending
    · exact .inl hpending
    · exact .inr (hs.reported p i hi hpending)
  · intro a t hstep p
    have hstepped := step_cases hstep
    refine ⟨intent_step hstepped, ?_⟩
    intro hnone i hi
    exact hs.created_undispatched (hs.step hstep) hstepped hnone hi
  · intro config' bs t hbs hrun p i hi hpending
    obtain hmore | hwaits := resumed_after_restart hs hbs hrun hi hpending
    · exact .inl hmore
    · exact .inr ⟨hwaits.place.1, hwaits.pending⟩

/-- A pump's proposal is turned down, and the process dies before its safe default. -/
def pumpRejected : List Action :=
  [.recover, .resume, .recovered, .propose "p1" TierCLedger.pumpProposal, .lands (.flow 0) 1,
    .input (.flow 0) (.answers (.created .committed) ""), .input (.flow 0) (.concludes true ""),
    .lands (.flow 0) 2]

def pumpResumed : List Action :=
  [.recover, .resume, .resumeNext, .lands .recovery 3, .input .recovery (.answers (.intent .pending) ""),
    .input .recovery (.defaulted true), .lands .recovery 4, .input .recovery (.answers .done ""),
    .recovered]

theorem pumpRejected_runs :
    (Execution.run Governed.step { config := pumpConfig } pumpRejected).isSome = true := by
  decide +kernel

theorem pumpResumed_runs : (Execution.run Governed.step (Option.get _ pumpRejected_runs)
    (.restart pumpConfig :: pumpResumed)).isSome = true := by
  decide +kernel

theorem act_excludes_default_resumed : ∃ s t,
    Execution.run Governed.step { config := pumpConfig } pumpRejected = some s ∧
    (∃! i, ("p1", i) ∈ s.store.intents.items) ∧ .safeDefault "p1" ∉ s.trace ∧
    Execution.run Governed.step s (.restart pumpConfig :: pumpResumed) = some t ∧
    t.recovery = .done ∧ s.trace.count (.safeDefault "p1") < t.trace.count (.safeDefault "p1") := by
  have hs := (some_get pumpRejected_runs).symm
  have ht := (some_get pumpResumed_runs).symm
  have hrow : ((Option.get _ pumpRejected_runs).store.proposals.get? "p1").map
      (fun r => (r.decisionState.closedUndispatched, r.safeDefaultAction)) =
      some (true, "log_to_dashboard") := by decide +kernel
  have hintent : ((Option.get _ pumpRejected_runs).store.intents.get? "p1").map (·.outcome) =
      some .pending := by decide +kernel
  have hnot : .safeDefault "p1" ∉ (Option.get _ pumpRejected_runs).trace := by decide +kernel
  have hdone : (Option.get _ pumpResumed_runs).recovery = .done := by decide +kernel
  obtain ⟨r, hr, hclosed⟩ := map_eq_some_iff.mp hrow
  obtain ⟨i, hi, hpending⟩ := map_eq_some_iff.mp hintent
  obtain ⟨hclosed, hsd⟩ := Prod.mk.inj hclosed
  obtain ⟨-, hone, -, -, hrestart⟩ := act_excludes_default hs
  have hbs : ∀ b ∈ pumpResumed, ∀ c, b ≠ .restart c := by
    intro b hb c
    simp only [pumpResumed, mem_cons, not_mem_nil, or_false] at hb
    rintro rfl
    simp at hb
  obtain hmore | ⟨hundone, -⟩ := hrestart _ _ _ hbs ht "p1" i hi hpending
  · exact ⟨_, _, hs, hone "p1" r hr hclosed (by simp [hsd]), hnot, ht, hdone, hmore⟩
  · exact absurd hdone hundone

end Intents

end Governed

end OriRuntime
