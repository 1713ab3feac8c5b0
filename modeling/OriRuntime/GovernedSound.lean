import OriRuntime.GovernedInvariant

/-!
# The governed workflow keeps its invariant

A coroutine resumed, cancelled or started leaves the store as it is. `Turned` says what such a step
may do to the workflows, and from it and the landings of `GovernedInvariant` every step keeps `Sound`.
-/

namespace OriRuntime

open List Option

open TierCStore (Op Answer)

namespace Governed

/-- A step that leaves the store as it is. -/
structure Turned (s s' : Governed) : Prop where
  store : s'.store = s.store
  trace : ∀ e ∈ s.trace, e ∈ s'.trace
  done : s.recovery = .done → s'.recovery = .done
  undone : s.recovery ≠ .done → s'.recovery ≠ .done ∨ s'.jobs .recovery = none
  flows : ∀ n j', s'.jobs (.flow n) = some j' → j'.phase = .unborn ∨
    ∃ j, s.jobs (.flow n) = some j ∧ j'.proposalId = j.proposalId ∧ j.phase ≠ .unborn ∧
      (j'.phase = .approved → j.phase = .approved) ∧
      (j'.phase = .listening → j.phase = .listening ∨ j.phase = .approved)
  entered : ∀ p, s'.Entered p → s.Entered p ∨ ∃ n j j', s.jobs (.flow n) = some j ∧
    j.phase = .approved ∧ j.proposalId = p ∧ s'.jobs (.flow n) = some j' ∧ j'.stage = .acting

section Turned

variable {s s' : Governed} {p : String}

theorem Turned.held (ht : s.Turned s') (p : String) : s'.held p = s.held p := by
  simp only [Governed.held, ht.store]

theorem Barred.turned (h : s.Barred p) (ht : s.Turned s') : s'.Barred p := by
  refine ⟨by rw [ht.store]; exact h.row, ?_, ?_⟩
  · intro he
    obtain he | ⟨n, j, -, hj, hh, hp, -⟩ := ht.entered p he
    · exact h.unentered he
    · exact (h.flows n j hj hp).1 hh
  · intro n j' hj' hp
    obtain hu | ⟨j, hj, hi, -, ha, hl⟩ := ht.flows n j' hj'
    · simp [hu]
    obtain ⟨hn, hd⟩ := h.flows n j hj (hi.symm.trans hp)
    refine ⟨fun hh => hn (ha hh), ?_⟩
    intro hh
    rw [ht.held]
    obtain hh | hh := hl hh
    · exact hd hh
    · exact absurd hh hn

theorem Undispatched.turned (h : s.Undispatched p) (ht : s.Turned s') : s'.Undispatched p := by
  unfold Undispatched
  rw [ht.store]
  exact h

variable {j : Job}

theorem Owned.turned (hs : Sound s) (ht : s.Turned s') {n : ℕ} {j' : Job}
    (hj : s.jobs (.flow n) = some j) (hh : j.phase ≠ .unborn)
    (hj' : s'.jobs (.flow n) = some j') (ha : j'.stage ≠ .acting)
    (hi : j'.proposalId = j.proposalId) (hd : j'.safeDefault = j.safeDefault) (h : s.Owned j) :
    s'.Owned j' := by
  refine ⟨?_, ?_, ?_⟩
  · rw [ht.store, hi, hd]
    exact h.row
  · rw [hi]
    intro he
    obtain he | ⟨k, u, u', hu, hap, hp, hu', hg⟩ := ht.entered _ he
    · exact h.unentered he
    obtain rfl := hs.unique k n u j hu hj (by simp [hap]) hh hp
    obtain rfl := mem_unique hj' hu'
    exact ha hg
  · rw [hi]
    exact h.undispatched.turned ht

theorem Ensurable.turned (h : s.Ensurable p) (ht : s.Turned s') : s'.Ensurable p := by
  refine ⟨h.barred.turned ht, ?_⟩
  obtain hc | hi | ⟨hd, hu⟩ := h.state
  · left
    unfold Closed
    rw [ht.store]
    exact hc
  · right
    left
    rw [ht.store]
    exact hi
  · exact .inr (.inr ⟨ht.done hd, hu.turned ht⟩)

theorem OpOk.turned {op : Op} (h : s.OpOk op) (ht : s.Turned s') : s'.OpOk op := by
  have ha : ∀ {q sd}, s.CarriesDefault q sd → s'.CarriesDefault q sd := by
    intro q sd hc
    unfold CarriesDefault
    rw [ht.store]
    exact hc
  cases op with
  | advance q m reason json sd =>
    cases m <;> simp only [OpOk] at h ⊢
    · exact ha h
    · exact ha h
    · exact ha h
    · exact ⟨ha h.1, h.2.turned ht⟩
    · exact ⟨ha h.1, h.2.turned ht⟩
    all_goals exact ⟨h.1, ht.trace _ h.2⟩
  | ensureIntent q action reason => exact Ensurable.turned h ht
  | markIntent q o => exact ht.trace _ h
  | create q row | admitApproval q b a c i | reconcile req => trivial

theorem Licensed.turned {b a : String} (h : s.Licensed p b a) (ht : s.Turned s') :
    s'.Licensed p b a := by
  unfold Licensed
  rw [ht.store]
  exact h

theorem Closed.turned (h : s.Closed p) (ht : s.Turned s') : s'.Closed p := by
  unfold Closed
  rw [ht.store]
  exact h

theorem FlowOk.turned (hs : Sound s) (ht : s.Turned s') {n : ℕ} (hj : s.jobs (.flow n) = some j)
    (hj' : s'.jobs (.flow n) = some j) : s'.FlowOk j := by
  have hk := hs.flow hj
  have howne : j.phase ≠ .unborn → j.stage ≠ .acting → s.Owned j → s'.Owned j :=
    fun hp ha h => h.turned hs ht hj hp hj' ha rfl rfl
  cases hg : j.stage with
  | creating row k =>
    simp only [FlowOk, hg] at hk ⊢
    refine ⟨hk.1, ?_⟩
    intro hl
    exact howne (by simp [Job.phase, hg, hl]) (by simp [hg]) (hk.2 hl)
  | listening =>
    simp only [FlowOk, hg] at hk ⊢
    exact howne (by simp [Job.phase, hg]) (by simp [hg]) hk
  | admitting b a i =>
    simp only [FlowOk, hg] at hk ⊢
    refine ⟨howne ?_ (by simp [hg]) hk.1, fun hl => (hk.2 hl).turned ht⟩
    simp only [Job.phase, hg]
    split_ifs <;> simp
  | admitted =>
    simp only [FlowOk, hg] at hk ⊢
    obtain ⟨ho, b, a, hi, hm⟩ := hk
    exact ⟨howne (by simp [Job.phase, hg]) (by simp [hg]) ho, b, a, hi.turned ht, ht.trace _ hm⟩
  | closing m r ir k | holding m r ir k =>
    simp only [FlowOk, hg] at hk ⊢
    exact ⟨hk.1, howne (by simp [Job.phase, hg]) (by simp [hg]) hk.2.1, hk.2.2.turned ht⟩
  | ensuring r =>
    simp only [FlowOk, hg] at hk ⊢
    exact ⟨howne (by simp [Job.phase, hg]) (by simp [hg]) hk.1, hk.2.turned ht⟩
  | defaulting =>
    simp only [FlowOk, hg] at hk ⊢
    exact ht.trace _ hk
  | marking o =>
    simp only [FlowOk, hg] at hk ⊢
    exact ⟨ht.trace _ hk.1, ht.trace _ hk.2⟩
  | acting =>
    simp only [FlowOk, hg] at hk ⊢
    exact ht.trace _ hk
  | starting | appending m json | settling m => simp [FlowOk, hg] at hk

theorem PassOk.turned (h : s.PassOk j) (ht : s.Turned s') : s'.PassOk j := by
  cases hs : j.stage with
  | closing m r ir k =>
    simp only [PassOk, hs] at h ⊢
    exact ⟨h.1, h.2.1, fun hl => (h.2.2 hl).turned ht⟩
  | holding m r ir k =>
    simp only [PassOk, hs] at h ⊢
    exact h
  | ensuring r =>
    simp only [PassOk, hs] at h ⊢
    exact h.turned ht
  | defaulting =>
    simp only [PassOk, hs] at h ⊢
    exact ht.trace _ h
  | marking o =>
    simp only [PassOk, hs] at h ⊢
    exact ⟨ht.trace _ h.1, ht.trace _ h.2⟩
  | _ => simp [PassOk, hs] at h

theorem JobOk.turned (hs : Sound s) (ht : s.Turned s') {id : JobId} (hj : s.jobs id = some j)
    (hj' : s'.jobs id = some j) : s'.JobOk id j := by
  have ho := hs.job id j hj
  cases id with
  | flow n => exact FlowOk.turned hs ht hj hj'
  | background n => exact ⟨ho.1, ht.trace _ ho.2⟩
  | recovery =>
    refine ⟨?_, ?_⟩
    · obtain hu | hn := ht.undone ho.1
      · exact hu
      · simp [hn] at hj'
    · obtain hpass | hg := ho.2
      · exact .inl (hpass.turned ht)
      · exact .inr hg
  | stop => exact PassOk.turned ho ht

theorem Sound.turned (hs : Sound s) (ht : s.Turned s')
    (hjobs : ∀ id j', s'.jobs id = some j' → s.jobs id = some j' ∨ s'.JobOk id j')
    (hdefa : ∀ p, s'.Defaulted p → s.Defaulted p ∨ s.Barred p)
    (ha : ∀ op ∈ s'.adrift, s.OpOk op)
    (hidle : s'.recovery ≠ .done → ∀ n, s'.jobs (.flow n) = none ∧ s'.jobs (.background n) = none)
    (hrs : ∀ todo, s'.recovery = .resuming todo →
      ∀ e ∈ todo, (s.store.intents.get? e.1).isSome = true) : Sound s' where
  entered_row := by
    intro p he
    rw [ht.store]
    obtain he | ⟨n, j, -, hj, hh, hp, -⟩ := ht.entered p he
    · exact hs.entered_row p he
    · obtain ⟨_, _, r, hr, hst, -⟩ := (hs.flow hj).approved hh
      exact ⟨r, hp ▸ hr, .inl hst⟩
  intent_barred := by
    intro p hn
    rw [ht.store] at hn
    exact (hs.intent_barred p hn).turned ht
  default_barred := by
    intro p hd
    obtain hd | hb := hdefa p hd
    · exact (hs.default_barred p hd).turned ht
    · exact hb.turned ht
  closed_intent := by
    rw [ht.store]
    exact hs.closed_intent
  reported := by
    intro p i hi hre
    rw [ht.store] at hi
    exact ht.trace _ (hs.reported p i hi hre)
  history := by
    rw [ht.store]
    exact hs.history
  job := by
    intro id j' hj'
    obtain hj | hk := hjobs id j' hj'
    · exact JobOk.turned hs ht hj hj'
    · exact hk
  unique := by
    intro n n' j₁ j₁' hj₁ hj₁' hh hp' hm
    obtain hu | ⟨j, hj, hid, hborn, -⟩ := ht.flows n j₁ hj₁
    · exact absurd hu hh
    obtain hu | ⟨j', hj', hi', hborn', -⟩ := ht.flows n' j₁' hj₁'
    · exact absurd hu hp'
    · exact hs.unique n n' j j' hj hj' hborn hborn' (by rw [← hid, ← hi', hm])
  adrift := fun op ho => (ha op ho).turned ht
  idle := hidle
  resuming := by
    rw [ht.store]
    exact hrs

end Turned

/-! ### A coroutine is resumed -/

section Fields

variable (s : Governed) (id : JobId) (h : Handled)

@[simp] theorem passEnds_store : (s.passEnds id).store = s.store := by cases id <;> rfl

@[simp] theorem passEnds_trace : (s.passEnds id).trace = s.trace := by cases id <;> rfl

@[simp] theorem passEnds_adrift : (s.passEnds id).adrift = s.adrift := by cases id <;> rfl

@[simp] theorem passEnds_jobs : (s.passEnds id).jobs = s.jobs := by cases id <;> rfl

@[simp] theorem apply_store : (s.apply id h).store = s.store := by
  unfold apply spawn
  split_ifs <;> cases h.spawn <;> simp [setJob]

@[simp] theorem apply_trace : (s.apply id h).trace = h.events ++ s.trace := by
  unfold apply spawn
  split_ifs <;> cases h.spawn <;> simp [setJob]

@[simp] theorem apply_adrift : (s.apply id h).adrift = s.adrift := by
  unfold apply spawn
  split_ifs <;> cases h.spawn <;> simp [setJob]

theorem apply_recovery : (s.apply id h).recovery = s.recovery ∨
    (id = .recovery ∧ (s.apply id h).recovery = .failed) := by
  unfold apply spawn
  split_ifs
  · cases id <;> cases h.spawn <;> simp [setJob, passEnds]
  · cases h.spawn <;> simp [setJob]

theorem apply_jobs {s : Governed} {id : JobId} {h : Handled} {k : JobId} {j' : Job}
    (hk : (s.apply id h).jobs k = some j') : (k = id ∧ h.next = some j') ∨
      (h.spawn = some j' ∧ k = .background s.jobCount) ∨ (k ≠ id ∧ s.jobs k = some j') := by
  have hjobs : (s.apply id h).jobs = h.spawn.elim (Function.update s.jobs id h.next) fun b =>
      Function.update (Function.update s.jobs id h.next) (.background s.jobCount) (some b) := by
    unfold apply spawn
    split_ifs <;> cases h.spawn <;> simp [setJob]
  rw [hjobs] at hk
  have hup : Function.update s.jobs id h.next k = some j' →
      (k = id ∧ h.next = some j') ∨ (k ≠ id ∧ s.jobs k = some j') := by
    intro hu
    by_cases hi : k = id
    · subst hi
      exact .inl ⟨rfl, by simpa using hu⟩
    · exact .inr ⟨hi, by simpa [hi] using hu⟩
  cases hs : h.spawn with
  | none =>
    simp only [hs, Option.elim_none] at hk
    obtain hn | hp := hup hk
    · exact .inl hn
    · exact .inr (.inr hp)
  | some b =>
    simp only [hs, Option.elim_some] at hk
    by_cases hslot : k = .background s.jobCount
    · subst hslot
      simp only [Function.update_self] at hk
      exact .inr (.inl ⟨by rw [hk], rfl⟩)
    · rw [Function.update_of_ne hslot] at hk
      obtain hn | hp := hup hk
      · exact .inl hn
      · exact .inr (.inr hp)

theorem apply_self (hi : ∀ n, id ≠ .background n) : (s.apply id h).jobs id = h.next := by
  unfold apply spawn
  split_ifs <;> cases h.spawn <;>
    simp [setJob, Function.update_of_ne (hi _)]

end Fields

section Resumes

variable {s : Governed} {id : JobId} {held : Option DecisionState} {j : Job} {next : Option Job}
  {events : List TierCEvent} {spawned : Option Job} {escapes : Bool} {p : String}

theorem entered_of_resumes (hr : Resumes id held j next events spawned escapes)
    (he : .entered p ∈ events) : j.stage = .admitted ∧ p = j.proposalId ∧
      next = some (j.goto .acting) := by
  cases hr <;> simp_all

theorem safeDefault_of_resumes (hr : Resumes id held j next events spawned escapes)
    (he : .safeDefault p ∈ events) : p = j.proposalId ∧ ∃ reason, j.stage = .ensuring reason := by
  cases hr <;> simp_all

theorem spawned_of_resumes (hr : Resumes id held j next events spawned escapes) {b : Job}
    (hb : spawned = some b) :
    (j.stage = .admitted ∧ b = j.background .starting ∧ .entered j.proposalId ∈ events) ∨
      (j.stage = .acting ∧ ∃ m json, m.records = true ∧ b = j.background (.appending m json)) := by
  cases hr with
  | enters hg =>
    cases hb
    exact .inl ⟨hg, rfl, by simp⟩
  | reports hg m hm json _ hs => exact .inr ⟨hg, m, json, hm, hs b hb⟩
  | _ => cases hb

variable {j' : Job} {s' : Governed}

theorem phase_of_resumes (hr : Resumes id held j next events spawned escapes)
    (hn : next = some j') : j'.phase = .unborn ∨ (j'.proposalId = j.proposalId ∧ j.phase ≠ .unborn ∧
        (j'.phase = .approved → j.phase = .approved) ∧
        (j'.phase = .listening → j.phase = .listening ∨ j.phase = .approved)) := by
  cases hr with
  | renamed row n hs hp freshId =>
    cases hn
    exact .inl (by simp [Job.phase, Job.goto])
  | listens hp reason =>
    cases hn
    refine .inr ⟨rfl, ?_, by simp [Job.phase, Job.goto], fun _ => hp⟩
    obtain hp | hp := hp <;> simp [hp]
  | asks hs binding authority ingress =>
    cases hn
    exact .inr ⟨rfl, by simp [Job.phase, hs], by simp [Job.phase, Job.goto],
      fun _ => .inl (by simp [Job.phase, hs])⟩
  | commits binding authority ingress hs hl =>
    cases hn
    have ha : j.phase = .approved := by simp [Job.phase, hs, hl]
    exact .inr ⟨rfl, by simp [ha], fun _ => ha, fun _ => .inr ha⟩
  | concludes hp m hm reason intentReason =>
    cases hn
    exact .inr ⟨rfl, by simp [hp], by simp [Job.phase, Job.close, Job.goto], fun _ => .inl hp⟩
  | finds hp reason =>
    cases hn
    exact .inr ⟨rfl, by simp [hp], by simp [Job.phase, Job.goto], fun _ => .inl hp⟩
  | declines hs m hm reason intentReason =>
    cases hn
    exact .inr ⟨rfl, by simp [Job.phase, hs], by simp [Job.phase, Job.close, Job.goto],
      by simp [Job.phase, Job.close, Job.goto]⟩
  | enters hs =>
    cases hn
    exact .inr ⟨rfl, by simp [Job.phase, hs], by simp [Job.phase, Job.goto],
      by simp [Job.phase, Job.goto]⟩
  | recloses m reason intentReason n n' hs stage hn' =>
    cases hn
    refine .inr ⟨rfl, ?_, ?_, ?_⟩
    · obtain hs | hs := hs <;> simp [Job.phase, hs]
    all_goals obtain rfl | rfl := hn' <;> simp [Job.phase, Job.goto]
  | ensures m reason intentReason n hs ht =>
    cases hn
    refine .inr ⟨rfl, ?_, by simp [Job.phase, Job.goto], by simp [Job.phase, Job.goto]⟩
    obtain hs | hs := hs <;> simp [Job.phase, hs]
  | attempts reason hs | marks hs o | retries m json hs =>
    cases hn
    exact .inr ⟨rfl, by simp [Job.phase, hs], by simp [Job.phase, Job.goto],
      by simp [Job.phase, Job.goto]⟩
  | _ => cases hn

theorem Sound.flow_of_stage (hs : Sound s) (hj : s.jobs id = some j)
    (hg : j.stage = .admitted ∨ j.stage = .acting) : ∃ n, id = .flow n := by
  have ho := hs.job id j hj
  cases id with
  | flow n => exact ⟨n, rfl⟩
  | background n =>
    obtain ⟨hs' | ⟨_, _, hs', -⟩, -⟩ := ho
    all_goals simp [hs'] at hg
  | recovery =>
    obtain ⟨-, ho | hs' | hs'⟩ := ho
    · obtain hg | hg := hg <;> simp [PassOk, hg] at ho
    all_goals simp [hs'] at hg
  | stop => obtain hg | hg := hg <;> simp [JobOk, PassOk, hg] at ho

theorem Sound.turned_resumes (hs : Sound s) (hj : s.jobs id = some j) {out : Handled}
    (hr : Resumes id (s.held j.proposalId) j out.next out.events out.spawn out.escapes) :
    s.Turned (s.apply id out) where
  store := apply_store s id out
  trace := by
    intro e he
    rw [apply_trace]
    exact mem_append_right _ he
  done := by
    intro hd
    obtain hk | ⟨rfl, -⟩ := apply_recovery s id out
    · rw [hk, hd]
    · exact absurd hd (hs.job .recovery j hj).1
  undone := by
    intro hd
    obtain hk | ⟨-, hf⟩ := apply_recovery s id out
    · exact .inl (by rw [hk]; exact hd)
    · exact .inl (by simp [hf])
  flows := by
    intro n j' hj'
    obtain ⟨rfl, hx⟩ | ⟨-, hslot⟩ | ⟨-, hk⟩ := apply_jobs hj'
    · obtain hu | hp := phase_of_resumes hr hx
      · exact .inl hu
      · exact .inr ⟨j, hj, hp⟩
    · cases hslot
    · by_cases hu : j'.phase = .unborn
      · exact .inl hu
      · exact .inr ⟨j', hk, rfl, hu, fun h => h, fun h => .inl h⟩
  entered := by
    intro p hn
    simp only [Entered, apply_trace, mem_append] at hn
    obtain hn | hn := hn
    · obtain ⟨hg, rfl, hx⟩ := entered_of_resumes hr hn
      obtain ⟨n, rfl⟩ := hs.flow_of_stage hj (.inl hg)
      refine .inr ⟨n, j, j.goto .acting, hj, by simp [Job.phase, hg], rfl, ?_, rfl⟩
      rw [apply_self _ _ _ (by simp), hx]
    · exact .inl hn

theorem Sound.barred_given_up (hs : Sound s) (ht : s.Turned s') {n : ℕ}
    (hj : s.jobs (.flow n) = some j) (ho : s.Owned j) (hborn : j.phase ≠ .unborn)
    (hj' : s'.jobs (.flow n) = some j') (hh : j'.phase = .closed) : s'.Barred j.proposalId := by
  obtain ⟨r, hr, -⟩ := ho.row
  refine ⟨⟨r, by rw [ht.store]; exact hr⟩, ?_, ?_⟩
  · intro he
    obtain he | ⟨k, u, u', hu, ha, hp, hu', hg⟩ := ht.entered _ he
    · exact ho.unentered he
    obtain rfl := hs.unique k n u j hu hj (by simp [ha]) hborn hp
    obtain rfl := mem_unique hj' hu'
    simp [Job.phase, hg] at hh
  · intro k u' hu' hp
    obtain hn | ⟨u, hu, hi, hborn', -⟩ := ht.flows k u' hu'
    · simp [hn]
    obtain rfl := hs.unique k n u j hu hj hborn' hborn (by rw [← hi, hp])
    obtain rfl := mem_unique hj' hu'
    simp [hh]

theorem Sound.flow_resumed (hs : Sound s) (ht : s.Turned s') {n : ℕ}
    (hj : s.jobs (.flow n) = some j) (hr : Resumes (.flow n) held j next events spawned escapes)
    (htr : ∀ e ∈ events, e ∈ s'.trace) (hn : next = some j')
    (hj' : s'.jobs (.flow n) = some j') : s'.FlowOk j' := by
  have hk := hs.flow hj
  have howne : j.phase ≠ .unborn → j'.stage ≠ .acting → j'.proposalId = j.proposalId →
      j'.safeDefault = j.safeDefault → s.Owned j → s'.Owned j' :=
    fun hborn ha hi hd h => h.turned hs ht hj hborn hj' ha hi hd
  cases hr with
  | renamed row k hg hp freshId =>
    cases hn
    simp only [FlowOk, hg] at hk
    exact ⟨hk.1, fun h => by cases h⟩
  | listens hp reason =>
    cases hn
    refine howne ?_ (fun h => by cases h) rfl rfl (hk.owned hp)
    obtain hp | hp := hp <;> simp [hp]
  | asks hg binding authority ingress =>
    cases hn
    have hp : j.phase = .listening := by simp [Job.phase, hg]
    exact ⟨howne (by simp [hp]) (fun h => by cases h) rfl rfl (hk.owned (.inl hp)),
      fun h => by cases h⟩
  | commits binding authority ingress hg hl =>
    cases hn
    have hp : j.phase = .approved := by simp [Job.phase, hg, hl]
    have ho := hk.owned (.inr hp)
    simp only [FlowOk, hg] at hk
    exact ⟨howne (by simp [hp]) (fun h => by cases h) rfl rfl ho, binding, authority,
      (hk.2 hl).turned ht, htr _ (by simp [Job.goto])⟩
  | concludes hp m hm reason intentReason =>
    cases hn
    have ho := hk.owned (.inl hp)
    have hb := hs.barred_given_up ht hj ho (by simp [hp]) hj' rfl
    refine ⟨?_, howne (by simp [hp]) (fun h => by cases h) rfl rfl ho, hb⟩
    obtain rfl | rfl := hm <;> rfl
  | finds hp reason =>
    cases hn
    have ho := hk.owned (.inl hp)
    have hb := hs.barred_given_up ht hj ho (by simp [hp]) hj' rfl
    exact ⟨howne (by simp [hp]) (fun h => by cases h) rfl rfl ho, hb⟩
  | declines hg m hm reason intentReason =>
    cases hn
    have hp : j.phase = .approved := by simp [Job.phase, hg]
    have ho := hk.owned (.inr hp)
    have hb := hs.barred_given_up ht hj ho (by simp [hp]) hj' rfl
    refine ⟨?_, howne (by simp [hp]) (fun h => by cases h) rfl rfl ho, hb⟩
    obtain rfl | rfl := hm <;> rfl
  | enters hg =>
    cases hn
    exact htr _ (by simp [Job.goto])
  | recloses m reason intentReason k k' hg stage hs' =>
    cases hn
    have hc : m.closes = true ∧ s.Owned j ∧ s.Barred j.proposalId := by
      obtain hg | hg := hg <;> simpa only [FlowOk, hg] using hk
    have hborn : j.phase ≠ .unborn := by
      obtain hg | hg := hg <;> simp [Job.phase, hg]
    have ha : stage ≠ .acting := by obtain rfl | rfl := hs' <;> simp
    have ho : s'.Owned (j.goto stage) := howne hborn ha rfl rfl hc.2.1
    obtain rfl | rfl := hs'
    all_goals exact ⟨hc.1, ho, hc.2.2.turned ht⟩
  | ensures m reason intentReason k hg htk =>
    cases hn
    have hc : m.closes = true ∧ s.Owned j ∧ s.Barred j.proposalId := by
      obtain hg | hg := hg <;> simpa only [FlowOk, hg] using hk
    have hborn : j.phase ≠ .unborn := by
      obtain hg | hg := hg <;> simp [Job.phase, hg]
    exact ⟨howne hborn (fun h => by cases h) rfl rfl hc.2.1, hc.2.2.turned ht⟩
  | attempts reason hg =>
    cases hn
    exact htr _ (by simp [Job.goto])
  | marks hg o =>
    cases hn
    simp only [FlowOk, hg] at hk
    exact ⟨ht.trace _ hk, htr _ (by simp [Job.goto])⟩
  | retries m json hg => simp [FlowOk, hg] at hk
  | _ => cases hn

theorem next_of_aside (hr : Resumes id held j next events spawned escapes)
    (ha : j.phase = .aside) : next = none ∨
      ∃ m json, j.stage = .appending m json ∧ next = some (j.goto (.appending m json)) := by
  cases hr with
  | retries m json hs => exact .inr ⟨m, json, hs, rfl⟩
  | renamed row k hs hp freshId | listens hp reason => simp [ha] at hp
  | asks hs binding authority ingress => simp [Job.phase, hs] at ha
  | commits binding authority ingress hs hl => simp [Job.phase, hs, hl] at ha
  | concludes hp m hm reason intentReason | finds hp reason => simp [ha] at hp
  | declines hs m hm reason intentReason | enters hs => simp [Job.phase, hs] at ha
  | recloses m reason intentReason k k' hs stage hs'
  | ensures m reason intentReason k hs ht =>
    obtain hs | hs := hs <;> simp [Job.phase, hs] at ha
  | attempts reason hs | marks hs o => simp [Job.phase, hs] at ha
  | _ => exact .inl rfl

theorem TaskOk.resumed (h : s.TaskOk j) (ht : s.Turned s')
    (hr : Resumes id held j next events spawned escapes) (hn : next = some j') :
    s'.TaskOk j' := by
  obtain ⟨hs', he⟩ := h
  have ha : j.phase = .aside := by
    obtain hs' | ⟨m, json, hs', -⟩ := hs' <;> simp [Job.phase, hs']
  obtain ho | ⟨m, json, hs, hre⟩ := next_of_aside hr ha
  · simp [ho] at hn
  rw [hre] at hn
  cases hn
  obtain hs' | ⟨m', json', hs', hm⟩ := hs'
  · simp [hs] at hs'
  rw [hs] at hs'
  cases hs'
  exact ⟨.inr ⟨m, json, rfl, hm⟩, ht.trace _ he⟩

theorem Sound.pass_resumed (hs : Sound s) (ht : s.Turned s') (h : s.PassOk j)
    (ha : id.aborts = true)
    (hr : Resumes id (s.held j.proposalId) j next events spawned escapes)
    (htr : ∀ e ∈ events, e ∈ s'.trace) (hn : next = some j') : s'.PassOk j' := by
  have hp : j.phase = .closed := by
    cases hg : j.stage <;> simp_all [PassOk, Job.phase]
  cases hr with
  | recloses m reason intentReason k k' hg stage hs' =>
    cases hn
    have hc : m = .abortRestart ∧ j.safeDefault ≠ "" := by
      obtain hg | hg := hg
      · simp only [PassOk, hg] at h
        exact ⟨h.1, h.2.1⟩
      · simpa only [PassOk, hg] using h
    obtain rfl | rfl := hs'
    · exact ⟨hc.1, hc.2, fun h => by cases h⟩
    · exact hc
  | ensures m reason intentReason k hg hk =>
    cases hn
    have hcl : s.Closed j.proposalId := by
      obtain ⟨hg, hl⟩ | hh := hk ha
      · simp only [PassOk, hg] at h
        exact h.2.2 hl
      · have hm : m = .abortRestart := by
          obtain hg | hg := hg
          all_goals
            simp only [PassOk, hg] at h
            exact h.1
        subst hm
        obtain ⟨r, hr, hst⟩ := map_eq_some_iff.mp hh
        exact ⟨r, hr, by rw [hst]; rfl⟩
    exact Ensurable.turned ⟨hs.barred_of_closed hcl, .inl hcl⟩ ht
  | attempts reason hg =>
    cases hn
    exact htr _ (by simp [Job.goto])
  | marks hg o =>
    cases hn
    simp only [PassOk, hg] at h
    exact ⟨ht.trace _ h, htr _ (by simp [Job.goto])⟩
  | renamed row k hg hp' freshId | listens hp' reason => simp [hp] at hp'
  | asks hg binding authority ingress => simp [Job.phase, hg] at hp
  | commits binding authority ingress hg hl => simp [Job.phase, hg, hl] at hp
  | concludes hp' m hm reason intentReason | finds hp' reason => simp [hp] at hp'
  | declines hg m hm reason intentReason | enters hg | retries m json hg =>
    simp [Job.phase, hg] at hp
  | _ => cases hn

theorem Sound.job_resumed (hs : Sound s) (ht : s.Turned s') (hj : s.jobs id = some j)
    (hr : Resumes id (s.held j.proposalId) j next events spawned escapes)
    (htr : ∀ e ∈ events, e ∈ s'.trace) (hn : next = some j') (hj' : s'.jobs id = some j') :
    s'.JobOk id j' := by
  have ho := hs.job id j hj
  cases id with
  | flow n => exact hs.flow_resumed ht hj hr htr hn hj'
  | background n => exact TaskOk.resumed ho ht hr hn
  | recovery =>
    obtain ⟨hd, ho⟩ := ho
    have hd' : s'.recovery ≠ .done := by
      obtain hd' | hno := ht.undone hd
      · exact hd'
      · simp [hno] at hj'
    obtain ho | hg := ho
    · exact ⟨hd', .inl (hs.pass_resumed ht ho rfl hr htr hn)⟩
    exfalso
    have ha : j.phase = .aside := by
      obtain hg | hg := hg <;> simp [Job.phase, hg]
    obtain hno | ⟨m, json, hs', -⟩ := next_of_aside hr ha
    · simp [hno] at hn
    · simp [hs'] at hg
  | stop => exact hs.pass_resumed ht ho rfl hr htr hn

theorem Sound.applied (hs : Sound s) (hj : s.jobs id = some j) {out : Handled}
    (hr : Resumes id (s.held j.proposalId) j out.next out.events out.spawn out.escapes) :
    Sound (s.apply id out) := by
  have ht := hs.turned_resumes hj hr
  have htr : ∀ e ∈ out.events, e ∈ (s.apply id out).trace := by
    intro e he
    rw [apply_trace]
    exact mem_append_left _ he
  refine hs.turned ht ?_ ?_ ?_ ?_ ?_
  · intro k j' hj'
    obtain ⟨rfl, hx⟩ | ⟨hp, rfl⟩ | ⟨-, hk⟩ := apply_jobs hj'
    · exact .inr (hs.job_resumed ht hj hr htr hx hj')
    · right
      obtain ⟨-, rfl, hen⟩ | ⟨hg, m, json, hm, rfl⟩ := spawned_of_resumes hr hp
      · exact ⟨.inl rfl, htr _ hen⟩
      obtain ⟨n, rfl⟩ := hs.flow_of_stage hj (.inr hg)
      refine ⟨.inr ⟨m, json, rfl, hm⟩, ht.trace _ ?_⟩
      exact (hs.flow hj).entered (by simp [Job.phase, hg])
    · exact .inl hk
  · intro p hd
    simp only [Defaulted, apply_trace, mem_append] at hd
    obtain hv | hb := hd
    · right
      obtain ⟨rfl, reason, hg⟩ := safeDefault_of_resumes hr hv
      have ho := hs.job id j hj
      cases id with
      | flow n => exact hs.barred_of_flow hj (by simp [Job.phase, hg])
      | background n =>
        obtain ⟨hs' | ⟨_, _, hs', -⟩, -⟩ := ho
        all_goals simp [hs'] at hg
      | recovery =>
        obtain ⟨-, ho | hs' | hs'⟩ := ho
        · simp only [PassOk, hg] at ho
          exact ho.barred
        all_goals simp [hs'] at hg
      | stop =>
        simp only [JobOk, PassOk, hg] at ho
        exact ho.barred
    · exact .inl hb
  · intro op hop
    rw [apply_adrift] at hop
    exact hs.adrift op hop
  · intro hdn n
    have hd' : s.recovery ≠ .done := fun h => hdn (ht.done h)
    obtain ⟨hflow, htk⟩ := hs.idle hd' n
    have hn : ∀ k, id ≠ .flow k := by
      rintro k rfl
      simp [(hs.idle hd' k).1] at hj
    refine ⟨?_, ?_⟩
    · rw [eq_none_iff_forall_ne_some]
      intro j' hj'
      obtain ⟨hi, -⟩ | ⟨-, hslot⟩ | ⟨-, hk⟩ := apply_jobs hj'
      · exact hn n hi.symm
      · cases hslot
      · simp [hflow] at hk
    · rw [eq_none_iff_forall_ne_some]
      intro j' hj'
      obtain ⟨rfl, -⟩ | ⟨hp, -⟩ | ⟨-, hk⟩ := apply_jobs hj'
      · simp [htk] at hj
      · have hg : j.stage = .admitted ∨ j.stage = .acting := by
          obtain ⟨hg, -⟩ | ⟨hg, -⟩ := spawned_of_resumes hr hp
          · exact .inl hg
          · exact .inr hg
        obtain ⟨k, rfl⟩ := hs.flow_of_stage hj hg
        exact hn k rfl
      · simp [htk] at hk
  · intro todo hre
    obtain hk | ⟨-, hf⟩ := apply_recovery s id out
    · exact hs.resuming todo (hk ▸ hre)
    · simp [hf] at hre

end Resumes

/-! ### Every step -/

section Steps

variable {s s' : Governed}

def Asked (s : Governed) (op : Op) : Prop :=
  (∃ id j, s.jobs id = some j ∧ j.op? s.config.pendingCeiling = some op) ∨ op ∈ s.adrift ∨
    ∃ req, op = .reconcile req

variable {op : Op}

theorem Sound.opOk_of_asked (hs : Sound s) (h : s.Asked op) : s.OpOk op ∨ s.Recovers op := by
  obtain ⟨id, j, hj, ho⟩ | ho | ⟨req, rfl⟩ := h
  · obtain hk | ⟨-, hr⟩ := hs.opOk hj ho
    · exact .inl hk
    · exact .inr hr
  · exact .inl (hs.adrift op ho)
  · exact .inl trivial

/-- What a step can do. -/
inductive Stepped (s : Governed) : Action → Governed → Prop
  | restarts (config : GovernedConfig) :
      Stepped s (.restart config) { config := config, store := s.store, trace := s.trace }
  | lands (a : Action) (s' : Governed) (op : Op) (now : ℤ) (hasked : s.Asked op)
      (hl : s.Landed op now s') : Stepped s a s'
  | resumes (a : Action) (id : JobId) (j : Job) (out : Handled) (hj : s.jobs id = some j)
      (hr : Resumes id (s.held j.proposalId) j out.next out.events out.spawn out.escapes) :
      Stepped s a (s.apply id out)
  | drops (id : JobId) (j : Job) (adrift : List Op) (hid : id ≠ .recovery) (hj : s.jobs id = some j)
      (hadrift : ∀ op ∈ adrift, op ∈ s.adrift ∨ j.op? s.config.pendingCeiling = some op) :
      Stepped s (.cancels id)
        ((({ s with adrift := adrift } : Governed).setJob id none).passEnds id)
  | refuses (p : String) (row : ProposalFields) :
      Stepped s (.propose p row) { s with trace := .unboundDefault :: s.trace }
  | proposes (p : String) (row : ProposalFields) (hdone : s.recovery = .done) :
      Stepped s (.propose p row) (s.spawn .flow (some (proposeJob p row)))
  | recovers (hdue : s.recovery = .due) : Stepped s .recover
      { s with recovery := .settling (s.store.getTierCProposals recoveryStates) }
  | settles (p : String) (row : Proposal) (rest : List (String × Proposal))
      (hsettling : s.recovery = .settling ((p, row) :: rest)) (hnone : s.jobs .recovery = none) :
      Stepped s .recoverNext
        ({ s with recovery := .settling rest }.setJob .recovery (recoverRow s.config p row))
  | settled (hsettled : s.recovery = .settling []) (hnone : s.jobs .recovery = none) :
      Stepped s .resume { s with recovery := .resuming s.store.getPendingTierCSafeDefaultIntents }
  | resumesIntent (p : String) (i : SafeDefaultIntent) (rest : List (String × SafeDefaultIntent))
      (hresuming : s.recovery = .resuming ((p, i) :: rest)) (hnone : s.jobs .recovery = none) :
      Stepped s .resumeNext
        ({ s with recovery := .resuming rest }.setJob .recovery (some (resumeJob s.config p i)))
  | recovered (hresumed : s.recovery = .resuming []) (hnone : s.jobs .recovery = none) :
      Stepped s .recovered { s with recovery := .done }
  | fails (hundone : s.recovery ≠ .done) : Stepped s .recoveryFails { s with recovery := .failed }
  | stops : Stepped s .stop { s with stopping := s.store.getTierCProposals [.proposed] }
  | stopsRow (p : String) (row : Proposal) (rest : List (String × Proposal))
      (hstopping : s.stopping = (p, row) :: rest) (hnone : s.jobs .stop = none) :
      Stepped s .stopNext
        ({ s with stopping := rest }.setJob .stop
          (some (abortJob s.config p row "graceful_shutdown")))

theorem cancel_cases (s : Governed) (id : JobId) (j : Job) :
    (j.stage = .acting ∧ ∃ json, s.cancel id j =
      s.apply id (recordOutcome s.config.pendingCeiling s.live j .recordUnknown json)) ∨
    ∃ adrift : List Op, (∀ op ∈ adrift, op ∈ s.adrift ∨ j.op? s.config.pendingCeiling = some op) ∧
      s.cancel id j = (({ s with adrift := adrift } : Governed).setJob id none).passEnds id := by
  have ha : ∀ op ∈ (if j.landed.isNone then
      s.adrift ++ (j.op? s.config.pendingCeiling).toList else s.adrift),
      op ∈ s.adrift ∨ j.op? s.config.pendingCeiling = some op := by
    intro op ho
    split_ifs at ho
    · simpa using ho
    · exact .inl ho
  cases hs : j.stage with
  | acting =>
    refine .inl ⟨rfl, "\x7b\"interrupted\": true\x7d", ?_⟩
    simp only [cancel, hs, Job.op?, toList_none, append_nil, ite_self]
  | _ => exact .inr ⟨_, ha, by simp only [cancel, hs]⟩

theorem landed_self {id : JobId} {j : Job} (now : ℤ) (hj : s.jobs id = some j)
    (hl : j.landed = none) (ho : j.op? s.config.pendingCeiling = some op) :
    s.Landed op now (({ s with store := (s.store.perform now op).1 } : Governed).setJob id
      (some { j with landed := some (s.store.perform now op).2 })) := by
  refine ⟨rfl, rfl, rfl, fun _ h => h, ?_, ?_, ?_⟩
  · intro k j₁ hj₁
    by_cases hk : k = id
    · subst hk
      simp only [setJob, Function.update_self, some.injEq] at hj₁
      exact ⟨j, hj, .inr ⟨hj₁.symm, hl, _, ho⟩⟩
    · simp only [setJob, Function.update_of_ne hk] at hj₁
      exact ⟨j₁, hj₁, .inl rfl⟩
  · have hself : ∀ k, (({ s with store := (s.store.perform now op).1 } : Governed).setJob id
        (some { j with landed := some (s.store.perform now op).2 })).jobs k ≠ s.jobs k → k = id := by
      intro k hn
      by_contra hk
      simp [setJob, hk] at hn
    intro k k' hk hk'
    rw [hself k hk, hself k' hk']
  · intro k hs
    by_cases hk : k = id
    · simp [setJob, hk]
    · simpa [setJob, hk] using hs

theorem landed_adrift (now : ℤ) (hs : s'.store = (s.store.perform now op).1)
    (ht : s'.trace = s.trace) (hr : s'.recovery = s.recovery) (hjobs : s'.jobs = s.jobs)
    (ha : ∀ op' ∈ s'.adrift, op' ∈ s.adrift) : s.Landed op now s' := by
  refine ⟨hs, ht, hr, ha, ?_, ?_, ?_⟩
  · intro id j hj
    rw [hjobs] at hj
    exact ⟨j, hj, .inl rfl⟩
  · intro id id' hn
    exact absurd (congrFun hjobs id) hn
  · intro id ho
    rw [hjobs]
    exact ho

theorem step_cases {a : Action} (h : s.step a = some s') : s.Stepped a s' := by
  cases a with
  | restart config =>
    cases h
    exact .restarts config
  | recover =>
    simp only [step] at h
    split_ifs at h with hd
    cases h
    exact .recovers hd
  | recoverNext =>
    simp only [step] at h
    split at h
    · rename_i p row rest he hn
      cases h
      exact .settles p row rest he hn
    · cases h
  | resume =>
    simp only [step] at h
    split_ifs at h with hs
    cases h
    exact .settled hs.1 hs.2
  | resumeNext =>
    simp only [step] at h
    split at h
    · rename_i p i rest hresu hn
      cases h
      exact .resumesIntent p i rest hresu hn
    · cases h
  | recovered =>
    simp only [step] at h
    split_ifs at h with hr
    cases h
    exact .recovered hr.1 hr.2
  | recoveryFails =>
    simp only [step] at h
    split_ifs at h with hopen
    cases h
    refine .fails ?_
    obtain hd | ⟨hs, -⟩ := hopen
    · simp [hd]
    · simp [hs]
  | stop =>
    simp only [step] at h
    split_ifs at h
    cases h
    exact .stops
  | stopNext =>
    simp only [step] at h
    split at h
    · rename_i p row rest ht hn
      cases h
      exact .stopsRow p row rest ht hn
    · cases h
  | propose p row =>
    simp only [step] at h
    split at h
    · rename_i hdn
      split_ifs at h
      · cases h
        exact .refuses p row
      · cases h
        exact .proposes p row hdn
    · cases h
      exact .refuses p row
    · cases h
  | lands id now =>
    simp only [step] at h
    split at h
    · cases h
    rename_i j hj
    split at h
    · rename_i op hl hp
      cases h
      exact .lands _ _ op now (.inl ⟨id, j, hj, hp⟩) (landed_self now hj hl hp)
    · cases h
  | input id i =>
    simp only [step] at h
    split at h
    · cases h
    rename_i j hj
    obtain ⟨out, ho, rfl⟩ := map_eq_some_iff.mp h
    exact .resumes _ id j out hj (Job.handle_resumes ho)
  | cancels id =>
    simp only [step] at h
    split_ifs at h with hi
    obtain ⟨j, hj, rfl⟩ := map_eq_some_iff.mp h
    obtain ⟨hac, json, hc⟩ | ⟨adrift, ha, hc⟩ := cancel_cases s id j
    · rw [hc]
      have hrc : Move.recordUnknown.records = true := rfl
      exact .resumes _ id j _ hj (Job.resumes_recordOutcome hac hrc json)
    · rw [hc]
      exact .drops id j adrift hi hj ha
  | drifts op now =>
    simp only [step] at h
    split_ifs at h with hp
    cases h
    exact .lands _ _ op now (.inr (.inl hp))
      (landed_adrift now rfl rfl rfl rfl (fun _ h => mem_of_mem_erase h))
  | reconcile req now =>
    cases h
    exact .lands _ _ (.reconcile req) now (.inr (.inr ⟨req, rfl⟩))
      (landed_adrift now rfl rfl rfl rfl (fun _ h => h))

theorem turned_of_flows (hs : s'.store = s.store)
    (ht : s'.trace = s.trace ∨ s'.trace = .unboundDefault :: s.trace)
    (hd : s.recovery = .done → s'.recovery = .done)
    (hn : s.recovery ≠ .done → s'.recovery ≠ .done ∨ s'.jobs .recovery = none)
    (hf : ∀ n j', s'.jobs (.flow n) = some j' → s.jobs (.flow n) = some j' ∨
      j'.phase = .unborn) : s.Turned s' where
  store := hs
  trace := by
    intro e he
    obtain ht | ht := ht
    · rw [ht]
      exact he
    · rw [ht]
      exact mem_cons_of_mem _ he
  done := hd
  undone := hn
  flows := by
    intro n j' hj'
    by_cases hborn : j'.phase = .unborn
    · exact .inl hborn
    obtain hj | hu := hf n j' hj'
    · exact .inr ⟨j', hj, rfl, hborn, fun h => h, fun h => .inl h⟩
    · exact absurd hu hborn
  entered := by
    obtain ht | ht := ht <;> simp_all [Entered]

theorem Sound.restart (hs : Sound s) (config : GovernedConfig) :
    Sound { config := config, store := s.store, trace := s.trace } where
  entered_row := hs.entered_row
  intent_barred := by
    intro p hi
    have hb := hs.intent_barred p hi
    exact { hb with flows := fun n j hj => by cases hj }
  default_barred := by
    intro p hd
    have hb := hs.default_barred p hd
    exact { hb with flows := fun n j hj => by cases hj }
  closed_intent := hs.closed_intent
  reported := hs.reported
  history := hs.history
  job := fun id j hj => by cases hj
  unique := fun n n' j j' hj => by cases hj
  adrift := fun op ho => by cases ho
  idle := fun _ _ => ⟨rfl, rfl⟩
  resuming := fun todo h => by cases h

theorem admittedDefault_ne (c : GovernedConfig) {action : String} (h : action ≠ "") :
    c.admittedDefault action ≠ "" := by
  unfold GovernedConfig.admittedDefault
  split_ifs
  · exact h
  · simp [defaultSafeDefaultAction]

theorem passOk_abortJob (c : GovernedConfig) (p : String) (row : Proposal) (reason : String) :
    s.PassOk (abortJob c p row reason) := by
  refine ⟨rfl, ?_, nofun⟩
  apply admittedDefault_ne
  split_ifs with he
  · simp [defaultSafeDefaultAction]
  · exact he

theorem Sound.dropped (hs : Sound s) (hst : s'.store = s.store) (htr : s'.trace = s.trace)
    (hr : s'.recovery = s.recovery)
    (hjobs : ∀ k j, s'.jobs k = some j → s.jobs k = some j)
    (ha : ∀ op ∈ s'.adrift, s.OpOk op) : Sound s' := by
  have ht : s.Turned s' := by
    refine turned_of_flows hst (.inl htr) ?_ ?_ (fun n j' hj' => .inl (hjobs _ _ hj'))
    · rw [hr]
      exact fun h => h
    · rw [hr]
      exact fun h => .inl h
  refine hs.turned ht (fun k j' hj' => .inl (hjobs k j' hj')) ?_ ha ?_ ?_
  · intro p hd
    simp only [Defaulted, htr] at hd
    exact .inl hd
  · intro hn n
    rw [hr] at hn
    obtain ⟨hflow, hk⟩ := hs.idle hn n
    refine ⟨?_, ?_⟩
    · rw [eq_none_iff_forall_ne_some]
      intro j' hj'
      simpa [hflow] using hjobs _ _ hj'
    · rw [eq_none_iff_forall_ne_some]
      intro j' hj'
      simpa [hk] using hjobs _ _ hj'
  · rw [hr]
    exact hs.resuming

theorem mem_pending {st : TierCStore} {e : String × SafeDefaultIntent}
    (he : e ∈ st.getPendingTierCSafeDefaultIntents) :
    st.intents.get? e.1 = some e.2 ∧ e.2.outcome = .pending ∧
      (st.proposals.get? e.1).isSome = true := by
  simp only [TierCStore.getPendingTierCSafeDefaultIntents, mem_mergeSort, mem_filter,
    Bool.and_eq_true, decide_eq_true_eq] at he
  exact ⟨Dict.get?_eq_some_iff.mpr he.1, he.2⟩

theorem Sound.passes (hs : Sound s) (hst : s'.store = s.store) (htr : s'.trace = s.trace)
    (ha : s'.adrift = s.adrift) (hn : s.recovery = .done → s'.recovery = .done)
    (hu : s.recovery ≠ .done → s'.recovery ≠ .done ∨ s'.jobs .recovery = none)
    (hf : ∀ n, s'.jobs (.flow n) = s.jobs (.flow n) ∧
      s'.jobs (.background n) = s.jobs (.background n))
    (hjobs : s.Turned s' → ∀ id j', s'.jobs id = some j' → s.jobs id = some j' ∨ s'.JobOk id j')
    (hr : ∀ todo, s'.recovery = .resuming todo →
      ∀ e ∈ todo, (s.store.intents.get? e.1).isSome = true) : Sound s' := by
  have ht : s.Turned s' := by
    refine turned_of_flows hst (.inl htr) hn hu ?_
    intro n j' hj'
    exact .inl ((hf n).1 ▸ hj')
  refine hs.turned ht (hjobs ht) ?_ ?_ ?_ hr
  · intro p hd
    simp only [Defaulted, htr] at hd
    exact .inl hd
  · rw [ha]
    exact hs.adrift
  · intro he n
    rw [(hf n).1, (hf n).2]
    exact hs.idle (fun h => he (hn h)) n

theorem Sound.refuses (hs : Sound s) : Sound { s with trace := .unboundDefault :: s.trace } := by
  have ht : s.Turned { s with trace := .unboundDefault :: s.trace } :=
    turned_of_flows rfl (.inr rfl) (fun h => h) (fun h => .inl h) (fun _ _ hj => .inl hj)
  refine hs.turned ht (fun _ _ hj => .inl hj) ?_ hs.adrift hs.idle hs.resuming
  intro p hd
  simp only [Defaulted, mem_cons, reduceCtorEq, false_or] at hd
  exact .inl hd

theorem Sound.proposes (hs : Sound s) (hd : s.recovery = .done) (p : String)
    (row : ProposalFields) : Sound (s.spawn .flow (some (proposeJob p row))) := by
  have hslot : ∀ k j', (s.spawn .flow (some (proposeJob p row))).jobs k = some j' →
      s.jobs k = some j' ∨ ((∃ n, k = .flow n) ∧ j' = proposeJob p row) := by
    intro k j' hj'
    by_cases hk : k = .flow s.jobCount
    · subst hk
      simp only [spawn, setJob, Function.update_self, some.injEq] at hj'
      exact .inr ⟨⟨_, rfl⟩, hj'.symm⟩
    · simp only [spawn, setJob, Function.update_of_ne hk] at hj'
      exact .inl hj'
  refine hs.turned (turned_of_flows rfl (.inl rfl) (fun h => h) (fun h => .inl h) ?_) ?_
    (fun _ h => .inl h) hs.adrift (fun hn => absurd hd hn) hs.resuming
  · intro n j' hj'
    obtain hp | ⟨-, rfl⟩ := hslot _ _ hj'
    · exact .inl hp
    · exact .inr (by simp [Job.phase, proposeJob])
  · intro id j' hj'
    obtain hp | ⟨⟨n, rfl⟩, rfl⟩ := hslot _ _ hj'
    · exact .inl hp
    · exact .inr ⟨rfl, fun h => by cases h⟩

theorem Sound.step (hs : Sound s) {a : Action} (h : s.step a = some s') : Sound s' := by
  cases step_cases h with
  | restarts config => exact hs.restart config
  | lands _ _ op now ha hl => exact hs.landed hl (hs.opOk_of_asked ha)
  | resumes _ id j out hj hr => exact hs.applied hj hr
  | drops id j adrift hid hj had =>
    refine hs.dropped (by simp [setJob]) (by simp [setJob]) ?_ ?_ ?_
    · cases id with
      | recovery => exact absurd rfl hid
      | _ => rfl
    · intro k j' hj'
      by_cases hk : k = id
      · simp [setJob, hk] at hj'
      · simpa [setJob, hk] using hj'
    · intro op ho
      simp only [passEnds_adrift] at ho
      obtain ho | ho := had op ho
      · exact hs.adrift op ho
      obtain hok | ⟨hc, -⟩ := hs.opOk hj ho
      · exact hok
      · exact absurd hc hid
  | refuses p row => exact hs.refuses
  | proposes p row hdn => exact hs.proposes hdn p row
  | recovers hd =>
    exact hs.passes rfl rfl rfl (by simp [hd]) (by simp) (fun _ => ⟨rfl, rfl⟩)
      (fun _ _ _ hj => .inl hj) (by simp)
  | settles p row rest hse hn =>
    refine hs.passes rfl rfl rfl (by simp [hse]) (by simp [setJob])
      (fun _ => ⟨rfl, rfl⟩) ?_ (by simp [setJob])
    intro _ id j' hj'
    by_cases hid : id = .recovery
    · subst hid
      refine .inr ⟨by simp [setJob], ?_⟩
      unfold recoverRow at hj'
      split at hj'
      · cases hj'
        exact .inl (passOk_abortJob _ _ _ _)
      · cases hj'
        exact .inr (.inl rfl)
      · cases hj'
        exact .inr (.inr rfl)
      · cases hj'
    · simp only [setJob, Function.update_of_ne hid] at hj'
      exact .inl hj'
  | settled hst hn =>
    refine hs.passes rfl rfl rfl (by simp [hst]) (by simp) (fun _ => ⟨rfl, rfl⟩)
      (fun _ _ _ hj => .inl hj) ?_
    rintro todo ⟨⟩ e he
    rw [(mem_pending he).1]
    rfl
  | resumesIntent p i rest hre hn =>
    refine hs.passes rfl rfl rfl (by simp [hre]) (by simp [setJob]) (fun _ => ⟨rfl, rfl⟩) ?_ ?_
    · intro ht id j' hj'
      by_cases hid : id = .recovery
      · subst hid
        simp only [setJob, Function.update_self, some.injEq] at hj'
        subst hj'
        have hi := hs.resuming _ hre (p, i) mem_cons_self
        refine .inr ⟨by simp [setJob], .inl ?_⟩
        exact Ensurable.turned ⟨hs.intent_barred p hi, .inr (.inl hi)⟩ ht
      · simp only [setJob, Function.update_of_ne hid] at hj'
        exact .inl hj'
    · rintro todo ⟨⟩ e he
      exact hs.resuming _ hre e (mem_cons_of_mem _ he)
  | recovered hresu hn =>
    exact hs.passes rfl rfl rfl (fun _ => rfl) (fun _ => .inr hn)
      (fun _ => ⟨rfl, rfl⟩) (fun _ _ _ hj => .inl hj) (by simp)
  | fails hu =>
    exact hs.passes rfl rfl rfl (fun h => absurd h hu) (by simp) (fun _ => ⟨rfl, rfl⟩)
      (fun _ _ _ hj => .inl hj) (by simp)
  | stops =>
    exact hs.passes rfl rfl rfl (fun h => h) (fun h => .inl h) (fun _ => ⟨rfl, rfl⟩)
      (fun _ _ _ hj => .inl hj) hs.resuming
  | stopsRow p row rest hso hn =>
    refine hs.passes rfl rfl rfl (fun h => h) (fun h => .inl h) (fun _ => ⟨rfl, rfl⟩) ?_ hs.resuming
    intro _ id j' hj'
    by_cases hid : id = .stop
    · subst hid
      simp only [setJob, Function.update_self, some.injEq] at hj'
      subst hj'
      exact .inr (passOk_abortJob _ _ _ _)
    · simp only [setJob, Function.update_of_ne hid] at hj'
      exact .inl hj'

theorem sound_blank (config : GovernedConfig) : Sound { config := config } where
  entered_row := fun p h => by cases h
  intent_barred := fun p h => by cases h
  default_barred := fun p h => by cases h
  closed_intent := fun p r h => by cases h
  reported := fun p i h => by cases h
  history := fun rec h => by cases h
  job := fun id j h => by cases h
  unique := fun n n' j j' h => by cases h
  adrift := fun op h => by cases h
  idle := fun _ _ => ⟨rfl, rfl⟩
  resuming := fun todo h => by cases h

theorem sound_of_run {config : GovernedConfig} {as : List Action} {s : Governed}
    (h : Execution.run Governed.step { config := config } as = some s) : Sound s :=
  Execution.run_invariant (fun _ _ _ hs ht => hs.step ht) (sound_blank config) h

end Steps

end Governed

end OriRuntime
