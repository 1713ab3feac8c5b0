import OriRuntime.HookRunner

/-!
# A hook's result and its writes

A call that is withdrawn is never accepted, and only an accepted call writes. A call is started once
at most, in time and before it is withdrawn.
-/

namespace OriRuntime

open List Option

open Execution

variable {ρ : Type} {c c' : HookCall ρ} {s t : HookState ρ} {capacity : ℕ}

/-- Nothing was written and nothing is settled. -/
def HookPhase.early : HookPhase → Bool
  | .queued | .taken | .starting | .running | .returned => true
  | _ => false

def HookPhase.late : HookPhase → Bool
  | .clearing | .ended => true
  | _ => false

def CallEvent.isStart : CallEvent → Bool
  | .started _ => true
  | .withdrawn => false

variable {phase : HookPhase} {i : ℕ} {a : HookStep ρ} {k : HookCloser}

theorem HookPhase.late_of_early (h : phase.early = true) : phase.late = false := by
  cases phase <;> first | rfl | cases h

structure CallSound (c : HookCall ρ) : Prop where
  exclusive : c.accepted = true → c.cancelled = false
  written : c.written ≠ [] → c.accepted = true
  early : c.phase.early = true → c.accepted = false
  rejected : c.phase = .rejected → c.accepted = false ∧ c.wait = .raised
  committing : ∀ todo, c.phase = .committing todo →
    c.accepted = true ∧ ∃ r, c.hook = some (r, c.written ++ todo)
  hooked : c.phase = .returned → c.hook.isSome = true
  settled : c.posted ≠ none ∨ c.done ≠ none → c.phase.late = true
  result : ∀ r, c.posted = some (.result r) ∨ c.done = some (.result r) →
    c.accepted = true ∧ c.hook = some (r, c.written)
  returned : ∀ r, c.wait = .returned r → c.done = some (.result r)
  awaited : c.wait = .committing → c.accepted = true
  withdrawn : c.cancelled = false → .withdrawn ∉ c.history
  unstarted : c.phase = .queued ∨ c.phase = .taken → ∀ e ∈ c.history, e.isStart = false
  first : c.history.Pairwise (fun _ e => e.isStart = false)
  inTime : ∀ atMs, .started atMs ∈ c.history → atMs ≤ c.deadline

def Discarded (c : HookCall ρ) : Prop :=
  c.accepted = false ∧ (c.cancelled = true ∨ c.phase = .rejected)

theorem CallSound.discarded (h : CallSound c) (hd : Discarded c) :
    c.written = [] ∧ ∀ r, c.wait ≠ .returned r := by
  refine ⟨?_, fun r hr => ?_⟩
  · by_contra hn
    exact absurd ((h.written hn).symm.trans hd.1) nofun
  · exact absurd ((h.result r (.inr (h.returned r hr))).1.symm.trans hd.1) nofun

structure CallKept (c c' : HookCall ρ) : Prop where
  sound : CallSound c → CallSound c'
  discarded : CallSound c → Discarded c → Discarded c'
  queued : c'.phase = .queued ↔ c.phase = .queued

/-! ### Steps of one call -/

theorem CallSound.withdraw (h : CallSound c) (ha : c.accepted = false) : CallSound c.withdraw :=
  { h with
    exclusive := fun ht => absurd (ha.symm.trans ht) nofun
    withdrawn := nofun
    unstarted := fun hp e he => by
      rcases mem_append.mp he with he | he
      · exact h.unstarted hp e he
      · obtain rfl := mem_singleton.mp he
        rfl
    first := pairwise_append.mpr ⟨h.first, pairwise_singleton _ _, fun _ _ e he => by
      obtain rfl := mem_singleton.mp he
      rfl⟩
    inTime := fun atMs he => h.inTime atMs <| (mem_append.mp he).resolve_right fun he => by
        cases mem_singleton.mp he }

theorem Discarded.withdraw (ha : c.accepted = false) : Discarded c.withdraw := ⟨ha, .inl rfl⟩

theorem CallSound.cancel (h : CallSound c) : CallSound c.cancel := by
  unfold HookCall.cancel
  split_ifs with ha
  · exact h
  · exact h.withdraw (Bool.not_eq_true _ ▸ ha)

theorem kept_cancel : CallKept c c.cancel where
  sound := CallSound.cancel
  discarded _ hd := by
    unfold HookCall.cancel
    split_ifs with ha
    · exact hd
    · exact .withdraw (Bool.not_eq_true _ ▸ ha)
  queued := by
    unfold HookCall.cancel
    split <;> exact Iff.rfl

theorem CallSound.fails (h : CallSound c) (hl : phase.late = true)
    (he : c.posted = none ∧ c.done = none) :
    CallSound { c with phase := phase, posted := some .failed } :=
  { h with
    early := fun hp => by cases phase <;> cases hl <;> cases hp
    rejected := fun hp => by cases phase <;> cases hl <;> cases hp
    committing := fun todo hp => by cases phase <;> cases hl <;> cases hp
    hooked := fun hp => by cases phase <;> cases hl <;> cases hp
    settled := fun _ => hl
    result := fun r hr => by
      rcases hr with hr | hr
      · cases hr
      · exact absurd (he.2.symm.trans hr) nofun
    unstarted := fun hp => by
      cases phase <;> cases hl <;> rcases hp with hp | hp <;> cases hp }

theorem CallSound.unsettled (h : CallSound c) (hp : c.phase.late = false) :
    c.posted = none ∧ c.done = none := by
  constructor
  · by_contra hn
    exact absurd ((h.settled (.inl hn)).symm.trans hp) nofun
  · by_contra hn
    exact absurd ((h.settled (.inr hn)).symm.trans hp) nofun

theorem CallSound.advance (h : CallSound c) (he : c.phase.early = true)
    (hh : phase = .taken ∧ c.phase = .queued ∨ phase = .running) :
    CallSound { c with phase := phase } := by
  have ha := h.early he
  have hu := h.unsettled (HookPhase.late_of_early he)
  refine { h with
    early := fun _ => ha, rejected := fun hp => ?_, committing := fun todo hp => ?_
    hooked := fun hp => ?_, settled := fun hs => ?_, unstarted := fun hp => ?_ }
  · rcases hh with ⟨rfl, -⟩ | rfl <;> cases hp
  · rcases hh with ⟨rfl, -⟩ | rfl <;> cases hp
  · rcases hh with ⟨rfl, -⟩ | rfl <;> cases hp
  · exact hs.elim (fun hn => absurd hu.1 hn) (fun hn => absurd hu.2 hn)
  · rcases hh with ⟨rfl, hq⟩ | rfl
    · exact h.unstarted (.inl hq)
    · rcases hp with hp | hp <;> cases hp

theorem history_nil (h : CallSound c) (ht : c.phase = .taken) (hk : c.cancelled = false) :
    c.history = [] := by
  refine eq_nil_iff_forall_not_mem.mpr fun e he => ?_
  cases e with
  | withdrawn => exact h.withdrawn hk he
  | started atMs => exact absurd (h.unstarted (.inr ht) _ he) nofun

variable {nowMs : ℤ} {e : Option ℕ} {f : HookCall ρ → Option (HookCall ρ)}

theorem kept_start (ht : c.phase = .taken) : CallKept c (c.start nowMs) where
  sound h := by
    have ha := h.early (by rw [ht]; rfl)
    have hu := h.unsettled (by rw [ht]; rfl)
    unfold HookCall.start
    split_ifs with hs
    · obtain ⟨hk, hm⟩ := Bool.and_eq_true_iff.mp hs
      have hn := history_nil h ht (Bool.not_eq_true' _ ▸ hk)
      exact { h with
        early := fun _ => ha, rejected := nofun
        committing := nofun, hooked := nofun
        settled := fun ho => ho.elim (fun hne => absurd hu.1 hne) (fun hne => absurd hu.2 hne)
        withdrawn := fun _ he => by
          rw [hn] at he
          cases mem_singleton.mp he
        unstarted := fun hp => hp.elim nofun nofun
        first := by
          rw [hn]
          exact pairwise_singleton _ _
        inTime := fun atMs he => by
          rw [hn] at he
          obtain rfl := CallEvent.started.inj (mem_singleton.mp he)
          exact of_decide_eq_true hm }
    · exact (h.withdraw ha).fails rfl hu
  discarded h hd := by
    unfold HookCall.start
    split_ifs with hs
    · rcases hd.2 with hc | hr
      · exact ⟨hd.1, .inl hc⟩
      · exact absurd (hr.symm.trans ht) nofun
    · exact ⟨hd.1, .inl rfl⟩
  queued := by
    unfold HookCall.start
    rw [ht]
    split <;> exact ⟨nofun, nofun⟩

theorem kept_of_sound (hs : CallSound c → CallSound c') (ha : c'.accepted = c.accepted)
    (hc : c.cancelled = true → c'.cancelled = true)
    (hp : c.phase ≠ .queued ∧ c.phase ≠ .rejected) (hp' : c'.phase ≠ .queued) :
    CallKept c c' where
  sound := hs
  discarded _ hd := ⟨ha.trans hd.1, .inl (hc (hd.2.resolve_right hp.2))⟩
  queued := ⟨fun h => absurd h hp', fun h => absurd h hp.1⟩

theorem kept_enter (hs : c.phase = .starting) : CallKept c { c with phase := .running } :=
  kept_of_sound (fun h => h.advance (by rw [hs]; rfl) (.inr rfl)) rfl id (hs ▸ ⟨nofun, nofun⟩) nofun

theorem kept_hookReturns (hru : c.phase = .running) (r : ρ) (writes : List (Text × Text)) :
    CallKept c (c.hookReturns r writes) := by
  refine kept_of_sound (fun h => ?_) rfl id (hru ▸ ⟨nofun, nofun⟩) nofun
  have ha := h.early (by rw [hru]; rfl)
  have hu := h.unsettled (by rw [hru]; rfl)
  exact { h with
    early := fun _ => ha, rejected := nofun
    committing := nofun, hooked := fun _ => rfl
    settled := fun hs => hs.elim (fun hn => absurd hu.1 hn) (fun hn => absurd hu.2 hn)
    result := fun r hr => hr.elim (fun hr => absurd (hu.1.symm.trans hr) nofun)
      (fun hr => absurd (hu.2.symm.trans hr) nofun)
    unstarted := fun hp => hp.elim nofun nofun }

theorem kept_hookRaises (hr : c.phase = .running) : CallKept c c.hookRaises :=
  kept_of_sound (fun h => h.fails rfl (h.unsettled (by rw [hr]; rfl))) rfl id
    (hr ▸ ⟨nofun, nofun⟩) nofun

theorem kept_accept (he : c.phase = .returned) : CallKept c (c.accept nowMs) where
  sound h := by
    have hacce := h.early (by rw [he]; rfl)
    have hu := h.unsettled (by rw [he]; rfl)
    unfold HookCall.accept
    split_ifs with ha
    · obtain ⟨hk, -⟩ := Bool.and_eq_true_iff.mp ha
      have hc : c.cancelled = false := Bool.not_eq_true' _ ▸ hk
      have hw : c.written = [] := by
        by_contra hn
        exact absurd ((h.written hn).symm.trans hacce) nofun
      obtain ⟨⟨r, writes⟩, hhook⟩ := isSome_iff_exists.mp (h.hooked he)
      exact { h with
        exclusive := fun _ => hc, written := fun _ => rfl, early := nofun
        rejected := nofun
        committing := fun todo hp => by
          refine ⟨rfl, r, ?_⟩
          obtain rfl := HookPhase.committing.inj hp
          rw [hhook, hw]
          rfl
        hooked := nofun
        settled := fun hs => hs.elim (fun hn => absurd hu.1 hn) (fun hn => absurd hu.2 hn)
        result := fun r hr => hr.elim (fun hr => absurd (hu.1.symm.trans hr) nofun)
          (fun hr => absurd (hu.2.symm.trans hr) nofun)
        awaited := fun _ => rfl
        unstarted := fun hp => hp.elim nofun nofun }
    · exact (h.withdraw hacce).fails rfl hu
  discarded h hd := by
    unfold HookCall.accept
    have hc := hd.2.resolve_right fun hj =>
      absurd (hj.symm.trans he) nofun
    have ha : c.acceptable nowMs ≠ true := by
      intro ha
      have hk := (Bool.and_eq_true_iff.mp ha).1
      rw [hc] at hk
      cases hk
    rw [if_neg ha]
    exact ⟨hd.1, .inl rfl⟩
  queued := by
    unfold HookCall.accept
    rw [he]
    split <;> exact ⟨nofun, nofun⟩

theorem write_cases (h : c.write = some c') : ∃ kv todo, c.phase = .committing (kv :: todo) ∧
    c' = { c with written := c.written ++ [kv], phase := .committing todo } := by
  unfold HookCall.write at h
  split at h
  · exact ⟨_, _, ‹_›, (some.inj h).symm⟩
  · cases h

theorem writeFails_cases (h : c.writeFails = some c') : ∃ kv todo,
    c.phase = .committing (kv :: todo) ∧
      c' = { c with phase := .clearing, posted := some .failed } := by
  unfold HookCall.writeFails at h
  split at h
  · exact ⟨_, _, ‹_›, (some.inj h).symm⟩
  · cases h

theorem commitDone_cases (h : c.commitDone = some c') : ∃ r writes, c.phase = .committing [] ∧
    c.hook = some (r, writes) ∧ c' = { c with phase := .clearing, posted := some (.result r) } := by
  unfold HookCall.commitDone at h
  split at h
  · exact ⟨_, _, ‹_›, ‹_›, (some.inj h).symm⟩
  · cases h

theorem kept_write (h : c.write = some c') : CallKept c c' := by
  obtain ⟨kv, todo, hh, rfl⟩ := write_cases h
  refine kept_of_sound (fun h => ?_) rfl id (hh ▸ ⟨nofun, nofun⟩) nofun
  obtain ⟨ha, r, hhook⟩ := h.committing _ hh
  have hu := h.unsettled (by rw [hh]; rfl)
  exact { h with
    written := fun _ => ha, early := nofun
    rejected := nofun
    committing := fun todo' hp => by
      obtain rfl := HookPhase.committing.inj hp
      exact ⟨ha, r, by rw [append_assoc]; exact hhook⟩
    hooked := nofun
    settled := fun hs => hs.elim (fun hn => absurd hu.1 hn) (fun hn => absurd hu.2 hn)
    result := fun r hr => hr.elim (fun hr => absurd (hu.1.symm.trans hr) nofun)
      (fun hr => absurd (hu.2.symm.trans hr) nofun)
    unstarted := fun hp => hp.elim nofun nofun }

theorem kept_writeFails (h : c.writeFails = some c') : CallKept c c' := by
  obtain ⟨kv, todo, hp, rfl⟩ := writeFails_cases h
  exact kept_of_sound (fun h => h.fails rfl (h.unsettled (by rw [hp]; rfl))) rfl id
    (hp ▸ ⟨nofun, nofun⟩) nofun

theorem kept_commitDone (h : c.commitDone = some c') : CallKept c c' := by
  obtain ⟨r, writes, hh, hhook, rfl⟩ := commitDone_cases h
  refine kept_of_sound (fun h => ?_) rfl id (hh ▸ ⟨nofun, nofun⟩) nofun
  obtain ⟨ha, r', hhook'⟩ := h.committing _ hh
  have hu := h.unsettled (by rw [hh]; rfl)
  rw [append_nil] at hhook'
  obtain rfl : r = r' := congrArg Prod.fst (mem_unique hhook hhook')
  exact { h with
    early := nofun, rejected := nofun
    committing := nofun, hooked := nofun
    settled := fun _ => rfl
    result := fun r' hr => by
      rcases hr with hr | hr
      · obtain rfl := HookOutcome.result.inj (some.inj hr)
        exact ⟨ha, hhook'⟩
      · exact absurd (hu.2.symm.trans hr) nofun
    unstarted := fun hp => hp.elim nofun nofun }

theorem kept_clear (hc : c.phase = .clearing) : CallKept c { c with phase := .ended } := by
  refine kept_of_sound (fun h => ?_) rfl id (hc ▸ ⟨nofun, nofun⟩) nofun
  exact { h with
    early := nofun, rejected := nofun
    committing := nofun, hooked := nofun
    settled := fun _ => rfl
    unstarted := fun hp => hp.elim nofun nofun }

theorem kept_apply (h : c.apply = some c') : CallKept c c' := by
  unfold HookCall.apply at h
  split at h
  · cases h
  rename_i outcome hp
  cases h
  have hs : c.posted ≠ none := hp ▸ some_ne_none _
  refine ⟨fun h => ?_, fun _ hd => hd, Iff.rfl⟩
  refine { h with
    settled := fun _ => h.settled (.inl hs), result := fun r hr => h.result r ?_
    returned := fun r hr => ?_ }
  · dsimp only at hr
    rcases hr with hr | hr
    · cases hr
    split at hr
    · exact .inr hr
    · exact .inl (hp.trans hr)
  · have hn := h.returned r hr
    rw [hn]
    rfl

theorem resume_cases (h : c.resume = some c') :
    (∃ r, c.done = some (.result r) ∧ c' = { c with wait := .returned r }) ∨
      c.done = some .failed ∧ c' = { c with wait := .raised } := by
  unfold HookCall.resume at h
  split at h
  · exact .inl ⟨_, ‹_›, (some.inj h).symm⟩
  · exact .inl ⟨_, ‹_›, (some.inj h).symm⟩
  · exact .inr ⟨‹_›, (some.inj h).symm⟩
  · exact .inr ⟨‹_›, (some.inj h).symm⟩
  · cases h

theorem kept_resume (h : c.resume = some c') : CallKept c c' := by
  rcases resume_cases h with ⟨r, hn, rfl⟩ | ⟨hn, rfl⟩
  · refine ⟨fun h => ?_, fun _ hd => hd, Iff.rfl⟩
    exact { h with
      rejected := fun hp => by
        have hl := h.settled (.inr (hn ▸ some_ne_none _))
        rw [hp] at hl
        cases hl
      returned := fun r' hr => by
        obtain rfl := HookWait.returned.inj hr
        exact hn
      awaited := nofun }
  · refine ⟨fun h => ?_, fun _ hd => hd, Iff.rfl⟩
    exact { h with
      rejected := fun hp => ⟨(h.rejected hp).1, rfl⟩
      returned := nofun, awaited := nofun }

theorem kept_raise : CallKept c { c with wait := .raised } :=
  ⟨fun h => { h with
    rejected := fun hp => ⟨(h.rejected hp).1, rfl⟩
    returned := nofun, awaited := nofun },
    fun _ hd => hd, Iff.rfl⟩

theorem kept_timeOut : CallKept c c.timeOut := by
  unfold HookCall.timeOut
  split_ifs with ha
  · refine ⟨fun h => ?_, fun _ hd => hd, Iff.rfl⟩
    exact { h with
      rejected := fun hp => absurd ((h.rejected hp).1.symm.trans ha) nofun
      returned := nofun, awaited := fun _ => ha }
  · have hf := Bool.not_eq_true _ ▸ ha
    refine ⟨fun h => ?_, fun _ hd => ⟨hd.1, .inl rfl⟩, Iff.rfl⟩
    exact kept_raise.sound (h.withdraw hf)

theorem sound_drained (h : CallSound c) (hq : c.phase = .queued) :
    CallSound { c.cancel with phase := .ended, posted := some .failed } ∧
      Discarded { c.cancel with phase := .ended, posted := some .failed } := by
  have ha := h.early (by rw [hq]; rfl)
  have hc : c.cancel = c.withdraw := by
    unfold HookCall.cancel
    rw [if_neg (ha ▸ nofun)]
  rw [hc]
  exact ⟨(h.withdraw ha).fails rfl (h.unsettled (by rw [hq]; rfl)), ha, .inl rfl⟩

/-! ### Calls that fail leave nothing -/

structure CallFair (c : HookCall ρ) : Prop where
  failed : c.posted = some .failed ∨ c.done = some .failed → c.written = []
  raised : c.wait = .raised →
    c.written = [] ∧ (c.cancelled = true ∨ c.done = some .failed ∨ c.phase = .rejected)

theorem CallSound.unwritten (h : CallSound c) (ha : c.accepted = false) : c.written = [] := by
  by_contra hn
  exact absurd ((h.written hn).symm.trans ha) nofun

theorem CallFair.of_raised (h : CallFair c) (hr : c.phase ≠ .rejected) (hwait : c.wait = .raised) :
    c.written = [] ∧ (c.cancelled = true ∨ c.done = some .failed) := by
  obtain ⟨hn, hc | hf | hp⟩ := h.raised hwait
  · exact ⟨hn, .inl hc⟩
  · exact ⟨hn, .inr hf⟩
  · exact absurd hp hr

theorem CallFair.move (h : CallFair c) {hook : Option (ρ × List (Text × Text))}
    {history : List CallEvent} {accepted : Bool} (hr : c.phase ≠ .rejected) :
    CallFair { c with
      phase := phase, hook := hook, history := history, accepted := accepted } where
  failed := h.failed
  raised hwait := by
    obtain ⟨hn, hc⟩ := h.of_raised hr hwait
    exact ⟨hn, hc.imp_right .inl⟩

theorem CallFair.withdraw (h : CallFair c) : CallFair c.withdraw where
  failed := h.failed
  raised hwait := ⟨(h.raised hwait).1, .inl rfl⟩

theorem CallFair.cancel (h : CallFair c) : CallFair c.cancel := by
  unfold HookCall.cancel
  split
  · exact h
  · exact h.withdraw

theorem CallFair.fails (h : CallFair c) (hn : c.written = []) (hr : c.phase ≠ .rejected) :
    CallFair { c with phase := phase, posted := some .failed } where
  failed _ := hn
  raised hwait := ⟨hn, (h.of_raised hr hwait).2.imp_right .inl⟩

theorem CallFair.not_raised (h : CallFair c) (hs : CallSound c) {todo : List (Text × Text)}
    (hp : c.phase = .committing todo) : c.wait ≠ .raised := by
  intro hwait
  obtain ⟨ha, -⟩ := hs.committing _ hp
  obtain ⟨-, hc | hf | hr⟩ := h.raised hwait
  · exact absurd ((hs.exclusive ha).symm.trans hc) nofun
  · exact absurd ((hs.unsettled (by rw [hp]; rfl)).2.symm.trans hf) nofun
  · exact absurd (hp.symm.trans hr) nofun

theorem CallFair.start (h : CallFair c) (hs : CallSound c) (ht : c.phase = .taken)
    (nowMs : ℤ) : CallFair (c.start nowMs) := by
  have hr : c.phase ≠ .rejected := ht ▸ nofun
  unfold HookCall.start
  split
  · exact h.move hr
  · exact h.withdraw.fails (hs.unwritten (hs.early (by rw [ht]; rfl))) hr

theorem CallFair.accept (h : CallFair c) (hs : CallSound c) (hr : c.phase = .returned)
    (nowMs : ℤ) : CallFair (c.accept nowMs) := by
  have he : c.phase ≠ .rejected := hr ▸ nofun
  unfold HookCall.accept
  split
  · exact h.move he
  · exact h.withdraw.fails (hs.unwritten (hs.early (by rw [hr]; rfl))) he

theorem CallFair.write (h : CallFair c) (hs : CallSound c) (ht : c.write = some c') :
    CallFair c' := by
  obtain ⟨kv, todo, hp, rfl⟩ := write_cases ht
  have hu := hs.unsettled (by rw [hp]; rfl)
  refine ⟨fun hf => ?_, fun hwait => absurd hwait (h.not_raised hs hp)⟩
  rcases hf with hf | hf
  · exact absurd (hu.1.symm.trans hf) nofun
  · exact absurd (hu.2.symm.trans hf) nofun

theorem CallFair.commitDone (h : CallFair c) (hs : CallSound c) (ht : c.commitDone = some c') :
    CallFair c' := by
  obtain ⟨r, writes, hp, -, rfl⟩ := commitDone_cases ht
  have hu := hs.unsettled (by rw [hp]; rfl)
  refine ⟨fun hf => ?_, fun hwait => absurd hwait (h.not_raised hs hp)⟩
  rcases hf with hf | hf
  · cases hf
  · exact absurd (hu.2.symm.trans hf) nofun

theorem CallFair.apply (h : CallFair c) (ht : c.apply = some c') : CallFair c' := by
  unfold HookCall.apply at ht
  split at ht
  · cases ht
  rename_i outcome hp
  cases ht
  refine ⟨fun hf => h.failed ?_, fun hwait => ?_⟩
  · dsimp only at hf
    rcases hf with hf | hf
    · cases hf
    split at hf
    · exact .inr hf
    · exact .inl (hp.trans hf)
  · obtain ⟨hn, hc | hf | hr⟩ := h.raised hwait
    · exact ⟨hn, .inl hc⟩
    · refine ⟨hn, .inr (.inl ?_)⟩
      rw [hf]
      rfl
    · exact ⟨hn, .inr (.inr hr)⟩

theorem CallFair.resume (h : CallFair c) (ht : c.resume = some c') : CallFair c' := by
  rcases resume_cases ht with ⟨r, hd, rfl⟩ | ⟨hd, rfl⟩
  · exact ⟨h.failed, nofun⟩
  · exact ⟨h.failed, fun _ => ⟨h.failed (.inr hd), .inr (.inl hd)⟩⟩

theorem CallFair.timeOut (h : CallFair c) (hs : CallSound c) : CallFair c.timeOut := by
  unfold HookCall.timeOut
  split_ifs with ha
  · exact ⟨h.failed, nofun⟩
  · exact ⟨h.failed, fun _ => ⟨hs.unwritten (Bool.not_eq_true _ ▸ ha), .inl rfl⟩⟩

/-! ### Steps of the runner -/

/-- What is counted for a call is counted for one whose result and writes are discarded. -/
def Accounted (calls : List (HookCall ρ)) (counted : Option ℕ) : Prop :=
  ∃ id c, counted = some id ∧ calls[id]? = some c ∧ Discarded c

def HookState.queued (s : HookState ρ) : List ℕ := s.queue.filterMap id

structure HookSound (s : HookState ρ) : Prop where
  calls : ∀ c ∈ s.calls, CallSound c
  queue : ∀ id ∈ s.queued, ∃ c, s.calls[id]? = some c ∧ c.phase = .queued
  nodup : s.queued.Nodup

structure HookFair (s : HookState ρ) : Prop extends HookSound s where
  fair : ∀ c ∈ s.calls, CallFair c
  counted : ∀ e ∈ s.counted, Accounted s.calls e.2
  lost : ∀ k ∈ s.closers, ∀ e ∈ k.lost, Accounted s.calls e

theorem Accounted.set {calls : List (HookCall ρ)} (h : Accounted calls e) (hi : calls[i]? = some c)
    (hk : Discarded c → Discarded c') : Accounted (calls.set i c') e := by
  obtain ⟨id, d, rfl, hd, hdi⟩ := h
  by_cases hs : i = id
  · subst hs
    obtain rfl : d = c := mem_unique hd hi
    obtain ⟨hl, -⟩ := List.getElem?_eq_some_iff.mp hi
    exact ⟨i, c', rfl, List.getElem?_set_self hl, hk hdi⟩
  · exact ⟨id, d, rfl, by rw [List.getElem?_set_ne hs]; exact hd, hdi⟩

theorem HookSound.idle (h : HookSound s) (hc : t.calls = s.calls)
    (hq : t.queued = s.queued) : HookSound t where
  calls := hc ▸ h.calls
  queue := by
    rw [hq, hc]
    exact h.queue
  nodup := hq ▸ h.nodup

theorem HookSound.replace (h : HookSound s) (hi : s.calls[i]? = some c) (hn : CallSound c')
    (hs : t.queued.Sublist s.queued) (hq : i ∈ t.queued → c'.phase = .queued)
    (hc : t.calls = s.calls.set i c') :
    HookSound t where
  calls d hd := by
    rw [hc] at hd
    rcases mem_or_eq_of_mem_set hd with hold | rfl
    · exact h.calls d hold
    · exact hn
  queue id hm := by
    obtain ⟨d, hd, hp⟩ := h.queue id (hs.subset hm)
    rw [hc]
    by_cases hsm : i = id
    · subst hsm
      obtain ⟨hl, -⟩ := List.getElem?_eq_some_iff.mp hi
      exact ⟨c', List.getElem?_set_self hl, hq hm⟩
    · exact ⟨d, by rw [List.getElem?_set_ne hsm]; exact hd, hp⟩
  nodup := h.nodup.sublist hs

theorem HookSound.kept (h : HookSound s) (hi : s.calls[i]? = some c) (hk : CallKept c c')
    (hc : t.calls = s.calls.set i c') (hq : t.queue = s.queue) : HookSound t := by
  have hs : t.queued = s.queued := congrArg (List.filterMap id) hq
  refine h.replace hi (hk.sound (h.calls c (mem_of_getElem? hi)))
    (hs ▸ List.Sublist.refl _) (fun hm => ?_) hc
  obtain ⟨d, hd, hp⟩ := h.queue i (hs ▸ hm)
  obtain rfl : d = c := mem_unique hd hi
  exact hk.queued.mpr hp

theorem HookFair.idle (h : HookFair s) (hs : HookSound t) (hc : t.calls = s.calls)
    (hl : ∀ k ∈ t.closers, ∀ e ∈ k.lost, ∃ k' ∈ s.closers, e ∈ k'.lost)
    (hco : ∀ e ∈ t.counted, e ∈ s.counted ∨ ∃ k' ∈ s.closers, e.2 ∈ k'.lost) :
    HookFair t where
  toHookSound := hs
  fair := hc ▸ h.fair
  counted e he := by
    rw [hc]
    rcases hco e he with hold | ⟨k', hk', ho⟩
    · exact h.counted e hold
    · exact h.lost k' hk' _ ho
  lost k hk e he := by
    obtain ⟨k', hk', hold⟩ := hl k hk e he
    rw [hc]
    exact h.lost k' hk' e hold

theorem HookFair.replace (h : HookFair s) (hs : HookSound t) (hid : s.calls[i]? = some c)
    (hdi : Discarded c → Discarded c') (hfair : CallFair c')
    (hc : t.calls = s.calls.set i c') (hcl : ∀ k ∈ t.closers, ∀ e ∈ k.lost,
      (∃ k' ∈ s.closers, e ∈ k'.lost) ∨ e = some i ∧ Discarded c')
    (hco : ∀ e ∈ t.counted, (e ∈ s.counted ∨ ∃ k' ∈ s.closers, e.2 ∈ k'.lost) ∨
      e.2 = some i ∧ Discarded c') : HookFair t := by
  obtain ⟨hl, -⟩ := List.getElem?_eq_some_iff.mp hid
  refine ⟨hs, fun d hd => ?_, fun e he => ?_, fun k hk e he => ?_⟩
  · rw [hc] at hd
    rcases mem_or_eq_of_mem_set hd with hold | rfl
    · exact h.fair d hold
    · exact hfair
  · rw [hc]
    rcases hco e he with (hold | ⟨k', hk', ho⟩) | ⟨hi, hn⟩
    · exact (h.counted e hold).set hid hdi
    · exact (h.lost k' hk' _ ho).set hid hdi
    · exact ⟨i, c', hi, List.getElem?_set_self hl, hn⟩
  · rw [hc]
    rcases hcl k hk e he with ⟨k', hk', hold⟩ | ⟨hi, hn⟩
    · exact (h.lost k' hk' e hold).set hid hdi
    · exact ⟨i, c', hi, List.getElem?_set_self hl, hn⟩

theorem HookFair.kept (h : HookFair s) (hs : HookSound t) (hi : s.calls[i]? = some c)
    (hp : CallKept c c') (hfair : CallFair c') (ha : t.calls = s.calls.set i c')
    (hc : t.closers = s.closers) (ho : t.counted = s.counted ∨
      Discarded c' ∧ ∃ counter, t.counted = s.counted ++ [(counter, some i)]) : HookFair t := by
  refine h.replace hs hi (hp.discarded (h.calls c (mem_of_getElem? hi))) hfair ha
    (fun k hk e he => .inl ⟨k, hc ▸ hk, he⟩) (fun e he => ?_)
  rcases ho with hm | ⟨hd, counter, hr⟩
  · exact .inl (.inl (hm ▸ he))
  rw [hr, mem_append, mem_singleton] at he
  rcases he with hold | rfl
  · exact .inl (.inl hold)
  · exact .inr ⟨rfl, hd⟩

/-! ### Step and run -/

theorem onCall_cases (h : s.onCall i f = some t) :
    ∃ c c', s.calls[i]? = some c ∧ f c = some c' ∧ t = s.set i c' := by
  unfold HookState.onCall at h
  cases hi : s.calls[i]? with
  | none => rw [hi] at h; cases h
  | some c =>
    rw [hi] at h
    dsimp only at h
    split at h
    · cases h
    rename_i c' hf
    exact ⟨c, c', rfl, hf, (some.inj h).symm⟩

theorem onWorker_cases {f : ℕ → HookCall ρ → HookState ρ} (h : s.onWorker phase f = some t) :
    ∃ i c, s.calls[i]? = some c ∧ c.phase = phase ∧ t = f i c := by
  unfold HookState.onWorker at h
  split at h
  · cases h
  rename_i i hw
  cases hi : s.calls[i]? with
  | none => rw [hi] at h; cases h
  | some c =>
    rw [hi] at h
    dsimp only at h
    split at h <;> rename_i hp
    · exact ⟨i, c, hi, hp, (some.inj h).symm⟩
    · cases h

theorem onCommit_cases (h : s.onCommit f = some t) :
    ∃ i c c', s.worker = some i ∧ s.calls[i]? = some c ∧ f c = some c' ∧ t = s.set i c' := by
  unfold HookState.onCommit at h
  cases hw : s.worker with
  | none => rw [hw] at h; cases h
  | some i =>
    rw [hw] at h
    obtain ⟨c, c', hi, hf, ht⟩ := onCall_cases h
    exact ⟨i, c, c', rfl, hi, hf, ht⟩

/-- No write fails behind another of its commit, no task is cancelled before its call is withdrawn,
and a closer that gives up does so on a call that is not accepted. -/
def HookOrderly (s : HookState ρ) : HookStep ρ → Prop
  | .writeFails => ∀ i c, s.worker = some i → s.calls[i]? = some c → c.written = []
  | .cancelTask i => ∀ c, s.calls[i]? = some c → c.cancelled = true
  | .expire i => ∀ k, s.closers[i]? = some k →
      ∃ id c, s.abandoned k = some id ∧ s.calls[id]? = some c ∧ c.accepted = false
  | _ => True

/-- A step keeps the runner sound, and where it is orderly, fair. -/
def StepKeeps (capacity : ℕ) (s : HookState ρ) (a : HookStep ρ) : Prop :=
  ∀ t, hookStep capacity s a = some t →
    HookSound t ∧ (HookOrderly s a → HookFair s → HookFair t)

theorem soundCall_new (deadline : ℤ) : CallSound ({ deadline := deadline } : HookCall ρ) where
  exclusive h := nomatch h
  written h := absurd rfl h
  early _ := rfl
  rejected h := nomatch h
  committing _ h := nomatch h
  hooked h := nomatch h
  settled h := h.elim (fun h => absurd rfl h) (fun h => absurd rfl h)
  result _ h := h.elim nofun nofun
  returned _ h := nomatch h
  awaited h := nomatch h
  withdrawn _ := not_mem_nil
  unstarted _ _ h := absurd h not_mem_nil
  first := List.Pairwise.nil
  inTime _ h := absurd h not_mem_nil

theorem soundCall_rejected (deadline : ℤ) : CallSound
    ({ deadline := deadline, phase := .rejected, wait := .raised } : HookCall ρ) where
  exclusive h := nomatch h
  written h := absurd rfl h
  early h := nomatch h
  rejected _ := ⟨rfl, rfl⟩
  committing _ h := nomatch h
  hooked h := nomatch h
  settled h := h.elim (fun h => absurd rfl h) (fun h => absurd rfl h)
  result _ h := h.elim nofun nofun
  returned _ h := nomatch h
  awaited h := nomatch h
  withdrawn _ := not_mem_nil
  unstarted h := h.elim nofun nofun
  first := List.Pairwise.nil
  inTime _ h := absurd h not_mem_nil

theorem getElem?_append_of_some {α : Type} {l : List α} {a b : α} (h : l[i]? = some a) :
    (l ++ [b])[i]? = some a := by
  obtain ⟨hl, -⟩ := List.getElem?_eq_some_iff.mp h
  rw [List.getElem?_append_left hl]
  exact h

theorem HookSound.add (h : HookSound s) (hn : CallSound c) (hc : t.calls = s.calls ++ [c])
    (hq : t.queued = s.queued ∨ c.phase = .queued ∧ t.queued = s.queued ++ [s.calls.length]) :
    HookSound t := by
  have hold : ∀ id ∈ s.queued, ∃ d, t.calls[id]? = some d ∧ d.phase = .queued := by
    intro id hi
    obtain ⟨d, hd, hp⟩ := h.queue id hi
    exact ⟨d, by rw [hc]; exact getElem?_append_of_some hd, hp⟩
  refine ⟨fun d hd => ?_, fun id hi => ?_, ?_⟩
  · rw [hc] at hd
    rcases mem_append.mp hd with hd | hd
    · exact h.calls d hd
    · obtain rfl := mem_singleton.mp hd
      exact hn
  · rcases hq with hs | ⟨hp, hm⟩
    · exact hold id (hs ▸ hi)
    rw [hm] at hi
    rcases mem_append.mp hi with hi | hi
    · exact hold id hi
    · obtain rfl := mem_singleton.mp hi
      exact ⟨c, by rw [hc]; exact List.getElem?_concat_length, hp⟩
  · rcases hq with hs | ⟨-, hm⟩
    · exact hs ▸ h.nodup
    rw [hm]
    refine nodup_append.mpr ⟨h.nodup, nodup_singleton _, fun id hi id' hi' => ?_⟩
    obtain rfl := mem_singleton.mp hi'
    obtain ⟨d, hd, -⟩ := h.queue id hi
    obtain ⟨hl, -⟩ := List.getElem?_eq_some_iff.mp hd
    exact Nat.ne_of_lt hl

theorem HookFair.add (h : HookFair s) (hs : HookSound t) (hn : CallFair c)
    (hc : t.calls = s.calls ++ [c]) (hl : t.closers = s.closers)
    (ho : t.counted = s.counted ∨ Discarded c ∧ ∃ counter,
      t.counted = s.counted ++ [(counter, some s.calls.length)]) : HookFair t := by
  have hold : ∀ e, Accounted s.calls e → Accounted t.calls e := by
    rintro e ⟨id, d, rfl, hd, hi⟩
    exact ⟨id, d, rfl, by rw [hc]; exact getElem?_append_of_some hd, hi⟩
  refine ⟨hs, fun d hd => ?_, fun e he => ?_, fun k hk e he => ?_⟩
  · rw [hc] at hd
    rcases mem_append.mp hd with hd | hd
    · exact h.fair d hd
    · obtain rfl := mem_singleton.mp hd
      exact hn
  · rcases ho with hm | ⟨hi, counter, hr⟩
    · exact hold _ (h.counted e (hm ▸ he))
    rw [hr, mem_append, mem_singleton] at he
    rcases he with he | rfl
    · exact hold _ (h.counted e he)
    · exact ⟨s.calls.length, c, rfl, by rw [hc]; exact List.getElem?_concat_length, hi⟩
  · exact hold e (h.lost k (hl ▸ hk) e he)

theorem HookSound.keeps_submit (h : HookSound s) (timeoutMs : ℤ) :
    StepKeeps capacity s (.submit timeoutMs) := by
  intro t ht
  cases ht
  unfold HookState.submit
  split <;> rename_i hc
  · have hs := h.add (soundCall_rejected s.nowMs) (t := { s with
      calls := s.calls ++ [{ deadline := s.nowMs, phase := .rejected, wait := .raised }] })
      rfl (.inl rfl)
    exact ⟨hs, fun _ hfair => hfair.add hs
      ⟨fun _ => rfl, fun _ => ⟨rfl, .inr (.inr rfl)⟩⟩ rfl rfl (.inl rfl)⟩
  split_ifs with hf
  · have hs := h.add (soundCall_rejected s.nowMs) (t := HookState.count { s with
      calls := s.calls ++ [{ deadline := s.nowMs, phase := .rejected, wait := .raised }] }
      .skippedSaturated (some s.calls.length)) rfl (.inl rfl)
    exact ⟨hs, fun _ hfair => hfair.add hs ⟨fun _ => rfl, fun _ => ⟨rfl, .inr (.inr rfl)⟩⟩ rfl rfl
      (.inr ⟨⟨rfl, .inr rfl⟩, _, rfl⟩)⟩
  have hq : (s.queue ++ [some s.calls.length]).filterMap id = s.queued ++ [s.calls.length] :=
    filterMap_append
  have hs := h.add (soundCall_new (s.nowMs + timeoutMs)) (t := { s with
    calls := s.calls ++ [{ deadline := s.nowMs + timeoutMs }]
    queue := s.queue ++ [some s.calls.length]
    alive := true }) rfl (.inr ⟨rfl, hq⟩)
  exact ⟨hs, fun _ hfair => hfair.add hs
    ⟨fun _ => rfl, fun hwait => by cases hwait⟩ rfl rfl (.inl rfl)⟩

theorem HookSound.dequeue (h : HookSound s) {rest : List (Option ℕ)}
    (hq : s.queue = some i :: rest) : ∃ c, s.calls[i]? = some c ∧ c.phase = .queued ∧
      (rest.filterMap id).Sublist s.queued ∧ i ∉ rest.filterMap id := by
  have hqueu : s.queued = i :: rest.filterMap id := by
    unfold HookState.queued
    rw [hq]
    rfl
  have hn := h.nodup
  rw [hqueu] at hn
  obtain ⟨c, hi, hp⟩ := h.queue i (hqueu ▸ mem_cons_self)
  exact ⟨c, hi, hp, hqueu ▸ sublist_cons_self _ _, (nodup_cons.mp hn).1⟩

theorem HookSound.keeps_take (h : HookSound s) : StepKeeps capacity s .take := by
  intro t ht
  unfold hookStep HookState.take at ht
  dsimp only at ht
  split at ht
  · rename_i id rest ha hw hq
    obtain ⟨c, hi, hp, hu, hn⟩ := h.dequeue hq
    rw [hi] at ht
    cases ht
    have hc := h.calls c (mem_of_getElem? hi)
    have hs : HookSound { s.set id { c with phase := .taken } with
        queue := rest, worker := some id } :=
      h.replace hi (hc.advance (by rw [hp]; rfl) (.inl ⟨rfl, hp⟩)) hu (fun hm => absurd hm hn) rfl
    refine ⟨hs, fun _ hfair => ?_⟩
    have hr : c.phase ≠ .rejected := hp ▸ nofun
    have htk : CallFair { c with phase := .taken } := (hfair.fair c (mem_of_getElem? hi)).move hr
    have hkp : Discarded c → Discarded { c with phase := .taken } :=
      fun hd => ⟨hd.1, .inl (hd.2.resolve_right hr)⟩
    exact hfair.replace hs hi hkp htk rfl
      (fun k hk e he => .inl ⟨k, hk, he⟩) (fun e he => .inl (.inl he))
  · rename_i rest ha hw hq
    cases ht
    have hs : HookSound { s with queue := rest, alive := false } :=
      h.idle rfl (by unfold HookState.queued; rw [hq]; rfl)
    exact ⟨hs, fun _ hfair => hfair.idle hs rfl (fun k hk e he => ⟨k, hk, he⟩)
      (fun e he => .inl he)⟩
  · cases ht

theorem HookSound.keeps_start (h : HookSound s) : StepKeeps capacity s .start := by
  intro t ht
  obtain ⟨i, c, hi, hp, rfl⟩ := onWorker_cases ht
  have hk : CallKept c (c.start s.nowMs) := kept_start hp
  have hc := h.calls c (mem_of_getElem? hi)
  split_ifs with hst
  · have hs : HookSound (s.set i (c.start s.nowMs)) := h.kept hi hk rfl rfl
    exact ⟨hs, fun _ hfair => hfair.kept hs hi hk
      ((hfair.fair c (mem_of_getElem? hi)).start hc hp _) rfl rfl (.inl rfl)⟩
  · have hs : HookSound (HookState.count { s.set i (c.start s.nowMs) with worker := none }
        .expiredUnstarted (some i)) := h.kept hi hk rfl rfl
    have hd : Discarded (c.start s.nowMs) := by
      unfold HookCall.start
      rw [if_neg hst]
      exact ⟨hc.early (by rw [hp]; rfl), .inl rfl⟩
    exact ⟨hs, fun _ hfair => hfair.kept hs hi hk
      ((hfair.fair c (mem_of_getElem? hi)).start hc hp _) rfl rfl
      (.inr ⟨hd, _, rfl⟩)⟩

theorem HookSound.keeps_accept (h : HookSound s) : StepKeeps capacity s .accept := by
  intro t ht
  obtain ⟨i, c, hi, hp, rfl⟩ := onWorker_cases ht
  have hk : CallKept c (c.accept s.nowMs) := kept_accept hp
  have hc := h.calls c (mem_of_getElem? hi)
  split_ifs with ha
  · have hs : HookSound (s.set i (c.accept s.nowMs)) := h.kept hi hk rfl rfl
    exact ⟨hs, fun _ hfair => hfair.kept hs hi hk
      ((hfair.fair c (mem_of_getElem? hi)).accept hc hp _) rfl rfl (.inl rfl)⟩
  · have hs : HookSound ((s.set i (c.accept s.nowMs)).count .discarded (some i)) :=
      h.kept hi hk rfl rfl
    have hd : Discarded (c.accept s.nowMs) := by
      unfold HookCall.accept
      rw [if_neg ha]
      exact ⟨hc.early (by rw [hp]; rfl), .inl rfl⟩
    exact ⟨hs, fun _ hfair => hfair.kept hs hi hk
      ((hfair.fair c (mem_of_getElem? hi)).accept hc hp _) rfl rfl
      (.inr ⟨hd, _, rfl⟩)⟩

theorem HookSound.keeps_worker (h : HookSound s) (hi : s.calls[i]? = some c)
    (hk : CallKept c c') (hfair : HookOrderly s a → CallFair c → CallFair c')
    (hc : t.calls = s.calls.set i c')
    (hm : t.queue = s.queue ∧ t.closers = s.closers ∧ t.counted = s.counted) :
    HookSound t ∧ (HookOrderly s a → HookFair s → HookFair t) := by
  have hs := h.kept hi hk hc hm.1
  exact ⟨hs, fun ho ha => ha.kept hs hi hk
    (hfair ho (ha.fair c (mem_of_getElem? hi))) hc hm.2.1 (.inl hm.2.2)⟩

theorem HookSound.keeps_commit (h : HookSound s)
    (ha : a = .write ∨ a = .writeFails ∨ a = .commitDone) : StepKeeps capacity s a := by
  intro t ht
  rcases ha with rfl | rfl | rfl
  · obtain ⟨i, c, c', -, hi, hf, rfl⟩ := onCommit_cases ht
    exact h.keeps_worker hi (kept_write hf)
      (fun _ hfair => hfair.write (h.calls c (mem_of_getElem? hi)) hf) rfl ⟨rfl, rfl, rfl⟩
  · obtain ⟨i, c, c', hw, hi, hf, rfl⟩ := onCommit_cases ht
    refine h.keeps_worker hi (kept_writeFails hf) (fun ho hfair => ?_) rfl ⟨rfl, rfl, rfl⟩
    obtain ⟨kv, todo, hp, rfl⟩ := writeFails_cases hf
    exact hfair.fails (ho i c hw hi) (hp ▸ nofun)
  · obtain ⟨i, c, c', -, hi, hf, rfl⟩ := onCommit_cases ht
    exact h.keeps_worker hi (kept_commitDone hf)
      (fun _ hfair => hfair.commitDone (h.calls c (mem_of_getElem? hi)) hf) rfl
      ⟨rfl, rfl, rfl⟩

theorem HookSound.keeps_hook (h : HookSound s)
    (ha : a = .enter ∨ (∃ r writes, a = .hookReturns r writes) ∨ a = .hookRaises ∨ a = .clear) :
    StepKeeps capacity s a := by
  intro t ht
  rcases ha with rfl | ⟨r, writes, rfl⟩ | rfl | rfl
  · obtain ⟨i, c, hi, hp, rfl⟩ := onWorker_cases ht
    exact h.keeps_worker hi (kept_enter hp)
      (fun _ hfair => hfair.move (hp ▸ nofun)) rfl ⟨rfl, rfl, rfl⟩
  · obtain ⟨i, c, hi, hp, rfl⟩ := onWorker_cases ht
    exact h.keeps_worker hi (kept_hookReturns hp r writes)
      (fun _ hfair => hfair.move (hp ▸ nofun)) rfl ⟨rfl, rfl, rfl⟩
  · obtain ⟨i, c, hi, hp, rfl⟩ := onWorker_cases ht
    have hc := h.calls c (mem_of_getElem? hi)
    exact h.keeps_worker hi (kept_hookRaises hp)
      (fun _ hfair => hfair.fails (hc.unwritten (hc.early (by rw [hp]; rfl)))
        (hp ▸ nofun)) rfl ⟨rfl, rfl, rfl⟩
  · obtain ⟨i, c, hi, hp, rfl⟩ := onWorker_cases ht
    exact h.keeps_worker hi (kept_clear hp)
      (fun _ hfair => hfair.move (hp ▸ nofun)) rfl ⟨rfl, rfl, rfl⟩

theorem HookSound.keeps_loop (h : HookSound s)
    (ha : a = .apply i ∨ a = .resume i ∨ a = .cancelTask i) : StepKeeps capacity s a := by
  intro t ht
  rcases ha with rfl | rfl | rfl
  · obtain ⟨c, c', hi, hf, rfl⟩ := onCall_cases ht
    exact h.keeps_worker hi (kept_apply hf) (fun _ hfair => hfair.apply hf) rfl ⟨rfl, rfl, rfl⟩
  · obtain ⟨c, c', hi, hf, rfl⟩ := onCall_cases ht
    exact h.keeps_worker hi (kept_resume hf) (fun _ hfair => hfair.resume hf) rfl ⟨rfl, rfl, rfl⟩
  · obtain ⟨c, c', hi, hf, rfl⟩ := onCall_cases ht
    have hr : c' = { c with wait := .raised } := by
      split at hf
      · exact (some.inj hf).symm
      · exact (some.inj hf).symm
      · cases hf
    subst hr
    refine h.keeps_worker hi kept_raise (fun ho hfair => ?_) rfl ⟨rfl, rfl, rfl⟩
    have hl := h.calls c (mem_of_getElem? hi)
    have hc := ho c hi
    refine ⟨hfair.failed, fun _ => ⟨hl.unwritten ?_, .inl hc⟩⟩
    by_contra hac
    exact absurd ((hl.exclusive (Bool.not_eq_false _ ▸ hac)).symm.trans hc) nofun

theorem HookSound.keeps_timeOut (h : HookSound s) (i : ℕ) : StepKeeps capacity s (.timeOut i) := by
  intro t ht
  unfold hookStep HookState.timeOut at ht
  dsimp only at ht
  split at ht
  · cases ht
  rename_i c hi
  split at ht
  · split at ht
    · cases ht
    have hc := h.calls c (mem_of_getElem? hi)
    split_ifs at ht with ha
    · cases ht
      exact h.keeps_worker hi kept_timeOut (fun _ hfair => hfair.timeOut hc) rfl ⟨rfl, rfl, rfl⟩
    · cases ht
      have hs : HookSound ((s.set i c.timeOut).count .timedOut (some i)) :=
        h.kept hi kept_timeOut rfl rfl
      have hd : Discarded c.timeOut := by
        unfold HookCall.timeOut
        rw [if_neg ha]
        exact ⟨Bool.not_eq_true _ ▸ ha, .inl rfl⟩
      exact ⟨hs, fun _ hfair => hfair.kept hs hi kept_timeOut
        ((hfair.fair c (mem_of_getElem? hi)).timeOut hc) rfl rfl
        (.inr ⟨hd, _, rfl⟩)⟩
  · cases ht

/-! ### Closers -/

theorem mem_lost_set {closers : List HookCloser} {k' : HookCloser} (hk : k' ∈ closers.set i k)
    (he : e ∈ k'.lost) : (∃ k ∈ closers, e ∈ k.lost) ∨ e ∈ k.lost := by
  rcases mem_or_eq_of_mem_set hk with hold | rfl
  · exact .inl ⟨k', hold, he⟩
  · exact .inr he

theorem mem_counted_returns {e : HookCounter × Option ℕ} (he : e ∈ (s.closeReturns i k).counted) :
    e ∈ s.counted ∨ e.2 ∈ k.lost := by
  rcases mem_append.mp he with hold | hn
  · exact .inl hold
  · obtain ⟨id, hi, rfl⟩ := mem_map.mp hn
    exact .inr hi

theorem HookSound.keeps_returns (h : HookSound s) (hk : k ∈ s.closers) :
    HookSound (s.closeReturns i k) ∧
      (HookOrderly s a → HookFair s → HookFair (s.closeReturns i k)) := by
  have hs : HookSound (s.closeReturns i k) := h.idle rfl rfl
  refine ⟨hs, fun _ hfair => hfair.idle hs rfl (fun k' hk' e he => ?_) (fun e he => ?_)⟩
  · rcases mem_lost_set hk' he with hold | hn
    · exact hold
    · exact ⟨k, hk, hn⟩
  · rcases mem_counted_returns he with hold | hn
    · exact .inl hold
    · exact .inr ⟨k, hk, hn⟩

theorem HookSound.keeps_joined (h : HookSound s) (i : ℕ) : StepKeeps capacity s (.joined i) := by
  intro t ht
  unfold hookStep HookState.joined at ht
  dsimp only at ht
  split at ht
  · cases ht
  rename_i k hc
  split at ht
  · cases ht
    exact h.keeps_returns (mem_of_getElem? hc)
  · cases ht

theorem HookSound.keeps_drain (h : HookSound s) (i : ℕ) : StepKeeps capacity s (.drain i) := by
  intro t ht
  unfold hookStep HookState.drain at ht
  dsimp only at ht
  cases hc : s.closers[i]? with
  | none => rw [hc] at ht; cases ht
  | some k =>
    have hk := mem_of_getElem? hc
    rw [hc] at ht
    dsimp only at ht
    split at ht
    · split at ht
      · rename_i id rest hq
        obtain ⟨c, hi, hp, hu, ho⟩ := h.dequeue hq
        rw [hi] at ht
        cases ht
        have hl := h.calls c (mem_of_getElem? hi)
        obtain ⟨hr, hd⟩ := sound_drained hl hp
        have hs : HookSound ({ s.set id { c.cancel with
            phase := .ended, posted := some .failed } with queue := rest }.setCloser i
            { k with lost := k.lost ++ [some id] }) :=
          h.replace hi hr hu (fun hm => absurd hm ho) rfl
        refine ⟨hs, fun _ hfair => ?_⟩
        have ha : CallFair { c.cancel with phase := .ended, posted := some .failed } := by
          refine (hfair.fair c (mem_of_getElem? hi)).cancel.fails ?_ ?_
          · exact hl.cancel.unwritten hd.1
          · unfold HookCall.cancel
            split <;> exact hp ▸ nofun
        refine hfair.replace hs hi (fun _ => hd) ha rfl
          (fun k' hk' e he => ?_) (fun e he => .inl (.inl he))
        rcases mem_lost_set hk' he with hold | hn
        · exact .inl hold
        rcases mem_append.mp hn with hold | hn
        · exact .inl ⟨k, hk, hold⟩
        · exact .inr ⟨mem_singleton.mp hn, hd⟩
      · rename_i rest hq
        cases ht
        have hs : HookSound { s with queue := rest } :=
          h.idle rfl (by unfold HookState.queued; rw [hq]; rfl)
        exact ⟨hs, fun _ hfair => hfair.idle hs rfl (fun k hk e he => ⟨k, hk, he⟩)
          (fun e he => .inl he)⟩
      · rename_i hq
        split at ht
        · cases ht
          have hs : HookSound ({ s with queue := [none] }.setCloser i
              { k with phase := .waiting, running := s.current }) :=
            h.idle rfl (by unfold HookState.queued; rw [hq]; rfl)
          refine ⟨hs, fun _ hfair => hfair.idle hs rfl (fun k' hk' e he => ?_)
            (fun e he => .inl he)⟩
          rcases mem_lost_set hk' he with hold | hn
          · exact hold
          · exact ⟨k, hk, hn⟩
        · cases ht
          exact h.keeps_returns hk
    · cases ht

theorem HookSound.keeps_expire (h : HookSound s) (i : ℕ) : StepKeeps capacity s (.expire i) := by
  intro t ht
  unfold hookStep HookState.expire at ht
  dsimp only at ht
  cases hc : s.closers[i]? with
  | none => rw [hc] at ht; cases ht
  | some k =>
    have hk := mem_of_getElem? hc
    rw [hc] at ht
    dsimp only at ht
    split at ht
    · cases ha : s.abandoned k with
      | none =>
        rw [ha] at ht
        cases ht
        refine ⟨h.idle rfl rfl, fun ho => ?_⟩
        obtain ⟨id, c, hso, -⟩ := ho k hc
        exact absurd (ha.symm.trans hso) nofun
      | some id =>
        rw [ha] at ht
        dsimp only at ht
        split at ht
        · cases ht
        rename_i c hi
        cases ht
        have hs : HookSound ((s.set id c.cancel).closeReturns i
            { k with lost := k.lost ++ [some id] }) := h.kept hi kept_cancel rfl rfl
        refine ⟨hs, fun ho hfair => ?_⟩
        obtain ⟨id', c', hso, hi', hac⟩ := ho k hc
        obtain rfl : id = id' := mem_unique ha hso
        obtain rfl : c = c' := mem_unique hi hi'
        have hd : Discarded c.cancel := by
          unfold HookCall.cancel
          rw [if_neg (hac ▸ nofun)]
          exact .withdraw hac
        have hl : ∀ e ∈ k.lost ++ [some id],
            (∃ k ∈ s.closers, e ∈ k.lost) ∨ e = some id ∧ Discarded c.cancel := by
          intro e he
          rcases mem_append.mp he with hold | hn
          · exact .inl ⟨k, hk, hold⟩
          · exact .inr ⟨mem_singleton.mp hn, hd⟩
        refine hfair.replace hs hi (fun _ => hd) (hfair.fair c (mem_of_getElem? hi)).cancel rfl
          (fun k' hk' e he => ?_) (fun e he => ?_)
        · rcases mem_lost_set hk' he with hold | hn
          · exact .inl hold
          · exact hl e hn
        · rcases mem_counted_returns he with hold | hn
          · exact .inl (.inl hold)
          rcases hl _ hn with hold | hn
          · exact .inl (.inr hold)
          · exact .inr hn
    · cases ht

theorem HookSound.keeps_close (h : HookSound s) : StepKeeps capacity s .close := by
  intro t ht
  cases ht
  have hs : HookSound s.close := h.idle rfl rfl
  refine ⟨hs, fun _ hfair => hfair.idle hs rfl (fun k hk e he => ?_) (fun e he => .inl he)⟩
  rcases mem_append.mp hk with hold | hn
  · exact ⟨k, hold, he⟩
  · obtain rfl := mem_singleton.mp hn
    cases he

theorem HookSound.keeps (h : HookSound s) (a : HookStep ρ) : StepKeeps capacity s a := by
  cases a with
  | tick elapsedMs =>
    intro t ht
    cases ht
    have hs : HookSound { s with nowMs := s.nowMs + elapsedMs } := h.idle rfl rfl
    exact ⟨hs, fun _ hfair => hfair.idle hs rfl (fun k hk e he => ⟨k, hk, he⟩)
      (fun e he => .inl he)⟩
  | submit timeoutMs => exact h.keeps_submit timeoutMs
  | take => exact h.keeps_take
  | start => exact h.keeps_start
  | enter => exact h.keeps_hook (.inl rfl)
  | hookReturns r writes => exact h.keeps_hook (.inr (.inl ⟨r, writes, rfl⟩))
  | hookRaises => exact h.keeps_hook (.inr (.inr (.inl rfl)))
  | accept => exact h.keeps_accept
  | write => exact h.keeps_commit (.inl rfl)
  | writeFails => exact h.keeps_commit (.inr (.inl rfl))
  | commitDone => exact h.keeps_commit (.inr (.inr rfl))
  | clear => exact h.keeps_hook (.inr (.inr (.inr rfl)))
  | apply id => exact h.keeps_loop (.inl rfl)
  | resume id => exact h.keeps_loop (.inr (.inl rfl))
  | timeOut id => exact h.keeps_timeOut id
  | cancelTask id => exact h.keeps_loop (.inr (.inr rfl))
  | close => exact h.keeps_close
  | drain i => exact h.keeps_drain i
  | joined i => exact h.keeps_joined i
  | expire i => exact h.keeps_expire i

/-! ### Result and writes -/

def HookState.fresh (nowMs : ℤ) : HookState ρ := { nowMs := nowMs }

theorem hookSound_fresh (nowMs : ℤ) : HookSound (HookState.fresh nowMs : HookState ρ) where
  calls _ h := absurd h not_mem_nil
  queue _ h := absurd h not_mem_nil
  nodup := nodup_nil

theorem hookFair_fresh (nowMs : ℤ) : HookFair (HookState.fresh nowMs : HookState ρ) where
  toHookSound := hookSound_fresh nowMs
  fair _ h := absurd h not_mem_nil
  counted _ h := absurd h not_mem_nil
  lost _ h := absurd h not_mem_nil

/-- Started at most once, as the first thing that happens to the call, and by its deadline. -/
def StartedOnce (c : HookCall ρ) : Prop :=
  c.history.countP CallEvent.isStart ≤ 1 ∧
    (∀ pre atMs post, c.history = pre ++ .started atMs :: post → pre = []) ∧
    ∀ atMs, .started atMs ∈ c.history → atMs ≤ c.deadline

theorem CallSound.startedOnce (h : CallSound c) : StartedOnce c := by
  have hf := h.first
  refine ⟨?_, fun pre atMs post hh => ?_, h.inTime⟩
  · cases hh : c.history with
    | nil => exact Nat.zero_le _
    | cons e rest =>
      rw [hh] at hf
      have hr : rest.countP CallEvent.isStart = 0 := countP_eq_zero.mpr fun e' he' =>
          Bool.not_eq_true _ ▸ rel_of_pairwise_cons hf he'
      rw [countP_cons]
      split <;> omega
  · rw [hh] at hf
    refine eq_nil_iff_forall_not_mem.mpr fun e he => ?_
    have hn := (pairwise_append.mp hf).2.2 e he _ mem_cons_self
    exact absurd hn nofun

/-- A call that returned wrote what its hook buffered; one that raised wrote nothing. -/
def AllOrNothing (c : HookCall ρ) : Prop :=
  (∀ r, c.wait = .returned r → c.hook = some (r, c.written)) ∧ (c.wait = .raised → c.written = [])

/-- Hooks start once in every run; result and writes stand or fall together, and what is counted was
discarded, in every orderly one. -/
theorem hook_all_or_nothing {nowMs : ℤ} {as : List (HookStep ρ)}
    (hrun : run (hookStep capacity) (.fresh nowMs) as = some s) :
    (∀ c ∈ s.calls, StartedOnce c) ∧
    (Meets (hookStep capacity) HookOrderly (.fresh nowMs) as → (∀ c ∈ s.calls, AllOrNothing c) ∧
      ∀ counted, (∃ e ∈ s.counted, counted = e.2) ∨ (∃ k ∈ s.closers, counted ∈ k.lost) →
        ∃ id c, counted = some id ∧ s.calls[id]? = some c ∧
          c.written = [] ∧ ∀ r, c.wait ≠ .returned r) := by
  have hsound : HookSound s :=
    run_invariant (fun _ a _ h ht => (h.keeps a _ ht).1) (hookSound_fresh nowMs) hrun
  refine ⟨fun c hc => (hsound.calls c hc).startedOnce, fun hmeets => ?_⟩
  have hstep : ∀ (s : HookState ρ) a t, HookFair s → HookOrderly s a → hookStep capacity s a = some t →
      HookFair t := fun _ a _ h ha ht => (h.keeps a _ ht).2 ha h
  have hfair : HookFair s := run_invariant_of_meets hstep (hookFair_fresh nowMs) hmeets hrun
  refine ⟨fun c hc => ⟨fun r hr => ?_, fun hr => ((hfair.fair c hc).raised hr).1⟩,
    fun counted hcounted => ?_⟩
  · exact ((hsound.calls c hc).result r (.inr ((hsound.calls c hc).returned r hr))).2
  have haccounted : Accounted s.calls counted := by
    rcases hcounted with ⟨e, he, rfl⟩ | ⟨k, hk, hlost⟩
    · exact hfair.counted e he
    · exact hfair.lost k hk counted hlost
  obtain ⟨id, c, hid, hc, hdiscarded⟩ := haccounted
  exact ⟨id, c, hid, hc, (hsound.calls c (mem_of_getElem? hc)).discarded hdiscarded⟩

/-- The second of two writes fails: the first stays, and the hook's task gets the error. -/
theorem hook_writes_half : ¬ ∀ (as : List (HookStep ℕ)) s, run (hookStep 4) (.fresh 0) as = some s →
      ∀ c ∈ s.calls, AllOrNothing c := by
  intro h
  have hhalf : (run (hookStep 4) (.fresh 0) [.submit 2000, .take, .start, .enter,
        .hookReturns 7 [(text "count", text "1"), (text "last", text "5")], .accept, .write,
        .writeFails, .apply 0, .resume 0]).any (fun s : HookState ℕ =>
      s.calls.any fun c => decide (c.wait = .raised ∧ c.written ≠ [])) = true := by
    decide +kernel
  obtain ⟨s, hrun, hcalls⟩ := (any_eq_true _ _).mp hhalf
  obtain ⟨c, hc, hboth⟩ := any_eq_true.mp hcalls
  obtain ⟨hraised, hwritten⟩ := of_decide_eq_true hboth
  exact hwritten ((h _ s hrun c hc).2 hraised)

def orderlyKind : HookStep ℕ → Bool
  | .writeFails | .cancelTask _ | .expire _ => false
  | _ => true

theorem hook_all_or_nothing_of_two : ∃ s : HookState ℕ, run (hookStep 4) (.fresh 0)
      [.submit 2000, .submit 2000, .take, .start, .enter, .close, .drain 0, .drain 0,
        .hookReturns 7 [(text "count", text "1")], .accept, .write, .commitDone, .apply 0,
        .resume 0, .apply 1, .resume 1, .clear, .take, .joined 0] = some s ∧
    (s.counter .lostAtShutdown = 1 ∧ s.calls.length = 2) ∧ ∀ c ∈ s.calls, AllOrNothing c := by
  obtain ⟨s, hrun, hcounts⟩ : ∃ s, run (hookStep 4) (.fresh 0) [.submit 2000, .submit 2000, .take,
    .start, .enter, .close, .drain 0, .drain 0, .hookReturns 7 [(text "count", text "1")], .accept,
    .write, .commitDone, .apply 0, .resume 0, .apply 1, .resume 1, .clear, .take, .joined 0] = some
    s ∧ s.counter .lostAtShutdown = 1 ∧ s.calls.length = 2 := exists_of_check (by decide +kernel)
  refine ⟨s, hrun, hcounts, ((hook_all_or_nothing hrun).2 ?_).1⟩
  refine meets_of_check (c := fun _ a => orderlyKind a) (fun s a ha => ?_) (by decide +kernel)
  cases a with
  | writeFails => cases ha
  | cancelTask id => cases ha
  | expire i => cases ha
  | _ => trivial

end OriRuntime
