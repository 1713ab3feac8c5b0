import OriRuntime.EvidenceExecutor

/-!
# The teardown of the evidence state

At most one teardown runs, on the worker, and every call that was taken on is counted until its end
is recorded. Nothing starts after the teardown, and no close returns before it, as long as no close
on the worker runs its teardown ahead of queued calls or meets a teardown still to come.
-/

namespace OriRuntime

open List Option

open Execution

variable {s t : ExecutorState}

def Plain (frames : List Frame) : Prop := ∀ f ∈ frames, f ≠ .teardown ∧ f ≠ .settling

/-- The frames of the worker before, in and after a teardown. -/
inductive FrameShape : TeardownPhase → List Frame → Prop
  | plain {phase frames} : Plain frames → phase ≠ .running → FrameShape phase frames
  | outside {frames} : Plain frames → FrameShape .running (frames ++ [.teardown])
  | inside {frames rest} : Plain frames → Plain rest →
      FrameShape .running (frames ++ .teardown :: .settling :: rest)
  | settling {phase rest} : Plain rest → phase = .absent ∨ phase = .finished →
      FrameShape phase (.settling :: rest)

def TeardownPhase.begun : TeardownPhase → Bool
  | .running | .finished => true
  | .absent | .queued => false

structure SoundExecutor (s : ExecutorState) : Prop where
  fresh : s.lifecycle = .opened → s.teardown = .absent ∧ Plain s.frames
  shape : FrameShape s.teardown s.frames
  last : s.teardown = .queued → ∃ pre, s.queue = pre ++ [.teardown] ∧ .teardown ∉ pre
  unqueued : s.teardown ≠ .queued → .teardown ∉ s.queue
  claimed : ∀ td, .claimed td ∈ s.closers →
    s.lifecycle ≠ .opened ∧ (td = false → s.teardown = .absent)
  joining : .joining ∈ s.closers → s.lifecycle = .closed
  settled : s.lifecycle = .closed → s.teardown = .absent ∨ s.teardown = .finished
  outermost : s.frames.getLast? = some .teardown → s.queue = []
  resting : s.teardown = .finished →
    s.lifecycle = .closed ∨ s.frames.head? = some .settling ∨ s.frames = [] ∧ s.queue = []
  started : s.log.count .teardownStarted = if s.teardown.begun = true then 1 else 0
  ended : .teardownFinished ∈ s.log ↔ s.teardown = .finished
  pending : s.pending = s.calls.countP (fun c => !c.recorded)
  ceiling : s.pending ≤ ExecutorState.pendingCeiling
  recorded : ∀ c ∈ s.calls, c.recorded = true → c.attached = true ∧ c.future.done = true

theorem soundExecutor_initial : SoundExecutor .initial where
  fresh _ := ⟨rfl, fun _ h => absurd h not_mem_nil⟩
  shape := .plain (fun _ h => absurd h not_mem_nil) nofun
  last h := nomatch h
  unqueued _ := not_mem_nil
  claimed _ h := absurd h not_mem_nil
  joining h := absurd h not_mem_nil
  settled h := nomatch h
  outermost h := nomatch h
  resting h := nomatch h
  started := rfl
  ended := ⟨fun h => absurd h not_mem_nil, nofun⟩
  pending := rfl
  ceiling := Nat.zero_le _
  recorded _ h := absurd h not_mem_nil

/-! ### Calls -/

theorem SoundExecutor.of_calls (h : SoundExecutor s) {calls : List EvidenceCall} {pending : ℕ}
    (hp : pending = calls.countP (fun c => !c.recorded)) (hl : pending ≤ s.pending)
    (hr : ∀ c ∈ calls, c.recorded = true → c.attached = true ∧ c.future.done = true) :
    SoundExecutor { s with calls := calls, pending := pending } :=
  { h with pending := hp, ceiling := hl.trans h.ceiling, recorded := hr }

variable {c : EvidenceCall} {i id : ℕ} {frames : List Frame} {phase : TeardownPhase} {f : Frame}
  {e : ExecutorEvent} {td : Bool} {a : ExecutorStep}

theorem mem_set_recorded (h : SoundExecutor s)
    (hc : c.recorded = true → c.attached = true ∧ c.future.done = true) :
    ∀ c' ∈ s.calls.set id c, c'.recorded = true → c'.attached = true ∧ c'.future.done = true := by
  intro c' hc'
  rcases mem_or_eq_of_mem_set hc' with hold | rfl
  · exact h.recorded c' hold
  · exact hc

theorem countP_setCall {c' : EvidenceCall} (hi : s.calls[id]? = some c)
    (hs : c'.recorded = c.recorded) :
    (s.calls.set id c').countP (fun c => !c.recorded) = s.calls.countP (fun c => !c.recorded) := by
  obtain ⟨hl, hg⟩ := List.getElem?_eq_some_iff.mp hi
  rw [countP_set hl, hg, hs]
  have he := boole_getElem_le_countP (p := fun c : EvidenceCall => !c.recorded) hl
  rw [hg] at he
  omega

theorem SoundExecutor.setCall (h : SoundExecutor s) {c' : EvidenceCall}
    (hi : s.calls[id]? = some c) (hs : c'.recorded = c.recorded)
    (hc' : c'.recorded = true → c'.attached = true ∧ c'.future.done = true) :
    SoundExecutor (s.setCall id c') :=
  h.of_calls (by rw [h.pending, countP_setCall hi hs]) le_rfl (mem_set_recorded h hc')

theorem SoundExecutor.recordEnd (h : SoundExecutor s) (hi : s.calls[id]? = some c)
    (hd : c.future.done = true) (ho : c.recorded = false) :
    SoundExecutor (s.recordEnd id c) := by
  refine h.of_calls ?_ (Nat.sub_le _ _) (mem_set_recorded h fun _ => ⟨rfl, hd⟩)
  obtain ⟨hl, hg⟩ := List.getElem?_eq_some_iff.mp hi
  change s.pending - 1 = (s.calls.set id _).countP _
  rw [countP_set hl, hg, ho, h.pending]
  rfl

theorem plain_getLast? {rest : List Frame} (h : Plain rest) :
    (Frame.settling :: rest).getLast? ≠ some .teardown := by
  intro hl
  rcases mem_cons.mp (mem_of_getLast? hl) with hs | hm
  · cases hs
  · exact absurd rfl (h _ hm).1

theorem FrameShape.running_of_getLast? (h : FrameShape phase frames)
    (hl : frames.getLast? = some .teardown) : phase = .running := by
  cases h with
  | plain hp hh => exact absurd rfl (hp _ (mem_of_getLast? hl)).1
  | outside hp => rfl
  | inside hp hr => rfl
  | settling hr hh => exact absurd hl (plain_getLast? hr)

theorem SoundExecutor.submit (h : SoundExecutor s) (awaited : Bool) :
    SoundExecutor (s.submit awaited) := by
  unfold ExecutorState.submit
  split <;> rename_i hlife
  · exact h
  split_ifs with hl
  · exact h
  have ha := (h.fresh (not_not.mp hlife)).1
  have hu := h.unqueued (ha ▸ nofun)
  refine { h with
    last := fun hq => ?_, unqueued := fun _ => ?_, outermost := fun hs => ?_
    resting := fun hf => ?_, pending := ?_, ceiling := ?_, recorded := ?_ }
  · exact absurd (ha.symm.trans hq) nofun
  · rw [mem_append, mem_singleton]
    exact fun hm => hm.elim hu nofun
  · exact absurd (ha.symm.trans (h.shape.running_of_getLast? hs)) nofun
  · exact absurd (ha.symm.trans hf) nofun
  · rw [countP_append, ← h.pending]
    rfl
  · exact Nat.lt_of_not_le hl
  · intro c hc hr
    rcases mem_append.mp hc with hc | hc
    · exact h.recorded c hc hr
    · obtain rfl := mem_singleton.mp hc
      cases hr

theorem SoundExecutor.attach (h : SoundExecutor s) (ht : s.attach id = some t) :
    SoundExecutor t := by
  unfold ExecutorState.attach at ht
  split at ht
  · cases ht
  rename_i c hi
  split at ht <;> rename_i ha
  · cases ht
  have ho : c.recorded = false := Bool.eq_false_iff.mpr fun hr =>
    ha (h.recorded c (mem_of_getElem? hi) hr).1
  split_ifs at ht with hd
  · cases ht
    exact h.recordEnd hi hd ho
  · cases ht
    exact h.setCall hi rfl fun hr =>
      absurd (ho.symm.trans hr) Bool.false_ne_true

theorem SoundExecutor.callback (h : SoundExecutor s) (ht : s.callback id = some t) :
    SoundExecutor t := by
  unfold ExecutorState.callback at ht
  split at ht
  · cases ht
  rename_i c hi
  split at ht <;> rename_i hr
  · cases ht
    exact h.recordEnd hi hr.2.1 hr.2.2
  · cases ht

theorem SoundExecutor.cancel (h : SoundExecutor s) (ht : s.cancel id = some t) :
    SoundExecutor t := by
  unfold ExecutorState.cancel at ht
  split at ht
  · cases ht
  rename_i c hi
  split at ht <;> rename_i ha
  · cases ht
    split_ifs with hw
    · exact h.setCall hi rfl fun _ => ⟨ha.2, rfl⟩
    · exact h
  · cases ht

/-! ### The worker -/

theorem Plain.cons (h : Plain frames) (hf : f ≠ .teardown ∧ f ≠ .settling) : Plain (f :: frames) :=
  forall_mem_cons.mpr ⟨hf, h⟩

theorem FrameShape.cons (h : FrameShape phase frames) (hhh : frames.head? ≠ some .settling)
    (hf : f ≠ .teardown ∧ f ≠ .settling) : FrameShape phase (f :: frames) := by
  cases h with
  | plain hp hh => exact .plain (hp.cons hf) hh
  | outside hp => exact .outside (hp.cons hf)
  | inside hp hr => exact .inside (hp.cons hf) hr
  | settling hr hh => exact absurd rfl hhh

theorem FrameShape.tail (h : FrameShape phase (f :: frames)) (hf : f ≠ .teardown ∧ f ≠ .settling) :
    FrameShape phase frames := by
  generalize ha : f :: frames = all at h
  cases h with
  | plain hp hh =>
    subst ha
    exact .plain (forall_mem_cons.mp hp).2 hh
  | @outside inner hp =>
    cases inner with
    | nil => exact absurd (List.cons.inj ha).1 hf.1
    | cons g inner =>
      obtain ⟨-, rfl⟩ := List.cons.inj ha
      exact .outside (forall_mem_cons.mp hp).2
  | @inside inner rest hp hr =>
    cases inner with
    | nil => exact absurd (List.cons.inj ha).1 hf.1
    | cons g inner =>
      obtain ⟨-, rfl⟩ := List.cons.inj ha
      exact .inside (forall_mem_cons.mp hp).2 hr
  | settling hr hh => exact absurd (List.cons.inj ha).1 hf.2

theorem FrameShape.of_teardown (h : FrameShape phase (.teardown :: frames)) :
    frames = [] ∨ ∃ rest, frames = .settling :: rest ∧ Plain rest := by
  generalize ha : Frame.teardown :: frames = all at h
  cases h with
  | plain hp hh =>
    subst ha
    exact absurd rfl (hp _ mem_cons_self).1
  | @outside inner hp =>
    cases inner with
    | nil => exact .inl (List.cons.inj ha).2
    | cons g inner => exact absurd (List.cons.inj ha).1.symm (hp g mem_cons_self).1
  | @inside inner rest hp hr =>
    cases inner with
    | nil => exact .inr ⟨rest, (List.cons.inj ha).2, hr⟩
    | cons g inner => exact absurd (List.cons.inj ha).1.symm (hp g mem_cons_self).1
  | settling hr hh => exact absurd (List.cons.inj ha).1 nofun

theorem FrameShape.running (h : FrameShape phase (.teardown :: frames)) : phase = .running := by
  generalize ha : Frame.teardown :: frames = all at h
  cases h with
  | plain hp hh =>
    subst ha
    exact absurd rfl (hp _ mem_cons_self).1
  | outside hp => rfl
  | inside hp hr => rfl
  | settling hr hh => exact absurd (List.cons.inj ha).1 nofun

theorem FrameShape.of_settling (h : FrameShape phase (.settling :: frames)) :
    Plain frames ∧ (phase = .absent ∨ phase = .finished) := by
  generalize ha : Frame.settling :: frames = all at h
  cases h with
  | plain hp hh =>
    subst ha
    exact absurd rfl (hp _ mem_cons_self).2
  | @outside inner hp =>
    cases inner with
    | nil => exact absurd (List.cons.inj ha).1 nofun
    | cons g inner => exact absurd (List.cons.inj ha).1.symm (hp g mem_cons_self).2
  | @inside inner rest hp hr =>
    cases inner with
    | nil => exact absurd (List.cons.inj ha).1 nofun
    | cons g inner => exact absurd (List.cons.inj ha).1.symm (hp g mem_cons_self).2
  | settling hr hh =>
    obtain ⟨-, rfl⟩ := List.cons.inj ha
    exact ⟨hr, hh⟩

theorem head_of_busy (h : s.busy = true) : s.frames ≠ [] ∧ s.frames.head? ≠ some .settling := by
  unfold ExecutorState.busy at h
  cases hf : s.frames with
  | nil => rw [hf] at h; cases h
  | cons f frames =>
    rw [hf] at h
    refine ⟨cons_ne_nil _ _, fun hh => ?_⟩
    obtain rfl : f = .settling := some.inj hh
    cases h

theorem SoundExecutor.note (h : SoundExecutor s) (hs : e ≠ .teardownStarted)
    (he : e ≠ .teardownFinished) : SoundExecutor (s.note e) := by
  refine { h with started := ?_, ended := ?_ }
  · change (s.log ++ [e]).count _ = _
    rw [count_append, h.started, count_singleton,
      if_neg (fun heq => hs (beq_iff_eq.mp heq)), Nat.add_zero]
    rfl
  · change _ ∈ s.log ++ [e] ↔ _
    rw [mem_append, mem_singleton, h.ended]
    exact or_iff_left (fun heq => he heq.symm)

theorem SoundExecutor.push (h : SoundExecutor s) (hf : f ≠ .teardown ∧ f ≠ .settling)
    (hh : s.frames.head? ≠ some .settling)
    (hc : s.teardown = .finished → s.lifecycle = .closed) :
    SoundExecutor { s with frames := f :: s.frames } := by
  refine { h with
    fresh := fun ho => ⟨(h.fresh ho).1, (h.fresh ho).2.cons hf⟩
    shape := h.shape.cons hh hf
    outermost := fun hl => ?_
    resting := fun hi => .inl (hc hi) }
  cases hr : s.frames with
  | nil =>
    rw [hr] at hl
    exact absurd (some.inj hl) hf.1
  | cons g frames =>
    rw [hr, List.getLast?_cons_cons, ← hr] at hl
    exact h.outermost hl

theorem SoundExecutor.inlineRun (h : SoundExecutor s) (ht : s.inlineRun = some t) :
    SoundExecutor t := by
  unfold ExecutorState.inlineRun at ht
  split at ht <;> rename_i hbusy
  · cases ht
  split_ifs at ht with hc
  · cases ht
    exact h
  cases ht
  obtain ⟨he, hh⟩ := head_of_busy (Bool.not_eq_false _ ▸ hbusy)
  refine (h.push (f := .inline) ⟨nofun, nofun⟩ hh fun hf => ?_).note nofun nofun
  rcases h.resting hf with hlife | hs | ⟨hn, -⟩
  · exact hlife
  · exact absurd hs hh
  · exact absurd hn he

theorem take_cases (ht : s.take = some t) : s.frames = [] ∧ ∃ item rest, s.queue = item :: rest ∧
      ((∃ id c, item = .call id ∧ s.calls[id]? = some c ∧
        (c.future = .waiting ∧ t = ({ s.setCall id { c with future := .running } with
            queue := rest, frames := [.call id] } : ExecutorState).note (.started id) ∨
          t = { s with queue := rest })) ∨
      item = .teardown ∧ t = ({ s with
        queue := rest, frames := [.teardown], teardown := .running } : ExecutorState).note
          .teardownStarted) := by
  unfold ExecutorState.take at ht
  cases hf : s.frames with
  | cons f frames => rw [hf] at ht; cases ht
  | nil =>
    refine ⟨rfl, ?_⟩
    cases hq : s.queue with
    | nil => rw [hf, hq] at ht; cases ht
    | cons item rest =>
      rw [hf, hq] at ht
      refine ⟨item, rest, rfl, ?_⟩
      cases item with
      | teardown => exact .inr ⟨rfl, (some.inj ht).symm⟩
      | call id =>
        dsimp only at ht
        split at ht
        · cases ht
        rename_i c hi
        refine .inl ⟨id, c, rfl, hi, ?_⟩
        split_ifs at ht with hw
        · exact .inl ⟨hw, (some.inj ht).symm⟩
        · exact .inr (some.inj ht).symm

theorem SoundExecutor.dequeue (h : SoundExecutor s) {rest : List WorkItem}
    (hq : s.queue = .call id :: rest) : SoundExecutor { s with queue := rest } := by
  refine { h with
    last := fun hqueu => ?_, unqueued := fun hh hm => ?_, outermost := fun hl => ?_
    resting := fun hf => ?_ }
  · obtain ⟨pre, hp, ho⟩ := h.last hqueu
    rw [hq] at hp
    cases pre with
    | nil => cases hp
    | cons i pre =>
      exact ⟨pre, (List.cons.inj hp).2, fun hm => ho (mem_cons_of_mem _ hm)⟩
  · exact h.unqueued hh (hq ▸ mem_cons_of_mem _ hm)
  · exact absurd (hq.symm.trans (h.outermost hl)) (cons_ne_nil _ _)
  · rcases h.resting hf with hlife | hs | ⟨-, hn⟩
    · exact .inl hlife
    · exact .inr (.inl hs)
    · exact absurd (hq.symm.trans hn) (cons_ne_nil _ _)

theorem SoundExecutor.teardown_taken (h : SoundExecutor s) {rest : List WorkItem}
    (hq : s.queue = .teardown :: rest) : s.teardown = .queued ∧ rest = [] := by
  have hqueu : s.teardown = .queued := by
    by_contra hh
    exact h.unqueued hh (hq ▸ mem_cons_self)
  obtain ⟨pre, hp, hn⟩ := h.last hqueu
  rw [hq] at hp
  cases pre with
  | nil => exact ⟨hqueu, (List.cons.inj hp).2⟩
  | cons i pre => exact absurd ((List.cons.inj hp).1 ▸ mem_cons_self) hn

theorem SoundExecutor.take (h : SoundExecutor s) (ht : s.take = some t) : SoundExecutor t := by
  obtain ⟨hf, item, rest, hq, ⟨id, c, rfl, hid, ⟨hw, rfl⟩ | rfl⟩ | ⟨rfl, rfl⟩⟩ := take_cases ht
  · have hs : SoundExecutor ({ s with queue := rest }.setCall id { c with future := .running }) :=
      (h.dequeue hq).setCall hid rfl fun hr => by
        have hd := (h.recorded c (mem_of_getElem? hid) hr).2
        rw [hw] at hd
        cases hd
    have hpush := hs.push (f := .call id) ⟨nofun, nofun⟩
      (by change s.frames.head? ≠ _; rw [hf]; exact nofun) (fun hi => by
        rcases h.resting hi with hlife | hsett | ⟨-, hn⟩
        · exact hlife
        · rw [hf] at hsett
          cases hsett
        · exact absurd (hq.symm.trans hn) (cons_ne_nil _ _))
    have hnote := hpush.note (e := .started id) nofun nofun
    rw [hf] at hnote
    exact hnote
  · exact h.dequeue hq
  · obtain ⟨hqueu, rfl⟩ := h.teardown_taken hq
    refine { h with
      fresh := fun ho => ?_, shape := .outside (fun _ h => absurd h not_mem_nil)
      last := nofun, unqueued := fun _ => not_mem_nil
      claimed := fun td htd => ?_, settled := fun hc => ?_, outermost := fun _ => rfl
      resting := nofun, started := ?_, ended := ?_ }
    · exact absurd ((h.fresh ho).1.symm.trans hqueu) nofun
    · obtain ⟨hlife, ha⟩ := h.claimed td htd
      exact ⟨hlife, fun hfa => absurd ((ha hfa).symm.trans hqueu) nofun⟩
    · rcases h.settled hc with ha | hi
      · exact absurd (ha.symm.trans hqueu) nofun
      · exact absurd (hi.symm.trans hqueu) nofun
    · change (s.log ++ [_]).count _ = _
      rw [count_append, h.started, hqueu]
      rfl
    · change _ ∈ s.log ++ [_] ↔ _
      rw [mem_append, h.ended, hqueu]
      exact ⟨fun h => h.elim nofun nofun, nofun⟩

theorem SoundExecutor.pop (h : SoundExecutor s) (hr : s.frames = f :: frames)
    (hf : f ≠ .teardown ∧ f ≠ .settling) : SoundExecutor { s with frames := frames } := by
  refine { h with
    fresh := fun ho => ⟨(h.fresh ho).1, (forall_mem_cons.mp (hr ▸ (h.fresh ho).2)).2⟩
    shape := (hr ▸ h.shape).tail hf, outermost := fun hl => ?_
    resting := fun hi => ?_ }
  · refine h.outermost ?_
    cases frames with
    | nil => cases hl
    | cons g frames =>
      rw [hr]
      exact hl
  · rcases h.resting hi with hlife | hs | ⟨hn, -⟩
    · exact .inl hlife
    · rw [hr] at hs
      exact absurd (some.inj hs) hf.2
    · exact absurd (hr.symm.trans hn) (cons_ne_nil _ _)

theorem SoundExecutor.finish (h : SoundExecutor s) (ht : s.finish = some t) : SoundExecutor t := by
  unfold ExecutorState.finish at ht
  cases hf : s.frames with
  | nil => rw [hf] at ht; cases ht
  | cons f frames =>
    rw [hf] at ht
    cases f with
    | call id =>
      dsimp only at ht
      split at ht
      · cases ht
      rename_i c hi
      cases ht
      have ho := h.pop hf ⟨nofun, nofun⟩
      exact ho.setCall hi rfl fun he =>
        ⟨(h.recorded c (mem_of_getElem? hi) he).1, rfl⟩
    | inline =>
      cases ht
      exact h.pop hf ⟨nofun, nofun⟩
    | teardown =>
      cases ht
      have hs := h.shape
      rw [hf] at hs
      have hr := hs.running
      have hrs := hs.of_teardown
      refine { h with
        fresh := fun hop => ?_, shape := ?_, last := nofun
        unqueued := fun _ => h.unqueued (hr ▸ nofun)
        claimed := fun td hd => ?_, settled := fun _ => .inr rfl, outermost := fun hl => ?_
        resting := fun _ => ?_, started := ?_, ended := ?_ }
      · exact absurd ((h.fresh hop).1.symm.trans hr) nofun
      · rcases hrs with rfl | ⟨rest, rfl, hp⟩
        · exact .plain (fun _ h => absurd h not_mem_nil) nofun
        · exact .settling hp (.inr rfl)
      · obtain ⟨hlife, ha⟩ := h.claimed td hd
        exact ⟨hlife, fun hfa => absurd ((ha hfa).symm.trans hr) nofun⟩
      · rcases hrs with rfl | ⟨rest, rfl, hp⟩
        · cases hl
        · exact absurd hl (plain_getLast? hp)
      · rcases hrs with rfl | ⟨rest, rfl, -⟩
        · exact .inr (.inr ⟨rfl, h.outermost (by rw [hf]; rfl)⟩)
        · exact .inr (.inl rfl)
      · change (s.log ++ [_]).count _ = _
        rw [count_append, h.started, hr]
        rfl
      · change _ ∈ s.log ++ [_] ↔ _
        exact ⟨fun _ => rfl, fun _ => mem_append_right _ mem_cons_self⟩
    | settling =>
      cases ht
      have hs := h.shape
      rw [hf] at hs
      obtain ⟨hp, hh⟩ := hs.of_settling
      have hn : s.teardown ≠ .running := by
        rcases hh with ha | hfi
        · exact ha ▸ nofun
        · exact hfi ▸ nofun
      have hc : SoundExecutor { s with frames := frames, lifecycle := .closed } :=
        { h with
          fresh := nofun, shape := .plain hp hn
          claimed := fun td hd => ⟨nofun, (h.claimed td hd).2⟩
          joining := fun _ => rfl, settled := fun _ => hh, resting := fun _ => .inl rfl
          outermost := fun hl => absurd rfl (hp _ (mem_of_getLast? hl)).1 }
      exact hc.note nofun nofun

/-! ### Closing -/

/-- A closer that neither claims nor joins. -/
def CloserPhase.Idle (p : CloserPhase) : Prop := (∀ td, p ≠ .claimed td) ∧ p ≠ .joining

theorem SoundExecutor.setCloser (h : SoundExecutor s) {p : CloserPhase} (hp : p.Idle) :
    SoundExecutor (s.setCloser i p) := by
  have hold : ∀ q, q ≠ p → q ∈ s.closers.set i p → q ∈ s.closers := fun q hq hm =>
    (mem_or_eq_of_mem_set hm).resolve_right hq
  exact { h with
    claimed := fun td ht => h.claimed td (hold _ (hp.1 td).symm ht)
    joining := fun hm => h.joining (hold _ hp.2.symm hm) }

theorem SoundExecutor.addCloser (h : SoundExecutor s) {p : CloserPhase} (hp : p.Idle) :
    SoundExecutor { s with closers := s.closers ++ [p] } := by
  have hold : ∀ q, q ≠ p → q ∈ s.closers ++ [p] → q ∈ s.closers := fun q hq hm =>
    (mem_append.mp hm).resolve_right fun heq => hq (mem_singleton.mp heq)
  exact { h with
    claimed := fun td ht => h.claimed td (hold _ (hp.1 td).symm ht)
    joining := fun hm => h.joining (hold _ hp.2.symm hm) }

theorem idle_waiting : CloserPhase.waiting.Idle := ⟨fun _ h => (nomatch h), nofun⟩

theorem idle_returned : CloserPhase.returned.Idle := ⟨fun _ h => (nomatch h), nofun⟩

theorem idle_timedOut : CloserPhase.timedOut.Idle := ⟨fun _ h => (nomatch h), nofun⟩

theorem close_cases (s : ExecutorState) (td : Bool) :
    (s.lifecycle = .opened ∧ s.close td = { s with
      lifecycle := .closing
      queue := if td = true then s.queue ++ [.teardown] else s.queue
      teardown := if td = true then .queued else .absent
      closers := s.closers ++ [.claimed td] }) ∨
    (s.lifecycle = .closing ∧ s.close td = { s with closers := s.closers ++ [.waiting] }) ∨
    (s.lifecycle = .closed ∧ s.close td =
      ({ s with closers := s.closers ++ [.returned] } : ExecutorState).note .closeReturned) := by
  unfold ExecutorState.close
  split
  · exact .inl ⟨‹_›, rfl⟩
  · exact .inr (.inl ⟨‹_›, rfl⟩)
  · exact .inr (.inr ⟨‹_›, rfl⟩)

theorem SoundExecutor.claim (h : SoundExecutor s) (td : Bool) (hlife : s.lifecycle = .opened) :
    SoundExecutor { s with
      lifecycle := .closing
      queue := if td = true then s.queue ++ [.teardown] else s.queue
      teardown := if td = true then .queued else .absent
      closers := s.closers ++ [.claimed td] } := by
  obtain ⟨ha, hp⟩ := h.fresh hlife
  have hu := h.unqueued (ha ▸ nofun)
  have hs := h.started
  have he := h.ended
  rw [ha] at hs he
  have hc : ∀ phase td', CloserPhase.claimed td' ∈ s.closers ++ [.claimed td] →
      (td = false → phase = .absent) →
      Lifecycle.closing ≠ .opened ∧ (td' = false → phase = TeardownPhase.absent) := by
    intro phase td' ht' hh
    refine ⟨nofun, fun hf => ?_⟩
    rcases mem_append.mp ht' with hold | hn
    · exact absurd hlife (h.claimed td' hold).1
    · exact hh ((CloserPhase.claimed.inj (mem_singleton.mp hn)) ▸ hf)
  have hj : CloserPhase.joining ∉ s.closers ++ [.claimed td] := by
    intro hm
    rcases mem_append.mp hm with hold | hn
    · exact absurd ((h.joining hold).symm.trans hlife) nofun
    · exact absurd (mem_singleton.mp hn) nofun
  cases td with
  | false =>
    exact { h with
      fresh := nofun, shape := .plain hp nofun
      last := nofun, unqueued := fun _ => hu
      claimed := fun td' ht' => hc .absent td' ht' (fun _ => rfl)
      joining := fun hm => absurd hm hj
      settled := nofun, resting := nofun
      started := hs, ended := he }
  | true =>
    exact { h with
      fresh := nofun, shape := .plain hp nofun
      last := fun _ => ⟨s.queue, rfl, hu⟩, unqueued := fun hh => absurd rfl hh
      claimed := fun td' ht' => hc .queued td' ht' nofun
      joining := fun hm => absurd hm hj
      settled := nofun, resting := nofun
      outermost := fun hl => absurd rfl (hp _ (mem_of_getLast? hl)).1
      started := hs, ended := he.trans ⟨nofun, nofun⟩ }

theorem SoundExecutor.close (h : SoundExecutor s) (td : Bool) : SoundExecutor (s.close td) := by
  rcases close_cases s td with ⟨hlife, hc⟩ | ⟨-, hc⟩ | ⟨-, hc⟩
  · rw [hc]
    exact h.claim td hlife
  · rw [hc]
    exact h.addCloser idle_waiting
  · rw [hc]
    exact (h.addCloser idle_returned).note (e := .closeReturned) nofun nofun

theorem settle_cases (ht : s.settle i = some t) : ∃ td, .claimed td ∈ s.closers ∧
    (td = true → s.teardown = .finished) ∧
      t = { s.setCloser i .joining with lifecycle := .closed } := by
  unfold ExecutorState.settle at ht
  cases hc : s.closers[i]? with
  | none => rw [hc] at ht; cases ht
  | some p =>
    rw [hc] at ht
    cases p with
    | claimed td =>
      dsimp only at ht
      split at ht <;> rename_i hwait
      · cases ht
      · exact ⟨td, mem_of_getElem? hc,
          fun hd => not_not.mp fun hn => hwait ⟨hd, hn⟩, (some.inj ht).symm⟩
    | joining => cases ht
    | waiting => cases ht
    | returned => cases ht
    | timedOut => cases ht

theorem SoundExecutor.settle (h : SoundExecutor s) (ht : s.settle i = some t) :
    SoundExecutor t := by
  obtain ⟨td, hm, hf, rfl⟩ := settle_cases ht
  refine { h with
    fresh := nofun
    claimed := fun td hd => ⟨nofun, (h.claimed td ?_).2⟩
    joining := fun _ => rfl, settled := fun _ => ?_, resting := fun _ => .inl rfl }
  · exact (mem_or_eq_of_mem_set hd).resolve_right nofun
  cases td with
  | false => exact .inl ((h.claimed false hm).2 rfl)
  | true => exact .inr (hf rfl)

theorem join_cases (ht : s.join i = some t) :
    .joining ∈ s.closers ∧ t = (s.setCloser i .returned).note .closeReturned := by
  unfold ExecutorState.join at ht
  split at ht <;> rename_i hr
  · exact ⟨mem_of_getElem? hr.1, (some.inj ht).symm⟩
  · cases ht

theorem wake_cases (ht : s.wake i = some t) :
    s.lifecycle = .closed ∧ t = (s.setCloser i .returned).note .closeReturned := by
  unfold ExecutorState.wake at ht
  split at ht <;> rename_i hr
  · exact ⟨hr.2, (some.inj ht).symm⟩
  · cases ht

theorem SoundExecutor.returned (h : SoundExecutor s) (i : ℕ) :
    SoundExecutor ((s.setCloser i .returned).note .closeReturned) :=
  (h.setCloser idle_returned).note nofun nofun

theorem SoundExecutor.timeOut (h : SoundExecutor s) (ht : s.timeOut i = some t) :
    SoundExecutor t := by
  unfold ExecutorState.timeOut at ht
  split at ht <;> rename_i hr
  · cases ht
    exact h.setCloser idle_timedOut
  · cases ht

theorem closeHere_cases (ht : s.closeHere td = some t) : s.busy = true ∧
    (s.lifecycle = .opened ∧ (td = true ∧ t = ({ s with
          lifecycle := .closing, frames := .teardown :: .settling :: s.frames
          teardown := .running } : ExecutorState).note .teardownStarted ∨
        td = false ∧ t = { s with lifecycle := .closing, frames := .settling :: s.frames }) ∨
      s.lifecycle ≠ .opened ∧ t = s.note .closeReturned) := by
  unfold ExecutorState.closeHere at ht
  split at ht <;> rename_i hbusy
  · cases ht
  refine ⟨Bool.not_eq_false _ ▸ hbusy, ?_⟩
  cases hlife : s.lifecycle with
  | closing =>
    rw [hlife] at ht
    exact .inr ⟨nofun, (some.inj ht).symm⟩
  | closed =>
    rw [hlife] at ht
    exact .inr ⟨nofun, (some.inj ht).symm⟩
  | opened =>
    rw [hlife] at ht
    cases td with
    | true => exact .inl ⟨rfl, .inl ⟨rfl, (some.inj ht).symm⟩⟩
    | false => exact .inl ⟨rfl, .inr ⟨rfl, (some.inj ht).symm⟩⟩

theorem SoundExecutor.closeHere (h : SoundExecutor s) (ht : s.closeHere td = some t) :
    SoundExecutor t := by
  obtain ⟨-, ⟨hlife, ⟨-, rfl⟩ | ⟨-, rfl⟩⟩ | ⟨-, rfl⟩⟩ := closeHere_cases ht
  · obtain ⟨ha, hp⟩ := h.fresh hlife
    refine { h with
      fresh := nofun
      shape := (FrameShape.inside (fun _ h => absurd h not_mem_nil) hp :
        FrameShape _ ([] ++ .teardown :: .settling :: s.frames))
      last := nofun
      unqueued := fun _ => h.unqueued (ha ▸ nofun)
      claimed := fun td hd => absurd hlife (h.claimed td hd).1
      joining := fun hm => absurd ((h.joining hm).symm.trans hlife) nofun
      settled := nofun, outermost := fun hl => ?_
      resting := nofun, started := ?_, ended := ?_ }
    · exact absurd hl (plain_getLast? hp)
    · change (s.log ++ [_]).count _ = _
      rw [count_append, h.started, ha]
      rfl
    · change _ ∈ s.log ++ [_] ↔ _
      rw [mem_append, h.ended, ha]
      exact ⟨fun h => h.elim nofun nofun, nofun⟩
  · obtain ⟨ha, hp⟩ := h.fresh hlife
    exact { h with
      fresh := nofun, shape := .settling hp (.inl ha)
      claimed := fun td hd => absurd hlife (h.claimed td hd).1
      joining := fun hm => absurd ((h.joining hm).symm.trans hlife) nofun
      settled := nofun, resting := fun _ => .inr (.inl rfl)
      outermost := fun hl => absurd hl (plain_getLast? hp) }
  · exact h.note nofun nofun

theorem SoundExecutor.step (h : SoundExecutor s) (ht : executorStep s a = some t) :
    SoundExecutor t := by
  cases a with
  | submit awaited => exact some.inj ht ▸ h.submit awaited
  | attach id => exact h.attach ht
  | callback id => exact h.callback ht
  | cancel id => exact h.cancel ht
  | inlineRun => exact h.inlineRun ht
  | take => exact h.take ht
  | finish => exact h.finish ht
  | close td => exact some.inj ht ▸ h.close td
  | settle i => exact h.settle ht
  | join i => exact (join_cases ht).2 ▸ h.returned i
  | wake i => exact (wake_cases ht).2 ▸ h.returned i
  | timeOut i => exact h.timeOut ht
  | closeHere td => exact h.closeHere ht

/-! ### Nothing after the teardown -/

/-- A close on the worker has no queued call behind it when it runs a teardown, and no teardown
before it when another closer is at work. -/
def Unhurried (s : ExecutorState) : ExecutorStep → Prop
  | .closeHere td => (s.lifecycle = .opened → td = true → s.queue = []) ∧
      (s.lifecycle = .closing → s.teardown = .absent)
  | _ => True

/-- Of two events in the log, neither a start after the teardown nor the teardown after a return. -/
def InOrder (e e' : ExecutorEvent) : Prop :=
  (e = .teardownFinished → e'.isStart = false) ∧ (e = .closeReturned → e' ≠ .teardownFinished)

structure QuietExecutor (s : ExecutorState) : Prop extends SoundExecutor s where
  drained : s.teardown.begun = true → s.queue = []
  ordered : s.log.Pairwise InOrder
  returned : .closeReturned ∈ s.log →
    s.lifecycle ≠ .opened ∧ (s.teardown = .absent ∨ s.teardown = .finished)

theorem quietExecutor_initial : QuietExecutor .initial where
  toSoundExecutor := soundExecutor_initial
  drained h := nomatch h
  ordered := List.Pairwise.nil
  returned h := absurd h not_mem_nil

theorem QuietExecutor.of_same (h : QuietExecutor s) (hs : SoundExecutor t)
    (hq : s.queue = [] → s.lifecycle ≠ .opened → t.queue = []) (hl : t.log = s.log)
    (hlife : s.lifecycle ≠ .opened → t.lifecycle ≠ .opened) (hp : t.teardown = s.teardown) :
    QuietExecutor t where
  toSoundExecutor := hs
  drained hb := by
    rw [hp] at hb
    refine hq (h.drained hb) fun ho => ?_
    rw [(h.fresh ho).1] at hb
    cases hb
  ordered := hl ▸ h.ordered
  returned hm := by
    rw [hl] at hm
    rw [hp]
    exact ⟨hlife (h.returned hm).1, (h.returned hm).2⟩

theorem QuietExecutor.of_start (h : QuietExecutor s) (hs : SoundExecutor t)
    (hq : s.teardown.begun = true → t.queue = []) (hl : t.log = s.log ++ [e])
    (he : e ≠ .teardownFinished ∧ e ≠ .closeReturned) (hp : s.teardown ≠ .finished)
    (hlife : t.lifecycle = s.lifecycle) (hsm : t.teardown = s.teardown) : QuietExecutor t where
  toSoundExecutor := hs
  drained hb := hq (hsm ▸ hb)
  ordered := by
    rw [hl]
    refine pairwise_append.mpr ⟨h.ordered, pairwise_singleton _ _, ?_⟩
    intro e' he' e'' he''
    obtain rfl := mem_singleton.mp he''
    refine ⟨?_, fun _ => he.1⟩
    rintro rfl
    exact absurd (h.ended.mp he') hp
  returned hm := by
    rw [hl, mem_append, mem_singleton] at hm
    rw [hlife, hsm]
    exact h.returned (hm.resolve_right (fun heq => he.2 heq.symm))

theorem QuietExecutor.of_return (h : QuietExecutor s) (hs : SoundExecutor t)
    (hq : s.queue = [] → t.queue = []) (hl : t.log = s.log ++ [.closeReturned])
    (hp : s.teardown = .absent ∨ s.teardown = .finished) (hlife : t.lifecycle ≠ .opened)
    (hm : t.teardown = s.teardown) : QuietExecutor t where
  toSoundExecutor := hs
  drained hb := hq (h.drained (hm ▸ hb))
  ordered := by
    rw [hl]
    refine pairwise_append.mpr ⟨h.ordered, pairwise_singleton _ _, ?_⟩
    intro e he e' he'
    obtain rfl := mem_singleton.mp he'
    exact ⟨fun _ => rfl, fun _ h => (nomatch h)⟩
  returned _ := ⟨hlife, hm ▸ hp⟩

theorem QuietExecutor.of_teardown (h : QuietExecutor s) (hs : SoundExecutor t)
    (hl : t.log = s.log ++ [e]) (he : e.isStart = false) (hr : e ≠ .closeReturned)
    (hn : ExecutorEvent.closeReturned ∉ s.log) (hq : t.queue = []) : QuietExecutor t where
  toSoundExecutor := hs
  drained _ := hq
  ordered := by
    rw [hl]
    refine pairwise_append.mpr ⟨h.ordered, pairwise_singleton _ _, ?_⟩
    intro e' he' e'' he''
    obtain rfl := mem_singleton.mp he''
    refine ⟨fun _ => he, ?_⟩
    rintro rfl
    exact absurd he' hn
  returned hm := by
    rw [hl, mem_append, mem_singleton] at hm
    exact absurd hm (not_or.mpr ⟨hn, fun heq => hr heq.symm⟩)

theorem QuietExecutor.no_return (h : QuietExecutor s)
    (hp : s.lifecycle = .opened ∨ s.teardown = .queued ∨ s.teardown = .running) :
    ExecutorEvent.closeReturned ∉ s.log := by
  intro hm
  obtain ⟨hlife, ha | hf⟩ := h.returned hm
  · rcases hp with ho | hq | hr
    · exact hlife ho
    · exact absurd (ha.symm.trans hq) nofun
    · exact absurd (ha.symm.trans hr) nofun
  · rcases hp with ho | hq | hr
    · exact hlife ho
    · exact absurd (hf.symm.trans hq) nofun
    · exact absurd (hf.symm.trans hr) nofun

theorem QuietExecutor.submit (h : QuietExecutor s) (awaited : Bool) :
    QuietExecutor (s.submit awaited) := by
  have hs := h.toSoundExecutor.submit awaited
  unfold ExecutorState.submit at hs ⊢
  by_cases hlife : s.lifecycle ≠ .opened
  · rw [if_pos hlife]
    exact h
  rw [if_neg hlife] at hs ⊢
  by_cases hf : ExecutorState.pendingCeiling ≤ s.pending
  · rw [if_pos hf]
    exact h
  rw [if_neg hf] at hs ⊢
  exact h.of_same hs (fun _ hn => absurd hn hlife) rfl id rfl

theorem QuietExecutor.call (h : QuietExecutor s)
    (ha : ∃ id, a = .attach id ∨ a = .callback id ∨ a = .cancel id) (ht : executorStep s a = some t) :
    QuietExecutor t := by
  have hs := h.toSoundExecutor.step ht
  suffices hf : t.queue = s.queue ∧ t.log = s.log ∧ t.lifecycle = s.lifecycle ∧
      t.teardown = s.teardown by
    obtain ⟨hq, hl, hlife, hp⟩ := hf
    exact h.of_same hs (fun hn _ => hq.trans hn) hl (hlife ▸ id) hp
  obtain ⟨id, rfl | rfl | rfl⟩ := ha
  · unfold executorStep ExecutorState.attach at ht
    dsimp only at ht
    split at ht
    · cases ht
    rename_i c hi
    split at ht
    · cases ht
    · split at ht <;> obtain rfl := some.inj ht <;> exact ⟨rfl, rfl, rfl, rfl⟩
  · unfold executorStep ExecutorState.callback at ht
    dsimp only at ht
    split at ht
    · cases ht
    rename_i c hi
    split at ht
    · cases ht
      exact ⟨rfl, rfl, rfl, rfl⟩
    · cases ht
  · unfold executorStep ExecutorState.cancel at ht
    dsimp only at ht
    split at ht
    · cases ht
    rename_i c hi
    split at ht
    · cases ht
      split <;> exact ⟨rfl, rfl, rfl, rfl⟩
    · cases ht

theorem QuietExecutor.inlineRun (h : QuietExecutor s) (ht : s.inlineRun = some t) :
    QuietExecutor t := by
  have hs := h.toSoundExecutor.inlineRun ht
  unfold ExecutorState.inlineRun at ht
  split at ht <;> rename_i hbusy
  · cases ht
  split_ifs at ht with hc
  · cases ht
    exact h
  cases ht
  obtain ⟨he, hh⟩ := head_of_busy (Bool.not_eq_false _ ▸ hbusy)
  refine h.of_start hs h.drained rfl ⟨nofun, nofun⟩ (fun hf => ?_) rfl rfl
  rcases h.resting hf with hlife | hse | ⟨hn, -⟩
  · exact hc hlife
  · exact hh hse
  · exact he hn

theorem QuietExecutor.take (h : QuietExecutor s) (ht : s.take = some t) : QuietExecutor t := by
  have hs := h.toSoundExecutor.take ht
  obtain ⟨hr, item, rest, hq, ⟨id, c, rfl, hd, ⟨hw, rfl⟩ | rfl⟩ | ⟨rfl, rfl⟩⟩ := take_cases ht
  · have hn : s.teardown.begun ≠ true := fun hb =>
      absurd (hq.symm.trans (h.drained hb)) (cons_ne_nil _ _)
    exact h.of_start hs (fun hb => absurd hb hn) rfl
      ⟨nofun, nofun⟩ (fun hf => hn (hf ▸ rfl)) rfl rfl
  · exact h.of_same hs (fun hi _ => absurd (hq.symm.trans hi) (cons_ne_nil _ _))
      rfl (fun h => h) rfl
  · obtain ⟨hqueu, rfl⟩ := h.toSoundExecutor.teardown_taken hq
    exact h.of_teardown hs rfl rfl nofun (h.no_return (.inr (.inl hqueu))) rfl

theorem QuietExecutor.finish (h : QuietExecutor s) (ht : s.finish = some t) : QuietExecutor t := by
  have hs := h.toSoundExecutor.finish ht
  have hh := h.shape
  unfold ExecutorState.finish at ht
  cases hf : s.frames with
  | nil => rw [hf] at ht; cases ht
  | cons f frames =>
    rw [hf] at ht hh
    cases f with
    | call id =>
      dsimp only at ht
      split at ht
      · cases ht
      rename_i c hi
      cases ht
      exact h.of_same hs (fun hn _ => hn) rfl (fun h => h) rfl
    | inline =>
      cases ht
      exact h.of_same hs (fun hn _ => hn) rfl id rfl
    | teardown =>
      cases ht
      have hr := hh.running
      exact h.of_teardown hs rfl rfl nofun
        (h.no_return (.inr (.inr hr))) (h.drained (by rw [hr]; rfl))
    | settling =>
      cases ht
      exact h.of_return hs id rfl hh.of_settling.2 nofun rfl

theorem QuietExecutor.close (h : QuietExecutor s) (td : Bool) : QuietExecutor (s.close td) := by
  have hs := h.toSoundExecutor.close td
  rcases close_cases s td with ⟨hlife, hc⟩ | ⟨-, hc⟩ | ⟨hlife, hc⟩
  · rw [hc] at hs ⊢
    refine ⟨hs, fun hb => ?_, h.ordered, fun hm => ?_⟩
    · cases td <;> cases hb
    · exact absurd hm (h.no_return (.inl hlife))
  · rw [hc] at hs ⊢
    exact h.of_same hs (fun hn _ => hn) rfl id rfl
  · rw [hc] at hs ⊢
    exact h.of_return hs id rfl (h.settled hlife) (hlife ▸ nofun) rfl

theorem QuietExecutor.closeHere (h : QuietExecutor s) (ha : Unhurried s (.closeHere td))
    (ht : s.closeHere td = some t) : QuietExecutor t := by
  have hs := h.toSoundExecutor.closeHere ht
  obtain ⟨-, ⟨hlife, ⟨hd, rfl⟩ | ⟨-, rfl⟩⟩ | ⟨hlife, rfl⟩⟩ := closeHere_cases ht
  · exact h.of_teardown hs rfl rfl nofun (h.no_return (.inl hlife)) (ha.1 hlife hd)
  · exact h.of_same hs (fun hn _ => hn) rfl (fun _ h => (nomatch h)) rfl
  · refine h.of_return hs id rfl ?_ hlife rfl
    cases hc : s.lifecycle with
    | opened => exact absurd hc hlife
    | closing => exact .inl (ha.2 hc)
    | closed => exact h.settled hc

theorem QuietExecutor.step (h : QuietExecutor s) (ha : Unhurried s a)
    (ht : executorStep s a = some t) : QuietExecutor t := by
  have hs := h.toSoundExecutor.step ht
  cases a with
  | submit awaited => exact some.inj ht ▸ h.submit awaited
  | attach id => exact h.call ⟨id, .inl rfl⟩ ht
  | callback id => exact h.call ⟨id, .inr (.inl rfl)⟩ ht
  | cancel id => exact h.call ⟨id, .inr (.inr rfl)⟩ ht
  | inlineRun => exact h.inlineRun ht
  | take => exact h.take ht
  | finish => exact h.finish ht
  | close td => exact some.inj ht ▸ h.close td
  | settle i =>
    obtain ⟨td, hm, -, rfl⟩ := settle_cases ht
    exact h.of_same hs (fun hn _ => hn) rfl (fun _ h => (nomatch h)) rfl
  | join i =>
    obtain ⟨hm, rfl⟩ := join_cases ht
    have hc := h.joining hm
    exact h.of_return hs id rfl (h.settled hc) (hc ▸ nofun) rfl
  | wake i =>
    obtain ⟨hc, rfl⟩ := wake_cases ht
    exact h.of_return hs id rfl (h.settled hc) (hc ▸ nofun) rfl
  | timeOut i =>
    unfold executorStep ExecutorState.timeOut at ht
    dsimp only at ht
    split at ht
    · cases ht
      exact h.of_same hs (fun hn _ => hn) rfl id rfl
    · cases ht
  | closeHere td => exact h.closeHere ha ht

theorem pairwise_after {r : ExecutorEvent → ExecutorEvent → Prop} {log : List ExecutorEvent}
    (h : log.Pairwise r) {pre post : List ExecutorEvent} (hl : log = pre ++ e :: post) :
    ∀ e' ∈ post, r e e' := by
  rw [hl] at h
  exact fun e' he' => rel_of_pairwise_cons (pairwise_append.mp h).2.1 he'

/-- At most one teardown, and every call counted, in every run; nothing after the teardown and no
return before it, in every run without a hurried close on the worker. -/
theorem evidence_teardown_last {as : List ExecutorStep}
    (hrun : run executorStep .initial as = some s) :
    (s.log.count .teardownStarted ≤ 1 ∧ s.pending = s.calls.countP (fun c => !c.recorded) ∧
      (∀ c ∈ s.calls, c.recorded = true → c.future.done = true) ∧
      s.pending ≤ ExecutorState.pendingCeiling) ∧
    (Meets executorStep Unhurried .initial as →
      (∀ pre post, s.log = pre ++ .teardownFinished :: post → ∀ e ∈ post, e.isStart = false) ∧
      (s.teardown ≠ .absent →
        ∀ pre post, s.log = pre ++ .closeReturned :: post → .teardownFinished ∈ pre)) := by
  have hsound : SoundExecutor s :=
    run_invariant (fun _ _ _ h ht => h.step ht) soundExecutor_initial hrun
  refine ⟨⟨?_, hsound.pending, fun c hc hrecorded => (hsound.recorded c hc hrecorded).2,
    hsound.ceiling⟩, fun hmeets => ?_⟩
  · rw [hsound.started]
    split <;> omega
  · have hquiet : QuietExecutor s :=
      run_invariant_of_meets (fun _ _ _ h ha ht => h.step ha ht) quietExecutor_initial hmeets hrun
    refine ⟨fun pre post hlog e he => (pairwise_after hquiet.ordered hlog e he).1 rfl,
      fun hphase pre post hlog => ?_⟩
    have hreturned : ExecutorEvent.closeReturned ∈ s.log := hlog ▸ mem_append_right _ mem_cons_self
    have hfinished := (hquiet.returned hreturned).2.resolve_left hphase
    have hmem := hquiet.ended.mpr hfinished
    rw [hlog, mem_append, mem_cons] at hmem
    rcases hmem with hpre | heq | hpost
    · exact hpre
    · exact absurd heq nofun
    · exact absurd rfl ((pairwise_after hquiet.ordered hlog _ hpost).2 rfl)

/-- A call behind the closing call runs against what its teardown has closed. -/
theorem queued_call_after_teardown : ¬ ∀ as s, run executorStep .initial as = some s →
      ∀ pre post, s.log = pre ++ .teardownFinished :: post → ∀ e ∈ post, e.isStart = false := by
  intro h
  have hlate : (run executorStep .initial
      [.submit false, .attach 0, .take, .submit false, .attach 1, .closeHere true, .finish, .finish,
        .finish, .callback 0, .take]).map ExecutorState.log =
      some [.started 0, .teardownStarted, .teardownFinished, .closeReturned, .started 1] := by
    decide
  obtain ⟨s, hrun, hlog⟩ := map_eq_some_iff.mp hlate
  exact absurd (h _ s hrun [.started 0, .teardownStarted] [.closeReturned, .started 1] hlog
    (.started 1) (by decide)) (by decide)

def notHere : ExecutorStep → Bool
  | .closeHere _ => false
  | _ => true

theorem evidence_teardown_last_two_calls : ∃ s, run executorStep .initial
      [.submit false, .submit true, .attach 1, .attach 0, .close true, .cancel 1, .callback 1, .take,
        .inlineRun, .finish, .finish, .callback 0, .take, .take, .finish, .settle 0, .join 0] =
      some s ∧
    s.pending = 0 ∧
    ∀ pre post, s.log = pre ++ .teardownFinished :: post → ∀ e ∈ post, e.isStart = false := by
  obtain ⟨s, hrun, hpending⟩ : ∃ s, run executorStep .initial
      [.submit false, .submit true, .attach 1, .attach 0, .close true, .cancel 1, .callback 1, .take,
        .inlineRun, .finish, .finish, .callback 0, .take, .take, .finish, .settle 0, .join 0] =
      some s ∧ s.pending = 0 := exists_of_check (by decide)
  refine ⟨s, hrun, hpending, ((evidence_teardown_last hrun).2 ?_).1⟩
  refine meets_of_check (c := fun _ a => notHere a) (fun s a ha => ?_) (by decide)
  cases a with
  | closeHere td => cases ha
  | _ => trivial

end OriRuntime
