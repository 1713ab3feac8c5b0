import OriRuntime.AdapterLifecycle

/-!
# What an adapter holds

A connect that returned was not overtaken by a close, and between bodies the resource is held
exactly while the adapter is connected, but for what a close body that ended early has left.
-/

namespace OriRuntime

open List Option

variable {s t : AdapterState}

/-! ### Closes requested between a connect's call and its return -/

structure LogSound (calls : List LifecycleCall) (generation : ℕ) (log : List LifecycleEvent) :
    Prop where
  counted : generation = log.countP LifecycleEvent.isRequest
  sampled : ∀ i pre rest, log = pre ++ .connectCalled i :: rest → ∃ c, calls[i]? = some c ∧
    c.kind = .connect ∧ c.generation = pre.countP LifecycleEvent.isRequest
  untouched : ∀ i pre mid post, log = pre ++ .connectCalled i :: (mid ++ .returned i :: post) →
    ∀ e ∈ mid, e.isRequest = false

theorem split_append_singleton {α : Type} {log pre rest : List α} {e e' : α}
    (h : log ++ [e] = pre ++ e' :: rest) :
    (rest = [] ∧ e = e' ∧ log = pre) ∨ ∃ rest', rest = rest' ++ [e] ∧ log = pre ++ e' :: rest' := by
  rcases eq_nil_or_concat' rest with rfl | ⟨rest', last, rfl⟩
  · obtain ⟨rfl, hs⟩ := append_inj' h rfl
    exact .inl ⟨rfl, singleton_injective hs, rfl⟩
  · rw [← cons_append, ← append_assoc] at h
    obtain ⟨hl, hs⟩ := append_inj' h rfl
    obtain rfl := singleton_injective hs
    exact .inr ⟨rest', rfl, hl⟩

variable {calls : List LifecycleCall} {generation : ℕ} {log : List LifecycleEvent}

theorem LogSound.setPhase (h : LogSound calls generation log) {i : ℕ} {c : LifecycleCall}
    (hi : calls[i]? = some c) (phase : LifecyclePhase) :
    LogSound (calls.set i { c with phase := phase }) generation log where
  counted := h.counted
  untouched := h.untouched
  sampled j pre rest hl := by
    obtain ⟨d, hd, hk, hg⟩ := h.sampled j pre rest hl
    by_cases hs : i = j
    · subst hs
      obtain rfl : d = c := mem_unique hd hi
      obtain ⟨ht, -⟩ := List.getElem?_eq_some_iff.mp hi
      exact ⟨_, List.getElem?_set_self ht, hk, hg⟩
    · exact ⟨d, by rw [List.getElem?_set_ne hs]; exact hd, hk, hg⟩

theorem LogSound.addCall (h : LogSound calls generation log) (c : LifecycleCall) :
    LogSound (calls ++ [c]) generation log where
  counted := h.counted
  untouched := h.untouched
  sampled j pre rest hl := by
    obtain ⟨d, hd, hr⟩ := h.sampled j pre rest hl
    obtain ⟨ht, -⟩ := List.getElem?_eq_some_iff.mp hd
    exact ⟨d, by rw [List.getElem?_append_left ht]; exact hd, hr⟩

theorem LogSound.note (h : LogSound calls generation log) {e : LifecycleEvent}
    (he : e.isRequest = false) (hc : ∀ i, e ≠ .connectCalled i)
    (hr : ∀ i pre mid, e = .returned i → log = pre ++ .connectCalled i :: mid →
      ∀ e ∈ mid, e.isRequest = false) : LogSound calls generation (log ++ [e]) where
  counted := by
    rw [countP_append, ← h.counted, countP_singleton, if_neg (by rw [he]; simp)]
    rfl
  sampled i pre rest hl := by
    rcases split_append_singleton hl with ⟨-, heq, -⟩ | ⟨rest', -, hold⟩
    · exact absurd heq (hc i)
    · exact h.sampled i pre rest' hold
  untouched i pre mid post hl := by
    rw [← cons_append, ← append_assoc] at hl
    rcases split_append_singleton hl with ⟨-, heq, hold⟩ | ⟨post', -, hold⟩
    · exact hr i pre mid heq hold
    · rw [append_assoc, cons_append] at hold
      exact h.untouched i pre mid post' hold

theorem LogSound.called (h : LogSound calls generation log) :
    LogSound (calls ++ [⟨.connect, generation, .waiting⟩]) generation
      (log ++ [.connectCalled calls.length]) where
  counted := by
    rw [countP_append, ← h.counted]
    rfl
  sampled i pre rest hl := by
    rcases split_append_singleton hl with ⟨-, heq, rfl⟩ | ⟨rest', -, hold⟩
    · obtain rfl := LifecycleEvent.connectCalled.inj heq
      exact ⟨_, List.getElem?_concat_length, rfl, h.counted⟩
    · exact (h.addCall _).sampled i pre rest' hold
  untouched i pre mid post hl := by
    rw [← cons_append, ← append_assoc] at hl
    rcases split_append_singleton hl with ⟨-, heq, -⟩ | ⟨post', -, hold⟩
    · cases heq
    · rw [append_assoc, cons_append] at hold
      exact h.untouched i pre mid post' hold

theorem LogSound.requested (h : LogSound calls generation log) (c : LifecycleCall) (i : ℕ) :
    LogSound (calls ++ [c]) (generation + 1) (log ++ [.closeRequested i]) where
  counted := by
    rw [countP_append, ← h.counted]
    rfl
  sampled j pre rest hl := by
    rcases split_append_singleton hl with ⟨-, heq, -⟩ | ⟨rest', -, hold⟩
    · cases heq
    · exact (h.addCall c).sampled j pre rest' hold
  untouched j pre mid post hl := by
    rw [← cons_append, ← append_assoc] at hl
    rcases split_append_singleton hl with ⟨-, heq, -⟩ | ⟨post', -, hold⟩
    · cases heq
    · rw [append_assoc, cons_append] at hold
      exact h.untouched j pre mid post' hold

theorem LogSound.returned (h : LogSound calls generation log) {i : ℕ} {c : LifecycleCall}
    (hi : calls[i]? = some c) (hs : generation = c.generation ∨ c.kind = .close) :
    LogSound calls generation (log ++ [.returned i]) := by
  refine h.note rfl nofun fun j pre mid heq hl e he => ?_
  obtain rfl := LifecycleEvent.returned.inj heq
  obtain ⟨d, hd, hk, hg⟩ := h.sampled i pre mid hl
  obtain rfl : d = c := mem_unique hd hi
  have hs := hs.resolve_right fun hc => absurd (hk.symm.trans hc) nofun
  have hn := h.counted
  rw [hl, countP_append, countP_cons_of_neg (by simp [LifecycleEvent.isRequest]), ← hg, ← hs] at hn
  have hzero : mid.countP LifecycleEvent.isRequest = 0 := by omega
  exact Bool.not_eq_true _ ▸ countP_eq_zero.mp hzero e he

/-! ### The steps, by what they find -/

namespace AdapterState

variable {phase : LifecyclePhase}

theorem underLock_cases {f : ℕ → LifecycleCall → Option AdapterState}
    (ht : s.underLock phase f = some t) : ∃ i c, s.holder = some i ∧ s.calls[i]? = some c ∧
      c.phase = phase ∧ f i c = some t := by
  unfold underLock at ht
  cases hh : s.holder with
  | none =>
    rw [hh] at ht
    cases ht
  | some i =>
    rw [hh] at ht
    cases hi : s.calls[i]? with
    | none =>
      simp only [hi] at ht
      cases ht
    | some c =>
      simp only [hi] at ht
      split at ht <;> rename_i hp
      · exact ⟨i, c, rfl, hi, hp, ht⟩
      · cases ht

theorem acquire_cases {i : ℕ} (ht : s.acquire i = some t) : ∃ c, s.holder = none ∧
    s.calls[i]? = some c ∧ c.phase = .waiting ∧ ((c.kind = .connect ∧ s.connected = true ∧
          t = (s.setPhase i c .refused).note (.refused i)) ∨
        (c.kind = .connect ∧ s.connected = false ∧
          t = { s.setPhase i c .body with holder := some i }) ∨
        (c.kind = .close ∧
          t = { s.setPhase i c .body with holder := some i, connected := false })) := by
  unfold acquire at ht
  cases hh : s.holder with
  | some j =>
    rw [hh] at ht
    cases ht
  | none =>
    cases hi : s.calls[i]? with
    | none =>
      simp only [hh, hi] at ht
      cases ht
    | some c =>
      simp only [hh, hi] at ht
      by_cases hp : c.phase = .waiting
      · rw [if_neg (not_not.mpr hp)] at ht
        refine ⟨c, rfl, rfl, hp, ?_⟩
        cases hk : c.kind with
        | connect =>
          simp only [hk] at ht
          cases hc : s.connected with
          | true =>
            rw [if_pos hc] at ht
            exact .inl ⟨rfl, rfl, (some.inj ht).symm⟩
          | false =>
            rw [if_neg (by rw [hc]; simp)] at ht
            exact .inr (.inl ⟨rfl, rfl, (some.inj ht).symm⟩)
        | close =>
          simp only [hk] at ht
          exact .inr (.inr ⟨rfl, (some.inj ht).symm⟩)
      · rw [if_pos hp] at ht
        cases ht

theorem abandon_cases {i : ℕ} (ht : s.abandon i = some t) : ∃ c, s.calls[i]? = some c ∧
    c.phase = .waiting ∧ t = (s.setPhase i c .raised).note (.raised i) := by
  unfold abandon at ht
  cases hi : s.calls[i]? with
  | none =>
    rw [hi] at ht
    cases ht
  | some c =>
    simp only [hi] at ht
    by_cases hp : c.phase = .waiting
    · rw [if_neg (not_not.mpr hp)] at ht
      exact ⟨c, rfl, hp, (some.inj ht).symm⟩
    · rw [if_pos hp] at ht
      cases ht

theorem ends_cases (ht : s.ends = some t) : ∃ i c, s.holder = some i ∧ s.calls[i]? = some c ∧
    c.phase = .body ∧
      ((c.kind = .connect ∧ s.generation ≠ c.generation ∧ t = s.setPhase i c .releasing) ∨
        (c.kind = .connect ∧ s.generation = c.generation ∧ s.held = true ∧
          t = { s.leave i c .returned (.returned i) with connected := true, left := false }) ∨
        (c.kind = .close ∧ s.held = false ∧
          t = { s.leave i c .returned (.returned i) with left := false })) := by
  obtain ⟨i, c, hh, hi, hp, ht⟩ := underLock_cases ht
  refine ⟨i, c, hh, hi, hp, ?_⟩
  cases hk : c.kind with
  | connect =>
    simp only [hk] at ht
    cases hd : s.held with
    | false =>
      rw [if_pos hd] at ht
      cases ht
    | true =>
      rw [if_neg (by rw [hd]; simp)] at ht
      by_cases hs : s.generation = c.generation
      · rw [if_neg (not_not.mpr hs)] at ht
        exact .inr (.inl ⟨rfl, hs, rfl, (some.inj ht).symm⟩)
      · rw [if_pos hs] at ht
        exact .inl ⟨rfl, hs, (some.inj ht).symm⟩
  | close =>
    simp only [hk] at ht
    cases hd : s.held with
    | true =>
      rw [if_pos hd] at ht
      cases ht
    | false =>
      rw [if_neg (by rw [hd]; simp)] at ht
      exact .inr (.inr ⟨rfl, rfl, (some.inj ht).symm⟩)

theorem fails_cases (ht : s.fails = some t) : ∃ i c, s.holder = some i ∧ s.calls[i]? = some c ∧
    c.phase = .body ∧ ((c.kind = .connect ∧ t = s.setPhase i c .releasing) ∨
        (c.kind = .close ∧ t = { s.leave i c .raised (.raised i) with left := s.held })) := by
  obtain ⟨i, c, hh, hi, hp, ht⟩ := underLock_cases ht
  refine ⟨i, c, hh, hi, hp, ?_⟩
  cases hk : c.kind with
  | connect =>
    simp only [hk] at ht
    exact .inl ⟨rfl, (some.inj ht).symm⟩
  | close =>
    simp only [hk] at ht
    exact .inr ⟨rfl, (some.inj ht).symm⟩

theorem released_cases (ht : s.released = some t) : ∃ i c, s.holder = some i ∧
    s.calls[i]? = some c ∧ c.phase = .releasing ∧
      t = { s.leave i c .raised (.raised i) with held := false, left := false } := by
  obtain ⟨i, c, hh, hi, hp, ht⟩ := underLock_cases ht
  exact ⟨i, c, hh, hi, hp, (some.inj ht).symm⟩

theorem take_cases (ht : s.take = some t) : ∃ i, s.holder = some i ∧ t = { s with held := true } := by
  obtain ⟨i, -, hh, -, -, ht⟩ := underLock_cases ht
  exact ⟨i, hh, (some.inj ht).symm⟩

theorem drop_cases (ht : s.drop phase = some t) :
    ∃ i, s.holder = some i ∧ t = { s with held := false } := by
  obtain ⟨i, -, hh, -, -, ht⟩ := underLock_cases ht
  exact ⟨i, hh, (some.inj ht).symm⟩

end AdapterState

end OriRuntime
