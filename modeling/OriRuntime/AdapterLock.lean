import OriRuntime.AdapterHeld

/-!
# The lifecycle lock

Under the lock at most one body runs and the adapter is not connected. Between bodies the resource
is held exactly while the adapter is connected, or where a close body that ended early left it.
-/

namespace OriRuntime

open List Option

open Execution

variable {s t : AdapterState}

def LifecycleEvent.isOver : LifecycleEvent → Bool
  | .returned _ => true
  | .raised _ => true
  | .refused _ => true
  | _ => false

def lastOver (log : List LifecycleEvent) : Option LifecycleEvent :=
  (log.filter LifecycleEvent.isOver).getLast?

variable {log : List LifecycleEvent} {e : LifecycleEvent}

theorem lastOver_append_of_isOver (h : e.isOver = true) : lastOver (log ++ [e]) = some e := by
  unfold lastOver
  rw [filter_append, filter_cons_of_pos h, filter_nil, List.getLast?_concat]

theorem lastOver_append_of_not_isOver (h : e.isOver = false) :
    lastOver (log ++ [e]) = lastOver log := by
  unfold lastOver
  rw [filter_append, filter_cons_of_neg (by rw [h]; simp), filter_nil, append_nil]

def LifecycleCall.UnderLock (c : LifecycleCall) : Prop :=
  c.phase = .body ∨ c.phase = .releasing

structure AdapterSound (s : AdapterState) : Prop where
  history : LogSound s.calls s.generation s.log
  alone : ∀ i c, s.calls[i]? = some c → c.UnderLock → s.holder = some i
  inside : ∀ i, s.holder = some i → ∃ c, s.calls[i]? = some c ∧ c.UnderLock
  running : ∀ i, s.holder = some i → s.connected = false
  between : s.holder = none → (s.held = true ↔ s.connected = true ∨ s.left = true)
  apart : s.left = true → s.connected = false
  closed : s.holder = none → ∀ i, lastOver s.log = some (.returned i) →
    ∃ c, s.calls[i]? = some c ∧ (c.kind = .close → s.connected = false ∧ s.held = false)

theorem AdapterSound.start : AdapterSound {} where
  history :=
    { counted := rfl
      sampled := fun i pre rest h => by cases pre <;> cases h
      untouched := fun i pre mid post h => by cases pre <;> cases h }
  alone := fun i c h => by cases h
  inside := fun i h => by cases h
  running := fun i h => by cases h
  between := fun _ => by simp
  apart := fun _ => rfl
  closed := fun _ i h => by cases h

/-! ### The calls after a step -/

variable {calls : List LifecycleCall} {i j : ℕ} {c d : LifecycleCall}

theorem call_of_set (h : (calls.set i d)[j]? = some c) : (i = j ∧ c = d) ∨ calls[j]? = some c := by
  by_cases hm : i = j
  · subst hm
    have hl : i < calls.length := by
      obtain ⟨hl, -⟩ := List.getElem?_eq_some_iff.mp h
      rwa [length_set] at hl
    rw [List.getElem?_set_self hl] at h
    exact .inl ⟨rfl, (some.inj h).symm⟩
  · rw [List.getElem?_set_ne hm] at h
    exact .inr h

theorem call_of_append (h : (calls ++ [d])[j]? = some c) : calls[j]? = some c ∨ c = d := by
  rcases Nat.lt_trichotomy j calls.length with hl | rfl | hg
  · rw [List.getElem?_append_left hl] at h
    exact .inl h
  · rw [List.getElem?_concat_length] at h
    exact .inr (some.inj h).symm
  · obtain ⟨hl, -⟩ := List.getElem?_eq_some_iff.mp h
    rw [length_append, length_singleton] at hl
    omega

theorem not_underLock_of_waiting (h : c.phase = .waiting) : ¬ c.UnderLock := by
  intro hu
  rcases hu with hp | hp <;> rw [h] at hp <;> cases hp

/-! ### Calls outside the lock -/

namespace AdapterSound

variable (hs : AdapterSound s)

include hs

theorem joined (hd : d.phase = .waiting) {generation : ℕ} (he : e.isOver = false)
    (hl : LogSound (s.calls ++ [d]) generation (s.log ++ [e])) :
    AdapterSound (AdapterState.note
      { s with generation := generation, calls := s.calls ++ [d] } e) where
  history := hl
  running := hs.running
  between := hs.between
  apart := hs.apart
  alone j c hi hu := by
    rcases call_of_append hi with hold | rfl
    · exact hs.alone j c hold hu
    · exact absurd hu (not_underLock_of_waiting hd)
  inside j hj := by
    obtain ⟨c, hi, hu⟩ := hs.inside j hj
    obtain ⟨ht, -⟩ := List.getElem?_eq_some_iff.mp hi
    refine ⟨c, ?_, hu⟩
    change (s.calls ++ [d])[j]? = some c
    rw [List.getElem?_append_left ht]
    exact hi
  closed hf j hls := by
    change lastOver (s.log ++ [e]) = _ at hls
    rw [lastOver_append_of_not_isOver he] at hls
    obtain ⟨c, hi, hc⟩ := hs.closed hf j hls
    obtain ⟨ht, -⟩ := List.getElem?_eq_some_iff.mp hi
    refine ⟨c, ?_, hc⟩
    change (s.calls ++ [d])[j]? = some c
    rw [List.getElem?_append_left ht]
    exact hi

theorem connect : AdapterSound s.connect := by
  have h := hs.joined (e := .connectCalled s.calls.length) rfl rfl hs.history.called
  exact h

theorem close : AdapterSound s.close := by
  have h := hs.joined (e := .closeRequested s.calls.length) (d := ⟨.close, s.generation + 1, .waiting⟩)
    rfl rfl (hs.history.requested _ _)
  exact h

variable {phase : LifecyclePhase}

theorem turnedAway (hi : s.calls[i]? = some c) (hw : c.phase = .waiting)
    (hp : phase = .raised ∨ phase = .refused) (he : e = .raised i ∨ e = .refused i) :
    AdapterSound ((s.setPhase i c phase).note e) where
  history := by
    refine (hs.history.setPhase hi phase).note ?_ ?_ ?_
    · rcases he with rfl | rfl <;> rfl
    · rintro j rfl
      rcases he with h | h <;> cases h
    · rintro j pre mid rfl
      rcases he with h | h <;> cases h
  running := hs.running
  between := hs.between
  apart := hs.apart
  alone j d hd hu := by
    rcases call_of_set hd with ⟨-, rfl⟩ | hold
    · rcases hp with rfl | rfl <;> rcases hu with h | h <;> cases h
    · exact hs.alone j d hold hu
  inside j hj := by
    obtain ⟨d, hd, hu⟩ := hs.inside j hj
    by_cases hm : i = j
    · subst hm
      obtain rfl := mem_unique hi hd
      exact absurd hu (not_underLock_of_waiting hw)
    · refine ⟨d, ?_, hu⟩
      change (s.calls.set i { c with phase := phase })[j]? = some d
      rw [List.getElem?_set_ne hm]
      exact hd
  closed _ j hl := by
    change lastOver (s.log ++ [e]) = _ at hl
    rw [lastOver_append_of_isOver (by rcases he with rfl | rfl <;> rfl)] at hl
    cases hl
    rcases he with h | h <;> cases h

theorem abandon (ht : s.abandon i = some t) : AdapterSound t := by
  obtain ⟨c, hi, hw, rfl⟩ := AdapterState.abandon_cases ht
  exact hs.turnedAway hi hw (.inl rfl) (.inl rfl)

/-! ### Calls under the lock -/

theorem underLock (hi : s.calls[i]? = some c) (hh : s.holder = none ∨ s.holder = some i)
    (hp : phase = .body ∨ phase = .releasing) : AdapterSound
      { s.setPhase i c phase with holder := some i, connected := false } where
  history := hs.history.setPhase hi phase
  inside j hj := by
    cases hj
    obtain ⟨hl, -⟩ := List.getElem?_eq_some_iff.mp hi
    exact ⟨_, List.getElem?_set_self hl, hp⟩
  running _ _ := rfl
  between hf := by cases hf
  apart _ := rfl
  alone j d hd hu := by
    rcases call_of_set hd with ⟨rfl, -⟩ | hold
    · rfl
    have hj := hs.alone j d hold hu
    rcases hh with hf | hmine
    · rw [hf] at hj
      cases hj
    · exact hmine.symm.trans hj
  closed hf := by cases hf

theorem acquire (ht : s.acquire i = some t) : AdapterSound t := by
  obtain ⟨c, hf, hi, hw, ⟨-, -, rfl⟩ | ⟨-, hc, rfl⟩ | ⟨-, rfl⟩⟩ := AdapterState.acquire_cases ht
  · exact hs.turnedAway hi hw (.inr rfl) (.inr rfl)
  · have h := hs.underLock hi (.inl hf) (.inl rfl)
    rw [← hc] at h
    exact h
  · exact hs.underLock hi (.inl hf) (.inl rfl)

theorem setHeld (hh : s.holder = some i) (held : Bool) : AdapterSound { s with held := held } where
  history := hs.history
  inside := hs.inside
  running := hs.running
  apart := hs.apart
  alone := hs.alone
  between hf := by
    rw [hh] at hf
    cases hf
  closed hf := by
    rw [hh] at hf
    cases hf

theorem stays (hh : s.holder = some i) (hi : s.calls[i]? = some c) :
    AdapterSound (s.setPhase i c .releasing) := by
  have h := hs.underLock hi (.inr hh) (.inr rfl)
  rw [← hs.running i hh, ← hh] at h
  exact h

theorem leave (connected held left : Bool) (hh : s.holder = some i)
    (hi : s.calls[i]? = some c) (hp : phase = .returned ∨ phase = .raised)
    (hl : LogSound (s.calls.set i { c with phase := phase }) s.generation (s.log ++ [e]))
    (he : e.isOver = true) (hb : held = true ↔ connected = true ∨ left = true)
    (ha : left = true → connected = false)
    (hcl : ∀ j, e = .returned j → j = i ∧ (c.kind = .close → connected = false ∧ held = false)) :
    AdapterSound { s.leave i c phase e with connected := connected, held := held, left := left }
    where
  history := hl
  inside j hj := by cases hj
  running j hj := by cases hj
  between _ := hb
  apart := ha
  alone j d hd hu := by
    rcases call_of_set hd with ⟨-, rfl⟩ | hold
    · rcases hp with rfl | rfl <;> rcases hu with h | h <;> cases h
    · have hj := mem_unique hh (hs.alone j d hold hu)
      subst hj
      obtain ⟨ht, -⟩ := List.getElem?_eq_some_iff.mp hi
      change (s.calls.set i { c with phase := phase })[i]? = some d at hd
      rw [List.getElem?_set_self ht] at hd
      cases hd
      rcases hp with rfl | rfl <;> rcases hu with h | h <;> cases h
  closed _ j hls := by
    change lastOver (s.log ++ [e]) = _ at hls
    rw [lastOver_append_of_isOver he] at hls
    obtain ⟨rfl, hc⟩ := hcl j (some.inj hls)
    obtain ⟨ht, -⟩ := List.getElem?_eq_some_iff.mp hi
    exact ⟨_, List.getElem?_set_self ht, hc⟩

theorem take (ht : s.take = some t) : AdapterSound t := by
  obtain ⟨i, hh, rfl⟩ := AdapterState.take_cases ht
  exact hs.setHeld hh true

theorem drop (ht : s.drop phase = some t) : AdapterSound t := by
  obtain ⟨i, hh, rfl⟩ := AdapterState.drop_cases ht
  exact hs.setHeld hh false

theorem ends (ht : s.ends = some t) : AdapterSound t := by
  obtain ⟨i, c, hh, hi, -, ha⟩ := AdapterState.ends_cases ht
  rcases ha with ⟨-, -, rfl⟩ | ⟨hk, hm, hd, rfl⟩ | ⟨hk, hd, rfl⟩
  · exact hs.stays hh hi
  · obtain ⟨hlt, -⟩ := List.getElem?_eq_some_iff.mp hi
    have hl := (hs.history.setPhase hi .returned).returned (List.getElem?_set_self hlt) (.inl hm)
    have h := hs.leave true s.held false hh hi (.inl rfl) hl rfl (by simp [hd]) nofun
      (fun j hj => ⟨(LifecycleEvent.returned.inj hj).symm, fun hcl => by
        rw [hk] at hcl
        cases hcl⟩)
    exact h
  · obtain ⟨hlt, -⟩ := List.getElem?_eq_some_iff.mp hi
    have hl := (hs.history.setPhase hi .returned).returned (List.getElem?_set_self hlt) (.inr hk)
    have hc := hs.running i hh
    have h := hs.leave s.connected s.held false hh hi
      (.inl rfl) hl rfl (by simp [hd, hc]) (fun _ => hc)
      (fun j hj => ⟨(LifecycleEvent.returned.inj hj).symm, fun _ => ⟨hc, hd⟩⟩)
    exact h

theorem raised (hi : s.calls[i]? = some c) :
    LogSound (s.calls.set i { c with phase := .raised }) s.generation (s.log ++ [.raised i]) :=
  (hs.history.setPhase hi .raised).note rfl nofun nofun

theorem fails (ht : s.fails = some t) : AdapterSound t := by
  obtain ⟨i, c, hh, hi, -, ⟨-, rfl⟩ | ⟨-, rfl⟩⟩ := AdapterState.fails_cases ht
  · exact hs.stays hh hi
  have hc := hs.running i hh
  have h := hs.leave s.connected s.held s.held hh hi
    (.inr rfl) (hs.raised hi) rfl (by simp [hc]) (fun _ => hc)
    nofun
  exact h

theorem released (ht : s.released = some t) : AdapterSound t := by
  obtain ⟨i, c, hh, hi, -, rfl⟩ := AdapterState.released_cases ht
  have hc := hs.running i hh
  have h := hs.leave s.connected false false hh hi
    (.inr rfl) (hs.raised hi) rfl (by simp [hc]) nofun
    nofun
  exact h

theorem step {a : AdapterStep} (ht : adapterStep s a = some t) : AdapterSound t := by
  cases a with
  | connect => exact some.inj ht ▸ hs.connect
  | close => exact some.inj ht ▸ hs.close
  | acquire i => exact hs.acquire ht
  | abandon i => exact hs.abandon ht
  | take => exact hs.take ht
  | drop phase => exact hs.drop ht
  | ends => exact hs.ends ht
  | fails => exact hs.fails ht
  | released => exact hs.released ht

end AdapterSound

theorem run_adapterSound {as : List AdapterStep} (h : run adapterStep {} as = some s) :
    AdapterSound s :=
  run_invariant (fun _ _ _ hs ht => hs.step ht) AdapterSound.start h

end OriRuntime
