import OriRuntime.AdapterLock

/-!
# Connects and closes over a run

What a connect that raises gives back, what a refused connect leaves alone, and what every run of
overlapping connects and closes keeps.
-/

namespace OriRuntime

open List Option

open Execution

variable {s t : AdapterState}

/-! ### Calls that raise and calls that are refused -/

/-- What a call that did not get the lock leaves as it is. -/
structure Untouched (s t : AdapterState) : Prop where
  connected : t.connected = s.connected
  held : t.held = s.held
  generation : t.generation = s.generation
  holder : t.holder = s.holder
  left : t.left = s.left

/-- The one event a step may append. -/
inductive Ended (s t : AdapterState) : Prop
  | open (h : ∀ e, t.log = s.log ++ [e] → e.isOver = false)
  | refused (i : ℕ) (h : t.log = s.log ++ [.refused i]) (hsame : Untouched s t)
  | abandoned (i : ℕ) (h : t.log = s.log ++ [.raised i]) (hsame : Untouched s t)
  | returned (i : ℕ) (h : t.log = s.log ++ [.returned i])
  | closeFailed (i : ℕ) (h : t.log = s.log ++ [.raised i])
      (hclose : ∃ c, s.calls[i]? = some c ∧ c.kind = .close)
  | released (i : ℕ) (h : t.log = s.log ++ [.raised i]) (hheld : t.held = false)

theorem Ended.of_log_eq (h : t.log = s.log) : Ended s t := by
  refine .open fun e he => ?_
  have hl := congrArg List.length (h.symm.trans he)
  rw [length_append, length_singleton] at hl
  omega

theorem adapterStep_ended {a : AdapterStep} (ht : adapterStep s a = some t) : Ended s t := by
  cases a with
  | connect | close =>
    cases ht
    exact .open fun e he => singleton_injective (append_cancel_left he) ▸ rfl
  | acquire i =>
    obtain ⟨c, -, -, -, ⟨-, -, rfl⟩ | ⟨-, -, rfl⟩ | ⟨-, rfl⟩⟩ := AdapterState.acquire_cases ht
    · exact .refused i rfl ⟨rfl, rfl, rfl, rfl, rfl⟩
    all_goals exact .of_log_eq rfl
  | abandon i =>
    obtain ⟨c, -, -, rfl⟩ := AdapterState.abandon_cases ht
    exact .abandoned i rfl ⟨rfl, rfl, rfl, rfl, rfl⟩
  | take =>
    obtain ⟨i, -, rfl⟩ := AdapterState.take_cases ht
    exact .of_log_eq rfl
  | drop phase =>
    obtain ⟨i, -, rfl⟩ := AdapterState.drop_cases ht
    exact .of_log_eq rfl
  | ends =>
    obtain ⟨i, c, -, -, -, ⟨-, -, rfl⟩ | ⟨-, -, -, rfl⟩ | ⟨-, -, rfl⟩⟩ := AdapterState.ends_cases ht
    · exact .of_log_eq rfl
    all_goals exact .returned i rfl
  | fails =>
    obtain ⟨i, c, -, hi, -, ⟨-, rfl⟩ | ⟨hk, rfl⟩⟩ := AdapterState.fails_cases ht
    · exact .of_log_eq rfl
    · exact .closeFailed i rfl ⟨c, hi, hk⟩
  | released =>
    obtain ⟨i, c, -, -, -, rfl⟩ := AdapterState.released_cases ht
    exact .released i rfl rfl

theorem Ended.of_refused (h : Ended s t) {i : ℕ} (hl : t.log = s.log ++ [.refused i]) :
    Untouched s t := by
  cases h with
  | «open» h => exact absurd (h _ hl) (by simp [LifecycleEvent.isOver])
  | refused j h hs | abandoned j h hs => exact hs
  | returned j h | closeFailed j h hc | released j h hh =>
    cases append_cancel_left (hl.symm.trans h)

theorem Ended.of_raised (h : Ended s t) {i : ℕ} {c : LifecycleCall}
    (hl : t.log = s.log ++ [.raised i]) (hi : s.calls[i]? = some c) (hk : c.kind = .connect) :
    Untouched s t ∨ t.held = false := by
  cases h with
  | «open» h => exact absurd (h _ hl) (by simp [LifecycleEvent.isOver])
  | refused j h hs | abandoned j h hs => exact .inl hs
  | returned j h => cases append_cancel_left (hl.symm.trans h)
  | closeFailed j h hc =>
    cases append_cancel_left (hl.symm.trans h)
    obtain ⟨d, hd, hc⟩ := hc
    obtain rfl := mem_unique hi hd
    rw [hk] at hc
    cases hc
  | released j h hh => exact .inr hh

/-! ### Closes that release before they fail -/

/-- No body of a close fails while the resource is held. -/
def ReleasesFirst (s : AdapterState) (a : AdapterStep) : Prop :=
  a = .fails → ∀ i c, s.holder = some i → s.calls[i]? = some c → c.kind = .close → s.held = false

theorem left_step {a : AdapterStep} (hl : s.left = false) (hf : ReleasesFirst s a)
    (ht : adapterStep s a = some t) : t.left = false := by
  cases a with
  | connect | close => exact some.inj ht ▸ hl
  | acquire i =>
    obtain ⟨c, -, -, -, ⟨-, -, rfl⟩ | ⟨-, -, rfl⟩ | ⟨-, rfl⟩⟩ := AdapterState.acquire_cases ht <;>
      exact hl
  | abandon i =>
    obtain ⟨c, -, -, rfl⟩ := AdapterState.abandon_cases ht
    exact hl
  | take =>
    obtain ⟨i, -, rfl⟩ := AdapterState.take_cases ht
    exact hl
  | drop phase =>
    obtain ⟨i, -, rfl⟩ := AdapterState.drop_cases ht
    exact hl
  | ends =>
    obtain ⟨i, c, -, -, -, ⟨-, -, rfl⟩ | ⟨-, -, -, rfl⟩ | ⟨-, -, rfl⟩⟩ := AdapterState.ends_cases ht
    · exact hl
    · rfl
    · rfl
  | fails =>
    obtain ⟨i, c, hh, hi, -, ⟨-, rfl⟩ | ⟨hk, rfl⟩⟩ := AdapterState.fails_cases ht
    · exact hl
    · exact hf rfl i c hh hi hk
  | released =>
    obtain ⟨i, c, -, -, -, rfl⟩ := AdapterState.released_cases ht
    rfl

/-! ### Every run -/

def AdapterState.Idle (s : AdapterState) : Prop := ∀ c ∈ s.calls, ¬ c.UnderLock

theorem AdapterSound.free_of_idle (hs : AdapterSound s) (hidle : s.Idle) : s.holder = none := by
  cases hh : s.holder with
  | none => rfl
  | some i =>
    obtain ⟨c, hi, hu⟩ := hs.inside i hh
    exact absurd hu (hidle c (mem_of_getElem? hi))

theorem AdapterSound.held_of_connected (hs : AdapterSound s) (hc : s.connected = true) :
    s.held = true := by
  cases hh : s.holder with
  | none => exact (hs.between hh).mpr (.inl hc)
  | some i =>
    rw [hs.running i hh] at hc
    cases hc

theorem adapter_lifecycle {as : List AdapterStep} (h : run adapterStep {} as = some s) :
    (∀ i j : ℕ, ∀ c d : LifecycleCall, s.calls[i]? = some c → s.calls[j]? = some d →
      c.UnderLock → d.UnderLock → i = j) ∧
    (s.connected = true → s.held = true) ∧
    (s.Idle → (s.held = true ↔ s.connected = true ∨ s.left = true)) ∧
    (s.left = true → s.connected = false) ∧
    (Meets adapterStep ReleasesFirst {} as → s.left = false) ∧
    (∀ i pre mid post, s.log = pre ++ .connectCalled i :: (mid ++ .returned i :: post) →
      ∀ e ∈ mid, e.isRequest = false) ∧
    (∀ a t i, adapterStep s a = some t → t.log = s.log ++ [.refused i] → Untouched s t) ∧
    (∀ a t, ∀ i : ℕ, ∀ c : LifecycleCall, adapterStep s a = some t → t.log = s.log ++ [.raised i] →
      s.calls[i]? = some c → c.kind = .connect → Untouched s t ∨ t.held = false) ∧
    (s.Idle → ∀ i : ℕ, ∀ c : LifecycleCall, lastOver s.log = some (.returned i) → s.calls[i]? = some c →
      c.kind = .close → s.connected = false ∧ s.held = false) := by
  have hs := run_adapterSound h
  refine ⟨?_, hs.held_of_connected, fun hidle => hs.between (hs.free_of_idle hidle), hs.apart,
    fun hmeets => ?_, hs.history.untouched, fun a t i ht => (adapterStep_ended ht).of_refused,
    fun a t i c ht => (adapterStep_ended ht).of_raised, fun hidle i c hlast hid hkind => ?_⟩
  · intro i j c d hi hj hc hd
    exact mem_unique (hs.alone i c hi hc) (hs.alone j d hj hd)
  · have hstep : ∀ u a v, u.left = false → ReleasesFirst u a → adapterStep u a = some v →
        v.left = false := fun u a v => left_step
    exact run_invariant_of_meets hstep rfl hmeets h
  · obtain ⟨d, hd, hclose⟩ := hs.closed (hs.free_of_idle hidle) i hlast
    obtain rfl := mem_unique hid hd
    exact hclose hkind

/-- A connect, then a close whose body is cancelled before it releases. -/
def cancelledClose : List AdapterStep :=
  [.connect, .acquire 0, .take, .ends, .close, .acquire 1, .fails]

theorem cancelledClose_leaves_held : ∃ s, run adapterStep {} cancelledClose = some s ∧ s.Idle ∧
    ¬ (s.held = true ↔ s.connected = true) := by
  refine ⟨_, rfl, ?_, by decide⟩
  intro c hc
  fin_cases hc <;> exact fun h => by rcases h with h | h <;> cases h

theorem adapter_lifecycle_of_cancelled_close :
    ∃ s, run adapterStep {} cancelledClose = some s ∧ s.connected = false ∧ s.left = true ∧
      (s.left = true → s.connected = false) :=
  ⟨_, rfl, rfl, rfl, (adapter_lifecycle (show run adapterStep {} cancelledClose = some _ from rfl)).2.2.2.1⟩

end OriRuntime
