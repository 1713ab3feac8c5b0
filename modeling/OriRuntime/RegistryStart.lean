import OriRuntime.SafetyRegistry

/-!
# What a start leaves behind

A start loads one machine per pair the journal or the assembly knows and opens no coroutine. The
commands it issues go to zones with an open terminal state and no tripped pair.
-/

namespace OriRuntime.Registry

open List

/-- The machine a start holds for a pair. -/
def LoadedAs (a : Assembly) (j : TripJournal) (pair : Pair) (m : ZoneTripState) : Prop :=
  ∃ m₀ t, (freshMachine a pair).startup (j.load pair.1 pair.2).1 (j.load pair.1 pair.2).2 none
      a.bindingSeq = (m₀, .ok t) ∧
    m = if (a.active.get? pair).isNone then m₀.bindingRemoved else m₀

variable {a : Assembly} {j : TripJournal} {m : ZoneTripState} {pair : Pair} {s s' : Registry}
  {pairs : List Pair}

theorem LoadedAs.lease (h : LoadedAs a j pair m) : m.driverAttemptInFlight = false := by
  obtain ⟨m₀, t, hs, rfl⟩ := h
  obtain ⟨-, st, cs, o, rfl⟩ := ZoneTripState.startup_ok hs
  split_ifs <;> rfl

theorem LoadedAs.status (h : LoadedAs a j pair m) (hm : m.state = .tripped) :
    m.commandStatus ≠ .none := by
  obtain ⟨m₀, t, hs, rfl⟩ := h
  have ht := ZoneTripState.startup_status hs
  split_ifs at hm ⊢
  all_goals exact ht hm

theorem loadPair_ok (h : s.loadPair pair = .ok s') :
    ∃ m gates, LoadedAs s.assembly s.journal pair m ∧
      s' = { s with machines := s.machines.set pair m, gates := gates } := by
  unfold loadPair at h
  simp only at h
  split at h
  · simp at h
  rename_i m t hs
  cases h
  exact ⟨_, _, ⟨m, t, hs, rfl⟩, rfl⟩

theorem loadPairs_ok (h : s.loadPairs pairs = .ok s') :
    (∃ machines gates, s' = { s with machines := machines, gates := gates }) ∧
      (∀ p m, s'.machines.get? p = some m →
        s.machines.get? p = some m ∨ (p ∈ pairs ∧ LoadedAs s.assembly s.journal p m)) ∧
      ∀ p, p ∈ pairs ∨ (s.machines.get? p).isSome → (s'.machines.get? p).isSome := by
  induction pairs generalizing s with
  | nil =>
    cases h
    exact ⟨⟨_, _, rfl⟩, fun p m hp => .inl hp, fun p hp => by simpa using hp⟩
  | cons pair pairs ih =>
    unfold loadPairs at h
    split at h
    · simp at h
    rename_i mid hi
    obtain ⟨m, gates, hl, rfl⟩ := loadPair_ok hi
    obtain ⟨⟨machines, gates', rfl⟩, hfrom, ht⟩ := ih h
    refine ⟨⟨_, _, rfl⟩, ?_, ?_⟩
    · intro p m' hp
      obtain hold | ⟨hm, hm'⟩ := hfrom p m' hp
      · rw [Dict.get?_set] at hold
        split_ifs at hold with hr
        · cases hold
          exact .inr ⟨by simp [hr], hr ▸ hl⟩
        · exact .inl hold
      · exact .inr ⟨mem_cons_of_mem _ hm, hm'⟩
    · intro p hp
      apply ht
      rw [Dict.get?_set]
      split_ifs with hr
      · exact .inr rfl
      obtain hm | hold := hp
      · exact .inl ((mem_cons.mp hm).resolve_left hr)
      · exact .inr hold

theorem startZone_cases (s : Registry) (z : String) :
    (∃ gates, s.startZone z = { s with gates := gates }) ∨
      (s.anyTripped z = false ∧ s.assembly.terminalStates.get? z = some .circuitOpen ∧
        s.startZone z = s.emit (.startupDeEnergised z none false)) := by
  unfold startZone
  cases ht : s.anyTripped z with
  | true =>
    rw [if_pos rfl]
    split
    all_goals exact .inl ⟨_, rfl⟩
  | false =>
    rw [if_neg (by simp)]
    split_ifs with ho
    · exact .inr ⟨rfl, ho, rfl⟩
    · exact .inl ⟨_, rfl⟩

theorem foldl_startZone (s : Registry) (zones : List String) :
    ∃ gates commands, zones.foldl startZone s =
        { s with gates := gates, trace := commands ++ s.trace } ∧
      ∀ e ∈ commands, ∃ z, e = .startupDeEnergised z none false ∧ s.anyTripped z = false ∧
        s.assembly.terminalStates.get? z = some .circuitOpen := by
  induction zones generalizing s with
  | nil => exact ⟨s.gates, [], rfl, fun _ he => absurd he not_mem_nil⟩
  | cons z zones ih =>
    rw [foldl_cons]
    obtain ⟨gates, hz⟩ | ⟨hf, ho, hz⟩ := startZone_cases s z
    · obtain ⟨gates', commands, hfold, hc⟩ := ih (s.startZone z)
      rw [hz] at hfold hc
      exact ⟨gates', commands, by rw [hz, hfold], hc⟩
    · obtain ⟨gates', commands, hfold, hc⟩ := ih (s.startZone z)
      rw [hz] at hfold hc
      refine ⟨gates', commands ++ [.startupDeEnergised z none false], ?_, ?_⟩
      · rw [hz, hfold]
        simp [emit]
      · intro e he
        obtain he | he := mem_append.mp he
        · exact hc e he
        · exact ⟨z, mem_singleton.mp he, hf, ho⟩

structure Started (a : Assembly) (j : TripJournal) (pairs : List Pair) (s : Registry) : Prop where
  assembly : s.assembly = a
  journal : s.journal = j
  unsettled : s.unsettledIntents = Dict.empty
  tasks : ∀ k, s.tasks k = none
  attempts : ∀ o, s.attempts o = none
  readings : ∀ i, s.readings i = none
  retry : s.retry = .idle
  loaded : ∀ p m, s.machines.get? p = some m → p ∈ pairs ∧ LoadedAs a j p m
  present : ∀ p ∈ pairs, (s.machines.get? p).isSome
  trace : ∀ e ∈ s.trace, ∃ z, e = .startupDeEnergised z none false ∧ s.anyTripped z = false ∧
    a.terminalStates.get? z = some .circuitOpen

theorem start_ok {zones : List String} (h : start a j pairs zones = .ok s) :
    Started a j pairs s := by
  unfold start at h
  split at h
  · simp at h
  rename_i mid hm
  obtain ⟨⟨machines, gates, rfl⟩, hfrom, ht⟩ := loadPairs_ok hm
  obtain ⟨gates', commands, hfold, hc⟩ := foldl_startZone
    { assembly := a, journal := j, machines := machines, gates := gates } zones
  cases h
  rw [hfold]
  constructor
  · rfl
  · rfl
  · rfl
  · exact fun _ => rfl
  · exact fun _ => rfl
  · exact fun _ => rfl
  · rfl
  · intro p m hp
    obtain hn | hl := hfrom p m hp
    · simp at hn
    · exact hl
  · exact fun p hp => ht p (.inl hp)
  · intro e he
    exact hc e (by simpa using he)

end OriRuntime.Registry
