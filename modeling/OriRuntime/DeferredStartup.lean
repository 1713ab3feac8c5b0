import OriRuntime.RegistryAttempts

/-!
# The deferred startup close

A zone whose de-energised terminal state is closed gets its startup command from a reading, not from
the start. The decision is zonal; readings, machines and decisions are per pair, and a reading waits
between its pairs.
-/

namespace OriRuntime

open List Option

def RegistryEvent.startsZone (z : String) : RegistryEvent → Bool
  | .startupDeEnergised z' _ _ => decide (z' = z)
  | _ => false

/-- Neither a startup command nor a trip. -/
def RegistryEvent.quiet : RegistryEvent → Bool
  | .startupDeEnergised _ _ _ | .tripped _ => false
  | _ => true

namespace Registry

def Tripped (s : Registry) (p : Pair) : Prop := ∃ m, s.machines.get? p = some m ∧ m.state = .tripped

variable {p : Pair} {s s' s₀ mid : Registry} {z : String} {f : ReadingFrame} {i : ℕ}
  {events : List RegistryEvent} {m m' : ZoneTripState} {a b : Attempt} {o : Owner} {t : Transition}

theorem anyTripped_eq_false (h : s.anyTripped z = false) (hp : p.1 = z) : ¬ Tripped s p := by
  rintro ⟨m, hm, ht⟩
  simp only [anyTripped, List.any_eq_false] at h
  exact h (p, m) (Dict.get?_eq_some_iff.mp hm) (by simp [hp, ht])

/-- How often the zone got its startup command in this start. -/
def startupCommands (s : Registry) (z : String) : ℕ := s.trace.countP (RegistryEvent.startsZone z)

/-- What a reading knows about its pairs while it waits. -/
structure FrameOk (s : Registry) (i : ℕ) (f : ReadingFrame) : Prop where
  covered : ∀ pair e, s.assembly.active.get? pair = some e → e.sensorId = f.reading.sensorId →
    pair ∈ f.remaining ∨ (∃ a, s.attempts (.reading i) = some a ∧ a.pair = pair) ∨
      ∃ d ∈ f.decisions, d.pair = pair ∧ d.verdict = (evaluate e f.reading).verdict
  latched : ∀ d ∈ f.decisions, d.verdict = .trip → Tripped s d.pair
  attempted : ∀ a, s.attempts (.reading i) = some a → f.settling = none ∧ Tripped s a.pair ∧
    ∀ e, s.assembly.active.get? a.pair = some e → (evaluate e f.reading).verdict = .trip
  settled : f.settling ≠ none → f.remaining = []

/-- A startup command of the zone, after what the start `s₀` loaded and what the trace `older` holds:
none of its pairs is tripped, and a reading licensed it that every active pair of the zone on its
sensor found credible and clear. -/
structure Licensed (s₀ : Registry) (z : String) (reading : Option Reading) (anyTripped : Bool)
    (older : List RegistryEvent) : Prop where
  none_tripped : anyTripped = false
  none_loaded : ∀ p : Pair, p.1 = z → ¬ Tripped s₀ p
  no_trip : ∀ p : Pair, p.1 = z → .tripped p ∉ older
  clear : ∃ r, reading = some r ∧ ∀ pair e, s₀.assembly.active.get? pair = some e → pair.1 = z →
    e.sensorId = r.sensorId → evaluate e r = ⟨.noTrip, none⟩

/-- The zone `z` in a run since the start `s₀`. -/
structure Deferred (s₀ : Registry) (z : String) (s : Registry) : Prop where
  assembly : s.assembly = s₀.assembly
  loaded : ∀ p, Tripped s₀ p → Tripped s p
  trips : ∀ p, .tripped p ∈ s.trace → Tripped s p
  commands : s.startupCommands z = 0 ∨
    (s.startupCommands z = 1 ∧ ∃ g, s.gates.get? z = some g ∧ g.pending = false)
  licensed : ∀ r t older, .startupDeEnergised z r t :: older <:+ s.trace → Licensed s₀ z r t older
  frames : ∀ i f, s.readings i = some f → FrameOk s i f
  framed : ∀ i a, s.attempts (.reading i) = some a → ∃ f, s.readings i = some f
  fresh : ∀ i, s.readingCount ≤ i → s.readings i = none

/-- A step that neither settles a zone nor moves a reading. -/
structure Carry (s s' : Registry) : Prop where
  assembly : s'.assembly = s.assembly
  tripped : ∀ p, Tripped s p → Tripped s' p
  gates : s'.gates = s.gates
  readings : s'.readings = s.readings
  readingCount : s'.readingCount = s.readingCount
  attempts : ∀ i, (s'.attempts (.reading i)).map Attempt.pair =
    (s.attempts (.reading i)).map Attempt.pair
  trace : ∃ events, s'.trace = events ++ s.trace ∧ ∀ e ∈ events, e.quiet = true

theorem FrameOk.transfer (hf : FrameOk s i f) (has : s'.assembly = s.assembly)
    (ht : ∀ p, Tripped s p → Tripped s' p)
    (hat : (s'.attempts (.reading i)).map Attempt.pair =
      (s.attempts (.reading i)).map Attempt.pair) : FrameOk s' i f where
  covered := by
    intro pair e hc he
    rw [has] at hc
    obtain hr | ⟨a, ha, hp⟩ | hde := hf.covered pair e hc he
    · exact .inl hr
    · rw [ha, map_some] at hat
      obtain ⟨b, hb, hbp⟩ := map_eq_some_iff.mp hat
      exact .inr (.inl ⟨b, hb, hbp.trans hp⟩)
    · exact .inr (.inr hde)
  latched := fun d hd hv => ht d.pair (hf.latched d hd hv)
  attempted := by
    intro a ha
    rw [ha] at hat
    obtain ⟨b, hb, hp⟩ := map_eq_some_iff.mp hat.symm
    obtain ⟨hs, hl, hve⟩ := hf.attempted b hb
    rw [has, ← hp]
    exact ⟨hs, ht b.pair hl, hve⟩
  settled := hf.settled

theorem startupCommands_append (z : String) (ht : s'.trace = events ++ s.trace)
    (hv : ∀ e ∈ events, e.startsZone z = false) :
    s'.startupCommands z = s.startupCommands z := by
  have hzero : events.countP (RegistryEvent.startsZone z) = 0 := by
    rw [countP_eq_zero]
    intro e he
    simp [hv e he]
  simp [startupCommands, ht, hzero]

variable {trace : List RegistryEvent} {e : RegistryEvent} {sig : Signal} {pair : Pair}

theorem licensed_append
    (h : ∀ r t older, .startupDeEnergised z r t :: older <:+ trace → Licensed s₀ z r t older)
    (hv : ∀ e ∈ events, e.startsZone z = false) :
    ∀ r t older, .startupDeEnergised z r t :: older <:+ events ++ trace →
      Licensed s₀ z r t older := by
  induction events with
  | nil => exact h
  | cons e events ih =>
    intro r t older hs
    obtain heq | hr := suffix_cons_iff.mp hs
    · have he := hv e mem_cons_self
      rw [← (List.cons.inj heq).1] at he
      simp [RegistryEvent.startsZone] at he
    · exact ih (fun e' he' => hv e' (mem_cons_of_mem _ he')) r t older hr

theorem RegistryEvent.startsZone_of_quiet (h : e.quiet = true) (z : String) :
    e.startsZone z = false := by
  cases e with
  | startupDeEnergised z' r t => simp [RegistryEvent.quiet] at h
  | _ => rfl

theorem tripped_mem_append (hq : ∀ e ∈ events, e.quiet = true)
    (hm : RegistryEvent.tripped p ∈ events ++ trace) : .tripped p ∈ trace := by
  obtain hm | hm := mem_append.mp hm
  · simpa [RegistryEvent.quiet] using hq _ hm
  · exact hm

theorem Deferred.carry (hs : Deferred s₀ z s) (h : Carry s s') : Deferred s₀ z s' := by
  obtain ⟨events, ht, hq⟩ := h.trace
  have hv : ∀ e ∈ events, e.startsZone z = false :=
    fun e he => RegistryEvent.startsZone_of_quiet (hq e he) z
  constructor
  · rw [h.assembly, hs.assembly]
  · exact fun p hp => h.tripped p (hs.loaded p hp)
  · intro p hp
    rw [ht] at hp
    exact h.tripped p (hs.trips p (tripped_mem_append hq hp))
  · rw [startupCommands_append z ht hv, h.gates]
    exact hs.commands
  · rw [ht]
    exact licensed_append hs.licensed hv
  · intro i f hf
    rw [h.readings] at hf
    exact (hs.frames i f hf).transfer h.assembly h.tripped (h.attempts i)
  · intro i a ha
    have hr := h.attempts i
    rw [ha] at hr
    obtain ⟨b, hb, -⟩ := map_eq_some_iff.mp hr.symm
    rw [h.readings]
    exact hs.framed i b hb
  · rw [h.readings, h.readingCount]
    exact hs.fresh

structure MovesReading (i : ℕ) (s s' : Registry) : Prop where
  assembly : s'.assembly = s.assembly
  tripped : ∀ p, Tripped s p → Tripped s' p
  gates : s'.gates = s.gates
  readings : ∀ j, j ≠ i → s'.readings j = s.readings j
  attempts : ∀ j, j ≠ i → (s'.attempts (.reading j)).map Attempt.pair =
    (s.attempts (.reading j)).map Attempt.pair
  trace : ∃ events, s'.trace = events ++ s.trace ∧ (∀ e ∈ events, ∀ z, e.startsZone z = false) ∧
    ∀ p, .tripped p ∈ events → Tripped s' p
  frame : ∀ f, s'.readings i = some f → FrameOk s' i f
  framed : ∀ a, s'.attempts (.reading i) = some a → ∃ f, s'.readings i = some f
  counted : i < s'.readingCount ∧ s.readingCount ≤ s'.readingCount

theorem Deferred.move (hs : Deferred s₀ z s) (h : MovesReading i s s') : Deferred s₀ z s' := by
  obtain ⟨events, ht, hv, htr⟩ := h.trace
  constructor
  · rw [h.assembly, hs.assembly]
  · exact fun p hp => h.tripped p (hs.loaded p hp)
  · intro p hp
    rw [ht] at hp
    obtain hn | hold := mem_append.mp hp
    · exact htr p hn
    · exact h.tripped p (hs.trips p hold)
  · rw [startupCommands_append z ht (fun e he => hv e he z), h.gates]
    exact hs.commands
  · rw [ht]
    exact licensed_append hs.licensed (fun e he => hv e he z)
  · intro j f hf
    by_cases hj : j = i
    · subst hj
      exact h.frame f hf
    · rw [h.readings j hj] at hf
      exact (hs.frames j f hf).transfer h.assembly h.tripped (h.attempts j hj)
  · intro j a ha
    by_cases hj : j = i
    · subst hj
      exact h.framed a ha
    · have hr := h.attempts j hj
      rw [ha] at hr
      obtain ⟨b, hb, -⟩ := map_eq_some_iff.mp hr.symm
      rw [h.readings j hj]
      exact hs.framed j b hb
  · intro j hj
    have hc := h.counted
    rw [h.readings j (by omega)]
    exact hs.fresh j (by omega)

/-! ### The attempts of a reading -/

theorem Carry.refl (s : Registry) : Carry s s :=
  ⟨rfl, fun _ => id, rfl, rfl, rfl, fun _ => rfl, [], rfl, by simp⟩

theorem Carry.trans {t u : Registry} (h : Carry s t) (h' : Carry t u) : Carry s u := by
  obtain ⟨events, ht, hq⟩ := h.trace
  obtain ⟨events', ht', hq'⟩ := h'.trace
  refine ⟨h'.assembly.trans h.assembly, fun p hp => h'.tripped p (h.tripped p hp),
    h'.gates.trans h.gates, h'.readings.trans h.readings, h'.readingCount.trans h.readingCount,
    fun i => (h'.attempts i).trans (h.attempts i), events' ++ events, ?_, ?_⟩
  · rw [ht', ht, append_assoc]
  · intro e he
    obtain he | he := mem_append.mp he
    · exact hq' e he
    · exact hq e he

theorem carry_setMachine {n : ZoneTripState} (hm : s.machines.get? p = some m)
    (hs : m.state = .tripped → n.state = .tripped) : Carry s (s.setMachine p n) := by
  refine ⟨rfl, ?_, rfl, rfl, rfl, fun _ => rfl, [], rfl, by simp⟩
  rintro q ⟨mq, hq, ht⟩
  refine ⟨if q = p then n else mq, ?_, ?_⟩
  · rw [get?_setMachine]
    split_ifs
    · rfl
    · exact hq
  · split_ifs with heq
    · subst heq
      obtain rfl := mem_unique hm hq
      exact hs ht
    · exact ht

theorem carry_setAttempt (ha : s.attempts o = some a) (hp : b.pair = a.pair) :
    Carry s (s.setAttempt o (some b)) := by
  refine ⟨rfl, fun _ => id, rfl, rfl, rfl, fun i => ?_, [], rfl, by simp⟩
  rw [attempts_setAttempt]
  split_ifs with heq
  · rw [heq, ha, map_some, map_some, hp]
  · rfl

theorem carry_retryLoop (s : Registry) (x : Option Attempt) : Carry s (s.setAttempt .retryLoop x) := by
  refine ⟨rfl, fun _ => id, rfl, rfl, rfl, fun i => ?_, [], rfl, by simp⟩
  rw [attempts_setAttempt, if_neg (by simp)]

theorem carry_emit (s : Registry) (he : e.quiet = true) : Carry s (s.emit e) :=
  ⟨rfl, fun _ => id, rfl, rfl, rfl, fun _ => rfl, [e], rfl, by simpa using he⟩

theorem carry_of_eq (hs : s'.assembly = s.assembly) (hmac : s'.machines = s.machines)
    (hg : s'.gates = s.gates) (hr : s'.readings = s.readings)
    (hc : s'.readingCount = s.readingCount) (ha : s'.attempts = s.attempts)
    (ht : s'.trace = s.trace) : Carry s s' := by
  refine ⟨hs, ?_, hg, hr, hc, fun i => by rw [ha], [], ht, by simp⟩
  intro p hp
  unfold Tripped
  rw [hmac]
  exact hp

/-- How an attempt can answer a signal, its machine's latch and its pair unchanged. -/
inductive Signalled (s : Registry) (o : Owner) (a : Attempt) : Registry → Prop
  | moves (mid : Registry) (b : Attempt) (hcarry : Carry s mid) (hattempts : mid.attempts = s.attempts)
      (hpair : b.pair = a.pair) : Signalled s o a (mid.setAttempt o (some b))
  | ends (mid : Registry) (b : Attempt) (hcarry : Carry s mid) (hattempts : mid.attempts = s.attempts)
      (hpair : b.pair = a.pair) : Signalled s o a (mid.endAttempt o b)
  | escapes (mid : Registry) (e : TripError) (hcarry : Carry s mid)
      (hattempts : mid.attempts = s.attempts) : Signalled s o a (mid.escape o e)

theorem releaseDriverAttempt_ok (h : m.releaseDriverAttempt = (m', .ok t)) :
    m'.state = m.state := by
  unfold ZoneTripState.releaseDriverAttempt at h
  split at h
  · cases h
    rfl
  · simp at h

theorem recordDriverResult_ok {accepted : Bool} (h : m.recordDriverResult accepted = (m', .ok t)) :
    m'.state = m.state := by
  unfold ZoneTripState.recordDriverResult at h
  split at h
  · split at h
    · cases h
      rfl
    · simp at h
  · simp at h

theorem beginDriverAttempt_ok (h : m.beginDriverAttempt = (m', .ok t)) : m'.state = m.state := by
  unfold ZoneTripState.beginDriverAttempt at h
  split at h
  · split at h
    · simp at h
    · cases h
      rfl
  · simp at h

theorem issueRecord_signalled (hc : Carry s mid) (ha : mid.attempts = s.attempts)
    (hp : b.pair = a.pair) (m : ZoneTripState) (now : ℤ) :
    Signalled s o a (mid.issueRecord o b m now) := by
  refine Signalled.moves { mid with
      unsettledIntents := mid.unsettledIntents.pop b.pair
      trace := .recordIssued b.pair (mid.intentRunning b.pair) :: mid.trace }
    { b with stage := .recording m.commandStatus now false } ?_ ha hp
  exact hc.trans ⟨rfl, fun _ => id, rfl, rfl, rfl, fun _ => rfl,
    [.recordIssued b.pair (mid.intentRunning b.pair)], rfl, by simp [RegistryEvent.quiet]⟩

theorem persistRecord_signalled (hc : Carry s mid) (ha : mid.attempts = s.attempts)
    (hp : b.pair = a.pair) (m : ZoneTripState) (k : ℕ) (now : ℤ) :
    Signalled s o a (mid.persistRecord o b m k now) := by
  unfold persistRecord
  split_ifs
  · exact issueRecord_signalled hc ha hp m now
  · exact Signalled.moves mid _ hc ha hp

theorem failRecord_signalled (hm : s.machines.get? a.pair = some m) :
    Signalled s o a (s.failRecord o a m) :=
  Signalled.ends _ a (carry_setMachine hm id) rfl rfl

theorem driverAnswered_signalled (hc : Carry s mid) (ha : mid.attempts = s.attempts)
    (hm : mid.machines.get? a.pair = some m) (k : ℕ) (result : Option Bool) (now : ℤ) :
    Signalled s o a (mid.driverAnswered o a m k result now) := by
  unfold driverAnswered
  simp only
  split
  · exact Signalled.escapes mid _ hc ha
  rename_i m' t hl
  have ht : m'.state = m.state := by
    cases result with
    | none => exact releaseDriverAttempt_ok hl
    | some accepted => exact recordDriverResult_ok hl
  have hs : Carry s (mid.setMachine a.pair m') :=
    hc.trans (carry_setMachine hm (fun h => ht.trans h))
  exact persistRecord_signalled (a := a) (b := { a with accepted := result }) hs ha rfl m' k now

theorem signal_signalled (hm : s.machines.get? a.pair = some m) (h : s.signal o a m sig = some s') :
    Signalled s o a s' := by
  unfold signal at h
  split at h
  · split at h
    · split at h
      · cases h
        exact Signalled.escapes s _ (Carry.refl s) rfl
      · rename_i task m' t hb
        have hs : Carry s (s.setMachine a.pair m') :=
          carry_setMachine hm (fun h => (beginDriverAttempt_ok hb).trans h)
        split at h
        · cases h
          exact Signalled.moves ((s.setMachine a.pair m').emit (.commanded a.pair)) _
            (hs.trans (carry_emit _ rfl)) rfl rfl
        · cases h
          exact driverAnswered_signalled hs rfl ((get?_setMachine s _ _ m').trans (if_pos rfl)) _ _ _
    · split at h
      · cases h
        exact issueRecord_signalled (Carry.refl s) rfl rfl m _
      · cases h
        exact failRecord_signalled hm
    · simp at h
  · split at h
    · cases h
      exact driverAnswered_signalled (Carry.refl s) rfl hm _ _ _
    · simp at h
  · split at h
    · split at h
      · simp at h
      · cases h
        exact Signalled.moves _ _ (carry_of_eq rfl rfl rfl rfl rfl rfl rfl) rfl rfl
    · cases h
      exact Signalled.moves _ _ (carry_of_eq rfl rfl rfl rfl rfl rfl rfl) rfl rfl
    · simp at h
  · split at h
    · cases h
      exact Signalled.moves s _ (Carry.refl s) rfl rfl
    · cases h
      exact Signalled.ends s a (Carry.refl s) rfl rfl
    · simp at h
  · split at h
    · cases h
      exact failRecord_signalled hm
    · cases h
      exact failRecord_signalled hm
    · simp at h

theorem readings_setReading (s : Registry) (i j : ℕ) (x : Option ReadingFrame) :
    (s.setReading i x).readings j = if j = i then x else s.readings j := by
  simp [setReading, Function.update_apply]

theorem Deferred.counted (hs : Deferred s₀ z s) (hf : s.readings i = some f) :
    i < s.readingCount := by
  by_contra hg
  simp [hs.fresh i (by omega)] at hf

theorem Deferred.endAttempt (hs : Deferred s₀ z s) (ha : s.attempts o = some a)
    (hpr : b.pair = a.pair) : Deferred s₀ z (s.endAttempt o b) := by
  cases o with
  | retryLoop => exact hs.carry (carry_retryLoop s none)
  | reading i =>
    obtain ⟨f, hf⟩ := hs.framed i a ha
    have ho := hs.frames i f hf
    obtain ⟨hst, ht, hve⟩ := ho.attempted a ha
    simp only [Registry.endAttempt, hf]
    refine hs.move (i := i) ⟨rfl, fun _ => id, rfl, ?_, ?_, ⟨[], rfl, by simp, by simp⟩, ?_, ?_,
      hs.counted hf, le_rfl⟩
    · intro j hj
      rw [readings_setReading, if_neg hj]
      rfl
    · intro j hj
      change ((s.setAttempt (.reading i) none).attempts (.reading j)).map _ = _
      rw [attempts_setAttempt, if_neg (by simpa using hj)]
    · intro g hg
      rw [readings_setReading, if_pos rfl] at hg
      cases hg
      constructor
      · intro pair e hac he
        obtain hr | ⟨c, hc, hp⟩ | ⟨d, hd, hdp⟩ := ho.covered pair e hac he
        · exact .inl hr
        · obtain rfl := mem_unique ha hc
          refine .inr (.inr ⟨_, mem_append_right _ (mem_singleton_self _), hpr.trans hp, ?_⟩)
          exact (hve e (hp ▸ hac)).symm
        · exact .inr (.inr ⟨d, mem_append_left _ hd, hdp⟩)
      · intro d hd hv
        obtain hd | hd := mem_append.mp hd
        · exact ho.latched d hd hv
        · obtain rfl := mem_singleton.mp hd
          exact hpr ▸ ht
      · intro c hc
        change (s.setAttempt (.reading i) none).attempts (.reading i) = some c at hc
        rw [attempts_setAttempt, if_pos rfl] at hc
        cases hc
      · exact ho.settled
    · intro c hc
      exact ⟨_, by rw [readings_setReading, if_pos rfl]⟩

theorem Deferred.escape (hs : Deferred s₀ z s) (ha : s.attempts o = some a) (e : TripError) :
    Deferred s₀ z (s.escape o e) := by
  cases o with
  | retryLoop =>
    have hca := (carry_retryLoop s none).trans
      (carry_emit (s.setAttempt .retryLoop none) (e := .escaped .retryLoop e) rfl)
    exact hs.carry (hca.trans (carry_of_eq rfl rfl rfl rfl rfl rfl rfl))
  | reading i =>
    obtain ⟨f, hf⟩ := hs.framed i a ha
    simp only [Registry.escape]
    refine hs.move (i := i) ⟨rfl, fun _ => id, rfl, ?_, ?_,
      ⟨[.escaped (.reading i) e], rfl, by simp [RegistryEvent.startsZone], by simp⟩, ?_, ?_,
      hs.counted hf, le_rfl⟩
    · intro j hj
      rw [readings_setReading, if_neg hj]
      rfl
    · intro j hj
      change ((s.setAttempt (.reading i) none).attempts (.reading j)).map _ = _
      rw [attempts_setAttempt, if_neg (by simpa using hj)]
    · intro g hg
      rw [readings_setReading, if_pos rfl] at hg
      cases hg
    · intro c hc
      change (s.setAttempt (.reading i) none).attempts (.reading i) = some c at hc
      rw [attempts_setAttempt, if_pos rfl] at hc
      cases hc

theorem Deferred.signal (hs : Deferred s₀ z s) (ha : s.attempts o = some a) (h : Signalled s o a s') :
    Deferred s₀ z s' := by
  cases h with
  | moves mid b hc ht hp =>
    exact (hs.carry hc).carry (carry_setAttempt (ht ▸ ha) hp)
  | ends mid b hc ht hp => exact (hs.carry hc).endAttempt (ht ▸ ha) hp
  | escapes mid e hc ht => exact (hs.carry hc).escape (ht ▸ ha) e

/-! ### Readings -/

theorem mem_bySensor {a : Assembly} {e : ActivePair} {sensorId : String}
    (h : a.active.get? pair = some e) (hs : e.sensorId = sensorId) :
    pair ∈ a.bySensor sensorId := by
  refine mem_map.mpr ⟨(pair, e), mem_filter.mpr ⟨?_, by simpa using hs⟩, rfl⟩
  exact Dict.get?_eq_some_iff.mp h

theorem Deferred.arrive (hs : Deferred s₀ z s) (r : Reading) :
    Deferred s₀ z { s.setReading s.readingCount
        (some { reading := r, remaining := s.assembly.bySensor r.sensorId }) with
      readingCount := s.readingCount + 1 } := by
  have hn : ∀ a, s.attempts (.reading s.readingCount) ≠ some a := by
    intro a ha
    obtain ⟨f, hf⟩ := hs.framed s.readingCount a ha
    simp [hs.fresh s.readingCount le_rfl] at hf
  refine hs.move (i := s.readingCount) ⟨rfl, fun _ => id, rfl, ?_, fun _ _ => rfl,
    ⟨[], rfl, by simp, by simp⟩, ?_, ?_, Nat.lt_succ_self _, Nat.le_succ _⟩
  · intro j hj
    exact (readings_setReading s _ j _).trans (if_neg hj)
  · intro f hf
    rw [readings_setReading, if_pos rfl] at hf
    cases hf
    refine ⟨?_, nofun, fun a ha => absurd ha (hn a), by simp⟩
    intro pair e hc he
    exact .inl (mem_bySensor hc he)
  · exact fun a ha => absurd ha (hn a)

theorem Deferred.setReading (hs : Deferred s₀ z s) (hf : s.readings i = some f)
    {x : Option ReadingFrame} (ho : ∀ g, x = some g → FrameOk s i g)
    (hn : s.attempts (.reading i) = none) : Deferred s₀ z (s.setReading i x) := by
  refine hs.move (i := i) ⟨rfl, fun _ => id, rfl, ?_, fun _ _ => rfl,
    ⟨[], rfl, by simp, by simp⟩, ?_, ?_, hs.counted hf, le_rfl⟩
  · intro j hj
    rw [readings_setReading, if_neg hj]
  · intro g hg
    rw [readings_setReading, if_pos rfl] at hg
    exact (ho g hg).transfer rfl (fun _ => id) rfl
  · intro a ha
    change s.attempts (.reading i) = some a at ha
    simp [hn] at ha

theorem attempts_startAttempt (s : Registry) (o : Owner) (p : Pair) (e : ActivePair)
    (attemptId : String) (now : ℤ) : (s.startAttempt o p e attemptId now).attempts o =
      some { pair := p, entry := e, stage := .awaitingIntent s.taskCount } := by
  simp [startAttempt]

theorem Deferred.observePair (hs : Deferred s₀ z s) {rest : List Pair} {e : ActivePair}
    {attemptId : String} {now : ℤ} (hf : s.readings i = some f)
    (hno : s.attempts (.reading i) = none) (hset : f.settling = none)
    (hrema : f.remaining = pair :: rest) (hac : s.assembly.active.get? pair = some e)
    (hm : s.machines.get? pair = some m)
    (h : s.observePair i f pair rest e m attemptId now = some s') : Deferred s₀ z s' := by
  have hk := hs.frames i f hf
  have hco : ∀ q eq, s.assembly.active.get? q = some eq → eq.sensorId = f.reading.sensorId →
      q = pair ∨ q ∈ rest ∨
        ∃ d ∈ f.decisions, d.pair = q ∧ d.verdict = (evaluate eq f.reading).verdict := by
    intro q eq hq he
    obtain hr | ⟨a, ha, -⟩ | hde := hk.covered q eq hq he
    · rw [hrema] at hr
      obtain hh | htl := mem_cons.mp hr
      · exact .inl hh
      · exact .inr (.inl htl)
    · simp [hno] at ha
    · exact .inr (.inr hde)
  unfold Registry.observePair at h
  simp only at h
  split at h
  · simp at h
  rename_i m' t hb
  obtain ⟨hv, ht, ho, hm'⟩ | ⟨ho, hv, c, d, hm'⟩ := ZoneTripState.observe_ok hb
  · rw [if_pos ho] at h
    cases h
    have hmac : (s.setMachine pair m').machines.get? pair = some m' :=
      (get?_setMachine s pair pair m').trans (if_pos rfl)
    have hl := carry_setMachine hm (n := m') (fun _ => by rw [hm'])
    have hpr : Tripped (s.setMachine pair m') pair := ⟨m', hmac, by rw [hm']⟩
    refine hs.move (i := i) ⟨rfl, hl.tripped, rfl, ?_, ?_,
      ⟨[.attempted (.reading i) pair, .tripped pair], rfl, by simp [RegistryEvent.startsZone],
        fun p hp => by
          obtain rfl : p = pair := by simpa using hp
          exact hpr⟩, ?_, ?_, hs.counted hf, le_rfl⟩
    · intro j hj
      exact (readings_setReading (s.setMachine pair m') i j _).trans (if_neg hj)
    · intro j hj
      simp only [startAttempt, Function.update_apply]
      rw [if_neg (by simpa using hj)]
      rfl
    · intro g hg
      change ((s.setMachine pair m').setReading i _).readings i = some g at hg
      rw [readings_setReading, if_pos rfl] at hg
      cases hg
      constructor
      · intro q eq hq he
        obtain rfl | hrs | hde := hco q eq hq he
        · exact .inr (.inl ⟨_, attempts_startAttempt _ _ _ _ _ _, rfl⟩)
        · exact .inl hrs
        · exact .inr (.inr hde)
      · exact fun d hd hvd => hl.tripped d.pair (hk.latched d hd hvd)
      · intro a ha
        rw [attempts_startAttempt] at ha
        cases ha
        refine ⟨hset, hpr, fun eq hq => ?_⟩
        obtain rfl := mem_unique hac hq
        rw [hv]
      · exact fun hn => absurd hset hn
    · intro a ha
      exact ⟨_, (readings_setReading (s.setMachine pair m') i i _).trans (if_pos rfl)⟩
  · rw [if_neg (by simp [ho])] at h
    cases h
    have hc := carry_setMachine hm (n := m') (fun ht => by rw [hm']; exact ht)
    have hs' := hs.carry hc
    refine hs'.setReading hf ?_ hno
    intro g hg
    cases hg
    have ho' := hs'.frames i f hf
    constructor
    · intro q eq hq he
      obtain rfl | hrs | ⟨d, hd, hdp⟩ := hco q eq hq he
      · obtain rfl := mem_unique hac hq
        exact .inr (.inr ⟨_, mem_append_right _ (mem_singleton_self _), rfl, rfl⟩)
      · exact .inl hrs
      · exact .inr (.inr ⟨d, mem_append_left _ hd, hdp⟩)
    · intro d hd hvd
      obtain hd | hd := mem_append.mp hd
      · exact ho'.latched d hd hvd
      · obtain rfl := mem_singleton.mp hd
        exact hc.tripped pair ⟨m, hm, hv hvd⟩
    · exact ho'.attempted
    · exact fun hn => absurd hset hn

/-! ### Settling a zone -/

/-- A zone is left alone, closed to the deferred command, or commanded: then its gate was pending,
none of its pairs is tripped, and the reading's decisions on it are neither trips nor rejections. -/
theorem settleZone_cases (s : Registry) (f : ReadingFrame) (z : String) :
    s.settleZone f z = s ∨ s.settleZone f z = { s with gates := s.gates.set z ⟨false⟩ } ∨
      (s.settleZone f z = { s with gates := s.gates.set z ⟨false⟩ }.emit
          (.startupDeEnergised z (some f.reading) false) ∧
        (∃ g, s.gates.get? z = some g ∧ g.pending = true) ∧ s.anyTripped z = false ∧
        ∀ d ∈ f.decisions, d.pair.1 = z → d.verdict ≠ .rejectedInput) := by
  unfold settleZone
  split
  · exact .inl rfl
  rename_i gate hg
  cases hp : gate.pending with
  | false => exact .inl (by simp)
  | true =>
    simp only [Bool.true_eq_false, if_false]
    split_ifs with ht hr
    · exact .inr (.inl rfl)
    · exact .inl rfl
    · have hc : ∀ d ∈ f.decisions, d.pair.1 = z → d.verdict ≠ .rejectedInput := by
        intro d hd hz hv
        apply hr
        exact any_eq_true.mpr ⟨d, mem_filter.mpr ⟨hd, by simpa using hz⟩, by simpa using hv⟩
      cases ha : s.anyTripped z with
      | true =>
        simp [DeferredStartupGate.noteCredibleReading]
      | false =>
        refine .inr (.inr ⟨?_, ⟨gate, hg, hp⟩, rfl, hc⟩)
        simp [DeferredStartupGate.noteCredibleReading, hp]

theorem Deferred.setGate (hs : Deferred s₀ z s) (z' : String) :
    Deferred s₀ z { s with gates := s.gates.set z' ⟨false⟩ } := by
  refine { hs with commands := ?_, frames := ?_ }
  · obtain hzero | ⟨ho, g, hg, hp⟩ := hs.commands
    · exact .inl hzero
    refine .inr ⟨ho, ?_⟩
    rw [Dict.get?_set]
    split_ifs
    · exact ⟨_, rfl, rfl⟩
    · exact ⟨g, hg, hp⟩
  · intro i f hf
    exact (hs.frames i f hf).transfer rfl (fun _ => id) rfl

theorem startupCommands_emit (s : Registry) (z z' : String) (r : Option Reading) (t : Bool) :
    (s.emit (.startupDeEnergised z' r t)).startupCommands z =
      s.startupCommands z + if z' = z then 1 else 0 := by
  simp [startupCommands, emit, countP_cons, RegistryEvent.startsZone]

theorem Deferred.licenses (hs : Deferred s₀ z s) (hf : s.readings i = some f)
    (he : f.settling ≠ none) (hn : s.anyTripped z = false)
    (hcr : ∀ d ∈ f.decisions, d.pair.1 = z → d.verdict ≠ .rejectedInput) :
    Licensed s₀ z (some f.reading) false s.trace := by
  have ho := hs.frames i f hf
  refine ⟨rfl, ?_, ?_, f.reading, rfl, ?_⟩
  · exact fun p hp hl => anyTripped_eq_false hn hp (hs.loaded p hl)
  · exact fun p hp htrip => anyTripped_eq_false hn hp (hs.trips p htrip)
  · intro pair e hac hpr hsn
    rw [← hs.assembly] at hac
    obtain hre | ⟨a, ha, -⟩ | ⟨d, hd, hdp, hdv⟩ := ho.covered pair e hac hsn
    · simp [ho.settled he] at hre
    · exact absurd (ho.attempted a ha).1 he
    · have hz : d.pair.1 = z := by rw [hdp, hpr]
      have hv := evaluateReading_inVocabulary f.reading.value f.reading.unit
        f.reading.quality e.unit e.tripPoint e.rangeMin e.rangeMax
      change (evaluate e f.reading).InVocabulary at hv
      obtain htrip | hc | ⟨r, -, hr⟩ := hv
      · rw [htrip] at hdv
        exact absurd (ho.latched d hd hdv) (anyTripped_eq_false hn hz)
      · exact hc
      · rw [hr] at hdv
        exact absurd hdv (hcr d hd hz)

theorem Deferred.settleZone (hs : Deferred s₀ z s) (hf : s.readings i = some f)
    (hse : f.settling ≠ none) (z' : String) : Deferred s₀ z (s.settleZone f z') := by
  obtain heq | heq | ⟨heq, ⟨g, hg, he⟩, ha, hc⟩ := settleZone_cases s f z'
  · rw [heq]
    exact hs
  · rw [heq]
    exact hs.setGate z'
  · rw [heq]
    have ht := hs.setGate z'
    refine ⟨hs.assembly, hs.loaded, ?_, ?_, ?_, ?_, hs.framed, hs.fresh⟩
    · intro p hp
      exact hs.trips p ((mem_cons.mp hp).resolve_left (by simp))
    · rw [startupCommands_emit]
      split_ifs with hz
      · subst hz
        have hzero : s.startupCommands z' = 0 := by
          obtain hzero | ⟨-, g', hg', hd⟩ := hs.commands
          · exact hzero
          · obtain rfl := mem_unique hg hg'
            simp [he] at hd
        refine .inr ⟨?_, ⟨false⟩, Dict.get?_set_self _ _ _, rfl⟩
        change s.startupCommands z' + 1 = 1
        omega
      · exact ht.commands
    · intro r t older hu
      obtain hn | hold := suffix_cons_iff.mp hu
      · cases hn
        exact hs.licenses hf hse ha hc
      · exact hs.licensed r t older hold
    · intro j g' hj
      exact (hs.frames j g' hj).transfer rfl (fun _ => id) rfl

/-! ### Whole starts -/

def Action.isRestart : Action → Bool
  | .restart .. => true
  | _ => false

theorem carry_intentSettled (s : Registry) (p : Pair) : Carry s (s.intentSettled p).1 := by
  obtain ⟨unsettled, hv⟩ := intentSettled_view s p
  rw [hv]
  exact carry_of_eq rfl rfl rfl rfl rfl rfl rfl

theorem carry_retryPair (s : Registry) (pair : Pair) (rest : List Pair) (attemptId : String)
    (now : ℤ) : Carry s (s.retryPair pair rest attemptId now) := by
  have hc : Carry s { (s.intentSettled pair).1 with retry := .pending rest } :=
    (carry_intentSettled s pair).trans (carry_of_eq rfl rfl rfl rfl rfl rfl rfl)
  unfold retryPair
  split_ifs
  · split
    · exact hc
    refine hc.trans ⟨rfl, fun _ => id, rfl, rfl, rfl, fun i => ?_,
      [.attempted .retryLoop pair], rfl, by simp [RegistryEvent.quiet]⟩
    simp [startAttempt]
  · exact hc

theorem carry_recoverPair (s : Registry) (pair : Pair) (rest : List Pair) (m : ZoneTripState)
    (now : ℤ) : Carry s (s.recoverPair pair rest m now) := by
  unfold recoverPair
  simp only
  split_ifs
  · exact carry_of_eq rfl rfl rfl rfl rfl rfl rfl
  · obtain ⟨unsettled, hv⟩ := intentSettled_view s pair
    rw [hv]
    exact ⟨rfl, fun _ => id, rfl, rfl, rfl, fun _ => rfl,
      [.recordIssued pair (s.intentRunning pair)], rfl, by simp [RegistryEvent.quiet]⟩
  · exact (carry_intentSettled s pair).trans (carry_of_eq rfl rfl rfl rfl rfl rfl rfl)

theorem carry_recoverSignal (h : s.recoverSignal sig = some s') : Carry s s' := by
  unfold recoverSignal at h
  split at h
  · split at h
    · split at h
      · simp at h
      · cases h
        exact carry_of_eq rfl rfl rfl rfl rfl rfl rfl
    · cases h
      exact carry_of_eq rfl rfl rfl rfl rfl rfl rfl
    · simp at h
  · split at h
    · cases h
      exact carry_of_eq rfl rfl rfl rfl rfl rfl rfl
    · split at h
      · simp at h
      rename_i m hm
      cases h
      have hs := carry_setMachine hm (n := m.recordRetry true) (fun ht => by
        unfold ZoneTripState.recordRetry
        split_ifs <;> exact ht)
      exact hs.trans (carry_of_eq rfl rfl rfl rfl rfl rfl rfl)
    · simp at h
  · split at h
    · cases h
      exact carry_of_eq rfl rfl rfl rfl rfl rfl rfl
    · cases h
      exact carry_of_eq rfl rfl rfl rfl rfl rfl rfl
    · simp at h
  · simp at h

theorem deferred_step (s : Registry) (action : Action) (s' : Registry) (hs : Deferred s₀ z s)
    (hre : action.isRestart = false) (h : s.step action = some s') : Deferred s₀ z s' := by
  cases steps_of_step h with
  | restart => simp [Action.isRestart] at hre
  | signal ha hm hi => exact hs.signal ha (signal_signalled hm hi)
  | arrive r => exact hs.arrive r
  | observe hf hn hsett hr hc hm _ _ ho =>
    exact hs.observePair hf hn hsett hr hc hm ho
  | settle hf hn hr =>
    refine hs.setReading hf ?_ hn
    intro g hg
    cases hg
    have hk := hs.frames _ _ hf
    exact ⟨hk.covered, hk.latched, by simp [hn], fun _ => hr⟩
  | @settleZone i f z' rest hf hsett =>
    have he := hs.settleZone hf (by simp [hsett]) z'
    have hn : s.attempts (.reading i) = none := by
      cases ha : s.attempts (.reading i) with
      | none => rfl
      | some a => simp [((hs.frames i f hf).attempted a ha).1] at hsett
    obtain ⟨gates, commands, hv, -⟩ := settleZone_view s f z'
    rw [hv] at he ⊢
    refine he.setReading hf ?_ hn
    intro g hg
    cases hg
    have hk := he.frames i f hf
    exact ⟨hk.covered, hk.latched, by simp [hn], fun _ => hk.settled (by simp [hsett])⟩
  | abandon hf hn => exact hs.setReading hf (by simp) hn
  | retryPair => exact hs.carry (carry_retryPair s _ _ _ _)
  | recoverPair => exact hs.carry (carry_recoverPair s _ _ _ _)
  | recover hrc => exact hs.carry (carry_recoverSignal hrc)
  | clear | taskLands | taskEnds | retryPass | recordPass | rest =>
    exact hs.carry (carry_of_eq rfl rfl rfl rfl rfl rfl rfl)

theorem Started.deferred {a : Assembly} {j : TripJournal} {pairs : List Pair}
    (hs : Started a j pairs s) (hc : a.terminalStates.get? z = some .circuitClosed) :
    Deferred s z s := by
  have hn : ∀ r t, .startupDeEnergised z r t ∉ s.trace := by
    intro r t hm
    obtain ⟨z', heq, -, ho⟩ := hs.trace _ hm
    cases heq
    simp [hc] at ho
  refine ⟨rfl, fun _ => id, ?_, .inl ?_, ?_, ?_, ?_, fun i _ => hs.readings i⟩
  · intro p hp
    obtain ⟨z', heq, -⟩ := hs.trace _ hp
    cases heq
  · rw [startupCommands, countP_eq_zero]
    intro e he ht
    obtain ⟨z', rfl, -⟩ := hs.trace e he
    obtain rfl : z' = z := by simpa [RegistryEvent.startsZone] using ht
    exact hn _ _ he
  · intro r t older hu
    exact absurd (hu.subset mem_cons_self) (hn r t)
  · intro i f hf
    simp [hs.readings] at hf
  · intro i a ha
    simp [hs.attempts] at ha

/-- The deferred close of a zone is issued at most once in a start, and only as licensed: on a
reading every active pair of the zone on its sensor found credible and clear, with no pair of the zone
tripped, and after no trip of the zone, loaded or seen. -/
theorem deferred_close {assembly : Assembly} {journal : TripJournal} {pairs : List Pair}
    {zones : List String} {s t : Registry} {actions : List Action} {z : String}
    (hclosed : assembly.terminalStates.get? z = some .circuitClosed)
    (hstart : start assembly journal pairs zones = .ok s)
    (hrestart : ∀ a ∈ actions, a.isRestart = false)
    (hrun : Execution.run step s actions = some t) :
    t.startupCommands z ≤ 1 ∧ ∀ r any older,
      .startupDeEnergised z r any :: older <:+ t.trace → Licensed s z r any older := by
  have hdeferred := Execution.run_invariant_of_meets deferred_step
    ((start_ok hstart).deferred hclosed) (Execution.meets_of_forall hrestart s) hrun
  refine ⟨?_, hdeferred.licensed⟩
  obtain hzero | ⟨hone, -⟩ := hdeferred.commands <;> omega

def heaterEntry : ActivePair := { pumpEntry with terminalState := .circuitClosed }

def heaterAssembly : Assembly where
  active := Dict.empty.set ("z1", "p1") heaterEntry
  terminalStates := Dict.empty.set "z1" .circuitClosed
  bindingSeq := 1
  accepted := by
    intro pair e h
    rw [Dict.get?_set] at h
    split_ifs at h with hpair
    · cases h
      subst hpair
      exact ⟨rfl, rfl, by decide, by decide, rfl, rfl, by decide, rfl⟩
    · simp at h

/-- A clear reading after a start with nothing latched. -/
def clearActions : List Action :=
  [.arrive ⟨"s1", .int 3, .str "A", .int 1⟩, .observe 0 "a1" 10, .settle 0 ["z1"], .settleZone 0]

theorem deferred_close_clear :
    ∃ s t, start heaterAssembly TripJournal.empty [("z1", "p1")] ["z1"] = .ok s ∧
      Execution.run step s clearActions = some t ∧ t.startupCommands "z1" = 1 ∧
      Licensed s "z1" (some ⟨"s1", .int 3, .str "A", .int 1⟩) false [] := by
  have hclose : ∀ s t, start heaterAssembly TripJournal.empty [("z1", "p1")] ["z1"] = .ok s →
      Execution.run step s clearActions = some t →
      ∀ r any older, .startupDeEnergised "z1" r any :: older <:+ t.trace →
        Licensed s "z1" r any older := fun s t hstart hrun =>
    (deferred_close rfl hstart (by simp [clearActions, Action.isRestart]) hrun).2
  exact ⟨_, _, rfl, rfl, rfl, hclose _ _ rfl rfl _ _ _ (suffix_refl _)⟩

end Registry

end OriRuntime
