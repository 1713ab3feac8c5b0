import OriRuntime.RegistryJournal

/-!
# Trips across crashes

A restart reads what the store holds of each pair. Until the retry loop attempts a latched pair,
nothing in the new start moves what decides its retry, so the first pass that visits the pair answers
for every later one.
-/

namespace OriRuntime

open List Option

/-- What `outcome_retry` looks at is the same. -/
structure ZoneTripState.SameRetry (m m' : ZoneTripState) : Prop where
  state : m'.state = m.state
  commandStatus : m'.commandStatus = m.commandStatus
  orphaned : m'.orphaned = m.orphaned
  lease : m'.driverAttemptInFlight = m.driverAttemptInFlight
  retryCancelled : m'.retryCancelled = m.retryCancelled

theorem ZoneTripState.SameRetry.outcomeRetry {m m' : ZoneTripState} (h : SameRetry m m') :
    m'.outcomeRetry = m.outcomeRetry := by
  simp only [ZoneTripState.outcomeRetry, h.state, h.commandStatus, h.orphaned, h.lease,
    h.retryCancelled]

namespace Registry

open ZoneTripState (SameRetry)

/-! ### The trace only grows -/

variable {a : Attempt} {o : Owner} {s t s' s₀ : Registry} {action : Action} {p q pair : Pair}
  {m : ZoneTripState} {sig : Signal} {attemptId : String} {now : ℤ} {rest pairs : List Pair}
  {j : TripJournal}

theorem Signalled.trace (h : Signalled s o a s') : s.trace <:+ s'.trace := by
  have ha : ∀ {t : Registry}, Carry s t → s.trace <:+ t.trace := by
    intro t ht
    obtain ⟨events, hr, -⟩ := ht.trace
    exact hr ▸ suffix_append _ _
  cases h with
  | moves mid b hc _ _ => exact (ha hc : s.trace <:+ mid.trace)
  | ends mid b hc _ _ =>
    obtain ⟨-, -, -, -, -, -, hr, -⟩ := endAttempt_view mid o b
    rw [hr]
    exact ha hc
  | escapes mid e hc _ =>
    have hs : mid.trace <:+ (mid.escape o e).trace := by
      cases o <;> exact suffix_cons _ _
    exact (ha hc).trans hs

theorem trace_step (hr : action.isRestart = false) (h : s.step action = some s') :
    s.trace <:+ s'.trace := by
  have hc : ∀ {t : Registry}, Carry s t → s.trace <:+ t.trace := by
    intro t ht
    obtain ⟨events, htr, -⟩ := ht.trace
    exact htr ▸ suffix_append _ _
  cases steps_of_step h with
  | restart => simp [Action.isRestart] at hr
  | signal _ hm hs => exact (signal_signalled hm hs).trace
  | observe _ _ _ _ _ _ _ _ ho =>
    unfold observePair at ho
    simp only at ho
    split at ho
    · simp at ho
    split_ifs at ho
    · cases ho
      exact (suffix_cons _ _).trans (suffix_cons _ _)
    · cases ho
      exact suffix_refl _
  | @settleZone i f z =>
    obtain ⟨gates, commands, hv, -⟩ := settleZone_view s f z
    rw [hv]
    exact suffix_append _ _
  | retryPair => exact hc (carry_retryPair s _ _ _ _)
  | recoverPair => exact hc (carry_recoverPair s _ _ _ _)
  | recover he => exact hc (carry_recoverSignal he)
  | clear | taskLands | taskEnds | arrive | settle | abandon | retryPass | recordPass | rest =>
    exact suffix_refl _

/-! ### A latched pair nobody has attempted -/

/-- The pair as the start `s₀` left it, with no attempt since. -/
structure Still (s₀ : Registry) (p : Pair) (s : Registry) : Prop where
  assembly : s.assembly = s₀.assembly
  machine : ∃ m₀ m, s₀.machines.get? p = some m₀ ∧ s.machines.get? p = some m ∧
    m.state = .tripped ∧ SameRetry m₀ m
  unsettled : s.unsettledIntents.get? p = none
  attempts : ∀ o a, s.attempts o = some a → a.pair ≠ p
  trace : ∀ o, .attempted o p ∉ s.trace

/-- A step that leaves the pair alone. -/
structure Apart (p : Pair) (s s' : Registry) : Prop where
  assembly : s'.assembly = s.assembly
  machine : ∀ m, s.machines.get? p = some m → m.state = .tripped →
    ∃ m', s'.machines.get? p = some m' ∧ SameRetry m m'
  unsettled : s.unsettledIntents.get? p = none → s'.unsettledIntents.get? p = none
  attempts : ∀ o b, s'.attempts o = some b → b.pair = p → ∃ a, s.attempts o = some a ∧ a.pair = p
  trace : ∃ events, s'.trace = events ++ s.trace ∧ ∀ o, .attempted o p ∉ events

theorem Apart.trans {u : Registry} (h : Apart p s t) (h' : Apart p t u) : Apart p s u := by
  obtain ⟨events, ht, hn⟩ := h.trace
  obtain ⟨events', ht', hn'⟩ := h'.trace
  refine ⟨h'.assembly.trans h.assembly, ?_, fun hu => h'.unsettled (h.unsettled hu), ?_,
    events' ++ events, by rw [ht', ht, append_assoc], ?_⟩
  · intro m hm hr
    obtain ⟨m', hm', hs⟩ := h.machine m hm hr
    obtain ⟨m'', hm'', hs'⟩ := h'.machine m' hm' (hs.state.trans hr)
    exact ⟨m'', hm'', hs'.state.trans hs.state, hs'.commandStatus.trans hs.commandStatus,
      hs'.orphaned.trans hs.orphaned, hs'.lease.trans hs.lease,
      hs'.retryCancelled.trans hs.retryCancelled⟩
  · intro o b hb hp
    obtain ⟨a, ha, hap⟩ := h'.attempts o b hb hp
    exact h.attempts o a ha hap
  · intro o he
    obtain he | he := mem_append.mp he
    · exact hn' o he
    · exact hn o he

theorem Still.apart (hs : Still s₀ p s) (h : Apart p s s') : Still s₀ p s' := by
  obtain ⟨m₀, m, hm₀, hm, ht, hsm⟩ := hs.machine
  obtain ⟨m', hm', hs'⟩ := h.machine m hm ht
  obtain ⟨events, hr, hn⟩ := h.trace
  refine ⟨h.assembly.trans hs.assembly, ⟨m₀, m', hm₀, hm', hs'.state.trans ht,
    hs'.state.trans hsm.state, hs'.commandStatus.trans hsm.commandStatus,
    hs'.orphaned.trans hsm.orphaned, hs'.lease.trans hsm.lease,
    hs'.retryCancelled.trans hsm.retryCancelled⟩, h.unsettled hs.unsettled, ?_, ?_⟩
  · intro o b hb hp
    obtain ⟨a, ha, hap⟩ := h.attempts o b hb hp
    exact hs.attempts o a ha hap
  · intro o he
    rw [hr] at he
    obtain he | he := mem_append.mp he
    · exact hn o he
    · exact hs.trace o he

variable {e : ActivePair} {actions : List Action}

/-- The loop has yet to visit the pair, or an escaped error has ended it. -/
def Ahead (p : Pair) (s : Registry) : Prop :=
  s.retry = .idle ∨ (∃ rest, s.retry = .pending rest ∧ p ∈ rest) ∨ s.retry = .ended

theorem Ahead.congr (h : Ahead p s) (hr : s'.retry = s.retry ∨ s'.retry = .ended) : Ahead p s' := by
  obtain hr | hr := hr
  · unfold Ahead
    rw [hr]
    exact h
  · exact .inr (.inr hr)

end Registry

/-! ### What the journal says of the last command -/

namespace TripJournal

def lastRow (j : TripJournal) (p : Pair) : Option JournalRow := (j.pairRows p.1 p.2).getLast?

def commandedUnder (j : TripJournal) (p : Pair) : Option ℤ :=
  ((j.pairRows p.1 p.2).filter (·.isIntent)).getLast?.bind (·.bindingSeq)

/-- The pair's last durable entry is a record with one of the statuses. -/
def endsInRecord (j : TripJournal) (p : Pair) (statuses : List CommandStatus) : Bool :=
  (j.lastRow p).any (fun r => decide (r.entryKind = .record) &&
    statuses.any (fun st => decide (r.commandStatus = some st.text)))

/-- An intent of the pair became durable after its last durable clear. -/
def IntentSinceClear (j : TripJournal) (p : Pair) : Prop :=
  ∃ r ∈ afterLast (fun r : JournalRow => decide (r.entryKind = .clear)) (j.pairRows p.1 p.2),
    r.isIntent = true

theorem recordStatus?_eq_some {v : Option String} {st : CommandStatus}
    (h : recordStatus? (pyStr? v) = some st) : v = some st.text ∧ st ≠ .none := by
  refine ⟨?_, ZoneTripState.recordStatus?_ne_none h⟩
  cases v with
  | none => simp [pyStr?, recordStatus?] at h
  | some s =>
    simp only [pyStr?, recordStatus?] at h
    split_ifs at h with h₁ h₂ h₃ <;> cases h <;> simp [CommandStatus.text, *]

variable {j : TripJournal} {p : Pair}

theorem IntentSinceClear.lastRow (hj : WellWritten j) (h : j.IntentSinceClear p) :
    ∃ r ∈ j.rows, j.lastRow p = some r ∧ r.ofPair p.1 p.2 = true ∧
      ((r.entryKind = .intent ∧ j.commandedUnder p = r.bindingSeq) ∨
        (r.entryKind = .record ∧ ∃ st : CommandStatus, st ≠ .none ∧
          r.commandStatus = some st.text ∧ recordStatus? (pyStr? r.commandStatus) = some st)) := by
  obtain ⟨i, hi, -⟩ := h
  obtain hn | ⟨rows, r, hw⟩ := (j.pairRows p.1 p.2).eq_nil_or_concat
  · simp [hn] at hi
  have hm : r ∈ j.pairRows p.1 p.2 := by simp [hw]
  obtain ⟨hr, hp⟩ := mem_filter.mp hm
  refine ⟨r, hr, by simp [TripJournal.lastRow, hw], hp, ?_⟩
  obtain hin | hc | ⟨hre, st, hs⟩ := hj.kind r hr
  · refine .inl ⟨by simpa [JournalRow.isIntent] using hin, ?_⟩
    simp [commandedUnder, hw, hin]
  · rw [hw, concat_eq_append, afterLast_concat_of_pos (by simp [hc])] at hi
    simp at hi
  · obtain ⟨ht, he⟩ := recordStatus?_eq_some hs
    exact .inr ⟨hre, st, he, ht, hs⟩

end TripJournal

namespace Registry

variable {a : Assembly} {j : TripJournal} {p : Pair} {pairs : List Pair} {s : Registry}

theorem Started.found (hs : Started a j pairs s) (hj : TripJournal.WellWritten j)
    (hw : ∀ r ∈ j.rows, r.isIntent = true → r.IntentWritten) (hp : p ∈ pairs)
    (hn : j.IntentSinceClear p) :
    Tripped s p ∧ (s.retryDue p = true ↔ (a.active.get? p).isSome = true ∧
      j.endsInRecord p [.commandIssued] = false ∧
      (j.endsInRecord p [.commandPending, .driverRefused] = true ∨
        j.commandedUnder p = some a.bindingSeq)) := by
  obtain ⟨r, hr, hl, hpr, ho⟩ := hn.lastRow hj
  obtain ⟨m, hm⟩ := isSome_iff_exists.mp (hs.present p hp)
  have hload := (hs.loaded p m hm).2.eq hj
  have hi : r.zoneId = p.1 ∧ r.profileId = p.2 := by simpa [JournalRow.ofPair] using hpr
  have hsl : (s.intentSettled p).2 = true := by
    simp [intentSettled, hs.unsettled]
  have hd : s.retryDue p = true ↔ m.outcomeRetry.retry = some .attempted ∧
      (a.active.get? p).isSome = true := by
    rw [retryDue_iff, hs.assembly, isSome_iff_exists]
    simp [hsl, hm]
  rw [show (j.pairRows p.1 p.2).getLast? = some r from hl] at hload
  rw [hd]
  obtain ⟨hk, hu⟩ | ⟨hk, st, he, hx, ht⟩ := ho
  · have hf := (hw r hr (by simp [JournalRow.isIntent, hk])).wellFormed
    rw [hi.1, hi.2] at hf
    simp only [TripJournal.loadedFrom, map_some, TripJournal.markOf, hk, freshMachine, hf,
      Bool.true_and] at hload
    refine ⟨⟨m, hm, by rw [hload]; split_ifs <;> rfl⟩, ?_⟩
    simp only [TripJournal.endsInRecord, hl, any_some, hk, hu, hload]
    cases a.active.get? p with
    | none => simp
    | some e => by_cases hse : r.bindingSeq = some a.bindingSeq <;>
        simp [ZoneTripState.outcomeRetry, hse]
  · simp only [TripJournal.loadedFrom, map_some, TripJournal.markOf, hk, freshMachine, ht,
      getD_some] at hload
    refine ⟨⟨m, hm, by rw [hload]; split_ifs <;> rfl⟩, ?_⟩
    simp only [TripJournal.endsInRecord, hl, any_some, hk, hx, hload]
    cases a.active.get? p with
    | none => simp
    | some e => cases st <;> simp [ZoneTripState.outcomeRetry, CommandStatus.text] at he ⊢

end Registry

end OriRuntime
