import OriRuntime.InboundSteps

/-!
# No inbound message is stranded

Sessions begin and end around the messages. Where no slot is taken and nobody is midway, what the
current session left unacknowledged is due to come back.
-/

namespace OriRuntime

open List Option

open Execution

variable {s t : InboundState} {m : InboundMessage} {i k : ℕ}

namespace InboundSound

variable (hs : InboundSound s)

include hs

/-! ### Sessions -/

theorem onSession {f : InboundSession → InboundSession} (hf : ∀ ses, Reports ses (f ses)) :
    InboundSound (s.onSession k f) where
  taken := hs.taken
  bound := hs.bound
  sound := hs.sound
  current j hj := by
    change j < (s.sessions.modify k f).length
    rw [length_modify]
    exact hs.current j hj
  known m hm := by
    change m.session < (s.sessions.modify k f).length
    rw [length_modify]
    exact hs.known m hm
  kept m hm := kept_of_stayDue (stayDue_modify fun ses => (hf ses).toStaysDue) s.taken s.messages
      (hs.kept m hm)
  watched j ses' hj hs' howed := by
    obtain ⟨ses, he, rfl⟩ := session_of_modify hs'
    refine hs.watched j ses hj he ?_
    split_ifs at howed with hsm
    · rw [(hf ses).owed] at howed
      exact howed
    · exact howed

theorem onSubscribe (granted : Bool) : InboundSound (s.onSubscribe k granted) := by
  unfold InboundState.onSubscribe
  split_ifs with hg
  · exact hs.onSession fun _ => reports_setConnected true
  · exact (hs.onSession fun _ => reports_setConnected false).onSession fun _ => reports_lost

theorem onConnect (ok : Bool) : InboundSound (s.onConnect k ok) := by
  unfold InboundState.onConnect
  split_ifs with ho
  · exact hs
  · exact hs.onSession fun _ => reports_lost

theorem close (ht : s.close = some t) : InboundSound t := by
  unfold InboundState.close at ht
  split at ht
  · cases ht
  rename_i k hc
  cases ht
  exact hs.onSession fun _ => reports_close

theorem fresh (manualAck : Bool) : InboundSound
    { s with
      sessions := s.sessions ++ [{}]
      current := some s.sessions.length
      manualAck := manualAck } where
  taken := hs.taken
  bound := hs.bound
  sound := hs.sound
  current k hk := by
    cases hk
    simp
  known m hm := by
    have hl := hs.known m hm
    change m.session < (s.sessions ++ [({} : InboundSession)]).length
    rw [length_append]
    exact Nat.lt_add_right _ hl
  kept m hm hc := by
    have hl := hs.known m hm
    have heq := some.inj hc
    omega
  watched k ses hk he howed := by
    cases hk
    change (s.sessions ++ [({} : InboundSession)])[s.sessions.length]? = some ses at he
    rw [List.getElem?_concat_length] at he
    cases he
    cases howed

theorem beginSession {manualAck : Bool} (ht : s.beginSession manualAck = some t) :
    InboundSound t := by
  unfold InboundState.beginSession at ht
  cases hc : s.current with
  | none =>
    simp only [hc] at ht
    cases ht
    exact hs.fresh manualAck
  | some k =>
    simp only [hc] at ht
    cases he : s.sessions[k]? with
    | none =>
      simp only [he] at ht
      cases ht
    | some ses =>
      simp only [he] at ht
      split at ht <;> rename_i ho
      · cases ht
      · cases ht
        exact hs.fresh manualAck

theorem deliver {mid : Option ℕ} {length : ℕ} (ht : s.deliver k mid length = some t) :
    InboundSound t := by
  unfold InboundState.deliver at ht
  split at ht <;> rename_i hk
  · cases ht
    have he : ∀ m ∈ s.messages ++ [{ session := k, mid := mid, length := length }],
        m ∈ s.messages ∨ m = { session := k, mid := mid, length := length } := fun m hm => by
      rcases mem_append.mp hm with hold | hn
      · exact .inl hold
      · exact .inr (mem_singleton.mp hn)
    constructor
    · change s.taken = List.countP _ (s.messages ++ _)
      rw [countP_append, ← hs.taken]
      rfl
    · exact hs.bound
    · exact hs.current
    · intro m hm
      rcases he m hm with hold | rfl
      · exact hs.known m hold
      · exact hk
    · intro m hm
      rcases he m hm with hold | rfl
      · exact hs.sound m hold
      · exact ⟨nofun, nofun, nofun, nofun, nofun⟩
    · intro m hm
      rcases he m hm with hold | rfl
      · exact hs.kept m hold
      · exact kept_of_unanswered rfl
    · intro j ses hj hse howed
      rcases hs.watched j ses hj hse howed with hp | ⟨m, hm, hw⟩
      · exact .inl hp
      · exact .inr ⟨m, mem_append_left _ hm, hw⟩
  · cases ht

/-! ### Every run -/

theorem step {a : InboundStep} (ht : inboundStep s a = some t) : InboundSound t := by
  cases a with
  | beginSession manualAck => exact hs.beginSession ht
  | close => exact hs.close ht
  | onConnect k ok => exact some.inj ht ▸ hs.onConnect ok
  | onSubscribe k granted => exact some.inj ht ▸ hs.onSubscribe granted
  | onDisconnect k => exact some.inj ht ▸ hs.onSession fun _ => reports_disconnect
  | wake k => exact some.inj ht ▸ hs.onSession fun _ => reports_wake
  | deliver k mid length => exact hs.deliver ht
  | look i => exact hs.look ht
  | admission i overRate => exact hs.admission ht
  | release i accepted => exact hs.release ht
  | tryTake i => exact hs.tryTake ht
  | owe i => exact hs.owe ht
  | readSlots i => exact hs.readSlots ht
  | schedule i ok => exact hs.schedule ht
  | start i => exact hs.startsRouting ht
  | cancel i => exact hs.cancel ht
  | routeReturns i => exact hs.routeReturns ht
  | routeFails i => exact hs.routeFails ht
  | acknowledge i ok => exact hs.acknowledge ht
  | ackRuns i accepted => exact hs.ackRuns ht
  | ackReturns i => exact hs.ackReturns ht
  | ackCancelled i dropped => exact hs.ackCancelled ht
  | giveBack i => exact hs.giveBack ht
  | readSession i => exact hs.readSession ht
  | redeliverOwed i => exact hs.redeliverOwed ht

end InboundSound

theorem answered_of_quiet {phase : InboundPhase} (hm : phase.midway = false)
    (hh : phase.holdsSlot = false) : phase = .done := by
  cases phase <;> simp_all [InboundPhase.midway, InboundPhase.holdsSlot]

namespace InboundState

/-- No slot is taken, no callback is midway, and nobody is between giving a slot back and settling
what is owed. -/
structure Quiet (s : InboundState) : Prop where
  taken : s.taken = 0
  midway : ∀ m ∈ s.messages, m.phase.midway = false

end InboundState

theorem inbound_not_stranded {as : List InboundStep} (h : run inboundStep {} as = some s) :
    s.taken = s.messages.countP InboundMessage.holds ∧ s.taken ≤ INBOUND_IN_FLIGHT_BOUND ∧
    (∀ m ∈ s.messages, m.acked = true → m.routed = true ∨ m.tooLarge = true) ∧
    (s.Quiet → ∀ k ses, s.current = some k → s.sessions[k]? = some ses → ses.isOpen = true →
      s.manualAck = true → ∀ m ∈ s.messages, m.session = k → m.mid ≠ none →
        m.acked = true ∨ ses.pending = true ∨ m.ReleaseRefused) := by
  have hstep : ∀ u a v, InboundSound u → inboundStep u a = some v → InboundSound v :=
    fun u a v hu hv => hu.step hv
  have hs : InboundSound s := run_invariant hstep InboundSound.start h
  refine ⟨hs.taken, hs.bound, fun m hm => (hs.sound m hm).acked, ?_⟩
  intro hquiet k ses hcurrent hses hopen hmanual m hm hsession hmid
  have hdone : ∀ n ∈ s.messages, n.phase = .done := fun n hn => by
    refine answered_of_quiet (hquiet.midway n hn) ?_
    have hnone := hs.taken.symm.trans hquiet.taken
    exact Bool.not_eq_true _ ▸ countP_eq_zero.mp hnone n hn
  have hanswered : m.phase.answered = true := by
    rw [hdone m hm]
    rfl
  rcases hs.kept m hm (hsession ▸ hcurrent) hmanual hmid hanswered ses (hsession ▸ hses) with
    hacked | hrefused | (howed | hpending) | hclosed
  · exact .inl hacked
  · exact .inr (.inr hrefused)
  · rcases hs.watched k ses hcurrent hses howed with hpos | ⟨n, hn, hwatches⟩
    · exact absurd hquiet.taken (Nat.ne_of_gt hpos)
    have hidle : n.phase.watchful = false := by
      rw [hdone n hn]
      rfl
    exact absurd hwatches (not_watches hidle)
  · exact .inr (.inl hpending)
  · rw [hopen] at hclosed
    cases hclosed

/-- A message over the maximum whose release the client refuses. -/
def refusedRelease : List InboundStep :=
  [.beginSession true, .onConnect 0 true, .onSubscribe 0 true,
    .deliver 0 (some 1) (EVIDENCE_INBOUND_MAXIMUM + 1), .look 0, .admission 0 false,
    .release 0 false]

theorem refusedRelease_left :
    ∃ s ses m, run inboundStep {} refusedRelease = some s ∧ s.Quiet ∧ s.current = some 0 ∧
      s.sessions[0]? = some ses ∧ ses.isOpen = true ∧ s.manualAck = true ∧ m ∈ s.messages ∧
      m.session = 0 ∧ m.mid ≠ none ∧
      ¬ (m.acked = true ∨ ses.pending = true ∨ ses.lost = true) := by
  refine ⟨_, _, _, rfl, ⟨rfl, ?_⟩, rfl, rfl, rfl, rfl, mem_singleton_self _, rfl, by decide,
    by decide⟩
  intro m hm
  obtain rfl := mem_singleton.mp hm
  rfl

/-- Routed, then refused by the client: left with the broker, and the session ends for it. -/
def refusedAcknowledgement : List InboundStep :=
  [.beginSession true, .deliver 0 (some 1) 40, .look 0, .admission 0 false, .tryTake 0,
    .schedule 0 true, .start 0, .routeReturns 0, .acknowledge 0 true, .ackRuns 0 false,
    .ackReturns 0, .owe 0, .giveBack 0, .readSession 0, .redeliverOwed 0]

theorem inbound_not_stranded_of_refused :
    ∃ s ses m, run inboundStep {} refusedAcknowledgement = some s ∧ s.sessions[0]? = some ses ∧
      m ∈ s.messages ∧ m.acked = false ∧
      (m.acked = true ∨ ses.pending = true ∨ m.ReleaseRefused) := by
  refine ⟨_, _, _, rfl, rfl, mem_singleton_self _, rfl, ?_⟩
  refine (inbound_not_stranded (show run inboundStep {} refusedAcknowledgement = some _ from rfl)).2.2.2
    ⟨rfl, ?_⟩ 0 _ rfl rfl rfl rfl
    _ (mem_singleton_self _) rfl (by decide)
  intro m hm
  obtain rfl := mem_singleton.mp hm
  rfl

end OriRuntime
