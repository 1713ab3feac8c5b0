import OriRuntime.EvidenceInbound

/-!
# What a session owes

A message that was left unacknowledged has put a debt on its session, and a debt of the current
session is watched: a slot is taken, or somebody is about to look at what is owed.
-/

namespace OriRuntime

open List

open Execution

variable {s t : InboundState} {ses ses' : InboundSession} {m m' : InboundMessage} {i k : ℕ}

/-! ### A session's debt grows until the session ends -/

def InboundSession.due (ses : InboundSession) : Prop := ses.owed = true ∨ ses.pending = true

/-- A session that goes on: what is due stays due, what is closed stays closed. -/
structure StaysDue (ses ses' : InboundSession) : Prop where
  due : ses.due → ses'.due
  closed : ses.isOpen = false → ses'.isOpen = false

theorem StaysDue.refl : StaysDue ses ses := ⟨id, id⟩

theorem staysDue_owe (failed rate : Bool) : StaysDue ses (ses.owe failed rate) :=
  ⟨fun _ => .inl rfl, id⟩

theorem due_owe (failed rate : Bool) : (ses.owe failed rate).due := .inl rfl

theorem redeliverOwed_owed : ses.redeliverOwed.owed = false := by
  unfold InboundSession.redeliverOwed
  by_cases howed : ses.owed = false
  · rw [if_pos howed]
    exact howed
  · rw [if_neg howed]

theorem staysDue_redeliverOwed : StaysDue ses ses.redeliverOwed := by
  unfold InboundSession.redeliverOwed
  split_ifs with howed
  · exact .refl
  · exact ⟨fun _ => .inr rfl, id⟩

/-- A session callback: it reports the session up, down or lost, and owes nothing. -/
structure Reports (ses ses' : InboundSession) : Prop extends StaysDue ses ses' where
  owed : ses'.owed = ses.owed

theorem Reports.trans {ses'' : InboundSession} (h : Reports ses ses') (h' : Reports ses' ses'') :
    Reports ses ses'' where
  due := h'.due ∘ h.due
  closed := h'.closed ∘ h.closed
  owed := h'.owed.trans h.owed

theorem reports_lost : Reports ses { ses with lost := true } := ⟨⟨id, id⟩, rfl⟩

theorem reports_close : Reports ses ses.close := ⟨⟨id, fun _ => rfl⟩, rfl⟩

theorem reports_setConnected (connected : Bool) : Reports ses (ses.setConnected connected) := by
  unfold InboundSession.setConnected
  split_ifs with ho
  · exact ⟨.refl, rfl⟩
  · exact ⟨⟨id, id⟩, rfl⟩

theorem reports_wake : Reports ses ses.wake := by
  unfold InboundSession.wake
  split_ifs with hp
  · exact ⟨.refl, rfl⟩
  · exact ⟨⟨id, id⟩, rfl⟩

theorem reports_disconnect :
    Reports ses (if ses.isOpen = false then ses else { ses.setConnected false with lost := true }) := by
  split_ifs with ho
  · exact ⟨.refl, rfl⟩
  · exact (reports_setConnected false).trans reports_lost

def StayDue (sessions sessions' : List InboundSession) : Prop :=
  ∀ k : ℕ, ∀ ses', sessions'[k]? = some ses' → ∃ ses, sessions[k]? = some ses ∧ StaysDue ses ses'

variable {f : InboundSession → InboundSession} {sessions : List InboundSession}

theorem session_of_modify {j : ℕ} (h : (sessions.modify k f)[j]? = some ses') :
    ∃ ses, sessions[j]? = some ses ∧ ses' = if k = j then f ses else ses := by
  rw [List.getElem?_modify] at h
  obtain ⟨ses, hs, heq⟩ := Option.map_eq_some_iff.mp h
  refine ⟨ses, hs, ?_⟩
  by_cases hm : k = j
  · rw [if_pos hm] at heq ⊢
    exact heq.symm
  · rw [if_neg hm] at heq ⊢
    exact heq.symm

theorem stayDue_refl (sessions : List InboundSession) : StayDue sessions sessions :=
  fun _ ses h => ⟨ses, h, .refl⟩

theorem stayDue_modify (hf : ∀ ses, StaysDue ses (f ses)) :
    StayDue sessions (sessions.modify k f) := by
  intro j ses' hs'
  obtain ⟨ses, hs, rfl⟩ := session_of_modify hs'
  refine ⟨ses, hs, ?_⟩
  split_ifs with hm
  · exact hf ses
  · exact .refl

/-! ### The invariant -/

structure InboundMessage.Sound (m : InboundMessage) : Prop where
  acked : m.acked = true → m.routed = true ∨ m.tooLarge = true
  ran : m.ack = .ran true → m.acked = true
  asked : m.ack = .inThread → m.routed = true
  returned : m.phase = .returned → m.routed = true
  oversized : m.phase = .oversized → m.tooLarge = true

namespace InboundPhase

/-- Past the line that acknowledges the message or owes its redelivery. -/
def answered : InboundPhase → Bool
  | .leaving | .reconnecting | .giving | .freed | .settling _ | .done => true
  | _ => false

end InboundPhase

/-- Where an acknowledgement would have been the end of a message too large to be routed. -/
def InboundMessage.ReleaseRefused (m : InboundMessage) : Prop :=
  m.tooLarge = true ∧ m.ack = .ran false

def InboundState.Kept (s : InboundState) (m : InboundMessage) : Prop :=
  s.current = some m.session → s.manualAck = true → m.mid ≠ none → m.phase.answered = true →
    ∀ ses, s.sessions[m.session]? = some ses →
      m.acked = true ∨ m.ReleaseRefused ∨ ses.due ∨ ses.isOpen = false

/-- Somebody at this message is about to settle what the session `k` owes. -/
def InboundMessage.Watches (m : InboundMessage) (k : ℕ) : Prop :=
  ((m.phase = .leaving ∨ m.phase = .reconnecting) ∧ m.session = k) ∨ m.phase = .freed ∨
    m.phase = .settling k

def InboundMessage.holds (m : InboundMessage) : Bool := m.phase.holdsSlot

structure InboundSound (s : InboundState) : Prop where
  taken : s.taken = s.messages.countP InboundMessage.holds
  bound : s.taken ≤ INBOUND_IN_FLIGHT_BOUND
  current : ∀ k, s.current = some k → k < s.sessions.length
  known : ∀ m ∈ s.messages, m.session < s.sessions.length
  sound : ∀ m ∈ s.messages, m.Sound
  kept : ∀ m ∈ s.messages, s.Kept m
  watched : ∀ k ses, s.current = some k → s.sessions[k]? = some ses → ses.owed = true →
    0 < s.taken ∨ ∃ m ∈ s.messages, m.Watches k

theorem InboundSound.start : InboundSound {} where
  taken := rfl
  bound := Nat.zero_le _
  current := fun k h => by cases h
  known := fun m h => by cases h
  sound := fun m h => by cases h
  kept := fun m h => by cases h
  watched := fun k ses h => by cases h

theorem InboundSound.taken_pos (hs : InboundSound s) (hi : s.messages[i]? = some m)
    (hh : m.holds = true) : 0 < s.taken := by
  rw [hs.taken]
  exact countP_pos_iff.mpr ⟨m, mem_of_getElem? hi, hh⟩

/-! ### One message moves -/

theorem kept_of_stayDue (hgrow : StayDue s.sessions sessions) (taken : ℕ)
    (messages : List InboundMessage) (h : s.Kept m) : InboundState.Kept
      { s with sessions := sessions, taken := taken, messages := messages } m := by
  intro hc hm hi hn ses' hs'
  obtain ⟨ses, hs, hgoes⟩ := hgrow _ _ hs'
  rcases h hc hm hi hn ses hs with ha | hr | hd | hl
  · exact .inl ha
  · exact .inr (.inl hr)
  · exact .inr (.inr (.inl (hgoes.due hd)))
  · exact .inr (.inr (.inr (hgoes.closed hl)))

theorem InboundSound.move (hs : InboundSound s) (hi : s.messages[i]? = some m) {taken : ℕ}
    (hsess : m'.session = m.session) (hl : sessions.length = s.sessions.length)
    (hgrow : StayDue s.sessions sessions) (hsn : m'.Sound)
    (ht : taken + (if m.holds = true then 1 else 0) =
      s.taken + (if m'.holds = true then 1 else 0)) (hb : taken ≤ INBOUND_IN_FLIGHT_BOUND)
    (hkp : InboundState.Kept { s with sessions := sessions } m')
    (hwatc : ∀ k : ℕ, ∀ ses', s.current = some k → sessions[k]? = some ses' → ses'.owed = true →
      0 < taken ∨ m'.Watches k ∨
        (taken = s.taken ∧ ¬ m.Watches k ∧ ∃ ses, s.sessions[k]? = some ses ∧ ses.owed = true)) :
    InboundSound
      { s with sessions := sessions, taken := taken, messages := s.messages.set i m' } where
  bound := hb
  taken := by
    have hc := countP_set_add hi m' InboundMessage.holds
    have hold := hs.taken
    simp only [Bool.toNat, Bool.cond_eq_ite] at hc
    change taken = (s.messages.set i m').countP InboundMessage.holds
    omega
  current k hk := hl ▸ hs.current k hk
  known n hn := by
    rw [hl]
    rcases mem_or_eq_of_mem_set hn with hm | rfl
    · exact hs.known n hm
    · rw [hsess]
      exact hs.known m (mem_of_getElem? hi)
  sound n hn := by
    rcases mem_or_eq_of_mem_set hn with hm | rfl
    · exact hs.sound n hm
    · exact hsn
  kept n hn := by
    rcases mem_or_eq_of_mem_set hn with hm | rfl
    · exact kept_of_stayDue hgrow _ _ (hs.kept n hm)
    · exact hkp
  watched k ses' hk hs' howed := by
    rcases hwatc k ses' hk hs' howed with hp | hw | ⟨heq, ho, ses, he, hold⟩
    · exact .inl hp
    · obtain ⟨hlt, -⟩ := List.getElem?_eq_some_iff.mp hi
      exact .inr ⟨m', mem_set hlt _, hw⟩
    · rcases hs.watched k ses hk he hold with hp | ⟨n, hn, hw⟩
      · exact .inl (heq ▸ hp)
      obtain ⟨j, hj⟩ := mem_iff_getElem?.mp hn
      have hne : i ≠ j := by
        rintro rfl
        obtain rfl := Option.mem_unique hi hj
        exact ho hw
      refine .inr ⟨n, mem_iff_getElem?.mpr ⟨j, ?_⟩, hw⟩
      exact (List.getElem?_set_ne hne).trans hj

theorem InboundSound.moveOn (hs : InboundSound s) (hi : s.messages[i]? = some m)
    (he : m'.session = m.session) (hn : m'.Sound) (hh : m'.holds = m.holds)
    (hkp : s.Kept m')
    (hw : ∀ k, s.current = some k → m.Watches k → 0 < s.taken ∨ m'.Watches k) :
    InboundSound (s.setMessage i m') := by
  refine hs.move hi he rfl (stayDue_refl _) hn (by rw [hh])
    hs.bound hkp fun k ses' hk hs' howed => ?_
  by_cases hwatc : m.Watches k
  · rcases hw k hk hwatc with hp | hw
    · exact .inl hp
    · exact .inr (.inl hw)
  · exact .inr (.inr ⟨rfl, hwatc, ses', hs', howed⟩)

end OriRuntime
