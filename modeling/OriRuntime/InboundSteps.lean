import OriRuntime.InboundDebt

/-!
# The lines of a callback and of a route

Each of them keeps the invariant: the message it moves is not yet answered, was answered before, or
is answered here, by an acknowledgement or by a debt that somebody watches.
-/

namespace OriRuntime

open List

variable {s t : InboundState} {m m' : InboundMessage} {i k : ℕ}

variable {phase : InboundPhase}

theorem inPhase_cases {f : InboundMessage → Option InboundState} (ht : s.inPhase i phase f = some t) :
    ∃ m, s.messages[i]? = some m ∧ m.phase = phase ∧ f m = some t := by
  unfold InboundState.inPhase at ht
  cases hi : s.messages[i]? with
  | none =>
    rw [hi] at ht
    cases ht
  | some m =>
    simp only [hi] at ht
    split at ht <;> rename_i hp
    · exact ⟨m, rfl, hp, ht⟩
    · cases ht

theorem kept_of_unanswered (h : m.phase.answered = false) : s.Kept m := by
  intro _ _ _ ha
  rw [h] at ha
  cases ha

theorem kept_of_unasked (h : s.manualAck = false ∨ m.mid = none) : s.Kept m := by
  intro _ hm hi _
  rcases h with hauto | hn
  · rw [hm] at hauto
    cases hauto
  · exact absurd hn hi

def InboundPhase.watchful : InboundPhase → Bool
  | .leaving | .reconnecting | .freed | .settling _ => true
  | _ => false

theorem not_watches (h : m.phase.watchful = false) : ¬ m.Watches k := by
  rintro (⟨hp | hp, -⟩ | hp | hp) <;> rw [hp] at h <;> cases h

theorem InboundMessage.Sound.setPhase (h : m.Sound) (hr : phase = .returned → m.routed = true)
    (ho : phase = .oversized → m.tooLarge = true) :
    InboundMessage.Sound { m with phase := phase } where
  acked := h.acked
  ran := h.ran
  asked := h.asked
  returned := hr
  oversized := ho

namespace InboundSound

variable (hs : InboundSound s)

include hs

theorem soundAt (hi : s.messages[i]? = some m) : m.Sound := hs.sound m (mem_of_getElem? hi)

theorem keptAt (hi : s.messages[i]? = some m) : s.Kept m := hs.kept m (mem_of_getElem? hi)

variable {phase : InboundPhase} {ok accepted : Bool}

theorem passes (hi : s.messages[i]? = some m) (ha : phase.answered = false)
    (hh : phase.holdsSlot = m.phase.holdsSlot) (hw : m.phase.watchful = false)
    (hn : InboundMessage.Sound { m with phase := phase }) :
    InboundSound (s.setPhase i m phase) :=
  hs.moveOn hi rfl hn hh (kept_of_unanswered ha) fun _ _ h => absurd h (not_watches hw)

theorem look (ht : s.look i = some t) : InboundSound t := by
  obtain ⟨m, hi, hh, ht⟩ := inPhase_cases ht
  have hn := hs.soundAt hi
  have hidle : m.phase.watchful = false := by rw [hh]; rfl
  cases he : s.sessions[m.session]? with
  | none =>
    simp only [he] at ht
    cases ht
  | some ses =>
    simp only [he] at ht
    split at ht <;> rename_i hover
    · split_ifs at ht with hl
      · cases ht
        exact hs.passes hi rfl (by rw [hh]; rfl) hidle (hn.setPhase nofun fun _ => hl)
      · cases ht
        refine hs.moveOn hi rfl (hn.setPhase nofun nofun)
          (by unfold InboundMessage.holds; rw [hh]; rfl) ?_
          (fun _ _ h => absurd h (not_watches hidle))
        intro _ _ _ _ ses' hs'
        obtain rfl := Option.mem_unique he hs'
        rcases hover with hp | hc
        · exact .inr (.inr (.inl (.inr hp)))
        · exact .inr (.inr (.inr hc))
    · cases ht
      exact hs.passes hi rfl (by rw [hh]; rfl) hidle (hn.setPhase nofun nofun)

theorem admission {overRate : Bool} (ht : s.admission i overRate = some t) : InboundSound t := by
  obtain ⟨m, hi, hp, ht⟩ := inPhase_cases ht
  have hn := hs.soundAt hi
  have hidle : m.phase.watchful = false := by rw [hp]; rfl
  split at ht <;> rename_i hl
  · cases ht
    exact hs.passes hi rfl (by rw [hp]; rfl) hidle (hn.setPhase nofun fun _ => hl)
  · split_ifs at ht with hrate
    · cases ht
      exact hs.passes hi rfl (by rw [hp]; rfl) hidle (hn.setPhase nofun nofun)
    · cases ht
      exact hs.passes hi rfl (by rw [hp]; rfl) hidle (hn.setPhase nofun nofun)

theorem release (ht : s.release i accepted = some t) : InboundSound t := by
  obtain ⟨m, hi, hp, ht⟩ := inPhase_cases ht
  have hn := hs.soundAt hi
  have hl := hn.oversized hp
  have hh : m.holds = false := by unfold InboundMessage.holds; rw [hp]; rfl
  have hidle : m.phase.watchful = false := by rw [hp]; rfl
  split_ifs at ht with hauto
  · cases ht
    exact hs.moveOn hi rfl (hn.setPhase nofun nofun)
      (by rw [hh]; rfl) (kept_of_unasked hauto) (fun _ _ h => absurd h (not_watches hidle))
  · cases ht
    refine hs.moveOn hi rfl ?_ (by rw [hh]; rfl) ?_
      (fun _ _ h => absurd h (not_watches hidle))
    · exact
        { acked := fun _ => .inr hl
          ran := fun h => InboundAck.ran.inj h
          asked := nofun
          returned := nofun
          oversized := nofun }
    · intro _ _ _ _ ses _
      cases ha : accepted with
      | true => exact .inl rfl
      | false => exact .inr (.inl ⟨hl, rfl⟩)

theorem tryTake (ht : s.tryTake i = some t) : InboundSound t := by
  obtain ⟨m, hi, hp, ht⟩ := inPhase_cases ht
  have hn := hs.soundAt hi
  have hidle : m.phase.watchful = false := by rw [hp]; rfl
  split_ifs at ht with hl
  · cases ht
    exact hs.passes hi rfl (by rw [hp]; rfl) hidle (hn.setPhase nofun nofun)
  · cases ht
    have hf : m.holds = false := by unfold InboundMessage.holds; rw [hp]; rfl
    exact hs.move hi rfl rfl (stayDue_refl _) (hn.setPhase nofun nofun)
      (by rw [hf]; rfl) (by omega) (kept_of_unanswered rfl)
      (fun _ _ _ _ _ => .inl (Nat.succ_pos _))

theorem owes (hi : s.messages[i]? = some m) {failed rate : Bool}
    (hn : InboundMessage.Sound { m with phase := phase })
    (hh : phase.holdsSlot = m.phase.holdsSlot) (hw : m.phase.watchful = false)
    (hl : m.holds = true ∨ phase = .leaving) :
    InboundSound ((s.onSession m.session fun ses => ses.owe failed rate).setPhase i m phase) := by
  refine hs.move hi rfl (length_modify _ _ _) (stayDue_modify fun _ => staysDue_owe _ _)
    hn (by unfold InboundMessage.holds; rw [hh]; rfl) hs.bound ?_ ?_
  · intro _ _ _ _ ses' hs'
    obtain ⟨ses, -, rfl⟩ := session_of_modify hs'
    rw [if_pos rfl]
    exact .inr (.inr (.inl (due_owe _ _)))
  · intro k ses' _ hs' howed
    rcases hl with hd | rfl
    · exact .inl (hs.taken_pos hi hd)
    obtain ⟨ses, he, rfl⟩ := session_of_modify hs'
    by_cases hm : m.session = k
    · exact .inr (.inl (.inl ⟨.inl rfl, hm⟩))
    · rw [if_neg hm] at howed
      exact .inr (.inr ⟨rfl, not_watches hw, ses, he, howed⟩)

theorem owe (ht : s.owe i = some t) : InboundSound t := by
  unfold InboundState.owe at ht
  split at ht
  · cases ht
  rename_i m hi
  have hn : ∀ phase, phase = .leaving ∨ phase = .giving →
      InboundMessage.Sound { m with phase := phase } := fun phase hp =>
    (hs.soundAt hi).setPhase (by rintro rfl; rcases hp with h | h <;> cases h)
      (by rintro rfl; rcases hp with h | h <;> cases h)
  cases hp : m.phase with
  | overRate | shed =>
    simp only [hp] at ht
    cases ht
    exact hs.owes hi (hn _ (.inl rfl)) (by rw [hp]; rfl) (by rw [hp]; rfl) (.inr rfl)
  | undone =>
    simp only [hp] at ht
    cases ht
    exact hs.owes hi (hn _ (.inr rfl)) (by rw [hp]; rfl) (by rw [hp]; rfl)
      (.inl (by unfold InboundMessage.holds; rw [hp]; rfl))
  | unacknowledged =>
    simp only [hp] at ht
    have hh : m.holds = true := by unfold InboundMessage.holds; rw [hp]; rfl
    split_ifs at ht with hauto
    · cases ht
      exact hs.moveOn hi rfl (hn _ (.inr rfl)) (by rw [hh]; rfl)
        (kept_of_unasked hauto) (fun _ _ _ => .inl (hs.taken_pos hi hh))
    · cases ht
      exact hs.owes hi (hn _ (.inr rfl)) (by rw [hp]; rfl) (by rw [hp]; rfl) (.inl hh)
  | _ =>
    simp only [hp] at ht
    cases ht

theorem goesOn (hi : s.messages[i]? = some m) (hold : m.phase.answered = true)
    {sessions : List InboundSession} (hstay : StayDue s.sessions sessions) (phase : InboundPhase) :
    InboundState.Kept { s with sessions := sessions } { m with phase := phase } := by
  intro hc hm hmi _
  have hk := kept_of_stayDue hstay s.taken s.messages (hs.keptAt hi)
  exact hk hc hm hmi hold

theorem readSlots (ht : s.readSlots i = some t) : InboundSound t := by
  obtain ⟨m, hi, hp, ht⟩ := inPhase_cases ht
  have hn := hs.soundAt hi
  have hh : m.holds = false := by unfold InboundMessage.holds; rw [hp]; rfl
  have hk := hs.goesOn hi (by rw [hp]; rfl) (stayDue_refl _)
  split_ifs at ht with hzero
  · cases ht
    refine hs.moveOn hi rfl (hn.setPhase nofun nofun) (by rw [hh]; rfl) (hk _) fun k _ hw => .inr ?_
    rcases hw with ⟨-, hm⟩ | hf | he
    · exact .inl ⟨.inr rfl, hm⟩
    · rw [hp] at hf
      cases hf
    · rw [hp] at he
      cases he
  · cases ht
    exact hs.moveOn hi rfl (hn.setPhase nofun nofun)
      (by rw [hh]; rfl) (hk _) (fun _ _ _ => .inl (Nat.pos_of_ne_zero hzero))

theorem schedule (ht : s.schedule i ok = some t) : InboundSound t := by
  obtain ⟨m, hi, hp, ht⟩ := inPhase_cases ht
  have hn := hs.soundAt hi
  split_ifs at ht with ho
  · cases ht
    exact hs.passes hi rfl (by rw [hp]; rfl) (by rw [hp]; rfl) (hn.setPhase nofun nofun)
  · cases ht
    exact hs.passes hi rfl (by rw [hp]; rfl) (by rw [hp]; rfl) (hn.setPhase nofun nofun)

theorem startsRouting (ht : s.start i = some t) : InboundSound t := by
  obtain ⟨m, hi, hp, ht⟩ := inPhase_cases ht
  cases ht
  exact hs.passes hi rfl (by rw [hp]; rfl) (by rw [hp]; rfl) ((hs.soundAt hi).setPhase nofun nofun)

theorem cancel (ht : s.cancel i = some t) : InboundSound t := by
  obtain ⟨m, hi, hp, ht⟩ := inPhase_cases ht
  cases ht
  exact hs.passes hi rfl (by rw [hp]; rfl) (by rw [hp]; rfl) ((hs.soundAt hi).setPhase nofun nofun)

theorem routeReturns (ht : s.routeReturns i = some t) : InboundSound t := by
  obtain ⟨m, hi, hp, ht⟩ := inPhase_cases ht
  cases ht
  have hn := hs.soundAt hi
  have hh : m.holds = true := by unfold InboundMessage.holds; rw [hp]; rfl
  refine hs.moveOn hi rfl ?_ (by rw [hh]; rfl) (kept_of_unanswered rfl)
    (fun _ _ _ => .inl (hs.taken_pos hi hh))
  exact
    { acked := fun _ => .inl rfl
      ran := hn.ran
      asked := fun _ => rfl
      returned := fun _ => rfl
      oversized := nofun }

theorem routeFails (ht : s.routeFails i = some t) : InboundSound t := by
  obtain ⟨m, hi, hp, ht⟩ := inPhase_cases ht
  cases ht
  exact hs.passes hi rfl (by rw [hp]; rfl) (by rw [hp]; rfl) ((hs.soundAt hi).setPhase nofun nofun)

theorem acknowledge (ht : s.acknowledge i ok = some t) : InboundSound t := by
  obtain ⟨m, hi, hp, ht⟩ := inPhase_cases ht
  have hn := hs.soundAt hi
  have hh : m.holds = true := by unfold InboundMessage.holds; rw [hp]; rfl
  split at ht <;> rename_i hauto
  · cases ht
    exact hs.moveOn hi rfl (hn.setPhase nofun nofun)
      (by rw [hh]; rfl) (kept_of_unasked hauto)
      (fun _ _ _ => .inl (hs.taken_pos hi hh))
  · split_ifs at ht with ho
    · cases ht
      refine hs.moveOn hi rfl ?_ (by rw [hh]; rfl) (kept_of_unanswered rfl)
        (fun _ _ _ => .inl (hs.taken_pos hi hh))
      exact
        { acked := hn.acked
          ran := nofun
          asked := fun _ => hn.returned hp
          returned := nofun
          oversized := nofun }
    · cases ht
      exact hs.passes hi rfl (by rw [hp]; rfl) (by rw [hp]; rfl)
        (hn.setPhase nofun nofun)

theorem ackRuns (ht : s.ackRuns i accepted = some t) : InboundSound t := by
  unfold InboundState.ackRuns at ht
  split at ht
  · cases ht
  rename_i m hi
  split at ht <;> rename_i ha
  · cases ht
    have hn := hs.soundAt hi
    have hr := hn.asked ha
    refine hs.moveOn hi rfl ?_ rfl ?_ (fun _ _ h => .inr h)
    · exact
        { acked := fun _ => .inl hr
          ran := fun h => by
            obtain rfl := InboundAck.ran.inj h
            exact Bool.or_true _
          asked := nofun
          returned := fun _ => hr
          oversized := hn.oversized }
    · intro hc hm hmi han ses hse
      rcases hs.keptAt hi hc hm hmi han ses hse with
        hac | ⟨-, he⟩ | hrs
      · exact .inl (Bool.or_eq_true_iff.mpr (.inl hac))
      · rw [ha] at he
        cases he
      · exact .inr (.inr hrs)
  · cases ht

theorem ackReturns (ht : s.ackReturns i = some t) : InboundSound t := by
  obtain ⟨m, hi, hp, ht⟩ := inPhase_cases ht
  have hn := hs.soundAt hi
  have hh : m.holds = true := by unfold InboundMessage.holds; rw [hp]; rfl
  cases ha : m.ack with
  | none | inThread =>
    simp only [ha] at ht
    cases ht
  | ran accepted =>
    cases accepted with
    | true =>
      simp only [ha] at ht
      cases ht
      exact hs.moveOn hi rfl (hn.setPhase nofun nofun)
        (by rw [hh]; rfl) (fun _ _ _ _ _ _ => .inl (hn.ran ha))
        (fun _ _ _ => .inl (hs.taken_pos hi hh))
    | false =>
      simp only [ha] at ht
      cases ht
      exact hs.passes hi rfl (by rw [hp]; rfl) (by rw [hp]; rfl) (hn.setPhase nofun nofun)

theorem ackCancelled {dropped : Bool} (ht : s.ackCancelled i dropped = some t) :
    InboundSound t := by
  obtain ⟨m, hi, hp, ht⟩ := inPhase_cases ht
  have hn := hs.soundAt hi
  have hh : m.holds = true := by unfold InboundMessage.holds; rw [hp]; rfl
  split_ifs at ht with hd
  · cases ht
    refine hs.moveOn hi rfl ?_ (by rw [hh]; rfl) (kept_of_unanswered rfl)
      (fun _ _ _ => .inl (hs.taken_pos hi hh))
    exact
      { acked := hn.acked
        ran := nofun
        asked := nofun
        returned := nofun
        oversized := nofun }
  · cases ht
    exact hs.passes hi rfl (by rw [hp]; rfl) (by rw [hp]; rfl)
      (hn.setPhase nofun nofun)

theorem giveBack (ht : s.giveBack i = some t) : InboundSound t := by
  obtain ⟨m, hi, hph, ht⟩ := inPhase_cases ht
  have hn := hs.soundAt hi
  have hh : m.holds = true := by unfold InboundMessage.holds; rw [hph]; rfl
  have hp := hs.taken_pos hi hh
  have hb := hs.bound
  have hk := hs.goesOn hi (by rw [hph]; rfl) (stayDue_refl _)
  split_ifs at ht with hm
  · cases ht
    refine hs.move hi rfl rfl (stayDue_refl _) (hn.setPhase nofun nofun) ?_ (by omega) (hk _)
      (fun _ _ _ _ _ => .inl hm)
    rw [if_pos hh]
    change s.taken - 1 + 1 = s.taken + 0
    omega
  · cases ht
    refine hs.move hi rfl rfl (stayDue_refl _) (hn.setPhase nofun nofun) ?_ (by omega) (hk _)
      (fun _ _ _ _ _ => .inr (.inl (.inr (.inl rfl))))
    rw [if_pos hh]
    change s.taken - 1 + 1 = s.taken + 0
    omega

theorem readSession (ht : s.readSession i = some t) : InboundSound t := by
  obtain ⟨m, hi, hp, ht⟩ := inPhase_cases ht
  have hn := hs.soundAt hi
  have hh : m.holds = false := by unfold InboundMessage.holds; rw [hp]; rfl
  have hkp := hs.goesOn hi (by rw [hp]; rfl) (stayDue_refl _)
  cases hc : s.current with
  | none =>
    simp only [hc] at ht
    cases ht
    refine hs.moveOn hi rfl (hn.setPhase nofun nofun) (by rw [hh]; rfl) (hkp _) fun k hk _ => ?_
    rw [hc] at hk
    cases hk
  | some j =>
    simp only [hc] at ht
    cases ht
    refine hs.moveOn hi rfl (hn.setPhase nofun nofun)
      (by rw [hh]; rfl) (hkp _) fun k hk _ => .inr (.inr (.inr ?_))
    obtain rfl := Option.mem_unique hc hk
    rfl

theorem settles (hi : s.messages[i]? = some m) {j : ℕ} (ha : m.phase.answered = true)
    (hh : m.holds = false) (ho : ∀ k, m.Watches k → k = j) :
    InboundSound ((s.onSession j InboundSession.redeliverOwed).setPhase i m .done) := by
  refine hs.move hi rfl (length_modify _ _ _) (stayDue_modify fun _ => staysDue_redeliverOwed)
    ((hs.soundAt hi).setPhase nofun nofun)
    (by rw [hh]; rfl) hs.bound
    (hs.goesOn hi ha (stayDue_modify fun _ => staysDue_redeliverOwed) _) ?_
  intro k ses' _ hs' howed
  obtain ⟨ses, he, rfl⟩ := session_of_modify hs'
  split_ifs at howed with hm
  · rw [redeliverOwed_owed] at howed
    cases howed
  · exact .inr (.inr ⟨rfl, fun h => hm (ho k h).symm, ses, he, howed⟩)

theorem redeliverOwed (ht : s.redeliverOwed i = some t) : InboundSound t := by
  unfold InboundState.redeliverOwed at ht
  split at ht
  · cases ht
  rename_i m hi
  cases hp : m.phase with
  | reconnecting =>
    simp only [hp] at ht
    cases ht
    refine hs.settles hi (by rw [hp]; rfl)
      (by unfold InboundMessage.holds; rw [hp]; rfl) fun k hw => ?_
    rcases hw with ⟨-, hm⟩ | hf | he
    · exact hm.symm
    · rw [hp] at hf
      cases hf
    · rw [hp] at he
      cases he
  | settling j =>
    simp only [hp] at ht
    cases ht
    refine hs.settles hi (by rw [hp]; rfl)
      (by unfold InboundMessage.holds; rw [hp]; rfl) fun k hw => ?_
    rcases hw with ⟨hl | hl, -⟩ | hf | he
    · rw [hp] at hl
      cases hl
    · rw [hp] at hl
      cases hl
    · rw [hp] at hf
      cases hf
    · rw [hp] at he
      exact (InboundPhase.settling.inj he).symm
  | _ =>
    simp only [hp] at ht
    cases ht

end InboundSound

end OriRuntime
