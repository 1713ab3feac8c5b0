import OriRuntime.AlertDelivery

/-!
# An alert a provider holds is not sent again

Two senders work on one table. The first send of a row and the retry loop meet only where the loop
reads a row whose first send has not ended; where it never does, every queued row has one sender,
and every accepted row is changed by what its provider reports alone.
-/

namespace OriRuntime

open List Option

/-! ### Where an alert stands -/

namespace DeliveryLoop

/-- The rows of the retry batch that the loop has still to work through. -/
def claims : DeliveryLoop → List ReadRow
  | .fetched rows | .retrying rows => rows
  | .sending row rows | .answered row _ rows | .exhausted row rows => row :: rows
  | _ => []

/-- The accepted rows the loop has still to hear about. -/
def watched : DeliveryLoop → List ReadRow
  | .polling rows => rows
  | .unsettled row _ rows | .observed row _ rows | .undeliverable row rows => row :: rows
  | _ => []

def phaseOf (alertId : Text) : DeliveryLoop → Option SendPhase
  | .sending row _ => if row.1 = alertId then some .sending else none
  | .answered row receipt _ => if row.1 = alertId then some (.answered receipt) else none
  | _ => none

theorem mem_claims_of_phaseOf {l : DeliveryLoop} {a : Text} (h : l.phaseOf a ≠ none) :
    ∃ p ∈ l.claims, p.1 = a := by
  cases l with
  | sending row rows | answered row receipt rows =>
    by_cases hr : row.1 = a
    · exact ⟨row, mem_cons_self, hr⟩
    · exact absurd (if_neg hr) h
  | _ => exact absurd rfl h

end DeliveryLoop

def AlertOutbox.acceptanceOf (o : AlertOutbox) (alertId : Text) : List (Text × Text) :=
  ((o.get? alertId).map AlertRow.acceptance).getD []

/-- What is outstanding and held of an alert, by where its sender stands and what its row says. -/
def standing (acceptance : List (Text × Text)) : Option SendPhase → ℕ × List (Text × Text)
  | some .sending => (1, [])
  | some (.answered r) => (0, if r.accepted then [(r.channel, r.providerMessageId)] else [])
  | some .queued | none => (0, acceptance)

def tally (alertId : Text) (log : List AlertEvent) : ℕ × List (Text × Text) :=
  (outstanding alertId log, held alertId log)

theorem tally_submitted (a b : Text) (sub : Submission) (log : List AlertEvent) :
    tally b (.submitted a sub :: log) =
      if a = b then ((tally b log).1 + 1, (tally b log).2) else tally b log := by
  by_cases ha : a = b <;> simp [tally, outstanding, held, ha]

theorem tally_receiptEvent (a b : Text) (r : AlertSendReceipt) (log : List AlertEvent) :
    tally b (receiptEvent a r :: log) =
      if a = b then ((tally b log).1 - 1,
        if r.accepted then (r.channel, r.providerMessageId) :: (tally b log).2 else (tally b log).2)
      else tally b log := by
  unfold receiptEvent
  by_cases ha : a = b <;> cases r.accepted <;> simp [tally, outstanding, held, ha]

theorem tally_terminal (a b channel providerMessageId : Text) (log : List AlertEvent) :
    tally b (.terminal a channel providerMessageId :: log) =
      if a = b then ((tally b log).1, (tally b log).2.erase (channel, providerMessageId))
      else tally b log := by
  by_cases ha : a = b <;> simp [tally, outstanding, held, ha]

theorem sentFree_receiptEvent {a : Text} {r : AlertSendReceipt} {log : List AlertEvent}
    (h : SentFree log) : SentFree (receiptEvent a r :: log) := by
  unfold receiptEvent
  cases r.accepted <;> exact h

theorem terminalEvents_cases (o : AlertOutbox) (a channel providerMessageId : Text)
    (terminalFailure : Bool) :
    terminalEvents o a channel providerMessageId terminalFailure = [] ∨
      terminalEvents o a channel providerMessageId terminalFailure =
        [.terminal a channel providerMessageId] := by
  unfold terminalEvents
  cases o.get? a with
  | none => exact .inl rfl
  | some row =>
    dsimp only
    split
    · exact .inr rfl
    · exact .inl rfl

theorem sentFree_terminalEvents {o : AlertOutbox} {a channel providerMessageId : Text}
    {terminalFailure : Bool} {log : List AlertEvent} (h : SentFree log) :
    SentFree (terminalEvents o a channel providerMessageId terminalFailure ++ log) := by
  rcases terminalEvents_cases o a channel providerMessageId terminalFailure with he | he <;>
    rw [he] <;> exact h

namespace AlertWorld

variable {cfg : AlertDeliveryConfig} {s t u : AlertWorld}

/-- Where the one that is sending an alert stands, a first send or the loop. -/
def phaseOf (s : AlertWorld) (alertId : Text) : Option SendPhase :=
  match s.calls.get? alertId with
  | some call => some call.phase
  | none => s.loop.phaseOf alertId

/-- Every queued row has one sender and every accepted row none. -/
structure Sound (s : AlertWorld) : Prop where
  tally : ∀ a, tally a s.log = standing (s.outbox.acceptanceOf a) (s.phaseOf a)
  free : SentFree s.log
  calls : ∀ a, s.calls.get? a ≠ none → ∃ row, s.outbox.get? a = some row ∧ row.status = .pending
  distinct : (s.loop.claims.map Prod.fst).Nodup
  claimed : ∀ p ∈ s.loop.claims, s.calls.get? p.1 = none ∧
    ∃ row, s.outbox.get? p.1 = some row ∧ row.queued = true
  lane : ∀ rows, s.loop = .fetched rows → ∀ p ∈ rows,
    ∃ row, s.outbox.get? p.1 = some row ∧ noticeIsMandatory row.noticeKind = true
  watched : ∀ p ∈ s.loop.watched, ∃ row, s.outbox.get? p.1 = some row ∧ row.status ≠ .pending ∧
    (row.status = .accepted →
      row.acceptedChannel = p.2.acceptedChannel ∧ row.providerMessageId = p.2.providerMessageId)
  undeliverable : ∀ row rows, s.loop = .undeliverable row rows →
    ∀ r, s.outbox.get? row.1 = some r → r.status ≠ .accepted
  delivered : ∀ a row, s.outbox.get? a = some row → row.deliveredAtMs ≠ none →
    row.status = .accepted
  optional : ∀ a row, s.outbox.get? a = some row → row.status = .abandoned →
    row.noticeKind = some noticeOptional

theorem sound_start : Sound start where
  tally _ := rfl
  free := trivial
  calls _ h := absurd rfl h
  distinct := nodup_nil
  claimed _ h := absurd h not_mem_nil
  lane _ h := nomatch h
  watched _ h := absurd h not_mem_nil
  undeliverable _ _ h := nomatch h
  delivered _ _ h := nomatch h
  optional _ _ h := nomatch h

/-- The loop reads no row whose first send is still in flight, a terminal failure is recorded only
while the row is not reported delivered, and a process ends with nothing in flight. -/
def Steady (cfg : AlertDeliveryConfig) (s : AlertWorld) : AlertLabel → Prop
  | .read =>
    match s.loop with
    | .fetching => ∀ p ∈ s.outbox.getRetryableAlerts cfg.batchSize (some true),
        s.calls.get? p.1 = none
    | .fetched _ => ∀ p ∈ s.outbox.getRetryableAlerts cfg.batchSize (some false),
        s.calls.get? p.1 = none
    | _ => True
  | .callback channel providerMessageId _ _ _ terminalFailure => terminalFailure = true →
    ∀ p ∈ s.outbox.acceptedAs channel providerMessageId, p.2.deliveredAtMs = none
  | .proceed _ =>
    match s.loop with
    | .observed row seen _ => seen.terminalFailure = true →
        ∀ r, s.outbox.get? row.1 = some r → r.deliveredAtMs = none
    | _ => True
  | .restart => s.calls = .empty ∧ (s.loop = .waiting ∨ s.loop = .ended)
  | _ => True

/-! ### From one state to a later one -/

/-- A delivered row stays delivered and an abandoned one abandoned. -/
structure RowKept (row row' : AlertRow) : Prop where
  noticeKind : row'.noticeKind = row.noticeKind
  delivered : row.deliveredAtMs ≠ none → row'.deliveredAtMs ≠ none
  abandoned : row.status = .abandoned → row'.status = .abandoned

theorem RowKept.refl (row : AlertRow) : RowKept row row := ⟨rfl, id, id⟩

theorem RowKept.trans {row row' row'' : AlertRow} (h : RowKept row row')
    (h' : RowKept row' row'') : RowKept row row'' :=
  ⟨h'.noticeKind.trans h.noticeKind, h'.delivered ∘ h.delivered, h'.abandoned ∘ h.abandoned⟩

/-- No row is lost, the log only grows, and no abandoned row is submitted. -/
structure Kept (s t : AlertWorld) : Prop where
  rows : ∀ a row, s.outbox.get? a = some row →
    ∃ row', t.outbox.get? a = some row' ∧ RowKept row row'
  log : ∃ new, t.log = new ++ s.log ∧ ∀ a row, s.outbox.get? a = some row →
    row.status = .abandoned → ∀ sub, AlertEvent.submitted a sub ∉ new

theorem Kept.of_eq (hr : t.outbox = s.outbox) (hl : t.log = s.log) : Kept s t where
  rows _ row h := ⟨row, hr ▸ h, .refl row⟩
  log := ⟨[], hl, fun _ _ _ _ _ => not_mem_nil⟩

theorem Kept.refl (s : AlertWorld) : Kept s s := .of_eq rfl rfl

theorem Kept.trans (h : Kept s t) (h' : Kept t u) : Kept s u where
  rows a row ha := by
    obtain ⟨row', ha', hk⟩ := h.rows a row ha
    obtain ⟨row'', ha'', hk'⟩ := h'.rows a row' ha'
    exact ⟨row'', ha'', hk.trans hk'⟩
  log := by
    obtain ⟨new, hn, hf⟩ := h.log
    obtain ⟨new', hn', hf'⟩ := h'.log
    refine ⟨new' ++ new, by rw [hn', hn, append_assoc], fun a row ha hb sub hm => ?_⟩
    obtain ⟨row', ha', hk⟩ := h.rows a row ha
    rcases mem_append.mp hm with hm | hm
    · exact hf' a row' ha' (hk.abandoned hb) sub hm
    · exact hf a row ha hb sub hm

/-- A step that concerns one alert: the others' rows, senders and events are as they were. -/
structure Concerns (a : Text) (s t : AlertWorld) : Prop where
  row : ∀ b, b ≠ a → t.outbox.get? b = s.outbox.get? b
  call : ∀ b, b ≠ a → t.calls.get? b = s.calls.get? b
  phase : ∀ b, b ≠ a → t.loop.phaseOf b = s.loop.phaseOf b
  tally : ∀ b, b ≠ a → OriRuntime.tally b t.log = OriRuntime.tally b s.log
  claims : ∀ p ∈ t.loop.claims, p.1 ≠ a → p ∈ s.loop.claims
  watched : ∀ p ∈ t.loop.watched, p.1 ≠ a → p ∈ s.loop.watched

/-- What a step that concerns one alert has to show for it. -/
structure SoundAt (a : Text) (t : AlertWorld) : Prop where
  tally : OriRuntime.tally a t.log = standing (t.outbox.acceptanceOf a) (t.phaseOf a)
  call : t.calls.get? a ≠ none → ∃ row, t.outbox.get? a = some row ∧ row.status = .pending
  claimed : ∀ p ∈ t.loop.claims, p.1 = a → t.calls.get? a = none ∧
    ∃ row, t.outbox.get? a = some row ∧ row.queued = true
  lane : ∀ rows, t.loop = .fetched rows → ∀ p ∈ rows, p.1 = a →
    ∃ row, t.outbox.get? a = some row ∧ noticeIsMandatory row.noticeKind = true
  watched : ∀ p ∈ t.loop.watched, p.1 = a → ∃ row, t.outbox.get? a = some row ∧
    row.status ≠ .pending ∧ (row.status = .accepted →
      row.acceptedChannel = p.2.acceptedChannel ∧ row.providerMessageId = p.2.providerMessageId)
  undeliverable : ∀ row rows, t.loop = .undeliverable row rows → row.1 = a →
    ∀ r, t.outbox.get? a = some r → r.status ≠ .accepted
  delivered : ∀ row, t.outbox.get? a = some row → row.deliveredAtMs ≠ none → row.status = .accepted
  optional : ∀ row, t.outbox.get? a = some row → row.status = .abandoned →
    row.noticeKind = some noticeOptional

theorem phaseOf_congr {b : Text} (hc : t.calls.get? b = s.calls.get? b)
    (hp : t.loop.phaseOf b = s.loop.phaseOf b) : t.phaseOf b = s.phaseOf b := by
  unfold phaseOf
  rw [hc, hp]

theorem acceptanceOf_congr {o o' : AlertOutbox} {b : Text} (h : o'.get? b = o.get? b) :
    o'.acceptanceOf b = o.acceptanceOf b := by
  unfold AlertOutbox.acceptanceOf
  rw [h]

theorem Sound.of_concerns {a : Text} (h : Sound s) (hc : Concerns a s t) (ha : SoundAt a t)
    (free : SentFree t.log) (distinct : (t.loop.claims.map Prod.fst).Nodup)
    (lane : ∀ rows, t.loop = .fetched rows → s.loop = .fetched rows)
    (undeliverable : ∀ row rows, t.loop = .undeliverable row rows → row.1 ≠ a →
      s.loop = .undeliverable row rows) : Sound t where
  tally b := by
    by_cases hb : b = a
    · exact hb ▸ ha.tally
    · rw [hc.tally b hb, h.tally b, acceptanceOf_congr (hc.row b hb),
        phaseOf_congr (hc.call b hb) (hc.phase b hb)]
  free := free
  calls b hcl := by
    by_cases hb : b = a
    · exact hb ▸ ha.call (hb ▸ hcl)
    rw [hc.row b hb]
    rw [hc.call b hb] at hcl
    exact h.calls b hcl
  distinct := distinct
  claimed p hp := by
    by_cases hb : p.1 = a
    · rw [hb]
      exact ha.claimed p hp hb
    · rw [hc.row _ hb, hc.call _ hb]
      exact h.claimed p (hc.claims p hp hb)
  lane rows hl p hp := by
    by_cases hb : p.1 = a
    · rw [hb]
      exact ha.lane rows hl p hp hb
    · rw [hc.row _ hb]
      exact h.lane rows (lane rows hl) p hp
  watched p hp := by
    by_cases hb : p.1 = a
    · rw [hb]
      exact ha.watched p hp hb
    · rw [hc.row _ hb]
      exact h.watched p (hc.watched p hp hb)
  undeliverable row rows hl r hr := by
    by_cases hb : row.1 = a
    · exact ha.undeliverable row rows hl hb r (hb ▸ hr)
    · exact h.undeliverable row rows (undeliverable row rows hl hb) r ((hc.row _ hb).symm.trans hr)
  delivered b row ho := by
    by_cases hb : b = a
    · exact ha.delivered row (hb ▸ ho)
    · exact h.delivered b row ((hc.row b hb).symm.trans ho)
  optional b row ho := by
    by_cases hb : b = a
    · exact ha.optional row (hb ▸ ho)
    · exact h.optional b row ((hc.row b hb).symm.trans ho)

theorem Kept.of_concerns {a : Text} {new : List AlertEvent} (hc : Concerns a s t)
    (ha : ∀ row, s.outbox.get? a = some row →
      ∃ row', t.outbox.get? a = some row' ∧ RowKept row row')
    (hl : t.log = new ++ s.log) (hn : ∀ b row, s.outbox.get? b = some row →
      row.status = .abandoned → ∀ sub, AlertEvent.submitted b sub ∉ new) : Kept s t where
  rows b row hr := by
    by_cases hb : b = a
    · subst hb
      exact ha row hr
    · exact ⟨row, (hc.row b hb).trans hr, .refl row⟩
  log := ⟨new, hl, hn⟩

namespace Sound

variable {a : Text} {call : SendCall}

theorem call_row (h : Sound s) (hc : s.calls.get? a = some call) :
    ∃ row, s.outbox.get? a = some row ∧ row.status = .pending :=
  h.calls a (by rw [hc]; exact some_ne_none _)

variable {p : ReadRow} {row : AlertRow} {l : DeliveryLoop}

theorem not_claimed (h : Sound s) (hc : s.calls.get? a = some call) (hp : p ∈ s.loop.claims) :
    p.1 ≠ a := by
  rintro rfl
  rw [(h.claimed p hp).1] at hc
  cases hc

theorem not_watched (h : Sound s) (hc : s.calls.get? a = some call) (hp : p ∈ s.loop.watched) :
    p.1 ≠ a := by
  rintro rfl
  obtain ⟨row, hr, he⟩ := h.call_row hc
  obtain ⟨row', hr', hs, -⟩ := h.watched p hp
  obtain rfl := mem_unique hr hr'
  exact hs he

theorem not_undeliverable (h : Sound s) (hc : s.calls.get? a = some call) {row : ReadRow}
    {rows : List ReadRow} (hl : s.loop = .undeliverable row rows) : row.1 ≠ a :=
  h.not_watched hc (by rw [hl]; exact mem_cons_self)

theorem loop_phase (h : Sound s) (hc : s.calls.get? a = some call) : s.loop.phaseOf a = none := by
  by_contra hh
  obtain ⟨p, hp, ha⟩ := DeliveryLoop.mem_claims_of_phaseOf hh
  exact h.not_claimed hc hp ha

theorem tally_call (h : Sound s) (hc : s.calls.get? a = some call) :
    OriRuntime.tally a s.log = standing [] (some call.phase) := by
  obtain ⟨row, hr, hp⟩ := h.call_row hc
  have hh : s.phaseOf a = some call.phase := by
    unfold phaseOf
    rw [hc]
  have ha : s.outbox.acceptanceOf a = [] := by
    unfold AlertOutbox.acceptanceOf
    rw [hr]
    exact AlertRow.acceptance_of_queued (decide_eq_true (.inl hp))
  rw [h.tally a, hh, ha]

/-! ### A first send -/

theorem enqueue (h : Sound s) (a : Text) (r : AlertRequest) (nowMs : ℤ) :
    Sound (s.enqueue a r nowMs) ∧ Kept s (s.enqueue a r nowMs) := by
  unfold AlertWorld.enqueue
  cases he : s.outbox.enqueueAlert a r nowMs with
  | none => exact ⟨h, .refl s⟩
  | some o =>
    obtain ⟨hn, row, hpe, hu, hg⟩ := AlertOutbox.enqueueAlert_eq_some he
    have hself : o.get? a = some row := by rw [hg, if_pos rfl]
    have ha : ∀ b row', s.outbox.get? b = some row' → b ≠ a := by
      rintro b row' hr rfl
      rw [hn] at hr
      cases hr
    have hc : ∀ p ∈ s.loop.claims, p.1 ≠ a := by
      intro p hp
      obtain ⟨-, row', hr', -⟩ := h.claimed p hp
      exact ha _ _ hr'
    have hw : ∀ p ∈ s.loop.watched, p.1 ≠ a := by
      intro p hp
      obtain ⟨row', hr', -⟩ := h.watched p hp
      exact ha _ _ hr'
    have hcl : s.calls.get? a = none := by
      by_contra hcl
      obtain ⟨row', hr', -⟩ := h.calls a hcl
      exact ha _ _ hr' rfl
    have hh : s.loop.phaseOf a = none := by
      by_contra hh
      obtain ⟨p, hp, hpa⟩ := DeliveryLoop.mem_claims_of_phaseOf hh
      exact hc p hp hpa
    have ho : Concerns a s { s with
        outbox := o
        calls := s.calls.set a ⟨r.submission, r.noticeKind, .queued⟩ } :=
      { row := fun b hb => by rw [hg, if_neg hb]
        call := fun b hb => Dict.get?_set_of_ne _ _ hb
        phase := fun _ _ => rfl
        tally := fun _ _ => rfl
        claims := fun _ hp _ => hp
        watched := fun _ hp _ => hp }
    refine ⟨h.of_concerns ho ?_ h.free h.distinct (fun _ hl => hl) (fun _ _ hl _ => hl),
      .of_concerns ho (fun row' hr' => absurd rfl (ha _ _ hr'))
        (nil_append _).symm (fun _ _ _ _ _ => not_mem_nil)⟩
    refine
      { tally := ?_
        call := fun _ => ⟨row, hself, hpe⟩
        claimed := fun p hp hpa => absurd hpa (hc p hp)
        lane := fun rows hlp p hp hpa => absurd hpa (hc p (by rw [hlp]; exact hp))
        watched := fun p hp hpa => absurd hpa (hw p hp)
        undeliverable := fun row' rows hlp hra =>
          absurd hra (hw row' (by rw [hlp]; exact mem_cons_self))
        delivered := ?_
        optional := ?_ }
    · have ht : OriRuntime.tally a s.log = (0, []) := by
        rw [h.tally a]
        unfold AlertOutbox.acceptanceOf AlertWorld.phaseOf
        rw [hn, hcl, hh]
        rfl
      rw [ht]
      unfold AlertOutbox.acceptanceOf AlertWorld.phaseOf
      rw [hself, Dict.get?_set_self]
      exact congrArg (Prod.mk 0)
        (AlertRow.acceptance_of_queued (decide_eq_true (.inl hpe))).symm
    · intro row' hr' hd
      obtain rfl := mem_unique hself hr'
      exact absurd hu hd
    · intro row' hr' hab
      obtain rfl := mem_unique hself hr'
      rw [hpe] at hab
      cases hab

theorem setPhase (h : Sound s) (hc : s.calls.get? a = some call) {phase : SendPhase}
    {log : List AlertEvent}
    (ho : ∀ b, b ≠ a → OriRuntime.tally b log = OriRuntime.tally b s.log)
    (hself : OriRuntime.tally a log = standing [] (some phase)) (hf : SentFree log) :
    Sound { s.setPhase a call phase with log := log } := by
  obtain ⟨row, hr, he⟩ := h.call_row hc
  refine h.of_concerns (a := a)
    { row := fun _ _ => rfl
      call := fun b hb => Dict.get?_set_of_ne _ _ hb
      phase := fun _ _ => rfl
      tally := ho
      claims := fun _ hp _ => hp
      watched := fun _ hp _ => hp }
    { tally := ?_
      call := fun _ => ⟨row, hr, he⟩
      claimed := fun p hp ha => absurd ha (h.not_claimed hc hp)
      lane := fun rows hlp p hp ha => absurd ha (h.not_claimed hc
        (show p ∈ s.loop.claims by rw [show s.loop = .fetched rows from hlp]; exact hp))
      watched := fun p hp ha => absurd ha (h.not_watched hc hp)
      undeliverable := fun row' rows hlp hra => absurd hra (h.not_undeliverable hc hlp)
      delivered := h.delivered a
      optional := h.optional a } hf h.distinct (fun _ hl => hl) (fun _ _ hl _ => hl)
  unfold AlertOutbox.acceptanceOf AlertWorld.phaseOf AlertWorld.setPhase
  rw [hr, Dict.get?_set_self, hself]
  dsimp only [map_some, getD_some]
  rw [AlertRow.acceptance_of_queued (decide_eq_true (.inl he))]

theorem withhold (h : Sound s) (hc : s.calls.get? a = some call)
    (ht : s.withhold a call = some t) : Sound t ∧ Kept s t := by
  unfold AlertWorld.withhold at ht
  split at ht <;> rename_i hg
  · cases ht
    have ha := h.tally_call hc
    rw [hg.1] at ha
    exact ⟨h.setPhase hc (fun _ _ => rfl) ha h.free, .of_eq rfl rfl⟩
  · cases ht

theorem submit (h : Sound s) (hc : s.calls.get? a = some call)
    (ht : s.submit a call = some t) : Sound t ∧ Kept s t := by
  unfold AlertWorld.submit at ht
  split at ht <;> rename_i hg
  · cases ht
    have hta := h.tally_call hc
    rw [hg] at hta
    obtain ⟨ho, hh⟩ := Prod.mk.inj hta
    refine ⟨h.setPhase hc (fun b hb => ?_) ?_ ⟨ho, hh, h.free⟩, ?_⟩
    · rw [tally_submitted, if_neg (Ne.symm hb)]
    · rw [tally_submitted, if_pos rfl, hta]
      rfl
    · obtain ⟨row, hr, hp⟩ := h.call_row hc
      refine ⟨fun _ row' hr' => ⟨row', hr', .refl row'⟩, [_], rfl, ?_⟩
      intro b row' hr' ha sub hm
      obtain ⟨rfl, -⟩ := AlertEvent.submitted.inj (mem_singleton.mp hm)
      obtain rfl := mem_unique hr hr'
      rw [hp] at ha
      cases ha
  · cases ht

theorem receiptEvent_ne_submitted (a b : Text) (r : AlertSendReceipt) (sub : Submission) :
    AlertEvent.submitted b sub ∉ [receiptEvent a r] := by
  intro hm
  have he := mem_singleton.mp hm
  unfold receiptEvent at he
  cases ha : r.accepted <;> rw [ha] at he <;> cases he

theorem answer (h : Sound s) (hc : s.calls.get? a = some call) {receipt : AlertSendReceipt}
    (ht : s.answer a receipt call = some t) : Sound t ∧ Kept s t := by
  unfold AlertWorld.answer at ht
  split at ht <;> rename_i hg
  · cases ht
    have ha := h.tally_call hc
    rw [hg] at ha
    refine ⟨h.setPhase hc (fun b hb => ?_) ?_ (sentFree_receiptEvent h.free), ?_⟩
    · rw [tally_receiptEvent, if_neg (Ne.symm hb)]
    · rw [tally_receiptEvent, if_pos rfl, ha]
      rfl
    · exact ⟨fun _ row' hr' => ⟨row', hr', .refl row'⟩, [_], rfl,
        fun b _ _ _ sub => receiptEvent_ne_submitted a b receipt sub⟩
  · cases ht

/-- A write that changes one row. -/
structure Wrote (o o' : AlertOutbox) (a : Text) (row' : AlertRow) : Prop where
  self : o'.get? a = some row'
  others : ∀ b, b ≠ a → o'.get? b = o.get? b

theorem wrote_amend {o : AlertOutbox} (h : o.get? a = some row) (f : AlertRow → AlertRow) :
    Wrote o (o.amend a f) a (f row) where
  self := by rw [AlertOutbox.get?_amend_self, h]; rfl
  others _ hb := AlertOutbox.get?_amend_of_ne f hb

theorem undelivered_of_queued (h : Sound s) (hr : s.outbox.get? a = some row)
    (hq : row.queued = true) : row.deliveredAtMs = none ∧ row.status ≠ .abandoned := by
  have hs := of_decide_eq_true hq
  constructor
  · by_contra hd
    rw [h.delivered a row hr hd] at hs
    rcases hs with hs | hs <;> cases hs
  · intro ha
    rw [ha] at hs
    rcases hs with hs | hs <;> cases hs

theorem rowKept_of_queued (h : Sound s) {row' : AlertRow} (hr : s.outbox.get? a = some row)
    (hq : row.queued = true) (hk : row'.noticeKind = row.noticeKind) : RowKept row row' :=
  ⟨hk, fun hd => absurd (h.undelivered_of_queued hr hq).1 hd,
    fun ha => absurd ha (h.undelivered_of_queued hr hq).2⟩

theorem settle (h : Sound s) (hcl : s.calls.get? a = some call) {nowMs : ℤ}
    (ht : s.settle a nowMs call = some t) : Sound t ∧ Kept s t := by
  unfold AlertWorld.settle at ht
  cases hg : call.phase with
  | queued | sending => rw [hg] at ht; cases ht
  | answered receipt =>
    rw [hg] at ht
    cases ht
    obtain ⟨row, ho, he⟩ := h.call_row hcl
    have hq : row.queued = true := decide_eq_true (.inl he)
    have hta := h.tally_call hcl
    rw [hg] at hta
    obtain ⟨row', hw, hk, hac, hd, hs⟩ : ∃ row', Wrote s.outbox
        (if receipt.accepted then s.outbox.keepAcceptance a receipt nowMs else s.outbox) a row' ∧
        RowKept row row' ∧ row'.acceptance =
          (if receipt.accepted then [(receipt.channel, receipt.providerMessageId)] else []) ∧
        (row'.deliveredAtMs ≠ none → row'.status = .accepted) ∧ row'.status ≠ .abandoned := by
      cases receipt.accepted with
      | false => exact ⟨row, ⟨ho, fun _ _ => rfl⟩, .refl row,
          AlertRow.acceptance_of_queued hq, h.delivered a row ho,
          (h.undelivered_of_queued ho hq).2⟩
      | true => exact ⟨_, wrote_amend ho _, h.rowKept_of_queued ho hq rfl, rfl,
          fun _ => rfl, nofun⟩
    have hc : Concerns a s { s with
        outbox := if receipt.accepted then s.outbox.keepAcceptance a receipt nowMs else s.outbox
        calls := s.calls.pop a } :=
      { row := hw.others
        call := fun b hb => Dict.get?_pop_of_ne _ hb
        phase := fun _ _ => rfl
        tally := fun _ _ => rfl
        claims := fun _ hp _ => hp
        watched := fun _ hp _ => hp }
    refine ⟨h.of_concerns hc ?_ h.free h.distinct (fun _ hl => hl) (fun _ _ hl _ => hl),
      .of_concerns hc (fun r hr => ⟨row', hw.self, ?_⟩)
        (nil_append _).symm (fun _ _ _ _ _ => not_mem_nil)⟩
    · refine
        { tally := ?_
          call := fun hpo => absurd (Dict.get?_pop_self _ _) hpo
          claimed := fun p hp hpa => absurd hpa (h.not_claimed hcl hp)
          lane := fun rows hlp p hp hpa => absurd hpa (h.not_claimed hcl
            (show p ∈ s.loop.claims by rw [show s.loop = .fetched rows from hlp]; exact hp))
          watched := fun p hp hpa => absurd hpa (h.not_watched hcl hp)
          undeliverable := fun row' rows hlp hra => absurd hra (h.not_undeliverable hcl hlp)
          delivered := ?_
          optional := ?_ }
      · unfold AlertWorld.phaseOf AlertOutbox.acceptanceOf
        rw [hta, Dict.get?_pop_self, h.loop_phase hcl, hw.self]
        exact congrArg (Prod.mk 0) hac.symm
      · intro r hr
        obtain rfl := mem_unique hw.self hr
        exact hd
      · intro r hr ha
        obtain rfl := mem_unique hw.self hr
        exact absurd ha hs
    · obtain rfl := mem_unique ho hr
      exact hk

/-! ### The loop -/

theorem turn (h : Sound s) {spare : Bool} (hp : ∀ b, l.phaseOf b = s.loop.phaseOf b)
    (distinct : (l.claims.map Prod.fst).Nodup) (claimed : ∀ p ∈ l.claims, s.calls.get? p.1 = none ∧
      ∃ row, s.outbox.get? p.1 = some row ∧ row.queued = true)
    (lane : ∀ rows, l = .fetched rows → ∀ p ∈ rows,
      ∃ row, s.outbox.get? p.1 = some row ∧ noticeIsMandatory row.noticeKind = true)
    (watched : ∀ p ∈ l.watched, ∃ row, s.outbox.get? p.1 = some row ∧ row.status ≠ .pending ∧
      (row.status = .accepted →
        row.acceptedChannel = p.2.acceptedChannel ∧ row.providerMessageId = p.2.providerMessageId))
    (undeliverable : ∀ row rows, l ≠ .undeliverable row rows) :
    Sound { s with
      loop := l
      mandatoryTakesSpareSlot := spare } where
  tally a := by
    rw [h.tally a]
    unfold AlertWorld.phaseOf
    rw [hp a]
  free := h.free
  calls := h.calls
  distinct := distinct
  claimed := claimed
  lane := lane
  watched := watched
  undeliverable row rows hl := absurd hl (undeliverable row rows)
  delivered := h.delivered
  optional := h.optional

theorem drop (h : Sound s) {spare : Bool} (hh : ∀ b, l.phaseOf b = s.loop.phaseOf b)
    (hc : l.claims.Sublist s.loop.claims) (hw : l.watched.Sublist s.loop.watched)
    (hlane : ∀ rows, l ≠ .fetched rows) (hu : ∀ row rows, l ≠ .undeliverable row rows) :
    Sound { s with
      loop := l
      mandatoryTakesSpareSlot := spare } :=
  h.turn hh (h.distinct.sublist (hc.map _))
    (fun p hp => h.claimed p (hc.subset hp)) (fun rows hl => absurd hl (hlane rows))
    (fun p hp => h.watched p (hw.subset hp)) hu

theorem write (h : Sound s) {row' : AlertRow} (hro : s.outbox.get? a = some row)
    (hcl : s.calls.get? a = none) {o : AlertOutbox} (hw : Wrote s.outbox o a row')
    {log : List AlertEvent} (hh : ∀ b, b ≠ a → l.phaseOf b = s.loop.phaseOf b)
    (ht : ∀ b, b ≠ a → OriRuntime.tally b log = OriRuntime.tally b s.log)
    (hcm : ∀ p ∈ l.claims, p.1 ≠ a → p ∈ s.loop.claims)
    (hwa : ∀ p ∈ l.watched, p.1 ≠ a → p ∈ s.loop.watched)
    (hself : OriRuntime.tally a log = standing row'.acceptance (l.phaseOf a))
    (claimed : ∀ p ∈ l.claims, p.1 = a → row'.queued = true)
    (lane : ∀ rows, l = .fetched rows → s.loop = .fetched rows)
    (watched : ∀ p ∈ l.watched, p.1 = a → row'.status ≠ .pending ∧ (row'.status = .accepted →
      row'.acceptedChannel = p.2.acceptedChannel ∧ row'.providerMessageId = p.2.providerMessageId))
    (undeliverable : ∀ r rows, l = .undeliverable r rows → r.1 = a → row'.status ≠ .accepted)
    (hu : ∀ r rows, l = .undeliverable r rows → r.1 ≠ a →
      s.loop = .undeliverable r rows) (hk : RowKept row row')
    (he : row'.deliveredAtMs ≠ none → row'.status = .accepted)
    (ho : row'.status = .abandoned → row'.noticeKind = some noticeOptional)
    (hf : SentFree log) (hd : (l.claims.map Prod.fst).Nodup) {new : List AlertEvent}
    (hl : log = new ++ s.log) (hn : ∀ b r, s.outbox.get? b = some r → r.status = .abandoned →
      ∀ sub, AlertEvent.submitted b sub ∉ new) :
    Sound { s with outbox := o, loop := l, log := log } ∧
      Kept s { s with outbox := o, loop := l, log := log } := by
  have hc : Concerns a s { s with outbox := o, loop := l, log := log } :=
    { row := hw.others
      call := fun _ _ => rfl
      phase := hh
      tally := ht
      claims := hcm
      watched := hwa }
  refine ⟨h.of_concerns hc ?_ hf hd lane hu,
    .of_concerns hc (fun r hr => ⟨row', hw.self, ?_⟩) hl hn⟩
  · refine
      { tally := ?_
        call := fun hs => absurd hcl hs
        claimed := fun p hp ha => ⟨hcl, row', hw.self, claimed p hp ha⟩
        lane := ?_
        watched := fun p hp ha => ⟨row', hw.self, watched p hp ha⟩
        undeliverable := ?_
        delivered := ?_
        optional := ?_ }
    · unfold AlertWorld.phaseOf AlertOutbox.acceptanceOf
      rw [hself, hw.self, hcl]
      rfl
    · intro rows hlp p hp ha
      obtain ⟨r, hr, hm⟩ := h.lane rows (lane rows hlp) p hp
      rw [ha, hro] at hr
      cases hr
      exact ⟨row', hw.self, hk.noticeKind ▸ hm⟩
    · intro r rows hlp hra x hx
      obtain rfl := mem_unique hw.self hx
      exact undeliverable r rows hlp hra
    · intro r hr
      obtain rfl := mem_unique hw.self hr
      exact he
    · intro r hr
      obtain rfl := mem_unique hw.self hr
      exact ho
  · obtain rfl := mem_unique hro hr
    exact hk

theorem not_claimed_of_status (h : Sound s) (ho : s.outbox.get? a = some row)
    (hs : row.queued = false) (hp : p ∈ s.loop.claims) : p.1 ≠ a := by
  rintro rfl
  obtain ⟨-, r, hr, hq⟩ := h.claimed p hp
  obtain rfl := mem_unique ho hr
  rw [hs] at hq
  cases hq

theorem call_none_of_status (h : Sound s) (ho : s.outbox.get? a = some row)
    (hs : row.status ≠ .pending) : s.calls.get? a = none := by
  by_contra hc
  obtain ⟨r, hr, hp⟩ := h.calls a hc
  obtain rfl := mem_unique ho hr
  exact hs hp

theorem phaseOf_none_of_not_claimed (hc : ∀ p ∈ l.claims, p.1 ≠ a) : l.phaseOf a = none := by
  by_contra hh
  obtain ⟨p, hp, ha⟩ := DeliveryLoop.mem_claims_of_phaseOf hh
  exact hc p hp ha

theorem tally_idle (h : Sound s) (hr : s.outbox.get? a = some row) (hc : s.calls.get? a = none)
    (hp : s.loop.phaseOf a = none) : OriRuntime.tally a s.log = (0, row.acceptance) := by
  rw [h.tally a]
  unfold AlertOutbox.acceptanceOf AlertWorld.phaseOf
  rw [hr, hc, hp]
  rfl

theorem terminalEvents_ne_submitted (o : AlertOutbox) (a channel providerMessageId : Text)
    (terminalFailure : Bool) (b : Text) (sub : Submission) :
    AlertEvent.submitted b sub ∉ terminalEvents o a channel providerMessageId terminalFailure := by
  rcases terminalEvents_cases o a channel providerMessageId terminalFailure with he | he <;>
    rw [he] <;> simp

/-- What a provider reports of a row that is not queued is written to it, a terminal failure only
while the row is undelivered. -/
theorem record (h : Sound s) (ho : s.outbox.get? a = some row)
    {channel providerMessageId providerStatus : Text} {observedAtMs : ℤ} {deliveredAtMs : Option ℤ}
    {terminalFailure : Bool} (hpe : row.status ≠ .pending)
    (hca : ∀ p ∈ s.loop.claims, p.1 ≠ a) (hm : row.status = .accepted →
      row.acceptedChannel = channel ∧ row.providerMessageId = providerMessageId)
    (hu : terminalFailure = true → row.deliveredAtMs = none)
    (hc : l.claims = s.loop.claims) (hh : ∀ b, l.phaseOf b = s.loop.phaseOf b)
    (hw : ∀ p ∈ l.watched, p ∈ s.loop.watched)
    (lane : ∀ rows, l = .fetched rows → s.loop = .fetched rows)
    (undeliverable : ∀ r rows, l = .undeliverable r rows → r.1 = a → terminalFailure = true)
    (hunde : ∀ r rows, l = .undeliverable r rows → r.1 ≠ a → s.loop = .undeliverable r rows) :
    Sound { s with
      outbox := s.outbox.recordAlertDeliveryStatus a providerStatus observedAtMs deliveredAtMs
        terminalFailure
      loop := l
      log := terminalEvents s.outbox a channel providerMessageId terminalFailure ++ s.log } ∧
    Kept s { s with
      outbox := s.outbox.recordAlertDeliveryStatus a providerStatus observedAtMs deliveredAtMs
        terminalFailure
      loop := l
      log := terminalEvents s.outbox a channel providerMessageId terminalFailure ++ s.log } := by
  have hcl := h.call_none_of_status ho hpe
  have hn : s.loop.phaseOf a = none := phaseOf_none_of_not_claimed hca
  have hidle := h.tally_idle ho hcl hn
  have hln : l.phaseOf a = none := (hh a).trans hn
  refine h.write ho hcl (wrote_amend ho _) (fun b _ => hh b) (fun b hb => ?_)
    (fun p hp _ => hc ▸ hp) (fun p hp _ => hw p hp) ?_
    (fun p hp hpa => absurd hpa (hca p (hc ▸ hp))) lane (fun p hp hpa => ?_)
    (fun r rows hl hra => ?_) hunde ?_ (fun hd => ?_) (fun hab => ?_)
    (sentFree_terminalEvents h.free) (hc ▸ h.distinct) rfl
    (fun b _ _ _ sub => terminalEvents_ne_submitted s.outbox a channel providerMessageId
      terminalFailure b sub)
  · rcases terminalEvents_cases s.outbox a channel providerMessageId terminalFailure with he | he
    · rw [he]
      rfl
    · rw [he, singleton_append, tally_terminal, if_neg (Ne.symm hb)]
  · rw [hln]
    unfold terminalEvents
    rw [ho]
    dsimp only
    by_cases ha : row.status = .accepted
    · obtain ⟨rfl, rfl⟩ := hm ha
      have hre : row.acceptance = [(row.acceptedChannel, row.providerMessageId)] := if_pos ha
      cases ht : terminalFailure with
      | true =>
        rw [if_pos ⟨rfl, ha, hu ht⟩, singleton_append,
          tally_terminal, if_pos rfl, hidle, hre, if_pos ha, if_pos rfl]
        simp [standing, AlertRow.acceptance]
      | false =>
        rw [if_neg (fun hand => Bool.false_ne_true hand.1), nil_append, hidle,
          if_pos ha, if_neg Bool.false_ne_true]
        rfl
    · rw [if_neg (fun hand => ha hand.2.1), nil_append, hidle, if_neg ha]
      rfl
  · obtain ⟨r, hr, hs, hsm⟩ := h.watched p (hw p hp)
    rw [hpa, ho] at hr
    cases hr
    by_cases ha : row.status = .accepted
    · cases terminalFailure with
      | true =>
        rw [if_pos ha]
        exact ⟨nofun, nofun⟩
      | false =>
        rw [if_pos ha]
        exact ⟨hs, hsm⟩
    · rw [if_neg ha]
      exact ⟨hs, hsm⟩
  · have ht := undeliverable r rows hl hra
    by_cases ha : row.status = .accepted
    · rw [if_pos ha, if_pos ht]
      exact nofun
    · rw [if_neg ha]
      exact ha
  · by_cases ha : row.status = .accepted
    · cases ht : terminalFailure with
      | true =>
        rw [if_pos ha]
        exact ⟨rfl, id, fun he => by rw [ha] at he; cases he⟩
      | false =>
        rw [if_pos ha]
        refine ⟨rfl, fun hd => ?_, id⟩
        obtain ⟨at_, hat⟩ := ne_none_iff_exists'.mp hd
        rw [hat]
        exact some_ne_none _
    · rw [if_neg ha]
      exact .refl row
  · by_cases ha : row.status = .accepted
    · cases ht : terminalFailure with
      | true =>
        rw [ht, if_pos ha] at hd
        exact absurd (hu ht) hd
      | false =>
        rw [if_pos ha]
        exact ha
    · rw [if_neg ha] at hd ⊢
      exact h.delivered a row ho hd
  · by_cases ha : row.status = .accepted
    · cases ht : terminalFailure with
      | true =>
        rw [ht, if_pos ha] at hab
        cases hab
      | false =>
        rw [ht] at hab
        rw [ha] at hab
        cases hab
    · rw [if_neg ha] at hab ⊢
      exact h.optional a row ho hab

theorem callback (h : Sound s) {channel providerMessageId providerStatus : Text} {observedAtMs : ℤ}
    {deliveredAtMs : Option ℤ} {terminalFailure : Bool} (hu : terminalFailure = true →
      ∀ p ∈ s.outbox.acceptedAs channel providerMessageId, p.2.deliveredAtMs = none)
    (ht : s.callback channel providerMessageId providerStatus observedAtMs deliveredAtMs
      terminalFailure = t) : Sound t ∧ Kept s t := by
  subst ht
  unfold AlertWorld.callback AlertOutbox.recordAlertDeliveryStatusByProviderId
  cases hw : s.outbox.acceptedAs channel providerMessageId with
  | nil => exact ⟨h, .refl s⟩
  | cons p rest =>
    cases rest with
    | cons _ _ => exact ⟨h, .refl s⟩
    | nil =>
      have hp : p ∈ s.outbox.acceptedAs channel providerMessageId := by
        rw [hw]
        exact mem_cons_self
      obtain ⟨hr, ha, hc, hi⟩ := AlertOutbox.mem_acceptedAs hp
      have hqu : p.2.queued = false := by
        unfold AlertRow.queued
        rw [ha]
        rfl
      refine h.record hr (fun he => by rw [ha] at he; cases he)
        (fun q hq => h.not_claimed_of_status hr hqu hq) (fun _ => ⟨hc, hi⟩)
        (fun hte => hu hte p hp) rfl (fun _ => rfl) (fun _ hq => hq)
        (fun _ hl => hl) (fun r rows hl hra => ?_) (fun _ _ hl _ => hl)
      exact absurd ha (h.undeliverable r rows hl p.2 (hra ▸ hr))

end Sound

end AlertWorld

end OriRuntime
