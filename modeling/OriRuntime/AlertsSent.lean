import OriRuntime.AlertsOnce

/-!
# Runs of the alert senders

Each turn of the delivery loop keeps what the first sends keep, so every run does in which the two
never work on one row. In such a run a submission finds nothing outstanding and nothing held, a
delivered row stays delivered and an abandoned one is never sent.
-/

namespace OriRuntime

open List Option

open Execution

namespace AlertWorld

variable {cfg : AlertDeliveryConfig} {s t : AlertWorld}

namespace Sound

/-! ### The loop's reads -/

theorem mem_nextRetryBatch {size : ℕ} {spare : Bool} {mandatory optional : List ReadRow}
    {p : ReadRow} (h : p ∈ nextRetryBatch size spare mandatory optional) :
    p ∈ mandatory ∨ p ∈ optional := by
  rcases mem_append.mp h with h | h
  · exact .inl (mem_of_mem_take h)
  · exact .inr (mem_of_mem_take h)

theorem nodup_nextRetryBatch {size : ℕ} {spare : Bool} {mandatory optional : List ReadRow}
    (hm : (mandatory.map Prod.fst).Nodup) (ho : (optional.map Prod.fst).Nodup)
    (hd : ∀ p ∈ mandatory, ∀ q ∈ optional, p.1 ≠ q.1) :
    ((nextRetryBatch size spare mandatory optional).map Prod.fst).Nodup := by
  unfold nextRetryBatch
  rw [map_append, nodup_append]
  refine ⟨hm.sublist ((take_sublist _ _).map _), ho.sublist ((take_sublist _ _).map _), ?_⟩
  intro a ha b hb
  obtain ⟨p, hp, rfl⟩ := mem_map.mp ha
  obtain ⟨q, hq, rfl⟩ := mem_map.mp hb
  exact hd p (mem_of_mem_take hp) q (mem_of_mem_take hq)

theorem read (h : Sound s) (hC : Steady cfg s .read) (ht : s.read cfg = some t) :
    Sound t ∧ Kept s t := by
  unfold AlertWorld.read at ht
  cases hlp : s.loop with
  | waiting =>
    rw [hlp] at ht
    cases ht
    refine ⟨h.turn (fun b => by rw [hlp]; rfl) nodup_nil (fun p hp => nomatch hp)
      (fun _ hl => nomatch hl) (fun p hp => ?_) (fun _ _ hl => nomatch hl), .of_eq rfl rfl⟩
    obtain ⟨hr, ha⟩ := AlertOutbox.mem_getAlertsAwaitingDeliveryReceipt hp
    refine ⟨p.2, hr, fun he => ?_, fun _ => ⟨rfl, rfl⟩⟩
    rw [ha] at he
    cases he
  | fetching =>
    rw [hlp] at ht
    cases ht
    unfold Steady at hC
    rw [hlp] at hC
    refine ⟨h.turn (fun b => by rw [hlp]; rfl) (AlertOutbox.nodup_getRetryableAlerts _ _ _)
      (fun p hp => ?_) (fun rows hl p hp => ?_) (fun p hp => nomatch hp)
      (fun _ _ hl => nomatch hl), .of_eq rfl rfl⟩
    · obtain ⟨hr, hu, -⟩ := AlertOutbox.mem_getRetryableAlerts hp
      exact ⟨hC p hp, p.2, hr, hu⟩
    · obtain rfl := DeliveryLoop.fetched.inj hl
      obtain ⟨hr, -, hm⟩ := AlertOutbox.mem_getRetryableAlerts hp
      exact ⟨p.2, hr, hm⟩
  | fetched mandatory =>
    rw [hlp] at ht
    cases ht
    unfold Steady at hC
    rw [hlp] at hC
    have hc : s.loop.claims = mandatory := by rw [hlp]; rfl
    refine ⟨h.turn (fun b => by rw [hlp]; rfl) ?_ (fun p hp => ?_) (fun _ hl => nomatch hl)
      (fun p hp => nomatch hp) (fun _ _ hl => nomatch hl), .of_eq rfl rfl⟩
    · refine nodup_nextRetryBatch (hc ▸ h.distinct) (AlertOutbox.nodup_getRetryableAlerts _ _ _) ?_
      intro p hp q hq hpq
      obtain ⟨row, hr, hm⟩ := h.lane mandatory hlp p hp
      obtain ⟨hr', -, ho⟩ := AlertOutbox.mem_getRetryableAlerts hq
      rw [hpq, hr'] at hr
      cases hr
      rw [ho] at hm
      cases hm
    · rcases mem_nextRetryBatch hp with hp | hp
      · exact h.claimed p (hc ▸ hp)
      · obtain ⟨hr, hu, -⟩ := AlertOutbox.mem_getRetryableAlerts hp
        exact ⟨hC p hp, p.2, hr, hu⟩
  | _ => rw [hlp] at ht; cases ht

theorem readFailed (h : Sound s) (ht : s.readFailed = some t) : Sound t ∧ Kept s t := by
  unfold AlertWorld.readFailed at ht
  cases hp : s.loop with
  | waiting | fetching | fetched mandatory =>
    rw [hp] at ht
    cases ht
    exact ⟨h.drop (fun b => by rw [hp]; rfl) (nil_sublist _) (nil_sublist _)
      (fun _ hl => nomatch hl) (fun _ _ hl => nomatch hl), .of_eq rfl rfl⟩
  | _ => rw [hp] at ht; cases ht

/-! ### Receipts of accepted rows -/

theorem observe (h : Sound s) {seen : Option AlertDeliveryReceipt} (ht : s.observe seen = some t) :
    Sound t ∧ Kept s t := by
  unfold AlertWorld.observe at ht
  cases hp : s.loop with
  | polling rows =>
    rw [hp] at ht
    cases rows with
    | nil => cases ht
    | cons row rows =>
      dsimp only at ht
      split_ifs at ht with hu
      have hw : (row :: rows).Sublist s.loop.watched := by
        rw [hp]
        exact List.Sublist.refl _
      cases seen with
      | none =>
        cases ht
        exact ⟨h.drop (fun b => by rw [hp]; rfl) (nil_sublist _) hw
          (fun _ hl => nomatch hl) (fun _ _ hl => nomatch hl), .of_eq rfl rfl⟩
      | some receipt =>
        cases ht
        refine ⟨h.drop (fun b => ?_) ?_ ?_ (fun rows' hl => ?_) (fun row' rows' hl => ?_),
          .of_eq rfl rfl⟩ <;> cases hs : receipt.settles
        · rw [hp]; rfl
        · rw [hp]; rfl
        · exact nil_sublist _
        · exact nil_sublist _
        · exact hw
        · exact hw
        all_goals rw [hs] at hl; cases hl
  | _ => rw [hp] at ht; cases ht

theorem observeRaised (h : Sound s) (ht : s.observeRaised = some t) : Sound t ∧ Kept s t := by
  unfold AlertWorld.observeRaised at ht
  cases hp : s.loop with
  | polling rows =>
    rw [hp] at ht
    cases rows with
    | nil => cases ht
    | cons row rows =>
      dsimp only at ht
      split at ht <;> rename_i hu
      · cases ht
      · cases ht
        exact ⟨h.drop (fun b => by rw [hp]; rfl) (nil_sublist _) (nil_sublist _)
          (fun _ hl => nomatch hl) (fun _ _ hl => nomatch hl), .of_eq rfl rfl⟩
  | _ => rw [hp] at ht; cases ht

variable {row : ReadRow} {rows : List ReadRow} {l : DeliveryLoop}

theorem recordObserved (h : Sound s) {seen : AlertDeliveryReceipt}
    (hlp : s.loop = .observed row seen rows) (hu : seen.terminalFailure = true →
      ∀ r, s.outbox.get? row.1 = some r → r.deliveredAtMs = none) :
    Sound (s.recordObserved cfg row seen rows) ∧ Kept s (s.recordObserved cfg row seen rows) := by
  have hw : s.loop.watched = row :: rows := by rw [hlp]; rfl
  have hc : s.loop.claims = [] := by rw [hlp]; rfl
  obtain ⟨r, hr, he, hm⟩ := h.watched row (by rw [hw]; exact mem_cons_self)
  refine h.record hr he (fun p hp => by rw [hc] at hp; cases hp) hm
    (fun ht => hu ht r hr) ?_ (fun b => ?_) (fun p hp => ?_)
    (fun rows' hl => ?_) (fun r' rows' hl _ => ?_) (fun r' rows' hl hn => ?_)
  all_goals by_cases hs : seen.deliveredAtMs = none ∧ seen.terminalFailure = true ∧
    lastAttempt cfg row.2 = true
  · rw [if_pos hs, hc]; rfl
  · rw [if_neg hs, hc]; rfl
  · rw [if_pos hs, hlp]; rfl
  · rw [if_neg hs, hlp]; rfl
  · rw [if_pos hs] at hp
    exact hw ▸ hp
  · rw [if_neg hs] at hp
    exact hw ▸ mem_cons_of_mem _ hp
  · rw [if_pos hs] at hl; cases hl
  · rw [if_neg hs] at hl; cases hl
  · exact hs.2.1
  · rw [if_neg hs] at hl; cases hl
  · rw [if_pos hs] at hl
    obtain ⟨rfl, -⟩ := DeliveryLoop.undeliverable.inj hl
    exact absurd rfl hn
  · rw [if_neg hs] at hl; cases hl

theorem requeue (h : Sound s) {seen : Option AlertDeliveryReceipt}
    (hlp : s.loop = .unsettled row seen rows)
    (hl : l = .polling rows ∨ ∃ receipt, l = .observed row receipt rows) :
    Sound { s with
      outbox := s.outbox.requeueAlertReceiptPoll row.1
      loop := l } ∧
    Kept s { s with
      outbox := s.outbox.requeueAlertReceiptPoll row.1
      loop := l } := by
  have hw : s.loop.watched = row :: rows := by rw [hlp]; rfl
  have hph : ∀ b, s.loop.phaseOf b = none := fun b => by rw [hlp]; rfl
  obtain ⟨r, hr, hpe, hm⟩ := h.watched row (by rw [hw]; exact mem_cons_self)
  have hcl := h.call_none_of_status hr hpe
  have hlc : l.claims = [] := by rcases hl with rfl | ⟨receipt, rfl⟩ <;> rfl
  have hh : ∀ b, l.phaseOf b = none := by
    rcases hl with rfl | ⟨receipt, rfl⟩ <;> exact fun _ => rfl
  have hlw : l.watched.Sublist s.loop.watched := by
    rw [hw]
    rcases hl with rfl | ⟨receipt, rfl⟩
    · exact sublist_cons_self _ _
    · exact List.Sublist.refl _
  obtain ⟨r', hwr, hs, he, hk, hc, hi⟩ : ∃ r', Wrote s.outbox
      (s.outbox.requeueAlertReceiptPoll row.1) row.1 r' ∧ r'.status = r.status ∧
      r'.deliveredAtMs = r.deliveredAtMs ∧ r'.noticeKind = r.noticeKind ∧
      r'.acceptedChannel = r.acceptedChannel ∧ r'.providerMessageId = r.providerMessageId := by
    refine ⟨_, wrote_amend hr _, ?_⟩
    split_ifs with hg
    · exact ⟨rfl, rfl, rfl, rfl, rfl⟩
    · exact ⟨rfl, rfl, rfl, rfl, rfl⟩
  refine h.write hr hcl hwr (fun b _ => (hh b).trans (hph b).symm) (fun _ _ => rfl)
    (fun p hp => by rw [hlc] at hp; cases hp) (fun p hp _ => hlw.subset hp) ?_
    (fun p hp => by rw [hlc] at hp; cases hp) ?_ (fun p hp hpa => ?_) ?_ ?_ ?_ ?_ ?_ h.free
    (by rw [hlc]; exact nodup_nil) (nil_append _).symm
    (fun _ _ _ _ _ => not_mem_nil)
  · rw [hh, h.tally_idle hr hcl (hph _)]
    unfold AlertRow.acceptance
    rw [hs, hc, hi]
    rfl
  · rcases hl with rfl | ⟨receipt, rfl⟩ <;> exact fun _ hl => nomatch hl
  · obtain ⟨x, hx, hxp, hxs⟩ := h.watched p (hlw.subset hp)
    rw [hpa, hr] at hx
    cases hx
    rw [hs, hc, hi]
    exact ⟨hxp, hxs⟩
  · rcases hl with rfl | ⟨receipt, rfl⟩ <;> exact fun _ _ hl => nomatch hl
  · rcases hl with rfl | ⟨receipt, rfl⟩ <;> exact fun _ _ hl => nomatch hl
  · exact ⟨hk, fun hd => he ▸ hd, fun ha => hs ▸ ha⟩
  · rw [he, hs]
    exact h.delivered _ r hr
  · rw [hk, hs]
    exact h.optional _ r hr

theorem abandon (h : Sound s) {r : AlertRow} (hr : s.outbox.get? row.1 = some r)
    (hcl : s.calls.get? row.1 = none) (hh : s.loop.phaseOf row.1 = none)
    (ha : r.status ≠ .accepted) (nowMs : ℤ) (hlp : ∀ b, l.phaseOf b = s.loop.phaseOf b)
    (hc : ∀ p ∈ l.claims, p ∈ s.loop.claims ∧ p.1 ≠ row.1)
    (hw : ∀ p ∈ l.watched, p ∈ s.loop.watched ∧ r.status ≠ .pending)
    (hlane : ∀ rows, l ≠ .fetched rows) (hunde : ∀ r rows, l ≠ .undeliverable r rows)
    (hds : (l.claims.map Prod.fst).Nodup) :
    Sound { s with
      outbox := s.outbox.markAlertAbandoned row.1 nowMs
      loop := l } ∧
    Kept s { s with
      outbox := s.outbox.markAlertAbandoned row.1 nowMs
      loop := l } := by
  have hu : r.deliveredAtMs = none := by
    by_contra hde
    exact ha (h.delivered _ r hr hde)
  obtain ⟨r', hwr, ha', hde, hk, hs⟩ : ∃ r', Wrote s.outbox
      (s.outbox.markAlertAbandoned row.1 nowMs) row.1 r' ∧ r'.status ≠ .accepted ∧
      r'.deliveredAtMs = none ∧ r'.noticeKind = r.noticeKind ∧
      (r'.status = r.status ∨ r'.status = .abandoned ∧ r.noticeKind = some noticeOptional) := by
    refine ⟨_, wrote_amend hr _, ?_⟩
    split_ifs with ho
    · exact ⟨nofun, hu, rfl, .inr ⟨rfl, ho⟩⟩
    · exact ⟨ha, hu, rfl, .inl rfl⟩
  refine h.write hr hcl hwr (fun b _ => hlp b) (fun _ _ => rfl)
    (fun p hp _ => (hc p hp).1) (fun p hp _ => (hw p hp).1) ?_
    (fun p hp hpa => absurd hpa (hc p hp).2) (fun rows hl => absurd hl (hlane rows))
    (fun p hp _ => ⟨fun he => ?_, fun he => absurd he ha'⟩)
    (fun x rows hl => absurd hl (hunde x rows))
    (fun x rows hl => absurd hl (hunde x rows)) ?_ (fun hd => absurd hde hd) ?_
    h.free hds (nil_append _).symm (fun _ _ _ _ _ => not_mem_nil)
  · rw [hlp, hh, h.tally_idle hr hcl hh]
    unfold AlertRow.acceptance
    rw [if_neg ha, if_neg ha']
    rfl
  · rcases hs with hs | ⟨hs, -⟩
    · exact (hw p hp).2 (hs.symm.trans he)
    · rw [hs] at he
      cases he
  · refine ⟨hk, fun hd => absurd hu hd, fun hb => ?_⟩
    rcases hs with hs | ⟨hs, -⟩
    · exact hs.trans hb
    · exact hs
  · intro hb
    rw [hk]
    rcases hs with hs | ⟨-, ho⟩
    · exact h.optional _ r hr (hs.symm.trans hb)
    · exact ho

theorem giveUp (h : Sound s) (hlp : s.loop = .undeliverable row rows) (nowMs : ℤ) :
    Sound { s with
      outbox := s.outbox.markAlertAbandoned row.1 nowMs
      loop := .polling rows } ∧
    Kept s { s with
      outbox := s.outbox.markAlertAbandoned row.1 nowMs
      loop := .polling rows } := by
  have hw : s.loop.watched = row :: rows := by rw [hlp]; rfl
  obtain ⟨r, hr, he, -⟩ := h.watched row (by rw [hw]; exact mem_cons_self)
  exact h.abandon hr (h.call_none_of_status hr he) (by rw [hlp]; rfl)
    (h.undeliverable row rows hlp r hr) nowMs (fun b => by rw [hlp]; rfl)
    (fun p hp => nomatch hp) (fun p hp => ⟨hw ▸ mem_cons_of_mem _ hp, he⟩)
    (fun _ hl => nomatch hl) (fun _ _ hl => nomatch hl) nodup_nil

/-! ### Retries -/

theorem head (h : Sound s) (hc : s.loop.claims = row :: rows) : s.calls.get? row.1 = none ∧
      (∃ r, s.outbox.get? row.1 = some r ∧ r.queued = true) ∧
      (∀ p ∈ rows, p.1 ≠ row.1) ∧ (rows.map Prod.fst).Nodup := by
  obtain ⟨hl, hr⟩ := h.claimed row (by rw [hc]; exact mem_cons_self)
  have hd := h.distinct
  rw [hc, map_cons, nodup_cons] at hd
  exact ⟨hl, hr, fun p hp he => hd.1 (he ▸ mem_map_of_mem hp), hd.2⟩

theorem atHead (h : Sound s) (new : List AlertEvent) (hc : s.loop.claims = row :: rows)
    (ho : ∀ b, b ≠ row.1 → s.loop.phaseOf b = none) {r r' : AlertRow}
    (hr : s.outbox.get? row.1 = some r) {o : AlertOutbox} (hw : Wrote s.outbox o row.1 r')
    (hk : r'.noticeKind = r.noticeKind)
    (hd : r'.deliveredAtMs ≠ none → r'.status = .accepted)
    (ha : r'.status ≠ .abandoned)
    (hl : l.claims = rows ∨ l.claims = row :: rows ∧ r'.queued = true) (hlw : l.watched = [])
    (hlo : ∀ b, b ≠ row.1 → l.phaseOf b = none) (hlane : ∀ rows, l ≠ .fetched rows)
    (hu : ∀ r rows, l ≠ .undeliverable r rows)
    (ht : ∀ b, b ≠ row.1 → OriRuntime.tally b (new ++ s.log) = OriRuntime.tally b s.log)
    (hself : OriRuntime.tally row.1 (new ++ s.log) = standing r'.acceptance (l.phaseOf row.1))
    (hf : SentFree (new ++ s.log))
    (hn : ∀ b x, s.outbox.get? b = some x → x.status = .abandoned →
      ∀ sub, AlertEvent.submitted b sub ∉ new) :
    Sound { s with outbox := o, loop := l, log := new ++ s.log } ∧
      Kept s { s with outbox := o, loop := l, log := new ++ s.log } := by
  obtain ⟨hcl, ⟨x, hx, hqu⟩, hs, hnd⟩ := h.head hc
  obtain rfl := mem_unique hr hx
  refine h.write hr hcl hw (fun b hb => (hlo b hb).trans (ho b hb).symm) ht
    (fun p hp _ => ?_) (fun p hp => by rw [hlw] at hp; cases hp) hself (fun p hp hpa => ?_)
    (fun rows hl => absurd hl (hlane rows)) (fun p hp => by rw [hlw] at hp; cases hp)
    (fun x rows hl => absurd hl (hu x rows))
    (fun x rows hl => absurd hl (hu x rows)) (h.rowKept_of_queued hr hqu hk)
    hd (fun he => absurd he ha) hf ?_ rfl hn
  · rw [hc]
    rcases hl with hl | ⟨hl, -⟩
    · exact mem_cons_of_mem _ (hl ▸ hp)
    · exact hl ▸ hp
  · rcases hl with hl | ⟨-, hq⟩
    · exact absurd hpa (hs p (hl ▸ hp))
    · exact hq
  · rcases hl with hl | ⟨hl, -⟩
    · rw [hl]
      exact hnd
    · rw [hl, ← hc]
      exact h.distinct

theorem submitRetry (h : Sound s) {sub : Submission} (hlp : s.loop = .retrying (row :: rows)) :
    Sound { s with
      loop := .sending row rows
      log := .submitted row.1 sub :: s.log } ∧
    Kept s { s with
      loop := .sending row rows
      log := .submitted row.1 sub :: s.log } := by
  have hc : s.loop.claims = row :: rows := by rw [hlp]; rfl
  have hp : ∀ b, s.loop.phaseOf b = none := fun b => by rw [hlp]; rfl
  obtain ⟨hcl, ⟨r, hr, hq⟩, -, -⟩ := h.head hc
  have hidle := h.tally_idle hr hcl (hp row.1)
  rw [AlertRow.acceptance_of_queued hq] at hidle
  obtain ⟨ho, hh⟩ := Prod.mk.inj hidle
  refine h.atHead [.submitted row.1 sub] (l := .sending row rows) hc (fun b _ => hp b) hr
    ⟨hr, fun _ _ => rfl⟩ rfl
    (h.delivered _ r hr) (h.undelivered_of_queued hr hq).2 (.inr ⟨rfl, hq⟩) rfl
    (fun b hb => if_neg (Ne.symm hb)) (fun _ hl => nomatch hl) (fun _ _ hl => nomatch hl)
    (fun b hb => ?_) ?_ ⟨ho, hh, h.free⟩
    (fun b x hx ha sub' hm => ?_)
  · rw [singleton_append, tally_submitted, if_neg (Ne.symm hb)]
  · rw [singleton_append, tally_submitted, if_pos rfl, hidle]
    rw [show (DeliveryLoop.sending row rows).phaseOf row.1 = some .sending from if_pos rfl]
    rfl
  · obtain ⟨rfl, -⟩ := AlertEvent.submitted.inj (mem_singleton.mp hm)
    obtain rfl := mem_unique hr hx
    exact (h.undelivered_of_queued hr hq).2 ha

theorem tally_loop (h : Sound s) {phase : SendPhase} (hc : s.loop.claims = row :: rows)
    (hp : s.loop.phaseOf row.1 = some phase) :
    OriRuntime.tally row.1 s.log = standing [] (some phase) := by
  obtain ⟨hl, ⟨r, hr, hq⟩, -, -⟩ := h.head hc
  rw [h.tally row.1]
  unfold AlertOutbox.acceptanceOf AlertWorld.phaseOf
  rw [hr, hl, map_some, getD_some, AlertRow.acceptance_of_queued hq]
  rw [hp]

theorem answerRetry (h : Sound s) {receipt : AlertSendReceipt}
    (ht : s.answerRetry receipt = some t) : Sound t ∧ Kept s t := by
  unfold AlertWorld.answerRetry at ht
  cases hp : s.loop with
  | sending row rows =>
    rw [hp] at ht
    cases ht
    have hc : s.loop.claims = row :: rows := by rw [hp]; rfl
    obtain ⟨-, ⟨r, hr, hq⟩, -, -⟩ := h.head hc
    have ha := h.tally_loop hc (by rw [hp]; exact if_pos rfl)
    refine h.atHead [receiptEvent row.1 receipt] (l := .answered row receipt rows) hc
      (fun b hb => by rw [hp]; exact if_neg (Ne.symm hb)) hr ⟨hr, fun _ _ => rfl⟩ rfl
      (h.delivered _ r hr) (h.undelivered_of_queued hr hq).2 (.inr ⟨rfl, hq⟩) rfl
      (fun b hb => if_neg (Ne.symm hb)) (fun _ hl => nomatch hl) (fun _ _ hl => nomatch hl)
      (fun b hb => ?_) ?_ (sentFree_receiptEvent h.free)
      (fun b _ _ _ sub => receiptEvent_ne_submitted row.1 b receipt sub)
    · rw [singleton_append, tally_receiptEvent, if_neg (Ne.symm hb)]
    · rw [singleton_append, tally_receiptEvent, if_pos rfl, ha]
      rw [show (DeliveryLoop.answered row receipt rows).phaseOf row.1 =
        some (.answered receipt) from if_pos rfl]
      rfl
  | _ => rw [hp] at ht; cases ht

theorem recordAnswered (h : Sound s) {receipt : AlertSendReceipt}
    (hp : s.loop = .answered row receipt rows) (nowMs : ℤ) :
    Sound (s.recordAnswered cfg row receipt rows nowMs) ∧
      Kept s (s.recordAnswered cfg row receipt rows nowMs) := by
  have hc : s.loop.claims = row :: rows := by rw [hp]; rfl
  obtain ⟨-, ⟨r, hr, hq⟩, -, -⟩ := h.head hc
  have ht := h.tally_loop hc (by rw [hp]; exact if_pos rfl)
  have hu := h.undelivered_of_queued hr hq
  have ho : ∀ b, b ≠ row.1 → s.loop.phaseOf b = none := fun b hb => by
    rw [hp]
    exact if_neg (Ne.symm hb)
  unfold AlertWorld.recordAnswered
  split <;> rename_i ha
  · refine h.atHead [] (l := .retrying rows) hc ho hr (wrote_amend hr _) rfl
      (fun _ => rfl) ?_ (.inl rfl) rfl (fun _ _ => rfl) (fun _ hl => by cases hl)
      (fun _ _ hl => by cases hl) (fun _ _ => rfl) ?_ h.free (fun _ _ _ _ _ => not_mem_nil)
    · intro h
      cases h
    · rw [nil_append, ht]
      simp [standing, ha, AlertRow.acceptance, DeliveryLoop.phaseOf]
  have he : receipt.accepted = false := Bool.eq_false_iff.mpr ha
  split <;> rename_i hca
  · have hw := wrote_amend hr
      fun row => if row.queued then { row with retrySeq := s.outbox.nextRetrySeq } else row
    rw [if_pos hq] at hw
    refine h.atHead [] (l := .retrying rows) hc ho hr hw rfl
      (fun hd => absurd hu.1 hd) hu.2 (.inl rfl) rfl (fun _ _ => rfl)
      (fun _ hl => by cases hl) (fun _ _ hl => by cases hl) (fun _ _ => rfl) ?_ h.free
      (fun _ _ _ _ _ => not_mem_nil)
    · rw [nil_append, ht]
      simp only [standing, he]
      exact congrArg (Prod.mk 0) (AlertRow.acceptance_of_queued hq).symm
  · have hf : ∀ l : DeliveryLoop, l = .exhausted row rows ∨ l = .retrying rows →
        Sound { s with
          outbox := s.outbox.markAlertAttemptFailed row.1 nowMs
          loop := l } ∧
        Kept s { s with
          outbox := s.outbox.markAlertAttemptFailed row.1 nowMs
          loop := l } := by
      intro l hl
      refine h.atHead [] hc ho hr (wrote_amend hr _) rfl
        (fun hd => absurd hu.1 hd) ?_ ?_ ?_ ?_ ?_ ?_ (fun _ _ => rfl) ?_ h.free
        (fun _ _ _ _ _ => not_mem_nil)
      · intro h
        cases h
      · rcases hl with rfl | rfl
        · exact .inr ⟨rfl, rfl⟩
        · exact .inl rfl
      · rcases hl with rfl | rfl <;> rfl
      · rcases hl with rfl | rfl <;> exact fun _ _ => rfl
      · rcases hl with rfl | rfl <;> exact fun _ hl => by cases hl
      · rcases hl with rfl | rfl <;> exact fun _ _ hl => by cases hl
      · rw [nil_append, ht]
        rcases hl with rfl | rfl <;>
          simp [standing, he, AlertRow.acceptance, DeliveryLoop.phaseOf]
    apply hf
    cases hs : lastAttempt cfg row.2
    · exact .inr rfl
    · exact .inl rfl

theorem giveUpRetry (h : Sound s) (hlp : s.loop = .exhausted row rows) (nowMs : ℤ) :
    Sound { s with
      outbox := s.outbox.markAlertAbandoned row.1 nowMs
      loop := .retrying rows } ∧
    Kept s { s with
      outbox := s.outbox.markAlertAbandoned row.1 nowMs
      loop := .retrying rows } := by
  have hc : s.loop.claims = row :: rows := by rw [hlp]; rfl
  obtain ⟨hcl, ⟨r, hr, hq⟩, hrs, hn⟩ := h.head hc
  refine h.abandon hr hcl (by rw [hlp]; rfl) (fun he => ?_) nowMs
    (fun b => by rw [hlp]; rfl) (fun p hp => ⟨?_, hrs p hp⟩) (fun p hp => nomatch hp)
    (fun _ hl => nomatch hl) (fun _ _ hl => nomatch hl) hn
  · have hs := of_decide_eq_true hq
    rw [he] at hs
    rcases hs with hs | hs <;> cases hs
  · rw [hc]
    exact mem_cons_of_mem _ hp

theorem proceed (h : Sound s) {nowMs : ℤ} (hC : Steady cfg s (.proceed nowMs))
    (ht : s.proceed cfg nowMs = some t) : Sound t ∧ Kept s t := by
  unfold AlertWorld.proceed at ht
  cases hp : s.loop with
  | polling rows =>
    rw [hp] at ht
    have hw : s.loop.watched = rows := by rw [hp]; rfl
    cases rows with
    | nil =>
      cases ht
      exact ⟨h.drop (fun b => by rw [hp]; rfl) (nil_sublist _) (nil_sublist _)
        (fun _ hl => nomatch hl) (fun _ _ hl => nomatch hl), .of_eq rfl rfl⟩
    | cons row rows =>
      dsimp only at ht
      split at ht <;> rename_i hu
      · cases ht
        exact ⟨h.drop (fun b => by rw [hp]; rfl) (nil_sublist _)
          (by rw [hw]; exact sublist_cons_self _ _) (fun _ hl => nomatch hl)
          (fun _ _ hl => nomatch hl), .of_eq rfl rfl⟩
      · cases ht
  | unsettled row seen rows =>
    rw [hp] at ht
    cases ht
    apply h.requeue hp
    cases seen with
    | none => exact .inl rfl
    | some receipt => exact .inr ⟨receipt, rfl⟩
  | observed row seen rows =>
    rw [hp] at ht
    cases ht
    unfold Steady at hC
    rw [hp] at hC
    exact h.recordObserved hp hC
  | undeliverable row rows =>
    rw [hp] at ht
    cases ht
    exact h.giveUp hp nowMs
  | retrying rows =>
    rw [hp] at ht
    have hc : s.loop.claims = rows := by rw [hp]; rfl
    cases rows with
    | nil =>
      cases ht
      exact ⟨h.drop (fun b => by rw [hp]; rfl) (nil_sublist _) (nil_sublist _)
        (fun _ hl => nomatch hl) (fun _ _ hl => nomatch hl), .of_eq rfl rfl⟩
    | cons row rows =>
      dsimp only at ht
      cases hs : retrySubmission cfg row.2 nowMs with
      | none =>
        rw [hs] at ht
        cases ht
        exact ⟨h.drop (fun b => by rw [hp]; rfl)
          (by rw [hc]; exact sublist_cons_self _ _) (nil_sublist _)
          (fun _ hl => nomatch hl) (fun _ _ hl => nomatch hl), .of_eq rfl rfl⟩
      | some submission =>
        rw [hs] at ht
        cases ht
        exact h.submitRetry hp
  | answered row receipt rows =>
    rw [hp] at ht
    cases ht
    exact h.recordAnswered hp nowMs
  | exhausted row rows =>
    rw [hp] at ht
    cases ht
    exact h.giveUpRetry hp nowMs
  | _ => rw [hp] at ht; cases ht

theorem restart (h : Sound s) (hc : s.calls = .empty)
    (hp : s.loop = .waiting ∨ s.loop = .ended) : Sound s.restart ∧ Kept s s.restart := by
  have hs : Sound { s with
      loop := .waiting
      mandatoryTakesSpareSlot := true } :=
    h.drop (fun b => hp.elim (fun hl => by rw [hl]) (fun hl => by rw [hl]; rfl))
      (nil_sublist _) (nil_sublist _) (fun _ hl => nomatch hl) (fun _ _ hl => nomatch hl)
  unfold AlertWorld.restart
  rw [← hc]
  exact ⟨hs, .of_eq rfl rfl⟩

end Sound

/-! ### Runs -/

theorem sound_step (h : Sound s) {label : AlertLabel} (hC : Steady cfg s label)
    (ht : s.step cfg label = some t) : Sound t ∧ Kept s t := by
  cases label with
  | enqueue alertId r nowMs => exact some.inj ht ▸ h.enqueue alertId r nowMs
  | withhold alertId =>
    obtain ⟨call, hc, hs⟩ := bind_eq_some_iff.mp ht
    exact h.withhold hc hs
  | submit alertId =>
    obtain ⟨call, hc, hs⟩ := bind_eq_some_iff.mp ht
    exact h.submit hc hs
  | answer alertId receipt =>
    obtain ⟨call, hc, hs⟩ := bind_eq_some_iff.mp ht
    exact h.answer hc hs
  | settle alertId nowMs =>
    obtain ⟨call, hc, hs⟩ := bind_eq_some_iff.mp ht
    exact h.settle hc hs
  | callback channel providerMessageId providerStatus observedAtMs deliveredAtMs terminalFailure =>
    exact h.callback hC (some.inj ht)
  | read => exact h.read hC ht
  | readFailed => exact h.readFailed ht
  | observe seen => exact h.observe ht
  | observeRaised => exact h.observeRaised ht
  | answerRetry receipt => exact h.answerRetry ht
  | proceed nowMs => exact h.proceed hC ht
  | restart => exact some.inj ht ▸ h.restart hC.1 hC.2

theorem sound_run {as : List AlertLabel} (h : Sound s)
    (hC : Meets (fun s => step cfg s) (Steady cfg) s as)
    (ht : run (fun s => step cfg s) s as = some t) : Sound t ∧ Kept s t := by
  have hst : ∀ u label v, (Sound u ∧ Kept s u) → Steady cfg u label →
      step cfg u label = some v → Sound v ∧ Kept s v := by
    intro u label v hu hs huv
    obtain ⟨hv, hk⟩ := sound_step hu.1 hs huv
    exact ⟨hv, hu.2.trans hk⟩
  exact run_invariant_of_meets hst ⟨h, .refl s⟩ hC ht

theorem Sound.one (h : Sound s) (a : Text) : outstanding a s.log + (held a s.log).length ≤ 1 := by
  have ht := h.tally a
  have ha : (s.outbox.acceptanceOf a).length ≤ 1 := by
    unfold AlertOutbox.acceptanceOf AlertRow.acceptance
    cases s.outbox.get? a with
    | none => exact Nat.zero_le 1
    | some row =>
      rw [map_some]
      split <;> simp
  obtain ⟨ho, hh⟩ := Prod.mk.inj ht
  rw [ho, hh]
  rcases s.phaseOf a with _ | _ | _ | receipt
  · simpa [standing] using ha
  · simpa [standing] using ha
  · exact le_rfl
  · cases hacce : receipt.accepted <;> simp [hacce]

/-- In every run in which the loop reads no row whose first send is in flight and no terminal
failure is recorded of a delivered row: each submission finds nothing outstanding and nothing held,
one submission of a row at most is outstanding or held, a delivered row stays accepted, an abandoned
one stays abandoned and is not submitted, and only an optional notice is ever abandoned. -/
theorem held_alert_not_resent (cfg : AlertDeliveryConfig) {as bs : List AlertLabel}
    (hs : run (fun s => step cfg s) start as = some s)
    (ht : run (fun s => step cfg s) s bs = some t)
    (hA : Meets (fun s => step cfg s) (Steady cfg) start as)
    (hB : Meets (fun s => step cfg s) (Steady cfg) s bs) :
    SentFree t.log ∧ (∀ a, outstanding a t.log + (held a t.log).length ≤ 1) ∧
      (∀ a row, s.outbox.get? a = some row → row.deliveredAtMs ≠ none →
        ∃ row', t.outbox.get? a = some row' ∧ row'.deliveredAtMs ≠ none ∧ row'.status = .accepted) ∧
      (∃ new, t.log = new ++ s.log ∧ ∀ a row, s.outbox.get? a = some row →
        row.status = .abandoned → (∃ row', t.outbox.get? a = some row' ∧ row'.status = .abandoned) ∧
          ∀ sub, AlertEvent.submitted a sub ∉ new) ∧
      ∀ a row, t.outbox.get? a = some row → row.noticeKind ≠ some noticeOptional →
        row.status ≠ .abandoned := by
  have hsound := (sound_run sound_start hA hs).1
  obtain ⟨hsound', hkept⟩ := sound_run hsound hB ht
  obtain ⟨new, hnew, hfree⟩ := hkept.log
  refine ⟨hsound'.free, hsound'.one, fun a row hrow hdelivered => ?_,
    ⟨new, hnew, fun a row hrow habandoned => ⟨?_, hfree a row hrow habandoned⟩⟩,
    fun a row hrow hkind habandoned => hkind (hsound'.optional a row hrow habandoned)⟩
  · obtain ⟨row', hrow', hrows⟩ := hkept.rows a row hrow
    exact ⟨row', hrow', hrows.delivered hdelivered,
      hsound'.delivered a row' hrow' (hrows.delivered hdelivered)⟩
  · obtain ⟨row', hrow', hrows⟩ := hkept.rows a row hrow
    exact ⟨row', hrow', hrows.abandoned habandoned⟩

def steadyCheck (cfg : AlertDeliveryConfig) (s : AlertWorld) : AlertLabel → Bool
  | .read =>
    match s.loop with
    | .fetching => (s.outbox.getRetryableAlerts cfg.batchSize (some true)).all
        (fun p => decide (s.calls.get? p.1 = none))
    | .fetched _ => (s.outbox.getRetryableAlerts cfg.batchSize (some false)).all
        (fun p => decide (s.calls.get? p.1 = none))
    | _ => true
  | .callback channel providerMessageId _ _ _ terminalFailure => !terminalFailure ||
      (s.outbox.acceptedAs channel providerMessageId).all
        (fun p => decide (p.2.deliveredAtMs = none))
  | .proceed _ =>
    match s.loop with
    | .observed row seen _ => !seen.terminalFailure ||
        (s.outbox.get? row.1).all (fun r => decide (r.deliveredAtMs = none))
    | _ => true
  | .restart => decide (s.calls = .empty) && decide (s.loop = .waiting ∨ s.loop = .ended)
  | _ => true

theorem steady_of_check (s : AlertWorld) (label : AlertLabel) (h : steadyCheck cfg s label = true) :
    Steady cfg s label := by
  cases label with
  | read =>
    unfold Steady
    cases hl : s.loop with
    | fetching | fetched rows =>
      simp only [steadyCheck, hl, List.all_eq_true, decide_eq_true_eq] at h
      exact h
    | _ => trivial
  | callback channel providerMessageId providerStatus observedAtMs deliveredAtMs terminalFailure =>
    intro ht
    simp only [steadyCheck, ht, Bool.not_true, Bool.false_or, List.all_eq_true,
      decide_eq_true_eq] at h
    exact h
  | proceed nowMs =>
    unfold Steady
    cases hl : s.loop with
    | observed row seen rows =>
      intro ht r hr
      simp only [steadyCheck, hl, ht, hr, Bool.not_true, Bool.false_or,
        Option.all_some, decide_eq_true_eq] at h
      exact h
    | _ => trivial
  | restart =>
    simp only [steadyCheck, Bool.and_eq_true, decide_eq_true_eq] at h
    exact h
  | _ => trivial

namespace Plain

def delivery : AlertDeliveryConfig where
  batchSize := 1
  maxNonTierDAttempts := 1
  site := text "site"
  formatAlertTimestamp _ := []

def alertId : Text := text "a1"

def notice : AlertRequest :=
  .safety (text "sms") (text "+1") (text "no sensor") [text "v"] (text "probe") 1000

def acceptedAs (providerMessageId : Text) : AlertSendReceipt where
  accepted := true
  channel := text "sms"
  providerMessageId := providerMessageId

/-- A notice is accepted, then reported undeliverable. -/
def refuted : List AlertLabel :=
  [.enqueue alertId notice 1, .submit alertId, .answer alertId (acceptedAs (text "m1")),
    .settle alertId 2, .callback (text "sms") (text "m1") (text "failed") 3 none true]

/-- The loop sends the notice again. -/
def resent : List AlertLabel :=
  [.readFailed, .read, .read, .proceed 4, .answerRetry (acceptedAs (text "m2")), .proceed 5]

/-- The loop reads a notice whose first send is still in flight. -/
def sentTwice : List AlertLabel :=
  [.enqueue alertId notice 1, .readFailed, .read, .read, .submit alertId, .proceed 2,
    .answer alertId (acceptedAs (text "m1")), .answerRetry (acceptedAs (text "m2"))]

def isSubmission : AlertEvent → Bool
  | .submitted _ _ => true
  | _ => false

end Plain

/-- A notice whose acceptance was refuted is submitted again, and is held once. -/
theorem held_alert_not_resent_refuted : ∃ s t,
    run (fun s => step Plain.delivery s) start Plain.refuted = some s ∧
    run (fun s => step Plain.delivery s) s Plain.resent = some t ∧
    (t.log.filter Plain.isSubmission).length = 2 ∧ SentFree t.log ∧
    outstanding Plain.alertId t.log + (held Plain.alertId t.log).length ≤ 1 := by
  obtain ⟨s, hs⟩ : ∃ s, run (fun s => step Plain.delivery s) start Plain.refuted = some s :=
    isSome_iff_exists.mp (by decide +kernel)
  have hwhole : ∃ t, run (fun s => step Plain.delivery s) start (Plain.refuted ++ Plain.resent) =
      some t ∧ (t.log.filter Plain.isSubmission).length = 2 := by
    exact exists_of_check (by decide +kernel)
  obtain ⟨t, hwhole, hcount⟩ := hwhole
  obtain ⟨u, hu, ht⟩ := run_append_eq_some_iff.mp hwhole
  obtain rfl := mem_unique hs hu
  have hA : Meets (fun s => step Plain.delivery s) (Steady Plain.delivery) start Plain.refuted :=
    meets_of_check steady_of_check (by decide +kernel)
  have hB : Meets (fun s => step Plain.delivery s) (Steady Plain.delivery) s Plain.resent := by
    have hcheck : (run (fun s => step Plain.delivery s) start Plain.refuted).all
        (fun s => meetsCheck (fun s => step Plain.delivery s) (steadyCheck Plain.delivery) s
          Plain.resent) = true := by
      decide +kernel
    rw [hs] at hcheck
    exact meets_of_check steady_of_check hcheck
  obtain ⟨hfree, hone, -⟩ := held_alert_not_resent Plain.delivery hs ht hA hB
  exact ⟨s, t, hs, ht, hcount, hfree, hone Plain.alertId⟩

/-- The first send and the retry loop both submit the notice, and the provider takes both. -/
theorem first_send_and_retry_both_accepted : ∃ s,
    run (fun s => step Plain.delivery s) start Plain.sentTwice = some s ∧ ¬ SentFree s.log ∧
    ¬ outstanding Plain.alertId s.log + (held Plain.alertId s.log).length ≤ 1 := by
  obtain ⟨s, hs, hbad⟩ : ∃ s, run (fun s => step Plain.delivery s) start Plain.sentTwice = some s ∧
    ¬ SentFree s.log ∧ ¬ outstanding Plain.alertId s.log + (held Plain.alertId s.log).length ≤ 1 :=
    exists_of_check (by decide +kernel)
  exact ⟨s, hs, hbad⟩

end AlertWorld

end OriRuntime
