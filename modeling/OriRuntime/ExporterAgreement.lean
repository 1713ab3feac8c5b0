import OriRuntime.MobileExporter

/-!
# The exporters agree

`HttpTelemetryExporter` and the mobile `Exporter` given the same events, and flushes that run to
their end with the same verdicts. They send the same batches and end each step in the same state.
-/

namespace OriRuntime

open List Option

open Execution

variable {ε : Type}

/-- What is handed to an exporter: an event, or a flush and what its sends come to. -/
inductive ExporterInput (ε : Type)
  | event (event : ε)
  | flush (sends : Sends ε)

def Sends.result (sends : Sends ε) (index : ℕ) (batch : PendingBatch ε) : HttpExporter.SendEnd :=
  match sends.verdict index batch with
  | none => .unsendable
  | some verdict => .verdict verdict

namespace HttpExporter

/-- The sends of a flush, one after the other, with the batches sent. -/
def sendAll (sends : Sends ε) : ℕ → ℕ → HttpExporter ε → HttpExporter ε × List (PendingBatch ε)
  | 0, _, x => (x, [])
  | fuel + 1, index, x =>
    match x.flush with
    | none => (x, [])
    | some f =>
      match x.sendEnd (sends.result index f.batch) with
      | none => (x, [])
      | some y =>
        let (z, sent) := sendAll sends fuel (index + 1) y
        (z, f.batch :: sent)

def flushWhole (apiKey : Text) (sends : Sends ε) (x : HttpExporter ε) :
    HttpExporter ε × List (PendingBatch ε) :=
  let x := x.flushOnce apiKey
  x.sendAll sends x.inFlight.length 0

/-- The exporter and the batches it sent, after one more input. -/
def feed (apiKey : Text) (s : HttpExporter ε × List (PendingBatch ε)) :
    ExporterInput ε → HttpExporter ε × List (PendingBatch ε)
  | .event event => (s.1.handleEvent event, s.2)
  | .flush sends =>
    let (x, sent) := s.1.flushWhole apiKey sends
    (x, s.2 ++ sent)

def feedAll (apiKey : Text) (x : HttpExporter ε) (inputs : List (ExporterInput ε)) :
    HttpExporter ε × List (PendingBatch ε) :=
  inputs.foldl (feed apiKey) (x, [])

end HttpExporter

def ExporterInput.toStep : ExporterInput ε → Exporter.Step ε
  | .event e => .enqueue e
  | .flush sends => .flush sends

/-- What both exporters hold and count is the same. -/
structure ExportersAlike (x : HttpExporter ε) (r : Exporter ε) : Prop where
  batchSize : x.batchSize = r.batchSize
  maxQueueSize : x.maxQueueSize = r.maxQueueSize
  queue : x.queue = r.queue
  retained : x.retained = r.retained
  retainedEvents : x.retainedEvents = r.retainedEvents
  sequence : x.sequence = r.sequence
  suspended : x.exportSuspended = r.suspended
  dropped : x.droppedEvents = r.counters.droppedEvents
  declined : x.declinedEvents = r.counters.declinedEvents
  duplicate : x.duplicateEvents = r.counters.duplicateEvents
  refused : x.refusedEvents = r.counters.refusedEvents
  delivered : x.deliveredEvents = r.counters.deliveredEvents
  unconfirmed : x.unconfirmedEvents = r.counters.unconfirmedEvents
  unreadable : x.unreadableResponses = r.counters.unreadableResponses
  nonconformant : x.nonconformantResponses = r.counters.nonconformantResponses

/-- Both exporters while the flush holds the batches `hand`. -/
structure Paired (apiKey : Text) (x : HttpExporter ε) (r : Exporter ε)
    (hand : List (PendingBatch ε)) : Prop where
  alike : ExportersAlike x r
  inFlight : x.inFlight = hand
  inFlightEvents : x.inFlightEvents = eventCount hand
  keyed : ∀ f, x.flush = some f → f.key = apiKey
  credential : x.exportSuspended = true → x.refusedCredential = some apiKey

namespace HttpExporter

variable {x y : HttpExporter ε} {r : Exporter ε} {apiKey : Text} {hand : List (PendingBatch ε)}

theorem sendAll_idle (h : x.flush = none) (sends : Sends ε) (fuel index : ℕ) :
    x.sendAll sends fuel index = (x, []) := by
  cases fuel with
  | zero => rfl
  | succ fuel => simp only [sendAll, h]

theorem sendAll_succ {f : Flush ε} {sends : Sends ε} {index : ℕ} (hf : x.flush = some f)
    (he : x.sendEnd (sends.result index f.batch) = some y) (fuel : ℕ) :
    x.sendAll sends (fuel + 1) index = ((y.sendAll sends fuel (index + 1)).1,
        f.batch :: (y.sendAll sends fuel (index + 1)).2) := by
  simp only [sendAll, hf, he]

theorem flush_of_inFlight_nil (h : x.inFlight = []) : x.flush = none := by
  unfold inFlight at h
  cases hf : x.flush with
  | none => rfl
  | some f => simp [hf, Flush.rest] at h

theorem flush_of_inFlight_cons {batch : PendingBatch ε} {later : List (PendingBatch ε)}
    (h : x.inFlight = batch :: later) :
    ∃ f, x.flush = some f ∧ f.batch = batch ∧ f.later = later := by
  unfold inFlight at h
  cases hf : x.flush with
  | none => simp [hf] at h
  | some f =>
    rw [hf] at h
    exact ⟨f, rfl, (List.cons.inj h).1, (List.cons.inj h).2⟩

end HttpExporter

namespace Paired

variable {x y : HttpExporter ε} {r : Exporter ε} {apiKey : Text} {hand : List (PendingBatch ε)}

theorem handleEvent (h : Paired apiKey x r []) (hs : r.Sound []) (event : ε) :
    Paired apiKey (x.handleEvent event) (r.enqueue event) [] := by
  have ha := h.alike
  have hf := h.inFlightEvents
  have hr := ha.retainedEvents
  have hb := hs.bound
  have hm := ha.maxQueueSize
  have hl := congrArg List.length ha.queue
  unfold HttpExporter.handleEvent Exporter.enqueue
  dsimp only
  rw [show HttpExporter.exportSuspended { x with handed := x.handed ++ [event] } =
    x.exportSuspended from rfl, ha.suspended]
  by_cases hstop : r.suspended = true
  · rw [if_pos hstop, if_pos hstop]
    exact { h with alike := { ha with refused := congrArg (· + 1) ha.refused } }
  rw [if_neg hstop, if_neg hstop]
  unfold HttpExporter.inMemoryEvents Exporter.inMemoryEvents
  dsimp only
  rw [eventCount_nil] at hf
  by_cases hfl : r.maxQueueSize ≤ r.queue.length + r.retainedEvents
  · rw [if_pos (by omega), if_pos hfl]
    exact { h with alike := { ha with dropped := congrArg (· + 1) ha.dropped } }
  · rw [if_neg (by omega), if_neg hfl, if_neg]
    · exact { h with alike := { ha with queue := congrArg (· ++ [event]) ha.queue } }
    unfold HttpExporter.queueFull
    rw [decide_eq_true_eq]
    dsimp only
    omega

theorem proceed {f : Flush ε} (ha : ExportersAlike x r)
    (he : x.inFlightEvents = eventCount f.later) (hk : f.key = apiKey)
    (hc : x.exportSuspended = true → x.refusedCredential = some apiKey) (delivered : ℤ) :
    Paired apiKey (x.proceed f delivered) r f.later := by
  unfold HttpExporter.proceed
  cases hl : f.later with
  | nil => exact ⟨{ ha with }, rfl, rfl, nofun, hc⟩
  | cons batch later =>
    rw [hl] at he
    refine ⟨{ ha with }, rfl, he, ?_, hc⟩
    rintro g ⟨⟩
    exact hk

theorem stopRetaining {batches : List (PendingBatch ε)} {s : Exporter ε} (ha : ExportersAlike x r)
    (hs : r.Sound hand) (hn : eventCount batches = eventCount hand)
    (hc : x.exportSuspended = true → x.refusedCredential = some apiKey)
    (hr : r.retain batches = some s) :
    Paired apiKey (x.stopRetaining batches) s [] ∧ s.sent = r.sent := by
  have hb := hs.bound
  have hm := ha.maxQueueSize
  have hreta := ha.retainedEvents
  have hl := congrArg List.length ha.queue
  rw [Exporter.retain_eq (by unfold Exporter.inMemoryEvents; omega)] at hr
  cases hr
  unfold HttpExporter.stopRetaining
  rw [HttpExporter.retain_of_le _ _ (by unfold HttpExporter.inMemoryEvents; dsimp only; omega)]
  refine ⟨⟨{ ha with retained := ?_, retainedEvents := ?_ }, rfl, rfl, nofun, hc⟩, rfl⟩
  · exact congrArg (batches ++ ·) ha.retained
  · push_cast
    exact congrArg (· + (eventCount batches : ℤ)) hreta

theorem suspendOnTerminalRefusal {s : Exporter ε} (ha : ExportersAlike x r) (hs : r.Sound hand)
    (hf : x.flush = none) (hfl : x.inFlightEvents = 0) (v : TelemetryDelivery.Verdict)
    (refused : ℕ)
    (hu : Exporter.suspend { r with
      counters := { r.counters with refusedEvents := r.counters.refusedEvents + refused } } =
        some s) :
    Paired apiKey (x.suspendOnTerminalRefusal v apiKey refused) s [] ∧ s.sent = r.sent := by
  have hr := ha.retainedEvents
  have he := congrArg eventCount ha.retained
  have hl := congrArg List.length ha.queue
  have hc := hs.retainedEvents
  have hre := ha.refused
  rw [Exporter.suspend_eq (by exact hs.retainedEvents.ge)] at hu
  cases hu
  unfold HttpExporter.suspendOnTerminalRefusal HttpExporter.discardQueuedWhileSuspended
  refine ⟨⟨{ ha with
    queue := rfl
    retained := rfl
    retainedEvents := ?_
    suspended := ?_
    refused := ?_ }, ?_, hfl, ?_, fun _ => rfl⟩, rfl⟩
  · dsimp only
    omega
  · unfold HttpExporter.exportSuspended
    split_ifs with ht
    · rw [ht]
      rfl
    · rfl
  · dsimp only
    omega
  · unfold HttpExporter.inFlight
    rw [hf]
  · dsimp only
    rw [hf]
    nofun

theorem sendAll (sends : Sends ε) (hand : List (PendingBatch ε)) (index : ℕ)
    (h : Paired apiKey x r hand) (hs : r.Sound hand) (hreta : r.retained = [])
    (ht : r.suspended = false) {result : FlushOutcome × Exporter ε}
    (hr : r.sendEach sends index hand = some result) :
    Paired apiKey (x.sendAll sends hand.length index).1 result.2 [] ∧
      result.2.sent = r.sent ++ (x.sendAll sends hand.length index).2 := by
  induction hand generalizing x r index with
  | nil =>
    cases hr
    exact ⟨h, (append_nil _).symm⟩
  | cons batch later ih =>
    obtain ⟨f, hf, rfl, rfl⟩ := HttpExporter.flush_of_inFlight_cons h.inFlight
    have ha := h.alike
    have hk := h.keyed f hf
    have hfl := h.inFlightEvents
    rw [eventCount_cons] at hfl
    rw [Exporter.sendEach] at hr
    -- the flush goes on, and the mobile exporter's loop with it
    have hx : ∀ (y : HttpExporter ε) (c : ExportCounters) (i : ℤ),
        x.sendEnd (sends.result index f.batch) = some (y.proceed f i) →
        ExportersAlike y { r with counters := c, sent := r.sent ++ [f.batch] } →
        y.inFlightEvents = eventCount f.later →
        (y.exportSuspended = true → y.refusedCredential = some apiKey) →
        Exporter.sendEach sends (index + 1) f.later
          { r with counters := c, sent := r.sent ++ [f.batch] } = some result →
        Paired apiKey (x.sendAll sends (f.batch :: f.later).length index).1 result.2 [] ∧
          result.2.sent = r.sent ++ (x.sendAll sends (f.batch :: f.later).length index).2 := by
      intro y c i he hl hev hc hg
      obtain ⟨hp, hse⟩ := ih (index + 1) (proceed hl hev hk hc i) (hs.next c _) hreta ht hg
      rw [length_cons, HttpExporter.sendAll_succ hf he]
      refine ⟨hp, ?_⟩
      rw [hse]
      rw [append_assoc, singleton_append]
    -- the flush stops
    have hstop : ∀ y : HttpExporter ε, x.sendEnd (sends.result index f.batch) = some y →
        Paired apiKey y result.2 [] ∧ result.2.sent = r.sent ++ [f.batch] →
        Paired apiKey (x.sendAll sends (f.batch :: f.later).length index).1 result.2 [] ∧
          result.2.sent = r.sent ++ (x.sendAll sends (f.batch :: f.later).length index).2 := by
      rintro y he ⟨hp, hse⟩
      rw [length_cons, HttpExporter.sendAll_succ hf he,
        HttpExporter.sendAll_idle (HttpExporter.flush_of_inFlight_nil hp.inFlight)]
      exact ⟨hp, hse⟩
    cases hv : sends.verdict index f.batch with
    | none =>
      rw [hv] at hr
      refine hx { x with
        droppedEvents := x.droppedEvents + f.batch.events.length
        droppedItems := x.droppedItems ++ f.batch.events
        inFlightEvents := x.inFlightEvents - f.batch.events.length }
        _ f.delivered ?_ ?_ ?_ ?_ hr
      · unfold Sends.result HttpExporter.sendEnd
        rw [hv, hf]
      · exact { ha with dropped := congrArg (· + f.batch.events.length) ha.dropped }
      · dsimp only
        omega
      · exact h.credential
    | some v =>
      rw [hv] at hr
      dsimp only at hr
      have hfits := sends.fits index f.batch v hv
      have he : x.sendEnd (sends.result index f.batch) = some (x.afterVerdict f v) := by
        unfold Sends.result HttpExporter.sendEnd
        rw [hv, hf]
        exact if_pos hfits
      unfold DeliveryVerdict.Fits at hfits
      cases ho : v.outcome with
      | suspend =>
        rw [ho] at hr hfits
        have hrd : v.bodyUnreadable = false := hfits.2
        obtain ⟨s, hu, rfl⟩ := map_eq_some_iff.mp hr
        refine hstop _ he ?_
        unfold HttpExporter.afterVerdict
        rw [ho, hk, hrd]
        refine suspendOnTerminalRefusal (r := { r with sent := r.sent ++ [f.batch] })
          ?_ (hs.recount r.counters _) rfl rfl v _ hu
        exact { ha with }
      | retain =>
        rw [ho] at hr
        by_cases hn : v.receiverAnswered = true
        · rw [if_pos hn] at hr
          by_cases hb : maxUnconfirmedAttempts ≤ f.batch.unconfirmedAttempts + 1
          · rw [if_pos hb] at hr
            refine hx { x.record f .abandoned with
              inFlightEvents := x.inFlightEvents - f.batch.events.length
              unreadableResponses :=
                if v.bodyUnreadable then x.unreadableResponses + 1 else x.unreadableResponses
              unconfirmedEvents := x.unconfirmedEvents + f.batch.events.length
              unconfirmedItems := x.unconfirmedItems ++ f.batch.events } _ f.delivered
              ?_ ?_ ?_ ?_ hr
            · rw [he]
              unfold HttpExporter.afterVerdict
              dsimp only
              rw [ho]
              rw [if_pos hn, if_pos hb]
              rfl
            · refine { ha with unconfirmed := ?_, unreadable := ?_ }
              · exact congrArg (· + f.batch.events.length) ha.unconfirmed
              · dsimp only
                rw [← ha.unreadable]
            · dsimp only
              omega
            · exact h.credential
          · rw [if_neg hb] at hr
            obtain ⟨s, hre, rfl⟩ := map_eq_some_iff.mp hr
            refine hstop _ he ?_
            unfold HttpExporter.afterVerdict
            dsimp only
            rw [ho]
            rw [if_pos hn, if_neg hb]
            refine stopRetaining ?_ (hs.recount _ _) ?_ h.credential hre
            · exact { ha with unreadable := by dsimp only; rw [← ha.unreadable]; rfl }
            · rw [eventCount_cons, eventCount_cons]
        · rw [if_neg hn] at hr
          obtain ⟨s, hre, rfl⟩ := map_eq_some_iff.mp hr
          refine hstop _ he ?_
          unfold HttpExporter.afterVerdict
          dsimp only
          rw [ho]
          rw [if_neg hn]
          refine stopRetaining ?_ (hs.recount _ _) rfl h.credential hre
          exact { ha with unreadable := by dsimp only; rw [← ha.unreadable]; rfl }
      | delivered =>
        rw [ho] at hr hfits
        have hrd : v.bodyUnreadable = false := hfits.2
        rw [subUnsigned_of_le hfits.1] at hr
        refine hx { x.record f .delivered with
          inFlightEvents := x.inFlightEvents - f.batch.events.length
          duplicateEvents := x.duplicateEvents + v.duplicateEvents
          declinedEvents := x.declinedEvents + v.declinedEvents
          nonconformantResponses :=
            if v.nonconformantBody then x.nonconformantResponses + 1
            else x.nonconformantResponses
          deliveredEvents := x.deliveredEvents + (f.batch.events.length - v.declinedEvents)
          answered := x.answered ++ f.batch.events } _
          (f.delivered + (f.batch.events.length - v.declinedEvents)) ?_ ?_ ?_ ?_ hr
        · rw [he]
          unfold HttpExporter.afterVerdict
          rw [ho, hrd]
          rfl
        · refine { ha with
            duplicate := congrArg (· + v.duplicateEvents) ha.duplicate
            declined := congrArg (· + v.declinedEvents) ha.declined
            delivered := ?_
            nonconformant := ?_ }
          · have hle : v.declinedEvents ≤ f.batch.events.length := hfits.1
            have hd := ha.delivered
            dsimp only
            omega
          · dsimp only
            rw [← ha.nonconformant]
        · dsimp only
          omega
        · exact h.credential

theorem takePending (h : Paired apiKey x r []) : x.takePending.1 = r.takePending.1 ∧
    ExportersAlike x.takePending.2 r.takePending.2 ∧
      x.takePending.2.inFlightEvents = eventCount r.takePending.1 ∧
        r.takePending.2.sent = r.sent := by
  have ha := h.alike
  have he : (x.queue.take x.batchSize).isEmpty = true ↔ ¬ 0 < min r.batchSize r.queue.length := by
    rw [List.isEmpty_iff, ← List.length_eq_zero_iff, List.length_take, ha.batchSize, ha.queue]
    omega
  have htake : x.queue.take x.batchSize = r.queue.take (min r.batchSize r.queue.length) := by
    rw [ha.queue, ha.batchSize, ← List.take_eq_take_min]
  have hd : x.queue.drop x.batchSize = r.queue.drop (min r.batchSize r.queue.length) := by
    rw [ha.queue, ha.batchSize, ← List.drop_eq_drop_min]
  unfold HttpExporter.takePending Exporter.takePending
  dsimp only
  by_cases hp : 0 < min r.batchSize r.queue.length
  · have hs : ¬ (x.queue.take x.batchSize).isEmpty = true := by
      rw [he]
      exact not_not.mpr hp
    rw [if_neg hs, if_pos hp, ha.retained, ha.sequence, htake]
    refine ⟨rfl, { ha with
      queue := hd
      retained := rfl
      retainedEvents := rfl
      sequence := ?_ }, rfl, rfl⟩
    rw [if_neg (htake ▸ hs)]
  · rw [if_pos (he.mpr hp), if_neg hp, ha.retained, List.append_nil]
    have hzero : min r.batchSize r.queue.length = 0 := by omega
    refine ⟨rfl, { ha with
      queue := ?_
      retained := rfl
      retainedEvents := rfl
      sequence := ?_ }, rfl, rfl⟩
    · dsimp only
      rw [hd, hzero, List.drop_zero]
    · dsimp only
      rw [if_pos (he.mpr hp), ha.sequence]

theorem flushWhole (h : Paired apiKey x r []) (hs : r.Sound []) (hk : apiKey ≠ [])
    (sends : Sends ε) {result : FlushOutcome × Exporter ε} (hr : r.flush sends = some result) :
    Paired apiKey (x.flushWhole apiKey sends).1 result.2 [] ∧
      result.2.sent = r.sent ++ (x.flushWhole apiKey sends).2 := by
  have ha := h.alike
  unfold HttpExporter.flushWhole HttpExporter.flushOnce HttpExporter.flushUnder
  unfold Exporter.flush at hr
  rw [show (x.present apiKey).exportSuspended = x.exportSuspended from rfl, ha.suspended]
  by_cases hstop : r.suspended = true
  · rw [if_pos hstop] at hr ⊢
    rw [if_neg hk]
    obtain ⟨hq, he⟩ := hs.stopped hstop
    rw [hs.discard_of_suspended hstop] at hr
    cases hr
    have hc := h.credential (ha.suspended.trans hstop)
    have hm : (x.present apiKey).credentialMatchesRefusal apiKey =
        if isSurrogateText apiKey || isSurrogateText apiKey then none
        else some (decide (apiKey = apiKey)) := by
      unfold HttpExporter.credentialMatchesRefusal
      rw [show (x.present apiKey).refusedCredential = some apiKey from hc]
    have hidle : ∀ y : HttpExporter ε, y.flush = x.flush →
        y.sendAll sends y.inFlight.length 0 = (y, []) := fun y hy =>
      HttpExporter.sendAll_idle (hy.trans (HttpExporter.flush_of_inFlight_nil h.inFlight)) _ _ _
    rw [hm]
    split_ifs with hu
    · rw [hidle (x.present apiKey) rfl]
      exact ⟨{ h with alike := { ha with } }, (append_nil _).symm⟩
    · rw [decide_eq_true rfl]
      rw [hidle (x.present apiKey).discardQueuedWhileSuspended rfl]
      have hh : x.retained = [] := ha.retained.trans he
      have hqueu : x.queue = [] := ha.queue.trans hq
      refine ⟨⟨{ ha with
        queue := hq.symm
        retained := he.symm
        retainedEvents := ?_
        refused := ?_ }, h.inFlight, h.inFlightEvents, h.keyed, h.credential⟩,
        (append_nil _).symm⟩
      · show x.retainedEvents - (eventCount x.retained : ℤ) = r.retainedEvents
        rw [hh, eventCount_nil, Nat.cast_zero, sub_zero, ha.retainedEvents]
      · show x.refusedEvents + eventCount x.retained + x.queue.length = r.counters.refusedEvents
        rw [hh, hqueu, ha.refused]
        rfl
  · rw [if_neg hstop] at hr ⊢
    obtain ⟨hp, hl, hfl, hse⟩ := takePending (x := x.present apiKey) { h with alike := { ha with } }
    obtain ⟨hn, he, ht⟩ := hs.takePending (Bool.eq_false_iff.mpr hstop)
    unfold HttpExporter.sendPending
    cases ho : r.takePending with
    | mk pending s =>
    cases hhttp : (x.present apiKey).takePending with
    | mk pending' y =>
      rw [ho] at hp hl hfl hse hn he ht hr
      rw [hhttp] at hp hl hfl
      subst hp
      have hidle : y.flush = none := (congrArg (fun s => s.2.flush) hhttp).symm.trans
        (HttpExporter.flush_of_inFlight_nil h.inFlight)
      have hc : y.exportSuspended = true → y.refusedCredential = some apiKey := by
        intro hy
        rw [hl.suspended, ht] at hy
        cases hy
      cases pending' with
      | nil =>
        cases hr
        rw [HttpExporter.sendAll_idle hidle]
        exact ⟨⟨hl, HttpExporter.inFlight_of_none hidle, hfl,
          fun f hf => absurd (hf.symm.trans hidle) nofun, hc⟩,
          hse.trans (append_nil _).symm⟩
      | cons batch later =>
        dsimp only at hr ⊢
        rw [if_neg hk]
        have hsen : Paired apiKey { y with flush := some ⟨batch, later, apiKey, 0⟩ } s
            (batch :: later) := by
          refine ⟨{ hl with }, rfl, hfl, ?_, hc⟩
          rintro f ⟨⟩
          rfl
        obtain ⟨hpa, hmr⟩ := sendAll sends (batch :: later) 0 hsen hn he ht hr
        exact ⟨hpa, hmr.trans (congrArg (· ++ _) hse)⟩

end Paired

/-! ### The two exporters over a run -/

namespace HttpExporter

variable {x y : HttpExporter ε}

theorem reaches_sendAll (sends : Sends ε) (fuel index : ℕ) (x : HttpExporter ε) :
    Reaches step x (x.sendAll sends fuel index).1 := by
  induction fuel generalizing x index with
  | zero => exact ⟨[], rfl⟩
  | succ fuel ih =>
    cases hf : x.flush with
    | none =>
      rw [sendAll_idle hf]
      exact ⟨[], rfl⟩
    | some f =>
      cases he : x.sendEnd (sends.result index f.batch) with
      | none =>
        simp only [sendAll, hf, he]
        exact ⟨[], rfl⟩
      | some y =>
        rw [sendAll_succ hf he]
        obtain ⟨as, ha⟩ := ih (index + 1) y
        exact ⟨.send (sends.result index f.batch) :: as, run_cons_eq_some_iff.mpr ⟨y, he, ha⟩⟩

theorem reaches_feed (apiKey : Text) {s : HttpExporter ε × List (PendingBatch ε)}
    (hidle : s.1.flush = none) (input : ExporterInput ε) :
    Reaches step s.1 (feed apiKey s input).1 := by
  cases input with
  | event e => exact ⟨[.handle e], rfl⟩
  | flush sends =>
    obtain ⟨as, ha⟩ := reaches_sendAll sends (s.1.flushOnce apiKey).inFlight.length 0
      (s.1.flushOnce apiKey)
    refine ⟨.flush apiKey :: as, run_cons_eq_some_iff.mpr ⟨s.1.flushOnce apiKey, ?_, ha⟩⟩
    unfold step
    rw [hidle]
    rfl

end HttpExporter

variable {apiKey : Text} {r : Exporter ε} {x : HttpExporter ε}

theorem paired_new (batchSize maxQueueSize : ℕ) :
    Paired apiKey ({ batchSize, maxQueueSize } : HttpExporter ε) { batchSize, maxQueueSize } [] :=
  ⟨⟨rfl, rfl, rfl, rfl, rfl, rfl, rfl, rfl, rfl, rfl, rfl, rfl, rfl, rfl, rfl⟩, rfl, rfl, nofun,
    nofun⟩

theorem Paired.feed {sent : List (PendingBatch ε)} (h : Paired apiKey x r []) (hs : r.Sound [])
    (hk : apiKey ≠ []) (he : r.sent = sent) (input : ExporterInput ε) :
    ∃ t, r.step input.toStep = some t ∧
      Paired apiKey (HttpExporter.feed apiKey (x, sent) input).1 t [] ∧
      t.Sound [] ∧ t.sent = (HttpExporter.feed apiKey (x, sent) input).2 := by
  obtain ⟨t, ht, hn⟩ := hs.step input.toStep
  cases input with
  | event e =>
    cases ht
    exact ⟨_, rfl, h.handleEvent hs e, hn, (Exporter.sent_enqueue r e).trans he⟩
  | flush sends =>
    obtain ⟨result, hr, rfl⟩ := map_eq_some_iff.mp ht
    obtain ⟨hp, hm⟩ := h.flushWhole hs hk sends hr
    exact ⟨result.2, ht, hp, hn, he ▸ hm⟩

theorem Paired.feedAll (h : Paired apiKey x r []) (hs : r.Sound []) (hk : apiKey ≠ [])
    (s : List (PendingBatch ε)) (hse : r.sent = s) (inputs : List (ExporterInput ε)) :
    ∃ t, run Exporter.step r (inputs.map ExporterInput.toStep) = some t ∧
      Paired apiKey (inputs.foldl (HttpExporter.feed apiKey) (x, s)).1 t [] ∧
      t.sent = (inputs.foldl (HttpExporter.feed apiKey) (x, s)).2 ∧
      Reaches HttpExporter.step x (inputs.foldl (HttpExporter.feed apiKey) (x, s)).1 := by
  induction inputs generalizing x r s with
  | nil => exact ⟨r, rfl, h, hse, [], rfl⟩
  | cons input inputs ih =>
    obtain ⟨t, ht, hp, hn, hm⟩ := h.feed hs hk hse input
    obtain ⟨u, hu, hl, he, as, ha⟩ := ih hp hn _ hm
    obtain ⟨bs, hb⟩ := HttpExporter.reaches_feed apiKey (s := (x, s))
      (HttpExporter.flush_of_inFlight_nil h.inFlight) input
    exact ⟨u, run_cons_eq_some_iff.mpr ⟨t, ht, hu⟩, hl, he, bs ++ as,
      run_append_eq_some_iff.mpr ⟨_, hb, ha⟩⟩

/-- Neither an unsigned subtraction underflows nor the backstop drops a batch, whatever the mobile
exporter is given, and given what the other exporter is given it is in the same state. -/
theorem exporters_agree (batchSize maxQueueSize : ℕ) {apiKey : Text} (hkey : apiKey ≠ []) :
    (∀ steps : List (Exporter.Step ε), ∃ r : Exporter ε,
      run Exporter.step { batchSize, maxQueueSize } steps = some r ∧ r.stale = []) ∧
    ∀ inputs : List (ExporterInput ε), ∃ (x : HttpExporter ε) (sent : List (PendingBatch ε))
        (r : Exporter ε),
      HttpExporter.feedAll apiKey { batchSize, maxQueueSize } inputs = (x, sent) ∧
      run Exporter.step { batchSize, maxQueueSize } (inputs.map ExporterInput.toStep) = some r ∧
      ExportersAlike x r ∧ sent = r.sent ∧
      Reaches HttpExporter.step ({ batchSize, maxQueueSize } : HttpExporter ε) x ∧
      x.flush = none := by
  constructor
  · intro steps
    obtain ⟨r, hr, hsound⟩ := (Exporter.sound_new batchSize maxQueueSize).run steps
    exact ⟨r, hr, hsound.stale⟩
  · intro inputs
    obtain ⟨r, hr, hpaired, hsent, hreach⟩ := (paired_new batchSize maxQueueSize).feedAll
      (Exporter.sound_new batchSize maxQueueSize) hkey [] rfl inputs
    exact ⟨_, _, r, rfl, hr, hpaired.alike, hsent.symm, hreach,
      HttpExporter.flush_of_inFlight_nil hpaired.inFlight⟩

/-- Every send is answered, and the answer confirms nothing. -/
def unconfirming : Sends ℕ where
  verdict _ _ := some (TelemetryDelivery.retain false true)
  fits := by
    rintro _ _ _ ⟨⟩
    trivial

/-- Five answers that do not confirm the batch abandon it, and a third event overflows. -/
theorem exporters_agree_abandoned : (∃ r : Exporter ℕ,
      run Exporter.step { batchSize := 1, maxQueueSize := 2 } [.suspend, .enqueue 7] = some r ∧
        r.stale = []) ∧
    ∃ (x : HttpExporter ℕ) (sent : List (PendingBatch ℕ)) (r : Exporter ℕ),
      HttpExporter.feedAll (text "k") { batchSize := 1, maxQueueSize := 2 }
        ([.event 1, .event 2, .event 3] ++ List.replicate 5 (.flush unconfirming)) = (x, sent) ∧
      ExportersAlike x r ∧ sent = r.sent ∧ r.sent.length = 6 ∧ r.counters.droppedEvents = 1 ∧
        r.counters.unconfirmedEvents = 1 ∧ r.retained.map (·.unconfirmedAttempts) = [1] := by
  have hagree := @exporters_agree ℕ 1 2 (text "k") (by decide)
  refine ⟨hagree.1 _, ?_⟩
  obtain ⟨x, sent, r, hx, hr, halike, hsent, -⟩ := hagree.2
    ([.event 1, .event 2, .event 3] ++ List.replicate 5 (.flush unconfirming))
  obtain ⟨s, hs, hcounts⟩ : ∃ s, run Exporter.step ({ batchSize := 1, maxQueueSize := 2 } : Exporter
    ℕ) ([.enqueue 1, .enqueue 2, .enqueue 3] ++ List.replicate 5 (.flush unconfirming)) = some s ∧
    s.sent.length = 6 ∧ s.counters.droppedEvents = 1 ∧ s.counters.unconfirmedEvents = 1 ∧
    s.retained.map (·.unconfirmedAttempts) = [1] := exists_of_check (by decide +kernel)
  cases hr.symm.trans hs
  exact ⟨x, sent, r, hx, halike, hsent, hcounts⟩

end OriRuntime
