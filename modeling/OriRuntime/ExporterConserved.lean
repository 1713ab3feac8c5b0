import OriRuntime.HttpExporter

/-!
# Telemetry events conserved

Every event handed to the exporter is queued, held by the flush, retained, or counted in one total,
in every interleaving. What is in memory stays within the bound, so the loop that drops a stale
batch never runs.
-/

namespace OriRuntime

open List

variable {ε : Type}

@[simp] theorem eventCount_nil : eventCount ([] : List (PendingBatch ε)) = 0 := rfl

@[simp] theorem eventCount_cons (b : PendingBatch ε) (bs : List (PendingBatch ε)) :
    eventCount (b :: bs) = b.events.length + eventCount bs := by
  simp [eventCount]

@[simp] theorem eventCount_append (bs cs : List (PendingBatch ε)) :
    eventCount (bs ++ cs) = eventCount bs + eventCount cs := by
  simp [eventCount]

@[simp] theorem eventsOf_nil : eventsOf ([] : List (PendingBatch ε)) = [] := rfl

@[simp] theorem eventsOf_cons (b : PendingBatch ε) (bs : List (PendingBatch ε)) :
    eventsOf (b :: bs) = b.events ++ eventsOf bs := rfl

@[simp] theorem eventsOf_append (bs cs : List (PendingBatch ε)) :
    eventsOf (bs ++ cs) = eventsOf bs ++ eventsOf cs := by
  simp [eventsOf]

@[simp] theorem length_eventsOf (bs : List (PendingBatch ε)) :
    (eventsOf bs).length = eventCount bs := by
  induction bs with
  | nil => rfl
  | cons b bs ih => simp [ih]

namespace HttpExporter

theorem dropStale_of_le (x : HttpExporter ε) (h : x.inMemoryEvents ≤ x.maxQueueSize) (fuel : ℕ) :
    x.dropStale fuel = x := by
  cases fuel with
  | zero => rfl
  | succ fuel => simp only [dropStale, if_pos h]

theorem retain_of_le (x : HttpExporter ε) (batches : List (PendingBatch ε))
    (h : x.inMemoryEvents + eventCount batches ≤ x.maxQueueSize) :
    x.retain batches =
      { x with
        retained := batches ++ x.retained
        retainedEvents := x.retainedEvents + eventCount batches } := by
  refine dropStale_of_le _ ?_ _
  unfold inMemoryEvents at h ⊢
  dsimp only
  omega

theorem inFlight_of_none {x : HttpExporter ε} (h : x.flush = none) : x.inFlight = [] := by
  unfold inFlight
  rw [h]

theorem inFlight_of_some {x : HttpExporter ε} {f : Flush ε} (h : x.flush = some f) :
    x.inFlight = f.rest := by
  unfold inFlight
  rw [h]

theorem takePending_events (x : HttpExporter ε) :
    eventsOf x.takePending.1 = eventsOf x.retained ++ x.queue.take x.batchSize := by
  unfold takePending
  dsimp only
  split_ifs with he
  · rw [isEmpty_iff.mp he]
    simp
  · simp

variable [DecidableEq ε]

/-! ### Every event in one place -/

/-- The accounts of the exporter while the flush holds the batches `hand`. -/
structure Conserved (x : HttpExporter ε) (hand : List (PendingBatch ε)) : Prop where
  placed : ∀ e, x.queue.count e + (eventsOf hand).count e + (eventsOf x.retained).count e +
    x.answered.count e + x.refusedItems.count e + x.droppedItems.count e +
      x.unconfirmedItems.count e = x.handed.count e
  retainedEvents : x.retainedEvents = eventCount x.retained
  refusedEvents : x.refusedEvents = x.refusedItems.length
  droppedEvents : x.droppedEvents = x.droppedItems.length
  unconfirmedEvents : x.unconfirmedEvents = x.unconfirmedItems.length
  answered : x.deliveredEvents + x.declinedEvents = x.answered.length
  bound : x.queue.length + eventCount x.retained + eventCount hand ≤ x.maxQueueSize

namespace Conserved

variable {x : HttpExporter ε} {hand : List (PendingBatch ε)}

theorem rehand (h : Conserved x hand) {ha' : List (PendingBatch ε)}
    (he : eventsOf ha' = eventsOf hand) : Conserved x ha' := by
  have hc : eventCount ha' = eventCount hand := by
    rw [← length_eventsOf, he, length_eventsOf]
  refine { h with placed := fun e => ?_, bound := ?_ }
  · rw [he]
    exact h.placed e
  · rw [hc]
    exact h.bound

theorem handleEvent (h : Conserved x hand) (hf : x.inFlightEvents = eventCount hand)
    (event : ε) : Conserved (x.handleEvent event) hand := by
  have hb := h.bound
  have hr := h.retainedEvents
  unfold HttpExporter.handleEvent dropNew
  dsimp only
  split_ifs with hs hl hq
  · refine ⟨fun e => ?_, hr, ?_, h.droppedEvents, h.unconfirmedEvents, h.answered, hb⟩
    · have := h.placed e
      simp only [count_append]
      omega
    · simp [h.refusedEvents]
  · refine ⟨fun e => ?_, hr, h.refusedEvents, ?_, h.unconfirmedEvents, h.answered, hb⟩
    · have := h.placed e
      simp only [count_append]
      omega
    · simp [h.droppedEvents]
  · refine ⟨fun e => ?_, hr, h.refusedEvents, ?_, h.unconfirmedEvents, h.answered, hb⟩
    · have := h.placed e
      simp only [count_append]
      omega
    · simp [h.droppedEvents]
  · refine { h with placed := fun e => ?_, retainedEvents := hr, bound := ?_ }
    · have := h.placed e
      simp only [count_append]
      omega
    · unfold inMemoryEvents at hl
      dsimp only at hl
      simp only [length_append, length_singleton]
      omega

theorem takePending (h : Conserved x []) : Conserved x.takePending.2 x.takePending.1 := by
  have he := takePending_events x
  have hc : eventCount x.takePending.1 =
      eventCount x.retained + (x.queue.take x.batchSize).length := by
    rw [← length_eventsOf, he, length_append, length_eventsOf]
  refine { h with placed := fun e => ?_, retainedEvents := rfl, bound := ?_ }
  · rw [he]
    have := h.placed e
    have hq := @List.count_append _ _ e (x.queue.take x.batchSize) (x.queue.drop x.batchSize)
    rw [take_append_drop] at hq
    simp only [HttpExporter.takePending, count_append] at this ⊢
    omega
  · rw [hc]
    have := h.bound
    simp only [HttpExporter.takePending, length_take, length_drop] at this ⊢
    omega

theorem retain (h : Conserved x hand) (hf : x.inFlightEvents = 0) : x.retain hand =
        { x with
          retained := hand ++ x.retained
          retainedEvents := x.retainedEvents + eventCount hand } ∧
      Conserved (x.retain hand) [] := by
  have hb := h.bound
  have hr := h.retainedEvents
  have heq := x.retain_of_le hand (by
    unfold inMemoryEvents
    omega)
  refine ⟨heq, ?_⟩
  rw [heq]
  refine { h with placed := fun e => ?_, retainedEvents := ?_, bound := ?_ }
  · have := h.placed e
    simp only [eventsOf_append, eventsOf_nil, count_append, count_nil]
    omega
  · simp only [eventCount_append]
    omega
  · simp only [eventCount_append, eventCount_nil]
    omega

theorem discard (h : Conserved x hand) : Conserved x.discardQueuedWhileSuspended hand := by
  have hr := h.retainedEvents
  refine ⟨fun e => ?_, ?_, ?_, h.droppedEvents, h.unconfirmedEvents, h.answered, ?_⟩
  · have := h.placed e
    simp only [discardQueuedWhileSuspended, eventsOf_nil, count_append, count_nil]
    omega
  · simp only [discardQueuedWhileSuspended, eventCount_nil]
    omega
  · simp [discardQueuedWhileSuspended, h.refusedEvents, Nat.add_assoc]
  · have := h.bound
    simp only [discardQueuedWhileSuspended, length_nil, eventCount_nil]
    omega

end Conserved

/-- The accounts between two steps. -/
structure Whole (x : HttpExporter ε) : Prop where
  conserved : Conserved x x.inFlight
  inFlightEvents : x.inFlightEvents = eventCount x.inFlight
  flushing : x.flush.isSome = true → x.retained = [] ∧ x.refusedCredential = none
  suspended : x.refusalStatus.isSome = x.refusedCredential.isSome

namespace Whole

variable {x y : HttpExporter ε}

theorem handleEvent (h : Whole x) (event : ε) : Whole (x.handleEvent event) := by
  have ho := h.conserved.handleEvent h.inFlightEvents event
  have hf : (x.handleEvent event).flush = x.flush := by
    unfold HttpExporter.handleEvent dropNew
    dsimp only
    split_ifs <;> rfl
  have hrs : (x.handleEvent event).inFlightEvents = x.inFlightEvents ∧
      (x.handleEvent event).retained = x.retained ∧
      (x.handleEvent event).refusedCredential = x.refusedCredential ∧
      (x.handleEvent event).refusalStatus = x.refusalStatus := by
    unfold HttpExporter.handleEvent dropNew
    dsimp only
    split_ifs <;> exact ⟨rfl, rfl, rfl, rfl⟩
  obtain ⟨hl, hr, hc, hs⟩ := hrs
  have hi : (x.handleEvent event).inFlight = x.inFlight := by
    unfold inFlight
    rw [hf]
  refine ⟨hi ▸ ho, ?_, ?_, ?_⟩
  · rw [hl, hi]
    exact h.inFlightEvents
  · rw [hf, hr, hc]
    exact h.flushing
  · rw [hs, hc]
    exact h.suspended

theorem idle {hand : List (PendingBatch ε)} (h : Conserved y hand) (hhand : hand = [])
    (hf : y.flush = none) (hl : y.inFlightEvents = 0)
    (hs : y.refusalStatus.isSome = y.refusedCredential.isSome) : Whole y := by
  subst hhand
  have hi : y.inFlight = [] := by
    unfold inFlight
    rw [hf]
  refine ⟨hi ▸ h, ?_, ?_, hs⟩
  · rw [hi, hl]
    rfl
  · rw [hf]
    nofun

theorem sendPending (h : Conserved x []) (hf : x.flush = none)
    (hc : x.refusedCredential = none) (hs : x.refusalStatus = none) (apiKey : Text) :
    Whole (x.sendPending apiKey) := by
  have ht := h.takePending
  have hm : x.takePending.2.flush = none ∧ x.takePending.2.refusedCredential = none ∧
      x.takePending.2.refusalStatus = none ∧ x.takePending.2.retained = [] ∧
      x.takePending.2.inFlightEvents = eventCount x.takePending.1 :=
    ⟨hf, hc, hs, rfl, rfl⟩
  unfold HttpExporter.sendPending
  generalize x.takePending = taken at ht hm
  obtain ⟨pending, y⟩ := taken
  obtain ⟨hl', hc', hs', hr', hf'⟩ := hm
  have hn : y.refusalStatus.isSome = y.refusedCredential.isSome := by
    rw [hc', hs']
    rfl
  cases pending with
  | nil => exact idle ht rfl hl' hf' hn
  | cons batch later =>
    dsimp only
    split_ifs with hk
    · have ho : Conserved { y with inFlightEvents := 0 } (batch :: later) := { ht with }
      obtain ⟨heq, hr⟩ := ho.retain rfl
      refine idle hr rfl ?_ ?_ ?_
      · rw [heq]
        exact hl'
      · rw [heq]
      · rw [heq]
        exact hn
    · exact ⟨{ ht with }, hf', fun _ => ⟨hr', hc'⟩, hn⟩

theorem flushUnder (h : Conserved x []) (hf : x.flush = none) (hl : x.inFlightEvents = 0)
    (hs : x.refusalStatus.isSome = x.refusedCredential.isSome) (apiKey : Text) :
    Whole (x.flushUnder apiKey) := by
  unfold HttpExporter.flushUnder
  split <;> rename_i ht
  · split_ifs with hk
    · exact idle h.discard rfl hf hl hs
    split
    · exact idle h rfl hf hl hs
    · exact idle h.discard rfl hf hl hs
    · have hr : Conserved x.resumeAfterCredentialChange [] := { h with }
      exact sendPending hr hf rfl rfl apiKey
  · have hn : x.refusalStatus = none := by simpa [exportSuspended] using ht
    rw [hn] at hs
    exact sendPending h hf (by simpa using hs.symm) hn apiKey

theorem flushOnce (h : Whole x) (hidle : x.flush = none) (apiKey : Text) :
    Whole (x.flushOnce apiKey) := by
  have hi : x.inFlight = [] := by
    unfold inFlight
    rw [hidle]
  have hc := h.conserved
  have hf := h.inFlightEvents
  rw [hi] at hc hf
  have hp : Conserved (x.present apiKey) [] := { hc with }
  exact flushUnder hp hidle hf h.suspended apiKey

theorem proceed {f : Flush ε} (h : Conserved y f.later)
    (hf : y.inFlightEvents = eventCount f.later) (hr : y.retained = [])
    (hc : y.refusedCredential = none) (hs : y.refusalStatus = none)
    (delivered : ℤ) : Whole (y.proceed f delivered) := by
  have hn : y.refusalStatus.isSome = y.refusedCredential.isSome := by
    rw [hc, hs]
    rfl
  unfold HttpExporter.proceed
  split
  · rename_i hl
    rw [hl] at h
    exact ⟨{ h with }, rfl, nofun, hn⟩
  · rename_i batch later hl
    rw [hl] at h hf
    exact ⟨{ h with }, hf, fun _ => ⟨hr, hc⟩, hn⟩

theorem stopRetaining {hand batches : List (PendingBatch ε)} (h : Conserved y hand)
    (he : eventsOf batches = eventsOf hand)
    (hs : y.refusalStatus.isSome = y.refusedCredential.isSome) :
    Whole (y.stopRetaining batches) := by
  have hre := h.rehand he
  have hc : Conserved { y with inFlightEvents := 0, flush := none } batches := { hre with }
  obtain ⟨heq, hr⟩ := hc.retain rfl
  unfold HttpExporter.stopRetaining
  refine idle hr rfl ?_ ?_ ?_
  · rw [heq]
  · rw [heq]
  · rw [heq]
    exact hs

theorem afterVerdict {f : Flush ε} {v : TelemetryDelivery.Verdict} (h : Conserved x f.rest)
    (hf : x.inFlightEvents = eventCount f.rest) (hr : x.retained = [])
    (hc : x.refusedCredential = none) (ht : x.refusalStatus = none)
    (hfits : v.toDeliveryVerdict.Fits f.batch.events.length) : Whole (x.afterVerdict f v) := by
  have hb := h.bound
  have hno : x.refusalStatus.isSome = x.refusedCredential.isSome := by
    rw [hc, ht]
    rfl
  have hl : x.inFlightEvents - f.batch.events.length = eventCount f.later := by
    rw [hf, Flush.rest, eventCount_cons]
    omega
  unfold HttpExporter.afterVerdict
  dsimp only
  unfold DeliveryVerdict.Fits at hfits
  cases ho : v.outcome with
  | suspend =>
    rw [ho] at hfits
    have hp : Conserved { x.record f .suspended with
        inFlightEvents := 0
        flush := none
        unreadableResponses :=
          if v.bodyUnreadable then x.unreadableResponses + 1 else x.unreadableResponses
        refusedItems := x.refusedItems ++ eventsOf f.rest
        refusalStatus :=
          if v.refusalStatus = some terminalRefusalStatus then v.refusalStatus
          else some terminalRefusalStatus
        refusalDetail := some terminalRefusalDetail
        refusedCredential := some f.key
        refusedEvents := x.refusedEvents + (v.refusedEvents + eventCount f.later) } [] := by
      refine { h with placed := fun e => ?_, refusedEvents := ?_, bound := ?_ }
      · have := h.placed e
        simp only [record, eventsOf_nil, count_append, count_nil]
        omega
      · simp [h.refusedEvents, hfits.1, Flush.rest]
      · simp only [record, eventCount_nil]
        omega
    refine idle hp.discard rfl rfl rfl ?_
    change (if v.refusalStatus = some terminalRefusalStatus then v.refusalStatus
      else some terminalRefusalStatus).isSome = true
    split_ifs with hs
    · rw [hs]
      rfl
    · rfl
  | retain =>
    by_cases hn : v.receiverAnswered = true
    · rw [if_pos hn]
      by_cases ha : maxUnconfirmedAttempts ≤ f.batch.unconfirmedAttempts + 1
      · rw [if_pos ha]
        refine proceed ?_ ?_ ?_ ?_ ?_ _
        rotate_left
        · exact hl
        · exact hr
        · exact hc
        · exact ht
        refine { h with placed := fun e => ?_, unconfirmedEvents := ?_, bound := ?_ }
        · have := h.placed e
          simp only [record, Flush.rest, eventsOf_cons, count_append] at this ⊢
          omega
        · simp [h.unconfirmedEvents]
        · simp only [record]
          omega
      · rw [if_neg ha]
        exact stopRetaining { h with } rfl hno
    · rw [if_neg hn]
      exact stopRetaining { h with } rfl hno
  | delivered =>
    refine proceed ?_ ?_ ?_ ?_ ?_ _
    rotate_left
    · exact hl
    · exact hr
    · exact hc
    · exact ht
    refine { h with placed := fun e => ?_, answered := ?_, bound := ?_ }
    · have := h.placed e
      simp only [record, Flush.rest, eventsOf_cons, count_append] at this ⊢
      omega
    · have := h.answered
      simp only [length_append]
      omega
    · simp only [record]
      omega

theorem sendEnd (h : Whole x) {result : SendEnd} (ht : x.sendEnd result = some y) : Whole y := by
  unfold HttpExporter.sendEnd at ht
  split at ht
  · cases ht
  rename_i f hf
  have hi : x.inFlight = f.rest := by
    unfold inFlight
    rw [hf]
  have hc := h.conserved
  have hl := h.inFlightEvents
  obtain ⟨hr, hcr⟩ := h.flushing (by rw [hf]; rfl)
  have hs : x.refusalStatus = none := by
    have := h.suspended
    rw [hcr] at this
    simpa using this
  rw [hi] at hc hl
  cases result with
  | unsendable =>
    cases ht
    refine proceed ?_ ?_ ?_ ?_ ?_ _
    rotate_left 2
    · exact hr
    · exact hcr
    · exact hs
    · have hb := hc.bound
      simp only [Flush.rest, eventCount_cons] at hb
      refine { hc with placed := fun e => ?_, droppedEvents := ?_, bound := ?_ }
      · have := hc.placed e
        simp only [Flush.rest, eventsOf_cons, count_append] at this ⊢
        omega
      · simp [hc.droppedEvents]
      · dsimp only
        omega
    · dsimp only
      rw [hl, Flush.rest, eventCount_cons]
      omega
  | raised =>
    cases ht
    refine stopRetaining { hc with } rfl ?_
    exact h.suspended
  | verdict v =>
    dsimp only at ht
    split_ifs at ht with hfits
    cases ht
    exact afterVerdict hc hl hr hcr hs hfits

theorem step (h : Whole x) {a : Step ε} (hs : x.step a = some y) : Whole y := by
  cases a with
  | handle event =>
    cases hs
    exact h.handleEvent event
  | flush apiKey =>
    simp only [HttpExporter.step] at hs
    split_ifs at hs with hf
    cases hs
    exact h.flushOnce (by simpa using hf) apiKey
  | send result => exact h.sendEnd hs

end Whole

end HttpExporter

end OriRuntime
