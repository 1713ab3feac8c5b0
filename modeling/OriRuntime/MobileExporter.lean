import OriRuntime.ExporterConserved

/-!
# The mobile exporter

`Exporter` of the mobile runtime's `export.rs`, over readings of any type; `none` is an unsigned
subtraction that underflows. The backoff is the caller's: it decides when a flush is called.
-/

namespace OriRuntime

open List

variable {ε : Type}

def subUnsigned (a b : ℕ) : Option ℕ := if b ≤ a then some (a - b) else none

theorem subUnsigned_of_le {a b : ℕ} (h : b ≤ a) : subUnsigned a b = some (a - b) := if_pos h

structure ExportCounters where
  droppedEvents : ℕ := 0
  declinedEvents : ℕ := 0
  duplicateEvents : ℕ := 0
  refusedEvents : ℕ := 0
  deliveredEvents : ℕ := 0
  unconfirmedEvents : ℕ := 0
  unreadableResponses : ℕ := 0
  nonconformantResponses : ℕ := 0
deriving DecidableEq

inductive FlushOutcome
  | idle
  | drained
  | retained
  | suspended
deriving DecidableEq

/-- What the sends of one flush come to: the verdict on each batch, none where it cannot be sent. -/
structure Sends (ε : Type) where
  verdict : ℕ → PendingBatch ε → Option TelemetryDelivery.Verdict
  fits : ∀ index batch v, verdict index batch = some v →
    v.toDeliveryVerdict.Fits batch.events.length

structure Exporter (ε : Type) where
  batchSize : ℕ
  maxQueueSize : ℕ
  queue : List ε := []
  retained : List (PendingBatch ε) := []
  retainedEvents : ℕ := 0
  sequence : ℕ := 0
  counters : ExportCounters := {}
  suspended : Bool := false
  /-- The batches the backstop of `retain` dropped, and those `send` was called with. -/
  stale : List (PendingBatch ε) := []
  sent : List (PendingBatch ε) := []
deriving DecidableEq

namespace Exporter

def inMemoryEvents (x : Exporter ε) : ℕ := x.queue.length + x.retainedEvents

def enqueue (x : Exporter ε) (event : ε) : Exporter ε :=
  if x.suspended then
    { x with counters := { x.counters with refusedEvents := x.counters.refusedEvents + 1 } }
  else if x.maxQueueSize ≤ x.inMemoryEvents then
    { x with counters := { x.counters with droppedEvents := x.counters.droppedEvents + 1 } }
  else { x with queue := x.queue ++ [event] }

def takePending (x : Exporter ε) : List (PendingBatch ε) × Exporter ε :=
  let pending := x.retained
  let x := { x with retained := [], retainedEvents := 0 }
  let take := min x.batchSize x.queue.length
  if 0 < take then
    (pending ++ [⟨x.sequence + 1, x.queue.take take, 0⟩],
      { x with queue := x.queue.drop take, sequence := x.sequence + 1 })
  else (pending, x)

def pushFront (batch : PendingBatch ε) (x : Exporter ε) : Exporter ε :=
  { x with
    retainedEvents := x.retainedEvents + batch.events.length
    retained := batch :: x.retained }

/-- The loop at the end of `retain`: the newest retained batch first. -/
def backstop : ℕ → Exporter ε → Option (Exporter ε)
  | 0, x => some x
  | fuel + 1, x =>
    if x.maxQueueSize < x.inMemoryEvents then
      match x.retained.getLast? with
      | none => some x
      | some stale =>
        (subUnsigned x.retainedEvents stale.events.length).bind fun left =>
        backstop fuel
          { x with
            retained := x.retained.dropLast
            retainedEvents := left
            counters :=
              { x.counters with
                droppedEvents := x.counters.droppedEvents + stale.events.length }
            stale := x.stale ++ [stale] }
    else some x

def retain (x : Exporter ε) (batches : List (PendingBatch ε)) : Option (Exporter ε) :=
  let x := batches.foldr pushFront x
  x.backstop x.retained.length

/-- The loop of `discard_everything_as_refused` over the retained batches. -/
def refuseRetained : List (PendingBatch ε) → Exporter ε → Option (Exporter ε)
  | [], x => some { x with retained := [] }
  | batch :: later, x =>
    (subUnsigned x.retainedEvents batch.events.length).bind fun left =>
    refuseRetained later
      { x with
        retainedEvents := left
        counters :=
          { x.counters with
            refusedEvents := x.counters.refusedEvents + batch.events.length } }

def discardEverythingAsRefused (x : Exporter ε) : Option (Exporter ε) :=
  (refuseRetained x.retained x).map fun x =>
    { x with
      queue := []
      counters :=
        { x.counters with refusedEvents := x.counters.refusedEvents + x.queue.length } }

/-- `suspend`, which the answers of either route call. -/
def suspend (x : Exporter ε) : Option (Exporter ε) :=
  { x with suspended := true }.discardEverythingAsRefused

/-- The loop of `flush` over the pending batches from `index` on. -/
def sendEach (sends : Sends ε) :
    ℕ → List (PendingBatch ε) → Exporter ε → Option (FlushOutcome × Exporter ε)
  | _, [], x => some (.drained, x)
  | index, batch :: later, x =>
    let n := batch.events.length
    let x := { x with sent := x.sent ++ [batch] }
    match sends.verdict index batch with
    | none =>
      sendEach sends (index + 1) later
        { x with counters := { x.counters with droppedEvents := x.counters.droppedEvents + n } }
    | some verdict =>
      match verdict.outcome with
      | .suspend =>
        let refused := verdict.refusedEvents + eventCount later
        { x with
          counters :=
            { x.counters with
              refusedEvents := x.counters.refusedEvents + refused } }.suspend.map (.suspended, ·)
      | .retain =>
        let x :=
          { x with
            counters :=
              { x.counters with
                unreadableResponses :=
                  if verdict.bodyUnreadable then x.counters.unreadableResponses + 1
                  else x.counters.unreadableResponses } }
        if verdict.receiverAnswered then
          let batch := { batch with unconfirmedAttempts := batch.unconfirmedAttempts + 1 }
          if maxUnconfirmedAttempts ≤ batch.unconfirmedAttempts then
            sendEach sends (index + 1) later
              { x with
                counters :=
                  { x.counters with unconfirmedEvents := x.counters.unconfirmedEvents + n } }
          else (x.retain (batch :: later)).map (.retained, ·)
        else (x.retain (batch :: later)).map (.retained, ·)
      | .delivered =>
        (subUnsigned n verdict.declinedEvents).bind fun stored =>
        sendEach sends (index + 1) later
          { x with
            counters :=
              { x.counters with
                duplicateEvents := x.counters.duplicateEvents + verdict.duplicateEvents
                declinedEvents := x.counters.declinedEvents + verdict.declinedEvents
                nonconformantResponses :=
                  if verdict.nonconformantBody then x.counters.nonconformantResponses + 1
                  else x.counters.nonconformantResponses
                deliveredEvents := x.counters.deliveredEvents + stored } }

def flush (x : Exporter ε) (sends : Sends ε) : Option (FlushOutcome × Exporter ε) :=
  if x.suspended then x.discardEverythingAsRefused.map (.suspended, ·)
  else
    match x.takePending with
    | ([], x) => some (.idle, x)
    | (pending, x) => x.sendEach sends 0 pending

inductive Step (ε : Type)
  | enqueue (event : ε)
  | flush (sends : Sends ε)
  /-- A terminal refusal on the sensor-status route. -/
  | suspend

def step (x : Exporter ε) : Step ε → Option (Exporter ε)
  | .enqueue event => some (x.enqueue event)
  | .flush sends => (x.flush sends).map (·.2)
  | .suspend => x.suspend

/-! ### What each operation does within the bound -/

variable {x y : Exporter ε} {hand batches : List (PendingBatch ε)}

theorem foldr_pushFront (x : Exporter ε) (batches : List (PendingBatch ε)) :
    batches.foldr pushFront x =
      { x with
        retainedEvents := x.retainedEvents + eventCount batches
        retained := batches ++ x.retained } := by
  induction batches with
  | nil => rfl
  | cons batch later ih =>
    rw [foldr_cons, ih]
    unfold pushFront
    simp only [eventCount_cons]
    congr 1
    omega

theorem backstop_of_le (h : x.inMemoryEvents ≤ x.maxQueueSize) (fuel : ℕ) :
    x.backstop fuel = some x := by
  cases fuel with
  | zero => rfl
  | succ fuel => simp only [backstop, if_neg (Nat.not_lt.mpr h)]

theorem retain_eq (h : x.inMemoryEvents + eventCount batches ≤ x.maxQueueSize) : x.retain batches =
      some { x with
        retainedEvents := x.retainedEvents + eventCount batches
        retained := batches ++ x.retained } := by
  unfold retain
  rw [foldr_pushFront]
  refine backstop_of_le ?_ _
  unfold inMemoryEvents at h ⊢
  dsimp only
  omega

theorem refuseRetained_eq (batches : List (PendingBatch ε)) (x : Exporter ε)
    (h : eventCount batches ≤ x.retainedEvents) :
    refuseRetained batches x =
      some { x with
        retained := []
        retainedEvents := x.retainedEvents - eventCount batches
        counters :=
          { x.counters with
            refusedEvents := x.counters.refusedEvents + eventCount batches } } := by
  induction batches generalizing x with
  | nil => rfl
  | cons batch later ih =>
    rw [eventCount_cons] at h ⊢
    rw [refuseRetained, subUnsigned_of_le (by omega), Option.bind_some, ih _ (by dsimp only; omega)]
    simp only [Option.some.injEq, Exporter.mk.injEq, ExportCounters.mk.injEq, true_and, and_true]
    omega

theorem discardEverythingAsRefused_eq (h : eventCount x.retained ≤ x.retainedEvents) :
    x.discardEverythingAsRefused =
      some { x with
        queue := []
        retained := []
        retainedEvents := x.retainedEvents - eventCount x.retained
        counters :=
          { x.counters with
            refusedEvents := x.counters.refusedEvents + eventCount x.retained +
              x.queue.length } } := by
  unfold discardEverythingAsRefused
  rw [refuseRetained_eq _ _ h]
  rfl

theorem suspend_eq (h : eventCount x.retained ≤ x.retainedEvents) : x.suspend =
      some { x with
        suspended := true
        queue := []
        retained := []
        retainedEvents := x.retainedEvents - eventCount x.retained
        counters :=
          { x.counters with
            refusedEvents := x.counters.refusedEvents + eventCount x.retained +
              x.queue.length } } := by
  exact discardEverythingAsRefused_eq (x := { x with suspended := true }) h

/-! ### The accounts of every run -/

/-- The accounts of the exporter while a flush holds the batches `hand`. -/
structure Sound (x : Exporter ε) (hand : List (PendingBatch ε)) : Prop where
  retainedEvents : x.retainedEvents = eventCount x.retained
  bound : x.queue.length + x.retainedEvents + eventCount hand ≤ x.maxQueueSize
  stopped : x.suspended = true → x.queue = [] ∧ x.retained = []
  stale : x.stale = []

theorem sound_new (batchSize maxQueueSize : ℕ) :
    Sound ({ batchSize, maxQueueSize } : Exporter ε) [] :=
  ⟨rfl, Nat.zero_le _, nofun, rfl⟩

theorem sent_enqueue (x : Exporter ε) (event : ε) : (x.enqueue event).sent = x.sent := by
  unfold enqueue
  split_ifs <;> rfl

namespace Sound

theorem enqueue (h : Sound x []) (event : ε) : Sound (x.enqueue event) [] := by
  unfold Exporter.enqueue
  split <;> rename_i hstop
  · exact { h with }
  split_ifs with hf
  · exact { h with }
  refine ⟨h.retainedEvents, ?_, fun hs => absurd hs hstop, h.stale⟩
  unfold inMemoryEvents at hf
  simp only [length_append, length_singleton, eventCount_nil]
  omega

theorem takePending (h : Sound x []) (hs : x.suspended = false) :
    Sound x.takePending.2 x.takePending.1 ∧ x.takePending.2.retained = [] ∧
      x.takePending.2.suspended = false := by
  have hb := h.bound
  have he := h.retainedEvents
  have ht : ∀ y : Exporter ε, y.suspended = x.suspended →
      y.suspended = true → y.queue = [] ∧ y.retained = [] := by
    intro y hy hye
    rw [hy, hs] at hye
    cases hye
  unfold Exporter.takePending
  by_cases htake : 0 < min x.batchSize x.queue.length
  · rw [if_pos htake]
    refine ⟨⟨rfl, ?_, ht _ rfl, h.stale⟩, rfl, hs⟩
    simp only [eventCount_append, eventCount_cons, eventCount_nil, length_drop, length_take]
    omega
  · rw [if_neg htake]
    refine ⟨⟨rfl, ?_, ht _ rfl, h.stale⟩, rfl, hs⟩
    dsimp only
    omega

theorem suspend (h : Sound x hand) : ∃ y, x.suspend = some y ∧ Sound y [] := by
  refine ⟨_, suspend_eq h.retainedEvents.ge, ?_, ?_, fun _ => ⟨rfl, rfl⟩, h.stale⟩
  · show x.retainedEvents - eventCount x.retained = 0
    rw [h.retainedEvents, Nat.sub_self]
  · show 0 + (x.retainedEvents - eventCount x.retained) + 0 ≤ x.maxQueueSize
    rw [h.retainedEvents, Nat.sub_self]
    exact Nat.zero_le _

theorem retain (h : Sound x hand) (hc : eventCount batches = eventCount hand)
    (hr : x.retained = []) (hs : x.suspended = false) :
    ∃ y, x.retain batches = some y ∧ Sound y [] := by
  have hb := h.bound
  refine ⟨_, retain_eq ?_, ?_, ?_, fun hy => ?_, h.stale⟩
  · unfold inMemoryEvents
    omega
  · show x.retainedEvents + eventCount batches = eventCount (batches ++ x.retained)
    rw [h.retainedEvents, hr, eventCount_nil, append_nil, Nat.zero_add]
  · show x.queue.length + (x.retainedEvents + eventCount batches) + 0 ≤ x.maxQueueSize
    omega
  · rw [show x.suspended = true from hy] at hs
    cases hs

theorem next {batch : PendingBatch ε} {later : List (PendingBatch ε)}
    (h : Sound x (batch :: later)) (counters : ExportCounters) (sent : List (PendingBatch ε)) :
    Sound { x with counters := counters, sent := sent } later := by
  have hb := h.bound
  rw [eventCount_cons] at hb
  exact { h with bound := by dsimp only; omega }

theorem recount (h : Sound x hand) (counters : ExportCounters) (sent : List (PendingBatch ε)) :
    Sound { x with counters := counters, sent := sent } hand :=
  { h with }

theorem sendEach (sends : Sends ε) (hand : List (PendingBatch ε)) (index : ℕ)
    (h : Sound x hand) (hr : x.retained = []) (hs : x.suspended = false) :
    ∃ r, x.sendEach sends index hand = some r ∧ Sound r.2 [] := by
  induction hand generalizing x index with
  | nil => exact ⟨_, rfl, h⟩
  | cons batch later ih =>
    rw [Exporter.sendEach]
    cases hv : sends.verdict index batch with
    | none => exact ih _ (h.next _ _) hr hs
    | some verdict =>
      have hfits := sends.fits index batch verdict hv
      unfold DeliveryVerdict.Fits at hfits
      dsimp only
      cases ho : verdict.outcome with
      | suspend =>
        obtain ⟨y, hy, hsn⟩ := (h.recount
          { x.counters with
            refusedEvents := x.counters.refusedEvents +
              (verdict.refusedEvents + eventCount later) } (x.sent ++ [batch])).suspend
        exact ⟨(.suspended, y), by dsimp only; rw [hy]; rfl, hsn⟩
      | retain =>
        have hkeep : ∀ batches : List (PendingBatch ε),
            eventCount batches = eventCount (batch :: later) → ∀ c : ExportCounters,
              ∃ r : FlushOutcome × Exporter ε,
                (Exporter.retain { x with counters := c, sent := x.sent ++ [batch] }
                  batches).map (FlushOutcome.retained, ·) = some r ∧ Sound r.2 [] := by
          intro batches hc c
          obtain ⟨y, hy, hsn⟩ := (h.recount c (x.sent ++ [batch])).retain hc hr hs
          exact ⟨(.retained, y), by rw [hy]; rfl, hsn⟩
        by_cases hn : verdict.receiverAnswered = true
        · rw [if_pos hn]
          by_cases ha : maxUnconfirmedAttempts ≤ batch.unconfirmedAttempts + 1
          · rw [if_pos ha]
            exact ih _ (h.next _ _) hr hs
          · rw [if_neg ha]
            exact hkeep _ (by rw [eventCount_cons, eventCount_cons]) _
        · rw [if_neg hn]
          exact hkeep _ rfl _
      | delivered =>
        rw [ho] at hfits
        rw [subUnsigned_of_le hfits.1]
        exact ih _ (h.next _ _) hr hs

theorem discard_of_suspended (h : Sound x []) (hs : x.suspended = true) :
    x.discardEverythingAsRefused = some x := by
  obtain ⟨hq, hr⟩ := h.stopped hs
  rw [discardEverythingAsRefused_eq h.retainedEvents.ge]
  cases x
  simp_all

theorem flush (h : Sound x []) (sends : Sends ε) : ∃ r, x.flush sends = some r ∧ Sound r.2 [] := by
  unfold Exporter.flush
  split_ifs with hs
  · exact ⟨_, by rw [h.discard_of_suspended hs]; rfl, h⟩
  obtain ⟨hn, hr, ht⟩ := h.takePending (Bool.eq_false_iff.mpr hs)
  cases htake : x.takePending with
  | mk pending y =>
    rw [htake] at hn hr ht
    cases pending with
    | nil => exact ⟨_, rfl, hn⟩
    | cons batch later => exact hn.sendEach sends _ 0 hr ht

theorem step (h : Sound x []) (a : Step ε) : ∃ y, x.step a = some y ∧ Sound y [] := by
  cases a with
  | enqueue event => exact ⟨_, rfl, h.enqueue event⟩
  | flush sends =>
    obtain ⟨r, hr, hs⟩ := h.flush sends
    exact ⟨r.2, by rw [Exporter.step, hr]; rfl, hs⟩
  | suspend => exact h.suspend

theorem run (h : Sound x []) (steps : List (Step ε)) :
    ∃ y, Execution.run Exporter.step x steps = some y ∧ Sound y [] := by
  induction steps generalizing x with
  | nil => exact ⟨x, rfl, h⟩
  | cons a as ih =>
    obtain ⟨y, hy, hs⟩ := h.step a
    obtain ⟨z, hz, he⟩ := ih hs
    exact ⟨z, Execution.run_cons_eq_some_iff.mpr ⟨y, hy, hz⟩, he⟩

end Sound

end Exporter

end OriRuntime
