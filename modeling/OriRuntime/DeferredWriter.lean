import OriRuntime.Execution

/-!
# The deferred writer

`DeferredWriter` of `state/deferred_writer.py`: writes are queued by `submit`, taken one after
another by the worker task `_run`, and given up by `close`. A step is what runs between two awaits:
a submission, the end of the write in flight, a turn of the worker, a turn of a `close` under way.
A write may end in any way at any time, after a cancel as well; it took effect where it returned.
-/

namespace OriRuntime

structure Pending where
  index : ℕ
  onLost : Bool
deriving DecidableEq, Repr

/-- How the awaited write ended: `transient` is what `is_transient_store_error` recognises. -/
inductive WriteEnd
  | success
  | transient
  | refused
  | cancelled
deriving DecidableEq, Repr

/-- Where the task of `_run` stands; it carries the loop's own `item`. -/
inductive Worker
  | absent
  | created
  | writing (item : Pending) (ended : Option WriteEnd)
  | sleeping (item : Pending)
  | done
deriving DecidableEq, Repr

/-- Where a call of `close` stands: in its grace, in its `gather`, or returned. -/
inductive Closer
  | waiting
  | gathering (head : Option Pending)
  | returned (stranded : ℕ)
deriving DecidableEq, Repr

def Worker.live : Worker → Bool
  | .absent | .done => false
  | .created | .writing _ _ | .sleeping _ => true

def Closer.active : Closer → Bool
  | .waiting | .gathering _ => true
  | .returned _ => false

structure DeferredWriter where
  ceiling : ℕ
  queue : List Pending := []
  task : Worker := .absent
  /-- `task.cancelling()`, and the cancellation the task has still to be thrown. -/
  cancelling : Bool := false
  mustCancel : Bool := false
  inFlight : Option Pending := none
  closed : Bool := false
  lost : ℕ := 0
  unknown : ℕ := 0
  closers : List Closer := []
  /-- What was handed over, what the store took, and what became of each item. -/
  submitted : List Pending := []
  stored : List Pending := []
  taken : List Pending := []
  lostItems : List Pending := []
  unknownItems : List Pending := []
  lossCalls : List Pending := []
deriving DecidableEq

namespace DeferredWriter

def loseItem (w : DeferredWriter) (item : Pending) : DeferredWriter :=
  { w with
    lost := w.lost + 1
    lostItems := w.lostItems ++ [item]
    lossCalls := if item.onLost then w.lossCalls ++ [item] else w.lossCalls }

def hand (w : DeferredWriter) (onLost : Bool) : Pending × DeferredWriter :=
  let item : Pending := ⟨w.submitted.length, onLost⟩
  (item, { w with submitted := w.submitted ++ [item] })

/-- `submit`; a task that is still live is kept, one that is absent or done is replaced. -/
def submit (w : DeferredWriter) (onLost : Bool) : Bool × DeferredWriter :=
  let (item, w) := w.hand onLost
  if w.closed then (false, w.loseItem item)
  else if w.ceiling ≤ w.queue.length then (false, w.loseItem item)
  else if w.task.live then (true, { w with queue := w.queue ++ [item] })
  else
    (true,
      { w with
        queue := w.queue ++ [item]
        task := .created
        cancelling := false
        mustCancel := false })

/-- `lose`: a write that never reaches the queue. -/
def lose (w : DeferredWriter) : DeferredWriter :=
  let (item, w) := w.hand false
  w.loseItem item

/-- One turn of `drain`'s loop: whether it waits for the task; it changes nothing. -/
def drainTurn (w : DeferredWriter) (remaining : Bool) : Bool :=
  !w.queue.isEmpty && remaining && w.task.live

/-- `_run` from the head of its loop to the await of the next write, or to its end. -/
def nextWrite (w : DeferredWriter) : DeferredWriter :=
  match w.queue with
  | [] => { w with task := .done }
  | item :: _ => { w with task := .writing item none, inFlight := some item }

def popLeft (w : DeferredWriter) : DeferredWriter :=
  { w with queue := w.queue.tail, inFlight := none }

/-- The end of the task, its `finally` included; the queue stays as it is. -/
def raiseCancelled (w : DeferredWriter) : DeferredWriter :=
  { w with task := .done, inFlight := none, mustCancel := false }

/-- The worker after `await write`, by what the await raised or that it returned. -/
def afterWrite (w : DeferredWriter) (item : Pending) : WriteEnd → DeferredWriter
  | .success => { w.popLeft with taken := w.taken ++ [item] }.nextWrite
  | .transient => { w with task := .sleeping item }
  | .refused => (w.popLeft.loseItem item).nextWrite
  | .cancelled =>
    if w.cancelling then w.raiseCancelled
    else (w.popLeft.loseItem item).nextWrite

/-- A turn of the worker; a pending cancellation is thrown in place of what it waited for. -/
def resume (w : DeferredWriter) : Option DeferredWriter :=
  match w.task with
  | .absent | .done | .writing _ none => none
  | .created => some (if w.mustCancel then w.raiseCancelled else w.nextWrite)
  | .writing item (some ended) =>
    some (if w.mustCancel then w.raiseCancelled else w.afterWrite item ended)
  | .sleeping _ =>
    some (if w.mustCancel then w.raiseCancelled else { w with inFlight := none }.nextWrite)

/-- The write in flight ends. -/
def finish (w : DeferredWriter) (ended : WriteEnd) : Option DeferredWriter :=
  match w.task with
  | .writing item none =>
    some
      { w with
        task := .writing item (some ended)
        stored := if ended = .success then w.stored ++ [item] else w.stored }
  | _ => none

/-- `task.cancel()`: it goes to the write where one is running, else the task will be thrown it. -/
def cancelTask (w : DeferredWriter) : DeferredWriter :=
  match w.task with
  | .absent | .done => w
  | .writing _ none => { w with cancelling := true }
  | .created | .writing _ (some _) | .sleeping _ =>
    { w with cancelling := true, mustCancel := true }

/-- The rest of `close` once the task is done. -/
def strand (w : DeferredWriter) (head : Option Pending) : ℕ × DeferredWriter :=
  let w' := { w with queue := [], inFlight := none }
  match w.queue with
  | [] => (0, w')
  | item :: rest =>
    if head = some item then
      (rest.length,
        rest.foldl loseItem
          { w' with unknown := w.unknown + 1, unknownItems := w.unknownItems ++ [item] })
    else (rest.length + 1, (item :: rest).foldl loseItem w')

def close (w : DeferredWriter) (grace : Bool) : DeferredWriter :=
  if w.task.live then
    if w.inFlight.isSome && grace then
      { w with closed := true, closers := w.closers ++ [.waiting] }
    else
      { w.cancelTask with
        closed := true
        closers := w.closers ++ [.gathering w.inFlight] }
  else
    let (stranded, w') := w.strand none
    { w' with closed := true, closers := w.closers ++ [.returned stranded] }

/-- A turn of a `close` under way: its grace ran out, or the task it waited for is done. -/
def closeTurn (w : DeferredWriter) (i : ℕ) : Option DeferredWriter :=
  match w.closers[i]? with
  | some .waiting =>
    if w.task.live then
      some { w.cancelTask with closers := w.closers.set i (.gathering w.inFlight) }
    else
      let (stranded, w') := w.strand none
      some { w' with closers := w.closers.set i (.returned stranded) }
  | some (.gathering head) =>
    if w.task.live then none
    else
      let (stranded, w') := w.strand head
      some { w' with closers := w.closers.set i (.returned stranded) }
  | _ => none

inductive Step
  | submit (onLost : Bool)
  | lose
  | drain (remaining : Bool)
  | finish (ended : WriteEnd)
  | resume
  | close (grace : Bool)
  | closeTurn (i : ℕ)
deriving DecidableEq, Repr

def step (w : DeferredWriter) : Step → Option DeferredWriter
  | .submit onLost => some (w.submit onLost).2
  | .lose => some w.lose
  | .drain _ => some w
  | .finish ended => w.finish ended
  | .resume => w.resume
  | .close grace => some (w.close grace)
  | .closeTurn i => w.closeTurn i

end DeferredWriter

end OriRuntime
