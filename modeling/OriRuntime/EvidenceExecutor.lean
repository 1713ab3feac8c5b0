import OriRuntime.Execution

/-!
# The evidence executor

One worker thread owns the evidence state; calls reach it through a queue. A close claims the
shutdown, from another thread by queueing its teardown, from the worker by running it inline. The
steps below are those of any number of threads, the worker among them.
-/

namespace OriRuntime

inductive Lifecycle
  | opened
  | closing
  | closed
deriving DecidableEq, Repr

inductive FutureState
  | waiting
  | running
  | finished
  | cancelled
deriving DecidableEq, Repr

def FutureState.done : FutureState → Bool
  | .waiting | .running => false
  | .finished | .cancelled => true

/-- A call the worker took on; `recorded` once its done callback has run. -/
structure EvidenceCall where
  future : FutureState := .waiting
  awaited : Bool
  attached : Bool := false
  recorded : Bool := false
deriving DecidableEq, Repr

inductive WorkItem
  | call (id : ℕ)
  | teardown
deriving DecidableEq, Repr

/-- What the worker is in the middle of, innermost first. -/
inductive Frame
  | call (id : ℕ)
  | inline
  | teardown
  | settling
deriving DecidableEq, Repr

inductive TeardownPhase
  | absent
  | queued
  | running
  | finished
deriving DecidableEq, Repr

inductive CloserPhase
  | claimed (teardown : Bool)
  | joining
  | waiting
  | returned
  | timedOut
deriving DecidableEq, Repr

inductive ExecutorEvent
  | started (id : ℕ)
  | inlineStarted
  | teardownStarted
  | teardownFinished
  | closeReturned
deriving DecidableEq, Repr

def ExecutorEvent.isStart : ExecutorEvent → Bool
  | .started _ | .inlineStarted => true
  | _ => false

structure ExecutorState where
  lifecycle : Lifecycle
  pending : ℕ
  calls : List EvidenceCall
  queue : List WorkItem
  frames : List Frame
  teardown : TeardownPhase
  closers : List CloserPhase
  log : List ExecutorEvent
deriving DecidableEq, Repr

namespace ExecutorState

def pendingCeiling : ℕ := 256

def initial : ExecutorState := ⟨.opened, 0, [], [], [], .absent, [], []⟩

variable (s : ExecutorState)

def setCall (id : ℕ) (c : EvidenceCall) : ExecutorState := { s with calls := s.calls.set id c }

def setCloser (i : ℕ) (p : CloserPhase) : ExecutorState := { s with closers := s.closers.set i p }

def note (e : ExecutorEvent) : ExecutorState := { s with log := s.log ++ [e] }

/-- The worker runs code of a call, an inline call or the teardown. -/
def busy : Bool :=
  match s.frames with
  | .call _ :: _ | .inline :: _ | .teardown :: _ => true
  | _ => false

/-! ### Calls -/

/-- `_submit` and `run_async`: refused past OPEN and past the ceiling. -/
def submit (awaited : Bool) : ExecutorState :=
  if s.lifecycle ≠ .opened then s
  else if pendingCeiling ≤ s.pending then s
  else
    { s with
      pending := s.pending + 1
      calls := s.calls ++ [{ awaited := awaited }]
      queue := s.queue ++ [.call s.calls.length] }

/-- `_finished` -/
def recordEnd (id : ℕ) (c : EvidenceCall) : ExecutorState :=
  { s.setCall id { c with attached := true, recorded := true } with pending := s.pending - 1 }

/-- `add_done_callback` runs the callback of a future already done. -/
def attach (id : ℕ) : Option ExecutorState :=
  match s.calls[id]? with
  | none => none
  | some c =>
    if c.attached = true then none
    else if c.future.done = true then some (s.recordEnd id c)
    else some (s.setCall id { c with attached := true })

def callback (id : ℕ) : Option ExecutorState :=
  match s.calls[id]? with
  | none => none
  | some c =>
    if c.attached = true ∧ c.future.done = true ∧ c.recorded = false then some (s.recordEnd id c)
    else none

/-- A cancelled wait cancels a future the worker has not taken. -/
def cancel (id : ℕ) : Option ExecutorState :=
  match s.calls[id]? with
  | none => none
  | some c =>
    if c.awaited = true ∧ c.attached = true then
      some (if c.future = .waiting then s.setCall id { c with future := .cancelled } else s)
    else none

/-- `run` on the worker: refused once CLOSED, else inline. -/
def inlineRun : Option ExecutorState :=
  if s.busy = false then none
  else if s.lifecycle = .closed then some s
  else some ({ s with frames := .inline :: s.frames }.note .inlineStarted)

/-! ### The worker -/

def take : Option ExecutorState :=
  match s.frames, s.queue with
  | [], .call id :: rest =>
    match s.calls[id]? with
    | none => none
    | some c =>
      if c.future = .waiting then
        some ({ s.setCall id { c with future := .running } with
          queue := rest, frames := [.call id] }.note (.started id))
      else some { s with queue := rest }
  | [], .teardown :: rest =>
    some ({ s with queue := rest, frames := [.teardown], teardown := .running }.note
      .teardownStarted)
  | _, _ => none

/-- The innermost code of the worker returns or raises. -/
def finish : Option ExecutorState :=
  match s.frames with
  | [] => none
  | .call id :: frames =>
    match s.calls[id]? with
    | none => none
    | some c => some { s.setCall id { c with future := .finished } with frames := frames }
  | .inline :: frames => some { s with frames := frames }
  | .teardown :: frames =>
    some ({ s with frames := frames, teardown := .finished }.note .teardownFinished)
  | .settling :: frames =>
    some ({ s with frames := frames, lifecycle := .closed }.note .closeReturned)

/-! ### Closing -/

/-- `close` from a thread other than the worker. -/
def close (teardown : Bool) : ExecutorState :=
  match s.lifecycle with
  | .opened =>
    { s with
      lifecycle := .closing
      queue := if teardown = true then s.queue ++ [.teardown] else s.queue
      teardown := if teardown = true then .queued else .absent
      closers := s.closers ++ [.claimed teardown] }
  | .closing => { s with closers := s.closers ++ [.waiting] }
  | .closed =>
    ({ s with closers := s.closers ++ [.returned] } : ExecutorState).note .closeReturned

/-- The closer in progress has its teardown's result, if it queued one. -/
def settle (i : ℕ) : Option ExecutorState :=
  match s.closers[i]? with
  | some (.claimed teardown) =>
    if teardown = true ∧ s.teardown ≠ .finished then none
    else some { s.setCloser i .joining with lifecycle := .closed }
  | _ => none

/-- `shutdown` has joined the worker. -/
def join (i : ℕ) : Option ExecutorState :=
  if s.closers[i]? = some .joining ∧ s.frames = [] ∧ s.queue = [] then
    some ((s.setCloser i .returned).note .closeReturned)
  else none

def wake (i : ℕ) : Option ExecutorState :=
  if s.closers[i]? = some .waiting ∧ s.lifecycle = .closed then
    some ((s.setCloser i .returned).note .closeReturned)
  else none

def timeOut (i : ℕ) : Option ExecutorState :=
  if s.closers[i]? = some .waiting then some (s.setCloser i .timedOut) else none

/-- `close` from the worker: the teardown runs inline, and nothing is waited for. -/
def closeHere (teardown : Bool) : Option ExecutorState :=
  if s.busy = false then none
  else
    match s.lifecycle with
    | .opened =>
      if teardown = true then
        some ({ s with
          lifecycle := .closing
          frames := .teardown :: .settling :: s.frames
          teardown := .running }.note .teardownStarted)
      else some { s with lifecycle := .closing, frames := .settling :: s.frames }
    | .closing | .closed => some (s.note .closeReturned)

end ExecutorState

inductive ExecutorStep
  | submit (awaited : Bool)
  | attach (id : ℕ)
  | callback (id : ℕ)
  | cancel (id : ℕ)
  | inlineRun
  | take
  | finish
  | close (teardown : Bool)
  | settle (i : ℕ)
  | join (i : ℕ)
  | wake (i : ℕ)
  | timeOut (i : ℕ)
  | closeHere (teardown : Bool)
deriving DecidableEq, Repr

def executorStep (s : ExecutorState) : ExecutorStep → Option ExecutorState
  | .submit awaited => some (s.submit awaited)
  | .attach id => s.attach id
  | .callback id => s.callback id
  | .cancel id => s.cancel id
  | .inlineRun => s.inlineRun
  | .take => s.take
  | .finish => s.finish
  | .close teardown => some (s.close teardown)
  | .settle i => s.settle i
  | .join i => s.join i
  | .wake i => s.wake i
  | .timeOut i => s.timeOut i
  | .closeHere teardown => s.closeHere teardown

end OriRuntime
