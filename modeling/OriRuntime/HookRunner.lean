import OriRuntime.Execution
import OriRuntime.Json

/-!
# The skill hook runner

Hooks run on one thread fed by a bounded queue, each with a deadline. The awaiting side, the hook
thread and the closers share an item only through its two flags and its future; a hook's writes are
held back and written key by key once its result is accepted.
-/

namespace OriRuntime

inductive HookOutcome (ρ : Type)
  | result (r : ρ)
  | failed
deriving DecidableEq, Repr

/-- Where a call is: with the queue, the hook thread or a closer. -/
inductive HookPhase
  | rejected
  | queued
  | taken
  | starting
  | running
  | returned
  | committing (todo : List (Text × Text))
  | clearing
  | ended
deriving DecidableEq, Repr

/-- Where the task that awaits the call is. -/
inductive HookWait (ρ : Type)
  | waiting
  | committing
  | returned (r : ρ)
  | raised
deriving DecidableEq, Repr

inductive CallEvent
  | started (atMs : ℤ)
  | withdrawn
deriving DecidableEq, Repr

structure HookCall (ρ : Type) where
  deadline : ℤ
  phase : HookPhase := .queued
  cancelled : Bool := false
  accepted : Bool := false
  hook : Option (ρ × List (Text × Text)) := none
  written : List (Text × Text) := []
  posted : Option (HookOutcome ρ) := none
  done : Option (HookOutcome ρ) := none
  wait : HookWait ρ := .waiting
  history : List CallEvent := []
deriving DecidableEq, Repr

namespace HookCall

variable {ρ : Type} (c : HookCall ρ)

/-- `_Item.cancelled` is set. -/
def withdraw : HookCall ρ :=
  { c with cancelled := true, history := c.history ++ [.withdrawn] }

def cancel : HookCall ρ := if c.accepted = true then c else c.withdraw

/-! ### The hook thread -/

/-- The check under the item's lock before the hook is called. -/
def startable (nowMs : ℤ) : Bool := !c.cancelled && decide (nowMs ≤ c.deadline)

def start (nowMs : ℤ) : HookCall ρ :=
  if c.startable nowMs = true then
    { c with phase := .starting, history := c.history ++ [.started nowMs] }
  else { c.withdraw with phase := .ended, posted := some .failed }

def hookReturns (r : ρ) (writes : List (Text × Text)) : HookCall ρ :=
  { c with phase := .returned, hook := some (r, writes) }

def hookRaises : HookCall ρ := { c with phase := .clearing, posted := some .failed }

/-- `_Item.accept` -/
def acceptable (nowMs : ℤ) : Bool := !c.cancelled && decide (nowMs ≤ c.deadline)

def accept (nowMs : ℤ) : HookCall ρ :=
  if c.acceptable nowMs = true then
    { c with accepted := true, phase := .committing ((c.hook.map Prod.snd).getD []) }
  else { c.withdraw with phase := .clearing, posted := some .failed }

/-- `BufferedHookState.commit`, one key after another. -/
def write : Option (HookCall ρ) :=
  match c.phase with
  | .committing (kv :: todo) =>
    some { c with written := c.written ++ [kv], phase := .committing todo }
  | _ => none

def writeFails : Option (HookCall ρ) :=
  match c.phase with
  | .committing (_ :: _) => some { c with phase := .clearing, posted := some .failed }
  | _ => none

def commitDone : Option (HookCall ρ) :=
  match c.phase, c.hook with
  | .committing [], some (r, _) =>
    some { c with phase := .clearing, posted := some (.result r) }
  | _, _ => none

/-! ### The event loop -/

/-- What `_settle` posted reaches the future, unless that is done. -/
def apply : Option (HookCall ρ) :=
  match c.posted with
  | none => none
  | some outcome =>
    some { c with posted := none, done := if c.done.isSome then c.done else some outcome }

def resume : Option (HookCall ρ) :=
  match c.wait, c.done with
  | .waiting, some (.result r) | .committing, some (.result r) => some { c with wait := .returned r }
  | .waiting, some .failed | .committing, some .failed => some { c with wait := .raised }
  | _, _ => none

/-- The deadline of the awaiting side: an accepted result is still awaited. -/
def timeOut : HookCall ρ :=
  if c.accepted = true then { c with wait := .committing } else { c.withdraw with wait := .raised }

end HookCall

inductive HookCounter
  | skippedSaturated
  | timedOut
  | expiredUnstarted
  | discarded
  | lostAtShutdown
deriving DecidableEq, Repr

inductive HookCloserPhase
  | draining
  | waiting
  | returned
deriving DecidableEq, Repr

/-- A call of `close`; it returns the number of what it lost. -/
structure HookCloser where
  phase : HookCloserPhase := .draining
  lost : List (Option ℕ) := []
  running : Option ℕ := none
deriving DecidableEq, Repr

/-- `counted` lists what each counter counted, and for which call. -/
structure HookState (ρ : Type) where
  nowMs : ℤ
  closed : Bool := false
  alive : Bool := false
  queue : List (Option ℕ) := []
  worker : Option ℕ := none
  current : Option ℕ := none
  calls : List (HookCall ρ) := []
  closers : List HookCloser := []
  counted : List (HookCounter × Option ℕ) := []
deriving DecidableEq, Repr

namespace HookState

variable {ρ : Type} (s : HookState ρ)

def set (id : ℕ) (c : HookCall ρ) : HookState ρ := { s with calls := s.calls.set id c }

def count (counter : HookCounter) (id : Option ℕ) : HookState ρ :=
  { s with counted := s.counted ++ [(counter, id)] }

def counter (k : HookCounter) : ℕ := s.counted.countP (fun e => decide (e.1 = k))

def onCall (id : ℕ) (f : HookCall ρ → Option (HookCall ρ)) : Option (HookState ρ) :=
  match s.calls[id]? with
  | none => none
  | some c =>
    match f c with
    | none => none
    | some c' => some (s.set id c')

/-- The hook thread works on the call it took, in the phase it is in. -/
def onWorker (phase : HookPhase) (f : ℕ → HookCall ρ → HookState ρ) : Option (HookState ρ) :=
  match s.worker with
  | none => none
  | some id =>
    match s.calls[id]? with
    | none => none
    | some c => if c.phase = phase then some (f id c) else none

/-- `HookRunner.run` up to its first await. -/
def submit (capacity : ℕ) (timeoutMs : ℤ) : HookState ρ :=
  if s.closed = true then
    { s with calls := s.calls ++ [{ deadline := s.nowMs, phase := .rejected, wait := .raised }] }
  else if capacity ≤ s.queue.length then
    count { s with
      calls := s.calls ++ [{ deadline := s.nowMs, phase := .rejected, wait := .raised }] }
      .skippedSaturated (some s.calls.length)
  else
    { s with
      calls := s.calls ++ [{ deadline := s.nowMs + timeoutMs }]
      queue := s.queue ++ [some s.calls.length]
      alive := true }

/-! ### The hook thread -/

def take : Option (HookState ρ) :=
  match s.alive, s.worker, s.queue with
  | true, none, some id :: rest =>
    match s.calls[id]? with
    | none => none
    | some c =>
      some { s.set id { c with phase := .taken } with queue := rest, worker := some id }
  | true, none, none :: rest => some { s with queue := rest, alive := false }
  | _, _, _ => none

def start : Option (HookState ρ) :=
  s.onWorker .taken fun id c =>
    if c.startable s.nowMs = true then s.set id (c.start s.nowMs)
    else { s.set id (c.start s.nowMs) with worker := none }.count .expiredUnstarted (some id)

def enter : Option (HookState ρ) :=
  s.onWorker .starting fun id c =>
    { s.set id { c with phase := .running } with current := some id }

def hookReturns (r : ρ) (writes : List (Text × Text)) : Option (HookState ρ) :=
  s.onWorker .running fun id c => s.set id (c.hookReturns r writes)

def hookRaises : Option (HookState ρ) :=
  s.onWorker .running fun id c => s.set id c.hookRaises

def accept : Option (HookState ρ) :=
  s.onWorker .returned fun id c =>
    if c.acceptable s.nowMs = true then s.set id (c.accept s.nowMs)
    else (s.set id (c.accept s.nowMs)).count .discarded (some id)

def onCommit (f : HookCall ρ → Option (HookCall ρ)) : Option (HookState ρ) :=
  match s.worker with
  | none => none
  | some id => s.onCall id f

def clear : Option (HookState ρ) :=
  s.onWorker .clearing fun id c =>
    { s.set id { c with phase := .ended } with worker := none, current := none }

/-! ### The event loop -/

def resume (id : ℕ) : Option (HookState ρ) := s.onCall id HookCall.resume

def timeOut (id : ℕ) : Option (HookState ρ) :=
  match s.calls[id]? with
  | none => none
  | some c =>
    match c.wait with
    | .waiting =>
      if s.nowMs < c.deadline then none
      else if c.accepted = true then some (s.set id c.timeOut)
      else some ((s.set id c.timeOut).count .timedOut (some id))
    | _ => none

/-- The task that awaits the call is cancelled; the call is not told. -/
def cancelTask (id : ℕ) : Option (HookState ρ) :=
  s.onCall id fun c =>
    match c.wait with
    | .waiting | .committing => some { c with wait := .raised }
    | _ => none

/-! ### Closing -/

def close : HookState ρ := { s with closed := true, closers := s.closers ++ [{}] }

def setCloser (i : ℕ) (k : HookCloser) : HookState ρ := { s with closers := s.closers.set i k }

/-- The closer returns, its losses counted. -/
def closeReturns (i : ℕ) (k : HookCloser) : HookState ρ :=
  { s.setCloser i { k with phase := .returned } with
    counted := s.counted ++ k.lost.map fun id => (.lostAtShutdown, id) }

def drain (i : ℕ) : Option (HookState ρ) :=
  match s.closers[i]? with
  | none => none
  | some k =>
    if k.phase = .draining then
      match s.queue with
      | some id :: rest =>
        match s.calls[id]? with
        | none => none
        | some c =>
          some ({ s.set id { c.cancel with phase := .ended, posted := some .failed } with
            queue := rest }.setCloser i { k with lost := k.lost ++ [some id] })
      | none :: rest => some { s with queue := rest }
      | [] =>
        if s.alive = true then
          some ({ s with queue := [none] }.setCloser i
            { k with phase := .waiting, running := s.current })
        else some (s.closeReturns i k)
    else none

/-- The thread has ended within the closer's wait. -/
def joined (i : ℕ) : Option (HookState ρ) :=
  match s.closers[i]? with
  | none => none
  | some k =>
    if k.phase = .waiting ∧ s.alive = false then some (s.closeReturns i k) else none

/-- The item a closer abandons: the one now running, else the one it saw running. -/
def abandoned (k : HookCloser) : Option ℕ := s.current.or k.running

/-- The closer's wait is over and the thread has not ended. -/
def expire (i : ℕ) : Option (HookState ρ) :=
  match s.closers[i]? with
  | none => none
  | some k =>
    if k.phase = .waiting ∧ s.alive = true then
      match s.abandoned k with
      | none => some (s.closeReturns i { k with lost := k.lost ++ [none] })
      | some id =>
        match s.calls[id]? with
        | none => none
        | some c =>
          some ((s.set id c.cancel).closeReturns i { k with lost := k.lost ++ [some id] })
    else none

end HookState

inductive HookStep (ρ : Type)
  | tick (elapsedMs : ℕ)
  | submit (timeoutMs : ℤ)
  | take
  | start
  | enter
  | hookReturns (r : ρ) (writes : List (Text × Text))
  | hookRaises
  | accept
  | write
  | writeFails
  | commitDone
  | clear
  | apply (id : ℕ)
  | resume (id : ℕ)
  | timeOut (id : ℕ)
  | cancelTask (id : ℕ)
  | close
  | drain (i : ℕ)
  | joined (i : ℕ)
  | expire (i : ℕ)
deriving DecidableEq, Repr

def hookStep {ρ : Type} (capacity : ℕ) (s : HookState ρ) : HookStep ρ → Option (HookState ρ)
  | .tick elapsedMs => some { s with nowMs := s.nowMs + elapsedMs }
  | .submit timeoutMs => some (s.submit capacity timeoutMs)
  | .take => s.take
  | .start => s.start
  | .enter => s.enter
  | .hookReturns r writes => s.hookReturns r writes
  | .hookRaises => s.hookRaises
  | .accept => s.accept
  | .write => s.onCommit HookCall.write
  | .writeFails => s.onCommit HookCall.writeFails
  | .commitDone => s.onCommit HookCall.commitDone
  | .clear => s.clear
  | .apply id => s.onCall id HookCall.apply
  | .resume id => s.resume id
  | .timeOut id => s.timeOut id
  | .cancelTask id => s.cancelTask id
  | .close => some s.close
  | .drain i => s.drain i
  | .joined i => s.joined i
  | .expire i => s.expire i

end OriRuntime
