import OriRuntime.Execution

/-!
# The adapter lifecycle

Any number of connects and closes of one adapter, each waiting for the lifecycle lock and running
its body under it. A close announces itself by the generation before it waits; a connect samples
the generation before it waits and compares it when its body is over.
-/

namespace OriRuntime

inductive LifecycleKind
  | connect
  | close
deriving DecidableEq, Repr

inductive LifecyclePhase
  | waiting
  | body
  | releasing
  | returned
  | raised
  | refused
deriving DecidableEq, Repr

structure LifecycleCall where
  kind : LifecycleKind
  generation : ℕ
  phase : LifecyclePhase := .waiting
deriving DecidableEq, Repr

inductive LifecycleEvent
  | connectCalled (i : ℕ)
  | closeRequested (i : ℕ)
  | returned (i : ℕ)
  | raised (i : ℕ)
  | refused (i : ℕ)
deriving DecidableEq, Repr

def LifecycleEvent.isRequest : LifecycleEvent → Bool
  | .closeRequested _ => true
  | _ => false

/-- `left` says that a close body ended early and left the resource held. -/
structure AdapterState where
  connected : Bool := false
  held : Bool := false
  generation : ℕ := 0
  holder : Option ℕ := none
  left : Bool := false
  calls : List LifecycleCall := []
  log : List LifecycleEvent := []
deriving DecidableEq, Repr

namespace AdapterState

variable (s : AdapterState)

def setPhase (i : ℕ) (c : LifecycleCall) (phase : LifecyclePhase) : AdapterState :=
  { s with calls := s.calls.set i { c with phase := phase } }

def note (e : LifecycleEvent) : AdapterState := { s with log := s.log ++ [e] }

/-- The call under the lock ends. -/
def leave (i : ℕ) (c : LifecycleCall) (phase : LifecyclePhase) (e : LifecycleEvent) :
    AdapterState :=
  note { s.setPhase i c phase with holder := none } e

/-- `_connecting` up to its wait for the lock. -/
def connect : AdapterState :=
  note { s with calls := s.calls ++ [⟨.connect, s.generation, .waiting⟩] }
    (.connectCalled s.calls.length)

/-- `_closing` up to its wait for the lock. -/
def close : AdapterState :=
  note { s with
      generation := s.generation + 1
      calls := s.calls ++ [⟨.close, s.generation + 1, .waiting⟩] }
    (.closeRequested s.calls.length)

/-- A waiting call gets the lock; a connect that finds the adapter connected is refused. -/
def acquire (i : ℕ) : Option AdapterState :=
  match s.holder, s.calls[i]? with
  | none, some c =>
    if c.phase ≠ .waiting then none
    else
      match c.kind with
      | .connect =>
        if s.connected = true then some ((s.setPhase i c .refused).note (.refused i))
        else some { s.setPhase i c .body with holder := some i }
      | .close => some { s.setPhase i c .body with holder := some i, connected := false }
  | _, _ => none

/-- A call is cancelled while it waits for the lock. -/
def abandon (i : ℕ) : Option AdapterState :=
  match s.calls[i]? with
  | none => none
  | some c =>
    if c.phase ≠ .waiting then none else some ((s.setPhase i c .raised).note (.raised i))

/-- The call under the lock, in the phase it is in. -/
def underLock (phase : LifecyclePhase) (f : ℕ → LifecycleCall → Option AdapterState) :
    Option AdapterState :=
  match s.holder with
  | none => none
  | some i =>
    match s.calls[i]? with
    | none => none
    | some c => if c.phase = phase then f i c else none

def take : Option AdapterState := s.underLock .body fun _ _ => some { s with held := true }

def drop (phase : LifecyclePhase) : Option AdapterState :=
  s.underLock phase fun _ _ => some { s with held := false }

/-- A body ends: a connect's has its resource, a close's has given it back. -/
def ends : Option AdapterState :=
  s.underLock .body fun i c =>
    match c.kind with
    | .connect =>
      if s.held = false then none
      else if s.generation ≠ c.generation then some (s.setPhase i c .releasing)
      else some { s.leave i c .returned (.returned i) with connected := true, left := false }
    | .close =>
      if s.held = true then none
      else some { s.leave i c .returned (.returned i) with left := false }

/-- A body fails or is cancelled; only a connect's is followed by its release. -/
def fails : Option AdapterState :=
  s.underLock .body fun i c =>
    match c.kind with
    | .connect => some (s.setPhase i c .releasing)
    | .close => some { s.leave i c .raised (.raised i) with left := s.held }

def released : Option AdapterState :=
  s.underLock .releasing fun i c =>
    some { s.leave i c .raised (.raised i) with held := false, left := false }

end AdapterState

inductive AdapterStep
  | connect
  | close
  | acquire (i : ℕ)
  | abandon (i : ℕ)
  | take
  | drop (phase : LifecyclePhase)
  | ends
  | fails
  | released
deriving DecidableEq, Repr

def adapterStep (s : AdapterState) : AdapterStep → Option AdapterState
  | .connect => some s.connect
  | .close => some s.close
  | .acquire i => s.acquire i
  | .abandon i => s.abandon i
  | .take => s.take
  | .drop phase => s.drop phase
  | .ends => s.ends
  | .fails => s.fails
  | .released => s.released

end OriRuntime
