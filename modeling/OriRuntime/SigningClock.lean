import OriRuntime.Dict
import OriRuntime.Execution

/-!
# The signing clock

`ori/security/signing_clock.py`: a clock issues values only from ranges it has claimed in the state
store. Any number of clocks run on one store; each has one writer thread, which wants a mark, claims
up to it in one transaction, and then hands the range to the clock. The wall clock is read at each
call and may read anything.
-/

namespace OriRuntime

/-- The largest mark a 64-bit column holds, less the largest reservation. -/
def markCeiling : ℤ := 2 ^ 63 - 1 - 30000

inductive SigningRefusal where
  | unavailable
  | ahead
  deriving DecidableEq

structure SigningClock where
  durable : Bool
  reservationMs : ℤ
  last : Option ℤ := none
  ranges : List (ℤ × ℤ) := []
  deriving DecidableEq

namespace SigningClock

def start (durable : Bool) (reservationMs : ℤ) : SigningClock where
  durable := durable
  reservationMs := max 2 reservationMs

variable (c : SigningClock)

def lowWaterMs : ℤ := min 500 (c.reservationMs / 2)

/-- The wall clock, or one past the last value issued. -/
def following (wall : ℤ) : ℤ :=
  match c.last with
  | none => wall
  | some last => max wall (last + 1)

/-- `_next`: the next signing time, and why it would be refused. -/
def next (wall : ℤ) : ℤ × Option SigningRefusal :=
  let value := c.following wall
  match c.ranges.find? (fun r => decide (value ≤ r.2)) with
  | none => (value, some .unavailable)
  | some live =>
    let value := max value live.1
    if wall + c.reservationMs < value then (value, some .ahead) else (value, none)

def refusing (wall : ℤ) : Bool := c.durable && (c.next wall).2.isSome

/-- The claimed ranges that end before a value are spent. -/
def dropSpent (value : ℤ) : SigningClock :=
  { c with ranges := c.ranges.dropWhile (fun r => decide (r.2 < value)) }

def issue (wall : ℤ) : SigningClock × Except SigningRefusal ℤ :=
  let value := c.following wall
  if c.durable = false then ({ c with last := some value }, .ok value)
  else
    let live := c.dropSpent value
    match live.next wall with
    | (_, some refusal) => (live, .error refusal)
    | (value, none) => ({ live with last := some value }, .ok value)

/-- `_wanted_mark`: the mark to claim to, once less than the low water is left. -/
def wantedMark (wall : ℤ) : Option ℤ :=
  let ahead := match c.last with
    | none => wall
    | some last => if last < wall then wall else last
  if c.ranges.getLast?.any (fun r => decide (c.lowWaterMs ≤ r.2 - ahead)) then none
  else
    let mark := match c.last with
      | none => wall + c.reservationMs
      | some last => max (wall + c.reservationMs) (last + 2 * c.lowWaterMs)
    some (min mark markCeiling)

end SigningClock

/-- What the mark's column holds; a damaged store may hold no integer. -/
inductive StoredMark where
  | integer (n : ℤ)
  | other
  deriving DecidableEq

inductive ClaimFault where
  | notInteger
  | ahead
  | ceiling
  | overflow
  deriving DecidableEq

/-- The range a claim's transaction writes the end of, from the mark it reads. -/
def SigningClock.claimRange (c : SigningClock) (stored : Option StoredMark) (wanted wall : ℤ) :
    Except ClaimFault (ℤ × ℤ) :=
  let claimFrom := fun low : ℤ =>
    let wanted := max wanted (min (wall + c.reservationMs) markCeiling)
    if wall + c.reservationMs < low then .error .ahead
    else
      let high := min (max wanted (low + 2 * c.lowWaterMs - 1)) markCeiling
      if high < low then .error .ceiling
      else if high < -2 ^ 63 then .error .overflow
      else .ok (low, high)
  match stored with
  | none => claimFrom (wanted - c.reservationMs)
  | some (.integer n) => claimFrom (n + 1)
  | some .other => .error .notInteger

namespace SigningStore

/-- Where a clock's writer thread stands. -/
inductive Writer where
  | idle
  | wants (mark : ℤ)
  | claimed (range : ℤ × ℤ)
  deriving DecidableEq

structure Running where
  clock : SigningClock
  writer : Writer := .idle
  deriving DecidableEq

/-- A value a clock issued, with the wall clock it read for it. -/
structure Issued where
  clock : ℕ
  reservationMs : ℤ
  wall : ℤ
  value : ℤ
  deriving DecidableEq

structure Claim where
  clock : ℕ
  low : ℤ
  high : ℤ
  deriving DecidableEq

/-- The stored mark, the clocks running on the store, and what all clocks ever claimed and issued. -/
structure State where
  mark : Option StoredMark
  running : Dict ℕ Running := Dict.empty
  started : List ℕ := []
  claims : List Claim := []
  issued : List Issued := []

/-- A claim's transaction may commit and give its range, commit and give none, or be rolled back. A
process that ends takes its clocks with it; one that starts has new ones. -/
inductive Label where
  | start (id : ℕ) (reservationMs : ℤ)
  | issue (id : ℕ) (wall : ℤ)
  | want (id : ℕ) (wall : ℤ)
  | claim (id : ℕ) (wall : ℤ)
  | claimLost (id : ℕ) (wall : ℤ)
  | claimFailed (id : ℕ)
  | append (id : ℕ)
  | crash (id : ℕ)

/-- The upsert of the mark. -/
def raised (stored : Option StoredMark) (high : ℤ) : StoredMark :=
  match stored with
  | some (.integer n) => .integer (max n high)
  | _ => .integer high

def issueStep (s : State) (id : ℕ) (r : Running) (wall : ℤ) : State :=
  match r.clock.issue wall with
  | (clock, .error _) => { s with running := s.running.set id { r with clock := clock } }
  | (clock, .ok value) =>
    { s with running := s.running.set id { r with clock := clock }
             issued := s.issued ++ [{ clock := id, reservationMs := clock.reservationMs
                                      wall := wall, value := value }] }

def claimStep (s : State) (id : ℕ) (r : Running) (wanted wall : ℤ) (lost : Bool) : State :=
  match r.clock.claimRange s.mark wanted wall with
  | .error _ => { s with running := s.running.set id { r with writer := .idle } }
  | .ok range =>
    if lost then { s with mark := some (raised s.mark range.2)
                          running := s.running.set id { r with writer := .idle } }
    else { s with mark := some (raised s.mark range.2)
                  running := s.running.set id { r with writer := .claimed range }
                  claims := s.claims ++ [{ clock := id, low := range.1, high := range.2 }] }

def step (s : State) : Label → Option State
  | .start id reservationMs =>
    if id ∈ s.started then none
    else some { s with started := id :: s.started
                       running := s.running.set id { clock := .start true reservationMs } }
  | .issue id wall => (s.running.get? id).map (fun r => issueStep s id r wall)
  | .want id wall =>
    match s.running.get? id with
    | some { clock := clock, writer := .idle } =>
      (clock.wantedMark wall).map (fun mark =>
      { s with running := s.running.set id { clock := clock, writer := .wants mark } })
    | _ => none
  | .claim id wall =>
    match s.running.get? id with
    | some { clock := clock, writer := .wants mark } =>
      some (claimStep s id { clock := clock, writer := .wants mark } mark wall false)
    | _ => none
  | .claimLost id wall =>
    match s.running.get? id with
    | some { clock := clock, writer := .wants mark } =>
      some (claimStep s id { clock := clock, writer := .wants mark } mark wall true)
    | _ => none
  | .claimFailed id =>
    match s.running.get? id with
    | some { clock := clock, writer := .wants _ } =>
      some { s with running := s.running.set id { clock := clock } }
    | _ => none
  | .append id =>
    match s.running.get? id with
    | some { clock := clock, writer := .claimed range } =>
      let handed := { clock with ranges := clock.ranges ++ [range] }
      some { s with running := s.running.set id { clock := handed } }
    | _ => none
  | .crash id =>
    match s.running.get? id with
    | some _ => some { s with running := s.running.pop id }
    | none => none

end SigningStore

end OriRuntime
