import OriRuntime.Dict
import OriRuntime.Execution
import OriRuntime.Json

/-!
# The replay cache of gateway envelopes

`GatewayReplayCache` of `ori/security/gateway_messages.py`, as a cache that stores: held keys and the
raised floor, each change of them one transaction of the store beside it. A heap is the list it pops
in order. A store failure names the statement it stops at; its transaction is rolled back.
-/

namespace OriRuntime

/-- A clock in milliseconds stays below this, so a longer memory is one for ever. -/
def longestMeaningfulMs : ℤ := 2 ^ 53

inductive ReplayRefusal where
  | staleTimestamp
  | futureTimestamp
  | beforeReplayFloor
  | replayDetected
  deriving DecidableEq

/-! ### The store -/

structure StoredKey where
  seenUntilMs : ℤ
  signedAtMs : Option ℤ
  receivedAtMs : Option ℤ
  deriving DecidableEq

structure ReplayStore where
  rows : Dict Text StoredKey := Dict.empty
  floorMs : Option ℤ := none

/-- The greater of a floor and a value; none is below every value. -/
def raisedTo (floor : Option ℤ) (value : ℤ) : ℤ :=
  match floor with
  | none => value
  | some f => max f value

/-! ### Memory -/

structure GatewayReplayCache where
  ttlMs : ℤ
  maxSkewMs : ℤ
  maxEntries : ℕ
  startFloor : ℤ
  held : Dict Text (ℤ × ℤ) := Dict.empty
  expiries : List (ℤ × Text) := []
  signings : List (ℤ × Text) := []
  raisedFloor : Option ℤ := none
  connected : Bool := false
  unreadable : Bool := false

abbrev DroppedKey := Text × ℤ × ℤ

namespace GatewayReplayCache

/-- A cache before its store is opened. -/
def created (ttlMs maxSkewMs maxEntries startMs : ℤ) : GatewayReplayCache where
  ttlMs := min (max 1 ttlMs) longestMeaningfulMs
  maxSkewMs := min (max 0 maxSkewMs) longestMeaningfulMs
  maxEntries := (max 1 maxEntries).toNat
  startFloor := startMs

variable (c : GatewayReplayCache)

/-- The floor in force, the store being readable. -/
def floor : ℤ := raisedTo c.raisedFloor c.startFloor

def refusal (key : Text) (signedAtMs : ℤ) : Option ReplayRefusal :=
  if c.unreadable ∨ signedAtMs < c.floor then some .beforeReplayFloor
  else if (c.held.get? key).isSome then some .replayDetected
  else none

/-- The first clock reading at which a key may be dropped. -/
def expiry (signedAtMs receivedAtMs : ℤ) : ℤ :=
  min (max (signedAtMs + c.maxSkewMs + 1) (receivedAtMs + c.ttlMs)) longestMeaningfulMs

def heapLe (a b : ℤ × Text) : Prop := a.1 < b.1 ∨ a.1 = b.1 ∧ a.2 ≤ b.2

instance (a b : ℤ × Text) : Decidable (heapLe a b) := inferInstanceAs (Decidable (_ ∨ _))

def hold (key : Text) (expiry signedAtMs : ℤ) : GatewayReplayCache :=
  { c with held := c.held.set key (expiry, signedAtMs)
           expiries := c.expiries.orderedInsert heapLe (expiry, key)
           signings := c.signings.orderedInsert heapLe (signedAtMs, key) }

/-- A held key leaves and the floor is raised past its signing time, in one step. -/
def drop (key : Text) (entry : ℤ × ℤ) : GatewayReplayCache :=
  { c with held := c.held.pop key, raisedFloor := some (raisedTo c.raisedFloor (entry.2 + 1)) }

def mergeFloor (stored : Option ℤ) : GatewayReplayCache :=
  match stored with
  | none => c
  | some floor => { c with raisedFloor := some (raisedTo c.raisedFloor floor) }

/-- Each heap is rebuilt once its entries of dropped keys outnumber the live ones. -/
def compact : GatewayReplayCache :=
  let limit := 2 * c.held.items.length + 64
  { c with
    signings := if limit < c.signings.length then
        (c.held.items.map (fun item => (item.2.2, item.1))).insertionSort heapLe
      else c.signings
    expiries := if limit < c.expiries.length then
        (c.held.items.map (fun item => (item.2.1, item.1))).insertionSort heapLe
      else c.expiries }

/-- Pops the expiries up to the clock, and drops the keys held under them. -/
def pruneFrom (currentMs : ℤ) : GatewayReplayCache → List (ℤ × Text) → List DroppedKey →
    GatewayReplayCache × List DroppedKey
  | c, [], dropped => ({ c with expiries := [] }, dropped)
  | c, (expiry, key) :: rest, dropped =>
    if currentMs < expiry then ({ c with expiries := (expiry, key) :: rest }, dropped)
    else
      match c.held.get? key with
      | some entry =>
        if entry.1 = expiry then
          pruneFrom currentMs (c.drop key entry) rest (dropped ++ [(key, entry)])
        else pruneFrom currentMs c rest dropped
      | none => pruneFrom currentMs c rest dropped

/-- `_prune_locked`. -/
def pruned (currentMs : ℤ) : GatewayReplayCache × List DroppedKey :=
  let (c', dropped) := pruneFrom currentMs c c.expiries []
  (c'.compact, dropped)

/-- Pops signing times until one is a held key's, which is dropped. -/
def evictFrom : GatewayReplayCache → List (ℤ × Text) → Option (GatewayReplayCache × DroppedKey)
  | _, [] => none
  | c, (signedAtMs, key) :: rest =>
    match c.held.get? key with
    | some entry =>
      if entry.2 = signedAtMs then some ({ c with signings := rest }.drop key entry, (key, entry))
      else evictFrom c rest
    | none => evictFrom c rest

/-- `_evict_locked`. -/
def evict : Option (GatewayReplayCache × DroppedKey) := evictFrom c c.signings

/-- As many evictions as a loop bounded by the number of held keys makes. -/
def evictMany : ℕ → GatewayReplayCache → List DroppedKey → GatewayReplayCache × List DroppedKey
  | 0, c, dropped => (c, dropped)
  | n + 1, c, dropped =>
    match c.evict with
    | none => (c, dropped)
    | some (c', d) => evictMany n c' (dropped ++ [d])

/-- Undoes drops the store did not take. -/
def restore (dropped : List DroppedKey) (prior : Option ℤ) : GatewayReplayCache :=
  { dropped.foldl (fun c d => c.hold d.1 d.2.1 d.2.2) c with raisedFloor := prior }

end GatewayReplayCache

/-! ### Changes of the store -/

namespace ReplayStore

/-- `_write_change`: dropped rows deleted with the floor raised, and one key written. -/
def writeChange (st : ReplayStore) (dropped : List Text) (raised : Option ℤ)
    (held : Option (Text × StoredKey)) : ReplayStore where
  rows :=
    let kept := dropped.foldl (fun rows key => rows.pop key) st.rows
    match held with
    | none => kept
    | some (key, row) => kept.set key row
  floorMs := if dropped = [] then st.floorMs else raised.map (fun r => raisedTo st.floorMs r)

/-- The rows an opening rewrote under its own skew and window. -/
def rewrite (st : ReplayStore) (rewritten : List (Text × ℤ × ℤ)) : ReplayStore :=
  let update := fun (rows : Dict Text StoredKey) (r : Text × ℤ × ℤ) =>
    match rows.get? r.1 with
    | none => rows
    | some row => rows.set r.1 { row with seenUntilMs := r.2.1, signedAtMs := some r.2.2 }
  { st with rows := rewritten.foldl update st.rows }

end ReplayStore

/-- Where a transaction of the running cache fails. -/
inductive StoreFailure where
  | begin
  | floor
  | find
  | write
  deriving DecidableEq

/-- Where opening a store fails: before anything is loaded, in the transaction that rewrites it, or
after. -/
inductive OpenFailure where
  | load
  | rewrite
  | after
  deriving DecidableEq

namespace GatewayReplayCache

variable (c : GatewayReplayCache)

def enterUnreadable : GatewayReplayCache := { c with unreadable := true }

/-- `_admit_stored`: the drops made by then, and the store and refusal it commits, or none where it
fails. -/
def admitStored (st : ReplayStore) (key : Text) (signedAtMs receivedAtMs : ℤ)
    (dropped : List DroppedKey) (reason : Option ReplayRefusal) (failure : Option StoreFailure) :
    GatewayReplayCache × List DroppedKey × Option (ReplayStore × Option ReplayRefusal) :=
  if c.connected = false ∨ failure = some .begin then (c, dropped, none)
  else if reason.isSome then
    if failure = some .write then (c, dropped, none)
    else (c, dropped, some (st.writeChange (dropped.map (·.1)) c.raisedFloor none, reason))
  else if failure = some .floor then (c, dropped, none)
  else
    let merged := c.mergeFloor st.floorMs
    if signedAtMs < merged.floor then
      if failure = some .write then (merged, dropped, none)
      else (merged, dropped, some (st.writeChange (dropped.map (·.1)) merged.raisedFloor none,
        some .beforeReplayFloor))
    else if failure = some .find then (merged, dropped, none)
    else if (st.rows.get? key).isSome then
      if failure = some .write then (merged, dropped, none)
      else (merged, dropped, some (st.writeChange (dropped.map (·.1)) merged.raisedFloor none,
        some .replayDetected))
    else
      let (evicted, dropped') := evictMany (merged.held.items.length + 1 - merged.maxEntries) merged
        dropped
      let compacted := evicted.compact
      if failure = some .write then (compacted, dropped', none)
      else (compacted, dropped', some (st.writeChange (dropped'.map (·.1)) compacted.raisedFloor
        (some (key, { seenUntilMs := compacted.expiry signedAtMs receivedAtMs
                      signedAtMs := some signedAtMs, receivedAtMs := some receivedAtMs })), none))

/-- Checks 3 and 4 and, when both hold, the key held, as one step. -/
def admitKey (st : ReplayStore) (key : Text) (signedAtMs receivedAtMs currentMs : ℤ)
    (failure : Option StoreFailure) : GatewayReplayCache × ReplayStore × Option ReplayRefusal :=
  if c.unreadable then (c, st, some .beforeReplayFloor)
  else
    let (c', dropped) := c.pruned currentMs
    let reason := c'.refusal key signedAtMs
    if reason.isSome ∧ dropped = [] then (c', st, reason)
    else
      match c'.admitStored st key signedAtMs receivedAtMs dropped reason failure with
      | (c'', dropped', none) =>
        ((c''.restore dropped' c.raisedFloor).enterUnreadable, st, some .beforeReplayFloor)
      | (c'', _, some (st', some refused)) => (c'', st', some refused)
      | (c'', _, some (st', none)) =>
        (c''.hold key (c''.expiry signedAtMs receivedAtMs) signedAtMs, st', none)

/-- `_settle`: drops and their raise written, or every key kept when that fails. -/
def settle (st : ReplayStore) (dropped : List DroppedKey) (prior : Option ℤ) (fails : Bool) :
    GatewayReplayCache × ReplayStore :=
  if dropped = [] then (c, st)
  else if c.connected = false ∨ fails then ((c.restore dropped prior).enterUnreadable, st)
  else (c, st.writeChange (dropped.map (·.1)) c.raisedFloor none)

def prune (st : ReplayStore) (currentMs : ℤ) (fails : Bool) : GatewayReplayCache × ReplayStore :=
  if c.unreadable then (c, st)
  else
    let (c', dropped) := c.pruned currentMs
    c'.settle st dropped c.raisedFloor fails

def evictOne (st : ReplayStore) (fails : Bool) : GatewayReplayCache × ReplayStore :=
  if c.unreadable then (c, st)
  else
    match c.evict with
    | none => (c, st)
    | some (c', d) => c'.compact.settle st [d] c.raisedFloor fails

/-! ### Opening -/

/-- The signing time of a stored row; `keyTime` reads it from a key written without one. -/
def rowSignedAtMs (keyTime : Text → Option ℤ) (key : Text) (row : StoredKey) : ℤ :=
  match row.signedAtMs with
  | some signedAtMs => signedAtMs
  | none =>
    match keyTime key with
    | some signedAtMs =>
      if longestMeaningfulMs < |signedAtMs| then row.seenUntilMs - c.maxSkewMs - 1 else signedAtMs
    | none => row.seenUntilMs - c.maxSkewMs - 1

/-- A row's expiry under this cache's skew and window, never shortened where no receipt is kept. -/
def rowExpiry (signedAtMs : ℤ) (row : StoredKey) : ℤ :=
  match row.receivedAtMs with
  | some receivedAtMs => c.expiry signedAtMs receivedAtMs
  | none => min (max row.seenUntilMs (signedAtMs + c.maxSkewMs + 1)) longestMeaningfulMs

/-- Every stored row held. -/
def load (keyTime : Text → Option ℤ) (rows : List (Text × StoredKey)) : GatewayReplayCache :=
  rows.foldl (fun c row =>
    let signedAtMs := c.rowSignedAtMs keyTime row.1 row.2
    c.hold row.1 (c.rowExpiry signedAtMs row.2) signedAtMs) c

/-- The rows whose columns change under this cache. -/
def rewritten (keyTime : Text → Option ℤ) (rows : List (Text × StoredKey)) :
    List (Text × ℤ × ℤ) :=
  (rows.map (fun row =>
    let signedAtMs := c.rowSignedAtMs keyTime row.1 row.2
    ((row.1, c.rowExpiry signedAtMs row.2, signedAtMs), row.2))).filterMap (fun r =>
      if r.1.2.1 ≠ r.2.seenUntilMs ∨ r.2.signedAtMs = none then some r.1 else none)

/-- `_connect`: the cache and the store it leaves. -/
def connect (keyTime : Text → Option ℤ) (st : ReplayStore) (failure : Option OpenFailure) :
    GatewayReplayCache × ReplayStore :=
  if failure = some .load then (c, st)
  else
    let loaded := (c.mergeFloor st.floorMs).load keyTime st.rows.items
    let (evicted, dropped) := evictMany (loaded.held.items.length - loaded.maxEntries) loaded []
    let kept := (c.rewritten keyTime st.rows.items).filter (fun r =>
      (evicted.held.get? r.1).isSome)
    if kept = [] ∧ dropped = [] then
      ({ evicted with connected := decide (failure ≠ some .after) }, st)
    else if failure = some .rewrite then (evicted.restore dropped loaded.raisedFloor, st)
    else ({ evicted with connected := decide (failure ≠ some .after) },
      (st.rewrite kept).writeChange (dropped.map (·.1)) evicted.raisedFloor none)

/-- A cache starts refusing when its store does not open. -/
def start (keyTime : Text → Option ℤ) (ttlMs maxSkewMs maxEntries startMs : ℤ) (st : ReplayStore)
    (failure : Option OpenFailure) : GatewayReplayCache × ReplayStore :=
  let (c, st') := (created ttlMs maxSkewMs maxEntries startMs).connect keyTime st failure
  (if c.connected then c else c.enterUnreadable, st')

/-- `_apply_probe`: the store opened where it was not, else the floor read merged; then it is
readable. -/
def applyProbe (keyTime : Text → Option ℤ) (st : ReplayStore) (floor : Option ℤ)
    (failure : Option OpenFailure) : GatewayReplayCache × ReplayStore :=
  if c.connected then ({ c.mergeFloor floor with unreadable := false }, st)
  else
    let (c', st') := c.connect keyTime st failure
    (if c'.connected then { c' with unreadable := false } else c'.enterUnreadable, st')

end GatewayReplayCache

/-! ### Receivers -/

namespace GatewayMessages

/-- An envelope that verified, its key not yet recorded. -/
structure AuthenticatedMessage where
  replayKey : Text
  atMs : ℤ
  deriving DecidableEq

/-- What outlives a process is its store. -/
structure State where
  store : ReplayStore
  cache : Option GatewayReplayCache := none
  authenticated : List AuthenticatedMessage := []
  probed : Option (Option ℤ) := none
  admitted : List Text := []

/-- Calls of a receiver's threads, each under the cache's lock; a refresh reads the store outside it
and applies what it read later. An envelope is its replay key: its signature has verified. -/
inductive Label where
  | start (ttlMs maxSkewMs maxEntries startMs : ℤ) (failure : Option OpenFailure)
  | stop
  | authenticate (key : Text) (currentMs : ℤ)
  | commit (m : AuthenticatedMessage) (currentMs : ℤ) (failure : Option StoreFailure)
  | verifyBroadcast (key : Text) (currentMs : ℤ) (failure : Option StoreFailure)
  | prune (currentMs : ℤ) (fails : Bool)
  | evictOne (fails : Bool)
  | probe (fails : Bool)
  | applyProbe (failure : Option OpenFailure)

/-- What a key's fields say: its signing time, and what `int` reads of its last field but one. -/
structure ReplayKeys where
  signedAtMs : Text → ℤ
  keyTime : Text → Option ℤ

variable (p : ReplayKeys)

/-- `_freshness`, both ends inclusive. -/
def freshness (c : GatewayReplayCache) (signedAtMs currentMs : ℤ) : Option ReplayRefusal :=
  if signedAtMs < currentMs - c.maxSkewMs then some .staleTimestamp
  else if currentMs + c.maxSkewMs < signedAtMs then some .futureTimestamp
  else none

/-- `_verify` past the signature: fresh, then checks 3 and 4 without recording. -/
def authenticate (c : GatewayReplayCache) (key : Text) (currentMs : ℤ) : Option ReplayRefusal :=
  match freshness c (p.signedAtMs key) currentMs with
  | some reason => some reason
  | none => c.refusal key (p.signedAtMs key)

def commit (c : GatewayReplayCache) (st : ReplayStore) (m : AuthenticatedMessage) (currentMs : ℤ)
    (failure : Option StoreFailure) : GatewayReplayCache × ReplayStore × Option ReplayRefusal :=
  c.admitKey st m.replayKey (p.signedAtMs m.replayKey) m.atMs currentMs failure

/-- `_verify_broadcast` past the signature: fresh, then recorded. -/
def verifyBroadcast (c : GatewayReplayCache) (st : ReplayStore) (key : Text) (currentMs : ℤ)
    (failure : Option StoreFailure) : GatewayReplayCache × ReplayStore × Option ReplayRefusal :=
  match freshness c (p.signedAtMs key) currentMs with
  | some reason => (c, st, some reason)
  | none => c.admitKey st key (p.signedAtMs key) currentMs currentMs failure

/-- The state after an admission of `key`, which counts when it was not refused. -/
def State.record (s : State) (key : Text)
    (r : GatewayReplayCache × ReplayStore × Option ReplayRefusal) : State :=
  { s with cache := some r.1, store := r.2.1
           admitted := if r.2.2 = none then s.admitted ++ [key] else s.admitted }

def State.settled (s : State) (r : GatewayReplayCache × ReplayStore) : State :=
  { s with cache := some r.1, store := r.2 }

def step (s : State) : Label → Option State
  | .start ttlMs maxSkewMs maxEntries startMs failure =>
    match s.cache with
    | some _ => none
    | none => some (s.settled
        (GatewayReplayCache.start p.keyTime ttlMs maxSkewMs maxEntries startMs s.store failure))
  | .stop => some { s with cache := none, authenticated := [], probed := none }
  | .authenticate key currentMs =>
    s.cache.map (fun c =>
    if authenticate p c key currentMs = none then
      { s with authenticated := s.authenticated ++ [{ replayKey := key, atMs := currentMs }] }
    else s)
  | .commit m currentMs failure =>
    if m ∈ s.authenticated then
      s.cache.map (fun c => s.record m.replayKey (commit p c s.store m currentMs failure))
    else none
  | .verifyBroadcast key currentMs failure =>
    s.cache.map (fun c => s.record key (verifyBroadcast p c s.store key currentMs failure))
  | .prune currentMs fails => s.cache.map (fun c => s.settled (c.prune s.store currentMs fails))
  | .evictOne fails => s.cache.map (fun c => s.settled (c.evictOne s.store fails))
  | .probe fails =>
    match s.cache, s.probed with
    | some c, none =>
      if fails then some { s with cache := some c.enterUnreadable }
      else some { s with probed := some s.store.floorMs }
    | _, _ => none
  | .applyProbe failure =>
    match s.cache, s.probed with
    | some c, some floor =>
      some { s.settled (c.applyProbe p.keyTime s.store floor failure) with probed := none }
    | _, _ => none

end GatewayMessages

end OriRuntime
