import OriRuntime.AdapterLifecycle
import OriRuntime.Dict

/-!
# Adapters that cache what a broker delivers

A cached MQTT adapter over the adapter lifecycle: the bodies of its connects and closes, its one
listener with the reconnects it makes, the messages it handles, and its reads. A subclass is its
parser and whether silence bounds its values.
-/

namespace OriRuntime

def SILENCE_INTERVALS : ℕ := 2

def SILENCE_FLOOR_MS : ℕ := 200

def silenceBoundMs (pollIntervalMs : ℕ) : ℕ := max (SILENCE_INTERVALS * pollIntervalMs) SILENCE_FLOOR_MS

/-! ### The circuit breaker -/

inductive BreakerState
  | closed
  | opened
  | halfOpen
deriving DecidableEq, Repr

structure HardwareCircuitBreaker where
  failureThreshold : ℤ := 5
  recoveryTimeout : ℚ := 300
  successThreshold : ℤ := 2
  state : BreakerState := .closed
  failureCount : ℤ := 0
  successCount : ℤ := 0
  openedAt : Option ℚ := none
deriving DecidableEq, Repr

namespace HardwareCircuitBreaker

variable (b : HardwareCircuitBreaker)

def allowRead (now : ℚ) : Bool × HardwareCircuitBreaker :=
  match b.state with
  | .closed => (true, b)
  | .halfOpen => (true, b)
  | .opened =>
    match b.openedAt with
    | none => (false, { b with openedAt := some now })
    | some openedAt =>
      if b.recoveryTimeout ≤ now - openedAt then
        (true, { b with state := .halfOpen, successCount := 0 })
      else (false, b)

def recordSuccess : HardwareCircuitBreaker :=
  match b.state with
  | .opened => b
  | .closed => { b with failureCount := 0 }
  | .halfOpen =>
    if b.successThreshold ≤ b.successCount + 1 then
      { b with state := .closed, failureCount := 0, successCount := 0 }
    else { b with successCount := b.successCount + 1 }

def recordFailure (now : ℚ) : HardwareCircuitBreaker :=
  if b.state = .opened then b
  else if b.state = .halfOpen ∨ b.failureThreshold ≤ b.failureCount + 1 then
    { b with failureCount := b.failureCount + 1, state := .opened, openedAt := some now }
  else { b with failureCount := b.failureCount + 1 }

def recordFreshValue : HardwareCircuitBreaker :=
  { b with state := .closed, failureCount := 0, successCount := 0, openedAt := none }

end HardwareCircuitBreaker

/-! ### The adapter -/

/-- What a connect is given; `paths` is what the subclass parses with. -/
structure MqttConfig (Q : Type) where
  topic : String
  pollIntervalMs : ℕ
  failureThreshold : ℤ := 5
  recoveryTimeout : ℚ := 300
  successThreshold : ℤ := 2
  paths : Q

/-- A subclass; an exception of its parser is the reason the payload is refused for. -/
structure MqttSubclass (V R P Q : Type) where
  silenceBounded : Bool
  handle : Q → P → Except String (V × R)

structure MqttMessage (P : Type) where
  topic : String
  retain : Bool
  payload : P

inductive OpenPhase
  | idle
  | connecting
  | subscribing
  | unreached
deriving DecidableEq, Repr

inductive ListenerPhase
  | listening
  | dropped
  | backoff
  | connecting
  | subscribing
  | done
deriving DecidableEq, Repr

/-- A message the listener has handled: the connection it was delivered on, when, and the value it
was accepted for. -/
structure HandledMessage (V : Type) where
  connection : ℕ
  topic : String
  time : ℚ
  accepted : Option V

variable {V R P Q : Type}

structure MqttState (V R Q : Type) where
  life : AdapterState := {}
  config : Option (MqttConfig Q) := none
  breaker : Option HardwareCircuitBreaker := none
  opening : OpenPhase := .idle
  connections : ℕ := 0
  client : Option ℕ := none
  listener : Option ListenerPhase := none
  linkUp : Bool := false
  cache : Dict String (V × ℤ × R) := .empty
  refused : Dict String String := .empty
  arrivedAt : Dict String ℚ := .empty
  clock : ℚ := 0
  handled : List (HandledMessage V) := []

inductive MqttRefusal
  | notConnected
  | noBreaker
  | breakerOpen
  | listenerStopped
  | linkDown
  | lastRefused (reason : String)
  | nothingCached
  | noArrival
  | stale
deriving DecidableEq, Repr

namespace MqttState

variable (s : MqttState V R Q)

/-- The topic the adapter reads, once a connect has set it. -/
def topic : String := (s.config.map MqttConfig.topic).getD ""

def pollIntervalMs : ℕ := (s.config.map MqttConfig.pollIntervalMs).getD 1000

/-- `_client = await client.__aenter__()` -/
def openConnection : MqttState V R Q :=
  { s with client := some s.connections, connections := s.connections + 1 }

/-! ### Bodies of connects and closes -/

/-- `_close_mqtt` up to its first wait. -/
def closeMqtt : MqttState V R Q := { s with listener := none, linkUp := false, opening := .idle }

/-- A call gets the lifecycle lock; `config` is a connect's. -/
def acquire (i : ℕ) (config : MqttConfig Q) : Option (MqttState V R Q) :=
  match s.life.acquire i, s.life.calls[i]? with
  | some life, some c =>
    if life.holder = none then some { s with life := life }
    else
      match c.kind with
      | .close => some { s.closeMqtt with life := life }
      | .connect =>
        some
          { s with
            life := life
            config := some config
            breaker := some
              { failureThreshold := config.failureThreshold
                recoveryTimeout := config.recoveryTimeout
                successThreshold := config.successThreshold }
            opening := .connecting }
  | _, _ => none

/-- `_open_client` at start has its client and goes on to subscribe. -/
def enter : Option (MqttState V R Q) :=
  if s.opening = .connecting then some { s.openConnection with opening := .subscribing } else none

/-- `_open_client` at start leaves no client behind. -/
def openFails : Option (MqttState V R Q) :=
  match s.opening with
  | .connecting => some { s with opening := .unreached }
  | .subscribing => some { s with opening := .unreached, client := none }
  | _ => none

/-- The connect body ends: the listener is started, and given back at once where a close was
requested while the connect was running. -/
def opened : Option (MqttState V R Q) :=
  match s.opening, s.life.take.bind AdapterState.ends with
  | .subscribing, some life =>
    if life.connected = true then
      some { s with life := life, opening := .idle, linkUp := true, listener := some .listening }
    else some { s.closeMqtt with life := life }
  | .unreached, some life =>
    if life.connected = true then
      some { s with life := life, opening := .idle, linkUp := false, listener := some .backoff }
    else some { s.closeMqtt with life := life }
  | _, _ => none

/-- The connect body fails or is cancelled: its release begins. -/
def connectFails : Option (MqttState V R Q) :=
  if s.opening = .idle then none
  else
    match s.life.fails with
    | none => none
    | some life => some { s.closeMqtt with life := life }

/-- `_close_mqtt_quietly`, in a close body or in a release. -/
def clientClosed : Option (MqttState V R Q) :=
  if s.opening ≠ .idle ∨ s.life.holder = none then none else some { s with client := none }

def released : Option (MqttState V R Q) :=
  if s.opening ≠ .idle then none
  else
    match s.life.released with
    | none => none
    | some life => some { s with life := life }

def closeEnds : Option (MqttState V R Q) :=
  if s.opening ≠ .idle then none
  else
    match (s.life.drop .body).bind AdapterState.ends with
    | none => none
    | some life => some { s with life := life }

/-- A close body is cancelled while it waits for its listener or its client. -/
def closeFails : Option (MqttState V R Q) :=
  if s.opening ≠ .idle then none
  else
    match s.life.fails with
    | none => none
    | some life => some { s with life := life }

/-! ### The listener -/

def refuseTopic (topic reason : String) : MqttState V R Q :=
  { s with
    cache := s.cache.pop topic
    arrivedAt := s.arrivedAt.pop topic
    refused := s.refused.set topic reason }

def cacheValue (topic : String) (value : V) (wall : ℤ) (raw : R) : MqttState V R Q :=
  { s with
    cache := s.cache.set topic (value, wall, raw)
    arrivedAt := s.arrivedAt.set topic s.clock
    refused := s.refused.pop topic
    breaker := s.breaker.map HardwareCircuitBreaker.recordFreshValue }

def noteHandled (h : HandledMessage V) : MqttState V R Q := { s with handled := s.handled ++ [h] }

/-- One message of `_listen_loop`, delivered on the connection `client`. -/
def handle (sub : MqttSubclass V R P Q) (m : MqttMessage P) (wall : ℤ) : Option (MqttState V R Q) :=
  match s.listener, s.client, s.config with
  | some .listening, some connection, some config =>
    if m.retain = true then some s
    else
      match sub.handle config.paths m.payload with
      | .error reason =>
        some ((s.refuseTopic m.topic reason).noteHandled ⟨connection, m.topic, s.clock, none⟩)
      | .ok (value, raw) =>
        some ((s.cacheValue m.topic value wall raw).noteHandled
          ⟨connection, m.topic, s.clock, some value⟩)
  | _, _, _ => none

def markLinkDown : MqttState V R Q :=
  { s with linkUp := false, cache := .empty, arrivedAt := .empty, refused := .empty }

/-- `_listen_loop` has ended: the broker dropped the connection. -/
def drop : Option (MqttState V R Q) :=
  if s.listener = some .listening then some { s.markLinkDown with listener := some .dropped }
  else none

/-- `_supervise` between a drop and the next connection. -/
def supervise (ok : Bool) : Option (MqttState V R Q) :=
  match s.listener with
  | some .dropped => some { s with client := none, listener := some .backoff }
  | some .backoff => some { s with listener := some .connecting }
  | some .connecting =>
    if ok = true then some { s.openConnection with listener := some .subscribing }
    else some { s with listener := some .backoff }
  | some .subscribing =>
    if ok = true then some { s with linkUp := true, listener := some .listening }
    else some { s with client := none, listener := some .backoff }
  | _ => none

/-- The listener task ends by an exception that `_supervise` does not catch. -/
def listenerDies : Option (MqttState V R Q) :=
  match s.listener with
  | none => none
  | some _ => some { s with listener := some .done }

/-! ### Reads -/

def requireListener : Except MqttRefusal Unit :=
  if s.listener = none ∨ s.listener = some .done then .error .listenerStopped
  else if s.linkUp = false then .error .linkDown
  else .ok ()

def cachedValue (topic : String) : Except MqttRefusal (V × ℤ × R) :=
  match s.cache.get? topic with
  | some cached => .ok cached
  | none =>
    match s.refused.get? topic with
    | some reason => .error (.lastRefused reason)
    | none => .error .nothingCached

def requireFresh (silenceBounded : Bool) (topic : String) : Except MqttRefusal Unit :=
  if silenceBounded = false then .ok ()
  else
    match s.arrivedAt.get? topic with
    | none => .error .noArrival
    | some arrivedAt =>
      if 0 ≤ (s.clock - arrivedAt) * 1000 ∧
          (s.clock - arrivedAt) * 1000 ≤ (silenceBoundMs s.pollIntervalMs : ℚ) then .ok ()
      else .error .stale

def serve (silenceBounded : Bool) : Except MqttRefusal (V × ℤ × R) :=
  match s.cachedValue s.topic with
  | .error e => .error e
  | .ok cached =>
    match s.requireFresh silenceBounded s.topic with
    | .error e => .error e
    | .ok _ => .ok cached

/-- `read`, and the breaker it leaves. -/
def read (silenceBounded : Bool) : Except MqttRefusal (V × ℤ × R) × MqttState V R Q :=
  if s.life.connected = false then (.error .notConnected, s)
  else
    match s.breaker with
    | none => (.error .noBreaker, s)
    | some b =>
      if (b.allowRead s.clock).1 = false then
        (.error .breakerOpen, { s with breaker := some (b.allowRead s.clock).2 })
      else
        match s.requireListener with
        | .error e =>
          (.error e, { s with breaker := some ((b.allowRead s.clock).2.recordFailure s.clock) })
        | .ok _ =>
          (s.serve silenceBounded, { s with breaker := some (b.allowRead s.clock).2.recordSuccess })

end MqttState

inductive MqttStep (P Q : Type)
  | connect
  | close
  | abandon (i : ℕ)
  | acquire (i : ℕ) (config : MqttConfig Q)
  | enter
  | openFails
  | opened
  | connectFails
  | clientClosed
  | released
  | closeEnds
  | closeFails
  | handle (m : MqttMessage P) (wall : ℤ)
  | drop
  | supervise (ok : Bool)
  | listenerDies
  | read
  | tick (seconds : ℚ)

def mqttStep (sub : MqttSubclass V R P Q) (s : MqttState V R Q) :
    MqttStep P Q → Option (MqttState V R Q)
  | .connect => some { s with life := s.life.connect }
  | .close => some { s with life := s.life.close }
  | .abandon i => (s.life.abandon i).map fun life => { s with life := life }
  | .acquire i config => s.acquire i config
  | .enter => s.enter
  | .openFails => s.openFails
  | .opened => s.opened
  | .connectFails => s.connectFails
  | .clientClosed => s.clientClosed
  | .released => s.released
  | .closeEnds => s.closeEnds
  | .closeFails => s.closeFails
  | .handle m wall => s.handle sub m wall
  | .drop => s.drop
  | .supervise ok => s.supervise ok
  | .listenerDies => s.listenerDies
  | .read => some (s.read sub.silenceBounded).2
  | .tick seconds => if 0 ≤ seconds then some { s with clock := s.clock + seconds } else none

end OriRuntime
