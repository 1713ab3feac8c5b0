import OriRuntime.FirmwareLifecycle

/-!
# Confirming an epoch across the stores

`FirmwareConfirmationCoordinator.confirm` of `ori/security/firmware/confirmation.py`, suspended at
each of its awaits among the anchor lifecycle, the allocations of sequences and an evidence store
whose active epochs change on their own. A moment is the number of transitions recorded by then.
-/

namespace OriRuntime

namespace Confirmation

open FirmwareStore (DeviceRead AnchorOp)

/-- What a readback of the evidence store brought. -/
inductive ReadBack where
  | epoch (e : Text)
  | nothing
  | failed
  deriving DecidableEq

/-- The row a call decides under, and the moment it was read. -/
structure Grant where
  device : DeviceRead
  readAt : ℕ
  deriving DecidableEq

/-- Where a call is suspended. A readback under way holds the moment it began and, once its worker
has read, what it read. -/
inductive ConfirmPhase where
  | reading
  | status (g : Grant)
  | attributing (g : Grant)
  | readingBack (g : Grant) (began : ℕ) (pushed : Bool) (seen : Option ReadBack)
  | pushing (g : Grant)
  | recording (g : Grant)
  | resolving (g : Grant) (began : ℕ) (chainEpoch : Text)
  | done (answer : ConfirmationStatus)

structure ConfirmCall where
  deviceId : Text
  phase : ConfirmPhase := .reading

/-- An obligation a call resolved: the epoch it read back, when that readback began, and when the
obligation was resolved. -/
structure Resolution where
  deviceId : Text
  grant : Grant
  began : ℕ
  readBack : Text
  resolvedAt : ℕ

structure State where
  store : FirmwareStore := {}
  /-- The active epoch of each device at the evidence store. -/
  evidence : Dict Text Text := Dict.empty
  calls : List ConfirmCall := []
  resolved : List Resolution := []

def Grant.epoch (g : Grant) : Text := g.device.device.anchorEpochId

/-- The first checks of a call. -/
def begin (st : FirmwareStore) (deviceId : Text) : ConfirmPhase :=
  match st.getFirmwareDevice deviceId with
  | none => .done .confirmationPending
  | some device =>
    if device.device.approved = false ∨ device.device.revoked then .done .confirmationPending
    else if device.device.anchorEpochId = [] then .done .confirmationPending
    else .status { device := device, readAt := st.transitions.length }

/-- What a finished readback leads to. -/
def readBackAnswered (g : Grant) (began : ℕ) (pushed : Bool) : ReadBack → ConfirmPhase
  | .failed => .recording g
  | .epoch e => .resolving g began e
  | .nothing => if pushed then .recording g else .pushing g

structure Resumed where
  store : FirmwareStore
  phase : ConfirmPhase
  resolved : Option Resolution := none

/-- `_decide`: the obligation resolved, where it is still pending. -/
def decided (st : FirmwareStore) (deviceId : Text) (g : Grant) (began : ℕ) (chainEpoch : Text)
    (atMs : ℤ) : Resumed :=
  let status : ConfirmationStatus := if chainEpoch = g.epoch then .confirmed else .quarantined
  { store := st.resolveFirmwareConfirmation deviceId g.epoch status atMs
    phase := .done status
    resolved :=
      if st.confirmationStatus deviceId g.epoch = some .confirmationPending then
        some { deviceId := deviceId, grant := g, began := began, readBack := chainEpoch
               resolvedAt := st.transitions.length }
      else none }

/-- A call resumed: `fails` is the push raising. -/
def resume (st : FirmwareStore) (c : ConfirmCall) (fails : Bool) (atMs : ℤ) : Option Resumed :=
  match c.phase with
  | .reading => some { store := st, phase := begin st c.deviceId }
  | .status g =>
    match st.confirmationStatus c.deviceId g.epoch with
    | some .confirmed => some { store := st, phase := .done .confirmed }
    | some .quarantined => some { store := st, phase := .done .quarantined }
    | _ => some { store := st, phase := .attributing g }
  | .attributing g =>
    match st.activePromotionAttribution c.deviceId with
    | none => some { store := st, phase := .recording g }
    | some _ => some { store := st, phase := .readingBack g st.transitions.length false none }
  | .readingBack _ _ _ none => none
  | .readingBack g began pushed (some r) =>
    some { store := st, phase := readBackAnswered g began pushed r }
  | .pushing g =>
    if fails then some { store := st, phase := .recording g }
    else some { store := st, phase := .readingBack g st.transitions.length true none }
  | .recording g =>
    some { store := st.recordFirmwareConfirmationAttempt c.deviceId g.epoch atMs
           phase := .done .confirmationPending }
  | .resolving g began chainEpoch => some (decided st c.deviceId g began chainEpoch atMs)
  | .done _ => none

/-- A readback's worker reads the evidence store, or fails. -/
def observe (evidence : Dict Text Text) (c : ConfirmCall) (fails : Bool) : Option ConfirmPhase :=
  match c.phase with
  | .readingBack g began pushed none =>
    some (.readingBack g began pushed (some
      (if fails then .failed
       else match evidence.get? c.deviceId with
        | none => .nothing
        | some e => .epoch e)))
  | _ => none

inductive Label where
  | lifecycle (op : AnchorOp)
  | evidence (deviceId : Text) (epoch : Option Text)
  | confirm (deviceId : Text)
  | resume (i : ℕ) (fails : Bool) (atMs : ℤ)
  | observe (i : ℕ) (fails : Bool)
  | allocateRuntime (deviceId capabilityHash : Text)
  | allocateCommand (deviceId : Text) (anchor : AnchorColumns)
  | allocateProvision (deviceId expectedEpoch : Text) (allowRevoked : Bool)
  | restart

/-- The store once a sequence is allocated. -/
def allocated (s : State) (r : Except FirmwareStore.SeqError (ℤ × FirmwareStore)) : Option State :=
  match r with
  | .error _ => none
  | .ok (_, st) => some { s with store := st }

variable (k : FirmwareKeys)

def step (s : State) : Label → Option State
  | .lifecycle op => (s.store.perform k op).map (fun st => { s with store := st })
  | .evidence deviceId none => some { s with evidence := s.evidence.pop deviceId }
  | .evidence deviceId (some e) => some { s with evidence := s.evidence.set deviceId e }
  | .confirm deviceId => some { s with calls := s.calls ++ [{ deviceId := deviceId }] }
  | .resume i fails atMs =>
    match s.calls[i]? with
    | none => none
    | some c =>
      (resume s.store c fails atMs).map (fun r =>
      { s with store := r.store, calls := s.calls.set i { c with phase := r.phase }
               resolved := s.resolved ++ r.resolved.toList })
  | .observe i fails =>
    match s.calls[i]? with
    | none => none
    | some c =>
      (observe s.evidence c fails).map (fun phase =>
      { s with calls := s.calls.set i { c with phase := phase } })
  | .allocateRuntime deviceId capabilityHash =>
    allocated s (s.store.allocateFirmwareRuntimeSeq deviceId capabilityHash)
  | .allocateCommand deviceId anchor =>
    allocated s (s.store.allocateFirmwareCommandSeq deviceId anchor)
  | .allocateProvision deviceId expectedEpoch allowRevoked =>
    allocated s (s.store.allocateFirmwareProvisionSeq deviceId expectedEpoch allowRevoked)
  | .restart => some { s with calls := [] }

end Confirmation

end OriRuntime
