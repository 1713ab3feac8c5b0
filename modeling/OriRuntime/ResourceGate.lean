import OriRuntime.Dict
import OriRuntime.ResourceIdentity

/-!
# The resource gate

`ori/reasoning/resource_gate.py`: one runtime-global gate deciding what may drive a resource, and
when. Every operation takes the gate's lock for its whole body, so each is one atomic step from a
gate to a gate. Records are shared objects in the source; here every record ever created sits in
`heap` and a token is its index there, while `records` says which of them holds a resource now.
The scope of an admission is carried per task in the source and is an argument here.
-/

namespace OriRuntime

inductive HolderState where
  | reserved
  | proposal
  | running
  | uncertain
  | retired
  deriving DecidableEq, Repr

inductive Admission where
  | admitted
  | joined
  | refused
  | preemptedHolder
  deriving DecidableEq, Repr

inductive RefusalReason where
  | opposingEqualTier
  | opposingHigherTierHolds
  | opposingActRunning
  | opposingCommandUncertain
  | foreclosedByCompletedAct
  | proposalInvalidated
  | proposalNoLongerHeld
  | unresolvedSafetyConflict
  deriving DecidableEq, Repr

/-- One trigger's claim on an admitted act. `recordFuture` is the identity of the holder's pending
record and is only ever compared. -/
structure Contributor where
  skillName : String
  triggerName : String
  action : String
  dispatchTier : String
  correlationId : String := ""
  tierDGranted : Bool := false
  recordKey : String := ""
  recordFuture : Option ℕ := none
  scope : String := ""
  deriving DecidableEq, Repr

/-- What one event's completed act still forecloses, kept apart from the record. -/
structure Entry where
  identity : ResourceIdentity
  tier : String
  entered : Bool
  ran : Bool
  holdsTierD : Bool
  asked : Bool := false
  contributors : List Contributor := []
  deriving DecidableEq, Repr

def Entry.forecloses (e : Entry) : Bool := e.entered

structure Record where
  identity : ResourceIdentity
  tier : String
  state : HolderState
  contributors : List Contributor
  proposalId : String := ""
  invalidated : Bool := false
  result : Option Bool := none
  scope : String := ""
  entered : Bool := false
  asked : Bool := false
  entries : Dict String Entry := Dict.empty
  done : Bool := false
  deriving DecidableEq

def Record.holdsTierD (r : Record) : Bool := r.contributors.any (·.tierDGranted)

inductive Token where
  | record (t : ℕ)
  | entry (e : Entry)
  deriving DecidableEq

structure GateDecision where
  admission : Admission
  reason : Option RefusalReason := none
  token : Option Token := none
  displaced : Option ℕ := none
  safetyConflict : Bool := false
  deriving DecidableEq

def GateDecision.mayExecute (d : GateDecision) : Bool :=
  decide (d.admission = .admitted ∨ d.admission = .preemptedHolder)

/-- The recorded gate decisions, with the fields the source logs for each kind. -/
inductive Suppression where
  | refused (resource : List String) (reason : RefusalReason) (contributor : String)
      (holder : Option String) (latched : Option Bool) (holderAlsoRefused : Bool)
  | safetyConflict (resource : List String) (arriving contributor : String)
  | coalesced (resource : List String) (holderState : Option HolderState) (contributor : String)
  | proposalInvalidated (resource : List String) (byTrigger proposalId : String)
  | preempted (resource : List String) (holder byTrigger : String)
  | lateReplyRefused (resource : List String) (proposalId : String) (reason : RefusalReason)
  | commandUncertain (resource : List String) (outcome : String)
  | commandResolved (resource : List String) (accepted : Bool)
  deriving DecidableEq, Repr

def suppressionHistory : ℕ := 256

/-- The recent-history window: the last `suppressionHistory` events. -/
@[irreducible] def recentHistory (events : List Suppression) : List Suppression :=
  events.drop (events.length - suppressionHistory)

structure Gate where
  records : Dict (List String) ℕ := Dict.empty
  heap : List Record := []
  scopes : Dict String (List Entry) := Dict.empty
  suppressions : List Suppression := []
  deriving DecidableEq

namespace Gate

def recordEvent (g : Gate) (e : Suppression) : Gate :=
  { g with suppressions := recentHistory (g.suppressions ++ [e]) }

def openScope (g : Gate) (scope : String) : Gate :=
  { g with scopes := g.scopes.setdefault scope [] }

def closeScope (g : Gate) (scope : String) : Gate := { g with scopes := g.scopes.pop scope }

/-- The record in the way of a request on `key`: a retired one is not. -/
def holder (g : Gate) (key : List String) : Option (ℕ × Record) :=
  match g.records.get? key with
  | none => none
  | some t =>
    match g.heap[t]? with
    | none => none
    | some r => if r.state = .retired then none else some (t, r)

/-- The open events' entries that an act of `identity` would contradict. -/
def opposingEntries (g : Gate) (identity : ResourceIdentity) : List Entry :=
  g.scopes.values.flatten.filter (fun e =>
    e.forecloses && decide (e.identity.resourceKey = identity.resourceKey) &&
      opposes e.identity identity)

def refusal (g : Gate) (identity : ResourceIdentity) (reason : RefusalReason)
    (contributor : Contributor) (holder : Option String := none) (latched : Option Bool := none)
    (holderAlsoRefused : Bool := false) : Gate × GateDecision :=
  (g.recordEvent (.refused identity.resourceKey reason contributor.triggerName holder latched
    holderAlsoRefused), { admission := .refused, reason := some reason })

/-- Rules 1 to 3 of the decision order, before any join. -/
def refuseOpposing (g : Gate) (holder : Option (ℕ × Record)) (identity : ResourceIdentity)
    (tier : String) (contributor : Contributor) : Option (Gate × GateDecision) :=
  let arrivingD := decide (tierRank "D" ≤ tierRank tier)
  let entries := g.opposingEntries identity
  let holderOpposes := holder.any (fun h => opposes h.2.identity identity)
  if arrivingD && (holder.any (fun h => opposes h.2.identity identity && h.2.holdsTierD) ||
      entries.any (·.holdsTierD)) then
    some (g.recordEvent (.safetyConflict identity.resourceKey identity.desiredOutcome
      contributor.triggerName),
      { admission := .refused, reason := some .unresolvedSafetyConflict, safetyConflict := true })
  else if holderOpposes && holder.any (fun h => decide (h.2.state = .uncertain)) then
    some (g.refusal identity .opposingCommandUncertain contributor)
  else
    match entries.filter (fun e => decide (tierRank tier ≤ tierRank e.tier)) with
    | [] => none
    | e :: _ =>
      some (g.refusal identity .foreclosedByCompletedAct contributor
        (some e.identity.desiredOutcome))

/-- Join a completed act of the requester's own event. Tier D joins only an act that ran; below
it, a proposal whose operator was asked and whose executor was never entered is joined too. -/
def joinCompleted (g : Gate) (scope : String) (identity : ResourceIdentity) (tier : String)
    (contributor : Contributor) : Option (Gate × GateDecision) :=
  let arrivingD := decide (tierRank "D" ≤ tierRank tier)
  match g.scopes.get? scope with
  | none => none
  | some entries =>
    match entries.find? (fun e => decide (e.identity.joinKey = identity.joinKey) &&
        (e.ran || (!arrivingD && !e.entered && e.asked))) with
    | none => none
    | some e =>
      let g' := if e.ran then
          { g with scopes := g.scopes.set scope (entries ++
            [{ identity := e.identity, tier := tier, entered := true, ran := true,
               holdsTierD := contributor.tierDGranted, contributors := e.contributors }]) }
        else g
      some (g'.recordEvent (.coalesced identity.resourceKey none contributor.triggerName),
        { admission := .joined, token := some (.entry e) })

def admitEntry (g : Gate) (scope : String) (identity : ResourceIdentity) (tier : String)
    (contributor : Contributor) (awaitsOperator : Bool) : Gate × GateDecision :=
  let record : Record :=
    { identity := identity, tier := tier,
      state := if awaitsOperator then .proposal else .reserved,
      contributors := [{ contributor with scope := scope }], scope := scope }
  ({ g with heap := g.heap ++ [record], records := g.records.set identity.resourceKey g.heap.length },
    { admission := .admitted, token := some (.record g.heap.length) })

def modifyRecord (g : Gate) (t : ℕ) (f : Record → Record) : Gate :=
  { g with heap := g.heap.modify t f }

def sameOutcome (g : Gate) (scope : String) (t : ℕ) (holder : Record) (tier : String)
    (contributor : Contributor) (awaitsOperator : Bool) : Gate × GateDecision :=
  if holder.state = .proposal ∧ tierRank "D" ≤ tierRank tier then
    let g₁ := (g.modifyRecord t (fun r => { r with invalidated := true })).recordEvent
      (.proposalInvalidated holder.identity.resourceKey contributor.triggerName holder.proposalId)
    let (g₂, d) := g₁.admitEntry scope holder.identity tier contributor awaitsOperator
    (g₂, { d with displaced := some t })
  else
    ((g.modifyRecord t (fun r => { r with
        contributors := r.contributors ++ [{ contributor with scope := scope }] })).recordEvent
      (.coalesced holder.identity.resourceKey (some holder.state) contributor.triggerName),
      { admission := .joined, token := some (.record t) })

/-- The holder opposes the request. The safety conflict and an uncertain holder were decided in
`refuseOpposing`, ahead of this. -/
def opposing (g : Gate) (scope : String) (t : ℕ) (holder : Record) (identity : ResourceIdentity)
    (tier : String) (contributor : Contributor) (awaitsOperator : Bool) : Gate × GateDecision :=
  if holder.state = .running then
    g.refusal identity .opposingActRunning contributor none
      (some (decide (tierRank "D" ≤ tierRank tier)))
  else if holder.state = .proposal then
    if tierRank holder.tier < tierRank tier then
      let g₁ := (g.modifyRecord t (fun r => { r with invalidated := true })).recordEvent
        (.proposalInvalidated identity.resourceKey contributor.triggerName holder.proposalId)
      let (g₂, d) := g₁.admitEntry scope identity tier contributor awaitsOperator
      (g₂, { d with displaced := some t })
    else g.refusal identity .opposingHigherTierHolds contributor
  else if tierRank holder.tier < tierRank tier then
    let g₁ := (g.modifyRecord t (fun r => { r with state := .retired, done := true })).recordEvent
      (.preempted identity.resourceKey holder.identity.desiredOutcome contributor.triggerName)
    let (g₂, d) := g₁.admitEntry scope identity tier contributor awaitsOperator
    (g₂, { d with admission := .preemptedHolder, displaced := some t })
  else if tierRank tier = tierRank holder.tier then
    let g₁ := g.modifyRecord t (fun r => { r with state := .retired, done := true })
    { g₁ with records := g₁.records.pop identity.resourceKey }.refusal identity
      .opposingEqualTier contributor none none true
  else g.refusal identity .opposingHigherTierHolds contributor

def request (g : Gate) (scope : String) (identity : ResourceIdentity) (tier : String)
    (contributor : Contributor) (awaitsOperator : Bool) : Gate × GateDecision :=
  let held := g.holder identity.resourceKey
  match g.refuseOpposing held identity tier contributor with
  | some refused => refused
  | none =>
    match held with
    | none =>
      match g.joinCompleted scope identity tier contributor with
      | some joined => joined
      | none => g.admitEntry scope identity tier contributor awaitsOperator
    | some (t, r) =>
      if r.identity.joinKey = identity.joinKey then
        g.sameOutcome scope t r tier contributor awaitsOperator
      else if opposes r.identity identity then
        g.opposing scope t r identity tier contributor awaitsOperator
      else g.refusal identity .opposingHigherTierHolds contributor

/-- Whether an operator's reply to `t`'s proposal may still act. -/
def replyAdmitted (g : Gate) (t : ℕ) : Gate × Bool :=
  match g.heap[t]? with
  | none => (g, false)
  | some r =>
    if r.invalidated then
      (g.recordEvent (.lateReplyRefused r.identity.resourceKey r.proposalId .proposalInvalidated),
        false)
    else if g.records.get? r.identity.resourceKey ≠ some t then
      (g.recordEvent (.lateReplyRefused r.identity.resourceKey r.proposalId .proposalNoLongerHeld),
        false)
    else (g.modifyRecord t (fun r => { r with state := .running, entered := true }), true)

def markProposal (g : Gate) (t : ℕ) (proposalId : String) : Gate :=
  g.modifyRecord t (fun r => { r with
    asked := true, proposalId := proposalId,
    state := if r.state = .reserved then .proposal else r.state })

def markRunning (g : Gate) (t : ℕ) : Gate :=
  g.modifyRecord t (fun r => { r with state := .running, entered := true })

def claimingScopes (r : Record) : List String :=
  ((r.scope :: r.contributors.map (·.scope)).eraseDups).filter (fun s => decide (s ≠ ""))

/-- The tiers event `scope` put behind the act. -/
def claimedTiers (r : Record) (scope : String) : List String :=
  (r.contributors.filter (fun c => decide (c.scope = scope))).map (·.dispatchTier) ++
    if r.scope = scope then [r.tier] else []

/-- The account of `r` for event `scope`, at the highest authority the event put behind it. A
claiming scope has a tier, so the default is never taken. -/
def entryFor (r : Record) (scope : String) (ran : Bool) : Entry where
  identity := r.identity
  tier := ((claimedTiers r scope).argmax tierRank).getD ""
  entered := r.entered
  ran := ran && r.entered
  holdsTierD := (r.contributors.filter (fun c => decide (c.scope = scope))).any (·.tierDGranted)
  asked := r.asked
  contributors := r.contributors

/-- Replace the record's previous account in place, or append the new one. -/
def placeEntry (entries : List Entry) (old : Option Entry) (new : Entry) : List Entry :=
  match old with
  | some e => if e ∈ entries then entries.set (entries.idxOf e) new else entries ++ [new]
  | none => entries ++ [new]

def recordEntry (t : ℕ) (ran : Bool) (g : Gate) (scope : String) : Gate :=
  match g.heap[t]?, g.scopes.get? scope with
  | some r, some entries =>
    { g with
      scopes := g.scopes.set scope (placeEntry entries (r.entries.get? scope) (entryFor r scope ran))
      heap := g.heap.modify t (fun r => { r with
        entries := r.entries.set scope (entryFor r scope ran) }) }
  | _, _ => g

/-- Record `t`'s current account under every open event that claims it. -/
def recordEntries (g : Gate) (t : ℕ) (ran : Bool) : Gate :=
  match g.heap[t]? with
  | none => g
  | some r => (claimingScopes r).foldl (recordEntry t ran) g

def markUncertain (g : Gate) (t : ℕ) : Gate :=
  match g.heap[t]? with
  | none => g
  | some r =>
    ((g.modifyRecord t (fun r => { r with state := .uncertain, entered := true })).recordEntries
      t false).recordEvent (.commandUncertain r.identity.resourceKey r.identity.desiredOutcome)

/-- Free `t`'s resource when `t` still holds it. -/
def release (g : Gate) (t : ℕ) (key : List String) : Gate :=
  if g.records.get? key = some t then { g with records := g.records.pop key } else g

def retire (g : Gate) (t : ℕ) (result : Option Bool) : Gate :=
  match g.heap[t]? with
  | none => g
  | some r =>
    if r.state = .uncertain then g
    else
      (((g.modifyRecord t (fun r => { r with result := result, done := true })).recordEntries
        t (decide (result = some true))).modifyRecord t
          (fun r => { r with state := .retired })).release t r.identity.resourceKey

def resolveUncertain (g : Gate) (t : ℕ) (accepted : Bool) : Gate :=
  match g.heap[t]? with
  | none => g
  | some r =>
    if r.state ≠ .uncertain then g
    else
      (((g.modifyRecord t (fun r => { r with
        state := .retired, result := some accepted, done := true })).recordEntries
          t accepted).release t r.identity.resourceKey).recordEvent
            (.commandResolved r.identity.resourceKey accepted)

end Gate

end OriRuntime
