import OriRuntime.ConfirmationFresh
import OriRuntime.FirmwareReplay
import OriRuntime.LivenessSupervision

/-!
# Firmware sequence numbers

The three counters of a device's registry row through everything that writes the row, and
`FirmwareCommandSigner.sign_command`, suspended at its two reads, at its allocation and between the
commit of the allocation and the signature. A value is issued where its allocation commits; a
process that dies there returns it to nobody.
-/

namespace OriRuntime

open List Option

open Execution

namespace Sequences

open FirmwareStore RuntimeKey

inductive SeqKind where
  | runtime
  | command
  | provision
  deriving DecidableEq

def SeqKind.counter : SeqKind → FirmwareDevice → ℤ
  | .runtime, row => row.lastRuntimeSeq
  | .command, row => row.lastCmdSeq
  | .provision, row => row.lastProvisionSeq

inductive Request where
  | runtime (deviceId capabilityHash : Text)
  | command (deviceId : Text) (anchor : AnchorColumns)
  | provision (deviceId expectedEpoch : Text) (allowRevoked : Bool)

def Request.deviceId : Request → Text
  | .runtime d _ => d
  | .command d _ => d
  | .provision d _ _ => d

def Request.kind : Request → SeqKind
  | .runtime _ _ => .runtime
  | .command _ _ => .command
  | .provision _ _ _ => .provision

def Request.allocate (st : FirmwareStore) : Request → Except SeqError (ℤ × FirmwareStore)
  | .runtime d capabilityHash => st.allocateFirmwareRuntimeSeq d capabilityHash
  | .command d anchor => st.allocateFirmwareCommandSeq d anchor
  | .provision d epoch allowRevoked => st.allocateFirmwareProvisionSeq d epoch allowRevoked

/-! ### Commands -/

structure CommandRequest where
  deviceId : Text
  action : Text
  channel : Text

def manifestAuthorizes (manifest : Json) (action channel : Text) : Bool :=
  match manifest.get? "actions" with
  | some (.list entries) => entries.any (fun entry =>
    ((entry.get? "action").getD .null).pyEq (.str action) &&
      ((entry.get? "channel").getD .null).pyEq (.str channel) &&
        ((entry.get? "authority").getD .null).pyEq (.str (text "runtime_commanded")))
  | _ => false

/-- The accepted manifest grants the command and declares the signing domains. -/
def grants (row : FirmwareDevice) (r : CommandRequest) : Bool :=
  match Json.loads Json.dictOf row.manifestJson with
  | none => false
  | some manifest =>
    manifestAuthorizes manifest r.action r.channel && Liveness.declaresSigningDomains (some manifest)

/-- `atCommit` is the store the allocation's update ran on. -/
inductive SignPhase where
  | reading
  | checking (row : FirmwareDevice)
  | allocating (row : FirmwareDevice)
  | sequenced (row : FirmwareDevice) (cmdSeq : ℤ) (atCommit : FirmwareStore)
  | done

structure SignCall where
  request : CommandRequest
  phase : SignPhase := .reading

structure SignedCommand where
  deviceId : Text
  bytes : Text
  cmdSeq : ℤ
  atCommit : FirmwareStore

structure Issued where
  deviceId : Text
  kind : SeqKind
  value : ℤ
  deriving DecidableEq

structure State where
  store : FirmwareStore := {}
  issued : List Issued := []
  calls : List SignCall := []
  signed : List SignedCommand := []

inductive Label where
  | lifecycle (op : AnchorOp)
  | advance (deviceId : Text) (bootId seq uptimeMs : ℤ) (anchor : AnchorColumns)
      (activation : Option ℕ) (fault : Option Text)
  | attempt (deviceId epoch : Text) (atMs : ℤ)
  | resolve (deviceId epoch : Text) (status : ConfirmationStatus) (atMs : ℤ)
  | allocate (r : Request)
  | sign (r : CommandRequest)
  | resume (i : ℕ)
  | restart

/-- An allocation, and the value it issues where it does not raise. -/
def State.allocate (s : State) (r : Request) : State :=
  match r.allocate s.store with
  | .error _ => s
  | .ok (n, st) =>
    { s with store := st, issued := s.issued ++ [{ deviceId := r.deviceId, kind := r.kind, value := n }] }

def commandFields (r : CommandRequest) (row : FirmwareDevice) (cmdSeq : ℤ) : CommandFields where
  action := .str r.action
  capabilityHash := .str row.capabilityHash
  channel := .str r.channel
  cmdSeq := .int cmdSeq
  deviceId := .str r.deviceId

/-- A call up to its next suspension. -/
def resume (s : State) (i : ℕ) (c : SignCall) : Option State :=
  let goto := fun (s : State) phase => some { s with calls := s.calls.set i { c with phase := phase } }
  match c.phase with
  | .reading =>
    match validateCommandFields (.str c.request.action) (.str c.request.channel)
        (.str c.request.deviceId), s.store.registry.get? c.request.deviceId with
    | .ok _, some row =>
      goto s (if row.revoked ∨ row.approved = false then .done else .checking row)
    | _, _ => goto s .done
  | .checking row =>
    goto s (if row.anchorEpochId ≠ [] ∧
        s.store.confirmationStatus c.request.deviceId row.anchorEpochId = some .confirmed ∧
        grants row c.request = true then .allocating row else .done)
  | .allocating row =>
    let r := Request.command c.request.deviceId row.toAnchorColumns
    match r.allocate s.store with
    | .error _ => goto s .done
    | .ok (n, _) => goto (s.allocate r) (.sequenced row n s.store)
  | .sequenced row n st =>
    match buildCommandBytes (commandFields c.request row n) with
    | .error _ => goto s .done
    | .ok bytes => goto { s with signed := s.signed ++
        [{ deviceId := c.request.deviceId, bytes := bytes, cmdSeq := n, atCommit := st }] } .done
  | .done => none

variable (k : FirmwareKeys)

def step (s : State) : Label → Option State
  | .lifecycle op => (s.store.perform k op).map (fun st => { s with store := st })
  | .advance d bootId seq uptimeMs anchor activation fault =>
    match s.store.advanceFirmwareFreshness d bootId seq uptimeMs anchor activation fault with
    | .advanced st => some { s with store := st }
    | .lost => none
    | .raised => none
  | .attempt d e atMs => some { s with store := s.store.recordFirmwareConfirmationAttempt d e atMs }
  | .resolve d e status atMs =>
    some { s with store := s.store.resolveFirmwareConfirmation d e status atMs }
  | .allocate r => some (s.allocate r)
  | .sign r => some { s with calls := s.calls ++ [{ request := r }] }
  | .resume i => s.calls[i]?.bind (resume s i)
  | .restart => some { s with calls := [] }

variable {k} {s s' : State} {st st' : FirmwareStore} {d : Text} {row : FirmwareDevice}

/-! ### The counters -/

/-- A counter's value; a device that is not registered has issued nothing. -/
def seqOf (st : FirmwareStore) (d : Text) (kind : SeqKind) : ℤ :=
  ((st.registry.get? d).map kind.counter).getD 0

theorem seqOf_of_row (kind : SeqKind) (hr : st.registry.get? d = some row) :
    seqOf st d kind = kind.counter row := by
  rw [seqOf, hr]
  rfl

/-- Both stores hold every counter at the same value. -/
def SameSeqs (st st' : FirmwareStore) : Prop := ∀ d kind, seqOf st' d kind = seqOf st d kind

theorem sameSeqs_of_registry (h : st'.registry = st.registry) : SameSeqs st st' := by
  intro d kind
  rw [seqOf, h]
  rfl

theorem sameSeqs_rewrites (hr : Rewrites st st' d row)
    (hs : ∀ kind : SeqKind, kind.counter row = seqOf st d kind) : SameSeqs st st' := by
  intro d' kind
  rw [seqOf, hr]
  split_ifs with hd
  · rw [hd, ← hs]
    rfl
  · rfl

theorem sameSeqs_rewrites_row {row' : FirmwareDevice} (hr : st.registry.get? d = some row)
    (he : Rewrites st st' d row') (hs : ∀ kind : SeqKind, kind.counter row' = kind.counter row) :
    SameSeqs st st' :=
  sameSeqs_rewrites he (fun kind => (hs kind).trans (seqOf_of_row kind hr).symm)

theorem sameSeqs_change {op : AnchorOp} (hc : Change k st st' op) : SameSeqs st st' := by
  cases hc with
  | kept op hr ha => exact sameSeqs_of_registry hr
  | registered m atMs keyEpoch epoch hk hep hn hr ha =>
    refine sameSeqs_rewrites hr (fun kind => ?_)
    rw [seqOf, hn]
    cases kind <;> rfl
  | candidate m atMs keyEpoch epoch row row' hk hep ho he hs hidle hr' hr ha =>
    refine sameSeqs_rewrites_row ho hr (fun kind => ?_)
    obtain rfl | ⟨rfl, -⟩ := hr'
    · rfl
    · cases kind <;> rfl
  | promoted d who expected row epoch a ho he hh hp hr ha
  | revoked d who row ho hr ha | reinstated d who row ho he hr ha =>
    exact sameSeqs_rewrites_row ho hr (fun kind => by cases kind <;> rfl)
  | reprovisioned m who keyEpoch epoch row hk hep ho he hf hn hr ha =>
    exact sameSeqs_rewrites_row ho hr (fun _ => rfl)

/-! ### Allocation -/

def SeqKind.bump : SeqKind → FirmwareDevice → FirmwareDevice
  | .runtime, row => { row with lastRuntimeSeq := row.lastRuntimeSeq + 1 }
  | .command, row => { row with lastCmdSeq := row.lastCmdSeq + 1 }
  | .provision, row => { row with lastProvisionSeq := row.lastProvisionSeq + 1 }

/-- The authority a request is held to. -/
def Request.allowed (st : FirmwareStore) : Request → FirmwareDevice → Bool
  | .runtime d capabilityHash, row =>
    decide (row.capabilityHash = capabilityHash) && st.authority d row
  | .command d anchor, row => decide (row.toAnchorColumns = anchor) && st.authority d row
  | .provision d epoch allowRevoked, row =>
    decide (row.anchorEpochId = epoch) && (allowRevoked && row.revoked || st.authority d row)

/-- Every outcome of an allocation, and when it is the outcome. -/
inductive Outcome (st : FirmwareStore) (r : Request) : Except SeqError (ℤ × FirmwareStore) → Prop
  | unknownDevice (hrow : st.registry.get? r.deviceId = none) : Outcome st r (.error .unknownDevice)
  | exhausted (row : FirmwareDevice) (hrow : st.registry.get? r.deviceId = some row)
      (hmax : maxSeq ≤ r.kind.counter row) : Outcome st r (.error .exhausted)
  | authorityChanged (row : FirmwareDevice) (hrow : st.registry.get? r.deviceId = some row)
      (hroom : r.kind.counter row < maxSeq) (hrefused : r.allowed st row = false) :
      Outcome st r (.error .authorityChanged)
  | allocated (row : FirmwareDevice) (hrow : st.registry.get? r.deviceId = some row)
      (hroom : r.kind.counter row < maxSeq) (hallowed : r.allowed st row = true) :
      Outcome st r (.ok (r.kind.counter row + 1, st.setDevice r.deviceId (r.kind.bump row)))

theorem allocate_outcome (st : FirmwareStore) (r : Request) : Outcome st r (r.allocate st) := by
  have hbump : ∀ row, r.kind.counter row + 1 = r.kind.counter (r.kind.bump row) := by
    intro row
    cases r <;> rfl
  have heq : r.allocate st = st.allocate r.deviceId r.kind.counter r.kind.bump (r.allowed st) := by
    cases r <;> rfl
  rw [heq, FirmwareStore.allocate]
  cases hr : st.registry.get? r.deviceId with
  | none => exact .unknownDevice hr
  | some row =>
    dsimp only
    split_ifs with hl hm
    · rw [← hbump]
      exact .allocated row hr hl.1 hl.2
    · exact .exhausted row hr hm
    · have hroom := not_le.mp hm
      exact .authorityChanged row hr hroom (by simpa [hroom] using hl)

theorem seqOf_bump (r : Request) (hr : st.registry.get? r.deviceId = some row) (d : Text)
    (kind : SeqKind) : seqOf (st.setDevice r.deviceId (r.kind.bump row)) d kind =
      if d = r.deviceId ∧ kind = r.kind then seqOf st d kind + 1 else seqOf st d kind := by
  have hs : Rewrites st (st.setDevice r.deviceId (r.kind.bump row)) r.deviceId (r.kind.bump row) :=
    rewrites_set rfl
  by_cases hd : d = r.deviceId
  · subst hd
    rw [seqOf_of_row kind hs.self, seqOf_of_row kind hr]
    cases kind <;> cases r.kind <;> simp [SeqKind.bump, SeqKind.counter]
  · rw [if_neg (fun h => hd h.1), seqOf, hs.other hd]
    rfl

/-! ### What every interleaving keeps -/

theorem sound_of_eq (h : FirmwareStore.Sound k st) (hr : st'.registry = st.registry)
    (hn : st'.anchors = st.anchors) : FirmwareStore.Sound k st' :=
  ⟨h.anchors.congr hn, fun d e a ha => hr ▸ h.registered d e a ((held_congr hn).mp ha),
    fun d row ho => (h.rows d row (hr ▸ ho)).congr (fun _ _ => held_congr hn)⟩

/-- `n` was issued for a command of the device where its row was `row`'s anchor, in service. -/
structure CommittedAt (k : FirmwareKeys) (issued : List Issued) (d : Text) (row : FirmwareDevice)
    (n : ℤ) (st : FirmwareStore) : Prop where
  issued : ⟨d, .command, n⟩ ∈ issued
  sound : FirmwareStore.Sound k st
  inService : ∃ row', st.registry.get? d = some row' ∧ row'.toAnchorColumns = row.toAnchorColumns ∧
    InService st d row'

/-- A signed command and the allocation it was built after. -/
structure Commanded (k : FirmwareKeys) (issued : List Issued) (x : SignedCommand) : Prop where
  committed : ∃ row r, CommittedAt k issued x.deviceId row x.cmdSeq x.atCommit ∧
    r.deviceId = x.deviceId ∧ buildCommandBytes (commandFields r row x.cmdSeq) = .ok x.bytes

structure SeqSound (k : FirmwareKeys) (s : State) : Prop where
  increasing : s.issued.Pairwise (fun x y => x.deviceId = y.deviceId → x.kind = y.kind →
    x.value < y.value)
  bounded : ∀ x ∈ s.issued, 1 ≤ x.value ∧ x.value ≤ maxSeq ∧ x.value ≤ seqOf s.store x.deviceId x.kind
  nonneg : ∀ d kind, 0 ≤ seqOf s.store d kind
  store : FirmwareStore.Sound k s.store
  calls : ∀ c ∈ s.calls, ∀ row n st, c.phase = .sequenced row n st →
    CommittedAt k s.issued c.request.deviceId row n st
  signed : ∀ x ∈ s.signed, Commanded k s.issued x

theorem seqSound_empty : SeqSound k {} where
  increasing := .nil
  bounded := fun _ hx => absurd hx not_mem_nil
  nonneg := fun _ _ => le_rfl
  store := sound_empty
  calls := fun _ hc => absurd hc not_mem_nil
  signed := fun _ hx => absurd hx not_mem_nil

theorem SeqSound.withStore (h : SeqSound k s) (hm : SameSeqs s.store st)
    (hs : FirmwareStore.Sound k st) : SeqSound k { s with store := st } where
  increasing := h.increasing
  bounded x hx := by
    rw [hm]
    exact h.bounded x hx
  nonneg d kind := by
    rw [hm]
    exact h.nonneg d kind
  store := hs
  calls := h.calls
  signed := h.signed

variable {issued issued' : List Issued} {n : ℤ} {c : SignCall} {i : ℕ}

theorem CommittedAt.mono (hs : issued ⊆ issued') (h : CommittedAt k issued d row n st) :
    CommittedAt k issued' d row n st :=
  ⟨hs h.issued, h.sound, h.inService⟩

theorem Commanded.mono {x : SignedCommand} (hs : issued ⊆ issued') (h : Commanded k issued x) :
    Commanded k issued' x := by
  obtain ⟨row, r, hc, hr⟩ := h.committed
  exact ⟨row, r, hc.mono hs, hr⟩

theorem allocate_cases (s : State) (r : Request) :
    (∃ e, r.allocate s.store = .error e ∧ s.allocate r = s) ∨
      ∃ row, s.store.registry.get? r.deviceId = some row ∧ r.kind.counter row < maxSeq ∧
        r.allowed s.store row = true ∧
        r.allocate s.store =
          .ok (r.kind.counter row + 1, s.store.setDevice r.deviceId (r.kind.bump row)) ∧
        s.allocate r = { s with
          store := s.store.setDevice r.deviceId (r.kind.bump row)
          issued := s.issued ++ [⟨r.deviceId, r.kind, r.kind.counter row + 1⟩] } := by
  have ho := allocate_outcome s.store r
  unfold State.allocate
  generalize r.allocate s.store = out at ho ⊢
  cases ho with
  | allocated row hr hroom ha => exact .inr ⟨row, hr, hroom, ha, rfl, rfl⟩
  | _ => exact .inl ⟨_, rfl, rfl⟩

theorem SeqSound.allocate (h : SeqSound k s) (r : Request) : SeqSound k (s.allocate r) := by
  obtain ⟨e, -, heq⟩ | ⟨row, hr, hroom, -, -, heq⟩ := allocate_cases s r <;> rw [heq]
  · exact h
  have hh := seqOf_of_row r.kind hr
  have hs := seqOf_bump r hr
  have hu := subset_append_left s.issued [⟨r.deviceId, r.kind, r.kind.counter row + 1⟩]
  refine ⟨pairwise_append.mpr ⟨h.increasing, pairwise_singleton _ _, ?_⟩, ?_, ?_, ?_,
    fun c hc row n st hph => (h.calls c hc row n st hph).mono hu,
    fun x hx => (h.signed x hx).mono hu⟩
  · intro x hx y hy hd hk
    rw [mem_singleton.mp hy] at hd hk ⊢
    have hl := (h.bounded x hx).2.2
    rw [hd, hk, hh] at hl
    exact Int.lt_add_one_of_le hl
  · intro x hx
    rw [hs]
    rcases mem_append.mp hx with hx | hx
    · obtain ⟨hp, hm, hl⟩ := h.bounded x hx
      split_ifs <;> omega
    · rw [mem_singleton.mp hx, if_pos ⟨rfl, rfl⟩, hh]
      have hn := hh ▸ h.nonneg r.deviceId r.kind
      dsimp only
      omega
  · intro d kind
    rw [hs]
    have hn := h.nonneg d kind
    split_ifs <;> omega
  · exact h.store.rewrites hr (rewrites_set rfl) rfl (fun hr => by
      cases r.kind <;> exact { hr with })

theorem SeqSound.goto (h : SeqSound k s) {phase : SignPhase}
    (hp : ∀ row n st, phase = .sequenced row n st →
      CommittedAt k s.issued c.request.deviceId row n st) :
    SeqSound k { s with calls := s.calls.set i { c with phase := phase } } where
  increasing := h.increasing
  bounded := h.bounded
  nonneg := h.nonneg
  store := h.store
  calls := by
    intro c' hc'
    rcases mem_or_eq_of_mem_set hc' with hm | rfl
    · exact h.calls c' hm
    · exact hp
  signed := h.signed

theorem SeqSound.resume (h : SeqSound k s) (hc : s.calls[i]? = some c)
    (hr : Sequences.resume s i c = some s') : SeqSound k s' := by
  unfold Sequences.resume at hr
  dsimp only at hr
  split at hr
  · split at hr
    · cases hr
      exact h.goto (fun _ _ _ hp => by split_ifs at hp)
    · cases hr
      exact h.goto (fun _ _ _ hp => by cases hp)
  · cases hr
    exact h.goto (fun _ _ _ hp => by split_ifs at hp)
  · rename_i row hh
    obtain ⟨e, ha, -⟩ | ⟨row', hr', -, hallo, ha, heq⟩ :=
      allocate_cases s (.command c.request.deviceId row.toAnchorColumns)
    · rw [ha] at hr
      cases hr
      exact h.goto (fun _ _ _ hp => by cases hp)
    · rw [ha] at hr
      cases hr
      have hn := h.allocate (.command c.request.deviceId row.toAnchorColumns)
      rw [heq] at hn ⊢
      refine hn.goto (fun _ _ _ hp => ?_)
      cases hp
      obtain ⟨ho, hu⟩ := Bool.and_eq_true_iff.mp hallo
      exact ⟨mem_append_right _ (mem_singleton.mpr rfl), h.store, row', hr',
        of_decide_eq_true ho, authority_eq_true_iff.mp hu⟩
  · rename_i row n st hh
    split at hr
    · cases hr
      exact h.goto (fun _ _ _ hp => by cases hp)
    · rename_i bytes hb
      cases hr
      have hm := h.calls c (mem_of_getElem? hc) row n st hh
      have hs : SeqSound k { s with signed := s.signed ++ [⟨c.request.deviceId, bytes, n, st⟩] } :=
        ⟨h.increasing, h.bounded, h.nonneg, h.store, h.calls, fun x hx => by
          rcases mem_append.mp hx with hx | hx
          · exact h.signed x hx
          · rw [mem_singleton.mp hx]
            exact ⟨row, c.request, hm, rfl, hb⟩⟩
      exact hs.goto (fun _ _ _ hp => by cases hp)
  · cases hr

theorem SeqSound.step (hs : Function.Injective k.sha256) (h : SeqSound k s) {l : Label}
    (hstep : Sequences.step k s l = some s') : SeqSound k s' := by
  cases l with
  | lifecycle op =>
    obtain ⟨st, ht, rfl⟩ := map_eq_some_iff.mp hstep
    have hh := perform_change ht
    exact h.withStore (sameSeqs_change hh) (h.store.change hs hh)
  | advance d bootId seq uptimeMs anchor activation fault =>
    simp only [Sequences.step] at hstep
    split at hstep
    · rename_i st ht
      cases hstep
      obtain ⟨row, ha⟩ := advanced_of_advance ht
      refine h.withStore (sameSeqs_rewrites_row ha.registered ha.registry ?_) (ha.sound h.store)
      intro kind
      cases kind <;> rfl
    all_goals cases hstep
  | attempt d e atMs | resolve d e status atMs =>
    cases hstep
    obtain ⟨he, hn, -⟩ := Confirmation.updatePending_same s.store d e _
    exact h.withStore (sameSeqs_of_registry he) (sound_of_eq h.store he hn)
  | allocate r =>
    cases hstep
    exact h.allocate r
  | sign r =>
    cases hstep
    refine { h with calls := fun c hc row n st hp => ?_ }
    rcases mem_append.mp hc with hc | hc
    · exact h.calls c hc row n st hp
    · rw [mem_singleton.mp hc] at hp
      cases hp
  | resume i =>
    obtain ⟨c, hc, hr⟩ := bind_eq_some_iff.mp hstep
    exact h.resume hc hr
  | restart =>
    cases hstep
    exact { h with calls := fun _ hc => absurd hc not_mem_nil }

theorem CommittedAt.active (h : CommittedAt k issued d row n st) :
    ∃ epoch a, Held st d epoch a ∧ a.state = .active ∧
      st.confirmationStatus d epoch = some .confirmed ∧ a.capabilityHash = row.capabilityHash := by
  obtain ⟨row', hr', ho, hs⟩ := h.inService
  have hn := h.sound.rows d row' hr'
  obtain ⟨epoch, a, ha, hac⟩ := hn.approved hs.2.1
  have hd := (hn.inForce epoch a ha hac).2.1
  have hc := hs.2.2
  rw [show row'.anchorEpochId = epoch from congrArg AnchorColumns.anchorEpochId hd] at hc
  exact ⟨epoch, a, ha, hac, hc, congrArg AnchorColumns.capabilityHash (hd.symm.trans ho)⟩

structure NeverReused (k : FirmwareKeys) (s : State) : Prop where
  increasing : s.issued.Pairwise (fun x y => x.deviceId = y.deviceId → x.kind = y.kind →
    x.value < y.value)
  bounded : ∀ x ∈ s.issued, 1 ≤ x.value ∧ x.value ≤ maxSeq
  outcome : ∀ r : Request, Outcome s.store r (r.allocate s.store) ∧
    ∀ e, r.allocate s.store = .error e → step k s (.allocate r) = some s
  commanded : ∀ x ∈ s.signed, ⟨x.deviceId, .command, x.cmdSeq⟩ ∈ s.issued ∧
    ∃ epoch a action channel, Held x.atCommit x.deviceId epoch a ∧ a.state = .active ∧
      x.atCommit.confirmationStatus x.deviceId epoch = some .confirmed ∧
      buildCommandBytes { action := .str action, capabilityHash := .str a.capabilityHash
                          channel := .str channel, cmdSeq := .int x.cmdSeq
                          deviceId := .str x.deviceId } = .ok x.bytes

/-- Through every interleaving of allocations, signatures, lifecycle operations, telemetry,
confirmations and restarts: the values a counter issues for a device increase and stay within
`2 ** 53 - 1`, an allocation that raises leaves the state as it was and raises for the documented
reasons only, and a signed command carries the capability hash of the anchor that was active and
confirmed where its number was committed. -/
theorem sequences_never_reused (hsha : Function.Injective k.sha256)
    (h : Reaches (step k) {} s) : NeverReused k s := by
  have hsound : SeqSound k s :=
    h.invariant (fun _ _ _ hs hstep => hs.step hsha hstep) seqSound_empty
  refine ⟨hsound.increasing, fun x hx => ?_, fun r => ⟨allocate_outcome s.store r, ?_⟩, fun x hx => ?_⟩
  · obtain ⟨hpos, hmax, -⟩ := hsound.bounded x hx
    exact ⟨hpos, hmax⟩
  · intro e he
    obtain ⟨-, -, heq⟩ | ⟨row, -, -, -, hallocate, -⟩ := allocate_cases s r
    · exact congrArg some heq
    · cases he.symm.trans hallocate
  · obtain ⟨row, r, hcommitted, hdevice, hbytes⟩ := (hsound.signed x hx).committed
    obtain ⟨epoch, a, ha, hactive, hconfirmed, hhash⟩ := hcommitted.active
    refine ⟨hcommitted.issued, epoch, a, r.action, r.channel, ha, hactive, hconfirmed, ?_⟩
    rw [hhash, ← hdevice]
    exact hbytes

section Bench

open Confirmation (valve valveAnchor)

def relayManifest : ManifestAnchor :=
  { valveAnchor with
    capabilityHash := text "sha256:" ++ List.replicate 64 (codePoint 'a')
    manifestJson := text "\x7b\"actions\":[\x7b\"action\":\"relay_open\",\"authority\":\"runtime_commanded\",\"channel\":\"relay1\"\x7d],\"runtime_key_domains\":\"firmware-commands/v2\"\x7d" }

def relayEpoch : Text :=
  (benchKeys.anchorEpochId valve relayManifest.publicKeyB64 relayManifest.posture
    relayManifest.capabilityHash).getD []

/-- Confirmed, one command signed, and the device revoked after a second number was allocated. -/
def commandedOnce : List Label :=
  [.lifecycle (.upsert relayManifest 1), .lifecycle (.approve valve (operator 2) none),
    .resolve valve relayEpoch .confirmed 3, .sign ⟨valve, text "relay_open", text "relay1"⟩,
    .resume 0, .resume 0, .resume 0, .resume 0,
    .allocate (.runtime valve relayManifest.capabilityHash), .lifecycle (.revoke valve (operator 4))]

theorem sequences_never_reused_bench : ∃ s : State, s.signed.length = 1 ∧
    s.issued = [⟨valve, .command, 1⟩, ⟨valve, .runtime, 1⟩] ∧ NeverReused benchKeys s := by
  obtain ⟨s, hs, hsigned, hissued⟩ : ∃ s, run (step benchKeys) {} commandedOnce = some s ∧
    s.signed.length = 1 ∧ s.issued = [⟨valve, .command, 1⟩, ⟨valve, .runtime, 1⟩] := by
    refine exists_of_check ?_
    unfold commandedOnce relayEpoch relayManifest text
    repeat rw [String.toList_ofList]
    decide +kernel
  have hsha : Function.Injective benchKeys.sha256 := fun _ _ h => append_cancel_left h
  exact ⟨s, hsigned, hissued, sequences_never_reused hsha ⟨commandedOnce, hs⟩⟩

end Bench

end Sequences

end OriRuntime
