import OriRuntime.LivenessTable
import Mathlib
import OriRuntime.RuntimeKeyBytes

/-!
# Liveness and supervision

`FirmwareLivenessSupervisor` and `FirmwareLivenessSigner` of `ori/security/firmware/liveness.py`. A
call of `sign_liveness` checks the supervision once, then is suspended at its read of the manifest
and at its allocation of a sequence number; telemetry, releases, time and other calls go on in
between. What the store, the nonce source, the signing clock and the key answer is given with the
step that takes the answer.

A call in progress keeps `last`, what happened last to its device since the check.
-/

namespace OriRuntime

open List Option

structure SupervisedDevice where
  deviceId : Text
  bootId : ℤ
  capabilityHash : Text
  deriving DecidableEq

/-- The boot and the manifest of a device's last accepted telemetry, and when it was accepted. -/
structure Accepted where
  bootId : ℤ
  capabilityHash : Text
  acceptedAt : ℚ
  deriving DecidableEq

structure Supervisor where
  windowS : ℚ
  seen : Dict Text Accepted
  windowPos : 0 < windowS

namespace Supervisor

def noteTelemetry (s : Supervisor) (d : SupervisedDevice) (now : ℚ) : Supervisor :=
  { s with seen := s.seen.set d.deviceId ⟨d.bootId, d.capabilityHash, now⟩ }

def supervised (s : Supervisor) (d : SupervisedDevice) (now : ℚ) : Bool :=
  match s.seen.get? d.deviceId with
  | none => false
  | some a =>
    if a.bootId ≠ d.bootId ∨ a.capabilityHash ≠ d.capabilityHash then false
    else decide (now - a.acceptedAt < s.windowS)

def release (s : Supervisor) (deviceId : Text) : Supervisor :=
  { s with seen := s.seen.pop deviceId }

end Supervisor

namespace Liveness

open RuntimeKey (LivenessFields buildLivenessBytes livenessPreimage)

/-! ### Signing -/

def declaresSigningDomains (manifest : Option Json) : Bool :=
  match manifest.bind (·.get? "runtime_key_domains") with
  | some (.str s) => decide (s = text "firmware-commands/v2")
  | _ => false

def hex (raw : List (Fin 256)) : Text :=
  raw.flatMap fun b => [Json.hexDigit (b.val / 16), Json.hexDigit (b.val % 16)]

def nonceAttempts : ℕ := 8

/-- `_fresh_nonce`, from the attempt `i` on; `draw i` is what the source gives. -/
def freshNonce (holds : Text → Bool) (draw : ℕ → List (Fin 256)) : ℕ → ℕ → Option Text
  | 0, _ => none
  | attempts + 1, i =>
    if (draw i).length ≠ 16 then none
    else if holds (hex (draw i)) then freshNonce holds draw attempts (i + 1)
    else some (hex (draw i))

/-- What the parts outside answer while a message is signed. -/
structure SigningAnswers where
  draw : ℕ → List (Fin 256)
  /-- The signing clock; nothing where it cannot be read. -/
  clock : Option ℤ
  /-- The signature in base64; nothing where signing raises. -/
  sign : Text → Option Text

def livenessMessage (liveness signature : Text) : Text :=
  text "\x7b\"liveness\":" ++ liveness ++ text ",\"signature\":\"ed25519:" ++ signature ++
    text "\"\x7d"

/-- `sign_liveness_v2_bytes`: the message, if one is signed, and the table it leaves. -/
def signLivenessV2Bytes (table : Option LivenessTable) (answers : SigningAnswers)
    (d : SupervisedDevice) (runtimeSeq : ℤ) : Option Text × Option LivenessTable :=
  let holds nonce := table.any fun t => (t.entries.get? nonce).isSome
  match freshNonce holds answers.draw nonceAttempts 0 with
  | none => (none, table)
  | some nonce =>
    match buildLivenessBytes { bootId := .int d.bootId, capabilityHash := .str d.capabilityHash
                               deviceId := .str d.deviceId, runtimeSeq := .int runtimeSeq
                               nonce := .str nonce } with
    | .error _ => (none, table)
    | .ok liveness =>
      let signature := answers.sign (livenessPreimage liveness)
      match table, answers.clock with
      | some t, some start =>
        match t.record { nonce := nonce, deviceId := d.deviceId, bootId := d.bootId
                         capabilityHash := d.capabilityHash, signingStartNs := start } with
        | .error _ => (none, table)
        | .ok recorded =>
          if signature.isSome then (signature.map (livenessMessage liveness), some recorded)
          else (none, some (recorded.discard nonce))
      | _, _ => (signature.map (livenessMessage liveness), table)

/-! ### Calls in progress -/

inductive Phase where
  | manifest
  | sequence
  deriving DecidableEq

/-- Something that changed what is seen of a device. -/
inductive Change where
  | telemetry (a : Accepted)
  | released
  deriving DecidableEq

/-- A call past its check: the telemetry the check relied on, and what happened last to the device
since. -/
structure Signing where
  device : SupervisedDevice
  phase : Phase
  reliedOn : ℚ
  last : Option Change
  deriving DecidableEq

structure SignedLiveness where
  device : SupervisedDevice
  message : Text
  /-- What `supervised` answers at the instant of signing. -/
  supervised : Bool
  deriving DecidableEq

structure State where
  now : ℚ
  supervisor : Supervisor
  table : Option LivenessTable
  calls : ℕ → Option Signing
  signed : List SignedLiveness

inductive Label where
  | pass (elapsed : ℚ)
  | telemetry (d : SupervisedDevice)
  | release (deviceId : Text)
  /-- `sign_liveness` is called. -/
  | call (id : ℕ) (d : SupervisedDevice)
  /-- The registry row is read; nothing where the read raises. -/
  | manifest (id : ℕ) (row : Option Json)
  /-- The sequence number is allocated; nothing where the store refuses. -/
  | sequence (id : ℕ) (runtimeSeq : Option ℤ) (answers : SigningAnswers)

def setCall (s : State) (id : ℕ) (c : Option Signing) : State :=
  { s with calls := Function.update s.calls id c }

@[simp] theorem setCall_calls_self (s : State) (id : ℕ) (c : Option Signing) :
    (setCall s id c).calls id = c :=
  Function.update_self ..

theorem setCall_calls_of_ne (s : State) (c : Option Signing) {id id' : ℕ} (h : id' ≠ id) :
    (setCall s id c).calls id' = s.calls id' :=
  Function.update_of_ne h ..

/-- What happens to a device happens to the calls for it. -/
def changed (s : State) (deviceId : Text) (change : Change) : State :=
  { s with
    calls := fun id => (s.calls id).map fun c =>
      if c.device.deviceId = deviceId then { c with last := some change } else c }

def step (s : State) : Label → Option State
  | .pass elapsed => if 0 ≤ elapsed then some { s with now := s.now + elapsed } else none
  | .telemetry d =>
    some (changed { s with supervisor := s.supervisor.noteTelemetry d s.now } d.deviceId
      (.telemetry ⟨d.bootId, d.capabilityHash, s.now⟩))
  | .release deviceId =>
    some (changed { s with supervisor := s.supervisor.release deviceId } deviceId .released)
  | .call id d =>
    match s.calls id with
    | some _ => none
    | none =>
      -- a device that is not supervised is refused at once
      if s.supervisor.supervised d s.now then
        match s.supervisor.seen.get? d.deviceId with
        | none => none
        | some a =>
          some (setCall s id (some { device := d, phase := .manifest, reliedOn := a.acceptedAt
                                     last := none }))
      else some s
  | .manifest id row =>
    match s.calls id with
    | some ⟨d, .manifest, reliedOn, last⟩ =>
      if declaresSigningDomains (row.bind (·.get? "manifest")) then
        some (setCall s id (some ⟨d, .sequence, reliedOn, last⟩))
      else some (setCall s id none)
    | _ => none
  | .sequence id runtimeSeq answers =>
    match s.calls id with
    | some ⟨d, .sequence, _, _⟩ =>
      match runtimeSeq with
      | none => some (setCall s id none)
      | some seq =>
        let (message, table) := signLivenessV2Bytes s.table answers d seq
        let signed := message.toList.map fun m =>
          { device := d, message := m, supervised := s.supervisor.supervised d s.now }
        some { setCall s id none with table := table, signed := s.signed ++ signed }
    | _ => none

def initial (windowS : ℚ) (h : 0 < windowS) (table : Option LivenessTable) : State where
  now := 0
  supervisor := ⟨windowS, Dict.empty, h⟩
  table := table
  calls := fun _ => none
  signed := []

/-! ### Where the supervision lasts -/

/-- Nothing happened to the device since the check and the window of the telemetry it relied on has
not passed, or the last to happen was telemetry under the boot and the manifest that are signed and
its window has not passed. -/
def Signing.Lasts (c : Signing) (windowS now : ℚ) : Prop :=
  match c.last with
  | none => now - c.reliedOn < windowS
  | some (.telemetry a) =>
    a.bootId = c.device.bootId ∧ a.capabilityHash = c.device.capabilityHash ∧
      now - a.acceptedAt < windowS
  | some .released => False

/-- A step that signs does so for a call whose supervision has lasted since its check. -/
def SignsWhileLasting (s : State) : Label → Prop
  | .sequence id (some seq) answers =>
    ∀ c, s.calls id = some c → (signLivenessV2Bytes s.table answers c.device seq).1.isSome →
      c.Lasts s.supervisor.windowS s.now
  | _ => True

/-- What is seen of the device of a call is what the call's check saw, or what happened last. -/
def Signing.Seen (s : State) (c : Signing) : Prop :=
  s.supervisor.seen.get? c.device.deviceId =
    match c.last with
    | none => some ⟨c.device.bootId, c.device.capabilityHash, c.reliedOn⟩
    | some (.telemetry a) => some a
    | some .released => none

def Followed (s : State) : Prop := ∀ id c, s.calls id = some c → c.Seen s

theorem lasts_iff {s : State} {c : Signing} (h : c.Seen s) :
    s.supervisor.supervised c.device s.now = true ↔ c.Lasts s.supervisor.windowS s.now := by
  unfold Signing.Lasts Supervisor.supervised
  rw [h]
  cases c.last with
  | none => simp
  | some change =>
    cases change with
    | telemetry a =>
      by_cases hboot : a.bootId = c.device.bootId
      · by_cases hhash : a.capabilityHash = c.device.capabilityHash
        · simp [hboot, hhash]
        · simp [hhash]
      · simp [hboot]
    | released => simp

theorem Followed.setCall {s : State} (h : Followed s) (id : ℕ) {c : Option Signing}
    (hc : ∀ c', c = some c' → c'.Seen s) : Followed (setCall s id c) := by
  intro id' c' hl
  by_cases hi : id' = id
  · rw [hi, setCall_calls_self] at hl
    exact hc c' hl
  · rw [setCall_calls_of_ne s c hi] at hl
    exact h id' c' hl

theorem Followed.changed {s : State} (h : Followed s) {supervisor : Supervisor} {deviceId : Text}
    {change : Change} (hself : supervisor.seen.get? deviceId =
      match change with
      | .telemetry a => some a
      | .released => none)
    (ho : ∀ d, d ≠ deviceId → supervisor.seen.get? d = s.supervisor.seen.get? d) :
    Followed (changed { s with supervisor := supervisor } deviceId change) := by
  intro id c hc
  obtain ⟨c₀, hc₀, rfl⟩ := map_eq_some_iff.mp hc
  have hs := h id c₀ hc₀
  unfold Signing.Seen at hs ⊢
  split_ifs with hd
  · dsimp only [Liveness.changed]
    rw [hd, hself]
    cases change <;> rfl
  · exact (ho _ hd).trans hs

theorem supervised_seen {s : Supervisor} {d : SupervisedDevice} {now : ℚ} {a : Accepted}
    (h : s.supervised d now = true) (hg : s.seen.get? d.deviceId = some a) :
    a = ⟨d.bootId, d.capabilityHash, a.acceptedAt⟩ := by
  unfold Supervisor.supervised at h
  rw [hg] at h
  dsimp only at h
  by_cases hs : a.bootId ≠ d.bootId ∨ a.capabilityHash ≠ d.capabilityHash
  · rw [if_pos hs] at h
    cases h
  · obtain ⟨hboot, hhash⟩ := not_or.mp hs
    rw [← not_not.mp hboot, ← not_not.mp hhash]

/-- A step keeps every call followed, and what it signs is signed while supervised exactly where the
supervision of the call has lasted. -/
theorem step_signs {s t : State} {a : Label} (hs : Followed s) (h : step s a = some t) :
    Followed t ∧ ∃ new, t.signed = s.signed ++ new ∧
      (SignsWhileLasting s a ↔ ∀ m ∈ new, m.supervised = true) := by
  have hi : ∀ {u : State}, Followed u → u.signed = s.signed → SignsWhileLasting s a →
      Followed u ∧ ∃ new, u.signed = s.signed ++ new ∧
        (SignsWhileLasting s a ↔ ∀ m ∈ new, m.supervised = true) := by
    intro u hu hsg hl
    refine ⟨hu, [], by rw [hsg, append_nil], ?_⟩
    exact iff_of_true hl nofun
  cases a with
  | pass elapsed =>
    simp only [step] at h
    split_ifs at h
    cases h
    exact hi hs rfl trivial
  | telemetry d =>
    cases h
    refine hi (hs.changed ?_ ?_) rfl trivial
    · exact Dict.get?_set_self ..
    · intro d' hd'
      exact Dict.get?_set_of_ne _ _ hd'
  | release deviceId =>
    cases h
    refine hi (hs.changed ?_ ?_) rfl trivial
    · exact Dict.get?_pop_self ..
    · intro d' hd'
      exact Dict.get?_pop_of_ne _ hd'
  | call id d =>
    simp only [step] at h
    cases hc : s.calls id with
    | some c =>
      rw [hc] at h
      cases h
    | none =>
      simp only [hc] at h
      split_ifs at h with hsu
      · split at h
        · cases h
        rename_i accepted hg
        cases h
        refine hi (hs.setCall id fun c' hc' => ?_) rfl trivial
        cases hc'
        exact hg.trans (congrArg some (supervised_seen hsu hg))
      · cases h
        exact hi hs rfl trivial
  | manifest id row =>
    simp only [step] at h
    split at h
    · rename_i d reliedOn last hc
      have hn := hs id _ hc
      split_ifs at h <;> cases h
      · refine hi (hs.setCall id fun c' hc' => ?_) rfl trivial
        cases hc'
        exact hn
      · exact hi (hs.setCall id nofun) rfl trivial
    · cases h
  | sequence id runtimeSeq answers =>
    simp only [step] at h
    split at h
    · rename_i d reliedOn last hc
      cases runtimeSeq with
      | none =>
        cases h
        exact hi (hs.setCall id nofun) rfl trivial
      | some seq =>
        have hls := lasts_iff (hs id _ hc)
        cases h
        refine ⟨hs.setCall id nofun, _, rfl, ?_⟩
        simp only [SignsWhileLasting, hc, some.injEq, forall_eq']
        cases hm : (signLivenessV2Bytes s.table answers d seq).1 with
        | none => simp
        | some message =>
          simp only [isSome_some, forall_const, toList_some, map_cons,
            map_nil, mem_singleton, forall_eq]
          exact hls.symm
    · cases h

theorem run_signs {s t : State} {labels : List Label} (hs : Followed s)
    (h : Execution.run step s labels = some t) : ∃ new, t.signed = s.signed ++ new ∧
      (Execution.Meets step SignsWhileLasting s labels ↔ ∀ m ∈ new, m.supervised = true) := by
  induction labels generalizing s with
  | nil =>
    cases h
    exact ⟨[], (append_nil _).symm, iff_of_true trivial nofun⟩
  | cons a labels ih =>
    obtain ⟨u, ht, hr⟩ := Execution.run_cons_eq_some_iff.mp h
    obtain ⟨hu, new₁, hs₁, hl₁⟩ := step_signs hs ht
    obtain ⟨new₂, hs₂, hl₂⟩ := ih hu hr
    refine ⟨new₁ ++ new₂, by rw [hs₂, hs₁, append_assoc], ?_⟩
    rw [forall_mem_append, ← hl₁, ← hl₂]
    constructor
    · rintro ⟨ha, hrs⟩
      exact ⟨ha, hrs u ht⟩
    · rintro ⟨ha, hrs⟩
      exact Execution.meets_cons ha ht hrs

/-- Every message of a run is signed while its device is supervised, exactly where each step that
signs does so for a call whose supervision has lasted since its check. -/
theorem signed_while_supervised_iff {windowS : ℚ} (hwindow : 0 < windowS)
    (table : Option LivenessTable) {labels : List Label} {s : State}
    (h : Execution.run step (initial windowS hwindow table) labels = some s) :
    Execution.Meets step SignsWhileLasting (initial windowS hwindow table) labels ↔
      ∀ m ∈ s.signed, m.supervised = true := by
  obtain ⟨new, hsigned, hlasting⟩ := run_signs (s := initial windowS hwindow table) nofun h
  rw [hlasting, hsigned]
  rfl

/-! ### Runs -/

def benchDevice : SupervisedDevice where
  deviceId := text "ridge-node-1"
  bootId := 4
  capabilityHash := text "sha256:" ++ List.replicate 64 (codePoint '0')

def benchRow : Json :=
  .obj [("manifest", .obj [("runtime_key_domains", .str (text "firmware-commands/v2"))])]

def benchAnswers : SigningAnswers where
  draw _ := List.replicate 16 0
  clock := none
  sign _ := some (text "c2ln")

/-- The device is signed for half a minute after its telemetry. -/
def followedLabels : List Label :=
  [.telemetry benchDevice, .pass 10, .call 1 benchDevice, .manifest 1 (some benchRow), .pass 20,
    .sequence 1 (some 7) benchAnswers]

theorem signed_while_supervised_followed : ∃ s,
    Execution.run step (initial 45 (by norm_num) none) followedLabels = some s ∧ s.signed ≠ [] ∧
      Execution.Meets step SignsWhileLasting (initial 45 (by norm_num) none) followedLabels := by
  have hany : (Execution.run step (initial 45 (by norm_num) none) followedLabels).any (fun s =>
      !s.signed.isEmpty && s.signed.all (·.supervised)) = true := by decide +kernel
  obtain ⟨s, hrun, hsigned⟩ := (any_eq_true _ _).mp hany
  obtain ⟨hne, hall⟩ := Bool.and_eq_true_iff.mp hsigned
  refine ⟨s, hrun, by simpa using hne, ?_⟩
  exact (signed_while_supervised_iff _ none hrun).mpr (all_eq_true.mp hall)

/-- The device is released while its sequence number is allocated, and is signed for all the same. -/
def releasedLabels : List Label :=
  [.telemetry benchDevice, .call 1 benchDevice, .manifest 1 (some benchRow),
    .release benchDevice.deviceId, .sequence 1 (some 7) benchAnswers]

theorem signed_after_release : ∃ s,
    Execution.run step (initial 45 (by norm_num) none) releasedLabels = some s ∧
      ∃ m ∈ s.signed, m.device = benchDevice ∧ m.supervised = false := by
  have hany : (Execution.run step (initial 45 (by norm_num) none) releasedLabels).any (fun s =>
      s.signed.any (fun m => decide (m.device = benchDevice ∧ m.supervised = false))) = true := by
    decide +kernel
  obtain ⟨s, hrun, hsigned⟩ := (any_eq_true _ _).mp hany
  obtain ⟨m, hm, hfalse⟩ := any_eq_true.mp hsigned
  exact ⟨s, hrun, m, hm, of_decide_eq_true hfalse⟩

end Liveness

end OriRuntime
