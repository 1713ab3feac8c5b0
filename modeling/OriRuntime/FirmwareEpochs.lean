import OriRuntime.CanonicalZone
import OriRuntime.FirmwareStore

/-!
# Firmware epochs

An epoch is the hash of what it names, so under an injective hash an anchor stands under one epoch
and a key has one. An anchor only ever changes state, and no device has two in one live state.
-/

namespace OriRuntime

open Option

/-! ### Epochs name their anchors -/

namespace FirmwareKeys

open Json

variable {k : FirmwareKeys}

/-- The members a key epoch is the hash of, and those of an anchor epoch. -/
def keyEpochJson (deviceId publicKeyB64 : Text) : Json :=
  .obj [("device_id", .str deviceId), ("public_key_b64", .str publicKeyB64), ("v", .int 1)]

def anchorEpochJson (deviceId publicKeyB64 posture capabilityHash : Text) : Json :=
  .obj [("capability_hash", .str capabilityHash), ("device_id", .str deviceId),
    ("posture", .str posture), ("public_key_b64", .str publicKeyB64), ("v", .int 1)]

variable {e : Text}

theorem epochId_same (hs : Function.Injective k.sha256) {v w : Value}
    (hv : k.epochId v.json = some e) (hw : k.epochId w.json = some e) : Same v.json w.json := by
  unfold epochId at hv hw
  split at hv
  · rename_i b hb
    split at hw
    · rename_i b' hb'
      have hhash : k.sha256 b = k.sha256 b' :=
        List.append_cancel_left ((some.inj hv).trans (some.inj hw).symm)
      rw [← hs hhash] at hb'
      exact same_of_canonicalJson hb hb'
    · cases hw
  · cases hv

def keyEpochValue (deviceId publicKeyB64 : Text) : Value where
  json := keyEpochJson deviceId publicKeyB64
  distinct :=
    have hkeys : [text "device_id", text "public_key_b64", text "v"].Nodup := by decide
    ⟨hkeys, trivial, trivial, trivial, trivial⟩

def anchorEpochValue (deviceId publicKeyB64 posture capabilityHash : Text) : Value where
  json := anchorEpochJson deviceId publicKeyB64 posture capabilityHash
  distinct :=
    have hkeys : [text "capability_hash", text "device_id", text "posture",
      text "public_key_b64", text "v"].Nodup := by decide
    ⟨hkeys, trivial, trivial, trivial, trivial, trivial, trivial⟩

theorem keyEpochId_inj (hs : Function.Injective k.sha256) {d d' key key' : Text}
    (h : k.keyEpochId d key = some e) (h' : k.keyEpochId d' key' = some e) :
    d = d' ∧ key = key' := by
  have hm := epochId_same (v := keyEpochValue d key) (w := keyEpochValue d' key') hs h h'
  have he : (keyEpochJson d' key').get? "device_id" = some (.str d') := by
    rw [keyEpochJson, get?_obj]
    simp
  have hp : (keyEpochJson d' key').get? "public_key_b64" = some (.str key') := by
    rw [keyEpochJson, get?_obj]
    simp
  obtain ⟨⟨⟨v, hv, hd⟩, ⟨w, hw, hk⟩, -⟩, -⟩ := hm
  obtain rfl := mem_unique he hv
  obtain rfl := mem_unique hp hw
  exact ⟨hd, hk⟩

theorem anchorEpochId_inj (hs : Function.Injective k.sha256) {d d' key key' p p' c c' : Text}
    (h : k.anchorEpochId d key p c = some e) (h' : k.anchorEpochId d' key' p' c' = some e) :
    d = d' ∧ key = key' := by
  have hm := epochId_same (v := anchorEpochValue d key p c) (w := anchorEpochValue d' key' p' c')
    hs h h'
  have he : (anchorEpochJson d' key' p' c').get? "device_id" = some (.str d') := by
    rw [anchorEpochJson, get?_obj]
    simp
  have hp : (anchorEpochJson d' key' p' c').get? "public_key_b64" = some (.str key') := by
    rw [anchorEpochJson, get?_obj]
    simp
  obtain ⟨⟨-, ⟨v, hv, hd⟩, -, ⟨w, hw, hk⟩, -⟩, -⟩ := hm
  obtain rfl := mem_unique he hv
  obtain rfl := mem_unique hp hw
  exact ⟨hd, hk⟩

end FirmwareKeys

namespace FirmwareStore

open FirmwareKeys

variable {k : FirmwareKeys} {st st' : FirmwareStore} {d e : Text} {a : FirmwareAnchor}

/-! ### The anchors of a device -/

def Held (st : FirmwareStore) (d e : Text) (a : FirmwareAnchor) : Prop :=
  st.anchors.get? e = some a ∧ a.deviceId = d

/-- A state an anchor may be in force from. -/
def Live (s : AnchorState) : Prop := s = .pending ∨ s = .active ∨ s = .revoked

variable {s s' : AnchorState} {a' : FirmwareAnchor} {atMs : ℤ} {d' e' epoch keyEpoch : Text}
  {m : ManifestAnchor}

theorem anchorIn_some (h : st.anchorIn d s = some (e, a)) : Held st d e a ∧ a.state = s := by
  have hp := List.find?_some h
  obtain ⟨hd, hs⟩ := of_decide_eq_true hp
  exact ⟨⟨Dict.get?_eq_some_iff.mpr (List.mem_of_find?_eq_some h), hd⟩, hs⟩

theorem anchorIn_none (h : st.anchorIn d s = none) : ∀ e a, Held st d e a → a.state ≠ s := by
  rintro e a ⟨hg, hd⟩ hs
  have hn := List.find?_eq_none.mp h (e, a) (Dict.get?_eq_some_iff.mp hg)
  exact hn (decide_eq_true ⟨hd, hs⟩)

def moved (a : FirmwareAnchor) (s : AnchorState) (atMs : ℤ) : FirmwareAnchor :=
  { a with state := s, stateChangedAtMs := atMs }

theorem held_setState : Held (st.setState e s atMs) d e' a' ↔
      ∃ a, Held st d e' a ∧ a' = if e' = e then moved a s atMs else a := by
  unfold setState
  cases hg : st.anchors.get? e with
  | none =>
    constructor
    · intro h
      refine ⟨a', h, ?_⟩
      rw [if_neg]
      rintro rfl
      rw [h.1] at hg
      cases hg
    · rintro ⟨a, h, rfl⟩
      rw [if_neg]
      · exact h
      rintro rfl
      rw [h.1] at hg
      cases hg
  | some old =>
    unfold Held
    rw [Dict.get?_set]
    by_cases he : e' = e
    · subst he
      simp only [if_true, some.injEq]
      constructor
      · rintro ⟨rfl, hd⟩
        exact ⟨old, ⟨hg, hd⟩, rfl⟩
      · rintro ⟨a, ⟨ha, hd⟩, rfl⟩
        obtain rfl := mem_unique hg ha
        exact ⟨rfl, hd⟩
    · simp only [if_neg he]
      constructor
      · exact fun h => ⟨a', h, rfl⟩
      · rintro ⟨a, h, rfl⟩
        exact h

def moveState (st : FirmwareStore) (d : Text) (s s' : AnchorState) (atMs : ℤ) : FirmwareStore :=
  match st.anchorIn d s with
  | none => st
  | some p => st.setState p.1 s' atMs

@[simp] theorem setState_registry (st : FirmwareStore) (e : Text) (s : AnchorState) (atMs : ℤ) :
    (st.setState e s atMs).registry = st.registry := by
  unfold setState
  split <;> rfl

@[simp] theorem moveState_registry (st : FirmwareStore) (d : Text) (s s' : AnchorState)
    (atMs : ℤ) : (st.moveState d s s' atMs).registry = st.registry := by
  unfold moveState
  split
  · rfl
  · exact setState_registry st _ s' atMs

theorem held_moveState {s s' : AnchorState} {atMs : ℤ}
    (ho : ∀ e a e' a', Held st d e a → Held st d e' a' → a.state = s → a'.state = s → e = e')
    {d' e' : Text} {a' : FirmwareAnchor} : Held (st.moveState d s s' atMs) d' e' a' ↔
      ∃ a, Held st d' e' a ∧ a' = if d' = d ∧ a.state = s then moved a s' atMs else a := by
  unfold moveState
  cases hn : st.anchorIn d s with
  | none =>
    have hno := anchorIn_none hn
    constructor
    · intro h
      refine ⟨a', h, ?_⟩
      rw [if_neg]
      rintro ⟨rfl, hs⟩
      exact hno _ _ h hs
    · rintro ⟨a, h, rfl⟩
      rw [if_neg]
      · exact h
      · rintro ⟨rfl, hs⟩
        exact hno _ _ h hs
  | some p =>
    obtain ⟨hh, ht⟩ := anchorIn_some hn
    rw [held_setState]
    have hi : ∀ a, Held st d' e' a → (e' = p.1 ↔ d' = d ∧ a.state = s) := by
      intro a h
      constructor
      · rintro rfl
        obtain rfl := mem_unique hh.1 h.1
        exact ⟨h.2.symm.trans hh.2, ht⟩
      · rintro ⟨rfl, hs⟩
        exact ho _ _ _ _ h hh hs ht
    constructor
    all_goals
      rintro ⟨a, h, rfl⟩
      exact ⟨a, h, by simp only [hi a h]⟩

/-! ### What the anchors keep -/

/-- Every anchor stands under its own epoch, no device has two in one live state, and two of its
keys are of one identity only where they are one key. -/
structure AnchorsSound (k : FirmwareKeys) (st : FirmwareStore) : Prop where
  epochs : ∀ e a, st.anchors.get? e = some a →
    k.anchorEpochId a.deviceId a.publicKeyB64 a.posture a.capabilityHash = some e ∧
      k.keyEpochId a.deviceId a.publicKeyB64 = some a.keyEpochId
  one : ∀ d e a e' a', Held st d e a → Held st d e' a' → a.state = a'.state → Live a.state → e = e'
  identities : ∀ d e a e' a', Held st d e a → Held st d e' a' →
    k.keyIdentity a.publicKeyB64 = k.keyIdentity a'.publicKeyB64 → a.publicKeyB64 = a'.publicKeyB64

theorem AnchorsSound.unique (h : AnchorsSound k st) (hs : Live s) :
    ∀ e a e' a', Held st d e a → Held st d e' a' → a.state = s → a'.state = s → e = e' :=
  fun e a e' a' ha ha' hsa hs' => h.one d e a e' a' ha ha' (hsa.trans hs'.symm) (hsa ▸ hs)

theorem AnchorsSound.move (h : AnchorsSound k st) (hs : Live s)
    (hs' : Live s' → ∀ e a e' a', Held st d e a → Held st d e' a' → a.state = s → a'.state ≠ s')
    (atMs : ℤ) : AnchorsSound k (st.moveState d s s' atMs) := by
  have hh := fun {d' e' a'} =>
    @held_moveState st d s s' atMs (h.unique hs) d' e' a'
  have ht : ∀ d' (a : FirmwareAnchor), (if d' = d ∧ a.state = s then moved a s' atMs else a).state =
        if d' = d ∧ a.state = s then s' else a.state := by
    intro d' a
    split_ifs <;> rfl
  have hk : ∀ d' (a : FirmwareAnchor),
      (if d' = d ∧ a.state = s then moved a s' atMs else a).publicKeyB64 = a.publicKeyB64 := by
    intro d' a
    split_ifs <;> rfl
  refine ⟨?_, ?_, ?_⟩
  · intro e a' hg
    obtain ⟨d', hd'⟩ : ∃ d', a'.deviceId = d' := ⟨_, rfl⟩
    obtain ⟨a, ha, rfl⟩ := hh.mp (⟨hg, hd'⟩ : Held _ d' e a')
    have hn := h.epochs e a ha.1
    split_ifs
    all_goals exact hn
  · intro d' e a' e' b' ha' hb' hm hl
    obtain ⟨a, ha, rfl⟩ := hh.mp ha'
    obtain ⟨b, hb, rfl⟩ := hh.mp hb'
    rw [ht, ht] at hm
    by_cases hma : d' = d ∧ a.state = s
    · rw [if_pos hma] at hm hl
      by_cases hmb : d' = d ∧ b.state = s
      · exact h.one d' e a e' b ha hb (hma.2.trans hmb.2.symm) (hma.2 ▸ hs)
      rw [if_neg hmb] at hm
      obtain ⟨rfl, has⟩ := hma
      exact absurd hm.symm (hs' hl e a e' b ha hb has)
    · rw [if_neg hma] at hm hl
      split_ifs at hm with hmb
      · obtain ⟨rfl, hbs⟩ := hmb
        exact absurd hm (hs' (hm ▸ hl) e' b e a hb ha hbs)
      · exact h.one d' e a e' b ha hb hm hl
  · intro d' e a' e' b' ha' hb' hm
    obtain ⟨a, ha, rfl⟩ := hh.mp ha'
    obtain ⟨b, hb, rfl⟩ := hh.mp hb'
    rw [hk, hk] at hm ⊢
    exact h.identities d' e a e' b ha hb hm

theorem held_recordAnchor : Held (st.recordAnchor m epoch keyEpoch atMs) d' e' a' ↔
      (e' = epoch ∧ a' = pendingAnchor m keyEpoch atMs ∧ m.deviceId = d') ∨
        (e' ≠ epoch ∧ Held st d' e' a') := by
  unfold Held recordAnchor
  rw [Dict.get?_set]
  split_ifs with he
  · constructor
    · rintro ⟨h, hd⟩
      cases h
      exact .inl ⟨he, rfl, hd⟩
    · rintro (⟨-, rfl, hd⟩ | ⟨hn, -⟩)
      · exact ⟨rfl, hd⟩
      · exact absurd he hn
  · constructor
    · exact fun h => .inr ⟨he, h⟩
    rintro (⟨h, -⟩ | ⟨-, h⟩)
    · exact absurd h he
    · exact h

theorem AnchorsSound.held_record_ne (hs : Function.Injective k.sha256) (h : AnchorsSound k st)
    (he : k.anchorEpochId m.deviceId m.publicKeyB64 m.posture m.capabilityHash = some epoch)
    (hd : d' ≠ m.deviceId) :
    Held (st.recordAnchor m epoch keyEpoch atMs) d' e' a' ↔ Held st d' e' a' := by
  rw [held_recordAnchor]
  constructor
  · rintro (⟨-, -, hd'⟩ | ⟨-, h'⟩)
    · exact absurd hd'.symm hd
    · exact h'
  · intro h'
    refine .inr ⟨?_, h'⟩
    rintro rfl
    obtain ⟨hd', -⟩ := anchorEpochId_inj hs (h.epochs _ _ h'.1).1 he
    exact hd (h'.2.symm.trans hd')

theorem AnchorsSound.record (h : AnchorsSound k st)
    (hk : k.keyEpochId m.deviceId m.publicKeyB64 = some keyEpoch)
    (he : k.anchorEpochId m.deviceId m.publicKeyB64 m.posture m.capabilityHash = some epoch)
    (ho : ∀ e a, Held st m.deviceId e a → a.state ≠ .pending)
    (hi : ∀ e a, Held st m.deviceId e a → k.keyIdentity a.publicKeyB64 =
      k.keyIdentity m.publicKeyB64 → a.publicKeyB64 = m.publicKeyB64) :
    AnchorsSound k (st.recordAnchor m epoch keyEpoch atMs) := by
  refine ⟨?_, ?_, ?_⟩
  · intro e a' hg
    rcases held_recordAnchor.mp (⟨hg, rfl⟩ : Held _ a'.deviceId e a') with
      ⟨rfl, ha', -⟩ | ⟨-, ha⟩
    · rw [ha']
      exact ⟨he, hk⟩
    · exact h.epochs e a' ha.1
  · intro d e a e' b ha hb hs hl
    rcases held_recordAnchor.mp ha with ⟨rfl, rfl, rfl⟩ | ⟨hn, ha'⟩
    · rcases held_recordAnchor.mp hb with ⟨rfl, -, -⟩ | ⟨hn', hb⟩
      · rfl
      · exact absurd hs.symm (ho e' b hb)
    · rcases held_recordAnchor.mp hb with ⟨rfl, rfl, rfl⟩ | ⟨hn', hb⟩
      · exact absurd hs (ho e a ha')
      · exact h.one d e a e' b ha' hb hs hl
  · intro d e a e' b ha hb hs
    rcases held_recordAnchor.mp ha with ⟨rfl, rfl, rfl⟩ | ⟨hn, ha'⟩
    · rcases held_recordAnchor.mp hb with ⟨rfl, rfl, -⟩ | ⟨hn', hb⟩
      · rfl
      · exact (hi e' b hb hs.symm).symm
    · rcases held_recordAnchor.mp hb with ⟨rfl, rfl, rfl⟩ | ⟨hn', hb⟩
      · exact hi e a ha' hs
      · exact h.identities d e a e' b ha' hb hs

theorem AnchorsSound.held_move (h : AnchorsSound k st) (hs : Live s) :
    Held (st.moveState d s s' atMs) d' e' a' ↔
      ∃ a, Held st d' e' a ∧ a' = if d' = d ∧ a.state = s then moved a s' atMs else a :=
  held_moveState (h.unique hs)

theorem AnchorsSound.held_move_ne (h : AnchorsSound k st) (hs : Live s) (hd : d' ≠ d) :
    Held (st.moveState d s s' atMs) d' e' a' ↔ Held st d' e' a' := by
  rw [h.held_move hs]
  simp only [hd]
  constructor
  · rintro ⟨a, ha, rfl⟩
    exact ha
  · exact fun ha => ⟨a', ha, rfl⟩

theorem AnchorsSound.held_move_self (h : AnchorsSound k st) (hs : Live s) :
    Held (st.moveState d s s' atMs) d e' a' ↔
      (Held st d e' a' ∧ a'.state ≠ s) ∨ ∃ a, Held st d e' a ∧ a.state = s ∧ a' = moved a s' atMs := by
  rw [h.held_move hs]
  constructor
  · rintro ⟨a, ha, rfl⟩
    by_cases ht : a.state = s
    · exact .inr ⟨a, ha, ht, if_pos ⟨rfl, ht⟩⟩
    have hkeep : ¬ (d = d ∧ a.state = s) := fun hc => ht hc.2
    rw [if_neg hkeep]
    exact .inl ⟨ha, ht⟩
  · rintro (⟨ha, ht⟩ | ⟨a, ha, ht, rfl⟩)
    · exact ⟨a', ha, (if_neg (fun hc => ht hc.2)).symm⟩
    · exact ⟨a, ha, (if_pos ⟨rfl, ht⟩).symm⟩

theorem moveState_anchors_congr {st₁ st₂ : FirmwareStore} (h : st₁.anchors = st₂.anchors)
    (s s' : AnchorState) (atMs : ℤ) :
    (st₁.moveState d s s' atMs).anchors = (st₂.moveState d s s' atMs).anchors := by
  unfold moveState anchorIn
  rw [h]
  split
  · exact h
  unfold setState
  rw [h]
  split
  · exact h
  · rfl

theorem moveState_of_held (h : AnchorsSound k st) (hs : Live s) (ha : Held st d e a)
    (ht : a.state = s) : st.moveState d s s' atMs = st.setState e s' atMs := by
  unfold moveState
  cases hi : st.anchorIn d s with
  | none => exact absurd ht (anchorIn_none hi e a ha)
  | some p =>
    obtain ⟨hh, hp⟩ := anchorIn_some hi
    have he : p.1 = e := h.unique hs _ _ _ _ hh ha hp ht
    rw [← he]

@[simp] theorem discardPending_registry (st : FirmwareStore) (d : Text) (atMs : ℤ)
    (t : Text → Option AnchorTransition) :
    (st.discardPending d atMs t).registry = st.registry := by
  unfold discardPending
  split
  · rfl
  · split
    all_goals exact setState_registry ..

theorem discardPending_anchors (st : FirmwareStore) (d : Text) (atMs : ℤ)
    (t : Text → Option AnchorTransition) :
    (st.discardPending d atMs t).anchors = (st.moveState d .pending .discarded atMs).anchors := by
  unfold discardPending moveState
  cases st.anchorIn d .pending with
  | none => rfl
  | some p =>
    dsimp only
    cases t p.1 with
    | none | some t => rfl


end FirmwareStore

end OriRuntime
