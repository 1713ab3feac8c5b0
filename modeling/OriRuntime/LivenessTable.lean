import OriRuntime.Bisect
import OriRuntime.Dict
import OriRuntime.Execution
import OriRuntime.Json

/-!
# The liveness table

`LivenessTable` of `ori/security/firmware/reading_age.py`: one entry for each nonce this process
signed, the keys of all entries in one sorted list and those of each device in another, both kept by
bisection. `recorded` and `called` say on the list of entries alone what a call leaves.
-/

namespace OriRuntime

open List Option

open Bisect

structure LivenessEntry where
  nonce : Text
  deviceId : Text
  bootId : ℤ
  capabilityHash : Text
  signingStartNs : ℤ
  deriving DecidableEq

/-- `(signing start, nonce)`, in the order of eviction. -/
abbrev LivenessKey := ℤ ×ₗ Text

def LivenessEntry.key (e : LivenessEntry) : LivenessKey := toLex (e.signingStartNs, e.nonce)

def LivenessKey.start (k : LivenessKey) : ℤ := (ofLex k).1

def LivenessKey.nonce (k : LivenessKey) : Text := (ofLex k).2

@[simp] theorem LivenessEntry.key_nonce (e : LivenessEntry) : LivenessKey.nonce e.key = e.nonce := rfl

def retentionNs : ℤ := 3600000000000

structure LivenessTable where
  perDeviceBound : ℤ
  totalBound : ℤ
  entries : Dict Text LivenessEntry
  order : List LivenessKey
  byDevice : Dict Text (List LivenessKey)
  perDevicePos : 1 ≤ perDeviceBound
  totalPos : 1 ≤ totalBound

/-- What stops `record`: a nonce it holds; the other two would be defects. -/
inductive RecordError where
  | repeated
  | indexError
  | runsOn
  deriving DecidableEq

namespace LivenessTable

/-- The constructor, which refuses a bound below one. -/
def create (perDeviceBound totalBound : ℤ) : Option LivenessTable :=
  if h : 1 ≤ perDeviceBound ∧ 1 ≤ totalBound then
    some { perDeviceBound := perDeviceBound, totalBound := totalBound, entries := Dict.empty
           order := [], byDevice := Dict.empty, perDevicePos := h.1, totalPos := h.2 }
  else none

/-- Delete a key from a device's list, and the device with its last one. -/
def dropKey (byDevice : Dict Text (List LivenessKey)) (deviceId : Text) (key : LivenessKey) :
    Dict Text (List LivenessKey) :=
  match byDevice.get? deviceId with
  | none => byDevice
  | some device =>
    if delAt device key = [] then byDevice.pop deviceId
    else byDevice.set deviceId (delAt device key)

def remove (t : LivenessTable) (nonce : Text) : LivenessTable :=
  match t.entries.get? nonce with
  | none => t
  | some entry =>
    let key : LivenessKey := toLex (entry.signingStartNs, nonce)
    { t with
      entries := t.entries.pop nonce
      order := delAt t.order key
      byDevice := dropKey t.byDevice entry.deviceId key }

/-- Evict while the first of the order is older than the retention at `now`. -/
def expire : ℕ → ℤ → LivenessTable → Except RecordError LivenessTable
  | fuel, now, t =>
    match t.order with
    | [] => .ok t
    | first :: _ =>
      if retentionNs < now - LivenessKey.start first then
        match fuel with
        | 0 => .error .runsOn
        | fuel + 1 => expire fuel now (t.remove (LivenessKey.nonce first))
      else .ok t

/-- Evict the first of a list of keys where the list is full. -/
def evictFirst (t : LivenessTable) (full : Prop) [Decidable full] (keys : List LivenessKey) :
    Except RecordError LivenessTable :=
  if full then
    match keys with
    | [] => .error .indexError
    | first :: _ => .ok (t.remove (LivenessKey.nonce first))
  else .ok t

def len (t : LivenessTable) : ℕ := t.entries.items.length

def deviceCount (t : LivenessTable) (deviceId : Text) : ℕ :=
  ((t.byDevice.get? deviceId).getD []).length

def insert (t : LivenessTable) (entry : LivenessEntry) : LivenessTable :=
  { t with
    entries := t.entries.set entry.nonce entry
    order := insort t.order entry.key
    byDevice :=
      t.byDevice.set entry.deviceId (insort ((t.byDevice.get? entry.deviceId).getD []) entry.key) }

def record (t : LivenessTable) (entry : LivenessEntry) : Except RecordError LivenessTable :=
  if (t.entries.get? entry.nonce).isSome then .error .repeated
  else do
    let t ← expire t.order.length entry.signingStartNs t
    let device := (t.byDevice.get? entry.deviceId).getD []
    let t ← t.evictFirst (t.perDeviceBound ≤ device.length) device
    let t ← t.evictFirst (t.totalBound ≤ t.len) t.order
    return t.insert entry

def discard (t : LivenessTable) (nonce : Text) : LivenessTable := t.remove nonce

/-- `match`. -/
def matching (t : LivenessTable) (nonce deviceId : Text) (bootId : ℤ) (capabilityHash : Text)
    (nowNs : ℤ) : Option ℤ :=
  match t.entries.get? nonce with
  | none => none
  | some entry =>
    if (entry.deviceId, entry.bootId, entry.capabilityHash) ≠ (deviceId, bootId, capabilityHash) then
      none
    else if retentionNs < nowNs - entry.signingStartNs then none
    else some entry.signingStartNs

inductive Call where
  | record (entry : LivenessEntry)
  | discard (nonce : Text)

/-- A call as its caller leaves the table: a nonce held already raises and changes nothing. -/
def call (t : LivenessTable) : Call → Option LivenessTable
  | .record entry =>
    match t.record entry with
    | .ok t' => some t'
    | .error .repeated => some t
    | .error _ => none
  | .discard nonce => some (t.discard nonce)

/-! ### What the calls leave -/

def hasExpired (now : ℤ) (e : LivenessEntry) : Bool := decide (retentionNs < now - e.signingStartNs)

def ofDevice (deviceId : Text) (e : LivenessEntry) : Bool := decide (e.deviceId = deviceId)

/-- `e` is the earliest of `held` by signing start, then by nonce. -/
def isEarliest (held : List LivenessEntry) (e : LivenessEntry) : Bool :=
  held.all fun e' => decide (e.key ≤ e'.key)

def dropEarliest (p : LivenessEntry → Bool) (held : List LivenessEntry) : List LivenessEntry :=
  held.filter fun e => !(p e && isEarliest (held.filter p) e)

def unexpired (now : ℤ) (held : List LivenessEntry) : List LivenessEntry :=
  held.filter fun e => !hasExpired now e

def withRoomFor (deviceId : Text) (perDeviceBound : ℤ) (held : List LivenessEntry) :
    List LivenessEntry :=
  if perDeviceBound ≤ (held.filter (ofDevice deviceId)).length then
    dropEarliest (ofDevice deviceId) held
  else held

def withRoom (totalBound : ℤ) (held : List LivenessEntry) : List LivenessEntry :=
  if totalBound ≤ held.length then dropEarliest (fun _ => true) held else held

def recorded (perDeviceBound totalBound : ℤ) (held : List LivenessEntry) (e : LivenessEntry) :
    List LivenessEntry :=
  withRoom totalBound (withRoomFor e.deviceId perDeviceBound (unexpired e.signingStartNs held)) ++
    [e]

def called (perDeviceBound totalBound : ℤ) (held : List LivenessEntry) : Call → List LivenessEntry
  | .record e =>
    if held.any (fun e' => decide (e'.nonce = e.nonce)) then held
    else recorded perDeviceBound totalBound held e
  | .discard nonce => held.filter fun e => decide (e.nonce ≠ nonce)

/-- The entries recorded by a sequence of calls that none of them evicted or discarded since. -/
def heldAfter (perDeviceBound totalBound : ℤ) (calls : List Call) : List LivenessEntry :=
  calls.foldl (called perDeviceBound totalBound) []

/-! ### The three structures -/

def nonces (held : List LivenessEntry) : List Text := held.map LivenessEntry.nonce

def keysOf (held : List LivenessEntry) : List LivenessKey := held.map LivenessEntry.key

structure Represents (t : LivenessTable) (held : List LivenessEntry) : Prop where
  nodup : (nonces held).Nodup
  entries : t.entries.items = held.map fun e => (e.nonce, e)
  sorted : t.order.Pairwise (· < ·)
  order : t.order.Perm (keysOf held)
  deviceSorted : ∀ d, ((t.byDevice.get? d).getD []).Pairwise (· < ·)
  device : ∀ d, ((t.byDevice.get? d).getD []).Perm (keysOf (held.filter (ofDevice d)))
  nonempty : ∀ d, t.byDevice.get? d ≠ some []

variable {t : LivenessTable} {held : List LivenessEntry}

variable {e : LivenessEntry} {nonce : Text} {p : LivenessEntry → Bool}
  {bound totalBound perDeviceBound : ℤ}

theorem eq_of_nonce (h : (nonces held).Nodup) {e' : LivenessEntry} (he : e ∈ held) (he' : e' ∈ held)
    (hn : e.nonce = e'.nonce) : e = e' :=
  inj_on_of_nodup_map h he he' hn

theorem Represents.get? (h : Represents t held) :
    t.entries.get? nonce = some e ↔ e ∈ held ∧ e.nonce = nonce := by
  rw [Dict.get?_eq_some_iff, h.entries, List.mem_map]
  constructor
  · rintro ⟨e', he', heq⟩
    obtain ⟨rfl, rfl⟩ := Prod.mk.inj heq
    exact ⟨he', rfl⟩
  · rintro ⟨he, rfl⟩
    exact ⟨e, he, rfl⟩

theorem Represents.get?_eq_none (h : Represents t held) :
    t.entries.get? nonce = none ↔ ∀ e ∈ held, e.nonce ≠ nonce := by
  rw [eq_none_iff_forall_ne_some]
  constructor
  · intro ho e he hn
    exact ho e (h.get?.mpr ⟨he, hn⟩)
  · intro ha e hg
    obtain ⟨he, hn⟩ := h.get?.mp hg
    exact ha e he hn

theorem perm_delAt {xs : List LivenessKey} {part : List LivenessEntry}
    (hs : xs.Pairwise (· < ·)) (hd : (nonces held).Nodup) (hp : ∀ e' ∈ part, e' ∈ held)
    (he : e ∈ held) (hperm : xs.Perm (keysOf part)) :
    (delAt xs e.key).Perm (keysOf (part.filter fun e' => decide (e'.nonce ≠ e.nonce))) := by
  rw [delAt_eq hs]
  refine (hperm.filter _).trans (List.Perm.of_eq ?_)
  rw [keysOf, List.filter_map]
  congr 1
  apply List.filter_congr
  intro e' he'
  simp only [Function.comp_apply, decide_eq_decide]
  refine not_congr ⟨fun heq => ?_, fun hn => ?_⟩
  · exact congrArg LivenessKey.nonce heq
  · rw [eq_of_nonce hd (hp e' he') he hn]

theorem getD_dropKey (byDevice : Dict Text (List LivenessKey)) (deviceId : Text)
    (key : LivenessKey) (d : Text) :
    ((dropKey byDevice deviceId key).get? d).getD [] =
      if d = deviceId then delAt ((byDevice.get? d).getD []) key else (byDevice.get? d).getD [] := by
  unfold dropKey
  cases hg : byDevice.get? deviceId with
  | none =>
    split_ifs with hd
    · rw [hd, hg]
      rfl
    · rfl
  | some device =>
    dsimp only
    by_cases hd : d = deviceId
    · subst hd
      rw [if_pos rfl, hg]
      split_ifs with he
      · rw [Dict.get?_pop_self, getD_some, he]
        rfl
      · rw [Dict.get?_set_self, getD_some, getD_some]
    · rw [if_neg hd]
      split_ifs
      · rw [Dict.get?_pop_of_ne _ hd]
      · rw [Dict.get?_set_of_ne _ _ hd]

theorem dropKey_nonempty {byDevice : Dict Text (List LivenessKey)}
    (h : ∀ d, byDevice.get? d ≠ some []) (deviceId : Text) (key : LivenessKey) (d : Text) :
    (dropKey byDevice deviceId key).get? d ≠ some [] := by
  unfold dropKey
  cases hg : byDevice.get? deviceId with
  | none => exact h d
  | some device =>
    dsimp only
    split_ifs with he
    · rw [Dict.get?_pop]
      split_ifs
      · simp
      · exact h d
    · rw [Dict.get?_set]
      split_ifs
      · simpa using he
      · exact h d

theorem Represents.remove (h : Represents t held) (nonce : Text) :
    Represents (t.remove nonce) (held.filter fun e => decide (e.nonce ≠ nonce)) := by
  unfold LivenessTable.remove
  cases hg : t.entries.get? nonce with
  | none =>
    have hkeep : (held.filter fun e => decide (e.nonce ≠ nonce)) = held :=
      List.filter_eq_self.mpr fun e he => decide_eq_true (h.get?_eq_none.mp hg e he)
    rwa [hkeep]
  | some e =>
    obtain ⟨he, rfl⟩ := h.get?.mp hg
    have hcomm : ∀ d, (held.filter fun e' => decide (e'.nonce ≠ e.nonce)).filter (ofDevice d) =
        (held.filter (ofDevice d)).filter fun e' => decide (e'.nonce ≠ e.nonce) :=
      fun d => List.filter_comm ..
    constructor
    · exact h.nodup.sublist (List.filter_sublist.map _)
    · simp only [Dict.pop, h.entries, List.filter_map]
      rfl
    · change (delAt t.order e.key).Pairwise (· < ·)
      rw [delAt_eq h.sorted]
      exact h.sorted.filter _
    · exact perm_delAt h.sorted h.nodup (fun _ => id) he h.order
    · intro d
      rw [getD_dropKey]
      split_ifs
      · rw [delAt_eq (h.deviceSorted d)]
        exact (h.deviceSorted d).filter _
      · exact h.deviceSorted d
    · intro d
      rw [getD_dropKey, hcomm]
      split_ifs with hd
      · exact perm_delAt (h.deviceSorted d) h.nodup (fun _ hm => List.mem_of_mem_filter hm) he
          (h.device d)
      · have hkeep : ((held.filter (ofDevice d)).filter fun e' => decide (e'.nonce ≠ e.nonce)) =
            held.filter (ofDevice d) := by
          refine List.filter_eq_self.mpr fun e' he' => decide_eq_true fun hn => hd ?_
          obtain ⟨hm, hde⟩ := List.mem_filter.mp he'
          rw [eq_of_nonce h.nodup hm he hn] at hde
          exact (of_decide_eq_true hde).symm
        rw [hkeep]
        exact h.device d
    · exact dropKey_nonempty h.nonempty _ _

theorem Represents.insert (h : Represents t held) (hn : ∀ e' ∈ held, e'.nonce ≠ e.nonce) :
    Represents (t.insert e) (held ++ [e]) := by
  have hk : ∀ part : List LivenessEntry, (∀ e' ∈ part, e' ∈ held) → ∀ {xs : List LivenessKey},
      xs.Perm (keysOf part) → e.key ∉ xs := by
    intro part hp xs hperm hm
    obtain ⟨e', he', heq⟩ := mem_map.mp (hperm.mem_iff.mp hm)
    exact hn e' (hp e' he') (congrArg LivenessKey.nonce heq)
  have hdeviceKey : ∀ d, e.key ∉ (t.byDevice.get? d).getD [] :=
    fun d => hk _ (fun _ hm => mem_of_mem_filter hm) (h.device d)
  constructor
  · rw [nonces, map_append, nodup_append]
    refine ⟨h.nodup, nodup_singleton _, ?_⟩
    intro a ha b hb hab
    obtain ⟨e', he', rfl⟩ := mem_map.mp ha
    rw [map_singleton, mem_singleton] at hb
    exact hn e' he' (hab.trans hb)
  · have hno := h.get?_eq_none.mpr hn
    rw [LivenessTable.insert, Dict.items_set_of_get?_eq_none hno, h.entries, map_append,
      map_singleton]
  · exact pairwise_insort h.sorted (hk held (fun _ => id) h.order)
  · change (insort t.order e.key).Perm _
    rw [keysOf, map_append]
    exact (perm_insort h.sorted e.key).trans ((h.order.cons e.key).trans
      (perm_append_singleton ..).symm)
  · intro d
    simp only [LivenessTable.insert, Dict.get?_set]
    split_ifs with hd
    · rw [getD_some]
      exact pairwise_insort (h.deviceSorted e.deviceId) (hdeviceKey e.deviceId)
    · exact h.deviceSorted d
  · intro d
    simp only [LivenessTable.insert, Dict.get?_set]
    rw [filter_append]
    split_ifs with hd
    · have ho : [e].filter (ofDevice d) = [e] := by simp [ofDevice, hd]
      rw [ho, keysOf, map_append, hd]
      exact (perm_insort (h.deviceSorted _) e.key).trans (((h.device _).cons e.key).trans
        (perm_append_singleton ..).symm)
    · have ho : [e].filter (ofDevice d) = [] := by simp [ofDevice, Ne.symm hd]
      rw [ho, append_nil]
      exact h.device d
  · intro d
    simp only [LivenessTable.insert, Dict.get?_set]
    split_ifs with hd
    · intro he
      have hl := (perm_insort (h.deviceSorted e.deviceId) e.key).length_eq
      rw [some.inj he] at hl
      simp at hl
    · exact h.nonempty d

/-! ### Eviction -/

theorem Represents.order_length (h : Represents t held) : t.order.length = held.length := by
  rw [h.order.length_eq, keysOf, length_map]

theorem Represents.len (h : Represents t held) : t.len = held.length := by
  rw [LivenessTable.len, h.entries, length_map]

theorem Represents.deviceCount (h : Represents t held) (d : Text) :
    t.deviceCount d = (held.filter (ofDevice d)).length := by
  rw [LivenessTable.deviceCount, (h.device d).length_eq, keysOf, length_map]

theorem drop_first {first : LivenessKey} {rest : List LivenessKey} (hd : (nonces held).Nodup)
    (hs : (first :: rest).Pairwise (· < ·))
    (hperm : (first :: rest).Perm (keysOf (held.filter p))) :
    (held.filter fun e => decide (e.nonce ≠ LivenessKey.nonce first)) = dropEarliest p held := by
  obtain ⟨e, he, hf⟩ := List.mem_map.mp (hperm.mem_iff.mp List.mem_cons_self)
  have hl : ∀ e' ∈ held.filter p, e.key ≤ e'.key := by
    intro e' he'
    have hm := hperm.mem_iff.mpr (List.mem_map_of_mem he')
    rw [hf]
    obtain heq | hm := List.mem_cons.mp hm
    · exact heq.ge
    · exact (List.rel_of_pairwise_cons hs hm).le
  apply List.filter_congr
  intro e' he'
  rw [← hf, decide_not]
  congr 1
  rw [← Bool.coe_iff_coe]
  simp only [decide_eq_true_eq, Bool.and_eq_true, isEarliest, List.all_eq_true]
  constructor
  · intro hn
    obtain rfl := eq_of_nonce hd he' (List.mem_of_mem_filter he) hn
    exact ⟨(List.mem_filter.mp he).2, hl⟩
  · rintro ⟨hp, ha⟩
    have hk := le_antisymm (ha e he) (hl e' (List.mem_filter.mpr ⟨he', hp⟩))
    exact congrArg LivenessKey.nonce hk

@[simp] theorem remove_perDeviceBound (t : LivenessTable) (nonce : Text) :
    (t.remove nonce).perDeviceBound = t.perDeviceBound := by
  unfold LivenessTable.remove
  split <;> rfl

@[simp] theorem remove_totalBound (t : LivenessTable) (nonce : Text) :
    (t.remove nonce).totalBound = t.totalBound := by
  unfold LivenessTable.remove
  split <;> rfl

def SameBounds (t t' : LivenessTable) : Prop :=
  t'.perDeviceBound = t.perDeviceBound ∧ t'.totalBound = t.totalBound

theorem SameBounds.trans {t t' t'' : LivenessTable} (h : SameBounds t t') (h' : SameBounds t' t'') :
    SameBounds t t'' :=
  ⟨h'.1.trans h.1, h'.2.trans h.2⟩

theorem Represents.expire (h : Represents t held) (now : ℤ) {fuel : ℕ}
    (hfuel : t.order.length ≤ fuel) : ∃ t', expire fuel now t = .ok t' ∧
      Represents t' (unexpired now held) ∧ SameBounds t t' := by
  unfold unexpired
  induction fuel generalizing t held with
  | zero =>
    have hem : t.order = [] := List.length_eq_zero_iff.mp (Nat.le_zero.mp hfuel)
    have hh : held = [] := by
      rw [← List.length_eq_zero_iff, ← h.order_length, hem]
      rfl
    refine ⟨t, ?_, ?_, rfl, rfl⟩
    · rw [LivenessTable.expire, hem]
    · rwa [hh] at h ⊢
  | succ fuel ih =>
    have hs := h.sorted
    have hperm := h.order
    rw [LivenessTable.expire]
    cases ho : t.order with
    | nil =>
      have hh : held = [] := by
        rw [← List.length_eq_zero_iff, ← h.order_length, ho]
        rfl
      refine ⟨t, rfl, ?_, rfl, rfl⟩
      rwa [hh] at h ⊢
    | cons first rest =>
      rw [ho] at hs hperm hfuel
      dsimp only
      split_ifs with hold
      · have hre := h.remove (LivenessKey.nonce first)
        have hl : (t.remove (LivenessKey.nonce first)).order.length ≤ fuel := by
          obtain ⟨e, he, hf⟩ := List.mem_map.mp (hperm.mem_iff.mp List.mem_cons_self)
          have ht : (held.filter fun e => decide (e.nonce ≠ LivenessKey.nonce first)).length <
              held.length := by
            rw [List.length_filter_lt_length_iff_exists]
            exact ⟨e, he, by simp [← hf]⟩
          have hh := h.order_length
          rw [ho] at hh
          rw [hre.order_length]
          omega
        obtain ⟨t', hu, hr, hb⟩ := ih hre hl
        refine ⟨t', hu, ?_, ?_⟩
        · -- the entry removed had expired, so dropping it first changes nothing
          rw [List.filter_filter] at hr
          have hsm : (held.filter fun e => !hasExpired now e &&
              decide (e.nonce ≠ LivenessKey.nonce first)) =
              held.filter fun e => !hasExpired now e := by
            apply List.filter_congr
            intro e he
            by_cases hn : e.nonce = LivenessKey.nonce first
            · obtain ⟨e', he', hf⟩ := List.mem_map.mp (hperm.mem_iff.mp List.mem_cons_self)
              obtain rfl := eq_of_nonce h.nodup he he' (by rw [hn, ← hf]; rfl)
              have hex : hasExpired now e = true := by
                rw [← hf] at hold
                exact decide_eq_true hold
              simp [hex]
            · simp [hn]
          rwa [hsm] at hr
        · exact SameBounds.trans ⟨remove_perDeviceBound .., remove_totalBound ..⟩ hb
      · refine ⟨t, rfl, ?_, rfl, rfl⟩
        have hkeep : (held.filter fun e => !hasExpired now e) = held := by
          refine List.filter_eq_self.mpr fun e he => ?_
          have hle : first ≤ e.key := by
            obtain heq | hm := List.mem_cons.mp (hperm.mem_iff.mpr (List.mem_map_of_mem he))
            · exact heq.ge
            · exact (List.rel_of_pairwise_cons hs hm).le
          have hst : LivenessKey.start first ≤ e.signingStartNs := Prod.Lex.monotone_fst_ofLex hle
          simp only [hasExpired, Bool.not_eq_true', decide_eq_false_iff_not]
          omega
        rwa [hkeep]

theorem Represents.evictFirst (h : Represents t held) {full : Prop} [Decidable full]
    {keys : List LivenessKey} (hs : keys.Pairwise (· < ·))
    (hperm : keys.Perm (keysOf (held.filter p))) (hf : full → keys ≠ []) :
    ∃ t', t.evictFirst full keys = .ok t' ∧
      Represents t' (if full then dropEarliest p held else held) ∧ SameBounds t t' := by
  unfold LivenessTable.evictFirst
  split_ifs with h'
  · cases keys with
    | nil => exact absurd rfl (hf h')
    | cons first rest =>
      refine ⟨_, rfl, ?_, remove_perDeviceBound .., remove_totalBound ..⟩
      rw [← drop_first h.nodup hs hperm]
      exact h.remove _
  · exact ⟨t, rfl, h, rfl, rfl⟩

theorem Represents.evictOfDevice (h : Represents t held) (d : Text) :
    ∃ t', t.evictFirst (t.perDeviceBound ≤ ((t.byDevice.get? d).getD []).length)
        ((t.byDevice.get? d).getD []) = .ok t' ∧
      Represents t' (withRoomFor d t.perDeviceBound held) ∧ SameBounds t t' := by
  have hc := h.deviceCount d
  rw [withRoomFor, ← hc]
  refine h.evictFirst (h.deviceSorted d) (h.device d) ?_
  intro hf he
  have hp := t.perDevicePos
  rw [he, length_nil] at hf
  omega

theorem Represents.evict (h : Represents t held) :
    ∃ t', t.evictFirst (t.totalBound ≤ t.len) t.order = .ok t' ∧
      Represents t' (withRoom t.totalBound held) ∧ SameBounds t t' := by
  rw [withRoom, ← h.len]
  refine h.evictFirst h.sorted ?_ ?_
  · rw [filter_true]
    exact h.order
  · intro hf he
    have hp := t.totalPos
    have hl := h.order_length
    rw [he, length_nil] at hl
    rw [h.len] at hf
    omega

theorem mem_of_mem_dropEarliest (he : e ∈ dropEarliest p held) : e ∈ held := mem_of_mem_filter he

theorem mem_of_mem_withRoomFor {d : Text} (he : e ∈ withRoomFor d bound held) : e ∈ held := by
  unfold withRoomFor at he
  split_ifs at he
  · exact mem_of_mem_dropEarliest he
  · exact he

theorem mem_of_mem_withRoom (he : e ∈ withRoom bound held) : e ∈ held := by
  unfold withRoom at he
  split_ifs at he
  · exact mem_of_mem_dropEarliest he
  · exact he

theorem Represents.record (h : Represents t held) (hn : ∀ e' ∈ held, e'.nonce ≠ e.nonce) :
    ∃ t', t.record e = .ok t' ∧
      Represents t' (recorded t.perDeviceBound t.totalBound held e) ∧ SameBounds t t' := by
  obtain ⟨t₁, he, h₁, hb₁⟩ := h.expire e.signingStartNs le_rfl
  obtain ⟨t₂, hd, h₂, hb₂⟩ := h₁.evictOfDevice e.deviceId
  obtain ⟨t₃, ht, h₃, hb₃⟩ := h₂.evict
  rw [hb₁.1] at h₂ h₃
  rw [hb₂.2, hb₁.2] at h₃
  refine ⟨t₃.insert e, ?_, h₃.insert ?_, (hb₁.trans hb₂).trans hb₃⟩
  · have ho := h.get?_eq_none.mpr hn
    rw [LivenessTable.record, ho, if_neg (by simp)]
    exact Execution.bind_eq_ok_iff.mpr ⟨t₁, he, Execution.bind_eq_ok_iff.mpr
      ⟨t₂, hd, Execution.bind_eq_ok_iff.mpr ⟨t₃, ht, rfl⟩⟩⟩
  · intro e' he'
    exact hn e' (mem_of_mem_filter (mem_of_mem_withRoomFor (mem_of_mem_withRoom he')))

/-! ### Bounds -/

/-- At most `totalBound` entries, and at most `perDeviceBound` of one device. -/
def Within (perDeviceBound totalBound : ℤ) (held : List LivenessEntry) : Prop :=
  (held.length : ℤ) ≤ totalBound ∧
    ∀ d, ((held.filter (ofDevice d)).length : ℤ) ≤ perDeviceBound

theorem Within.sublist {he' : List LivenessEntry} (h : Within perDeviceBound totalBound held)
    (hs : he'.Sublist held) : Within perDeviceBound totalBound he' := by
  refine ⟨?_, fun d => ?_⟩
  · have hl := hs.length_le
    have ht := h.1
    omega
  · have hl := (hs.filter (ofDevice d)).length_le
    have hd := h.2 d
    omega

theorem length_dropEarliest (hne : held.filter p ≠ []) :
    ((dropEarliest p held).filter p).length < (held.filter p).length := by
  have hn : (held.filter p).toFinset.Nonempty := by
    rwa [List.toFinset_nonempty_iff]
  obtain ⟨e, he, hl⟩ := Finset.exists_min_image _ LivenessEntry.key hn
  rw [List.mem_toFinset] at he
  have ha : isEarliest (held.filter p) e = true :=
    List.all_eq_true.mpr fun e' he' => decide_eq_true (hl e' (List.mem_toFinset.mpr he'))
  rw [dropEarliest, List.filter_comm, List.length_filter_lt_length_iff_exists]
  exact ⟨e, he, by simp [(List.mem_filter.mp he).2, ha]⟩

theorem dropEarliest_sublist : (dropEarliest p held).Sublist held := filter_sublist

theorem withRoomFor_sublist (d : Text) (bound : ℤ) : (withRoomFor d bound held).Sublist held := by
  unfold withRoomFor
  split_ifs
  · exact dropEarliest_sublist
  · exact List.Sublist.refl _

theorem withRoom_sublist (bound : ℤ) : (withRoom bound held).Sublist held := by
  unfold withRoom
  split_ifs
  · exact dropEarliest_sublist
  · exact List.Sublist.refl _

theorem withRoomFor_length {d : Text} (hp : 1 ≤ bound)
    (h : ((held.filter (ofDevice d)).length : ℤ) ≤ bound) :
    (((withRoomFor d bound held).filter (ofDevice d)).length : ℤ) < bound := by
  unfold withRoomFor
  split_ifs with hf
  · have hn : held.filter (ofDevice d) ≠ [] := by
      intro he
      rw [he, length_nil] at hf
      omega
    have hl := length_dropEarliest hn
    omega
  · omega

theorem withRoom_length (hp : 1 ≤ bound) (h : (held.length : ℤ) ≤ bound) :
    ((withRoom bound held).length : ℤ) < bound := by
  unfold withRoom
  split_ifs with hf
  · have hn : held.filter (fun _ => true) ≠ [] := by
      intro he
      rw [filter_true] at he
      rw [he, length_nil] at hf
      omega
    have hl := length_dropEarliest hn
    rw [filter_true, filter_true] at hl
    omega
  · omega

theorem Within.recorded (he : 1 ≤ perDeviceBound) (ht : 1 ≤ totalBound)
    (h : Within perDeviceBound totalBound held) (e : LivenessEntry) :
    Within perDeviceBound totalBound (recorded perDeviceBound totalBound held e) := by
  have hu : Within perDeviceBound totalBound (unexpired e.signingStartNs held) :=
    h.sublist filter_sublist
  have hr := hu.sublist (withRoomFor_sublist e.deviceId perDeviceBound)
  have hk := hr.sublist (withRoom_sublist totalBound)
  refine ⟨?_, fun d => ?_⟩
  · have hlt := withRoom_length ht hr.1
    simp only [LivenessTable.recorded, length_append, length_singleton]
    omega
  · rw [LivenessTable.recorded, filter_append, length_append]
    by_cases hd : e.deviceId = d
    · have hlt := withRoomFor_length he (hu.2 e.deviceId)
      have hl := ((withRoom_sublist totalBound :
        (withRoom totalBound (withRoomFor e.deviceId perDeviceBound
          (unexpired e.signingStartNs held))).Sublist _).filter (ofDevice e.deviceId)).length_le
      have ho := length_filter_le (ofDevice d) [e]
      rw [length_singleton] at ho
      subst hd
      omega
    · have hn : [e].filter (ofDevice d) = [] := by simp [ofDevice, hd]
      have hl := hk.2 d
      rw [hn]
      omega

/-! ### Runs -/

/-- What the invariant of a run is about: the structures, the bounds and the table's own bounds. -/
structure Sound (perDeviceBound totalBound : ℤ) (t : LivenessTable) (held : List LivenessEntry) :
    Prop where
  represents : Represents t held
  within : Within perDeviceBound totalBound held
  perDevice : t.perDeviceBound = perDeviceBound
  total : t.totalBound = totalBound

theorem represents_empty {t₀ : LivenessTable} (h : create perDeviceBound totalBound = some t₀) :
    Sound perDeviceBound totalBound t₀ [] := by
  unfold create at h
  split_ifs at h with hp
  cases h
  refine ⟨⟨nodup_nil, rfl, List.Pairwise.nil, List.Perm.refl _, ?_, ?_, ?_⟩, ?_, rfl, rfl⟩
  · intro d
    exact List.Pairwise.nil
  · intro d
    exact List.Perm.refl _
  · intro d
    simp
  · refine ⟨?_, fun d => ?_⟩ <;> simp only [filter_nil, length_nil] <;> omega

theorem Sound.call (h : Sound perDeviceBound totalBound t held) (c : Call) :
    ∃ t', t.call c = some t' ∧
      Sound perDeviceBound totalBound t' (called perDeviceBound totalBound held c) := by
  obtain ⟨hr, hw, rfl, rfl⟩ := h
  cases c with
  | record e =>
    by_cases hh : ∀ e' ∈ held, e'.nonce ≠ e.nonce
    · obtain ⟨t', he, hr', hb⟩ := hr.record hh
      have ha : held.any (fun e' => decide (e'.nonce = e.nonce)) = false := by
        simpa using hh
      refine ⟨t', by simp only [LivenessTable.call, he], ?_⟩
      rw [called, ha, if_neg (by simp)]
      exact ⟨hr', hw.recorded t.perDevicePos t.totalPos e, hb.1, hb.2⟩
    · have hs : (t.entries.get? e.nonce).isSome = true := by
        rw [isSome_iff_ne_none]
        exact fun hn => hh (hr.get?_eq_none.mp hn)
      have ha : held.any (fun e' => decide (e'.nonce = e.nonce)) = true := by
        simpa using hh
      refine ⟨t, by simp only [LivenessTable.call, LivenessTable.record, hs, if_true], ?_⟩
      rw [called, ha]
      exact ⟨hr, hw, rfl, rfl⟩
  | discard nonce =>
    exact ⟨_, rfl, hr.remove nonce, hw.sublist filter_sublist,
      remove_perDeviceBound .., remove_totalBound ..⟩

theorem Sound.run (h : Sound perDeviceBound totalBound t held) (calls : List Call) :
    ∃ t', Execution.run LivenessTable.call t calls = some t' ∧ Sound perDeviceBound totalBound t'
        (calls.foldl (called perDeviceBound totalBound) held) := by
  induction calls generalizing t held with
  | nil => exact ⟨t, rfl, h⟩
  | cons c calls ih =>
    obtain ⟨u, hc, hu⟩ := h.call c
    obtain ⟨t', hr, ht'⟩ := ih hu
    exact ⟨t', Execution.run_cons_eq_some_iff.mpr ⟨u, hc, hr⟩, ht'⟩

theorem Represents.matching_eq_some_iff (h : Represents t held) {deviceId : Text} {bootId : ℤ}
    {capabilityHash : Text} {nowNs start : ℤ} :
    t.matching nonce deviceId bootId capabilityHash nowNs = some start ↔
      (⟨nonce, deviceId, bootId, capabilityHash, start⟩ : LivenessEntry) ∈ held ∧
        nowNs - start ≤ retentionNs := by
  unfold matching
  cases hg : t.entries.get? nonce with
  | none =>
    have hno := h.get?_eq_none.mp hg
    constructor
    · intro ho
      cases ho
    · rintro ⟨hm, -⟩
      exact absurd rfl (hno _ hm)
  | some e =>
    obtain ⟨he, rfl⟩ := h.get?.mp hg
    dsimp only
    by_cases hsm : (e.deviceId, e.bootId, e.capabilityHash) = (deviceId, bootId, capabilityHash)
    · rw [if_neg (not_not.mpr hsm)]
      obtain ⟨rfl, rfl, rfl⟩ := hsm
      constructor
      · intro hs
        split_ifs at hs with hold
        cases hs
        exact ⟨he, by omega⟩
      · rintro ⟨hm, hold⟩
        have hs : e.signingStartNs = start :=
          congrArg LivenessEntry.signingStartNs (eq_of_nonce h.nodup he hm rfl)
        rw [if_neg (by omega), hs]
    · rw [if_pos hsm]
      constructor
      · intro ho
        cases ho
      · rintro ⟨hm, -⟩
        have hn := eq_of_nonce h.nodup he hm rfl
        rw [hn] at hsm
        exact absurd rfl hsm

/-- After every sequence of calls the three structures hold the keys of the entries recorded and
neither evicted nor discarded since, within both bounds, and a match is one of those entries. -/
theorem table_represents {perDeviceBound totalBound : ℤ} {t₀ : LivenessTable}
    (h : create perDeviceBound totalBound = some t₀) (calls : List Call) :
    ∃ t, Execution.run LivenessTable.call t₀ calls = some t ∧
      Represents t (heldAfter perDeviceBound totalBound calls) ∧
      (t.len : ℤ) ≤ totalBound ∧ (∀ d, (t.deviceCount d : ℤ) ≤ perDeviceBound) ∧
      ∀ nonce deviceId bootId capabilityHash nowNs start,
        t.matching nonce deviceId bootId capabilityHash nowNs = some start ↔
          (⟨nonce, deviceId, bootId, capabilityHash, start⟩ : LivenessEntry) ∈
              heldAfter perDeviceBound totalBound calls ∧
            nowNs - start ≤ retentionNs := by
  obtain ⟨t, hrun, hsound⟩ := (represents_empty h).run calls
  refine ⟨t, hrun, hsound.represents, ?_, fun d => ?_, ?_⟩
  · rw [hsound.represents.len]
    exact hsound.within.1
  · rw [hsound.represents.deviceCount]
    exact hsound.within.2 d
  · intro nonce deviceId bootId capabilityHash nowNs start
    exact hsound.represents.matching_eq_some_iff

def benchEntry (nonce : String) (start : ℤ) : LivenessEntry where
  nonce := text nonce
  deviceId := text "ridge-node-1"
  bootId := 4
  capabilityHash := text "sha256:00"
  signingStartNs := start

def benchCalls : List Call :=
  [.record (benchEntry "a1" 20), .record (benchEntry "a0" 20), .record (benchEntry "a0" 9),
    .record (benchEntry "b7" 5), .discard (text "a1")]

theorem table_represents_bench : ∃ t₀ t, create 2 3 = some t₀ ∧
    Execution.run LivenessTable.call t₀ benchCalls = some t ∧
      Represents t (heldAfter 2 3 benchCalls) ∧
      t.matching (text "b7") (text "ridge-node-1") 4 (text "sha256:00") 12 = some 5 := by
  obtain ⟨t₀, h₀⟩ := isSome_iff_exists.mp (show (create 2 3).isSome = true by decide)
  obtain ⟨t, hrun, hrep, -, -, hmatch⟩ := table_represents h₀ benchCalls
  refine ⟨t₀, t, h₀, hrun, hrep, (hmatch ..).mpr ⟨?_, by decide⟩⟩
  have hheld : heldAfter 2 3 benchCalls = [benchEntry "b7" 5] := by decide +kernel
  rw [hheld]
  exact mem_singleton_self _

end LivenessTable

end OriRuntime
