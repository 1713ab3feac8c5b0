import OriRuntime.ReplayOnce

/-!
# Every held key in both heaps

A heap keeps the entries of keys that left, and a key taken back or loaded again is pushed once
more. What every call keeps is that the current entry of a held key is in both heaps and that they
pop in order.
-/

namespace OriRuntime

open List Option

open Execution

namespace GatewayReplayCache

variable {c c' : GatewayReplayCache} {key : Text} {e : ℤ × ℤ}

/-! ### A cache in memory only -/

/-- `admit` without a store. -/
def admitMemory (c : GatewayReplayCache) (key : Text) (signedAtMs receivedAtMs currentMs : ℤ) :
    GatewayReplayCache × Option ReplayRefusal :=
  if c.unreadable then (c, some .beforeReplayFloor)
  else
    let c' := (c.pruned currentMs).1
    match c'.refusal key signedAtMs with
    | some reason => (c', some reason)
    | none =>
      let evicted := (evictMany (c'.held.items.length + 1 - c'.maxEntries) c' []).1.compact
      (evicted.hold key (evicted.expiry signedAtMs receivedAtMs) signedAtMs, none)

/-- Calls of a cache that does not store; a probe reads the floor an earlier run left. -/
inductive MemoryCall where
  | admitKey (key : Text) (signedAtMs receivedAtMs currentMs : ℤ)
  | prune (currentMs : ℤ)
  | evictOne
  | probe (floor : Option (Option ℤ))

def memoryStep (c : GatewayReplayCache) : MemoryCall → Option GatewayReplayCache
  | .admitKey key signedAtMs receivedAtMs currentMs =>
    some (c.admitMemory key signedAtMs receivedAtMs currentMs).1
  | .prune currentMs => some (if c.unreadable then c else (c.pruned currentMs).1)
  | .evictOne =>
    some (if c.unreadable then c else c.evict.elim c fun r => r.1.compact)
  | .probe none => some c.enterUnreadable
  | .probe (some floor) => some { c.mergeFloor floor with unreadable := false }

/-! ### The heaps -/

theorem heapLe_iff {a b : ℤ × Text} : heapLe a b ↔ toLex a ≤ toLex b := Prod.Lex.le_iff.symm

instance : Std.Total heapLe := ⟨fun a b => by simpa only [heapLe_iff] using le_total _ _⟩

instance : IsTrans (ℤ × Text) heapLe :=
  ⟨fun a b c => by simpa only [heapLe_iff] using le_trans⟩

theorem heapLe.le {a b : ℤ × Text} (h : heapLe a b) : a.1 ≤ b.1 := by
  rcases h with h | ⟨h, -⟩
  · exact h.le
  · exact h.le

structure Heaped (c : GatewayReplayCache) : Prop where
  size : 1 ≤ c.maxEntries
  expiries : c.expiries.Pairwise heapLe
  signings : c.signings.Pairwise heapLe
  entries : ∀ k e, c.held.get? k = some e → (e.1, k) ∈ c.expiries ∧ (e.2, k) ∈ c.signings

theorem Heaped.hold (h : Heaped c) (key : Text) (expiry n : ℤ) : Heaped (c.hold key expiry n) where
  size := h.size
  expiries := h.expiries.orderedInsert _ _
  signings := h.signings.orderedInsert _ _
  entries k e hk := by
    have hs : (c.held.set key (expiry, n)).get? k = some e := hk
    rw [Dict.get?_set] at hs
    change (e.1, k) ∈ c.expiries.orderedInsert heapLe _ ∧
      (e.2, k) ∈ c.signings.orderedInsert heapLe _
    rw [mem_orderedInsert, mem_orderedInsert]
    split_ifs at hs with he
    · cases hs
      exact ⟨.inl (by rw [he]), .inl (by rw [he])⟩
    · exact (h.entries k e hs).imp .inr .inr

theorem Heaped.compact (h : Heaped c) : Heaped c.compact := by
  have hm : ∀ k e, c.held.get? k = some e → (k, e) ∈ c.held.items := fun _ _ hk =>
    Dict.get?_eq_some_iff.mp hk
  refine ⟨h.size, ?_, ?_, fun k e hk => ⟨?_, ?_⟩⟩ <;> unfold GatewayReplayCache.compact <;>
    dsimp only <;> split_ifs
  · exact pairwise_insertionSort _ _
  · exact h.expiries
  · exact pairwise_insertionSort _ _
  · exact h.signings
  · exact (mem_insertionSort _).mpr (mem_map.mpr ⟨(k, e), hm k e hk, rfl⟩)
  · exact (h.entries k e hk).1
  · exact (mem_insertionSort _).mpr (mem_map.mpr ⟨(k, e), hm k e hk, rfl⟩)
  · exact (h.entries k e hk).2

theorem Heaped.mergeFloor (h : Heaped c) (stored : Option ℤ) : Heaped (c.mergeFloor stored) := by
  cases stored <;> exact { h with }

/-! ### Prunes -/

/-- What popping a heap of expiries leaves held, and that the other heap still has it. -/
theorem pruneFrom_spec (t : ℤ) (heap : List (ℤ × Text)) (c : GatewayReplayCache)
    (dropped : List DroppedKey) (hs : 1 ≤ c.maxEntries) (ho : heap.Pairwise heapLe)
    (hg : c.signings.Pairwise heapLe)
    (hx : ∀ k e, c.held.get? k = some e → (e.1, k) ∈ heap)
    (hn : ∀ k e, c.held.get? k = some e → (e.2, k) ∈ c.signings) :
    Heaped (pruneFrom t c heap dropped).1 ∧
      (pruneFrom t c heap dropped).1.maxEntries = c.maxEntries ∧
      ∀ k e, (pruneFrom t c heap dropped).1.held.get? k = some e ↔
        c.held.get? k = some e ∧ t < e.1 := by
  induction heap generalizing c dropped with
  | nil =>
    exact ⟨⟨hs, .nil, hg, fun k e h => ⟨hx k e h, hn k e h⟩⟩, rfl, fun k e =>
      ⟨fun h => absurd (hx k e h) not_mem_nil, And.left⟩⟩
  | cons item heap ih =>
    obtain ⟨hi, ho⟩ := pairwise_cons.mp ho
    have hskip : (∀ e, c.held.get? item.2 = some e → e.1 ≠ item.1) →
        ∀ k e, c.held.get? k = some e → (e.1, k) ∈ heap := fun hne k e hk =>
      (mem_cons.mp (hx k e hk)).resolve_left fun he => hne e (he ▸ hk) (by rw [← he])
    rw [pruneFrom]
    split_ifs with hl
    · refine ⟨⟨hs, pairwise_cons.mpr ⟨hi, ho⟩, hg, fun k e h => ⟨hx k e h, hn k e h⟩⟩, rfl,
        fun k e => ⟨fun h => ⟨h, ?_⟩, And.left⟩⟩
      rcases mem_cons.mp (hx k e h) with he | hm
      · rwa [← he] at hl
      · exact hl.trans_le (hi _ hm).le
    split
    · rename_i entry he
      split_ifs with hex
      · have hsub : ∀ k e, (c.held.pop item.2).get? k = some e ↔
            k ≠ item.2 ∧ c.held.get? k = some e := by
          intro k e
          rw [Dict.get?_pop]
          split_ifs with hk <;> simp [hk]
        obtain ⟨hp, hm, hiff⟩ := ih (c.drop item.2 entry) (dropped ++ [(item.2, entry)]) hs ho hg
          (fun k e hk => by
            obtain ⟨hne, hk⟩ := (hsub k e).mp hk
            exact (mem_cons.mp (hx k e hk)).resolve_left fun h => hne (by rw [← h]))
          (fun k e hk => hn k e ((hsub k e).mp hk).2)
        refine ⟨hp, hm, fun k e => (hiff k e).trans ?_⟩
        change (c.held.pop item.2).get? k = some e ∧ t < e.1 ↔ _
        rw [hsub]
        refine ⟨fun h => ⟨h.1.2, h.2⟩, fun h => ⟨⟨?_, h.1⟩, h.2⟩⟩
        rintro rfl
        obtain rfl := mem_unique h.1 he
        exact hl (hex ▸ h.2)
      · exact ih c dropped hs ho hg
          (hskip fun e h hne => hex (by rw [← mem_unique h he, hne])) hn
    · rename_i he
      exact ih c dropped hs ho hg (hskip fun e h => by rw [he] at h; cases h) hn

theorem Heaped.pruned (h : Heaped c) (t : ℤ) : Heaped (c.pruned t).1 ∧
    (c.pruned t).1.maxEntries = c.maxEntries ∧
    (∀ k e, (c.pruned t).1.held.get? k = some e ↔ c.held.get? k = some e ∧ t < e.1) ∧
    ∀ d, d ∈ (c.pruned t).2 ↔ c.held.get? d.1 = some d.2 ∧ d.2.1 ≤ t := by
  obtain ⟨hp, hm, hiff⟩ := pruneFrom_spec t c.expiries c [] h.size h.expiries h.signings
    (fun k e hk => (h.entries k e hk).1) fun k e hk => (h.entries k e hk).2
  have hs := pruned_shrinks c t
  refine ⟨hp.compact, hm, hiff, fun d => ⟨fun hd => ?_, fun ⟨hh, hl⟩ => ?_⟩⟩
  · obtain ⟨hh, hn, -⟩ := hs.gone d hd
    refine ⟨hh, not_lt.mp fun hl => ?_⟩
    have hk : (c.pruned t).1.held.get? d.1 = some d.2 := (hiff d.1 d.2).mpr ⟨hh, hl⟩
    rw [hn] at hk
    cases hk
  · rcases hs.left d.1 d.2 hh with hk | hd
    · exact absurd ((hiff d.1 d.2).mp hk).2 hl.not_gt
    · exact hd

/-! ### Evictions -/

theorem length_pop (h : c.held.get? key = some e) :
    (c.held.pop key).items.length + 1 = c.held.items.length := by
  have hm : key ∈ c.held.items.map Prod.fst := mem_map_of_mem (Dict.get?_eq_some_iff.mp h)
  have hc := count_eq_one_of_mem c.held.nodup hm
  rw [count, countP_map] at hc
  have hl := length_eq_countP_add_countP (fun p : Text × ℤ × ℤ => p.1 == key) (l := c.held.items)
  have hf : (c.held.pop key).items.length =
      c.held.items.countP (fun p => decide ¬(p.1 == key) = true) := by
    rw [countP_eq_length_filter]
    simp [Dict.pop]
  change countP (fun p : Text × ℤ × ℤ => p.1 == key) c.held.items = 1 at hc
  omega

theorem length_set (c : GatewayReplayCache) (key : Text) (e : ℤ × ℤ) :
    (c.held.set key e).items.length ≤ c.held.items.length + 1 := by
  unfold Dict.set
  dsimp only
  split_ifs
  · exact (length_map _).trans_le (Nat.le_succ _)
  · exact (length_append ..).le

/-- The key evicted is a held one that was signed no later than any other. -/
structure Evicts (c c' : GatewayReplayCache) (d : DroppedKey) : Prop where
  heaped : Heaped c'
  maxEntries : c'.maxEntries = c.maxEntries
  held : c.held.get? d.1 = some d.2
  oldest : ∀ k e, c.held.get? k = some e → d.2.2 ≤ e.2
  length : c'.held.items.length + 1 = c.held.items.length

theorem Heaped.drop (h : Heaped c) (entry : ℤ × ℤ) : Heaped (c.drop key entry) where
  size := h.size
  expiries := h.expiries
  signings := h.signings
  entries k e hk := by
    have hp : (c.held.pop key).get? k = some e := hk
    rw [Dict.get?_pop] at hp
    split_ifs at hp
    exact h.entries k e hp

theorem evictFrom_spec (heap : List (ℤ × Text)) (h : Heaped { c with signings := heap }) :
    (∃ c' d, evictFrom c heap = some (c', d) ∧ Evicts c c' d) ∨
      evictFrom c heap = none ∧ c.held.items = [] := by
  induction heap with
  | nil =>
    refine .inr ⟨rfl, eq_nil_iff_forall_not_mem.mpr fun p hp => ?_⟩
    exact absurd (h.entries p.1 p.2 (Dict.get?_eq_some_iff.mpr hp)).2 not_mem_nil
  | cons item heap ih =>
    obtain ⟨hi, ho⟩ := pairwise_cons.mp h.signings
    have hskip : (∀ e, c.held.get? item.2 = some e → e.2 ≠ item.1) →
        Heaped { c with signings := heap } := fun hne => { h with
      signings := ho
      entries := fun k e hk => ⟨(h.entries k e hk).1,
        (mem_cons.mp (h.entries k e hk).2).resolve_left
          fun he => hne e (he ▸ hk) (by rw [← he])⟩ }
    rw [evictFrom]
    split
    · rename_i entry he
      split_ifs with hn
      · refine .inl ⟨_, _, rfl, ?_, rfl, he, fun k e hk => ?_, length_pop he⟩
        · have hd := @Heaped.drop _ item.2 h entry
          refine { hd with signings := ho, entries := fun k e hk => ⟨(hd.entries k e hk).1, ?_⟩ }
          refine (mem_cons.mp (hd.entries k e hk).2).resolve_left fun heq => ?_
          have hp : (c.held.pop item.2).get? k = some e := hk
          rw [← heq, Dict.get?_pop_self] at hp
          cases hp
        · rcases mem_cons.mp (h.entries k e hk).2 with heq | hm
          · rw [hn, ← heq]
          · exact hn ▸ (hi _ hm).le
      · exact ih (hskip fun e hk heq => hn (by rw [← mem_unique hk he, heq]))
    · rename_i he
      exact ih (hskip fun e hk => by rw [he] at hk; cases hk)

theorem Heaped.evict (h : Heaped c) : (∃ c' d, c.evict = some (c', d) ∧ Evicts c c' d) ∨
    c.evict = none ∧ c.held.items = [] :=
  evictFrom_spec c.signings h

theorem Heaped.evictMany (h : Heaped c) (n : ℕ) (dropped : List DroppedKey) :
    Heaped (evictMany n c dropped).1 ∧ (evictMany n c dropped).1.maxEntries = c.maxEntries ∧
      (evictMany n c dropped).1.held.items.length = c.held.items.length - n := by
  induction n generalizing c dropped with
  | zero => exact ⟨h, rfl, rfl⟩
  | succ n ih =>
    rw [GatewayReplayCache.evictMany]
    rcases h.evict with ⟨c', d, he, ht⟩ | ⟨he, hn⟩
    · rw [he]
      obtain ⟨hh, hm, hl⟩ := ih ht.heaped (dropped ++ [d])
      have hlen := ht.length
      exact ⟨hh, hm.trans ht.maxEntries, by dsimp only; omega⟩
    · rw [he]
      exact ⟨h, rfl, by simp [hn]⟩

/-! ### Calls -/

theorem Heaped.restore (h : Heaped c) (dropped : List DroppedKey) (prior : Option ℤ) :
    Heaped (c.restore dropped prior) :=
  { foldlRecOn dropped _ h fun _ hc d _ => hc.hold d.1 d.2.1 d.2.2 with }

theorem heaped_created (ttlMs maxSkewMs maxEntries startMs : ℤ) :
    Heaped (created ttlMs maxSkewMs maxEntries startMs) where
  size := by
    unfold created
    dsimp only
    omega
  expiries := .nil
  signings := .nil
  entries _ _ hk := by cases hk

theorem Heaped.connect (h : Heaped c) (keyTime : Text → Option ℤ) (st : ReplayStore)
    (failure : Option OpenFailure) : Heaped (c.connect keyTime st failure).1 := by
  have hl : Heaped ((c.mergeFloor st.floorMs).load keyTime st.rows.items) :=
    foldlRecOn st.rows.items _ (h.mergeFloor st.floorMs) fun _ hc row _ => hc.hold _ _ _
  have he := (hl.evictMany
    (((c.mergeFloor st.floorMs).load keyTime st.rows.items).held.items.length -
      ((c.mergeFloor st.floorMs).load keyTime st.rows.items).maxEntries) []).1
  unfold GatewayReplayCache.connect
  dsimp only
  split_ifs
  · exact h
  · exact { he with }
  · exact he.restore _ _
  · exact { he with }

theorem Heaped.applyProbe (h : Heaped c) (keyTime : Text → Option ℤ) (st : ReplayStore)
    (floor : Option ℤ) (failure : Option OpenFailure) :
    Heaped (c.applyProbe keyTime st floor failure).1 := by
  unfold GatewayReplayCache.applyProbe
  split_ifs
  · exact { h.mergeFloor floor with }
  · dsimp only
    split_ifs <;> exact { h.connect keyTime st failure with }

theorem heaped_start (keyTime : Text → Option ℤ) (ttlMs maxSkewMs maxEntries startMs : ℤ)
    (st : ReplayStore) (failure : Option OpenFailure) :
    Heaped (start keyTime ttlMs maxSkewMs maxEntries startMs st failure).1 := by
  have h := (heaped_created ttlMs maxSkewMs maxEntries startMs).connect keyTime st failure
  unfold start
  dsimp only
  split_ifs
  · exact h
  · exact { h with }

theorem Heaped.settle (h : Heaped c) (st : ReplayStore) (dropped : List DroppedKey)
    (prior : Option ℤ) (fails : Bool) : Heaped (c.settle st dropped prior fails).1 := by
  unfold GatewayReplayCache.settle
  split_ifs
  · exact h
  · exact { h.restore dropped prior with }
  · exact h

theorem Heaped.prune (h : Heaped c) (st : ReplayStore) (t : ℤ) (fails : Bool) :
    Heaped (c.prune st t fails).1 := by
  unfold GatewayReplayCache.prune
  split_ifs
  · exact h
  · exact (h.pruned t).1.settle _ _ _ _

theorem Heaped.evictOne (h : Heaped c) (st : ReplayStore) (fails : Bool) :
    Heaped (c.evictOne st fails).1 := by
  unfold GatewayReplayCache.evictOne
  split_ifs
  · exact h
  rcases h.evict with ⟨c', d, he, ht⟩ | ⟨he, -⟩ <;> rw [he]
  · exact ht.heaped.compact.settle _ _ _ _
  · exact h

theorem Heaped.roomMade (h : Heaped c) (dropped : List DroppedKey) :
    let r := (GatewayReplayCache.evictMany (c.held.items.length + 1 - c.maxEntries) c dropped).1
    Heaped r.compact ∧ r.compact.maxEntries = c.maxEntries ∧
      r.compact.held.items.length + 1 ≤ c.maxEntries := by
  obtain ⟨hh, hm, hl⟩ := h.evictMany (c.held.items.length + 1 - c.maxEntries) dropped
  have hs := h.size
  refine ⟨hh.compact, hm, ?_⟩
  change (GatewayReplayCache.evictMany _ c dropped).1.held.items.length + 1 ≤ _
  omega

theorem Heaped.admitStored (h : Heaped c) (st : ReplayStore) (key : Text)
    (signedAtMs receivedAtMs : ℤ) (dropped : List DroppedKey) (reason : Option ReplayRefusal)
    (failure : Option StoreFailure) :
    let r := c.admitStored st key signedAtMs receivedAtMs dropped reason failure
    Heaped r.1 ∧ r.1.maxEntries = c.maxEntries ∧
      ∀ st', r.2.2 = some (st', none) → r.1.held.items.length + 1 ≤ c.maxEntries := by
  have hm := h.mergeFloor st.floorMs
  have he : (c.mergeFloor st.floorMs).maxEntries = c.maxEntries := by cases st.floorMs <;> rfl
  have hr := hm.roomMade dropped
  unfold GatewayReplayCache.admitStored
  dsimp only
  split_ifs with _ hs
  · exact ⟨h, rfl, by rintro _ ⟨⟩⟩
  · exact ⟨h, rfl, by rintro _ ⟨⟩⟩
  · refine ⟨h, rfl, fun st' ht => ?_⟩
    obtain rfl : reason = none := (Prod.mk.inj (some.inj ht)).2
    cases hs
  all_goals try exact ⟨h, rfl, fun _ ht => by cases ht⟩
  all_goals try exact ⟨hm, he, fun _ ht => by cases ht⟩
  · exact ⟨hr.1, hr.2.1.trans he, fun _ ht => by cases ht⟩
  · exact ⟨hr.1, hr.2.1.trans he, fun _ _ => hr.2.2.trans_eq he⟩

theorem Heaped.admitKey (h : Heaped c) (st : ReplayStore) (key : Text)
    (signedAtMs receivedAtMs t : ℤ) (failure : Option StoreFailure) :
    let r := c.admitKey st key signedAtMs receivedAtMs t failure
    Heaped r.1 ∧ (r.2.2 = none → r.1.held.items.length ≤ c.maxEntries) := by
  obtain ⟨hp, hm, -⟩ := h.pruned t
  unfold GatewayReplayCache.admitKey
  split_ifs
  · exact ⟨h, nofun⟩
  generalize c.pruned t = r at hp hm
  obtain ⟨c', dropped⟩ := r
  dsimp only at hp hm ⊢
  split_ifs with hq
  · refine ⟨hp, fun hn => ?_⟩
    rw [show c'.refusal key signedAtMs = none from hn] at hq
    cases hq.1
  obtain ⟨hs, hms, hl⟩ := hp.admitStored st key signedAtMs receivedAtMs dropped
    (c'.refusal key signedAtMs) failure
  generalize c'.admitStored st key signedAtMs receivedAtMs dropped
    (c'.refusal key signedAtMs) failure = r at hs hms hl
  obtain ⟨c'', dropped', _ | ⟨st', _ | refused⟩⟩ := r
  · exact ⟨{ hs.restore dropped' c.raisedFloor with }, nofun⟩
  · refine ⟨hs.hold _ _ _, fun _ => (length_set c'' _ _).trans ?_⟩
    exact hm ▸ hl st' rfl
  · exact ⟨hs, nofun⟩

theorem Heaped.admitMemory (h : Heaped c) (key : Text) (signedAtMs receivedAtMs t : ℤ) :
    let r := c.admitMemory key signedAtMs receivedAtMs t
    Heaped r.1 ∧ (r.2 = none → r.1.held.items.length ≤ c.maxEntries) := by
  obtain ⟨hp, hm, -⟩ := h.pruned t
  obtain ⟨hs, -, hl⟩ := hp.roomMade []
  unfold GatewayReplayCache.admitMemory
  split_ifs
  · exact ⟨h, nofun⟩
  dsimp only
  split
  · exact ⟨hp, nofun⟩
  · exact ⟨hs.hold _ _ _, fun _ => (length_set _ _ _).trans (hm ▸ hl)⟩

theorem Heaped.memoryStep {a : MemoryCall} (h : Heaped c)
    (hs : GatewayReplayCache.memoryStep c a = some c') : Heaped c' := by
  cases a with
  | admitKey key signedAtMs receivedAtMs t =>
    cases hs
    exact (h.admitMemory key signedAtMs receivedAtMs t).1
  | prune t =>
    cases hs
    split_ifs
    · exact h
    · exact (h.pruned t).1
  | evictOne =>
    cases hs
    split_ifs
    · exact h
    rcases h.evict with ⟨c', d, he, ht⟩ | ⟨he, -⟩ <;> rw [he]
    · exact ht.heaped.compact
    · exact h
  | probe floor =>
    cases floor <;> cases hs
    · exact { h with }
    · exact { h.mergeFloor _ with }

/-! ### Every reachable cache -/

/-- Where held keys stand in the heaps, what an eviction takes and what a prune drops. -/
structure HeapsExact (c : GatewayReplayCache) : Prop where
  entries : ∀ k e, c.held.get? k = some e → (e.1, k) ∈ c.expiries ∧ (e.2, k) ∈ c.signings
  evicts : c.held.items ≠ [] → ∃ c' d, c.evict = some (c', d) ∧ c.held.get? d.1 = some d.2 ∧
    ∀ k e, c.held.get? k = some e → d.2.2 ≤ e.2
  prunes : ∀ t, (∀ d, d ∈ (c.pruned t).2 ↔ c.held.get? d.1 = some d.2 ∧ d.2.1 ≤ t) ∧
    ∀ k e, (c.pruned t).1.held.get? k = some e ↔ c.held.get? k = some e ∧ t < e.1

theorem Heaped.exact (h : Heaped c) : HeapsExact c where
  entries := h.entries
  evicts hn := by
    rcases h.evict with ⟨c', d, he, ht⟩ | ⟨-, hnil⟩
    · exact ⟨c', d, he, ht.held, ht.oldest⟩
    · exact absurd hnil hn
  prunes t := ⟨(h.pruned t).2.2.2, (h.pruned t).2.2.1⟩

end GatewayReplayCache

namespace GatewayMessages

open GatewayReplayCache

variable {p : ReplayKeys} {s s' : State} {a : Label}

theorem heaped_step (hs : ∀ c, s.cache = some c → Heaped c) (h : step p s a = some s') :
    ∀ c, s'.cache = some c → Heaped c := by
  have hcall : ∀ {f : GatewayReplayCache → State}, s.cache.map f = some s' →
      (∀ c, Heaped c → ∀ c', (f c).cache = some c' → Heaped c') →
      ∀ c, s'.cache = some c → Heaped c := by
    intro f hm hf
    obtain ⟨c, hc, rfl⟩ := map_eq_some_iff.mp hm
    exact hf c (hs c hc)
  have hset : ∀ {c'}, Heaped c' → ∀ c, some c' = some c → Heaped c := fun h c he =>
    some.inj he ▸ h
  cases a with
  | start ttlMs maxSkewMs maxEntries startMs failure =>
    simp only [step] at h
    split at h <;> cases h
    exact hset (heaped_start _ _ _ _ _ _ _)
  | stop =>
    cases h
    rintro _ ⟨⟩
  | authenticate key t =>
    refine hcall h fun c hc c' hc' => hs c' ?_
    split_ifs at hc' <;> exact hc'
  | commit m t failure =>
    simp only [step] at h
    split_ifs at h
    exact hcall h fun c hc => hset (hc.admitKey _ _ _ _ _ _).1
  | verifyBroadcast key t failure =>
    refine hcall h fun c hc => hset ?_
    unfold verifyBroadcast
    split
    · exact hc
    · exact (hc.admitKey _ _ _ _ _ _).1
  | prune t fails => exact hcall h fun c hc => hset (hc.prune _ _ _)
  | evictOne fails => exact hcall h fun c hc => hset (hc.evictOne _ _)
  | probe fails =>
    simp only [step] at h
    split at h
    · rename_i c hc hp
      split_ifs at h <;> cases h
      · exact hset ({ hs c hc with })
      · exact hs
    · cases h
  | applyProbe failure =>
    simp only [step] at h
    split at h
    · rename_i c floor hc hp
      cases h
      exact hset ((hs c hc).applyProbe _ _ _ _)
    · cases h

/-- In a cache that stores, whatever its calls, failures and restarts, and in one that does not. -/
theorem replay_heaps : (∀ {store}, Reaches (step p) { store := store } s → ∀ c, s.cache = some c →
      HeapsExact c ∧ HeapsExact c.compact ∧ c.compact.held = c.held ∧
      ∀ key signedAtMs receivedAtMs t failure,
        let r := c.admitKey s.store key signedAtMs receivedAtMs t failure
        r.2.2 = none → r.1.held.items.length ≤ c.maxEntries) ∧
    ∀ {ttlMs maxSkewMs maxEntries startMs c},
      Reaches memoryStep (created ttlMs maxSkewMs maxEntries startMs) c →
      HeapsExact c ∧ HeapsExact c.compact ∧ c.compact.held = c.held ∧
      ∀ key signedAtMs receivedAtMs t,
        let r := c.admitMemory key signedAtMs receivedAtMs t
        r.2 = none → r.1.held.items.length ≤ c.maxEntries := by
  refine ⟨fun {store} h c hc => ?_, fun h => ?_⟩
  · have hh : Heaped c := Reaches.invariant (fun _ _ _ hs ht => heaped_step hs ht)
      (show ∀ c, (none : Option GatewayReplayCache) = some c → Heaped c from nofun) h c hc
    exact ⟨hh.exact, hh.compact.exact, rfl, fun _ _ _ _ _ => (hh.admitKey _ _ _ _ _ _).2⟩
  · have hh := Reaches.invariant (fun _ _ _ hs ht => hs.memoryStep ht) (heaped_created _ _ _ _) h
    exact ⟨hh.exact, hh.compact.exact, rfl, fun _ _ _ _ => (hh.admitMemory _ _ _ _).2⟩

/-- A key evicted with its write failed, and held again. -/
theorem replay_heaps_restored : ∃ s c, run (step ⟨fun _ => 1000, fun _ => none⟩) { store := {} }
        [.start 10 50 4 900 none, .verifyBroadcast [97] 1000 none, .evictOne true] = some s ∧
      s.cache = some c ∧ c.expiries.length = 2 ∧ HeapsExact c := by
  obtain ⟨s, hs, hc, hl⟩ : ∃ s, run (step ⟨fun _ => 1000, fun _ => none⟩) { store := {} }
      [.start 10 50 4 900 none, .verifyBroadcast [97] 1000 none, .evictOne true] = some s ∧
      s.cache.isSome = true ∧ ∀ c ∈ s.cache, c.expiries.length = 2 :=
    exists_of_check (by decide +kernel)
  obtain ⟨c, hc⟩ := isSome_iff_exists.mp hc
  exact ⟨s, c, hs, hc, hl c hc, ((replay_heaps.1 ⟨_, hs⟩) c hc).1⟩

end GatewayMessages

end OriRuntime
