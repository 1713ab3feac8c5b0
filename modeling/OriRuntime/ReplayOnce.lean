import OriRuntime.GatewayReplay

/-!
# Accepted at most once

A key leaves the cache only as the floor is raised past its signing time, and leaves the store only
in the transaction that writes that floor. So a key admitted once is held, or its signing time is
below the floor, in memory and in the store alike, across every failure and restart.
-/

namespace OriRuntime

open List Option

open Execution

/-! ### Floors -/

/-- A floor no lower than another. -/
def FloorLe (f g : Option ℤ) : Prop := ∀ n, f = some n → ∃ m, g = some m ∧ n ≤ m

def FloorPast (f : Option ℤ) (n : ℤ) : Prop := ∃ m, f = some m ∧ n < m

theorem FloorLe.refl (f : Option ℤ) : FloorLe f f := fun n h => ⟨n, h, le_rfl⟩

variable {f g : Option ℤ}

theorem FloorLe.trans {h : Option ℤ} (hf : FloorLe f g) (hg : FloorLe g h) : FloorLe f h := by
  intro n hn
  obtain ⟨m, hm, hnm⟩ := hf n hn
  obtain ⟨k, hk, hmk⟩ := hg m hm
  exact ⟨k, hk, hnm.trans hmk⟩

theorem FloorPast.mono {n : ℤ} (h : FloorPast f n) (hf : FloorLe f g) : FloorPast g n := by
  obtain ⟨m, hm, hn⟩ := h
  obtain ⟨k, hk, hmk⟩ := hf m hm
  exact ⟨k, hk, hn.trans_le hmk⟩

theorem floorLe_raisedTo (f : Option ℤ) (value : ℤ) : FloorLe f (some (raisedTo f value)) := by
  rintro n rfl
  exact ⟨_, rfl, le_max_left n value⟩

theorem le_raisedTo (f : Option ℤ) (value : ℤ) : value ≤ raisedTo f value := by
  cases f with
  | none => exact le_rfl
  | some n => exact le_max_right n value

theorem raisedTo_mono (h : FloorLe f g) (value : ℤ) : raisedTo f value ≤ raisedTo g value := by
  cases f with
  | none => exact le_raisedTo g value
  | some n =>
    obtain ⟨m, rfl, hn⟩ := h n rfl
    exact max_le_max hn le_rfl

namespace GatewayReplayCache

variable {c c' c'' : GatewayReplayCache} {dropped dropped' : List DroppedKey}

/-! ### Drops -/

/-- What a cache's configuration and standing are. -/
structure SameCache (c c' : GatewayReplayCache) : Prop where
  maxSkewMs : c'.maxSkewMs = c.maxSkewMs
  startFloor : c'.startFloor = c.startFloor
  connected : c'.connected = c.connected
  unreadable : c'.unreadable = c.unreadable

theorem SameCache.refl (c : GatewayReplayCache) : SameCache c c := ⟨rfl, rfl, rfl, rfl⟩

theorem SameCache.trans (h : SameCache c c') (h' : SameCache c' c'') : SameCache c c'' :=
  ⟨h'.maxSkewMs.trans h.maxSkewMs, h'.startFloor.trans h.startFloor,
    h'.connected.trans h.connected, h'.unreadable.trans h.unreadable⟩

/-- The keys that left, each with the floor raised past it, and no other changed. -/
structure Shrinks (c c' : GatewayReplayCache) (dropped : List DroppedKey) : Prop where
  same : SameCache c c'
  floor : FloorLe c.raisedFloor c'.raisedFloor
  kept : ∀ k e, c'.held.get? k = some e → c.held.get? k = some e
  left : ∀ k e, c.held.get? k = some e → c'.held.get? k = some e ∨ (k, e) ∈ dropped
  gone : ∀ d ∈ dropped, c.held.get? d.1 = some d.2 ∧ c'.held.get? d.1 = none ∧
    FloorPast c'.raisedFloor d.2.2

theorem Shrinks.of_held (hs : SameCache c c') (hf : FloorLe c.raisedFloor c'.raisedFloor)
    (hh : c'.held = c.held) : Shrinks c c' [] :=
  ⟨hs, hf, fun _ _ h => hh ▸ h, fun _ _ h => .inl (hh ▸ h), fun _ hd => absurd hd not_mem_nil⟩

theorem Shrinks.refl (c : GatewayReplayCache) : Shrinks c c [] := .of_held (.refl c) (.refl _) rfl

theorem Shrinks.trans (h : Shrinks c c' dropped) (h' : Shrinks c' c'' dropped') :
    Shrinks c c'' (dropped ++ dropped') where
  same := h.same.trans h'.same
  floor := h.floor.trans h'.floor
  kept k e hk := h.kept k e (h'.kept k e hk)
  left k e hk := by
    rcases h.left k e hk with hk | hd
    · rcases h'.left k e hk with hk | hd
      · exact .inl hk
      · exact .inr (mem_append_right _ hd)
    · exact .inr (mem_append_left _ hd)
  gone d hd := by
    rcases mem_append.mp hd with hd | hd
    · obtain ⟨hh, hn, hpast⟩ := h.gone d hd
      refine ⟨hh, ?_, hpast.mono h'.floor⟩
      cases hg : c''.held.get? d.1 with
      | none => rfl
      | some e =>
        rw [h'.kept _ _ hg] at hn
        cases hn
    · obtain ⟨hh, hn, hpast⟩ := h'.gone d hd
      exact ⟨h.kept _ _ hh, hn, hpast⟩

variable {key : Text} {n : ℤ}

theorem drop_shrinks {entry : ℤ × ℤ} (h : c.held.get? key = some entry) :
    Shrinks c (c.drop key entry) [(key, entry)] where
  same := ⟨rfl, rfl, rfl, rfl⟩
  floor := floorLe_raisedTo _ _
  kept k e hk := by
    have hp : (c.held.pop key).get? k = some e := hk
    rw [Dict.get?_pop] at hp
    split_ifs at hp
    exact hp
  left k e hk := by
    by_cases he : k = key
    · subst he
      obtain rfl := mem_unique h hk
      exact .inr (mem_singleton.mpr rfl)
    · exact .inl ((Dict.get?_pop_of_ne _ he).trans hk)
  gone d hd := by
    obtain rfl := mem_singleton.mp hd
    refine ⟨h, Dict.get?_pop_self _ _, _, rfl, ?_⟩
    have := le_raisedTo c.raisedFloor (entry.2 + 1)
    dsimp only
    omega

theorem pruneFrom_shrinks (currentMs : ℤ) (heap : List (ℤ × Text)) (c : GatewayReplayCache)
    (dropped : List DroppedKey) : ∃ new, (pruneFrom currentMs c heap dropped).2 = dropped ++ new ∧
      Shrinks c (pruneFrom currentMs c heap dropped).1 new := by
  induction heap generalizing c dropped with
  | nil => exact ⟨[], (append_nil _).symm, .of_held ⟨rfl, rfl, rfl, rfl⟩ (.refl _) rfl⟩
  | cons item heap ih =>
    rw [pruneFrom]
    split_ifs with hl
    · exact ⟨[], (append_nil _).symm, .of_held ⟨rfl, rfl, rfl, rfl⟩ (.refl _) rfl⟩
    split
    · rename_i entry he
      split_ifs with hex
      · obtain ⟨new, hn, hs⟩ := ih (c.drop item.2 entry) (dropped ++ [(item.2, entry)])
        refine ⟨(item.2, entry) :: new, ?_, (drop_shrinks he).trans hs⟩
        rw [hn, append_assoc]
        rfl
      · exact ih c dropped
    · exact ih c dropped

theorem compact_shrinks (c : GatewayReplayCache) : Shrinks c c.compact [] :=
  .of_held ⟨rfl, rfl, rfl, rfl⟩ (.refl _) rfl

theorem pruned_shrinks (c : GatewayReplayCache) (currentMs : ℤ) :
    Shrinks c (c.pruned currentMs).1 (c.pruned currentMs).2 := by
  obtain ⟨new, hn, hs⟩ := pruneFrom_shrinks currentMs c.expiries c []
  have ha := hs.trans (compact_shrinks _)
  rw [append_nil] at ha
  have hd : (c.pruned currentMs).2 = new := hn
  rw [hd]
  exact ha

theorem evictFrom_shrinks (heap : List (ℤ × Text)) {d : DroppedKey}
    (h : evictFrom c heap = some (c', d)) : Shrinks c c' [d] := by
  induction heap with
  | nil => cases h
  | cons item heap ih =>
    rw [evictFrom] at h
    split at h
    · rename_i entry he
      split_ifs at h with hl
      · cases h
        have hp : Shrinks c { c with signings := heap } [] :=
          .of_held ⟨rfl, rfl, rfl, rfl⟩ (.refl _) rfl
        exact hp.trans (drop_shrinks (c := { c with signings := heap }) he)
      · exact ih h
    · exact ih h

theorem evictMany_shrinks (n : ℕ) (c : GatewayReplayCache) (dropped : List DroppedKey) :
    ∃ new, (evictMany n c dropped).2 = dropped ++ new ∧
      Shrinks c (evictMany n c dropped).1 new := by
  induction n generalizing c dropped with
  | zero => exact ⟨[], (append_nil _).symm, .refl c⟩
  | succ n ih =>
    rw [evictMany]
    split
    · exact ⟨[], (append_nil _).symm, .refl c⟩
    rename_i c' d he
    obtain ⟨new, hn, hs⟩ := ih c' (dropped ++ [d])
    refine ⟨d :: new, ?_, (evictFrom_shrinks _ he).trans hs⟩
    rw [hn, append_assoc]
    rfl

theorem mergeFloor_shrinks (c : GatewayReplayCache) (stored : Option ℤ) :
    Shrinks c (c.mergeFloor stored) [] := by
  unfold mergeFloor
  split
  · exact .refl c
  · exact .of_held ⟨rfl, rfl, rfl, rfl⟩ (floorLe_raisedTo _ _) rfl

/-! ### Drops undone -/

theorem foldl_hold_get? {P : Text → Option (ℤ × ℤ)} (dropped : List DroppedKey)
    (hr : ∀ d ∈ dropped, P d.1 = some d.2) (c : GatewayReplayCache)
    (hc : ∀ k e, c.held.get? k = some e → P k = some e) :
    let c' := dropped.foldl (fun c d => c.hold d.1 d.2.1 d.2.2) c
    SameCache c c' ∧ (∀ k e, c'.held.get? k = some e → P k = some e) ∧
      (∀ k e, c.held.get? k = some e → c'.held.get? k = some e) ∧
      ∀ d ∈ dropped, c'.held.get? d.1 = some d.2 := by
  induction dropped generalizing c with
  | nil => exact ⟨.refl c, hc, fun _ _ h => h, fun _ hd => absurd hd not_mem_nil⟩
  | cons d dropped ih =>
    have hd := hr d mem_cons_self
    have hh : ∀ k e, (c.hold d.1 d.2.1 d.2.2).held.get? k = some e → P k = some e := by
      intro k e hk
      have hs : (c.held.set d.1 d.2).get? k = some e := hk
      rw [Dict.get?_set] at hs
      split_ifs at hs with he
      · rw [he, hd, hs]
      · exact hc k e hs
    obtain ⟨hm, hP, hmono, ha⟩ := ih (fun x hx => hr x (mem_cons_of_mem _ hx))
      (c.hold d.1 d.2.1 d.2.2) hh
    have hself : (c.hold d.1 d.2.1 d.2.2).held.get? d.1 = some d.2 := Dict.get?_set_self _ _ _
    have hf : SameCache c (c.hold d.1 d.2.1 d.2.2) := ⟨rfl, rfl, rfl, rfl⟩
    refine ⟨hf.trans hm, hP, ?_, ?_⟩
    · intro k e hk
      refine hmono k e ?_
      by_cases he : k = d.1
      · subst he
        rw [hself, ← hd, hc _ _ hk]
      · exact (Dict.get?_set_of_ne _ _ he).trans hk
    · intro x hx
      rcases mem_cons.mp hx with rfl | hx
      · exact hmono _ _ hself
      · exact ha x hx

theorem restore_get? (h : Shrinks c c' dropped) (prior : Option ℤ) (k : Text) :
    (c'.restore dropped prior).held.get? k = c.held.get? k := by
  obtain ⟨-, hP, hmono, ha⟩ := foldl_hold_get? dropped (fun d hd => (h.gone d hd).1) c' h.kept
  apply Option.ext
  intro e
  constructor
  · exact hP k e
  intro hk
  rcases h.left k e hk with hk | hd
  · exact hmono k e hk
  · exact ha _ hd

theorem restore_same (h : Shrinks c c' dropped) (prior : Option ℤ) :
    SameCache c (c'.restore dropped prior) := by
  obtain ⟨hs, -⟩ := foldl_hold_get? dropped (fun d hd => (h.gone d hd).1) c' h.kept
  have hr : SameCache c' (c'.restore dropped prior) := { hs with }
  exact h.same.trans hr

/-! ### What is remembered of a key -/

/-- The cache remembers the key, whose signing time is `n`. -/
def Remembers (c : GatewayReplayCache) (key : Text) (n : ℤ) : Prop :=
  (∃ x, c.held.get? key = some (x, n)) ∨ FloorPast c.raisedFloor n

theorem Remembers.shrink (h : Remembers c key n) (hs : Shrinks c c' dropped) :
    Remembers c' key n := by
  rcases h with ⟨x, hx⟩ | hpast
  · rcases hs.left _ _ hx with hx | hd
    · exact .inl ⟨x, hx⟩
    · exact .inr (hs.gone _ hd).2.2
  · exact .inr (hpast.mono hs.floor)

theorem Remembers.hold {key' : Text} {e n' : ℤ} (h : Remembers c key n) (hk : key = key' → n = n') :
    Remembers (c.hold key' e n') key n := by
  rcases h with ⟨x, hx⟩ | hpast
  · left
    by_cases heq : key = key'
    · subst heq
      obtain rfl := hk rfl
      exact ⟨e, Dict.get?_set_self _ _ _⟩
    · exact ⟨x, (Dict.get?_set_of_ne _ _ heq).trans hx⟩
  · exact .inr hpast

theorem Remembers.refused (h : Remembers c key n) : ∃ reason, c.refusal key n = some reason := by
  unfold refusal
  split_ifs with hb hh
  · exact ⟨_, rfl⟩
  · exact ⟨_, rfl⟩
  · rw [not_or] at hb
    rcases h with ⟨x, hx⟩ | ⟨m, hm, hl⟩
    · rw [hx] at hh
      exact absurd rfl hh
    · have hf : m ≤ c.floor := by
        unfold floor raisedTo
        rw [hm]
        exact le_max_left _ _
      omega

theorem floor_mono (hs : c'.startFloor = c.startFloor)
    (hf : FloorLe c.raisedFloor c'.raisedFloor) : c.floor ≤ c'.floor := by
  unfold floor
  rw [hs]
  exact raisedTo_mono hf _

end GatewayReplayCache

namespace ReplayStore

open GatewayReplayCache

variable {st : ReplayStore}

/-- The store remembers the key, whose signing time is `n`. -/
def Remembers (st : ReplayStore) (key : Text) (n : ℤ) : Prop :=
  (∃ row, st.rows.get? key = some row ∧ row.signedAtMs = some n) ∨ FloorPast st.floorMs n

theorem writeChange_floorLe (st : ReplayStore) (dropped : List DroppedKey)
    {c c' : GatewayReplayCache} (hs : Shrinks c c' dropped) (held : Option (Text × StoredKey)) :
    FloorLe st.floorMs (st.writeChange (dropped.map (·.1)) c'.raisedFloor held).floorMs := by
  unfold writeChange
  cases dropped with
  | nil => exact .refl _
  | cons d dropped =>
    obtain ⟨m, hm, -⟩ := (hs.gone d mem_cons_self).2.2
    rw [hm]
    exact floorLe_raisedTo _ _

theorem Remembers.writeChange {c c' : GatewayReplayCache} {dropped : List DroppedKey} {key : Text}
    {n : ℤ} (h : Remembers st key n) (he : c.Remembers key n) (hs : Shrinks c c' dropped)
    {held : Option (Text × StoredKey)}
    (hh : ∀ row, held = some (key, row) → row.signedAtMs = some n) :
    Remembers (st.writeChange (dropped.map (·.1)) c'.raisedFloor held) key n := by
  rcases h with ⟨row, ho, hg⟩ | hpast
  · by_cases hdr : key ∈ dropped.map (·.1)
    · right
      have hr : FloorPast c'.raisedFloor n := by
        rcases he.shrink hs with ⟨x, hx⟩ | hpast
        · obtain ⟨d, hd, rfl⟩ := mem_map.mp hdr
          rw [(hs.gone d hd).2.1] at hx
          cases hx
        · exact hpast
      obtain ⟨m, hm, hl⟩ := hr
      have hn : dropped.map (·.1) ≠ [] := ne_nil_of_mem hdr
      refine ⟨raisedTo st.floorMs m, ?_, hl.trans_le (le_raisedTo _ _)⟩
      dsimp only [ReplayStore.writeChange]
      rw [if_neg hn, hm]
      rfl
    · left
      have hp : ((dropped.map (·.1)).foldl (fun rows key => rows.pop key) st.rows).get? key =
          some row := by
        rw [Dict.get?_foldl_pop, if_neg hdr, ho]
      cases held with
      | none => exact ⟨row, hp, hg⟩
      | some new =>
        by_cases hk : key = new.1
        · refine ⟨new.2, ?_, hh new.2 (by rw [hk])⟩
          rw [hk]
          exact Dict.get?_set_self _ _ _
        · exact ⟨row, (Dict.get?_set_of_ne _ _ hk).trans hp, hg⟩
  · exact .inr (hpast.mono (writeChange_floorLe st dropped hs held))

end ReplayStore

namespace GatewayReplayCache

variable {c c' : GatewayReplayCache} {st st' : ReplayStore}

/-! ### Transactions of a running cache -/

/-- What a change of the cache and its store leaves. -/
inductive Changes (c : GatewayReplayCache) (st : ReplayStore) :
    GatewayReplayCache → ReplayStore → Prop where
  | memory {c' : GatewayReplayCache} : Shrinks c c' [] → Changes c st c' st
  | failed {c' : GatewayReplayCache} : (∀ k, c'.held.get? k = c.held.get? k) →
      c'.raisedFloor = c.raisedFloor → c'.maxSkewMs = c.maxSkewMs →
      c'.startFloor = c.startFloor → c'.connected = c.connected →
      c'.unreadable = true → Changes c st c' st
  | written {c' : GatewayReplayCache} {dropped : List DroppedKey} : c.connected = true →
      Shrinks c c' dropped →
      Changes c st c' (st.writeChange (dropped.map (·.1)) c'.raisedFloor none)

variable {dropped : List DroppedKey} {key : Text} {n : ℤ}

theorem failed_of_shrinks (h : Shrinks c c' dropped) :
    Changes c st ((c'.restore dropped c.raisedFloor).enterUnreadable) st := by
  have hs := restore_same h c.raisedFloor
  exact .failed (fun k => restore_get? h c.raisedFloor k) rfl hs.maxSkewMs hs.startFloor
    hs.connected rfl

theorem settle_changes (h : Shrinks c c' dropped) (fails : Bool) :
    Changes c st (c'.settle st dropped c.raisedFloor fails).1
      (c'.settle st dropped c.raisedFloor fails).2 := by
  unfold settle
  split_ifs with hn hf
  · subst hn
    exact .memory h
  · exact failed_of_shrinks h
  · rw [not_or, Bool.not_eq_false, h.same.connected] at hf
    exact .written hf.1 h

theorem prune_changes (c : GatewayReplayCache) (st : ReplayStore) (currentMs : ℤ) (fails : Bool) :
    Changes c st (c.prune st currentMs fails).1 (c.prune st currentMs fails).2 := by
  unfold prune
  split_ifs
  · exact .memory (.refl c)
  · exact settle_changes (pruned_shrinks c currentMs) fails

theorem evictOne_changes (c : GatewayReplayCache) (st : ReplayStore) (fails : Bool) :
    Changes c st (c.evictOne st fails).1 (c.evictOne st fails).2 := by
  unfold evictOne
  split_ifs
  · exact .memory (.refl c)
  split
  · exact .memory (.refl c)
  · rename_i c' d he
    exact settle_changes ((evictFrom_shrinks _ he).trans (compact_shrinks c')) fails

/-- What an admission leaves: a refusal, or a key that was not remembered now held and stored. -/
inductive Admits (c : GatewayReplayCache) (st : ReplayStore) (key : Text) (signedAtMs : ℤ) :
    GatewayReplayCache × ReplayStore × Option ReplayRefusal → Prop where
  | refused {c' : GatewayReplayCache} {st' : ReplayStore} {reason : ReplayRefusal} :
      Changes c st c' st' → Admits c st key signedAtMs (c', st', some reason)
  | admitted {c' : GatewayReplayCache} {dropped : List DroppedKey} {row : StoredKey} {e : ℤ} :
      c.connected = true → c.unreadable = false →
      ¬ Remembers c key signedAtMs → Shrinks c c' dropped → row.signedAtMs = some signedAtMs →
      Admits c st key signedAtMs (c'.hold key e signedAtMs,
        st.writeChange (dropped.map (·.1)) c'.raisedFloor (some (key, row)), none)

theorem admitStored_cases (h : Shrinks c c' dropped) (key : Text) (signedAtMs receivedAtMs : ℤ)
    (failure : Option StoreFailure) {reason : Option ReplayRefusal} {c'' : GatewayReplayCache}
    {dropped'' : List DroppedKey} {out : Option (ReplayStore × Option ReplayRefusal)}
    (heq : c'.admitStored st key signedAtMs receivedAtMs dropped reason failure =
      (c'', dropped'', out)) :
    Shrinks c c'' dropped'' ∧ (out = none ∨ c.connected = true ∧
      ((∃ refused, out = some (st.writeChange (dropped''.map (·.1)) c''.raisedFloor none,
          some refused)) ∨
        reason = none ∧ ∃ row, row.signedAtMs = some signedAtMs ∧
          out = some (st.writeChange (dropped''.map (·.1)) c''.raisedFloor (some (key, row)),
            none))) := by
  have hm := mergeFloor_shrinks c' st.floorMs
  have hs := h.trans hm
  rw [append_nil] at hs
  unfold admitStored at heq
  dsimp only at heq
  split at heq
  · cases heq
    exact ⟨h, .inl rfl⟩
  rename_i hb
  rw [not_or, Bool.not_eq_false, h.same.connected] at hb
  split at heq
  · rename_i hso
    split at heq
    · cases heq
      exact ⟨h, .inl rfl⟩
    · obtain ⟨refused, hr⟩ := isSome_iff_exists.mp hso
      cases heq
      exact ⟨h, .inr ⟨hb.1, .inl ⟨refused, by rw [hr]⟩⟩⟩
  rename_i ho
  rw [Bool.not_eq_true, isSome_eq_false_iff, isNone_iff_eq_none] at ho
  split at heq
  · cases heq
    exact ⟨h, .inl rfl⟩
  split at heq
  · split at heq
    · cases heq
      exact ⟨hs, .inl rfl⟩
    · cases heq
      exact ⟨hs, .inr ⟨hb.1, .inl ⟨_, rfl⟩⟩⟩
  split at heq
  · cases heq
    exact ⟨hs, .inl rfl⟩
  split at heq
  · split at heq
    · cases heq
      exact ⟨hs, .inl rfl⟩
    · cases heq
      exact ⟨hs, .inr ⟨hb.1, .inl ⟨_, rfl⟩⟩⟩
  obtain ⟨new, hn, he⟩ := evictMany_shrinks
    ((c'.mergeFloor st.floorMs).held.items.length + 1 - (c'.mergeFloor st.floorMs).maxEntries)
    (c'.mergeFloor st.floorMs) dropped
  have ha := (hs.trans he).trans (compact_shrinks _)
  rw [append_nil, ← hn] at ha
  split at heq
  · cases heq
    exact ⟨ha, .inl rfl⟩
  · cases heq
    exact ⟨ha, .inr ⟨hb.1, .inr ⟨ho, _, rfl, rfl⟩⟩⟩

theorem admit_admits (c : GatewayReplayCache) (st : ReplayStore) (key : Text)
    (signedAtMs receivedAtMs currentMs : ℤ) (failure : Option StoreFailure) :
    Admits c st key signedAtMs (c.admitKey st key signedAtMs receivedAtMs currentMs failure) := by
  unfold admitKey
  split_ifs with hu
  · exact .refused (.memory (.refl c))
  have hp := pruned_shrinks c currentMs
  generalize c.pruned currentMs = r at hp
  obtain ⟨c', dropped⟩ := r
  dsimp only at hp ⊢
  split_ifs with hq
  · obtain ⟨reason, hr⟩ := isSome_iff_exists.mp hq.1
    rw [hq.2] at hp
    rw [hr]
    exact .refused (.memory hp)
  rcases ht : c'.admitStored st key signedAtMs receivedAtMs dropped
    (c'.refusal key signedAtMs) failure with ⟨c'', dropped'', out⟩
  obtain ⟨hs, rfl | ⟨hc, ⟨refused, rfl⟩ | ⟨hn, row, hg, rfl⟩⟩⟩ :=
    admitStored_cases hp key signedAtMs receivedAtMs failure ht
  · exact .refused (failed_of_shrinks hs)
  · exact .refused (.written hc hs)
  · refine .admitted hc (Bool.not_eq_true _ ▸ hu) ?_ hs hg
    intro he
    obtain ⟨reason, hr⟩ := (he.shrink hp).refused
    rw [hr] at hn
    cases hn

/-! ### Opening a store -/

variable {keyTime : Text → Option ℤ}

theorem load_frame (keyTime : Text → Option ℤ) (rows : List (Text × StoredKey))
    (c : GatewayReplayCache) :
    SameCache c (c.load keyTime rows) ∧ (c.load keyTime rows).raisedFloor = c.raisedFloor ∧
      ∀ k, k ∉ rows.map (·.1) → (c.load keyTime rows).held.get? k = c.held.get? k := by
  induction rows generalizing c with
  | nil => exact ⟨.refl c, rfl, fun _ _ => rfl⟩
  | cons row rows ih =>
    let signedAtMs := c.rowSignedAtMs keyTime row.1 row.2
    let held := c.hold row.1 (c.rowExpiry signedAtMs row.2) signedAtMs
    obtain ⟨hs, hr, hfr⟩ := ih held
    have hf : SameCache c held := ⟨rfl, rfl, rfl, rfl⟩
    refine ⟨hf.trans hs, hr, ?_⟩
    intro k hk
    rw [map_cons, mem_cons, not_or] at hk
    exact (hfr k hk.2).trans (Dict.get?_set_of_ne _ _ hk.1)

theorem load_get? (rows : List (Text × StoredKey)) (hn : (rows.map (·.1)).Nodup)
    (c : GatewayReplayCache) {row : StoredKey} (hr : (key, row) ∈ rows)
    (hs : row.signedAtMs = some n) :
    ∃ e, (c.load keyTime rows).held.get? key = some (e, n) := by
  induction rows generalizing c with
  | nil => cases hr
  | cons first rows ih =>
    rw [map_cons, nodup_cons] at hn
    rcases mem_cons.mp hr with rfl | hr
    · have ht : c.rowSignedAtMs keyTime key row = n := by
        unfold rowSignedAtMs
        rw [hs]
      let held := c.hold key (c.rowExpiry (c.rowSignedAtMs keyTime key row) row)
        (c.rowSignedAtMs keyTime key row)
      have hf := (load_frame keyTime rows held).2.2 key hn.1
      refine ⟨c.rowExpiry n row, hf.trans ?_⟩
      rw [← ht]
      exact Dict.get?_set_self _ _ _
    · exact ih hn.2 _ hr

theorem mem_rewritten {rows : List (Text × StoredKey)} {r : Text × ℤ × ℤ}
    (h : r ∈ c.rewritten keyTime rows) :
    ∃ row, (r.1, row) ∈ rows ∧ r.2.2 = c.rowSignedAtMs keyTime r.1 row := by
  unfold rewritten at h
  obtain ⟨q, hq, hr⟩ := mem_filterMap.mp h
  split_ifs at hr
  cases hr
  obtain ⟨row, ho, rfl⟩ := mem_map.mp hq
  exact ⟨row.2, ho, rfl⟩

theorem rewrite_get? (kept : List (Text × ℤ × ℤ)) (hp : ∀ r ∈ kept, r.1 = key → r.2.2 = n)
    (rows : Dict Text StoredKey) (h : ∃ row, rows.get? key = some row ∧ row.signedAtMs = some n) :
    ∃ row, (({ rows := rows } : ReplayStore).rewrite kept).rows.get? key = some row ∧
      row.signedAtMs = some n := by
  induction kept generalizing rows with
  | nil => exact h
  | cons r kept ih =>
    obtain ⟨row, hr, hs⟩ := h
    have hrs : ∀ q ∈ kept, q.1 = key → q.2.2 = n := fun q hq => hp q (mem_cons_of_mem _ hq)
    refine ih hrs _ ?_
    split
    · exact ⟨row, hr, hs⟩
    rename_i found hf
    by_cases hk : key = r.1
    · refine ⟨{ found with seenUntilMs := r.2.1, signedAtMs := some r.2.2 }, ?_, ?_⟩
      · rw [hk]
        exact Dict.get?_set_self _ _ _
      · exact congrArg some (hp r mem_cons_self hk.symm)
    · exact ⟨row, (Dict.get?_set_of_ne _ _ hk).trans hr, hs⟩

theorem rewrite_remembers (h : st.Remembers key n) {kept : List (Text × ℤ × ℤ)}
    (hk : ∀ r ∈ kept, r ∈ c.rewritten keyTime st.rows.items) :
    (st.rewrite kept).Remembers key n := by
  rcases h with ⟨row, ho, hs⟩ | hpast
  · left
    refine rewrite_get? kept ?_ st.rows ⟨row, ho, hs⟩
    rintro r hr rfl
    obtain ⟨row', hr', ht⟩ := mem_rewritten (hk r hr)
    obtain rfl := mem_unique ho (Dict.get?_eq_some_iff.mpr hr')
    rw [ht, rowSignedAtMs, hs]
  · exact .inr hpast

/-- What opening a store leaves, of the cache and of the store. -/
structure Opens (c c' : GatewayReplayCache) (st st' : ReplayStore) : Prop where
  startFloor : c'.startFloor = c.startFloor
  floor : FloorLe c.raisedFloor c'.raisedFloor
  storedFloor : FloorLe st.floorMs st'.floorMs
  stored : ∀ key n, st.Remembers key n → st'.Remembers key n
  held : c'.connected = true → ∀ key n, st.Remembers key n → c'.Remembers key n

theorem connect_opens (keyTime : Text → Option ℤ) (st : ReplayStore)
    (hc : c.connected = false) (failure : Option OpenFailure) :
    Opens c (c.connect keyTime st failure).1 st (c.connect keyTime st failure).2 := by
  unfold connect
  split <;> rename_i hload
  · exact ⟨rfl, .refl _, .refl _, fun _ _ h => h, fun h => by simp [hc] at h⟩
  have hme := mergeFloor_shrinks c st.floorMs
  obtain ⟨hsm, ha, -⟩ := load_frame keyTime st.rows.items (c.mergeFloor st.floorMs)
  have hl : ∀ key n, st.Remembers key n →
      ((c.mergeFloor st.floorMs).load keyTime st.rows.items).Remembers key n := by
    rintro key n (⟨row, ho, hg⟩ | ⟨m, hm, ht⟩)
    · exact .inl (load_get? _ st.rows.nodup _ (Dict.get?_eq_some_iff.mp ho) hg)
    right
    rw [ha, hm]
    exact ⟨_, rfl, ht.trans_le (le_raisedTo _ _)⟩
  generalize (c.mergeFloor st.floorMs).load keyTime st.rows.items = loaded at hsm ha hl
  obtain ⟨dropped, hd, he⟩ := evictMany_shrinks
    (loaded.held.items.length - loaded.maxEntries) loaded []
  rw [nil_append] at hd
  dsimp only
  rw [hd]
  generalize (evictMany (loaded.held.items.length - loaded.maxEntries) loaded []).1 = evicted
    at he
  have hs : evicted.startFloor = c.startFloor :=
    he.same.startFloor.trans (hsm.startFloor.trans hme.same.startFloor)
  have hf : FloorLe c.raisedFloor loaded.raisedFloor := ha ▸ hme.floor
  have hf' := hf.trans he.floor
  have hk : ∀ r ∈ (c.rewritten keyTime st.rows.items).filter
      (fun r => (evicted.held.get? r.1).isSome), r ∈ c.rewritten keyTime st.rows.items :=
    fun r hr => mem_of_mem_filter hr
  have hrm : ∀ key n, st.Remembers key n → evicted.Remembers key n :=
    fun key n h => (hl key n h).shrink he
  split <;> rename_i hq
  · exact ⟨hs, hf', .refl _, fun _ _ h => h, fun _ key n h => hrm key n h⟩
  by_cases hw : failure = some .rewrite
  · have hre := restore_same he loaded.raisedFloor
    have hp : (evicted.restore dropped loaded.raisedFloor).connected = false :=
      hre.connected.trans (hsm.connected.trans (hme.same.connected.trans hc))
    rw [if_pos hw]
    exact ⟨hre.startFloor.trans (hsm.startFloor.trans hme.same.startFloor), hf,
      .refl _, fun _ _ h => h, fun h => by simp [hp] at h⟩
  · rw [if_neg hw]
    refine ⟨hs, hf', ?_, ?_, fun _ key n h => hrm key n h⟩
    · exact ReplayStore.writeChange_floorLe (st.rewrite _) dropped he none
    · intro key n h
      exact (rewrite_remembers h hk).writeChange (hl key n h) he (fun _ h => by cases h)

/-! ### Calls -/

/-- What a call on a running cache leaves, `f` giving each key's signing time. -/
structure Keeps (f : Text → ℤ) (c c' : GatewayReplayCache) (st st' : ReplayStore) : Prop where
  floor : c.floor ≤ c'.floor
  storedFloor : FloorLe st.floorMs st'.floorMs
  opened : (c.connected = false → c.unreadable = true) → c'.connected = false → c'.unreadable = true
  remembers : ∀ key, (c.connected = true → c.Remembers key (f key)) → st.Remembers key (f key) →
    (c'.connected = true → c'.Remembers key (f key)) ∧ st'.Remembers key (f key)

/-- What a call that is no probe leaves of a cache's standing. -/
structure Refuses (c c' : GatewayReplayCache) (st st' : ReplayStore) : Prop where
  unreadable : c.unreadable = true → c'.unreadable = true
  store : c'.unreadable = true → st' = st
  held : c.unreadable = false → c'.unreadable = true → c'.raisedFloor = c.raisedFloor ∧
    ∀ k, c'.held.get? k = c.held.get? k

theorem Refuses.refl (c : GatewayReplayCache) (st : ReplayStore) : Refuses c c st st where
  unreadable h := h
  store _ := rfl
  held hr hu := by
    rw [hr] at hu
    cases hu

theorem Remembers.of_held (h : Remembers c key n) (hh : ∀ k, c'.held.get? k = c.held.get? k)
    (hf : c'.raisedFloor = c.raisedFloor) : Remembers c' key n := by
  rcases h with ⟨x, hx⟩ | hpast
  · exact .inl ⟨x, (hh key).trans hx⟩
  · exact .inr (hf ▸ hpast)

theorem Changes.keeps (f : Text → ℤ) (h : Changes c st c' st') : Keeps f c c' st st' := by
  cases h with
  | memory h =>
    refine ⟨floor_mono h.same.startFloor h.floor, .refl _, ?_, ?_⟩
    · rw [h.same.connected, h.same.unreadable]
      exact fun h => h
    · intro key hm hs
      rw [h.same.connected]
      exact ⟨fun hc => (hm hc).shrink h, hs⟩
  | failed hh hf hskew ht ho hu =>
    refine ⟨floor_mono ht (hf ▸ .refl _), .refl _, fun _ _ => hu, ?_⟩
    intro key hm hs
    rw [ho]
    exact ⟨fun hc => (hm hc).of_held hh hf, hs⟩
  | written ho h =>
    have hstor := ReplayStore.writeChange_floorLe st _ h none
    refine ⟨floor_mono h.same.startFloor h.floor, hstor, ?_, ?_⟩
    · rw [h.same.connected, ho]
      exact fun _ hc => by cases hc
    · intro key hm hs
      exact ⟨fun _ => (hm ho).shrink h, hs.writeChange (hm ho) h (fun _ hr => by cases hr)⟩

theorem Changes.refuses (h : Changes c st c' st') (hc : c.unreadable = true → c' = c ∧ st' = st) :
    Refuses c c' st st' := by
  refine ⟨fun h => (hc h).1 ▸ h, ?_, ?_⟩
  · intro hu
    cases h with
    | memory h => rfl
    | failed => rfl
    | written ho h =>
      rw [h.same.unreadable] at hu
      exact (hc hu).2
  · intro hr hu
    cases h with
    | memory h =>
      rw [h.same.unreadable, hr] at hu
      cases hu
    | failed hh hf => exact ⟨hf, hh⟩
    | written ho h =>
      rw [h.same.unreadable, hr] at hu
      cases hu

theorem prune_refuses (c : GatewayReplayCache) (st : ReplayStore) (currentMs : ℤ) (fails : Bool) :
    Refuses c (c.prune st currentMs fails).1 st (c.prune st currentMs fails).2 := by
  refine (prune_changes c st currentMs fails).refuses ?_
  intro hu
  unfold prune
  rw [if_pos hu]
  exact ⟨rfl, rfl⟩

theorem evictOne_refuses (c : GatewayReplayCache) (st : ReplayStore) (fails : Bool) :
    Refuses c (c.evictOne st fails).1 st (c.evictOne st fails).2 := by
  refine (evictOne_changes c st fails).refuses ?_
  intro hu
  unfold evictOne
  rw [if_pos hu]
  exact ⟨rfl, rfl⟩

theorem admit_keeps (f : Text → ℤ) (c : GatewayReplayCache) (st : ReplayStore) (key : Text)
    (receivedAtMs currentMs : ℤ) (failure : Option StoreFailure) :
    let r := c.admitKey st key (f key) receivedAtMs currentMs failure
    Keeps f c r.1 st r.2.1 ∧ (r.2.2 = none → c.connected = true ∧ c.unreadable = false ∧
      ¬ c.Remembers key (f key) ∧ r.1.Remembers key (f key) ∧ r.2.1.Remembers key (f key)) := by
  intro r
  have ha : Admits c st key (f key) r := admit_admits c st key _ receivedAtMs currentMs failure
  generalize r = r at ha
  cases ha with
  | refused h => exact ⟨h.keeps f, fun h => by cases h⟩
  | @admitted c' dropped row e ho hr hn h hg =>
    have hstor := ReplayStore.writeChange_floorLe st _ h (some (key, row))
    refine ⟨⟨floor_mono h.same.startFloor h.floor, hstor, ?_, ?_⟩,
      fun _ => ⟨ho, hr, hn, .inl ⟨e, Dict.get?_set_self _ _ _⟩,
        .inl ⟨row, Dict.get?_set_self _ _ _, hg⟩⟩⟩
    · intro _ hc
      have hh : c'.connected = false := hc
      rw [h.same.connected, ho] at hh
      cases hh
    · intro k hm hs
      have hm := hm ho
      refine ⟨fun _ => (hm.shrink h).hold (fun hk => congrArg f hk), hs.writeChange hm h ?_⟩
      intro row' hro
      cases hro
      exact hg

theorem admit_refuses (c : GatewayReplayCache) (st : ReplayStore) (key : Text)
    (signedAtMs receivedAtMs currentMs : ℤ) (failure : Option StoreFailure) :
    let r := c.admitKey st key signedAtMs receivedAtMs currentMs failure
    Refuses c r.1 st r.2.1 ∧ (c.unreadable = true → r.2.2 ≠ none) := by
  intro r
  have ha : Admits c st key signedAtMs r := admit_admits c st key _ receivedAtMs currentMs failure
  have hu : c.unreadable = true → r = (c, st, some .beforeReplayFloor) := by
    intro h
    exact if_pos h
  generalize r = r at ha hu
  cases ha with
  | refused h =>
    refine ⟨h.refuses ?_, fun _ h => by cases h⟩
    intro hc
    obtain ⟨rfl, hrs⟩ := Prod.mk.inj (hu hc)
    exact ⟨rfl, (Prod.mk.inj hrs).1⟩
  | @admitted c' dropped row e ho hr hn h hg =>
    have hs : (c'.hold key e signedAtMs).unreadable = false := h.same.unreadable.trans hr
    refine ⟨⟨?_, ?_, ?_⟩, ?_⟩
    · intro hc
      rw [hr] at hc
      cases hc
    · intro hc
      rw [hs] at hc
      cases hc
    · intro _ hc
      rw [hs] at hc
      cases hc
    · intro hc
      rw [hr] at hc
      cases hc

theorem start_opens (keyTime : Text → Option ℤ) (ttlMs maxSkewMs maxEntries startMs : ℤ)
    (st : ReplayStore) (failure : Option OpenFailure) :
    let r := start keyTime ttlMs maxSkewMs maxEntries startMs st failure
    FloorLe st.floorMs r.2.floorMs ∧ (r.1.connected = false → r.1.unreadable = true) ∧
      ∀ key n, st.Remembers key n →
        (r.1.connected = true → r.1.Remembers key n) ∧ r.2.Remembers key n := by
  have ho := connect_opens (c := created ttlMs maxSkewMs maxEntries startMs) keyTime st rfl failure
  unfold start
  dsimp only
  generalize (created ttlMs maxSkewMs maxEntries startMs).connect keyTime st failure = r at ho
  split_ifs with hc
  · exact ⟨ho.storedFloor, fun h => by simp [hc] at h,
      fun key n h => ⟨fun _ => ho.held hc key n h, ho.stored key n h⟩⟩
  · refine ⟨ho.storedFloor, fun _ => rfl, fun key n h => ⟨?_, ho.stored key n h⟩⟩
    exact fun h => absurd h hc

theorem applyProbe_keeps (f : Text → ℤ) (keyTime : Text → Option ℤ) (c : GatewayReplayCache)
    (st : ReplayStore) (floor : Option ℤ) (failure : Option OpenFailure) :
    Keeps f c (c.applyProbe keyTime st floor failure).1 st
      (c.applyProbe keyTime st floor failure).2 := by
  unfold applyProbe
  by_cases hco : c.connected = true
  · have hm := mergeFloor_shrinks c floor
    rw [if_pos hco]
    refine ⟨floor_mono hm.same.startFloor hm.floor, .refl _, ?_, ?_⟩
    · intro _ hc
      have hs : (c.mergeFloor floor).connected = false := hc
      rw [hm.same.connected, hco] at hs
      cases hs
    · intro key he ht
      have hr := (he hco).shrink hm
      exact ⟨fun _ => hr, ht⟩
  · rw [if_neg hco]
    have ho := connect_opens (c := c) keyTime st (Bool.not_eq_true _ ▸ hco) failure
    dsimp only
    generalize c.connect keyTime st failure = r at ho
    have hf : c.floor ≤ r.1.floor := floor_mono ho.startFloor ho.floor
    split_ifs with hc
    · refine ⟨hf, ho.storedFloor, ?_, ?_⟩
      · intro _ h
        have hl : r.1.connected = false := h
        rw [hc] at hl
        cases hl
      · exact fun key _ h => ⟨fun _ => ho.held hc key _ h, ho.stored key _ h⟩
    · refine ⟨hf, ho.storedFloor, fun _ _ => rfl, ?_⟩
      exact fun key _ h => ⟨fun h => absurd h hc, ho.stored key _ h⟩

end GatewayReplayCache

namespace GatewayMessages

open GatewayReplayCache

variable {p : ReplayKeys} {s s' : State}

/-! ### Calls of a receiver -/

/-- What a call on the running cache does. -/
structure Called (p : ReplayKeys) (a : Label) (c c' : GatewayReplayCache) (s s' : State) :
    Prop where
  cache : s'.cache = some c'
  keeps : Keeps p.signedAtMs c c' s.store s'.store
  refuses : (∃ failure, a = .applyProbe failure) ∧ (c.connected = true → c'.unreadable = false) ∨
    Refuses c c' s.store s'.store
  quiet : c.unreadable = true → s'.admitted = s.admitted ∧ s'.authenticated = s.authenticated
  admitted : s'.admitted = s.admitted ∨ ∃ key, s'.admitted = s.admitted ++ [key] ∧
    c.connected = true ∧ ¬ c.Remembers key (p.signedAtMs key) ∧
    c'.Remembers key (p.signedAtMs key) ∧ s'.store.Remembers key (p.signedAtMs key)

variable {c : GatewayReplayCache} {a : Label}

theorem called_record (a : Label) (s : State) (key : Text) (receivedAtMs currentMs : ℤ)
    (failure : Option StoreFailure) :
    let r := c.admitKey s.store key (p.signedAtMs key) receivedAtMs currentMs failure
    Called p a c r.1 s (s.record key r) := by
  intro r
  obtain ⟨hk, hn⟩ := admit_keeps p.signedAtMs c s.store key receivedAtMs currentMs failure
  obtain ⟨hr, hq⟩ := admit_refuses c s.store key (p.signedAtMs key) receivedAtMs currentMs failure
  refine ⟨rfl, hk, .inr hr, ?_, ?_⟩
  · exact fun h => ⟨if_neg (hq h), rfl⟩
  by_cases ha : r.2.2 = none
  · obtain ⟨hc, -, hf, hca, hs⟩ := hn ha
    exact .inr ⟨key, if_pos ha, hc, hf, hca, hs⟩
  · exact .inl (if_neg ha)

theorem called_changes {c' : GatewayReplayCache} {st' : ReplayStore} (a : Label)
    (h : Changes c s.store c' st') (hr : Refuses c c' s.store st') :
    Called p a c c' s (s.settled (c', st')) :=
  ⟨rfl, h.keeps _, .inr hr, fun _ => ⟨rfl, rfl⟩, .inl rfl⟩

theorem called_authenticate (hc : s.cache = some c) (a : Label) (key : Text) (currentMs : ℤ) :
    Called p a c c s (if authenticate p c key currentMs = none then
      { s with authenticated := s.authenticated ++ [{ replayKey := key, atMs := currentMs }] }
      else s) := by
  have hk : Keeps p.signedAtMs c c s.store s.store := Changes.keeps _ (.memory (.refl c))
  split_ifs with hf
  · refine ⟨hc, hk, .inr (.refl c _), ?_, .inl rfl⟩
    intro hu
    exfalso
    unfold authenticate at hf
    split at hf
    · cases hf
    unfold refusal at hf
    rw [if_pos (.inl hu)] at hf
    cases hf
  · exact ⟨hc, hk, .inr (.refl c _), fun _ => ⟨rfl, rfl⟩, .inl rfl⟩

theorem step_called (hc : s.cache = some c) (h : step p s a = some s') :
    s' = { s with cache := none, authenticated := [], probed := none } ∨
      ∃ c', Called p a c c' s s' := by
  have hk : Keeps p.signedAtMs c c s.store s.store := Changes.keeps _ (.memory (.refl c))
  cases a with
  | start ttlMs maxSkewMs maxEntries startMs failure =>
    simp only [step, hc] at h
    cases h
  | stop =>
    cases h
    exact .inl rfl
  | authenticate key currentMs =>
    obtain ⟨d, hd, rfl⟩ := map_eq_some_iff.mp h
    obtain rfl := mem_unique hc hd
    exact .inr ⟨c, called_authenticate hc _ key currentMs⟩
  | commit m currentMs failure =>
    simp only [step] at h
    split_ifs at h with hm
    obtain ⟨d, hd, rfl⟩ := map_eq_some_iff.mp h
    obtain rfl := mem_unique hc hd
    exact .inr ⟨_, called_record _ s m.replayKey m.atMs currentMs failure⟩
  | verifyBroadcast key currentMs failure =>
    obtain ⟨d, hd, rfl⟩ := map_eq_some_iff.mp h
    obtain rfl := mem_unique hc hd
    unfold verifyBroadcast
    split
    · exact .inr ⟨c, rfl, hk, .inr (.refl c _), fun _ => ⟨rfl, rfl⟩, .inl rfl⟩
    · exact .inr ⟨_, called_record _ s key currentMs currentMs failure⟩
  | prune currentMs fails =>
    obtain ⟨d, hd, rfl⟩ := map_eq_some_iff.mp h
    obtain rfl := mem_unique hc hd
    exact .inr ⟨_, called_changes _ (prune_changes c s.store currentMs fails)
      (prune_refuses c s.store currentMs fails)⟩
  | evictOne fails =>
    obtain ⟨d, hd, rfl⟩ := map_eq_some_iff.mp h
    obtain rfl := mem_unique hc hd
    exact .inr ⟨_, called_changes _ (evictOne_changes c s.store fails)
      (evictOne_refuses c s.store fails)⟩
  | probe fails =>
    simp only [step] at h
    split at h
    · rename_i d hd hp
      obtain rfl := mem_unique hc hd
      split_ifs at h
      · cases h
        have hh : Changes c s.store c.enterUnreadable s.store :=
          .failed (fun _ => rfl) rfl rfl rfl rfl rfl
        exact .inr ⟨_, called_changes _ hh
          ⟨fun _ => rfl, fun _ => rfl, fun _ _ => ⟨rfl, fun _ => rfl⟩⟩⟩
      · cases h
        exact .inr ⟨c, hc, hk, .inr (.refl c _), fun _ => ⟨rfl, rfl⟩, .inl rfl⟩
    · cases h
  | applyProbe failure =>
    simp only [step] at h
    split at h
    · rename_i d floor hd hp
      obtain rfl := mem_unique hc hd
      cases h
      refine .inr ⟨_, rfl, applyProbe_keeps p.signedAtMs p.keyTime c s.store floor failure,
        .inl ⟨⟨failure, rfl⟩, ?_⟩, fun _ => ⟨rfl, rfl⟩, .inl rfl⟩
      intro ho
      unfold applyProbe
      rw [if_pos ho]
    · cases h

theorem step_started (hc : s.cache = none) (h : step p s a = some s') :
    s' = { s with cache := none, authenticated := [], probed := none } ∨
      ∃ ttlMs maxSkewMs maxEntries startMs failure, s' = s.settled (GatewayReplayCache.start
        p.keyTime ttlMs maxSkewMs maxEntries startMs s.store failure) := by
  cases a with
  | start ttlMs maxSkewMs maxEntries startMs failure =>
    simp only [step, hc] at h
    exact .inr ⟨ttlMs, maxSkewMs, maxEntries, startMs, failure, (some.inj h).symm⟩
  | stop => exact .inl (some.inj h).symm
  | commit m currentMs failure =>
    simp only [step, hc, map_none, ite_self] at h
    cases h
  | _ =>
    simp only [step, hc, map_none] at h
    cases h

/-! ### Runs -/

/-- Every admitted key is remembered by the store, and by the running cache once it has opened. -/
structure Kept (p : ReplayKeys) (s : State) : Prop where
  nodup : s.admitted.Nodup
  store : ∀ key ∈ s.admitted, s.store.Remembers key (p.signedAtMs key)
  opened : ∀ c, s.cache = some c → c.connected = false → c.unreadable = true
  cache : ∀ c, s.cache = some c → c.connected = true → ∀ key ∈ s.admitted,
    c.Remembers key (p.signedAtMs key)

theorem kept_initial (p : ReplayKeys) (store : ReplayStore) : Kept p { store := store } where
  nodup := nodup_nil
  store _ h := absurd h not_mem_nil
  opened _ h := by cases h
  cache _ h := by cases h

theorem Kept.called {c' : GatewayReplayCache} (h : Kept p s) (hc : s.cache = some c)
    (ha : Called p a c c' s s') : Kept p s' := by
  have hkee : ∀ key ∈ s.admitted, (c'.connected = true → c'.Remembers key (p.signedAtMs key)) ∧
        s'.store.Remembers key (p.signedAtMs key) :=
    fun key he => ha.keeps.remembers key (fun hp => h.cache c hc hp key he) (h.store key he)
  have ho : ∀ d, s'.cache = some d → d.connected = false → d.unreadable = true := by
    intro d hd
    obtain rfl := mem_unique ha.cache hd
    exact ha.keeps.opened (h.opened c hc)
  rcases ha.admitted with hsm | ⟨key, hn, hco, hf, hcc, hs⟩
  · refine ⟨hsm ▸ h.nodup, fun k hk => (hkee k (hsm ▸ hk)).2, ho, ?_⟩
    intro d hd hp k hk
    obtain rfl := mem_unique ha.cache hd
    exact (hkee k (hsm ▸ hk)).1 hp
  · have hm : ∀ k ∈ s'.admitted, k ∈ s.admitted ∨ k = key := by
      intro k hk
      rwa [hn, mem_append, mem_singleton] at hk
    refine ⟨?_, ?_, ho, ?_⟩
    · rw [hn, nodup_append_comm, singleton_append, nodup_cons]
      exact ⟨fun he => hf (h.cache c hc hco key he), h.nodup⟩
    · intro k hk
      rcases hm k hk with hk | rfl
      · exact (hkee k hk).2
      · exact hs
    · intro d hd hp k hk
      obtain rfl := mem_unique ha.cache hd
      rcases hm k hk with hk | rfl
      · exact (hkee k hk).1 hp
      · exact hcc

theorem Kept.stopped (h : Kept p s) :
    Kept p { s with cache := none, authenticated := [], probed := none } :=
  ⟨h.nodup, h.store, (fun _ h => by cases h), (fun _ h => by cases h)⟩

theorem kept_step (hp : Kept p s) (h : step p s a = some s') : Kept p s' := by
  cases hc : s.cache with
  | none =>
    rcases step_started hc h with rfl | ⟨ttlMs, maxSkewMs, maxEntries, startMs, failure, rfl⟩
    · exact hp.stopped
    obtain ⟨-, ho, hr⟩ := start_opens p.keyTime ttlMs maxSkewMs maxEntries startMs s.store failure
    refine ⟨hp.nodup, fun key hk => (hr key _ (hp.store key hk)).2, ?_, ?_⟩
    · rintro c hc
      cases hc
      exact ho
    · rintro c hc hop key hk
      cases hc
      exact (hr key _ (hp.store key hk)).1 hop
  | some c =>
    rcases step_called hc h with rfl | ⟨c', ha⟩
    · exact hp.stopped
    · exact hp.called hc ha

theorem kept_of_reaches {store : ReplayStore} (h : Reaches (step p) { store := store } s) :
    Kept p s :=
  Reaches.invariant (fun _ _ _ hk h => kept_step hk h) (kept_initial p store) h

theorem step_storedFloor (h : step p s a = some s') : FloorLe s.store.floorMs s'.store.floorMs := by
  cases hc : s.cache with
  | none =>
    rcases step_started hc h with rfl | ⟨ttlMs, maxSkewMs, maxEntries, startMs, failure, rfl⟩
    · exact .refl _
    · exact (start_opens p.keyTime ttlMs maxSkewMs maxEntries startMs s.store failure).1
  | some c =>
    rcases step_called hc h with rfl | ⟨c', ha⟩
    · exact .refl _
    · exact ha.keeps.storedFloor

/-- Whatever the clocks read, the failures and the restarts, no key is admitted twice. The stored
floor never decreases, nor does the floor in force while one process runs. A transaction that fails
leaves the held keys, the raised floor and the store as they were; from then on nothing is
authenticated or admitted until a probe is applied. -/
theorem replay_once {store : ReplayStore} (h : Reaches (step p) { store := store } s) :
    s.admitted.Nodup ∧ ∀ a s', step p s a = some s' → FloorLe s.store.floorMs s'.store.floorMs ∧
      ∀ c c', s.cache = some c → s'.cache = some c' → c.floor ≤ c'.floor ∧
        (c.unreadable = false → c'.unreadable = true → s'.store = s.store ∧
          c'.raisedFloor = c.raisedFloor ∧ ∀ key, c'.held.get? key = c.held.get? key) ∧
        (c.unreadable = true → s'.admitted = s.admitted ∧ s'.authenticated = s.authenticated ∧
          (c'.unreadable = false → ∃ failure, a = .applyProbe failure)) := by
  refine ⟨(kept_of_reaches h).nodup, fun a s' hstep => ⟨step_storedFloor hstep, ?_⟩⟩
  intro c c' hc hc'
  rcases step_called hc hstep with rfl | ⟨d, hcalled⟩
  · cases hc'
  obtain rfl := mem_unique hcalled.cache hc'
  refine ⟨hcalled.keeps.floor, ?_, ?_⟩
  · intro hreadable hunreadable
    rcases hcalled.refuses with ⟨-, hprobe⟩ | hrefuses
    · have hconnected : c.connected = true := by
        by_contra hclosed
        rw [Bool.not_eq_true] at hclosed
        rw [(kept_of_reaches h).opened c hc hclosed] at hreadable
        cases hreadable
      rw [hprobe hconnected] at hunreadable
      cases hunreadable
    · exact ⟨hrefuses.store hunreadable, hrefuses.held hreadable hunreadable⟩
  · intro hunreadable
    obtain ⟨hadmitted, hauthenticated⟩ := hcalled.quiet hunreadable
    refine ⟨hadmitted, hauthenticated, ?_⟩
    intro hreadable
    rcases hcalled.refuses with ⟨hprobe, -⟩ | hrefuses
    · exact hprobe
    · rw [hrefuses.unreadable hunreadable] at hreadable
      cases hreadable

/-- A key recorded, dropped at the end of its retention, and offered again to a receiver started at
an earlier clock reading. -/
theorem replay_once_restarted :
    ∃ s, run (step { signedAtMs := fun _ => 1000, keyTime := fun _ => none }) { store := {} }
        [.start 10 50 4 900 none, .authenticate [97] 1000, .commit ⟨[97], 1000⟩ 1001 none,
          .prune 1051 false, .stop, .start 10 50 4 500 none,
          .verifyBroadcast [97] 1000 none] = some s ∧
      s.admitted = [[97]] ∧ s.admitted.Nodup := by
  obtain ⟨s, hs, hadmitted⟩ : ∃ s, run (step { signedAtMs := fun _ => 1000, keyTime := fun _ => none
    }) { store := {} } [.start 10 50 4 900 none, .authenticate [97] 1000, .commit ⟨[97], 1000⟩ 1001
    none, .prune 1051 false, .stop, .start 10 50 4 500 none, .verifyBroadcast [97] 1000 none] = some
    s ∧ s.admitted = [[97]] := exists_of_check (by decide +kernel)
  exact ⟨s, hs, hadmitted, (replay_once ⟨_, hs⟩).1⟩

/-- A process started at an earlier clock reading has a lower floor in force. -/
theorem floor_lower_after_restart :
    ∃ s t c c', run (step { signedAtMs := fun _ => 1000, keyTime := fun _ => none }) { store := {} }
        [.start 10 50 4 900 none] = some s ∧
      run (step { signedAtMs := fun _ => 1000, keyTime := fun _ => none }) s
        [.stop, .start 10 50 4 500 none] = some t ∧
      s.cache = some c ∧ t.cache = some c' ∧ c'.floor < c.floor :=
  ⟨_, _, _, _, rfl, rfl, rfl, rfl, by decide⟩

end GatewayMessages

end OriRuntime
