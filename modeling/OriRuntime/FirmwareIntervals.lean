import OriRuntime.FirmwareLifecycle

/-!
# When an anchor was active

`firmware_anchor_activation_intervals` of `ori/state/_firmware.py` reads the transition log alone.
Every entry that opens or closes an interval is written by the operation that makes the epoch the
active anchor or takes it out of service, so the intervals are the maximal runs of operations after
which the anchors have the epoch active.
-/

namespace OriRuntime

open List Option

open Execution

structure ActivationInterval where
  activatedSeq : ℕ
  activatedAtMs : ℤ
  deactivatedSeq : Option ℕ := none
  deactivatedAtMs : Option ℤ := none
  deriving DecidableEq

/-- The intervals ended so far, and the open one, which the source has at the end of its list. -/
structure IntervalScan where
  ended : List ActivationInterval := []
  openInterval : Option ActivationInterval := none

namespace IntervalScan

def intervals (s : IntervalScan) : List ActivationInterval := s.ended ++ s.openInterval.toList

/-- One row of the loop, with its id. -/
def turn (s : IntervalScan) (epoch : Text) (id : ℕ) (t : AnchorTransition) : IntervalScan :=
  if t.transition = .promoted ∧ t.toEpochId = some epoch then
    match s.openInterval with
    | none => { s with openInterval := some { activatedSeq := id, activatedAtMs := t.occurredAtMs } }
    | some _ => s
  else if (t.transition = .promoted ∨ t.transition = .revoked) ∧ t.fromEpochId = some epoch then
    match s.openInterval with
    | none => s
    | some i =>
      { ended := s.ended ++ [{ i with deactivatedSeq := some id
                                      deactivatedAtMs := some t.occurredAtMs }] }
  else s

end IntervalScan

namespace FirmwareStore

/-- The rows of a device, oldest first, of a log held newest first. -/
def scanIntervals (deviceId epoch : Text) : List AnchorTransition → IntervalScan
  | [] => {}
  | t :: ts =>
    let s := scanIntervals deviceId epoch ts
    if t.deviceId = deviceId then s.turn epoch (ts.length + 1) t else s

def firmwareAnchorActivationIntervals (st : FirmwareStore) (deviceId epoch : Text) :
    List ActivationInterval :=
  (scanIntervals deviceId epoch st.transitions).intervals

end FirmwareStore

/-! ### Intervals over a log -/

/-- A log of `p` entries falls in the interval. -/
def ActivationInterval.Covers (i : ActivationInterval) (p : ℕ) : Prop :=
  i.activatedSeq ≤ p ∧ ∀ q, i.deactivatedSeq = some q → p < q

/-- An interval ended, and another begun later. -/
def ActivationInterval.Before (i j : ActivationInterval) : Prop :=
  ∃ q, i.deactivatedSeq = some q ∧ q < j.activatedSeq

namespace IntervalScan

variable {s : IntervalScan} {n p : ℕ} {i : ActivationInterval}

/-- What a scan of `n` entries has found. -/
structure Sound (s : IntervalScan) (n : ℕ) : Prop where
  ended : ∀ i ∈ s.ended, ∃ q, i.deactivatedSeq = some q ∧ i.activatedSeq < q ∧ q ≤ n
  opened : ∀ i, s.openInterval = some i → i.deactivatedSeq = none ∧ i.activatedSeq ≤ n
  ordered : s.intervals.Pairwise ActivationInterval.Before

theorem mem_intervals : i ∈ s.intervals ↔ i ∈ s.ended ∨ s.openInterval = some i := by
  unfold intervals
  rw [mem_append, mem_toList]

theorem Sound.mono (h : s.Sound n) (hp : n ≤ p) : s.Sound p where
  ended i hi := by
    obtain ⟨q, hq, ht, hl⟩ := h.ended i hi
    exact ⟨q, hq, ht, hl.trans hp⟩
  opened i hi := ⟨(h.opened i hi).1, (h.opened i hi).2.trans hp⟩
  ordered := h.ordered

theorem Sound.covers_iff (h : s.Sound n) (hp : n ≤ p) :
    (∃ i ∈ s.intervals, i.Covers p) ↔ s.openInterval.isSome = true := by
  constructor
  · rintro ⟨i, hi, -, ht⟩
    rcases mem_intervals.mp hi with he | ho
    · obtain ⟨q, hq, -, hl⟩ := h.ended i he
      have := ht q hq
      omega
    · rw [ho]
      rfl
  · intro ho
    obtain ⟨i, hi⟩ := isSome_iff_exists.mp ho
    obtain ⟨hn, hl⟩ := h.opened i hi
    refine ⟨i, mem_intervals.mpr (.inr hi), hl.trans hp, fun q hq => ?_⟩
    rw [hn] at hq
    cases hq

def begun (s : IntervalScan) (id : ℕ) (atMs : ℤ) : IntervalScan :=
  { s with openInterval := some { activatedSeq := id, activatedAtMs := atMs } }

def ending (i : ActivationInterval) (id : ℕ) (atMs : ℤ) : ActivationInterval :=
  { i with deactivatedSeq := some id, deactivatedAtMs := some atMs }

def finished (s : IntervalScan) (i : ActivationInterval) (id : ℕ) (atMs : ℤ) : IntervalScan :=
  { ended := s.ended ++ [ending i id atMs] }

theorem intervals_begun {atMs : ℤ} (hn : s.openInterval = none) :
    (s.begun n atMs).intervals = s.intervals ++ [{ activatedSeq := n, activatedAtMs := atMs }] := by
  unfold intervals begun
  rw [hn]
  simp

theorem intervals_finished {atMs : ℤ} : (s.finished i n atMs).intervals =
    s.ended ++ [ending i n atMs] := append_nil _

theorem Sound.begun (h : s.Sound n) (hn : s.openInterval = none) (atMs : ℤ) :
    (s.begun (n + 1) atMs).Sound (n + 1) where
  ended := (h.mono n.le_succ).ended
  opened i hi := by
    cases hi
    exact ⟨rfl, le_rfl⟩
  ordered := by
    rw [intervals_begun hn]
    refine pairwise_append.mpr ⟨h.ordered, pairwise_singleton _ _, fun i hi j hj => ?_⟩
    obtain rfl := mem_singleton.mp hj
    rcases mem_intervals.mp hi with he | ho
    · obtain ⟨q, hq, -, hl⟩ := h.ended i he
      exact ⟨q, hq, Nat.lt_succ_of_le hl⟩
    · rw [hn] at ho
      cases ho

theorem Sound.finished (h : s.Sound n) (hi : s.openInterval = some i) (atMs : ℤ) :
    (s.finished i (n + 1) atMs).Sound (n + 1) where
  ended j hj := by
    rcases mem_append.mp hj with he | hl
    · exact (h.mono n.le_succ).ended j he
    · obtain rfl := mem_singleton.mp hl
      exact ⟨n + 1, rfl, Nat.lt_succ_of_le (h.opened i hi).2, le_rfl⟩
  opened := nofun
  ordered := by
    have ho := h.ordered
    unfold intervals at ho
    rw [hi] at ho
    obtain ⟨he, -, hb⟩ := pairwise_append.mp ho
    rw [intervals_finished]
    refine pairwise_append.mpr ⟨he, pairwise_singleton _ _, fun j hj j' hj' => ?_⟩
    obtain rfl := mem_singleton.mp hj'
    exact hb j hj i (mem_singleton_self i)

end IntervalScan

namespace FirmwareStore

variable {k : FirmwareKeys} {st st' : FirmwareStore} {d e : Text} {op : AnchorOp}

/-! ### What the log records -/

def Active (st : FirmwareStore) (d e : Text) : Prop := ∃ a, Held st d e a ∧ a.state = .active

/-- The active epoch of a device, as its registry row has it. -/
def activeEpoch (st : FirmwareStore) (d : Text) : Option Text :=
  (st.registry.get? d).bind (fun row => if row.approved then some row.anchorEpochId else none)

theorem activeEpoch_of_row {row : FirmwareDevice} (h : st.registry.get? d = some row) :
    st.activeEpoch d = if row.approved then some row.anchorEpochId else none := by
  unfold activeEpoch
  rw [h, bind_some]

theorem Sound.active_iff (h : Sound k st) : st.Active d e ↔ st.activeEpoch d = some e := by
  constructor
  · rintro ⟨a, ha, hac⟩
    obtain ⟨row, hr⟩ := ne_none_iff_exists'.mp (h.registered d e a ha)
    obtain ⟨hp, hc, -⟩ := (h.rows d row hr).inForce e a ha hac
    rw [activeEpoch_of_row hr, if_pos hp]
    exact congrArg (fun c : AnchorColumns => some c.anchorEpochId) hc
  · intro he
    obtain ⟨row, hr, hi⟩ := bind_eq_some_iff.mp he
    split_ifs at hi with hp
    obtain ⟨e', a, ha, hac⟩ := (h.rows d row hr).approved hp
    have hc := ((h.rows d row hr).inForce e' a ha hac).2.1
    have hs : row.anchorEpochId = e' := congrArg AnchorColumns.anchorEpochId hc
    obtain rfl : e' = e := hs.symm.trans (some.inj hi)
    exact ⟨a, ha, hac⟩

theorem Sound.anchorIn_active (h : Sound k st) :
    (st.anchorIn d .active).map (·.1) = st.activeEpoch d := by
  cases hi : st.anchorIn d .active with
  | none =>
    cases he : st.activeEpoch d with
    | none => rfl
    | some e =>
      obtain ⟨a, ha, hc⟩ := h.active_iff.mpr he
      exact absurd hc (anchorIn_none hi e a ha)
  | some p =>
    obtain ⟨hh, hc⟩ := anchorIn_some hi
    exact (h.active_iff.mp ⟨p.2, hh, hc⟩).symm

/-- When an operation is recorded to have happened. -/
def AnchorOp.atMs : AnchorOp → ℤ
  | .upsert _ atMs => atMs
  | .approve _ who _ | .revoke _ who | .reinstate _ who | .reprovision _ who => who.occurredAtMs

/-- How the entries an operation writes follow the active epochs. -/
inductive Logged (st st' : FirmwareStore) (atMs : ℤ) : Prop
  | quiet (news : List AnchorTransition) (hlog : st'.transitions = news ++ st.transitions)
      (hnews : ∀ t ∈ news, t.transition ≠ .promoted ∧ t.transition ≠ .revoked)
      (hactive : ∀ d, st'.activeEpoch d = st.activeEpoch d)
  | moved (t : AnchorTransition) (next : Option Text) (hlog : st'.transitions = t :: st.transitions)
      (hfrom : t.fromEpochId = st.activeEpoch t.deviceId) (hat : t.occurredAtMs = atMs)
      (hkind : t.transition = .promoted ∧ t.toEpochId = next ∧ next.isSome = true ∧
          next ≠ st.activeEpoch t.deviceId ∨
        t.transition = .revoked ∧ next = none)
      (hactive : ∀ d, st'.activeEpoch d = if d = t.deviceId then next else st.activeEpoch d)

theorem activeEpoch_set (row : FirmwareDevice) (h : st'.registry = st.registry.set d row)
    (d' : Text) : st'.activeEpoch d' = if d' = d then
      if row.approved then some row.anchorEpochId else none else st.activeEpoch d' := by
  unfold activeEpoch
  rw [h, Dict.get?_set]
  by_cases hd : d' = d
  · rw [if_pos hd, if_pos hd, bind_some]
  · rw [if_neg hd, if_neg hd]

theorem activeEpoch_same (row : FirmwareDevice) (h : st'.registry = st.registry.set d row)
    (hs : st.activeEpoch d = if row.approved then some row.anchorEpochId else none)
    (d' : Text) : st'.activeEpoch d' = st.activeEpoch d' := by
  rw [activeEpoch_set row h]
  by_cases hd : d' = d
  · rw [if_pos hd, hd, hs]
  · rw [if_neg hd]

theorem Performed.logged (hs : Sound k st) (h : Performed k st op st') : Logged st st' op.atMs := by
  cases h with
  | kept op => exact .quiet [] rfl nofun (fun _ => rfl)
  | registered m atMs keyEpoch epoch hk hep hn =>
    refine .quiet [_] rfl (forall_mem_singleton.mpr ⟨nofun, nofun⟩) ?_
    refine activeEpoch_same (registeredDevice m keyEpoch atMs) rfl ?_
    unfold activeEpoch
    rw [hn]
    rfl
  | candidate m atMs keyEpoch epoch row hk hep hr he hsm hidle =>
    obtain ⟨registry, anchors, news, heq, hg, hnews⟩ :=
      addCandidate_shape st m row epoch keyEpoch atMs
    rw [heq]
    refine .quiet news rfl hnews (fun d => ?_)
    rcases hg with rfl | rfl
    · rfl
    · exact activeEpoch_same (describedBy row m atMs) rfl ((activeEpoch_of_row hr).trans rfl) d
  | promoted d who expected row epoch a hr he hh hp =>
    obtain ⟨anchors, heq⟩ := promote_shape (d := d) (e := epoch) (a := a) st row who
    obtain ⟨outbox, ho⟩ := reopenConfirmation_shape _ d epoch who.occurredAtMs
    rw [heq, ho]
    refine .moved _ (some epoch) rfl hs.anchorIn_active rfl (.inl ⟨rfl, rfl, rfl, ?_⟩) ?_
    · intro hc
      obtain ⟨b, hb, ht⟩ := hs.active_iff.mpr hc.symm
      obtain rfl := some.inj (hh.1.symm.trans hb.1)
      cases hp.symm.trans ht
    · exact activeEpoch_set (promotedDevice row epoch a) rfl
  | revoked d who row hr =>
    obtain ⟨anchors, hm⟩ := moveState_shape (st.setDevice d
      (revokedDevice row who.occurredAtMs)) d .active .revoked who.occurredAtMs
    rw [hm]
    obtain ⟨anchors', news, hd, hnews⟩ := discardPending_shape { st.setDevice d
      (revokedDevice row who.occurredAtMs) with anchors := anchors } d who.occurredAtMs
        (fun _ => none)
    obtain rfl : news = [] := eq_nil_iff_forall_not_mem.mpr (fun x hx => by
      obtain ⟨_, hx⟩ := hnews x hx
      cases hx)
    rw [hd]
    exact .moved _ none rfl hs.anchorIn_active rfl (.inr ⟨rfl, rfl⟩)
      (activeEpoch_set (revokedDevice row who.occurredAtMs) rfl)
  | reinstated d who row hr he =>
    obtain ⟨anchors, hm⟩ := moveState_shape (st.setDevice d (reinstatedDevice row)) d
      .revoked .pending who.occurredAtMs
    rw [hm]
    refine .quiet [_] rfl (forall_mem_singleton.mpr ⟨nofun, nofun⟩) ?_
    refine activeEpoch_same (reinstatedDevice row) rfl ?_
    have hidle : row.approved = false := by
      by_contra hap
      obtain ⟨e, a, ha, hc⟩ := (hs.rows d row hr).approved (by simpa using hap)
      exact ((hs.rows d row hr).revoked he e a ha).1 hc
    rw [activeEpoch_of_row hr, hidle]
    rfl
  | reprovisioned m who keyEpoch epoch row hk hep hr he hf hn =>
    obtain ⟨anchors, news, hd, hnews⟩ := discardPending_shape st m.deviceId
      who.occurredAtMs (fun _ => none)
    rw [hd]
    refine .quiet (_ :: news) rfl (forall_mem_cons.mpr ⟨⟨nofun, nofun⟩, fun x hx => ?_⟩)
      (fun _ => rfl)
    obtain ⟨_, hx⟩ := hnews x hx
    cases hx

/-! ### What a scan makes of it -/

theorem scanIntervals_quiet {news ts : List AnchorTransition}
    (hnews : ∀ t ∈ news, t.transition ≠ .promoted ∧ t.transition ≠ .revoked) :
    scanIntervals d e (news ++ ts) = scanIntervals d e ts := by
  induction news with
  | nil => rfl
  | cons t news ih =>
    obtain ⟨⟨hp, hr⟩, hs⟩ := forall_mem_cons.mp hnews
    rw [cons_append, scanIntervals, ih hs]
    unfold IntervalScan.turn
    simp [hp, hr]

/-- What an operation does to the scan of an epoch: nothing, or what it did to the epoch. -/
inductive ScanStep (st st' : FirmwareStore) (d e : Text) (atMs : ℤ) (s s' : IntervalScan) : Prop
  | same (hscan : s' = s) (hlog : st.transitions.length ≤ st'.transitions.length)
      (hactive : st'.Active d e ↔ st.Active d e)
  | begins (hscan : s' = s.begun st'.transitions.length atMs) (hnone : s.openInterval = none)
      (hlog : st'.transitions.length = st.transitions.length + 1)
      (hbefore : ¬ st.Active d e) (hafter : st'.Active d e)
  | ends (i : ActivationInterval) (hscan : s' = s.finished i st'.transitions.length atMs)
      (hsome : s.openInterval = some i)
      (hlog : st'.transitions.length = st.transitions.length + 1)
      (hbefore : st.Active d e) (hafter : ¬ st'.Active d e)

theorem Logged.scanStep {atMs : ℤ} (hs : Sound k st) (hs' : Sound k st') (h : Logged st st' atMs)
    (hop : (scanIntervals d e st.transitions).openInterval.isSome = true ↔ st.Active d e) :
    ScanStep st st' d e atMs (scanIntervals d e st.transitions)
      (scanIntervals d e st'.transitions) := by
  cases h with
  | quiet news hl hnews ha =>
    refine .same ?_ ?_ (by rw [hs.active_iff, hs'.active_iff, ha])
    · rw [hl, scanIntervals_quiet hnews]
    · rw [hl, length_append]
      exact Nat.le_add_left ..
  | moved t next hl hfrom hat hk ha =>
    have he : st'.transitions.length = st.transitions.length + 1 := by
      rw [hl, length_cons]
    by_cases hd : t.deviceId = d
    · subst hd
      have hscan : scanIntervals t.deviceId e st'.transitions =
          (scanIntervals t.deviceId e st.transitions).turn e st'.transitions.length t := by
        rw [hl]
        exact if_pos rfl
      have hf : st'.Active t.deviceId e ↔ next = some e := by
        rw [hs'.active_iff, ha, if_pos rfl]
      have hfromEpoch : t.fromEpochId = some e ↔ st.Active t.deviceId e := by
        rw [hs.active_iff, hfrom]
      have ht : (t.transition = .promoted ∧ t.toEpochId = some e) ↔ next = some e := by
        rcases hk with ⟨hp, ht, -⟩ | ⟨hr, hno⟩
        · rw [ht]
          exact and_iff_right hp
        · rw [hr, hno]
          exact ⟨nofun, nofun⟩
      rw [hscan, ← hat]
      generalize scanIntervals t.deviceId e st.transitions = s at hop
      unfold IntervalScan.turn
      by_cases hn : next = some e
      · have hb : ¬ st.Active t.deviceId e := by
          rw [hs.active_iff, ← hn]
          rcases hk with ⟨-, -, -, hne⟩ | ⟨-, hno⟩
          · exact fun hm => hne hm.symm
          · rw [hno] at hn
            cases hn
        have hno : s.openInterval = none := by
          rw [← not_isSome_iff_eq_none, hop]
          exact hb
        rw [if_pos (ht.mpr hn), hno]
        exact .begins (by rw [IntervalScan.begun]) hno he hb (hf.mpr hn)
      · rw [if_neg (fun h => hn (ht.mp h))]
        by_cases ho : st.Active t.deviceId e
        · obtain ⟨i, hi⟩ := isSome_iff_exists.mp (hop.mpr ho)
          rw [if_pos ⟨hk.imp And.left And.left, hfromEpoch.mpr ho⟩, hi]
          exact .ends i rfl hi he ho (fun h => hn (hf.mp h))
        · rw [if_neg (fun h => ho (hfromEpoch.mp h.2))]
          exact .same rfl (he ▸ Nat.le_succ _) ⟨fun h => absurd (hf.mp h) hn, fun h => absurd h ho⟩
    · refine .same ?_ (he ▸ Nat.le_succ _) ?_
      · rw [hl, scanIntervals]
        exact if_neg hd
      · rw [hs.active_iff, hs'.active_iff, ha, if_neg (Ne.symm hd)]

/-! ### Runs -/

/-- The stores a run has been in. -/
def Visited (k : FirmwareKeys) (ops : List AnchorOp) (st : FirmwareStore) : Prop :=
  ∃ before, before <+: ops ∧ run (fun (s : FirmwareStore) op => s.perform k op) {} before = some st

/-- An operation of a run that made an epoch active, or took it out of service. -/
def Turned (k : FirmwareKeys) (ops : List AnchorOp) (d e : Text) (up : Prop) (seq : ℕ)
    (atMs : ℤ) : Prop :=
  ∃ before op st st', before ++ [op] <+: ops ∧
    run (fun (s : FirmwareStore) op => s.perform k op) {} before = some st ∧
    st.perform k op = some st' ∧ (st.Active d e ↔ ¬ up) ∧ (st'.Active d e ↔ up) ∧
    seq = st'.transitions.length ∧ atMs = op.atMs

/-- The intervals of an epoch, as the anchors had it in a run. -/
structure IntervalsOf (k : FirmwareKeys) (ops : List AnchorOp) (d e : Text)
    (intervals : List ActivationInterval) : Prop where
  covers : ∀ st, Visited k ops st →
    (st.Active d e ↔ ∃ i ∈ intervals, i.Covers st.transitions.length)
  begins : ∀ i ∈ intervals, Turned k ops d e True i.activatedSeq i.activatedAtMs
  ends : ∀ i ∈ intervals, ∀ seq, i.deactivatedSeq = some seq →
    ∃ atMs, i.deactivatedAtMs = some atMs ∧ Turned k ops d e False seq atMs
  ordered : intervals.Pairwise ActivationInterval.Before

structure Follows (k : FirmwareKeys) (ops : List AnchorOp) (st : FirmwareStore) (d e : Text)
    (s : IntervalScan) : Prop extends IntervalsOf k ops d e s.intervals where
  sound : s.Sound st.transitions.length
  opened : s.openInterval.isSome = true ↔ st.Active d e
  grown : ∀ st₁, Visited k ops st₁ → st₁.transitions.length ≤ st.transitions.length

variable {ops : List AnchorOp} {s s' : IntervalScan} {i : ActivationInterval} {seq : ℕ} {atMs : ℤ}
  {up : Prop}

theorem Turned.later (h : Turned k ops d e up seq atMs) :
    Turned k (ops ++ [op]) d e up seq atMs := by
  obtain ⟨before, op', st, st', hp, hr⟩ := h
  exact ⟨before, op', st, st', hp.trans (prefix_append ops [op]), hr⟩

theorem Follows.begins_later (h : Follows k ops st d e s) (hi : i ∈ s.intervals) :
    Turned k (ops ++ [op]) d e True i.activatedSeq i.activatedAtMs := (h.begins i hi).later

theorem Follows.ends_later (h : Follows k ops st d e s) (hi : i ∈ s.intervals)
    (hs : i.deactivatedSeq = some seq) :
    ∃ atMs, i.deactivatedAtMs = some atMs ∧ Turned k (ops ++ [op]) d e False seq atMs := by
  obtain ⟨atMs, ha, ht⟩ := h.ends i hi seq hs
  exact ⟨atMs, ha, ht.later⟩

theorem visited_concat {st₁ : FirmwareStore}
    (hr : run (fun (s : FirmwareStore) op => s.perform k op) {} ops = some st)
    (hs : st.perform k op = some st') (h : Visited k (ops ++ [op]) st₁) :
    st₁ = st' ∨ Visited k ops st₁ := by
  obtain ⟨before, hp, hb⟩ := h
  rcases prefix_concat_iff.mp hp with rfl | hp
  · obtain ⟨u, hu, hl⟩ := run_append_eq_some_iff.mp hb
    obtain rfl := some.inj (hr.symm.trans hu)
    obtain ⟨v, hv, hn⟩ := run_cons_eq_some_iff.mp hl
    obtain rfl := some.inj (hs.symm.trans hv)
    exact .inl (some.inj hn).symm
  · exact .inr ⟨before, hp, hb⟩

theorem Follows.concat (h : Follows k ops st d e s)
    (hr : run (fun (s : FirmwareStore) op => s.perform k op) {} ops = some st)
    (ht : st.perform k op = some st')
    (hl : st.transitions.length ≤ st'.transitions.length)
    (hs : s'.Sound st'.transitions.length)
    (ho : s'.openInterval.isSome = true ↔ st'.Active d e)
    (hm : ∀ p ≤ st.transitions.length,
      ((∃ i ∈ s'.intervals, i.Covers p) ↔ ∃ i ∈ s.intervals, i.Covers p))
    (he : ∀ i ∈ s'.intervals, Turned k (ops ++ [op]) d e True i.activatedSeq i.activatedAtMs)
    (hends : ∀ i ∈ s'.intervals, ∀ seq, i.deactivatedSeq = some seq →
      ∃ atMs, i.deactivatedAtMs = some atMs ∧ Turned k (ops ++ [op]) d e False seq atMs) :
    Follows k (ops ++ [op]) st' d e s' := by
  refine ⟨⟨fun st₁ hv => ?_, he, hends, hs.ordered⟩, hs, ho, fun st₁ hv => ?_⟩
  · rcases visited_concat hr ht hv with rfl | hb
    · exact ho.symm.trans (hs.covers_iff le_rfl).symm
    · exact (h.covers st₁ hb).trans (hm _ (h.grown st₁ hb)).symm
  · rcases visited_concat hr ht hv with rfl | hb
    · exact le_rfl
    · exact (h.grown st₁ hb).trans hl

theorem Follows.step (h : Follows k ops st d e s)
    (hr : run (fun (s : FirmwareStore) op => s.perform k op) {} ops = some st)
    (hs : st.perform k op = some st') (hscan : ScanStep st st' d e op.atMs s s') :
    Follows k (ops ++ [op]) st' d e s' := by
  cases hscan with
  | same hscan hl hac =>
    subst hscan
    exact h.concat hr hs hl (h.sound.mono hl) (h.opened.trans hac.symm)
      (fun _ _ => Iff.rfl) (fun i hi => h.begins_later hi) (fun i hi q hq => h.ends_later hi hq)
  | begins hscan ho hl hb ha =>
    subst hscan
    refine h.concat hr hs (hl ▸ Nat.le_succ _) (hl ▸ h.sound.begun ho op.atMs)
      ⟨fun _ => ha, fun _ => rfl⟩ ?_ ?_ ?_
    · intro p hp
      rw [IntervalScan.intervals_begun ho]
      constructor
      · rintro ⟨i, hi, hc⟩
        rcases mem_append.mp hi with hold | hn
        · exact ⟨i, hold, hc⟩
        obtain rfl := mem_singleton.mp hn
        have he : st'.transitions.length ≤ p := hc.1
        omega
      · rintro ⟨i, hi, hc⟩
        exact ⟨i, mem_append_left _ hi, hc⟩
    · intro i hi
      rw [IntervalScan.intervals_begun ho] at hi
      rcases mem_append.mp hi with hold | hn
      · exact h.begins_later hold
      · obtain rfl := mem_singleton.mp hn
        exact ⟨ops, op, st, st', prefix_rfl, hr, hs, by simpa using hb, by simpa using ha, rfl, rfl⟩
    · intro i hi q hq
      rw [IntervalScan.intervals_begun ho] at hi
      rcases mem_append.mp hi with hold | hn
      · exact h.ends_later hold hq
      · obtain rfl := mem_singleton.mp hn
        cases hq
  | ends i hscan hso hl hb ha =>
    subst hscan
    have hls : i ∈ s.intervals := IntervalScan.mem_intervals.mpr (.inr hso)
    have ho := (h.sound.opened i hso).1
    refine h.concat hr hs (hl ▸ Nat.le_succ _) (hl ▸ h.sound.finished hso op.atMs)
      ⟨nofun, fun hac => absurd hac ha⟩ ?_ ?_ ?_
    · intro p hp
      rw [IntervalScan.intervals_finished]
      constructor
      · rintro ⟨j, hj, hc⟩
        rcases mem_append.mp hj with hold | hn
        · exact ⟨j, IntervalScan.mem_intervals.mpr (.inl hold), hc⟩
        obtain rfl := mem_singleton.mp hn
        refine ⟨i, hls, hc.1, fun q hq => ?_⟩
        rw [ho] at hq
        cases hq
      · rintro ⟨j, hj, hc⟩
        rcases IntervalScan.mem_intervals.mp hj with hold | hop
        · exact ⟨j, mem_append_left _ hold, hc⟩
        obtain rfl := some.inj (hso.symm.trans hop)
        refine ⟨_, mem_append_right _ (mem_singleton_self _), hc.1, ?_⟩
        rintro q ⟨⟩
        omega
    · intro j hj
      rw [IntervalScan.intervals_finished] at hj
      rcases mem_append.mp hj with hold | hn
      · exact h.begins_later (IntervalScan.mem_intervals.mpr (.inl hold))
      · obtain rfl := mem_singleton.mp hn
        exact (h.begins i hls).later
    · intro j hj q hq
      rw [IntervalScan.intervals_finished] at hj
      rcases mem_append.mp hj with hold | hn
      · exact h.ends_later (IntervalScan.mem_intervals.mpr (.inl hold)) hq
      obtain rfl := mem_singleton.mp hn
      obtain rfl := some.inj hq
      exact ⟨op.atMs, rfl, ops, op, st, st', prefix_rfl, hr, hs,
        by simpa using hb, by simpa using ha, rfl, rfl⟩

theorem follows_of_run (hh : Function.Injective k.sha256)
    (hr : run (fun (s : FirmwareStore) op => s.perform k op) {} ops = some st) (d e : Text) :
    Follows k ops st d e (scanIntervals d e st.transitions) := by
  induction ops using List.reverseRecOn generalizing st with
  | nil =>
    obtain rfl := some.inj hr
    have hidle : ¬ Active {} d e := fun ⟨a, ha, _⟩ => nomatch ha.1
    have hsr : ∀ st₁, Visited k [] st₁ → st₁ = {} := by
      rintro st₁ ⟨before, hpr, hb⟩
      obtain rfl := prefix_nil.mp hpr
      exact (some.inj hb).symm
    refine ⟨⟨fun st₁ h => ?_, nofun, nofun, List.Pairwise.nil⟩, ⟨nofun, nofun, List.Pairwise.nil⟩,
      ⟨nofun, fun h => absurd h hidle⟩, fun st₁ h => hsr st₁ h ▸ le_rfl⟩
    rw [hsr st₁ h]
    exact ⟨fun h => absurd h hidle, nofun⟩
  | append_singleton ops op ih =>
    obtain ⟨st₀, hb, hl⟩ := run_append_eq_some_iff.mp hr
    obtain ⟨st₁, ht, hn⟩ := run_cons_eq_some_iff.mp hl
    obtain rfl := some.inj hn
    have hs := sound_of_reaches hh ⟨ops, hb⟩
    have hp := perform_performed ht
    have hf := ih hb
    exact hf.step hb ht ((hp.logged hs).scanStep hs (hs.change hh hp.change) hf.opened)

/-- The intervals of a device's epochs, after a run. -/
structure IntervalsTrue (k : FirmwareKeys) (ops : List AnchorOp) (st : FirmwareStore)
    (d : Text) : Prop where
  exact_runs : ∀ e, IntervalsOf k ops d e (st.firmwareAnchorActivationIntervals d e)
  open_iff : ∀ e, (∃ i ∈ st.firmwareAnchorActivationIntervals d e, i.deactivatedSeq = none) ↔
    st.Active d e
  apart : ∀ e e' i j p, e ≠ e' → i ∈ st.firmwareAnchorActivationIntervals d e →
    j ∈ st.firmwareAnchorActivationIntervals d e' → i.Covers p → ¬ j.Covers p
  ever_iff : ∀ e, st.firmwareAnchorActivationIntervals d e ≠ [] ↔
    ∃ st₁, Visited k ops st₁ ∧ st₁.Active d e

theorem IntervalsOf.visited {intervals : List ActivationInterval}
    (h : IntervalsOf k ops d e intervals) (hi : i ∈ intervals) :
    ∃ st, Visited k ops st ∧ st.Active d e ∧ i.activatedSeq = st.transitions.length := by
  obtain ⟨before, op, st, st', hp, hr, ht, -, ha, hs, -⟩ := h.begins i hi
  exact ⟨st', ⟨before ++ [op], hp, run_append_eq_some_iff.mpr ⟨st, hr,
    run_cons_eq_some_iff.mpr ⟨st', ht, rfl⟩⟩⟩, ha.mpr trivial, hs⟩

theorem activation_intervals_true (k : FirmwareKeys) (hsha : Function.Injective k.sha256)
    (ops : List AnchorOp) (st : FirmwareStore)
    (h : run (fun (s : FirmwareStore) op => s.perform k op) {} ops = some st) (d : Text) :
    IntervalsTrue k ops st d := by
  have hfollows := follows_of_run hsha h d
  have hruns : ∀ e, IntervalsOf k ops d e (st.firmwareAnchorActivationIntervals d e) :=
    fun e => (hfollows e).toIntervalsOf
  -- the later of two intervals begins inside the earlier, where only its own epoch is active
  have hwithin : ∀ e e' i j p, i ∈ st.firmwareAnchorActivationIntervals d e →
      j ∈ st.firmwareAnchorActivationIntervals d e' → i.Covers p → j.Covers p →
      i.activatedSeq ≤ j.activatedSeq → e = e' := by
    intro e e' i j p hi hj hip hjp hle
    obtain ⟨st₁, hvisited, ⟨b, hb, hactive⟩, hseq⟩ := (hruns e').visited hj
    have hcover : i.Covers st₁.transitions.length :=
      ⟨hseq ▸ hle, fun q hq => hseq ▸ hjp.1.trans_lt (hip.2 q hq)⟩
    obtain ⟨a, ha, hstate⟩ := ((hruns e).covers st₁ hvisited).mpr ⟨i, hi, hcover⟩
    obtain ⟨before, -, hrun⟩ := hvisited
    exact (sound_of_reaches hsha ⟨before, hrun⟩).anchors.unique live_active _ _ _ _ ha hb hstate
      hactive
  refine ⟨hruns, fun e => ?_, ?_, fun e => ⟨?_, ?_⟩⟩
  · rw [← (hfollows e).opened]
    constructor
    · rintro ⟨i, hi, hnone⟩
      rcases IntervalScan.mem_intervals.mp hi with hended | hopen
      · obtain ⟨q, hq, -⟩ := (hfollows e).sound.ended i hended
        rw [hnone] at hq
        cases hq
      · exact isSome_iff_exists.mpr ⟨i, hopen⟩
    · intro hopen
      obtain ⟨i, hi⟩ := isSome_iff_exists.mp hopen
      exact ⟨i, IntervalScan.mem_intervals.mpr (.inr hi), ((hfollows e).sound.opened i hi).1⟩
  · intro e e' i j p hne hi hj hip hjp
    rcases le_total i.activatedSeq j.activatedSeq with hle | hle
    · exact hne (hwithin e e' i j p hi hj hip hjp hle)
    · exact hne (hwithin e' e j i p hj hi hjp hip hle).symm
  · intro hne
    obtain ⟨i, hi⟩ := exists_mem_of_ne_nil _ hne
    obtain ⟨st₁, hvisited, hin, -⟩ := (hruns e).visited hi
    exact ⟨st₁, hvisited, hin⟩
  · rintro ⟨st₁, hvisited, hin⟩
    obtain ⟨i, hi, -⟩ := ((hruns e).covers st₁ hvisited).mp hin
    exact ne_nil_of_mem hi

section Bench

/-- The operations of `rekeyed`, then a revocation and a reinstatement. -/
def rekeyedRevoked : List AnchorOp :=
  rekeyed ++ [.revoke (text "valve-1") (operator 5), .reinstate (text "valve-1") (operator 6)]

def benchIntervals (st : FirmwareStore) : List (List (ℕ × Option ℕ)) :=
  st.anchors.keys.map (fun e => (st.firmwareAnchorActivationIntervals (text "valve-1") e).map
    (fun i => (i.activatedSeq, i.deactivatedSeq)))

theorem activation_intervals_true_rekeyed : ∃ st : FirmwareStore,
    benchIntervals st = [[(2, some 4)], [(4, some 5)]] ∧
      IntervalsTrue benchKeys rekeyedRevoked st (text "valve-1") := by
  obtain ⟨st, hst, hintervals⟩ : ∃ st, run (fun (s : FirmwareStore) op => s.perform benchKeys op) {}
    rekeyedRevoked = some st ∧ benchIntervals st = [[(2, some 4)], [(4, some 5)]] := exists_of_check
    (by decide +kernel)
  have hsha : Function.Injective benchKeys.sha256 := fun _ _ h => append_cancel_left h
  exact ⟨st, hintervals, activation_intervals_true benchKeys hsha _ st hst _⟩

end Bench

end FirmwareStore

end OriRuntime
