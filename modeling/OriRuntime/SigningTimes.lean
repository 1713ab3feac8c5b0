import OriRuntime.SigningClock

/-!
# Signing times never repeat

Each claim starts one past the stored mark, which every earlier claim raised, so the claims of all
clocks are disjoint; a clock issues rising values, each from a range it claimed.
-/

namespace OriRuntime

open List Option

open Execution

namespace SigningClock

variable {c c' : SigningClock}

/-! ### One clock -/

theorem find?_dropWhile {value : ℤ} (ranges : List (ℤ × ℤ)) :
    (ranges.dropWhile (fun r => decide (r.2 < value))).find? (fun r => decide (value ≤ r.2)) =
      ranges.find? (fun r => decide (value ≤ r.2)) := by
  induction ranges with
  | nil => rfl
  | cons r ranges ih =>
    by_cases hs : r.2 < value
    · simp only [dropWhile_cons, List.find?_cons, hs, decide_true, if_true, ih,
        not_le.mpr hs, decide_false]
    · simp only [dropWhile_cons, hs, decide_false, Bool.false_eq_true, if_false]

theorem next_dropSpent (c : SigningClock) (wall : ℤ) :
    (c.dropSpent (c.following wall)).next wall = c.next wall := by
  have hf : (c.dropSpent (c.following wall)).following wall = c.following wall := rfl
  unfold next
  rw [hf]
  dsimp only [dropSpent]
  rw [find?_dropWhile]
  rfl

theorem issue_eq (hd : c.durable = true) (wall : ℤ) : c.issue wall =
    match c.next wall with
    | (_, some refusal) => (c.dropSpent (c.following wall), .error refusal)
    | (value, none) => ({ c.dropSpent (c.following wall) with last := some value }, .ok value) := by
  have hl := next_dropSpent c wall
  unfold issue
  dsimp only
  rw [hd, if_neg (by decide)]
  generalize (c.dropSpent (c.following wall)).next wall = answer at hl ⊢
  subst hl
  rfl

theorem refusing_iff_issue (c : SigningClock) (wall : ℤ) :
    c.refusing wall = true ↔ ∃ refusal, (c.issue wall).2 = .error refusal := by
  cases hd : c.durable with
  | false => simp [refusing, issue, hd]
  | true =>
    rw [issue_eq hd]
    rcases hn : c.next wall with ⟨value, refusal | refusal⟩ <;> simp [refusing, hd, hn]

theorem next_ok {wall value : ℤ} (h : c.next wall = (value, none)) :
    c.following wall ≤ value ∧ value ≤ wall + c.reservationMs ∧
      ∃ r ∈ c.ranges, r.1 ≤ value ∧ (r.1 ≤ r.2 → value ≤ r.2) := by
  unfold next at h
  dsimp only at h
  split at h
  · cases h
  rename_i live hl
  split_ifs at h with ha
  · cases (Prod.mk.inj h).2
  obtain ⟨rfl, -⟩ := Prod.mk.inj h
  have hr : c.following wall ≤ live.2 := by simpa using List.find?_some hl
  refine ⟨le_max_left _ _, not_lt.mp ha, live, mem_of_find?_eq_some hl, le_max_right _ _, ?_⟩
  intro he
  exact max_le hr he

theorem lt_following {last wall : ℤ} (h : c.last = some last) : last < c.following wall := by
  unfold following
  rw [h]
  dsimp only
  omega

/-- What a clock has of its ranges after a call, and of its last value. -/
structure Issues (c c' : SigningClock) : Prop where
  durable : c'.durable = c.durable
  reservationMs : c'.reservationMs = c.reservationMs
  ranges : ∀ r ∈ c'.ranges, r ∈ c.ranges

theorem dropSpent_issues (c : SigningClock) (value : ℤ) : Issues c (c.dropSpent value) where
  durable := rfl
  reservationMs := rfl
  ranges _ hr := (dropWhile_sublist _).mem hr

theorem issue_ok {wall value : ℤ} (hu : c.durable = true) (h : c.issue wall = (c', .ok value)) :
    Issues c c' ∧ c'.last = some value ∧ (∀ last, c.last = some last → last < value) ∧
      value ≤ wall + c.reservationMs ∧
      ∃ r ∈ c.ranges, r.1 ≤ value ∧ (r.1 ≤ r.2 → value ≤ r.2) := by
  rw [issue_eq hu] at h
  rcases hn : c.next wall with ⟨issued, refusal | refusal⟩
  · rw [hn] at h
    obtain ⟨rfl, hv⟩ := Prod.mk.inj h
    cases hv
    obtain ⟨hf, ha, hr⟩ := next_ok hn
    have hd := dropSpent_issues c (c.following wall)
    exact ⟨{ hd with }, rfl, fun last hl => (lt_following hl).trans_le hf, ha, hr⟩
  · rw [hn] at h
    cases (Prod.mk.inj h).2

theorem issue_refused {wall : ℤ} {refusal : SigningRefusal} (hd : c.durable = true)
    (h : c.issue wall = (c', .error refusal)) : Issues c c' ∧ c'.last = c.last := by
  rw [issue_eq hd] at h
  rcases hn : c.next wall with ⟨issued, refusal' | refusal'⟩
  · rw [hn] at h
    cases (Prod.mk.inj h).2
  · rw [hn] at h
    obtain ⟨rfl, -⟩ := Prod.mk.inj h
    exact ⟨dropSpent_issues c _, rfl⟩

theorem claimRange_ok {stored : Option StoredMark} {wanted wall : ℤ} {range : ℤ × ℤ}
    (h : c.claimRange stored wanted wall = .ok range) :
    range.1 ≤ range.2 ∧ stored ≠ some .other ∧
      ∀ n, stored = some (.integer n) → range.1 = n + 1 := by
  unfold claimRange at h
  dsimp only at h
  split at h
  · split_ifs at h with ha hc
    cases h
    exact ⟨not_lt.mp hc, nofun, nofun⟩
  · rename_i n
    split_ifs at h with ha hc
    cases h
    refine ⟨not_lt.mp hc, nofun, ?_⟩
    intro m hm
    cases hm
    rfl
  · cases h

end SigningClock

namespace SigningStore

variable {s s' : State}

/-! ### What every step keeps -/

structure Kept (s : State) : Prop where
  bounded : ∀ c ∈ s.claims, c.low ≤ c.high ∧ ∃ m, s.mark = some (.integer m) ∧ c.high ≤ m
  disjoint : s.claims.Pairwise (fun a b => a.high < b.low)
  held : ∀ id r, s.running.get? id = some r → r.clock.durable = true ∧
    (∀ x ∈ r.clock.ranges, (⟨id, x.1, x.2⟩ : Claim) ∈ s.claims) ∧
    ∀ x, r.writer = .claimed x → (⟨id, x.1, x.2⟩ : Claim) ∈ s.claims
  issued : ∀ i ∈ s.issued, i.value ≤ i.wall + i.reservationMs ∧
    ∃ c ∈ s.claims, c.clock = i.clock ∧ c.low ≤ i.value ∧ i.value ≤ c.high
  last : ∀ id r, s.running.get? id = some r → ∀ i ∈ s.issued, i.clock = id →
    ∃ v, r.clock.last = some v ∧ i.value ≤ v
  increasing : s.issued.Pairwise (fun i j => i.clock = j.clock → i.value < j.value)
  fresh : (∀ id r, s.running.get? id = some r → id ∈ s.started) ∧
    ∀ i ∈ s.issued, i.clock ∈ s.started

theorem kept_empty (mark : Option StoredMark) : Kept { mark := mark } where
  bounded := fun c hc => absurd hc not_mem_nil
  disjoint := List.Pairwise.nil
  held := fun id r hr => by simp at hr
  issued := fun i hi => absurd hi not_mem_nil
  last := fun id r hr => by simp at hr
  increasing := List.Pairwise.nil
  fresh := ⟨fun id r hr => by simp at hr, fun i hi => absurd hi not_mem_nil⟩

theorem Kept.replace (h : Kept s) {id : ℕ} {r r' : Running} (hr : s.running.get? id = some r)
    (hc : SigningClock.Issues r.clock r'.clock) (hs : r'.clock.last = r.clock.last)
    (hw : ∀ x, r'.writer = .claimed x → r.writer = .claimed x) :
    Kept { s with running := s.running.set id r' } where
  bounded := h.bounded
  disjoint := h.disjoint
  held := by
    intro id' q hq
    rw [Dict.get?_set] at hq
    split_ifs at hq with hid
    · subst hid
      cases hq
      obtain ⟨hd, ha, hl⟩ := h.held _ r hr
      exact ⟨hc.durable.trans hd, fun x hx => ha x (hc.ranges x hx), fun x hx => hl x (hw x hx)⟩
    · exact h.held id' q hq
  issued := h.issued
  last := by
    intro id' q hq i hi hclockOf
    rw [Dict.get?_set] at hq
    split_ifs at hq with hid
    · subst hid
      cases hq
      rw [hs]
      exact h.last _ r hr i hi hclockOf
    · exact h.last id' q hq i hi hclockOf
  increasing := h.increasing
  fresh := by
    refine ⟨?_, h.fresh.2⟩
    intro id' q hq
    rw [Dict.get?_set] at hq
    split_ifs at hq with hid
    · exact hid ▸ h.fresh.1 id r hr
    · exact h.fresh.1 id' q hq

theorem Kept.issueStep (h : Kept s) {id : ℕ} {r : Running} (hr : s.running.get? id = some r)
    (wall : ℤ) : Kept (issueStep s id r wall) := by
  obtain ⟨hd, hra, hclai⟩ := h.held id r hr
  unfold SigningStore.issueStep
  split
  · rename_i clock refusal hs
    obtain ⟨hissu, hls⟩ := SigningClock.issue_refused hd hs
    exact h.replace hr hissu hls (fun x hx => hx)
  · rename_i clock value hs
    obtain ⟨hissu, hls, hpast, ha, x, hx, hl, hhigh⟩ := SigningClock.issue_ok hd hs
    have hf : ∀ i ∈ s.issued, i.clock = id → i.value < value := by
      intro i hi hid
      obtain ⟨v, hv, he⟩ := h.last id r hr i hi hid
      exact he.trans_lt (hpast v hv)
    have hc := hra x hx
    have hn : value ≤ wall + clock.reservationMs ∧ ∃ c ∈ s.claims, c.clock = id ∧
        c.low ≤ value ∧ value ≤ c.high := by
      refine ⟨hissu.reservationMs ▸ ha, ⟨id, x.1, x.2⟩, hc, rfl, hl, ?_⟩
      exact hhigh (h.bounded _ hc).1
    refine ⟨h.bounded, h.disjoint, ?_, ?_, ?_, ?_, ?_, ?_⟩
    · intro id' q hq
      rw [Dict.get?_set] at hq
      split_ifs at hq with hid
      · subst hid
        cases hq
        exact ⟨hissu.durable.trans hd, fun y hy => hra y (hissu.ranges y hy), hclai⟩
      · exact h.held id' q hq
    · intro i hi
      rcases mem_append.mp hi with hi | hi
      · exact h.issued i hi
      · rw [mem_singleton.mp hi]
        exact hn
    · intro id' q hq i hi hclockOf
      rw [Dict.get?_set] at hq
      split_ifs at hq with hid
      · subst hid
        cases hq
        refine ⟨value, hls, ?_⟩
        rcases mem_append.mp hi with hi | hi
        · exact (hf i hi hclockOf).le
        · rw [mem_singleton.mp hi]
      · rcases mem_append.mp hi with hi | hi
        · exact h.last id' q hq i hi hclockOf
        · rw [mem_singleton.mp hi] at hclockOf
          exact absurd hclockOf.symm hid
    · refine pairwise_append.mpr ⟨h.increasing, pairwise_singleton _ _, ?_⟩
      intro i hi j hj hclockOf
      rw [mem_singleton.mp hj] at hclockOf ⊢
      exact hf i hi hclockOf
    · intro id' q hq
      rw [Dict.get?_set] at hq
      split_ifs at hq with hid
      · exact hid ▸ h.fresh.1 id r hr
      · exact h.fresh.1 id' q hq
    · intro i hi
      rcases mem_append.mp hi with hi | hi
      · exact h.fresh.2 i hi
      · rw [mem_singleton.mp hi]
        exact h.fresh.1 id r hr

theorem Kept.raise (h : Kept s) {c : SigningClock} {wanted wall : ℤ} {range : ℤ × ℤ}
    (hc : c.claimRange s.mark wanted wall = .ok range) :
    raised s.mark range.2 = .integer range.2 ∧ ∀ a ∈ s.claims, a.high < range.1 := by
  obtain ⟨he, ho, hn⟩ := SigningClock.claimRange_ok hc
  cases hmark : s.mark with
  | none =>
    refine ⟨rfl, ?_⟩
    intro a ha
    obtain ⟨m, hm, -⟩ := (h.bounded a ha).2
    rw [hmark] at hm
    cases hm
  | some stored =>
    cases stored with
    | other => exact absurd hmark ho
    | integer n =>
      have hl := hn n hmark
      refine ⟨congrArg _ (max_eq_right (by omega)), ?_⟩
      intro a ha
      obtain ⟨m, hm, hhigh⟩ := (h.bounded a ha).2
      rw [hmark] at hm
      cases hm
      omega

theorem Kept.setMark (h : Kept s) {m : ℤ} (hmark : ∀ n, s.mark = some (.integer n) → n ≤ m) :
    Kept { s with mark := some (.integer m) } where
  bounded := by
    intro c hc
    obtain ⟨hl, n, hn, hhigh⟩ := h.bounded c hc
    exact ⟨hl, m, rfl, hhigh.trans (hmark n hn)⟩
  disjoint := h.disjoint
  held := h.held
  issued := h.issued
  last := h.last
  increasing := h.increasing
  fresh := h.fresh

theorem Kept.idle (h : Kept s) {id : ℕ} {r : Running} (hr : s.running.get? id = some r) :
    Kept { s with running := s.running.set id { r with writer := .idle } } :=
  h.replace hr ⟨rfl, rfl, fun _ hx => hx⟩ rfl nofun

theorem Kept.claimStep (h : Kept s) {id : ℕ} {r : Running} (hr : s.running.get? id = some r)
    (wanted wall : ℤ) (lost : Bool) : Kept (claimStep s id r wanted wall lost) := by
  unfold SigningStore.claimStep
  cases hl : r.clock.claimRange s.mark wanted wall with
  | error fault => exact h.idle hr
  | ok range =>
    obtain ⟨hle, -, hnx⟩ := SigningClock.claimRange_ok hl
    obtain ⟨hri, hpast⟩ := h.raise hl
    have hmark : Kept { s with mark := some (raised s.mark range.2) } := by
      rw [hri]
      refine h.setMark ?_
      intro n hn
      have := hnx n hn
      omega
    cases lost with
    | true => exact hmark.idle hr
    | false =>
      dsimp only
      rw [if_neg (by decide)]
      obtain ⟨hd, hra, hclai⟩ := h.held id r hr
      have hg : ∀ c ∈ s.claims,
          c ∈ s.claims ++ [{ clock := id, low := range.1, high := range.2 }] :=
        fun c hc => mem_append_left _ hc
      have he : (⟨id, range.1, range.2⟩ : Claim) ∈
          s.claims ++ [{ clock := id, low := range.1, high := range.2 }] :=
        mem_append_right _ (mem_singleton.mpr rfl)
      refine ⟨?_, ?_, ?_, ?_, ?_, h.increasing, ?_, h.fresh.2⟩
      · intro c hc
        rcases mem_append.mp hc with hc | hc
        · exact hmark.bounded c hc
        · rw [mem_singleton.mp hc]
          exact ⟨hle, range.2, congrArg some hri, le_rfl⟩
      · refine pairwise_append.mpr ⟨h.disjoint, pairwise_singleton _ _, ?_⟩
        intro a ha b hb
        rw [mem_singleton.mp hb]
        exact hpast a ha
      · intro id' q hq
        rw [Dict.get?_set] at hq
        split_ifs at hq with hid
        · subst hid
          cases hq
          refine ⟨hd, fun x hx => hg _ (hra x hx), ?_⟩
          intro x hx
          obtain rfl := Writer.claimed.inj hx
          exact he
        · obtain ⟨hd', hr', hc'⟩ := h.held id' q hq
          exact ⟨hd', fun x hx => hg _ (hr' x hx), fun x hx => hg _ (hc' x hx)⟩
      · intro i hi
        obtain ⟨hh, c, hc, ho⟩ := h.issued i hi
        exact ⟨hh, c, hg c hc, ho⟩
      · intro id' q hq
        rw [Dict.get?_set] at hq
        split_ifs at hq with hid
        · subst hid
          cases hq
          exact h.last _ r hr
        · exact h.last id' q hq
      · intro id' q hq
        rw [Dict.get?_set] at hq
        split_ifs at hq with hid
        · exact hid ▸ h.fresh.1 id r hr
        · exact h.fresh.1 id' q hq

theorem Kept.start (h : Kept s) {id : ℕ} (hn : id ∉ s.started) (reservationMs : ℤ) :
    Kept { s with started := id :: s.started
                  running := s.running.set id { clock := .start true reservationMs } } where
  bounded := h.bounded
  disjoint := h.disjoint
  held := by
    intro id' q hq
    rw [Dict.get?_set] at hq
    split_ifs at hq with hd
    · cases hq
      exact ⟨rfl, fun x hx => absurd hx not_mem_nil, nofun⟩
    · exact h.held id' q hq
  issued := h.issued
  last := by
    intro id' q hq i hi hclockOf
    rw [Dict.get?_set] at hq
    split_ifs at hq with hd
    · exact absurd (hd ▸ hclockOf ▸ h.fresh.2 i hi) hn
    · exact h.last id' q hq i hi hclockOf
  increasing := h.increasing
  fresh := by
    refine ⟨?_, fun i hi => mem_cons_of_mem _ (h.fresh.2 i hi)⟩
    intro id' q hq
    rw [Dict.get?_set] at hq
    split_ifs at hq with hd
    · exact hd ▸ mem_cons_self
    · exact mem_cons_of_mem _ (h.fresh.1 id' q hq)

theorem Kept.append (h : Kept s) {id : ℕ} {r : Running} {range : ℤ × ℤ}
    (hr : s.running.get? id = some r) (hw : r.writer = .claimed range) :
    Kept { s with running := s.running.set id
                    { clock := { r.clock with ranges := r.clock.ranges ++ [range] } } } where
  bounded := h.bounded
  disjoint := h.disjoint
  held := by
    intro id' q hq
    rw [Dict.get?_set] at hq
    split_ifs at hq with hi
    · subst hi
      cases hq
      obtain ⟨hd, ha, hc⟩ := h.held _ r hr
      refine ⟨hd, ?_, nofun⟩
      intro x hx
      rcases mem_append.mp hx with hx | hx
      · exact ha x hx
      · rw [mem_singleton.mp hx]
        exact hc range hw
    · exact h.held id' q hq
  issued := h.issued
  last := by
    intro id' q hq
    rw [Dict.get?_set] at hq
    split_ifs at hq with hi
    · subst hi
      cases hq
      exact h.last _ r hr
    · exact h.last id' q hq
  increasing := h.increasing
  fresh := by
    refine ⟨?_, h.fresh.2⟩
    intro id' q hq
    rw [Dict.get?_set] at hq
    split_ifs at hq with hi
    · exact hi ▸ h.fresh.1 id r hr
    · exact h.fresh.1 id' q hq

theorem Kept.crash (h : Kept s) (id : ℕ) : Kept { s with running := s.running.pop id } := by
  have hp : ∀ id' q, (s.running.pop id).get? id' = some q → s.running.get? id' = some q := by
    intro id' q hq
    rw [Dict.get?_pop] at hq
    split_ifs at hq
    exact hq
  exact ⟨h.bounded, h.disjoint, fun id' q hq => h.held id' q (hp id' q hq), h.issued,
    fun id' q hq => h.last id' q (hp id' q hq), h.increasing,
    fun id' q hq => h.fresh.1 id' q (hp id' q hq), h.fresh.2⟩

theorem kept_step (h : Kept s) {a : Label} (ht : step s a = some s') : Kept s' := by
  cases a with
  | start id reservationMs =>
    simp only [step] at ht
    split_ifs at ht with hs
    cases ht
    exact h.start hs reservationMs
  | issue id wall =>
    obtain ⟨r, hr, rfl⟩ := map_eq_some_iff.mp ht
    exact h.issueStep hr wall
  | want id wall =>
    simp only [step] at ht
    split at ht
    · rename_i clock hr
      obtain ⟨mark, -, rfl⟩ := map_eq_some_iff.mp ht
      exact h.replace hr ⟨rfl, rfl, fun _ hx => hx⟩ rfl nofun
    · cases ht
  | claim id wall =>
    simp only [step] at ht
    split at ht
    · rename_i clock mark hr
      cases ht
      exact h.claimStep hr mark wall false
    · cases ht
  | claimLost id wall =>
    simp only [step] at ht
    split at ht
    · rename_i clock mark hr
      cases ht
      exact h.claimStep hr mark wall true
    · cases ht
  | claimFailed id =>
    simp only [step] at ht
    split at ht
    · rename_i clock mark hr
      cases ht
      exact h.idle hr
    · cases ht
  | append id =>
    simp only [step] at ht
    split at ht
    · rename_i clock range hr
      cases ht
      exact h.append hr rfl
    · cases ht
  | crash id =>
    simp only [step] at ht
    split at ht
    · cases ht
      exact h.crash id
    · cases ht

theorem kept_of_reaches {mark : Option StoredMark} (h : Reaches step { mark := mark } s) : Kept s :=
  Reaches.invariant (fun _ _ _ hk hs => kept_step hk hs) (kept_empty mark) h

/-! ### No value twice -/

theorem claims_eq (h : Kept s) {a b : Claim} (ha : a ∈ s.claims) (hb : b ∈ s.claims) {n : ℤ}
    (han : a.low ≤ n ∧ n ≤ a.high) (hbn : b.low ≤ n ∧ n ≤ b.high) : a = b := by
  by_contra hn
  have hp := List.Pairwise.forall_of_forall_of_flip
    (R := fun c d : Claim => c ≠ d → c.high < d.low ∨ d.high < c.low)
    (fun c _ hc => absurd rfl hc) (h.disjoint.imp (fun hl _ => .inl hl))
    (h.disjoint.imp (fun hl _ => .inr hl))
  obtain hl | hl := hp ha hb hn
  · omega
  · omega

/-- Whatever the stored mark, the wall clocks, the interleaving, the failures and the restarts: no
value is issued twice, each clock's values rise, each is at most a reservation ahead of the wall
clock it was issued at and in a range its clock claimed in a committed transaction, and the claimed
ranges of all clocks are disjoint. A clock says that it would refuse exactly when it would. -/
theorem signing_times_distinct {mark : Option StoredMark} (h : Reaches step { mark := mark } s) :
    (s.issued.map (·.value)).Nodup ∧
    s.issued.Pairwise (fun i j => i.clock = j.clock → i.value < j.value) ∧
    (∀ i ∈ s.issued, i.value ≤ i.wall + i.reservationMs ∧
      ∃ c ∈ s.claims, c.clock = i.clock ∧ c.low ≤ i.value ∧ i.value ≤ c.high) ∧
    s.claims.Pairwise (fun a b => a.high < b.low) ∧
    ∀ id r, s.running.get? id = some r → ∀ wall,
      r.clock.refusing wall = true ↔ ∃ refusal, (r.clock.issue wall).2 = .error refusal := by
  have hkept := kept_of_reaches h
  refine ⟨?_, hkept.increasing, hkept.issued, hkept.disjoint,
    fun id r _ wall => r.clock.refusing_iff_issue wall⟩
  rw [nodup_iff_pairwise_ne, pairwise_map]
  refine hkept.increasing.imp_of_mem ?_
  intro i j hi hj hincreasing heq
  obtain ⟨-, c, hc, hci, hcovers⟩ := hkept.issued i hi
  obtain ⟨-, d, hd, hdj, hcovers'⟩ := hkept.issued j hj
  rw [← heq] at hcovers'
  have hclock : i.clock = j.clock := by
    rw [← hci, ← hdj, claims_eq hkept hc hd hcovers hcovers']
  exact (hincreasing hclock).ne heq

/-- Two clocks on an empty store, the second claiming while the wall clock is stepped back. -/
theorem signing_times_distinct_two :
    ∃ s, run step { mark := none } [.start 0 1000, .want 0 5000, .claim 0 5000, .append 0,
        .start 1 1000, .want 1 4900, .claim 1 5100, .issue 0 5000, .append 1, .issue 1 5100,
        .issue 0 4000] = some s ∧
      s.issued.map (·.value) = [5000, 6001] ∧ (s.issued.map (·.value)).Nodup := by
  obtain ⟨s, hs, hvalues⟩ : ∃ s, run step { mark := none } [.start 0 1000, .want 0 5000, .claim 0
    5000, .append 0, .start 1 1000, .want 1 4900, .claim 1 5100, .issue 0 5000, .append 1, .issue 1
    5100, .issue 0 4000] = some s ∧ s.issued.map (·.value) = [5000, 6001] := exists_of_check (by
    decide +kernel)
  exact ⟨s, hs, hvalues, (signing_times_distinct ⟨_, hs⟩).1⟩

end SigningStore

end OriRuntime
