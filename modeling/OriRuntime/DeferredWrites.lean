import OriRuntime.DeferredWriter

/-!
# Deferred writes in order, once, accounted for

The worker takes the head of the queue and nothing else, so what the store took and what is still
queued stay in the order of submission, and every item handed over is in one place.
-/

namespace OriRuntime

open List

open Execution

def Worker.item : Worker → Option Pending
  | .writing item _ | .sleeping item => some item
  | .absent | .created | .done => none

/-- The write the store took and the worker has not yet heard of. -/
def Worker.untaken : Worker → List Pending
  | .writing item (some .success) => [item]
  | _ => []

namespace DeferredWriter

variable {w w' : DeferredWriter}

/-! ### The operations as updates -/

theorem foldl_loseItem (w : DeferredWriter) (items : List Pending) : items.foldl loseItem w =
      { w with
        lost := w.lost + items.length
        lostItems := w.lostItems ++ items
        lossCalls := w.lossCalls ++ items.filter (·.onLost) } := by
  induction items generalizing w with
  | nil => simp
  | cons item items ih =>
    rw [foldl_cons, ih]
    unfold loseItem
    by_cases hc : item.onLost = true
    all_goals simp [hc, Nat.add_comm, Nat.add_left_comm]

/-- What `strand` makes of the queue: at most its head is unknown, the rest is lost. -/
def stranded (w : DeferredWriter) (kept rest : List Pending) : DeferredWriter :=
  { w with
    queue := []
    inFlight := none
    lost := w.lost + rest.length
    lostItems := w.lostItems ++ rest
    lossCalls := w.lossCalls ++ rest.filter (·.onLost)
    unknown := w.unknown + kept.length
    unknownItems := w.unknownItems ++ kept }

theorem strand_spec (w : DeferredWriter) (head : Option Pending) :
    ∃ kept rest, w.queue = kept ++ rest ∧ (w.strand head).2 = w.stranded kept rest ∧
      ∀ item, w.queue.head? = some item → head = some item → item ∈ kept := by
  unfold strand stranded
  cases hq : w.queue with
  | nil => exact ⟨[], [], rfl, by simp, by simp⟩
  | cons item rest =>
    by_cases hh : head = some item
    · refine ⟨[item], rest, rfl, ?_, ?_⟩
      · simp only [hh, if_true, foldl_loseItem]
        rfl
      · intro x hx _
        simpa using hx.symm
    · refine ⟨[], item :: rest, rfl, ?_, ?_⟩
      · simp only [hh, if_false, foldl_loseItem]
        simp
      · intro x hx hx'
        simp only [List.head?_cons] at hx
        exact absurd (hx ▸ hx') hh

theorem submit_cases (w : DeferredWriter) (onLost : Bool) :
    (w.closed = true ∨ w.ceiling ≤ w.queue.length) ∧
        w.submit onLost = (false, (w.hand onLost).2.loseItem (w.hand onLost).1) ∨
      w.closed = false ∧ w.queue.length < w.ceiling ∧ w.task.live = true ∧ w.submit onLost =
          (true, { (w.hand onLost).2 with queue := w.queue ++ [(w.hand onLost).1] }) ∨
      w.closed = false ∧ w.queue.length < w.ceiling ∧ w.task.live = false ∧ w.submit onLost = (true,
            { (w.hand onLost).2 with
              queue := w.queue ++ [(w.hand onLost).1]
              task := .created
              cancelling := false
              mustCancel := false }) := by
  cases hc : w.closed with
  | true => exact .inl ⟨.inl rfl, by unfold submit hand; simp only [hc, if_true]⟩
  | false =>
    by_cases hf : w.ceiling ≤ w.queue.length
    · refine .inl ⟨.inr hf, ?_⟩
      unfold submit hand
      simp only [hc, hf, if_true, Bool.false_eq_true, if_false]
    · cases hl : w.task.live with
      | true =>
        refine .inr (.inl ⟨rfl, Nat.not_le.mp hf, rfl, ?_⟩)
        unfold submit hand
        simp only [hc, hf, hl, if_true, Bool.false_eq_true, if_false]
      | false =>
        refine .inr (.inr ⟨rfl, Nat.not_le.mp hf, rfl, ?_⟩)
        unfold submit hand
        simp only [hc, hf, hl, Bool.false_eq_true, if_false]

/-! ### Every item in one place -/

structure Accounted (w : DeferredWriter) : Prop where
  numbered : w.submitted.map Pending.index = List.range w.submitted.length
  placed : ∀ x, w.taken.count x + w.lostItems.count x + w.unknownItems.count x +
    w.queue.count x = w.submitted.count x
  lost : w.lost = w.lostItems.length
  unknown : w.unknown = w.unknownItems.length
  called : w.lossCalls = w.lostItems.filter (·.onLost)
  ordered : (w.taken ++ w.queue).Sublist w.submitted
  storedInOrder : w.stored.Sublist w.submitted
  heard : w.taken <+: w.stored
  bounded : w.queue.length ≤ w.ceiling

theorem accounted_new (ceiling : ℕ) : Accounted { ceiling := ceiling } :=
  ⟨rfl, fun _ => rfl, rfl, rfl, rfl, .slnil, .slnil, nil_prefix, Nat.zero_le _⟩

namespace Accounted

theorem nodup (h : Accounted w) : w.submitted.Nodup :=
  .of_map Pending.index (h.numbered ▸ nodup_range)

theorem perm (h : Accounted w) :
    (w.taken ++ w.lostItems ++ w.unknownItems ++ w.queue).Perm w.submitted := by
  rw [perm_iff_count]
  intro x
  simp only [count_append]
  exact h.placed x

theorem hand_numbered (h : Accounted w) (onLost : Bool) :
    (w.hand onLost).2.submitted.map Pending.index =
      List.range (w.hand onLost).2.submitted.length := by
  simp [hand, h.numbered, range_succ]

theorem handLost (h : Accounted w) (onLost : Bool) :
    Accounted ((w.hand onLost).2.loseItem (w.hand onLost).1) where
  numbered := h.hand_numbered onLost
  placed := by
    intro x
    have := h.placed x
    simp only [hand, loseItem, count_append]
    omega
  lost := by simp [hand, loseItem, h.lost]
  unknown := h.unknown
  called := by
    cases onLost
    all_goals simp [hand, loseItem, h.called]
  ordered := h.ordered.trans (sublist_append_left _ _)
  storedInOrder := h.storedInOrder.trans (sublist_append_left _ _)
  heard := h.heard
  bounded := h.bounded

theorem handQueued (h : Accounted w) {onLost : Bool} (hroom : w.queue.length < w.ceiling)
    (task : Worker) (cancelling mustCancel : Bool) :
    Accounted
      { (w.hand onLost).2 with
        queue := w.queue ++ [(w.hand onLost).1]
        task := task
        cancelling := cancelling
        mustCancel := mustCancel } where
  numbered := h.hand_numbered onLost
  placed := by
    intro x
    have := h.placed x
    simp only [hand, count_append]
    omega
  lost := h.lost
  unknown := h.unknown
  called := h.called
  ordered := by
    rw [← append_assoc]
    exact h.ordered.append (List.Sublist.refl _)
  storedInOrder := h.storedInOrder.trans (sublist_append_left _ _)
  heard := h.heard
  bounded := by
    simp only [length_append]
    exact hroom

theorem frame (h : Accounted w) (task : Worker) (cancelling mustCancel : Bool)
    (inFlight : Option Pending) (closed : Bool) (closers : List Closer) :
    Accounted
      { w with
        task := task
        cancelling := cancelling
        mustCancel := mustCancel
        inFlight := inFlight
        closed := closed
        closers := closers } :=
  { h with }

theorem nextWrite (h : Accounted w) : Accounted w.nextWrite := by
  unfold DeferredWriter.nextWrite
  split
  all_goals exact h.frame _ _ _ _ _ _

theorem popTaken (h : Accounted w) {item : Pending} (hh : w.queue.head? = some item)
    (hs : w.stored = w.taken ++ [item]) :
    Accounted { w.popLeft with taken := w.taken ++ [item] } := by
  obtain ⟨rest, hq⟩ := List.head?_eq_some_iff.mp hh
  have ho := h.ordered
  have hb := h.bounded
  rw [hq] at ho hb
  refine { h with placed := ?_, ordered := ?_, heard := ?_, bounded := ?_ }
  · intro x
    have := h.placed x
    simp only [popLeft, hq, tail_cons, count_append, count_cons, count_nil] at this ⊢
    omega
  · simpa [popLeft, hq] using ho
  · exact hs ▸ prefix_refl _
  · simp only [popLeft, hq, tail_cons]
    simp only [length_cons] at hb
    omega

theorem popLost (h : Accounted w) {item : Pending} (hh : w.queue.head? = some item) :
    Accounted (w.popLeft.loseItem item) := by
  obtain ⟨rest, hq⟩ := List.head?_eq_some_iff.mp hh
  have ho := h.ordered
  have hb := h.bounded
  rw [hq] at ho hb
  refine ⟨h.numbered, ?_, ?_, h.unknown, ?_, ?_, h.storedInOrder, h.heard, ?_⟩
  · intro x
    have := h.placed x
    simp only [popLeft, loseItem, hq, tail_cons, count_append, count_cons, count_nil] at this ⊢
    omega
  · simp [popLeft, loseItem, h.lost]
  · by_cases hc : item.onLost = true
    all_goals simp [popLeft, loseItem, h.called, hc]
  · simp only [popLeft, loseItem, hq, tail_cons]
    exact (List.Sublist.append (.refl _) (sublist_cons_self _ _)).trans ho
  · simp only [popLeft, loseItem, hq, tail_cons]
    simp only [length_cons] at hb
    omega

theorem strand (h : Accounted w) (head : Option Pending) : Accounted (w.strand head).2 := by
  obtain ⟨kept, rest, hq, hs, -⟩ := strand_spec w head
  rw [hs]
  refine ⟨h.numbered, ?_, ?_, ?_, ?_, ?_, h.storedInOrder, h.heard, Nat.zero_le _⟩
  · intro x
    have := h.placed x
    simp only [hq, stranded, count_append, count_nil] at this ⊢
    omega
  · simp [stranded, h.lost]
  · simp [stranded, h.unknown]
  · simp [stranded, h.called]
  · simp only [stranded, append_nil]
    exact (sublist_append_left _ _).trans h.ordered

end Accounted

/-! ### What the worker and the closers are at -/

structure Running (w : DeferredWriter) : Prop where
  held : w.task = .done ∧ w.closed = true ∨ w.stored = w.taken ++ w.task.untaken
  head : ∀ item, w.task.item = some item →
    w.inFlight = some item ∧ w.queue.head? = some item
  created : w.task = .created → w.queue ≠ []
  idle : w.task.live = false → w.queue ≠ [] → w.closed = true
  cancelling : w.cancelling = true → w.closed = true
  mustCancel : w.mustCancel = true → w.closed = true ∧ ∀ item, w.task ≠ .writing item none
  closers : w.closers ≠ [] → w.closed = true
  returned : ∀ n, .returned n ∈ w.closers → w.queue = [] ∧ w.task.live = false

theorem running_new (ceiling : ℕ) : Running { ceiling := ceiling } :=
  ⟨.inr rfl, nofun, nofun, fun _ h => absurd rfl h, nofun, nofun, fun h => absurd rfl h, nofun⟩

theorem untaken_of_idle {task : Worker} (h : task.live = false) : task.untaken = [] := by
  cases task with
  | absent => rfl
  | done => rfl
  | created | writing item ended | sleeping item => cases h

theorem cancelTask_spec (w : DeferredWriter) :
    ∃ c m, w.cancelTask = { w with cancelling := c, mustCancel := m } ∧
      (m = true → w.mustCancel = true ∨ ∀ item, w.task ≠ .writing item none) := by
  unfold cancelTask
  split
  · exact ⟨w.cancelling, w.mustCancel, rfl, .inl⟩
  · exact ⟨w.cancelling, w.mustCancel, rfl, .inl⟩
  · exact ⟨true, w.mustCancel, rfl, .inl⟩
  all_goals exact ⟨true, true, rfl, fun _ => .inr (fun item h => by simp_all)⟩

theorem cancelTask_closed (w : DeferredWriter) : w.cancelTask.closed = w.closed := by
  obtain ⟨c, m, hc, -⟩ := cancelTask_spec w
  rw [hc]

theorem strand_closed (w : DeferredWriter) (head : Option Pending) :
    (w.strand head).2.closed = w.closed := by
  obtain ⟨kept, rest, -, hs, -⟩ := strand_spec w head
  rw [hs]
  rfl

namespace Running

theorem not_returned (h : Running w) (hl : w.task.live = true) (n : ℕ) :
    .returned n ∉ w.closers := by
  intro hn
  have := (h.returned n hn).2
  rw [hl] at this
  cases this

theorem stored_of_live (h : Running w) (hl : w.task.live = true) :
    w.stored = w.taken ++ w.task.untaken := by
  rcases h.held with ⟨hd, -⟩ | hs
  · rw [hd] at hl
    cases hl
  · exact hs

theorem open_closers (h : Running w) (ho : w.closed = false) : w.closers = [] := by
  by_contra hn
  rw [h.closers hn] at ho
  cases ho

theorem handLost (h : Running w) (onLost : Bool) :
    Running ((w.hand onLost).2.loseItem (w.hand onLost).1) :=
  { h with }

theorem submit (h : Running w) (onLost : Bool) : Running (w.submit onLost).2 := by
  rcases submit_cases w onLost with ⟨-, hs⟩ | ⟨ho, -, hl, hs⟩ | ⟨ho, -, hidle, hs⟩
  · rw [hs]
    exact h.handLost onLost
  · rw [hs]
    refine ⟨h.held, ?_, ?_, ?_, h.cancelling, h.mustCancel, h.closers, ?_⟩
    · intro item hitem
      obtain ⟨hf, hh⟩ := h.head item hitem
      exact ⟨hf, by simp [List.head?_append, hh]⟩
    · simp
    · intro hidle
      exact absurd (hl.symm.trans hidle) (by decide)
    · intro n hn
      exact absurd hn (h.not_returned hl n)
  · rw [hs]
    refine ⟨.inr ?_, nofun, by simp, nofun, nofun, nofun, h.closers, ?_⟩
    · rcases h.held with ⟨-, hc⟩ | ht
      · exact absurd (ho.symm.trans hc) (by decide)
      · change w.stored = w.taken ++ []
        rw [ht, untaken_of_idle hidle]
    · intro n hn
      change .returned n ∈ w.closers at hn
      simp [h.open_closers ho] at hn

theorem nextWrite (hs : w.stored = w.taken)
    (hc : w.cancelling = true → w.closed = true) (hmust : w.mustCancel = false)
    (hl : w.closers ≠ [] → w.closed = true) (hr : ∀ n, .returned n ∉ w.closers) :
    Running w.nextWrite := by
  have ht : ∀ task : Worker, w.mustCancel = true →
      w.closed = true ∧ ∀ item, task ≠ .writing item none :=
    fun _ hm => absurd (hm.symm.trans hmust) (by decide)
  unfold DeferredWriter.nextWrite
  split
  · rename_i hq
    exact ⟨.inr (by simpa [Worker.untaken] using hs), nofun, nofun,
      fun _ he => absurd hq he, hc, ht _, hl,
      fun n hn => absurd hn (hr n)⟩
  · rename_i item rest hq
    refine ⟨.inr (by simpa [Worker.untaken] using hs), ?_, nofun, nofun, hc,
      ht _, hl, fun n hn => absurd hn (hr n)⟩
    intro x hx
    cases hx
    exact ⟨rfl, by simp [hq]⟩

theorem raiseCancelled (h : Running w) (hl : w.task.live = true) (hc : w.closed = true) :
    Running w.raiseCancelled :=
  ⟨.inl ⟨rfl, hc⟩, nofun, nofun, fun _ _ => hc, fun _ => hc, nofun,
    fun _ => hc, fun n hn => absurd hn (h.not_returned hl n)⟩

variable {ended : WriteEnd}

theorem afterWrite (h : Running w) {item : Pending} (ht : w.task = .writing item (some ended))
    (hmust : w.mustCancel = false) : Running (w.afterWrite item ended) := by
  have hl : w.task.live = true := by rw [ht]; rfl
  have hs := h.stored_of_live hl
  have hr := h.not_returned hl
  rw [ht] at hs
  cases ended with
  | success =>
    exact nextWrite (w := { w.popLeft with taken := w.taken ++ [item] }) hs h.cancelling
      hmust h.closers hr
  | transient =>
    refine ⟨.inr hs, ?_, nofun, nofun, h.cancelling, ?_, h.closers, ?_⟩
    · intro x hx
      exact h.head x (by rw [ht]; exact hx)
    · intro hm
      exact absurd (hm.symm.trans hmust) (by decide)
    · intro n hn
      exact absurd hn (hr n)
  | refused =>
    have ho : w.stored = w.taken := by simpa [Worker.untaken] using hs
    exact nextWrite (w := w.popLeft.loseItem item) ho h.cancelling hmust h.closers hr
  | cancelled =>
    have ho : w.stored = w.taken := by simpa [Worker.untaken] using hs
    simp only [DeferredWriter.afterWrite]
    split_ifs with hc
    · exact h.raiseCancelled hl (h.cancelling hc)
    · exact nextWrite (w := w.popLeft.loseItem item) ho h.cancelling hmust h.closers hr

theorem resume (h : Running w) (hst : w.resume = some w') : Running w' := by
  unfold DeferredWriter.resume at hst
  by_cases hmust : w.mustCancel = true
  · have hc := (h.mustCancel hmust).1
    split at hst <;> cases hst
    all_goals
      rename_i ht
      rw [if_pos hmust]
      exact h.raiseCancelled (by rw [ht]; rfl) hc
  · have hmust' : w.mustCancel = false := by simpa using hmust
    split at hst <;> cases hst <;> rw [if_neg hmust]
    · rename_i ht
      have hl : w.task.live = true := by rw [ht]; rfl
      have hs := h.stored_of_live hl
      rw [ht] at hs
      exact nextWrite (by simpa [Worker.untaken] using hs) h.cancelling hmust' h.closers
        (h.not_returned hl)
    · rename_i item ended ht
      exact h.afterWrite ht hmust'
    · rename_i item ht
      have hl : w.task.live = true := by rw [ht]; rfl
      have hs := h.stored_of_live hl
      rw [ht] at hs
      exact nextWrite (w := { w with inFlight := none })
        (by simpa [Worker.untaken] using hs) h.cancelling hmust' h.closers
        (h.not_returned hl)

theorem finish (h : Running w) (ht : w.finish ended = some w') : Running w' := by
  unfold DeferredWriter.finish at ht
  split at ht
  · rename_i item hk
    cases ht
    have hl : w.task.live = true := by rw [hk]; rfl
    have hs := h.stored_of_live hl
    rw [hk] at hs
    refine ⟨.inr ?_, ?_, nofun, nofun, h.cancelling, ?_, h.closers, ?_⟩
    · cases ended <;> simpa [Worker.untaken] using hs
    · intro x hx
      exact h.head x (by rw [hk]; exact hx)
    · intro hm
      exact absurd hk ((h.mustCancel hm).2 item)
    · intro n hn
      exact absurd hn (h.not_returned hl n)
  · cases ht

theorem cancelTask (h : Running w) (hl : w.task.live = true) (closers : List Closer)
    (hcl : ∀ n, .returned n ∉ closers) :
    Running { w.cancelTask with closed := true, closers := closers } := by
  obtain ⟨c, m, hc, hm⟩ := cancelTask_spec w
  rw [hc]
  refine ⟨.inr (h.stored_of_live hl), h.head, h.created, ?_, fun _ => rfl, ?_, fun _ => rfl, ?_⟩
  · intro hidle
    exact absurd (hl.symm.trans hidle) (by decide)
  · intro hm'
    rcases hm hm' with hmust | hw
    · exact ⟨rfl, (h.mustCancel hmust).2⟩
    · exact ⟨rfl, hw⟩
  · intro n hn
    exact absurd hn (hcl n)

theorem strand (h : Running w) (hidle : w.task.live = false) (head : Option Pending)
    (closers : List Closer) :
    Running { (w.strand head).2 with closed := true, closers := closers } := by
  obtain ⟨kept, rest, -, ht, -⟩ := strand_spec w head
  rw [ht]
  have hitem : w.task.item = none := by
    cases hk : w.task with
    | absent => rfl
    | done => rfl
    | created | writing item ended | sleeping item => rw [hk] at hidle; cases hidle
  refine ⟨?_, ?_, ?_, fun _ _ => rfl, fun _ => rfl, ?_, fun _ => rfl, fun _ _ => ⟨rfl, hidle⟩⟩
  · rcases h.held with ⟨hd, -⟩ | hs
    · exact .inl ⟨hd, rfl⟩
    · exact .inr hs
  · intro item ho
    change w.task.item = some item at ho
    rw [hitem] at ho
    cases ho
  · intro hc
    change w.task = .created at hc
    rw [hc] at hidle
    cases hidle
  · intro hm
    exact ⟨rfl, (h.mustCancel hm).2⟩

theorem close (h : Running w) (grace : Bool) : Running (w.close grace) := by
  unfold DeferredWriter.close
  by_cases hl : w.task.live = true
  · have hcl : ∀ c : Closer, c.active = true → ∀ n, .returned n ∉ w.closers ++ [c] := by
      intro c hc n hn
      rcases mem_append.mp hn with hold | he
      · exact h.not_returned hl n hold
      · rw [← mem_singleton.mp he] at hc
        cases hc
    rw [if_pos hl]
    split_ifs with hg
    · exact ⟨.inr (h.stored_of_live hl), h.head, h.created, fun _ _ => rfl, fun _ => rfl,
        fun hm => ⟨rfl, (h.mustCancel hm).2⟩, fun _ => rfl,
        fun n hn => absurd hn (hcl .waiting rfl n)⟩
    · exact h.cancelTask hl _ (hcl _ rfl)
  · rw [if_neg hl]
    exact h.strand (by simpa using hl) none _

theorem closeTurn (h : Running w) {i : ℕ} (hs : w.closeTurn i = some w') : Running w' := by
  have hl : ∀ c : Closer, w.closers[i]? = some c → w.closed = true :=
    fun c hc => h.closers (ne_nil_of_mem (mem_of_getElem? hc))
  unfold DeferredWriter.closeTurn at hs
  split at hs
  · rename_i hw
    have hl := hl _ hw
    split_ifs at hs with hv
    · cases hs
      have hr := h.cancelTask hv (w.closers.set i (.gathering w.inFlight)) (by
        intro n hn
        rcases mem_or_eq_of_mem_set hn with hold | he
        · exact h.not_returned hv n hold
        · cases he)
      rwa [← hl, ← cancelTask_closed] at hr
    · cases hs
      have hr := h.strand (by simpa using hv) none (w.closers.set i (.returned (w.strand none).1))
      rwa [← hl, ← strand_closed w none] at hr
  · rename_i head hg
    have hl := hl _ hg
    split_ifs at hs with hv
    cases hs
    have hr := h.strand (by simpa using hv) head (w.closers.set i (.returned (w.strand head).1))
    rwa [← hl, ← strand_closed w head] at hr
  · cases hs

theorem step (h : Running w) {a : Step} (hs : w.step a = some w') : Running w' := by
  cases a with
  | submit onLost =>
    cases hs
    exact h.submit onLost
  | lose =>
    cases hs
    exact h.handLost false
  | drain remaining =>
    cases hs
    exact h
  | finish ended => exact h.finish hs
  | resume => exact h.resume hs
  | close grace =>
    cases hs
    exact h.close grace
  | closeTurn i => exact h.closeTurn hs

end Running

namespace Accounted

theorem submit (h : Accounted w) (onLost : Bool) : Accounted (w.submit onLost).2 := by
  rcases submit_cases w onLost with ⟨-, hs⟩ | ⟨-, hroom, -, hs⟩ | ⟨-, hroom, -, hs⟩
  · rw [hs]
    exact h.handLost onLost
  · rw [hs]
    exact h.handQueued hroom w.task w.cancelling w.mustCancel
  · rw [hs]
    exact h.handQueued hroom .created false false

variable {ended : WriteEnd}

theorem finish (h : Accounted w) (hw : Running w) (ht : w.finish ended = some w') :
    Accounted w' := by
  unfold DeferredWriter.finish at ht
  split at ht
  · rename_i item hk
    cases ht
    by_cases hs : ended = .success
    · have hso : w.stored = w.taken := by
        simpa [hk, Worker.untaken] using hw.stored_of_live (by rw [hk]; rfl)
      obtain ⟨rest, hq⟩ := List.head?_eq_some_iff.mp (hw.head item (by rw [hk]; rfl)).2
      have ho := h.ordered
      rw [hq] at ho
      simp only [hs, hso]
      refine { h with storedInOrder := ?_, heard := prefix_append _ _ }
      exact (List.Sublist.append (.refl _) (by simp)).trans ho
    · simp only [hs, if_false]
      exact h.frame _ _ _ _ _ _
  · cases ht

theorem afterWrite (h : Accounted w) (hw : Running w) {item : Pending}
    (ht : w.task = .writing item (some ended)) : Accounted (w.afterWrite item ended) := by
  have hh := (hw.head item (by rw [ht]; rfl)).2
  have hs := hw.stored_of_live (by rw [ht]; rfl)
  rw [ht] at hs
  cases ended with
  | success => exact (h.popTaken hh hs).nextWrite
  | transient => exact h.frame _ _ _ _ _ _
  | refused => exact (h.popLost hh).nextWrite
  | cancelled =>
    simp only [DeferredWriter.afterWrite]
    split_ifs
    · exact h.frame _ _ _ _ _ _
    · exact (h.popLost hh).nextWrite

theorem resume (h : Accounted w) (hw : Running w) (hs : w.resume = some w') :
    Accounted w' := by
  unfold DeferredWriter.resume at hs
  by_cases hmust : w.mustCancel = true
  · split at hs <;> cases hs
    all_goals
      rw [if_pos hmust]
      exact h.frame _ _ _ _ _ _
  · split at hs <;> cases hs <;> rw [if_neg hmust]
    · exact h.nextWrite
    · rename_i item ended ht
      exact h.afterWrite hw ht
    · exact (h.frame w.task w.cancelling w.mustCancel none w.closed w.closers).nextWrite

theorem cancelTask (h : Accounted w) (closed : Bool) (closers : List Closer) :
    Accounted { w.cancelTask with closed := closed, closers := closers } := by
  obtain ⟨c, m, hc, -⟩ := cancelTask_spec w
  rw [hc]
  exact h.frame _ _ _ _ _ _

theorem close (h : Accounted w) (grace : Bool) : Accounted (w.close grace) := by
  unfold DeferredWriter.close
  split_ifs
  · exact h.frame _ _ _ _ _ _
  · exact h.cancelTask _ _
  · exact (h.strand none).frame _ _ _ _ _ _

theorem closeTurn (h : Accounted w) {i : ℕ} (hs : w.closeTurn i = some w') : Accounted w' := by
  unfold DeferredWriter.closeTurn at hs
  split at hs
  · split_ifs at hs
    · cases hs
      exact h.cancelTask _ _
    · cases hs
      exact (h.strand none).frame _ _ _ _ _ _
  · rename_i head _
    split_ifs at hs
    cases hs
    exact (h.strand head).frame _ _ _ _ _ _
  · cases hs

theorem step (h : Accounted w) (hw : Running w) {a : Step} (hs : w.step a = some w') :
    Accounted w' := by
  cases a with
  | submit onLost =>
    cases hs
    exact h.submit onLost
  | lose =>
    cases hs
    exact h.handLost false
  | drain remaining =>
    cases hs
    exact h
  | finish ended => exact h.finish hw hs
  | resume => exact h.resume hw hs
  | close grace =>
    cases hs
    exact h.close grace
  | closeTurn i => exact h.closeTurn hs

end Accounted

/-! ### A write the store took is not lost -/

/-- The close that cancelled the worker is the only one under way, and it holds the head. -/
structure Kept (w : DeferredWriter) : Prop where
  single : w.closers.countP Closer.active ≤ 1
  thrown : w.mustCancel = true → ∀ item ended, w.task = .writing item (some ended) →
    .gathering (some item) ∈ w.closers
  kept : ∀ x ∈ w.stored, x ∈ w.taken ∨ x ∈ w.unknownItems ∨
    w.task = .writing x (some .success) ∨
      w.task = .done ∧ w.queue.head? = some x ∧ .gathering (some x) ∈ w.closers

theorem kept_new (ceiling : ℕ) : Kept { ceiling := ceiling } := ⟨Nat.zero_le _, nofun, nofun⟩

variable {b : Closer} {closers : List Closer} {i : ℕ}

theorem eq_of_countP_le_one {a : Closer} (ho : closers.countP Closer.active ≤ 1)
    (ha : a ∈ closers) (ha' : a.active = true) (hb : closers[i]? = some b) (hb' : b.active = true) :
    a = b := by
  rw [countP_eq_length_filter] at ho
  have hfa := mem_filter.mpr ⟨ha, ha'⟩
  have hfb := mem_filter.mpr ⟨mem_of_getElem? hb, hb'⟩
  match hf : closers.filter Closer.active with
  | [] => simp [hf] at hfa
  | [c] =>
    rw [hf] at hfa hfb
    rw [mem_singleton.mp hfa, mem_singleton.mp hfb]
  | _ :: _ :: _ => simp [hf] at ho

theorem countP_set_le {c : Closer} (hb : closers[i]? = some b) (ha : b.active = true) :
    (closers.set i c).countP Closer.active ≤ closers.countP Closer.active := by
  obtain ⟨hi, hg⟩ := List.getElem?_eq_some_iff.mp hb
  have hp : 0 < closers.countP Closer.active := countP_pos_iff.mpr ⟨b, mem_of_getElem? hb, ha⟩
  rw [countP_set hi, hg]
  split_ifs <;> omega

namespace Kept

theorem no_gathering (hr : Running w) (ho : w.closed = false) (c : Closer) : c ∉ w.closers := by
  simp [hr.open_closers ho]

theorem nextWrite_kept {v : DeferredWriter} (hs : v.closers.countP Closer.active ≤ 1)
    (hmust : v.mustCancel = false) (hk : ∀ x ∈ v.stored, x ∈ v.taken ∨ x ∈ v.unknownItems) :
    Kept v.nextWrite := by
  have ht : ∀ task : Worker, v.mustCancel = true → ∀ item ended,
      task = .writing item (some ended) → .gathering (some item) ∈ v.closers :=
    fun _ hm => absurd (hm.symm.trans hmust) (by decide)
  have hk' : ∀ x ∈ v.stored, ∀ p : Prop, x ∈ v.taken ∨ x ∈ v.unknownItems ∨ p := by
    intro x hx p
    rcases hk x hx with htk | hu
    · exact .inl htk
    · exact .inr (.inl hu)
  unfold nextWrite
  split
  all_goals exact ⟨hs, ht _, fun x hx => hk' x hx _⟩

theorem settled (h : Kept w) {x : Pending} (hx : x ∈ w.stored) (hl : w.task.live = true)
    (hk : w.task ≠ .writing x (some .success)) : x ∈ w.taken ∨ x ∈ w.unknownItems := by
  rcases h.kept x hx with ht | hu | hw | ⟨hd, -⟩
  · exact .inl ht
  · exact .inr hu
  · exact absurd hw hk
  · rw [hd] at hl
    cases hl

theorem submit (h : Kept w) (hr : Running w) (onLost : Bool) : Kept (w.submit onLost).2 := by
  rcases submit_cases w onLost with ⟨-, hs⟩ | ⟨ho, -, hl, hs⟩ | ⟨ho, -, hidle, hs⟩
  · rw [hs]
    exact { h with }
  · rw [hs]
    refine ⟨h.single, h.thrown, ?_⟩
    intro x hx
    rcases h.kept x hx with ht | hu | hw | ⟨hd, -⟩
    · exact .inl ht
    · exact .inr (.inl hu)
    · exact .inr (.inr (.inl hw))
    · rw [hd] at hl
      cases hl
  · rw [hs]
    refine ⟨h.single, nofun, ?_⟩
    intro x hx
    rcases h.kept x hx with ht | hu | hw | ⟨-, -, hg⟩
    · exact .inl ht
    · exact .inr (.inl hu)
    · rw [hw] at hidle
      cases hidle
    · exact absurd hg (no_gathering hr ho _)

variable {ended : WriteEnd} {closed : Bool} {closers : List Closer}

theorem finish (h : Kept w) (hr : Running w) (hst : w.finish ended = some w') : Kept w' := by
  unfold DeferredWriter.finish at hst
  split at hst
  · rename_i item hk
    cases hst
    have hold : ∀ x ∈ w.stored, x ∈ w.taken ∨ x ∈ w.unknownItems :=
      fun x hx => h.settled hx (by rw [hk]; rfl) (by rw [hk]; simp)
    refine ⟨h.single, fun hm => absurd hk ((hr.mustCancel hm).2 item), ?_⟩
    intro x hx
    by_cases hs : ended = .success
    · simp only [hs, if_true, mem_append, mem_singleton] at hx
      rcases hx with hx | rfl
      · rcases hold x hx with ht | hu
        · exact .inl ht
        · exact .inr (.inl hu)
      · exact .inr (.inr (.inl (by rw [hs])))
    · simp only [hs, if_false] at hx
      rcases hold x hx with ht | hu
      · exact .inl ht
      · exact .inr (.inl hu)
  · cases hst

theorem raiseCancelled (h : Kept w) (hr : Running w) (hl : w.task.live = true)
    (ht : ∀ x, w.task = .writing x (some .success) → .gathering (some x) ∈ w.closers) :
    Kept w.raiseCancelled := by
  refine ⟨h.single, nofun, ?_⟩
  intro x hx
  rcases h.kept x hx with hk | hu | hw | ⟨hd, -⟩
  · exact .inl hk
  · exact .inr (.inl hu)
  · exact .inr (.inr (.inr ⟨rfl, (hr.head x (by rw [hw]; rfl)).2, ht x hw⟩))
  · rw [hd] at hl
    cases hl

theorem afterWrite (h : Kept w) (hr : Running w) {item : Pending}
    (hk : w.task = .writing item (some ended)) (hmust : w.mustCancel = false) :
    Kept (w.afterWrite item ended) := by
  have hl : w.task.live = true := by rw [hk]; rfl
  have hold : ended ≠ .success → ∀ x ∈ w.stored, x ∈ w.taken ∨ x ∈ w.unknownItems :=
    fun hn x hx => h.settled hx hl (by rw [hk]; simp [hn])
  cases ended with
  | success =>
    refine nextWrite_kept (v := { w.popLeft with taken := w.taken ++ [item] }) h.single hmust ?_
    intro x hx
    have hs := hr.stored_of_live hl
    rw [hk] at hs
    exact .inl (hs ▸ hx)
  | transient =>
    refine ⟨h.single, nofun, ?_⟩
    intro x hx
    rcases hold (by simp) x hx with ht | hu
    · exact .inl ht
    · exact .inr (.inl hu)
  | refused =>
    exact nextWrite_kept (v := w.popLeft.loseItem item) h.single hmust (hold (by simp))
  | cancelled =>
    simp only [DeferredWriter.afterWrite]
    split_ifs
    · refine h.raiseCancelled hr hl ?_
      intro x hx
      rw [hk] at hx
      cases hx
    · exact nextWrite_kept (v := w.popLeft.loseItem item) h.single hmust (hold (by simp))

theorem resume (h : Kept w) (hr : Running w) (hs : w.resume = some w') : Kept w' := by
  unfold DeferredWriter.resume at hs
  by_cases hmust : w.mustCancel = true
  · split at hs <;> cases hs
    all_goals
      rename_i ht
      rw [if_pos hmust]
      exact h.raiseCancelled hr (by rw [ht]; rfl) (fun x hx => h.thrown hmust x _ hx)
  · have hmust' : w.mustCancel = false := by simpa using hmust
    split at hs <;> cases hs <;> rw [if_neg hmust]
    · rename_i ht
      exact nextWrite_kept h.single hmust'
        (fun x hx => h.settled hx (by rw [ht]; rfl) (by rw [ht]; simp))
    · rename_i item ended ht
      exact h.afterWrite hr ht hmust'
    · rename_i item ht
      exact nextWrite_kept (v := { w with inFlight := none }) h.single hmust'
        (fun x hx => h.settled hx (by rw [ht]; rfl) (by rw [ht]; simp))

theorem cancelTask (h : Kept w) (hr : Running w) (hl : w.task.live = true)
    (hs : closers.countP Closer.active ≤ 1) (hg : .gathering w.inFlight ∈ closers) :
    Kept { w.cancelTask with closed := closed, closers := closers } := by
  obtain ⟨c, m, hc, -⟩ := cancelTask_spec w
  rw [hc]
  refine ⟨hs, ?_, ?_⟩
  · intro _ item ended hk
    rwa [(hr.head item (by rw [hk]; rfl)).1] at hg
  · intro x hx
    by_cases hk : w.task = .writing x (some .success)
    · exact .inr (.inr (.inl hk))
    rcases h.settled hx hl hk with ht | hu
    · exact .inl ht
    · exact .inr (.inl hu)

theorem strand (h : Kept w) (hidle : w.task.live = false) {head : Option Pending}
    (hs : closers.countP Closer.active ≤ 1)
    (hh : ∀ x, .gathering (some x) ∈ w.closers → head = some x) :
    Kept { (w.strand head).2 with closed := closed, closers := closers } := by
  obtain ⟨kept, rest, -, hst, hp⟩ := strand_spec w head
  rw [hst]
  refine ⟨hs, ?_, ?_⟩
  · intro _ item ended hk
    change w.task = .writing item (some ended) at hk
    rw [hk] at hidle
    cases hidle
  · intro x hx
    rcases h.kept x hx with ht | hu | hw | ⟨-, hq, hg⟩
    · exact .inl ht
    · exact .inr (.inl (mem_append_left _ hu))
    · rw [hw] at hidle
      cases hidle
    · exact .inr (.inl (mem_append_right _ (hp x hq (hh x hg))))

end Kept

/-- No close is begun while another is under way. -/
def Alone (w : DeferredWriter) (a : Step) : Prop :=
  ∀ grace, a = .close grace → ∀ c ∈ w.closers, c.active = false

namespace Kept

theorem close (h : Kept w) (hr : Running w) {grace : Bool} (hal : Alone w (.close grace)) :
    Kept (w.close grace) := by
  have hn : w.closers.countP Closer.active = 0 := by
    rw [countP_eq_zero]
    intro c hc ha
    rw [hal grace rfl c hc] at ha
    cases ha
  have hs : ∀ c : Closer, (w.closers ++ [c]).countP Closer.active ≤ 1 := by
    intro c
    rw [countP_append, hn, Nat.zero_add]
    exact countP_le_length
  unfold DeferredWriter.close
  split <;> rename_i hl
  · split_ifs with hg
    · refine ⟨hs _, ?_, ?_⟩
      · intro hm item ended hk
        exact mem_append_left _ (h.thrown hm item ended hk)
      · intro x hx
        by_cases hk : w.task = .writing x (some .success)
        · exact .inr (.inr (.inl hk))
        rcases h.settled hx hl hk with ht | hu
        · exact .inl ht
        · exact .inr (.inl hu)
    · exact h.cancelTask hr hl (hs _) (by simp)
  · refine h.strand (by simpa using hl) (hs _) ?_
    intro x hga
    exact absurd (hal grace rfl _ hga) (by simp [Closer.active])

theorem closeTurn (h : Kept w) (hr : Running w) {i : ℕ} (ht : w.closeTurn i = some w') :
    Kept w' := by
  unfold DeferredWriter.closeTurn at ht
  split at ht
  · rename_i hw
    have hs : ∀ c, (w.closers.set i c).countP Closer.active ≤ 1 :=
      fun c => (countP_set_le hw rfl).trans h.single
    split_ifs at ht with hl
    · cases ht
      obtain ⟨hi, -⟩ := List.getElem?_eq_some_iff.mp hw
      exact h.cancelTask hr hl (hs _) (mem_set hi _)
    · cases ht
      refine h.strand (by simpa using hl) (hs _) ?_
      intro x hg
      cases eq_of_countP_le_one h.single hg rfl hw rfl
  · rename_i head hgath
    split_ifs at ht with hl
    cases ht
    refine h.strand (by simpa using hl) ((countP_set_le hgath rfl).trans h.single) ?_
    intro x hg
    cases eq_of_countP_le_one h.single hg rfl hgath rfl
    rfl
  · cases ht

theorem step (h : Kept w) (hr : Running w) {a : Step} (ha : Alone w a)
    (hs : w.step a = some w') : Kept w' := by
  cases a with
  | submit onLost =>
    cases hs
    exact h.submit hr onLost
  | lose =>
    cases hs
    exact { h with }
  | drain remaining =>
    cases hs
    exact h
  | finish ended => exact h.finish hr hs
  | resume => exact h.resume hr hs
  | close grace =>
    cases hs
    exact h.close hr ha
  | closeTurn i => exact h.closeTurn hr hs

theorem not_lost (h : Kept w) (ha : Accounted w) (hr : Running w) {x : Pending}
    (hx : x ∈ w.lostItems) : x ∉ w.stored := by
  intro hs
  have hp := ha.placed x
  have ho := nodup_iff_count_le_one.mp ha.nodup x
  have hl := count_pos_iff.mpr hx
  have helse : 0 < w.taken.count x + w.unknownItems.count x + w.queue.count x := by
    rcases h.kept x hs with ht | hu | hw | ⟨-, hq, -⟩
    · have := count_pos_iff.mpr ht
      omega
    · have := count_pos_iff.mpr hu
      omega
    · have hq := (hr.head x (by rw [hw]; rfl)).2
      have := count_pos_iff.mpr (mem_of_mem_head? hq)
      omega
    · have := count_pos_iff.mpr (mem_of_mem_head? hq)
      omega
  omega

end Kept

/-! ### Over whole runs -/

/-- What is promised of every submitted write but that a lost one was not taken. -/
structure Ordered (w : DeferredWriter) : Prop where
  inOrder : w.stored.Sublist w.submitted
  once : w.stored.Nodup
  took : w.taken <+: w.stored
  placed : (w.taken ++ w.lostItems ++ w.unknownItems ++ w.queue).Perm w.submitted
  distinct : w.submitted.Nodup
  counted : w.submitted.length = w.taken.length + w.lost + w.unknown + w.queue.length
  told : w.lossCalls = w.lostItems.filter (·.onLost)
  bounded : w.queue.length ≤ w.ceiling
  worked : w.closed = false → w.queue ≠ [] → w.task.live = true
  working : ∀ item, w.task.item = some item → w.queue.head? = some item
  finished : ∀ n, .returned n ∈ w.closers → w.queue = []
  refused : w.closed = true → ∀ onLost, (w.submit onLost).1 = false ∧
    (w.submit onLost).2.lostItems = w.lostItems ++ [(w.hand onLost).1]

theorem ordered_of (ha : Accounted w) (hr : Running w) : Ordered w where
  inOrder := ha.storedInOrder
  once := ha.storedInOrder.nodup ha.nodup
  took := ha.heard
  placed := ha.perm
  distinct := ha.nodup
  counted := by
    have := ha.perm.length_eq
    simp only [length_append] at this
    rw [ha.lost, ha.unknown]
    omega
  told := ha.called
  bounded := ha.bounded
  worked := by
    intro ho he
    by_contra hidle
    rw [hr.idle (by simpa using hidle) he] at ho
    cases ho
  working := fun item hitem => (hr.head item hitem).2
  finished := fun n hn => (hr.returned n hn).1
  refused := by
    intro hc onLost
    rcases submit_cases w onLost with ⟨-, hs⟩ | ⟨ho, -⟩ | ⟨ho, -⟩
    · rw [hs]
      exact ⟨rfl, rfl⟩
    all_goals exact absurd (ho.symm.trans hc) (by decide)

theorem deferred_writes {ceiling : ℕ} {steps : List Step}
    (halone : Meets step Alone { ceiling := ceiling } steps)
    (hrun : run step { ceiling := ceiling } steps = some w) :
    Ordered w ∧ ∀ x ∈ w.lostItems, x ∉ w.stored := by
  have hstep : ∀ (w : DeferredWriter) (a : Step) (w' : DeferredWriter),
      (Accounted w ∧ Running w) ∧ Kept w → Alone w a → w.step a = some w' →
        (Accounted w' ∧ Running w') ∧ Kept w' :=
    fun _ _ _ hw ha hstep =>
      ⟨⟨hw.1.1.step hw.1.2 hstep, hw.1.2.step hstep⟩, hw.2.step hw.1.2 ha hstep⟩
  obtain ⟨⟨hacc, hrunning⟩, hkept⟩ := run_invariant_of_meets hstep
    ⟨⟨accounted_new ceiling, running_new ceiling⟩, kept_new ceiling⟩ halone hrun
  exact ⟨ordered_of hacc hrunning, fun x hx => hkept.not_lost hacc hrunning hx⟩

section Bench

/-- The store takes the write while one close waits its grace; a second cancels in that tick. -/
def overlapping : List Step :=
  [.submit true, .resume, .close true, .finish .success, .close false, .resume, .closeTurn 0]

theorem taken_and_lost : ∃ w : DeferredWriter, Reaches step { ceiling := 10 } w ∧
    ∃ x ∈ w.lostItems, x ∈ w.stored ∧ x ∈ w.lossCalls := by
  obtain ⟨w, hw, hlost⟩ : ∃ w, run step { ceiling := 10 } overlapping = some w ∧ ∃ x ∈ w.lostItems,
    x ∈ w.stored ∧ x ∈ w.lossCalls := exists_of_check (by decide +kernel)
  exact ⟨w, ⟨overlapping, hw⟩, hlost⟩

def aloneCheck (w : DeferredWriter) : Step → Bool
  | .close _ => w.closers.all (fun c => !c.active)
  | _ => true

theorem alone_of_check {a : Step} (h : aloneCheck w a = true) : Alone w a := by
  rintro grace rfl c hc
  simpa using all_eq_true.mp h c hc

/-- One close cancels in the tick in which the store took the head; a second write never started. -/
def oneClose : List Step :=
  [.submit true, .resume, .submit true, .finish .transient, .resume, .resume, .finish .success,
    .close false, .resume, .closeTurn 0, .submit true]

theorem deferred_writes_closed : ∃ w : DeferredWriter,
    run step { ceiling := 10 } oneClose = some w ∧
      (w.lost, w.unknown, w.stored.map (·.index), w.lostItems.map (·.index)) = (2, 1, [0], [1, 2]) ∧
      Ordered w ∧ ∀ x ∈ w.lostItems, x ∉ w.stored := by
  obtain ⟨w, hw, hcounts⟩ : ∃ w, run step { ceiling := 10 } oneClose = some w ∧
      (w.lost, w.unknown, w.stored.map (·.index), w.lostItems.map (·.index)) =
        (2, 1, [0], [1, 2]) := exists_of_check (by decide +kernel)
  have hcheck : meetsCheck step aloneCheck { ceiling := 10 } oneClose = true := by
    decide +kernel
  exact ⟨w, hw, hcounts,
    deferred_writes (meets_of_check (fun _ _ h => alone_of_check h) hcheck) hw⟩

end Bench

end DeferredWriter

end OriRuntime
