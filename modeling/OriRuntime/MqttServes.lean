import OriRuntime.MqttCached
import OriRuntime.AdapterLock

/-!
# What a cached adapter serves

Every cached value is what the last message handled on its topic was accepted for. It was delivered
on the connection that is up, where no connect begins on a topic that still has a value cached.
-/

namespace OriRuntime

open List Option

variable {V R P Q : Type} {sub : MqttSubclass V R P Q} {s t : MqttState V R Q} {i : ℕ}

namespace MqttState

def lastHandled (s : MqttState V R Q) (topic : String) : Option (HandledMessage V) :=
  (s.handled.filter fun m => m.topic = topic).getLast?

variable {handled : List (HandledMessage V)} {m : HandledMessage V}

theorem lastHandled_of_topic :
    ((handled ++ [m]).filter fun n => n.topic = m.topic).getLast? = some m := by
  rw [filter_append, filter_cons_of_pos (by simp), filter_nil, List.getLast?_concat]

theorem lastHandled_of_ne {topic : String} (h : m.topic ≠ topic) :
    ((handled ++ [m]).filter fun n => n.topic = topic).getLast? =
      (handled.filter fun n => n.topic = topic).getLast? := by
  rw [filter_append, filter_cons_of_neg (by simpa using h), filter_nil, append_nil]

end MqttState

/-! ### The lifecycle and the listener -/

structure MqttSound (s : MqttState V R Q) : Prop where
  life : AdapterSound s.life
  listening : s.listener ≠ none → s.life.connected = true
  opening : s.opening ≠ .idle → s.life.holder ≠ none
  up : s.listener = some .listening → s.linkUp = true
  down : ∀ p, s.listener = some p → p ≠ .listening → p ≠ .done → s.linkUp = false
  answered : ∀ topic v wall raw, s.cache.get? topic = some (v, wall, raw) → ∃ m,
    s.lastHandled topic = some m ∧ m.accepted = some v ∧ s.arrivedAt.get? topic = some m.time

theorem MqttSound.start : MqttSound ({} : MqttState V R Q) where
  life := AdapterSound.start
  listening h := absurd rfl h
  opening h := absurd rfl h
  up h := by cases h
  down p h := by cases h
  answered topic v wall raw h := by cases h

/-- What holds of the value cached for the topic that is read, where connects begin without one. -/
structure MqttCurrent (s : MqttState V R Q) : Prop where
  fresh : s.opening ≠ .idle → s.cache.get? s.topic = none
  current : s.listener ≠ none → s.cache.get? s.topic ≠ none → s.linkUp = true ∧ ∃ m,
    s.lastHandled s.topic = some m ∧ s.client = some m.connection

theorem MqttCurrent.start : MqttCurrent ({} : MqttState V R Q) where
  fresh _ := rfl
  current _ h := absurd rfl h

/-- A connect that is not refused begins only while its topic has no value cached. -/
def ConnectsEmpty (s : MqttState V R Q) (a : MqttStep P Q) : Prop :=
  ∀ i config c, a = .acquire i config → s.life.calls[i]? = some c → c.kind = .connect →
    s.life.connected = false → s.cache.get? config.topic = none

namespace AdapterSound

variable {life life' : AdapterState}

theorem disconnected_of_holder (hs : AdapterSound life) (h : life.holder ≠ none) :
    life.connected = false := by
  obtain ⟨i, hi⟩ := ne_none_iff_exists'.mp h
  exact hs.running i hi

end AdapterSound

namespace MqttSound

variable (hs : MqttSound s)

include hs

theorem unheard (h : s.life.holder ≠ none) : s.listener = none := by
  by_contra hl
  have hc := hs.listening hl
  rw [hs.life.disconnected_of_holder h] at hc
  cases hc

theorem idle_of_listener (h : s.listener ≠ none) : s.opening = .idle := by
  by_contra ho
  exact h (hs.unheard (hs.opening ho))

variable {life : AdapterState}

theorem moveLife (hlife : AdapterSound life) (hc : life.connected = s.life.connected)
    (hh : s.opening ≠ .idle → life.holder ≠ none) : MqttSound { s with life := life } where
  life := hlife
  listening h := hc.trans (hs.listening h)
  opening := hh
  up := hs.up
  down := hs.down
  answered := hs.answered

theorem closeMqtt (hlife : AdapterSound life) : MqttSound { s.closeMqtt with life := life } where
  life := hlife
  listening h := absurd rfl h
  opening h := absurd rfl h
  up h := by cases h
  down p h := by cases h
  answered := hs.answered

end MqttSound

/-! ### Bodies of connects and closes -/

namespace MqttState

variable {config : MqttConfig Q}

theorem acquire_cases (ht : s.acquire i config = some t) : ∃ life c, s.life.acquire i = some life ∧
    s.life.calls[i]? = some c ∧
      ((life.holder = none ∧ t = { s with life := life }) ∨
        (life.holder ≠ none ∧ c.kind = .close ∧ t = { s.closeMqtt with life := life }) ∨
        (life.holder ≠ none ∧ c.kind = .connect ∧
          t =
            { s with
              life := life
              config := some config
              breaker := some
                { failureThreshold := config.failureThreshold
                  recoveryTimeout := config.recoveryTimeout
                  successThreshold := config.successThreshold }
              opening := .connecting })) := by
  unfold acquire at ht
  cases hlife : s.life.acquire i with
  | none =>
    rw [hlife] at ht
    cases ht
  | some life =>
    cases hi : s.life.calls[i]? with
    | none =>
      simp only [hlife, hi] at ht
      cases ht
    | some c =>
      simp only [hlife, hi] at ht
      refine ⟨life, c, rfl, rfl, ?_⟩
      split_ifs at ht with hf
      · exact .inl ⟨hf, (some.inj ht).symm⟩
      cases hk : c.kind with
      | close =>
        simp only [hk] at ht
        exact .inr (.inl ⟨hf, rfl, (some.inj ht).symm⟩)
      | connect =>
        simp only [hk] at ht
        exact .inr (.inr ⟨hf, rfl, (some.inj ht).symm⟩)

theorem opened_cases (ht : s.opened = some t) : ∃ taken life, s.life.take = some taken ∧
    taken.ends = some life ∧ s.opening ≠ .idle ∧
      ((life.connected = true ∧ ∃ reached p, (reached = true ↔ p = ListenerPhase.listening) ∧
          p ≠ .done ∧
          t =
            { s with
              life := life, opening := .idle, linkUp := reached, listener := some p }) ∨
        t = { s.closeMqtt with life := life }) := by
  unfold opened at ht
  cases htake : s.life.take with
  | none =>
    cases ho : s.opening <;> simp only [ho, htake, bind_none] at ht <;> cases ht
  | some taken =>
    cases hends : taken.ends with
    | none =>
      cases ho : s.opening <;>
        simp only [ho, htake, bind_some, hends] at ht <;> cases ht
    | some life =>
      refine ⟨taken, life, rfl, hends, ?_⟩
      cases ho : s.opening with
      | idle | connecting =>
        simp only [ho] at ht
        cases ht
      | subscribing =>
        simp only [ho, htake, bind_some, hends] at ht
        refine ⟨nofun, ?_⟩
        split_ifs at ht with hc
        · exact .inl ⟨hc, true, .listening, ⟨fun _ => rfl, fun _ => rfl⟩, nofun, (some.inj ht).symm⟩
        · exact .inr (some.inj ht).symm
      | unreached =>
        simp only [ho, htake, bind_some, hends] at ht
        refine ⟨nofun, ?_⟩
        split_ifs at ht with hc
        · exact .inl ⟨hc, false, .backoff, ⟨nofun, nofun⟩, nofun, (some.inj ht).symm⟩
        · exact .inr (some.inj ht).symm

end MqttState

theorem holder_of_underLock {life life' : AdapterState} {phase : LifecyclePhase}
    {f : ℕ → LifecycleCall → Option AdapterState} (h : life.underLock phase f = some life') :
    life.holder ≠ none := by
  obtain ⟨i, c, hh, -⟩ := AdapterState.underLock_cases h
  rw [hh]
  exact nofun

theorem MqttSound.unserved (hs : MqttSound s) (hlife : AdapterSound t.life)
    (hl : t.listener = none) (ho : t.opening ≠ .idle → t.life.holder ≠ none)
    (hc : t.cache = s.cache) (hr : t.arrivedAt = s.arrivedAt)
    (hh : t.handled = s.handled) : MqttSound t where
  life := hlife
  opening := ho
  listening h := absurd hl h
  up h := by
    rw [hl] at h
    cases h
  down p h := by
    rw [hl] at h
    cases h
  answered topic v wall raw h := by
    rw [hc] at h
    obtain ⟨m, hls, ha, ht⟩ := hs.answered topic v wall raw h
    refine ⟨m, ?_, ha, by rw [hr]; exact ht⟩
    unfold MqttState.lastHandled
    rw [hh]
    exact hls

theorem MqttCurrent.unserved (hl : t.listener = none)
    (hf : t.opening ≠ .idle → t.cache.get? t.topic = none) : MqttCurrent t where
  fresh := hf
  current h := absurd hl h

namespace MqttSound

variable (hs : MqttSound s)

include hs

theorem acquire {config : MqttConfig Q} (ht : s.acquire i config = some t) : MqttSound t := by
  obtain ⟨life, c, ha, hi, hca⟩ := MqttState.acquire_cases ht
  have hlife := hs.life.acquire ha
  obtain ⟨d, hf, hi', -, hk⟩ := AdapterState.acquire_cases ha
  have hidle : s.opening = .idle := by
    by_contra ho
    exact hs.opening ho hf
  rcases hca with ⟨hst, rfl⟩ | ⟨hh, hd, rfl⟩ | ⟨hh, hd, rfl⟩
  · refine hs.moveLife hlife ?_ fun h => absurd hidle h
    rcases hk with ⟨-, -, rfl⟩ | ⟨-, -, rfl⟩ | ⟨-, rfl⟩
    · rfl
    all_goals cases hst
  · exact hs.closeMqtt hlife
  · refine hs.unserved hlife ?_ (fun _ => hh) rfl rfl rfl
    by_contra hl
    have hco := hs.listening hl
    rcases hk with ⟨-, -, rfl⟩ | ⟨-, hdown, rfl⟩ | ⟨hc, rfl⟩
    · exact hh hf
    · rw [hco] at hdown
      cases hdown
    · obtain rfl := mem_unique hi hi'
      rw [hd] at hc
      cases hc

theorem enter (ht : s.enter = some t) : MqttSound t := by
  unfold MqttState.enter at ht
  split at ht <;> rename_i ho
  · cases ht
    have hh := hs.opening (by rw [ho]; exact nofun)
    exact hs.unserved hs.life (hs.unheard hh) (fun _ => hh) rfl rfl rfl
  · cases ht

theorem openFails (ht : s.openFails = some t) : MqttSound t := by
  unfold MqttState.openFails at ht
  cases ho : s.opening with
  | idle | unreached =>
    simp only [ho] at ht
    cases ht
  | connecting | subscribing =>
    simp only [ho] at ht
    cases ht
    have hh := hs.opening (by rw [ho]; exact nofun)
    exact hs.unserved hs.life (hs.unheard hh) (fun _ => hh) rfl rfl rfl

theorem opened (ht : s.opened = some t) : MqttSound t := by
  obtain ⟨taken, life, htake, hends, -, hc⟩ := MqttState.opened_cases ht
  have hlife := (hs.life.take htake).ends hends
  rcases hc with ⟨ho, reached, p, hr, hd, rfl⟩ | rfl
  · exact
      { life := hlife
        listening := fun _ => ho
        opening := fun h => absurd rfl h
        up := fun h => hr.mpr (some.inj h)
        down := fun q hq hl _ => by
          cases hq
          exact Bool.not_eq_true _ ▸ fun h => hl (hr.mp h)
        answered := hs.answered }
  · exact hs.closeMqtt hlife

theorem connectFails (ht : s.connectFails = some t) : MqttSound t := by
  unfold MqttState.connectFails at ht
  split at ht <;> rename_i hidle
  · cases ht
  · cases hf : s.life.fails with
    | none =>
      simp only [hf] at ht
      cases ht
    | some life =>
      simp only [hf] at ht
      cases ht
      exact hs.closeMqtt (hs.life.fails hf)

theorem clientClosed (ht : s.clientClosed = some t) : MqttSound t ∧ t.listener = none ∧
    t.opening = .idle := by
  unfold MqttState.clientClosed at ht
  split at ht <;> rename_i hl
  · cases ht
  · cases ht
    obtain ⟨hidle, hh⟩ := not_or.mp hl
    have hu := hs.unheard hh
    exact ⟨hs.unserved hs.life hu (fun h => absurd h hidle) rfl rfl rfl, hu, not_not.mp hidle⟩

theorem lifeUnderLock {life : AdapterState} (hh : s.life.holder ≠ none)
    (hidle : ¬ s.opening ≠ .idle) (hlife : AdapterSound life) :
    MqttSound { s with life := life } ∧ s.listener = none :=
  ⟨hs.unserved hlife (hs.unheard hh) (fun h => absurd h hidle) rfl rfl rfl, hs.unheard hh⟩

theorem released (ht : s.released = some t) :
    MqttSound t ∧ t.listener = none ∧ t.opening = .idle := by
  unfold MqttState.released at ht
  split at ht <;> rename_i hidle
  · cases ht
  · cases hr : s.life.released with
    | none =>
      simp only [hr] at ht
      cases ht
    | some life =>
      simp only [hr] at ht
      cases ht
      obtain ⟨hn, hu⟩ := hs.lifeUnderLock (holder_of_underLock hr) hidle (hs.life.released hr)
      exact ⟨hn, hu, not_not.mp hidle⟩

theorem closeEnds (ht : s.closeEnds = some t) :
    MqttSound t ∧ t.listener = none ∧ t.opening = .idle := by
  unfold MqttState.closeEnds at ht
  split at ht <;> rename_i hidle
  · cases ht
  · cases hd : s.life.drop .body with
    | none =>
      simp only [hd, bind_none] at ht
      cases ht
    | some dropped =>
      cases hends : dropped.ends with
      | none =>
        simp only [hd, bind_some, hends] at ht
        cases ht
      | some life =>
        simp only [hd, bind_some, hends] at ht
        cases ht
        obtain ⟨hn, hu⟩ := hs.lifeUnderLock (holder_of_underLock hd) hidle
          ((hs.life.drop hd).ends hends)
        exact ⟨hn, hu, not_not.mp hidle⟩

theorem closeFails (ht : s.closeFails = some t) :
    MqttSound t ∧ t.listener = none ∧ t.opening = .idle := by
  unfold MqttState.closeFails at ht
  split at ht <;> rename_i hidle
  · cases ht
  · cases hf : s.life.fails with
    | none =>
      simp only [hf] at ht
      cases ht
    | some life =>
      simp only [hf] at ht
      cases ht
      obtain ⟨hn, hu⟩ := hs.lifeUnderLock (holder_of_underLock hf) hidle (hs.life.fails hf)
      exact ⟨hn, hu, not_not.mp hidle⟩

/-! ### The listener -/

theorem handles {m : HandledMessage V} (hlife : t.life = s.life) (ho : t.opening = s.opening)
    (hl : t.listener = s.listener) (hlink : t.linkUp = s.linkUp)
    (hh : t.handled = s.handled ++ [m])
    (hc : ∀ topic, topic ≠ m.topic → t.cache.get? topic = s.cache.get? topic)
    (hr : ∀ topic, topic ≠ m.topic → t.arrivedAt.get? topic = s.arrivedAt.get? topic)
    (hn : ∀ v wall raw, t.cache.get? m.topic = some (v, wall, raw) →
      m.accepted = some v ∧ t.arrivedAt.get? m.topic = some m.time) : MqttSound t where
  life := hlife ▸ hs.life
  listening h := by
    rw [hl] at h
    rw [hlife]
    exact hs.listening h
  opening h := by
    rw [ho] at h
    rw [hlife]
    exact hs.opening h
  up h := by
    rw [hl] at h
    rw [hlink]
    exact hs.up h
  down p h := by
    rw [hl] at h
    rw [hlink]
    exact hs.down p h
  answered topic v wall raw h := by
    unfold MqttState.lastHandled
    rw [hh]
    by_cases hm : topic = m.topic
    · subst hm
      obtain ⟨ha, ht⟩ := hn v wall raw h
      exact ⟨m, MqttState.lastHandled_of_topic, ha, ht⟩
    · rw [hc topic hm] at h
      obtain ⟨n, hls, ha, ht⟩ := hs.answered topic v wall raw h
      refine ⟨n, ?_, ha, by rw [hr topic hm]; exact ht⟩
      rw [MqttState.lastHandled_of_ne (Ne.symm hm)]
      exact hls

end MqttSound

theorem handle_cases {m : MqttMessage P} {wall : ℤ} (ht : s.handle sub m wall = some t) :
    ∃ connection config, s.listener = some .listening ∧ s.client = some connection ∧
      s.config = some config ∧
      ((m.retain = true ∧ t = s) ∨ (∃ reason, t = (s.refuseTopic m.topic reason).noteHandled
          ⟨connection, m.topic, s.clock, none⟩) ∨
        (∃ v raw, t = (s.cacheValue m.topic v wall raw).noteHandled
          ⟨connection, m.topic, s.clock, some v⟩)) := by
  unfold MqttState.handle at ht
  split at ht
  · rename_i connection config hl hcl hc
    refine ⟨connection, config, hl, hcl, hc, ?_⟩
    split_ifs at ht with hr
    · exact .inl ⟨hr, (some.inj ht).symm⟩
    cases hh : sub.handle config.paths m.payload with
    | error reason =>
      simp only [hh] at ht
      exact .inr (.inl ⟨reason, (some.inj ht).symm⟩)
    | ok parsed =>
      simp only [hh] at ht
      exact .inr (.inr ⟨parsed.1, parsed.2, (some.inj ht).symm⟩)
  · cases ht

namespace MqttSound

variable (hs : MqttSound s)

include hs

theorem handle {m : MqttMessage P} {wall : ℤ} (ht : s.handle sub m wall = some t) :
    MqttSound t := by
  obtain ⟨connection, config, -, -, -, hc⟩ := handle_cases ht
  rcases hc with ⟨-, rfl⟩ | ⟨reason, rfl⟩ | ⟨v, raw, rfl⟩
  · exact hs
  · refine hs.handles rfl rfl rfl rfl rfl (fun topic h => Dict.get?_pop_of_ne _ h)
      (fun topic h => Dict.get?_pop_of_ne _ h) fun v wall raw h => ?_
    change (s.cache.pop m.topic).get? m.topic = _ at h
    rw [Dict.get?_pop_self] at h
    cases h
  · refine hs.handles rfl rfl rfl rfl rfl (fun topic h => Dict.get?_set_of_ne _ _ h)
      (fun topic h => Dict.get?_set_of_ne _ _ h) fun v' wall' raw' h => ?_
    change (s.cache.set m.topic (v, wall, raw)).get? m.topic = _ at h
    rw [Dict.get?_set_self] at h
    cases h
    exact ⟨rfl, Dict.get?_set_self _ _ _⟩

theorem listens {p : ListenerPhase} (hl : s.listener ≠ none) {linkUp : Bool}
    {client : Option ℕ} {connections : ℕ} (hu : p = .listening → linkUp = true)
    (hdown : p ≠ .listening → p ≠ .done → linkUp = false) :
    MqttSound
      { s with
        listener := some p, linkUp := linkUp, client := client, connections := connections } where
  life := hs.life
  listening _ := hs.listening hl
  opening := hs.opening
  up h := hu (some.inj h)
  down q h := by
    cases h
    exact hdown
  answered := hs.answered

theorem drop (ht : s.drop = some t) : MqttSound t := by
  unfold MqttState.drop at ht
  split at ht <;> rename_i hl
  · cases ht
    exact
      { life := hs.life
        listening := fun _ => hs.listening (by rw [hl]; exact nofun)
        opening := hs.opening
        up := fun h => by cases h
        down := fun _ _ _ _ => rfl
        answered := fun topic v wall raw h => by cases h }
  · cases ht

end MqttSound

theorem supervise_cases {ok : Bool} (ht : s.supervise ok = some t) : ∃ p,
    s.listener = some p ∧ p ≠ .listening ∧ p ≠ .done ∧ ∃ q linkUp client connections,
      t = { s with
        listener := some q, linkUp := linkUp, client := client, connections := connections } ∧
      ((q = .listening ∧ linkUp = true) ∨ (q ≠ .listening ∧ q ≠ .done ∧ linkUp = s.linkUp)) := by
  unfold MqttState.supervise at ht
  cases hl : s.listener with
  | none =>
    simp only [hl] at ht
    cases ht
  | some p =>
    refine ⟨p, rfl, ?_⟩
    cases p with
    | listening | done =>
      simp only [hl] at ht
      cases ht
    | dropped =>
      simp only [hl] at ht
      cases ht
      exact ⟨nofun, nofun, .backoff, s.linkUp, none, s.connections, rfl, .inr ⟨nofun, nofun, rfl⟩⟩
    | backoff =>
      simp only [hl] at ht
      cases ht
      exact ⟨nofun, nofun, .connecting, s.linkUp, s.client,
        s.connections, rfl, .inr ⟨nofun, nofun, rfl⟩⟩
    | connecting =>
      simp only [hl] at ht
      refine ⟨nofun, nofun, ?_⟩
      split_ifs at ht with ho
      · cases ht
        exact ⟨.subscribing, s.linkUp, some s.connections, s.connections + 1, rfl,
          .inr ⟨nofun, nofun, rfl⟩⟩
      · cases ht
        exact ⟨.backoff, s.linkUp, s.client, s.connections, rfl, .inr ⟨nofun, nofun, rfl⟩⟩
    | subscribing =>
      simp only [hl] at ht
      refine ⟨nofun, nofun, ?_⟩
      split_ifs at ht with ho
      · cases ht
        exact ⟨.listening, true, s.client, s.connections, rfl, .inl ⟨rfl, rfl⟩⟩
      · cases ht
        exact ⟨.backoff, s.linkUp, none, s.connections, rfl, .inr ⟨nofun, nofun, rfl⟩⟩

namespace MqttSound

variable (hs : MqttSound s)

include hs

theorem supervise {ok : Bool} (ht : s.supervise ok = some t) : MqttSound t := by
  obtain ⟨p, hp, hi, hd, q, linkUp, client, connections, rfl, hq⟩ := supervise_cases ht
  have hl : s.listener ≠ none := by
    rw [hp]
    exact nofun
  have hdown := hs.down p hp hi hd
  rcases hq with ⟨rfl, rfl⟩ | ⟨hq, -, rfl⟩
  · exact hs.listens hl (fun _ => rfl) fun h => absurd rfl h
  · exact hs.listens hl (fun h => absurd h hq) fun _ _ => hdown

theorem listenerDies (ht : s.listenerDies = some t) : MqttSound t := by
  unfold MqttState.listenerDies at ht
  split at ht
  · cases ht
  rename_i p hl
  cases ht
  exact hs.listens (by rw [hl]; exact nofun) nofun (fun _ h => absurd rfl h)

theorem passes (breaker : Option HardwareCircuitBreaker) (clock : ℚ) :
    MqttSound { s with breaker := breaker, clock := clock } where
  life := hs.life
  listening := hs.listening
  opening := hs.opening
  up := hs.up
  down := hs.down
  answered := hs.answered

end MqttSound

end OriRuntime
