import OriRuntime.MqttServes

/-!
# Reads of a live value

A read that returns gives what the last message handled on its topic was accepted for, within the
silence bound. The connection is the one that is up in every run whose connects begin on topics
without a cached value; a close leaves the cache as it is.
-/

namespace OriRuntime

open Option

open Execution

variable {V R P Q : Type} {sub : MqttSubclass V R P Q} {s t : MqttState V R Q} {i : ℕ}

/-! ### What is cached was delivered on the connection that is up -/

namespace MqttCurrent

variable (hc : MqttCurrent s)

include hc

theorem acquire {config : MqttConfig Q} (ht : s.acquire i config = some t) (hs' : MqttSound t)
    (he : ∀ c, s.life.calls[i]? = some c → c.kind = .connect → s.life.connected = false →
      s.cache.get? config.topic = none) : MqttCurrent t := by
  obtain ⟨life, c, ha, hi, hca⟩ := MqttState.acquire_cases ht
  rcases hca with ⟨-, rfl⟩ | ⟨-, -, rfl⟩ | ⟨hh, hk, rfl⟩
  · exact ⟨hc.fresh, hc.current⟩
  · exact .unserved rfl fun h => absurd rfl h
  · refine .unserved (hs'.unheard hh) fun _ => he c hi hk ?_
    obtain ⟨d, hf, hi', -, hlk⟩ := AdapterState.acquire_cases ha
    rcases hlk with ⟨-, -, rfl⟩ | ⟨-, hdown, -⟩ | ⟨hl, -⟩
    · exact absurd hf hh
    · exact hdown
    · obtain rfl := mem_unique hi hi'
      rw [hk] at hl
      cases hl

theorem enter (ht : s.enter = some t) (hs' : MqttSound t) : MqttCurrent t := by
  unfold MqttState.enter at ht
  split at ht <;> rename_i ho
  · cases ht
    exact .unserved (hs'.unheard (hs'.opening nofun)) fun _ => hc.fresh (by rw [ho]; exact nofun)
  · cases ht

theorem openFails (ht : s.openFails = some t) (hs' : MqttSound t) : MqttCurrent t := by
  unfold MqttState.openFails at ht
  cases ho : s.opening with
  | idle | unreached =>
    simp only [ho] at ht
    cases ht
  | connecting | subscribing =>
    simp only [ho] at ht
    cases ht
    exact .unserved (hs'.unheard (hs'.opening nofun)) fun _ => hc.fresh (by rw [ho]; exact nofun)

theorem opened (ht : s.opened = some t) : MqttCurrent t := by
  obtain ⟨taken, life, -, -, ho, ha⟩ := MqttState.opened_cases ht
  rcases ha with ⟨-, reached, p, -, -, rfl⟩ | rfl
  · exact ⟨fun h => absurd rfl h, fun _ h => absurd (hc.fresh ho) h⟩
  · exact .unserved rfl fun h => absurd rfl h

theorem handle (hs : MqttSound s) {m : MqttMessage P} {wall : ℤ}
    (ht : s.handle sub m wall = some t) : MqttCurrent t := by
  obtain ⟨connection, config, hl, hcl, -, hcs⟩ := handle_cases ht
  have hh : s.listener ≠ none := by
    rw [hl]
    exact nofun
  have hidle := hs.idle_of_listener hh
  have hot : ∀ {u : MqttState V R Q} {n : HandledMessage V}, u.handled = s.handled ++ [n] →
      n.topic ≠ s.topic → ∀ {o}, s.lastHandled s.topic = some o → u.lastHandled s.topic = some o :=
    fun hu hn _ ho => by
      unfold MqttState.lastHandled
      rw [hu, MqttState.lastHandled_of_ne hn]
      exact ho
  rcases hcs with ⟨-, rfl⟩ | ⟨reason, rfl⟩ | ⟨v, raw, rfl⟩
  · exact hc
  · refine ⟨fun h => absurd hidle h, fun _ ha => ?_⟩
    change (s.cache.pop m.topic).get? s.topic ≠ none at ha
    by_cases hm : m.topic = s.topic
    · rw [hm, Dict.get?_pop_self] at ha
      exact absurd rfl ha
    · rw [Dict.get?_pop_of_ne _ (Ne.symm hm)] at ha
      obtain ⟨hlink, o, hls, hp⟩ := hc.current hh ha
      exact ⟨hlink, o, hot rfl hm hls, hp⟩
  · refine ⟨fun h => absurd hidle h, fun _ ha => ?_⟩
    change (s.cache.set m.topic (v, wall, raw)).get? s.topic ≠ none at ha
    by_cases hm : m.topic = s.topic
    · have hls : MqttState.lastHandled
          ((s.cacheValue m.topic v wall raw).noteHandled ⟨connection, m.topic, s.clock, some v⟩)
          m.topic = some ⟨connection, m.topic, s.clock, some v⟩ :=
        MqttState.lastHandled_of_topic (m := ⟨connection, m.topic, s.clock, some v⟩)
      refine ⟨hs.up hl, ⟨connection, m.topic, s.clock, some v⟩, ?_, hcl⟩
      change MqttState.lastHandled _ s.topic = _
      rw [← hm]
      exact hls
    · rw [Dict.get?_set_of_ne _ _ (Ne.symm hm)] at ha
      obtain ⟨hlink, o, hls, hp⟩ := hc.current hh ha
      exact ⟨hlink, o, hot rfl hm hls, hp⟩

omit hc in
theorem drop (hs : MqttSound s) (ht : s.drop = some t) : MqttCurrent t := by
  unfold MqttState.drop at ht
  split at ht <;> rename_i hl
  · cases ht
    have hidle := hs.idle_of_listener (by rw [hl]; exact nofun)
    exact ⟨fun h => absurd hidle h, fun _ h => absurd rfl h⟩
  · cases ht

theorem supervise (hs : MqttSound s) {ok : Bool} (ht : s.supervise ok = some t) :
    MqttCurrent t := by
  obtain ⟨p, hp, hl, hd, q, linkUp, client, connections, rfl, -⟩ := supervise_cases ht
  have hh : s.listener ≠ none := by
    rw [hp]
    exact nofun
  refine ⟨fun h => absurd (hs.idle_of_listener hh) h, fun _ ha => ?_⟩
  obtain ⟨hlink, -⟩ := hc.current hh ha
  rw [hs.down p hp hl hd] at hlink
  cases hlink

theorem listenerDies (ht : s.listenerDies = some t) : MqttCurrent t := by
  unfold MqttState.listenerDies at ht
  split at ht
  · cases ht
  rename_i p hl
  cases ht
  exact ⟨hc.fresh, fun _ => hc.current (by rw [hl]; exact nofun)⟩

end MqttCurrent

/-! ### Reads -/

theorem read_state (silenceBounded : Bool) :
    ∃ breaker, (s.read silenceBounded).2 = { s with breaker := breaker } := by
  unfold MqttState.read
  split_ifs with ho
  · exact ⟨s.breaker, rfl⟩
  cases hb : s.breaker with
  | none => exact ⟨s.breaker, rfl⟩
  | some b =>
    simp only
    split_ifs with ha
    · exact ⟨_, rfl⟩
    · cases s.requireListener with
      | error e | ok _ => exact ⟨_, rfl⟩

variable {u : Unit} {cached : V × ℤ × R} {topic : String} {a : MqttStep P Q}

theorem requireListener_ok (h : s.requireListener = .ok u) :
    s.listener ≠ none ∧ s.listener ≠ some .done ∧ s.linkUp = true := by
  unfold MqttState.requireListener at h
  split at h <;> rename_i hs
  · cases h
  · obtain ⟨hn, hd⟩ := not_or.mp hs
    by_cases hdown : s.linkUp = false
    · rw [if_pos hdown] at h
      cases h
    · exact ⟨hn, hd, Bool.not_eq_false _ ▸ hdown⟩

theorem cachedValue_ok (h : s.cachedValue topic = .ok cached) :
    s.cache.get? topic = some cached := by
  unfold MqttState.cachedValue at h
  cases ha : s.cache.get? topic with
  | some found =>
    rw [ha] at h
    exact congrArg some (Except.ok.inj h)
  | none =>
    simp only [ha] at h
    cases hr : s.refused.get? topic with
    | none | some reason =>
      rw [hr] at h
      cases h

theorem requireFresh_ok (h : s.requireFresh true topic = .ok u) :
    ∃ arrivedAt, s.arrivedAt.get? topic = some arrivedAt ∧
      (s.clock - arrivedAt) * 1000 ≤ (silenceBoundMs s.pollIntervalMs : ℚ) := by
  unfold MqttState.requireFresh at h
  rw [if_neg nofun] at h
  cases hr : s.arrivedAt.get? topic with
  | none =>
    rw [hr] at h
    cases h
  | some arrivedAt =>
    simp only [hr] at h
    by_cases ha : 0 ≤ (s.clock - arrivedAt) * 1000 ∧
        (s.clock - arrivedAt) * 1000 ≤ (silenceBoundMs s.pollIntervalMs : ℚ)
    · exact ⟨arrivedAt, rfl, ha.2⟩
    · rw [if_neg ha] at h
      cases h

theorem read_ok {silenceBounded : Bool} (h : (s.read silenceBounded).1 = .ok cached) :
    s.listener ≠ none ∧ s.listener ≠ some .done ∧ s.linkUp = true ∧
      s.cache.get? s.topic = some cached ∧
      (silenceBounded = true → ∃ arrivedAt, s.arrivedAt.get? s.topic = some arrivedAt ∧
        (s.clock - arrivedAt) * 1000 ≤ (silenceBoundMs s.pollIntervalMs : ℚ)) := by
  unfold MqttState.read at h
  split at h <;> rename_i ho
  · cases h
  · split at h
    · cases h
    rename_i b hb
    split at h <;> rename_i ha
    · cases h
    · cases hl : s.requireListener with
      | error e =>
        simp only [hl] at h
        cases h
      | ok u =>
        simp only [hl] at h
        obtain ⟨hn, hd, hu⟩ := requireListener_ok hl
        unfold MqttState.serve at h
        cases hca : s.cachedValue s.topic with
        | error e =>
          rw [hca] at h
          cases h
        | ok found =>
          simp only [hca] at h
          cases hf : s.requireFresh silenceBounded s.topic with
          | error e =>
            rw [hf] at h
            cases h
          | ok u' =>
            rw [hf] at h
            cases h
            refine ⟨hn, hd, hu, cachedValue_ok hca, ?_⟩
            rintro rfl
            exact requireFresh_ok hf

/-! ### Every run -/

theorem MqttSound.step (hs : MqttSound s) (ht : mqttStep sub s a = some t) : MqttSound t := by
  cases a with
  | connect => exact some.inj ht ▸ hs.moveLife hs.life.connect rfl hs.opening
  | close => exact some.inj ht ▸ hs.moveLife hs.life.close rfl hs.opening
  | abandon i =>
    obtain ⟨life, ha, rfl⟩ := map_eq_some_iff.mp ht
    have hlife := hs.life.abandon ha
    obtain ⟨c, -, -, rfl⟩ := AdapterState.abandon_cases ha
    exact hs.moveLife hlife rfl hs.opening
  | acquire i config => exact hs.acquire ht
  | enter => exact hs.enter ht
  | openFails => exact hs.openFails ht
  | opened => exact hs.opened ht
  | connectFails => exact hs.connectFails ht
  | clientClosed => exact (hs.clientClosed ht).1
  | released => exact (hs.released ht).1
  | closeEnds => exact (hs.closeEnds ht).1
  | closeFails => exact (hs.closeFails ht).1
  | handle m wall => exact hs.handle ht
  | drop => exact hs.drop ht
  | supervise ok => exact hs.supervise ht
  | listenerDies => exact hs.listenerDies ht
  | read =>
    obtain ⟨breaker, hr⟩ := read_state (s := s) sub.silenceBounded
    obtain rfl := (some.inj ht).symm.trans hr
    exact hs.passes breaker s.clock
  | tick seconds =>
    by_cases hp : 0 ≤ seconds
    · change (if 0 ≤ seconds then _ else none) = some t at ht
      rw [if_pos hp] at ht
      cases ht
      exact hs.passes s.breaker _
    · change (if 0 ≤ seconds then _ else none) = some t at ht
      rw [if_neg hp] at ht
      cases ht

theorem MqttCurrent.step (hs : MqttSound s) (hc : MqttCurrent s) (he : ConnectsEmpty s a)
    (ht : mqttStep sub s a = some t) : MqttCurrent t := by
  have hs' := hs.step ht
  cases a with
  | connect | close => exact some.inj ht ▸ ⟨hc.fresh, hc.current⟩
  | abandon i =>
    obtain ⟨life, -, rfl⟩ := map_eq_some_iff.mp ht
    exact ⟨hc.fresh, hc.current⟩
  | acquire i config => exact hc.acquire ht hs' fun c => he i config c rfl
  | enter => exact hc.enter ht hs'
  | openFails => exact hc.openFails ht hs'
  | opened => exact hc.opened ht
  | connectFails =>
    have hidle : t.opening = .idle ∧ t.listener = none := by
      change s.connectFails = some t at ht
      unfold MqttState.connectFails at ht
      split at ht <;> rename_i hidle
      · cases ht
      · cases hf : s.life.fails with
        | none =>
          simp only [hf] at ht
          cases ht
        | some life =>
          simp only [hf] at ht
          cases ht
          exact ⟨rfl, rfl⟩
    exact .unserved hidle.2 fun h => absurd hidle.1 h
  | clientClosed =>
    obtain ⟨-, hu, hidle⟩ := hs.clientClosed ht
    exact .unserved hu fun h => absurd hidle h
  | released =>
    obtain ⟨-, hu, hidle⟩ := hs.released ht
    exact .unserved hu fun h => absurd hidle h
  | closeEnds =>
    obtain ⟨-, hu, hidle⟩ := hs.closeEnds ht
    exact .unserved hu fun h => absurd hidle h
  | closeFails =>
    obtain ⟨-, hu, hidle⟩ := hs.closeFails ht
    exact .unserved hu fun h => absurd hidle h
  | handle m wall => exact hc.handle hs ht
  | drop => exact MqttCurrent.drop hs ht
  | supervise ok => exact hc.supervise hs ht
  | listenerDies => exact hc.listenerDies ht
  | read =>
    obtain ⟨breaker, hr⟩ := read_state (s := s) sub.silenceBounded
    obtain rfl := (some.inj ht).symm.trans hr
    exact ⟨hc.fresh, hc.current⟩
  | tick seconds =>
    by_cases hp : 0 ≤ seconds
    · change (if 0 ≤ seconds then _ else none) = some t at ht
      rw [if_pos hp] at ht
      cases ht
      exact ⟨hc.fresh, hc.current⟩
    · change (if 0 ≤ seconds then _ else none) = some t at ht
      rw [if_neg hp] at ht
      cases ht

theorem mqtt_read_live {as : List (MqttStep P Q)} (h : run (mqttStep sub) {} as = some s) {v : V}
    {wall : ℤ} {raw : R} (hread : (s.read sub.silenceBounded).1 = .ok (v, wall, raw)) :
    ∃ m, s.lastHandled s.topic = some m ∧ m.accepted = some v ∧ s.linkUp = true ∧
      s.listener ≠ none ∧ s.listener ≠ some .done ∧
      (sub.silenceBounded = true →
        (s.clock - m.time) * 1000 ≤ (silenceBoundMs s.pollIntervalMs : ℚ)) ∧
      (Meets (mqttStep sub) ConnectsEmpty {} as → s.client = some m.connection) := by
  have hstep : ∀ u a w, MqttSound u → mqttStep sub u a = some w → MqttSound w :=
    fun u a w hu hw => hu.step hw
  have hs : MqttSound s := run_invariant hstep .start h
  obtain ⟨hnone, hdone, hup, hcached, hfresh⟩ := read_ok hread
  obtain ⟨m, hlast, haccepted, htime⟩ := hs.answered _ _ _ _ hcached
  refine ⟨m, hlast, haccepted, hup, hnone, hdone, fun hbounded => ?_, fun hmeets => ?_⟩
  · obtain ⟨arrivedAt, harrived, hage⟩ := hfresh hbounded
    obtain rfl := mem_unique htime harrived
    exact hage
  · have hstep : ∀ u a w, MqttSound u ∧ MqttCurrent u → ConnectsEmpty u a →
        mqttStep sub u a = some w → MqttSound w ∧ MqttCurrent w :=
      fun u a w hu hempty hw => ⟨hu.1.step hw, hu.2.step hu.1 hempty hw⟩
    obtain ⟨-, hc⟩ := run_invariant_of_meets hstep ⟨.start, .start⟩ hmeets h
    obtain ⟨-, n, hlast', hclient⟩ := hc.current hnone (by rw [hcached]; exact nofun)
    obtain rfl := mem_unique hlast hlast'
    exact hclient

/-- A door contact that reports on change; its payloads are their values. -/
def doorContact : MqttSubclass ℕ Unit ℕ Unit where
  silenceBounded := false
  handle _ payload := .ok (payload, ())

def doorConfig : MqttConfig Unit where
  topic := "zigbee2mqtt/door"
  pollIntervalMs := 1000
  paths := ()

/-- A contact reported on the first connection, and nothing yet on the second. -/
def closedAndReconnected : List (MqttStep ℕ Unit) :=
  [.connect, .acquire 0 doorConfig, .enter, .opened, .handle ⟨"zigbee2mqtt/door", false, 1⟩ 0,
    .close, .acquire 1 doorConfig, .clientClosed, .closeEnds,
    .connect, .acquire 2 doorConfig, .enter, .opened]

theorem reconnected_serves_old :
    ∃ s v wall raw, run (mqttStep doorContact) {} closedAndReconnected = some s ∧
      (s.read doorContact.silenceBounded).1 = .ok (v, wall, raw) ∧
      ¬ ∃ m, s.lastHandled s.topic = some m ∧ s.client = some m.connection := by
  refine ⟨_, 1, 0, (), rfl, by decide +kernel, ?_⟩
  rintro ⟨m, hlast, hclient⟩
  cases hlast
  cases hclient

def connectedAndReported : List (MqttStep ℕ Unit) := closedAndReconnected.take 5

theorem mqtt_read_live_of_reported :
    ∃ s m, run (mqttStep doorContact) {} connectedAndReported = some s ∧
      s.lastHandled s.topic = some m ∧ m.accepted = some 1 ∧ s.client = some m.connection := by
  obtain ⟨s, hrun⟩ : ∃ s, run (mqttStep doorContact) {} connectedAndReported = some s := ⟨_, rfl⟩
  have hread : (s.read doorContact.silenceBounded).1 = .ok (1, 0, ()) := by
    cases hrun
    decide +kernel
  obtain ⟨m, hlast, haccepted, -, -, -, -, hclient⟩ := mqtt_read_live hrun hread
  refine ⟨s, m, hrun, hlast, haccepted, hclient ?_⟩
  refine meets_of_check (c := fun u a => match a with
    | .acquire _ config => (u.cache.get? config.topic).isNone
    | _ => true) ?_ (by decide +kernel)
  rintro u a hcheck i config c rfl - - -
  exact isNone_iff_eq_none.mp hcheck

end OriRuntime
