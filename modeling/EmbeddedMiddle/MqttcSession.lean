import EmbeddedMiddle.CommonDefs
import EmbeddedMiddle.Foundation.Transition
import Mathlib.Data.Set.Insert

/-!
# The MQTT client's subscriptions

`em_mqttc_t` has room for one topic and one callback; the session with the
broker has a subscription for every topic.  libmosquitto and the broker are
given from outside, with what they promise a client with clean sessions.
-/

namespace EmbeddedMiddle

open Foundation

/-! ## The client -/

structure EmMqttc (Callback : Type) where
  topicSubscribe : Option (List UInt8)
  isConnected : Bool
  subCallback : Option Callback
  deriving DecidableEq

/-- `&mid_tmp` is used when the block of `mid_tmp` has ended. -/
inductive MidPointer where
  | null
  | ended
  deriving DecidableEq

structure EmMqbuf where
  mid : MidPointer
  topic : List UInt8
  payload : List UInt8
  payloadLength : ℤ
  deriving DecidableEq

structure MosquittoMessage where
  mid : ℤ
  topic : List UInt8
  payload : List UInt8
  deriving DecidableEq

def MosquittoMessage.mqbuf (message : MosquittoMessage) : EmMqbuf where
  mid := if 0 < message.mid then .ended else .null
  topic := message.topic
  payload := message.payload
  payloadLength := message.payload.length

section Client

variable {Callback : Type}

def onConnectSync (mc : EmMqttc Callback) : EmMqttc Callback :=
  { mc with isConnected := true }

def onDisconnect (mc : EmMqttc Callback) : EmMqttc Callback :=
  { mc with isConnected := false }

/-- The call that `on_message` makes; without a callback the message is
printed. -/
def onMessage (mc : EmMqttc Callback) (message : MosquittoMessage) :
    Option (Callback × EmMqbuf) :=
  mc.subCallback.map fun callback => (callback, message.mqbuf)

/-- `ret` is what `mosquitto_subscribe` returns; both fields are written before
it is called. -/
def emMqttcSubscribe (mc : EmMqttc Callback) (topic : Option (List UInt8))
    (callback : Option Callback) (ret : ℤ) : ℤ × EmMqttc Callback :=
  match topic with
  | none => (-1, mc)
  | some topic =>
      (ret, { mc with topicSubscribe := topic, subCallback := callback })

def emMqttcUnsubscribe (mc : EmMqttc Callback) (topic : Option (List UInt8))
    (ret : ℤ) : ℤ × EmMqttc Callback :=
  match topic with
  | none => (-1, mc)
  | some _ => (ret, { mc with topicSubscribe := none, subCallback := none })

/-- The result, and the topic and payload that the library gets. -/
def emMqttcPublish (mc : EmMqttc Callback)
    (topic payload : Option (List UInt8)) (payloadLength : ℤ) (ret : ℤ) :
    ℤ × Option (List UInt8 × List UInt8) :=
  match topic, payload with
  | some topic, some payload =>
      if mc.isConnected = false then (-1, none)
      else (ret, some (topic, payload.take payloadLength.toNat))
  | _, _ => (-1, none)

end Client

/-! ## The library and the broker -/

/-- What passes between the client and the library.  A message comes for the
subscription to `topic`. -/
inductive MosquittoEvent where
  | connected
  | disconnected
  | disconnect (ret : ℤ)
  | subscribe (topic : List UInt8) (ret : ℤ)
  | unsubscribe (topic : List UInt8) (ret : ℤ)
  | publish (topic payload : List UInt8) (ret : ℤ)
  | message (topic : List UInt8) (message : MosquittoMessage)

/-- The library with the broker behind it: what an event may turn them into,
and the topics that the session is subscribed to. -/
structure Mosquitto (World : Type) where
  Turns : World → MosquittoEvent → World → Prop
  subscribed : World → Set (List UInt8)

namespace Mosquitto

variable {World : Type}

/-- What a client with clean sessions is promised: subscriptions end with the
connection, a call takes effect if and only if it returns 0, and messages come
for subscriptions; for those of quality 0 `mid` is 0. -/
structure CleanSession (mosquitto : Mosquitto World) : Prop where
  connected : ∀ {before after}, mosquitto.Turns before .connected after →
    mosquitto.subscribed after = ∅
  disconnected : ∀ {before after},
    mosquitto.Turns before .disconnected after →
      mosquitto.subscribed after = ∅
  disconnect : ∀ {before after ret},
    mosquitto.Turns before (.disconnect ret) after →
      mosquitto.subscribed after =
        if ret = 0 then ∅ else mosquitto.subscribed before
  subscribe : ∀ {before after topic ret},
    mosquitto.Turns before (.subscribe topic ret) after →
      mosquitto.subscribed after =
        if ret = 0 then insert topic (mosquitto.subscribed before)
        else mosquitto.subscribed before
  unsubscribe : ∀ {before after topic ret},
    mosquitto.Turns before (.unsubscribe topic ret) after →
      mosquitto.subscribed after =
        if ret = 0 then mosquitto.subscribed before \ {topic}
        else mosquitto.subscribed before
  publish : ∀ {before after topic payload ret},
    mosquitto.Turns before (.publish topic payload ret) after →
      mosquitto.subscribed after = mosquitto.subscribed before
  message : ∀ {before after topic message},
    mosquitto.Turns before (.message topic message) after →
      topic ∈ mosquitto.subscribed before ∧ message.mid = 0 ∧
        mosquitto.subscribed after = mosquitto.subscribed before

/-- Nothing happens where the library is not called. -/
def Answers (mosquitto : Mosquitto World) (before : World) :
    Option MosquittoEvent → World → Prop
  | none, after => after = before
  | some event, after => mosquitto.Turns before event after

/-- A library and a broker that keep these promises to the letter. -/
def prompt : Mosquitto (Set (List UInt8)) where
  subscribed topics := topics
  Turns before event after :=
    match event with
    | .connected => after = ∅
    | .disconnected => after = ∅
    | .disconnect ret => after = if ret = 0 then ∅ else before
    | .subscribe topic ret =>
        after = if ret = 0 then insert topic before else before
    | .unsubscribe topic ret =>
        after = if ret = 0 then before \ {topic} else before
    | .publish _ _ _ => after = before
    | .message topic message =>
        topic ∈ before ∧ message.mid = 0 ∧ after = before

theorem prompt_cleanSession : prompt.CleanSession :=
  ⟨id, id, id, id, id, id, id⟩

end Mosquitto

/-! ## Sessions -/

/-- A message that came for a subscription: the callback that the subscribing
call named, and the call that was made. -/
structure Arrival (Callback : Type) where
  wanted : Option Callback
  message : MosquittoMessage
  called : Option (Callback × EmMqbuf)

/-- `listening` is whether `mosquitto_message_callback_set` has been called;
`wanted` is the callback that the last call that subscribed to a topic
named. -/
structure MqttcSession (Callback World : Type) where
  mc : EmMqttc Callback
  listening : Bool
  world : World
  wanted : List UInt8 → Option Callback
  arrivals : List (Arrival Callback)

inductive SessionEvent (Callback : Type) where
  | connected
  | disconnected
  | disconnect (ret : ℤ)
  | subscribe (topic : Option (List UInt8)) (callback : Option Callback)
      (ret : ℤ)
  | unsubscribe (topic : Option (List UInt8)) (ret : ℤ)
  | publish (topic payload : Option (List UInt8)) (payloadLength ret : ℤ)
  | message (topic : List UInt8) (message : MosquittoMessage)

namespace MqttcSession

variable {Callback World : Type}

/-- The client after `em_mqttc_create`. -/
def start (mc : EmMqttc Callback) (world : World) :
    MqttcSession Callback World :=
  ⟨mc, false, world, fun _ => none, []⟩

/-- What the library sees of an event. -/
def seen (session : MqttcSession Callback World) :
    SessionEvent Callback → Option MosquittoEvent
  | .connected => some .connected
  | .disconnected => some .disconnected
  | .disconnect ret => some (.disconnect ret)
  | .subscribe topic _ ret => topic.map (.subscribe · ret)
  | .unsubscribe topic ret => topic.map (.unsubscribe · ret)
  | .publish topic payload payloadLength ret =>
      (emMqttcPublish session.mc topic payload payloadLength ret).2.map
        fun (topic, payload) => .publish topic payload ret
  | .message topic message => some (.message topic message)

/-- `world` is what the event turns the library and the broker into. -/
def after (session : MqttcSession Callback World) (world : World) :
    SessionEvent Callback → MqttcSession Callback World
  | .connected => { session with world, mc := onConnectSync session.mc }
  | .disconnected => { session with world, mc := onDisconnect session.mc }
  -- `is_connected` is left to `on_disconnect`.
  | .disconnect _ => { session with world }
  | .subscribe none _ _ => { session with world }
  | .subscribe (some topic) callback ret =>
      { session with
        world
        mc := (emMqttcSubscribe session.mc topic callback ret).2
        listening := true
        wanted :=
          if ret = 0 then Function.update session.wanted topic callback
          else session.wanted }
  | .unsubscribe topic ret =>
      { session with
        world
        mc := (emMqttcUnsubscribe session.mc topic ret).2 }
  | .publish _ _ _ _ => { session with world }
  | .message topic message =>
      { session with
        world
        arrivals := session.arrivals ++ [{
          wanted := session.wanted topic
          message
          called :=
            if session.listening then onMessage session.mc message
            else none }] }

def Step (mosquitto : Mosquitto World)
    (before : MqttcSession Callback World) (event : SessionEvent Callback)
    (next : MqttcSession Callback World) : Prop :=
  ∃ world, mosquitto.Answers before.world (before.seen event) world ∧
    next = before.after world event

/-- Every message was handed as it is to the callback that was named for its
subscription, and the next one will be; a connected client is subscribed to the
topic that it remembers. -/
structure Sound (session : MqttcSession Callback World)
    (mosquitto : Mosquitto World) : Prop where
  arrived : ∀ arrival ∈ session.arrivals,
    arrival.called = arrival.wanted.map fun callback =>
      (callback, ⟨.null, arrival.message.topic, arrival.message.payload,
        arrival.message.payload.length⟩)
  routed : ∀ topic ∈ mosquitto.subscribed session.world,
    session.mc.subCallback = session.wanted topic
  served : session.listening = true → session.mc.isConnected = true →
    ∀ topic, session.mc.topicSubscribe = some topic →
      topic ∈ mosquitto.subscribed session.world

/-- Of these topics the session is only subscribed to some with this
callback. -/
def Only (session : MqttcSession Callback World) (mosquitto : Mosquitto World)
    (topics : List UInt8 → Prop) (callback : Option Callback) : Prop :=
  ∀ topic ∈ mosquitto.subscribed session.world, topics topic →
    callback = session.wanted topic

/-- A client that has subscribed is connected again only without a topic, and
disconnects without one unless it was told that it is not connected.  One
callback serves all topics, and a topic is given up when it is the last one
that has a callback.  Subscribing fails only for a client that is not connected
or has the topic already. -/
def Careful (mosquitto : Mosquitto World)
    (session : MqttcSession Callback World) : SessionEvent Callback → Prop
  | .connected =>
      session.listening = true → session.mc.topicSubscribe = none
  | .disconnect ret =>
      ret = 0 → session.listening = true → session.mc.isConnected = true →
        session.mc.topicSubscribe = none
  | .subscribe (some topic) callback ret =>
      session.Only mosquitto (fun other => ret = 0 → other ≠ topic) callback ∧
        (session.mc.isConnected = true → ret ≠ 0 →
          topic ∈ mosquitto.subscribed session.world)
  | .unsubscribe (some topic) ret =>
      session.Only mosquitto (fun other => ret = 0 → other ≠ topic) none
  | _ => True

/-- Only a client that listens has subscriptions. -/
def Heard (session : MqttcSession Callback World)
    (mosquitto : Mosquitto World) : Prop :=
  ∀ topic ∈ mosquitto.subscribed session.world, session.listening = true

variable {mosquitto : Mosquitto World}
  {session : MqttcSession Callback World} {world : World}

/-- A publish leaves the subscriptions, also one that the library does not
see. -/
theorem publish_same (clean : mosquitto.CleanSession)
    {topic payload : Option (List UInt8)} {payloadLength ret : ℤ}
    (answered : mosquitto.Answers session.world
      (session.seen (.publish topic payload payloadLength ret)) world) :
    mosquitto.subscribed world = mosquitto.subscribed session.world := by
  dsimp only [seen] at answered
  cases given : (emMqttcPublish session.mc topic payload payloadLength ret).2
    with
  | none =>
      rw [given] at answered
      obtain rfl : world = session.world := answered
      rfl
  | some message =>
      rw [given] at answered
      exact clean.publish answered

namespace Sound

/-- Where no subscription changes, only the connection can. -/
theorem unchanged_iff
    (same : mosquitto.subscribed world = mosquitto.subscribed session.world) :
    Sound { session with world } mosquitto ↔ session.Sound mosquitto := by
  constructor
  · intro sound
    refine ⟨sound.arrived, ?_, ?_⟩
    · rw [← same]
      exact sound.routed
    · rw [← same]
      exact sound.served
  · intro sound
    refine ⟨sound.arrived, ?_, ?_⟩
    · dsimp only
      rw [same]
      exact sound.routed
    · dsimp only
      rw [same]
      exact sound.served

theorem message (sound : session.Sound mosquitto) {topic : List UInt8}
    {message : MosquittoMessage} (heard : session.Heard mosquitto)
    (there : topic ∈ mosquitto.subscribed session.world)
    (zero : message.mid = 0)
    (same : mosquitto.subscribed world = mosquitto.subscribed session.world) :
    (session.after world (.message topic message)).Sound mosquitto := by
  have kept := (unchanged_iff same).mpr sound
  refine ⟨?_, kept.routed, kept.served⟩
  intro arrival member
  rcases List.mem_append.mp member with earlier | last
  · exact sound.arrived arrival earlier
  · rw [List.mem_singleton.mp last]
    simp [heard topic there, onMessage, sound.routed topic there,
      MosquittoMessage.mqbuf, zero]

/-- Without subscriptions the client remembers no topic if it says that it is
connected. -/
theorem forgotten_iff (sound : session.Sound mosquitto)
    (mc : EmMqttc Callback) (ended : mosquitto.subscribed world = ∅) :
    Sound { session with mc, world } mosquitto ↔
      (session.listening = true → mc.isConnected = true →
        mc.topicSubscribe = none) := by
  have nowhere (topic : List UInt8) :
      topic ∉ mosquitto.subscribed world := by
    rw [ended]
    exact Set.notMem_empty topic
  constructor
  · intro kept listening connected
    cases remembered : mc.topicSubscribe with
    | none => rfl
    | some topic =>
        exact absurd (kept.served listening connected topic remembered)
          (nowhere topic)
  · intro forgets
    refine ⟨sound.arrived, ?_, ?_⟩
    · intro topic there
      exact absurd there (nowhere topic)
    · intro listening connected topic remembered
      dsimp only at remembered
      rw [forgets listening connected] at remembered
      cases remembered

theorem subscribe_iff (sound : session.Sound mosquitto)
    (clean : mosquitto.CleanSession) {topic : List UInt8}
    {callback : Option Callback} {ret : ℤ}
    (turns : mosquitto.Turns session.world (.subscribe topic ret) world) :
    (session.after world (.subscribe (some topic) callback ret)).Sound
        mosquitto ↔
      session.Careful mosquitto (.subscribe (some topic) callback ret) := by
  have subscribed (other : List UInt8) :
      other ∈ mosquitto.subscribed world ↔
        (ret = 0 ∧ other = topic) ∨
          other ∈ mosquitto.subscribed session.world := by
    rw [clean.subscribe turns]
    by_cases done : ret = 0
    · simp [done]
    · simp [done]
  have wanted (other : List UInt8) :
      (session.after world (.subscribe (some topic) callback ret)).wanted
          other =
        if ret = 0 ∧ other = topic then callback
        else session.wanted other := by
    by_cases done : ret = 0
    · simp [after, done, Function.update_apply]
    · simp [after, done]
  constructor
  · intro kept
    refine ⟨?_, ?_⟩
    · intro other there different
      have routed := kept.routed other ((subscribed other).mpr (.inr there))
      rwa [wanted, if_neg (fun both => different both.1 both.2)] at routed
    · intro connected failed
      have served := kept.served rfl connected topic rfl
      exact ((subscribed topic).mp served).resolve_left
        (fun both => failed both.1)
  · rintro ⟨only, still⟩
    refine ⟨sound.arrived, ?_, ?_⟩
    · intro other there
      rw [wanted]
      by_cases isNew : ret = 0 ∧ other = topic
      · rw [if_pos isNew]
        rfl
      · rw [if_neg isNew]
        exact only other (((subscribed other).mp there).resolve_left isNew)
          (fun done same => isNew ⟨done, same⟩)
    · intro _ connected other remembered
      obtain rfl : topic = other := Option.some.inj remembered
      apply (subscribed topic).mpr
      by_cases done : ret = 0
      · exact .inl ⟨done, rfl⟩
      · exact .inr (still connected done)

theorem unsubscribe_iff (sound : session.Sound mosquitto)
    (clean : mosquitto.CleanSession) {topic : List UInt8} {ret : ℤ}
    (turns : mosquitto.Turns session.world (.unsubscribe topic ret) world) :
    (session.after world (.unsubscribe (some topic) ret)).Sound mosquitto ↔
      session.Careful mosquitto (.unsubscribe (some topic) ret) := by
  have subscribed (other : List UInt8) :
      other ∈ mosquitto.subscribed world ↔
        other ∈ mosquitto.subscribed session.world ∧
          (ret = 0 → other ≠ topic) := by
    rw [clean.unsubscribe turns]
    by_cases done : ret = 0
    · simp [done]
    · simp [done]
  constructor
  · intro kept other there different
    exact kept.routed other ((subscribed other).mpr ⟨there, different⟩)
  · intro only
    refine ⟨sound.arrived, ?_, nofun⟩
    intro other there
    obtain ⟨earlier, different⟩ := (subscribed other).mp there
    exact only other earlier different

end Sound

/-! ## Runs -/

variable {before next : MqttcSession Callback World}
  {event : SessionEvent Callback}

theorem Heard.step (heard : before.Heard mosquitto)
    (clean : mosquitto.CleanSession) (step : Step mosquitto before event next) :
    next.Heard mosquitto := by
  obtain ⟨world, answered, rfl⟩ := step
  -- An event after which there are no other subscriptions than before.
  have fewer (less : mosquitto.subscribed world ⊆
      mosquitto.subscribed before.world) : ∀ topic ∈ mosquitto.subscribed world,
      before.listening = true :=
    fun topic there => heard topic (less there)
  cases event with
  | connected =>
      exact fewer (clean.connected answered ▸ Set.empty_subset _)
  | disconnected =>
      exact fewer (clean.disconnected answered ▸ Set.empty_subset _)
  | disconnect ret =>
      refine fewer ?_
      rw [clean.disconnect answered]
      split_ifs
      · exact Set.empty_subset _
      · exact le_rfl
  | subscribe topic callback ret =>
      cases topic with
      | none =>
          obtain rfl : world = before.world := answered
          exact heard
      | some topic => exact fun _ _ => rfl
  | unsubscribe topic ret =>
      cases topic with
      | none =>
          obtain rfl : world = before.world := answered
          exact heard
      | some topic =>
          refine fewer ?_
          rw [clean.unsubscribe answered]
          split_ifs
          · exact Set.sdiff_subset
          · exact le_rfl
  | publish topic payload payloadLength ret =>
      exact fewer (publish_same clean answered).le
  | message topic message => exact fewer (clean.message answered).2.2.le

theorem Sound.step_iff (sound : before.Sound mosquitto)
    (heard : before.Heard mosquitto) (clean : mosquitto.CleanSession)
    (step : Step mosquitto before event next) :
    next.Sound mosquitto ↔ before.Careful mosquitto event := by
  obtain ⟨world, answered, rfl⟩ := step
  cases event with
  | connected =>
      have forgotten := sound.forgotten_iff (onConnectSync before.mc)
        (clean.connected answered)
      simpa [after, onConnectSync, Careful] using forgotten
  | disconnected =>
      refine iff_of_true ?_ trivial
      exact (sound.forgotten_iff _ (clean.disconnected answered)).mpr nofun
  | disconnect ret =>
      have subscribed := clean.disconnect answered
      by_cases done : ret = 0
      · rw [if_pos done] at subscribed
        have forgotten := sound.forgotten_iff before.mc subscribed
        simpa [after, done, Careful] using forgotten
      · rw [if_neg done] at subscribed
        exact iff_of_true ((unchanged_iff subscribed).mpr sound)
          (fun zero => absurd zero done)
  | subscribe topic callback ret =>
      cases topic with
      | none =>
          obtain rfl : world = before.world := answered
          exact iff_of_true sound trivial
      | some topic => exact sound.subscribe_iff clean answered
  | unsubscribe topic ret =>
      cases topic with
      | none =>
          obtain rfl : world = before.world := answered
          exact iff_of_true sound trivial
      | some topic => exact sound.unsubscribe_iff clean answered
  | publish topic payload payloadLength ret =>
      have same := publish_same clean answered
      exact iff_of_true ((unchanged_iff same).mpr sound) trivial
  | message topic message =>
      obtain ⟨there, zero, same⟩ := clean.message answered
      exact iff_of_true (sound.message heard there zero same) trivial

/-- In a run from `em_mqttc_create`, with any library and broker that keep the
promises of clean sessions, each message is handed to the callback of its
subscription, and a connected client is subscribed to its topic, if and only if
every call was careful. -/
theorem subscriptions_served_iff {mosquitto : Mosquitto World}
    (clean : mosquitto.CleanSession) {mc : EmMqttc Callback} {world : World}
    (fresh : mosquitto.subscribed world = ∅)
    {events : List (SessionEvent Callback)}
    {session : MqttcSession Callback World} :
    Run (Upholding (fun _ _ next => next.Sound mosquitto) (Step mosquitto))
        (start mc world) events session ↔
      Run (Guarded (Careful mosquitto) (Step mosquitto)) (start mc world)
        events session := by
  apply Run.upholding_iff (fun session : MqttcSession Callback World =>
    session.Sound mosquitto ∧ session.Heard mosquitto)
  · have nowhere (topic : List UInt8) :
        topic ∉ mosquitto.subscribed world := by
      rw [fresh]
      exact Set.notMem_empty topic
    exact ⟨⟨nofun, fun topic there => absurd there (nowhere topic), nofun⟩,
      fun topic there => absurd there (nowhere topic)⟩
  · rintro before event next ⟨sound, heard⟩ ⟨careful, step⟩
    exact ⟨(sound.step_iff heard clean step).mpr careful,
      heard.step clean step⟩
  · rintro before event next ⟨sound, heard⟩ step
    exact sound.step_iff heard clean step

/-- A message for a topic of a connected client; the client then gives the
topic up and the session ends. -/
theorem subscriptions_served_one :
    Run (Upholding (fun _ _ next => next.Sound Mosquitto.prompt)
        (Step Mosquitto.prompt))
      (start (⟨none, false, none⟩ : EmMqttc ℕ) ∅)
      [.connected, .subscribe (some [97]) (some 7) 0,
        .message [97] ⟨0, [97], [120]⟩, .unsubscribe (some [97]) 0,
        .disconnect 0]
      ⟨⟨none, true, none⟩, true, ∅,
        Function.update (fun _ => none) [97] (some 7),
        [⟨some 7, ⟨0, [97], [120]⟩, some (7, ⟨.null, [97], [120], 1⟩)⟩]⟩ := by
  apply (subscriptions_served_iff Mosquitto.prompt_cleanSession rfl).mpr
  have onlyTopic : ∀ topic : List UInt8,
      topic ∈ (insert [97] ∅ : Set (List UInt8)) → topic = [97] :=
    fun topic there => there.resolve_right (Set.notMem_empty topic)
  exact .cons ⟨nofun, ∅, rfl, rfl⟩
    (.cons ⟨⟨nofun, fun _ failed => absurd rfl failed⟩, _, rfl, rfl⟩
    (.cons ⟨trivial, _, ⟨Set.mem_insert _ _, rfl, rfl⟩, rfl⟩
    (.cons ⟨fun topic there different =>
        absurd (onlyTopic topic there) (different rfl), _, rfl, rfl⟩
    (.cons ⟨fun _ _ _ => rfl, _, rfl, rfl⟩ .nil))))

end MqttcSession

end EmbeddedMiddle
