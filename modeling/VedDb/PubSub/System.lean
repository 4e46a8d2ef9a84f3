import Mathlib.Logic.Function.Basic
import VedDb.Lib.LittleEndian
import VedDb.Lib.Lookups

/-!
# Publish and subscribe

A channel holds references to its subscribers, the patterns hold the ids of theirs.  A message
goes to the queue of a subscriber once for the channel and once for each pattern it finds.
-/

namespace VedDb

open LittleEndian (Bytes)

abbrev SubscriberId := UInt64

/-- The place of a subscriber in memory, which an `Arc` points to. -/
abbrev SubscriberRef := Nat

structure Message where
  channel : String
  payload : Bytes
  timestamp : UInt64
  id : UInt64
  deriving DecidableEq

/-- `MESSAGE_COUNTER`, with the number of ids the process has taken from it. -/
structure MessageCounter where
  next : UInt64
  taken : Nat
  next_eq : next = UInt64.ofNat (taken + 1)

namespace MessageCounter

def init : MessageCounter := ⟨1, 0, rfl⟩

/-- `fetch_add(1)` leaves this. -/
def advance (counter : MessageCounter) : MessageCounter :=
  ⟨counter.next + 1, counter.taken + 1, by rw [UInt64.ofNat_add, ← counter.next_eq]; rfl⟩

@[simp] theorem advance_taken (counter : MessageCounter) :
    counter.advance.taken = counter.taken + 1 := rfl

end MessageCounter

def Message.new (counter : MessageCounter) (now : UInt64) (channel : String) (payload : Bytes) :
    Message × MessageCounter :=
  (⟨channel, payload, now, counter.next⟩, counter.advance)

/-! ## Subscribers -/

structure Subscriber where
  id : SubscriberId
  queue : List Message
  maxQueueSize : Nat
  messagesReceived : UInt64
  messagesDropped : UInt64

namespace Subscriber

def new (id : SubscriberId) (maxQueueSize : Nat) : Subscriber := ⟨id, [], maxQueueSize, 0, 0⟩

def deliverMessage (subscriber : Subscriber) (message : Message) : Subscriber :=
  let full := subscriber.maxQueueSize ≤ subscriber.queue.length
  { subscriber with
    -- `pop_front` of an empty queue is counted as well.
    queue := (if full then subscriber.queue.tail else subscriber.queue) ++ [message]
    messagesReceived := subscriber.messagesReceived + 1
    messagesDropped :=
      if full then subscriber.messagesDropped + 1 else subscriber.messagesDropped }

def getNextMessage (subscriber : Subscriber) : Option Message × Subscriber :=
  (subscriber.queue.head?, { subscriber with queue := subscriber.queue.tail })

end Subscriber

/-! ## Channels -/

structure Channel where
  name : String
  subscribers : Std.ExtTreeMap SubscriberId SubscriberRef
  messageCount : UInt64
  subscriberCount : UInt64

namespace Channel

def new (name : String) : Channel := ⟨name, ∅, 0, 0⟩

def addSubscriber (channel : Channel) (id : SubscriberId) (subscriber : SubscriberRef) : Channel :=
  { channel with
    subscribers := channel.subscribers.insert id subscriber
    subscriberCount :=
      if channel.subscribers[id]?.isNone then channel.subscriberCount + 1
      else channel.subscriberCount }

def removeSubscriber (channel : Channel) (id : SubscriberId) : Bool × Channel :=
  if channel.subscribers[id]?.isSome then
    (true, { channel with
      subscribers := channel.subscribers.erase id
      subscriberCount := channel.subscriberCount - 1 })
  else (false, channel)

end Channel

/-! ## Patterns -/

inductive PubSubError where
  | channelNotFound
  | subscriberNotFound
  | messageTooLarge
  | invalidPattern
  | queueFull
  | systemError (text : String)
  deriving DecidableEq

/-- A pattern with the matcher `Regex::new` compiled it to. -/
structure PatternSubscription where
  subscriberId : SubscriberId
  pattern : String → Bool
  patternStr : String

namespace PatternSubscription

def replaceChar (c : Char) (replacement text : String) : String :=
  String.ofList (text.toList.flatMap fun d => if d = c then replacement.toList else [d])

def regexPattern (pattern : String) : String :=
  "^" ++ replaceChar '?' "." (replaceChar '*' ".*" pattern) ++ "$"

def new (regexNew : String → Option (String → Bool)) (subscriberId : SubscriberId)
    (pattern : String) : Except PubSubError PatternSubscription :=
  match regexNew (regexPattern pattern) with
  | none => .error .invalidPattern
  | some regex => .ok ⟨subscriberId, regex, pattern⟩

def matchesChannel (sub : PatternSubscription) (channel : String) : Bool := sub.pattern channel

end PatternSubscription

/-! ## The system -/

structure PubSubConfig where
  maxMessageSize : UInt64
  defaultBufferSize : UInt64
  maxChannels : UInt64
  maxSubscribers : UInt64

def PubSubConfig.default : PubSubConfig where
  maxMessageSize := 1024 * 1024
  defaultBufferSize := 1000
  maxChannels := 10000
  maxSubscribers := 100000

structure PubSubStats where
  totalMessagesPublished : UInt64
  totalMessagesDelivered : UInt64

/-- The system, with the memory its subscribers are in and the counter of the process. -/
structure PubSubSystem where
  channels : Std.ExtTreeMap String Channel
  subscribers : Std.ExtTreeMap SubscriberId SubscriberRef
  patternSubscriptions : List PatternSubscription
  config : PubSubConfig
  stats : PubSubStats
  heap : SubscriberRef → Subscriber
  allocated : SubscriberRef
  counter : MessageCounter

/-- The steps, with what the clock says of each message that a publication makes. -/
inductive PubSubOp where
  | subscribe (id : SubscriberId) (channel : String)
  | unsubscribe (id : SubscriberId) (channel : String)
  | psubscribe (id : SubscriberId) (pattern : String)
  | punsubscribe (id : SubscriberId) (pattern : String)
  | publish (channel : String) (payload : Bytes) (now patternNow : UInt64)
  | getNextMessage (subscriber : SubscriberRef)
  | removeSubscriber (id : SubscriberId)

namespace PubSubSystem

def new (config : PubSubConfig) (counter : MessageCounter) : PubSubSystem where
  channels := ∅
  subscribers := ∅
  patternSubscriptions := []
  config := config
  stats := ⟨0, 0⟩
  heap := fun _ => Subscriber.new 0 0
  allocated := 0
  counter := counter

def getOrCreateSubscriber (system : PubSubSystem) (id : SubscriberId) :
    SubscriberRef × PubSubSystem :=
  match system.subscribers[id]? with
  | some subscriber => (subscriber, system)
  | none =>
    (system.allocated, { system with
      subscribers := system.subscribers.insert id system.allocated
      heap := Function.update system.heap system.allocated
        (Subscriber.new id system.config.defaultBufferSize.toNat)
      allocated := system.allocated + 1 })

def getSubscriber (system : PubSubSystem) (id : SubscriberId) : Option SubscriberRef :=
  system.subscribers[id]?

def getOrCreateChannel (system : PubSubSystem) (name : String) : Channel :=
  system.channels[name]?.getD (Channel.new name)

def subscribe (system : PubSubSystem) (id : SubscriberId) (channelName : String) :
    PubSubSystem :=
  let (subscriber, system) := system.getOrCreateSubscriber id
  let channel := system.getOrCreateChannel channelName
  { system with
    channels := system.channels.insert channelName (channel.addSubscriber id subscriber) }

def unsubscribe (system : PubSubSystem) (id : SubscriberId) (channelName : String) :
    Bool × PubSubSystem :=
  match system.channels[channelName]? with
  | none => (false, system)
  | some channel =>
    let (removed, channel) := channel.removeSubscriber id
    (removed, { system with channels := system.channels.insert channelName channel })

def psubscribe (regexNew : String → Option (String → Bool)) (system : PubSubSystem)
    (id : SubscriberId) (pattern : String) : Except PubSubError Unit × PubSubSystem :=
  let (_, system) := system.getOrCreateSubscriber id
  match PatternSubscription.new regexNew id pattern with
  | .error e => (.error e, system)
  | .ok sub =>
    (.ok (), { system with patternSubscriptions := system.patternSubscriptions ++ [sub] })

def punsubscribe (system : PubSubSystem) (id : SubscriberId) (pattern : String) :
    Bool × PubSubSystem :=
  let patterns := system.patternSubscriptions.filter fun p =>
    !(p.subscriberId == id && p.patternStr == pattern)
  (patterns.length < system.patternSubscriptions.length,
    { system with patternSubscriptions := patterns })

def deliverAll (heap : SubscriberRef → Subscriber) (message : Message)
    (subscribers : List SubscriberRef) : SubscriberRef → Subscriber :=
  subscribers.foldl (fun heap subscriber =>
    Function.update heap subscriber ((heap subscriber).deliverMessage message)) heap

def channelRecipients (system : PubSubSystem) (channelName : String) : List SubscriberRef :=
  match system.channels[channelName]? with
  | none => []
  | some channel => channel.subscribers.toList.map Prod.snd

def patternRecipients (system : PubSubSystem) (channelName : String) : List SubscriberRef :=
  (system.patternSubscriptions.filter fun p => p.matchesChannel channelName).filterMap fun p =>
    system.subscribers[p.subscriberId]?

/-- `Channel::publish`, where the channel exists. -/
def publishToChannel (system : PubSubSystem) (channelName : String) (payload : Bytes)
    (now : UInt64) : Nat × PubSubSystem :=
  match system.channels[channelName]? with
  | none => (0, system)
  | some channel =>
    let (message, counter) := Message.new system.counter now channel.name payload
    let recipients := channel.subscribers.toList.map Prod.snd
    (recipients.length, { system with
      heap := deliverAll system.heap message recipients
      counter := counter
      channels := system.channels.insert channelName
        { channel with messageCount := channel.messageCount + 1 } })

def publish (system : PubSubSystem) (channelName : String) (payload : Bytes)
    (now patternNow : UInt64) : Except PubSubError Nat × PubSubSystem :=
  if system.config.maxMessageSize.toNat < payload.length then (.error .messageTooLarge, system)
  else
    let (delivered, system) := system.publishToChannel channelName payload now
    let (message, counter) := Message.new system.counter patternNow channelName payload
    let recipients := system.patternRecipients channelName
    let totalDelivered := delivered + recipients.length
    (.ok totalDelivered, { system with
      heap := deliverAll system.heap message recipients
      counter := counter
      stats := {
        totalMessagesPublished := system.stats.totalMessagesPublished + 1
        totalMessagesDelivered :=
          system.stats.totalMessagesDelivered + UInt64.ofNat totalDelivered } })

/-- `get_next_message` of a subscriber that a client holds. -/
def getNextMessage (system : PubSubSystem) (subscriber : SubscriberRef) :
    Option Message × PubSubSystem :=
  let (message, rest) := (system.heap subscriber).getNextMessage
  (message, { system with heap := Function.update system.heap subscriber rest })

def removeSubscriber (system : PubSubSystem) (id : SubscriberId) : PubSubSystem :=
  { system with
    channels := system.channels.map fun _ channel => (channel.removeSubscriber id).2
    patternSubscriptions := system.patternSubscriptions.filter fun p => p.subscriberId != id
    subscribers := system.subscribers.erase id }

def step (regexNew : String → Option (String → Bool)) (system : PubSubSystem) :
    PubSubOp → PubSubSystem
  | .subscribe id channel => system.subscribe id channel
  | .unsubscribe id channel => (system.unsubscribe id channel).2
  | .psubscribe id pattern => (system.psubscribe regexNew id pattern).2
  | .punsubscribe id pattern => (system.punsubscribe id pattern).2
  | .publish channel payload now patternNow => (system.publish channel payload now patternNow).2
  | .getNextMessage subscriber => (system.getNextMessage subscriber).2
  | .removeSubscriber id => system.removeSubscriber id

end PubSubSystem

end VedDb
