import VedDb.Lib.Runs
import VedDb.PubSub.Subscriptions

/-!
# Delivery

The queue of a subscriber against its inbox.  A publication takes an id for the channel and another
for the patterns, so its copies agree only where one of the two reaches nobody; a subscriber that
may queue nothing still queues one message; and a pattern that is subscribed to twice is delivered
twice.
-/

namespace VedDb

open LittleEndian (Bytes)

/-! ## The last elements of a list -/

section

variable {α : Type} {l : List α} {n : Nat}

theorem rtake_of_length_le (h : l.length ≤ n) : l.rtake n = l := by
  rw [List.rtake, Nat.sub_eq_zero_of_le h, List.drop_zero]

theorem length_rtake_le (l : List α) (n : Nat) : (l.rtake n).length ≤ n := by
  rw [List.rtake, List.length_drop]
  omega

theorem rtake_rtake_append (l more : List α) (n : Nat) :
    (l.rtake n ++ more).rtake n = (l ++ more).rtake n := by
  rw [List.rtake, List.rtake, List.rtake, List.length_append, List.length_append, List.length_drop,
    List.drop_append, List.drop_append, List.drop_drop, List.length_drop]
  congr 2 <;> omega

/-- Room for a new element is made at the front. -/
theorem tail_append_eq_rtake (x : α) (hroom : n ≠ 0) (h : l.length ≤ n) :
    (if n ≤ l.length then l.tail else l) ++ [x] = (l ++ [x]).rtake n := by
  split
  next hfull =>
    have hlength : l.length + 1 - n = 1 := by omega
    rw [List.rtake, List.length_append, List.length_singleton, hlength, List.drop_one]
    cases l with
    | nil => exact (hroom (Nat.le_zero.mp hfull)).elim
    | cons y l => rfl
  next =>
    rw [rtake_of_length_le]
    rw [List.length_append, List.length_singleton]
    omega

theorem map_rtake {β : Type} (f : α → β) (l : List α) (n : Nat) :
    (l.rtake n).map f = (l.map f).rtake n := by
  rw [List.rtake, List.rtake, List.map_drop, List.length_map]

end

/-! ## Queues -/

namespace Inbox

theorem receive_zero {inbox : Inbox} {limit : Nat} (h : inbox.queue.length ≤ limit)
    (publication : Nat) : inbox.receive limit 0 publication = inbox := by
  rw [receive, List.replicate_zero, List.append_nil, rtake_of_length_le h]
  rfl

theorem receive_succ (inbox : Inbox) (limit copies publication : Nat) :
    inbox.receive limit (copies + 1) publication =
      (inbox.receive limit copies publication).receive limit 1 publication := by
  rw [receive, receive, receive, rtake_rtake_append, List.append_assoc, ← List.replicate_add]
  rfl

end Inbox

structure Subscriber.Holds (publications : List (String × Bytes)) (ids : List UInt64) (limit : Nat)
    (subscriber : Subscriber) (inbox : Inbox) : Prop where
  messages : subscriber.queue.map (fun m => some (m.channel, m.payload)) =
    inbox.queue.map fun i => publications[i]?
  ids : subscriber.queue.map (fun m => some m.id) = inbox.queue.map fun i => ids[i]?
  size : subscriber.maxQueueSize = limit
  length : subscriber.queue.length ≤ limit
  received : subscriber.messagesReceived = UInt64.ofNat inbox.delivered
  accounted : subscriber.messagesReceived = UInt64.ofNat inbox.consumed +
    UInt64.ofNat subscriber.queue.length + subscriber.messagesDropped

namespace Subscriber

variable {publications : List (String × Bytes)} {ids : List UInt64} {limit : Nat}
  {subscriber : Subscriber} {inbox : Inbox}

theorem holds_new (id : SubscriberId) : (new id limit).Holds publications ids limit .empty :=
  ⟨rfl, rfl, rfl, Nat.zero_le _, rfl, rfl⟩

theorem Holds.length_eq (h : subscriber.Holds publications ids limit inbox) :
    inbox.queue.length = subscriber.queue.length := by
  have hlength := congrArg List.length h.messages
  rw [List.length_map, List.length_map] at hlength
  exact hlength.symm

theorem Holds.lt (h : subscriber.Holds publications ids limit inbox) {i : Nat}
    (hi : i ∈ inbox.queue) : i < publications.length ∧ i < ids.length := by
  have hpublication := List.mem_map_of_mem (f := fun i => publications[i]?) hi
  have hid := List.mem_map_of_mem (f := fun i => ids[i]?) hi
  rw [← h.messages] at hpublication
  rw [← h.ids] at hid
  obtain ⟨m, _, hm⟩ := List.mem_map.mp hpublication
  obtain ⟨m', _, hm'⟩ := List.mem_map.mp hid
  exact ⟨(List.getElem?_eq_some_iff.mp hm.symm).1, (List.getElem?_eq_some_iff.mp hm'.symm).1⟩

/-- Further publications leave the queue what it was. -/
theorem Holds.append (h : subscriber.Holds publications ids limit inbox)
    (later : List (String × Bytes)) (laterIds : List UInt64) :
    subscriber.Holds (publications ++ later) (ids ++ laterIds) limit inbox where
  messages := by
    rw [h.messages]
    exact List.map_congr_left fun i hi => (List.getElem?_append_left (h.lt hi).1).symm
  ids := by
    rw [h.ids]
    exact List.map_congr_left fun i hi => (List.getElem?_append_left (h.lt hi).2).symm
  size := h.size
  length := h.length
  received := h.received
  accounted := h.accounted

/-- The counters look at the queue and not at the subscriptions. -/
theorem Holds.of_eq {inbox' : Inbox} (h : subscriber.Holds publications ids limit inbox)
    (hqueue : inbox'.queue = inbox.queue) (hconsumed : inbox'.consumed = inbox.consumed)
    (hdelivered : inbox'.delivered = inbox.delivered) :
    subscriber.Holds publications ids limit inbox' where
  messages := by rw [hqueue, h.messages]
  ids := by rw [hqueue, h.ids]
  size := h.size
  length := h.length
  received := by rw [hdelivered, h.received]
  accounted := by rw [hconsumed, h.accounted]

variable {message : Message} {publication : Nat}

theorem Holds.deliverMessage (h : subscriber.Holds publications ids limit inbox)
    (hroom : limit ≠ 0)
    (hpublication : publications[publication]? = some (message.channel, message.payload))
    (hid : ids[publication]? = some message.id) :
    (subscriber.deliverMessage message).Holds publications ids limit
      (inbox.receive limit 1 publication) := by
  have hqueue : (subscriber.deliverMessage message).queue =
      (subscriber.queue ++ [message]).rtake limit := by
    rw [← tail_append_eq_rtake message hroom h.length, ← h.size]
    rfl
  refine ⟨?_, ?_, h.size, ?_, ?_, ?_⟩
  · rw [hqueue, map_rtake, List.map_append, h.messages, Inbox.receive, map_rtake, List.map_append]
    exact congrArg (fun l => (_ ++ [l]).rtake limit) hpublication.symm
  · rw [hqueue, map_rtake, List.map_append, h.ids, Inbox.receive, map_rtake, List.map_append]
    exact congrArg (fun l => (_ ++ [l]).rtake limit) hid.symm
  · rw [hqueue]
    exact length_rtake_le _ _
  · show subscriber.messagesReceived + 1 = UInt64.ofNat (inbox.delivered + 1)
    rw [h.received, UInt64.ofNat_add]
    rfl
  · show subscriber.messagesReceived + 1 = UInt64.ofNat inbox.consumed +
      UInt64.ofNat (subscriber.deliverMessage message).queue.length +
        (if subscriber.maxQueueSize ≤ subscriber.queue.length then subscriber.messagesDropped + 1
          else subscriber.messagesDropped)
    rw [hqueue, h.accounted, h.size, List.rtake, List.length_drop, List.length_append,
      List.length_singleton]
    split
    next hfull =>
      have hlength := h.length
      have hkept : subscriber.queue.length + 1 - (subscriber.queue.length + 1 - limit) =
          subscriber.queue.length := by omega
      rw [hkept, UInt64.add_assoc]
    next hfree =>
      have hkept : subscriber.queue.length + 1 - (subscriber.queue.length + 1 - limit) =
          subscriber.queue.length + 1 := by omega
      have hone : UInt64.ofNat 1 = 1 := rfl
      rw [hkept, UInt64.ofNat_add, hone]
      ac_rfl

theorem Holds.deliver_iterate (h : subscriber.Holds publications ids limit inbox) {copies : Nat}
    (hroom : limit ≠ 0 ∨ copies = 0)
    (hpublication : copies ≠ 0 →
      publications[publication]? = some (message.channel, message.payload))
    (hid : copies ≠ 0 → ids[publication]? = some message.id) :
    ((fun s => s.deliverMessage message)^[copies] subscriber).Holds publications ids limit
      (inbox.receive limit copies publication) := by
  induction copies with
  | zero =>
    rw [Inbox.receive_zero]
    · exact h
    · rw [h.length_eq]
      exact h.length
  | succ copies ih =>
    have hlimit := hroom.resolve_right (Nat.succ_ne_zero copies)
    rw [Function.iterate_succ_apply', Inbox.receive_succ]
    refine Holds.deliverMessage ?_ hlimit (hpublication (Nat.succ_ne_zero copies))
      (hid (Nat.succ_ne_zero copies))
    exact ih (.inl hlimit) (fun _ => hpublication (Nat.succ_ne_zero copies))
      fun _ => hid (Nat.succ_ne_zero copies)

theorem Holds.getNextMessage (h : subscriber.Holds publications ids limit inbox) :
    subscriber.getNextMessage.2.Holds publications ids limit inbox.consume where
  messages := by
    show subscriber.queue.tail.map _ = inbox.queue.tail.map _
    rw [List.map_tail, List.map_tail, h.messages]
  ids := by
    show subscriber.queue.tail.map _ = inbox.queue.tail.map _
    rw [List.map_tail, List.map_tail, h.ids]
  size := h.size
  length := by
    show subscriber.queue.tail.length ≤ limit
    rw [List.length_tail]
    exact (Nat.sub_le _ _).trans h.length
  received := h.received
  accounted := by
    show subscriber.messagesReceived = UInt64.ofNat (inbox.consumed + min 1 inbox.queue.length) +
      UInt64.ofNat subscriber.queue.tail.length + subscriber.messagesDropped
    rw [h.length_eq, List.length_tail, ← UInt64.ofNat_add, h.accounted, ← UInt64.ofNat_add]
    congr 2
    omega

end Subscriber

namespace PubSubSystem

/-- One message into the queue of a subscriber as often as it is among the recipients. -/
theorem deliverAll_apply (heap : SubscriberRef → Subscriber) (message : Message)
    (recipients : List SubscriberRef) (n : SubscriberRef) :
    deliverAll heap message recipients n =
      (fun s => s.deliverMessage message)^[recipients.count n] (heap n) := by
  rw [deliverAll]
  induction recipients generalizing heap with
  | nil => rfl
  | cons r recipients ih =>
    rw [List.foldl_cons, ih, List.count_cons]
    by_cases heq : r = n
    · rw [heq, Function.update_self, beq_self_eq_true, if_pos rfl, Function.iterate_succ_apply]
    · rw [Function.update_of_ne (Ne.symm heq), if_neg fun hbeq => heq (eq_of_beq hbeq)]
      rfl

/-- The ids that were taken before the one that the copies of a publication carry. -/
def idsBefore (system : PubSubSystem) (channel : String) : Nat :=
  if system.patternRecipients channel = [] then system.counter.taken
  else system.counter.taken + if system.channels[channel]?.isSome then 1 else 0

/-- A publication that reaches its subscribers once for each subscription, under one id that no
earlier one has. -/
structure ReachesOnce (system : PubSubSystem) (channel : String) : Prop where
  distinct : ((system.patternSubscriptions.filter fun p => p.matchesChannel channel).map
    fun p => (p.subscriberId, p.patternStr)).Nodup
  oneId : system.channelRecipients channel = [] ∨ system.patternRecipients channel = []
  room : system.config.defaultBufferSize.toNat ≠ 0 ∨
    system.channelRecipients channel = [] ∧ system.patternRecipients channel = []
  newId : system.idsBefore channel < 2 ^ 64

instance ReachesOnce.decidable (system : PubSubSystem) (channel : String) :
    Decidable (system.ReachesOnce channel) :=
  decidable_of_iff (_ ∧ _ ∧ _ ∧ _)
    ⟨fun h => ⟨h.1, h.2.1, h.2.2.1, h.2.2.2⟩, fun h => ⟨h.distinct, h.oneId, h.room, h.newId⟩⟩

/-- The condition on a step. -/
def PublishesOnce (system : PubSubSystem) : PubSubOp → Prop
  | .publish channel payload _ _ =>
    payload.length ≤ system.config.maxMessageSize.toNat → system.ReachesOnce channel
  | _ => True

instance PublishesOnce.decidable (system : PubSubSystem) :
    (op : PubSubOp) → Decidable (system.PublishesOnce op)
  | .publish _ payload _ _ =>
    inferInstanceAs (Decidable (payload.length ≤ system.config.maxMessageSize.toNat → _))
  | .subscribe _ _ | .unsubscribe _ _ | .psubscribe _ _ | .punsubscribe _ _ | .getNextMessage _
  | .removeSubscriber _ => .isTrue trivial

structure Delivers (config : PubSubConfig) (ids : List UInt64) (system : PubSubSystem)
    (s : Inboxes) : Prop where
  current (id : SubscriberId) : system.getSubscriber id = s.current id
  holds (n : Nat) : n < s.created →
    (system.heap n).Holds s.publications ids config.defaultBufferSize.toNat (s.inbox n)

/-- The subscriptions and the queues, with the ids that publications were given. -/
structure DeliveryInv (regexNew : String → Option (String → Bool)) (config : PubSubConfig)
    (ids : List UInt64) (system : PubSubSystem) (s : Inboxes) : Prop where
  configured : system.config = config
  linked : Linked (compilePattern regexNew) system s
  holds (n : Nat) : n < s.created →
    (system.heap n).Holds s.publications ids config.defaultBufferSize.toNat (s.inbox n)
  length : ids.length = s.publications.length
  nodup : ids.Nodup
  taken : ∀ id ∈ ids, ∃ k, k < system.counter.taken ∧ k < 2 ^ 64 ∧ id = UInt64.ofNat (k + 1)

variable {regexNew : String → Option (String → Bool)} {config : PubSubConfig} {ids : List UInt64}
  {system : PubSubSystem} {s : Inboxes}

theorem deliveryInv_new (regexNew : String → Option (String → Bool)) (config : PubSubConfig)
    (counter : MessageCounter) : DeliveryInv regexNew config [] (new config counter) .empty where
  configured := rfl
  linked := linked_new config counter
  holds n h := (Nat.not_lt_zero n h).elim
  length := rfl
  nodup := List.nodup_nil
  taken _ h := by cases h

theorem DeliveryInv.delivers (h : DeliveryInv regexNew config ids system s) (later : List UInt64) :
    Delivers config (ids ++ later) system s where
  current := h.linked.current
  holds n hn := by
    have hholds := (h.holds n hn).append [] later
    rw [List.append_nil] at hholds
    exact hholds

/-! ## Steps -/

/-- Steps that publish nothing. -/
theorem DeliveryInv.of_holds {system' : PubSubSystem} {s' : Inboxes}
    (h : DeliveryInv regexNew config ids system s)
    (hlinked : Linked (compilePattern regexNew) system' s')
    (hconfig : system'.config = system.config) (hcounter : system'.counter = system.counter)
    (hpublications : s'.publications = s.publications)
    (hholds : ∀ n < s'.created, (system'.heap n).Holds s.publications ids
      config.defaultBufferSize.toNat (s'.inbox n)) :
    DeliveryInv regexNew config ids system' s' where
  configured := hconfig.trans h.configured
  linked := hlinked
  holds n hn := by
    rw [hpublications]
    exact hholds n hn
  length := by rw [hpublications, h.length]
  nodup := h.nodup
  taken := by
    rw [hcounter]
    exact h.taken

/-- A change of subscriptions leaves the queues. -/
theorem DeliveryInv.holds_modify (h : DeliveryInv regexNew config ids system s) {n m : Nat}
    {f : Inbox → Inbox} (hqueue : ∀ inbox, (f inbox).queue = inbox.queue)
    (hconsumed : ∀ inbox, (f inbox).consumed = inbox.consumed)
    (hdelivered : ∀ inbox, (f inbox).delivered = inbox.delivered) (hn : n < s.created) :
    (system.heap n).Holds s.publications ids config.defaultBufferSize.toNat
      ((s.modify m f).inbox n) := by
  by_cases heq : n = m
  · rw [heq, Inboxes.inbox_modify_self, ← heq]
    exact (h.holds n hn).of_eq (hqueue _) (hconsumed _) (hdelivered _)
  · rw [Inboxes.inbox_modify_of_ne _ _ heq]
    exact h.holds n hn

theorem DeliveryInv.holds_modifyCurrent (h : DeliveryInv regexNew config ids system s) {n : Nat}
    {id : SubscriberId} {f : Inbox → Inbox} (hqueue : ∀ inbox, (f inbox).queue = inbox.queue)
    (hconsumed : ∀ inbox, (f inbox).consumed = inbox.consumed)
    (hdelivered : ∀ inbox, (f inbox).delivered = inbox.delivered) (hn : n < s.created) :
    (system.heap n).Holds s.publications ids config.defaultBufferSize.toNat
      ((s.modifyCurrent id f).inbox n) := by
  rw [Inboxes.modifyCurrent]
  split
  next => exact h.holds n hn
  next m _ => exact h.holds_modify hqueue hconsumed hdelivered hn

theorem DeliveryInv.enter (h : DeliveryInv regexNew config ids system s) (id : SubscriberId) :
    DeliveryInv regexNew config ids (system.getOrCreateSubscriber id).2 (s.enter id).2 := by
  have hlinked := (h.linked.enter id).2.1
  have hcreated := h.linked.created
  rw [getOrCreateSubscriber, Inboxes.enter, h.linked.current] at hlinked ⊢
  cases hcurrent : s.current id with
  | some n => exact h
  | none =>
    rw [hcurrent] at hlinked
    refine h.of_holds hlinked rfl rfl rfl fun n hn => ?_
    dsimp only at hn ⊢
    rw [hcreated]
    by_cases heq : n = s.created
    · rw [heq, Function.update_self, Function.update_self, h.configured]
      exact Subscriber.holds_new id
    · rw [Function.update_of_ne heq, Function.update_of_ne heq]
      exact h.holds n (by omega)

theorem DeliveryInv.subscribe (h : DeliveryInv regexNew config ids system s) (id : SubscriberId)
    (channel : String) :
    DeliveryInv regexNew config ids (system.subscribe id channel) (s.subscribe id channel) := by
  have hlinked := h.linked.subscribe id channel
  have hentered := h.enter id
  rw [PubSubSystem.subscribe, Inboxes.subscribe] at hlinked ⊢
  exact hentered.of_holds hlinked rfl rfl rfl fun n hn =>
    hentered.holds_modify (fun _ => rfl) (fun _ => rfl) (fun _ => rfl) hn

theorem DeliveryInv.unsubscribe (h : DeliveryInv regexNew config ids system s) (id : SubscriberId)
    (channel : String) :
    DeliveryInv regexNew config ids (system.unsubscribe id channel).2
      (s.modifyCurrent id fun inbox =>
        { inbox with channels := inbox.channels.erase channel }) := by
  have hlinked := h.linked.unsubscribe id channel
  have hsame : (system.unsubscribe id channel).2.config = system.config ∧
      (system.unsubscribe id channel).2.counter = system.counter ∧
      (system.unsubscribe id channel).2.heap = system.heap := by
    rw [PubSubSystem.unsubscribe]
    split <;> exact ⟨rfl, rfl, rfl⟩
  refine h.of_holds hlinked hsame.1 hsame.2.1 ?_ fun n hn => ?_
  · exact Inboxes.publications_modifyCurrent _ _ _
  · rw [Inboxes.created_modifyCurrent] at hn
    rw [hsame.2.2]
    exact h.holds_modifyCurrent (fun _ => rfl) (fun _ => rfl) (fun _ => rfl) hn

theorem DeliveryInv.psubscribe (h : DeliveryInv regexNew config ids system s) (id : SubscriberId)
    (pattern : String) :
    DeliveryInv regexNew config ids (system.psubscribe regexNew id pattern).2
      (s.psubscribe (compilePattern regexNew) id pattern) := by
  have hlinked := h.linked.psubscribe id pattern
  have hentered := h.enter id
  rw [PubSubSystem.psubscribe, Inboxes.psubscribe, PatternSubscription.new, compilePattern]
    at hlinked ⊢
  cases hregex : regexNew (PatternSubscription.regexPattern pattern) with
  | none => exact hentered
  | some regex =>
    rw [hregex] at hlinked
    exact hentered.of_holds hlinked rfl rfl rfl fun n hn =>
      hentered.holds_modify (fun _ => rfl) (fun _ => rfl) (fun _ => rfl) hn

theorem DeliveryInv.punsubscribe (h : DeliveryInv regexNew config ids system s) (id : SubscriberId)
    (pattern : String) :
    DeliveryInv regexNew config ids (system.punsubscribe id pattern).2
      (s.modifyCurrent id fun inbox =>
        { inbox with patterns := inbox.patterns.erase pattern }) := by
  refine h.of_holds (h.linked.punsubscribe id pattern) rfl rfl
    (Inboxes.publications_modifyCurrent _ _ _) fun n hn => ?_
  rw [Inboxes.created_modifyCurrent] at hn
  exact h.holds_modifyCurrent (fun _ => rfl) (fun _ => rfl) (fun _ => rfl) hn

theorem DeliveryInv.removeSubscriber (h : DeliveryInv regexNew config ids system s)
    (id : SubscriberId) :
    DeliveryInv regexNew config ids (system.removeSubscriber id) (s.remove id) := by
  refine h.of_holds (h.linked.removeSubscriber id) rfl rfl
    (Inboxes.publications_modifyCurrent _ _ _) fun n hn => ?_
  have hcreated : n < (s.modifyCurrent id _).created := hn
  rw [Inboxes.created_modifyCurrent] at hcreated
  exact h.holds_modifyCurrent (fun _ => rfl) (fun _ => rfl) (fun _ => rfl) hcreated

theorem DeliveryInv.getNextMessage (h : DeliveryInv regexNew config ids system s)
    (n : SubscriberRef) :
    DeliveryInv regexNew config ids (system.getNextMessage n).2 (s.modify n Inbox.consume) := by
  refine h.of_holds (h.linked.getNextMessage n) rfl rfl rfl fun m hm => ?_
  show (Function.update system.heap n (system.heap n).getNextMessage.2 m).Holds _ _ _ _
  by_cases heq : m = n
  · rw [heq, Function.update_self, Inboxes.inbox_modify_self, ← heq]
    exact (h.holds m hm).getNextMessage
  · rw [Function.update_of_ne heq, Inboxes.inbox_modify_of_ne _ _ heq]
    exact h.holds m hm

/-- What a publication that is not too large does to the queues and to the counter. -/
theorem publish_spec (channel : String) {payload : Bytes} (now patternNow : UInt64)
    (hnames : ∀ {name : String} {channel : Channel}, system.channels[name]? = some channel →
      channel.name = name)
    (hsize : payload.length ≤ system.config.maxMessageSize.toNat) :
    ∃ counter : MessageCounter,
      counter.taken =
        system.counter.taken + (if system.channels[channel]?.isSome then 1 else 0) ∧
      (system.publish channel payload now patternNow).2.counter = counter.advance ∧
      (system.publish channel payload now patternNow).2.config = system.config ∧
      ∀ n, (system.publish channel payload now patternNow).2.heap n =
        (fun s => s.deliverMessage ⟨channel, payload, patternNow, counter.next⟩)^[
          (system.patternRecipients channel).count n]
          ((fun s => s.deliverMessage ⟨channel, payload, now, system.counter.next⟩)^[
            (system.channelRecipients channel).count n] (system.heap n)) := by
  rw [publish, if_neg (Nat.not_lt.mpr hsize), publishToChannel, channelRecipients]
  cases hchannel : system.channels[channel]? with
  | none => exact ⟨system.counter, rfl, rfl, rfl, fun n => deliverAll_apply _ _ _ n⟩
  | some found =>
    refine ⟨system.counter.advance, rfl, rfl, rfl, fun n => ?_⟩
    show deliverAll (deliverAll system.heap _ _) _ _ n = _
    rw [deliverAll_apply, deliverAll_apply, hnames hchannel]
    rfl

theorem DeliveryInv.publish (h : DeliveryInv regexNew config ids system s) {channel : String}
    {payload : Bytes} {now patternNow : UInt64}
    (honce : system.PublishesOnce (.publish channel payload now patternNow)) :
    ∃ new, DeliveryInv regexNew config (ids ++ new)
      (system.publish channel payload now patternNow).2
      (s.publish (compilePattern regexNew) config channel payload) := by
  have hlinked := h.linked.publish config channel payload now patternNow h.configured
  by_cases hsize : payload.length ≤ system.config.maxMessageSize.toNat
  · have honce := honce hsize
    obtain ⟨counter, htaken, hcounter, hconfig, hheap⟩ :=
      publish_spec channel now patternNow h.linked.names hsize
    have hspec : s.publish (compilePattern regexNew) config channel payload = _ :=
      if_neg (Nat.not_lt.mpr (h.configured ▸ hsize))
    generalize (system.publish channel payload now patternNow).2 = system' at *
    rw [hspec] at hlinked ⊢
    have hbefore : system.idsBefore channel = system.counter.taken ∨
        system.idsBefore channel = counter.taken := by
      rw [idsBefore, htaken]
      split
      · exact .inl rfl
      · exact .inr rfl
    refine ⟨[UInt64.ofNat (system.idsBefore channel + 1)], hconfig.trans h.configured, hlinked,
      fun n hn => ?_, ?_, ?_, fun id hid => ?_⟩
    · have hcopies : (s.inbox n).copies (compilePattern regexNew) channel =
          (system.channelRecipients channel).count n +
            (system.patternRecipients channel).count n := by
        rw [Inbox.copies, h.linked.count_channelRecipients,
          h.linked.count_patternRecipients honce.distinct]
      have hold := (h.holds n hn).append [(channel, payload)]
        [UInt64.ofNat (system.idsBefore channel + 1)]
      have hpublication : (s.publications ++ [(channel, payload)])[s.publications.length]? =
          some (channel, payload) := List.getElem?_concat_length
      have hid : (ids ++ [UInt64.ofNat (system.idsBefore channel + 1)])[s.publications.length]? =
          some (UInt64.ofNat (system.idsBefore channel + 1)) := by
        rw [← h.length]
        exact List.getElem?_concat_length
      rw [hheap]
      dsimp only
      rw [hcopies]
      -- Only one of the two messages has recipients, and the copies carry its id.
      rcases honce.oneId with hnone | hnone
      · rw [hnone, List.count_nil, Function.iterate_zero, Nat.zero_add]
        refine hold.deliver_iterate ?_ (fun _ => hpublication) fun hcount => ?_
        · rw [← h.configured]
          refine honce.room.imp_right fun hroom => ?_
          rw [hroom.2, List.count_nil]
        · have hsome : system.patternRecipients channel ≠ [] := by
            intro hempty
            rw [hempty] at hcount
            exact hcount rfl
          rw [hid, counter.next_eq, idsBefore, if_neg hsome, htaken]
      · rw [hnone, List.count_nil, Function.iterate_zero, Nat.add_zero]
        refine hold.deliver_iterate ?_ (fun _ => hpublication) fun _ => ?_
        · rw [← h.configured]
          refine honce.room.imp_right fun hroom => ?_
          rw [hroom.1, List.count_nil]
        · rw [hid, system.counter.next_eq, idsBefore, if_pos hnone]
    · show (ids ++ [_]).length = (s.publications ++ [_]).length
      rw [List.length_append, List.length_append, h.length]
      rfl
    · rw [List.nodup_append_comm, List.singleton_append, List.nodup_cons]
      refine ⟨fun hmem => ?_, h.nodup⟩
      obtain ⟨k, hk, hsmall, heq⟩ := h.taken _ hmem
      have hnew := honce.newId
      have hnat := congrArg UInt64.toNat heq
      rw [UInt64.toNat_ofNat', UInt64.toNat_ofNat'] at hnat
      omega
    · rw [hcounter, MessageCounter.advance_taken]
      rcases List.mem_append.mp hid with hid | hid
      · obtain ⟨k, hk, hsmall, heq⟩ := h.taken id hid
        exact ⟨k, by omega, hsmall, heq⟩
      · refine ⟨system.idsBefore channel, by omega, honce.newId, ?_⟩
        exact List.mem_singleton.mp hid
  · refine ⟨[], ?_⟩
    rw [List.append_nil, PubSubSystem.publish, if_pos (Nat.not_le.mp hsize), Inboxes.publish,
      if_pos (h.configured ▸ Nat.not_le.mp hsize)]
    exact h

theorem DeliveryInv.step (h : DeliveryInv regexNew config ids system s) {op : PubSubOp}
    (honce : system.PublishesOnce op) :
    ∃ new, DeliveryInv regexNew config (ids ++ new) (system.step regexNew op)
      (s.step (compilePattern regexNew) config op) := by
  have hsame {system' : PubSubSystem} {s' : Inboxes}
      (h : DeliveryInv regexNew config ids system' s') :
      ∃ new, DeliveryInv regexNew config (ids ++ new) system' s' := by
    refine ⟨[], ?_⟩
    rw [List.append_nil]
    exact h
  cases op with
  | subscribe id channel => exact hsame (h.subscribe id channel)
  | unsubscribe id channel => exact hsame (h.unsubscribe id channel)
  | psubscribe id pattern => exact hsame (h.psubscribe id pattern)
  | punsubscribe id pattern => exact hsame (h.punsubscribe id pattern)
  | publish channel payload now patternNow => exact h.publish honce
  | getNextMessage n => exact hsame (h.getNextMessage n)
  | removeSubscriber id => exact hsame (h.removeSubscriber id)

/-! ## Runs -/

/-- One list of ids, in which no two publications share one, fits the queues at every step. -/
def DeliversAlong (regexNew : String → Option (String → Bool)) (config : PubSubConfig)
    (counter : MessageCounter) (ops : List PubSubOp) : Prop :=
  ∃ ids : List UInt64, ids.Nodup ∧ ∀ n, Delivers config ids
    ((ops.take n).foldl (step regexNew) (new config counter))
    ((ops.take n).foldl (Inboxes.step (compilePattern regexNew) config) .empty)

theorem DeliveryInv.run (h : DeliveryInv regexNew config ids system s) {ops : List PubSubOp}
    (honce : MeetsAlong (PubSubSystem.step regexNew) PublishesOnce system ops) :
    ∃ later, (ids ++ later).Nodup ∧ ∀ n, Delivers config (ids ++ later)
      ((ops.take n).foldl (PubSubSystem.step regexNew) system)
      ((ops.take n).foldl (Inboxes.step (compilePattern regexNew) config) s) := by
  induction ops generalizing ids system s with
  | nil =>
    refine ⟨[], ?_, fun n => ?_⟩
    · rw [List.append_nil]
      exact h.nodup
    · rw [List.take_nil]
      exact h.delivers []
  | cons op ops ih =>
    obtain ⟨new, hstep⟩ := h.step honce.1
    obtain ⟨later, hnodup, hdelivers⟩ := ih hstep honce.2
    rw [List.append_assoc] at hnodup hdelivers
    refine ⟨new ++ later, hnodup, fun n => ?_⟩
    cases n with
    | zero => exact h.delivers (new ++ later)
    | succ n => exact hdelivers n

/-- What `Regex::new` does with the two patterns below. -/
def twoPatterns (text : String) : Option (String → Bool) :=
  if text = "^.*$" then some fun channel => channel.toList.all (· ≠ '\n')
  else if text = "^news..*$" then
    some fun channel => channel.toList.take 4 = "news".toList ∧ 5 ≤ channel.length ∧
      (channel.toList.drop 4).all (· ≠ '\n')
  else none

def queuesOf (limit : UInt64) : PubSubConfig :=
  { PubSubConfig.default with defaultBufferSize := limit }

def channelAndPattern : List PubSubOp :=
  [.subscribe 1 "news", .psubscribe 1 "*", .publish "news" [1] 100 100]

end PubSubSystem

end VedDb
