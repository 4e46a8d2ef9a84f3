import Mathlib.Data.Finset.Card
import Mathlib.Data.List.DropRight
import VedDb.PubSub.System

/-!
# Subscriptions

What the system is for: every subscriber has a set of channels, a set of patterns and an inbox of
the last publications to them.  The channels and the patterns of the system hold these sets.
-/

namespace VedDb

open LittleEndian (Bytes)

/-! ## Inboxes -/

/-- The subscriptions of a subscriber and the publications, by their numbers, that it has not yet
consumed. -/
structure Inbox where
  channels : Finset String
  patterns : Finset String
  queue : List Nat
  consumed : Nat
  delivered : Nat

namespace Inbox

def empty : Inbox := ⟨∅, ∅, [], 0, 0⟩

/-- The subscriptions that a publication to a channel meets. -/
def copies (compile : String → Option (String → Bool)) (inbox : Inbox) (channel : String) : Nat :=
  (if channel ∈ inbox.channels then 1 else 0) +
    (inbox.patterns.filter fun p => (compile p).any fun m => m channel).card

/-- Of all that is not consumed, the last `limit` are kept. -/
def receive (inbox : Inbox) (limit copies publication : Nat) : Inbox :=
  { inbox with
    queue := (inbox.queue ++ List.replicate copies publication).rtake limit
    delivered := inbox.delivered + copies }

def consume (inbox : Inbox) : Inbox :=
  { inbox with
    queue := inbox.queue.tail
    consumed := inbox.consumed + min 1 inbox.queue.length }

end Inbox

/-- A subscriber has a number; an id that is removed and subscribes again is a new subscriber. -/
structure Inboxes where
  current : SubscriberId → Option Nat
  created : Nat
  inbox : Nat → Inbox
  publications : List (String × Bytes)

namespace Inboxes

def empty : Inboxes := ⟨fun _ => none, 0, fun _ => .empty, []⟩

def enter (s : Inboxes) (id : SubscriberId) : Nat × Inboxes :=
  match s.current id with
  | some n => (n, s)
  | none =>
    (s.created, { s with
      current := Function.update s.current id (some s.created)
      created := s.created + 1
      inbox := Function.update s.inbox s.created .empty })

/-- A change of the inbox of one subscriber. -/
def modify (s : Inboxes) (n : Nat) (f : Inbox → Inbox) : Inboxes :=
  { s with inbox := Function.update s.inbox n (f (s.inbox n)) }

@[simp] theorem inbox_modify_self (s : Inboxes) (n : Nat) (f : Inbox → Inbox) :
    (s.modify n f).inbox n = f (s.inbox n) :=
  Function.update_self ..

theorem inbox_modify_of_ne (s : Inboxes) {n m : Nat} (f : Inbox → Inbox) (hne : m ≠ n) :
    (s.modify n f).inbox m = s.inbox m :=
  Function.update_of_ne hne ..

def subscribe (s : Inboxes) (id : SubscriberId) (channel : String) : Inboxes :=
  let (n, s) := s.enter id
  s.modify n fun inbox => { inbox with channels := insert channel inbox.channels }

def psubscribe (compile : String → Option (String → Bool)) (s : Inboxes) (id : SubscriberId)
    (pattern : String) : Inboxes :=
  let (n, s) := s.enter id
  match compile pattern with
  | none => s
  | some _ => s.modify n fun inbox => { inbox with patterns := insert pattern inbox.patterns }

def modifyCurrent (s : Inboxes) (id : SubscriberId) (f : Inbox → Inbox) : Inboxes :=
  match s.current id with
  | none => s
  | some n => s.modify n f

@[simp] theorem current_modifyCurrent (s : Inboxes) (id : SubscriberId) (f : Inbox → Inbox) :
    (s.modifyCurrent id f).current = s.current := by
  rw [modifyCurrent]
  split <;> rfl

@[simp] theorem created_modifyCurrent (s : Inboxes) (id : SubscriberId) (f : Inbox → Inbox) :
    (s.modifyCurrent id f).created = s.created := by
  rw [modifyCurrent]
  split <;> rfl

@[simp] theorem publications_modifyCurrent (s : Inboxes) (id : SubscriberId)
    (f : Inbox → Inbox) : (s.modifyCurrent id f).publications = s.publications := by
  rw [modifyCurrent]
  split <;> rfl

def publish (compile : String → Option (String → Bool)) (config : PubSubConfig) (s : Inboxes)
    (channel : String) (payload : Bytes) : Inboxes :=
  if config.maxMessageSize.toNat < payload.length then s
  else
    { s with
      publications := s.publications ++ [(channel, payload)]
      inbox := fun n => (s.inbox n).receive config.defaultBufferSize.toNat
        ((s.inbox n).copies compile channel) s.publications.length }

def remove (s : Inboxes) (id : SubscriberId) : Inboxes :=
  { s.modifyCurrent id fun inbox => { inbox with channels := ∅, patterns := ∅ } with
    current := Function.update s.current id none }

def step (compile : String → Option (String → Bool)) (config : PubSubConfig) (s : Inboxes) :
    PubSubOp → Inboxes
  | .subscribe id channel => s.subscribe id channel
  | .unsubscribe id channel =>
    s.modifyCurrent id fun inbox => { inbox with channels := inbox.channels.erase channel }
  | .psubscribe id pattern => s.psubscribe compile id pattern
  | .punsubscribe id pattern =>
    s.modifyCurrent id fun inbox => { inbox with patterns := inbox.patterns.erase pattern }
  | .publish channel payload _ _ => s.publish compile config channel payload
  | .getNextMessage n => s.modify n Inbox.consume
  | .removeSubscriber id => s.remove id

end Inboxes

/-! ## The subscriptions of the system -/

def compilePattern (regexNew : String → Option (String → Bool)) (pattern : String) :
    Option (String → Bool) :=
  regexNew (PatternSubscription.regexPattern pattern)

namespace PubSubSystem

def subscriberOf (system : PubSubSystem) (channel : String) (id : SubscriberId) :
    Option SubscriberRef :=
  system.channels[channel]?.bind fun c => c.subscribers[id]?

structure Linked (compile : String → Option (String → Bool)) (system : PubSubSystem)
    (s : Inboxes) : Prop where
  created : system.allocated = s.created
  current (id : SubscriberId) : system.subscribers[id]? = s.current id
  bound {id : SubscriberId} {n : Nat} : s.current id = some n → n < s.created
  injective {id other : SubscriberId} {n : Nat} :
    s.current id = some n → s.current other = some n → id = other
  gone {n : Nat} : (∀ id, s.current id ≠ some n) →
    (s.inbox n).channels = ∅ ∧ (s.inbox n).patterns = ∅
  names {name : String} {channel : Channel} : system.channels[name]? = some channel →
    channel.name = name
  subscribed (name : String) (id : SubscriberId) (n : Nat) : system.subscriberOf name id = some n ↔
    s.current id = some n ∧ name ∈ (s.inbox n).channels
  owned {p : PatternSubscription} : p ∈ system.patternSubscriptions →
    (s.current p.subscriberId).isSome
  compiled {p : PatternSubscription} : p ∈ system.patternSubscriptions →
    compile p.patternStr = some p.pattern
  patterns {id : SubscriberId} {n : Nat} : s.current id = some n → ∀ pattern,
    (pattern ∈ (s.inbox n).patterns ↔
      ∃ p ∈ system.patternSubscriptions, p.subscriberId = id ∧ p.patternStr = pattern)

variable {compile : String → Option (String → Bool)} {system : PubSubSystem} {s : Inboxes}

theorem linked_new (config : PubSubConfig) (counter : MessageCounter) :
    Linked compile (new config counter) .empty where
  created := rfl
  current _ := Std.ExtTreeMap.getElem?_empty
  bound h := by cases h
  injective h := by cases h
  gone _ := ⟨rfl, rfl⟩
  names h := by cases Std.ExtTreeMap.getElem?_empty.symm.trans h
  subscribed name id n := by
    rw [subscriberOf, new, Std.ExtTreeMap.getElem?_empty]
    exact ⟨nofun, fun h => nomatch h.1⟩
  owned h := by cases h
  compiled h := by cases h
  patterns h := by cases h

/-- A new id is given the next subscriber. -/
theorem Linked.create (h : Linked compile system s) {id : SubscriberId}
    (hnone : s.current id = none) (heap : SubscriberRef → Subscriber) :
    Linked compile
      { system with
        subscribers := system.subscribers.insert id system.allocated
        heap := heap
        allocated := system.allocated + 1 }
      { s with
        current := Function.update s.current id (some s.created)
        created := s.created + 1
        inbox := Function.update s.inbox s.created .empty } := by
  have hnew : Function.update s.inbox s.created .empty s.created = .empty :=
    Function.update_self ..
  have hinbox {other : SubscriberId} {n : Nat} (hother : s.current other = some n) :
      Function.update s.inbox s.created .empty n = s.inbox n :=
    Function.update_of_ne (h.bound hother).ne _ _
  have howner {p : PatternSubscription} (hp : p ∈ system.patternSubscriptions) :
      p.subscriberId ≠ id := by
    intro heq
    have howned := h.owned hp
    rw [heq, hnone] at howned
    cases howned
  exact
    { created := congrArg (· + 1) h.created
      current := by
        intro other
        show (system.subscribers.insert id system.allocated)[other]? =
          Function.update s.current id (some s.created) other
        rw [lookup_insert, Function.update_apply, h.current, h.created]
        exact if_congr eq_comm rfl rfl
      bound := by
        intro other n hother
        rcases update_eq_some.mp hother with ⟨_, hn⟩ | ⟨_, hother⟩
        · exact Nat.lt_succ_of_le (Option.some.inj hn).ge
        · exact Nat.lt_succ_of_lt (h.bound hother)
      injective := by
        intro own other n hown hother
        rcases update_eq_some.mp hown with ⟨hid, hn⟩ | ⟨_, hown⟩
        · rcases update_eq_some.mp hother with ⟨hid', _⟩ | ⟨_, hother⟩
          · rw [hid, hid']
          · exact absurd (Option.some.inj hn).symm (h.bound hother).ne
        · rcases update_eq_some.mp hother with ⟨_, hn⟩ | ⟨_, hother⟩
          · exact absurd (Option.some.inj hn).symm (h.bound hown).ne
          · exact h.injective hown hother
      gone := by
        intro n hgone
        have hne : n ≠ s.created := by
          intro heq
          exact hgone id (update_eq_some.mpr (.inl ⟨rfl, congrArg some heq.symm⟩))
        dsimp only
        rw [Function.update_of_ne hne]
        refine h.gone fun other hother => hgone other (update_eq_some.mpr (.inr ⟨?_, hother⟩))
        intro heq
        rw [heq, hnone] at hother
        cases hother
      names := h.names
      subscribed := by
        intro name other n
        show system.subscriberOf name other = some n ↔ _
        rw [h.subscribed]
        constructor
        · rintro ⟨hother, hname⟩
          refine ⟨update_eq_some.mpr (.inr ⟨?_, hother⟩), ?_⟩
          · intro heq
            rw [heq, hnone] at hother
            cases hother
          · dsimp only
            rw [hinbox hother]
            exact hname
        · rintro ⟨hother, hname⟩
          dsimp only at hname
          rcases update_eq_some.mp hother with ⟨_, hn⟩ | ⟨_, hother⟩
          · rw [← Option.some.inj hn, hnew] at hname
            cases hname
          · rw [hinbox hother] at hname
            exact ⟨hother, hname⟩
      owned := by
        intro p hp
        dsimp only
        rw [Function.update_of_ne (howner hp)]
        exact h.owned hp
      compiled := h.compiled
      patterns := by
        intro other n hother pattern
        dsimp only
        rcases update_eq_some.mp hother with ⟨hid, hn⟩ | ⟨_, hother⟩
        · rw [← Option.some.inj hn, hnew]
          constructor
          · intro hpattern
            cases hpattern
          · rintro ⟨p, hp, howned, _⟩
            exact absurd (howned.trans hid) (howner hp)
        · rw [hinbox hother]
          exact h.patterns hother pattern }

theorem Linked.enter (h : Linked compile system s) (id : SubscriberId) :
    (system.getOrCreateSubscriber id).1 = (s.enter id).1 ∧
      Linked compile (system.getOrCreateSubscriber id).2 (s.enter id).2 ∧
      (s.enter id).2.current id = some (s.enter id).1 := by
  rw [getOrCreateSubscriber, Inboxes.enter, h.current]
  cases hcurrent : s.current id with
  | some n => exact ⟨rfl, h, hcurrent⟩
  | none => exact ⟨h.created, h.create hcurrent _, Function.update_self ..⟩

/-- An id that has no subscriptions is forgotten. -/
theorem Linked.forget (h : Linked compile system s) {id : SubscriberId}
    (hempty : ∀ n, s.current id = some n →
      (s.inbox n).channels = ∅ ∧ (s.inbox n).patterns = ∅) :
    Linked compile { system with subscribers := system.subscribers.erase id }
      { s with current := Function.update s.current id none } := by
  have hkept {other : SubscriberId} {n : Nat} :
      Function.update s.current id none other = some n ↔ other ≠ id ∧ s.current other = some n := by
    rw [update_eq_some]
    simp
  exact
    { created := h.created
      current := by
        intro other
        show (system.subscribers.erase id)[other]? = Function.update s.current id none other
        rw [lookup_erase, Function.update_apply, h.current]
        exact if_congr eq_comm rfl rfl
      bound := fun hother => h.bound (hkept.mp hother).2
      injective := fun hown hother => h.injective (hkept.mp hown).2 (hkept.mp hother).2
      gone := by
        intro n hgone
        by_cases hn : s.current id = some n
        · exact hempty n hn
        · refine h.gone fun other hother => hgone other (hkept.mpr ⟨?_, hother⟩)
          intro heq
          exact hn (heq ▸ hother)
      names := h.names
      subscribed := by
        intro name other n
        show system.subscriberOf name other = some n ↔
          Function.update s.current id none other = some n ∧ _
        rw [h.subscribed, hkept, and_assoc, iff_and_self]
        rintro ⟨hother, hname⟩ heq
        rw [(hempty n (heq ▸ hother)).1] at hname
        cases hname
      owned := by
        intro p hp
        obtain ⟨n, hn⟩ := Option.isSome_iff_exists.mp (h.owned hp)
        have hne : p.subscriberId ≠ id := by
          intro heq
          have hpattern := (h.patterns hn p.patternStr).mpr ⟨p, hp, rfl, rfl⟩
          rw [(hempty n (heq ▸ hn)).2] at hpattern
          cases hpattern
        dsimp only
        rw [Function.update_of_ne hne]
        exact h.owned hp
      compiled := h.compiled
      patterns := fun hother => h.patterns (hkept.mp hother).2 }

/-! ## Steps -/

theorem subscriberOf_insert (channel : Channel) (name other : String) (id : SubscriberId) :
    subscriberOf { system with channels := system.channels.insert name channel } other id =
      if other = name then channel.subscribers[id]? else system.subscriberOf other id := by
  rw [subscriberOf, lookup_insert]
  by_cases heq : other = name
  · rw [if_pos heq.symm, if_pos heq]
    rfl
  · rw [if_neg (Ne.symm heq), if_neg heq]
    rfl

theorem names_insert {channels : Std.ExtTreeMap String Channel} {channel : Channel}
    {name : String}
    (hnames : ∀ {name : String} {channel : Channel}, channels[name]? = some channel →
      channel.name = name)
    (hname : channel.name = name) {other : String} {found : Channel}
    (hfound : (channels.insert name channel)[other]? = some found) : found.name = other := by
  rw [lookup_insert] at hfound
  split at hfound
  next heq =>
    rw [← Option.some.inj hfound, hname]
    exact heq
  next => exact hnames hfound

theorem subscribers_addSubscriber (channel : Channel) (id other : SubscriberId)
    (n : SubscriberRef) :
    (channel.addSubscriber id n).subscribers[other]? =
      if other = id then some n else channel.subscribers[other]? := by
  rw [Channel.addSubscriber, lookup_insert]
  exact if_congr eq_comm rfl rfl

theorem subscribers_removeSubscriber (channel : Channel) (id other : SubscriberId) :
    (channel.removeSubscriber id).2.subscribers[other]? =
      if other = id then none else channel.subscribers[other]? := by
  by_cases hsome : channel.subscribers[id]?.isSome
  · rw [Channel.removeSubscriber, if_pos hsome, lookup_erase]
    exact if_congr eq_comm rfl rfl
  · rw [Channel.removeSubscriber, if_neg hsome]
    split
    next heq => rw [heq, ← Option.not_isSome_iff_eq_none]; exact hsome
    next => rfl

theorem name_removeSubscriber (channel : Channel) (id : SubscriberId) :
    (channel.removeSubscriber id).2.name = channel.name := by
  rw [Channel.removeSubscriber]
  split <;> rfl

theorem subscribers_getOrCreateChannel (name : String) (id : SubscriberId) :
    (system.getOrCreateChannel name).subscribers[id]? = system.subscriberOf name id := by
  rw [getOrCreateChannel, subscriberOf]
  cases system.channels[name]? with
  | none => exact Std.ExtTreeMap.getElem?_empty
  | some channel => rfl

theorem Linked.name_getOrCreateChannel (h : Linked compile system s) (name : String) :
    (system.getOrCreateChannel name).name = name := by
  rw [getOrCreateChannel]
  cases hchannel : system.channels[name]? with
  | none => rfl
  | some channel => exact h.names hchannel

theorem gone_modify {n m : Nat} {f : Inbox → Inbox} {id : SubscriberId}
    (hcurrent : s.current id = some n) (hgone : ∀ id, s.current id ≠ some m) :
    (s.modify n f).inbox m = s.inbox m := by
  refine s.inbox_modify_of_ne f fun heq => hgone id ?_
  rw [heq]
  exact hcurrent

theorem Linked.subscribe (h : Linked compile system s) (id : SubscriberId) (name : String) :
    Linked compile (system.subscribe id name) (s.subscribe id name) := by
  obtain ⟨href, hentered, hcurrent⟩ := h.enter id
  rw [PubSubSystem.subscribe, Inboxes.subscribe]
  generalize system.getOrCreateSubscriber id = entered at href hentered
  generalize s.enter id = e at href hentered hcurrent
  obtain ⟨n, system⟩ := entered
  obtain ⟨m, s⟩ := e
  obtain rfl : n = m := href
  dsimp only at hentered hcurrent ⊢
  refine { hentered with
    gone := fun {m} hgone => ?_
    names := fun hchannel => names_insert hentered.names ?_ hchannel
    subscribed := fun other id' m => ?_
    patterns := fun {id' m} hother pattern => ?_ }
  · rw [gone_modify hcurrent hgone]
    exact hentered.gone hgone
  · exact hentered.name_getOrCreateChannel name
  · rw [subscriberOf_insert, subscribers_addSubscriber, subscribers_getOrCreateChannel]
    by_cases hid : id' = id
    · subst hid
      by_cases hname : other = name
      · subst hname
        rw [if_pos rfl, if_pos rfl]
        constructor
        · intro hn
          rw [← Option.some.inj hn]
          refine ⟨hcurrent, ?_⟩
          rw [Inboxes.inbox_modify_self]
          exact Finset.mem_insert_self _ _
        · intro ⟨hm, _⟩
          exact hcurrent.symm.trans hm
      · rw [if_neg hname, hentered.subscribed]
        refine and_congr_right fun hm => ?_
        obtain rfl : n = m := Option.some.inj (hcurrent.symm.trans hm)
        rw [Inboxes.inbox_modify_self, Finset.mem_insert, or_iff_right hname]
    · have hother : s.current id' = some m ∧ other ∈ (s.inbox m).channels ↔
          s.current id' = some m ∧ other ∈ ((s.modify n fun inbox =>
            { inbox with channels := insert name inbox.channels }).inbox m).channels := by
        refine and_congr_right fun hm => ?_
        rw [Inboxes.inbox_modify_of_ne]
        intro heq
        exact hid (hentered.injective hm (heq ▸ hcurrent))
      rw [if_neg hid]
      split
      next hname =>
        subst hname
        rw [hentered.subscribed]
        exact hother
      next =>
        rw [hentered.subscribed]
        exact hother
  · rw [← hentered.patterns hother pattern]
    by_cases heq : m = n
    · rw [heq, Inboxes.inbox_modify_self]
    · rw [Inboxes.inbox_modify_of_ne _ _ heq]

theorem gone_modifyCurrent {id : SubscriberId} {m : Nat} {f : Inbox → Inbox}
    (hgone : ∀ id, s.current id ≠ some m) : (s.modifyCurrent id f).inbox m = s.inbox m := by
  rw [Inboxes.modifyCurrent]
  split
  next => rfl
  next n hcurrent => exact gone_modify hcurrent hgone

theorem Linked.inbox_modifyCurrent (h : Linked compile system s) {id other : SubscriberId}
    {f : Inbox → Inbox} {n : Nat} (hother : s.current other = some n) :
    (s.modifyCurrent id f).inbox n = if other = id then f (s.inbox n) else s.inbox n := by
  rw [Inboxes.modifyCurrent]
  by_cases hid : other = id
  · rw [if_pos hid, ← hid, hother]
    exact s.inbox_modify_self n f
  · rw [if_neg hid]
    split
    next => rfl
    next m hcurrent =>
      refine s.inbox_modify_of_ne f fun heq => hid ?_
      exact h.injective hother (heq ▸ hcurrent)

theorem Linked.drop (h : Linked compile system s) (id : SubscriberId) (f : Inbox → Inbox)
    (dropped droppedPattern : String → Prop) [DecidablePred dropped]
    {channels : Std.ExtTreeMap String Channel} {patterns : List PatternSubscription}
    (hnames : ∀ {name : String} {channel : Channel}, channels[name]? = some channel →
      channel.name = name)
    (hsubscribed : ∀ name other, subscriberOf { system with channels := channels } name other =
      if other = id ∧ dropped name then none else system.subscriberOf name other)
    (hpatterns : ∀ p, p ∈ patterns ↔ p ∈ system.patternSubscriptions ∧
      ¬(p.subscriberId = id ∧ droppedPattern p.patternStr))
    (hf : ∀ inbox name, name ∈ (f inbox).channels ↔ name ∈ inbox.channels ∧ ¬dropped name)
    (hfp : ∀ inbox pattern, pattern ∈ (f inbox).patterns ↔
      pattern ∈ inbox.patterns ∧ ¬droppedPattern pattern) :
    Linked compile { system with channels := channels, patternSubscriptions := patterns }
      (s.modifyCurrent id f) where
  created := by rw [Inboxes.created_modifyCurrent]; exact h.created
  current other := by rw [Inboxes.current_modifyCurrent]; exact h.current other
  bound hother := by
    rw [Inboxes.current_modifyCurrent] at hother
    rw [Inboxes.created_modifyCurrent]
    exact h.bound hother
  injective hown hother := by
    rw [Inboxes.current_modifyCurrent] at hown hother
    exact h.injective hown hother
  gone hgone := by
    rw [Inboxes.current_modifyCurrent] at hgone
    rw [gone_modifyCurrent hgone]
    exact h.gone hgone
  names := hnames
  subscribed name other n := by
    show subscriberOf { system with channels := channels } name other = _ ↔ _
    rw [hsubscribed, Inboxes.current_modifyCurrent]
    by_cases hdropped : other = id ∧ dropped name
    · rw [if_pos hdropped]
      refine ⟨nofun, fun ⟨hother, hname⟩ => ?_⟩
      rw [h.inbox_modifyCurrent hother, if_pos hdropped.1, hf] at hname
      exact (hname.2 hdropped.2).elim
    · rw [if_neg hdropped, h.subscribed]
      refine and_congr_right fun hother => ?_
      rw [h.inbox_modifyCurrent hother]
      split
      next hid =>
        rw [hf, and_iff_left]
        exact fun hname => hdropped ⟨hid, hname⟩
      next => rfl
  owned hp := by
    rw [Inboxes.current_modifyCurrent]
    exact h.owned ((hpatterns _).mp hp).1
  compiled hp := h.compiled ((hpatterns _).mp hp).1
  patterns := by
    intro other n hother pattern
    rw [Inboxes.current_modifyCurrent] at hother
    have hold := h.patterns hother pattern
    rw [h.inbox_modifyCurrent hother]
    split
    next hid =>
      rw [hfp, hold]
      constructor
      · intro ⟨⟨p, hp, hpid, hpattern⟩, hkept⟩
        refine ⟨p, (hpatterns p).mpr ⟨hp, fun hdropped => hkept ?_⟩, hpid, hpattern⟩
        rw [← hpattern]
        exact hdropped.2
      · intro ⟨p, hp, hpid, hpattern⟩
        have ⟨hmem, hkept⟩ := (hpatterns p).mp hp
        refine ⟨⟨p, hmem, hpid, hpattern⟩, fun hdropped => hkept ⟨hpid.trans hid, ?_⟩⟩
        rw [hpattern]
        exact hdropped
    next hid =>
      rw [hold]
      refine exists_congr fun p => ?_
      rw [hpatterns]
      constructor
      · intro ⟨hp, hpid, hpattern⟩
        exact ⟨⟨hp, fun hdropped => hid (hpid.symm.trans hdropped.1)⟩, hpid, hpattern⟩
      · intro ⟨⟨hp, _⟩, hpid, hpattern⟩
        exact ⟨hp, hpid, hpattern⟩

theorem Linked.unsubscribe (h : Linked compile system s) (id : SubscriberId) (name : String) :
    Linked compile (system.unsubscribe id name).2
      (s.modifyCurrent id fun inbox => { inbox with channels := inbox.channels.erase name }) := by
  have hpatterns (p : PatternSubscription) : p ∈ system.patternSubscriptions ↔
      p ∈ system.patternSubscriptions ∧ ¬(p.subscriberId = id ∧ False) :=
    (and_iff_left fun hdropped => hdropped.2).symm
  have hchannels (inbox : Inbox) (other : String) :
      other ∈ inbox.channels.erase name ↔ other ∈ inbox.channels ∧ ¬other = name := by
    rw [Finset.mem_erase, and_comm]
  have hkept (inbox : Inbox) (pattern : String) :
      pattern ∈ inbox.patterns ↔ pattern ∈ inbox.patterns ∧ ¬False :=
    (and_iff_left not_false).symm
  rw [PubSubSystem.unsubscribe]
  cases hchannel : system.channels[name]? with
  | none =>
    refine h.drop id _ (· = name) (fun _ => False) h.names (fun other id' => ?_) hpatterns
      hchannels hkept
    split
    next hdropped =>
      rw [subscriberOf, hdropped.2, hchannel]
      rfl
    next => rfl
  | some channel =>
    refine h.drop id _ (· = name) (fun _ => False) (fun hfound => ?_) (fun other id' => ?_)
      hpatterns hchannels hkept
    · exact names_insert h.names ((name_removeSubscriber channel id).trans (h.names hchannel))
        hfound
    · rw [subscriberOf_insert, subscribers_removeSubscriber]
      have hold : system.subscriberOf name id' = channel.subscribers[id']? := by
        rw [subscriberOf, hchannel]
        rfl
      by_cases hname : other = name
      · rw [if_pos hname, hname, hold]
        exact if_congr (and_iff_left rfl).symm rfl rfl
      · rw [if_neg hname, if_neg fun hdropped => hname hdropped.2]

theorem Linked.punsubscribe (h : Linked compile system s) (id : SubscriberId) (pattern : String) :
    Linked compile (system.punsubscribe id pattern).2
      (s.modifyCurrent id fun inbox =>
        { inbox with patterns := inbox.patterns.erase pattern }) := by
  refine h.drop id _ (fun _ => False) (· = pattern) h.names
    (fun _ _ => (if_neg fun hdropped => hdropped.2).symm) (fun p => ?_)
    (fun _ _ => (and_iff_left not_false).symm) fun _ _ => ?_
  · rw [List.mem_filter, Bool.not_eq_true', Bool.and_eq_false_iff, not_and_or, beq_eq_false_iff_ne,
      beq_eq_false_iff_ne]
  · rw [Finset.mem_erase, and_comm]

theorem Linked.removeSubscriber (h : Linked compile system s) (id : SubscriberId) :
    Linked compile (system.removeSubscriber id) (s.remove id) := by
  have hchannels (name : String) : (system.channels.map fun _ channel =>
      (channel.removeSubscriber id).2)[name]? =
        system.channels[name]?.map fun channel => (channel.removeSubscriber id).2 :=
    Std.ExtTreeMap.getElem?_map
  have hdropped : Linked compile
      { system with
        channels := system.channels.map fun _ channel => (channel.removeSubscriber id).2
        patternSubscriptions := system.patternSubscriptions.filter fun p => p.subscriberId != id }
      (s.modifyCurrent id fun inbox => { inbox with channels := ∅, patterns := ∅ }) := by
    refine h.drop id _ (fun _ => True) (fun _ => True) (fun {name channel} hfound => ?_)
      (fun name other => ?_) (fun p => ?_) (fun _ _ => ?_) fun _ _ => ?_
    · rw [hchannels] at hfound
      obtain ⟨old, hold, rfl⟩ := Option.map_eq_some_iff.mp hfound
      exact (name_removeSubscriber old id).trans (h.names hold)
    · rw [subscriberOf, subscriberOf, hchannels]
      cases system.channels[name]? with
      | none => exact (ite_self none).symm
      | some channel =>
        show (channel.removeSubscriber id).2.subscribers[other]? = _
        rw [subscribers_removeSubscriber]
        exact if_congr (and_iff_left trivial).symm rfl rfl
    · rw [List.mem_filter, bne_iff_ne, and_iff_left trivial]
    · exact ⟨nofun, fun hmem => (hmem.2 trivial).elim⟩
    · exact ⟨nofun, fun hmem => (hmem.2 trivial).elim⟩
  have hforgotten := hdropped.forget fun n (hn : _ = some n) => by
    rw [Inboxes.current_modifyCurrent] at hn
    rw [h.inbox_modifyCurrent hn, if_pos rfl]
    exact ⟨rfl, rfl⟩
  rw [Inboxes.current_modifyCurrent] at hforgotten
  exact hforgotten

theorem Linked.psubscribe {regexNew : String → Option (String → Bool)}
    (h : Linked (compilePattern regexNew) system s) (id : SubscriberId) (pattern : String) :
    Linked (compilePattern regexNew) (system.psubscribe regexNew id pattern).2
      (s.psubscribe (compilePattern regexNew) id pattern) := by
  obtain ⟨href, hentered, hcurrent⟩ := h.enter id
  rw [PubSubSystem.psubscribe, Inboxes.psubscribe, PatternSubscription.new]
  generalize system.getOrCreateSubscriber id = entered at href hentered
  generalize s.enter id = e at href hentered hcurrent
  obtain ⟨n, system⟩ := entered
  obtain ⟨m, s⟩ := e
  obtain rfl : n = m := href
  dsimp only at hentered hcurrent ⊢
  rw [compilePattern]
  cases hregex : regexNew (PatternSubscription.regexPattern pattern) with
  | none => exact hentered
  | some regex =>
    dsimp only
    refine { hentered with
      gone := fun {m} hgone => ?_
      subscribed := fun name other m => ?_
      owned := fun {p} hp => ?_
      compiled := fun {p} hp => ?_
      patterns := fun {other m} hm p => ?_ }
    · rw [gone_modify hcurrent hgone]
      exact hentered.gone hgone
    · refine (hentered.subscribed name other m).trans (and_congr_right fun hm => ?_)
      by_cases heq : m = n
      · rw [heq, Inboxes.inbox_modify_self]
      · rw [Inboxes.inbox_modify_of_ne _ _ heq]
    · rcases List.mem_append.mp hp with hp | hp
      · exact hentered.owned hp
      · rw [List.mem_singleton.mp hp]
        show (s.current id).isSome
        rw [hcurrent]
        rfl
    · rcases List.mem_append.mp hp with hp | hp
      · exact hentered.compiled hp
      · rw [List.mem_singleton.mp hp]
        exact hregex
    · have hold := hentered.patterns hm p
      constructor
      · intro hmem
        by_cases heq : m = n
        · rw [heq, Inboxes.inbox_modify_self, Finset.mem_insert] at hmem
          rcases hmem with rfl | hmem
          · exact ⟨_, List.mem_append_right _ List.mem_cons_self,
              hentered.injective hcurrent (heq ▸ hm), rfl⟩
          · obtain ⟨q, hq, hown⟩ := hold.mp (heq ▸ hmem)
            exact ⟨q, List.mem_append_left _ hq, hown⟩
        · rw [Inboxes.inbox_modify_of_ne _ _ heq] at hmem
          obtain ⟨q, hq, hown⟩ := hold.mp hmem
          exact ⟨q, List.mem_append_left _ hq, hown⟩
      · intro ⟨q, hq, hid, hp⟩
        rcases List.mem_append.mp hq with hq | hq
        · have hmem := hold.mpr ⟨q, hq, hid, hp⟩
          by_cases heq : m = n
          · rw [heq, Inboxes.inbox_modify_self, Finset.mem_insert]
            exact .inr (heq ▸ hmem)
          · rw [Inboxes.inbox_modify_of_ne _ _ heq]
            exact hmem
        · rw [List.mem_singleton] at hq
          subst hq
          obtain rfl : m = n := Option.some.inj ((hm.symm.trans (hid ▸ rfl)).trans hcurrent)
          rw [Inboxes.inbox_modify_self]
          exact hp ▸ Finset.mem_insert_self _ _

/-- What the subscriptions do not look at may change. -/
theorem Linked.of_eq {system' : PubSubSystem} {s' : Inboxes} (h : Linked compile system s)
    (hallocated : system'.allocated = system.allocated)
    (hsubscribers : system'.subscribers = system.subscribers)
    (hpatterns : system'.patternSubscriptions = system.patternSubscriptions)
    (hnames : ∀ {name : String} {channel : Channel}, system'.channels[name]? = some channel →
      channel.name = name)
    (hsubscriberOf : ∀ name id, system'.subscriberOf name id = system.subscriberOf name id)
    (hcurrent : s'.current = s.current) (hcreated : s'.created = s.created)
    (hinbox : ∀ n, (s'.inbox n).channels = (s.inbox n).channels ∧
      (s'.inbox n).patterns = (s.inbox n).patterns) : Linked compile system' s' where
  created := by rw [hallocated, hcreated, h.created]
  current id := by rw [hsubscribers, hcurrent, h.current]
  bound hid := by
    rw [hcurrent] at hid
    rw [hcreated]
    exact h.bound hid
  injective hid hother := by
    rw [hcurrent] at hid hother
    exact h.injective hid hother
  gone hgone := by
    rw [hcurrent] at hgone
    rw [(hinbox _).1, (hinbox _).2]
    exact h.gone hgone
  names := hnames
  subscribed name id n := by
    rw [hsubscriberOf, hcurrent, (hinbox n).1]
    exact h.subscribed name id n
  owned hp := by
    rw [hpatterns] at hp
    rw [hcurrent]
    exact h.owned hp
  compiled hp := by
    rw [hpatterns] at hp
    exact h.compiled hp
  patterns hid pattern := by
    rw [hcurrent] at hid
    rw [(hinbox _).2, hpatterns]
    exact h.patterns hid pattern

theorem Linked.publish (h : Linked compile system s) (config : PubSubConfig) (name : String)
    (payload : Bytes) (now patternNow : UInt64) (hconfig : system.config = config) :
    Linked compile (system.publish name payload now patternNow).2
      (s.publish compile config name payload) := by
  subst hconfig
  rw [PubSubSystem.publish, Inboxes.publish]
  split
  next => exact h
  next =>
      rw [publishToChannel]
      cases hchannel : system.channels[name]? with
      | none => exact h.of_eq rfl rfl rfl h.names (fun _ _ => rfl) rfl rfl fun _ => ⟨rfl, rfl⟩
      | some channel =>
        refine h.of_eq rfl rfl rfl (fun hfound => ?_) (fun other id => ?_) rfl rfl
          fun _ => ⟨rfl, rfl⟩
        · refine names_insert h.names ?_ hfound
          show channel.name = name
          exact h.names hchannel
        · refine (subscriberOf_insert _ name other id).trans ?_
          split
          next hname =>
            rw [hname, subscriberOf, hchannel]
            rfl
          next => rfl

theorem Linked.getNextMessage (h : Linked compile system s) (n : SubscriberRef) :
    Linked compile (system.getNextMessage n).2 (s.modify n Inbox.consume) := by
  refine h.of_eq rfl rfl rfl h.names (fun _ _ => rfl) rfl rfl fun m => ?_
  by_cases heq : m = n
  · rw [heq, Inboxes.inbox_modify_self]
    exact ⟨rfl, rfl⟩
  · rw [Inboxes.inbox_modify_of_ne _ _ heq]
    exact ⟨rfl, rfl⟩

/-! ## The recipients of a publication -/

/-- A channel reaches each of its subscribers once. -/
theorem Linked.count_channelRecipients (h : Linked compile system s) (name : String) (n : Nat) :
    (system.channelRecipients name).count n = if name ∈ (s.inbox n).channels then 1 else 0 := by
  have hcurrent (hname : name ∈ (s.inbox n).channels) : ∃ id, s.current id = some n := by
    by_contra hnone
    rw [(h.gone fun id hid => hnone ⟨id, hid⟩).1] at hname
    cases hname
  rw [channelRecipients]
  cases hchannel : system.channels[name]? with
  | none =>
    rw [if_neg]
    · rfl
    · intro hname
      obtain ⟨id, hid⟩ := hcurrent hname
      have hsome := (h.subscribed name id n).mpr ⟨hid, hname⟩
      rw [subscriberOf, hchannel] at hsome
      cases hsome
  | some channel =>
    have hmem (id : SubscriberId) (m : Nat) : (id, m) ∈ channel.subscribers.toList ↔
        s.current id = some m ∧ name ∈ (s.inbox m).channels := by
      rw [Std.ExtTreeMap.mem_toList_iff_getElem?_eq_some, ← h.subscribed, subscriberOf, hchannel]
      rfl
    have hnodup : (channel.subscribers.toList.map Prod.snd).Nodup := by
      refine List.Nodup.map_on (fun x hx y hy heq => ?_) ?_
      · obtain ⟨id, m⟩ := x
        obtain ⟨other, m'⟩ := y
        obtain rfl : m = m' := heq
        rw [h.injective ((hmem _ _).mp hx).1 ((hmem _ _).mp hy).1]
      · refine channel.subscribers.distinct_keys_toList.imp fun hne heq => hne ?_
        rw [heq]
        exact Std.compare_eq_iff_eq.mpr rfl
    dsimp only
    rw [hnodup.count]
    refine if_congr ?_ rfl rfl
    rw [List.mem_map]
    constructor
    · intro ⟨⟨id, m⟩, hm, heq⟩
      obtain rfl : m = n := heq
      exact ((hmem id m).mp hm).2
    · intro hname
      obtain ⟨id, hid⟩ := hcurrent hname
      exact ⟨(id, n), (hmem id n).mpr ⟨hid, hname⟩, rfl⟩

theorem Linked.count_patternRecipients (h : Linked compile system s) {name : String}
    (hdistinct : ((system.patternSubscriptions.filter fun p => p.matchesChannel name).map
      fun p => (p.subscriberId, p.patternStr)).Nodup) (n : Nat) :
    (system.patternRecipients name).count n =
      ((s.inbox n).patterns.filter fun p => (compile p).any fun m => m name).card := by
  have hreaches (p : PatternSubscription) :
      (system.subscribers[p.subscriberId]?.map fun m => m == n).getD false =
        decide (s.current p.subscriberId = some n) := by
    rw [h.current]
    cases s.current p.subscriberId with
    | none => rfl
    | some m =>
      show decide (m = n) = decide (some m = some n)
      exact decide_eq_decide.mpr Option.some_inj.symm
  rw [patternRecipients, List.count, List.countP_filterMap]
  simp only [hreaches]
  rw [List.countP_eq_length_filter]
  by_cases hcurrent : ∃ id, s.current id = some n
  · obtain ⟨id, hid⟩ := hcurrent
    have hown (p : PatternSubscription) : s.current p.subscriberId = some n ↔
        p.subscriberId = id :=
      ⟨fun hp => h.injective hp hid, fun hp => hp ▸ hid⟩
    have hnodup := hdistinct.sublist ((List.filter_sublist
      (p := fun p => decide (s.current p.subscriberId = some n))).map _)
    generalize hown' : List.filter (fun p => decide (s.current p.subscriberId = some n))
      (system.patternSubscriptions.filter fun p => p.matchesChannel name) = own at hnodup ⊢
    have hmem (p : PatternSubscription) : p ∈ own ↔
        p ∈ system.patternSubscriptions ∧ p.pattern name ∧ p.subscriberId = id := by
      rw [← hown', List.mem_filter, List.mem_filter, decide_eq_true_iff, hown, and_assoc]
      rfl
    have hpair : own.map (fun p => (p.subscriberId, p.patternStr)) =
        (own.map fun p => p.patternStr).map fun pattern => (id, pattern) := by
      rw [List.map_map]
      refine List.map_congr_left fun p hp => ?_
      show (p.subscriberId, p.patternStr) = (id, p.patternStr)
      rw [((hmem p).mp hp).2.2]
    rw [hpair] at hnodup
    rw [← List.length_map (fun p => p.patternStr), ← List.toFinset_card_of_nodup hnodup.of_map]
    congr 1
    ext pattern
    rw [List.mem_toFinset, List.mem_map, Finset.mem_filter, h.patterns hid]
    constructor
    · intro ⟨p, hp, heq⟩
      have ⟨hsub, hmatch, hpid⟩ := (hmem p).mp hp
      rw [← heq, h.compiled hsub]
      exact ⟨⟨p, hsub, hpid, rfl⟩, hmatch⟩
    · intro ⟨⟨p, hp, hpid, hpattern⟩, hmatch⟩
      rw [← hpattern, h.compiled hp] at hmatch
      exact ⟨p, (hmem p).mpr ⟨hp, hmatch, hpid⟩, hpattern⟩
  · have hnone : ∀ id, s.current id ≠ some n := fun id hid => hcurrent ⟨id, hid⟩
    rw [(h.gone hnone).2, Finset.filter_empty, Finset.card_empty, List.length_eq_zero_iff,
      List.filter_eq_nil_iff]
    intro p _ hp
    exact hnone _ (of_decide_eq_true hp)

end PubSubSystem

end VedDb
