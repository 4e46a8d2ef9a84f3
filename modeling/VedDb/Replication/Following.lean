import VedDb.Replication.Broadcast
import VedDb.Replication.Discipline
import VedDb.Replication.Synchronised

/-!
# A slave behind its master

The stream of a master from its broadcasts to the store of a slave: the entries go through the
channel and the task of the slave, over its socket, and through `handle_replication_stream`.  What a
slave that was brought up to the messages broadcast before it joined has applied at any moment are
the first entries of the history, and all that were broadcast once everything has arrived.
-/

namespace VedDb

open LittleEndian (Bytes)

/-! ## Bytes that arrive -/

namespace Connection

variable {json : MessageJson}

/-- Bytes arrive and are read, and no receive is dropped. -/
def Reads : ConnectionEvent → Prop
  | .arrive _ | .poll => True
  | .send _ | .cancel => False

def reading (messages : List ReplicationMessage) (bytes : Bytes) : Connection :=
  { sent := messages, wire := bytes
    receiver := { arrived := [], taken := [], received := [], failed := none } }

-- A receiver cannot tell whether more bytes are on their way than those that arrive.
theorem exists_run_extended {short long : Connection} (hreceiver : short.receiver = long.receiver)
    (hwire : short.wire <+: long.wire) {events : List ConnectionEvent}
    (hevents : ∀ event ∈ events, Reads event) :
    ∃ others, (∀ event ∈ others, Reads event) ∧
      (short.run json events).receiver = (long.run json others).receiver := by
  induction events generalizing short long with
  | nil => exact ⟨[], fun _ hmem => absurd hmem List.not_mem_nil, hreceiver⟩
  | cons event events ih =>
    have hrest := fun other hother => hevents other (List.mem_cons_of_mem event hother)
    cases event with
    | arrive count =>
      -- no more bytes than the shorter stream has
      obtain ⟨more, hmore⟩ := hwire
      have htake : long.wire.take (min count short.wire.length) = short.wire.take count := by
        rw [← hmore, List.take_append_of_le_length (Nat.min_le_right _ _)]
        exact List.take_eq_take_min.symm
      have hdrop : short.wire.drop count <+:
          long.wire.drop (min count short.wire.length) := by
        rw [← hmore, List.drop_append_of_le_length (Nat.min_le_right _ _)]
        by_cases hcount : count ≤ short.wire.length
        · rw [Nat.min_eq_left hcount]
          exact List.prefix_append _ _
        · rw [List.drop_of_length_le (Nat.le_of_not_le hcount)]
          exact List.nil_prefix
      obtain ⟨others, hothers, hsame⟩ := @ih (short.step json (.arrive count))
        (long.step json (.arrive (min count short.wire.length)))
        (by simp only [step, htake, hreceiver]) hdrop hrest
      refine ⟨.arrive (min count short.wire.length) :: others, ?_, hsame⟩
      intro other hother
      rcases List.mem_cons.mp hother with rfl | hmem
      · trivial
      · exact hothers other hmem
    | poll =>
      obtain ⟨others, hothers, hsame⟩ := @ih (short.step json .poll) (long.step json .poll)
        (by simp only [step, hreceiver]) hwire hrest
      refine ⟨.poll :: others, ?_, hsame⟩
      intro other hother
      rcases List.mem_cons.mp hother with rfl | hmem
      · trivial
      · exact hothers other hmem
    | send message => exact (hevents _ List.mem_cons_self).elim
    | cancel => exact (hevents _ List.mem_cons_self).elim

theorem wireBytes_of_delivers {message : ReplicationMessage} (h : json.Delivers message) :
    ∃ o : Outstanding json, o.message = message ∧
      message.wireBytes json = Framing.frame o.body := by
  obtain ⟨bytes, hto, hsize, hfrom⟩ := h
  refine ⟨⟨message, bytes, hsize, ?_⟩, rfl, ?_⟩
  · simp only [ReplicationMessage.fromBytes, hfrom]
  · simp only [ReplicationMessage.wireBytes, sendMessage_of_toVec hto]

theorem framed_of_delivers {messages : List ReplicationMessage}
    (h : ∀ message ∈ messages, json.Delivers message) :
    ∃ outstanding, Framed json
      (reading messages (messages.flatMap (ReplicationMessage.wireBytes json))) outstanding := by
  have hlist : ∃ outstanding : List (Outstanding json),
      outstanding.map Outstanding.message = messages ∧
        messages.flatMap (ReplicationMessage.wireBytes json) =
          outstanding.flatMap fun o => Framing.frame o.body := by
    induction messages with
    | nil => exact ⟨[], rfl, rfl⟩
    | cons message messages ih =>
      obtain ⟨outstanding, hmap, hframes⟩ :=
        ih fun other hother => h other (List.mem_cons_of_mem _ hother)
      obtain ⟨o, hmessage, hbytes⟩ := wireBytes_of_delivers (h message List.mem_cons_self)
      refine ⟨o :: outstanding, ?_, ?_⟩
      · rw [List.map_cons, hmap, hmessage]
      · rw [List.flatMap_cons, List.flatMap_cons, hframes, hbytes]
  obtain ⟨outstanding, hmap, hframes⟩ := hlist
  refine ⟨outstanding, rfl, hmap.symm, hframes, ?_⟩
  intro o _
  show (0 : Nat) < 4 + o.body.length
  omega

theorem undisturbed_of_reads {c : Connection} {events : List ConnectionEvent}
    (hevents : ∀ event ∈ events, Reads event) :
    MeetsAlong (step json) (Undisturbed json) c events := by
  refine meetsAlong_of_forall fun c event hevent => ?_
  have hreads := hevents event hevent
  cases event with
  | arrive count => trivial
  | poll => trivial
  | send message => exact hreads.elim
  | cancel => exact hreads.elim

theorem run_sent_of_reads {c : Connection} {events : List ConnectionEvent}
    (hevents : ∀ event ∈ events, Reads event) : (c.run json events).sent = c.sent := by
  induction events generalizing c with
  | nil => rfl
  | cons event events ih =>
    have hone : (c.step json event).sent = c.sent := by
      have hreads := hevents event List.mem_cons_self
      cases event with
      | arrive count => rfl
      | poll => rfl
      | send message => exact hreads.elim
      | cancel => rfl
    have hrest := @ih (c.step json event) fun other hother =>
      hevents other (List.mem_cons_of_mem _ hother)
    exact hrest.trans hone

theorem received_prefix {sent messages : List ReplicationMessage} {bytes : Bytes}
    (hdelivers : ∀ message ∈ messages, json.Delivers message)
    (hbytes : bytes <+: messages.flatMap (ReplicationMessage.wireBytes json))
    {events : List ConnectionEvent} (hevents : ∀ event ∈ events, Reads event) :
    ((reading sent bytes).run json events).receiver.failed = none ∧
      ((reading sent bytes).run json events).receiver.received <+: messages := by
  obtain ⟨outstanding, hframed⟩ := framed_of_delivers hdelivers
  obtain ⟨others, hothers, hreceiver⟩ := @exists_run_extended json (reading sent bytes)
    (reading messages (messages.flatMap (ReplicationMessage.wireBytes json))) rfl hbytes events
    hevents
  obtain ⟨left, hleft⟩ := hframed.run (undisturbed_of_reads hothers)
  have hdeliver := hleft.delivers
  have horder := hdeliver.received_in_order
  rw [run_sent_of_reads hothers] at horder
  rw [hreceiver]
  exact ⟨hdeliver.failed_eq, horder⟩

theorem received_all {messages : List ReplicationMessage} {bytes : Bytes}
    (hdelivers : ∀ message ∈ messages, json.Delivers message)
    (hbytes : bytes = messages.flatMap (ReplicationMessage.wireBytes json))
    {events : List ConnectionEvent} (hevents : ∀ event ∈ events, Reads event)
    (hwire : ((reading messages bytes).run json events).wire = [])
    (harrived : ((reading messages bytes).run json events).receiver.arrived = []) :
    ((reading messages bytes).run json events).receiver.received = messages := by
  obtain ⟨outstanding, hframed⟩ := framed_of_delivers hdelivers
  rw [← hbytes] at hframed
  obtain ⟨left, hleft⟩ := hframed.run (undisturbed_of_reads hevents)
  rw [hleft.delivers.received_eq hwire harrived, run_sent_of_reads hevents]
  rfl

end Connection

/-! ## Broadcasts -/

/-- The entries a slave applies of a message in its stream. -/
def ReplicationMessage.entries : ReplicationMessage → List WalEntry
  | .incrementalSync entries => entries
  | _ => []

/-! ## The store of the slave -/

variable {C : Type}

/-- The slave handles the message at some instant. -/
def SlaveEvent.Carries (event : SlaveEvent) (message : ReplicationMessage) : Prop :=
  ∃ now, event = .message now message

theorem batchApplies_append {env : ReplicationEnv C} {layer : PersistentLayer}
    {entries more : List WalEntry} :
    BatchApplies env layer (entries ++ more) ↔
      BatchApplies env layer entries ∧ BatchApplies env (layerAfter env layer entries) more :=
  meetsAlong_append

section

variable {env : ReplicationEnv C} {history : List WalEntry} {s : Slave C}

structure Slave.At (env : ReplicationEnv C) (history : List WalEntry) (s : Slave C)
    (layer : PersistentLayer) (applied : List WalEntry) : Prop where
  streaming : s.streaming = true
  stores : s.manager.Stores layer
  hasApplied : s.manager.HasApplied env history applied

-- One broadcast, of which the entries are the next of the history.
theorem Slave.At.broadcast (hincreasing : history.Pairwise fun a b => a.sequence < b.sequence)
    {layer : PersistentLayer} {applied : List WalEntry} (h : s.At env history layer applied)
    {message : ReplicationMessage} (hmessage : message.IsBroadcast)
    (hnext : applied ++ message.entries <+: history)
    (happlies : BatchApplies env layer message.entries) (now : DateTime) :
    (s.step env (.message now message)).At env history (layerAfter env layer message.entries)
        (applied ++ message.entries) ∧
      s.manager.currentSequence ≤ (s.step env (.message now message)).manager.currentSequence := by
  cases hmessage with
  | sync time =>
    have hstep : s.step env (.message now (.heartbeat time 0)) = s := by
      simp only [Slave.step, h.streaming, if_true, SyncManager.handleStreamMessage]
      rw [← h.streaming]
    rw [hstep]
    show s.At env history layer (applied ++ []) ∧ _
    rw [List.append_nil]
    exact ⟨h, Nat.le_refl _⟩
  | entry entry =>
    obtain ⟨hhas, hle⟩ := h.hasApplied.batch hincreasing h.stores hnext happlies now
    rcases @SyncManager.applyIncrementalSync_cases C env now s.manager layer h.stores [entry] with
      ⟨-, m, happly, hstores, -⟩ | ⟨hnot, -⟩
    · have hstep : s.step env (.message now (.incrementalSync [entry])) =
          { manager := m, streaming := true } := by
        rw [Slave.step_incrementalSync, happly]
      rw [hstep]
      rw [show (ReplicationMessage.incrementalSync [entry]).entries = [entry] from rfl] at hhas hle
      rw [happly] at hhas hle
      exact ⟨⟨rfl, hstores, hhas⟩, hle⟩
    · exact absurd happlies hnot

theorem Slave.At.broadcasts (hincreasing : history.Pairwise fun a b => a.sequence < b.sequence)
    {layer : PersistentLayer} {applied : List WalEntry} (h : s.At env history layer applied)
    {messages : List ReplicationMessage} (hmessages : ∀ message ∈ messages, message.IsBroadcast)
    (hnext : applied ++ messages.flatMap ReplicationMessage.entries <+: history)
    (happlies : BatchApplies env layer (messages.flatMap ReplicationMessage.entries))
    {events : List SlaveEvent} (hevents : List.Forall₂ SlaveEvent.Carries events messages) :
    (s.run env events).At env history
        (layerAfter env layer (messages.flatMap ReplicationMessage.entries))
        (applied ++ messages.flatMap ReplicationMessage.entries) ∧
      s.manager.currentSequence ≤ (s.run env events).manager.currentSequence := by
  induction hevents generalizing s layer applied with
  | nil =>
    rw [List.flatMap_nil, List.append_nil]
    exact ⟨h, Nat.le_refl _⟩
  | @cons event message events messages hcarries _ ih =>
    obtain ⟨now, rfl⟩ := hcarries
    rw [List.flatMap_cons] at hnext happlies ⊢
    rw [← List.append_assoc] at hnext ⊢
    obtain ⟨hfirst, hrest⟩ := batchApplies_append.mp happlies
    obtain ⟨hone, hle⟩ := h.broadcast hincreasing (hmessages message List.mem_cons_self)
      ((List.prefix_append _ _).trans hnext) hfirst now
    obtain ⟨hall, hle'⟩ := ih hone
      (fun other hother => hmessages other (List.mem_cons_of_mem _ hother)) hnext hrest
    refine ⟨?_, Nat.le_trans hle hle'⟩
    have hlayer : layerAfter env (layerAfter env layer message.entries)
        (messages.flatMap ReplicationMessage.entries) =
        layerAfter env layer (message.entries ++ messages.flatMap ReplicationMessage.entries) :=
      (List.foldl_append).symm
    rw [← hlayer]
    exact hall

-- The beginning of a batch that applies, applies.
theorem batchApplies_shortened {layer : PersistentLayer} {entries all : List WalEntry}
    (h : BatchApplies env layer all) (hentries : entries <+: all) :
    BatchApplies env layer entries := by
  obtain ⟨rest, rfl⟩ := hentries
  exact (batchApplies_append.mp h).1

/-- A slave reads the bytes on its socket as they arrive, and handles each message it decodes.
Where the synchronisation brought it to the point at which its stream begins, it has at any moment
applied the first entries of the history, its sequence has not decreased, and it has applied every
entry that was broadcast once its task has nothing left to write and it nothing left to read. -/
theorem ReplicationManager.slave_follows {json : MessageJson} {isMaster : Bool} {maxSlaves : Nat}
    {ops : List ReplicationOp} {place : Nat} {task : SlaveTask} {layer : PersistentLayer}
    {applied : List WalEntry} {stream : List ReplicationMessage} {reads : List ConnectionEvent}
    {events : List SlaveEvent} (hincreasing : history.Pairwise fun a b => a.sequence < b.sequence)
    (htask : ((new isMaster maxSlaves).run json ops).tasks[place]? = some task)
    (hstream : ((new isMaster maxSlaves).run json ops).broadcasts.drop task.joined = stream)
    (hdelivers : ∀ message ∈ stream, json.Delivers message)
    (hslave : s.At env history layer applied)
    (hnext : applied ++ stream.flatMap ReplicationMessage.entries <+: history)
    (happlies : BatchApplies env layer (stream.flatMap ReplicationMessage.entries))
    (hreads : ∀ event ∈ reads, Connection.Reads event)
    (hevents : List.Forall₂ SlaveEvent.Carries events
      ((Connection.reading task.written task.socket).run json reads).receiver.received) :
    ∃ entries layer', entries <+: stream.flatMap ReplicationMessage.entries ∧
      (s.run env events).At env history layer' (applied ++ entries) ∧
      s.manager.currentSequence ≤ (s.run env events).manager.currentSequence ∧
      (place ∈ ((new isMaster maxSlaves).run json ops).places → task.phase = .running →
        task.queue = [] →
        ((Connection.reading task.written task.socket).run json reads).wire = [] →
        ((Connection.reading task.written task.socket).run json reads).receiver.arrived = [] →
        entries = stream.flatMap ReplicationMessage.entries) := by
  have hstreams := @streams_run json isMaster maxSlaves ops
  have hfollows := hstreams.attached.follows place task htask
  have hsocket := hfollows.socket_prefix
  rw [hstream] at hsocket
  obtain ⟨-, horder⟩ := @Connection.received_prefix json task.written stream task.socket hdelivers
    hsocket reads hreads
  have hentries := horder.flatMap ReplicationMessage.entries
  have hbroadcasts (message : ReplicationMessage) (hmessage : message ∈ stream) :
      message.IsBroadcast := by
    rw [← hstream] at hmessage
    exact hstreams.broadcasts message (List.mem_of_mem_drop hmessage)
  obtain ⟨hat, hle⟩ := hslave.broadcasts hincreasing
    (fun message hmessage => hbroadcasts message (horder.subset hmessage))
    (((List.prefix_append_right_inj applied).mpr hentries).trans hnext)
    (batchApplies_shortened happlies hentries) hevents
  refine ⟨_, _, hentries, hat, hle, ?_⟩
  intro hplace hrunning hqueue hwire harrived
  have hcomplete := hfollows.complete hrunning (List.contains_iff_mem.mpr hplace)
  have hwritten : task.written = stream := by
    rw [← hstream, ← hcomplete, hqueue, List.append_nil]
  rw [Connection.received_all (hwritten ▸ hdelivers) (hfollows.socket_running hrunning) hreads hwire
    harrived, hwritten]

end

/-! ## A small run -/

def twoDrops : List ReplicationOp :=
  [.start, .slaveJoins "slave-10.0.0.2:50000-0" "10.0.0.2:50000",
    .broadcastWalEntry (droppedUsers 1), .broadcastWalEntry (droppedUsers 2),
    .task 0 (.send none), .task 0 (.send none)]

def twoDropsTask : SlaveTask :=
  ((ReplicationManager.new true 10).run Handshake.smallMessages twoDrops).tasks[0]?.getD (.spawn 0)

/-- The slave reads all of it: a part of the first frame, the rest with a part of the second, and
the rest. -/
def twoDropsReads : List ConnectionEvent :=
  [.arrive 7, .poll, .arrive 200, .poll, .arrive 1000, .poll]

def twoDropsReceived : List ReplicationMessage :=
  ((Connection.reading twoDropsTask.written twoDropsTask.socket).run Handshake.smallMessages
    twoDropsReads).receiver.received

theorem smallMessages_delivers_batch {sequence : Nat} (hseq : sequence < 2 ^ 64) :
    Handshake.smallMessages.Delivers (.incrementalSync [droppedUsers sequence]) := by
  obtain ⟨json, hto, -⟩ := dropCodec_roundTrips sequence
  have hbytes : Handshake.smallMessages.toVec (.incrementalSync [droppedUsers sequence]) =
      .ok (Handshake.batchHead ++ json ++ utf8 "]\x7d\x7d") := by
    simp only [Handshake.smallMessages, hto]
  exact ⟨_, hbytes, Handshake.smallMessages_batch_size hseq hbytes,
    (Handshake.smallMessages_carries hseq).decodes _ hbytes⟩

theorem ReplicationManager.slave_follows_twoDrops :
    ∃ layer, (({ freshSlave with streaming := true } : Slave Unit).run epochReplication
      (twoDropsReceived.map (.message 0))).At epochReplication [droppedUsers 1, droppedUsers 2]
        layer [droppedUsers 1, droppedUsers 2] := by
  have hempty : freshSlave.manager.Stores .empty :=
    ⟨_, rfl, HybridStorageEngine.plain_new () .empty, rfl⟩
  obtain ⟨entries, layer, -, hat, -, hall⟩ := @ReplicationManager.slave_follows Unit
    epochReplication [droppedUsers 1, droppedUsers 2] { freshSlave with streaming := true }
    Handshake.smallMessages true 10 twoDrops 0 twoDropsTask .empty []
    [.incrementalSync [droppedUsers 1], .incrementalSync [droppedUsers 2]] twoDropsReads
    (twoDropsReceived.map (.message 0)) (by simp [droppedUsers]) rfl rfl
    (fun message hmessage => by
      rcases List.mem_pair.mp hmessage with rfl | rfl
      · exact smallMessages_delivers_batch (by decide)
      · exact smallMessages_delivers_batch (by decide))
    ⟨rfl, hempty, .inr ⟨rfl, rfl⟩, .empty, hempty, fun _ _ => rfl⟩
    (List.prefix_refl _)
    ⟨⟨dropCodec_sealed 1, trivial⟩, ⟨dropCodec_sealed 2, trivial⟩, trivial⟩
    (fun event hevent => by
      simp only [twoDropsReads, List.mem_cons, List.not_mem_nil, or_false] at hevent
      rcases hevent with rfl | rfl | rfl | rfl | rfl | rfl <;> trivial)
    (List.forall₂_map_left_iff.mpr (List.forall₂_same.mpr fun message _ => ⟨0, rfl⟩))
  have hentries := hall (by decide +kernel) rfl rfl (by decide +kernel) (by decide +kernel)
  rw [hentries] at hat
  exact ⟨layer, hat⟩

end VedDb
