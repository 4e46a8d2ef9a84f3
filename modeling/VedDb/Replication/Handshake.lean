import VedDb.Replication.Connection
import VedDb.Replication.Slave

/-!
# The synchronisation handshake

`handle_new_slave` of a master and `connect_to_master` of a slave, with the messages between them:
the request of the slave, the reply of the master and the acknowledgment.  A master that finds no
entry to send replies nothing, while the slave waits for a reply.
-/

namespace VedDb

open LittleEndian
open Framing (frame)

/-- The messages of `ReplicationError`. -/
def ReplicationError.message : ReplicationError → String
  | .ioError .unexpectedEof => "IO error: failed to fill whole buffer"
  | .ioError .invalidData => "IO error: invalid data"
  | .ioError .other => "IO error: other error"
  | .serializationError message => "Serialization error: " ++ message
  | .deserializationError message => "Deserialization error: " ++ message
  | .connectionError message => "Connection error: " ++ message
  | .protocolError message => "Protocol error: " ++ message
  | .timeout => "Timeout error"
  | .invalidMessageType message => "Invalid message type: " ++ message
  | .slaveLimit max => "Slave limit exceeded: max " ++ toString max
  | .notMaster => "Not a master node"
  | .notSlave => "Not a slave node"
  | .notConfigured => "Replication not configured"
  | .snapshotError message => "Snapshot error: " ++ message
  | .walError message => "WAL error: " ++ message
  | .storageError message => "Storage error: " ++ message

/-- Where `handle_new_slave` stands. -/
inductive MasterPhase where
  | awaitingRequest
  | awaitingFullSyncAck
  | awaitingIncrementalAck
  | streaming
  | failed (e : ReplicationError)
  | crashed
  deriving DecidableEq

/-- Where `connect_to_master` stands. -/
inductive SlavePhase where
  | connecting
  | awaitingResponse
  | streaming
  | failed (e : ReplicationError)
  deriving DecidableEq

structure Handshake (C : Type) where
  master : SyncManager C
  masterPhase : MasterPhase
  slave : SyncManager C
  slavePhase : SlavePhase
  toMaster : List Bytes
  toSlave : List Bytes
  sent : List ReplicationMessage

inductive HandshakeEvent where
  | connect
  | masterReceives
  | slaveReceives

/-- What a handshake runs on: the name of the slave, the slots of the master's
`SlaveConnectionManager` and the instants at which the two sides look at the clock. -/
structure HandshakeEnv (C : Type) where
  replication : ReplicationEnv C
  json : MessageJson
  slaveId : String
  slaveCount : Nat
  maxSlaves : Nat
  made : DateTime
  applied : DateTime

namespace Handshake

variable {C : Type} (env : HandshakeEnv C)

def start (master slave : SyncManager C) : Handshake C :=
  { master := master, masterPhase := .awaitingRequest, slave := slave, slavePhase := .connecting,
    toMaster := [], toSlave := [], sent := [] }

/-- `connect_to_master` up to its receive. -/
def connect (h : Handshake C) : Handshake C :=
  match h.slavePhase with
  | .connecting =>
    match sendMessage env.json (.syncRequest h.slave.currentSequence env.slaveId) with
    | .error e => { h with slavePhase := .failed e }
    | .ok bytes =>
      { h with slavePhase := .awaitingResponse, toMaster := h.toMaster ++ [bytes] }
  | _ => h

/-! ## The master -/

/-- `connection.send_message(&reply).await?`, and where the master stands then. -/
def sendReply (h : Handshake C) (reply : ReplicationMessage) (next : MasterPhase) : Handshake C :=
  match sendMessage env.json reply with
  | .error e => { h with masterPhase := .failed e }
  | .ok bytes =>
    { h with masterPhase := next, toSlave := h.toSlave ++ [bytes], sent := h.sent ++ [reply] }

/-- `add_slave`, and the streaming behind it. -/
def addSlave : MasterPhase :=
  if env.maxSlaves ≤ env.slaveCount then .failed (.slaveLimit env.maxSlaves) else .streaming

/-- `handle_new_slave` behind its first receive: the request, the choice between the two kinds of
synchronisation, and the message of either. -/
def answer (h : Handshake C) (request : ReplicationMessage) : Handshake C :=
  match request with
  | .syncRequest lastSequence _ =>
    match h.master.needsFullSync env.replication lastSequence with
    | .error e => { h with masterPhase := .failed e }
    | .ok true =>
      match h.master.fullSyncMessage env.replication env.made with
      | (.crashed, m) => { h with master := m, masterPhase := .crashed }
      | (.error e, m) => { h with master := m, masterPhase := .failed e }
      | (.ok reply, m) => sendReply env { h with master := m } reply .awaitingFullSyncAck
    | .ok false =>
      match h.master.getWalEntriesSince env.replication lastSequence with
      | .error e => { h with masterPhase := .failed e }
      -- no entries: nothing is sent
      | .ok [] => { h with masterPhase := addSlave env }
      | .ok (entry :: entries) =>
        sendReply env h (.incrementalSync (entry :: entries)) .awaitingIncrementalAck
  | _ =>
    sendReply env h (.error .invalidMessage "Expected SyncRequest")
      (.failed (.protocolError "Expected SyncRequest"))

/-- The check of the acknowledgment, with the text for one that reports a failure. -/
def acknowledged (failure : Nat → String) (message : ReplicationMessage) : MasterPhase :=
  match message with
  | .ack sequence status =>
    if status = .success then addSlave env else .failed (.protocolError (failure sequence))
  | _ => .failed (.protocolError "Expected ACK message")

/-- The master's side of a message that arrives. -/
def masterReceives (h : Handshake C) : Handshake C :=
  match h.toMaster with
  | [] => h
  | bytes :: rest =>
    let h := { h with toMaster := rest }
    match h.masterPhase, receiveMessage env.json [] bytes with
    | .awaitingRequest, .failed e =>
      { h with masterPhase := .failed (.connectionError e.message) }
    | .awaitingRequest, .ready request _ => h.answer env request
    | .awaitingFullSyncAck, .failed e => { h with masterPhase := .failed e }
    | .awaitingFullSyncAck, .ready message _ =>
      { h with masterPhase := acknowledged env (fun _ => "Full sync failed on slave") message }
    | .awaitingIncrementalAck, .failed e => { h with masterPhase := .failed e }
    | .awaitingIncrementalAck, .ready message _ =>
      { h with masterPhase := acknowledged env (fun sequence =>
        "Incremental sync failed on slave at sequence " ++ toString sequence) message }
    | _, _ => h

/-! ## The slave -/

/-- The slave's side of a message that arrives. -/
def slaveReceives (h : Handshake C) : Handshake C :=
  match h.toSlave with
  | [] => h
  | bytes :: rest =>
    let h := { h with toSlave := rest }
    match h.slavePhase, receiveMessage env.json [] bytes with
    | .awaitingResponse, .failed e => { h with slavePhase := .failed e }
    | .awaitingResponse, .ready response _ =>
      match h.slave.handleSyncResponse env.replication env.applied response with
      | (.error e, m) => { h with slave := m, slavePhase := .failed e }
      | (.ok ack, m) =>
        match sendMessage env.json ack with
        | .error e => { h with slave := m, slavePhase := .failed e }
        | .ok bytes =>
          { h with slave := m, slavePhase := .streaming, toMaster := h.toMaster ++ [bytes] }
    | _, _ => h

def step (h : Handshake C) : HandshakeEvent → Handshake C
  | .connect => h.connect env
  | .masterReceives => h.masterReceives env
  | .slaveReceives => h.slaveReceives env

def run (h : Handshake C) (events : List HandshakeEvent) : Handshake C := events.foldl (step env) h

/-- Nothing is left to do on either side, except to wait. -/
def AtRest (h : Handshake C) : Prop := ∀ event, h.step env event = h

end Handshake

/-- The sequence that a reply brings the slave to. -/
def ReplicationMessage.replySequence : ReplicationMessage → Option Nat
  | .fullSync header _ => some header.sequence
  | .incrementalSync entries => some (lastSequence entries)
  | _ => none

def MasterPhase.Fails : MasterPhase → Prop
  | .failed _ => True
  | .crashed => True
  | _ => False

def Handshake.Synchronised {C : Type} (h : Handshake C) : Prop :=
  (h.sent = [] ∧ h.masterPhase.Fails) ∨
    ∃ reply sequence, h.sent = [reply] ∧ reply.replySequence = some sequence ∧
      h.slavePhase = .streaming ∧ h.slave.currentSequence = sequence

/-! ## Messages -/

/-- `serde_json` writes the message, within the limit of the receiver, and reads it back. -/
def MessageJson.Delivers (json : MessageJson) (message : ReplicationMessage) : Prop :=
  ∃ bytes, json.toVec message = .ok bytes ∧ bytes.length ≤ maxMessageSize ∧
    json.fromSlice bytes = .ok message

/-- `serde_json` reads the message back where it can write it, and rejects its JSON cut short at a
length field that is too small for it. -/
structure MessageJson.Carries (json : MessageJson) (message : ReplicationMessage) : Prop where
  decodes : ∀ bytes, json.toVec message = .ok bytes → json.fromSlice bytes = .ok message
  truncated : ∀ bytes, json.toVec message = .ok bytes → 2 ^ 32 ≤ bytes.length →
    ∃ e, json.fromSlice (bytes.take (bytes.length % 2 ^ 32)) = .error e

section

variable {json : MessageJson} {message : ReplicationMessage} {bytes : Bytes}

theorem sendMessage_of_toVec (h : json.toVec message = .ok bytes) :
    sendMessage json message = .ok (frame bytes) := by
  simp only [sendMessage, ReplicationMessage.toBytes, h]

theorem receiveMessage_frame (hsize : bytes.length ≤ maxMessageSize)
    (h : json.fromSlice bytes = .ok message) :
    receiveMessage json [] (frame bytes) = .ready message [] := by
  have hlt : bytes.length < 2 ^ 32 := by
    unfold maxMessageSize at hsize
    omega
  rw [receiveMessage, Framing.poll_frame, Nat.mod_eq_of_lt hlt, if_neg (Nat.not_lt.mpr hsize),
    List.take_length, List.drop_length]
  simp only [ReplicationMessage.fromBytes, h]

-- A message that is too large is rejected, also where its length does not fit the length field.
theorem MessageJson.Carries.oversized (hcarries : json.Carries message)
    (h : json.toVec message = .ok bytes) (hsize : maxMessageSize < bytes.length) :
    ∃ e, receiveMessage json [] (frame bytes) = .failed e := by
  rw [receiveMessage, Framing.poll_frame]
  by_cases hlimit : maxMessageSize < bytes.length % 2 ^ 32
  · rw [if_pos hlimit]
    exact ⟨_, rfl⟩
  · have hlarge : 2 ^ 32 ≤ bytes.length := by omega
    obtain ⟨e, he⟩ := hcarries.truncated bytes h hlarge
    rw [if_neg hlimit]
    simp only [ReplicationMessage.fromBytes, he]
    exact ⟨_, rfl⟩

end

/-! ## Schedules -/

namespace Handshake

variable {C : Type} {env : HandshakeEnv C}

/-- The schedule in which every event has something to do; any other one waits in between. -/
def schedule : List HandshakeEvent := [.connect, .masterReceives, .slaveReceives, .masterReceives]

/-- At most one message is on its way, to the master. -/
structure MasterTurn (h : Handshake C) : Prop where
  toMaster_tail : h.toMaster.tail = []
  toSlave_eq : h.toSlave = []
  connected : h.slavePhase ≠ .connecting

/-- At most one message is on its way, to the slave, and it is the answer to its request. -/
structure SlaveTurn (h : Handshake C) : Prop where
  toMaster_eq : h.toMaster = []
  toSlave_tail : h.toSlave.tail = []
  connected : h.slavePhase ≠ .connecting
  answered : h.toSlave ≠ [] → h.masterPhase ≠ .awaitingRequest

theorem connect_masterTurn (master slave : SyncManager C) :
    ((start master slave).connect env).MasterTurn := by
  simp only [connect, start]
  cases sendMessage env.json (.syncRequest slave.currentSequence env.slaveId) with
  | error e => exact ⟨rfl, rfl, by simp⟩
  | ok bytes => exact ⟨rfl, rfl, by simp⟩

theorem sendReply_slaveTurn {h : Handshake C} (hmaster : h.toMaster = []) (hslave : h.toSlave = [])
    (hconnected : h.slavePhase ≠ .connecting) (reply : ReplicationMessage) {next : MasterPhase}
    (hnext : next ≠ .awaitingRequest) : (h.sendReply env reply next).SlaveTurn := by
  unfold sendReply
  cases sendMessage env.json reply with
  | error e => exact ⟨hmaster, by simp [hslave], hconnected, by simp [hslave]⟩
  | ok bytes => exact ⟨hmaster, by simp [hslave], hconnected, fun _ => hnext⟩

theorem answer_slaveTurn {h : Handshake C} (hmaster : h.toMaster = []) (hslave : h.toSlave = [])
    (hconnected : h.slavePhase ≠ .connecting) (request : ReplicationMessage) :
    (h.answer env request).SlaveTurn := by
  have hsilent (m : SyncManager C) (phase : MasterPhase) :
      ({ h with master := m, masterPhase := phase } : Handshake C).SlaveTurn :=
    ⟨hmaster, by simp [hslave], hconnected, by simp [hslave]⟩
  unfold answer
  split
  · split
    · exact hsilent _ _
    · split
      · exact hsilent _ _
      · exact hsilent _ _
      · next reply m _ =>
          exact @sendReply_slaveTurn C env { h with master := m } hmaster hslave hconnected reply
            .awaitingFullSyncAck (by simp)
    · split
      · exact hsilent _ _
      · exact hsilent _ _
      · exact sendReply_slaveTurn hmaster hslave hconnected _ (by simp)
  · exact sendReply_slaveTurn hmaster hslave hconnected _ (by simp)

theorem MasterTurn.masterReceives {h : Handshake C} (hturn : h.MasterTurn) :
    (h.masterReceives env).SlaveTurn := by
  obtain ⟨htail, hslave, hconnected⟩ := hturn
  unfold Handshake.masterReceives
  cases htoMaster : h.toMaster with
  | nil => exact ⟨htoMaster, by simp [hslave], hconnected, by simp [hslave]⟩
  | cons bytes rest =>
    rw [htoMaster, List.tail_cons] at htail
    subst htail
    have hsilent (phase : MasterPhase) :
        ({ h with toMaster := [], masterPhase := phase } : Handshake C).SlaveTurn :=
      ⟨rfl, by simp [hslave], hconnected, by simp [hslave]⟩
    dsimp only
    split
    · exact hsilent _
    · next request left _ _ =>
        exact @answer_slaveTurn C env { h with toMaster := [] } rfl hslave hconnected request
    · exact hsilent _
    · exact hsilent _
    · exact hsilent _
    · exact hsilent _
    · exact hsilent _

-- Once the request is answered, the master only receives.
theorem masterReceives_toSlave {h : Handshake C} (hphase : h.masterPhase ≠ .awaitingRequest) :
    (h.masterReceives env).toSlave = h.toSlave := by
  unfold Handshake.masterReceives
  cases h.toMaster with
  | nil => rfl
  | cons bytes rest =>
    dsimp only
    split
    · rfl
    · next request left hawaiting _ => exact absurd hawaiting hphase
    · rfl
    · rfl
    · rfl
    · rfl
    · rfl

theorem SlaveTurn.slaveReceives {h : Handshake C} (hturn : h.SlaveTurn) :
    (h.slaveReceives env).MasterTurn ∧
      ((h.slaveReceives env).toMaster ≠ [] →
        (h.slaveReceives env).masterPhase ≠ .awaitingRequest) := by
  obtain ⟨hmaster, htail, hconnected, hanswered⟩ := hturn
  unfold Handshake.slaveReceives
  cases htoSlave : h.toSlave with
  | nil => exact ⟨⟨by simp [hmaster], htoSlave, hconnected⟩, by simp [hmaster]⟩
  | cons bytes rest =>
    rw [htoSlave, List.tail_cons] at htail
    subst htail
    have hphase : h.masterPhase ≠ .awaitingRequest := hanswered (by simp [htoSlave])
    have hsilent (m : SyncManager C) {phase : SlavePhase} (hne : phase ≠ .connecting) :
        ({ h with toSlave := [], slave := m, slavePhase := phase } : Handshake C).MasterTurn ∧
          (h.toMaster ≠ [] → h.masterPhase ≠ .awaitingRequest) :=
      ⟨⟨by simp [hmaster], rfl, hne⟩, fun _ => hphase⟩
    dsimp only
    split
    · exact hsilent _ (by simp)
    · split
      · exact hsilent _ (by simp)
      · split
        · exact hsilent _ (by simp)
        · exact ⟨⟨by simp [hmaster], rfl, by simp⟩, fun _ => hphase⟩
    · exact hsilent _ hconnected

theorem masterReceives_of_nil {h : Handshake C} (hnil : h.toMaster = []) :
    h.masterReceives env = h := by
  unfold Handshake.masterReceives
  rw [hnil]

theorem masterReceives_rest {h : Handshake C} (hturn : h.MasterTurn)
    (hphase : h.toMaster ≠ [] → h.masterPhase ≠ .awaitingRequest) :
    (h.masterReceives env).toSlave = [] := by
  by_cases hnil : h.toMaster = []
  · rw [masterReceives_of_nil hnil]
    exact hturn.toSlave_eq
  · rw [masterReceives_toSlave (hphase hnil)]
    exact hturn.toSlave_eq

theorem connect_of_connected {h : Handshake C} (hconnected : h.slavePhase ≠ .connecting) :
    h.connect env = h := by
  unfold connect
  split
  · next hconnecting => exact absurd hconnecting hconnected
  · rfl

theorem slaveReceives_of_nil {h : Handshake C} (hnil : h.toSlave = []) :
    h.slaveReceives env = h := by
  unfold Handshake.slaveReceives
  rw [hnil]

section

variable (env) (master slave : SyncManager C)

-- Each event leaves the schedule where it is, or is the next one of it.
theorem step_schedule (n : Nat) (event : HandshakeEvent) :
    ((start master slave).run env (schedule.take n)).step env event =
        (start master slave).run env (schedule.take n) ∨
      ((start master slave).run env (schedule.take n)).step env event =
        (start master slave).run env (schedule.take (n + 1)) := by
  have h1 : ((start master slave).connect env).MasterTurn := connect_masterTurn master slave
  have h2 := @MasterTurn.masterReceives C env _ h1
  have h3 := @SlaveTurn.slaveReceives C env _ h2
  have h4 := @MasterTurn.masterReceives C env _ h3.1
  have hrest := @masterReceives_rest C env _ h3.1 h3.2
  rcases n with - | - | - | - | n
  · cases event with
    | connect => exact .inr rfl
    | masterReceives => exact .inl rfl
    | slaveReceives => exact .inl rfl
  · cases event with
    | connect => exact .inl (connect_of_connected h1.connected)
    | masterReceives => exact .inr rfl
    | slaveReceives => exact .inl (slaveReceives_of_nil h1.toSlave_eq)
  · cases event with
    | connect => exact .inl (connect_of_connected h2.connected)
    | masterReceives => exact .inl (masterReceives_of_nil h2.toMaster_eq)
    | slaveReceives => exact .inr rfl
  · cases event with
    | connect => exact .inl (connect_of_connected h3.1.connected)
    | masterReceives => exact .inr rfl
    | slaveReceives => exact .inl (slaveReceives_of_nil h3.1.toSlave_eq)
  · have hall : schedule.take (n + 4) = schedule := List.take_of_length_le (by simp [schedule])
    rw [hall]
    cases event with
    | connect => exact .inl (connect_of_connected h4.connected)
    | masterReceives => exact .inl (masterReceives_of_nil h4.toMaster_eq)
    | slaveReceives => exact .inl (slaveReceives_of_nil hrest)

theorem run_schedule (events : List HandshakeEvent) :
    ∃ n, (start master slave).run env events = (start master slave).run env (schedule.take n) := by
  induction events using List.reverseRecOn with
  | nil => exact ⟨0, rfl⟩
  | append_singleton events event ih =>
    obtain ⟨n, hn⟩ := ih
    have hlast : (start master slave).run env (events ++ [event]) =
        ((start master slave).run env events).step env event := by
      rw [run, List.foldl_append]
      rfl
    rw [hlast, hn]
    rcases step_schedule env master slave n event with hsame | hnext
    · exact ⟨n, hsame⟩
    · exact ⟨n + 1, hnext⟩

theorem schedule_atRest : ((start master slave).run env schedule).AtRest env := by
  intro event
  rcases step_schedule env master slave 4 event with hsame | hnext
  · exact hsame
  · exact hnext

-- Every schedule that comes to rest ends in the same state.
theorem run_of_atRest {events : List HandshakeEvent}
    (hrest : ((start master slave).run env events).AtRest env) :
    (start master slave).run env events = (start master slave).run env schedule := by
  obtain ⟨n, hn⟩ := run_schedule env master slave events
  have hstay (later : List HandshakeEvent) : ((start master slave).run env events).run env later =
      (start master slave).run env events := by
    induction later with
    | nil => rfl
    | cons event later ih =>
      rw [run, List.foldl_cons, hrest event]
      exact ih
  have hfinish := hstay (schedule.drop n)
  rw [hn] at hfinish ⊢
  rw [← hfinish, run, run, ← List.foldl_append, List.take_append_drop]
  rfl

-- What holds wherever the handshake comes to rest is decided by one schedule.
theorem forall_atRest_iff {P : Handshake C → Prop} :
    (∀ events, ((start master slave).run env events).AtRest env →
      P ((start master slave).run env events)) ↔ P ((start master slave).run env schedule) := by
  constructor
  · intro h
    exact h schedule (schedule_atRest env master slave)
  · intro h events hrest
    rw [run_of_atRest env master slave hrest]
    exact h

end

end Handshake

end VedDb
