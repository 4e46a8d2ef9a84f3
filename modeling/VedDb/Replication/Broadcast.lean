import Mathlib.Data.List.Infix
import VedDb.Lib.Pointwise
import VedDb.Replication.Connection

/-!
# The slaves of a master

`SlaveConnectionManager` of `replication/connection.rs`, the task that `add_slave` spawns for each
slave, and the calls of `ReplicationManager` that go to them.  All of these take the lock on the
slave manager, and `handle_new_slave` holds it from the request of a slave until the slave is added,
so that they are steps here; the tasks run in between.
-/

namespace VedDb

open LittleEndian (Bytes)

variable (json : MessageJson)

/-! ## The task of a slave -/

/-- A task runs, its future is gone, or its handle knows that it has finished. -/
inductive SlaveTaskPhase where
  | running
  | ended
  | finished
deriving DecidableEq

/-- The task of a slave with the channel it receives from; the sender is with its connection.  Of
the messages broadcast, those before `joined` are from the time before it was added; `written` are
those it has written to the end. -/
structure SlaveTask where
  joined : Nat
  queue : List ReplicationMessage
  written : List ReplicationMessage
  socket : Bytes
  reader : Receiver
  aborted : Bool
  phase : SlaveTaskPhase

inductive SlaveTaskEvent where
  -- bytes of the slave arrive
  | arrive (bytes : Bytes)
  -- `receive_message` is polled
  | receive
  -- it times out, or the socket fails
  | receiveFails
  -- `rx.recv()` wins the selection; a write that fails stops after some bytes of the frame
  | send (cut : Option Nat)
  -- the runtime acts on `abort`
  | cancelled
  | completes

namespace SlaveTask

def spawn (joined : Nat) : SlaveTask :=
  { joined := joined, queue := [], written := [], socket := []
    reader := { arrived := [], taken := [], received := [], failed := none }
    aborted := false, phase := .running }

/-- The loop is left, and the receiver of the channel dropped with what is in it. -/
def stop (task : SlaveTask) : SlaveTask := { task with queue := [], phase := .ended }

/-- `sender.send` succeeds. -/
def accepts (task : SlaveTask) : Bool := decide (task.phase = .running)

/-- `sender.send`. -/
def offer (message : ReplicationMessage) (task : SlaveTask) : SlaveTask :=
  if task.accepts then { task with queue := task.queue ++ [message] } else task

def isFinished (task : SlaveTask) : Bool := decide (task.phase = .finished)

/-- The branch of the selection with a message for the slave, or with the end of a channel that has
no sender.  It drops the pending receive. -/
def deliver (hasSender : Bool) (cut : Option Nat) (task : SlaveTask) : SlaveTask :=
  match task.queue with
  | [] => if hasSender then task else task.stop
  | message :: rest =>
    let task := { task with queue := rest, reader := { task.reader with taken := [] } }
    match sendMessage json message with
    | .error _ => task.stop
    | .ok bytes =>
      match cut with
      | some n => { task with socket := task.socket ++ bytes.take n }.stop
      | none =>
        { task with written := task.written ++ [message], socket := task.socket ++ bytes }

/-- The other branch: messages of the slave are logged only. -/
def receive (task : SlaveTask) : SlaveTask :=
  let reader := Connection.pollReceiver json task.reader
  match reader.failed with
  | none => { task with reader := reader }
  | some _ => { task with reader := reader }.stop

def step (hasSender : Bool) (event : SlaveTaskEvent) (task : SlaveTask) : SlaveTask :=
  match event with
  | .arrive bytes =>
    { task with reader := { task.reader with arrived := task.reader.arrived ++ bytes } }
  | .receive => if task.phase = .running then task.receive json else task
  | .receiveFails => if task.phase = .running then task.stop else task
  | .send cut => if task.phase = .running then task.deliver json hasSender cut else task
  | .cancelled => if task.aborted = true ∧ task.phase = .running then task.stop else task
  | .completes => if task.phase = .ended then { task with phase := .finished } else task

/-- The task is left to itself, and writes as many messages as its queue has. -/
def drain (task : SlaveTask) : SlaveTask :=
  task.queue.foldl (fun task _ => task.step json true (.send none)) task

end SlaveTask

/-! ## The slave manager -/

/-- `SlaveConnectionHandle`, which owns the sender and the join handle of a task. -/
structure SlaveConnectionHandle where
  connectionId : String
  peerAddr : String
  task : Nat
deriving DecidableEq

structure SlaveConnectionManager where
  connections : List SlaveConnectionHandle
  maxSlaves : Nat

namespace SlaveConnectionManager

def new (maxSlaves : Nat) : SlaveConnectionManager := { connections := [], maxSlaves := maxSlaves }

def slaveCount (m : SlaveConnectionManager) : Nat := m.connections.length

def places (m : SlaveConnectionManager) : List Nat :=
  m.connections.map SlaveConnectionHandle.task

def isFinished (tasks : List SlaveTask) (slave : SlaveConnectionHandle) : Bool :=
  tasks[slave.task]?.any SlaveTask.isFinished

/-- `slave.sender.send(message)` for every connection, with the number of those that succeed. -/
def broadcastMessage (m : SlaveConnectionManager) (tasks : List SlaveTask)
    (message : ReplicationMessage) : Nat × List SlaveTask :=
  m.connections.foldl (fun (sentCount, tasks) slave =>
    (if tasks[slave.task]?.any SlaveTask.accepts then sentCount + 1 else sentCount,
      tasks.modify slave.task (SlaveTask.offer message))) (0, tasks)

/-- `add_slave`, when some messages have been broadcast. -/
def addSlave (m : SlaveConnectionManager) (tasks : List SlaveTask) (joined : Nat)
    (connectionId peerAddr : String) :
    Except ReplicationError (SlaveConnectionManager × List SlaveTask) :=
  if m.maxSlaves ≤ m.connections.length then .error (.slaveLimit m.maxSlaves)
  else
    .ok ({ m with
        connections := m.connections ++
          [{ connectionId := connectionId, peerAddr := peerAddr, task := tasks.length }] },
      tasks ++ [.spawn joined])

def cleanupDisconnected (m : SlaveConnectionManager) (tasks : List SlaveTask) :
    SlaveConnectionManager :=
  { m with connections := m.connections.filter fun slave => !isFinished tasks slave }

/-- `disconnect_slave`: the first connection of that name, of which the task is aborted. -/
def disconnectSlave (m : SlaveConnectionManager) (tasks : List SlaveTask) (connectionId : String) :
    Bool × SlaveConnectionManager × List SlaveTask :=
  match m.connections.findIdx? fun slave => slave.connectionId = connectionId with
  | none => (false, m, tasks)
  | some pos =>
    (true, { m with connections := m.connections.eraseIdx pos },
      match m.connections[pos]? with
      | none => tasks
      | some slave => tasks.modify slave.task fun task => { task with aborted := true })

end SlaveConnectionManager

/-! ## The replication manager -/

/-- `ReplicationManager` as a master has it, with every task that was ever spawned and everything
that was broadcast.  Of `ReplicationStats` it writes two counters. -/
structure ReplicationManager where
  isMaster : Bool
  maxSlaves : Nat
  slaveManager : Option SlaveConnectionManager
  connectedSlaves : Nat
  messagesSent : Nat
  tasks : List SlaveTask
  broadcasts : List ReplicationMessage

inductive ReplicationOp where
  -- `start`, of which only that of a master goes to the slaves
  | start
  -- `promote_to_master`; the connection to the old master is closed first, which may fail
  | promote (closed : Bool)
  -- the end of a `handle_new_slave` whose handshake succeeded
  | slaveJoins (connectionId peerAddr : String)
  | broadcastWalEntry (entry : WalEntry)
  | removeSlave (slaveId : String)
  | forceSync (now : DateTime)
  | cleanup
  | task (place : Nat) (event : SlaveTaskEvent)

namespace ReplicationManager

def new (isMaster : Bool) (maxSlaves : Nat) : ReplicationManager :=
  { isMaster := isMaster, maxSlaves := maxSlaves, slaveManager := none, connectedSlaves := 0
    messagesSent := 0, tasks := [], broadcasts := [] }

/-- A new slave manager, in place of the old one. -/
def installSlaveManager (s : ReplicationManager) : ReplicationManager :=
  { s with slaveManager := some (.new s.maxSlaves) }

def promoteToMaster (s : ReplicationManager) (closed : Bool) :
    Except ReplicationError Unit × ReplicationManager :=
  if s.isMaster then (.ok (), s)
  else if closed then (.ok (), { s with isMaster := true }.installSlaveManager)
  else (.error (.ioError .other), s)

/-- `handle_new_slave` from `add_slave` on. -/
def slaveJoins (s : ReplicationManager) (connectionId peerAddr : String) :
    Except ReplicationError Unit × ReplicationManager :=
  match s.slaveManager with
  | none => (.ok (), s)
  | some m =>
    match m.addSlave s.tasks s.broadcasts.length connectionId peerAddr with
    | .error e => (.error e, s)
    | .ok (m, tasks) =>
      (.ok (), { s with
        slaveManager := some m, tasks := tasks, connectedSlaves := m.slaveCount })

/-- A message for every slave, and how many of them get it. -/
def broadcast (s : ReplicationManager) (m : SlaveConnectionManager)
    (message : ReplicationMessage) : Nat × ReplicationManager :=
  let (sentCount, tasks) := m.broadcastMessage s.tasks message
  (sentCount, { s with tasks := tasks, broadcasts := s.broadcasts ++ [message] })

def broadcastWalEntry (s : ReplicationManager) (entry : WalEntry) :
    Except ReplicationError Unit × ReplicationManager :=
  if s.isMaster then
    match s.slaveManager with
    | none => (.ok (), s)
    | some m =>
      let (sentCount, s) := s.broadcast m (.incrementalSync [entry])
      (.ok (), { s with messagesSent := s.messagesSent + sentCount })
  else (.error .notMaster, s)

def forceSync (s : ReplicationManager) (now : DateTime) :
    Except ReplicationError Nat × ReplicationManager :=
  match s.slaveManager with
  | none => (.error .notMaster, s)
  | some m =>
    let (syncedCount, s) := s.broadcast m (.heartbeat now 0)
    (.ok syncedCount, s)

def removeSlave (s : ReplicationManager) (slaveId : String) :
    Except ReplicationError Unit × ReplicationManager :=
  match s.slaveManager with
  | none => (.error .notMaster, s)
  | some m =>
    match m.disconnectSlave s.tasks slaveId with
    | (true, m, tasks) => (.ok (), { s with slaveManager := some m, tasks := tasks })
    | (false, _, _) => (.error (.connectionError ("Slave not found: " ++ slaveId)), s)

def cleanup (s : ReplicationManager) : ReplicationManager :=
  match s.slaveManager with
  | none => s
  | some m => { s with slaveManager := some (m.cleanupDisconnected s.tasks) }

/-- The places of the tasks that the slave manager has a connection of. -/
def places (s : ReplicationManager) : List Nat :=
  match s.slaveManager with
  | none => []
  | some m => m.places

def step (s : ReplicationManager) : ReplicationOp → ReplicationManager
  | .start => if s.isMaster then s.installSlaveManager else s
  | .promote closed => (s.promoteToMaster closed).2
  | .slaveJoins connectionId peerAddr => (s.slaveJoins connectionId peerAddr).2
  | .broadcastWalEntry entry => (s.broadcastWalEntry entry).2
  | .removeSlave slaveId => (s.removeSlave slaveId).2
  | .forceSync now => (s.forceSync now).2
  | .cleanup => s.cleanup
  | .task place event =>
    { s with tasks := s.tasks.modify place (.step json (s.places.contains place) event) }

def run (s : ReplicationManager) (ops : List ReplicationOp) : ReplicationManager :=
  ops.foldl (step json) s

end ReplicationManager

/-! ## What a slave is sent -/

/-- What `send_message` writes of a message: nothing when it cannot be serialised. -/
def ReplicationMessage.wireBytes (message : ReplicationMessage) : Bytes :=
  match sendMessage json message with
  | .error _ => []
  | .ok bytes => bytes

/-- The messages of the slave and the bytes on its socket are the first of those broadcast since it
was added.  As long as its task runs and has a sender, none is missing. -/
structure SlaveTask.Follows (stream : List ReplicationMessage) (hasSender : Bool)
    (task : SlaveTask) : Prop where
  joined_le : task.joined ≤ stream.length
  in_order : task.written ++ task.queue <+: stream.drop task.joined
  complete : task.phase = .running → hasSender = true →
    task.written ++ task.queue = stream.drop task.joined
  socket_running : task.phase = .running →
    task.socket = task.written.flatMap (ReplicationMessage.wireBytes json)
  socket_prefix : task.socket <+:
    (stream.drop task.joined).flatMap (ReplicationMessage.wireBytes json)

namespace SlaveTask

variable {json} {stream : List ReplicationMessage} {hasSender : Bool} {task : SlaveTask}

theorem follows_spawn : (spawn stream.length).Follows json stream true where
  joined_le := Nat.le_refl _
  in_order := List.nil_prefix
  complete _ _ := (List.drop_length).symm
  socket_running _ := rfl
  socket_prefix := List.nil_prefix

-- What the stream goes on with is of no concern to a task that gets nothing of it.
theorem Follows.extend (h : task.Follows json stream hasSender)
    (hdeaf : ¬(task.phase = .running ∧ hasSender = true)) (message : ReplicationMessage) :
    task.Follows json (stream ++ [message]) hasSender := by
  have hdrop : stream.drop task.joined <+: (stream ++ [message]).drop task.joined := by
    rw [List.drop_append_of_le_length h.joined_le]
    exact List.prefix_append _ _
  refine ⟨?_, h.in_order.trans hdrop, fun hphase hsender => absurd ⟨hphase, hsender⟩ hdeaf,
    h.socket_running, h.socket_prefix.trans (hdrop.flatMap _)⟩
  rw [List.length_append]
  exact Nat.le_add_right_of_le h.joined_le

theorem Follows.offer (h : task.Follows json stream true) (message : ReplicationMessage) :
    (task.offer message).Follows json (stream ++ [message]) true := by
  unfold SlaveTask.offer
  split
  · rename_i haccepts
    have hrunning : task.phase = .running := of_decide_eq_true haccepts
    have hdrop : (stream ++ [message]).drop task.joined = stream.drop task.joined ++ [message] :=
      List.drop_append_of_le_length h.joined_le
    have hall : task.written ++ (task.queue ++ [message]) =
        (stream ++ [message]).drop task.joined := by
      rw [hdrop, ← h.complete hrunning rfl, List.append_assoc]
    refine ⟨?_, hall ▸ List.prefix_refl _, fun _ _ => hall, h.socket_running, ?_⟩
    · show task.joined ≤ (stream ++ [message]).length
      rw [List.length_append]
      exact Nat.le_add_right_of_le h.joined_le
    · show task.socket <+: ((stream ++ [message]).drop task.joined).flatMap _
      rw [hdrop, List.flatMap_append]
      exact h.socket_prefix.trans (List.prefix_append _ _)
  · rename_i hrefuses
    exact h.extend (fun hlive => hrefuses (decide_eq_true hlive.1)) message

-- The sender is dropped, or what does not matter here changes.
theorem Follows.weaken (h : task.Follows json stream hasSender) {kept : Bool} {reader : Receiver}
    {aborted : Bool} (hkept : kept = true → hasSender = true) :
    ({ task with reader := reader, aborted := aborted } : SlaveTask).Follows json stream kept where
  joined_le := h.joined_le
  in_order := h.in_order
  complete hrunning hsender := h.complete hrunning (hkept hsender)
  socket_running := h.socket_running
  socket_prefix := h.socket_prefix

-- A task that has ended keeps what it wrote, and perhaps a part of the next frame.
theorem Follows.ended (h : task.Follows json stream hasSender) {queue : List ReplicationMessage}
    {reader : Receiver} {phase : SlaveTaskPhase} (hphase : phase ≠ .running)
    (hqueue : queue <+: task.queue) {socket : Bytes}
    (hsocket : socket <+: (stream.drop task.joined).flatMap (ReplicationMessage.wireBytes json)) :
    ({ task with queue := queue, socket := socket, reader := reader, phase := phase } :
      SlaveTask).Follows json stream hasSender where
  joined_le := h.joined_le
  in_order := ((List.prefix_append_right_inj _).mpr hqueue).trans h.in_order
  complete hrunning := absurd hrunning hphase
  socket_running hrunning := absurd hrunning hphase
  socket_prefix := hsocket

theorem ended_ne_running : SlaveTaskPhase.ended ≠ .running := by decide

theorem Follows.stop (h : task.Follows json stream hasSender) :
    task.stop.Follows json stream hasSender :=
  h.ended ended_ne_running List.nil_prefix h.socket_prefix

theorem Follows.receive (h : task.Follows json stream hasSender) :
    (task.receive json).Follows json stream hasSender := by
  unfold SlaveTask.receive
  dsimp only
  split
  · exact h.weaken id
  · exact h.ended ended_ne_running List.nil_prefix h.socket_prefix

-- The next message goes from the queue to the socket, or the task ends in the middle of it.
theorem Follows.deliver (h : task.Follows json stream hasSender) (hrunning : task.phase = .running)
    (cut : Option Nat) : (task.deliver json hasSender cut).Follows json stream hasSender := by
  unfold SlaveTask.deliver
  split
  · split
    · exact h
    · exact h.stop
  · rename_i message rest hqueue
    have hsame : (task.written ++ [message]) ++ rest = task.written ++ task.queue := by
      rw [hqueue, List.append_assoc, List.singleton_append]
    have hframes : task.socket ++ message.wireBytes json <+:
        (stream.drop task.joined).flatMap (ReplicationMessage.wireBytes json) := by
      have hnext : task.written ++ [message] <+: stream.drop task.joined :=
        (List.prefix_append _ _).trans (hsame ▸ h.in_order)
      have hflat := hnext.flatMap (ReplicationMessage.wireBytes json)
      rw [List.flatMap_append, List.flatMap_singleton, ← h.socket_running hrunning] at hflat
      exact hflat
    dsimp only
    cases hsend : sendMessage json message with
    | error e => exact h.ended ended_ne_running List.nil_prefix h.socket_prefix
    | ok bytes =>
      have hbytes : message.wireBytes json = bytes := by
        rw [ReplicationMessage.wireBytes, hsend]
      rw [hbytes] at hframes
      cases cut with
      | some n =>
        refine h.ended ended_ne_running List.nil_prefix ?_
        exact ((List.prefix_append_right_inj _).mpr (List.take_prefix n bytes)).trans hframes
      | none =>
        refine ⟨h.joined_le, ?_, fun _ hsender => ?_, fun _ => ?_, hframes⟩
        · exact hsame ▸ h.in_order
        · exact hsame.trans (h.complete hrunning hsender)
        · show task.socket ++ bytes = (task.written ++ [message]).flatMap _
          rw [List.flatMap_append, List.flatMap_singleton, hbytes, h.socket_running hrunning]

theorem Follows.step (h : task.Follows json stream hasSender) (event : SlaveTaskEvent) :
    (task.step json hasSender event).Follows json stream hasSender := by
  unfold SlaveTask.step
  cases event with
  | arrive bytes => exact h.weaken id
  | receive =>
    dsimp only
    split
    · exact h.receive
    · exact h
  | send cut =>
    dsimp only
    split
    · rename_i hrunning
      exact h.deliver hrunning cut
    · exact h
  | receiveFails | cancelled =>
    dsimp only
    split
    · exact h.stop
    · exact h
  | completes =>
    dsimp only
    split
    · exact h.ended (by decide) (List.prefix_refl _) h.socket_prefix
    · exact h

-- As many sends as there are messages in the queue write them all.
theorem drain_written (hrunning : task.phase = .running)
    (hqueue : ∀ message ∈ task.queue, ∃ bytes, sendMessage json message = .ok bytes) :
    (task.drain json).written = task.written ++ task.queue := by
  cases task with
  | mk joined queue written socket reader aborted phase =>
    dsimp only at hrunning hqueue
    subst hrunning
    unfold SlaveTask.drain
    dsimp only
    induction queue generalizing written socket reader with
    | nil => exact (List.append_nil _).symm
    | cons message rest ih =>
      obtain ⟨bytes, hbytes⟩ := hqueue message List.mem_cons_self
      have hrest := ih (written ++ [message]) (socket ++ bytes) { reader with taken := [] }
        (fun other hother => hqueue other (List.mem_cons_of_mem _ hother))
      rw [List.append_assoc, List.singleton_append] at hrest
      rw [List.foldl_cons, ← hrest]
      simp only [SlaveTask.step, if_true, SlaveTask.deliver, hbytes]

end SlaveTask

/-! ## The places of the tasks -/

theorem SlaveConnectionManager.broadcastMessage_snd (m : SlaveConnectionManager)
    (tasks : List SlaveTask) (message : ReplicationMessage) :
    (m.broadcastMessage tasks message).2 =
      modifyEach (SlaveTask.offer message) m.places tasks := by
  have hfold (connections : List SlaveConnectionHandle) (count : Nat) (tasks : List SlaveTask) :
      (connections.foldl (fun (sentCount, tasks) slave =>
        (if tasks[slave.task]?.any SlaveTask.accepts then sentCount + 1 else sentCount,
          tasks.modify slave.task (SlaveTask.offer message))) (count, tasks)).2 =
      modifyEach (SlaveTask.offer message)
        (connections.map SlaveConnectionHandle.task) tasks := by
    induction connections generalizing count tasks with
    | nil => rfl
    | cons slave connections ih => exact ih _ _
  exact hfold m.connections 0 tasks

/-- The places are those of different tasks, and every task follows the stream, with a sender if its
place is one of them. -/
structure Attached (places : List Nat) (tasks : List SlaveTask)
    (stream : List ReplicationMessage) : Prop where
  distinct : places.Nodup
  spawned : ∀ place ∈ places, place < tasks.length
  follows : ∀ (place : Nat) (task : SlaveTask), tasks[place]? = some task →
    task.Follows json stream (places.contains place)

namespace Attached

variable {json} {places : List Nat} {tasks : List SlaveTask} {stream : List ReplicationMessage}

theorem start : Attached json [] [] [] where
  distinct := List.nodup_nil
  spawned _ hplace := absurd hplace List.not_mem_nil
  follows place _ htask := by rw [List.getElem?_nil] at htask; cases htask

theorem offer (h : Attached json places tasks stream) (message : ReplicationMessage) :
    Attached json places (modifyEach (SlaveTask.offer message) places tasks)
      (stream ++ [message]) := by
  refine ⟨h.distinct, ?_, fun place task htask => ?_⟩
  · rw [length_modifyEach]
    exact h.spawned
  · rw [getElem?_modifyEach _ h.distinct] at htask
    split at htask
    · rename_i hplace
      rw [Option.map_eq_some_iff] at htask
      obtain ⟨before, hbefore, rfl⟩ := htask
      have hfollows := h.follows place before hbefore
      rw [List.contains_iff_mem.mpr hplace] at hfollows ⊢
      exact hfollows.offer message
    · rename_i hplace
      refine (h.follows place task htask).extend (fun hlive => hplace ?_) message
      exact List.contains_iff_mem.mp hlive.2

-- Some places are given up, and the tasks there may be aborted.
theorem release (h : Attached json places tasks stream) {kept : List Nat}
    (hkept : kept.Sublist places) : Attached json kept tasks stream where
  distinct := h.distinct.sublist hkept
  spawned place hplace := h.spawned place (hkept.subset hplace)
  follows place task htask := by
    refine (h.follows place task htask).weaken fun hsender => ?_
    exact List.contains_iff_mem.mpr (hkept.subset (List.contains_iff_mem.mp hsender))

theorem modify (h : Attached json places tasks stream) (own : Nat) {f : SlaveTask → SlaveTask}
    (hf : ∀ task, task.Follows json stream (places.contains own) →
      (f task).Follows json stream (places.contains own)) :
    Attached json places (tasks.modify own f) stream := by
  refine ⟨h.distinct, ?_, fun place task htask => ?_⟩
  · rw [List.length_modify]
    exact h.spawned
  · rw [List.getElem?_modify, Option.map_eq_map, Option.map_eq_some_iff] at htask
    obtain ⟨before, hbefore, rfl⟩ := htask
    have hfollows := h.follows place before hbefore
    split
    · rename_i hplace
      subst hplace
      exact hf before hfollows
    · exact hfollows

theorem spawn (h : Attached json places tasks stream) :
    Attached json (places ++ [tasks.length]) (tasks ++ [.spawn stream.length]) stream := by
  have hnew : tasks.length ∉ places := fun hmem => Nat.lt_irrefl _ (h.spawned _ hmem)
  refine ⟨?_, fun place hplace => ?_, fun place task htask => ?_⟩
  · rw [List.nodup_append]
    refine ⟨h.distinct, List.nodup_singleton _, ?_⟩
    intro place hplace other hother
    rw [List.mem_singleton] at hother
    rw [hother]
    exact fun heq => hnew (heq ▸ hplace)
  · rw [List.length_append, List.length_singleton]
    rcases List.mem_append.mp hplace with hold | hlast
    · exact Nat.lt_succ_of_lt (h.spawned place hold)
    · rw [List.mem_singleton.mp hlast]
      exact Nat.lt_succ_self _
  · by_cases hold : place < tasks.length
    · rw [List.getElem?_append_left hold] at htask
      have hsame : (places ++ [tasks.length]).contains place = places.contains place := by
        rw [List.contains_append, List.contains_cons, beq_false_of_ne (Nat.ne_of_lt hold),
          List.contains_nil, Bool.or_false, Bool.or_false]
      rw [hsame]
      exact h.follows place task htask
    · rw [List.getElem?_append_right (Nat.not_lt.mp hold), List.getElem?_singleton] at htask
      split at htask
      · cases htask
        refine SlaveTask.follows_spawn.weaken fun _ => rfl
      · cases htask

end Attached

/-! ## Runs -/

/-- A master broadcasts single entries, and heartbeats that do nothing. -/
inductive ReplicationMessage.IsBroadcast : ReplicationMessage → Prop
  | entry (entry : WalEntry) : IsBroadcast (.incrementalSync [entry])
  | sync (now : DateTime) : IsBroadcast (.heartbeat now 0)

namespace ReplicationManager

/-- Every connection has its task, and there are no more of them than the configured limit. -/
structure Streams (s : ReplicationManager) : Prop where
  limit_eq : ∀ m, s.slaveManager = some m → m.maxSlaves = s.maxSlaves
  limited : s.places.length ≤ s.maxSlaves
  attached : Attached json s.places s.tasks s.broadcasts
  broadcasts : ∀ message ∈ s.broadcasts, message.IsBroadcast

variable {json} {s : ReplicationManager}

theorem streams_new (isMaster : Bool) (maxSlaves : Nat) : (new isMaster maxSlaves).Streams json :=
  ⟨nofun, Nat.zero_le _, .start, fun _ hmessage => absurd hmessage List.not_mem_nil⟩

theorem Streams.installSlaveManager (h : s.Streams json) :
    s.installSlaveManager.Streams json where
  limit_eq m hm := by
    cases hm
    rfl
  limited := Nat.zero_le _
  attached := h.attached.release (List.nil_sublist _)
  broadcasts := h.broadcasts

-- What the invariant says where there is a slave manager.
theorem Streams.of_manager (h : s.Streams json) {m : SlaveConnectionManager}
    (hmanager : s.slaveManager = some m) :
    m.maxSlaves = s.maxSlaves ∧ m.places.length ≤ s.maxSlaves ∧
      Attached json m.places s.tasks s.broadcasts := by
  have hplaces : s.places = m.places := by rw [ReplicationManager.places, hmanager]
  rw [← hplaces]
  exact ⟨h.limit_eq m hmanager, h.limited, h.attached⟩

-- The slave manager changes, and its tasks with it.
theorem Streams.withManager (h : s.Streams json) {m : SlaveConnectionManager}
    {tasks : List SlaveTask} (connectedSlaves : Nat) (hmax : m.maxSlaves = s.maxSlaves)
    (hlimited : m.places.length ≤ s.maxSlaves)
    (hattached : Attached json m.places tasks s.broadcasts) :
    ({ s with slaveManager := some m, tasks := tasks, connectedSlaves := connectedSlaves } :
      ReplicationManager).Streams json where
  limit_eq m' hm' := by
    cases hm'
    exact hmax
  limited := hlimited
  attached := hattached
  broadcasts := h.broadcasts

theorem Streams.slaveJoins (h : s.Streams json) (connectionId peerAddr : String) :
    (s.slaveJoins connectionId peerAddr).2.Streams json := by
  unfold ReplicationManager.slaveJoins
  split
  · exact h
  · rename_i m hmanager
    obtain ⟨hmax, hlimited, hattached⟩ := h.of_manager hmanager
    unfold SlaveConnectionManager.addSlave
    by_cases hfull : m.maxSlaves ≤ m.connections.length
    · rw [if_pos hfull]
      exact h
    · rw [if_neg hfull]
      have hplaces (slave : SlaveConnectionHandle) :
          (m.connections ++ [slave]).map SlaveConnectionHandle.task = m.places ++ [slave.task] :=
        List.map_append
      refine h.withManager _ hmax ?_ ?_
      · show (List.map SlaveConnectionHandle.task (m.connections ++ [_])).length ≤ s.maxSlaves
        rw [List.length_map, List.length_append, List.length_singleton, ← hmax]
        exact Nat.lt_of_not_le hfull
      · show Attached json (List.map SlaveConnectionHandle.task (m.connections ++ [_])) _ _
        rw [hplaces]
        exact hattached.spawn

theorem Streams.broadcast (h : s.Streams json) {m : SlaveConnectionManager}
    (hmanager : s.slaveManager = some m) {message : ReplicationMessage}
    (hmessage : message.IsBroadcast) (messagesSent : Nat) :
    ({ (s.broadcast m message).2 with messagesSent := messagesSent } :
      ReplicationManager).Streams json := by
  have hplaces : s.places = m.places := by rw [ReplicationManager.places, hmanager]
  refine ⟨h.limit_eq, h.limited, ?_, fun other hother => ?_⟩
  · show Attached json s.places (m.broadcastMessage s.tasks message).2 _
    rw [SlaveConnectionManager.broadcastMessage_snd, ← hplaces]
    exact h.attached.offer message
  · rcases List.mem_append.mp hother with hold | hnew
    · exact h.broadcasts other hold
    · rw [List.mem_singleton.mp hnew]
      exact hmessage

theorem Streams.removeSlave (h : s.Streams json) (slaveId : String) :
    (s.removeSlave slaveId).2.Streams json := by
  unfold ReplicationManager.removeSlave
  split
  · exact h
  · rename_i m hmanager
    obtain ⟨hmax, hlimited, hattached⟩ := h.of_manager hmanager
    unfold SlaveConnectionManager.disconnectSlave
    cases m.connections.findIdx? fun slave => slave.connectionId = slaveId with
    | none => exact h
    | some pos =>
      have hkept : ((m.connections.eraseIdx pos).map SlaveConnectionHandle.task).Sublist
          m.places := (List.eraseIdx_sublist _ _).map _
      refine h.withManager s.connectedSlaves hmax (hkept.length_le.trans hlimited) ?_
      have hreleased := hattached.release hkept
      split
      · exact hreleased
      · exact hreleased.modify _ fun task htask => htask.weaken id

theorem Streams.cleanup (h : s.Streams json) : s.cleanup.Streams json := by
  unfold ReplicationManager.cleanup
  split
  · exact h
  · rename_i m hmanager
    obtain ⟨hmax, hlimited, hattached⟩ := h.of_manager hmanager
    have hkept : (m.cleanupDisconnected s.tasks).places.Sublist m.places :=
      List.filter_sublist.map _
    exact h.withManager s.connectedSlaves hmax (hkept.length_le.trans hlimited)
      (hattached.release hkept)

theorem Streams.step (h : s.Streams json) (op : ReplicationOp) : (s.step json op).Streams json := by
  cases op with
  | start =>
    show (if s.isMaster then s.installSlaveManager else s).Streams json
    split
    · exact h.installSlaveManager
    · exact h
  | promote closed =>
    show (s.promoteToMaster closed).2.Streams json
    unfold ReplicationManager.promoteToMaster
    split
    · exact h
    · split
      · have hmaster : ({ s with isMaster := true } : ReplicationManager).Streams json :=
          ⟨h.limit_eq, h.limited, h.attached, h.broadcasts⟩
        exact hmaster.installSlaveManager
      · exact h
  | slaveJoins connectionId peerAddr => exact h.slaveJoins connectionId peerAddr
  | broadcastWalEntry entry =>
    show (s.broadcastWalEntry entry).2.Streams json
    unfold ReplicationManager.broadcastWalEntry
    split
    · split
      · exact h
      · rename_i m hmanager
        exact h.broadcast hmanager (.entry entry) _
    · exact h
  | removeSlave slaveId => exact h.removeSlave slaveId
  | forceSync now =>
    show (s.forceSync now).2.Streams json
    unfold ReplicationManager.forceSync
    split
    · exact h
    · rename_i m hmanager
      exact h.broadcast hmanager (.sync now) s.messagesSent
  | cleanup => exact h.cleanup
  | task place event =>
    refine ⟨h.limit_eq, h.limited, ?_, h.broadcasts⟩
    exact h.attached.modify place fun task htask => htask.step event

theorem streams_run (isMaster : Bool) (maxSlaves : Nat) (ops : List ReplicationOp) :
    ((new isMaster maxSlaves).run json ops).Streams json := by
  have hrun {s : ReplicationManager} (h : s.Streams json) : (s.run json ops).Streams json := by
    induction ops generalizing s with
    | nil => exact h
    | cons op ops ih => exact ih (h.step op)
  exact hrun (streams_new isMaster maxSlaves)

/-- After any run each connection of the slave manager has a task of its own, and there are no more
of them than its limit.  The bytes on the socket of a slave are the frames of the messages broadcast
since it was added, in order, up to some point; it writes all of them as long as its task is left to
run with a sender. -/
theorem run_streams (isMaster : Bool) (maxSlaves : Nat) (ops : List ReplicationOp) :
    ((new isMaster maxSlaves).run json ops).Streams json ∧
      ∀ place ∈ ((new isMaster maxSlaves).run json ops).places, ∀ task,
        ((new isMaster maxSlaves).run json ops).tasks[place]? = some task →
        task.phase = .running →
        (∀ message ∈ task.queue, ∃ bytes, sendMessage json message = .ok bytes) →
        (task.drain json).written =
          ((new isMaster maxSlaves).run json ops).broadcasts.drop task.joined := by
  have hstreams := @streams_run json isMaster maxSlaves ops
  refine ⟨hstreams, ?_⟩
  intro place hplace task htask hrunning hqueue
  rw [SlaveTask.drain_written hrunning hqueue]
  exact (hstreams.attached.follows place task htask).complete hrunning
    (List.contains_iff_mem.mpr hplace)

end ReplicationManager

end VedDb
