import VedDb.Protocol.Expiry
import VedDb.Protocol.Reading

/-!
# The connections of a server

`listen`, `handle_connection` and `connection_loop` of `protocol/connection.rs`.  The task of a
connection takes one command after the other off the stream and writes a response to each.  The
tasks, the bytes that arrive and the expiry of sessions take their turns in any order.
-/

namespace VedDb

open LittleEndian (Bytes)
open Durable (Outcome)
open SelfDelimiting

/-- `MAX_CONNECTIONS`. -/
def maxConnections : Nat := 10000

/-! ## Tasks -/

/-- The errors with which `connection_loop` returns. -/
inductive LoopError where
  | connectionNotFound
  | read (error : ReadError)
  | write
deriving DecidableEq

/-- Where the task of a connection stands. -/
inductive LoopPc where
  /-- At the head of the loop. -/
  | looping
  /-- The connection is found, and a command is awaited. -/
  | reading
  | returned (error : LoopError)
  | panicked
deriving DecidableEq

/-- A task with the bytes on its two streams.  Beside them stands what happened so far: the bytes
that have arrived, and the commands that were taken with the responses to them. -/
structure ConnectionTask where
  pc : LoopPc
  unread : Bytes
  written : Bytes
  received : Bytes
  served : List (Command × Response)
deriving DecidableEq

namespace ConnectionTask

def start : ConnectionTask :=
  { pc := .looping, unread := [], written := [], received := [], served := [] }

def isRunning (task : ConnectionTask) : Bool :=
  match task.pc with
  | .looping | .reading => true
  | .returned _ | .panicked => false

def arrive (task : ConnectionTask) (bytes : Bytes) : ConnectionTask :=
  { task with unread := task.unread ++ bytes, received := task.received ++ bytes }

/-- `write_response`: all bytes of the response are written, or some before the write fails. -/
def writeResponse (task : ConnectionTask) (rest : Bytes) (command : Command) (response : Response) :
    Option Nat → ConnectionTask
  | none =>
    { task with
      pc := .looping
      unread := rest
      written := task.written ++ response.packed.toBytes
      served := task.served ++ [(command, response)] }
  | some sent =>
    { task with
      pc := .returned .write
      unread := rest
      written := task.written ++ response.packed.toBytes.take sent
      served := task.served ++ [(command, response)] }

end ConnectionTask

/-! ## The server -/

/-- The connections of a server, with the permits that are left. -/
structure Listener (C : Type) where
  manager : ConnectionManager C
  permits : Nat
  tasks : Std.ExtTreeMap Uuid ConnectionTask

inductive ListenerOp where
  | accept (id : Uuid) (remoteAddr : String)
  | arrive (id : Uuid) (bytes : Bytes)
  /-- The task takes its next step.  Where it writes, the write may fail after some bytes. -/
  | turn (id : Uuid) (moment : ServerMoment) (sent : Option Nat)
  /-- The stream has ended, or nothing came in time. -/
  | readFails (id : Uuid)
  | cleanup (timeout now : Nat)

namespace Listener

variable {C : Type}

def start (manager : ConnectionManager C) : Listener C :=
  { manager := { manager with access := { manager.access with connections := ∅, sessions := ∅ } }
    permits := maxConnections
    tasks := ∅ }

variable (overflowChecks : Bool) (env : ServerEnv C) (l : Listener C)

def withTask (id : Uuid) (task : ConnectionTask) : Listener C :=
  { l with tasks := l.tasks.insert id task }

/-- The end of `handle_connection`: the connection is removed and its permit is free. -/
def finish (id : Uuid) (task : ConnectionTask) : Listener C :=
  { manager := { l.manager with access := l.manager.access.closeConnection id }
    permits := l.permits + 1
    tasks := l.tasks.insert id task }

def unwind (id : Uuid) (task : ConnectionTask) : Listener C :=
  { l with permits := l.permits + 1, tasks := l.tasks.insert id { task with pc := .panicked } }

/-- `listen`: without a permit the stream is dropped. -/
def accept (id : Uuid) (remoteAddr : String) : Listener C :=
  if l.permits = 0 then l
  else
    { manager := { l.manager with access := l.manager.access.openConnection id remoteAddr }
      permits := l.permits - 1
      tasks := l.tasks.insert id .start }

/-- The response that is written for a command; none where the handler panics. -/
def respondTo (moment : ServerMoment) (manager : ConnectionManager C) (id : Uuid)
    (command : Command) : Option Response × ConnectionManager C :=
  match manager.processCommand env moment id command with
  | (.ok response, manager) => (some response, manager)
  | (.error error, manager) =>
    (some (Response.new .error command.header.seq (utf8 error.toString)), manager)
  | (.crashed, manager) => (none, manager)

def serve (id : Uuid) (moment : ServerMoment) (sent : Option Nat) (task : ConnectionTask)
    (command : Command) (rest : Bytes) : Listener C :=
  let access := l.manager.access.updateActivity id moment.instant
  match respondTo env moment { l.manager with access := access } id command, sent with
  | (none, manager), _ =>
    ({ l with manager := manager } : Listener C).unwind id { task with unread := rest }
  | (some response, manager), none =>
    ({ l with manager := manager } : Listener C).withTask id
      (task.writeResponse rest command response none)
  | (some response, manager), some sent =>
    ({ l with manager := manager } : Listener C).finish id
      (task.writeResponse rest command response (some sent))

/-- A step of `connection_loop`. -/
def turn (id : Uuid) (moment : ServerMoment) (sent : Option Nat) (task : ConnectionTask) :
    Listener C :=
  match task.pc with
  | .looping =>
    if l.manager.access.connections.contains id then l.withTask id { task with pc := .reading }
    else l.finish id { task with pc := .returned .connectionNotFound }
  | .reading =>
    match readCommand overflowChecks task.unread with
    -- the task waits for more bytes
    | .error .incomplete => l
    | .error error => l.finish id { task with pc := .returned (.read error) }
    | .crashed => l.unwind id task
    | .ok (command, rest) => l.serve env id moment sent task command rest
  | .returned _ | .panicked => l

def readFails (id : Uuid) (task : ConnectionTask) : Listener C :=
  match task.pc with
  | .reading => l.finish id { task with pc := .returned (.read .incomplete) }
  | _ => l

def onTask (id : Uuid) (f : ConnectionTask → Listener C) : Listener C :=
  match l.tasks[id]? with
  | none => l
  | some task => f task

def step : ListenerOp → Listener C
  | .accept id remoteAddr => l.accept id remoteAddr
  | .arrive id bytes => l.onTask id fun task => l.withTask id (task.arrive bytes)
  | .turn id moment sent =>
    l.onTask id fun task => l.turn overflowChecks env id moment sent task
  | .readFails id => l.onTask id fun task => l.readFails id task
  | .cleanup timeout now =>
    { l with
      manager :=
        { l.manager with access := l.manager.access.cleanupExpiredSessions timeout now } }

def run (manager : ConnectionManager C) (ops : List ListenerOp) : Listener C :=
  ops.foldl (step overflowChecks env) (start manager)

end Listener

/-! ## Responses carry the number of their command -/

namespace ConnectionManager

def Echoes (command : Command) (outcome : Outcome ConnectionError Response) : Prop :=
  ∀ response, outcome = .ok response →
    ∃ status payload, response = Response.new status command.header.seq payload

variable {C : Type} {env : ServerEnv C} {moment : ServerMoment} {manager : ConnectionManager C}
variable {command : Command}

theorem echoes_new (status : Status) (payload : Bytes) :
    Echoes command (.ok (Response.new status command.header.seq payload)) := by
  intro response h
  cases h
  exact ⟨status, payload, rfl⟩

theorem echoes_error (error : ConnectionError) : Echoes command (.error error) := by
  intro response h
  cases h

theorem echoes_crashed : Echoes command .crashed := by
  intro response h
  cases h

theorem echoes_respond (answer : Answer) : Echoes command (respond env command answer) := by
  unfold respond
  split
  · exact echoes_error _
  · exact echoes_new _ _

theorem echoes_answering {α : Type} {result : Except ConnectionError α}
    {answer : α → Outcome ConnectionError Response} (h : ∀ value, Echoes command (answer value)) :
    Echoes command (answering result answer) := by
  cases result with
  | error error => exact echoes_error error
  | ok value => exact h value

theorem echoes_serving {α : Type} {result : Except ConnectionError α} {serve : α → Served C}
    (h : ∀ value, Echoes command (serve value).1) :
    Echoes command (serving manager result serve).1 := by
  cases result with
  | error error => exact echoes_error error
  | ok value => exact h value

theorem echoes_onUsers (context : String) (result : Except String UserManager) :
    Echoes command (onUsers env manager command context result).1 := by
  cases result with
  | error error => exact echoes_respond _
  | ok users => exact echoes_respond _

theorem echoes_restored (context path : String)
    (result : Except BackupError (Option Value) × PersistentLayer) :
    Echoes command (restored env manager command context path result).1 := by
  unfold restored
  dsimp only
  split
  · exact echoes_new _ _
  · exact echoes_respond _

theorem echoes_handleAuth (id : Uuid) :
    Echoes command (handleAuth env moment manager id command).1 := by
  have haccess : ∀ response,
      (manager.access.handleAuth env.auth moment.toAuthMoment id command).1 = .ok response →
        ∃ status payload, response = Response.new status command.header.seq payload := by
    intro response h
    rw [Access.handleAuth] at h
    split at h
    · cases h
    · dsimp only at h
      split at h
      · split at h
        · cases h
        · split at h
          · cases h
          · split at h
            · cases h
            · cases h
              exact ⟨_, _, rfl⟩
      · split at h
        · cases h
        · cases h
          exact ⟨_, _, rfl⟩
  intro response h
  apply haccess
  unfold handleAuth at h
  dsimp only at h
  split at h
  · cases h
  · rename_i hresult
    cases h
    exact hresult

theorem echoes_handle (id : Uuid) (op : OpCode) :
    Echoes command (handle env moment manager id command op).1 := by
  cases op with
  | auth => exact echoes_handleAuth id
  | ping => exact echoes_new _ _
  | listCollections | info | listUsers => exact echoes_respond _
  | createCollection | dropCollection | createIndex | dropIndex | insertDoc | updateDoc
  | deleteDoc =>
    exact echoes_serving fun request => echoes_answering fun _ => echoes_respond _
  | query | listIndexes =>
    exact echoes_answering fun request => echoes_answering fun _ => echoes_respond _
  | aggregate =>
    refine echoes_answering fun request => ?_
    split
    · exact echoes_error _
    · split <;> exact echoes_respond _
  | createUser =>
    exact echoes_serving fun request => echoes_serving fun hash => echoes_onUsers _ _
  | deleteUser | updateUserRole => exact echoes_serving fun request => echoes_onUsers _ _
  | createBackup =>
    refine echoes_serving fun backups => echoes_serving fun request => ?_
    dsimp only
    split
    · exact echoes_respond _
    · exact echoes_new _ _
    · exact echoes_crashed
  | listBackups => exact echoes_answering fun backups => echoes_respond _
  | restoreBackup | pointInTimeRecover =>
    exact echoes_serving fun backups => echoes_serving fun request => echoes_restored _ _ _
  | deleteBackup =>
    refine echoes_serving fun backups => echoes_serving fun request => ?_
    split
    · exact echoes_new _ _
    · exact echoes_respond _
  | getReplicationStatus | listSlaves => exact echoes_answering fun slaves => echoes_respond _
  | addSlave =>
    exact echoes_answering fun slaves => echoes_answering fun request =>
      echoes_answering fun address => echoes_respond _
  | removeSlave =>
    refine echoes_serving fun slaves => echoes_serving fun request => ?_
    split
    · exact echoes_error _
    · split
      · exact echoes_error _
      · exact echoes_respond _
  | forceSync =>
    refine echoes_answering fun slaves => ?_
    split
    · exact echoes_error _
    · exact echoes_respond _
  | createKey =>
    refine echoes_serving fun engine => echoes_serving fun request => ?_
    dsimp only
    split
    · exact echoes_respond _
    · exact echoes_new _ _
    · exact echoes_crashed
  | rotateKey =>
    refine echoes_serving fun engine => echoes_serving fun request => ?_
    dsimp only
    split
    · exact echoes_respond _
    · exact echoes_new _ _
    · exact echoes_crashed
  | listKeys => exact echoes_answering fun engine => echoes_respond _
  | exportKey | getKeyMetadata =>
    refine echoes_answering fun engine => echoes_answering fun request => ?_
    split
    · exact echoes_new _ _
    · exact echoes_respond _
  | importKey =>
    refine echoes_serving fun engine => echoes_serving fun request => ?_
    dsimp only
    split
    · exact echoes_new _ _
    · exact echoes_respond _
  | getKeysExpiring =>
    exact echoes_answering fun engine => echoes_answering fun request => echoes_respond _
  | _ => exact echoes_new _ _

/-- Whatever the command, the response has its number. -/
theorem echoes_processCommand (id : Uuid) :
    Echoes command (processCommand env moment manager id command).1 := by
  unfold processCommand
  cases htranslate : CompatibilityHandler.translateCommand env.wire moment.now moment.documentId
      command with
  | error error => exact echoes_error _
  | ok translated =>
    have hseq := (CompatibilityHandler.translateCommand_eq_ok htranslate).1
    dsimp only
    split
    · exact echoes_error _
    · rw [Echoes, ← hseq]
      split
      · exact echoes_new _ _
      · exact echoes_handle id _

end ConnectionManager

/-! ## Every command is answered -/

namespace ConnectionTask

def taken (task : ConnectionTask) : Bytes :=
  (task.served.map fun answer => answer.1.toBytes).flatten

def responses (task : ConnectionTask) : Bytes :=
  (task.served.map fun answer => answer.2.packed.toBytes).flatten

/-- What was read are framed commands, and what was written the responses to them, unless a write
failed or a handler panicked. -/
structure Answers (task : ConnectionTask) : Prop where
  received : ∃ lost, task.received = task.taken ++ (lost ++ task.unread) ∧
    (task.pc ≠ .panicked → lost = [])
  framed : ∀ answer ∈ task.served, answer.1.Framed
  echoes : ∀ answer ∈ task.served,
    ∃ status payload, answer.2 = Response.new status answer.1.header.seq payload
  written : task.written <+: task.responses
  whole : task.pc ≠ .returned .write → task.written = task.responses

variable {task : ConnectionTask} {command : Command} {response : Response} {rest : Bytes}

theorem answers_start : start.Answers where
  received := ⟨[], rfl, fun _ => rfl⟩
  framed _ h := by cases h
  echoes _ h := by cases h
  written := List.prefix_refl _
  whole _ := rfl

theorem Answers.arrive (h : task.Answers) (bytes : Bytes) : (task.arrive bytes).Answers := by
  obtain ⟨lost, hreceived, hlost⟩ := h.received
  refine { h with received := ⟨lost, ?_, hlost⟩ }
  show task.received ++ bytes = task.taken ++ (lost ++ (task.unread ++ bytes))
  rw [hreceived]
  simp only [List.append_assoc]

theorem not_ended (hrunning : task.isRunning) :
    task.pc ≠ .returned .write ∧ task.pc ≠ .panicked := by
  rw [isRunning] at hrunning
  constructor
  all_goals
    intro hpc
    rw [hpc] at hrunning
    cases hrunning

/-- A task whose streams stay as they are goes on, or ends without a failed write. -/
theorem Answers.goesOn (h : task.Answers) (hrunning : task.isRunning) (pc : LoopPc) :
    ({ task with pc := pc } : ConnectionTask).Answers := by
  obtain ⟨hwrite, hpanic⟩ := not_ended hrunning
  obtain ⟨lost, hreceived, hlost⟩ := h.received
  exact { h with
    received := ⟨lost, hreceived, fun _ => hlost hpanic⟩
    whole := fun _ => h.whole hwrite }

/-- The handler panics with a command in its hands. -/
theorem Answers.panics (h : task.Answers) (hrunning : task.isRunning)
    (hunread : task.unread = command.toBytes ++ rest) :
    ({ task with pc := .panicked, unread := rest } : ConnectionTask).Answers := by
  obtain ⟨hwrite, hpanic⟩ := not_ended hrunning
  obtain ⟨lost, hreceived, hlost⟩ := h.received
  refine { h with
    received := ⟨command.toBytes, ?_, fun hne => absurd rfl hne⟩
    whole := fun _ => h.whole hwrite }
  show task.received = task.taken ++ (command.toBytes ++ rest)
  rw [hreceived, hlost hpanic, hunread]
  rfl

theorem Answers.writeResponse (h : task.Answers) (hrunning : task.isRunning)
    (hunread : task.unread = command.toBytes ++ rest) (hframed : command.Framed)
    (hecho : ∃ status payload, response = Response.new status command.header.seq payload)
    (sent : Option Nat) : (task.writeResponse rest command response sent).Answers := by
  obtain ⟨lost, hreceived, hlost⟩ := h.received
  obtain ⟨hwrite, hpanic⟩ := not_ended hrunning
  have hserved : (task.writeResponse rest command response sent).served =
      task.served ++ [(command, response)] := by
    cases sent <;> rfl
  have hmem {P : Command × Response → Prop} (hold : ∀ answer ∈ task.served, P answer)
      (hnew : P (command, response)) :
      ∀ answer ∈ (task.writeResponse rest command response sent).served, P answer := by
    rw [hserved]
    intro answer hanswer
    rcases List.mem_append.mp hanswer with hanswer | hanswer
    · exact hold answer hanswer
    · rw [List.mem_singleton.mp hanswer]
      exact hnew
  have hresponses : (task.writeResponse rest command response sent).responses =
      task.written ++ response.packed.toBytes := by
    rw [responses, hserved, List.map_append, List.flatten_append, h.whole hwrite]
    simp [responses]
  refine
    { received := ⟨[], ?_, fun _ => rfl⟩
      framed := hmem h.framed hframed
      echoes := hmem h.echoes hecho
      written := ?_
      whole := ?_ }
  · rw [taken, hserved, List.map_append, List.flatten_append]
    have hunread' : (task.writeResponse rest command response sent).unread = rest := by
      cases sent <;> rfl
    have hreceived' : (task.writeResponse rest command response sent).received =
        task.received := by
      cases sent <;> rfl
    rw [hreceived', hunread', hreceived, hlost hpanic, hunread, taken]
    simp
  · rw [hresponses]
    cases sent with
    | none => exact List.prefix_refl _
    | some sent => exact List.prefix_append_right_inj _ |>.mpr (List.take_prefix _ _)
  · intro hdone
    rw [hresponses]
    cases sent with
    | none => rfl
    | some sent => exact absurd rfl hdone

end ConnectionTask

namespace Listener

variable {C : Type} {overflowChecks : Bool} {env : ServerEnv C} {l : Listener C} {id : Uuid}
variable {task : ConnectionTask}

def AllAnswer (l : Listener C) : Prop :=
  ∀ (id : Uuid) (task : ConnectionTask), l.tasks[id]? = some task → task.Answers

theorem AllAnswer.insert {after : Listener C} (h : l.AllAnswer) (htask : task.Answers)
    (htasks : after.tasks = l.tasks.insert id task) : after.AllAnswer := by
  intro other own hown
  rw [htasks, lookup_insert] at hown
  split at hown
  · cases hown
    exact htask
  · exact h other own hown

theorem respondTo_echoes {moment : ServerMoment} {manager after : ConnectionManager C}
    {command : Command} {response : Response}
    (h : respondTo env moment manager id command = (some response, after)) :
    ∃ status payload, response = Response.new status command.header.seq payload := by
  unfold respondTo at h
  split at h
  · rename_i served manager' hserved
    cases h
    have hechoes : ConnectionManager.Echoes command
        (manager.processCommand env moment id command).1 :=
      ConnectionManager.echoes_processCommand id
    rw [hserved] at hechoes
    exact hechoes _ rfl
  · cases h
    exact ⟨_, _, rfl⟩
  · cases h

theorem AllAnswer.serve (h : l.AllAnswer) (htask : task.Answers) (hrunning : task.isRunning)
    {command : Command} {rest : Bytes} (hunread : task.unread = command.toBytes ++ rest)
    (hframed : command.Framed) (moment : ServerMoment) (sent : Option Nat) :
    (l.serve env id moment sent task command rest).AllAnswer := by
  unfold Listener.serve
  have hanswers {response : Response} {manager : ConnectionManager C}
      (hresponse : respondTo env moment
        { l.manager with access := l.manager.access.updateActivity id moment.instant } id
        command = (some response, manager)) :
      (task.writeResponse rest command response sent).Answers :=
    htask.writeResponse hrunning hunread hframed (respondTo_echoes hresponse) sent
  dsimp only
  split
  · exact h.insert (htask.panics hrunning hunread) rfl
  · rename_i hresponse
    exact h.insert (hanswers hresponse) rfl
  · rename_i hresponse
    exact h.insert (hanswers hresponse) rfl

theorem AllAnswer.turn (h : l.AllAnswer) (htask : task.Answers) (moment : ServerMoment)
    (sent : Option Nat) : (l.turn overflowChecks env id moment sent task).AllAnswer := by
  unfold Listener.turn
  cases hpc : task.pc with
  | looping =>
    have hrunning : task.isRunning := by rw [ConnectionTask.isRunning, hpc]
    dsimp only
    split
    · exact h.insert (htask.goesOn hrunning _) rfl
    · exact h.insert (htask.goesOn hrunning _) rfl
  | reading =>
    have hrunning : task.isRunning := by rw [ConnectionTask.isRunning, hpc]
    dsimp only
    split
    · exact h
    · exact h.insert (htask.goesOn hrunning _) rfl
    · exact h.insert (htask.goesOn hrunning _) rfl
    · rename_i command rest hread
      obtain ⟨hunread, hframed, -⟩ := readCommand_eq_ok_iff.mp hread
      exact h.serve htask hrunning hunread hframed moment sent
  | returned error => exact h
  | panicked => exact h

theorem AllAnswer.step (h : l.AllAnswer) (op : ListenerOp) :
    (l.step overflowChecks env op).AllAnswer := by
  have honTask {f : ConnectionTask → Listener C} (own : Uuid)
      (hf : ∀ {task : ConnectionTask}, task.Answers → (f task).AllAnswer) :
      (l.onTask own f).AllAnswer := by
    unfold onTask
    split
    · exact h
    · rename_i task htask
      exact hf (h own task htask)
  cases op with
  | accept own remoteAddr =>
    show (l.accept own remoteAddr).AllAnswer
    unfold accept
    split
    · exact h
    · exact h.insert ConnectionTask.answers_start rfl
  | arrive own bytes => exact honTask own fun htask => h.insert (htask.arrive bytes) rfl
  | turn own moment sent => exact honTask own fun htask => h.turn htask moment sent
  | readFails own =>
    refine honTask own fun {task} htask => ?_
    unfold readFails
    split
    · rename_i hpc
      have hrunning : task.isRunning := by rw [ConnectionTask.isRunning, hpc]
      exact h.insert (htask.goesOn hrunning _) rfl
    · exact h
  | cleanup timeout now => exact h

theorem allAnswer_run (manager : ConnectionManager C) (ops : List ListenerOp) :
    (run overflowChecks env manager ops).AllAnswer := by
  induction ops using List.reverseRecOn with
  | nil =>
    intro id task htask
    rw [run, List.foldl_nil, Listener.start] at htask
    simp at htask
  | append_singleton ops op ih =>
    rw [run, List.foldl_concat]
    exact ih.step op

end Listener

/-! ## What a client sees -/

/-- A command is awaited, and what has arrived holds none. -/
def ConnectionTask.Waits (overflowChecks : Bool) (task : ConnectionTask) : Prop :=
  task.pc = .reading ∧ readCommand overflowChecks task.unread = .error .incomplete

/-- What a client that sends these commands sees of its connection: they are taken in order, the
bytes it gets are one response to each with the number of the command, and a task that waits when
all of them have arrived has answered all of them. -/
structure ConnectionTask.ServesInOrder (overflowChecks : Bool) (task : ConnectionTask)
    (commands : List Command) : Prop where
  inOrder : task.served.map Prod.fst <+: commands
  numbers : ∀ answer ∈ task.served, answer.2.header.seq = answer.1.header.seq
  readBack : task.pc ≠ .returned .write →
    PackedResponse.code.split task.written = some (task.served.map fun answer => answer.2.packed)
  cut : task.written <+: task.responses
  all : task.received = (commands.map Command.toBytes).flatten → task.Waits overflowChecks →
    task.served.map Prod.fst = commands

namespace ConnectionTask

variable {overflowChecks : Bool} {task : ConnectionTask} {commands : List Command}

/-- The commands that were taken are the first ones of the client, and what is left of its bytes
are the others. -/
theorem Answers.split (h : task.Answers) (hcommands : ∀ command ∈ commands, command.Framed)
    {later : Bytes} (hsent : task.received ++ later = (commands.map Command.toBytes).flatten) :
    ∃ lost rest, commands = task.served.map Prod.fst ++ rest ∧
      lost ++ (task.unread ++ later) = (rest.map Command.toBytes).flatten ∧
      (task.pc ≠ .panicked → lost = []) := by
  obtain ⟨lost, hreceived, hlost⟩ := h.received
  have hserved : ∀ command ∈ task.served.map Prod.fst, command.Framed := by
    intro command hcommand
    obtain ⟨answer, hanswer, hsame⟩ := List.mem_map.mp hcommand
    rw [← hsame]
    exact h.framed answer hanswer
  have htaken : task.taken = ((task.served.map Prod.fst).map Command.toBytes).flatten := by
    rw [List.map_map]
    rfl
  rw [hreceived, htaken, List.append_assoc, List.append_assoc] at hsent
  obtain ⟨rest, hrest, htail⟩ := (Command.code true).eq_append_of_flatten
    (fun command hcommand => Command.code_reads (hserved command hcommand))
    (fun command hcommand => Command.code_reads (hcommands command hcommand)) hsent
  exact ⟨lost, rest, hrest, htail, hlost⟩

/-- The bytes that were written are taken apart into the responses. -/
theorem Answers.split_written (h : task.Answers) (hwrite : task.pc ≠ .returned .write)
    (hpayloads : ∀ answer ∈ task.served, answer.2.payload.length < 2 ^ 32) :
    PackedResponse.code.split task.written =
      some (task.served.map fun answer => answer.2.packed) := by
  have hreads : ∀ response ∈ task.served.map fun answer => answer.2.packed,
      PackedResponse.code.Reads response := by
    intro response hresponse
    obtain ⟨answer, hanswer, hsame⟩ := List.mem_map.mp hresponse
    obtain ⟨status, payload, hnew⟩ := h.echoes answer hanswer
    have hpayload := hpayloads answer hanswer
    rw [hnew] at hpayload
    rw [← hsame, hnew]
    exact PackedResponse.code_reads (PackedResponse.framed_new status _ hpayload)
  have hwritten : task.written =
      ((task.served.map fun answer => answer.2.packed).map PackedResponse.code.encode).flatten := by
    rw [h.whole hwrite, responses, List.map_map]
    rfl
  rw [hwritten]
  exact Code.split_flatten hreads

theorem Answers.servesInOrder (h : task.Answers)
    (hcommands : ∀ command ∈ commands,
      command.Framed ∧ command.key.length + command.value.length ≤ maxPayload)
    (hsent : task.received <+: (commands.map Command.toBytes).flatten)
    (hpayloads : ∀ answer ∈ task.served, answer.2.payload.length < 2 ^ 32) :
    task.ServesInOrder overflowChecks commands where
  inOrder := by
    obtain ⟨later, hlater⟩ := hsent
    obtain ⟨lost, rest, hrest, -, -⟩ :=
      h.split (fun command hcommand => (hcommands command hcommand).1) hlater
    rw [hrest]
    exact List.prefix_append _ _
  numbers answer hanswer := by
    obtain ⟨status, payload, hnew⟩ := h.echoes answer hanswer
    rw [hnew]
    rfl
  readBack hwrite := h.split_written hwrite hpayloads
  cut := h.written
  all := by
    intro hall ⟨hpc, hwaits⟩
    rw [← List.append_nil task.received] at hall
    obtain ⟨lost, rest, hrest, htail, hlost⟩ :=
      h.split (fun command hcommand => (hcommands command hcommand).1) hall
    have hpanic : task.pc ≠ .panicked := by
      rw [hpc]
      decide
    rw [hlost hpanic, List.append_nil, List.nil_append] at htail
    cases rest with
    | nil =>
      rw [hrest, List.append_nil]
    | cons command rest =>
      -- the next command of the client would stand at the front
      have hmem : command ∈ commands := by
        rw [hrest]
        exact List.mem_append_right _ List.mem_cons_self
      obtain ⟨hframed, hlimit⟩ := hcommands command hmem
      rw [List.map_cons, List.flatten_cons] at htail
      rw [readCommand_eq_ok_iff.mpr ⟨htail, hframed, hlimit⟩] at hwaits
      cases hwaits

end ConnectionTask

namespace Listener

variable {C : Type}

/-- Each client is answered as if it were alone, whatever the others send and however the tasks
take turns. -/
theorem run_servesInOrder (overflowChecks : Bool) (env : ServerEnv C)
    (manager : ConnectionManager C) (ops : List ListenerOp) {id : Uuid} {task : ConnectionTask}
    {commands : List Command}
    (htask : (run overflowChecks env manager ops).tasks[id]? = some task)
    (hcommands : ∀ command ∈ commands,
      command.Framed ∧ command.key.length + command.value.length ≤ maxPayload)
    (hsent : task.received <+: (commands.map Command.toBytes).flatten)
    (hpayloads : ∀ answer ∈ task.served, answer.2.payload.length < 2 ^ 32) :
    task.ServesInOrder overflowChecks commands :=
  (allAnswer_run manager ops id task htask).servesInOrder hcommands hsent hpayloads

def twoClients : List ListenerOp :=
  [.accept 1 "10.0.0.1:4000", .accept 2 "10.0.0.2:4000", .turn 1 expired none,
    .arrive 1 ((Command.new .ping 7 [] []).toBytes.take 10), .turn 1 expired none,
    .arrive 2 (Command.new .listUsers 3 [] []).toBytes, .turn 2 expired none,
    .arrive 1 ((Command.new .ping 7 [] []).toBytes.drop 10), .turn 2 expired none,
    .turn 1 expired none, .turn 1 expired none]

def firstTask : ConnectionTask :=
  ((run true smallServer startedServer twoClients).tasks[(1 : Uuid)]?).getD .start

theorem run_servesInOrder_twoClients :
    firstTask.ServesInOrder true [Command.new .ping 7 [] []] := by
  have htask : (run true smallServer startedServer twoClients).tasks[(1 : Uuid)]? =
      some firstTask := by
    decide +kernel
  refine run_servesInOrder true smallServer startedServer twoClients htask ?_ ?_ ?_
  · intro command hcommand
    rw [List.mem_singleton.mp hcommand]
    exact ⟨Command.framed_new .ping 7 (by decide), by decide⟩
  · decide +kernel
  · decide +kernel

end Listener

end VedDb
