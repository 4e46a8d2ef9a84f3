import VedDb.Lib.Totals
import VedDb.Protocol.Listener

/-!
# Permits

The semaphore of `listen` in `protocol/connection.rs`, and the pool of connections.  A permit is
held for as long as the task of a connection runs.
-/

namespace VedDb

open LittleEndian (Bytes)

namespace Listener

variable {C : Type}

def running (l : Listener C) : Nat := total (fun task => task.isRunning.toNat) l.tasks

def inPool (l : Listener C) (id : Uuid) : Bool := l.manager.access.connections.contains id

/-- The tasks that run hold the permits that are taken, a stream is dropped only when all of them
are, and what stands in the pool is the connection of a task that runs or has panicked. -/
structure Bounded (l : Listener C) : Prop where
  counted : l.running + l.permits = maxConnections
  dropped (id : Uuid) (remoteAddr : String) :
    l.accept id remoteAddr = l ↔ l.running = maxConnections
  pooled (id : Uuid) : l.inPool id →
    ∃ task, l.tasks[id]? = some task ∧ (task.isRunning ∨ task.pc = .panicked)

/-- The identifier of a new connection is a new one. -/
def Fresh (l : Listener C) : ListenerOp → Prop
  | .accept id _ => l.tasks[id]? = none
  | _ => True

variable {overflowChecks : Bool} {env : ServerEnv C} {l : Listener C} {id : Uuid}
variable {task : ConnectionTask}

theorem accept_eq_self_iff (hcounted : l.running + l.permits = maxConnections)
    (id : Uuid) (remoteAddr : String) :
    l.accept id remoteAddr = l ↔ l.running = maxConnections := by
  have hpermits : l.accept id remoteAddr = l ↔ l.permits = 0 := by
    unfold accept
    constructor
    · intro h
      by_contra hne
      rw [if_neg hne] at h
      have hless : l.permits - 1 = l.permits := congrArg Listener.permits h
      omega
    · intro h
      rw [if_pos h]
  rw [hpermits]
  omega

theorem running_insert {after : Listener C} {old : ConnectionTask}
    (hold : l.tasks[id]? = some old) (htasks : after.tasks = l.tasks.insert id task) :
    after.running + old.isRunning.toNat = l.running + task.isRunning.toNat := by
  have hbefore := total_of_some (fun task : ConnectionTask => task.isRunning.toNat) hold
  have hafter := total_insert (fun task : ConnectionTask => task.isRunning.toNat) l.tasks id task
  rw [running, running, htasks, hafter, hbefore]
  omega

/-- A task goes on: what its permit and its connection become decides. -/
theorem Bounded.change {after : Listener C} {old : ConnectionTask} (h : l.Bounded)
    (hold : l.tasks[id]? = some old) (htasks : after.tasks = l.tasks.insert id task)
    (hpermits : after.permits + task.isRunning.toNat = l.permits + old.isRunning.toNat)
    (hpool : ∀ other, after.inPool other → l.inPool other)
    (hown : after.inPool id → task.isRunning ∨ task.pc = .panicked) : after.Bounded := by
  have hrunning := running_insert hold htasks
  have hcounted : after.running + after.permits = maxConnections := by
    have hbefore := h.counted
    omega
  refine ⟨hcounted, accept_eq_self_iff hcounted, fun other hother => ?_⟩
  rw [htasks, lookup_insert]
  by_cases hsame : id = other
  · rw [if_pos hsame]
    rw [← hsame] at hother
    exact ⟨task, rfl, hown hother⟩
  · rw [if_neg hsame]
    exact h.pooled other (hpool other hother)

theorem Bounded.withTask (h : l.Bounded) {old : ConnectionTask} (hold : l.tasks[id]? = some old)
    (hrunning : task.isRunning = old.isRunning) (hpc : task.isRunning ∨ task.pc = old.pc) :
    (l.withTask id task).Bounded := by
  refine h.change hold rfl (by rw [hrunning]; rfl) (fun _ hother => hother) fun hown => ?_
  obtain ⟨own, hsome, hor⟩ := h.pooled id hown
  rw [hold] at hsome
  obtain rfl := Option.some.inj hsome
  rcases hor with hor | hor
  · exact Or.inl (hrunning.trans hor)
  · exact hpc.imp_right fun hpc => hpc.trans hor

theorem Bounded.finish (h : l.Bounded) {old : ConnectionTask} (hold : l.tasks[id]? = some old)
    (hrunning : old.isRunning) (hended : task.isRunning = false) : (l.finish id task).Bounded := by
  have hpool (other : Uuid) : (l.finish id task).inPool other =
      if id = other then false else l.inPool other := by
    show (l.manager.access.connections.erase id).contains other = _
    rw [Std.ExtTreeMap.contains_eq_isSome_getElem?, lookup_erase]
    split
    · rfl
    · exact Std.ExtTreeMap.contains_eq_isSome_getElem?.symm
  refine h.change hold rfl ?_ (fun other hother => ?_) fun hown => ?_
  · rw [hrunning, hended]
    rfl
  · rw [hpool] at hother
    split at hother
    · cases hother
    · exact hother
  · rw [hpool, if_pos rfl] at hown
    cases hown

theorem Bounded.unwind (h : l.Bounded) {old : ConnectionTask} (hold : l.tasks[id]? = some old)
    (hrunning : old.isRunning) : (l.unwind id task).Bounded := by
  refine h.change hold rfl ?_ (fun _ hother => hother) fun _ => Or.inr rfl
  rw [hrunning]
  rfl

theorem respondTo_contains {moment : ServerMoment} {manager after : ConnectionManager C}
    {command : Command} {response : Option Response}
    (h : respondTo env moment manager id command = (response, after)) (other : Uuid) :
    after.access.connections.contains other = manager.access.connections.contains other := by
  have hafter : after = (manager.processCommand env moment id command).2 := by
    unfold respondTo at h
    split at h
    all_goals
      rename_i hserved
      cases h
      rw [hserved]
  rw [hafter]
  have hopens : manager.access.OpensAtMost id moment.instant
      (manager.processCommand env moment id command).2.access :=
    ConnectionManager.processCommand_opensAtMost
  rcases hopens with
    ⟨hconnections, -⟩ | ⟨connection, session, hconnection, -, -, hconnections, -⟩
  · rw [hconnections]
  · rw [hconnections]
    exact contains_insert_of_some hconnection other

theorem Bounded.withManager (h : l.Bounded) {manager : ConnectionManager C}
    (hpool : ∀ other, manager.access.connections.contains other = true → l.inPool other) :
    ({ l with manager := manager } : Listener C).Bounded where
  counted := h.counted
  dropped := accept_eq_self_iff h.counted
  pooled other hother := h.pooled other (hpool other hother)

theorem Bounded.serve (h : l.Bounded) (htask : l.tasks[id]? = some task)
    (hrunning : task.isRunning) (moment : ServerMoment) (sent : Option Nat) (command : Command)
    (rest : Bytes) : (l.serve env id moment sent task command rest).Bounded := by
  have hmanager {response : Option Response} {after : ConnectionManager C}
      (hresponse : respondTo env moment
        { l.manager with access := l.manager.access.updateActivity id moment.instant } id
        command = (response, after)) : ({ l with manager := after } : Listener C).Bounded := by
    refine h.withManager fun other hother => ?_
    rw [respondTo_contains hresponse] at hother
    have hupdate : (l.manager.access.updateActivity id moment.instant).connections.contains other =
        l.inPool other := Access.updateActivity_connections id other
    exact hupdate.symm.trans hother
  unfold Listener.serve
  dsimp only
  split
  · rename_i hresponse
    exact (hmanager hresponse).unwind htask hrunning
  · rename_i hresponse
    exact (hmanager hresponse).withTask htask hrunning.symm (Or.inl rfl)
  · rename_i hresponse
    exact (hmanager hresponse).finish htask hrunning rfl

theorem Bounded.turn (h : l.Bounded) (htask : l.tasks[id]? = some task) (moment : ServerMoment)
    (sent : Option Nat) : (l.turn overflowChecks env id moment sent task).Bounded := by
  unfold Listener.turn
  cases hpc : task.pc with
  | looping =>
    have hrunning : task.isRunning := by rw [ConnectionTask.isRunning, hpc]
    dsimp only
    split
    · exact h.withTask htask hrunning.symm (Or.inl rfl)
    · exact h.finish htask hrunning rfl
  | reading =>
    have hrunning : task.isRunning := by rw [ConnectionTask.isRunning, hpc]
    dsimp only
    split
    · exact h
    · exact h.finish htask hrunning rfl
    · exact h.unwind htask hrunning
    · exact h.serve htask hrunning moment sent _ _
  | returned error => exact h
  | panicked => exact h

theorem Bounded.accept (h : l.Bounded) (hfresh : l.tasks[id]? = none) (remoteAddr : String) :
    (l.accept id remoteAddr).Bounded := by
  unfold Listener.accept
  split
  · exact h
  · rename_i hpermits
    have hrunning : total (fun task : ConnectionTask => task.isRunning.toNat)
        (l.tasks.insert id .start) = 1 + l.running := by
      rw [total_insert, erase_of_none hfresh]
      rfl
    have hcounted : total (fun task : ConnectionTask => task.isRunning.toNat)
        (l.tasks.insert id .start) + (l.permits - 1) = maxConnections := by
      have hbefore := h.counted
      omega
    refine ⟨hcounted, accept_eq_self_iff hcounted, fun other hother => ?_⟩
    rw [lookup_insert]
    by_cases hsame : id = other
    · rw [if_pos hsame]
      exact ⟨.start, rfl, Or.inl rfl⟩
    · rw [if_neg hsame]
      apply h.pooled other
      rw [inPool] at hother ⊢
      dsimp only [Access.openConnection] at hother
      rw [Std.ExtTreeMap.contains_eq_isSome_getElem?, lookup_insert, if_neg hsame] at hother
      rw [Std.ExtTreeMap.contains_eq_isSome_getElem?]
      exact hother

theorem Bounded.step (h : l.Bounded) {op : ListenerOp} (hfresh : l.Fresh op) :
    (l.step overflowChecks env op).Bounded := by
  have honTask {f : ConnectionTask → Listener C} (own : Uuid)
      (hf : ∀ {task : ConnectionTask}, l.tasks[own]? = some task → (f task).Bounded) :
      (l.onTask own f).Bounded := by
    unfold onTask
    split
    · exact h
    · rename_i task htask
      exact hf htask
  cases op with
  | accept own remoteAddr => exact h.accept hfresh remoteAddr
  | arrive own bytes => exact honTask own fun htask => h.withTask htask rfl (Or.inr rfl)
  | turn own moment sent => exact honTask own fun htask => h.turn htask moment sent
  | readFails own =>
    refine honTask own fun {task} htask => ?_
    unfold readFails
    split
    · rename_i hpc
      have hrunning : task.isRunning := by rw [ConnectionTask.isRunning, hpc]
      exact h.finish htask hrunning rfl
    · exact h
  | cleanup timeout now =>
    refine h.withManager fun other hother => ?_
    by_cases hexpired : l.manager.access.SomeExpired timeout now
    · rw [Std.ExtTreeMap.contains_eq_isSome_getElem?,
        Access.cleanup_connections hexpired] at hother
      cases hother
    · rw [Std.ExtTreeMap.contains_eq_isSome_getElem?,
        Access.cleanup_connections_of_none hexpired] at hother
      rw [inPool, Std.ExtTreeMap.contains_eq_isSome_getElem?]
      exact hother

theorem bounded_start (manager : ConnectionManager C) : (start manager).Bounded := by
  have hcounted : (start manager).running + (start manager).permits = maxConnections := by
    rw [running, Listener.start, total_empty, Nat.zero_add]
  refine ⟨hcounted, accept_eq_self_iff hcounted, fun id hid => ?_⟩
  rw [inPool, Listener.start] at hid
  simp at hid

/-- At every point of a run the server has at most as many connections as it has permits. -/
theorem run_bounded (overflowChecks : Bool) (env : ServerEnv C) {manager : ConnectionManager C}
    {ops : List ListenerOp}
    (hfresh : MeetsAlong (step overflowChecks env) Fresh (start manager) ops) :
    (run overflowChecks env manager ops).Bounded :=
  hfresh.invariant (fun h hop => h.step hop) (bounded_start manager)

theorem run_bounded_twoClients : (run true smallServer startedServer twoClients).Bounded := by
  apply run_bounded
  refine ⟨?_, ?_, trivial, trivial, trivial, trivial, trivial, trivial, trivial, trivial, trivial,
    trivial⟩
  · show (start startedServer).tasks[(1 : Uuid)]? = none
    decide +kernel
  · show (step true smallServer (start startedServer)
      (.accept 1 "10.0.0.1:4000")).tasks[(2 : Uuid)]? = none
    decide +kernel

end Listener

end VedDb
