import VedDb.Protocol.Authorization

/-!
# Expiry of sessions

`cleanup_expired_sessions` of `protocol/connection.rs`.  A session stands in the map of sessions and
in its connection.  A command is noted in the connection only, a disconnect removes the connection
only, and an expiry of any session removes all connections.
-/

namespace VedDb

/-! ## The sessions of a server -/

def Session.isExpired (timeout now : Nat) (session : Session) : Bool :=
  timeout < now - session.lastActivity

namespace Access

def updateActivity (access : Access) (id : Uuid) (now : Nat) : Access :=
  match access.connections[id]? with
  | some ⟨remoteAddr, .authenticated session⟩ =>
    { access with
      connections := access.connections.insert id
        ⟨remoteAddr, .authenticated { session with lastActivity := now }⟩ }
  | _ => access

/-- A round of the loop over the expired sessions: every connection counts as one of the session. -/
def closeExpired (access : Access) (sessionId : Uuid) : Access :=
  match access.sessions[sessionId]? with
  | none => access
  | some _ =>
    { access with
      sessions := access.sessions.erase sessionId
      connections := access.connections.keys.foldl Std.ExtTreeMap.erase access.connections }

def cleanupExpiredSessions (timeout now : Nat) (access : Access) : Access :=
  let expiredSessions :=
    (access.sessions.toList.filter fun entry => entry.2.isExpired timeout now).map Prod.fst
  expiredSessions.foldl closeExpired access

def carried (access : Access) (id : Uuid) : Option Uuid :=
  match access.stateOf id with
  | some (.authenticated session) => some session.id
  | _ => none

end Access

/-! ## Watching a server -/

/-- A server with its clock.  Beside it stands what its clients know: the connection on which a
session was opened, and when the last command came in on the connection that carried it. -/
structure WatchedServer (C : Type) where
  manager : ConnectionManager C
  now : Nat
  openedOn : Uuid → Option Uuid
  lastCommand : Uuid → Nat

inductive SessionOp where
  | connect (id : Uuid) (remoteAddr : String)
  | command (id : Uuid) (moment : ServerMoment) (command : Command)
  | disconnect (id : Uuid)
  | advance (millis : Nat)
  | cleanup

namespace WatchedServer

variable {C : Type} (env : ServerEnv C) (timeout : Nat)

def start (manager : ConnectionManager C) (now : Nat) : WatchedServer C where
  manager :=
    { manager with access := { manager.access with connections := ∅, sessions := ∅ } }
  now := now
  openedOn _ := none
  lastCommand _ := 0

variable (w : WatchedServer C)

def access : Access := w.manager.access

/-- The connections and sessions change, the rest of the server stays. -/
def withAccess (access : Access) : WatchedServer C :=
  { w with manager := { w.manager with access := access } }

/-- The connection's task takes a command. -/
def served (id : Uuid) (moment : ServerMoment) (command : Command) : ConnectionManager C :=
  (ConnectionManager.processCommand env { moment with instant := w.now }
    { w.manager with access := w.access.updateActivity id w.now } id command).2

def step : SessionOp → WatchedServer C
  | .connect id remoteAddr => w.withAccess (w.access.openConnection id remoteAddr)
  | .command id moment command =>
    let after := w.served env id moment command
    { manager := after
      now := w.now
      openedOn := fun session =>
        if after.access.carried id = some session then some id else w.openedOn session
      lastCommand := fun session =>
        if w.access.carried id = some session ∨ after.access.carried id = some session then w.now
        else w.lastCommand session }
  | .disconnect id => w.withAccess (w.access.closeConnection id)
  | .advance millis => { w with now := w.now + millis }
  | .cleanup => w.withAccess (w.access.cleanupExpiredSessions timeout w.now)

/-! ## What an expiry should do -/

def Idle (session : Uuid) : Prop := timeout < w.now - w.lastCommand session

/-- The connection carries a session that expires. -/
def CarriesIdle (id : Uuid) : Prop :=
  ∃ session, w.access.carried id = some session ∧ w.access.sessions.contains session ∧
    w.Idle timeout session

structure ExpiresExactly : Prop where
  sessions : ∀ (id : Uuid) (session : Session), w.access.sessions[id]? = some session →
    (w.access.cleanupExpiredSessions timeout w.now).sessions[id]? =
      if timeout < w.now - w.lastCommand id then none else some session
  closed : ∀ id : Uuid, w.CarriesIdle timeout id →
    (w.access.cleanupExpiredSessions timeout w.now).connections[id]? = none
  kept : ∀ id : Uuid, ¬w.CarriesIdle timeout id →
    (w.access.cleanupExpiredSessions timeout w.now).connections[id]? = w.access.connections[id]?

def NoneOutlives : Prop :=
  ∀ (id : Uuid) (session : Session), w.access.sessions[id]? = some session →
    ∃ connection, w.openedOn id = some connection ∧ w.access.connections.contains connection

def Right (op : SessionOp) : Prop :=
  (op = .cleanup → w.ExpiresExactly timeout) ∧ (w.step env timeout op).NoneOutlives

def OpenedLongAgo (session : Session) : Prop := timeout < w.now - session.createdAt

def AllIdle : Prop :=
  (∀ (id : Uuid) (session : Session), w.access.sessions[id]? = some session → w.Idle timeout id) ∧
    ∀ connection, w.access.connections.contains connection →
      ∃ id, w.access.carried connection = some id ∧ w.access.sessions.contains id

/-- The sessions of a connection have been removed when it ends.  At a cleanup no session was opened
longer ago than the timeout; or none had a command since then, and every connection carries one. -/
def Orderly : SessionOp → Prop
  | .disconnect connection =>
    ∀ (id : Uuid) (session : Session), w.access.sessions[id]? = some session →
      w.openedOn id ≠ some connection
  | .cleanup =>
    (∀ (id : Uuid) (session : Session), w.access.sessions[id]? = some session →
      ¬w.OpenedLongAgo timeout session) ∨
    w.AllIdle timeout
  | _ => True

end WatchedServer

/-! ## What a cleanup does -/

namespace Access

variable {timeout now : Nat} {access : Access}

theorem foldl_erase_keys (connections : Std.ExtTreeMap Uuid ClientConnection) (id : Uuid) :
    (connections.keys.foldl Std.ExtTreeMap.erase connections)[id]? = none := by
  have herase : ∀ (keys : List Uuid) (map : Std.ExtTreeMap Uuid ClientConnection),
      (keys.foldl Std.ExtTreeMap.erase map)[id]? = if id ∈ keys then none else map[id]? := by
    intro keys
    induction keys with
    | nil => exact fun map => rfl
    | cons key keys ih =>
      intro map
      rw [List.foldl_cons, ih, lookup_erase]
      by_cases hkey : key = id
      · simp [hkey]
      · simp [hkey, Ne.symm hkey]
  rw [herase]
  split
  next => rfl
  next hnot =>
    rw [Std.ExtTreeMap.mem_keys] at hnot
    exact Std.ExtTreeMap.getElem?_eq_none hnot

theorem closeExpired_of_none {sessionId : Uuid} (h : access.sessions[sessionId]? = none) :
    access.closeExpired sessionId = access := by
  rw [closeExpired, h]

theorem closeExpired_sessions (access : Access) (sessionId id : Uuid) :
    (access.closeExpired sessionId).sessions[id]? =
      if sessionId = id then none else access.sessions[id]? := by
  cases hsession : access.sessions[sessionId]? with
  | none =>
    rw [closeExpired_of_none hsession]
    split
    next heq =>
      rw [← heq]
      exact hsession
    next => rfl
  | some session =>
    rw [closeExpired, hsession]
    exact lookup_erase _ _ _

theorem closeExpired_connections {sessionId : Uuid} (h : access.sessions[sessionId]? ≠ none)
    (id : Uuid) : (access.closeExpired sessionId).connections[id]? = none := by
  cases hsession : access.sessions[sessionId]? with
  | none => exact absurd hsession h
  | some session =>
    rw [closeExpired, hsession]
    exact foldl_erase_keys access.connections id

theorem foldl_closeExpired_sessions (ids : List Uuid) (access : Access) (id : Uuid) :
    (ids.foldl closeExpired access).sessions[id]? =
      if id ∈ ids then none else access.sessions[id]? := by
  induction ids generalizing access with
  | nil => rfl
  | cons own ids ih =>
    rw [List.foldl_cons, ih, closeExpired_sessions]
    by_cases hown : own = id
    · simp [hown]
    · simp [hown, Ne.symm hown]

/-- Connections that are gone stay away. -/
theorem foldl_closeExpired_none {ids : List Uuid} {id : Uuid} :
    ∀ {access : Access}, access.connections[id]? = none →
      (ids.foldl closeExpired access).connections[id]? = none := by
  intro access h
  induction ids generalizing access with
  | nil => exact h
  | cons own ids ih =>
    cases hsession : access.sessions[own]? with
    | none =>
      rw [List.foldl_cons, closeExpired_of_none hsession]
      exact ih h
    | some session =>
      have hne : access.sessions[own]? ≠ none := by
        rw [hsession]
        exact Option.some_ne_none session
      exact ih (closeExpired_connections hne id)

theorem foldl_closeExpired_connections (ids : List Uuid) (access : Access) (id : Uuid) :
    (ids.foldl closeExpired access).connections[id]? =
      if ∃ own ∈ ids, access.sessions[own]? ≠ none then none else access.connections[id]? := by
  induction ids with
  | nil => simp
  | cons own ids ih =>
    cases hsession : access.sessions[own]? with
    | none =>
      rw [List.foldl_cons, closeExpired_of_none hsession, ih]
      simp only [List.mem_cons, exists_eq_or_imp, hsession, ne_eq, not_true_eq_false, false_or]
    | some session =>
      have hne : access.sessions[own]? ≠ none := by
        rw [hsession]
        exact Option.some_ne_none session
      rw [if_pos ⟨own, List.mem_cons_self, hne⟩, List.foldl_cons]
      exact foldl_closeExpired_none (closeExpired_connections hne id)

theorem mem_expired {id : Uuid} :
    id ∈ (access.sessions.toList.filter fun entry => entry.2.isExpired timeout now).map Prod.fst ↔
      ∃ session, access.sessions[id]? = some session ∧ session.isExpired timeout now = true := by
  rw [List.mem_map]
  constructor
  · rintro ⟨⟨own, session⟩, hmem, rfl⟩
    obtain ⟨hentry, hexpired⟩ := List.mem_filter.mp hmem
    exact ⟨session, Std.ExtTreeMap.mem_toList_iff_getElem?_eq_some.mp hentry, hexpired⟩
  · rintro ⟨session, hsession, hexpired⟩
    exact ⟨(id, session), List.mem_filter.mpr
      ⟨Std.ExtTreeMap.mem_toList_iff_getElem?_eq_some.mpr hsession, hexpired⟩, rfl⟩

theorem cleanup_sessions {id : Uuid} {session : Session}
    (h : access.sessions[id]? = some session) :
    (access.cleanupExpiredSessions timeout now).sessions[id]? =
      if session.isExpired timeout now = true then none else some session := by
  rw [cleanupExpiredSessions, foldl_closeExpired_sessions]
  simp only [mem_expired, h, Option.some.injEq, exists_eq_left']

theorem cleanup_session_iff {id : Uuid} {session : Session} :
    (access.cleanupExpiredSessions timeout now).sessions[id]? = some session ↔
      access.sessions[id]? = some session ∧ ¬session.isExpired timeout now = true := by
  cases hbefore : access.sessions[id]? with
  | none =>
    rw [cleanupExpiredSessions, foldl_closeExpired_sessions, hbefore, ite_self]
    simp
  | some before =>
    rw [cleanup_sessions hbefore]
    by_cases hexpired : before.isExpired timeout now = true
    · rw [if_pos hexpired]
      refine iff_of_false (Option.some_ne_none session).symm ?_
      rintro ⟨⟨⟩, hnot⟩
      exact hnot hexpired
    · rw [if_neg hexpired]
      refine (and_iff_left_of_imp ?_).symm
      rintro ⟨⟩
      exact hexpired

def SomeExpired (timeout now : Nat) (access : Access) : Prop :=
  ∃ (id : Uuid) (session : Session), access.sessions[id]? = some session ∧
    session.isExpired timeout now = true

theorem someExpired_iff : (∃ own ∈ (access.sessions.toList.filter fun entry =>
    entry.2.isExpired timeout now).map Prod.fst, access.sessions[own]? ≠ none) ↔
      access.SomeExpired timeout now := by
  constructor
  · rintro ⟨own, hown, -⟩
    obtain ⟨session, hsession, hexpired⟩ := mem_expired.mp hown
    exact ⟨own, session, hsession, hexpired⟩
  · rintro ⟨own, session, hsession, hexpired⟩
    refine ⟨own, mem_expired.mpr ⟨session, hsession, hexpired⟩, ?_⟩
    rw [hsession]
    exact Option.some_ne_none session

theorem cleanup_connections (h : access.SomeExpired timeout now) (id : Uuid) :
    (access.cleanupExpiredSessions timeout now).connections[id]? = none := by
  rw [cleanupExpiredSessions, foldl_closeExpired_connections, if_pos (someExpired_iff.mpr h)]

theorem cleanup_connections_of_none (h : ¬access.SomeExpired timeout now) (id : Uuid) :
    (access.cleanupExpiredSessions timeout now).connections[id]? = access.connections[id]? := by
  rw [cleanupExpiredSessions, foldl_closeExpired_connections,
    if_neg fun hexpired => h (someExpired_iff.mp hexpired)]

/-! ## What a command does -/

theorem carried_eq_some {id session : Uuid} (h : access.carried id = some session) :
    access.connections.contains id = true := by
  rw [carried, stateOf] at h
  rw [contains_iff_exists]
  cases hconnection : access.connections[id]? with
  | none =>
    rw [hconnection] at h
    cases h
  | some connection => exact ⟨connection, rfl⟩

/-- A command is noted in its connection, which stays where it is. -/
theorem updateActivity_connections (id other : Uuid) :
    (access.updateActivity id now).connections.contains other =
      access.connections.contains other := by
  rw [updateActivity]
  split
  next hconnection => exact contains_insert_of_some hconnection other
  next => rfl

theorem updateActivity_sessions (id : Uuid) :
    (access.updateActivity id now).sessions = access.sessions := by
  rw [updateActivity]
  split
  next => rfl
  next => rfl

variable {auth : Authenticator} {moment : AuthMoment} {command : Command}

def OpensAtMost (id : Uuid) (now : Nat) (before after : Access) : Prop :=
  (after.connections = before.connections ∧ after.sessions = before.sessions) ∨
    ∃ connection session, before.connections[id]? = some connection ∧
      session.createdAt = now ∧ session.lastActivity = now ∧
      after.connections =
        before.connections.insert id { connection with state := .authenticated session } ∧
      after.sessions = before.sessions.insert session.id session

theorem handleAuth_opensAtMost (id : Uuid) :
    access.OpensAtMost id moment.instant (access.handleAuth auth moment id command).2 := by
  rw [handleAuth_snd]
  dsimp only
  split
  next => exact .inl ⟨rfl, rfl⟩
  next user _ =>
    rw [establish]
    dsimp only
    cases hconnection : access.connections[id]? with
    | none => exact .inl ⟨rfl, rfl⟩
    | some connection => exact .inr ⟨connection, _, hconnection, rfl, rfl, rfl, rfl⟩

end Access

namespace ConnectionManager

variable {C : Type} {env : ServerEnv C} {moment : ServerMoment} {manager : ConnectionManager C}
  {id : Uuid} {command : Command}

/-- The connections and sessions of two servers are the same. -/
def SameSessions (before after : ConnectionManager C) : Prop :=
  after.access.connections = before.access.connections ∧
    after.access.sessions = before.access.sessions

theorem SameSessions.refl (manager : ConnectionManager C) : SameSessions manager manager :=
  ⟨rfl, rfl⟩

theorem sameSessions_onUsers {context : String} {result : Except String UserManager} :
    SameSessions manager (onUsers env manager command context result).2 := by
  cases result with
  | error error => exact .refl manager
  | ok users => exact ⟨rfl, rfl⟩

/-- The handlers of other commands than `Auth` leave the connections and sessions alone. -/
theorem handle_sameSessions {op : OpCode} (h : op ≠ .auth) :
    SameSessions manager (handle env moment manager id command op).2 := by
  have hserving {α : Type} {result : Except ConnectionError α} {serve : α → Served C}
      (hserve : ∀ value, SameSessions manager (serve value).2) :
      SameSessions manager (serving manager result serve).2 :=
    serving_property (P := SameSessions manager) (.refl manager) hserve
  cases op with
  | auth => exact absurd rfl h
  | createUser => exact hserving fun request => hserving fun hash => sameSessions_onUsers
  | deleteUser | updateUserRole => exact hserving fun request => sameSessions_onUsers
  | createCollection | dropCollection | createIndex | dropIndex | insertDoc | updateDoc
  | deleteDoc => exact hserving fun request => ⟨rfl, rfl⟩
  | restoreBackup | pointInTimeRecover =>
    exact hserving fun backups => hserving fun request => ⟨rfl, rfl⟩
  | createBackup =>
    refine hserving fun backups => hserving fun request => ?_
    dsimp only
    split <;> exact ⟨rfl, rfl⟩
  | deleteBackup =>
    refine hserving fun backups => hserving fun request => ?_
    split <;> exact ⟨rfl, rfl⟩
  | removeSlave =>
    refine hserving fun slaves => hserving fun request => ?_
    split
    · exact ⟨rfl, rfl⟩
    · split <;> exact ⟨rfl, rfl⟩
  | createKey | rotateKey =>
    refine hserving fun engine => hserving fun request => ?_
    dsimp only
    split <;> exact ⟨rfl, rfl⟩
  | importKey =>
    refine hserving fun engine => hserving fun request => ?_
    dsimp only
    split <;> exact ⟨rfl, rfl⟩
  | _ => exact .refl manager

theorem processCommand_opensAtMost : manager.access.OpensAtMost id moment.instant
    (processCommand env moment manager id command).2.access := by
  rw [processCommand]
  split
  next => exact .inl ⟨rfl, rfl⟩
  next command _ =>
    split
    next => exact .inl ⟨rfl, rfl⟩
    next op _ =>
      split
      next => exact .inl ⟨rfl, rfl⟩
      next =>
        by_cases hauth : op = .auth
        · rw [hauth]
          exact Access.handleAuth_opensAtMost id
        · exact .inl (handle_sameSessions hauth)

end ConnectionManager

/-! ## Steps of a server -/

namespace WatchedServer

variable {C : Type} {env : ServerEnv C} {timeout : Nat} {w : WatchedServer C}

section

variable (id : Uuid) (moment : ServerMoment) (command : Command)

theorem served_opensAtMost : (w.access.updateActivity id w.now).OpensAtMost id w.now
    (w.served env id moment command).access :=
  ConnectionManager.processCommand_opensAtMost

theorem served_contains (other : Uuid) :
    (w.served env id moment command).access.connections.contains other =
      w.access.connections.contains other := by
  have hupdate : (w.access.updateActivity id w.now).connections.contains other =
      w.access.connections.contains other := Access.updateActivity_connections id other
  rw [← hupdate]
  have hopens : (w.access.updateActivity id w.now).OpensAtMost id w.now
      (w.served env id moment command).access := served_opensAtMost id moment command
  rcases hopens with ⟨hconnections, -⟩ | ⟨connection, session, hconnection, -, -, hconnections, -⟩
  · rw [hconnections]
  · rw [hconnections]
    exact contains_insert_of_some hconnection other

variable {id moment command}

theorem served_session {own : Uuid} {session : Session}
    (h : (w.served env id moment command).access.sessions[own]? = some session) :
    w.access.sessions[own]? = some session ∨
      (w.served env id moment command).access.carried id = some own ∧
        session.createdAt = w.now ∧ session.lastActivity = w.now := by
  have hopens : (w.access.updateActivity id w.now).OpensAtMost id w.now
      (w.served env id moment command).access := served_opensAtMost id moment command
  rcases hopens with
    ⟨-, hsessions⟩ | ⟨connection, opened, -, hcreated, hactive, hconnections, hsessions⟩
  · rw [hsessions, Access.updateActivity_sessions] at h
    exact .inl h
  · rw [hsessions, lookup_insert, Access.updateActivity_sessions] at h
    split at h
    next hown =>
      cases h
      refine .inr ⟨?_, hcreated, hactive⟩
      rw [Access.carried, Access.stateOf, hconnections, lookup_insert, if_pos rfl, ← hown]
      rfl
    next => exact .inl h

end

/-! ## Instants of the sessions -/

/-- The copy of a session in the map keeps the instant of its opening, and the last command on it
was between that and now. -/
structure Dated (w : WatchedServer C) : Prop where
  unused : ∀ {id : Uuid} {session : Session}, w.access.sessions[id]? = some session →
    session.lastActivity = session.createdAt
  opened : ∀ {id : Uuid} {session : Session}, w.access.sessions[id]? = some session →
    session.createdAt ≤ w.lastCommand id
  past : ∀ {id : Uuid} {session : Session}, w.access.sessions[id]? = some session →
    w.lastCommand id ≤ w.now

theorem dated_start (manager : ConnectionManager C) (now : Nat) : (start manager now).Dated := by
  have hnone (id : Uuid) : (start manager now).access.sessions[id]? = none :=
    Std.ExtTreeMap.getElem?_empty
  constructor
  all_goals
    intro id session hsession
    rw [hnone] at hsession
    cases hsession

theorem Dated.withAccess (h : w.Dated) {access : Access}
    (hsessions : ∀ (id : Uuid) (session : Session), access.sessions[id]? = some session →
      w.access.sessions[id]? = some session) : (w.withAccess access).Dated where
  unused hsession := h.unused (hsessions _ _ hsession)
  opened hsession := h.opened (hsessions _ _ hsession)
  past hsession := h.past (hsessions _ _ hsession)

theorem Dated.command (h : w.Dated) {id : Uuid} {moment : ServerMoment} {command : Command} :
    (w.step env timeout (.command id moment command)).Dated := by
  have hlast {own : Uuid} {session : Session}
      (hsession : (w.served env id moment command).access.sessions[own]? = some session) :
      session.lastActivity = session.createdAt ∧
        session.createdAt ≤ (w.step env timeout (.command id moment command)).lastCommand own ∧
        (w.step env timeout (.command id moment command)).lastCommand own ≤ w.now := by
    rw [step]
    dsimp only
    rcases served_session hsession with hbefore | ⟨hcarried, hcreated, hactive⟩
    · refine ⟨h.unused hbefore, ?_⟩
      split
      next => exact ⟨(h.opened hbefore).trans (h.past hbefore), le_rfl⟩
      next => exact ⟨h.opened hbefore, h.past hbefore⟩
    · rw [if_pos (Or.inr hcarried), hcreated, hactive]
      exact ⟨rfl, le_rfl, le_rfl⟩
  exact ⟨fun hsession => (hlast hsession).1, fun hsession => (hlast hsession).2.1,
    fun hsession => (hlast hsession).2.2⟩

theorem Dated.step (h : w.Dated) (op : SessionOp) : (w.step env timeout op).Dated := by
  cases op with
  | connect id remoteAddr => exact h.withAccess fun _ _ hsession => hsession
  | command id moment command => exact h.command
  | disconnect id => exact h.withAccess fun _ _ hsession => hsession
  | advance millis =>
    exact ⟨h.unused, h.opened, fun hsession => (h.past hsession).trans (Nat.le_add_right _ _)⟩
  | cleanup =>
    refine h.withAccess fun id session hsession => ?_
    exact (Access.cleanup_session_iff.mp hsession).1

theorem Dated.openedLongAgo (h : w.Dated) {id : Uuid} {session : Session}
    (hsession : w.access.sessions[id]? = some session) (hidle : w.Idle timeout id) :
    w.OpenedLongAgo timeout session :=
  Nat.lt_of_lt_of_le hidle (Nat.sub_le_sub_left (h.opened hsession) w.now)

theorem Dated.isExpired_iff (h : w.Dated) {id : Uuid} {session : Session}
    (hsession : w.access.sessions[id]? = some session) :
    session.isExpired timeout w.now = true ↔ w.OpenedLongAgo timeout session := by
  rw [Session.isExpired, h.unused hsession, decide_eq_true_iff, OpenedLongAgo]

/-! ## Sessions and their connections -/

theorem noneOutlives_start (manager : ConnectionManager C) (now : Nat) :
    (start manager now).NoneOutlives := by
  intro id session hsession
  have hnone : (start manager now).access.sessions[id]? = none := Std.ExtTreeMap.getElem?_empty
  rw [hnone] at hsession
  cases hsession

theorem NoneOutlives.connect (h : w.NoneOutlives) (id : Uuid) (remoteAddr : String) :
    (w.step env timeout (.connect id remoteAddr)).NoneOutlives := by
  intro own session hsession
  obtain ⟨connection, hopened, hconnection⟩ := h own session hsession
  refine ⟨connection, hopened, ?_⟩
  show (w.access.connections.insert id _).contains connection = true
  rw [Std.ExtTreeMap.contains_insert, hconnection, Bool.or_true]

theorem NoneOutlives.command (h : w.NoneOutlives) (id : Uuid) (moment : ServerMoment)
    (command : Command) : (w.step env timeout (.command id moment command)).NoneOutlives := by
  intro own session hsession
  by_cases hcarried : (w.served env id moment command).access.carried id = some own
  · exact ⟨id, if_pos hcarried, Access.carried_eq_some hcarried⟩
  · have hbefore : w.access.sessions[own]? = some session := by
      rcases served_session hsession with hbefore | ⟨hown, -⟩
      · exact hbefore
      · exact absurd hown hcarried
    obtain ⟨connection, hopened, hconnection⟩ := h own session hbefore
    refine ⟨connection, (if_neg hcarried).trans hopened, ?_⟩
    rw [← served_contains (w := w) id moment command] at hconnection
    exact hconnection

theorem NoneOutlives.disconnect_iff (h : w.NoneOutlives) (id : Uuid) :
    (w.step env timeout (.disconnect id)).NoneOutlives ↔ w.Orderly timeout (.disconnect id) := by
  have herase (connection : Uuid) : (w.access.connections.erase id).contains connection = true ↔
      id ≠ connection ∧ w.access.connections.contains connection = true := by
    rw [Std.ExtTreeMap.contains_erase, Bool.and_eq_true, bne_iff_ne, ne_eq,
      Std.LawfulEqOrd.compare_eq_iff_eq]
  constructor
  · intro hafter own session hsession hopened
    obtain ⟨connection, hown, hconnection⟩ := hafter own session hsession
    have hsame : some connection = some id := hown.symm.trans hopened
    cases hsame
    exact ((herase id).mp hconnection).1 rfl
  · intro horderly own session hsession
    obtain ⟨connection, hopened, hconnection⟩ := h own session hsession
    refine ⟨connection, hopened, (herase connection).mpr ⟨?_, hconnection⟩⟩
    intro hid
    rw [← hid] at hopened
    exact horderly own session hsession hopened

/-! ## What an expiry does -/

/-- An expiry that finds nothing to remove is right. -/
theorem right_of_none (hdated : w.Dated) (h : w.NoneOutlives)
    (hnone : ¬w.access.SomeExpired timeout w.now) : w.Right env timeout .cleanup := by
  have hyoung {id : Uuid} {session : Session} (hsession : w.access.sessions[id]? = some session) :
      ¬session.isExpired timeout w.now = true :=
    fun hexpired => hnone ⟨id, session, hsession, hexpired⟩
  have hidle {id : Uuid} {session : Session} (hsession : w.access.sessions[id]? = some session) :
      ¬w.Idle timeout id := by
    intro hidle
    have hold := hdated.openedLongAgo hsession hidle
    exact hyoung hsession ((hdated.isExpired_iff hsession).mpr hold)
  refine ⟨fun _ => ⟨?_, ?_, ?_⟩, ?_⟩
  · intro id session hsession
    have hsame := Access.cleanup_session_iff.mpr ⟨hsession, hyoung hsession⟩
    exact hsame.trans (if_neg (hidle hsession)).symm
  · rintro id ⟨own, -, hcontains, hown⟩
    obtain ⟨session, hsession⟩ := contains_iff_exists.mp hcontains
    exact absurd hown (hidle hsession)
  · intro id _
    exact Access.cleanup_connections_of_none hnone id
  · intro id session hsession
    have hbefore := (Access.cleanup_session_iff.mp hsession).1
    obtain ⟨connection, hopened, hconnection⟩ := h id session hbefore
    refine ⟨connection, hopened, contains_iff_exists.mpr ?_⟩
    obtain ⟨own, hown⟩ := contains_iff_exists.mp hconnection
    exact ⟨own, (Access.cleanup_connections_of_none hnone connection).trans hown⟩

theorem allIdle_of_right (hsome : w.access.SomeExpired timeout w.now)
    (hright : w.Right env timeout .cleanup) : w.AllIdle timeout := by
  have hgone := Access.cleanup_connections hsome
  have hexact := hright.1 rfl
  constructor
  · intro id session hsession
    by_contra hidle
    have hstays := (hexact.sessions id session hsession).trans (if_neg hidle)
    -- a session that stays has lost its connection
    obtain ⟨connection, -, hconnection⟩ := hright.2 id session hstays
    obtain ⟨own, hown⟩ := contains_iff_exists.mp hconnection
    exact absurd ((hgone connection).symm.trans hown) (Option.some_ne_none own).symm
  · intro connection hconnection
    by_contra hcarries
    have hkept := hexact.kept connection fun ⟨id, hcarried, hcontains, _⟩ =>
      hcarries ⟨id, hcarried, hcontains⟩
    obtain ⟨own, hown⟩ := contains_iff_exists.mp hconnection
    rw [← hkept, hgone connection] at hown
    cases hown

theorem right_of_allIdle (hdated : w.Dated) (hsome : w.access.SomeExpired timeout w.now)
    (hall : w.AllIdle timeout) : w.Right env timeout .cleanup := by
  obtain ⟨hidle, hcarries⟩ := hall
  have hgone := Access.cleanup_connections hsome
  have hexpired {id : Uuid} {session : Session}
      (hsession : w.access.sessions[id]? = some session) :
      session.isExpired timeout w.now = true := by
    have hold := hdated.openedLongAgo hsession (hidle id session hsession)
    exact (hdated.isExpired_iff hsession).mpr hold
  refine ⟨fun _ => ⟨?_, fun id _ => hgone id, ?_⟩, ?_⟩
  · intro id session hsession
    rw [Access.cleanup_sessions hsession, if_pos (hexpired hsession)]
    exact (if_pos (hidle id session hsession)).symm
  · intro id hnot
    rw [hgone id]
    cases hconnection : w.access.connections[id]? with
    | none => rfl
    | some connection =>
      obtain ⟨own, hcarried, hown⟩ := hcarries id (contains_iff_exists.mpr ⟨_, hconnection⟩)
      obtain ⟨session, hsession⟩ := contains_iff_exists.mp hown
      exact absurd ⟨own, hcarried, hown, hidle own session hsession⟩ hnot
  · intro id session hsession
    obtain ⟨hbefore, hnot⟩ := Access.cleanup_session_iff.mp hsession
    exact absurd (hexpired hbefore) hnot

theorem right_cleanup_iff (hdated : w.Dated) (h : w.NoneOutlives) :
    w.Right env timeout .cleanup ↔ w.Orderly timeout .cleanup := by
  by_cases hsome : w.access.SomeExpired timeout w.now
  · constructor
    · intro hright
      exact .inr (allIdle_of_right hsome hright)
    · intro horderly
      rcases horderly with hyoung | hall
      · obtain ⟨id, session, hsession, hexpired⟩ := hsome
        exact absurd ((hdated.isExpired_iff hsession).mp hexpired) (hyoung id session hsession)
      · exact right_of_allIdle hdated hsome hall
  · refine iff_of_true (right_of_none hdated h hsome) (Or.inl fun id session hsession hold => ?_)
    exact hsome ⟨id, session, hsession, (hdated.isExpired_iff hsession).mpr hold⟩

theorem right_iff_of_ne {op : SessionOp} (h : op ≠ .cleanup) :
    w.Right env timeout op ↔ (w.step env timeout op).NoneOutlives :=
  and_iff_right fun hop => absurd hop h

theorem right_iff_orderly (hdated : w.Dated) (h : w.NoneOutlives) (op : SessionOp) :
    w.Right env timeout op ↔ w.Orderly timeout op := by
  cases op with
  | connect id remoteAddr =>
    rw [right_iff_of_ne (by rintro ⟨⟩)]
    exact iff_of_true (h.connect id remoteAddr) trivial
  | command id moment command =>
    rw [right_iff_of_ne (by rintro ⟨⟩)]
    exact iff_of_true (h.command id moment command) trivial
  | disconnect id =>
    rw [right_iff_of_ne (by rintro ⟨⟩)]
    exact h.disconnect_iff id
  | advance millis =>
    rw [right_iff_of_ne (by rintro ⟨⟩)]
    exact iff_of_true h trivial
  | cleanup => exact right_cleanup_iff hdated h

/-- In the runs whose disconnects and cleanups are orderly, and in no others, every expiry removes
exactly the idle sessions and their connections, and no session outlives its connection. -/
theorem sessions_expire_exactly_iff (env : ServerEnv C) (timeout : Nat)
    (manager : ConnectionManager C) (now : Nat) (ops : List SessionOp) :
    MeetsAlong (step env timeout) (Right env timeout) (start manager now) ops ↔
      MeetsAlong (step env timeout) (Orderly timeout) (start manager now) ops := by
  refine meetsAlong_iff (I := fun w => w.Dated ∧ w.NoneOutlives) ?_ ?_
    ⟨dated_start manager now, noneOutlives_start manager now⟩
  · rintro w op - ⟨hdated, h⟩ horderly
    exact ⟨hdated.step op, ((right_iff_orderly hdated h op).mpr horderly).2⟩
  · rintro w op - ⟨hdated, h⟩
    exact right_iff_orderly hdated h op

/-- A client logs in, another one connects, and a day passes. -/
def oneSession : List SessionOp :=
  [.connect 1 "127.0.0.1:50001",
    .command 1 (servedAt 0) (.new .auth 1 [] (Access.tokenRequest "admin.1")),
    .connect 2 "127.0.0.1:50002",
    .advance 86400001]

/-- The second connection is closed with the first one, though it carries no session. -/
theorem expiry_closes_others :
    ¬MeetsAlong (step smallServer 86400000) (Right smallServer 86400000) (start startedServer 0)
      (oneSession ++ [.cleanup]) := by
  intro h
  have hrun := meetsAlong_append.mp h
  have hexact := hrun.2.1.1 rfl
  have hcarried : (oneSession.foldl (step smallServer 86400000)
      (start startedServer 0)).access.carried 2 = none := by decide
  have hkept := hexact.kept 2 fun ⟨id, hid, _⟩ => by
    rw [hcarried] at hid
    cases hid
  revert hkept
  decide

end WatchedServer

end VedDb
