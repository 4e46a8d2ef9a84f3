import VedDb.Auth.Rbac
import VedDb.Protocol.Gate

/-!
# Permissions

The permission that each command should need, and what the dispatcher's commands change.  Since the
dispatcher never asks `RbacSystem`, a command takes effect whoever sends it; commands that should
need no permission change nothing that is protected.
-/

namespace VedDb

open LittleEndian (Bytes)
open Durable (Outcome)

namespace ConnectionManager

variable {C : Type}

/-! ## The permission of a command -/

/-- An operation on a resource, or on the server as a whole. -/
abbrev Permit := Rbac.Operation × Option Resource

variable (env : ServerEnv C) (now : DateTime)

/-- The permission of a command with this opcode, when its payload is a request. -/
def requirement (value : Bytes) : OpCode → Option Permit
  | .createCollection =>
    (env.wire.createCollection value).toOption.map fun request =>
      (.createCollection, some (.collection request.name))
  | .dropCollection =>
    (env.wire.dropCollection value).toOption.map fun request =>
      (.dropCollection, some (.collection request.name))
  | .createIndex =>
    (env.wire.createIndex value).toOption.map fun request =>
      (.createIndex, some (.index request.collection request.name))
  | .dropIndex =>
    (env.wire.dropIndex value).toOption.map fun request =>
      (.dropIndex, some (.index request.collection request.name))
  | .insertDoc =>
    (env.wire.insertDoc now value).toOption.map fun request =>
      (.write, some (.collection request.collection))
  | .updateDoc =>
    (env.wire.updateDoc value).toOption.map fun request =>
      (.write, some (.collection request.collection))
  | .deleteDoc =>
    (env.wire.deleteDoc value).toOption.map fun request =>
      (.delete, some (.collection request.collection))
  | .createUser =>
    (env.wire.createUser value).toOption.map fun request =>
      (.createUser, some (.user request.username))
  | .deleteUser =>
    (env.wire.deleteUser value).toOption.map fun request =>
      (.deleteUser, some (.user request.username))
  | .updateUserRole =>
    (env.wire.updateUserRole value).toOption.map fun request =>
      (.updateUser, some (.user request.username))
  | .createBackup => (env.wire.createBackup value).toOption.map fun _ => (.backup, none)
  | .deleteBackup => (env.wire.deleteBackup value).toOption.map fun _ => (.backup, none)
  | .restoreBackup => (env.wire.restoreBackup value).toOption.map fun _ => (.restore, none)
  | .pointInTimeRecover =>
    (env.wire.pointInTimeRecover value).toOption.map fun _ => (.restore, none)
  | .removeSlave =>
    (env.wire.removeSlave value).toOption.map fun _ => (.configureReplication, none)
  | .createKey | .rotateKey => (env.wire.key value).toOption.map fun _ => (.configureServer, none)
  | .importKey => (env.wire.importKey value).toOption.map fun _ => (.configureServer, none)
  | _ => none

/-- The permission of a command as it was sent. -/
def required (op : ServerMoment × Command) : Option Permit :=
  match CompatibilityHandler.translateCommand env.wire op.1.now op.1.documentId op.2 with
  | .error _ => none
  | .ok command => command.header.opcode.bind (requirement env op.1.now command.value)

/-- No permission that a command needs is among those of a read-only user. -/
theorem requirement_not_readOnly {value : Bytes} {op : OpCode} {permit : Permit}
    (h : requirement env now value op = some permit) :
    permit.1 ∉ RbacSystem.defaultPermissions .readOnly := by
  cases op
  all_goals
    first
    | cases h
    | rw [requirement, Option.map_eq_some_iff] at h
      have ⟨_, _, hpermit⟩ := h
      rw [← hpermit]
      dsimp only
      decide

/-! ## What is protected -/

/-- An account without the time of its last login. -/
def withoutLogin (user : User) : User := { user with lastLogin := none }

/-- The documents, collections, indexes, accounts, backups, slaves and keys are the same; a login
may have been recorded. -/
structure SameProtected (before after : ConnectionManager C) : Prop where
  storage : after.storage = before.storage
  users : ∀ username, (after.access.users.getUser username).map withoutLogin =
    (before.access.users.getUser username).map withoutLogin
  backups : after.backups = before.backups
  replication : after.replication = before.replication
  encryption : after.encryption = before.encryption

variable {env} {now} {manager : ConnectionManager C} {moment : ServerMoment} {id : Uuid}
variable {command : Command}

theorem SameProtected.refl (manager : ConnectionManager C) : SameProtected manager manager where
  storage := rfl
  users _ := rfl
  backups := rfl
  replication := rfl
  encryption := rfl

/-- What holds of the server and of all that a handler makes of it holds after the handler. -/
theorem serving_property {P : ConnectionManager C → Prop} {α : Type}
    {result : Except ConnectionError α} {serve : α → Served C} (hmanager : P manager)
    (hserve : ∀ value, P (serve value).2) : P (serving manager result serve).2 := by
  cases result with
  | error error => exact hmanager
  | ok value => exact hserve value

theorem serving_same {α : Type} {result : Except ConnectionError α} {serve : α → Served C}
    (hserve : ∀ value, (serve value).2 = manager) : (serving manager result serve).2 = manager :=
  serving_property (P := (· = manager)) rfl hserve

/-- A payload that is no request changes nothing. -/
theorem serving_decoded {α : Type} {context : String} {result : Except String α}
    {serve : α → Served C} {value : α → Permit} (h : result.toOption.map value = none) :
    (serving manager (decoded context result) serve).2 = manager := by
  cases result with
  | error error => rfl
  | ok request => cases h

/-- A login leaves the accounts as they are, but for its time. -/
theorem withoutLogin_verifyPassword {users : UserManager} {bcrypt : Bcrypt} {now : DateTime}
    {username password : String} (hkeyed : users.Keyed) (other : String) :
    ((users.apply bcrypt (.verifyPassword now username password)).getUser other).map withoutLogin =
      (users.getUser other).map withoutLogin := by
  rw [UserManager.apply]
  cases hverify : users.verifyPassword bcrypt now username password with
  | error error => rfl
  | ok result =>
    rcases UserManager.verifyPassword_eq_ok hverify with ⟨stored, hstored, _, _, huser, hupdate⟩
    show (result.2.getUser other).map withoutLogin = _
    have hname : stored.username = username := hkeyed username stored hstored
    rw [(UserManager.updateUser_eq_ok hupdate).2, UserManager.getUser_insert, huser]
    by_cases hother : stored.username = other
    · have hfound : users.getUser other = some stored := by
        rw [← hother, hname]
        exact hstored
      rw [if_pos hother, hfound]
      rfl
    · rw [if_neg hother]
      rfl

theorem handleAuth_sameProtected (hkeyed : manager.access.users.Keyed) :
    SameProtected manager (handleAuth env moment manager id command).2 where
  storage := rfl
  users username := by
    show ((manager.access.handleAuth env.auth moment.toAuthMoment id command).2.users.getUser
      username).map withoutLogin = _
    rw [Access.handleAuth_users]
    rcases Access.usersAfter_eq env.auth moment.toAuthMoment command manager.access.users with
      hsame | ⟨name, password, hverified⟩
    · rw [hsame]
    · rw [hverified]
      exact withoutLogin_verifyPassword hkeyed username
  backups := rfl
  replication := rfl
  encryption := rfl

/-- A command that needs no permission changes nothing that is protected. -/
theorem handle_sameProtected (hkeyed : manager.access.users.Keyed) {op : OpCode}
    (h : requirement env moment.now command.value op = none) :
    SameProtected manager (handle env moment manager id command op).2 := by
  have hsame {after : ConnectionManager C} (hafter : after = manager) :
      SameProtected manager after := by
    rw [hafter]
    exact .refl manager
  cases op with
  | auth => exact handleAuth_sameProtected hkeyed
  | createCollection => exact hsame (serving_decoded h)
  | dropCollection => exact hsame (serving_decoded h)
  | createIndex => exact hsame (serving_decoded h)
  | dropIndex => exact hsame (serving_decoded h)
  | insertDoc => exact hsame (serving_decoded h)
  | updateDoc => exact hsame (serving_decoded h)
  | deleteDoc => exact hsame (serving_decoded h)
  | createUser => exact hsame (serving_decoded h)
  | deleteUser => exact hsame (serving_decoded h)
  | updateUserRole => exact hsame (serving_decoded h)
  | createBackup => exact hsame (serving_same fun _ => serving_decoded h)
  | deleteBackup => exact hsame (serving_same fun _ => serving_decoded h)
  | restoreBackup => exact hsame (serving_same fun _ => serving_decoded h)
  | pointInTimeRecover => exact hsame (serving_same fun _ => serving_decoded h)
  | removeSlave => exact hsame (serving_same fun _ => serving_decoded h)
  | createKey => exact hsame (serving_same fun _ => serving_decoded h)
  | rotateKey => exact hsame (serving_same fun _ => serving_decoded h)
  | importKey => exact hsame (serving_same fun _ => serving_decoded h)
  | _ => exact .refl manager

/-! ## The accounts stay keyed -/

theorem keyed_onUsers {context : String} {result : Except String UserManager}
    (hkeyed : manager.access.users.Keyed)
    (hresult : ∀ {users}, result = .ok users → users.Keyed) :
    (onUsers env manager command context result).2.access.users.Keyed := by
  cases result with
  | error error => exact hkeyed
  | ok users => exact hresult rfl

theorem keyed_handle (hkeyed : manager.access.users.Keyed) (op : OpCode) :
    (handle env moment manager id command op).2.access.users.Keyed := by
  have hserving {α : Type} {result : Except ConnectionError α} {serve : α → Served C}
      (hserve : ∀ value, (serve value).2.access.users.Keyed) :
      (serving manager result serve).2.access.users.Keyed :=
    serving_property (P := fun after => after.access.users.Keyed) hkeyed hserve
  cases op with
  | auth =>
    show (manager.access.handleAuth env.auth moment.toAuthMoment id command).2.users.Keyed
    exact Access.keyed_step hkeyed (.authCommand moment.toAuthMoment id command)
  | createUser =>
    refine hserving fun request => hserving fun hash => keyed_onUsers hkeyed fun h => ?_
    rw [(UserManager.createUser_eq_ok h).2]
    exact hkeyed.insert _
  | deleteUser =>
    refine hserving fun request => keyed_onUsers hkeyed fun h => ?_
    rw [UserManager.deleteUser_eq_ok h]
    exact hkeyed.erase _
  | updateUserRole =>
    refine hserving fun request => keyed_onUsers hkeyed fun h => ?_
    have ⟨_, _, hupdate⟩ := UserManager.updateUserRole_eq_ok h
    rw [(UserManager.updateUser_eq_ok hupdate).2]
    exact hkeyed.insert _
  | createCollection | dropCollection | createIndex | dropIndex | insertDoc | updateDoc
  | deleteDoc => exact hserving fun request => hkeyed
  | restoreBackup | pointInTimeRecover =>
    exact hserving fun backups => hserving fun request => hkeyed
  | createBackup =>
    refine hserving fun backups => hserving fun request => ?_
    dsimp only
    split <;> exact hkeyed
  | deleteBackup =>
    refine hserving fun backups => hserving fun request => ?_
    split <;> exact hkeyed
  | removeSlave =>
    refine hserving fun slaves => hserving fun request => ?_
    split
    · exact hkeyed
    · split <;> exact hkeyed
  | createKey | rotateKey =>
    refine hserving fun engine => hserving fun request => ?_
    dsimp only
    split <;> exact hkeyed
  | importKey =>
    refine hserving fun engine => hserving fun request => ?_
    dsimp only
    split <;> exact hkeyed
  | _ => exact hkeyed

theorem keyed_step (hkeyed : manager.access.users.Keyed) (op : ServerMoment × Command) :
    (manager.step env id op).access.users.Keyed := by
  rw [step, processCommand]
  split
  · exact hkeyed
  · split
    · exact hkeyed
    · split
      · exact hkeyed
      · exact keyed_handle hkeyed _

/-! ## Whole sessions -/

variable (env id) in
def Granted (rbac : RbacSystem) (manager : ConnectionManager C) (op : ServerMoment × Command) :
    Prop :=
  ∀ session, manager.access.stateOf id = some (.authenticated session) →
    ∀ permit ∈ required env op,
      rbac.authorize session.user.username session.user.role permit.1 permit.2 = .ok ()

variable (env id) in
/-- A command that changes anything protected is one that the user of the connection is granted, and
under the default permissions one of a read-only user changes nothing. -/
def Enforced (rbac : RbacSystem) (manager : ConnectionManager C) (op : ServerMoment × Command) :
    Prop :=
  (¬SameProtected manager (manager.step env id op) →
    ∃ session permit, manager.access.stateOf id = some (.authenticated session) ∧
      required env op = some permit ∧
      rbac.authorize session.user.username session.user.role permit.1 permit.2 = .ok ()) ∧
  ∀ session, manager.access.stateOf id = some (.authenticated session) →
    session.user.role = .readOnly →
      rbac.rolePermissions .readOnly = some (RbacSystem.defaultPermissions .readOnly) →
        SameProtected manager (manager.step env id op)

/-- A command that changes anything protected needs a permission, and an authenticated connection.
-/
theorem step_sameProtected {op : ServerMoment × Command} (hkeyed : manager.access.users.Keyed)
    (h : required env op = none ∨ manager.access.isAuthenticated id = false) :
    SameProtected manager (manager.step env id op) := by
  rw [step, processCommand]
  split
  · exact .refl manager
  · rename_i command htranslate
    split
    · exact .refl manager
    · rename_i opcode hop
      split
      · exact .refl manager
      · rename_i hgate
        apply handle_sameProtected hkeyed
        cases h with
        | inl hnone =>
          rw [required, htranslate] at hnone
          dsimp only at hnone
          rw [hop] at hnone
          exact hnone
        | inr hclosed =>
          by_cases hauth : opcode = .auth
          · rw [hauth]
            rfl
          · exact absurd ⟨hauth, hclosed⟩ hgate

theorem enforced_of_granted {rbac : RbacSystem} {op : ServerMoment × Command}
    (hkeyed : manager.access.users.Keyed) (h : manager.Granted env id rbac op) :
    manager.Enforced env id rbac op := by
  constructor
  · intro hchanged
    cases hstate : manager.access.isAuthenticated id with
    | false => exact absurd (step_sameProtected hkeyed (Or.inr hstate)) hchanged
    | true =>
      cases hrequired : required env op with
      | none => exact absurd (step_sameProtected hkeyed (Or.inl hrequired)) hchanged
      | some permit =>
        rw [Access.isAuthenticated] at hstate
        split at hstate
        · rename_i session hsession
          exact ⟨session, permit, hsession, rfl, h session hsession permit hrequired⟩
        · cases hstate
  · intro session hsession hrole hdefault
    cases hrequired : required env op with
    | none => exact step_sameProtected hkeyed (Or.inl hrequired)
    | some permit =>
      have ⟨permissions, hpermissions, hmem⟩ :=
        RbacSystem.permitted_of_authorize (h session hsession permit hrequired)
      rw [hrole, hdefault] at hpermissions
      cases hpermissions
      rw [required] at hrequired
      split at hrequired
      · cases hrequired
      · rw [Option.bind_eq_some_iff] at hrequired
        have ⟨_, _, hpermit⟩ := hrequired
        exact absurd hmem (requirement_not_readOnly env _ hpermit)

/-- In a session whose commands the access control grants, nothing is changed without a permission,
and a read-only user changes nothing. -/
theorem granted_session {rbac : RbacSystem} {commands : List (ServerMoment × Command)}
    (hkeyed : manager.access.users.Keyed)
    (h : MeetsAlong (step env id) (Granted env id rbac) manager commands) :
    MeetsAlong (step env id) (Enforced env id rbac) manager commands :=
  h.imp (fun hkeyed _ => keyed_step hkeyed _) (fun hkeyed => enforced_of_granted hkeyed) hkeyed

/-! ## A read-only user -/

/-- The JSON of two requests. -/
def roleRequest : Bytes := utf8 "\x7b\"username\":\"eve\",\"role\":\"admin\"\x7d"

def collectionRequest : Bytes := utf8 "\x7b\"name\":\"users\",\"schema\":null\x7d"

def twoRequests : ServerEnv Unit :=
  { smallServer with
    wire :=
      { noRequests with
        updateUserRole := fun bytes =>
          if bytes = roleRequest then .ok ⟨"eve", "admin"⟩ else .error "expected value"
        createCollection := fun bytes =>
          if bytes = collectionRequest then .ok ⟨"users", none⟩ else .error "expected value" } }

def eve (role : Role) : User :=
  { username := "eve", passwordHash := "$2b$12$pw", role := role, createdAt := 0,
    lastLogin := none, enabled := true, metadata := .default }

/-- The small server while this account is logged in. -/
def loggedIn (role : Role) : ConnectionManager Unit :=
  { startedServer with
    access :=
      { users := UserManager.firstStart.attempt (UserManager.firstStart.createUser (eve role))
        connections := (∅ : Std.ExtTreeMap Uuid ClientConnection).insert 1
          ⟨"127.0.0.1:4", .authenticated (.new 7 0 (eve role) "127.0.0.1:4" protocolV2)⟩
        sessions := ∅ } }

/-- An administrator creates a collection and lists the users. -/
theorem granted_session_admin :
    MeetsAlong (step twoRequests 1) (Enforced twoRequests 1 .new) (loggedIn .admin)
      [(servedAt 0, .new .createCollection 1 [] collectionRequest),
        (servedAt 0, .new .listUsers 2 [] [])] := by
  refine granted_session ?_ ⟨?_, ?_, trivial⟩
  · show (UserManager.firstStart.apply UserManager.plainPasswords (.createUser (eve .admin))).Keyed
    exact UserManager.keyed_apply
      (UserManager.createDefaultAdmin_hasAdmin UserManager.firstStart_eq).1 _
  · intro session hsession permit hpermit
    cases hsession
    cases hpermit
    rfl
  · intro session hsession permit hpermit
    cases hpermit

/-- A read-only user gives itself the role of an administrator. -/
theorem readOnly_promotes_itself :
    ¬MeetsAlong (step twoRequests 1) (Enforced twoRequests 1 .new) (loggedIn .readOnly)
      [(servedAt 0, .new .updateUserRole 1 [] roleRequest)] := by
  intro ⟨⟨_, hreadOnly⟩, _⟩
  have hsame := (hreadOnly _ rfl rfl rfl).users "eve"
  exact absurd hsame (by decide)

end ConnectionManager

end VedDb
