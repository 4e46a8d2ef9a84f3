import VedDb.Document

/-!
# Users

`auth/user.rs`: accounts by user name.  The store is a finite map, as both the RocksDB column family
and the in-memory fallback are.  Passwords are hashed and checked by bcrypt, which is not part of
the repository: it enters as the structure `Bcrypt`, and a hash is given the salt it draws.
-/

namespace VedDb

open LittleEndian (Bytes)

inductive Role where
  | admin
  | readWrite
  | readOnly
deriving DecidableEq

namespace Role

def asStr : Role → String
  | .admin => "admin"
  | .readWrite => "read_write"
  | .readOnly => "read_only"

def fromStr (s : String) : Except String Role :=
  if s = "admin" then .ok .admin
  else if s = "read_write" then .ok .readWrite
  else if s = "read_only" then .ok .readOnly
  else .error ("Invalid role: " ++ s)

/-- `Role::from_str(&req.role).unwrap_or(Role::ReadOnly)`, as the commands parse a role. -/
def ofRequest (s : String) : Role :=
  match fromStr s with
  | .ok role => role
  | .error _ => .readOnly

theorem fromStr_asStr (role : Role) : fromStr role.asStr = .ok role := by
  cases role <;> rfl

end Role

structure UserMetadata where
  fullName : Option String
  email : Option String
  description : Option String
  createdBy : Option String
deriving DecidableEq

def UserMetadata.default : UserMetadata :=
  { fullName := none, email := none, description := none, createdBy := none }

structure User where
  username : String
  passwordHash : String
  role : Role
  createdAt : DateTime
  lastLogin : Option DateTime
  enabled : Bool
  metadata : UserMetadata
deriving DecidableEq

/-- `bcrypt::hash`, with the salt it draws, and `bcrypt::verify`. -/
structure Bcrypt where
  hash : Bytes → String → Except String String
  verify : String → String → Except String Bool

structure UserManager where
  users : Std.ExtTreeMap String User

namespace UserManager

/-- `UserManager::new` on an empty data directory. -/
def new : UserManager := { users := ∅ }

def createUser (manager : UserManager) (user : User) : Except String UserManager :=
  if manager.users.contains user.username then
    .error ("User '" ++ user.username ++ "' already exists")
  else .ok { users := manager.users.insert user.username user }

def getUser (manager : UserManager) (username : String) : Option User := manager.users[username]?

def updateUser (manager : UserManager) (user : User) : Except String UserManager :=
  if manager.users.contains user.username then
    .ok { users := manager.users.insert user.username user }
  else .error ("User '" ++ user.username ++ "' does not exist")

def listUsers (manager : UserManager) : List User := manager.users.values

def countUsersByRole (manager : UserManager) (role : Role) : Nat :=
  (manager.listUsers.filter fun user => user.role = role).length

def deleteUser (manager : UserManager) (username : String) : Except String UserManager :=
  match manager.getUser username with
  | none => .error ("User '" ++ username ++ "' does not exist")
  | some user =>
    -- the guard counts disabled administrators like enabled ones
    if user.role = .admin ∧ manager.countUsersByRole .admin ≤ 1 then
      .error "Cannot delete the last admin user"
    else .ok { users := manager.users.erase username }

def setUserEnabled (manager : UserManager) (username : String) (enabled : Bool) :
    Except String UserManager :=
  match manager.getUser username with
  | none => .error ("User '" ++ username ++ "' not found")
  | some user => manager.updateUser { user with enabled := enabled }

section

variable (bcrypt : Bcrypt)

/-- `verify_password`: the user, and the manager with the time of the login. -/
def verifyPassword (manager : UserManager) (now : DateTime) (username password : String) :
    Except String (User × UserManager) :=
  match manager.getUser username with
  | none => .error ("User '" ++ username ++ "' not found")
  | some user =>
    if user.enabled = false then .error ("User '" ++ username ++ "' is disabled")
    else
      match bcrypt.verify password user.passwordHash with
      | .error error => .error error
      | .ok false => .error ("Invalid password for user '" ++ username ++ "'")
      | .ok true =>
        let user := { user with lastLogin := some now }
        (manager.updateUser user).map fun manager => (user, manager)

def hashPassword (salt : Bytes) (password : String) : Except String String :=
  match bcrypt.hash salt password with
  | .error error => .error ("Failed to hash password: " ++ error)
  | .ok hash => .ok hash

def changePassword (manager : UserManager) (salt : Bytes) (username newPassword : String) :
    Except String UserManager :=
  match manager.getUser username with
  | none => .error ("User '" ++ username ++ "' not found")
  | some user =>
    match hashPassword bcrypt salt newPassword with
    | .error error => .error error
    | .ok hash => manager.updateUser { user with passwordHash := hash }

def createDefaultAdmin (manager : UserManager) (now : DateTime) (salt : Bytes) :
    Except String UserManager :=
  if manager.users.isEmpty then
    match hashPassword bcrypt salt "admin123" with
    | .error error => .error error
    | .ok hash =>
      manager.createUser
        { username := "admin"
          passwordHash := hash
          role := .admin
          createdAt := now
          lastLogin := none
          enabled := true
          metadata :=
            { fullName := some "Default Administrator"
              email := none
              description := some "Default admin user created on first startup"
              createdBy := some "system" } }
  else .ok manager

end

/-! ## The accounts of the user commands -/

/-- The account that the `CreateUser` command makes. -/
def requestedUser (now : DateTime) (username passwordHash role : String) : User :=
  { username := username
    passwordHash := passwordHash
    role := Role.ofRequest role
    createdAt := now
    lastLogin := none
    enabled := true
    metadata := .default }

/-- What the `UpdateUserRole` command does: an unknown role is the read-only one. -/
def updateUserRole (manager : UserManager) (username role : String) : Except String UserManager :=
  match manager.getUser username with
  | none => .error "User not found"
  | some user =>
    match manager.updateUser { user with role := Role.ofRequest role } with
    | .error error => .error ("Failed to update user: " ++ error)
    | .ok manager => .ok manager

/-! ## The store as a map of accounts -/

/-- Every account is stored under its own name. -/
def Keyed (manager : UserManager) : Prop :=
  ∀ username user, manager.getUser username = some user → user.username = username

variable {manager manager' : UserManager} {user : User} {username : String}

theorem keyed_new : new.Keyed := fun _ _ h => (nomatch h)

theorem createUser_eq_ok (h : manager.createUser user = .ok manager') :
    manager.getUser user.username = none ∧
      manager' = { users := manager.users.insert user.username user } := by
  rw [createUser] at h
  split at h
  · cases h
  · rename_i hnew
    cases h
    rw [Std.ExtTreeMap.contains_eq_isSome_getElem?, Bool.not_eq_true,
      Option.isSome_eq_false_iff, Option.isNone_iff_eq_none] at hnew
    exact ⟨hnew, rfl⟩

theorem updateUser_eq_ok (h : manager.updateUser user = .ok manager') :
    (manager.getUser user.username).isSome ∧
      manager' = { users := manager.users.insert user.username user } := by
  rw [updateUser] at h
  split at h
  · rename_i hold
    cases h
    rw [Std.ExtTreeMap.contains_eq_isSome_getElem?] at hold
    exact ⟨hold, rfl⟩
  · cases h

/-- An update of an account that exists succeeds. -/
theorem updateUser_of_isSome (h : (manager.getUser user.username).isSome) :
    manager.updateUser user = .ok { users := manager.users.insert user.username user } := by
  rw [updateUser, if_pos]
  rw [Std.ExtTreeMap.contains_eq_isSome_getElem?]
  exact h

theorem deleteUser_eq_ok (h : manager.deleteUser username = .ok manager') :
    manager' = { users := manager.users.erase username } := by
  rw [deleteUser] at h
  split at h
  · cases h
  · split at h
    · cases h
    · cases h
      rfl

theorem setUserEnabled_eq_ok {enabled : Bool}
    (h : manager.setUserEnabled username enabled = .ok manager') :
    ∃ user, manager.getUser username = some user ∧
      manager.updateUser { user with enabled := enabled } = .ok manager' := by
  rw [setUserEnabled] at h
  split at h
  · cases h
  · rename_i user huser
    exact ⟨user, huser, h⟩

theorem updateUserRole_eq_ok {role : String}
    (h : manager.updateUserRole username role = .ok manager') :
    ∃ user, manager.getUser username = some user ∧
      manager.updateUser { user with role := Role.ofRequest role } = .ok manager' := by
  rw [updateUserRole] at h
  split at h
  · cases h
  · rename_i user huser
    split at h
    · cases h
    · rename_i next hnext
      cases h
      exact ⟨user, huser, hnext⟩

/-- What a verified password tells: the account, enabled, with its login recorded. -/
theorem verifyPassword_eq_ok {bcrypt : Bcrypt} {now : DateTime} {password : String}
    (h : manager.verifyPassword bcrypt now username password = .ok (user, manager')) :
    ∃ stored, manager.getUser username = some stored ∧ stored.enabled = true ∧
      bcrypt.verify password stored.passwordHash = .ok true ∧
      user = { stored with lastLogin := some now } ∧ manager.updateUser user = .ok manager' := by
  rw [verifyPassword] at h
  split at h
  · cases h
  · rename_i stored hstored
    split at h
    · cases h
    · rename_i henabled
      split at h
      · cases h
      · cases h
      · rename_i hverify
        refine ⟨stored, hstored, by simpa using henabled, hverify, ?_⟩
        cases hupdate : manager.updateUser { stored with lastLogin := some now } with
        | error error =>
          simp only [hupdate] at h
          cases h
        | ok next =>
          simp only [hupdate] at h
          cases h
          exact ⟨rfl, hupdate⟩

theorem changePassword_eq_ok {bcrypt : Bcrypt} {salt : Bytes} {password : String}
    (h : manager.changePassword bcrypt salt username password = .ok manager') :
    ∃ stored hash, manager.getUser username = some stored ∧
      manager.updateUser { stored with passwordHash := hash } = .ok manager' := by
  rw [changePassword] at h
  split at h
  · cases h
  · rename_i stored hstored
    split at h
    · cases h
    · rename_i hash _
      exact ⟨stored, hash, hstored, h⟩

/-! ## What writing an account does to the others -/

theorem getUser_insert {users : Std.ExtTreeMap String User} (other : String) :
    getUser { users := users.insert user.username user } other =
      if user.username = other then some user else users[other]? := by
  rw [getUser, lookup_insert]

theorem getUser_erase {users : Std.ExtTreeMap String User} (other : String) :
    getUser { users := users.erase username } other =
      if username = other then none else users[other]? := by
  rw [getUser, lookup_erase]

theorem Keyed.insert (h : manager.Keyed) (user : User) :
    Keyed { users := manager.users.insert user.username user } := by
  intro username stored hstored
  rw [getUser_insert] at hstored
  split at hstored
  · rename_i hname
    cases hstored
    exact hname
  · exact h _ _ hstored

theorem Keyed.erase (h : manager.Keyed) (username : String) :
    Keyed { users := manager.users.erase username } := by
  intro other stored hstored
  rw [getUser_erase] at hstored
  split at hstored
  · cases hstored
  · exact h _ _ hstored

end UserManager

end VedDb
