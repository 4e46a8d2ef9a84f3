import VedDb.Auth.Jwt
import VedDb.Protocol.Command

/-!
# Authenticating a connection

The connections and sessions of `ConnectionManager` (`protocol/connection.rs`) and its `Auth`
command.  A password is checked against the account, which must be enabled; a token is checked by
itself, and then only looked up.
-/

namespace VedDb

open LittleEndian (Bytes)

abbrev Uuid := BitVec 128

instance : Std.TransOrd Uuid := inferInstance

/-! ## Requests, responses and errors -/

inductive AuthMethod where
  | usernamePassword
  | jwtToken
deriving DecidableEq

inductive AuthCredentials where
  | usernamePassword (username password : String)
  | jwtToken (token : String)
deriving DecidableEq

structure AuthRequest where
  method : AuthMethod
  credentials : AuthCredentials
deriving DecidableEq

structure AuthResponse where
  success : Bool
  token : Option String
  expiresAt : Option UInt64
  error : Option String
deriving DecidableEq

/-- `serde_json` on the two. -/
structure AuthJson where
  authRequest : Bytes → Except String AuthRequest
  authResponse : AuthResponse → Except String Bytes

/-- The errors of `process_command`. -/
inductive ConnectionError where
  | protocolError (cause : String)
  | authError (cause : String)
  | connectionNotFound
deriving DecidableEq

/-- `Display for ConnectionError`. -/
def ConnectionError.toString : ConnectionError → String
  | .protocolError cause => "Protocol error: " ++ cause
  | .authError cause => "Authentication error: " ++ cause
  | .connectionNotFound => "Connection not found"

/-! ## Connections and sessions -/

/-- `Session`, with its instants in milliseconds. -/
structure Session where
  id : Uuid
  user : User
  createdAt : Nat
  lastActivity : Nat
  remoteAddr : String
  protocolVersion : UInt8
deriving DecidableEq

def Session.new (id : Uuid) (instant : Nat) (user : User) (remoteAddr : String)
    (protocolVersion : UInt8) : Session :=
  { id := id
    user := user
    createdAt := instant
    lastActivity := instant
    remoteAddr := remoteAddr
    protocolVersion := protocolVersion }

inductive ConnectionState where
  | unauthenticated
  | authenticated (session : Session)
  | closed
deriving DecidableEq

structure ClientConnection where
  remoteAddr : String
  state : ConnectionState
deriving DecidableEq

/-- The accounts, connections and sessions of a `ConnectionManager`. -/
structure Access where
  users : UserManager
  connections : Std.ExtTreeMap Uuid ClientConnection
  sessions : Std.ExtTreeMap Uuid Session

/-- What an `Auth` command draws from outside: the clocks, the random values,
and whether the audit log can be written. -/
structure AuthMoment where
  now : DateTime
  instant : Nat
  salt : Bytes
  tokenIds : String × String
  sessionId : Uuid
  auditLog : Except String Unit

/-- What authentication rests on.  The token service of `AuthSystem` and that of the connection
manager are two objects. -/
structure Authenticator where
  bcrypt : Bcrypt
  jwt : JsonWebTokens
  json : AuthJson
  authSystem : JwtService
  jwtService : JwtService

namespace Access

def stateOf (access : Access) (id : Uuid) : Option ConnectionState :=
  access.connections[id]?.map ClientConnection.state

def isAuthenticated (access : Access) (id : Uuid) : Bool :=
  match access.stateOf id with
  | some (.authenticated _) => true
  | _ => false

/-- A connection is accepted. -/
def openConnection (access : Access) (id : Uuid) (remoteAddr : String) : Access :=
  { access with connections := access.connections.insert id ⟨remoteAddr, .unauthenticated⟩ }

/-- A connection ends. -/
def closeConnection (access : Access) (id : Uuid) : Access :=
  { access with connections := access.connections.erase id }

variable (auth : Authenticator) (moment : AuthMoment)

/-- The account behind the credentials, and the accounts after the check. -/
def authenticatedUser (users : UserManager) :
    AuthCredentials → Except ConnectionError User × UserManager
  | .usernamePassword username password =>
    match users.authenticate auth.bcrypt auth.jwt auth.authSystem moment.now moment.tokenIds.1
      moment.auditLog username password with
    | (.error error, users) => (.error (.authError ("Authentication failed: " ++ error)), users)
    | (.ok _, users) =>
      match users.getUser username with
      | some user => (.ok user, users)
      | none => (.error (.authError "User not found"), users)
  | .jwtToken token =>
    match auth.jwtService.verifyToken auth.jwt moment.now token with
    | .error _ => (.error (.authError "Invalid token"), users)
    | .ok claims =>
      -- whether the account is enabled is not asked here
      match users.getUser claims.username with
      | some user => (.ok user, users)
      | none => (.error (.authError "User not found"), users)

/-- The connection is marked before the token of the answer is made. -/
def establish (access : Access) (id : Uuid) (version : UInt8) (user : User) : Option Access :=
  match access.connections[id]? with
  | none => none
  | some connection =>
    let session :=
      Session.new moment.sessionId moment.instant user connection.remoteAddr version
    some
      { access with
        connections :=
          access.connections.insert id { connection with state := .authenticated session }
        sessions := access.sessions.insert session.id session }

/-- `handle_auth`.  `expires_at` is the time that has passed since an instant in the future, which
is none. -/
def handleAuth (access : Access) (id : Uuid) (command : Command) :
    Except ConnectionError Response × Access :=
  match auth.json.authRequest command.value with
  | .error error => (.error (.protocolError ("Invalid auth request: " ++ error)), access)
  | .ok request =>
    let (result, users) := authenticatedUser auth moment access.users request.credentials
    let access := { access with users := users }
    match result with
    | .ok user =>
      match access.establish moment id command.header.version user with
      | none => (.error .connectionNotFound, access)
      | some access =>
        match auth.jwtService.generateToken auth.jwt moment.now moment.tokenIds.2 user with
        | .error error =>
          (.error (.authError ("Token generation failed: " ++ error)), access)
        | .ok token =>
          match auth.json.authResponse
              { success := true, token := some token, expiresAt := some 0,
                error := none } with
          | .error error =>
            (.error (.protocolError ("Response serialization failed: " ++ error)),
              access)
          | .ok payload => (.ok (Response.ok command.header.seq payload), access)
    | .error error =>
      match auth.json.authResponse
          { success := false, token := none, expiresAt := none,
            error := some ("Authentication failed: " ++ error.toString) } with
      | .error error =>
        (.error (.protocolError ("Response serialization failed: " ++ error)), access)
      | .ok payload => (.ok (Response.new .authFailed command.header.seq payload), access)

/-! ## What an `Auth` command does -/

def presented (users : UserManager) (command : Command) : Option User :=
  match auth.json.authRequest command.value with
  | .error _ => none
  | .ok request => (authenticatedUser auth moment users request.credentials).1.toOption

/-- The accounts after an `Auth` command. -/
def usersAfter (users : UserManager) (command : Command) : UserManager :=
  match auth.json.authRequest command.value with
  | .error _ => users
  | .ok request => (authenticatedUser auth moment users request.credentials).2

variable {auth : Authenticator} {moment : AuthMoment} {access : Access} {id : Uuid}
variable {command : Command}

/-- An `Auth` command marks its connection for the account that it presents, and does nothing else
to the connections and sessions. -/
theorem handleAuth_snd :
    (access.handleAuth auth moment id command).2 =
      let access' := { access with users := usersAfter auth moment access.users command }
      match presented auth moment access.users command with
      | none => access'
      | some user =>
        (access'.establish moment id command.header.version user).getD access' := by
  rw [handleAuth, usersAfter, presented]
  cases auth.json.authRequest command.value with
  | error error => rfl
  | ok request =>
    dsimp only
    have ⟨result, users⟩ := authenticatedUser auth moment access.users request.credentials
    cases result with
    | error error =>
      dsimp only
      split <;> rfl
    | ok user =>
      dsimp only [Except.toOption]
      cases Access.establish moment { access with users := users } id command.header.version
        user with
      | none => rfl
      | some marked =>
        dsimp only
        split
        · rfl
        · split <;> rfl

theorem establish_eq_some {version : UInt8} {user : User} {marked : Access}
    (h : access.establish moment id version user = some marked) :
    ∃ connection session, access.connections[id]? = some connection ∧ session.user = user ∧
      marked =
        { access with
          connections :=
            access.connections.insert id { connection with state := .authenticated session }
          sessions := access.sessions.insert session.id session } := by
  rw [establish] at h
  split at h
  · cases h
  · rename_i connection hconnection
    cases h
    exact ⟨connection, _, hconnection, rfl, rfl⟩

end Access

end VedDb
