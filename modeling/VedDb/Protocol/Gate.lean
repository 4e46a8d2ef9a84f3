import VedDb.Auth.Sessions
import VedDb.Protocol.Compatibility
import VedDb.Protocol.Server
import VedDb.Replication.Agreement

/-!
# The dispatcher

`process_command` of `protocol/connection.rs`: translate the command, ask whether the connection is
authenticated, and call the handler of the opcode.  Whether the user may do what the command does is
not asked.
-/

namespace VedDb

open LittleEndian (Bytes)
open Durable (Outcome)

namespace ConnectionManager

variable {C : Type} (env : ServerEnv C) (moment : ServerMoment) (manager : ConnectionManager C)

/-- `OpCode::Auth`. -/
def handleAuth (id : Uuid) (command : Command) : Served C :=
  let (result, access) := manager.access.handleAuth env.auth moment.toAuthMoment id command
  (match result with
    | .error error => .error error
    | .ok response => .ok response,
    { manager with access := access })

/-- The answer of a handler that changes nothing. -/
def unchanged (outcome : Outcome ConnectionError Response) : Served C := (outcome, manager)

/-- The match of `process_command` on the opcode. -/
def handle (id : Uuid) (command : Command) : OpCode → Served C
  | .auth => handleAuth env moment manager id command
  | .ping => unchanged manager (.ok (Response.ok command.header.seq (utf8 "pong")))
  | .listCollections => unchanged manager (listCollections env manager command)
  | .createCollection => createCollection env manager command
  | .dropCollection => dropCollection env manager command
  | .listIndexes => unchanged manager (listIndexes env manager command)
  | .createIndex => createIndex env manager command
  | .dropIndex => dropIndex env manager command
  | .query => unchanged manager (query env moment manager command)
  | .insertDoc => insertDoc env moment manager command
  | .updateDoc => updateDoc env moment manager command
  | .deleteDoc => deleteDoc env moment manager command
  | .info => unchanged manager (info env moment manager command)
  | .listUsers => unchanged manager (listUsers env manager command)
  | .createUser => createUser env moment manager command
  | .deleteUser => deleteUser env manager command
  | .updateUserRole => updateUserRole env manager command
  | .createBackup => createBackup env moment manager command
  | .listBackups => unchanged manager (listBackups env manager command)
  | .restoreBackup => restoreBackup env moment manager command
  | .deleteBackup => deleteBackup env manager command
  | .pointInTimeRecover => pointInTimeRecover env moment manager command
  | .getReplicationStatus => unchanged manager (getReplicationStatus env manager command)
  | .addSlave => unchanged manager (addSlave env manager command)
  | .removeSlave => removeSlave env manager command
  | .listSlaves => unchanged manager (listSlaves env manager command)
  | .forceSync => unchanged manager (forceSync env manager command)
  | .createKey => createKey env moment manager command
  | .listKeys => unchanged manager (listKeys env manager command)
  | .exportKey => unchanged manager (exportKey env moment manager command)
  | .importKey => importKey env manager command
  | .getKeysExpiring => unchanged manager (getKeysExpiring env moment manager command)
  | .rotateKey => rotateKey env moment manager command
  | .getKeyMetadata => unchanged manager (getKeyMetadata env manager command)
  | .aggregate => unchanged manager (aggregate env moment manager command)
  | _ => unchanged manager (failure command "Not implemented")

def processCommand (id : Uuid) (command : Command) : Served C :=
  match CompatibilityHandler.translateCommand env.wire moment.now moment.documentId command with
  | .error error => (.error (.protocolError error), manager)
  | .ok command =>
    match command.header.opcode with
    | none => (.error (.protocolError "Invalid opcode"), manager)
    | some op =>
      if op ≠ .auth ∧ manager.access.isAuthenticated id = false then
        (.ok (Response.new .authRequired command.header.seq []), manager)
      else handle env moment manager id command op

end ConnectionManager

/-!
## The authentication gate

Without valid credentials nothing but an `Auth` command gets past the dispatcher, and an `Auth`
command that is refused leaves no trace.
-/

/-! ## Translated commands -/

namespace CompatibilityHandler

variable {wire : Wire} {now : DateTime} {id : DocumentId} {cmd cmd' : Command} {op : OpCode}

theorem rewritten_eq_ok {request : LegacyRequest} (h : rewritten wire cmd op request = .ok cmd') :
    cmd'.header.seq = cmd.header.seq ∧ cmd'.header.opcode = some op := by
  rw [rewritten] at h
  split at h
  · cases h
  · cases h
    exact ⟨rfl, OpCode.tryFrom_code op⟩

theorem rewritten_of_key {key : Except String String} {request : String → LegacyRequest}
    (h : (key >>= fun key => rewritten wire cmd op (request key)) = .ok cmd') :
    cmd'.header.seq = cmd.header.seq ∧ cmd'.header.opcode = some op := by
  cases key with
  | error error => cases h
  | ok key => exact rewritten_eq_ok h

/-- No command becomes an `Auth` command by its translation. -/
theorem translateCommand_eq_ok (h : translateCommand wire now id cmd = .ok cmd') :
    cmd'.header.seq = cmd.header.seq ∧ (cmd'.header.opcode = some .auth → cmd' = cmd) := by
  have hother {op : OpCode} (hop : op ≠ .auth)
      (hcmd' : cmd'.header.seq = cmd.header.seq ∧ cmd'.header.opcode = some op) :
      cmd'.header.seq = cmd.header.seq ∧ (cmd'.header.opcode = some .auth → cmd' = cmd) := by
    refine ⟨hcmd'.1, fun hauth => ?_⟩
    rw [hcmd'.2] at hauth
    exact absurd (Option.some.inj hauth) hop
  unfold translateCommand at h
  split at h
  · cases h
    exact ⟨rfl, fun _ => rfl⟩
  · dsimp only at h
    split at h
    · cases h
    -- the commands that stay as they are
    iterate 5
      · rename_i hop
        cases h
        exact hother (by decide) ⟨rfl, hop⟩
    iterate 4
      · have hcmd' := rewritten_of_key h
        exact hother (by decide) hcmd'
    · have hcmd' := rewritten_eq_ok h
      exact hother (by decide) hcmd'
    · cases h

end CompatibilityHandler

/-! ## Credentials that are not valid -/

namespace Access

variable (auth : Authenticator) (moment : AuthMoment)

/-- A password of an enabled account, or a token for an account that is there. -/
def Valid (users : UserManager) : AuthCredentials → Prop
  | .usernamePassword username password =>
    ∃ user, users.getUser username = some user ∧ user.enabled = true ∧
      auth.bcrypt.verify password user.passwordHash = .ok true
  | .jwtToken token =>
    ∃ claims, auth.jwtService.verifyToken auth.jwt moment.now token = .ok claims ∧
      (users.getUser claims.username).isSome

def Authenticates (users : UserManager) (command : Command) : Prop :=
  ∃ request, auth.json.authRequest command.value = .ok request ∧
    Valid auth moment users request.credentials

variable {auth : Authenticator} {moment : AuthMoment}

/-- Credentials that are not valid present nobody, and leave the accounts as they are. -/
theorem authenticatedUser_invalid {users : UserManager} {credentials : AuthCredentials}
    (h : ¬Valid auth moment users credentials) :
    ∃ error, authenticatedUser auth moment users credentials = (.error error, users) := by
  cases credentials with
  | usernamePassword username password =>
    have hverify : ∃ error,
        users.verifyPassword auth.bcrypt moment.now username password = .error error := by
      cases hverify : users.verifyPassword auth.bcrypt moment.now username password with
      | error error => exact ⟨error, rfl⟩
      | ok result =>
        have ⟨user, huser, henabled, hpassword, _⟩ := UserManager.verifyPassword_eq_ok hverify
        exact absurd ⟨user, huser, henabled, hpassword⟩ h
    have ⟨error, hverify⟩ := hverify
    rw [authenticatedUser, UserManager.authenticate, hverify]
    cases moment.auditLog with
    | error auditError => exact ⟨_, rfl⟩
    | ok => exact ⟨_, rfl⟩
  | jwtToken token =>
    rw [authenticatedUser]
    cases hverify : auth.jwtService.verifyToken auth.jwt moment.now token with
    | error error => exact ⟨_, rfl⟩
    | ok claims =>
      dsimp only
      cases huser : users.getUser claims.username with
      | none => exact ⟨_, rfl⟩
      | some user =>
        have hsome : (users.getUser claims.username).isSome := by rw [huser]; rfl
        exact absurd ⟨claims, hverify, hsome⟩ h

theorem handleAuth_invalid {access : Access} {id : Uuid} {command : Command}
    (h : ¬Authenticates auth moment access.users command) :
    (access.handleAuth auth moment id command).2 = access := by
  rw [handleAuth_snd, usersAfter, presented]
  cases hrequest : auth.json.authRequest command.value with
  | error error => rfl
  | ok request =>
    obtain ⟨error, hinvalid⟩ :=
      authenticatedUser_invalid fun hvalid => h ⟨request, hrequest, hvalid⟩
    dsimp only
    rw [hinvalid]
    rfl

end Access

/-! ## The gate -/

namespace ConnectionManager

variable {C : Type} {env : ServerEnv C} {manager : ConnectionManager C} {id : Uuid}

/-- The answer of a command that did not get past the gate. -/
def Refused (command : Command) (outcome : Outcome ConnectionError Response) : Prop :=
  outcome = .ok (Response.new .authRequired command.header.seq []) ∨
    ∃ cause, outcome = .error (.protocolError cause)

variable (env id) in
def step (manager : ConnectionManager C) (op : ServerMoment × Command) : ConnectionManager C :=
  (processCommand env op.1 manager id op.2).2

variable (env) in
/-- The command is no `Auth` command with valid credentials. -/
def Unauthorised (manager : ConnectionManager C) (op : ServerMoment × Command) : Prop :=
  op.2.header.opcode = some .auth →
    ¬Access.Authenticates env.auth op.1.toAuthMoment manager.access.users op.2

variable (env id) in
/-- The command changes nothing, and unless it is an `Auth` command it is refused. -/
def Stopped (manager : ConnectionManager C) (op : ServerMoment × Command) : Prop :=
  manager.step env id op = manager ∧
    (op.2.header.opcode ≠ some .auth →
      Refused op.2 (processCommand env op.1 manager id op.2).1)

theorem stopped_of_unauthorised {op : ServerMoment × Command}
    (hclosed : manager.access.isAuthenticated id = false) (h : manager.Unauthorised env op) :
    manager.Stopped env id op := by
  rw [Stopped, step, processCommand]
  cases htranslate :
      CompatibilityHandler.translateCommand env.wire op.1.now op.1.documentId op.2 with
  | error error => exact ⟨rfl, fun _ => Or.inr ⟨error, rfl⟩⟩
  | ok command =>
    have ⟨hseq, hauth⟩ := CompatibilityHandler.translateCommand_eq_ok htranslate
    dsimp only
    cases hop : command.header.opcode with
    | none => exact ⟨rfl, fun _ => Or.inr ⟨_, rfl⟩⟩
    | some opcode =>
      dsimp only
      by_cases hauthOp : opcode = .auth
      · -- an `Auth` command was sent as one
        rw [hauthOp] at hop
        have hsame := hauth hop
        rw [hsame] at hop
        rw [if_neg fun hgate => hgate.1 hauthOp, hauthOp, hsame, handle]
        have haccess : (manager.access.handleAuth env.auth op.1.toAuthMoment id op.2).2 =
            manager.access := Access.handleAuth_invalid (h hop)
        refine ⟨?_, fun hne => absurd hop hne⟩
        rw [handleAuth]
        dsimp only
        rw [haccess]
      · rw [if_pos ⟨hauthOp, hclosed⟩, hseq]
        exact ⟨rfl, fun _ => Or.inl rfl⟩

/-- On a connection that is not authenticated, commands without valid credentials are refused one
after the other, and leave the server as it was. -/
theorem unauthorised_run {commands : List (ServerMoment × Command)}
    (hclosed : manager.access.isAuthenticated id = false)
    (h : MeetsAlong (step env id) (Unauthorised env) manager commands) :
    MeetsAlong (step env id) (Stopped env id) manager commands ∧
      commands.foldl (step env id) manager = manager := by
  have hstep {s : ConnectionManager C} {op : ServerMoment × Command} (hs : s = manager)
      (hop : s.Unauthorised env op) : s.step env id op = manager := by
    rw [hs] at hop ⊢
    exact (stopped_of_unauthorised hclosed hop).1
  constructor
  · refine h.imp (I := (· = manager)) hstep (fun {s op} hs hop => ?_) rfl
    rw [hs] at hop ⊢
    exact stopped_of_unauthorised hclosed hop
  · exact h.invariant (I := (· = manager)) hstep rfl

end ConnectionManager

/-! ## A small server

A server without optional features, for closed runs.  Its clients send no payload but that of an
`Auth` command, and get one answer. -/

/-- The JSON of `OperationResponse::success(None)`, and of nothing else. -/
def noRequests : Wire where
  createCollection _ := .error "EOF while parsing a value"
  dropCollection _ := .error "EOF while parsing a value"
  listIndexes _ := .error "EOF while parsing a value"
  createIndex _ := .error "EOF while parsing a value"
  dropIndex _ := .error "EOF while parsing a value"
  query _ := .error "EOF while parsing a value"
  insertDoc _ _ := .error "EOF while parsing a value"
  updateDoc _ := .error "EOF while parsing a value"
  deleteDoc _ := .error "EOF while parsing a value"
  aggregate _ := .error "EOF while parsing a value"
  createUser _ := .error "EOF while parsing a value"
  deleteUser _ := .error "EOF while parsing a value"
  updateUserRole _ := .error "EOF while parsing a value"
  createBackup _ := .error "EOF while parsing a value"
  restoreBackup _ := .error "EOF while parsing a value"
  deleteBackup _ := .error "EOF while parsing a value"
  pointInTimeRecover _ := .error "EOF while parsing a value"
  addSlave _ := .error "EOF while parsing a value"
  removeSlave _ := .error "EOF while parsing a value"
  key _ := .error "EOF while parsing a value"
  importKey _ := .error "EOF while parsing a value"
  getKeysExpiring _ := .error "EOF while parsing a value"
  answer _ :=
    .ok (utf8 "\x7b\"success\":true,\"data\":null,\"error\":null,\"affected_count\":null\x7d")
  legacyRequest _ := .error "no legacy request"
  operationResponse _ :=
    .ok { success := true, data := none, error := none, affectedCount := none }
  keyValues _ := .ok (utf8 "[]")

def smallServer : ServerEnv Unit where
  auth := Access.oneTokenServer
  wire := noRequests
  storage := plainEnv
  regex := ⟨fun _ => .error "regex parse error"⟩
  backup :=
    { snapshot := epochEnv
      toStringPretty := fun info => .ok (utf8 info.backupId)
      fromStr := fun _ => .error "expected value"
      format := fun _ => "19700101_000000" }
  walCodec := dropCodec
  aead := prefixCipher
  rng := countingRng
  hashMasterKey := id
  resolve := id
  keyExport :=
    { deriveMasterKey := utf8
      hexEncode := fun _ => ""
      hexDecode := fun _ => .error "Odd number of digits"
      toVec := fun _ => .error "not written"
      fromSlice := fun _ => .error "expected value"
      dateTime := fun _ => .null
      parseDateTime := fun _ => .error "invalid type: null"
      warnDays := fun days => days.toNat * 4 / 5 }
  toRfc3339 := fun _ => "1970-01-01T00:00:00+00:00"
  debugTime := fun _ => "1970-01-01T00:00:00Z"
  parseSocketAddr := fun _ => .error "invalid socket address syntax"

def startedServer : ConnectionManager Unit where
  access := Access.firstConnection
  storage := HybridStorageEngine.new () .empty
  backups := none
  replication := none
  encryption := none

def servedAt (now : DateTime) : ServerMoment where
  now := now
  instant := 0
  salt := []
  tokenIds := ("0", "1")
  sessionId := 7
  auditLog := .ok ()
  documentId := ⟨8⟩
  exportNonce := List.replicate 12 0
  metrics :=
    { uptimeSeconds := 0, memoryUsageBytes := 0, opsPerSecond := ⟨0⟩, cacheHitRate := ⟨0⟩,
      totalOps := 0 }

/-- Two days later: the token has expired. -/
def expired : ServerMoment := servedAt (172800 * 1000000000)

namespace ConnectionManager

/-- A token that has expired, a command that is refused, and one of version 1 with a key that is no
text. -/
theorem unauthorised_run_expired :
    MeetsAlong (step smallServer 1) (Stopped smallServer 1) startedServer
        [(expired, .new .auth 1 [] (Access.tokenRequest "admin.1")),
          (expired, .new .listUsers 2 [] []),
          (expired, ⟨⟨0x02, 0, protocolV1, 0, 3, 1, 0, 0⟩, [0xFF], []⟩)] ∧
      [(expired, .new .auth 1 [] (Access.tokenRequest "admin.1")),
        (expired, .new .listUsers 2 [] []),
        (expired, ⟨⟨0x02, 0, protocolV1, 0, 3, 1, 0, 0⟩, [0xFF], []⟩)].foldl
          (step smallServer 1) startedServer = startedServer := by
  refine unauthorised_run (by decide) ⟨fun _ => ?_, ?_, ?_, trivial⟩
  · intro ⟨request, hrequest, hvalid⟩
    have hrequest : (.ok ⟨.jwtToken, .jwtToken "admin.1"⟩ : Except String AuthRequest) =
        .ok request := hrequest
    cases hrequest
    have ⟨claims, hclaims, _⟩ := hvalid
    have hclaims : (.error "InvalidToken" : Except String UserClaims) = .ok claims := hclaims
    cases hclaims
  · exact fun hop => absurd hop (by decide)
  · exact fun hop => absurd hop (by decide)

end ConnectionManager

end VedDb
