import VedDb.Auth.Administrator
import VedDb.Protocol.Authentication

/-!
# Disabled accounts

Which `Auth` commands mark a connection for an account that is disabled or gone.  A password never
does; a token does when the account it names is stored and disabled.
-/

namespace VedDb

open LittleEndian (Bytes)

namespace Access

/-- A step changes the state of a connection to a session. -/
def Marks (before after : Access) (session : Session) : Prop :=
  ∃ id, after.stateOf id = some (.authenticated session) ∧
    before.stateOf id ≠ some (.authenticated session)

/-- The account of this name is stored and enabled. -/
def Enabled (users : UserManager) (username : String) : Prop :=
  ∃ user, users.getUser username = some user ∧ user.enabled = true

/-- Connections, logins, tokens and accounts, in any order. -/
inductive Op where
  | account (op : AccountOp)
  | authenticate (moment : AuthMoment) (username password : String)
  | issueToken (moment : AuthMoment) (user : User)
  | validateToken (moment : AuthMoment) (token : String)
  | openConnection (id : Uuid) (remoteAddr : String)
  | closeConnection (id : Uuid)
  | authCommand (moment : AuthMoment) (id : Uuid) (command : Command)

variable (auth : Authenticator)

def step (access : Access) : Op → Access
  | .account op => { access with users := access.users.apply auth.bcrypt op }
  | .authenticate moment username password =>
    { access with
      users :=
        (access.users.authenticate auth.bcrypt auth.jwt auth.authSystem moment.now
          moment.tokenIds.1 moment.auditLog username password).2 }
  | .issueToken _ _ | .validateToken _ _ => access
  | .openConnection id remoteAddr => access.openConnection id remoteAddr
  | .closeConnection id => access.closeConnection id
  | .authCommand moment id command => (access.handleAuth auth moment id command).2

def tokenAccount (moment : AuthMoment) (users : UserManager) (command : Command) : Option User :=
  match auth.json.authRequest command.value with
  | .error _ => none
  | .ok request =>
    match request.credentials with
    | .usernamePassword _ _ => none
    | .jwtToken token =>
      match auth.jwtService.verifyToken auth.jwt moment.now token with
      | .error _ => none
      | .ok claims => users.getUser claims.username

/-- A token that verifies is not presented for an account that is disabled. -/
def TokenEnabled (access : Access) : Op → Prop
  | .authCommand moment id command =>
    access.connections.contains id →
      ∀ user ∈ tokenAccount auth moment access.users command, user.enabled = true
  | _ => True

instance (access : Access) : (op : Op) → Decidable (access.TokenEnabled auth op)
  | .authCommand _ _ _ => inferInstanceAs (Decidable (_ → ∀ user ∈ _, _))
  | .account _ | .authenticate _ _ _ | .issueToken _ _ | .validateToken _ _ | .openConnection _ _
  | .closeConnection _ => .isTrue trivial

/-- Whoever a step authenticates has an enabled account. -/
def MarksEnabled (access : Access) (op : Op) : Prop :=
  ∀ session, access.Marks (access.step auth op) session →
    Enabled access.users session.user.username

variable {auth : Authenticator} {access : Access} {moment : AuthMoment} {id : Uuid}
variable {command : Command}

/-! ## What marks a connection -/

theorem stateOf_insert {connections : Std.ExtTreeMap Uuid ClientConnection} {users : UserManager}
    {sessions : Std.ExtTreeMap Uuid Session} (connection : ClientConnection) (other : Uuid) :
    stateOf { users := users, connections := connections.insert id connection,
              sessions := sessions } other =
      if id = other then some connection.state
      else connections[other]?.map ClientConnection.state := by
  rw [stateOf, lookup_insert]
  split <;> rfl

/-- A step that leaves a connection as it is, closes it or opens it marks none. -/
theorem not_marks {after : Access} (session : Session)
    (h : ∀ id, after.stateOf id = access.stateOf id ∨ after.stateOf id = none ∨
      after.stateOf id = some .unauthenticated) : ¬access.Marks after session := by
  intro ⟨id, hafter, hbefore⟩
  have hid := h id
  rw [hafter] at hid
  rcases hid with hsame | hnone | hfresh
  · exact hbefore hsame.symm
  · cases hnone
  · cases hfresh

/-- What an `Auth` command marks is its own connection, for the account that it presents. -/
theorem presented_of_marks {session : Session}
    (h : access.Marks (access.handleAuth auth moment id command).2 session) :
    presented auth moment access.users command = some session.user ∧
      access.connections.contains id = true := by
  rw [handleAuth_snd] at h
  dsimp only at h
  split at h
  · exact absurd h (not_marks session fun _ => Or.inl rfl)
  · rename_i user hpresented
    cases hestablish : Access.establish moment
        { access with users := usersAfter auth moment access.users command } id
        command.header.version user with
    | none =>
      rw [hestablish] at h
      exact absurd h (not_marks session fun _ => Or.inl rfl)
    | some marked =>
      rw [hestablish] at h
      have ⟨connection, own, hconnection, huser, hmarked⟩ := establish_eq_some hestablish
      have ⟨other, hafter, hbefore⟩ := h
      rw [Option.getD_some, hmarked, stateOf_insert] at hafter
      split at hafter
      · cases hafter
        rw [hpresented, huser, Std.ExtTreeMap.contains_eq_isSome_getElem?, hconnection]
        exact ⟨rfl, rfl⟩
      · exact absurd hafter hbefore

/-! ## Who is presented -/

theorem enabled_of_authenticate {users next : UserManager} {username password token : String}
    {user : User} (hkeyed : users.Keyed)
    (h : users.authenticate auth.bcrypt auth.jwt auth.authSystem moment.now moment.tokenIds.1
      moment.auditLog username password = (.ok token, next))
    (huser : next.getUser username = some user) : Enabled users user.username := by
  have ⟨verified, hverify⟩ := UserManager.verifyPassword_of_authenticate h
  have ⟨stored, hstored, henabled, _, hverified, hupdate⟩ :=
    UserManager.verifyPassword_eq_ok hverify
  have hname : verified.username = username := by
    rw [hverified]
    exact hkeyed username stored hstored
  rw [(UserManager.updateUser_eq_ok hupdate).2, UserManager.getUser_insert, if_pos hname] at huser
  cases huser
  exact ⟨stored, hname ▸ hstored, henabled⟩

theorem presented_enabled {users : UserManager} {user : User} (hkeyed : users.Keyed)
    (h : presented auth moment users command = some user) :
    tokenAccount auth moment users command = some user ∨ Enabled users user.username := by
  rw [presented] at h
  rw [tokenAccount]
  cases hrequest : auth.json.authRequest command.value with
  | error error =>
    rw [hrequest] at h
    cases h
  | ok request =>
    rw [hrequest] at h
    dsimp only at h
    cases hcredentials : request.credentials with
    | usernamePassword username password =>
      rw [hcredentials, authenticatedUser] at h
      apply Or.inr
      split at h
      · cases h
      · rename_i token next hauthenticate
        cases huser : next.getUser username with
        | none =>
          rw [huser] at h
          cases h
        | some stored =>
          rw [huser] at h
          cases h
          exact enabled_of_authenticate hkeyed hauthenticate huser
    | jwtToken token =>
      rw [hcredentials, authenticatedUser] at h
      apply Or.inl
      simp only [hcredentials]
      cases hverify : auth.jwtService.verifyToken auth.jwt moment.now token with
      | error error =>
        rw [hverify] at h
        cases h
      | ok claims =>
        rw [hverify] at h
        dsimp only at h ⊢
        cases huser : users.getUser claims.username with
        | none =>
          rw [huser] at h
          cases h
        | some stored =>
          rw [huser] at h
          cases h
          rfl

theorem tokenAccount_stored {users : UserManager} {user : User} (hkeyed : users.Keyed)
    (h : tokenAccount auth moment users command = some user) :
    users.getUser user.username = some user := by
  rw [tokenAccount] at h
  split at h
  · cases h
  · split at h
    · cases h
    · split at h
      · cases h
      · rename_i claims _
        have hname := hkeyed _ _ h
        rw [hname]
        exact h

/-! ## Steps and runs -/

variable (auth moment command) in
theorem usersAfter_eq (users : UserManager) :
    usersAfter auth moment users command = users ∨
      ∃ username password, usersAfter auth moment users command =
        users.apply auth.bcrypt (.verifyPassword moment.now username password) := by
  rw [usersAfter]
  cases auth.json.authRequest command.value with
  | error error => exact Or.inl rfl
  | ok request =>
    dsimp only
    cases request.credentials with
    | usernamePassword username password =>
      apply Or.inr
      refine ⟨username, password, ?_⟩
      rw [UserManager.apply, ← UserManager.authenticate_snd, authenticatedUser]
      split
      · rename_i hauthenticate
        rw [hauthenticate]
      · rename_i hauthenticate
        rw [hauthenticate]
        split <;> rfl
    | jwtToken token =>
      apply Or.inl
      rw [authenticatedUser]
      split
      · rfl
      · split <;> rfl

theorem handleAuth_users :
    (access.handleAuth auth moment id command).2.users =
      usersAfter auth moment access.users command := by
  rw [handleAuth_snd]
  dsimp only
  split
  · rfl
  · cases hestablish : Access.establish moment
        { access with users := usersAfter auth moment access.users command } id
        command.header.version _ with
    | none => rfl
    | some marked =>
      have ⟨_, _, _, _, hmarked⟩ := establish_eq_some hestablish
      rw [Option.getD_some, hmarked]

theorem keyed_step (hkeyed : access.users.Keyed) (op : Op) : (access.step auth op).users.Keyed := by
  cases op with
  | account op => exact UserManager.keyed_apply hkeyed op
  | authenticate moment username password =>
    show (access.users.authenticate _ _ _ _ _ _ _ _).2.Keyed
    rw [UserManager.authenticate_snd]
    exact UserManager.keyed_apply hkeyed (.verifyPassword moment.now username password)
  | issueToken moment user => exact hkeyed
  | validateToken moment token => exact hkeyed
  | openConnection id remoteAddr => exact hkeyed
  | closeConnection id => exact hkeyed
  | authCommand moment id command =>
    show (access.handleAuth auth moment id command).2.users.Keyed
    rw [handleAuth_users]
    rcases usersAfter_eq auth moment command access.users with
      hsame | ⟨username, password, hverified⟩
    · rw [hsame]
      exact hkeyed
    · rw [hverified]
      exact UserManager.keyed_apply hkeyed _

theorem marksEnabled_of_tokenEnabled {op : Op} (hkeyed : access.users.Keyed)
    (h : access.TokenEnabled auth op) : access.MarksEnabled auth op := by
  intro session hmarks
  cases op with
  | account op => exact absurd hmarks (not_marks session fun _ => Or.inl rfl)
  | authenticate moment username password =>
    exact absurd hmarks (not_marks session fun _ => Or.inl rfl)
  | issueToken moment user => exact absurd hmarks (not_marks session fun _ => Or.inl rfl)
  | validateToken moment token => exact absurd hmarks (not_marks session fun _ => Or.inl rfl)
  | openConnection id remoteAddr =>
    refine absurd hmarks (not_marks session fun other => ?_)
    rw [step, openConnection, stateOf_insert]
    by_cases hid : id = other
    · rw [if_pos hid]
      exact Or.inr (Or.inr rfl)
    · rw [if_neg hid]
      exact Or.inl rfl
  | closeConnection id =>
    refine absurd hmarks (not_marks session fun other => ?_)
    rw [step, closeConnection, stateOf, lookup_erase]
    by_cases hid : id = other
    · rw [if_pos hid]
      exact Or.inr (Or.inl rfl)
    · rw [if_neg hid]
      exact Or.inl rfl
  | authCommand moment id command =>
    have ⟨hpresented, hcontains⟩ := presented_of_marks hmarks
    cases presented_enabled hkeyed hpresented with
    | inl htoken => exact ⟨_, tokenAccount_stored hkeyed htoken, h hcontains _ htoken⟩
    | inr henabled => exact henabled

/-- In a run that presents no token for a disabled account, whoever a step authenticates has an
enabled account at that time. -/
theorem always_marksEnabled {ops : List Op} (hkeyed : access.users.Keyed)
    (h : MeetsAlong (step auth) (TokenEnabled auth) access ops) :
    MeetsAlong (step auth) (MarksEnabled auth) access ops :=
  h.imp (fun hkeyed _ => keyed_step hkeyed _) (fun hkeyed => marksEnabled_of_tokenEnabled hkeyed)
    hkeyed

/-! ## The other path -/

/-- A stand-in for the two crates that knows the one token of these claims. -/
def oneToken (issued : Claims) : JsonWebTokens where
  encode _ claims := .ok (claims.sub ++ "." ++ claims.jti)
  decode _ now iss aud token :=
    if token = issued.sub ++ "." ++ issued.jti ∧ iss = issued.iss ∧ aud = issued.aud ∧
        timestamp now ≤ issued.exp + 60 then .ok issued
    else .error "InvalidToken"
  fromTimestamp secs := some (secs * 1000000000)

/-- The request that presents a token, as JSON. -/
def tokenRequest (token : String) : Bytes :=
  utf8 ("\x7b\"method\":\"JwtToken\",\"credentials\":\x7b\"JwtToken\":\x7b\"token\":\"" ++ token ++
    "\"\x7d\x7d\x7d")

def oneRequest (token : String) : AuthJson where
  authRequest bytes :=
    if bytes = tokenRequest token then .ok ⟨.jwtToken, .jwtToken token⟩
    else .error "expected the request of one token"
  authResponse _ := .ok (utf8 "\x7b\"success\":true\x7d")

/-- The claims of the first token of the default administrator. -/
def adminClaims : Claims :=
  { sub := "admin", role := "admin", iat := 0, exp := 86400, jti := "1", iss := "veddb-server",
    aud := "veddb-client" }

def oneTokenServer : Authenticator :=
  { bcrypt := UserManager.plainPasswords
    jwt := oneToken adminClaims
    json := oneRequest "admin.1"
    authSystem := ⟨[], 24⟩
    jwtService := ⟨[], 24⟩ }

def firstMoment : AuthMoment :=
  { now := 0, instant := 0, salt := [], tokenIds := ("0", "1"), sessionId := 7,
    auditLog := .ok () }

/-- The default administrator, and a connection. -/
def firstConnection : Access :=
  { users := UserManager.firstStart
    connections :=
      (∅ : Std.ExtTreeMap Uuid ClientConnection).insert 1 ⟨"127.0.0.1:4", .unauthenticated⟩
    sessions := ∅ }

def presentToken : Op := .authCommand firstMoment 1 (.new .auth 1 [] (tokenRequest "admin.1"))

/-- The token is presented while the account is enabled, and again after it was deleted. -/
theorem always_marksEnabled_session :
    MeetsAlong (step oneTokenServer) (MarksEnabled oneTokenServer) firstConnection
      [presentToken, .account (.createUserCommand 0 [] "root" "pw" "admin"),
        .account (.deleteUser "admin"), presentToken] :=
  always_marksEnabled (UserManager.createDefaultAdmin_hasAdmin UserManager.firstStart_eq).1
    (by decide)

/-- A token issued before its account was disabled authenticates a connection after it. -/
theorem disabled_token_marks :
    oneTokenServer.jwtService.generateToken oneTokenServer.jwt 0 "1"
        ((UserManager.firstStart.getUser "admin").get (by decide)) = .ok "admin.1" ∧
      ¬MeetsAlong (step oneTokenServer) (MarksEnabled oneTokenServer) firstConnection
        [.account (.setUserEnabled "admin" false), presentToken] := by
  constructor
  · rfl
  · intro ⟨_, hmarks, _⟩
    have ⟨user, huser, henabled⟩ := hmarks
      { id := 7, user := { (UserManager.firstStart.getUser "admin").get (by decide) with
          enabled := false }, createdAt := 0, lastActivity := 0, remoteAddr := "127.0.0.1:4",
        protocolVersion := protocolV2 } ⟨1, rfl, by decide⟩
    have hdisabled : ((step oneTokenServer firstConnection
        (.account (.setUserEnabled "admin" false))).users.getUser "admin").map User.enabled =
          some false := rfl
    have huser : (step oneTokenServer firstConnection
        (.account (.setUserEnabled "admin" false))).users.getUser "admin" = some user := huser
    rw [huser, Option.map_some, henabled] at hdisabled
    cases hdisabled

end Access

end VedDb
