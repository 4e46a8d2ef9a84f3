import VedDb.Auth.AccessLists
import VedDb.Auth.Sessions

/-!
# Authorization by token

`AuthSystem` of `auth/mod.rs`.  Its `authorize` decides by the role in the token; the accounts and
the lists of the resources are not asked.
-/

namespace VedDb

structure AuthSystem where
  userManager : UserManager
  jwtService : JwtService
  rbac : RbacSystem

/-- The errors of `authorize`, by what they come from. -/
inductive AuthorizeError where
  | token (cause : String)
  | permission (cause : RbacError)
  | auditLog (cause : String)
deriving DecidableEq

namespace AuthSystem

/-- `log_authorization_failure`. -/
abbrev AuditFailure := String → Rbac.Operation → Option String → Except String Unit

/-- `AuthSystem::new` on an empty data directory. -/
def new (jwtService : JwtService) : AuthSystem :=
  { userManager := .new, jwtService := jwtService, rbac := .new }

/-- `authorize`.  The resource is written to the audit log and nothing else. -/
def authorize (system : AuthSystem) (jwt : JsonWebTokens) (now : DateTime)
    (logAuthorizationFailure : AuditFailure) (token : String) (operation : Rbac.Operation)
    (resource : Option String) : Except AuthorizeError Unit :=
  match system.jwtService.verifyToken jwt now token with
  | .error error => .error (.token error)
  | .ok claims =>
    match system.rbac.checkPermission claims.role operation with
    | .ok () => .ok ()
    | .error error =>
      match logAuthorizationFailure claims.username operation resource with
      | .error auditError => .error (.auditLog auditError)
      | .ok () => .error (.permission error)

/-- Accounts, lists, logins, tokens and decisions, in any order. -/
inductive Op where
  | account (op : AccountOp)
  | addAclEntry (resource : Resource) (entry : AclEntry)
  | authenticate (now : DateTime) (tokenId : String) (auditLog : Except String Unit)
      (username password : String)
  | issueToken (now : DateTime) (tokenId : String) (user : User)
  | authorize (now : DateTime) (logAuthorizationFailure : AuditFailure) (token : String)
      (operation : Rbac.Operation) (resource : Option Resource)

variable (bcrypt : Bcrypt) (jwt : JsonWebTokens)

/-- A token that is issued and a decision leave no trace but in the audit log. -/
def step (system : AuthSystem) : Op → AuthSystem
  | .account op => { system with userManager := system.userManager.apply bcrypt op }
  | .addAclEntry resource entry => { system with rbac := system.rbac.addAclEntry resource entry }
  | .authenticate now tokenId auditLog username password =>
    { system with
      userManager :=
        (system.userManager.authenticate bcrypt jwt system.jwtService now tokenId auditLog
          username password).2 }
  | .issueToken _ _ _ | .authorize _ _ _ _ _ => system

/-- What a token is let do, its account could do by itself: with its role of now, and on this
resource. -/
def AgreesWithRbac (system : AuthSystem) : Op → Prop
  | .authorize now logAuthorizationFailure token operation resource =>
    system.authorize jwt now logAuthorizationFailure token operation
        (resource.map Resource.resourceId) = .ok () →
      ∃ claims user, system.jwtService.verifyToken jwt now token = .ok claims ∧
        system.userManager.getUser claims.username = some user ∧
        system.rbac.authorize claims.username user.role operation resource = .ok ()
  | _ => True

/-- A token whose role has the permission is presented for an account that is stored, whose role
has it too, and about which the list of the resource says nothing or that it is allowed. -/
def TokenCurrent (system : AuthSystem) : Op → Prop
  | .authorize now _ token operation resource =>
    ∀ claims, system.jwtService.verifyToken jwt now token = .ok claims →
      system.rbac.Permits claims.role operation →
      ∃ user, system.userManager.getUser claims.username = some user ∧
        system.rbac.Permits user.role operation ∧
        ∀ place ∈ resource,
          (RbacSystem.aclVerdict claims.username user.role operation
            (system.rbac.aclOf place)).Admits
  | _ => True

variable {bcrypt : Bcrypt} {jwt : JsonWebTokens} {system : AuthSystem}

theorem authorize_eq_ok_iff {now : DateTime} {logAuthorizationFailure : AuditFailure}
    {token : String} {operation : Rbac.Operation} {resource : Option String} :
    system.authorize jwt now logAuthorizationFailure token operation resource = .ok () ↔
      ∃ claims, system.jwtService.verifyToken jwt now token = .ok claims ∧
        system.rbac.Permits claims.role operation := by
  rw [authorize]
  cases hverify : system.jwtService.verifyToken jwt now token with
  | error error => simp
  | ok claims =>
    dsimp only
    cases hrole : system.rbac.checkPermission claims.role operation with
    | ok => simp [← RbacSystem.checkPermission_eq_ok, hrole]
    | error error =>
      dsimp only
      split <;> simp [← RbacSystem.checkPermission_eq_ok, hrole]

theorem agreesWithRbac_iff {op : Op} :
    system.AgreesWithRbac jwt op ↔ system.TokenCurrent jwt op := by
  cases op with
  | account op => exact Iff.rfl
  | addAclEntry resource entry => exact Iff.rfl
  | authenticate now tokenId auditLog username password => exact Iff.rfl
  | issueToken now tokenId user => exact Iff.rfl
  | authorize now logAuthorizationFailure token operation resource =>
    rw [AgreesWithRbac, TokenCurrent, authorize_eq_ok_iff]
    constructor
    · intro h claims hverify hpermits
      obtain ⟨own, user, hown, huser, hauthorize⟩ := h ⟨claims, hverify, hpermits⟩
      rw [hverify] at hown
      cases hown
      exact ⟨user, huser, RbacSystem.authorize_eq_ok.mp hauthorize⟩
    · intro h hauthorize
      obtain ⟨claims, hverify, hpermits⟩ := hauthorize
      obtain ⟨user, huser, hwarranted⟩ := h claims hverify hpermits
      exact ⟨claims, user, hverify, huser, RbacSystem.authorize_eq_ok.mpr hwarranted⟩

/-- Along a run every decision by token agrees with the accounts and the lists exactly when each
token is still warranted where it is presented. -/
theorem always_agreesWithRbac_iff (ops : List Op) :
    MeetsAlong (step bcrypt jwt) (AgreesWithRbac jwt) system ops ↔
      MeetsAlong (step bcrypt jwt) (TokenCurrent jwt) system ops :=
  meetsAlong_iff (I := fun _ => True) (fun _ _ _ => trivial) (fun _ _ => agreesWithRbac_iff) trivial

/-! ## A demotion and a list -/

def aliceClaims : Claims :=
  { sub := "alice", role := "admin", iat := 0, exp := 86400, jti := "1", iss := "veddb-server",
    aud := "veddb-client" }

/-- The tokens of one login, and passwords that are kept as they are. -/
abbrev aliceStep : AuthSystem → Op → AuthSystem :=
  step UserManager.plainPasswords (Access.oneToken aliceClaims)

def createAlice : Op := .account (.createUserCommand 0 [] "alice" "pw" "admin")

def aliceLogin : Op := .authenticate 0 "1" (.ok ()) "alice" "pw"

def demoteAlice : Op := .account (.updateUserRoleCommand "alice" "read_only")

def useToken (operation : Rbac.Operation) (resource : Option Resource) : Op :=
  .authorize 1 (fun _ _ _ => .ok ()) "alice.1" operation resource

/-- An entry that refuses her to read. -/
def noReads : AclEntry :=
  { principal := "alice"
    permissions := [{ operation := .read, resource := none, conditions := [] }]
    deny := true }

/-- The token of an administrator still deletes users when its account only reads, and reads a
collection whose list refuses it. -/
theorem not_agreesWithRbac :
    (¬MeetsAlong aliceStep (AgreesWithRbac (Access.oneToken aliceClaims)) (new ⟨[], 24⟩)
        [createAlice, aliceLogin, demoteAlice, useToken .deleteUser none]) ∧
      ¬MeetsAlong aliceStep (AgreesWithRbac (Access.oneToken aliceClaims)) (new ⟨[], 24⟩)
        [createAlice, aliceLogin, .addAclEntry (Resource.collection "docs") noReads,
          useToken .read (some (Resource.collection "docs"))] := by
  constructor
  · rintro ⟨_, _, _, hagrees, _⟩
    obtain ⟨claims, user, hverify, huser, hauthorize⟩ := hagrees (by decide)
    cases hverify
    have hrole : ([createAlice, aliceLogin, demoteAlice].foldl aliceStep (new ⟨[], 24⟩)
        |>.userManager.getUser "alice").map User.role = some .readOnly := rfl
    have huser : ([createAlice, aliceLogin, demoteAlice].foldl aliceStep (new ⟨[], 24⟩)
        |>.userManager.getUser "alice") = some user := huser
    rw [huser] at hrole
    have hrole : user.role = .readOnly := Option.some.inj hrole
    rw [hrole] at hauthorize
    exact absurd hauthorize (by decide)
  · rintro ⟨_, _, _, hagrees, _⟩
    obtain ⟨claims, user, hverify, _, hauthorize⟩ := hagrees (by decide)
    cases hverify
    have hverdict := (RbacSystem.authorize_eq_ok.mp hauthorize).2 _ rfl
    cases hrole : user.role <;> rw [hrole] at hverdict <;> exact absurd hverdict (by decide)

end AuthSystem

end VedDb
