import Mathlib.Data.Finset.Insert
import VedDb.Auth.Jwt

/-!
# Sessions of tokens

`TokenBlacklist` and `SessionManager` of `auth/jwt.rs`.  A session is a token.  Logging out puts the
identifier of the token on a list, and the list is never cleaned up: a session ends when its token
expires or when a token of its identifier is revoked, and does not come back.
-/

namespace VedDb

namespace Jwt

structure TokenBlacklist where
  revokedTokens : Finset String

namespace TokenBlacklist

def new : TokenBlacklist := ⟨∅⟩

def revokeToken (blacklist : TokenBlacklist) (tokenId : String) : TokenBlacklist :=
  ⟨insert tokenId blacklist.revokedTokens⟩

def isTokenRevoked (blacklist : TokenBlacklist) (tokenId : String) : Bool :=
  tokenId ∈ blacklist.revokedTokens

/-- `cleanup_expired` writes a line to the log. -/
def cleanupExpired (blacklist : TokenBlacklist) : TokenBlacklist := blacklist

end TokenBlacklist

structure SessionManager where
  jwtService : JwtService
  tokenBlacklist : TokenBlacklist

namespace SessionManager

def new (jwtService : JwtService) : SessionManager := ⟨jwtService, .new⟩

variable (jwt : JsonWebTokens)

def createSession (manager : SessionManager) (now : DateTime) (tokenId : String) (user : User) :
    Except String String :=
  manager.jwtService.generateToken jwt now tokenId user

def validateSession (manager : SessionManager) (now : DateTime) (token : String) :
    Except String UserClaims :=
  match manager.jwtService.verifyToken jwt now token with
  | .error error => .error error
  | .ok claims =>
    if manager.tokenBlacklist.isTokenRevoked claims.tokenId then .error "Token has been revoked"
    else .ok claims

def revokeSession (manager : SessionManager) (now : DateTime) (token : String) :
    Except String Unit × SessionManager :=
  match manager.jwtService.verifyToken jwt now token with
  | .error error => (.error error, manager)
  | .ok claims =>
    (.ok (), { manager with
      tokenBlacklist := manager.tokenBlacklist.revokeToken claims.tokenId })

def cleanupExpiredTokens (manager : SessionManager) : SessionManager :=
  { manager with tokenBlacklist := manager.tokenBlacklist.cleanupExpired }

/-- The calls of a manager, each at its instant. -/
inductive Call where
  | createSession (now : DateTime) (tokenId : String) (user : User)
  | validateSession (now : DateTime) (token : String)
  | revokeSession (now : DateTime) (token : String)
  | cleanupExpiredTokens

def step (manager : SessionManager) : Call → SessionManager
  | .createSession _ _ _ | .validateSession _ _ => manager
  | .revokeSession now token => (manager.revokeSession jwt now token).2
  | .cleanupExpiredTokens => manager.cleanupExpiredTokens

def run (manager : SessionManager) (calls : List Call) : SessionManager :=
  calls.foldl (step jwt) manager

/-- The call revokes a token of this identifier, and comes while that token can be verified. -/
def Call.Revokes (service : JwtService) (tokenId : String) : Call → Prop
  | .revokeSession now token =>
    ∃ claims, service.verifyToken jwt now token = .ok claims ∧ claims.tokenId = tokenId
  | _ => False

variable {jwt : JsonWebTokens} {manager : SessionManager}

/-! ## The list of revoked tokens -/

theorem step_jwtService (call : Call) :
    (manager.step jwt call).jwtService = manager.jwtService := by
  cases call with
  | revokeSession now token =>
    show (manager.revokeSession jwt now token).2.jwtService = _
    rw [revokeSession]
    split <;> rfl
  | _ => rfl

theorem isTokenRevoked_step (call : Call) (tokenId : String) :
    (manager.step jwt call).tokenBlacklist.isTokenRevoked tokenId = true ↔
      manager.tokenBlacklist.isTokenRevoked tokenId = true ∨
        call.Revokes jwt manager.jwtService tokenId := by
  cases call with
  | revokeSession now token =>
    show (manager.revokeSession jwt now token).2.tokenBlacklist.isTokenRevoked tokenId = true ↔ _
    rw [revokeSession, Call.Revokes]
    cases manager.jwtService.verifyToken jwt now token with
    | error error => simp
    | ok claims =>
      simp only [TokenBlacklist.isTokenRevoked, TokenBlacklist.revokeToken,
        decide_eq_true_eq, Finset.mem_insert, Except.ok.injEq, exists_eq_left']
      rw [or_comm, eq_comm]
  | _ => exact (iff_of_eq (or_false _)).symm

theorem isTokenRevoked_run (service : JwtService) (calls : List Call) (tokenId : String) :
    (((new service).run jwt calls).jwtService = service) ∧
      (((new service).run jwt calls).tokenBlacklist.isTokenRevoked tokenId = true ↔
        ∃ call ∈ calls, call.Revokes jwt service tokenId) := by
  induction calls using List.reverseRecOn with
  | nil => exact ⟨rfl, by simp [run, new, TokenBlacklist.new, TokenBlacklist.isTokenRevoked]⟩
  | append_singleton calls call ih =>
    have hrun : (new service).run jwt (calls ++ [call]) =
        ((new service).run jwt calls).step jwt call := List.foldl_concat ..
    rw [hrun, step_jwtService, isTokenRevoked_step, ih.1, ih.2]
    exact ⟨rfl, by simp [or_and_right, exists_or]⟩

theorem validateSession_eq_ok_iff {now : DateTime} {token : String} {claims : UserClaims} :
    manager.validateSession jwt now token = .ok claims ↔
      manager.jwtService.verifyToken jwt now token = .ok claims ∧
        ¬manager.tokenBlacklist.isTokenRevoked claims.tokenId = true := by
  rw [validateSession]
  cases manager.jwtService.verifyToken jwt now token with
  | error error => simp
  | ok own =>
    dsimp only
    split
    next hrevoked =>
      simp only [reduceCtorEq, Except.ok.injEq, false_iff, not_and, not_not]
      rintro rfl
      exact hrevoked
    next hrevoked =>
      rw [iff_self_and]
      intro heq
      cases heq
      exact hrevoked

end SessionManager

/-! ## Tokens that were issued -/

/-- `DateTime::<Utc>::MAX_UTC`, in whole seconds. -/
def maxSeconds : Int := 8210266876799

/-- What `jsonwebtoken` and `chrono` answer about tokens and instants since 1970: a token decodes
for the issuer and the audience it was made for, to the claims it was made of, until a minute after
it expires. -/
structure Lawful (jwt : JsonWebTokens) : Prop where
  decode_eq_ok_iff : ∀ {secret claims token} (now : DateTime) (decoded : Claims),
    jwt.encode secret claims = .ok token → 0 ≤ claims.exp →
      (jwt.decode secret now claims.iss claims.aud token = .ok decoded ↔
        decoded = claims ∧ timestamp now ≤ claims.exp + 60)
  fromTimestamp : ∀ secs, 0 ≤ secs → secs ≤ maxSeconds →
    jwt.fromTimestamp secs = some (secs * 1000000000)

def expiration (service : JwtService) (now : DateTime) : DateTime :=
  now + service.sessionTimeoutHours * 3600 * 1000000000

/-- What a token tells of a user; instants are cut to whole seconds. -/
def issuedClaims (service : JwtService) (now : DateTime) (tokenId : String) (user : User) :
    UserClaims :=
  { username := user.username
    role := user.role
    issuedAt := timestamp now * 1000000000
    expiresAt := timestamp (expiration service now) * 1000000000
    tokenId := tokenId }

theorem verifyToken_issued {jwt : JsonWebTokens} (hjwt : Lawful jwt) {service : JwtService}
    {now : DateTime} {tokenId token : String} {user : User} (hnow : 0 ≤ now)
    (hmax : timestamp (expiration service now) ≤ maxSeconds)
    (hissued : service.generateToken jwt now tokenId user = .ok token) (later : DateTime)
    (claims : UserClaims) :
    service.verifyToken jwt later token = .ok claims ↔
      claims = issuedClaims service now tokenId user ∧
        timestamp later ≤ timestamp (expiration service now) := by
  have hiat : 0 ≤ timestamp now := Int.ediv_nonneg hnow (by decide)
  have hexp : timestamp now ≤ timestamp (expiration service now) := by
    have hhours := Int.natCast_nonneg service.sessionTimeoutHours
    exact Int.ediv_le_ediv (by decide) (by unfold expiration; omega)
  have hdecode (decoded : Claims) :
      jwt.decode service.secret later "veddb-server" "veddb-client" token = .ok decoded ↔
        decoded =
            { sub := user.username
              role := user.role.asStr
              iat := timestamp now
              exp := timestamp (expiration service now)
              jti := tokenId
              iss := "veddb-server"
              aud := "veddb-client" } ∧
          timestamp later ≤ timestamp (expiration service now) + 60 :=
    hjwt.decode_eq_ok_iff later decoded hissued (hiat.trans hexp)
  unfold JwtService.verifyToken
  cases hresult : jwt.decode service.secret later "veddb-server" "veddb-client" token with
  | error error =>
    simp only [hresult, reduceCtorEq, false_iff, not_and] at hdecode ⊢
    have hlate := hdecode _ rfl
    omega
  | ok decoded =>
    obtain ⟨rfl, -⟩ := (hdecode decoded).mp hresult
    simp only [Role.fromStr_asStr, hjwt.fromTimestamp _ hiat (hexp.trans hmax),
      hjwt.fromTimestamp _ (hiat.trans hexp) hmax]
    split
    next hlate => simp [hlate]
    next hlate =>
      rw [Except.ok.injEq, and_iff_left (not_lt.mp hlate)]
      exact eq_comm

namespace SessionManager

theorem run_validateSession_iff {jwt : JsonWebTokens} (hjwt : Lawful jwt) {service : JwtService}
    {now : DateTime} {tokenId token : String} {user : User} {before : List Call} (hnow : 0 ≤ now)
    (hmax : timestamp (expiration service now) ≤ maxSeconds)
    (hcreate : ((new service).run jwt before).createSession jwt now tokenId user = .ok token)
    (after : List Call) (later : DateTime) (claims : UserClaims) :
    ((new service).run jwt (before ++ after)).validateSession jwt later token = .ok claims ↔
      claims = issuedClaims service now tokenId user ∧
        timestamp later ≤ timestamp (expiration service now) ∧
        ∀ call ∈ before ++ after, ¬call.Revokes jwt service tokenId := by
  have hbefore := @isTokenRevoked_run jwt service before tokenId
  have hall := @isTokenRevoked_run jwt service (before ++ after) claims.tokenId
  rw [createSession, hbefore.1] at hcreate
  rw [validateSession_eq_ok_iff, hall.1, hall.2, verifyToken_issued hjwt hnow hmax hcreate,
    and_assoc]
  apply and_congr_right
  rintro rfl
  apply and_congr_right
  intro _
  simp [issuedClaims]

/-- A stand-in for the two crates that makes the one token of these claims. -/
def onlyToken (issued : Claims) : JsonWebTokens where
  encode _ claims := if claims = issued then .ok claims.jti else .error "unknown claims"
  decode _ now iss aud token :=
    if token = issued.jti ∧ iss = issued.iss ∧ aud = issued.aud ∧
        timestamp now ≤ issued.exp + 60 then .ok issued
    else .error "InvalidToken"
  fromTimestamp secs := some (secs * 1000000000)

theorem onlyToken_lawful (issued : Claims) : Lawful (onlyToken issued) where
  decode_eq_ok_iff := by
    intro secret claims token now decoded hencode _
    simp only [onlyToken] at hencode ⊢
    split at hencode
    next hclaims =>
      cases hencode
      subst hclaims
      simp only [true_and]
      split
      next htime => simp [htime, eq_comm]
      next htime => simp [htime]
    next => cases hencode
  fromTimestamp _ _ _ := rfl

def reader : User :=
  { username := "ann", passwordHash := "", role := .readOnly, createdAt := 0, lastLogin := none,
    enabled := true, metadata := ⟨none, none, none, none⟩ }

/-- The claims of a token of one hour, made at the epoch. -/
def readerClaims : Claims :=
  { sub := "ann", role := "read_only", iat := 0, exp := 3600, jti := "1", iss := "veddb-server",
    aud := "veddb-client" }

-- The token is revoked when it has expired: that revokes nothing.
theorem run_validateSession_iff_lateLogout :
    ((new ⟨[], 1⟩).run (onlyToken readerClaims)
        [.revokeSession 3601000000000 "1", .cleanupExpiredTokens]).validateSession
      (onlyToken readerClaims) 3600999999999 "1" = .ok (issuedClaims ⟨[], 1⟩ 0 "1" reader) := by
  apply (@run_validateSession_iff (onlyToken readerClaims) (onlyToken_lawful readerClaims) ⟨[], 1⟩ 0
    "1" "1" reader [] (by decide) (by decide) (by decide +kernel) _ _ _).mpr
  refine ⟨rfl, by decide, ?_⟩
  simp only [List.nil_append, List.forall_mem_cons, List.not_mem_nil, false_imp_iff,
    implies_true, and_true]
  constructor
  · intro hrevokes
    obtain ⟨claims, hverify, -⟩ := hrevokes
    cases hverify
  · exact id

end SessionManager

end Jwt

end VedDb
