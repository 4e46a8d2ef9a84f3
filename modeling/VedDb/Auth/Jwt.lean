import VedDb.Auth.Administrator

/-!
# Tokens

`auth/jwt.rs` and `AuthSystem::authenticate` of `auth/mod.rs`.  The crate `jsonwebtoken` signs
claims and checks signatures, and `chrono` converts timestamps; they enter as the structure
`JsonWebTokens`.
-/

namespace VedDb

open LittleEndian (Bytes)

/-- `DateTime::timestamp`: whole seconds since the epoch. -/
def timestamp (t : DateTime) : Int := t / 1000000000

structure Claims where
  sub : String
  role : String
  iat : Int
  exp : Int
  jti : String
  iss : String
  aud : String
deriving DecidableEq

structure UserClaims where
  username : String
  role : Role
  issuedAt : DateTime
  expiresAt : DateTime
  tokenId : String

structure JsonWebTokens where
  /-- `encode` under a secret. -/
  encode : Bytes → Claims → Except String String
  /-- `decode` with a secret, at an instant, for an issuer and an audience. -/
  decode : Bytes → DateTime → String → String → String → Except String Claims
  /-- `DateTime::from_timestamp`. -/
  fromTimestamp : Int → Option DateTime

structure JwtService where
  secret : Bytes
  sessionTimeoutHours : Nat

namespace JwtService

variable (jwt : JsonWebTokens)

/-- `generate_token`, with the identifier that it draws. -/
def generateToken (service : JwtService) (now : DateTime) (tokenId : String) (user : User) :
    Except String String :=
  let expiration := now + service.sessionTimeoutHours * 3600 * 1000000000
  jwt.encode service.secret
    { sub := user.username
      role := user.role.asStr
      iat := timestamp now
      exp := timestamp expiration
      jti := tokenId
      iss := "veddb-server"
      aud := "veddb-client" }

def verifyToken (service : JwtService) (now : DateTime) (token : String) :
    Except String UserClaims :=
  match jwt.decode service.secret now "veddb-server" "veddb-client" token with
  | .error error => .error error
  | .ok claims =>
    if claims.exp < timestamp now then .error "Token has expired"
    else
      match Role.fromStr claims.role with
      | .error error => .error error
      | .ok role =>
        match jwt.fromTimestamp claims.iat, jwt.fromTimestamp claims.exp with
        | none, _ => .error "Invalid issued_at timestamp"
        | some _, none => .error "Invalid expires_at timestamp"
        | some issuedAt, some expiresAt =>
          .ok
            { username := claims.sub
              role := role
              issuedAt := issuedAt
              expiresAt := expiresAt
              tokenId := claims.jti }

end JwtService

/-- `AuthSystem::authenticate`.  A login that fails after the password was verified, because no
token can be made or the audit log cannot be written, is recorded in the account all the same. -/
def UserManager.authenticate (bcrypt : Bcrypt) (jwt : JsonWebTokens) (service : JwtService)
    (manager : UserManager) (now : DateTime) (tokenId : String) (auditLog : Except String Unit)
    (username password : String) : Except String String × UserManager :=
  match manager.verifyPassword bcrypt now username password with
  | .error error =>
    match auditLog with
    | .error auditError => (.error auditError, manager)
    | .ok () => (.error error, manager)
  | .ok (user, manager) =>
    match service.generateToken jwt now tokenId user with
    | .error error => (.error error, manager)
    | .ok token =>
      match auditLog with
      | .error auditError => (.error auditError, manager)
      | .ok () => (.ok token, manager)

/-! ## What the password path tells -/

namespace UserManager

variable {bcrypt : Bcrypt} {jwt : JsonWebTokens} {service : JwtService} {now : DateTime}
variable {manager manager' : UserManager} {tokenId username password : String}
variable {auditLog : Except String Unit}

/-- The manager after a login: as it was where the password is wrong. -/
theorem authenticate_snd :
    (manager.authenticate bcrypt jwt service now tokenId auditLog username password).2 =
      manager.attempt ((manager.verifyPassword bcrypt now username password).map Prod.snd) := by
  rw [authenticate]
  cases manager.verifyPassword bcrypt now username password with
  | error error => cases auditLog <;> rfl
  | ok result =>
    show Prod.snd (match service.generateToken jwt now tokenId result.1 with
      | .error error => _
      | .ok token => _) = result.2
    cases service.generateToken jwt now tokenId result.1 with
    | error error => rfl
    | ok token => cases auditLog <;> rfl

theorem verifyPassword_of_authenticate {token : String}
    (h : manager.authenticate bcrypt jwt service now tokenId auditLog username password =
      (.ok token, manager')) :
    ∃ user, manager.verifyPassword bcrypt now username password = .ok (user, manager') := by
  rw [authenticate] at h
  cases hverify : manager.verifyPassword bcrypt now username password with
  | error error =>
    rw [hverify] at h
    cases auditLog <;> cases h
  | ok result =>
    rw [hverify] at h
    have ⟨user, next⟩ := result
    dsimp only at h
    split at h
    · cases h
    · cases auditLog with
      | error error => cases h
      | ok =>
        cases h
        exact ⟨user, rfl⟩

end UserManager

end VedDb
