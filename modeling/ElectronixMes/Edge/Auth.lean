import ElectronixMes.Core.Roles
import ElectronixMes.Db.RepoMaster

/-!
# Logins and bearer tokens (crates/mes-edge/src/auth.rs, auth_routes.rs, extract.rs)

The signature of a token and the hash of a secret belong to libraries: a configuration carries
the signing of claims, the reading of claims behind a good signature, and the hashing and
verification of secrets. What a token is checked for beyond its signature, who may log in and
what a handler demands of its caller is the program's.
-/

namespace ElectronixMes.Edge

open ElectronixMes.Core Db Db.Master Serde

/-- The claims of a token; `iat` and `exp` are epoch seconds. -/
structure Claims where
  sub : String
  role : String
  iat : Int
  exp : Int
  deriving DecidableEq

/-- The configured secret and life time, as the functions the libraries make of them. -/
structure AuthConfig where
  ttlSecs : Int
  encode : Claims → Option String
  decode : String → Option Claims
  /-- `hash salt plain` -/
  hash : String → String → Option String
  /-- `verify plain phc` -/
  verify : String → String → Bool

/-- The seconds that the validation of a token's end allows for clocks that differ. -/
def leeway : Int := 60

section Tokens

variable (cfg : AuthConfig) (now : Int)

/-- Issue a signed token for a user, with its expiry. -/
def issueToken (userId role : String) : Option (String × Int) :=
  let exp := now + cfg.ttlSecs
  (cfg.encode ⟨userId, role, now, exp⟩).map fun token => (token, exp)

/-- Decode and validate a token. An end before the epoch is no end at all. -/
def decodeToken (token : String) : Option Claims :=
  (cfg.decode token).bind fun claims =>
    if 0 ≤ claims.exp ∧ now - leeway ≤ claims.exp then some claims else none

/-- The token of a header value. -/
def stripBearer (header : String) : Option String :=
  if "Bearer ".toList.isPrefixOf header.toList then some (String.ofList (header.toList.drop 7))
  else none

/-- The extractor of an authenticated caller. -/
def authUser (authorization : Option String) : Except ApiErr AuthUser :=
  match authorization with
  | none => .error ⟨401, "unauthorized", "missing Authorization header"⟩
  | some header =>
      match stripBearer header with
      | none => .error ⟨401, "unauthorized", "expected Bearer token"⟩
      | some token =>
          match decodeToken cfg now token with
          | none => .error ⟨401, "unauthorized", "invalid or expired token"⟩
          | some claims => .ok ⟨claims.sub, claims.role⟩

/-- The extractor of a caller who may write master data. -/
def masterWriter (authorization : Option String) : Except ApiErr AuthUser :=
  match authUser cfg now authorization with
  | .error e => .error e
  | .ok user =>
      if canWriteMaster user.role then .ok user
      else .error ⟨403, "forbidden", "role may not modify master data"⟩

end Tokens

structure LoginRequest where
  username : String
  password : String

structure PinLoginRequest where
  username : Option String
  pin : Option String
  badgeId : Option String

structure LoginResponse where
  token : String
  userId : String
  username : String
  roleCode : String
  expiresAt : Int
  deriving DecidableEq

/-- What a request finds and draws: the clock, its header, the ids and salts it draws, and
whether the insert of its audit entry fails. -/
structure Call where
  now : Int
  authorization : Option String := none
  id : String := ""
  auditId : String
  auditFails : Bool := false
  passwordSalt : String := ""
  pinSalt : String := ""

/-- Record an audit entry, best effort: a failure leaves the log as it is. -/
def audit (m : MasterData) (call : Call) (actorId : Option String) (action entity : String)
    (entityId : Option String) (detail : Option Json) : MasterData :=
  if call.auditFails then m
  else
    match insertAudit m call.now call.auditId actorId action entity entityId detail with
    | .error _ => m
    | .ok m' => m'

/-- The one answer to a login that fails. -/
def unauthorized : ApiErr := ⟨401, "unauthorized", "invalid credentials"⟩

section Logins

variable (cfg : AuthConfig) (m : MasterData) (call : Call)

def finishLogin (user : UserRow) (method : String) : MasterData × Except ApiErr LoginResponse :=
  match issueToken cfg call.now user.id user.roleCode with
  | none => (m, .error ⟨500, "internal", "token error"⟩)
  | some (token, expiresAt) =>
      (audit m call (some user.id) "login" "user" (some user.id)
          (some (.obj [("method", .str method)])),
        .ok ⟨token, user.id, user.username, user.roleCode, expiresAt⟩)

/-- The secret verifies against the stored hash, if there is one. -/
def secretMatches (plain : String) (stored : Option String) : Bool :=
  stored.any fun phc => cfg.verify plain phc

/-- A login by a name and a secret, against one of the stored hashes. -/
def secretLogin (username plain : String) (stored : UserRow → Option String)
    (method : String) : MasterData × Except ApiErr LoginResponse :=
  match findAuthByUsername m username with
  | .error .notFound => (m, .error unauthorized)
  | .error e => (m, .error (repoErr e))
  | .ok user =>
      if user.active && secretMatches cfg plain (stored user) then
        finishLogin cfg m call user method
      else (m, .error unauthorized)

/-- Console login. -/
def login (body : LoginRequest) : MasterData × Except ApiErr LoginResponse :=
  secretLogin cfg m call body.username body.password UserRow.passwordHash "password"

/-- A badge scan authenticates by presence. -/
def badgeLogin (badge : String) : MasterData × Except ApiErr LoginResponse :=
  match findAuthByBadge m badge with
  | .error .notFound => (m, .error unauthorized)
  | .error e => (m, .error (repoErr e))
  | .ok user =>
      if user.active then finishLogin cfg m call user "badge" else (m, .error unauthorized)

/-- Kiosk login: a badge, or a name and a PIN. A badge that is given decides alone. -/
def pinLogin (body : PinLoginRequest) : MasterData × Except ApiErr LoginResponse :=
  match body.badgeId.filter (· ≠ "") with
  | some badge => badgeLogin cfg m call badge
  | none =>
      match body.username, body.pin with
      | some username, some pin =>
          if username ≠ "" ∧ pin ≠ "" then
            secretLogin cfg m call username pin UserRow.pinHash "pin"
          else (m, .error ⟨400, "bad_request", "provide badge_id, or username and pin"⟩)
      | _, _ => (m, .error ⟨400, "bad_request", "provide badge_id, or username and pin"⟩)

end Logins

end ElectronixMes.Edge
