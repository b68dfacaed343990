import TitanChat.Accounts

/-!
# Tokens and identities

`api/utils/security.py` makes a JWT for an account that registers or logs in, and `api/deps.py`
turns the JWT of a request back into an identity, in three ways. `get_current_admin` and
`get_current_agent` look the account up in PostgreSQL and refuse one that is not active.
`get_admin_id_from_user` believes the claims.

PyJWT and bcrypt are parameters: `Crypto`.

## Main definitions

* `Claims`, `Crypto`, `createAccessToken`
* `adminRegister`, `adminLogin`, `agentLogin`: `api/routers/auth.py`
* `getCurrentUser`, `getCurrentAdmin`, `getCurrentAgent`, `getAdminIdFromUser`: `api/deps.py`
* `Describes`: the claims are those of an account

## Main results

* `getCurrentAdmin_eq_error`, `getCurrentAgent_eq_error`: who looks the account up notices
* `getAdminIdFromUser_eq_ok`: who does not, does not
-/

namespace TitanChat

/-! ### Claims -/

/-- The payload of a token. `exp` and `iat` are in seconds. -/
structure Claims where
  user_id : String
  role : String
  admin_id : Option String
  exp : ℤ
  iat : ℤ
  deriving DecidableEq

inductive JwtError where
  | expiredSignature
  | invalidToken
  deriving DecidableEq

/-- PyJWT with the secret of the server, and bcrypt. The clock is in microseconds. -/
structure Crypto (Token : Type) where
  /-- With the salt of the call. -/
  hashPassword : String → String → String
  verifyPassword : String → String → Bool
  encode : Claims → Token
  decode : ℤ → Token → Except JwtError Claims
  decode_encode : ∀ now c, decode now (encode c) =
    if now < c.iat * 1000000 then .error .invalidToken
    else if c.exp * 1000000 ≤ now then .error .expiredSignature
    else .ok c

/-- `timedelta(hours=ACCESS_TOKEN_EXPIRE_HOURS)`, in microseconds. -/
def ACCESS_TOKEN_EXPIRE : ℤ := 24 * 3600 * 1000000

/-- The payload of `create_access_token`. -/
def newClaims (now : ℤ) (user_id role : String) (admin_id : Option String) : Claims where
  user_id := user_id
  role := role
  admin_id := admin_id.filter (· ≠ "")
  exp := (now + ACCESS_TOKEN_EXPIRE) / 1000000
  iat := now / 1000000

section Routes

variable {Token : Type} (C : Crypto Token)

/-- `create_access_token`, with its default expiry. -/
def createAccessToken (now : ℤ) (user_id role : String) (admin_id : Option String) : Token :=
  C.encode (newClaims now user_id role admin_id)

structure TokenResponse (Token : Type) where
  access_token : Token
  role : String
  user_id : String

/-! ### Registering and logging in -/

structure AdminRegister where
  email : String
  password : String
  name : String
  password_size : 8 ≤ password.length ∧ password.length ≤ 128
  name_size : 1 ≤ name.length ∧ name.length ≤ 255

/-- `AdminLogin` and `AgentLogin`. -/
structure Login where
  email : String
  password : String

def emailTaken : HTTPException := ⟨409, "Email already registered"⟩
def badCredentials : HTTPException := ⟨401, "Invalid email or password"⟩
def accountDeactivated : HTTPException := ⟨403, "Account deactivated"⟩

/-- `select(Admin).where(Admin.email == email)`. -/
def adminOf (db : Accounts) (email : String) : Option Admin :=
  (db.admins.select fun admin => admin.email = email).head?

/-- `select(Agent).where(Agent.email == email)`. -/
def agentOf (db : Accounts) (email : String) : Option Agent :=
  (db.agents.select fun agent => agent.email = email).head?

/-- The row that `admin_register` adds, with the `uuid.uuid4()` and the salt of the call. -/
def newAdmin (id : Uuid) (salt : String) (body : AdminRegister) : Admin where
  id := id
  email := body.email
  password_hash := C.hashPassword salt body.password
  name := body.name
  is_active := true

/-- `admin_register`. -/
def adminRegister (P : Columns) (now : ℤ) (id : Uuid) (salt : String) (body : AdminRegister)
    (s : Site) : Except HTTPException (TokenResponse Token) × Site :=
  if (adminOf s.db body.email).isSome then (.error emailTaken, s)
  else
    match s.db.admins.add id (newAdmin C id salt body) Admin.email P.admin with
    | none => (.error internalServerError, s)
    | some admins =>
      (.ok ⟨createAccessToken C now id.str "admin" none, "admin", id.str⟩,
        { s with db := { s.db with admins } })

/-- `admin_login`. -/
def adminLogin (now : ℤ) (body : Login) (db : Accounts) :
    Except HTTPException (TokenResponse Token) :=
  match adminOf db body.email with
  | none => .error badCredentials
  | some admin =>
    if !C.verifyPassword body.password admin.password_hash then .error badCredentials
    else if !admin.is_active then .error accountDeactivated
    else .ok ⟨createAccessToken C now admin.id.str "admin" none, "admin", admin.id.str⟩

/-- `agent_login`. -/
def agentLogin (now : ℤ) (body : Login) (db : Accounts) :
    Except HTTPException (TokenResponse Token) :=
  match agentOf db body.email with
  | none => .error badCredentials
  | some agent =>
    if !C.verifyPassword body.password agent.password_hash then .error badCredentials
    else if !agent.is_active then .error accountDeactivated
    else .ok ⟨createAccessToken C now agent.id.str "agent" (some agent.admin_id.str), "agent",
      agent.id.str⟩

/-! ### The dependencies -/

/-- The `Authorization` header: a bearer token, or anything else. -/
inductive Authorization (Token : Type) where
  | bearer (token : Token)
  | other

/-- `get_current_user`. -/
def getCurrentUser (now : ℤ) : Authorization Token → Except HTTPException Claims
  | .other => .error ⟨401, "Missing Bearer token"⟩
  | .bearer token =>
    match C.decode now token with
    | .ok payload => .ok payload
    | .error .expiredSignature => .error ⟨401, "Token expired"⟩
    | .error .invalidToken => .error ⟨401, "Invalid token"⟩

end Routes

/-- `get_current_admin`. -/
def getCurrentAdmin (db : Accounts) (user : Claims) : Except HTTPException Admin :=
  if user.role ≠ "admin" then .error ⟨403, "Admin access required"⟩
  else match Uuid.parse user.user_id with
    | none => .error internalServerError
    | some admin_id =>
      match db.admins.lookup admin_id with
      | none => .error ⟨403, "Admin account not found or inactive"⟩
      | some admin =>
        if admin.is_active then .ok admin
        else .error ⟨403, "Admin account not found or inactive"⟩

/-- `get_current_agent`. No route depends on it. -/
def getCurrentAgent (db : Accounts) (user : Claims) : Except HTTPException Agent :=
  if user.role ≠ "agent" then .error ⟨403, "Agent access required"⟩
  else match Uuid.parse user.user_id with
    | none => .error internalServerError
    | some agent_id =>
      match db.agents.lookup agent_id with
      | none => .error ⟨403, "Agent account not found or inactive"⟩
      | some agent =>
        if agent.is_active then .ok agent
        else .error ⟨403, "Agent account not found or inactive"⟩

/-- `get_admin_id_from_user`. -/
def getAdminIdFromUser (user : Claims) : Except HTTPException Uuid :=
  if user.role = "admin" then
    (Uuid.parse user.user_id).elim (.error internalServerError) .ok
  else if user.role = "agent" then
    match user.admin_id.filter (· ≠ "") with
    | none => .error ⟨403, "Agent token missing admin_id"⟩
    | some admin_id => (Uuid.parse admin_id).elim (.error internalServerError) .ok
  else .error ⟨403, "Invalid role"⟩

/-! ### Accounts and their claims -/

inductive Account where
  | admin (id : Uuid)
  | agent (id : Uuid)
  deriving DecidableEq

namespace Account

/-- The `is_active` of an account. -/
def active (db : Accounts) : Account → Bool
  | admin id => (db.admins.lookup id).any Admin.is_active
  | agent id => (db.agents.lookup id).any Agent.is_active

/-- The admin whose data the account works on. -/
def tenant (db : Accounts) : Account → Option Uuid
  | admin id => (db.admins.lookup id).map fun _ => id
  | agent id => (db.agents.lookup id).map Agent.admin_id

/-- The identifier. -/
def id : Account → Uuid
  | admin id | agent id => id

def role : Account → String
  | admin _ => "admin"
  | agent _ => "agent"

end Account

/-- The account that a token is issued to. -/
def TokenResponse.account {Token : Type} (r : TokenResponse Token) : Option Account :=
  (Uuid.parse r.user_id).map (if r.role = "admin" then .admin else .agent)

/-- The claims are those of the account, whose tenant is `t`. -/
structure Describes (account : Account) (t : Uuid) (c : Claims) : Prop where
  user_id : c.user_id = account.id.str
  role : c.role = account.role
  admin : ∀ id, account = .admin id → t = id
  agent : ∀ id, account = .agent id → c.admin_id = some t.str

section Identity

variable {db : Accounts} {account : Account} {t : Uuid} {c : Claims}

/-- `get_current_admin` refuses an account that is not active. -/
theorem getCurrentAdmin_eq_error (hc : Describes account t c) (h : account.active db = false) :
    ∃ e, getCurrentAdmin db c = .error e := by
  rw [getCurrentAdmin, hc.role, hc.user_id]
  cases account with
  | agent id =>
    rw [Account.role, if_pos (by decide)]
    exact ⟨_, rfl⟩
  | admin id =>
    rw [Account.role, if_neg (by decide), Account.id, Uuid.parse_str]
    rw [Account.active] at h
    cases hrow : db.admins.lookup id with
    | none => exact ⟨_, by simp only [hrow]; rfl⟩
    | some admin =>
      rw [hrow, Option.any_some] at h
      simp [hrow, h]

/-- So does `get_current_agent`. -/
theorem getCurrentAgent_eq_error (hc : Describes account t c) (h : account.active db = false) :
    ∃ e, getCurrentAgent db c = .error e := by
  rw [getCurrentAgent, hc.role, hc.user_id]
  cases account with
  | admin id =>
    rw [Account.role, if_pos (by decide)]
    exact ⟨_, rfl⟩
  | agent id =>
    rw [Account.role, if_neg (by decide), Account.id, Uuid.parse_str]
    rw [Account.active] at h
    cases hrow : db.agents.lookup id with
    | none => exact ⟨_, by simp only [hrow]; rfl⟩
    | some agent =>
      rw [hrow, Option.any_some] at h
      simp [hrow, h]

/-- `get_admin_id_from_user` has the tenant from the claims, whatever became of the account. -/
theorem getAdminIdFromUser_eq_ok (hc : Describes account t c) : getAdminIdFromUser c = .ok t := by
  rw [getAdminIdFromUser, hc.role, hc.user_id]
  cases account with
  | admin id =>
    rw [hc.admin id rfl, Account.role, if_pos rfl, Account.id, Uuid.parse_str]
    rfl
  | agent id =>
    have hstr : (some t.str).filter (· ≠ "") = some t.str := by simp [Option.filter]
    rw [hc.agent id rfl, Account.role, if_neg (by decide), if_pos rfl, hstr]
    simp only [Uuid.parse_str]
    rfl

end Identity

end TitanChat
