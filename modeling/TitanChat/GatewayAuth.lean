import TitanChat.AccountCredentials

/-!
# Who a gateway lets in

The gateways do not have accounts of their own. A socket is opened with the key of a bot, which is
looked up in PostgreSQL, or with a JWT, which is only decoded: the gateways have the secret of the
API, and believe what a token says. The key comes first, and a key that is refused is not made good
by a token.

`decode_token` also refuses a payload without a `user_id`. Every token that is signed with the
secret has one.

## Main definitions

* `decodeToken`, `authenticateWs`, `requireAuth`: `shared/auth/jwt.py`
* `openSocket`: the beginning of `websocket_endpoint`

## Main results

* `toOption_openSocket`: which sockets are opened, and as whose
* `openSocket_eq_ok`: the two ways to open a socket
-/

namespace TitanChat

/-- The query of a socket. The empty text as a `token` counts as none. -/
structure Query (Token : Type) where
  bot_token : Option String
  token : Option Token

section Gateway

variable {Token : Type} (C : Crypto Token) (invalid : Token → String)

/-- `decode_token`. The text of an error of PyJWT is `invalid`. -/
def decodeToken (now : ℤ) (token : Token) : Except HTTPException Claims :=
  match C.decode now token with
  | .ok payload => .ok payload
  | .error .expiredSignature => .error ⟨401, "Token expired"⟩
  | .error .invalidToken => .error ⟨401, "Invalid token: " ++ invalid token⟩

/-- `authenticate_ws`: the payload, or the code and the reason of the `close`. -/
def authenticateWs (now : ℤ) : Option Token → Except HTTPException Claims
  | none => .error ⟨4001, "Missing token query param"⟩
  | some token =>
    match decodeToken C invalid now token with
    | .ok payload => .ok payload
    | .error exc => .error ⟨4001, exc.detail⟩

/-- `require_auth`. -/
def requireAuth (now : ℤ) : Authorization Token → Except HTTPException Claims
  | .other => .error ⟨401, "Missing Bearer token"⟩
  | .bearer token => decodeToken C invalid now token

/-- The beginning of `websocket_endpoint`, up to `manager.connect`. -/
def openSocket (now : ℤ) (db : Accounts) (conversation_id : String) (q : Query Token) :
    Except HTTPException Session :=
  match truthy q.bot_token with
  | some bot_token =>
    match validateBotApiKey db.botList bot_token with
    | none => .error ⟨4001, "Invalid or inactive bot_token"⟩
    | some bot =>
      .ok { conversation_id, user_id := "customer:" ++ conversation_id, bot_id := bot.id }
  | none =>
    match authenticateWs C invalid now q.token with
    | .error e => .error e
    | .ok user => .ok { conversation_id, user_id := user.user_id, bot_id := "" }

variable {C invalid} {now : ℤ} {token : Token} {claims : Claims}

theorem decodeToken_eq_ok : decodeToken C invalid now token = .ok claims ↔
    C.decode now token = .ok claims := by
  rw [decodeToken]
  split
  · next h => simp [h]
  · next h => simp [h]
  · next h => simp [h]

/-- The gateways and the API let in the same tokens, each until it expires. -/
theorem requireAuth_eq_ok {token : Authorization Token} :
    requireAuth C invalid now token = .ok claims ↔ getCurrentUser C now token = .ok claims := by
  cases token with
  | other => simp [requireAuth, getCurrentUser]
  | bearer token =>
    rw [requireAuth, decodeToken_eq_ok, getCurrentUser]
    split
    · next h => simp [h]
    · next h => simp [h]
    · next h => simp [h]

theorem authenticateWs_eq_ok {token : Option Token} :
    authenticateWs C invalid now token = .ok claims ↔
      ∃ t, token = some t ∧ C.decode now t = .ok claims := by
  cases token with
  | none => simp [authenticateWs]
  | some t =>
    have hdecode : decodeToken C invalid now t = .ok claims ↔ C.decode now t = .ok claims :=
      decodeToken_eq_ok
    simp only [authenticateWs, Option.some.injEq, exists_eq_left', ← hdecode]
    cases decodeToken C invalid now t <;> simp

/-- **Which sockets are opened**: those that `authenticate` lets in. -/
theorem toOption_openSocket (db : Accounts) (c : String) (q : Query Token) :
    (openSocket C invalid now db c q).toOption = authenticate db.botList c
      ⟨q.bot_token, (authenticateWs C invalid now q.token).toOption.map Claims.user_id⟩ := by
  rw [openSocket, authenticate]
  cases truthy q.bot_token with
  | some bot_token =>
    dsimp only
    cases validateBotApiKey db.botList bot_token <;> rfl
  | none =>
    dsimp only
    cases authenticateWs C invalid now q.token <;> rfl

/-- **The two ways to open a socket**, in a sound state. -/
theorem openSocket_eq_ok {s : Site} (hs : Integrity s) {c : String} {q : Query Token}
    {session : Session} (h : openSocket C invalid now s.db c q = .ok session) :
    (∃ bot : AccountBot, truthy q.bot_token = some bot.api_key ∧
        s.db.bots.lookup bot.id = some bot ∧ bot.is_active = true ∧
        session = ⟨c, "customer:" ++ c, bot.id.str⟩) ∨
      ∃ t claims, q.token = some t ∧ C.decode now t = .ok claims ∧
        session = ⟨c, claims.user_id, ""⟩ := by
  rw [openSocket] at h
  split at h
  · next bot_token htoken =>
    split at h
    · cases h
    · next b hb =>
      obtain ⟨id, bot, hbot, rfl, hactive, rfl⟩ := (validateBotApiKey_eq_some_iff hs).mp hb
      obtain rfl := hs.botId id bot hbot
      exact Or.inl ⟨bot, htoken, hbot, hactive, (Except.ok.inj h).symm⟩
  · split at h
    · cases h
    · next user huser =>
      obtain ⟨t, ht, hdecode⟩ := authenticateWs_eq_ok.mp huser
      exact Or.inr ⟨t, user, ht, hdecode, (Except.ok.inj h).symm⟩

end Gateway

end TitanChat
