import TitanChat.ApiRoutes
import TitanChat.Internal.Transition

/-!
# What an inactive account can still do

Accounts are switched off: an agent by `update_agent` and `delete_agent`, an admin in the table. A
login is refused from then on, and so is every route that looks the account up. A token that was
issued before is good for 24 hours on the other routes. These are the routes of `conversations` and
the dashboard socket, the only ones that an agent has.

## Main definitions

* `Api`, `ApiStep`, `Api.step`: sequences of requests and of changes of `Admin.is_active`
* `TakesEffect`: the property
* `Route.Refuses`: the requests that are refused all the same

## Main results

* `sound_of_reachable`: the tokens that are around, and what they say
* `refused_iff`: the exact statement
-/

namespace TitanChat

open WideColumn

/-- The clock, the tables, and the tokens that were issued, each with its account. -/
structure Api (Token : Type) where
  now : ℤ
  site : Site
  issued : List (Account × Token)

/-- No account yet. -/
def Api.empty {Token : Type} (now : ℤ) : Api Token := ⟨now, .empty, []⟩

inductive ApiStep (Token : Type) where
  | advance (now : ℤ)
  | adminRegister (id : Uuid) (salt : String) (body : AdminRegister)
  | adminLogin (body : Login)
  | agentLogin (body : Login)
  /-- `Admin.is_active` is changed in the table. -/
  | setAdminActive (id : Uuid) (is_active : Bool)
  | request (E : Backend) (token : Authorization Token) (route : Route)
  /-- A request that is rolled back after its handler: its commit fails, or a reply of Redis is
  lost. A registration that is rolled back leaves nothing behind. -/
  | uncommitted (E : Backend) (token : Authorization Token) (route : Route)

section System

variable {Token : Type} (C : Crypto Token) (P : Columns)

/-- The token of a response, with its account. -/
def issue (r : Except HTTPException (TokenResponse Token)) : List (Account × Token) :=
  match r with
  | .error _ => []
  | .ok r => (r.account.map fun account => (account, r.access_token)).toList

def setAdminActive (db : Accounts) (id : Uuid) (is_active : Bool) : Accounts :=
  match db.admins.lookup id with
  | none => db
  | some admin => { db with admins := db.admins.insert id { admin with is_active } }

def Api.step (s : Api Token) : ApiStep Token → Option (Api Token)
  | .advance now => if s.now ≤ now then some { s with now } else none
  | .adminRegister id salt body =>
    let r := getDb true (adminRegister C P s.now id salt body) s.site
    some { s with site := r.2, issued := s.issued ++ issue r.1 }
  | .adminLogin body =>
    some { s with issued := s.issued ++ issue (adminLogin C s.now body s.site.db) }
  | .agentLogin body =>
    some { s with issued := s.issued ++ issue (agentLogin C s.now body s.site.db) }
  | .setAdminActive id is_active =>
    some { s with site := { s.site with db := setAdminActive s.site.db id is_active } }
  | .request E token route =>
    some { s with site := (respond C P E s.now token route s.site).2 }
  | .uncommitted E token route =>
    some { s with site := (respondWith C P E false s.now token route s.site).2 }

/-- The states that some sequence reaches. -/
abbrev Api.Reachable (s : Api Token) : Prop :=
  Transition.Reachable (Api.step C P) (fun s => ∃ now, s = .empty now) s

/-- **Deactivation takes effect**, for the token of one request: it is refused. -/
def Refused (E : Backend) (s : Api Token) (token : Token) (route : Route) : Prop :=
  ∃ e, (respond C P E s.now (.bearer token) route s.site).1 = .error e

/-- Every request with a token that was issued to an account and has not expired is refused while
the account is not active. -/
def TakesEffect (s : Api Token) : Prop :=
  ∀ account token, (account, token) ∈ s.issued →
    C.decode s.now token ≠ .error .expiredSignature → account.active s.site.db = false →
    ∀ E route, Refused C P E s token route

end System

/-- The requests that the routes refuse to a tenant without asking who makes them: what is not the
tenant's. A route of the admins asks who makes it. -/
def Route.Refuses (E : Backend) (db : Accounts) (t : Uuid) : Route → Prop
  | .admin _ => True
  | .wsDashboard => False
  | .conversations (.listConversations _ bot_id _) =>
    ∃ b, truthy bot_id = some b ∧ getAdminBotIds db.botList t.str ≠ [] ∧
      b ∉ getAdminBotIds db.botList t.str
  | .conversations (.getConversation c) | .conversations (.getMessages c _ _) =>
    ∀ row, conversationRow E.cassandra c = some row →
      refuses (getAdminBotIds db.botList t.str) row = true

/-! ### The tokens that are around -/

/-- The token was issued to the account. -/
def Issued {Token : Type} (C : Crypto Token) (now : ℤ) (db : Accounts) (account : Account)
    (token : Token) : Prop :=
  ∃ t c, token = C.encode c ∧ c.iat * 1000000 ≤ now ∧ Describes account t c ∧
    account.tenant db = some t

section Tokens

variable {Token : Type} {C : Crypto Token} {P : Columns} {db db' : Accounts} {now now' : ℤ}

theorem Issued.mono {account : Account} {token : Token} (h : Issued C now db account token)
    (hnow : now ≤ now') (hdb : Changes db db') : Issued C now' db' account token := by
  obtain ⟨t, c, htoken, hiat, hc, ht⟩ := h
  exact ⟨t, c, htoken, hiat.trans hnow, hc, hdb.tenant ht⟩

theorem iat_newClaims (now : ℤ) (user_id role : String) (admin_id : Option String) :
    (newClaims now user_id role admin_id).iat * 1000000 ≤ now :=
  Int.ediv_mul_le now (by decide)

theorem describes_admin (now : ℤ) (id : Uuid) :
    Describes (.admin id) id (newClaims now id.str "admin" none) where
  user_id := rfl
  role := rfl
  admin _ h := Account.admin.inj h
  agent _ h := nomatch h

theorem describes_agent (now : ℤ) (id t : Uuid) :
    Describes (.agent id) t (newClaims now id.str "agent" (some t.str)) where
  user_id := rfl
  role := rfl
  admin _ h := nomatch h
  agent _ _ := by simp [newClaims, Option.filter]

theorem mem_issue {r : Except HTTPException (TokenResponse Token)} {account : Account}
    {token : Token} (h : (account, token) ∈ issue r) :
    ∃ resp, r = .ok resp ∧ resp.account = some account ∧ resp.access_token = token := by
  cases r with
  | error e => exact absurd h List.not_mem_nil
  | ok resp =>
    obtain ⟨a, ha, heq⟩ := Option.map_eq_some_iff.mp (Option.mem_toList.mp h)
    obtain ⟨rfl, rfl⟩ := Prod.mk.inj heq
    exact ⟨resp, rfl, ha, rfl⟩

theorem account_of_admin {access_token : Token} {id : Uuid} :
    TokenResponse.account ⟨access_token, "admin", id.str⟩ = some (.admin id) := by
  simp [TokenResponse.account]

theorem account_of_agent {access_token : Token} {id : Uuid} :
    TokenResponse.account ⟨access_token, "agent", id.str⟩ = some (.agent id) := by
  simp [TokenResponse.account]

theorem mem_of_select_head? {α : Type} {rows : Rows α} {p : α → Bool} {row : α}
    (h : (rows.select p).head? = some row) : ∃ id, rows.lookup id = some row := by
  have hmem : row ∈ rows.select p := List.mem_of_mem_head? h
  obtain ⟨⟨id, _⟩, he, rfl⟩ := List.mem_map.mp (List.mem_filter.mp hmem).1
  exact ⟨id, AList.mem_lookup_iff.mpr he⟩

/-- A login issues a token to the account of the address. -/
theorem issued_of_adminLogin (hk : Keyed db) {body : Login} {account : Account} {token : Token}
    (h : (account, token) ∈ issue (adminLogin C now body db)) :
    Issued C now db account token := by
  obtain ⟨resp, hresp, haccount, rfl⟩ := mem_issue h
  rw [adminLogin] at hresp
  split at hresp
  · exact absurd hresp nofun
  · next admin hadmin =>
    split at hresp
    · exact absurd hresp nofun
    · split at hresp
      · exact absurd hresp nofun
      · obtain rfl := Except.ok.inj hresp
        obtain rfl := Option.some.inj (account_of_admin.symm.trans haccount)
        obtain ⟨id, hrow⟩ := mem_of_select_head? hadmin
        refine ⟨admin.id, _, rfl, iat_newClaims .., describes_admin now admin.id, ?_⟩
        rw [Account.tenant, hk.admins id admin hrow, hrow, Option.map_some]

theorem issued_of_agentLogin (hk : Keyed db) {body : Login} {account : Account} {token : Token}
    (h : (account, token) ∈ issue (agentLogin C now body db)) :
    Issued C now db account token := by
  obtain ⟨resp, hresp, haccount, rfl⟩ := mem_issue h
  rw [agentLogin] at hresp
  split at hresp
  · exact absurd hresp nofun
  · next agent hagent =>
    split at hresp
    · exact absurd hresp nofun
    · split at hresp
      · exact absurd hresp nofun
      · obtain rfl := Except.ok.inj hresp
        obtain rfl := Option.some.inj (account_of_agent.symm.trans haccount)
        obtain ⟨id, hrow⟩ := mem_of_select_head? hagent
        refine ⟨agent.admin_id, _, rfl, iat_newClaims .., describes_agent now agent.id _, ?_⟩
        rw [Account.tenant, hk.agents id agent hrow, hrow, Option.map_some]

/-- `admin_register` adds the account and issues a token to it. -/
theorem issued_of_adminRegister (now : ℤ) (s : Site) (id : Uuid) (salt : String)
    (body : AdminRegister) :
    Changes s.db (adminRegister C P now id salt body s).2.db ∧
      ∀ account token, (account, token) ∈ issue (adminRegister C P now id salt body s).1 →
        Issued C now (adminRegister C P now id salt body s).2.db account token := by
  rw [adminRegister]
  split
  · exact ⟨.refl s.db, nofun⟩
  · split
    · exact ⟨.refl s.db, nofun⟩
    · next admins hadd =>
      obtain ⟨-, rfl⟩ := Rows.notMem_of_add hadd
      refine ⟨⟨.inr ⟨newAdmin C id salt body, rfl⟩, .inl rfl⟩, fun account token h => ?_⟩
      obtain ⟨resp, hresp, haccount, rfl⟩ := mem_issue h
      obtain rfl := Except.ok.inj hresp
      obtain rfl := Option.some.inj (account_of_admin.symm.trans haccount)
      refine ⟨id, _, rfl, iat_newClaims .., describes_admin now id, ?_⟩
      rw [Account.tenant, AList.lookup_insert, Option.map_some]

theorem changes_setAdminActive (hk : Keyed db) (id : Uuid) (is_active : Bool) :
    Changes db (setAdminActive db id is_active) := by
  rw [setAdminActive]
  split
  · exact .refl db
  · next admin hrow =>
    refine ⟨.inr ⟨{ admin with is_active }, ?_⟩, .inl rfl⟩
    rw [hk.admins id admin hrow]

/-- What holds of the tokens and the tables in every state. -/
structure Api.Sound (C : Crypto Token) (s : Api Token) : Prop where
  keyed : Keyed s.site.db
  issued : ∀ account token, (account, token) ∈ s.issued →
    Issued C s.now s.site.db account token

/-- The tokens from before, and the new ones. -/
theorem Api.Sound.next {s s' : Api Token} (h : s.Sound C) (hnow : s.now ≤ s'.now)
    (hdb : Changes s.site.db s'.site.db) {r : Except HTTPException (TokenResponse Token)}
    (hissued : s'.issued = s.issued ++ issue r)
    (hnew : ∀ account token, (account, token) ∈ issue r →
      Issued C s'.now s'.site.db account token) : s'.Sound C where
  keyed := hdb.keyed h.keyed
  issued account token hmem := by
    rw [hissued] at hmem
    rcases List.mem_append.mp hmem with hold | hnew'
    · exact (h.issued account token hold).mono hnow hdb
    · exact hnew account token hnew'

/-- A step that issues no token. -/
theorem Api.Sound.keep {s s' : Api Token} (h : s.Sound C) (hnow : s.now ≤ s'.now)
    (hdb : Changes s.site.db s'.site.db) (hissued : s'.issued = s.issued) : s'.Sound C :=
  h.next (r := .error internalServerError) hnow hdb (by rw [hissued, issue, List.append_nil]) nofun

theorem Api.Sound.step {s s' : Api Token} (h : s.Sound C) {a : ApiStep Token}
    (hs : Api.step C P s a = some s') : s'.Sound C := by
  cases a with
  | advance now =>
    rw [Api.step] at hs
    split at hs
    · next hle =>
      obtain rfl := Option.some.inj hs
      exact h.keep hle (.refl _) rfl
    · cases hs
  | adminRegister id salt body =>
    obtain ⟨hchanges, hnew⟩ :=
      issued_of_adminRegister (C := C) (P := P) s.now s.site id salt body
    obtain rfl := Option.some.inj hs
    refine h.next le_rfl (changes_getDb hchanges) rfl ?_
    rw [getDb]
    split
    · exact fun _ _ hmem => absurd hmem List.not_mem_nil
    · next resp site hr =>
      rw [hr] at hnew
      exact hnew
  | adminLogin body =>
    obtain rfl := Option.some.inj hs
    exact h.next le_rfl (.refl _) rfl fun _ _ => issued_of_adminLogin h.keyed
  | agentLogin body =>
    obtain rfl := Option.some.inj hs
    exact h.next le_rfl (.refl _) rfl fun _ _ => issued_of_agentLogin h.keyed
  | setAdminActive id is_active =>
    obtain rfl := Option.some.inj hs
    exact h.keep le_rfl (changes_setAdminActive h.keyed id is_active) rfl
  | request E token route | uncommitted E token route =>
    obtain rfl := Option.some.inj hs
    exact h.keep le_rfl (changes_respondWith h.keyed _ s.now token route) rfl

theorem Api.reachable_of_run {now : ℤ} {s : Api Token} {as : List (ApiStep Token)}
    (hr : Transition.run (Api.step C P) (.empty now) as = some s) : Api.Reachable C P s :=
  Transition.reachable_of_run ⟨now, rfl⟩ hr

theorem sound_of_reachable {s : Api Token} (h : Api.Reachable C P s) : s.Sound C := by
  refine h.invariant ?_ fun _ _ _ h hs => h.step hs
  rintro _ ⟨now, rfl⟩
  exact ⟨⟨nofun, nofun⟩, nofun⟩

end Tokens

/-! ### A request of an inactive account -/

theorem toExcept_eq_error_iff {α : Type} {text : String} {f : α → Data} {r : Response α} :
    (∃ e, r.toExcept text f = .error e) ↔ ∀ data, r ≠ .ok data := by
  cases r with
  | ok data => simp [Response.toExcept]
  | notFound => simp [Response.toExcept]
  | forbidden => simp [Response.toExcept]

theorem withAccess_ne_ok_iff {α : Type} {bots : List Bot} {admin_id c : String}
    {db : Database Table} {data : Row → α} :
    (∀ d, withAccess bots admin_id db c data ≠ .ok d) ↔
      ∀ row, conversationRow db c = some row →
        refuses (getAdminBotIds bots admin_id) row = true := by
  rw [withAccess]
  cases conversationRow db c with
  | none => simp
  | some row => cases hr : refuses (getAdminBotIds bots admin_id) row <;> simp [hr]

theorem listConversations_ne_ok_iff {scan : (List Cell → Option Row) → List Row} {bots : List Bot}
    {admin_id : String} {db : Database Table} {status bot_id : Option String} {limit : ℕ} :
    (∀ d, listConversations scan bots admin_id db status bot_id limit ≠ .ok d) ↔
      ∃ b, truthy bot_id = some b ∧ getAdminBotIds bots admin_id ≠ [] ∧
        b ∉ getAdminBotIds bots admin_id := by
  rw [listConversations]
  cases hids : getAdminBotIds bots admin_id with
  | nil => simp
  | cons id ids =>
    cases truthy bot_id with
    | none => simp
    | some b =>
      by_cases hb : b ∈ id :: ids
      · simp [hb, -List.mem_cons]
      · simp [hb, -List.mem_cons]

/-- The routes of the conversations refuse what is not the tenant's, and nothing else. -/
theorem handle_eq_error_iff {E : Backend} {db : Accounts} {t : Uuid} {r : ConversationRoute} :
    (∃ e, r.handle E t db = .error e) ↔ (Route.conversations r).Refuses E db t := by
  cases r with
  | listConversations status bot_id limit =>
    exact toExcept_eq_error_iff.trans listConversations_ne_ok_iff
  | getConversation c => exact toExcept_eq_error_iff.trans withAccess_ne_ok_iff
  | getMessages c bucket limit => exact toExcept_eq_error_iff.trans withAccess_ne_ok_iff

section Requests

variable {Token : Type} {C : Crypto Token} {P : Columns} {s : Api Token} {account : Account}
  {token : Token}

/-- A token that has not expired is decoded to what was encoded. -/
theorem Issued.decode {now : ℤ} {db : Accounts} (h : Issued C now db account token)
    (hfresh : C.decode now token ≠ .error .expiredSignature) :
    ∃ t c, C.decode now token = .ok c ∧ Describes account t c ∧ account.tenant db = some t := by
  obtain ⟨t, c, rfl, hiat, hc, ht⟩ := h
  refine ⟨t, c, ?_, hc, ht⟩
  rw [C.decode_encode, if_neg (not_lt.mpr hiat)] at hfresh ⊢
  by_cases hexp : c.exp * 1000000 ≤ now
  · exact absurd (if_pos hexp) hfresh
  · exact if_neg hexp

theorem getDb_fst {α : Type} (handler : Site → Except HTTPException α × Site) (s : Site) :
    (getDb true handler s).1 = (handler s).1 := by
  rw [getDb]
  split
  · next h => rw [h]
  · next h => rw [h]; rfl

/-- The dashboard socket is open to whoever has a token. -/
theorem wsDashboard_eq_ok {now : ℤ} {t : Uuid} {c : Claims} (hdecode : C.decode now token = .ok c)
    (hc : Describes account t c) :
    wsDashboard C now (.bearer token) = .ok (.subscribed ("admin:" ++ t.str ++ ":feed")) := by
  have htruthy : truthy (some t.str) = some t.str := by simp [truthy, Option.filter]
  rw [wsDashboard, hdecode]
  cases account with
  | admin id =>
    obtain rfl := hc.admin id rfl
    simp [hc.role, hc.user_id, Account.role, Account.id, htruthy]
  | agent id => simp [hc.role, hc.agent id rfl, Account.role, htruthy]

/-- **The exact statement.** In every state that some sequence of requests reaches, a request with
an unexpired token of an inactive account is refused if and only if it is for a route of the admins,
or asks for what is not the tenant's. -/
theorem refused_iff (h : Api.Reachable C P s) (hmem : (account, token) ∈ s.issued)
    (hfresh : C.decode s.now token ≠ .error .expiredSignature)
    (hinactive : account.active s.site.db = false) (E : Backend) (route : Route) :
    Refused C P E s token route ↔
      ∃ t, account.tenant s.site.db = some t ∧ route.Refuses E s.site.db t := by
  obtain ⟨t, c, hdecode, hc, ht⟩ :=
    ((sound_of_reachable h).issued account token hmem).decode hfresh
  have huser : getCurrentUser C s.now (.bearer token) = .ok c := by rw [getCurrentUser, hdecode]
  have htenant : (∃ u, account.tenant s.site.db = some u ∧ route.Refuses E s.site.db u) ↔
      route.Refuses E s.site.db t := by simp [ht]
  rw [htenant, Refused]
  cases route with
  | admin r =>
    refine iff_of_true ?_ trivial
    obtain ⟨e, he⟩ := getCurrentAdmin_eq_error hc hinactive
    refine ⟨e, ?_⟩
    rw [respond, respondWith, getDb_fst, huser, Except.bind, he]
  | conversations r =>
    rw [← handle_eq_error_iff, respond, respondWith, getDb_fst, huser, Except.bind,
      getAdminIdFromUser_eq_ok hc]
  | wsDashboard =>
    refine iff_of_false ?_ id
    rintro ⟨e, he⟩
    rw [respond, respondWith, wsDashboard_eq_ok hdecode hc] at he
    exact absurd he nofun

end Requests

/-! ### A run -/

section Runs

/-- A token is its claims. -/
def plainCrypto : Crypto Claims where
  hashPassword salt password := salt ++ password
  verifyPassword _ _ := true
  encode c := c
  decode now c :=
    if now < c.iat * 1000000 then .error .invalidToken
    else if c.exp * 1000000 ≤ now then .error .expiredSignature
    else .ok c
  decode_encode _ _ := rfl

/-- No conversations. -/
def quietBackend : Backend where
  cassandra _ _ := none
  scan _ := []
  now := .noon
  tracker := .empty
  agents_status := []

/-- An admin registers and is switched off. -/
def switchedOff : List (ApiStep Claims) :=
  [.adminRegister sampleAdmin.id "salt" ⟨"admin@example.com", "password", "admin", by decide,
    by decide⟩, .setAdminActive sampleAdmin.id false]

/-- The admin, as its token has it. -/
def sampleClaims : Claims := newClaims 0 sampleAdmin.id.str "admin" none

/-- The bots are out of reach. -/
theorem refused_iff_listBots : ∃ s : Api Claims,
    Transition.run (Api.step plainCrypto anyColumns) (.empty 0) switchedOff = some s ∧
      Refused plainCrypto anyColumns quietBackend s sampleClaims (.admin .listBots) := by
  have hr : Transition.run (Api.step plainCrypto anyColumns) (.empty 0) switchedOff = some _ := rfl
  have hmem : (Account.admin sampleAdmin.id, sampleClaims) ∈ issue (.ok
      (⟨sampleClaims, "admin", sampleAdmin.id.str⟩ : TokenResponse Claims)) :=
    List.mem_singleton.mpr rfl
  refine ⟨_, hr, (refused_iff (Api.reachable_of_run hr) hmem ?_ rfl quietBackend
    (.admin .listBots)).mpr ?_⟩
  · decide
  · exact ⟨sampleAdmin.id, rfl, trivial⟩

/-- The feed is not. -/
theorem not_takesEffect : ¬∀ (Token : Type) (C : Crypto Token) (P : Columns) (s : Api Token),
    Api.Reachable C P s → TakesEffect C P s := by
  intro h
  have hr : Transition.run (Api.step plainCrypto anyColumns) (.empty 0) switchedOff = some _ := rfl
  obtain ⟨e, he⟩ := h Claims plainCrypto anyColumns _ (Api.reachable_of_run hr)
    (.admin sampleAdmin.id) sampleClaims (List.mem_singleton.mpr rfl) (by decide) rfl quietBackend
    .wsDashboard
  exact absurd he nofun

end Runs

end TitanChat
