import TitanChat.AccountEdits

/-!
# Passwords and keys

An account is entered with its email and password, a bot with its key. No route changes an email or
a password, and a key is only ever replaced, so what was handed out when the account was opened
stays good for exactly as long as the account is active, whatever is done in between.

A replaced key is refused from then on. That takes the unique column: the key was the bot's alone.

## Main definitions

* `Account.identity`: what a login goes by
* `ApiStep.opens`: a request that opens an account

## Main results

* `identity_of_write`: a write keeps the identity of an account
* `login_eq`: a login, in a sound state
* `login_of_opens`: from the request that opens an account to a login in any later state
* `refused_of_regenerate`: a replaced key, in any later state
-/

namespace TitanChat

open Tables

/-! ### Identities -/

/-- What a login goes by, and the tenant that the token is for. -/
structure Identity where
  email : String
  password_hash : String
  tenant : Uuid

namespace Account

def identity (db : Accounts) : Account → Option Identity
  | admin id => (db.admins.lookup id).map fun row => ⟨row.email, row.password_hash, id⟩
  | agent id => (db.agents.lookup id).map fun row => ⟨row.email, row.password_hash, row.admin_id⟩

/-- The login of the account's kind. -/
def login {Token : Type} (C : Crypto Token) (now : ℤ) (body : Login) (db : Accounts) :
    Account → Except HTTPException (TokenResponse Token)
  | admin _ => adminLogin C now body db
  | agent _ => agentLogin C now body db

/-- The claims of a token that is issued at `now`. -/
def claims (now : ℤ) (tenant : Uuid) : Account → Claims
  | admin id => newClaims now id.str "admin" none
  | agent id => newClaims now id.str "agent" (some tenant.str)

end Account

section Writing

variable {s : Site} {c : Caller} {account : Account} {i : Identity}

/-- A row that is written over an account's has the same identity. -/
theorem identity_writeAdmin {row : Admin}
    (hold : ∀ old, s.db.admins.lookup row.id = some old →
      old.email = row.email ∧ old.password_hash = row.password_hash)
    (h : account.identity s.db = some i) :
    account.identity (Edit.write s (.admin row)).db = some i := by
  cases account with
  | agent id => exact h
  | admin id =>
    by_cases hid : id = row.id
    · subst hid
      obtain ⟨old, hrow, rfl⟩ := Option.map_eq_some_iff.mp h
      obtain ⟨hemail, hhash⟩ := hold old hrow
      rw [Account.identity, Edit.write, AList.lookup_insert, Option.map_some, hemail, hhash]
    · rw [Account.identity, Edit.write, AList.lookup_insert_ne hid]
      exact h

theorem identity_writeAgent {row : Agent}
    (hold : ∀ old, s.db.agents.lookup row.id = some old →
      old.email = row.email ∧ old.password_hash = row.password_hash ∧ old.admin_id = row.admin_id)
    (h : account.identity s.db = some i) :
    account.identity (Edit.write s (.agent row)).db = some i := by
  cases account with
  | admin id => exact h
  | agent id =>
    by_cases hid : id = row.id
    · subst hid
      obtain ⟨old, hrow, rfl⟩ := Option.map_eq_some_iff.mp h
      obtain ⟨hemail, hhash, hadmin⟩ := hold old hrow
      rw [Account.identity, Edit.write, AList.lookup_insert, Option.map_some, hemail, hhash, hadmin]
    · rw [Account.identity, Edit.write, AList.lookup_insert_ne hid]
      exact h

/-- **No write** changes an email, a password or a tenant. -/
theorem identity_of_write {e : Edit} (he : e.Allowed s c) (h : account.identity s.db = some i) :
    account.identity (e.write s).db = some i := by
  cases he with
  | nothing => exact h
  | register row haccount hnew hemail => exact identity_writeAdmin (forall_of_notMem hnew) h
  | switch old is_active haccount hold =>
    exact identity_writeAdmin (eq_of_lookup hold ⟨rfl, rfl⟩) h
  | createAgent by_ row hby hadmin howner hnew hemail hmax =>
    exact identity_writeAgent (forall_of_notMem hnew) h
  | changeAgent by_ old name skills max_chats is_active hby howner hold hmax =>
    exact identity_writeAgent (eq_of_lookup hold ⟨rfl, rfl, rfl⟩) h
  | createBot | changeBot | regenerateBotKey | cacheOnly | invalidateOnly =>
    cases account <;> exact h

end Writing

/-! ### Logging in -/

section Logins

variable {Token : Type} {C : Crypto Token} {P : Columns} {account : Account} {i : Identity}

theorem adminOf_eq {s : Site} (hs : Integrity s) {id : Uuid} {row : Admin}
    (h : s.db.admins.lookup id = some row) : adminOf s.db row.email = some row :=
  hs.adminEmail.head?_filter h

theorem agentOf_eq {s : Site} (hs : Integrity s) {id : Uuid} {row : Agent}
    (h : s.db.agents.lookup id = some row) : agentOf s.db row.email = some row :=
  hs.agentEmail.head?_filter h

/-- **A login**, in a sound state. -/
theorem login_eq {s : Site} (hs : Integrity s) (h : account.identity s.db = some i) (now : ℤ)
    (password : String) :
    account.login C now ⟨i.email, password⟩ s.db =
      if C.verifyPassword password i.password_hash then
        if account.active s.db then
          .ok ⟨C.encode (account.claims now i.tenant), account.role, account.id.str⟩
        else .error accountDeactivated
      else .error badCredentials := by
  cases account with
  | admin id =>
    obtain ⟨row, hrow, rfl⟩ := Option.map_eq_some_iff.mp h
    obtain rfl := hs.adminId id row hrow
    simp only [Account.login, adminLogin, adminOf_eq hs hrow, Account.active, hrow,
      Option.any_some]
    cases hv : C.verifyPassword password row.password_hash <;> cases ha : row.is_active <;> rfl
  | agent id =>
    obtain ⟨row, hrow, rfl⟩ := Option.map_eq_some_iff.mp h
    obtain rfl := hs.agentId id row hrow
    simp only [Account.login, agentLogin, agentOf_eq hs hrow, Account.active, hrow,
      Option.any_some]
    cases hv : C.verifyPassword password row.password_hash <;> cases ha : row.is_active <;> rfl

theorem describes_claims (now : ℤ) {db : Accounts} (h : account.identity db = some i) :
    Describes account i.tenant (account.claims now i.tenant) := by
  cases account with
  | admin id =>
    obtain ⟨row, -, rfl⟩ := Option.map_eq_some_iff.mp h
    exact describes_admin now id
  | agent id => exact describes_agent now id i.tenant

/-- A token is good for 24 hours less a second: its times are in whole seconds. -/
theorem decode_claims (now now' : ℤ) (t : Uuid) (hle : now ≤ now')
    (hfresh : now' + 1000000 ≤ now + ACCESS_TOKEN_EXPIRE) :
    C.decode now' (C.encode (account.claims now t)) = .ok (account.claims now t) := by
  have hiat : (account.claims now t).iat = now / 1000000 := by cases account <;> rfl
  have hexp : (account.claims now t).exp = (now + ACCESS_TOKEN_EXPIRE) / 1000000 := by
    cases account <;> rfl
  rw [C.decode_encode, if_neg, if_neg]
  · rw [hexp]
    omega
  · rw [hiat]
    omega

/-! ### Opening an account -/

/-- What an account is opened with. -/
structure Opened where
  account : Account
  email : String
  password : String
  salt : String

/-- The account that a step opens, if it is successful. -/
def ApiStep.opens (C : Crypto Token) (P : Columns) (s : Api Token) (x : ApiStep Token) :
    Option Opened :=
  match x with
  | .adminRegister id salt body =>
    if (getDb true (TitanChat.adminRegister C P s.now id salt body) s.site).1.isOk then
      some ⟨.admin id, body.email, body.password, salt⟩
    else none
  | .request E token (.admin (.createAgent id salt created_at body)) =>
    if (respond C P E s.now token (.admin (.createAgent id salt created_at body))
        s.site).1.isOk then
      some ⟨.agent id, body.email, body.password, salt⟩
    else none
  | _ => none

theorem getDb_of_isOk {α : Type} {handler : Site → Except HTTPException α × Site} {s : Site}
    (h : (getDb true handler s).1.isOk) : getDb true handler s = handler s := by
  rw [getDb] at h ⊢
  split
  · next heq => rw [heq] at h; cases h
  · next heq => exact heq.symm

theorem identity_adminRegister {now : ℤ} {id : Uuid} {salt : String} {body : AdminRegister}
    {s : Site} (h : (adminRegister C P now id salt body s).1.isOk) :
    (Account.admin id).identity (adminRegister C P now id salt body s).2.db =
      some ⟨body.email, C.hashPassword salt body.password, id⟩ := by
  rw [adminRegister] at h ⊢
  split
  · next htaken => rw [if_pos htaken] at h; cases h
  · next hfree =>
    rw [if_neg hfree] at h
    split
    · next hadd => rw [hadd] at h; cases h
    · next admins hadd =>
      obtain ⟨-, rfl⟩ := Rows.notMem_of_add hadd
      rw [Account.identity, AList.lookup_insert]
      rfl

theorem identity_createAgent {admin : Admin} {id : Uuid} {password_hash : String}
    {created_at : ℤ} {body : AgentCreate} {s : Site}
    (h : (createAgent P admin id password_hash created_at body s).1.isOk) :
    (Account.agent id).identity (createAgent P admin id password_hash created_at body s).2.db =
      some ⟨body.email, password_hash, admin.id⟩ := by
  rw [createAgent] at h ⊢
  split
  · next htaken => rw [if_pos htaken] at h; cases h
  · next hfree =>
    rw [if_neg hfree] at h
    dsimp only at h ⊢
    split
    · next hadd => rw [hadd] at h; cases h
    · next agents hadd =>
      obtain ⟨-, rfl⟩ := Rows.notMem_of_add hadd
      rw [Account.identity, AList.lookup_insert]
      rfl

/-- An account that was opened is there. -/
theorem identity_of_opens {s s' : Api Token} {x : ApiStep Token} {o : Opened}
    (ho : x.opens C P s = some o) (h : Api.step C P s x = some s') :
    ∃ t, o.account.identity s'.site.db =
      some ⟨o.email, C.hashPassword o.salt o.password, t⟩ := by
  unfold ApiStep.opens at ho
  split at ho
  · next id salt body =>
    split at ho
    · next hok =>
      obtain rfl := Option.some.inj ho
      obtain rfl := Option.some.inj h
      dsimp only
      have hdone := getDb_of_isOk hok
      rw [hdone] at hok ⊢
      exact ⟨id, identity_adminRegister hok⟩
    · cases ho
  · next E token id salt created_at body =>
    split at ho
    · next hok =>
      obtain rfl := Option.some.inj ho
      obtain rfl := Option.some.inj h
      dsimp only
      rw [respond, respondWith] at hok ⊢
      have hdone := getDb_of_isOk hok
      rw [hdone] at hok ⊢
      cases ha : (getCurrentUser C s.now token).bind (getCurrentAdmin s.site.db) with
      | error e => rw [ha] at hok; cases hok
      | ok a =>
        rw [ha] at hok
        exact ⟨a.id, identity_createAgent hok⟩
    · cases ho
  · cases ho

/-- An identity stays. -/
theorem identity_of_run {s s' : Api Token} (hs : Integrity s.site)
    (h : account.identity s.site.db = some i) {schedule : List (ApiStep Token)}
    (hr : Transition.run (Api.step C P) s schedule = some s') :
    account.identity s'.site.db = some i := by
  have hstep (r : Api Token) (x : ApiStep Token) (r' : Api Token)
      (hi : Integrity r.site ∧ account.identity r.site.db = some i)
      (hrun : Api.step C P r x = some r') :
      Integrity r'.site ∧ account.identity r'.site.db = some i := by
    obtain ⟨e, he, heq⟩ := edits_of_step hi.1 hrun
    exact ⟨hi.1.step hrun, heq ▸ identity_of_write he hi.2⟩
  exact ((Transition.always_of_invariant hstep ⟨hs, h⟩ schedule).run hr).2

/-- What became of an account that was opened: a login succeeds with its password while it is
active, and the token is the tenant's on every route that asks. -/
structure Opened.Enters (C : Crypto Token) (s : Api Token) (o : Opened) : Prop where
  wrongPassword : ∀ password,
    C.verifyPassword password (C.hashPassword o.salt o.password) = false →
      o.account.login C s.now ⟨o.email, password⟩ s.site.db = .error badCredentials
  inactive : o.account.active s.site.db = false →
    o.account.login C s.now ⟨o.email, o.password⟩ s.site.db = .error accountDeactivated
  active : o.account.active s.site.db = true → ∃ r t,
    o.account.login C s.now ⟨o.email, o.password⟩ s.site.db = .ok r ∧
      o.account.tenant s.site.db = some t ∧
      ∀ now, s.now ≤ now → now + 1000000 ≤ s.now + ACCESS_TOKEN_EXPIRE →
        ∃ c, getCurrentUser C now (.bearer r.access_token) = .ok c ∧
          Describes o.account t c ∧ getAdminIdFromUser c = .ok t

theorem tenant_of_identity {db : Accounts} (h : account.identity db = some i) :
    account.tenant db = some i.tenant := by
  cases account with
  | admin id =>
    obtain ⟨row, hrow, rfl⟩ := Option.map_eq_some_iff.mp h
    rw [Account.tenant, hrow, Option.map_some]
  | agent id =>
    obtain ⟨row, hrow, rfl⟩ := Option.map_eq_some_iff.mp h
    rw [Account.tenant, hrow, Option.map_some]

/-- **What was handed out stays good.** An account is opened in some state; in every later state of
every run its email and password are answered as `Opened.Enters` says. -/
theorem login_of_opens
    (hverify : ∀ salt password, C.verifyPassword password (C.hashPassword salt password) = true)
    {s s₁ s₂ : Api Token} (h : Api.Reachable C P s) {x : ApiStep Token} {o : Opened}
    (ho : x.opens C P s = some o) (hx : Api.step C P s x = some s₁)
    {schedule : List (ApiStep Token)}
    (hr : Transition.run (Api.step C P) s₁ schedule = some s₂) : o.Enters C s₂ := by
  have hs₁ : Integrity s₁.site := integrity_of_reachable (h.next hx)
  have hs₂ : Integrity s₂.site := integrity_of_reachable ((h.next hx).run hr)
  obtain ⟨t, hopened⟩ := identity_of_opens ho hx
  have hidentity := identity_of_run hs₁ hopened hr
  have hlogin := login_eq (C := C) hs₂ hidentity s₂.now
  dsimp only at hlogin
  constructor
  · intro password hwrong
    rw [hlogin, hwrong]
    rfl
  · intro hinactive
    rw [hlogin, hverify, hinactive]
    rfl
  · intro hactive
    rw [hlogin, hverify, hactive]
    refine ⟨_, t, rfl, tenant_of_identity hidentity, fun now hle hfresh => ?_⟩
    have hdescribes := describes_claims s₂.now hidentity
    refine ⟨_, ?_, hdescribes, getAdminIdFromUser_eq_ok hdescribes⟩
    rw [getCurrentUser, decode_claims s₂.now now t hle hfresh]

end Logins

/-! ### Keys of bots -/

section Keys

variable {Token : Type} {C : Crypto Token} {P : Columns}

/-- The keys that are accepted are those of the active bots. -/
theorem validateBotApiKey_eq_some_iff {s : Site} (hs : Integrity s) {api_key : String} {b : Bot} :
    validateBotApiKey s.db.botList api_key = some b ↔
      ∃ id row, s.db.bots.lookup id = some row ∧ row.api_key = api_key ∧ row.is_active = true ∧
        b = ⟨row.id.str, row.admin_id.str, row.api_key, row.is_active⟩ := by
  rw [validateBotApiKey, ← List.head?_filter, head?_eq_some_iff (hs.length_botList_le api_key),
    List.mem_filter, Accounts.botList, List.mem_map]
  constructor
  · rintro ⟨⟨row, hrow, rfl⟩, hkey⟩
    obtain ⟨id, hid⟩ := mem_map_entries.mp (List.mem_filter.mp hrow).1
    simp only [Bool.and_eq_true, decide_eq_true_eq] at hkey
    exact ⟨id, row, hid, hkey.1, hkey.2, rfl⟩
  · rintro ⟨id, row, hid, hkey, hactive, rfl⟩
    have hmem : row ∈ s.db.bots.select fun _ => true :=
      List.mem_filter.mpr ⟨mem_map_entries.mpr ⟨id, hid⟩, rfl⟩
    exact ⟨⟨row, hmem, rfl⟩, by simp [hkey, hactive]⟩

theorem unused_writeBot {s : Site} {key : String} {row : AccountBot}
    {redis : String → Option String} (h : Unused AccountBot.api_key s.db.bots key)
    (hrow : row.api_key ≠ key) :
    Unused AccountBot.api_key (Edit.write s (.bot row redis)).db.bots key :=
  Each.insert h hrow

/-- A key that no bot has stays so until it is generated. -/
theorem unused_of_write {s : Site} {c : Caller} {e : Edit} {key : String} (he : e.Allowed s c)
    (hkey : c.api_key ≠ some key) (h : Unused AccountBot.api_key s.db.bots key) :
    Unused AccountBot.api_key (e.write s).db.bots key := by
  cases he with
  | nothing | register | switch | createAgent | changeAgent | cacheOnly | invalidateOnly => exact h
  | createBot by_ row hby hadmin howner hnew hfree hgenerated =>
    exact unused_writeBot h fun heq => hkey (heq ▸ hgenerated)
  | changeBot by_ old name config is_active redis hby howner hold hredis =>
    exact unused_writeBot h (h old.id old hold)
  | regenerateBotKey by_ old key' hby howner hold hfree hgenerated =>
    exact unused_writeBot h fun heq => hkey (hgenerated.trans (congrArg some heq))

/-- A replaced key was the bot's alone. -/
theorem unused_of_regenerateBotKey {s : Site} (hs : Integrity s) {admin : Admin} {id : Uuid}
    {bot : AccountBot} {key : String} (hbot : s.db.bots.lookup id = some bot)
    (hne : key ≠ bot.api_key) (hok : (regenerateBotKey P admin id key s).1.isOk) :
    Unused AccountBot.api_key (regenerateBotKey P admin id key s).2.db.bots bot.api_key := by
  have hothers (row : AccountBot) (hrow : row.api_key = key) :
      Unused AccountBot.api_key (s.db.bots.insert id row) bot.api_key := by
    intro j b hb
    obtain ⟨rfl, rfl⟩ | ⟨hj, hold⟩ := lookup_insert_cases hb
    · exact hrow ▸ hne
    · exact fun heq => hj (hs.apiKey j id b bot hold hbot heq)
  rw [regenerateBotKey] at hok ⊢
  cases hown : ownBot s.db admin id with
  | none => rw [hown] at hok; cases hok
  | some b =>
    rw [hown] at hok
    dsimp only at hok ⊢
    split
    · next hfree =>
      rw [if_pos hfree] at hok
      by_cases hfits : P.bot { b with api_key := key } = true
      · simp only [Rows.store, hfits, if_true]
        exact hothers _ rfl
      · simp only [Rows.store, hfits, Bool.false_eq_true, if_false] at hok
        cases hok
    · next htaken => rw [if_neg htaken] at hok; cases hok

/-- **A replaced key stays refused**, in every later state, as long as it is not drawn again. The
keys that are accepted are those that the active bots have, each for its own bot. -/
theorem refused_of_regenerate {s s₁ s₂ : Api Token} (h : Api.Reachable C P s) {E : Backend}
    {token : Authorization Token} {id : Uuid} {key : String} {bot : AccountBot}
    (hbot : s.site.db.bots.lookup id = some bot) (hne : key ≠ bot.api_key)
    (hok : (respond C P E s.now token (.admin (.regenerateBotKey id key)) s.site).1.isOk)
    (hx : Api.step C P s (.request E token (.admin (.regenerateBotKey id key))) = some s₁)
    {schedule : List (ApiStep Token)}
    (hr : Transition.run (Api.step C P) s₁ schedule = some s₂)
    (hfresh : Transition.Guarded (Api.step C P)
      (fun s x => (x.caller C s).api_key ≠ some bot.api_key) s₁ schedule) :
    validateBotApiKey s₂.site.db.botList bot.api_key = none ∧
      (∀ id row, s₂.site.db.bots.lookup id = some row →
        validateBotApiKey s₂.site.db.botList row.api_key =
          if row.is_active then some ⟨row.id.str, row.admin_id.str, row.api_key, true⟩
          else none) ∧
      ∀ api_key b, validateBotApiKey s₂.site.db.botList api_key = some b ↔
        ∃ id row, s₂.site.db.bots.lookup id = some row ∧ row.api_key = api_key ∧
          row.is_active = true ∧
            b = ⟨row.id.str, row.admin_id.str, row.api_key, row.is_active⟩ := by
  have hs₁ : Integrity s₁.site := integrity_of_reachable (h.next hx)
  have hs₂ : Integrity s₂.site := integrity_of_reachable ((h.next hx).run hr)
  have hreplaced : Unused AccountBot.api_key s₁.site.db.bots bot.api_key := by
    obtain rfl := Option.some.inj hx
    dsimp only
    rw [respond, respondWith] at hok ⊢
    have hdone := getDb_of_isOk hok
    rw [hdone] at hok ⊢
    cases ha : (getCurrentUser C s.now token).bind (getCurrentAdmin s.site.db) with
    | error e => rw [ha] at hok; cases hok
    | ok a =>
      rw [ha] at hok
      exact unused_of_regenerateBotKey (integrity_of_reachable h) hbot hne hok
  have hstep (r : Api Token) (x : ApiStep Token) (r' : Api Token)
      (hi : Integrity r.site ∧ Unused AccountBot.api_key r.site.db.bots bot.api_key)
      (hx : (x.caller C r).api_key ≠ some bot.api_key) (hrun : Api.step C P r x = some r') :
      Integrity r'.site ∧ Unused AccountBot.api_key r'.site.db.bots bot.api_key := by
    obtain ⟨e, he, heq⟩ := edits_of_step hi.1 hrun
    exact ⟨hi.1.step hrun, heq ▸ unused_of_write he hx hi.2⟩
  have hunused : Unused AccountBot.api_key s₂.site.db.bots bot.api_key :=
    ((Transition.always_of_guarded hstep ⟨hs₁, hreplaced⟩ hfresh).run hr).2
  refine ⟨?_, ?_, fun api_key b => validateBotApiKey_eq_some_iff hs₂⟩
  · refine Option.eq_none_iff_forall_ne_some.mpr fun b hb => ?_
    obtain ⟨id, row, hrow, hkey, -, -⟩ := (validateBotApiKey_eq_some_iff hs₂).mp hb
    exact hunused id row hrow hkey
  · intro id row hrow
    cases hactive : row.is_active with
    | true =>
      exact (validateBotApiKey_eq_some_iff hs₂).mpr ⟨id, row, hrow, rfl, hactive, by rw [hactive]⟩
    | false =>
      refine Option.eq_none_iff_forall_ne_some.mpr fun b hb => ?_
      obtain ⟨id', row', hrow', hkey, hactive', -⟩ := (validateBotApiKey_eq_some_iff hs₂).mp hb
      obtain rfl := hs₂.apiKey id' id row' row hrow' hrow hkey
      obtain rfl := Option.some.inj (hrow'.symm.trans hrow)
      rw [hactive] at hactive'
      cases hactive'

end Keys

/-! ### Runs -/

section Runs

/-- A hash is the password behind a mark. -/
def markedCrypto : Crypto Claims where
  hashPassword _ password := "$" ++ password
  verifyPassword password password_hash := password_hash = "$" ++ password
  encode := plainCrypto.encode
  decode := plainCrypto.decode
  decode_encode := plainCrypto.decode_encode

def registering : ApiStep Claims :=
  .adminRegister sampleAdmin.id "salt" ⟨"admin@example.com", "fourth password", "someone",
    by decide, by decide⟩

/-- The admin is switched off and on again. -/
def switching : List (ApiStep Claims) :=
  [.setAdminActive sampleAdmin.id false, .setAdminActive sampleAdmin.id true]

theorem login_of_opens_switching : ∃ s₁ s₂ : Api Claims,
    Api.step markedCrypto anyColumns (.empty 0) registering = some s₁ ∧
      Transition.run (Api.step markedCrypto anyColumns) s₁ switching = some s₂ ∧
      (⟨.admin sampleAdmin.id, "admin@example.com", "fourth password", "salt"⟩ : Opened).Enters
        markedCrypto s₂ := by
  have hx : Api.step markedCrypto anyColumns (.empty 0) registering = some _ := rfl
  have hr : Transition.run (Api.step markedCrypto anyColumns)
      ((Api.step markedCrypto anyColumns (.empty 0) registering).get rfl) switching = some _ := rfl
  refine ⟨_, _, hx, hr, ?_⟩
  exact login_of_opens (fun _ _ => decide_eq_true rfl) (.start ⟨0, rfl⟩) rfl hx hr

/-- The key of the bot is replaced, and the bot gets another name. -/
theorem refused_of_regenerate_setUp : ∃ s s₁ s₂ : Api Claims, setUp = some s ∧
    Api.step plainCrypto anyColumns s (sampleRequest (.regenerateBotKey sampleBotId "key-2")) =
      some s₁ ∧
    Transition.run (Api.step plainCrypto anyColumns) s₁
      [sampleRequest (.updateBot sampleBotId ⟨some "renamed", none, none⟩)] = some s₂ ∧
    validateBotApiKey s₂.site.db.botList "key" = none ∧
      validateBotApiKey s₂.site.db.botList "key-2" =
        some ⟨sampleBotId.str, sampleAdmin.id.str, "key-2", true⟩ := by
  have hs : setUp = some (setUp.get rfl) := (Option.some_get _).symm
  have hx : Api.step plainCrypto anyColumns (setUp.get rfl)
      (sampleRequest (.regenerateBotKey sampleBotId "key-2")) = some _ := rfl
  have hr : Transition.run (Api.step plainCrypto anyColumns)
      ((Api.step plainCrypto anyColumns (setUp.get rfl)
        (sampleRequest (.regenerateBotKey sampleBotId "key-2"))).get rfl)
      [sampleRequest (.updateBot sampleBotId ⟨some "renamed", none, none⟩)] = some _ := rfl
  have hbot : (setUp.get rfl).site.db.bots.lookup sampleBotId = some _ := rfl
  have hfresh (s : Api Claims) : Transition.Guarded (Api.step plainCrypto anyColumns)
      (fun s x => (x.caller plainCrypto s).api_key ≠ some "key") s
      [sampleRequest (.updateBot sampleBotId ⟨some "renamed", none, none⟩)] :=
    fun _ _ => ⟨nofun, trivial⟩
  obtain ⟨hold, hnew, -⟩ :=
    refused_of_regenerate (Api.reachable_of_run hs) hbot (by decide) rfl hx hr (hfresh _)
  exact ⟨_, _, _, hs, hx, hr, hold, hnew sampleBotId _ rfl⟩

end Runs

end TitanChat
