import TitanChat.AccountEdits

/-!
# Tenants do not notice each other

All tenants share three tables and one Redis. Each handler adds `admin_id == admin.id` to its query,
or reads the bots of the tenant first, and nothing else keeps the tenants apart.

`Site.view` is what the tables and the registry have of one tenant. Other tenants' requests leave it
as it is, in the same order, and the response of a route depends on it alone. So what a tenant is
told does not depend on what the other tenants have done in between, for every route but the three
that add a value to a unique column: these see that a value is taken.

## Main definitions

* `Site.view`: what there is of a tenant
* `ApiStep.concerns`: the steps that are about a tenant
* `Route.claims`: the routes that take a new email, identifier or key

## Main results

* `view_of_write`: one write
* `respond_eq_of_view_eq`: a response depends on the view
* `respond_of_run`: a run of the others
-/

namespace TitanChat

open Tables

/-! ### The view of a tenant -/

/-- What the tables and the registry have of a tenant. -/
structure TenantView where
  admin : Option Admin
  agents : List Agent
  bots : List AccountBot
  /-- What the registry has for each of the bots. -/
  registry : List (Option String)

def Site.view (s : Site) (t : Uuid) : TenantView where
  admin := s.db.admins.lookup t
  agents := s.db.agents.select fun agent => agent.admin_id = t
  bots := s.db.bots.select fun bot => bot.admin_id = t
  registry := (s.db.bots.select fun bot => bot.admin_id = t).map fun bot =>
    s.redis (botKey bot.id.str)

/-- The step is about the account of the tenant, or is a request that the tenant's admin is let in
with. -/
def ApiStep.concerns {Token : Type} (C : Crypto Token) (t : Uuid) (s : Api Token)
    (x : ApiStep Token) : Bool :=
  (x.caller C s).account = some t || (x.caller C s).admin.any fun a => a.id = t

section Writing

variable {s : Site} {c : Caller} {t : Uuid}

/-- The bots of a tenant are not the bots of another one. -/
theorem registry_congr {id : Uuid} {redis : String → Option String} (hs : Integrity s)
    (hold : ∀ bot, s.db.bots.lookup id = some bot → bot.admin_id ≠ t)
    (hredis : ∀ id' : Uuid, id' ≠ id → redis (botKey id'.str) = s.redis (botKey id'.str)) :
    (s.db.bots.select fun bot => bot.admin_id = t).map (fun bot => redis (botKey bot.id.str)) =
      (s.db.bots.select fun bot => bot.admin_id = t).map
        fun bot => s.redis (botKey bot.id.str) := by
  refine List.map_congr_left fun bot hbot => hredis bot.id ?_
  rintro heq
  obtain ⟨hmem, hadmin⟩ := List.mem_filter.mp hbot
  obtain ⟨id', hrow⟩ := mem_map_entries.mp hmem
  have hid : bot.id = id' := hs.botId id' bot hrow
  exact hold bot (heq ▸ hid ▸ hrow) (of_decide_eq_true hadmin)

theorem view_writeBot {row : AccountBot} {redis : String → Option String}
    (howner : row.admin_id ≠ t)
    (hold : ∀ bot, s.db.bots.lookup row.id = some bot → bot.admin_id ≠ t) (hs : Integrity s)
    (hredis : ∀ id : Uuid, id ≠ row.id → redis (botKey id.str) = s.redis (botKey id.str)) :
    (Edit.write s (.bot row redis)).view t = s.view t := by
  have hbots : Rows.select (s.db.bots.insert row.id row) (fun bot => bot.admin_id = t) =
      s.db.bots.select fun bot => bot.admin_id = t :=
    filter_insert (decide_eq_false howner) fun bot hbot => decide_eq_false (hold bot hbot)
  simp only [Site.view, Edit.write, hbots, registry_congr hs hold hredis]

theorem view_writeRegistry {id : Uuid} {redis : String → Option String} (hs : Integrity s)
    (hold : ∀ bot, s.db.bots.lookup id = some bot → bot.admin_id ≠ t)
    (hredis : ∀ id' : Uuid, id' ≠ id → redis (botKey id'.str) = s.redis (botKey id'.str)) :
    (Edit.write s (.registry redis)).view t = s.view t := by
  simp only [Site.view, Edit.write, registry_congr hs hold hredis]

theorem view_writeAgent {row : Agent} (howner : row.admin_id ≠ t)
    (hold : ∀ agent, s.db.agents.lookup row.id = some agent → agent.admin_id ≠ t) :
    (Edit.write s (.agent row)).view t = s.view t := by
  have hagents : Rows.select (s.db.agents.insert row.id row) (fun agent => agent.admin_id = t) =
      s.db.agents.select fun agent => agent.admin_id = t :=
    filter_insert (decide_eq_false howner) fun agent ha => decide_eq_false (hold agent ha)
  simp only [Site.view, Edit.write, hagents]

theorem view_writeAdmin {row : Admin} (h : row.id ≠ t) :
    (Edit.write s (.admin row)).view t = s.view t := by
  simp only [Site.view, Edit.write, AList.lookup_insert_ne h.symm]

/-- **One write** of another tenant. -/
theorem view_of_write {e : Edit} (hs : Integrity s) (he : e.Allowed s c)
    (haccount : c.account ≠ some t) (hadmin : ∀ a, c.admin = some a → a.id ≠ t) :
    (e.write s).view t = s.view t := by
  cases he with
  | nothing => rfl
  | register row hrow hnew hemail =>
    exact view_writeAdmin fun heq => haccount (hrow.trans (congrArg some heq))
  | switch old is_active hrow hold =>
    exact view_writeAdmin fun heq => haccount (hrow.trans (congrArg some heq))
  | createAgent by_ row hby hadmin' howner hnew hemail hmax =>
    exact view_writeAgent (howner ▸ hadmin by_ hby) (forall_of_notMem hnew)
  | changeAgent by_ old name skills max_chats is_active hby howner hold hmax =>
    have hother : old.admin_id ≠ t := howner ▸ hadmin by_ hby
    exact view_writeAgent hother (eq_of_lookup hold hother)
  | createBot by_ row hby hadmin' howner hnew hkey hgenerated =>
    exact view_writeBot (howner ▸ hadmin by_ hby) (forall_of_notMem hnew) hs
      fun id hid => cacheBotMapping_of_ne (str_ne hid)
  | changeBot by_ old name config is_active redis hby howner hold hredis =>
    have hother : old.admin_id ≠ t := howner ▸ hadmin by_ hby
    refine view_writeBot hother (eq_of_lookup hold hother) hs fun id hid => ?_
    rcases hredis with rfl | rfl
    · rfl
    · exact invalidateBotMapping_of_ne (str_ne hid)
  | regenerateBotKey by_ old key hby howner hold hkey hgenerated =>
    have hother : old.admin_id ≠ t := howner ▸ hadmin by_ hby
    exact view_writeBot hother (eq_of_lookup hold hother) hs fun _ _ => rfl
  | cacheOnly by_ id hcommits hby hadmin' hnew =>
    exact view_writeRegistry hs (forall_of_notMem hnew)
      fun other hother => cacheBotMapping_of_ne (str_ne hother)
  | invalidateOnly by_ old hcommits hby howner hold =>
    have hother : old.admin_id ≠ t := howner ▸ hadmin by_ hby
    exact view_writeRegistry hs (eq_of_lookup hold hother)
      fun id hid => invalidateBotMapping_of_ne (str_ne hid)

end Writing

/-! ### Responses -/

/-- The routes that add a value to a unique column. -/
def Route.claims : Route → Bool
  | .admin (.createAgent ..) | .admin (.createBot ..) | .admin (.regenerateBotKey ..) => true
  | _ => false

section Responses

variable {s s' : Site} {t : Uuid}

theorem ownAgent_eq (hs : Integrity s) (a : Admin) (id : Uuid) :
    ownAgent s.db a id = ((s.view a.id).agents.filter fun agent => agent.id = id).head? := by
  simp only [Site.view, Rows.select, List.filter_filter]
  exact (hs.agentId.head?_filter id fun agent => agent.admin_id = a.id).symm

theorem ownBot_eq (hs : Integrity s) (a : Admin) (id : Uuid) :
    ownBot s.db a id = ((s.view a.id).bots.filter fun bot => bot.id = id).head? := by
  simp only [Site.view, Rows.select, List.filter_filter]
  exact (hs.botId.head?_filter id fun bot => bot.admin_id = a.id).symm

/-- `_get_admin_bot_ids`. -/
theorem getAdminBotIds_botList (s : Site) (t : Uuid) :
    getAdminBotIds s.db.botList t.str = (s.view t).bots.map fun bot => bot.id.str := by
  simp only [getAdminBotIds, Accounts.botList, List.filter_map, List.map_map, Site.view,
    Rows.select, List.filter_filter]
  congr 1
  refine List.filter_congr fun bot _ => ?_
  simp [Uuid.str_injective.eq_iff]

section

variable (hs : Integrity s) (hs' : Integrity s') (hview : s'.view t = s.view t)
include hview

theorem getAdminBotIds_of_view_eq :
    getAdminBotIds s'.db.botList t.str = getAdminBotIds s.db.botList t.str := by
  rw [getAdminBotIds_botList, getAdminBotIds_botList, hview]

/-- Conversations are looked up among the bots of the tenant. -/
theorem conversations_of_view_eq (E : Backend) (r : ConversationRoute) :
    r.handle E t s'.db = r.handle E t s.db := by
  cases r with
  | listConversations status bot_id limit =>
    simp only [ConversationRoute.handle, listConversations, getAdminBotIds_of_view_eq hview]
  | getConversation c =>
    simp only [ConversationRoute.handle, getConversation, withAccess,
      getAdminBotIds_of_view_eq hview]
  | getMessages c bucket limit =>
    simp only [ConversationRoute.handle, getMessages, withAccess, getAdminBotIds_of_view_eq hview]

theorem adminChats_of_view_eq (E : Backend) {a : Admin} (ha : a.id = t) :
    adminChats E a s'.db = adminChats E a s.db := by
  simp only [adminChats, ha, getAdminBotIds_of_view_eq hview]

include hs hs'

theorem ownAgent_of_view_eq {a : Admin} (ha : a.id = t) (id : Uuid) :
    ownAgent s'.db a id = ownAgent s.db a id := by
  rw [ownAgent_eq hs', ownAgent_eq hs, ha, hview]

theorem ownBot_of_view_eq {a : Admin} (ha : a.id = t) (id : Uuid) :
    ownBot s'.db a id = ownBot s.db a id := by
  rw [ownBot_eq hs', ownBot_eq hs, ha, hview]

/-- What a handler answers the admin of the tenant. -/
theorem handle_of_view_eq {Token : Type} {C : Crypto Token} {P : Columns} (E : Backend) {a : Admin}
    (ha : a.id = t) {r : AdminRoute} (hr : (Route.admin r).claims = false) :
    (r.handle C P E a s').1 = (r.handle C P E a s).1 := by
  cases r with
  | createAgent | createBot | regenerateBotKey => cases hr
  | listAgents =>
    have hagents := congrArg TenantView.agents hview
    simp only [Site.view] at hagents
    simp only [AdminRoute.handle, listAgents, ha, hagents]
  | listBots =>
    have hbots := congrArg TenantView.bots hview
    simp only [Site.view] at hbots
    simp only [AdminRoute.handle, listBots, ha, hbots]
  | getAgent id =>
    simp only [AdminRoute.handle, getAgent, ownAgent_of_view_eq hs hs' hview ha]
  | getBot id => simp only [AdminRoute.handle, getBot, ownBot_of_view_eq hs hs' hview ha]
  | updateAgent id body =>
    simp only [AdminRoute.handle, updateAgent, ownAgent_of_view_eq hs hs' hview ha]
    cases ownAgent s.db a id with
    | none => rfl
    | some agent => by_cases hfits : P.agent (body.apply agent) = true <;> simp [Rows.store, hfits]
  | deleteAgent id =>
    simp only [AdminRoute.handle, deleteAgent, ownAgent_of_view_eq hs hs' hview ha]
    cases ownAgent s.db a id <;> rfl
  | updateBot id body =>
    simp only [AdminRoute.handle, asData, updateBot, ownBot_of_view_eq hs hs' hview ha]
    cases ownBot s.db a id with
    | none => rfl
    | some bot => by_cases hfits : P.bot (body.apply bot) = true <;> simp [Rows.store, hfits]
  | deleteBot id =>
    simp only [AdminRoute.handle, asData, deleteBot, ownBot_of_view_eq hs hs' hview ha]
    cases ownBot s.db a id <;> rfl
  | dashboardStats =>
    simp only [AdminRoute.handle, dashboardStats, adminChats_of_view_eq hview E ha]
  | dashboardAgents => rfl
  | dashboardActiveChats offset limit =>
    simp only [AdminRoute.handle, dashboardActiveChats, adminChats_of_view_eq hview E ha]

end

theorem parse_user_id {c : Claims} (htenant : getAdminIdFromUser c = .ok t)
    (hrole : c.role = "admin") : Uuid.parse c.user_id = some t := by
  rw [getAdminIdFromUser, if_pos hrole] at htenant
  cases hid : Uuid.parse c.user_id with
  | none => rw [hid] at htenant; cases htenant
  | some id => rw [hid] at htenant; exact congrArg some (Except.ok.inj htenant)

/-- Who is let in with a token of the tenant. -/
theorem getCurrentAdmin_of_view_eq (hview : s'.view t = s.view t) {c : Claims}
    (htenant : getAdminIdFromUser c = .ok t) :
    getCurrentAdmin s'.db c = getCurrentAdmin s.db c := by
  have hadmin : s'.db.admins.lookup t = s.db.admins.lookup t := congrArg TenantView.admin hview
  by_cases hrole : c.role = "admin"
  · simp only [getCurrentAdmin, parse_user_id htenant hrole, hadmin]
  · simp only [getCurrentAdmin, ne_eq, hrole, not_false_eq_true, if_true]

theorem id_of_getCurrentAdmin (hs : Integrity s) {c : Claims} {a : Admin}
    (htenant : getAdminIdFromUser c = .ok t) (h : getCurrentAdmin s.db c = .ok a) : a.id = t := by
  obtain ⟨id, hid, hrow⟩ := lookup_of_getCurrentAdmin h
  have hrole : c.role = "admin" := by
    by_contra hrole
    rw [getCurrentAdmin, if_pos hrole] at h
    cases h
  rw [parse_user_id htenant hrole, Option.some.injEq] at hid
  exact (hs.adminId id a hrow).trans hid.symm

variable {Token : Type} {C : Crypto Token} {P : Columns}

/-- **A response depends on the view** of the tenant whose token it is. -/
theorem respond_eq_of_view_eq (hs : Integrity s) (hs' : Integrity s')
    (hview : s'.view t = s.view t) (E : Backend) {now : ℤ} {token : Authorization Token}
    (htoken : (getCurrentUser C now token).bind getAdminIdFromUser = .ok t) {route : Route}
    (hroute : route.claims = false) :
    (respond C P E now token route s').1 = (respond C P E now token route s).1 := by
  obtain ⟨c, hc, htenant⟩ := exists_of_bind_eq_ok htoken
  cases route with
  | admin r =>
    simp only [respond, respondWith, getDb_fst, hc, Except.bind,
      getCurrentAdmin_of_view_eq hview htenant]
    cases ha : getCurrentAdmin s.db c with
    | error e => rfl
    | ok a =>
      exact handle_of_view_eq hs hs' hview E (id_of_getCurrentAdmin hs htenant ha) hroute
  | conversations r =>
    simp only [respond, respondWith, getDb_fst, hc, Except.bind, htenant]
    exact conversations_of_view_eq hview E r
  | wsDashboard => rfl

end Responses

/-! ### Runs of the others -/

section Runs

variable {Token : Type} {C : Crypto Token} {P : Columns} {s s' : Api Token} {t : Uuid}

theorem view_of_step (hs : Integrity s.site) {x : ApiStep Token} (hx : x.concerns C t s = false)
    (h : Api.step C P s x = some s') : s'.site.view t = s.site.view t := by
  obtain ⟨e, he, heq⟩ := edits_of_step hs h
  simp only [ApiStep.concerns, Bool.or_eq_false_iff, decide_eq_false_iff_not] at hx
  rw [heq]
  refine view_of_write hs he hx.1 fun a ha hid => ?_
  rw [ha, Option.any_some, decide_eq_false_iff_not] at hx
  exact hx.2 hid

/-- **Tenants do not notice each other.** After any run of requests that are not the tenant's, in
any order, what there is of the tenant is the same, and so is the response to each of its requests
that does not take a new email, identifier or key. -/
theorem respond_of_run (h : Api.Reachable C P s) {schedule : List (ApiStep Token)}
    (hr : Transition.run (Api.step C P) s schedule = some s')
    (hothers : Transition.Guarded (Api.step C P) (fun s x => x.concerns C t s = false) s schedule) :
    s'.site.view t = s.site.view t ∧
      ∀ (E : Backend) (now : ℤ) (token : Authorization Token) (route : Route),
        (getCurrentUser C now token).bind getAdminIdFromUser = .ok t → route.claims = false →
          (respond C P E now token route s'.site).1 = (respond C P E now token route s.site).1 := by
  have hview : s'.site.view t = s.site.view t := by
    have hstep (r : Api Token) (x : ApiStep Token) (r' : Api Token)
        (hi : Integrity r.site ∧ r.site.view t = s.site.view t) (hx : x.concerns C t r = false)
        (hrun : Api.step C P r x = some r') :
        Integrity r'.site ∧ r'.site.view t = s.site.view t :=
      ⟨hi.1.step hrun, (view_of_step hi.1 hx hrun).trans hi.2⟩
    exact ((Transition.always_of_guarded hstep ⟨integrity_of_reachable h, rfl⟩ hothers).run hr).2
  refine ⟨hview, fun E now token route htoken hroute => ?_⟩
  exact respond_eq_of_view_eq (integrity_of_reachable h) (integrity_of_reachable (h.run hr)) hview
    E htoken hroute

def otherAdminId : Uuid := ⟨"44444444-4444-4444-8444-444444444444", by decide⟩

/-- Another tenant registers, adds a bot, and tries to take the first one's over. -/
def otherTenant : List (ApiStep Claims) :=
  [.adminRegister otherAdminId "salt" ⟨"other@example.com", "third password", "other", by decide,
      by decide⟩,
    .request quietBackend (.bearer (newClaims 0 otherAdminId.str "admin" none))
      (.admin (.createBot otherAdminId "other-key" 0 ⟨"other widget", ∅, by decide⟩)),
    .request quietBackend (.bearer (newClaims 0 otherAdminId.str "admin" none))
      (.admin (.deleteBot sampleBotId))]

/-- The first one still has its bot. -/
theorem respond_of_run_setUp : ∃ s s' : Api Claims, setUp = some s ∧
    Transition.run (Api.step plainCrypto anyColumns) s otherTenant = some s' ∧
      s'.site.db.bots.entries.length = 2 ∧
      (respond plainCrypto anyColumns quietBackend 0 (.bearer sampleClaims)
          (.admin (.getBot sampleBotId)) s'.site).1 =
        (respond plainCrypto anyColumns quietBackend 0 (.bearer sampleClaims)
          (.admin (.getBot sampleBotId)) s.site).1 := by
  have hr : setUp = some (setUp.get rfl) := (Option.some_get _).symm
  have hr' : Transition.run (Api.step plainCrypto anyColumns) (setUp.get rfl) otherTenant =
      some ((Transition.run (Api.step plainCrypto anyColumns) (setUp.get rfl) otherTenant).get
        rfl) := (Option.some_get _).symm
  refine ⟨_, _, hr, hr', rfl, ?_⟩
  refine (respond_of_run (t := sampleAdmin.id) (Api.reachable_of_run hr) hr' ?_).2 quietBackend 0
    (.bearer sampleClaims) (.admin (.getBot sampleBotId)) rfl rfl
  decide

end Runs

end TitanChat
