import TitanChat.TrackerCalls

/-!
# The index of the tracker

Besides the two lists of `TrackerCalls`, the tracker has a hash for each conversation and a set for
each user and each agent. The hash is the only record of which sets hold the conversation, and
nothing protects it: an operation on a conversation that is not online creates a hash again, and one
that names another user or agent overwrites the name of the set that the conversation is in.

## Main definitions

* `Indexed`: the hashes and sets are accounted for
* `Tidy`: the same, and nothing is left of a conversation that has gone offline
* `Calls.Traceable`: the condition on a step
* `Names`: one index, and what the hashes say of it

## Main results

* `indexed_step_iff`: a step keeps the index exactly under its condition
* `tidy_iff`: the same for whole runs
-/

namespace TitanChat

namespace Tracker

/-- Every secondary entry is accounted for. -/
structure Indexed (t : Tracker) : Prop where
  /-- A hash exists only for an online conversation. -/
  online : ∀ c, t.chat c ≠ ∅ → c ∈ t.chats
  user : ∀ c u, c ∈ t.ofUser u → (t.chat c).lookup "user_id" = some u
  agent : ∀ c a, c ∈ t.ofAgent a → (t.chat c).lookup "agent_id" = some a

/-- No key mentions the conversation. -/
structure Gone (t : Tracker) (c : String) : Prop where
  chats : c ∉ t.chats
  byTime : t.byTime.lookup c = none
  user : ∀ u, c ∉ t.ofUser u
  agent : ∀ a, c ∉ t.ofAgent a
  chat : t.chat c = ∅

/-- **The property.** -/
structure Tidy (s : Calls) : Prop where
  indexed : Indexed s.tracker
  gone : ∀ c, s.lastOffline c → (∀ i d meta_, s.reads i = some (d, meta_) → d ≠ c) →
    Gone s.tracker c

/-- **The condition.** The sets that hold the conversation are those that a later `chat_offline`
will find in the hash. -/
def Calls.Traceable (s : Calls) : CallStep → Prop
  | .chatOnline c user_id _ _ _ =>
    (∀ u, c ∈ s.tracker.ofUser u → u = user_id) ∧ ∀ a, c ∈ s.tracker.ofAgent a → a = ""
  | .chatAssigned c agent_id =>
    c ∈ s.tracker.chats ∧ ∀ a, c ∈ s.tracker.ofAgent a → a = agent_id
  | .chatMessageReceived c _ => c ∈ s.tracker.chats
  | .chatOfflineRead _ _ => True
  | .chatOfflineExec i => ∀ c meta_, s.reads i = some (c, meta_) →
    (∀ u, c ∈ s.tracker.ofUser u → u ≠ "" ∧ meta_.lookup "user_id" = some u) ∧
      ∀ a, c ∈ s.tracker.ofAgent a → a ≠ "" ∧ meta_.lookup "agent_id" = some a

/-! ### One operation -/

section Operations

variable {t : Tracker}

/-- A set of the index, after a conversation has been added to one of them. -/
theorem mem_update_insert {index : String → Finset String} {name c d v : String} :
    d ∈ Function.update index name (insert c (index name)) v ↔
      (d = c ∧ v = name) ∨ d ∈ index v := by
  rw [Function.update_apply]
  split
  · next hv => simp [hv]
  · next hv => simp [hv]

/-- And after it has been removed. -/
theorem mem_unindex {index : String → Finset String} {name c d v : String} :
    d ∈ unindex index name c v ↔ d ∈ index v ∧ ¬(d = c ∧ v = name ∧ name ≠ "") := by
  rw [unindex]
  split
  · next hname => simp [hname]
  · next hname =>
    rw [Function.update_apply]
    split
    · next hv => simp [hv, hname, and_comm]
    · next hv => simp [hv]

/-- What `meta.get(field, "")` names, when it is not empty. -/
theorem eq_getD_iff {meta_ : Dict String} {field u : String} :
    (u = (meta_.lookup field).getD "" ∧ (meta_.lookup field).getD "" ≠ "") ↔
      u ≠ "" ∧ meta_.lookup field = some u := by
  cases meta_.lookup field with
  | none => simp
  | some v =>
    rw [Option.getD_some, Option.some.injEq]
    constructor
    · rintro ⟨rfl, hne⟩
      exact ⟨hne, rfl⟩
    · rintro ⟨hne, rfl⟩
      exact ⟨rfl, hne⟩

section Names

variable {chat chat' : String → Dict String} {field c name : String}
  {index : String → Finset String}

/-- The hash of a conversation names the sets that hold it. -/
def Names (chat : String → Dict String) (field : String) (index : String → Finset String) : Prop :=
  ∀ c v, c ∈ index v → (chat c).lookup field = some v

theorem Names.congr (h : Names chat field index)
    (hsame : ∀ d, (chat' d).lookup field = (chat d).lookup field) : Names chat' field index :=
  fun d v hd => (hsame d).trans (h d v hd)

/-- A hash comes to name one set. -/
theorem Names.set_iff (h : Names chat field index) (hother : ∀ d, d ≠ c → chat' d = chat d)
    (hset : (chat' c).lookup field = some name) :
    Names chat' field index ↔ ∀ v, c ∈ index v → v = name := by
  constructor
  · intro h' v hv
    have hlookup := h' c v hv
    rw [hset] at hlookup
    exact (Option.some.inj hlookup).symm
  · intro hin d v hd
    by_cases hdc : d = c
    · subst hdc
      rw [hin v hd, hset]
    · rw [hother d hdc, h d v hd]

/-- And the conversation is added to that set. -/
theorem Names.insert_iff (h : Names chat field index) (hother : ∀ d, d ≠ c → chat' d = chat d)
    (hset : (chat' c).lookup field = some name) :
    Names chat' field (Function.update index name (insert c (index name))) ↔
      ∀ v, c ∈ index v → v = name := by
  rw [← h.set_iff hother hset]
  constructor
  · exact fun h' d v hd => h' d v (mem_update_insert.mpr (Or.inr hd))
  · intro h' d v hd
    obtain ⟨rfl, rfl⟩ | hold := mem_update_insert.mp hd
    · exact hset
    · exact h' d v hold

/-- A hash is deleted, and the conversation is removed from the set that `meta_` names. -/
theorem Names.unindex_iff (h : Names chat field index) (hother : ∀ d, d ≠ c → chat' d = chat d)
    (hempty : chat' c = ∅) (meta_ : Dict String) :
    Names chat' field (unindex index ((meta_.lookup field).getD "") c) ↔
      ∀ v, c ∈ index v → v ≠ "" ∧ meta_.lookup field = some v := by
  constructor
  · intro h' v hv
    by_contra hleft
    have hlookup := h' c v (mem_unindex.mpr ⟨hv, fun hgone => hleft (eq_getD_iff.mp hgone.2)⟩)
    rw [hempty] at hlookup
    exact absurd hlookup (by simp)
  · intro hin d v hd
    obtain ⟨hold, hstays⟩ := mem_unindex.mp hd
    by_cases hdc : d = c
    · subst hdc
      exact absurd ⟨rfl, eq_getD_iff.mpr (hin v hold)⟩ hstays
    · rw [hother d hdc, h d v hold]

end Names

theorem Indexed.names_user (h : Indexed t) : Names t.chat "user_id" t.ofUser := h.user

theorem Indexed.names_agent (h : Indexed t) : Names t.chat "agent_id" t.ofAgent := h.agent

theorem indexed_chatOnline_iff (h : Indexed t) (c user_id server_id bot_id : String) (now : ℤ) :
    Indexed (t.chatOnline c user_id server_id bot_id now) ↔
      (∀ u, c ∈ t.ofUser u → u = user_id) ∧ ∀ a, c ∈ t.ofAgent a → a = "" := by
  have huser : ((t.chatOnline c user_id server_id bot_id now).chat c).lookup "user_id" =
      some user_id := by
    simp [chatOnline, hset, AList.lookup_insert_ne]
  have hagent : ((t.chatOnline c user_id server_id bot_id now).chat c).lookup "agent_id" =
      some "" := by
    simp [chatOnline, hset, AList.lookup_insert_ne]
  have hother (d : String) (hd : d ≠ c) :
      (t.chatOnline c user_id server_id bot_id now).chat d = t.chat d :=
    Function.update_of_ne hd _ _
  have husers := h.names_user.insert_iff hother huser
  have hagents := h.names_agent.set_iff hother hagent
  constructor
  · exact fun h' => ⟨husers.mp h'.user, hagents.mp h'.agent⟩
  · rintro ⟨hu, ha⟩
    refine ⟨fun d hd => ?_, husers.mpr hu, hagents.mpr ha⟩
    by_cases hdc : d = c
    · exact Finset.mem_insert.mpr (Or.inl hdc)
    · rw [hother d hdc] at hd
      exact Finset.mem_insert.mpr (Or.inr (h.online d hd))

theorem indexed_chatAssigned_iff (h : Indexed t) (c agent_id : String) :
    Indexed (t.chatAssigned c agent_id) ↔
      c ∈ t.chats ∧ ∀ a, c ∈ t.ofAgent a → a = agent_id := by
  have hagent : ((t.chatAssigned c agent_id).chat c).lookup "agent_id" = some agent_id := by
    simp [chatAssigned, hset, AList.lookup_insert_ne]
  have hother (d : String) (hd : d ≠ c) : (t.chatAssigned c agent_id).chat d = t.chat d :=
    Function.update_of_ne hd _ _
  have huser (d : String) : ((t.chatAssigned c agent_id).chat d).lookup "user_id" =
      (t.chat d).lookup "user_id" := by
    by_cases hdc : d = c
    · subst hdc
      simp only [chatAssigned, Function.update_self]
      exact lookup_hset_of_notMem (by simp)
    · rw [hother d hdc]
  have hagents := h.names_agent.insert_iff hother hagent
  constructor
  · intro h'
    refine ⟨h'.online c ?_, hagents.mp h'.agent⟩
    simp only [chatAssigned, Function.update_self]
    exact hset_ne_empty _ _ _
  · rintro ⟨honline, ha⟩
    refine ⟨fun d hd => ?_, h.names_user.congr huser, hagents.mpr ha⟩
    by_cases hdc : d = c
    · exact hdc ▸ honline
    · rw [hother d hdc] at hd
      exact h.online d hd

theorem indexed_chatMessageReceived_iff (h : Indexed t) (c : String) (now : ℤ) :
    Indexed (t.chatMessageReceived c now) ↔ c ∈ t.chats := by
  have hother (d : String) (hd : d ≠ c) : (t.chatMessageReceived c now).chat d = t.chat d :=
    Function.update_of_ne hd _ _
  have hlookup {name : String} (hname : "last_msg_at" ≠ name) (d : String) :
      ((t.chatMessageReceived c now).chat d).lookup name = (t.chat d).lookup name := by
    by_cases hdc : d = c
    · subst hdc
      simp only [chatMessageReceived, Function.update_self]
      exact lookup_hset_of_notMem (by simpa using hname)
    · rw [hother d hdc]
  constructor
  · intro h'
    refine h'.online c ?_
    simp only [chatMessageReceived, Function.update_self]
    exact hset_ne_empty _ _ _
  · intro honline
    refine ⟨fun d hd => ?_, h.names_user.congr (hlookup (by decide)),
      h.names_agent.congr (hlookup (by decide))⟩
    by_cases hdc : d = c
    · exact hdc ▸ honline
    · rw [hother d hdc] at hd
      exact h.online d hd

/-- The pipeline of `chat_offline` must find every set that holds the conversation. -/
theorem indexed_chatOfflineExec_iff (h : Indexed t) (c : String) (meta_ : Dict String) :
    Indexed (t.chatOfflineExec c meta_) ↔
      (∀ u, c ∈ t.ofUser u → u ≠ "" ∧ meta_.lookup "user_id" = some u) ∧
        ∀ a, c ∈ t.ofAgent a → a ≠ "" ∧ meta_.lookup "agent_id" = some a := by
  have hchat : (t.chatOfflineExec c meta_).chat c = ∅ := Function.update_self ..
  have hother (d : String) (hd : d ≠ c) : (t.chatOfflineExec c meta_).chat d = t.chat d :=
    Function.update_of_ne hd _ _
  have husers := h.names_user.unindex_iff hother hchat meta_
  have hagents := h.names_agent.unindex_iff hother hchat meta_
  constructor
  · exact fun h' => ⟨husers.mp h'.user, hagents.mp h'.agent⟩
  · rintro ⟨hu, ha⟩
    refine ⟨fun d hd => ?_, husers.mpr hu, hagents.mpr ha⟩
    have hdc : d ≠ c := by
      rintro rfl
      exact hd hchat
    rw [hother d hdc] at hd
    exact Finset.mem_erase.mpr ⟨hdc, h.online d hd⟩

end Operations

/-! ### One step -/

variable {s s' : Calls}

/-- **A step keeps the index exactly under its condition.** -/
theorem indexed_step_iff (h : Indexed s.tracker) {a : CallStep} (hs : s.step a = some s') :
    Indexed s'.tracker ↔ s.Traceable a := by
  cases a with
  | chatOnline c user_id server_id bot_id now =>
    obtain rfl := Option.some.inj hs
    exact indexed_chatOnline_iff h c user_id server_id bot_id now
  | chatAssigned c agent_id =>
    obtain rfl := Option.some.inj hs
    exact indexed_chatAssigned_iff h c agent_id
  | chatMessageReceived c now =>
    obtain rfl := Option.some.inj hs
    exact indexed_chatMessageReceived_iff h c now
  | chatOfflineRead i c =>
    obtain ⟨-, rfl⟩ | rfl := Calls.of_chatOfflineRead hs
    · exact iff_of_true h trivial
    · exact iff_of_true h trivial
  | chatOfflineExec i =>
    obtain ⟨c, meta_, hread, rfl⟩ := Calls.of_chatOfflineExec hs
    rw [Calls.Traceable, hread]
    refine (indexed_chatOfflineExec_iff h c meta_).trans ⟨fun hfound d m hd => ?_, fun hall => ?_⟩
    · obtain ⟨rfl, rfl⟩ := Prod.mk.inj (Option.some.inj hd)
      exact hfound
    · exact hall c meta_ rfl

/-- An operation on one conversation is complete. -/
theorem chat_of_complete {c : String} {offline : Bool} {t : Tracker}
    (h : ∀ d, s.lastOffline d → s.tracker.chat d = ∅)
    (hother : ∀ d, d ≠ c → t.chat d = s.tracker.chat d) (hself : offline → t.chat c = ∅)
    (d : String) (hd : (s.complete c offline t).lastOffline d) : t.chat d = ∅ := by
  by_cases hdc : d = c
  · subst hdc
    simp only [Calls.complete, Function.update_self] at hd
    exact hself hd
  · rw [hother d hdc]
    refine h d ?_
    simpa only [Calls.complete, Function.update_of_ne hdc] using hd

/-- After a `chat_offline` the hash does not exist. -/
theorem chat_of_lastOffline {a : CallStep} (hs : s.step a = some s')
    (h : ∀ c, s.lastOffline c → s.tracker.chat c = ∅) (c : String) (hc : s'.lastOffline c) :
    s'.tracker.chat c = ∅ := by
  cases a with
  | chatOnline d user_id server_id bot_id now =>
    obtain rfl := Option.some.inj hs
    exact chat_of_complete h (fun e he => Function.update_of_ne he _ _) (by simp) c hc
  | chatAssigned d agent_id =>
    obtain rfl := Option.some.inj hs
    exact chat_of_complete h (fun e he => Function.update_of_ne he _ _) (by simp) c hc
  | chatMessageReceived d now =>
    obtain rfl := Option.some.inj hs
    exact chat_of_complete h (fun e he => Function.update_of_ne he _ _) (by simp) c hc
  | chatOfflineRead i d =>
    obtain ⟨hempty, rfl⟩ | rfl := Calls.of_chatOfflineRead hs
    · exact chat_of_complete h (fun _ _ => rfl) (fun _ => isEmpty_entries_iff.mp hempty) c hc
    · exact h c hc
  | chatOfflineExec i =>
    obtain ⟨d, meta_, -, rfl⟩ := Calls.of_chatOfflineExec hs
    exact chat_of_complete h (fun e he => Function.update_of_ne he _ _)
      (fun _ => Function.update_self ..) c hc

/-- Of a conversation without a hash nothing is left, if every entry is accounted for. -/
theorem Indexed.gone {t : Tracker} (h : Indexed t) (hlisting : Listing t) {c : String}
    (hchat : t.chat c = ∅) : Gone t c := by
  have hchats : c ∉ t.chats := fun hc => hlisting.shown c hc hchat
  refine ⟨hchats, ?_, fun u hu => ?_, fun a ha => ?_, hchat⟩
  · rw [hlisting.members, Bool.not_eq_true, Option.isSome_eq_false_iff,
      Option.isNone_iff_eq_none] at hchats
    exact hchats
  · have hlookup := h.user c u hu
    rw [hchat] at hlookup
    exact absurd hlookup (by simp)
  · have hlookup := h.agent c a ha
    rw [hchat] at hlookup
    exact absurd hlookup (by simp)

/-! ### Whole runs -/

/-- What every run keeps, with no condition. -/
structure CallsInv (s : Calls) : Prop where
  listing : Listing s.tracker
  lastOffline : ∀ c, s.lastOffline c → s.tracker.chat c = ∅

theorem CallsInv.step (h : CallsInv s) {a : CallStep} (hs : s.step a = some s') : CallsInv s' :=
  ⟨h.listing.step hs, chat_of_lastOffline hs h.lastOffline⟩

theorem CallsInv.tidy_of_indexed_iff (h : CallsInv s) : Tidy s ↔ Indexed s.tracker :=
  ⟨Tidy.indexed, fun hindexed =>
    ⟨hindexed, fun c hc _ => hindexed.gone h.listing (h.lastOffline c hc)⟩⟩

/-- **The index is accounted for throughout a run** if and only if each step meets its condition. -/
theorem tidy_iff (schedule : List CallStep) :
    Transition.Always Calls.step Tidy .empty schedule ↔
      Transition.Guarded Calls.step Calls.Traceable .empty schedule := by
  have hinv : CallsInv .empty := ⟨.empty, by simp [Calls.empty]⟩
  have hindexed : Indexed Calls.empty.tracker :=
    ⟨fun c hc => absurd rfl hc, fun c u hu => by simp [Calls.empty, Tracker.empty] at hu,
      fun c a ha => by simp [Calls.empty, Tracker.empty] at ha⟩
  refine Transition.always_iff_guarded (fun s a s' h hs => h.step hs) (fun s a s' h hi hs => ?_)
    hinv (hinv.tidy_of_indexed_iff.mpr hindexed)
  rw [(h.step hs).tidy_of_indexed_iff]
  exact indexed_step_iff hi.indexed hs

/-- **A message after the end.** The hash of `conv-1` exists, and the conversation is not online. -/
theorem not_tidy :
    ¬ ∀ schedule : List CallStep, Transition.Always Calls.step Tidy .empty schedule := by
  intro h
  have hlast := (h [.chatMessageReceived "conv-1" 0]).run rfl
  exact absurd (hlast.indexed.online "conv-1" (hset_ne_empty _ _ _)) (Finset.notMem_empty _)

end Tracker

end TitanChat
