import TitanChat.ConnectionManager

/-!
# A connect that fails

`connect` can raise at two awaits: at `accept`, before it has stored anything, and at
`register_connection`, after it has filled the three tables. The endpoint then closes the socket and
returns; it does not call `disconnect`. So a connect that fails at `accept` leaves nothing behind,
and one that fails at `register_connection` leaves its socket in `connections`, where a push finds
it.

An earlier socket of the conversation has been closed, and its entries are gone, in either case.

## Main definitions

* `failingStep`: the steps of a call that fails
* `LeavesNothing`: the law
* `AcceptFails`: the condition

## Main results

* `leavesNothing_iff`: when a failed connect leaves nothing behind
-/

namespace TitanChat

namespace Gateway

/-- The steps of the endpoint of `w`, whose `connect` does not succeed, and of the world around. -/
def ofFailing (w : Socket) (s : State) : Action → Bool
  | .answer t r => t = w &&
    match (s.tasks t).pc, r with
    | .registering .., .done => false
    | _, _ => true
  | .resume t => t = w
  | .clock _ | .expire _ | .track _ => true
  | .connect _ | .sendMessage _ => false

def failingStep (w : Socket) (s : State) (a : Action) : Option State :=
  if ofFailing w s a then step s a else none

/-- The call for `c`, made in `s₀`, has left nothing behind in `s`. -/
structure LeavesNothing (c : String) (w : Socket) (s₀ s : State) : Prop where
  connections : ∀ c', s.connections.lookup c' ≠ some w
  /-- An entry that is there was there before. -/
  lastSeen : ∀ seen, s.lastSeen.lookup c = some seen → s₀.lastSeen.lookup c = some seen
  sendLocks : ∀ lock, s.sendLocks.lookup c = some lock → s₀.sendLocks.lookup c = some lock
  /-- No push is ever sent to the socket. -/
  silent : ∀ as s', Transition.run step s as = some s' →
    ∀ t c' lock, (s'.tasks t).pc ≠ .sending c' w lock
  others : ∀ c' ≠ c, s.connections.lookup c' = s₀.connections.lookup c' ∧
    s.lastSeen.lookup c' = s₀.lastSeen.lookup c' ∧ s.sendLocks.lookup c' = s₀.sendLocks.lookup c'

/-- `accept` does not succeed. -/
def AcceptFails (s : State) : Action → Prop
  | .answer t .done => (s.tasks t).pc.isAccepting = false
  | _ => True

/-! ### The stages of a call -/

/-- The tables if the call has stored nothing: an earlier socket of the conversation has lost its
entries, and nothing else has changed. -/
structure Untouched (c : String) (s₀ s : State) : Prop where
  connections : s.connections.lookup c = none
  lastSeen : ∀ seen, s.lastSeen.lookup c = some seen → s₀.lastSeen.lookup c = some seen
  sendLocks : ∀ lock, s.sendLocks.lookup c = some lock → s₀.sendLocks.lookup c = some lock
  others : ∀ c' ≠ c, s.connections.lookup c' = s₀.connections.lookup c' ∧
    s.lastSeen.lookup c' = s₀.lastSeen.lookup c' ∧ s.sendLocks.lookup c' = s₀.sendLocks.lookup c'

/-- The task of a call that `accept` has not let through. -/
inductive CleanTask (c : String) (w : Socket) : Task → Prop
  | superseding (old : Socket) (inbox : Option Reply) : CleanTask c w ⟨.superseding c w old, inbox⟩
  | accepting : CleanTask c w ⟨.accepting c w, none⟩
  | raised : CleanTask c w ⟨.accepting c w, some .raised⟩
  | refusing (inbox : Option Reply) : CleanTask c w ⟨.refusing w, inbox⟩
  | finished : CleanTask c w ⟨.finished, none⟩

/-- The task of a call that has stored its socket, and whose registration does not succeed. -/
inductive StoredTask (c : String) (w : Socket) : Task → Prop
  | registering : StoredTask c w ⟨.registering c w, none⟩
  | raised : StoredTask c w ⟨.registering c w, some .raised⟩
  | lost : StoredTask c w ⟨.registering c w, some .lost⟩
  | refusing (inbox : Option Reply) : StoredTask c w ⟨.refusing w, inbox⟩
  | finished : StoredTask c w ⟨.finished, none⟩

structure Clean (c : String) (s₀ s : State) : Prop where
  untouched : Untouched c s₀ s
  task : CleanTask c s₀.created (s.tasks s₀.created)

structure Accepted (c : String) (s₀ s : State) : Prop where
  untouched : Untouched c s₀ s
  task : s.tasks s₀.created = ⟨.accepting c s₀.created, some .done⟩

structure Stored (c : String) (s₀ s : State) : Prop where
  entry : s.connections.lookup c = some s₀.created
  task : StoredTask c s₀.created (s.tasks s₀.created)

section Stages

variable {c : String} {s₀ s s' : State} {a : Action}

theorem Accepted.not_clean (h : Accepted c s₀ s) : ¬Clean c s₀ s := by
  intro hclean
  have htask := hclean.task
  rw [h.task] at htask
  cases htask

theorem Stored.not_clean (h : Stored c s₀ s) : ¬Clean c s₀ s := by
  intro hclean
  exact Option.some_ne_none _ (h.entry.symm.trans hclean.untouched.connections)

/-- The tables are what matters. -/
theorem Untouched.congr (h : Untouched c s₀ s) (hconn : s'.connections = s.connections)
    (hseen : s'.lastSeen = s.lastSeen) (hlocks : s'.sendLocks = s.sendLocks) :
    Untouched c s₀ s' := by
  refine ⟨?_, ?_, ?_, ?_⟩
  · rw [hconn]
    exact h.connections
  · rw [hseen]
    exact h.lastSeen
  · rw [hlocks]
    exact h.sendLocks
  · rw [hconn, hseen, hlocks]
    exact h.others

theorem clean_connect (s₀ : State) (c : String) : Clean c s₀ (s₀.connect c) := by
  rw [State.connect]
  split
  · next hnone =>
    refine ⟨⟨hnone, fun _ h => h, fun _ h => h, fun _ _ => ⟨rfl, rfl, rfl⟩⟩, ?_⟩
    simp only [State.spawn, State.goto, Function.update_self]
    exact .accepting
  · next existing hsome =>
    refine ⟨⟨AList.lookup_erase .., fun seen h => ?_, fun lock h => ?_, fun c' hc => ?_⟩, ?_⟩
    · exact absurd (h.symm.trans (AList.lookup_erase ..)) (Option.some_ne_none seen)
    · exact absurd (h.symm.trans (AList.lookup_erase ..)) (Option.some_ne_none lock)
    · exact ⟨AList.lookup_erase_ne hc, AList.lookup_erase_ne hc, AList.lookup_erase_ne hc⟩
    · simp only [State.spawn, State.goto, State.forget, State.supersede, State.note,
        Function.update_self]
      exact .superseding existing none

theorem failingStep_eq {w : Socket} (h : failingStep w s a = some s') :
    ofFailing w s a = true ∧ step s a = some s' := by
  rwa [failingStep, Option.ite_none_right_eq_some] at h

/-- The steps that are no steps of the endpoint. -/
theorem failingStep_cases {w : Socket} (h : failingStep w s a = some s') :
    (∃ r, a = .answer w r ∧ step s (.answer w r) = some s') ∨
      (a = .resume w ∧ step s (.resume w) = some s') ∨
      AcceptFails s a ∧ s'.connections = s.connections ∧ s'.lastSeen = s.lastSeen ∧
        s'.sendLocks = s.sendLocks ∧ s'.tasks = s.tasks ∧ s'.created = s.created := by
  obtain ⟨hown, hs⟩ := failingStep_eq h
  cases a with
  | connect | sendMessage => cases hown
  | answer t r =>
    simp only [ofFailing, Bool.and_eq_true, decide_eq_true_eq] at hown
    obtain ⟨rfl, -⟩ := hown
    exact Or.inl ⟨r, rfl, hs⟩
  | resume t =>
    simp only [ofFailing, decide_eq_true_eq] at hown
    exact Or.inr (Or.inl ⟨hown ▸ rfl, hown ▸ hs⟩)
  | clock | expire | track =>
    obtain rfl := Option.some.inj hs
    exact Or.inr (Or.inr ⟨trivial, rfl, rfl, rfl, rfl, rfl⟩)

/-- An answer leaves the tables alone. -/
theorem answer_of_task {w : Socket} {pc : Pc} {inbox : Option Reply} {r : Reply}
    (htask : s.tasks w = ⟨pc, inbox⟩) (h : s.answer w r = some s') :
    inbox = none ∧ pc.admits r = true ∧ s'.tasks w = ⟨pc, some (s.reply pc r)⟩ ∧
      s'.connections = s.connections ∧ s'.lastSeen = s.lastSeen ∧ s'.sendLocks = s.sendLocks := by
  obtain ⟨⟨hinbox, hadmits⟩, rfl⟩ := answer_eq_some_iff.mp h
  have htables := sameTables_settle s (s.tasks w).pc r
  rw [htask] at hinbox hadmits htables
  refine ⟨hinbox, hadmits, ?_, ?_, ?_, ?_⟩
  · simp only [Function.update_self, htask]
  · simp only [htask]
    exact htables.connections
  · simp only [htask]
    exact htables.lastSeen
  · simp only [htask]
    exact htables.sendLocks

/-- **Before the socket is stored.** Only an `accept` that succeeds takes a call further. -/
theorem Clean.step (h : Clean c s₀ s) (hs : failingStep s₀.created s a = some s') :
    Clean c s₀ s' ∧ AcceptFails s a ∨ Accepted c s₀ s' ∧ ¬AcceptFails s a := by
  have htask := h.task
  rcases htask' : s.tasks s₀.created with ⟨pc, inbox⟩
  rw [htask'] at htask
  obtain ⟨r, rfl, hanswer⟩ | ⟨rfl, hresume⟩ | ⟨hfails, hconn, hseen, hlocks, htasks, -⟩ :=
    failingStep_cases hs
  · obtain ⟨rfl, hadmits, hafter, hconn, hseen, hlocks⟩ := answer_of_task htask' hanswer
    have huntouched := h.untouched.congr hconn hseen hlocks
    have hfails : pc.isAccepting = false → AcceptFails s (.answer s₀.created r) := by
      intro hpc
      cases r <;> simp [AcceptFails, htask', hpc]
    cases htask with
    | superseding old => exact Or.inl ⟨⟨huntouched, hafter ▸ .superseding old _⟩, hfails rfl⟩
    | accepting =>
      cases r with
      | done => exact Or.inr ⟨⟨huntouched, hafter⟩, by simp [AcceptFails, htask', Pc.isAccepting]⟩
      | raised => exact Or.inl ⟨⟨huntouched, hafter ▸ .raised⟩, trivial⟩
      | _ => cases hadmits
    | refusing => exact Or.inl ⟨⟨huntouched, hafter ▸ .refusing _⟩, hfails rfl⟩
    | finished => cases r <;> cases hadmits
  · obtain ⟨r, hr, rfl⟩ := Option.map_eq_some_iff.mp hresume
    rw [State.wakes, htask'] at hr
    simp only [htask']
    refine Or.inl ⟨?_, trivial⟩
    cases htask with
    | superseding old =>
      refine ⟨h.untouched.congr rfl rfl rfl, ?_⟩
      simp only [proceed, State.perform, State.goto, Function.update_self]
      exact .accepting
    | raised =>
      obtain rfl := Option.some.inj hr
      refine ⟨h.untouched.congr rfl rfl rfl, ?_⟩
      simp only [proceed, State.perform, State.goto, Function.update_self]
      exact .refusing none
    | refusing =>
      refine ⟨h.untouched.congr rfl rfl rfl, ?_⟩
      simp only [proceed, State.perform, State.goto, Function.update_self]
      exact .finished
    | accepting | finished => cases hr
  · exact Or.inl ⟨⟨h.untouched.congr hconn hseen hlocks, by rw [htasks]; exact h.task⟩, hfails⟩

/-- **The socket is stored** as soon as the endpoint goes on. -/
theorem Accepted.step (h : Accepted c s₀ s) (hs : failingStep s₀.created s a = some s') :
    Accepted c s₀ s' ∨ Stored c s₀ s' := by
  obtain ⟨r, rfl, hanswer⟩ | ⟨rfl, hresume⟩ | ⟨-, hconn, hseen, hlocks, htasks, -⟩ :=
    failingStep_cases hs
  · obtain ⟨hinbox, -⟩ := answer_of_task h.task hanswer
    cases hinbox
  · obtain ⟨r, hr, rfl⟩ := Option.map_eq_some_iff.mp hresume
    rw [State.wakes, h.task] at hr
    obtain rfl := Option.some.inj hr
    simp only [h.task]
    refine Or.inr ⟨(lookup_setItem ..).trans (if_pos rfl), ?_⟩
    simp only [proceed, State.perform, State.goto, Function.update_self]
    exact .registering
  · exact Or.inl ⟨h.untouched.congr hconn hseen hlocks, (congrFun htasks _).trans h.task⟩

/-- **After that** nobody takes it away. -/
theorem Stored.step (h : Stored c s₀ s) (hs : failingStep s₀.created s a = some s') :
    Stored c s₀ s' := by
  have htask := h.task
  rcases htask' : s.tasks s₀.created with ⟨pc, inbox⟩
  rw [htask'] at htask
  obtain ⟨r, rfl, hanswer⟩ | ⟨rfl, hresume⟩ | ⟨-, hconn, -, -, htasks, -⟩ := failingStep_cases hs
  · have hown := (failingStep_eq hs).1
    simp only [ofFailing, htask', decide_true, Bool.true_and] at hown
    obtain ⟨rfl, hadmits, hafter, hconn, -⟩ := answer_of_task htask' hanswer
    refine ⟨(congrArg _ hconn).trans h.entry, ?_⟩
    rw [hafter]
    cases htask with
    | registering =>
      cases r with
      | raised => exact .raised
      | lost => exact .lost
      | done => cases hown
      | _ => cases hadmits
    | refusing => exact .refusing _
    | finished => cases r <;> cases hadmits
  · obtain ⟨r, hr, rfl⟩ := Option.map_eq_some_iff.mp hresume
    rw [State.wakes, htask'] at hr
    simp only [htask']
    cases htask with
    | raised | lost =>
      obtain rfl := Option.some.inj hr
      refine ⟨h.entry, ?_⟩
      simp only [proceed, State.perform, State.goto, Function.update_self]
      exact .refusing none
    | refusing =>
      refine ⟨h.entry, ?_⟩
      simp only [proceed, State.perform, State.goto, Function.update_self]
      exact .finished
    | registering | finished => cases hr
  · exact ⟨(congrArg _ hconn).trans h.entry, by rw [htasks]; exact h.task⟩

/-- The other tasks, and the number of tasks, during a call. -/
structure Ongoing (c : String) (s₀ s : State) : Prop where
  created : s.created = s₀.created + 1
  tasks : ∀ t ≠ s₀.created, s.tasks t = s₀.tasks t
  stage : Clean c s₀ s ∨ Accepted c s₀ s ∨ Stored c s₀ s

theorem failingStep_frame {w : Socket} (h : failingStep w s a = some s') :
    s'.created = s.created ∧ ∀ t ≠ w, s'.tasks t = s.tasks t := by
  obtain ⟨r, rfl, hanswer⟩ | ⟨rfl, hresume⟩ | ⟨-, -, -, -, htasks, hcreated⟩ := failingStep_cases h
  · obtain ⟨-, rfl⟩ := answer_eq_some_iff.mp hanswer
    have htables := sameTables_settle s (s.tasks w).pc r
    exact ⟨htables.created, fun t ht => Function.update_of_ne ht _ _⟩
  · obtain ⟨r, -, rfl⟩ := Option.map_eq_some_iff.mp hresume
    obtain ⟨htasks, hcreated⟩ := proceed_tasks s (s.tasks w).pc r
    rcases hp : proceed s (s.tasks w).pc r with ⟨s', next⟩
    rw [hp] at htasks hcreated
    have hother : ∀ t ≠ w, ∀ task, Function.update s'.tasks w task t = s.tasks t :=
      fun t ht task => (Function.update_of_ne ht _ _).trans (congrFun htasks t)
    cases next with
    | await pc => exact ⟨hcreated, fun t ht => hother t ht _⟩
    | disconnect c cause after => exact ⟨hcreated, fun t ht => hother t ht _⟩
  · exact ⟨hcreated, fun t _ => congrFun htasks t⟩

theorem Ongoing.step (h : Ongoing c s₀ s) (hs : failingStep s₀.created s a = some s') :
    Ongoing c s₀ s' ∧ (Clean c s₀ s' ↔ Clean c s₀ s ∧ AcceptFails s a) := by
  obtain ⟨hcreated, htasks⟩ := failingStep_frame hs
  have hframe : (Clean c s₀ s' ∨ Accepted c s₀ s' ∨ Stored c s₀ s') → Ongoing c s₀ s' :=
    fun hstage => ⟨hcreated.trans h.created, fun t ht => (htasks t ht).trans (h.tasks t ht), hstage⟩
  obtain hclean | haccepted | hstored := h.stage
  · obtain ⟨hclean', hfails⟩ | ⟨haccepted, hfails⟩ := hclean.step hs
    · exact ⟨hframe (Or.inl hclean'), iff_of_true hclean' ⟨hclean, hfails⟩⟩
    · exact ⟨hframe (Or.inr (Or.inl haccepted)),
        iff_of_false haccepted.not_clean fun hboth => hfails hboth.2⟩
  · refine ⟨hframe (Or.inr (haccepted.step hs)), ?_⟩
    refine iff_of_false ?_ fun hboth => haccepted.not_clean hboth.1
    obtain haccepted' | hstored' := haccepted.step hs
    · exact haccepted'.not_clean
    · exact hstored'.not_clean
  · have hstored' := hstored.step hs
    exact ⟨hframe (Or.inr (Or.inr hstored')),
      iff_of_false hstored'.not_clean fun hboth => hstored.not_clean hboth.1⟩

theorem ongoing_connect (s₀ : State) (c : String) : Ongoing c s₀ (s₀.connect c) := by
  refine ⟨?_, fun t ht => ?_, Or.inl (clean_connect s₀ c)⟩
  all_goals rw [State.connect]
  all_goals split
  · rfl
  · rfl
  · exact Function.update_of_ne ht _ _
  · exact Function.update_of_ne ht _ _

/-- A call that has ended before it stored its socket has left nothing behind. -/
theorem Clean.leavesNothing (h : Clean c s₀ s) (hongoing : Ongoing c s₀ s)
    (hs : s₀.Uses (· < s₀.created)) (hreturned : (s.tasks s₀.created).pc = .finished) :
    LeavesNothing c s₀.created s₀ s := by
  have huses : s.Uses (· ≠ s₀.created) := by
    refine ⟨fun c' w hw => ?_, fun t w hw => ?_⟩
    · by_cases hc : c' = c
      · rw [hc, h.untouched.connections] at hw
        cases hw
      · rw [(h.untouched.others c' hc).1] at hw
        exact Nat.ne_of_lt (hs.connections c' w hw)
    · by_cases ht : t = s₀.created
      · rw [ht, hreturned] at hw
        cases hw
      · rw [hongoing.tasks t ht] at hw
        exact Nat.ne_of_lt (hs.tasks t w hw)
  have hlt : s₀.created < s.created := by
    rw [hongoing.created]
    exact Nat.lt_succ_self _
  refine ⟨fun c' hw => huses.connections c' _ hw rfl, h.untouched.lastSeen, h.untouched.sendLocks,
    fun as s' hrun t c' lock hpc => ?_, h.untouched.others⟩
  exact (uses_ne_of_run huses hlt hrun).tasks t s₀.created (by rw [hpc]; rfl) rfl

/-- **A failed connect, exactly.** It leaves nothing behind if and only if it has failed at
`accept`. -/
theorem leavesNothing_iff (hs : Transition.Reachable step (· = .start) s₀) {as : List Action}
    (hrun : Transition.run (failingStep s₀.created) (s₀.connect c) as = some s)
    (hreturned : (s.tasks s₀.created).pc = .finished) :
    LeavesNothing c s₀.created s₀ s ↔
      Transition.Guarded (failingStep s₀.created) AcceptFails (s₀.connect c) as := by
  have hstart := ongoing_connect s₀ c
  have hongoing : Ongoing c s₀ s :=
    (Transition.always_of_invariant (fun _ _ _ h hs => (Ongoing.step h hs).1) hstart as).run hrun
  have hclean : LeavesNothing c s₀.created s₀ s ↔ Clean c s₀ s := by
    constructor
    · intro hleaves
      obtain hclean | haccepted | hstored := hongoing.stage
      · exact hclean
      · rw [haccepted.task] at hreturned
        cases hreturned
      · exact absurd hstored.entry (hleaves.connections c)
    · exact fun h => h.leavesNothing hongoing (uses_of_reachable hs) hreturned
  rw [hclean, Transition.end_iff_guarded (fun _ _ _ h hs => (Ongoing.step h hs).1)
    (fun _ _ _ h hs => (Ongoing.step h hs).2) hstart hrun, and_iff_right (clean_connect s₀ c)]

end Stages

instance (s : State) : ∀ a, Decidable (AcceptFails s a)
  | .answer t .done => inferInstanceAs (Decidable ((s.tasks t).pc.isAccepting = false))
  | .answer _ .raised | .answer _ .lost | .answer _ .disconnected | .answer _ (.data _)
  | .answer _ (.found _) | .connect _ | .sendMessage _ | .resume _ | .clock _ | .expire _
  | .track _ => .isTrue trivial

/-- Two conversations are connected. -/
def twoConnections : List Action :=
  [.connect "conv-1", .answer 1 .done, .resume 1, .answer 1 .done, .resume 1,
    .connect "conv-2", .answer 2 .done, .resume 2, .answer 2 .done, .resume 2]

/-- Another socket for the first one is not accepted. The old one has been closed before. -/
theorem leavesNothing_of_refused : ∃ s₀ s, Transition.run step .start twoConnections = some s₀ ∧
    s₀.connections.lookup "conv-1" = some 1 ∧ s₀.connections.lookup "conv-2" = some 2 ∧
    Transition.run (failingStep 3) (s₀.connect "conv-1")
      [.answer 3 .done, .resume 3, .answer 3 .raised, .resume 3, .answer 3 .done, .resume 3] =
        some s ∧
    LeavesNothing "conv-1" 3 s₀ s := by
  have hrun₀ : Transition.run step .start twoConnections = some _ := rfl
  have hrun : Transition.run (failingStep 3)
    (((Transition.run step .start twoConnections).get rfl).connect "conv-1")
    [.answer 3 .done, .resume 3, .answer 3 .raised, .resume 3, .answer 3 .done, .resume 3] =
      some _ := rfl
  refine ⟨_, _, hrun₀, rfl, rfl, hrun, ?_⟩
  exact (leavesNothing_iff (Transition.reachable_of_run rfl hrun₀) hrun rfl).mpr (by decide +kernel)

/-- The registration raises. The endpoint closes the socket, and `connections` keeps it. -/
theorem not_leavesNothing : ¬∀ (c : String) (s₀ s : State) (as : List Action),
    Transition.Reachable step (· = .start) s₀ →
      Transition.run (failingStep s₀.created) (s₀.connect c) as = some s →
        (s.tasks s₀.created).pc = .finished → LeavesNothing c s₀.created s₀ s := by
  intro h
  have hleaves := h "conv-1" .start _ [.answer 1 .done, .resume 1, .answer 1 .raised, .resume 1,
    .answer 1 .done, .resume 1] (.start rfl) rfl rfl
  exact hleaves.connections "conv-1" (by decide)

end Gateway

end TitanChat
