import TitanChat.ConnectionManager

/-!
# The three maps of the gateway

`connections`, `last_seen` and `send_locks` are filled together by `connect` and emptied together by
`disconnect` and `_force_close`. The heartbeat alone writes one of them, `last_seen`, and does not
look whether the conversation is still there: a frame that has arrived before another task has
removed the conversation brings back its time, with no socket to go with it. The stale sweep finds
the conversation two minutes later.

## Main definitions

* `SameKeys`, `MapsAligned`: the property
* `Heard`: the condition on a step, that a frame finds its conversation connected

## Main results

* `sameKeys_step_iff`: a step keeps the maps aligned exactly under its condition
* `mapsAligned_iff`: the same for whole runs
-/

namespace TitanChat

namespace Gateway

/-- The three maps have the same keys. -/
structure SameKeys (s : State) : Prop where
  lastSeen : ∀ c, c ∈ s.lastSeen ↔ c ∈ s.connections
  sendLocks : ∀ c, c ∈ s.sendLocks ↔ c ∈ s.connections

/-- **The property.** -/
structure MapsAligned (s : State) : Prop extends SameKeys s where
  /-- A push to a connected conversation gets as far as its lock. -/
  sends : ∀ c ∈ s.connections, (s.sendMessage c).created = s.created + 1
  /-- What is reported stale has a socket. -/
  stale : ∀ c ∈ s.getStaleConnections, c ∈ s.connections

/-- A frame arrives for a conversation that is connected. -/
def Pc.Heard (s : State) : Pc → Reply → Prop
  | .receiving c _, .data _ => c ∈ s.connections
  | _, _ => True

/-- **The condition.** -/
def Heard (s : State) : Action → Prop
  | .resume t => ∀ r, s.wakes t = some r → (s.tasks t).pc.Heard s r
  | _ => True

theorem mem_setItem {ν : Type*} {d : Dict ν} {key k : String} {v : ν} :
    k ∈ setItem d key v ↔ k = key ∨ k ∈ d := by
  rw [← AList.lookup_isSome, lookup_setItem, ← AList.lookup_isSome]
  split
  · next h => simp [h]
  · next h => simp [h]

/-- The rest of the property follows. -/
theorem SameKeys.mapsAligned {s : State} (h : SameKeys s) : MapsAligned s where
  toSameKeys := h
  sends c hc := by
    obtain ⟨w, hw⟩ := Option.isSome_iff_exists.mp (AList.lookup_isSome.mpr hc)
    obtain ⟨lock, hlock⟩ := Option.isSome_iff_exists.mp
      (AList.lookup_isSome.mpr ((h.sendLocks c).mpr hc))
    rw [State.sendMessage, hw, hlock]
    dsimp only
    split <;> rfl
  stale c hc := by
    obtain ⟨⟨c', seen⟩, hmem, rfl⟩ := List.mem_map.mp hc
    have hitem := mem_items_iff.mp (List.mem_filter.mp hmem).1
    exact (h.lastSeen c').mp (AList.lookup_isSome.mp (Option.isSome_of_mem hitem))

theorem mapsAligned_iff_sameKeys {s : State} : MapsAligned s ↔ SameKeys s :=
  ⟨MapsAligned.toSameKeys, SameKeys.mapsAligned⟩

/-! ### One step -/

section Step

variable {s s' : State}

/-- Only the maps matter. -/
theorem SameKeys.congr (h : SameKeys s) (hconn : s'.connections = s.connections)
    (hseen : s'.lastSeen = s.lastSeen) (hlocks : s'.sendLocks = s.sendLocks) : SameKeys s' where
  lastSeen c := by rw [hconn, hseen, h.lastSeen]
  sendLocks c := by rw [hconn, hlocks, h.sendLocks]

/-- The three `pop`. -/
theorem SameKeys.forget (h : SameKeys s) (c : String) : SameKeys (s.forget c) where
  lastSeen d := by simp only [State.forget, AList.mem_erase, h.lastSeen]
  sendLocks d := by simp only [State.forget, AList.mem_erase, h.sendLocks]

/-- The three assignments of `connect`. -/
theorem SameKeys.store (h : SameKeys s) (c : String) (w : Socket) : SameKeys (s.store c w) where
  lastSeen d := by simp only [State.store, mem_setItem, h.lastSeen]
  sendLocks d := by simp only [State.store, mem_setItem, h.sendLocks]

theorem SameKeys.returns (h : SameKeys s) (after : After) (raised : Bool) :
    SameKeys (s.returns after raised).1 := by
  cases after <;> exact h.congr rfl rfl rfl

theorem SameKeys.finish (h : SameKeys s) (d : Cleanup) : SameKeys (s.finish d).1 := by
  rw [State.finish]
  split
  · exact h.congr rfl rfl rfl
  · exact h.returns d.after false

theorem SameKeys.perform (h : SameKeys s) (t : ℕ) (next : Then) :
    SameKeys (s.perform t next) := by
  cases next with
  | await pc => exact h.congr rfl rfl rfl
  | disconnect c cause after =>
    have hnote : SameKeys (s.note ((s.connections.lookup c).toList.map fun x =>
        .loss .entry x cause)) := h.congr rfl rfl rfl
    exact (hnote.forget c).congr rfl rfl rfl

/-- The heartbeat writes the time of its conversation. -/
theorem SameKeys.heartbeat_iff (h : SameKeys s) (c : String) :
    SameKeys { s with lastSeen := setItem s.lastSeen c s.clock } ↔ c ∈ s.connections := by
  constructor
  · exact fun h' => (h'.lastSeen c).mp (mem_setItem.mpr (Or.inl rfl))
  · intro hc
    refine ⟨fun d => ?_, h.sendLocks⟩
    rw [mem_setItem, h.lastSeen, or_iff_right_iff_imp]
    rintro rfl
    exact hc

/-- Every other reply. -/
theorem SameKeys.proceed (h : SameKeys s) {pc : Pc} {r : Reply}
    (hother : ∀ c w v, pc = .receiving c w → r ≠ .data v) :
    SameKeys (Gateway.proceed s pc r).1 := by
  fun_cases Gateway.proceed s pc r
  case case7 c w v => exact absurd rfl (hother c w v rfl)
  all_goals first
    | exact h
    | exact h.store _ _
    | exact h.finish _
    | exact h.returns _ _
    | exact h.congr rfl rfl rfl

/-- A task that goes on with a reply. -/
theorem sameKeys_resume_iff (h : SameKeys s) (t : ℕ) (pc : Pc) (r : Reply) :
    SameKeys ((proceed s pc r).1.perform t (proceed s pc r).2) ↔ pc.Heard s r := by
  by_cases hother : ∀ c w v, pc = .receiving c w → r ≠ .data v
  · refine iff_of_true ((h.proceed hother).perform t _) ?_
    unfold Pc.Heard
    split
    · next c w v => exact absurd rfl (hother c w v rfl)
    · trivial
  · push Not at hother
    obtain ⟨c, w, v, rfl, rfl⟩ := hother
    rw [Pc.Heard, ← h.heartbeat_iff c]
    exact ⟨fun h' => h'.congr rfl rfl rfl, fun h' => h'.congr rfl rfl rfl⟩

/-- **A step keeps the maps aligned exactly under its condition.** -/
theorem sameKeys_step_iff (h : SameKeys s) {a : Action} (hs : step s a = some s') :
    SameKeys s' ↔ Heard s a := by
  cases a with
  | connect c =>
    obtain rfl := Option.some.inj hs
    refine iff_of_true ?_ trivial
    rw [State.connect]
    split
    · exact h.congr rfl rfl rfl
    · have hsuper : SameKeys (s.supersede c) := h.congr rfl rfl rfl
      exact (hsuper.forget c).congr rfl rfl rfl
  | sendMessage c =>
    obtain rfl := Option.some.inj hs
    refine iff_of_true ?_ trivial
    rw [State.sendMessage]
    split
    · split
      all_goals exact h.congr rfl rfl rfl
    · exact h
  | answer t r =>
    obtain ⟨-, rfl⟩ := answer_eq_some_iff.mp hs
    have htables := sameTables_settle s (s.tasks t).pc r
    exact iff_of_true (h.congr htables.connections htables.lastSeen htables.sendLocks) trivial
  | resume t =>
    obtain ⟨r, hr, rfl⟩ := Option.map_eq_some_iff.mp hs
    refine (sameKeys_resume_iff h t (s.tasks t).pc r).trans ⟨fun hheard r' hr' => ?_, fun h' => ?_⟩
    · obtain rfl := Option.some.inj (hr.symm.trans hr')
      exact hheard
    · exact h' r hr
  | clock now | expire c | track tracker =>
    obtain rfl := Option.some.inj hs
    exact iff_of_true (h.congr rfl rfl rfl) trivial

end Step

/-! ### Whole runs -/

theorem sameKeys_start : SameKeys .start where
  lastSeen _ := Iff.rfl
  sendLocks _ := Iff.rfl

/-- **The maps are aligned throughout a run** if and only if every frame finds its conversation
connected. -/
theorem mapsAligned_iff (schedule : List Action) :
    Transition.Always step MapsAligned .start schedule ↔
      Transition.Guarded step Heard .start schedule := by
  refine Transition.always_iff_guarded (K := fun _ => True) (fun _ _ _ _ _ => trivial)
    (fun s a s' _ h hs => ?_) trivial sameKeys_start.mapsAligned
  rw [mapsAligned_iff_sameKeys]
  exact sameKeys_step_iff h.toSameKeys hs

/-- A socket is connected. Another takes its place, and then its last frame is read. -/
def lateFrame : List Action :=
  [.connect "conv-1", .answer 1 .done, .resume 1, .answer 1 .done, .resume 1,
    .answer 1 (.data (.obj [])), .connect "conv-1", .resume 1]

/-- **A late frame.** -/
theorem not_mapsAligned :
    ¬ ∀ schedule : List Action, Transition.Always step MapsAligned .start schedule := by
  intro h
  have hrun : Transition.run step .start lateFrame = some _ := rfl
  have hlast := (h lateFrame).run hrun
  have hconnected := (hlast.lastSeen "conv-1").mp (by decide)
  exact absurd hconnected (by decide)

end Gateway

end TitanChat
