import TitanChat.Internal.Lease
import TitanChat.ConnectionManager

/-!
# The registry keys of live connections

`register_connection` sets the key of a conversation with a TTL of 300 seconds, and each frame that
the client sends sets it to 300 seconds again. Between two frames nothing does: a client that is
silent keeps its connection until a stale sweep finds that it has not been seen for 120 seconds.
`EXPIRE` does nothing to a key that has expired, so a refresh that comes too late is lost.

Whether a connection can outlive its key depends on how long a silent client keeps it. That is 120
seconds, the time to the next sweep, and the time that this sweep takes to get to it: the sweep
evicts one conversation after the other, and waits for Redis in between. If these and the delay of
a write add up to less than 300 seconds, then the key is there as long as the connection is.

## Main definitions

* `Timed`: the gateway with the times at which its keys run out
* `Timely`, `EvictsWithin`: the bounds
* `Covered`: the property
* `tenancy`: a connection as a lease

## Main results

* `Sound.step`: the invariant
* `covered_of_timely`: a live connection does not outlive its key
-/

namespace TitanChat

namespace Gateway

/-- `_TTL_SECONDS`. -/
def TTL_SECONDS : ℤ := 300

/-- The conversation whose key is written at an await, by `register_connection` or by
`refresh_connection_ttl`. -/
def Pc.ttlWrite : Pc → Option String
  | .registering c _ | .refreshing c _ _ => some c
  | _ => none

/-- The conversation that a `connect` is at work for. -/
def Pc.connecting : Pc → Option String
  | .superseding c _ _ | .accepting c _ | .registering c _ => some c
  | _ => none

/-- The conversation that a `disconnect` is at work for. -/
def Pc.disconnecting (pc : Pc) : Option String := pc.cleanup.map Cleanup.conversation_id

/-- A newer socket took the place of another. -/
def Incident.isSupersession : Incident → Bool
  | .event .superseded _ => true
  | _ => false

/-- The call has taken effect. -/
def Reply.takesEffect : Reply → Bool
  | .done | .lost => true
  | _ => false

/-- The gateway, and the times that matter for its keys. -/
structure Timed where
  state : State
  /-- When the time to live of a key runs out. -/
  expires : String → ℤ
  /-- When a task has set `last_seen`, before the write that it is at. -/
  stamp : ℕ → ℤ
  /-- When `get_stale_connections` was called last. -/
  swept : ℤ

namespace Timed

def start : Timed := ⟨.start, fun _ => 0, fun _ => 0, 0⟩

/-- The key is present and unexpired. -/
def live (k : Timed) (c : String) : Bool :=
  (k.state.registry c).isSome && k.state.clock < k.expires c

/-- Time goes forward, and no key is gone before its time. -/
def allows (k : Timed) : Action → Bool
  | .clock now => k.state.clock ≤ now
  | .expire c => k.expires c ≤ k.state.clock
  | _ => true

/-- `SET` with `ex`, and `EXPIRE`, which does nothing unless the key is live. -/
def written (k : Timed) : Pc → String → ℤ
  | .registering c _ => Function.update k.expires c (k.state.clock + TTL_SECONDS * 1000000)
  | .refreshing c _ _ =>
    if k.live c then Function.update k.expires c (k.state.clock + TTL_SECONDS * 1000000)
    else k.expires
  | _ => k.expires

def expiresAfter (k : Timed) : Action → String → ℤ
  | .answer t r => if r.takesEffect then k.written (k.state.tasks t).pc else k.expires
  | _ => k.expires

/-- A task that has got to a write has just set `last_seen`. -/
def stampAfter (k : Timed) (s' : State) : Action → ℕ → ℤ
  | .resume t =>
    if (s'.tasks t).pc.ttlWrite.isSome then Function.update k.stamp t k.state.clock else k.stamp
  | _ => k.stamp

def sweptAfter (k : Timed) : Action → ℤ
  | .resume t =>
    match (k.state.tasks t).pc with
    | .sleeping .evict => k.state.clock
    | _ => k.swept
  | _ => k.swept

def step (k : Timed) (a : Action) : Option Timed :=
  if k.allows a then
    (Gateway.step k.state a).map fun s' =>
      ⟨s', k.expiresAfter a, k.stampAfter s' a, k.sweptAfter a⟩
  else none

/-- A write has not been tried in vain; as long as there is no reply, no more than `d` has passed
since `last_seen` was set. -/
def arrives (d : ℕ) (k : Timed) (t : ℕ) : Bool :=
  match (k.state.tasks t).inbox with
  | none => k.state.clock ≤ k.stamp t + d
  | some .raised => false
  | some _ => true

/-- Each write reaches Redis at most `d` after `last_seen` was set, stale sweeps begin at most `p`
apart, and no `connect` of a conversation overlaps a `disconnect` of it. -/
structure Timely (d p : ℕ) (k : Timed) : Prop where
  writes : ∀ t < k.state.created, (k.state.tasks t).pc.ttlWrite.isSome → k.arrives d t
  sweeps : k.state.clock ≤ k.swept + p
  apart : ∀ t < k.state.created, ∀ u < k.state.created,
    ∀ c ∈ (k.state.tasks t).pc.connecting, c ∉ (k.state.tasks u).pc.disconnecting

instance (d p : ℕ) : DecidablePred (Timely d p) := fun _ =>
  decidable_of_iff (_ ∧ _ ∧ _)
    ⟨fun h => ⟨h.1, h.2.1, h.2.2⟩, fun h => ⟨h.writes, h.sweeps, h.apart⟩⟩

/-- What the last sweep has found stale has gone from `connections` within `e`. -/
def EvictsWithin (e : ℕ) (k : Timed) : Prop :=
  ∀ x ∈ items k.state.lastSeen, x.1 ∈ k.state.connections →
    STALE_TIMEOUT_SECONDS * 1000000 < k.swept - x.2 → k.state.clock ≤ k.swept + e

instance (e : ℕ) (k : Timed) : Decidable (k.EvictsWithin e) :=
  inferInstanceAs (Decidable (∀ x ∈ _, _ → _ → _))

/-- The `SET` of a socket is under way. -/
def Registering (k : Timed) (c : String) (w : Socket) : Prop :=
  ∃ t < k.state.created, k.state.tasks t = ⟨.registering c w, none⟩

/-- **The property.** Once its `register_connection` is over, a connection has a live key. -/
def Covered (k : Timed) : Prop :=
  ∀ c w, k.state.connections.lookup c = some w → ¬k.Registering c w → k.live c = true

end Timed

/-! ### From one await to the next -/

/-- The sweep called. -/
def After.ofSweep : After → Bool
  | .sweep .. => true
  | _ => false

/-- The sweep is at this await, by itself or in a `disconnect` that it has called. -/
def Pc.ofSweep : Pc → Bool
  | .sleeping _ | .pinging .. => true
  | .unregistering d | .reading d | .offlining d _ | .closing d => d.after.ofSweep
  | _ => false

/-- Nothing that matters here changes. -/
structure Quiet (s s' : State) : Prop where
  connections : s'.connections = s.connections
  lastSeen : s'.lastSeen = s.lastSeen
  registry : s'.registry = s.registry
  clock : s'.clock = s.clock

/-- What becomes of the tables between two awaits: a `connect` or a heartbeat writes them and goes
on to its write of the key, or nothing happens. -/
inductive Tables (s : State) (pc : Pc) (p : State × Then) : Prop
  | quiet (h : Quiet s p.1) (hnext : (p.2.task p.1).pc.ttlWrite = none)
  | stored (c : String) (w : Socket) (hpc : pc = .accepting c w)
      (hp : p = (s.store c w, .await (.registering c w)))
  | heard (c : String) (w : Socket) (v : Json) (hpc : pc = .receiving c w)
      (hp : p = ({ s with lastSeen := setItem s.lastSeen c s.clock }, .await (.refreshing c w v)))

/-- What a task does between two awaits. -/
structure Resumes (s : State) (pc : Pc) (p : State × Then) : Prop where
  tables : Tables s pc p
  sweep : pc.ofSweep = false → (p.2.task p.1).pc.ofSweep = false
  cleanup : ∀ next, p.2 = .await next → ∀ d, next.cleanup = some d → pc.cleanup = some d

section Resume

variable {s s' : State} {pc : Pc}

theorem Quiet.refl (s : State) : Quiet s s := ⟨rfl, rfl, rfl, rfl⟩

theorem Quiet.note (s : State) (incidents : List Incident) : Quiet s (s.note incidents) :=
  ⟨rfl, rfl, rfl, rfl⟩

theorem ofSweep_of_cleanup {d : Cleanup} (h : pc.cleanup = some d) :
    pc.ofSweep = d.after.ofSweep := by
  cases pc with
  | unregistering | reading | offlining | closing =>
    obtain rfl := Option.some.inj h
    rfl
  | _ => cases h

theorem Resumes.await {next : Pc} (h : Quiet s s') (hwrite : next.ttlWrite = none)
    (hsweep : next.ofSweep = false) (hcleanup : next.cleanup = none) :
    Resumes s pc (s', .await next) where
  tables := .quiet h hwrite
  sweep _ := hsweep
  cleanup next' heq d hd := by
    obtain rfl := Then.await.inj heq
    exact absurd (hd.symm.trans hcleanup) (Option.some_ne_none d)

theorem Resumes.disconnect {c : String} {cause : Option Socket} {after : After} (h : Quiet s s')
    (hsweep : pc.ofSweep = false → after.ofSweep = false) :
    Resumes s pc (s', .disconnect c cause after) where
  tables := .quiet h rfl
  sweep := hsweep
  cleanup _ heq := by cases heq

/-- The sweep goes on. -/
theorem Resumes.sweeping {next : Pc} (h : Quiet s s') (hpc : pc.ofSweep = true)
    (hwrite : next.ttlWrite = none) (hcleanup : next.cleanup = none) :
    Resumes s pc (s', .await next) where
  tables := .quiet h hwrite
  sweep hnot := absurd (hpc.symm.trans hnot) (by decide)
  cleanup next' heq d hd := by
    obtain rfl := Then.await.inj heq
    exact absurd (hd.symm.trans hcleanup) (Option.some_ne_none d)

theorem resumes_evict (h : Quiet s s') (hpc : pc.ofSweep = true)
    (list : List (String × Option Socket)) (next : Round) :
    Resumes s pc (s', evict list next) := by
  cases list with
  | nil => exact .sweeping h hpc rfl rfl
  | cons e rest => exact .disconnect h fun hnot => absurd (hpc.symm.trans hnot) (by decide)

theorem resumes_ping (h : Quiet s s') (hpc : pc.ofSweep = true) (list : List (String × Socket))
    (stale : List (String × Option Socket)) : Resumes s pc (s', ping list stale) := by
  cases list with
  | nil => exact resumes_evict h hpc stale .evict
  | cons e rest => exact .sweeping h hpc rfl rfl

theorem resumes_returns {d : Cleanup} (hpc : pc.cleanup = some d) (raised : Bool) :
    Resumes s pc (s.returns d.after raised) := by
  have hsweep := ofSweep_of_cleanup hpc
  cases hafter : d.after with
  | inFinally c w => exact .disconnect (.refl s) fun _ => rfl
  | done => exact .await (.refl s) rfl rfl rfl
  | release lock => exact .await ⟨rfl, rfl, rfl, rfl⟩ rfl rfl rfl
  | sweep rest next =>
    rw [hafter] at hsweep
    cases raised with
    | true => exact .await (.refl s) rfl rfl rfl
    | false => exact resumes_evict (.refl s) hsweep rest next

/-- **From one await to the next.** -/
theorem resumes_proceed (s : State) (pc : Pc) (r : Reply) : Resumes s pc (proceed s pc r) := by
  have hcleanup : ∀ {d : Cleanup} {s' : State} {next : Pc}, Quiet s s' → pc.cleanup = some d →
      next.cleanup = some d → next.ttlWrite = none → Resumes s pc (s', .await next) := by
    intro d s' next hquiet hpc hnext hwrite
    refine ⟨.quiet hquiet hwrite, fun hnot => ?_, fun next' heq d' hd' => ?_⟩
    · have hsweep := ofSweep_of_cleanup hpc
      exact (ofSweep_of_cleanup hnext).trans (hsweep.symm.trans hnot)
    · obtain rfl := Then.await.inj heq
      rw [hpc, ← hnext, hd']
  have hleave : ∀ c w, Resumes s pc (s.leave c w r) := by
    intro c w
    refine .disconnect (.note s _) fun _ => ?_
    split <;> rfl
  have hfinish : ∀ {d : Cleanup}, pc.cleanup = some d → Resumes s pc (s.finish d) := by
    intro d hpc
    rw [State.finish]
    split
    · exact hcleanup ⟨rfl, rfl, rfl, rfl⟩ hpc rfl rfl
    · exact resumes_returns hpc false
  fun_cases proceed s pc r
  case case2 c w =>
    refine ⟨.stored c w rfl rfl, fun _ => rfl, fun next heq d hd => ?_⟩
    obtain rfl := Then.await.inj heq
    cases hd
  case case7 c w v =>
    refine ⟨.heard c w v rfl rfl, fun _ => rfl, fun next heq d hd => ?_⟩
    obtain rfl := Then.await.inj heq
    cases hd
  all_goals first
    | exact .await ⟨rfl, rfl, rfl, rfl⟩ rfl rfl rfl
    | exact .disconnect (.note s _) fun _ => rfl
    | exact hleave _ _
    | exact resumes_ping (.refl s) rfl _ _
    | exact resumes_ping (.note s _) rfl _ _
    | exact resumes_evict (.note s _) rfl _ _
    | exact hcleanup (.refl s) rfl rfl rfl
    | exact hfinish rfl
    | refine resumes_returns ?_ _; rfl

end Resume

/-! ### What the stale sweep has left to do -/

/-- The conversation that a task goes on to disconnect. -/
def Then.evicts : Then → Option String
  | .disconnect c _ _ => some c
  | .await _ => none

/-- The stale sweep will still evict the conversation, or an exception has ended it. -/
def Pc.Owes (c : String) (pc : Pc) : Prop :=
  pc = .finished ∨ ∃ d rest, pc.cleanup = some d ∧ d.after = .sweep rest .ping ∧
    c ∈ rest.map Prod.fst

section Owes

variable {s : State} {c : String}

theorem owes_evict {list : List (String × Option Socket)} (hc : c ∈ list.map Prod.fst)
    (hne : (evict list .ping).evicts ≠ some c) (s : State) :
    ((evict list .ping).task s).pc.Owes c := by
  cases list with
  | nil => cases hc
  | cons e rest =>
    have hrest : c ∈ rest.map Prod.fst := by
      obtain heq | hrest := List.mem_cons.mp hc
      · exact absurd (congrArg some heq.symm) hne
      · exact hrest
    exact Or.inr ⟨⟨e.1, e.2, s.connections.lookup e.1, .sweep rest .ping⟩, rest, rfl, rfl, hrest⟩

/-- One after the other. -/
theorem Pc.Owes.proceed {pc : Pc} (h : pc.Owes c) (r : Reply)
    (hne : (Gateway.proceed s pc r).2.evicts ≠ some c) :
    ((Gateway.proceed s pc r).2.task (Gateway.proceed s pc r).1).pc.Owes c := by
  obtain rfl | ⟨d, rest, hpc, hafter, hc⟩ := h
  · exact Or.inl rfl
  · obtain ⟨s', pc', heq, hpc'⟩ | ⟨raised, heq⟩ := proceed_cleanup hpc r
    · rw [heq]
      exact Or.inr ⟨d, rest, hpc', hafter, hc⟩
    · rw [heq, hafter] at hne ⊢
      cases raised with
      | true => exact Or.inl rfl
      | false => exact owes_evict hc hne s

/-- A `disconnect` that is at work has been so, or begins. -/
theorem Resumes.disconnecting {pc : Pc} {p : State × Then} (h : Resumes s pc p)
    (hne : p.2.evicts ≠ some c) (hc : (p.2.task p.1).pc.disconnecting = some c) :
    pc.disconnecting = some c := by
  obtain ⟨s', next⟩ := p
  cases next with
  | await next =>
    obtain ⟨d, hd, hdc⟩ := Option.map_eq_some_iff.mp hc
    exact Option.map_eq_some_iff.mpr ⟨d, h.cleanup next rfl d hd, hdc⟩
  | disconnect c' cause after => exact absurd hc hne

/-- A connection that is still there has not been disconnected. -/
theorem lookup_perform {t : ℕ} {next : Then} {w : Socket}
    (h : (s.perform t next).connections.lookup c = some w) :
    next.evicts ≠ some c ∧ s.connections.lookup c = some w ∧
      (s.perform t next).lastSeen.lookup c = s.lastSeen.lookup c := by
  cases next with
  | await pc => exact ⟨Option.some_ne_none c ∘ Eq.symm, h, rfl⟩
  | disconnect c' cause after =>
    have hne : c ≠ c' := by
      rintro rfl
      exact absurd (h.symm.trans (AList.lookup_erase ..)) (Option.some_ne_none w)
    refine ⟨fun heq => hne (Option.some.inj heq).symm, ?_, AList.lookup_erase_ne hne⟩
    exact (AList.lookup_erase_ne hne).symm.trans h

end Owes

/-! ### A connection as a lease -/

namespace Timed

/-- The times of `last_seen` whose writes are under way. -/
def pending (k : Timed) (c : String) : Set ℤ :=
  {stamp | ∃ t < k.state.created, (k.state.tasks t).pc.ttlWrite = some c ∧
    (k.state.tasks t).inbox = none ∧ k.stamp t = stamp}

/-- The holder is the client, the lease its key, and the overseer the stale sweep. -/
def tenancy (k : Timed) (c : String) (seen : ℤ) : Lease.Tenancy where
  clock := k.state.clock
  seen := seen
  pending := k.pending c
  expires := k.expires c
  looked := k.swept
  condemned :=
    STALE_TIMEOUT_SECONDS * 1000000 < k.swept - seen ∧ (k.state.tasks 0).pc.Owes c

/-- The bounds, if their sum is small enough. -/
def terms (d p e : ℕ)
    (h : STALE_TIMEOUT_SECONDS * 1000000 + p + e + d < TTL_SECONDS * 1000000) : Lease.Terms where
  ttl := TTL_SECONDS * 1000000
  patience := STALE_TIMEOUT_SECONDS * 1000000
  period := p
  grace := e
  delay := d
  patience_nonneg := by decide
  grace_nonneg := Int.natCast_nonneg e
  delay_nonneg := Int.natCast_nonneg d
  sufficient := h

/-- What is due to a connection has happened. -/
def Punctual (τ : Lease.Terms) (k : Timed) : Prop :=
  ∀ c w seen, k.state.connections.lookup c = some w → k.state.lastSeen.lookup c = some seen →
    Lease.Punctual τ (k.tenancy c seen)

/-- A connection that was last seen at some time. Its `SET` is under way, or its key is there. -/
structure Held (τ : Lease.Terms) (k : Timed) (c : String) (w : Socket) (seen : ℤ) : Prop where
  lastSeen : k.state.lastSeen.lookup c = some seen
  watched : Lease.Watched τ (k.tenancy c seen)
  kept : k.Registering c w ∨
    (k.state.registry c).isSome = true ∧ Lease.Renewed τ (k.tenancy c seen)

/-- What is true at any time. -/
structure Sound (τ : Lease.Terms) (k : Timed) : Prop where
  idle : ∀ t, k.state.created ≤ t → k.state.tasks t = ⟨.finished, none⟩
  started : 0 < k.state.created
  sweeper : ∀ t ≠ 0, (k.state.tasks t).pc.ofSweep = false
  swept_le : k.swept ≤ k.state.clock
  /-- Nobody is connected while a `disconnect` is at work. -/
  closed : ∀ t, ∀ c ∈ (k.state.tasks t).pc.disconnecting, k.state.connections.lookup c = none
  held : ∀ c w, k.state.connections.lookup c = some w → ∃ seen, k.Held τ c w seen

section Step

variable {τ : Lease.Terms} {d p e : ℕ} {k k' : Timed} {a : Action} {c : String} {w : Socket}
  {seen : ℤ}

theorem step_eq_some_iff : k.step a = some k' ↔ k.allows a = true ∧
    ∃ s', Gateway.step k.state a = some s' ∧
      ⟨s', k.expiresAfter a, k.stampAfter s' a, k.sweptAfter a⟩ = k' := by
  rw [step, Option.ite_none_right_eq_some, Option.map_eq_some_iff]

/-- The bounds are those of a lease. -/
theorem Timely.punctual {h} (ht : k.Timely d p) (he : k.EvictsWithin e) :
    k.Punctual (terms d p e h) := by
  intro c w seen hc hseen
  refine ⟨?_, ht.sweeps, fun hcondemned => ?_⟩
  · rintro stamp ⟨t, hlt, hwrite, hinbox, rfl⟩
    have harrives := ht.writes t hlt (by rw [hwrite]; rfl)
    rw [arrives, hinbox] at harrives
    exact of_decide_eq_true harrives
  · have hmem : c ∈ k.state.connections := AList.lookup_isSome.mp (by rw [hc]; rfl)
    exact he (c, seen) (mem_items_iff.mpr hseen) hmem hcondemned.1

/-- A key that is there and has been renewed is live. -/
theorem live_of_renewed (hpresent : (k.state.registry c).isSome = true)
    (hrenewed : Lease.Renewed τ (k.tenancy c seen)) (hw : Lease.Watched τ (k.tenancy c seen))
    (hp : Lease.Punctual τ (k.tenancy c seen)) : k.live c = true := by
  rw [Timed.live, hpresent]
  exact decide_eq_true (hrenewed.lt_expires hw hp)

theorem isSome_of_live (h : k.live c = true) : (k.state.registry c).isSome = true :=
  (Bool.and_eq_true_iff.mp h).1

theorem Held.live (h : k.Held τ c w seen) (hp : Lease.Punctual τ (k.tenancy c seen))
    (hnot : ¬k.Registering c w) : k.live c = true := by
  obtain ⟨hpresent, hrenewed⟩ := h.kept.resolve_left hnot
  exact live_of_renewed hpresent hrenewed h.watched hp

/-- A task that waits for its write waits until there is a reply. -/
theorem task_of_waiting {s s' : State} {t : ℕ} (ht : t < s.created)
    (hwrite : (s.tasks t).pc.ttlWrite = some c) (hinbox : (s.tasks t).inbox = none)
    (hs : Gateway.step s a = some s') (ha : ∀ r, a ≠ .answer t r) :
    a ≠ .resume t ∧ s'.tasks t = s.tasks t := by
  have hresume : a ≠ .resume t := by
    rintro rfl
    obtain ⟨r, hr, -⟩ := task_resume hs
    obtain hr | ⟨c', w, lock, hpc⟩ := inbox_of_wakes hr
    · exact absurd (hr.symm.trans hinbox) (Option.some_ne_none r)
    · rw [hpc] at hwrite
      cases hwrite
  exact ⟨hresume, task_step_eq (Or.inl ht) hresume ha hs⟩

theorem Sound.idle_step (h : k.Sound τ) (hs : k.step a = some k') (t : ℕ)
    (ht : k'.state.created ≤ t) : k'.state.tasks t = ⟨.finished, none⟩ := by
  obtain ⟨-, s', hstep, rfl⟩ := step_eq_some_iff.mp hs
  exact idle_of_step h.idle hstep ht

theorem Sound.lt_created (h : k.Sound τ) (hs : k.step a = some k') {t : ℕ}
    (hne : k'.state.tasks t ≠ ⟨.finished, none⟩) : t < k'.state.created :=
  lt_of_not_ge fun hge => hne (h.idle_step hs t hge)

/-- A task that is new is no cleanup and no sweep. -/
theorem Sound.task_of_new (h : k.Sound τ) (hs : k.step a = some k') {t : ℕ}
    (ht : k.state.created ≤ t) : (k'.state.tasks t).pc.cleanup = none ∧
      (k'.state.tasks t).pc.ofSweep = false := by
  by_cases hnew : k'.state.created ≤ t
  · rw [h.idle_step hs t hnew]
    exact ⟨rfl, rfl⟩
  · obtain ⟨-, s', hstep, rfl⟩ := step_eq_some_iff.mp hs
    obtain hcreated | hspawned := spawned_of_step hstep
    · exact absurd (hcreated.le.trans ht) hnew
    · have hnext := hspawned.created
      have hsocket := hspawned.socket
      obtain rfl : t = k.state.created := by
        simp only [not_le] at hnew
        omega
      cases hpc : (s'.tasks k.state.created).pc with
      | superseding | accepting | locking | sending => exact ⟨rfl, rfl⟩
      | _ =>
        rw [hpc] at hsocket
        cases hsocket

/-- A write that is under way stays so until there is a reply. -/
theorem pending_subset (hs : k.step a = some k')
    (ha : ∀ t r, (k.state.tasks t).pc.ttlWrite = some c → a ≠ .answer t r) :
    k.pending c ⊆ k'.pending c := by
  obtain ⟨-, s', hstep, rfl⟩ := step_eq_some_iff.mp hs
  rintro stamp ⟨t, hlt, hwrite, hinbox, rfl⟩
  obtain ⟨hresume, htask⟩ := task_of_waiting hlt hwrite hinbox hstep fun r => ha t r hwrite
  refine ⟨t, hlt.trans_le (created_le_of_step hstep), ?_, ?_, ?_⟩
  · rw [htask, hwrite]
  · rw [htask, hinbox]
  · cases a with
    | resume u =>
      have hne : t ≠ u := fun heq => hresume (by rw [heq])
      simp only [stampAfter]
      split
      · exact Function.update_of_ne hne _ _
      · rfl
    | _ => rfl

theorem registering_of_step (hs : k.step a = some k')
    (ha : ∀ t r, (k.state.tasks t).pc = .registering c w → a ≠ .answer t r)
    (hreg : k.Registering c w) : k'.Registering c w := by
  obtain ⟨-, s', hstep, rfl⟩ := step_eq_some_iff.mp hs
  obtain ⟨t, hlt, htask⟩ := hreg
  have hwrite : (k.state.tasks t).pc.ttlWrite = some c := by rw [htask]; rfl
  obtain ⟨-, htask'⟩ := task_of_waiting hlt hwrite (by rw [htask]) hstep
    fun r => ha t r (by rw [htask])
  exact ⟨t, hlt.trans_le (created_le_of_step hstep), htask'.trans htask⟩

/-- So does what the sweep owes. -/
theorem Sound.owes (h : k.Sound τ) (hs : k.step a = some k')
    (hc : k'.state.connections.lookup c = some w) (howes : (k.state.tasks 0).pc.Owes c) :
    (k'.state.tasks 0).pc.Owes c := by
  obtain ⟨-, s', hstep, rfl⟩ := step_eq_some_iff.mp hs
  by_cases hresume : a = .resume 0
  · subst hresume
    obtain ⟨r, -, rfl⟩ := Option.map_eq_some_iff.mp hstep
    rw [perform_tasks, Function.update_self]
    exact howes.proceed r (lookup_perform hc).1
  · rwa [pc_step_of_ne h.started hresume hstep]

/-- **A connection that a step leaves alone.** -/
theorem Held.carry (hheld : k.Held τ c w seen) (h : k.Sound τ) (hs : k.step a = some k')
    (hp : Lease.Punctual τ (k.tenancy c seen))
    (ha : ∀ t r, (k.state.tasks t).pc.ttlWrite = some c → a ≠ .answer t r)
    (hc : k'.state.connections.lookup c = some w)
    (hseen : k'.state.lastSeen.lookup c = k.state.lastSeen.lookup c)
    (hkey : k.live c = true → (k'.state.registry c).isSome = true)
    (hexpires : k'.expires c = k.expires c) (hswept : k'.swept = k.swept)
    (hclock : k.state.clock ≤ k'.state.clock) : k'.Held τ c w seen where
  lastSeen := hseen.trans hheld.lastSeen
  watched := hheld.watched.mono hclock rfl hswept fun hcondemned =>
    ⟨by rw [hswept]; exact hcondemned.1, h.owes hs hc hcondemned.2⟩
  kept := by
    obtain hreg | ⟨hpresent, hrenewed⟩ := hheld.kept
    · exact Or.inl (registering_of_step hs (fun t r hpc => ha t r (by rw [hpc]; rfl)) hreg)
    · have hlive := live_of_renewed hpresent hrenewed hheld.watched hp
      exact Or.inr ⟨hkey hlive, hrenewed.mono rfl (pending_subset hs ha) hexpires⟩

/-! ### Answers -/

/-- A call leaves the key of a conversation alone, unless it writes or deletes it. -/
theorem registry_settle {s : State} {pc : Pc} (hwrite : pc.ttlWrite ≠ some c)
    (hdelete : pc.disconnecting ≠ some c) (r : Reply) :
    (s.settle pc r).registry c = s.registry c := by
  have heffect : (s.effect pc).registry c = s.registry c := by
    cases pc with
    | registering c' w =>
      exact Function.update_of_ne (fun heq => hwrite (congrArg some heq.symm)) _ _
    | unregistering d =>
      exact Function.update_of_ne (fun heq => hdelete (congrArg some heq.symm)) _ _
    | _ => rfl
  cases r with
  | done | lost => exact heffect
  | _ => rfl

theorem clock_settle (s : State) (pc : Pc) (r : Reply) : (s.settle pc r).clock = s.clock := by
  have heffect : (s.effect pc).clock = s.clock := by cases pc <;> rfl
  cases r with
  | done | lost => exact heffect
  | _ => rfl

theorem written_of_ne {pc : Pc} (hwrite : pc.ttlWrite ≠ some c) :
    k.written pc c = k.expires c := by
  cases pc with
  | registering c' w =>
    exact Function.update_of_ne (fun heq => hwrite (congrArg some heq.symm)) _ _
  | refreshing c' w v =>
    rw [written]
    split
    · exact Function.update_of_ne (fun heq => hwrite (congrArg some heq.symm)) _ _
    · rfl
  | _ => rfl

theorem settle_of_takesEffect {r : Reply} (hr : r.takesEffect = true) (s : State) (pc : Pc) :
    s.settle pc r = s.effect pc := by
  cases r with
  | done | lost => rfl
  | _ => cases hr

/-- What an answer does. -/
structure Answered (k : Timed) (t : ℕ) (r : Reply) (k' : Timed) : Prop where
  inbox : (k.state.tasks t).inbox = none
  admits : (k.state.tasks t).pc.admits r = true
  connections : k'.state.connections = k.state.connections
  lastSeen : k'.state.lastSeen = k.state.lastSeen
  registry : k'.state.registry = (k.state.settle (k.state.tasks t).pc r).registry
  clock : k'.state.clock = k.state.clock
  expires : k'.expires = if r.takesEffect then k.written (k.state.tasks t).pc else k.expires
  swept : k'.swept = k.swept
  task : k'.state.tasks t =
    ⟨(k.state.tasks t).pc, some (k.state.reply (k.state.tasks t).pc r)⟩
  pc : ∀ u, (k'.state.tasks u).pc = (k.state.tasks u).pc

theorem answered_of_step {t : ℕ} {r : Reply} (hs : k.step (.answer t r) = some k') :
    k.Answered t r k' := by
  obtain ⟨-, s', hstep, rfl⟩ := step_eq_some_iff.mp hs
  obtain ⟨hinbox, hadmits, htask⟩ := task_answer hstep
  obtain ⟨-, rfl⟩ := answer_eq_some_iff.mp hstep
  have htables := sameTables_settle k.state (k.state.tasks t).pc r
  refine ⟨hinbox, hadmits, htables.connections, htables.lastSeen, rfl, clock_settle .., rfl, rfl,
    htask, fun u => ?_⟩
  by_cases hu : u = t
  · subst hu
    rw [htask]
  · exact congrArg Task.pc (Function.update_of_ne hu _ _)

/-- **A write of the key reaches Redis.** -/
theorem Held.answer_write (hheld : k.Held τ c w seen) (h : k.Sound τ) {t : ℕ} {r : Reply}
    (hs : k.step (.answer t r) = some k') (hp : Lease.Punctual τ (k.tenancy c seen))
    (hc : k'.state.connections.lookup c = some w)
    (hwrite : (k.state.tasks t).pc.ttlWrite = some c) (hr : r.takesEffect = true)
    (httl : τ.ttl = TTL_SECONDS * 1000000) : k'.Held τ c w seen := by
  have ha := answered_of_step hs
  refine ⟨by rw [ha.lastSeen]; exact hheld.lastSeen, hheld.watched.mono ha.clock.ge rfl ha.swept
    fun hcond => ⟨by rw [ha.swept]; exact hcond.1, h.owes hs hc hcond.2⟩, ?_⟩
  have hregistry := ha.registry
  have hexpires := ha.expires
  rw [settle_of_takesEffect hr] at hregistry
  rw [if_pos hr] at hexpires
  cases hpc : (k.state.tasks t).pc with
  | registering c' w' =>
    rw [hpc] at hwrite hregistry hexpires
    obtain rfl : c' = c := Option.some.inj hwrite
    refine Or.inr ⟨?_, .renew hheld.watched rfl ?_⟩
    · simp [hregistry, State.effect]
    · simp [tenancy, hexpires, written, httl]
  | refreshing c' w' v =>
    rw [hpc] at hwrite hregistry hexpires
    obtain rfl : c' = c := Option.some.inj hwrite
    obtain hkept | ⟨hpresent, hrenewed⟩ := hheld.kept
    · refine Or.inl (registering_of_step hs (fun u r' hu heq => ?_) hkept)
      obtain ⟨rfl, -⟩ := Action.answer.inj heq
      rw [hpc] at hu
      cases hu
    · have hlive := live_of_renewed hpresent hrenewed hheld.watched hp
      refine Or.inr ⟨?_, .renew hheld.watched rfl ?_⟩
      · rw [hregistry]
        exact hpresent
      · simp [tenancy, hexpires, written, httl, hlive]
  | _ =>
    rw [hpc] at hwrite
    cases hwrite

/-- A write does not fail, if it is to reach Redis. -/
theorem Timely.takesEffect {t : ℕ} {r : Reply} (ht' : k'.Timely d p) (ha : k.Answered t r k')
    (hlt : t < k'.state.created) (hwrite : (k.state.tasks t).pc.ttlWrite = some c) :
    r.takesEffect = true := by
  have harrives := ht'.writes t hlt (by rw [ha.pc, hwrite]; rfl)
  have hreply : k.state.reply (k.state.tasks t).pc r = r := by
    cases hpc : (k.state.tasks t).pc with
    | registering | refreshing => rfl
    | _ =>
      rw [hpc] at hwrite
      cases hwrite
  have hadmits := ha.admits
  rw [arrives, ha.task, hreply] at harrives
  cases hpc : (k.state.tasks t).pc with
  | registering | refreshing =>
    rw [hpc] at hadmits
    cases r with
    | done | lost => rfl
    | raised => cases harrives
    | _ => cases hadmits
  | _ =>
    rw [hpc] at hwrite
    cases hwrite

theorem Sound.answer (h : k.Sound τ) {t : ℕ} {r : Reply} (hs : k.step (.answer t r) = some k')
    (hp : k.Punctual τ) (ht' : k'.Timely d p)
    (httl : τ.ttl = TTL_SECONDS * 1000000) : k'.Sound τ := by
  have ha := answered_of_step hs
  obtain ⟨-, s', hstep, heq⟩ := step_eq_some_iff.mp hs
  have hcreated : k'.state.created = k.state.created := by
    rw [← heq, (answer_eq_some_iff.mp hstep).2]
    exact (sameTables_settle ..).created
  have hlt : t < k.state.created := by
    by_contra hge
    have hadmits := ha.admits
    rw [h.idle t (not_lt.mp hge)] at hadmits
    cases r <;> cases hadmits
  refine ⟨fun u hu => ?_, hcreated ▸ h.started, fun u hu => ?_, ?_, fun u c hu => ?_,
    fun c w hc => ?_⟩
  · exact h.idle_step hs u hu
  · rw [ha.pc]
    exact h.sweeper u hu
  · rw [ha.swept, ha.clock]
    exact h.swept_le
  · rw [ha.pc] at hu
    rw [ha.connections]
    exact h.closed u c hu
  · have hc' := hc
    rw [ha.connections] at hc'
    obtain ⟨seen, hheld⟩ := h.held c w hc'
    have hpunctual := hp c w seen hc' hheld.lastSeen
    refine ⟨seen, ?_⟩
    by_cases hwrite : (k.state.tasks t).pc.ttlWrite = some c
    · exact hheld.answer_write h hs hpunctual hc hwrite
        (ht'.takesEffect ha (hcreated ▸ hlt) hwrite) httl
    · have hdelete : (k.state.tasks t).pc.disconnecting ≠ some c := fun hd =>
        absurd (hc'.symm.trans (h.closed t c hd)) (Option.some_ne_none w)
      refine hheld.carry h hs hpunctual (fun u r' hu heq => ?_) hc (by rw [ha.lastSeen])
        (fun hlive => ?_) ?_ ha.swept ha.clock.ge
      · obtain ⟨rfl, -⟩ := Action.answer.inj heq
        exact hwrite hu
      · rw [ha.registry, registry_settle hwrite hdelete]
        exact isSome_of_live hlive
      · rw [ha.expires]
        split
        · exact written_of_ne hwrite
        · rfl

/-! ### A task that goes on -/

/-- What a task does that is resumed. -/
structure Resumed (k : Timed) (t : ℕ) (r : Reply) (k' : Timed) : Prop where
  wakes : k.state.wakes t = some r
  state : k'.state = (proceed k.state (k.state.tasks t).pc r).1.perform t
    (proceed k.state (k.state.tasks t).pc r).2
  registry : k'.state.registry = k.state.registry
  clock : k'.state.clock = k.state.clock
  expires : k'.expires = k.expires
  stamp : (k'.state.tasks t).pc.ttlWrite.isSome = true → k'.stamp t = k.state.clock
  swept : (k.state.tasks t).pc = .sleeping .evict ∧ k'.swept = k.state.clock ∨
    (k.state.tasks t).pc ≠ .sleeping .evict ∧ k'.swept = k.swept

theorem resumed_of_step {t : ℕ} (hs : k.step (.resume t) = some k') :
    ∃ r, k.Resumed t r k' := by
  obtain ⟨-, s', hstep, rfl⟩ := step_eq_some_iff.mp hs
  obtain ⟨r, hr, rfl⟩ := Option.map_eq_some_iff.mp hstep
  have htables := (resumes_proceed k.state (k.state.tasks t).pc r).tables
  have hsame : ∀ (pc : Pc) (p : State × Then), Tables k.state pc p →
      (p.1.perform t p.2).registry = k.state.registry ∧
        (p.1.perform t p.2).clock = k.state.clock := by
    rintro pc ⟨s, next⟩ h
    have hnext : (s.perform t next).registry = s.registry ∧ (s.perform t next).clock = s.clock := by
      cases next <;> exact ⟨rfl, rfl⟩
    cases h with
    | quiet h => exact ⟨hnext.1.trans h.registry, hnext.2.trans h.clock⟩
    | stored c w hpc hp | heard c w v hpc hp =>
      cases hp
      exact hnext
  refine ⟨r, hr, rfl, (hsame _ _ htables).1, (hsame _ _ htables).2, rfl, fun hwrite => ?_, ?_⟩
  · simp only [stampAfter]
    rw [if_pos hwrite, Function.update_self]
  · simp only [sweptAfter]
    split
    · next heq => exact Or.inl ⟨heq, rfl⟩
    · next hne => exact Or.inr ⟨hne, rfl⟩

/-- A task that sleeps before the stale sweep owes nothing. -/
theorem not_owes_sleeping (next : Round) : ¬Pc.Owes c (.sleeping next) := by
  rintro (h | ⟨d, rest, h, -⟩)
  · cases h
  · cases h

/-- **The stale sweep** has found the conversation stale and will evict it, or it has been seen. -/
theorem Held.swept (hheld : k.Held τ c w seen) (h : k.Sound τ) {t : ℕ}
    (hs : k.step (.resume t) = some k') (hp : Lease.Punctual τ (k.tenancy c seen))
    (hc : k'.state.connections.lookup c = some w) (hpc : (k.state.tasks t).pc = .sleeping .evict)
    (hpatience : τ.patience = STALE_TIMEOUT_SECONDS * 1000000) : k'.Held τ c w seen := by
  obtain ⟨r, hr⟩ := resumed_of_step hs
  obtain rfl : t = 0 := by
    by_contra ht
    have hsweeper := h.sweeper t ht
    rw [hpc] at hsweeper
    cases hsweeper
  have hswept : k'.swept = k.state.clock := by
    obtain ⟨-, hswept⟩ | ⟨hne, -⟩ := hr.swept
    · exact hswept
    · exact absurd hpc hne
  have hstate := hr.state
  rw [hpc, proceed] at hstate
  rw [hstate] at hc
  obtain ⟨hne, -, hseen⟩ := lookup_perform hc
  rw [← hstate] at hseen
  refine ⟨hseen.trans hheld.lastSeen,
    hheld.watched.look hp ?_ hr.clock rfl hswept fun hsilent => ?_, ?_⟩
  · rintro ⟨-, howes⟩
    rw [hpc] at howes
    exact not_owes_sleeping _ howes
  · rw [hpatience] at hsilent
    have hstale : c ∈ k.state.verdicts.map Prod.fst := by
      simp only [State.verdicts, List.map_map, Function.comp_def, List.map_id']
      exact mem_getStaleConnections.mpr ⟨seen, hheld.lastSeen, hsilent⟩
    refine ⟨by rw [hswept]; exact hsilent, ?_⟩
    rw [hstate, perform_tasks, Function.update_self]
    exact owes_evict hstale hne _
  · obtain hreg | ⟨hpresent, hrenewed⟩ := hheld.kept
    · exact Or.inl (registering_of_step hs (fun _ _ _ heq => by cases heq) hreg)
    · have hpending := pending_subset (c := c) hs fun _ _ _ heq => by cases heq
      exact Or.inr ⟨hr.registry ▸ hpresent, hrenewed.mono rfl hpending (congrFun hr.expires c)⟩

section Resume

variable {t : ℕ} {r : Reply}

theorem Resumed.task (hr : k.Resumed t r k') : k'.state.tasks t =
    (proceed k.state (k.state.tasks t).pc r).2.task (proceed k.state (k.state.tasks t).pc r).1 := by
  rw [hr.state, perform_tasks, Function.update_self]

theorem Resumed.task_of_ne (hr : k.Resumed t r k') {u : ℕ} (hu : u ≠ t) :
    k'.state.tasks u = k.state.tasks u := by
  rw [hr.state, perform_tasks, Function.update_of_ne hu, (proceed_tasks ..).1]

/-- What is in the tables after it, and has not been disconnected. -/
theorem Resumed.lookup (hr : k.Resumed t r k') (hc : k'.state.connections.lookup c = some w) :
    (proceed k.state (k.state.tasks t).pc r).2.evicts ≠ some c ∧
      (proceed k.state (k.state.tasks t).pc r).1.connections.lookup c = some w ∧
      k'.state.lastSeen.lookup c =
        (proceed k.state (k.state.tasks t).pc r).1.lastSeen.lookup c := by
  rw [hr.state] at hc ⊢
  exact lookup_perform hc

theorem Resumed.swept_le (hr : k.Resumed t r k') (h : k.Sound τ) :
    k'.swept ≤ k'.state.clock := by
  rw [hr.clock]
  obtain ⟨-, hswept⟩ | ⟨-, hswept⟩ := hr.swept
  · exact hswept.le
  · exact hswept.le.trans h.swept_le

/-- A connection that the task leaves alone. -/
theorem Sound.carry_resume (h : k.Sound τ) (hr : k.Resumed t r k')
    (hs : k.step (.resume t) = some k') (hp : k.Punctual τ)
    (hpatience : τ.patience = STALE_TIMEOUT_SECONDS * 1000000)
    (hc : k'.state.connections.lookup c = some w)
    (hconn : k.state.connections.lookup c = some w)
    (hseen : k'.state.lastSeen.lookup c = k.state.lastSeen.lookup c) :
    ∃ seen, k'.Held τ c w seen := by
  obtain ⟨seen, hheld⟩ := h.held c w hconn
  have hpunctual := hp c w seen hconn hheld.lastSeen
  obtain ⟨hpc, -⟩ | ⟨-, hswept⟩ := hr.swept
  · exact ⟨seen, hheld.swept h hs hpunctual hc hpc hpatience⟩
  · refine ⟨seen, hheld.carry h hs hpunctual (fun _ _ _ heq => by cases heq) hc hseen
      (fun hlive => ?_) (congrFun hr.expires c) hswept hr.clock.ge⟩
    rw [hr.registry]
    exact isSome_of_live hlive

/-- **A heartbeat**: its refresh is under way. -/
theorem Held.heartbeat (hheld : k.Held τ c w seen) (h : k.Sound τ) (hr : k.Resumed t r k')
    (hs : k.step (.resume t) = some k') (hp : Lease.Punctual τ (k.tenancy c seen))
    (hlooked : k'.swept ≤ k'.state.clock) {v : Json} {w' : Socket}
    (hseen : k'.state.lastSeen.lookup c = some k.state.clock)
    (htask : k'.state.tasks t = ⟨.refreshing c w' v, none⟩) :
    k'.Held τ c w k.state.clock := by
  refine ⟨hseen, .touch hr.clock.symm hlooked, ?_⟩
  obtain hreg | ⟨hpresent, hrenewed⟩ := hheld.kept
  · exact Or.inl (registering_of_step hs (fun _ _ _ heq => by cases heq) hreg)
  · have hlt := h.lt_created hs (by rw [htask]; simp)
    have hnew : k.state.clock ∈ k'.pending c :=
      ⟨t, hlt, by rw [htask]; rfl, by rw [htask], hr.stamp (by rw [htask]; rfl)⟩
    have hpending := pending_subset (c := c) hs fun _ _ _ heq => by cases heq
    exact Or.inr ⟨hr.registry ▸ hpresent, hrenewed.touch hheld.watched hp
      (Set.insert_subset hnew hpending) (congrFun hr.expires c)⟩

/-- The connections after it. -/
theorem Sound.held_resume (h : k.Sound τ) (hr : k.Resumed t r k')
    (hs : k.step (.resume t) = some k') (hp : k.Punctual τ)
    (hpatience : τ.patience = STALE_TIMEOUT_SECONDS * 1000000)
    (hc : k'.state.connections.lookup c = some w) : ∃ seen, k'.Held τ c w seen := by
  obtain ⟨-, hconn, hseen⟩ := hr.lookup hc
  have hlooked := hr.swept_le h
  have htask := hr.task
  cases (resumes_proceed k.state (k.state.tasks t).pc r).tables with
  | quiet hquiet =>
    rw [hquiet.connections] at hconn
    rw [hquiet.lastSeen] at hseen
    exact h.carry_resume hr hs hp hpatience hc hconn hseen
  | stored c' w' hpc heq =>
    rw [heq, State.store, lookup_setItem] at hconn hseen
    split at hconn
    · next hcc =>
      subst hcc
      obtain rfl := Option.some.inj hconn
      rw [if_pos rfl] at hseen
      rw [heq] at htask
      have hlt := h.lt_created hs (by rw [htask]; simp [Then.task])
      exact ⟨k.state.clock, hseen, .touch hr.clock.symm hlooked, Or.inl ⟨t, hlt, htask⟩⟩
    · next hcc =>
      rw [if_neg hcc] at hseen
      exact h.carry_resume hr hs hp hpatience hc hconn hseen
  | heard c' w' v hpc heq =>
    rw [heq] at hconn
    rw [heq, lookup_setItem] at hseen
    split at hseen
    · next hcc =>
      subst hcc
      obtain ⟨seen, hheld⟩ := h.held c w hconn
      have hpunctual := hp c w seen hconn hheld.lastSeen
      rw [heq] at htask
      exact ⟨k.state.clock, hheld.heartbeat h hr hs hpunctual hlooked hseen htask⟩
    · exact h.carry_resume hr hs hp hpatience hc hconn hseen

/-- Nobody is connected while a `disconnect` is at work, since no `connect` overlaps it. -/
theorem Sound.closed_resume (h : k.Sound τ) (hr : k.Resumed t r k') (ht : k.Timely d p) {u : ℕ}
    (hu : (k'.state.tasks u).pc.disconnecting = some c) :
    k'.state.connections.lookup c = none := by
  by_contra hsome
  obtain ⟨w, hc⟩ := Option.ne_none_iff_exists'.mp hsome
  obtain ⟨hne, hconn, -⟩ := hr.lookup hc
  have hlt : ∀ u, (k.state.tasks u).pc ≠ .finished → u < k.state.created := by
    refine fun u hpc => lt_of_not_ge fun hge => hpc ?_
    rw [h.idle u hge]
  -- the `disconnect` has been at work before
  obtain ⟨u, hu⟩ : ∃ u, (k.state.tasks u).pc.disconnecting = some c := by
    by_cases hut : u = t
    · subst hut
      rw [hr.task] at hu
      exact ⟨u, (resumes_proceed ..).disconnecting hne hu⟩
    · exact ⟨u, by rw [← hr.task_of_ne hut]; exact hu⟩
  have hnone := h.closed u c hu
  cases (resumes_proceed k.state (k.state.tasks t).pc r).tables with
  | quiet hquiet =>
    rw [hquiet.connections, hnone] at hconn
    cases hconn
  | stored c' w' hpc heq =>
    rw [heq, State.store, lookup_setItem] at hconn
    split at hconn
    · next hcc =>
      subst hcc
      refine ht.apart t (hlt t ?_) u (hlt u ?_) c (by rw [hpc]; rfl) hu
      · rw [hpc]
        exact Pc.noConfusion
      · intro hfin
        rw [hfin] at hu
        cases hu
    · rw [hnone] at hconn
      cases hconn
  | heard c' w' v hpc heq =>
    rw [heq, hnone] at hconn
    cases hconn

theorem Sound.resume (h : k.Sound τ) (hs : k.step (.resume t) = some k') (hp : k.Punctual τ)
    (ht : k.Timely d p)
    (hpatience : τ.patience = STALE_TIMEOUT_SECONDS * 1000000) : k'.Sound τ := by
  obtain ⟨r, hr⟩ := resumed_of_step hs
  obtain ⟨-, s', hstep, heq⟩ := step_eq_some_iff.mp hs
  refine ⟨h.idle_step hs, ?_, fun u hu => ?_, hr.swept_le h,
    fun u c hu => h.closed_resume hr ht hu, fun c w hc => h.held_resume hr hs hp hpatience hc⟩
  · rw [← heq]
    exact h.started.trans_le (created_le_of_step hstep)
  · by_cases hut : u = t
    · subst hut
      rw [hr.task]
      exact (resumes_proceed ..).sweep (h.sweeper u hu)
    · rw [hr.task_of_ne hut]
      exact h.sweeper u hu

end Resume

/-! ### Everything else -/

/-- What the steps do that are none of a task. -/
structure Frame (k k' : Timed) : Prop where
  expires : k'.expires = k.expires
  swept : k'.swept = k.swept
  clock : k.state.clock ≤ k'.state.clock
  lookup : ∀ c w, k'.state.connections.lookup c = some w →
    k.state.connections.lookup c = some w ∧
      k'.state.lastSeen.lookup c = k.state.lastSeen.lookup c
  live : ∀ c, k.live c = true → (k'.state.registry c).isSome = true

theorem frame_of_step (hs : k.step a = some k') (hanswer : ∀ t r, a ≠ .answer t r)
    (hresume : ∀ t, a ≠ .resume t) : Frame k k' := by
  obtain ⟨hallows, s', hstep, rfl⟩ := step_eq_some_iff.mp hs
  cases a with
  | connect c =>
    obtain rfl := Option.some.inj hstep
    rw [State.connect]
    split
    · exact ⟨rfl, rfl, le_rfl, fun _ _ hc => ⟨hc, rfl⟩, fun _ => isSome_of_live⟩
    · refine ⟨rfl, rfl, le_rfl, fun c' w hc => ⟨lookup_of_lookup_forget hc, ?_⟩,
        fun _ => isSome_of_live⟩
      have hne : c' ≠ c := by
        rintro rfl
        exact absurd (hc.symm.trans (AList.lookup_erase ..)) (Option.some_ne_none w)
      exact AList.lookup_erase_ne hne
  | sendMessage c =>
    obtain rfl := Option.some.inj hstep
    rw [State.sendMessage]
    split
    · split
      all_goals exact ⟨rfl, rfl, le_rfl, fun _ _ hc => ⟨hc, rfl⟩, fun _ => isSome_of_live⟩
    · exact ⟨rfl, rfl, le_rfl, fun _ _ hc => ⟨hc, rfl⟩, fun _ => isSome_of_live⟩
  | answer t r => exact absurd rfl (hanswer t r)
  | resume t => exact absurd rfl (hresume t)
  | clock now =>
    obtain rfl := Option.some.inj hstep
    exact ⟨rfl, rfl, of_decide_eq_true hallows, fun _ _ hc => ⟨hc, rfl⟩, fun _ => isSome_of_live⟩
  | expire c =>
    obtain rfl := Option.some.inj hstep
    refine ⟨rfl, rfl, le_rfl, fun _ _ hc => ⟨hc, rfl⟩, fun c' hlive => ?_⟩
    have hne : c' ≠ c := by
      rintro rfl
      have hlt := of_decide_eq_true (Bool.and_eq_true_iff.mp hlive).2
      exact absurd (of_decide_eq_true hallows) (not_le.mpr hlt)
    exact (congrArg Option.isSome (Function.update_of_ne hne _ _)).trans (isSome_of_live hlive)
  | track tracker =>
    obtain rfl := Option.some.inj hstep
    exact ⟨rfl, rfl, le_rfl, fun _ _ hc => ⟨hc, rfl⟩, fun _ => isSome_of_live⟩

theorem Sound.frame (h : k.Sound τ) (hs : k.step a = some k') (hanswer : ∀ t r, a ≠ .answer t r)
    (hresume : ∀ t, a ≠ .resume t)
    (hp : k.Punctual τ) : k'.Sound τ := by
  have hframe := frame_of_step hs hanswer hresume
  obtain ⟨-, s', hstep, heq⟩ := step_eq_some_iff.mp hs
  have hstate : k'.state = s' := by rw [← heq]
  have htask : ∀ t, k'.state.tasks t = k.state.tasks t ∨
      (k'.state.tasks t).pc.cleanup = none ∧ (k'.state.tasks t).pc.ofSweep = false := by
    intro t
    obtain hlt | hge := lt_or_ge t k.state.created
    · rw [hstate]
      exact Or.inl (task_step_eq (Or.inl hlt) (hresume t) (hanswer t) hstep)
    · exact Or.inr (h.task_of_new hs hge)
  refine ⟨h.idle_step hs, ?_, fun t ht => ?_, ?_, fun t c ht => ?_, fun c w hc => ?_⟩
  · rw [hstate]
    exact h.started.trans_le (created_le_of_step hstep)
  · obtain hold | ⟨-, hnew⟩ := htask t
    · rw [hold]
      exact h.sweeper t ht
    · exact hnew
  · rw [hframe.swept]
    exact h.swept_le.trans hframe.clock
  · obtain hold | ⟨hnew, -⟩ := htask t
    · rw [hold] at ht
      by_contra hsome
      obtain ⟨w, hc⟩ := Option.ne_none_iff_exists'.mp hsome
      exact absurd ((hframe.lookup c w hc).1.symm.trans (h.closed t c ht)) (Option.some_ne_none w)
    · rw [Pc.disconnecting, hnew] at ht
      cases ht
  · obtain ⟨hconn, hseen⟩ := hframe.lookup c w hc
    obtain ⟨seen, hheld⟩ := h.held c w hconn
    have hpunctual := hp c w seen hconn hheld.lastSeen
    exact ⟨seen, hheld.carry h hs hpunctual (fun t r _ => hanswer t r) hc hseen (hframe.live c)
      (congrFun hframe.expires c) hframe.swept hframe.clock⟩

/-- **One step** of a run that keeps the bounds. -/
theorem Sound.step {h : STALE_TIMEOUT_SECONDS * 1000000 + p + e + d < TTL_SECONDS * 1000000}
    (hk : k.Sound (terms d p e h)) (ht : k.Timely d p ∧ k.EvictsWithin e)
    (ht' : k'.Timely d p ∧ k'.EvictsWithin e) (hs : k.step a = some k') :
    k'.Sound (terms d p e h) := by
  have hp : k.Punctual (terms d p e h) := ht.1.punctual ht.2
  cases a with
  | answer t r => exact hk.answer hs hp ht'.1 rfl
  | resume t => exact hk.resume hs hp ht.1 rfl
  | _ => exact hk.frame hs (fun _ _ heq => by cases heq) (fun _ heq => by cases heq) hp

theorem Sound.covered {h : STALE_TIMEOUT_SECONDS * 1000000 + p + e + d < TTL_SECONDS * 1000000}
    (hk : k.Sound (terms d p e h)) (ht : k.Timely d p ∧ k.EvictsWithin e) : k.Covered := by
  intro c w hc hnot
  obtain ⟨seen, hheld⟩ := hk.held c w hc
  exact hheld.live (ht.1.punctual ht.2 c w seen hc hheld.lastSeen) hnot

end Step

theorem sound_start (τ : Lease.Terms) : start.Sound τ where
  idle t ht := by
    have hne : t ≠ 0 := Nat.ne_of_gt ht
    simp [start, State.start, hne]
  started := Nat.one_pos
  sweeper t ht := by simp [start, State.start, ht, Pc.ofSweep]
  swept_le := le_rfl
  closed _ _ _ := rfl
  held c w hc := absurd hc.symm (Option.some_ne_none w)

/-- **A live connection does not outlive its key**, if the staleness limit, the time between two
sweeps, the time that a sweep takes and the delay of a write are less than the TTL together. -/
theorem covered_of_timely {d p e : ℕ}
    (h : STALE_TIMEOUT_SECONDS * 1000000 + p + e + d < TTL_SECONDS * 1000000) {as : List Action}
    (hrun : Transition.Always step (fun k => k.Timely d p ∧ k.EvictsWithin e) start as) :
    Transition.Always step Covered start as :=
  (hrun.invariant (I := Sound (terms d p e h)) (fun _ _ _ hk ht ht' hs => hk.step ht ht' hs)
    (sound_start _)).imp fun _ hk => hk.1.covered hk.2

/-- A client connects, is swept and sends a frame. -/
def oneHeartbeat : List Action :=
  [.answer 0 .done, .resume 0, .connect "conv-1", .answer 1 .done, .resume 1, .clock 1000000,
    .answer 1 .done, .resume 1, .clock 15000000, .answer 0 .done, .resume 0,
    .answer 1 (.data (.obj [("event_type", .str "pong")])), .resume 1, .clock 16000000,
    .answer 1 .done, .resume 1, .clock 40000000]

theorem covered_oneHeartbeat :
    ∃ k, Transition.run step start oneHeartbeat = some k ∧ k.Covered := by
  have hcovered : Transition.Always step Covered start oneHeartbeat :=
    covered_of_timely (d := 5000000) (p := 35000000) (e := 10000000) (by decide) (by decide)
  exact ⟨_, rfl, hcovered.run rfl⟩

/-! ### A sweep that takes its time -/

/-- No socket has been superseded. -/
def Unsuperseded (k : Timed) : Prop := ∀ i ∈ k.state.log, i.isSupersession = false

instance (k : Timed) : Decidable k.Unsuperseded := inferInstanceAs (Decidable (∀ i ∈ _, _))

/-- Two clients connect and send nothing. The sweep that begins after 295 seconds finds them both
stale, and waits for Redis with the first one. -/
def slowEviction : List Action :=
  [.answer 0 .done, .resume 0, .connect "conv-1", .answer 1 .done, .resume 1, .answer 1 .done,
    .resume 1, .connect "conv-2", .answer 2 .done, .resume 2, .answer 2 .done, .resume 2,
    .clock 120000000, .answer 0 .done, .resume 0, .answer 0 .done, .resume 0, .answer 0 .done,
    .resume 0, .answer 0 .done, .resume 0, .clock 295000000, .answer 0 .done, .resume 0,
    .clock 300001000]

/-- **The second key expires** while the first conversation is evicted, although writes arrive at
once and sweeps begin 175 seconds apart. -/
theorem not_covered : ¬∀ (d p : ℕ) (as : List Action),
    STALE_TIMEOUT_SECONDS * 1000000 + p + d < TTL_SECONDS * 1000000 →
    Transition.Always step (fun k => k.Timely d p ∧ k.Unsuperseded) start as →
    Transition.Always step Covered start as := by
  intro h
  have hcovered := h 4000000 175000000 slowEviction (by decide) (by decide)
  obtain ⟨k, hrun, hconn, htask, hlive⟩ : ∃ k, Transition.run step start slowEviction = some k ∧
      k.state.connections.lookup "conv-2" = some 2 ∧
      (∀ t < k.state.created, (k.state.tasks t).pc.ttlWrite = none) ∧ k.live "conv-2" = false :=
    ⟨_, rfl, rfl, by decide, by decide⟩
  have hnot : ¬k.Registering "conv-2" 2 := by
    rintro ⟨t, hlt, heq⟩
    have hnone := htask t hlt
    rw [heq] at hnone
    cases hnone
  exact absurd (hcovered.run hrun "conv-2" 2 hconn hnot) (by rw [hlive]; decide)

end Timed

end Gateway

end TitanChat
