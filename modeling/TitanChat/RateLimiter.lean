import TitanChat.Internal.FixedWindow
import TitanChat.Internal.Transition
import Mathlib.Algebra.Order.Ring.Int

/-!
# The rate limiter

`check_rate_limit` in `shared/cache/rate_limiter.py` counts the calls of a user in one Redis key.
`INCR` creates the key with the value 1, `EXPIRE key 60 NX` gives it a TTL unless it has one, and
the two run as one `MULTI`/`EXEC`. All gateways share the Redis, so the calls of all of them are one
sequence here.

The module calls this a sliding window. It is a fixed one, which the first call of a user opens: the
key of a user lives for 60 seconds and then the count starts again from nothing. A user who calls at
the end of one window and at the start of the next is let through more often than the limit says.

## Main definitions

* `pipeline`, `checkRateLimit`: the source
* `State`, `step`: a timed sequence of calls
* `State.granted`: when the calls of a user returned `True`

## Main results

* `granted_run`: the calls that return `True` are the first of each window
* `sliding_iff_spaced`: which sequences keep the sliding limit
-/

namespace TitanChat

namespace RateLimiter

open FixedWindow

/-- A counter in Redis. -/
structure Counter where
  value : ℕ
  /-- When the key expires, if it has a TTL. -/
  expires : Option ℤ
  deriving DecidableEq, Repr

/-- The counters by key. Time is in milliseconds, as Redis counts it. -/
abbrev Redis := String → Option Counter

/-- The TTL of 60 seconds. -/
def WINDOW : ℤ := 60 * 1000

/-- A key that has expired does not exist. -/
def Redis.get (r : Redis) (now : ℤ) (key : String) : Option Counter :=
  (r key).filter fun c => c.expires.all (now < ·)

/-- `INCR`. The TTL of the key stays. -/
def Redis.incr (r : Redis) (now : ℤ) (key : String) : ℕ × Redis :=
  let c : Counter := match r.get now key with
    | some c => { c with value := c.value + 1 }
    | none => ⟨1, none⟩
  (c.value, Function.update r key (some c))

/-- `EXPIRE` with `NX`. -/
def Redis.expireNx (r : Redis) (now : ℤ) (key : String) (ttl : ℤ) : ℕ × Redis :=
  match r.get now key with
  | some ⟨value, none⟩ => (1, Function.update r key (some ⟨value, some (now + ttl)⟩))
  | _ => (0, r)

/-- The commands of `check_rate_limit`, with their replies. -/
def pipeline (r : Redis) (now : ℤ) (key : String) : List ℕ × Redis :=
  let (count, r) := r.incr now key
  let (set, r) := r.expireNx now key WINDOW
  ([count, set], r)

/-- The key of a user. -/
def rateKey (user_id : String) : String := "rate:" ++ user_id

/-- What `check_rate_limit` makes of the replies. An error lets the call pass. -/
def checkRateLimit (RATE_LIMIT_PER_MINUTE : ℕ) (results : Except String (List ℕ)) : Bool :=
  match results with
  | .ok (count :: _) => !decide (RATE_LIMIT_PER_MINUTE < count)
  | .ok [] => true
  | .error _ => true

/-- The call that finds `v` calls in its window passes if fewer than the limit were there. -/
theorem checkRateLimit_succ (L v : ℕ) (rest : List ℕ) :
    checkRateLimit L (.ok ((v + 1) :: rest)) = decide (v < L) := by
  rw [checkRateLimit, ← decide_not]
  exact decide_eq_decide.mpr (by omega)

theorem rateKey_ne {u v : String} (h : u ≠ v) : rateKey u ≠ rateKey v := by
  simpa [rateKey, String.ext_iff] using h

/-! ### A pipeline, for each state of its key -/

theorem get_of_lt {r : Redis} {now e : ℤ} {key : String} {v : ℕ} (h : r key = some ⟨v, some e⟩)
    (ht : now < e) : r.get now key = some ⟨v, some e⟩ := by
  simp [Redis.get, h, ht]

theorem get_of_le {r : Redis} {now e : ℤ} {key : String} {v : ℕ} (h : r key = some ⟨v, some e⟩)
    (ht : ¬now < e) : r.get now key = none := by
  simpa [Redis.get, h] using ht

/-- Inside a window the count goes up and the TTL stays. -/
theorem pipeline_of_lt {r : Redis} {now e : ℤ} {key : String} {v : ℕ}
    (h : r key = some ⟨v, some e⟩) (ht : now < e) :
    pipeline r now key = ([v + 1, 0], Function.update r key (some ⟨v + 1, some e⟩)) := by
  have hnext : Redis.get (Function.update r key (some ⟨v + 1, some e⟩)) now key =
      some ⟨v + 1, some e⟩ := get_of_lt (Function.update_self ..) ht
  simp only [pipeline, Redis.incr, get_of_lt h ht, Redis.expireNx, hnext]

/-- Outside one the call opens a window. -/
theorem pipeline_of_none {r : Redis} {now : ℤ} {key : String} (h : r.get now key = none) :
    pipeline r now key =
      ([1, 1], Function.update r key (some ⟨1, some (now + WINDOW)⟩)) := by
  have hnext : Redis.get (Function.update r key (some ⟨1, none⟩)) now key = some ⟨1, none⟩ := by
    simp [Redis.get]
  simp only [pipeline, Redis.incr, h, Redis.expireNx, hnext, Function.update_idem]

theorem pipeline_of_ne {r : Redis} {now : ℤ} {key key' : String} (h : key' ≠ key) :
    (pipeline r now key).2 key' = r key' := by
  simp only [pipeline, Redis.incr, Redis.expireNx]
  split <;> simp [Function.update_of_ne h]

/-! ### Timed sequences of calls -/

/-- A call, by any gateway. -/
structure Call where
  time : ℤ
  user_id : String
  deriving DecidableEq, Repr

/-- The clock, Redis, and the calls that have returned with their verdicts. -/
structure State where
  now : ℤ
  redis : Redis
  log : List (Call × Bool)

/-- No call yet. -/
def State.empty (now : ℤ) : State := ⟨now, fun _ => none, []⟩

/-- One call. Time does not go back. -/
def step (L : ℕ) (s : State) (c : Call) : Option State :=
  if s.now ≤ c.time then
    let (results, redis) := pipeline s.redis c.time (rateKey c.user_id)
    some ⟨c.time, redis, s.log ++ [(c, checkRateLimit L (.ok results))]⟩
  else none

/-- When the calls of user `u` returned `True`. -/
def State.granted (s : State) (u : String) : List ℤ :=
  (s.log.filter fun e => e.1.user_id = u && e.2).map fun e => e.1.time

/-- When user `u` called. -/
def timesOf (u : String) (calls : List Call) : List ℤ :=
  (calls.filter fun c => c.user_id = u).map Call.time

theorem timesOf_cons_self (c : Call) (calls : List Call) :
    timesOf c.user_id (c :: calls) = c.time :: timesOf c.user_id calls := by
  simp [timesOf]

theorem timesOf_cons_of_ne {c : Call} {u : String} (hu : c.user_id ≠ u) (calls : List Call) :
    timesOf u (c :: calls) = timesOf u calls := by
  simp [timesOf, hu]

theorem run_cons {L : ℕ} {s s' : State} {c : Call} {calls : List Call}
    (h : Transition.run (step L) s (c :: calls) = some s') :
    ∃ t, step L s c = some t ∧ Transition.run (step L) t calls = some s' :=
  Option.bind_eq_some_iff.mp h

/-! ### One call -/

/-- What a call leaves behind, whoever made it. -/
theorem step_eq {L : ℕ} {s t : State} {c : Call} (h : step L s c = some t) :
    s.now ≤ c.time ∧ t.now = c.time ∧
      t.redis = (pipeline s.redis c.time (rateKey c.user_id)).2 ∧
      t.log = s.log ++
        [(c, checkRateLimit L (.ok (pipeline s.redis c.time (rateKey c.user_id)).1))] := by
  unfold step at h
  split at h
  · next hle =>
    obtain rfl := Option.some.inj h
    exact ⟨hle, rfl, rfl, rfl⟩
  · exact absurd h nofun

theorem granted_of_log {s t : State} {c : Call} {b : Bool} (h : t.log = s.log ++ [(c, b)])
    (u : String) :
    t.granted u = s.granted u ++ if c.user_id = u ∧ b = true then [c.time] else [] := by
  by_cases hu : c.user_id = u <;> cases b <;> simp [State.granted, h, hu]

/-- The calls of one user do not touch the key of another. -/
theorem step_other {L : ℕ} {s t : State} {c : Call} {u : String} (h : step L s c = some t)
    (hu : c.user_id ≠ u) :
    t.redis (rateKey u) = s.redis (rateKey u) ∧ t.granted u = s.granted u := by
  obtain ⟨-, -, hredis, hlog⟩ := step_eq h
  constructor
  · rw [hredis, pipeline_of_ne (rateKey_ne hu.symm)]
  · rw [granted_of_log hlog, if_neg fun h => hu h.1, List.append_nil]

/-- A call that the pipeline counts as the `v + 1`-st of a window that ends at `e`. -/
theorem step_counts {L v : ℕ} {s t : State} {c : Call} {e : ℤ} {rest : List ℕ}
    (h : step L s c = some t) (hpipeline : pipeline s.redis c.time (rateKey c.user_id) =
      ((v + 1) :: rest, Function.update s.redis (rateKey c.user_id) (some ⟨v + 1, some e⟩))) :
    t.redis (rateKey c.user_id) = some ⟨v + 1, some e⟩ ∧
      t.granted c.user_id = s.granted c.user_id ++ if v < L then [c.time] else [] := by
  obtain ⟨-, -, hredis, hlog⟩ := step_eq h
  rw [hpipeline] at hredis hlog
  constructor
  · rw [hredis]
    exact Function.update_self ..
  · rw [granted_of_log hlog, checkRateLimit_succ]
    simp only [true_and, decide_eq_true_eq]

/-- A call inside the window of its user: the `v + 1`-st of it. -/
theorem step_within {L v : ℕ} {s t : State} {c : Call} {e : ℤ} (h : step L s c = some t)
    (hkey : s.redis (rateKey c.user_id) = some ⟨v, some e⟩) (he : c.time < e) :
    t.redis (rateKey c.user_id) = some ⟨v + 1, some e⟩ ∧
      t.granted c.user_id = s.granted c.user_id ++ if v < L then [c.time] else [] :=
  step_counts h (pipeline_of_lt hkey he)

/-- A call outside the window of its user: the first of a new one. -/
theorem step_opens {L : ℕ} {s t : State} {c : Call} (h : step L s c = some t)
    (hkey : s.redis.get c.time (rateKey c.user_id) = none) :
    t.redis (rateKey c.user_id) = some ⟨1, some (c.time + WINDOW)⟩ ∧
      t.granted c.user_id = s.granted c.user_id ++ if 0 < L then [c.time] else [] :=
  step_counts h (pipeline_of_none hkey)

/-! ### The calls let through -/

theorem take_sub (L v : ℕ) (t : ℤ) (ts : List ℤ) :
    (t :: ts).take (L - v) = (if v < L then [t] else []) ++ ts.take (L - (v + 1)) := by
  by_cases hv : v < L
  · rw [if_pos hv, show L - v = L - (v + 1) + 1 by omega]
    rfl
  · rw [if_neg hv, show L - v = 0 by omega, show L - (v + 1) = 0 by omega]
    rfl

/-- From inside a window, opened at `o`, of which `v` calls have been made. -/
theorem granted_run_open {L v : ℕ} {s s' : State} {u : String} {o : ℤ} {calls : List Call}
    (hkey : s.redis (rateKey u) = some ⟨v, some (o + WINDOW)⟩)
    (hr : Transition.run (step L) s calls = some s') :
    s'.granted u = s.granted u ++ ((cut WINDOW o (timesOf u calls)).1.take (L - v) ++
      (cut WINDOW o (timesOf u calls)).2.flatMap (List.take L)) := by
  induction calls generalizing s o v with
  | nil =>
    obtain rfl := Option.some.inj hr
    simp [timesOf, cut]
  | cons c calls ih =>
    obtain ⟨t, ht, hr⟩ := run_cons hr
    by_cases hu : c.user_id = u
    · subst hu
      by_cases he : c.time < o + WINDOW
      · obtain ⟨hkey', hgranted⟩ := step_within ht hkey he
        rw [timesOf_cons_self, cut_cons_of_lt he, ih hkey' hr, hgranted, take_sub]
        simp only [List.append_assoc]
      · obtain ⟨hkey', hgranted⟩ := step_opens ht (get_of_le hkey he)
        rw [timesOf_cons_self, cut_cons_of_not_lt he, windows, List.flatMap_cons, ih hkey' hr,
          hgranted, ← Nat.sub_zero L, take_sub, Nat.sub_zero]
        simp only [List.take_nil, List.nil_append, List.append_assoc]
    · obtain ⟨hsame, hgranted⟩ := step_other ht hu
      rw [timesOf_cons_of_ne hu, ih (hsame.trans hkey) hr, hgranted]

/-- From a state in which the user has no key. -/
theorem granted_run_none {L : ℕ} {s s' : State} {u : String} {calls : List Call}
    (hkey : s.redis (rateKey u) = none) (hr : Transition.run (step L) s calls = some s') :
    s'.granted u = s.granted u ++ granted WINDOW L (timesOf u calls) := by
  induction calls generalizing s with
  | nil =>
    obtain rfl := Option.some.inj hr
    simp [timesOf, granted, windows]
  | cons c calls ih =>
    obtain ⟨t, ht, hr⟩ := run_cons hr
    by_cases hu : c.user_id = u
    · subst hu
      have hfree : s.redis.get c.time (rateKey c.user_id) = none := by simp [Redis.get, hkey]
      obtain ⟨hkey', hgranted⟩ := step_opens ht hfree
      rw [timesOf_cons_self, granted_run_open hkey' hr, hgranted, granted, windows,
        List.flatMap_cons, ← Nat.sub_zero L, take_sub, Nat.sub_zero, List.append_assoc,
        List.append_assoc]
    · obtain ⟨hsame, hgranted⟩ := step_other ht hu
      rw [timesOf_cons_of_ne hu, ih (hsame.trans hkey) hr, hgranted]

/-- **The calls that return `True`** are the first of each window of their user. -/
theorem granted_run {L : ℕ} {now : ℤ} {s : State} {calls : List Call}
    (hr : Transition.run (step L) (.empty now) calls = some s) (u : String) :
    s.granted u = granted WINDOW L (timesOf u calls) :=
  granted_run_none rfl hr

theorem sorted_of_run {L : ℕ} {s s' : State} {calls : List Call}
    (hr : Transition.run (step L) s calls = some s') :
    (∀ c ∈ calls, s.now ≤ c.time) ∧ (calls.map Call.time).Pairwise (· ≤ ·) := by
  induction calls generalizing s with
  | nil => exact ⟨nofun, .nil⟩
  | cons c calls ih =>
    obtain ⟨t, ht, hr⟩ := run_cons hr
    obtain ⟨hle, hnow, -⟩ := step_eq ht
    obtain ⟨hall, hs⟩ := ih hr
    refine ⟨List.forall_mem_cons.mpr ⟨hle, fun d hd => hle.trans ?_⟩, ?_⟩
    · exact hnow ▸ hall d hd
    · exact List.pairwise_cons.mpr ⟨List.forall_mem_map.mpr fun d hd => hnow ▸ hall d hd, hs⟩

/-- **The sliding limit, exactly.** It is kept for a user if and only if the crowded parts of the
windows that the calls of the user open keep apart. -/
theorem sliding_iff_spaced {L : ℕ} {now : ℤ} {s : State} {calls : List Call}
    (hr : Transition.run (step L) (.empty now) calls = some s) (u : String) :
    Sliding WINDOW L (s.granted u) ↔
      (windows WINDOW (timesOf u calls)).IsChain (Spaced WINDOW L) := by
  rw [granted_run hr]
  refine sliding_granted_iff ((sorted_of_run hr).2.sublist ?_)
  exact List.filter_sublist.map Call.time

/-- Two calls in each window, a window apart. -/
theorem sliding_of_even : ∃ s, Transition.run (step 2) (.empty 0)
    [⟨0, "u"⟩, ⟨59000, "u"⟩, ⟨60500, "u"⟩, ⟨119500, "u"⟩] = some s ∧
      Sliding WINDOW 2 (s.granted "u") := by
  have hr : Transition.run (step 2) (.empty 0)
    [⟨0, "u"⟩, ⟨59000, "u"⟩, ⟨60500, "u"⟩, ⟨119500, "u"⟩] = some _ := rfl
  exact ⟨_, hr, (sliding_iff_spaced hr "u").mpr (by decide)⟩

/-- Two calls near the end of a window and one in the next: of the three, none is refused, with a
limit of two. -/
theorem not_sliding : ¬∀ L : ℕ, 1 ≤ L → ∀ (now : ℤ) (calls : List Call) (s : State),
    Transition.run (step L) (.empty now) calls = some s → ∀ u,
      Sliding WINDOW L (s.granted u) := by
  intro h
  have hlimit := h 2 (by decide) 0
    [⟨0, "u"⟩, ⟨59000, "u"⟩, ⟨60500, "u"⟩, ⟨61000, "u"⟩] _ rfl "u" 59000
  exact absurd hlimit (by decide)

end RateLimiter

end TitanChat
