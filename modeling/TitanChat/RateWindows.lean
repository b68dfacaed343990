import TitanChat.RateLimiter

/-!
# The rate limiter against a fixed-window counter

What `check_rate_limit` is for, said without Redis: each user has a window that opens at a call made
while none is open, stays open for 60 seconds, and lets through its first calls up to the limit.
`Reference` is that machine and `verdicts` are its answers.

The key of a user holds the window of the user. Its value is the number of calls the window has
seen and its TTL ends where the window does, since `INCR` leaves the TTL of a key that exists alone
and `EXPIRE` with `NX` sets one on exactly the key that `INCR` has just created. `Simulates` says
so, and a call keeps it.

## Main definitions

* `Reference`, `verdicts`: the fixed-window counter
* `Simulates`: how Redis holds it

## Main results

* `step_simulates`: a call is a call of the reference machine
* `run_of_user`: what a user sees is what the calls of that user alone would give
* `limiter_refines`: the verdicts, the TTLs, the refused calls and the other users
-/

namespace TitanChat

namespace RateLimiter

open FixedWindow

/-! ### The reference machine -/

/-- The last window of each user. -/
abbrev Reference := String → Option (Window ℤ)

/-- The windows after a call. -/
def Reference.call (r : Reference) (c : Call) : Reference :=
  Function.update r c.user_id (some (Window.next WINDOW (r c.user_id) c.time))

/-- A window lets its first `L` calls through. -/
def verdicts (L : ℕ) : Reference → List Call → List Bool
  | _, [] => []
  | r, c :: calls =>
    decide ((Window.next WINDOW (r c.user_id) c.time).seen ≤ L) :: verdicts L (r.call c) calls

/-- The counter that a window is kept in. -/
def counterOf (w : Window ℤ) : Counter := ⟨w.seen, some (w.opened + WINDOW)⟩

/-- Redis holds the windows of the users and nothing else, and none of them opens in the future. -/
structure Simulates (s : State) (r : Reference) : Prop where
  key : ∀ u, s.redis (rateKey u) = (r u).map counterOf
  only : ∀ key, (∀ u, key ≠ rateKey u) → s.redis key = none
  clock : ∀ u, ∀ w ∈ r u, w.opened ≤ s.now

theorem simulates_empty (now : ℤ) : Simulates (.empty now) fun _ => none where
  key _ := rfl
  only _ _ := rfl
  clock _ w hw := absurd hw (Option.not_mem_none w)

/-! ### One call -/

/-- The replies to a call, and the counter it leaves behind. -/
theorem pipeline_eq {r : Redis} {now : ℤ} {key : String} {w : Option (Window ℤ)}
    (h : r key = w.map counterOf) :
    (pipeline r now key).1.head? = some (Window.next WINDOW w now).seen ∧
      (pipeline r now key).2 key = some (counterOf (Window.next WINDOW w now)) := by
  cases w with
  | none =>
    have hfree : r.get now key = none := by simp [Redis.get, h]
    rw [pipeline_of_none hfree]
    exact ⟨rfl, Function.update_self ..⟩
  | some w =>
    by_cases ht : now < w.opened + WINDOW
    · rw [pipeline_of_lt h ht, Window.next_of_lt ht]
      exact ⟨rfl, Function.update_self ..⟩
    · rw [pipeline_of_none (get_of_le h ht), Window.next_of_not_lt ht]
      exact ⟨rfl, Function.update_self ..⟩

/-- The verdict is read off the first reply. -/
theorem checkRateLimit_of_head {L v : ℕ} {results : List ℕ} (h : results.head? = some v) :
    checkRateLimit L (.ok results) = decide (v ≤ L) := by
  obtain ⟨rest, rfl⟩ := List.head?_eq_some_iff.mp h
  simp [checkRateLimit, ← decide_not]

/-- **A call** is a call of the reference machine. -/
theorem step_simulates {L : ℕ} {s t : State} {r : Reference} {c : Call} (hsim : Simulates s r)
    (h : step L s c = some t) :
    Simulates t (r.call c) ∧ t.log =
      s.log ++ [(c, decide ((Window.next WINDOW (r c.user_id) c.time).seen ≤ L))] := by
  obtain ⟨hle, hnow, hredis, hlog⟩ := step_eq h
  obtain ⟨hhead, hkey⟩ := pipeline_eq (hsim.key c.user_id)
  refine ⟨⟨fun u => ?_, fun key hk => ?_, fun u w hw => ?_⟩, ?_⟩
  · by_cases hu : u = c.user_id
    · rw [hu, hredis, hkey, Reference.call, Function.update_self, Option.map_some]
    · rw [hredis, pipeline_of_ne (rateKey_ne hu), hsim.key, Reference.call,
        Function.update_of_ne hu]
  · rw [hredis, pipeline_of_ne (hk c.user_id), hsim.only key hk]
  · rw [hnow]
    have hopened : ∀ u, ∀ v ∈ r u, v.opened ≤ c.time :=
      fun u v hv => (hsim.clock u v hv).trans hle
    by_cases hu : u = c.user_id
    · rw [hu, Reference.call, Function.update_self] at hw
      obtain rfl := Option.some.inj hw
      exact Window.opened_next_le (hopened c.user_id)
    · rw [Reference.call, Function.update_of_ne hu] at hw
      exact hopened u w hw
  · rw [hlog, checkRateLimit_of_head hhead]

/-! ### A run -/

/-- The reference machine after some calls. -/
def Reference.calls (r : Reference) (calls : List Call) : Reference := calls.foldl Reference.call r

theorem run_simulates {L : ℕ} {s s' : State} {r : Reference} {calls : List Call}
    (hsim : Simulates s r) (hr : Transition.run (step L) s calls = some s') :
    Simulates s' (r.calls calls) ∧ s'.log = s.log ++ calls.zip (verdicts L r calls) := by
  induction calls generalizing s r with
  | nil =>
    obtain rfl := Option.some.inj hr
    exact ⟨hsim, (List.append_nil _).symm⟩
  | cons c calls ih =>
    obtain ⟨t, ht, hr⟩ := run_cons hr
    obtain ⟨hsim', hlog⟩ := step_simulates hsim ht
    obtain ⟨hend, hlog'⟩ := ih hsim' hr
    refine ⟨hend, ?_⟩
    rw [hlog', hlog, verdicts, List.zip_cons_cons, List.append_assoc, List.singleton_append]

/-- A counter has at most 60 seconds to live. -/
theorem Simulates.ttl {s : State} {r : Reference} (h : Simulates s r) {key : String} {n : Counter}
    (hn : s.redis key = some n) : ∃ e, n.expires = some e ∧ e ≤ s.now + WINDOW := by
  by_cases hkey : ∃ u, key = rateKey u
  · obtain ⟨u, rfl⟩ := hkey
    rw [h.key] at hn
    obtain ⟨w, hw, rfl⟩ := Option.map_eq_some_iff.mp hn
    exact ⟨_, rfl, add_le_add_left (h.clock u w hw) WINDOW⟩
  · rw [h.only key (not_exists.mp hkey)] at hn
    exact absurd hn.symm (Option.some_ne_none n)

/-- A refused call finds the window of its user open, and leaves its end where it was. -/
theorem Simulates.refused {L : ℕ} {s t : State} {r : Reference} {c : Call} (hL : 1 ≤ L)
    (h : Simulates s r) (ht : step L s c = some t) (hlog : t.log = s.log ++ [(c, false)]) :
    ∃ v e, s.redis.get c.time (rateKey c.user_id) = some ⟨v, some e⟩ ∧
      t.redis (rateKey c.user_id) = some ⟨v + 1, some e⟩ := by
  obtain ⟨hsim, hlog'⟩ := step_simulates h ht
  have hverdict : ¬(Window.next WINDOW (r c.user_id) c.time).seen ≤ L := by
    simpa using (List.append_cancel_left (hlog.symm.trans hlog')).symm
  have hkey := h.key c.user_id
  cases hw : r c.user_id with
  | none =>
    rw [hw] at hverdict
    exact absurd hL hverdict
  | some w =>
    rw [hw] at hverdict hkey
    by_cases hin : c.time < w.opened + WINDOW
    · obtain ⟨-, -, hredis, -⟩ := step_eq ht
      refine ⟨w.seen, w.opened + WINDOW, get_of_lt hkey hin, ?_⟩
      rw [hredis, pipeline_of_lt hkey hin]
      exact Function.update_self ..
    · rw [Window.next_of_not_lt hin] at hverdict
      exact absurd hL hverdict

/-! ### One user among the others -/

theorem incr_congr {r r' : Redis} {key : String} (now : ℤ) (h : r key = r' key) :
    (r.incr now key).1 = (r'.incr now key).1 ∧
      (r.incr now key).2 key = (r'.incr now key).2 key := by
  have hget : r.get now key = r'.get now key := by rw [Redis.get, Redis.get, h]
  simp [Redis.incr, hget]

theorem expireNx_congr {r r' : Redis} {key : String} (now ttl : ℤ) (h : r key = r' key) :
    (r.expireNx now key ttl).1 = (r'.expireNx now key ttl).1 ∧
      (r.expireNx now key ttl).2 key = (r'.expireNx now key ttl).2 key := by
  have hget : r.get now key = r'.get now key := by rw [Redis.get, Redis.get, h]
  rw [Redis.expireNx, Redis.expireNx, hget]
  split <;> simp [h]

/-- A pipeline sees its own key only. -/
theorem pipeline_congr {r r' : Redis} {key : String} (now : ℤ) (h : r key = r' key) :
    (pipeline r now key).1 = (pipeline r' now key).1 ∧
      (pipeline r now key).2 key = (pipeline r' now key).2 key := by
  obtain ⟨hcount, hincr⟩ := incr_congr now h
  obtain ⟨hset, hkey⟩ := expireNx_congr now WINDOW hincr
  simp only [pipeline, hcount, hset, hkey, and_self]

/-- The calls of user `u`, on their own, from a state that agrees on the user. -/
theorem run_of_user {L : ℕ} {s s' t : State} {calls : List Call} {u : String}
    (hnow : t.now ≤ s.now) (hkey : t.redis (rateKey u) = s.redis (rateKey u))
    (hlog : t.log = s.log.filter fun e => e.1.user_id = u)
    (hr : Transition.run (step L) s calls = some s') :
    ∃ t', Transition.run (step L) t (calls.filter fun c => c.user_id = u) = some t' ∧
      t'.redis (rateKey u) = s'.redis (rateKey u) ∧
      t'.log = s'.log.filter fun e => e.1.user_id = u := by
  induction calls generalizing s t with
  | nil =>
    obtain rfl := Option.some.inj hr
    exact ⟨t, rfl, hkey, hlog⟩
  | cons c calls ih =>
    obtain ⟨s₁, hs₁, hr⟩ := run_cons hr
    obtain ⟨hle, hnow₁, hredis₁, hlog₁⟩ := step_eq hs₁
    by_cases hu : c.user_id = u
    · subst hu
      obtain ⟨hreply, hsame⟩ := pipeline_congr c.time hkey
      obtain ⟨t₁, ht₁⟩ : ∃ t₁, step L t c = some t₁ := ⟨_, if_pos (hnow.trans hle)⟩
      obtain ⟨-, hnow', hredis', hlog'⟩ := step_eq ht₁
      have hkey' : t₁.redis (rateKey c.user_id) = s₁.redis (rateKey c.user_id) := by
        rw [hredis', hredis₁, hsame]
      obtain ⟨t', ht', hrest⟩ := ih (hnow'.trans hnow₁.symm).le hkey'
        (by simp [hlog', hlog, hlog₁, hreply]) hr
      refine ⟨t', ?_, hrest⟩
      rw [List.filter_cons_of_pos (by simp)]
      exact (congrArg (Option.bind · _) ht₁).trans ht'
    · have hlater : t.now ≤ s₁.now := hnow.trans (hle.trans hnow₁.ge)
      obtain ⟨hsame, -⟩ := step_other hs₁ hu
      obtain ⟨t', ht', hrest⟩ := ih hlater (hkey.trans hsame.symm) (by simp [hlog, hlog₁, hu]) hr
      refine ⟨t', ?_, hrest⟩
      rwa [List.filter_cons_of_neg (by simpa using hu)]

/-- **The limiter** answers as the fixed-window counter does. No counter is left without a TTL or
with more than 60 seconds of it, a refused call does not move the end of the window it falls into,
and each user has the verdicts and the counter that the calls of that user alone would give. -/
theorem limiter_refines {L : ℕ} {now : ℤ} {s : State} {calls : List Call} (hL : 1 ≤ L)
    (hr : Transition.run (step L) (.empty now) calls = some s) :
    s.log = calls.zip (verdicts L (fun _ => none) calls) ∧
      (∀ key n, s.redis key = some n → ∃ e, n.expires = some e ∧ e ≤ s.now + WINDOW) ∧
      (∀ c t, step L s c = some t → t.log = s.log ++ [(c, false)] →
        ∃ v e, s.redis.get c.time (rateKey c.user_id) = some ⟨v, some e⟩ ∧
          t.redis (rateKey c.user_id) = some ⟨v + 1, some e⟩) ∧
      ∀ u, ∃ t, Transition.run (step L) (.empty now) (calls.filter fun c => c.user_id = u) =
          some t ∧ t.redis (rateKey u) = s.redis (rateKey u) ∧
        t.log = s.log.filter fun e => e.1.user_id = u := by
  obtain ⟨hsim, hlog⟩ := run_simulates (simulates_empty now) hr
  refine ⟨hlog, fun key n => hsim.ttl, fun c t => hsim.refused hL, fun u => ?_⟩
  exact run_of_user le_rfl rfl rfl hr

/-- Two users at a limit of one: the second call of `"u"` is refused, and the third opens a
window. -/
theorem limiter_refines_two_users : ∃ s : State, Transition.run (step 1) (.empty 0)
      [⟨0, "u"⟩, ⟨1000, "v"⟩, ⟨59000, "u"⟩, ⟨60000, "u"⟩] = some s ∧
    s.log.map Prod.snd = [true, true, false, true] ∧
    ∀ key n, s.redis key = some n → ∃ e, n.expires = some e ∧ e ≤ s.now + WINDOW := by
  have hr : Transition.run (step 1) (.empty 0)
    [⟨0, "u"⟩, ⟨1000, "v"⟩, ⟨59000, "u"⟩, ⟨60000, "u"⟩] = some _ := rfl
  exact ⟨_, hr, by decide, (limiter_refines le_rfl hr).2.1⟩

end RateLimiter

end TitanChat
