import Mathlib.Data.List.TakeWhile
import TitanChat.AgentRouter

/-!
# What the routing script chooses

The script reads the members of `agent:available` once, in order, and removes members from the set
while it walks over what it has read. What it does is said here without the walk: which agent it
picks among those that could take the chat, and which keys differ afterwards. No skill is asked for,
so that nothing depends on Lua's patterns.

## Main definitions

* `Eligible`, `FirstEligible`: who can take a chat, and who of them comes first
* `Pruned`: the members that are removed on the way
* `Routed`: the keys after the script, each compared with what it was before

## Main results

* `routeLua_chooses`: the choice and the frame
-/

namespace TitanChat

namespace Router

open SortedSet

/-- A member of `agent:available` that could take one more chat. -/
structure Eligible (r : Router) (a : String) (n : ℤ) : Prop where
  member : r.available.lookup a = some n
  nonneg : 0 ≤ n
  online : r.status a = some "online"
  room : n < (r.maxChats a).getD 5

/-- The first of them, by score and then by member. -/
def FirstEligible (r : Router) (a : String) (n : ℤ) : Prop :=
  r.Eligible a n ∧ ∀ b m, r.Eligible b m → rankLE (a, n) (b, m)

/-- The member is not online, and comes before `stop` if there is one. -/
def Pruned (r : Router) (stop : Option (String × ℤ)) (b : String) : Prop :=
  ∃ m, r.available.lookup b = some m ∧ 0 ≤ m ∧ r.status b ≠ some "online" ∧
    ∀ p ∈ stop, rankLE (b, m) p

/-- The keys `r'` after a run of the script that took `stop`, or nobody. -/
structure Routed (r : Router) (conversation_id : String) (stop : Option (String × ℤ))
    (r' : Router) : Prop where
  pruned : ∀ b, r.Pruned stop b → r'.available.lookup b = none
  counted : ∀ p ∈ stop, r'.available.lookup p.1 = some (p.2 + 1)
  others : ∀ b, ¬r.Pruned stop b → (∀ p ∈ stop, b ≠ p.1) →
    r'.available.lookup b = r.available.lookup b
  chats : r'.chats = stop.elim r.chats fun p =>
    Function.update r.chats p.1 (insert conversation_id (r.chats p.1))
  active : r'.active = stop.elim r.active fun p =>
    Function.update r.active conversation_id (some { agent_id := p.1, status := "active" })
  status : r'.status = r.status
  maxChats : r'.maxChats = r.maxChats
  skills : r'.skills = r.skills

/-- An agent that is online is not removed. -/
theorem Pruned.ne {r : Router} {stop : Option (String × ℤ)} {a b : String}
    (h : r.Pruned stop b) (ha : r.status a = some "online") : b ≠ a := by
  rintro rfl
  obtain ⟨-, -, -, hb, -⟩ := h
  exact hb ha

/-! ### The walk -/

section Walk

variable (find : String → String → Option Bool)

/-- The members that the loop prunes, for any required skill. -/
theorem mem_gone_iff (r : Router) (required_skill b : String) :
    b ∈ r.gone find required_skill (r.available.rangeFrom 0) ↔
      r.Pruned ((r.available.rangeFrom 0).find? (r.stops find required_skill)) b := by
  have hstops : ∀ m, r.status b ≠ some "online" → r.stops find required_skill (b, m) = false :=
    fun m hb => by simp [stops, hb]
  have hgone : b ∈ r.gone find required_skill (r.available.rangeFrom 0) ↔
      ∃ m, (b, m) ∈ (r.available.rangeFrom 0).takeWhile
        (fun p => !r.stops find required_skill p) ∧ r.status b ≠ some "online" := by
    simp [gone]
  rw [hgone, Pruned]
  refine exists_congr fun m => ?_
  cases hf : (r.available.rangeFrom 0).find? (r.stops find required_skill) with
  | none =>
    have hall : (r.available.rangeFrom 0).takeWhile
        (fun p => !r.stops find required_skill p) = r.available.rangeFrom 0 := by
      refine List.takeWhile_eq_self_iff.mpr fun p hp => ?_
      simpa using List.find?_eq_none.mp hf p hp
    rw [hall, mem_rangeFrom]
    simp [and_assoc]
  | some p =>
    rw [mem_takeWhile_of_pairwise (pairwise_rangeFrom ..) hf, mem_rangeFrom]
    constructor
    · rintro ⟨⟨⟨hm, h0⟩, -, hle⟩, hb⟩
      exact ⟨hm, h0, hb, fun q hq => Option.some.inj hq ▸ hle⟩
    · rintro ⟨hm, h0, hb, hle⟩
      exact ⟨⟨⟨hm, h0⟩, hstops m hb, hle p rfl⟩, hb⟩

/-- Without a required skill, the loop stops at the eligible candidates. -/
theorem stops_iff_eligible {r : Router} {a : String} {n : ℤ}
    (h : (a, n) ∈ r.available.rangeFrom 0) : r.stops find "" (a, n) ↔ r.Eligible a n := by
  obtain ⟨hm, h0⟩ := mem_rangeFrom.mp h
  have hskill : r.hasSkill find "" a = some true := if_pos rfl
  simp only [stops, hskill, Bool.and_eq_true, decide_eq_true_eq]
  constructor
  · rintro ⟨⟨hon, hroom⟩, -⟩
    exact ⟨hm, h0, hon, hroom⟩
  · rintro ⟨-, -, hon, hroom⟩
    exact ⟨⟨hon, hroom⟩, by decide⟩

theorem Eligible.mem_rangeFrom {r : Router} {a : String} {n : ℤ} (h : r.Eligible a n) :
    (a, n) ∈ r.available.rangeFrom 0 :=
  SortedSet.mem_rangeFrom.mpr ⟨h.member, h.nonneg⟩

theorem find?_eq_some_iff (r : Router) (a : String) (n : ℤ) :
    (r.available.rangeFrom 0).find? (r.stops find "") = some (a, n) ↔ r.FirstEligible a n := by
  rw [find?_eq_some_iff_of_pairwise (pairwise_rangeFrom ..)]
  constructor
  · rintro ⟨hmem, hstops, hleast⟩
    refine ⟨(stops_iff_eligible find hmem).mp hstops, fun b m hb => ?_⟩
    exact hleast (b, m) hb.mem_rangeFrom ((stops_iff_eligible find hb.mem_rangeFrom).mpr hb)
  · rintro ⟨ha, hleast⟩
    refine ⟨ha.mem_rangeFrom, (stops_iff_eligible find ha.mem_rangeFrom).mpr ha, ?_⟩
    rintro ⟨b, m⟩ hb hstops
    exact hleast b m ((stops_iff_eligible find hb).mp hstops)

theorem find?_eq_none_iff (r : Router) :
    (r.available.rangeFrom 0).find? (r.stops find "") = none ↔ ∀ a n, ¬r.Eligible a n := by
  rw [List.find?_eq_none]
  constructor
  · intro h a n ha
    exact h (a, n) ha.mem_rangeFrom ((stops_iff_eligible find ha.mem_rangeFrom).mpr ha)
  · rintro h ⟨a, n⟩ hmem hstops
    exact h a n ((stops_iff_eligible find hmem).mp hstops)

/-- The reply, read off the candidate that stops the loop. -/
theorem reply_eq (r : Router) (conversation_id : String) :
    (r.routeLua find conversation_id "").1 =
      ((r.available.rangeFrom 0).find? (r.stops find "")).elim .nil fun p => .assigned p.1 := by
  have hskill : ∀ a, r.hasSkill find "" a = some true := fun a => if_pos rfl
  rw [routeLua, routeLoop_eq]
  cases (r.available.rangeFrom 0).find? (r.stops find "") with
  | none => rfl
  | some p => simp only [hskill, if_true, Option.elim_some]

/-- The keys, for the candidate that stops the loop. -/
theorem routed_routeLua (r : Router) (conversation_id : String) :
    r.Routed conversation_id ((r.available.rangeFrom 0).find? (r.stops find ""))
      (r.routeLua find conversation_id "").2 := by
  have hskill : ∀ a, r.hasSkill find "" a = some true := fun a => if_pos rfl
  have hgone := r.mem_gone_iff find ""
  rw [routeLua, routeLoop_eq]
  generalize r.gone find "" (r.available.rangeFrom 0) = agents at hgone
  cases hf : (r.available.rangeFrom 0).find? (r.stops find "") with
  | none =>
    rw [hf] at hgone
    refine ⟨fun b hb => ?_, fun p hp => absurd hp (Option.not_mem_none p), fun b hb _ => ?_,
      rfl, rfl, rfl, rfl, rfl⟩
    · exact (lookup_pruneAll r agents b).trans (if_pos ((hgone b).mpr hb))
    · exact (lookup_pruneAll r agents b).trans (if_neg fun hin => hb ((hgone b).mp hin))
  | some p =>
    obtain ⟨a, n⟩ := p
    rw [hf] at hgone
    have ha : r.Eligible a n := ((r.find?_eq_some_iff find a n).mp hf).1
    have hkept : (r.pruneAll agents).available.lookup a = some n := by
      rw [lookup_pruneAll, if_neg fun hin => ((hgone a).mp hin).ne ha.online rfl, ha.member]
    simp only [hskill, if_true]
    refine ⟨fun b hb => ?_, fun p hp => ?_, fun b hb hne => ?_, rfl, rfl, rfl, rfl, rfl⟩
    · rw [assign, lookup_incrBy_ne _ _ (hb.ne ha.online), lookup_pruneAll,
        if_pos ((hgone b).mpr hb)]
    · obtain rfl := Option.some.inj hp
      rw [assign, lookup_incrBy_self, hkept, Option.getD_some]
    · rw [assign, lookup_incrBy_ne _ _ (hne (a, n) rfl), lookup_pruneAll,
        if_neg fun hin => hb ((hgone b).mp hin)]

theorem reply_of_first {r : Router} {a : String} {n : ℤ} (h : r.FirstEligible a n)
    (conversation_id : String) : (r.routeLua find conversation_id "").1 = .assigned a := by
  rw [reply_eq, (r.find?_eq_some_iff find a n).mpr h]
  rfl

theorem reply_of_none {r : Router} (h : ∀ a n, ¬r.Eligible a n) (conversation_id : String) :
    (r.routeLua find conversation_id "").1 = .nil := by
  rw [reply_eq, (r.find?_eq_none_iff find).mpr h]
  rfl

theorem routed_of_first {r : Router} {a : String} {n : ℤ} (h : r.FirstEligible a n)
    (conversation_id : String) :
    r.Routed conversation_id (some (a, n)) (r.routeLua find conversation_id "").2 := by
  rw [← (r.find?_eq_some_iff find a n).mpr h]
  exact r.routed_routeLua find conversation_id

theorem routed_of_none {r : Router} (h : ∀ a n, ¬r.Eligible a n) (conversation_id : String) :
    r.Routed conversation_id none (r.routeLua find conversation_id "").2 := by
  rw [← (r.find?_eq_none_iff find).mpr h]
  exact r.routed_routeLua find conversation_id

end Walk

/-- Somebody is the first, or nobody is eligible. -/
theorem firstEligible_or_none (r : Router) :
    (∃ a n, r.FirstEligible a n) ∨ ∀ a n, ¬r.Eligible a n := by
  cases hf : (r.available.rangeFrom 0).find? (r.stops (fun _ _ => none) "") with
  | none => exact Or.inr ((r.find?_eq_none_iff _).mp hf)
  | some p => exact Or.inl ⟨p.1, p.2, (r.find?_eq_some_iff _ p.1 p.2).mp hf⟩

theorem FirstEligible.unique {r : Router} {a b : String} {n m : ℤ} (ha : r.FirstEligible a n)
    (hb : r.FirstEligible b m) : a = b := by
  have hab := Std.Antisymm.antisymm (a, n) (b, m) (ha.2 b m hb.1) (hb.2 a n ha.1)
  exact congrArg Prod.fst hab

/-- **The choice of the script and its frame.** An agent is returned if and only if it is the first
eligible one, and `nil` if and only if nobody is eligible. The members that are not online and come
before the agent leave the sorted set, all of them when nobody is picked; the agent has one more
chat; every other key is as it was. -/
theorem routeLua_chooses (find : String → String → Option Bool) (r : Router)
    (conversation_id : String) :
    (∀ a, (r.routeLua find conversation_id "").1 = .assigned a ↔ ∃ n, r.FirstEligible a n) ∧
      ((r.routeLua find conversation_id "").1 = .nil ↔ ∀ a n, ¬r.Eligible a n) ∧
      (∀ a n, r.FirstEligible a n →
        r.Routed conversation_id (some (a, n)) (r.routeLua find conversation_id "").2) ∧
      ((∀ a n, ¬r.Eligible a n) →
        r.Routed conversation_id none (r.routeLua find conversation_id "").2) := by
  refine ⟨fun a => ⟨fun ha => ?_, fun ⟨n, hn⟩ => reply_of_first find hn conversation_id⟩,
    ⟨fun hnil => ?_, fun hnone => reply_of_none find hnone conversation_id⟩,
    fun a n ha => routed_of_first find ha conversation_id,
    fun hnone => routed_of_none find hnone conversation_id⟩
  · obtain ⟨b, n, hb⟩ | hnone := r.firstEligible_or_none
    · obtain rfl := Reply.assigned.inj ((reply_of_first find hb conversation_id).symm.trans ha)
      exact ⟨n, hb⟩
    · exact Reply.noConfusion ((reply_of_none find hnone conversation_id).symm.trans ha)
  · obtain ⟨b, n, hb⟩ | hnone := r.firstEligible_or_none
    · exact Reply.noConfusion ((reply_of_first find hb conversation_id).symm.trans hnil)
    · exact hnone

end Router

end TitanChat
