import Mathlib.Data.Finset.Sort
import TitanChat.ApiRoutes
import TitanChat.Internal.LuaPattern
import TitanChat.Internal.Separated

/-!
# The skills of an agent in one field

`agent_go_online` joins the skills of an agent with commas into one field of `agent:meta`. Two
functions read the field back. The routing script wraps the field and the required skill in commas
and searches with `string.find`, and `get_all_agents_status` splits the field at its commas.

The split gives back the skills that were joined if there is one at least and none has a comma in
it; the empty list comes back as a list of one empty skill. The search is by pattern: with a
required skill such as `c++` or `a.b` it looks for something else than the skill. For a required
skill that Lua takes as it stands the search is for consecutive skills, which is membership unless
the required skill has commas of its own.

## Main definitions

* `luaFind`: `string.find` on the strings that Redis holds
* `getAllAgentsStatus`: the source
* `Faithful`: both readers give back what was registered
* `Plain`, `Encodable`: the conditions on the required skill and on the skills

## Main results

* `faithful_iff`: when they do
-/

namespace TitanChat

namespace Router

open LuaPattern Separated

/-- A string as Redis holds it, in UTF-8. -/
def bytes (s : String) : List UInt8 := s.toList.flatMap String.utf8EncodeChar

/-- `string.find`, with an error as `none`. -/
def luaFind (s p : String) : Option Bool := (strFind (bytes s) (bytes p)).toOption

/-- `s.split(",")`. -/
def splitComma (s : String) : List String := (s.toList.splitOn ',').map String.ofList

/-- The entry of an agent in `get_all_agents_status`. The set of conversations has no order, and is
listed in the order of its elements here. -/
def agentStatus (r : Router) (agent_id : String) (active_count : ℤ) : AgentStatus where
  agent_id := agent_id
  status := (r.status agent_id).getD "offline"
  active_chats := active_count
  max_chats := (r.maxChats agent_id).getD 5
  skills := splitComma ((r.skills agent_id).getD "")
  conversations := (r.chats agent_id).sort (· ≤ ·)

/-- `get_all_agents_status`. -/
def getAllAgentsStatus (r : Router) : List AgentStatus :=
  r.available.ranked.map fun p => r.agentStatus p.1 p.2

/-- What `get_all_agents_status` says of the skills of an agent. -/
def reportedSkills (r : Router) (agent_id : String) : Option (List String) :=
  (r.getAllAgentsStatus.find? fun e => e.agent_id = agent_id).map AgentStatus.skills

/-- The readers of the field agree with the skills that were registered. -/
def Faithful (r : Router) (agent_id : String) (skills : List String) (required_skill : String) :
    Prop :=
  (r.hasSkill luaFind required_skill agent_id = some true ↔ required_skill ∈ skills) ∧
    r.reportedSkills agent_id = some skills

/-- Lua takes the required skill as it stands: it has none of the bytes that make a pattern, or only
such as mean nothing inside one. -/
def Plain (required_skill : String) : Prop :=
  (∀ c ∈ (bytes required_skill).takeWhile (· ≠ 0), c ∉ SPECIALS) ∨
    ∀ c ∈ bytes required_skill, c ≠ 0 ∧ c ∉ MAGIC

instance (required_skill : String) : Decidable (Plain required_skill) :=
  @instDecidableOr _ _ (List.decidableBAll ..) (List.decidableBAll ..)

/-- There is a skill, and none has a comma in it. -/
def Encodable (skills : List String) : Prop := skills ≠ [] ∧ ∀ k ∈ skills, ',' ∉ k.toList

/-! ### Bytes -/

theorem comma_mem_utf8EncodeChar {c : Char} : 44 ∈ String.utf8EncodeChar c ↔ c = ',' := by
  have hlarge : ∀ n, 128 ≤ n → n < 256 → (44 : UInt8) ≠ UInt8.ofNat n := by
    intro n h h' heq
    have hval := congrArg UInt8.toNat heq
    simp only [UInt8.toNat_ofNat', UInt8.reduceToNat] at hval
    omega
  constructor
  · intro h
    unfold String.utf8EncodeChar at h
    simp only at h
    split at h
    · next hle =>
      have hval := congrArg UInt8.toNat (List.mem_singleton.mp h)
      simp only [UInt8.toNat_ofNat', UInt8.reduceToNat] at hval
      refine Char.ext (UInt32.toNat_inj.mp ?_)
      have hmod : c.val.toNat % 2 ^ 8 = c.val.toNat := Nat.mod_eq_of_lt (by omega)
      exact (hval.trans hmod).symm
    · split at h
      · simp only [List.mem_cons, List.not_mem_nil, or_false] at h
        obtain h | h := h
        · exact absurd h (hlarge _ (by omega) (by omega))
        · exact absurd h (hlarge _ (by omega) (by omega))
      · split at h
        · simp only [List.mem_cons, List.not_mem_nil, or_false] at h
          obtain h | h | h := h
          · exact absurd h (hlarge _ (by omega) (by omega))
          · exact absurd h (hlarge _ (by omega) (by omega))
          · exact absurd h (hlarge _ (by omega) (by omega))
        · simp only [List.mem_cons, List.not_mem_nil, or_false] at h
          obtain h | h | h | h := h
          · exact absurd h (hlarge _ (by omega) (by omega))
          · exact absurd h (hlarge _ (by omega) (by omega))
          · exact absurd h (hlarge _ (by omega) (by omega))
          · exact absurd h (hlarge _ (by omega) (by omega))
  · rintro rfl
    decide

theorem comma_mem_bytes {s : String} : 44 ∈ bytes s ↔ ',' ∈ s.toList := by
  simp only [bytes, List.mem_flatMap, comma_mem_utf8EncodeChar, exists_eq_right]

theorem bytes_injective : Function.Injective bytes := by
  intro s t h
  have hbytes : s.toByteArray = t.toByteArray := by
    rw [← String.utf8Encode_toList, ← String.utf8Encode_toList]
    exact congrArg List.toByteArray h
  exact String.toByteArray_inj.mp hbytes

theorem bytes_append (s t : String) : bytes (s ++ t) = bytes s ++ bytes t := by
  simp [bytes]

theorem bytes_intercalate (skills : List String) :
    bytes (",".intercalate skills) = [44].intercalate (skills.map bytes) := by
  rw [bytes, String.toList_intercalate, flatMap_intercalate, List.map_map]
  rfl

/-- The field as the script searches it. -/
theorem bytes_wrapped {skills : List String} (h : skills ≠ []) :
    bytes ("," ++ ",".intercalate skills ++ ",") = wrap 44 (skills.map bytes) := by
  rw [wrap_eq_intercalate (by simpa using h), bytes_append, bytes_append, bytes_intercalate]
  rfl

/-! ### Splitting -/

theorem splitComma_ne_nil (s : String) : splitComma s ≠ [] := by
  simp [splitComma]

theorem comma_notMem_of_mem_splitComma {s k : String} (h : k ∈ splitComma s) : ',' ∉ k.toList := by
  obtain ⟨w, hw, rfl⟩ := List.mem_map.mp h
  rw [String.toList_ofList]
  exact notMem_of_mem_splitOn hw

theorem intercalate_splitComma (s : String) : ",".intercalate (splitComma s) = s := by
  rw [← String.toList_inj, String.toList_intercalate, splitComma, List.map_map]
  have hid : String.toList ∘ String.ofList = id := funext fun l => String.toList_ofList
  rw [hid, List.map_id]
  exact List.intercalate_splitOn ','

theorem splitComma_of_notMem {s : String} (h : ',' ∉ s.toList) : splitComma s = [s] := by
  have hsplit : s.toList.splitOn ',' = [s.toList] := by
    have hone : ([','].intercalate [s.toList]).splitOn ',' = [s.toList] :=
      List.splitOn_intercalate ',' (by simpa using h) (by simp)
    simpa using hone
  rw [splitComma, hsplit, List.map_singleton, String.ofList_toList]

theorem splitComma_intercalate_iff {skills : List String} :
    splitComma (",".intercalate skills) = skills ↔ Encodable skills := by
  have hlists : splitComma (",".intercalate skills) = skills ↔
      ([','].intercalate (skills.map String.toList)).splitOn ',' = skills.map String.toList := by
    rw [splitComma, String.toList_intercalate]
    have hid : String.ofList ∘ String.toList = id := funext fun s => String.ofList_toList
    have hid' : String.toList ∘ String.ofList = id := funext fun l => String.toList_ofList
    constructor
    · intro h
      have hmap := congrArg (List.map String.toList) h
      rwa [List.map_map, hid', List.map_id] at hmap
    · intro h
      have hmap := congrArg (List.map String.ofList) h
      rwa [List.map_map, hid, List.map_id] at hmap
  rw [hlists, splitOn_intercalate_iff]
  simp [Encodable]

/-! ### The two readers -/

theorem reportedSkills_eq {r : Router} {a : String} {n : ℤ} (h : r.available.lookup a = some n) :
    r.reportedSkills a = some (splitComma ((r.skills a).getD "")) := by
  have hmem : (a, n) ∈ r.available.ranked := SortedSet.mem_ranked.mpr h
  have hsome : (r.getAllAgentsStatus.find? fun e => e.agent_id = a).isSome := by
    rw [List.find?_isSome]
    exact ⟨r.agentStatus a n, List.mem_map.mpr ⟨(a, n), hmem, rfl⟩, decide_eq_true rfl⟩
  obtain ⟨e, he⟩ := Option.isSome_iff_exists.mp hsome
  obtain ⟨p, -, rfl⟩ := List.mem_map.mp (List.mem_of_find?_eq_some he)
  have hagent := List.find?_some he
  have hp : p.1 = a := of_decide_eq_true hagent
  rw [reportedSkills, he, ← hp]
  rfl

theorem mem_takeWhile_concat {p : UInt8 → Bool} {l : List UInt8} {c d : UInt8}
    (h : c ∈ (l ++ [d]).takeWhile p) : c ∈ l.takeWhile p ∨ c = d := by
  rw [List.takeWhile_append] at h
  split at h
  · next hlen =>
    rw [(List.takeWhile_prefix p).eq_of_length hlen]
    obtain h | h := List.mem_append.mp h
    · exact Or.inl h
    · exact Or.inr (List.mem_singleton.mp ((List.takeWhile_prefix p).subset h))
  · exact Or.inl h

/-- The commas around a required skill do not make a pattern of it. -/
theorem literal_of_plain {s : String} (h : Plain s) : Literal (44 :: (bytes s ++ [44])) := by
  obtain h | h := h
  · refine Or.inl fun c hc => ?_
    rw [List.takeWhile_cons, if_pos (by decide)] at hc
    obtain rfl | hc := List.mem_cons.mp hc
    · decide
    · obtain hc | rfl := mem_takeWhile_concat hc
      · exact h c hc
      · decide
  · refine Or.inr ⟨by simp, ?_, fun c hc => ?_⟩
    · rw [← List.cons_append, List.getLast?_concat]
      decide
    · obtain rfl | hc := List.mem_cons.mp hc
      · decide
      · obtain hc | hc := List.mem_append.mp hc
        · exact h c hc
        · rw [List.mem_singleton.mp hc]
          decide

theorem bytes_required (s : String) :
    bytes ("," ++ s ++ ",") = wrap 44 ((splitComma s).map bytes) := by
  rw [← bytes_wrapped (splitComma_ne_nil s), intercalate_splitComma]

/-- A plain required skill is found where its pieces are consecutive skills. -/
theorem luaFind_iff {s : String} {skills : List String} (hs : Plain s) (hk : Encodable skills) :
    luaFind ("," ++ ",".intercalate skills ++ ",") ("," ++ s ++ ",") = some true ↔
      splitComma s <:+: skills := by
  have hliteral : Literal (bytes ("," ++ s ++ ",")) := by
    rw [bytes_append, bytes_append]
    exact literal_of_plain hs
  have hpieces : ∀ w ∈ (splitComma s).map bytes, 44 ∉ w := by
    refine List.forall_mem_map.mpr fun k hk => ?_
    exact fun h => comma_notMem_of_mem_splitComma hk (comma_mem_bytes.mp h)
  have hskills : ∀ w ∈ skills.map bytes, 44 ∉ w :=
    List.forall_mem_map.mpr fun k hin h => hk.2 k hin (comma_mem_bytes.mp h)
  have hsearch := wrap_infix_iff hpieces hskills
  rw [infix_map_iff_of_injective bytes_injective] at hsearch
  rw [luaFind, strFind_of_literal hliteral, bytes_required, bytes_wrapped hk.1, ← hsearch]
  simp [Except.toOption]

theorem hasSkill_agentGoOnline (r : Router) (a : String) (m : ℤ) (skills : List String)
    {s : String} (hs : s ≠ "") : (r.agentGoOnline a m skills).hasSkill luaFind s a =
      luaFind ("," ++ ",".intercalate skills ++ ",") ("," ++ s ++ ",") := by
  rw [hasSkill, if_neg hs]
  simp [agentGoOnline]

theorem reportedSkills_agentGoOnline_iff (r : Router) (a : String) (m : ℤ)
    (skills : List String) :
    (r.agentGoOnline a m skills).reportedSkills a = some skills ↔ Encodable skills := by
  have hmember : (r.agentGoOnline a m skills).available.lookup a = some 0 := AList.lookup_insert _
  rw [reportedSkills_eq hmember, Option.some.injEq, ← splitComma_intercalate_iff]
  simp [agentGoOnline]

/-- **The skill field, exactly.** Whatever skill is required, the readers are faithful only to a
list with a skill in it and no comma in any. For a plain required skill they are faithful to such a
list unless the required skill has commas and its pieces are consecutive skills of the list. -/
theorem faithful_iff (r : Router) (a : String) (m : ℤ) (skills : List String) {s : String}
    (hs : s ≠ "") :
    (Faithful (r.agentGoOnline a m skills) a skills s → Encodable skills) ∧
      (Plain s → (Faithful (r.agentGoOnline a m skills) a skills s ↔
        Encodable skills ∧ (',' ∈ s.toList → ¬splitComma s <:+: skills))) := by
  have hreport := reportedSkills_agentGoOnline_iff r a m skills
  refine ⟨fun h => hreport.mp h.2, fun hplain => ?_⟩
  rw [Faithful, hreport, hasSkill_agentGoOnline r a m skills hs, and_comm]
  refine and_congr_right fun hk => ?_
  rw [luaFind_iff hplain hk]
  by_cases hcomma : ',' ∈ s.toList
  · have hnone : s ∉ skills := fun hin => hk.2 s hin hcomma
    simp [hcomma, hnone]
  · rw [splitComma_of_notMem hcomma, singleton_infix_iff]
    simp [hcomma]

theorem faithful_iff_tech :
    Faithful (empty.agentGoOnline "agent-1" 3 ["billing", "tech"]) "agent-1" ["billing", "tech"]
      "tech" :=
  ((faithful_iff empty "agent-1" 3 ["billing", "tech"] (by decide)).2
    (by decide)).mpr ⟨⟨by decide, by decide⟩, by decide⟩

/-- An agent who can do `c++` is not found when `c++` is asked for: the pattern asks for some `c`
and then one `+`. -/
theorem not_faithful : ¬∀ (r : Router) (a : String) (m : ℤ) (skills : List String) (s : String),
    s ≠ "" → Faithful (r.agentGoOnline a m skills) a skills s := by
  intro h
  have hfound := (h empty "agent-1" 5 ["c++"] "c++" (by decide)).1.mpr List.mem_cons_self
  exact absurd hfound (by decide +kernel)

end Router

end TitanChat
