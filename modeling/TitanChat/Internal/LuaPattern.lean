import Mathlib.Data.List.Infix
import Mathlib.Data.List.TakeWhile

/-!
# Lua patterns

`string.find` of Lua 5.1, the interpreter inside Redis, on lists of bytes. The functions have the
names of those in the C library that they follow. A pattern is read item by item, and reading does
not depend on the text, so the items are read first: `items` gives the pattern as a list, in which a
malformed part is an item that fails when the matcher comes to it. The matcher is then a recursion
over the items. Where an item may match in several ways, `tries` lists the positions after it in the
order in which Lua tries them, and `firstMatch` takes the first that the rest of the pattern agrees
with.

Two things are easy to miss. A pattern in which none of the bytes `SPECIALS` occurs is not a pattern
at all: it is searched for as it stands, whatever else is in it. And `^` and `$` are ordinary bytes
except at the two ends.

## Main definitions

* `next`, `items`: reading a pattern
* `matchItems`: matching at one position
* `strFind`: `string.find`, whether it finds anything

## Main results

* `strFind_of_literal`: a pattern without magic bytes is searched for as it stands
-/

namespace LuaPattern

/-! ### Bytes and classes -/

/-- The bytes `^$*+?.([%-`. -/
def SPECIALS : List UInt8 := [94, 36, 42, 43, 63, 46, 40, 91, 37, 45]

def isLower (c : UInt8) : Bool := 97 ≤ c && c ≤ 122
def isUpper (c : UInt8) : Bool := 65 ≤ c && c ≤ 90
def isDigit (c : UInt8) : Bool := 48 ≤ c && c ≤ 57
def isAlpha (c : UInt8) : Bool := isLower c || isUpper c
def isAlnum (c : UInt8) : Bool := isAlpha c || isDigit c
def isCntrl (c : UInt8) : Bool := c < 32 || c = 127
def isSpace (c : UInt8) : Bool := (9 ≤ c && c ≤ 13) || c = 32
def isPunct (c : UInt8) : Bool := 33 ≤ c && c ≤ 126 && !isAlnum c
def isXdigit (c : UInt8) : Bool := isDigit c || (97 ≤ c && c ≤ 102) || (65 ≤ c && c ≤ 70)
def toLower (c : UInt8) : UInt8 := if isUpper c then c + 32 else c

/-- `match_class`: the byte `c` and the class `%cl`. An upper-case class is the complement, and a
byte that names no class stands for itself. -/
def matchClass (c cl : UInt8) : Bool :=
  let res : Option Bool :=
    match toLower cl with
    | 97 => some (isAlpha c)
    | 99 => some (isCntrl c)
    | 100 => some (isDigit c)
    | 108 => some (isLower c)
    | 112 => some (isPunct c)
    | 115 => some (isSpace c)
    | 117 => some (isUpper c)
    | 119 => some (isAlnum c)
    | 120 => some (isXdigit c)
    | 122 => some (c = 0)
    | _ => none
  match res with
  | some b => if isLower cl then b else !b
  | none => cl = c

/-- The members of a set: escaped classes, ranges, single bytes. -/
def inSet (c : UInt8) : List UInt8 → Bool
  | [] => false
  | 37 :: d :: m => matchClass c d || inSet c m
  | lo :: 45 :: hi :: m => (lo ≤ c && c ≤ hi) || inSet c m
  | d :: m => d = c || inSet c m

/-- The part of a pattern up to the `]` of a set, and what comes after it. The first byte cannot be
that `]`, and an escaped byte is skipped. -/
def setMembers : List UInt8 → Option (List UInt8 × List UInt8)
  | [] => none
  | 37 :: d :: p =>
    match p with
    | 93 :: rest => some ([37, d], rest)
    | p => (setMembers p).map fun (m, rest) => (37 :: d :: m, rest)
  | d :: p =>
    match p with
    | 93 :: rest => some ([d], rest)
    | p => (setMembers p).map fun (m, rest) => (d :: m, rest)

/-- `matchbracketclass`, with the part of the pattern after the set. -/
def bracketClass : List UInt8 → Option ((UInt8 → Bool) × List UInt8)
  | 94 :: p => (setMembers p).map fun (m, rest) => (fun c => !inSet c m, rest)
  | p => (setMembers p).map fun (m, rest) => (fun c => inSet c m, rest)

/-! ### Reading a pattern -/

/-- The errors that `string.find` raises. -/
inductive Fault where
  | endsWithPercent
  | missingBracket
  | unbalanced
  | missingFrontierSet
  | invalidCapture
  | invalidCaptureIndex
  | tooManyCaptures
  | unfinishedCapture
  deriving DecidableEq, Repr

/-- How often a single-byte item may match. -/
inductive Rep where
  | one
  | optional
  | star
  | plus
  /-- `-`, as few as possible. -/
  | fewest
  deriving DecidableEq, Repr

inductive Item where
  | single (test : UInt8 → Bool) (rep : Rep)
  | startCapture
  | position
  | endCapture
  | balance (b e : UInt8)
  | frontier (test : UInt8 → Bool)
  | back (digit : UInt8)
  | atEnd
  | fault (f : Fault)

/-- The quantifier after a single-byte item. -/
def quantifier : List UInt8 → Rep × List UInt8
  | 63 :: p => (.optional, p)
  | 42 :: p => (.star, p)
  | 43 :: p => (.plus, p)
  | 45 :: p => (.fewest, p)
  | p => (.one, p)

/-- A single-byte item with its quantifier. -/
def quantified (test : UInt8 → Bool) (p : List UInt8) : Item × List UInt8 :=
  (.single test (quantifier p).1, (quantifier p).2)

/-- The first item of a pattern, and the pattern after it. Nothing is read after a fault. -/
def next : List UInt8 → Option (Item × List UInt8)
  | [] => none
  | 40 :: 41 :: p => some (.position, p)
  | 40 :: p => some (.startCapture, p)
  | 41 :: p => some (.endCapture, p)
  | [36] => some (.atEnd, [])
  | [37] => some (.fault .endsWithPercent, [])
  | 37 :: 98 :: p =>
    match p with
    | b :: e :: p => some (.balance b e, p)
    | _ => some (.fault .unbalanced, [])
  | 37 :: 102 :: p =>
    match p with
    | 91 :: p =>
      match bracketClass p with
      | some (test, p) => some (.frontier test, p)
      | none => some (.fault .missingBracket, [])
    | _ => some (.fault .missingFrontierSet, [])
  | 37 :: d :: p => some (if isDigit d then (.back d, p) else quantified (matchClass · d) p)
  | 91 :: p =>
    match bracketClass p with
    | some (test, p) => some (quantified test p)
    | none => some (.fault .missingBracket, [])
  | 46 :: p => some (quantified (fun _ => true) p)
  | d :: p => some (quantified (· = d) p)

theorem length_setMembers {p m rest : List UInt8} (h : setMembers p = some (m, rest)) :
    rest.length < p.length := by
  fun_induction setMembers p generalizing m with
  | case1 => simp at h
  | case2 d rest' =>
    obtain ⟨-, rfl⟩ := Prod.mk.inj (Option.some.inj h)
    simp only [List.length_cons]
    omega
  | case3 d p hp ih =>
    obtain ⟨⟨m', rest'⟩, hm, heq⟩ := Option.map_eq_some_iff.mp h
    obtain ⟨-, rfl⟩ := Prod.mk.inj heq
    have hlt := ih hm
    simp only [List.length_cons]
    omega
  | case4 d hd rest' =>
    obtain ⟨-, rfl⟩ := Prod.mk.inj (Option.some.inj h)
    simp only [List.length_cons]
    omega
  | case5 d hd p hp ih =>
    obtain ⟨⟨m', rest'⟩, hm, heq⟩ := Option.map_eq_some_iff.mp h
    obtain ⟨-, rfl⟩ := Prod.mk.inj heq
    have hlt := ih hm
    simp only [List.length_cons]
    omega

theorem length_bracketClass {p rest : List UInt8} {test : UInt8 → Bool}
    (h : bracketClass p = some (test, rest)) : rest.length < p.length := by
  unfold bracketClass at h
  split at h
  · obtain ⟨⟨m, rest'⟩, hm, heq⟩ := Option.map_eq_some_iff.mp h
    obtain ⟨-, rfl⟩ := Prod.mk.inj heq
    exact (length_setMembers hm).trans (Nat.lt_succ_self _)
  · obtain ⟨⟨m, rest'⟩, hm, heq⟩ := Option.map_eq_some_iff.mp h
    obtain ⟨-, rfl⟩ := Prod.mk.inj heq
    exact length_setMembers hm

theorem length_quantifier (p : List UInt8) : (quantifier p).2.length ≤ p.length := by
  unfold quantifier
  split <;> simp

theorem length_quantified {test : UInt8 → Bool} {p rest : List UInt8} {item : Item}
    (h : some (quantified test p) = some (item, rest)) : rest.length ≤ p.length := by
  obtain ⟨-, rfl⟩ := Prod.mk.inj (Option.some.inj h)
  exact length_quantifier p

theorem length_next {p rest : List UInt8} {item : Item} (h : next p = some (item, rest)) :
    rest.length < p.length := by
  have hread : ∀ {p' : List UInt8} {item' : Item}, some (item', p') = some (item, rest) →
      rest = p' := fun heq => (Prod.mk.inj (Option.some.inj heq)).2.symm
  unfold next at h
  split at h
  · exact absurd h.symm (Option.some_ne_none _)
  · rw [hread h]
    simp only [List.length_cons]
    omega
  · rw [hread h]
    simp
  · rw [hread h]
    simp
  · rw [hread h]
    simp
  · rw [hread h]
    simp
  · split at h
    all_goals rw [hread h]
    all_goals simp only [List.length_cons, List.length_nil]
    all_goals omega
  · split at h
    · split at h
      · next hset =>
        rw [hread h]
        have hlt := length_bracketClass hset
        simp only [List.length_cons]
        omega
      · rw [hread h]
        simp
    · rw [hread h]
      simp
  · split at h
    · rw [hread h]
      simp only [List.length_cons]
      omega
    · have hle := length_quantified h
      simp only [List.length_cons]
      omega
  · split at h
    · next hset =>
      have hlt := length_bracketClass hset
      have hle := length_quantified h
      simp only [List.length_cons]
      omega
    · rw [hread h]
      simp
  · exact Nat.lt_succ_of_le (length_quantified h)
  · exact Nat.lt_succ_of_le (length_quantified h)

/-- The items of a pattern. -/
def items (p : List UInt8) : List Item :=
  match _h : next p with
  | none => []
  | some (item, rest) => item :: items rest
termination_by p.length
decreasing_by exact length_next ‹_›

/-! ### Matching -/

/-- How long a capture is. -/
inductive Len where
  | unfinished
  | position
  | closed (n : ℕ)
  deriving DecidableEq, Repr

structure Capture where
  init : ℕ
  len : Len
  deriving DecidableEq, Repr

/-- `LUA_MAXCAPTURES` -/
def MAXCAPTURES : ℕ := 32

/-- The first success of `f`, in order. An error ends the search. -/
def firstMatch {α : Type*} (f : ℕ → Except Fault (Option α)) : List ℕ → Except Fault (Option α)
  | [] => .ok none
  | s :: ss =>
    match f s with
    | .ok none => firstMatch f ss
    | r => r

/-- How many bytes from position `s` on pass the test. -/
def runLength (src : List UInt8) (test : UInt8 → Bool) (s : ℕ) : ℕ :=
  ((src.drop s).takeWhile test).length

/-- The positions after a single-byte item at `s` of which `k` bytes in a row pass the test, in the
order in which they are tried (`max_expand`, `min_expand`). -/
def tries (rep : Rep) (k s : ℕ) : List ℕ :=
  match rep with
  | .one => if k = 0 then [] else [s + 1]
  | .optional => if k = 0 then [s] else [s + 1, s]
  | .star => ((List.range (k + 1)).map (s + ·)).reverse
  | .plus => ((List.range k).map (s + 1 + ·)).reverse
  | .fewest => (List.range (k + 1)).map (s + ·)

/-- `matchbalance`: from inside `cont` pairs, where the outermost is closed. -/
def closing (b e : UInt8) (cont : ℕ) : List UInt8 → ℕ → Option ℕ
  | [], _ => none
  | c :: cs, s =>
    if c = e then
      if cont = 1 then some (s + 1) else closing b e (cont - 1) cs (s + 1)
    else closing b e (if c = b then cont + 1 else cont) cs (s + 1)

/-- `end_capture`: the latest capture that is open ends here. The latest capture is first. -/
def closeCapture (s : ℕ) : List Capture → Option (List Capture)
  | [] => none
  | c :: cs =>
    if c.len = .unfinished then some ({ c with len := .closed (s - c.init) } :: cs)
    else (closeCapture s cs).map (c :: ·)

/-- `match_capture`: the text of an earlier capture, again. -/
def matchCapture (src : List UInt8) (s : ℕ) (digit : UInt8) (captures : List Capture) :
    Except Fault (Option ℕ) :=
  if digit = 48 then .error .invalidCaptureIndex
  else match captures.reverse[digit.toNat - 49]? with
    | none | some ⟨_, .unfinished⟩ => .error .invalidCaptureIndex
    | some ⟨_, .position⟩ => .ok none
    | some ⟨init, .closed n⟩ =>
      .ok (if (src.drop init).take n <+: src.drop s then some (s + n) else none)

/-- `match`: the items against the text from position `s` on. The result is where the match ends,
and its captures. -/
def matchItems (src : List UInt8) :
    List Item → ℕ → List Capture → Except Fault (Option (ℕ × List Capture))
  | [], s, captures => .ok (some (s, captures))
  | .single test rep :: rest, s, captures =>
    firstMatch (fun s' => matchItems src rest s' captures) (tries rep (runLength src test s) s)
  | .startCapture :: rest, s, captures =>
    if MAXCAPTURES ≤ captures.length then .error .tooManyCaptures
    else matchItems src rest s (⟨s, .unfinished⟩ :: captures)
  | .position :: rest, s, captures =>
    if MAXCAPTURES ≤ captures.length then .error .tooManyCaptures
    else matchItems src rest s (⟨s, .position⟩ :: captures)
  | .endCapture :: rest, s, captures =>
    match closeCapture s captures with
    | none => .error .invalidCapture
    | some captures => matchItems src rest s captures
  | .balance b e :: rest, s, captures =>
    if src[s]? = some b then
      match closing b e 1 (src.drop (s + 1)) (s + 1) with
      | none => .ok none
      | some s' => matchItems src rest s' captures
    else .ok none
  | .frontier test :: rest, s, captures =>
    -- a position before the text or after it counts as the byte 0
    let previous := if s = 0 then 0 else src.getD (s - 1) 0
    if test previous || !test (src.getD s 0) then .ok none else matchItems src rest s captures
  | .back digit :: rest, s, captures =>
    match matchCapture src s digit captures with
    | .error f => .error f
    | .ok none => .ok none
    | .ok (some s') => matchItems src rest s' captures
  | .atEnd :: rest, s, captures =>
    if s = src.length then matchItems src rest s captures else .ok none
  | .fault f :: _, _, _ => .error f

/-- A match from position `s` on, if all its captures are finished. -/
def matchAt (src : List UInt8) (pattern : List Item) (s : ℕ) : Except Fault (Option Unit) :=
  match matchItems src pattern s [] with
  | .error f => .error f
  | .ok none => .ok none
  | .ok (some (_, captures)) =>
    if captures.any (·.len = .unfinished) then .error .unfinishedCapture else .ok (some ())

/-- `string.find(src, p)`: whether it finds anything. The matcher takes a zero byte for the end of
the pattern; the plain search does not. -/
def strFind (src p : List UInt8) : Except Fault Bool :=
  let text := p.takeWhile (· ≠ 0)
  if text.all (· ∉ SPECIALS) then .ok (decide (p <:+: src))
  else
    let found := match text with
      | 94 :: text => firstMatch (matchAt src (items text)) [0]
      | text => firstMatch (matchAt src (items text)) (List.range (src.length + 1))
    found.map Option.isSome

/-! ### Patterns without magic -/

/-- The bytes `*+?.()[%-`, which mean something wherever they stand in a pattern. -/
def MAGIC : List UInt8 := [42, 43, 63, 46, 40, 41, 91, 37, 45]

/-- The pattern stands for itself: it is not read as a pattern, or has nothing that is magic where
it stands. -/
def Literal (p : List UInt8) : Prop :=
  (∀ c ∈ p.takeWhile (· ≠ 0), c ∉ SPECIALS) ∨
    (p.head? ≠ some 94 ∧ p.getLast? ≠ some 36 ∧ ∀ c ∈ p, c ≠ 0 ∧ c ∉ MAGIC)

/-- The item that matches one byte. -/
def byte (c : UInt8) : Item := .single (· = c) .one

theorem quantifier_of_literal {p : List UInt8} (h : ∀ c ∈ p, c ∉ MAGIC) :
    quantifier p = (.one, p) := by
  cases p with
  | nil => rfl
  | cons c q =>
    have hc := h c List.mem_cons_self
    simp only [MAGIC, List.mem_cons, List.not_mem_nil, or_false, not_or] at hc
    simp [quantifier, hc]

theorem next_of_literal {c : UInt8} {p : List UInt8} (h : ∀ d ∈ c :: p, d ∉ MAGIC)
    (hend : (c :: p).getLast? ≠ some 36) : next (c :: p) = some (byte c, p) := by
  obtain ⟨hc, hp⟩ := List.forall_mem_cons.mp h
  have hread : next (c :: p) = some (quantified (· = c) p) := by
    simp only [MAGIC, List.mem_cons, List.not_mem_nil, or_false, not_or] at hc
    by_cases h36 : c = 36
    · subst h36
      cases p with
      | nil => simp at hend
      | cons d p => simp [next]
    · simp [next, hc, h36]
  rw [hread, quantified, quantifier_of_literal hp]
  rfl

theorem items_of_literal {p : List UInt8} (h : ∀ c ∈ p, c ∉ MAGIC) (hend : p.getLast? ≠ some 36) :
    items p = p.map byte := by
  induction p with
  | nil => rw [items]; rfl
  | cons c p ih =>
    have hend' : p.getLast? ≠ some 36 := by
      cases p with
      | nil => simp
      | cons d p => simpa using hend
    rw [items, next_of_literal h hend, List.map_cons]
    exact congrArg _ (ih (fun d hd => h d (List.mem_cons_of_mem _ hd)) hend')

/-- A search that meets no error. -/
theorem firstMatch_of_ok {α : Type*} {f : ℕ → Except Fault (Option α)} {g : ℕ → Option α}
    (h : ∀ s, f s = .ok (g s)) (ss : List ℕ) : firstMatch f ss = .ok (ss.findSome? g) := by
  induction ss with
  | nil => rfl
  | cons s ss ih =>
    rw [firstMatch, h s, List.findSome?_cons]
    cases g s with
    | none => exact ih
    | some a => rfl

theorem matchItems_of_literal (src : List UInt8) (p : List UInt8) (s : ℕ)
    (captures : List Capture) : matchItems src (p.map byte) s captures =
      .ok (if p <+: src.drop s then some (s + p.length, captures) else none) := by
  induction p generalizing s with
  | nil => simp [matchItems]
  | cons c p ih =>
    rw [List.map_cons, byte, matchItems]
    simp only [ih]
    cases hdrop : src.drop s with
    | nil => simp [tries, runLength, hdrop, firstMatch]
    | cons d rest =>
      have hrest : src.drop (s + 1) = rest := by
        rw [← List.drop_drop, hdrop, List.drop_one, List.tail_cons]
      by_cases hd : d = c
      · subst hd
        simp only [tries, runLength, hdrop, List.takeWhile_cons, decide_true, if_true,
          List.length_cons, Nat.succ_ne_zero, if_false, firstMatch, hrest]
        by_cases hp : p <+: rest
        · simp [hp, Nat.add_assoc, Nat.add_comm 1]
        · simp [hp]
      · have hprefix : ¬(c :: p <+: d :: rest) := by
          simp [List.cons_prefix_cons, Ne.symm hd]
        simp [tries, runLength, hdrop, hd, hprefix, firstMatch]

/-- Where an infix begins. -/
theorem infix_iff_exists_drop {α : Type*} {p l : List α} :
    p <:+: l ↔ ∃ s ∈ List.range (l.length + 1), p <+: l.drop s := by
  constructor
  · rintro ⟨front, back, rfl⟩
    refine ⟨front.length, ?_, back, ?_⟩
    · simp only [List.mem_range, List.length_append]
      omega
    · simp [List.append_assoc]
  · rintro ⟨s, -, hp⟩
    exact hp.isInfix.trans (List.drop_suffix s l).isInfix

/-- **A pattern without magic** is searched for as it stands. -/
theorem strFind_of_literal {p : List UInt8} (h : Literal p) (src : List UInt8) :
    strFind src p = .ok (decide (p <:+: src)) := by
  have hplain : (∀ c ∈ p.takeWhile (· ≠ 0), c ∉ SPECIALS) →
      strFind src p = .ok (decide (p <:+: src)) := by
    intro hp
    have hall : (p.takeWhile (· ≠ 0)).all (· ∉ SPECIALS) = true := by
      rw [List.all_eq_true]
      exact fun c hc => decide_eq_true (hp c hc)
    simp only [strFind, hall, if_true]
  obtain hp | ⟨hfirst, hlast, hp⟩ := h
  · exact hplain hp
  · have htext : p.takeWhile (· ≠ 0) = p :=
      List.takeWhile_eq_self_iff.mpr fun c hc => by simpa using (hp c hc).1
    by_cases hall : p.all (· ∉ SPECIALS) = true
    · refine hplain fun c hc => ?_
      rw [htext] at hc
      simpa using List.all_eq_true.mp hall c hc
    · have hmatch : ∀ s, matchAt src (items p) s =
          .ok (if p <+: src.drop s then some () else none) := by
        intro s
        rw [matchAt, items_of_literal (fun c hc => (hp c hc).2) hlast, matchItems_of_literal]
        split <;> simp_all
      have hstart : strFind src p =
          (firstMatch (matchAt src (items p)) (List.range (src.length + 1))).map Option.isSome := by
        simp only [strFind, htext, hall, if_false, Bool.false_eq_true]
        split
        · simp at hfirst
        · rfl
      have hfound : ((List.range (src.length + 1)).findSome? fun s =>
          if p <+: src.drop s then some () else none).isSome = decide (p <:+: src) := by
        rw [Bool.eq_iff_iff, List.findSome?_isSome_iff, decide_eq_true_eq, infix_iff_exists_drop]
        simp
      rw [hstart, firstMatch_of_ok hmatch, ← hfound]
      rfl

end LuaPattern
