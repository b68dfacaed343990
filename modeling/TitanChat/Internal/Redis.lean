import Mathlib
import TitanChat.Internal.Json
import TitanChat.Internal.SortedSet

/-!
# A typed store under string keys

Redis keeps values of several types under keys that are strings, and a command on a key that holds
a value of another type is an error. A collection that becomes empty is no longer there, and a
command on a missing key finds an empty one.

A program that builds its keys from names relies on two things: no two names give one key, and each
key is used at one type. Both are about all programs on the store together. Here the first is an
injective function `name` from abstract keys to strings. Then a program on the strings does what it
says on the abstract keys (`Does`), one command after another, and what is left to check is a
function of abstract keys.

Scores are integers. Expiry is not part of this file: a key that expires is deleted.

## Main definitions

* `Value`, `Store`, `Command`, `exec`
* `Named`: a store that has the values of some abstract keys, and nothing else
* `Does`: what a program does to such a store

## Main results

* `Does.exec`, `Does.bind`: commands one after another
-/

namespace Redis

/-! ### Values -/

/-- A value, by its type. -/
inductive Value where
  | string (s : String)
  | hash (h : Dict String)
  | set (s : Finset String)
  | zset (z : SortedSet String ℤ)

inductive Error where
  | wrongType
  | notAnInteger
  deriving DecidableEq

/-- A collection without elements does not exist. -/
def ofHash (h : Dict String) : Option Value := if h.entries.isEmpty then none else some (.hash h)

def ofSet (s : Finset String) : Option Value := if s = ∅ then none else some (.set s)

def ofZset (z : SortedSet String ℤ) : Option Value :=
  if z.entries.isEmpty then none else some (.zset z)

/-- The value as a string, if there is one. -/
def asString : Option Value → Except Error (Option String)
  | none => .ok none
  | some (.string s) => .ok (some s)
  | _ => .error .wrongType

def asHash : Option Value → Except Error (Dict String)
  | none => .ok ∅
  | some (.hash h) => .ok h
  | _ => .error .wrongType

def asSet : Option Value → Except Error (Finset String)
  | none => .ok ∅
  | some (.set s) => .ok s
  | _ => .error .wrongType

def asZset : Option Value → Except Error (SortedSet String ℤ)
  | none => .ok ∅
  | some (.zset z) => .ok z
  | _ => .error .wrongType

@[simp] theorem asString_map (s : Option String) : asString (s.map .string) = .ok s := by
  cases s <;> rfl

@[simp] theorem asHash_ofHash (h : Dict String) : asHash (ofHash h) = .ok h := by
  rw [ofHash]
  split
  · next hempty => exact congrArg _ (AList.ext (List.isEmpty_iff.mp hempty)).symm
  · rfl

@[simp] theorem asSet_ofSet (s : Finset String) : asSet (ofSet s) = .ok s := by
  rw [ofSet]
  split
  · next hempty => rw [hempty]; rfl
  · rfl

@[simp] theorem asZset_ofZset (z : SortedSet String ℤ) : asZset (ofZset z) = .ok z := by
  rw [ofZset]
  split
  · next hempty => exact congrArg _ (AList.ext (List.isEmpty_iff.mp hempty)).symm
  · rfl

/-! ### Commands -/

/-- A command on one key: its reply, and what it makes of the value. -/
abbrev Command (ρ : Type) : Type := Option Value → Except Error (ρ × Option Value)

section Commands

def get : Command (Option String) := fun v => (asString v).map fun s => (s, v)

/-- `SET` replaces a value of any type. -/
def set (s : String) : Command Unit := fun _ => .ok ((), some (.string s))

def del : Command Unit := fun _ => .ok ((), none)

/-- `EXPIRE` says whether the key exists. -/
def expire : Command Bool := fun v => .ok (v.isSome, v)

/-- `INCR` creates the key with the value 1. -/
def incr : Command ℕ := fun v =>
  (asString v).bind fun s =>
    match s with
    | none => .ok (1, some (.string (1 : ℕ).repr))
    | some s =>
      match s.toNat? with
      | some n => .ok (n + 1, some (.string (n + 1).repr))
      | none => .error .notAnInteger

def hget (field : String) : Command (Option String) :=
  fun v => (asHash v).map fun h => (h.lookup field, v)

def hgetall : Command (Dict String) := fun v => (asHash v).map fun h => (h, v)

/-- `HSET` with some fields. -/
def hset (mapping : List (String × String)) : Command Unit :=
  fun v => (asHash v).map fun h =>
    ((), ofHash (mapping.foldl (fun h f => h.insert f.1 f.2) h))

def hdel (field : String) : Command Unit :=
  fun v => (asHash v).map fun h => ((), ofHash (h.erase field))

def sadd (member : String) : Command Unit :=
  fun v => (asSet v).map fun s => ((), ofSet (insert member s))

def srem (member : String) : Command Unit :=
  fun v => (asSet v).map fun s => ((), ofSet (s.erase member))

def smembers : Command (Finset String) := fun v => (asSet v).map fun s => (s, v)

def scard : Command ℕ := fun v => (asSet v).map fun s => (s.card, v)

def zadd (member : String) (score : ℤ) : Command Unit :=
  fun v => (asZset v).map fun z => ((), ofZset (z.insert member score))

def zrem (member : String) : Command Unit :=
  fun v => (asZset v).map fun z => ((), ofZset (z.erase member))

def zincrby (amount : ℤ) (member : String) : Command Unit :=
  fun v => (asZset v).map fun z => ((), ofZset (z.incrBy amount member))

/-- `ZRANGEBYSCORE key lo +inf WITHSCORES`. -/
def zrangebyscore (lo : ℤ) : Command (List (String × ℤ)) :=
  fun v => (asZset v).map fun z => (z.rangeFrom lo, v)

/-- `ZRANGEBYSCORE key -inf +inf WITHSCORES`. -/
def zranked : Command (List (String × ℤ)) := fun v => (asZset v).map fun z => (z.ranked, v)

def zrange (start stop : ℤ) : Command (List String) :=
  fun v => (asZset v).map fun z => (z.zrange start stop, v)

def zrevrange (start stop : ℤ) : Command (List String) :=
  fun v => (asZset v).map fun z => (z.zrevrange start stop, v)

section Replies

variable (s : Option String) (h : Dict String) (t : Finset String) (z : SortedSet String ℤ)

@[simp] theorem get_map : get (s.map .string) = .ok (s, s.map .string) := by
  rw [get, asString_map]; rfl

@[simp] theorem incr_map (n : Option ℕ) : incr ((n.map Nat.repr).map .string) =
    .ok (n.getD 0 + 1, some (.string (n.getD 0 + 1).repr)) := by
  rw [incr, asString_map]
  cases n with
  | none => rfl
  | some n => simp [Except.bind, Nat.toNat?_repr]

@[simp] theorem hget_ofHash (field : String) :
    hget field (ofHash h) = .ok (h.lookup field, ofHash h) := by
  rw [hget, asHash_ofHash]; rfl

@[simp] theorem hgetall_ofHash : hgetall (ofHash h) = .ok (h, ofHash h) := by
  rw [hgetall, asHash_ofHash]; rfl

@[simp] theorem hset_ofHash (mapping : List (String × String)) : hset mapping (ofHash h) =
    .ok ((), ofHash (mapping.foldl (fun h f => h.insert f.1 f.2) h)) := by
  rw [hset, asHash_ofHash]; rfl

@[simp] theorem hdel_ofHash (field : String) :
    hdel field (ofHash h) = .ok ((), ofHash (h.erase field)) := by
  rw [hdel, asHash_ofHash]; rfl

@[simp] theorem sadd_ofSet (member : String) :
    sadd member (ofSet t) = .ok ((), ofSet (insert member t)) := by
  rw [sadd, asSet_ofSet]; rfl

@[simp] theorem srem_ofSet (member : String) :
    srem member (ofSet t) = .ok ((), ofSet (t.erase member)) := by
  rw [srem, asSet_ofSet]; rfl

@[simp] theorem smembers_ofSet : smembers (ofSet t) = .ok (t, ofSet t) := by
  rw [smembers, asSet_ofSet]; rfl

@[simp] theorem scard_ofSet : scard (ofSet t) = .ok (t.card, ofSet t) := by
  rw [scard, asSet_ofSet]; rfl

@[simp] theorem zadd_ofZset (member : String) (score : ℤ) :
    zadd member score (ofZset z) = .ok ((), ofZset (z.insert member score)) := by
  rw [zadd, asZset_ofZset]; rfl

@[simp] theorem zrem_ofZset (member : String) :
    zrem member (ofZset z) = .ok ((), ofZset (z.erase member)) := by
  rw [zrem, asZset_ofZset]; rfl

@[simp] theorem zincrby_ofZset (amount : ℤ) (member : String) :
    zincrby amount member (ofZset z) = .ok ((), ofZset (z.incrBy amount member)) := by
  rw [zincrby, asZset_ofZset]; rfl

@[simp] theorem zrangebyscore_ofZset (lo : ℤ) :
    zrangebyscore lo (ofZset z) = .ok (z.rangeFrom lo, ofZset z) := by
  rw [zrangebyscore, asZset_ofZset]; rfl

@[simp] theorem zranked_ofZset : zranked (ofZset z) = .ok (z.ranked, ofZset z) := by
  rw [zranked, asZset_ofZset]; rfl

@[simp] theorem zrange_ofZset (start stop : ℤ) :
    zrange start stop (ofZset z) = .ok (z.zrange start stop, ofZset z) := by
  rw [zrange, asZset_ofZset]; rfl

@[simp] theorem zrevrange_ofZset (start stop : ℤ) :
    zrevrange start stop (ofZset z) = .ok (z.zrevrange start stop, ofZset z) := by
  rw [zrevrange, asZset_ofZset]; rfl

end Replies

end Commands

/-! ### Programs -/

/-- What is stored under each key. -/
abbrev Store (K : Type) : Type := K → Option Value

/-- Commands one after another. An error ends the program. -/
abbrev Program (α : Type) : Type := StateT (Store String) (Except Error) α

/-- One command. -/
def exec {ρ : Type} (key : String) (c : Command ρ) : Program ρ :=
  fun st => (c (st key)).map fun r => (r.1, Function.update st key r.2)

variable {K : Type} {name : K → String}

/-- The store has the values of the abstract keys under their names, and nothing else. -/
structure Named (name : K → String) (st : Store String) (f : Store K) : Prop where
  value : ∀ k, st (name k) = f k
  other : ∀ key, (∀ k, name k ≠ key) → st key = none

/-- The program succeeds and changes the values of the abstract keys from `f` to `g`. -/
def Does {α : Type} (name : K → String) (p : Program α) (f : Store K) (a : α) (g : Store K) :
    Prop :=
  ∀ st, Named name st f → ∃ st', p.run st = .ok (a, st') ∧ Named name st' g

namespace Does

variable {α β : Type} {f g h : Store K}

theorem pure (a : α) (h : f = g) : Does name (Pure.pure a) f a g :=
  fun st hst => ⟨st, rfl, h ▸ hst⟩

theorem bind {p : Program α} {q : α → Program β} {a : α} {b : β} (hp : Does name p f a g)
    (hq : Does name (q a) g b h) : Does name (p >>= q) f b h := by
  intro st hst
  obtain ⟨st₁, hrun₁, hst₁⟩ := hp st hst
  obtain ⟨st₂, hrun₂, hst₂⟩ := hq st₁ hst₁
  refine ⟨st₂, ?_, hst₂⟩
  rw [StateT.run_bind, hrun₁]
  exact hrun₂

/-- **One command**, on the name of a key. -/
theorem exec [DecidableEq K] (hname : Function.Injective name) {ρ : Type} {c : Command ρ} (k : K)
    {r : ρ} {v : Option Value} (h : c (f k) = .ok (r, v)) :
    Does name (Redis.exec (name k) c) f r (Function.update f k v) := by
  intro st hst
  refine ⟨Function.update st (name k) v, ?_, fun k' => ?_, fun key hkey => ?_⟩
  · show (c (st (name k))).map _ = _
    rw [hst.value, h]
    rfl
  · by_cases hk : k' = k
    · rw [hk, Function.update_self, Function.update_self]
    · rw [Function.update_of_ne (hname.ne hk), Function.update_of_ne hk, hst.value]
  · rw [Function.update_of_ne (hkey k).symm, hst.other key hkey]

/-- A command that only reads. -/
theorem read [DecidableEq K] (hname : Function.Injective name) {ρ : Type} {c : Command ρ} (k : K)
    {r : ρ} (h : c (f k) = .ok (r, f k)) : Does name (Redis.exec (name k) c) f r f := by
  have hexec := exec hname k h
  rwa [Function.update_eq_self] at hexec

theorem map {p : Program α} {a : α} (hp : Does name p f a g) (φ : α → β) :
    Does name (φ <$> p) f (φ a) g := by
  intro st hst
  obtain ⟨st', hrun, hst'⟩ := hp st hst
  refine ⟨st', ?_, hst'⟩
  rw [StateT.run_map, hrun]
  rfl

end Does

/-- The store without keys. -/
theorem named_empty (name : K → String) : Named name (fun _ => none) fun _ => none :=
  ⟨fun _ => rfl, fun _ _ => rfl⟩

end Redis
