import Mathlib.Algebra.Group.Int.Defs
import Mathlib.Data.List.AList
import Mathlib.Data.Rat.Defs

/-!
# JSON values and dictionaries

The values that a Python program reads from a JSON text, and the dictionaries it keeps them in. A
dictionary is an `AList`: keys are unique by construction, and merging two is their union.

Integers are unbounded, floats are exact rationals or one of the three special values. What the
wire format cannot carry is said by `Json.transit`, which is an encoding followed by a decoding:
integers must fit in 64 bits, the special floats arrive as `null`, and a value nested more than 254
levels deep is refused. An empty list is written without a level of its own, an empty object with
one.

## Main definitions

* `Json`, `Dict`
* `Json.truthy`, `Json.hashable`: what `or` and a dictionary lookup ask of a value
* `Json.transit`: through the wire and back

## Main results

* `Json.transit_of_carried`, `Json.transit_of_not_carried`: an object of strings and integers
  arrives unchanged, or not at all
* `Json.lookup_of_transit`: a dictionary arrives field by field
* `Json.eq_iff_of_carry`: which values arrive as they are
-/

/-- A dictionary with string keys. -/
abbrev Dict (ν : Type*) := AList fun _ : String => ν

/-- A Python `float`. -/
inductive PyFloat where
  | finite (q : ℚ)
  | nan
  | inf
  | negInf
  deriving DecidableEq

/-- A JSON value. -/
inductive Json where
  | null
  | bool (b : Bool)
  | int (i : ℤ)
  | float (x : PyFloat)
  | str (s : String)
  | arr (xs : List Json)
  | obj (kvs : List (String × Json))

namespace Json

/-- Python's truth value of a decoded JSON value. -/
def truthy : Json → Bool
  | null => false
  | bool b => b
  | int i => i ≠ 0
  | float x => x ≠ .finite 0
  | str s => s ≠ ""
  | arr xs => !xs.isEmpty
  | obj kvs => !kvs.isEmpty

/-- Lists and dictionaries cannot be looked up in a dictionary. -/
def hashable : Json → Bool
  | arr _ | obj _ => false
  | _ => true

/-- The dictionary of an object; of a key that the text repeats, the last value counts. -/
def dict? : Json → Option (Dict Json)
  | obj kvs => some (kvs.reverse.map fun kv => ⟨kv.1, kv.2⟩).toAList
  | _ => none

/-- A dictionary as a JSON object. -/
def ofDict (d : Dict Json) : Json := obj (d.entries.map fun e => (e.1, e.2))

mutual

/-- How deeply lists and objects are nested, as the encoder counts it. -/
def depth : Json → ℕ
  -- the encoder writes `[]` before it looks at the level
  | arr [] => 0
  | arr (x :: xs) => max x.depth (depthList xs) + 1
  | obj kvs => depthEntries kvs + 1
  | _ => 0

def depthList : List Json → ℕ
  | [] => 0
  | x :: xs => max x.depth (depthList xs)

def depthEntries : List (String × Json) → ℕ
  | [] => 0
  | (_, x) :: kvs => max x.depth (depthEntries kvs)

end

mutual

/-- What arrives of a value, with no bound on the nesting. -/
def carry : Json → Option Json
  | int i => if -2 ^ 63 ≤ i ∧ i < 2 ^ 64 then some (int i) else none
  | float (.finite q) => some (float (.finite q))
  | float _ => some null
  | arr xs => (carryList xs).map arr
  | obj kvs => (carryEntries kvs).map obj
  | null => some null
  | bool b => some (bool b)
  | str s => some (str s)

def carryList : List Json → Option (List Json)
  | [] => some []
  | x :: xs => x.carry.bind fun y => (carryList xs).map (y :: ·)

def carryEntries : List (String × Json) → Option (List (String × Json))
  | [] => some []
  | (k, x) :: kvs => x.carry.bind fun y => (carryEntries kvs).map ((k, y) :: ·)

end

/-- A value encoded and decoded again; `none` when it cannot be encoded. -/
def transit (j : Json) : Option Json := if j.depth ≤ 254 then j.carry else none

mutual

/-- The value has none of the special floats. -/
def finite : Json → Bool
  | float (.finite _) => true
  | float _ => false
  | arr xs => finiteList xs
  | obj kvs => finiteEntries kvs
  | _ => true

def finiteList : List Json → Bool
  | [] => true
  | x :: xs => x.finite && finiteList xs

def finiteEntries : List (String × Json) → Bool
  | [] => true
  | (_, x) :: kvs => x.finite && finiteEntries kvs

end

mutual

/-- **What arrives is what was sent**, if it arrives, exactly if there are no special floats in
it. -/
theorem eq_iff_of_carry {j j' : Json} (h : j.carry = some j') : j' = j ↔ j.finite := by
  cases j with
  | null | bool b | str s =>
    obtain rfl := Option.some.inj h
    exact iff_of_true rfl rfl
  | int i =>
    rw [carry] at h
    split at h
    · obtain rfl := Option.some.inj h
      exact iff_of_true rfl rfl
    · exact absurd h nofun
  | float x =>
    cases x with
    | finite q =>
      obtain rfl := Option.some.inj h
      exact iff_of_true rfl rfl
    | nan | inf | negInf =>
      obtain rfl := Option.some.inj h
      exact iff_of_false nofun nofun
  | arr xs =>
    obtain ⟨ys, hys, rfl⟩ := Option.map_eq_some_iff.mp h
    rw [arr.injEq, finite, eq_iff_of_carryList hys]
  | obj kvs =>
    obtain ⟨kvs', hkvs, rfl⟩ := Option.map_eq_some_iff.mp h
    rw [obj.injEq, finite, eq_iff_of_carryEntries hkvs]

theorem eq_iff_of_carryList {xs ys : List Json} (h : carryList xs = some ys) :
    ys = xs ↔ finiteList xs := by
  cases xs with
  | nil =>
    obtain rfl := Option.some.inj h
    exact iff_of_true rfl rfl
  | cons x xs =>
    obtain ⟨y, hy, h⟩ := Option.bind_eq_some_iff.mp h
    obtain ⟨ys, hys, rfl⟩ := Option.map_eq_some_iff.mp h
    rw [List.cons.injEq, finiteList, Bool.and_eq_true, eq_iff_of_carry hy, eq_iff_of_carryList hys]

theorem eq_iff_of_carryEntries {kvs kvs' : List (String × Json)}
    (h : carryEntries kvs = some kvs') : kvs' = kvs ↔ finiteEntries kvs := by
  cases kvs with
  | nil =>
    obtain rfl := Option.some.inj h
    exact iff_of_true rfl rfl
  | cons kv kvs =>
    obtain ⟨k, x⟩ := kv
    obtain ⟨y, hy, h⟩ := Option.bind_eq_some_iff.mp h
    obtain ⟨ys, hys, rfl⟩ := Option.map_eq_some_iff.mp h
    rw [List.cons.injEq, Prod.mk.injEq, finiteEntries, Bool.and_eq_true, eq_iff_of_carry hy,
      eq_iff_of_carryEntries hys, and_iff_right rfl]

end

/-! ### Objects of strings and integers -/

/-- A string or an integer. -/
def Scalar (j : Json) : Prop := (∃ s, j = str s) ∨ ∃ i, j = int i

/-- The integer fits in 64 bits, with or without a sign. -/
def Wide (i : ℤ) : Prop := -2 ^ 63 ≤ i ∧ i < 2 ^ 64

instance (i : ℤ) : Decidable (Wide i) := inferInstanceAs (Decidable (_ ∧ _))

/-- A scalar that arrives. -/
def Carried (j : Json) : Prop := ∀ i, j = int i → Wide i

@[simp] theorem scalar_str (s : String) : (str s).Scalar := Or.inl ⟨s, rfl⟩

@[simp] theorem scalar_int (i : ℤ) : (int i).Scalar := Or.inr ⟨i, rfl⟩

@[simp] theorem carried_str (s : String) : (str s).Carried := fun _ h => nomatch h

@[simp] theorem carried_int {i : ℤ} : (int i).Carried ↔ Wide i := by
  constructor
  · exact fun h => h i rfl
  · rintro h j hj
    rwa [← int.inj hj]

theorem Scalar.depth {j : Json} (h : j.Scalar) : j.depth = 0 := by
  obtain ⟨s, rfl⟩ | ⟨i, rfl⟩ := h <;> rfl

theorem Scalar.carry_of_carried {j : Json} (h : j.Scalar) (hc : j.Carried) :
    j.carry = some j := by
  obtain ⟨s, rfl⟩ | ⟨i, rfl⟩ := h
  · rfl
  · exact if_pos (hc i rfl)

theorem Scalar.carry_of_not_carried {j : Json} (h : j.Scalar) (hc : ¬j.Carried) :
    j.carry = none := by
  obtain ⟨s, rfl⟩ | ⟨i, rfl⟩ := h
  · exact absurd (carried_str s) hc
  · exact if_neg (mt carried_int.mpr hc)

theorem depthEntries_eq_zero {kvs : List (String × Json)} (h : ∀ kv ∈ kvs, kv.2.Scalar) :
    depthEntries kvs = 0 := by
  induction kvs with
  | nil => rfl
  | cons kv kvs ih =>
    obtain ⟨k, x⟩ := kv
    rw [List.forall_mem_cons] at h
    rw [depthEntries, h.1.depth, ih h.2, Nat.max_self]

theorem carryEntries_of_carried {kvs : List (String × Json)} (h : ∀ kv ∈ kvs, kv.2.Scalar)
    (hc : ∀ kv ∈ kvs, kv.2.Carried) : carryEntries kvs = some kvs := by
  induction kvs with
  | nil => rfl
  | cons kv kvs ih =>
    obtain ⟨k, x⟩ := kv
    rw [List.forall_mem_cons] at h hc
    rw [carryEntries, ih h.2 hc.2, h.1.carry_of_carried hc.1]
    rfl

theorem carryEntries_of_not_carried {kvs : List (String × Json)} (h : ∀ kv ∈ kvs, kv.2.Scalar)
    (hc : ¬∀ kv ∈ kvs, kv.2.Carried) : carryEntries kvs = none := by
  induction kvs with
  | nil => exact absurd (by simp) hc
  | cons kv kvs ih =>
    obtain ⟨k, x⟩ := kv
    rw [List.forall_mem_cons] at h hc
    by_cases hx : x.Carried
    · rw [carryEntries, ih h.2 fun hall => hc ⟨hx, hall⟩, h.1.carry_of_carried hx]
      rfl
    · rw [carryEntries, h.1.carry_of_not_carried hx]
      rfl

theorem transit_obj_of_scalars {kvs : List (String × Json)} (h : ∀ kv ∈ kvs, kv.2.Scalar) :
    (obj kvs).transit = (carryEntries kvs).map obj := by
  have hdepth : (obj kvs).depth = 1 := by rw [depth, depthEntries_eq_zero h]
  rw [transit, hdepth, if_pos (by decide), carry]

/-- An object of strings and integers arrives unchanged if its integers fit. -/
theorem transit_of_carried {kvs : List (String × Json)} (h : ∀ kv ∈ kvs, kv.2.Scalar)
    (hc : ∀ kv ∈ kvs, kv.2.Carried) : (obj kvs).transit = some (obj kvs) := by
  rw [transit_obj_of_scalars h, carryEntries_of_carried h hc, Option.map_some]

/-- Otherwise it does not arrive. -/
theorem transit_of_not_carried {kvs : List (String × Json)} (h : ∀ kv ∈ kvs, kv.2.Scalar)
    (hc : ¬∀ kv ∈ kvs, kv.2.Carried) : (obj kvs).transit = none := by
  rw [transit_obj_of_scalars h, carryEntries_of_not_carried h hc, Option.map_none]

/-! ### What a dictionary looks like when it arrives -/

theorem keys_of_carryEntries {kvs kvs' : List (String × Json)} (h : carryEntries kvs = some kvs') :
    kvs'.map Prod.fst = kvs.map Prod.fst := by
  induction kvs generalizing kvs' with
  | nil => rw [← Option.some.inj h]
  | cons kv kvs ih =>
    obtain ⟨k, x⟩ := kv
    obtain ⟨y, -, hrest⟩ := Option.bind_eq_some_iff.mp h
    obtain ⟨kvs', hkvs', rfl⟩ := Option.map_eq_some_iff.mp hrest
    rw [List.map_cons, List.map_cons, ih hkvs']

theorem dlookup_of_carryEntries {es : List (Σ _ : String, Json)} {kvs : List (String × Json)}
    (h : carryEntries (es.map fun e => (e.1, e.2)) = some kvs) (name : String) :
    (kvs.map fun kv => (⟨kv.1, kv.2⟩ : Σ _ : String, Json)).dlookup name =
      (es.dlookup name).bind carry := by
  induction es generalizing kvs with
  | nil => rw [← Option.some.inj h]; rfl
  | cons e es ih =>
    obtain ⟨k, x⟩ := e
    obtain ⟨y, hy, hrest⟩ := Option.bind_eq_some_iff.mp h
    obtain ⟨kvs, hkvs, rfl⟩ := Option.map_eq_some_iff.mp hrest
    by_cases hname : name = k
    · subst hname
      simp only [List.map_cons, List.dlookup_cons_eq, Option.bind_some]
      exact hy.symm
    · rw [List.map_cons, List.dlookup_cons_ne _ _ hname, List.dlookup_cons_ne _ _ hname, ih hkvs]

theorem carry_isSome_of_carryEntries {kvs kvs' : List (String × Json)}
    (h : carryEntries kvs = some kvs') : ∀ kv ∈ kvs, kv.2.carry.isSome := by
  induction kvs generalizing kvs' with
  | nil => exact List.forall_mem_nil _
  | cons kv kvs ih =>
    obtain ⟨k, x⟩ := kv
    obtain ⟨y, hy, hrest⟩ := Option.bind_eq_some_iff.mp h
    obtain ⟨kvs', hkvs', rfl⟩ := Option.map_eq_some_iff.mp hrest
    exact List.forall_mem_cons.mpr ⟨by rw [hy]; rfl, ih hkvs'⟩

theorem carry_of_transit {v w : Json} (h : v.transit = some w) : v.carry = some w := by
  rw [transit] at h
  split at h
  · exact h
  · exact absurd h (by simp)

/-- If a dictionary arrives, then each of its values does. -/
theorem carry_isSome_of_transit {d : Dict Json} {v : Json} (h : (ofDict d).transit = some v)
    {name : String} {x : Json} (hx : d.lookup name = some x) : x.carry.isSome := by
  obtain ⟨kvs, hkvs, -⟩ := Option.map_eq_some_iff.mp (carry_of_transit h)
  exact carry_isSome_of_carryEntries hkvs (name, x)
    (List.mem_map.mpr ⟨⟨name, x⟩, AList.mem_lookup_iff.mp hx, rfl⟩)

/-- **A dictionary arrives field by field.** -/
theorem lookup_of_transit {d : Dict Json} {v : Json} (h : (ofDict d).transit = some v) :
    ∃ d', v.dict? = some d' ∧ ∀ name, d'.lookup name = (d.lookup name).bind carry := by
  obtain ⟨kvs, hkvs, rfl⟩ := Option.map_eq_some_iff.mp (carry_of_transit h)
  refine ⟨_, rfl, fun name => ?_⟩
  have hkeys : (kvs.map fun kv => (⟨kv.1, kv.2⟩ : Σ _ : String, Json)).NodupKeys := by
    have hfst := keys_of_carryEntries hkvs
    rw [List.map_map] at hfst
    have hd := d.nodupKeys
    rw [List.NodupKeys, List.keys] at hd ⊢
    rw [List.map_map]
    exact (congrArg List.Nodup hfst).mpr hd
  rw [AList.lookup_to_alist, List.map_reverse,
    ← List.perm_dlookup name hkeys (List.reverse_perm _).symm, dlookup_of_carryEntries hkvs]
  rfl

end Json
