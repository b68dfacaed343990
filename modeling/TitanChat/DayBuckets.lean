import TitanChat.History
import TitanChat.Internal.CivilDate

/-!
# Day buckets

The writer of `messages` puts a row into the bucket of its own day, and the reader goes back seven
days from its own clock. They meet in the text `YYYYMMDD`, which is the same for two times exactly
if they are of the same day in UTC.

## Main definitions

* `DateTime.day`
* `InWindow`: the days from today - 6 to today

## Main results

* `strftime_eq_iff`: the text of a time determines its day
* `nodup_bucketsToQuery`, `mem_bucketsToQuery`: which buckets are read without a parameter
-/

namespace TitanChat

namespace DateTime

/-- The day of a time, from 1970 on. -/
def day (t : DateTime) : ℤ := t.micros / 86400000000

/-! ### Numbers with leading zeros -/

theorem toList_pushn (c : Char) (n : ℕ) : ("".pushn c n).toList = List.replicate n c := by
  induction n with
  | zero => rfl
  | succ n ih =>
    rw [String.pushn_eq_repeat_push] at ih ⊢
    rw [Nat.repeat, String.toList_push, ih, ← List.replicate_succ']

theorem toList_padded (width n : ℕ) : (padded width n).toList =
    List.replicate (width - (Nat.toDigits 10 n).length) '0' ++ Nat.toDigits 10 n := by
  have hdigits : toString (n : ℤ) = n.repr := rfl
  rw [padded, String.toList_append, hdigits, toList_pushn, Nat.toList_repr, ← String.length_toList,
    Nat.toList_repr]

/-- The number of a text with leading zeros. -/
theorem padded_injective {width : ℕ} {m n : ℤ} (hm : 0 ≤ m) (hn : 0 ≤ n)
    (h : padded width m = padded width n) : m = n := by
  obtain ⟨m, rfl⟩ := Int.eq_ofNat_of_zero_le hm
  obtain ⟨n, rfl⟩ := Int.eq_ofNat_of_zero_le hn
  have hvalue := congrArg (fun s => Nat.ofDigitChars 10 s.toList 0) h
  simp only [toList_padded, Nat.ofDigitChars_append, Nat.ofDigitChars_replicate_zero, Nat.mul_zero,
    Nat.ofDigitChars_ten_toDigits] at hvalue
  rw [hvalue]

theorem length_padded {width : ℕ} (hw : 0 < width) {n : ℤ} (hn : 0 ≤ n) (h : n < 10 ^ width) :
    (padded width n).length = width := by
  obtain ⟨n, rfl⟩ := Int.eq_ofNat_of_zero_le hn
  have hle : (Nat.toDigits 10 n).length ≤ width :=
    (Nat.length_toDigits_le_iff (by decide) hw).mpr (by exact_mod_cast h)
  rw [← String.length_toList, toList_padded, List.length_append, List.length_replicate]
  omega

/-! ### The text of a day -/

/-- The date of a time. -/
def date (t : DateTime) : CivilDate.Date := CivilDate.ofDays (t.day + 719468)

theorem strftime_eq (t : DateTime) :
    t.strftime = padded 4 t.date.year ++ padded 2 t.date.month ++ padded 2 t.date.day := rfl

theorem date_range (t : DateTime) : 0 ≤ t.date.year ∧
    (0 ≤ t.date.month ∧ t.date.month < 100) ∧ 0 ≤ t.date.day ∧ t.date.day < 100 := by
  refine CivilDate.ofDays_range ?_
  have h := t.range.1
  rw [day]
  omega

/-- **The text of a time determines its day.** -/
theorem strftime_eq_iff {t u : DateTime} : t.strftime = u.strftime ↔ t.day = u.day := by
  constructor
  · intro h
    obtain ⟨hyt, ⟨hmt, hmt'⟩, hdt, hdt'⟩ := t.date_range
    obtain ⟨hyu, ⟨hmu, hmu'⟩, hdu, hdu'⟩ := u.date_range
    rw [strftime_eq, strftime_eq] at h
    have hlist := congrArg String.toList h
    simp only [String.toList_append] at hlist
    -- the month and the day are the last four characters
    have hdays : (padded 2 t.date.day).toList.length = (padded 2 u.date.day).toList.length := by
      simp only [String.length_toList, length_padded two_pos hdt hdt',
        length_padded two_pos hdu hdu']
    have hmonths : (padded 2 t.date.month).toList.length =
        (padded 2 u.date.month).toList.length := by
      simp only [String.length_toList, length_padded two_pos hmt hmt',
        length_padded two_pos hmu hmu']
    obtain ⟨hrest, hday⟩ := List.append_inj' hlist hdays
    obtain ⟨hyear, hmonth⟩ := List.append_inj' hrest hmonths
    have hdate : t.date = u.date := by
      rcases ht : t.date with ⟨y, m, d⟩
      rcases hu : u.date with ⟨y', m', d'⟩
      simp only [ht, hu] at *
      rw [padded_injective hyt hyu (String.toList_inj.mp hyear),
        padded_injective hmt hmu (String.toList_inj.mp hmonth),
        padded_injective hdt hdu (String.toList_inj.mp hday)]
    have hz := CivilDate.ofDays_injective hdate
    omega
  · intro h
    rw [strftime_eq, strftime_eq, date, date, h]

end DateTime

/-! ### The buckets that are read -/

open DateTime

/-- The times on the clock of the reader, from today back. -/
def daysBack (now : DateTime) : List DateTime :=
  (List.range 7).filterMap fun i : ℕ => ofMicros (now.micros - i * 86400000000)

theorem bucketsToQuery_none (now : DateTime) :
    bucketsToQuery none now = (daysBack now).map strftime := by
  rw [daysBack, List.map_filterMap]
  rfl

/-- The days from today - 6 to today. -/
def InWindow (now t : DateTime) : Prop := now.day - 6 ≤ t.day ∧ t.day ≤ now.day

instance (now t : DateTime) : Decidable (InWindow now t) := inferInstanceAs (Decidable (_ ∧ _))

section Window

variable {now t : DateTime}

theorem day_of_ofMicros {i : ℤ} (h : ofMicros (now.micros - i * 86400000000) = some t) :
    t.day = now.day - i := by
  rw [ofMicros] at h
  split at h
  · obtain rfl := Option.some.inj h
    simp only [day]
    omega
  · cases h

/-- The reader has a time of each day that there is. -/
theorem exists_ofMicros {i : ℤ} (h : t.day = now.day - i) :
    ∃ u, ofMicros (now.micros - i * 86400000000) = some u := by
  have hnow := now.range
  have ht := t.range
  rw [day, day] at h
  -- the first day begins with the first microsecond, and the last ends with the last
  have hrange : -62135596800 * 1000000 ≤ now.micros - i * 86400000000 ∧
      now.micros - i * 86400000000 < 253402300800 * 1000000 := by omega
  exact ⟨_, dif_pos hrange⟩

/-- The days are read from the newest to the oldest. -/
theorem daysBack_pairwise (now : DateTime) :
    (daysBack now).Pairwise fun t u => u.day < t.day := by
  rw [daysBack, List.pairwise_filterMap]
  refine List.pairwise_lt_range.imp fun {i j} hij => ?_
  intro t ht u hu
  have hday := day_of_ofMicros ht
  have hday' := day_of_ofMicros hu
  omega

/-- No bucket is read twice. -/
theorem nodup_bucketsToQuery (now : DateTime) : (bucketsToQuery none now).Nodup := by
  rw [bucketsToQuery_none]
  refine List.pairwise_map.mpr ((daysBack_pairwise now).imp fun {t u} hday heq => ?_)
  have heq := strftime_eq_iff.mp heq
  omega

/-- **The bucket of a time is read exactly if its day is one of the seven.** -/
theorem mem_bucketsToQuery : t.strftime ∈ bucketsToQuery none now ↔ InWindow now t := by
  rw [bucketsToQuery_none, List.mem_map]
  constructor
  · rintro ⟨u, hu, heq⟩
    obtain ⟨i, hi, hu⟩ := List.mem_filterMap.mp hu
    have hday := day_of_ofMicros hu
    have heq := strftime_eq_iff.mp heq
    have hi := List.mem_range.mp hi
    exact ⟨by omega, by omega⟩
  · rintro ⟨hlow, hhigh⟩
    obtain ⟨i, hi⟩ := Int.eq_ofNat_of_zero_le (show 0 ≤ now.day - t.day by omega)
    have hday : t.day = now.day - i := by omega
    obtain ⟨u, hu⟩ := exists_ofMicros hday
    refine ⟨u, List.mem_filterMap.mpr ⟨i, List.mem_range.mpr (by omega), hu⟩, ?_⟩
    rw [strftime_eq_iff, day_of_ofMicros hu, hday]

end Window

end TitanChat
