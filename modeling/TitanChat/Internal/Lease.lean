import Mathlib.Data.Int.Order.Basic
import Mathlib.Data.Set.Insert

/-!
# Leases

Something is kept for a holder up to some time, and is gone from then on. Every sign of life of the
holder sends a renewal, which arrives later and prolongs the lease from its arrival on. It does so
only if the lease has not run out by then. From time to time an overseer looks at the holder: one
that has been silent for too long is condemned, and is gone some time after.

With sufficient terms, the lease of a holder that is not gone never runs out. The bound is carried
from one sign of life to the next. The holder shows one before it is gone for its silence, so the
renewal arrives before the lease ends that the last sign of life has given. Several renewals may be
under way, and arrive in any order: it is enough that one of them arrives in time.

## Main definitions

* `Terms`: the bounds, which are sufficient
* `Tenancy`: a lease at some time
* `Punctual`: the bounds are kept
* `Watched`, `Renewed`: what holds of the holder, and of its lease

## Main results

* `Renewed.lt_expires`: the lease has not run out
* `Renewed.touch`, `Renewed.renew`, `Watched.look`: the invariant, event by event
-/

namespace Lease

structure Terms where
  /-- For how long a renewal prolongs the lease. -/
  ttl : ℤ
  /-- A holder that has been silent for longer is condemned. -/
  patience : ℤ
  /-- The overseer looks at least that often. -/
  period : ℤ
  /-- A holder that is condemned is gone by then. -/
  grace : ℤ
  /-- A renewal has arrived by then. -/
  delay : ℤ
  patience_nonneg : 0 ≤ patience
  grace_nonneg : 0 ≤ grace
  delay_nonneg : 0 ≤ delay
  sufficient : patience + period + grace + delay < ttl

/-- A lease whose holder is not gone. -/
structure Tenancy where
  clock : ℤ
  /-- The last sign of life. -/
  seen : ℤ
  /-- The renewals that are under way, by the signs of life that have sent them. -/
  pending : Set ℤ
  expires : ℤ
  /-- When the overseer looked last. -/
  looked : ℤ
  /-- It has condemned the holder. -/
  condemned : Prop

/-- Whatever is due has happened. -/
structure Punctual (τ : Terms) (ℓ : Tenancy) : Prop where
  renewals : ∀ stamp ∈ ℓ.pending, ℓ.clock ≤ stamp + τ.delay
  looks : ℓ.clock ≤ ℓ.looked + τ.period
  evictions : ℓ.condemned → ℓ.clock ≤ ℓ.looked + τ.grace

/-- The silence of the holder. -/
structure Watched (τ : Terms) (ℓ : Tenancy) : Prop where
  seen_le : ℓ.seen ≤ ℓ.clock
  looked_le : ℓ.looked ≤ ℓ.seen + τ.patience ∨
    ℓ.condemned ∧ ℓ.looked ≤ ℓ.seen + τ.patience + τ.period

/-- The renewal that the last sign of life has sent has arrived, or there is one that will arrive
in time. -/
def Renewed (τ : Terms) (ℓ : Tenancy) : Prop :=
  ℓ.seen + τ.ttl ≤ ℓ.expires ∨ ∃ stamp ∈ ℓ.pending, stamp + τ.delay < ℓ.expires

variable {τ : Terms} {ℓ ℓ' : Tenancy}

/-- **The longest silence.** -/
theorem Watched.clock_le (h : Watched τ ℓ) (hp : Punctual τ ℓ) :
    ℓ.clock ≤ ℓ.seen + τ.patience + τ.period + τ.grace := by
  have hgrace := τ.grace_nonneg
  obtain hlooked | ⟨hcondemned, hlooked⟩ := h.looked_le
  · have hlooks := hp.looks
    omega
  · have hevictions := hp.evictions hcondemned
    omega

/-- **The lease has not run out.** -/
theorem Renewed.lt_expires (h : Renewed τ ℓ) (hw : Watched τ ℓ) (hp : Punctual τ ℓ) :
    ℓ.clock < ℓ.expires := by
  have hsufficient := τ.sufficient
  have hdelay := τ.delay_nonneg
  obtain hseen | ⟨stamp, hstamp, hlt⟩ := h
  · have hsilence := hw.clock_le hp
    omega
  · have hrenewals := hp.renewals stamp hstamp
    omega

/-! ### Event by event -/

/-- Time goes on. -/
theorem Watched.mono (h : Watched τ ℓ) (hclock : ℓ.clock ≤ ℓ'.clock) (hseen : ℓ'.seen = ℓ.seen)
    (hlooked : ℓ'.looked = ℓ.looked) (hcondemned : ℓ.condemned → ℓ'.condemned) : Watched τ ℓ' where
  seen_le := by
    rw [hseen]
    exact le_trans h.seen_le hclock
  looked_le := by
    rw [hlooked, hseen]
    exact h.looked_le.imp_right fun hc => ⟨hcondemned hc.1, hc.2⟩

theorem Renewed.mono (h : Renewed τ ℓ) (hseen : ℓ'.seen = ℓ.seen)
    (hpending : ℓ.pending ⊆ ℓ'.pending) (hexpires : ℓ'.expires = ℓ.expires) : Renewed τ ℓ' := by
  rw [Renewed, hseen, hexpires]
  exact h.imp_right fun ⟨stamp, hstamp, hlt⟩ => ⟨stamp, hpending hstamp, hlt⟩

/-- The holder shows a sign of life. -/
theorem Watched.touch (hseen : ℓ.seen = ℓ.clock) (hlooked : ℓ.looked ≤ ℓ.clock) :
    Watched τ ℓ where
  seen_le := hseen.le
  looked_le := by
    have hpatience := τ.patience_nonneg
    exact Or.inl (by omega)

/-- The renewal that is sent then arrives in time, unless there is another one that does. -/
theorem Renewed.touch (h : Renewed τ ℓ) (hw : Watched τ ℓ) (hp : Punctual τ ℓ)
    (hpending : insert ℓ.clock ℓ.pending ⊆ ℓ'.pending) (hexpires : ℓ'.expires = ℓ.expires) :
    Renewed τ ℓ' := by
  rw [Renewed, hexpires]
  obtain hseen | ⟨stamp, hstamp, hlt⟩ := h
  · have hsilence := hw.clock_le hp
    have hsufficient := τ.sufficient
    exact Or.inr ⟨ℓ.clock, hpending (Set.mem_insert ..), by omega⟩
  · exact Or.inr ⟨stamp, hpending (Set.mem_insert_of_mem _ hstamp), hlt⟩

/-- A renewal arrives. -/
theorem Renewed.renew (hw : Watched τ ℓ) (hseen : ℓ'.seen = ℓ.seen)
    (hexpires : ℓ'.expires = ℓ.clock + τ.ttl) : Renewed τ ℓ' := by
  have hle := hw.seen_le
  exact Or.inl (by omega)

/-- The overseer looks. -/
theorem Watched.look (h : Watched τ ℓ) (hp : Punctual τ ℓ) (hnot : ¬ℓ.condemned)
    (hclock : ℓ'.clock = ℓ.clock) (hseen : ℓ'.seen = ℓ.seen) (hlooked : ℓ'.looked = ℓ.clock)
    (hcondemned : τ.patience < ℓ.clock - ℓ.seen → ℓ'.condemned) : Watched τ ℓ' where
  seen_le := by
    rw [hseen, hclock]
    exact h.seen_le
  looked_le := by
    obtain hlooked' | ⟨hcondemned', -⟩ := h.looked_le
    · have hlooks := hp.looks
      by_cases hsilent : τ.patience < ℓ.clock - ℓ.seen
      · exact Or.inr ⟨hcondemned hsilent, by omega⟩
      · exact Or.inl (by omega)
    · exact absurd hcondemned' hnot

end Lease
