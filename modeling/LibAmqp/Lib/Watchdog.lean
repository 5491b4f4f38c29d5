import Mathlib.Algebra.Order.Group.Defs
import Mathlib.Tactic.Linarith

/-!
# Watchdogs

`Watched limit period tick now last`: at the time of the last tick, the last event was no older than
`limit`, and no more than a period has passed since. So an event is never older than `limit + period`
(`Watched.age`), if it is looked at on every tick.
-/

namespace Lib

variable {T : Type} [AddCommGroup T] [LinearOrder T] [IsOrderedAddMonoid T]

structure Watched (limit period tick now last : T) : Prop where
  fresh : tick ≤ last + limit
  passed : tick ≤ now
  soon : now ≤ tick + period

namespace Watched

variable {limit period tick now last t : T}

theorem start (h : 0 ≤ limit) (hp : 0 ≤ period) (t : T) : Watched limit period t t t :=
  ⟨le_add_of_nonneg_right h, le_refl t, le_add_of_nonneg_right hp⟩

omit [IsOrderedAddMonoid T] in
/-- Time passes until the next tick. -/
theorem wait (h : Watched limit period tick now last) (ht : now ≤ t) (hnext : t ≤ tick + period) :
    Watched limit period tick t last :=
  ⟨h.fresh, le_trans h.passed ht, hnext⟩

/-- A new event. -/
theorem event (h : Watched limit period tick now last) (hlimit : 0 ≤ limit) :
    Watched limit period tick now now :=
  ⟨le_trans h.passed (le_add_of_nonneg_right hlimit), h.passed, h.soon⟩

/-- A tick that finds the last event fresh. -/
theorem checked (hp : 0 ≤ period) (hfresh : t ≤ last + limit) : Watched limit period t t last :=
  ⟨hfresh, le_refl t, le_add_of_nonneg_right hp⟩

theorem age (h : Watched limit period tick now last) : now ≤ last + limit + period :=
  le_trans h.soon (add_le_add_left h.fresh period)

end Watched
end Lib
