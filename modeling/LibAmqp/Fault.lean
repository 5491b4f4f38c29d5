import Mathlib.Algebra.Group.Int.Defs
import Mathlib.Algebra.Group.Nat.Defs
import Mathlib.Tactic.Common

/-!
# Ways to lose the process

A modelled function that can stop the process returns `Except Fault _`. The first five faults are
what the C code does (`todo.h`, `ErrorHandling.c`, `assert`). The others mark a step C does not
define (`wildPointer`, `readPastSize`, `writePastCapacity`) or the bound of a recursion of the
model (`outOfFuel`); no result treats them as an outcome of the code.
-/

namespace Amqp

inductive Fault
  /-- `abort()`, also through `not_reached()` -/
  | abort
  /-- `not_implemented(..)` of `todo.h`: prints and aborts -/
  | notImplemented
  | assertFailed
  | fatalProgramError
  | apiUsageError
  /-- an address that is not allocated was followed or released -/
  | wildPointer
  /-- `amqp_unchecked_getc_at` at or beyond `limit.size` -/
  | readPastSize
  /-- `amqp_unchecked_putc_at` at or beyond `capacity` -/
  | writePastCapacity
  | outOfFuel
  deriving DecidableEq, Repr

namespace Fault

variable {α β : Type}

@[simp] theorem ok_bind (a : α) (f : α → Except Fault β) : (Except.ok a >>= f) = f a := rfl

@[simp] theorem error_bind (e : Fault) (f : α → Except Fault β) :
    (Except.error e >>= f) = Except.error e := rfl

@[simp] theorem pure_eq_ok (a : α) : (pure a : Except Fault α) = Except.ok a := rfl

/-- A sequence that returns: its first part returns, and so does the rest from there. -/
theorem bind_eq_ok {x : Except Fault α} {f : α → Except Fault β} {b : β} :
    x >>= f = .ok b ↔ ∃ a, x = .ok a ∧ f a = .ok b := by
  cases x <;> simp

end Fault
end Amqp
