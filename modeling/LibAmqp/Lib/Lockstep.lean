import LibAmqp.Lib.Dispatch

/-!
# Programs in lockstep

`Lockstep R x y`: two computations that may fail do so alike, or both return and `R` relates what
they return. A program and its abstraction that are written the same way are related step by step,
with `Lockstep.bind`.
-/

namespace Lib

variable {ε α β γ δ : Type}

def Lockstep (R : α → β → Prop) : Except ε α → Except ε β → Prop
  | .ok a, .ok b => R a b
  | .error e, .error e' => e = e'
  | _, _ => False

namespace Lockstep

variable {R : α → β → Prop} {S : γ → δ → Prop} {x : Except ε α} {y : Except ε β}

theorem ok {a : α} {b : β} (h : R a b) : Lockstep R (.ok a : Except ε α) (.ok b) := h

theorem error (e : ε) : Lockstep R (.error e) (.error e) := rfl

/-- A step that both sides take in the same way. -/
theorem same (x : Except ε α) : Lockstep (fun a b => a = b) x x := by
  cases x
  · exact error _
  · exact ok rfl

theorem bind {f : α → Except ε γ} {g : β → Except ε δ} (h : Lockstep R x y)
    (hfg : ∀ a b, R a b → Lockstep S (f a) (g b)) : Lockstep S (x >>= f) (y >>= g) := by
  cases x <;> cases y
  · exact h
  · exact h.elim
  · exact h.elim
  · exact hfg _ _ h

theorem mono {R' : α → β → Prop} (h : Lockstep R x y) (hR : ∀ a b, R a b → R' a b) :
    Lockstep R' x y := by
  cases x <;> cases y
  · exact h
  · exact h.elim
  · exact h.elim
  · exact hR _ _ h

/-- What is known of the right side's result. -/
theorem and_right {Q : β → Prop} (h : Lockstep R x y) (hQ : ∀ b, y = .ok b → Q b) :
    Lockstep (fun a b => R a b ∧ Q b) x y := by
  cases x <;> cases y
  · exact h
  · exact h.elim
  · exact h.elim
  · exact ⟨h, hQ _ rfl⟩

/-- The left side goes on alone. -/
theorem then_left {f : α → Except ε γ} {T : γ → β → Prop} (h : Lockstep R x y)
    (hf : ∀ a b, R a b → Lockstep T (f a) (.ok b)) : Lockstep T (x >>= f) y := by
  cases x <;> cases y
  · exact h
  · exact h.elim
  · exact h.elim
  · exact hf _ _ h

/-- What is known of the left side alone. -/
theorem ends (h : Lockstep R x y) : Ends (fun a => ∃ b, y = .ok b ∧ R a b) (fun _ => True) x := by
  cases x <;> cases y
  · trivial
  · trivial
  · exact h.elim
  · exact ⟨_, rfl, h⟩

/-- What returns on the right returns on the left. -/
theorem of_ok {b : β} (h : Lockstep R x (.ok b)) : ∃ a, x = .ok a ∧ R a b := by
  cases x
  · exact h.elim
  · exact ⟨_, rfl, h⟩

/-- What stops on the right stops on the left. -/
theorem of_error {e : ε} (h : Lockstep R x (.error e)) : x = .error e := by
  cases x
  · exact congrArg _ h
  · exact h.elim

/-- Two computations in lockstep with a third. -/
theorem both {T : γ → β → Prop} {z : Except ε γ} (h : Lockstep R x y) (h' : Lockstep T z y) :
    Lockstep (fun a c => ∃ b, R a b ∧ T c b) x z := by
  cases x <;> cases y <;> cases z
  · exact Eq.trans h (Eq.symm h')
  · exact h'.elim
  · exact h.elim
  · exact h.elim
  · exact h.elim
  · exact h.elim
  · exact h'.elim
  · exact ⟨_, h, h'⟩

end Lockstep
end Lib
