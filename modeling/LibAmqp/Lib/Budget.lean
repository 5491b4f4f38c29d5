import Mathlib.Order.Basic

/-!
# Programs on a budget

A `Budget σ γ`: what of a resource a state has taken, how much of it there is, and how a state looks
where that is all there is and where there is no end of it. `B.Within start x y`: from a state that took
`start`, the program `x` on the budget and the same program `y` without one take the same steps; `x`
returns what `y` does if that is within the budget, and fails when it is not.

* `Within.bind`, `Within.same`: programs are compared step by step.
* `Within.returns_iff`: what a run without a budget says about one on it.
-/

namespace Lib

/-- A value with a state in it. -/
class Holds (σ : Type) (α : Type) where
  state : α → σ
  map : (σ → σ) → α → α

instance {σ : Type} : Holds σ σ := ⟨id, id⟩

instance {σ β : Type} : Holds σ (σ × β) := ⟨Prod.fst, fun f x => (f x.1, x.2)⟩

instance {σ α β : Type} [Holds σ α] : Holds σ (β × α) :=
  ⟨fun x => Holds.state x.2, fun f x => (x.1, Holds.map f x.2)⟩

structure Budget (σ γ : Type) [Preorder γ] where
  taken : σ → γ
  fits : γ → Prop
  antitone : ∀ {a b : γ}, a ≤ b → fits b → fits a
  tight : σ → σ
  loose : σ → σ

namespace Budget

variable {σ γ ε α β δ : Type} [Preorder γ] [Holds σ α] [Holds σ β] {B : Budget σ γ}

/-- What a value has taken. -/
abbrev cost (B : Budget σ γ) (a : α) : γ := B.taken (Holds.state a)

def Within (B : Budget σ γ) (start : γ) : Except ε α → Except ε α → Prop
  | .ok a, .ok b => ∃ d : α, a = Holds.map B.tight d ∧ b = Holds.map B.loose d ∧ start ≤ B.cost d ∧
      (B.fits start → B.fits (B.cost d))
  | .error _, .ok b => ∃ d : α, b = Holds.map B.loose d ∧ start ≤ B.cost d ∧ ¬ B.fits (B.cost d)
  | .error _, .error _ => True
  | .ok _, .error _ => False

namespace Within

variable {start : γ} {x y : Except ε α}

theorem error (e e' : ε) : B.Within start (.error e : Except ε α) (.error e') := trivial

theorem of_start {start' : γ} (h : start = start') (hw : B.Within start' x y) : B.Within start x y := h ▸ hw

/-- A step that takes nothing. -/
theorem ok (d : α) (h : start = B.cost d) :
    B.Within start (.ok (Holds.map B.tight d) : Except ε α) (.ok (Holds.map B.loose d)) :=
  ⟨d, rfl, rfl, le_of_eq h, fun hs => h ▸ hs⟩

theorem bind {f g : α → Except ε β} (h : B.Within start x y)
    (hfg : ∀ d : α, B.Within (B.cost d) (f (Holds.map B.tight d)) (g (Holds.map B.loose d))) :
    B.Within start (x >>= f) (y >>= g) := by
  cases x with
  | error e =>
    cases y with
    | error e' => trivial
    | ok b =>
      obtain ⟨d, rfl, hle, hfit⟩ := h
      have hd := hfg d
      show B.Within start (.error e) (g (Holds.map B.loose d))
      cases hg : g (Holds.map B.loose d) with
      | error e' => trivial
      | ok b' =>
        rw [hg] at hd
        cases hf : f (Holds.map B.tight d) with
        | error e' =>
          rw [hf] at hd
          obtain ⟨d', hb, hle', -⟩ := hd
          exact ⟨d', hb, hle.trans hle', fun h => hfit (B.antitone hle' h)⟩
        | ok a' =>
          rw [hf] at hd
          obtain ⟨d', -, hb, hle', -⟩ := hd
          exact ⟨d', hb, hle.trans hle', fun h => hfit (B.antitone hle' h)⟩
  | ok a =>
    cases y with
    | error e' => exact h.elim
    | ok b =>
      obtain ⟨d, rfl, rfl, hle, hfit⟩ := h
      have hd := hfg d
      show B.Within start (f (Holds.map B.tight d)) (g (Holds.map B.loose d))
      cases hf : f (Holds.map B.tight d) with
      | error e =>
        rw [hf] at hd
        cases hg : g (Holds.map B.loose d) with
        | error e' => trivial
        | ok b' =>
          rw [hg] at hd
          obtain ⟨d', hb, hle', hfit'⟩ := hd
          exact ⟨d', hb, hle.trans hle', hfit'⟩
      | ok a' =>
        rw [hf] at hd
        cases hg : g (Holds.map B.loose d) with
        | error e' =>
          rw [hg] at hd
          exact hd.elim
        | ok b' =>
          rw [hg] at hd
          obtain ⟨d', ha, hb, hle', hfit'⟩ := hd
          exact ⟨d', ha, hb, hle.trans hle', fun h => hfit' (hfit h)⟩

/-- A step that does not look at the state. -/
theorem same {f g : δ → Except ε α} (z : Except ε δ) (h : ∀ d, B.Within start (f d) (g d)) :
    B.Within start (z >>= f) (z >>= g) := by
  cases z with
  | error e => trivial
  | ok d => exact h d

theorem ite {p : Prop} [Decidable p] {x' y' : Except ε α} (h : p → B.Within start x y)
    (h' : ¬ p → B.Within start x' y') : B.Within start (if p then x else x') (if p then y else y') := by
  by_cases hp : p
  · rw [if_pos hp, if_pos hp]
    exact h hp
  · rw [if_neg hp, if_neg hp]
    exact h' hp

/-- A run on the budget returns if and only if the run without one does, and stays within it. -/
theorem returns_iff {Q : α → Prop} (h : B.Within start x y) (hstart : B.fits start)
    (hQ : ∀ d : α, Q (Holds.map B.tight d) ↔ Q (Holds.map B.loose d))
    (hcost : ∀ d : α, B.cost (Holds.map B.loose d) = B.cost d) :
    (∃ a, x = .ok a ∧ Q a) ↔ ∃ b, y = .ok b ∧ Q b ∧ B.fits (B.cost b) := by
  constructor
  · rintro ⟨a, rfl, ha⟩
    cases y with
    | error e => exact h.elim
    | ok b =>
      obtain ⟨d, rfl, rfl, -, hfit⟩ := h
      exact ⟨_, rfl, (hQ d).1 ha, by rw [hcost]; exact hfit hstart⟩
  · rintro ⟨b, rfl, hb, hfit⟩
    cases x with
    | error e =>
      obtain ⟨d, rfl, -, hno⟩ := h
      rw [hcost] at hfit
      exact absurd hfit hno
    | ok a =>
      obtain ⟨d, rfl, rfl, -⟩ := h
      exact ⟨_, rfl, (hQ d).2 hb⟩

end Within
end Budget
end Lib
