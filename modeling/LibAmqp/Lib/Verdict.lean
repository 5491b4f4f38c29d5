import Mathlib.Tactic.Common

/-!
# Verdicts

A decoder that may stop the process, refuse its input or accept it has a verdict that can be said
without running it. `Verdict.Meets v real r q`: the run `r` ends as the verdict says, with a fault
that is `real`, or with an answer and a result that satisfies `q`.

* `Meets.bind`: one step after another.
-/

namespace Lib

inductive Verdict
  | stops | refused | accepted
  deriving DecidableEq, Repr

namespace Verdict

def ofBool : Bool → Verdict
  | true => accepted
  | false => refused

/-- The verdict of two steps, the second only taken when the first accepts. -/
def andThen : Verdict → Verdict → Verdict
  | accepted, w => w
  | v, _ => v

variable {ε α β : Type} {real : ε → Prop} {v w : Verdict} {r : Except ε (Bool × α)}
  {q q' : Bool → α → Prop}

def Meets (v : Verdict) (real : ε → Prop) (r : Except ε (Bool × α)) (q : Bool → α → Prop) : Prop :=
  match v with
  | stops => ∃ e, r = .error e ∧ real e
  | refused => ∃ a, r = .ok (false, a) ∧ q false a
  | accepted => ∃ a, r = .ok (true, a) ∧ q true a

theorem Meets.imp (h : v.Meets real r q) (hq : ∀ ok a, q ok a → q' ok a) : v.Meets real r q' := by
  cases v with
  | stops => exact h
  | refused =>
    obtain ⟨a, hr, ha⟩ := h
    exact ⟨a, hr, hq _ _ ha⟩
  | accepted =>
    obtain ⟨a, hr, ha⟩ := h
    exact ⟨a, hr, hq _ _ ha⟩

/-- A run that accepts was to accept. -/
theorem Meets.eq_accepted {a : α} (h : v.Meets real r q) (hr : r = .ok (true, a)) : v = accepted := by
  subst hr
  cases v with
  | stops =>
    obtain ⟨e, he, -⟩ := h
    cases he
  | refused =>
    obtain ⟨b, hb, -⟩ := h
    cases hb
  | accepted => rfl

theorem meets_ofBool {b : Bool} {a : α} (h : r = .ok (b, a)) (hq : q b a) :
    (ofBool b).Meets real r q := by
  cases b with
  | true => exact ⟨a, h, hq⟩
  | false => exact ⟨a, h, hq⟩

/-- A step that accepts is followed by another; one that does not is the end. -/
theorem Meets.bind {q' : Bool → β → Prop} {f : Bool × α → Except ε (Bool × β)}
    (h : v.Meets real r q)
    (hacc : ∀ a, q true a → w.Meets real (f (true, a)) q')
    (href : ∀ a, q false a → ∃ b, f (false, a) = .ok (false, b) ∧ q' false b) :
    (v.andThen w).Meets real (r >>= f) q' := by
  cases v with
  | stops =>
    obtain ⟨e, rfl, he⟩ := h
    exact ⟨e, rfl, he⟩
  | refused =>
    obtain ⟨a, rfl, ha⟩ := h
    exact href a ha
  | accepted =>
    obtain ⟨a, rfl, ha⟩ := h
    exact hacc a ha

/-- The last step of a run does not change the answer. -/
theorem Meets.map {q' : Bool → β → Prop} {f : Bool × α → Except ε (Bool × β)}
    (h : v.Meets real r q)
    (hf : ∀ ok a, q ok a → ∃ b, f (ok, a) = .ok (ok, b) ∧ q' ok b) : v.Meets real (r >>= f) q' := by
  cases v with
  | stops =>
    obtain ⟨e, rfl, he⟩ := h
    exact ⟨e, rfl, he⟩
  | refused =>
    obtain ⟨a, rfl, ha⟩ := h
    exact hf false a ha
  | accepted =>
    obtain ⟨a, rfl, ha⟩ := h
    exact hf true a ha

end Verdict
end Lib
