import Mathlib.Tactic.Common

/-!
# Calls through function pointers

A program whose functions call each other through pointers that they keep in the state. `dispatch`
says what the function behind a pointer does, given what the calls it makes itself do; `invoke` ties
the knot, with a bound on the depth of the calls. `run` is a sequence of steps, one after the other.

* `invoke_ends`: what every function does, given that its calls do it, every call does.
* `invoke_ends_of_rank`: the same for calls that are no deeper than their rank.
* `run_ends`: what every step keeps, a run keeps.
* `Justified.append`: a trace whose marks are justified by those before them grows at its end.
-/

namespace Lib

variable {α σ ι ε : Type}

/-- What a call does to the state. -/
abbrev Call (α σ ε : Type) := α → σ → Except ε σ

/-- Calls of depth at most `fuel`. -/
def invoke (exhausted : σ → ε) (dispatch : Call α σ ε → Call α σ ε) : Nat → Call α σ ε
  | 0, _, s => .error (exhausted s)
  | fuel + 1, a, s => dispatch (invoke exhausted dispatch fuel) a s

/-- What is true of the result: `p` of the state, or `q` of the error. -/
def Ends (p : σ → Prop) (q : ε → Prop) : Except ε σ → Prop
  | .ok s => p s
  | .error e => q e

instance Ends.decidable {p : σ → Prop} {q : ε → Prop} [DecidablePred p] [DecidablePred q] :
    (r : Except ε σ) → Decidable (Ends p q r)
  | .ok s => inferInstanceAs (Decidable (p s))
  | .error e => inferInstanceAs (Decidable (q e))

theorem Ends.mono {p p' : σ → Prop} {q q' : ε → Prop} {r : Except ε σ} (h : Ends p q r)
    (hp : ∀ s, p s → p' s) (hq : ∀ e, q e → q' e) : Ends p' q' r := by
  cases r with
  | ok s => exact hp s h
  | error e => exact hq e h

/-- Two facts about one result. -/
theorem Ends.both {p p' : σ → Prop} {q q' : ε → Prop} {r : Except ε σ} (h : Ends p q r)
    (h' : Ends p' q' r) : Ends (fun s => p s ∧ p' s) (fun e => q e ∧ q' e) r := by
  cases r with
  | ok s => exact ⟨h, h'⟩
  | error e => exact ⟨h, h'⟩

theorem Ends.and {p p' : σ → Prop} {q : ε → Prop} {r : Except ε σ} (h : Ends p q r)
    (h' : Ends p' q r) : Ends (fun s => p s ∧ p' s) q r :=
  (h.both h').mono (fun _ hs => hs) fun _ he => he.1

/-- First one, then the other. -/
theorem Ends.bind {τ : Type} {p : σ → Prop} {p' : τ → Prop} {q : ε → Prop} {r : Except ε σ}
    {f : σ → Except ε τ} (h : Ends p q r) (hf : ∀ s, p s → Ends p' q (f s)) : Ends p' q (r >>= f) := by
  cases r with
  | ok s => exact hf s h
  | error e => exact h

/-- The rule of recursive calls: what every function does, given that the calls it makes do it, every
call does. -/
theorem invoke_ends {pre : α → σ → Prop} {post : α → σ → σ → Prop} {q : ε → Prop}
    {exhausted : σ → ε} {dispatch : Call α σ ε → Call α σ ε}
    (hexhausted : ∀ a s, pre a s → q (exhausted s))
    (h : ∀ call, (∀ a s, pre a s → Ends (post a s) q (call a s)) →
      ∀ a s, pre a s → Ends (post a s) q (dispatch call a s)) :
    ∀ fuel a s, pre a s → Ends (post a s) q (invoke exhausted dispatch fuel a s) := by
  intro fuel
  induction fuel with
  | zero => exact fun a s hs => hexhausted a s hs
  | succ fuel ih => exact fun a s hs => h _ ih a s hs

/-- A rank that falls from a function to the calls it makes bounds how deep the calls are: with no less
fuel than the rank of a call, the fuel is not used up. -/
theorem invoke_ends_of_rank (rank : α → σ → Nat) {pre : α → σ → Prop} {post : α → σ → σ → Prop}
    {q : ε → Prop} {exhausted : σ → ε} {dispatch : Call α σ ε → Call α σ ε} (hrank : ∀ a s, 0 < rank a s)
    (h : ∀ call n, (∀ a s, pre a s → rank a s ≤ n → Ends (post a s) q (call a s)) →
      ∀ a s, pre a s → rank a s ≤ n + 1 → Ends (post a s) q (dispatch call a s)) :
    ∀ fuel a s, pre a s → rank a s ≤ fuel → Ends (post a s) q (invoke exhausted dispatch fuel a s) := by
  intro fuel
  induction fuel with
  | zero => exact fun a s _ hle => absurd (hrank a s) (Nat.not_lt.2 hle)
  | succ fuel ih => exact fun a s hs hle => h _ fuel ih a s hs hle

/-! ## Runs -/

/-- One step after the other. -/
def run (step : σ → ι → Except ε σ) : σ → List ι → Except ε σ
  | s, [] => .ok s
  | s, i :: is => do run step (← step s i) is

theorem run_singleton {step : σ → ι → Except ε σ} (s : σ) (i : ι) : run step s [i] = step s i := by
  rw [run]
  cases step s i with
  | error e => rfl
  | ok s' => rfl

theorem run_append {step : σ → ι → Except ε σ} (js : List ι) : ∀ (is : List ι) (s : σ),
    run step s (is ++ js) = (run step s is >>= fun s' => run step s' js) := by
  intro is
  induction is with
  | nil => exact fun _ => rfl
  | cons i is ih =>
    intro s
    rw [List.cons_append, run, run]
    cases step s i with
    | error e => rfl
    | ok s1 => exact ih s1

/-- Every step of a run meets `c`, which looks at the state before the step. -/
def RunMeets (step : σ → ι → Except ε σ) (c : σ → ι → Prop) : σ → List ι → Prop
  | _, [] => True
  | s, i :: is => c s i ∧ ∀ s', step s i = .ok s' → RunMeets step c s' is

instance RunMeets.decidable {step : σ → ι → Except ε σ} {c : σ → ι → Prop} [∀ s i, Decidable (c s i)] :
    ∀ (is : List ι) (s : σ), Decidable (RunMeets step c s is)
  | [], _ => .isTrue trivial
  | i :: is, s =>
    match h : step s i with
    | .ok s' =>
      have : Decidable (RunMeets step c s' is) := RunMeets.decidable is s'
      decidable_of_iff (c s i ∧ RunMeets step c s' is) (by simp [RunMeets, h])
    | .error _ => decidable_of_iff (c s i) (by simp [RunMeets, h])

theorem RunMeets.true {step : σ → ι → Except ε σ} :
    ∀ (is : List ι) (s : σ), RunMeets step (fun _ _ => True) s is := by
  intro is
  induction is with
  | nil => exact fun _ => trivial
  | cons i is ih => exact fun s => ⟨trivial, fun s' _ => ih s'⟩

/-- A condition on what comes alone. -/
theorem RunMeets.of_mem {step : σ → ι → Except ε σ} {c : ι → Prop} :
    ∀ {is : List ι} (s : σ), (∀ i ∈ is, c i) → RunMeets step (fun _ i => c i) s is := by
  intro is
  induction is with
  | nil => exact fun _ _ => trivial
  | cons i is ih => exact fun s h => ⟨h i (.head _), fun s' _ => ih s' fun j hj => h j (.tail _ hj)⟩

/-- What every step that meets `c` keeps, every run that meets it keeps. -/
theorem run_ends {p : σ → Prop} {q : ε → Prop} {step : σ → ι → Except ε σ} {c : σ → ι → Prop}
    (h : ∀ s i, p s → c s i → Ends p q (step s i)) :
    ∀ is s, p s → RunMeets step c s is → Ends p q (run step s is) := by
  intro is
  induction is with
  | nil => exact fun s hs _ => hs
  | cons i is ih =>
    intro s hs hmeets
    obtain ⟨hc, hrest⟩ := hmeets
    have hstep := h s i hs hc
    rw [run]
    cases h1 : step s i with
    | error e =>
      rw [h1] at hstep
      exact hstep
    | ok s1 =>
      rw [h1] at hstep
      exact ih s1 hstep (hrest s1 h1)

/-- If every step that does not meet `c` ends the process, a run that does not end it meets `c`. -/
theorem RunMeets.of_ends {p : σ → Prop} {step : σ → ι → Except ε σ} {c : σ → ι → Prop}
    (h : ∀ s i, ¬ c s i → ∃ e, step s i = .error e) :
    ∀ {is : List ι} {s : σ}, Ends p (fun _ => False) (run step s is) → RunMeets step c s is := by
  intro is
  induction is with
  | nil => exact fun _ => trivial
  | cons i is ih =>
    intro s hends
    rw [run] at hends
    constructor
    · by_contra hnot
      obtain ⟨e, he⟩ := h s i hnot
      rw [he] at hends
      exact hends
    · intro s' hs'
      rw [hs'] at hends
      exact ih hends

/-- The second part of a run starts where the first ends. -/
theorem RunMeets.append {step : σ → ι → Except ε σ} {c : σ → ι → Prop} {js : List ι} :
    ∀ {is : List ι} {s : σ}, RunMeets step c s (is ++ js) →
      Ends (fun s' => RunMeets step c s' js) (fun _ => True) (run step s is) := by
  intro is
  induction is with
  | nil => exact fun h => h
  | cons i is ih =>
    intro s h
    rw [run]
    cases h1 : step s i with
    | error e => trivial
    | ok s1 => exact ih (h.2 s1 h1)

theorem RunMeets.left {step : σ → ι → Except ε σ} {c : σ → ι → Prop} {js : List ι} :
    ∀ {is : List ι} {s : σ}, RunMeets step c s (is ++ js) → RunMeets step c s is := by
  intro is
  induction is with
  | nil => exact fun _ => trivial
  | cons i is ih => exact fun h => ⟨h.1, fun s' h' => ih (h.2 s' h')⟩

/-! ## Traces -/

/-- Every mark of a trace is justified by what was there before it. -/
def Justified {μ : Type} (permits : List μ → μ → Prop) (t : List μ) : Prop :=
  ∀ before m after, t = before ++ m :: after → permits before m

theorem Justified.nil {μ : Type} {permits : List μ → μ → Prop} : Justified permits [] := by
  intro before m after h
  simp at h

/-- What is there was permitted when it came. -/
theorem Justified.of_mem {μ : Type} {permits : List μ → μ → Prop} {t : List μ} {m : μ}
    (h : Justified permits t) (hm : m ∈ t) : ∃ before, before <+: t ∧ permits before m := by
  obtain ⟨before, after, rfl⟩ := List.append_of_mem hm
  exact ⟨before, List.prefix_append _ _, h before m after rfl⟩

theorem Justified.append {μ : Type} {permits : List μ → μ → Prop} {t : List μ} {m : μ}
    (h : Justified permits t) (hm : permits t m) : Justified permits (t ++ [m]) := by
  intro before m' after heq
  rcases List.eq_nil_or_concat after with rfl | ⟨after, last, rfl⟩
  · -- the new mark
    obtain ⟨rfl, hm'⟩ := List.append_inj' heq rfl
    cases hm'
    exact hm
  · rw [List.concat_eq_append, ← List.cons_append, ← List.append_assoc] at heq
    obtain ⟨h1, -⟩ := List.append_inj' heq rfl
    exact h before m' after h1

end Lib
