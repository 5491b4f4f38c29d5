import LibAmqp.Codec.Proof.Table

/-!
# Where a walk goes

* `walkInto_bounds` and its companions: a walk from inside the bytes stays inside and never goes
  back.
* `walkContainer_cases`: the four ways a container's fields can turn out.
-/

namespace Amqp

open Lib

variable {inp : Input}

/-- Walking with `into` from inside the bytes goes forward and stays inside. -/
def Bounded (inp : Input) (into : Walk) : Prop :=
  ∀ m start i, i ≤ inp.size → i ≤ (into m start i).1.stop ∧ (into m start i).1.stop ≤ inp.size

theorem walkDecode_bounds {into : Walk} (h : Bounded inp into) {i : Nat} (hi : i ≤ inp.size) :
    i ≤ stopOf (walkDecode into inp i) i ∧ stopOf (walkDecode into inp i) i ≤ inp.size := by
  unfold walkDecode
  split
  · rename_i hlt
    split
    · simp only [stopOf, Option.elim]
      omega
    · rename_i m _
      have := h m i (i + 1) hlt
      simp only [stopOf, Option.elim]
      omega
  · exact ⟨Nat.le_refl _, hi⟩

/-- The next type of a list is read forward and inside the bytes. -/
def BoundedNext (inp : Input) (next : Nat → Option Outline) : Prop :=
  ∀ i, i ≤ inp.size → i ≤ stopOf (next i) i ∧ stopOf (next i) i ≤ inp.size

theorem walkMany_bounds {next : Nat → Option Outline} (h : BoundedNext inp next) (n : Nat) :
    ∀ {i : Nat}, i ≤ inp.size → i ≤ (walkMany next n i).2 ∧ (walkMany next n i).2 ≤ inp.size := by
  induction n with
  | zero => exact fun hi => ⟨Nat.le_refl _, hi⟩
  | succ n ih =>
    intro i hi
    have h1 := h i hi
    have h2 := ih h1.2
    simp only [walkMany]
    omega

theorem arrayConstructor_bounds {i : Nat} (hi : i ≤ inp.size) :
    i ≤ (arrayConstructor inp i).2 ∧ (arrayConstructor inp i).2 ≤ inp.size := by
  unfold arrayConstructor
  split
  · simp only; omega
  · exact ⟨Nat.le_refl _, hi⟩

theorem field_le {w i : Nat} (hi : i ≤ inp.size) :
    i ≤ (inp.field w i).2 ∧ (inp.field w i).2 ≤ inp.size := Buffer.readField_le hi

theorem field_some {w i v j : Nat} (h : inp.field w i = (some v, j)) :
    i + w ≤ inp.size ∧ j = i + w := by
  have hval : (inp.field w i).1 = some v := by rw [h]
  have := Buffer.readField_some hval
  refine ⟨this.1, ?_⟩
  have h2 : (inp.field w i).2 = i + w := this.2
  rw [h] at h2
  exact h2

/-- A field that is missing, or that reads as the `-1` of the code, leaves the index before or behind
it. -/
theorem field_none {w i j : Nat} (h : inp.field w i = (none, j)) : j = i ∨ j = i + w := by
  have hj : (inp.field w i).2 = j := by rw [h]
  rw [Input.field, Buffer.readField] at hj
  split at hj
  · exact .inr hj.symm
  · exact .inl hj.symm

/-- How the fields of a container can turn out: no size, a size beyond the bytes, no count, or
both fields and then the elements. -/
theorem walkContainer_cases (inp : Input) (m : EncodingMetaData) (start i : Nat)
    (elements : Nat → Nat → Nat → Nat → Outline) :
    (∃ j, inp.field m.width i = (none, j) ∧
      walkContainer inp m start i elements = (⟨m.formatCode, start, j, false, j, 0⟩, .nil)) ∨
    (∃ size j, inp.field m.width i = (some size, j) ∧ ¬ inp.Available j size ∧
      walkContainer inp m start i elements = (⟨m.formatCode, start, j, false, j, 0⟩, .nil)) ∨
    (∃ size j k, inp.field m.width i = (some size, j) ∧ inp.Available j size ∧
      inp.field m.width j = (none, k) ∧
      walkContainer inp m start i elements = (⟨m.formatCode, start, k, false, j, size⟩, .nil)) ∨
    ∃ size j count k, inp.field m.width i = (some size, j) ∧ inp.Available j size ∧
      inp.field m.width j = (some count, k) ∧
      walkContainer inp m start i elements = elements j size count k := by
  unfold walkContainer
  rcases h1 : inp.field m.width i with ⟨_ | size, j⟩
  · exact .inl ⟨j, rfl, rfl⟩
  · by_cases ha : inp.Available j size
    · rcases h2 : inp.field m.width j with ⟨_ | count, k⟩
      · exact .inr (.inr (.inl ⟨size, j, k, rfl, ha, h2, by simp only [if_pos ha, h2]⟩))
      · exact .inr (.inr (.inr ⟨size, j, count, k, rfl, ha, h2, by simp only [if_pos ha, h2]⟩))
    · exact .inr (.inl ⟨size, j, rfl, ha, by simp only [if_neg ha]⟩)

theorem walkInto_bounds (inp : Input) (fuel : Nat) : Bounded inp (walkInto inp fuel) := by
  induction fuel with
  | zero => exact fun m start i hi => ⟨Nat.le_refl _, hi⟩
  | succ fuel ih =>
    intro m start i hi
    have hf := field_le (w := m.width) hi
    unfold walkInto
    split
    · exact ⟨Nat.le_refl _, hi⟩
    · exact ⟨Nat.le_refl _, hi⟩
    · split
      · rename_i ha
        exact ⟨Nat.le_add_right _ _, ha.2⟩
      · exact ⟨Nat.le_refl _, hi⟩
    · split
      · rename_i j hr
        rw [hr] at hf
        exact hf
      · rename_i size j hr
        rw [hr] at hf
        split
        · rename_i ha
          exact ⟨Nat.le_trans hf.1 (Nat.le_add_right _ _), ha.2⟩
        · exact hf
    · rcases walkContainer_cases inp m start i _ with ⟨j, hr, h⟩ | ⟨size, j, hr, _, h⟩ |
        ⟨size, j, k, hr, _, hr2, h⟩ | ⟨size, j, count, k, hr, _, hr2, h⟩ <;> rw [h] <;> rw [hr] at hf
      · exact hf
      · exact hf
      · have hf2 := field_le (w := m.width) hf.2
        rw [hr2] at hf2
        exact ⟨Nat.le_trans hf.1 hf2.1, hf2.2⟩
      · have hf2 := field_le (w := m.width) hf.2
        rw [hr2] at hf2
        have he := walkMany_bounds (fun i hi => walkDecode_bounds ih hi) count hf2.2
        exact ⟨Nat.le_trans hf.1 (Nat.le_trans hf2.1 he.1), he.2⟩
    · rcases walkContainer_cases inp m start i _ with ⟨j, hr, h⟩ | ⟨size, j, hr, _, h⟩ |
        ⟨size, j, k, hr, _, hr2, h⟩ | ⟨size, j, count, k, hr, _, hr2, h⟩ <;> rw [h] <;> rw [hr] at hf
      · exact hf
      · exact hf
      · have hf2 := field_le (w := m.width) hf.2
        rw [hr2] at hf2
        exact ⟨Nat.le_trans hf.1 hf2.1, hf2.2⟩
      · have hf2 := field_le (w := m.width) hf.2
        rw [hr2] at hf2
        have hc := arrayConstructor_bounds hf2.2
        split
        · exact ⟨Nat.le_trans hf.1 (Nat.le_trans hf2.1 hc.1), hc.2⟩
        · rename_i element _
          have hnext : BoundedNext inp fun i => some (walkInto inp fuel element i i) :=
            fun i hi => ih element i i hi
          have he := walkMany_bounds hnext count hc.2
          exact ⟨Nat.le_trans hf.1 (Nat.le_trans hf2.1 (Nat.le_trans hc.1 he.1)), he.2⟩
    · have h1 := walkDecode_bounds ih hi
      have h2 := walkDecode_bounds ih h1.2
      exact ⟨Nat.le_trans h1.1 h2.1, h2.2⟩

theorem walkMany_length (next : Nat → Option Outline) (n : Nat) :
    ∀ i, (walkMany next n i).1.length = n := by
  induction n with
  | zero => exact fun _ => rfl
  | succ n ih =>
    intro i
    simp only [walkMany]
    cases next i <;> simp [Forest.cons, Forest.length, ih]

/-- What holds of every type that is read one by one holds of the roots of their list. -/
theorem walkMany_roots (next : Nat → Option Outline) {q : Item → Prop}
    (h : ∀ i o, next i = some o → q o.1) (n : Nat) :
    ∀ i item, some item ∈ (walkMany next n i).1.roots → q item := by
  induction n with
  | zero => exact fun _ _ hi => nomatch hi
  | succ n ih =>
    intro i item hitem
    simp only [walkMany] at hitem
    cases hn : next i with
    | none =>
      simp only [hn, Forest.cons, Forest.roots, List.mem_cons, reduceCtorEq, false_or] at hitem
      exact ih _ item hitem
    | some o =>
      simp only [hn, Forest.cons, Forest.roots, List.mem_cons, Option.some.injEq] at hitem
      rcases hitem with rfl | hitem
      · exact h i o hn
      · exact ih _ item hitem

/-- The item of a walk has the format code of its constructor. -/
theorem walkInto_code (inp : Input) (fuel : Nat) (m : EncodingMetaData) (start i : Nat) :
    (walkInto inp fuel m start i).1.code = m.formatCode ∧
      (walkInto inp fuel m start i).1.start = start := by
  cases fuel with
  | zero => exact ⟨rfl, rfl⟩
  | succ fuel =>
    unfold walkInto
    split
    · exact ⟨rfl, rfl⟩
    · exact ⟨rfl, rfl⟩
    · split <;> exact ⟨rfl, rfl⟩
    · split
      · exact ⟨rfl, rfl⟩
      · split <;> exact ⟨rfl, rfl⟩
    · rcases walkContainer_cases inp m start i _ with ⟨j, hr, h⟩ | ⟨size, j, hr, _, h⟩ |
        ⟨size, j, k, hr, _, hr2, h⟩ | ⟨size, j, count, k, hr, _, hr2, h⟩ <;> rw [h] <;>
        exact ⟨rfl, rfl⟩
    · rcases walkContainer_cases inp m start i _ with ⟨j, hr, h⟩ | ⟨size, j, hr, _, h⟩ |
        ⟨size, j, k, hr, _, hr2, h⟩ | ⟨size, j, count, k, hr, _, hr2, h⟩ <;> rw [h]
      · exact ⟨rfl, rfl⟩
      · exact ⟨rfl, rfl⟩
      · exact ⟨rfl, rfl⟩
      · split <;> exact ⟨rfl, rfl⟩
    · exact ⟨rfl, rfl⟩

end Amqp
