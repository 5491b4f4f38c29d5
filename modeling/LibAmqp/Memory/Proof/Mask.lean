import LibAmqp.Memory.Pool
import Mathlib.Tactic.IntervalCases

/-!
# The free mask of a block, bit by bit

The pool scans the mask byte by byte to allocate and addresses it by index to free, and compares
the whole word to see that a block is empty. These lemmas say what each does to the bits:

* `findFree_spec`: the scan takes the lowest set bit, clears it and leaves the others.
* `getLsbD_freed`: freeing an index sets its bit only.
* `emptied_iff`: the test for an empty block reads the bits below `n`.
-/

namespace Amqp.Memory

/-! ## Bytes of the mask -/

theorem getLsbD_maskByte (m : BitVec 64) (i j : Nat) :
    (maskByte m i).getLsbD j = (decide (j < 8) && m.getLsbD (8 * i + j)) := by
  simp [maskByte, BitVec.getLsbD_extractLsb']

theorem getLsbD_setMaskByte (m : BitVec 64) (i : Nat) (b : BitVec 8) {k : Nat} (hk : k < 64) :
    (setMaskByte m i b).getLsbD k =
      if 8 * i ≤ k ∧ k < 8 * i + 8 then b.getLsbD (k - 8 * i) else m.getLsbD k := by
  have hff : ∀ j, (0xff#64).getLsbD j = decide (j < 8) := by
    intro j
    by_cases hj : j < 64
    · interval_cases j <;> rfl
    · rw [BitVec.getLsbD_of_ge _ _ (by omega)]
      simp; omega
  simp only [setMaskByte, BitVec.getLsbD_or, BitVec.getLsbD_and, BitVec.getLsbD_not,
    BitVec.getLsbD_shiftLeft, BitVec.getLsbD_setWidth, hff, hk, decide_true, Bool.true_and]
  by_cases hlo : k < 8 * i
  · simp [hlo, show ¬ 8 * i ≤ k by omega]
  · by_cases hhi : k < 8 * i + 8
    · simp [hlo, hhi, show 8 * i ≤ k by omega, show k - 8 * i < 8 by omega,
        show k - 8 * i < 64 by omega]
    · have h8 : b.getLsbD (k - 8 * i) = false := BitVec.getLsbD_of_ge _ _ (by omega)
      simp [hlo, hhi, h8, show ¬ k - 8 * i < 8 by omega]

/-! ## Taking the lowest free slot -/

/-- On a non-zero byte the scan stops at its lowest set bit. -/
theorem findFirst_spec : ∀ byte : BitVec 8, byte ≠ 0#8 → ∃ j < 8, findFirstFreeAllocation byte = .ok j ∧
    byte.getLsbD j = true ∧ ∀ i < j, byte.getLsbD i = false := by
  decide +kernel

theorem getLsbD_cleared {m : BitVec 64} {i j k : Nat} (hj : j < 8) (hk : k < 64) :
    (setMaskByte m i (maskByte m i &&& ~~~(1#8 <<< j))).getLsbD k =
      (m.getLsbD k && decide (k ≠ i * 8 + j)) := by
  rw [getLsbD_setMaskByte _ _ _ hk]
  split
  · rename_i h
    have e : 8 * i + (k - 8 * i) = k := by omega
    have h1 : (1#8).getLsbD (k - 8 * i - j) = decide (k - 8 * i - j = 0) := by
      rw [BitVec.getLsbD_one]; simp
    simp only [BitVec.getLsbD_and, getLsbD_maskByte, BitVec.getLsbD_not, BitVec.getLsbD_shiftLeft,
      e, h1, show k - 8 * i < 8 by omega, decide_true, Bool.true_and]
    rw [Bool.eq_iff_iff]
    simp only [Bool.and_eq_true, Bool.not_eq_true', Bool.and_eq_false_iff, decide_eq_false_iff_not,
      Bool.not_eq_false', decide_eq_true_eq]
    refine and_congr_right fun _ => ?_
    omega
  · rename_i h
    simp [show k ≠ i * 8 + j by omega]

/-- The byte scan takes the lowest set bit of the mask, clears it and leaves the others. -/
theorem findFreeGo_spec {m : BitVec 64} : ∀ {k i : Nat}, i + k ≤ 8 →
    (∀ b, b < 8 * i → m.getLsbD b = false) → (∃ b, b < 8 * (i + k) ∧ m.getLsbD b = true) →
    ∃ idx m', findFreeAllocationWithinBlock.go m k i = .ok (idx, m') ∧ m.getLsbD idx = true ∧
      (∀ b < idx, m.getLsbD b = false) ∧ ∀ b, m'.getLsbD b = (m.getLsbD b && decide (b ≠ idx))
  | 0, i, _, hlo, ⟨b, hb, hm⟩ => by
    rw [hlo b (by omega)] at hm; cases hm
  | k + 1, i, hik, hlo, hex => by
    unfold findFreeAllocationWithinBlock.go
    by_cases hz : maskByte m i = 0#8
    · rw [if_neg (by simpa using hz)]
      refine findFreeGo_spec (by omega) (fun b hb => ?_) ?_
      · by_cases hb' : b < 8 * i
        · exact hlo b hb'
        · have := getLsbD_maskByte m i (b - 8 * i)
          rw [hz, show 8 * i + (b - 8 * i) = b by omega] at this
          simpa [show b - 8 * i < 8 by omega] using this.symm
      · obtain ⟨b, hb, hm⟩ := hex
        exact ⟨b, by omega, hm⟩
    · rw [if_pos hz]
      obtain ⟨j, hj, hf, hset, hbelow⟩ := findFirst_spec _ hz
      have hbit : ∀ c < 8, (maskByte m i).getLsbD c = m.getLsbD (8 * i + c) := fun c hc => by
        rw [getLsbD_maskByte, decide_eq_true hc, Bool.true_and]
      refine ⟨i * 8 + j, _, by rw [hf]; rfl, ?_, ?_, fun b => ?_⟩
      · rw [show i * 8 + j = 8 * i + j by omega, ← hbit j hj, hset]
      · intro b hb
        by_cases hb' : b < 8 * i
        · exact hlo b hb'
        · have := hbelow (b - 8 * i) (by omega)
          rwa [hbit _ (by omega), show 8 * i + (b - 8 * i) = b by omega] at this
      · by_cases hb : b < 64
        · exact getLsbD_cleared hj hb
        · rw [BitVec.getLsbD_of_ge _ _ (by omega), BitVec.getLsbD_of_ge _ _ (by omega)]; rfl

theorem findFree_spec {α : Type} {pool : MemoryPool α} {b : Block α}
    (hn : pool.allocationsPerBlock ≤ 63) (hz : b.mask ≠ 0#64)
    (hhi : ∀ k, b.mask.getLsbD k = true → k < pool.allocationsPerBlock) :
    ∃ idx m', findFreeAllocationWithinBlock pool b = .ok (idx, m') ∧ b.mask.getLsbD idx = true ∧
      (∀ k < idx, b.mask.getLsbD k = false) ∧
      ∀ k, m'.getLsbD k = (b.mask.getLsbD k && decide (k ≠ idx)) := by
  unfold findFreeAllocationWithinBlock
  rw [if_neg hz]
  refine findFreeGo_spec (by omega) (fun k hk => by omega) ?_
  by_contra hno
  refine hz (BitVec.eq_of_getLsbD_eq fun k hk => ?_)
  by_contra hk'
  have hk'' : b.mask.getLsbD k = true := by simpa using hk'
  exact hno ⟨k, by have := hhi k hk''; omega, hk''⟩

/-! ## Freeing a slot -/

theorem getLsbD_freed {m : BitVec 64} {idx k : Nat} (hi : idx < 64) :
    (setMaskByte m (idx / 8) (maskByte m (idx / 8) ||| (1#8 <<< (idx % 8)))).getLsbD k =
      (m.getLsbD k || decide (k = idx)) := by
  by_cases hk : k < 64
  · rw [getLsbD_setMaskByte _ _ _ hk]
    split
    · rename_i h
      have e : 8 * (idx / 8) + (k - 8 * (idx / 8)) = k := by omega
      have h1 : (1#8).getLsbD (k - 8 * (idx / 8) - idx % 8) =
          decide (k - 8 * (idx / 8) - idx % 8 = 0) := by
        rw [BitVec.getLsbD_one]; simp
      simp only [BitVec.getLsbD_or, getLsbD_maskByte, BitVec.getLsbD_shiftLeft, e, h1,
        show k - 8 * (idx / 8) < 8 by omega, decide_true, Bool.true_and]
      congr 1
      rw [Bool.eq_iff_iff]
      simp only [Bool.and_eq_true, Bool.not_eq_true', decide_eq_false_iff_not, decide_eq_true_eq]
      omega
    · simp [show k ≠ idx by omega]
  · rw [BitVec.getLsbD_of_ge _ _ (by omega), BitVec.getLsbD_of_ge _ _ (by omega)]
    simp; omega

/-! ## The mask of all slots -/

theorem allocationsMaskFor_eq : ∀ n < 64, 1 ≤ n →
    allocationsMaskFor n = BitVec.ofNat 64 (2 ^ n - 1) := by
  decide +kernel

theorem getLsbD_allocationsMask {n : Nat} (h1 : 1 ≤ n) (h2 : n ≤ 63) (k : Nat) :
    (allocationsMaskFor n).getLsbD k = decide (k < n) := by
  rw [allocationsMaskFor_eq n (by omega) h1, BitVec.getLsbD_ofNat, Nat.testBit_two_pow_sub_one]
  by_cases hk : k < n
  · simp [hk]; omega
  · simp [hk]

/-- The test for an empty block: every slot below `n` is free. -/
theorem emptied_iff {n : Nat} (h1 : 1 ≤ n) (h2 : n ≤ 63) (m : BitVec 64) :
    ~~~m &&& allocationsMaskFor n = 0#64 ↔ ∀ k < n, m.getLsbD k = true := by
  constructor
  · intro h k hk
    have := congrArg (BitVec.getLsbD · k) h
    simp only [BitVec.getLsbD_and, BitVec.getLsbD_not, getLsbD_allocationsMask h1 h2, hk,
      show k < 64 by omega, decide_true, Bool.true_and, Bool.and_true] at this
    simpa using this
  · intro h
    refine BitVec.eq_of_getLsbD_eq fun k hk => ?_
    simp only [BitVec.getLsbD_and, BitVec.getLsbD_not, getLsbD_allocationsMask h1 h2]
    by_cases hkn : k < n
    · simp [h k hkn]
    · simp [hkn]

end Amqp.Memory
