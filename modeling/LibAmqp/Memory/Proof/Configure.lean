import LibAmqp.Memory.Configure
import LibAmqp.Memory.Proof.Mask

/-!
# When the configuration of a pool is usable

* `adjustBlockSize_eq`: a suggestion other than zero becomes a power of two; zero is never left.
* `fitAllocations_ok`: a block with room for a slot is divided in at most two rounds.
* `usable_iff`: the configuration is usable if and only if one slot fits.
-/

namespace Amqp.Memory

open Lib

variable {suggested allocationSize : BitVec 64}

/-! ## The size of a block -/

/-- The loop from a power of two: it stops at the one that the suggestion is rounded to. -/
theorem adjustBlockSize_go_eq (h : 0 < suggested.toNat) : ∀ {k fuel : Nat}, k ≤ 12 → k < fuel →
    adjustBlockSize.go suggested fuel (BitVec.ofNat 64 (2 ^ k)) =
      .ok (BitVec.ofNat 64 (2 ^ min k (Nat.clog 2 suggested.toNat))) := by
  intro k
  induction k with
  | zero =>
    intro fuel _ hfuel
    obtain ⟨fuel, rfl⟩ : ∃ m, fuel = m + 1 := ⟨fuel - 1, by omega⟩
    unfold adjustBlockSize.go
    rw [if_pos (BitVec.lt_def.2 (by simpa using h)), Nat.zero_min]
  | succ k ih =>
    intro fuel hk hfuel
    obtain ⟨fuel, rfl⟩ : ∃ m, fuel = m + 1 := ⟨fuel - 1, by omega⟩
    have hpow : 2 ^ (k + 1) ≤ 2 ^ 12 := Nat.pow_le_pow_right (by decide) hk
    have hsucc : 2 ^ (k + 1) = 2 * 2 ^ k := Nat.pow_succ'
    have hhalf : BitVec.ofNat 64 (2 ^ (k + 1)) >>> 1 = BitVec.ofNat 64 (2 ^ k) := by
      apply BitVec.eq_of_toNat_eq
      rw [BitVec.toNat_ushiftRight, BitVec.toNat_ofNat, BitVec.toNat_ofNat, Nat.shiftRight_eq_div_pow]
      omega
    have hlt : BitVec.ofNat 64 (2 ^ k) < suggested ↔ 2 ^ k < suggested.toNat := by
      rw [BitVec.lt_def, BitVec.toNat_ofNat, Nat.mod_eq_of_lt (by omega)]
    unfold adjustBlockSize.go
    simp only [hhalf, hlt]
    split
    · rename_i hbig
      rw [min_eq_left ((Nat.lt_clog_iff_pow_lt (by decide)).2 hbig)]
    · rename_i hsmall
      have hle : Nat.clog 2 suggested.toNat ≤ k := Nat.clog_le_of_le_pow (Nat.le_of_not_lt hsmall)
      rw [ih (by omega) (by omega), min_eq_right hle, min_eq_right (Nat.le_succ_of_le hle)]

/-- Nothing is below a suggestion of zero: the loop goes on. -/
theorem adjustBlockSize_go_zero : ∀ (fuel : Nat) (size : BitVec 64),
    adjustBlockSize.go 0 fuel size = .error .outOfFuel
  | 0, _ => rfl
  | fuel + 1, size => by
    unfold adjustBlockSize.go
    rw [if_neg (by simp [BitVec.lt_def]), adjustBlockSize_go_zero]

/-- More fuel gives the same size. -/
theorem adjustBlockSize_go_ok : ∀ {fuel : Nat} {size r : BitVec 64},
    adjustBlockSize.go suggested fuel size = .ok r →
      ∀ {fuel' : Nat}, fuel ≤ fuel' → adjustBlockSize.go suggested fuel' size = .ok r
  | 0, _, _, h, _, _ => nomatch h
  | fuel + 1, size, r, h, fuel', hle => by
    obtain ⟨fuel', rfl⟩ : ∃ m, fuel' = m + 1 := ⟨fuel' - 1, by omega⟩
    unfold adjustBlockSize.go at h ⊢
    simp only at h ⊢
    split at h
    · rename_i hstop
      rw [if_pos hstop, h]
    · rename_i hgo
      rw [if_neg hgo]
      exact adjustBlockSize_go_ok h (Nat.le_of_succ_le_succ hle)

/-- A suggestion other than zero is rounded up to a power of two, at most 4096. -/
theorem adjustBlockSize_eq (h : 0 < suggested.toNat) {fuel : Nat} (hfuel : 12 < fuel) :
    adjustBlockSize fuel suggested = .ok (BitVec.ofNat 64 (2 ^ min 12 (Nat.clog 2 suggested.toNat))) :=
  adjustBlockSize_go_eq h (Nat.le_refl _) hfuel

/-- The size in numbers. -/
theorem toNat_adjusted (n : Nat) :
    (BitVec.ofNat 64 (2 ^ min 12 (Nat.clog 2 n))).toNat = min 4096 (2 ^ Nat.clog 2 n) := by
  have hmono : Monotone fun k : Nat => 2 ^ k := fun _ _ h => Nat.pow_le_pow_right (by decide) h
  have hmin : 2 ^ min 12 (Nat.clog 2 n) = min 4096 (2 ^ Nat.clog 2 n) := hmono.map_min
  rw [BitVec.toNat_ofNat, hmin, Nat.mod_eq_of_lt (Nat.lt_of_le_of_lt (min_le_left _ _) (by decide))]

/-! ## The size of a slot -/

/-- An object that fits a block has a slot of the size that the code computes. -/
theorem toNat_allocationSize (debugAllocations : Bool) {objectSize : BitVec 64}
    (h1 : 1 ≤ objectSize.toNat) (h2 : slotSize debugAllocations objectSize.toNat ≤ 4096) :
    (calculateAllocationTSizeInBytes (calculateOffsetToAllocationData debugAllocations)
      (byteCountRoundedToSizeTArraySize objectSize)).toNat =
        slotSize debugAllocations objectSize.toNat := by
  unfold slotSize at h2 ⊢
  have hsmall : objectSize.toNat ≤ 4096 := by omega
  have hwords : (byteCountRoundedToSizeTArraySize objectSize).toNat =
      max 2 ((objectSize.toNat + 7) / 8) := by
    have hdiv : ((objectSize - 1) / sizeTBytes + 1).toNat = (objectSize.toNat + 7) / 8 := by
      unfold sizeTBytes
      have h8 : (8 : BitVec 64).toNat = 8 := rfl
      have hone : (1 : BitVec 64).toNat = 1 := rfl
      rw [BitVec.toNat_add, BitVec.toNat_udiv, BitVec.toNat_sub, h8, hone]
      omega
    unfold byteCountRoundedToSizeTArraySize
    simp only [BitVec.lt_def, hdiv]
    have hmin : minFragments.toNat = 2 := rfl
    split
    · omega
    · omega
  have hoffset : (calculateOffsetToAllocationData debugAllocations).toNat =
      if debugAllocations then 48 else 16 := by
    cases debugAllocations <;> rfl
  have h8 : sizeTBytes.toNat = 8 := rfl
  have hone : (1 : BitVec 64).toNat = 1 := rfl
  unfold calculateAllocationTSizeInBytes
  rw [BitVec.toNat_add, BitVec.toNat_mul, BitVec.toNat_add, hwords, hoffset, h8, hone]
  generalize (if debugAllocations = true then 48 else 16) = offset at h2 ⊢
  omega

/-! ## The number of slots -/

/-- The loop only makes the block smaller. -/
theorem fitAllocations_le : ∀ {fuel : Nat} {blockSize : BitVec 64} {n : BitVec 32} {size : BitVec 64},
    fitAllocations allocationSize fuel blockSize = .ok (n, size) → size.toNat ≤ blockSize.toNat
  | 0, _, _, _, h => nomatch h
  | fuel + 1, blockSize, n, size, h => by
    unfold fitAllocations at h
    simp only at h
    split at h
    · cases h
    · split at h
      · have := fitAllocations_le h
        rw [BitVec.toNat_udiv] at this
        exact Nat.le_trans this (Nat.div_le_self _ _)
      · cases h
        exact Nat.le_refl _

/-- A block of at most 4096 bytes with room for a slot: it is divided, or it is halved once. -/
theorem fitAllocations_ok (fuel : Nat) {blockSize : BitVec 64} (hslot : 40 ≤ allocationSize.toNat)
    (hroom : 32 + allocationSize.toNat ≤ blockSize.toNat) (hsize : blockSize.toNat ≤ 4096) :
    ∃ n size, fitAllocations allocationSize (fuel + 2) blockSize = .ok (n, size) ∧ 1 ≤ n.toNat ∧
      n.toNat ≤ 64 ∧ 32 + n.toNat * allocationSize.toNat ≤ size.toNat := by
  have hne : allocationSize ≠ 0 := by
    rintro rfl
    exact absurd hslot (by decide)
  have hfirst : calculateBlockOffsetToFirstAllocation.toNat = 32 := rfl
  have htwo : (2 : BitVec 64).toNat = 2 := rfl
  -- the number of slots is small: as an `int` it is the same number
  have hslots : ∀ size : BitVec 64, 32 ≤ size.toNat → size.toNat ≤ 4096 →
      let n := ((size - calculateBlockOffsetToFirstAllocation) / allocationSize).setWidth 32
      n.toNat = (size.toNat - 32) / allocationSize.toNat ∧ (n.signExtend 64).toNat = n.toNat := by
    intro size h1 h2
    have hle : (size.toNat - 32) / allocationSize.toNat ≤ 4096 :=
      Nat.le_trans (Nat.div_le_self _ _) (by omega)
    have hn : (((size - calculateBlockOffsetToFirstAllocation) / allocationSize).setWidth 32).toNat =
        (size.toNat - 32) / allocationSize.toNat := by
      rw [BitVec.toNat_setWidth, BitVec.toNat_udiv, BitVec.toNat_sub, hfirst,
        show (2 ^ 64 - 32 + size.toNat) % 2 ^ 64 = size.toNat - 32 by omega]
      exact Nat.mod_eq_of_lt (by omega)
    refine ⟨hn, ?_⟩
    rw [BitVec.signExtend_eq_setWidth_of_msb_false, BitVec.toNat_setWidth, hn]
    · exact Nat.mod_eq_of_lt (by omega)
    · rw [BitVec.msb_eq_false_iff_two_mul_lt, hn]
      omega
  obtain ⟨hn, hext⟩ := hslots blockSize (by omega) hsize
  have hmul := Nat.div_mul_le_self (blockSize.toNat - 32) allocationSize.toNat
  have hpos := Nat.div_pos (show allocationSize.toNat ≤ blockSize.toNat - 32 by omega) (by omega)
  unfold fitAllocations
  rw [if_neg hne]
  simp only [hext, hn, longBit]
  split
  · rename_i hmany
    have hhalf : (blockSize / 2).toNat = blockSize.toNat / 2 := by
      rw [BitVec.toNat_udiv, htwo]
    -- more than 64 slots in 4096 bytes are of less than 64 bytes each
    have hlt : 65 * allocationSize.toNat ≤ blockSize.toNat - 32 :=
      Nat.le_trans (Nat.mul_le_mul_right _ hmany) hmul
    obtain ⟨hn', hext'⟩ := hslots (blockSize / 2) (by omega) (by omega)
    have hmul' := Nat.div_mul_le_self ((blockSize / 2).toNat - 32) allocationSize.toNat
    have hpos' := Nat.div_pos
      (show allocationSize.toNat ≤ (blockSize / 2).toNat - 32 by omega) (by omega)
    have hfew : ((blockSize / 2).toNat - 32) / allocationSize.toNat ≤ 64 :=
      Nat.le_trans (Nat.div_le_div_left hslot (by decide)) (by omega)
    unfold fitAllocations
    rw [if_neg hne]
    simp only [hext', hn', longBit]
    rw [if_neg (Nat.not_lt.2 hfew)]
    refine ⟨_, _, rfl, ?_, ?_, ?_⟩
    · rw [hn']
      exact hpos'
    · rw [hn']
      exact hfew
    · rw [hn']
      omega
  · rename_i hfew
    refine ⟨_, _, rfl, ?_, ?_, ?_⟩
    · rw [hn]
      exact hpos
    · rw [hn]
      omega
    · rw [hn]
      omega

/-! ## The configuration -/

section
variable {debugAllocations : Bool} {objectSize : BitVec 64}

/-- What is usable has a slot in a block, and no block is larger than what was asked for. -/
theorem Usable.hasRoom (h : Usable debugAllocations objectSize suggested) :
    HasRoom debugAllocations objectSize suggested := by
  obtain ⟨fuel, pool, n, hpool, -, hn, -, -, hfits⟩ := h
  unfold amqpInitializePoolSuggestingBlockSize at hpool
  obtain ⟨blockSize, hadjust, hpool⟩ := Fault.bind_eq_ok.1 hpool
  obtain ⟨⟨slots, size⟩, hfit, hpool⟩ := Fault.bind_eq_ok.1 hpool
  cases hpool
  have hpos : 0 < suggested.toNat := by
    apply Nat.pos_of_ne_zero
    intro h0
    rw [adjustBlockSize, show suggested = 0 from BitVec.eq_of_toNat_eq h0, adjustBlockSize_go_zero]
      at hadjust
    cases hadjust
  have hmax := adjustBlockSize_eq hpos (show 12 < fuel + 13 by omega)
  rw [adjustBlockSize, adjustBlockSize_go_ok hadjust (Nat.le_add_right _ _)] at hmax
  cases hmax
  have hle := fitAllocations_le hfit
  rw [toNat_adjusted] at hle
  have hslot : slotSize debugAllocations objectSize.toNat ≤
      n.toNat * slotSize debugAllocations objectSize.toNat :=
    Nat.le_mul_of_pos_left _ (by omega)
  unfold HasRoom
  exact Nat.le_trans (Nat.add_le_add_left hslot _) (Nat.le_trans hfits hle)

theorem HasRoom.usable (h1 : 1 ≤ objectSize.toNat) (h : HasRoom debugAllocations objectSize suggested) :
    Usable debugAllocations objectSize suggested := by
  unfold HasRoom at h
  have hslot : 40 ≤ slotSize debugAllocations objectSize.toNat := by
    unfold slotSize
    split <;> omega
  have hpos : 0 < suggested.toNat := by
    apply Nat.pos_of_ne_zero
    intro h0
    rw [h0, Nat.clog_zero_right] at h
    omega
  have hsize := toNat_allocationSize debugAllocations h1 (by omega)
  have hadjusted := toNat_adjusted suggested.toNat
  obtain ⟨n, size, hfit, hn, hn', hfits⟩ := fitAllocations_ok 11 (hsize ▸ hslot)
    (show _ ≤ (BitVec.ofNat 64 (2 ^ min 12 (Nat.clog 2 suggested.toNat))).toNat by
      rw [hsize, hadjusted]; exact h)
    (by rw [hadjusted]; exact min_le_left _ _)
  rw [hsize] at hfits
  have hint : n.toInt = n.toNat := by
    rw [BitVec.toInt_eq_toNat_of_msb]
    rw [BitVec.msb_eq_false_iff_two_mul_lt]
    omega
  have hpool : ∃ pool, amqpInitializePoolSuggestingBlockSize debugAllocations 13 objectSize suggested =
      .ok pool ∧ pool.allocationsPerBlock = n ∧ pool.allocationsMask = allocationsMaskFor n.toNat ∧
      pool.blockSize = size := by
    unfold amqpInitializePoolSuggestingBlockSize
    rw [adjustBlockSize_eq hpos (by decide), Fault.ok_bind]
    dsimp only
    rw [hfit]
    exact ⟨_, rfl, rfl, rfl, rfl⟩
  obtain ⟨pool, hpool, rfl, hmask, rfl⟩ := hpool
  refine ⟨13, pool, _, hpool, hint, by omega, by omega, ?_, hfits⟩
  rw [hmask]
  rcases Nat.lt_or_eq_of_le hn' with hlt | heq
  · exact allocationsMaskFor_eq _ hlt hn
  · rw [heq]
    rfl

/-- A pool is usable if and only if the block that was asked for has room for one slot. -/
theorem usable_iff (h1 : 1 ≤ objectSize.toNat) :
    Usable debugAllocations objectSize suggested ↔ HasRoom debugAllocations objectSize suggested :=
  ⟨Usable.hasRoom, HasRoom.usable h1⟩

/-- Objects of 128 bytes. -/
theorem usable_iff_128 : Usable false 128 2048 ↔ HasRoom false 128 2048 := usable_iff (by decide)

/-- An object that is larger than a block: there is no slot, and the mask says that there are 64. -/
theorem not_usable_large : ¬ Usable false 4000 2048 ∧
    ∃ pool, amqpInitializePoolSuggestingBlockSize false 3 4000 2048 = .ok pool ∧
      pool.allocationsPerBlock = 0 ∧ pool.allocationsMask = BitVec.allOnes 64 := by
  refine ⟨fun h => ?_, _, rfl, by decide, by decide⟩
  have hroom := h.hasRoom
  unfold HasRoom slotSize at hroom
  have hclog : Nat.clog 2 (2048 : BitVec 64).toNat = 11 := by
    show Nat.clog 2 2048 = 11
    exact Nat.clog_pow 2 11 (by decide)
  rw [hclog] at hroom
  exact absurd hroom (by decide)

end
end Amqp.Memory
