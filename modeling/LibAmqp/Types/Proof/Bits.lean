import LibAmqp.Lib.Smear
import LibAmqp.Types.HashTable

/-!
# The capacity of a hash table

* `nextPowerTwo_isLeast`: the two functions of `Misc/Bits.c`, and the mask that a table makes of the result.
-/

namespace Amqp.AmqpHashTable

open Lib

/-! ## The functions -/

theorem toNat_sub_one {w : Nat} {n : BitVec w} (hw : 0 < w) (h : 1 ≤ n.toNat) : (n - 1).toNat = n.toNat - 1 := by
  have hone : (1 : BitVec w).toNat = 1 := by
    show (BitVec.ofNat w 1).toNat = 1
    rw [BitVec.toNat_ofNat, Nat.mod_eq_of_lt (Nat.one_lt_two_pow (by omega))]
  have hlt := n.isLt
  have hwrap : 2 ^ w - 1 + n.toNat = n.toNat - 1 + 2 ^ w := by omega
  rw [BitVec.toNat_sub, hone, hwrap, Nat.add_mod_right, Nat.mod_eq_of_lt (by omega)]

theorem nextPowerTwo_toNat {n : BitVec 64} (h1 : 1 ≤ n.toNat) (h2 : n.toNat ≤ 2 ^ 63) :
    (nextPowerTwo n).toNat = 2 ^ (n.toNat - 1).size := by
  have hx := toNat_sub_one (by decide) h1
  have hsmeared := (((((((Smeared.start (n.toNat - 1)).step (rfl : 2 = _)).step (rfl : 4 = _)).step
    (rfl : 8 = _)).step (rfl : 16 = _)).step (rfl : 32 = _)).step (rfl : 64 = _)).eq (by omega)
  have hle : 2 ^ (n.toNat - 1).size ≤ 2 ^ 63 :=
    Nat.pow_le_pow_right (by decide) (Nat.size_le.2 (by omega))
  have hpos := Nat.two_pow_pos (n.toNat - 1).size
  unfold nextPowerTwo
  simp only [BitVec.toNat_add, BitVec.toNat_or, BitVec.toNat_ushiftRight, hx]
  rw [hsmeared, show (1 : BitVec 64).toNat = 1 from rfl]
  omega

theorem nextPowerTwo32_toNat {n : BitVec 32} (h1 : 1 ≤ n.toNat) (h2 : n.toNat ≤ 2 ^ 31) :
    (nextPowerTwo32 n).toNat = 2 ^ (n.toNat - 1).size := by
  have hx := toNat_sub_one (by decide) h1
  have hsmeared := ((((((Smeared.start (n.toNat - 1)).step (rfl : 2 = _)).step (rfl : 4 = _)).step
    (rfl : 8 = _)).step (rfl : 16 = _)).step (rfl : 32 = _)).eq (by omega)
  have hle : 2 ^ (n.toNat - 1).size ≤ 2 ^ 31 :=
    Nat.pow_le_pow_right (by decide) (Nat.size_le.2 (by omega))
  have hpos := Nat.two_pow_pos (n.toNat - 1).size
  unfold nextPowerTwo32
  simp only [BitVec.toNat_add, BitVec.toNat_or, BitVec.toNat_ushiftRight, hx]
  rw [hsmeared, show (1 : BitVec 32).toNat = 1 from rfl]
  omega

/-! ## The table -/

section
variable {κ : Type} {map : AmqpHashTable κ}

/-- The capacity for an `int` that is positive. -/
theorem capacity_spec {n : BitVec 32} {k : Nat} (h1 : 1 ≤ n.toNat) (h2 : n.toNat < 2 ^ 31)
    (hk : n.toNat ≤ 2 ^ k) : ∃ j ≤ k, (nextPowerTwo (n.signExtend 64)).toNat = 2 ^ j := by
  have hn : (n.signExtend 64).toNat = n.toNat := by
    rw [BitVec.signExtend_eq_setWidth_of_msb_false, BitVec.toNat_setWidth, Nat.mod_eq_of_lt (by omega)]
    rw [BitVec.msb_eq_false_iff_two_mul_lt]
    omega
  refine ⟨(n.toNat - 1).size, Nat.size_le.2 (by omega), ?_⟩
  rw [nextPowerTwo_toNat (by rwa [hn]) (by omega), hn]

/-- The index of a key's bucket is the rest of its hash. -/
theorem calculateIndex_eq {k : Nat} {key : κ} (hcap : map.capacity = 2 ^ k) (hk : k ≤ 31) :
    map.calculateIndex key = ((map.hash key).toNat % 2 ^ k : Nat) := by
  have hpow : 2 ^ k ≤ 2 ^ 31 := Nat.pow_le_pow_right (by decide) hk
  have hpos := Nat.two_pow_pos k
  have hlt : (map.hash key).toNat % 2 ^ k < 2 ^ k := Nat.mod_lt _ hpos
  have hmask : (map.hash key &&& BitVec.ofNat 32 (2 ^ k - 1)).toNat = (map.hash key).toNat % 2 ^ k := by
    rw [BitVec.toNat_and, BitVec.toNat_ofNat, Nat.mod_eq_of_lt (by omega),
      Nat.and_two_pow_sub_one_eq_mod]
  unfold calculateIndex
  dsimp only
  rw [hcap, BitVec.toInt_eq_toNat_of_lt (by rw [hmask]; omega), hmask]

theorem masksBuckets {k : Nat} (hcap : map.capacity = 2 ^ k) (hk : k ≤ 31) : MasksBuckets map := by
  refine ⟨⟨k, by rw [hcap]⟩, fun key => ?_⟩
  have hlt : (map.hash key).toNat % 2 ^ k < 2 ^ k := Nat.mod_lt _ (Nat.two_pow_pos k)
  rw [calculateIndex_eq hcap hk, hcap]
  omega

/-- The least powers of two from a number on, and what a table does with one: for every initial capacity,
an `int`, that is positive. -/
theorem nextPowerTwo_isLeast {n : BitVec 64} {m initialCapacity : BitVec 32} (hn : 1 ≤ n.toNat)
    (hn' : n.toNat ≤ 2 ^ 63) (hm : 1 ≤ m.toNat) (hm' : m.toNat ≤ 2 ^ 31) (hpos : 0 < initialCapacity.toInt) :
    IsLeast (PowersFrom n.toNat) (nextPowerTwo n).toNat ∧
      IsLeast (PowersFrom m.toNat) (nextPowerTwo32 m).toNat ∧
      (map.capacity = (nextPowerTwo (initialCapacity.signExtend 64)).toNat → MasksBuckets map) ∧
      (∀ hash compare, amqpHashTableInitialize initialCapacity hash compare = .ok map →
        map.capacity = (nextPowerTwo (initialCapacity.signExtend 64)).toNat) := by
  refine ⟨?_, ?_, fun hcap => ?_, fun hash compare htable => ?_⟩
  · rw [nextPowerTwo_toNat hn hn']
    exact isLeast_powersFrom hn
  · rw [nextPowerTwo32_toNat hm hm']
    exact isLeast_powersFrom hm
  · have hsmall : 1 ≤ initialCapacity.toNat ∧ initialCapacity.toNat < 2 ^ 31 := by
      rw [BitVec.toInt_eq_toNat_cond] at hpos
      split at hpos <;> omega
    obtain ⟨j, hj, hpow⟩ := capacity_spec hsmall.1 hsmall.2 (Nat.le_of_lt hsmall.2)
    exact masksBuckets (hcap.trans hpow) hj
  · unfold amqpHashTableInitialize at htable
    dsimp only at htable
    split at htable
    · cases htable
    · split at htable <;> cases htable
      rfl

end

/-- A table for five entries has eight buckets. -/
theorem nextPowerTwo_isLeast_five :
    ∃ map : AmqpHashTable Nat, amqpHashTableInitialize 5 (BitVec.ofNat 32) (fun a b => a - b) = .ok map ∧
      map.capacity = 8 ∧ IsLeast (PowersFrom 5) 8 ∧ MasksBuckets map := by
  have hleast := @nextPowerTwo_isLeast Nat ⟨8, 0, fun _ => 0, 0, BitVec.ofNat 32, fun a b => a - b⟩ 5 5 5
    (by decide) (by decide) (by decide) (by decide) (by decide)
  exact ⟨_, rfl, by decide, hleast.1, hleast.2.2.1 (by decide)⟩

end Amqp.AmqpHashTable
