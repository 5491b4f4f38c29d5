import LibAmqp.Buffer.Copy
import LibAmqp.Buffer.Proof.IoVec

/-!
# What is copied out of a buffer

`Copies`: the destination up to some offset. The loop of `amqp_buffer_block_copy` keeps to the bytes of
the range until its tail, which is read one fragment too early (`blockCopy_eq`).

* `blockCopy_iff`: the copy agrees with byte reads if and only if the tail repeats.
-/

namespace Amqp.Buffer

variable {b : Buffer} {destination : Memory}

theorem fragmentBytes_eq {block offset n : Nat}
    (h : n = 0 ∨ offset + n ≤ amqpBufferFragmentSize ∧
      block * amqpBufferFragmentSize + offset + n ≤ b.capacity) :
    b.fragmentBytes block offset n = .ok (b.bytes (block * amqpBufferFragmentSize + offset) n) := by
  rw [fragmentBytes, if_pos h]
  congr 1
  refine List.map_congr_left fun k hk => ?_
  have hk' := List.mem_range.1 hk
  have hlt : offset + k < amqpBufferFragmentSize := by omega
  rw [← byteAt_block hlt, Nat.add_assoc]

theorem fragmentBytes_start {block n : Nat} (hn : n ≤ 4096) (h : block * 4096 + n ≤ b.capacity) :
    b.fragmentBytes block 0 n = .ok (b.bytes (block * 4096) n) := by
  have heq := @fragmentBytes_eq b block 0 n
  simp only [fragmentSize_eq, Nat.zero_add, Nat.add_zero] at heq
  exact heq (.inr ⟨hn, h⟩)

theorem getD_bytes {i n k : Nat} (h : k < n) : (b.bytes i n).getD k 0 = b.byteAt (i + k) := by
  simp [bytes, List.getD_eq_getElem?_getD, h]

theorem memcpy_inside {offset i n k : Nat} (h1 : offset ≤ k) (h2 : k < offset + n) :
    memcpy destination offset (b.bytes i n) k = b.byteAt (i + (k - offset)) := by
  rw [memcpy, length_bytes, if_pos ⟨h1, h2⟩, getD_bytes (by omega)]

theorem memcpy_outside {offset i n k : Nat} (h : k < offset ∨ offset + n ≤ k) :
    memcpy destination offset (b.bytes i n) k = destination k := by
  rw [memcpy, length_bytes, if_neg (by omega)]

/-- The loop, from the end of fragment `block` on, which begins at `base`: the tail is read one fragment
too early. -/
theorem blockCopy_go_spec (size : Nat) : ∀ {destination : Memory} {offset block base : Nat}, 0 < size →
    block * 4096 = base → base + 4096 + size ≤ b.capacity →
    ∃ result, blockCopy.go b destination offset size block = .ok result ∧
      (∀ k, k < offset ∨ offset + size ≤ k → result k = destination k) ∧
      (∀ k, offset ≤ k → k < offset + (size - 1) / 4096 * 4096 →
        result k = b.byteAt (base + 4096 + (k - offset))) ∧
      ∀ k, offset + (size - 1) / 4096 * 4096 ≤ k → k < offset + size →
        result k = b.byteAt (base + (k - offset)) := by
  induction size using Nat.strongRecOn with
  | _ size ih =>
    intro destination offset block base hpos hbase hcap
    unfold blockCopy.go
    rw [fragmentSize_eq]
    split
    · rename_i hbig
      have hnext : (block + 1) * 4096 = base + 4096 := by rw [Nat.succ_mul, hbase]
      rw [fragmentBytes_start (Nat.le_refl _) (by rw [hnext]; omega), Fault.ok_bind, hnext]
      obtain ⟨result, hgo, hout, hright, hearly⟩ := ih (size - 4096) (by omega) (by omega) hnext (by omega)
      refine ⟨result, hgo, fun k hk => ?_, fun k h1 h2 => ?_, fun k h1 h2 => ?_⟩
      · rw [hout k (by omega), memcpy_outside (by omega)]
      · by_cases hfirst : k < offset + 4096
        · rw [hout k (.inl hfirst), memcpy_inside h1 hfirst]
        · rw [hright k (by omega) (by omega)]
          exact congrArg b.byteAt (by omega)
      · rw [hearly k (by omega) (by omega)]
        exact congrArg b.byteAt (by omega)
    · rename_i hsmall
      rw [fragmentBytes_start (by omega) (by omega), Fault.ok_bind, hbase]
      refine ⟨_, rfl, fun k hk => memcpy_outside hk, fun k h1 h2 => by omega, fun k h1 h2 => ?_⟩
      exact memcpy_inside (by omega) h2

/-- The bytes that are copied: a range that ends in another fragment than it begins in has its tail
read 4096 bytes too early. -/
theorem blockCopy_spec {start size : Nat} (h : start + size ≤ b.capacity) :
    ∃ result, b.blockCopy destination start size = .ok result ∧
      (∀ i, size ≤ i → result i = destination i) ∧
      (∀ i < size, ¬ (start < (start + size - 1) / 4096 * 4096 ∧
        (start + size - 1) / 4096 * 4096 ≤ start + i) → result i = b.byteAt (start + i)) ∧
      ∀ i < size, start < (start + size - 1) / 4096 * 4096 → (start + size - 1) / 4096 * 4096 ≤ start + i →
        result i = b.byteAt (start + i - 4096) := by
  obtain ⟨hstart, hoffset⟩ := block_offset start
  unfold blockCopy
  dsimp only
  generalize start >>> amqpFragmentIndexBits = block at hstart ⊢
  generalize start &&& amqpFragmentIndexMask = offset at hstart hoffset ⊢
  rw [fragmentSize_eq] at *
  obtain ⟨base, hbase⟩ : ∃ base, block * 4096 = base := ⟨_, rfl⟩
  have hmod : base % 4096 = 0 := by omega
  rw [hbase] at hstart
  split
  · rename_i hone
    rw [fragmentBytes_eq (by rw [fragmentSize_eq, hbase]; omega), fragmentSize_eq, Fault.ok_bind, hbase, hstart]
    refine ⟨_, rfl, fun i hi => memcpy_outside (by omega), fun i hi _ => ?_, fun i hi h1 h2 => by omega⟩
    rw [memcpy_inside (Nat.zero_le _) (by omega), Nat.sub_zero]
  · rename_i hmore
    rw [fragmentBytes_eq (by rw [fragmentSize_eq, hbase]; omega), fragmentSize_eq, Fault.ok_bind, hbase, hstart]
    obtain ⟨result, hgo, hout, hright, hearly⟩ := @blockCopy_go_spec b (size - (4096 - offset))
      (memcpy destination 0 (b.bytes start (4096 - offset))) (4096 - offset) block base (by omega) hbase
      (by omega)
    refine ⟨result, hgo, fun i hi => ?_, fun i hi hlast => ?_, fun i hi h1 h2 => ?_⟩
    · rw [hout i (by omega), memcpy_outside (by omega)]
    · by_cases hfirst : i < 4096 - offset
      · rw [hout i (.inl hfirst), memcpy_inside (Nat.zero_le _) (by omega), Nat.sub_zero]
      · rw [hright i (by omega) (by omega)]
        exact congrArg b.byteAt (by omega)
    · rw [hearly i (by omega) (by omega)]
      exact congrArg b.byteAt (by omega)

/-- A copy agrees with byte reads if and only if the range is in one fragment or its tail repeats. -/
theorem blockCopy_iff {start size : Nat} (h : start + size ≤ b.capacity) :
    b.blockCopy destination start size = .ok (b.copied destination start size) ↔
      b.Repeats start size := by
  obtain ⟨result, hcopy, hout, hright, hearly⟩ := @blockCopy_spec b destination start size h
  rw [hcopy]
  constructor
  · intro heq i hi last h1 h2
    have := congrFun (Except.ok.inj heq) i
    rw [hearly i hi h1 h2, copied, if_pos hi] at this
    exact this
  · intro hrep
    congr 1
    funext i
    unfold copied
    split
    · rename_i hi
      by_cases hlast : start < (start + size - 1) / 4096 * 4096 ∧
          (start + size - 1) / 4096 * 4096 ≤ start + i
      · rw [hearly i hi hlast.1 hlast.2]
        exact hrep i hi hlast.1 hlast.2
      · exact hright i hi hlast
    · rename_i hi
      exact hout i (Nat.le_of_not_lt hi)

end Amqp.Buffer
