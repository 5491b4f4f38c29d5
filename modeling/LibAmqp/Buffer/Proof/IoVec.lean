import LibAmqp.Buffer.IoVec
import LibAmqp.Buffer.Proof.Write

/-!
# What I/O vectors cover

The vectors of a range lie one behind the other and together make up the range (`fillIoVec_covers`).

* `send_eq`: what `sendmsg` takes are the next unread bytes.
* `receive_eq`: what `readv` delivers is appended to the buffer.
-/

namespace Amqp.Buffer

/-- Vectors that lie one behind the other, from `i` on, and are `n` bytes long. -/
def Covers : List IoVec → Nat → Nat → Prop
  | [], _, n => n = 0
  | v :: vectors, i, n => v.block * amqpBufferFragmentSize + v.offset = i ∧
    v.offset + v.length ≤ amqpBufferFragmentSize ∧ v.length ≤ n ∧
    Covers vectors (i + v.length) (n - v.length)

theorem fragmentSize_eq : amqpBufferFragmentSize = 4096 := rfl

theorem block_offset (i : Nat) : (i >>> amqpFragmentIndexBits) * amqpBufferFragmentSize +
    (i &&& amqpFragmentIndexMask) = i ∧ i &&& amqpFragmentIndexMask < amqpBufferFragmentSize := by
  have hmask : i &&& amqpFragmentIndexMask = i % 2 ^ 12 := Nat.and_two_pow_sub_one_eq_mod i 12
  rw [hmask, fragmentSize_eq, amqpFragmentIndexBits, Nat.shiftRight_eq_div_pow]
  omega

theorem byteAt_block {b : Buffer} {block offset : Nat} (h : offset < amqpBufferFragmentSize) :
    b.byteAt (block * amqpBufferFragmentSize + offset) = b.fragments block offset := by
  obtain ⟨hi, hoffset⟩ := block_offset (block * amqpBufferFragmentSize + offset)
  unfold byteAt
  rw [fragmentSize_eq] at *
  congr 1 <;> omega

theorem fillIoVec_go_covers : ∀ (slots n block : Nat), n ≤ slots * amqpBufferFragmentSize →
    ∃ vectors, fillIoVec.go slots n block = .ok vectors ∧
      Covers vectors ((block + 1) * amqpBufferFragmentSize) n := by
  intro slots
  induction slots with
  | zero =>
    intro n block h
    obtain rfl : n = 0 := by omega
    exact ⟨[], rfl, rfl⟩
  | succ slots ih =>
    intro n block h
    cases n with
    | zero => exact ⟨[], rfl, rfl⟩
    | succ n =>
      rw [fillIoVec.go]
      split
      · next hn =>
        -- a whole fragment
        obtain ⟨rest, hrest, hcovers⟩ := ih (n + 1 - amqpBufferFragmentSize) (block + 1) (by
          rw [Nat.succ_mul] at h
          omega)
        rw [hrest, Fault.ok_bind]
        refine ⟨_, rfl, by simp, by simp, by simp only; omega, ?_⟩
        rwa [← Nat.succ_mul]
      · next hn =>
        -- the last one
        rw [Nat.sub_self]
        obtain ⟨rest, hrest, hcovers⟩ := ih 0 (block + 1) (Nat.zero_le _)
        rw [hrest, Fault.ok_bind]
        refine ⟨_, rfl, by simp, by simp only; omega, Nat.le_refl _, ?_⟩
        simp only [Nat.sub_self]
        cases rest with
        | nil => rfl
        | cons v rest => simp [fillIoVec.go] at hrest

/-- The vectors of a range make it up. -/
theorem fillIoVec_covers {i n : Nat} (h : i + n ≤ amqpBufferMaxSize) :
    ∃ vectors, fillIoVec n (i >>> amqpFragmentIndexBits) (i &&& amqpFragmentIndexMask) = .ok vectors ∧
      Covers vectors i n := by
  obtain ⟨hi, hoffset⟩ := block_offset i
  unfold fillIoVec
  dsimp only
  split
  · refine ⟨_, rfl, hi, by simp only; omega, Nat.le_refl _, ?_⟩
    simp only [Nat.sub_self]
    rfl
  · next hn =>
    obtain ⟨rest, hrest, hcovers⟩ := fillIoVec_go_covers (amqpBufferFragments - 1)
      (n - (amqpBufferFragmentSize - (i &&& amqpFragmentIndexMask))) (i >>> amqpFragmentIndexBits) (by
        rw [show amqpBufferFragments - 1 = 15 from rfl]
        rw [show amqpBufferMaxSize = 65536 from rfl] at h
        rw [fragmentSize_eq] at *
        omega)
    rw [hrest, Fault.ok_bind]
    refine ⟨_, rfl, hi, by simp only; omega, by simp only; omega, ?_⟩
    rw [Nat.succ_mul] at hcovers
    simp only
    rwa [show i + (amqpBufferFragmentSize - (i &&& amqpFragmentIndexMask)) =
      (i >>> amqpFragmentIndexBits) * amqpBufferFragmentSize + amqpBufferFragmentSize by omega]

/-! ## Gathering -/

theorem bytes_add (b : Buffer) (i m n : Nat) : b.bytes i (m + n) = b.bytes i m ++ b.bytes (i + m) n := by
  simp only [bytes, List.range_add, List.map_append, List.map_map, Nat.add_assoc]
  rfl

theorem gather_eq {b : Buffer} : ∀ {vectors : List IoVec} {i n : Nat}, Covers vectors i n →
    b.gather vectors = b.bytes i n
  | [], _, _, h => by
    obtain rfl := h
    rfl
  | v :: vectors, i, n, ⟨hi, hfits, hlen, h⟩ => by
    have hv : (List.range v.length).map (fun k => b.fragments v.block (v.offset + k)) =
        b.bytes i v.length := by
      refine List.map_congr_left fun k hk => ?_
      rw [List.mem_range] at hk
      rw [← hi, Nat.add_assoc, byteAt_block (by omega)]
    rw [gather, List.flatMap_cons, hv]
    rw [show vectors.flatMap _ = b.gather vectors from rfl, gather_eq h, ← bytes_add,
      Nat.add_sub_cancel' hlen]

/-- What `sendmsg` takes are the next unread bytes. -/
theorem send_eq {b : Buffer} (h : b.Sound) (n : Nat) : b.send n = .ok (b.unread.take n) := by
  have hcap := b.capacity_le
  obtain ⟨vectors, hfill, hcovers⟩ := fillIoVec_covers (i := b.index) (n := b.size - b.index) (by
    have := h.index_le
    have := h.size_le
    omega)
  have hle : b.size - b.index ≤ b.capacity - b.index := Nat.sub_le_sub_right h.size_le _
  rw [send, readIoVec, if_pos hle, hfill, Fault.ok_bind, gather_eq hcovers]
  rfl

/-! ## Scattering -/

theorem scatter_eq : ∀ {vectors : List IoVec} {i n : Nat} {bytes : List UInt8}, Covers vectors i n →
    bytes.length ≤ n → ∀ (fragments : Nat → Nat → UInt8) (block offset : Nat),
    scatter vectors bytes fragments block offset =
      if offset < amqpBufferFragmentSize ∧ i ≤ block * amqpBufferFragmentSize + offset ∧
          block * amqpBufferFragmentSize + offset < i + bytes.length then
        bytes.getD (block * amqpBufferFragmentSize + offset - i) 0
      else fragments block offset
  | [], i, n, bytes, h, hlen, fragments, block, offset => by
    obtain rfl := h
    rw [scatter, if_neg (by omega)]
  | v :: vectors, i, n, bytes, ⟨hi, hfits, hle, h⟩, hlen, fragments, block, offset => by
    rw [scatter, scatter_eq h (by rw [List.length_drop]; omega)]
    rw [List.length_drop]
    rw [fragmentSize_eq] at *
    by_cases hlater : offset < 4096 ∧ i + v.length ≤ block * 4096 + offset ∧
        block * 4096 + offset < i + v.length + (bytes.length - v.length)
    · rw [if_pos hlater, if_pos (by omega), List.getD_eq_getElem?_getD, List.getElem?_drop,
        ← List.getD_eq_getElem?_getD]
      congr 1
      omega
    · rw [if_neg hlater]
      by_cases hv : block = v.block ∧ v.offset ≤ offset ∧ offset < v.offset + min v.length bytes.length
      · rw [if_pos hv, if_pos (by omega)]
        congr 1
        omega
      · rw [if_neg hv, if_neg (by omega)]

/-- What `readv` delivers is appended. -/
theorem receive_eq {b : Buffer} {needed : Nat} {bytes : List UInt8}
    (hroom : needed ≤ b.capacity - b.size) (hneeded : 0 < needed) (hlen : bytes.length ≤ needed) :
    b.receive needed bytes = .ok (b.append bytes) := by
  have hcap := b.capacity_le
  obtain ⟨vectors, hfill, hcovers⟩ := fillIoVec_covers (i := b.size) (n := needed) (by omega)
  rw [receive, writeIoVec, if_pos hroom, hfill, Fault.ok_bind]
  unfold append
  congr 2
  funext block offset
  exact scatter_eq hcovers hlen b.fragments block offset

theorem append_append (b : Buffer) (xs ys : List UInt8) :
    (b.append xs).append ys = b.append (xs ++ ys) := by
  unfold append
  simp only [List.length_append, Nat.add_assoc]
  congr 1
  funext block offset
  by_cases hy : offset < amqpBufferFragmentSize ∧
      b.size + xs.length ≤ block * amqpBufferFragmentSize + offset ∧
      block * amqpBufferFragmentSize + offset < b.size + (xs.length + ys.length)
  · rw [if_pos hy, if_pos (by omega), List.getD_append_right _ _ _ _ (by omega), Nat.sub_add_eq]
  · rw [if_neg hy]
    by_cases hx : offset < amqpBufferFragmentSize ∧ b.size ≤ block * amqpBufferFragmentSize + offset ∧
        block * amqpBufferFragmentSize + offset < b.size + xs.length
    · rw [if_pos hx, if_pos (by omega), List.getD_append _ _ _ _ (by omega)]
    · rw [if_neg hx, if_neg (by omega)]

theorem append_nil (b : Buffer) : b.append [] = b := by
  unfold append
  congr 1
  funext block offset
  rw [if_neg (by simp)]

theorem append_writes (b : Buffer) (bytes : List UInt8) : Writes b (b.append bytes) bytes := by
  refine ⟨fun i => ?_, rfl, rfl, rfl, rfl⟩
  obtain ⟨hi, hoffset⟩ := block_offset i
  unfold byteAt append
  simp only [hi, hoffset, true_and]

end Amqp.Buffer
