import LibAmqp.Buffer.Proof.Bytes
import Mathlib.Data.List.GetD

/-!
# What buffer operations write

`Writes b b' bytes`: `bytes` were written from the write index on, and nothing else changed, also not
behind the new write index. `Appends b b' bytes`: the second buffer has `bytes` behind what the first
has, and what it has further on is left open.

* `Appends.trans`: one write after another.
* `Appends.patch`: a write over bytes that were appended before.
-/

namespace Amqp.Buffer

open Lib

theorem byteAt_eq_iff {i j : Nat} : (i >>> amqpFragmentIndexBits = j >>> amqpFragmentIndexBits ∧
    i &&& amqpFragmentIndexMask = j &&& amqpFragmentIndexMask) ↔ i = j := by
  have hmask : ∀ n : Nat, n &&& amqpFragmentIndexMask = n % 2 ^ 12 :=
    fun n => Nat.and_two_pow_sub_one_eq_mod n 12
  simp only [amqpFragmentIndexBits, Nat.shiftRight_eq_div_pow, hmask]
  omega

structure Writes (b b' : Buffer) (bytes : List UInt8) : Prop where
  byteAt : ∀ i, b'.byteAt i =
    if b.size ≤ i ∧ i < b.size + bytes.length then bytes.getD (i - b.size) 0 else b.byteAt i
  size : b'.size = b.size + bytes.length
  address : b'.address = b.address
  capacity : b'.capacity = b.capacity
  index : b'.index = b.index

structure Appends (b b' : Buffer) (bytes : List UInt8) : Prop where
  old : ∀ i < b.size, b'.byteAt i = b.byteAt i
  new : ∀ i < bytes.length, b'.byteAt (b.size + i) = bytes.getD i 0
  size : b'.size = b.size + bytes.length
  address : b'.address = b.address
  capacity : b'.capacity = b.capacity
  index : b'.index = b.index

section
variable {b b1 b2 : Buffer} {xs ys : List UInt8}

theorem Writes.refl (b : Buffer) : Writes b b [] := by
  refine ⟨fun i => ?_, rfl, rfl, rfl, rfl⟩
  rw [if_neg (by simp)]

theorem Writes.trans (h : Writes b b1 xs) (h' : Writes b1 b2 ys) : Writes b b2 (xs ++ ys) := by
  have hsize := h.size
  refine ⟨fun i => ?_, by rw [h'.size, hsize, List.length_append, Nat.add_assoc],
    h'.address.trans h.address, h'.capacity.trans h.capacity, h'.index.trans h.index⟩
  rw [h'.byteAt, h.byteAt, List.length_append, hsize]
  by_cases hy : b.size + xs.length ≤ i ∧ i < b.size + xs.length + ys.length
  · rw [if_pos hy, if_pos (by omega), List.getD_append_right _ _ _ _ (by omega), Nat.sub_add_eq]
  · rw [if_neg hy]
    by_cases hx : b.size ≤ i ∧ i < b.size + xs.length
    · rw [if_pos hx, if_pos (by omega), List.getD_append _ _ _ _ (by omega)]
    · rw [if_neg hx, if_neg (by omega)]

theorem Writes.appends (h : Writes b b1 xs) : Appends b b1 xs := by
  refine ⟨fun i hi => ?_, fun i hi => ?_, h.size, h.address, h.capacity, h.index⟩
  · rw [h.byteAt, if_neg (by omega)]
  · rw [h.byteAt, if_pos (by omega), Nat.add_sub_cancel_left]

theorem Appends.refl (b : Buffer) : Appends b b [] := (Writes.refl b).appends

theorem Appends.trans (h : Appends b b1 xs) (h' : Appends b1 b2 ys) : Appends b b2 (xs ++ ys) := by
  have hsize := h.size
  refine ⟨fun i hi => ?_, fun i hi => ?_, by rw [h'.size, hsize, List.length_append, Nat.add_assoc],
    h'.address.trans h.address, h'.capacity.trans h.capacity, h'.index.trans h.index⟩
  · rw [h'.old i (by omega), h.old i hi]
  · rw [List.length_append] at hi
    by_cases hx : i < xs.length
    · rw [h'.old _ (by omega), h.new i hx, List.getD_append _ _ _ _ hx]
    · have hnew := h'.new (i - xs.length) (by omega)
      rw [hsize, show b.size + xs.length + (i - xs.length) = b.size + i by omega] at hnew
      rw [hnew, List.getD_append_right _ _ _ _ (by omega)]

/-- What was written is there. -/
theorem Appends.bytes (h : Appends b b1 xs) : b1.bytes b.size xs.length = xs := by
  refine List.ext_getElem (by simp) fun i hi hi' => ?_
  simp only [Buffer.bytes, List.getElem_map, List.getElem_range]
  rw [h.new i hi', List.getD_eq_getElem _ _ hi']

/-- A write over some of the bytes that were appended. -/
theorem Appends.patch {pre old post : List UInt8} (h : Appends b b1 (pre ++ old ++ post))
    (hw : Writes (b1.setWriteIndex (b.size + pre.length)) b2 xs) (hlen : xs.length = old.length) :
    Appends b (b2.setWriteIndex b1.size) (pre ++ xs ++ post) := by
  have hbyte : ∀ i, b2.byteAt i = if b.size + pre.length ≤ i ∧ i < b.size + pre.length + xs.length then
      xs.getD (i - (b.size + pre.length)) 0 else b1.byteAt i := hw.byteAt
  refine ⟨fun i hi => ?_, fun i hi => ?_, ?_, hw.address.trans h.address,
    hw.capacity.trans h.capacity, hw.index.trans h.index⟩
  · show b2.byteAt i = _
    rw [hbyte, if_neg (by omega), h.old i hi]
  · show b2.byteAt (b.size + i) = _
    simp only [List.length_append] at hi
    rw [hbyte]
    by_cases hin : b.size + pre.length ≤ b.size + i ∧ b.size + i < b.size + pre.length + xs.length
    · rw [if_pos hin, List.append_assoc, List.getD_append_right _ _ _ _ (by omega),
        List.getD_append _ _ _ _ (by omega), show b.size + i - (b.size + pre.length) = i - pre.length by
          omega]
    · rw [if_neg hin, h.new i (by simp only [List.length_append]; omega), List.append_assoc,
        List.append_assoc]
      by_cases hpre : i < pre.length
      · rw [List.getD_append _ _ _ _ hpre, List.getD_append _ _ _ _ hpre]
      · rw [List.getD_append_right _ _ _ _ (by omega), List.getD_append_right _ _ _ _ (by omega),
          List.getD_append_right _ _ _ _ (by omega), List.getD_append_right _ _ _ _ (by omega), hlen]
  · show b1.size = _
    rw [h.size]
    simp only [List.length_append, hlen]

/-- Taking back what was appended. -/
theorem Appends.backup (h : Appends b b1 xs) : Appends b { b1 with size := b.size } [] :=
  ⟨h.old, fun i hi => absurd hi (Nat.not_lt_zero i), rfl, h.address, h.capacity, h.index⟩

/-! ## Operations -/

theorem uncheckedPutc_writes (c : UInt8) (h : b.size < b.capacity) :
    ∃ b', b.uncheckedPutc c = .ok b' ∧ Writes b b' [c] := by
  rw [uncheckedPutc, uncheckedPutcAt, if_pos h, Fault.ok_bind]
  refine ⟨_, rfl, fun i => ?_, rfl, rfl, rfl, rfl⟩
  simp only [byteAt, byteAt_eq_iff, List.length_singleton]
  by_cases hi : i = b.size
  · subst hi
    simp
  · rw [if_neg hi, if_neg (by omega)]

theorem putc_writes (c : UInt8) (h : b.size < b.capacity) :
    ∃ b', b.putc c = .ok b' ∧ Writes b b' [c] := by
  rw [putc, if_pos h]
  exact uncheckedPutc_writes c h

theorem uncheckedWrite_writes : ∀ (bytes : List UInt8) {b : Buffer},
    b.size + bytes.length ≤ b.capacity → ∃ b', b.uncheckedWrite bytes = .ok b' ∧ Writes b b' bytes
  | [], b, _ => ⟨b, rfl, .refl b⟩
  | c :: cs, b, h => by
    simp only [List.length_cons] at h
    obtain ⟨b1, h1, hw1⟩ := uncheckedPutc_writes (b := b) c (by omega)
    obtain ⟨b2, h2, hw2⟩ := uncheckedWrite_writes cs (b := b1) (by
      rw [hw1.size, hw1.capacity, List.length_singleton]
      omega)
    refine ⟨b2, ?_, hw1.trans hw2⟩
    rw [uncheckedWrite, h1, Fault.ok_bind, h2]

theorem hton_writes (n value : Nat) (h : b.size + n ≤ b.capacity) :
    ∃ b', b.hton n value = .ok b' ∧ Writes b b' (toBigEndian n value) :=
  uncheckedWrite_writes _ (by rwa [length_toBigEndian])

theorem puts_go_writes : ∀ (bytes : List UInt8) {b : Buffer},
    b.size + bytes.length ≤ b.capacity → ∃ b', puts.go b bytes = .ok b' ∧ Writes b b' bytes
  | [], b, _ => ⟨b, rfl, .refl b⟩
  | c :: cs, b, h => by
    simp only [List.length_cons] at h
    obtain ⟨b1, h1, hw1⟩ := putc_writes (b := b) c (by omega)
    obtain ⟨b2, h2, hw2⟩ := puts_go_writes cs (b := b1) (by
      rw [hw1.size, hw1.capacity, List.length_singleton]
      omega)
    refine ⟨b2, ?_, hw1.trans hw2⟩
    rw [puts.go, h1, Fault.ok_bind, h2]

theorem puts_writes (bytes : List UInt8) (h : b.size + bytes.length < b.capacity) :
    ∃ b', b.puts bytes = .ok b' ∧ Writes b b' bytes := by
  rw [puts, if_neg (by omega)]
  exact puts_go_writes bytes (by omega)

end
end Amqp.Buffer
