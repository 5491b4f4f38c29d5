import LibAmqp.Buffer.Buffer

/-!
# What buffer operations read and write

The bytes of a buffer are seen through `Buffer.byteAt`. The lemmas here say that a read inside the
received bytes returns them, that a write inside the capacity changes one byte, and what the two
widths of a size field read (`readField`).
-/

namespace Amqp.Buffer

open Lib

/-! ## Reading -/

@[simp] theorem byteAt_index (b : Buffer) (j i : Nat) : ({ b with index := j }).byteAt i = b.byteAt i :=
  rfl

@[simp] theorem bytes_index (b : Buffer) (j i n : Nat) : ({ b with index := j }).bytes i n = b.bytes i n :=
  rfl

@[simp] theorem bytes_zero (b : Buffer) (i : Nat) : b.bytes i 0 = [] := rfl

theorem bytes_succ (b : Buffer) (i n : Nat) : b.bytes i (n + 1) = b.byteAt i :: b.bytes (i + 1) n := by
  simp only [bytes, List.range_succ_eq_map, List.map_cons, List.map_map, Nat.add_zero]
  congr 1
  refine List.map_congr_left fun k _ => ?_
  simp only [Function.comp_apply, Nat.succ_eq_add_one]
  congr 1
  omega

@[simp] theorem length_bytes (b : Buffer) (i n : Nat) : (b.bytes i n).length = n := by simp [bytes]

theorem uncheckedGetcAt_ok {b : Buffer} {i : Nat} (h : i < b.size) :
    b.uncheckedGetcAt i = .ok (b.byteAt i) := if_pos h

theorem uncheckedRead_ok {b : Buffer} {n : Nat} : ∀ {i : Nat}, i + n ≤ b.size →
    b.uncheckedRead i n = .ok (b.bytes i n) := by
  induction n with
  | zero => exact fun _ => rfl
  | succ n ih =>
    intro i h
    rw [uncheckedRead, uncheckedGetcAt_ok (by omega), Fault.ok_bind, ih (by omega), Fault.ok_bind,
      bytes_succ]

theorem ntoh_ok {b : Buffer} {n i : Nat} (h : i + n ≤ b.size) :
    b.ntoh n i = .ok (ofBigEndian (b.bytes i n)) := by
  rw [ntoh, uncheckedRead_ok h, Fault.ok_bind]

theorem getc_ok {b : Buffer} (h : b.index < b.size) :
    b.getc = .ok (some (b.byteAt b.index), { b with index := b.index + 1 }) := by
  rw [getc, if_pos h, uncheckedGetc, uncheckedGetcAt_ok h]
  rfl

theorem getc_end {b : Buffer} (h : ¬ b.index < b.size) : b.getc = .ok (none, b) := if_neg h

theorem checkAvailable_iff {b : Buffer} {n : Nat} :
    b.checkAvailable n = true ↔ b.index < b.size ∧ b.index + n ≤ b.size := by
  simp only [checkAvailable, Bool.and_eq_true, decide_eq_true_eq]
  omega

/-- A size or count field at an index: its value, unless it is missing or the value that stands for
an error, and the index after it. -/
def readField (byte : Nat → UInt8) (size width i : Nat) : Option Nat × Nat :=
  if i + width ≤ size then
    let v := ofBigEndian ((List.range width).map fun k => byte (i + k))
    (if v = sizeError then none else some v, i + width)
  else (none, i)

theorem readField_le {byte : Nat → UInt8} {size width i : Nat} (h : i ≤ size) :
    i ≤ (readField byte size width i).2 ∧ (readField byte size width i).2 ≤ size := by
  unfold readField
  split
  · exact ⟨by simp, by simpa⟩
  · exact ⟨Nat.le_refl _, h⟩

theorem readField_some {byte : Nat → UInt8} {size width i v : Nat}
    (h : (readField byte size width i).1 = some v) :
    i + width ≤ size ∧ (readField byte size width i).2 = i + width := by
  unfold readField at h ⊢
  split at h
  · rename_i hle
    exact ⟨hle, by rw [if_pos hle]⟩
  · cases h

/-- `amqp_buffer_read_size_field`, with `-1` for a field that cannot be read. -/
theorem readSizeField_eq (b : Buffer) {width : Nat} (hw : width = 1 ∨ width = 4) :
    b.readSizeField width = .ok ((readField b.byteAt b.size width b.index).1.getD sizeError,
      { b with index := (readField b.byteAt b.size width b.index).2 }) := by
  have hval : ∀ v, (if v = sizeError then none else some v).getD sizeError = v := by
    intro v
    split
    · rename_i h; exact h.symm
    · rfl
  rcases hw with rfl | rfl
  · by_cases h : b.index + 1 ≤ b.size
    · rw [readSizeField, getc_ok h, Fault.ok_bind, readField, if_pos h]
      simp only [hval]
      simp [ofBigEndian, List.range_succ]
    · rw [readSizeField, getc_end h, Fault.ok_bind, readField, if_neg h]
      rfl
  · by_cases h : b.index + 4 ≤ b.size
    · rw [readSizeField, if_pos (checkAvailable_iff.2 ⟨by omega, h⟩), ntoh_ok h, Fault.ok_bind,
        readField, if_pos h]
      simp only [hval]
      rfl
    · rw [readSizeField, if_neg (fun hc => h (checkAvailable_iff.1 hc).2), readField, if_neg h]
      rfl

end Amqp.Buffer
