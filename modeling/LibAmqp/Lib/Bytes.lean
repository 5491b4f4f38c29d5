import Mathlib.Algebra.Group.Nat.Defs
import Mathlib.Data.List.Induction
import Mathlib.Tactic.Common

/-!
# Numbers as big endian bytes

* `ofBigEndian_toBigEndian`: writing a number that fits and reading it back.
* `toBigEndian_ofBigEndian`: reading bytes as a number and writing them again.
* `toBigEndian_mod`: numbers that only differ above the bytes that are written.
* `ofBigEndian_lt`: a number read from `n` bytes is below `256 ^ n`.
-/

namespace Lib

/-- The number some bytes spell, most significant byte first. -/
def ofBigEndian (bytes : List UInt8) : Nat := bytes.foldl (fun acc b => acc * 256 + b.toNat) 0

/-- The last `n` bytes of a number, most significant byte first. -/
def toBigEndian : Nat → Nat → List UInt8
  | 0, _ => []
  | n + 1, v => toBigEndian n (v / 256) ++ [UInt8.ofNat (v % 256)]

@[simp] theorem length_toBigEndian (n : Nat) : ∀ v, (toBigEndian n v).length = n := by
  induction n with
  | zero => exact fun _ => rfl
  | succ n ih => intro v; simp [toBigEndian, ih]

theorem ofBigEndian_append_singleton (bytes : List UInt8) (b : UInt8) :
    ofBigEndian (bytes ++ [b]) = ofBigEndian bytes * 256 + b.toNat := by
  simp [ofBigEndian]

theorem ofBigEndian_lt (bytes : List UInt8) : ofBigEndian bytes < 256 ^ bytes.length := by
  induction bytes using List.reverseRecOn with
  | nil => simp [ofBigEndian]
  | append_singleton bytes b ih =>
    have hb := b.toNat_lt
    rw [ofBigEndian_append_singleton, List.length_append, List.length_singleton, Nat.pow_succ]
    omega

theorem ofBigEndian_toBigEndian (n : Nat) : ∀ v < 256 ^ n, ofBigEndian (toBigEndian n v) = v := by
  induction n with
  | zero => intro v hv; simp [toBigEndian, ofBigEndian] at *; omega
  | succ n ih =>
    intro v hv
    have hdiv : v / 256 < 256 ^ n := by rw [Nat.pow_succ] at hv; omega
    have hmod : (UInt8.ofNat (v % 256)).toNat = v % 256 := by
      rw [UInt8.toNat_ofNat_of_lt']
      exact Nat.mod_lt _ (by decide)
    rw [toBigEndian, ofBigEndian_append_singleton, ih _ hdiv, hmod]
    omega

theorem toBigEndian_ofBigEndian {n : Nat} : ∀ {bytes : List UInt8}, bytes.length = n →
    toBigEndian n (ofBigEndian bytes) = bytes := by
  induction n with
  | zero => intro bytes h; rw [List.length_eq_zero_iff.1 h]; rfl
  | succ n ih =>
    intro bytes h
    obtain rfl | ⟨front, b, rfl⟩ := List.eq_nil_or_concat bytes
    · cases h
    rw [List.concat_eq_append] at h ⊢
    have hb := b.toNat_lt
    have hdiv : (ofBigEndian front * 256 + b.toNat) / 256 = ofBigEndian front := by omega
    have hmod : (ofBigEndian front * 256 + b.toNat) % 256 = b.toNat := by omega
    rw [ofBigEndian_append_singleton, toBigEndian, hdiv, hmod, ih (by simpa using h),
      UInt8.ofNat_toNat]

/-- Only the last `n` bytes of a number are written. -/
theorem toBigEndian_mod (n : Nat) : ∀ v, toBigEndian n (v % 256 ^ n) = toBigEndian n v := by
  induction n with
  | zero => exact fun _ => rfl
  | succ n ih =>
    intro v
    have hdiv : v % 256 ^ (n + 1) / 256 = v / 256 % 256 ^ n := by
      rw [Nat.pow_succ', Nat.mod_mul_right_div_self]
    have hmod : v % 256 ^ (n + 1) % 256 = v % 256 :=
      Nat.mod_mod_of_dvd _ ⟨256 ^ n, Nat.pow_succ'⟩
    rw [toBigEndian, toBigEndian, hdiv, hmod, ih]

end Lib
