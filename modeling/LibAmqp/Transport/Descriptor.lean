import LibAmqp.Buffer.Buffer
import LibAmqp.Lib.HashTable

/-!
# Descriptors (`AmqpTypes/AmqpDescriptor.c`, `AmqpTypes/AmqpHashTable.c`, `AmqpTypes/AmqpVariable.c`)

The table of symbolic descriptors and the hash table it is loaded into when a context is created.
`amqp_hash` is not part of the repository: it is a parameter, a function of the bytes it is given.
A symbol that stands for a decoded type is hashed and compared in the buffer, as far as the fragment
goes in which it starts.
-/

namespace Amqp

open Lib

/-- `amqp_hash`. -/
abbrev HashFunction := List UInt8 → UInt32

/-- `amqp_descriptor_kind_t`, with the 0 of a frame described by a number. -/
inductive DescriptorKind
  | none | emptyFrame | unsupportedDescriptor | transport | sasl | addressing | definition
  | deliveryState | messageFormat | transactions
  deriving DecidableEq, Repr

structure Descriptor where
  domain : Nat
  id : Nat
  kind : DescriptorKind
  deriving DecidableEq, Repr

def amqpDescriptorDomain : Nat := 0x00

/-- The bytes of a symbol in the table. -/
def ascii (s : String) : List UInt8 := s.toList.map fun c => UInt8.ofNat c.toNat

/-- `descriptors`. -/
def descriptors : List (List UInt8 × Descriptor) := [
  (ascii "amqp:open:list", ⟨amqpDescriptorDomain, 0x10, .transport⟩),
  (ascii "amqp:begin:list", ⟨amqpDescriptorDomain, 0x11, .transport⟩),
  (ascii "amqp:attach:list", ⟨amqpDescriptorDomain, 0x12, .transport⟩),
  (ascii "amqp:flow:list", ⟨amqpDescriptorDomain, 0x13, .transport⟩),
  (ascii "amqp:transfer:list", ⟨amqpDescriptorDomain, 0x14, .transport⟩),
  (ascii "amqp:disposition:list", ⟨amqpDescriptorDomain, 0x15, .transport⟩),
  (ascii "amqp:detach:list", ⟨amqpDescriptorDomain, 0x16, .transport⟩),
  (ascii "amqp:end:list", ⟨amqpDescriptorDomain, 0x17, .transport⟩),
  (ascii "amqp:close:list", ⟨amqpDescriptorDomain, 0x18, .transport⟩),
  (ascii "amqp:error:list", ⟨amqpDescriptorDomain, 0x1d, .definition⟩),
  (ascii "amqp:received:list", ⟨amqpDescriptorDomain, 0x23, .deliveryState⟩),
  (ascii "amqp:accepted:list", ⟨amqpDescriptorDomain, 0x24, .deliveryState⟩),
  (ascii "amqp:rejected:list", ⟨amqpDescriptorDomain, 0x25, .deliveryState⟩),
  (ascii "amqp:released:list", ⟨amqpDescriptorDomain, 0x26, .deliveryState⟩),
  (ascii "amqp:modified:list", ⟨amqpDescriptorDomain, 0x27, .deliveryState⟩),
  (ascii "amqp:source:list", ⟨amqpDescriptorDomain, 0x28, .addressing⟩),
  (ascii "amqp:target:list", ⟨amqpDescriptorDomain, 0x29, .addressing⟩),
  (ascii "amqp:delete-on-close:list", ⟨amqpDescriptorDomain, 0x2b, .addressing⟩),
  (ascii "amqp:delete-on-no-links:list", ⟨amqpDescriptorDomain, 0x2c, .addressing⟩),
  (ascii "amqp:delete-on-no-messages:list", ⟨amqpDescriptorDomain, 0x2d, .addressing⟩),
  (ascii "amqp:delete-on-no-links-or-messages:list", ⟨amqpDescriptorDomain, 0x2e, .addressing⟩),
  (ascii "amqp:coordinator:list", ⟨amqpDescriptorDomain, 0x30, .transactions⟩),
  (ascii "amqp:declare:list", ⟨amqpDescriptorDomain, 0x31, .transactions⟩),
  (ascii "amqp:discharge:list", ⟨amqpDescriptorDomain, 0x32, .transactions⟩),
  (ascii "amqp:declared:list", ⟨amqpDescriptorDomain, 0x33, .transactions⟩),
  (ascii "amqp:transactional-state:list", ⟨amqpDescriptorDomain, 0x34, .transactions⟩),
  (ascii "amqp:sasl-mechanisms:list", ⟨amqpDescriptorDomain, 0x40, .sasl⟩),
  (ascii "amqp:sasl-init:list", ⟨amqpDescriptorDomain, 0x41, .sasl⟩),
  (ascii "amqp:sasl-challenge:list", ⟨amqpDescriptorDomain, 0x42, .sasl⟩),
  (ascii "amqp:sasl-response:list", ⟨amqpDescriptorDomain, 0x43, .sasl⟩),
  (ascii "amqp:sasl-outcome:list", ⟨amqpDescriptorDomain, 0x44, .sasl⟩),
  (ascii "amqp:header:list", ⟨amqpDescriptorDomain, 0x70, .messageFormat⟩),
  (ascii "amqp:delivery-annotations:map", ⟨amqpDescriptorDomain, 0x71, .messageFormat⟩),
  (ascii "amqp:message-annotations:map", ⟨amqpDescriptorDomain, 0x72, .messageFormat⟩),
  (ascii "amqp:properties:list", ⟨amqpDescriptorDomain, 0x73, .messageFormat⟩),
  (ascii "amqp:application-properties:map", ⟨amqpDescriptorDomain, 0x74, .messageFormat⟩),
  (ascii "amqp:data:binary", ⟨amqpDescriptorDomain, 0x75, .messageFormat⟩),
  (ascii "amqp:amqp-sequence:list", ⟨amqpDescriptorDomain, 0x76, .messageFormat⟩),
  (ascii "amqp:amqp-value:wildcard", ⟨amqpDescriptorDomain, 0x77, .messageFormat⟩),
  (ascii "amqp:footer:map", ⟨amqpDescriptorDomain, 0x78, .messageFormat⟩)]

/-! ## The hash table -/

def amqpNextPowerTwo64 (n : UInt64) : UInt64 :=
  let n := n - 1
  let n := n ||| (n >>> 1)
  let n := n ||| (n >>> 2)
  let n := n ||| (n >>> 4)
  let n := n ||| (n >>> 8)
  let n := n ||| (n >>> 16)
  let n := n ||| (n >>> 32)
  n + 1

/-- `map_size`; the array has one entry more, the end mark. -/
def mapSize : Nat :=
  let size := (descriptors.length + 1) / 3 * 4
  if size < 16 then 16 else size

/-- `map->capacity`. -/
def mapCapacity : UInt32 := (amqpNextPowerTwo64 (UInt64.ofNat mapSize)).toUInt32

/-- `calculate_index`. -/
def calculateIndex (hash : HashFunction) (bytes : List UInt8) : Nat :=
  (hash bytes &&& (mapCapacity - 1)).toNat

/-- `memcmp`. -/
def memcmp : List UInt8 → List UInt8 → Int
  | x :: xs, y :: ys => if x = y then memcmp xs ys else x.toNat - y.toNat
  | _, _ => 0

/-- `amqp_variable_compare`. -/
def amqpVariableCompare (lhs rhs : List UInt8) : Int :=
  let n := min lhs.length rhs.length
  let rc := memcmp (lhs.take n) (rhs.take n)
  if rc ≠ 0 then rc else lhs.length - rhs.length

/-- The loop condition of `search_chain`, the other way round. -/
def sameSymbol (lhs rhs : List UInt8) : Bool := amqpVariableCompare lhs rhs == 0

abbrev DescriptorTable := HashTable (List UInt8) Descriptor

/-- `amqp_load_descriptors`. -/
def amqpLoadDescriptors (hash : HashFunction) : DescriptorTable :=
  HashTable.fill sameSymbol (calculateIndex hash) descriptors HashTable.empty

/-- The bytes `amqp_hash` reads for a type's symbol: from `amqp_buffer_pointer` on. -/
def Buffer.hashedBytes (b : Buffer) (index size : Nat) : List UInt8 :=
  (List.range size).map fun k =>
    b.fragments (index >>> amqpFragmentIndexBits) ((index &&& amqpFragmentIndexMask) + k)

/-- The bytes `amqp_block_compare` reads for a type's symbol: from the first fragment on. -/
def Buffer.comparedBytes (b : Buffer) (index size : Nat) : List UInt8 :=
  (List.range size).map fun k => b.fragments 0 (index + k)

/-- `amqp_context_descriptor_lookup`, of a symbol in a buffer. -/
def amqpDescriptorLookup (hash : HashFunction) (table : DescriptorTable) (b : Buffer)
    (index size : Nat) : Option Descriptor :=
  table.get sameSymbol (calculateIndex hash (b.hashedBytes index size)) (b.comparedBytes index size)

/-! ## Results -/

theorem memcmp_eq_zero : ∀ {xs ys : List UInt8}, xs.length = ys.length →
    (memcmp xs ys = 0 ↔ xs = ys)
  | [], [], _ => by simp [memcmp]
  | x :: xs, y :: ys, h => by
    rw [memcmp]
    by_cases hxy : x = y
    · rw [if_pos hxy, memcmp_eq_zero (Nat.succ.inj h), List.cons.injEq]
      simp [hxy]
    · rw [if_neg hxy, List.cons.injEq]
      have hne : x.toNat ≠ y.toNat := fun he => hxy (UInt8.toNat_inj.1 he)
      constructor
      · intro h0
        omega
      · intro he
        exact absurd he.1 hxy

/-- Symbols compare as equal when their bytes are. -/
theorem sameSymbol_iff (lhs rhs : List UInt8) : sameSymbol lhs rhs = true ↔ lhs = rhs := by
  have hlen : (lhs.take (min lhs.length rhs.length)).length =
      (rhs.take (min lhs.length rhs.length)).length := by simp
  rw [sameSymbol, beq_iff_eq, amqpVariableCompare]
  constructor
  · intro h
    by_cases hm : memcmp (lhs.take (min lhs.length rhs.length))
        (rhs.take (min lhs.length rhs.length)) = 0
    · rw [if_neg (not_not.2 hm)] at h
      have hl : lhs.length = rhs.length := by omega
      rw [memcmp_eq_zero hlen, hl, Nat.min_self, List.take_length, ← hl, List.take_length] at hm
      exact hm
    · rw [if_pos hm] at h
      exact absurd h hm
  · rintro rfl
    rw [if_neg (not_not.2 ((memcmp_eq_zero rfl).2 rfl))]
    omega

theorem descriptors_nodup : (descriptors.map Prod.fst).Nodup := by
  decide +kernel

/-- The loaded table has the entries of `descriptors`, whatever the hash function. -/
theorem amqpLoadDescriptors_get (hash : HashFunction) (bytes : List UInt8) (d : Descriptor) :
    (amqpLoadDescriptors hash).get sameSymbol (calculateIndex hash bytes) bytes = some d ↔
      (bytes, d) ∈ descriptors :=
  HashTable.get_fill sameSymbol_iff descriptors_nodup bytes d

/-- A symbol in the first fragment is looked up by its bytes. -/
theorem amqpDescriptorLookup_first (hash : HashFunction) (b : Buffer) {index size : Nat}
    (hfirst : index + size ≤ amqpFragmentIndexMask + 1) (d : Descriptor) :
    amqpDescriptorLookup hash (amqpLoadDescriptors hash) b index size = some d ↔
      (b.bytes index size, d) ∈ descriptors := by
  have hbyte : ∀ k < size, b.byteAt (index + k) = b.fragments 0 (index + k) := by
    intro k hk
    have hlt : index + k < 2 ^ 12 := by
      have : amqpFragmentIndexMask + 1 = 2 ^ 12 := rfl
      omega
    rw [Buffer.byteAt, amqpFragmentIndexBits, Nat.shiftRight_eq_div_pow, Nat.div_eq_of_lt hlt,
      show amqpFragmentIndexMask = 2 ^ 12 - 1 from rfl, Nat.and_two_pow_sub_one_eq_mod,
      Nat.mod_eq_of_lt hlt]
  have hcompared : b.comparedBytes index size = b.bytes index size := by
    refine List.map_congr_left fun k hk => ?_
    rw [hbyte k (List.mem_range.1 hk)]
  have hhashed : b.hashedBytes index size = b.bytes index size := by
    refine List.map_congr_left fun k hk => ?_
    have hk := List.mem_range.1 hk
    have hlt : index < 2 ^ 12 := by
      have : amqpFragmentIndexMask + 1 = 2 ^ 12 := rfl
      omega
    rw [hbyte k hk, amqpFragmentIndexBits, Nat.shiftRight_eq_div_pow, Nat.div_eq_of_lt hlt,
      show amqpFragmentIndexMask = 2 ^ 12 - 1 from rfl, Nat.and_two_pow_sub_one_eq_mod,
      Nat.mod_eq_of_lt hlt]
  rw [amqpDescriptorLookup, hcompared, hhashed, amqpLoadDescriptors_get]

end Amqp
