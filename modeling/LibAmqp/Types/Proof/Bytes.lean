import LibAmqp.Types.Bytes
import LibAmqp.Types.Proof.Variable

/-!
# What the copies of a variable hold

* `copies_iff`: a copy agrees with byte reads if and only if its range is in one fragment or the tail
  repeats.
* `terminated_iff`: a string ends with a zero byte if and only if its size does not fill the last word
  that was allocated for it.
-/

namespace Amqp

open Buffer

/-! ## Copies of types -/

section
variable {type : AmqpType} {b : Buffer} {destination : Buffer.Memory} {amount : Nat}

theorem amqpTypeCopyTo_eq (h : type.typeIsVariable = true) : amqpTypeCopyTo type b destination amount =
    (b.blockCopy destination type.position.index (min type.position.size amount)).map
      fun result => (min type.position.size amount, result) := by
  have hsize : (if amount < type.position.size then amount else type.position.size) =
      min type.position.size amount := by
    split <;> omega
  rw [amqpTypeCopyTo, if_pos h, hsize]
  dsimp only
  cases b.blockCopy destination type.position.index (min type.position.size amount) <;> rfl

/-- All that is copied out of a buffer is what byte reads give: a range, as much of a type as was asked
for, and that of a variable. -/
def Copies (b : Buffer) (destination : Buffer.Memory) (type : AmqpType) (amount : Nat) : Prop :=
  let index := type.position.index
  let n := min type.position.size amount
  b.blockCopy destination index n = .ok (b.copied destination index n) ∧
    amqpTypeCopyTo type b destination amount = .ok (n, b.copied destination index n) ∧
    (Variable.ofType type b).toBytes destination amount = .ok ((n : Int), b.copied destination index n)

/-- The copies agree with byte reads if and only if the range is in one fragment or its tail repeats. -/
theorem copies_iff (start size : Nat) (hrange : start + size ≤ b.capacity)
    (htype : type.typeIsVariable = true) (hinside : type.position.index + type.position.size ≤ b.capacity) :
    (b.blockCopy destination start size = .ok (b.copied destination start size) ↔ b.Repeats start size) ∧
    (Copies b destination type amount ↔
      b.Repeats type.position.index (min type.position.size amount)) := by
  refine ⟨blockCopy_iff hrange, ?_⟩
  have hle : type.position.index + min type.position.size amount ≤ b.capacity := by omega
  unfold Copies
  dsimp only
  rw [blockCopy_iff hle]
  refine and_iff_left_of_imp fun hrepeats => ?_
  have hcopy : b.blockCopy destination type.position.index (min type.position.size amount) = .ok _ :=
    (blockCopy_iff hle).2 hrepeats
  have hto : amqpTypeCopyTo type b destination amount = _ := amqpTypeCopyTo_eq htype
  rw [hcopy] at hto
  have hcap := b.capacity_le
  unfold amqpBufferMaxSize at hcap
  refine ⟨hto, ?_⟩
  rw [Variable.toBytes, hto]
  show Except.ok _ = _
  rw [toInt_eq (by omega)]

end

/-- A symbol that goes over the end of the first fragment: its second byte is that of the fragment's
start, which is the same in an empty buffer. -/
theorem copies_iff_across :
    ((Buffer.received []).blockCopy (fun _ => 7) 4095 2 =
        .ok ((Buffer.received []).copied (fun _ => 7) 4095 2) ↔ (Buffer.received []).Repeats 4095 2) ∧
    (Copies (Buffer.received []) (fun _ => 7)
        { AmqpType.zero with constructor.typedefFlags := isSymbol, position := ⟨4095, 2⟩ } 8 ↔
      (Buffer.received []).Repeats 4095 2) :=
  copies_iff 4095 2 (by decide) (by decide) (by decide)

/-- The byte behind the first fragment is 9, but its first byte is copied. -/
theorem not_copied_across : ∃ b : Buffer, 4095 + 2 ≤ b.capacity ∧
    b.blockCopy (fun _ => 7) 4095 2 ≠ .ok (b.copied (fun _ => 7) 4095 2) := by
  refine ⟨{ Buffer.received [] with fragments := fun block _ => if block = 1 then 9 else 5 }, by decide,
    fun h => ?_⟩
  have hrepeats := (blockCopy_iff (by decide)).1 h
  exact absurd (hrepeats 1 (by decide) (by decide) (by decide)) (by decide)

/-! ## Strings -/

/-- A copy of a variable, or of as much of it as was asked for. -/
theorem Variable.Valid.toBytes {v : Variable} (h : v.Valid) (hnull : v ≠ .null)
    (destination : Buffer.Memory) (amount : Nat) : let n := min v.size amount
    ∃ result, v.toBytes destination amount = .ok (toInt n, result) ∧
      (∀ i, n ≤ i → result i = destination i) ∧
      ((∀ i < n, result i = v.contents.getD i 0) ↔ v.CopiesRight n) := by
  intro n
  cases v with
  | null => exact absurd rfl hnull
  | ofData data =>
    have hn : (if amount ≤ data.length then amount else data.length) = n := by
      show _ = min data.length amount
      split <;> omega
    have hlen : (data.take n).length = n := by
      rw [List.length_take]
      exact Nat.min_eq_left (Nat.min_le_left _ _)
    refine ⟨memcpy destination 0 (data.take n), ?_, fun i hi => ?_, ?_⟩
    · show Except.ok _ = _
      rw [hn]
    · rw [memcpy, if_neg]
      omega
    · refine ⟨fun _ => trivial, fun _ i hi => ?_⟩
      rw [memcpy, if_pos (by omega), Nat.sub_zero, List.getD_eq_getElem?_getD, List.getElem?_take_of_lt hi,
        ← List.getD_eq_getElem?_getD]
      rfl
  | ofType type buffer =>
    obtain ⟨hvariable, hcap⟩ := h
    have hle : n ≤ type.position.size := Nat.min_le_left _ _
    have hrange : type.position.index + n ≤ buffer.capacity := by omega
    obtain ⟨result, hcopy, hout, -⟩ : ∃ result, buffer.blockCopy destination _ _ = .ok result ∧ _ :=
      blockCopy_spec hrange
    have hto : amqpTypeCopyTo type buffer destination amount = _ := amqpTypeCopyTo_eq hvariable
    rw [show min type.position.size amount = n from rfl, hcopy] at hto
    refine ⟨result, ?_, hout, ?_⟩
    · rw [Variable.toBytes, hto]
      rfl
    · show _ ↔ buffer.Repeats type.position.index n
      rw [← blockCopy_iff hrange, hcopy, Except.ok.injEq]
      constructor
      · intro hbytes
        funext i
        unfold copied
        split
        · rename_i hi
          rw [hbytes i hi]
          exact getD_bytes (Nat.lt_of_lt_of_le hi hle)
        · rename_i hi
          exact hout i (Nat.le_of_not_lt hi)
      · rintro rfl i hi
        rw [copied, if_pos hi]
        exact (getD_bytes (Nat.lt_of_lt_of_le hi hle)).symm

/-- The bytes of a new block, in whole words. -/
theorem amqpMalloc_spec {n : Nat} (h1 : 1 ≤ n) (h2 : n < 2 ^ 64) :
    8 * (amqpMalloc (BitVec.ofNat 64 n)).count = (n + 7) / 8 * 8 ∧
      ∀ i < 8 * (amqpMalloc (BitVec.ofNat 64 n)).count, (amqpMalloc (BitVec.ofNat 64 n)).bytes i = 0 := by
  have hcount : (wordsFor (BitVec.ofNat 64 n)).toNat = (n + 7) / 8 := by
    have h8 : (8 : BitVec 64).toNat = 8 := rfl
    have hone : (1 : BitVec 64).toNat = 1 := rfl
    unfold wordsFor
    rw [BitVec.toNat_add, BitVec.toNat_udiv, BitVec.toNat_sub, h8, hone, BitVec.toNat_ofNat]
    omega
  refine ⟨?_, fun i hi => if_pos hi⟩
  show 8 * (wordsFor (BitVec.ofNat 64 n)).toNat = _
  rw [hcount, Nat.mul_comm]

theorem Variable.Valid.size_lt_word {v : Variable} (h : v.Valid) : v.size < 2 ^ 64 := by
  cases v with
  | null => exact (by decide : 0 < 2 ^ 64)
  | ofData data => exact h
  | ofType type buffer => exact Nat.lt_trans (h.size_lt ⟨_, _, rfl⟩) (by decide)

theorem Variable.toCstr_eq {v : Variable} (hnull : v ≠ .null) : v.toCstr = (do
    let (_, bytes) ← v.toBytes (amqpMalloc (BitVec.ofNat 64 v.size)).bytes v.size
    .ok (some { amqpMalloc (BitVec.ofNat 64 v.size) with bytes := bytes })) := by
  cases v with
  | null => exact absurd rfl hnull
  | ofType | ofData => rfl

/-- A string ends with a zero byte if and only if its size does not fill the last word and its bytes are
copied right. -/
theorem terminated_iff {v : Variable} (h : v.Valid) (hnull : v ≠ .null) (hsize : 1 ≤ v.size)
    (hnul : ∀ byte ∈ v.contents, byte ≠ 0) :
    v.Terminated ↔ v.size % 8 ≠ 0 ∧ v.CopiesRight v.size := by
  obtain ⟨hcount, hzero⟩ := amqpMalloc_spec hsize h.size_lt_word
  obtain ⟨result, hbytes, hout, hright⟩ :=
    h.toBytes hnull (amqpMalloc (BitVec.ofNat 64 v.size)).bytes v.size
  rw [Nat.min_self] at hbytes hout hright
  have hcstr : v.toCstr = .ok (some { amqpMalloc (BitVec.ofNat 64 v.size) with bytes := result }) := by
    rw [Variable.toCstr_eq hnull, hbytes]
    rfl
  unfold Variable.Terminated
  constructor
  · rintro ⟨block, hblock, hlt, hsame, -, -⟩
    rw [hcstr] at hblock
    cases hblock
    refine ⟨fun hmod => ?_, hright.1 hsame⟩
    dsimp only at hlt
    omega
  · rintro ⟨hmod, hcopy⟩
    have hsame := hright.2 hcopy
    have hlt : v.size < 8 * (amqpMalloc (BitVec.ofNat 64 v.size)).count := by omega
    refine ⟨_, hcstr, hlt, hsame, fun i h1 h2 => ?_, ?_, fun i hi => ?_⟩
    · exact (hout i h1).trans (hzero i h2)
    · exact (hout _ (Nat.le_refl _)).trans (hzero _ hlt)
    · have hi' : i < v.contents.length := by rwa [v.length_contents]
      show result i ≠ 0
      rw [hsame i hi, List.getD_eq_getElem _ _ hi']
      exact hnul _ (List.getElem_mem hi')

theorem terminated_iff_five : (Variable.ofData [80, 76, 65, 73, 78]).Terminated ↔
    (Variable.ofData [80, 76, 65, 73, 78]).size % 8 ≠ 0 ∧ True :=
  terminated_iff (v := .ofData [80, 76, 65, 73, 78])
    (by decide : ([80, 76, 65, 73, 78] : List UInt8).length < 2 ^ 64) (by simp) (by decide) (by decide +kernel)

/-- Eight bytes fill the only word. -/
theorem not_terminated_eight : ¬ (Variable.ofData [65, 65, 65, 65, 65, 65, 65, 65]).Terminated := by
  rintro ⟨block, hblock, hlt, -⟩
  cases hblock
  exact absurd hlt (by decide)

end Amqp
