import LibAmqp.Types.Variable
import LibAmqp.Buffer.Proof.Copy

/-!
# When variables are compared and hashed by their contents

`amqp_block_compare` reads from fragment 0 whatever the position is, `amqp_variable_hash` from the right
fragment but beyond its end.

* `compareHolds_iff`: a comparison orders the contents if and only if what is found orders them.
* `hashHolds_iff`: two variables have one hash if and only if the bytes that are hashed are the same.
* `comparable_of_inFirst`, `hashed_of_inOne`: so it is for what lies in fragment 0, and in one fragment.
-/

namespace Amqp

open Buffer

/-! ## Comparison of bytes -/

/-- What a comparison of as many bytes decides. -/
theorem Variable.memcmp_orders : ∀ {xs ys : List UInt8}, xs.length = ys.length →
    Orders (Variable.memcmp xs ys) xs ys
  | [], [], _ => by
    constructor
    all_goals simp [Variable.memcmp]
  | x :: xs, y :: ys, h => by
    obtain ⟨hneg, hzero, hpos⟩ := Variable.memcmp_orders (Nat.succ.inj h)
    rw [Variable.memcmp]
    by_cases hlt : x < y
    · have hne : x ≠ y := UInt8.ne_of_lt hlt
      have hnot : ¬ y < x := UInt8.not_lt.2 (UInt8.le_of_lt hlt)
      rw [if_pos hlt]
      constructor
      all_goals simp [List.cons_lt_cons_iff, hlt, hne, hne.symm, hnot]
    · by_cases hgt : y < x
      · have hne : x ≠ y := (UInt8.ne_of_lt hgt).symm
        rw [if_neg hlt, if_pos hgt]
        constructor
        all_goals simp [List.cons_lt_cons_iff, hlt, hne, hne.symm, hgt]
      · obtain rfl : x = y := UInt8.le_antisymm (UInt8.not_lt.1 hgt) (UInt8.not_lt.1 hlt)
        rw [if_neg hlt, if_neg hgt]
        constructor
        all_goals simp [hneg, hzero, hpos]

/-- A difference within the first bytes decides. -/
theorem take_lt_iff : ∀ {n : Nat} {xs ys : List UInt8}, n ≤ xs.length → n ≤ ys.length →
    xs.take n ≠ ys.take n → (xs.take n < ys.take n ↔ xs < ys)
  | 0, _, _, _, _, h => absurd rfl h
  | n + 1, [], _, hx, _, _ => by simp at hx
  | n + 1, _ :: _, [], _, hy, _ => by simp at hy
  | n + 1, x :: xs, y :: ys, hx, hy, h => by
    rw [List.take_succ_cons, List.take_succ_cons] at h ⊢
    rw [List.cons_lt_cons_iff, List.cons_lt_cons_iff]
    refine or_congr_right (and_congr_right fun hxy => ?_)
    exact take_lt_iff (Nat.le_of_succ_le_succ hx) (Nat.le_of_succ_le_succ hy) fun heq => h (by rw [hxy, heq])

/-- Where one of two lists begins the other, the sizes decide. -/
theorem lt_iff_of_take_eq {xs ys : List UInt8}
    (h : xs.take (min xs.length ys.length) = ys.take (min xs.length ys.length)) :
    (xs < ys ↔ xs.length < ys.length) ∧ (xs = ys ↔ xs.length = ys.length) ∧
      (ys < xs ↔ ys.length < xs.length) := by
  have key : ∀ {xs ys : List UInt8}, xs = ys.take xs.length → xs.length ≤ ys.length →
      (xs < ys ↔ xs.length < ys.length) ∧ ¬ ys < xs := by
    intro xs
    induction xs with
    | nil =>
      intro ys _ _
      cases ys <;> simp
    | cons x xs ih =>
      intro ys htake hle
      cases ys with
      | nil => simp at hle
      | cons y ys =>
        rw [List.length_cons, List.take_succ_cons, List.cons.injEq] at htake
        obtain ⟨rfl, htake⟩ := htake
        simp only [List.cons_lt_cons_iff, UInt8.lt_irrefl, false_or, true_and, List.length_cons,
          Nat.add_lt_add_iff_right]
        exact ih htake (Nat.le_of_succ_le_succ hle)
  rcases Nat.le_total xs.length ys.length with hle | hle
  · rw [Nat.min_eq_left hle, List.take_length] at h
    obtain ⟨hlt, hnot⟩ := key h hle
    refine ⟨hlt, ⟨fun heq => heq ▸ rfl, fun heq => ?_⟩, ?_⟩
    · rw [h, heq, List.take_length]
    · exact ⟨fun hgt => absurd hgt hnot, fun hgt => by omega⟩
  · rw [Nat.min_eq_right hle, List.take_length] at h
    obtain ⟨hlt, hnot⟩ := key h.symm hle
    refine ⟨⟨fun hgt => absurd hgt hnot, fun hgt => by omega⟩, ⟨fun heq => heq ▸ rfl, fun heq => ?_⟩, hlt⟩
    rw [← h, ← heq, List.take_length]

/-! ## Sizes as `int`s -/

theorem toInt_eq {n : Nat} (h : n < 2 ^ 31) : toInt n = n := by
  unfold toInt
  rw [BitVec.toInt_ofNat', Int.bmod_def]
  omega

theorem ofInt_eq {n : Nat} (h : n < 2 ^ 64) : ofInt n = n := by
  unfold ofInt
  rw [BitVec.toNat_ofInt]
  omega

theorem toInt_sub {m n : Nat} (hm : m < 2 ^ 31) (hn : n < 2 ^ 31) :
    toInt (2 ^ 64 + m - n) = (m : Int) - n := by
  unfold toInt
  rw [BitVec.toInt_ofNat', Int.bmod_def]
  omega

theorem comparedSize_eq {m n : Nat} (hm : m < 2 ^ 31) (hn : n < 2 ^ 31) :
    comparedSize m n = min m n := by
  unfold comparedSize
  dsimp only
  rw [toInt_eq hm, ofInt_eq (by omega)]
  split
  · rw [toInt_eq hn, ofInt_eq (by omega)]
    omega
  · rw [ofInt_eq (by omega)]
    omega

/-! ## Comparison of variables -/

namespace Variable

@[simp] theorem length_contents (v : Variable) : v.contents.length = v.size := by
  cases v with
  | null | ofData => rfl
  | ofType => exact length_bytes _ _ _

/-- What is read of a variable, if it is in reach. -/
theorem Valid.dataToBlock {v : Variable} (h : v.Valid) (n : Nat) : ∃ block, v.dataToBlock = .ok block ∧
    ((n = 0 ∨ v.dataOffset + n ≤ block.size) ↔ v.Reaches n) ∧
    (v.Reaches n → (List.range n).map (fun i => block.fragment (v.dataOffset + i)) = v.found n) := by
  cases v with
  | null =>
    refine ⟨⟨fun _ => 0, 0⟩, rfl, ?_, fun hreach => ?_⟩
    · show n = 0 ∨ 0 + n ≤ 0 ↔ n ≤ 0
      omega
    · obtain rfl : n = 0 := Nat.eq_zero_of_le_zero hreach
      rfl
  | ofData data =>
    refine ⟨⟨fun i => data.getD i 0, data.length⟩, rfl, ?_, fun hreach => ?_⟩
    · show n = 0 ∨ 0 + n ≤ data.length ↔ n ≤ data.length
      omega
    · have hle : n ≤ data.length := hreach
      show (List.range n).map (fun i => data.getD (0 + i) 0) = data.take n
      refine List.ext_getElem (by simp [hle]) fun i h1 h2 => ?_
      have hi : i < data.length := by
        rw [List.length_map, List.length_range] at h1
        omega
      rw [List.getElem_map, List.getElem_range, List.getElem_take, Nat.zero_add,
        List.getD_eq_getElem _ _ hi]
  | ofType type buffer =>
    exact ⟨⟨buffer.fragmentMemory 0, fragmentBlockSize⟩, if_pos h.1, Iff.rfl, fun _ => rfl⟩

theorem length_found {v : Variable} {n : Nat} (h : v.Reaches n) : (v.found n).length = n := by
  cases v with
  | ofType type buffer => exact (List.length_map _).trans List.length_range
  | null | ofData =>
    show (List.take n _).length = n
    rw [List.length_take, length_contents]
    exact Nat.min_eq_left h

/-- In fragment 0 a type finds its own bytes. -/
theorem found_of_inFirst {v : Variable} {n : Nat} (h : v.InFirst n) (hn : n ≤ v.size) :
    v.Reaches n ∧ v.found n = v.contents.take n := by
  cases v with
  | null => exact ⟨h, rfl⟩
  | ofData data => exact ⟨h, rfl⟩
  | ofType type buffer =>
    have hn' : n ≤ type.position.size := hn
    refine ⟨h.imp_right fun hle => Nat.le_trans hle (Nat.le_add_right _ _), ?_⟩
    show (List.range n).map (fun i => buffer.fragmentMemory 0 (type.position.index + i)) =
      (buffer.bytes type.position.index type.position.size).take n
    unfold Buffer.bytes
    rw [← List.map_take, List.take_range, Nat.min_eq_left hn']
    refine List.map_congr_left fun i hi => ?_
    have hi' := List.mem_range.1 hi
    have hoffset : type.position.index + i < amqpBufferFragmentSize := by
      rcases h with h0 | hle
      · omega
      · omega
    rw [fragmentMemory, if_pos hoffset, ← byteAt_block hoffset, Nat.zero_mul, Nat.zero_add]

/-- A decoded type is no longer than a buffer. -/
theorem Valid.size_lt {v : Variable} (h : v.Valid) (htype : ∃ t b, v = .ofType t b) :
    v.size < 2 ^ 31 := by
  obtain ⟨t, b, rfl⟩ := htype
  have hcap := b.capacity_le
  have hle : t.position.index + t.position.size ≤ b.capacity := h.2
  unfold amqpBufferMaxSize at hcap
  show t.position.size < _
  omega

end Variable

section
variable {lhs rhs : Variable}

/-- What `amqp_variable_compare` returns. -/
theorem Variable.compare_eq (hl : lhs.Valid) (hr : rhs.Valid) {rc : Int} :
    let n := comparedSize lhs.size rhs.size
    Variable.compare lhs rhs = .ok rc ↔ (lhs.Reaches n ∧ rhs.Reaches n) ∧
      rc = comparison (Variable.memcmp (lhs.found n) (rhs.found n)) lhs.size rhs.size := by
  intro n
  obtain ⟨left, hleft, hlreach, hlbytes⟩ := hl.dataToBlock n
  obtain ⟨right, hright, hrreach, hrbytes⟩ := hr.dataToBlock n
  have hiff : (n = 0 ∨ lhs.dataOffset + n ≤ left.size ∧ rhs.dataOffset + n ≤ right.size) ↔
      lhs.Reaches n ∧ rhs.Reaches n := by
    rw [← hlreach, ← hrreach]
    omega
  unfold Variable.compare Variable.blockCompare
  simp only [hleft, hright, Fault.ok_bind]
  by_cases hreach : lhs.Reaches n ∧ rhs.Reaches n
  · rw [if_pos (hiff.2 hreach), Fault.ok_bind, hlbytes hreach.1, hrbytes hreach.2, Except.ok.injEq]
    exact ⟨fun h => ⟨hreach, h.symm⟩, fun h => h.2.symm⟩
  · rw [if_neg fun h => hreach (hiff.1 h)]
    exact ⟨fun h => (by cases h), fun h => absurd h.1 hreach⟩

/-- A comparison has the sign of the lexicographic comparison of the contents. -/
def CompareHolds (lhs rhs : Variable) : Prop :=
  ∃ rc, Variable.compare lhs rhs = .ok rc ∧ Orders rc lhs.contents rhs.contents

theorem lt_or_gt_of_ne {xs ys : List UInt8} (h : xs ≠ ys) : xs < ys ∧ ¬ ys < xs ∨ ys < xs ∧ ¬ xs < ys := by
  rcases Std.Trichotomous.rel_or_eq_or_rel_swap (r := (· < · : List UInt8 → List UInt8 → Prop)) (a := xs) (b := ys)
    with hlt | heq | hgt
  · exact .inl ⟨hlt, List.lt_asymm hlt⟩
  · exact absurd heq h
  · exact .inr ⟨hgt, List.lt_asymm hgt⟩

/-- What is found decides, if it is not the same, and else the difference of the sizes. -/
theorem orders_comparison {fl fr xs ys : List UInt8} {m k : Nat} (hlen : fl.length = fr.length) :
    Orders (comparison (Variable.memcmp fl fr) m k) xs ys ↔
      if fl = fr then Orders (toInt (2 ^ 64 + m - k)) xs ys
      else (fl < fr ↔ xs < ys) ∧ (fr < fl ↔ ys < xs) := by
  obtain ⟨hneg, hzero, hpos⟩ := Variable.memcmp_orders hlen
  by_cases heq : fl = fr
  · rw [if_pos heq, comparison, if_neg (not_not.2 (hzero.2 heq))]
  · have hrc : Variable.memcmp fl fr ≠ 0 := fun h => heq (hzero.1 h)
    rw [if_neg heq, comparison, if_pos hrc]
    constructor
    · rintro ⟨hn, -, hp⟩
      exact ⟨hneg.symm.trans hn, hpos.symm.trans hp⟩
    · rintro ⟨hlt, hgt⟩
      refine ⟨hneg.trans hlt, ⟨fun h => absurd h hrc, ?_⟩, hpos.trans hgt⟩
      rintro rfl
      rcases lt_or_gt_of_ne heq with ⟨h, -⟩ | ⟨h, -⟩
      · exact absurd (hlt.1 h) (List.lt_irrefl _)
      · exact absurd (hgt.1 h) (List.lt_irrefl _)

/-- A comparison orders the contents if and only if what is found does. -/
theorem compareHolds_iff (hl : lhs.Valid) (hr : rhs.Valid) :
    CompareHolds lhs rhs ↔ lhs.Comparable rhs := by
  constructor
  · rintro ⟨rc, hrc, horders⟩
    obtain ⟨⟨hlreach, hrreach⟩, rfl⟩ := (Variable.compare_eq hl hr).1 hrc
    have hlen := (Variable.length_found hlreach).trans (Variable.length_found hrreach).symm
    exact ⟨hlreach, hrreach, (orders_comparison hlen).1 horders⟩
  · rintro ⟨hlreach, hrreach, horders⟩
    have hlen := (Variable.length_found hlreach).trans (Variable.length_found hrreach).symm
    exact ⟨_, (Variable.compare_eq hl hr).2 ⟨⟨hlreach, hrreach⟩, rfl⟩, (orders_comparison hlen).2 horders⟩

/-- What lies in fragment 0 as far as it is looked at, and has a size that is an `int`, is compared by its
contents. -/
theorem comparable_of_inFirst (hls : lhs.size < 2 ^ 31) (hrs : rhs.size < 2 ^ 31)
    (hl : lhs.InFirst (min lhs.size rhs.size)) (hr : rhs.InFirst (min lhs.size rhs.size)) :
    lhs.Comparable rhs := by
  obtain ⟨hlreach, hlfound⟩ := Variable.found_of_inFirst hl (Nat.min_le_left _ _)
  obtain ⟨hrreach, hrfound⟩ := Variable.found_of_inFirst hr (Nat.min_le_right _ _)
  unfold Variable.Comparable
  dsimp only
  rw [comparedSize_eq hls hrs, hlfound, hrfound, toInt_sub hls hrs]
  refine ⟨hlreach, hrreach, ?_⟩
  rw [← lhs.length_contents, ← rhs.length_contents]
  split
  · rename_i heq
    obtain ⟨hlt, hsame, hgt⟩ := lt_iff_of_take_eq heq
    refine ⟨?_, ?_, ?_⟩
    · rw [hlt]
      omega
    · rw [hsame]
      omega
    · rw [hgt]
      omega
  · rename_i hne
    exact ⟨take_lt_iff (Nat.min_le_left _ _) (Nat.min_le_right _ _) hne,
      take_lt_iff (Nat.min_le_right _ _) (Nat.min_le_left _ _) fun heq => hne heq.symm⟩

/-! ## Hashes -/

/-- What `amqp_variable_hash` returns. -/
theorem Variable.hash_eq (amqpHash : List UInt8 → BitVec 32) {v : Variable} (h : v.Valid) {r : BitVec 32} :
    Variable.hash amqpHash v = .ok r ↔ v.HashReaches ∧ r = amqpHash v.hashed := by
  cases v with
  | null => exact ⟨fun hr => ⟨trivial, (Except.ok.inj hr).symm⟩, fun hr => congrArg Except.ok hr.2.symm⟩
  | ofData data => exact ⟨fun hr => ⟨trivial, (Except.ok.inj hr).symm⟩, fun hr => congrArg Except.ok hr.2.symm⟩
  | ofType type buffer =>
    have hlt : type.position.size < 2 ^ 31 := h.size_lt ⟨_, _, rfl⟩
    have hsize : (toInt type.position.size).toNat = type.position.size := by
      rw [toInt_eq hlt, Int.toNat_natCast]
    have hcap : type.position.index + type.position.size ≤ buffer.capacity := h.2
    have hoffset : type.position.index &&& amqpFragmentIndexMask =
        type.position.index % amqpBufferFragmentSize := Nat.and_two_pow_sub_one_eq_mod _ 12
    have hblock : type.position.index >>> amqpFragmentIndexBits =
        type.position.index / amqpBufferFragmentSize := Nat.shiftRight_eq_div_pow _ 12
    have hdiv := Nat.div_mul_le_self type.position.index amqpBufferFragmentSize
    have hiff : (type.position.size = 0 ∨
        type.position.index / amqpBufferFragmentSize * amqpBufferFragmentSize < buffer.capacity ∧
          type.position.index % amqpBufferFragmentSize + type.position.size ≤ fragmentBlockSize) ↔
        (Variable.ofType type buffer).HashReaches := by
      show _ ↔ type.position.size = 0 ∨ _ ≤ fragmentBlockSize
      omega
    unfold Variable.hash
    simp only [hsize, hoffset, hblock, pointedBytes]
    by_cases hreach : (Variable.ofType type buffer).HashReaches
    · rw [if_pos (hiff.2 hreach), Fault.ok_bind, Except.ok.injEq]
      exact ⟨fun hr => ⟨hreach, hr.symm⟩, fun hr => hr.2.symm⟩
    · rw [if_neg fun hr => hreach (hiff.1 hr)]
      exact ⟨fun hr => (by cases hr), fun hr => absurd hr.1 hreach⟩

/-- Both are hashed, to the same, whatever function of its bytes `amqp_hash` is. -/
def HashHolds (lhs rhs : Variable) : Prop :=
  ∀ amqpHash, ∃ r, Variable.hash amqpHash lhs = .ok r ∧ Variable.hash amqpHash rhs = .ok r

/-- Two variables have one hash if and only if the bytes that are hashed are the same. -/
theorem hashHolds_iff (hl : lhs.Valid) (hr : rhs.Valid) :
    HashHolds lhs rhs ↔ lhs.HashReaches ∧ rhs.HashReaches ∧ lhs.hashed = rhs.hashed := by
  constructor
  · intro h
    -- a function that tells these bytes from others
    obtain ⟨r, h1, h2⟩ := h fun bytes => if bytes = lhs.hashed then 1 else 0
    obtain ⟨hlreach, rfl⟩ := (Variable.hash_eq _ hl).1 h1
    obtain ⟨hrreach, heq⟩ := (Variable.hash_eq _ hr).1 h2
    refine ⟨hlreach, hrreach, ?_⟩
    by_contra hne
    rw [if_pos rfl, if_neg fun h => hne h.symm] at heq
    exact absurd heq (by decide)
  · rintro ⟨hlreach, hrreach, heq⟩ amqpHash
    exact ⟨_, (Variable.hash_eq amqpHash hl).2 ⟨hlreach, rfl⟩,
      (Variable.hash_eq amqpHash hr).2 ⟨hrreach, by rw [heq]⟩⟩

/-- A type that is in one fragment is hashed by its contents. -/
theorem hashed_of_inOne {v : Variable} (h : v.Valid) (hone : v.InOne) :
    v.HashReaches ∧ v.hashed = v.contents.take (toInt v.size).toNat := by
  cases v with
  | null => exact ⟨trivial, rfl⟩
  | ofData data => exact ⟨trivial, rfl⟩
  | ofType type buffer =>
    have hlt : type.position.size < 2 ^ 31 := h.size_lt ⟨_, _, rfl⟩
    have hsize : (toInt type.position.size).toNat = type.position.size := by
      rw [toInt_eq hlt, Int.toNat_natCast]
    refine ⟨hone.imp_right fun hle => Nat.le_trans hle (Nat.le_add_right _ _), ?_⟩
    show (List.range type.position.size).map _ =
      (buffer.bytes type.position.index type.position.size).take (toInt type.position.size).toNat
    rw [hsize, List.take_of_length_le (Nat.le_of_eq (length_bytes _ _ _))]
    refine List.map_congr_left fun i hi => ?_
    have hi' := List.mem_range.1 hi
    have hoffset : type.position.index % amqpBufferFragmentSize + i < amqpBufferFragmentSize := by
      rcases hone with h0 | hle
      · omega
      · omega
    rw [fragmentMemory, if_pos hoffset, ← byteAt_block hoffset, ← Nat.add_assoc,
      Nat.div_add_mod' type.position.index amqpBufferFragmentSize]

/-! ## Contents alone -/

/-- `amqp_variable_compare_with_bytes` has the sign of the lexicographic comparison. -/
def CompareWithBytesHolds (lhs : Variable) (bytes : List UInt8) : Prop :=
  ∃ rc, Variable.compareWithBytes lhs bytes = .ok rc ∧ Orders rc lhs.contents bytes

/-- Comparison and hash depend on the contents alone if and only if what they find in memory, from the
beginning of a fragment on, is as good. -/
theorem contents_decide_iff (hl : lhs.Valid) (hr : rhs.Valid) {bytes : List UInt8}
    (hbytes : bytes.length < 2 ^ 64) :
    (CompareHolds lhs rhs ↔ lhs.Comparable rhs) ∧
    (CompareWithBytesHolds lhs bytes ↔ lhs.Comparable (.ofData bytes)) ∧
    (lhs.contents = rhs.contents →
      (HashHolds lhs rhs ↔ lhs.HashReaches ∧ rhs.HashReaches ∧ lhs.hashed = rhs.hashed)) :=
  ⟨compareHolds_iff hl hr, compareHolds_iff hl (show (Variable.ofData bytes).Valid from hbytes),
    fun _ => hashHolds_iff hl hr⟩

end

/-! ## A symbol at the end of a fragment -/

/-- A buffer of two fragments, with `aa` where they meet. -/
def twoFragments : Buffer where
  address := 1
  capacity := 8192
  fragments block offset := if block = 0 ∧ offset = 4095 ∨ block = 1 ∧ offset = 0 then 0x61 else 0
  index := 0
  size := 4097
  capacity_le := by decide

/-- A symbol of `size` bytes at an index of this buffer. -/
def symbolAt (index size : Nat) : Variable :=
  .ofType { AmqpType.zero with constructor.typedefFlags := isSymbol, position := ⟨index, size⟩ } twoFragments

theorem symbolAt_valid {index size : Nat} (h : index + size ≤ 8192) : (symbolAt index size).Valid := by
  have htype : ({ AmqpType.zero with constructor.typedefFlags := isSymbol } : AmqpType).typeIsVariable = true := by
    decide
  exact ⟨htype, h⟩

/-- Within the first fragment, and for the hash within any. -/
theorem contents_decide_iff_first : CompareHolds (symbolAt 4094 2) (symbolAt 4095 1) ∧
    CompareWithBytesHolds (symbolAt 4094 2) [0, 0x61] ∧ HashHolds (symbolAt 4095 1) (symbolAt 4096 1) := by
  have hbytes : ([0, 0x61] : List UInt8).length < 2 ^ 64 := by decide
  have htwo : (symbolAt 4094 2).Valid := symbolAt_valid (by decide)
  have hlast : (symbolAt 4095 1).Valid := symbolAt_valid (by decide)
  have hnext : (symbolAt 4096 1).Valid := symbolAt_valid (by decide)
  obtain ⟨hcompare, hcompareBytes, -⟩ := contents_decide_iff htwo hlast hbytes
  obtain ⟨-, -, hhash⟩ := contents_decide_iff hlast hnext hbytes
  refine ⟨hcompare.2 ?_, hcompareBytes.2 ?_, (hhash (by decide)).2 ⟨.inr (by decide), .inr (by decide), ?_⟩⟩
  · exact comparable_of_inFirst (by decide) (by decide) (.inr (by decide)) (.inr (by decide))
  · exact comparable_of_inFirst (by decide) (by decide) (.inr (by decide)) (by decide : 2 ≤ 2)
  · decide +kernel

/-- A symbol `a` behind the first fragment is not equal to a C array `a`: what is compared is the guard. And
`aa` over the end of a fragment does not have the hash of a C array `aa`. -/
theorem not_compareHolds_second :
    ((symbolAt 4096 1).contents = [0x61] ∧ Variable.compare (symbolAt 4096 1) (.ofData [0x61]) = .ok 1 ∧
      ¬ CompareHolds (symbolAt 4096 1) (.ofData [0x61])) ∧
    (symbolAt 4095 2).contents = [0x61, 0x61] ∧ (symbolAt 4095 2).hashed = [0x61, 0xca] ∧
      ¬ HashHolds (symbolAt 4095 2) (.ofData [0x61, 0x61]) := by
  have hcontents : (symbolAt 4096 1).contents = [0x61] := by decide +kernel
  have hcompare : Variable.compare (symbolAt 4096 1) (.ofData [0x61]) = .ok 1 := by
    rfl
  have hhashed : (symbolAt 4095 2).hashed = [0x61, 0xca] := by decide +kernel
  refine ⟨⟨hcontents, hcompare, fun h => ?_⟩, by decide +kernel, hhashed, fun h => ?_⟩
  · obtain ⟨rc, hrc, -, hzero, -⟩ := h
    rw [hcompare] at hrc
    cases hrc
    exact absurd (hzero.2 hcontents) (by decide)
  · obtain ⟨-, -, heq⟩ := (hashHolds_iff (symbolAt_valid (by decide))
      (show (Variable.ofData [0x61, 0x61]).Valid from (by decide : ([0x61, 0x61] : List UInt8).length < 2 ^ 64))).1 h
    rw [hhashed] at heq
    exact absurd heq (by decide +kernel)

end Amqp
