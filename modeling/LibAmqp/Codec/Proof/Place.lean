import LibAmqp.Buffer.Proof.Write
import LibAmqp.Codec.Proof.Calls

/-!
# Where a value goes

A `Place` is where the next value goes: outside of any container, or into the innermost one. It says
whether a constructor is due, whether there is room for a member, and which format code an array has.

* `Draft.place_any`: a new type where it belongs.
* `Draft.leaf_any`, `Draft.leaf_refused`: a call without elements, whatever room there is.
* `Leaf.draft_eq`: every call for a single value is one of these.
-/

namespace Amqp

open Lib Memory Buffer

/-- Outside of any container, or in the innermost one. -/
abbrev Place := Option (Frame × DraftType)

namespace Place

def isArray (w : Place) : Bool := w.elim false fun x => x.2.test Amqp.isArray

def count (w : Place) : Nat := w.elim 0 fun x => x.2.members.length

/-- Only the first element of an array writes its constructor. -/
def due (w : Place) : Bool := !w.isArray || w.count == 0

/-- A described type that has its two members. -/
def full (w : Place) : Bool := w.elim false fun x => x.2.test isComposite && 2 ≤ x.2.members.length

/-- The bytes of a value at a place. -/
def bytes (w : Place) (p : Part) : List UInt8 := (if w.due then [p.code] else []) ++ p.body

end Place

/-- The place of a draft. -/
inductive Draft.At (d : Draft) : Place → Prop
  | outside (hst : d.stack = []) : d.At none
  | inside {F : Frame} {rest : List Frame} {r : DraftType} (hst : d.stack = F :: rest)
      (hr : d.types[F.id]? = some r) : d.At (some (F, r))

namespace Draft

/-- An array with elements knows the one that has its constructor. -/
def Knows (d : Draft) (w : Place) : Prop :=
  ∀ F r, w = some (F, r) → r.test isArray = true → r.members ≠ [] →
    ∃ f, r.first = some f ∧ f < d.types.length

/-- The format code of the elements of an array. -/
def firstCode (d : Draft) (r : DraftType) : Option UInt8 :=
  (r.first.bind (d.types[·]?)).map DraftType.code

/-- A value of this format code does not go with the other elements. -/
def clash (d : Draft) (w : Place) (code : UInt8) : Bool :=
  w.elim false fun x => x.2.test isArray && !x.2.members.isEmpty && d.firstCode x.2 != some code

end Draft

namespace DraftType

/-- A new type, with its constructor. -/
def fresh (extra : TypedefFlags) (m : EncodingMetaData) : DraftType :=
  ⟨m, m.typedefFlags ||| isEncoded ||| extra, m.formatCode, none, [], none⟩

def clashed (r : DraftType) (clash : Bool) : DraftType :=
  if clash then r.markInvalid .arrayElementTypeIncorrect else r

/-- A container, before the type `id` is one of its members. -/
def entered (r : DraftType) (id : Nat) (clash : Bool) : DraftType :=
  { r.clashed clash with first := if r.test isArray && r.members.isEmpty then some id else r.first }

/-- A container that took the type `id`. -/
def took (r : DraftType) (id : Nat) (clash : Bool) : DraftType :=
  { r.entered id clash with members := r.members ++ [id] }

variable {r : DraftType} {id : Nat} {clash : Bool}

theorem clashed_metaData : (r.clashed clash).metaData = r.metaData := by
  cases clash <;> rfl

theorem clashed_code : (r.clashed clash).code = r.code := by
  cases clash <;> rfl

theorem clashed_members : (r.clashed clash).members = r.members := by
  cases clash <;> rfl

theorem clashed_test {mask : TypedefFlags} (h : isInvalid &&& mask = 0#32) :
    (r.clashed clash).test mask = r.test mask := by
  cases clash with
  | false => rfl
  | true => exact r.test_setFlags h

theorem clashed_invalid : (r.clashed clash).test isInvalid = (r.test isInvalid || clash) := by
  cases clash with
  | false => rw [Bool.or_false]; rfl
  | true =>
    rw [Bool.or_true]
    show ((r.flags ||| isInvalid) &&& isInvalid != 0#32) = true
    rw [BitVec.and_comm, bne_iff_ne]
    intro h
    have hbit := congrArg (BitVec.getLsbD · 25) h
    simp [isInvalid] at hbit

end DraftType

section
variable {d d' : Draft} {w : Place} {b : Buffer} {m : EncodingMetaData} {extra : TypedefFlags}

theorem Draft.At.inArray (h : d.At w) : d.inArray = .ok w.isArray := by
  cases h with
  | outside hst => rw [Draft.inArray, hst]; rfl
  | inside hst hr =>
    rw [Draft.inArray, hst]
    dsimp only
    rw [Draft.load_ok hr]
    rfl

theorem Draft.At.lt {F : Frame} {r : DraftType} (h : d.At (some (F, r))) : F.id < d.types.length := by
  cases h with
  | inside hst hr => exact (List.getElem?_eq_some_iff.1 hr).1

theorem Draft.make_old {i : Nat} (h : i < d.types.length) :
    (d.make extra m).types[i]? = d.types[i]? := List.getElem?_append_left h

/-! ## A new type -/

/-- From `d` to `d1`, the types `i` and `j` became `ri` and `rj`. -/
structure Entered (d d1 : Draft) (i j : Nat) (ri rj : DraftType) : Prop where
  stack : d1.stack = d.stack
  usage : d1.continueOnUsageError = d.continueOnUsageError
  length : d1.types.length = d.types.length
  container : d1.types[i]? = some ri
  element : d1.types[j]? = some rj
  others : ∀ k, k ≠ i → k ≠ j → d1.types[k]? = d.types[k]?

/-- A new type in a container, up to `amqp_add_element_to_container`. -/
theorem Draft.enterContainer_eq {F : Frame} {r rn : DraftType} {j : Nat}
    (hr : d.types[F.id]? = some r) (hj : d.types[j]? = some rn) (hn : rn.code = m.formatCode)
    (hjF : j ≠ F.id) (hknows : d.Knows (some (F, r))) (hroom : b.size < b.capacity) :
    ∃ (d1 : Draft) (b1 : Buffer),
      d.enterContainer b m F.id j = (do .ok (← d1.addElement F.id j, b1)) ∧
      Appends b b1 (if Place.due (some (F, r)) then [m.formatCode] else []) ∧
      Entered d d1 F.id j (r.entered j (d.clash (some (F, r)) m.formatCode))
        (rn.clashed (d.clash (some (F, r)) m.formatCode)) := by
  obtain ⟨b', hb', hw⟩ := putc_writes m.formatCode hroom
  unfold Draft.enterContainer
  rw [Draft.load_ok hr, Fault.ok_bind]
  cases ha : r.test isArray with
  | false =>
    have hclash : d.clash (some (F, r)) m.formatCode = false := by simp [Draft.clash, ha]
    rw [if_pos (by rfl), emitConstructor, hb', Fault.ok_bind, hclash]
    refine ⟨d, b', rfl, ?_, rfl, rfl, rfl, ?_, hj, fun _ _ _ => rfl⟩
    · simpa [Place.due, Place.isArray, ha] using hw.appends
    · rw [hr]
      simp [DraftType.entered, DraftType.clashed, ha]
  | true =>
    rw [if_neg (by simp)]
    by_cases hm : r.members = []
    · have hclash : d.clash (some (F, r)) m.formatCode = false := by simp [Draft.clash, hm]
      rw [if_pos (by simp [hm]), emitConstructor, hb', Fault.ok_bind, hclash]
      refine ⟨_, b', rfl, ?_, rfl, rfl, by simp [Draft.modify], ?_, ?_, fun k hk _ => ?_⟩
      · simpa [Place.due, Place.count, hm] using hw.appends
      · rw [Draft.modify_self hr]
        simp [DraftType.entered, DraftType.clashed, ha, hm]
      · rw [Draft.modify_ne _ hjF, hj]
        rfl
      · exact Draft.modify_ne _ hk
    · obtain ⟨f, hf, hlt⟩ := hknows F r rfl ha hm
      have hrf := List.getElem?_eq_getElem hlt
      have hdue : Appends b b (if Place.due (some (F, r)) then [m.formatCode] else []) := by
        simpa [Place.due, Place.isArray, Place.count, ha, hm] using Appends.refl b
      have hclash : d.clash (some (F, r)) m.formatCode = (d.types[f].code != m.formatCode) := by
        simp only [Draft.clash, Option.elim_some, ha, Draft.firstCode, hf, Option.bind_some, hrf,
          Option.map_some, Bool.true_and]
        cases hmem : r.members with
        | nil => exact absurd hmem hm
        | cons x xs => cases hc : d.types[f].code != m.formatCode <;> simp_all
      rw [if_neg (by simpa using hm), hf]
      dsimp only
      rw [Draft.load_ok hrf, Fault.ok_bind, Draft.load_ok hj, Fault.ok_bind, hn, hclash]
      have hentered : ∀ c, r.entered j c = r.clashed c := by
        intro c
        cases c <;> simp [DraftType.entered, DraftType.clashed, DraftType.markInvalid,
          DraftType.setFlags, hm]
      rw [hentered]
      split
      · rename_i hcode
        rw [show (d.types[f].code != m.formatCode) = false by simpa using hcode]
        exact ⟨d, b, rfl, hdue, rfl, rfl, rfl, hr, hj, fun _ _ _ => rfl⟩
      · rename_i hcode
        rw [show (d.types[f].code != m.formatCode) = true by simpa using hcode]
        refine ⟨_, b, rfl, hdue, rfl, rfl, by simp [Draft.modify], ?_, ?_, fun k hk hkj => ?_⟩
        · exact Draft.modify_self (by rw [Draft.modify_ne _ hjF.symm, hr])
        · rw [Draft.modify_ne _ hjF]
          exact Draft.modify_self hj
        · rw [Draft.modify_ne _ hk, Draft.modify_ne _ hkj]

/-- From `d` to `d'` a new type was made, out of `r0`, and went where it belongs. -/
structure Enters (d d' : Draft) (w : Place) (r0 : DraftType) : Prop where
  stack : d'.stack = d.stack
  usage : d'.continueOnUsageError = d.continueOnUsageError
  length : d'.types.length = d.types.length + 1
  others : ∀ i < d.types.length, (∀ F r, w = some (F, r) → i ≠ F.id) → d'.types[i]? = d.types[i]?
  top : ∀ F r, w = some (F, r) →
    d'.types[F.id]? = some (r.took d.types.length (d.clash w r0.code))
  new : ∃ role, IsRole role ∧
    d'.types[d.types.length]? = some ((r0.clashed (d.clash w r0.code)).setFlags role)

theorem DraftType.roleIn_isRole (r : DraftType) : IsRole r.roleIn := by
  unfold roleIn
  split
  · split <;> decide
  · decide

theorem DraftType.setFlags_zero (r : DraftType) : r.setFlags 0#32 = r := by
  simp [setFlags]

/-- A new type changes no format code that an array knows. -/
theorem Draft.Knows.clash_make (h : d.Knows w) (code : UInt8) :
    (d.make extra m).clash w code = d.clash w code := by
  cases w with
  | none => rfl
  | some x =>
    obtain ⟨F, r⟩ := x
    simp only [Draft.clash, Option.elim_some]
    cases ha : r.test isArray with
    | false => rfl
    | true =>
      by_cases hm : r.members = []
      · simp [hm]
      · obtain ⟨f, hf, hlt⟩ := h F r rfl ha hm
        simp only [Draft.firstCode, hf, Option.bind_some, Draft.make_old hlt]

/-- A new type: where it is the third member of a described type the process ends. -/
theorem Draft.place_any (extra : TypedefFlags) (m : EncodingMetaData) (hat : d.At w)
    (hknows : d.Knows w) (hroom : b.size < b.capacity) :
    (w.full = true ∧ d.place b extra m = .error .abort) ∨
    (w.full = false ∧ ∃ d' b', d.place b extra m = .ok (d', b') ∧
      Appends b b' (if w.due then [m.formatCode] else []) ∧
      Enters d d' w (DraftType.fresh extra m)) := by
  have hnew : (d.make extra m).types[d.types.length]? = some (DraftType.fresh extra m) := by
    simp [Draft.make, DraftType.fresh]
  have hmlen : (d.make extra m).types.length = d.types.length + 1 := by simp [Draft.make]
  cases hat with
  | outside hst =>
    obtain ⟨b', hb', hw⟩ := putc_writes m.formatCode hroom
    refine .inr ⟨rfl, d.make extra m, b', ?_, hw.appends, rfl, rfl, hmlen,
      fun i hi _ => Draft.make_old hi, fun F r h => (by cases h), 0, by decide, ?_⟩
    · rw [Draft.place, hst]
      dsimp only
      rw [emitConstructor, hb', Fault.ok_bind]
    · rw [hnew]
      exact congrArg some (DraftType.setFlags_zero _).symm
  | @inside F rest r hst hr =>
    have hlt : F.id < d.types.length := (List.getElem?_eq_some_iff.1 hr).1
    have hne : d.types.length ≠ F.id := by omega
    have hknows' : (d.make extra m).Knows (some (F, r)) := by
      intro G rG hG ha hm
      obtain ⟨f, hf, hflt⟩ := hknows G rG hG ha hm
      exact ⟨f, hf, by omega⟩
    obtain ⟨d1, b1, hcall, hw, he⟩ := Draft.enterContainer_eq (b := b) (m := m)
      (by rw [Draft.make_old hlt, hr]) hnew rfl hne hknows' hroom
    rw [hknows.clash_make] at he
    have hplace : d.place b extra m =
        (do .ok (← d1.addElement F.id d.types.length, b1)) := by
      rw [Draft.place, hst]
      exact hcall
    have hcomp : (r.entered d.types.length (d.clash (some (F, r)) m.formatCode)).test isComposite =
        r.test isComposite := DraftType.clashed_test (by decide)
    have hmem : (r.entered d.types.length (d.clash (some (F, r)) m.formatCode)).members = r.members :=
      DraftType.clashed_members
    rw [hplace, Draft.addElement_eq he.container, hcomp, hmem]
    by_cases hfull : r.test isComposite = true ∧ 2 ≤ r.members.length
    · refine .inl ⟨by simp [Place.full, hfull.1, hfull.2], ?_⟩
      rw [if_pos hfull]
      rfl
    · refine .inr ⟨?_, ?_⟩
      · simp only [Place.full, Option.elim_some, Bool.and_eq_false_iff, decide_eq_false_iff_not]
        by_cases hc : r.test isComposite = true
        · exact .inr fun h2 => hfull ⟨hc, h2⟩
        · exact .inl (by simpa using hc)
      · rw [if_neg hfull]
        refine ⟨_, b1, rfl, hw, he.stack, he.usage, ?_, fun i hi hi' => ?_, ?_,
          (r.entered d.types.length (d.clash (some (F, r)) m.formatCode)).roleIn,
          DraftType.roleIn_isRole _, ?_⟩
        · rw [← hmlen, ← he.length]
          simp [Draft.modify]
        · rw [Draft.modify_ne _ (hi' F r rfl), Draft.modify_ne _ (by omega), he.others i (hi' F r rfl)
            (by omega), Draft.make_old hi]
        · rintro G rG ⟨⟩
          rw [Draft.modify_self (by rw [Draft.modify_ne _ hne.symm, he.container])]
          simp only [DraftType.took, hmem]
          rfl
        · rw [Draft.modify_ne _ hne, Draft.modify_self he.element]
          rfl

/-! ## Calls without elements -/

/-- The payload has the width of its type, where that is fixed. -/
def Sized (m : EncodingMetaData) (payload : List UInt8) : Prop :=
  m.kind ≠ .variableWidth → payload.length = m.width

theorem Sized.number {m : EncodingMetaData} (n v : Nat) (hw : n = m.width) :
    Sized m (toBigEndian n v) := fun _ => by rw [length_toBigEndian, hw]

theorem Scalar.sized (inArray : Bool) (v : Scalar) :
    Sized (v.encoding inArray).1 (v.encoding inArray).2 := by
  cases v with
  | null => exact fun _ => rfl
  | boolean v =>
    simp only [Scalar.encoding]
    split
    · exact fun _ => rfl
    · split <;> exact fun _ => rfl
  | ubyte v | byte v | ushort v | short v | timestamp v | float v | double v => exact .number _ _ rfl
  | uint v | ulong v =>
    simp only [Scalar.encoding]
    split
    · exact fun _ => rfl
    split <;> exact .number _ _ rfl
  | int v | long v =>
    simp only [Scalar.encoding]
    split <;> exact .number _ _ rfl
  | uuid v => exact fun _ => v.length_toList
  | binary v | string v | symbol v =>
    simp only [Scalar.encoding]
    split <;> exact fun h => absurd rfl h

theorem Leaf.sized (inArray : Bool) (l : Leaf) :
    Sized (l.encoding inArray).1 (l.encoding inArray).2 := by
  cases l with
  | scalar v => exact v.sized inArray
  | uint0 | ulong0 => exact fun _ => rfl
  | smallUint v | smallInt v | smallUlong v | smallLong v => exact .number _ _ rfl
  | binaryVbin8 v | binaryVbin32 v | symbolSym8 v | symbolSym32 v => exact fun h => absurd rfl h

theorem Leaf.encoding_mem (inArray : Bool) (l : Leaf) :
    (l.encoding inArray).1 ∈ typeLookupTable.toList := by
  cases l with
  | scalar v => exact v.encoding_mem inArray
  | uint0 | ulong0 | smallUint | smallInt | smallUlong | smallLong | binaryVbin8 | binaryVbin32
  | symbolSym8 | symbolSym32 =>
    simp only [Leaf.encoding]
    decide

theorem writeSizeField_writes {width n : Nat} (hw : width = 1 ∨ width = 4)
    (h : b.size + width ≤ b.capacity) :
    ∃ b', writeSizeField b width n = .ok b' ∧ Writes b b' (toBigEndian width n) := by
  rcases hw with rfl | rfl
  · exact uncheckedPutc_writes _ (by omega)
  · exact hton_writes 4 n (by omega)

/-- `amqp_buffer_puts`: bytes that would fill the buffer up are not written. -/
theorem puts_any {xs : List UInt8} (h : b.size + xs.length ≤ b.capacity) :
    ∃ b', b.puts xs = .ok b' ∧
      if !xs.isEmpty && b.size + xs.length == b.capacity then b' = b else Appends b b' xs := by
  by_cases hlt : b.size + xs.length < b.capacity
  · obtain ⟨b', hb', hw⟩ := puts_writes xs hlt
    refine ⟨b', hb', ?_⟩
    rw [if_neg (by simp; omega)]
    exact hw.appends
  · refine ⟨b, by rw [Buffer.puts, if_pos (by omega)], ?_⟩
    cases xs with
    | nil => exact .refl b
    | cons x xs =>
      rw [if_pos (by simp only [List.isEmpty_cons, Bool.not_false, Bool.true_and, beq_iff_eq]; omega)]

/-- The payload is copied by `amqp_buffer_puts`, and fills the buffer up. -/
def fills (m : EncodingMetaData) (payload : List UInt8) (due : Bool) (b : Buffer) : Bool :=
  ((m.kind = .variableWidth || m.width = 16) && !payload.isEmpty) && due &&
    b.size + 1 + (leafBody m payload).length == b.capacity

/-- A call that finds no room. -/
theorem Draft.leaf_refused {payload : List UInt8} (hs : Sized m payload)
    (hno : ¬ b.size + 1 + (leafBody m payload).length ≤ b.capacity) :
    d.leaf b m payload = .ok (none, d, b) := by
  unfold leafBody at hno
  unfold Draft.leaf
  by_cases hk : m.kind = .variableWidth
  · rw [if_pos hk, List.length_append, length_toBigEndian] at hno
    rw [if_pos hk, Draft.variableWidth, if_pos]
    simp only [Buffer.checkFreeSpace, Bool.not_eq_true', decide_eq_false_iff_not]
    omega
  · rw [if_neg hk] at hno
    have := hs hk
    rw [if_neg hk, Draft.fixed, Draft.encodeFixed, if_pos]
    · rfl
    · simp only [Buffer.checkFreeSpace, Bool.not_eq_true', decide_eq_false_iff_not]
      omega

/-- The payload of a type, and its size if that varies. -/
def writeBody (b : Buffer) (m : EncodingMetaData) (payload : List UInt8) : Except Fault Buffer :=
  if m.kind = .variableWidth then writeSizeField b m.width payload.length >>= (·.puts payload)
  else if m.width = 16 then b.puts payload
  else b.uncheckedWrite payload

theorem writeBody_any {payload : List UInt8} (hmem : m ∈ typeLookupTable.toList) (hs : Sized m payload)
    (hroom : b.size + (leafBody m payload).length ≤ b.capacity) :
    ∃ b', writeBody b m payload = .ok b' ∧
      if ((m.kind = .variableWidth || m.width = 16) && !payload.isEmpty) &&
          b.size + (leafBody m payload).length == b.capacity
      then b'.size < b.size + (leafBody m payload).length
      else Appends b b' (leafBody m payload) := by
  unfold writeBody
  unfold leafBody at hroom ⊢
  by_cases hk : m.kind = .variableWidth
  · simp only [if_pos hk, List.length_append, length_toBigEndian] at hroom ⊢
    obtain ⟨b1, hb1, hw1⟩ := writeSizeField_writes (b := b) (n := payload.length)
      (field_width hmem (.inl hk)) (by omega)
    have hsize := hw1.size
    have hcap := hw1.capacity
    rw [length_toBigEndian] at hsize
    have hfit1 : b1.size + payload.length ≤ b1.capacity := by omega
    obtain ⟨b2, hb2, hw2⟩ := puts_any hfit1
    rw [hb1, Fault.ok_bind, hb2]
    refine ⟨b2, rfl, ?_⟩
    rw [hcap, hsize, Nat.add_assoc] at hw2
    simp only [hk, decide_true, Bool.true_or, Bool.true_and]
    split
    · rename_i htight
      rw [if_pos htight] at hw2
      rw [hw2, hsize]
      have hne : payload ≠ [] := by
        rintro rfl
        simp at htight
      have := List.length_pos_iff.2 hne
      omega
    · rename_i htight
      rw [if_neg htight] at hw2
      exact hw1.appends.trans hw2
  · simp only [if_neg hk] at hroom ⊢
    by_cases h16 : m.width = 16
    · obtain ⟨b1, hb1, hw1⟩ := puts_any hroom
      rw [if_pos h16]
      refine ⟨b1, hb1, ?_⟩
      simp only [h16, decide_true, Bool.or_true, Bool.true_and]
      split
      · rename_i htight
        rw [if_pos htight] at hw1
        rw [hw1]
        have := hs hk
        omega
      · rename_i htight
        rw [if_neg htight] at hw1
        exact hw1
    · obtain ⟨b1, hb1, hw1⟩ := uncheckedWrite_writes payload hroom
      rw [if_neg h16]
      refine ⟨b1, hb1, ?_⟩
      rw [if_neg (by simp [hk, h16])]
      exact hw1.appends

/-- A call that finds room is the place of the type and its body. -/
theorem Draft.leaf_eq {payload : List UInt8} (hs : Sized m payload)
    (hfits : b.size + 1 + (leafBody m payload).length ≤ b.capacity) :
    d.leaf b m payload = (do
      let (d', b) ← d.place b 0 m
      .ok (some d.types.length, d', ← writeBody b m payload)) := by
  have hcheck : ∀ n, n ≤ (leafBody m payload).length + 1 → (!b.checkFreeSpace n) = false := by
    intro n hn
    simp only [Buffer.checkFreeSpace, Bool.not_eq_false', decide_eq_true_eq]
    omega
  unfold Draft.leaf
  by_cases hk : m.kind = .variableWidth
  · rw [if_pos hk, Draft.variableWidth, hcheck, if_neg (by decide)]
    · simp only [writeBody, if_pos hk, bind_assoc]
    · rw [leafBody, if_pos hk, List.length_append, length_toBigEndian]
      omega
  · rw [if_neg hk, Draft.fixed, Draft.thenWrite, Draft.encodeFixed, hcheck, if_neg (by decide)]
    · simp only [writeBody, if_neg hk]
      cases d.place b 0 m <;> rfl
    · rw [leafBody, if_neg hk, hs hk]

/-- It writes the value, all but a payload that fills the buffer up. -/
theorem Draft.leaf_any {payload : List UInt8} (hat : d.At w) (hknows : d.Knows w)
    (hmem : m ∈ typeLookupTable.toList) (hs : Sized m payload)
    (hfits : b.size + 1 + (leafBody m payload).length ≤ b.capacity) :
    (w.full = true ∧ d.leaf b m payload = .error .abort) ∨
    (w.full = false ∧ ∃ d' b', d.leaf b m payload = .ok (some d.types.length, d', b') ∧
      Enters d d' w (DraftType.fresh 0 m) ∧
      if fills m payload w.due b
      then b'.size < b.size + (w.bytes ⟨m.formatCode, leafBody m payload⟩).length
      else Appends b b' (w.bytes ⟨m.formatCode, leafBody m payload⟩)) := by
  rw [Draft.leaf_eq hs hfits]
  rcases Draft.place_any 0 m hat hknows (b := b) (by omega) with
    ⟨hfull, hplace⟩ | ⟨hfull, d', b1, hplace, hw1, henters⟩
  · refine .inl ⟨hfull, ?_⟩
    rw [hplace]
    rfl
  · refine .inr ⟨hfull, ?_⟩
    have hsize := hw1.size
    have hcap := hw1.capacity
    have hlen : (if w.due then [m.formatCode] else []).length = if w.due then 1 else 0 := by
      split <;> rfl
    rw [hlen] at hsize
    obtain ⟨b2, hb2, hw2⟩ := writeBody_any (b := b1) hmem hs (by split at hsize <;> omega)
    rw [hplace, Fault.ok_bind]
    dsimp only
    rw [hb2, Fault.ok_bind]
    refine ⟨d', b2, rfl, henters, ?_⟩
    have htight : fills m payload w.due b =
        (((m.kind = .variableWidth || m.width = 16) && !payload.isEmpty) &&
          b1.size + (leafBody m payload).length == b1.capacity) := by
      unfold fills
      rw [hcap, hsize]
      cases w.due with
      | true => simp
      | false =>
        have hne : b.size + (leafBody m payload).length ≠ b.capacity := by omega
        simp [hne]
    rw [htight, Place.bytes]
    split
    · rename_i h
      rw [if_pos h] at hw2
      rw [List.length_append, hlen]
      dsimp only
      omega
    · rename_i h
      rw [if_neg h] at hw2
      exact hw1.trans hw2

/-- What `amqp_encode_boolean` does with the type when there is none. -/
def Draft.orFault (r : Drafting) : Drafting := do
  let (result, d, b) ← r
  match result with
  | none => .error .wildPointer
  | some type => .ok (some type, d, b)

/-- The calls by what they write. -/
theorem Leaf.draft_eq (hat : d.At w) (l : Leaf) :
    l.draft d b =
      if l.isBoolean
      then Draft.orFault (d.leaf b (l.encoding w.isArray).1 (l.encoding w.isArray).2)
      else d.leaf b (l.encoding w.isArray).1 (l.encoding w.isArray).2 := by
  cases l with
  | scalar v =>
    cases v with
    | boolean v =>
      show d.boolean b (if v then 1 else 0) = Draft.orFault _
      unfold Draft.boolean
      rw [hat.inArray, Fault.ok_bind]
      simp only [Leaf.encoding, Scalar.encoding]
      cases w.isArray with
      | true =>
        simp only [if_true]
        rw [show [if v = true then 1 else 0] = toBigEndian 1 (if v = true then 1 else 0) by
          cases v <;> rfl, Draft.leaf_number (by decide) (by decide)]
        cases v <;> rfl
      | false =>
        simp only [Bool.false_eq_true, if_false]
        cases v <;> exact congrArg Draft.orFault (Draft.leaf_empty (by decide) (by decide)).symm
    | null | ubyte | byte | ushort | short | uint | int | ulong | long | timestamp | float | double
    | uuid | binary | string | symbol => rfl
  | uint0 | ulong0 | smallUint | smallInt | smallUlong | smallLong | binaryVbin8 | binaryVbin32
  | symbolSym8 | symbolSym32 => rfl

end

end Amqp
