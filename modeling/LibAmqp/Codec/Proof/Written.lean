import LibAmqp.Codec.Proof.Place

/-!
# What the encoder writes

On a draft, calls that match append the bytes that `Wire.lean` has for their values, and mark as
invalid what does not go with the first element of an array. They stop the process where a described
type would get a third member. The proof is by induction over the calls, from any place.

* `Leaf.draft_any`, `Former.draft_any`: one value.
* `CallTree.draft_any`: calls that match.
* `CallTree.encode_any`: the encoder itself, by lockstep.
* `Values.encode_writes`: values of the encodable format.
-/

namespace Amqp

open Lib Memory Buffer

/-- The place after it took the type `id`. -/
def Place.next (w : Place) (id : Nat) (clash : Bool) : Place :=
  w.map fun x => (x.1, x.2.took id clash)

/-- A described type stays below three members. -/
def Place.Takes (w : Place) (n : Nat) : Prop :=
  ∀ F r, w = some (F, r) → r.test isComposite = true → r.members.length + n ≤ 2

namespace Draft

/-- Every type made from `d` to `d'` is valid. -/
def NewValid (d d' : Draft) : Prop :=
  ∀ i r, d.types.length ≤ i → d'.types[i]? = some r → r.isValid = true

/-- The first type made from `d` to `d'` is valid if `ok`. -/
def FirstValid (d d' : Draft) (ok : Prop) : Prop :=
  ∃ r, d'.types[d.types.length]? = some r ∧ (r.isValid = true ↔ ok)

/-- The types made from `d` to `d'`. -/
def newTypes (d d' : Draft) : List (Option Nat) :=
  (List.range' d.types.length (d'.types.length - d.types.length)).map some

/-- Values of these parts go with each other and with what is in the array. -/
def Agree (d : Draft) (w : Place) (parts : List Part) : Prop :=
  ∀ F r, w = some (F, r) → r.test isArray = true →
    ∃ code, (∀ p ∈ parts, p.code = code) ∧ (r.members ≠ [] → d.firstCode r = some code)

end Draft

/-- From `d` to `d'` a value of this format code was written; it is the first of the new types, which
are valid if `ok` and if it goes with the other elements. -/
structure Took (d d' : Draft) (w : Place) (code : UInt8) (ok : Prop) : Prop where
  stack : d'.stack = d.stack
  usage : d'.continueOnUsageError = d.continueOnUsageError
  length : d.types.length < d'.types.length
  others : ∀ i < d.types.length, (∀ F r, w = some (F, r) → i ≠ F.id) → d'.types[i]? = d.types[i]?
  top : ∀ F r, w = some (F, r) → d'.types[F.id]? = some (r.took d.types.length (d.clash w code))
  made : ∃ r, d'.types[d.types.length]? = some r ∧ r.code = code
  valid : d.NewValid d' ↔ ok ∧ d.clash w code = false

/-- A container with other members, marked if `bad`. -/
structure Marked (r r' : DraftType) (bad : Prop) : Prop where
  metaData : r'.metaData = r.metaData
  code : r'.code = r.code
  test : ∀ mask, isInvalid &&& mask = 0#32 → r'.test mask = r.test mask
  invalid : r'.test isInvalid = true ↔ r.test isInvalid = true ∨ bad

/-- From `d` to `d'`, values of these parts were written. -/
structure TookAll (d d' : Draft) (w : Place) (parts : List Part) (ok : Prop) : Prop where
  stack : d'.stack = d.stack
  usage : d'.continueOnUsageError = d.continueOnUsageError
  length : d.types.length ≤ d'.types.length
  others : ∀ i < d.types.length, (∀ F r, w = some (F, r) → i ≠ F.id) → d'.types[i]? = d.types[i]?
  top : ∀ F r, w = some (F, r) → ∃ r', d'.types[F.id]? = some r' ∧
    r'.members.length = r.members.length + parts.length ∧ Marked r r' (¬ d.Agree w parts)
  valid : d.NewValid d' ↔ ok ∧ d.Agree w parts

theorem DraftType.test_or (r : DraftType) (f g : TypedefFlags) :
    r.test (f ||| g) = (r.test f || r.test g) := by
  simp only [test]
  have hand : r.flags &&& (f ||| g) = (r.flags &&& f) ||| (r.flags &&& g) := by
    refine BitVec.eq_of_getLsbD_eq fun i hi => ?_
    simp only [BitVec.getLsbD_and, BitVec.getLsbD_or, Bool.and_or_distrib_left]
  rw [hand]
  by_cases hf : r.flags &&& f = 0#32
  · rw [hf, BitVec.zero_or]
    simp
  · have hne : (r.flags &&& f) ||| (r.flags &&& g) ≠ 0#32 := by
      intro h
      refine hf (BitVec.eq_of_getLsbD_eq fun i hi => ?_)
      have hbit := congrArg (BitVec.getLsbD · i) h
      simp only [BitVec.getLsbD_or, BitVec.getLsbD_zero, Bool.or_eq_false_iff] at hbit
      rw [hbit.1, BitVec.getLsbD_zero]
    rw [bne_iff_ne.2 hne, bne_iff_ne.2 hf, Bool.true_or]

theorem DraftType.isValid_iff (r : DraftType) :
    r.isValid = true ↔ r.test isInvalid = false ∧ r.test isIncomplete = false := by
  rw [isValid, test_or, Bool.not_eq_true', Bool.or_eq_false_iff]

theorem and_or_zero {f g mask : TypedefFlags} (h : mask &&& (f ||| g) = 0#32) :
    mask &&& f = 0#32 ∧ g &&& mask = 0#32 := by
  constructor <;> refine BitVec.eq_of_getLsbD_eq fun i hi => ?_
  all_goals
    have hbit := congrArg (BitVec.getLsbD · i) h
    simp only [BitVec.getLsbD_and, BitVec.getLsbD_or, BitVec.getLsbD_zero] at hbit ⊢
    revert hbit
    cases mask.getLsbD i <;> cases f.getLsbD i <;> cases g.getLsbD i <;> simp

section
variable {d d' : Draft} {w : Place} {b : Buffer} {m : EncodingMetaData} {extra : TypedefFlags}

/-! ## One value after another -/

theorem Took.at {code : UInt8} {ok : Prop} (h : Took d d' w code ok) (hat : d.At w) :
    d'.At (w.next d.types.length (d.clash w code)) := by
  cases hat with
  | outside hst => exact .outside (h.stack.trans hst)
  | inside hst hr => exact .inside (h.stack.trans hst) (h.top _ _ rfl)

theorem DraftType.took_test {r : DraftType} {id : Nat} {clash : Bool} {mask : TypedefFlags}
    (h : isInvalid &&& mask = 0#32) : (r.took id clash).test mask = r.test mask :=
  clashed_test h

theorem Took.knows {code : UInt8} {ok : Prop} (h : Took d d' w code ok) (hknows : d.Knows w) :
    d'.Knows (w.next d.types.length (d.clash w code)) := by
  intro F r hw ha hm
  cases w with
  | none => cases hw
  | some x =>
    obtain ⟨G, rG⟩ := x
    cases hw
    have hlt := h.length
    rw [DraftType.took_test (by decide)] at ha
    by_cases hmem : rG.members = []
    · refine ⟨d.types.length, ?_, hlt⟩
      simp [DraftType.took, DraftType.entered, ha, hmem]
    · obtain ⟨f, hf, hflt⟩ := hknows G rG rfl ha hmem
      refine ⟨f, ?_, by omega⟩
      simp [DraftType.took, DraftType.entered, hmem, hf]

theorem Place.takes_cons (w : Place) (id n : Nat) (clash : Bool) :
    w.Takes (n + 1) ↔ w.full = false ∧ (w.next id clash).Takes n := by
  cases w with
  | none => exact ⟨fun _ => ⟨rfl, fun F r h => (nomatch h)⟩, fun _ F r h => (nomatch h)⟩
  | some x =>
    obtain ⟨F, r⟩ := x
    have hcomp : (r.took id clash).test isComposite = r.test isComposite :=
      DraftType.took_test (by decide)
    have hlen : (r.took id clash).members.length = r.members.length + 1 := by
      simp [DraftType.took]
    constructor
    · intro h
      have h1 := h F r rfl
      refine ⟨?_, ?_⟩
      · cases hc : r.test isComposite with
        | false => simp [Place.full, hc]
        | true =>
          have := h1 hc
          simp only [Place.full, Option.elim_some, hc, Bool.true_and, decide_eq_false_iff_not]
          omega
      · rintro _ _ ⟨⟩ hc
        rw [hcomp] at hc
        rw [hlen]
        have := h1 hc
        omega
    · rintro ⟨-, h⟩ _ _ ⟨⟩ hc
      have := h F (r.took id clash) rfl (by rw [hcomp, hc])
      rw [hlen] at this
      omega

/-- The format code of an array's elements, after one more. -/
theorem Took.firstCode {code : UInt8} {ok : Prop} {F : Frame} {r : DraftType}
    (h : Took d d' (some (F, r)) code ok) (hat : d.At (some (F, r))) (hknows : d.Knows (some (F, r)))
    (ha : r.test isArray = true) :
    d'.firstCode (r.took d.types.length (d.clash (some (F, r)) code)) =
      if r.members = [] then some code else d.firstCode r := by
  by_cases hm : r.members = []
  · obtain ⟨rn, hrn, hcn⟩ := h.made
    rw [if_pos hm]
    simp [Draft.firstCode, DraftType.took, DraftType.entered, ha, hm, hrn, hcn]
  · obtain ⟨f, hf, hlt⟩ := hknows F r rfl ha hm
    have hcode : (d'.types[f]?).map DraftType.code = (d.types[f]?).map DraftType.code := by
      by_cases hfF : f = F.id
      · -- the container itself: its format code stays
        subst hfF
        cases hat with
        | inside hst hr =>
          rw [h.top F r rfl, hr]
          exact congrArg some DraftType.clashed_code
      · rw [h.others f hlt (by rintro _ _ ⟨⟩; exact hfF)]
    rw [if_neg hm]
    simp only [Draft.firstCode, DraftType.took, DraftType.entered, ha, Bool.true_and, hf,
      Option.bind_some, List.isEmpty_iff, hm, if_false]
    exact hcode

theorem Took.agree_cons {p : Part} {ps : List Part} {ok : Prop} (h : Took d d' w p.code ok)
    (hat : d.At w) (hknows : d.Knows w) :
    d.Agree w (p :: ps) ↔ d.clash w p.code = false ∧
      d'.Agree (w.next d.types.length (d.clash w p.code)) ps := by
  cases w with
  | none => exact ⟨fun _ => ⟨rfl, fun F r h => (nomatch h)⟩, fun _ F r h => (nomatch h)⟩
  | some x =>
    obtain ⟨F, r⟩ := x
    have harr : (r.took d.types.length (d.clash (some (F, r)) p.code)).test isArray = r.test isArray :=
      DraftType.took_test (by decide)
    cases ha : r.test isArray with
    | false =>
      refine ⟨fun _ => ⟨by simp [Draft.clash, ha], ?_⟩, fun _ => ?_⟩
      · rintro _ _ ⟨⟩ hta
        rw [harr, ha] at hta
        cases hta
      · rintro _ _ ⟨⟩ hta
        rw [ha] at hta
        cases hta
    | true =>
      have hfirst := h.firstCode hat hknows ha
      have hmem : (r.took d.types.length (d.clash (some (F, r)) p.code)).members ≠ [] := by
        simp [DraftType.took]
      by_cases hm : r.members = []
      · rw [if_pos hm] at hfirst
        constructor
        · intro hag
          obtain ⟨code, hcode, -⟩ := hag F r rfl ha
          refine ⟨by simp [Draft.clash, hm], ?_⟩
          rintro _ _ ⟨⟩ -
          exact ⟨p.code, fun q hq => (hcode q (.tail _ hq)).trans (hcode p (.head _)).symm,
            fun _ => hfirst⟩
        · rintro ⟨-, hag⟩
          obtain ⟨code, hcode, hf⟩ := hag F _ rfl (harr.trans ha)
          obtain rfl : p.code = code := Option.some.inj (hfirst.symm.trans (hf hmem))
          rintro _ _ ⟨⟩ -
          refine ⟨p.code, fun q hq => ?_, fun hne => absurd hm hne⟩
          rcases List.mem_cons.1 hq with rfl | hq
          · rfl
          · exact hcode q hq
      · rw [if_neg hm] at hfirst
        have hclash : d.clash (some (F, r)) p.code = false ↔ d.firstCode r = some p.code := by
          simp [Draft.clash, ha, hm]
        rw [hclash]
        constructor
        · intro hag
          obtain ⟨code, hcode, hf⟩ := hag F r rfl ha
          obtain rfl := hcode p (.head _)
          refine ⟨hf hm, ?_⟩
          rintro _ _ ⟨⟩ -
          exact ⟨p.code, fun q hq => hcode q (.tail _ hq), fun _ => hfirst.trans (hf hm)⟩
        · rintro ⟨hf, hag⟩
          obtain ⟨code, hcode, hf'⟩ := hag F _ rfl (harr.trans ha)
          obtain rfl : p.code = code :=
            Option.some.inj (hf.symm.trans (hfirst.symm.trans (hf' hmem)))
          rintro _ _ ⟨⟩ -
          refine ⟨p.code, fun q hq => ?_, fun _ => hf⟩
          rcases List.mem_cons.1 hq with rfl | hq
          · rfl
          · exact hcode q hq

theorem Draft.newValid_trans {d1 : Draft} (hlen : d.types.length ≤ d1.types.length)
    (hkeep : ∀ i, d.types.length ≤ i → i < d1.types.length → d'.types[i]? = d1.types[i]?) :
    d.NewValid d' ↔ d.NewValid d1 ∧ d1.NewValid d' := by
  constructor
  · intro h
    refine ⟨fun i r hi hr => ?_, fun i r hi hr => h i r (by omega) hr⟩
    have hlt : i < d1.types.length := (List.getElem?_eq_some_iff.1 hr).1
    exact h i r hi (by rw [hkeep i hi hlt, hr])
  · rintro ⟨h1, h2⟩ i r hi hr
    by_cases hlt : i < d1.types.length
    · exact h1 i r hi (by rw [← hkeep i hi hlt, hr])
    · exact h2 i r (by omega) hr

theorem Draft.newTypes_trans (d d1 : Draft) (h1 : d.types.length ≤ d1.types.length)
    (h2 : d1.types.length ≤ d'.types.length) : d.newTypes d1 ++ d1.newTypes d' = d.newTypes d' := by
  simp only [newTypes, ← List.map_append]
  congr 1
  have hsplit : List.range' d.types.length (d1.types.length - d.types.length) ++
      List.range' (d.types.length + 1 * (d1.types.length - d.types.length))
        (d'.types.length - d1.types.length) = _ := List.range'_append
  rw [show d.types.length + 1 * (d1.types.length - d.types.length) = d1.types.length by omega] at hsplit
  rw [hsplit]
  congr 1
  omega

theorem TookAll.cons {p : Part} {ps : List Part} {ok ok' : Prop} {d1 : Draft}
    (h : Took d d1 w p.code ok)
    (h' : TookAll d1 d' (w.next d.types.length (d.clash w p.code)) ps ok') (hat : d.At w)
    (hknows : d.Knows w) : TookAll d d' w (p :: ps) (ok ∧ ok') := by
  have hlen := h.length
  have hlen' := h'.length
  have hnext : ∀ {i : Nat}, (∀ F r, w = some (F, r) → i ≠ F.id) →
      ∀ F r, w.next d.types.length (d.clash w p.code) = some (F, r) → i ≠ F.id := by
    intro i hne F r hw
    cases w with
    | none => cases hw
    | some x =>
      cases hw
      exact hne _ _ rfl
  refine ⟨h'.stack.trans h.stack, h'.usage.trans h.usage, by omega, fun i hi hne => ?_,
    fun F r hw => ?_, ?_⟩
  · rw [h'.others i (by omega) (hnext hne), h.others i hi hne]
  · subst hw
    obtain ⟨r', hr', hlen1, hmark⟩ := h'.top F (r.took d.types.length (d.clash (some (F, r)) p.code)) rfl
    refine ⟨r', hr', ?_, hmark.metaData.trans DraftType.clashed_metaData,
      hmark.code.trans DraftType.clashed_code,
      fun mask hmask => (hmark.test mask hmask).trans (DraftType.took_test hmask), ?_⟩
    · rw [hlen1]
      simp only [DraftType.took, List.length_append, List.length_cons, List.length_nil]
      omega
    · have hinv : (r.took d.types.length (d.clash (some (F, r)) p.code)).test isInvalid =
          (r.test isInvalid || d.clash (some (F, r)) p.code) := DraftType.clashed_invalid
      rw [hmark.invalid, hinv, Bool.or_eq_true, or_assoc, h.agree_cons hat hknows, not_and_or,
        Bool.not_eq_false]
  · have hkeep : ∀ i, d.types.length ≤ i → i < d1.types.length → d'.types[i]? = d1.types[i]? := by
      intro i hi hi1
      refine h'.others i hi1 (hnext ?_)
      rintro F r rfl
      have := hat.lt
      omega
    rw [Draft.newValid_trans (by omega) hkeep, h.valid, h'.valid, h.agree_cons hat hknows]
    exact ⟨fun h => ⟨⟨h.1.1, h.2.1⟩, h.1.2, h.2.2⟩, fun h => ⟨⟨h.1.1, h.2.1⟩, h.1.2, h.2.2⟩⟩

theorem TookAll.congr {parts : List Part} {ok ok' : Prop} (h : TookAll d d' w parts ok)
    (hok : ok ↔ ok') : TookAll d d' w parts ok' := propext hok ▸ h

theorem TookAll.nil (hat : d.At w) (hknows : d.Knows w) : TookAll d d w [] True := by
  have hagree : d.Agree w [] := by
    intro F r hw ha
    by_cases hm : r.members = []
    · exact ⟨0, fun p hp => (List.not_mem_nil hp).elim, fun h => absurd hm h⟩
    · obtain ⟨f, hf, hlt⟩ := hknows F r hw ha hm
      exact ⟨d.types[f].code, fun p hp => (List.not_mem_nil hp).elim, fun _ => by
        simp [Draft.firstCode, hf, hlt]⟩
  refine ⟨rfl, rfl, Nat.le_refl _, fun _ _ _ => rfl, fun F r hw => ?_, ?_⟩
  · subst hw
    cases hat with
    | inside hst hr =>
      exact ⟨r, hr, rfl, rfl, rfl, fun _ _ => rfl, (or_iff_left (not_not.2 hagree)).symm⟩
  · refine ⟨fun _ => ⟨trivial, hagree⟩, fun _ i r hi hr => ?_⟩
    have := (List.getElem?_eq_some_iff.1 hr).1
    omega

/-! ## Calls without elements -/

/-- Room for some bytes, and sixteen more. -/
def Room (b : Buffer) (n : Nat) : Prop := b.size + n + 16 ≤ b.capacity

theorem Room.le {b : Buffer} {n : Nat} (h : Room b n) : b.size + n ≤ b.capacity := by
  unfold Room at h
  omega

theorem Room.after {b b' : Buffer} {bytes : List UInt8} {n : Nat} (h : Room b (bytes.length + n))
    (hw : Appends b b' bytes) : Room b' n := by
  unfold Room at h ⊢
  rw [hw.size, hw.capacity]
  omega

theorem table_valid : ∀ m ∈ typeLookupTable.toList,
    m.typedefFlags &&& isInvalid = 0#32 ∧ m.typedefFlags &&& isIncomplete = 0#32 := by
  decide

/-- A new type that is no container. -/
theorem Enters.took (h : Enters d d' w (DraftType.fresh 0 m)) (hmem : m ∈ typeLookupTable.toList) :
    Took d d' w m.formatCode True := by
  have hlen := h.length
  obtain ⟨role, hrole, hnew⟩ := h.new
  refine ⟨h.stack, h.usage, by omega, h.others, h.top, ⟨_, hnew, DraftType.clashed_code⟩, ?_⟩
  obtain ⟨hinv, hinc⟩ := table_valid m hmem
  have hvalid : (((DraftType.fresh 0 m).clashed (d.clash w m.formatCode)).setFlags role).isValid =
      !d.clash w m.formatCode := by
    have h1 : (DraftType.fresh 0 m).test isInvalid = false := by
      show ((m.typedefFlags ||| isEncoded ||| 0) &&& isInvalid != 0#32) = false
      rw [or_and_of_disjoint (by decide), or_and_of_disjoint (by decide), hinv]
      rfl
    have h2 : (DraftType.fresh 0 m).test isIncomplete = false := by
      show ((m.typedefFlags ||| isEncoded ||| 0) &&& isIncomplete != 0#32) = false
      rw [or_and_of_disjoint (by decide), or_and_of_disjoint (by decide), hinc]
      rfl
    rw [DraftType.isValid, DraftType.test_or, DraftType.test_setFlags _ (hrole.disjoint (by decide)),
      DraftType.test_setFlags _ (hrole.disjoint (by decide)), DraftType.clashed_invalid,
      DraftType.clashed_test (by decide), h1, h2, Bool.false_or, Bool.or_false]
  constructor
  · intro hall
    have hv : (((DraftType.fresh 0 m).clashed (d.clash w m.formatCode)).setFlags role).isValid = true :=
      hall _ _ (Nat.le_refl _) hnew
    rw [hvalid] at hv
    exact ⟨trivial, by simpa using hv⟩
  · rintro ⟨-, hclash⟩ i r hi hr
    have hlt := (List.getElem?_eq_some_iff.1 hr).1
    obtain rfl : i = d.types.length := by omega
    obtain rfl : _ = r := Option.some.inj (hnew.symm.trans hr)
    rw [DraftType.fresh] at hvalid ⊢
    rw [hvalid, hclash]
    rfl

theorem length_le_leafBody (m : EncodingMetaData) (payload : List UInt8) :
    payload.length ≤ (leafBody m payload).length := by
  unfold leafBody
  split
  · rw [List.length_append]
    exact Nat.le_add_left _ _
  · exact Nat.le_refl _

/-- A call for a single value, with room. -/
theorem Leaf.draft_any {l : Leaf} (hat : d.At w) (hknows : d.Knows w)
    (hroom : b.size + (w.bytes (l.part w.isArray)).length < b.capacity) :
    (w.full = true ∧ l.draft d b = .error .abort) ∨
    (w.full = false ∧ ∃ d' b', l.draft d b = .ok (some d.types.length, d', b') ∧
      d'.types.length = d.types.length + 1 ∧ Appends b b' (w.bytes (l.part w.isArray)) ∧
      Took d d' w (l.part w.isArray).code True) := by
  have hmem := l.encoding_mem w.isArray
  simp only [Place.bytes, Leaf.part, List.length_append] at hroom
  have hfills : fills (l.encoding w.isArray).1 (l.encoding w.isArray).2 w.due b = false := by
    unfold fills
    cases hdue : w.due with
    | false => rw [Bool.and_false, Bool.false_and]
    | true =>
      have hne : b.size + 1 + (leafBody (l.encoding w.isArray).1 (l.encoding w.isArray).2).length ≠
          b.capacity := by
        rw [hdue, if_pos rfl, List.length_singleton] at hroom
        omega
      simp [hne]
  rw [l.draft_eq hat]
  rcases Draft.leaf_any hat hknows hmem (l.sized w.isArray) (b := b) (by omega) with
    ⟨hfull, hcall⟩ | ⟨hfull, d', b', hcall, henters, hw⟩
  · refine .inl ⟨hfull, ?_⟩
    rw [hcall]
    split <;> rfl
  · refine .inr ⟨hfull, d', b', ?_, henters.length, ?_, henters.took hmem⟩
    · rw [hcall]
      split <;> rfl
    · rw [hfills, if_neg (by decide)] at hw
      exact hw

/-! ## Containers -/

/-- Values at a place, one after the other. -/
def Place.content (w : Place) (parts : List Part) : List UInt8 :=
  if w.isArray then if w.count = 0 then spelledArray parts else parts.flatMap Part.body
  else spelled parts

/-- The new container of a draft, open and empty. -/
structure Started (d d1 : Draft) (w : Place) (k : Former) (index : Nat) (r : DraftType) : Prop where
  stack : d1.stack = ⟨d.types.length, index⟩ :: d.stack
  usage : d1.continueOnUsageError = d.continueOnUsageError
  length : d1.types.length = d.types.length + 1
  others : ∀ i < d.types.length, (∀ F r, w = some (F, r) → i ≠ F.id) → d1.types[i]? = d.types[i]?
  top : ∀ F r, w = some (F, r) →
    d1.types[F.id]? = some (r.took d.types.length (d.clash w k.metaData.formatCode))
  new : d1.types[d.types.length]? = some r
  metaData : r.metaData = k.metaData
  code : r.code = k.metaData.formatCode
  members : r.members = []
  array : r.test isArray = k.isArray
  composite : r.test isComposite = decide (k = .described)
  list : r.test isList = k.isList
  invalid : r.test isInvalid = d.clash w k.metaData.formatCode

theorem Former.width (k : Former) : k.metaData.width = 0 ∨ k.metaData.width = 1 ∨
    k.metaData.width = 4 := by
  cases k <;> decide

theorem reserve_writes {width : Nat} (hw : width = 0 ∨ width = 1 ∨ width = 4)
    (hroom : b.size + 2 * width ≤ b.capacity) :
    ∃ b' old, Draft.reserve b width = .ok (b.size + width, b') ∧ Appends b b' old ∧
      old.length = 2 * width := by
  rcases hw with rfl | rfl | rfl
  · exact ⟨b, [], rfl, .refl b, rfl⟩
  · obtain ⟨b1, hb1, hw1⟩ := uncheckedPutc_writes (b := b) 1 (by omega)
    obtain ⟨b2, hb2, hw2⟩ := uncheckedPutc_writes (b := b1) 0 (by
      rw [hw1.size, hw1.capacity, List.length_singleton]
      omega)
    refine ⟨b2, _, ?_, (hw1.trans hw2).appends, rfl⟩
    rw [Draft.reserve, hb1, Fault.ok_bind, hb2, Fault.ok_bind, hw1.size]
    rfl
  · obtain ⟨b1, hb1, hw1⟩ := hton_writes (b := b) 4 4 (by omega)
    obtain ⟨b2, hb2, hw2⟩ := hton_writes (b := b1) 4 0 (by
      rw [hw1.size, hw1.capacity, length_toBigEndian]
      omega)
    refine ⟨b2, _, ?_, (hw1.trans hw2).appends, by simp⟩
    rw [Draft.reserve, hb1, Fault.ok_bind, hb2, Fault.ok_bind, hw1.size, length_toBigEndian]

/-- A call that starts a container, with room. -/
theorem Draft.compound_any {k : Former} (hat : d.At w) (hknows : d.Knows w)
    (hroom : b.size + (2 * k.metaData.width + 2) ≤ b.capacity) :
    (w.full = true ∧ d.compound b k.metaData.typedefFlags k.metaData = .error .abort) ∨
    (w.full = false ∧ ∃ d1 b1 index r old, d.compound b k.metaData.typedefFlags k.metaData =
        .ok (some d.types.length, d1, b1) ∧ Started d d1 w k index r ∧
      Appends b b1 ((if w.due then [k.metaData.formatCode] else []) ++ old) ∧
      old.length = 2 * k.metaData.width ∧
      index =
        b.size + (if w.due then [k.metaData.formatCode] else []).length + k.metaData.width) := by
  have hwidth := k.width
  have hcheck : ¬ (!b.checkFreeSpace (k.metaData.width * 2 + 2)) = true := by
    simp only [Buffer.checkFreeSpace, Bool.not_eq_true', decide_eq_false_iff_not, not_not]
    omega
  unfold Draft.compound
  rw [if_neg hcheck]
  rcases Draft.place_any k.metaData.typedefFlags k.metaData hat hknows (b := b) (by omega) with
    ⟨hfull, hplace⟩ | ⟨hfull, d0, b0, hplace, hw0, he⟩
  · refine .inl ⟨hfull, ?_⟩
    rw [hplace]
    rfl
  · refine .inr ⟨hfull, ?_⟩
    have hlen := he.length
    obtain ⟨role, hrole, hnew⟩ := he.new
    have hdue : (if w.due then [k.metaData.formatCode] else []).length ≤ 1 := by
      split <;> simp
    obtain ⟨b1, old, hres, hw1, hold⟩ := reserve_writes (b := b0) hwidth (by
      rw [hw0.size, hw0.capacity]
      omega)
    change d0.types[d.types.length]? = some (((DraftType.fresh k.metaData.typedefFlags
      k.metaData).clashed (d.clash w k.metaData.formatCode)).setFlags role) at hnew
    generalize hr : ((DraftType.fresh k.metaData.typedefFlags k.metaData).clashed
      (d.clash w k.metaData.formatCode)).setFlags role = r at hnew
    have htest : ∀ mask, mask &&& (roleMask ||| isInvalid) = 0#32 → isIncomplete &&& mask = 0#32 →
        (r.setFlags isIncomplete).test mask =
          ((k.metaData.typedefFlags ||| isEncoded ||| k.metaData.typedefFlags) &&& mask != 0#32) := by
      intro mask h1 h2
      obtain ⟨h3, h4⟩ := and_or_zero h1
      rw [r.test_setFlags h2, ← hr, DraftType.test_setFlags _ (hrole.disjoint h3),
        DraftType.clashed_test h4]
      rfl
    refine ⟨{ d0.modify d.types.length (·.setFlags isIncomplete) with
        stack := ⟨d.types.length, b0.size + k.metaData.width⟩ :: d0.stack }, b1,
      b0.size + k.metaData.width, r.setFlags isIncomplete, old, ?_, ⟨?_, he.usage, ?_,
        fun i hi hne => ?_, fun F rF hF => ?_, Draft.modify_self hnew, ?_, ?_, ?_, ?_, ?_, ?_, ?_⟩,
      hw0.trans hw1, hold, by rw [hw0.size]⟩
    · rw [hplace, Fault.ok_bind]
      dsimp only
      rw [hres, Fault.ok_bind]
      rfl
    · rw [he.stack]
    · simp [Draft.modify, hlen]
    · rw [← he.others i hi hne]
      exact Draft.modify_ne _ (by omega)
    · refine Eq.trans ?_ (he.top F rF hF)
      subst hF
      exact Draft.modify_ne _ (by have := hat.lt; omega)
    · rw [← hr]
      exact DraftType.clashed_metaData
    · rw [← hr]
      exact DraftType.clashed_code
    · rw [← hr]
      exact DraftType.clashed_members
    · rw [htest isArray (by decide) (by decide)]
      cases k <;> decide
    · rw [htest isComposite (by decide) (by decide)]
      cases k <;> decide
    · rw [htest isList (by decide) (by decide)]
      cases k <;> decide
    · have hnone : (DraftType.fresh k.metaData.typedefFlags k.metaData).test isInvalid = false := by
        cases k <;> decide
      rw [r.test_setFlags (by decide), ← hr, DraftType.test_setFlags _ (hrole.disjoint (by decide)),
        DraftType.clashed_invalid, hnone, Bool.false_or]

/-- The size and count of a container over the place that was kept for them. -/
theorem writeFields_writes {width index : Nat} (size count : Nat) (hw : width = 1 ∨ width = 4)
    (hindex : width ≤ index) (hroom : index + width ≤ b.capacity) :
    ∃ b', writeFields b width index size count = .ok b' ∧
      Writes (b.setWriteIndex (index - width)) b' (toBigEndian width size ++ toBigEndian width count) := by
  rcases hw with rfl | rfl
  · obtain ⟨b1, hb1, hw1⟩ := uncheckedPutc_writes (b := b.setWriteIndex (index - 1))
      (UInt8.ofNat (size % 256)) (by show index - 1 < b.capacity; omega)
    obtain ⟨b2, hb2, hw2⟩ := uncheckedPutc_writes (b := b1) (UInt8.ofNat (count % 256)) (by
      rw [hw1.size, hw1.capacity]
      show index - 1 + 1 < b.capacity
      omega)
    refine ⟨b2, ?_, hw1.trans hw2⟩
    rw [writeFields, hb1, Fault.ok_bind, hb2]
  · obtain ⟨b1, hb1, hw1⟩ := hton_writes (b := b.setWriteIndex (index - 4)) 4 size (by
      show index - 4 + 4 ≤ b.capacity
      omega)
    obtain ⟨b2, hb2, hw2⟩ := hton_writes (b := b1) 4 count (by
      rw [hw1.size, hw1.capacity, length_toBigEndian]
      show index - 4 + 4 + 4 ≤ b.capacity
      omega)
    refine ⟨b2, ?_, hw1.trans hw2⟩
    rw [writeFields, hb1, Fault.ok_bind, hb2]

/-- The parts go with each other in a new container. -/
theorem Started.agree_iff {k : Former} {index : Nat} {r : DraftType} {d1 : Draft} {parts : List Part}
    (hs : Started d d1 w k index r) :
    d1.Agree (some (⟨d.types.length, index⟩, r)) parts ↔
      (k.isArray = true → ∃ code, ∀ p ∈ parts, p.code = code) := by
  constructor
  · intro h ha
    obtain ⟨code, hcode, -⟩ := h _ r rfl (hs.array.trans ha)
    exact ⟨code, hcode⟩
  · rintro h _ _ ⟨⟩ ha
    obtain ⟨code, hcode⟩ := h (hs.array ▸ ha)
    exact ⟨code, hcode, fun hm => absurd hs.members hm⟩

/-- The draft that is left when its innermost container was completed. -/
theorem Started.took {k : Former} {index : Nat} {r : DraftType} {d1 d2 d3 : Draft} {parts : List Part}
    {ok : Prop} {g : DraftType → DraftType} (hs : Started d d1 w k index r) (code : UInt8)
    (hat : d.At w)
    (ht : TookAll d1 d2 (some (⟨d.types.length, index⟩, r)) parts ok)
    (h3 : d3 = { d2.modify d.types.length g with stack := d.stack })
    (hcode : ∀ r', r'.code = k.metaData.formatCode → (g r').code = code)
    (hclash : d.clash w k.metaData.formatCode = d.clash w code)
    (hg : ∀ r', (g r').isValid = (r'.clearFlags isIncomplete).isValid) :
    ∃ r2, r2.members.length = parts.length ∧ d2.types[d.types.length]? = some r2 ∧
      r2.metaData = k.metaData ∧ r2.test isList = k.isList ∧
      Took d d3 w code (ok ∧ (k.isArray = true → ∃ code, ∀ p ∈ parts, p.code = code)) ∧
      d.FirstValid d3
        (d.clash w code = false ∧ (k.isArray = true → ∃ code, ∀ p ∈ parts, p.code = code)) := by
  obtain ⟨r2, hr, hlen, hmark⟩ := ht.top _ _ rfl
  dsimp only at hr
  rw [hs.members, List.length_nil, Nat.zero_add] at hlen
  have hlt := hs.length
  have hlt' := ht.length
  have hlen3 : d3.types.length = d2.types.length := by
    rw [h3]
    exact List.length_modify ..
  have hkeep : ∀ i < d.types.length, d3.types[i]? = d1.types[i]? := by
    intro i hi
    rw [h3, ← ht.others i (by omega) (by rintro _ _ ⟨⟩; show i ≠ d.types.length; omega)]
    exact Draft.modify_ne _ (by omega)
  have hself : d3.types[d.types.length]? = some (g r2) := by
    rw [h3]
    exact Draft.modify_self hr
  -- the container itself
  have hvalid : (g r2).isValid = true ↔ d.clash w code = false ∧
      (k.isArray = true → ∃ code, ∀ p ∈ parts, p.code = code) := by
    have hinc : (r2.clearFlags isIncomplete).test isIncomplete = false := by
      have hzero : (r2.flags &&& ~~~isIncomplete) &&& isIncomplete = 0#32 := by
        rw [BitVec.and_assoc]
        simp [isIncomplete]
      show ((r2.flags &&& ~~~isIncomplete) &&& isIncomplete != 0#32) = false
      rw [hzero]
      rfl
    rw [hg, DraftType.isValid_iff, hinc, and_iff_left rfl, r2.test_clearFlags (by decide),
      ← Bool.not_eq_true, hmark.invalid, hs.invalid, hs.agree_iff, not_or, not_not, hclash,
      Bool.not_eq_true]
  refine ⟨r2, hlen, hr, hmark.metaData.trans hs.metaData,
    (hmark.test isList (by decide)).trans hs.list, ⟨?_, ?_, by omega, fun i hi hne => ?_,
    fun G rG hG => ?_, ⟨_, hself, hcode _ (hmark.code.trans hs.code)⟩, ?_⟩, _, hself, hvalid⟩
  · rw [h3]
  · rw [h3]
    exact ht.usage.trans hs.usage
  · rw [hkeep i hi, hs.others i hi hne]
  · subst hG
    rw [hkeep _ hat.lt, hs.top _ _ rfl, hclash]
  · -- the container, and what was made in it
    have hinner : ∀ i, d.types.length + 1 ≤ i → d3.types[i]? = d2.types[i]? := by
      intro i hi
      rw [h3]
      exact Draft.modify_ne _ (by omega)
    have hiff : d.NewValid d3 ↔ (g r2).isValid = true ∧ d1.NewValid d2 := by
      constructor
      · intro h
        refine ⟨h _ _ (Nat.le_refl _) hself, fun i r' hi hr' => ?_⟩
        exact h i r' (by omega) (by rw [hinner i (by omega), hr'])
      · rintro ⟨h1, h2⟩ i r' hi hr'
        rcases Nat.eq_or_lt_of_le hi with rfl | hi
        · obtain rfl : g r2 = r' := Option.some.inj (hself.symm.trans hr')
          exact h1
        · exact h2 i r' (by omega) (by rw [← hinner i hi, hr'])
    rw [hiff, hvalid, ht.valid, hs.agree_iff]
    exact ⟨fun ⟨⟨h1, h2⟩, h4, _⟩ => ⟨⟨h4, h2⟩, h1⟩, fun ⟨⟨h4, h2⟩, h1⟩ => ⟨⟨h1, h2⟩, h4, h2⟩⟩

theorem Place.due_of_not_isArray (h : w.isArray = false) : w.due = true := by
  simp [Place.due, h]

/-- Closing a container. -/
theorem Draft.complete_writes {k : Former} {parts : List Part} {index : Nat} {r : DraftType}
    {d1 d2 : Draft} {b2 : Buffer} {old : List UInt8} {ok : Prop} (hat : d.At w)
    (hs : Started d d1 w k index r)
    (ht : TookAll d1 d2 (some (⟨d.types.length, index⟩, r)) parts ok)
    (hw : Appends b b2 ((if w.due then [k.metaData.formatCode] else []) ++ old ++ k.content parts))
    (hold : old.length = 2 * k.metaData.width)
    (hindex : index =
      b.size + (if w.due then [k.metaData.formatCode] else []).length + k.metaData.width)
    (hroom : b.size + (2 * k.metaData.width + 2) ≤ b.capacity) :
    ∃ d3 b3, d2.complete b2 (some d.types.length) = .ok (some d.types.length, d3, b3) ∧
      d3.types.length = d2.types.length ∧ Appends b b3 (w.bytes (k.part w.isArray parts)) ∧
      Took d d3 w (k.part w.isArray parts).code
        (ok ∧ (k.isArray = true → ∃ code, ∀ p ∈ parts, p.code = code)) ∧
      d.FirstValid d3 (d.clash w (k.part w.isArray parts).code = false ∧
        (k.isArray = true → ∃ code, ∀ p ∈ parts, p.code = code)) := by
  have hwidth := k.width
  have hst2 : d2.stack = ⟨d.types.length, index⟩ :: d.stack := ht.stack.trans hs.stack
  have hfields : b2.size - index = (k.content parts).length + k.metaData.width := by
    rw [hw.size, hindex]
    simp only [List.length_append, hold]
    omega
  have hdue : (if w.due then [k.metaData.formatCode] else []).length ≤ 1 := by
    split <;> simp
  obtain ⟨r2, hlen, hr2, hmeta, hlist, htook, hfirst⟩ := hs.took _ (g := (·.clearFlags isIncomplete)) hat ht rfl
    (fun _ h => h) rfl fun _ => rfl
  have hin : ({ d2.modify d.types.length (·.clearFlags isIncomplete) with stack := d.stack } :
      Draft).inArray = .ok w.isArray := by
    rw [(htook.at hat).inArray]
    congr 1
    cases w with
    | none => rfl
    | some x => exact DraftType.took_test (by decide)
  unfold Draft.complete
  rw [hst2]
  dsimp only
  rw [Draft.load_ok hr2, Fault.ok_bind, if_neg (by simp), hin, Fault.ok_bind, hlist, hlen]
  by_cases hempty : w.isArray = false ∧ k.isList = true ∧ parts = []
  · obtain ⟨ha, hl, rfl⟩ := hempty
    have hclash : ∀ code, d.clash w code = false := by
      intro code
      cases w with
      | none => rfl
      | some x =>
        have hx : x.2.test isArray = false := ha
        simp [Draft.clash, hx]
    obtain ⟨r2', -, hr2', -, -, htook', hfirst'⟩ := hs.took EncodingMetaData.list0.formatCode
      (g := fun r => { r.clearFlags isIncomplete with
        metaData := .list0, code := EncodingMetaData.list0.formatCode }) hat ht rfl
      (fun _ _ => rfl) ((hclash _).trans (hclash _).symm) fun _ => rfl
    have hcontent : k.content [] = [] := by
      cases k <;> rfl
    have hpart : k.part w.isArray [] = ⟨EncodingMetaData.list0.formatCode, []⟩ := by
      rw [Former.part, if_pos (by simp [ha, hl])]
    rw [Place.due_of_not_isArray ha, hcontent, List.append_nil] at hw
    have hbackup : b2.backup (k.metaData.width * 2 + 1) = .ok { b2 with size := b.size } := by
      have hsize := hw.size
      simp only [List.length_append, hold, if_true, List.length_singleton] at hsize
      rw [Buffer.backup, if_pos (by omega), show b2.size - (k.metaData.width * 2 + 1) = b.size by omega]
    obtain ⟨b3, hb3, hw3⟩ := putc_writes (b := { b2 with size := b.size })
      EncodingMetaData.list0.formatCode (by
        show b.size < b2.capacity
        rw [hw.capacity]
        omega)
    refine ⟨{ d2.modify d.types.length fun r =>
      { r.clearFlags isIncomplete with
        metaData := .list0, code := EncodingMetaData.list0.formatCode } with stack := d.stack }, b3,
      ?_, List.length_modify .., ?_, ?_⟩
    rotate_left
    · rw [hpart, Place.bytes, Place.due_of_not_isArray ha]
      exact hw.backup.trans hw3.appends
    · rw [hpart]
      exact ⟨htook', hfirst'⟩
    · rw [if_neg (by simp [ha, hl]), Draft.completeEmptyList, hmeta, hbackup, Fault.ok_bind, hb3,
        Fault.ok_bind]
      simp only [Draft.modify, List.modify_modify_eq]
      rfl
  · have hcond : (w.isArray || !(k.isList && parts.length == 0)) = true := by
      cases ha : w.isArray <;> cases hl : k.isList <;> simp_all
    rw [if_pos hcond, Draft.completeContainer, Former.part_eq hempty, hmeta]
    by_cases h0 : k.metaData.width = 0
    · refine ⟨_, b2, by rw [if_pos h0], List.length_modify .., ?_, htook, hfirst⟩
      obtain rfl : old = [] := List.length_eq_zero_iff.1 (by rw [hold, h0])
      rw [Place.bytes, if_pos h0]
      simpa using hw
    · have hle : k.metaData.width ≤ index := by omega
      obtain ⟨b3, hb3, hw3⟩ := writeFields_writes (b := b2) (b2.size - index) parts.length
        (hwidth.resolve_left h0) hle (by rw [hw.capacity]; omega)
      rw [hindex, Nat.add_sub_cancel] at hw3
      refine ⟨_, b3.setWriteIndex b2.size, ?_, List.length_modify .., ?_, htook, hfirst⟩
      · rw [if_neg h0, hlen]
        dsimp only
        rw [hb3, Fault.ok_bind]
      · rw [Place.bytes, if_neg h0]
        rw [← hindex, hfields] at hw3
        have hlen2 : (toBigEndian k.metaData.width ((k.content parts).length + k.metaData.width) ++
            toBigEndian k.metaData.width parts.length).length = old.length := by
          rw [List.length_append, length_toBigEndian, length_toBigEndian, hold]
          omega
        simpa using hw.patch hw3 hlen2

theorem Started.content {k : Former} {index : Nat} {r : DraftType} {d1 : Draft}
    (hs : Started d d1 w k index r) (parts : List Part) :
    Place.content (some (⟨d.types.length, index⟩, r)) parts = k.content parts := by
  have ha : Place.isArray (some (⟨d.types.length, index⟩, r)) = k.isArray := hs.array
  have hc : Place.count (some (⟨d.types.length, index⟩, r)) = 0 := by
    show r.members.length = 0
    rw [hs.members, List.length_nil]
  rw [Place.content, Former.content, ha, hc]
  rfl

theorem Started.knows {k : Former} {index : Nat} {r : DraftType} {d1 : Draft}
    (hs : Started d d1 w k index r) : d1.Knows (some (⟨d.types.length, index⟩, r)) := by
  rintro _ _ ⟨⟩ _ hm
  exact absurd hs.members hm

/-- What a new container takes. -/
theorem Started.takes_iff {k : Former} {index n : Nat} {r : DraftType} {d1 : Draft}
    (hs : Started d d1 w k index r) :
    Place.Takes (some (⟨d.types.length, index⟩, r)) n ↔ (k = .described → n ≤ 2) := by
  have hlen : r.members.length = 0 := by
    rw [hs.members]
    rfl
  constructor
  · rintro h rfl
    have := h _ r rfl (by rw [hs.composite]; rfl)
    omega
  · rintro h _ _ ⟨⟩ hc
    rw [hs.composite] at hc
    have := h (of_decide_eq_true hc)
    omega

/-! ## Calls that match -/

theorem Place.isArray_next (w : Place) (id : Nat) (clash : Bool) :
    (w.next id clash).isArray = w.isArray := by
  cases w with
  | none => rfl
  | some x => exact DraftType.took_test (by decide)

theorem Place.content_cons (w : Place) (id : Nat) (clash : Bool) (p : Part) (parts : List Part) :
    w.content (p :: parts) = w.bytes p ++ (w.next id clash).content parts := by
  unfold Place.content
  rw [Place.isArray_next]
  cases w with
  | none => simp [Place.isArray, Place.bytes, Place.due, spelled]
  | some x =>
    obtain ⟨F, r⟩ := x
    cases ha : r.test Amqp.isArray with
    | false => simp [Place.isArray, Place.bytes, Place.due, spelled, ha]
    | true =>
      have hcount : (Place.next (some (F, r)) id clash).count = r.members.length + 1 := by
        simp [Place.next, Place.count, DraftType.took]
      rw [hcount]
      by_cases hm : r.members = [] <;>
        simp [Place.isArray, Place.bytes, Place.due, Place.count, spelledArray, ha, hm]

theorem Place.content_nil (w : Place) : w.content [] = [] := by
  unfold Place.content
  split <;> [split; skip] <;> rfl

/-- Every container has an element. -/
def CallTree.Filled : CallTree → Prop
  | nil => True
  | leaf _ rest => rest.Filled
  | container _ elements rest => elements.length ≠ 0 ∧ elements.Filled ∧ rest.Filled

/-- Room for calls that leave `n` bytes behind. An empty container takes more bytes while it is written
than it has in the end; otherwise a byte to spare is enough. -/
def CallTree.HasRoom (cs : CallTree) (b : Buffer) (n : Nat) : Prop :=
  Room b n ∨ cs.Filled ∧ b.size + n < b.capacity

theorem CallTree.HasRoom.lt {cs : CallTree} {n : Nat} (h : cs.HasRoom b n) : b.size + n < b.capacity := by
  rcases h with h | h
  · unfold Room at h
    omega
  · exact h.2

/-- Room for the first bytes. -/
theorem CallTree.HasRoom.first {cs cs' : CallTree} {m n : Nat} (h : cs.HasRoom b (m + n))
    (hfilled : cs.Filled → cs'.Filled) : cs'.HasRoom b m := by
  refine h.imp (fun h => ?_) fun h => ⟨hfilled h.1, Nat.lt_of_le_of_lt (by omega) h.2⟩
  unfold Room at h ⊢
  omega

/-- Room for the others behind them. -/
theorem CallTree.HasRoom.after {cs cs' : CallTree} {b' : Buffer} {bytes : List UInt8} {n : Nat}
    (h : cs.HasRoom b (bytes.length + n)) (hw : Appends b b' bytes) (hfilled : cs.Filled → cs'.Filled) :
    cs'.HasRoom b' n := by
  refine h.imp (fun h => h.after hw) fun h => ⟨hfilled h.1, ?_⟩
  have hlt := h.2
  rw [hw.size, hw.capacity]
  omega

theorem CallTree.parts_ne_nil {inArray : Bool} {cs : CallTree} (h : cs.length ≠ 0) :
    cs.parts inArray ≠ [] := by
  rw [← List.length_pos_iff, length_parts]
  exact Nat.pos_of_ne_zero h

/-- Room for the fields of a container, and for its constructor even if that is not due. -/
theorem CallTree.HasRoom.start {k : Former} {elements rest : CallTree}
    (h : (container k elements rest).HasRoom b (w.bytes (k.part w.isArray (elements.parts k.isArray))).length) :
    b.size + (2 * k.metaData.width + 2) ≤ b.capacity := by
  rcases h with h | ⟨⟨hne, -⟩, hlt⟩
  · have hwidth := k.width
    unfold Room at h
    omega
  · have hparts : elements.parts k.isArray ≠ [] := parts_ne_nil hne
    have hcontent : 1 ≤ (k.content (elements.parts k.isArray)).length := by
      rw [Former.content]
      generalize elements.parts k.isArray = parts at hparts
      cases parts with
      | nil => exact absurd rfl hparts
      | cons p ps => cases k.isArray <;> simp [spelled, spelledArray]
    rw [Place.bytes, Former.part_eq fun h => hparts h.2.2] at hlt
    simp only [List.length_append] at hlt
    by_cases h0 : k.metaData.width = 0
    · rw [if_pos h0] at hlt
      omega
    · rw [if_neg h0] at hlt
      simp only [List.length_append, length_toBigEndian] at hlt
      omega

/-- Calls at a place leave their bytes behind, or stop where a described type would get a third
member. -/
def CallTree.Runs (cs : CallTree) : Prop :=
  ∀ {d : Draft} {w : Place} {b : Buffer}, d.At w → d.Knows w → w.Takes 0 →
    cs.HasRoom b (w.content (cs.parts w.isArray)).length →
      (¬(cs.NoThird ∧ w.Takes cs.length) ∧ cs.draft d b = .error .abort) ∨
      ((cs.NoThird ∧ w.Takes cs.length) ∧ ∃ d' b', cs.draft d b = .ok (d.newTypes d', d', b') ∧
        Appends b b' (w.content (cs.parts w.isArray)) ∧
        TookAll d d' w (cs.parts w.isArray) cs.OneCode)

theorem Draft.newTypes_self : d.newTypes d = [] := by
  simp [newTypes]

theorem Draft.newTypes_succ {d1 : Draft} (h : d1.types.length = d.types.length + 1) :
    d.newTypes d1 = [some d.types.length] := by
  rw [newTypes, h, Nat.add_sub_cancel_left]
  rfl

theorem Place.next_takes (id : Nat) (clash : Bool) (hfull : w.full = false) :
    (w.next id clash).Takes 0 := by
  have htest : ∀ r : DraftType, (r.took id clash).test isComposite = r.test isComposite :=
    fun r => DraftType.took_test (by decide)
  intro F r hw hc
  cases w with
  | none => cases hw
  | some x =>
    cases hw
    rw [htest] at hc
    simp only [full, Option.elim_some, hc, Bool.true_and, decide_eq_false_iff_not] at hfull
    simp only [DraftType.took, List.length_append, List.length_singleton]
    omega

/-- A container, from the call that starts it to the one that closes it. -/
theorem Former.draft_any {k : Former} {elements : CallTree} (helems : elements.Runs) (hat : d.At w)
    (hknows : d.Knows w) (hroom : (CallTree.container k elements .nil).HasRoom b
      (w.bytes (k.part w.isArray (elements.parts k.isArray))).length)
    (after : Draft → Buffer → Except Fault (List (Option Nat) × Draft × Buffer)) :
    let call := do
      let (type, d, b) ← d.compound b k.metaData.typedefFlags k.metaData
      let (inner, d, b) ← elements.draft d b
      let (_, d, b) ← d.complete b type
      let (types, d, b) ← after d b
      .ok (type :: (inner ++ types), d, b)
    (¬(w.full = false ∧ (k = .described → elements.length ≤ 2) ∧ elements.NoThird) ∧
      call = .error .abort) ∨
    ((w.full = false ∧ (k = .described → elements.length ≤ 2) ∧ elements.NoThird) ∧ ∃ d' b',
      call = (do let (types, d2, b2) ← after d' b'; .ok (d.newTypes d' ++ types, d2, b2)) ∧
      Appends b b' (w.bytes (k.part w.isArray (elements.parts k.isArray))) ∧
      Took d d' w (k.part w.isArray (elements.parts k.isArray)).code (elements.OneCode ∧
        (k.isArray = true → ∃ code, ∀ p ∈ elements.parts k.isArray, p.code = code)) ∧
      d.FirstValid d' (d.clash w (k.part w.isArray (elements.parts k.isArray)).code = false ∧
        (k.isArray = true → ∃ code, ∀ p ∈ elements.parts k.isArray, p.code = code))) := by
  intro call
  have hcap := hroom.start
  rcases Draft.compound_any (k := k) (b := b) hat hknows hcap with
    ⟨hfull, hcall⟩ | ⟨hfull, d1, b1, index, r, old, hcall, hs, hw1, hold, hindex⟩
  · refine .inl ⟨fun h => by simp [hfull] at h, ?_⟩
    simp only [call, hcall]
    rfl
  have harr : Place.isArray (some (⟨d.types.length, index⟩, r)) = k.isArray := hs.array
  have hlen1 := hs.length
  have hinner : (¬(elements.NoThird ∧ (k = .described → elements.length ≤ 2)) ∧
        elements.draft d1 b1 = .error .abort) ∨
      ((elements.NoThird ∧ (k = .described → elements.length ≤ 2)) ∧ ∃ d2 b2,
        elements.draft d1 b1 = .ok (d1.newTypes d2, d2, b2) ∧
        Appends b1 b2 (k.content (elements.parts k.isArray)) ∧
        TookAll d1 d2 (some (⟨d.types.length, index⟩, r)) (elements.parts k.isArray)
          elements.OneCode) := by
    by_cases hempty : elements = .nil
    · subst hempty
      refine .inr ⟨⟨trivial, fun _ => Nat.zero_le _⟩, d1, b1, ?_, ?_,
        .nil (.inside hs.stack hs.new) hs.knows⟩
      · rw [CallTree.draft, Draft.newTypes_self]
      · have hnil : k.content [] = [] := by
          cases k <;> rfl
        rw [CallTree.parts, hnil]
        exact .refl b1
    · have hne : elements.parts k.isArray ≠ [] := by
        cases elements <;> simp_all [CallTree.parts]
      have hroom1 : elements.HasRoom b1 (k.content (elements.parts k.isArray)).length := by
        refine CallTree.HasRoom.after (?_ : (CallTree.container k elements .nil).HasRoom _ _) hw1 fun h => h.2.1
        rw [Place.bytes, Former.part_eq fun h => hne h.2.2] at hroom
        have hlen : ∀ n, ((if w.due then [k.metaData.formatCode] else []) ++ old).length + n =
            (if w.due then [k.metaData.formatCode] else []).length +
              (2 * k.metaData.width + n) := by
          intro n
          rw [List.length_append, hold, Nat.add_assoc]
        rw [hlen]
        by_cases h0 : k.metaData.width = 0
        · simpa [h0] using hroom
        · rw [if_neg h0] at hroom
          simp only [List.length_append, length_toBigEndian] at hroom
          rwa [Nat.two_mul]
      have h := helems (b := b1) (.inside hs.stack hs.new) hs.knows
        (hs.takes_iff.2 fun _ => Nat.zero_le _) (by rwa [harr, hs.content])
      rwa [harr, hs.content, hs.takes_iff] at h
  rcases hinner with ⟨hno, herr⟩ | ⟨⟨hthird, htwo⟩, d2, b2, hcalls, hw2, htook⟩
  · refine .inl ⟨fun h => hno ⟨h.2.2, h.2.1⟩, ?_⟩
    simp only [call, hcall, Fault.ok_bind, herr]
    rfl
  · obtain ⟨d3, b3, hclose, hlen3, hw3, htook3, hfirst⟩ :=
      Draft.complete_writes hat hs htook (hw1.trans hw2) hold hindex hcap
    refine .inr ⟨⟨hfull, htwo, hthird⟩, d3, b3, ?_, hw3, htook3, hfirst⟩
    have hlen2 := htook.length
    have hnew : d.newTypes d3 = some d.types.length :: d1.newTypes d2 := by
      have h3 : d.newTypes d3 = d.newTypes d2 := by
        rw [Draft.newTypes, hlen3]
        rfl
      rw [h3, ← Draft.newTypes_trans d d1 (by omega) hlen2, Draft.newTypes_succ hlen1]
      rfl
    simp only [call, hcall, Fault.ok_bind, hcalls, hclose, hnew]
    cases after d3 b3 <;> rfl

/-- Calls that match, wherever they go. -/
theorem CallTree.draft_any (cs : CallTree) : cs.Runs := by
  induction cs with
  | nil =>
    intro d w b hat hknows htakes _
    refine .inr ⟨⟨trivial, htakes⟩, d, b, ?_, ?_, .nil hat hknows⟩
    · rw [CallTree.draft, Draft.newTypes_self]
    · rw [CallTree.parts, Place.content_nil]
      exact .refl b
  | leaf l rest ih =>
    intro d w b hat hknows _ hroom
    rw [CallTree.parts, CallTree.length] at *
    rw [w.content_cons d.types.length (d.clash w (l.part w.isArray).code)] at hroom ⊢
    rw [List.length_append] at hroom
    rw [w.takes_cons d.types.length _ (d.clash w (l.part w.isArray).code)]
    rcases Leaf.draft_any (l := l) (b := b) hat hknows (Nat.lt_of_le_of_lt (by omega) hroom.lt) with
      ⟨hfull, hcall⟩ | ⟨hfull, d1, b1, hcall, hlen, hw1, htook⟩
    · refine .inl ⟨fun h => by simp [hfull] at h, ?_⟩
      rw [CallTree.draft, hcall]
      rfl
    have h := ih (b := b1) (htook.at hat) (htook.knows hknows) (Place.next_takes _ _ hfull)
    rw [Place.isArray_next] at h
    rcases h (hroom.after hw1 fun h => h) with ⟨hno, herr⟩ | ⟨⟨hthird, htakes⟩, d2, b2, hcalls, hw2, htooks⟩
    · refine .inl ⟨fun h => hno ⟨h.1, h.2.2⟩, ?_⟩
      rw [CallTree.draft, hcall, Fault.ok_bind]
      dsimp only
      rw [herr]
      rfl
    · refine .inr ⟨⟨hthird, hfull, htakes⟩, d2, b2, ?_, hw1.trans hw2, ?_⟩
      · rw [CallTree.draft, hcall, Fault.ok_bind]
        dsimp only
        rw [hcalls, ← Draft.newTypes_trans d d1 (by omega) htooks.length, Draft.newTypes_succ hlen]
        rfl
      · exact (TookAll.cons htook htooks hat hknows).congr (Iff.of_eq (true_and _))
  | container k elements rest ihe ih =>
    intro d w b hat hknows _ hroom
    rw [CallTree.parts, CallTree.length] at *
    rw [w.content_cons d.types.length
      (d.clash w (k.part w.isArray (elements.parts k.isArray)).code)] at hroom ⊢
    rw [List.length_append] at hroom
    rw [w.takes_cons d.types.length _
      (d.clash w (k.part w.isArray (elements.parts k.isArray)).code), CallTree.draft]
    have hroom1 : (CallTree.container k elements .nil).HasRoom b
        (w.bytes (k.part w.isArray (elements.parts k.isArray))).length :=
      hroom.first fun h => ⟨h.1, h.2.1, trivial⟩
    rcases Former.draft_any ihe hat hknows hroom1 rest.draft with
      ⟨hno, hcall⟩ | ⟨⟨hfull, htwo, helems⟩, d1, b1, hcall, hw1, htook, -⟩
    · exact .inl ⟨fun h => hno ⟨h.2.1, h.1.1, h.1.2.1⟩, hcall⟩
    rw [hcall]
    have h := ih (b := b1) (htook.at hat) (htook.knows hknows) (Place.next_takes _ _ hfull)
    rw [Place.isArray_next] at h
    rcases h (hroom.after hw1 fun h => h.2.2) with ⟨hno, herr⟩ | ⟨⟨hthird, htakes⟩, d2, b2, hcalls, hw2, htooks⟩
    · refine .inl ⟨fun h => hno ⟨h.1.2.2, h.2.2⟩, ?_⟩
      rw [herr]
      rfl
    · refine .inr ⟨⟨⟨htwo, helems, hthird⟩, hfull, htakes⟩, d2, b2, ?_, hw1.trans hw2, ?_⟩
      · rw [hcalls, Fault.ok_bind]
        dsimp only
        rw [Draft.newTypes_trans d _ (Nat.le_of_lt htook.length) htooks.length]
      · apply (TookAll.cons htook htooks hat hknows).congr
        have hcode : (k.isArray = true → ∃ code, ∀ p ∈ elements.parts k.isArray, p.code = code) ↔
            (k.isArray = true → ∃ code, ∀ p ∈ elements.parts true, p.code = code) :=
          forall_congr' fun ha => by rw [ha]
        rw [hcode]
        exact ⟨fun h => ⟨h.1.2, h.1.1, h.2⟩, fun h => ⟨⟨h.2.1, h.1⟩, h.2.2⟩⟩

end

/-! ## The encoder -/

/-- Before the first call. -/
theorem Ready.drafted {c : Context} {live : Finset Slot} (hr : Ready AmqpType.Blank c live)
    (hc : c.container = none) : Drafted c live [] ⟨[], [], c.continueOnUsageError⟩ where
  ready := hr
  nodup := .nil
  live _ h := nomatch h
  length := rfl
  types _ _ _ h := by simp at h
  distinct _ _ _ _ _ _ h := by simp at h
  linked := hc
  opened _ h := nomatch h
  stackNodup := .nil
  usage := rfl

section
variable {c : Context} {live : Finset Slot} {b : Buffer}

/-- A type is as valid as the one that stands for it in the draft. -/
theorem Drafted.isValid_eq {ids : List Slot} {d : Draft} {i : Nat} {s : Slot} {r : DraftType}
    (h : Drafted c live ids d) (hs : ids[i]? = some s) (hr : d.types[i]? = some r) :
    c.isValid (some s) = r.isValid := by
  obtain ⟨t, ht, hag⟩ := h.types i s r hs hr
  simp only [Context.isValid, Option.bind_some, ht, Option.elim_some, AmqpType.typeIsValid,
    AmqpType.typeIsInvalid, AmqpType.typedefFlagsTest, hag.flags]
  rfl

/-- The types of a draft are as valid as those it stands for. -/
theorem Drafted.isValid_iff {ids : List Slot} {d : Draft} (h : Drafted c live ids d) :
    (∀ type ∈ ids.map some, c.isValid type = true) ↔
      ∀ (i : Nat) r, d.types[i]? = some r → r.isValid = true := by
  constructor
  · intro hall i r hr
    obtain ⟨s, hs⟩ : ∃ s, ids[i]? = some s := by
      have := (List.getElem?_eq_some_iff.1 hr).1
      exact ⟨_, List.getElem?_eq_getElem (by rw [h.length]; exact this)⟩
    rw [← h.isValid_eq hs hr]
    exact hall _ (List.mem_map_of_mem (List.mem_of_getElem? hs))
  · intro hall type htype
    obtain ⟨s, hs, rfl⟩ := List.mem_map.1 htype
    obtain ⟨i, hi⟩ := List.mem_iff_getElem?.1 hs
    obtain ⟨r, hr⟩ : ∃ r, d.types[i]? = some r := by
      have := (List.getElem?_eq_some_iff.1 hi).1
      exact ⟨_, List.getElem?_eq_getElem (by rw [← h.length]; exact this)⟩
    rw [h.isValid_eq hi hr]
    exact hall i r hr

/-- The types made since the first call, in slots. -/
theorem Drafted.newTypes_map {ids : List Slot} {d : Draft} {usage : Bool} (h : Drafted c live ids d) :
    ((⟨[], [], usage⟩ : Draft).newTypes d).map (·.bind (ids[·]?)) = ids.map some := by
  apply List.ext_getElem?
  intro i
  simp only [Draft.newTypes, List.length_nil, Nat.sub_zero, List.getElem?_map, ← h.length]
  by_cases hi : i < ids.length
  · simp [hi]
  · simp [hi]

/-- The encoder follows its draft. -/
theorem CallTree.encode_drafted {cs : CallTree} (hr : Ready AmqpType.Blank c live)
    (hc : c.container = none) {d' : Draft} {b' : Buffer}
    (hcall : cs.draft ⟨[], [], c.continueOnUsageError⟩ b =
      .ok ((⟨[], [], c.continueOnUsageError⟩ : Draft).newTypes d', d', b')) :
    ∃ made c' live', cs.encode c b = .ok (made.map some, c', b') ∧ Drafted c' live' made d' := by
  have hlock := cs.encode_lockstep (b := b) (hr.drafted hc)
  rw [hcall] at hlock
  obtain ⟨⟨types, c', b''⟩, hrun, hf⟩ := hlock.of_ok
  obtain rfl : b'' = b' := hf.buffer
  obtain ⟨live', made, hd, htypes, -⟩ := hf.drafted
  rw [List.nil_append] at hd htypes
  refine ⟨made, c', live', ?_, hd⟩
  rw [hrun, show types = made.map some from htypes.trans hd.newTypes_map]

theorem Drafted.container_none {ids : List Slot} {d : Draft} (h : Drafted c live ids d)
    (hst : d.stack = []) : c.container = none := by
  have hlinked := h.linked
  rwa [hst] at hlinked

/-- Calls that match, with blank types: they stop the process where a described type would get a third
member, or leave their bytes behind. The types that they return are all valid if and only if the
elements of every array have one format code. -/
theorem CallTree.encode_any (cs : CallTree) (hr : Ready AmqpType.Blank c live) (hc : c.container = none)
    (hroom : cs.HasRoom b cs.wire.length) :
    (¬ cs.NoThird ∧ cs.encode c b = .error .abort) ∨
    (cs.NoThird ∧ ∃ types c' b' live', cs.encode c b = .ok (types, c', b') ∧
      Appends b b' cs.wire ∧ Ready AmqpType.Blank c' live' ∧ c'.container = none ∧
      ((∀ type ∈ types, c'.isValid type = true) ↔ cs.OneCode)) := by
  have hlock := cs.encode_lockstep (b := b) (hr.drafted hc)
  have hat : (⟨[], [], c.continueOnUsageError⟩ : Draft).At none := .outside rfl
  rcases cs.draft_any (b := b) hat (fun F r h => nomatch h) (fun F r h => nomatch h) hroom with
    ⟨hno, herr⟩ | ⟨⟨hthird, -⟩, d', b', hcall, hw, htook⟩
  · refine .inl ⟨fun h => hno ⟨h, fun F r h => nomatch h⟩, ?_⟩
    rw [herr] at hlock
    exact Lockstep.of_error hlock
  · obtain ⟨made, c', live', hrun, hd⟩ := encode_drafted hr hc hcall
    refine .inr ⟨hthird, made.map some, c', b', live', hrun, hw, hd.ready, hd.container_none htook.stack, ?_⟩
    have hvalid := htook.valid
    have hagree : Draft.Agree ⟨[], [], c.continueOnUsageError⟩ none (cs.parts false) :=
      fun F r h => nomatch h
    rw [Place.isArray, Option.elim_none, and_iff_left hagree] at hvalid
    rw [hd.isValid_iff, ← hvalid]
    exact ⟨fun h i r _ hr => h i r hr, fun h i r hr => h i r (Nat.zero_le _) hr⟩

/-- Calls for one container. The root is the first type that they return; it is valid if and only if the
elements of an array have one format code. -/
theorem CallTree.encode_container {k : Former} {elements : CallTree} (hr : Ready AmqpType.Blank c live)
    (hc : c.container = none) (hthird : (container k elements nil).NoThird)
    (hroom : (container k elements nil).HasRoom b (container k elements nil).wire.length) :
    ∃ s types c' b' live', (container k elements nil).encode c b = .ok (some s :: types, c', b') ∧
      Appends b b' (container k elements nil).wire ∧ Ready AmqpType.Blank c' live' ∧
      c'.container = none ∧ (c'.isValid (some s) = true ↔
        (k.isArray = true → ∃ code, ∀ p ∈ elements.parts k.isArray, p.code = code)) := by
  have hat : (⟨[], [], c.continueOnUsageError⟩ : Draft).At none := .outside rfl
  have hbytes : (container k elements nil).wire =
      Place.bytes none (k.part false (elements.parts k.isArray)) := by
    simp [wire, parts, spelled, Place.bytes, Place.due, Place.isArray]
  rw [hbytes] at hroom ⊢
  rcases Former.draft_any elements.draft_any hat (fun F r h => by cases h) hroom
      (fun d b => .ok ([], d, b)) with
    ⟨hno, -⟩ | ⟨-, d', b', hcall, hw, htook, r, hfirst, hvalid⟩
  · exact absurd ⟨rfl, hthird.1, hthird.2.1⟩ hno
  · rw [Fault.ok_bind] at hcall
    dsimp only at hcall
    rw [List.append_nil] at hcall
    obtain ⟨made, c', live', hrun, hd⟩ := (container k elements nil).encode_drafted hr hc hcall
    obtain ⟨s, ids, rfl⟩ : ∃ s ids, made = s :: ids := by
      refine List.exists_cons_of_ne_nil fun hnil => ?_
      have hlt := htook.length
      rw [← hd.length, hnil] at hlt
      exact absurd hlt (Nat.lt_irrefl _)
    refine ⟨s, ids.map some, c', b', live', hrun, hw, hd.ready, hd.container_none htook.stack, ?_⟩
    rw [hd.isValid_eq rfl hfirst, hvalid]
    exact and_iff_right rfl

theorem Values.Legal.noThird {vs : Values} (h : vs.Legal) : vs.calls.NoThird := by
  induction vs with
  | nil => trivial
  | scalar v rest ih => exact ih h.2
  | container k elements rest ihe ihr =>
    obtain ⟨hadm, helems, hrest⟩ := h
    refine ⟨fun hk => ?_, ihe helems, ihr hrest⟩
    have htwo := hadm.1 hk
    rw [Values.length_parts] at htwo
    rw [Values.length_calls, htwo]

/-- Values of the format, encoded with blank types, leave their bytes behind. -/
theorem Values.encode_writes {vs : Values} (hr : Ready AmqpType.Blank c live)
    (hc : c.container = none) (hlegal : vs.Legal) (hroom : Room b vs.wire.length) :
    ∃ c' b' live', vs.encode c b = .ok (c', b') ∧ Appends b b' vs.wire ∧
      Ready AmqpType.Blank c' live' ∧ c'.container = none := by
  rcases vs.calls.encode_any (b := b) hr hc (.inl (by rwa [Values.wire_calls])) with
    ⟨hno, -⟩ | ⟨-, types, c', b', live', hcalls, hw, hr', hc', -⟩
  · exact absurd hlegal.noThird hno
  · refine ⟨c', b', live', ?_, by rwa [Values.wire_calls] at hw, hr', hc'⟩
    rw [vs.encode_calls, hcalls]
    rfl

end

end Amqp
