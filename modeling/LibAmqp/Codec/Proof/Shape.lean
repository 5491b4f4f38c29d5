import LibAmqp.Codec.Proof.Calls
import LibAmqp.Lib.Spans
import Mathlib.Data.List.ReduceOption

/-!
# The shape of what the encoder makes

The types of a draft are numbered in the order in which the calls made them, and the members of a type
are its children: what matching calls make are trees below the innermost container.

* `Draft.Tidy`: what holds of every type, and of the containers that are open.
* `CallTree.draft_grown`: matching calls add trees.
-/

namespace Amqp

open Lib

/-- What the release of a type relies on. -/
structure DraftType.Tidy (r : DraftType) : Prop where
  encoded : r.test isEncoded = true
  container : r.members ≠ [] → r.test isContainerMask = true
  first : r.members = [] → r.first = none

namespace Draft

/-- The members of each type. -/
def children (d : Draft) : List (List Nat) := d.types.map (·.members)

/-- The innermost open container. -/
def top (d : Draft) : Option Nat := d.stack.head?.map Frame.id

structure Tidy (d : Draft) : Prop where
  types : ∀ (i : Nat) r, d.types[i]? = some r → r.Tidy
  opened : ∀ F ∈ d.stack, ∃ r, d.types[F.id]? = some r ∧ r.test isContainerMask = true

/-- A change that keeps the members of a type and what its release relies on. -/
def Plain (g : DraftType → DraftType) : Prop :=
  ∀ r, (g r).members = r.members ∧ (g r).first = r.first ∧
    (g r).test isContainerMask = r.test isContainerMask ∧ (g r).test isEncoded = r.test isEncoded

variable {d d' : Draft} {i j : Nat} {r : DraftType} {g : DraftType → DraftType} {b : Buffer}
  {m : EncodingMetaData} {extra : TypedefFlags}

theorem Plain.setFlags {f : TypedefFlags} (h : f &&& (isContainerMask ||| isEncoded) = 0#32) :
    Plain (·.setFlags f) := by
  have hsub : ∀ mask : TypedefFlags, mask &&& ~~~(isContainerMask ||| isEncoded) = 0#32 →
      f &&& mask = 0#32 := by
    intro mask hm
    rw [BitVec.and_comm]
    exact and_sub_zero hm h
  exact fun r => ⟨rfl, rfl, r.test_setFlags (hsub _ (by decide)), r.test_setFlags (hsub _ (by decide))⟩

theorem Plain.clearFlags : Plain (·.clearFlags isIncomplete) :=
  fun r => ⟨rfl, rfl, r.test_clearFlags (by decide), r.test_clearFlags (by decide)⟩

theorem Plain.markInvalid (code : ErrorCode) : Plain (·.markInvalid code) :=
  fun r => ⟨rfl, rfl, r.test_setFlags (by decide), r.test_setFlags (by decide)⟩

theorem Plain.tidy (h : Plain g) (hr : r.Tidy) : (g r).Tidy where
  encoded := (h r).2.2.2.trans hr.encoded
  container hm := (h r).2.2.1.trans (hr.container fun hn => hm ((h r).1.trans hn))
  first hm := (h r).2.1.trans (hr.first ((h r).1.symm.trans hm))

theorem children_modify (h : ∀ r, (g r).members = r.members) : (d.modify i g).children = d.children := by
  refine List.ext_getElem? fun k => ?_
  simp only [children, modify, List.getElem?_map, List.getElem?_modify]
  cases d.types[k]? with
  | none => rfl
  | some r =>
    by_cases hk : i = k
    · simp [hk, h r]
    · simp [hk]

theorem Tidy.modify (h : d.Tidy) (i : Nat) (hg : Plain g) : (d.modify i g).Tidy where
  types k r hk := by
    by_cases hki : k = i
    · subst hki
      cases hold : d.types[k]? with
      | none => simp [Draft.modify, hold] at hk
      | some r0 =>
        rw [modify_self hold, Option.some.injEq] at hk
        exact hk ▸ hg.tidy (h.types k r0 hold)
    · rw [modify_ne g hki] at hk
      exact h.types k r hk
  opened F hF := by
    obtain ⟨r, hr, hc⟩ := h.opened F hF
    by_cases hFi : F.id = i
    · exact ⟨g r, by rw [hFi] at hr ⊢; exact modify_self hr, (hg r).2.2.1.trans hc⟩
    · exact ⟨r, by rw [modify_ne g hFi, hr], hc⟩

/-- The innermost container is one of the types. -/
theorem Tidy.top_lt (h : d.Tidy) : ∀ i, d.top = some i → i < d.children.length := by
  intro i hi
  obtain ⟨F, hF, rfl⟩ := Option.map_eq_some_iff.1 hi
  obtain ⟨r, hr, -⟩ := h.opened F (List.mem_of_mem_head? hF)
  simpa [children] using (List.getElem?_eq_some_iff.1 hr).1

/-! ## The steps of the calls -/

/-- What a step returns, when it returns a draft with these children. -/
structure Shaped (d d' : Draft) (children : List (List Nat)) : Prop where
  tidy : d'.Tidy
  stack : d'.stack = d.stack
  children : d'.children = children

/-- `amqp_add_element_to_container`; the container may know its first element already. -/
theorem addElement_shaped (htypes : ∀ (k : Nat) r, k ≠ i → d.types[k]? = some r → r.Tidy)
    (hopened : ∀ F ∈ d.stack, ∃ r, d.types[F.id]? = some r ∧ r.test isContainerMask = true)
    (hr : d.types[i]? = some r) (hencoded : r.test isEncoded = true)
    (hcontainer : r.test isContainerMask = true) (hij : j ≠ i) (h : d.addElement i j = .ok d') :
    Shaped d d' (d.children.modify i (· ++ [j])) := by
  rw [addElement_eq hr] at h
  split at h
  · cases h
  cases h
  have hrole : Plain (·.setFlags r.roleIn) := by
    refine Plain.setFlags ?_
    unfold DraftType.roleIn
    split
    · split <;> decide
    · decide
  have hi : (d.modify j (·.setFlags r.roleIn)).types[i]? = some r := by rw [modify_ne _ hij.symm, hr]
  refine ⟨⟨fun k rk hk => ?_, fun F hF => ?_⟩, rfl, ?_⟩
  · by_cases hki : k = i
    · subst hki
      rw [modify_self hi, Option.some.injEq] at hk
      subst hk
      exact ⟨hencoded, fun _ => hcontainer, fun hm => by simp at hm⟩
    · rw [modify_ne _ hki] at hk
      by_cases hkj : k = j
      · subst hkj
        cases hold : d.types[k]? with
        | none => simp [modify, hold] at hk
        | some r0 =>
          rw [modify_self hold, Option.some.injEq] at hk
          exact hk ▸ hrole.tidy (htypes k r0 hij hold)
      · rw [modify_ne _ hkj] at hk
        exact htypes k rk hki hk
  · obtain ⟨rF, hrF, hc⟩ := hopened F hF
    by_cases hFi : F.id = i
    · rw [hFi] at hrF ⊢
      exact ⟨_, modify_self hi, hcontainer⟩
    · by_cases hFj : F.id = j
      · rw [hFj] at hrF ⊢
        exact ⟨_, by rw [modify_ne _ hij, modify_self hrF], (hrole rF).2.2.1.trans hc⟩
      · exact ⟨rF, by rw [modify_ne _ hFi, modify_ne _ hFj, hrF], hc⟩
  · refine List.ext_getElem? fun k => ?_
    simp only [children, modify, List.getElem?_map, List.getElem?_modify]
    cases d.types[k]? with
    | none => rfl
    | some rk => by_cases hk : i = k <;> by_cases hkj : j = k <;> simp [hk, hkj, DraftType.setFlags]

theorem Shaped.congr {d1 : Draft} {children' : List (List Nat)} (h : Shaped d1 d' children')
    (hstack : d1.stack = d.stack) : Shaped d d' children' := ⟨h.tidy, h.stack.trans hstack, h.children⟩

theorem enterContainer_shaped {b' : Buffer} (htidy : d.Tidy) (hr : d.types[i]? = some r)
    (hcontainer : r.test isContainerMask = true) (hij : j ≠ i)
    (h : d.enterContainer b m i j = .ok (d', b')) :
    Shaped d d' (d.children.modify i (· ++ [j])) := by
  have hadd : ∀ {d1 : Draft} {r1} {b1 : Buffer}, d1.Tidy → d1.types[i]? = some r1 →
      r1.test isContainerMask = true → d1.children = d.children → d1.stack = d.stack →
      (do .ok (← d1.addElement i j, b1) : Except Fault (Draft × Buffer)) = .ok (d', b') →
      Shaped d d' (d.children.modify i (· ++ [j])) := by
    intro d1 r1 b1 h1 hr1 hc1 hchildren hstack hcall
    obtain ⟨d2, hd2, hcall⟩ := Fault.bind_eq_ok.1 hcall
    cases hcall
    rw [← hchildren]
    exact (addElement_shaped (fun k rk _ => h1.types k rk) h1.opened hr1 (h1.types i r1 hr1).encoded hc1
      hij hd2).congr hstack
  rw [Draft.enterContainer, load_ok hr, Fault.ok_bind] at h
  split at h
  · obtain ⟨b1, -, h⟩ := Fault.bind_eq_ok.1 h
    exact hadd htidy hr hcontainer rfl rfl h
  split at h
  · -- the first element of an array
    obtain ⟨b1, -, h⟩ := Fault.bind_eq_ok.1 h
    obtain ⟨d2, hd2, h⟩ := Fault.bind_eq_ok.1 h
    cases h
    rw [← children_modify (d := d) (i := i) (g := fun r => { r with first := some j }) fun _ => rfl]
    refine Shaped.congr (addElement_shaped (fun k rk hki hk => ?_) (fun F hF => ?_) (modify_self hr)
      (htidy.types i r hr).encoded hcontainer hij hd2) rfl
    · rw [modify_ne _ hki] at hk
      exact htidy.types k rk hk
    · obtain ⟨rF, hrF, hc⟩ := htidy.opened F hF
      by_cases hFi : F.id = i
      · rw [hFi] at hrF ⊢
        exact ⟨_, modify_self hrF, hc⟩
      · exact ⟨rF, by rw [modify_ne _ hFi, hrF], hc⟩
  split at h
  · cases h
  · obtain ⟨rf, -, h⟩ := Fault.bind_eq_ok.1 h
    obtain ⟨rt, -, h⟩ := Fault.bind_eq_ok.1 h
    split at h
    · exact hadd htidy hr hcontainer rfl rfl h
    · have hmark := Plain.markInvalid .arrayElementTypeIncorrect
      refine hadd ((htidy.modify j hmark).modify i hmark)
        (modify_self (by rw [modify_ne _ hij.symm, hr])) ((hmark r).2.2.1.trans hcontainer) ?_ rfl h
      exact (children_modify fun r => (hmark r).1).trans (children_modify fun r => (hmark r).1)

theorem Tidy.make (h : d.Tidy) (extra : TypedefFlags) (m : EncodingMetaData) : (d.make extra m).Tidy where
  types k r hk := by
    rcases Nat.lt_trichotomy k d.types.length with hlt | rfl | hgt
    · rw [Draft.make, List.getElem?_append_left hlt] at hk
      exact h.types k r hk
    · simp only [Draft.make, List.getElem?_concat_length, Option.some.injEq] at hk
      subst hk
      refine ⟨?_, fun hm => absurd rfl hm, fun _ => rfl⟩
      simp only [DraftType.test, bne_iff_ne, ne_eq]
      intro hzero
      have hbit := congrArg (BitVec.getLsbD · 28) hzero
      simp only [BitVec.getLsbD_and, BitVec.getLsbD_or, BitVec.getLsbD_zero,
        show isEncoded.getLsbD 28 = true by decide, Bool.or_true, Bool.true_or, Bool.and_true] at hbit
      cases hbit
    · rw [List.getElem?_eq_none (by simp [Draft.make]; omega)] at hk
      cases hk
  opened F hF := by
    obtain ⟨r, hr, hc⟩ := h.opened F hF
    have hlt := (List.getElem?_eq_some_iff.1 hr).1
    exact ⟨r, by rw [Draft.make, List.getElem?_append_left hlt, hr], hc⟩

theorem children_make : (d.make extra m).children = d.children ++ [[]] := by
  simp [children, make]

theorem length_children : d.children.length = d.types.length := by simp [children]

/-- The children with a new type below the innermost container. -/
def planted (d : Draft) : List (List Nat) := graft d.top [d.types.length] d.children ++ [[]]

theorem length_planted : d.planted.length = d.types.length + 1 := by
  simp [planted, length_children]

theorem Shaped.length (h : Shaped d d' d.planted) : d'.types.length = d.types.length + 1 := by
  rw [← length_children, h.children, length_planted]

theorem place_shaped {b' : Buffer} (htidy : d.Tidy) (h : d.place b extra m = .ok (d', b')) :
    Shaped d d' d.planted := by
  unfold place at h
  split at h
  · rename_i hstack
    obtain ⟨b1, -, h⟩ := Fault.bind_eq_ok.1 h
    cases h
    refine ⟨htidy.make extra m, rfl, ?_⟩
    rw [children_make, planted, top, hstack]
    rfl
  · rename_i F rest hstack
    obtain ⟨r, hr, hc⟩ := htidy.opened F (by rw [hstack]; exact .head _)
    have hlt := (List.getElem?_eq_some_iff.1 hr).1
    have hshaped := enterContainer_shaped (htidy.make extra m)
      (by rw [make, List.getElem?_append_left hlt, hr]) hc (by omega) h
    have htop : d.top = some F.id := by rw [top, hstack]; rfl
    have hplanted : d.planted = (d.make extra m).children.modify F.id (· ++ [d.types.length]) := by
      rw [planted, ← graft_append _ htidy.top_lt, htop, children_make]
      rfl
    rw [hplanted]
    exact hshaped.congr rfl

/-- What a call without elements returns. -/
def LeafShaped (d : Draft) (y : Option Nat × Draft × Buffer) : Prop :=
  (y.1 = none ∧ y.2.1 = d) ∨ (y.1 = some d.types.length ∧ Shaped d y.2.1 d.planted)

theorem encodeFixed_shaped {y : Option Nat × Draft × Buffer} (htidy : d.Tidy)
    (h : d.encodeFixed b m = .ok y) : LeafShaped d y := by
  unfold encodeFixed at h
  split at h
  · cases h
    exact .inl ⟨rfl, rfl⟩
  · obtain ⟨⟨d1, b1⟩, hplace, h⟩ := Fault.bind_eq_ok.1 h
    cases h
    exact .inr ⟨rfl, place_shaped htidy hplace⟩

theorem fixed_shaped {y : Option Nat × Draft × Buffer} {write : Buffer → Except Fault Buffer}
    (htidy : d.Tidy) (h : d.fixed b m write = .ok y) : LeafShaped d y := by
  obtain ⟨⟨q, d1, b1⟩, hfixed, h⟩ := Fault.bind_eq_ok.1 h
  have hshaped := encodeFixed_shaped htidy hfixed
  cases q with
  | none =>
    cases h
    exact hshaped
  | some k =>
    obtain ⟨b2, -, h⟩ := Fault.bind_eq_ok.1 h
    cases h
    exact hshaped

theorem variableWidth_shaped {y : Option Nat × Draft × Buffer} {value : List UInt8} (htidy : d.Tidy)
    (h : d.variableWidth b m value = .ok y) : LeafShaped d y := by
  unfold variableWidth at h
  split at h
  · cases h
    exact .inl ⟨rfl, rfl⟩
  · obtain ⟨⟨d1, b1⟩, hplace, h⟩ := Fault.bind_eq_ok.1 h
    obtain ⟨b2, -, h⟩ := Fault.bind_eq_ok.1 h
    obtain ⟨b3, -, h⟩ := Fault.bind_eq_ok.1 h
    cases h
    exact .inr ⟨rfl, place_shaped htidy hplace⟩

theorem leaf_shaped {y : Option Nat × Draft × Buffer} {payload : List UInt8} (htidy : d.Tidy)
    (h : d.leaf b m payload = .ok y) : LeafShaped d y := by
  unfold leaf at h
  split at h
  · exact variableWidth_shaped htidy h
  · exact fixed_shaped htidy h

/-- The end of `amqp_encode_boolean`. -/
theorem someOrFault_shaped {x : Drafting} {y : Option Nat × Draft × Buffer}
    (hx : ∀ z, x = .ok z → LeafShaped d z)
    (h : (x >>= fun (result, d, b) => match result with
      | none => .error .wildPointer
      | some type => .ok (some type, d, b)) = .ok y) : LeafShaped d y := by
  obtain ⟨⟨q, d1, b1⟩, hcall, h⟩ := Fault.bind_eq_ok.1 h
  cases q with
  | none => cases h
  | some k =>
    cases h
    exact hx _ hcall

theorem boolean_shaped {y : Option Nat × Draft × Buffer} {value : BitVec 32} (htidy : d.Tidy)
    (h : d.boolean b value = .ok y) : LeafShaped d y := by
  obtain ⟨a, -, h⟩ := Fault.bind_eq_ok.1 h
  cases a with
  | true => exact someOrFault_shaped (fun z hz => fixed_shaped htidy hz) h
  | false => exact someOrFault_shaped (fun z hz => encodeFixed_shaped htidy hz) h

theorem Shaped.modify {cs : List (List Nat)} (h : Shaped d d' cs) (i : Nat) (hg : Plain g) :
    Shaped d (d'.modify i g) cs :=
  ⟨h.tidy.modify i hg, h.stack, (children_modify fun r => (hg r).1).trans h.children⟩

/-- A container is made and opened. -/
theorem compound_shaped {y : Option Nat × Draft × Buffer} (htidy : d.Tidy)
    (hm : (m.typedefFlags ||| isEncoded ||| extra) &&& isContainerMask ≠ 0#32)
    (h : d.compound b extra m = .ok y) :
    y.1 = some d.types.length ∧ y.2.1.Tidy ∧ y.2.1.children = d.planted ∧
      ∃ index, y.2.1.stack = ⟨d.types.length, index⟩ :: d.stack := by
  unfold compound at h
  split at h
  · cases h
  · obtain ⟨⟨d1, b1⟩, hplace, h⟩ := Fault.bind_eq_ok.1 h
    obtain ⟨⟨index, b2⟩, -, h⟩ := Fault.bind_eq_ok.1 h
    cases h
    have hlt : ∀ F ∈ d.stack, F.id < d.types.length := by
      intro F hF
      obtain ⟨r, hr, -⟩ := htidy.opened F hF
      exact (List.getElem?_eq_some_iff.1 hr).1
    obtain ⟨r, hr, hflag⟩ := place_new hplace hlt
    have hopen : Plain (·.setFlags isIncomplete) := Plain.setFlags (by decide)
    have h1 := (place_shaped htidy hplace).modify d.types.length hopen
    refine ⟨rfl, ⟨h1.tidy.types, fun F hF => ?_⟩, h1.children, index, ?_⟩
    · rcases List.mem_cons.1 hF with rfl | hF
      · refine ⟨_, modify_self hr, (hopen r).2.2.1.trans ?_⟩
        rw [hflag.test isContainerMask (by decide)]
        exact bne_iff_ne.2 hm
      · exact h1.tidy.opened F hF
    · exact congrArg _ h1.stack

/-- The innermost container is completed. -/
theorem complete_shaped {y : Option Nat × Draft × Buffer} {type : Option Nat} {F : Frame}
    {rest : List Frame} (htidy : d.Tidy) (hstack : d.stack = F :: rest)
    (h : d.complete b type = .ok y) :
    y.2.1.Tidy ∧ y.2.1.stack = rest ∧ y.2.1.children = d.children := by
  unfold complete at h
  rw [hstack] at h
  obtain ⟨r, -, h⟩ := Fault.bind_eq_ok.1 h
  have h1 : Shaped { d with stack := rest }
      { d.modify F.id (·.clearFlags isIncomplete) with stack := rest } d.children := by
    have hmod := htidy.modify F.id Plain.clearFlags
    refine ⟨⟨hmod.types, fun G hG => hmod.opened G ?_⟩, rfl, children_modify fun r => (Plain.clearFlags r).1⟩
    show G ∈ d.stack
    rw [hstack]
    exact .tail _ hG
  have hmark := Plain.markInvalid .completeWrongContainer
  dsimp only at h
  split at h
  · split at h
    · cases h
    · cases type with
      | none =>
        cases h
        exact ⟨h1.tidy, h1.stack, h1.children⟩
      | some k =>
        cases h
        have h2 := (h1.modify k hmark).modify F.id hmark
        exact ⟨h2.tidy, h2.stack, h2.children⟩
  · obtain ⟨a, -, h⟩ := Fault.bind_eq_ok.1 h
    split at h
    · unfold completeContainer at h
      split at h
      · cases h
        exact ⟨h1.tidy, h1.stack, h1.children⟩
      · obtain ⟨b1, -, h⟩ := Fault.bind_eq_ok.1 h
        cases h
        exact ⟨h1.tidy, h1.stack, h1.children⟩
    · obtain ⟨b1, -, h⟩ := Fault.bind_eq_ok.1 h
      obtain ⟨b2, -, h⟩ := Fault.bind_eq_ok.1 h
      cases h
      have h2 := h1.modify F.id (g := fun r =>
        { r with metaData := .list0, code := EncodingMetaData.list0.formatCode })
        fun r => ⟨rfl, rfl, rfl, rfl⟩
      exact ⟨h2.tidy, h2.stack, h2.children⟩

end Draft

open Draft

variable {d : Draft} {b : Buffer} {y : Option Nat × Draft × Buffer}

theorem Scalar.draft_shaped (htidy : d.Tidy) {v : Scalar} (h : v.draft d b = .ok y) : LeafShaped d y := by
  unfold Scalar.draft at h
  split at h
  · exact boolean_shaped htidy h
  · exact leaf_shaped htidy h

theorem Leaf.draft_shaped (htidy : d.Tidy) {l : Leaf} (h : l.draft d b = .ok y) : LeafShaped d y := by
  unfold Leaf.draft at h
  split at h
  · exact Scalar.draft_shaped htidy h
  · exact leaf_shaped htidy h

theorem Former.container (k : Former) :
    (k.metaData.typedefFlags ||| isEncoded ||| k.metaData.typedefFlags) &&& isContainerMask ≠ 0#32 := by
  cases k <;> decide

/-- What matching calls return: they added trees. For one value, its tree if there was room. -/
structure Trees (d : Draft) (cs : CallTree) (y : List (Option Nat) × Draft × Buffer) (roots : List Nat) :
    Prop where
  tidy : y.2.1.Tidy
  stack : y.2.1.stack = d.stack
  grown : Grown d.top d.children y.2.1.children roots
  all : y.1.reduceOption = List.range' d.types.length (y.2.1.types.length - d.types.length)
  none : cs.length = 0 → roots = []
  one : cs.length = 1 → roots = y.1.head?.join.toList

theorem Trees.top {cs : CallTree} {y : List (Option Nat) × Draft × Buffer} {roots : List Nat}
    (h : Trees d cs y roots) : y.2.1.top = d.top := by
  rw [Draft.top, h.stack]
  rfl

theorem Trees.length_le {cs : CallTree} {y : List (Option Nat) × Draft × Buffer} {roots : List Nat}
    (h : Trees d cs y roots) : d.types.length ≤ y.2.1.types.length := by
  obtain ⟨-, block, hblock, -⟩ := h.grown
  have hlen := congrArg List.length hblock
  rw [length_children, List.length_append, length_graft, length_children] at hlen
  omega

/-- The types made first and those made after them. -/
theorem range'_sub {i j k : Nat} (hij : i ≤ j) (hjk : j ≤ k) :
    List.range' i (j - i) ++ List.range' j (k - j) = List.range' i (k - i) := by
  have hj : j = i + (j - i) := by omega
  have hk : k - i = (j - i) + (k - j) := by omega
  rw [hk, ← List.range'_append_1, ← hj]

theorem cons_range' {i k : Nat} (h : i + 1 ≤ k) :
    i :: List.range' (i + 1) (k - (i + 1)) = List.range' i (k - i) := by
  rw [show k - i = k - (i + 1) + 1 by omega, List.range'_succ]

/-- Matching calls add trees below the innermost container. -/
theorem CallTree.draft_grown (cs : CallTree) : ∀ {d : Draft} {b : Buffer}
    {y : List (Option Nat) × Draft × Buffer}, d.Tidy → cs.draft d b = .ok y →
    ∃ roots, Trees d cs y roots := by
  induction cs with
  | nil =>
    intro d b y htidy h
    cases h
    exact ⟨[], htidy, rfl, .refl htidy.top_lt, by simp, fun _ => rfl, fun h => by simp [length] at h⟩
  | leaf l rest ih =>
    intro d b y htidy h
    obtain ⟨⟨q, d1, b1⟩, hleaf, h⟩ := Fault.bind_eq_ok.1 h
    obtain ⟨⟨qs, d2, b2⟩, hrest, h⟩ := Fault.bind_eq_ok.1 h
    cases h
    rcases Leaf.draft_shaped htidy hleaf with ⟨rfl, rfl⟩ | ⟨rfl, h1⟩
    · obtain ⟨roots, ht⟩ := ih htidy hrest
      refine ⟨roots, ht.tidy, ht.stack, ht.grown, ht.all, fun h => by simp [length] at h, fun h => ?_⟩
      exact ht.none (by simpa [length] using h)
    · obtain ⟨roots, ht⟩ := ih h1.tidy hrest
      have htop : d1.top = d.top := by
        rw [Draft.top, h1.stack]
        rfl
      have hbelow : Grown (some d.children.length) (graft d.top [d.children.length] d.children ++ [[]])
          d1.children [] := by
        rw [length_children, show graft d.top [d.types.length] d.children ++ [[]] = d1.children from
          h1.children.symm]
        exact .refl (by simp [h1.children, planted, length_children])
      have hnode := Grown.node htidy.top_lt hbelow
      rw [length_children] at hnode
      have hlen1 := h1.length
      refine ⟨d.types.length :: roots, ht.tidy, ht.stack.trans h1.stack, ?_, ?_, fun h => by simp [length] at h,
        fun h => ?_⟩
      · exact hnode.trans (htop ▸ ht.grown)
      · have hle := ht.length_le
        have hall := ht.all
        dsimp only at hlen1 hle hall ⊢
        rw [hlen1] at hle hall
        rw [List.reduceOption_cons_of_some, hall, cons_range' hle]
      · rw [ht.none (by simpa [length] using h)]
        rfl
  | container k elements rest ihe ihr =>
    intro d b y htidy h
    obtain ⟨⟨q, d1, b1⟩, hstart, h⟩ := Fault.bind_eq_ok.1 h
    obtain ⟨⟨qs, d2, b2⟩, helems, h⟩ := Fault.bind_eq_ok.1 h
    obtain ⟨⟨q3, d3, b3⟩, hcomplete, h⟩ := Fault.bind_eq_ok.1 h
    obtain ⟨⟨qs4, d4, b4⟩, hrest, h⟩ := Fault.bind_eq_ok.1 h
    cases h
    obtain ⟨rfl, htidy1, hchildren1, index, hstack1⟩ := compound_shaped htidy k.container hstart
    obtain ⟨kids, hkids⟩ := ihe htidy1 helems
    obtain ⟨htidy3, hstack3, hchildren3⟩ := complete_shaped hkids.tidy (hkids.stack.trans hstack1) hcomplete
    obtain ⟨roots, ht⟩ := ihr htidy3 hrest
    have htop3 : d3.top = d.top := by
      rw [Draft.top, hstack3]
      rfl
    have htop1 : d1.top = some d.children.length := by
      rw [Draft.top, hstack1, length_children]
      rfl
    have hbelow : Grown (some d.children.length) (graft d.top [d.children.length] d.children ++ [[]])
        d3.children kids := by
      have hgrown := hkids.grown
      rw [htop1, hchildren1, planted] at hgrown
      rw [hchildren3]
      rw [length_children] at hgrown ⊢
      exact hgrown
    have hnode := Grown.node htidy.top_lt hbelow
    rw [length_children] at hnode
    have hlen1 : d1.types.length = d.types.length + 1 := by
      rw [← length_children, hchildren1, length_planted]
    have hlen3 : d3.types.length = d2.types.length := by
      rw [← length_children, hchildren3, length_children]
    refine ⟨d.types.length :: roots, ht.tidy, ht.stack.trans hstack3, ?_, ?_, fun h => by simp [length] at h,
      fun h => ?_⟩
    · exact hnode.trans (htop3 ▸ ht.grown)
    · have hle := hkids.length_le
      have hle4 := ht.length_le
      have hall := hkids.all
      have hall4 := ht.all
      dsimp only at hle hle4 hall hall4 ⊢
      rw [hlen1] at hle hall
      rw [hlen3] at hle4 hall4
      rw [List.reduceOption_cons_of_some, List.reduceOption_append, hall, hall4, range'_sub hle hle4,
        cons_range' (Nat.le_trans hle hle4)]
    · rw [ht.none (by simpa [length] using h)]
      rfl

end Amqp
