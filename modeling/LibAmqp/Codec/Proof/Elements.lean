import LibAmqp.Codec.Elements
import LibAmqp.Codec.Proof.Draft
import LibAmqp.Codec.Proof.Safety

/-!
# The element array grows in time

* `allocateElements_contents`: the array with room for one more element has the same contents.
* `Elements.add`: what one more element does to a container.
* `growsElements`: every number of elements can be added, each at an index inside the array of that time.
-/

namespace Amqp

open Lib Memory

section
variable {c c' : Context} {container type : Slot} {types : List Slot} {t : AmqpType}

/-! ## The array -/

/-- An array with `count` entries in use becomes one with more entries, or stays as it is. -/
theorem allocateElements_contents {elements count : Nat} {old : List (Option Slot)}
    (h : (elements = 0 ∧ count = 0 ∧ old = []) ∨ (elements ≠ 0 ∧ count ≠ 0 ∧
      c.arrays.get elements = some old ∧ old.length = Context.arrayLength count)) :
    ∃ a arrays, allocateElements c elements (count + 1) = .ok (a, { c with arrays := arrays }) ∧ a ≠ 0 ∧
      arrays.get a = some (old ++ List.replicate (Context.arrayLength (count + 1) - old.length) none) ∧
      old.length ≤ Context.arrayLength (count + 1) := by
  unfold allocateElements
  rcases h with ⟨rfl, rfl, rfl⟩ | ⟨hne, hcount, hget, hlen⟩
  · rw [if_pos rfl]
    exact ⟨_, _, rfl, c.malloc.ne_zero _, Heap.get_malloc_self _ _ _, by simp⟩
  · rw [if_neg hne, Context.reallocArray]
    have hold : ((count + 1 - 1) / 16 + 1) * 16 = old.length := by
      rw [hlen, Nat.add_sub_cancel]
      rfl
    have hle : old.length ≤ Context.arrayLength (count + 1) := by
      rw [hlen]
      simp only [Context.arrayLength]
      omega
    simp only [hold]
    split
    · simp only [hget]
      refine ⟨_, _, rfl, c.malloc.ne_zero _, ?_, hle⟩
      have htake : old.take (((count + 1) / 16 + 1) * 16) = old := List.take_of_length_le hle
      rw [htake]
      exact Heap.get_malloc_self _ _ _
    · rename_i hsame
      have hno : Context.arrayLength (count + 1) - old.length = 0 := by
        simp only [Context.arrayLength] at hsame ⊢
        omega
      refine ⟨elements, c.arrays, rfl, hne, ?_, hle⟩
      rw [hno, List.replicate_zero, List.append_nil]
      exact hget

theorem lt_arrayLength (n : Nat) : n < Context.arrayLength n := by
  simp only [Context.arrayLength]
  omega

/-! ## Flags -/

/-- A context that differs in the roles of its types only. -/
structure Remarked (c c' : Context) : Prop where
  arrays : c'.arrays = c.arrays
  types : ∀ {s t}, c.types.load s = some t → ∃ t', c'.types.load s = some t' ∧ t'.value = t.value ∧
    t'.typeIsComposite = t.typeIsComposite

theorem Remarked.refl (c : Context) : Remarked c c := ⟨rfl, fun h => ⟨_, h, rfl, rfl⟩⟩

theorem Remarked.trans {c'' : Context} (h1 : Remarked c c') (h2 : Remarked c' c'') : Remarked c c'' := by
  refine ⟨h2.arrays.trans h1.arrays, fun h => ?_⟩
  obtain ⟨t1, hload1, hvalue1, hcomp1⟩ := h1.types h
  obtain ⟨t2, hload2, hvalue2, hcomp2⟩ := h2.types hload1
  exact ⟨t2, hload2, hvalue2.trans hvalue1, hcomp2.trans hcomp1⟩

theorem Remarked.modify {role : TypedefFlags} (hload : c.types.load type = some t) (hrole : IsRole role) :
    ∃ c', c.modify type (·.typedefFlagsSet role) = .ok c' ∧ Remarked c c' := by
  refine ⟨_, Context.modify_ok _ hload, rfl, fun {s t'} ht' => ?_⟩
  by_cases hs : s = type
  · subst hs
    obtain rfl : t = t' := Option.some.inj (hload.symm.trans ht')
    exact ⟨_, load_store_self hload, rfl, typedefFlagsTest_setRole hrole (by decide) t⟩
  · exact ⟨t', (load_store_ne _ hs).trans ht', rfl, rfl⟩

/-- There is a role for the first two members of a described type. -/
theorem Remarked.setMemberRole {count : Nat} (hload : c.types.load type = some t) (h : count < 2) :
    ∃ c', setMemberRole c type count = .ok c' ∧ Remarked c c' := by
  match count, h with
  | 0, _ => exact Remarked.modify hload (by decide)
  | 1, _ => exact Remarked.modify hload (by decide)

/-! ## One element -/

/-- A container between two calls: the array is as long as the count makes it. -/
structure Elements (c : Context) (container : Slot) (types : List Slot) (t : AmqpType) : Prop where
  load : c.types.load container = some t
  count : t.value.count = types.length
  array : (t.value.elements = 0 ∧ types = []) ∨ (t.value.elements ≠ 0 ∧ types ≠ [] ∧
    c.arrays.get t.value.elements = some (types.map some ++
      List.replicate (Context.arrayLength types.length - types.length) none))

/-- The array for one more element. -/
theorem Elements.allocate (h : Elements c container types t) (harrays : c'.arrays = c.arrays) :
    ∃ a arrays, allocateElements c' t.value.elements (types.length + 1) =
        .ok (a, { c' with arrays := arrays }) ∧ a ≠ 0 ∧
      arrays.get a = some (types.map some ++
        List.replicate (Context.arrayLength (types.length + 1) - types.length) none) := by
  rcases h.array with ⟨hnull, rfl⟩ | ⟨hne, htypes, hget⟩
  · exact (allocateElements_contents (.inl ⟨hnull, rfl, rfl⟩)).imp fun a h =>
      h.imp fun arrays h => ⟨h.1, h.2.1, h.2.2.1⟩
  · have hlen : (types.map some ++ List.replicate (Context.arrayLength types.length - types.length)
        (none : Option Slot)).length = Context.arrayLength types.length := by
      have := lt_arrayLength types.length
      simp only [List.length_append, List.length_map, List.length_replicate]
      omega
    obtain ⟨a, arrays, hcall, ha, hgeta, hle⟩ := allocateElements_contents (c := c')
      (.inr ⟨hne, fun h0 => htypes (List.length_eq_zero_iff.1 h0), by rw [harrays]; exact hget, hlen⟩)
    refine ⟨a, arrays, hcall, ha, hgeta.trans ?_⟩
    have hlt := lt_arrayLength types.length
    rw [hlen] at hle ⊢
    rw [List.append_assoc, List.replicate_append_replicate]
    congr 3
    omega

theorem Elements.writesInside (h : Elements c container types t) : WritesInside c container := by
  obtain ⟨a, arrays, hcall, -, hget⟩ := h.allocate rfl
  refine ⟨t, a, _, _, h.load, by rw [h.count]; exact hcall, hget, ?_⟩
  have := lt_arrayLength (types.length + 1)
  simp only [h.count, List.length_append, List.length_map, List.length_replicate]
  omega

/-- The new element comes behind the others. -/
theorem set_behind (types : List Slot) (type : Slot) {m : Nat} (hm : 0 < m) :
    (types.map some ++ List.replicate m none).set types.length (some type) =
      (types ++ [type]).map some ++ List.replicate (m - 1) none := by
  obtain ⟨m, rfl⟩ := Nat.exists_eq_add_of_lt hm
  have hlen : types.length = (types.map some).length := (List.length_map _).symm
  rw [hlen, List.set_append_right _ _ (Nat.le_refl _), Nat.sub_self, Nat.zero_add, List.replicate_succ,
    List.set_cons_zero, List.map_append, List.append_assoc]
  rfl

theorem isSome_store {x s : Slot} {v : AmqpType} (h : (c.types.load s).isSome) :
    ((c.store x v).types.load s).isSome := by
  obtain ⟨w, hw⟩ := Option.isSome_iff_exists.1 h
  by_cases hs : s = x
  · subst hs
    rw [show (c.store s v).types.load s = some v from load_store_self hw]
    rfl
  · rwa [show (c.store x v).types.load s = c.types.load s from load_store_ne _ hs]

theorem Remarked.isSome (h : Remarked c c') {s : Slot} (hs : (c.types.load s).isSome) :
    (c'.types.load s).isSome := by
  obtain ⟨w, hw⟩ := Option.isSome_iff_exists.1 hs
  obtain ⟨w', hw', -⟩ := h.types hw
  rw [hw']
  rfl

/-- One more element, of a container that is no described type with two members. -/
theorem Elements.add (h : Elements c container types t) (hnew : (c.types.load type).isSome)
    (hcomp : t.typeIsComposite = true → types.length < 2) :
    ∃ c' t', addElementToContainer c container type = .ok c' ∧
      Elements c' container (types ++ [type]) t' ∧ t'.typeIsComposite = t.typeIsComposite ∧
      ∀ s, (c.types.load s).isSome → (c'.types.load s).isSome := by
  -- the count, then the flags of the element
  let t1 : AmqpType := { t with value := { t.value with word := types.length + 1 } }
  have hself1 : (c.store container t1).types.load container = some t1 := load_store_self h.load
  obtain ⟨u1, hu1⟩ := Option.isSome_iff_exists.1 (isSome_store (x := container) (v := t1) hnew)
  obtain ⟨c2, hcall2, hrem2⟩ := Remarked.modify hu1 (show IsRole isContained by decide)
  obtain ⟨t2, ht2, hval2, hcomp2⟩ := hrem2.types hself1
  obtain ⟨u2, hu2, -⟩ := hrem2.types hu1
  obtain ⟨c3, hcall3, hrem3⟩ : ∃ c3,
      (if t2.typeIsComposite then setMemberRole c2 type types.length else .ok c2) = .ok c3 ∧
        Remarked c2 c3 := by
    split
    · rename_i hc
      exact Remarked.setMemberRole hu2 (hcomp (hcomp2.symm.trans hc))
    · exact ⟨c2, rfl, .refl c2⟩
  have hrem := hrem2.trans hrem3
  obtain ⟨t3, ht3, hval3, hcomp3⟩ := hrem.types hself1
  have hval : t3.value.elements = t.value.elements := by rw [hval3]
  -- the array
  obtain ⟨a, arrays, hcall4, ha, hget⟩ := h.allocate (show c3.arrays = c.arrays from hrem.arrays)
  let t5 : AmqpType := { t3 with value := { t3.value with elements := a } }
  have hself5 : ({ c3 with arrays := arrays }.store container t5 : Context).types.load container =
    some t5 := load_store_self ht3
  have hlt := lt_arrayLength (types.length + 1)
  obtain ⟨c6, hcall6, htypes6, -, hget6, -⟩ := setElement_spec
    (c := { c3 with arrays := arrays }.store container t5) (i := types.length) hget
    (by simp only [List.length_append, List.length_map, List.length_replicate]; omega) type
  refine ⟨c6, t5, ?_, ⟨?_, ?_, .inr ⟨ha, List.append_ne_nil_of_right_ne_nil _ (List.cons_ne_nil _ _), ?_⟩⟩,
    hcomp3, fun s hs => ?_⟩
  · rw [addElementToContainer, Context.load_ok h.load, Fault.ok_bind]
    dsimp only
    rw [h.count, Context.modify_ok _ h.load, Fault.ok_bind, hcall2, Fault.ok_bind, Context.load_ok ht2,
      Fault.ok_bind]
    have htail : (c3.load container >>= fun t => allocateElements c3 t.value.elements (types.length + 1) >>=
        fun r => r.2.modify container (fun t => { t with value := { t.value with elements := r.1 } }) >>=
          fun c => c.setElement r.1 types.length type) = .ok c6 := by
      rw [Context.load_ok ht3, Fault.ok_bind, hval, hcall4, Fault.ok_bind]
      dsimp only
      rw [Context.modify_ok (c := { c3 with arrays := arrays }) _ ht3, Fault.ok_bind]
      exact hcall6
    cases hc : t2.typeIsComposite with
    | true =>
      rw [hc, if_pos rfl] at hcall3
      rw [if_pos rfl, hcall3]
      exact htail
    | false =>
      rw [hc, if_neg Bool.false_ne_true] at hcall3
      cases hcall3
      rw [if_neg Bool.false_ne_true]
      exact htail
  · rw [htypes6]
    exact hself5
  · show t3.value.count = _
    rw [hval3, List.length_append]
    rfl
  · rw [List.length_append, List.length_singleton]
    refine hget6.trans (congrArg some ?_)
    rw [set_behind types type (by omega), Nat.sub_sub]
  · rw [htypes6]
    exact isSome_store (c := { c3 with arrays := arrays }) (hrem.isSome (isSome_store hs))

/-- A described type has no place for a third member. -/
theorem Elements.add_third (h : Elements c container types t) (hnew : (c.types.load type).isSome)
    (hcomp : t.typeIsComposite = true) (hfull : 2 ≤ types.length) :
    addElementToContainer c container type = .error .abort := by
  let t1 : AmqpType := { t with value := { t.value with word := types.length + 1 } }
  have hself1 : (c.store container t1).types.load container = some t1 := load_store_self h.load
  obtain ⟨u1, hu1⟩ := Option.isSome_iff_exists.1 (isSome_store (x := container) (v := t1) hnew)
  obtain ⟨c2, hcall2, hrem2⟩ := Remarked.modify hu1 (show IsRole isContained by decide)
  obtain ⟨t2, ht2, -, hcomp2⟩ := hrem2.types hself1
  obtain ⟨n, hn⟩ := Nat.exists_eq_add_of_le' hfull
  rw [addElementToContainer, Context.load_ok h.load, Fault.ok_bind]
  dsimp only
  rw [h.count, Context.modify_ok _ h.load, Fault.ok_bind, hcall2, Fault.ok_bind, Context.load_ok ht2,
    Fault.ok_bind, if_pos (hcomp2.trans hcomp), hn]
  rfl

/-! ## Any number of them -/

theorem Elements.adds {after : List Slot} : ∀ {c : Context} {types : List Slot} {t : AmqpType},
    Elements c container types t → (∀ s ∈ after, (c.types.load s).isSome) →
    (t.typeIsComposite = true → types.length + after.length ≤ 2) →
    ∃ c' t', addElements c container after = .ok c' ∧ Elements c' container (types ++ after) t' := by
  induction after with
  | nil => exact fun h _ _ => ⟨_, _, rfl, by rw [List.append_nil]; exact h⟩
  | cons type after ih =>
    intro c types t h hloads hcomp
    obtain ⟨c1, t1, hcall1, h1, hcomp1, hkeep⟩ := h.add (hloads type (.head _)) fun hc => by
      have := hcomp hc
      simp only [List.length_cons] at this
      omega
    obtain ⟨c2, t2, hcall2, h2⟩ := ih h1 (fun s hs => hkeep s (hloads s (.tail _ hs))) fun hc => by
      have := hcomp (hcomp1.symm.trans hc)
      simp only [List.length_cons, List.length_append, List.length_nil] at this ⊢
      omega
    rw [List.append_assoc] at h2
    exact ⟨c2, t2, by rw [addElements, hcall1]; exact hcall2, h2⟩

theorem Elements.holds (h : Elements c container types t) (hne : types ≠ []) :
    HoldsElements c container types := by
  obtain ⟨-, hnil⟩ | ⟨-, -, hget⟩ := h.array
  · exact absurd hnil hne
  have hlen : (types.map some ++ List.replicate (Context.arrayLength types.length - types.length)
      (none : Option Slot)).length - types.length =
      Context.arrayLength types.length - types.length := by
    simp
  refine ⟨t, _, h.load, h.count, hget, ?_, by rw [hlen]⟩
  rw [List.length_append, List.length_map]
  exact Nat.le_add_right ..

/-- From a container without elements on, any number of types can be added. -/
theorem growsElements (hload : c.types.load container = some t) (hcount : t.value.count = 0)
    (hnull : t.value.elements = 0) (hcomp : t.typeIsComposite = true → types.length ≤ 2)
    (htypes : ∀ s ∈ types, (c.types.load s).isSome) (hne : types ≠ []) :
    GrowsElements c container types := by
  have hstart : Elements c container [] t := ⟨hload, hcount, .inl ⟨hnull, rfl⟩⟩
  constructor
  · obtain ⟨c', t', hcall, h⟩ := hstart.adds htypes fun hc => by
      rw [List.length_nil, Nat.zero_add]
      exact hcomp hc
    exact ⟨c', hcall, h.holds hne⟩
  · rintro before type after rfl
    have hbefore : ∀ s ∈ before, (c.types.load s).isSome := fun s hs =>
      htypes s (List.mem_append_left _ hs)
    obtain ⟨c', t', hcall, h⟩ := hstart.adds hbefore fun hc => by
        have := hcomp hc
        rw [List.length_append] at this
        rw [List.length_nil, Nat.zero_add]
        omega
    exact ⟨c', hcall, h.writesInside⟩

end

/-- A new type in another one, 17 times: the array is allocated for the first and again for the 16th. -/
theorem growsElements_new : ∃ c container type, container ≠ type ∧
    c.load container = .ok AmqpType.zero.initializeAmqpType ∧
    GrowsElements c container (List.replicate 17 type) := by
  have hr := create_ready Malloc.bump (n := 21) (by decide) (by decide)
  obtain ⟨type, c1, -, -, hg1, -⟩ := allocateType_spec hr
  have htype : type ∈ ∅ ∪ [type].toFinset := by simp
  obtain ⟨container, c2, stale, -, hg2, -, rfl, hload, -⟩ := allocateType_spec (hr.grow hg1)
  obtain ⟨old, hold⟩ := hg1.load_new (List.mem_singleton_self type)
  have hnew : (c2.types.load type).isSome := by
    rw [hg2.load type htype, hold]
    rfl
  obtain ⟨t, ht⟩ := hg2.load_new (List.mem_singleton_self container)
  obtain rfl : t = AmqpType.zero.initializeAmqpType := by
    rw [Context.load_ok ht] at hload
    exact Except.ok.inj hload
  refine ⟨c2, container, type, ?_, hload, ?_⟩
  · rintro rfl
    exact hg2.fresh _ (List.mem_singleton_self _) htype
  · refine growsElements ht rfl rfl (fun hc => ?_) (fun s hs => ?_) (List.cons_ne_nil _ _)
    · exact absurd hc (by decide)
    · rw [List.eq_of_mem_replicate hs]
      exact hnew

end Amqp
