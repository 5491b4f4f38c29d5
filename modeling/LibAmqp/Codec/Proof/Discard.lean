import LibAmqp.Codec.Proof.Made
import LibAmqp.Codec.Proof.Release
import LibAmqp.Codec.Proof.RoundTrip
import LibAmqp.Codec.Proof.Shape

/-!
# What was encoded is given back as a whole

`amqp_deallocate_type`, on the type that a call for one value returned, gives back every type and every
element array that the calls took. Unlike a decoded array, an encoded one keeps the constructor of its
elements in the first of them, which is given back as an element.

* `release_spans`: the types of a draft below a list of roots.
* `CallTree.encode_release`: calls for one value, and the release of the type that they return.
-/

namespace Amqp

open Lib Memory

/-- The element array of a type, if it has one. -/
def AmqpType.arrays (t : AmqpType) : List Nat := if t.value.elements = 0 then [] else [t.value.elements]

/-- Type `i` of a draft is in memory, and its element array is `own i`. -/
def Planted (c : Context) (ids : List Slot) (d : Draft) (own : Nat → List Nat) (i : Nat) : Prop :=
  ∃ s r t, ids[i]? = some s ∧ d.types[i]? = some r ∧ c.types.load s = some t ∧
    Agrees c.arrays ids r t ∧ own i = t.arrays

/-- The slots of types. -/
def slotsAt (ids : List Slot) (nodes : List Nat) : List Slot := nodes.filterMap (ids[·]?)

section
variable {c c' : Context} {L : Finset Slot} {ids : List Slot} {d : Draft} {own : Nat → List Nat}
  {i : Nat} {s : Slot} {r : DraftType} {t : AmqpType}

theorem AmqpType.mem_arrays {a : Nat} : a ∈ t.arrays ↔ a = t.value.elements ∧ t.value.elements ≠ 0 := by
  unfold arrays
  split <;> simp_all

theorem Planted.frame (h : Planted c ids d own i)
    (hload : ∀ s, ids[i]? = some s → c'.types.load s = c.types.load s)
    (hget : ∀ a ∈ own i, c'.arrays.get a = c.arrays.get a) : Planted c' ids d own i := by
  obtain ⟨s, r, t, hs, hr, ht, hag, hown⟩ := h
  refine ⟨s, r, t, hs, hr, by rw [hload s hs, ht], { hag with elements := fun hm => ?_ }, hown⟩
  obtain ⟨l, hl, hrest⟩ := hag.elements hm
  refine ⟨l, ?_, hrest⟩
  have hne : t.value.elements ≠ 0 := by
    intro h0
    rw [h0] at hl
    simp at hl
  rw [hget _ (hown ▸ AmqpType.mem_arrays.2 ⟨rfl, hne⟩), hl]

theorem slotsAt_append (m n : List Nat) : slotsAt ids (m ++ n) = slotsAt ids m ++ slotsAt ids n :=
  List.filterMap_append

theorem slotsAt_cons (hs : ids[i]? = some s) (n : List Nat) :
    slotsAt ids (i :: n) = s :: slotsAt ids n := by
  simp [slotsAt, hs]

theorem mem_slotsAt {nodes : List Nat} (hs : ids[i]? = some s) (hi : i ∈ nodes) :
    s ∈ slotsAt ids nodes := List.mem_filterMap.2 ⟨i, hi, hs⟩

/-- A list of types in an element array, from entry `pos` on, can be given back with all below them. -/
def Discardable (ids : List Slot) (d : Draft) (own : Nat → List Nat) (is nodes : List Nat) : Prop :=
  ∀ (fuel a pos : Nat) (c : Context) (L : Finset Slot) (l : List (Option Slot)),
    nodes.length ≤ fuel → (∀ i ∈ nodes, Planted c ids d own i) → Live (fun _ => True) c.types L →
    (∀ s ∈ slotsAt ids nodes, s ∈ L) → (slotsAt ids nodes).Nodup → (nodes.flatMap own).Nodup →
    a ∉ nodes.flatMap own → c.arrays.get a = some l →
    (∀ k < is.length, l[pos + k]? = is[k]?.map (ids[·]?)) →
    ∃ c', deallocateElements (deallocateType fuel) a is.length pos c = .ok c' ∧
      Releases c L c' (slotsAt ids nodes) (nodes.flatMap own)

/-- The members of a type and their array. -/
theorem discard_elements {below : List Nat} {fuel : Nat} (hk : Discardable ids d own r.members below)
    (hnone : r.members = [] → below = []) (hfuel : below.length ≤ fuel) (htidy : r.Tidy)
    (hag : Agrees c.arrays ids r t) (hplanted : ∀ j ∈ below, Planted c ids d own j)
    (hlive : Live (fun _ => True) c.types L) (hsub : ∀ s ∈ slotsAt ids below, s ∈ L)
    (hnodup : (slotsAt ids below).Nodup) (harrays : (t.arrays ++ below.flatMap own).Nodup) :
    ∃ c', cleanupElements (deallocateType fuel) c t = .ok c' ∧
      Releases c L c' (slotsAt ids below) (t.arrays ++ below.flatMap own) := by
  unfold cleanupElements
  by_cases hm : r.members = []
  · obtain rfl := hnone hm
    have hel := hag.noMembers hm
    refine ⟨c, ?_, ?_⟩
    · split
      · rw [deallocateAmqpTypeArray, if_neg (by simp [hel])]
      · rfl
    · simpa [slotsAt, AmqpType.arrays, hel] using Releases.refl hlive
  · have hcontainer := htidy.container hm
    have hcount : t.value.count = r.members.length := hag.count hcontainer
    obtain ⟨l, hget, -, htake⟩ := hag.elements hm
    have hne : t.value.elements ≠ 0 := by
      intro h0
      rw [h0] at hget
      simp at hget
    have harr : t.arrays = [t.value.elements] := by rw [AmqpType.arrays, if_neg hne]
    rw [harr] at harrays ⊢
    obtain ⟨hna, hka⟩ := List.nodup_cons.1 harrays
    obtain ⟨c1, hcall, hrel⟩ := hk fuel t.value.elements 0 c L l hfuel hplanted hlive hsub hnodup hka hna
      hget fun k hkl => by
        have hentry := congrArg (·[k]?) htake
        simp only [List.getElem?_take, if_pos hkl, List.getElem?_map] at hentry
        rw [Nat.zero_add, hentry]
    obtain ⟨c2, hfree, hrel2⟩ := freeArray_spec hrel.held (a := t.value.elements) (l := l)
      (by rw [hrel.get _ hna, hget])
    refine ⟨c2, ?_, (hrel.trans hrel2).perm (by simp) List.perm_append_comm⟩
    rw [if_pos (show t.typeIsContainer = true from (hag.test isContainerMask).trans hcontainer),
      deallocateAmqpTypeArray, if_pos hne, hcount, hcall, Fault.ok_bind, hfree]

/-- The first element of an encoded array is not given back twice. -/
theorem discard_constructor {fuel : Nat} (htidy : r.Tidy) (hag : Agrees c'.arrays ids r t) :
    cleanupConstructor (deallocateType fuel) c t = .ok c := by
  have hencoded : t.typeIsEncoded = true := (hag.test isEncoded).trans htidy.encoded
  unfold cleanupConstructor
  split
  · rename_i h
    rw [hencoded] at h
    simp only [Bool.not_true, Bool.true_and, Bool.false_or, Bool.and_eq_true, beq_iff_eq] at h
    have hfirst : t.value.constructor = none := by
      rw [hag.first]
      by_cases hm : r.members = []
      · rw [htidy.first hm]
        rfl
      · have hcount : t.value.count = r.members.length := hag.count (htidy.container hm)
        rw [h.2] at hcount
        exact absurd (List.eq_nil_of_length_eq_zero hcount.symm) hm
    rw [hfirst]
    cases fuel <;> rfl
  · rfl

/-- A type with all below it. -/
theorem discard_type {below : List Nat} (fuel : Nat) (hk : Discardable ids d own r.members below)
    (hnone : r.members = [] → below = []) (hfuel : below.length ≤ fuel) (htidy : r.Tidy)
    (hs : ids[i]? = some s) (hr : d.types[i]? = some r) (hself : Planted c ids d own i)
    (hplanted : ∀ j ∈ below, Planted c ids d own j) (hlive : Live (fun _ => True) c.types L)
    (hsub : ∀ x ∈ slotsAt ids (i :: below), x ∈ L) (hnodup : (slotsAt ids (i :: below)).Nodup)
    (harrays : ((i :: below).flatMap own).Nodup) :
    ∃ c', deallocateType (fuel + 1) c (some s) = .ok c' ∧
      Releases c L c' (slotsAt ids (i :: below)) ((i :: below).flatMap own) := by
  obtain ⟨s', r', t, hs', hr', ht, hag, hown⟩ := hself
  obtain rfl : s = s' := Option.some.inj (hs.symm.trans hs')
  obtain rfl : r = r' := Option.some.inj (hr.symm.trans hr')
  rw [slotsAt_cons hs] at hsub hnodup ⊢
  rw [List.flatMap_cons, hown] at harrays ⊢
  obtain ⟨hnot, hnodup⟩ := List.nodup_cons.1 hnodup
  have hsl := hsub s (.head _)
  obtain ⟨c1, hcall1, hrel1⟩ := discard_elements hk hnone hfuel htidy hag hplanted hlive
    (fun x hx => hsub x (.tail _ hx)) hnodup harrays
  have hload1 := hrel1.reload hsl hnot ht
  obtain ⟨c2, hcall2, hrel2⟩ := deleteType_spec hrel1.held (s := s) (by
    rw [Finset.mem_sdiff, List.mem_toFinset]
    exact ⟨hsl, hnot⟩)
  refine ⟨c2, ?_, (hrel1.trans hrel2).perm (List.perm_append_singleton _ _) (by simp)⟩
  rw [deallocateType, cleanupAmqpType, Context.load_ok ht, Fault.ok_bind, hcall1, Fault.ok_bind, hload1,
    Fault.ok_bind, discard_constructor htidy hag, Fault.ok_bind, hcall2]

/-- The types below a list of roots. -/
theorem release_spans (htidy : d.Tidy) {is nodes : List Nat} (h : Spans d.children is nodes) :
    Discardable ids d own is nodes := by
  induction h with
  | nil =>
    intro fuel a pos c L l _ _ hlive _ _ _ _ _ _
    exact ⟨c, rfl, .refl hlive⟩
  | @cons i kids below is rest hi hkids _ ihk ihr =>
    intro fuel a pos c L l hfuel hplanted hlive hsub hnodup harrays ha hget hptr
    have hself := hplanted i (.head _)
    obtain ⟨s, r, t, hs, hr, -⟩ := id hself
    obtain rfl : r.members = kids := by
      rw [Draft.children, List.getElem?_map, hr] at hi
      exact Option.some.inj hi
    rw [← List.cons_append] at hfuel hplanted hsub hnodup harrays ha ⊢
    rw [slotsAt_append] at hsub hnodup ⊢
    rw [List.flatMap_append] at harrays ha ⊢
    rw [List.nodup_append] at hnodup harrays
    rw [List.mem_append, not_or] at ha
    rw [List.length_append, List.length_cons] at hfuel
    obtain ⟨fuel, rfl⟩ : ∃ k, fuel = k + 1 := ⟨fuel - 1, by omega⟩
    have hnone : r.members = [] → below = [] := by
      intro hm
      rw [hm] at hkids
      cases hkids
      rfl
    obtain ⟨c1, hcall1, hrel1⟩ := discard_type fuel ihk hnone (by omega) (htidy.types i r hr) hs hr hself
      (fun j hj => hplanted j (List.mem_append_left _ (.tail _ hj))) hlive
      (fun x hx => hsub x (List.mem_append_left _ hx)) hnodup.1 harrays.1
    -- the other types are untouched by that
    have hplanted1 : ∀ j ∈ rest, Planted c1 ids d own j := by
      intro j hj
      refine (hplanted j (List.mem_append_right _ hj)).frame (fun x hx => ?_) fun y hy => ?_
      · have hmem := mem_slotsAt hx hj
        exact hrel1.load x (hsub x (List.mem_append_right _ hmem)) fun hm => hnodup.2.2 x hm x hmem rfl
      · have hmem := List.mem_flatMap.2 ⟨j, hj, hy⟩
        exact hrel1.get y fun hm => harrays.2.2 y hm y hmem rfl
    obtain ⟨c2, hcall2, hrel2⟩ := ihr (fuel + 1) a (pos + 1) c1 _ l (by omega) hplanted1 hrel1.held
      (fun x hx => by
        rw [Finset.mem_sdiff, List.mem_toFinset]
        exact ⟨hsub x (List.mem_append_right _ hx), fun hm => hnodup.2.2 x hm x hx rfl⟩)
      hnodup.2.1 harrays.2.1 ha.2 (by rw [hrel1.get a ha.1, hget])
      fun k hk => by rw [Nat.add_right_comm]; exact hptr (k + 1) (Nat.succ_lt_succ hk)
    have h0 : l[pos]? = some (some s) := by
      have := hptr 0 (Nat.succ_pos _)
      rwa [List.getElem?_cons_zero, Option.map_some, hs] at this
    refine ⟨c2, ?_, hrel1.trans hrel2⟩
    simp only [List.length_cons, deallocateElements, Context.getElement, hget, h0, Fault.ok_bind, hcall1,
      hcall2]

/-! ## The calls and the release -/

theorem reduceOption_map_bind {f : Nat → Option Slot} (l : List (Option Nat)) :
    (l.map (·.bind f)).reduceOption = l.reduceOption.filterMap f := by
  induction l with
  | nil => rfl
  | cons q l ih =>
    cases q with
    | none => simpa using ih
    | some i =>
      rw [List.map_cons, Option.bind_some, List.reduceOption_cons_of_some, List.filterMap_cons, ← ih]
      cases f i <;> simp

theorem slotsAt_range (ids : List Slot) : slotsAt ids (List.range' 0 ids.length) = ids := by
  induction ids using List.reverseRecOn with
  | nil => rfl
  | append_singleton ids s ih =>
    rw [List.length_append, List.length_singleton, ← List.range'_append_1, slotsAt_append]
    have hold : slotsAt (ids ++ [s]) (List.range' 0 ids.length) = slotsAt ids (List.range' 0 ids.length) := by
      refine List.filterMap_congr fun i hi => ?_
      have := List.mem_range'_1.1 hi
      exact List.getElem?_append_left (by omega)
    rw [hold, ih]
    simp [slotsAt]

/-- The element arrays of the types in memory. -/
def owner (c : Context) (ids : List Slot) (i : Nat) : List Nat :=
  (ids[i]?.bind c.types.load).elim [] AmqpType.arrays

theorem owner_eq (hs : ids[i]? = some s) (ht : c.types.load s = some t) : owner c ids i = t.arrays := by
  simp [owner, hs, ht]

section
variable {live held : Finset Slot}

theorem Drafted.planted (h : Drafted c held ids d) (hi : i < d.types.length) :
    Planted c ids d (owner c ids) i := by
  obtain ⟨s, t, hs, ht, hag⟩ := h.slot (List.getElem?_eq_getElem hi)
  exact ⟨s, _, t, hs, List.getElem?_eq_getElem hi, ht, hag, owner_eq hs ht⟩

/-- Different types have different element arrays. -/
theorem Drafted.arrays_nodup (h : Drafted c held ids d) {nodes : List Nat} (hnodup : nodes.Nodup) :
    (nodes.flatMap (owner c ids)).Nodup := by
  have hmem : ∀ {i a}, a ∈ owner c ids i → ∃ s t, ids[i]? = some s ∧ c.types.load s = some t ∧
      a = t.value.elements ∧ t.value.elements ≠ 0 := by
    intro i a ha
    unfold owner at ha
    cases hs : ids[i]? with
    | none => simp [hs] at ha
    | some s =>
      cases ht : c.types.load s with
      | none => simp [hs, ht] at ha
      | some t =>
        simp only [hs, Option.bind_some, ht, Option.elim_some] at ha
        exact ⟨s, t, rfl, ht, AmqpType.mem_arrays.1 ha⟩
  refine List.nodup_flatMap.2 ⟨fun i _ => ?_, hnodup.imp fun {i j} hij => ?_⟩
  · unfold owner
    cases ids[i]?.bind c.types.load with
    | none => exact .nil
    | some t =>
      rw [Option.elim_some, AmqpType.arrays]
      split
      · exact .nil
      · exact List.nodup_singleton _
  · intro a hai haj
    obtain ⟨s, t, hs, ht, rfl, hne⟩ := hmem hai
    obtain ⟨s', t', hs', ht', heq, -⟩ := hmem haj
    exact hij (h.distinct i j s s' t t' hs hs' ht ht' heq hne)

/-- The types that calls made, and what is in memory. -/
structure Encoded (base : Context) (live : Finset Slot) (c : Context) (ids : List Slot) (d : Draft) : Prop where
  made : Made base live c ids.toFinset []
  drafted : ∃ held, Drafted c held ids d
  tidy : d.Tidy

theorem Encoded.mem_dom {base : Context} (h : Encoded base live c ids d) (a : Nat) :
    a ∈ c.arrays.dom ↔ a ∈ base.arrays.dom ∨
      a ∈ (List.range' 0 ids.length).flatMap (owner c ids) := by
  obtain ⟨held, hd⟩ := h.drafted
  constructor
  · intro ha
    refine (h.made.owned a ha).imp_right ?_
    rintro ⟨s, hs, t, ht, rfl⟩
    obtain ⟨i, hi⟩ := List.mem_iff_getElem?.1 (List.mem_toFinset.1 hs)
    have hlt := (List.getElem?_eq_some_iff.1 hi).1
    refine List.mem_flatMap.2 ⟨i, List.mem_range'_1.2 ⟨Nat.zero_le i, by omega⟩, ?_⟩
    rw [owner_eq hi ht, AmqpType.mem_arrays]
    refine ⟨rfl, fun h0 => ?_⟩
    rw [h0] at ha
    obtain ⟨v, hv⟩ := Heap.mem_dom_iff.1 ha
    simp at hv
  · rintro (ha | ha)
    · obtain ⟨v, hv⟩ := Heap.mem_dom_iff.1 ha
      exact Heap.mem_dom_iff.2 ⟨v, by rw [h.made.kept a ha, hv]⟩
    · obtain ⟨i, hi, ha⟩ := List.mem_flatMap.1 ha
      have hlt := List.mem_range'_1.1 hi
      obtain ⟨s, r, t, hs, hr, ht, hag, hown⟩ := hd.planted (i := i) (by have := hd.length; omega)
      rw [hown, AmqpType.mem_arrays] at ha
      obtain ⟨rfl, hne⟩ := ha
      by_cases hm : r.members = []
      · exact absurd (hag.noMembers hm) hne
      · obtain ⟨l, hl, -⟩ := hag.elements hm
        exact Heap.mem_dom_iff.2 ⟨l, hl⟩

theorem Encoded.fresh {base : Context} (h : Encoded base live c ids d) {a : Nat}
    (ha : a ∈ (List.range' 0 ids.length).flatMap (owner c ids)) : a ∉ base.arrays.dom := by
  obtain ⟨held, hd⟩ := h.drafted
  obtain ⟨i, hi, ha⟩ := List.mem_flatMap.1 ha
  have hlt := List.mem_range'_1.1 hi
  obtain ⟨s, r, t, hs, hr, ht, hag, hown⟩ := hd.planted (i := i) (by have := hd.length; omega)
  rw [hown, AmqpType.mem_arrays] at ha
  rw [ha.1]
  exact h.made.new s (List.mem_toFinset.2 (List.mem_of_getElem? hs)) t ht

theorem Encoded.balanced {base c'' : Context} (h : Encoded base live c ids d)
    (hr : Ready AmqpType.Blank base live)
    (hrel : Releases c (live ∪ ids.toFinset) c'' ids
      ((List.range' 0 ids.length).flatMap (owner c ids))) : Balanced base live c c'' := by
  obtain ⟨held, hd⟩ := h.drafted
  have hlive := hrel.held
  rw [Finset.union_sdiff_right, Finset.sdiff_eq_self_of_disjoint h.made.apart] at hlive
  obtain ⟨R, hR, hperm⟩ := hrel.released
  obtain ⟨A, hA, hpermA⟩ := hrel.freed
  refine ⟨⟨ids.toFinset, R, h.made.apart, h.made.ready.held.mono fun _ _ => trivial, hR,
    hperm.nodup_iff.2 hd.nodup, List.toFinset_eq_of_perm _ _ hperm⟩,
    ⟨_, A, hd.arrays_nodup (List.nodup_range'), fun a ha => h.fresh ha, h.mem_dom, hA, hpermA⟩, hlive,
    fun a => ?_, ?_⟩
  · rw [hrel.dom, h.mem_dom]
    exact ⟨fun ha => ha.1.resolve_right ha.2, fun ha => ⟨.inl ha, fun hm => h.fresh hm ha⟩⟩
  · rw [hlive.card, hr.held.card]

/-- What calls for one value leave behind. -/
theorem CallTree.encode_encoded {cs : CallTree} {b b' : Buffer} {types : List (Option Slot)}
    (hr : Ready AmqpType.Blank c live) (hc : c.container = none) (hcall : cs.encode c b = .ok (types, c', b')) :
    ∃ ids y roots, Encoded c live c' ids y.2.1 ∧ types = y.1.map (·.bind (ids[·]?)) ∧
      Trees ⟨[], [], c.continueOnUsageError⟩ cs y roots ∧ types.reduceOption = ids := by
  have hlock := (cs.encode_lockstep (b := b) (hr.drafted hc)).ends
  have hmade := cs.encode_made (b := b) (Made.refl hr hc) (hr.drafted hc)
  rw [hcall] at hlock hmade
  obtain ⟨y, hy, hf⟩ := hlock
  obtain ⟨live', ids, hd, htypes, -⟩ := hf.drafted
  obtain ⟨roots, htrees⟩ := cs.draft_grown ⟨fun i r hi => by simp at hi, fun F hF => by cases hF⟩ hy
  rw [List.nil_append] at hd htypes
  have hall : types.reduceOption = ids := by
    have hlen : y.2.1.types.length = ids.length := hd.length.symm
    rw [show types = _ from htypes, reduceOption_map_bind, htrees.all, hlen]
    exact slotsAt_range ids
  refine ⟨ids, y, roots, ⟨?_, ⟨live', hd⟩, htrees.tidy⟩, htypes, htrees, hall⟩
  have hmade : Made c live c' (∅ ∪ types.reduceOption.toFinset) [] := hmade
  rwa [hall, Finset.empty_union] at hmade

/-- Calls for one value, and the release of the type that they return. -/
theorem CallTree.encode_releases {cs : CallTree} {b b' : Buffer} {type : Option Slot}
    {types : List (Option Slot)} (hr : Ready AmqpType.Blank c live) (hc : c.container = none)
    (hone : cs.length = 1) (hcall : cs.encode c b = .ok (type :: types, c', b')) :
    ∃ ids d c'', Encoded c live c' ids d ∧ amqpDeallocateType c' type = .ok c'' ∧
      Releases c' (live ∪ ids.toFinset) c'' ids
        ((List.range' 0 ids.length).flatMap (owner c' ids)) := by
  obtain ⟨ids, ⟨qs, d, b1⟩, roots, henc, htypes, htrees, hall⟩ := encode_encoded hr hc hcall
  obtain ⟨held, hd⟩ := henc.drafted
  obtain ⟨-, block, hblock, hspans⟩ := htrees.grown
  have hroots := htrees.one hone
  have hlen : block.length = ids.length := by
    rw [hd.length, ← Draft.length_children, hblock]
    simp [Draft.children]
  cases qs with
  | nil => cases htypes
  | cons q qs =>
    obtain ⟨rfl, -⟩ := List.cons.inj htypes
    rw [show (Draft.children ⟨[], [], c.continueOnUsageError⟩).length = 0 from rfl, hlen] at hspans
    have hlive : Live (fun _ => True) c'.types (live ∪ ids.toFinset) :=
      henc.made.ready.held.mono fun _ _ => trivial
    cases q with
    | none =>
      obtain rfl : roots = [] := hroots
      have hnil : ids = [] := by
        generalize hn : List.range' 0 ids.length = nodes at hspans
        cases hspans
        simpa using hn
      subst hnil
      refine ⟨_, _, c', henc, ?_, ?_⟩
      · show deallocateType _ c' none = _
        cases c'.types.outstandingAllocations <;> rfl
      · simpa using Releases.refl hlive
    | some i =>
      obtain rfl : roots = [i] := hroots
      generalize hn : List.range' 0 ids.length = nodes at hspans
      cases hspans with
      | @cons _ kids below _ rest hi hkids hrest =>
        cases hrest
        rw [List.append_nil] at hn
        have hmem : ∀ j, j ∈ i :: below ↔ j < ids.length := by
          intro j
          rw [← hn, List.mem_range'_1]
          omega
        have hslots : slotsAt ids (i :: below) = ids := by rw [← hn, slotsAt_range]
        have hcard : (i :: below).length ≤ c'.types.outstandingAllocations := by
          rw [← hn, List.length_range', hlive.card, ← List.toFinset_card_of_nodup hd.nodup]
          exact Finset.card_le_card Finset.subset_union_right
        obtain ⟨fuel, hfuel⟩ : ∃ k, c'.types.outstandingAllocations = k + 1 :=
          ⟨_, (Nat.succ_pred_eq_of_pos (Nat.lt_of_lt_of_le (Nat.succ_pos _) hcard)).symm⟩
        have hilt := (hmem i).1 (.head _)
        have hplanted : ∀ j ∈ i :: below, Planted c' ids d (owner c' ids) j :=
          fun j hj => hd.planted (by have := hd.length; have := (hmem j).1 hj; omega)
        obtain ⟨s, r, t, hs, hr', -⟩ := hplanted i (.head _)
        obtain rfl : r.members = kids := by
          rw [show (qs, d, b1).2.1 = d from rfl, Draft.children, List.getElem?_map, hr'] at hi
          exact Option.some.inj hi
        have hnone : r.members = [] → below = [] := by
          intro hm
          rw [hm] at hkids
          cases hkids
          rfl
        rw [List.length_cons, hfuel] at hcard
        have hsub : ∀ x ∈ slotsAt ids (i :: below), x ∈ live ∪ ids.toFinset := by
          intro x hx
          rw [hslots] at hx
          exact Finset.mem_union_right _ (List.mem_toFinset.2 hx)
        obtain ⟨c'', hrun, hrel⟩ := discard_type fuel (release_spans henc.tidy hkids) hnone
          (Nat.le_of_succ_le_succ hcard) (henc.tidy.types i r hr') hs hr' (hplanted i (.head _))
          (fun j hj => hplanted j (.tail _ hj)) hlive hsub (by rw [hslots]; exact hd.nodup)
          (hd.arrays_nodup (hn ▸ List.nodup_range'))
        refine ⟨ids, _, c'', henc, ?_, ?_⟩
        · show deallocateType _ c' ids[i]? = _
          rw [hs, hfuel]
          exact hrun
        · rw [hn]
          rwa [hslots] at hrel

/-- Calls for one value, and the release of the type that they return, give everything back that they
took. -/
theorem CallTree.encode_release {cs : CallTree} {b b' : Buffer} {type : Option Slot}
    {types : List (Option Slot)} (hr : Ready AmqpType.Blank c live) (hc : c.container = none)
    (hone : cs.length = 1) (hcall : cs.encode c b = .ok (type :: types, c', b')) :
    ∃ c'', amqpDeallocateType c' type = .ok c'' ∧ Balanced c live c' c'' := by
  obtain ⟨ids, d, c'', henc, hrun, hrel⟩ := encode_releases hr hc hone hcall
  exact ⟨c'', hrun, henc.balanced hr hrel⟩

/-- A list of a described number and an array of two symbols. -/
def listOfTwo : CallTree :=
  .container .list8
    (.container .described (.leaf (.scalar (.ulong 20)) (.leaf (.scalar (.uint 300)) .nil))
      (.container .array8 (.leaf (.symbolSym8 [0x61]) (.leaf (.symbolSym8 [0x62]) .nil)) .nil)) .nil

theorem listOfTwo_release : ∃ type types c' b' c'',
    listOfTwo.encode (Context.create Malloc.bump 21) (.received []) = .ok (type :: types, c', b') ∧
      amqpDeallocateType c' type = .ok c'' ∧ Balanced (Context.create Malloc.bump 21) ∅ c' c'' := by
  have hr := (create_ready Malloc.bump (n := 21) (by decide) (by decide)).blank
  have hthird : listOfTwo.NoThird := by simp [listOfTwo, CallTree.NoThird, CallTree.length]
  have hroom : listOfTwo.HasRoom (.received []) listOfTwo.wire.length := .inl (by decide +kernel)
  obtain ⟨s, types, c', b', -, hcall, -⟩ := CallTree.encode_container hr rfl hthird hroom
  obtain ⟨c'', hrun, hbal⟩ := CallTree.encode_release hr rfl rfl hcall
  exact ⟨some s, types, c', b', c'', hcall, hrun, hbal⟩

/-- What a release leaves alone in the context. -/
structure Settings (c c' : Context) : Prop where
  container : c'.container = c.container
  malloc : c'.malloc = c.malloc
  limit : c'.limit = c.limit
  usage : c'.continueOnUsageError = c.continueOnUsageError
  initializer : c'.types.initializerCallback = c.types.initializerCallback
  zero : c'.types.zero = c.types.zero

theorem Settings.refl (c : Context) : Settings c c := ⟨rfl, rfl, rfl, rfl, rfl, rfl⟩

theorem Settings.trans {c1 : Context} (h : Settings c c1) (h' : Settings c1 c') : Settings c c' :=
  ⟨h'.container.trans h.container, h'.malloc.trans h.malloc, h'.limit.trans h.limit,
    h'.usage.trans h.usage, h'.initializer.trans h.initializer, h'.zero.trans h.zero⟩

theorem deallocateElements_settings {deallocate : Deallocate}
    (h : ∀ c p, Yields (Settings c) (deallocate c p)) (array : Nat) : ∀ (n i : Nat) (c : Context),
    Yields (Settings c) (deallocateElements deallocate array n i c) := by
  intro n
  induction n with
  | zero => exact fun _ c => Settings.refl c
  | succ n ih =>
    intro i c
    refine Yields.any fun p => (h c p).bind fun c1 h1 => ?_
    exact (ih (i + 1) c1).mono (fun c2 h2 => h1.trans h2) fun _ _ => trivial

theorem freeArray_settings (array : Nat) : Yields (Settings c) (c.freeArray array) := by
  unfold Context.freeArray
  split
  · trivial
  · exact ⟨rfl, rfl, rfl, rfl, rfl, rfl⟩

theorem deleteType_settings (s : Slot) : Yields (Settings c) (c.deleteType s) := by
  unfold Context.deleteType
  cases h : amqpDeallocate c.types s with
  | error e => trivial
  | ok types => exact ⟨rfl, rfl, rfl, rfl, (amqpDeallocate_keeps h).2, (amqpDeallocate_keeps h).1⟩

theorem deallocateType_settings : ∀ (fuel : Nat) (c : Context) (p : Option Slot),
    Yields (Settings c) (deallocateType fuel c p) := by
  intro fuel
  induction fuel with
  | zero =>
    intro c p
    cases p with
    | none => exact Settings.refl c
    | some s => trivial
  | succ fuel ih =>
    intro c p
    cases p with
    | none => exact Settings.refl c
    | some s =>
      have helements : ∀ c t, Yields (Settings c) (cleanupElements (deallocateType fuel) c t) := by
        intro c t
        unfold cleanupElements deallocateAmqpTypeArray
        split
        · split
          · refine (deallocateElements_settings ih _ _ 0 c).bind fun c1 h1 => ?_
            exact (freeArray_settings _).mono (fun c2 h2 => h1.trans h2) fun _ _ => trivial
          · exact Settings.refl c
        · exact Settings.refl c
      have hconstructor : ∀ c t, Yields (Settings c) (cleanupConstructor (deallocateType fuel) c t) := by
        intro c t
        unfold cleanupConstructor
        split
        · exact ih c _
        · exact Settings.refl c
      have hcleanup : Yields (Settings c) (cleanupAmqpType (deallocateType fuel) c s) := by
        refine Yields.any fun t => (helements c t).bind fun c1 h1 => Yields.any fun t1 => ?_
        exact (hconstructor c1 t1).mono (fun c2 h2 => h1.trans h2) fun _ _ => trivial
      refine hcleanup.bind fun c1 h1 => ?_
      exact (deleteType_settings s).mono (fun c2 h2 => h1.trans h2) fun _ _ => trivial

/-- Calls for one value, and the release. What is left is ready for the next value if no type is in
use. -/
theorem CallTree.encode_discard {cs : CallTree} {b b' : Buffer} {type : Option Slot}
    {types : List (Option Slot)} (hr : Ready AmqpType.Blank c live) (hc : c.container = none)
    (hone : cs.length = 1) (hcall : cs.encode c b = .ok (type :: types, c', b')) :
    ∃ c'', amqpDeallocateType c' type = .ok c'' ∧ Balanced c live c' c'' ∧
      Ready (fun _ => True) c'' live ∧ (live = ∅ → Ready AmqpType.Blank c'' ∅) ∧ c''.container = none := by
  obtain ⟨ids, d, c'', henc, hrun, hrel⟩ := encode_releases hr hc hone hcall
  have hbal := henc.balanced hr hrel
  have hset : Yields (Settings c') (amqpDeallocateType c' type) := deallocateType_settings _ c' type
  rw [hrun] at hset
  have hset : Settings c' c'' := hset
  have hready := henc.made.ready
  have hinit := hset.initializer.trans hready.initializer
  have hlimit := hset.limit.trans hready.limit
  refine ⟨c'', hrun, hbal, ⟨⟨hbal.held, hinit⟩, hlimit⟩, ?_, hset.container.trans henc.made.nested⟩
  rintro rfl
  exact ⟨⟨hbal.held.of_empty (hset.zero ▸ hready.held.zero), hinit⟩, hlimit⟩

end
end
end Amqp
