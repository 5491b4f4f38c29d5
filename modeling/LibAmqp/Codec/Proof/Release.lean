import LibAmqp.Codec.Proof.Tree
import LibAmqp.Codec.Release

/-!
# A decoded tree is given back as a whole

`Releases c L c' S A`: from `c` to `c'` the types `S` and the arrays `A` were given back, each once,
and nothing else changed. `releasable` follows the layout of a decode, whose failure paths are
the nodes without elements or without a constructor.

* `amqpDecode_release`: `amqp_deallocate_type` on the result of a decode takes the context back to
  the types and arrays it had before.
-/

namespace Amqp

open Lib Memory

/-- The context `c` with the types `L` in use gave back the types `S` and the arrays `A`. -/
structure Releases (c : Context) (L : Finset Slot) (c' : Context) (S : List Slot) (A : List Nat) :
    Prop where
  held : Live (fun _ => True) c'.types (L \ S.toFinset)
  load : ∀ s ∈ L, s ∉ S → c'.types.load s = c.types.load s
  dom : ∀ a, a ∈ c'.arrays.dom ↔ a ∈ c.arrays.dom ∧ a ∉ A
  get : ∀ a, a ∉ A → c'.arrays.get a = c.arrays.get a
  released : ∃ R, c'.released = c.released ++ R ∧ R.Perm S
  freed : ∃ R, c'.freed = c.freed ++ R ∧ R.Perm A

section
variable {c c' c'' : Context} {L : Finset Slot} {S S' : List Slot} {A A' : List Nat}

theorem Releases.refl (h : Live (fun _ => True) c.types L) : Releases c L c [] [] where
  held := by simpa using h
  load _ _ _ := rfl
  dom a := by simp
  get _ _ := rfl
  released := ⟨[], by simp, .nil⟩
  freed := ⟨[], by simp, .nil⟩

theorem Releases.trans (h : Releases c L c' S A) (h' : Releases c' (L \ S.toFinset) c'' S' A') :
    Releases c L c'' (S ++ S') (A ++ A') where
  held := by
    have := h'.held
    rwa [sdiff_sdiff_left, Finset.sup_eq_union, ← List.toFinset_append] at this
  load s hs hn := by
    rw [List.mem_append, not_or] at hn
    rw [h'.load s (by simp [hs, hn.1]) hn.2, h.load s hs hn.1]
  dom a := by rw [h'.dom, h.dom, List.mem_append, not_or, and_assoc]
  get a hn := by
    rw [List.mem_append, not_or] at hn
    rw [h'.get a hn.2, h.get a hn.1]
  released := by
    obtain ⟨R, hR, hp⟩ := h.released
    obtain ⟨R', hR', hp'⟩ := h'.released
    exact ⟨R ++ R', by rw [hR', hR, List.append_assoc], hp.append hp'⟩
  freed := by
    obtain ⟨R, hR, hp⟩ := h.freed
    obtain ⟨R', hR', hp'⟩ := h'.freed
    exact ⟨R ++ R', by rw [hR', hR, List.append_assoc], hp.append hp'⟩

theorem Releases.perm (h : Releases c L c' S A) (hS : S.Perm S') (hA : A.Perm A') :
    Releases c L c' S' A' where
  held := by rw [← List.toFinset_eq_of_perm _ _ hS]; exact h.held
  load s hs hn := h.load s hs fun hm => hn (hS.mem_iff.1 hm)
  dom a := by rw [h.dom, hA.mem_iff]
  get a hn := h.get a fun hm => hn (hA.mem_iff.1 hm)
  released := by
    obtain ⟨R, hR, hp⟩ := h.released
    exact ⟨R, hR, hp.trans hS⟩
  freed := by
    obtain ⟨R, hR, hp⟩ := h.freed
    exact ⟨R, hR, hp.trans hA⟩

theorem deleteType_spec (h : Live (fun _ => True) c.types L) {s : Slot} (hs : s ∈ L) :
    ∃ c', c.deleteType s = .ok c' ∧ Releases c L c' [s] [] := by
  obtain ⟨types, hcall, hheld, hload, -, -⟩ := h.deallocate hs fun _ _ => trivial
  refine ⟨{ c with types := types, released := c.released ++ [s] }, ?_, ?_⟩
  · rw [Context.deleteType, hcall]
    rfl
  · refine ⟨?_, fun x hx hn => hload x ?_, fun a => by simp, fun _ _ => rfl, ⟨[s], rfl, .refl _⟩,
      ⟨[], by simp, .nil⟩⟩
    · rw [List.toFinset_cons, List.toFinset_nil, insert_empty_eq, ← Finset.erase_eq]
      exact hheld
    · rw [List.mem_singleton] at hn
      exact Finset.mem_erase.2 ⟨hn, hx⟩

theorem freeArray_spec (h : Live (fun _ => True) c.types L) {a : Nat} {l : List (Option Slot)}
    (ha : c.arrays.get a = some l) : ∃ c', c.freeArray a = .ok c' ∧ Releases c L c' [] [a] := by
  refine ⟨{ c with arrays := c.arrays.free a, freed := c.freed ++ [a] }, ?_, ?_⟩
  · simp only [Context.freeArray, ha]
  · refine ⟨by simpa using h, fun _ _ _ => rfl, fun x => ?_, fun x hx => ?_, ⟨[], by simp, .nil⟩,
      ⟨[a], rfl, .refl _⟩⟩
    · rw [List.mem_singleton, Heap.dom_free, c.arrays.nodup.mem_erase_iff]
      exact and_comm
    · rw [List.mem_singleton] at hx
      rw [Heap.get_free, if_neg hx]

end

/-! ## What a type owns -/

/-- The record of a node tells the destroyer callback what the node owns. -/
structure Owns (t : AmqpType) (n : Node) (kids : Layout) : Prop where
  notEncoded : t.typeIsEncoded = false
  elements : t.typeIsContainer = true → t.value.elements = n.array.getD 0
  count : t.typeIsContainer = true → n.array ≠ none → t.value.count = kids.length
  plain : t.typeIsContainer = false → n.array = none
  kids : n.array = none → kids = .nil
  holder : t.typeIsArray = true → t.value.constructor = n.holder.map Holder.slot
  noHolder : t.typeIsArray = false → n.holder = none

section
variable {c c' : Context} {L : Finset Slot} {inp : Input} {address : Nat} {n : Node}
  {kids F : Layout}

/-- The flags of a type without its state are those of its metadata, whether it was accepted or
not. -/
theorem Filled.flags {m : EncodingMetaData} {t t' : AmqpType} {role : TypedefFlags}
    (h : Filled inp address m n kids t t') (ht : t.constructor.typedefFlags = m.typedefFlags)
    (hrole : IsRole role) (mask : TypedefFlags) (hmask : mask &&& roleMask = 0#32)
    (hinv : isInvalid &&& mask = 0#32) :
    (t'.typedefFlagsSet role).typedefFlagsTest mask = (m.typedefFlags &&& mask != 0#32) := by
  rw [typedefFlagsTest_setRole hrole hmask, AmqpType.typedefFlagsTest]
  cases hacc : n.item.accepted with
  | true => rw [(h.accepted hacc).1, ht]
  | false =>
    rw [(h.rejected hacc).1]
    simp only [AmqpType.typedefFlagsSet]
    rw [or_and_of_disjoint hinv, ht]

theorem table_notEncoded : ∀ m ∈ typeLookupTable.toList, m.typedefFlags &&& isEncoded = 0#32 := by
  decide +kernel

theorem Fits.owns (h : Fits c inp address (· = AmqpType.zero) n kids) :
    ∃ t, c.types.load n.slot = some t ∧ Owns t n kids := by
  obtain ⟨t, role, hrole, ⟨_, k, rfl, ⟨-, hk⟩, hf⟩, hload⟩ := h.record
  refine ⟨_, hload, ?_⟩
  cases hl : amqpTypeMetaDataLookup n.item.code with
  | none =>
    simp only [hl] at hf hk
    obtain ⟨-, harr, hhold, rfl, rfl⟩ := hf
    have hflags : ∀ mask, mask &&& roleMask = 0#32 → isInvalid &&& mask = 0#32 →
        ((({ AmqpType.zero with constructor := k } : AmqpType).markInvalid
          .unknownFormatCode).typedefFlagsSet role).typedefFlagsTest mask = false := by
      intro mask hmask hinv
      rw [typedefFlagsTest_setRole hrole hmask, AmqpType.typedefFlagsTest]
      simp only [AmqpType.markInvalid, AmqpType.typedefFlagsSet]
      rw [or_and_of_disjoint hinv, hk.2]
      simp [AmqpType.zero]
    have hcon := hflags isContainerMask (by decide) (by decide)
    have harray := hflags isArray (by decide) (by decide)
    refine ⟨hflags isEncoded (by decide) (by decide), fun h => ?_, fun _ h => absurd harr h,
      fun _ => harr, fun _ => rfl, fun h => ?_, fun _ => hhold⟩
    · exact Bool.noConfusion (hcon.symm.trans h)
    · exact Bool.noConfusion (harray.symm.trans h)
  | some m =>
    simp only [hl] at hf hk
    have hm := (lookup_mem hl).1
    have htable := (table_flags m hm).2
    have hcon := hf.flags hk.2 hrole isContainerMask (by decide) (by decide)
    have harray := hf.flags hk.2 hrole isArray (by decide) (by decide)
    have hencoded := hf.flags hk.2 hrole isEncoded (by decide) (by decide)
    have hkind : (t.typedefFlagsSet role).typeIsContainer = true →
        m.kind.IsContainer ∨ m.typeDecoder = .list0 := by
      intro h
      have h := hcon.symm.trans h
      rw [bne_iff_ne, htable.1] at h
      simpa only [Kind.IsContainer, or_assoc] using h
    have hlist0 : m.typeDecoder = .list0 → m.kind = .zero := fun h => by
      simp [EncodingMetaData.kind, h, TypeDecoder.kind]
    refine ⟨?_, fun h => ?_, fun h ha => ?_, fun h => ?_, fun h => ?_, fun h => ?_, fun h => ?_⟩
    · rw [AmqpType.typeIsEncoded, hencoded, table_notEncoded m hm]
      rfl
    · rcases hkind h with hc | h0
      · exact (hf.container hc).1
      · obtain ⟨harr, -, -, hval⟩ := hf.leaf (.inl (hlist0 h0))
        show t.value.elements = _
        rw [harr, hval (hf.zero (hlist0 h0)), h0]
        rfl
    · rcases hkind h with hc | h0
      · exact (hf.container hc).2.2.2 ha
      · exact absurd (hf.leaf (.inl (hlist0 h0))).1 ha
    · refine (hf.leaf (hf.supported.resolve_right fun hc => ?_)).1
      have : (m.typedefFlags &&& isContainerMask != 0#32) = true := by
        rw [bne_iff_ne, htable.1]
        exact hc.imp_right (Or.imp_right .inl)
      exact Bool.noConfusion (h.symm.trans (hcon.trans this))
    · rcases hf.supported with hc | hc
      · exact (hf.leaf hc).2.2.1
      · exact (hf.container hc).2.2.1 h
    · have h := harray.symm.trans h
      rw [bne_iff_ne, htable.2.1] at h
      have := (hf.container (.inr (.inl h))).2.1
      show t.value.constructor = _
      rw [this]
      cases n.holder <;> rfl
    · refine hf.notArray fun hk => ?_
      have : (m.typedefFlags &&& isArray != 0#32) = true := by rw [bne_iff_ne, htable.2.1, hk]
      exact Bool.noConfusion (h.symm.trans (harray.trans this))

/-! ## The recursion -/

theorem Releases.reload {S : List Slot} {A : List Nat} {s : Slot} {t : AmqpType}
    (h : Releases c L c' S A) (hs : s ∈ L) (hn : s ∉ S) (hload : c.types.load s = some t) :
    c'.load s = .ok t := by
  simp only [Context.load, h.load s hs hn, hload]

/-- A type that owns nothing. -/
theorem release_plain {s : Slot} {t : AmqpType} (fuel : Nat) (hlive : Live (fun _ => True) c.types L)
    (hs : s ∈ L) (hload : c.types.load s = some t) (hel : t.value.elements = 0)
    (hcon : t.value.constructor = none) :
    ∃ c', deallocateType (fuel + 1) c (some s) = .ok c' ∧ Releases c L c' [s] [] := by
  obtain ⟨c', hcall, hrel⟩ := deleteType_spec hlive hs
  refine ⟨c', ?_, hrel⟩
  have hnull : deallocateType fuel c none = .ok c := by cases fuel <;> rfl
  have hl : c.load s = .ok t := by simp only [Context.load, hload]
  have hclean : cleanupAmqpType (deallocateType fuel) c s = .ok c := by
    simp only [cleanupAmqpType, cleanupElements, cleanupConstructor, hl, Fault.ok_bind,
      deallocateAmqpTypeArray, hel, hcon, hnull, ne_eq, not_true_eq_false, if_false, ite_self]
  rw [deallocateType, hclean, Fault.ok_bind, hcall]

/-- A list of types in an element array, from entry `i` on, can be given back. -/
def Releasable (inp : Input) (address : Nat) (F : Layout) : Prop :=
  ∀ (fuel a i : Nat) (c : Context) (L : Finset Slot) (l : List (Option Slot)),
    F.slots.length ≤ fuel → Laid c inp address (· = AmqpType.zero) F →
    Live (fun _ => True) c.types L → (∀ s ∈ F.slots, s ∈ L) → F.slots.Nodup → F.arrays.Nodup →
    a ∉ F.arrays → c.arrays.get a = some l → (∀ k < F.length, l[i + k]? = F.pointers[k]?) →
    ∃ c', deallocateElements (deallocateType fuel) a F.length i c = .ok c' ∧
      Releases c L c' F.slots F.arrays

/-- The elements of a type and their array. -/
theorem release_elements (hk : Releasable inp address kids) {fuel : Nat} {t : AmqpType}
    (hfuel : kids.slots.length ≤ fuel) (hfits : Fits c inp address (· = AmqpType.zero) n kids)
    (hown : Owns t n kids) (hlaid : Laid c inp address (· = AmqpType.zero) kids)
    (hlive : Live (fun _ => True) c.types L) (hsub : ∀ s ∈ kids.slots, s ∈ L)
    (hnodup : kids.slots.Nodup) (harrays : (n.array.toList ++ kids.arrays).Nodup) :
    ∃ c', cleanupElements (deallocateType fuel) c t = .ok c' ∧
      Releases c L c' kids.slots (n.array.toList ++ kids.arrays) := by
  unfold cleanupElements
  cases harr : n.array with
  | none =>
    obtain rfl := hown.kids harr
    refine ⟨c, ?_, .refl hlive⟩
    split
    · rename_i hcon
      rw [hown.elements hcon, harr]
      rfl
    · rfl
  | some a =>
    rw [harr] at harrays
    obtain ⟨hna, hka⟩ := List.nodup_cons.1 harrays
    have hcon : t.typeIsContainer = true := by
      cases hc : t.typeIsContainer with
      | true => rfl
      | false => rw [hown.plain hc] at harr; cases harr
    obtain ⟨l, hget, hlen, htake, -⟩ := hfits.elements a harr
    have hne : a ≠ 0 := by rintro rfl; simp at hget
    obtain ⟨c1, hcall, hrel⟩ := hk fuel a 0 c L l hfuel hlaid hlive hsub hnodup hka hna hget
      fun k hkl => by rw [← htake, List.getElem?_take, if_pos hkl, Nat.zero_add]
    obtain ⟨c2, hfree, hrel2⟩ := freeArray_spec hrel.held (a := a) (l := l) (by rw [hrel.get a hna, hget])
    refine ⟨c2, ?_, (hrel.trans hrel2).perm (by simp) ?_⟩
    · rw [if_pos hcon, deallocateAmqpTypeArray, hown.elements hcon, hown.count hcon (by simp [harr]),
        harr, Option.getD_some, if_pos hne, hcall, Fault.ok_bind, hfree]
    · exact List.perm_append_comm

/-- The constructor of an array's elements. -/
theorem release_holder {fuel : Nat} {t : AmqpType} (hfuel : n.holder ≠ none → fuel ≠ 0)
    (hown : Owns t n kids) (hlive : Live (fun _ => True) c.types L)
    (hholder : ∀ h, n.holder = some h → h.slot ∈ L ∧
      HoldsType c h.slot (HolderFits (· = AmqpType.zero) h.code)) :
    ∃ c', cleanupConstructor (deallocateType fuel) c t = .ok c' ∧
      Releases c L c' (n.holder.map Holder.slot).toList [] := by
  unfold cleanupConstructor
  cases hh : n.holder with
  | none =>
    refine ⟨c, ?_, .refl hlive⟩
    split
    · rename_i harr
      rw [Bool.and_eq_true] at harr
      rw [hown.holder harr.1, hh]
      cases fuel <;> rfl
    · rfl
  | some h =>
    have harr : t.typeIsArray = true := by
      cases ha : t.typeIsArray with
      | true => rfl
      | false => rw [hown.noHolder ha] at hh; cases hh
    obtain ⟨hin, th, role, -, ⟨_, k, rfl, -, rfl⟩, hlh⟩ := hholder h hh
    obtain ⟨fuel, rfl⟩ := Nat.exists_eq_succ_of_ne_zero (hfuel (by simp [hh]))
    obtain ⟨c', hcall, hrel⟩ := release_plain fuel hlive hin hlh rfl rfl
    refine ⟨c', ?_, hrel⟩
    rw [if_pos (by rw [harr, hown.notEncoded]; rfl), hown.holder harr, hh]
    exact hcall

theorem release_node (hk : Releasable inp address kids) (fuel : Nat)
    (hfuel : ((n.holder.map Holder.slot).toList ++ kids.slots).length ≤ fuel)
    (hfits : Fits c inp address (· = AmqpType.zero) n kids)
    (hlaid : Laid c inp address (· = AmqpType.zero) kids) (hlive : Live (fun _ => True) c.types L)
    (hsub : ∀ s ∈ n.slot :: ((n.holder.map Holder.slot).toList ++ kids.slots), s ∈ L)
    (hnodup : (n.slot :: ((n.holder.map Holder.slot).toList ++ kids.slots)).Nodup)
    (harrays : (n.array.toList ++ kids.arrays).Nodup) :
    ∃ c', deallocateType (fuel + 1) c (some n.slot) = .ok c' ∧
      Releases c L c' (n.slot :: ((n.holder.map Holder.slot).toList ++ kids.slots))
        (n.array.toList ++ kids.arrays) := by
  obtain ⟨t, hload, hown⟩ := hfits.owns
  obtain ⟨hself, hnodup⟩ := List.nodup_cons.1 hnodup
  rw [List.nodup_append] at hnodup
  rw [List.mem_append, not_or] at hself
  rw [List.length_append] at hfuel
  have hsl : n.slot ∈ L := hsub _ (.head _)
  obtain ⟨c1, hcall1, hrel1⟩ := release_elements hk (t := t)
    (Nat.le_trans (Nat.le_add_left _ _) hfuel) hfits hown hlaid hlive
    (fun s hs => hsub s (.tail _ (List.mem_append_right _ hs))) hnodup.2.1 harrays
  have hload1 := hrel1.reload hsl hself.2 hload
  obtain ⟨c2, hcall2, hrel2⟩ : ∃ c2, cleanupConstructor (deallocateType fuel) c1 t = .ok c2 ∧
      Releases c1 (L \ kids.slots.toFinset) c2 (n.holder.map Holder.slot).toList [] := by
    refine release_holder (fun hh => ?_) hown hrel1.held fun h hh => ?_
    · obtain ⟨h, hh⟩ := Option.ne_none_iff_exists'.1 hh
      rw [hh] at hfuel
      simp only [Option.map_some, Option.toList_some, List.length_singleton] at hfuel
      omega
    · rw [hh] at hnodup hsub
      have hmem : h.slot ∉ kids.slots := fun hm =>
        hnodup.2.2 _ (List.mem_singleton.2 rfl) _ hm rfl
      have hin : h.slot ∈ L := hsub _ (by simp)
      exact ⟨by simp [hin, hmem], (hfits.holder h hh).1.congr (hrel1.load _ hin hmem)⟩
  obtain ⟨c3, hcall3, hrel3⟩ := deleteType_spec hrel2.held (s := n.slot) (by
    simp only [Finset.mem_sdiff, List.mem_toFinset]
    exact ⟨⟨hsl, hself.2⟩, hself.1⟩)
  rw [sdiff_sdiff_left, Finset.sup_eq_union, ← List.toFinset_append] at hrel3
  refine ⟨c3, ?_, ((hrel1.trans hrel2).trans hrel3).perm ?_ ?_⟩
  · have hl : c.load n.slot = .ok t := by simp only [Context.load, hload]
    rw [deallocateType, cleanupAmqpType, hl, Fault.ok_bind, hcall1, Fault.ok_bind, hload1,
      Fault.ok_bind, hcall2, Fault.ok_bind, hcall3]
  · exact (List.perm_append_singleton _ _).trans (List.perm_append_comm.cons _)
  · simp

theorem releasable (inp : Input) (address : Nat) (F : Layout) : Releasable inp address F := by
  induction F with
  | nil =>
    intro fuel a i c L l _ _ hlive _ _ _ _ _ _
    exact ⟨c, rfl, .refl hlive⟩
  | hole rest ih =>
    intro fuel a i c L l hfuel hlaid hlive hsub hnodup harrays ha hget hptr
    obtain ⟨c', hcall, hrel⟩ := ih fuel a (i + 1) c L l hfuel hlaid hlive hsub hnodup harrays ha hget
      fun k hk => by rw [Nat.add_right_comm]; exact hptr (k + 1) (Nat.succ_lt_succ hk)
    refine ⟨c', ?_, hrel⟩
    have h0 : l[i]? = some none := hptr 0 (Nat.succ_pos _)
    have hnull : deallocateType fuel c none = .ok c := by cases fuel <;> rfl
    simp only [Forest.length, deallocateElements, Context.getElement, hget, h0, Fault.ok_bind, hnull,
      hcall]
  | node n kids rest ihk ihr =>
    intro fuel a i c L l hfuel hlaid hlive hsub hnodup harrays ha hget hptr
    obtain ⟨hfits, hkids, hrest⟩ := hlaid
    rw [Layout.slots, ← List.append_assoc, ← List.cons_append] at hsub hnodup hfuel
    rw [Layout.arrays, ← List.append_assoc] at harrays ha
    rw [List.nodup_append] at hnodup harrays
    rw [List.mem_append, not_or] at ha
    rw [List.length_append, List.length_cons] at hfuel
    obtain ⟨fuel, rfl⟩ : ∃ k, fuel = k + 1 := ⟨fuel - 1, by omega⟩
    obtain ⟨c1, hcall1, hrel1⟩ := release_node ihk fuel (by omega) hfits hkids hlive
      (fun s hs => hsub s (List.mem_append_left _ hs)) hnodup.1 harrays.1
    -- the rest of the list is untouched by that
    have hrest1 : Laid c1 inp address (· = AmqpType.zero) rest := Laid.frame hrest
      (fun s hs => hrel1.load s (hsub s (List.mem_append_right _ hs))
        fun hm => hnodup.2.2 s hm s hs rfl)
      fun x hx => hrel1.get x fun hm => harrays.2.2 x hm x hx rfl
    obtain ⟨c2, hcall2, hrel2⟩ := ihr (fuel + 1) a (i + 1) c1 _ l (by omega) hrest1 hrel1.held
      (fun s hs => by
        rw [Finset.mem_sdiff, List.mem_toFinset]
        exact ⟨hsub s (List.mem_append_right _ hs), fun hm => hnodup.2.2 s hm s hs rfl⟩)
      hnodup.2.1 harrays.2.1 ha.2 (by rw [hrel1.get a ha.1, hget])
      fun k hk => by rw [Nat.add_right_comm]; exact hptr (k + 1) (Nat.succ_lt_succ hk)
    have h0 : l[i]? = some (some n.slot) := hptr 0 (Nat.succ_pos _)
    refine ⟨c2, ?_, ?_⟩
    · simp only [Forest.length, deallocateElements, Context.getElement, hget, h0, Fault.ok_bind,
        hcall1, hcall2]
    · have := hrel1.trans hrel2
      rwa [List.cons_append, List.append_assoc, List.append_assoc] at this

/-- What a decode and the release of its result did together: the types and arrays it took, each
given back once. -/
structure Balanced (c : Context) (live : Finset Slot) (c' c'' : Context) : Prop where
  types : ∃ (taken : Finset Slot) (R : List Slot), Disjoint live taken ∧
    Live (fun _ => True) c'.types (live ∪ taken) ∧ c''.released = c'.released ++ R ∧ R.Nodup ∧
    R.toFinset = taken
  arrays : ∃ (taken R : List Nat), taken.Nodup ∧ (∀ a ∈ taken, a ∉ c.arrays.dom) ∧
    (∀ a, a ∈ c'.arrays.dom ↔ a ∈ c.arrays.dom ∨ a ∈ taken) ∧ c''.freed = c'.freed ++ R ∧
    R.Perm taken
  held : Live (fun _ => True) c''.types live
  dom : ∀ a, a ∈ c''.arrays.dom ↔ a ∈ c.arrays.dom
  outstanding : c''.types.outstandingAllocations = c.types.outstandingAllocations

theorem Lays.balanced {P : AmqpType → Prop} {O : Forest Item} {c'' : Context} {live : Finset Slot}
    (h : Lays P 0 inp address c live O c' F) (hr : Ready P c live)
    (hrel : Releases c' (live ∪ F.slots.toFinset) c'' F.slots F.arrays) : Balanced c live c' c'' := by
  have hg := h.grows
  have hdis : Disjoint live F.slots.toFinset :=
    Finset.disjoint_right.2 fun s hs => hg.fresh s (List.mem_toFinset.1 hs)
  have hheld := hrel.held
  rw [Finset.union_sdiff_right, Finset.sdiff_eq_self_of_disjoint hdis] at hheld
  obtain ⟨R, hR, hperm⟩ := hrel.released
  obtain ⟨A, hA, hpermA⟩ := hrel.freed
  refine ⟨⟨_, R, hdis, hg.held.mono fun _ _ => trivial, hR, hperm.nodup_iff.2 hg.nodup,
    List.toFinset_eq_of_perm _ _ hperm⟩,
    ⟨F.arrays, A, hg.arraysNodup, hg.arraysFresh, hg.dom, hA, hpermA⟩, hheld, fun a => ?_, ?_⟩
  · rw [hrel.dom, hg.dom]
    refine ⟨fun ha => ha.1.resolve_right ha.2, fun ha => ⟨.inl ha, fun hm => ?_⟩⟩
    exact hg.arraysFresh a hm ha
  · rw [hheld.card, hr.held.card]

/-- The layout of one pointer. -/
theorem Layout.single {ptr : Option Slot} (h : F.pointers = [ptr]) :
    (ptr = none ∧ F = .hole .nil) ∨ ∃ n kids, ptr = some n.slot ∧ F = .node n kids .nil := by
  match F, h with
  | .hole .nil, h =>
    cases h
    exact .inl ⟨rfl, rfl⟩
  | .node n kids .nil, h =>
    cases h
    exact .inr ⟨n, kids, rfl, rfl⟩

/-- `amqp_deallocate_type` gives back the types and arrays of what it is given. -/
theorem amqpDeallocateType_spec {ptr : Option Slot} (hptr : F.pointers = [ptr])
    (hlaid : Laid c inp address (· = AmqpType.zero) F) (hlive : Live (fun _ => True) c.types L)
    (hsub : ∀ s ∈ F.slots, s ∈ L) (hnodup : F.slots.Nodup) (harrays : F.arrays.Nodup) :
    ∃ c', amqpDeallocateType c ptr = .ok c' ∧ Releases c L c' F.slots F.arrays := by
  have hcard : F.slots.length ≤ c.types.outstandingAllocations := by
    rw [hlive.card, ← List.toFinset_card_of_nodup hnodup]
    exact Finset.card_le_card fun s hs => hsub s (List.mem_toFinset.1 hs)
  unfold amqpDeallocateType
  rcases Layout.single hptr with ⟨rfl, rfl⟩ | ⟨n, kids, rfl, rfl⟩
  · refine ⟨c, ?_, .refl hlive⟩
    cases c.types.outstandingAllocations <;> rfl
  · simp only [Layout.slots, Layout.arrays, List.append_nil] at hcard hsub hnodup harrays ⊢
    obtain ⟨fuel, hfuel⟩ : ∃ k, c.types.outstandingAllocations = k + 1 :=
      ⟨_, (Nat.succ_pred_eq_of_pos (Nat.lt_of_lt_of_le (Nat.succ_pos _) hcard)).symm⟩
    rw [hfuel] at hcard ⊢
    exact release_node (releasable inp address kids) fuel (Nat.le_of_succ_le_succ hcard) hlaid.1
      hlaid.2.1 hlive hsub hnodup harrays

/-- Releasing the result of a decode gives back what the decode took. -/
theorem amqpDecode_release {b b' : Buffer} {ptr : Option Slot} {live : Finset Slot}
    (hr : Ready (· = AmqpType.zero) c live) (hi : b.index ≤ b.size)
    (hcall : amqpDecode c b = .ok (ptr, c', b')) :
    ∃ c'', amqpDeallocateType c' ptr = .ok c'' ∧ Balanced c live c' c'' := by
  obtain ⟨-, F, hlays, hptr⟩ := amqpDecode_ok hr hi hcall
  have hg := hlays.grows
  have hheld : Live (fun _ => True) c'.types (live ∪ F.slots.toFinset) :=
    hg.held.mono fun _ _ => trivial
  have hsub : ∀ s ∈ F.slots, s ∈ live ∪ F.slots.toFinset := fun s hs => by simp [hs]
  obtain ⟨c'', hrun, hrel⟩ := amqpDeallocateType_spec hptr hlays.laid hheld hsub hg.nodup
    hg.arraysNodup
  exact ⟨c'', hrun, hlays.balanced hr hrel⟩

/-- A map whose second value is cut off, in a list. -/
theorem amqpDecode_release_truncated : ∃ ptr c' b' c'',
    amqpDecode (Context.create Malloc.bump 21) (.received
      [0xc0, 0x0a, 0x02, 0xe0, 0x03, 0x01, 0x40, 0xc1, 0x03, 0x02, 0x50, 0x07]) = .ok (ptr, c', b') ∧
      amqpDeallocateType c' ptr = .ok c'' ∧ Balanced (Context.create Malloc.bump 21) ∅ c' c'' := by
  have hr := create_ready Malloc.bump (n := 21) (by decide) (by decide)
  obtain ⟨ptr, c', F, hcall, -, -⟩ := (amqpDecode_simulates hr (b := .received
    [0xc0, 0x0a, 0x02, 0xe0, 0x03, 0x01, 0x40, 0xc1, 0x03, 0x02, 0x50, 0x07])
    (by decide)).1 (by decide +kernel)
  obtain ⟨c'', hrun, hbal⟩ := amqpDecode_release hr (by decide) hcall
  exact ⟨ptr, c', _, c'', hcall, hrun, hbal⟩

end
end Amqp
