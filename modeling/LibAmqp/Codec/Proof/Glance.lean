import LibAmqp.Codec.Proof.Release
import LibAmqp.Codec.Reading

/-!
# What can be read off a decoded type

`Glance`: everything a reader of a decoded type sees when the types started as zero bytes, accepted
or not, as a function of the bytes it was decoded from.

* `Fits.glance`: the types of a layout are seen so.
* `outline_regular`: what the outline of some bytes is known to satisfy beyond that.
-/

namespace Amqp

open Lib Memory

namespace Item

/-- `amqp_typedef_flags_test`, by the format code. -/
def is (item : Item) (mask : TypedefFlags) : Bool := codeFlags item.code &&& mask != 0#32

/-- The value union of a number, a boolean or an empty list. -/
def number (inp : Input) (item : Item) : Value := (item.glimpse inp).number

/-- A type whose value union is its value. -/
def IsNumber (item : Item) : Prop :=
  ∃ m, item.metaData = some m ∧ (m.kind = .zero ∨ m.kind = .fixed ∧ m.typeDecoder ≠ .char)

end Item

structure Glance (c : Context) (inp : Input) (address : Nat) (n : Node) (kids : Layout)
    (t : AmqpType) : Prop where
  load : c.types.load n.slot = some t
  metaData : t.constructor.metaData = n.item.metaData
  flags : ∀ mask, mask &&& roleMask = 0#32 → isInvalid &&& mask = 0#32 →
    t.typedefFlagsTest mask = n.item.is mask
  invalid : t.typeIsInvalid = !n.item.accepted
  size : n.item.metaData ≠ none → t.position.size = n.item.size
  index : n.item.metaData ≠ none → n.item.size ≠ 0 → t.position.index = n.item.index
  number : n.item.IsNumber → t.value = n.item.number inp
  text : n.item.kind = some .variableWidth → n.item.size ≠ 0 ∨ n.item.accepted = true →
    t.value.word = address
  count : n.item.is isContainerMask = true → (n.item.is isArray = true → n.item.accepted = true) →
    t.value.count = kids.length
  elements : n.item.is isContainerMask = true → ∀ i p, kids.pointers[i]? = some p →
    c.getElement t.value.elements i = .ok p
  beyond : n.item.is isContainerMask = true → ∀ p, c.getElement t.value.elements kids.length ≠ .ok (some p)
  noKids : n.item.is isContainerMask = false → kids = .nil
  holder : n.item.is isArray = true → t.value.constructor = n.holder.map Holder.slot ∧
    ∃ m, n.item.metaData = some m ∧ n.holder.map Holder.code = n.item.elementCode inp m
  described : n.item.is isComposite = true → kids.length = 2
  holderFlags : ∀ h, n.holder = some h → ∃ th, c.types.load h.slot = some th ∧
    ∀ mask, mask &&& roleMask = 0#32 → th.typedefFlagsTest mask = (codeFlags h.code &&& mask != 0#32)
  kidsCode : ∀ h, n.holder = some h → ∀ kid, some kid ∈ kids.roots → kid.item.code = h.code

section
variable {c : Context} {inp : Input} {address : Nat} {n : Node} {kids : Layout} {t : AmqpType}

theorem Glance.loaded (h : Glance c inp address n kids t) : c.load n.slot = .ok t := by
  simp only [Context.load, h.load]

/-- The value of a number does not depend on the buffer's address. -/
theorem fill_address {m : EncodingMetaData} (hk : m.kind = .zero ∨ m.kind = .fixed) (a a' : Nat)
    (bytes : List UInt8) (v : Value) :
    m.typeDecoder.fill a bytes v = m.typeDecoder.fill a' bytes v := by
  simp only [EncodingMetaData.kind] at hk
  generalize m.typeDecoder = d at hk
  cases d <;> simp only [TypeDecoder.kind, reduceCtorEq, or_self] at hk <;> rfl

/-- A list, map or array, or a described type, by its flags. -/
theorem Item.container_of_is {item : Item} (h : item.is isContainerMask = true) :
    ∃ m, item.metaData = some m ∧ (m.kind.IsContainer ∨ m.typeDecoder = .list0) := by
  rw [Item.is, codeFlags] at h
  cases hl : amqpTypeMetaDataLookup item.code with
  | none =>
    rw [hl] at h
    simp at h
  | some m =>
    rw [hl, Option.elim, bne_iff_ne, (table_flags m (lookup_mem hl).1).2.1] at h
    exact ⟨m, hl, by simpa only [Kind.IsContainer, or_assoc] using h⟩

theorem Item.array_of_is {item : Item} (h : item.is isArray = true) :
    ∃ m, item.metaData = some m ∧ m.kind = .array := by
  rw [Item.is, codeFlags] at h
  cases hl : amqpTypeMetaDataLookup item.code with
  | none =>
    rw [hl] at h
    simp at h
  | some m =>
    rw [hl, Option.elim, bne_iff_ne, (table_flags m (lookup_mem hl).1).2.2.1] at h
    exact ⟨m, hl, h⟩

theorem Item.composite_of_is {item : Item} (h : item.is isComposite = true) :
    ∃ m, item.metaData = some m ∧ m.kind = .described := by
  rw [Item.is, codeFlags] at h
  cases hl : amqpTypeMetaDataLookup item.code with
  | none =>
    rw [hl] at h
    simp at h
  | some m =>
    rw [hl, Option.elim, bne_iff_ne, (table_flags m (lookup_mem hl).1).2.2.2.2.1] at h
    exact ⟨m, hl, h⟩

/-- A flag that is one of the containers' marks a container. -/
theorem Item.is_container {item : Item} {mask : TypedefFlags} (h : item.is mask = true)
    (hmask : mask &&& isContainerMask = mask) : item.is isContainerMask = true := by
  rw [Item.is, bne_iff_ne] at h ⊢
  intro h0
  refine h ?_
  rw [← hmask, BitVec.and_comm mask, ← BitVec.and_assoc, h0, BitVec.zero_and]

/-- The entries of an element array. -/
theorem ArrayHolds.getElement {a : Nat} (h : ArrayHolds c a kids) :
    (∀ i p, kids.pointers[i]? = some p → c.getElement a i = .ok p) ∧
      ∀ p, c.getElement a kids.length ≠ .ok (some p) := by
  obtain ⟨l, hl, hlen, htake, hdrop⟩ := h
  constructor
  · intro i p hp
    have hi : i < kids.length := by
      rw [← Layout.length_pointers]
      exact (List.getElem?_eq_some_iff.1 hp).1
    rw [← htake, List.getElem?_take, if_pos hi] at hp
    simp only [Context.getElement, hl, hp]
  · intro p hp
    simp only [Context.getElement, hl] at hp
    cases hx : l[kids.length]? with
    | none =>
      rw [hx] at hp
      cases hp
    | some x =>
      rw [hx, Except.ok.injEq] at hp
      have hmem : x ∈ l.drop kids.length := by
        refine List.mem_of_getElem? (i := 0) ?_
        rw [List.getElem?_drop, Nat.add_zero, hx]
      rw [hdrop x hmem] at hp
      cases hp

theorem HoldsType.holder_flags {h : Holder}
    (hh : HoldsType c h.slot (HolderFits (· = AmqpType.zero) h.code)) :
    ∃ th, c.types.load h.slot = some th ∧ ∀ mask, mask &&& roleMask = 0#32 →
      th.typedefFlagsTest mask = (codeFlags h.code &&& mask != 0#32) := by
  obtain ⟨th, role, hrole, ⟨_, k, rfl, ⟨-, hk⟩, rfl⟩, hload⟩ := hh
  refine ⟨_, hload, fun mask hmask => ?_⟩
  rw [typedefFlagsTest_setRole hrole hmask, AmqpType.typedefFlagsTest, codeFlags]
  cases hl : amqpTypeMetaDataLookup h.code with
  | none =>
    rw [hl] at hk
    rw [show k.typedefFlags = 0#32 from hk.2]
    rfl
  | some m =>
    rw [hl] at hk
    simp only [hk.2, Option.elim]

/-- An unknown type is empty. -/
theorem Fits.glance_unknown (h : Fits c inp address (· = AmqpType.zero) n kids)
    (hl : amqpTypeMetaDataLookup n.item.code = none) : ∃ t, Glance c inp address n kids t := by
  obtain ⟨t, role, hrole, hrec, hload⟩ := h.record
  have hvalid := hrec.valid
  obtain ⟨_, k, rfl, ⟨-, hk⟩, hf⟩ := hrec
  simp only [hl] at hf hk
  obtain ⟨hacc, harr, hhold, rfl, rfl⟩ := hf
  have hno : ∀ {mask : TypedefFlags} {p : Prop}, n.item.is mask = true → p := by
    intro mask p his
    rw [Item.is, codeFlags, hl] at his
    simp at his
  refine ⟨_, hload, ?_, fun mask hmask hinv => ?_, ?_, fun hm => absurd hl hm,
    fun hm => absurd hl hm, fun hn => ?_, fun hv => ?_,
    fun his => hno his, fun his => hno his, fun his => hno his, fun _ => rfl, fun his => hno his,
    fun his => hno his, fun d hd => ?_, fun d hd => ?_⟩
  · show k.metaData = _
    rw [hk.1, Item.metaData, hl]
    rfl
  · rw [typedefFlagsTest_setRole hrole hmask, AmqpType.typedefFlagsTest]
    simp only [AmqpType.markInvalid, AmqpType.typedefFlagsSet]
    rw [or_and_of_disjoint hinv, hk.2, Item.is, codeFlags, hl]
    rfl
  · rw [AmqpType.typeIsInvalid, typedefFlagsTest_setRole hrole (by decide), ← AmqpType.typeIsInvalid,
      hvalid]
  · obtain ⟨m, hm, -⟩ := hn
    rw [Item.metaData, hl] at hm
    cases hm
  · rw [Item.kind, Item.metaData, hl] at hv
    cases hv
  · rw [hhold] at hd
    cases hd
  · rw [hhold] at hd
    cases hd

/-- What is left of a type that is known, by what became of it. -/
theorem Filled.position {m : EncodingMetaData} {t t' : AmqpType}
    (hf : Filled inp address m n kids t t') (ht : t.position = ⟨0, 0⟩) :
    t'.position.size = n.item.size ∧ (n.item.size ≠ 0 → t'.position.index = n.item.index) := by
  have hplaced : t'.position = ⟨n.item.index, n.item.size⟩ →
      t'.position.size = n.item.size ∧ (n.item.size ≠ 0 → t'.position.index = n.item.index) := by
    intro h
    rw [h]
    exact ⟨rfl, fun _ => rfl⟩
  by_cases hacc : n.item.accepted = true
  · exact hplaced (hf.accepted hacc).2.2
  · by_cases hown : n.array ≠ none ∨ n.holder ≠ none
    · exact hplaced (hf.placed hown)
    · rw [not_or, not_not, not_not] at hown
      rcases hf.leftOver (by simpa using hacc) hown.1 hown.2 with h | h
      · rw [h.1, ht, h.2.1]
        exact ⟨rfl, fun h => absurd rfl h⟩
      · exact hplaced h.1

/-- A known type, accepted or not. -/
theorem Fits.glance_known (h : Fits c inp address (· = AmqpType.zero) n kids) {m : EncodingMetaData}
    (hl : amqpTypeMetaDataLookup n.item.code = some m) : ∃ t, Glance c inp address n kids t := by
  obtain ⟨towns, howns, hown⟩ := h.owns
  obtain ⟨t, role, hrole, hrec, hload⟩ := h.record
  rw [hload, Option.some.injEq] at howns
  subst howns
  have hvalid := hrec.valid
  obtain ⟨_, k, rfl, ⟨-, hk⟩, hf⟩ := hrec
  simp only [hl] at hf hk
  have hmeta : n.item.metaData = some m := hl
  have hmem := (lookup_mem hl).1
  have hpos := hf.position rfl
  have hflags : ∀ mask, mask &&& roleMask = 0#32 → isInvalid &&& mask = 0#32 →
      (t.typedefFlagsSet role).typedefFlagsTest mask = n.item.is mask := by
    intro mask hmask hinv
    rw [hf.flags hk.2 hrole mask hmask hinv, Item.is, codeFlags, hl]
    rfl
  have hcon : n.item.is isContainerMask = true → (t.typedefFlagsSet role).typeIsContainer = true :=
    fun his => by rw [AmqpType.typeIsContainer, hflags _ (by decide) (by decide), his]
  have hkind : n.item.is isContainerMask = true → m.kind.IsContainer ∨ m.typeDecoder = .list0 := by
    intro his
    obtain ⟨m', hm', hc⟩ := Item.container_of_is his
    rw [hmeta, Option.some.injEq] at hm'
    exact hm' ▸ hc
  have hlist0 : m.typeDecoder = .list0 → m.kind = .zero := fun h => by
    simp [EncodingMetaData.kind, h, TypeDecoder.kind]
  have hentries : n.item.is isContainerMask = true →
      (∀ i p, kids.pointers[i]? = some p → c.getElement t.value.elements i = .ok p) ∧
        ∀ p, c.getElement t.value.elements kids.length ≠ .ok (some p) := by
    intro his
    have hel : t.value.elements = n.array.getD 0 := hown.elements (hcon his)
    cases harr : n.array with
    | some a =>
      rw [hel, harr]
      exact (h.elements a harr).getElement
    | none =>
      obtain rfl := hown.kids harr
      rw [hel, harr]
      constructor
      · intro i p hp
        cases hp
      · intro p hp
        simp [Context.getElement, Heap.get_zero] at hp
  refine ⟨_, hload, ?_, hflags, ?_, fun _ => hpos.1, fun _ => hpos.2, fun hn => ?_, fun hv hs => ?_,
    fun his harr => ?_, fun his => (hentries his).1, fun his => (hentries his).2, fun his => ?_,
    fun his => ⟨?_, m, hmeta, ?_⟩, fun his => ?_, fun d hd => (h.holder d hd).1.holder_flags,
    fun d hd => (h.holder d hd).2⟩
  · show t.constructor.metaData = _
    rw [hmeta, ← hk.1]
    by_cases hacc : n.item.accepted = true
    · rw [(hf.accepted hacc).1]
    · rw [(hf.rejected (by simpa using hacc)).1]
      rfl
  · rw [AmqpType.typeIsInvalid, typedefFlagsTest_setRole hrole (by decide), ← AmqpType.typeIsInvalid,
      hvalid]
  · obtain ⟨m', hm', hnum⟩ := hn
    rw [hmeta, Option.some.injEq] at hm'
    subst hm'
    have hleaf : m.kind.IsLeaf := hnum.elim .inl fun h => .inr (.inl h.1)
    obtain ⟨harr, hhold, -, hval⟩ := hf.leaf hleaf
    show t.value = _
    have hnumber : n.item.number inp = if n.item.accepted = true then
        m.typeDecoder.fill 0 (inp.bytes n.item.index n.item.size) AmqpType.zero.value
        else AmqpType.zero.value := by
      have hm : (n.item.glimpse inp).metaData = some m := hl
      rw [Item.number, Glimpse.number, hm]
      rfl
    rw [hnumber]
    by_cases hacc : n.item.accepted = true
    · rw [hval hacc, if_pos hacc]
      exact fill_address (hnum.imp_right And.left) _ _ _ _
    · rw [if_neg hacc]
      rcases hf.leftOver (by simpa using hacc) harr hhold with h | h
      · exact h.2.2
      · rcases hnum with hz | ⟨hfix, hchar⟩
        · exact absurd (hf.zero hz) hacc
        · exact absurd (h.2.1 hfix) hchar
  · rw [Item.kind, hmeta, Option.map_some, Option.some.injEq] at hv
    obtain ⟨harr, hhold, -, hval⟩ := hf.leaf (.inr (.inr hv))
    show t.value.word = _
    by_cases hacc : n.item.accepted = true
    · rw [hval hacc, fill_variable hv]
    · rcases hf.leftOver (by simpa using hacc) harr hhold with h | h
      · exact absurd h.2.1 (hs.resolve_right hacc)
      · rw [h.2.2.1 hv]
  · show t.value.word = _
    rcases hkind his with hc | h0
    · by_cases harray : n.array = none
      · obtain rfl := hown.kids harray
        by_cases hacc : n.item.accepted = true
        · rcases hc with hc | hc | hc
          · exact absurd harray (hf.compound hacc hc).1
          · exact (hf.array hacc hc).2
          · exact absurd harray (hf.described hc).1
        · by_cases hhold : n.holder = none
          · rcases hf.leftOver (by simpa using hacc) harray hhold with h | h
            · rw [h.2.2]
              rfl
            · rw [h.2.2.2 hc]
              rfl
          · refine absurd (harr ?_) hacc
            have hka : m.kind = .array := by
              by_contra hne
              exact hhold (hf.notArray hne)
            rw [Item.is, codeFlags, hl, Option.elim, bne_iff_ne, (table_flags m hmem).2.2.1]
            exact hka
      · exact (hf.container hc).2.2.2 harray
    · obtain ⟨-, -, rfl, hval⟩ := hf.leaf (.inl (hlist0 h0))
      rw [hval (hf.zero (hlist0 h0)), h0]
      rfl
  · refine hown.kids (hown.plain ?_)
    rw [AmqpType.typeIsContainer, hflags _ (by decide) (by decide), his]
  · refine hown.holder ?_
    rw [AmqpType.typeIsArray, hflags _ (by decide) (by decide), his]
  · obtain ⟨m', hm', ha⟩ := Item.array_of_is his
    rw [hmeta, Option.some.injEq] at hm'
    exact hf.elementCode (hm' ▸ ha)
  · obtain ⟨m', hm', hd⟩ := Item.composite_of_is his
    rw [hmeta, Option.some.injEq] at hm'
    exact (hf.described (hm' ▸ hd)).2.2

theorem Fits.glance (h : Fits c inp address (· = AmqpType.zero) n kids) :
    ∃ t, Glance c inp address n kids t := by
  cases hl : amqpTypeMetaDataLookup n.item.code with
  | none => exact h.glance_unknown hl
  | some m => exact h.glance_known hl

/-! ## Outlines -/

/-- What the walk through an array or a described type leaves. -/
structure Item.Regular (inp : Input) (item : Item) (kids : Forest Item) : Prop where
  full : item.kind = some .array → kids.Full
  unknown : item.kind = some .array → item.accepted = false → ∀ m, item.metaData = some m →
    ∀ code, item.elementCode inp m = some code → amqpTypeMetaDataLookup code = none
  described : item.kind = some .described →
    item.accepted = (acceptedOf (kids.nth 0) && acceptedOf (kids.nth 1))

theorem Item.Regular.other {item : Item} {kids : Forest Item} {k : Kind} (h : item.kind = some k)
    (ha : k ≠ .array) (hd : k ≠ .described) : item.Regular inp kids := by
  refine ⟨fun h' => ?_, fun h' => ?_, fun h' => ?_⟩ <;> rw [h, Option.some.injEq] at h'
  · exact absurd h' ha
  · exact absurd h' ha
  · exact absurd h' hd

/-- An array whose bytes end before the constructor of its elements. -/
theorem Item.Regular.cutOff {item : Item} (hacc : item.accepted = false)
    (hk : item.kind = some .array) (hstop : ∀ m, item.metaData = some m →
      item.stop ≠ item.index + m.width + 1) : item.Regular inp .nil where
  full _ := trivial
  unknown _ _ m hm code hcode := by
    rw [Item.elementCode, hacc, Bool.false_or, if_neg (by simpa using hstop m hm)] at hcode
    cases hcode
  described hd := by
    rw [hk] at hd
    cases hd

theorem walkMany_full {next : Nat → Outline} (n : Nat) :
    ∀ i, (walkMany (fun i => some (next i)) n i).1.Full := by
  induction n with
  | zero => exact fun _ => trivial
  | succ n ih => exact fun i => ih _

theorem walkInto_regular (fuel : Nat) {m : EncodingMetaData} (hm : m ∈ typeLookupTable.toList)
    (start i : Nat) :
    (walkInto inp fuel m start i).1.Regular inp (walkInto inp fuel m start i).2 := by
  obtain ⟨hmeta, hkind⟩ := Item.kind_of_code hm (walkInto_code inp fuel m start i).1
  have hwidth : ∀ item : Item, item.code = m.formatCode → ∀ m', item.metaData = some m' →
      m'.width = m.width := by
    intro item hcode m' hm'
    rw [(Item.kind_of_code hm hcode).1, Option.some.injEq] at hm'
    rw [hm']
  by_cases ha : m.kind = .array
  · rw [ha] at hkind
    cases fuel with
    | zero => exact .cutOff rfl hkind fun m' hm' => by simp only [walkInto]; omega
    | succ fuel =>
      simp only [walkInto, ha] at hkind ⊢
      rcases walkContainer_cases inp m start i _ with ⟨j, hr, h⟩ | ⟨size, j, hr, _, h⟩ |
        ⟨size, j, k, hr, _, hr2, h⟩ | ⟨size, j, count, k, hr, _, hr2, h⟩ <;> rw [h] at hkind ⊢
      · exact .cutOff rfl hkind fun m' _ => by simp only; omega
      · exact .cutOff rfl hkind fun m' _ => by simp only; omega
      · refine .cutOff rfl hkind fun m' hm' => ?_
        rw [hwidth _ rfl m' hm']
        rcases field_none hr2 with rfl | rfl <;> simp only <;> omega
      · obtain ⟨-, rfl⟩ := field_some hr2
        cases hl : amqpTypeMetaDataLookup (arrayConstructor inp (j + m.width)).1 with
        | none =>
          simp only [hl] at hkind ⊢
          refine ⟨fun _ => trivial, fun _ _ m' hm' code hcode => ?_, fun hd => ?_⟩
          · rw [Item.elementCode] at hcode
            split at hcode
            · simp only [hwidth _ rfl m' hm', Option.some.injEq] at hcode
              rw [← hcode, hl]
            · cases hcode
          · rw [hkind] at hd
            cases hd
        | some element =>
          simp only [hl] at hkind ⊢
          refine ⟨fun _ => walkMany_full count _, fun _ hrej => (by cases hrej), fun hd => ?_⟩
          rw [hkind] at hd
          cases hd
  · by_cases hd : m.kind = .described
    · have hother : (walkInto inp fuel m start i).1.kind ≠ some .array := by
        rw [hkind, hd]
        decide
      refine ⟨fun h => absurd h hother, fun h => absurd h hother, fun _ => ?_⟩
      cases fuel with
      | zero => rfl
      | succ fuel =>
        simp only [walkInto, hd, walkDescribed]
        cases walkDecode (walkInto inp fuel) inp i with
        | none => rfl
        | some o =>
          simp only [Forest.cons, Forest.nth]
          cases walkDecode (walkInto inp fuel) inp (stopOf (some o) i) with
          | none => rfl
          | some o' => rfl
    · exact .other hkind ha hd

theorem outline_regular (inp : Input) (i : Nat) :
    (Forest.cons (outline inp i) .nil).All (Item.Regular inp) := by
  refine outline_all (fun i hi hl => ?_) (fun fuel m hm start i _ _ _ => walkInto_regular fuel hm start i) i
  have hnone : Item.kind ⟨inp.byte i, i, i + 1, false, i + 1, 0⟩ = none := by
    rw [Item.kind, Item.metaData, hl]
    rfl
  refine ⟨fun h => ?_, fun h => ?_, fun h => ?_⟩ <;> rw [hnone] at h <;> cases h

/-- A text takes the bytes of its size field at least. -/
def Item.Wide (item : Item) (_ : Forest Item) : Prop :=
  item.kind = some .variableWidth → item.accepted = true → item.start < item.stop

theorem walkInto_wide (fuel : Nat) {m : EncodingMetaData} (hm : m ∈ typeLookupTable.toList)
    {start i : Nat} (hs : start ≤ i) :
    (walkInto inp fuel m start i).1.Wide (walkInto inp fuel m start i).2 := by
  intro hkind hacc
  rw [(Item.kind_of_code hm (walkInto_code inp fuel m start i).1).2, Option.some.injEq] at hkind
  cases fuel with
  | zero => cases hacc
  | succ fuel =>
    have hwidth := field_width hm (.inl hkind)
    simp only [walkInto, hkind] at hacc ⊢
    rcases hf : inp.field m.width i with ⟨_ | size, j⟩
    · rw [hf] at hacc
      cases hacc
    · obtain ⟨-, rfl⟩ := field_some hf
      rw [hf] at hacc
      by_cases ha : inp.Available (i + m.width) size
      · simp only [if_pos ha]
        omega
      · simp only [if_neg ha] at hacc
        cases hacc

theorem outline_wide (inp : Input) (i : Nat) : (Forest.cons (outline inp i) .nil).All Item.Wide := by
  refine outline_all (fun i hi hl => ?_) (fun fuel m hm start i hs _ _ => walkInto_wide fuel hm hs) i
  intro _ hacc
  cases hacc

/-! ## Decoded types -/

/-- A decoded type as a reader with the buffer at hand sees it. -/
structure Seen (c : Context) (b : Buffer) (n : Node) (kids : Layout) : Prop where
  glance : ∃ t, Glance c b.input b.address n kids t
  covers : Covers b.input n.item kids.outline
  regular : n.item.Regular b.input kids.outline
  wide : n.item.Wide kids.outline

/-- Everything a decode leaves is seen. -/
theorem Lays.seen {b : Buffer} {live : Finset Slot} {c' : Context} {F : Layout}
    (h : Lays (· = AmqpType.zero) 0 b.input b.address c live (.cons b.outline .nil) c' F) :
    F.All (Seen c' b) := by
  have hreg := (outline_regular b.input b.index).and (outline_wide b.input b.index)
  rw [show Forest.cons (Amqp.outline b.input b.index) .nil = F.map Node.item from h.outline.symm,
    Forest.all_map] at hreg
  refine (h.covered.and hreg).imp fun n kids hn => ?_
  exact ⟨hn.1.1.glance, hn.1.2, hn.2.1, hn.2.2⟩

end
end Amqp
