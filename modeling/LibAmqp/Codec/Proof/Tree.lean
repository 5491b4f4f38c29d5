import LibAmqp.Codec.Proof.Safety

/-!
# The tree of a decoded type

`Known`: what a caller reads off an accepted type, its flags, its count and its elements.

* `amqpDecode_extents_iff`: the valid lists, maps and arrays of a decode end where their size says
  if and only if the sizes among the bytes fit the elements.
* `amqpDecode_wellFormed_iff`: a valid result is well formed all the way down if and only if the
  bytes have every element, each accepted, and maps of even count.
-/

namespace Amqp

open Lib Memory

/-- Entry `i` of a container's elements, null or a type. -/
def Element (c : Context) (t : AmqpType) (i : Nat) (x : Option Slot) : Prop :=
  i < t.value.count ∧ ∃ l, c.arrays.get t.value.elements = some l ∧ l[i]? = some x

/-- An accepted type with its metadata. -/
structure Known (c : Context) (n : Node) (kids : Layout) (m : EncodingMetaData) (t : AmqpType) :
    Prop where
  lookup : amqpTypeMetaDataLookup n.item.code = some m
  load : c.types.load n.slot = some t
  valid : t.typeIsValid = true
  formatCode : t.constructor.formatCode = n.item.code
  position : t.position = ⟨n.item.index, n.item.size⟩
  flags : ∀ mask, mask &&& roleMask = 0#32 →
    t.typedefFlagsTest mask = (m.typedefFlags &&& mask != 0#32)
  leaf : ¬ m.kind.IsContainer → kids = .nil
  list0 : m.typeDecoder = .list0 → t.value.count = 0
  count : m.kind.IsContainer → t.value.count = kids.length
  element : m.kind.IsContainer → ∀ i x, Element c t i x ↔ kids.pointers[i]? = some x
  described : m.kind = .described → kids.length = 2
  holder : m.kind = .array → ∃ s h, t.value.constructor = some s ∧ c.types.load s = some h ∧
    ∀ kid, some kid ∈ kids.roots → kid.item.code = h.constructor.formatCode

section
variable {P : AmqpType → Prop} {c c' : Context} {live : Finset Slot} {b : Buffer} {inp : Input}
  {address : Nat} {n : Node} {kids F : Layout}

theorem ArrayHolds.element {a : Nat} {t : AmqpType} (h : ArrayHolds c a kids)
    (ha : t.value.elements = a) (hcount : t.value.count = kids.length) (i : Nat) (x : Option Slot) :
    Element c t i x ↔ kids.pointers[i]? = some x := by
  obtain ⟨l, hl, hlen, htake, -⟩ := h
  have hle : kids.length ≤ l.length := by
    rw [hlen]
    exact Nat.le.intro (arrayLength_split _)
  rw [← htake, List.getElem?_take]
  constructor
  · rintro ⟨hi, l', hl', hx⟩
    rw [ha, hl, Option.some.injEq] at hl'
    rw [if_pos (by omega), hl', hx]
  · intro hx
    split at hx
    · exact ⟨by omega, l, by rw [ha, hl], hx⟩
    · cases hx

/-- An accepted type has its metadata and its elements. -/
theorem Fits.known (h : Fits c inp address P n kids) (hacc : n.item.accepted = true) :
    ∃ m t, Known c n kids m t := by
  obtain ⟨t0, hload0, hvalid, hformat, hposition, -⟩ := h.seen
  obtain ⟨t, role, hrole, ⟨stale, k, -, ⟨-, hk⟩, hf⟩, hload⟩ := h.record
  rw [hload0, Option.some.injEq] at hload
  subst hload
  cases hl : amqpTypeMetaDataLookup n.item.code with
  | none =>
    simp only [hl] at hf
    rw [hf.1] at hacc
    cases hacc
  | some m =>
    simp only [hl] at hf hk
    obtain ⟨hcon, -, hpos⟩ := hf.accepted hacc
    have hcount : m.kind.IsContainer → t.value.count = kids.length := by
      intro hc
      rcases hc with hc | hc | hc
      · exact (hf.container (.inl hc)).2.2.2 (hf.compound hacc hc).1
      · exact (hf.array hacc hc).2
      · exact (hf.container (.inr (.inr hc))).2.2.2 (hf.described hc).1
    refine ⟨m, _, hl, hload0, by rw [hvalid, hacc], hformat, hposition hacc, fun mask hmask => ?_,
      fun hc => ?_, fun h0 => ?_, hcount, fun hc i x => ?_, fun hd => (hf.described hd).2.2,
      fun ha => ?_⟩
    · rw [typedefFlagsTest_setRole hrole hmask, AmqpType.typedefFlagsTest, hcon]
      exact congrArg (fun f => f &&& mask != 0#32) hk.2
    · exact (hf.leaf (hf.supported.resolve_right hc)).2.2.1
    · have hleaf : m.kind.IsLeaf := .inl (by simp [EncodingMetaData.kind, h0, TypeDecoder.kind])
      have := (hf.leaf hleaf).2.2.2 hacc
      rw [h0] at this
      show t.value.word = 0
      rw [this]
      rfl
    · have hcon := hf.container hc
      cases harr : n.array with
      | some a => exact (h.elements a harr).element (by rw [← hcon.1.symm]; simp [harr]) (hcount hc) i x
      | none =>
        obtain rfl := hcon.2.2.1 harr
        constructor
        · rintro ⟨hi, -⟩
          rw [show (t.typedefFlagsSet role).value.count = 0 from hcount hc] at hi
          exact absurd hi (Nat.not_lt_zero i)
        · exact fun h => by cases h
    · have hcon := hf.container (.inr (.inl ha))
      obtain ⟨hd, hhd⟩ := Option.ne_none_iff_exists'.1 (hf.array hacc ha).1
      obtain ⟨⟨th, hrole', hr', ⟨_, kh, _, ⟨hcode, _⟩, rfl⟩, hlh⟩, hkids⟩ := h.holder hd hhd
      refine ⟨hd.slot, _, ?_, hlh, fun kid hkid => ?_⟩
      · show t.value.constructor = _
        rw [hcon.2.1, hhd]
        rfl
      · rw [hkids kid hkid]
        exact hcode.symm

theorem Layout.mem_pointers {F : Layout} {i : Nat} {s : Slot} (h : F.pointers[i]? = some (some s)) :
    ∃ kid, some kid ∈ F.roots ∧ kid.slot = s := by
  have hmem : some s ∈ F.pointers := List.mem_of_getElem? h
  rw [Layout.pointers, List.mem_map] at hmem
  obtain ⟨root, hroot, hs⟩ := hmem
  cases root with
  | none => cases hs
  | some kid => exact ⟨kid, hroot, Option.some.inj hs⟩

/-- The types of a layout are in different slots. -/
theorem Layout.slot_injective (h : F.slots.Nodup) :
    (∀ n ∈ F.labels, n.slot ∈ F.slots) ∧ (F.labels.map Node.slot).Nodup := by
  induction F with
  | nil => exact ⟨fun _ h => (nomatch h), List.nodup_nil⟩
  | hole rest ih => exact ih h
  | node a kids rest ihk ihr =>
    simp only [Layout.slots, List.nodup_cons, List.nodup_append, List.mem_append, not_or] at h
    obtain ⟨⟨-, hak, har⟩, -, ⟨hkn, hrn, hkr⟩, -⟩ := h
    obtain ⟨hk, hkd⟩ := ihk hkn
    obtain ⟨hr, hrd⟩ := ihr hrn
    refine ⟨fun n hn => ?_, ?_⟩
    · simp only [Layout.slots, List.mem_cons, List.mem_append]
      simp only [Forest.labels, List.mem_append, List.mem_cons] at hn
      rcases hn with hn | rfl | hn
      · exact .inr (.inr (.inl (hk n hn)))
      · exact .inl rfl
      · exact .inr (.inr (.inr (hr n hn)))
    · simp only [Forest.labels, List.map_append, List.map_cons]
      refine List.nodup_append.2 ⟨hkd, List.nodup_cons.2 ⟨fun hm => ?_, hrd⟩, ?_⟩
      · obtain ⟨n, hn, he⟩ := List.mem_map.1 hm
        exact har (he ▸ hr n hn)
      · intro s hs x hx
        obtain ⟨n, hn, rfl⟩ := List.mem_map.1 hs
        rcases List.mem_cons.1 hx with rfl | hx
        · exact fun he => hak (he ▸ hk n hn)
        · obtain ⟨n', hn', rfl⟩ := List.mem_map.1 hx
          exact hkr _ (hk n hn) _ (hr n' hn')

/-! ## Extents -/

/-- The format codes of the containers that have a size. -/
def sizedCodes : List UInt8 := [0xc0, 0xd0, 0xc1, 0xd1, 0xe0, 0xf0]

/-- Every valid list, map or array among the decoded types was read from exactly the bytes of its
position, and so were its elements. -/
def Extents (c : Context) (events : List Decoded) : Prop :=
  ∀ e ∈ events, ∀ t, c.types.load e.slot = some t → t.typeIsValid = true →
    t.constructor.formatCode ∈ sizedCodes →
    e.stop = t.position.index + t.position.size ∧
    ∀ i x, Element c t i (some x) → ∀ e' ∈ events, e'.slot = x →
      t.position.index ≤ e'.start ∧ e'.stop ≤ t.position.index + t.position.size

/-- The size of a list, map or array is that of its count, its constructor and its elements. -/
def Item.SizeFits (inp : Input) (item : Item) (kids : Forest Item) : Prop :=
  item.accepted = true → item.code ∈ sizedCodes →
    item.size = (item.firstElement inp - item.index) + span kids

instance (item : Item) (kids : Forest Item) : Decidable (item.SizeFits inp kids) :=
  inferInstanceAs (Decidable (_ → _ → _))

theorem table_sized : ∀ m ∈ typeLookupTable.toList,
    m.formatCode ∈ sizedCodes ↔ m.kind = .compound ∨ m.kind = .array := by
  decide +kernel

theorem Item.index_le_firstElement (inp : Input) {item : Item} (h : item.index ≤ item.stop) :
    item.index ≤ item.firstElement inp := by
  unfold Item.firstElement arrayConstructor
  split
  · exact h
  · split
    · exact Nat.le_add_right _ _
    · split
      · simp only; omega
      · exact Nat.le_add_right _ _
    · exact h

/-- For a type that covers its bytes the size fits if and only if the type ends where it says. -/
theorem Covers.sizeFits_iff {item : Item} {kids : Forest Item} (h : Covers inp item kids)
    {m : EncodingMetaData} (hl : amqpTypeMetaDataLookup item.code = some m)
    (hacc : item.accepted = true) (hcode : item.code ∈ sizedCodes) :
    item.size = (item.firstElement inp - item.index) + span kids ↔
      item.stop = item.index + item.size := by
  obtain ⟨hm, hmc⟩ := lookup_mem hl
  have hkind : item.kind = some .compound ∨ item.kind = some .array := by
    rw [(Item.kind_of_code hm hmc.symm).2, Option.some.injEq, Option.some.injEq]
    exact (table_sized m hm).1 (hmc ▸ hcode)
  have := (h.sized hacc hkind).eq_add_span
  have := Item.index_le_firstElement inp h.index_le
  omega

theorem Extents.sizeFits (hlays : Lays P 0 b.input address c live (.cons b.outline .nil) c' F)
    (h : Extents c' (Layout.events F)) :
    (Forest.cons b.outline .nil).All (Item.SizeFits b.input) := by
  have hstop : ∀ n ∈ F.labels, ∀ t, c'.types.load n.slot = some t → t.typeIsValid = true →
      t.constructor.formatCode ∈ sizedCodes → n.item.stop = t.position.index + t.position.size :=
    fun n hn t hl hv hs => (h n.event (List.mem_map_of_mem hn) t hl hv hs).1
  rw [← hlays.outline, Layout.outline, Forest.all_map]
  refine ((Forest.all_of_labels hstop).and hlays.covered).imp ?_
  rintro n kids ⟨hend, hfits, hcovers⟩ hacc hcode
  obtain ⟨m, t, hk⟩ := hfits.known hacc
  have := hend t hk.load hk.valid (by rw [hk.formatCode]; exact hcode)
  rw [hk.position] at this
  exact (hcovers.sizeFits_iff hk.lookup hacc hcode).2 this

/-- A sized container whose size fits, among the types `L`: it ends where it says, and its elements
lie inside. -/
theorem Fits.extent {L : List Node} (hfits : Fits c inp address P n kids)
    (hcovers : Covers inp n.item (Layout.outline kids))
    (hsize : n.item.SizeFits inp (Layout.outline kids))
    (hmem : ∀ kid, some kid ∈ kids.roots → kid ∈ L) {t : AmqpType}
    (hload : c.types.load n.slot = some t) (hvalid : t.typeIsValid = true)
    (hcode : t.constructor.formatCode ∈ sizedCodes) :
    n.item.stop = t.position.index + t.position.size ∧
      ∀ i x, Element c t i (some x) → ∃ kid ∈ L, kid.slot = x ∧
        t.position.index ≤ kid.item.start ∧ kid.item.stop ≤ n.item.stop := by
  obtain ⟨t', hload', hvalid', -⟩ := hfits.seen
  rw [hload, Option.some.injEq] at hload'
  subst hload'
  have hacc := hvalid'.symm.trans hvalid
  obtain ⟨m, t', hk⟩ := hfits.known hacc
  obtain rfl : t = t' := Option.some.inj (hload.symm.trans hk.load)
  rw [hk.formatCode] at hcode
  rw [hk.position]
  refine ⟨(hcovers.sizeFits_iff hk.lookup hacc hcode).1 (hsize hacc hcode), fun i x hx => ?_⟩
  obtain ⟨hm, hmc⟩ := lookup_mem hk.lookup
  have hcon : m.kind.IsContainer := ((table_sized m hm).1 (hmc ▸ hcode)).imp_right .inl
  obtain ⟨kid, hkid, rfl⟩ := Layout.mem_pointers ((hk.element hcon i _).1 hx)
  obtain ⟨k, hkle, htiles⟩ := hcovers.elements
  have hroot : some kid.item ∈ (Layout.outline kids).roots := by
    rw [Layout.outline, Forest.roots_map]
    exact List.mem_map.2 ⟨some kid, hkid, rfl⟩
  have := htiles.mem hroot
  exact ⟨kid, hmem kid hkid, rfl, Nat.le_trans hkle this.1, this.2⟩

theorem extents_of_sizeFits (hlays : Lays P 0 b.input address c live (.cons b.outline .nil) c' F)
    (h : (Forest.cons b.outline .nil).All (Item.SizeFits b.input)) :
    Extents c' (Layout.events F) := by
  rw [← hlays.outline, Layout.outline, Forest.all_map] at h
  have hall := (h.and hlays.covered).and (Forest.all_roots_mem (L := F.labels) fun _ ha => ha)
  obtain ⟨-, hinj⟩ := Layout.slot_injective hlays.grows.nodup
  have hnode : ∀ n ∈ F.labels, ∀ t, c'.types.load n.slot = some t → t.typeIsValid = true →
      t.constructor.formatCode ∈ sizedCodes → n.item.stop = t.position.index + t.position.size ∧
      ∀ i x, Element c' t i (some x) → ∃ kid ∈ F.labels, kid.slot = x ∧
        t.position.index ≤ kid.item.start ∧ kid.item.stop ≤ n.item.stop :=
    hall.labels fun n kids h t hload hvalid hcode =>
      h.1.2.1.extent h.1.2.2 h.1.1 h.2 hload hvalid hcode
  intro e he t hload hvalid hcode
  obtain ⟨n, hn, rfl⟩ := List.mem_map.1 he
  obtain ⟨hstop, hkids⟩ := hnode n hn t hload hvalid hcode
  refine ⟨hstop, fun i x hx e' he' hslot => ?_⟩
  obtain ⟨kid, hkid, hkx, h1, h2⟩ := hkids i x hx
  obtain ⟨n', hn', rfl⟩ := List.mem_map.1 he'
  -- the slots differ, so that the type in the slot of an element is the element
  obtain rfl := List.inj_on_of_nodup_map hinj hn' hkid (hslot.trans hkx.symm)
  exact ⟨h1, hstop ▸ h2⟩

theorem amqpDecode_extents_iff {ptr : Option Slot} {b' : Buffer} {events : List Decoded}
    (hr : Ready (fun _ => True) c live) (hi : b.index ≤ b.size)
    (hcall : amqpDecode c b = .ok (ptr, c', b')) (htrace : c'.trace = c.trace ++ events) :
    Extents c' events ↔ (Forest.cons b.outline .nil).All (Item.SizeFits b.input) := by
  obtain ⟨-, F, hlays, -⟩ := amqpDecode_ok hr hi hcall
  obtain rfl : Layout.events F = events := List.append_cancel_left (hlays.trace.symm.trans htrace)
  exact ⟨fun h => h.sizeFits hlays, extents_of_sizeFits hlays⟩

theorem create_ready_any : Ready (fun _ => True) (Context.create Malloc.bump 21) ∅ :=
  (create_ready Malloc.bump (by decide) (by decide)).mono fun _ _ => trivial

/-- A list of an empty array and a map of two. -/
theorem amqpDecode_extents_nested : ∃ ptr c' b' events,
    amqpDecode (Context.create Malloc.bump 21) (.received
      [0xc0, 0x0c, 0x02, 0xe0, 0x02, 0x00, 0x50, 0xc1, 0x05, 0x02, 0x50, 0x07, 0x50, 0x08]) =
        .ok (ptr, c', b') ∧ c'.trace = [] ++ events ∧ Extents c' events := by
  obtain ⟨ptr, c', F, hcall, hlays, -⟩ := (amqpDecode_simulates create_ready_any (b := .received
      [0xc0, 0x0c, 0x02, 0xe0, 0x02, 0x00, 0x50, 0xc1, 0x05, 0x02, 0x50, 0x07, 0x50, 0x08])
    (by decide)).1 (by decide +kernel)
  exact ⟨ptr, c', _, _, hcall, hlays.trace,
    (amqpDecode_extents_iff create_ready_any (by decide) hcall hlays.trace).2 (by decide +kernel)⟩

/-- A list of two whose size only has room for its count and one element. -/
theorem amqpDecode_extents_overrun : ∃ ptr c' b' events,
    amqpDecode (Context.create Malloc.bump 21) (.received [0xc0, 0x02, 0x02, 0x41, 0x41]) =
        .ok (ptr, c', b') ∧ c'.trace = [] ++ events ∧ ¬ Extents c' events := by
  obtain ⟨ptr, c', F, hcall, hlays, -⟩ := (amqpDecode_simulates create_ready_any
    (b := .received [0xc0, 0x02, 0x02, 0x41, 0x41]) (by decide)).1 (by decide +kernel)
  refine ⟨ptr, c', _, _, hcall, hlays.trace, fun h => ?_⟩
  have := h.sizeFits hlays
  revert this
  decide +kernel

/-! ## Well formed trees -/

/-- The shape a container has to have, given its elements. -/
structure Shapely (c : Context) (t : AmqpType) (kid : Nat → Slot) : Prop where
  elements : ∀ i < t.value.count, Element c t i (some (kid i))
  composite : t.typeIsComposite = true → t.value.count = 2
  map : t.typeIsMap = true → t.value.count % 2 = 0
  array : t.typeIsArray = true → ∃ s h, t.value.constructor = some s ∧ c.types.load s = some h ∧
    ∀ i < t.value.count, ∀ e, c.types.load (kid i) = some e →
      e.constructor.formatCode = h.constructor.formatCode

/-- A tree all of whose types are valid and all of whose containers are in shape. -/
inductive WellFormed (c : Context) : Slot → Prop
  | intro {s : Slot} {t : AmqpType} (kid : Nat → Slot) (hload : c.types.load s = some t)
      (hvalid : t.typeIsValid = true) (hshape : t.typeIsContainer = true → Shapely c t kid)
      (hkids : ∀ i, t.typeIsContainer = true → i < t.value.count → WellFormed c (kid i)) :
      WellFormed c s

def Item.isMap (item : Item) : Bool := item.code == 0xc1 || item.code == 0xd1

/-- An accepted type that has all its elements, in pairs for a map. -/
def Item.Sound (item : Item) (kids : Forest Item) : Prop :=
  item.accepted = true ∧ kids.Full ∧ (item.isMap = true → kids.length % 2 = 0)

instance (item : Item) (kids : Forest Item) : Decidable (item.Sound kids) :=
  inferInstanceAs (Decidable (_ ∧ _ ∧ (_ → _)))

theorem table_map : ∀ m ∈ typeLookupTable.toList,
    (m.typedefFlags &&& isMap != 0#32) = (m.formatCode == 0xc1 || m.formatCode == 0xd1) := by
  decide +kernel

theorem Layout.full_iff {F : Layout} :
    F.Full ↔ ∀ i < F.length, ∃ s, F.pointers[i]? = some (some s) := by
  induction F with
  | nil => exact ⟨fun _ i hi => absurd hi (Nat.not_lt_zero i), fun _ => trivial⟩
  | hole rest ih =>
    refine ⟨fun h => h.elim, fun h => ?_⟩
    obtain ⟨s, hs⟩ := h 0 (Nat.succ_pos _)
    cases hs
  | node n kids rest _ ih =>
    refine Iff.trans ih ⟨fun h i hi => ?_, fun h i hi => h (i + 1) (Nat.succ_lt_succ hi)⟩
    cases i with
    | zero => exact ⟨n.slot, rfl⟩
    | succ i => exact h i (Nat.lt_of_succ_lt_succ hi)

section
variable {m : EncodingMetaData} {t : AmqpType}

theorem Known.container_iff (h : Known c n kids m t) :
    t.typeIsContainer = true ↔ m.kind.IsContainer ∨ m.typeDecoder = .list0 := by
  have := (table_flags m (lookup_mem h.lookup).1).2.1
  rw [AmqpType.typeIsContainer, h.flags isContainerMask (by decide), bne_iff_ne, this]
  simp only [Kind.IsContainer, or_assoc]

/-- A container has as many elements as its count says. -/
theorem Known.elements (h : Known c n kids m t) (hc : t.typeIsContainer = true) :
    t.value.count = kids.length ∧ ∀ i x, Element c t i x ↔ kids.pointers[i]? = some x := by
  rcases h.container_iff.1 hc with hk | h0
  · exact ⟨h.count hk, h.element hk⟩
  · have hnil : kids = .nil := h.leaf (by simp [Kind.IsContainer, EncodingMetaData.kind, h0, TypeDecoder.kind])
    subst hnil
    refine ⟨h.list0 h0, fun i x => ⟨fun he => ?_, fun he => by cases he⟩⟩
    have := he.1
    rw [h.list0 h0] at this
    exact absurd this (Nat.not_lt_zero i)

theorem Known.typeIsMap (h : Known c n kids m t) : t.typeIsMap = n.item.isMap := by
  obtain ⟨hm, hcode⟩ := lookup_mem h.lookup
  rw [AmqpType.typeIsMap, h.flags isMap (by decide), table_map m hm, hcode, Item.isMap]

end

theorem wellFormed_of_sound
    (h : F.All fun n kids => Fits c inp address P n kids ∧ n.item.Sound (Layout.outline kids)) :
    ∀ n, some n ∈ F.roots → WellFormed c n.slot := by
  induction F with
  | nil => exact fun _ hn => nomatch hn
  | hole rest ih =>
    intro n hn
    simp only [Forest.roots, List.mem_cons, reduceCtorEq, false_or] at hn
    exact ih h n hn
  | node a kids rest ihk ihr =>
    obtain ⟨⟨hfits, hacc, hfull, heven⟩, hkids, hrest⟩ := h
    intro n hn
    simp only [Forest.roots, List.mem_cons, Option.some.injEq] at hn
    rcases hn with rfl | hn
    · obtain ⟨m, t, hk⟩ := hfits.known hacc
      have hptr := Layout.full_iff.1 ((Forest.full_map _ _).1 hfull)
      have hkid : ∀ i < kids.length, ∃ x, some x ∈ kids.roots ∧
          (Layout.pointers kids)[i]? = some (some x.slot) := by
        intro i hi
        obtain ⟨s, hs⟩ := hptr i hi
        obtain ⟨x, hx, rfl⟩ := Layout.mem_pointers hs
        exact ⟨x, hx, hs⟩
      have : Nonempty Node := ⟨n⟩
      choose! kid hroot hslot using hkid
      refine .intro (fun i => (kid i).slot) hk.load hk.valid (fun hc => ?_) fun i hc hi => ?_
      · obtain ⟨hcount, helem⟩ := hk.elements hc
        have hm := (lookup_mem hk.lookup).1
        refine ⟨fun i hi => (helem i _).2 (hslot i (hcount ▸ hi)), fun hcomp => ?_, fun hmap => ?_,
          fun harr => ?_⟩
        · rw [hcount]
          rw [AmqpType.typeIsComposite, hk.flags isComposite (by decide), bne_iff_ne] at hcomp
          exact hk.described ((table_flags m hm).2.2.2.2.1.1 hcomp)
        · rw [hcount, ← Forest.length_map Node.item]
          exact heven (hk.typeIsMap ▸ hmap)
        · rw [AmqpType.typeIsArray, hk.flags isArray (by decide), bne_iff_ne] at harr
          obtain ⟨s, h, hs, hh, hcodes⟩ := hk.holder ((table_flags m hm).2.2.1.1 harr)
          refine ⟨s, h, hs, hh, fun i hi e he => ?_⟩
          have hx := hroot i (hcount ▸ hi)
          obtain ⟨k', hf⟩ := Laid.root (hkids.imp fun _ _ h => h.1) hx
          obtain ⟨e', he', -, hformat, -⟩ := hf.seen
          obtain rfl : e = e' := Option.some.inj (he.symm.trans he')
          rw [hformat, hcodes _ hx]
      · exact ihk hkids _ (hroot i ((hk.elements hc).1 ▸ hi))
    · exact ihr hrest n hn

theorem sound_of_wellFormed (h : Laid c inp address P F)
    (hw : ∀ n, some n ∈ F.roots → WellFormed c n.slot) :
    F.All fun n kids => n.item.Sound (Layout.outline kids) := by
  induction F with
  | nil => trivial
  | hole rest ih => exact ih h fun n hn => hw n (by simp [Forest.roots, hn])
  | node n kids rest ihk ihr =>
    obtain ⟨hfits, hkids, hrest⟩ := h
    suffices hn : n.item.Sound (Layout.outline kids) ∧ ∀ x, some x ∈ kids.roots → WellFormed c x.slot
      from ⟨hn.1, ihk hkids hn.2, ihr hrest fun x hx => hw x (by simp [Forest.roots, hx])⟩
    obtain ⟨kid, hload, hvalid, hshape, hsub⟩ := hw n (by simp [Forest.roots])
    rename_i t
    obtain ⟨t', hload', hvalid', -⟩ := hfits.seen
    obtain rfl : t = t' := Option.some.inj (hload.symm.trans hload')
    have hacc := hvalid'.symm.trans hvalid
    obtain ⟨m, t', hk⟩ := hfits.known hacc
    obtain rfl : t = t' := Option.some.inj (hload.symm.trans hk.load)
    by_cases hc : t.typeIsContainer = true
    · obtain ⟨hcount, helem⟩ := hk.elements hc
      have hs := hshape hc
      have hptr : ∀ i < kids.length, (Layout.pointers kids)[i]? = some (some (kid i)) :=
        fun i hi => (helem i _).1 (hs.elements i (hcount ▸ hi))
      refine ⟨⟨hacc, (Forest.full_map _ _).2 (Layout.full_iff.2 fun i hi => ⟨_, hptr i hi⟩),
        fun hmap => ?_⟩, fun x hx => ?_⟩
      · rw [Layout.outline, Forest.length_map, ← hcount]
        exact hs.map (hk.typeIsMap ▸ hmap)
      · have hmem : some x.slot ∈ Layout.pointers kids := List.mem_map.2 ⟨some x, hx, rfl⟩
        obtain ⟨i, hi, he⟩ := List.getElem_of_mem hmem
        have hlt : i < kids.length := Layout.length_pointers kids ▸ hi
        have := hptr i hlt
        rw [List.getElem?_eq_getElem hi, he, Option.some.injEq, Option.some.injEq] at this
        rw [this]
        exact hsub i hc (hcount ▸ hlt)
    · obtain rfl : kids = .nil := hk.leaf fun h => hc (hk.container_iff.2 (.inl h))
      exact ⟨⟨hacc, trivial, fun _ => rfl⟩, fun x hx => by cases hx⟩

/-- The result of a decode that is not null: the root of its layout. -/
theorem Lays.result {s : Slot} (hlays : Lays P 0 b.input address c live (.cons b.outline .nil) c' F)
    (hptr : F.pointers = [some s]) : ∃ n kids t, F = .node n kids .nil ∧ n.slot = s ∧
    c'.types.load s = some t ∧ t.typeIsValid = acceptedOf b.outline := by
  rcases hlays.single hptr with ⟨-, hnone, -⟩ | ⟨o, n, k, ho, hn, rfl, hitem⟩
  · cases hnone
  cases hn
  obtain ⟨t, hload, hvalid, -⟩ := hlays.laid.1.seen
  exact ⟨n, k, t, rfl, rfl, hload, by rw [ho, hvalid, hitem]; rfl⟩

/-- A valid result of a decode is well formed. -/
def ResultWellFormed (c : Context) (s : Slot) : Prop :=
  ∀ t, c.types.load s = some t → t.typeIsValid = true → WellFormed c s

theorem ResultWellFormed.sound {s : Slot}
    (hlays : Lays P 0 b.input address c live (.cons b.outline .nil) c' F)
    (hptr : F.pointers = [some s]) (h : ResultWellFormed c' s) (hacc : acceptedOf b.outline = true) :
    (Forest.cons b.outline .nil).All Item.Sound := by
  obtain ⟨n, k, t, rfl, rfl, hload, hvalid⟩ := hlays.result hptr
  rw [← hlays.outline, Layout.outline, Forest.all_map]
  refine sound_of_wellFormed hlays.laid fun x hx => ?_
  simp only [Forest.roots, List.mem_singleton, Option.some.injEq] at hx
  rw [hx]
  exact h t hload (hvalid.trans hacc)

theorem resultWellFormed_of_sound {s : Slot}
    (hlays : Lays P 0 b.input address c live (.cons b.outline .nil) c' F)
    (hptr : F.pointers = [some s])
    (h : acceptedOf b.outline = true → (Forest.cons b.outline .nil).All Item.Sound) :
    ResultWellFormed c' s := by
  obtain ⟨n, k, t, rfl, rfl, hload, hvalid⟩ := hlays.result hptr
  rw [← hlays.outline, Layout.outline, Forest.all_map] at h
  intro t' ht' hv
  obtain rfl : t = t' := Option.some.inj (hload.symm.trans ht')
  exact wellFormed_of_sound (hlays.laid.and (h (hvalid.symm.trans hv))) n (by simp [Forest.roots])

theorem amqpDecode_wellFormed_iff {s : Slot} {b' : Buffer} (hr : Ready (fun _ => True) c live)
    (hi : b.index ≤ b.size) (hcall : amqpDecode c b = .ok (some s, c', b')) :
    ResultWellFormed c' s ↔
      (acceptedOf b.outline = true → (Forest.cons b.outline .nil).All Item.Sound) := by
  obtain ⟨-, F, hlays, hptr⟩ := amqpDecode_ok hr hi hcall
  exact ⟨fun h => h.sound hlays hptr, resultWellFormed_of_sound hlays hptr⟩

/-- A described list, with a map in an array. -/
theorem amqpDecode_wellFormed_nested : ∃ s c' b',
    amqpDecode (Context.create Malloc.bump 21) (.received [0x00, 0x53, 0x10, 0xc0, 0x0c, 0x02, 0x41,
      0xe0, 0x08, 0x01, 0xc1, 0x05, 0x02, 0x50, 0x07, 0x50, 0x08]) = .ok (some s, c', b') ∧
      ResultWellFormed c' s := by
  obtain ⟨ptr, c', F, hcall, hlays, hptr⟩ := (amqpDecode_simulates create_ready_any
    (b := .received [0x00, 0x53, 0x10, 0xc0, 0x0c, 0x02, 0x41,
      0xe0, 0x08, 0x01, 0xc1, 0x05, 0x02, 0x50, 0x07, 0x50, 0x08])
    (by decide)).1 (by decide +kernel)
  rcases hlays.single hptr with ⟨hnone, -⟩ | ⟨o, n, k, -, rfl, -⟩
  · exact absurd hnone (by decide +kernel)
  · exact ⟨_, _, _, hcall,
      (amqpDecode_wellFormed_iff create_ready_any (by decide) hcall).2 (by decide +kernel)⟩

/-- A list of five that has none of them is valid all the same. -/
theorem amqpDecode_wellFormed_missing : ∃ s c' b',
    amqpDecode (Context.create Malloc.bump 21) (.received [0xc0, 0x01, 0x05]) =
      .ok (some s, c', b') ∧ ¬ ResultWellFormed c' s := by
  obtain ⟨ptr, c', F, hcall, hlays, hptr⟩ := (amqpDecode_simulates create_ready_any
    (b := .received [0xc0, 0x01, 0x05]) (by decide)).1 (by decide +kernel)
  rcases hlays.single hptr with ⟨hnone, -⟩ | ⟨o, n, k, -, rfl, -⟩
  · exact absurd hnone (by decide +kernel)
  · refine ⟨_, _, _, hcall, fun h => ?_⟩
    have := h.sound hlays hptr (by decide +kernel)
    revert this
    decide +kernel

end
end Amqp
