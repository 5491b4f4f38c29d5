import LibAmqp.Codec.Decode
import LibAmqp.Codec.Demand
import LibAmqp.Memory.Proof.Live

/-!
# An outline laid out in the pool

`Laid c inp address P F`: the context holds the types of the forest `F`, as the decoder leaves them
when it reads `inp`. Each node of `F` names the slot of its type, the item of the outline it came
from and the memory it owns. `P` is what the slots held before; `address` is the buffer's.

* `Laid.frame`: a layout only depends on the memory it owns.
* `Laid.setRole`: it does not mind the flags a container sets on its elements.
* `Grows`: what a decoder may do to a context, and how that composes.
-/

namespace Amqp

open Lib Memory

/-- The flags that say what a type is to its container. -/
def roleMask : TypedefFlags := isContained ||| isDescriptor ||| isDescribed

def IsRole (role : TypedefFlags) : Prop := role &&& ~~~roleMask = 0#32

instance (role : TypedefFlags) : Decidable (IsRole role) := inferInstanceAs (Decidable (_ = _))

theorem IsRole.or {r1 r2 : TypedefFlags} (h1 : IsRole r1) (h2 : IsRole r2) : IsRole (r1 ||| r2) := by
  refine BitVec.eq_of_getLsbD_eq fun i hi => ?_
  have e1 := congrArg (BitVec.getLsbD · i) h1
  have e2 := congrArg (BitVec.getLsbD · i) h2
  simp only [BitVec.getLsbD_and, BitVec.getLsbD_or] at e1 e2 ⊢
  rw [Bool.and_or_distrib_right, e1, e2]
  simp

theorem or_and_of_disjoint {f extra mask : TypedefFlags} (h : extra &&& mask = 0#32) :
    (f ||| extra) &&& mask = f &&& mask := by
  refine BitVec.eq_of_getLsbD_eq fun i hi => ?_
  have e := congrArg (BitVec.getLsbD · i) h
  simp only [BitVec.getLsbD_and, BitVec.getLsbD_or, BitVec.getLsbD_zero] at e ⊢
  rw [Bool.and_or_distrib_right, e, Bool.or_false]

/-- A role has none of the other flags. -/
theorem IsRole.disjoint {role mask : TypedefFlags} (hrole : IsRole role)
    (hmask : mask &&& roleMask = 0#32) : role &&& mask = 0#32 := by
  refine BitVec.eq_of_getLsbD_eq fun i hi => ?_
  have e1 := congrArg (BitVec.getLsbD · i) hrole
  have e2 := congrArg (BitVec.getLsbD · i) hmask
  simp only [BitVec.getLsbD_and, BitVec.getLsbD_not, BitVec.getLsbD_zero, hi, decide_true,
    Bool.true_and] at e1 e2 ⊢
  revert e1 e2
  cases role.getLsbD i <;> cases mask.getLsbD i <;> cases roleMask.getLsbD i <;> simp

theorem AmqpType.typedefFlagsSet_twice (t : AmqpType) (f g : TypedefFlags) :
    (t.typedefFlagsSet f).typedefFlagsSet g = t.typedefFlagsSet (f ||| g) := by
  simp [AmqpType.typedefFlagsSet, BitVec.or_assoc]

theorem AmqpType.typedefFlagsSet_zero (t : AmqpType) : t.typedefFlagsSet 0#32 = t := by
  simp [AmqpType.typedefFlagsSet]

/-- The bytes of a buffer that a decoder sees. -/
def Buffer.input (b : Buffer) : Input := ⟨b.byteAt, b.size⟩

/-- What a decoder of a type without elements makes of the value union. -/
def TypeDecoder.fill (address : Nat) (bytes : List UInt8) (v : Value) : TypeDecoder → Value
  | .booleanTrue => v.setLow 1 1
  | .uint0 => v.setLow 4 0
  | .ulong0 => v.setLow 8 0
  | .list0 => { v with word := 0 }
  | .smallUint => (fun w : Value => w.setLow 4 (w.low 1)) (v.setLow 1 (ofBigEndian bytes))
  | .smallUlong => (fun w : Value => w.setLow 8 (w.low 1)) (v.setLow 1 (ofBigEndian bytes))
  | .smallInt =>
    (fun w : Value => w.setLow 4 (signExtend 4 (w.low 1))) (v.setLow 1 (ofBigEndian bytes))
  | .smallLong =>
    (fun w : Value => w.setLow 8 (signExtend 8 (w.low 1))) (v.setLow 1 (ofBigEndian bytes))
  | .uuid => { v with word := uuidWord (bytes.take 8), elements := uuidWord (bytes.drop 8) }
  | .ubyte | .byte | .boolean | .ushort | .short | .uint | .int | .float | .char | .decimal32
  | .ulong | .long | .double | .timestamp | .decimal64 => v.setLow bytes.length (ofBigEndian bytes)
  | .binaryVbin8 | .stringStr8Utf8 | .symbolSym8 | .binaryVbin32 | .stringStr32Utf8
  | .symbolSym32 => { v with word := address }
  | _ => v

/-- A type without elements. -/
def Kind.IsLeaf (k : Kind) : Prop := k = .zero ∨ k = .fixed ∨ k = .variableWidth

/-- A list, map or array with a size field, or a described type. -/
def Kind.IsContainer (k : Kind) : Prop := k = .compound ∨ k = .array ∨ k = .described

/-- The type that holds the constructor of an array's elements. -/
structure Holder where
  slot : Slot
  code : UInt8
  deriving DecidableEq

/-- A decoded type: its slot, its item of the outline, its element array and, for an array, the
constructor of its elements. -/
structure Node where
  slot : Slot
  item : Item
  array : Option Nat
  holder : Option Holder
  deriving DecidableEq

/-- The read index around a type. -/
def Node.event (n : Node) : Decoded := ⟨n.slot, n.item.start, n.item.stop⟩

/-- The outline of a node's own item. -/
abbrev Layout := Forest Node

namespace Layout

def outline (F : Layout) : Forest Item := F.map Node.item

/-- The slots the types of a layout take, in the order of their allocation. -/
def slots : Layout → List Slot
  | .nil => []
  | .hole rest => slots rest
  | .node n kids rest => n.slot :: ((n.holder.map Holder.slot).toList ++ (slots kids ++ slots rest))

/-- The element arrays of a layout. -/
def arrays : Layout → List Nat
  | .nil => []
  | .hole rest => arrays rest
  | .node n kids rest => n.array.toList ++ (arrays kids ++ arrays rest)

/-- The pointers to the types of a list, null for a missing one. -/
def pointers (F : Layout) : List (Option Slot) := F.roots.map (Option.map Node.slot)

def events (F : Layout) : List Decoded := F.labels.map Node.event

theorem slots_append (F G : Layout) : slots (F.append G) = slots F ++ slots G := by
  induction F with
  | nil => rfl
  | hole rest ih => exact ih
  | node n kids rest _ ih => simp only [Forest.append, slots, ih, List.append_assoc, List.cons_append]

theorem arrays_append (F G : Layout) : arrays (F.append G) = arrays F ++ arrays G := by
  induction F with
  | nil => rfl
  | hole rest ih => exact ih
  | node n kids rest _ ih => simp only [Forest.append, arrays, ih, List.append_assoc]

theorem pointers_append (F G : Layout) : pointers (F.append G) = pointers F ++ pointers G := by
  simp only [pointers, Forest.roots_append, List.map_append]

theorem events_append (F G : Layout) : events (F.append G) = events F ++ events G := by
  simp only [events, Forest.labels_append, List.map_append]

end Layout

/-- What a rejected type that owns nothing is left with: its leftovers, or its position and, where
the bytes of a character or a text were read, what was made of these. -/
def LeftOver (address : Nat) (m : EncodingMetaData) (item : Item) (t t' : AmqpType) : Prop :=
  (t'.position = t.position ∧ item.size = 0 ∧ t'.value = t.value) ∨
  (t'.position = ⟨item.index, item.size⟩ ∧ (m.kind = .fixed → m.typeDecoder = .char) ∧
    (m.kind = .variableWidth → t'.value = { t.value with word := address }) ∧
    (m.kind.IsContainer → t'.value = t.value))

/-- What a decoder of metadata `m` makes of a type, from `t` to `t'`. -/
structure Filled (inp : Input) (address : Nat) (m : EncodingMetaData) (n : Node) (kids : Layout)
    (t t' : AmqpType) : Prop where
  accepted : n.item.accepted = true → t'.constructor = t.constructor ∧
    t'.invalidCause = t.invalidCause ∧ t'.position = ⟨n.item.index, n.item.size⟩
  rejected : n.item.accepted = false → t'.constructor = (t.typedefFlagsSet isInvalid).constructor ∧
    t'.invalidCause.isSome = true
  saved : t'.savedContainer = t.savedContainer
  leaf : m.kind.IsLeaf → n.array = none ∧ n.holder = none ∧ kids = .nil ∧
    (n.item.accepted = true →
      t'.value = m.typeDecoder.fill address (inp.bytes n.item.index n.item.size) t.value)
  container : m.kind.IsContainer → t'.value.elements = n.array.getD t.value.elements ∧
    t'.value.constructor = (n.holder.map Holder.slot).or t.value.constructor ∧
    (n.array = none → kids = .nil) ∧ (n.array ≠ none → t'.value.word = kids.length)
  compound : n.item.accepted = true → m.kind = .compound → n.array ≠ none ∧ n.holder = none
  array : n.item.accepted = true → m.kind = .array → n.holder ≠ none ∧ t'.value.word = kids.length
  described : m.kind = .described → n.array ≠ none ∧ n.holder = none ∧ kids.length = 2
  notArray : m.kind ≠ .array → n.holder = none
  supported : m.kind.IsLeaf ∨ m.kind.IsContainer
  zero : m.kind = .zero → n.item.accepted = true
  leftOver : n.item.accepted = false → n.array = none → n.holder = none →
    LeftOver address m n.item t t'
  placed : n.array ≠ none ∨ n.holder ≠ none → t'.position = ⟨n.item.index, n.item.size⟩
  elementCode : m.kind = .array → n.holder.map Holder.code = n.item.elementCode inp m
  hasArray : n.array.isSome = n.item.hasArray m kids.length

/-- The constructor a type starts with: the one its format code stands for, or the leftovers when
it stands for none. -/
def ConstructorFits (stale : AmqpType) (code : UInt8) (k : TypeConstructor) : Prop :=
  k.formatCode = code ∧
    match amqpTypeMetaDataLookup code with
    | some m => k.metaData = some m ∧ k.typedefFlags = m.typedefFlags
    | none => k.metaData = stale.constructor.metaData ∧
        k.typedefFlags = stale.constructor.typedefFlags

/-- The record of a node, but for its role. -/
def RecordFits (inp : Input) (address : Nat) (P : AmqpType → Prop) (n : Node) (kids : Layout)
    (t : AmqpType) : Prop :=
  ∃ stale k, P stale ∧ ConstructorFits stale n.item.code k ∧
    match amqpTypeMetaDataLookup n.item.code with
    | some m => Filled inp address m n kids { stale with constructor := k } t
    | none => n.item.accepted = false ∧ n.array = none ∧ n.holder = none ∧ kids = .nil ∧
        t = ({ stale with constructor := k } : AmqpType).markInvalid .unknownFormatCode

/-- An element array, of the length for so many types, holds the pointers to the types of a list, and
null behind them. -/
def ArrayHolds (c : Context) (a : Nat) (kids : Layout) : Prop :=
  ∃ l, c.arrays.get a = some l ∧ l.length = Context.arrayLength kids.length ∧
    l.take kids.length = kids.pointers ∧ ∀ x ∈ l.drop kids.length, x = none

/-- A slot has a type that satisfies `p`, but for its role. -/
def HoldsType (c : Context) (s : Slot) (p : AmqpType → Prop) : Prop :=
  ∃ t role, IsRole role ∧ p t ∧ c.types.load s = some (t.typedefFlagsSet role)

/-- The type of an array's constructor has no more than that. -/
def HolderFits (P : AmqpType → Prop) (code : UInt8) (t : AmqpType) : Prop :=
  ∃ stale k, P stale ∧ ConstructorFits stale code k ∧ t = { stale with constructor := k }

structure Fits (c : Context) (inp : Input) (address : Nat) (P : AmqpType → Prop) (n : Node)
    (kids : Layout) : Prop where
  record : HoldsType c n.slot (RecordFits inp address P n kids)
  elements : ∀ a, n.array = some a → ArrayHolds c a kids
  holder : ∀ h, n.holder = some h → HoldsType c h.slot (HolderFits P h.code) ∧
    ∀ kid, some kid ∈ kids.roots → kid.item.code = h.code

def Laid (c : Context) (inp : Input) (address : Nat) (P : AmqpType → Prop) (F : Layout) : Prop :=
  F.All (Fits c inp address P)

section
variable {c c' : Context} {inp : Input} {address : Nat} {P : AmqpType → Prop}

theorem HoldsType.congr {s : Slot} {p : AmqpType → Prop} (h : HoldsType c s p)
    (hs : c'.types.load s = c.types.load s) : HoldsType c' s p := by
  obtain ⟨t, role, hr, hp, hl⟩ := h
  exact ⟨t, role, hr, hp, by rw [hs, hl]⟩

theorem ArrayHolds.congr {a : Nat} {kids : Layout} (h : ArrayHolds c a kids)
    (ha : c'.arrays.get a = c.arrays.get a) : ArrayHolds c' a kids := by
  obtain ⟨l, hl, hlen, htake⟩ := h
  exact ⟨l, by rw [ha, hl], hlen, htake⟩

/-- A layout only depends on the memory it owns. -/
theorem Laid.frame {F : Layout} (h : Laid c inp address P F)
    (hs : ∀ s ∈ F.slots, c'.types.load s = c.types.load s)
    (ha : ∀ a ∈ F.arrays, c'.arrays.get a = c.arrays.get a) : Laid c' inp address P F := by
  induction F with
  | nil => trivial
  | hole rest ih => exact ih h hs ha
  | node n kids rest ihk ihr =>
    obtain ⟨hn, hk, hr⟩ := h
    simp only [Layout.slots, Layout.arrays, List.mem_cons, List.mem_append] at hs ha
    refine ⟨⟨?_, ?_, ?_⟩, ?_, ?_⟩
    · exact hn.record.congr (hs _ (.inl rfl))
    · intro a hna
      exact (hn.elements a hna).congr (ha _ (.inl (by simp [hna])))
    · intro d hd
      obtain ⟨hd1, hd2⟩ := hn.holder d hd
      exact ⟨hd1.congr (hs _ (.inr (.inl (by simp [hd])))), hd2⟩
    · exact ihk hk (fun s h => hs s (.inr (.inr (.inl h)))) fun a h => ha a (.inr (.inl h))
    · exact ihr hr (fun s h => hs s (.inr (.inr (.inr h)))) fun a h => ha a (.inr (.inr h))

/-- Setting a role keeps what a slot holds. -/
theorem HoldsType.setRole {s x : Slot} {p : AmqpType → Prop} {t : AmqpType} {role : TypedefFlags}
    (h : HoldsType c x p) (ht : c.types.load s = some t) (hrole : IsRole role) :
    HoldsType (c.store s (t.typedefFlagsSet role)) x p := by
  obtain ⟨t', role', hr', hp, hl⟩ := h
  by_cases hx : x = s
  · subst hx
    rw [ht, Option.some.injEq] at hl
    subst hl
    refine ⟨t', role' ||| role, hr'.or hrole, hp, ?_⟩
    rw [← AmqpType.typedefFlagsSet_twice]
    exact load_store_self ht
  · exact ⟨t', role', hr', hp, by rw [← hl]; exact load_store_ne _ hx⟩

theorem Laid.setRole {s : Slot} {t : AmqpType} {role : TypedefFlags} {F : Layout}
    (h : Laid c inp address P F) (ht : c.types.load s = some t) (hrole : IsRole role) :
    Laid (c.store s (t.typedefFlagsSet role)) inp address P F :=
  h.imp fun _ _ hn => ⟨hn.record.setRole ht hrole, hn.elements, fun d hd =>
    ⟨(hn.holder d hd).1.setRole ht hrole, (hn.holder d hd).2⟩⟩

end

/-! ## Growth of a context -/

/-- A context that gained the slots `S` and the arrays `A`: what was live keeps its contents, and
so does every array but `w`. -/
structure Grows (P : AmqpType → Prop) (w : Nat) (c : Context) (live : Finset Slot) (c' : Context)
    (S : List Slot) (A : List Nat) : Prop where
  held : Live P c'.types (live ∪ S.toFinset)
  nodup : S.Nodup
  fresh : ∀ s ∈ S, s ∉ live
  load : ∀ s ∈ live, c'.types.load s = c.types.load s
  dom : ∀ a, a ∈ c'.arrays.dom ↔ a ∈ c.arrays.dom ∨ a ∈ A
  arraysNodup : A.Nodup
  arraysFresh : ∀ a ∈ A, a ∉ c.arrays.dom
  get : ∀ a ∈ c.arrays.dom, a ≠ w → c'.arrays.get a = c.arrays.get a
  container : c'.container = c.container
  malloc : c'.malloc = c.malloc
  limit : c'.limit = c.limit
  perBlock : c'.types.allocationsPerBlock = c.types.allocationsPerBlock
  blocks : c'.types.blocks.dom.length =
    max c.types.blocks.dom.length (c.types.blocksFor (live ∪ S.toFinset).card)
  initializer : c'.types.initializerCallback = c.types.initializerCallback

section
variable {P : AmqpType → Prop} {w : Nat} {c c' c'' : Context} {live : Finset Slot}
  {S S' : List Slot} {A A' : List Nat}

theorem Grows.refl (h : Live P c.types live) : Grows P w c live c [] [] where
  held := by simpa using h
  nodup := List.nodup_nil
  fresh _ hs := nomatch hs
  load _ _ := rfl
  dom _ := by simp
  arraysNodup := List.nodup_nil
  arraysFresh _ ha := nomatch ha
  get _ _ _ := rfl
  container := rfl
  malloc := rfl
  limit := rfl
  perBlock := rfl
  blocks := by
    rw [List.toFinset_nil, Finset.union_empty]
    exact (Nat.max_eq_left h.blocks_le).symm
  initializer := rfl

theorem Grows.trans (h : Grows P w c live c' S A) (h' : Grows P w c' (live ∪ S.toFinset) c'' S' A') :
    Grows P w c live c'' (S ++ S') (A ++ A') where
  held := by
    have := h'.held
    rwa [Finset.union_assoc, ← List.toFinset_append] at this
  nodup := by
    refine List.nodup_append.2 ⟨h.nodup, h'.nodup, ?_⟩
    rintro s hs _ hs' rfl
    exact h'.fresh s hs' (by simp [hs])
  fresh := by
    intro s hs
    rcases List.mem_append.1 hs with hs | hs
    · exact h.fresh s hs
    · exact fun hl => h'.fresh s hs (by simp [hl])
  load s hs := by rw [h'.load s (by simp [hs]), h.load s hs]
  dom a := by rw [h'.dom, h.dom, List.mem_append, or_assoc]
  arraysNodup := by
    refine List.nodup_append.2 ⟨h.arraysNodup, h'.arraysNodup, ?_⟩
    rintro a ha _ ha' rfl
    exact h'.arraysFresh a ha' ((h.dom a).2 (.inr ha))
  arraysFresh := by
    intro a ha
    rcases List.mem_append.1 ha with ha | ha
    · exact h.arraysFresh a ha
    · exact fun hd => h'.arraysFresh a ha ((h.dom a).2 (.inl hd))
  get a ha hw := by rw [h'.get a ((h.dom a).2 (.inl ha)) hw, h.get a ha hw]
  container := h'.container.trans h.container
  malloc := h'.malloc.trans h.malloc
  limit := h'.limit.trans h.limit
  perBlock := h'.perBlock.trans h.perBlock
  blocks := by
    have hsame : c'.types.blocksFor = c.types.blocksFor := by
      funext n
      rw [MemoryPool.blocksFor, MemoryPool.blocksFor, h.perBlock]
    have hle : (live ∪ S.toFinset).card ≤ (live ∪ (S ++ S').toFinset).card := by
      refine Finset.card_le_card ?_
      rw [List.toFinset_append, ← Finset.union_assoc]
      exact Finset.subset_union_left
    rw [h'.blocks, h.blocks, hsame, Finset.union_assoc, ← List.toFinset_append, max_assoc,
      Nat.max_eq_right (c.types.blocksFor_mono hle)]
  initializer := h'.initializer.trans h.initializer

/-- An array written by the rest of a call counts as new when the call allocated it. -/
theorem Grows.trans_new {a : Nat} (h : Grows P 0 c live c' S [a])
    (h' : Grows P a c' (live ∪ S.toFinset) c'' S' A') :
    Grows P 0 c live c'' (S ++ S') (a :: A') := by
  have ha : a ∉ c.arrays.dom := h.arraysFresh a (.head _)
  have hget : ∀ x ∈ c.arrays.dom, x ≠ 0 → c''.arrays.get x = c.arrays.get x := by
    intro x hx hx0
    rw [h'.get x ((h.dom x).2 (.inl hx)) (by rintro rfl; exact ha hx), h.get x hx hx0]
  have h1 : Grows P a c live c' S [a] :=
    { h with get := fun x hx _ => h.get x hx (by
        rintro rfl
        obtain ⟨v, hv⟩ := Heap.mem_dom_iff.1 hx
        simp at hv) }
  exact { h1.trans h' with get := hget }

end
end Amqp
