import LibAmqp.Codec.Proof.Leaf
import LibAmqp.Codec.Proof.Walk

/-!
# The decoder follows the outline

`Simulates P inp recurse into bound`: on fewer than `bound` bytes, `recurse` (what decodes a type
after its constructor) lays out in the pool what the walk `into` reads, or stops the process when
the walk meets a format code that is not supported. The element loops and `amqp_decode` itself keep
that, and `decodeTypeIntoResult_simulates` closes the recursion.

* `amqpDecode_lays`: a run of `amqp_decode` whose outline is supported.
* `amqpDecode_unsupported`: one whose outline is not.
-/

namespace Amqp

open Lib Memory

/-- A context the codec can work with while there is memory. -/
structure Usable (P : AmqpType → Prop) (c : Context) (live : Finset Slot) : Prop where
  held : Live P c.types live
  initializer : c.types.initializerCallback = AmqpType.initializeAmqpType

/-- A context the codec can work with. -/
structure Ready (P : AmqpType → Prop) (c : Context) (live : Finset Slot) : Prop extends Usable P c live where
  limit : c.limit = .unlimited

/-- A type whose format code something decodes, or that nothing knows. -/
def Item.Supported (item : Item) (_ : Forest Item) : Prop := item.kind ≠ some .unsupported

instance (item : Item) (kids : Forest Item) : Decidable (item.Supported kids) :=
  inferInstanceAs (Decidable (_ ≠ _))

/-- A run that went from `c` to `c'` and laid out the outline `O` as `F`. -/
structure Lays (P : AmqpType → Prop) (w : Nat) (inp : Input) (address : Nat) (c : Context)
    (live : Finset Slot) (O : Forest Item) (c' : Context) (F : Layout) : Prop where
  outline : F.outline = O
  grows : Grows P w c live c' F.slots F.arrays
  trace : c'.trace = c.trace ++ F.events
  laid : Laid c' inp address P F

/-- A run that filled in a type, from `t` to `t'`, by the outline `o`. -/
structure Fills (P : AmqpType → Prop) (inp : Input) (address : Nat) (c : Context)
    (live : Finset Slot) (m : EncodingMetaData) (o : Outline) (t : AmqpType) (c' : Context)
    (t' : AmqpType) (n : Node) (kids : Layout) : Prop where
  item : n.item = o.1
  outline : kids.outline = o.2
  grows : Grows P 0 c live c' ((n.holder.map Holder.slot).toList ++ kids.slots)
    (n.array.toList ++ kids.arrays)
  trace : c'.trace = c.trace ++ kids.events
  laid : Laid c' inp address P kids
  filled : Filled inp address m n kids t t'
  elements : ∀ a, n.array = some a → ArrayHolds c' a kids
  holder : ∀ h, n.holder = some h → HoldsType c' h.slot (HolderFits P h.code) ∧
    ∀ kid, some kid ∈ kids.roots → kid.item.code = h.code

/-- Every type of an outline is supported. -/
def Outline.Supported (o : Outline) : Prop := o.1.Supported o.2 ∧ o.2.All Item.Supported

def Simulates (P : AmqpType → Prop) (inp : Input) (recurse : Recurse) (into : Walk)
    (bound : Nat) : Prop :=
  ∀ (c : Context) (live : Finset Slot) (b : Buffer) (t : AmqpType) (m : EncodingMetaData)
    (start : Nat) (s : Slot), b.input = inp → Ready P c live → b.index ≤ b.size →
    b.size - b.index < bound → m ∈ typeLookupTable.toList → t.constructor.metaData = some m →
    ((into m start b.index).Supported → ∃ c' t' n kids, n.slot = s ∧
      recurse c b t = .ok ((into m start b.index).1.accepted, c',
        { b with index := (into m start b.index).1.stop }, t') ∧
      Fills P inp b.address c live m (into m start b.index) t c' t' n kids) ∧
    (¬ (into m start b.index).Supported → recurse c b t = .error .notImplemented)

/-! ## Steps of a context -/

section
variable {P : AmqpType → Prop} {w : Nat} {c c' c'' : Context} {live : Finset Slot}
  {S : List Slot} {A : List Nat} {inp : Input} {address : Nat}

theorem Ready.grow (h : Ready P c live) (hg : Grows P w c live c' S A) :
    Ready P c' (live ∪ S.toFinset) :=
  ⟨⟨hg.held, hg.initializer.trans h.initializer⟩, hg.limit.trans h.limit⟩

/-- Address 0 is never allocated: nothing written there. -/
theorem Grows.weaken (h : Grows P 0 c live c' S A) : Grows P w c live c' S A :=
  { h with get := fun a ha _ => h.get a ha (by
      rintro rfl
      obtain ⟨v, hv⟩ := Heap.mem_dom_iff.1 ha
      simp at hv) }

theorem allocateType_spec (h : Ready P c live) : ∃ s c' stale, c.allocateType = .ok (s, c') ∧
    Grows P 0 c live c' [s] [] ∧ c'.trace = c.trace ∧ P stale ∧
    c'.load s = .ok stale.initializeAmqpType ∧ c'.arrays = c.arrays := by
  obtain ⟨s, types, hcall, htaken⟩ := h.held.allocate c.malloc
  obtain ⟨stale, hP, hload⟩ := htaken.self
  have hlimit : ({ c with types := types } : Context).isGranted = true := Context.isGranted_unlimited h.limit
  refine ⟨s, { c with types := types }, stale, ?_, ?_, rfl, hP, ?_, rfl⟩
  · simp only [Context.allocateType, hcall, Fault.ok_bind, hlimit, Bool.true_eq_false, and_false, if_false]
  · constructor
    · have hins : live ∪ [s].toFinset = insert s live := by ext; simp
      rw [hins]
      exact htaken.held
    · exact List.nodup_singleton s
    · intro x hx
      rw [List.mem_singleton] at hx
      exact hx ▸ htaken.fresh
    · exact htaken.other
    · exact fun a => by simp
    · exact List.nodup_nil
    · exact fun a ha => nomatch ha
    · exact fun _ _ _ => rfl
    · rfl
    · rfl
    · rfl
    · exact htaken.perBlock
    · have hcard : (live ∪ [s].toFinset).card = live.card + 1 := by
        rw [List.toFinset_cons, List.toFinset_nil, insert_empty_eq, Finset.union_comm,
          ← Finset.insert_eq, Finset.card_insert_of_notMem htaken.fresh]
      rw [hcard]
      exact htaken.blocks
    · exact htaken.initializer
  · rw [h.initializer] at hload
    simp only [Context.load, hload]

/-- Writing a type that is new. -/
theorem Grows.store (h : Grows P w c live c' S A) {s : Slot} (hs : s ∈ S) (t : AmqpType) :
    Grows P w c live (c'.store s t) S A :=
  { h with
    held := h.held.store (by simp [hs]) t
    load := fun x hx => by
      rw [← h.load x hx]
      refine load_store_ne _ ?_
      rintro rfl
      exact h.fresh x hs hx
    blocks := by
      rw [← h.blocks]
      exact congrArg List.length (Heap.dom_modify ..) }

theorem Grows.load_new (h : Grows P w c live c' S A) {s : Slot} (hs : s ∈ S) :
    ∃ t, c'.types.load s = some t := h.held.load (by simp [hs])

/-- A new element array, of null pointers. -/
theorem allocateArray_spec (h : Ready P c live) (count : Nat) :
    ∃ a c', c.allocateArray count = .ok (a, c') ∧ Grows P 0 c live c' [] [a] ∧ c'.trace = c.trace ∧
      c'.types = c.types ∧
      c'.arrays.get a = some (List.replicate (Context.arrayLength count) none) := by
  have hlimit : ({ c with arrays := (c.arrays.malloc c.malloc
      (List.replicate (Context.arrayLength count) none)).2 } : Context).isGranted = true :=
    Context.isGranted_unlimited h.limit
  refine ⟨c.malloc.pick c.arrays.dom, _, if_pos hlimit, ?_, rfl, rfl, Heap.get_malloc_self _ _ _⟩
  have hrefl := Grows.refl (w := 0) h.held
  constructor
  · exact hrefl.held
  · exact List.nodup_nil
  · exact fun s hs => nomatch hs
  · exact fun _ _ => rfl
  · intro a
    simp only [List.mem_cons, List.not_mem_nil, or_false]
    exact or_comm
  · exact List.nodup_singleton _
  · intro a ha
    rw [List.mem_singleton] at ha
    exact ha ▸ c.malloc.fresh _
  · intro a ha _
    obtain ⟨v, hv⟩ := Heap.mem_dom_iff.1 ha
    rw [hv]
    exact Heap.get_malloc_of_some hv
  · rfl
  · rfl
  · rfl
  · rfl
  · exact hrefl.blocks
  · rfl

/-- An entry of an element array. -/
theorem setElement_spec {a i : Nat} {l : List (Option Slot)} (hl : c.arrays.get a = some l)
    (hi : i < l.length) (s : Slot) :
    ∃ c', c.setElement a i s = .ok c' ∧ c'.types = c.types ∧ c'.trace = c.trace ∧
      c'.arrays.get a = some (l.set i (some s)) ∧ c'.arrays.dom = c.arrays.dom ∧
      (∀ x, x ≠ a → c'.arrays.get x = c.arrays.get x) ∧ c'.container = c.container ∧
      c'.malloc = c.malloc ∧ c'.limit = c.limit := by
  refine ⟨{ c with arrays := c.arrays.set a (l.set i (some s)) }, ?_, rfl, rfl,
    Heap.get_set_self hl, rfl, fun x hx => Heap.get_set_ne _ hx, rfl, rfl, rfl⟩
  simp only [Context.setElement, hl, if_pos hi]

theorem Grows.setElement (h : Grows P w c live c' S A) (htypes : c''.types = c'.types)
    (hdom : c''.arrays.dom = c'.arrays.dom)
    (hget : ∀ x, x ≠ w → c''.arrays.get x = c'.arrays.get x)
    (hcon : c''.container = c'.container) (hmal : c''.malloc = c'.malloc) (hlimit : c''.limit = c'.limit) :
    Grows P w c live c'' S A :=
  { h with
    held := htypes ▸ h.held
    load := fun s hs => by rw [htypes, h.load s hs]
    dom := fun a => by rw [hdom, h.dom a]
    get := fun a ha hw => by rw [hget a hw, h.get a ha hw]
    container := hcon.trans h.container
    malloc := hmal.trans h.malloc
    limit := hlimit.trans h.limit
    perBlock := by rw [htypes, h.perBlock]
    blocks := by rw [htypes, h.blocks]
    initializer := by rw [htypes, h.initializer] }

/-- A role for a type that is new. -/
theorem Grows.modify (h : Grows P w c live c' S A) {s : Slot} (hs : s ∈ S) (role : TypedefFlags) :
    ∃ t, c'.types.load s = some t ∧
      c'.modify s (·.typedefFlagsSet role) = .ok (c'.store s (t.typedefFlagsSet role)) ∧
      Grows P w c live (c'.store s (t.typedefFlagsSet role)) S A := by
  obtain ⟨t, ht⟩ := h.load_new hs
  refine ⟨t, ht, ?_, h.store hs _⟩
  simp only [Context.modify, Context.load, ht, Fault.ok_bind]

end

/-! ## One type, with its slot -/

/-- `step` allocates a type and lays out in it what `next` reads, on at most `bound` bytes. -/
def StepSimulates (P : AmqpType → Prop) (inp : Input)
    (step : Context → Buffer → Except Fault (Option Slot × Context × Buffer))
    (next : Nat → Option Outline) (bound : Nat) : Prop :=
  ∀ (c : Context) (live : Finset Slot) (b : Buffer), b.input = inp → Ready P c live →
    b.index ≤ b.size → b.size - b.index ≤ bound →
    ((Forest.cons (next b.index) .nil).All Item.Supported → ∃ ptr c' F,
      step c b = .ok (ptr, c', { b with index := stopOf (next b.index) b.index }) ∧
      Lays P 0 inp b.address c live (.cons (next b.index) .nil) c' F ∧ F.pointers = [ptr]) ∧
    (¬ (Forest.cons (next b.index) .nil).All Item.Supported → step c b = .error .notImplemented)

/-- The item of a walk says where it started and of which constructor. -/
def Labelled (into : Walk) : Prop :=
  ∀ m start i, (into m start i).1.code = m.formatCode ∧ (into m start i).1.start = start

section
variable {P : AmqpType → Prop} {inp : Input} {recurse : Recurse} {into : Walk} {bound : Nat}
  {c : Context} {live : Finset Slot} {b : Buffer}

/-- A type is written to its slot after its decoder is done with it. -/
theorem Fills.store {c1 c' : Context} {s : Slot} {m : EncodingMetaData} {o : Outline}
    {stale t' : AmqpType} {k : TypeConstructor} {n : Node} {kids : Layout}
    (h1 : Grows P 0 c live c1 [s] []) (htrace : c1.trace = c.trace) (hn : n.slot = s)
    (hP : P stale) (hk : ConstructorFits stale o.1.code k)
    (hm : amqpTypeMetaDataLookup o.1.code = some m)
    (h2 : Fills P inp b.address c1 (live ∪ [s].toFinset) m o { stale with constructor := k } c' t'
      n kids) :
    Lays P 0 inp b.address c live (.node o.1 o.2 .nil)
      ((c'.store s t').log ⟨s, o.1.start, o.1.stop⟩) (.node n kids .nil) := by
  have hg := h1.trans h2.grows
  have hslots : Layout.slots (.node n kids .nil) =
      [s] ++ ((n.holder.map Holder.slot).toList ++ kids.slots) := by
    simp [Layout.slots, hn]
  have harrays : Layout.arrays (.node n kids .nil) = [] ++ (n.array.toList ++ kids.arrays) := by
    simp [Layout.arrays]
  rw [← hslots, ← harrays] at hg
  have hs : s ∈ Layout.slots (.node n kids .nil) := by simp [Layout.slots, hn]
  have hself : (c'.store s t').types.load s = some t' := by
    obtain ⟨t0, ht0⟩ := hg.load_new hs
    exact load_store_self ht0
  -- the other slots of the layout are not `s`
  have hnodup := hg.nodup
  simp only [Layout.slots, hn, List.append_nil, List.nodup_cons, List.mem_append] at hnodup
  have hne : ∀ x, x ∈ (n.holder.map Holder.slot).toList ∨ x ∈ kids.slots →
      (c'.store s t').types.load x = c'.types.load x := by
    intro x hx
    refine load_store_ne _ ?_
    rintro rfl
    exact hnodup.1 hx
  refine ⟨?_, ?_, ?_, ⟨⟨?_, ?_, ?_⟩, ?_, trivial⟩⟩
  · simp only [Layout.outline, Forest.map]
    rw [h2.item, ← h2.outline]
    rfl
  · exact { hg.store hs t' with }
  · have he : n.event = ⟨s, o.1.start, o.1.stop⟩ := by rw [Node.event, h2.item, hn]
    simp only [Context.log, Context.store, h2.trace, htrace, Layout.events, Forest.labels,
      List.map_append, List.map_cons, List.map_nil, he, List.append_assoc]
  · refine ⟨t', 0#32, by decide, ⟨stale, k, hP, ?_, ?_⟩, ?_⟩
    · rw [h2.item]; exact hk
    · rw [h2.item, hm]; exact h2.filled
    · rw [AmqpType.typedefFlagsSet_zero, hn]; exact hself
  · exact fun a ha => h2.elements a ha
  · intro d hd
    obtain ⟨hd1, hd2⟩ := h2.holder d hd
    exact ⟨hd1.congr (hne _ (.inl (by simp [hd]))), hd2⟩
  · exact h2.laid.frame (fun x hx => hne x (.inr hx)) fun _ _ => rfl

/-- The constructor of a type, as `decode_type_constructor` reads it. -/
theorem decodeTypeConstructor_eq (b : Buffer) (k : TypeConstructor) :
    decodeTypeConstructor b k = .ok
      ((amqpTypeMetaDataLookup (arrayConstructor b.input b.index).1).isSome,
        { b with index := (arrayConstructor b.input b.index).2 },
        match amqpTypeMetaDataLookup (arrayConstructor b.input b.index).1 with
        | some m => ⟨some m, m.typedefFlags, (arrayConstructor b.input b.index).1, 0⟩
        | none => { k with formatCode := (arrayConstructor b.input b.index).1 }) := by
  unfold arrayConstructor decodeTypeConstructor
  by_cases h : b.index < b.size
  · rw [Buffer.getc_ok h, Fault.ok_bind, if_pos (show b.index < b.input.size from h)]
    simp only [Option.getD_some, Buffer.input]
    cases amqpTypeMetaDataLookup (b.byteAt b.index) <;> rfl
  · rw [Buffer.getc_end h, Fault.ok_bind, if_neg (show ¬ b.index < b.input.size from h)]
    simp only [Option.getD_none]
    cases amqpTypeMetaDataLookup 0xff <;> rfl

theorem amqpDecodeWith_eq (recurse : Recurse) {b : Buffer} {c c1 : Context} {s : Slot} {t : AmqpType}
    (hend : b.atEnd = false) (hall : c.allocateType = .ok (s, c1)) (hload : c1.load s = .ok t) :
    amqpDecodeWith recurse c b = (do
      let (rc, b', type) ← decodeTypeConstructorIntoResult b t
      if rc then do
        let (_, c, b'', type) ← recurse c1 b' type
        .ok (some s, (c.store s type).log ⟨s, b.index, b''.index⟩, b'')
      else .ok (some s, (c1.store s type).log ⟨s, b.index, b'.index⟩, b')) := by
  rw [amqpDecodeWith, hend, if_neg (by simp)]
  simp only [hall, hload, Fault.ok_bind]

theorem walkDecode_eq (into : Walk) {b : Buffer} (h : b.index < b.size) :
    walkDecode into b.input b.index = match amqpTypeMetaDataLookup (b.byteAt b.index) with
      | none => some (⟨b.byteAt b.index, b.index, b.index + 1, false, b.index + 1, 0⟩, .nil)
      | some m => some (into m b.index (b.index + 1)) := by
  rw [walkDecode, if_pos (show b.index < b.input.size from h)]
  rfl

theorem amqpDecodeWith_simulates (hsim : Simulates P inp recurse into bound)
    (hcode : Labelled into) :
    StepSimulates P inp (amqpDecodeWith recurse) (walkDecode into inp) bound := by
  intro c live b hb hr hi hbound
  subst hb
  have hat : b.atEnd = decide (b.index = b.size) := by
    simp only [Buffer.atEnd]
    by_cases h : b.index = b.size <;> simp [h]
  by_cases hend : b.index = b.size
  · -- nothing left
    have hw : walkDecode into b.input b.index = none := by
      rw [walkDecode, if_neg]
      show ¬ b.index < b.size
      omega
    rw [hw, amqpDecodeWith, hat, decide_eq_true hend, if_pos rfl]
    refine ⟨fun _ => ⟨none, c, .hole .nil, rfl, ⟨rfl, .refl hr.held, ?_, trivial⟩, rfl⟩, ?_⟩
    · simp [Layout.events, Forest.labels]
    · intro h
      exact absurd (show Forest.All _ (.cons none .nil) from trivial) h
  · have hlt : b.index < b.size := by omega
    obtain ⟨s, c1, stale, hall, hg1, htr1, hP, hload1, -⟩ := allocateType_spec hr
    have hstart := amqpDecodeWith_eq recurse (hat.trans (decide_eq_false hend)) hall hload1
    have hctor : arrayConstructor b.input b.index = (b.byteAt b.index, b.index + 1) := if_pos hlt
    rw [hstart, decodeTypeConstructorIntoResult, decodeTypeConstructor_eq, hctor]
    have hw := walkDecode_eq into hlt
    cases hm : amqpTypeMetaDataLookup (b.byteAt b.index) with
    | none =>
      simp only [hm] at hw
      rw [hw]
      simp only [Option.isSome_none, Fault.ok_bind, Bool.false_eq_true, if_false, decodeError]
      refine ⟨fun _ => ⟨some s, _, .node ⟨s, ⟨b.byteAt b.index, b.index, b.index + 1, false,
        b.index + 1, 0⟩, none, none⟩ .nil .nil, rfl, ⟨rfl, ?_, ?_, ⟨⟨?_, ?_, ?_⟩, trivial, trivial⟩⟩,
        rfl⟩, ?_⟩
      · exact { hg1.store (List.mem_singleton_self s) _ with }
      · simp only [Context.log, Context.store, htr1]
        rfl
      · obtain ⟨t0, ht0⟩ := hg1.load_new (List.mem_singleton_self s)
        let k := { stale.initializeAmqpType.constructor with formatCode := b.byteAt b.index }
        refine ⟨({ stale with constructor := k } : AmqpType).markInvalid .unknownFormatCode, 0#32,
          by decide, ⟨stale, k, hP, ⟨rfl, ?_⟩, ?_⟩, ?_⟩
        · simp only [hm]
          exact ⟨rfl, rfl⟩
        · simp only [hm, and_self, k]
        · rw [AmqpType.typedefFlagsSet_zero]
          exact load_store_self ht0
      · exact fun a ha => by cases ha
      · exact fun d hd => by cases hd
      · intro h
        refine absurd ⟨?_, trivial, trivial⟩ h
        rw [Item.Supported, Item.kind, Item.metaData, hm]
        simp
    | some m =>
      simp only [hm] at hw
      have hmem := lookup_mem hm
      obtain ⟨hcode1, hstart1⟩ := hcode m b.index (b.index + 1)
      have hcode2 : (into m b.index (b.index + 1)).1.code = b.byteAt b.index := hcode1.trans hmem.2
      have hsupp : (Forest.cons (some (into m b.index (b.index + 1))) .nil).All Item.Supported ↔
          (into m b.index (b.index + 1)).Supported := by
        simp [Forest.cons, Forest.All, Outline.Supported]
      rw [hw, hsupp]
      simp only [Option.isSome_some, Fault.ok_bind, if_true]
      obtain ⟨hok, herr⟩ := hsim c1 (live ∪ [s].toFinset) { b with index := b.index + 1 }
        { stale with constructor := ⟨some m, m.typedefFlags, b.byteAt b.index, 0⟩ } m b.index s rfl
        (hr.grow hg1) hlt (by simp only; omega) hmem.1 rfl
      refine ⟨fun hs => ?_, fun hs => ?_⟩
      · obtain ⟨c', t', n, kids, hns, hcall, hfills⟩ := hok hs
        refine ⟨some s, _, .node n kids .nil, ?_, hfills.store hg1 htr1 hns hP ⟨hcode2.symm, ?_⟩
          (by rw [hcode2, hm]), ?_⟩
        · have hc : recurse c1 { b with index := b.index + 1 }
              { stale.initializeAmqpType with
                constructor := ⟨some m, m.typedefFlags, b.byteAt b.index, 0⟩ } = _ := hcall
          rw [hc, Fault.ok_bind, hstart1]
          rfl
        · rw [hcode2, hm]
          exact ⟨rfl, rfl⟩
        · simp [Layout.pointers, Forest.roots, hns]
      · have hc : recurse c1 { b with index := b.index + 1 }
            { stale.initializeAmqpType with
              constructor := ⟨some m, m.typedefFlags, b.byteAt b.index, 0⟩ } = _ := herr hs
        rw [hc, Fault.error_bind]

end

/-! ## Lists of types -/

section
variable {P : AmqpType → Prop} {inp : Input} {address w : Nat} {c c1 c2 : Context}
  {live : Finset Slot} {O1 O2 : Forest Item} {F1 F2 : Layout}

theorem Lays.nil (h : Live P c.types live) : Lays P w inp address c live .nil c .nil :=
  ⟨rfl, .refl h, by simp [Layout.events, Forest.labels], trivial⟩

theorem Lays.append (h1 : Lays P w inp address c live O1 c1 F1)
    (h2 : Lays P w inp address c1 (live ∪ F1.slots.toFinset) O2 c2 F2)
    (hw : w = 0 ∨ w ∈ c.arrays.dom) :
    Lays P w inp address c live (O1.append O2) c2 (F1.append F2) where
  outline := by
    rw [Layout.outline, Forest.map_append]
    exact congrArg₂ _ h1.outline h2.outline
  grows := by
    rw [Layout.slots_append, Layout.arrays_append]
    exact h1.grows.trans h2.grows
  trace := by rw [h2.trace, h1.trace, Layout.events_append, List.append_assoc]
  laid := by
    refine Forest.all_append.2 ⟨h1.laid.frame (fun s hs => ?_) (fun a ha => ?_), h2.laid⟩
    · exact h2.grows.load s (by simp [hs])
    · have hdom := (h1.grows.dom a).2 (.inr ha)
      refine h2.grows.get a hdom ?_
      rintro rfl
      rcases hw with rfl | hw
      · obtain ⟨v, hv⟩ := Heap.mem_dom_iff.1 hdom
        simp at hv
      · exact h1.grows.arraysFresh a ha hw

/-- A container takes an element: its pointer goes to the array and its role is set. -/
theorem Lays.put {i : Nat} {l : List (Option Slot)} {e : Slot}
    (h : Lays P 0 inp address c live O1 c1 F1) (role : TypedefFlags) (hptr : F1.pointers = [some e])
    (hl : c.arrays.get w = some l) (hi : i < l.length) (hrole : IsRole role) :
    ∃ c2, (do let c ← c1.setElement w i e; c.modify e (·.typedefFlagsSet role)) = .ok c2 ∧
      Lays P w inp address c live O1 c2 F1 ∧ c2.arrays.get w = some (l.set i (some e)) := by
  have hw : w ∈ c.arrays.dom := Heap.mem_dom_iff.2 ⟨l, hl⟩
  have hw0 : w ≠ 0 := by rintro rfl; simp at hl
  have hl1 : c1.arrays.get w = some l := by rw [h.grows.get w hw hw0, hl]
  have he : e ∈ F1.slots := by
    match F1, hptr with
    | .node n kids .nil, hptr =>
      simp only [Layout.pointers, Forest.roots, List.map_cons, List.map_nil, Option.map_some,
        List.cons.injEq, Option.some.injEq] at hptr
      simp [Layout.slots, hptr.1]
  obtain ⟨c2, hset, htypes, htrace, hself, hdom, hget, hcon, hmal, hlimit⟩ := setElement_spec hl1 hi e
  have hg2 := (h.grows.weaken (w := w)).setElement htypes hdom hget hcon hmal hlimit
  obtain ⟨t, ht, hmod, hg3⟩ := hg2.modify he role
  have hlaid2 : Laid c2 inp address P F1 := by
    refine h.laid.frame (fun s _ => by rw [htypes]) fun a ha => hget a ?_
    rintro rfl
    exact h.grows.arraysFresh a ha hw
  refine ⟨_, by rw [hset, Fault.ok_bind, hmod], ⟨h.outline, hg3, ?_, hlaid2.setRole ht hrole⟩, hself⟩
  simp only [Context.store, htrace, h.trace]

end

/-! ## The element loops -/

section
variable {P : AmqpType → Prop} {inp : Input} {recurse : Recurse} {into : Walk} {bound : Nat}

/-- The entries of an array that the loop has not come to are null. -/
theorem set_replicate (pre suf : List (Option Slot)) (n : Nat) (e : Slot) :
    (pre ++ (List.replicate (n + 1) none ++ suf)).set pre.length (some e) =
      (pre ++ [some e]) ++ (List.replicate n none ++ suf) := by
  simp [List.replicate_succ]

theorem decodeElements_spec
    {step : Context → Buffer → Except Fault (Option Slot × Context × Buffer)}
    {next : Nat → Option Outline} (hsim : StepSimulates P inp step next bound)
    (hbnd : BoundedNext inp next) (elements : Nat) (n : Nat) :
    ∀ {c : Context} {live : Finset Slot} {b : Buffer} (pre suf : List (Option Slot)),
      b.input = inp → Ready P c live → b.index ≤ b.size → b.size - b.index ≤ bound →
      c.arrays.get elements = some (pre ++ (List.replicate n none ++ suf)) →
      ((walkMany next n b.index).1.All Item.Supported → ∃ c' F,
        decodeElements step elements n pre.length c b =
          .ok (c', { b with index := (walkMany next n b.index).2 }) ∧
        Lays P elements inp b.address c live (walkMany next n b.index).1 c' F ∧
        c'.arrays.get elements = some (pre ++ (F.pointers ++ suf))) ∧
      (¬ (walkMany next n b.index).1.All Item.Supported →
        decodeElements step elements n pre.length c b = .error .notImplemented) := by
  induction n with
  | zero =>
    intro c live b pre suf hb hr hi hbound hl
    refine ⟨fun _ => ⟨c, .nil, rfl, .nil hr.held, by simpa [Layout.pointers, Forest.roots] using hl⟩,
      fun h => absurd trivial h⟩
  | succ n ih =>
    intro c live b pre suf hb hr hi hbound hl
    have hw : elements ∈ c.arrays.dom := Heap.mem_dom_iff.2 ⟨_, hl⟩
    have hw0 : elements ≠ 0 := by rintro rfl; simp at hl
    obtain ⟨hok, herr⟩ := hsim c live b hb hr hi hbound
    have hstop := hbnd b.index (by rw [← hb]; exact hi)
    have hsz : inp.size = b.size := by rw [← hb]; rfl
    have hsplit : (walkMany next (n + 1) b.index).1.All Item.Supported ↔
        (Forest.cons (next b.index) .nil).All Item.Supported ∧
        (walkMany next n (stopOf (next b.index) b.index)).1.All Item.Supported := by
      simp only [walkMany]
      rw [← Forest.append_cons, Forest.all_append]
    rw [hsplit, decodeElements]
    by_cases hs1 : (Forest.cons (next b.index) .nil).All Item.Supported
    · obtain ⟨ptr, c1, F1, hcall, hlays, hptr⟩ := hok hs1
      rw [hcall, Fault.ok_bind]
      -- the rest of the loop, from whatever state the first element leaves
      have hrest : ∀ {c2 : Context} (entry : Option Slot),
          Lays P elements inp b.address c live (.cons (next b.index) .nil) c2 F1 →
          F1.pointers = [entry] →
          c2.arrays.get elements = some ((pre ++ [entry]) ++ (List.replicate n none ++ suf)) →
          ((walkMany next n (stopOf (next b.index) b.index)).1.All Item.Supported → ∃ c' F,
            decodeElements step elements n (pre.length + 1) c2
                { b with index := stopOf (next b.index) b.index } =
              .ok (c', { b with index := (walkMany next (n + 1) b.index).2 }) ∧
            Lays P elements inp b.address c live (walkMany next (n + 1) b.index).1 c' F ∧
            c'.arrays.get elements = some (pre ++ (F.pointers ++ suf))) ∧
          (¬ (walkMany next n (stopOf (next b.index) b.index)).1.All Item.Supported →
            decodeElements step elements n (pre.length + 1) c2
              { b with index := stopOf (next b.index) b.index } = .error .notImplemented) := by
        intro c2 entry hl2 hp2 hget2
        obtain ⟨hok2, herr2⟩ := ih (c := c2) (b := { b with
            index := stopOf (next b.index) b.index }) (pre ++ [entry]) suf hb
          (hr.grow hl2.grows) (by rw [← hsz]; exact hstop.2) (by simp only; omega) hget2
        rw [List.length_append, List.length_singleton] at hok2 herr2
        refine ⟨fun hs2 => ?_, herr2⟩
        obtain ⟨c3, F2, hcall2, hlays2, hget3⟩ := hok2 hs2
        refine ⟨c3, F1.append F2, hcall2, ?_, ?_⟩
        · simp only [walkMany]
          rw [← Forest.append_cons]
          exact hl2.append hlays2 (.inr hw)
        · rw [hget3, Layout.pointers_append, hp2]
          simp
      cases ptr with
      | none =>
        have hl1 : c1.arrays.get elements = some ((pre ++ [none]) ++ (List.replicate n none ++ suf)) := by
          rw [hlays.grows.get elements hw hw0, hl]
          simp [List.replicate_succ]
        obtain ⟨h1, h2⟩ := hrest none ⟨hlays.outline, hlays.grows.weaken, hlays.trace, hlays.laid⟩
          hptr hl1
        exact ⟨fun hs => h1 hs.2, fun hs => h2 fun hs2 => hs ⟨hs1, hs2⟩⟩
      | some e =>
        obtain ⟨c2, hput, hlays2, hget2⟩ := hlays.put (i := pre.length) isContained hptr hl
          (by simp) (by decide)
        rw [set_replicate] at hget2
        obtain ⟨h1, h2⟩ := hrest (some e) hlays2 hptr hget2
        obtain ⟨c', hc', hm⟩ := Fault.bind_eq_ok.1 hput
        simp only [hc', hm, Fault.ok_bind]
        exact ⟨fun hs => h1 hs.2, fun hs => h2 fun hs2 => hs ⟨hs1, hs2⟩⟩
    · rw [herr hs1, Fault.error_bind]
      exact ⟨fun hs => absurd hs.1 hs1, fun _ => rfl⟩

/-- An element of an array, of the constructor `k` that was read for all of them. -/
theorem amqpDecodeArrayElement_eq (recurse : Recurse) (k : TypeConstructor) (b : Buffer) {c c1 : Context}
    {s : Slot} {stale : AmqpType} (hall : c.allocateType = .ok (s, c1))
    (hload : c1.load s = .ok stale.initializeAmqpType) :
    amqpDecodeArrayElement recurse k c b = (do
      let (_, c, b', type) ← recurse c1 b { stale with constructor := k }
      .ok (some s, (c.store s type).log ⟨s, b.index, b'.index⟩, b')) := by
  simp only [amqpDecodeArrayElement, hall, hload, Fault.ok_bind]
  rfl

theorem amqpDecodeArrayElement_simulates (hsim : Simulates P inp recurse into bound)
    (hcode : Labelled into) {m : EncodingMetaData} (hm : m ∈ typeLookupTable.toList)
    {k : TypeConstructor} (hk : k.metaData = some m ∧ k.typedefFlags = m.typedefFlags ∧
      k.formatCode = m.formatCode) {d : Nat} (hd : d < bound) :
    StepSimulates P inp (amqpDecodeArrayElement recurse k) (fun i => some (into m i i)) d := by
  intro c live b hb hr hi hbound
  obtain ⟨s, c1, stale, hall, hg1, htr1, hP, hload1, -⟩ := allocateType_spec hr
  obtain ⟨hcode1, hstart1⟩ := hcode m b.index b.index
  have hlook : amqpTypeMetaDataLookup (into m b.index b.index).1.code = some m := by
    rw [hcode1, lookup_self m hm]
  have hsupp : (Forest.cons (some (into m b.index b.index)) .nil).All Item.Supported ↔
      (into m b.index b.index).Supported := by
    simp [Forest.cons, Forest.All, Outline.Supported]
  have hstart := amqpDecodeArrayElement_eq recurse k b hall hload1
  obtain ⟨hok, herr⟩ := hsim c1 (live ∪ [s].toFinset) b { stale with constructor := k } m b.index s hb
    (hr.grow hg1) hi (by omega) hm hk.1
  rw [hsupp, hstart]
  refine ⟨fun hs => ?_, fun hs => by rw [herr hs, Fault.error_bind]⟩
  obtain ⟨c', t', n, kids, hns, hcall, hfills⟩ := hok hs
  refine ⟨some s, _, .node n kids .nil, by rw [hcall, Fault.ok_bind]; rfl, ?_,
    by simp [Layout.pointers, Forest.roots, hns]⟩
  have := hfills.store hg1 htr1 hns hP ⟨hk.2.2.trans hcode1.symm, by
    rw [hlook]; exact ⟨hk.1, hk.2.1⟩⟩ hlook
  rwa [hstart1] at this

end
end Amqp
