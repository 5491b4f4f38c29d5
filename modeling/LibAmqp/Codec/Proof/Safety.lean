import LibAmqp.Codec.Proof.Container
import LibAmqp.Codec.Proof.Tiling
import LibAmqp.Memory.Proof.PoolRun

/-!
# What a decode can do to the process

* `returns_of_implemented`: where there is memory, `amqp_decode` returns unless the bytes have a format
  code that is in the table but not implemented; a type it returns is valid or says why it is not.
* `amqpDecode_stays_inside`: whatever the bytes, a decode ends, reads below the write index only and
  moves the read index forward.
-/

namespace Amqp

open Lib Memory

/-! ## A new context -/

theorem create_ready (M : Malloc) {n : Nat} (h1 : 1 ≤ n) (h2 : n ≤ 63) :
    Ready (· = AmqpType.zero) (Context.create M n) ∅ := by
  refine ⟨⟨⟨⟨[], [], rfl, initializePool_consistent h1 h2 _ _⟩, fun s v _ hv => ?_, rfl⟩, rfl⟩, rfl⟩
  simp [Context.create, initializePool, MemoryPool.load, Heap.get, Heap.empty] at hv

theorem Ready.mono {P Q : AmqpType → Prop} {c : Context} {live : Finset Slot} (h : Ready P c live)
    (hPQ : ∀ t, P t → Q t) : Ready Q c live := ⟨⟨h.held.mono hPQ, h.initializer⟩, h.limit⟩

section
variable {P : AmqpType → Prop} {c c' : Context} {live : Finset Slot} {b : Buffer} {inp : Input}
  {address : Nat} {n : Node} {kids F : Layout}

/-- A decoded type as a caller of `amqp_decode` sees it. -/
theorem Fits.seen (h : Fits c inp address P n kids) : ∃ t, c.types.load n.slot = some t ∧
    t.typeIsValid = n.item.accepted ∧ t.constructor.formatCode = n.item.code ∧
    (n.item.accepted = true → t.position = ⟨n.item.index, n.item.size⟩) ∧
    (n.item.accepted = false → t.invalidCause.isSome = true) := by
  obtain ⟨t, role, hrole, hrec, hload⟩ := h.record
  refine ⟨_, hload, ?_, ?_⟩
  · rw [AmqpType.typeIsValid, AmqpType.typeIsInvalid, typedefFlagsTest_setRole hrole (by decide),
      ← AmqpType.typeIsInvalid, hrec.valid, Bool.not_not]
  · obtain ⟨stale, k, -, ⟨hcode, -⟩, hf⟩ := hrec
    show t.constructor.formatCode = _ ∧ (_ → t.position = _) ∧ (_ → t.invalidCause.isSome = true)
    cases hl : amqpTypeMetaDataLookup n.item.code with
    | none =>
      simp only [hl] at hf
      obtain ⟨hacc, -, -, -, rfl⟩ := hf
      exact ⟨hcode, fun h => (by rw [hacc] at h; cases h), fun _ => rfl⟩
    | some m =>
      simp only [hl] at hf
      cases hacc : n.item.accepted with
      | true =>
        obtain ⟨hcon, -, hpos⟩ := hf.accepted hacc
        exact ⟨by rw [hcon]; exact hcode, fun _ => hpos, fun h => by cases h⟩
      | false =>
        obtain ⟨hcon, hcause⟩ := hf.rejected hacc
        exact ⟨by rw [hcon]; exact hcode, fun h => (by cases h), fun _ => hcause⟩

theorem Lays.covered (h : Lays P 0 b.input address c live (.cons b.outline .nil) c' F) :
    F.All fun n kids => Fits c' b.input address P n kids ∧ Covers b.input n.item (Layout.outline kids) := by
  have hcov := outline_covers b.input b.index
  rw [show Forest.cons (Amqp.outline b.input b.index) .nil = F.map Node.item from h.outline.symm,
    Forest.all_map] at hcov
  exact h.laid.and hcov

/-! ## Format codes that are not implemented -/

/-- The extension types and `decimal128`. -/
def unimplementedCodes : List UInt8 :=
  [0x4f, 0x5f, 0x6f, 0x7f, 0x8f, 0x94, 0x9f, 0xaf, 0xbf, 0xcf, 0xdf, 0xef, 0xff]

/-- The format code of a type is not one of those. -/
def Item.Implemented (item : Item) (_ : Forest Item) : Prop := item.code ∉ unimplementedCodes

instance (item : Item) (kids : Forest Item) : Decidable (item.Implemented kids) :=
  inferInstanceAs (Decidable (_ ∉ _))

theorem table_unimplemented : ∀ m ∈ typeLookupTable.toList,
    m.kind = .unsupported ↔ m.formatCode ∈ unimplementedCodes := by
  decide +kernel

theorem unimplementedCodes_known : ∀ code ∈ unimplementedCodes,
    (amqpTypeMetaDataLookup code).isSome = true := by
  decide +kernel

theorem Item.supported_iff (item : Item) (kids : Forest Item) :
    item.Supported kids ↔ item.Implemented kids := by
  refine not_congr ?_
  rw [Item.kind, Item.metaData]
  cases hl : amqpTypeMetaDataLookup item.code with
  | none =>
    refine ⟨fun h => (by cases h), fun h => ?_⟩
    have := unimplementedCodes_known _ h
    rw [hl] at this
    cases this
  | some m =>
    obtain ⟨hm, hcode⟩ := lookup_mem hl
    rw [Option.map_some, Option.some.injEq, table_unimplemented m hm, hcode]

/-- `amqp_decode` returns null, a valid type or one that says why it is not. -/
def Returns (c : Context) (b : Buffer) : Prop :=
  ∃ ptr c' b', amqpDecode c b = .ok (ptr, c', b') ∧ ∀ s, ptr = some s →
    ∃ t, c'.types.load s = some t ∧
      (t.typeIsValid = true ∨ t.typeIsInvalid = true ∧ t.invalidCause.isSome = true)

theorem implemented_iff :
    (Forest.cons b.outline .nil).All Item.Implemented ↔
      (Forest.cons b.outline .nil).All Item.Supported :=
  ⟨.imp fun item kids => (item.supported_iff kids).2, .imp fun item kids => (item.supported_iff kids).1⟩

theorem Returns.implemented (hr : Ready P c live) (hi : b.index ≤ b.size) (h : Returns c b) :
    (Forest.cons b.outline .nil).All Item.Implemented := by
  rw [implemented_iff]
  by_contra hs
  obtain ⟨ptr, c', b', hcall, -⟩ := h
  rw [(amqpDecode_simulates hr hi).2 hs] at hcall
  cases hcall

theorem returns_of_implemented (hr : Ready P c live) (hi : b.index ≤ b.size)
    (h : (Forest.cons b.outline .nil).All Item.Implemented) : Returns c b := by
  obtain ⟨ptr, c', F, hcall, hlays, hptr⟩ := (amqpDecode_simulates hr hi).1 (implemented_iff.1 h)
  refine ⟨ptr, c', _, hcall, ?_⟩
  intro s hs
  rcases hlays.single hptr with ⟨-, hnone, -⟩ | ⟨o, n, k, -, hn, rfl, -⟩
  · rw [hnone] at hs
    cases hs
  · obtain rfl : n.slot = s := by rw [hn] at hs; exact Option.some.inj hs
    obtain ⟨t, hload, hvalid, -, -, hcause⟩ := hlays.laid.1.seen
    refine ⟨t, hload, ?_⟩
    cases hacc : n.item.accepted with
    | true => exact .inl (by rw [hvalid, hacc])
    | false =>
      refine .inr ⟨?_, hcause hacc⟩
      rw [hacc, AmqpType.typeIsValid, Bool.not_eq_false'] at hvalid
      exact hvalid

/-! ## The read index -/

/-- What a run of `amqp_decode` leaves behind: the bytes as they were, the read index ahead of where
it was and not past the write index, and the types it decoded one after the other, whose positions
are inside the bytes when they are valid. -/
structure StaysInside (c : Context) (b : Buffer) (c' : Context) (b' : Buffer) : Prop where
  buffer : b'.fragments = b.fragments ∧ b'.size = b.size ∧ b'.capacity = b.capacity
  forward : b.index ≤ b'.index
  inside : b'.index ≤ b'.size
  decoded : ∃ events, c'.trace = c.trace ++ events ∧ events.Pairwise (·.stop ≤ ·.stop) ∧
    ∀ e ∈ events, b.index ≤ e.start ∧ e.start ≤ e.stop ∧ e.stop ≤ b'.index ∧
      ∃ t, c'.types.load e.slot = some t ∧
        (t.typeIsValid = true → t.position.index + t.position.size ≤ b.size)

/-- The outline as a list of one type, or none. -/
theorem outline_tiles (hi : b.index ≤ b.size) :
    Tiles b.index (stopOf b.outline b.index) (.cons b.outline .nil) := by
  have hnext := fun i hi =>
    walkDecode_bounds (walkInto_bounds b.input (b.input.size - b.index + 1)) (i := i) hi
  exact walkMany_tiles hnext (fun i o => walkDecode_start) 1 b.index hi

theorem amqpDecode_stays_inside (hr : Ready (fun _ => True) c live) (hi : b.index ≤ b.size) :
    amqpDecode c b = .error .notImplemented ∨
      ∃ ptr c' b', amqpDecode c b = .ok (ptr, c', b') ∧ StaysInside c b c' b' := by
  obtain ⟨hok, herr⟩ := amqpDecode_simulates hr hi
  by_cases hs : (Forest.cons b.outline .nil).All Item.Supported
  · obtain ⟨ptr, c', F, hcall, hlays, -⟩ := hok hs
    have hbounds := walkDecode_bounds (walkInto_bounds b.input (b.size - b.index + 1)) hi
    obtain ⟨hin, hord⟩ := (outline_tiles hi).labels (outline_covers b.input b.index)
    rw [← hlays.outline, Layout.outline, Forest.labels_map] at hin hord
    have hwindow : ∀ n ∈ F.labels, ∃ t, c'.types.load n.slot = some t ∧
        (t.typeIsValid = true → t.position.index + t.position.size ≤ b.size) := by
      refine hlays.covered.labels fun n kids h => ?_
      obtain ⟨t, hload, hvalid, -, hpos, -⟩ := h.1.seen
      refine ⟨t, hload, fun hv => ?_⟩
      rw [hpos (hvalid.symm.trans hv)]
      exact h.2.window
    refine .inr ⟨ptr, c', _, hcall, ⟨rfl, rfl, rfl⟩, hbounds.1, hbounds.2, Layout.events F,
      hlays.trace, ?_, fun e he => ?_⟩
    · rw [List.pairwise_map] at hord
      exact List.pairwise_map.2 hord
    · obtain ⟨n, hn, rfl⟩ := List.mem_map.1 he
      obtain ⟨h1, h2, h3⟩ := hin n.item (List.mem_map_of_mem hn)
      exact ⟨h1, h2, h3, hwindow n hn⟩
  · exact .inl (herr hs)

theorem amqpDecode_stays_inside_truncated :
    let c := Context.create Malloc.bump 21
    let b := Buffer.received [0xc0, 0x08, 0x03, 0x50, 0x07, 0xa1, 0x01, 0x61, 0xe0, 0x20]
    amqpDecode c b = .error .notImplemented ∨
      ∃ ptr c' b', amqpDecode c b = .ok (ptr, c', b') ∧ StaysInside c b c' b' :=
  amqpDecode_stays_inside ((create_ready Malloc.bump (by decide) (by decide)).mono fun _ _ => trivial)
    (by decide)

end
end Amqp
