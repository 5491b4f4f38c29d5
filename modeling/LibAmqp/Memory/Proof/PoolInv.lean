import LibAmqp.Memory.Proof.Mask

/-!
# The pool's representation invariant

`Consistent pool chain live`: `chain` are the blocks on `block_list`, in list order, and `live`
the objects handed out and not released. It ties the masks, the links, the slot headers and the
statistics together. `Shape` is the part that holds between the steps of one call, while a new
block has no live object yet or an emptied one is still on the list.

* `Shape.newBlock`, `Shape.take`, `Shape.release`, `Shape.unlink`: the steps of a call.
* `Consistent.allocate`, `Consistent.deallocate`: one call on a consistent pool.
-/

namespace Amqp.Memory

open Lib

variable {α : Type}

/-- The links of a block header. -/
def links : Links (Block α) where
  next b := b.next
  prev b := b.previous
  setNext b n := { b with next := n }
  setPrev b n := { b with previous := n }
  next_setNext _ _ := rfl
  prev_setNext _ _ := rfl
  next_setPrev _ _ := rfl
  prev_setPrev _ _ := rfl

structure Shape (pool : MemoryPool α) (chain : List Nat) (live : List Slot) : Prop where
  perBlock : 1 ≤ pool.allocationsPerBlock ∧ pool.allocationsPerBlock ≤ 63
  allMask : pool.allocationsMask = allocationsMaskFor pool.allocationsPerBlock
  linked : Chain links pool.blocks pool.blockList chain
  chainNodup : chain.Nodup
  dom : ∀ a, a ∈ pool.blocks.dom ↔ a ∈ chain
  liveNodup : live.Nodup
  liveIn : ∀ s ∈ live, s.block ∈ chain ∧ s.index < pool.allocationsPerBlock
  bits : ∀ a b, pool.blocks.get a = some b →
    ∀ k, b.mask.getLsbD k = true ↔ k < pool.allocationsPerBlock ∧ ⟨a, k⟩ ∉ live
  headers : ∀ a b, pool.blocks.get a = some b → ∀ k < pool.allocationsPerBlock,
    (b.allocations k).header = ⟨a, k, leadingMask⟩ ∧
      (b.allocations k).trailingGuard = trailingMask

structure Consistent (pool : MemoryPool α) (chain : List Nat) (live : List Slot) : Prop
    extends Shape pool chain live where
  busy : ∀ a ∈ chain, ∃ s ∈ live, s.block = a
  outstanding : pool.outstandingAllocations = live.length

/-- A block has a free slot. -/
def hasSpace (blocks : Heap (Block α)) (a : Nat) : Bool :=
  match blocks.get a with
  | some b => b.mask != 0#64
  | none => false

/-! ## Finding a block -/

theorem findBlock_seg {blocks : Heap (Block α)} : ∀ {xs : List Nat} {p a q fuel : Nat},
    Seg links blocks p a xs q 0 → xs.length < fuel →
    findBlockWithFreeSpace blocks fuel a = .ok ((xs.find? (hasSpace blocks)).getD 0)
  | [], p, a, q, fuel + 1, ⟨_, ha⟩, _ => by
    simp [findBlockWithFreeSpace, ← ha]
  | x :: xs, p, a, q, fuel + 1, ⟨hx, c, hc, hp, hs⟩, hf => by
    subst hx
    have hx0 : x ≠ 0 := by rintro rfl; simp at hc
    unfold findBlockWithFreeSpace
    rw [if_neg hx0, hc]
    by_cases hz : c.mask = 0#64
    · simp only [if_pos hz]
      have ih := findBlock_seg hs (by simp at hf; omega)
      rw [List.find?_cons_of_neg (by simp [hasSpace, hc, hz])]
      exact ih
    · simp only [if_neg hz]
      rw [List.find?_cons_of_pos]
      · rfl
      · simp [hasSpace, hc, hz]

theorem Shape.dom_length {pool : MemoryPool α} {chain : List Nat} {live : List Slot}
    (h : Shape pool chain live) : pool.blocks.dom.length = chain.length :=
  ((List.perm_ext_iff_of_nodup pool.blocks.nodup h.chainNodup).2 h.dom).length_eq

theorem Shape.findBlock {pool : MemoryPool α} {chain : List Nat} {live : List Slot}
    (h : Shape pool chain live) :
    findBlockWithFreeSpace pool.blocks (pool.blocks.dom.length + 1) pool.blockList =
      .ok ((chain.find? (hasSpace pool.blocks)).getD 0) := by
  obtain ⟨q, hs⟩ := h.linked
  exact findBlock_seg hs (by rw [h.dom_length]; omega)

/-! ## The steps of a call -/

section
variable {pool : MemoryPool α} {chain : List Nat} {live : List Slot}

theorem Shape.head_eq (h : Shape pool chain live) :
    pool.blockList = 0 ∨ ∃ b, pool.blocks.get pool.blockList = some b := by
  obtain ⟨q, hs⟩ := h.linked
  by_cases hch : chain = []
  · subst hch; exact .inl hs.2.symm
  · exact .inr (hs.get _ (hs.head_mem hch))

theorem Shape.pick_not_mem (h : Shape pool chain live) (M : Malloc) :
    M.pick pool.blocks.dom ∉ chain := fun hc => M.fresh _ ((h.dom _).2 hc)

/-- The blocks after a new one was linked in. -/
theorem Shape.get_newBlock (h : Shape pool chain live) (M : Malloc) (a : Nat) :
    (allocateNewMemoryBlock M pool).2.blocks.get a =
      if a = M.pick pool.blocks.dom then
        some (newBlock pool (M.pick pool.blocks.dom) pool.blockList)
      else (pool.blocks.modify pool.blockList (links.setPrev · (M.pick pool.blocks.dom))).get a := by
  have hself := Heap.get_malloc_self M pool.blocks (zeroBlock pool.zero)
  have hmal := fun ha : a ≠ M.pick pool.blocks.dom =>
    (Heap.get_malloc M pool.blocks (zeroBlock pool.zero) a).trans (if_neg ha)
  simp only [allocateNewMemoryBlock, Heap.malloc_fst]
  rcases h.head_eq with h0 | ⟨c, hc⟩
  · rw [h0, if_neg (by simp), Heap.modify_of_none (Heap.get_zero _)]
    split
    · rename_i ha; subst ha; exact Heap.get_set_self hself
    · rename_i ha; rw [Heap.get_set_ne _ ha, hmal ha]
  · have hne : pool.blockList ≠ 0 := by intro h0; rw [h0] at hc; simp at hc
    have hnew : M.pick pool.blocks.dom ≠ pool.blockList := by
      intro he
      rw [← he, Heap.pick_not_mem] at hc
      cases hc
    rw [if_pos hne]
    split
    · rename_i ha; subst ha
      refine Heap.get_set_self (w := zeroBlock pool.zero) ?_
      rw [Heap.get_modify_ne _ hnew, hself]
    · rename_i ha
      rw [Heap.get_set_ne _ ha]
      by_cases hab : a = pool.blockList
      · subst hab
        rw [Heap.get_modify_self (Heap.get_malloc_of_some hc), Heap.get_modify_self hc]
        rfl
      · rw [Heap.get_modify_ne _ hab, Heap.get_modify_ne _ hab, hmal ha]

/-- A modified link changes neither the mask nor the slots of a block. -/
theorem get_modify_kept {blocks : Heap (Block α)} {f : Block α → Block α} {a c : Nat} {b' : Block α}
    (h : (blocks.modify c f).get a = some b')
    (hf : ∀ b, (f b).mask = b.mask ∧ (f b).allocations = b.allocations) :
    ∃ b, blocks.get a = some b ∧ b'.mask = b.mask ∧ b'.allocations = b.allocations := by
  by_cases hac : a = c
  · subst hac
    cases hb : blocks.get a with
    | none => rw [Heap.modify_of_none hb, hb] at h; cases h
    | some b =>
      rw [Heap.get_modify_self hb] at h
      cases h
      exact ⟨b, rfl, hf b⟩
  · rw [Heap.get_modify_ne _ hac] at h
    exact ⟨b', h, rfl, rfl⟩

/-- All slots of a new block are free. -/
theorem Shape.newBlock_bits (h : Shape pool chain live) (r hd k : Nat) :
    (newBlock pool r hd).mask.getLsbD k = decide (k < pool.allocationsPerBlock) := by
  have hn := h.perBlock
  simp only [newBlock, h.allMask, BitVec.getLsbD_and, getLsbD_allocationsMask hn.1 hn.2,
    BitVec.getLsbD_allOnes]
  by_cases hk : k < pool.allocationsPerBlock
  · simp [hk]; omega
  · simp [hk]

/-- A new block goes to the head of the list. -/
theorem Shape.newBlock (h : Shape pool chain live) (M : Malloc) :
    Shape (allocateNewMemoryBlock M pool).2 (M.pick pool.blocks.dom :: chain) live := by
  have hnc := h.pick_not_mem M
  have hget := h.get_newBlock M
  have hhead : (allocateNewMemoryBlock M pool).2.blockList = M.pick pool.blocks.dom := rfl
  generalize M.pick pool.blocks.dom = new at hnc hget hhead
  have hold : ∀ a b', a ≠ new → (allocateNewMemoryBlock M pool).2.blocks.get a = some b' →
      ∃ b, pool.blocks.get a = some b ∧ b'.mask = b.mask ∧ b'.allocations = b.allocations := by
    intro a b' ha hb'
    rw [hget, if_neg ha] at hb'
    exact get_modify_kept hb' fun _ => ⟨rfl, rfl⟩
  constructor
  · exact h.perBlock
  · exact h.allMask
  · rw [hhead]
    refine h.linked.push h.chainNodup hnc ((hget new).trans (if_pos rfl)) rfl rfl fun y hy => ?_
    rw [hget, if_neg]
    rintro rfl
    exact hnc hy
  · exact List.nodup_cons.2 ⟨hnc, h.chainNodup⟩
  · intro a
    rw [List.mem_cons, ← h.dom a, Heap.mem_dom_iff, hget]
    by_cases ha : a = new
    · simp [ha]
    · rw [if_neg ha, ← Heap.mem_dom_iff, Heap.dom_modify]
      simp [ha]
  · exact h.liveNodup
  · exact fun s hs => ⟨.tail _ (h.liveIn s hs).1, (h.liveIn s hs).2⟩
  · intro a b hb k
    by_cases ha : a = new
    · subst ha
      rw [hget, if_pos rfl] at hb
      cases hb
      have hfree : (⟨a, k⟩ : Slot) ∉ live := fun hl => hnc (h.liveIn _ hl).1
      rw [h.newBlock_bits, decide_eq_true_iff]
      exact ⟨fun hk => ⟨hk, hfree⟩, fun hk => hk.1⟩
    · obtain ⟨b', hb', hm, -⟩ := hold a b ha hb
      rw [hm]
      exact h.bits a b' hb' k
  · intro a b hb k hk
    by_cases ha : a = new
    · subst ha
      rw [hget, if_pos rfl] at hb
      cases hb
      have hk' : k < pool.allocationsPerBlock := hk
      simp [Memory.newBlock, hk']
    · obtain ⟨b', hb', -, hal⟩ := hold a b ha hb
      rw [hal]
      exact h.headers a b' hb' k hk

/-- What every slot holds after a new block was linked in. -/
theorem Shape.load_newBlock (h : Shape pool chain live) (M : Malloc) (s : Slot) :
    (allocateNewMemoryBlock M pool).2.load s =
      if s.block = M.pick pool.blocks.dom then some pool.zero else pool.load s := by
  simp only [MemoryPool.load, h.get_newBlock M]
  split
  · simp only [Option.map_some, Memory.newBlock]
    split <;> rfl
  · cases hb : (pool.blocks.modify pool.blockList
        (links.setPrev · (M.pick pool.blocks.dom))).get s.block with
    | none =>
      rw [Heap.get_eq_none, Heap.dom_modify, ← Heap.get_eq_none] at hb
      rw [hb]
    | some b' =>
      obtain ⟨b, hb0, -, hal⟩ := get_modify_kept hb fun _ => ⟨rfl, rfl⟩
      rw [hb0, Option.map_some, Option.map_some, hal]

/-- A block rewritten in place, with its links and slot headers kept. -/
theorem Shape.set_block (h : Shape pool chain live) {a : Nat} {b b' : Block α} {live' : List Slot}
    (hb : pool.blocks.get a = some b) (hnext : b'.next = b.next) (hprev : b'.previous = b.previous)
    (hheaders : ∀ k, (b'.allocations k).header = (b.allocations k).header ∧
      (b'.allocations k).trailingGuard = (b.allocations k).trailingGuard)
    (hnodup : live'.Nodup)
    (hin : ∀ s ∈ live', s.block ∈ chain ∧ s.index < pool.allocationsPerBlock)
    (hother : ∀ s : Slot, s.block ≠ a → (s ∈ live' ↔ s ∈ live))
    (hbits : ∀ k, b'.mask.getLsbD k = true ↔ k < pool.allocationsPerBlock ∧ ⟨a, k⟩ ∉ live') :
    Shape { pool with blocks := pool.blocks.set a b' } chain live' where
  perBlock := h.perBlock
  allMask := h.allMask
  linked := by
    refine h.linked.congr_links fun x _ c hc => ?_
    by_cases hx : x = a
    · subst hx
      rw [hb] at hc
      cases hc
      exact ⟨b', Heap.get_set_self hb, hnext, hprev⟩
    · exact ⟨c, by rw [Heap.get_set_ne _ hx, hc], rfl, rfl⟩
  chainNodup := h.chainNodup
  dom := h.dom
  liveNodup := hnodup
  liveIn := hin
  bits := by
    intro x c hc k
    by_cases hx : x = a
    · subst hx
      rw [Heap.get_set_self hb] at hc
      cases hc
      exact hbits k
    · rw [Heap.get_set_ne _ hx] at hc
      rw [h.bits x c hc k, hother ⟨x, k⟩ hx]
  headers := by
    intro x c hc k hk
    by_cases hx : x = a
    · subst hx
      rw [Heap.get_set_self hb] at hc
      cases hc
      rw [(hheaders k).1, (hheaders k).2]
      exact h.headers x b hb k hk
    · rw [Heap.get_set_ne _ hx] at hc
      exact h.headers x c hc k hk

/-! ## One allocation -/

/-- Every slot of a block is in use. -/
def Full (n : Nat) (live : List Slot) (a : Nat) : Prop := ∀ k < n, (⟨a, k⟩ : Slot) ∈ live

/-- Where an allocation lands: in the first block with a free slot, and in a new block at the head
of the list only when there is none. The index is the lowest free one. -/
structure Placed (n : Nat) (chain : List Nat) (live : List Slot) (s : Slot) (chain' : List Nat) :
    Prop where
  block : (∃ pre post, chain = pre ++ s.block :: post ∧ chain' = chain ∧ ∀ a ∈ pre, Full n live a) ∨
    (s.block ∉ chain ∧ chain' = s.block :: chain ∧ ∀ a ∈ chain, Full n live a)
  free : s.index < n ∧ s ∉ live
  lowest : ∀ k < s.index, (⟨s.block, k⟩ : Slot) ∈ live

theorem Shape.full_iff (h : Shape pool chain live) {a : Nat} (ha : a ∈ chain) :
    hasSpace pool.blocks a = false ↔ Full pool.allocationsPerBlock live a := by
  obtain ⟨b, hb⟩ := h.linked.get ha
  have hbits := h.bits a b hb
  simp only [hasSpace, hb, bne_eq_false_iff_eq]
  constructor
  · intro hz k hk
    by_contra hfree
    have := (hbits k).2 ⟨hk, hfree⟩
    rw [hz] at this
    simp at this
  · intro hfull
    refine BitVec.eq_of_getLsbD_eq fun k _ => ?_
    by_contra hk
    obtain ⟨hk', hfree⟩ := (hbits k).1 (by simpa using hk)
    exact hfree (hfull k hk')

/-- Taking the lowest free slot of a block that has one. -/
theorem Shape.take (h : Shape pool chain live) {a : Nat} {b : Block α}
    (hb : pool.blocks.get a = some b) (hspace : hasSpace pool.blocks a = true) :
    ∃ idx m, findFreeAllocationWithinBlock pool b = .ok (idx, m) ∧ idx < pool.allocationsPerBlock ∧
      ⟨a, idx⟩ ∉ live ∧ (∀ k < idx, (⟨a, k⟩ : Slot) ∈ live) ∧
      Shape { pool with blocks := pool.blocks.set a { b with mask := m } } chain
        (⟨a, idx⟩ :: live) := by
  have hz : b.mask ≠ 0#64 := by simpa [hasSpace, hb] using hspace
  have hbits := h.bits a b hb
  obtain ⟨idx, m, hf, hset, hlow, hm⟩ :=
    findFree_spec h.perBlock.2 hz fun k hk => ((hbits k).1 hk).1
  obtain ⟨hidx, hfree⟩ := (hbits idx).1 hset
  have hach : a ∈ chain := (h.dom a).1 (Heap.mem_dom_iff.2 ⟨b, hb⟩)
  refine ⟨idx, m, hf, hidx, hfree, fun k hk => ?_, ?_⟩
  · by_contra hkf
    have := (hbits k).2 ⟨by omega, hkf⟩
    rw [hlow k hk] at this
    cases this
  · refine h.set_block hb rfl rfl (fun _ => ⟨rfl, rfl⟩) (List.nodup_cons.2 ⟨hfree, h.liveNodup⟩)
      ?_ ?_ ?_
    · intro s hs
      rcases List.mem_cons.1 hs with rfl | hs
      · exact ⟨hach, hidx⟩
      · exact h.liveIn s hs
    · intro s hs
      rw [List.mem_cons]
      refine or_iff_right ?_
      rintro rfl
      exact hs rfl
    · intro k
      rw [hm, Bool.and_eq_true, hbits, decide_eq_true_iff, List.mem_cons, Slot.mk.injEq]
      tauto

/-- The pool an allocation takes its slot from: the same one, or one with a new block. -/
theorem Consistent.chooseBlock (h : Consistent pool chain live) (M : Malloc) :
    ∃ a pool1 chain1 b, (if ((chain.find? (hasSpace pool.blocks)).getD 0) = 0 then
        allocateNewMemoryBlock M pool
      else ((chain.find? (hasSpace pool.blocks)).getD 0, pool)) = (a, pool1) ∧
      Shape pool1 chain1 live ∧ pool1.blocks.get a = some b ∧ hasSpace pool1.blocks a = true ∧
      ((∃ pre post, chain = pre ++ a :: post ∧ chain1 = chain ∧ pool1 = pool ∧
          ∀ x ∈ pre, Full pool.allocationsPerBlock live x) ∨
        (a ∉ chain ∧ chain1 = a :: chain ∧ pool1 = (allocateNewMemoryBlock M pool).2 ∧
          (∀ x ∈ chain, Full pool.allocationsPerBlock live x) ∧
          ∀ s, pool1.load s = if s.block = a then some pool.zero else pool.load s)) := by
  cases hf : chain.find? (hasSpace pool.blocks) with
  | none =>
    have hnone := List.find?_eq_none.1 hf
    have hget := h.toShape.get_newBlock M (M.pick pool.blocks.dom)
    rw [if_pos rfl] at hget
    refine ⟨M.pick pool.blocks.dom, (allocateNewMemoryBlock M pool).2, _, _, ?_,
      h.toShape.newBlock M, hget, ?_, .inr ⟨h.pick_not_mem M, rfl, rfl, ?_, h.load_newBlock M⟩⟩
    · rw [Option.getD_none, if_pos rfl]
      rfl
    · -- the mask of a new block is that of all its slots
      rw [hasSpace, hget, bne_iff_ne]
      intro hz
      have := h.toShape.newBlock_bits (M.pick pool.blocks.dom) pool.blockList 0
      have hn := h.perBlock.1
      rw [hz] at this
      simp at this
      omega
    · exact fun x hx => (h.full_iff hx).1 (by simpa using hnone x hx)
  | some a =>
    obtain ⟨hsp, pre, post, hch, hpre⟩ := List.find?_eq_some_iff_append.1 hf
    have hach : a ∈ chain := by rw [hch]; simp
    obtain ⟨b, hb⟩ := h.linked.get hach
    have ha0 : a ≠ 0 := by rintro rfl; simp at hb
    refine ⟨a, pool, chain, b, ?_, h.toShape, hb, hsp, .inl ⟨pre, post, hch, rfl, rfl, ?_⟩⟩
    · rw [Option.getD_some, if_neg ha0]
    · intro x hx
      exact (h.full_iff (by rw [hch]; simp [hx])).1 (by simpa using hpre x hx)

/-- What one allocation does to a consistent pool. -/
structure Allocated (pool : MemoryPool α) (chain : List Nat) (live : List Slot) (s : Slot)
    (pool' : MemoryPool α) (chain' : List Nat) : Prop where
  consistent : Consistent pool' chain' (s :: live)
  placed : Placed pool.allocationsPerBlock chain live s chain'
  perBlock : pool'.allocationsPerBlock = pool.allocationsPerBlock
  total : pool'.totalAllocationCalls = pool.totalAllocationCalls + 1
  zero : pool'.zero = pool.zero
  initializer : pool'.initializerCallback = pool.initializerCallback
  /-- the object starts as the slot's last contents, or zeroed in a new block -/
  loadSelf : ∃ v, (pool.load s = some v ∨ v = pool.zero) ∧
    pool'.load s = some (pool.initializerCallback v)
  loadOther : ∀ x, x ≠ s → pool'.load x = pool.load x ∨
    (x.block ∉ chain ∧ pool'.load x = some pool.zero)

/-! ## Reading and writing objects -/

theorem load_store_self {s : Slot} {v w : α} (h : pool.load s = some w) :
    (pool.store s v).load s = some v := by
  obtain ⟨b, hb, -⟩ := Option.map_eq_some_iff.1 h
  simp [MemoryPool.load, MemoryPool.store, Heap.get_modify_self hb]

theorem load_store_ne {s x : Slot} (v : α) (h : x ≠ s) : (pool.store s v).load x = pool.load x := by
  by_cases hx : x.block = s.block
  · have hi : x.index ≠ s.index := by
      intro hi
      apply h
      cases x; cases s
      exact Slot.mk.injEq .. ▸ ⟨hx, hi⟩
    cases hb : pool.blocks.get s.block with
    | none => simp [MemoryPool.load, MemoryPool.store, Heap.modify_of_none hb]
    | some b => simp [MemoryPool.load, MemoryPool.store, hx, Heap.get_modify_self hb, hb, hi]
  · simp only [MemoryPool.load, MemoryPool.store, Heap.get_modify_ne _ hx]

/-- Writing an object changes no header, mask or link. -/
theorem Shape.store (h : Shape pool chain live) (s : Slot) (v : α) :
    Shape (pool.store s v) chain live := by
  unfold MemoryPool.store Heap.modify
  cases hb : pool.blocks.get s.block with
  | none => exact h
  | some b =>
    refine h.set_block hb rfl rfl (fun k => ?_) h.liveNodup h.liveIn (fun _ _ => Iff.rfl)
      (h.bits _ b hb)
    by_cases hk : k = s.index <;> simp [hk]

theorem Consistent.store (h : Consistent pool chain live) (s : Slot) (v : α) :
    Consistent (pool.store s v) chain live :=
  { h.toShape.store s v with busy := h.busy, outstanding := h.outstanding }

theorem Shape.load_live (h : Shape pool chain live) {s : Slot} (hs : s ∈ live) :
    ∃ v, pool.load s = some v := by
  obtain ⟨b, hb⟩ := h.linked.get (h.liveIn s hs).1
  exact ⟨_, by rw [MemoryPool.load, hb, Option.map_some]⟩

theorem load_set_mask {a : Nat} {b : Block α} (hb : pool.blocks.get a = some b) (m : BitVec 64)
    (x : Slot) : ({ pool with blocks := pool.blocks.set a { b with mask := m } } : MemoryPool α).load x =
      pool.load x := by
  simp only [MemoryPool.load]
  by_cases hx : x.block = a
  · subst hx
    rw [Heap.get_set_self hb, hb, Option.map_some, Option.map_some]
  · rw [Heap.get_set_ne _ hx]

/-- The shape only depends on the parts it names. -/
theorem Shape.congr_stats (h : Shape pool chain live) (o t : Nat) :
    Shape { pool with outstandingAllocations := o, totalAllocationCalls := t } chain live :=
  { h with }

theorem Consistent.allocate (h : Consistent pool chain live) (M : Malloc) :
    ∃ s pool' chain', amqpAllocate M pool = .ok (s, pool') ∧
      Allocated pool chain live s pool' chain' := by
  obtain ⟨a, pool1, chain1, b, hchoose, hshape, hb, hspace, hwhere⟩ := h.chooseBlock M
  obtain ⟨idx, m, hfind, hidx, hfree, hlow, htake⟩ := hshape.take hb hspace
  -- nothing but the blocks and the head of the list changed so far
  have hsame : pool1.allocationsPerBlock = pool.allocationsPerBlock ∧ pool1.zero = pool.zero ∧
      pool1.initializerCallback = pool.initializerCallback ∧
      pool1.outstandingAllocations = pool.outstandingAllocations ∧
      pool1.totalAllocationCalls = pool.totalAllocationCalls := by
    rcases hwhere with ⟨_, _, _, _, rfl, _⟩ | ⟨_, _, rfl, _⟩ <;> exact ⟨rfl, rfl, rfl, rfl, rfl⟩
  obtain ⟨hn, hz, hi, ho, ht⟩ := hsame
  have hhead := (hshape.headers a b hb idx hidx).1
  set pool2 : MemoryPool α := { pool1 with blocks := pool1.blocks.set a { b with mask := m } }
    with hpool2
  have hobj : allocateObject M pool = .ok (⟨a, idx⟩, pool2) := by
    unfold allocateObject
    rw [h.findBlock, Fault.ok_bind, hchoose]
    simp only [hb, hfind, Fault.ok_bind, hhead, ne_eq, not_true_eq_false, if_false, hpool2]
  obtain ⟨v, hv⟩ := htake.load_live (.head _)
  have hv1 : pool1.load ⟨a, idx⟩ = some v := by rw [← hv, hpool2, load_set_mask hb]
  have hplaced : Placed pool.allocationsPerBlock chain live ⟨a, idx⟩ chain1 := by
    refine ⟨?_, ⟨hn ▸ hidx, hfree⟩, hlow⟩
    rcases hwhere with ⟨pre, post, hch, hch1, -, hfull⟩ | ⟨ha, hch1, -, hfull, -⟩
    · exact .inl ⟨pre, post, hch, hch1, hfull⟩
    · exact .inr ⟨ha, hch1, hfull⟩
  set pool3 := pool2.store ⟨a, idx⟩ (pool2.initializerCallback v) with hpool3
  have hcall : amqpAllocate M pool = .ok (⟨a, idx⟩, { pool3 with
      outstandingAllocations := pool3.outstandingAllocations + 1
      totalAllocationCalls := pool3.totalAllocationCalls + 1 }) := by
    rw [amqpAllocate, hobj, Fault.ok_bind]
    simp only [hv, hpool3]
  refine ⟨⟨a, idx⟩, _, chain1, hcall, ?_⟩
  constructor
  · refine { (htake.store _ _).congr_stats _ _ with busy := ?_, outstanding := ?_ }
    · intro x hx
      rcases hwhere with ⟨_, _, _, rfl, _⟩ | ⟨_, rfl, _⟩
      · obtain ⟨s, hs, hsx⟩ := h.busy x hx
        exact ⟨s, .tail _ hs, hsx⟩
      · rcases List.mem_cons.1 hx with rfl | hx
        · exact ⟨_, .head _, rfl⟩
        · obtain ⟨s, hs, hsx⟩ := h.busy x hx
          exact ⟨s, .tail _ hs, hsx⟩
    · show pool1.outstandingAllocations + 1 = _
      rw [ho, h.outstanding, List.length_cons]
  · exact hplaced
  · exact hn
  · show pool1.totalAllocationCalls + 1 = _
    rw [ht]
  · exact hz
  · exact hi
  · refine ⟨v, ?_, ?_⟩
    · rcases hwhere with ⟨_, _, _, _, rfl, _⟩ | ⟨_, _, _, _, hload⟩
      · exact .inl hv1
      · rw [hload, if_pos rfl] at hv1
        exact .inr (Option.some.inj hv1).symm
    · rw [← hi]
      exact load_store_self hv
  · intro x hx
    have hx2 : (pool2.store ⟨a, idx⟩ (pool2.initializerCallback v)).load x = pool1.load x := by
      rw [load_store_ne _ hx, hpool2, load_set_mask hb]
    rcases hwhere with ⟨_, _, _, _, rfl, _⟩ | ⟨ha, _, _, _, hload⟩
    · exact .inl hx2
    · by_cases hxa : x.block = a
      · refine .inr ⟨hxa ▸ ha, ?_⟩
        show (pool2.store ⟨a, idx⟩ (pool2.initializerCallback v)).load x = _
        rw [hx2, hload, if_pos hxa]
      · refine .inl ?_
        show (pool2.store ⟨a, idx⟩ (pool2.initializerCallback v)).load x = _
        rw [hx2, hload, if_neg hxa]

/-! ## One deallocation -/

/-- The mask of a block once slot `idx` is marked free. -/
def freedMask (m : BitVec 64) (idx : Nat) : BitVec 64 :=
  setMaskByte m (idx / 8) (maskByte m (idx / 8) ||| (1#8 <<< (idx % 8)))

theorem Shape.release (h : Shape pool chain live) {s : Slot} (hs : s ∈ live) {b : Block α}
    (hb : pool.blocks.get s.block = some b) :
    Shape { pool with blocks := pool.blocks.set s.block { b with mask := freedMask b.mask s.index } }
      chain (live.erase s) := by
  obtain ⟨hch, hidx⟩ := h.liveIn s hs
  have h64 : s.index < 64 := by have := h.perBlock.2; omega
  refine h.set_block hb rfl rfl (fun _ => ⟨rfl, rfl⟩) (h.liveNodup.erase s)
    (fun x hx => h.liveIn x (List.mem_of_mem_erase hx)) ?_ ?_
  · intro x hx
    refine List.mem_erase_of_ne ?_
    rintro rfl
    exact hx rfl
  · intro k
    rw [freedMask, getLsbD_freed h64, Bool.or_eq_true, h.bits _ b hb, decide_eq_true_iff,
      h.liveNodup.mem_erase_iff]
    constructor
    · rintro (⟨hk, hfree⟩ | rfl)
      · exact ⟨hk, fun hc => hfree hc.2⟩
      · exact ⟨hidx, fun hc => hc.1 rfl⟩
    · rintro ⟨hk, hfree⟩
      by_cases hki : k = s.index
      · exact .inr hki
      · refine .inl ⟨hk, fun hl => hfree ⟨?_, hl⟩⟩
        intro he
        exact hki (congrArg Slot.index he)

/-- The blocks left when one was taken off the list. -/
theorem get_unlinked {blocks : Heap (Block α)} {a p n x : Nat} {b' : Block α}
    (h : (unlinked links blocks a p n).get x = some b') :
    x ≠ a ∧ ∃ b, blocks.get x = some b ∧ b'.mask = b.mask ∧ b'.allocations = b.allocations := by
  rw [unlinked, Heap.get_free] at h
  split at h
  · cases h
  · rename_i hx
    refine ⟨hx, ?_⟩
    obtain ⟨b1, hb1, hm1, ha1⟩ := get_modify_kept h fun _ => ⟨rfl, rfl⟩
    obtain ⟨b2, hb2, hm2, ha2⟩ := get_modify_kept hb1 fun _ => ⟨rfl, rfl⟩
    exact ⟨b2, hb2, hm1.trans hm2, ha1.trans ha2⟩

theorem mem_dom_unlinked {blocks : Heap (Block α)} {a p n x : Nat} :
    x ∈ (unlinked links blocks a p n).dom ↔ x ≠ a ∧ x ∈ blocks.dom := by
  simp only [unlinked, Heap.dom_free, Heap.dom_modify, blocks.nodup.mem_erase_iff]

/-- A block without live objects leaves the list. -/
theorem Shape.unlink (h : Shape pool chain live) {a : Nat} {b : Block α}
    (hb : pool.blocks.get a = some b) (hempty : ∀ s ∈ live, s.block ≠ a) :
    Shape { pool with
      blockList := if b.previous = 0 then b.next else pool.blockList
      blocks := unlinked links pool.blocks a b.previous b.next } (chain.erase a) live := by
  have hach : a ∈ chain := (h.dom a).1 (Heap.mem_dom_iff.2 ⟨b, hb⟩)
  obtain ⟨pre, post, hch⟩ := List.append_of_mem hach
  have hnd := h.chainNodup
  have herase : chain.erase a = pre ++ post := by
    rw [hch] at hnd ⊢
    have hpre : a ∉ pre := fun hp => (List.nodup_append.1 hnd).2.2 a hp a (.head _) rfl
    rw [List.erase_append_right _ hpre, List.erase_cons_head]
  constructor
  · exact h.perBlock
  · exact h.allMask
  · have hl := h.linked
    rw [hch] at hl hnd
    rw [herase]
    exact hl.unlink hnd hb
  · exact hnd.erase a
  · intro x
    rw [mem_dom_unlinked, hnd.mem_erase_iff, h.dom]
  · exact h.liveNodup
  · intro s hs
    exact ⟨(hnd.mem_erase_iff).2 ⟨hempty s hs, (h.liveIn s hs).1⟩, (h.liveIn s hs).2⟩
  · intro x b' hb' k
    obtain ⟨-, c, hc, hm, -⟩ := get_unlinked hb'
    rw [hm]
    exact h.bits x c hc k
  · intro x b' hb' k hk
    obtain ⟨-, c, hc, -, hal⟩ := get_unlinked hb'
    rw [hal]
    exact h.headers x c hc k hk

/-- What one deallocation does to a consistent pool. -/
structure Deallocated (pool : MemoryPool α) (chain : List Nat) (live : List Slot) (s : Slot)
    (pool' : MemoryPool α) (chain' : List Nat) : Prop where
  consistent : Consistent pool' chain' (live.erase s)
  sublist : chain'.Sublist chain
  perBlock : pool'.allocationsPerBlock = pool.allocationsPerBlock
  total : pool'.totalAllocationCalls = pool.totalAllocationCalls
  zero : pool'.zero = pool.zero
  initializer : pool'.initializerCallback = pool.initializerCallback
  load : ∀ x v, pool'.load x = some v → pool.load x = some v

/-- `delete_object` on a live object: its slot is marked free, and a block left empty is taken off
the list. -/
theorem Shape.deleteObject (h : Shape pool chain live) {s : Slot} (hs : s ∈ live) {b : Block α}
    (hb : pool.blocks.get s.block = some b) :
    deleteObject pool s = .ok
      (if ∀ k < pool.allocationsPerBlock, (freedMask b.mask s.index).getLsbD k = true then
        { pool with
          blockList := if b.previous = 0 then b.next else pool.blockList
          blocks := unlinked links
            (pool.blocks.set s.block { b with mask := freedMask b.mask s.index })
            s.block b.previous b.next }
      else { pool with
        blocks := pool.blocks.set s.block { b with mask := freedMask b.mask s.index } }) := by
  obtain ⟨hhead, htrail⟩ := h.headers _ b hb _ (h.liveIn s hs).2
  have hempt := emptied_iff h.perBlock.1 h.perBlock.2 (freedMask b.mask s.index)
  rw [← h.allMask] at hempt
  have hmod : ∀ (hp : Heap (Block α)) (f : Block α → Block α) (n : Nat),
      (if n ≠ 0 then hp.modify n f else hp) = hp.modify n f := by
    intro hp f n
    by_cases hn : n = 0
    · rw [hn, Heap.modify_of_none (Heap.get_zero _), if_neg (by simp)]
    · rw [if_pos hn]
  have hfreed : setMaskByte b.mask (s.index / 8) (maskByte b.mask (s.index / 8) |||
      (1#8 <<< (s.index % 8))) = freedMask b.mask s.index := rfl
  unfold Memory.deleteObject
  simp only [hb, hhead, htrail, ne_eq, not_true_eq_false, if_false, hfreed]
  by_cases he : ~~~freedMask b.mask s.index &&& pool.allocationsMask = 0#64
  · rw [if_pos he, if_pos (hempt.1 he)]
    have hm := hmod (pool.blocks.set s.block { b with mask := freedMask b.mask s.index })
      (links.setPrev · b.previous) b.next
    by_cases hp : b.previous = 0
    · simp only [hp, not_true_eq_false, if_false, if_true, unlinked]
      rw [Heap.modify_of_none (a := 0) (Heap.get_zero _)]
      rw [hp] at hm
      exact congrArg (fun t => Except.ok { pool with blockList := b.next, blocks := t.free s.block }) hm
    · simp only [hp, not_false_eq_true, if_true, if_false, unlinked]
      exact congrArg (fun t => Except.ok { pool with blocks :=
        (t.modify b.previous (links.setNext · b.next)).free s.block }) hm
  · rw [if_neg he, if_neg fun hc => he (hempt.2 hc)]

theorem Consistent.deallocate (h : Consistent pool chain live) {s : Slot} (hs : s ∈ live) :
    ∃ pool' chain', amqpDeallocate pool s = .ok pool' ∧
      Deallocated pool chain live s pool' chain' := by
  obtain ⟨b, hb⟩ := h.linked.get (h.liveIn s hs).1
  have hrel := h.toShape.release hs hb
  have hdel := h.toShape.deleteObject hs hb
  have hlen : pool.outstandingAllocations - 1 = (live.erase s).length := by
    rw [h.outstanding, List.length_erase_of_mem hs]
  have hb1 := Heap.get_set_self (v := { b with mask := freedMask b.mask s.index }) hb
  -- whether a live object remains in the block, as the mask shows it
  have hbits := hrel.bits s.block _ hb1
  unfold amqpDeallocate
  rw [hdel, Fault.ok_bind]
  by_cases hempty : ∀ k < pool.allocationsPerBlock, (freedMask b.mask s.index).getLsbD k = true
  · rw [if_pos hempty]
    have hnone : ∀ x ∈ live.erase s, x.block ≠ s.block := by
      intro x hx hxs
      have hin := hrel.liveIn x hx
      exact ((hbits x.index).1 (hempty _ hin.2)).2 (by rw [← hxs]; exact hx)
    refine ⟨_, chain.erase s.block, rfl, ?_⟩
    refine ⟨{ (hrel.unlink hb1 hnone).congr_stats _ _ with busy := ?_, outstanding := hlen },
      List.erase_sublist, rfl, rfl, rfl, rfl, ?_⟩
    · intro a ha
      obtain ⟨hne, ha'⟩ := h.chainNodup.mem_erase_iff.1 ha
      obtain ⟨x, hx, hxa⟩ := h.busy a ha'
      refine ⟨x, ?_, hxa⟩
      rw [List.mem_erase_of_ne]
      · exact hx
      · rintro rfl; exact hne hxa.symm
    · intro x v hv
      obtain ⟨b', hb', rfl⟩ := Option.map_eq_some_iff.1 hv
      obtain ⟨-, c, hc, -, hal⟩ := get_unlinked hb'
      rw [hal, ← load_set_mask hb (freedMask b.mask s.index) x]
      exact Option.map_eq_some_iff.2 ⟨c, hc, rfl⟩
  · rw [if_neg hempty]
    refine ⟨_, chain, rfl, ?_⟩
    refine ⟨{ hrel.congr_stats _ _ with busy := ?_, outstanding := hlen },
      List.Sublist.refl _, rfl, rfl, rfl, rfl, ?_⟩
    · intro a ha
      by_cases hne : a = s.block
      · subst hne
        simp only [not_forall] at hempty
        obtain ⟨k, hk, hbit⟩ := hempty
        refine ⟨⟨s.block, k⟩, ?_, rfl⟩
        by_contra hfree
        exact hbit ((hbits k).2 ⟨hk, hfree⟩)
      · obtain ⟨x, hx, hxa⟩ := h.busy a ha
        refine ⟨x, ?_, hxa⟩
        rw [List.mem_erase_of_ne]
        · exact hx
        · rintro rfl; exact hne hxa.symm
    · intro x v hv
      rw [← load_set_mask hb (freedMask b.mask s.index) x]
      exact hv

end
end Amqp.Memory
