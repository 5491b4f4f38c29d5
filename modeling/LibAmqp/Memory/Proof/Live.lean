import LibAmqp.Memory.Proof.PoolInv
import Mathlib.Data.Finset.Basic
import Mathlib.Data.Finset.Card

/-!
# The pool as its clients see it

`Live P pool live`: a consistent pool whose objects in use are the set `live`, and whose free slots
hold leftovers that satisfy `P`. A client that only allocates, writes what it holds and releases
needs nothing else of the pool:

* `Live.blocks_le`: there are blocks for all of them.
* `Live.allocate`: an object that was not in use, holding an initialised leftover; there is a new block
  only if all are full.
* `Live.store`, `Live.deallocate`: the objects it holds.
-/

namespace Amqp.Memory

open Lib

variable {α : Type} {P : α → Prop} {pool : MemoryPool α} {live : Finset Slot}

structure Live (P : α → Prop) (pool : MemoryPool α) (live : Finset Slot) : Prop where
  consistent : ∃ chain objects, objects.toFinset = live ∧ Consistent pool chain objects
  free : ∀ s v, s ∉ live → pool.load s = some v → P v
  zero : P pool.zero

theorem Live.mono {Q : α → Prop} (h : Live P pool live) (hPQ : ∀ v, P v → Q v) :
    Live Q pool live :=
  ⟨h.consistent, fun s v hs hv => hPQ v (h.free s v hs hv), hPQ _ h.zero⟩

theorem Live.load (h : Live P pool live) {s : Slot} (hs : s ∈ live) : ∃ v, pool.load s = some v := by
  obtain ⟨chain, objects, rfl, hc⟩ := h.consistent
  exact hc.load_live (List.mem_toFinset.1 hs)

/-- The pool's own count of the objects in use. -/
theorem Live.card (h : Live P pool live) : pool.outstandingAllocations = live.card := by
  obtain ⟨chain, objects, rfl, hc⟩ := h.consistent
  rw [hc.outstanding, List.toFinset_card_of_nodup hc.liveNodup]

/-! ## Blocks -/

/-- The blocks that `n` objects take. -/
def MemoryPool.blocksFor (pool : MemoryPool α) (n : Nat) : Nat :=
  (n + pool.allocationsPerBlock - 1) / pool.allocationsPerBlock

theorem MemoryPool.blocksFor_mono (pool : MemoryPool α) {m n : Nat} (h : m ≤ n) :
    pool.blocksFor m ≤ pool.blocksFor n := Nat.div_le_div_right (by omega)

theorem MemoryPool.blocksFor_le {n k : Nat} (hper : 1 ≤ pool.allocationsPerBlock) :
    pool.blocksFor n ≤ k ↔ n ≤ k * pool.allocationsPerBlock := by
  rw [MemoryPool.blocksFor, Nat.div_le_iff_le_mul hper]
  omega

/-- The slots of some blocks, `n` in each. -/
def slotsOf (chain : List Nat) (n : Nat) : List Slot := chain.flatMap fun a => (List.range n).map (Slot.mk a)

theorem mem_slotsOf {chain : List Nat} {n : Nat} {s : Slot} :
    s ∈ slotsOf chain n ↔ s.block ∈ chain ∧ s.index < n := by
  simp only [slotsOf, List.mem_flatMap, List.mem_map, List.mem_range]
  constructor
  · rintro ⟨a, ha, k, hk, rfl⟩
    exact ⟨ha, hk⟩
  · exact fun ⟨ha, hk⟩ => ⟨_, ha, _, hk, rfl⟩

theorem length_slotsOf (chain : List Nat) (n : Nat) : (slotsOf chain n).length = chain.length * n := by
  simp [slotsOf, List.length_flatMap]

theorem Consistent.live_subset {chain : List Nat} {objects : List Slot} (h : Consistent pool chain objects) :
    objects ⊆ slotsOf chain pool.allocationsPerBlock := fun s hs => mem_slotsOf.2 (h.liveIn s hs)

/-- The objects in use fit into the blocks. -/
theorem Consistent.length_le {chain : List Nat} {objects : List Slot} (h : Consistent pool chain objects) :
    objects.length ≤ chain.length * pool.allocationsPerBlock := by
  rw [← length_slotsOf]
  exact (h.liveNodup.subperm h.live_subset).length_le

/-- With a slot that is free there is room for one more. -/
theorem Consistent.length_lt {chain : List Nat} {objects : List Slot} (h : Consistent pool chain objects)
    {s : Slot} (hblock : s.block ∈ chain) (hindex : s.index < pool.allocationsPerBlock) (hs : s ∉ objects) :
    objects.length < chain.length * pool.allocationsPerBlock := by
  rw [← length_slotsOf]
  have hsub : s :: objects ⊆ slotsOf chain pool.allocationsPerBlock :=
    List.cons_subset.2 ⟨mem_slotsOf.2 ⟨hblock, hindex⟩, h.live_subset⟩
  exact ((List.nodup_cons.2 ⟨hs, h.liveNodup⟩).subperm hsub).length_le

/-- Blocks that are full are all of them. -/
theorem Consistent.length_full {chain : List Nat} {objects : List Slot} (h : Consistent pool chain objects)
    (hfull : ∀ a ∈ chain, Full pool.allocationsPerBlock objects a) :
    objects.length = chain.length * pool.allocationsPerBlock := by
  refine Nat.le_antisymm h.length_le ?_
  rw [← length_slotsOf]
  refine (List.Nodup.subperm ?_ fun s hs => ?_).length_le
  · refine List.nodup_flatMap.2 ⟨fun a _ => ?_, h.chainNodup.imp fun hab => ?_⟩
    · exact List.nodup_range.map fun i j hij => (Slot.mk.inj hij).2
    · refine List.disjoint_left.2 fun s hs hs' => ?_
      obtain ⟨i, -, rfl⟩ := List.mem_map.1 hs
      obtain ⟨j, -, hj⟩ := List.mem_map.1 hs'
      exact hab (Slot.mk.inj hj).1.symm
  · obtain ⟨hblock, hindex⟩ := mem_slotsOf.1 hs
    exact hfull s.block hblock s.index hindex

theorem Live.perBlock (h : Live P pool live) : 1 ≤ pool.allocationsPerBlock := by
  obtain ⟨chain, objects, -, hc⟩ := h.consistent
  exact hc.perBlock.1

theorem Live.blocks_le (h : Live P pool live) : pool.blocksFor live.card ≤ pool.blocks.dom.length := by
  obtain ⟨chain, objects, rfl, hc⟩ := h.consistent
  rw [MemoryPool.blocksFor_le hc.perBlock.1, hc.dom_length, List.toFinset_card_of_nodup hc.liveNodup]
  exact hc.length_le

/-- An allocation makes a new block if and only if the objects fill all there are. -/
theorem Allocated.blocks {chain chain' : List Nat} {objects : List Slot} {s : Slot} {pool' : MemoryPool α}
    (hc : Consistent pool chain objects) (h : Allocated pool chain objects s pool' chain') :
    pool'.blocks.dom.length = max pool.blocks.dom.length (pool.blocksFor (objects.length + 1)) := by
  have hper := hc.perBlock.1
  rw [h.consistent.dom_length, hc.dom_length]
  rcases h.placed.block with ⟨pre, post, hchain, rfl, -⟩ | ⟨-, rfl, hfull⟩
  · have hlt := hc.length_lt (by rw [hchain]; simp) h.placed.free.1 h.placed.free.2
    exact (Nat.max_eq_left ((MemoryPool.blocksFor_le hper).2 hlt)).symm
  · have hlen := hc.length_full hfull
    have hone : pool.blocksFor (objects.length + 1) = chain.length + 1 := by
      rw [MemoryPool.blocksFor, hlen, Nat.add_right_comm, Nat.add_sub_cancel, ← Nat.succ_mul,
        Nat.mul_div_cancel _ hper]
    rw [hone, List.length_cons]
    omega

/-! ## What a client does -/

theorem Live.store (h : Live P pool live) {s : Slot} (hs : s ∈ live) (v : α) :
    Live P (pool.store s v) live := by
  obtain ⟨chain, objects, hl, hc⟩ := h.consistent
  refine ⟨⟨chain, objects, hl, hc.store s v⟩, fun x w hx hw => ?_, h.zero⟩
  rw [load_store_ne] at hw
  · exact h.free x w hx hw
  · rintro rfl; exact hx hs

/-- An allocation, from the client's side. -/
structure Taken (P : α → Prop) (pool : MemoryPool α) (live : Finset Slot) (s : Slot)
    (pool' : MemoryPool α) : Prop where
  fresh : s ∉ live
  held : Live P pool' (insert s live)
  self : ∃ v, P v ∧ pool'.load s = some (pool.initializerCallback v)
  other : ∀ x ∈ live, pool'.load x = pool.load x
  zero : pool'.zero = pool.zero
  initializer : pool'.initializerCallback = pool.initializerCallback
  perBlock : pool'.allocationsPerBlock = pool.allocationsPerBlock
  blocks : pool'.blocks.dom.length = max pool.blocks.dom.length (pool.blocksFor (live.card + 1))

theorem Live.allocate (h : Live P pool live) (M : Malloc) :
    ∃ s pool', amqpAllocate M pool = .ok (s, pool') ∧ Taken P pool live s pool' := by
  obtain ⟨chain, objects, rfl, hc⟩ := h.consistent
  obtain ⟨s, pool', chain', hcall, hal⟩ := hc.allocate M
  have hfresh : s ∉ objects.toFinset := by simpa using hal.placed.free.2
  refine ⟨s, pool', hcall, hfresh, ⟨⟨chain', s :: objects, by simp, hal.consistent⟩, ?_, ?_⟩, ?_, ?_,
    hal.zero, hal.initializer, hal.perBlock, ?_⟩
  · intro x v hx hv
    rw [Finset.mem_insert, not_or] at hx
    rcases hal.loadOther x hx.1 with ho | ⟨-, ho⟩
    · exact h.free x v hx.2 (ho ▸ hv)
    · rw [ho, Option.some.injEq] at hv
      exact hv ▸ h.zero
  · exact hal.zero ▸ h.zero
  · obtain ⟨v, hv, hself⟩ := hal.loadSelf
    refine ⟨v, ?_, hself⟩
    rcases hv with hv | rfl
    · exact h.free s v hfresh hv
    · exact h.zero
  · intro x hx
    have hne : x ≠ s := by rintro rfl; exact hfresh hx
    rcases hal.loadOther x hne with ho | ⟨hb, -⟩
    · exact ho
    · exact absurd (hc.liveIn x (List.mem_toFinset.1 hx)).1 hb
  · rw [hal.blocks hc, List.toFinset_card_of_nodup hc.liveNodup]

/-- A release of a live object; its slot keeps what the object held. -/
theorem Live.deallocate (h : Live P pool live) {s : Slot} (hs : s ∈ live)
    (hleft : ∀ v, pool.load s = some v → P v) :
    ∃ pool', amqpDeallocate pool s = .ok pool' ∧ Live P pool' (live.erase s) ∧
      (∀ x ∈ live.erase s, pool'.load x = pool.load x) ∧ pool'.zero = pool.zero ∧
      pool'.initializerCallback = pool.initializerCallback := by
  obtain ⟨chain, objects, rfl, hc⟩ := h.consistent
  obtain ⟨pool', chain', hcall, hde⟩ := hc.deallocate (List.mem_toFinset.1 hs)
  refine ⟨pool', hcall, ⟨⟨chain', objects.erase s, ?_, hde.consistent⟩, ?_, ?_⟩, ?_, hde.zero,
    hde.initializer⟩
  · ext x
    simp [hc.liveNodup.mem_erase_iff]
  · intro x v hx hv
    have hv' := hde.load x v hv
    by_cases hxs : x = s
    · exact hleft v (hxs ▸ hv')
    · exact h.free x v (fun hl => hx (Finset.mem_erase.2 ⟨hxs, hl⟩)) hv'
  · exact hde.zero ▸ h.zero
  · intro x hx
    obtain ⟨hxs, hx⟩ := Finset.mem_erase.1 hx
    obtain ⟨v, hv⟩ := hde.consistent.load_live
      (hc.liveNodup.mem_erase_iff.2 ⟨hxs, List.mem_toFinset.1 hx⟩)
    rw [hv, hde.load x v hv]

/-- A pool without objects in use has no blocks, and so no leftovers. -/
theorem Live.of_empty {Q : α → Prop} (h : Live P pool ∅) (hzero : Q pool.zero) : Live Q pool ∅ := by
  obtain ⟨chain, objects, hempty, hc⟩ := h.consistent
  refine ⟨⟨chain, objects, hempty, hc⟩, fun s v _ hv => ?_, hzero⟩
  rw [MemoryPool.load, Option.map_eq_some_iff] at hv
  obtain ⟨b, hb, -⟩ := hv
  obtain ⟨x, hx, -⟩ := hc.busy s.block ((hc.dom _).1 (Heap.mem_dom_iff.2 ⟨b, hb⟩))
  rw [List.toFinset_eq_empty_iff] at hempty
  rw [hempty] at hx
  cases hx

/-- What a release leaves alone in the pool itself. -/
theorem amqpDeallocate_keeps {s : Slot} {pool' : MemoryPool α} (h : amqpDeallocate pool s = .ok pool') :
    pool'.zero = pool.zero ∧ pool'.initializerCallback = pool.initializerCallback := by
  obtain ⟨pool1, hdelete, h⟩ := Fault.bind_eq_ok.1 h
  cases h
  unfold deleteObject at hdelete
  split at hdelete
  · cases hdelete
  dsimp only at hdelete
  split at hdelete
  · cases hdelete
  split at hdelete
  · cases hdelete
  split at hdelete
  · cases hdelete
  split at hdelete
  · split at hdelete
    · cases hdelete
      exact ⟨rfl, rfl⟩
    · cases hdelete
      exact ⟨rfl, rfl⟩
  · cases hdelete
    exact ⟨rfl, rfl⟩

end Amqp.Memory
