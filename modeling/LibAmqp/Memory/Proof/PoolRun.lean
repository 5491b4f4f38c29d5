import LibAmqp.Memory.Proof.PoolInv

/-!
# Histories of a pool

A client of a pool allocates objects, writes them and releases those it holds, in any order.
`run` carries out such a history from the initialised pool, with the list of the objects the
client holds beside it.

* `step_consistent`: one operation keeps the pool consistent.
* `run_consistent`: so does every history, and no operation fails.
-/

namespace Amqp.Memory

open Lib

variable {α : Type}

/-- What a client does with a pool. -/
inductive Op (α : Type)
  | allocate
  | deallocate (s : Slot)
  | write (s : Slot) (v : α)

/-- A pool with the objects its client holds and the number of allocations so far. -/
structure History (α : Type) where
  pool : MemoryPool α
  live : List Slot
  allocations : Nat

/-- One operation. Only a live object is released or written: naming another one does nothing. -/
def step (M : Malloc) (st : History α) : Op α → Except Fault (History α)
  | .allocate => do
    let (s, pool) ← amqpAllocate M st.pool
    .ok ⟨pool, s :: st.live, st.allocations + 1⟩
  | .deallocate s =>
    if s ∈ st.live then do
      let pool ← amqpDeallocate st.pool s
      .ok { st with pool := pool, live := st.live.erase s }
    else .ok st
  | .write s v => .ok (if s ∈ st.live then { st with pool := st.pool.store s v } else st)

def run (M : Malloc) (st : History α) : List (Op α) → Except Fault (History α)
  | [] => .ok st
  | op :: ops => do run M (← step M st op) ops

/-- No object yet, from a pool of `n` slots a block. -/
def History.start (n : Nat) (zero : α) (initializer : α → α) : History α :=
  ⟨initializePool n zero initializer, [], 0⟩

/-- The invariant of a history: a consistent pool that counts the allocations made. -/
structure History.Inv (n : Nat) (st : History α) (chain : List Nat) : Prop
    extends Consistent st.pool chain st.live where
  slots : st.pool.allocationsPerBlock = n
  total : st.pool.totalAllocationCalls = st.allocations

theorem initializePool_consistent {n : Nat} (h1 : 1 ≤ n) (h2 : n ≤ 63) (zero : α)
    (initializer : α → α) : Consistent (initializePool n zero initializer) [] [] where
  perBlock := ⟨h1, h2⟩
  allMask := rfl
  linked := Chain.nil
  chainNodup := List.nodup_nil
  dom _ := Iff.rfl
  liveNodup := List.nodup_nil
  liveIn _ hs := nomatch hs
  bits _ _ hb := nomatch hb
  headers _ _ hb := nomatch hb
  busy _ ha := nomatch ha
  outstanding := rfl

theorem start_inv {n : Nat} (h1 : 1 ≤ n) (h2 : n ≤ 63) (zero : α) (initializer : α → α) :
    (History.start n zero initializer).Inv n [] :=
  { initializePool_consistent h1 h2 zero initializer with slots := rfl, total := rfl }

theorem step_consistent {n : Nat} {st : History α} {chain : List Nat} (h : st.Inv n chain)
    (M : Malloc) (op : Op α) :
    ∃ st' chain', step M st op = .ok st' ∧ st'.Inv n chain' := by
  cases op with
  | allocate =>
    obtain ⟨s, pool', chain', hcall, hal⟩ := h.toConsistent.allocate M
    refine ⟨_, chain', by rw [step, hcall, Fault.ok_bind], ?_⟩
    exact { hal.consistent with
      slots := hal.perBlock.trans h.slots
      total := by rw [hal.total, h.total] }
  | deallocate s =>
    by_cases hs : s ∈ st.live
    · obtain ⟨pool', chain', hcall, hde⟩ := h.toConsistent.deallocate hs
      refine ⟨_, chain', by rw [step, if_pos hs, hcall, Fault.ok_bind], ?_⟩
      exact { hde.consistent with
        slots := hde.perBlock.trans h.slots
        total := hde.total.trans h.total }
    · exact ⟨st, chain, by rw [step, if_neg hs], h⟩
  | write s v =>
    refine ⟨_, chain, rfl, ?_⟩
    split
    · exact { h.toConsistent.store s v with slots := h.slots, total := h.total }
    · exact h

theorem run_inv {n : Nat} (M : Malloc) (ops : List (Op α)) :
    ∀ {st : History α} {chain : List Nat}, st.Inv n chain →
    ∃ st' chain', run M st ops = .ok st' ∧ st'.Inv n chain' := by
  induction ops with
  | nil => exact fun h => ⟨_, _, rfl, h⟩
  | cons op ops ih =>
    intro st chain h
    obtain ⟨st1, chain1, hstep, h1⟩ := step_consistent h M op
    obtain ⟨st2, chain2, hrun, h2⟩ := ih h1
    exact ⟨st2, chain2, by rw [run, hstep, Fault.ok_bind, hrun], h2⟩

/-- The pool's representation invariant, after every history of calls. The live objects are in
distinct slots, the masks show the free ones, `block_list` links the blocks with a live object, the
statistics count, and the next allocation goes to the first block with a free slot. -/
theorem run_consistent {n : Nat} (h1 : 1 ≤ n) (h2 : n ≤ 63) (M : Malloc) (zero : α)
    (initializer : α → α) (ops : List (Op α)) :
    ∃ st chain, run M (History.start n zero initializer) ops = .ok st ∧
      -- live objects
      st.live.Nodup ∧ (∀ s ∈ st.live, s.index < n) ∧
      -- masks
      (∀ a ∈ chain, ∃ b, st.pool.blocks.get a = some b ∧
        ∀ k, b.mask.getLsbD k = true ↔ k < n ∧ ⟨a, k⟩ ∉ st.live) ∧
      -- the list of blocks
      Chain links st.pool.blocks st.pool.blockList chain ∧ chain.Nodup ∧
      (∀ a, a ∈ chain ↔ ∃ s ∈ st.live, s.block = a) ∧
      -- statistics
      st.pool.outstandingAllocations = st.live.length ∧
      st.pool.totalAllocationCalls = st.allocations ∧
      -- the next allocation
      ∃ s pool' chain', amqpAllocate M st.pool = .ok (s, pool') ∧
        Placed n chain st.live s chain' := by
  obtain ⟨st, chain, hrun, h⟩ := run_inv M ops (start_inv h1 h2 zero initializer)
  obtain ⟨s, pool', chain', hcall, hal⟩ := h.toConsistent.allocate M
  refine ⟨st, chain, hrun, h.liveNodup, fun s hs => h.slots ▸ (h.liveIn s hs).2, ?_, h.linked,
    h.chainNodup, ?_, h.outstanding, h.total, s, pool', chain', hcall, h.slots ▸ hal.placed⟩
  · intro a ha
    obtain ⟨b, hb⟩ := h.linked.get ha
    exact ⟨b, hb, h.slots ▸ h.bits a b hb⟩
  · intro a
    refine ⟨h.busy a, ?_⟩
    rintro ⟨s, hs, rfl⟩
    exact (h.liveIn s hs).1

theorem run_consistent_types :
    (1 ≤ 21 ∧ 21 ≤ 63) ∧ ∃ st chain, run Malloc.bump (History.start 21 0 id)
        [.allocate, .allocate, .deallocate ⟨1, 0⟩, .allocate] = .ok st ∧
      st.live.Nodup ∧ (∀ s ∈ st.live, s.index < 21) ∧
      (∀ a ∈ chain, ∃ b, st.pool.blocks.get a = some b ∧
        ∀ k, b.mask.getLsbD k = true ↔ k < 21 ∧ ⟨a, k⟩ ∉ st.live) ∧
      Chain links st.pool.blocks st.pool.blockList chain ∧ chain.Nodup ∧
      (∀ a, a ∈ chain ↔ ∃ s ∈ st.live, s.block = a) ∧
      st.pool.outstandingAllocations = st.live.length ∧
      st.pool.totalAllocationCalls = st.allocations ∧
      ∃ s pool' chain', amqpAllocate Malloc.bump st.pool = .ok (s, pool') ∧
        Placed 21 chain st.live s chain' :=
  ⟨by decide, run_consistent (by decide) (by decide) Malloc.bump (0 : Nat) id
    [.allocate, .allocate, .deallocate ⟨1, 0⟩, .allocate]⟩

end Amqp.Memory
