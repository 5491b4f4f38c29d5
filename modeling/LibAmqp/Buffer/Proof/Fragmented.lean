import LibAmqp.Buffer.Fragmented
import LibAmqp.Buffer.Proof.IoVec

/-!
# Buffers are queues

Every call keeps a buffer sized (`step_spec`), and does to its bytes what a queue does (`Does.step`).

* `refines_queue`: any calls on a new buffer.
-/

namespace Amqp.Fragmented

open Buffer Lib

variable {b b' : Fragmented}

/-! ## Fragments -/

theorem Sized.allocated (h : b.Sized) {i : Nat} (hi : i < b.capacity) :
    b.allocated (i >>> amqpFragmentIndexBits) = true := by
  have hwhole := h.whole
  rw [h.allocated_iff, amqpFragmentIndexBits, Nat.shiftRight_eq_div_pow]
  rw [fragmentSize_eq] at *
  omega

theorem new_sized (address : Nat) : (new address).Sized := by
  refine ⟨Nat.le_refl _, Nat.zero_le _, ?_, Nat.mod_self _, fun block => ?_⟩
  · exact (by decide : amqpBufferFragmentSize ≤ amqpBufferMaxSize)
  · have hone : (new address).capacity / amqpBufferFragmentSize = 1 :=
      Nat.div_self (by decide : 0 < amqpBufferFragmentSize)
    rw [hone]
    simp only [new, beq_iff_eq]
    omega

/-- What the loop of `amqp_buffer_grow` allocates. -/
theorem grow_go_spec {needed : Nat} (h : needed ≤ amqpBufferFragments) :
    ∀ (n : Nat) {block : Nat} {b : Fragmented}, needed - block = n →
    ∃ b', grow.go needed block b = .ok b' ∧ b'.index = b.index ∧ b'.size = b.size ∧
      b'.capacity = b.capacity ∧ (∀ k < block, b'.fragments k = b.fragments k) ∧
      ∀ k, b'.allocated k = true ↔ b.allocated k = true ∨ block ≤ k ∧ k < needed := by
  intro n
  induction n with
  | zero =>
    intro block b hn
    rw [grow.go, if_neg (by omega)]
    exact ⟨b, rfl, rfl, rfl, rfl, fun _ _ => rfl, fun k => (or_iff_left (by omega)).symm⟩
  | succ n ih =>
    intro block b hn
    rw [grow.go, if_pos (by omega), if_pos (by omega)]
    obtain ⟨b', hgo, hindex, hsize, hcap, hold, hall⟩ := @ih (block + 1) (b.allocate block) (by omega)
    refine ⟨b', hgo, hindex, hsize, hcap, fun k hk => ?_, fun k => ?_⟩
    · rw [hold k (by omega)]
      exact if_neg (by omega)
    · have hrange : block ≤ k ∧ k < needed ↔ k = block ∨ block + 1 ≤ k ∧ k < needed := by omega
      rw [hall k, hrange]
      simp only [allocate, Bool.or_eq_true, beq_iff_eq]
      rw [or_assoc, or_left_comm]

/-- Bytes of fragments that are the same. -/
theorem bytes_congr {b b' : Buffer} {i n : Nat} (h : ∀ j < n, b'.byteAt (i + j) = b.byteAt (i + j)) :
    b'.bytes i n = b.bytes i n := by
  refine List.map_congr_left fun j hj => ?_
  exact h j (List.mem_range.1 hj)

theorem grow_spec (h : b.Sized) (newSize : Nat) :
    ∃ b', b.grow newSize = .ok (b'.capacity, b') ∧ b'.Sized ∧ b.capacity ≤ b'.capacity ∧
      min newSize amqpBufferMaxSize ≤ b'.capacity ∧ b'.index = b.index ∧ b'.size = b.size ∧
      b'.contents = b.contents := by
  have hmax := Nat.min_le_right newSize amqpBufferMaxSize
  unfold grow
  dsimp only
  by_cases hgrow : b.capacity < min newSize amqpBufferMaxSize
  · rw [if_pos hgrow]
    have hle := neededBlocks_le hmax
    have hwhole := h.whole
    have hsize := h.size_le
    have hneeded : neededBlocks (min newSize amqpBufferMaxSize) ≤ amqpBufferFragments :=
      Nat.le_of_mul_le_mul_right
        (Nat.le_trans hle (by decide : amqpBufferMaxSize ≤ amqpBufferFragments * amqpBufferFragmentSize))
        (by decide : 0 < amqpBufferFragmentSize)
    have hcover : min newSize amqpBufferMaxSize ≤
        neededBlocks (min newSize amqpBufferMaxSize) * amqpBufferFragmentSize := by
      unfold neededBlocks
      rw [fragmentSize_eq]
      omega
    obtain ⟨b', hgo, hindex, hsize', -, hold, hall⟩ := @grow_go_spec _ hneeded _
      (b.capacity / amqpBufferFragmentSize) b rfl
    rw [hgo, Fault.ok_bind]
    refine ⟨{ b' with
        capacity := neededBlocks (min newSize amqpBufferMaxSize) * amqpBufferFragmentSize
        capacity_le := hle }, rfl, ⟨?_, ?_, hle, Nat.mul_mod_left _ _, fun k => ?_⟩,
      Nat.le_of_lt (Nat.lt_of_lt_of_le hgrow hcover), hcover, hindex, hsize', ?_⟩
    · show b'.index ≤ b'.size
      rw [hindex, hsize']
      exact h.index_le
    · show b'.size ≤ neededBlocks (min newSize amqpBufferMaxSize) * amqpBufferFragmentSize
      omega
    · show b'.allocated k = true ↔
        k < neededBlocks (min newSize amqpBufferMaxSize) * amqpBufferFragmentSize / amqpBufferFragmentSize
      rw [hall, h.allocated_iff]
      rw [fragmentSize_eq] at *
      omega
    · show b'.bytes 0 b'.size = b.bytes 0 b.size
      rw [hsize']
      refine bytes_congr fun j hj => ?_
      unfold byteAt
      rw [hold]
      rw [amqpFragmentIndexBits, Nat.shiftRight_eq_div_pow]
      rw [fragmentSize_eq] at *
      omega
  · rw [if_neg hgrow]
    exact ⟨b, rfl, h, Nat.le_refl _, by omega, rfl, rfl, rfl⟩

/-! ## Bytes -/

theorem Writes.contents {bytes : List UInt8} (h : Writes b.toBuffer b'.toBuffer bytes) :
    b'.contents = b.contents ++ bytes := by
  have hnew := h.appends.bytes
  unfold Fragmented.contents
  rw [h.size, bytes_add, Nat.zero_add, hnew]
  exact congrArg (· ++ bytes) (bytes_congr fun j hj => h.appends.old _ (by omega))

theorem Sized.of_writes {bytes : List UInt8} (h : b.Sized) (hw : Writes b.toBuffer b'.toBuffer bytes)
    (hall : b'.allocated = b.allocated) (hroom : b.size + bytes.length ≤ b.capacity) : b'.Sized := by
  have hindex := h.index_le
  refine ⟨?_, ?_, ?_, ?_, ?_⟩
  · rw [hw.index, hw.size]
    omega
  · rwa [hw.size, hw.capacity]
  · rw [hw.capacity]
    exact h.capacity_le_max
  · rw [hw.capacity]
    exact h.whole
  · rw [hw.capacity, hall]
    exact h.allocated_iff

/-- A byte is put as it is put into a buffer whose fragments are all there. -/
theorem putc_toBuffer (h : b.Sized) (c : Int) (hroom : b.size < b.capacity) :
    ∃ b', b.putc c = .ok ((byteOf c).toNat, b') ∧ b.toBuffer.putc (byteOf c) = .ok b'.toBuffer ∧
      b'.allocated = b.allocated := by
  rw [putc, if_pos hroom, uncheckedPutcAt, if_pos (h.allocated hroom), Buffer.putc, if_pos hroom,
    uncheckedPutc, Buffer.uncheckedPutcAt, if_pos hroom]
  exact ⟨_, rfl, rfl, rfl⟩

theorem putc_writes (h : b.Sized) (c : Int) (hroom : b.size < b.capacity) :
    ∃ b', b.putc c = .ok ((byteOf c).toNat, b') ∧ b'.Sized ∧
      Writes b.toBuffer b'.toBuffer [byteOf c] := by
  obtain ⟨b', hputc, hbuffer, hall⟩ := putc_toBuffer h c hroom
  obtain ⟨b1, h1, hw⟩ := Buffer.putc_writes (byteOf c) hroom
  obtain rfl := Except.ok.inj (hbuffer.symm.trans h1)
  exact ⟨b', hputc, h.of_writes hw hall hroom, hw⟩

theorem byteOf_toNat (c : UInt8) : byteOf c.toNat = c := by
  have hlt := c.toNat_lt
  unfold byteOf
  rw [show (((c.toNat : Nat) : Int) % 256).toNat = c.toNat by omega, UInt8.ofNat_toNat]

theorem puts_go_writes : ∀ (source : List UInt8) {b : Fragmented}, b.Sized →
    b.size + source.length ≤ b.capacity → ∃ b', puts.go b source = .ok b' ∧ b'.Sized ∧
      Writes b.toBuffer b'.toBuffer source
  | [], b, h, _ => ⟨b, rfl, h, .refl _⟩
  | c :: cs, b, h, hroom => by
    simp only [List.length_cons] at hroom
    obtain ⟨b1, h1, hs1, hw1⟩ := putc_writes h c.toNat (by omega)
    rw [byteOf_toNat] at hw1
    obtain ⟨b2, h2, hs2, hw2⟩ := puts_go_writes cs hs1 (by
      rw [hw1.size, hw1.capacity, List.length_singleton]
      omega)
    refine ⟨b2, ?_, hs2, hw1.trans hw2⟩
    rw [puts.go, h1, Fault.ok_bind]
    exact h2

/-! ## Calls -/

theorem Sized.putc (h : b.Sized) (c : Int) :
    ∃ r b', b.putc c = .ok (r, b') ∧ b'.Sized ∧ b.Does (.putc c) r b' := by
  unfold Does
  dsimp only
  by_cases hroom : b.size < b.capacity
  · obtain ⟨b', hputc, hs, hw⟩ := putc_writes h c hroom
    refine ⟨_, b', hputc, hs, ?_⟩
    rw [if_pos hroom]
    exact ⟨rfl, hw.index, hw.capacity, Writes.contents hw⟩
  · refine ⟨-1, b, ?_, h, ?_⟩
    · rw [Fragmented.putc, if_neg hroom]
    · rw [if_neg hroom]
      exact ⟨rfl, rfl⟩

theorem Sized.puts (h : b.Sized) {source : List UInt8} (hlen : source.length < 2 ^ 32) :
    ∃ r b', b.puts source = .ok (r, b') ∧ b'.Sized ∧ b.Does (.puts source) r b' := by
  have hsize := h.size_le
  have hmax := h.capacity_le_max
  rw [show amqpBufferMaxSize = 65536 from rfl] at hmax
  unfold Does Fragmented.puts
  dsimp only
  rw [Nat.mod_eq_of_lt (by omega)]
  by_cases hroom : b.size + source.length < b.capacity
  · obtain ⟨b', hgo, hs, hw⟩ := puts_go_writes source h (by omega)
    rw [if_neg (by omega), hgo, Fault.ok_bind]
    refine ⟨_, b', rfl, hs, ?_⟩
    rw [if_pos hroom]
    refine ⟨?_, hw.index, hw.capacity, Writes.contents hw⟩
    rw [BitVec.toInt_ofNat', Int.bmod_def]
    omega
  · refine ⟨0, b, by rw [if_pos (by omega)], h, ?_⟩
    rw [if_neg hroom]
    exact ⟨rfl, rfl⟩

theorem Sized.getc (h : b.Sized) : ∃ r b', b.getc = .ok (r, b') ∧ b'.Sized ∧ b.Does .getc r b' := by
  have hsize := h.size_le
  unfold Does Fragmented.getc
  dsimp only
  by_cases hmore : b.index < b.size
  · rw [if_pos hmore, uncheckedGetcAt, if_pos (h.allocated (by omega)), Fault.ok_bind]
    refine ⟨_, _, rfl, ⟨hmore, hsize, h.capacity_le_max, h.whole, h.allocated_iff⟩, ?_⟩
    rw [if_pos hmore]
    exact ⟨rfl, rfl, rfl, rfl⟩
  · refine ⟨-1, b, by rw [if_neg hmore], h, ?_⟩
    rw [if_neg hmore]
    exact ⟨rfl, rfl⟩

theorem step_spec (h : b.Sized) (op : Op) (hop : op.InRange) :
    ∃ r b', b.step op = .ok (r, b') ∧ b'.Sized ∧ b.Does op r b' := by
  cases op with
  | grow newSize =>
    obtain ⟨b', hgrow, hs, hdoes⟩ := grow_spec h newSize
    refine ⟨b'.capacity, b', ?_, hs, rfl, hdoes⟩
    rw [step, hgrow]
    rfl
  | putc c => exact h.putc c
  | puts source => exact h.puts hop
  | getc => exact h.getc

/-! ## Queues -/

theorem length_contents : b.contents.length = b.size := length_bytes _ _ _

/-- The queue that a buffer is. -/
def queue (b : Fragmented) (h : b.Sized) : Queue UInt8 where
  capacity := b.capacity
  entered := b.contents
  left := b.index
  left_le := by
    rw [length_contents]
    exact h.index_le
  entered_le := by
    rw [length_contents]
    exact h.size_le

/-- A call is a step of the queue. -/
theorem Does.step {op : Op} {r : Int} (hdoes : b.Does op r b') (h : b.Sized) (h' : b'.Sized) :
    Queue.Step (b.queue h) (appended (op, r)) (returned (op, r)) (b'.queue h') := by
  cases op with
  | grow newSize =>
    obtain ⟨-, hle, -, hindex, hsize, hcontents⟩ := hdoes
    have hq : b'.queue h' = (b.queue h).widen b'.capacity :=
      Queue.ext (Nat.max_eq_right hle).symm hcontents hindex
    rw [hq]
    exact .widen _
  | putc c =>
    unfold Does at hdoes
    dsimp only at hdoes
    split at hdoes
    · rename_i hroom
      obtain ⟨rfl, hindex, hcap, hcontents⟩ := hdoes
      have hpush : (b.queue h).entered.length + [byteOf c].length ≤ (b.queue h).capacity := by
        show b.contents.length + 1 ≤ b.capacity
        rwa [length_contents]
      have hq : b'.queue h' = (b.queue h).push [byteOf c] hpush := Queue.ext hcap hcontents hindex
      rw [hq, appended, if_neg (by omega)]
      exact .push _ _
    · obtain ⟨rfl, rfl⟩ := hdoes
      rw [appended, if_pos rfl]
      exact .refuse
  | puts source =>
    unfold Does at hdoes
    dsimp only at hdoes
    split at hdoes
    · obtain ⟨rfl, hindex, hcap, hcontents⟩ := hdoes
      have hpush : (b.queue h).entered.length + source.length ≤ (b.queue h).capacity := by
        have hlen := congrArg List.length hcontents
        rw [List.length_append, length_contents] at hlen
        show b.contents.length + source.length ≤ b.capacity
        rw [← hlen, ← hcap]
        exact h'.size_le
      have hq : b'.queue h' = (b.queue h).push source hpush := Queue.ext hcap hcontents hindex
      have hsource : appended (.puts source, (source.length : Int)) = source := by
        rw [appended]
        split
        · exact (List.length_eq_zero_iff.1 (by omega)).symm
        · rfl
      rw [hq, hsource]
      exact .push _ _
    · obtain ⟨rfl, rfl⟩ := hdoes
      rw [appended, if_pos rfl]
      exact .refuse
  | getc =>
    unfold Does at hdoes
    dsimp only at hdoes
    split at hdoes
    · rename_i hmore
      obtain ⟨rfl, hcontents, hindex, hcap⟩ := hdoes
      have hpop : (b.queue h).left < (b.queue h).entered.length := by
        show b.index < b.contents.length
        rwa [length_contents]
      have hq : b'.queue h' = (b.queue h).pop hpop := Queue.ext hcap hcontents hindex
      have hbyte : (b.queue h).entered[(b.queue h).left] = b.byteAt b.index := by
        show (b.bytes 0 b.size).get ⟨b.index, _⟩ = _
        simp only [bytes, List.get_eq_getElem, List.getElem_map, List.getElem_range, Nat.zero_add]
      rw [hq, returned, if_neg (by omega), byteOf_toNat, ← hbyte]
      exact .pop _
    · obtain ⟨rfl, rfl⟩ := hdoes
      rw [returned, if_pos rfl]
      exact .refuse

theorem run_spec : ∀ {ops : List Op} {b : Fragmented} (h : b.Sized), (∀ op ∈ ops, op.InRange) →
    ∃ results b', ∃ h' : b'.Sized, b.run ops = .ok (results, b') ∧ results.map Prod.fst = ops ∧
      Queue.Run (b.queue h) (results.flatMap appended) (results.flatMap returned) (b'.queue h') := by
  intro ops
  induction ops with
  | nil => exact fun h _ => ⟨[], _, h, rfl, rfl, .nil _⟩
  | cons op ops ih =>
    intro b h hops
    obtain ⟨r, b1, hstep, h1, hdoes⟩ := step_spec h op (hops op (.head _))
    obtain ⟨results, b', h', hrun, hfst, hqueue⟩ := ih h1 fun op hop => hops op (.tail _ hop)
    refine ⟨(op, r) :: results, b', h', ?_, by rw [List.map_cons, hfst], ?_⟩
    · rw [run, hstep, Fault.ok_bind]
      dsimp only
      rw [hrun]
      rfl
    · rw [List.flatMap_cons, List.flatMap_cons]
      exact .cons (hdoes.step h h1) hqueue

/-- Calls on a new buffer are steps of an empty queue: what is returned, and what still waits, is what
was appended; and so it goes on with every further call. -/
theorem refines_queue (address : Nat) {ops : List Op} (h : ∀ op ∈ ops, op.InRange) :
    ∃ results b q, (new address).run ops = .ok (results, b) ∧ results.map Prod.fst = ops ∧ b.Sized ∧
      b.Represents q ∧
      Queue.Run (.empty amqpBufferFragmentSize) (results.flatMap appended) (results.flatMap returned) q ∧
      results.flatMap appended = results.flatMap returned ++ q.waiting ∧
      ∀ op : Op, op.InRange → ∃ r b', b.step op = .ok (r, b') ∧ b'.Sized ∧ b.Does op r b' := by
  obtain ⟨results, b, hb, hrun, hfst, hqueue⟩ := run_spec (new_sized address) h
  have hnew : (new address).queue (new_sized address) = .empty amqpBufferFragmentSize :=
    Queue.ext rfl rfl rfl
  rw [hnew] at hqueue
  exact ⟨results, b, _, hrun, hfst, hb, ⟨rfl, rfl, rfl⟩, hqueue, hqueue.fifo,
    fun op hop => step_spec hb op hop⟩

/-- One `amqp_buffer_puts` that is accepted. -/
theorem Does.accepted {source : List UInt8} {r : Int} (h : b.Does (.puts source) r b')
    (hroom : b.size + source.length < b.capacity) : r = source.length ∧ b'.index = b.index ∧
      b'.capacity = b.capacity ∧ b'.contents = b.contents ++ source ∧
      b'.size = b.size + source.length := by
  unfold Does at h
  dsimp only at h
  rw [if_pos hroom] at h
  refine ⟨h.1, h.2.1, h.2.2.1, h.2.2.2, ?_⟩
  rw [← length_contents, h.2.2.2, List.length_append, length_contents]

theorem byteAt_of_contents {c : UInt8} {cs : List UInt8} (h : b.contents = c :: cs) : b.byteAt 0 = c := by
  have hsize : b.size = cs.length + 1 := by
    rw [← length_contents, h]
    rfl
  rw [contents, hsize, Nat.add_comm cs.length 1, bytes_add] at h
  exact List.head_eq_of_cons_eq h

/-- What is put into a new buffer, and after it has grown, is there to be got. -/
theorem run_puts_grow (address : Nat) (c : UInt8) (source more : List UInt8) (n : Nat)
    (hfits : (c :: source).length < amqpBufferFragmentSize)
    (hroom : (c :: source).length + more.length < min n amqpBufferMaxSize) :
    ∃ b, (new address).run [.puts (c :: source), .grow n, .puts more, .getc] = .ok
        ([(.puts (c :: source), ((c :: source).length : Int)), (.grow n, (b.capacity : Int)),
          (.puts more, (more.length : Int)), (.getc, (c.toNat : Int))], b) ∧
      b.contents = c :: source ++ more ∧ b.index = 1 := by
  have hmax : amqpBufferFragmentSize < 2 ^ 32 ∧ amqpBufferMaxSize < 2 ^ 32 := by decide
  obtain ⟨r1, b1, hstep1, h1, hdoes1⟩ := step_spec (new_sized address) (.puts (c :: source))
    (Nat.lt_trans hfits hmax.1)
  obtain ⟨r2, b2, hstep2, h2, hdoes2⟩ := step_spec h1 (.grow n) trivial
  obtain ⟨r3, b3, hstep3, h3, hdoes3⟩ := step_spec h2 (.puts more)
    (by show more.length < 2 ^ 32; omega)
  obtain ⟨r4, b4, hstep4, h4, hdoes4⟩ := step_spec h3 .getc trivial
  obtain ⟨rfl, hindex1, -, hcontents1, hsize1⟩ := hdoes1.accepted
    (by show 0 + (c :: source).length < amqpBufferFragmentSize; omega)
  obtain ⟨rfl, -, hcap2, hindex2, hsize2, hcontents2⟩ := hdoes2
  have hsize2' : b2.size = (c :: source).length := by
    rw [hsize2, hsize1]
    exact Nat.zero_add _
  obtain ⟨rfl, hindex3, hcap3, hcontents3, hsize3⟩ := hdoes3.accepted (by omega)
  have hindex : b3.index = 0 := by
    rw [hindex3, hindex2, hindex1]
    rfl
  have hcontents : b3.contents = c :: (source ++ more) := by
    rw [hcontents3, hcontents2, hcontents1]
    rfl
  unfold Does at hdoes4
  dsimp only at hdoes4
  rw [if_pos (by rw [hindex, hsize3, hsize2', List.length_cons]; omega)] at hdoes4
  obtain ⟨rfl, hcontents4, hindex4, hcap4⟩ := hdoes4
  rw [hindex, byteAt_of_contents hcontents] at hstep4
  refine ⟨b4, ?_, hcontents4.trans hcontents, by rw [hindex4, hindex]⟩
  rw [hcap4, hcap3]
  simp only [run, hstep1, hstep2, hstep3, hstep4, Fault.ok_bind]

/-- The second `amqp_buffer_puts` goes on in the fragment that the buffer has grown by. -/
def putsAndGrow : List Op := [.puts (1 :: List.replicate 4089 0), .grow 5000, .puts [2, 3, 4, 5, 6, 7, 8, 9], .getc]

theorem putsAndGrow_inRange : ∀ op ∈ putsAndGrow, op.InRange := by
  have hlong : (1 :: List.replicate 4089 (0 : UInt8)).length < 2 ^ 32 := by
    rw [List.length_cons, List.length_replicate]
    omega
  have hshort : ([2, 3, 4, 5, 6, 7, 8, 9] : List UInt8).length < 2 ^ 32 := by decide
  unfold putsAndGrow
  simp only [List.mem_cons, List.not_mem_nil, or_false, forall_eq_or_imp, forall_eq]
  exact ⟨hlong, trivial, hshort, trivial⟩

theorem refines_queue_grown :
    (∃ results b, (new 1).run putsAndGrow = .ok (results, b) ∧
      results.map Prod.snd = [4090, (b.capacity : Int), 8, 1] ∧ b.size = 4098 ∧ b.index = 1) ∧
    ∃ results b q, (new 1).run putsAndGrow = .ok (results, b) ∧ results.map Prod.fst = putsAndGrow ∧
      b.Sized ∧ b.Represents q ∧
      Queue.Run (.empty amqpBufferFragmentSize) (results.flatMap appended) (results.flatMap returned) q ∧
      results.flatMap appended = results.flatMap returned ++ q.waiting ∧
      ∀ op : Op, op.InRange → ∃ r b', b.step op = .ok (r, b') ∧ b'.Sized ∧ b.Does op r b' := by
  refine ⟨?_, refines_queue 1 putsAndGrow_inRange⟩
  have hlen : (1 :: List.replicate 4089 (0 : UInt8)).length = 4090 := by
    rw [List.length_cons, List.length_replicate]
  obtain ⟨b, hrun, hcontents, hindex⟩ := run_puts_grow 1 1 (List.replicate 4089 0) [2, 3, 4, 5, 6, 7, 8, 9] 5000
    (by rw [hlen]; decide) (by rw [hlen]; decide)
  rw [hlen] at hrun
  refine ⟨_, b, hrun, rfl, ?_, hindex⟩
  rw [← length_contents, hcontents, List.length_append, hlen]
  rfl

end Amqp.Fragmented
