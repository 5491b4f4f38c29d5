import LibAmqp.Buffer.Proof.Fragmented

/-!
# I/O vectors of buffers that grow

The vectors of a range that a buffer has allocated lie in its fragments and make up the range
(`Sized.spans`).

* `ioVecs_span`: what is written through them, and what is read through them, after any calls.
-/

namespace Amqp.Fragmented

open Buffer

variable {b : Fragmented} {vectors : List IoVec} {i n : Nat}

/-! ## Vectors of a range -/

theorem fillIoVec_go_pos : ∀ {slots n block : Nat} {vectors : List IoVec},
    fillIoVec.go slots n block = .ok vectors →
    vectors.length ≤ slots ∧ ∀ v ∈ vectors, 0 < v.length := by
  intro slots
  induction slots with
  | zero =>
    intro n block vectors h
    cases n with
    | zero =>
      cases h
      exact ⟨Nat.le_refl _, nofun⟩
    | succ n => cases h
  | succ slots ih =>
    intro n block vectors h
    cases n with
    | zero =>
      cases h
      exact ⟨Nat.zero_le _, nofun⟩
    | succ n =>
      rw [fillIoVec.go] at h
      obtain ⟨rest, hrest, h⟩ := Fault.bind_eq_ok.1 h
      cases h
      obtain ⟨hlen, hpos⟩ := ih hrest
      refine ⟨Nat.succ_le_succ hlen, fun v hv => ?_⟩
      rcases List.mem_cons.1 hv with rfl | hv
      · dsimp only
        split
        · exact Nat.succ_pos _
        · exact Nat.succ_pos _
      · exact hpos v hv

theorem fillIoVec_pos {block offset : Nat} (hn : 1 ≤ n) (hoffset : offset < amqpBufferFragmentSize)
    (h : fillIoVec n block offset = .ok vectors) :
    vectors.length ≤ amqpBufferFragments ∧ ∀ v ∈ vectors, 0 < v.length := by
  unfold fillIoVec at h
  dsimp only at h
  split at h
  · cases h
    exact ⟨(by decide : 1 ≤ amqpBufferFragments), fun v hv => by rwa [List.mem_singleton.1 hv]⟩
  · obtain ⟨rest, hrest, h⟩ := Fault.bind_eq_ok.1 h
    cases h
    obtain ⟨hlen, hpos⟩ := fillIoVec_go_pos hrest
    refine ⟨Nat.succ_le_succ hlen, fun v hv => ?_⟩
    rcases List.mem_cons.1 hv with rfl | hv
    · exact Nat.sub_pos_of_lt hoffset
    · exact hpos v hv

/-- Vectors that lie one behind the other have the positions of the range. -/
theorem positions_eq : ∀ {vectors : List IoVec} {i n : Nat}, Covers vectors i n →
    vectors.flatMap positions = List.range' i n
  | [], _, _, h => by
    obtain rfl := h
    rfl
  | v :: vectors, i, n, ⟨hi, _, hlen, h⟩ => by
    rw [List.flatMap_cons, positions_eq h, positions, hi, List.range'_append_1, Nat.add_sub_cancel' hlen]

/-- A vector of a range is in the fragment of some of its positions. -/
theorem Covers.inside : ∀ {vectors : List IoVec} {i n : Nat}, Covers vectors i n →
    ∀ v ∈ vectors, v.offset + v.length ≤ amqpBufferFragmentSize ∧
      v.block * amqpBufferFragmentSize + v.offset + v.length ≤ i + n
  | v :: vectors, i, n, ⟨hi, hfits, hlen, h⟩, w, hw => by
    rcases List.mem_cons.1 hw with rfl | hw
    · exact ⟨hfits, by omega⟩
    · have := Covers.inside h w hw
      exact ⟨this.1, by omega⟩

theorem Sized.spans (h : b.Sized) (hn : 1 ≤ n) (hroom : i + n ≤ b.capacity) :
    ∃ vectors, fillIoVec n (i >>> amqpFragmentIndexBits) (i &&& amqpFragmentIndexMask) = .ok vectors ∧
      Covers vectors i n ∧ b.Spans vectors i n := by
  obtain ⟨vectors, hfill, hcovers⟩ := fillIoVec_covers (Nat.le_trans hroom h.capacity_le_max)
  obtain ⟨hlen, hpos⟩ := fillIoVec_pos hn (block_offset i).2 hfill
  refine ⟨vectors, hfill, hcovers, hlen, fun v hv => ?_, positions_eq hcovers⟩
  have hinside := Covers.inside hcovers v hv
  have hwhole := h.whole
  refine ⟨hpos v hv, hinside.1, ?_⟩
  have hlong := hpos v hv
  rw [h.allocated_iff]
  rw [fragmentSize_eq] at *
  omega

/-! ## Both ways -/

/-- Positions are written through the vectors of `amqp_buffer_write_io_vec`. -/
theorem Sized.writeIoVec (h : b.Sized) (hn : 1 ≤ n) (hroom : n ≤ b.capacity - b.size) :
    ∃ vectors, b.toBuffer.writeIoVec n = .ok vectors ∧ b.Spans vectors b.size n ∧
      ∀ bytes : List UInt8, bytes.length ≤ n → ∀ j,
        ({ b.toBuffer with fragments := scatter vectors bytes b.fragments } : Buffer).byteAt j =
          if b.size ≤ j ∧ j < b.size + bytes.length then bytes.getD (j - b.size) 0 else b.byteAt j := by
  have hsize := h.size_le
  obtain ⟨vectors, hfill, hcovers, hspans⟩ := h.spans hn (show b.size + n ≤ b.capacity by omega)
  refine ⟨vectors, ?_, hspans, fun bytes hlen j => ?_⟩
  · rw [Buffer.writeIoVec, if_pos hroom, hfill]
  · obtain ⟨hj, hoffset⟩ := block_offset j
    unfold byteAt
    dsimp only
    rw [scatter_eq hcovers hlen, hj]
    simp only [hoffset, true_and]

/-- Positions are read through the vectors of `amqp_buffer_read_io_vec`. -/
theorem Sized.readIoVec (h : b.Sized) (hmore : b.index < b.size) :
    ∃ vectors, b.toBuffer.readIoVec = .ok vectors ∧ b.Spans vectors b.index (b.size - b.index) ∧
      b.toBuffer.gather vectors = (List.range' b.index (b.size - b.index)).map b.byteAt := by
  have hsize := h.size_le
  obtain ⟨vectors, hfill, hcovers, hspans⟩ :=
    h.spans (show 1 ≤ b.size - b.index by omega) (show b.index + (b.size - b.index) ≤ b.capacity by omega)
  refine ⟨vectors, ?_, hspans, ?_⟩
  · rw [Buffer.readIoVec, if_pos (by omega), hfill]
  · rw [gather_eq hcovers, bytes, List.range'_eq_map_range, List.map_map]
    rfl

/-- After any calls on a new buffer, both kinds of vectors make up their range, and move the bytes of its
positions. -/
theorem ioVecs_span (address : Nat) {ops : List Op} (h : ∀ op ∈ ops, op.InRange) :
    ∃ results b, (new address).run ops = .ok (results, b) ∧ b.Sized ∧ b.Moves := by
  obtain ⟨results, b, hb, hrun, -⟩ := run_spec (new_sized address) h
  exact ⟨results, b, hrun, hb, fun n => hb.writeIoVec, hb.readIoVec⟩

theorem ioVecs_span_grown :
    ∃ results b, (new 1).run [.grow 9000, .putc 7] = .ok (results, b) ∧ b.Sized ∧ b.Moves :=
  ioVecs_span 1 (List.forall_mem_cons.2 ⟨trivial, List.forall_mem_singleton.2 trivial⟩)

end Amqp.Fragmented
