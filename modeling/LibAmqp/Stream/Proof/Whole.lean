import LibAmqp.Connection.IO
import LibAmqp.Stream.Proof.Session

/-!
# Reads that come in one piece

Runs in which every `readv` delivers all that is needed, one read after the other. Unlike the simulation
of `Stream.Proof.Session` they also lead up to a read that does not fit its buffer.
-/

namespace Amqp.Stream

/-- The read buffer of a connection does not hold all that a buffer could. -/
theorem readCapacity_le : Amqp.Reader.capacity ≤ amqpBufferMaxSize := by decide

namespace Session

open Lib

variable {κ σ : Type} {p : Program κ σ}

/-- `readv` is to be called for all of the read `r`. -/
structure Ready (s : Session κ σ) (a : σ) (r : Request κ) (stream : List UInt8) : Prop where
  reading : Reading s r []
  needed : ∃ after, s.reader.needed = some (r.required, after) ∧ after ≠ .leaving
  watcher : s.reader.watcher = some false
  app : s.app = a
  stream : s.stream = stream

/-- The bytes of a read have come, and its callback runs. -/
structure Answering (s : Session κ σ) (a : σ) (request : Option (Request κ)) (stream : List UInt8) :
    Prop where
  calling : Calling s
  callback : s.reader.callback = none
  buffer : s.reader.buffer = none
  requests : s.requests = [request]
  app : s.app = a
  stream : s.stream = stream

theorem start_ready {a : σ} {r : Request κ} (stream : List UInt8) (hpos : 0 < r.required) :
    ∃ s, start p a r stream = .ok s ∧ Ready s a r stream := by
  have hstep : Reader.step ({ Reader.create with watcher := some false, name := .enabled } : Reader κ)
      (.commenceRead r) = .ok { (Reader.create : Reader κ) with
        watcher := some false, name := .reading, callback := some r.callback, buffer := some r.buffer,
        required := r.required, needed := some (r.required, .completing) } := by
    simp only [Reader.step, Reader.create, Reader.commenceRead, Reader.queueReadOperation,
      Reader.readWhatIsBuffered, Reader.readLoop, Nat.sub_zero, hpos, if_true]
  have hstart : start p a r stream = advance p ⟨{ Reader.create with watcher := some false, name := .enabled },
      a, [], stream⟩ (.commenceRead r) := rfl
  rw [hstart, advance_quiet (s := ⟨_, a, [], stream⟩) hstep rfl]
  refine ⟨_, rfl, ⟨rfl, rfl, ?_, rfl, rfl, hpos, rfl, rfl⟩, ⟨.completing, rfl, by simp⟩, rfl, rfl, rfl⟩
  simp only [Buffer.append_nil]

section
variable {s : Session κ σ} {a a' : σ} {r r' : Request κ} {got rest : List UInt8}

/-- All of the read comes at once. -/
theorem Ready.comes (h : Ready s a r (got ++ rest)) (hroom : r.required ≤ r.buffer.capacity - r.buffer.size)
    (hgot : got.length = r.required) {request : Option (Request κ)}
    (hreact : p.react a r.callback (some (r.buffer.append got)) r.required = (a', request)) :
    ∃ s', s.step p (.readv (some (r.required - 1))) = .ok s' ∧ Answering s' a' request rest := by
  obtain ⟨hreading, ⟨after, hneeded, hafter⟩, hwatcher, rfl, hstream⟩ := h
  have hpos : 0 < r.required := hreading.left
  cases got with
  | nil => simp at hgot; omega
  | cons first more =>
    have hlen : more.length = r.required - 1 := by
      rw [List.length_cons] at hgot
      omega
    have hdelivers : delivers s.stream r.required (some (r.required - 1)) =
        (.bytes first more, rest) := by
      rw [hstream]
      simp [delivers, ← hlen]
    have hdone := Reader.readvDone_eq hreading.buffer hpos hroom (.bytes first more) (a := after)
    have htake : (first :: more).take r.required = first :: more := List.take_of_length_le (by omega)
    have hstep : s.reader.step (.readv (.bytes first more)) = .ok { s.reader with
        readvs := s.reader.readvs + 1, needed := none, callback := none, buffer := none, satisfied := 0
        returns := [after]
        marks := s.reader.marks ++ [.called r.callback (some (r.buffer.append (first :: more)))
          r.required] } := by
      unfold Reader.step
      rw [hneeded]
      refine hdone.trans ?_
      dsimp only
      rw [htake, hgot, Nat.sub_self, Reader.readLoop, if_neg (Nat.lt_irrefl 0)]
      refine (Reader.callReadCallback_eq (s := { s.reader with
        readvs := s.reader.readvs + 1
        buffer := some ((r.buffer.append []).append (first :: more))
        satisfied := s.reader.satisfied + r.required
        needed := none }) after hreading.callback).trans ?_
      simp [hreading.returns, hreading.satisfied, Buffer.append_append]
    simp only [step, hneeded, hdelivers]
    rw [advance_called (s := { s with stream := rest }) hstep rfl,
      absorb_called (s := ⟨_, s.app, s.requests, rest⟩) hreact]
    exact ⟨_, rfl, ⟨hreading.name, ⟨after, rfl, hafter⟩, rfl, hwatcher⟩, rfl, rfl,
      by simp [hreading.requests], rfl, rfl⟩

/-- The callback asks for its read, and returns. -/
theorem Answering.asks (h : Answering s a (some r) rest) (hpos : 0 < r.required) :
    ∃ s', run (step p) s [.move, .move] = .ok s' ∧ Ready s' a r rest := by
  obtain ⟨hcalling, hcallback, hbuffer, hrequests, rfl, rfl⟩ := h
  have hasks : s.step p .move =
      .ok { s with reader := s.reader.queueReadOperation r, requests := [none] } := by
    have hstep : s.reader.step (.commenceRead r) = .ok (s.reader.queueReadOperation r) := by
      simp only [Reader.step, hcalling.needed, Reader.commenceRead, hcalling.name, hcallback, hbuffer]
      rfl
    simp only [step, hcalling.needed, hrequests, Option.isSome_none, Bool.false_eq_true, if_false]
    exact advance_quiet (s := { s with requests := [none] }) hstep rfl
  have hqueued : Calling (σ := σ) ⟨s.reader.queueReadOperation r, s.app, [none], s.stream⟩ :=
    ⟨hcalling.name, hcalling.returns, hcalling.needed, hcalling.watcher⟩
  have hreturns : step p ⟨s.reader.queueReadOperation r, s.app, [none], s.stream⟩ .move =
      .ok ⟨{ s.reader.queueReadOperation r with returns := [], needed := some (r.required, .looping) },
        s.app, [], s.stream⟩ := by
    have hstep : (s.reader.queueReadOperation r).step .callbackReturns =
        .ok { s.reader.queueReadOperation r with returns := [], needed := some (r.required, .looping) } := by
      rw [callbackReturns_eq hqueued, Reader.delayedReadWhileReading,
        if_pos (by simp [Reader.isReadQueued, Reader.queueReadOperation])]
      simp only [Reader.readWhatIsBuffered, Reader.readLoop, Reader.queueReadOperation, Nat.sub_zero, hpos,
        if_true, hcalling.name]
    have hnone : (s.reader.queueReadOperation r).needed = none := hcalling.needed
    simp only [step, hnone, Option.isSome_none, Bool.false_eq_true, if_false]
    exact advance_quiet (s := ⟨s.reader.queueReadOperation r, s.app, [], s.stream⟩) hstep rfl
  have hrun : run (step p) s [.move, .move] =
      .ok ⟨{ s.reader.queueReadOperation r with returns := [], needed := some (r.required, .looping) },
        s.app, [], s.stream⟩ := by
    rw [run, hasks]
    change run (step p) ⟨s.reader.queueReadOperation r, s.app, [none], s.stream⟩ [.move] = _
    rw [run, hreturns]
    rfl
  refine ⟨_, hrun, ⟨hcalling.name, rfl, ?_, rfl, rfl, hpos, rfl, rfl⟩, ⟨.looping, rfl, by simp⟩,
    hcalling.watcher, rfl, rfl⟩
  simp [Reader.queueReadOperation, Buffer.append_nil]

/-- From one read to the next. -/
theorem Ready.next (h : Ready s a r (got ++ rest)) (hroom : r.required ≤ r.buffer.capacity - r.buffer.size)
    (hgot : got.length = r.required)
    (hreact : p.react a r.callback (some (r.buffer.append got)) r.required = (a', some r'))
    (hpos : 0 < r'.required) :
    ∃ is s', run (step p) s is = .ok s' ∧ Ready s' a' r' rest := by
  obtain ⟨s1, hs1, hanswering⟩ := h.comes hroom hgot hreact
  obtain ⟨s2, hs2, hready⟩ := hanswering.asks hpos
  refine ⟨[.readv (some (r.required - 1)), .move, .move], s2, ?_, hready⟩
  rw [run, hs1]
  exact hs2

/-- A read that does not fit its buffer. -/
theorem Ready.overruns (h : Ready s a r rest) (hroom : r.buffer.capacity - r.buffer.size < r.required) :
    ∃ e, s.step p (.readv none) = .error e ∧ e.fault = .assertFailed := by
  obtain ⟨hreading, ⟨after, hneeded, -⟩, -, -, -⟩ := h
  have hbuffer := hreading.buffer
  rw [Buffer.append_nil] at hbuffer
  have hvec : r.buffer.writeIoVec r.required = .error .assertFailed := by
    rw [Buffer.writeIoVec, if_neg (by omega)]
  have hstep : s.reader.step (.readv .again) = .error ⟨.assertFailed, s.reader.marks⟩ := by
    unfold Reader.step
    rw [hneeded]
    dsimp only [Reader.readvDone]
    rw [hbuffer]
    dsimp only
    rw [hvec]
    rfl
  refine ⟨⟨.assertFailed, s.reader.marks⟩, ?_, rfl⟩
  simp only [step, hneeded]
  change advance p s (.readv .again) = _
  rw [advance, hstep]
  rfl

end
end Session
end Amqp.Stream
