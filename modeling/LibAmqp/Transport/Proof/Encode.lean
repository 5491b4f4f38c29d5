import LibAmqp.Codec.Proof.Discard
import LibAmqp.Transport.Proof.Mechanisms
import LibAmqp.Transport.Sent

/-!
# What the frame encoders write

* `amqpEncodeFrame_writes`: the bytes of a frame, in a new buffer; the types that were made for it are
  given back.
* `FrameRequest.sent_as_meant`: every frame that a connection sends has the bytes it is meant to have.
-/

namespace Amqp

open Lib Memory Buffer

/-- A context that the types `L` and the buffers `K` of are in use; of a free type, `P` holds. -/
structure EncodeReady (P : AmqpType → Prop) (x : EncodeContext) (L K : Finset Slot) : Prop where
  types : Ready P x.toContext L
  container : x.container = none
  buffers : Live (fun _ => True) x.buffers K
  initializer : x.buffers.initializerCallback = initializeAmqpBuffer

theorem EncodeContext.create_ready (M : Malloc) {n k : Nat} (hn : 1 ≤ n) (hn' : n ≤ 63) (hk : 1 ≤ k)
    (hk' : k ≤ 63) : EncodeReady AmqpType.Blank (EncodeContext.create M n k) ∅ ∅ := by
  refine ⟨(Amqp.create_ready M hn hn').blank, rfl, ⟨⟨[], [], rfl, initializePool_consistent hk hk' _ _⟩,
    fun _ _ _ _ => trivial, trivial⟩, rfl⟩

section
variable {P : AmqpType → Prop} {x x' : EncodeContext} {L K : Finset Slot} {s : Slot} {b b' : Buffer}
  {bytes : List UInt8}

/-! ## Buffers -/

/-- A new buffer is empty. -/
structure New (x : EncodeContext) (K : Finset Slot) (s : Slot) (b : Buffer) (pool : MemoryPool Buffer) :
    Prop where
  fresh : s ∉ K
  held : Live (fun _ => True) pool (insert s K)
  initializer : pool.initializerCallback = initializeAmqpBuffer
  index : b.index = 0
  size : b.size = 0
  capacity : b.capacity = amqpBufferFragmentSize

theorem amqpAllocateBuffer_new (h : EncodeReady P x L K) : ∃ s b pool,
    amqpAllocateBuffer x = .ok (s, b, { x with buffers := pool }) ∧ New x K s b pool := by
  obtain ⟨s, pool, hcall, htaken⟩ := h.buffers.allocate x.malloc
  obtain ⟨v, -, hload⟩ := htaken.self
  rw [h.initializer] at hload
  refine ⟨s, { initializeAmqpBuffer v with address := bufferAddress s }, pool, ?_, htaken.fresh,
    htaken.held, htaken.initializer.trans h.initializer, rfl, rfl, rfl⟩
  simp only [amqpAllocateBuffer, hcall, Fault.ok_bind, hload]

/-- What was in a buffer before is there, behind the write point too. -/
theorem advanceWritePoint_appends (b : Buffer) (n : Nat) :
    Appends b (b.advanceWritePoint n) (b.bytes b.size n) := by
  refine ⟨fun _ _ => rfl, fun i hi => ?_, ?_, rfl, rfl, rfl⟩
  · have hn : i < n := by simpa [Buffer.bytes] using hi
    rw [List.getD_eq_getElem _ _ hi]
    simp only [Buffer.bytes, List.getElem_map, List.getElem_range]
    rfl
  · show b.size + n = _
    simp [Buffer.bytes]

/-- The header replaces the first eight bytes. -/
theorem writeFrameHeader_appends {b1 : Buffer} {old wire : List UInt8} (h : Appends b b1 (old ++ wire))
    (hold : old.length = 8) (hsize : b.size = 0) (hcap : b1.size ≤ b1.capacity) (offset : Nat)
    (frameType : UInt8) (word : BitVec 16) :
    ∃ b2, writeFrameHeader b1 offset frameType word = .ok b2 ∧
      Appends b b2 (toBigEndian 4 b1.size ++
        [UInt8.ofNat (offset / amqpFrameHeaderDataOffsetMultiplier), frameType] ++
        toBigEndian 2 word.toNat ++ wire) := by
  have hlen : b1.size = 8 + wire.length := by rw [h.size, hsize, List.length_append, hold, Nat.zero_add]
  obtain ⟨c1, h1, w1⟩ := hton_writes (b := b1.setWriteIndex 0) 4 b1.size (by
    show 0 + 4 ≤ b1.capacity
    omega)
  have s1 : c1.size = 4 ∧ c1.capacity = b1.capacity :=
    ⟨w1.size.trans (by rw [length_toBigEndian]; rfl), w1.capacity⟩
  obtain ⟨c2, h2, w2⟩ := uncheckedPutc_writes (b := c1)
    (UInt8.ofNat (offset / amqpFrameHeaderDataOffsetMultiplier)) (by omega)
  have s2 : c2.size = 5 ∧ c2.capacity = b1.capacity :=
    ⟨by rw [w2.size, s1.1]; rfl, w2.capacity.trans s1.2⟩
  obtain ⟨c3, h3, w3⟩ := uncheckedPutc_writes (b := c2) frameType (by omega)
  have s3 : c3.size = 6 ∧ c3.capacity = b1.capacity :=
    ⟨by rw [w3.size, s2.1]; rfl, w3.capacity.trans s2.2⟩
  obtain ⟨c4, h4, w4⟩ := hton_writes (b := c3) 2 word.toNat (by omega)
  have hall := ((w1.trans w2).trans w3).trans w4
  refine ⟨c4.setWriteIndex b1.size, ?_, ?_⟩
  · simp only [writeFrameHeader, h1, h2, h3, h4, Fault.ok_bind]
  · have hzero : b.size + ([] : List UInt8).length = 0 := by rw [hsize, List.length_nil]
    have h' : Appends b b1 ([] ++ old ++ wire) := by rwa [List.nil_append]
    have hpatch := h'.patch (by rwa [hzero]) (by simp [length_toBigEndian, hold])
    simpa using hpatch

/-! ## Performatives -/

/-- A fields encoder that makes these calls and returns `rc`. -/
def Makes (rc : Option ConnectionFailure) (enc : Context → Buffer → FieldsEncoding) (cs : CallTree) :
    Prop :=
  ∀ c b, enc c b = (do
    let (_, c, b) ← cs.encode c b
    .ok (rc, c, b))

/-- The calls for a list of fields and its descriptor. -/
def performativeCalls (id : BitVec 64) (fields : CallTree) : CallTree :=
  .container .described (.leaf (.scalar (.ulong id)) (.container .list8 fields .nil)) .nil

theorem length_ulong (id : BitVec 64) : ((Leaf.scalar (.ulong id)).part false).body.length ≤ 8 := by
  show (leafBody (Scalar.encoding false (.ulong id)).1 (Scalar.encoding false (.ulong id)).2).length ≤ 8
  unfold Scalar.encoding
  dsimp only
  split
  · decide
  · split
    · rw [show leafBody EncodingMetaData.ulongSmallUlong (toBigEndian 1 id.toNat) =
        toBigEndian 1 id.toNat from rfl, length_toBigEndian]
      decide
    · rw [show leafBody EncodingMetaData.ulong (toBigEndian 8 id.toNat) = toBigEndian 8 id.toNat from rfl,
        length_toBigEndian]

/-- A performative without fields is short. -/
theorem length_performativeCalls_nil (id : BitVec 64) : (performativeCalls id .nil).wire.length ≤ 11 := by
  have hwire : (performativeCalls id .nil).wire = spelled [⟨EncodingMetaData.described.formatCode,
      spelled [(Leaf.scalar (.ulong id)).part false, ⟨EncodingMetaData.list0.formatCode, []⟩]⟩] := rfl
  have hbody := length_ulong id
  rw [hwire]
  simp [spelled]
  omega

variable {rc : Option ConnectionFailure} {enc : Context → Buffer → FieldsEncoding} {cs : CallTree}

theorem encodePerformative_eq (h : Makes rc enc cs) (c : Context) (b : Buffer) (id : BitVec 64) :
    encodePerformative c b id enc = (do
      let (types, c, b) ← (performativeCalls id cs).encode c b
      let c ← amqpDeallocateType c (types.headD none)
      .ok (rc, c, b)) := by
  have henc : ∀ c b, enc c b = (do
      let (_, c, b) ← cs.encode c b
      .ok (rc, c, b)) := h
  simp only [encodePerformative, encodeFrameList, henc, performativeCalls, CallTree.encode, bind_assoc,
    Fault.ok_bind, List.headD_cons]
  rfl

/-- The bytes of a performative are written, and its types are given back. -/
theorem encodePerformative_writes {c : Context} (hr : Ready AmqpType.Blank c L) (hc : c.container = none)
    (hm : Makes rc enc cs) (id : BitVec 64) (hthird : cs.NoThird)
    (hroom : Room b (performativeCalls id cs).wire.length) :
    ∃ c' b', encodePerformative c b id enc = .ok (rc, c', b') ∧
      Appends b b' (performativeCalls id cs).wire ∧ Ready (fun _ => True) c' L ∧
      (L = ∅ → Ready AmqpType.Blank c' ∅) ∧ c'.container = none ∧
      (∀ a, a ∈ c'.arrays.dom ↔ a ∈ c.arrays.dom) := by
  have hthird' : (performativeCalls id cs).NoThird :=
    ⟨fun _ => Nat.le_refl 2, ⟨(fun h => by cases h), hthird, trivial⟩, trivial⟩
  obtain ⟨s, types, c1, b1, live1, hcall, hw, -⟩ := CallTree.encode_container hr hc hthird' (.inl hroom)
  obtain ⟨c2, hrun, hbal, hready, hblank, hcont⟩ := CallTree.encode_discard hr hc rfl hcall
  refine ⟨c2, b1, ?_, hw, hready, hblank, hcont, hbal.dom⟩
  rw [encodePerformative_eq hm]
  show (performativeCalls id cs).encode c b >>= _ = _
  rw [show (performativeCalls id cs).encode c b = _ from hcall, Fault.ok_bind]
  simp only [List.headD_cons, hrun, Fault.ok_bind]

/-! ## Frames -/

/-- A frame with these bytes is in a new buffer, and nothing else is left of its encoding. -/
structure Sends (x : EncodeContext) (L K : Finset Slot) (bytes : List UInt8) (s : Slot) (b : Buffer)
    (x' : EncodeContext) : Prop where
  fresh : s ∉ K
  index : b.index = 0
  size : b.size = bytes.length
  bytes : b.bytes 0 b.size = bytes
  capacity : b.capacity = amqpBufferFragmentSize
  ready : EncodeReady (fun _ => True) x' L (insert s K)
  blank : L = ∅ → EncodeReady AmqpType.Blank x' ∅ (insert s K)
  arrays : ∀ a, a ∈ x'.arrays.dom ↔ a ∈ x.arrays.dom

/-- The bytes of a frame. -/
def frameBytes (id : BitVec 64) (frameType : UInt8) (word : BitVec 16) (cs : CallTree) : List UInt8 :=
  toBigEndian 4 (amqpFrameHeaderSize + (performativeCalls id cs).wire.length) ++ [2, frameType] ++
    toBigEndian 2 word.toNat ++ (performativeCalls id cs).wire

theorem amqpEncodeFrame_writes (h : EncodeReady AmqpType.Blank x L K) (hm : Makes none enc cs)
    (hthird : cs.NoThird) (id : BitVec 64) (frameType : UInt8) (word : BitVec 16)
    (hroom : amqpFrameHeaderSize + (performativeCalls id cs).wire.length + 16 ≤ amqpBufferFragmentSize) :
    ∃ s b x', amqpEncodeFrame x id frameType word enc = .ok (.ok (s, b), x') ∧
      Sends x L K (frameBytes id frameType word cs) s b x' := by
  obtain ⟨s, b, pool, halloc, hnew⟩ := amqpAllocateBuffer_new h
  have hcap : (b.advanceWritePoint 8).capacity = amqpBufferFragmentSize := hnew.capacity
  have hsize : (b.advanceWritePoint 8).size = 8 := by
    show b.size + 8 = 8
    rw [hnew.size]
  obtain ⟨c1, b1, hrun, hw, hready, hblank, hcont, hdom⟩ := encodePerformative_writes
    (b := b.advanceWritePoint 8) h.types h.container hm id hthird (by
      rw [Room, hcap, hsize]
      exact hroom)
  have hall := (advanceWritePoint_appends b 8).trans hw
  have hsize1 : b1.size = amqpFrameHeaderSize + (performativeCalls id cs).wire.length := by
    rw [hw.size, hsize]
    rfl
  have hcap1 : b1.capacity = amqpBufferFragmentSize := hw.capacity.trans hcap
  obtain ⟨b2, hheader, hbytes⟩ := writeFrameHeader_appends hall (by simp [Buffer.bytes]) hnew.size
    (by omega) 8 frameType word
  rw [hsize1] at hbytes
  refine ⟨s, b2, { x with buffers := pool, toContext := c1 }, ?_, ?_⟩
  · simp only [amqpEncodeFrame, halloc, Fault.ok_bind, hrun, hsize, hheader]
  · have hb2 : b2.size = (frameBytes id frameType word cs).length := by
      rw [hbytes.size, hnew.size, Nat.zero_add]
      rfl
    have hread := hbytes.bytes
    rw [hnew.size] at hread
    exact {
      fresh := hnew.fresh
      index := hbytes.index.trans hnew.index
      size := hb2
      bytes := by
        rw [hb2]
        exact hread
      capacity := hbytes.capacity.trans hnew.capacity
      ready := ⟨hready, hcont, hnew.held, hnew.initializer⟩
      blank := fun hL => ⟨hblank hL, hcont, hnew.held, hnew.initializer⟩
      arrays := hdom }

/-- A frame that cannot be sent leaves nothing behind. -/
theorem amqpEncodeFrame_fails (h : EncodeReady AmqpType.Blank x L K) {failure : ConnectionFailure}
    (hm : Makes (some failure) enc .nil) (id : BitVec 64) (frameType : UInt8) (word : BitVec 16) :
    ∃ x', amqpEncodeFrame x id frameType word enc = .ok (.error failure, x') ∧
      EncodeReady (fun _ => True) x' L K ∧ (L = ∅ → EncodeReady AmqpType.Blank x' ∅ K) ∧
      ∀ a, a ∈ x'.arrays.dom ↔ a ∈ x.arrays.dom := by
  obtain ⟨s, b, pool, halloc, hnew⟩ := amqpAllocateBuffer_new h
  have hwire := length_performativeCalls_nil id
  have hsize : (b.advanceWritePoint 8).size = 8 := by
    show b.size + 8 = 8
    rw [hnew.size]
  obtain ⟨c1, b1, hrun, hw, hready, hblank, hcont, hdom⟩ := encodePerformative_writes
    (b := b.advanceWritePoint 8) h.types h.container hm id trivial (by
      rw [Room, show (b.advanceWritePoint 8).capacity = _ from hnew.capacity, hsize]
      simp only [amqpBufferFragmentSize, amqpFragmentIndexMask]
      omega)
  obtain ⟨pool', hde, hlive, -, -, hinit⟩ := hnew.held.deallocate (Finset.mem_insert_self s K)
    fun _ _ => trivial
  rw [Finset.erase_insert hnew.fresh] at hlive
  refine ⟨{ x with buffers := pool', toContext := c1 }, ?_,
    ⟨hready, hcont, hlive, hinit.trans hnew.initializer⟩,
    fun hL => ⟨hblank hL, hcont, hlive, hinit.trans hnew.initializer⟩, hdom⟩
  simp only [amqpEncodeFrame, halloc, Fault.ok_bind, hrun, amqpDeallocateBuffer, hde]

end

/-! ## Requests -/

section
variable (connection : EncodingConnection)

theorem amqpSaslMechanismsFieldEncoder_makes (h : connection.plugins ≠ []) :
    Makes none (amqpSaslMechanismsFieldEncoder connection)
      (mechanismsCalls (connection.plugins.map (·.mechanismName))) := by
  intro c b
  have hlen : connection.plugins.length ≠ 0 := fun h0 => h (List.eq_nil_of_length_eq_zero h0)
  rw [amqpSaslMechanismsFieldEncoder, if_neg hlen, amqpSaslMechanismsEncode_eq h]
  simp only [bind_assoc, Fault.ok_bind]

theorem initialResponseEncode_eq {plugin : SaslPluginInstance} {identity : SaslIdentity}
    {response : List UInt8} (h : FrameRequest.initialResponse identity plugin = some response)
    (c : Context) (b : Buffer) :
    initialResponseEncode c b plugin identity = amqpEncodeBinary c b response := by
  unfold FrameRequest.initialResponse at h
  unfold initialResponseEncode
  cases henc : plugin.initialResponseEncoder with
  | base =>
    rw [henc] at h
    cases h
  | plain =>
    rw [henc] at h
    simp only [Option.bind_eq_some_iff] at h
    obtain ⟨login, hlogin, password, hpassword, h⟩ := h
    split at h
    · rename_i hsize
      cases h
      simp only [hlogin, hpassword, encodeInitialResponse, if_pos hsize]
    · cases h
  | anonymous =>
    rw [henc] at h
    have hemail : identity.email = some response := h
    simp only [hemail]

theorem amqpSaslInitFieldEncoder_makes {plugin : SaslPluginInstance} {hostname response : List UInt8}
    (hh : connection.hostname = some hostname)
    (hr : FrameRequest.initialResponse connection.identityHooks plugin = some response) :
    Makes none (amqpSaslInitFieldEncoder connection plugin) (FrameFields.calls
      (.scalars [.symbol plugin.mechanismName, .binary response, .string hostname])) := by
  intro c b
  simp only [amqpSaslInitFieldEncoder, hh, Option.isNone_some, Bool.false_eq_true, if_false,
    initialResponseEncode_eq hr, amqpConnectionTargetHost, Option.getD_some, FrameFields.calls,
    List.map_cons, List.map_nil, CallTree.leaves, CallTree.encode, Leaf.encode, Scalar.encode, bind_assoc,
    Fault.ok_bind]

theorem amqpSaslOutcomeFieldEncoder_makes (plugin : Option SaslPluginInstance) :
    Makes none (amqpSaslOutcomeFieldEncoder plugin)
      (FrameFields.calls (.scalars [.ubyte (outcomeCode plugin)])) := by
  intro c b
  simp only [amqpSaslOutcomeFieldEncoder, FrameFields.calls, List.map_cons, List.map_nil,
    CallTree.leaves, CallTree.encode, Leaf.encode, Scalar.encode, bind_assoc, Fault.ok_bind]

theorem amqpOpenFieldEncoder_makes :
    Makes none (amqpOpenFieldEncoder connection) (FrameFields.calls
      (.scalars [.string connection.localContainerId,
        if connection.isClient then .string (amqpConnectionTargetHost connection) else .null,
        .uint connection.maxFrameSize, .ushort connection.channelMax, .uint connection.idleTimeOut])) := by
  intro c b
  cases hclient : connection.isClient <;>
    simp only [amqpOpenFieldEncoder, hclient, FrameFields.calls, List.map_cons, List.map_nil,
      CallTree.leaves, CallTree.encode, Leaf.encode, Scalar.encode, bind_assoc, Fault.ok_bind, if_true,
      if_false, Bool.false_eq_true]

theorem amqpBeginFieldEncoder_makes (session : AmqpSession) :
    Makes none (amqpBeginFieldEncoder session) (FrameFields.calls (.scalars [
      if session.remoteDefined then .ushort session.remote.channel else .null,
      .uint session.own.nextOutgoingId, .uint session.own.incommingWindow,
      .uint session.own.outgoingWindow, .uint session.own.handleMax])) := by
  intro c b
  cases hremote : session.remoteDefined <;>
    simp only [amqpBeginFieldEncoder, hremote, FrameFields.calls, List.map_cons, List.map_nil,
      CallTree.leaves, CallTree.encode, Leaf.encode, Scalar.encode, bind_assoc, Fault.ok_bind, if_true,
      if_false, Bool.false_eq_true]

/-- Every encoder makes the calls for its frame. -/
theorem FrameRequest.encode_makes {connection : EncodingConnection} {r : FrameRequest} {m : SentFrame}
    (hm : r.frame connection = some m) : ∃ enc, Makes none enc m.fields.calls ∧
      ∀ x, r.encode connection x = amqpEncodeFrame x m.performative.descriptor m.frameType m.word enc := by
  cases r with
  | saslMechanisms =>
    rw [FrameRequest.frame] at hm
    split at hm
    · cases hm
    · rename_i hne
      cases hm
      exact ⟨_, amqpSaslMechanismsFieldEncoder_makes connection hne, fun _ => rfl⟩
  | saslInit plugin =>
    simp only [FrameRequest.frame, Option.bind_eq_some_iff, Option.map_eq_some_iff] at hm
    obtain ⟨hostname, hh, response, hr, rfl⟩ := hm
    exact ⟨_, amqpSaslInitFieldEncoder_makes connection hh hr, fun _ => rfl⟩
  | saslOutcome plugin =>
    cases hm
    exact ⟨_, amqpSaslOutcomeFieldEncoder_makes plugin, fun _ => rfl⟩
  | amqpOpen =>
    cases hm
    exact ⟨_, amqpOpenFieldEncoder_makes connection, fun _ => rfl⟩
  | amqpClose =>
    cases hm
    exact ⟨amqpCloseFieldEncoder, fun _ _ => rfl, fun _ => rfl⟩
  | amqpBegin session =>
    cases hm
    exact ⟨_, amqpBeginFieldEncoder_makes session, fun _ => rfl⟩

theorem mechanismsCalls_noThird (names : List (List UInt8)) : (mechanismsCalls names).NoThird := by
  unfold mechanismsCalls
  split
  · trivial
  · split
    · exact ⟨(fun h => by cases h), CallTree.leaves_noThird _, trivial⟩
    · exact ⟨(fun h => by cases h), CallTree.leaves_noThird _, trivial⟩

theorem FrameFields.calls_noThird (fields : FrameFields) : fields.calls.NoThird := by
  cases fields with
  | scalars vs => exact CallTree.leaves_noThird _
  | mechanisms names => exact mechanismsCalls_noThird names

/-- The frames that a connection sends have the bytes they are meant to have. -/
theorem FrameRequest.encode_sends {x : EncodeContext} {L K : Finset Slot} {connection : EncodingConnection}
    {r : FrameRequest} {m : SentFrame} (h : EncodeReady AmqpType.Blank x L K)
    (hm : r.frame connection = some m) (hroom : m.size + 16 ≤ amqpBufferFragmentSize) :
    ∃ s b x', r.encode connection x = .ok (.ok (s, b), x') ∧ Sends x L K m.bytes s b x' := by
  obtain ⟨enc, hmakes, heq⟩ := FrameRequest.encode_makes hm
  rw [heq]
  exact amqpEncodeFrame_writes h hmakes m.fields.calls_noThird _ _ _ hroom

/-- A frame for which there is no plugin or no hostname is not sent. -/
theorem FrameRequest.encode_fails {x : EncodeContext} {L K : Finset Slot} {connection : EncodingConnection}
    {r : FrameRequest} {failure : ConnectionFailure} (h : EncodeReady AmqpType.Blank x L K)
    (hr : r.failure connection = some failure) :
    ∃ x', r.encode connection x = .ok (.error failure, x') ∧
      EncodeReady (fun _ => True) x' L K ∧ (L = ∅ → EncodeReady AmqpType.Blank x' ∅ K) ∧
      ∀ a, a ∈ x'.arrays.dom ↔ a ∈ x.arrays.dom := by
  cases r with
  | saslMechanisms =>
    rw [FrameRequest.failure] at hr
    split at hr
    · rename_i hnil
      cases hr
      refine amqpEncodeFrame_fails h (fun c b => ?_) _ _ _
      rw [amqpSaslMechanismsFieldEncoder, if_pos (by rw [hnil]; rfl)]
      rfl
    · cases hr
  | saslInit plugin =>
    rw [FrameRequest.failure] at hr
    split at hr
    · rename_i hnone
      cases hr
      refine amqpEncodeFrame_fails h (fun c b => ?_) _ _ _
      rw [amqpSaslInitFieldEncoder, if_pos (by rw [hnone]; rfl)]
      rfl
    · cases hr
  | saslOutcome | amqpOpen | amqpClose | amqpBegin => cases hr

/-- A frame is sent as it is meant to be or, for want of a plugin or a hostname, not at all; in both cases
no type is left. -/
theorem FrameRequest.sent_as_meant {x : EncodeContext} {L K : Finset Slot}
    (h : EncodeReady AmqpType.Blank x L K) (connection : EncodingConnection) (r : FrameRequest) :
    (∀ m, r.frame connection = some m → m.size + 16 ≤ amqpBufferFragmentSize →
      ∃ s b x', r.encode connection x = .ok (.ok (s, b), x') ∧ Sends x L K m.bytes s b x') ∧
    ∀ failure, r.failure connection = some failure →
      ∃ x', r.encode connection x = .ok (.error failure, x') ∧
        EncodeReady (fun _ => True) x' L K ∧ (L = ∅ → EncodeReady AmqpType.Blank x' ∅ K) ∧
        ∀ a, a ∈ x'.arrays.dom ↔ a ∈ x.arrays.dom :=
  ⟨fun _ hm hroom => FrameRequest.encode_sends h hm hroom, fun _ hf => FrameRequest.encode_fails h hf⟩

/-- A client that asks for a mechanism. -/
def plainClient : EncodingConnection where
  isClient := true
  hostname := some [0x68, 0x6f, 0x73, 0x74]
  localContainerId := [0x63]
  maxFrameSize := 65536
  channelMax := 16
  idleTimeOut := 0
  identityHooks := ⟨some [0x6d, 0x65], some [0x70], none⟩
  plugins := [.named [80, 76, 65, 73, 78]]

def plainInstance : SaslPluginInstance := ⟨[80, 76, 65, 73, 78], .plain, 0⟩

theorem sent_as_meant_plain :
    (∀ m, (FrameRequest.saslInit plainInstance).frame plainClient = some m →
      m.size + 16 ≤ amqpBufferFragmentSize →
      ∃ s b x', (FrameRequest.saslInit plainInstance).encode plainClient
          (EncodeContext.create Malloc.bump 21 4) = .ok (.ok (s, b), x') ∧
        Sends (EncodeContext.create Malloc.bump 21 4) ∅ ∅ m.bytes s b x') ∧
    (∀ failure, (FrameRequest.saslInit plainInstance).failure plainClient = some failure →
      ∃ x', (FrameRequest.saslInit plainInstance).encode plainClient
          (EncodeContext.create Malloc.bump 21 4) = .ok (.error failure, x') ∧
        EncodeReady (fun _ => True) x' ∅ ∅ ∧ ((∅ : Finset Slot) = ∅ → EncodeReady AmqpType.Blank x' ∅ ∅) ∧
        ∀ a, a ∈ x'.arrays.dom ↔ a ∈ (EncodeContext.create Malloc.bump 21 4).arrays.dom) ∧
    ∃ m, (FrameRequest.saslInit plainInstance).frame plainClient = some m ∧
      m.size + 16 ≤ amqpBufferFragmentSize := by
  have hready := EncodeContext.create_ready Malloc.bump (n := 21) (k := 4) (by decide) (by decide)
    (by decide) (by decide)
  obtain ⟨h1, h2⟩ := FrameRequest.sent_as_meant hready plainClient (.saslInit plainInstance)
  exact ⟨h1, h2, _, rfl, by decide +kernel⟩

end
end Amqp
