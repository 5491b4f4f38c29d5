import LibAmqp.Codec.Proof.Safety
import LibAmqp.Transport.Proof.Cleanup

/-!
# What a frame can do to the process

* `frameDecoders_return_iff`: which frames the decoders return from.
* `frameLayers_iff`: which frames are taken for a frame of the other layer.
-/

namespace Amqp

open Lib Memory

section
variable {hash : HashFunction} {x : FrameContext} {b : Buffer} {L K : Finset Slot}

/-! ## Frames that stop the process -/

/-- Both frame decoders return, a frame or null. -/
def FramesReturn (hash : HashFunction) (x : FrameContext) (b : Buffer) : Prop :=
  (∃ r, amqpDecodeAmqpFrame hash x b = .ok r) ∧ ∃ r, amqpDecodeSaslFrame hash x b = .ok r

/-- A refused body is printed, if the debug level is above 2. -/
def CanBeDumped (debugLevel : Nat) (g : Glimpse) (kids : Reading) : Prop :=
  2 < debugLevel → Reading.printable (.node g kids .nil) = true

/-- A described type that does not stop the process: nothing is described but a list that can be read
as the fields of its performative, and what is refused can be printed. -/
def DescribedHarmless (lookup : Option Descriptor) (debugLevel : Nat) (g : Glimpse)
    (kids : Reading) : Prop :=
  ∀ descriptor ks described fields, kids.nth 0 = some (descriptor, ks) →
    kids.nth 1 = some (described, fields) →
    match descriptorOf lookup amqpDescriptorDomain descriptor with
    | none => CanBeDumped debugLevel g kids
    | some d =>
      if described.is isList then
        match Performative.ofDescriptorId d.id with
        | none => CanBeDumped debugLevel g kids
        | some p => fieldsVerdict fields p.fields 0 = .accepted ∨
            (fieldsVerdict fields p.fields 0 = .refused ∧ CanBeDumped debugLevel g kids)
      else Reading.printable (.node described fields .nil) = true ∧ CanBeDumped debugLevel g kids

/-- A frame whose body starts in the buffer and, if it is a value at all, is a harmless described
type. -/
def Buffer.Harmless (hash : HashFunction) (table : DescriptorTable) (debugLevel : Nat)
    (b : Buffer) : Prop :=
  b.HeaderAccepted → b.body.index ≤ b.size ∧ ∀ o, b.body.outline = some o → o.1.accepted = true →
    o.1.is isComposite = true ∧
      DescribedHarmless (b.body.symbolLookup hash table) debugLevel (o.1.glimpse b.input)
        (read b.input o.2)

theorem printedVerdict_ne_stops {level : Nat} {printable : Bool} {v : Verdict} :
    printedVerdict level printable v ≠ .stops ↔
      v = .accepted ∨ (v = .refused ∧ (2 < level → printable = true)) := by
  rw [printedVerdict]
  cases v with
  | stops => simp
  | accepted => simp
  | refused =>
    by_cases hl : 2 < level
    · cases printable <;> simp [hl]
    · simp [hl]

theorem describedHarmless_iff (lookup : Option Descriptor) (level : Nat) (g : Glimpse) {d v : Glimpse}
    {kids dk fields : Reading} (h0 : kids.nth 0 = some (d, dk)) (h1 : kids.nth 1 = some (v, fields)) :
    printedVerdict level (Reading.printable (.node g kids .nil)) (describedVerdict lookup 0 kids) ≠
      .stops ↔ DescribedHarmless lookup level g kids := by
  have hone : DescribedHarmless lookup level g kids ↔
      match descriptorOf lookup amqpDescriptorDomain d with
      | none => CanBeDumped level g kids
      | some desc =>
        if v.is isList then
          match Performative.ofDescriptorId desc.id with
          | none => CanBeDumped level g kids
          | some p => fieldsVerdict fields p.fields 0 = .accepted ∨
              (fieldsVerdict fields p.fields 0 = .refused ∧ CanBeDumped level g kids)
        else Reading.printable (.node v fields .nil) = true ∧ CanBeDumped level g kids := by
    constructor
    · intro h
      exact h d dk v fields h0 h1
    · intro h d' dk' v' fields' h0' h1'
      rw [h0, Option.some.injEq, Prod.mk.injEq] at h0'
      rw [h1, Option.some.injEq, Prod.mk.injEq] at h1'
      obtain ⟨rfl, rfl⟩ := h0'
      obtain ⟨rfl, rfl⟩ := h1'
      exact h
  rw [printedVerdict_ne_stops, hone, describedVerdict, h0, h1]
  simp only [amqpDescriptorDomain]
  cases descriptorOf lookup 0 d with
  | none => simp [CanBeDumped]
  | some desc =>
    simp only [remainderVerdict]
    cases v.is isList with
    | true =>
      simp only [if_true]
      cases Performative.ofDescriptorId desc.id with
      | none => simp [CanBeDumped]
      | some p => rfl
    | false =>
      simp only [Bool.false_eq_true, if_false]
      cases Reading.printable (.node v fields .nil) <;> simp [CanBeDumped]

/-- The elements of a described type that is accepted. -/
theorem described_parts {inp : Input} {i : Nat} {o : Outline} (ho : Amqp.outline inp i = some o)
    (hacc : o.1.accepted = true) (hcomp : o.1.is isComposite = true) :
    ∃ d dk v fields, o.2.nth 0 = some (d, dk) ∧ o.2.nth 1 = some (v, fields) ∧ d.accepted = true ∧
      v.accepted = true := by
  have hreg := outline_regular inp i
  rw [ho] at hreg
  obtain ⟨m, hm, hk⟩ := Item.composite_of_is hcomp
  have hboth := hreg.1.described (by rw [Item.kind, hm, Option.map_some, hk])
  rw [hacc] at hboth
  obtain ⟨hd, hv⟩ := Bool.and_eq_true_iff.1 hboth.symm
  cases h0 : o.2.nth 0 with
  | none =>
    rw [h0] at hd
    cases hd
  | some d =>
    cases h1 : o.2.nth 1 with
    | none =>
      rw [h1] at hv
      cases hv
    | some v =>
      rw [h0] at hd
      rw [h1] at hv
      exact ⟨d.1, d.2, v.1, v.2, rfl, rfl, hd, hv⟩

theorem read_nth (inp : Input) (O : Forest Item) (i : Nat) :
    (read inp O).nth i = (O.nth i).map fun o => (o.1.glimpse inp, read inp o.2) := by
  rw [read, Forest.nth_map]
  rfl

theorem frameVerdict_ne_stops_iff {level : Nat} {table : DescriptorTable}
    (hsupp : b.body.index ≤ b.size → (Forest.cons b.body.outline .nil).All Item.Supported) :
    frameVerdict hash table 0 level b ≠ .stops ↔ b.Harmless hash table level := by
  rw [frameVerdict, Buffer.Harmless]
  by_cases hh : b.HeaderAccepted
  · rw [if_pos hh]
    by_cases hi : b.size < b.body.index
    · rw [if_pos hi]
      refine ⟨fun h => absurd rfl h, fun h => ?_⟩
      exact absurd (h hh).1 (Nat.not_le.2 hi)
    · have hle := Nat.le_of_not_lt hi
      rw [if_neg hi, if_pos (hsupp hle)]
      cases ho : b.body.outline with
      | none => simp [hh, hle]
      | some o =>
        have hga : (o.1.glimpse b.input).accepted = o.1.accepted := rfl
        have hgc : (o.1.glimpse b.input).is isComposite = o.1.is isComposite := rfl
        simp only [bodyVerdict, hga, hgc]
        cases hacc : o.1.accepted with
        | false => simp [hh, hle, hacc]
        | true =>
          cases hcomp : o.1.is isComposite with
          | false => simp [hh, hacc, hcomp]
          | true =>
            obtain ⟨d, dk, v, fields, h0, h1, -⟩ := described_parts ho hacc hcomp
            have hd : (read b.input o.2).nth 0 = some (d.glimpse b.input, read b.input dk) := by
              rw [read_nth, h0]
              rfl
            have hv : (read b.input o.2).nth 1 = some (v.glimpse b.input, read b.input fields) := by
              rw [read_nth, h1]
              rfl
            have hiff := describedHarmless_iff (b.body.symbolLookup hash table) level
              (o.1.glimpse b.input) hd hv
            simp only [Bool.true_eq_false, if_false]
            rw [hiff]
            simp only [hh, hle, true_and, forall_const, Option.some.injEq, forall_eq', hacc, hcomp]
  · rw [if_neg hh]
    exact ⟨fun _ h => absurd h hh, fun _ => by decide⟩

/-- A decoder of frames returns unless its verdict is to stop. -/
theorem FrameMeets.returns_iff {v : Verdict} {r : FrameDecoding} {q : FrameContext → Buffer → Prop}
    {q' : Slot → FrameContext → Buffer → Prop} (h : FrameMeets v r q q') :
    (∃ y, r = .ok y) ↔ v ≠ .stops := by
  cases v with
  | stops =>
    obtain ⟨e, rfl, -⟩ := h
    simp
  | refused =>
    obtain ⟨x, b, rfl, -⟩ := h
    simp
  | accepted =>
    obtain ⟨s, x, b, rfl, -⟩ := h
    simp

theorem andThen_ofBool_ne_stops {v : Verdict} {p : Bool} :
    v.andThen (.ofBool p) ≠ .stops ↔ v ≠ .stops := by
  cases v <;> cases p <;> decide

theorem framesReturn_iff_verdict (h : FrameReady x L K) (h8 : amqpFrameHeaderSize ≤ b.size) :
    FramesReturn hash x b ↔ frameVerdict hash x.descriptors 0 x.debugLevel b ≠ .stops := by
  rw [FramesReturn, (amqpDecodeAmqpFrame_meets hash h h8).returns_iff,
    (amqpDecodeSaslFrame_meets hash h h8).returns_iff, amqpFrameVerdict, saslFrameVerdict,
    andThen_ofBool_ne_stops, andThen_ofBool_ne_stops, andThen_ofBool_ne_stops, and_self]

/-- The frame decoders return from the frames that are harmless, given that `amqp_decode` returns
from the body. -/
theorem frameDecoders_return_iff (h : FrameReady x L K) (h8 : amqpFrameHeaderSize ≤ b.size)
    (hdecode : b.body.index ≤ b.size → Returns x.toContext b.body) :
    FramesReturn hash x b ↔ b.Harmless hash x.descriptors x.debugLevel := by
  rw [framesReturn_iff_verdict h h8]
  refine frameVerdict_ne_stops_iff fun hi => ?_
  exact implemented_iff.1 ((hdecode hi).implemented h.types hi)

end

/-- A new context, with a hash function that puts all symbols into one chain. -/
def newContext : FrameContext := FrameContext.create (fun _ => 0) Malloc.bump 21 21

theorem newContext_ready : FrameReady newContext ∅ ∅ :=
  FrameContext.create_ready _ _ (by decide) (by decide) (by decide) (by decide)

/-- The frame of a close without an error. -/
def closeFrame : Buffer := .received [0, 0, 0, 12, 2, 0, 0, 0, 0x00, 0x53, 0x18, 0x45]

theorem frameDecoders_return_close : FramesReturn (fun _ => 0) newContext closeFrame := by
  have hsupp : (Forest.cons closeFrame.body.outline .nil).All Item.Supported := by decide +kernel
  have hdecode : Returns newContext.toContext closeFrame.body :=
    returns_of_implemented newContext_ready.types (by decide) (implemented_iff.2 hsupp)
  refine (frameDecoders_return_iff newContext_ready (by decide) fun _ => hdecode).2 ?_
  refine (frameVerdict_ne_stops_iff fun _ => hsupp).1 ?_
  decide +kernel

/-- A header whose data offset points past the end, before any body. -/
def farOffsetFrame : Buffer := .received [0, 0, 0, 8, 3, 0, 0, 0]

/-- `amqp_decode` returns from every index of the buffer, and the frame decoder does not. -/
theorem frameDecoders_farOffset_stop : amqpFrameHeaderSize ≤ farOffsetFrame.size ∧
    (∀ i ≤ farOffsetFrame.size, Returns newContext.toContext { farOffsetFrame with index := i }) ∧
    amqpDecodeAmqpFrame (fun _ => 0) newContext farOffsetFrame = .error .notImplemented := by
  refine ⟨by decide, fun i hi => ?_, ?_⟩
  · refine returns_of_implemented newContext_ready.types hi ?_
    have hi : i ≤ 8 := hi
    interval_cases i <;> decide +kernel
  · obtain ⟨s, pool, hall, -⟩ := allocateFrame_spec newContext_ready
    have hbeyond : amqpDecode newContext.toContext farOffsetFrame.body = .error .notImplemented :=
      amqpDecode_beyond newContext_ready.types (by decide)
    have hheader : farOffsetFrame.HeaderAccepted := by decide
    simp only [amqpDecodeAmqpFrame, refuseFrame, amqpDecodeFrame, hall, Fault.ok_bind, decodeFrame,
      decodeHeader_eq (b := farOffsetFrame) (by decide), decide_eq_true hheader, if_true, hbeyond,
      Fault.error_bind]

/-! ## Frames of the other layer -/

/-- The frame decoders keep to their layer: `amqp_decode_sasl_frame` returns SASL frames with a SASL
performative, `amqp_decode_amqp_frame` AMQP frames that are empty or have one of the others. -/
def LayersSeparate (hash : HashFunction) (x : FrameContext) (b : Buffer) : Prop :=
  (∀ s x' b', amqpDecodeSaslFrame hash x b = .ok (some s, x', b') →
    ∃ frame, x'.frames.load s = some frame ∧ frame.frameType = amqpSaslFrameType ∧
      ∃ p, frame.dispatch = some (.performative p) ∧ p.isSasl = true) ∧
  ∀ s x' b', amqpDecodeAmqpFrame hash x b = .ok (some s, x', b') →
    ∃ frame, x'.frames.load s = some frame ∧ frame.frameType = amqpFrameType ∧
      (frame.dispatch = some .emptyFrame ∨
        ∃ p, frame.dispatch = some (.performative p) ∧ p.isSasl = false)

/-- The type byte fits the body: no body and the AMQP type, or a performative of the type's layer. -/
def Buffer.LayerFits (hash : HashFunction) (table : DescriptorTable) (b : Buffer) : Prop :=
  match b.body.performative hash table amqpDescriptorDomain with
  | none => b.byteAt 5 = amqpFrameType
  | some p => p.isSasl = (b.byteAt 5 == amqpSaslFrameType)

section
variable {hash : HashFunction} {x : FrameContext} {b : Buffer} {L K : Finset Slot}

/-- What a returned frame is dispatched as. -/
theorem Accepted.dispatch {s : Slot} {x' : FrameContext} {frame : AmqpFrame} {F : Layout} {A : List Nat}
    (h : Accepted hash x L K b s x' frame F A) :
    (b.body.outline = none ∧ b.body.performative hash x.descriptors amqpDescriptorDomain = none ∧
      frame.dispatch = some .emptyFrame) ∨
    ∃ p, b.body.outline ≠ none ∧
      b.body.performative hash x.descriptors amqpDescriptorDomain = some p ∧
      frame.dispatch = some (.performative p) := by
  rcases h.content with ⟨hnone, -, hdisp⟩ | ⟨n, kids, p, fields, rfl, ⟨hp, d, dk, v, h0, h1, -, hd⟩, hcarries⟩
  · refine .inl ⟨hnone, ?_, hdisp⟩
    rw [Buffer.performative, hnone]
    rfl
  · cases ho : b.body.outline with
    | none =>
      have hout := h.lays.outline
      rw [ho] at hout
      cases hout
    | some o =>
      refine .inr ⟨p, Option.some_ne_none o, ?_, hcarries.dispatch⟩
      have hlook := Lays.symbolLookup_eq (b := b.body) h.lays ho hash x.descriptors
      rw [Buffer.performative, ho, Option.bind_some, h.lays.root ho, hlook, Layout.outline,
        Forest.nth_map, h0, Option.map_some, Option.bind_some]
      show Option.bind (descriptorOf (Layout.symbolLookup hash x.descriptors b kids) 0
        (d.item.glimpse b.input)) _ = _
      rw [hd, Option.bind_some, hp]

/-- What `amqp_decode_sasl_frame` returns has the SASL type; its performative is that of the body. -/
theorem saslFrame_layer_iff (h : FrameReady x L K) (h8 : amqpFrameHeaderSize ≤ b.size) :
    (∀ s x' b', amqpDecodeSaslFrame hash x b = .ok (some s, x', b') →
      ∃ frame, x'.frames.load s = some frame ∧ frame.frameType = amqpSaslFrameType ∧
        ∃ p, frame.dispatch = some (.performative p) ∧ p.isSasl = true) ↔
    (saslFrameVerdict hash x.descriptors x.debugLevel b = .accepted →
      ∃ p, b.body.performative hash x.descriptors amqpDescriptorDomain = some p ∧
        p.isSasl = true) := by
  have hmeets := amqpDecodeSaslFrame_meets hash h h8
  cases hv : saslFrameVerdict hash x.descriptors x.debugLevel b with
  | stops =>
    rw [hv] at hmeets
    obtain ⟨e, hrun, -⟩ := hmeets
    simp [hrun]
  | refused =>
    rw [hv] at hmeets
    obtain ⟨x1, b1, hrun, -⟩ := hmeets
    simp [hrun]
  | accepted =>
    rw [hv] at hmeets
    obtain ⟨s, x1, b1, hrun, -, frame, F, A, hacc⟩ := hmeets
    have htype : frame.frameType = amqpSaslFrameType := by
      rw [hacc.frameType]
      rw [saslFrameVerdict] at hv
      by_contra hne
      rw [bne_iff_ne.2 hne] at hv
      revert hv
      cases (frameVerdict hash x.descriptors 0 x.debugLevel b).andThen _ <;> simp [Verdict.andThen,
        Verdict.ofBool]
    have hsome : ∀ p, frame.dispatch = some (.performative p) ↔
        b.body.performative hash x.descriptors amqpDescriptorDomain = some p := by
      intro p
      rcases hacc.dispatch with ⟨-, hnone, hd⟩ | ⟨q, -, hq, hd⟩
      · simp [hnone, hd]
      · simp [hq, hd]
    constructor
    · intro hall _
      obtain ⟨frame', hload, -, p, hp, hsasl⟩ := hall s x1 b1 hrun
      rw [hacc.load, Option.some.injEq] at hload
      subst hload
      exact ⟨p, (hsome p).1 hp, hsasl⟩
    · intro hp s' x1' b1' hrun'
      rw [hrun, Except.ok.injEq, Prod.mk.injEq, Prod.mk.injEq, Option.some.injEq] at hrun'
      obtain ⟨rfl, rfl, -⟩ := hrun'
      obtain ⟨p, hp, hsasl⟩ := hp rfl
      exact ⟨frame, hacc.load, htype, p, (hsome p).2 hp, hsasl⟩

/-- What `amqp_decode_amqp_frame` returns is empty, or has the AMQP type and the performative of the
body. -/
theorem amqpFrame_layer_iff (h : FrameReady x L K) (h8 : amqpFrameHeaderSize ≤ b.size) :
    (∀ s x' b', amqpDecodeAmqpFrame hash x b = .ok (some s, x', b') →
      ∃ frame, x'.frames.load s = some frame ∧ frame.frameType = amqpFrameType ∧
        (frame.dispatch = some .emptyFrame ∨
          ∃ p, frame.dispatch = some (.performative p) ∧ p.isSasl = false)) ↔
    (amqpFrameVerdict hash x.descriptors x.debugLevel b = .accepted → b.byteAt 5 = amqpFrameType ∧
      ∀ p, b.body.performative hash x.descriptors amqpDescriptorDomain = some p →
        p.isSasl = false) := by
  have hmeets := amqpDecodeAmqpFrame_meets hash h h8
  cases hv : amqpFrameVerdict hash x.descriptors x.debugLevel b with
  | stops =>
    rw [hv] at hmeets
    obtain ⟨e, hrun, -⟩ := hmeets
    simp [hrun]
  | refused =>
    rw [hv] at hmeets
    obtain ⟨x1, b1, hrun, -⟩ := hmeets
    simp [hrun]
  | accepted =>
    rw [hv] at hmeets
    obtain ⟨s, x1, b1, hrun, -, frame, F, A, hacc⟩ := hmeets
    constructor
    · intro hall _
      obtain ⟨frame', hload, htype, hd⟩ := hall s x1 b1 hrun
      rw [hacc.load, Option.some.injEq] at hload
      subst hload
      refine ⟨by rw [← hacc.frameType, htype], fun p hp => ?_⟩
      rcases hacc.dispatch with ⟨-, hnone, -⟩ | ⟨q, -, hq, hdq⟩
      · rw [hnone] at hp
        cases hp
      · rw [hq, Option.some.injEq] at hp
        subst hp
        rcases hd with hd | ⟨p, hd, hsasl⟩
        · rw [hdq] at hd
          cases hd
        · rw [hdq] at hd
          cases hd
          exact hsasl
    · intro hp s' x1' b1' hrun'
      rw [hrun, Except.ok.injEq, Prod.mk.injEq, Prod.mk.injEq, Option.some.injEq] at hrun'
      obtain ⟨rfl, rfl, -⟩ := hrun'
      obtain ⟨htype, hsasl⟩ := hp rfl
      refine ⟨frame, hacc.load, by rw [hacc.frameType, htype], ?_⟩
      rcases hacc.dispatch with ⟨-, -, hd⟩ | ⟨q, -, hq, hd⟩
      · exact .inl hd
      · exact .inr ⟨q, hd, hsasl q hq⟩

/-- The frame decoders keep to their layer if the type byte fits the body, or if the frame is refused
for another reason. -/
theorem frameLayers_iff (h : FrameReady x L K) (h8 : amqpFrameHeaderSize ≤ b.size) :
    LayersSeparate hash x b ↔
      (frameVerdict hash x.descriptors amqpDescriptorDomain x.debugLevel b = .accepted →
        b.LayerFits hash x.descriptors) := by
  rw [LayersSeparate, saslFrame_layer_iff h h8, amqpFrame_layer_iff h h8, saslFrameVerdict,
    amqpFrameVerdict, Buffer.LayerFits]
  have hmeets := amqpDecodeFrame_meets hash h h8
  change (_ ∧ _) ↔ (frameVerdict hash x.descriptors 0 x.debugLevel b = .accepted → _)
  cases hv : frameVerdict hash x.descriptors 0 x.debugLevel b with
  | stops => simp [Verdict.andThen]
  | refused => simp [Verdict.andThen]
  | accepted =>
    have htype : b.byteAt 5 = amqpFrameType ∨ b.byteAt 5 = amqpSaslFrameType := by
      by_contra hno
      rw [frameVerdict, if_neg (fun hh : b.HeaderAccepted => hno hh.2)] at hv
      cases hv
    rw [hv] at hmeets
    obtain ⟨s, x1, b1, -, -, frame, F, A, hacc⟩ := hmeets
    rcases hacc.dispatch with ⟨ho, hnone, -⟩ | ⟨p, ho, hp, -⟩
    · rw [ho, hnone]
      simp [Verdict.andThen, Verdict.ofBool]
    · obtain ⟨o, ho⟩ := Option.ne_none_iff_exists'.1 ho
      rw [ho, hp]
      -- one of the two entry points gets as far as the performative
      rcases htype with ht | ht <;> rw [ht]
      · cases p.isSasl <;>
          simp [Verdict.andThen, Verdict.ofBool, amqpFrameType, amqpSaslFrameType]
      · cases p.isSasl <;>
          simp [Verdict.andThen, Verdict.ofBool, amqpFrameType, amqpSaslFrameType]

end

/-- A close in an AMQP frame. -/
theorem frameLayers_close : LayersSeparate (fun _ => 0) newContext closeFrame := by
  refine (frameLayers_iff newContext_ready (by decide)).2 fun _ => ?_
  have hp : closeFrame.body.performative (fun _ => 0) newContext.descriptors
      amqpDescriptorDomain = some .amqpClose := by decide +kernel
  rw [Buffer.LayerFits, hp]
  decide

/-- A close in a SASL frame. -/
def saslCloseFrame : Buffer := .received [0, 0, 0, 12, 2, 1, 0, 0, 0x00, 0x53, 0x18, 0x45]

theorem frameLayers_saslClose : ¬ LayersSeparate (fun _ => 0) newContext saslCloseFrame := by
  have hv : saslFrameVerdict (fun _ => 0) newContext.descriptors newContext.debugLevel
      saslCloseFrame = .accepted := by decide +kernel
  have hp : saslCloseFrame.body.performative (fun _ => 0) newContext.descriptors
      amqpDescriptorDomain = some .amqpClose := by decide +kernel
  intro hlayers
  obtain ⟨p, hp', hsasl⟩ := (saslFrame_layer_iff newContext_ready (by decide)).1 hlayers.1 hv
  rw [hp, Option.some.injEq] at hp'
  subst hp'
  cases hsasl

end Amqp
