import LibAmqp.Codec.Proof.Draft

/-!
# The encoder's calls and their drafts

Each encoder call on a context is in lockstep with its call on the draft: they write the same bytes,
stop the process in the same way, and lead from a context and its draft to a context and its draft
(`Follows`).

* `amqpEncodeFixed_lockstep`, `amqpEncodeSimpleVariable_lockstep`: the calls without elements.
* `encodeCompoundType_lockstep`, `amqpCompleteType_lockstep`: containers.
* `Leaf.encode_lockstep`, `CallTree.encode_lockstep`: calls that match.
-/

namespace Amqp

open Lib Memory

section
variable {c c' : Context} {live : Finset Slot} {ids : List Slot} {d : Draft} {i : Nat} {s : Slot}
  {r : DraftType} {t t' : AmqpType}

/-! ## Calls without elements -/

/-- The results of a call on a context and on its draft, when the types made before are in `ids`. -/
structure Follows (ids : List Slot) (x : Option Slot × Context × Buffer)
    (y : Option Nat × Draft × Buffer) : Prop where
  drafted : ∃ live made, Drafted x.2.1 live (ids ++ made) y.2.1 ∧
    x.1 = y.1.bind ((ids ++ made)[·]?) ∧ ∀ i, y.1 = some i → i < (ids ++ made).length
  buffer : x.2.2 = y.2.2

/-- The results of a call that made a type without elements. -/
structure FollowsLeaf (ids : List Slot) (x : Option Slot × Context × Buffer)
    (y : Option Nat × Draft × Buffer) : Prop extends Follows ids x y where
  leaf : ∀ i, y.1 = some i → ∃ r, y.2.1.types[i]? = some r ∧ r.test isContainerMask = false
  closed : ∀ i, y.1 = some i → ∀ F ∈ y.2.1.stack, F.id ≠ i

/-- A change to a type that its draft does not see. -/
theorem Drafted.touch (h : Drafted c live ids d) (hs : ids[i]? = some s) (hr : d.types[i]? = some r)
    (ht : c.types.load s = some t) (hi : ∀ F ∈ d.stack, F.id ≠ i)
    (hleaf : r.test isContainerMask = false) (hcon : t'.constructor = t.constructor)
    (hcause : t'.invalidCause = t.invalidCause) (hel : t'.value.elements = t.value.elements)
    (hfirst : t'.value.constructor = t.value.constructor) :
    Drafted (c.store s t') live ids d := by
  obtain ⟨t1, ht1, hag⟩ := h.types i s r hs hr
  obtain rfl : t = t1 := Option.some.inj (ht.symm.trans ht1)
  have hid : d.modify i id = d := by simp [Draft.modify]
  rw [← hid]
  refine h.update _ hs hr ht ?_ hel fun F hF hFi => absurd hFi (hi F hF)
  refine ⟨by rw [hcon]; exact hag.metaData, by rw [hcon]; exact hag.flags,
    by rw [hcon]; exact hag.code, hcause.trans hag.cause, fun hc => ?_, hfirst.trans hag.first,
    hag.firstMade, hag.membersMade, fun hm => hel.trans (hag.noMembers hm), fun hm => ?_⟩
  · rw [id, hleaf] at hc
    cases hc
  · rw [hel]
    exact hag.elements hm

/-- A type that is not a container, placed and not opened. -/
structure Placed (ids : List Slot) (d : Draft) (x : Slot × Context × Buffer) (y : Draft × Buffer) :
    Prop where
  drafted : ∃ live, Drafted x.2.1 live (ids ++ [x.1]) y.1
  stack : y.1.stack = d.stack
  buffer : x.2.2 = y.2
  leaf : ∃ r, y.1.types[ids.length]? = some r ∧ r.test isContainerMask = false

theorem initializeType_leaf {b : Buffer} {m : EncodingMetaData} (h : Drafted c live ids d)
    (hm : m.typedefFlags &&& isContainerMask = 0#32) :
    Lockstep (Placed ids d) (initializeType c b 0 m) (d.place b 0 m) := by
  have hplace := (placeType_lockstep h b 0 m).and_right fun y hy =>
    Draft.place_new hy fun F hF => h.stack_lt hF
  refine hplace.then_left ?_
  rintro ⟨s, c1, b1⟩ ⟨d1, b2⟩ ⟨⟨live', h1, hst, hb⟩, r, hr, hflag⟩
  have hleaf : r.test isContainerMask = false := by
    rw [hflag.test isContainerMask (by decide)]
    show ((m.typedefFlags ||| isEncoded ||| 0) &&& isContainerMask != 0#32) = false
    rw [or_and_of_disjoint (by decide), or_and_of_disjoint (by decide), hm]
    rfl
  rw [← h.length] at hr
  obtain ⟨t, ht, hag⟩ := h1.types ids.length s r (by simp) hr
  have htest : t.typeIsContainer = false := by
    rw [← hleaf]
    exact hag.test isContainerMask
  dsimp only
  rw [Context.load_ok ht, Fault.ok_bind, htest]
  exact ⟨⟨live', h1⟩, hst, hb, r, hr, hleaf⟩

/-- A call that finds no room. -/
theorem FollowsLeaf.refused {b : Buffer} (h : Drafted c live ids d) :
    FollowsLeaf ids (none, c, b) (none, d, b) where
  drafted := ⟨live, [], by simpa using h, rfl, fun i hi => nomatch hi⟩
  buffer := rfl
  leaf _ hi := nomatch hi
  closed _ hi := nomatch hi

section
variable {x : Slot × Context × Buffer} {y : Draft × Buffer}

theorem Placed.closed (hp : Placed ids d x y) (h : Drafted c live ids d) :
    ∀ F ∈ y.1.stack, F.id ≠ ids.length := by
  intro F hF
  rw [hp.stack] at hF
  have := h.stack_lt hF
  have := h.length
  omega

theorem Placed.load (hp : Placed ids d x y) : ∃ t, x.2.1.types.load x.1 = some t := by
  obtain ⟨⟨live', h1⟩, -, -, r, hr, -⟩ := hp
  obtain ⟨t, ht, -⟩ := h1.types ids.length x.1 r (by simp) hr
  exact ⟨t, ht⟩

/-- A write to the new type that its draft does not see. -/
theorem Placed.touch (hp : Placed ids d x y) (t' : AmqpType) (h : Drafted c live ids d)
    (ht : x.2.1.types.load x.1 = some t) (hcon : t'.constructor = t.constructor)
    (hcause : t'.invalidCause = t.invalidCause) (hel : t'.value.elements = t.value.elements)
    (hfirst : t'.value.constructor = t.value.constructor) :
    Placed ids d (x.1, x.2.1.store x.1 t', x.2.2) y := by
  obtain ⟨⟨live', h1⟩, hst, hb, r, hr, hleaf⟩ := hp
  exact ⟨⟨live', h1.touch (by simp) hr ht (Placed.closed ⟨⟨live', h1⟩, hst, hb, r, hr, hleaf⟩ h) hleaf
    hcon hcause hel hfirst⟩, hst, hb, r, hr, hleaf⟩

/-- A call that made a type. -/
theorem Placed.follows (hp : Placed ids d x y) (h : Drafted c live ids d) (b : Buffer) :
    FollowsLeaf ids (some x.1, x.2.1, b) (some d.types.length, y.1, b) := by
  have hclosed := hp.closed h
  obtain ⟨⟨live', h1⟩, -, -, r, hr, hleaf⟩ := hp
  refine ⟨⟨⟨live', [x.1], h1, ?_, ?_⟩, rfl⟩, ?_, ?_⟩
  · rw [← h.length]
    simp
  · rintro i ⟨⟩
    simp [h.length]
  · rintro i ⟨⟩
    exact ⟨r, by rw [← h.length, hr], hleaf⟩
  · rintro i ⟨⟩
    rw [← h.length]
    exact hclosed

end

theorem amqpEncodeFixed_lockstep {b : Buffer} {m : EncodingMetaData} (h : Drafted c live ids d)
    (hm : m.typedefFlags &&& isContainerMask = 0#32) :
    Lockstep (FollowsLeaf ids) (amqpEncodeFixed c b m) (d.encodeFixed b m) := by
  unfold amqpEncodeFixed Draft.encodeFixed
  split
  · exact FollowsLeaf.refused h
  · refine (initializeType_leaf h hm).bind ?_
    rintro ⟨s, c1, b1⟩ ⟨d1, b2⟩ hp
    obtain ⟨t, ht⟩ := hp.load
    obtain rfl := hp.buffer
    dsimp only at ht ⊢
    rw [Context.modify_ok _ ht, Fault.ok_bind]
    have hp1 := hp.touch { t with position := ⟨b1.size, m.width⟩ } h ht rfl rfl rfl rfl
    exact hp1.follows h b1

theorem FollowsLeaf.slot {p : Option Slot} {k : Nat} {b b' : Buffer}
    (h : FollowsLeaf ids (p, c, b) (some k, d, b')) : ∃ s, p = some s := by
  obtain ⟨live', made, -, hpq, hlt⟩ := h.drafted
  exact ⟨_, hpq.trans (List.getElem?_eq_getElem (hlt k rfl))⟩

theorem FollowsLeaf.no_slot {p : Option Slot} {b b' : Buffer}
    (h : FollowsLeaf ids (p, c, b) (none, d, b')) : p = none := by
  obtain ⟨live', made, -, hpq, -⟩ := h.drafted
  exact hpq

theorem thenWrite_lockstep {b : Buffer} {m : EncodingMetaData} {write : Buffer → Except Fault Buffer}
    (h : Drafted c live ids d) (hm : m.typedefFlags &&& isContainerMask = 0#32) :
    Lockstep (FollowsLeaf ids) (thenWrite (amqpEncodeFixed c b m) write) (d.fixed b m write) := by
  refine (amqpEncodeFixed_lockstep h hm).bind ?_
  rintro ⟨p, c1, b1⟩ ⟨q, d1, b2⟩ hf
  obtain rfl := hf.buffer
  cases q with
  | none =>
    obtain rfl := hf.no_slot
    exact hf
  | some k =>
    obtain ⟨s, rfl⟩ := hf.slot
    refine (Lockstep.same _).bind ?_
    rintro b3 _ rfl
    exact { hf with buffer := rfl }

theorem amqpEncodeFixedBytes_lockstep {n value : Nat} {b : Buffer} {m : EncodingMetaData}
    (h : Drafted c live ids d) (hm : m.typedefFlags &&& isContainerMask = 0#32) :
    Lockstep (FollowsLeaf ids) (amqpEncodeFixedBytes n c b m value)
      (d.fixed b m fun b => b.hton n value) := thenWrite_lockstep h hm

theorem amqpEncodeSimpleVariable_lockstep {b : Buffer} {m : EncodingMetaData} {value : List UInt8}
    (h : Drafted c live ids d) (hm : m.typedefFlags &&& isContainerMask = 0#32) :
    Lockstep (FollowsLeaf ids) (amqpEncodeSimpleVariable c b m value) (d.variableWidth b m value) := by
  unfold amqpEncodeSimpleVariable Draft.variableWidth
  split
  · exact FollowsLeaf.refused h
  · refine (initializeType_leaf h hm).bind ?_
    rintro ⟨s, c1, b1⟩ ⟨d1, b2⟩ hp
    obtain ⟨t, ht⟩ := hp.load
    obtain rfl := hp.buffer
    dsimp only at ht ⊢
    rw [Context.modify_ok _ ht, Fault.ok_bind]
    refine (Lockstep.same _).bind ?_
    rintro b3 _ rfl
    have hp1 := hp.touch { t with value := { t.value with word := b1.address } } h ht rfl rfl
      rfl rfl
    have ht1 : (c1.store s { t with value := { t.value with word := b1.address } }).types.load s =
      some { t with value := { t.value with word := b1.address } } := load_store_self ht
    rw [Context.modify_ok _ ht1, Fault.ok_bind]
    refine (Lockstep.same _).bind ?_
    rintro b4 _ rfl
    have hp2 := hp1.touch { t with
      value := { t.value with word := b1.address }, position := ⟨b3.size, value.length⟩ } h ht1 rfl
      rfl rfl rfl
    exact hp2.follows h b4

theorem isIContainedWithinArray_lockstep (h : Drafted c live ids d) :
    Lockstep (fun x y => x = y) (isIContainedWithinArray c) d.inArray := by
  have hlinked := h.linked
  unfold isIContainedWithinArray Draft.inArray
  cases hst : d.stack with
  | nil =>
    rw [hst, Linked] at hlinked
    rw [hlinked]
    exact Lockstep.ok rfl
  | cons F rest =>
    rw [hst] at hlinked
    obtain ⟨s, t, hc, hs, ht, -⟩ := hlinked
    obtain ⟨r, hr, -⟩ := h.opened F (by rw [hst]; exact .head _)
    obtain ⟨t1, ht1, hag⟩ := h.types F.id s r hs hr
    rw [hc]
    dsimp only
    rw [Context.load_ok ht1, Draft.load_ok hr]
    exact Lockstep.ok (hag.test isArray)

/-- The value that is set after the call is no part of the draft. -/
theorem FollowsLeaf.setValue (value : BitVec 32) {x : Encoding} {y : Drafting}
    (hxy : Lockstep (FollowsLeaf ids) x y) :
    Lockstep (FollowsLeaf ids)
      (x >>= fun (result, c, b) => match result with
        | none => .error .wildPointer
        | some type => do
          let c ← c.modify type fun t => { t with value := t.value.setLow 1 (value.toNat % 256) }
          .ok (some type, c, b))
      (y >>= fun (result, d, b) => match result with
        | none => .error .wildPointer
        | some type => .ok (some type, d, b)) := by
  refine hxy.bind ?_
  rintro ⟨p, c1, b1⟩ ⟨q, d1, b2⟩ hf
  obtain rfl := hf.buffer
  cases q with
  | none =>
    obtain rfl := hf.no_slot
    exact Lockstep.error _
  | some k =>
    obtain ⟨s, rfl⟩ := hf.slot
    obtain ⟨live', made, h1, hpq, hlt⟩ := hf.drafted
    obtain ⟨r, hr, hleaf⟩ := hf.leaf k rfl
    have hs : (ids ++ made)[k]? = some s := hpq.symm
    obtain ⟨t, ht, -⟩ := h1.types k s r hs hr
    dsimp only at ht ⊢
    rw [Context.modify_ok _ ht, Fault.ok_bind]
    exact { hf with drafted := ⟨live', made,
      h1.touch hs hr ht (hf.closed k rfl) hleaf rfl rfl rfl rfl, hpq, hlt⟩ }

theorem amqpEncodeBoolean_lockstep {b : Buffer} (h : Drafted c live ids d) (value : BitVec 32) :
    Lockstep (FollowsLeaf ids) (amqpEncodeBoolean c b value) (d.boolean b value) := by
  unfold amqpEncodeBoolean Draft.boolean
  refine (isIContainedWithinArray_lockstep h).bind ?_
  rintro a _ rfl
  cases a with
  | true => exact FollowsLeaf.setValue value (amqpEncodeFixedBytes_lockstep h (by decide))
  | false =>
    refine FollowsLeaf.setValue value (amqpEncodeFixed_lockstep h ?_)
    split <;> decide

/-! ## Containers -/

/-- A draft only depends on the types it made, the arrays and the innermost container. -/
theorem Drafted.congr (h : Drafted c live ids d) (hheld : Live AmqpType.Blank c'.types live)
    (hinit : c'.types.initializerCallback = c.types.initializerCallback) (hlimit : c'.limit = c.limit)
    (hload : ∀ s ∈ ids, c'.types.load s = c.types.load s) (harr : c'.arrays = c.arrays)
    (hcon : c'.container = c.container) (husage : c'.continueOnUsageError = c.continueOnUsageError) :
    Drafted c' live ids d := by
  have hget : ∀ {n : Nat} {x}, ids[n]? = some x → c'.types.load x = c.types.load x :=
    fun hx => hload _ (List.mem_of_getElem? hx)
  refine ⟨⟨⟨hheld, hinit.trans h.ready.initializer⟩, hlimit.trans h.ready.limit⟩, h.nodup, h.live, h.length,
    ?_, ?_, ?_, h.opened, h.stackNodup, husage.trans h.usage⟩
  · intro n x r hx hr
    rw [hget hx, harr]
    exact h.types n x r hx hr
  · intro n n' x y tx ty hx hy htx hty
    exact h.distinct n n' x y tx ty hx hy (hget hx ▸ htx) (hget hy ▸ hty)
  · rw [hcon]
    exact h.linked.congr (fun _ _ => rfl) fun F _ x tx hx htx => ⟨tx, by rw [hget hx, htx], rfl, rfl⟩

/-- A container that is ready for its elements becomes the innermost one. -/
theorem Drafted.push {index : Nat} (h : Drafted c live ids d) (hs : ids[i]? = some s)
    (hr : d.types[i]? = some r) (ht : c.types.load s = some t) (hopen : r.Open)
    (hi : ∀ F ∈ d.stack, F.id ≠ i) (hsaved : t.savedContainer = c.container)
    (hindex : t.position.index = index) :
    Drafted { c with container := some s } live ids { d with stack := ⟨i, index⟩ :: d.stack } where
  ready := ⟨⟨h.ready.held, h.ready.initializer⟩, h.ready.limit⟩
  nodup := h.nodup
  live := h.live
  length := h.length
  types := h.types
  distinct := h.distinct
  linked := by
    refine ⟨s, t, rfl, hs, ht, hindex, ?_⟩
    rw [hsaved]
    refine h.linked.congr (fun _ _ => rfl) fun F _ x tx _ htx => ?_
    exact ⟨tx, htx, rfl, rfl⟩
  opened F hF := by
    rcases List.mem_cons.1 hF with rfl | hF
    · exact ⟨r, hr, hopen⟩
    · exact h.opened F hF
  stackNodup := by
    refine List.nodup_cons.2 ⟨fun hm => ?_, h.stackNodup⟩
    obtain ⟨F, hF, hFi⟩ := List.mem_map.1 hm
    exact hi F hF hFi
  usage := h.usage

/-- The innermost container is taken off. -/
theorem Drafted.pop {F : Frame} {rest : List Frame} (h : Drafted c live ids d)
    (hst : d.stack = F :: rest) : ∃ s t r, c.container = some s ∧ ids[F.id]? = some s ∧
      c.types.load s = some t ∧ d.types[F.id]? = some r ∧ r.Open ∧ t.position.index = F.index ∧
      (∀ G ∈ rest, G.id ≠ F.id) ∧
      Drafted { c with container := t.savedContainer } live ids { d with stack := rest } := by
  have hlinked := h.linked
  rw [hst] at hlinked
  obtain ⟨s, t, hcon, hs, ht, hindex, hrest⟩ := hlinked
  obtain ⟨r, hr, hopen⟩ := h.opened F (by rw [hst]; exact .head _)
  have hnodup := h.stackNodup
  rw [hst, List.map_cons, List.nodup_cons] at hnodup
  refine ⟨s, t, r, hcon, hs, ht, hr, hopen, hindex, fun G hG hGF => ?_, ?_⟩
  · exact hnodup.1 (hGF ▸ List.mem_map_of_mem hG)
  · refine ⟨⟨⟨h.ready.held, h.ready.initializer⟩, h.ready.limit⟩, h.nodup, h.live, h.length, h.types,
      h.distinct, ?_, fun G hG => h.opened G (by rw [hst]; exact .tail _ hG), hnodup.2, h.usage⟩
    refine hrest.congr (fun _ _ => rfl) fun G _ x tx _ htx => ?_
    exact ⟨tx, htx, rfl, rfl⟩

theorem reserveFields_lockstep {b : Buffer} (ht : c.types.load s = some t) (width : Nat) :
    Lockstep (fun x y => x.1 = c.store s { t with position.index := y.1 } ∧ x.2 = y.2)
      (reserveFields c b s width) (Draft.reserve b width) := by
  obtain rfl | rfl | rfl | ⟨h0, h1, h4⟩ :
      width = 0 ∨ width = 1 ∨ width = 4 ∨ (width ≠ 0 ∧ width ≠ 1 ∧ width ≠ 4) := by omega
  · dsimp only [reserveFields]
    rw [Context.modify_ok _ ht, Fault.ok_bind]
    exact Lockstep.ok ⟨rfl, rfl⟩
  · refine (Lockstep.same _).bind ?_
    rintro b1 _ rfl
    dsimp only
    rw [Context.modify_ok _ ht, Fault.ok_bind]
    refine (Lockstep.same _).bind ?_
    rintro b2 _ rfl
    exact ⟨rfl, rfl⟩
  · refine (Lockstep.same _).bind ?_
    rintro b1 _ rfl
    dsimp only
    rw [Context.modify_ok _ ht, Fault.ok_bind]
    refine (Lockstep.same _).bind ?_
    rintro b2 _ rfl
    exact ⟨rfl, rfl⟩
  · have hleft : reserveFields c b s width = .error .abort := by
      unfold reserveFields
      split <;> first | contradiction | rfl
    have hright : Draft.reserve b width = .error .abort := by
      unfold Draft.reserve
      split <;> first | contradiction | rfl
    rw [hleft, hright]
    exact Lockstep.error _

/-- A container that was placed in the context `c` and opened, its fields still to be reserved. -/
structure Opening (ids : List Slot) (d : Draft) (x : Slot × Context × Buffer) (y : Draft × Buffer)
    (c : Context) (t : AmqpType) (r : DraftType) : Prop where
  drafted : ∃ live, Drafted c live (ids ++ [x.1]) y.1
  stack : y.1.stack = d.stack
  buffer : x.2.2 = y.2
  draft : y.1.types[ids.length]? = some r
  load : c.types.load x.1 = some t
  canOpen : (r.setFlags isIncomplete).Open
  pushed : x.2.1 = { c.store x.1 { t.typedefFlagsSet isIncomplete with
    savedContainer := c.container } with container := some x.1 }

theorem initializeType_container {b : Buffer} {m : EncodingMetaData} {extra : TypedefFlags}
    (h : Drafted c live ids d)
    (hm : (m.typedefFlags ||| isEncoded ||| extra) &&& isContainerMask ≠ 0#32)
    (hw : m.width = 0 → (m.typedefFlags ||| isEncoded ||| extra) &&& isComposite ≠ 0#32) :
    Lockstep (fun x y => ∃ c1 t r, Opening ids d x y c1 t r) (initializeType c b extra m)
      (d.place b extra m) := by
  have hplace := (placeType_lockstep h b extra m).and_right fun y hy =>
    Draft.place_new hy fun F hF => h.stack_lt hF
  refine hplace.then_left ?_
  rintro ⟨s, c1, b1⟩ ⟨d1, b2⟩ ⟨⟨live', h1, hst, hb⟩, r, hr, hflag⟩
  have hcontainer : r.test isContainerMask = true := by
    rw [hflag.test isContainerMask (by decide)]
    exact bne_iff_ne.2 hm
  rw [← h.length] at hr
  obtain ⟨t, ht, hag⟩ := h1.types ids.length s r (by simp) hr
  have htest : t.typeIsContainer = true := by
    rw [← hcontainer]
    exact hag.test isContainerMask
  dsimp only at ht ⊢
  rw [Context.load_ok ht, Fault.ok_bind, if_pos htest, pushContainer, Context.modify_ok _ ht]
  refine ⟨c1, t, r, ⟨live', h1⟩, hst, hb, hr, ht, ⟨?_, fun hw0 => ?_, fun _ => ?_⟩, rfl⟩
  · rw [r.test_setFlags (by decide), hcontainer]
  · rw [r.test_setFlags (by decide), hflag.test isComposite (by decide)]
    refine bne_iff_ne.2 (hw ?_)
    rw [← show r.metaData = m from hflag.metaData]
    exact hw0
  · show r.members.length ≤ 2
    rw [hflag.members]
    exact Nat.zero_le 2

theorem encodeCompoundType_lockstep {b : Buffer} {m : EncodingMetaData} {extra : TypedefFlags}
    (h : Drafted c live ids d)
    (hm : (m.typedefFlags ||| isEncoded ||| extra) &&& isContainerMask ≠ 0#32)
    (hw : m.width = 0 → (m.typedefFlags ||| isEncoded ||| extra) &&& isComposite ≠ 0#32) :
    Lockstep (Follows ids) (encodeCompoundType c b extra m) (d.compound b extra m) := by
  unfold encodeCompoundType Draft.compound
  split
  · exact Lockstep.error _
  refine (initializeType_container h hm hw).bind ?_
  rintro ⟨s, c2, b1⟩ ⟨d1, b2⟩ ⟨c1, t, r, ⟨live', h1⟩, hst, hb, hr, ht, hopen, hpush⟩
  dsimp only at hst hb hpush h1 hr ht ⊢
  subst hb hpush
  have hs : (ids ++ [s])[ids.length]? = some s := by simp
  have hlive := h1.live s (by simp)
  have hclosed : ∀ F ∈ d1.stack, F.id ≠ ids.length := by
    intro F hF
    rw [hst] at hF
    have := h.stack_lt hF
    have := h.length
    omega
  refine (reserveFields_lockstep (load_store_self ht) m.width).bind ?_
  rintro ⟨c3, b3⟩ ⟨index, b4⟩ ⟨hc3, hb3⟩
  dsimp only at hc3 hb3 ⊢
  subst hc3 hb3
  obtain ⟨t0, ht0, hag⟩ := h1.types ids.length s r hs hr
  obtain rfl : t = t0 := Option.some.inj (ht.symm.trans ht0)
  -- opening and reserving in one step
  have hup := h1.update (g := (·.setFlags isIncomplete)) { t.typedefFlagsSet isIncomplete with
      savedContainer := c1.container, position.index := index } hs hr ht
    { hag.setFlags (show isIncomplete &&& isContainerMask = 0#32 by decide) with } rfl
    fun F hF hFi => absurd hFi (hclosed F hF)
  have hpushed := hup.push hs (Draft.modify_self hr) (load_store_self ht) hopen hclosed rfl rfl
  refine ⟨⟨live', [s], ?_, ?_, ?_⟩, rfl⟩
  · rw [← h.length]
    refine hpushed.congr ((h1.ready.held.store hlive _).store hlive _) rfl rfl (fun x hx => ?_) rfl rfl rfl
    by_cases hxs : x = s
    · subst hxs
      exact (load_store_self (load_store_self ht)).trans (load_store_self ht).symm
    · exact ((load_store_ne _ hxs).trans (load_store_ne _ hxs)).trans (load_store_ne _ hxs).symm
  · rw [← h.length]
    exact hs.symm
  · rintro i ⟨⟩
    simp [h.length]

/-! ## Completion -/

theorem DraftType.test_clearFlags {bits mask : TypedefFlags} (r : DraftType)
    (h : bits &&& mask = 0#32) : (r.clearFlags bits).test mask = r.test mask := by
  simp only [test, clearFlags]
  congr 1
  refine BitVec.eq_of_getLsbD_eq fun i hi => ?_
  have e := congrArg (BitVec.getLsbD · i) h
  simp only [BitVec.getLsbD_and, BitVec.getLsbD_not, BitVec.getLsbD_zero, hi, decide_true,
    Bool.true_and] at e ⊢
  revert e
  cases r.flags.getLsbD i <;> cases bits.getLsbD i <;> cases mask.getLsbD i <;> simp

theorem Agrees.clearFlags {arrays : Heap (List (Option Slot))} {bits : TypedefFlags}
    (h : Agrees arrays ids r t) (hf : bits &&& isContainerMask = 0#32) :
    Agrees arrays ids (r.clearFlags bits) (t.typedefFlagsClear bits) :=
  { h with
    flags := by
      show t.constructor.typedefFlags &&& ~~~bits = _
      rw [h.flags]
      rfl
    count := fun hc => h.count (by rw [← r.test_clearFlags hf]; exact hc) }

section
variable {F : Frame} {b : Buffer}

/-- `complete_container_type`, of a container that was taken off. -/
theorem completeContainerType_lockstep (h : Drafted c live ids d) (hs : ids[F.id]? = some s)
    (hr : d.types[F.id]? = some (r.clearFlags isIncomplete)) (ht : c.types.load s = some t)
    (hopen : r.Open) (hindex : t.position.index = F.index) (hclosed : ∀ G ∈ d.stack, G.id ≠ F.id) :
    Lockstep (Follows ids) (completeContainerType c b s) (d.completeContainer b F r) := by
  obtain ⟨t0, ht0, hag⟩ := h.types F.id s _ hs hr
  obtain rfl : t = t0 := Option.some.inj (ht.symm.trans ht0)
  have hcount : t.value.count = r.members.length := by
    refine hag.count ?_
    rw [r.test_clearFlags (by decide), hopen.container]
  have hmeta : t.constructor.metaData = some r.metaData := hag.metaData
  have h1 := h.update (g := id) { t with position.size := b.size - t.position.index } hs hr ht
    { hag with } rfl fun G hG hGF => absurd hGF (hclosed G hG)
  have hid : d.modify F.id id = d := by simp [Draft.modify]
  rw [hid] at h1
  have hdone : ∀ b', Follows ids (some s, c.store s { t with
      position.size := b.size - t.position.index }, b') (some F.id, d, b') := by
    intro b'
    refine ⟨⟨live, [], by simpa using h1, ?_, ?_⟩, rfl⟩
    · simpa using hs.symm
    · rintro k ⟨⟩
      simpa using (List.getElem?_eq_some_iff.1 hs).1
  unfold completeContainerType Draft.completeContainer
  dsimp only
  rw [Context.modify_ok _ ht, Fault.ok_bind, Context.load_ok (load_store_self ht), Fault.ok_bind, hmeta]
  dsimp only
  by_cases hw : r.metaData.width = 0
  · have hfew := hopen.members (hopen.described hw)
    rw [if_pos hw, if_pos hw, if_neg (by rw [hcount]; omega)]
    exact hdone _
  · rw [if_neg hw, if_neg hw, hcount, ← hindex]
    refine (Lockstep.same _).bind ?_
    rintro b1 _ rfl
    exact hdone (b1.setWriteIndex b.size)

/-- `complete_empty_list`. -/
theorem completeEmptyList_lockstep (h : Drafted c live ids d) (hs : ids[F.id]? = some s)
    (hr : d.types[F.id]? = some (r.clearFlags isIncomplete)) (ht : c.types.load s = some t)
    (hclosed : ∀ G ∈ d.stack, G.id ≠ F.id) :
    Lockstep (Follows ids) (completeEmptyList c b s) (d.completeEmptyList b F r) := by
  obtain ⟨t0, ht0, hag⟩ := h.types F.id s _ hs hr
  obtain rfl : t = t0 := Option.some.inj (ht.symm.trans ht0)
  have hmeta : t.constructor.metaData = some r.metaData := hag.metaData
  unfold completeEmptyList Draft.completeEmptyList
  rw [Context.load_ok ht, Fault.ok_bind, hmeta]
  dsimp only
  refine (Lockstep.same _).bind ?_
  rintro b1 _ rfl
  refine (Lockstep.same _).bind ?_
  rintro b2 _ rfl
  rw [Context.modify_ok _ ht, Fault.ok_bind]
  have h1 := h.update (g := fun r => { r with
      metaData := .list0, code := EncodingMetaData.list0.formatCode })
    { t with
      constructor := { t.constructor with
        metaData := some .list0, formatCode := EncodingMetaData.list0.formatCode }
      position := ⟨b2.size, EncodingMetaData.list0.width⟩ } hs hr ht
    { hag with metaData := rfl, code := rfl } rfl fun G hG hGF => absurd hGF (hclosed G hG)
  refine ⟨⟨live, [], by simpa using h1, ?_, ?_⟩, rfl⟩
  · simpa using hs.symm
  · rintro k ⟨⟩
    simpa using (List.getElem?_eq_some_iff.1 hs).1

end

/-- `pop_container`. -/
theorem popContainer_drafted {F : Frame} {rest : List Frame} (h : Drafted c live ids d)
    (hst : d.stack = F :: rest) : ∃ s c1 t r, popContainer c = .ok (s, c1) ∧ ids[F.id]? = some s ∧
      c1.types.load s = some t ∧ d.types[F.id]? = some r ∧ r.Open ∧ t.position.index = F.index ∧
      (∀ G ∈ rest, G.id ≠ F.id) ∧
      Drafted c1 live ids { d.modify F.id (·.clearFlags isIncomplete) with stack := rest } := by
  obtain ⟨s, t, r, hcon, hs, ht, hr, hopen, hindex, hclosed, h0⟩ := h.pop hst
  obtain ⟨t0, ht0, hag⟩ := h.types F.id s r hs hr
  obtain rfl : t = t0 := Option.some.inj (ht.symm.trans ht0)
  have h1 := h0.update (g := (·.clearFlags isIncomplete))
    { t.typedefFlagsClear isIncomplete with savedContainer := none } hs hr ht
    { hag.clearFlags (show isIncomplete &&& isContainerMask = 0#32 by decide) with } rfl
    fun G hG hGF => absurd hGF (hclosed G hG)
  refine ⟨s, _, { t.typedefFlagsClear isIncomplete with savedContainer := none }, r, ?_, hs,
    load_store_self ht, hr, hopen, hindex, hclosed, h1⟩
  rw [popContainer, hcon]
  dsimp only
  rw [Context.load_ok ht, Fault.ok_bind, Context.modify_ok _ ht, Fault.ok_bind]
  rfl

/-- The container asked for is the innermost one on both sides or on none. -/
theorem Drafted.wrong_iff (h : Drafted c live ids d) {p : Option Slot} {q : Option Nat}
    (hpq : p = q.bind (ids[·]?)) (hq : ∀ k, q = some k → k < ids.length) (hs : ids[i]? = some s) :
    (p.isSome && p != some s) = (q.isSome && q != some i) := by
  cases q with
  | none => rw [hpq]; rfl
  | some k =>
    obtain ⟨sk, hk⟩ : ∃ sk, ids[k]? = some sk := ⟨_, List.getElem?_eq_getElem (hq k rfl)⟩
    rw [hpq]
    simp only [Option.bind_some, hk, Option.isSome_some, Bool.true_and]
    by_cases hki : k = i
    · subst hki
      obtain rfl : sk = s := Option.some.inj (hk.symm.trans hs)
      simp
    · have hne : some sk ≠ some s := by simpa using h.slot_ne hs hk hki
      have hne' : some k ≠ some i := by simpa using hki
      rw [bne_iff_ne.2 hne, bne_iff_ne.2 hne']

theorem amqpCompleteType_lockstep {b : Buffer} {p : Option Slot} {q : Option Nat}
    (h : Drafted c live ids d) (hpq : p = q.bind (ids[·]?)) (hq : ∀ k, q = some k → k < ids.length) :
    Lockstep (Follows ids) (amqpCompleteType c b p) (d.complete b q) := by
  unfold amqpCompleteType Draft.complete
  cases hst : d.stack with
  | nil =>
    have hlinked := h.linked
    rw [hst, Linked] at hlinked
    rw [popContainer, hlinked]
    exact Lockstep.error _
  | cons F rest =>
    obtain ⟨s, c1, t, r, hpop, hs, ht, hr, hopen, hindex, hclosed, h1⟩ := popContainer_drafted h hst
    have hr1 : ({ d.modify F.id (·.clearFlags isIncomplete) with stack := rest } : Draft).types[F.id]? =
      some (r.clearFlags isIncomplete) := Draft.modify_self hr
    obtain ⟨t0, ht0, hag⟩ := h1.types F.id s _ hs hr1
    obtain rfl : t = t0 := Option.some.inj (ht.symm.trans ht0)
    dsimp only
    rw [hpop, Fault.ok_bind, Draft.load_ok hr, Fault.ok_bind]
    dsimp only
    rw [h.wrong_iff hpq hq hs]
    split
    · rename_i hwrong
      rw [h1.usage]
      split
      · exact Lockstep.error _
      · cases q with
        | none => cases hwrong
        | some k =>
          obtain ⟨sk, hk⟩ : ∃ sk, ids[k]? = some sk := ⟨_, List.getElem?_eq_getElem (hq k rfl)⟩
          obtain rfl : p = some sk := hpq.trans hk
          have hkF : k ≠ F.id := by
            rintro rfl
            simp at hwrong
          have hrk := List.getElem?_eq_getElem (show k < ({ d.modify F.id (·.clearFlags isIncomplete)
            with stack := rest } : Draft).types.length by rw [← h1.length]; exact hq k rfl)
          obtain ⟨tk, htk, -⟩ := h1.types k sk _ hk hrk
          have h2 := h1.markInvalid hk hrk htk .completeWrongContainer
          have ht2 : (c1.store sk (tk.markInvalid .completeWrongContainer)).types.load s = some t :=
            (load_store_ne _ (h.slot_ne hk hs hkF.symm)).trans ht
          have h3 := h2.markInvalid hs (by rw [Draft.modify_ne _ hkF.symm]; exact hr1) ht2
            .completeWrongContainer
          dsimp only
          rw [Context.modify_ok _ htk, Fault.ok_bind, Context.modify_ok _ ht2, Fault.ok_bind]
          exact ⟨⟨live, [], by simpa using h3, rfl, fun k hk => by cases hk⟩, rfl⟩
    · refine (isIContainedWithinArray_lockstep h1).bind ?_
      rintro a _ rfl
      have hlist : t.typeIsList = r.test isList := by
        rw [← r.test_clearFlags (show isIncomplete &&& isList = 0#32 by decide)]
        exact hag.test isList
      have hcount : t.value.count = r.members.length := by
        refine hag.count ?_
        rw [r.test_clearFlags (by decide), hopen.container]
      rw [Context.load_ok ht, Fault.ok_bind, AmqpType.typeIsEmptyList, hlist, hcount]
      split
      · exact completeContainerType_lockstep h1 hs hr1 ht hopen hindex hclosed
      · exact completeEmptyList_lockstep h1 hs hr1 ht hclosed

/-! ## Values -/

theorem Draft.leaf_number {n value : Nat} {b : Buffer} {m : EncodingMetaData}
    (hk : m.kind ≠ .variableWidth) (hw : m.width ≠ 16) :
    d.leaf b m (toBigEndian n value) = d.fixed b m fun b => b.hton n value := by
  rw [Draft.leaf, if_neg hk]
  simp only [if_neg hw]
  rfl

theorem Draft.leaf_empty {b : Buffer} {m : EncodingMetaData} (hk : m.kind ≠ .variableWidth)
    (hw : m.width ≠ 16) : d.leaf b m [] = d.encodeFixed b m := by
  rw [Draft.leaf, if_neg hk, Draft.fixed, Draft.thenWrite]
  simp only [if_neg hw, Buffer.uncheckedWrite, Fault.ok_bind]
  cases d.encodeFixed b m with
  | error e => rfl
  | ok y =>
    obtain ⟨q, d1, b1⟩ := y
    cases q <;> rfl

theorem amqpEncodeNumber_lockstep {n value : Nat} {b : Buffer} {m : EncodingMetaData}
    (h : Drafted c live ids d) (hm : m.typedefFlags &&& isContainerMask = 0#32)
    (hk : m.kind ≠ .variableWidth) (hw : m.width ≠ 16) :
    Lockstep (FollowsLeaf ids) (amqpEncodeFixedBytes n c b m value)
      (d.leaf b m (toBigEndian n value)) := by
  rw [Draft.leaf_number hk hw]
  exact amqpEncodeFixedBytes_lockstep h hm

theorem amqpEncodeEmpty_lockstep {b : Buffer} {m : EncodingMetaData} (h : Drafted c live ids d)
    (hm : m.typedefFlags &&& isContainerMask = 0#32) (hk : m.kind ≠ .variableWidth)
    (hw : m.width ≠ 16) : Lockstep (FollowsLeaf ids) (amqpEncodeFixed c b m) (d.leaf b m []) := by
  rw [Draft.leaf_empty hk hw]
  exact amqpEncodeFixed_lockstep h hm

theorem amqpEncodeBytes_lockstep {b : Buffer} {m : EncodingMetaData} {value : List UInt8}
    (h : Drafted c live ids d) (hm : m.typedefFlags &&& isContainerMask = 0#32)
    (hk : m.kind = .variableWidth) :
    Lockstep (FollowsLeaf ids) (amqpEncodeSimpleVariable c b m value) (d.leaf b m value) := by
  rw [Draft.leaf, if_pos hk]
  exact amqpEncodeSimpleVariable_lockstep h hm

theorem toBigEndian_one_mod (v : Nat) : toBigEndian 1 (v % 256) = toBigEndian 1 v := by
  simp [toBigEndian]

theorem Scalar.encode_lockstep {b : Buffer} (h : Drafted c live ids d) (v : Scalar) :
    Lockstep (FollowsLeaf ids) (v.encode c b) (v.draft d b) := by
  cases v with
  | null => exact amqpEncodeEmpty_lockstep h (by decide) (by decide) (by decide)
  | boolean v => exact amqpEncodeBoolean_lockstep h _
  | ubyte v | byte v | ushort v | short v | timestamp v | float v | double v =>
    exact amqpEncodeNumber_lockstep h (by decide) (by decide) (by decide)
  | uint v =>
    simp only [encode, draft, encoding, amqpEncodeUint]
    split
    · exact amqpEncodeEmpty_lockstep h (by decide) (by decide) (by decide)
    split
    · rw [amqpEncodeSmallUint, ← toBigEndian_one_mod]
      exact amqpEncodeNumber_lockstep h (by decide) (by decide) (by decide)
    · exact amqpEncodeNumber_lockstep h (by decide) (by decide) (by decide)
  | ulong v =>
    simp only [encode, draft, encoding, amqpEncodeUlong]
    split
    · exact amqpEncodeEmpty_lockstep h (by decide) (by decide) (by decide)
    split
    · rw [amqpEncodeSmallUlong, ← toBigEndian_one_mod]
      exact amqpEncodeNumber_lockstep h (by decide) (by decide) (by decide)
    · exact amqpEncodeNumber_lockstep h (by decide) (by decide) (by decide)
  | int v =>
    simp only [encode, draft, encoding, amqpEncodeInt]
    split
    · rw [amqpEncodeSmallInt, ← toBigEndian_one_mod]
      exact amqpEncodeNumber_lockstep h (by decide) (by decide) (by decide)
    · exact amqpEncodeNumber_lockstep h (by decide) (by decide) (by decide)
  | long v =>
    simp only [encode, draft, encoding, amqpEncodeLong]
    split
    · rw [amqpEncodeSmallLong, ← toBigEndian_one_mod]
      exact amqpEncodeNumber_lockstep h (by decide) (by decide) (by decide)
    · exact amqpEncodeNumber_lockstep h (by decide) (by decide) (by decide)
  | uuid v => exact thenWrite_lockstep h (by decide)
  | binary v =>
    simp only [encode, draft, encoding, amqpEncodeBinary]
    split <;> exact amqpEncodeBytes_lockstep h (by decide) (by decide)
  | string v =>
    simp only [encode, draft, encoding, amqpEncodeString]
    split <;> exact amqpEncodeBytes_lockstep h (by decide) (by decide)
  | symbol v =>
    simp only [encode, draft, encoding, amqpEncodeSymbol]
    split <;> exact amqpEncodeBytes_lockstep h (by decide) (by decide)

theorem Leaf.encode_lockstep {b : Buffer} (h : Drafted c live ids d) (l : Leaf) :
    Lockstep (FollowsLeaf ids) (l.encode c b) (l.draft d b) := by
  cases l with
  | scalar v => exact v.encode_lockstep h
  | uint0 | ulong0 => exact amqpEncodeEmpty_lockstep h (by decide) (by decide) (by decide)
  | smallUint v | smallInt v | smallUlong v | smallLong v =>
    simp only [Leaf.encode, Leaf.draft, Leaf.encoding, amqpEncodeSmallUint, amqpEncodeSmallInt,
      amqpEncodeSmallUlong, amqpEncodeSmallLong]
    rw [← toBigEndian_one_mod]
    exact amqpEncodeNumber_lockstep h (by decide) (by decide) (by decide)
  | binaryVbin8 v | binaryVbin32 v | symbolSym8 v | symbolSym32 v =>
    exact amqpEncodeBytes_lockstep h (by decide) (by decide)

theorem Former.start_lockstep {b : Buffer} (h : Drafted c live ids d) (k : Former) :
    Lockstep (Follows ids) (k.start c b) (d.compound b k.metaData.typedefFlags k.metaData) := by
  cases k <;> exact encodeCompoundType_lockstep h (by decide) (by decide)

/-- The results of calls on a context and on its draft. -/
structure FollowsAll (ids : List Slot) (x : List (Option Slot) × Context × Buffer)
    (y : List (Option Nat) × Draft × Buffer) : Prop where
  drafted : ∃ live made, Drafted x.2.1 live (ids ++ made) y.2.1 ∧
    x.1 = y.1.map (·.bind ((ids ++ made)[·]?)) ∧ ∀ i, some i ∈ y.1 → i < (ids ++ made).length
  buffer : x.2.2 = y.2.2

/-- A type that was made before others. -/
theorem bind_append {made : List Slot} {q : Option Nat} (hq : ∀ i, q = some i → i < ids.length) :
    q.bind ((ids ++ made)[·]?) = q.bind (ids[·]?) := by
  cases q with
  | none => rfl
  | some i => exact List.getElem?_append_left (hq i rfl)

/-- Calls, on a context and on its draft. -/
theorem CallTree.encode_lockstep (cs : CallTree) : ∀ {c : Context} {live : Finset Slot} {ids : List Slot}
    {d : Draft} {b : Buffer}, Drafted c live ids d →
    Lockstep (FollowsAll ids) (cs.encode c b) (cs.draft d b) := by
  induction cs with
  | nil =>
    intro c live ids d b h
    exact ⟨⟨live, [], by simpa using h, rfl, fun i hi => (List.not_mem_nil hi).elim⟩, rfl⟩
  | leaf l rest ih =>
    intro c live ids d b h
    refine (l.encode_lockstep h).bind ?_
    rintro ⟨p, c1, b1⟩ ⟨q, d1, b2⟩ hf
    obtain rfl := hf.buffer
    obtain ⟨live1, made, h1, hpq, hq⟩ := hf.drafted
    refine (ih h1).bind ?_
    rintro ⟨ps, c2, b2⟩ ⟨qs, d2, b3⟩ hf2
    obtain rfl := hf2.buffer
    obtain ⟨live2, made', h2, hpqs, hqs⟩ := hf2.drafted
    refine ⟨⟨live2, made ++ made', by rwa [← List.append_assoc], ?_, ?_⟩, rfl⟩
    · rw [List.map_cons, ← List.append_assoc, bind_append hq]
      exact congrArg₂ List.cons hpq hpqs
    · intro i hi
      rw [← List.append_assoc]
      rcases List.mem_cons.1 hi with hi | hi
      · have hlt : i < (ids ++ made).length := hq i hi.symm
        rw [List.length_append]
        exact Nat.lt_add_right _ hlt
      · exact hqs i hi
  | container k elements rest ihe ihr =>
    intro c live ids d b h
    refine (k.start_lockstep h).bind ?_
    rintro ⟨p, c1, b1⟩ ⟨q, d1, b2⟩ hf
    obtain rfl := hf.buffer
    obtain ⟨live1, made1, h1, hpq, hq⟩ := hf.drafted
    refine (ihe h1).bind ?_
    rintro ⟨ps, c2, b2⟩ ⟨qs, d2, b3⟩ hf2
    obtain rfl := hf2.buffer
    obtain ⟨live2, made2, h2, hpqs, hqs⟩ := hf2.drafted
    have hq2 : ∀ i, q = some i → i < (ids ++ made1 ++ made2).length := by
      intro i hi
      rw [List.length_append]
      exact Nat.lt_add_right _ (hq i hi)
    have hpq2 : p = q.bind ((ids ++ made1 ++ made2)[·]?) := hpq.trans (bind_append hq).symm
    refine (amqpCompleteType_lockstep h2 hpq2 hq2).bind ?_
    rintro ⟨p3, c3, b3⟩ ⟨q3, d3, b4⟩ hf3
    obtain rfl := hf3.buffer
    obtain ⟨live3, made3, h3, -⟩ := hf3.drafted
    refine (ihr h3).bind ?_
    rintro ⟨ps4, c4, b4⟩ ⟨qs4, d4, b5⟩ hf4
    obtain rfl := hf4.buffer
    obtain ⟨live4, made4, h4, hpqs4, hqs4⟩ := hf4.drafted
    have hids : ids ++ (made1 ++ made2 ++ made3 ++ made4) =
        ids ++ made1 ++ made2 ++ made3 ++ made4 := by
      simp only [List.append_assoc]
    refine ⟨⟨live4, made1 ++ made2 ++ made3 ++ made4, hids ▸ h4, ?_, ?_⟩, rfl⟩
    · rw [hids, List.map_cons, List.map_append]
      refine congrArg₂ List.cons ?_ (congrArg₂ (· ++ ·) ?_ hpqs4)
      · rw [List.append_assoc _ made3, bind_append hq2]
        exact hpq2
      · refine hpqs.trans (List.map_congr_left fun q' hq' => ?_)
        rw [List.append_assoc _ made3, bind_append fun i hi => hqs i (hi ▸ hq')]
    · intro i hi
      rw [hids]
      rcases List.mem_cons.1 hi with hi | hi
      · have := hq2 i hi.symm
        simp only [List.length_append] at this ⊢
        omega
      · rcases List.mem_append.1 hi with hi | hi
        · have := hqs i hi
          simp only [List.length_append] at this ⊢
          omega
        · exact hqs4 i hi

end
end Amqp
