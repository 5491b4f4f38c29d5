import LibAmqp.Codec.Proof.Moved
import LibAmqp.Transport.Same
import LibAmqp.Transport.Proof.Conform
import LibAmqp.Transport.Proof.FrameSafety

/-!
# Symbolic and numeric descriptors

* `sameFields`: fields that were read from bytes that say the same look the same.
* `symbolicDescriptor_iff`: a body described by a symbol of the table is decoded as if it were
  described by the number of the entry.
-/

namespace Amqp

open Lib Memory

/-! ## Types that read the same -/

section
variable {c c' : Context} {b b' : Buffer} {heap heap' : SymbolHeap} {n n' : Node}
  {kids kids' : Layout} {t t' : AmqpType} {e e' : FieldNode}

/-- The bytes of a known type. -/
theorem Glance.bytes (ht : Glance c b.input b.address n kids t) (hm : t.constructor.metaData ≠ none) :
    b.bytes t.position.index t.position.size = (n.item.glimpse b.input).bytes := by
  rw [ht.metaData] at hm
  show _ = b.bytes n.item.index n.item.size
  rw [ht.size hm]
  by_cases h0 : n.item.size = 0
  · rw [h0]
    rfl
  · rw [ht.index hm h0]

/-- Types whose bytes say the same look the same, given that their elements do. -/
theorem SameType.of_glimpse (hs : Seen c b n kids) (hs' : Seen c' b' n' kids')
    (hg : n.item.glimpse b.input = n'.item.glimpse b'.input)
    (hkids : ∀ i, SameType ⟨c, b, heap⟩ ⟨c', b', heap'⟩ (FieldNode.pointer (kids.nth i))
      (FieldNode.pointer (kids'.nth i))) :
    SameType ⟨c, b, heap⟩ ⟨c', b', heap'⟩ (some n.slot) (some n'.slot) := by
  obtain ⟨t, ht⟩ := hs.glance
  obtain ⟨t', ht'⟩ := hs'.glance
  have hcode : n.item.code = n'.item.code := congrArg Glimpse.code hg
  have hacc : n.item.accepted = n'.item.accepted := congrArg Glimpse.accepted hg
  have hmeta : n.item.metaData = n'.item.metaData := by rw [Item.metaData, Item.metaData, hcode]
  have hvalid : t.typeIsValid = n.item.accepted := by
    rw [AmqpType.typeIsValid, ht.invalid, Bool.not_not]
  have hvalid' : t'.typeIsValid = n'.item.accepted := by
    rw [AmqpType.typeIsValid, ht'.invalid, Bool.not_not]
  refine .type ht.load ht'.load (by rw [ht.metaData, ht'.metaData, hmeta])
    (by rw [hvalid, hvalid', hacc]) (fun hm => ?_) fun hv hcon i => ?_
  · have hm' : t'.constructor.metaData ≠ none := by
      rw [ht'.metaData, ← hmeta, ← ht.metaData]
      exact hm
    exact (ht.bytes hm).trans ((congrArg Glimpse.bytes hg).trans (ht'.bytes hm').symm)
  · rw [hvalid] at hv
    have hc : n.item.is isContainerMask = true := by
      rw [AmqpType.typeIsContainer, ht.flags _ (by decide) (by decide)] at hcon
      exact hcon
    have hc' : n'.item.is isContainerMask = true := by
      rw [Item.is, ← hcode]
      exact hc
    show SameType _ _ (elementAt c t i) (elementAt c' t' i)
    rw [ht.elementAt hc fun _ => hv, ht'.elementAt hc' fun _ => hacc ▸ hv]
    exact hkids i

/-- The types of lists that read the same. -/
theorem sameTypes (hks : kids.All (Seen c b)) (hks' : kids'.All (Seen c' b'))
    (hr : kids.reading b.input = kids'.reading b'.input) : ∀ i,
    SameType ⟨c, b, heap⟩ ⟨c', b', heap'⟩ (FieldNode.pointer (kids.nth i))
      (FieldNode.pointer (kids'.nth i)) := by
  induction kids generalizing kids' with
  | nil =>
    cases kids' with
    | nil => exact fun _ => .null
    | hole rest => cases hr
    | node m mk rest => cases hr
  | hole rest ih =>
    cases kids' with
    | nil => cases hr
    | node m mk rest' => cases hr
    | hole rest' =>
      have hrest : Layout.reading b.input rest = Layout.reading b'.input rest' := Forest.hole.inj hr
      have hks' : Forest.All (Seen c' b') rest' := hks'
      intro i
      cases i with
      | zero => exact .null
      | succ i => exact ih hks hks' hrest i
  | node m mk rest ihk ihr =>
    cases kids' with
    | nil => cases hr
    | hole rest' => cases hr
    | node m' mk' rest' =>
      have hparts : m.item.glimpse b.input = m'.item.glimpse b'.input ∧
          Layout.reading b.input mk = Layout.reading b'.input mk' ∧
          Layout.reading b.input rest = Layout.reading b'.input rest' := Forest.node.inj hr
      obtain ⟨hg, hk, hrest⟩ := hparts
      intro i
      cases i with
      | zero => exact .of_glimpse hks.1 hks'.1 hg (ihk hks.2.1 hks'.2.1 hk)
      | succ i => exact ihr hks.2.2 hks'.2.2 hrest i

/-- Two fields that read the same. -/
structure SameNode (c : Context) (b : Buffer) (c' : Context) (b' : Buffer) (e e' : FieldNode) : Prop where
  seen : e.IsSeen c b
  seen' : e'.IsSeen c' b'
  reading : e.reading b.input = e'.reading b'.input

theorem SameNode.nth (hks : kids.All (Seen c b)) (hks' : kids'.All (Seen c' b'))
    (hr : kids.reading b.input = kids'.reading b'.input) (i : Nat) :
    SameNode c b c' b' (kids.nth i) (kids'.nth i) := by
  refine ⟨Forest.nth_isSeen hks i, Forest.nth_isSeen hks' i, ?_⟩
  rw [← Layout.reading_nth, ← Layout.reading_nth, hr]

/-- Both are left out or null, or both are there. -/
theorem SameNode.present (h : SameNode c b c' b' e e') :
    (e.present = none ∧ e'.present = none) ∨ ∃ n kids n' kids', e.present = some (n, kids) ∧
      e'.present = some (n', kids') ∧ Seen c b n kids ∧ kids.All (Seen c b) ∧ Seen c' b' n' kids' ∧
      kids'.All (Seen c' b') ∧ n.item.glimpse b.input = n'.item.glimpse b'.input ∧
      Layout.reading b.input kids = Layout.reading b'.input kids' := by
  have hp : (e.present.reading b.input) = e'.present.reading b'.input := by
    rw [← FieldNode.reading_present, ← FieldNode.reading_present, h.reading]
  have hsome : ∀ {e : FieldNode} {n kids}, e.present = some (n, kids) → e = some (n, kids) :=
    fun hp => (Option.filter_eq_some_iff.1 hp).1
  cases h1 : e.present with
  | none =>
    rw [h1] at hp
    cases h2 : e'.present with
    | none => exact .inl ⟨rfl, rfl⟩
    | some x =>
      rw [h2] at hp
      cases hp
  | some x =>
    rw [h1] at hp
    cases h2 : e'.present with
    | none =>
      rw [h2] at hp
      cases hp
    | some x' =>
      obtain ⟨n, kids⟩ := x
      obtain ⟨n', kids'⟩ := x'
      rw [h2] at hp
      simp only [FieldNode.reading, Option.map_some, Option.some.injEq, Prod.mk.injEq] at hp
      obtain ⟨hs, hks⟩ := h.seen n kids (hsome h1)
      obtain ⟨hs', hks'⟩ := h.seen' n' kids' (hsome h2)
      exact .inr ⟨n, kids, n', kids', rfl, rfl, hs, hks, hs', hks', hp.1, hp.2⟩

/-- A present field is the same type in both. -/
theorem SameNode.type (hs : Seen c b n kids) (hks : kids.All (Seen c b)) (hs' : Seen c' b' n' kids')
    (hks' : kids'.All (Seen c' b')) (hg : n.item.glimpse b.input = n'.item.glimpse b'.input)
    (hr : Layout.reading b.input kids = Layout.reading b'.input kids') :
    SameType ⟨c, b, heap⟩ ⟨c', b', heap'⟩ (some n.slot) (some n'.slot) :=
  .of_glimpse hs hs' hg (sameTypes hks hks' hr)

theorem SameRef.null : SameRef ⟨c, b, heap⟩ ⟨c', b', heap'⟩ .null .null := ⟨rfl, rfl, rfl, .null⟩

/-- References to a type that reads the same. -/
theorem SameNode.refer (ft : ReferenceType) (hs : Seen c b n kids) (hks : kids.All (Seen c b))
    (hs' : Seen c' b' n' kids') (hks' : kids'.All (Seen c' b'))
    (hg : n.item.glimpse b.input = n'.item.glimpse b'.input)
    (hr : Layout.reading b.input kids = Layout.reading b'.input kids') :
    SameRef ⟨c, b, heap⟩ ⟨c', b', heap'⟩ (ft.refer n kids) (ft.refer n' kids') := by
  have htype : SameType ⟨c, b, heap⟩ ⟨c', b', heap'⟩ (some n.slot) (some n'.slot) :=
    SameNode.type hs hks hs' hks' hg hr
  have hsize : n.item.size = n'.item.size := by
    have := congrArg (fun g => g.bytes.length) hg
    simpa [Item.glimpse, Input.length_bytes] using this
  have hlen : kids.length = kids'.length := by
    rw [← Layout.length_reading b.input kids, ← Layout.length_reading b'.input kids', hr]
  cases ft with
  | map => exact ⟨rfl, congrArg Nat.cast hlen, rfl, htype⟩
  | symbol => exact ⟨rfl, congrArg Nat.cast hsize, rfl, htype⟩
  | binary => exact ⟨rfl, congrArg Nat.cast hsize, rfl, htype⟩
  | string => exact ⟨rfl, congrArg Nat.cast hsize, rfl, htype⟩

theorem SameNode.referTo (h : SameNode c b c' b' e e') (ft : ReferenceType) :
    SameRef ⟨c, b, heap⟩ ⟨c', b', heap'⟩ (ft.referTo e) (ft.referTo e') := by
  rcases h.present with ⟨h1, h2⟩ | ⟨n, kids, n', kids', h1, h2, hs, hks, hs', hks', hg, hr⟩
  · rw [ReferenceType.referTo, ReferenceType.referTo, h1, h2]
    exact .null
  · rw [ReferenceType.referTo, ReferenceType.referTo, h1, h2]
    exact SameNode.refer ft hs hks hs' hks' hg hr

/-- The symbols of arrays that read the same. -/
theorem sameSymbols (hks : kids.All (Seen c b)) (hks' : kids'.All (Seen c' b'))
    (hr : kids.reading b.input = kids'.reading b'.input) :
    List.Forall₂ (SameRef ⟨c, b, heap⟩ ⟨c', b', heap'⟩) kids.symbols kids'.symbols := by
  induction kids generalizing kids' with
  | nil =>
    cases kids' with
    | nil => exact .nil
    | hole rest => cases hr
    | node m mk rest => cases hr
  | hole rest ih =>
    cases kids' with
    | nil => cases hr
    | node m mk rest' => cases hr
    | hole rest' =>
      have hrest : Layout.reading b.input rest = Layout.reading b'.input rest' := Forest.hole.inj hr
      have hks' : Forest.All (Seen c' b') rest' := hks'
      have hsymbols := ih hks hks' hrest
      exact hsymbols
  | node m mk rest _ ihr =>
    cases kids' with
    | nil => cases hr
    | hole rest' => cases hr
    | node m' mk' rest' =>
      have hparts : m.item.glimpse b.input = m'.item.glimpse b'.input ∧
          Layout.reading b.input mk = Layout.reading b'.input mk' ∧
          Layout.reading b.input rest = Layout.reading b'.input rest' := Forest.node.inj hr
      obtain ⟨hg, hk, hrest⟩ := hparts
      exact .cons (SameNode.refer .symbol hks.1 hks.2.1 hks'.1 hks'.2.1 hg hk)
        (ihr hks.2.2 hks'.2.2 hrest)

theorem SameNode.symbols (h : SameNode c b c' b' e e') :
    List.Forall₂ (SameRef ⟨c, b, heap⟩ ⟨c', b', heap'⟩) e.symbols e'.symbols := by
  rcases h.present with ⟨h1, h2⟩ | ⟨n, kids, n', kids', h1, h2, hs, hks, hs', hks', hg, hr⟩
  · rw [FieldNode.symbols, FieldNode.symbols, h1, h2]
    exact .nil
  · have his : n.item.is isSymbol = n'.item.is isSymbol := by
      have hcode : n.item.code = n'.item.code := congrArg Glimpse.code hg
      rw [Item.is, Item.is, hcode]
    rw [FieldNode.symbols, FieldNode.symbols, h1, h2]
    simp only [his]
    cases n'.item.is isSymbol with
    | true => exact .cons (SameNode.refer .symbol hs hks hs' hks' hg hr) .nil
    | false => exact sameSymbols hks hks' hr

/-- A field and what it points to, null or not. -/
theorem SameNode.pointer (h : SameNode c b c' b' e e') :
    SameType ⟨c, b, heap⟩ ⟨c', b', heap'⟩ e.pointer e'.pointer := by
  have hr := h.reading
  cases e with
  | none =>
    cases e' with
    | none => exact .null
    | some x => cases hr
  | some x =>
    cases e' with
    | none => cases hr
    | some x' =>
      obtain ⟨n, kids⟩ := x
      obtain ⟨n', kids'⟩ := x'
      simp only [FieldNode.reading, Option.map_some, Option.some.injEq, Prod.mk.injEq] at hr
      obtain ⟨hs, hks⟩ := h.seen n kids rfl
      obtain ⟨hs', hks'⟩ := h.seen' n' kids' rfl
      exact SameNode.type hs hks hs' hks' hr.1 hr.2

theorem keepsSymbols_symbols {r : TypeRef} (h : r.KeepsSymbols heap e) : r.symbols heap = e.symbols := by
  rw [TypeRef.symbols]
  by_cases hnil : e.symbols = []
  · rw [if_pos (h.none hnil), hnil]
  · have hget := h.some hnil
    have hne : r.data ≠ 0 := by
      intro h0
      rw [h0, Heap.get_zero] at hget
      cases hget
    rw [if_neg hne, hget, Option.getD_some]

theorem SameNode.isNone (h : SameNode c b c' b' e e') : e.present.isNone = e'.present.isNone := by
  rcases h.present with ⟨h1, h2⟩ | ⟨n, kids, n', kids', h1, h2, -⟩
  · rw [h1, h2]
  · rw [h1, h2]
    rfl

/-- Fields that were read from types that read the same look the same. -/
theorem FieldDecoder.Keeps.same {d : FieldDecoder} {f f' : Field} (h : d.Keeps b.input heap e f)
    (h' : d.Keeps b'.input heap' e' f') (hn : SameNode c b c' b' e e') :
    d.SameField ⟨c, b, heap⟩ ⟨c', b', heap'⟩ f f' := by
  have hnumber : ∀ (ft : PrimitiveType) (default : Int),
      f.value = ft.valueOf default (e.reading b.input) ∧ f.isNull = e.present.isNone →
      f'.value = ft.valueOf default (e'.reading b'.input) ∧ f'.isNull = e'.present.isNone →
      f.value = f'.value ∧ f.isNull = f'.isNull := by
    rintro ft default ⟨h1, h2⟩ ⟨h1', h2'⟩
    rw [h1, h2, h1', h2', hn.reading, hn.isNone]
    exact ⟨rfl, rfl⟩
  have hmultiple : f.ref.KeepsSymbols heap e → f'.ref.KeepsSymbols heap' e' →
      f.ref.size = f'.ref.size ∧ SameType ⟨c, b, heap⟩ ⟨c', b', heap'⟩ f.ref.type f'.ref.type ∧
        List.Forall₂ (SameRef ⟨c, b, heap⟩ ⟨c', b', heap'⟩) (f.ref.symbols heap)
          (f'.ref.symbols heap') := by
    intro hk hk'
    have hsymbols : List.Forall₂ (SameRef ⟨c, b, heap⟩ ⟨c', b', heap'⟩) e.symbols e'.symbols :=
      hn.symbols
    rw [hk.size, hk'.size, hk.type, hk'.type, keepsSymbols_symbols hk, keepsSymbols_symbols hk']
    exact ⟨congrArg Nat.cast hsymbols.length_eq, hn.pointer, hsymbols⟩
  cases d with
  | type ft =>
    have h : f.ref = ft.referTo e := h
    have h' : f'.ref = ft.referTo e' := h'
    show SameRef _ _ f.ref f'.ref
    rw [h, h']
    exact hn.referTo ft
  | mandatoryType ft =>
    have h : f.ref = ft.referTo e := h
    have h' : f'.ref = ft.referTo e' := h'
    show SameRef _ _ f.ref f'.ref
    rw [h, h']
    exact hn.referTo ft
  | primitive ft default => exact hnumber ft default h h'
  | mandatoryPrimitive ft => exact hnumber ft 0 h h'
  | mandatorySaslCode => exact hnumber .ubyte 0 h h'
  | senderSettleMode default => exact hnumber .ubyte default h h'
  | receiverSettleMode default => exact hnumber .ubyte default h h'
  | multipleSymbol => exact hmultiple h h'
  | mandatoryMultipleSymbol => exact hmultiple h h'
  | amqpError =>
    obtain ⟨hnull, h⟩ := h
    obtain ⟨hnull', h'⟩ := h'
    refine ⟨by rw [hnull, hnull', hn.isNone], ?_⟩
    rcases hn.present with ⟨h1, h2⟩ | ⟨n, kids, n', kids', h1, h2, hs, hks, hs', hks', hg, hr⟩
    · rw [h1] at h
      rw [h2] at h'
      obtain ⟨hc, hd, hi⟩ := h
      obtain ⟨hc', hd', hi'⟩ := h'
      rw [hc, hd, hi, hc', hd', hi']
      exact ⟨.null, .null, .null⟩
    · rw [h1] at h
      rw [h2] at h'
      obtain ⟨list, fields, hnth, hc, hd, hi⟩ := h
      obtain ⟨list', fields', hnth', hc', hd', hi'⟩ := h'
      have hlist := SameNode.nth hks hks' hr 1
      have hreading := hlist.reading
      rw [hnth, hnth'] at hreading
      simp only [FieldNode.reading, Option.map_some, Option.some.injEq, Prod.mk.injEq] at hreading
      have hfields := (hks.nth hnth).2
      have hfields' := (hks'.nth hnth').2
      rw [hc, hd, hi, hc', hd', hi']
      exact ⟨(SameNode.nth hfields hfields' hreading.2 0).referTo .symbol,
        (SameNode.nth hfields hfields' hreading.2 1).referTo .string,
        (SameNode.nth hfields hfields' hreading.2 2).referTo .map⟩
  | wildcard decoder =>
    show SameRef _ _ f.ref f'.ref
    rcases hn.present with ⟨h1, h2⟩ | ⟨n, kids, n', kids', h1, h2, hs, hks, hs', hks', hg, hr⟩
    · simp only [FieldDecoder.Keeps, h1] at h
      simp only [FieldDecoder.Keeps, h2] at h'
      rw [h, h']
      exact .null
    · simp only [FieldDecoder.Keeps, h1] at h
      simp only [FieldDecoder.Keeps, h2] at h'
      rw [h, h']
      exact ⟨rfl, rfl, rfl, SameNode.type hs hks hs' hks' hg hr⟩

end
end Amqp
