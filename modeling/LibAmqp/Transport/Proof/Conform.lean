import LibAmqp.Transport.Conform
import LibAmqp.Transport.Proof.Field

/-!
# Field decoders and schemas

* `FieldDecoder.verdict_iff`: on a field whose type is valid, a field decoder accepts what the schema
  asks for and never stops.
* `FieldDecoder.Keeps.holds`: what it leaves in the field is what the schema says.
* `decodeFields_conforms`: so do the decoders of a performative, on every list of valid elements in
  a decoded type.
-/

namespace Amqp

open Lib Memory

section
variable {c : Context} {b : Buffer} {n : Node} {kids : Layout} {t : AmqpType} {e : FieldNode}
  {f : Field} {heap : SymbolHeap}

/-! ## What is in memory -/

/-- A field in memory and in the layout. -/
theorem FieldNode.IsSeen.present (he : e.IsSeen c b) :
    (e.present = none ∧ presentType c e.pointer = none) ∨
    ∃ n kids t, e = some (n, kids) ∧ e.present = some (n, kids) ∧
      presentType c e.pointer = some (n.slot, t) ∧ Seen c b n kids ∧ kids.All (Seen c b) ∧
      Glance c b.input b.address n kids t := by
  cases e with
  | none => exact .inl ⟨rfl, rfl⟩
  | some x =>
    obtain ⟨n, kids⟩ := x
    obtain ⟨hs, hks⟩ := he n kids rfl
    obtain ⟨t, ht⟩ := hs.glance
    have hp : presentType c (FieldNode.pointer (some (n, kids))) =
        if n.item.is isNull then none else some (n.slot, t) := by
      simp only [presentType, FieldNode.pointer, Option.map_some, Option.bind_some, ht.load,
        ht.flags isNull (by decide) (by decide)]
    cases hnull : n.item.is isNull with
    | true => exact .inl ⟨by simp [FieldNode.present, hnull], by rw [hp, hnull, if_pos rfl]⟩
    | false =>
      exact .inr ⟨n, kids, t, rfl, by simp [FieldNode.present, hnull],
        by rw [hp, hnull, if_neg (by decide)], hs, hks, ht⟩

/-- The elements of a container that is no rejected array. -/
theorem Glance.elementAt (ht : Glance c b.input b.address n kids t)
    (hc : n.item.is isContainerMask = true) (harr : n.item.is isArray = true → n.item.accepted = true)
    (i : Nat) : elementAt c t i = FieldNode.pointer (kids.nth i) := by
  rw [Amqp.elementAt, ht.count hc harr]
  by_cases hi : i < kids.length
  · rw [if_pos hi]
    have hget := ht.elements hc i _ (Layout.pointers_nth hi)
    simp only [Context.getElement] at hget
    cases hl : c.arrays.get t.value.elements with
    | none =>
      rw [hl] at hget
      cases hget
    | some l =>
      simp only [hl] at hget
      cases hx : l[i]? with
      | none =>
        rw [hx] at hget
        cases hget
      | some x =>
        rw [hx, Except.ok.injEq] at hget
        rw [Option.bind_some, hx, Option.join_some, hget]
  · rw [if_neg hi, Forest.nth_of_length_le _ _ (Nat.le_of_not_lt hi)]
    rfl

theorem Item.list_not_array {item : Item} (h : item.is isList = true) : item.is isArray = false := by
  obtain ⟨m, hm⟩ := Option.ne_none_iff_exists'.1 (Item.known_of_is h)
  rw [Item.is_of_decoder hm] at h ⊢
  revert h
  cases m.typeDecoder <;> decide

theorem Item.composite_not_array {item : Item} (h : item.is isComposite = true) :
    item.is isArray = false := by
  obtain ⟨m, hm⟩ := Option.ne_none_iff_exists'.1 (Item.known_of_is h)
  rw [Item.is_of_decoder hm] at h ⊢
  revert h
  cases m.typeDecoder <;> decide

theorem Glance.elementAt_list (ht : Glance c b.input b.address n kids t)
    (hl : n.item.is isList = true) (i : Nat) :
    Amqp.elementAt c t i = FieldNode.pointer (kids.nth i) := by
  apply ht.elementAt (Item.is_container hl (by decide))
  intro harr
  rw [Item.list_not_array hl] at harr
  cases harr

/-! ## Optional and mandatory fields -/

/-- A check of what the bytes of a field say, and one of its type. -/
def Agree (c : Context) (b : Buffer) (e : FieldNode) (q : Glimpse → Reading → Verdict)
    (p : AmqpType → Prop) : Prop :=
  ∀ n kids t, e = some (n, kids) → Seen c b n kids → kids.All (Seen c b) →
    Glance c b.input b.address n kids t →
    (q (n.item.glimpse b.input) (Layout.reading b.input kids) = .accepted ↔ p t) ∧
      q (n.item.glimpse b.input) (Layout.reading b.input kids) ≠ .stops

theorem optional_iff (he : e.IsSeen c b) {q : Glimpse → Reading → Verdict} {p : AmqpType → Prop}
    (h : Agree c b e q p) :
    ((e.reading b.input).optional q = .accepted ↔ OptionalField c e.pointer p) ∧
      (e.reading b.input).optional q ≠ .stops := by
  rcases he.present with ⟨hp, hnone⟩ | ⟨n, kids, t, rfl, hp, hsome, hs, hks, ht⟩
  · rw [FieldNode.optional_none hp, OptionalField, hnone]
    simp
  · obtain ⟨hiff, hstop⟩ := h n kids t rfl hs hks ht
    rw [FieldNode.optional_some hp, OptionalField, hsome, hiff]
    refine ⟨⟨fun h s u hu => ?_, fun h => h n.slot t rfl⟩, hstop⟩
    cases hu
    exact h

theorem mandatory_iff (he : e.IsSeen c b) {q : Glimpse → Reading → Verdict} {p : AmqpType → Prop}
    (h : Agree c b e q p) :
    ((e.reading b.input).mandatory q = .accepted ↔ MandatoryField c e.pointer p) ∧
      (e.reading b.input).mandatory q ≠ .stops := by
  rcases he.present with ⟨hp, hnone⟩ | ⟨n, kids, t, rfl, hp, hsome, hs, hks, ht⟩
  · rw [FieldNode.mandatory_none hp, MandatoryField, hnone]
    simp
  · obtain ⟨hiff, hstop⟩ := h n kids t rfl hs hks ht
    rw [FieldNode.mandatory_some hp, MandatoryField, hsome, hiff]
    refine ⟨⟨fun h => ⟨n.slot, t, rfl, h⟩, ?_⟩, hstop⟩
    rintro ⟨s, u, hu, h⟩
    cases hu
    exact h

theorem ofBool_eq_accepted {p : Bool} : Verdict.ofBool p = .accepted ↔ p = true := by
  cases p <;> decide

theorem ofBool_ne_stops {p : Bool} : Verdict.ofBool p ≠ .stops := by
  cases p <;> decide

theorem andThen_eq_accepted {v w : Verdict} : v.andThen w = .accepted ↔ v = .accepted ∧ w = .accepted := by
  cases v <;> simp [Verdict.andThen]

theorem andThen_ne_stops {v w : Verdict} (hv : v ≠ .stops) (hw : w ≠ .stops) : v.andThen w ≠ .stops := by
  cases v with
  | stops => exact absurd rfl hv
  | refused => exact fun h => nomatch h
  | accepted => exact hw

/-- A test of a type's flag. -/
theorem agree_flag (mask : TypedefFlags) (h1 : mask &&& roleMask = 0#32) (h2 : isInvalid &&& mask = 0#32) :
    Agree c b e (fun g _ => .ofBool (g.is mask)) (fun t => t.typedefFlagsTest mask = true) := by
  intro n kids t _ _ _ ht
  refine ⟨?_, ofBool_ne_stops⟩
  show _ ↔ t.typedefFlagsTest mask = true
  rw [ofBool_eq_accepted, ht.flags mask h1 h2]
  rfl

theorem agree_reference (ft : ReferenceType) :
    Agree c b e (fun g _ => .ofBool (g.is ft.mask)) (fun t => t.typedefFlagsTest ft.mask = true) :=
  agree_flag ft.mask (by cases ft <;> decide) (by cases ft <;> decide)

/-- A test for a primitive type. -/
theorem agree_primitive (ft : PrimitiveType) :
    Agree c b e (fun g _ => .ofBool (ft.fits g)) (fun t => ft.test t = true) := by
  intro n kids t _ _ _ ht
  refine ⟨?_, ofBool_ne_stops⟩
  show _ ↔ ft.test t = true
  rw [ofBool_eq_accepted, PrimitiveType.test_eq ht]

/-! ## Numbers -/

/-- The number in a field, by its type and by its bytes. -/
theorem numberOf_eq (he : e.IsSeen c b) (ft : PrimitiveType) (default : Int)
    (h : OptionalField c e.pointer fun t => ft.test t = true) :
    numberOf c ft default e.pointer = ft.valueOf default (e.reading b.input) := by
  rcases he.present with ⟨hp, hnone⟩ | ⟨n, kids, t, rfl, hp, hsome, hs, hks, ht⟩
  · rw [numberOf, hnone, PrimitiveType.valueOf_none hp]
  · have hfits : ft.test t = true := h n.slot t hsome
    rw [PrimitiveType.test_eq ht, PrimitiveType.fits, Bool.and_eq_true] at hfits
    rw [numberOf, hsome, PrimitiveType.valueOf_some hp]
    show ft.read t.value = _
    rw [ht.number (Item.isNumber_of_fits ft hfits.1)]

theorem MandatoryField.optional {field : Option Slot} {p : AmqpType → Prop}
    (h : MandatoryField c field p) : OptionalField c field p := by
  obtain ⟨s, t, hsome, hp⟩ := h
  intro s' t' hsome'
  rw [hsome] at hsome'
  cases hsome'
  exact hp

/-- A range restricted code. -/
theorem range_iff (he : e.IsSeen c b) {limit default : Int} {v : Verdict} {p : Prop}
    (hv : (v = .accepted ↔ p) ∧ v ≠ .stops)
    (hp : p → OptionalField c e.pointer fun t => PrimitiveType.ubyte.test t = true) :
    (rangeVerdict limit default (e.reading b.input) v = .accepted ↔
      p ∧ numberOf c .ubyte default e.pointer ≤ limit) ∧
    rangeVerdict limit default (e.reading b.input) v ≠ .stops := by
  refine ⟨?_, andThen_ne_stops hv.2 ofBool_ne_stops⟩
  rw [rangeVerdict, andThen_eq_accepted, hv.1, ofBool_eq_accepted, decide_eq_true_eq]
  constructor
  · rintro ⟨h, hle⟩
    rw [numberOf_eq he .ubyte default (hp h)]
    exact ⟨h, hle⟩
  · rintro ⟨h, hle⟩
    rw [numberOf_eq he .ubyte default (hp h)] at hle
    exact ⟨h, hle⟩

/-! ## Symbols -/

/-- Valid symbols take a byte each. -/
theorem Tiles.length_le {i j : Nat} (h : Tiles i j kids.outline) (hfull : kids.Full)
    (hwide : ∀ m, some m ∈ kids.roots → m.item.start < m.item.stop) : i + kids.length ≤ j := by
  induction kids generalizing i with
  | nil => exact Nat.le_of_eq h
  | hole rest => exact absurd hfull id
  | node m ks rest _ ih =>
    obtain ⟨hstart, -, hrest⟩ := h
    have hm := hwide m (.head _)
    have := ih hrest hfull fun k hk => hwide k (.tail _ hk)
    simp only [Forest.length]
    omega

/-- The elements of an array are valid. -/
def ArrayValid (e : FieldNode) : Prop :=
  ∀ n kids, e = some (n, kids) → n.item.accepted = true ∧
    (n.item.is isArray = true → ∀ kid, some kid ∈ kids.roots → kid.item.accepted = true)

theorem Item.symbol_wide {item : Item} {ks : Forest Item} (h : item.is isSymbol = true)
    (hw : item.Wide ks) (hacc : item.accepted = true) : item.start < item.stop :=
  hw (Item.symbol_kind h) hacc

theorem Forest.All.roots {p : Node → Layout → Prop} (h : kids.All p) {m : Node}
    (hm : some m ∈ kids.roots) : ∃ ks, p m ks := by
  induction kids with
  | nil => cases hm
  | hole rest ih =>
    refine ih h ?_
    simpa [Forest.roots] using hm
  | node a ks rest _ ih =>
    rcases List.mem_cons.1 hm with heq | hm
    · cases heq
      exact ⟨ks, h.1⟩
    · exact ih h.2.2 hm

/-- The holder of an accepted array. -/
theorem Glance.arrayHolder (ht : Glance c b.input b.address n kids t) (harr : n.item.is isArray = true)
    (hacc : n.item.accepted = true) : ∃ h th, n.holder = some h ∧ t.value.constructor = some h.slot ∧
      c.types.load h.slot = some th ∧ (n.item.glimpse b.input).elementCode = some h.code ∧
      th.typedefFlagsTest isSymbol = (codeFlags h.code &&& isSymbol != 0#32) := by
  obtain ⟨hcon, m, hm, hcode⟩ := ht.holder harr
  obtain ⟨m', hm', hk⟩ := Item.array_of_is harr
  obtain rfl : m = m' := Option.some.inj (hm.symm.trans hm')
  have helement : n.item.elementCode b.input m =
      some (arrayConstructor b.input (n.item.index + m.width)).1 := by
    rw [Item.elementCode, hacc, Bool.true_or, if_pos rfl]
  rw [helement] at hcode
  obtain ⟨h, hh, hhc⟩ := Option.map_eq_some_iff.1 hcode
  obtain ⟨th, hload, hflags⟩ := ht.holderFlags h hh
  refine ⟨h, th, hh, by rw [hcon, hh]; rfl, hload, ?_, hflags isSymbol (by decide)⟩
  simp only [Item.glimpse, hm, Option.bind_some, hk, if_true, helement, hhc]

theorem agree_symbols (hvalid : ArrayValid e) (hsize : b.size < 2 ^ 31) :
    Agree c b e symbolsVerdict (IsSymbols c) := by
  intro n kids t hn hs hks ht
  obtain ⟨hacc, hkids⟩ := hvalid n kids hn
  have hgs : (n.item.glimpse b.input).is isSymbol = n.item.is isSymbol := rfl
  have hga : (n.item.glimpse b.input).is isArray = n.item.is isArray := rfl
  rw [symbolsVerdict, IsSymbols, ht.flags isSymbol (by decide) (by decide),
    ht.flags isArray (by decide) (by decide), hgs, hga]
  cases hsym : n.item.is isSymbol with
  | true => simp
  | false =>
    cases harr : n.item.is isArray with
    | false => simp
    | true =>
      obtain ⟨h, th, hh, hcon, hload, hcode, hflag⟩ := ht.arrayHolder harr hacc
      simp only [Bool.false_eq_true, if_false, if_true, hcode, false_or, true_and]
      have hholder : (∃ s k, t.value.constructor = some s ∧ c.types.load s = some k ∧
          k.typedefFlagsTest isSymbol = true) ↔ (codeFlags h.code &&& isSymbol != 0#32) = true := by
        rw [← hflag]
        constructor
        · rintro ⟨s, k, hs, hk, hsymbol⟩
          rw [hcon, Option.some.injEq] at hs
          subst hs
          rw [hload, Option.some.injEq] at hk
          rw [hk]
          exact hsymbol
        · exact fun hsymbol => ⟨h.slot, th, hcon, hload, hsymbol⟩
      rw [hholder]
      cases hcs : (codeFlags h.code &&& isSymbol != 0#32) with
      | false => simp
      | true =>
        obtain ⟨hfull, -, hsyms⟩ := hs.symbolArray ht harr hh hcs
        obtain ⟨k, hk, htiles⟩ := hs.covers.elements
        have hlen := htiles.length_le hfull fun m hm => by
          obtain ⟨ks, hseen⟩ := Forest.All.roots hks hm
          exact Item.symbol_wide (hsyms m hm) hseen.wide (hkids harr m hm)
        have hstop : n.item.stop ≤ b.size := hs.covers.stop_le
        have hshort : ¬ 2 ^ 31 ≤ (Layout.reading b.input kids).length := by
          rw [Layout.length_reading]
          omega
        rw [if_pos rfl, if_neg hshort]
        simp

/-- A mandatory multiple field is not empty. -/
theorem agree_nonEmpty (hvalid : ArrayValid e) (hsize : b.size < 2 ^ 31) :
    Agree c b e (fun g kids => (symbolsVerdict g kids).andThen (.ofBool (g.is isSymbol || kids.length != 0)))
      (fun t => IsSymbols c t ∧ (t.typedefFlagsTest isArray = true → t.value.count ≠ 0)) := by
  intro n kids t hn hs hks ht
  obtain ⟨hiff, hstop⟩ := agree_symbols (c := c) hvalid hsize n kids t hn hs hks ht
  refine ⟨?_, andThen_ne_stops hstop ofBool_ne_stops⟩
  show _ ↔ IsSymbols c t ∧ (t.typedefFlagsTest isArray = true → t.value.count ≠ 0)
  rw [andThen_eq_accepted, hiff, ofBool_eq_accepted]
  refine and_congr_right fun hsymbols => ?_
  have hgs : (n.item.glimpse b.input).is isSymbol = n.item.is isSymbol := rfl
  rw [ht.flags isArray (by decide) (by decide), hgs, Layout.length_reading]
  rw [IsSymbols, ht.flags isSymbol (by decide) (by decide), ht.flags isArray (by decide) (by decide)]
    at hsymbols
  cases hsym : n.item.is isSymbol with
  | true =>
    have hno : n.item.is isArray = false := by
      obtain ⟨m, hm⟩ := Option.ne_none_iff_exists'.1 (Item.known_of_is hsym)
      rw [Item.is_of_decoder hm] at hsym ⊢
      revert hsym
      cases m.typeDecoder <;> decide
    simp [hno]
  | false =>
    rw [hsym] at hsymbols
    have harr := (hsymbols.resolve_left (by decide)).1
    rw [harr, ht.count (Item.is_container harr (by decide)) fun _ => (hvalid n kids hn).1]
    simp

/-! ## Errors -/

theorem agree_error (hvalid : ∀ n kids, e = some (n, kids) → n.item.accepted = true) :
    Agree c b e errorVerdict (IsError c) := by
  intro n kids t hn hs hks ht
  have hgc : (n.item.glimpse b.input).is isComposite = n.item.is isComposite := rfl
  rw [errorVerdict, IsError, AmqpType.typeIsComposite, ht.flags isComposite (by decide) (by decide), hgc]
  cases hcomp : n.item.is isComposite with
  | false => simp
  | true =>
    obtain ⟨m, hm, hk⟩ := Item.composite_of_is hcomp
    have hboth := hs.regular.described (by rw [Item.kind, hm, Option.map_some, hk])
    rw [hvalid n kids hn, Layout.outline, Forest.nth_map, Forest.nth_map] at hboth
    have hboth := Bool.and_eq_true_iff.1 hboth.symm
    have helement : elementAt c t 1 = FieldNode.pointer (kids.nth 1) := by
      apply ht.elementAt (Item.is_container hcomp (by decide))
      intro harr
      rw [Item.composite_not_array hcomp] at harr
      cases harr
    rw [helement, Layout.reading_nth]
    cases h1 : kids.nth 1 with
    | none =>
      rw [h1] at hboth
      cases hboth.2
    | some v =>
      obtain ⟨l, fields⟩ := v
      obtain ⟨hls, hfields⟩ := hks.nth h1
      obtain ⟨tl, htl⟩ := hls.glance
      have hgl : (l.item.glimpse b.input).is isList = l.item.is isList := rfl
      have hsome : ∀ (p : AmqpType → Prop), (∃ s u, FieldNode.pointer (some (l, fields)) = some s ∧
          c.types.load s = some u ∧ p u) ↔ p tl := by
        intro p
        constructor
        · rintro ⟨s, u, hs, hu, hp⟩
          cases hs
          rw [htl.load, Option.some.injEq] at hu
          rw [hu]
          exact hp
        · exact fun hp => ⟨l.slot, tl, rfl, htl.load, hp⟩
      simp only [FieldNode.reading, Option.map_some, if_true, true_and, hgl]
      rw [hsome, AmqpType.typeIsList, htl.flags isList (by decide) (by decide)]
      cases hl : l.item.is isList with
      | false => simp
      | true =>
        have h0 := mandatory_iff (Forest.nth_isSeen hfields 0) (agree_reference .symbol)
        have h1 := optional_iff (Forest.nth_isSeen hfields 1) (agree_reference .string)
        have h2 := optional_iff (Forest.nth_isSeen hfields 2) (agree_reference .map)
        rw [htl.elementAt_list hl, htl.elementAt_list hl, htl.elementAt_list hl]
        simp only [ReferenceType.mask] at h0 h1 h2
        simp only [if_true, Layout.reading_nth, true_and, andThen_eq_accepted, h0.1, h1.1, h2.1, and_assoc]
        exact andThen_ne_stops (andThen_ne_stops h0.2 h1.2) h2.2

/-! ## All field decoders -/

/-- A field decoder accepts what the schema asks for, and does not stop. -/
theorem FieldDecoder.verdict_iff (d : FieldDecoder) (he : e.IsSeen c b) (hvalid : ArrayValid e)
    (hsize : b.size < 2 ^ 31) :
    (d.verdict (e.reading b.input) = .accepted ↔ d.Conforms c e.pointer) ∧
      d.verdict (e.reading b.input) ≠ .stops := by
  cases d with
  | type ft => exact optional_iff he (agree_reference ft)
  | mandatoryType ft => exact mandatory_iff he (agree_reference ft)
  | primitive ft default => exact optional_iff he (agree_primitive ft)
  | mandatoryPrimitive ft => exact mandatory_iff he (agree_primitive ft)
  | mandatorySaslCode =>
    exact range_iff he (mandatory_iff he (agree_primitive .ubyte)) fun h => h.optional
  | senderSettleMode default =>
    exact range_iff he (optional_iff he (agree_primitive .ubyte)) id
  | receiverSettleMode default =>
    exact range_iff he (optional_iff he (agree_primitive .ubyte)) id
  | multipleSymbol => exact optional_iff he (agree_symbols hvalid hsize)
  | mandatoryMultipleSymbol =>
    have h := mandatory_iff he (agree_nonEmpty hvalid hsize)
    have hsplit : ∀ (o : FieldReading) (p q : Glimpse → Reading → Verdict),
        (o.mandatory p).andThen (o.mandatory q) = o.mandatory fun g kids => (p g kids).andThen (q g kids) := by
      intro o p q
      simp only [FieldReading.mandatory]
      cases o.present with
      | none => rfl
      | some x => rfl
    rw [FieldDecoder.verdict, hsplit]
    exact h
  | amqpError => exact optional_iff he (agree_error fun n kids hn => (hvalid n kids hn).1)
  | wildcard decoder => simp [FieldDecoder.verdict, FieldDecoder.Conforms]

/-! ## What the fields are set to -/

theorem referenceOf_eq (he : e.IsSeen c b) (ft : ReferenceType)
    (h : OptionalField c e.pointer fun t => t.typedefFlagsTest ft.mask = true) :
    ft.referTo e = referenceOf c ft e.pointer := by
  rcases he.present with ⟨hp, hnone⟩ | ⟨n, kids, t, rfl, hp, hsome, -, -, ht⟩
  · rw [ReferenceType.referTo, hp, referenceOf, hnone]
  · have hflag : t.typedefFlagsTest ft.mask = true := h n.slot t hsome
    rw [ht.flags ft.mask (by cases ft <;> decide) (by cases ft <;> decide)] at hflag
    rw [ReferenceType.referTo, hp, referenceOf, hsome]
    exact (ht.refer ft hflag).symm

/-- The references to the symbols of an array, by their numbers. -/
theorem Layout.symbols_eq (hfull : kids.Full)
    (hsyms : ∀ kid, some kid ∈ kids.roots → kid.item.is isSymbol = true) :
    kids.symbols = (List.range kids.length).map fun i => ReferenceType.symbol.referTo (kids.nth i) := by
  induction kids with
  | nil => rfl
  | hole rest => exact absurd hfull id
  | node m ks rest _ ih =>
    have hrest := ih hfull fun k hk => hsyms k (.tail _ hk)
    have hnull : m.item.is isNull = false := by
      have hsym := hsyms m (.head _)
      obtain ⟨d, hd⟩ := Option.ne_none_iff_exists'.1 (Item.known_of_is hsym)
      rw [Item.is_of_decoder hd] at hsym ⊢
      revert hsym
      cases d.typeDecoder <;> decide
    rw [Layout.symbols, Forest.length, List.range_succ_eq_map, List.map_cons, List.map_map, hrest]
    have hpresent : FieldNode.present (some (m, ks)) = some (m, ks) := by
      simp [FieldNode.present, hnull]
    congr 1
    show _ = ReferenceType.symbol.referTo (some (m, ks))
    rw [ReferenceType.referTo, hpresent]

/-- The symbols of a multiple field that conforms. -/
theorem symbolsOf_eq (he : e.IsSeen c b) (hvalid : ArrayValid e)
    (h : OptionalField c e.pointer (IsSymbols c)) : e.symbols = symbolsOf c e.pointer := by
  rcases he.present with ⟨hp, hnone⟩ | ⟨n, kids, t, rfl, hp, hsome, hs, hks, ht⟩
  · rw [FieldNode.symbols, hp, symbolsOf, hnone]
  · have hsymbols := h n.slot t hsome
    obtain ⟨hacc, hkids⟩ := hvalid n kids rfl
    rw [FieldNode.symbols, hp, symbolsOf, hsome]
    rw [IsSymbols, ht.flags isSymbol (by decide) (by decide), ht.flags isArray (by decide) (by decide)]
      at hsymbols
    simp only [ht.flags isSymbol (by decide) (by decide)]
    cases hsym : n.item.is isSymbol with
    | true =>
      rw [if_pos rfl, if_pos rfl, ht.refer .symbol hsym]
    | false =>
      rw [hsym] at hsymbols
      obtain ⟨harr, s, k, hcon, hload, hsymbol⟩ := hsymbols.resolve_left (by decide)
      obtain ⟨d, th, hh, hcon', hload', -, hflag⟩ := ht.arrayHolder harr hacc
      rw [hcon, Option.some.injEq] at hcon'
      subst hcon'
      rw [hload, Option.some.injEq] at hload'
      subst hload'
      rw [hsymbol] at hflag
      obtain ⟨hfull, hcount, hsyms⟩ := hs.symbolArray ht harr hh hflag.symm
      rw [if_neg (by decide), if_neg (by decide), Layout.symbols_eq hfull hsyms, hcount]
      refine List.map_congr_left fun i hi => ?_
      have hi := List.mem_range.1 hi
      have helement : elementAt c t i = FieldNode.pointer (kids.nth i) :=
        ht.elementAt (Item.is_container harr (by decide)) (fun _ => hacc) i
      rw [helement]
      refine referenceOf_eq (Forest.nth_isSeen hks i) .symbol fun s' t' hsome' => ?_
      show t'.typedefFlagsTest isSymbol = true
      -- the element is one of the roots, all of which are symbols
      rcases (Forest.nth_isSeen hks i).present with ⟨-, hnone⟩ | ⟨m, mk, u, hm, -, hpresent, -, -, hu⟩
      · rw [hnone] at hsome'
        cases hsome'
      · rw [hpresent] at hsome'
        cases hsome'
        rw [hu.flags isSymbol (by decide) (by decide)]
        apply hsyms m
        have hroot := Forest.roots_getElem? kids i hi
        rw [hm] at hroot
        exact List.mem_of_getElem? hroot

theorem isNone_present (he : e.IsSeen c b) :
    e.present.isNone = (presentType c e.pointer).isNone := by
  rcases he.present with ⟨hp, hnone⟩ | ⟨n, kids, t, rfl, hp, hsome, -, -, ht⟩
  · rw [hp, hnone]
    rfl
  · rw [hp, hsome]
    rfl

theorem MandatoryField.isNone {field : Option Slot} {p : AmqpType → Prop} (h : MandatoryField c field p) :
    (presentType c field).isNone = false := by
  obtain ⟨s, t, hsome, -⟩ := h
  rw [hsome]
  rfl

theorem keepsSymbols_holds {r : TypeRef} (h : r.KeepsSymbols heap e) (he : e.IsSeen c b)
    (hvalid : ArrayValid e) (hc : OptionalField c e.pointer (IsSymbols c)) :
    r.type = e.pointer ∧ r.size = (symbolsOf c e.pointer).length ∧
      if symbolsOf c e.pointer = [] then r.data = 0
      else heap.get r.data = some (symbolsOf c e.pointer) := by
  rw [← symbolsOf_eq he hvalid hc]
  refine ⟨h.type, h.size, ?_⟩
  by_cases hnil : e.symbols = []
  · rw [if_pos hnil]
    exact h.none hnil
  · rw [if_neg hnil]
    exact h.some hnil

/-- What a field decoder leaves in a field it accepts. -/
theorem FieldDecoder.Keeps.holds {d : FieldDecoder} (h : d.Keeps b.input heap e f) (he : e.IsSeen c b)
    (hvalid : ArrayValid e) (hc : d.Conforms c e.pointer) : d.Holds c heap e.pointer f := by
  cases d with
  | type ft => exact Eq.trans h (referenceOf_eq he ft hc)
  | mandatoryType ft => exact Eq.trans h (referenceOf_eq he ft (MandatoryField.optional hc))
  | primitive ft default =>
    exact ⟨h.1.trans (numberOf_eq he ft default hc).symm, h.2.trans (isNone_present he)⟩
  | mandatoryPrimitive ft =>
    refine ⟨h.1.trans (numberOf_eq he ft 0 (MandatoryField.optional hc)).symm, h.2.trans ?_⟩
    rw [isNone_present he, MandatoryField.isNone hc]
  | mandatorySaslCode =>
    refine ⟨h.1.trans (numberOf_eq he .ubyte 0 (MandatoryField.optional hc.1)).symm, h.2.trans ?_⟩
    rw [isNone_present he, MandatoryField.isNone hc.1]
  | senderSettleMode default =>
    exact ⟨h.1.trans (numberOf_eq he .ubyte default hc.1).symm, h.2.trans (isNone_present he)⟩
  | receiverSettleMode default =>
    exact ⟨h.1.trans (numberOf_eq he .ubyte default hc.1).symm, h.2.trans (isNone_present he)⟩
  | multipleSymbol => exact keepsSymbols_holds h he hvalid hc
  | mandatoryMultipleSymbol =>
    refine keepsSymbols_holds h he hvalid ?_
    obtain ⟨s, t, hsome, hsymbols, -⟩ := hc
    exact MandatoryField.optional ⟨s, t, hsome, hsymbols⟩
  | amqpError =>
    refine ⟨h.1.trans (isNone_present he), ?_⟩
    rcases he.present with ⟨hp, hnone⟩ | ⟨n, kids, t, rfl, hp, hsome, hs, hks, ht⟩
    · have hnull := h.2
      rw [hp] at hnull
      rw [hnone]
      exact hnull
    · obtain ⟨hcomp, s, l, hs, hload, hlist, h0, h1, h2⟩ := hc n.slot t hsome
      have hkeeps := h.2
      rw [hp] at hkeeps
      obtain ⟨list, fields, hnth, hcondition, hdescription, hinfo⟩ := hkeeps
      rw [hsome]
      obtain ⟨hls, hfields⟩ := hks.nth hnth
      obtain ⟨tl, htl⟩ := hls.glance
      rw [AmqpType.typeIsComposite, ht.flags isComposite (by decide) (by decide)] at hcomp
      have helement : elementAt c t 1 = FieldNode.pointer (kids.nth 1) := by
        apply ht.elementAt (Item.is_container hcomp (by decide))
        intro harr
        rw [Item.composite_not_array hcomp] at harr
        cases harr
      have hslot : s = list.slot := by
        rw [helement, hnth] at hs
        cases hs
        rfl
      subst hslot
      rw [htl.load, Option.some.injEq] at hload
      subst hload
      rw [AmqpType.typeIsList, htl.flags isList (by decide) (by decide)] at hlist
      rw [htl.elementAt_list hlist] at h0 h1 h2
      refine ⟨list.slot, tl, hs, htl.load, ?_, ?_, ?_⟩ <;> rw [htl.elementAt_list hlist]
      · rw [hcondition, referenceOf_eq (Forest.nth_isSeen hfields 0) .symbol h0.optional]
      · rw [hdescription, referenceOf_eq (Forest.nth_isSeen hfields 1) .string h1]
      · rw [hinfo, referenceOf_eq (Forest.nth_isSeen hfields 2) .map h2]
  | wildcard decoder =>
    rcases he.present with ⟨hp, hnone⟩ | ⟨n, kids, t, rfl, hp, hsome, -⟩
    · simp only [FieldDecoder.Keeps, hp] at h
      simp only [FieldDecoder.Holds, hnone, h]
    · simp only [FieldDecoder.Keeps, hp] at h
      simp only [FieldDecoder.Holds, hsome, h]

/-! ## Lists -/

/-- Whatever a decoded type contains is seen. -/
theorem Contains.seen {s r : Slot} (h : Contains c s r) :
    ∀ n kids, n.slot = s → Seen c b n kids → kids.All (Seen c b) →
      ∃ m mk, m.slot = r ∧ Seen c b m mk ∧ mk.All (Seen c b) := by
  induction h with
  | self s => exact fun n kids hn hs hks => ⟨n, kids, hn, hs, hks⟩
  | @element s e r t i hload hvalid hcontainer helement _ ih =>
    rintro n kids rfl hs hks
    obtain ⟨u, hu⟩ := hs.glance
    obtain rfl : t = u := Option.some.inj (hload.symm.trans hu.load)
    have hacc : n.item.accepted = true := by
      rw [AmqpType.typeIsValid, hu.invalid, Bool.not_not] at hvalid
      exact hvalid
    rw [AmqpType.typeIsContainer, hu.flags _ (by decide) (by decide)] at hcontainer
    rw [hu.elementAt hcontainer fun _ => hacc] at helement
    obtain ⟨⟨m, mk⟩, hm, rfl⟩ := Option.map_eq_some_iff.1 helement
    obtain ⟨hms, hmks⟩ := hks.nth hm
    exact ih m mk rfl hms hmks

/-- Valid elements, in memory and in the layout. -/
theorem ListValid.array (hv : ListValid c t) (ht : Glance c b.input b.address n kids t)
    (hl : n.item.is isList = true) (hks : kids.All (Seen c b)) (i : Nat) :
    ArrayValid (kids.nth i) := by
  intro m mk hm
  have helement : elementAt c t i = some m.slot := by
    rw [ht.elementAt_list hl, hm]
    rfl
  obtain ⟨hms, hmks⟩ := hks.nth hm
  obtain ⟨u, hu⟩ := hms.glance
  have hacc : m.item.accepted = true := by
    have hvalid := hv.elements i m.slot u helement hu.load
    rw [AmqpType.typeIsValid, hu.invalid, Bool.not_not] at hvalid
    exact hvalid
  refine ⟨hacc, fun harr kid hkid => ?_⟩
  have hisArray : u.typeIsArray = true := by
    rw [AmqpType.typeIsArray, hu.flags isArray (by decide) (by decide), harr]
  obtain ⟨j, hj⟩ := List.getElem?_of_mem hkid
  have hlt : j < mk.length := by
    rw [← Forest.length_roots]
    exact (List.getElem?_eq_some_iff.1 hj).1
  rw [Forest.roots_getElem? mk j hlt, Option.some.injEq] at hj
  obtain ⟨⟨k, kk⟩, hk, rfl⟩ := Option.map_eq_some_iff.1 hj
  obtain ⟨w, hw⟩ := (hmks.nth hk).1.glance
  have hinner : elementAt c u j = some k.slot := by
    rw [hu.elementAt (Item.is_container harr (by decide)) fun _ => hacc, hk]
    rfl
  have hvalid := hv.arrays i m.slot u helement hu.load hisArray j k.slot w hinner hw.load
  rw [AmqpType.typeIsValid, hw.invalid, Bool.not_not] at hvalid
  exact hvalid

/-- The verdict on a list of fields, by those on the fields. -/
theorem fieldsVerdict_iff {list : Reading} {p : Nat → FieldDecoder → Prop} (ds : List FieldDecoder) :
    ∀ i, (∀ j d, ds[j]? = some d → (d.verdict (list.nth (i + j)) = .accepted ↔ p (i + j) d) ∧
      d.verdict (list.nth (i + j)) ≠ .stops) →
    (fieldsVerdict list ds i = .accepted ↔ ∀ j d, ds[j]? = some d → p (i + j) d) ∧
      fieldsVerdict list ds i ≠ .stops := by
  induction ds with
  | nil => exact fun i _ => ⟨by simp [fieldsVerdict], by simp [fieldsVerdict]⟩
  | cons d ds ih =>
    intro i h
    have hhead := h 0 d rfl
    have htail := ih (i + 1) fun j d' hj => by
      have := h (j + 1) d' hj
      rwa [show i + (j + 1) = i + 1 + j by omega] at this
    rw [Nat.add_zero] at hhead
    rw [fieldsVerdict]
    refine ⟨?_, andThen_ne_stops hhead.2 htail.2⟩
    rw [andThen_eq_accepted, hhead.1, htail.1]
    constructor
    · rintro ⟨h0, hrest⟩ j d' hj
      cases j with
      | zero =>
        cases hj
        exact h0
      | succ j =>
        rw [show i + (j + 1) = i + 1 + j by omega]
        exact hrest j d' hj
    · intro hall
      refine ⟨hall 0 d rfl, fun j d' hj => ?_⟩
      rw [show i + 1 + j = i + (j + 1) by omega]
      exact hall (j + 1) d' hj

/-- On a list of valid elements in a decoded type, the field decoders of any schema accept what the
schema asks for, and set the fields to what the list says. -/
theorem decodeFields_conforms {c' : Context} {b' : Buffer} {live : Finset Slot} {root list : Slot}
    {l : AmqpType} (hr : Ready (· = AmqpType.zero) c live) (hi : b.index ≤ b.size)
    (hsize : b.size ≤ b.capacity) (hrun : amqpDecode c b = .ok (some root, c', b'))
    (hin : Contains c' root list) (hload : c'.types.load list = some l) (hlist : l.typeIsList = true)
    (hvalid : ListValid c' l) (ds : List FieldDecoder) (heap : SymbolHeap) :
    ∃ ok fields heap', decodeFields c' list ds 0 heap (fun _ => .zero) = .ok (ok, fields, heap') ∧
      (ok = true ↔ ∀ (i : Nat) (d : FieldDecoder), ds[i]? = some d → d.Conforms c' (elementAt c' l i)) ∧
      (ok = true → ∀ (i : Nat) (d : FieldDecoder), ds[i]? = some d →
        d.Holds c' heap' (elementAt c' l i) (fields i)) := by
  obtain ⟨-, F, hlays, hptr⟩ := amqpDecode_ok hr hi hrun
  obtain ⟨hnone, -⟩ | ⟨rn, rkids, hroot, rfl⟩ := Layout.single hptr
  · cases hnone
  · cases hroot
    obtain ⟨hrs, hrks, -⟩ := hlays.seen
    obtain ⟨n, kids, rfl, hs, hks⟩ := hin.seen rn rkids rfl hrs hrks
    obtain ⟨t, ht⟩ := hs.glance
    obtain rfl : l = t := Option.some.inj (hload.symm.trans ht.load)
    rw [AmqpType.typeIsList, ht.flags isList (by decide) (by decide)] at hlist
    have hbytes : b.size < 2 ^ 31 := by
      have hmax : amqpBufferMaxSize < 2 ^ 31 := by decide
      have := b.capacity_le
      omega
    have hfield : ∀ i (d : FieldDecoder), (d.verdict ((kids.reading b.input).nth i) = .accepted ↔
        d.Conforms c' (elementAt c' l i)) ∧ d.verdict ((kids.reading b.input).nth i) ≠ .stops := by
      intro i d
      rw [Layout.reading_nth, ht.elementAt_list hlist]
      exact d.verdict_iff (Forest.nth_isSeen hks i) (hvalid.array ht hlist hks i) hbytes
    have hverdict := fieldsVerdict_iff (p := fun i d => d.Conforms c' (elementAt c' l i)) ds 0
      fun j d _ => by
        rw [Nat.zero_add]
        exact hfield j d
    simp only [Nat.zero_add] at hverdict
    have hmeets := decodeFields_meets ht hlist hks ds 0 heap fun _ => Field.zero
    cases hv : fieldsVerdict (kids.reading b.input) ds 0 with
    | stops => exact absurd hv hverdict.2
    | refused =>
      rw [hv] at hmeets
      obtain ⟨y, hy, -⟩ := hmeets
      refine ⟨false, y.1, y.2, hy, ?_, fun h => by cases h⟩
      rw [← hverdict.1, hv]
      simp
    | accepted =>
      rw [hv] at hmeets
      obtain ⟨y, hy, hresult⟩ := hmeets
      have hall := hverdict.1.1 hv
      refine ⟨true, y.1, y.2, hy, by simpa using hall, fun _ i d hd => ?_⟩
      have hkeeps := hresult.keeps rfl i d hd rfl
      have hconforms := hall i d hd
      rw [Nat.zero_add] at hkeeps
      rw [ht.elementAt_list hlist] at hconforms ⊢
      exact hkeeps.holds (Forest.nth_isSeen hks i) (hvalid.array ht hlist hks i) hconforms

/-- A list is valid if all types among its bytes are. -/
theorem listValid_of_accepted (ht : Glance c b.input b.address n kids t) (hl : n.item.is isList = true)
    (hks : kids.All (Seen c b)) (hacc : kids.All fun m _ => m.item.accepted = true) : ListValid c t := by
  have hvalid : ∀ {m : Node} {mk : Layout} {u : AmqpType}, Seen c b m mk → m.item.accepted = true →
      c.types.load m.slot = some u → u.typeIsValid = true := by
    intro m mk u hs hm hu
    obtain ⟨w, hw⟩ := hs.glance
    rw [hw.load, Option.some.injEq] at hu
    rw [← hu, AmqpType.typeIsValid, hw.invalid, hm]
    rfl
  refine ⟨fun i s u hs hu => ?_, fun i s u hs hu harr j s' w hs' hw => ?_⟩ <;>
    rw [ht.elementAt_list hl] at hs <;>
    obtain ⟨⟨m, mk⟩, hm, rfl⟩ := Option.map_eq_some_iff.1 hs
  · exact hvalid (hks.nth hm).1 (hacc.nth hm).1 hu
  · obtain ⟨hms, hmks⟩ := hks.nth hm
    obtain ⟨v, hv⟩ := hms.glance
    obtain rfl : u = v := Option.some.inj (hu.symm.trans hv.load)
    rw [AmqpType.typeIsArray, hv.flags isArray (by decide) (by decide)] at harr
    rw [hv.elementAt (Item.is_container harr (by decide)) fun _ => (hacc.nth hm).1] at hs'
    obtain ⟨⟨k, kk⟩, hk, rfl⟩ := Option.map_eq_some_iff.1 hs'
    exact hvalid (hmks.nth hk).1 ((hacc.nth hm).2.nth hk).1 hw

end

/-- A list of null, the uint 7 and an array of two symbols. -/
def threeFields : Buffer := .received
  [0xc0, 0x0c, 0x03, 0x40, 0x52, 0x07, 0xe0, 0x06, 0x02, 0xa3, 0x01, 0x61, 0x01, 0x62]

/-- The list is taken by a schema of an optional, a mandatory and a multiple field. -/
theorem decodeFields_conforms_three : ∃ root c' b' l,
    amqpDecode (Context.create Malloc.bump 21) threeFields = .ok (some root, c', b') ∧
    c'.types.load root = some l ∧ ∃ ok fields heap',
      decodeFields c' root [.primitive .ushort 9, .mandatoryPrimitive .uint, .mandatoryMultipleSymbol] 0
        Heap.empty (fun _ => .zero) = .ok (ok, fields, heap') ∧
      (ok = true ↔ ∀ (i : Nat) (d : FieldDecoder),
        [FieldDecoder.primitive .ushort 9, .mandatoryPrimitive .uint, .mandatoryMultipleSymbol][i]? = some d →
          d.Conforms c' (elementAt c' l i)) := by
  have hready := create_ready Malloc.bump (n := 21) (by decide) (by decide)
  obtain ⟨ptr, c', F, hcall, hlays, hptr⟩ := (amqpDecode_simulates hready (b := threeFields)
    (by decide)).1 (by decide +kernel)
  rcases hlays.single hptr with ⟨hnone, -⟩ | ⟨o, n, kids, ho, rfl, rfl, hno⟩
  · exact absurd hnone (by decide +kernel)
  · obtain ⟨hs, hks, -⟩ := hlays.seen
    obtain ⟨t, ht⟩ := hs.glance
    have hacc : (Layout.outline (.node n kids .nil)).All fun item _ => item.accepted = true := by
      rw [hlays.outline]
      decide +kernel
    have hitem : n.item = ⟨0xc0, 0, 14, true, 2, 12⟩ := by
      have hfirst : threeFields.outline.map Prod.fst = some ⟨0xc0, 0, 14, true, 2, 12⟩ := by decide +kernel
      rw [ho, Option.map_some, Option.some.injEq] at hfirst
      rw [hno, hfirst]
    have hl : n.item.is isList = true := by
      rw [hitem]
      decide +kernel
    rw [Layout.outline, Forest.all_map] at hacc
    have hlist : t.typeIsList = true := by
      rw [AmqpType.typeIsList, ht.flags isList (by decide) (by decide), hl]
    obtain ⟨ok, fields, heap', hrun, hiff, -⟩ := decodeFields_conforms hready (b := threeFields)
      (by decide) (by decide) hcall (.self _) ht.load hlist (listValid_of_accepted ht hl hks hacc.2.1)
      [.primitive .ushort 9, .mandatoryPrimitive .uint, .mandatoryMultipleSymbol] Heap.empty
    exact ⟨n.slot, c', _, t, hcall, ht.load, ok, fields, heap', hrun, hiff⟩

end Amqp
