import LibAmqp.Codec.Proof.Print
import LibAmqp.Transport.Schema

/-!
# What the field decoders do

* `FieldDecoder.decode_meets`: a field decoder ends as its verdict on the field says; what it accepts
  is in the field afterwards.
* `decodeFields_meets`: so does the decoder of a performative's fields.
* `cleanupFields_spec`: the cleanup gives back the symbols that were allocated, each once.
-/

namespace Amqp

open Lib

/-! ## Fields of a layout -/

/-- A type of a layout and its elements, if it is there. -/
abbrev FieldNode := Option (Node × Layout)

namespace FieldNode

def reading (inp : Input) (e : FieldNode) : FieldReading :=
  e.map fun x => (x.1.item.glimpse inp, Layout.reading inp x.2)

def pointer (e : FieldNode) : Option Slot := e.map fun x => x.1.slot

/-- The field, unless it is missing or null. -/
def present (e : FieldNode) : FieldNode := e.filter fun x => !x.1.item.is isNull

def IsSeen (c : Context) (b : Buffer) (e : FieldNode) : Prop :=
  ∀ n kids, e = some (n, kids) → Seen c b n kids ∧ kids.All (Seen c b)

end FieldNode

/-- The reference to a type. -/
def ReferenceType.refer (ft : ReferenceType) (n : Node) (kids : Layout) : TypeRef :=
  match ft with
  | map => ⟨some .map, some n.slot, kids.length, 0, none⟩
  | _ => ⟨some .variable, some n.slot, n.item.size, 0, none⟩

/-- What a reference field is set to. -/
def ReferenceType.referTo (ft : ReferenceType) (e : FieldNode) : TypeRef :=
  match e.present with
  | none => .null
  | some (n, kids) => ft.refer n kids

/-- References to the symbols of an array. -/
def Layout.symbols : Layout → List TypeRef
  | .nil => []
  | .hole rest => symbols rest
  | .node n kids rest => ReferenceType.symbol.refer n kids :: symbols rest

/-- The symbols of a multiple field. -/
def FieldNode.symbols (e : FieldNode) : List TypeRef :=
  match e.present with
  | none => []
  | some (n, kids) =>
    if n.item.is isSymbol then [ReferenceType.symbol.refer n kids] else Layout.symbols kids

/-- What a multiple field holds. -/
structure TypeRef.KeepsSymbols (r : TypeRef) (heap : SymbolHeap) (e : FieldNode) : Prop where
  type : r.type = e.pointer
  size : r.size = e.symbols.length
  none : e.symbols = [] → r.data = 0
  some : e.symbols ≠ [] → heap.get r.data = some e.symbols

/-- What a field holds when its decoder has accepted it. -/
def FieldDecoder.Keeps (inp : Input) (heap : SymbolHeap) (e : FieldNode) (f : Field) :
    FieldDecoder → Prop
  | type ft | mandatoryType ft => f.ref = ft.referTo e
  | primitive ft default =>
    f.value = ft.valueOf default (e.reading inp) ∧ f.isNull = e.present.isNone
  | mandatoryPrimitive ft => f.value = ft.valueOf 0 (e.reading inp) ∧ f.isNull = e.present.isNone
  | mandatorySaslCode =>
    f.value = PrimitiveType.ubyte.valueOf 0 (e.reading inp) ∧ f.isNull = e.present.isNone
  | senderSettleMode default | receiverSettleMode default =>
    f.value = PrimitiveType.ubyte.valueOf default (e.reading inp) ∧ f.isNull = e.present.isNone
  | multipleSymbol | mandatoryMultipleSymbol => f.ref.KeepsSymbols heap e
  | amqpError => f.isNull = e.present.isNone ∧
    match e.present with
    | none => f.condition = .null ∧ f.description = .null ∧ f.info = .null
    | some (_, kids) => ∃ list fields, kids.nth 1 = some (list, fields) ∧
        f.condition = ReferenceType.symbol.referTo (fields.nth 0) ∧
        f.description = ReferenceType.string.referTo (fields.nth 1) ∧
        f.info = ReferenceType.map.referTo (fields.nth 2)
  | wildcard decoder => f.ref =
    match e.present with
    | none => .null
    | some (n, _) => ⟨some .wildcard, some n.slot, 0, 0, some decoder⟩

/-- A multiple field is the only one that owns memory. -/
def FieldDecoder.isMultiple : FieldDecoder → Bool
  | multipleSymbol | mandatoryMultipleSymbol => true
  | _ => false

/-- A field that owns no memory. -/
structure Field.Clean (f : Field) : Prop where
  ref : f.ref.data = 0
  condition : f.condition.data = 0
  description : f.description.data = 0
  info : f.info.data = 0

theorem Field.zero_clean : Field.zero.Clean := ⟨rfl, rfl, rfl, rfl⟩

/-- The symbols a field owns. -/
def FieldDecoder.Owns (d : FieldDecoder) (f : Field) (A : List Nat) : Prop :=
  (A = [] ∧ f.Clean) ∨
    (d.isMultiple = true ∧ A = [f.ref.data] ∧ f.ref.data ≠ 0 ∧ f.ref.fnTable = some .multipleSymbol)

/-- What the fault of a run says about the code. -/
def Fault.Real (e : Fault) : Prop := e ≠ .outOfFuel

instance (e : Fault) : Decidable e.Real := inferInstanceAs (Decidable (_ ≠ _))

section
variable {c : Context} {b : Buffer} {n : Node} {kids : Layout} {t : AmqpType} {e : FieldNode}
  {f : Field} {heap : SymbolHeap}

theorem FieldNode.reading_present (inp : Input) (e : FieldNode) :
    (e.reading inp).present = e.present.reading inp := by
  cases e with
  | none => rfl
  | some x =>
    have hg : (x.1.item.glimpse inp).is isNull = x.1.item.is isNull := rfl
    simp only [FieldNode.reading, FieldNode.present, FieldReading.present, Option.map_some,
      Option.filter_some, hg]
    cases x.1.item.is isNull <;> rfl

theorem FieldNode.optional_none {inp : Input} (h : e.present = none)
    (p : Glimpse → Reading → Verdict) : (e.reading inp).optional p = .accepted := by
  rw [FieldReading.optional, FieldNode.reading_present, h]
  rfl

theorem FieldNode.optional_some {inp : Input} (h : e.present = some (n, kids))
    (p : Glimpse → Reading → Verdict) :
    (e.reading inp).optional p = p (n.item.glimpse inp) (Layout.reading inp kids) := by
  rw [FieldReading.optional, FieldNode.reading_present, h]
  rfl

theorem FieldNode.mandatory_none {inp : Input} (h : e.present = none)
    (p : Glimpse → Reading → Verdict) : (e.reading inp).mandatory p = .refused := by
  rw [FieldReading.mandatory, FieldNode.reading_present, h]
  rfl

theorem FieldNode.mandatory_some {inp : Input} (h : e.present = some (n, kids))
    (p : Glimpse → Reading → Verdict) :
    (e.reading inp).mandatory p = p (n.item.glimpse inp) (Layout.reading inp kids) := by
  rw [FieldReading.mandatory, FieldNode.reading_present, h]
  rfl

theorem PrimitiveType.valueOf_none {inp : Input} (h : e.present = none) (ft : PrimitiveType)
    (default : Int) : ft.valueOf default (e.reading inp) = default := by
  rw [PrimitiveType.valueOf, FieldNode.reading_present, h]
  rfl

theorem PrimitiveType.valueOf_some {inp : Input} (h : e.present = some (n, kids))
    (ft : PrimitiveType) (default : Int) :
    ft.valueOf default (e.reading inp) = ft.read (n.item.number inp) := by
  rw [PrimitiveType.valueOf, FieldNode.reading_present, h]
  rfl

/-- A field is null, for its reading and for the code, or it is there. -/
theorem FieldNode.IsSeen.cases (he : e.IsSeen c b) :
    (e.present = none ∧ amqpTypeIsNull c e.pointer = .ok true) ∨
    ∃ n kids t, e = some (n, kids) ∧ e.present = some (n, kids) ∧
      amqpTypeIsNull c e.pointer = .ok false ∧ Seen c b n kids ∧ kids.All (Seen c b) ∧
      Glance c b.input b.address n kids t := by
  cases e with
  | none => exact .inl ⟨rfl, rfl⟩
  | some x =>
    obtain ⟨n, kids⟩ := x
    obtain ⟨hs, hks⟩ := he n kids rfl
    obtain ⟨t, ht⟩ := hs.glance
    have hnull : amqpTypeIsNull c (FieldNode.pointer (some (n, kids))) =
        .ok (n.item.is isNull) := by
      simp only [FieldNode.pointer, Option.map_some, amqpTypeIsNull, ht.loaded, Fault.ok_bind]
      rw [ht.flags isNull (by decide) (by decide)]
    cases h : n.item.is isNull with
    | true => exact .inl ⟨by simp [FieldNode.present, h], by rw [hnull, h]⟩
    | false =>
      exact .inr ⟨n, kids, t, rfl, by simp [FieldNode.present, h], by rw [hnull, h], hs, hks, ht⟩

/-! ## References -/

theorem ReferenceType.refer_data (ft : ReferenceType) (n : Node) (kids : Layout) :
    (ft.refer n kids).data = 0 := by
  cases ft <;> rfl

theorem Item.known_of_is {item : Item} {mask : TypedefFlags} (h : item.is mask = true) :
    item.metaData ≠ none := by
  intro hm
  rw [Item.is, codeFlags, show amqpTypeMetaDataLookup item.code = none from hm] at h
  simp at h

/-- A symbol is a text. -/
theorem Item.symbol_kind {item : Item} (h : item.is isSymbol = true) :
    item.kind = some .variableWidth := by
  obtain ⟨m, hm⟩ := Option.ne_none_iff_exists'.1 (Item.known_of_is h)
  rw [Item.is_of_decoder hm] at h
  rw [Item.kind, hm, Option.map_some, EncodingMetaData.kind]
  generalize m.typeDecoder = d at h
  cases d <;> first | rfl | cases h

/-- The code's reference to a type is the one of the layout. -/
theorem Glance.refer (ht : Glance c b.input b.address n kids t) (ft : ReferenceType)
    (h : n.item.is ft.mask = true) : ft.initializeFromType n.slot t = ft.refer n kids := by
  cases ft with
  | map =>
    have hmap : n.item.is isMap = true := h
    have hcount : t.value.count = kids.length := by
      refine ht.count (Item.is_container hmap (by decide)) fun harr => ?_
      obtain ⟨m, hm, hk⟩ := Item.array_of_is harr
      rw [Item.is_of_decoder hm] at hmap
      simp only [EncodingMetaData.kind] at hk
      generalize m.typeDecoder = d at hmap hk
      cases d <;> cases hk <;> cases hmap
    rw [ReferenceType.initializeFromType, ReferenceType.refer, hcount]
  | _ => simp only [ReferenceType.initializeFromType, ReferenceType.refer,
      ht.size (Item.known_of_is h)]

theorem amqpDecodeType_meets (ft : ReferenceType) (he : e.IsSeen c b) (r : TypeRef) :
    ((e.reading b.input).optional fun g _ => .ofBool (g.is ft.mask)).Meets Fault.Real
      (amqpDecodeType ft c e.pointer r) fun ok r' =>
        (ok = true → r' = ft.referTo e) ∧ (r.data = 0 → r'.data = 0) := by
  unfold amqpDecodeType
  rcases he.cases with ⟨hp, hnull⟩ | ⟨n, kids, t, rfl, hp, hnull, hs, -, ht⟩
  · rw [FieldNode.optional_none hp, hnull]
    exact ⟨.null, rfl, fun _ => by rw [ReferenceType.referTo, hp], fun _ => rfl⟩
  · rw [FieldNode.optional_some hp, hnull]
    have hflag : t.typedefFlagsTest ft.mask = n.item.is ft.mask :=
      ht.flags _ (by cases ft <;> decide) (by cases ft <;> decide)
    have hrefer : ft.referTo (some (n, kids)) = ft.refer n kids := by rw [ReferenceType.referTo, hp]
    have hg : (n.item.glimpse b.input).is ft.mask = n.item.is ft.mask := rfl
    simp only [Fault.ok_bind, FieldNode.pointer, Option.map_some, Bool.false_eq_true, if_false,
      ht.loaded, hflag, hg]
    cases h : n.item.is ft.mask with
    | true =>
      refine Verdict.meets_ofBool (b := true) rfl ⟨fun _ => ?_, fun _ => ?_⟩
      · rw [hrefer, ht.refer ft h]
      · rw [ht.refer ft h, ft.refer_data]
    | false => exact Verdict.meets_ofBool (b := false) rfl ⟨fun h => (nomatch h), id⟩

theorem amqpDecodeMandatoryType_meets (ft : ReferenceType) (he : e.IsSeen c b) (r : TypeRef) :
    ((e.reading b.input).mandatory fun g _ => .ofBool (g.is ft.mask)).Meets Fault.Real
      (amqpDecodeMandatoryType ft c e.pointer r) fun ok r' =>
        (ok = true → r' = ft.referTo e) ∧ (r.data = 0 → r'.data = 0) := by
  have h := amqpDecodeType_meets ft he r
  unfold amqpDecodeMandatoryType
  rcases he.cases with ⟨hp, -⟩ | ⟨n, kids, t, rfl, hp, -⟩
  · rw [FieldNode.optional_none hp] at h
    obtain ⟨r', hr, href, hdata⟩ := h
    rw [FieldNode.mandatory_none hp, hr]
    have hnull : r'.isNull = true := by rw [href rfl, ReferenceType.referTo, hp]; rfl
    exact ⟨r', by simp only [Fault.ok_bind, hnull, Bool.not_true, Bool.and_false],
      fun h => (nomatch h), hdata⟩
  · rw [FieldNode.optional_some hp] at h
    rw [FieldNode.mandatory_some hp]
    refine h.map fun ok r' hq => ?_
    refine ⟨r', ?_, hq⟩
    cases ok with
    | false => rfl
    | true =>
      have hset : r'.isNull = false := by
        rw [hq.1 rfl, ReferenceType.referTo, hp]
        cases ft <;> rfl
      simp only [hset, Bool.not_false, Bool.and_true]

/-! ## Numbers -/

/-- The flags of a primitive field are those of numbers. -/
theorem Item.isNumber_of_fits {item : Item} (ft : PrimitiveType) (h : item.is ft.flags.1 = true) :
    item.IsNumber := by
  obtain ⟨m, hm⟩ := Option.ne_none_iff_exists'.1 (Item.known_of_is h)
  refine ⟨m, hm, ?_⟩
  rw [Item.is_of_decoder hm] at h
  simp only [EncodingMetaData.kind]
  generalize m.typeDecoder = d at h
  revert h
  cases ft <;> cases d <;> decide

theorem PrimitiveType.test_eq (ht : Glance c b.input b.address n kids t) (ft : PrimitiveType) :
    ft.test t = ft.fits (n.item.glimpse b.input) := by
  rw [PrimitiveType.test, PrimitiveType.fits, ht.flags ft.flags.1 (by cases ft <;> decide)
    (by cases ft <;> decide), ht.flags isUnsigned (by decide) (by decide)]
  rfl

/-- What a primitive decoder makes of a field. -/
def PrimitiveResult (inp : Input) (ft : PrimitiveType) (default : Int) (e : FieldNode) (f : Field)
    (ok : Bool) (f' : Field) : Prop :=
  (ok = true → f'.value = ft.valueOf default (e.reading inp) ∧
    (f.isNull = false → f'.isNull = e.present.isNone)) ∧ (f.Clean → f'.Clean)

/-- A primitive field that is there. -/
theorem decodePrimitive_meets (ft : PrimitiveType) (default : Int) (f : Field)
    (hp : FieldNode.present (some (n, kids)) = some (n, kids))
    (ht : Glance c b.input b.address n kids t) :
    (Verdict.ofBool (ft.fits (n.item.glimpse b.input))).Meets Fault.Real
      (decodePrimitive ft c (some n.slot) f)
      (PrimitiveResult b.input ft default (some (n, kids)) f) := by
  unfold decodePrimitive
  simp only [loadType, ht.loaded, Fault.ok_bind, PrimitiveType.test_eq ht]
  cases h : ft.fits (n.item.glimpse b.input) with
  | false => exact Verdict.meets_ofBool (b := false) rfl ⟨fun h => (nomatch h), id⟩
  | true =>
    have hfit : n.item.is ft.flags.1 = true := by
      rw [PrimitiveType.fits, Bool.and_eq_true] at h
      exact h.1
    refine Verdict.meets_ofBool (b := true) rfl ⟨fun _ => ⟨?_, fun hn => ?_⟩, fun hc => ?_⟩
    · rw [PrimitiveType.valueOf_some hp]
      show ft.read t.value = _
      rw [ht.number (Item.isNumber_of_fits _ hfit)]
    · rw [hp]
      exact hn
    · exact ⟨hc.ref, hc.condition, hc.description, hc.info⟩

theorem amqpDecodePrimitive_meets (ft : PrimitiveType) (default : Int) (he : e.IsSeen c b)
    (f : Field) :
    ((e.reading b.input).optional fun g _ => .ofBool (ft.fits g)).Meets Fault.Real
      (amqpDecodePrimitive ft default c e.pointer f) (PrimitiveResult b.input ft default e f) := by
  unfold amqpDecodePrimitive
  rcases he.cases with ⟨hp, hnull⟩ | ⟨n, kids, t, rfl, hp, hnull, hs, -, ht⟩
  · rw [FieldNode.optional_none hp, hnull]
    refine ⟨_, rfl, fun _ => ⟨?_, fun _ => ?_⟩, fun hc => ?_⟩
    · rw [PrimitiveType.valueOf_none hp]
    · rw [hp]
      rfl
    · exact ⟨hc.ref, hc.condition, hc.description, hc.info⟩
  · rw [FieldNode.optional_some hp, hnull]
    exact decodePrimitive_meets ft default f hp ht

theorem amqpDecodeMandatoryPrimitive_meets (ft : PrimitiveType) (he : e.IsSeen c b) (f : Field) :
    ((e.reading b.input).mandatory fun g _ => .ofBool (ft.fits g)).Meets Fault.Real
      (amqpDecodeMandatoryPrimitive ft c e.pointer f) (PrimitiveResult b.input ft 0 e f) := by
  unfold amqpDecodeMandatoryPrimitive
  rcases he.cases with ⟨hp, hnull⟩ | ⟨n, kids, t, rfl, hp, hnull, hs, -, ht⟩
  · rw [FieldNode.mandatory_none hp, hnull]
    exact ⟨f, rfl, fun h => (nomatch h), id⟩
  · rw [FieldNode.mandatory_some hp, hnull]
    exact decodePrimitive_meets ft 0 f hp ht

theorem restrictRange_meets {v : Verdict} {default limit : Int}
    {r : Except Fault (Bool × Field)}
    (h : v.Meets Fault.Real r (PrimitiveResult b.input .ubyte default e f)) :
    (rangeVerdict limit default (e.reading b.input) v).Meets Fault.Real (restrictRange limit r)
      (PrimitiveResult b.input .ubyte default e f) := by
  unfold restrictRange
  refine h.bind (fun f' hq => ?_) fun f' hq => ?_
  · rw [← (hq.1 rfl).1]
    refine Verdict.meets_ofBool (a := f') ?_ ?_
    · simp only [Bool.true_and]
    · exact ⟨fun _ => hq.1 rfl, hq.2⟩
  · exact ⟨f', by simp only [Bool.false_and], hq⟩

/-! ## Symbols -/

/-- The loop over an array of symbols. -/
theorem symbolsFromArray_ok (elements : Nat) (hfull : kids.Full) (hkids : kids.All (Seen c b))
    (hsym : ∀ kid, some kid ∈ kids.roots → kid.item.is isSymbol = true) :
    ∀ i, (∀ k p, kids.pointers[k]? = some p → c.getElement elements (i + k) = .ok p) →
      symbolsFromArray c elements kids.length i = .ok kids.symbols := by
  induction kids with
  | nil => exact fun _ _ => rfl
  | hole rest => exact absurd hfull id
  | node n ks rest _ ih =>
    intro i hp
    obtain ⟨hs, -, hrest⟩ := hkids
    obtain ⟨t, ht⟩ := hs.glance
    have his : n.item.is isSymbol = true := hsym n (.head _)
    have hhead : c.getElement elements i = .ok (some n.slot) := hp 0 _ rfl
    have htail := ih hfull hrest (fun kid hk => hsym kid (.tail _ hk)) (i + 1) fun k p hk => by
      rw [Nat.add_assoc, Nat.add_comm 1 k]
      exact hp (k + 1) p hk
    have hflag : t.typedefFlagsTest isSymbol = true := by
      rw [ht.flags isSymbol (by decide) (by decide), his]
    simp only [Forest.length, symbolsFromArray, hhead, Fault.ok_bind, amqpSymbolInitializeFromType,
      ht.loaded, hflag, if_true, htail, ht.refer .symbol his, Layout.symbols]

/-- What a decoder of multiple symbols leaves: `r'` for `r`, and the memory it took. -/
def MultipleResult (heap : SymbolHeap) (e : FieldNode) (r : TypeRef) (ok : Bool)
    (x : TypeRef × SymbolHeap) : Prop :=
  (ok = true → x.1.KeepsSymbols x.2 e) ∧
    ∃ A, heap.Gains x.2 A ∧ (r.data = 0 → (A = [] ∧ x.1.data = 0) ∨
      (A = [x.1.data] ∧ x.1.data ≠ 0 ∧ x.1.fnTable = some .multipleSymbol))

/-- Symbols that are put into new memory. -/
theorem allocateSymbols_result {contents : List TypeRef} {r r' : TypeRef} {ok : Bool}
    (hdata : r'.data = (allocateSymbols c heap contents).1) (htype : r'.type = e.pointer)
    (htable : r'.fnTable = some .multipleSymbol) (hsize : r'.size = contents.length)
    (hcontents : contents = e.symbols) (hne : contents ≠ []) :
    MultipleResult heap e r ok (r', (allocateSymbols c heap contents).2) := by
  have hget : (allocateSymbols c heap contents).2.get (allocateSymbols c heap contents).1 =
      some contents := by
    rw [allocateSymbols, Heap.malloc_fst, Heap.get_malloc_self]
  refine ⟨fun _ => ⟨htype, ?_, ?_, fun _ => ?_⟩, _, Heap.gains_malloc c.malloc heap contents,
    fun _ => .inr ⟨?_, ?_, htable⟩⟩
  · rw [hsize, hcontents]
  · rw [← hcontents]
    exact fun h => absurd h hne
  · rw [hdata, hget, hcontents]
  · rw [hdata]
    rfl
  · rw [hdata]
    intro h0
    rw [h0, Heap.get_zero] at hget
    cases hget

/-- The decoder allocated nothing. -/
theorem MultipleResult.unchanged {r r' : TypeRef} {ok : Bool}
    (hkeeps : ok = true → r'.KeepsSymbols heap e) (hdata : r.data = 0 → r'.data = 0) :
    MultipleResult heap e r ok (r', heap) :=
  ⟨hkeeps, [], Heap.Gains.refl heap, fun h => .inl ⟨rfl, hdata h⟩⟩

/-- A field that is an array. -/
theorem Glance.array_kind (ht : Glance c b.input b.address n kids t)
    (h : n.item.is isArray = true) : ∃ m, n.item.metaData = some m ∧ m.kind = .array ∧
      n.holder.map Holder.code = (n.item.glimpse b.input).elementCode := by
  obtain ⟨m, hm, hk⟩ := Item.array_of_is h
  obtain ⟨-, m', hm', hcode⟩ := ht.holder h
  rw [hm, Option.some.injEq] at hm'
  subst hm'
  refine ⟨m, hm, hk, ?_⟩
  rw [hcode, Item.glimpse]
  simp only [hm, Option.bind_some, if_pos hk]

/-- An array whose elements are symbols is accepted, and its elements are symbols. -/
theorem Seen.symbolArray (hs : Seen c b n kids) (ht : Glance c b.input b.address n kids t)
    (harr : n.item.is isArray = true) {h : Holder} (hh : n.holder = some h)
    (hsym : (codeFlags h.code &&& isSymbol != 0#32) = true) :
    kids.Full ∧ t.value.count = kids.length ∧
      ∀ kid, some kid ∈ kids.roots → kid.item.is isSymbol = true := by
  obtain ⟨m, hm, hk⟩ := Item.array_of_is harr
  have hkind : n.item.kind = some .array := by rw [Item.kind, hm, Option.map_some, hk]
  refine ⟨(Forest.full_map _ kids).1 (hs.regular.full hkind), ?_, fun kid hkid => ?_⟩
  · refine ht.count (Item.is_container harr (by decide)) fun _ => ?_
    by_contra hrej
    obtain ⟨-, m', hm', hcode⟩ := ht.holder harr
    rw [hh] at hcode
    have hnone := hs.regular.unknown hkind (by simpa using hrej) m' hm' h.code hcode.symm
    rw [codeFlags, hnone] at hsym
    simp at hsym
  · rw [Item.is, ht.kidsCode h hh kid hkid]
    exact hsym

theorem Layout.symbols_length (hfull : kids.Full) : kids.symbols.length = kids.length := by
  induction kids with
  | nil => rfl
  | hole rest => exact absurd hfull id
  | node n ks rest _ ih => simp only [Layout.symbols, List.length_cons, ih hfull, Forest.length]

/-- An array of symbols. -/
theorem symbolArray_meets (hp : FieldNode.present (some (n, kids)) = some (n, kids))
    (hs : Seen c b n kids) (hks : kids.All (Seen c b)) (ht : Glance c b.input b.address n kids t)
    (hnot : n.item.is isSymbol = false) (harr : n.item.is isArray = true) {h : Holder}
    (hh : n.holder = some h) (hsym : (codeFlags h.code &&& isSymbol != 0#32) = true) (r : TypeRef) :
    (if 2 ^ 31 ≤ kids.length then Verdict.stops else .accepted).Meets Fault.Real
      (do
        let r := { r with fnTable := some .multipleSymbol, type := some n.slot }
        let count := t.value.count
        if 2 ^ 31 ≤ count then .error .wildPointer
        else if 0 < count then do
          let contents ← symbolsFromArray c t.value.elements count 0
          let (a, symbols) := allocateSymbols c heap contents
          .ok (true, { r with size := count, data := a }, symbols)
        else .ok (true, { r with size := count, data := 0 }, heap))
      (MultipleResult heap (some (n, kids)) r) := by
  obtain ⟨hfull, hcount, hsyms⟩ := hs.symbolArray ht harr hh hsym
  have hsymbols : FieldNode.symbols (some (n, kids)) = kids.symbols := by
    simp only [FieldNode.symbols, hp, hnot, Bool.false_eq_true, if_false]
  have hlen := Layout.symbols_length hfull
  rw [hcount]
  by_cases hbig : 2 ^ 31 ≤ kids.length
  · simp only [if_pos hbig]
    exact ⟨_, rfl, by decide⟩
  · simp only [if_neg hbig]
    by_cases h0 : 0 < kids.length
    · have hrun := symbolsFromArray_ok t.value.elements hfull hks hsyms 0 fun k p hk => by
        rw [Nat.zero_add]
        exact ht.elements (Item.is_container harr (by decide)) k p hk
      rw [if_pos h0, hrun]
      refine ⟨_, rfl, allocateSymbols_result rfl rfl rfl ?_ hsymbols.symm ?_⟩
      · rw [hlen]
      · intro hnil
        rw [hnil] at hlen
        exact absurd hlen (Nat.ne_of_lt h0)
    · rw [if_neg h0]
      have hnil : kids.symbols = [] := List.eq_nil_of_length_eq_zero (by omega)
      refine ⟨_, rfl, .unchanged (fun _ => ⟨rfl, ?_, fun _ => rfl, fun hne => ?_⟩) fun _ => rfl⟩
      · rw [hsymbols, hlen]
      · rw [hsymbols] at hne
        exact absurd hnil hne

theorem amqpMultipleSymbolInitialize_meets (heap : SymbolHeap) (he : e.IsSeen c b) (r : TypeRef) :
    ((e.reading b.input).optional symbolsVerdict).Meets Fault.Real
      (amqpMultipleSymbolInitialize c heap e.pointer r) (MultipleResult heap e r) := by
  unfold amqpMultipleSymbolInitialize
  rcases he.cases with ⟨hp, hnull⟩ | ⟨n, kids, t, rfl, hp, hnull, hs, hks, ht⟩
  · rw [FieldNode.optional_none hp, hnull]
    have hnil : e.symbols = [] := by rw [FieldNode.symbols, hp]
    refine ⟨_, rfl, .unchanged (fun _ => ⟨rfl, ?_, fun _ => rfl, fun h => absurd hnil h⟩) fun _ => rfl⟩
    rw [hnil]
    rfl
  · rw [FieldNode.optional_some hp, hnull, symbolsVerdict]
    have hgs : (n.item.glimpse b.input).is isSymbol = n.item.is isSymbol := rfl
    have hga : (n.item.glimpse b.input).is isArray = n.item.is isArray := rfl
    simp only [Fault.ok_bind, Bool.false_eq_true, if_false, loadType, FieldNode.pointer,
      Option.map_some, ht.loaded, ht.flags isSymbol (by decide) (by decide),
      ht.flags isArray (by decide) (by decide), hgs, hga, amqpSymbolInitializeFromType]
    cases hsym : n.item.is isSymbol with
    | true =>
      have hsymbols : FieldNode.symbols (some (n, kids)) = [ReferenceType.symbol.refer n kids] := by
        simp only [FieldNode.symbols, hp, hsym, if_true]
      rw [if_pos rfl, if_pos rfl]
      simp only [if_true, Fault.ok_bind, ht.refer .symbol hsym]
      exact ⟨_, rfl, allocateSymbols_result rfl rfl rfl rfl hsymbols.symm (List.cons_ne_nil _ _)⟩
    | false =>
      simp only [Bool.false_eq_true, if_false]
      cases harr : n.item.is isArray with
      | false => exact ⟨_, rfl, .unchanged (fun h => (nomatch h)) id⟩
      | true =>
        obtain ⟨m, -, -, hcode⟩ := ht.array_kind harr
        rw [if_pos rfl, if_pos rfl, (ht.holder harr).1, ← hcode]
        cases hh : n.holder with
        | none => exact ⟨_, rfl, by decide⟩
        | some h =>
          obtain ⟨th, hth, hflags⟩ := ht.holderFlags h hh
          have hload : c.load h.slot = .ok th := by rw [Context.load, hth]
          simp only [Option.map_some, hload, Fault.ok_bind, hflags isSymbol (by decide)]
          cases hcs : codeFlags h.code &&& isSymbol != 0#32 with
          | false => exact ⟨_, rfl, .unchanged (fun h => (nomatch h)) id⟩
          | true =>
            rw [if_pos rfl, if_pos rfl, Layout.length_reading]
            exact symbolArray_meets hp hs hks ht hsym harr hh hcs r

/-- An array that is taken for symbols has as many as it has elements. -/
theorem Seen.symbols_empty (hp : FieldNode.present (some (n, kids)) = some (n, kids))
    (hs : Seen c b n kids)
    (hv : symbolsVerdict (n.item.glimpse b.input) (kids.reading b.input) = .accepted) :
    (FieldNode.symbols (some (n, kids))).length = 0 ↔
      ((n.item.glimpse b.input).is isSymbol || (kids.reading b.input).length != 0) = false := by
  have hgs : (n.item.glimpse b.input).is isSymbol = n.item.is isSymbol := rfl
  have hga : (n.item.glimpse b.input).is isArray = n.item.is isArray := rfl
  rw [symbolsVerdict, hgs, hga] at hv
  simp only [FieldNode.symbols, hp, hgs]
  cases hsym : n.item.is isSymbol with
  | true => simp
  | false =>
    cases harr : n.item.is isArray with
    | false =>
      rw [hsym, harr] at hv
      cases hv
    | true =>
      obtain ⟨m, hm, hk⟩ := Item.array_of_is harr
      have hfull := hs.regular.full (by rw [Item.kind, hm, Option.map_some, hk])
      simp only [Bool.false_eq_true, if_false, Bool.false_or, bne_eq_false_iff_eq,
        Layout.length_reading, Layout.symbols_length ((Forest.full_map _ kids).1 hfull)]

theorem amqpDecodeMandatoryMultipleTypeSymbol_meets (he : e.IsSeen c b) (r : TypeRef) :
    (FieldDecoder.verdict (e.reading b.input) .mandatoryMultipleSymbol).Meets Fault.Real
      (amqpDecodeMandatoryMultipleTypeSymbol c heap e.pointer r) (MultipleResult heap e r) := by
  have h := amqpMultipleSymbolInitialize_meets heap he r
  unfold amqpDecodeMandatoryMultipleTypeSymbol amqpDecodeMultipleTypeSymbol
  rw [FieldDecoder.verdict]
  rcases he.cases with ⟨hp, -⟩ | ⟨n, kids, t, rfl, hp, -, hs, -⟩
  · rw [FieldNode.optional_none hp] at h
    obtain ⟨x, hx, hq⟩ := h
    have hsize : x.1.size = 0 := by
      rw [(hq.1 rfl).size, FieldNode.symbols, hp]
      rfl
    rw [FieldNode.mandatory_none hp, hx]
    refine ⟨x, ?_, fun h => (nomatch h), hq.2⟩
    simp only [Fault.ok_bind, hsize, bne_self_eq_false, Bool.and_false]
  · rw [FieldNode.optional_some hp] at h
    rw [FieldNode.mandatory_some hp, FieldNode.mandatory_some hp]
    cases hv : symbolsVerdict (n.item.glimpse b.input) (kids.reading b.input) with
    | stops =>
      rw [hv] at h
      obtain ⟨fault, hx, hreal⟩ := h
      exact ⟨fault, by rw [hx, Fault.error_bind], hreal⟩
    | refused =>
      rw [hv] at h
      obtain ⟨x, hx, hq⟩ := h
      exact ⟨x, by rw [hx]; rfl, hq⟩
    | accepted =>
      rw [hv] at h
      obtain ⟨x, hx, hq⟩ := h
      have hsize := (hq.1 rfl).size
      have hempty := hs.symbols_empty hp hv
      rw [hx]
      refine Verdict.meets_ofBool (a := x) ?_ ⟨fun _ => hq.1 rfl, hq.2⟩
      simp only [Fault.ok_bind, Bool.true_and, hsize]
      cases hne : (n.item.glimpse b.input).is isSymbol || (kids.reading b.input).length != 0 with
      | false =>
        rw [hempty.2 hne]
        rfl
      | true =>
        have h0 : (FieldNode.symbols (some (n, kids))).length ≠ 0 := by
          intro h0
          rw [hempty.1 h0] at hne
          cases hne
        rw [bne_iff_ne.2 (Int.natCast_ne_zero.2 h0)]

/-! ## Errors -/

theorem Layout.pointers_nth {i : Nat} (h : i < kids.length) :
    kids.pointers[i]? = some (FieldNode.pointer (kids.nth i)) := by
  rw [Layout.pointers, List.getElem?_map, Forest.roots_getElem? kids i h, Option.map_some]
  cases kids.nth i <;> rfl

theorem Forest.nth_isSeen (hks : kids.All (Seen c b)) (i : Nat) :
    FieldNode.IsSeen c b (kids.nth i) :=
  fun _ _ h => hks.nth h

theorem Layout.reading_nth (inp : Input) (kids : Layout) (i : Nat) :
    (Layout.reading inp kids).nth i = FieldNode.reading inp (kids.nth i) := by
  rw [Layout.reading, read, Layout.outline, Forest.nth_map, Forest.nth_map, Option.map_map]
  rfl

/-- A field of a list, null past its end. -/
theorem Glance.fieldFromList (ht : Glance c b.input b.address n kids t)
    (hl : n.item.is isList = true) (i : Nat) :
    amqpFieldFromList c n.slot i = .ok (FieldNode.pointer (kids.nth i)) := by
  have hlist : t.typeIsList = true := by
    rw [AmqpType.typeIsList, ht.flags isList (by decide) (by decide), hl]
  have hcount : t.value.count = kids.length := by
    refine ht.count (Item.is_container hl (by decide)) fun harr => ?_
    obtain ⟨m, hm, hk⟩ := Item.array_of_is harr
    rw [Item.is_of_decoder hm] at hl
    simp only [EncodingMetaData.kind] at hk
    generalize m.typeDecoder = d at hl hk
    cases d <;> cases hk <;> cases hl
  simp only [amqpFieldFromList, ht.loaded, Fault.ok_bind, hlist, if_true, hcount]
  by_cases h : i < kids.length
  · rw [if_pos h, ht.elements (Item.is_container hl (by decide)) i _ (Layout.pointers_nth h)]
  · rw [if_neg h, Forest.nth_of_length_le kids i (Nat.le_of_not_lt h)]
    rfl

/-- The three fields of an error. -/
theorem errorFields_meets {list : Node} {fields : Layout} {tl : AmqpType}
    (htl : Glance c b.input b.address list fields tl) (hl : list.item.is isList = true)
    (hfields : fields.All (Seen c b)) (f : Field) :
    (((FieldReading.mandatory ((fields.reading b.input).nth 0) fun g _ => .ofBool (g.is isSymbol)).andThen
      (FieldReading.optional ((fields.reading b.input).nth 1) fun g _ => .ofBool (g.is isString))).andThen
      (FieldReading.optional ((fields.reading b.input).nth 2) fun g _ => .ofBool (g.is isMap))).Meets
      Fault.Real
      (do
        let (rc, condition) ← amqpDecodeMandatoryType .symbol c (← amqpFieldFromList c list.slot 0)
          f.condition
        let f := { f with condition := condition }
        if rc then do
          let (rc, description) ← amqpDecodeType .string c (← amqpFieldFromList c list.slot 1)
            f.description
          let f := { f with description := description }
          if rc then do
            let (rc, info) ← amqpDecodeType .map c (← amqpFieldFromList c list.slot 2) f.info
            .ok (rc, { f with info := info })
          else .ok (false, f)
        else .ok (false, f)) fun ok f' =>
        (ok = true → f'.isNull = f.isNull ∧
          f'.condition = ReferenceType.symbol.referTo (fields.nth 0) ∧
          f'.description = ReferenceType.string.referTo (fields.nth 1) ∧
          f'.info = ReferenceType.map.referTo (fields.nth 2)) ∧ (f.Clean → f'.Clean) := by
  have hassoc : ∀ u v w : Verdict, (u.andThen v).andThen w = u.andThen (v.andThen w) := by
    intro u v w
    cases u <;> rfl
  have h0 := amqpDecodeMandatoryType_meets .symbol (Forest.nth_isSeen hfields 0) f.condition
  have h1 := amqpDecodeType_meets .string (Forest.nth_isSeen hfields 1) f.description
  have h2 := amqpDecodeType_meets .map (Forest.nth_isSeen hfields 2) f.info
  simp only [htl.fieldFromList hl, Fault.ok_bind, Layout.reading_nth, hassoc]
  refine h0.bind (fun condition hc => ?_) fun condition hc => ?_
  · simp only [if_true]
    refine h1.bind (fun description hd => ?_) fun description hd => ?_
    · simp only [if_true]
      refine h2.map fun ok info hi => ⟨_, rfl, fun hok => ?_, fun hclean => ?_⟩
      · exact ⟨rfl, hc.1 rfl, hd.1 rfl, hi.1 hok⟩
      · exact ⟨hclean.ref, hc.2 hclean.condition, hd.2 hclean.description, hi.2 hclean.info⟩
    · refine ⟨_, rfl, fun h => (nomatch h), fun hclean => ?_⟩
      exact ⟨hclean.ref, hc.2 hclean.condition, hd.2 hclean.description, hclean.info⟩
  · refine ⟨_, rfl, fun h => (nomatch h), fun hclean => ?_⟩
    exact ⟨hclean.ref, hc.2 hclean.condition, hclean.description, hclean.info⟩

theorem amqpDecodeTypeAmqpError_meets (he : e.IsSeen c b) (f : Field) :
    ((e.reading b.input).optional errorVerdict).Meets Fault.Real
      (amqpDecodeTypeAmqpError c e.pointer f) fun ok f' =>
        (ok = true → f.isNull = false → FieldDecoder.Keeps b.input heap e f' .amqpError) ∧
          (f.Clean → f'.Clean) := by
  unfold amqpDecodeTypeAmqpError
  rcases he.cases with ⟨hp, hnull⟩ | ⟨n, kids, t, rfl, hp, hnull, hs, hks, ht⟩
  · rw [FieldNode.optional_none hp, hnull]
    refine ⟨_, rfl, fun _ _ => ?_, fun hc => ⟨hc.ref, rfl, rfl, rfl⟩⟩
    rw [FieldDecoder.Keeps, hp]
    exact ⟨rfl, rfl, rfl, rfl⟩
  · rw [FieldNode.optional_some hp, hnull, errorVerdict]
    have hgc : (n.item.glimpse b.input).is isComposite = n.item.is isComposite := rfl
    simp only [Fault.ok_bind, Bool.false_eq_true, if_false, loadType, FieldNode.pointer,
      Option.map_some, ht.loaded, AmqpType.typeIsComposite,
      ht.flags isComposite (by decide) (by decide), hgc]
    cases hcomp : n.item.is isComposite with
    | false => exact ⟨f, rfl, fun h => (by cases h), id⟩
    | true =>
      have hlen := ht.described hcomp
      have hget := ht.elements (Item.is_container hcomp (by decide)) 1 _
        (Layout.pointers_nth (by rw [hlen]; decide))
      simp only [if_true, hget, Fault.ok_bind, Layout.reading_nth]
      cases hnth : kids.nth 1 with
      | none => exact ⟨_, rfl, by decide⟩
      | some x =>
        obtain ⟨list, fields⟩ := x
        obtain ⟨hsl, hfields⟩ := hks.nth hnth
        obtain ⟨tl, htl⟩ := hsl.glance
        have hgl : (list.item.glimpse b.input).is isList = list.item.is isList := rfl
        simp only [FieldNode.pointer, FieldNode.reading, Option.map_some, htl.loaded, Fault.ok_bind,
          AmqpType.typeIsList, htl.flags isList (by decide) (by decide), hgl]
        cases hl : list.item.is isList with
        | false => exact ⟨f, rfl, fun h => (by cases h), id⟩
        | true =>
          simp only [if_true]
          refine (errorFields_meets htl hl hfields f).imp fun ok f' hq => ⟨fun hok hn => ?_, hq.2⟩
          rw [FieldDecoder.Keeps, hp, (hq.1 hok).1]
          exact ⟨hn, list, fields, hnth, (hq.1 hok).2⟩

/-! ## Field decoders -/

/-- What a field decoder leaves: `x` for the field `f`, and the memory it took. -/
def FieldResult (d : FieldDecoder) (inp : Input) (heap : SymbolHeap) (e : FieldNode) (f : Field)
    (ok : Bool) (x : Field × SymbolHeap) : Prop :=
  (ok = true → f.isNull = false → d.Keeps inp x.2 e x.1) ∧
    ∃ A, heap.Gains x.2 A ∧ (f.Clean → d.Owns x.1 A)

/-- A decoder that sets the reference of a field. -/
theorem liftRef_meets {d : FieldDecoder} {v : Verdict} {r : Except Fault (Bool × TypeRef)}
    {q : Bool → TypeRef → Prop} (h : v.Meets Fault.Real r q)
    (hq : ∀ ok r', q ok r' → (ok = true → d.Keeps b.input heap e { f with ref := r' }) ∧
      (f.ref.data = 0 → r'.data = 0)) :
    v.Meets Fault.Real (liftRef f heap r) (FieldResult d b.input heap e f) := by
  unfold liftRef
  refine h.map fun ok r' hr => ⟨_, rfl, fun hok _ => (hq ok r' hr).1 hok, [], Heap.Gains.refl heap,
    fun hc => .inl ⟨rfl, ?_⟩⟩
  exact ⟨(hq ok r' hr).2 hc.ref, hc.condition, hc.description, hc.info⟩

/-- A decoder that changes a field and allocates nothing. -/
theorem liftField_meets {d : FieldDecoder} {v : Verdict} {r : Except Fault (Bool × Field)}
    {q : Bool → Field → Prop} (h : v.Meets Fault.Real r q)
    (hq : ∀ ok f', q ok f' → (ok = true → f.isNull = false → d.Keeps b.input heap e f') ∧
      (f.Clean → f'.Clean)) :
    v.Meets Fault.Real (liftField heap r) (FieldResult d b.input heap e f) := by
  unfold liftField
  exact h.map fun ok f' hf => ⟨_, rfl, fun hok hn => (hq ok f' hf).1 hok hn, [], Heap.Gains.refl heap,
    fun hc => .inl ⟨rfl, (hq ok f' hf).2 hc⟩⟩

theorem liftMultiple_meets {d : FieldDecoder} {v : Verdict}
    {r : Except Fault (Bool × TypeRef × SymbolHeap)} (hd : d.isMultiple = true)
    (hkeeps : ∀ {heap' f'}, d.Keeps b.input heap' e f' ↔ f'.ref.KeepsSymbols heap' e)
    (h : v.Meets Fault.Real r (MultipleResult heap e f.ref)) :
    v.Meets Fault.Real (liftMultiple f r) (FieldResult d b.input heap e f) := by
  unfold liftMultiple
  refine h.map fun ok x hx => ⟨({ f with ref := x.1 }, x.2), rfl, fun hok _ => ?_, ?_⟩
  · exact hkeeps.2 (hx.1 hok)
  · obtain ⟨A, hg, hA⟩ := hx.2
    refine ⟨A, hg, fun hc => ?_⟩
    rcases hA hc.ref with ⟨hnil, hdata⟩ | ⟨hA, hne, htable⟩
    · exact .inl ⟨hnil, hdata, hc.condition, hc.description, hc.info⟩
    · exact .inr ⟨hd, hA, hne, htable⟩

/-- A field decoder ends as its verdict on the field says. -/
theorem FieldDecoder.decode_meets (d : FieldDecoder) (heap : SymbolHeap) (he : e.IsSeen c b) (f : Field) :
    (d.verdict (e.reading b.input)).Meets Fault.Real (d.decode c heap e.pointer f)
      (FieldResult d b.input heap e f) := by
  cases d with
  | type ft =>
    exact liftRef_meets (amqpDecodeType_meets ft he f.ref) fun ok r' h => ⟨fun hok => h.1 hok, h.2⟩
  | mandatoryType ft =>
    exact liftRef_meets (amqpDecodeMandatoryType_meets ft he f.ref) fun ok r' h =>
      ⟨fun hok => h.1 hok, h.2⟩
  | primitive ft default =>
    exact liftField_meets (amqpDecodePrimitive_meets ft default he f) fun ok f' h =>
      ⟨fun hok hn => ⟨(h.1 hok).1, (h.1 hok).2 hn⟩, h.2⟩
  | mandatoryPrimitive ft =>
    exact liftField_meets (amqpDecodeMandatoryPrimitive_meets ft he f) fun ok f' h =>
      ⟨fun hok hn => ⟨(h.1 hok).1, (h.1 hok).2 hn⟩, h.2⟩
  | mandatorySaslCode =>
    exact liftField_meets (restrictRange_meets (amqpDecodeMandatoryPrimitive_meets .ubyte he f))
      fun ok f' h => ⟨fun hok hn => ⟨(h.1 hok).1, (h.1 hok).2 hn⟩, h.2⟩
  | senderSettleMode default =>
    exact liftField_meets (restrictRange_meets (amqpDecodePrimitive_meets .ubyte default he f))
      fun ok f' h => ⟨fun hok hn => ⟨(h.1 hok).1, (h.1 hok).2 hn⟩, h.2⟩
  | receiverSettleMode default =>
    exact liftField_meets (restrictRange_meets (amqpDecodePrimitive_meets .ubyte default he f))
      fun ok f' h => ⟨fun hok hn => ⟨(h.1 hok).1, (h.1 hok).2 hn⟩, h.2⟩
  | multipleSymbol =>
    exact liftMultiple_meets rfl Iff.rfl (amqpMultipleSymbolInitialize_meets heap he f.ref)
  | mandatoryMultipleSymbol =>
    exact liftMultiple_meets rfl Iff.rfl (amqpDecodeMandatoryMultipleTypeSymbol_meets he f.ref)
  | amqpError => exact liftField_meets (amqpDecodeTypeAmqpError_meets he f) fun ok f' h => h
  | wildcard decoder =>
    have h : Verdict.accepted.Meets Fault.Real (decodeTypeWildcard decoder c e.pointer) fun _ r' =>
        FieldDecoder.Keeps b.input heap e { f with ref := r' } (.wildcard decoder) ∧ r'.data = 0 := by
      unfold decodeTypeWildcard
      rcases he.cases with ⟨hp, hnull⟩ | ⟨n, kids, t, rfl, hp, hnull, -⟩
      · rw [hnull]
        exact ⟨_, rfl, by simp only [FieldDecoder.Keeps, hp], rfl⟩
      · rw [hnull]
        exact ⟨_, rfl, by simp only [FieldDecoder.Keeps, hp, FieldNode.pointer, Option.map_some], rfl⟩
    exact liftRef_meets h fun ok r' hr => ⟨fun _ => hr.1, fun _ => hr.2⟩

/-! ## Lists of fields -/

/-- The symbols of the fields from `i` on. -/
def FieldsOwn (fields : Nat → Field) : List FieldDecoder → Nat → List Nat → Prop
  | [], _, A => A = []
  | d :: ds, i, A => ∃ A1 A2, A = A1 ++ A2 ∧ d.Owns (fields i) A1 ∧ FieldsOwn fields ds (i + 1) A2

theorem fieldsOwn_clean {fields : Nat → Field} (ds : List FieldDecoder) :
    ∀ i, (∀ k, i ≤ k → (fields k).Clean) → FieldsOwn fields ds i [] := by
  induction ds with
  | nil => exact fun _ _ => rfl
  | cons d ds ih =>
    intro i h
    exact ⟨[], [], rfl, .inl ⟨rfl, h i (Nat.le_refl i)⟩, ih (i + 1) fun k hk => h k (by omega)⟩

/-- Accepted fields stay what they are while others are decoded. -/
theorem FieldDecoder.Keeps.gains {d : FieldDecoder} {inp : Input} {heap' : SymbolHeap} {A : List Nat}
    (h : d.Keeps inp heap e f) (hg : heap.Gains heap' A) : d.Keeps inp heap' e f := by
  cases d with
  | multipleSymbol => exact ⟨h.type, h.size, h.none, fun hne => hg.get_some (h.some hne)⟩
  | mandatoryMultipleSymbol => exact ⟨h.type, h.size, h.none, fun hne => hg.get_some (h.some hne)⟩
  | _ => exact h

/-- What the decoder of a list of fields leaves, from field `i` on. -/
structure FieldsResult (ds : List FieldDecoder) (i : Nat) (inp : Input) (heap : SymbolHeap)
    (kids : Layout) (fields : Nat → Field) (ok : Bool) (x : (Nat → Field) × SymbolHeap) : Prop where
  before : ∀ k < i, x.1 k = fields k
  keeps : ok = true → ∀ j d, ds[j]? = some d → (fields (i + j)).isNull = false →
    d.Keeps inp x.2 (kids.nth (i + j)) (x.1 (i + j))
  owns : ∃ A, heap.Gains x.2 A ∧ ((∀ k, i ≤ k → (fields k).Clean) → FieldsOwn x.1 ds i A)

/-- The field that was just decoded, and what the rest leaves. -/
theorem FieldsResult.cons {d : FieldDecoder} {ds : List FieldDecoder} {i : Nat} {inp : Input}
    {heap' : SymbolHeap} {fields : Nat → Field} {f' : Field} {ok : Bool}
    {x : (Nat → Field) × SymbolHeap}
    (hd : FieldResult d inp heap (kids.nth i) (fields i) true (f', heap'))
    (h : FieldsResult ds (i + 1) inp heap' kids (fun k => if k = i then f' else fields k) ok x) :
    FieldsResult (d :: ds) i inp heap kids fields ok x := by
  obtain ⟨hkeeps, A1, hg1, hA1⟩ := hd
  obtain ⟨A2, hg2, hA2⟩ := h.owns
  have hfield : x.1 i = f' := by rw [h.before i (Nat.lt_succ_self i), if_pos rfl]
  refine ⟨fun k hk => ?_, fun hok j d' hj hn => ?_, A1 ++ A2, hg1.trans hg2, fun hc => ?_⟩
  · rw [h.before k (by omega), if_neg (by omega)]
  · cases j with
    | zero =>
      rw [List.getElem?_cons_zero, Option.some.injEq] at hj
      subst hj
      rw [Nat.add_zero, hfield]
      exact (hkeeps rfl hn).gains hg2
    | succ j =>
      rw [List.getElem?_cons_succ] at hj
      have hrest := h.keeps hok j d' hj
      rw [show i + 1 + j = i + (j + 1) by omega] at hrest
      exact hrest (by simp only [if_neg (show ¬ i + (j + 1) = i by omega)]; exact hn)
  · refine ⟨A1, A2, rfl, ?_, ?_⟩
    · rw [hfield]
      exact hA1 (hc i (Nat.le_refl i))
    · refine hA2 fun k hk => ?_
      rw [if_neg (by omega)]
      exact hc k (by omega)

/-- The decoder of a list of fields ends as the verdict on them says. -/
theorem decodeFields_meets (ht : Glance c b.input b.address n kids t)
    (hl : n.item.is isList = true) (hks : kids.All (Seen c b)) (ds : List FieldDecoder) :
    ∀ (i : Nat) (heap : SymbolHeap) (fields : Nat → Field),
      (fieldsVerdict (kids.reading b.input) ds i).Meets Fault.Real
        (decodeFields c n.slot ds i heap fields) (FieldsResult ds i b.input heap kids fields) := by
  induction ds with
  | nil =>
    intro i heap fields
    refine ⟨(fields, heap), rfl, fun _ _ => rfl, fun _ j d hj => ?_, [], Heap.Gains.refl heap,
      fun _ => rfl⟩
    cases hj
  | cons d ds ih =>
    intro i heap fields
    have hd := d.decode_meets heap (Forest.nth_isSeen hks i) (fields i)
    rw [fieldsVerdict, decodeFields, Layout.reading_nth, ht.fieldFromList hl, Fault.ok_bind]
    refine hd.bind (fun x hx => ?_) fun x hx => ?_
    · simp only [if_true]
      exact (ih (i + 1) x.2 _).imp fun ok y hy => hy.cons hx
    · refine ⟨_, rfl, fun k hk => if_neg (Nat.ne_of_lt hk), fun h => (nomatch h), ?_⟩
      obtain ⟨-, A, hg, hA⟩ := hx
      refine ⟨A, hg, fun hc => ⟨A, [], (List.append_nil A).symm, ?_, ?_⟩⟩
      · simp only [if_true]
        exact hA (hc i (Nat.le_refl i))
      · refine fieldsOwn_clean ds (i + 1) fun k hk => ?_
        simp only [if_neg (show ¬ k = i by omega)]
        exact hc k (by omega)

/-! ## Cleanup -/

/-- A reference that owns nothing. -/
theorem TypeRef.cleanup_clean {r : TypeRef} (h : r.data = 0) : r.cleanup heap = .ok (heap, []) := by
  unfold TypeRef.cleanup
  split
  · rfl
  · rfl
  · rw [if_pos h]

/-- The cleanup of a field gives back what the field owns. -/
theorem FieldDecoder.cleanup_spec {d : FieldDecoder} {A : List Nat} (h : d.Owns f A)
    (hdom : ∀ a ∈ A, a ∈ heap.dom) : ∃ heap', d.cleanup f heap = .ok (heap', A) ∧
      (∀ a, heap'.get a = if a ∈ A then none else heap.get a) := by
  rcases h with ⟨rfl, hc⟩ | ⟨hd, rfl, hne, htable⟩
  · refine ⟨heap, ?_, fun a => by simp⟩
    cases d with
    | amqpError =>
      rw [FieldDecoder.cleanup, amqpAmqpErrorCleanup]
      cases f.isNull with
      | true => rfl
      | false =>
        simp only [Bool.false_eq_true, if_false, TypeRef.cleanup_clean hc.condition,
          TypeRef.cleanup_clean hc.description, TypeRef.cleanup_clean hc.info, Fault.ok_bind,
          List.append_nil]
    | primitive _ _ => rfl
    | mandatoryPrimitive _ => rfl
    | mandatorySaslCode => rfl
    | senderSettleMode _ => rfl
    | receiverSettleMode _ => rfl
    | _ => exact TypeRef.cleanup_clean hc.ref
  · obtain ⟨v, hv⟩ := Heap.mem_dom_iff.1 (hdom _ (.head _))
    have hrun : f.ref.cleanup heap = .ok (heap.free f.ref.data, [f.ref.data]) := by
      simp only [TypeRef.cleanup, htable, if_neg hne, hv]
    refine ⟨heap.free f.ref.data, ?_, fun a => ?_⟩
    · cases d with
      | multipleSymbol => exact hrun
      | mandatoryMultipleSymbol => exact hrun
      | _ => cases hd
    · rw [Heap.get_free]
      simp only [List.mem_singleton]

/-- The cleanup of a performative gives back what its fields own. -/
theorem cleanupFields_spec {fields : Nat → Field} (ds : List FieldDecoder) :
    ∀ (i : Nat) (A : List Nat) (heap : SymbolHeap), FieldsOwn fields ds i A → A.Nodup →
      (∀ a ∈ A, a ∈ heap.dom) → ∃ heap', cleanupFields fields ds i heap = .ok (heap', A) ∧
        (∀ a, heap'.get a = if a ∈ A then none else heap.get a) := by
  induction ds with
  | nil =>
    rintro i A heap rfl - -
    exact ⟨heap, rfl, fun a => by simp⟩
  | cons d ds ih =>
    rintro i A heap ⟨A1, A2, rfl, h1, h2⟩ hnodup hdom
    rw [List.nodup_append] at hnodup
    obtain ⟨-, hnodup2, hdisj⟩ := hnodup
    obtain ⟨heap1, hrun1, hget1⟩ := d.cleanup_spec h1 fun a ha =>
      hdom a (List.mem_append.2 (.inl ha))
    obtain ⟨heap2, hrun2, hget2⟩ := ih (i + 1) A2 heap1 h2 hnodup2 fun a ha => by
      have hA1 : a ∉ A1 := fun h => hdisj a h a ha rfl
      obtain ⟨v, hv⟩ := Heap.mem_dom_iff.1 (hdom a (List.mem_append.2 (.inr ha)))
      exact Heap.mem_dom_iff.2 ⟨v, by rw [hget1, if_neg hA1, hv]⟩
    refine ⟨heap2, ?_, fun a => ?_⟩
    · simp only [cleanupFields, hrun1, hrun2, Fault.ok_bind]
    · rw [hget2, hget1]
      by_cases ha1 : a ∈ A1 <;> by_cases ha2 : a ∈ A2 <;> simp [ha1, ha2]

end
end Amqp
