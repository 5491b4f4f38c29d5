import LibAmqp.Transport.Proof.Cleanup
import LibAmqp.Transport.Proof.Encode

/-!
# What the frame decoder receives

* `FieldValue.accepted`: a field with the bytes of a value that its decoder takes is accepted.
* `FieldDecoder.Keeps.receives`: it holds the value then.
-/

namespace Amqp

open Lib Memory

/-! ## Values that were found -/

/-- A type with the bytes of a value without elements. -/
structure Item.Says (inp : Input) (inArray : Bool) (item : Item) (l : Leaf) : Prop where
  accepted : item.accepted = true
  code : item.code = (l.part inArray).code
  bytes : inp.bytes item.index item.size = (l.encoding inArray).2

section
variable {inp : Input} {inArray : Bool} {item : Item} {l : Leaf} {v : Scalar} {c : Context} {b : Buffer}
  {heap : SymbolHeap} {d : FieldDecoder} {f : Field}

theorem Item.Says.metaData (h : item.Says inp inArray l) : item.metaData = some (l.encoding inArray).1 :=
  (Item.kind_of_code (l.encoding_mem inArray) h.code).1

/-- A flag of the type is a flag of the value. -/
theorem Item.Says.is (h : item.Says inp inArray l) {mask : TypedefFlags} (hmask : valueMask &&& mask = mask) :
    item.is mask = (l.value.flags &&& mask != 0#32) := by
  have hcode : codeFlags item.code = (l.encoding inArray).1.typedefFlags := by
    rw [codeFlags, show amqpTypeMetaDataLookup item.code = _ from h.metaData]
    rfl
  rw [Item.is, hcode, ← l.encoding_flags inArray, BitVec.and_assoc, hmask]

/-- The value union of a number. -/
theorem Item.Says.stored {item : Item} (h : item.Says b.input inArray l) (hexact : l.exact = true)
    (hk : (l.encoding inArray).1.kind = .zero ∨ (l.encoding inArray).1.kind = .fixed) {t : AmqpType}
    (hvalue : t.value = (item.glimpse b.input).number)
    (hposition : t.position = ⟨item.index, item.size⟩) : l.value.Stored b t := by
  have hacc : (item.glimpse b.input).accepted = true := h.accepted
  have hmeta : (item.glimpse b.input).metaData = some (l.encoding inArray).1 := h.metaData
  have hbytes : (item.glimpse b.input).bytes = (l.encoding inArray).2 := h.bytes
  refine (Leaf.stored_iff inArray ?_ ?_).2 hexact
  · rw [hvalue, Glimpse.number, hmeta]
    dsimp only
    rw [if_pos hacc, hbytes]
    exact fill_address hk _ _ _ _
  · rw [hposition]
    exact h.bytes

/-! ## Numbers -/

theorem Scalar.number_flags {ft : PrimitiveType} {n : Int} (h : v.number ft = some n) :
    (v.flags &&& ft.flags.1 != 0#32) = true ∧
      (match ft.flags.2 with
        | some unsigned => (v.flags &&& isUnsigned != 0#32) == unsigned
        | none => true) = true := by
  cases ft <;> cases v <;> cases h <;> simp only [Scalar.flags, PrimitiveType.flags] <;> decide

theorem Scalar.number_kind {ft : PrimitiveType} {n : Int} (h : v.number ft = some n) :
    (v.encoding false).1.kind = .zero ∨ (v.encoding false).1.kind = .fixed := by
  cases ft <;> cases v <;> try cases h
  all_goals
    simp only [Scalar.encoding]
    (repeat' split) <;> first | decide | (dsimp only; decide)

theorem Scalar.number_read {ft : PrimitiveType} {n : Int} {t : AmqpType} (h : v.number ft = some n)
    (hstored : v.Stored b t) : ft.read t.value = n := by
  have hint : ∀ {w : Nat} (x : BitVec w) {k : Nat}, k = x.toNat → (BitVec.ofNat w k).toInt = x.toInt := by
    rintro w x _ rfl
    rw [BitVec.ofNat_toNat, BitVec.setWidth_eq]
  cases ft <;> cases v <;> try cases h
  case boolean.boolean v =>
    have hlow : t.value.low 1 = if v then 1 else 0 := hstored
    rw [PrimitiveType.read, hlow]
    cases v <;> rfl
  case byte.byte v | short.short v | int.int v | long.long v => exact hint v hstored
  all_goals exact congrArg Int.ofNat hstored

/-- A number is taken for what it is. -/
theorem Item.Says.number {ft : PrimitiveType} {n : Int} {item : Item}
    (h : item.Says b.input false (.scalar v)) (hn : v.number ft = some n) :
    ft.fits (item.glimpse b.input) = true ∧ ft.read (item.glimpse b.input).number = n := by
  have hstored := h.stored rfl (Scalar.number_kind hn) (t := { AmqpType.zero with
    value := (item.glimpse b.input).number, position := ⟨item.index, item.size⟩ }) rfl rfl
  refine ⟨?_, Scalar.number_read hn hstored⟩
  obtain ⟨hflag, hsign⟩ := Scalar.number_flags hn
  have his : ∀ mask, valueMask &&& mask = mask →
      (item.glimpse b.input).is mask = (v.flags &&& mask != 0#32) := fun mask hm => h.is hm
  rw [PrimitiveType.fits, his _ (by cases ft <;> decide), his isUnsigned (by decide), hflag, Bool.true_and]
  exact hsign

/-! ## Texts -/

theorem Scalar.text_flags {ft : ReferenceType} {bytes : List UInt8} (h : v.text ft = some bytes) :
    (v.flags &&& ft.mask != 0#32) = true ∧ v.flags &&& isNull = 0#32 ∧
      (v.encoding false).2 = bytes := by
  cases ft <;> cases v <;> cases h <;> refine ⟨?_, ?_, rfl⟩ <;> simp only [Scalar.flags] <;> decide

/-- A type in the layout with these bytes is a text with them in memory. -/
theorem refer_spells {n : Node} {kids : Layout} {name : List UInt8} (hs : Seen c b n kids)
    (ft : ReferenceType) (hft : ft ≠ .map) (hflag : n.item.is ft.mask = true)
    (hbytes : b.input.bytes n.item.index n.item.size = name) : (ft.refer n kids).Spells c b name := by
  obtain ⟨t, ht⟩ := hs.glance
  have hsize : n.item.size = name.length := by
    rw [← hbytes, Input.bytes, List.length_map, List.length_range]
  have hposition : t.position.size = n.item.size := ht.size (Item.known_of_is hflag)
  have hname : b.bytes t.position.index t.position.size = name := by
    rw [hposition]
    by_cases h0 : n.item.size = 0
    · rw [h0] at hsize ⊢
      rw [List.eq_nil_of_length_eq_zero hsize.symm]
      rfl
    · rw [ht.index (Item.known_of_is hflag) h0]
      exact hbytes
  have hrefer : ft.refer n kids = ⟨some .variable, some n.slot, n.item.size, 0, none⟩ := by
    cases ft with
    | map => exact absurd rfl hft
    | symbol | binary | string => rfl
  rw [hrefer]
  exact ⟨by rw [hsize], n.slot, t, rfl, ht.load, hname⟩

/-! ## Fields -/

/-- The symbols of an array, as they were found. -/
def SymbolsFound (inp : Input) : Layout → List (List UInt8) → Prop
  | .nil, [] => True
  | .node n kids rest, name :: names => kids = .nil ∧ n.item.Says inp true (.symbolSym8 name) ∧
      SymbolsFound inp rest names
  | _, _ => False

/-- A field has the bytes of a value. -/
def FieldNode.Says (inp : Input) (e : FieldNode) : FieldValue → Prop
  | .scalar v => (e = none ∧ v = .null) ∨ ∃ n, e = some (n, .nil) ∧ n.item.Says inp false (.scalar v)
  | .symbols names => ∃ n kids code, e = some (n, kids) ∧
      (∀ mask, valueMask &&& mask = mask → n.item.is mask = (isArray &&& mask != 0#32)) ∧
      (n.item.glimpse inp).elementCode = some code ∧ (codeFlags code &&& isSymbol != 0#32) = true ∧
      SymbolsFound inp kids names

variable {e : FieldNode} {value : FieldValue} {names : List (List UInt8)}

theorem SymbolsFound.length {kids : Layout} (h : SymbolsFound inp kids names) : kids.length = names.length := by
  induction kids generalizing names with
  | nil =>
    cases names with
    | nil => rfl
    | cons => exact h.elim
  | hole rest => cases names <;> exact h.elim
  | node n ks rest _ ih =>
    cases names with
    | nil => exact h.elim
    | cons name names => exact congrArg (· + 1) (ih h.2.2)

/-- The references to the symbols spell their names. -/
theorem SymbolsFound.spells {kids : Layout} (h : SymbolsFound b.input kids names)
    (hks : kids.All (Seen c b)) : List.Forall₂ (TypeRef.Spells c b) (Layout.symbols kids) names := by
  induction kids generalizing names with
  | nil =>
    cases names with
    | nil => exact .nil
    | cons => exact h.elim
  | hole rest => cases names <;> exact h.elim
  | node n ks rest _ ih =>
    cases names with
    | nil => exact h.elim
    | cons name names =>
      obtain ⟨rfl, hsaid, hrest⟩ := h
      have hflag : n.item.is isSymbol = true := by
        rw [hsaid.is (by decide)]
        simp only [Leaf.value, Scalar.flags]
        decide
      exact .cons (refer_spells hks.1 .symbol (by decide) hflag hsaid.bytes) (ih hrest hks.2.2)

/-- A field that is null for the one who sent it. -/
theorem FieldNode.Says.present (h : e.Says inp value) :
    (value.isNull = true ∧ e.present = none) ∨ (value.isNull = false ∧ e.present = e ∧ e ≠ none) := by
  cases value with
  | scalar v =>
    rcases h with ⟨rfl, rfl⟩ | ⟨n, rfl, hsaid⟩
    · exact .inl ⟨rfl, rfl⟩
    · have hflag : n.item.is isNull = (v.flags &&& isNull != 0#32) := hsaid.is (by decide)
      cases v with
      | null =>
        have hyes : n.item.is isNull = true := hflag.trans (by decide)
        exact .inl ⟨rfl, by simp [FieldNode.present, hyes]⟩
      | boolean | ubyte | byte | ushort | short | uint | int | ulong | long | timestamp | float | double
      | uuid | binary | string | symbol =>
        refine .inr ⟨rfl, ?_, Option.some_ne_none _⟩
        have hno : n.item.is isNull = false := hflag.trans (by simp only [Scalar.flags]; decide)
        simp [FieldNode.present, hno]
  | symbols names =>
    obtain ⟨n, kids, code, rfl, hflags, -⟩ := h
    have hno : n.item.is isNull = false := (hflags _ (by decide)).trans (by decide)
    exact .inr ⟨rfl, by simp [FieldNode.present, hno], Option.some_ne_none _⟩

/-! ## What field decoders make of them -/

/-- A field whose decoder looks for a text. -/
theorem FieldNode.Says.text {ft : ReferenceType} {bytes : List UInt8} (h : e.Says b.input value)
    (ht : value.text ft = some bytes) : ∃ n, e = some (n, .nil) ∧ e.present = some (n, .nil) ∧
      n.item.is ft.mask = true ∧ b.input.bytes n.item.index n.item.size = bytes ∧ ft ≠ .map := by
  cases value with
  | symbols names => cases ht
  | scalar v =>
    obtain ⟨hflag, hnull, hbytes⟩ := Scalar.text_flags (v := v) ht
    rcases h with ⟨rfl, rfl⟩ | ⟨n, rfl, hsaid⟩
    · cases ft <;> cases ht
    · have hno : n.item.is isNull = false := by
        rw [hsaid.is (by decide)]
        show (v.flags &&& isNull != 0#32) = false
        rw [hnull]
        decide
      refine ⟨n, rfl, by simp [FieldNode.present, hno], ?_, hsaid.bytes.trans hbytes, ?_⟩
      · rw [hsaid.is (by cases ft <;> decide)]
        exact hflag
      · rintro rfl
        cases v <;> cases ht

/-- A field whose decoder looks for a number. -/
theorem FieldNode.Says.number {ft : PrimitiveType} {k : Int} (h : e.Says b.input value)
    (hn : value.number ft = some k) : ∃ n, e = some (n, .nil) ∧ e.present = some (n, .nil) ∧
      ft.fits (n.item.glimpse b.input) = true ∧ ∀ default, ft.valueOf default (e.reading b.input) = k := by
  cases value with
  | symbols names => cases hn
  | scalar v =>
    have hpresent := FieldNode.Says.present h
    rcases h with ⟨rfl, rfl⟩ | ⟨n, rfl, hsaid⟩
    · cases ft <;> cases hn
    · rcases hpresent with ⟨hnull, -⟩ | ⟨-, hp, -⟩
      · cases v <;> cases hnull
        cases ft <;> cases hn
      · obtain ⟨hfits, hread⟩ := hsaid.number hn
        refine ⟨n, rfl, hp, hfits, fun default => ?_⟩
        rw [PrimitiveType.valueOf_some hp]
        exact hread

theorem FieldNode.Says.null (h : e.Says inp value) (hv : value.isNull = true) : e.present = none := by
  rcases h.present with ⟨-, hp⟩ | ⟨hno, -⟩
  · exact hp
  · rw [hno] at hv
    cases hv

/-- A field whose decoder looks for symbols. -/
theorem FieldNode.Says.symbols (h : e.Says b.input value) (hne : value.names ≠ [])
    (hshort : value.names.length < 2 ^ 31) : ∃ n kids, e.present = some (n, kids) ∧
      symbolsVerdict (n.item.glimpse b.input) (Layout.reading b.input kids) = .accepted ∧
      ((n.item.glimpse b.input).is isSymbol || (Layout.reading b.input kids).length != 0) = true ∧
      ∀ c, e.IsSeen c b → List.Forall₂ (TypeRef.Spells c b) e.symbols value.names := by
  cases value with
  | scalar v =>
    cases ht : v.text .symbol with
    | none => exact absurd (by rw [FieldValue.names, ht]; rfl) hne
    | some name =>
      have htext : (FieldValue.scalar v).text .symbol = some name := ht
      obtain ⟨n, rfl, hp, hflag, hbytes, -⟩ := FieldNode.Says.text h htext
      have hg : (n.item.glimpse b.input).is isSymbol = true := hflag
      refine ⟨n, .nil, hp, by rw [symbolsVerdict, if_pos hg], by rw [hg, Bool.true_or], fun c hseen => ?_⟩
      rw [FieldNode.symbols, hp]
      dsimp only
      rw [if_pos (show n.item.is isSymbol = true from hflag), FieldValue.names, ht]
      exact .cons (refer_spells (hseen n .nil rfl).1 .symbol (by decide) hflag hbytes) .nil
  | symbols names =>
    obtain ⟨n, kids, code, rfl, hflags, hcode, hsymbol, hfound⟩ := h
    have hno : n.item.is isNull = false := (hflags _ (by decide)).trans (by decide)
    have hsym : n.item.is isSymbol = false := (hflags _ (by decide)).trans (by decide)
    have harr : n.item.is isArray = true := (hflags _ (by decide)).trans (by decide)
    have hp : FieldNode.present (some (n, kids)) = some (n, kids) := by simp [FieldNode.present, hno]
    have hlen : (Layout.reading b.input kids).length = names.length := by
      rw [Layout.reading, read, Layout.outline, Forest.length_map, Forest.length_map, hfound.length]
    refine ⟨n, kids, hp, ?_, ?_, fun c hseen => ?_⟩
    · rw [symbolsVerdict, if_neg (by rw [show (n.item.glimpse b.input).is isSymbol = _ from hsym]; decide),
        if_pos (show (n.item.glimpse b.input).is isArray = true from harr), hcode]
      dsimp only
      rw [if_pos hsymbol, hlen]
      exact if_neg (Nat.not_le.2 hshort)
    · rw [hlen, Bool.or_eq_true, bne_iff_ne]
      exact .inr fun h0 => hne (List.eq_nil_of_length_eq_zero h0)
    · rw [FieldNode.symbols, hp]
      dsimp only
      rw [if_neg (by rw [hsym]; decide)]
      exact hfound.spells (hseen n kids rfl).2

theorem FieldValue.isNull_iff : value.isNull = true ↔ value = .scalar .null := by
  cases value with
  | symbols names => exact ⟨(fun h => by cases h), fun h => by cases h⟩
  | scalar v => cases v <;> simp [FieldValue.isNull]

theorem FieldValue.text_null {ft : ReferenceType} (h : value.isNull = true) : value.text ft = none := by
  rw [FieldValue.isNull_iff.1 h]
  cases ft <;> rfl

theorem FieldValue.number_null {ft : PrimitiveType} (h : value.isNull = true) : value.number ft = none := by
  rw [FieldValue.isNull_iff.1 h]
  cases ft <;> rfl

theorem FieldValue.names_null (h : value.isNull = true) : value.names = [] := by
  rw [FieldValue.isNull_iff.1 h]
  rfl

theorem FieldValue.isNull_of_number {ft : PrimitiveType} {k : Int} (h : value.number ft = some k) :
    value.isNull = false := Bool.eq_false_iff.2 fun hnull => by
  rw [FieldValue.number_null hnull] at h
  cases h

/-- A number that is not above the limit, or the default for null. -/
theorem FieldNode.Says.range {limit default : Int} (h : e.Says b.input value)
    (ht : (if value.isNull then some default else value.number .ubyte).any (· ≤ limit) = true) :
    rangeVerdict limit default (e.reading b.input)
      ((e.reading b.input).optional fun g _ => .ofBool (PrimitiveType.ubyte.fits g)) = .accepted := by
  cases hnull : value.isNull with
  | true =>
    rw [hnull, if_pos rfl, Option.any_some] at ht
    have hp := h.null hnull
    rw [rangeVerdict, FieldNode.optional_none hp, PrimitiveType.valueOf_none hp, ht]
    rfl
  | false =>
    rw [hnull, if_neg Bool.false_ne_true] at ht
    cases hn : value.number .ubyte with
    | none =>
      rw [hn] at ht
      cases ht
    | some k =>
      obtain ⟨n, rfl, hp, hfits, hvalue⟩ := h.number hn
      rw [hn, Option.any_some] at ht
      rw [rangeVerdict, FieldNode.optional_some hp, hfits, hvalue, ht]
      rfl

/-- A field is accepted if its decoder takes the value. -/
theorem FieldNode.Says.accepted (h : e.Says b.input value) (ht : d.takes value = true)
    (hshort : value.names.length < 2 ^ 31) : d.verdict (e.reading b.input) = .accepted := by
  cases d with
  | type ft =>
    rw [FieldDecoder.takes, Bool.or_eq_true, Option.isSome_iff_exists] at ht
    rcases ht with hnull | ⟨bytes, htext⟩
    · exact FieldNode.optional_none (h.null hnull) _
    · obtain ⟨n, rfl, hp, hflag, -⟩ := h.text htext
      rw [FieldDecoder.verdict, FieldNode.optional_some hp,
        show (n.item.glimpse b.input).is ft.mask = true from hflag]
      rfl
  | mandatoryType ft =>
    rw [FieldDecoder.takes, Option.isSome_iff_exists] at ht
    obtain ⟨bytes, htext⟩ := ht
    obtain ⟨n, rfl, hp, hflag, -⟩ := h.text htext
    rw [FieldDecoder.verdict, FieldNode.mandatory_some hp,
      show (n.item.glimpse b.input).is ft.mask = true from hflag]
    rfl
  | primitive ft default =>
    rw [FieldDecoder.takes, Bool.or_eq_true, Option.isSome_iff_exists] at ht
    rcases ht with hnull | ⟨k, hn⟩
    · exact FieldNode.optional_none (h.null hnull) _
    · obtain ⟨n, rfl, hp, hfits, -⟩ := h.number hn
      rw [FieldDecoder.verdict, FieldNode.optional_some hp, hfits]
      rfl
  | mandatoryPrimitive ft =>
    rw [FieldDecoder.takes, Option.isSome_iff_exists] at ht
    obtain ⟨k, hn⟩ := ht
    obtain ⟨n, rfl, hp, hfits, -⟩ := h.number hn
    rw [FieldDecoder.verdict, FieldNode.mandatory_some hp, hfits]
    rfl
  | mandatorySaslCode =>
    rw [FieldDecoder.takes, Option.any_eq_true] at ht
    obtain ⟨k, hn, hle⟩ := ht
    obtain ⟨n, rfl, hp, hfits, hvalue⟩ := h.number hn
    rw [FieldDecoder.verdict, rangeVerdict, FieldNode.mandatory_some hp, hfits, hvalue, hle]
    rfl
  | senderSettleMode default | receiverSettleMode default => exact h.range ht
  | multipleSymbol =>
    rw [FieldDecoder.takes, Bool.or_eq_true, Bool.not_eq_true', List.isEmpty_eq_false_iff] at ht
    rcases ht with hnull | hne
    · exact FieldNode.optional_none (h.null hnull) _
    · obtain ⟨n, kids, hp, hverdict, -⟩ := h.symbols hne hshort
      rw [FieldDecoder.verdict, FieldNode.optional_some hp, hverdict]
  | mandatoryMultipleSymbol =>
    rw [FieldDecoder.takes, Bool.not_eq_true', List.isEmpty_eq_false_iff] at ht
    obtain ⟨n, kids, hp, hverdict, hlen, -⟩ := h.symbols ht hshort
    rw [FieldDecoder.verdict, FieldNode.mandatory_some hp, FieldNode.mandatory_some hp, hverdict, hlen]
    rfl
  | amqpError => exact FieldNode.optional_none (h.null ht) _
  | wildcard decoder => rfl

/-- The field holds the value then. -/
theorem FieldDecoder.Keeps.receives (hk : d.Keeps b.input heap e f) (h : e.Says b.input value)
    (hseen : e.IsSeen c b) (ht : d.takes value = true) (hshort : value.names.length < 2 ^ 31) :
    d.Receives c b heap value f := by
  have hrefers : ∀ ft : ReferenceType, (value.isNull || (value.text ft).isSome) = true →
      f.ref = ft.referTo e → f.ref.Refers c b (value.text ft) := by
    intro ft htakes href
    rw [Bool.or_eq_true, Option.isSome_iff_exists] at htakes
    rcases htakes with hnull | ⟨bytes, htext⟩
    · rw [FieldValue.text_null hnull, href, ReferenceType.referTo, h.null hnull]
      rfl
    · obtain ⟨n, rfl, hp, hflag, hbytes, hft⟩ := h.text htext
      rw [htext, href, ReferenceType.referTo, hp]
      exact refer_spells (hseen n .nil rfl).1 ft hft hflag hbytes
  have hnumber : ∀ (ft : PrimitiveType) (default : Int), (value.isNull || (value.number ft).isSome) = true →
      f.value = ft.valueOf default (e.reading b.input) ∧ f.isNull = e.present.isNone →
      f.value = (value.number ft).getD default ∧ f.isNull = value.isNull := by
    rintro ft default htakes ⟨hvalue, hflag⟩
    rw [Bool.or_eq_true, Option.isSome_iff_exists] at htakes
    rcases htakes with hnull | ⟨k, hn⟩
    · rw [FieldValue.number_null hnull, hvalue, hflag, PrimitiveType.valueOf_none (h.null hnull),
        h.null hnull, hnull]
      exact ⟨rfl, rfl⟩
    · obtain ⟨n, rfl, hp, -, hread⟩ := h.number hn
      rw [hn, hvalue, hflag, hread, hp, FieldValue.isNull_of_number hn]
      exact ⟨rfl, rfl⟩
  have hsymbols : (value.isNull || !value.names.isEmpty) = true → f.ref.KeepsSymbols heap e →
      f.ref.HasSymbols c b heap value.names := by
    intro htakes hkeeps
    rw [Bool.or_eq_true, Bool.not_eq_true', List.isEmpty_eq_false_iff] at htakes
    rcases htakes with hnull | hne
    · have hnone : e.symbols = [] := by rw [FieldNode.symbols, h.null hnull]
      rw [FieldValue.names_null hnull, TypeRef.HasSymbols, if_pos rfl, hkeeps.size, hnone]
      exact ⟨rfl, hkeeps.none hnone⟩
    · obtain ⟨n, kids, -, -, -, hspells⟩ := h.symbols hne hshort
      have hall := hspells c hseen
      have hsome : e.symbols ≠ [] := by
        intro hnil
        rw [hnil] at hall
        exact hne (List.forall₂_nil_left_iff.1 hall)
      rw [TypeRef.HasSymbols, if_neg hne, hkeeps.size, hall.length_eq]
      exact ⟨rfl, e.symbols, hkeeps.some hsome, hall⟩
  cases d with
  | type ft => exact hrefers ft ht hk
  | mandatoryType ft =>
    refine hrefers ft ?_ hk
    rw [show (value.text ft).isSome = true from ht, Bool.or_true]
  | primitive ft default => exact hnumber ft default ht hk
  | mandatoryPrimitive ft =>
    have hsome : (value.number ft).isSome = true := ht
    obtain ⟨k, hn⟩ := Option.isSome_iff_exists.1 hsome
    obtain ⟨hvalue, hnull⟩ := hnumber ft 0 (by rw [hsome, Bool.or_true]) hk
    exact ⟨hvalue, hnull.trans (FieldValue.isNull_of_number hn)⟩
  | mandatorySaslCode =>
    obtain ⟨k, hn, -⟩ := (Option.any_eq_true _ _).1 ht
    obtain ⟨hvalue, hnull⟩ := hnumber .ubyte 0 (by rw [hn]; simp) hk
    exact ⟨hvalue, hnull.trans (FieldValue.isNull_of_number hn)⟩
  | senderSettleMode default | receiverSettleMode default =>
    refine hnumber .ubyte default ?_ hk
    cases hnull : value.isNull with
    | true => rfl
    | false =>
      obtain ⟨k, hn, -⟩ := (Option.any_eq_true _ _).1 ht
      rw [hnull, if_neg Bool.false_ne_true] at hn
      rw [hn]
      rfl
  | multipleSymbol => exact hsymbols ht hk
  | mandatoryMultipleSymbol =>
    refine hsymbols ?_ hk
    rw [show (!value.names.isEmpty) = true from ht, Bool.or_true]
  | amqpError =>
    have hnull : f.isNull = e.present.isNone := hk.1
    show f.isNull = true
    rw [hnull, h.null ht]
    rfl
  | wildcard decoder =>
    have href : f.ref = _ := hk
    rw [h.null ht] at href
    exact href

end
end Amqp
