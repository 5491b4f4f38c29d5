import LibAmqp.Codec.Proof.Held
import LibAmqp.Transport.Proof.Same
import LibAmqp.Transport.Symbolic

/-!
# Symbolic and numeric descriptors

* `frameVerdict_described`: the verdict on a described body depends on its descriptor through the id
  alone.
* `symbolicDescriptor_iff`: a body described by a symbol of the table is decoded as if it were
  described by the number of the entry; with any other symbol it is refused, unless it cannot be
  decoded or printed.
-/

namespace Amqp

open Lib Memory

section
variable {inp inp' : Input} {i : Nat} {symbol coding rest : List UInt8}

/-! ## Descriptors -/

/-- How a text that is there is walked. -/
theorem walkInto_text_at {m : EncodingMetaData} (hk : m.kind = .variableWidth)
    (hat : inp.At i (toBigEndian m.width symbol.length ++ symbol))
    (hlt : symbol.length < 256 ^ m.width) (hne : symbol.length ≠ Buffer.sizeError) (fuel start : Nat) :
    walkInto inp (fuel + 1) m start i =
      if inp.Available (i + m.width) symbol.length then
        (⟨m.formatCode, start, i + m.width + symbol.length, m.typeDecoder.wellSpelled symbol, i + m.width,
          symbol.length⟩, .nil)
      else (⟨m.formatCode, start, i + m.width, false, i + m.width, 0⟩, .nil) := by
  obtain ⟨hfield, hbytes⟩ := hat.append
  rw [length_toBigEndian] at hbytes
  simp only [walkInto, hk, hfield.field hlt hne, hbytes.2]

/-- A text or a number can be printed. -/
theorem leaf_printable {m : EncodingMetaData} {item : Item} (hm : m ∈ typeLookupTable.toList)
    (hc : item.code = m.formatCode) (hacc : item.accepted = true)
    (hd : m.typeDecoder ∈ [.symbolSym8, .symbolSym32, .smallUlong, .ulong]) :
    Reading.printable (.node (item.glimpse inp) .nil .nil) = true := by
  have hmeta : (item.glimpse inp).metaData = some m := by
    show amqpTypeMetaDataLookup item.code = some m
    rw [hc, lookup_self m hm]
  have hga : (item.glimpse inp).accepted = true := hacc
  have hmap : (item.glimpse inp).is isMap = false := by
    show (codeFlags item.code &&& isMap != 0#32) = false
    rw [codeFlags, hc, lookup_self m hm, Option.elim, table_decoder_flags m hm]
    revert hd
    cases m.typeDecoder <;> decide
  simp only [Reading.printable, Glimpse.printable, hmeta, hga, hmap, if_true]
  clear hmeta hga hmap hc hm hacc
  revert hd
  cases m.typeDecoder <;> decide

theorem leaf_supported {m : EncodingMetaData} {item : Item} (hm : m ∈ typeLookupTable.toList)
    (hc : item.code = m.formatCode) (hk : m.kind ≠ .unsupported) : item.Supported .nil := by
  rw [Item.Supported, Item.kind, Item.metaData, hc, lookup_self m hm, Option.map_some]
  exact fun h => hk (Option.some.inj h)

/-- A symbol as a descriptor: accepted or not, it ends with its coding; if it is accepted, its bytes
are where it says. -/
structure SymbolItem (inp : Input) (i : Nat) (symbol coding : List UInt8) (item : Item) : Prop where
  stop : item.stop = i + coding.length
  flagged : item.is isSymbol = true
  supported : item.Supported .nil
  printable : item.accepted = true → Reading.printable (.node (item.glimpse inp) .nil .nil) = true
  bytes : item.accepted = true → inp.bytes item.index item.size = symbol ∧ item.size = symbol.length ∧
    item.index + item.size ≤ i + coding.length
  accepted : symbol ≠ [] → (symbol.all fun c => c &&& 0x80 == 0) = true → item.accepted = true

theorem symbol_item {m : EncodingMetaData} (hm : m ∈ typeLookupTable.toList)
    (hd : m.typeDecoder = .symbolSym8 ∨ m.typeDecoder = .symbolSym32)
    (hat : inp.At i (m.formatCode :: (toBigEndian m.width symbol.length ++ symbol)))
    (hlt : symbol.length < 256 ^ m.width) (hne : symbol.length ≠ Buffer.sizeError) (fuel : Nat) :
    ∃ item, walkDecode (walkInto inp (fuel + 1)) inp i = some (item, .nil) ∧
      SymbolItem inp i symbol (m.formatCode :: (toBigEndian m.width symbol.length ++ symbol)) item := by
  have hk : m.kind = .variableWidth := by
    rcases hd with h | h <;> rw [EncodingMetaData.kind, h] <;> rfl
  have hspelled : m.typeDecoder.wellSpelled symbol = symbol.all fun c => c &&& 0x80 == 0 := by
    rcases hd with h | h <;> simp [h, TypeDecoder.wellSpelled]
  have hflags : m.typedefFlags = isSymbol := by
    rw [table_decoder_flags m hm]
    rcases hd with h | h <;> rw [h] <;> rfl
  have his : ∀ {item : Item}, item.code = m.formatCode → item.is isSymbol = true := by
    intro item hc
    rw [Item.is, codeFlags, hc, lookup_self m hm, Option.elim, hflags]
    rfl
  have hsupp : ∀ {item : Item}, item.code = m.formatCode → item.Supported .nil :=
    fun hc => leaf_supported hm hc (by rw [hk]; decide)
  have hprint : ∀ {item : Item}, item.code = m.formatCode → item.accepted = true →
      Reading.printable (.node (item.glimpse inp) .nil .nil) = true :=
    fun hc hacc => leaf_printable hm hc hacc (by rcases hd with h | h <;> rw [h] <;> decide)
  obtain ⟨hi, hbyte, hrest⟩ := hat.cons
  have hwalk := walkInto_text_at hk hrest hlt hne fuel i
  have hlen : (m.formatCode :: (toBigEndian m.width symbol.length ++ symbol)).length =
      1 + m.width + symbol.length := by
    simp only [List.length_cons, List.length_append, length_toBigEndian]
    omega
  have hdecode : walkDecode (walkInto inp (fuel + 1)) inp i =
      some (walkInto inp (fuel + 1) m i (i + 1)) := by
    rw [walkDecode, if_pos hi, hbyte, lookup_self m hm]
  have hbytes := hrest.append.2
  rw [length_toBigEndian] at hbytes
  rw [hdecode, hwalk]
  by_cases ha : inp.Available (i + 1 + m.width) symbol.length
  · rw [if_pos ha]
    refine ⟨_, rfl, ?_, his rfl, hsupp rfl, hprint rfl, fun _ => ⟨hbytes.2, rfl, ?_⟩, fun _ hall => ?_⟩
    · rw [hlen]
      show i + 1 + m.width + symbol.length = _
      omega
    · rw [hlen]
      show i + 1 + m.width + symbol.length ≤ _
      omega
    · exact hspelled.trans hall
  · rw [if_neg ha]
    -- an empty symbol at the end of the bytes
    have hnil : symbol = [] := by
      by_contra hne
      exact ha (hbytes.available hne)
    refine ⟨_, rfl, ?_, his rfl, hsupp rfl, hprint rfl, fun h => (by cases h), fun hne => absurd hnil hne⟩
    rw [hlen, hnil]
    show i + 1 + m.width = i + (1 + m.width + 0)
    omega

theorem SymbolCoding.item (hc : SymbolCoding symbol coding) (hat : inp.At i coding)
    (hlen : coding.length ≤ 4096) (fuel : Nat) :
    ∃ item, walkDecode (walkInto inp (fuel + 1)) inp i = some (item, .nil) ∧
      SymbolItem inp i symbol coding item := by
  have hne : symbol.length ≤ coding.length → symbol.length ≠ Buffer.sizeError := by
    intro hle
    simp only [Buffer.sizeError]
    omega
  cases hc with
  | sym8 hlt =>
    refine symbol_item (m := .symbolSym8) (by decide) (.inl rfl) hat hlt (hne ?_) fuel
    simp only [List.length_cons, List.length_append]
    omega
  | sym32 hlt =>
    refine symbol_item (m := .symbolSym32) (by decide) (.inr rfl) hat hlt (hne ?_) fuel
    simp only [List.length_cons, List.length_append]
    omega

/-- A ulong as a descriptor. -/
structure UlongItem (inp : Input) (i v : Nat) (coding : List UInt8) (item : Item) : Prop where
  stop : item.stop = i + coding.length
  accepted : item.accepted = true
  unflagged : item.is isSymbol = false
  supported : item.Supported .nil
  printable : Reading.printable (.node (item.glimpse inp) .nil .nil) = true
  fits : PrimitiveType.ulong.fits (item.glimpse inp) = true
  number : (item.glimpse inp).number.low 8 = v

theorem ulong_item {m : EncodingMetaData} {v w : Nat} (hm : m ∈ typeLookupTable.toList)
    (hd : m.typeDecoder = .smallUlong ∧ w = 1 ∨ m.typeDecoder = .ulong ∧ w = 8)
    (hat : inp.At i (m.formatCode :: toBigEndian w v)) (hlt : v < 256 ^ w) (fuel : Nat) :
    ∃ item, walkDecode (walkInto inp (fuel + 1)) inp i = some (item, .nil) ∧
      UlongItem inp i v (m.formatCode :: toBigEndian w v) item := by
  have hk : m.kind = .fixed := by
    rcases hd with h | h <;> rw [EncodingMetaData.kind, h.1] <;> rfl
  have hwidth : m.width = w := by
    have := table_widths m hm
    rcases hd with h | h <;> rw [h.1] at this <;> simpa [TypeDecoder.widths, h.2] using this
  have hw0 : w ≠ 0 := by rcases hd with h | h <;> omega
  have hflags : m.typedefFlags = isLong ||| isUnsigned := by
    rw [table_decoder_flags m hm]
    rcases hd with h | h <;> rw [h.1] <;> rfl
  have hspelled : m.typeDecoder.wellSpelled (toBigEndian w v) = true := by
    rcases hd with h | h <;> simp [h.1, TypeDecoder.wellSpelled]
  obtain ⟨hi, hbyte, hrest⟩ := hat.cons
  have hb := hrest.2
  rw [length_toBigEndian] at hb
  have ha : inp.Available (i + 1) w := by
    have hle := hrest.1
    rw [length_toBigEndian] at hle
    exact ⟨by omega, hle⟩
  have hdecode : walkDecode (walkInto inp (fuel + 1)) inp i =
      some (⟨m.formatCode, i, i + 1 + w, true, i + 1, w⟩, .nil) := by
    rw [walkDecode, if_pos hi, hbyte, lookup_self m hm]
    simp only [walkInto, hk, hwidth, if_pos ha, hb, hspelled]
  have his : ∀ mask, Item.is ⟨m.formatCode, i, i + 1 + w, true, i + 1, w⟩ mask =
      ((isLong ||| isUnsigned) &&& mask != 0#32) := by
    intro mask
    rw [Item.is, codeFlags, lookup_self m hm, Option.elim, hflags]
  refine ⟨_, hdecode, ?_, rfl, ?_, leaf_supported hm rfl (by rw [hk]; decide), leaf_printable hm rfl rfl
    (by rcases hd with h | h <;> rw [h.1] <;> decide), ?_, ?_⟩
  · simp only [List.length_cons, length_toBigEndian]
    omega
  · rw [his]
    decide
  · have hg : ∀ mask, (Item.glimpse inp ⟨m.formatCode, i, i + 1 + w, true, i + 1, w⟩).is mask =
        ((isLong ||| isUnsigned) &&& mask != 0#32) := his
    simp only [PrimitiveType.fits, PrimitiveType.flags, hg]
    decide
  · simp only [Glimpse.number, Glimpse.metaData, Item.glimpse, lookup_self m hm, if_true, hb]
    rcases hd with ⟨h, rfl⟩ | ⟨h, rfl⟩
    · rw [h]
      have hmod : v % 256 = v := Nat.mod_eq_of_lt (by simpa using hlt)
      have := low_widened (n := 8) (x := v) id (by
        rw [hmod]
        exact Nat.lt_of_lt_of_le hlt (by decide))
      rw [hmod] at this
      exact this
    · rw [h]
      exact low_toBigEndian hlt

theorem UlongCoding.item {v : Nat} (hc : UlongCoding v coding) (hat : inp.At i coding) (fuel : Nat) :
    ∃ item, walkDecode (walkInto inp (fuel + 1)) inp i = some (item, .nil) ∧
      UlongItem inp i v coding item := by
  cases hc with
  | smallUlong hlt =>
    exact ulong_item (m := .ulongSmallUlong) (by decide) (.inl ⟨rfl, rfl⟩) hat hlt fuel
  | ulong hlt => exact ulong_item (m := .ulong) (by decide) (.inr ⟨rfl, rfl⟩) hat hlt fuel

end

/-! ## Described bodies -/

/-- The body is a described type: a descriptor without elements and what comes behind it. -/
def Buffer.BodyIs (b : Buffer) (d : Item) (v : Option Outline) : Prop :=
  ∃ stop, b.body.outline = some (⟨0x00, b.dataOffset, stop, d.accepted && acceptedOf v,
    b.dataOffset + 1, 0⟩, .cons (some (d, .nil)) (.cons v .nil))

/-- What is found at an index of the body. -/
def Buffer.foundAt (b : Buffer) (i : Nat) : Option Outline :=
  walkDecode (walkInto b.input (b.size - b.dataOffset)) b.input i

section
variable {hash : HashFunction} {table : DescriptorTable} {b b' : Buffer} {level : Nat}
  {symbol coding coding' rest : List UInt8} {d : Item} {v v' : Option Outline}

theorem Buffer.DescribedFrame.at (h : b.DescribedFrame coding rest) :
    b.input.At b.dataOffset (0x00 :: (coding ++ rest)) := by
  refine ⟨Nat.le_of_eq h.size.symm, ?_⟩
  exact h.body

theorem Buffer.DescribedFrame.index (h : b.DescribedFrame coding rest) : b.body.index = b.dataOffset := by
  show b.index + b.dataOffset = b.dataOffset
  rw [h.start, Nat.zero_add]

/-- The body of a described frame, given its descriptor. -/
theorem Buffer.DescribedFrame.bodyIs (h : b.DescribedFrame coding rest)
    (hd : b.foundAt (b.dataOffset + 1) = some (d, .nil))
    (hstop : d.stop = b.dataOffset + 1 + coding.length) :
    b.BodyIs d (b.foundAt (b.dataOffset + 1 + coding.length)) := by
  obtain ⟨hlt, hbyte, -⟩ := h.at.cons
  have hlook : amqpTypeMetaDataLookup 0x00 = some .described := by decide +kernel
  have hout : b.body.outline = some (walkDescribed b.foundAt .described b.dataOffset
      (b.dataOffset + 1)) := by
    rw [Buffer.outline, Amqp.outline, h.index]
    show walkDecode (walkInto b.input (b.size - b.dataOffset + 1)) b.input b.dataOffset = _
    rw [walkDecode, if_pos hlt, hbyte, hlook]
    rfl
  simp only [walkDescribed, hd, stopOf, acceptedOf, Option.elim, hstop] at hout
  exact ⟨_, hout⟩

/-- The verdict on what a known descriptor describes. -/
def describedAs (id debugLevel : Nat) (v : Reading) : Verdict :=
  match v with
  | .node g kids _ =>
    if g.accepted then printedVerdict debugLevel v.printable (remainderVerdict id g kids)
    else .refused
  | _ => .refused

theorem describedType_is {g : Glimpse} (hc : g.code = 0x00) : g.is isComposite = true := by
  rw [Glimpse.is, hc]
  decide +kernel

theorem describedType_supported {item : Item} (hc : item.code = 0x00) (kids : Forest Item) :
    item.Supported kids := by
  rw [Item.Supported, Item.kind, Item.metaData, hc]
  decide +kernel

theorem describedType_printable {g : Glimpse} (hc : g.code = 0x00) (hacc : g.accepted = true)
    (kids : Reading) : Reading.printable (.node g kids .nil) = Reading.printable kids := by
  have hm : g.metaData = some .described := by
    rw [Glimpse.metaData, hc]
    decide +kernel
  have hmap : g.is isMap = false := by
    rw [Glimpse.is, hc]
    decide +kernel
  simp only [Reading.printable, Glimpse.printable, hm, hacc, hmap, if_true, Bool.not_false,
    Bool.true_or, Bool.and_true]
  cases Reading.printable kids <;> rfl

/-- The verdict on a described body depends on its descriptor through the id alone. -/
theorem frameVerdict_described (hbody : b.BodyIs d v) (hle : b.body.index ≤ b.size)
    (hacc : d.accepted = true) (hsupp : d.Supported .nil)
    (hprint : Reading.printable (.node (d.glimpse b.input) .nil .nil) = true) {desc : Descriptor}
    (hdesc : descriptorOf (b.body.symbolLookup hash table) 0 (d.glimpse b.input) = some desc) :
    frameVerdict hash table 0 level b =
      if b.HeaderAccepted then
        if (Forest.cons v .nil).All Item.Supported then
          describedAs desc.id level (read b.input (.cons v .nil))
        else .stops
      else .refused := by
  obtain ⟨stop, ho⟩ := hbody
  have hall : (Forest.cons b.body.outline .nil).All Item.Supported ↔
      (Forest.cons v .nil).All Item.Supported := by
    rw [ho]
    refine ⟨fun h => h.2.1.2.2, fun h => ⟨describedType_supported rfl _, ⟨hsupp, trivial, h⟩, trivial⟩⟩
  simp only [frameVerdict, if_neg (Nat.not_lt.2 hle), hall]
  by_cases hh : b.HeaderAccepted
  · by_cases hs : (Forest.cons v .nil).All Item.Supported
    · simp only [if_pos hh, if_pos hs, ho]
      cases v with
      | none => simp [bodyVerdict, Item.glimpse, acceptedOf, describedAs, read, Forest.cons, Forest.map]
      | some o =>
        obtain ⟨item, kids⟩ := o
        have hg : ∀ stop acc, (Item.glimpse b.input ⟨0x00, b.dataOffset, stop, acc,
            b.dataOffset + 1, 0⟩).is isComposite = true := by
          intro stop acc
          exact describedType_is rfl
        have hparts : read b.input (.cons (some (d, .nil)) (.cons (some (item, kids)) .nil)) =
            .node (d.glimpse b.input) .nil (.node (item.glimpse b.input) (read b.input kids) .nil) := rfl
        have hrest : read b.input (.cons (some (item, kids)) .nil) =
            .node (item.glimpse b.input) (read b.input kids) .nil := rfl
        have hga : ∀ stop acc, (Item.glimpse b.input ⟨0x00, b.dataOffset, stop, acc,
            b.dataOffset + 1, 0⟩).accepted = acc := fun _ _ => rfl
        simp only [bodyVerdict, hga, hacc, acceptedOf, Option.elim, Bool.true_and, hg, hparts, hrest,
          describedAs]
        cases hv : item.accepted with
        | false => simp [Item.glimpse, hv]
        | true =>
          have hgv : (item.glimpse b.input).accepted = true := hv
          rw [describedType_printable rfl rfl]
          simp only [hgv, Bool.true_eq_false, if_false, if_true]
          simp only [Reading.printable] at hprint
          have hpr : Reading.printable (.node (d.glimpse b.input) .nil
              (.node (item.glimpse b.input) (read b.input kids) .nil)) =
              Reading.printable (.node (item.glimpse b.input) (read b.input kids) .nil) := by
            simp only [Reading.printable]
            simp only [Bool.and_true] at hprint
            rw [hprint, Bool.true_and]
          have hverdict : describedVerdict (b.body.symbolLookup hash table) 0
              (.node (d.glimpse b.input) .nil (.node (item.glimpse b.input) (read b.input kids) .nil)) =
              remainderVerdict desc.id (item.glimpse b.input) (read b.input kids) := by
            simp only [describedVerdict, Forest.nth, hdesc]
          rw [hpr, hverdict]
    · simp only [if_pos hh, if_neg hs]
  · simp only [if_neg hh]

/-- Which types are supported can be read. -/
theorem supported_of_read {inp inp' : Input} {F F' : Forest Item} (h : read inp F = read inp' F') :
    F.All Item.Supported ↔ F'.All Item.Supported := by
  have hread : ∀ (inp : Input) (F : Forest Item), F.All Item.Supported ↔
      (read inp F).All fun g _ => g.metaData.map (·.kind) ≠ some .unsupported := by
    intro inp F
    rw [read, Forest.all_map]
    rfl
  rw [hread inp, hread inp', h]

theorem Buffer.DescribedFrame.aligned (h : b.DescribedFrame coding rest)
    (h' : b'.DescribedFrame coding' rest) :
    Aligned b.input (b.dataOffset + 1 + coding.length) b'.input (b'.dataOffset + 1 + coding'.length)
      rest.length := by
  have hsize : ∀ {b : Buffer} {coding : List UInt8}, b.DescribedFrame coding rest →
      b.input.size = b.dataOffset + 1 + coding.length + rest.length := by
    intro b coding h
    have hs := h.size
    simp only [List.length_cons, List.length_append] at hs
    show b.size = _
    omega
  have hrest : ∀ {b : Buffer} {coding : List UInt8}, b.DescribedFrame coding rest →
      b.input.bytes (b.dataOffset + 1 + coding.length) rest.length = rest :=
    fun h => h.at.cons.2.2.append.2.2
  refine ⟨hsize h, hsize h', fun j hj => ?_⟩
  have hmaps := (hrest h).trans (hrest h').symm
  exact List.map_inj_left.1 hmaps j (List.mem_range.2 hj)

/-- What is found behind the descriptors reads the same. -/
theorem Buffer.DescribedFrame.read_rest (h : b.DescribedFrame coding rest)
    (h' : b'.DescribedFrame coding' rest) :
    read b.input (.cons (b.foundAt (b.dataOffset + 1 + coding.length)) .nil) =
      read b'.input (.cons (b'.foundAt (b'.dataOffset + 1 + coding'.length)) .nil) := by
  have ha := h.aligned h'
  have hf : rest.length ≤ b.size - b.dataOffset := by
    have := ha.size
    show _ ≤ b.input.size - _
    omega
  have hf' : rest.length ≤ b'.size - b'.dataOffset := by
    have := ha.size'
    show _ ≤ b'.input.size - _
    omega
  exact (walkDecode_read ha hf hf').read rfl

theorem Buffer.SameHeader.dataOffset (h : b.SameHeader b') : b.dataOffset = b'.dataOffset := by
  rw [Buffer.dataOffset, Buffer.dataOffset, h 4 (by decide) (by decide)]

theorem Buffer.SameHeader.headerAccepted (h : b.SameHeader b') : b.HeaderAccepted ↔ b'.HeaderAccepted := by
  rw [Buffer.HeaderAccepted, Buffer.HeaderAccepted, h.dataOffset, h 5 (by decide) (by decide)]

/-- A descriptor that is known: the decoder finds it, takes it for `id` and can print it. -/
structure KnownDescriptor (hash : HashFunction) (table : DescriptorTable) (b : Buffer) (d : Item)
    (v : Option Outline) (id : Nat) : Prop where
  body : b.BodyIs d v
  index : b.body.index ≤ b.size
  accepted : d.accepted = true
  supported : d.Supported .nil
  printable : Reading.printable (.node (d.glimpse b.input) .nil .nil) = true
  known : ∃ desc, desc.id = id ∧
    descriptorOf (b.body.symbolLookup hash table) 0 (d.glimpse b.input) = some desc

/-- The descriptor does not matter beyond its id. -/
theorem KnownDescriptor.frameVerdict_eq {d d' : Item} {id : Nat} (h : KnownDescriptor hash table b d v id)
    (h' : KnownDescriptor hash table b' d' v' id) (hheader : b.SameHeader b')
    (hread : read b.input (.cons v .nil) = read b'.input (.cons v' .nil)) :
    frameVerdict hash table 0 level b = frameVerdict hash table 0 level b' := by
  obtain ⟨desc, hid, hdesc⟩ := h.known
  obtain ⟨desc', hid', hdesc'⟩ := h'.known
  rw [frameVerdict_described h.body h.index h.accepted h.supported h.printable hdesc,
    frameVerdict_described h'.body h'.index h'.accepted h'.supported h'.printable hdesc', hid, hid', hread]
  simp only [hheader.headerAccepted, supported_of_read hread]

/-- Frames that were returned for known descriptors of one id. -/
theorem KnownDescriptor.sameFrame {x x1 x1' : FrameContext} {L K : Finset Slot} {s s' : Slot}
    {frame frame' : AmqpFrame} {F F' : Layout} {A A' : List Nat} {d d' : Item} {id : Nat}
    (h : KnownDescriptor hash x.descriptors b d v id)
    (h' : KnownDescriptor hash x.descriptors b' d' v' id) (hheader : b.SameHeader b')
    (hread : read b.input (.cons v .nil) = read b'.input (.cons v' .nil))
    (hacc : Accepted hash x L K b s x1 frame F A) (hacc' : Accepted hash x L K b' s' x1' frame' F' A') :
    SameFrame (x1.memory b.afterBody) (x1'.memory b'.afterBody) frame frame' := by
  -- what each of them says of its frame
  have hpart : ∀ {b : Buffer} {d : Item} {v : Option Outline} {s : Slot} {x1 : FrameContext}
      {frame : AmqpFrame} {F : Layout} {A : List Nat},
      KnownDescriptor hash x.descriptors b d v id → Accepted hash x L K b s x1 frame F A →
      ∃ p n fields, Performative.ofDescriptorId id = some p ∧ frame.descriptor.id = id ∧
        frame.dispatch = some (.performative p) ∧ frame.cleanup = some p ∧
        fields.All (Seen x1.toContext b.afterBody) ∧
        read b.input (.cons v .nil) =
          .node (Item.glimpse b.input n) (Layout.reading b.input fields) .nil ∧
        ∀ (i : Nat) (d : FieldDecoder), p.fields[i]? = some d →
          d.Keeps b.input x1.symbols (fields.nth i) (frame.fields i) := by
    intro b d v s x1 frame F A h hacc
    obtain ⟨stop, ho⟩ := h.body
    rcases hacc.content with ⟨hnone, -⟩ | ⟨n, kids, p, fields, rfl, ⟨hp, dn, dk, vn, h0, h1, -, hdesc⟩, hcarries⟩
    · rw [ho] at hnone
      cases hnone
    · have hroot := hacc.lays.root ho
      have hkids : Layout.outline kids = .cons (some (d, .nil)) (.cons v .nil) := (congrArg Prod.snd hroot).symm
      obtain ⟨desc, hid, hknown⟩ := h.known
      have hdn : dn.item = d := by
        have := congrArg (fun O => O.nth 0) hkids
        simp only [Layout.outline, Forest.nth_map, h0, Option.map_some, Forest.cons, Forest.nth,
          Option.some.injEq, Prod.mk.injEq] at this
        exact this.1
      have hv : v = some (vn.item, Layout.outline fields) := by
        have := congrArg (fun O => O.nth 1) hkids
        simp only [Layout.outline, Forest.nth_map, h1, Option.map_some] at this
        cases v with
        | none => cases this
        | some o => exact this.symm
      have hlook := Lays.symbolLookup_eq (b := b.body) hacc.lays ho hash x.descriptors
      have hsame : frame.descriptor = desc := by
        rw [hlook, ← hdn] at hknown
        exact Option.some.inj (hdesc.symm.trans hknown)
      have hfields := ((hacc.lays.seen (b := b.body)).2.1.nth h1).2
      refine ⟨p, vn.item, fields, ?_, ?_, hcarries.dispatch, hcarries.cleanup,
        hfields.imp fun _ _ hs => hs.moved _, ?_, hcarries.keeps fun _ => rfl⟩
      · rw [← hid, ← hsame, hp]
      · rw [hsame, hid]
      · rw [hv]
        rfl
  obtain ⟨p, n, fields, hp, hid, hdisp, hclean, hseen, hrest, hkeeps⟩ := hpart h hacc
  obtain ⟨p', n', fields', hp', hid', hdisp', hclean', hseen', hrest', hkeeps'⟩ := hpart h' hacc'
  obtain rfl : p = p' := Option.some.inj (hp.symm.trans hp')
  have hreading : Layout.reading b.input fields = Layout.reading b'.input fields' := by
    rw [hrest, hrest'] at hread
    injection hread
  refine ⟨?_, ?_, ?_, by rw [hid, hid'], by rw [hdisp, hdisp'], by rw [hclean, hclean'], ?_⟩
  · rw [hacc.dataOffset, hacc'.dataOffset, hheader.dataOffset]
  · rw [hacc.frameType, hacc'.frameType, hheader 5 (by decide) (by decide)]
  · rw [hacc.word, hacc'.word]
    refine congrArg ofBigEndian (List.map_congr_left fun i hi => ?_)
    have hi := List.mem_range.1 hi
    exact hheader (6 + i) (by omega) (by omega)
  · intro q hq i dec hdec
    rw [hclean, Option.some.injEq] at hq
    subst hq
    have hk : dec.Keeps b.afterBody.input x1.symbols (fields.nth i) (frame.fields i) := hkeeps i dec hdec
    have hk' : dec.Keeps b'.afterBody.input x1'.symbols (fields'.nth i) (frame'.fields i) :=
      hkeeps' i dec hdec
    exact hk.same hk' (SameNode.nth hseen hseen' hreading i)

/-! ## Agreement -/

/-- Two frames with known descriptors of one id have the same outcome. -/
theorem KnownDescriptor.sameOutcome {x : FrameContext} {L K : Finset Slot} {d d' : Item} {id : Nat}
    (hr : FrameReady x L K) (h8 : amqpFrameHeaderSize ≤ b.size) (h8' : amqpFrameHeaderSize ≤ b'.size)
    (h : KnownDescriptor hash x.descriptors b d v id)
    (h' : KnownDescriptor hash x.descriptors b' d' v' id) (hheader : b.SameHeader b')
    (hread : read b.input (.cons v .nil) = read b'.input (.cons v' .nil)) :
    SameOutcome (amqpDecodeAmqpFrame hash x b) (amqpDecodeAmqpFrame hash x b') ∧
      SameOutcome (amqpDecodeSaslFrame hash x b) (amqpDecodeSaslFrame hash x b') := by
  have hsome : b.body.outline.isSome = true ∧ b'.body.outline.isSome = true := by
    obtain ⟨stop, ho⟩ := h.body
    obtain ⟨stop', ho'⟩ := h'.body
    rw [ho, ho']
    exact ⟨rfl, rfl⟩
  have hnone : b.body.outline.isNone = b'.body.outline.isNone := by
    rw [← Option.not_isSome, ← Option.not_isSome, hsome.1, hsome.2]
  have hverdict : frameVerdict hash x.descriptors 0 x.debugLevel b =
      frameVerdict hash x.descriptors 0 x.debugLevel b' := h.frameVerdict_eq h' hheader hread
  have htype := hheader 5 (by decide) (by decide)
  have hmeets : ∀ {v : Verdict} {r r' : FrameDecoding},
      FrameMeets v r (fun x' _ => Rejected x b.input b.address L K x') (ReturnsFrame hash x L K b) →
      FrameMeets v r' (fun x' _ => Rejected x b'.input b'.address L K x') (ReturnsFrame hash x L K b') →
      SameOutcome r r' := by
    intro v r r' hm hm'
    cases v with
    | stops =>
      obtain ⟨e, rfl, -⟩ := hm
      obtain ⟨e', rfl, -⟩ := hm'
      trivial
    | refused =>
      obtain ⟨x1, b1, rfl, -⟩ := hm
      obtain ⟨x1', b1', rfl, -⟩ := hm'
      trivial
    | accepted =>
      obtain ⟨s, x1, b1, rfl, rfl, frame, F, A, hacc⟩ := hm
      obtain ⟨s', x1', b1', rfl, rfl, frame', F', A', hacc'⟩ := hm'
      exact ⟨frame, frame', hacc.load, hacc'.load, h.sameFrame h' hheader hread hacc hacc'⟩
  have hamqp : amqpFrameVerdict hash x.descriptors x.debugLevel b =
      amqpFrameVerdict hash x.descriptors x.debugLevel b' := by
    rw [amqpFrameVerdict, amqpFrameVerdict, hverdict, hsome.1, hsome.2, htype]
  have hsasl : saslFrameVerdict hash x.descriptors x.debugLevel b =
      saslFrameVerdict hash x.descriptors x.debugLevel b' := by
    rw [saslFrameVerdict, saslFrameVerdict, hverdict, hnone, htype]
  constructor
  · apply hmeets (amqpDecodeAmqpFrame_meets hash hr h8)
    rw [hamqp]
    exact amqpDecodeAmqpFrame_meets hash hr h8'
  · apply hmeets (amqpDecodeSaslFrame_meets hash hr h8)
    rw [hsasl]
    exact amqpDecodeSaslFrame_meets hash hr h8'

/-- Where the descriptor of a described frame starts. -/
theorem Buffer.DescribedFrame.coded (h : b.DescribedFrame coding rest) :
    b.input.At (b.dataOffset + 1) coding := h.at.cons.2.2.append.1

theorem Buffer.DescribedFrame.fuel (h : b.DescribedFrame coding rest) :
    ∃ fuel, b.size - b.dataOffset = fuel + 1 := by
  have hs := h.size
  simp only [List.length_cons] at hs
  exact ⟨b.size - b.dataOffset - 1, by omega⟩

theorem Buffer.DescribedFrame.index_le (h : b.DescribedFrame coding rest) : b.body.index ≤ b.size := by
  have hs := h.size
  rw [h.index]
  omega

/-- The number of an entry, however it is coded. -/
theorem UlongCoding.known (hash : HashFunction) (table : DescriptorTable) {desc : Descriptor} {e : List UInt8} (he : (e, desc) ∈ descriptors)
    (hc : UlongCoding desc.id coding) (h : b.DescribedFrame coding rest) :
    ∃ d, KnownDescriptor hash table b d (b.foundAt (b.dataOffset + 1 + coding.length)) desc.id := by
  have hid : desc.id < 2 ^ 32 := (by decide +kernel : ∀ e ∈ descriptors, e.2.id < 2 ^ 32) _ he
  obtain ⟨fuel, hfuel⟩ := h.fuel
  obtain ⟨d, hwalk, hd⟩ := hc.item h.coded fuel
  have hfound : b.foundAt (b.dataOffset + 1) = some (d, .nil) := by
    rw [Buffer.foundAt, hfuel, hwalk]
  refine ⟨d, h.bodyIs hfound hd.stop, h.index_le, hd.accepted, hd.supported, hd.printable,
    ⟨0, desc.id, .none⟩, rfl, ?_⟩
  have hsym : (d.glimpse b.input).is isSymbol = false := hd.unflagged
  simp only [descriptorOf, hsym, Bool.false_eq_true, if_false, hd.fits, hd.number, amqpDescriptorDomain,
    beq_self_eq_true, Bool.and_self, if_true, Option.some.injEq, Descriptor.mk.injEq, and_true]
  exact ⟨Nat.shiftRight_eq_zero _ _ hid, Nat.mod_eq_of_lt hid⟩

/-- A symbol of the table, however it is coded. -/
theorem SymbolCoding.known {desc : Descriptor} (he : (symbol, desc) ∈ descriptors)
    (htable : table = amqpLoadDescriptors hash) (hc : SymbolCoding symbol coding)
    (h : b.DescribedFrame coding rest)
    (hfirst : b.dataOffset + 1 + coding.length ≤ amqpFragmentIndexMask + 1) :
    ∃ d, KnownDescriptor hash table b d (b.foundAt (b.dataOffset + 1 + coding.length)) desc.id := by
  have hascii : symbol ≠ [] ∧ (symbol.all fun c => c &&& 0x80 == 0) = true :=
    (by decide +kernel : ∀ e ∈ descriptors, e.1 ≠ [] ∧ (e.1.all fun c => c &&& 0x80 == 0) = true) _ he
  have hmask : amqpFragmentIndexMask + 1 = 4096 := rfl
  obtain ⟨fuel, hfuel⟩ := h.fuel
  obtain ⟨d, hwalk, hd⟩ := hc.item h.coded (by omega) fuel
  have hfound : b.foundAt (b.dataOffset + 1) = some (d, .nil) := by
    rw [Buffer.foundAt, hfuel, hwalk]
  have hacc := hd.accepted hascii.1 hascii.2
  have hbody := h.bodyIs hfound hd.stop
  refine ⟨d, hbody, h.index_le, hacc, hd.supported, hd.printable hacc, desc, rfl, ?_⟩
  obtain ⟨stop, ho⟩ := hbody
  obtain ⟨hbytes, -, hle⟩ := hd.bytes hacc
  have hsym : (d.glimpse b.input).is isSymbol = true := hd.flagged
  have hfound : amqpDescriptorLookup hash table b.body d.index d.size = some desc := by
    rw [htable]
    refine (amqpDescriptorLookup_first hash b.body (by omega) desc).2 ?_
    have hbytes : b.body.bytes d.index d.size = symbol := hbytes
    rw [hbytes]
    exact he
  rw [descriptorOf, if_pos hsym, Buffer.symbolLookup, ho]
  exact hfound

/-- A body with a descriptor that is not known is refused, or stops the process. -/
theorem frameVerdict_unknown (hbody : b.BodyIs d v) (hle : b.body.index ≤ b.size)
    (hdesc : d.accepted = true →
      descriptorOf (b.body.symbolLookup hash table) 0 (d.glimpse b.input) = none) :
    (b.RefusedHarmlessly level ∧ frameVerdict hash table 0 level b = .refused) ∨
      (¬ b.RefusedHarmlessly level ∧ frameVerdict hash table 0 level b = .stops) := by
  obtain ⟨stop, ho⟩ := hbody
  by_cases hh : b.HeaderAccepted
  · rw [frameVerdict, if_pos hh, if_neg (Nat.not_lt.2 hle)]
    by_cases hs : (Forest.cons b.body.outline .nil).All Item.Supported
    · rw [if_pos hs]
      have hiff : b.RefusedHarmlessly level ↔ ∀ o, b.body.outline = some o → o.1.accepted = true →
          2 < level → Reading.printable (.node (o.1.glimpse b.input) (read b.input o.2) .nil) = true :=
        ⟨fun h => (h hh).2, fun h _ => ⟨hs, h⟩⟩
      rw [hiff, ho]
      simp only [Option.some.injEq, forall_eq', bodyVerdict]
      have hg : ∀ stop acc, (Item.glimpse b.input ⟨0x00, b.dataOffset, stop, acc,
          b.dataOffset + 1, 0⟩).is isComposite = true := by
        intro stop acc
        exact describedType_is rfl
      have hga : ∀ stop acc, (Item.glimpse b.input ⟨0x00, b.dataOffset, stop, acc,
          b.dataOffset + 1, 0⟩).accepted = acc := fun _ _ => rfl
      simp only [hg, hga]
      cases hacc : (d.accepted && acceptedOf v) with
      | false => exact .inl ⟨fun h => (by cases h), rfl⟩
      | true =>
        obtain ⟨hd, hv⟩ := Bool.and_eq_true_iff.1 hacc
        cases v with
        | none => cases hv
        | some o =>
          have hverdict : describedVerdict (b.body.symbolLookup hash table) 0
              (read b.input (.cons (some (d, .nil)) (.cons (some o) .nil))) = .refused := by
            simp only [describedVerdict, read, Forest.map, Forest.cons, Forest.nth, hdesc hd]
          simp only [hverdict, printedVerdict, Bool.true_eq_false, if_false, true_and, forall_const]
          by_cases hl : 2 < level
          · cases Reading.printable (.node (Item.glimpse b.input ⟨0x00, b.dataOffset, stop, true,
                b.dataOffset + 1, 0⟩) (read b.input (.cons (some (d, .nil)) (.cons (some o) .nil))) .nil)
            · exact .inr ⟨fun h => (by cases h hl), by rw [if_pos ⟨hl, rfl⟩]⟩
            · exact .inl ⟨fun _ => rfl, by rw [if_neg fun h => (by cases h.2)]⟩
          · exact .inl ⟨fun h => absurd h hl, by rw [if_neg fun h => hl h.1]⟩
    · rw [if_neg hs]
      exact .inr ⟨fun h => hs (h hh).1, rfl⟩
  · rw [frameVerdict, if_neg hh]
    exact .inl ⟨fun h => absurd h hh, rfl⟩

/-- A symbol that is not in the table is refused if that does no harm. -/
theorem SymbolCoding.unknown (level : Nat) (hno : ∀ desc, (symbol, desc) ∉ descriptors)
    (htable : table = amqpLoadDescriptors hash) (hc : SymbolCoding symbol coding)
    (h : b.DescribedFrame coding rest)
    (hfirst : b.dataOffset + 1 + coding.length ≤ amqpFragmentIndexMask + 1) :
    (b.RefusedHarmlessly level ∧ frameVerdict hash table 0 level b = .refused) ∨
      (¬ b.RefusedHarmlessly level ∧ frameVerdict hash table 0 level b = .stops) := by
  have hmask : amqpFragmentIndexMask + 1 = 4096 := rfl
  obtain ⟨fuel, hfuel⟩ := h.fuel
  obtain ⟨d, hwalk, hd⟩ := hc.item h.coded (by omega) fuel
  have hfound : b.foundAt (b.dataOffset + 1) = some (d, .nil) := by
    rw [Buffer.foundAt, hfuel, hwalk]
  have hbody := h.bodyIs hfound hd.stop
  refine frameVerdict_unknown hbody h.index_le fun hacc => ?_
  obtain ⟨stop, ho⟩ := hbody
  obtain ⟨hbytes, -, hle⟩ := hd.bytes hacc
  have hsym : (d.glimpse b.input).is isSymbol = true := hd.flagged
  have hnone : amqpDescriptorLookup hash table b.body d.index d.size = none := by
    rw [htable, Option.eq_none_iff_forall_ne_some]
    intro desc hsome
    have hmem := (amqpDescriptorLookup_first hash b.body (by omega) desc).1 hsome
    have hbytes : b.body.bytes d.index d.size = symbol := hbytes
    rw [hbytes] at hmem
    exact hno desc hmem
  rw [descriptorOf, if_pos hsym, Buffer.symbolLookup, ho]
  exact hnone

/-- When both decoders refuse a frame that is not accepted. -/
theorem refused_iff {x : FrameContext} {L K : Finset Slot} (hr : FrameReady x L K)
    (h8 : amqpFrameHeaderSize ≤ b.size)
    (hv : frameVerdict hash x.descriptors 0 x.debugLevel b ≠ .accepted) :
    (∀ r ∈ [amqpDecodeAmqpFrame hash x b, amqpDecodeSaslFrame hash x b], ∃ x' b', r = .ok (none, x', b')) ↔
      frameVerdict hash x.descriptors 0 x.debugLevel b = .refused := by
  have hamqp := amqpDecodeAmqpFrame_meets hash hr h8
  have hsasl := amqpDecodeSaslFrame_meets hash hr h8
  rw [amqpFrameVerdict] at hamqp
  rw [saslFrameVerdict] at hsasl
  cases hfv : frameVerdict hash x.descriptors 0 x.debugLevel b with
  | accepted => exact absurd hfv hv
  | stops =>
    rw [hfv] at hamqp
    obtain ⟨e, hrun, -⟩ := hamqp
    refine ⟨fun h => ?_, fun h => by cases h⟩
    obtain ⟨x', b', hnone⟩ := h _ (.head _)
    rw [hrun] at hnone
    cases hnone
  | refused =>
    rw [hfv] at hamqp hsasl
    obtain ⟨x1, b1, hrun1, -⟩ := hamqp
    obtain ⟨x2, b2, hrun2, -⟩ := hsasl
    refine ⟨fun _ => rfl, fun _ r hmem => ?_⟩
    rcases List.mem_cons.1 hmem with rfl | hmem
    · exact ⟨x1, b1, hrun1⟩
    · obtain rfl := List.mem_singleton.1 hmem
      exact ⟨x2, b2, hrun2⟩

theorem SymbolCoding.refused_iff {x : FrameContext} {L K : Finset Slot} (hr : FrameReady x L K)
    (htable : x.descriptors = amqpLoadDescriptors hash) (hno : ∀ desc, (symbol, desc) ∉ descriptors)
    (hc : SymbolCoding symbol coding) (h : b.DescribedFrame coding rest)
    (hfirst : b.dataOffset + 1 + coding.length ≤ amqpFragmentIndexMask + 1) :
    (∀ r ∈ [amqpDecodeAmqpFrame hash x b, amqpDecodeSaslFrame hash x b], ∃ x' b', r = .ok (none, x', b')) ↔
      b.RefusedHarmlessly x.debugLevel := by
  have hv := hc.unknown x.debugLevel hno htable h hfirst
  have hne : frameVerdict hash x.descriptors 0 x.debugLevel b ≠ .accepted := by
    rcases hv with ⟨-, hv⟩ | ⟨-, hv⟩ <;> rw [hv] <;> decide
  rw [Amqp.refused_iff hr h.header hne]
  rcases hv with ⟨hyes, hv⟩ | ⟨hno, hv⟩
  · exact ⟨fun _ => hyes, fun _ => hv⟩
  · rw [hv]
    exact ⟨fun h => (nomatch h), fun h => absurd h hno⟩

/-- A symbol in the first fragment is decoded like the number of its entry in the table; if it has
none, the frame is refused unless its body cannot be decoded or printed. -/
theorem symbolicDescriptor_iff {x : FrameContext} {L K : Finset Slot} (hr : FrameReady x L K)
    (htable : x.descriptors = amqpLoadDescriptors hash) (hc : SymbolCoding symbol coding)
    (h : b.DescribedFrame coding rest)
    (hfirst : b.dataOffset + 1 + coding.length ≤ amqpFragmentIndexMask + 1) :
    SymbolAgrees hash x b symbol rest ↔
      (∃ desc, (symbol, desc) ∈ descriptors) ∨ b.RefusedHarmlessly x.debugLevel := by
  have hagree : ∀ desc, (symbol, desc) ∈ descriptors → ∀ coding', UlongCoding desc.id coding' →
      ∀ b' : Buffer, b'.DescribedFrame coding' rest → b.SameHeader b' →
      SameOutcome (amqpDecodeAmqpFrame hash x b) (amqpDecodeAmqpFrame hash x b') ∧
        SameOutcome (amqpDecodeSaslFrame hash x b) (amqpDecodeSaslFrame hash x b') := by
    intro desc he coding' hc' b' h' hheader
    obtain ⟨d, hd⟩ := hc.known he htable h hfirst
    obtain ⟨d', hd'⟩ := hc'.known hash x.descriptors he h'
    exact hd.sameOutcome hr h.header h'.header hd' hheader (h.read_rest h')
  by_cases hmem : ∃ desc, (symbol, desc) ∈ descriptors
  · obtain ⟨desc, he⟩ := hmem
    exact ⟨fun _ => .inl ⟨desc, he⟩, fun _ => ⟨hagree, fun hno => absurd he (hno desc)⟩⟩
  · have hno : ∀ desc, (symbol, desc) ∉ descriptors := fun desc he => hmem ⟨desc, he⟩
    rw [SymbolAgrees, hc.refused_iff hr htable hno h hfirst]
    exact ⟨fun hs => .inr (hs.2 hno), fun hs => ⟨hagree, fun _ => hs.resolve_left hmem⟩⟩

end

/-- A close described by its symbol. -/
def symbolicCloseFrame : Buffer := .received
  ([0, 0, 0, 27, 2, 0, 0, 0, 0x00, 0xa3, 15] ++ ascii "amqp:close:list" ++ [0x45])

theorem symbolicDescriptor_close :
    SymbolAgrees (fun _ => 0) newContext symbolicCloseFrame (ascii "amqp:close:list") [0x45] := by
  have htable : newContext.descriptors = amqpLoadDescriptors fun _ => 0 := by
    rw [newContext, FrameContext.create]
  have hc : SymbolCoding (ascii "amqp:close:list") (0xa3 :: (toBigEndian 1
      (ascii "amqp:close:list").length ++ ascii "amqp:close:list")) := .sym8 (by decide)
  refine (symbolicDescriptor_iff newContext_ready htable hc ?_ (by decide)).2 (.inl ?_)
  · exact ⟨rfl, by decide, by decide +kernel, by decide +kernel⟩
  · exact ⟨⟨amqpDescriptorDomain, 0x18, .transport⟩, by decide +kernel⟩

/-- A list with a decimal32, described by a symbol that is not in the table. -/
def unknownSymbolFrame : Buffer := .received
  [0, 0, 0, 22, 2, 0, 0, 0, 0x00, 0xa3, 3, 0x66, 0x6f, 0x6f, 0xc0, 6, 1, 0x74, 0, 0, 0, 0]

theorem symbolicDescriptor_unknown : SymbolCoding [0x66, 0x6f, 0x6f] [0xa3, 3, 0x66, 0x6f, 0x6f] ∧
    unknownSymbolFrame.DescribedFrame [0xa3, 3, 0x66, 0x6f, 0x6f] [0xc0, 6, 1, 0x74, 0, 0, 0, 0] ∧
    ¬ SymbolAgrees (fun _ => 0) newContext unknownSymbolFrame [0x66, 0x6f, 0x6f]
      [0xc0, 6, 1, 0x74, 0, 0, 0, 0] := by
  have hc : SymbolCoding [0x66, 0x6f, 0x6f] (0xa3 :: (toBigEndian 1 3 ++ [0x66, 0x6f, 0x6f])) :=
    .sym8 (by decide)
  have hframe : unknownSymbolFrame.DescribedFrame [0xa3, 3, 0x66, 0x6f, 0x6f]
      [0xc0, 6, 1, 0x74, 0, 0, 0, 0] := ⟨rfl, by decide, by decide +kernel, by decide +kernel⟩
  have hno : ∀ desc, (([0x66, 0x6f, 0x6f] : List UInt8), desc) ∉ descriptors := by
    intro desc hmem
    exact (by decide +kernel : ∀ e ∈ descriptors, e.1 ≠ [0x66, 0x6f, 0x6f]) _ hmem rfl
  refine ⟨hc, hframe, fun hagrees => ?_⟩
  have hv : frameVerdict (fun _ => 0) newContext.descriptors 0 newContext.debugLevel
      unknownSymbolFrame = .stops := by decide +kernel
  have hrefused := (refused_iff newContext_ready (by decide) (by rw [hv]; decide)).1 (hagrees.2 hno)
  rw [hv] at hrefused
  cases hrefused

end Amqp
