import LibAmqp.Codec.Proof.Empty
import LibAmqp.Codec.Proof.Regain
import LibAmqp.Transport.Proof.Conform
import LibAmqp.Transport.Proof.Receive

/-!
# Frames are received as they were sent

* `FrameFields.WellFormed.inPlace`: the fields of a frame that is well formed are in place.
* `FrameFields.WellFormed.said`: the fields that are found there have the values of the frame.
* `SentFrame.WellFormed.receives`: a frame that arrives is decoded to what was sent, and given back.
* `FrameRequest.received_as_sent`: a frame that is asked for is received as it was meant.
-/

namespace Amqp

open Lib Memory Buffer

section
variable {fields : FrameFields} {vs : List Scalar} {names : List (List UInt8)} {inp : Input}
  {c : Context} {b : Buffer}

/-! ## Fields in place -/

/-- The bytes of a call are among those of all. -/
theorem CallTree.leaf_lt_wire {l : Leaf} {ls : List Leaf} (h : l ∈ ls) :
    (l.encoding false).2.length < (CallTree.leaves ls).wire.length := by
  have hpayload := length_le_leafBody (l.encoding false).1 (l.encoding false).2
  have hsub : (l.part false).code :: (l.part false).body ∈
      ((ls.map (Leaf.part false)).map fun p => p.code :: p.body) :=
    List.mem_map_of_mem (List.mem_map_of_mem h)
  have hle := (List.sublist_flatten_of_mem hsub).length_le
  rw [CallTree.wire, CallTree.parts_leaves]
  refine Nat.lt_of_lt_of_le (Nat.lt_succ_of_le ?_) hle
  exact hpayload

/-- Those of the elements are among those of a container. -/
theorem CallTree.elements_lt_wire {k : Former} (hk : k.isArray = false) (elements : CallTree) :
    elements.wire.length < (CallTree.container k elements .nil).wire.length := by
  have hcontent : elements.wire = k.content (elements.parts k.isArray) := by
    rw [Former.content, hk]
    rfl
  have hle := @Former.content_le_body k false (elements.parts k.isArray)
  have hwire : (CallTree.container k elements .nil).wire =
      (k.part false (elements.parts k.isArray)).code :: (k.part false (elements.parts k.isArray)).body := by
    simp [CallTree.wire, CallTree.parts, spelled]
  rw [hwire, hcontent, List.length_cons]
  omega

/-- Values, of which the last is no empty text. -/
theorem scalars_inPlace (hspelled : ∀ v ∈ vs, v.spelled = true)
    (hsize : ∀ v ∈ vs, (v.encoding false).2.length < Buffer.sizeError)
    (hlast : ∀ v, vs.getLast? = some v → v.isEmptyText = false) :
    (CallTree.leaves (vs.map .scalar)).InPlace false false := by
  induction vs with
  | nil => trivial
  | cons v vs ih =>
    refine ⟨(Scalar.inPlace_iff (hspelled v (.head _)) (hsize v (.head _))).2 fun hb => ?_,
      ih (fun w hw => hspelled w (.tail _ hw)) (fun w hw => hsize w (.tail _ hw)) fun w hw => ?_⟩
    · cases vs with
      | nil => exact hlast v rfl
      | cons w ws =>
        -- the constructor of the next value is behind this one
        simp [CallTree.bytes, CallTree.parts, CallTree.leaves, Part.bytes] at hb
    · cases vs with
      | nil => cases hw
      | cons w' ws => exact hlast w (by rw [List.getLast?_cons_cons]; exact hw)

/-- The names of mechanisms in an array. -/
theorem mechanisms_inPlace {k : Former} (hk : k.isArray = true) (hne : names ≠ [])
    (hnames : ∀ name ∈ names, name ≠ [] ∧ (Scalar.symbol name).spelled = true)
    (hshort : ∀ name ∈ names, name.length ≤ 254) (hcount : names.length < 256 ^ k.metaData.width)
    (hsmall : names.length < Buffer.sizeError) :
    (CallTree.container k (.leaves (names.map .symbolSym8)) .nil).InPlace false false := by
  refine ⟨?_, CallTree.leaves_inPlace fun l h => ?_, trivial⟩
  · have hd : k ≠ .described := by
      rintro rfl
      cases hk
    rw [Former.Counts, if_neg hd, CallTree.length_leaves, List.length_map]
    exact ⟨fun _ h => absurd (List.eq_nil_of_length_eq_zero h) hne, hcount, Nat.ne_of_lt hsmall⟩
  · obtain ⟨name, hname, rfl⟩ := List.mem_map.1 h
    exact symbolSym8_inPlace (hnames name hname).2 (hnames name hname).1
      (Nat.lt_of_le_of_lt (hshort name hname) (by decide))

/-- The calls for more than one mechanism. -/
theorem mechanismsCalls_short (hmany : names.length ≠ 1) (hshort : ∀ name ∈ names, name.length ≤ 254) :
    ∃ k : Former, k.isArray = true ∧
      mechanismsCalls names = .container k (.leaves (names.map .symbolSym8)) .nil ∧
      (k = .array8 → names.length < 256) := by
  have hlong : containsLongName names = false := by
    rw [containsLongName, List.any_eq_false]
    intro name hname
    have := hshort name hname
    simp only [decide_eq_true_eq]
    omega
  have hcalls := mechanismsCalls_many hmany
  rw [hlong, mechanismLeaves_short] at hcalls
  split at hcalls
  · exact ⟨.array8, rfl, hcalls, fun _ => by omega⟩
  · exact ⟨.array32, rfl, hcalls, fun h => by cases h⟩

/-- A container of symbols has not more of them than bytes. -/
theorem mechanisms_count {k : Former} (hk : k.isArray = true) (names : List (List UInt8)) :
    names.length ≤ (CallTree.container k (.leaves (names.map .symbolSym8)) .nil).wire.length := by
  rw [← List.length_map (f := Leaf.symbolSym8)]
  refine CallTree.count_le_wire hk fun l h => ?_
  obtain ⟨name, -, rfl⟩ := List.mem_map.1 h
  exact List.cons_ne_nil _ _

theorem mechanisms_oneCode {k : Former} :
    (CallTree.container k (.leaves (names.map .symbolSym8)) .nil).OneCode := by
  refine ⟨fun _ => ⟨EncodingMetaData.symbolSym8.formatCode, fun p hp => ?_⟩, CallTree.leaves_oneCode _,
    trivial⟩
  rw [CallTree.parts_leaves] at hp
  obtain ⟨l, hl, rfl⟩ := List.mem_map.1 hp
  obtain ⟨name, -, rfl⟩ := List.mem_map.1 hl
  rfl

/-- The fields of a frame are in place. -/
theorem FrameFields.WellFormed.inPlace (h : fields.WellFormed)
    (hsize : fields.calls.wire.length < amqpBufferFragmentSize) :
    fields.calls.OneCode ∧ fields.calls.InPlace false false := by
  cases fields with
  | scalars vs =>
    obtain ⟨-, hspelled, hlast⟩ := h
    refine ⟨CallTree.leaves_oneCode _, scalars_inPlace hspelled (fun v hv => ?_) hlast⟩
    have hlt := CallTree.leaf_lt_wire (List.mem_map_of_mem (f := Leaf.scalar) hv)
    exact Nat.lt_trans hlt (Nat.lt_trans hsize (by decide))
  | mechanisms names =>
    obtain ⟨hne, hfit, hnames⟩ := h
    by_cases hone : names.length = 1
    · obtain ⟨name, rfl⟩ := List.length_eq_one_iff.1 hone
      obtain ⟨hname, hspelled⟩ := hnames name (.head _)
      have hplaced : (CallTree.leaves ([Scalar.symbol name].map .scalar)).InPlace false false := by
        refine scalars_inPlace ?_ ?_ ?_
        · simpa using hspelled
        · intro v hv
          have hlt := CallTree.leaf_lt_wire (List.mem_map_of_mem (f := Leaf.scalar) hv)
          exact Nat.lt_trans hlt (Nat.lt_trans hsize (by decide))
        · intro v hv
          obtain rfl : Scalar.symbol name = v := by simpa using hv
          exact Bool.eq_false_iff.2 fun he => hname (List.isEmpty_iff.1 he)
      exact ⟨trivial, hplaced⟩
    · have hshort := hfit.resolve_left hone
      obtain ⟨k, hk, hcalls, hcount⟩ := mechanismsCalls_short hone hshort
      have hle := mechanisms_count hk names
      show (mechanismsCalls names).OneCode ∧ (mechanismsCalls names).InPlace false false
      have hsize' : (mechanismsCalls names).wire.length < amqpBufferFragmentSize := hsize
      rw [hcalls] at hsize' ⊢
      have hfrag : amqpBufferFragmentSize < Buffer.sizeError := by decide
      refine ⟨mechanisms_oneCode, mechanisms_inPlace hk hne hnames hshort ?_ (by omega)⟩
      cases k with
      | array8 => exact hcount rfl
      | array32 =>
        have hfour : amqpBufferFragmentSize < 256 ^ Former.array32.metaData.width := by decide
        omega
      | described | list8 | list32 | map8 | map32 => cases hk

/-! ## Values that are found -/

/-- The elements of a list have the values that were written. -/
theorem Found.scalars {F : Layout} {i : Nat} (h : Found inp false i (.leaves (vs.map .scalar)) F.outline) :
    ∀ k, FieldNode.Says inp (F.nth k) (.scalar (vs.getD k .null)) := by
  induction vs generalizing F i with
  | nil =>
    intro k
    cases F with
    | nil => exact .inl ⟨rfl, rfl⟩
    | hole | node => exact h.elim
  | cons v vs ih =>
    cases F with
    | nil | hole => exact h.elim
    | node n kids F =>
      obtain ⟨hkids, -, hacc, hcode, hbytes, -, hrest⟩ := h
      obtain rfl : kids = .nil := by
        cases kids <;> first | rfl | cases hkids
      intro k
      cases k with
      | zero => exact .inr ⟨n, rfl, hacc, hcode, hbytes⟩
      | succ k => exact ih hrest k

/-- So do those of an array of symbols. -/
theorem Found.symbols {F : Layout} {i : Nat}
    (h : Found inp true i (.leaves (names.map .symbolSym8)) F.outline) : SymbolsFound inp F names := by
  induction names generalizing F i with
  | nil =>
    cases F with
    | nil => trivial
    | hole | node => exact h.elim
  | cons name names ih =>
    cases F with
    | nil | hole => exact h.elim
    | node n kids F =>
      obtain ⟨hkids, -, hacc, hcode, hbytes, -, hrest⟩ := h
      refine ⟨?_, ⟨hacc, hcode, hbytes⟩, ih hrest⟩
      cases kids <;> first | rfl | cases hkids

/-- The flags of an array are those of its format code. -/
theorem arrayFlags {k : Former} (hk : k.isArray = true) {mask : TypedefFlags}
    (hmask : valueMask &&& mask = mask) : k.metaData.typedefFlags &&& mask = isArray &&& mask := by
  have hflags : k.metaData.typedefFlags &&& valueMask = isArray &&& valueMask := by
    cases k <;> first | decide | cases hk
  rw [← hmask, ← BitVec.and_assoc, hflags, BitVec.and_assoc]

/-- An array of symbols that is found is seen as one. -/
theorem Found.array {n : Node} {kids F : Layout} {i : Nat} {k : Former} (hk : k.isArray = true) (hne : names ≠ [])
    (h : Found b.input false i (.container k (.leaves (names.map .symbolSym8)) .nil)
      (Layout.outline (.node n kids F))) (hs : Seen c b n kids) :
    FieldNode.Says b.input (some (n, kids)) (.symbols names) := by
  obtain ⟨hacc, hcode, -, hkids, -⟩ := h
  rw [hk] at hkids
  have hfound := Found.symbols hkids
  have hlist : k.isList = false := by
    cases k <;> first | rfl | cases hk
  have hcode' : n.item.code = k.metaData.formatCode := by
    rcases k.part_code false ((CallTree.leaves (names.map .symbolSym8)).parts k.isArray) with hc | ⟨hl, -⟩
    · exact hcode.trans hc
    · exact absurd (hlist.symm.trans hl) Bool.false_ne_true
  have hflags : ∀ mask, valueMask &&& mask = mask → n.item.is mask = (isArray &&& mask != 0#32) := by
    intro mask hmask
    rw [Item.is, codeFlags, hcode', lookup_self _ k.metaData_mem, Option.elim_some, arrayFlags hk hmask]
  have harr : n.item.is isArray = true := (hflags _ (by decide)).trans (by decide)
  obtain ⟨t, ht⟩ := hs.glance
  obtain ⟨holder, th, hh, -, -, hcode'', -⟩ := ht.arrayHolder harr hacc
  refine ⟨n, kids, holder.code, rfl, hflags, hcode'', ?_, hfound⟩
  obtain ⟨name, names, rfl⟩ := List.exists_cons_of_ne_nil hne
  cases kids with
  | nil | hole => exact hfound.elim
  | node kid ks rest =>
    have hkid := ht.kidsCode holder hh kid (by simp [Forest.roots])
    have hsymbol : kid.item.code = EncodingMetaData.symbolSym8.formatCode := hfound.2.1.code
    rw [← hkid, hsymbol]
    decide

/-- The fields that are found have the values of the frame. -/
theorem FrameFields.WellFormed.said {F : Layout} {i : Nat} (h : fields.WellFormed)
    (hfound : Found b.input false i fields.calls F.outline) (hseen : F.All (Seen c b)) :
    ∀ k, FieldNode.Says b.input (F.nth k) (fields.value k) := by
  cases fields with
  | scalars vs => exact Found.scalars hfound
  | mechanisms names =>
    obtain ⟨hne, hfit, hnames⟩ := h
    by_cases hone : names.length = 1
    · obtain ⟨name, rfl⟩ := List.length_eq_one_iff.1 hone
      intro k
      have hone' : Found b.input false i (.leaves ([Scalar.symbol name].map .scalar)) F.outline := hfound
      have hsaid := Found.scalars hone' k
      cases k with
      | zero => exact hsaid
      | succ k => simpa [FrameFields.value] using hsaid
    · obtain ⟨k, hk, hcalls, -⟩ := mechanismsCalls_short hone (hfit.resolve_left hone)
      have hvalue : ∀ i, (FrameFields.mechanisms names).value i =
          if i = 0 then .symbols names else .scalar .null := by
        intro i
        match names, hone with
        | [], _ => rfl
        | _ :: _ :: _, _ => rfl
      have hfound' : Found b.input false i (mechanismsCalls names) F.outline := hfound
      rw [hcalls] at hfound'
      cases F with
      | nil | hole => exact hfound'.elim
      | node n kids F =>
        have hnil : F = .nil := by
          have hrest := hfound'.2.2.2.2
          cases F <;> first | rfl | exact hrest.elim
        subst hnil
        intro i
        rw [hvalue]
        cases i with
        | zero => exact Found.array hk hne hfound' hseen.1
        | succ i => exact .inl ⟨rfl, rfl⟩

/-! ## Bytes of a frame -/

variable {m : SentFrame}

theorem SentFrame.length_bytes (m : SentFrame) : m.bytes.length = m.size := by
  simp [SentFrame.bytes, SentFrame.header, SentFrame.size, length_toBigEndian, amqpFrameHeaderSize]
  omega

/-- The header and the body of a frame that arrives. -/
structure SentFrame.Framed (m : SentFrame) (b : Buffer) : Prop where
  dataOffset : b.dataOffset = amqpFrameHeaderSize
  frameType : b.byteAt 5 = m.frameType
  word : ofBigEndian (b.bytes 6 2) = m.word.toNat
  body : b.input.At 8 m.calls.wire
  size : b.size = 8 + m.calls.wire.length

theorem SentFrame.Arrives.framed (h : m.Arrives b) : m.Framed b := by
  have hat : b.input.At 0 m.bytes := by
    refine ⟨?_, ?_⟩
    · rw [Nat.zero_add, m.length_bytes]
      exact Nat.le_of_eq h.size.symm
    · rw [m.length_bytes, ← h.size]
      exact h.bytes
  obtain ⟨hheader, hbody⟩ := hat.append
  obtain ⟨hfront, hword⟩ := hheader.append
  obtain ⟨-, hfront⟩ := hfront.append
  simp only [List.length_append, length_toBigEndian, SentFrame.header] at hbody hfront hword
  obtain ⟨-, hoffset, hfront⟩ := hfront.cons
  obtain ⟨-, htype, -⟩ := hfront.cons
  have hword' := hword.2
  rw [length_toBigEndian] at hword'
  refine ⟨?_, htype, ?_, hbody, h.size⟩
  · have hbyte : b.byteAt 4 = 2 := hoffset
    rw [Buffer.dataOffset, hbyte]
    rfl
  · rw [show b.bytes 6 2 = _ from hword']
    exact ofBigEndian_toBigEndian 2 _ m.word.isLt

theorem FrameFields.WellFormed.count (h : fields.WellFormed) : fields.calls.length < 256 := by
  cases fields with
  | scalars vs =>
    rw [FrameFields.calls, CallTree.length_leaves, List.length_map]
    exact h.1
  | mechanisms names =>
    show (mechanismsCalls names).length < 256
    have hone : 1 < 256 := by decide
    unfold mechanismsCalls
    split
    · exact hone
    · split <;> exact hone

/-- A descriptor is in place. -/
theorem ulong_inPlace (behind : Bool) (id : BitVec 64) : (Leaf.scalar (.ulong id)).inPlace behind = true := by
  refine (Scalar.inPlace_iff rfl ?_).2 fun _ => rfl
  have hpayload := length_le_leafBody ((Scalar.ulong id).encoding false).1 ((Scalar.ulong id).encoding false).2
  have hbody := length_ulong id
  exact Nat.lt_of_le_of_lt (hpayload.trans hbody) (by decide)

/-- The bytes of the fields are among those of the frame. -/
theorem SentFrame.fields_lt_wire (m : SentFrame) : m.fields.calls.wire.length < m.calls.wire.length := by
  have hlist := CallTree.elements_lt_wire (k := .list8) rfl m.fields.calls
  have hbody := CallTree.elements_lt_wire (k := .described) rfl
    (.leaf (.scalar (.ulong m.performative.descriptor)) (.container .list8 m.fields.calls .nil))
  have hwire := @CallTree.bytes_cons false (.leaf (.scalar (.ulong m.performative.descriptor))
    (.container .list8 m.fields.calls .nil)) (.container .list8 m.fields.calls .nil) _ rfl
  rw [CallTree.bytes_false, CallTree.bytes_false] at hwire
  rw [CallTree.wire, hwire, List.length_append] at hbody
  exact Nat.lt_trans hlist (Nat.lt_of_le_of_lt (Nat.le_add_left _ _) hbody)

theorem SentFrame.WellFormed.inPlace (h : m.WellFormed) : m.calls.OneCode ∧ m.calls.InPlace false false := by
  have hroom : amqpFrameHeaderSize + m.calls.wire.length + 16 ≤ amqpBufferFragmentSize := h.room
  have hlt := m.fields_lt_wire
  obtain ⟨hone, hin⟩ := h.fields.inPlace (by omega)
  have hcount := h.fields.count
  refine ⟨⟨(fun h => by cases h), ⟨(fun h => by cases h), hone, trivial⟩, trivial⟩, rfl, ⟨ulong_inPlace _ _, ⟨(fun h => by cases h), hcount, ?_⟩, hin, trivial⟩,
    trivial⟩
  simp only [Buffer.sizeError]
  omega

/-- The values of a frame are found in its body. -/
theorem SentFrame.WellFormed.found (h : m.WellFormed) (ha : m.Framed b) (hindex : b.body.index = 8) :
    Found b.input false 8 m.calls (.cons b.body.outline .nil) ∧ stopOf b.body.outline 8 = b.size := by
  have hroom : amqpFrameHeaderSize + m.calls.wire.length + 16 ≤ amqpBufferFragmentSize := h.room
  have hsize := ha.size
  have hsmall : b.input.size < Buffer.sizeError := by
    have hfrag : amqpBufferFragmentSize < Buffer.sizeError := by decide
    show b.size < _
    simp only [amqpFrameHeaderSize] at hroom
    omega
  have hbehind : false = true ↔ 8 + (m.calls.bytes false).length < b.input.size := by
    refine iff_of_false Bool.false_ne_true (Nat.not_lt.2 ?_)
    exact Nat.le_of_eq hsize
  obtain ⟨hone, hin⟩ := h.inPlace
  obtain ⟨hfound, hstop⟩ := @CallTree.walks b.input m.calls _ _ (b.size - 8 + 1) 8 none rfl ha.body hbehind
    hsmall (Nat.lt_add_right _ (Nat.lt_succ_self _)) hone hin
  have hout : b.body.outline = walkNext b.input (b.size - 8 + 1) none 8 := by
    rw [Buffer.outline, hindex]
    rfl
  rw [hout]
  exact ⟨hfound, hstop.trans hsize.symm⟩

theorem SentFrame.Arrives.body_index (h : m.Arrives b) : b.body.index = 8 := by
  show b.index + b.dataOffset = 8
  rw [h.index, h.framed.dataOffset]
  rfl

/-! ## Bodies -/

/-- The layout of a body: a described list, with the values of the frame. -/
structure BodySays (inp : Input) (m : SentFrame) (n d l : Node) (lk : Layout) : Prop where
  accepted : n.item.accepted = true
  composite : n.item.is isComposite = true
  descriptor : d.item.Says inp false (.scalar (.ulong m.performative.descriptor))
  list : l.item.is isList = true
  found : ∃ i, Found inp false i m.fields.calls lk.outline

theorem Found.body {F : Layout} (h : Found inp false 8 m.calls F.outline) :
    ∃ n d l lk, F = .node n (.node d .nil (.node l lk .nil)) .nil ∧ BodySays inp m n d l lk := by
  have hnil : ∀ {G : Layout} {i : Nat}, Found inp false i .nil G.outline → G = .nil := by
    intro G i hG
    cases G <;> first | rfl | exact hG.elim
  cases F with
  | nil | hole => exact h.elim
  | node n kids F =>
    obtain ⟨hacc, hcode, -, hkids, hrest⟩ := h
    obtain rfl := hnil hrest
    cases kids with
    | nil | hole => exact hkids.elim
    | node d dk G =>
      obtain ⟨hdk, -, hdacc, hdcode, hdbytes, -, hlist⟩ := hkids
      obtain rfl : dk = .nil := by
        cases dk <;> first | rfl | cases hdk
      cases G with
      | nil | hole => exact hlist.elim
      | node l lk G =>
        obtain ⟨hlacc, hlcode, -, hfields, hrest⟩ := hlist
        obtain rfl := hnil hrest
        have hcode' : n.item.code = EncodingMetaData.described.formatCode := hcode
        have hlcode' : l.item.code = (Former.list8.part false (m.fields.calls.parts Former.list8.isArray)).code :=
          hlcode
        refine ⟨n, d, l, lk, rfl, hacc, ?_, ⟨hdacc, hdcode, hdbytes⟩, ?_, _, hfields⟩
        · rw [Item.is, hcode']
          decide
        · rw [Item.is, hlcode']
          -- a list without fields is a `list_0`
          rcases Former.list8.part_code false (m.fields.calls.parts Former.list8.isArray) with hc | ⟨-, -, hc⟩
          · rw [hc]
            decide
          · rw [hc]
            decide

/-- Every descriptor is that of its performative. -/
theorem Performative.ofDescriptor (p : Performative) : Performative.ofDescriptorId p.descriptorId = some p ∧
    p.descriptor.toNat = p.descriptorId ∧ p.descriptorId < 2 ^ 32 := by
  cases p <;> decide

variable {n d l : Node} {lk : Layout}

theorem BodySays.describes (h : BodySays b.input m n d l lk) (lookup : Option Descriptor) :
    descriptorOf lookup 0 (d.item.glimpse b.input) = some ⟨0, m.performative.descriptorId, .none⟩ := by
  obtain ⟨-, hid, hlt⟩ := m.performative.ofDescriptor
  have hnumber : (Scalar.ulong m.performative.descriptor).number .ulong =
      some ↑m.performative.descriptor.toNat := rfl
  obtain ⟨hfits, hread⟩ := h.descriptor.number hnumber
  have hlow : (d.item.glimpse b.input).number.low 8 = m.performative.descriptorId :=
    hid ▸ Int.ofNat.inj hread
  have hsym : (d.item.glimpse b.input).is isSymbol = false := by
    refine (h.descriptor.is (by decide)).trans ?_
    simp only [Leaf.value, Scalar.flags]
    decide
  rw [descriptorOf, hsym, hfits, hlow, Nat.shiftRight_eq_div_pow, Nat.div_eq_of_lt hlt, Nat.mod_eq_of_lt hlt]
  rfl

theorem fieldsVerdict_accepted {list : Reading} {ds : List FieldDecoder} {i : Nat}
    (h : ∀ (k : Nat) (d : FieldDecoder), ds[k]? = some d → d.verdict (list.nth (i + k)) = .accepted) :
    fieldsVerdict list ds i = .accepted := by
  induction ds generalizing i with
  | nil => rfl
  | cons d ds ih =>
    have hfirst := h 0 d rfl
    rw [Nat.add_zero] at hfirst
    rw [fieldsVerdict, hfirst]
    refine ih fun k e he => ?_
    have hnext := h (k + 1) e he
    rwa [Nat.add_comm k, ← Nat.add_assoc] at hnext

theorem FieldValue.length_names_scalar (v : Scalar) : (FieldValue.scalar v).names.length ≤ 1 := by
  rw [FieldValue.names]
  cases v.text .symbol <;> simp

/-- There are not more symbols in a field than bytes in the frame. -/
theorem SentFrame.WellFormed.names_short (h : m.WellFormed) (i : Nat) :
    (m.fields.value i).names.length < 2 ^ 31 := by
  have hroom : amqpFrameHeaderSize + m.calls.wire.length + 16 ≤ amqpBufferFragmentSize := h.room
  have hlt := m.fields_lt_wire
  have hfrag : amqpBufferFragmentSize < 2 ^ 31 := by decide
  have hone : ∀ v, (FieldValue.scalar v).names.length < 2 ^ 31 := fun v =>
    Nat.lt_of_le_of_lt (FieldValue.length_names_scalar v) (by decide)
  have hwell := h.fields
  cases hf : m.fields with
  | scalars vs => exact hone _
  | mechanisms names =>
    rw [hf] at hwell hlt
    match names, hwell with
    | [name], _ =>
      rw [FrameFields.value]
      split <;> exact hone _
    | [], hwell => exact absurd rfl hwell.1
    | n1 :: n2 :: names, hwell =>
      obtain ⟨-, hfit, -⟩ := hwell
      have hmany : (n1 :: n2 :: names).length ≠ 1 := by simp
      obtain ⟨k, hk, hcalls, -⟩ := mechanismsCalls_short hmany (hfit.resolve_left hmany)
      have hle := mechanisms_count hk (n1 :: n2 :: names)
      rw [← hcalls] at hle
      have hlt' : (mechanismsCalls (n1 :: n2 :: names)).wire.length < m.calls.wire.length := hlt
      have hvalue : ∀ j, (FrameFields.mechanisms (n1 :: n2 :: names)).value j =
          if j = 0 then .symbols (n1 :: n2 :: names) else .scalar .null := fun _ => rfl
      rw [hvalue]
      split
      · show (n1 :: n2 :: names).length < _
        omega
      · exact hone _

/-- The body of a frame is accepted. -/
theorem BodySays.verdict (hb : BodySays b.input m n d l lk) (h : m.WellFormed) (hseen : lk.All (Seen c b))
    (lookup : Option Descriptor) (debugLevel : Nat) :
    bodyVerdict lookup 0 debugLevel (n.item.glimpse b.input)
      (read b.input (Layout.outline (.node d .nil (.node l lk .nil)))) = .accepted := by
  obtain ⟨i, hfound⟩ := hb.found
  have hsaid := h.fields.said hfound hseen
  have hfields : fieldsVerdict (Layout.reading b.input lk) m.performative.fields 0 = .accepted := by
    refine fieldsVerdict_accepted fun k e he => ?_
    rw [Nat.zero_add, Layout.reading_nth]
    exact (hsaid k).accepted (h.takes k e he) (h.names_short k)
  have hremainder : remainderVerdict m.performative.descriptorId (l.item.glimpse b.input)
      (Layout.reading b.input lk) = .accepted := by
    rw [remainderVerdict, if_pos (show (l.item.glimpse b.input).is isList = true from hb.list),
      m.performative.ofDescriptor.1]
    exact hfields
  have hdescribed : describedVerdict lookup 0
      (read b.input (Layout.outline (.node d .nil (.node l lk .nil)))) = .accepted := by
    simp only [describedVerdict, Layout.outline, read, Forest.map, Forest.nth, hb.describes]
    exact hremainder
  have hacc : ¬ (n.item.glimpse b.input).accepted = false := by
    rw [show (n.item.glimpse b.input).accepted = true from hb.accepted]
    decide
  have hcomp : ¬ (n.item.glimpse b.input).is isComposite = false := by
    rw [show (n.item.glimpse b.input).is isComposite = true from hb.composite]
    decide
  rw [bodyVerdict, if_neg hacc, if_neg hcomp, hdescribed]
  exact if_neg fun hrefused => by cases hrefused.1

/-! ## Frames -/

variable {hash : HashFunction} {x x' : FrameContext} {frame : AmqpFrame} {L K : Finset Slot} {s : Slot} {F : Layout}
  {A : List Nat}

theorem SentFrame.Framed.headerAccepted (h : m.Framed b) : b.HeaderAccepted := by
  refine ⟨Nat.le_of_eq h.dataOffset.symm, ?_⟩
  rw [h.frameType, SentFrame.frameType]
  cases m.performative.isSasl
  · exact .inl rfl
  · exact .inr rfl

/-- The decoder of frames accepts what arrives. -/
theorem SentFrame.WellFormed.verdict (h : m.WellFormed) (ha : m.Arrives b)
    (hr : Ready (· = AmqpType.zero) c L) (hash : HashFunction) (table : DescriptorTable) (debugLevel : Nat) :
    b.body.outline ≠ none ∧ frameVerdict hash table 0 debugLevel b = .accepted := by
  have hfound := (h.found ha.framed ha.body_index).1
  have hi : b.body.index ≤ b.body.size := by
    have hsize : b.body.size = 8 + m.calls.wire.length := ha.framed.size
    rw [ha.body_index, hsize]
    exact Nat.le_add_right ..
  obtain ⟨ptr, c', F, -, hlays, -⟩ := (amqpDecode_simulates hr hi).1 hfound.supported
  have hfoundF : Found b.input false 8 m.calls F.outline := by
    rw [hlays.outline]
    exact hfound
  obtain ⟨n, d, l, lk, rfl, hbody⟩ := hfoundF.body
  have hseen : lk.All (Seen c' b) := hlays.seen.2.1.2.2.2.1.imp fun _ _ hs => hs.moved b.index
  cases ho : b.body.outline with
  | none =>
    rw [ho] at hfound
    exact hfound.elim
  | some o =>
    refine ⟨(fun h => by cases h), ?_⟩
    have hbeyond : ¬ b.size < b.body.index := Nat.not_lt.2 hi
    rw [frameVerdict, if_pos ha.framed.headerAccepted, if_neg hbeyond, if_pos hfound.supported, ho]
    dsimp only
    rw [hlays.root ho]
    exact hbody.verdict h hseen _ _

/-- So do those of the states of a connection. -/
theorem SentFrame.WellFormed.decodes (h : m.WellFormed) (ha : m.Arrives b) (hx : FrameReady x L K)
    (hash : HashFunction) : ∃ s x', m.decode hash x b = .ok (some s, x', { b with index := b.size }) ∧
      ∃ frame F A, Accepted hash x L K b s x' frame F A := by
  have h8 : amqpFrameHeaderSize ≤ b.size := by
    rw [ha.framed.size]
    exact Nat.le_add_right ..
  obtain ⟨hsome, hverdict⟩ := h.verdict ha hx.types hash x.descriptors x.debugLevel
  have hafter : b.afterBody = { b with index := b.size } := by
    rw [Buffer.afterBody, ha.body_index, (h.found ha.framed ha.body_index).2]
    rfl
  have hend : ∀ {r : FrameDecoding}, FrameMeets .accepted r
      (fun x' _ => Rejected x b.input b.address L K x') (ReturnsFrame hash x L K b) →
      ∃ s x', r = .ok (some s, x', { b with index := b.size }) ∧
        ∃ frame F A, Accepted hash x L K b s x' frame F A := by
    rintro r ⟨s, x', b', hr, rfl, hacc⟩
    exact ⟨s, x', hafter ▸ hr, hacc⟩
  have htype := ha.framed.frameType
  rw [SentFrame.frameType] at htype
  rw [SentFrame.decode]
  cases hsasl : m.performative.isSasl with
  | true =>
    rw [hsasl, if_pos rfl] at htype
    have hmeets := amqpDecodeSaslFrame_meets hash hx h8
    have haccepted : saslFrameVerdict hash x.descriptors x.debugLevel b = .accepted := by
      rw [saslFrameVerdict, hverdict, htype, Option.isNone_eq_false_iff.2 (Option.isSome_iff_ne_none.2 hsome)]
      decide
    rw [haccepted] at hmeets
    exact hend hmeets
  | false =>
    rw [hsasl, if_neg Bool.false_ne_true] at htype
    have hmeets := amqpDecodeAmqpFrame_meets hash hx h8
    have haccepted : amqpFrameVerdict hash x.descriptors x.debugLevel b = .accepted := by
      rw [amqpFrameVerdict, hverdict, htype, bne_self_eq_false, Bool.and_false]
      rfl
    rw [haccepted] at hmeets
    exact hend hmeets

/-- The frame that is returned says what was sent. -/
theorem Accepted.received (hacc : Accepted hash x L K b s x' frame F A) (h : m.WellFormed)
    (ha : m.Arrives b) : m.Received x' b frame := by
  have hfound := (h.found ha.framed ha.body_index).1
  have hfoundF : Found b.input false 8 m.calls F.outline := by
    rw [hacc.lays.outline]
    exact hfound
  have hlays : Lays (· = AmqpType.zero) 0 b.body.input b.body.address x.toContext L
    (.cons b.body.outline .nil) x'.toContext F := hacc.lays
  obtain ⟨n, d, l, lk, rfl, hbody⟩ := hfoundF.body
  obtain ⟨i, hfields⟩ := hbody.found
  have hseen : lk.All (Seen x'.toContext b) := hlays.seen.2.1.2.2.2.1.imp fun _ _ hs => hs.moved b.index
  have hsaid := h.fields.said hfields hseen
  rcases hacc.content with ⟨hnone, -⟩ | ⟨n', kids, p, fields, hF, hdescribes, hcarries⟩
  · rw [hnone] at hfound
    exact hfound.elim
  · obtain ⟨rfl, rfl⟩ : n = n' ∧ .node d .nil (.node l lk .nil) = kids := by
      injection hF with h1 h2
      exact ⟨h1, h2⟩
    obtain ⟨hp, d', ks, l', h0, h1, -, hdesc⟩ := hdescribes
    obtain ⟨rfl, rfl⟩ : d = d' ∧ .nil = ks := by
      simpa [Forest.nth] using h0
    obtain ⟨rfl, rfl⟩ : l = l' ∧ lk = fields := by
      simpa [Forest.nth] using h1
    have hdescriptor : frame.descriptor = ⟨0, m.performative.descriptorId, .none⟩ :=
      Option.some.inj (hdesc.symm.trans (hbody.describes _))
    obtain rfl : p = m.performative := by
      rw [hdescriptor, m.performative.ofDescriptor.1] at hp
      exact (Option.some.inj hp).symm
    refine ⟨hacc.dataOffset.trans ha.framed.dataOffset, hacc.frameType.trans ha.framed.frameType,
      hacc.word.trans ha.framed.word, hdescriptor, hcarries.dispatch, fun k e he => ?_⟩
    refine (hcarries.keeps (fun _ => rfl) k e he).receives (hsaid k) ?_ (h.takes k e he) (h.names_short k)
    exact fun _ _ hnth => hseen.nth hnth

/-- A frame that arrives is received as it was sent, and can be given back. -/
theorem SentFrame.WellFormed.receives (h : m.WellFormed) (ha : m.Arrives b) (hx : FrameReady x L K)
    (hash : HashFunction) : ∃ s x' frame, m.decode hash x b = .ok (some s, x', { b with index := b.size }) ∧
      s ∉ K ∧ x'.frames.load s = some frame ∧ m.Received x' b frame ∧
      ∃ x'', amqpFrameCleanup x' s = .ok x'' ∧ Restored x L K x'' := by
  obtain ⟨s, x', hrun, frame, F, A, hacc⟩ := h.decodes ha hx hash
  obtain ⟨x'', hclean, hrej⟩ := hacc.takes.cleanup x'.frames hacc.fresh hacc.others hacc.frames hacc.load
  exact ⟨s, x', frame, hrun, hacc.fresh, hacc.load, hacc.received h ha, x'', hclean, hrej.restored⟩

/-! ## Requests -/

theorem spelled_string {bytes : List UInt8} (h : ∀ x ∈ bytes, x ≠ 0) : (Scalar.string bytes).spelled = true :=
  List.all_eq_true.2 fun x hx => bne_iff_ne.2 (h x hx)

/-- Frames without texts at the end. -/
theorem FrameFields.wellFormed {last : Scalar} (hlen : vs.length < 255)
    (hspelled : ∀ v ∈ vs ++ [last], v.spelled = true) (hlast : last.isEmptyText = false) :
    (FrameFields.scalars (vs ++ [last])).WellFormed := by
  refine ⟨by rw [List.length_append, List.length_singleton]; omega, hspelled, fun v hv => ?_⟩
  rw [List.getLast?_concat, Option.some.injEq] at hv
  rwa [← hv]

theorem takes_cons {d : FieldDecoder} {ds : List FieldDecoder} {v : Nat → FieldValue}
    (hfirst : d.takes (v 0) = true)
    (hrest : ∀ (i : Nat) (e : FieldDecoder), ds[i]? = some e → e.takes (v (i + 1)) = true) :
    ∀ (i : Nat) (e : FieldDecoder), (d :: ds)[i]? = some e → e.takes (v i) = true := by
  rintro (_ | i) e he
  · obtain rfl := Option.some.inj he
    exact hfirst
  · exact hrest i e he

theorem takes_mechanisms (h : names ≠ []) :
    FieldDecoder.takes ((FrameFields.mechanisms names).value 0) .mandatoryMultipleSymbol = true := by
  match names, h with
  | [name], _ => rfl
  | _ :: _ :: _, _ => rfl

/-- Fields that are left out. -/
theorem takes_none {ds : List FieldDecoder} (h : ∀ d ∈ ds, d.takes (.scalar .null) = true) :
    ∀ (i : Nat) (e : FieldDecoder), ds[i]? = some e → e.takes (.scalar .null) = true :=
  fun _ e he => h e (List.mem_of_getElem? he)

/-- The frames of a connection are well formed. -/
theorem FrameRequest.Sound.wellFormed {connection : EncodingConnection} {r : FrameRequest}
    (hs : r.Sound connection) (hm : r.frame connection = some m)
    (hroom : m.size + 16 ≤ amqpBufferFragmentSize) : m.WellFormed := by
  cases r with
  | saslMechanisms =>
    rw [FrameRequest.frame] at hm
    split at hm
    · cases hm
    · rename_i hne
      cases hm
      obtain ⟨hnames, hfit⟩ := hs
      have hne' : connection.plugins.map (·.mechanismName) ≠ [] := by rwa [ne_eq, List.map_eq_nil_iff]
      refine ⟨hroom, ⟨hne', ?_, fun name hname => ?_⟩, takes_cons ?_ fun i e he => by cases he⟩
      · rw [List.length_map, List.forall_mem_map]
        exact hfit
      · obtain ⟨p, hp, rfl⟩ := List.mem_map.1 hname
        exact ⟨(hnames p hp).1, hnames.spelled hp⟩
      · exact takes_mechanisms hne'
  | saslInit plugin =>
    simp only [FrameRequest.frame, Option.bind_eq_some_iff, Option.map_eq_some_iff] at hm
    obtain ⟨hostname, hh, response, -, rfl⟩ := hm
    obtain ⟨hname, hhost⟩ := hs
    obtain ⟨hne, hzero⟩ := hhost hostname hh
    have hlen : [Scalar.symbol plugin.mechanismName, .binary response].length < 255 := by simp
    refine ⟨hroom, FrameFields.wellFormed hlen ?_ ?_, takes_cons rfl (takes_cons rfl (takes_cons rfl (takes_none (by decide))))⟩
    · simp only [List.cons_append, List.nil_append, List.forall_mem_cons]
      exact ⟨hname, rfl, spelled_string hzero, List.forall_mem_nil _⟩
    · exact Bool.eq_false_iff.2 fun he => hne (List.isEmpty_iff.1 he)
  | saslOutcome plugin =>
    cases hm
    have hlen : ([] : List Scalar).length < 255 := by decide
    refine ⟨hroom, FrameFields.wellFormed hlen (by simp [Scalar.spelled]) rfl,
      takes_cons ?_ (takes_none (by decide))⟩
    exact decide_eq_true hs
  | amqpOpen =>
    cases hm
    obtain ⟨hid, hhost⟩ := hs
    have hlen : ∀ v1 v2 v3 v4 : Scalar, [v1, v2, v3, v4].length < 255 := by simp
    have hhost' : (if connection.isClient then Scalar.string (amqpConnectionTargetHost connection)
        else .null).spelled = true := by
      cases connection.isClient
      · rfl
      · exact spelled_string hhost
    refine ⟨hroom, FrameFields.wellFormed (hlen _ _ _ _) ?_ rfl,
      takes_cons rfl (takes_cons ?_ (takes_cons rfl (takes_cons rfl (takes_cons rfl (takes_none (by decide))))))⟩
    · simp only [List.cons_append, List.nil_append, List.forall_mem_cons]
      exact ⟨spelled_string hid, hhost', rfl, rfl, rfl, List.forall_mem_nil _⟩
    · cases connection.isClient <;> rfl
  | amqpClose =>
    cases hm
    exact ⟨hroom, ⟨by decide, List.forall_mem_nil _, fun l hl => by cases hl⟩, takes_none (by decide)⟩
  | amqpBegin session =>
    cases hm
    have hlen : ∀ v1 v2 v3 v4 : Scalar, [v1, v2, v3, v4].length < 255 := by simp
    refine ⟨hroom, FrameFields.wellFormed (hlen _ _ _ _) ?_ rfl,
      takes_cons ?_ (takes_cons rfl (takes_cons rfl (takes_cons rfl (takes_cons rfl (takes_none (by decide))))))⟩
    · cases session.remoteDefined <;> simp [Scalar.spelled]
    · cases session.remoteDefined <;> rfl

/-- What a connection sends is received as it was meant, and nothing is left of it on either side. -/
theorem FrameRequest.received_as_sent {x : EncodeContext} {y : FrameContext} {L K L' K' : Finset Slot}
    {connection : EncodingConnection} {r : FrameRequest} (hx : EncodeReady AmqpType.Blank x L K)
    (hy : FrameReady y L' K') (hash : HashFunction) (hm : r.frame connection = some m)
    (hs : r.Sound connection) (hroom : m.size + 16 ≤ amqpBufferFragmentSize) :
    ∃ s b x', r.encode connection x = .ok (.ok (s, b), x') ∧ Sends x L K m.bytes s b x' ∧
      ∀ b' : Buffer, b'.index = 0 → b'.size = b.size → b'.bytes 0 b'.size = b.bytes 0 b.size →
        ∃ t y' frame, m.decode hash y b' = .ok (some t, y', { b' with index := b'.size }) ∧ t ∉ K' ∧
          y'.frames.load t = some frame ∧ m.Received y' b' frame ∧
          ∃ y'', amqpFrameCleanup y' t = .ok y'' ∧ Restored y L' K' y'' := by
  obtain ⟨s, b, x', hrun, hsends⟩ := FrameRequest.encode_sends hx hm hroom
  refine ⟨s, b, x', hrun, hsends, fun b' hindex hsize hbytes => ?_⟩
  have harrives : m.Arrives b' := by
    refine ⟨hindex, ?_, hbytes.trans hsends.bytes⟩
    rw [hsize, hsends.size, m.length_bytes]
  exact (hs.wellFormed hm hroom).receives harrives hy hash

theorem received_as_sent_plain : ∃ m : SentFrame, (FrameRequest.saslInit plainInstance).frame plainClient = some m ∧
    ∃ s b x', (FrameRequest.saslInit plainInstance).encode plainClient
        (EncodeContext.create Malloc.bump 21 4) = .ok (.ok (s, b), x') ∧
      Sends (EncodeContext.create Malloc.bump 21 4) ∅ ∅ m.bytes s b x' ∧
      ∀ b' : Buffer, b'.index = 0 → b'.size = b.size → b'.bytes 0 b'.size = b.bytes 0 b.size →
        ∃ t y' frame, m.decode (fun _ => 0) (FrameContext.create (fun _ => 0) Malloc.bump 21 4) b' =
            .ok (some t, y', { b' with index := b'.size }) ∧ t ∉ (∅ : Finset Slot) ∧
          y'.frames.load t = some frame ∧ m.Received y' b' frame ∧
          ∃ y'', amqpFrameCleanup y' t = .ok y'' ∧
            Restored (FrameContext.create (fun _ => 0) Malloc.bump 21 4) ∅ ∅ y'' := by
  have hx := EncodeContext.create_ready Malloc.bump (n := 21) (k := 4) (by decide) (by decide) (by decide)
    (by decide)
  have hy := FrameContext.create_ready (fun _ => 0) Malloc.bump (n := 21) (k := 4) (by decide) (by decide)
    (by decide) (by decide)
  refine ⟨_, rfl, FrameRequest.received_as_sent hx hy (fun _ => 0) rfl ⟨by decide, fun hostname hh => ?_⟩
    (by decide +kernel)⟩
  obtain rfl := Option.some.inj hh
  exact ⟨by decide, by decide +kernel⟩

end
end Amqp
