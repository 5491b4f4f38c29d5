import LibAmqp.Codec.Print
import LibAmqp.Codec.Proof.Glance

/-!
# When a type can be printed

* `amqpTypePrint_spec`: printing a decoded type returns if its reading is printable; if it is not,
  the process is lost.
-/

namespace Amqp

open Lib

/-- The flags of the types a decoder decodes. -/
def TypeDecoder.flags : TypeDecoder → TypedefFlags
  | .describedType => isComposite
  | .null => isNull
  | .booleanTrue | .booleanFalse | .boolean => isBoolean
  | .uint0 | .smallUint | .uint => isInt ||| isUnsigned
  | .ulong0 | .smallUlong | .ulong => isLong ||| isUnsigned
  | .ubyte => isByte ||| isUnsigned
  | .ushort => isShort ||| isUnsigned
  | .byte => isByte
  | .short => isShort
  | .smallInt | .int => isInt
  | .smallLong | .long => isLong
  | .float => isFloat
  | .double => isDouble
  | .char => isChar
  | .timestamp => isTimestamp
  | .uuid => isUuid
  | .decimal32 => isDecimal32
  | .decimal64 => isDecimal64
  | .decimal128 => isDecimal128
  | .extensionType => isExtension
  | .binaryVbin8 | .binaryVbin32 => isBinary
  | .stringStr8Utf8 | .stringStr32Utf8 => isString
  | .symbolSym8 | .symbolSym32 => isSymbol
  | .list0 | .list8 | .list32 => isList
  | .map8 | .map32 => isMap
  | .array8 | .array32 => isArray

theorem table_decoder_flags : ∀ m ∈ typeLookupTable.toList, m.typedefFlags = m.typeDecoder.flags := by
  decide +kernel

/-- A call that returns if `p` holds and stops the process if not. -/
def ReturnsIf (p : Bool) (r : Except Fault Unit) : Prop :=
  match p with
  | true => r = .ok ()
  | false => ∃ e, r = .error e ∧ e ≠ .outOfFuel

section
variable {c : Context} {b : Buffer} {n : Node} {kids rest F : Layout} {t : AmqpType}

theorem ReturnsIf.bind {p q : Bool} {r : Except Fault Unit} {f : Unit → Except Fault Unit}
    (h : ReturnsIf p r) (hf : ReturnsIf q (f ())) : ReturnsIf (p && q) (r >>= f) := by
  cases p with
  | true =>
    obtain rfl := h
    rwa [Bool.true_and, Fault.ok_bind]
  | false =>
    obtain ⟨e, rfl, he⟩ := h
    exact ⟨e, rfl, he⟩

/-- A pair at a time is one after the other, if the pairs come out even. -/
theorem printEntries_eq (print : Print) (entries : Nat) : ∀ n i,
    printEntries print c entries n i = if n % 2 = 0 then printElements print c entries n i
      else do
        printElements print c entries n i
        print c (← c.getElement entries (i + n))
  | 0, i => rfl
  | 1, i => by
    simp only [printEntries, printElements, Nat.mod_succ, one_ne_zero, if_false, bind_assoc,
      Fault.ok_bind]
  | n + 2, i => by
    have hodd : (n + 2) % 2 = n % 2 := by omega
    rw [printEntries, printEntries_eq print entries n (i + 2), hodd]
    by_cases h : n % 2 = 0
    · simp only [if_pos h, printElements]
    · simp only [if_neg h, printElements, bind_assoc, Nat.add_assoc, Nat.add_comm 2 n]

theorem printElements_two (print : Print) (elements : Nat) :
    printElements print c elements 2 0 = (do
      print c (← c.getElement elements 0)
      print c (← c.getElement elements 1)) := by
  have hunit : ∀ r : Except Fault Unit, (r >>= fun _ => .ok ()) = r := by
    intro r
    cases r <;> rfl
  simp only [printElements, hunit]

theorem Item.is_of_decoder {item : Item} {m : EncodingMetaData} (hm : item.metaData = some m)
    (mask : TypedefFlags) : item.is mask = (m.typeDecoder.flags &&& mask != 0#32) := by
  have hl : amqpTypeMetaDataLookup item.code = some m := hm
  rw [Item.is, codeFlags, hl, Option.elim, table_decoder_flags m (lookup_mem hl).1]

theorem TypeDecoder.variable_iff (d : TypeDecoder) :
    (d.flags &&& isVariableMask != 0#32) = (d.kind == .variableWidth) := by
  cases d <;> rfl

/-- A type's bytes can be printed if there are none, or if it is a text. -/
theorem printBytes_spec (hs : Seen c b n kids) (ht : Glance c b.input b.address n kids t)
    {m : EncodingMetaData} (hm : n.item.metaData = some m) :
    ReturnsIf ((n.item.glimpse b.input).bytes.isEmpty || m.kind == .variableWidth) (printBytes b t) := by
  have hsize := ht.size (by rw [hm]; exact Option.some_ne_none m)
  have hempty : (n.item.glimpse b.input).bytes.isEmpty = decide (n.item.size = 0) := by
    rw [Bool.eq_iff_iff, decide_eq_true_iff, List.isEmpty_iff_length_eq_zero]
    simp only [Item.glimpse, Input.bytes, List.length_map, List.length_range]
  have hvar : t.typeIsVariable = (m.kind == .variableWidth) := by
    rw [AmqpType.typeIsVariable, ht.flags _ (by decide) (by decide), Item.is_of_decoder hm,
      TypeDecoder.variable_iff]
  rw [hempty, printBytes, hsize, hvar]
  by_cases h0 : n.item.size = 0
  · rw [if_pos h0, decide_eq_true h0, Bool.true_or]
    exact rfl
  · rw [if_neg h0, decide_eq_false h0, Bool.false_or]
    cases hk : m.kind == .variableWidth with
    | false => exact ⟨_, rfl, by decide⟩
    | true =>
      have hkind : n.item.kind = some .variableWidth := by
        rw [Item.kind, hm, Option.map_some, eq_of_beq hk]
      have hword := ht.text hkind (.inl h0)
      have hindex := ht.index (by rw [hm]; exact Option.some_ne_none m) h0
      have hread := Buffer.uncheckedRead_ok (b := b) hs.covers.window
      simp only [Bool.not_true, Bool.false_eq_true, if_false, ne_eq, hword, not_true_eq_false, hindex,
        hread, Fault.ok_bind]
      exact rfl

/-- What the list, map and array methods print, from the first element on. -/
def Prints (c : Context) (b : Buffer) (F : Layout) : Prop :=
  ∀ fuel, F.slots.length < fuel → ∀ elements i,
    (∀ k p, F.pointers[k]? = some p → c.getElement elements (i + k) = .ok p) →
    ReturnsIf (F.reading b.input).printable
      (printElements (amqpNestedTypePrint b fuel) c elements F.length i)

theorem Layout.length_reading (inp : Input) (F : Layout) : (F.reading inp).length = F.length := by
  rw [Layout.reading, read, Layout.outline, Forest.length_map, Forest.length_map]

/-- The elements of a type, given that its decoder's method prints these. -/
theorem Prints.elements (hk : Prints c b kids) (ht : Glance c b.input b.address n kids t)
    (hc : n.item.is isContainerMask = true) {fuel : Nat} (hfuel : kids.slots.length < fuel) :
    ReturnsIf (kids.reading b.input).printable
      (printElements (amqpNestedTypePrint b fuel) c t.value.elements kids.length 0) := by
  refine hk fuel hfuel t.value.elements 0 fun k p hp => ?_
  rw [Nat.zero_add]
  exact ht.elements hc k p hp

/-- The entries of a map that come out even, and the null pointer behind them if they do not. -/
theorem Prints.entries (hk : Prints c b kids) (ht : Glance c b.input b.address n kids t)
    (hc : n.item.is isContainerMask = true) {fuel : Nat} (hfuel : kids.slots.length < fuel) :
    ReturnsIf (kids.length % 2 == 0 && (kids.reading b.input).printable)
      (printEntries (amqpNestedTypePrint b fuel) c t.value.elements kids.length 0) := by
  have hels := hk.elements ht hc hfuel
  rw [printEntries_eq]
  by_cases h : kids.length % 2 = 0
  · rw [if_pos h, h]
    exact hels
  · rw [if_neg h, beq_false_of_ne h, Bool.false_and, ← Bool.and_false (kids.reading b.input).printable]
    refine hels.bind ?_
    obtain ⟨fuel, rfl⟩ := Nat.exists_eq_succ_of_ne_zero (Nat.ne_of_gt (Nat.zero_lt_of_lt hfuel))
    rw [Nat.zero_add]
    cases hget : c.getElement t.value.elements kids.length with
    | error e =>
      refine ⟨e, rfl, ?_⟩
      rintro rfl
      unfold Context.getElement at hget
      split at hget
      · cases hget
      · split at hget <;> cases hget
    | ok p =>
      cases p with
      | none => exact ⟨_, rfl, by decide⟩
      | some p => exact absurd hget (ht.beyond hc p)

/-- The method of a decoder, for a type that is accepted. -/
theorem TypeDecoder.print_spec (hk : Prints c b kids) (hs : Seen c b n kids)
    (ht : Glance c b.input b.address n kids t) {m : EncodingMetaData} (hm : n.item.metaData = some m)
    (hsupp : m.kind ≠ .unsupported) (hacc : n.item.accepted = true) {fuel : Nat}
    (hfuel : kids.slots.length < fuel) :
    ReturnsIf (m.typeDecoder != .decimal32 && m.typeDecoder != .decimal64 &&
        (!n.item.is isMap || kids.length % 2 == 0) && (kids.reading b.input).printable)
      (m.typeDecoder.print (amqpNestedTypePrint b fuel) c b t) := by
  have hflag : ∀ mask, mask &&& roleMask = 0#32 → isInvalid &&& mask = 0#32 →
      t.typedefFlagsTest mask = (m.typeDecoder.flags &&& mask != 0#32) := by
    intro mask h1 h2
    rw [ht.flags mask h1 h2, Item.is_of_decoder hm]
  have hbytes := printBytes_spec hs ht hm
  have hnil := ht.noKids
  have hcount := ht.count
  have hels := fun hc => hk.elements ht hc hfuel
  have hentries := fun hc => hk.entries ht hc hfuel
  have hdesc := ht.described
  simp only [Item.is_of_decoder hm] at hnil hcount hels hentries hdesc ⊢
  simp only [EncodingMetaData.kind] at hsupp hbytes
  generalize m.typeDecoder = d at hflag hbytes hnil hcount hels hentries hdesc hsupp ⊢
  cases d
  case extensionType | decimal128 => exact absurd rfl hsupp
  case decimal32 | decimal64 => exact ⟨_, rfl, by decide⟩
  case describedType =>
    have h := hels rfl
    rw [hdesc rfl, printElements_two] at h
    exact h
  case map8 | map32 =>
    have h := hentries rfl
    rw [TypeDecoder.print, hcount rfl fun _ => hacc]
    exact h
  case list0 | list8 | list32 | array8 | array32 =>
    have h := hels rfl
    rw [TypeDecoder.print, hcount rfl fun _ => hacc]
    exact h
  case binaryVbin8 | binaryVbin32 | stringStr8Utf8 | stringStr32Utf8 | symbolSym8 | symbolSym32 =>
    obtain rfl := hnil rfl
    rw [show (_ == Kind.variableWidth) = true from rfl, Bool.or_true] at hbytes
    exact hbytes
  -- the assertions about numbers are those of their own format codes
  all_goals
    obtain rfl := hnil rfl
    simp only [TypeDecoder.print, assertTrue, PrimitiveType.test, PrimitiveType.flags,
      hflag isByte (by decide) (by decide), hflag isShort (by decide) (by decide),
      hflag isInt (by decide) (by decide), hflag isLong (by decide) (by decide),
      hflag isUnsigned (by decide) (by decide), hflag isFloat (by decide) (by decide),
      hflag isDouble (by decide) (by decide), hflag isChar (by decide) (by decide),
      hflag isTimestamp (by decide) (by decide)]
    exact rfl

/-- A type is printed as its reading says. -/
theorem amqpNestedTypePrint_node (hk : Prints c b kids) (hs : Seen c b n kids)
    (hsupp : n.item.Supported kids.outline) {fuel : Nat} (hfuel : kids.slots.length < fuel) :
    ReturnsIf ((n.item.glimpse b.input).printable kids.length (kids.reading b.input).printable)
      (amqpNestedTypePrint b (fuel + 1) c (some n.slot)) := by
  obtain ⟨t, ht⟩ := hs.glance
  have hg : (n.item.glimpse b.input).metaData = n.item.metaData := rfl
  have hload := ht.loaded
  rw [amqpNestedTypePrint, hload, Fault.ok_bind, ht.metaData, Glimpse.printable, hg]
  cases hm : n.item.metaData with
  | none => exact ⟨_, rfl, by decide⟩
  | some m =>
    have hkind : m.kind ≠ .unsupported := by
      intro h
      apply hsupp
      rw [Item.kind, hm, Option.map_some, h]
    simp only [ht.invalid]
    cases hacc : n.item.accepted with
    | true =>
      rw [if_pos (show (n.item.glimpse b.input).accepted = true from hacc)]
      exact TypeDecoder.print_spec hk hs ht hm hkind hacc hfuel
    | false =>
      rw [if_neg (show ¬ (n.item.glimpse b.input).accepted = true by simp [Item.glimpse, hacc])]
      exact printBytes_spec hs ht hm

/-- Every list of decoded types is printed as its reading says. -/
theorem prints (hF : F.All (Seen c b)) (hsupp : F.outline.All Item.Supported) : Prints c b F := by
  induction F with
  | nil => exact fun _ _ _ _ _ => rfl
  | hole rest ih =>
    intro fuel hfuel elements i hp
    obtain ⟨fuel, rfl⟩ := Nat.exists_eq_succ_of_ne_zero (Nat.ne_of_gt (Nat.zero_lt_of_lt hfuel))
    have hhead : c.getElement elements i = .ok none := hp 0 _ rfl
    simp only [Forest.length, printElements, hhead, Fault.ok_bind]
    exact ⟨.wildPointer, rfl, by decide⟩
  | node n kids rest ihk ihr =>
    intro fuel hfuel elements i hp
    obtain ⟨hs, hks, hrs⟩ := hF
    obtain ⟨hs', hks', hrs'⟩ := hsupp
    obtain ⟨fuel, rfl⟩ := Nat.exists_eq_succ_of_ne_zero (Nat.ne_of_gt (Nat.zero_lt_of_lt hfuel))
    simp only [Layout.slots, List.length_cons, List.length_append] at hfuel
    have hless : (Layout.slots kids).length < fuel := by omega
    have hnode := amqpNestedTypePrint_node (ihk hks hks') hs hs' hless
    have hrest := ihr hrs hrs' (fuel + 1) (by omega) elements (i + 1) fun k p hk => by
      rw [Nat.add_assoc, Nat.add_comm 1 k]
      exact hp (k + 1) p hk
    have hhead : c.getElement elements i = .ok (some n.slot) := hp 0 _ rfl
    simp only [Forest.length, printElements, hhead, Fault.ok_bind]
    have hlen : (Layout.reading b.input kids).length = kids.length := Layout.length_reading _ _
    rw [← hlen] at hnode
    exact hnode.bind hrest

/-- Printing the result of a decode, or one of its types. -/
theorem amqpTypePrint_spec (hs : Seen c b n kids) (hkids : kids.All (Seen c b))
    (hsupp : (Layout.outline (.node n kids .nil)).All Item.Supported)
    (hfuel : kids.slots.length < c.types.outstandingAllocations) :
    ReturnsIf (Layout.reading b.input (.node n kids .nil)).printable
      (amqpTypePrint b c (some n.slot)) := by
  have h := amqpNestedTypePrint_node (prints hkids hsupp.2.1) hs hsupp.1 hfuel
  rw [← Layout.length_reading b.input kids] at h
  simp only [Layout.reading, Layout.outline, read, Forest.map, Reading.printable, Bool.and_true]
  exact h

end
end Amqp
