import LibAmqp.Codec.Proof.Array
import LibAmqp.Transport.Mechanisms
import Mathlib.Algebra.Order.BigOperators.Group.List

/-!
# Which lists of SASL mechanisms are announced as they are

* `amqpSaslMechanismsEncode_eq`: the function makes its calls of the encoder.
* `Holds.multipleSymbols`: the list that is made of a decoded symbol or array.
* `announces_iff`: the names that are announced are those of the plugins unless there is more than one
  plugin and a name is long.
-/

namespace Amqp

open Lib Memory Buffer

/-! ## The calls -/

theorem countMechanisms_eq (plugins : List SaslPlugin) : ∀ s : MechanismCount,
    countMechanisms s plugins = ⟨s.count + plugins.length,
      s.totalLength + ((plugins.map (·.mechanismName)).map List.length).sum,
      s.containsLongName || containsLongName (plugins.map (·.mechanismName))⟩ := by
  induction plugins with
  | nil => intro s; simp [countMechanisms, containsLongName]
  | cons p ps ih =>
    intro s
    rw [countMechanisms, ih]
    simp [containsLongName, Nat.add_assoc, Nat.add_comm 1, Bool.or_assoc]

theorem encodeShortMechanisms_eq (plugins : List SaslPlugin) : ∀ (c : Context) (b : Buffer),
    encodeShortMechanisms c b plugins = encodeMechanisms false c b plugins := by
  induction plugins with
  | nil => exact fun _ _ => rfl
  | cons p ps ih =>
    intro c b
    rw [encodeShortMechanisms, encodeMechanisms, if_neg Bool.false_ne_true]
    simp only [ih]
    rfl

/-- The second half of the loop's body, and the rest of the loop. -/
theorem encodeSymbolSym8_then {long : Bool} {ps : List SaslPlugin} (ih : ∀ (c : Context) (b : Buffer),
      encodeMechanisms long c b ps = (do
        let (_, c, b) ← (CallTree.leaves
          (mechanismLeaves long (ps.map (·.mechanismName)))).encode c b
        .ok (c, b))) (name : List UInt8) (c : Context) (b : Buffer) :
    (do
      let (_, c, b) ← amqpEncodeSymbolSym8 c b name
      encodeMechanisms long c b ps) = (do
      let (_, c, b) ← (CallTree.leaf (.symbolSym8 name)
        (.leaves (mechanismLeaves long (ps.map (·.mechanismName))))).encode c b
      .ok (c, b)) := by
  simp only [CallTree.encode, Leaf.encode, ih, bind_assoc, Fault.ok_bind]

theorem encodeMechanisms_eq (long : Bool) (plugins : List SaslPlugin) : ∀ (c : Context) (b : Buffer),
    encodeMechanisms long c b plugins = (do
      let (_, c, b) ← (CallTree.leaves
        (mechanismLeaves long (plugins.map (·.mechanismName)))).encode c b
      .ok (c, b)) := by
  induction plugins with
  | nil => exact fun _ _ => rfl
  | cons p ps ih =>
    intro c b
    have hsplit : mechanismLeaves long ((p :: ps).map (·.mechanismName)) =
        (if long then [.symbolSym32 p.mechanismName, .symbolSym8 p.mechanismName]
          else [.symbolSym8 p.mechanismName]) ++ mechanismLeaves long (ps.map (·.mechanismName)) := rfl
    rw [encodeMechanisms, hsplit]
    have hsym8 := encodeSymbolSym8_then ih p.mechanismName
    cases long with
    | false =>
      exact hsym8 c b
    | true =>
      rw [if_pos rfl, if_pos rfl]
      simp only [List.cons_append, List.nil_append, CallTree.leaves]
      rw [CallTree.encode]
      simp only [bind_assoc, Fault.ok_bind, hsym8]
      rfl

/-- What is returned for a container is its own type. -/
theorem container_encode (k : Former) (elements : CallTree) (c : Context) (b : Buffer) :
    (do
      let (types, c, b) ← (CallTree.container k elements .nil).encode c b
      .ok (types.headD none, c, b) : Encoding) = (do
      let (type, c, b) ← k.start c b
      let (_, c, b) ← elements.encode c b
      let (_, c, b) ← amqpCompleteType c b type
      .ok (type, c, b)) := by
  simp only [CallTree.encode, bind_assoc, Fault.ok_bind, List.headD_cons]

theorem mechanismsCalls_many {names : List (List UInt8)} (h : names.length ≠ 1) :
    mechanismsCalls names =
      if (names.map List.length).sum + names.length < 254 then
        .container .array8 (.leaves (mechanismLeaves false names)) .nil
      else .container .array32 (.leaves (mechanismLeaves (containsLongName names) names)) .nil := by
  match names, h with
  | [], _ => rfl
  | _ :: _ :: _, _ => rfl

theorem amqpSaslMechanismsEncode_eq {plugins : List SaslPlugin} (hne : plugins ≠ []) (c : Context)
    (b : Buffer) : amqpSaslMechanismsEncode c b plugins = (do
      let (types, c, b) ← (mechanismsCalls (plugins.map (·.mechanismName))).encode c b
      .ok (types.headD none, c, b)) := by
  match plugins, hne with
  | [p], _ =>
    rw [amqpSaslMechanismsEncode, countMechanisms_eq, if_pos (by rfl), List.map_cons, List.map_nil,
      mechanismsCalls]
    show _ = (do
      let (types, c, b) ← (CallTree.leaf (.scalar (.symbol p.mechanismName)) .nil).encode c b
      .ok (types.headD none, c, b))
    simp only [CallTree.encode, bind_assoc, Fault.ok_bind, List.headD_cons]
    show _ = (amqpEncodeSymbol c b p.mechanismName >>= _)
    cases amqpEncodeSymbol c b p.mechanismName <;> rfl
  | p :: q :: ps, _ =>
    have hcount : (p :: q :: ps).length = ((p :: q :: ps).map (·.mechanismName)).length :=
      (List.length_map ..).symm
    have hcalls : mechanismsCalls ((p :: q :: ps).map (·.mechanismName)) = _ :=
      mechanismsCalls_many (by simp)
    rw [amqpSaslMechanismsEncode, countMechanisms_eq, if_neg (by simp)]
    simp only [Nat.zero_add, Bool.false_or, encodeShortMechanisms_eq, encodeMechanisms_eq, hcount]
    rw [hcalls]
    by_cases h : (((p :: q :: ps).map (·.mechanismName)).map List.length).sum +
        ((p :: q :: ps).map (·.mechanismName)).length < 254
    · rw [if_pos h, if_pos h, container_encode]
      simp only [bind_assoc, Fault.ok_bind]
      rfl
    · rw [if_neg h, if_neg h, container_encode]
      simp only [bind_assoc, Fault.ok_bind]
      rfl

/-! ## The list of a decoded type -/

section
variable {c : Context} {b : Buffer} {s : Slot} {t : AmqpType} {name : List UInt8}

theorem symbol_test (h : t.valueFlags = isSymbol) (mask : TypedefFlags) (hmask : valueMask &&& mask = mask) :
    t.typedefFlagsTest mask = (isSymbol &&& mask != 0#32) := by
  rw [AmqpType.test_valueFlags hmask, h]

/-- A symbol that is held has its bytes. -/
theorem amqpSymbolInitializeFromType_spells (hload : c.types.load s = some t)
    (hflags : t.valueFlags = isSymbol) (hstored : (Scalar.symbol name).Stored b t) :
    ∃ r, amqpSymbolInitializeFromType c (some s) = .ok r ∧ r.Spells c b name := by
  have hsize : t.position.size = name.length := by
    rw [← hstored.2, Buffer.bytes, List.length_map, List.length_range]
  refine ⟨ReferenceType.symbol.initializeFromType s t, ?_, ?_, s, t, rfl, hload, hstored.2⟩
  · have htest : t.typedefFlagsTest isSymbol = true := symbol_test hflags _ (by decide)
    rw [amqpSymbolInitializeFromType, Context.load, hload, Fault.ok_bind, if_pos htest]
  · show (t.position.size : Int) = name.length
    rw [hsize]

/-- The loop over the elements of an array of symbols. -/
theorem symbolsFromArray_spells {elements : Nat} (names : List (List UInt8)) :
    ∀ (kids : List (Option Slot)) (i : Nat), Holds c b (.scalars (names.map .symbol)) kids →
      (∀ k x, kids[k]? = some x → c.getElement elements (i + k) = .ok x) →
      ∃ contents, symbolsFromArray c elements names.length i = .ok contents ∧
        List.Forall₂ (TypeRef.Spells c b) contents names := by
  induction names with
  | nil => exact fun _ _ _ _ => ⟨[], rfl, .nil⟩
  | cons name names ih =>
    rintro _ i ⟨s, t, kids, rfl, hload, -, hflags, hstored, hrest⟩ hget
    obtain ⟨r, hr, hspells⟩ := amqpSymbolInitializeFromType_spells hload hflags hstored
    obtain ⟨contents, hcontents, hall⟩ := ih kids (i + 1) hrest fun k x hx => by
      rw [Nat.add_assoc, Nat.add_comm 1]
      exact hget (k + 1) x hx
    have hfirst : c.getElement elements i = .ok (some s) := hget 0 _ rfl
    refine ⟨r :: contents, ?_, .cons hspells hall⟩
    rw [List.length_cons, symbolsFromArray, hfirst, Fault.ok_bind, hr, Fault.ok_bind, hcontents,
      Fault.ok_bind]

theorem Element.getElement {i : Nat} {x : Option Slot} (h : Element c t i x) :
    c.getElement t.value.elements i = .ok x := by
  obtain ⟨-, l, hl, hx⟩ := h
  rw [Context.getElement, hl]
  dsimp only
  rw [hx]

/-- Symbols in new memory. -/
theorem allocateSymbols_get (symbols : SymbolHeap) (contents : List TypeRef) :
    (allocateSymbols c symbols contents).2.get (allocateSymbols c symbols contents).1 = some contents := by
  rw [allocateSymbols, Heap.malloc_fst, Heap.get_malloc_self]

/-- The list that is made of one symbol. -/
theorem Holds.multipleSymbols_one (h : Holds c b (.scalar (.symbol name) .nil) [some s]) :
    MultipleSymbols c b s [name] := by
  obtain ⟨s', t, ptrs, hs, hload, -, hflags, hstored, -⟩ := h
  obtain ⟨rfl, -⟩ : s' = s ∧ ptrs = [] := by simpa [eq_comm] using hs
  obtain ⟨r, hr, hspells⟩ := amqpSymbolInitializeFromType_spells hload hflags hstored
  have hnull : t.typedefFlagsTest isNull = false := symbol_test hflags _ (by decide)
  have hsymbol : t.typedefFlagsTest isSymbol = true := symbol_test hflags _ (by decide)
  intro symbols multiple
  refine ⟨{ multiple with
      fnTable := some .multipleSymbol, type := some s', size := 1, data := (allocateSymbols c symbols [r]).1 },
    (allocateSymbols c symbols [r]).2, [r], ?_, rfl, allocateSymbols_get symbols [r], .cons hspells .nil⟩
  simp only [amqpMultipleSymbolInitialize, amqpTypeIsNull, loadType, Context.load, hload, Fault.ok_bind,
    hnull, hsymbol, hr, Bool.false_eq_true, if_false, if_true]

/-- The list that is made of an array, whose constructor is that of its elements. -/
theorem Holds.multipleSymbols {k : Former} {names : List (List UInt8)} {hd : Slot} {th : AmqpType}
    (hk : k.isArray = true) (h : Holds c b (.container k (.scalars (names.map .symbol)) .nil) [some s])
    (hload : c.types.load s = some t) (hcon : t.value.constructor = some hd)
    (hhd : c.types.load hd = some th) (hsym : th.valueFlags = isSymbol) (hne : names ≠ [])
    (hlen : names.length < 2 ^ 31) : MultipleSymbols c b s names := by
  obtain ⟨s', t', kids, ptrs, hs, hload', -, hflags, hcount, helem, hkids, -⟩ := h
  obtain ⟨rfl, -⟩ : s' = s ∧ ptrs = [] := by simpa [eq_comm] using hs
  obtain rfl : t = t' := Option.some.inj (hload.symm.trans hload')
  have hflags' : t.valueFlags = isArray := by
    rw [hflags]
    cases k <;> first | rfl | cases hk
  have htest : ∀ mask, valueMask &&& mask = mask →
      t.typedefFlagsTest mask = (isArray &&& mask != 0#32) := by
    intro mask hmask
    rw [AmqpType.test_valueFlags hmask, hflags']
  have hcount' : t.value.count = names.length := by
    rw [hcount, hkids.length, Values.length_scalars, List.length_map]
  obtain ⟨contents, hcontents, hall⟩ := symbolsFromArray_spells names kids 0 hkids fun k x hx => by
    rw [Nat.zero_add]
    exact ((helem k x).2 hx).getElement
  intro symbols multiple
  have hnull : t.typedefFlagsTest isNull = false := htest _ (by decide)
  have hsymbol : t.typedefFlagsTest isSymbol = false := htest _ (by decide)
  have harray : t.typedefFlagsTest isArray = true := htest _ (by decide)
  have helement : th.typedefFlagsTest isSymbol = true := symbol_test hsym _ (by decide)
  refine ⟨{ multiple with
      fnTable := some .multipleSymbol, type := some s', size := names.length,
      data := (allocateSymbols c symbols contents).1 },
    (allocateSymbols c symbols contents).2, contents, ?_, rfl, allocateSymbols_get symbols contents, hall⟩
  have hpos : 0 < names.length := List.length_pos_iff.2 hne
  simp only [amqpMultipleSymbolInitialize, amqpTypeIsNull, loadType, Context.load, hload, Fault.ok_bind,
    hnull, hsymbol, harray, hcon, hhd, helement, hcount', if_neg (Nat.not_le.2 hlen), if_pos hpos, hcontents,
    Bool.false_eq_true, if_false, if_true]

end

/-! ## What is announced -/

section
variable {c : Context} {live : Finset Slot} {b : Buffer} {plugins : List SaslPlugin}

/-- A symbol or an array of symbols that is decoded again. -/
theorem Regains.symbols {names : List (List UInt8)} {vs : Values} {stop : Nat}
    (hr : Ready AmqpType.Blank c live) (hi : b.index ≤ b.size) (hlen : names.length < 2 ^ 31)
    (hvs : (∃ name, names = [name] ∧ vs = .scalar (.symbol name) .nil) ∨
      names ≠ [] ∧ ∃ k : Former, k.isArray = true ∧ vs = .container k (.scalars (names.map .symbol)) .nil)
    (h : Regains c b stop vs) :
    ∃ s c', amqpDecode c b = .ok (some s, c', { b with index := stop }) ∧ Symbols c' b s names ∧
      MultipleSymbols c' b s names := by
  obtain ⟨s, c', hcall, hholds⟩ := h
  refine ⟨s, c', hcall, ?_⟩
  rcases hvs with ⟨name, rfl, rfl⟩ | ⟨hne, k, hk, rfl⟩
  · exact ⟨.inl ⟨name, rfl, hholds⟩, hholds.multipleSymbols_one⟩
  · obtain ⟨-, F, hlays, hptr⟩ := amqpDecode_ok hr hi hcall
    obtain ⟨name, names, rfl⟩ := List.exists_cons_of_ne_nil hne
    obtain ⟨t, hd, th, hload, hcon, hhd, hflags⟩ :=
      hlays.laid.array_constructor (fun _ h => h.1) hk hptr hholds
    exact ⟨.inr ⟨k, hk, hholds⟩, hholds.multipleSymbols hk hload hcon hhd hflags hne hlen⟩

/-- ASCII characters are those of symbols. -/
theorem MechanismNames.spelled (hnames : MechanismNames plugins) {p : SaslPlugin} (hp : p ∈ plugins) :
    (Scalar.symbol p.mechanismName).spelled = true := by
  have hascii : ∀ n : Fin 256, n < 128 → (UInt8.ofFin n &&& 0x80 == 0) = true := by decide +kernel
  exact List.all_eq_true.2 fun x hx => hascii x.toFin ((hnames p hp).2 x hx).2

theorem mechanismLeaves_short (names : List (List UInt8)) :
    mechanismLeaves false names = names.map .symbolSym8 := by
  rw [mechanismLeaves]
  simp only [Bool.false_eq_true, if_false]
  exact List.flatMap_pure_eq_map ..

/-- A name in a `sym8`, alone or in an array. -/
theorem symbolSym8_inPlace {name : List UInt8} (hspelled : (Scalar.symbol name).spelled = true)
    (hne : name ≠ []) (hlen : name.length < 256) : (Leaf.symbolSym8 name).inPlace false = true := by
  rw [Leaf.inPlace_text (l := .symbolSym8 name) rfl hlen hspelled]
  cases name with
  | nil => exact absurd rfl hne
  | cons => rfl

/-- Names that fit a `sym8`, in an array. -/
theorem announces_array {k : Former} (hr : Ready AmqpType.Blank c live) (hc : c.container = none)
    (hnames : MechanismNames plugins) (hne : plugins ≠ []) (hk : k.isArray = true)
    (hshort : ∀ p ∈ plugins, p.mechanismName.length < 256)
    (hcount : plugins.length < 256 ^ k.metaData.width)
    (hcalls : mechanismsCalls (plugins.map (·.mechanismName)) = .container k (.leaves
      (mechanismLeaves false (plugins.map (·.mechanismName)))) .nil)
    (hroom : b.size + (mechanismsCalls (plugins.map (·.mechanismName))).wire.length < b.capacity) :
    Announces c b plugins := by
  have hcap := b.capacity_le
  generalize hl : (plugins.map (·.mechanismName)).map Leaf.symbolSym8 = ls at *
  rw [mechanismLeaves_short, hl] at hcalls
  rw [hcalls] at hroom
  have hlength : ls.length = plugins.length := by rw [← hl, List.length_map, List.length_map]
  have hne0 : plugins.length ≠ 0 := fun h => hne (List.eq_nil_of_length_eq_zero h)
  have hmem : ∀ l ∈ ls, ∃ p ∈ plugins, l = .symbolSym8 p.mechanismName := by
    intro l h
    rw [← hl, List.map_map] at h
    obtain ⟨p, hp, rfl⟩ := List.mem_map.1 h
    exact ⟨p, hp, rfl⟩
  have hparts : (CallTree.leaves ls).parts k.isArray = ls.map (Leaf.part k.isArray) :=
    CallTree.parts_leaves ls
  have hcode : ∃ code, ∀ p ∈ (CallTree.leaves ls).parts k.isArray, p.code = code := by
    refine ⟨EncodingMetaData.symbolSym8.formatCode, fun part hpart => ?_⟩
    rw [hparts] at hpart
    obtain ⟨l, h, rfl⟩ := List.mem_map.1 hpart
    obtain ⟨p, -, rfl⟩ := hmem l h
    rfl
  have hsmall : plugins.length < amqpBufferMaxSize := by
    have hbody : ∀ l ∈ ls, (l.part true).body ≠ [] := fun l h => by
      obtain ⟨p, -, rfl⟩ := hmem l h
      exact List.cons_ne_nil _ _
    have hle := CallTree.count_le_wire hk hbody
    omega
  have hplaced : (CallTree.container k (.leaves ls) .nil).InPlace false false := by
    refine ⟨?_, CallTree.leaves_inPlace fun l h => ?_, trivial⟩
    · have hd : k ≠ .described := by
        rintro rfl
        cases hk
      rw [Former.Counts, if_neg hd, CallTree.length_leaves, hlength]
      refine ⟨fun _ h => absurd h hne0, hcount, ?_⟩
      simp only [amqpBufferMaxSize, Buffer.sizeError] at hsmall ⊢
      omega
    · obtain ⟨p, hp, rfl⟩ := hmem l h
      exact symbolSym8_inPlace (hnames.spelled hp) (hnames p hp).1 (hshort p hp)
  have hthird : (CallTree.container k (.leaves ls) .nil).NoThird :=
    ⟨fun h => (by rw [h] at hk; cases hk), CallTree.leaves_noThird _, trivial⟩
  obtain ⟨s, types, c1, b1, live1, hcall, hw, hr1, -, hvalid⟩ := CallTree.encode_container hr hc hthird
    (.inr ⟨⟨by rw [CallTree.length_leaves, hlength]; exact hne0, CallTree.leaves_filled _, trivial⟩, hroom⟩)
  have hone : (CallTree.container k (.leaves ls) .nil).OneCode :=
    ⟨fun _ => hk ▸ hcode, CallTree.leaves_oneCode _, trivial⟩
  have hregains := (CallTree.regains_written hr1 hw hroom.le rfl hone hplaced).regains
  refine ⟨some s, c1, b1, ?_, hvalid.2 fun _ => hcode, ?_⟩
  · rw [amqpSaslMechanismsEncode_eq hne, hcalls, hcall]
    rfl
  · refine Regains.symbols hr1 ?_ ?_ (.inr ⟨?_, k, hk, ?_⟩) hregains
    · exact hw.size ▸ Nat.le_add_right ..
    · rw [List.length_map]
      exact Nat.lt_trans hsmall (by decide)
    · exact fun h => hne (List.map_eq_nil_iff.1 h)
    · rw [CallTree.values, CallTree.values_leaves, ← hl, List.map_map]
      rfl

theorem Leaf.encode_types {l : Leaf} {rest : CallTree} {types : List (Option Slot)} {c' : Context}
    {b' : Buffer} (h : (CallTree.leaf l rest).encode c b = .ok (types, c', b')) : types ≠ [] := by
  rw [CallTree.encode] at h
  cases h1 : l.encode c b with
  | error e => rw [h1] at h; cases h
  | ok x =>
    rw [h1, Fault.ok_bind] at h
    dsimp only at h
    cases h2 : rest.encode x.2.1 x.2.2 with
    | error e => rw [h2] at h; cases h
    | ok y =>
      rw [h2, Fault.ok_bind] at h
      cases h
      exact List.cons_ne_nil _ _

/-- One name, of any length. -/
theorem announces_one {p : SaslPlugin} (hr : Ready AmqpType.Blank c live) (hc : c.container = none)
    (hnames : MechanismNames [p])
    (hroom : b.size + (mechanismsCalls [p.mechanismName]).wire.length < b.capacity) :
    Announces c b [p] := by
  have hcap := b.capacity_le
  have hp : p ∈ [p] := .head _
  have hcalls : mechanismsCalls [p.mechanismName] = .leaf (.scalar (.symbol p.mechanismName)) .nil := rfl
  rw [hcalls] at hroom
  have hsize : ((Scalar.symbol p.mechanismName).encoding false).2.length < Buffer.sizeError := by
    have hbody := length_le_leafBody ((Leaf.scalar (.symbol p.mechanismName)).encoding false).1
      ((Leaf.scalar (.symbol p.mechanismName)).encoding false).2
    have hwire : (CallTree.leaf (.scalar (.symbol p.mechanismName)) .nil).wire =
        ((Leaf.scalar (.symbol p.mechanismName)).part false).code ::
          ((Leaf.scalar (.symbol p.mechanismName)).part false).body := by
      simp [CallTree.wire, CallTree.parts, spelled]
    rw [hwire, List.length_cons, Leaf.part] at hroom
    dsimp only at hroom
    simp only [amqpBufferMaxSize, Buffer.sizeError] at hcap ⊢
    exact Nat.lt_of_le_of_lt hbody (by omega)
  have hempty : (Scalar.symbol p.mechanismName).isEmptyText = false :=
    Bool.eq_false_iff.2 fun h => (hnames p hp).1 (List.isEmpty_iff.1 h)
  have hplaced : (CallTree.leaf (.scalar (.symbol p.mechanismName)) .nil).InPlace false false :=
    ⟨(Scalar.inPlace_iff (hnames.spelled hp) hsize).2 fun _ => hempty, trivial⟩
  rcases (CallTree.leaf (.scalar (.symbol p.mechanismName)) .nil).encode_any hr hc
      (.inr ⟨trivial, hroom⟩) with ⟨hno, -⟩ | ⟨-, types, c1, b1, live1, hcall, hw, hr1, -, hvalid⟩
  · exact absurd trivial hno
  obtain ⟨type, types, rfl⟩ := List.exists_cons_of_ne_nil (Leaf.encode_types hcall)
  have hregains := (CallTree.regains_written hr1 hw hroom.le rfl trivial hplaced).regains
  refine ⟨type, c1, b1, ?_, hvalid.2 trivial type (.head _), ?_⟩
  · rw [amqpSaslMechanismsEncode_eq (List.cons_ne_nil _ _)]
    show ((mechanismsCalls [p.mechanismName]).encode c b >>= _) = _
    rw [hcalls, hcall]
    rfl
  · exact Regains.symbols hr1 (hw.size ▸ Nat.le_add_right ..)
      (by rw [List.length_map, List.length_singleton]; decide) (.inl ⟨_, rfl, rfl⟩) hregains

/-- The names are announced as they are: there is one plugin, or every name is shorter than 255. -/
def MechanismsFit (plugins : List SaslPlugin) : Prop :=
  plugins.length = 1 ∨ ∀ p ∈ plugins, p.mechanismName.length ≤ 254

section
variable (hr : Ready AmqpType.Blank c live) (hc : c.container = none) (hne : plugins ≠ [])
  (hroom : b.size + (mechanismsCalls (plugins.map (·.mechanismName))).wire.length < b.capacity)

include hr hc hne hroom

theorem MechanismsFit.announces (hnames : MechanismNames plugins) (h : MechanismsFit plugins) :
    Announces c b plugins := by
  by_cases hone : plugins.length = 1
  · obtain ⟨p, rfl⟩ := List.length_eq_one_iff.1 hone
    exact announces_one hr hc hnames hroom
  have hshort := h.resolve_left hone
  have hlong : containsLongName (plugins.map (·.mechanismName)) = false := by
    rw [containsLongName, List.any_eq_false]
    intro name hname
    obtain ⟨p, hp, rfl⟩ := List.mem_map.1 hname
    have := hshort p hp
    simp only [decide_eq_true_eq]
    omega
  have hmany : (plugins.map (·.mechanismName)).length ≠ 1 := by rwa [List.length_map]
  have hcalls := mechanismsCalls_many hmany
  have hshort' : ∀ p ∈ plugins, p.mechanismName.length < 256 := fun p hp =>
    Nat.lt_of_le_of_lt (hshort p hp) (by decide)
  split at hcalls
  · rename_i hsmall
    rw [List.length_map] at hsmall
    exact announces_array hr hc hnames hne rfl hshort' (Nat.lt_of_le_of_lt (Nat.le_add_left ..)
      (Nat.lt_trans hsmall (by decide))) hcalls hroom
  · rw [hlong] at hcalls
    refine announces_array hr hc hnames hne rfl hshort' ?_ hcalls hroom
    have hcap := b.capacity_le
    have hbody : ∀ l ∈ mechanismLeaves false (plugins.map (·.mechanismName)),
        (l.part true).body ≠ [] := fun l h => by
      rw [mechanismLeaves_short] at h
      obtain ⟨name, -, rfl⟩ := List.mem_map.1 h
      exact List.cons_ne_nil _ _
    have hle := CallTree.count_le_wire (show Former.array32.isArray = true from rfl) hbody
    rw [← hcalls, mechanismLeaves_short, List.length_map, List.length_map] at hle
    simp only [amqpBufferMaxSize] at hcap
    show plugins.length < 256 ^ 4
    omega

theorem Announces.fit (h : Announces c b plugins) : MechanismsFit plugins := by
  by_contra hno
  obtain ⟨hone, hlong⟩ := not_or.1 hno
  obtain ⟨p, hp, hlen⟩ : ∃ p ∈ plugins, 254 < p.mechanismName.length := by
    simpa only [not_forall, exists_prop, Nat.not_le] using hlong
  have hany : containsLongName (plugins.map (·.mechanismName)) = true :=
    List.any_eq_true.2 ⟨_, List.mem_map_of_mem hp, decide_eq_true hlen⟩
  have hsum := List.le_sum_of_mem (List.mem_map_of_mem (f := List.length)
    (List.mem_map_of_mem (f := fun p : SaslPlugin => p.mechanismName) hp))
  have hmany : (plugins.map (·.mechanismName)).length ≠ 1 := by rwa [List.length_map]
  have hcalls := mechanismsCalls_many hmany
  rw [if_neg (by omega), hany] at hcalls
  -- the first name is there in both widths
  obtain ⟨p1, ps, rfl⟩ := List.exists_cons_of_ne_nil hne
  rw [hcalls] at hroom
  have hthird : (CallTree.container .array32
      (.leaves (mechanismLeaves true ((p1 :: ps).map (·.mechanismName)))) .nil).NoThird :=
    ⟨nofun, CallTree.leaves_noThird _, trivial⟩
  obtain ⟨s, types, c1, b1, live1, hcall, -, -, -, hvalid⟩ := CallTree.encode_container hr hc hthird
    (.inr ⟨⟨by rw [CallTree.length_leaves]; exact nofun, CallTree.leaves_filled _, trivial⟩, hroom⟩)
  obtain ⟨type, c1', b1', hencode, hval, -⟩ := h
  rw [amqpSaslMechanismsEncode_eq (List.cons_ne_nil _ _), hcalls, hcall] at hencode
  cases hencode
  obtain ⟨code, hcode⟩ := hvalid.1 hval rfl
  rw [CallTree.parts_leaves] at hcode
  have h32 : EncodingMetaData.symbolSym32.formatCode = code := hcode _ (.head _)
  have h8 : EncodingMetaData.symbolSym8.formatCode = code := hcode _ (.tail _ (.head _))
  exact absurd (h32.trans h8.symm) (by decide)

/-- Exactly the lists that fit are announced. -/
theorem announces_iff (hnames : MechanismNames plugins) : Announces c b plugins ↔ MechanismsFit plugins :=
  ⟨Announces.fit hr hc hne hroom, MechanismsFit.announces hr hc hne hroom hnames⟩

end

end

/-! ## Two plugins -/

/-- A plugin that is looked at for its name only. -/
def SaslPlugin.named (name : List UInt8) : SaslPlugin := ⟨name, false, none⟩

theorem announces_iff_plain :
    Announces (Context.create Malloc.bump 21) (.received []) [.named [80, 76, 65, 73, 78], .named [65]] ↔
      MechanismsFit [.named [80, 76, 65, 73, 78], .named [65]] :=
  announces_iff (create_ready Malloc.bump (by decide) (by decide)).blank rfl (by decide)
    (by decide +kernel) (by unfold MechanismNames; decide +kernel)

/-- A name of 255 bytes is written twice, once in each width. -/
theorem not_announces_long :
    ¬ Announces (Context.create Malloc.bump 21) (.received []) [.named [65], .named (List.replicate 255 66)] := by
  intro h
  rcases h.fit (create_ready Malloc.bump (by decide) (by decide)).blank rfl (by decide)
    (by decide +kernel) with hone | hshort
  · exact absurd hone (by decide)
  · have hlong := hshort _ (.tail _ (.head _))
    rw [SaslPlugin.named, List.length_replicate] at hlong
    exact absurd hlong (by decide)

end Amqp
