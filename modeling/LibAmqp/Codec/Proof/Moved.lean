import LibAmqp.Codec.Proof.Glance

/-!
# Bytes that are moved

* `walkDecode_read`: the same bytes at the end of two inputs read the same, wherever they start and
  whatever stands before them.
-/

namespace Amqp

open Lib

/-- Two inputs end in the same `k` bytes, from `a` and from `a'` on. -/
structure Aligned (inp : Input) (a : Nat) (inp' : Input) (a' k : Nat) : Prop where
  size : inp.size = a + k
  size' : inp'.size = a' + k
  byte : ∀ j < k, inp.byte (a + j) = inp'.byte (a' + j)

section
variable {inp inp' : Input} {a a' k : Nat}

namespace Aligned

theorem bytes (h : Aligned inp a inp' a' k) {j n : Nat} (hj : j + n ≤ k) :
    inp.bytes (a + j) n = inp'.bytes (a' + j) n := by
  refine List.map_congr_left fun i hi => ?_
  have hi := List.mem_range.1 hi
  rw [Nat.add_assoc, Nat.add_assoc]
  exact h.byte (j + i) (by omega)

theorem available (h : Aligned inp a inp' a' k) (j n : Nat) :
    inp.Available (a + j) n ↔ inp'.Available (a' + j) n := by
  have h1 := h.size
  have h2 := h.size'
  simp only [Input.Available]
  omega

theorem field (h : Aligned inp a inp' a' k) (w : Nat) {j : Nat} (hj : j ≤ k) : ∃ r j',
    inp.field w (a + j) = (r, a + j') ∧ inp'.field w (a' + j) = (r, a' + j') ∧ j ≤ j' ∧ j' ≤ k := by
  have h1 := h.size
  have h2 := h.size'
  simp only [Input.field, Buffer.readField]
  by_cases hw : j + w ≤ k
  · have hb : (List.range w).map (fun i => inp.byte (a + j + i)) =
        (List.range w).map fun i => inp'.byte (a' + j + i) := h.bytes hw
    have hle : a + j + w ≤ inp.size := by omega
    have hle' : a' + j + w ≤ inp'.size := by omega
    rw [if_pos hle, if_pos hle', hb]
    exact ⟨_, j + w, by rw [Nat.add_assoc], by rw [Nat.add_assoc], by omega, hw⟩
  · rw [if_neg (by omega), if_neg (by omega)]
    exact ⟨none, j, rfl, rfl, Nat.le_refl j, hj⟩

theorem arrayConstructor (h : Aligned inp a inp' a' k) {j : Nat} (hj : j ≤ k) : ∃ code j',
    Amqp.arrayConstructor inp (a + j) = (code, a + j') ∧
    Amqp.arrayConstructor inp' (a' + j) = (code, a' + j') ∧ j ≤ j' ∧ j' ≤ k := by
  have h1 := h.size
  have h2 := h.size'
  simp only [Amqp.arrayConstructor]
  by_cases hlt : j < k
  · rw [if_pos (by omega), if_pos (by omega), h.byte j hlt]
    exact ⟨_, j + 1, rfl, rfl, by omega, hlt⟩
  · rw [if_neg (by omega), if_neg (by omega)]
    exact ⟨_, j, rfl, rfl, Nat.le_refl j, hj⟩

end Aligned

/-- Two walks that said the same and stopped at the same place, not before `j`. -/
def SameWalk (inp : Input) (a : Nat) (inp' : Input) (a' k j : Nat) (o o' : Outline) : Prop :=
  ∃ y, o.1.stop = a + y ∧ o'.1.stop = a' + y ∧ j ≤ y ∧ y ≤ k ∧
    o.1.glimpse inp = o'.1.glimpse inp' ∧ read inp o.2 = read inp' o'.2

/-- The same, of types that may be missing. -/
def SameNext (inp : Input) (a : Nat) (inp' : Input) (a' k j : Nat) : Option Outline → Option Outline → Prop
  | none, none => True
  | some o, some o' => SameWalk inp a inp' a' k j o o'
  | _, _ => False

theorem SameWalk.mono {j j' : Nat} {o o' : Outline} (h : SameWalk inp a inp' a' k j' o o') (hj : j ≤ j') :
    SameWalk inp a inp' a' k j o o' := by
  obtain ⟨y, h1, h2, h3, h4⟩ := h
  exact ⟨y, h1, h2, Nat.le_trans hj h3, h4⟩

/-- Where two such types stop. -/
theorem SameNext.stop {j : Nat} {o o' : Option Outline} (h : SameNext inp a inp' a' k j o o') (hj : j ≤ k) :
    ∃ y, stopOf o (a + j) = a + y ∧ stopOf o' (a' + j) = a' + y ∧ j ≤ y ∧ y ≤ k := by
  match o, o', h with
  | none, none, _ => exact ⟨j, rfl, rfl, Nat.le_refl j, hj⟩
  | some o, some o', h =>
    obtain ⟨y, h1, h2, h3, h4, -⟩ := h
    exact ⟨y, h1, h2, h3, h4⟩

theorem SameNext.accepted {j : Nat} {o o' : Option Outline} (h : SameNext inp a inp' a' k j o o') :
    acceptedOf o = acceptedOf o' := by
  match o, o', h with
  | none, none, _ => rfl
  | some o, some o', h =>
    obtain ⟨y, -, -, -, -, hg, -⟩ := h
    exact congrArg Glimpse.accepted hg

theorem SameNext.read {j : Nat} {o o' : Option Outline} (h : SameNext inp a inp' a' k j o o')
    {F F' : Forest Item} (hF : Amqp.read inp F = Amqp.read inp' F') :
    Amqp.read inp (.cons o F) = Amqp.read inp' (.cons o' F') := by
  match o, o', h with
  | none, none, _ =>
    simp only [Forest.cons, Amqp.read, Forest.map] at hF ⊢
    rw [hF]
  | some o, some o', h =>
    obtain ⟨y, -, -, -, -, hg, hr⟩ := h
    simp only [Forest.cons, Amqp.read, Forest.map] at hF hr ⊢
    rw [hF, hr, hg]

/-- Types one after the other say the same if each does. -/
theorem walkMany_moved (next next' : Nat → Option Outline) {j0 : Nat}
    (h : ∀ j, j0 ≤ j → j ≤ k → SameNext inp a inp' a' k j (next (a + j)) (next' (a' + j))) (n : Nat) :
    ∀ {j : Nat}, j0 ≤ j → j ≤ k → ∃ y, (walkMany next n (a + j)).2 = a + y ∧
      (walkMany next' n (a' + j)).2 = a' + y ∧ j ≤ y ∧ y ≤ k ∧
      read inp (walkMany next n (a + j)).1 = read inp' (walkMany next' n (a' + j)).1 := by
  induction n with
  | zero => exact fun {j} _ hj => ⟨j, rfl, rfl, Nat.le_refl j, hj, rfl⟩
  | succ n ih =>
    intro j hj0 hj
    have hn := h j hj0 hj
    obtain ⟨y, hy, hy', hle, hyk⟩ := hn.stop hj
    obtain ⟨z, hz, hz', hle', hzk, hr⟩ := ih (Nat.le_trans hj0 hle) hyk
    simp only [walkMany, hy, hy']
    exact ⟨z, hz, hz', Nat.le_trans hle hle', hzk, hn.read hr⟩

/-! ## Items -/

/-- Items that are no arrays read the same if their bytes do. -/
theorem glimpse_moved {m : EncodingMetaData} (hm : m ∈ typeLookupTable.toList) (hk : m.kind ≠ .array)
    {item item' : Item} (hc : item.code = m.formatCode) (hc' : item'.code = m.formatCode)
    (hacc : item.accepted = item'.accepted)
    (hb : inp.bytes item.index item.size = inp'.bytes item'.index item'.size) :
    item.glimpse inp = item'.glimpse inp' := by
  simp only [Item.glimpse, (Item.kind_of_code hm hc).1, (Item.kind_of_code hm hc').1, Option.bind_some,
    if_neg hk, hc, hc', hacc, hb]

/-- Arrays, too, if their bytes got as far as the constructor of the elements. -/
theorem glimpse_array_moved (h : Aligned inp a inp' a' k) {m : EncodingMetaData}
    (hm : m ∈ typeLookupTable.toList) {start start' y z size : Nat} {acc : Bool}
    (hb : z + size ≤ k) (hz : acc = true ∨ y = z + m.width + 1 → z + m.width ≤ k) :
    Item.glimpse inp ⟨m.formatCode, start, a + y, acc, a + z, size⟩ =
      Item.glimpse inp' ⟨m.formatCode, start', a' + y, acc, a' + z, size⟩ := by
  have hcode : Item.elementCode inp m ⟨m.formatCode, start, a + y, acc, a + z, size⟩ =
      Item.elementCode inp' m ⟨m.formatCode, start', a' + y, acc, a' + z, size⟩ := by
    simp only [Item.elementCode, Bool.or_eq_true, beq_iff_eq]
    by_cases hcond : acc = true ∨ y = z + m.width + 1
    · obtain ⟨code, j', hcon, hcon', -⟩ := h.arrayConstructor (hz hcond)
      rw [if_pos (hcond.imp_right fun h => by omega), if_pos (hcond.imp_right fun h => by omega),
        Nat.add_assoc, Nat.add_assoc, hcon, hcon']
    · rw [if_neg fun h => hcond (h.imp_right fun h => by omega),
        if_neg fun h => hcond (h.imp_right fun h => by omega)]
  simp only [Item.glimpse, Item.metaData, lookup_self m hm, Option.bind_some, hcode, h.bytes hb]

/-- A leaf that stopped at `y`, with its bytes at `z`. -/
theorem SameWalk.leaf (h : Aligned inp a inp' a' k) {m : EncodingMetaData}
    (hm : m ∈ typeLookupTable.toList) {start start' j y z size : Nat} {acc : Bool}
    (hy : j ≤ y) (hyk : y ≤ k) (hb : z + size ≤ k)
    (hz : m.kind = .array → acc = false ∧ y ≠ z + m.width + 1) :
    SameWalk inp a inp' a' k j (⟨m.formatCode, start, a + y, acc, a + z, size⟩, .nil)
      (⟨m.formatCode, start', a' + y, acc, a' + z, size⟩, .nil) := by
  refine ⟨y, rfl, rfl, hy, hyk, ?_, rfl⟩
  by_cases hk : m.kind = .array
  · refine glimpse_array_moved h hm hb fun hcond => ?_
    rcases hcond with hacc | hstop
    · rw [(hz hk).1] at hacc
      cases hacc
    · exact absurd hstop (hz hk).2
  · exact glimpse_moved hm hk rfl rfl rfl (h.bytes hb)

/-- A type at the same place, given what its constructor leads to. -/
theorem walkDecode_moved (h : Aligned inp a inp' a' k) {into into' : Walk} {j : Nat} (hj : j ≤ k)
    (hinto : ∀ m ∈ typeLookupTable.toList, j + 1 ≤ k →
      SameWalk inp a inp' a' k (j + 1) (into m (a + j) (a + (j + 1))) (into' m (a' + j) (a' + (j + 1)))) :
    SameNext inp a inp' a' k j (walkDecode into inp (a + j)) (walkDecode into' inp' (a' + j)) := by
  have h1 := h.size
  have h2 := h.size'
  simp only [walkDecode]
  by_cases hlt : j < k
  · rw [if_pos (by omega), if_pos (by omega), h.byte j hlt]
    cases hl : amqpTypeMetaDataLookup (inp'.byte (a' + j)) with
    | none =>
      refine ⟨j + 1, rfl, rfl, by omega, hlt, ?_, rfl⟩
      simp only [Item.glimpse, Item.metaData, hl, Option.bind_none]
      rfl
    | some m => exact (hinto m (lookup_mem hl).1 hlt).mono (by omega)
  · rw [if_neg (by omega), if_neg (by omega)]
    trivial

/-- The fields of a container, given what the elements say. -/
theorem walkContainer_moved (h : Aligned inp a inp' a' k) {m : EncodingMetaData}
    (hm : m ∈ typeLookupTable.toList) (hk : m.kind = .compound ∨ m.kind = .array) {start start' j : Nat}
    (hj : j ≤ k) {elements elements' : Nat → Nat → Nat → Nat → Outline}
    (hel : ∀ z size count, j + 1 ≤ z + m.width → z + size ≤ k → z + m.width ≤ k →
      SameWalk inp a inp' a' k j (elements (a + z) size count (a + (z + m.width)))
        (elements' (a' + z) size count (a' + (z + m.width)))) :
    SameWalk inp a inp' a' k j (walkContainer inp m start (a + j) elements)
      (walkContainer inp' m start' (a' + j) elements') := by
  have hw := field_width hm (.inr hk)
  obtain ⟨r, z, hf, hf', hjz, hzk⟩ := h.field m.width hj
  simp only [walkContainer, hf, hf']
  cases r with
  | none => exact .leaf h hm hjz hzk hzk fun _ => ⟨rfl, by omega⟩
  | some size =>
    have hz : z = j + m.width := by
      have := (field_some hf).2
      omega
    by_cases ha : inp.Available (a + z) size
    · have ha' := (h.available z size).1 ha
      simp only [if_pos ha, if_pos ha']
      have hsize : z + size ≤ k := by
        have h1 := h.size
        have h2 := ha.2
        omega
      obtain ⟨r2, y, hg, hg', hzy, hyk⟩ := h.field m.width hzk
      simp only [hg, hg']
      cases r2 with
      | none =>
        refine .leaf h hm (by omega) hyk hsize fun _ => ⟨rfl, ?_⟩
        rcases field_none hg with hy | hy <;> omega
      | some count =>
        have hy : y = z + m.width := by
          have := (field_some hg).2
          omega
        subst hy
        exact hel z size count (by omega) hsize hyk
    · have ha' : ¬ inp'.Available (a' + z) size := fun hno => ha ((h.available z size).2 hno)
      simp only [if_neg ha, if_neg ha']
      exact .leaf h hm hjz hzk hzk fun _ => ⟨rfl, by omega⟩

/-- What follows a constructor says the same at the same place; the fuel only has to be enough. -/
theorem walkInto_moved (h : Aligned inp a inp' a' k) : ∀ fuel fuel' : Nat,
    ∀ m ∈ typeLookupTable.toList, ∀ start start' j, j ≤ k → k - j < fuel → k - j < fuel' →
      SameWalk inp a inp' a' k j (walkInto inp fuel m start (a + j))
        (walkInto inp' fuel' m start' (a' + j)) := by
  intro fuel
  induction fuel with
  | zero => exact fun _ _ _ _ _ _ _ hf => absurd hf (Nat.not_lt_zero _)
  | succ fuel ih =>
    intro fuel' m hm start start' j hj hf hf'
    obtain ⟨fuel', rfl⟩ := Nat.exists_eq_succ_of_ne_zero (Nat.ne_zero_of_lt hf')
    -- a type that starts behind `j` has the fuel it needs
    have hnext : ∀ i, j ≤ i → i ≤ k → SameNext inp a inp' a' k i
        (walkDecode (walkInto inp fuel) inp (a + i)) (walkDecode (walkInto inp' fuel') inp' (a' + i)) := by
      intro i hji hi
      refine walkDecode_moved h hi fun m' hm' hlt => ?_
      exact ih fuel' m' hm' _ _ (i + 1) hlt (by omega) (by omega)
    simp only [walkInto]
    cases hk : m.kind with
    | unsupported => exact .leaf h hm (Nat.le_refl j) hj hj fun ha => by rw [hk] at ha; cases ha
    | zero => exact .leaf h hm (Nat.le_refl j) hj hj fun ha => by rw [hk] at ha; cases ha
    | fixed =>
      by_cases ha : inp.Available (a + j) m.width
      · have ha' := (h.available j m.width).1 ha
        have hw : j + m.width ≤ k := by
          have h1 := h.size
          have h2 := ha.2
          omega
        simp only [if_pos ha, if_pos ha', h.bytes hw, Nat.add_assoc]
        exact .leaf h hm (by omega) hw hw fun ha => by rw [hk] at ha; cases ha
      · have ha' : ¬ inp'.Available (a' + j) m.width := fun hno => ha ((h.available j m.width).2 hno)
        simp only [if_neg ha, if_neg ha']
        exact .leaf h hm (Nat.le_refl j) hj hj fun ha => by rw [hk] at ha; cases ha
    | variableWidth =>
      obtain ⟨r, z, hr, hr', hjz, hzk⟩ := h.field m.width hj
      simp only [hr, hr']
      cases r with
      | none => exact .leaf h hm hjz hzk hzk fun ha => by rw [hk] at ha; cases ha
      | some size =>
        by_cases ha : inp.Available (a + z) size
        · have ha' := (h.available z size).1 ha
          have hw : z + size ≤ k := by
            have h1 := h.size
            have h2 := ha.2
            omega
          simp only [if_pos ha, if_pos ha', h.bytes hw, Nat.add_assoc]
          exact .leaf h hm (by omega) hw hw fun ha => by rw [hk] at ha; cases ha
        · have ha' : ¬ inp'.Available (a' + z) size := fun hno => ha ((h.available z size).2 hno)
          simp only [if_neg ha, if_neg ha']
          exact .leaf h hm hjz hzk hzk fun ha => by rw [hk] at ha; cases ha
    | compound =>
      refine walkContainer_moved h hm (.inl hk) hj fun z size count hz hsize hzk => ?_
      obtain ⟨y, hy, hy', hle, hyk, hr⟩ := walkMany_moved _ _ hnext count (by omega) hzk
      refine ⟨y, hy, hy', by omega, hyk, ?_, hr⟩
      exact glimpse_moved hm (by rw [hk]; decide) rfl rfl rfl (h.bytes hsize)
    | array =>
      refine walkContainer_moved h hm (.inr hk) hj fun z size count hz hsize hzk => ?_
      obtain ⟨code, i, hcon, hcon', hzi, hik⟩ := h.arrayConstructor hzk
      simp only [hcon, hcon']
      cases hl : amqpTypeMetaDataLookup code with
      | none =>
        refine ⟨i, rfl, rfl, by omega, hik, ?_, rfl⟩
        exact glimpse_array_moved h hm hsize fun _ => hzk
      | some element =>
        have helement : ∀ i, j + 1 ≤ i → i ≤ k → SameNext inp a inp' a' k i
            (some (walkInto inp fuel element (a + i) (a + i)))
            (some (walkInto inp' fuel' element (a' + i) (a' + i))) :=
          fun i hji hi => ih fuel' element (lookup_mem hl).1 _ _ i hi (by omega) (by omega)
        obtain ⟨y, hy, hy', hle, hyk, hr⟩ := walkMany_moved
          (fun i => some (walkInto inp fuel element i i))
          (fun i => some (walkInto inp' fuel' element i i)) helement count (by omega) hik
        refine ⟨y, hy, hy', by omega, hyk, ?_, hr⟩
        simp only [hy, hy']
        exact glimpse_array_moved h hm hsize fun _ => hzk
    | described =>
      have hd := hnext j (Nat.le_refl j) hj
      obtain ⟨y, hy, hy', hle, hyk⟩ := hd.stop hj
      have hv := hnext y hle hyk
      obtain ⟨z, hz, hz', hle', hzk⟩ := hv.stop hyk
      simp only [walkDescribed, hy, hy']
      refine ⟨z, hz, hz', by omega, hzk, ?_, hd.read (hv.read rfl)⟩
      refine glimpse_moved hm (by rw [hk]; decide) rfl rfl ?_ rfl
      show (acceptedOf _ && acceptedOf _) = (acceptedOf _ && acceptedOf _)
      rw [hd.accepted, hv.accepted]

/-- The same bytes read the same wherever they are. -/
theorem walkDecode_read (h : Aligned inp a inp' a' k) {fuel fuel' : Nat} (hf : k ≤ fuel) (hf' : k ≤ fuel') :
    SameNext inp a inp' a' k 0 (walkDecode (walkInto inp fuel) inp a)
      (walkDecode (walkInto inp' fuel') inp' a') := by
  refine walkDecode_moved (j := 0) h (Nat.zero_le k) fun m hm hlt => ?_
  exact walkInto_moved h fuel fuel' m hm _ _ 1 hlt (by omega) (by omega)

end
end Amqp
