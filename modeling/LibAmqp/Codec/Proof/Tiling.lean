import LibAmqp.Codec.Proof.Walk

/-!
# How an outline covers the bytes

* `outline_all`: what holds of every type, given that it holds of what it contains, holds all over
  an outline.
* `walkInto_covers`: a type's position lies inside the bytes, and its elements lie side by side
  behind the position's index up to where the type stops.
* `Tiles.labels`: the types end in the order in which they were met.
-/

namespace Amqp

open Lib

variable {inp : Input} {p : Item → Forest Item → Prop}

/-! ## Induction over an outline -/

theorem walkMany_all {next : Nat → Option Outline} (hnext : BoundedNext inp next)
    (h : ∀ i ≤ inp.size, (Forest.cons (next i) .nil).All p) (n : Nat) :
    ∀ i ≤ inp.size, (walkMany next n i).1.All p := by
  induction n with
  | zero => exact fun _ _ => trivial
  | succ n ih =>
    intro i hi
    have hrest := ih _ (hnext i hi).2
    have hhead := h i hi
    simp only [walkMany]
    rw [← Forest.append_cons, Forest.all_append]
    exact ⟨hhead, hrest⟩

theorem walkDecode_all {into : Walk}
    (hunknown : ∀ i < inp.size, amqpTypeMetaDataLookup (inp.byte i) = none →
      p ⟨inp.byte i, i, i + 1, false, i + 1, 0⟩ .nil)
    (hinto : ∀ m ∈ typeLookupTable.toList, ∀ start i, start ≤ i → i ≤ inp.size →
      (Forest.node (into m start i).1 (into m start i).2 .nil).All p) (i : Nat) :
    (Forest.cons (walkDecode into inp i) .nil).All p := by
  unfold walkDecode
  split
  · rename_i hlt
    split
    · rename_i hl
      exact ⟨hunknown i hlt hl, trivial, trivial⟩
    · rename_i m hl
      exact hinto m (lookup_mem hl).1 i (i + 1) (Nat.le_succ i) hlt
  · trivial

/-- A property of every type, given that what it contains has it. -/
theorem walkInto_all
    (hunknown : ∀ i < inp.size, amqpTypeMetaDataLookup (inp.byte i) = none →
      p ⟨inp.byte i, i, i + 1, false, i + 1, 0⟩ .nil)
    (hstep : ∀ fuel, ∀ m ∈ typeLookupTable.toList, ∀ start i, start ≤ i → i ≤ inp.size →
      (walkInto inp fuel m start i).2.All p →
      p (walkInto inp fuel m start i).1 (walkInto inp fuel m start i).2) (fuel : Nat) :
    ∀ m ∈ typeLookupTable.toList, ∀ start i, start ≤ i → i ≤ inp.size →
      (Forest.node (walkInto inp fuel m start i).1 (walkInto inp fuel m start i).2 .nil).All p := by
  induction fuel with
  | zero =>
    intro m hm start i hs hi
    exact ⟨hstep 0 m hm start i hs hi trivial, trivial, trivial⟩
  | succ fuel ih =>
    intro m hm start i hs hi
    have hnext := fun i hi => walkDecode_bounds (walkInto_bounds inp fuel) (i := i) hi
    have hdecode := walkDecode_all hunknown ih
    suffices hkids : (walkInto inp (fuel + 1) m start i).2.All p from
      ⟨hstep _ m hm start i hs hi hkids, hkids, trivial⟩
    have hf := field_le (w := m.width) hi
    unfold walkInto
    split
    · trivial
    · trivial
    · split <;> trivial
    · split
      · trivial
      · split <;> trivial
    · rcases walkContainer_cases inp m start i _ with ⟨j, hr, h⟩ | ⟨size, j, hr, _, h⟩ |
        ⟨size, j, k, hr, _, hr2, h⟩ | ⟨size, j, count, k, hr, _, hr2, h⟩ <;> rw [h]
      · trivial
      · trivial
      · trivial
      · obtain ⟨-, rfl⟩ := field_some hr
        obtain ⟨hk, rfl⟩ := field_some hr2
        exact walkMany_all hnext (fun i _ => hdecode i) count _ hk
    · rcases walkContainer_cases inp m start i _ with ⟨j, hr, h⟩ | ⟨size, j, hr, _, h⟩ |
        ⟨size, j, k, hr, _, hr2, h⟩ | ⟨size, j, count, k, hr, _, hr2, h⟩ <;> rw [h]
      · trivial
      · trivial
      · trivial
      · obtain ⟨-, rfl⟩ := field_some hr
        obtain ⟨hk, rfl⟩ := field_some hr2
        have hc := arrayConstructor_bounds hk
        split
        · trivial
        · rename_i element he
          have hb : BoundedNext inp fun i => some (walkInto inp fuel element i i) :=
            fun i hi => walkInto_bounds inp fuel element i i hi
          exact walkMany_all hb (fun i hi => ih element (lookup_mem he).1 i i (Nat.le_refl i) hi)
            count _ hc.2
    · show (Forest.cons _ (.cons _ .nil)).All p
      rw [← Forest.append_cons, Forest.all_append]
      exact ⟨hdecode i, hdecode _⟩

theorem outline_all
    (hunknown : ∀ i < inp.size, amqpTypeMetaDataLookup (inp.byte i) = none →
      p ⟨inp.byte i, i, i + 1, false, i + 1, 0⟩ .nil)
    (hstep : ∀ fuel, ∀ m ∈ typeLookupTable.toList, ∀ start i, start ≤ i → i ≤ inp.size →
      (walkInto inp fuel m start i).2.All p →
      p (walkInto inp fuel m start i).1 (walkInto inp fuel m start i).2) (i : Nat) :
    (Forest.cons (outline inp i) .nil).All p :=
  walkDecode_all hunknown (walkInto_all hunknown hstep _) i

/-! ## Types side by side -/

/-- The types of a list lie side by side from `i` to `j`. -/
def Tiles : Nat → Nat → Forest Item → Prop
  | i, j, .nil => i = j
  | i, j, .hole rest => Tiles i j rest
  | i, j, .node a _ rest => a.start = i ∧ i ≤ a.stop ∧ Tiles a.stop j rest

/-- The number of bytes the types of a list take. -/
def span : Forest Item → Nat
  | .nil => 0
  | .hole rest => span rest
  | .node a _ rest => (a.stop - a.start) + span rest

theorem Tiles.eq_add_span {F : Forest Item} : ∀ {i j : Nat}, Tiles i j F → j = i + span F := by
  induction F with
  | nil => exact fun h => by simp only [span]; exact h.symm
  | hole rest ih => exact fun h => ih h
  | node a kids rest _ ih =>
    rintro i j ⟨rfl, hle, hrest⟩
    have := ih hrest
    simp only [span]
    omega

theorem Tiles.mem {F : Forest Item} {item : Item} : ∀ {i j : Nat}, Tiles i j F →
    some item ∈ F.roots → i ≤ item.start ∧ item.stop ≤ j := by
  induction F with
  | nil => exact fun _ h => nomatch h
  | hole rest ih =>
    intro i j h hmem
    simp only [Forest.roots, List.mem_cons, reduceCtorEq, false_or] at hmem
    exact ih h hmem
  | node a kids rest _ ih =>
    rintro i j ⟨rfl, hle, hrest⟩ hmem
    simp only [Forest.roots, List.mem_cons, Option.some.injEq] at hmem
    rcases hmem with rfl | hmem
    · have := hrest.eq_add_span
      omega
    · have := ih hrest hmem
      omega

theorem walkMany_tiles {next : Nat → Option Outline} (hnext : BoundedNext inp next)
    (hstart : ∀ i o, next i = some o → o.1.start = i) (n : Nat) :
    ∀ i ≤ inp.size, Tiles i (walkMany next n i).2 (walkMany next n i).1 := by
  induction n with
  | zero => exact fun _ _ => rfl
  | succ n ih =>
    intro i hi
    have hb := hnext i hi
    have hrest := ih _ hb.2
    simp only [walkMany]
    cases hn : next i with
    | none =>
      rw [hn] at hrest
      exact hrest
    | some o =>
      rw [hn] at hrest hb
      exact ⟨hstart i o hn, hb.1, hrest⟩

theorem walkDecode_start {fuel i : Nat} {o : Outline}
    (h : walkDecode (walkInto inp fuel) inp i = some o) : o.1.start = i := by
  unfold walkDecode at h
  split at h
  · split at h
    · cases h
      rfl
    · cases h
      exact (walkInto_code ..).2
  · cases h

/-- Where the elements of a list, map or array start, behind its count and, for an array, behind
the constructor of its elements. -/
def Item.firstElement (inp : Input) (item : Item) : Nat :=
  match item.metaData with
  | none => item.stop
  | some m =>
    match m.kind with
    | .compound => item.index + m.width
    | .array => (arrayConstructor inp (item.index + m.width)).2
    | _ => item.stop

/-- How a type covers the bytes. -/
structure Covers (inp : Input) (item : Item) (kids : Forest Item) : Prop where
  start_le : item.start ≤ item.index
  index_le : item.index ≤ item.stop
  stop_le : item.stop ≤ inp.size
  window : item.index + item.size ≤ inp.size
  elements : ∃ k, item.index ≤ k ∧ Tiles k item.stop kids
  sized : item.accepted = true → item.kind = some .compound ∨ item.kind = some .array →
    Tiles (item.firstElement inp) item.stop kids

/-- A type without elements, of another kind than the sized containers. -/
theorem Covers.plain {item : Item} (h1 : item.start ≤ item.index) (h2 : item.index ≤ item.stop)
    (h3 : item.stop ≤ inp.size) (h4 : item.index + item.size ≤ inp.size)
    (h5 : item.accepted = true → item.kind ≠ some .compound ∧ item.kind ≠ some .array) :
    Covers inp item .nil :=
  ⟨h1, h2, h3, h4, ⟨item.stop, h2, rfl⟩, fun ha hk => by
    rcases hk with hk | hk
    · exact absurd hk (h5 ha).1
    · exact absurd hk (h5 ha).2⟩

theorem unknown_covers {i : Nat} (hi : i < inp.size) :
    Covers inp ⟨inp.byte i, i, i + 1, false, i + 1, 0⟩ .nil :=
  .plain (Nat.le_succ i) (Nat.le_refl _) hi hi fun h => nomatch h

theorem Item.kind_of_code {item : Item} {m : EncodingMetaData} (hm : m ∈ typeLookupTable.toList)
    (hcode : item.code = m.formatCode) : item.metaData = some m ∧ item.kind = some m.kind := by
  have h : item.metaData = some m := by rw [Item.metaData, hcode, lookup_self m hm]
  exact ⟨h, by rw [Item.kind, h]; rfl⟩

/-- The elements of a container whose fields are there. -/
theorem Covers.container {item : Item} {kids : Forest Item} {k : Nat}
    (hstart : item.start ≤ item.index) (hstop : item.stop ≤ inp.size)
    (hsize : item.index + item.size ≤ inp.size) (hk : item.index ≤ k)
    (hfirst : item.accepted = true → item.firstElement inp = k) (ht : Tiles k item.stop kids) :
    Covers inp item kids := by
  refine ⟨hstart, ?_, hstop, hsize, ⟨k, hk, ht⟩, fun hacc _ => by rw [hfirst hacc]; exact ht⟩
  have := ht.eq_add_span
  omega

theorem walkInto_covers (fuel : Nat) {m : EncodingMetaData} (hm : m ∈ typeLookupTable.toList)
    {start i : Nat} (hs : start ≤ i) (hi : i ≤ inp.size) :
    Covers inp (walkInto inp fuel m start i).1 (walkInto inp fuel m start i).2 := by
  have hmeta : ∀ item : Item, item.code = m.formatCode → item.metaData = some m :=
    fun item h => (Item.kind_of_code hm h).1
  have hkind : ∀ item : Item, item.code = m.formatCode → item.kind = some m.kind :=
    fun item h => (Item.kind_of_code hm h).2
  have hstop := (walkInto_bounds inp fuel m start i hi).2
  cases fuel with
  | zero => exact .plain hs (Nat.le_refl _) hi hi fun h => by cases h
  | succ fuel =>
    have hnext := fun i hi => walkDecode_bounds (walkInto_bounds inp fuel) (i := i) hi
    have hf := field_le (w := m.width) hi
    unfold walkInto at hstop ⊢
    split at hstop
    · exact .plain hs (Nat.le_refl _) hi hi fun h => by cases h
    · rename_i hk
      exact .plain hs (Nat.le_refl _) hi hi fun _ => by rw [hkind _ rfl, hk]; decide
    · rename_i hk
      split
      · rename_i ha
        exact .plain hs (Nat.le_add_right _ _) ha.2 ha.2 fun _ => by rw [hkind _ rfl, hk]; decide
      · exact .plain hs (Nat.le_refl _) hi hi fun h => by cases h
    · rename_i hk
      split
      · rename_i j hr
        rw [hr] at hf
        exact .plain (Nat.le_trans hs hf.1) (Nat.le_refl _) hf.2 hf.2 fun h => by cases h
      · rename_i size j hr
        rw [hr] at hf
        split
        · rename_i ha
          exact .plain (Nat.le_trans hs hf.1) (Nat.le_add_right _ _) ha.2 ha.2 fun _ => by
            rw [hkind _ rfl, hk]; decide
        · exact .plain (Nat.le_trans hs hf.1) (Nat.le_refl _) hf.2 hf.2 fun h => by cases h
    · rename_i hk
      rcases walkContainer_cases inp m start i _ with ⟨j, hr, h⟩ | ⟨size, j, hr, _, h⟩ |
        ⟨size, j, k, hr, ha, hr2, h⟩ | ⟨size, j, count, k, hr, ha, hr2, h⟩ <;> rw [h] at hstop ⊢ <;>
        rw [hr] at hf
      · exact .plain (Nat.le_trans hs hf.1) (Nat.le_refl _) hf.2 hf.2 fun h => by cases h
      · exact .plain (Nat.le_trans hs hf.1) (Nat.le_refl _) hf.2 hf.2 fun h => by cases h
      · have hf2 := field_le (w := m.width) hf.2
        rw [hr2] at hf2
        exact .plain (Nat.le_trans hs hf.1) hf2.1 hf2.2 ha.2 fun h => by cases h
      · obtain ⟨hjw, rfl⟩ := field_some hr2
        refine .container (Nat.le_trans hs hf.1) hstop ha.2 (Nat.le_add_right j m.width) (fun _ => ?_)
          (walkMany_tiles hnext (fun i o => walkDecode_start) count _ hjw)
        simp only [Item.firstElement, hmeta ⟨m.formatCode, _, _, _, _, _⟩ rfl, hk]
    · rename_i hk
      rcases walkContainer_cases inp m start i _ with ⟨j, hr, h⟩ | ⟨size, j, hr, _, h⟩ |
        ⟨size, j, k, hr, ha, hr2, h⟩ | ⟨size, j, count, k, hr, ha, hr2, h⟩ <;> rw [h] at hstop ⊢ <;>
        rw [hr] at hf
      · exact .plain (Nat.le_trans hs hf.1) (Nat.le_refl _) hf.2 hf.2 fun h => by cases h
      · exact .plain (Nat.le_trans hs hf.1) (Nat.le_refl _) hf.2 hf.2 fun h => by cases h
      · have hf2 := field_le (w := m.width) hf.2
        rw [hr2] at hf2
        exact .plain (Nat.le_trans hs hf.1) hf2.1 hf2.2 ha.2 fun h => by cases h
      · obtain ⟨hjw, rfl⟩ := field_some hr2
        have hc := arrayConstructor_bounds hjw
        split at hstop
        · exact .plain (Nat.le_trans hs hf.1) (Nat.le_trans (Nat.le_add_right j m.width) hc.1) hc.2
            ha.2 fun h => by cases h
        · rename_i element _
          have hb : BoundedNext inp fun i => some (walkInto inp fuel element i i) :=
            fun i hi => walkInto_bounds inp fuel element i i hi
          refine .container (Nat.le_trans hs hf.1) hstop ha.2
            (Nat.le_trans (Nat.le_add_right j m.width) hc.1) (fun _ => ?_)
            (walkMany_tiles hb (fun i o h => by cases h; exact (walkInto_code ..).2) count _ hc.2)
          simp only [Item.firstElement, hmeta ⟨m.formatCode, _, _, _, _, _⟩ rfl, hk]
    · rename_i hk
      have h1 := hnext i hi
      have h2 := hnext _ h1.2
      have htiles : Tiles i (stopOf (walkDecode (walkInto inp fuel) inp
          (stopOf (walkDecode (walkInto inp fuel) inp i) i)) _) _ :=
        walkMany_tiles hnext (fun i o => walkDecode_start) 2 i hi
      refine ⟨hs, Nat.le_trans h1.1 h2.1, hstop, hi, ⟨i, Nat.le_refl i, htiles⟩, fun _ h => ?_⟩
      rw [hkind _ rfl, hk] at h
      rcases h with h | h <;> cases h

/-- Types side by side, with what they contain: all lie between the two ends, and they end in the
order in which they were met. -/
theorem Tiles.labels {F : Forest Item} : ∀ {i j : Nat}, Tiles i j F → F.All (Covers inp) →
    (∀ a ∈ F.labels, i ≤ a.start ∧ a.start ≤ a.stop ∧ a.stop ≤ j) ∧
      F.labels.Pairwise (·.stop ≤ ·.stop) := by
  induction F with
  | nil => exact fun _ _ => ⟨fun _ h => (nomatch h), List.Pairwise.nil⟩
  | hole rest ih => exact fun ht hc => ih ht hc
  | node a kids rest ihk ihr =>
    rintro i j ⟨rfl, hle, hrest⟩ ⟨ha, hkids, hcr⟩
    obtain ⟨k, hk, htk⟩ := ha.elements
    obtain ⟨hin, hord⟩ := ihk htk hkids
    obtain ⟨hin', hord'⟩ := ihr hrest hcr
    have hj := hrest.eq_add_span
    have hstart := ha.start_le
    refine ⟨fun x hx => ?_, ?_⟩
    · rcases List.mem_append.1 hx with hx | hx
      · have := hin x hx
        omega
      · rcases List.mem_cons.1 hx with rfl | hx
        · omega
        · have := hin' x hx
          omega
    · refine List.pairwise_append.2 ⟨hord, .cons (fun x hx => ?_) hord', fun x hx y hy => ?_⟩
      · have := hin' x hx
        omega
      · rcases List.mem_cons.1 hy with rfl | hy
        · exact (hin x hx).2.2
        · have := hin x hx
          have := hin' y hy
          omega

theorem outline_covers (inp : Input) (i : Nat) : (Forest.cons (outline inp i) .nil).All (Covers inp) :=
  outline_all (fun _ hi _ => unknown_covers hi)
    (fun fuel _ hm _ _ hs hi _ => walkInto_covers fuel hm hs hi) i

end Amqp
