import LibAmqp.Codec.Empty
import LibAmqp.Codec.Proof.Array

/-!
# Which empty values are decoded in place

* `Values.inPlace_iff`: when encodable values are in place.
* `emptyRoundTrips_iff`: the values that are decoded from their own bytes, whatever follows.
-/

namespace Amqp

open Lib Memory Buffer

/-! ## Bytes -/

/-- The format codes of types without any bytes behind the constructor. -/
def zeroCodes : List UInt8 := [0x40, 0x41, 0x42, 0x43, 0x44, 0x45]

theorem table_zeroCodes : ∀ m ∈ typeLookupTable.toList, m.formatCode ∉ zeroCodes →
    m.kind ≠ .zero ∧ (m.kind = .fixed → m.width ≠ 0) ∧ (m.kind = .variableWidth → m.width ≠ 0) := by
  decide +kernel

theorem Scalar.body_ne_nil {inArray : Bool} {v : Scalar} (h : (v.part inArray).code ∉ zeroCodes) :
    (v.part inArray).body ≠ [] := by
  have hmem := (Leaf.scalar v).encoding_mem inArray
  have hkind := ((Leaf.scalar v).encoding_leaf inArray).1
  have hsized := (Leaf.scalar v).sized inArray
  obtain ⟨hzero, hfixed, hvariable⟩ := table_zeroCodes _ hmem h
  rw [Leaf.encoding] at hkind hsized hzero hfixed hvariable
  rw [Scalar.part, leafBody, ← List.length_pos_iff]
  split
  · rename_i hk
    rw [List.length_append, length_toBigEndian]
    exact Nat.add_pos_left (Nat.pos_of_ne_zero (hvariable hk)) _
  · rename_i hk
    rw [hsized hk]
    exact Nat.pos_of_ne_zero (hfixed ((hkind.resolve_left hzero).resolve_right hk))

/-- Every container in an array has bytes behind its format code. -/
theorem Former.body_ne_nil {k : Former} {parts : List Part} (h : k.AdmitsNone parts) :
    (k.part true parts).body ≠ [] := by
  rw [Former.part_eq (fun h => Bool.noConfusion h.1), ← List.length_pos_iff]
  dsimp only
  split
  · rename_i hw
    obtain rfl : k = .described := by
      cases k <;> first | rfl | cases hw
    obtain ⟨p, q, rfl⟩ := List.length_eq_two.1 (h.1 rfl)
    exact Nat.succ_pos _
  · rename_i hw
    simp only [List.length_append, length_toBigEndian]
    omega

theorem Former.code_not_zero {k : Former} {parts : List Part} :
    (k.part true parts).code ∉ zeroCodes := by
  rw [Former.part_eq (fun h => Bool.noConfusion h.1)]
  show k.metaData.formatCode ∉ zeroCodes
  cases k <;> decide

theorem Scalar.code_of_emptyText {inArray : Bool} {v : Scalar} (h : v.isEmptyText = true) :
    (v.part inArray).code ∉ zeroCodes := by
  cases v with
  | binary v | string v | symbol v =>
    simp only [Scalar.part, Scalar.encoding]
    split <;> decide
  | _ => cases h

theorem Scalar.length_le_body (inArray : Bool) (v : Scalar) :
    (v.encoding false).2.length ≤ (v.part inArray).body.length := by
  have hpayload := length_le_leafBody (v.encoding inArray).1 (v.encoding inArray).2
  cases inArray with
  | false => exact hpayload
  | true => exact v.length_encoding.trans hpayload

/-- The bytes of the elements are among those of their container. -/
theorem Former.content_le_body {k : Former} {inArray : Bool} {parts : List Part} :
    (k.content parts).length ≤ (k.part inArray parts).body.length := by
  unfold Former.part
  split
  · rename_i h
    simp only [Bool.and_eq_true, List.isEmpty_iff] at h
    obtain ⟨-, rfl⟩ := h
    cases k <;> exact Nat.le_refl _
  · dsimp only
    split
    · exact Nat.le_refl _
    · rw [List.length_append]
      exact Nat.le_add_left _ _

/-- What a container counts, if it is no array that is empty. -/
theorem Former.AdmitsNone.counts_iff {k : Former} {behind : Bool} {parts : List Part}
    (h : k.AdmitsNone parts) (hne : k.isArray = true → parts.length ≠ 0) :
    k.Counts behind parts.length ↔ (k.metaData.width = 4 → parts.length < Buffer.sizeError) := by
  have hempty : k.isArray = true → parts.length = 0 → behind = false := fun ha h0 => absurd h0 (hne ha)
  unfold Former.Counts
  by_cases hk : k = .described
  · subst hk
    exact iff_of_true (h.1 rfl) fun hw => by cases hw
  · rw [if_neg hk, and_iff_right hempty]
    have hwidth : k.metaData.width = 1 ∨ k.metaData.width = 4 := by
      refine Former.width_cases fun hw => hk ?_
      cases k <;> first | rfl | cases hw
    rcases hwidth with hw | hw
    · have hle := (h.2.2 hw).2
      rw [hw, Buffer.sizeError]
      omega
    · rw [hw, Buffer.sizeError]
      omega

namespace Values

variable {inArray behind : Bool} {v : Scalar} {k : Former} {vs elements rest : Values}

/-- Values outside an array, and values in an array that are not of a type without bytes, have bytes. -/
theorem bytes_ne_nil (h : vs.Encodable) (hne : vs ≠ nil)
    (hcodes : inArray = true → ∀ p ∈ vs.parts inArray, p.code ∉ zeroCodes) :
    vs.calls.bytes inArray ≠ [] := by
  have hfirst : ∀ p ∈ (vs.parts inArray).head?, (inArray = true → p.body ≠ []) →
      vs.calls.bytes inArray ≠ [] := by
    intro p hp hbody
    rw [CallTree.bytes, parts_calls, ← List.cons_head?_tail hp, List.flatMap_cons]
    refine fun hnil => ?_
    have hbytes := (List.append_eq_nil_iff.1 hnil).1
    cases inArray with
    | false => cases hbytes
    | true => exact hbody rfl hbytes
  cases vs with
  | nil => exact absurd rfl hne
  | scalar v rest =>
    refine hfirst _ rfl fun hin => ?_
    exact Scalar.body_ne_nil (hcodes hin _ (.head _))
  | container k elements rest =>
    refine hfirst _ rfl fun hin => ?_
    subst hin
    exact Former.body_ne_nil h.1

/-- There are bytes behind a value that is not the last, where its type has bytes at all. -/
theorem behind_rest (h : rest.Encodable) (hne : rest ≠ nil) {p : Part}
    (hp : inArray = true → p.code ∉ zeroCodes)
    (hone : inArray = true → ∃ code, ∀ q ∈ p :: rest.parts inArray, q.code = code) :
    (behind || !(rest.calls.bytes inArray).isEmpty) = true := by
  have hbytes : rest.calls.bytes inArray ≠ [] := by
    refine bytes_ne_nil h hne fun hin q hq => ?_
    obtain ⟨code, hcode⟩ := hone hin
    rw [hcode q (.tail _ hq), ← hcode p (.head _)]
    exact hp hin
  rw [Bool.or_eq_true, Bool.not_eq_true', List.isEmpty_eq_false_iff]
  exact .inr hbytes

theorem elements_le (k : Former) (elements : Values) :
    (elements.calls.bytes k.isArray).length ≤ (k.content (elements.parts k.isArray)).length := by
  rw [CallTree.bytes, parts_calls, Former.content]
  cases k.isArray with
  | false => exact Nat.le_refl _
  | true =>
    rw [if_pos rfl, spelledArray, List.length_append]
    exact Nat.le_add_left _ _

theorem Encodable.oneCode (h : vs.Encodable) : vs.calls.OneCode := by
  induction vs with
  | nil => trivial
  | scalar v rest ih => exact ih h.2
  | container k elements rest ihe ihr =>
    refine ⟨fun ha => ?_, ihe h.2.1, ihr h.2.2⟩
    rw [parts_calls]
    have hcodes := h.1.2.1 ha
    rw [ha] at hcodes
    cases hparts : elements.parts true with
    | nil => exact ⟨0, fun p hp => by cases hp⟩
    | cons p ps =>
      rw [hparts] at hcodes
      exact ⟨p.code, fun q hq => Option.some.inj (hcodes q hq)⟩

theorem Encodable.noThird (h : vs.Encodable) : vs.calls.NoThird := by
  induction vs with
  | nil => trivial
  | scalar v rest ih => exact ih h.2
  | container k elements rest ihe ihr =>
    refine ⟨fun hk => ?_, ihe h.2.1, ihr h.2.2⟩
    rw [length_calls, ← length_parts k.isArray, h.1.1 hk]

/-- The sizes of values are below any bound of their bytes. -/
theorem bytes_cons_le {n : Nat} {p : Part}
    (hsize : (p.bytes inArray ++ rest.calls.bytes inArray).length < n) :
    p.body.length < n ∧ (rest.calls.bytes inArray).length < n := by
  rw [List.length_append, p.length_bytes] at hsize
  omega

/-- What has to be behind a value, if it stands in front of others. -/
theorem endsEmpty_iff {p : Part} {x : Bool} (h : rest.Encodable)
    (hp : inArray = true → x = true → p.code ∉ zeroCodes)
    (hone : inArray = true → ∃ code, ∀ q ∈ p :: rest.parts inArray, q.code = code) :
    ((behind || !(rest.calls.bytes inArray).isEmpty) = false → x = false) ∧
        (behind = false → rest.endsEmpty = false) ↔
      (behind = false → (if rest = nil then x else rest.endsEmpty) = false) := by
  by_cases hne : rest = nil
  · subst hne
    rw [if_pos rfl]
    have hbytes : (nil.calls.bytes inArray).isEmpty = true := rfl
    rw [hbytes, Bool.not_true, Bool.or_false]
    exact and_iff_left fun _ => rfl
  · rw [if_neg hne]
    refine and_iff_right fun hbehind => Bool.eq_false_iff.2 fun hx => ?_
    rw [behind_rest h hne (fun hin => hp hin hx) hone] at hbehind
    cases hbehind

theorem endsEmpty_scalar :
    (scalar v rest).endsEmpty = if rest = nil then v.isEmptyText else rest.endsEmpty := by
  cases rest <;> rfl

theorem endsEmpty_container :
    (container k elements rest).endsEmpty = if rest = nil then elements.endsEmpty else rest.endsEmpty := by
  cases rest <;> rfl

/-- Values are in place if no array is empty, the counts fit and what is behind is there. -/
theorem inPlace_iff (h : vs.Encodable) (hsize : (vs.calls.bytes inArray).length < Buffer.sizeError)
    (hone : inArray = true → ∃ code, ∀ p ∈ vs.parts inArray, p.code = code) (hno : vs.calls.NoEmptyArray) :
    vs.calls.InPlace inArray behind ↔ vs.CountsFit ∧ (behind = false → vs.endsEmpty = false) := by
  induction vs generalizing inArray behind with
  | nil => exact iff_of_true trivial ⟨trivial, fun _ => rfl⟩
  | scalar v rest ih =>
    rw [calls, CallTree.bytes_cons rfl] at hsize
    obtain ⟨hbody, hrest⟩ := bytes_cons_le hsize
    have hlen : (v.encoding false).2.length < Buffer.sizeError :=
      Nat.lt_of_le_of_lt (v.length_le_body inArray) hbody
    have honerest : inArray = true → ∃ code, ∀ p ∈ rest.parts inArray, p.code = code := fun hin =>
      (hone hin).imp fun code hcode p hp => hcode p (.tail _ hp)
    rw [calls, CallTree.InPlace, Scalar.inPlace_iff h.1 hlen, ih h.2 hrest honerest hno, endsEmpty_scalar,
      ← endsEmpty_iff h.2 (fun _ hempty => Scalar.code_of_emptyText hempty) hone]
    exact and_left_comm
  | container k elements rest ihe ihr =>
    rw [calls, CallTree.bytes_cons rfl] at hsize
    obtain ⟨hbody, hrest⟩ := bytes_cons_le hsize
    rw [parts_calls] at hbody
    have helements := Nat.lt_of_le_of_lt ((elements_le k elements).trans Former.content_le_body) hbody
    have honerest : inArray = true → ∃ code, ∀ p ∈ rest.parts inArray, p.code = code := fun hin =>
      (hone hin).imp fun code hcode p hp => hcode p (.tail _ hp)
    have honeelements : k.isArray = true → ∃ code, ∀ p ∈ elements.parts k.isArray, p.code = code := by
      intro ha
      obtain ⟨code, hcode⟩ := (Encodable.oneCode h).1 ha
      rw [parts_calls] at hcode
      exact ⟨code, ha ▸ hcode⟩
    have hlength : elements.calls.length = (elements.parts k.isArray).length := by
      rw [length_calls, length_parts]
    have hcounts : k.Counts (behind || !(rest.calls.bytes inArray).isEmpty) (elements.parts k.isArray).length ↔
        (k.metaData.width = 4 → (elements.parts k.isArray).length < Buffer.sizeError) :=
      h.1.counts_iff fun ha => hlength ▸ hno.1 ha
    rw [calls, CallTree.InPlace, hlength, hcounts, ihe h.2.1 helements honeelements hno.2.1,
      ihr h.2.2 hrest honerest hno.2.2, endsEmpty_container,
      ← endsEmpty_iff h.2.2 (fun hin _ => by subst hin; exact Former.code_not_zero) hone, length_parts]
    rw [CountsFit]
    constructor
    · rintro ⟨hcount, ⟨he, hebehind⟩, hr, hrbehind⟩
      exact ⟨⟨hcount, he, hr⟩, hebehind, hrbehind⟩
    · rintro ⟨⟨hcount, he, hr⟩, hebehind, hrbehind⟩
      exact ⟨hcount, ⟨he, hebehind⟩, hr, hrbehind⟩

end Values

/-- Values that are in place whatever is behind them have no empty array among them. -/
theorem CallTree.InPlace.noEmptyArray {cs : CallTree} {inArray : Bool} (h : cs.InPlace inArray true) :
    cs.NoEmptyArray := by
  induction cs generalizing inArray with
  | nil => trivial
  | leaf l rest ih => exact ih h.2
  | container k elements rest ihe ihr =>
    obtain ⟨hcounts, helements, hrest⟩ := h
    rw [Bool.true_or] at hcounts helements
    refine ⟨fun ha h0 => ?_, ihe helements, ihr hrest⟩
    have hk : k ≠ .described := fun hk => by
      subst hk
      cases ha
    rw [Former.Counts, if_neg hk] at hcounts
    exact Bool.noConfusion (hcounts.1 ha h0)

/-! ## Round trips -/

/-- As in `RoundTrips`, and every value in the values is decoded from its own bytes. -/
def RoundTripsInPlace (c : Context) (b : Buffer) (vs : Values) : Prop :=
  ∃ c1 b1, vs.encode c b = .ok (c1, b1) ∧ b1.size = b.size + vs.wire.length ∧
    ∀ b2, b1.Continues b2 → b2.index = b.size → RegainsInPlace c1 b2 b1.size vs.calls

section
variable {c : Context} {live : Finset Slot} {b : Buffer} {vs : Values}

theorem RoundTripsInPlace.roundTrips (h : RoundTripsInPlace c b vs) : RoundTrips c b vs := by
  obtain ⟨c1, b1, hencode, hsize, hdecode⟩ := h
  refine ⟨c1, b1, hencode, hsize, fun b2 h2 hindex => ?_⟩
  have hregains := (hdecode b2 h2 hindex).regains
  rw [Values.values_calls] at hregains
  exact hregains

variable (hr : Ready (· = AmqpType.zero) c live) (hc : c.container = none) (henc : vs.Encodable)
  (hlen : vs.length = 1) (hroom : Room b vs.wire.length)

include hr hc henc hroom

/-- Encodable values are encoded. -/
theorem Values.Encodable.writes : ∃ c1 b1 live1, vs.encode c b = .ok (c1, b1) ∧
    Appends b b1 vs.calls.wire ∧ Ready AmqpType.Blank c1 live1 := by
  rw [← wire_calls] at hroom
  rcases vs.calls.encode_any (b := b) hr.blank hc (.inl hroom) with
    ⟨hno, -⟩ | ⟨-, types, c1, b1, live1, hcall, hw, hr1, -⟩
  · exact absurd henc.noThird hno
  · refine ⟨c1, b1, live1, ?_, hw, hr1⟩
    rw [encode_calls, hcall]
    rfl

omit hr hc in
theorem Values.Encodable.inPlace_iff {behind : Bool} (hno : vs.calls.NoEmptyArray) :
    vs.calls.InPlace false behind ↔ vs.CountsFit ∧ (behind = false → vs.endsEmpty = false) := by
  have hsize : (vs.calls.bytes false).length < Buffer.sizeError := by
    rw [CallTree.bytes_false, ← CallTree.wire, wire_calls]
    have hcap := b.capacity_le
    unfold Room at hroom
    simp only [amqpBufferMaxSize, Buffer.sizeError] at hcap ⊢
    omega
  exact Values.inPlace_iff henc hsize (fun hin => by cases hin) hno

include hlen

/-- Values that depend on nothing behind them are decoded in place. -/
theorem Values.Stands.roundTrips (h : vs.Stands) : RoundTripsInPlace c b vs := by
  obtain ⟨hcounts, hno, hends⟩ := h
  obtain ⟨c1, b1, live1, hencode, hw, hr1⟩ := henc.writes hr hc hroom
  have hsize := hw.size
  refine ⟨c1, b1, hencode, by rw [hsize, wire_calls], fun b2 h2 hindex => ?_⟩
  rw [← length_calls] at hlen
  have hin : vs.calls.InPlace false (decide (b2.index + vs.calls.wire.length < b2.size)) :=
    (henc.inPlace_iff hroom hno).2 ⟨hcounts, fun _ => hends⟩
  have hregains := CallTree.regains hr1 (fun _ h => h.1) hlen henc.oneCode (hindex ▸ h2.at hw)
    decide_eq_true_iff h2.size_lt hin
  rwa [hindex, ← hsize] at hregains

/-- Where no array is empty, what is decoded with nothing behind it stands. -/
theorem RoundTrips.stands (hno : vs.calls.NoEmptyArray) (h : RoundTrips c b vs) : vs.Stands := by
  obtain ⟨c1, b1, live1, hencode, hw, hr1⟩ := henc.writes hr hc hroom
  obtain ⟨c1', b1', hencode', -, hdecode⟩ := h
  obtain ⟨rfl, rfl⟩ : c1' = c1 ∧ b1' = b1 := by simpa using hencode'.symm.trans hencode
  have hroom' := hroom.le
  rw [← Values.wire_calls] at hroom'
  have hregains := hdecode _ (hw.continues hroom') rfl
  rw [← Values.length_calls] at hlen
  rw [← vs.values_calls] at hregains
  have hin := CallTree.inPlace_of_regains hr1 hw hroom' hlen henc.oneCode hno hregains
  obtain ⟨hcounts, hends⟩ := (henc.inPlace_iff hroom hno).1 hin
  exact ⟨hcounts, hno, hends rfl⟩

/-- What is decoded in place whatever is behind it has no empty array. -/
theorem RoundTripsInPlace.noEmptyArray (h : RoundTripsInPlace c b vs) : vs.calls.NoEmptyArray := by
  obtain ⟨c1, b1, live1, hencode, hw, hr1⟩ := henc.writes hr hc hroom
  obtain ⟨c1', b1', hencode', -, hdecode⟩ := h
  obtain ⟨rfl, rfl⟩ : c1' = c1 ∧ b1' = b1 := by simpa using hencode'.symm.trans hencode
  have hsize := hw.size
  -- one more byte behind the values
  have hcont : b1'.Continues { b1' with index := b.size, size := b1'.size + 1 } := by
    refine ⟨Nat.le_succ _, ?_, fun _ _ => rfl⟩
    show b1'.size + 1 ≤ b1'.capacity
    unfold Room at hroom
    rw [← Values.wire_calls] at hroom
    rw [hw.capacity, hsize]
    omega
  have hbehind : true = true ↔ b.size + vs.calls.wire.length < b1'.size + 1 := by
    rw [hsize]
    exact iff_of_true rfl (Nat.lt_succ_self _)
  obtain ⟨s, c', events, hcall, hholds, htrace, hspans⟩ := hdecode _ hcont rfl
  rw [← Values.length_calls] at hlen
  have hin := CallTree.inPlace_of_decode (b := { b1' with index := b.size, size := b1'.size + 1 }) hr1
    (fun _ h => h.1) hlen henc.oneCode (hcont.at hw) hbehind hcont.size_lt hcall hholds
    (.inr ⟨events, htrace, hspans⟩)
  exact hin.noEmptyArray

/-- Values that may be empty are decoded in place exactly if they depend on nothing behind them. An array
that is empty may hide what comes behind it from the values that are compared, but not from their places. -/
theorem emptyRoundTrips_iff : (RoundTripsInPlace c b vs ↔ vs.Stands) ∧
    (vs.Stands → RoundTrips c b vs) ∧
    (vs.calls.NoEmptyArray → (RoundTrips c b vs ↔ vs.Stands)) := by
  have hstands : vs.Stands → RoundTripsInPlace c b vs := fun h => h.roundTrips hr hc henc hlen hroom
  have hroundTrips : vs.Stands → RoundTrips c b vs := fun h => (hstands h).roundTrips
  refine ⟨⟨fun h => ?_, hstands⟩, hroundTrips, fun hno => ⟨fun h => ?_, hroundTrips⟩⟩
  · exact h.roundTrips.stands hr hc henc hlen hroom (h.noEmptyArray hr hc henc hlen hroom)
  · exact h.stands hr hc henc hlen hroom hno

end

/-- A list whose first element is a binary without bytes. -/
def emptyFirst : Values := .container .list8 (.scalar (.binary []) (.scalar (.uint 5) .nil)) .nil

theorem emptyRoundTrips_iff_first :
    (RoundTripsInPlace (Context.create Malloc.bump 21) (.received []) emptyFirst ↔ emptyFirst.Stands) ∧
      (emptyFirst.Stands → RoundTrips (Context.create Malloc.bump 21) (.received []) emptyFirst) ∧
      (emptyFirst.calls.NoEmptyArray →
        (RoundTrips (Context.create Malloc.bump 21) (.received []) emptyFirst ↔ emptyFirst.Stands)) :=
  emptyRoundTrips_iff (create_ready Malloc.bump (by decide) (by decide)) rfl (by decide +kernel) rfl
    (by decide +kernel)

example : emptyFirst.endsEmpty = false := rfl

/-- A binary without bytes has to have something behind it. -/
theorem not_roundTrips_emptyBinary : (Values.scalar (.binary []) .nil).Encodable ∧
    ¬ RoundTrips (Context.create Malloc.bump 21) (.received []) (.scalar (.binary []) .nil) := by
  have henc : (Values.scalar (.binary []) .nil).Encodable := by decide
  refine ⟨henc, fun h => ?_⟩
  have hstands := h.stands (create_ready Malloc.bump (by decide) (by decide)) rfl henc rfl
    (by decide +kernel) trivial
  cases hstands.2.2

end Amqp
