import LibAmqp.Codec.Proof.Regain

/-!
# Which encodings are decoded to what was encoded

The encoder marks as invalid what does not go with the first element of an array, and nothing else: not a
size or a count that does not fit its field, nor a described type with less than two members.

* `encode_valid_iff`: when the types that were returned as valid are decoded to the values.
-/

namespace Amqp

open Lib Memory Buffer

section
variable {c : Context} {live : Finset Slot} {b : Buffer} {cs : CallTree}

/-! ## Validity -/

/-- The calls return. If all types that they return are valid then `amqp_decode` of the bytes that they
wrote returns the values and leaves the read index at the end; if a size or a count does not fit its
field then one of the types is missing or not valid. -/
def ValidityHolds (c : Context) (b : Buffer) (cs : CallTree) : Prop :=
  ∃ types c1 b1, cs.encode c b = .ok (types, c1, b1) ∧
    ((∀ type ∈ types, c1.isValid type = true) →
      Regains c1 { b1 with index := b.size } b1.size cs.values) ∧
    (¬ cs.SizesFit → ∃ type ∈ types, c1.isValid type = false)

/-- The same, where every value in the tree is decoded from its own bytes. -/
def ValidityHoldsInPlace (c : Context) (b : Buffer) (cs : CallTree) : Prop :=
  ∃ types c1 b1, cs.encode c b = .ok (types, c1, b1) ∧
    ((∀ type ∈ types, c1.isValid type = true) →
      RegainsInPlace c1 { b1 with index := b.size } b1.size cs) ∧
    (¬ cs.SizesFit → ∃ type ∈ types, c1.isValid type = false)

/-- No described type gets a third member and, unless the elements of some array differ in their format
codes, everything fits and is in place. -/
def CallTree.Sound (cs : CallTree) : Prop :=
  cs.NoThird ∧ (cs.OneCode → cs.SizesFit ∧ cs.InPlace false false)

theorem RegainsInPlace.regains {stop : Nat} (h : RegainsInPlace c b stop cs) :
    Regains c b stop cs.values := by
  obtain ⟨s, c', events, hcall, hholds, -⟩ := h
  exact ⟨s, c', hcall, hholds⟩

/-- The bytes that were written, with nothing behind them. -/
theorem Buffer.Appends.continues {b b1 : Buffer} {bytes : List UInt8} (hw : Appends b b1 bytes)
    (hroom : b.size + bytes.length ≤ b.capacity) : b1.Continues { b1 with index := b.size } := by
  refine ⟨Nat.le_refl _, ?_, fun _ _ => rfl⟩
  show b1.size ≤ b1.capacity
  rwa [hw.capacity, hw.size]

/-- What is behind the values that were written. -/
theorem Buffer.Appends.behind {b b1 : Buffer} {bytes : List UInt8} (hw : Appends b b1 bytes) :
    false = true ↔ b.size + bytes.length < b1.size := by
  rw [hw.size]
  exact iff_of_false Bool.false_ne_true (Nat.lt_irrefl _)

section
variable {c1 : Context} {b1 : Buffer} {live1 : Finset Slot}
  (hr1 : Ready AmqpType.Blank c1 live1) (hw : Appends b b1 cs.wire) (hroom : b.size + cs.wire.length ≤ b.capacity)
  (hlen : cs.length = 1) (hone : cs.OneCode)

include hr1 hw hroom hlen hone

/-- Values that are in place are regained from where they were written. -/
theorem CallTree.regains_written (hin : cs.InPlace false false) :
    RegainsInPlace c1 { b1 with index := b.size } b1.size cs := by
  have hcont := hw.continues hroom
  have hregains : RegainsInPlace c1 { b1 with index := b.size } (b.size + cs.wire.length) cs :=
    CallTree.regains hr1 (fun _ h => h.1) hlen hone (hcont.at hw) hw.behind hcont.size_lt hin
  rwa [← hw.size] at hregains

/-- Only such values are. -/
theorem CallTree.inPlace_of_regains (hno : cs.NoEmptyArray)
    (h : Regains c1 { b1 with index := b.size } b1.size cs.values) : cs.InPlace false false := by
  obtain ⟨s, c', hcall, hholds⟩ := h
  have hcont := hw.continues hroom
  exact CallTree.inPlace_of_decode (b := { b1 with index := b.size }) hr1 (fun _ h => h.1) hlen hone
    (hcont.at hw) hw.behind hcont.size_lt hcall hholds (.inl hno)

theorem CallTree.inPlace_of_regainsInPlace
    (h : RegainsInPlace c1 { b1 with index := b.size } b1.size cs) : cs.InPlace false false := by
  obtain ⟨s, c', events, hcall, hholds, htrace, hspans⟩ := h
  have hcont := hw.continues hroom
  exact CallTree.inPlace_of_decode (b := { b1 with index := b.size }) hr1 (fun _ h => h.1) hlen hone
    (hcont.at hw) hw.behind hcont.size_lt hcall hholds (.inr ⟨events, htrace, hspans⟩)

end

/-- Types that are not all valid. -/
theorem exists_invalid_iff {types : List (Option Slot)} {c1 : Context} :
    (∃ type ∈ types, c1.isValid type = false) ↔ ¬ ∀ type ∈ types, c1.isValid type = true := by
  simp only [not_forall, Bool.not_eq_true, exists_prop]

/-- What holds of the bytes exactly if the values in them are in place holds for sound calls only. -/
theorem CallTree.sound_iff (hr : Ready (· = AmqpType.zero) c live) (hc : c.container = none)
    (hroom : Room b cs.wire.length) {R : Context → Buffer → Prop}
    (hR : ∀ {c1 b1 live1}, Ready AmqpType.Blank c1 live1 → Appends b b1 cs.wire → cs.OneCode →
      (R c1 b1 ↔ cs.InPlace false false)) :
    (∃ types c1 b1, cs.encode c b = .ok (types, c1, b1) ∧
      ((∀ type ∈ types, c1.isValid type = true) → R c1 b1) ∧
      (¬ cs.SizesFit → ∃ type ∈ types, c1.isValid type = false)) ↔ cs.Sound := by
  rcases cs.encode_any (b := b) hr.blank hc (.inl hroom) with
    ⟨hno, herror⟩ | ⟨hthird, types, c1, b1, live1, hcall, hw, hr1, -, hvalid⟩
  · refine iff_of_false ?_ fun h => hno h.1
    rintro ⟨types, c1, b1, hcall, -⟩
    rw [herror] at hcall
    cases hcall
  · have hmissing : (¬ cs.SizesFit → ∃ type ∈ types, c1.isValid type = false) ↔
        (cs.OneCode → cs.SizesFit) := by
      rw [exists_invalid_iff, hvalid]
      exact not_imp_not
    constructor
    · rintro ⟨types', c1', b1', hcall', hall, hsizes⟩
      obtain ⟨rfl, rfl, rfl⟩ : types' = types ∧ c1' = c1 ∧ b1' = b1 := by
        simpa using hcall'.symm.trans hcall
      exact ⟨hthird, fun hone => ⟨hmissing.1 hsizes hone, (hR hr1 hw hone).1 (hall (hvalid.2 hone))⟩⟩
    · intro h
      refine ⟨types, c1, b1, hcall, fun hall => ?_, hmissing.2 fun hone => (h.2 hone).1⟩
      have hone := hvalid.1 hall
      exact (hR hr1 hw hone).2 (h.2 hone).2

section
variable (hr : Ready (· = AmqpType.zero) c live) (hc : c.container = none) (hlen : cs.length = 1)
  (hroom : Room b cs.wire.length)

include hr hc hlen hroom

theorem validityHoldsInPlace_iff : ValidityHoldsInPlace c b cs ↔ cs.Sound :=
  CallTree.sound_iff hr hc hroom fun hr1 hw hone =>
    ⟨CallTree.inPlace_of_regainsInPlace hr1 hw hroom.le hlen hone,
      CallTree.regains_written hr1 hw hroom.le hlen hone⟩

theorem validityHolds_iff (hno : cs.NoEmptyArray) : ValidityHolds c b cs ↔ cs.Sound :=
  CallTree.sound_iff hr hc hroom fun hr1 hw hone =>
    ⟨CallTree.inPlace_of_regains hr1 hw hroom.le hlen hone hno,
      fun hin => (CallTree.regains_written hr1 hw hroom.le hlen hone hin).regains⟩

/-- Calls build what is decoded to their values, if it is valid, exactly if they are sound. An array that
is empty may hide what comes behind it from the values that are compared, but not from their places. -/
theorem encode_valid_iff : (ValidityHoldsInPlace c b cs ↔ cs.Sound) ∧ (cs.Sound → ValidityHolds c b cs) ∧
    (cs.NoEmptyArray → (ValidityHolds c b cs ↔ cs.Sound)) := by
  have hiff := validityHoldsInPlace_iff hr hc hlen hroom
  refine ⟨hiff, fun h => ?_, validityHolds_iff hr hc hlen hroom⟩
  obtain ⟨types, c1, b1, hcall, hall, hsizes⟩ := hiff.2 h
  exact ⟨types, c1, b1, hcall, fun hvalid => (hall hvalid).regains, hsizes⟩

end

theorem encode_valid_iff_nested :
    (ValidityHoldsInPlace (Context.create Malloc.bump 21) (.received []) nestedValue.calls ↔
        nestedValue.calls.Sound) ∧
      (nestedValue.calls.Sound →
        ValidityHolds (Context.create Malloc.bump 21) (.received []) nestedValue.calls) ∧
      (nestedValue.calls.NoEmptyArray →
        (ValidityHolds (Context.create Malloc.bump 21) (.received []) nestedValue.calls ↔
          nestedValue.calls.Sound)) :=
  encode_valid_iff (create_ready Malloc.bump (by decide) (by decide)) rfl (by decide +kernel)
    (by decide +kernel)

/-- A symbol whose size of 256 is cut to 0 in its one byte. -/
def wideSymbol : CallTree := .leaf (.symbolSym8 (List.replicate 256 97)) .nil

theorem not_validityHolds_wide :
    ¬ ValidityHolds (Context.create Malloc.bump 21) (.received []) wideSymbol := by
  have hno : wideSymbol.NoEmptyArray := trivial
  have hone : wideSymbol.OneCode := trivial
  rw [validityHolds_iff (create_ready Malloc.bump (by decide) (by decide)) rfl rfl (by decide +kernel) hno]
  intro h
  exact absurd (h.2 hone).1.1 (by decide +kernel)

end
end Amqp
