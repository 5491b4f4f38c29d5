import LibAmqp.Types.Format
import LibAmqp.Types.Proof.Bytes

/-!
# When a list of names stays in its buffer

A text that does not fit is cut where it is written, but the functions go on by its full length.

* `formats_iff`: symbols are formatted right if and only if every spacer ends before the last byte, and
  every symbol is copied right.
* `generatePluginList_iff`: the plugins are written inside if and only if all but the last have room.
-/

namespace Amqp

open Buffer

variable {bound : Nat} {m : Buffer.Memory}

/-! ## Plugins -/

/-- What is written of a text. -/
theorem snprintf_spec {p size : Nat} {text : List UInt8} :
    (∀ r, snprintf bound m p size text = .ok r → text.length < 2 ^ 31 ∧
      (size = 0 ∨ p + min text.length (size - 1) < bound)) ∧
    (text.length < 2 ^ 31 → (size = 0 ∨ p + min text.length (size - 1) < bound) →
      ∃ m', snprintf bound m p size text = .ok (text.length, m') ∧ (∀ q < p, m' q = m q) ∧
        (size = 0 → m' = m) ∧
        (size ≠ 0 → (∀ i < min text.length (size - 1), m' (p + i) = text.getD i 0) ∧
          m' (p + min text.length (size - 1)) = 0) ∧
        ∀ q, p + min text.length (size - 1) < q → m' q = m q) := by
  have hlen : (text.take (size - 1) ++ [0]).length = min text.length (size - 1) + 1 := by
    rw [List.length_append, List.length_take, List.length_singleton, Nat.min_comm]
  unfold snprintf
  by_cases htext : 2 ^ 31 ≤ text.length
  · rw [if_pos htext]
    exact ⟨fun _ h => (by cases h), fun h => absurd htext (Nat.not_le.2 h)⟩
  · rw [if_neg htext]
    by_cases hsize : size = 0
    · rw [if_pos hsize, store, if_pos (.inl rfl), Fault.ok_bind]
      have hsame : memcpy m p [] = m := by
        funext q
        rw [memcpy, if_neg (by simp)]
      rw [hsame]
      exact ⟨fun _ _ => ⟨Nat.lt_of_not_le htext, .inl hsize⟩, fun _ _ => ⟨m, rfl, fun _ _ => rfl,
        fun _ => rfl, fun h => absurd hsize h, fun _ _ => rfl⟩⟩
    · rw [if_neg hsize]
      unfold store
      by_cases hroom : p + min text.length (size - 1) < bound
      · rw [if_pos (.inr (by omega)), Fault.ok_bind]
        refine ⟨fun _ _ => ⟨Nat.lt_of_not_le htext, .inr hroom⟩, fun _ _ => ⟨_, rfl, fun q hq => ?_,
          fun h => absurd h hsize, fun _ => ⟨fun i hi => ?_, ?_⟩, fun q hq => ?_⟩⟩
        · rw [memcpy, if_neg (by omega)]
        · rw [memcpy, if_pos (by omega), Nat.add_sub_cancel_left, List.getD_append _ _ _ _ (by
            rw [List.length_take]; omega), List.getD_eq_getElem?_getD, List.getElem?_take_of_lt (by omega),
            ← List.getD_eq_getElem?_getD]
        · rw [memcpy, if_pos (by omega), Nat.add_sub_cancel_left, List.getD_append_right _ _ _ _ (by
            rw [List.length_take]; omega), List.length_take, Nat.min_comm, Nat.sub_self]
          rfl
        · rw [memcpy, if_neg (by omega)]
      · rw [if_neg]
        · exact ⟨fun _ h => (by cases h), fun _ h => absurd h (by omega)⟩
        · rintro (h | h)
          · simp at h
          · omega

theorem generatePluginList_go_iff (hbound : bound < 2 ^ 64) : ∀ {names : List (List UInt8)}
    {pad : List UInt8} {p : Nat} {m : Buffer.Memory}, p ≤ bound →
    ((∃ m', generatePluginList.go bound pad names p (bound - p) m = .ok m') ↔
      (∀ text ∈ padded pad names, text.length < 2 ^ 31) ∧
        p + (padded pad names).dropLast.flatten.length ≤ bound) := by
  intro names
  induction names with
  | nil =>
    intro pad p m hp
    simpa [generatePluginList.go, padded] using hp
  | cons name names ih =>
    intro pad p m hp
    rw [generatePluginList.go, padded]
    by_cases htext : (pad ++ name).length < 2 ^ 31
    · obtain ⟨m', hm', -⟩ := (@snprintf_spec bound m p (bound - p) _).2 htext (by omega)
      rw [hm', Fault.ok_bind]
      dsimp only
      cases names with
      | nil =>
        rw [List.length_append] at htext
        simpa [generatePluginList.go, padded, hp] using htext
      | cons next names =>
        by_cases hfits : p + (pad ++ name).length ≤ bound
        · have hsize : (2 ^ 64 + (bound - p) - (pad ++ name).length) % 2 ^ 64 =
              bound - (p + (pad ++ name).length) := by omega
          have htext' := htext
          rw [List.length_append] at htext'
          rw [hsize, ih hfits]
          simp only [padded, List.dropLast_cons_cons, List.flatten_cons, List.length_append,
            List.forall_mem_cons, htext', true_and, ← Nat.add_assoc]
        · have hsize : (2 ^ 64 + (bound - p) - (pad ++ name).length) % 2 ^ 64 ≠ 0 := by omega
          constructor
          · rintro ⟨r, hr⟩
            rw [generatePluginList.go] at hr
            obtain ⟨x, hx, -⟩ := Fault.bind_eq_ok.1 hr
            have := (snprintf_spec.1 x hx).2
            omega
          · rintro ⟨-, h⟩
            simp only [padded, List.dropLast_cons_cons, List.flatten_cons, List.length_append] at h hfits
            omega
    · constructor
      · rintro ⟨r, hr⟩
        obtain ⟨x, hx, -⟩ := Fault.bind_eq_ok.1 hr
        rw [snprintf, if_pos (Nat.le_of_not_lt htext)] at hx
        cases hx
      · exact fun h => absurd (h.1 _ (.head _)) htext

/-- No plugin is written behind the buffer if and only if every one has a length and all but the last have
room. -/
theorem generatePluginList_iff {names : List (List UInt8)} (hbound : bound < 2 ^ 64) :
    (∃ m', generatePluginList names m bound = .ok m') ↔
      (∀ text ∈ padded [] names, text.length < 2 ^ 31) ∧
        (padded [] names).dropLast.flatten.length ≤ bound := by
  have hiff := @generatePluginList_go_iff bound hbound names [] 0 m (Nat.zero_le bound)
  rwa [Nat.sub_zero, Nat.zero_add] at hiff

/-! ## Sizes as `int`s -/

theorem toInt_lt (n : Nat) : -2 ^ 31 ≤ toInt n ∧ toInt n < 2 ^ 31 := by
  unfold toInt
  rw [BitVec.toInt_ofNat', Int.bmod_def]
  omega

/-- The number of bytes that are left, as the functions keep it. -/
theorem toInt_mod (n : Nat) :
    (n % 2 ^ 32 < 2 ^ 31 ∧ toInt n = n % 2 ^ 31) ∨ (2 ^ 31 ≤ n % 2 ^ 32 ∧ toInt n = n % 2 ^ 31 - 2 ^ 31) := by
  unfold toInt
  rw [BitVec.toInt_ofNat', Int.bmod_def]
  omega

theorem ofInt_cases (a : Int) (h : -2 ^ 31 ≤ a) (h' : a < 2 ^ 31) :
    (0 ≤ a ∧ ofInt a = a.toNat) ∨ (a < 0 ∧ 2 ^ 63 ≤ ofInt a) := by
  unfold ofInt
  rw [BitVec.toNat_ofInt]
  omega

/-! ## Symbols -/

section
variable {bufferSize : Nat} {spacer : List UInt8} {s : Printing}

/-- The variables behind `p` characters, with `left` bytes to begin with. -/
def Printing.at (left : Int) (p : Nat) (m : Buffer.Memory) : Printing := ⟨p, left - p, p, m⟩

theorem Printing.result_nonneg {left : Int} {p : Nat} : 0 ≤ (Printing.at left p m).result :=
  Int.natCast_nonneg p

theorem Printing.advance_at {left : Int} {p n : Nat} {m m' : Buffer.Memory} :
    (Printing.at left p m).advance n m' =
      if (p + n : Int) < 2 ^ 31 ∧ -2 ^ 31 ≤ left - (p + n) ∧ left - (p + n) < 2 ^ 31 then
        .ok (Printing.at left (p + n) m')
      else .error .wildPointer := by
  unfold Printing.advance Printing.at intAdd
  dsimp only
  by_cases h1 : (p + n : Int) < 2 ^ 31
  · rw [if_pos (by omega), Fault.ok_bind]
    by_cases h2 : -2 ^ 31 ≤ left - (p + n) ∧ left - (p + n) < 2 ^ 31
    · rw [if_pos (by omega), Fault.ok_bind, if_pos ⟨h1, h2⟩]
      have hleft : left - p + -(n : Int) = left - ((p + n : Nat) : Int) := by omega
      have hp : ((p : Int) + n).toNat = p + n := by omega
      rw [hleft, hp]
      rfl
    · rw [if_neg (show ¬ (-2 ^ 31 ≤ left - p + -(n : Int) ∧ left - p + -(n : Int) < 2 ^ 31) by omega),
        if_neg fun h => h2 h.2]
      rfl
  · rw [if_neg (fun h => h1 h.2), Fault.error_bind, if_neg (fun h => h1 h.1)]

/-- The offset is an `int`, and so is what is left. -/
def InRange (left : Int) (p : Nat) : Prop :=
  (p : Int) < 2 ^ 31 ∧ -2 ^ 31 ≤ left - p ∧ left - p < 2 ^ 31

theorem Printing.advance_ok {left : Int} {p n : Nat} {m m' : Buffer.Memory}
    (h : (Printing.at left p m).advance n m' = .ok s) :
    s = Printing.at left (p + n) m' ∧ InRange left (p + n) := by
  rw [Printing.advance_at] at h
  split at h
  · rename_i hrange
    cases h
    exact ⟨rfl, by unfold InRange; omega⟩
  · cases h

theorem Printing.advance_inRange {left : Int} {p n : Nat} {m m' : Buffer.Memory}
    (h : InRange left (p + n)) :
    (Printing.at left p m).advance n m' = .ok (Printing.at left (p + n) m') := by
  unfold InRange at h
  rw [Printing.advance_at, if_pos (by omega)]

/-- The text so far, cut where the buffer ends. -/
structure Shows (bufferSize : Nat) (m0 : Buffer.Memory) (text : List UInt8) (p : Nat) (m : Buffer.Memory) :
    Prop where
  length : p = min text.length (bufferSize - 1)
  text : ∀ q < p, m q = text.getD q 0
  rest : ∀ q, p ≤ q → m q = m0 q ∨ m q = 0
  behind : ∀ q, bufferSize ≤ q → m q = m0 q

/-- What no further text makes good: a wrong character, an offset behind the buffer, or a text that was
cut before the end of the buffer. -/
def Lost (bufferSize : Nat) (text : List UInt8) (p : Nat) (m : Buffer.Memory) : Prop :=
  (∃ q < p, q < text.length ∧ q < bufferSize - 1 ∧ m q ≠ text.getD q 0) ∨ bufferSize - 1 < p ∨
    2 ^ 31 < bufferSize ∧ p < text.length

theorem Lost.extend {text more : List UInt8} {p n : Nat} {m m' : Buffer.Memory}
    (h : Lost bufferSize text p m) (hn : n ≤ more.length) (hold : ∀ q < p, m' q = m q) :
    Lost bufferSize (text ++ more) (p + n) m' := by
  unfold Lost at h ⊢
  rw [List.length_append]
  rcases h with ⟨q, hq, hlen, hsize, hne⟩ | h | ⟨h1, h2⟩
  · refine .inl ⟨q, by omega, by omega, hsize, ?_⟩
    rwa [hold q hq, List.getD_append _ _ _ _ hlen]
  · exact .inr (.inl (by omega))
  · exact .inr (.inr ⟨h1, by omega⟩)

/-! ### A symbol -/

/-- What is written of a symbol: it is of a type, and so it is short. -/
theorem symbolToBytes_spec {v : Variable} (h : v.Valid) (ht : ∃ t b, v = .ofType t b) (m : Buffer.Memory)
    (p amount : Nat) :
    let n := min v.size amount
    (∀ r, symbolToBytes bufferSize m p amount v = .ok r → n = 0 ∨ p + n ≤ bufferSize) ∧
    (n = 0 ∨ p + n ≤ bufferSize → ∃ m', symbolToBytes bufferSize m p amount v = .ok ((n : Int), m') ∧
      (∀ q < p, m' q = m q) ∧ (∀ q, p + n ≤ q → m' q = m q) ∧
      ((∀ i < n, m' (p + i) = v.contents.getD i 0) ↔ v.CopiesRight n)) := by
  intro n
  have hsmall := h.size_lt ht
  have hn : toInt n = n := toInt_eq (Nat.lt_of_le_of_lt (Nat.min_le_left _ _) hsmall)
  have hnull : v ≠ .null := by
    obtain ⟨t, b, rfl⟩ := ht
    exact nofun
  constructor
  · intro r hr
    unfold symbolToBytes at hr
    dsimp only at hr
    split at hr
    · assumption
    · cases hr
  · intro hroom
    obtain ⟨result, hbytes, hout, hright⟩ := h.toBytes hnull (fun i => m (p + i)) amount
    refine ⟨fun i => if i < p then m i else result (i - p), ?_, fun q hq => if_pos hq, fun q hq => ?_, ?_⟩
    · unfold symbolToBytes
      dsimp only
      rw [if_pos hroom, hbytes, Fault.ok_bind, hn]
    · dsimp only
      rw [if_neg (by omega), hout _ (by omega)]
      exact congrArg m (by omega)
    · rw [← hright]
      refine forall₂_congr fun i _ => ?_
      dsimp only
      rw [if_neg (by omega), Nat.add_sub_cancel_left]

/-- The bytes that are left to begin with. -/
theorem left_cases (h1 : 1 ≤ bufferSize) :
    (bufferSize ≤ 2 ^ 31 ∧ toInt (bufferSize - 1) = bufferSize - 1) ∨
    (2 ^ 31 < bufferSize ∧ (bufferSize - 1) % 2 ^ 32 < 2 ^ 31 ∧
      toInt (bufferSize - 1) = (bufferSize - 1) % 2 ^ 31) ∨
    (2 ^ 31 < bufferSize ∧ ¬ (bufferSize - 1) % 2 ^ 32 < 2 ^ 31 ∧
      toInt (bufferSize - 1) = (bufferSize - 1) % 2 ^ 31 - 2 ^ 31) := by
  have hmod := toInt_mod (bufferSize - 1)
  by_cases hwide : bufferSize ≤ 2 ^ 31
  · left
    omega
  · right
    omega

section
variable {m0 : Buffer.Memory} {text : List UInt8} {p : Nat} {m : Buffer.Memory}
  (h1 : 1 ≤ bufferSize) (hp : InRange (toInt (bufferSize - 1)) p)
  (hshows : Shows bufferSize m0 text p m)
  (hwide : 2 ^ 31 < bufferSize → text.length ≤ (bufferSize - 1) % 2 ^ 31)

include h1 hp hshows hwide

/-- How much of a symbol is written, and where. -/
theorem Shows.symbol_amount {size : Nat} (hsize : size < 2 ^ 31) :
    let n := min size (ofInt (toInt (bufferSize - 1) - p))
    (n = min size (bufferSize - 1 - min text.length (bufferSize - 1)) ∨ 2 ^ 31 < bufferSize) ∧
    ((2 ^ 31 < bufferSize → text.length + size ≤ (bufferSize - 1) % 2 ^ 31) →
      n = min size (bufferSize - 1 - min text.length (bufferSize - 1)) ∧
      InRange (toInt (bufferSize - 1)) (p + n) ∧ p + n = min (text.length + size) (bufferSize - 1)) ∧
    (InRange (toInt (bufferSize - 1)) (p + n) → 2 ^ 31 < bufferSize →
      ¬ text.length + size ≤ (bufferSize - 1) % 2 ^ 31 → p + n < text.length + size) ∧
    (n ≠ 0 → p = text.length) ∧ (bufferSize ≤ 2 ^ 31 → p + n ≤ bufferSize - 1) := by
  have hlen := hshows.length
  have hleft := left_cases h1
  have hamount := ofInt_cases (toInt (bufferSize - 1) - p) hp.2.1 hp.2.2
  have hp1 := hp.1
  unfold InRange
  generalize ofInt (toInt (bufferSize - 1) - p) = amount at *
  generalize toInt (bufferSize - 1) = left at *
  intro n
  refine ⟨?_, fun hfits => ?_, fun hrange hbig hnot => ?_, fun hn => ?_, fun hbig => ?_⟩
  · omega
  · omega
  · omega
  · omega
  · omega

theorem Shows.symbol {v : Variable} (h : v.Valid) (ht : ∃ t b, v = .ofType t b)
    (hfits : SymbolFits bufferSize text.length v) : ∃ p' m',
      (Printing.at (toInt (bufferSize - 1)) p m).symbol bufferSize v =
        .ok (Printing.at (toInt (bufferSize - 1)) p' m') ∧
      InRange (toInt (bufferSize - 1)) p' ∧ Shows bufferSize m0 (text ++ v.contents) p' m' := by
  obtain ⟨-, hspec⟩ := @symbolToBytes_spec bufferSize v h ht m p (ofInt (toInt (bufferSize - 1) - p))
  obtain ⟨-, hamount, -, hstart, -⟩ := Shows.symbol_amount h1 hp hshows hwide (h.size_lt ht)
  obtain ⟨hn, hrange, hnext⟩ := hamount hfits.2
  have hcopy := hfits.1
  rw [← hn] at hcopy
  obtain ⟨m', hbytes, hold, hrest, hright⟩ := hspec (show _ ∨ p + _ ≤ bufferSize by right; omega)
  refine ⟨_, m', ?_, hrange, ⟨?_, fun q hq => ?_, fun q hq => ?_, fun q hq => ?_⟩⟩
  · show (symbolToBytes bufferSize m p (ofInt (toInt (bufferSize - 1) - p)) v >>= _) = _
    rw [hbytes, Fault.ok_bind]
    exact Printing.advance_inRange hrange
  · rw [hnext, List.length_append, v.length_contents]
  · by_cases hbefore : q < p
    · have hlen := hshows.length
      rw [hold q hbefore, hshows.text q hbefore, List.getD_append _ _ _ _ (by omega)]
    · have hp' := hstart (by omega)
      have hbyte := hright.2 hcopy (q - p) (by omega)
      rw [Nat.add_sub_cancel' (Nat.le_of_not_lt hbefore)] at hbyte
      rw [hbyte, List.getD_append_right _ _ _ _ (by omega), hp']
  · rw [hrest q hq]
    exact hshows.rest q (by omega)
  · rw [hrest q (by omega)]
    exact hshows.behind q hq

/-- Where a symbol does not fit, the function stops or the text is lost. -/
theorem Shows.symbol_lost {v : Variable} (h : v.Valid) (ht : ∃ t b, v = .ofType t b)
    (hfits : ¬ SymbolFits bufferSize text.length v) {s : Printing}
    (hs : (Printing.at (toInt (bufferSize - 1)) p m).symbol bufferSize v = .ok s) : ∃ p' m',
      s = Printing.at (toInt (bufferSize - 1)) p' m' ∧ InRange (toInt (bufferSize - 1)) p' ∧
      Lost bufferSize (text ++ v.contents) p' m' := by
  obtain ⟨hroom, hspec⟩ := @symbolToBytes_spec bufferSize v h ht m p (ofInt (toInt (bufferSize - 1) - p))
  obtain ⟨hn, hamount, hshort, hstart, hbound⟩ := Shows.symbol_amount h1 hp hshows hwide (h.size_lt ht)
  obtain ⟨r, hr, hadvance⟩ := Fault.bind_eq_ok.1 hs
  obtain ⟨m', hbytes, hold, hrest, hright⟩ := hspec (hroom r hr)
  obtain rfl := Except.ok.inj (hbytes.symm.trans hr)
  obtain ⟨rfl, hrange⟩ := Printing.advance_ok hadvance
  refine ⟨_, m', rfl, hrange, ?_⟩
  unfold Lost
  rw [List.length_append, v.length_contents]
  by_cases hlong : 2 ^ 31 < bufferSize ∧ ¬ text.length + v.size ≤ (bufferSize - 1) % 2 ^ 31
  · exact .inr (.inr ⟨hlong.1, hshort hrange hlong.1 hlong.2⟩)
  · have hlong' : 2 ^ 31 < bufferSize → text.length + v.size ≤ (bufferSize - 1) % 2 ^ 31 := by
      intro hbig
      by_contra hnot
      exact hlong ⟨hbig, hnot⟩
    obtain ⟨hn', -, hnext⟩ := hamount hlong'
    have hcopy : ¬ v.CopiesRight (min v.size (ofInt (toInt (bufferSize - 1) - p))) := by
      rw [hn']
      exact fun hc => hfits ⟨hc, hlong'⟩
    rw [← hright] at hcopy
    simp only [not_forall] at hcopy
    obtain ⟨i, hi, hne⟩ := hcopy
    have hp' := hstart (by omega)
    refine .inl ⟨p + i, by omega, by omega, by omega, ?_⟩
    rw [List.getD_append_right _ _ _ _ (by omega), ← hp', Nat.add_sub_cancel_left]
    exact hne

/-! ### A spacer -/

/-- How much of a spacer there is room for. -/
theorem Shows.spaced_amount : let size := ofInt (toInt (bufferSize - 1) - p)
    (SpacerFits bufferSize text.length spacer → (spacer = [] ∨ spacer.length < size) ∧
      spacer.length < 2 ^ 31 ∧ (size = 0 ∨ p + min spacer.length (size - 1) < bufferSize) ∧
      InRange (toInt (bufferSize - 1)) (p + spacer.length) ∧
      p + spacer.length = min (text.length + spacer.length) (bufferSize - 1) ∧
      (spacer ≠ [] → p = text.length)) ∧
    (¬ SpacerFits bufferSize text.length spacer → InRange (toInt (bufferSize - 1)) (p + spacer.length) →
      spacer ≠ [] ∧ size ≤ spacer.length ∧ (bufferSize - 1 < p + spacer.length ∨
        p = text.length ∧ p + (size - 1) < bufferSize - 1)) := by
  have hlen := hshows.length
  have hleft := left_cases h1
  have hamount := ofInt_cases (toInt (bufferSize - 1) - p) hp.2.1 hp.2.2
  have hp1 := hp.1
  unfold InRange
  generalize ofInt (toInt (bufferSize - 1) - p) = amount at *
  generalize toInt (bufferSize - 1) = left at *
  unfold SpacerFits
  have hnil : spacer = [] ↔ spacer.length = 0 := List.length_eq_zero_iff.symm
  simp only [ne_eq, hnil]
  rcases hleft with ⟨hsmall, hleft⟩ | ⟨hbig, hcut, hleft⟩ | ⟨hbig, hcut, hleft⟩
  · rw [if_pos hsmall]
    constructor
    · intro hfits
      omega
    · intro hfits hrange
      omega
  · rw [if_neg (Nat.not_le.2 hbig), if_pos hcut]
    constructor
    · intro hfits
      omega
    · intro hfits hrange
      omega
  · rw [if_neg (Nat.not_le.2 hbig), if_neg hcut]
    constructor
    · intro hfits
      omega
    · intro hfits hrange
      omega

theorem Shows.spaced (hfits : SpacerFits bufferSize text.length spacer) : ∃ p' m',
    (Printing.at (toInt (bufferSize - 1)) p m).spacer bufferSize spacer =
      .ok (Printing.at (toInt (bufferSize - 1)) p' m') ∧
    InRange (toInt (bufferSize - 1)) p' ∧ Shows bufferSize m0 (text ++ spacer) p' m' := by
  obtain ⟨hwhole, hlength, hroom, hrange, hnext, hstart⟩ := (Shows.spaced_amount h1 hp hshows hwide).1 hfits
  obtain ⟨m', hprint, hold, hnone, hsome, hrest⟩ :=
    (@snprintf_spec bufferSize m p (ofInt (toInt (bufferSize - 1) - p)) spacer).2 hlength hroom
  refine ⟨_, m', ?_, hrange, ⟨?_, fun q hq => ?_, fun q hq => ?_, fun q hq => ?_⟩⟩
  · show (snprintf bufferSize m p (ofInt (toInt (bufferSize - 1) - p)) spacer >>= _) = _
    rw [hprint, Fault.ok_bind]
    exact Printing.advance_inRange hrange
  · rw [hnext, List.length_append]
  · by_cases hbefore : q < p
    · have hlen := hshows.length
      rw [hold q hbefore, hshows.text q hbefore, List.getD_append _ _ _ _ (by omega)]
    · have hne : spacer ≠ [] := by
        rintro rfl
        exact hbefore hq
      have hsize := hwhole.resolve_left hne
      have hbyte := (hsome (by omega)).1 (q - p) (by omega)
      rw [Nat.add_sub_cancel' (Nat.le_of_not_lt hbefore)] at hbyte
      rw [hbyte, hstart hne, List.getD_append_right _ _ _ _ (by rw [← hstart hne]; omega)]
  · have hbelow := hshows.rest q (by omega)
    by_cases hsize : ofInt (toInt (bufferSize - 1) - p) = 0
    · rw [hnone hsize]
      exact hbelow
    · rcases Nat.lt_or_eq_of_le (show p + min spacer.length (ofInt (toInt (bufferSize - 1) - p) - 1) ≤ q by
          omega) with hlt | heq
      · rw [hrest q hlt]
        exact hbelow
      · exact .inr (heq ▸ (hsome hsize).2)
  · rw [← hshows.behind q hq]
    by_cases hsize : ofInt (toInt (bufferSize - 1) - p) = 0
    · rw [hnone hsize]
    · exact hrest q (by omega)

/-- Where a spacer does not fit, the function stops or the text is lost. -/
theorem Shows.spaced_lost (hm0 : ∀ q, m0 q = 0) (hnul : ∀ c ∈ spacer, c ≠ 0)
    (hfits : ¬ SpacerFits bufferSize text.length spacer) {s : Printing}
    (hs : (Printing.at (toInt (bufferSize - 1)) p m).spacer bufferSize spacer = .ok s) : ∃ p' m',
      s = Printing.at (toInt (bufferSize - 1)) p' m' ∧ InRange (toInt (bufferSize - 1)) p' ∧
      Lost bufferSize (text ++ spacer) p' m' := by
  obtain ⟨r, hr, hadvance⟩ := Fault.bind_eq_ok.1 hs
  obtain ⟨hroom, hspec⟩ := @snprintf_spec bufferSize m p (ofInt (toInt (bufferSize - 1) - p)) spacer
  obtain ⟨m', hprint, hold, hnone, hsome, hrest⟩ := hspec (hroom r hr).1 (hroom r hr).2
  obtain rfl := Except.ok.inj (hprint.symm.trans hr)
  obtain ⟨rfl, hrange⟩ := Printing.advance_ok hadvance
  obtain ⟨hne, hcut, hplace⟩ := (Shows.spaced_amount h1 hp hshows hwide).2 hfits hrange
  refine ⟨_, m', rfl, hrange, ?_⟩
  unfold Lost
  rw [List.length_append]
  rcases hplace with hover | ⟨hstart, hinside⟩
  · exact .inr (.inl hover)
  · have hlen := List.length_pos_of_ne_nil hne
    generalize ofInt (toInt (bufferSize - 1) - p) = size at *
    refine .inl ⟨p + (size - 1), by omega, by omega, hinside, ?_⟩
    have hzero : m' (p + (size - 1)) = 0 := by
      by_cases hsize : size = 0
      · rw [hnone hsize, hsize]
        exact (hshows.rest p (Nat.le_refl _)).elim (fun h => h.trans (hm0 p)) id
      · have := (hsome hsize).2
        rwa [Nat.min_eq_right (by omega)] at this
    rw [hzero, List.getD_append_right _ _ _ _ (by omega), ← hstart, Nat.add_sub_cancel_left,
      List.getD_eq_getElem _ _ (show size - 1 < spacer.length by omega)]
    exact (hnul _ (List.getElem_mem _)).symm

end

/-! ### The list -/

/-- What is written behind other symbols. -/
def following (spacer : List UInt8) : Bool → List Variable → List UInt8
  | _, [] => []
  | first, v :: symbols => (if first then [] else spacer) ++ v.contents ++ following spacer false symbols

theorem joinedSymbols_eq (symbols : List Variable) :
    joinedSymbols spacer symbols = following spacer true symbols := by
  have hrest : ∀ (symbols : List Variable) (v : Variable),
      joined spacer ((v :: symbols).map Variable.contents) =
        v.contents ++ following spacer false symbols := by
    intro symbols
    induction symbols with
    | nil => exact fun v => (List.append_nil _).symm
    | cons next symbols ih =>
      intro v
      rw [List.map_cons, List.map_cons, joined, ← List.map_cons, ih next, following]
      · simp only [Bool.false_eq_true, if_false, List.append_assoc]
      · exact nofun
  cases symbols with
  | nil => rfl
  | cons v symbols =>
    rw [joinedSymbols, hrest, following, if_pos rfl, List.nil_append]

theorem SpacerFits.wide {before : Nat} (h : SpacerFits bufferSize before spacer)
    (hbefore : 2 ^ 31 < bufferSize → before ≤ (bufferSize - 1) % 2 ^ 31) (hwide : 2 ^ 31 < bufferSize) :
    before + spacer.length ≤ (bufferSize - 1) % 2 ^ 31 := by
  have := hbefore hwide
  rcases h with rfl | h
  · exact this
  · rw [if_neg (Nat.not_le.2 hwide)] at h
    split at h <;> omega

theorem toCharBytes_go_cons {first : Bool} {v : Variable} {symbols : List Variable} :
    toCharBytes.go bufferSize spacer first (v :: symbols) s =
      (if first then .ok s else s.spacer bufferSize spacer) >>= fun s =>
        s.symbol bufferSize v >>= toCharBytes.go bufferSize spacer false symbols := by
  cases first <;> rfl

/-- A symbol behind a text that was lost. -/
theorem Lost.symbol {text : List UInt8} {left : Int} {p : Nat} {m : Buffer.Memory} {v : Variable}
    (hlost : Lost bufferSize text p m) (h : v.Valid) (ht : ∃ t b, v = .ofType t b)
    (hs : (Printing.at left p m).symbol bufferSize v = .ok s) : ∃ p' m',
      s = Printing.at left p' m' ∧ InRange left p' ∧ Lost bufferSize (text ++ v.contents) p' m' := by
  obtain ⟨hroom, hspec⟩ := @symbolToBytes_spec bufferSize v h ht m p (ofInt (left - p))
  obtain ⟨r, hr, hadvance⟩ := Fault.bind_eq_ok.1 hs
  obtain ⟨m', hbytes, hold, -⟩ := hspec (hroom r hr)
  obtain rfl := Except.ok.inj (hbytes.symm.trans hr)
  obtain ⟨rfl, hrange⟩ := Printing.advance_ok hadvance
  refine ⟨_, m', rfl, hrange, hlost.extend ?_ hold⟩
  rw [v.length_contents]
  exact Nat.min_le_left _ _

/-- A spacer behind a text that was lost. -/
theorem Lost.spaced {text : List UInt8} {left : Int} {p : Nat} {m : Buffer.Memory}
    (hlost : Lost bufferSize text p m)
    (hs : (Printing.at left p m).spacer bufferSize spacer = .ok s) : ∃ p' m',
      s = Printing.at left p' m' ∧ InRange left p' ∧ Lost bufferSize (text ++ spacer) p' m' := by
  obtain ⟨r, hr, hadvance⟩ := Fault.bind_eq_ok.1 hs
  obtain ⟨hroom, hspec⟩ := @snprintf_spec bufferSize m p (ofInt (left - p)) spacer
  obtain ⟨m', hprint, hold, -⟩ := hspec (hroom r hr).1 (hroom r hr).2
  obtain rfl := Except.ok.inj (hprint.symm.trans hr)
  obtain ⟨rfl, hrange⟩ := Printing.advance_ok hadvance
  exact ⟨_, m', rfl, hrange, hlost.extend (Nat.le_refl _) hold⟩

/-- The symbols behind a text that was lost. -/
theorem Lost.go {left : Int} : ∀ {symbols : List Variable} {first : Bool} {text : List UInt8} {p : Nat}
    {m : Buffer.Memory}, (∀ v ∈ symbols, v.Valid ∧ ∃ t b, v = .ofType t b) → InRange left p →
    Lost bufferSize text p m →
    toCharBytes.go bufferSize spacer first symbols (Printing.at left p m) = .ok s → ∃ p' m',
      s = Printing.at left p' m' ∧ InRange left p' ∧
        Lost bufferSize (text ++ following spacer first symbols) p' m' := by
  intro symbols
  induction symbols with
  | nil =>
    intro first text p m _ hp hlost hs
    cases hs
    exact ⟨p, m, rfl, hp, by rwa [following, List.append_nil]⟩
  | cons v symbols ih =>
    intro first text p m hvalid hp hlost hs
    have hv := hvalid v (.head _)
    have hrest := fun w hw => hvalid w (.tail _ hw)
    rw [toCharBytes_go_cons] at hs
    obtain ⟨s1, hs1, hs⟩ := Fault.bind_eq_ok.1 hs
    obtain ⟨s2, hs2, hs⟩ := Fault.bind_eq_ok.1 hs
    have hspaced : ∃ p1 m1, s1 = Printing.at left p1 m1 ∧ InRange left p1 ∧
        Lost bufferSize (text ++ if first then [] else spacer) p1 m1 := by
      cases first with
      | true =>
        cases hs1
        exact ⟨p, m, rfl, hp, by rwa [if_pos rfl, List.append_nil]⟩
      | false => exact hlost.spaced hs1
    obtain ⟨p1, m1, rfl, -, hlost1⟩ := hspaced
    obtain ⟨p2, m2, rfl, hp2, hlost2⟩ := hlost1.symbol hv.1 hv.2 hs2
    obtain ⟨p', m', rfl, hp', hlost'⟩ := ih hrest hp2 hlost2 hs
    refine ⟨p', m', rfl, hp', ?_⟩
    rw [following, List.append_assoc, ← List.append_assoc, ← List.append_assoc]
    exact hlost'

/-- A symbol and the spacer before it. -/
theorem Shows.step (h1 : 1 ≤ bufferSize) {m0 : Buffer.Memory} {text : List UInt8} {p : Nat}
    {m : Buffer.Memory} (hp : InRange (toInt (bufferSize - 1)) p) (hshows : Shows bufferSize m0 text p m)
    (hwide : 2 ^ 31 < bufferSize → text.length ≤ (bufferSize - 1) % 2 ^ 31) {first : Bool}
    (hfits : first = false → SpacerFits bufferSize text.length spacer) : ∃ p' m',
      (if first then Except.ok (Printing.at (toInt (bufferSize - 1)) p m)
        else (Printing.at (toInt (bufferSize - 1)) p m).spacer bufferSize spacer) =
          .ok (Printing.at (toInt (bufferSize - 1)) p' m') ∧
      InRange (toInt (bufferSize - 1)) p' ∧
      Shows bufferSize m0 (text ++ if first then [] else spacer) p' m' ∧
      (2 ^ 31 < bufferSize →
        (text ++ if first then [] else spacer).length ≤ (bufferSize - 1) % 2 ^ 31) := by
  cases first with
  | true => exact ⟨p, m, rfl, hp, by rwa [if_pos rfl, List.append_nil], by
      rwa [if_pos rfl, List.append_nil]⟩
  | false =>
    obtain ⟨p', m', hspacer, hp', hshows'⟩ := Shows.spaced h1 hp hshows hwide (hfits rfl)
    refine ⟨p', m', hspacer, hp', hshows', fun hbig => ?_⟩
    rw [if_neg Bool.false_ne_true, List.length_append]
    exact (hfits rfl).wide hwide hbig

theorem start_eq {first : Bool} {text : List UInt8} :
    (if first then text.length else text.length + spacer.length) =
      (text ++ if first then [] else spacer).length := by
  cases first with
  | true => rw [if_pos rfl, if_pos rfl, List.append_nil]
  | false => rw [if_neg Bool.false_ne_true, if_neg Bool.false_ne_true, List.length_append]

/-- Where everything fits, the text is shown. -/
theorem Shows.go (h1 : 1 ≤ bufferSize) {m0 : Buffer.Memory} : ∀ {symbols : List Variable} {first : Bool}
    {text : List UInt8} {p : Nat} {m : Buffer.Memory},
    (∀ v ∈ symbols, v.Valid ∧ ∃ t b, v = .ofType t b) → InRange (toInt (bufferSize - 1)) p →
    Shows bufferSize m0 text p m → (2 ^ 31 < bufferSize → text.length ≤ (bufferSize - 1) % 2 ^ 31) →
    ListFits bufferSize spacer first text.length symbols → ∃ p' m',
      toCharBytes.go bufferSize spacer first symbols (Printing.at (toInt (bufferSize - 1)) p m) =
        .ok (Printing.at (toInt (bufferSize - 1)) p' m') ∧
      Shows bufferSize m0 (text ++ following spacer first symbols) p' m' := by
  intro symbols
  induction symbols with
  | nil =>
    intro first text p m _ _ hshows _ _
    exact ⟨p, m, rfl, by rwa [following, List.append_nil]⟩
  | cons v symbols ih =>
    intro first text p m hvalid hp hshows hwide hfits
    obtain ⟨hspacer, hsymbol, hlist⟩ := hfits
    rw [start_eq] at hsymbol hlist
    obtain ⟨p1, m1, hs1, hp1, hshows1, hwide1⟩ := Shows.step h1 hp hshows hwide hspacer
    obtain ⟨hv, ht⟩ := hvalid v (.head _)
    obtain ⟨p2, m2, hs2, hp2, hshows2⟩ := Shows.symbol h1 hp1 hshows1 hwide1 hv ht hsymbol
    rw [← v.length_contents, ← List.length_append] at hlist
    obtain ⟨p', m', hgo, hshows'⟩ := ih (fun w hw => hvalid w (.tail _ hw)) hp2 hshows2
      (fun hbig => by
        rw [List.length_append, v.length_contents]
        exact hsymbol.2 hbig) hlist
    refine ⟨p', m', ?_, ?_⟩
    · rw [toCharBytes_go_cons, hs1, Fault.ok_bind, hs2, Fault.ok_bind, hgo]
    · rw [following, List.append_assoc, ← List.append_assoc, ← List.append_assoc]
      exact hshows'

/-- Where something does not fit, the function stops or the text is lost. -/
theorem Shows.go_lost (h1 : 1 ≤ bufferSize) {m0 : Buffer.Memory} (hm0 : ∀ q, m0 q = 0)
    (hnul : ∀ c ∈ spacer, c ≠ 0) : ∀ {symbols : List Variable} {first : Bool} {text : List UInt8}
    {p : Nat} {m : Buffer.Memory},
    (∀ v ∈ symbols, v.Valid ∧ ∃ t b, v = .ofType t b) → InRange (toInt (bufferSize - 1)) p →
    Shows bufferSize m0 text p m → (2 ^ 31 < bufferSize → text.length ≤ (bufferSize - 1) % 2 ^ 31) →
    ¬ ListFits bufferSize spacer first text.length symbols →
    toCharBytes.go bufferSize spacer first symbols (Printing.at (toInt (bufferSize - 1)) p m) = .ok s →
    ∃ p' m', s = Printing.at (toInt (bufferSize - 1)) p' m' ∧ InRange (toInt (bufferSize - 1)) p' ∧
      Lost bufferSize (text ++ following spacer first symbols) p' m' := by
  intro symbols
  induction symbols with
  | nil =>
    intro first text p m _ _ _ _ hfits
    exact absurd trivial hfits
  | cons v symbols ih =>
    intro first text p m hvalid hp hshows hwide hfits hs
    obtain ⟨hv, ht⟩ := hvalid v (.head _)
    have hrest := fun w hw => hvalid w (.tail _ hw)
    rw [toCharBytes_go_cons] at hs
    obtain ⟨s1, hs1, hs⟩ := Fault.bind_eq_ok.1 hs
    obtain ⟨s2, hs2, hs⟩ := Fault.bind_eq_ok.1 hs
    rw [following, List.append_assoc, ← List.append_assoc, ← List.append_assoc]
    by_cases hspacer : first = false → SpacerFits bufferSize text.length spacer
    · obtain ⟨p1, m1, hs1', hp1, hshows1, hwide1⟩ := Shows.step h1 hp hshows hwide hspacer
      obtain rfl := Except.ok.inj (hs1'.symm.trans hs1)
      by_cases hsymbol : SymbolFits bufferSize (text ++ if first then [] else spacer).length v
      · obtain ⟨p2, m2, hs2', hp2, hshows2⟩ := Shows.symbol h1 hp1 hshows1 hwide1 hv ht hsymbol
        obtain rfl := Except.ok.inj (hs2'.symm.trans hs2)
        refine ih hrest hp2 hshows2 (fun hbig => ?_) (fun hlist => hfits ⟨hspacer, ?_, ?_⟩) hs
        · rw [List.length_append, v.length_contents]
          exact hsymbol.2 hbig
        · rwa [start_eq]
        · rwa [start_eq, ← v.length_contents, ← List.length_append]
      · obtain ⟨p2, m2, rfl, hp2, hlost⟩ := Shows.symbol_lost h1 hp1 hshows1 hwide1 hv ht hsymbol hs2
        exact hlost.go hrest hp2 hs
    · simp only [Classical.not_imp] at hspacer
      obtain ⟨rfl, hspacer⟩ := hspacer
      obtain ⟨p1, m1, rfl, -, hlost1⟩ := Shows.spaced_lost h1 hp hshows hwide hm0 hnul hspacer hs1
      obtain ⟨p2, m2, rfl, hp2, hlost2⟩ := hlost1.symbol hv ht hs2
      exact hlost2.go hrest hp2 hs

theorem Shows.zero {m0 : Buffer.Memory} : Shows bufferSize m0 [] 0 m0 := by
  refine ⟨(Nat.zero_min _).symm, fun q hq => absurd hq (Nat.not_lt_zero q), fun _ _ => .inl rfl,
    fun _ _ => rfl⟩

theorem store_before {p : Nat} {bytes : List UInt8} {m' : Buffer.Memory}
    (h : store bound m p bytes = .ok m') (q : Nat) (hq : q < p) : m' q = m q := by
  unfold store at h
  split at h
  · cases h
    rw [memcpy, if_neg (by omega)]
  · cases h

/-- The symbols are formatted right if and only if every spacer and every symbol fits. -/
theorem formats_iff {symbols : List Variable} (h1 : 1 ≤ bufferSize)
    (hvalid : ∀ v ∈ symbols, v.Valid ∧ ∃ t b, v = .ofType t b) (hnul : ∀ c ∈ spacer, c ≠ 0) :
    Formats symbols spacer bufferSize ↔ ListFits bufferSize spacer true 0 symbols := by
  have hrange : InRange (toInt (bufferSize - 1)) 0 := by
    have := toInt_lt (bufferSize - 1)
    unfold InRange
    omega
  have hwide : 2 ^ 31 < bufferSize → ([] : List UInt8).length ≤ (bufferSize - 1) % 2 ^ 31 :=
    fun _ => Nat.zero_le _
  have hstart : ∀ m, Printing.at (toInt (bufferSize - 1)) 0 m = ⟨0, toInt (bufferSize - 1), 0, m⟩ := by
    intro m
    unfold Printing.at
    rw [Int.natCast_zero, Int.sub_zero]
  unfold Formats
  rw [joinedSymbols_eq]
  constructor
  · intro hformats
    by_contra hfits
    obtain ⟨result, hresult, htext, -, -⟩ := hformats fun _ => 0
    unfold amqpMultipleSymbolToCharBytes at hresult
    rw [if_neg (by omega), ← hstart] at hresult
    obtain ⟨s, hs, hresult⟩ := Fault.bind_eq_ok.1 hresult
    obtain ⟨p', m', rfl, hp', hlost⟩ :=
      Shows.go_lost h1 (fun _ => rfl) hnul hvalid hrange Shows.zero hwide hfits hs
    rw [List.nil_append] at hlost
    rw [if_pos Printing.result_nonneg] at hresult
    obtain ⟨m, hm, hresult⟩ := Fault.bind_eq_ok.1 hresult
    obtain ⟨hlen, rfl⟩ := Prod.mk.inj (Except.ok.inj hresult)
    have hlen : p' = min (following spacer true symbols).length (bufferSize - 1) := Int.ofNat.inj hlen
    rw [← hlen] at htext
    rcases hlost with ⟨q, hq, -, -, hne⟩ | hover | ⟨hbig, hshort⟩
    · exact hne ((store_before hm q hq).symm.trans (htext q hq))
    · omega
    · unfold InRange at hp'
      omega
  · intro hfits memory
    obtain ⟨p', m', hgo, hshows⟩ := Shows.go h1 hvalid hrange (@Shows.zero _ memory) hwide hfits
    rw [List.nil_append] at hshows
    have hlen := hshows.length
    refine ⟨memcpy m' p' [0], ?_, fun q hq => ?_, ?_, fun q hq => ?_⟩
    · unfold amqpMultipleSymbolToCharBytes
      rw [if_neg (by omega), ← hstart, hgo, Fault.ok_bind, if_pos Printing.result_nonneg]
      dsimp only [Printing.at]
      rw [Int.toNat_natCast, store, if_pos (.inr (by
        rw [List.length_singleton]
        omega)), Fault.ok_bind, ← hlen]
    · rw [← hlen] at hq
      rw [memcpy, if_neg (by omega), hshows.text q hq]
    · rw [← hlen, memcpy, if_pos (by simp), Nat.sub_self]
      rfl
    · rw [memcpy, if_neg (by rw [List.length_singleton]; omega), hshows.behind q hq]

end

/-- Neither list leaves its buffer, and the symbols are formatted right, if and only if all of it fits
where it goes. -/
theorem nameLists_iff {symbols : List Variable} {spacer : List UInt8} {bufferSize : Nat}
    (h1 : 1 ≤ bufferSize) (hvalid : ∀ v ∈ symbols, v.Valid ∧ ∃ t b, v = .ofType t b)
    (hnul : ∀ c ∈ spacer, c ≠ 0) (names : List (List UInt8)) (m : Buffer.Memory)
    (hbound : bound < 2 ^ 64) :
    (Formats symbols spacer bufferSize ↔ ListFits bufferSize spacer true 0 symbols) ∧
      ((∃ m', generatePluginList names m bound = .ok m') ↔
        (∀ text ∈ padded [] names, text.length < 2 ^ 31) ∧
          (padded [] names).dropLast.flatten.length ≤ bound) :=
  ⟨formats_iff h1 hvalid hnul, generatePluginList_iff hbound⟩

/-- A symbol of zero bytes in a fresh buffer. -/
def zeroSymbol (index size : Nat) : Variable :=
  .ofType { AmqpType.zero with constructor.typedefFlags := isSymbol, position := ⟨index, size⟩ }
    (Buffer.received [])

theorem nameLists_iff_plain :
    (Formats [zeroSymbol 0 5, zeroSymbol 5 3] [44, 32] 512 ↔
        ListFits 512 [44, 32] true 0 [zeroSymbol 0 5, zeroSymbol 5 3]) ∧
      ((∃ m', generatePluginList [[80, 76, 65, 73, 78], [70, 111, 111]] (fun _ => 7) 256 = .ok m') ↔
        (∀ text ∈ padded [] [[80, 76, 65, 73, 78], [70, 111, 111]], text.length < 2 ^ 31) ∧
          (padded [] [[80, 76, 65, 73, 78], [70, 111, 111]]).dropLast.flatten.length ≤ 256) := by
  refine nameLists_iff (by decide) (fun v hv => ?_) (by decide +kernel) _ _ (by decide)
  rcases List.mem_pair.1 hv with rfl | rfl
  · exact ⟨⟨by decide, by decide⟩, _, _, rfl⟩
  · exact ⟨⟨by decide, by decide⟩, _, _, rfl⟩

/-- Five characters, a spacer and three more leave a buffer of five bytes. -/
theorem not_formats_small : ¬ Formats [zeroSymbol 0 5, zeroSymbol 5 3] [44, 32] 5 := by
  have hvalid : ∀ v ∈ [zeroSymbol 0 5, zeroSymbol 5 3], v.Valid ∧ ∃ t b, v = .ofType t b := by
    intro v hv
    rcases List.mem_pair.1 hv with rfl | rfl
    · exact ⟨⟨by decide, by decide⟩, _, _, rfl⟩
    · exact ⟨⟨by decide, by decide⟩, _, _, rfl⟩
  rw [formats_iff (by decide) hvalid (by decide +kernel)]
  rintro ⟨-, -, hspacer, -⟩
  exact absurd (hspacer rfl) (by unfold SpacerFits; decide)

end Amqp
