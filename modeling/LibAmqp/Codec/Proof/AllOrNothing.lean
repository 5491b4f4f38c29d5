import LibAmqp.Codec.Calls
import LibAmqp.Codec.Proof.Written
import LibAmqp.Lib.Dispatch

/-!
# Encodings at the end of the buffer

What a call for a single value does when there may be little room, in any state that calls of the encoder
can lead to.

* `Draft.Firsts`: an array with elements knows the one that has its constructor. Every call keeps it.
* `Built`: a state that calls can lead to.
-/

namespace Amqp

open Lib Memory Buffer

/-- An array with elements knows the one that has its constructor. -/
def Draft.Firsts (d : Draft) : Prop :=
  ∀ r ∈ d.types, r.test isArray = true → r.members ≠ [] →
    ∃ f, r.first = some f ∧ f < d.types.length

section
variable {d d' : Draft} {w : Place} {b : Buffer} {m : EncodingMetaData}

/-! ## Calls without elements -/

theorem Leaf.fillsUp_eq (c : Context) (l : Leaf) :
    l.fillsUp c b = fills (l.encoding c.withinArray).1 (l.encoding c.withinArray).2 c.constructorDue b :=
  rfl

section
variable {c : Context}

theorem amqpEncodeFixed_refused (hno : ¬ b.size + 1 + m.width ≤ b.capacity) :
    amqpEncodeFixed c b m = .ok (none, c, b) := by
  rw [amqpEncodeFixed, if_pos]
  simp only [Buffer.checkFreeSpace, Bool.not_eq_true', decide_eq_false_iff_not]
  omega

theorem thenWrite_refused {write : Buffer → Except Fault Buffer}
    (hno : ¬ b.size + 1 + m.width ≤ b.capacity) :
    thenWrite (amqpEncodeFixed c b m) write = .ok (none, c, b) := by
  rw [amqpEncodeFixed_refused hno]
  rfl

theorem amqpEncodeSimpleVariable_refused {payload : List UInt8} (hk : m.kind = .variableWidth)
    (hno : ¬ b.size + 1 + (leafBody m payload).length ≤ b.capacity) :
    amqpEncodeSimpleVariable c b m payload = .ok (none, c, b) := by
  rw [leafBody, if_pos hk, List.length_append, length_toBigEndian] at hno
  rw [amqpEncodeSimpleVariable, if_pos]
  simp only [Buffer.checkFreeSpace, Bool.not_eq_true', decide_eq_false_iff_not]
  omega

/-- A call that finds no room changes nothing. -/
theorem Leaf.encode_refused (l : Leaf) (hl : l.isBoolean = false) (hno : l.fits c b = false) :
    l.encode c b = .ok (none, c, b) := by
  have hno' : ¬ b.size + 1 + (l.part c.withinArray).body.length ≤ b.capacity := by
    simpa [Leaf.fits] using hno
  have hfixed : (l.encoding c.withinArray).1.kind ≠ .variableWidth →
      ¬ b.size + 1 + (l.encoding c.withinArray).1.width ≤ b.capacity := by
    intro hk
    rw [← l.sized c.withinArray hk]
    simpa only [Leaf.part, leafBody, if_neg hk] using hno'
  cases l with
  | scalar v =>
    cases v with
    | boolean v => cases hl
    | null => exact amqpEncodeFixed_refused (hfixed fun hk => by cases hk)
    | ubyte v | byte v | ushort v | short v | timestamp v | float v | double v | uuid v =>
      exact thenWrite_refused (hfixed fun hk => by cases hk)
    | uint v | ulong v =>
      simp only [Leaf.encoding, Scalar.encoding] at hfixed
      simp only [Leaf.encode, Scalar.encode, amqpEncodeUint, amqpEncodeUlong]
      split
      · rename_i h
        rw [if_pos h] at hfixed
        exact amqpEncodeFixed_refused (hfixed fun hk => by cases hk)
      · rename_i h
        rw [if_neg h] at hfixed
        split <;> rename_i h1
        · rw [if_pos h1] at hfixed
          exact thenWrite_refused (hfixed fun hk => by cases hk)
        · rw [if_neg h1] at hfixed
          exact thenWrite_refused (hfixed fun hk => by cases hk)
    | int v | long v =>
      simp only [Leaf.encoding, Scalar.encoding] at hfixed
      simp only [Leaf.encode, Scalar.encode, amqpEncodeInt, amqpEncodeLong]
      split <;> rename_i h
      · rw [if_pos h] at hfixed
        exact thenWrite_refused (hfixed fun hk => by cases hk)
      · rw [if_neg h] at hfixed
        exact thenWrite_refused (hfixed fun hk => by cases hk)
    | binary v | string v | symbol v =>
      simp only [Leaf.part, Leaf.encoding, Scalar.encoding] at hno'
      simp only [Leaf.encode, Scalar.encode, amqpEncodeBinary, amqpEncodeString, amqpEncodeSymbol]
      split <;> rename_i h
      · rw [if_pos h] at hno'
        exact amqpEncodeSimpleVariable_refused rfl hno'
      · rw [if_neg h] at hno'
        exact amqpEncodeSimpleVariable_refused rfl hno'
  | uint0 | ulong0 => exact amqpEncodeFixed_refused (hfixed fun hk => by cases hk)
  | smallUint v | smallInt v | smallUlong v | smallLong v => exact thenWrite_refused (hfixed fun hk => by cases hk)
  | binaryVbin8 v | binaryVbin32 v | symbolSym8 v | symbolSym32 v =>
    exact amqpEncodeSimpleVariable_refused rfl hno'

/-- What the context points to is the place of the draft. -/
theorem Drafted.place {live : Finset Slot} {ids : List Slot} (h : Drafted c live ids d) :
    ∃ w, d.At w ∧ c.withinArray = w.isArray ∧ c.constructorDue = w.due ∧ c.describedFull = w.full := by
  have hlinked := h.linked
  cases hst : d.stack with
  | nil =>
    rw [hst, Linked] at hlinked
    refine ⟨none, .outside hst, ?_⟩
    simp [Context.withinArray, Context.constructorDue, Context.describedFull, Context.enclosing, hlinked,
      Place.isArray, Place.due, Place.full]
  | cons F rest =>
    rw [hst] at hlinked
    obtain ⟨s, t, hc, hs, ht, -⟩ := hlinked
    obtain ⟨r, hr, hopen⟩ := h.opened F (by rw [hst]; exact .head _)
    obtain ⟨t1, ht1, hag⟩ := h.types F.id s r hs hr
    have henclosing : c.enclosing = some t1 := by
      rw [Context.enclosing, hc, Option.bind_some, ht1]
    have harray : t1.typeIsArray = r.test isArray := hag.test isArray
    have hcomp : t1.typeIsComposite = r.test isComposite := hag.test isComposite
    have hcount : t1.value.count = r.members.length := hag.count hopen.container
    refine ⟨some (F, r), .inside hst hr, ?_⟩
    simp [Context.withinArray, Context.constructorDue, Context.describedFull, henclosing, harray, hcomp,
      hcount, Place.isArray, Place.due, Place.full, Place.count]

/-- A call ends where its draft does, with the same bytes. -/
theorem Leaf.encode_error {live : Finset Slot} {ids : List Slot} {l : Leaf} {e : Fault}
    (h : Drafted c live ids d) (hd : l.draft d b = .error e) : l.encode c b = .error e := by
  have hlock := l.encode_lockstep (b := b) h
  rw [hd] at hlock
  exact Lockstep.of_error hlock

theorem Leaf.encode_some {live : Finset Slot} {ids : List Slot} {l : Leaf} {i : Nat} {b' : Buffer}
    (h : Drafted c live ids d) (hd : l.draft d b = .ok (some i, d', b')) :
    ∃ s c', l.encode c b = .ok (some s, c', b') := by
  have hlock := l.encode_lockstep (b := b) h
  rw [hd] at hlock
  obtain ⟨⟨p, c', b1⟩, hcall, hf⟩ := hlock.of_ok
  obtain ⟨s, rfl⟩ := hf.slot
  obtain rfl := hf.buffer
  exact ⟨s, c', hcall⟩

theorem Draft.Firsts.knows (h : d.Firsts) (hat : d.At w) : d.Knows w := by
  intro F r hw
  subst hw
  cases hat with
  | inside hst hr => exact h r (List.mem_of_getElem? hr)

theorem Drafted.allOrNothing_iff {live : Finset Slot} {ids : List Slot} (h : Drafted c live ids d)
    (hfirsts : d.Firsts) (b : Buffer) (l : Leaf) : l.AllOrNothing c b ↔ l.Works c b := by
  obtain ⟨w, hat, harray, hdue, hfull⟩ := h.place
  have hdraft := l.draft_eq (b := b) hat
  have hbytes : l.bytes c = w.bytes (l.part w.isArray) := by
    rw [Leaf.bytes, Place.bytes, harray, hdue]
  unfold Leaf.Works
  cases hfits : l.fits c b with
  | true =>
    have hroom : b.size + 1 + (l.part w.isArray).body.length ≤ b.capacity := by
      simpa [Leaf.fits, harray] using hfits
    rw [if_pos rfl, hfull, Leaf.fillsUp_eq, harray, hdue]
    rcases Draft.leaf_any hat (hfirsts.knows hat) (l.encoding_mem w.isArray) (l.sized w.isArray) hroom with
      ⟨hf, hleaf⟩ | ⟨hf, d1, b1, hleaf, -, hw⟩
    · -- behind the members of a described type
      have herror : l.draft d b = .error .abort := by
        rw [hdraft, hleaf]
        split <;> rfl
      rw [hf]
      refine ⟨fun hall => ?_, fun hworks => by cases hworks.1⟩
      have hcall := Leaf.encode_error h herror
      rcases hall with hnone | ⟨type, c1, b1, hsome, -⟩
      · rw [hcall] at hnone
        cases hnone
      · rw [hcall] at hsome
        cases hsome
    · have hok : l.draft d b = .ok (some d.types.length, d1, b1) := by
        rw [hdraft, hleaf]
        split <;> rfl
      obtain ⟨s, c1, hcall⟩ := Leaf.encode_some h hok
      rw [hf]
      cases hfills : fills (l.encoding w.isArray).1 (l.encoding w.isArray).2 w.due b with
      | true =>
        rw [hfills, if_pos rfl] at hw
        refine ⟨fun hall => ?_, fun hworks => by cases hworks.2⟩
        rcases hall with hnone | ⟨type, c2, b2, hsome, happ⟩
        · rw [hcall] at hnone
          cases hnone
        · rw [hcall] at hsome
          cases hsome
          have hsize := happ.size
          rw [hbytes] at hsize
          exact absurd hsize (Nat.ne_of_lt hw)
      | false =>
        rw [hfills, if_neg (by decide)] at hw
        refine ⟨fun _ => ⟨rfl, rfl⟩, fun _ => .inr ⟨s, c1, b1, hcall, ?_⟩⟩
        rw [hbytes]
        exact hw
  | false =>
    rw [if_neg (by decide)]
    cases hl : l.isBoolean with
    | false => exact ⟨fun _ => rfl, fun _ => .inl (l.encode_refused hl hfits)⟩
    | true =>
      -- the type is written to when there is none
      have hno : ¬ b.size + 1 + (l.part w.isArray).body.length ≤ b.capacity := by
        simpa [Leaf.fits, harray] using hfits
      have herror : l.draft d b = .error .wildPointer := by
        rw [hdraft, hl, if_pos rfl, Draft.leaf_refused (l.sized w.isArray) hno]
        rfl
      have hcall := Leaf.encode_error h herror
      refine ⟨fun hall => ?_, fun hworks => by cases hworks⟩
      rcases hall with hnone | ⟨type, c1, b1, hsome, -⟩
      · rw [hcall] at hnone
        cases hnone
      · rw [hcall] at hsome
        cases hsome

end

/-! ## What the calls keep -/

/-- What a draft has in every run, beside what `Drafted` says. -/
structure Draft.Sound (d : Draft) : Prop where
  firsts : d.Firsts
  usage : d.continueOnUsageError = false

theorem Draft.Sound.modify {g : DraftType → DraftType} {i : Nat} (h : d.Sound)
    (hg : ∀ r, d.types[i]? = some r → (g r).test isArray = true → (g r).members ≠ [] →
      ∃ f, (g r).first = some f ∧ f < d.types.length) : (d.modify i g).Sound := by
  refine ⟨fun r hr ha hm => ?_, h.usage⟩
  have hlen : (d.modify i g).types.length = d.types.length := List.length_modify ..
  rw [hlen]
  obtain ⟨k, hk⟩ := List.mem_iff_getElem?.1 hr
  by_cases hki : k = i
  · subst hki
    cases hrk : d.types[k]? with
    | none => simp [Draft.modify, hrk] at hk
    | some rk =>
      rw [Draft.modify_self hrk, Option.some.injEq] at hk
      subst hk
      exact hg rk hrk ha hm
  · rw [Draft.modify_ne g hki] at hk
    exact h.firsts r (List.mem_of_getElem? hk) ha hm

/-- A change to flags that do not make an array. -/
theorem Draft.Sound.keep {g : DraftType → DraftType} {i : Nat} (h : d.Sound)
    (hg : ∀ r, (g r).test isArray = r.test isArray ∧ (g r).members = r.members ∧
      (g r).first = r.first) : (d.modify i g).Sound := by
  refine h.modify fun r hr ha hm => ?_
  obtain ⟨harray, hmembers, hfirst⟩ := hg r
  rw [harray] at ha
  rw [hmembers] at hm
  rw [hfirst]
  exact h.firsts r (List.mem_of_getElem? hr) ha hm

theorem Draft.Sound.make (h : d.Sound) (extra : TypedefFlags) (m : EncodingMetaData) :
    (d.make extra m).Sound := by
  refine ⟨fun r hr ha hm => ?_, h.usage⟩
  rcases List.mem_append.1 hr with hr | hr
  · obtain ⟨f, hf, hlt⟩ := h.firsts r hr ha hm
    exact ⟨f, hf, by simp only [Draft.make, List.length_append]; omega⟩
  · obtain rfl := List.mem_singleton.1 hr
    exact absurd rfl hm

theorem Draft.Sound.markInvalid (h : d.Sound) (i : Nat) (cause : ErrorCode) :
    (d.modify i (·.markInvalid cause)).Sound :=
  h.keep fun r => ⟨r.test_setFlags (by decide), rfl, rfl⟩

/-- An element of a container; that of an array is not the first, or the array knows it. -/
theorem Draft.Sound.addElement {i j : Nat} (h : d.Sound) (hij : j ≠ i)
    (hfirst : ∀ r, d.types[i]? = some r → r.test isArray = true →
      ∃ f, r.first = some f ∧ f < d.types.length) :
    Ends (fun x => x.1.Sound) (fun _ => True) (do .ok (← d.addElement i j, b)) := by
  cases hr : d.types[i]? with
  | none =>
    rw [Draft.addElement, Draft.load, hr]
    trivial
  | some r =>
    rw [Draft.addElement_eq hr]
    split
    · trivial
    · have h1 : (d.modify j (·.setFlags r.roleIn)).Sound := h.keep fun r' =>
        ⟨(Flagged.setFlags r' r.roleIn_sub).test isArray (by decide), rfl, rfl⟩
      refine h1.modify fun r' hr' ha _ => ?_
      rw [Draft.modify_ne _ hij.symm] at hr'
      obtain ⟨f, hf, hlt⟩ := hfirst r' hr' ha
      exact ⟨f, hf, by simpa [Draft.modify] using hlt⟩

theorem Draft.Sound.enterContainer {i j : Nat} (h : d.Sound) (hij : j ≠ i) (hj : j < d.types.length) :
    Ends (fun x => x.1.Sound) (fun _ => True) (d.enterContainer b m i j) := by
  unfold Draft.enterContainer
  cases hr : d.types[i]? with
  | none =>
    rw [Draft.load, hr]
    trivial
  | some r =>
    rw [Draft.load_ok hr, Fault.ok_bind]
    split
    · rename_i hna
      refine Ends.bind (p := fun _ => True) ?_ fun b1 _ => h.addElement hij fun r' hr' ha => ?_
      · cases emitConstructor b m <;> trivial
      · obtain rfl : r = r' := Option.some.inj (hr.symm.trans hr')
        simp [ha] at hna
    split
    · refine Ends.bind (p := fun _ => True) ?_ fun b1 _ => ?_
      · cases emitConstructor b m <;> trivial
      · refine (h.modify fun _ _ _ _ => ⟨j, rfl, hj⟩).addElement hij fun r' hr' _ => ?_
        rw [Draft.modify_self hr, Option.some.injEq] at hr'
        subst hr'
        exact ⟨j, rfl, by simpa [Draft.modify] using hj⟩
    · rename_i hm
      have hfirst : ∀ r', d.types[i]? = some r' → r'.test isArray = true →
          ∃ f, r'.first = some f ∧ f < d.types.length := by
        intro r' hr' ha
        obtain rfl : r = r' := Option.some.inj (hr.symm.trans hr')
        exact h.firsts r (List.mem_of_getElem? hr) ha (by simpa using hm)
      cases hf : r.first with
      | none => trivial
      | some f =>
        dsimp only
        refine Ends.bind (p := fun _ => True) (by cases d.load f <;> trivial) fun rf _ => ?_
        refine Ends.bind (p := fun _ => True) (by cases d.load j <;> trivial) fun rj _ => ?_
        split
        · exact h.addElement hij hfirst
        · refine ((h.markInvalid j _).markInvalid i _).addElement hij fun r' hr' ha => ?_
          rw [Draft.modify_self (by rw [Draft.modify_ne _ hij.symm, hr]), Option.some.injEq] at hr'
          subst hr'
          have ha' : r.test isArray = true := (r.test_setFlags (by decide)).symm.trans ha
          obtain ⟨f', hf', hlt⟩ := hfirst r hr ha'
          exact ⟨f', hf', by simpa [Draft.modify] using hlt⟩

theorem Draft.Sound.place (h : d.Sound) (hst : ∀ F ∈ d.stack, F.id < d.types.length)
    (extra : TypedefFlags) (m : EncodingMetaData) :
    Ends (fun x => x.1.Sound) (fun _ => True) (d.place b extra m) := by
  have h1 := h.make extra m
  unfold Draft.place
  split
  · cases emitConstructor b m with
    | error e => trivial
    | ok b1 => exact h1
  · rename_i F rest hF
    have hlt := hst F (by rw [hF]; exact .head _)
    exact h1.enterContainer (by omega) (by simp [Draft.make])

/-- What comes after the type of a call does not change the draft. -/
theorem Draft.Sound.thenWrite {r : Drafting} {write : Buffer → Except Fault Buffer}
    (h : Ends (fun x => x.2.1.Sound) (fun _ => True) r) :
    Ends (fun x => x.2.1.Sound) (fun _ => True) (Draft.thenWrite r write) := by
  refine h.bind fun x hx => ?_
  obtain ⟨type, d1, b1⟩ := x
  cases type with
  | none => exact hx
  | some type =>
    dsimp only
    cases write b1 with
    | error e => trivial
    | ok b2 => exact hx

theorem Draft.Sound.leaf (h : d.Sound) (hst : ∀ F ∈ d.stack, F.id < d.types.length)
    (payload : List UInt8) : Ends (fun x => x.2.1.Sound) (fun _ => True) (d.leaf b m payload) := by
  unfold Draft.leaf
  split
  · unfold Draft.variableWidth
    split
    · exact h
    · refine (h.place hst 0 m).bind fun x hx => ?_
      refine Ends.bind (p := fun _ => True) (by cases writeSizeField x.2 m.width payload.length <;> trivial)
        fun b1 _ => ?_
      cases b1.puts payload with
      | error e => trivial
      | ok b2 => exact hx
  · refine Draft.Sound.thenWrite ?_
    unfold Draft.encodeFixed
    split
    · exact h
    · exact (h.place hst 0 m).bind fun x hx => hx

theorem Leaf.draft_sound (h : d.Sound) (hat : d.At w) (hst : ∀ F ∈ d.stack, F.id < d.types.length)
    (l : Leaf) : Ends (fun x => x.2.1.Sound) (fun _ => True) (l.draft d b) := by
  rw [l.draft_eq hat]
  split
  · refine (h.leaf hst _).bind fun x hx => ?_
    obtain ⟨type, d1, b1⟩ := x
    cases type with
    | none => trivial
    | some type => exact hx
  · exact h.leaf hst _

theorem Draft.Sound.compound (h : d.Sound) (hst : ∀ F ∈ d.stack, F.id < d.types.length)
    (extra : TypedefFlags) (m : EncodingMetaData) :
    Ends (fun x => x.2.1.Sound) (fun _ => True) (d.compound b extra m) := by
  unfold Draft.compound
  split
  · trivial
  · refine (h.place hst extra m).bind fun x hx => ?_
    refine Ends.bind (p := fun _ => True) (by cases Draft.reserve x.2 m.width <;> trivial) fun y _ => ?_
    have h1 : (x.1.modify d.types.length (·.setFlags isIncomplete)).Sound :=
      hx.keep fun r => ⟨r.test_setFlags (by decide), rfl, rfl⟩
    exact ⟨h1.firsts, h1.usage⟩

theorem Draft.Sound.complete (h : d.Sound) (type : Option Nat) :
    Ends (fun x => x.2.1.Sound) (fun _ => True) (d.complete b type) := by
  unfold Draft.complete
  split
  · trivial
  · rename_i F rest hF
    refine Ends.bind (p := fun _ => True) (by cases d.load F.id <;> trivial) fun r _ => ?_
    have h1 : (d.modify F.id (·.clearFlags isIncomplete)).Sound :=
      h.keep fun r => ⟨r.test_clearFlags (by decide), rfl, rfl⟩
    have h2 : ({ d.modify F.id (·.clearFlags isIncomplete) with stack := rest } : Draft).Sound :=
      ⟨h1.firsts, h1.usage⟩
    split
    · dsimp only
      split
      · trivial
      · split
        · exact h2
        · exact (h2.markInvalid _ _).markInvalid _ _
    · refine Ends.bind (p := fun _ => True) (by
        cases Draft.inArray { d.modify F.id (·.clearFlags isIncomplete) with stack := rest } <;> trivial)
        fun inArray _ => ?_
      split
      · unfold Draft.completeContainer
        split
        · exact h2
        · dsimp only
          refine Ends.bind (p := fun _ => True) ?_ fun b1 _ => h2
          cases writeFields b r.metaData.width F.index (b.size - F.index) r.members.length <;> trivial
      · unfold Draft.completeEmptyList
        refine Ends.bind (p := fun _ => True) ?_ fun b1 _ => ?_
        · cases b.backup (r.metaData.width * 2 + 1) <;> trivial
        refine Ends.bind (p := fun _ => True) ?_ fun b2 _ => ?_
        · cases b1.putc EncodingMetaData.list0.formatCode <;> trivial
        exact h2.keep fun r => ⟨rfl, rfl, rfl⟩

/-! ## Runs -/

/-- A context that calls of the encoder can lead to. -/
def Built (c : Context) : Prop := ∃ live ids d, Drafted c live ids d ∧ d.Sound

theorem Follows.built {ids : List Slot} {x : Option Slot × Context × Buffer}
    {y : Option Nat × Draft × Buffer} (h : Follows ids x y) (hs : y.2.1.Sound) : Built x.2.1 := by
  obtain ⟨live, made, hd, -⟩ := h.drafted
  exact ⟨live, ids ++ made, y.2.1, hd, hs⟩

/-- What a call does whose draft is sound. -/
theorem built_of_lockstep {R : Option Slot × Context × Buffer → Option Nat × Draft × Buffer → Prop}
    {ids : List Slot} {x : Encoding} {y : Drafting} (h : Lockstep R x y)
    (hR : ∀ x y, R x y → Follows ids x y) (hs : Ends (fun y => y.2.1.Sound) (fun _ => True) y) :
    Ends (fun x => Built x.2.1) (fun _ => True) x := by
  cases x with
  | error e => trivial
  | ok x =>
    cases y with
    | error e => exact h.elim
    | ok y => exact (hR x y h).built hs

theorem Built.encode {c : Context} (h : Built c) (b : Buffer) (call : EncodeCall) :
    Ends (fun x => Built x.2.1) (fun _ => True) (call.encode c b) := by
  obtain ⟨live, ids, d, hd, hs⟩ := h
  obtain ⟨w, hat, -⟩ := hd.place
  have hst : ∀ F ∈ d.stack, F.id < d.types.length := fun F hF => hd.stack_lt hF
  cases call with
  | leaf l =>
    exact built_of_lockstep (l.encode_lockstep hd) (fun x y h => h.toFollows) (Leaf.draft_sound hs hat hst l)
  | start k =>
    exact built_of_lockstep (k.start_lockstep hd) (fun x y h => h) (hs.compound hst _ _)
  | complete type =>
    cases type with
    | none =>
      exact built_of_lockstep (amqpCompleteType_lockstep (q := none) hd rfl fun k hk => nomatch hk)
        (fun x y h => h) (hs.complete none)
    | some s =>
      by_cases hmem : s ∈ ids
      · obtain ⟨k, hk⟩ := List.mem_iff_getElem?.1 hmem
        refine built_of_lockstep (amqpCompleteType_lockstep (q := some k) hd hk.symm fun i hi => ?_)
          (fun x y h => h) (hs.complete (some k))
        cases hi
        exact (List.getElem?_eq_some_iff.1 hk).1
      · -- a type of nobody is not the innermost container
        show Ends _ _ (amqpCompleteType c b (some s))
        unfold amqpCompleteType
        have hlinked := hd.linked
        cases hdst : d.stack with
        | nil =>
          rw [hdst, Linked] at hlinked
          rw [popContainer, hlinked]
          trivial
        | cons F rest =>
          obtain ⟨top, c1, t, r, hpop, htop, -, -, -, -, -, h1⟩ := popContainer_drafted hd hdst
          have hne : s ≠ top := by
            rintro rfl
            exact hmem (List.mem_of_getElem? htop)
          have husage : c1.continueOnUsageError = false := h1.usage.trans hs.usage
          rw [hpop, Fault.ok_bind]
          dsimp only
          rw [if_pos (by simpa using hne), husage]
          trivial

theorem Built.step {c : Context} (h : Built c) (i : Buffer × EncodeCall) :
    Ends Built (fun _ => True) (EncodeCall.step c i) :=
  (h.encode i.1 i.2).bind fun _ hx => hx

theorem built_create (M : Malloc) {n : Nat} (h1 : 1 ≤ n) (h2 : n ≤ 63) : Built (Context.create M n) :=
  ⟨∅, [], _, ((create_ready M h1 h2).mono fun _ h => h ▸ ⟨rfl, rfl⟩).drafted rfl,
    fun _ h => (List.not_mem_nil h).elim, rfl⟩

theorem built_run (M : Malloc) {n : Nat} (h1 : 1 ≤ n) (h2 : n ≤ 63) (calls : List (Buffer × EncodeCall)) :
    Ends Built (fun _ => True) (run EncodeCall.step (Context.create M n) calls) :=
  run_ends (c := fun _ _ => True) (fun _ i hc _ => Built.step hc i) calls _ (built_create M h1 h2)
    (.true _ _)

theorem Built.allOrNothing_iff {c : Context} (h : Built c) (b : Buffer) (l : Leaf) :
    l.AllOrNothing c b ↔ l.Works c b := by
  obtain ⟨live, ids, d, hd, hs⟩ := h
  exact hd.allOrNothing_iff hs.firsts b l

/-- In every context that calls of the encoder can lead to, and at every buffer, a call for a single
value writes all of it or nothing exactly when it works. -/
theorem encode_all_or_nothing_iff (M : Malloc) (n : Nat) (h1 : 1 ≤ n) (h2 : n ≤ 63)
    (calls : List (Buffer × EncodeCall)) :
    Ends (fun c => ∀ (b : Buffer) (l : Leaf), l.AllOrNothing c b ↔ l.Works c b) (fun _ => True)
      (run EncodeCall.step (Context.create M n) calls) :=
  (built_run M h1 h2 calls).mono (fun _ hc b l => hc.allOrNothing_iff b l) fun _ h => h

/-- A buffer of one block with `n` bytes in it. -/
def oneBlock (n : Nat) : Buffer :=
  { Buffer.received [] with capacity := 4096, size := n, capacity_le := by decide }

/-- A described type with its two members. -/
def describedNulls : List (Buffer × EncodeCall) :=
  [(oneBlock 0, .start .described), (oneBlock 1, .leaf (.scalar .null)),
    (oneBlock 2, .leaf (.scalar .null))]

theorem encode_all_or_nothing_iff_described :
    Ends (fun c => ∀ (b : Buffer) (l : Leaf), l.AllOrNothing c b ↔ l.Works c b) (fun _ => True)
      (run EncodeCall.step (Context.create Malloc.bump 21) describedNulls) :=
  encode_all_or_nothing_iff Malloc.bump 21 (by decide) (by decide) describedNulls

theorem describedNulls_full : Ends (fun c : Context => c.describedFull = true ∧
    (Leaf.scalar .null).fits c (oneBlock 3) = true) (fun _ => False)
    (run EncodeCall.step (Context.create Malloc.bump 21) describedNulls) := by
  decide +kernel

/-- A uuid that would fill the buffer up, a boolean without room, and a third member of a described
type. -/
theorem encode_neither_all_nor_nothing :
    ¬ Leaf.AllOrNothing (Context.create Malloc.bump 21) (oneBlock 4079)
      (.scalar (.uuid (.replicate 16 0))) ∧
    ¬ Leaf.AllOrNothing (Context.create Malloc.bump 21) (oneBlock 4096) (.scalar (.boolean true)) ∧
    Ends (fun c => ¬ Leaf.AllOrNothing c (oneBlock 3) (.scalar .null)) (fun _ => False)
      (run EncodeCall.step (Context.create Malloc.bump 21) describedNulls) := by
  have hc := built_create Malloc.bump (n := 21) (by decide) (by decide)
  refine ⟨?_, ?_, ?_⟩
  · rw [hc.allOrNothing_iff]
    decide +kernel
  · rw [hc.allOrNothing_iff]
    decide +kernel
  · have hbuilt := built_run Malloc.bump (n := 21) (by decide) (by decide) describedNulls
    have hfull := describedNulls_full
    generalize run EncodeCall.step (Context.create Malloc.bump 21) describedNulls = r at hbuilt hfull ⊢
    cases r with
    | error e => exact hfull
    | ok c =>
      obtain ⟨hdesc, hfits⟩ := hfull
      intro hall
      have hworks := (Built.allOrNothing_iff hbuilt _ _).1 hall
      rw [Leaf.Works, hfits, if_pos rfl, hdesc] at hworks
      cases hworks.1

end

end Amqp
