import LibAmqp.Codec.Proof.Calls
import Mathlib.Data.List.ReduceOption

/-!
# The memory that encoder calls take

`Made base live c made stack`: since the context `base`, with the types `live` in use, the encoder made
the types `made`, and the containers `stack` are still open. No element array is without an owner, and
nothing that was in use before is written.

* `Made.modify`, `Made.allocateType`, `Made.resize`: the ways in which the calls change a context.
* `Made.leaf`, `Made.start`, `Made.complete`: the calls.
* `CallTree.encode_made`: calls that match.
-/

namespace Amqp

open Lib Memory

/-- The open containers, the innermost first: each saves the next one. -/
def Nested (c : Context) (made : Finset Slot) : Option Slot → List Slot → Prop
  | top, [] => top = none
  | top, s :: rest => top = some s ∧ s ∈ made ∧
      ∃ t, c.types.load s = some t ∧ Nested c made t.savedContainer rest

structure Made (base : Context) (live : Finset Slot) (c : Context) (made : Finset Slot)
    (stack : List Slot) : Prop where
  ready : Ready AmqpType.Blank c (live ∪ made)
  apart : Disjoint live made
  load : ∀ s ∈ live, c.types.load s = base.types.load s
  kept : ∀ a ∈ base.arrays.dom, c.arrays.get a = base.arrays.get a
  owned : ∀ a ∈ c.arrays.dom, a ∈ base.arrays.dom ∨
    ∃ s ∈ made, ∃ t, c.types.load s = some t ∧ t.value.elements = a
  new : ∀ s ∈ made, ∀ t, c.types.load s = some t → t.value.elements ∉ base.arrays.dom
  released : c.released = base.released
  freed : c.freed = base.freed
  malloc : c.malloc = base.malloc
  usage : c.continueOnUsageError = base.continueOnUsageError
  nodup : stack.Nodup
  nested : Nested c made c.container stack

/-- A change to a type that keeps its element array and the container that it saves. -/
def Quiet (f : AmqpType → AmqpType) : Prop :=
  ∀ t, (f t).value.elements = t.value.elements ∧ (f t).savedContainer = t.savedContainer

section
variable {base c c' : Context} {live made made' : Finset Slot} {stack : List Slot} {s x : Slot}
  {t : AmqpType} {b : Buffer} {f : AmqpType → AmqpType} {held : Finset Slot} {ids : List Slot} {d : Draft}

/-- What holds of the result of a call that returns. -/
abbrev Yields {α : Type} (p : α → Prop) (r : Except Fault α) : Prop := Ends p (fun _ => True) r

/-- Whatever a step returns. -/
theorem Yields.any {α β : Type} {p : β → Prop} {r : Except Fault α} {f : α → Except Fault β}
    (h : ∀ a, Yields p (f a)) : Yields p (r >>= f) := by
  cases r with
  | ok a => exact h a
  | error e => trivial

theorem Nested.congr (hmade : made ⊆ made') : ∀ {stack : List Slot} {top : Option Slot},
    (∀ s ∈ stack, ∀ t, c.types.load s = some t →
      ∃ t', c'.types.load s = some t' ∧ t'.savedContainer = t.savedContainer) →
    Nested c made top stack → Nested c' made' top stack
  | [], _, _, h => h
  | s :: rest, _, hload, ⟨htop, hs, t, ht, hrest⟩ => by
    obtain ⟨t', ht', hsaved⟩ := hload s (.head _) t ht
    refine ⟨htop, hmade hs, t', ht', ?_⟩
    rw [hsaved]
    exact hrest.congr hmade fun x hx => hload x (.tail _ hx)

theorem Nested.mem : ∀ {stack : List Slot} {top : Option Slot}, Nested c made top stack →
    ∀ s ∈ stack, s ∈ made
  | [], _, _, s, hs => by cases hs
  | s :: rest, _, ⟨_, hs, _, _, hrest⟩, x, hx => by
    rcases List.mem_cons.1 hx with rfl | hx
    · exact hs
    · exact hrest.mem x hx

theorem Made.refl (hr : Ready AmqpType.Blank c live) (hc : c.container = none) :
    Made c live c ∅ [] where
  ready := by simpa using hr
  apart := Finset.disjoint_empty_right _
  load _ _ := rfl
  kept _ _ := rfl
  owned _ ha := .inl ha
  new _ hs := by simp at hs
  released := rfl
  freed := rfl
  malloc := rfl
  usage := rfl
  nodup := .nil
  nested := hc

/-- The innermost container was made. -/
theorem Made.container_mem (h : Made base live c made stack) (hc : c.container = some s) : s ∈ made := by
  have hnested := h.nested
  rw [hc] at hnested
  cases stack with
  | nil => cases hnested
  | cons y rest =>
    obtain ⟨hy, hmem, -⟩ := hnested
    cases hy
    exact hmem

theorem Made.live_ne (h : Made base live c made stack) (hs : s ∈ made) (hx : x ∈ live) : x ≠ s := by
  rintro rfl
  exact Finset.disjoint_left.1 h.apart hx hs

theorem Made.store (h : Made base live c made stack) (hs : s ∈ made) (ht : c.types.load s = some t)
    {t' : AmqpType} (hel : t'.value.elements = t.value.elements)
    (hsaved : s ∈ stack → t'.savedContainer = t.savedContainer) :
    Made base live (c.store s t') made stack := by
  have hself : (c.store s t').types.load s = some t' := load_store_self ht
  have hother : ∀ x, x ≠ s → (c.store s t').types.load x = c.types.load x :=
    fun x hx => load_store_ne _ hx
  refine { h with
    ready := ⟨⟨h.ready.held.store (Finset.mem_union_right _ hs) t', h.ready.initializer⟩, h.ready.limit⟩
    load := fun x hx => (hother x (h.live_ne hs hx)).trans (h.load x hx)
    owned := fun a ha => (h.owned a ha).imp_right ?_
    new := ?_
    nested := h.nested.congr (Finset.Subset.refl _) ?_ }
  · rintro ⟨x, hx, tx, htx, hxa⟩
    by_cases hxs : x = s
    · subst hxs
      obtain rfl : t = tx := Option.some.inj (ht.symm.trans htx)
      exact ⟨x, hx, t', hself, hel.trans hxa⟩
    · exact ⟨x, hx, tx, (hother x hxs).trans htx, hxa⟩
  · intro x hx tx htx
    by_cases hxs : x = s
    · subst hxs
      obtain rfl : t' = tx := Option.some.inj (hself.symm.trans htx)
      rw [hel]
      exact h.new x hx t ht
    · exact h.new x hx tx ((hother x hxs).symm.trans htx)
  · intro x hx tx htx
    by_cases hxs : x = s
    · subst hxs
      obtain rfl : t = tx := Option.some.inj (ht.symm.trans htx)
      exact ⟨t', hself, hsaved hx⟩
    · exact ⟨tx, (hother x hxs).trans htx, rfl⟩

theorem Made.modify (h : Made base live c made stack) (hs : s ∈ made) (hf : Quiet f) :
    Yields (fun c' => Made base live c' made stack) (c.modify s f) := by
  obtain ⟨t, ht⟩ := h.ready.held.load (Finset.mem_union_right live hs)
  rw [Context.modify_ok f ht]
  exact h.store hs ht (hf t).1 fun _ => (hf t).2

theorem Made.modify_bind {α : Type} {p : α → Prop} {k : Context → Except Fault α}
    (h : Made base live c made stack) (hs : s ∈ made)
    (hk : ∀ c1, Made base live c1 made stack → Yields p (k c1)) (hf : Quiet f) :
    Yields p (c.modify s f >>= k) := (h.modify hs hf).bind hk

theorem Made.allocateType (h : Made base live c made stack) :
    Yields (fun y => y.1 ∉ made ∧ Made base live y.2 (insert y.1 made) stack) c.allocateType := by
  obtain ⟨s, c1, stale, hcall, hg, -, hblank, hload, harr⟩ := allocateType_spec h.ready
  have hfresh := hg.fresh s (.head _)
  rw [Finset.mem_union, not_or] at hfresh
  have hs : c1.types.load s = some stale.initializeAmqpType := by
    obtain ⟨t, ht⟩ := hg.load_new (.head _)
    rw [Context.load_ok ht] at hload
    rw [ht, Except.ok.inj hload]
  have hzero : stale.initializeAmqpType.value.elements = 0 := by
    show stale.value.elements = 0
    rw [hblank.1]
    rfl
  have hold : ∀ {x}, x ∈ made → c1.types.load x = c.types.load x :=
    fun hx => hg.load _ (Finset.mem_union_right _ hx)
  have hset : live ∪ made ∪ [s].toFinset = live ∪ insert s made := by
    ext x
    simp
  have hkeeps : c1.released = c.released ∧ c1.freed = c.freed ∧
      c1.continueOnUsageError = c.continueOnUsageError := by
    obtain ⟨types, -, rfl⟩ := Context.of_allocateType hcall
    exact ⟨rfl, rfl, rfl⟩
  rw [hcall]
  refine ⟨hfresh.2, ⟨⟨⟨hset ▸ hg.held, hg.initializer.trans h.ready.initializer⟩,
    hg.limit.trans h.ready.limit⟩, ?_, fun x hx => ?_,
    fun a ha => by rw [harr, h.kept a ha], fun a ha => ?_, fun x hx tx htx => ?_,
    hkeeps.1.trans h.released, hkeeps.2.1.trans h.freed, hg.malloc.trans h.malloc,
    hkeeps.2.2.trans h.usage, h.nodup, ?_⟩⟩
  · exact Finset.disjoint_insert_right.2 ⟨hfresh.1, h.apart⟩
  · rw [hg.load x (Finset.mem_union_left _ hx), h.load x hx]
  · rw [harr] at ha
    refine (h.owned a ha).imp_right ?_
    rintro ⟨x, hx, tx, htx, hxa⟩
    exact ⟨x, Finset.mem_insert_of_mem hx, tx, (hold hx).trans htx, hxa⟩
  · rcases Finset.mem_insert.1 hx with rfl | hx
    · obtain rfl := Option.some.inj (hs.symm.trans htx)
      rw [hzero]
      intro hdom
      obtain ⟨v, hv⟩ := Heap.mem_dom_iff.1 hdom
      simp at hv
    · exact h.new x hx tx ((hold hx).symm.trans htx)
  · rw [hg.container]
    refine h.nested.congr (Finset.subset_insert _ _) fun x hx tx htx => ?_
    exact ⟨tx, (hold (h.nested.mem x hx)).trans htx, rfl⟩

/-- Another element array for a type, when the memory has it in place of the old one. -/
theorem Made.regrow {H : Heap (List (Option Slot))} {a : Nat} (h : Made base live c made stack)
    (hs : s ∈ made) (ht : c.types.load s = some t)
    (hkept : ∀ y ∈ base.arrays.dom, H.get y = base.arrays.get y) (hnew : a ∉ base.arrays.dom)
    (hdom : ∀ y ∈ H.dom, y = a ∨ y ∈ c.arrays.dom ∧ y ≠ t.value.elements) :
    Made base live { c.store s { t with value := { t.value with elements := a } } with arrays := H } made
      stack := by
  generalize ht' : ({ t with value := { t.value with elements := a } } : AmqpType) = t'
  have hself : (c.store s t').types.load s = some t' := load_store_self ht
  have hel : t'.value.elements = a := by rw [← ht']
  have hother : ∀ x, x ≠ s → (c.store s t').types.load x = c.types.load x :=
    fun x hx => load_store_ne _ hx
  refine { h with
    ready := ⟨⟨h.ready.held.store (Finset.mem_union_right _ hs) t', h.ready.initializer⟩, h.ready.limit⟩
    load := fun x hx => (hother x (h.live_ne hs hx)).trans (h.load x hx)
    kept := hkept
    owned := fun y hy => ?_
    new := fun x hx tx htx => ?_
    nested := h.nested.congr (Finset.Subset.refl _) fun x _ tx htx => ?_ }
  · rcases hdom y hy with rfl | ⟨hy, hne⟩
    · exact .inr ⟨s, hs, t', hself, hel⟩
    · refine (h.owned y hy).imp_right ?_
      rintro ⟨x, hx, tx, htx, rfl⟩
      have hxs : x ≠ s := by
        rintro rfl
        exact hne (congrArg (·.value.elements) (Option.some.inj (htx.symm.trans ht)))
      exact ⟨x, hx, tx, (hother x hxs).trans htx, rfl⟩
  · by_cases hxs : x = s
    · subst hxs
      obtain rfl : t' = tx := Option.some.inj (hself.symm.trans htx)
      rwa [hel]
    · exact h.new x hx tx ((hother x hxs).symm.trans htx)
  · by_cases hxs : x = s
    · subst hxs
      obtain rfl : t = tx := Option.some.inj (ht.symm.trans htx)
      exact ⟨t', hself, by rw [← ht']⟩
    · exact ⟨tx, (hother x hxs).trans htx, rfl⟩

/-- `allocate_elements`, for a type that was made: a block of its own, and the old one if there was one is
given back. -/
theorem Made.allocateElements (h : Made base live c made stack) (hs : s ∈ made)
    (ht : c.types.load s = some t) (count : Nat) :
    Yields (fun y => ∃ H, y.2 = { c with arrays := H } ∧
      (∀ x ∈ base.arrays.dom, H.get x = base.arrays.get x) ∧ y.1 ∉ base.arrays.dom ∧
      ∀ x ∈ H.dom, x = y.1 ∨ x ∈ c.arrays.dom ∧ x ≠ t.value.elements)
      (allocateElements c t.value.elements count) := by
  have hnew := h.new s hs t ht
  -- a new block is none of those from before
  have hfresh : ∀ (H : Heap (List (Option Slot))) (v : List (Option Slot)),
      (∀ x ∈ base.arrays.dom, H.get x = base.arrays.get x) → c.malloc.pick H.dom ∉ base.arrays.dom ∧
        ∀ x ∈ base.arrays.dom, (H.malloc c.malloc v).2.get x = base.arrays.get x := by
    intro H v hkept
    have hpick : c.malloc.pick H.dom ∉ base.arrays.dom := by
      intro hdom
      obtain ⟨w, hw⟩ := Heap.mem_dom_iff.1 hdom
      have := hkept _ hdom
      rw [Heap.pick_not_mem, hw] at this
      cases this
    refine ⟨hpick, fun x hx => ?_⟩
    rw [Heap.get_malloc, if_neg, hkept x hx]
    rintro rfl
    exact hpick hx
  unfold Amqp.allocateElements
  split
  · rename_i hzero
    obtain ⟨hpick, hkept⟩ := hfresh c.arrays (List.replicate (Context.arrayLength 1) none) h.kept
    refine ⟨_, rfl, hkept, hpick, fun x hx => ?_⟩
    refine (List.mem_cons.1 hx).imp_right fun hx => ⟨hx, ?_⟩
    rintro rfl
    obtain ⟨w, hw⟩ := Heap.mem_dom_iff.1 hx
    rw [hzero] at hw
    simp at hw
  · unfold Context.reallocArray
    dsimp only
    split
    · cases hget : c.arrays.get t.value.elements with
      | none => trivial
      | some old =>
        have hfree : ∀ x ∈ base.arrays.dom,
            (c.arrays.free t.value.elements).get x = base.arrays.get x := by
          intro x hx
          rw [Heap.get_free, if_neg, h.kept x hx]
          rintro rfl
          exact hnew hx
        obtain ⟨hpick, hkept⟩ := hfresh _ (old.take ((count / 16 + 1) * 16) ++
          List.replicate ((count / 16 + 1) * 16 - old.length) none) hfree
        refine ⟨_, rfl, hkept, hpick, fun x hx => ?_⟩
        refine (List.mem_cons.1 hx).imp_right fun hx => ?_
        rw [Heap.dom_free, c.arrays.nodup.mem_erase_iff] at hx
        exact ⟨hx.2, hx.1⟩
    · refine ⟨c.arrays, rfl, h.kept, hnew, fun x hx => ?_⟩
      by_cases hxt : x = t.value.elements
      · exact .inl hxt
      · exact .inr ⟨hx, hxt⟩

/-- The last part of `amqp_add_element_to_container`. -/
theorem Made.resize (h : Made base live c made stack) (hs : s ∈ made) (x : Slot) (count : Nat) :
    Yields (fun c' => Made base live c' made stack) (do
      let (elements, c) ← Amqp.allocateElements c (← c.load s).value.elements (count + 1)
      let c ← c.modify s fun t => { t with value := { t.value with elements := elements } }
      c.setElement elements count x) := by
  obtain ⟨t, ht⟩ := h.ready.held.load (Finset.mem_union_right live hs)
  rw [Context.load_ok ht, Fault.ok_bind]
  refine (h.allocateElements hs ht (count + 1)).bind ?_
  rintro ⟨a, _⟩ ⟨H, rfl, hkept, hnew, hdom⟩
  dsimp only
  rw [Context.modify_ok _ (c := { c with arrays := H }) ht, Fault.ok_bind]
  unfold Context.setElement
  split
  · trivial
  · rename_i array _
    split
    · refine h.regrow (H := H.set a (array.set count (some x))) hs ht (fun y hy => ?_) hnew hdom
      rw [Heap.get_set_ne, hkept y hy]
      rintro rfl
      exact hnew hy
    · trivial

theorem Made.setMemberRole (h : Made base live c made stack) (hx : x ∈ made) (count : Nat) :
    Yields (fun c' => Made base live c' made stack) (setMemberRole c x count) := by
  unfold Amqp.setMemberRole
  split
  · exact h.modify hx fun _ => ⟨rfl, rfl⟩
  · exact h.modify hx fun _ => ⟨rfl, rfl⟩
  · trivial

theorem Made.addElement (h : Made base live c made stack) (hs : s ∈ made) (hx : x ∈ made) :
    Yields (fun c' => Made base live c' made stack) (addElementToContainer c s x) := by
  obtain ⟨t, ht⟩ := h.ready.held.load (Finset.mem_union_right live hs)
  unfold addElementToContainer
  rw [Context.load_ok ht, Fault.ok_bind]
  refine h.modify_bind hs (fun c1 h1 => ?_) fun _ => ⟨rfl, rfl⟩
  refine h1.modify_bind hx (fun c2 h2 => ?_) fun _ => ⟨rfl, rfl⟩
  obtain ⟨t2, ht2⟩ := h2.ready.held.load (Finset.mem_union_right live hs)
  rw [Context.load_ok ht2, Fault.ok_bind]
  dsimp only
  split
  · exact (h2.setMemberRole hx _).bind fun c3 h3 => h3.resize hs x _
  · exact h2.resize hs x _

/-! ## The calls -/

theorem Made.enterContainer {m : EncodingMetaData} (h : Made base live c made stack) (hs : s ∈ made)
    (hx : x ∈ made) :
    Yields (fun y => Made base live y.1 made stack) (enterContainer c b m s x) := by
  obtain ⟨t, ht⟩ := h.ready.held.load (Finset.mem_union_right live hs)
  have hadd : ∀ {c1 : Context} (b1 : Buffer), Made base live c1 made stack →
      Yields (fun y : Context × Buffer => Made base live y.1 made stack)
        (do .ok (← addElementToContainer c1 s x, b1)) :=
    fun _ h1 => (h1.addElement hs hx).bind fun c2 h2 => h2
  have hemit : ∀ {p : Context × Buffer → Prop} {k : Buffer → Except Fault (Context × Buffer)},
      (∀ b1, Yields p (k b1)) → Yields p (emitConstructor b m >>= k) :=
    fun hk => Yields.any hk
  unfold Amqp.enterContainer
  rw [Context.load_ok ht, Fault.ok_bind]
  split
  · exact hemit fun b1 => hadd b1 h
  split
  · exact hemit fun b1 => h.modify_bind hs (fun c1 h1 => hadd b1 h1) fun _ => ⟨rfl, rfl⟩
  split
  · trivial
  · rename_i first _
    refine Yields.any fun t1 => ?_
    refine Yields.any fun t2 => ?_
    split
    · exact hadd b h
    · refine h.modify_bind hx (fun c1 h1 => ?_) fun _ => ⟨rfl, rfl⟩
      exact h1.modify_bind hs (fun c2 h2 => hadd b h2) fun _ => ⟨rfl, rfl⟩

theorem Made.placeType {m : EncodingMetaData} {extra : TypedefFlags} (h : Made base live c made stack) :
    Yields (fun y => y.1 ∉ made ∧ Made base live y.2.1 (insert y.1 made) stack)
      (placeType c b extra m) := by
  unfold Amqp.placeType
  refine h.allocateType.bind ?_
  rintro ⟨s, c1⟩ ⟨hfresh, h1⟩
  refine h1.modify_bind (Finset.mem_insert_self s made) (fun c2 h2 => ?_) fun _ => ⟨rfl, rfl⟩
  cases hc : c.container with
  | none =>
    refine Yields.any fun b1 => ?_
    exact ⟨hfresh, h2⟩
  | some container =>
    have hin := h.container_mem hc
    refine (h2.enterContainer (Finset.mem_insert_of_mem hin) (Finset.mem_insert_self s made)).bind ?_
    rintro ⟨c3, b3⟩ h3
    exact ⟨hfresh, h3⟩

/-- The context with its containers, when the innermost one changes. -/
theorem Made.setContainer {rest : List Slot} {top : Option Slot} (h : Made base live c made stack)
    (hnodup : rest.Nodup) (hnested : Nested c made top rest) :
    Made base live { c with container := top } made rest := by
  refine { h with
    ready := ⟨⟨h.ready.held, h.ready.initializer⟩, h.ready.limit⟩
    nodup := hnodup
    nested := hnested.congr (Finset.Subset.refl _) ?_ }
  exact fun _ _ t ht => ⟨t, ht, rfl⟩

theorem Made.pushContainer (h : Made base live c made stack) (hs : s ∈ made) (hn : s ∉ stack) :
    Yields (fun c' => Made base live c' made (s :: stack)) (pushContainer c s) := by
  obtain ⟨t, ht⟩ := h.ready.held.load (Finset.mem_union_right live hs)
  unfold Amqp.pushContainer
  rw [Context.modify_ok _ ht, Fault.ok_bind]
  have h1 : Made base live
      (c.store s { t.typedefFlagsSet isIncomplete with savedContainer := c.container }) made stack :=
    h.store hs ht rfl fun hm => absurd hm hn
  exact h1.setContainer (List.nodup_cons.2 ⟨hn, h.nodup⟩) ⟨rfl, hs, _, load_store_self ht, h1.nested⟩

theorem Made.popContainer (h : Made base live c made stack) :
    Yields (fun y => ∃ rest, stack = y.1 :: rest ∧ Made base live y.2 made rest) (popContainer c) := by
  have hnested := h.nested
  unfold Amqp.popContainer
  cases stack with
  | nil =>
    rw [show c.container = none from hnested]
    trivial
  | cons s rest =>
    obtain ⟨hc, hs, t, ht, hrest⟩ := hnested
    have hnodup := List.nodup_cons.1 h.nodup
    rw [hc]
    dsimp only
    rw [Context.load_ok ht, Fault.ok_bind, Context.modify_ok _ ht, Fault.ok_bind]
    have h1 := h.setContainer hnodup.2 hrest
    exact ⟨rest, rfl, h1.store hs ht rfl fun hm => absurd hm hnodup.1⟩

/-- The kind of a type that was placed. -/
theorem placeType_kind {extra : TypedefFlags} {m : EncodingMetaData} (hd : Drafted c held ids d) :
    Yields (fun y => ∃ t, y.2.1.types.load y.1 = some t ∧
      t.typeIsContainer = ((m.typedefFlags ||| isEncoded ||| extra) &&& isContainerMask != 0#32))
      (placeType c b extra m) := by
  have hplace := (placeType_lockstep hd b extra m).and_right fun y hy =>
    Draft.place_new hy fun F hF => hd.stack_lt hF
  refine hplace.ends.mono ?_ fun _ _ => trivial
  rintro ⟨s, c1, b1⟩ ⟨⟨d1, b2⟩, -, ⟨live', h1, -⟩, r, hr, hflag⟩
  rw [← hd.length] at hr
  obtain ⟨t, ht, hag⟩ := h1.types ids.length s r (by simp) hr
  exact ⟨t, ht, (hag.test isContainerMask).trans (hflag.test isContainerMask (by decide))⟩

theorem Made.initializeLeaf {m : EncodingMetaData} (h : Made base live c made stack)
    (hd : Drafted c held ids d) (hm : m.typedefFlags &&& isContainerMask = 0#32) :
    Yields (fun y => Made base live y.2.1 (insert y.1 made) stack) (initializeType c b 0 m) := by
  unfold Amqp.initializeType
  refine (h.placeType.and (placeType_kind hd)).bind ?_
  rintro ⟨s, c1, b1⟩ ⟨⟨-, h1⟩, t, ht, hkind⟩
  have hplain : t.typeIsContainer = false := by
    rw [hkind, or_and_of_disjoint (by decide), or_and_of_disjoint (by decide), hm]
    rfl
  dsimp only at ht ⊢
  rw [Context.load_ok ht, Fault.ok_bind, hplain]
  exact h1

theorem Made.initializeContainer {m : EncodingMetaData} {extra : TypedefFlags}
    (h : Made base live c made stack) (hd : Drafted c held ids d)
    (hm : (m.typedefFlags ||| isEncoded ||| extra) &&& isContainerMask ≠ 0#32) :
    Yields (fun y => Made base live y.2.1 (insert y.1 made) (y.1 :: stack))
      (initializeType c b extra m) := by
  unfold Amqp.initializeType
  refine (h.placeType.and (placeType_kind hd)).bind ?_
  rintro ⟨s, c1, b1⟩ ⟨⟨hfresh, h1⟩, t, ht, hkind⟩
  dsimp only at h1 ht ⊢
  rw [Context.load_ok ht, Fault.ok_bind, hkind, if_pos (bne_iff_ne.2 hm)]
  exact (h1.pushContainer (Finset.mem_insert_self s made) fun hs => hfresh (h.nested.mem s hs)).bind
    fun c2 h2 => h2

/-! ## The calls -/

/-- What is made of a call's result: the type it returns is made, if there is one. -/
def MadeBy (base : Context) (live made : Finset Slot) (stack : List Slot)
    (y : Option Slot × Context × Buffer) : Prop :=
  Made base live y.2.1 (made ∪ y.1.toList.toFinset) stack

theorem MadeBy.refused (h : Made base live c made stack) : MadeBy base live made stack (none, c, b) := by
  simpa [MadeBy] using h

theorem MadeBy.intro (h : Made base live c (insert s made) stack) :
    MadeBy base live made stack (some s, c, b) := by
  have hset : insert s made = made ∪ (some s).toList.toFinset := by
    ext x
    simp
  rw [MadeBy]
  exact hset ▸ h

theorem Made.encodeFixed {m : EncodingMetaData} (h : Made base live c made stack)
    (hd : Drafted c held ids d) (hm : m.typedefFlags &&& isContainerMask = 0#32) :
    Yields (MadeBy base live made stack) (amqpEncodeFixed c b m) := by
  unfold amqpEncodeFixed
  split
  · exact .refused h
  · refine (h.initializeLeaf hd hm).bind ?_
    rintro ⟨s, c1, b1⟩ h1
    exact Made.modify_bind h1 (Finset.mem_insert_self s made) (fun c2 h2 => .intro h2)
      fun _ => ⟨rfl, rfl⟩

theorem Made.thenWrite {r : Encoding} (h : Yields (MadeBy base live made stack) r)
    (write : Buffer → Except Fault Buffer) :
    Yields (MadeBy base live made stack) (thenWrite r write) := by
  refine Ends.bind h ?_
  rintro ⟨p, c1, b1⟩ h1
  cases p with
  | none => exact h1
  | some s => exact Yields.any fun b2 => h1

theorem Made.encodeSimpleVariable {m : EncodingMetaData} {value : List UInt8}
    (h : Made base live c made stack) (hd : Drafted c held ids d)
    (hm : m.typedefFlags &&& isContainerMask = 0#32) :
    Yields (MadeBy base live made stack) (amqpEncodeSimpleVariable c b m value) := by
  unfold amqpEncodeSimpleVariable
  split
  · exact .refused h
  · refine (h.initializeLeaf hd hm).bind ?_
    rintro ⟨s, c1, b1⟩ h1
    have hs := Finset.mem_insert_self s made
    refine Made.modify_bind h1 hs (fun c2 h2 => ?_) fun _ => ⟨rfl, rfl⟩
    refine Yields.any fun b2 => ?_
    refine h2.modify_bind hs (fun c3 h3 => ?_) fun _ => ⟨rfl, rfl⟩
    exact Yields.any fun b3 => .intro h3

/-- The value that is set after the call changes no memory. -/
theorem Made.setValue (value : BitVec 32) {r : Encoding} (hr : Yields (MadeBy base live made stack) r) :
    Yields (MadeBy base live made stack) (r >>= fun (result, c, b) => match result with
      | none => .error .wildPointer
      | some type => do
        let c ← c.modify type fun t => { t with value := t.value.setLow 1 (value.toNat % 256) }
        .ok (some type, c, b)) := by
  refine Ends.bind hr ?_
  rintro ⟨p, c1, b1⟩ h1
  cases p with
  | none => trivial
  | some s => exact Made.modify_bind h1 (by simp) (fun c2 h2 => h2) fun _ => ⟨rfl, rfl⟩

theorem Made.encodeBoolean (h : Made base live c made stack) (hd : Drafted c held ids d)
    (value : BitVec 32) : Yields (MadeBy base live made stack) (amqpEncodeBoolean c b value) := by
  unfold amqpEncodeBoolean
  refine Yields.any fun a => ?_
  cases a with
  | true => exact Made.setValue value (Made.thenWrite (h.encodeFixed hd (by decide)) _)
  | false =>
    refine Made.setValue value (h.encodeFixed hd ?_)
    split <;> decide

theorem Made.number {n value : Nat} {m : EncodingMetaData} (h : Made base live c made stack)
    (hd : Drafted c held ids d) (hm : m.typedefFlags &&& isContainerMask = 0#32) :
    Yields (MadeBy base live made stack) (amqpEncodeFixedBytes n c b m value) :=
  Made.thenWrite (h.encodeFixed hd hm) _

theorem Made.scalar (h : Made base live c made stack) (hd : Drafted c held ids d) (v : Scalar) :
    Yields (MadeBy base live made stack) (v.encode c b) := by
  cases v with
  | null => exact h.encodeFixed hd (by decide)
  | boolean v => exact h.encodeBoolean hd _
  | ubyte v | byte v | ushort v | short v | timestamp v | float v | double v =>
    exact h.number hd (by decide)
  | uint v =>
    simp only [Scalar.encode, amqpEncodeUint]
    split
    · exact h.encodeFixed hd (by decide)
    split
    · exact h.number hd (by decide)
    · exact h.number hd (by decide)
  | ulong v =>
    simp only [Scalar.encode, amqpEncodeUlong]
    split
    · exact h.encodeFixed hd (by decide)
    split
    · exact h.number hd (by decide)
    · exact h.number hd (by decide)
  | int v =>
    simp only [Scalar.encode, amqpEncodeInt]
    split
    · exact h.number hd (by decide)
    · exact h.number hd (by decide)
  | long v =>
    simp only [Scalar.encode, amqpEncodeLong]
    split
    · exact h.number hd (by decide)
    · exact h.number hd (by decide)
  | uuid v => exact Made.thenWrite (h.encodeFixed hd (by decide)) _
  | binary v =>
    simp only [Scalar.encode, amqpEncodeBinary]
    split <;> exact h.encodeSimpleVariable hd (by decide)
  | string v =>
    simp only [Scalar.encode, amqpEncodeString]
    split <;> exact h.encodeSimpleVariable hd (by decide)
  | symbol v =>
    simp only [Scalar.encode, amqpEncodeSymbol]
    split <;> exact h.encodeSimpleVariable hd (by decide)

theorem Made.leaf (h : Made base live c made stack) (hd : Drafted c held ids d) (l : Leaf) :
    Yields (MadeBy base live made stack) (l.encode c b) := by
  cases l with
  | scalar v => exact h.scalar hd v
  | uint0 | ulong0 => exact h.encodeFixed hd (by decide)
  | smallUint v | smallInt v | smallUlong v | smallLong v => exact h.number hd (by decide)
  | binaryVbin8 v | binaryVbin32 v | symbolSym8 v | symbolSym32 v =>
    exact h.encodeSimpleVariable hd (by decide)

theorem Made.reserveFields {width : Nat} (h : Made base live c made stack) (hs : s ∈ made) :
    Yields (fun y => Made base live y.1 made stack) (reserveFields c b s width) := by
  unfold Amqp.reserveFields
  split
  · exact h.modify_bind hs (fun c1 h1 => h1) fun _ => ⟨rfl, rfl⟩
  · refine Yields.any fun b1 => ?_
    refine h.modify_bind hs (fun c1 h1 => ?_) fun _ => ⟨rfl, rfl⟩
    exact Yields.any fun _ => h1
  · refine Yields.any fun b1 => ?_
    refine h.modify_bind hs (fun c1 h1 => ?_) fun _ => ⟨rfl, rfl⟩
    exact Yields.any fun _ => h1
  · trivial

/-- A container is made and opened. -/
theorem Made.start {k : Former} (h : Made base live c made stack) (hd : Drafted c held ids d) :
    Yields (fun y => ∃ s, y.1 = some s ∧ Made base live y.2.1 (made ∪ [s].toFinset) (s :: stack))
      (k.start c b) := by
  have hcompound : ∀ {m : EncodingMetaData} {extra : TypedefFlags},
      (m.typedefFlags ||| isEncoded ||| extra) &&& isContainerMask ≠ 0#32 →
      Yields (fun y => ∃ s, y.1 = some s ∧ Made base live y.2.1 (made ∪ [s].toFinset) (s :: stack))
        (encodeCompoundType c b extra m) := by
    intro m extra hm
    unfold encodeCompoundType
    split
    · trivial
    · refine (h.initializeContainer hd hm).bind ?_
      rintro ⟨s, c1, b1⟩ h1
      refine (Made.reserveFields h1 (Finset.mem_insert_self s made)).bind ?_
      rintro ⟨c2, b2⟩ h2
      refine ⟨s, rfl, ?_⟩
      have hset : insert s made = made ∪ [s].toFinset := by
        ext x
        simp
      exact hset ▸ h2
  cases k <;> exact hcompound (by decide)

theorem Made.completeContainerType (h : Made base live c made stack) (hs : s ∈ made) :
    Yields (fun y => Made base live y.2.1 made stack) (completeContainerType c b s) := by
  unfold Amqp.completeContainerType
  refine h.modify_bind hs (fun c1 h1 => ?_) fun _ => ⟨rfl, rfl⟩
  refine Yields.any fun t => ?_
  split
  · trivial
  · rename_i m _
    split
    · split
      · refine h1.modify_bind hs (fun c2 h2 => ?_) fun _ => ⟨rfl, rfl⟩
        split
        · trivial
        · rename_i hc
          exact h2.modify_bind (h2.container_mem hc) (fun c3 h3 => h3) fun _ => ⟨rfl, rfl⟩
      · exact h1
    · exact Yields.any fun _ => h1

theorem Made.completeEmptyList (h : Made base live c made stack) (hs : s ∈ made) :
    Yields (fun y => Made base live y.2.1 made stack) (completeEmptyList c b s) := by
  unfold Amqp.completeEmptyList
  refine Yields.any fun t => ?_
  split
  · trivial
  · rename_i old _
    refine Yields.any fun b1 => ?_
    refine Yields.any fun b2 => ?_
    exact h.modify_bind hs (fun c1 h1 => h1) fun _ => ⟨rfl, rfl⟩

/-- The innermost container is completed. -/
theorem Made.complete (h : Made base live c made (s :: stack)) {type : Option Slot}
    (htype : ∀ x, type = some x → x ∈ made) :
    Yields (fun y => Made base live y.2.1 made stack) (amqpCompleteType c b type) := by
  unfold amqpCompleteType
  refine h.popContainer.bind ?_
  rintro ⟨top, c1⟩ ⟨rest, hstack, h1⟩
  obtain ⟨rfl, rfl⟩ := List.cons.inj hstack
  have hs : s ∈ made := h.nested.mem s (.head _)
  dsimp only
  split
  · split
    · trivial
    · cases type with
      | none => exact h1
      | some x =>
        refine h1.modify_bind (htype x rfl) (fun c2 h2 => ?_) fun _ => ⟨rfl, rfl⟩
        exact h2.modify_bind hs (fun c3 h3 => h3) fun _ => ⟨rfl, rfl⟩
  · refine Yields.any fun a => ?_
    refine Yields.any fun t => ?_
    split
    · exact h1.completeContainerType hs
    · exact h1.completeEmptyList hs

/-- Calls that match. -/
theorem CallTree.encode_made (cs : CallTree) : ∀ {c : Context} {made held : Finset Slot}
    {stack ids : List Slot} {d : Draft} {b : Buffer}, Made base live c made stack →
    Drafted c held ids d →
    Yields (fun y => Made base live y.2.1 (made ∪ y.1.reduceOption.toFinset) stack) (cs.encode c b) := by
  induction cs with
  | nil =>
    intro c made held stack ids d b h hd
    show Made base live c (made ∪ ([] : List (Option Slot)).reduceOption.toFinset) stack
    simpa using h
  | leaf l rest ih =>
    intro c made held stack ids d b h hd
    refine ((h.leaf hd l).and (l.encode_lockstep hd).ends).bind ?_
    rintro ⟨p, c1, b1⟩ ⟨h1, y, -, hf⟩
    obtain ⟨live1, ids1, hd1, -⟩ := hf.drafted
    refine (ih h1 hd1).bind ?_
    rintro ⟨ps, c2, b2⟩ h2
    have hset : made ∪ p.toList.toFinset ∪ ps.reduceOption.toFinset =
        made ∪ (p :: ps).reduceOption.toFinset := by
      cases p <;> simp
    show Made base live c2 _ stack
    rwa [← hset]
  | container k elements rest ihe ihr =>
    intro c made held stack ids d b h hd
    refine ((h.start hd).and (k.start_lockstep hd).ends).bind ?_
    rintro ⟨_, c1, b1⟩ ⟨⟨s, rfl, h1⟩, ⟨q, d1, b1'⟩, -, hf⟩
    obtain ⟨live1, ids1, hd1, hpq, hq⟩ := hf.drafted
    refine ((ihe h1 hd1).and (elements.encode_lockstep hd1).ends).bind ?_
    rintro ⟨ps, c2, b2⟩ ⟨h2, ⟨qs, d2, b2'⟩, -, hf2⟩
    obtain ⟨live2, ids2, hd2, -⟩ := hf2.drafted
    have hq2 : ∀ i, q = some i → i < (ids ++ ids1 ++ ids2).length := by
      intro i hi
      rw [List.length_append]
      exact Nat.lt_add_right _ (hq i hi)
    have hpq2 : some s = q.bind ((ids ++ ids1 ++ ids2)[·]?) := hpq.trans (bind_append hq).symm
    have hs : ∀ x, some s = some x → x ∈ made ∪ [s].toFinset ∪ ps.reduceOption.toFinset := by
      rintro x ⟨⟩
      simp
    have hcomplete := h2.complete (b := b2) hs
    refine (hcomplete.and (amqpCompleteType_lockstep hd2 hpq2 hq2).ends).bind ?_
    rintro ⟨p3, c3, b3⟩ ⟨h3, y3, -, hf3⟩
    obtain ⟨live3, ids3, hd3, -⟩ := hf3.drafted
    refine (ihr h3 hd3).bind ?_
    rintro ⟨ps4, c4, b4⟩ h4
    have hset : made ∪ [s].toFinset ∪ ps.reduceOption.toFinset ∪ ps4.reduceOption.toFinset =
        made ∪ (some s :: (ps ++ ps4)).reduceOption.toFinset := by
      rw [List.reduceOption_cons_of_some, List.reduceOption_append]
      ext x
      simp
    show Made base live c4 _ stack
    rwa [← hset]

end
end Amqp
