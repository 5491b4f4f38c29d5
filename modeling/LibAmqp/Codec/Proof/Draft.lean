import LibAmqp.Codec.Draft
import LibAmqp.Codec.Proof.Held
import LibAmqp.Lib.Lockstep

/-!
# The encoder and its draft

`Drafted c live ids d`: the context holds the types of the draft `d`, type `i` in the slot `ids[i]`, and
its free slots are blank. The steps of the encoder lead from a context and its draft to a context and
its draft.

* `Drafted.update`: a change to one type.
* `Drafted.make`: a new type.
* `addElement_lockstep`: a new element of a container.
* `placeType_lockstep`: a new type where it belongs, up to `push_container`.
-/

namespace Amqp

open Lib Memory

/-- A type and its draft. -/
structure Agrees (arrays : Heap (List (Option Slot))) (ids : List Slot) (r : DraftType)
    (t : AmqpType) : Prop where
  metaData : t.constructor.metaData = some r.metaData
  flags : t.constructor.typedefFlags = r.flags
  code : t.constructor.formatCode = r.code
  cause : t.invalidCause = r.cause
  count : r.test isContainerMask = true → t.value.count = r.members.length
  first : t.value.constructor = r.first.bind (ids[·]?)
  firstMade : ∀ j, r.first = some j → j < ids.length
  membersMade : ∀ j ∈ r.members, j < ids.length
  noMembers : r.members = [] → t.value.elements = 0
  elements : r.members ≠ [] → ∃ l, arrays.get t.value.elements = some l ∧
    l.length = Context.arrayLength r.members.length ∧
    l.take r.members.length = r.members.map (ids[·]?)

/-- The open containers: from the innermost one on, each saves the next. -/
def Linked (c : Context) (ids : List Slot) : Option Slot → List Frame → Prop
  | top, [] => top = none
  | top, F :: rest => ∃ s t, top = some s ∧ ids[F.id]? = some s ∧ c.types.load s = some t ∧
      t.position.index = F.index ∧ Linked c ids t.savedContainer rest

/-- An open container can take elements, a described type at most two. -/
structure DraftType.Open (r : DraftType) : Prop where
  container : r.test isContainerMask = true
  described : r.metaData.width = 0 → r.test isComposite = true
  members : r.test isComposite = true → r.members.length ≤ 2

structure Drafted (c : Context) (live : Finset Slot) (ids : List Slot) (d : Draft) : Prop where
  ready : Ready AmqpType.Blank c live
  nodup : ids.Nodup
  live : ∀ s ∈ ids, s ∈ live
  length : ids.length = d.types.length
  types : ∀ (i : Nat) s r, ids[i]? = some s → d.types[i]? = some r →
    ∃ t, c.types.load s = some t ∧ Agrees c.arrays ids r t
  distinct : ∀ (i j : Nat) s s' t t', ids[i]? = some s → ids[j]? = some s' → c.types.load s = some t →
    c.types.load s' = some t' → t.value.elements = t'.value.elements → t.value.elements ≠ 0 → i = j
  linked : Linked c ids c.container d.stack
  opened : ∀ F ∈ d.stack, ∃ r, d.types[F.id]? = some r ∧ r.Open
  stackNodup : (d.stack.map Frame.id).Nodup
  usage : c.continueOnUsageError = d.continueOnUsageError

section
variable {c c' : Context} {live : Finset Slot} {ids : List Slot} {d : Draft} {i : Nat} {s : Slot}
  {r : DraftType} {t t' : AmqpType}

theorem Draft.modify_self {g : DraftType → DraftType} (h : d.types[i]? = some r) :
    (d.modify i g).types[i]? = some (g r) := by
  simp [Draft.modify, h]

theorem Draft.modify_ne {j : Nat} (g : DraftType → DraftType) (h : j ≠ i) :
    (d.modify i g).types[j]? = d.types[j]? := by
  simp [Draft.modify, h.symm]

theorem Linked.congr {frames : List Frame} {ids' : List Slot}
    (hids : ∀ F ∈ frames, ids'[F.id]? = ids[F.id]?)
    (hload : ∀ F ∈ frames, ∀ s t, ids[F.id]? = some s → c.types.load s = some t →
      ∃ t', c'.types.load s = some t' ∧ t'.position.index = t.position.index ∧
        t'.savedContainer = t.savedContainer) :
    ∀ {top : Option Slot}, Linked c ids top frames → Linked c' ids' top frames := by
  induction frames with
  | nil => exact fun h => h
  | cons F rest ih =>
    rintro top ⟨s, t, htop, hs, ht, hindex, hrest⟩
    obtain ⟨t', ht', hindex', hsaved⟩ := hload F (.head _) s t hs ht
    refine ⟨s, t', htop, by rw [hids F (.head _), hs], ht', hindex'.trans hindex, ?_⟩
    rw [hsaved]
    exact ih (fun G hG => hids G (.tail _ hG)) (fun G hG => hload G (.tail _ hG)) hrest

theorem Drafted.slot (h : Drafted c live ids d) (hr : d.types[i]? = some r) :
    ∃ s t, ids[i]? = some s ∧ c.types.load s = some t ∧ Agrees c.arrays ids r t := by
  have hi : i < ids.length := by
    rw [h.length]
    exact (List.getElem?_eq_some_iff.1 hr).1
  obtain ⟨t, ht, hag⟩ := h.types i ids[i] r (List.getElem?_eq_getElem hi) hr
  exact ⟨ids[i], t, List.getElem?_eq_getElem hi, ht, hag⟩

/-- Different types are in different slots. -/
theorem Drafted.slot_ne (h : Drafted c live ids d) {j : Nat} {s' : Slot} (hs : ids[i]? = some s)
    (hs' : ids[j]? = some s') (hij : j ≠ i) : s' ≠ s := by
  rintro rfl
  exact hij ((List.getElem?_inj (List.getElem?_eq_some_iff.1 hs').1 h.nodup).1 (hs'.trans hs.symm))

/-- A change to one type that keeps its element array and, in an open container, its place. -/
theorem Drafted.update (h : Drafted c live ids d) (t' : AmqpType) {g : DraftType → DraftType}
    (hs : ids[i]? = some s) (hr : d.types[i]? = some r) (ht : c.types.load s = some t)
    (hag : Agrees c.arrays ids (g r) t') (hel : t'.value.elements = t.value.elements)
    (hplace : ∀ F ∈ d.stack, F.id = i → t'.position.index = t.position.index ∧
      t'.savedContainer = t.savedContainer ∧ (g r).Open) :
    Drafted (c.store s t') live ids (d.modify i g) := by
  have hself : (c.store s t').types.load s = some t' := load_store_self ht
  have hother : ∀ {j : Nat} {x}, ids[j]? = some x → j ≠ i → (c.store s t').types.load x = c.types.load x :=
    fun hx hj => load_store_ne _ (h.slot_ne hs hx hj)
  refine ⟨⟨⟨h.ready.held.store (h.live s (List.mem_of_getElem? hs)) t', h.ready.initializer⟩, h.ready.limit⟩,
    h.nodup, h.live, ?_, ?_, ?_, ?_, ?_, h.stackNodup, h.usage⟩
  · rw [h.length, Draft.modify, List.length_modify]
  · intro j x r' hx hr'
    by_cases hj : j = i
    · subst hj
      obtain rfl : g r = r' := Option.some.inj ((Draft.modify_self hr).symm.trans hr')
      obtain rfl : s = x := Option.some.inj (hs.symm.trans hx)
      exact ⟨t', hself, hag⟩
    · rw [Draft.modify_ne g hj] at hr'
      obtain ⟨tx, htx, hagx⟩ := h.types j x r' hx hr'
      exact ⟨tx, by rw [hother hx hj, htx], hagx⟩
  · -- the element arrays are those from before
    have hold : ∀ {j : Nat} {x tx}, ids[j]? = some x → (c.store s t').types.load x = some tx →
        ∃ tx', c.types.load x = some tx' ∧ tx.value.elements = tx'.value.elements := by
      intro j x tx hx htx
      by_cases hj : j = i
      · subst hj
        obtain rfl : s = x := Option.some.inj (hs.symm.trans hx)
        rw [hself, Option.some.injEq] at htx
        exact ⟨t, ht, by rw [← htx, hel]⟩
      · exact ⟨tx, by rw [← hother hx hj, htx], rfl⟩
    intro j k x y tx ty hx hy htx hty heq hne
    obtain ⟨tx', htx', ex⟩ := hold hx htx
    obtain ⟨ty', hty', ey⟩ := hold hy hty
    exact h.distinct j k x y tx' ty' hx hy htx' hty' (by rw [← ex, ← ey, heq]) (ex ▸ hne)
  · refine h.linked.congr (fun _ _ => rfl) fun F hF x tx hx htx => ?_
    by_cases hj : F.id = i
    · obtain ⟨hp, hsv, -⟩ := hplace F hF hj
      rw [hj] at hx
      obtain rfl : s = x := Option.some.inj (hs.symm.trans hx)
      obtain rfl : t = tx := Option.some.inj (ht.symm.trans htx)
      exact ⟨t', hself, hp, hsv⟩
    · exact ⟨tx, by rw [hother hx hj, htx], rfl, rfl⟩
  · intro F hF
    obtain ⟨rF, hrF, hopen⟩ := h.opened F hF
    by_cases hj : F.id = i
    · exact ⟨g r, by rw [hj]; exact Draft.modify_self hr, (hplace F hF hj).2.2⟩
    · exact ⟨rF, by rw [Draft.modify_ne g hj, hrF], hopen⟩

theorem Context.modify_ok (f : AmqpType → AmqpType) (ht : c.types.load s = some t) :
    c.modify s f = .ok (c.store s (f t)) := by
  simp only [Context.modify, Context.load, ht, Fault.ok_bind]

theorem Context.load_ok (ht : c.types.load s = some t) : c.load s = .ok t := by
  simp only [Context.load, ht]

theorem allocateType_usage (h : c.allocateType = .ok (s, c')) :
    c'.continueOnUsageError = c.continueOnUsageError := by
  obtain ⟨types, -, rfl⟩ := Context.of_allocateType h
  rfl

theorem Agrees.extend {arrays : Heap (List (Option Slot))} (h : Agrees arrays ids r t) (s : Slot) :
    Agrees arrays (ids ++ [s]) r t := by
  have hget : ∀ j < ids.length, (ids ++ [s])[j]? = ids[j]? :=
    fun j hj => List.getElem?_append_left hj
  have hlen : ids.length ≤ (ids ++ [s]).length := by simp
  refine { h with
    first := ?_
    firstMade := fun j hj => Nat.lt_of_lt_of_le (h.firstMade j hj) hlen
    membersMade := fun j hj => Nat.lt_of_lt_of_le (h.membersMade j hj) hlen
    elements := fun hne => ?_ }
  · rw [h.first]
    cases hf : r.first with
    | none => rfl
    | some j => exact (hget j (h.firstMade j hf)).symm
  · obtain ⟨l, hl, hll, htake⟩ := h.elements hne
    refine ⟨l, hl, hll, htake.trans (List.map_congr_left fun j hj => ?_)⟩
    exact (hget j (h.membersMade j hj)).symm

/-- A new type, with its constructor. -/
theorem Drafted.make (h : Drafted c live ids d) (extra : TypedefFlags) (m : EncodingMetaData) :
    ∃ s c1 c2 live', c.allocateType = .ok (s, c1) ∧
      (c1.modify s fun t => { t with constructor := initializeConstructor extra m t.constructor }) =
        .ok c2 ∧
      c2.container = c.container ∧ Drafted c2 live' (ids ++ [s]) (d.make extra m) := by
  obtain ⟨s, c1, stale, hcall, hg, -, hblank, hload, harr⟩ := allocateType_spec h.ready
  have hs : c1.types.load s = some stale.initializeAmqpType := by
    obtain ⟨t, ht⟩ := hg.load_new (.head _)
    rw [Context.load_ok ht] at hload
    rw [ht, Except.ok.inj hload]
  refine ⟨s, c1, _, live ∪ [s].toFinset, hcall, Context.modify_ok _ hs, hg.container, ?_⟩
  generalize htn : ({ stale.initializeAmqpType with
    constructor := initializeConstructor extra m stale.initializeAmqpType.constructor } : AmqpType) = tn
  have hg2 := hg.store (.head _) tn
  have hself : (c1.store s tn).types.load s = some tn := load_store_self hs
  have hfresh : s ∉ ids := fun hmem => hg.fresh s (.head _) (h.live s hmem)
  have hother : ∀ {j : Nat} {x}, ids[j]? = some x →
      (c1.store s tn).types.load x = c.types.load x :=
    fun hx => hg2.load _ (h.live _ (List.mem_of_getElem? hx))
  have hsplit : ∀ {j : Nat} {x}, (ids ++ [s])[j]? = some x →
      (ids[j]? = some x) ∨ (j = ids.length ∧ x = s) := by
    intro j x hx
    rcases Nat.lt_trichotomy j ids.length with hj | rfl | hj
    · rw [List.getElem?_append_left hj] at hx
      exact .inl hx
    · simp at hx
      exact .inr ⟨rfl, hx.symm⟩
    · rw [List.getElem?_eq_none (by simp; omega)] at hx
      cases hx
  have hzero : tn.value.elements = 0 := by
    subst htn
    show stale.value.elements = 0
    rw [hblank.1]
    rfl
  have hst : ∀ F ∈ d.stack, F.id < ids.length := by
    intro F hF
    obtain ⟨r, hr, -⟩ := h.opened F hF
    rw [h.length]
    exact (List.getElem?_eq_some_iff.1 hr).1
  refine ⟨h.ready.grow hg2, ?_, ?_, ?_, ?_, ?_, ?_, ?_, h.stackNodup, ?_⟩
  · rw [List.nodup_append]
    refine ⟨h.nodup, List.nodup_singleton s, fun x hx y hy => ?_⟩
    rw [List.mem_singleton] at hy
    rintro rfl
    exact hfresh (hy ▸ hx)
  · intro x hx
    rcases List.mem_append.1 hx with hx | hx
    · exact Finset.mem_union_left _ (h.live x hx)
    · simp [List.mem_singleton.1 hx]
  · simp [Draft.make, h.length]
  · intro j x r hx hr
    rcases hsplit hx with hx | ⟨rfl, rfl⟩
    · have hj := (List.getElem?_eq_some_iff.1 hx).1
      rw [Draft.make, List.getElem?_append_left (h.length ▸ hj)] at hr
      obtain ⟨t, ht, hag⟩ := h.types j x r hx hr
      refine ⟨t, by rw [hother hx, ht], ?_⟩
      show Agrees c1.arrays _ _ _
      rw [harr]
      exact hag.extend s
    · rw [h.length, Draft.make] at hr
      simp only [List.getElem?_concat_length, Option.some.injEq] at hr
      subst hr
      refine ⟨tn, hself, ?_⟩
      subst htn
      have hv := hblank.1
      refine ⟨rfl, rfl, rfl, hblank.2, fun _ => ?_, ?_, ?_, ?_, fun _ => hzero, ?_⟩
      · show stale.value.word = 0
        rw [hv]
        rfl
      · show stale.value.constructor = none
        rw [hv]
        rfl
      · exact fun j hj => by cases hj
      · exact fun j hj => by cases hj
      · exact fun hne => absurd rfl hne
  · intro j k x y tx ty hx hy htx hty heq hne
    rcases hsplit hx with hx | ⟨rfl, rfl⟩
    · rcases hsplit hy with hy | ⟨rfl, rfl⟩
      · exact h.distinct j k x y tx ty hx hy (by rw [← hother hx, htx]) (by rw [← hother hy, hty])
          heq hne
      · rw [hself, Option.some.injEq] at hty
        rw [heq, ← hty] at hne
        exact absurd hzero hne
    · rw [hself, Option.some.injEq] at htx
      rw [← htx] at hne
      exact absurd hzero hne
  · show Linked _ _ c1.container d.stack
    rw [hg.container]
    refine h.linked.congr (fun F hF => List.getElem?_append_left (hst F hF)) fun F _ x tx hx htx => ?_
    exact ⟨tx, by rw [hother hx, htx], rfl, rfl⟩
  · intro F hF
    obtain ⟨r, hr, hopen⟩ := h.opened F hF
    refine ⟨r, ?_, hopen⟩
    rw [Draft.make, List.getElem?_append_left (h.length ▸ hst F hF)]
    exact hr
  · exact (allocateType_usage hcall).trans h.usage

/-! ## Elements -/

/-- Room for one more element: in a first array, in a larger one, or in the same. -/
theorem allocateElements_spec {elements count : Nat} {old : List (Option Slot)}
    (h : (elements = 0 ∧ count = 0 ∧ old = []) ∨ (elements ≠ 0 ∧ count ≠ 0 ∧
      c.arrays.get elements = some old ∧ old.length = Context.arrayLength count)) :
    ∃ a arrays l, allocateElements c elements (count + 1) = .ok (a, { c with arrays := arrays }) ∧
      a ≠ 0 ∧ arrays.get a = some l ∧ l.length = Context.arrayLength (count + 1) ∧
      l.take count = old.take count ∧
      ∀ x, x ≠ elements → x ∈ c.arrays.dom → x ≠ a ∧ arrays.get x = c.arrays.get x := by
  unfold allocateElements
  rcases h with ⟨rfl, rfl, rfl⟩ | ⟨hne, hcount, hget, hlen⟩
  · rw [if_pos rfl]
    refine ⟨_, _, _, rfl, c.malloc.ne_zero _, Heap.get_malloc_self _ _ _, by simp, by simp,
      fun x _ hx => ?_⟩
    have hxa : x ≠ c.malloc.pick c.arrays.dom := by
      rintro rfl
      exact c.malloc.fresh _ hx
    exact ⟨hxa, (Heap.get_malloc c.malloc c.arrays _ x).trans (if_neg hxa)⟩
  · rw [if_neg hne, Context.reallocArray]
    have hold : ((count + 1 - 1) / 16 + 1) * 16 = Context.arrayLength count := by
      simp [Context.arrayLength]
    simp only [hold]
    split
    · rename_i hgrow
      simp only [hget]
      refine ⟨_, _, _, rfl, c.malloc.ne_zero _, Heap.get_malloc_self _ _ _, ?_, ?_,
        fun x hx hxd => ?_⟩
      · simp only [Context.arrayLength] at hlen hgrow ⊢
        simp only [List.length_append, List.length_take, List.length_replicate]
        omega
      · have hle : count ≤ old.length := by
          rw [hlen, Context.arrayLength]
          omega
        have hle' : count ≤ ((count + 1) / 16 + 1) * 16 := by omega
        rw [List.take_append_of_le_length (by simp; omega), List.take_take, Nat.min_eq_left hle']
      · have hmem : x ∈ (c.arrays.free elements).dom := by
          rw [Heap.dom_free]
          exact (List.mem_erase_of_ne hx).2 hxd
        have hxa : x ≠ c.malloc.pick (c.arrays.free elements).dom := by
          rintro rfl
          exact c.malloc.fresh _ hmem
        refine ⟨hxa, ((Heap.get_malloc c.malloc (c.arrays.free elements) _ x).trans (if_neg hxa)).trans
          ?_⟩
        rw [Heap.get_free, if_neg hx]
    · rename_i hsame
      refine ⟨elements, c.arrays, old, rfl, hne, hget, ?_, rfl, fun x hx _ => ⟨hx, rfl⟩⟩
      simp only [Context.arrayLength] at hlen hsame ⊢
      omega

/-- A container with one more element, in an element array of its own. -/
theorem Drafted.grow {j k : Nat} {sj : Slot} {l : List (Option Slot)} {a : Nat}
    (h : Drafted c live ids d) (hs : ids[i]? = some s) (hr : d.types[i]? = some r)
    (ht : c.types.load s = some t) (hj : ids[j]? = some sj) (hk : k = r.members.length)
    (hcomp : r.test isComposite = true → k < 2) (ha : a ≠ 0)
    (hheld : Live AmqpType.Blank c'.types live)
    (hinit : c'.types.initializerCallback = c.types.initializerCallback) (hlimit : c'.limit = c.limit)
    (hself : c'.types.load s = some { t with
      value := { t.value with word := k + 1, elements := a } })
    (hother : ∀ {n : Nat} {x}, ids[n]? = some x → n ≠ i → c'.types.load x = c.types.load x)
    (hget : c'.arrays.get a = some l) (hlen : l.length = Context.arrayLength (k + 1))
    (htake : l.take (k + 1) = (r.members ++ [j]).map (ids[·]?))
    (harrays : ∀ x, x ≠ t.value.elements → x ∈ c.arrays.dom →
      x ≠ a ∧ c'.arrays.get x = c.arrays.get x)
    (hcon : c'.container = c.container) (husage : c'.continueOnUsageError = c.continueOnUsageError) :
    Drafted c' live ids (d.modify i fun r => { r with members := r.members ++ [j] }) := by
  have hag : Agrees c.arrays ids r t := by
    obtain ⟨t1, ht1, hag⟩ := h.types i s r hs hr
    obtain rfl : t = t1 := Option.some.inj (ht.symm.trans ht1)
    exact hag
  -- the array of another type is left alone
  have hkept : ∀ {n : Nat} {x tx}, ids[n]? = some x → n ≠ i → c.types.load x = some tx →
      tx.value.elements ∈ c.arrays.dom → tx.value.elements ≠ a ∧
        c'.arrays.get tx.value.elements = c.arrays.get tx.value.elements := by
    intro n x tx hx hn htx hdom
    refine harrays _ (fun heq => ?_) hdom
    have hne : tx.value.elements ≠ 0 := by
      intro h0
      rw [h0] at hdom
      obtain ⟨v, hv⟩ := Heap.mem_dom_iff.1 hdom
      simp at hv
    exact hn (h.distinct n i x s tx t hx hs htx ht heq hne)
  refine ⟨⟨⟨hheld, hinit.trans h.ready.initializer⟩, hlimit.trans h.ready.limit⟩, h.nodup, h.live, ?_, ?_,
    ?_, ?_, ?_, h.stackNodup, husage.trans h.usage⟩
  · rw [h.length, Draft.modify, List.length_modify]
  · intro n x rx hx hrx
    by_cases hn : n = i
    · subst hn
      obtain rfl := Option.some.inj ((Draft.modify_self hr).symm.trans hrx)
      obtain rfl : s = x := Option.some.inj (hs.symm.trans hx)
      refine ⟨_, hself, ⟨hag.metaData, hag.flags, hag.code, hag.cause, fun _ => ?_, hag.first,
        hag.firstMade, ?_, ?_, fun _ => ⟨l, hget, ?_, ?_⟩⟩⟩
      · simp [Value.count, hk]
      · intro q hq
        rcases List.mem_append.1 hq with hq | hq
        · exact hag.membersMade q hq
        · rw [List.mem_singleton.1 hq]
          exact (List.getElem?_eq_some_iff.1 hj).1
      · intro hnil
        simp at hnil
      · rw [hlen, hk]
        simp
      · rw [← htake, hk]
        simp
    · rw [Draft.modify_ne _ hn] at hrx
      obtain ⟨tx, htx, hagx⟩ := h.types n x rx hx hrx
      refine ⟨tx, by rw [hother hx hn, htx], { hagx with elements := fun hne => ?_ }⟩
      obtain ⟨lx, hlx, hrest⟩ := hagx.elements hne
      have hdom := Heap.mem_dom_iff.2 ⟨lx, hlx⟩
      exact ⟨lx, by rw [(hkept hx hn htx hdom).2, hlx], hrest⟩
  · -- no other type has the new array
    have hnew : ∀ {n : Nat} {x tx}, ids[n]? = some x → n ≠ i → c.types.load x = some tx →
        tx.value.elements ≠ a := by
      intro n x tx hx hn htx heq
      have hnlt : n < d.types.length := h.length ▸ (List.getElem?_eq_some_iff.1 hx).1
      obtain ⟨tx', htx', hagx⟩ := h.types n x _ hx (List.getElem?_eq_getElem hnlt)
      obtain rfl : tx = tx' := Option.some.inj (htx.symm.trans htx')
      by_cases hm : d.types[n].members = []
      · rw [hagx.noMembers hm] at heq
        exact ha heq.symm
      · obtain ⟨lx, hlx, -⟩ := hagx.elements hm
        exact (hkept hx hn htx (Heap.mem_dom_iff.2 ⟨lx, hlx⟩)).1 heq
    intro n n' x y tx ty hx hy htx hty heq hne
    by_cases hn : n = i <;> by_cases hn' : n' = i
    · exact hn.trans hn'.symm
    · subst hn
      obtain rfl : s = x := Option.some.inj (hs.symm.trans hx)
      rw [hself, Option.some.injEq] at htx
      rw [hother hy hn'] at hty
      exact absurd (by rw [← heq, ← htx]) (hnew hy hn' hty)
    · subst hn'
      obtain rfl : s = y := Option.some.inj (hs.symm.trans hy)
      rw [hself, Option.some.injEq] at hty
      rw [hother hx hn] at htx
      exact absurd (by rw [heq, ← hty]) (hnew hx hn htx)
    · rw [hother hx hn] at htx
      rw [hother hy hn'] at hty
      exact h.distinct n n' x y tx ty hx hy htx hty heq hne
  · rw [hcon]
    refine h.linked.congr (fun _ _ => rfl) fun F hF x tx hx htx => ?_
    by_cases hn : F.id = i
    · rw [hn] at hx
      obtain rfl : s = x := Option.some.inj (hs.symm.trans hx)
      obtain rfl : t = tx := Option.some.inj (ht.symm.trans htx)
      exact ⟨_, hself, rfl, rfl⟩
    · exact ⟨tx, by rw [hother hx hn, htx], rfl, rfl⟩
  · intro F hF
    obtain ⟨rF, hrF, hopen⟩ := h.opened F hF
    by_cases hn : F.id = i
    · rw [hn] at hrF ⊢
      obtain rfl : r = rF := Option.some.inj (hr.symm.trans hrF)
      refine ⟨_, Draft.modify_self hr, hopen.container, hopen.described, fun hc => ?_⟩
      have := hcomp hc
      simp only [List.length_append, List.length_singleton]
      omega
    · exact ⟨rF, by rw [Draft.modify_ne _ hn, hrF], hopen⟩

/-- A context that differs from another in one type. -/
structure Patched (c c' : Context) (live : Finset Slot) (s : Slot) (t' : AmqpType) : Prop where
  self : c'.types.load s = some t'
  other : ∀ x, x ≠ s → c'.types.load x = c.types.load x
  held : Live AmqpType.Blank c'.types live
  initializer : c'.types.initializerCallback = c.types.initializerCallback
  arrays : c'.arrays = c.arrays
  malloc : c'.malloc = c.malloc
  limit : c'.limit = c.limit
  container : c'.container = c.container
  usage : c'.continueOnUsageError = c.continueOnUsageError

theorem Patched.intro (h : Live AmqpType.Blank c.types live) (hs : s ∈ live)
    (ht : c.types.load s = some t) : Patched c (c.store s t') live s t' :=
  ⟨load_store_self ht, fun _ hx => load_store_ne _ hx, h.store hs t', rfl, rfl, rfl, rfl, rfl, rfl⟩

theorem Patched.store {x : Slot} {y : AmqpType} (h : Patched c c' live s t') (hx : x ≠ s)
    (hlive : x ∈ live) (hy : c.types.load x = some t) :
    Patched (c.store x y) (c'.store x y) live s t' where
  self := (load_store_ne y hx.symm).trans h.self
  other z hz := by
    by_cases hzx : z = x
    · subst hzx
      rw [show (c.store z y).types.load z = some y from load_store_self hy]
      exact load_store_self ((h.other z hx).trans hy)
    · rw [show (c.store x y).types.load z = c.types.load z from load_store_ne y hzx, ← h.other z hz]
      exact load_store_ne y hzx
  held := h.held.store hlive y
  initializer := h.initializer
  arrays := h.arrays
  malloc := h.malloc
  limit := h.limit
  container := h.container
  usage := h.usage

/-- The last part of `amqp_add_element_to_container`, once the count is set. -/
theorem Drafted.link {j : Nat} {sj : Slot} {c3 : Context} (h : Drafted c live ids d)
    (hs : ids[i]? = some s) (hr : d.types[i]? = some r) (ht : c.types.load s = some t)
    (hj : ids[j]? = some sj) (hcomp : r.test isComposite = true → r.members.length < 2)
    (hp : Patched c c3 live s { t with value := { t.value with word := r.members.length + 1 } }) :
    ∃ c', (do
      let (elements, c) ← allocateElements c3 (← c3.load s).value.elements (r.members.length + 1)
      let c ← c.modify s fun t => { t with value := { t.value with elements := elements } }
      c.setElement elements r.members.length sj) = .ok c' ∧
      Drafted c' live ids (d.modify i fun r => { r with members := r.members ++ [j] }) := by
  obtain ⟨t1, ht1, hag⟩ := h.types i s r hs hr
  obtain rfl : t = t1 := Option.some.inj (ht.symm.trans ht1)
  have hlive : s ∈ live := h.live s (List.mem_of_getElem? hs)
  -- the array so far
  obtain ⟨old, hold, htake⟩ : ∃ old, ((t.value.elements = 0 ∧ r.members.length = 0 ∧ old = []) ∨
      (t.value.elements ≠ 0 ∧ r.members.length ≠ 0 ∧ c3.arrays.get t.value.elements = some old ∧
        old.length = Context.arrayLength r.members.length)) ∧
      old.take r.members.length = r.members.map (ids[·]?) := by
    by_cases hm : r.members = []
    · exact ⟨[], .inl ⟨hag.noMembers hm, by simp [hm], rfl⟩, by simp [hm]⟩
    · obtain ⟨l, hl, hll, htk⟩ := hag.elements hm
      refine ⟨l, .inr ⟨fun h0 => ?_, by simpa using hm, by rw [hp.arrays, hl], hll⟩, htk⟩
      rw [h0] at hl
      simp at hl
  obtain ⟨a, arrays, l, hcall, ha, hget, hlen, hltake, harr⟩ := allocateElements_spec hold
  have hk : r.members.length < l.length := by
    rw [hlen, Context.arrayLength]
    omega
  rw [Context.load_ok hp.self, Fault.ok_bind]
  simp only [hcall, Fault.ok_bind]
  rw [Context.modify_ok _ (c := { c3 with arrays := arrays }) hp.self, Fault.ok_bind]
  refine ⟨_, by simp only [Context.setElement, Context.store, hget, if_pos hk]; rfl, ?_⟩
  refine h.grow (l := l.set r.members.length (some sj)) hs hr ht hj rfl hcomp ha
    (hp.held.store hlive _) hp.initializer hp.limit (load_store_self hp.self) ?_ ?_ ?_ ?_ ?_ hp.container
    hp.usage
  · intro n x hx hn
    have hxs := h.slot_ne hs hx hn
    exact (load_store_ne _ hxs).trans (hp.other x hxs)
  · exact Heap.get_set_self hget
  · rw [List.length_set, hlen]
  · rw [List.take_add_one, List.take_set_of_le (Nat.le_refl _), hltake, htake, List.map_append]
    simp [hk, hj]
  · intro x hx hdom
    obtain ⟨hxa, hxg⟩ := harr x hx (by rw [hp.arrays]; exact hdom)
    refine ⟨hxa, ?_⟩
    rw [← hp.arrays, ← hxg]
    exact Heap.get_set_ne _ hxa

theorem DraftType.test_setFlags {f mask : TypedefFlags} (r : DraftType) (h : f &&& mask = 0#32) :
    (r.setFlags f).test mask = r.test mask := by
  simp only [test, setFlags, or_and_of_disjoint h]

theorem Agrees.setFlags {arrays : Heap (List (Option Slot))} {f : TypedefFlags}
    (h : Agrees arrays ids r t) (hf : f &&& isContainerMask = 0#32) :
    Agrees arrays ids (r.setFlags f) (t.typedefFlagsSet f) :=
  { h with
    flags := by
      show t.constructor.typedefFlags ||| f = _
      rw [h.flags]
      rfl
    count := fun hc => h.count (by rw [← r.test_setFlags hf]; exact hc) }

theorem Agrees.test {arrays : Heap (List (Option Slot))} (h : Agrees arrays ids r t)
    (mask : TypedefFlags) : t.typedefFlagsTest mask = r.test mask := by
  rw [AmqpType.typedefFlagsTest, h.flags, DraftType.test]

/-- Flags for a type that is not open. -/
theorem Drafted.setFlags {f : TypedefFlags} (h : Drafted c live ids d) (hs : ids[i]? = some s)
    (hr : d.types[i]? = some r) (ht : c.types.load s = some t) (hi : ∀ F ∈ d.stack, F.id ≠ i)
    (hf : f &&& isContainerMask = 0#32) :
    Drafted (c.store s (t.typedefFlagsSet f)) live ids (d.modify i (·.setFlags f)) := by
  obtain ⟨t1, ht1, hag⟩ := h.types i s r hs hr
  obtain rfl : t = t1 := Option.some.inj (ht.symm.trans ht1)
  exact h.update _ hs hr ht (hag.setFlags hf) rfl fun F hF hFi => absurd hFi (hi F hF)

theorem addElement_lockstep {j : Nat} {sj : Slot} (h : Drafted c live ids d)
    (hs : ids[i]? = some s) (hr : d.types[i]? = some r) (hj : ids[j]? = some sj) (hij : j ≠ i)
    (hopen : r.Open) (hstack : ∀ F ∈ d.stack, F.id ≠ j) :
    Lockstep (fun c' d' => Drafted c' live ids d' ∧ d'.stack = d.stack)
      (addElementToContainer c s sj) (d.addElement i j) := by
  obtain ⟨t, ht, hag⟩ := h.types i s r hs hr
  have hjlt : j < d.types.length := h.length ▸ (List.getElem?_eq_some_iff.1 hj).1
  obtain ⟨tj, htj, -⟩ := h.types j sj _ hj (List.getElem?_eq_getElem hjlt)
  have hne : sj ≠ s := h.slot_ne hs hj hij
  have hlive := h.live s (List.mem_of_getElem? hs)
  have hlivej := h.live sj (List.mem_of_getElem? hj)
  have hcount : t.value.count = r.members.length := hag.count hopen.container
  have hload : d.load i = .ok r := by simp only [Draft.load, hr]
  unfold addElementToContainer Draft.addElement
  rw [Context.load_ok ht, Fault.ok_bind, hcount, hload, Fault.ok_bind]
  dsimp only
  rw [Context.modify_ok _ ht, Fault.ok_bind]
  have hp0 : Patched c (c.store s { t with value := { t.value with word := r.members.length + 1 } })
      live s { t with value := { t.value with word := r.members.length + 1 } } :=
    Patched.intro h.ready.held hlive ht
  rw [Context.modify_ok _ ((hp0.other sj hne).trans htj), Fault.ok_bind]
  have hp1 := hp0.store (y := tj.typedefFlagsSet isContained) hne hlivej htj
  have h1 := h.setFlags hj (List.getElem?_eq_getElem hjlt) htj hstack
    (show isContained &&& isContainerMask = 0#32 by decide)
  have hr1 : (d.modify j (·.setFlags isContained)).types[i]? = some r := by
    rw [Draft.modify_ne _ hij.symm, hr]
  have ht1 : (c.store sj (tj.typedefFlagsSet isContained)).types.load s = some t :=
    (load_store_ne _ hne.symm).trans ht
  have hcomposite : (({ t with value := { t.value with word := r.members.length + 1 } } :
      AmqpType)).typeIsComposite = r.test isComposite := hag.test isComposite
  rw [Context.load_ok hp1.self, Fault.ok_bind, hcomposite]
  by_cases hc : r.test isComposite = true
  · rw [if_pos hc, if_pos hc]
    have htj1 : (c.store sj (tj.typedefFlagsSet isContained)).types.load sj =
      some (tj.typedefFlagsSet isContained) := load_store_self htj
    by_cases hlt : r.members.length < 2
    · -- the second flag is set like the first
      obtain ⟨f, hf, e1, e2⟩ : ∃ f : TypedefFlags, f &&& isContainerMask = 0#32 ∧
          (∀ c, setMemberRole c sj r.members.length = c.modify sj (·.typedefFlagsSet f)) ∧
          ∀ d : Draft, d.memberRole j r.members.length = .ok (d.modify j (·.setFlags f)) := by
        rcases (by omega : r.members.length = 0 ∨ r.members.length = 1) with hlen | hlen
        · exact ⟨isDescriptor, by decide, fun c => by rw [hlen]; rfl, fun d => by rw [hlen]; rfl⟩
        · exact ⟨isDescribed, by decide, fun c => by rw [hlen]; rfl, fun d => by rw [hlen]; rfl⟩
      rw [e1, e2, Context.modify_ok _ ((hp1.other sj hne).trans htj1), Fault.ok_bind, Fault.ok_bind]
      have h2 := h1.setFlags hj (Draft.modify_self (List.getElem?_eq_getElem hjlt)) htj1 hstack hf
      obtain ⟨c', hcall, hd⟩ := h2.link hs (by rw [Draft.modify_ne _ hij.symm, hr1])
        ((load_store_ne _ hne.symm).trans ht1) hj (fun _ => hlt) (hp1.store hne hlivej htj1)
      rw [hcall]
      exact ⟨hd, rfl⟩
    · obtain ⟨n, hn⟩ : ∃ n, r.members.length = n + 2 := ⟨r.members.length - 2, by omega⟩
      rw [hn, show ∀ c, setMemberRole c sj (n + 2) = .error .abort from fun _ => rfl,
        show ∀ d : Draft, d.memberRole j (n + 2) = .error .abort from fun _ => rfl]
      exact Lockstep.error _
  · rw [if_neg hc, if_neg hc, Fault.ok_bind, Fault.ok_bind]
    obtain ⟨c', hcall, hd⟩ := h1.link hs hr1 ht1 hj (fun h => absurd h hc) hp1
    rw [hcall]
    exact ⟨hd, rfl⟩

theorem Agrees.markInvalid {arrays : Heap (List (Option Slot))} (h : Agrees arrays ids r t)
    (code : ErrorCode) : Agrees arrays ids (r.markInvalid code) (t.markInvalid code) :=
  { h.setFlags (show isInvalid &&& isContainerMask = 0#32 by decide) with cause := rfl }

theorem DraftType.Open.markInvalid (h : r.Open) (code : ErrorCode) : (r.markInvalid code).Open where
  container := by
    rw [← h.container]
    exact r.test_setFlags (by decide)
  described hw := by
    rw [← h.described hw]
    exact r.test_setFlags (by decide)
  members hc := h.members (by
    rw [← hc]
    exact (r.test_setFlags (by decide)).symm)

/-- `amqp_mark_type_invalid`. -/
theorem Drafted.markInvalid (h : Drafted c live ids d) (hs : ids[i]? = some s)
    (hr : d.types[i]? = some r) (ht : c.types.load s = some t) (code : ErrorCode) :
    Drafted (c.store s (t.markInvalid code)) live ids (d.modify i (·.markInvalid code)) := by
  obtain ⟨t1, ht1, hag⟩ := h.types i s r hs hr
  obtain rfl : t = t1 := Option.some.inj (ht.symm.trans ht1)
  refine h.update _ hs hr ht (hag.markInvalid code) rfl fun F hF hFi => ⟨rfl, rfl, ?_⟩
  obtain ⟨rF, hrF, hopen⟩ := h.opened F hF
  rw [hFi, hr, Option.some.injEq] at hrF
  exact hrF ▸ hopen.markInvalid code

theorem Draft.load_ok (hr : d.types[i]? = some r) : d.load i = .ok r := by simp only [Draft.load, hr]

/-- The elements' constructor of an array. -/
theorem Drafted.setFirst {j : Nat} {sj : Slot} (h : Drafted c live ids d) (hs : ids[i]? = some s)
    (hr : d.types[i]? = some r) (ht : c.types.load s = some t) (hj : ids[j]? = some sj) :
    Drafted (c.store s { t with value := { t.value with constructor := some sj } }) live ids
      (d.modify i fun r => { r with first := some j }) := by
  obtain ⟨t1, ht1, hag⟩ := h.types i s r hs hr
  obtain rfl : t = t1 := Option.some.inj (ht.symm.trans ht1)
  refine h.update _ hs hr ht ?_ rfl fun F hF hFi => ⟨rfl, rfl, ?_⟩
  · refine { hag with first := ?_, firstMade := fun k hk => ?_ }
    · show some sj = ids[j]?
      rw [hj]
    · cases hk
      exact (List.getElem?_eq_some_iff.1 hj).1
  · obtain ⟨rF, hrF, hopen⟩ := h.opened F hF
    rw [hFi, hr, Option.some.injEq] at hrF
    subst hrF
    exact ⟨hopen.container, hopen.described, hopen.members⟩

theorem enterContainer_lockstep {j : Nat} {sj : Slot} {b : Buffer} {m : EncodingMetaData}
    (h : Drafted c live ids d) (hs : ids[i]? = some s) (hr : d.types[i]? = some r)
    (hj : ids[j]? = some sj) (hij : j ≠ i) (hopen : r.Open) (hstack : ∀ F ∈ d.stack, F.id ≠ j) :
    Lockstep (fun x y => Drafted x.1 live ids y.1 ∧ y.1.stack = d.stack ∧ x.2 = y.2)
      (enterContainer c b m s sj) (d.enterContainer b m i j) := by
  obtain ⟨t, ht, hag⟩ := h.types i s r hs hr
  have hjlt : j < d.types.length := h.length ▸ (List.getElem?_eq_some_iff.1 hj).1
  have hrj := List.getElem?_eq_getElem hjlt
  obtain ⟨tj, htj, hagj⟩ := h.types j sj _ hj hrj
  have hne : sj ≠ s := h.slot_ne hs hj hij
  have hcount : t.value.count = r.members.length := hag.count hopen.container
  have harray : t.typeIsArray = r.test isArray := hag.test isArray
  -- what every branch ends with
  have hadd : ∀ {c1 d1 r1} (b1 : Buffer), Drafted c1 live ids d1 → d1.types[i]? = some r1 → r1.Open →
      d1.stack = d.stack →
      Lockstep (fun x y => Drafted x.1 live ids y.1 ∧ y.1.stack = d.stack ∧ x.2 = y.2)
        (do .ok (← addElementToContainer c1 s sj, b1)) (do .ok (← d1.addElement i j, b1)) := by
    intro c1 d1 r1 b1 h1 hr1 hopen1 hst
    refine (addElement_lockstep h1 hs hr1 hj hij hopen1 (hst ▸ hstack)).bind ?_
    rintro c2 d2 ⟨h2, hst2⟩
    exact ⟨h2, hst2.trans hst, rfl⟩
  unfold enterContainer Draft.enterContainer
  rw [Context.load_ok ht, Fault.ok_bind, Draft.load_ok hr, Fault.ok_bind, harray, hcount]
  split
  · refine (Lockstep.same _).bind ?_
    rintro b1 _ rfl
    exact hadd b1 h hr hopen rfl
  split
  · refine (Lockstep.same _).bind ?_
    rintro b1 _ rfl
    rw [Context.modify_ok _ ht, Fault.ok_bind]
    exact hadd b1 (h.setFirst hs hr ht hj) (Draft.modify_self hr)
      ⟨hopen.container, hopen.described, hopen.members⟩ rfl
  · rw [hag.first]
    cases hf : r.first with
    | none => exact Lockstep.error _
    | some f =>
      have hflt := hag.firstMade f hf
      have hfs := List.getElem?_eq_getElem hflt
      have hrf := List.getElem?_eq_getElem (h.length ▸ hflt : f < d.types.length)
      obtain ⟨tf, htf, hagf⟩ := h.types f _ _ hfs hrf
      simp only [Option.bind_some, hfs]
      rw [Context.load_ok htf, Fault.ok_bind, Context.load_ok htj, Fault.ok_bind,
        Draft.load_ok hrf, Fault.ok_bind, Draft.load_ok hrj, Fault.ok_bind, amqpTypeMatch, hagf.code,
        hagj.code]
      split
      · exact hadd b h hr hopen rfl
      · have hm1 := h.markInvalid hj hrj htj .arrayElementTypeIncorrect
        have hr1 : (d.modify j (·.markInvalid .arrayElementTypeIncorrect)).types[i]? = some r := by
          rw [Draft.modify_ne _ hij.symm, hr]
        have ht1 : (c.store sj (tj.markInvalid .arrayElementTypeIncorrect)).types.load s = some t :=
          (load_store_ne _ hne.symm).trans ht
        rw [Context.modify_ok _ htj, Fault.ok_bind, Context.modify_ok _ ht1, Fault.ok_bind]
        exact hadd b (hm1.markInvalid hs hr1 ht1 _) (Draft.modify_self hr1) (hopen.markInvalid _) rfl

theorem Drafted.stack_lt (h : Drafted c live ids d) {F : Frame} (hF : F ∈ d.stack) :
    F.id < d.types.length := by
  obtain ⟨r, hr, -⟩ := h.opened F hF
  exact (List.getElem?_eq_some_iff.1 hr).1

theorem placeType_lockstep (h : Drafted c live ids d) (b : Buffer) (extra : TypedefFlags)
    (m : EncodingMetaData) :
    Lockstep (fun x y => ∃ live', Drafted x.2.1 live' (ids ++ [x.1]) y.1 ∧ y.1.stack = d.stack ∧
      x.2.2 = y.2) (placeType c b extra m) (d.place b extra m) := by
  obtain ⟨s, c1, c2, live', halloc, hmod, hcon, h2⟩ := h.make extra m
  have hnew : (ids ++ [s])[ids.length]? = some s := by simp
  unfold placeType Draft.place
  rw [halloc, Fault.ok_bind]
  dsimp only
  rw [hmod, Fault.ok_bind]
  have hlinked := h.linked
  cases hst : d.stack with
  | nil =>
    rw [hst, Linked] at hlinked
    rw [hlinked]
    refine (Lockstep.same _).bind ?_
    rintro b1 _ rfl
    exact ⟨live', h2, hst, rfl⟩
  | cons F rest =>
    rw [hst] at hlinked
    obtain ⟨sF, tF, hcF, hsF, -⟩ := hlinked
    obtain ⟨r, hr, hopen⟩ := h2.opened F (show F ∈ d.stack by rw [hst]; exact .head _)
    have hlt : F.id < ids.length := (List.getElem?_eq_some_iff.1 hsF).1
    have hsF' : (ids ++ [s])[F.id]? = some sF := by rw [List.getElem?_append_left hlt, hsF]
    rw [hcF, ← h.length]
    refine (enterContainer_lockstep h2 hsF' hr hnew (by omega) hopen fun G hG => ?_).then_left ?_
    · have := h.stack_lt hG
      have := h.length
      omega
    · rintro x y ⟨hd, hst', hb⟩
      exact ⟨live', hd, by rw [← hst]; exact hst', hb⟩

/-! ## The new type of a draft -/

/-- A type that got flags, but none that make it a container. -/
structure Flagged (r r' : DraftType) : Prop where
  metaData : r'.metaData = r.metaData
  code : r'.code = r.code
  members : r'.members = r.members
  test : ∀ mask, mask &&& (roleMask ||| isInvalid) = 0#32 → r'.test mask = r.test mask

theorem Flagged.refl (r : DraftType) : Flagged r r := ⟨rfl, rfl, rfl, fun _ _ => rfl⟩

theorem Flagged.trans {r1 r2 r3 : DraftType} (h : Flagged r1 r2) (h' : Flagged r2 r3) :
    Flagged r1 r3 :=
  ⟨h'.metaData.trans h.metaData, h'.code.trans h.code, h'.members.trans h.members,
    fun mask hm => (h'.test mask hm).trans (h.test mask hm)⟩

theorem and_sub_zero {f g mask : TypedefFlags} (hf : f &&& ~~~g = 0#32) (hm : mask &&& g = 0#32) :
    f &&& mask = 0#32 := by
  refine BitVec.eq_of_getLsbD_eq fun i hi => ?_
  have e1 := congrArg (BitVec.getLsbD · i) hf
  have e2 := congrArg (BitVec.getLsbD · i) hm
  simp only [BitVec.getLsbD_and, BitVec.getLsbD_not, BitVec.getLsbD_zero, hi, decide_true,
    Bool.true_and] at e1 e2 ⊢
  revert e1 e2
  cases f.getLsbD i <;> cases mask.getLsbD i <;> cases g.getLsbD i <;> simp

theorem Flagged.setFlags {f : TypedefFlags} (r : DraftType)
    (hf : f &&& ~~~(roleMask ||| isInvalid) = 0#32) : Flagged r (r.setFlags f) :=
  ⟨rfl, rfl, rfl, fun _ hm => r.test_setFlags (and_sub_zero hf hm)⟩

theorem Flagged.markInvalid (r : DraftType) (code : ErrorCode) : Flagged r (r.markInvalid code) :=
  ⟨rfl, rfl, rfl, fun _ hm => r.test_setFlags (and_sub_zero (by decide) hm)⟩

/-- What a type is to the container it goes into. -/
def DraftType.roleIn (container : DraftType) : TypedefFlags :=
  isContained ||| if container.test isComposite then
    if container.members.length = 0 then isDescriptor else isDescribed else 0

theorem DraftType.roleIn_sub (r : DraftType) : r.roleIn &&& ~~~(roleMask ||| isInvalid) = 0#32 := by
  unfold roleIn
  split
  · split <;> decide
  · decide

/-- `amqp_add_element_to_container` in one equation. -/
theorem Draft.addElement_eq {j : Nat} (hr : d.types[i]? = some r) :
    d.addElement i j = if r.test isComposite = true ∧ 2 ≤ r.members.length then .error .abort
      else .ok ((d.modify j (·.setFlags r.roleIn)).modify i fun r =>
        { r with members := r.members ++ [j] }) := by
  have htwice : ∀ f g : TypedefFlags, (d.modify j (·.setFlags f)).modify j (·.setFlags g) =
      d.modify j (·.setFlags (f ||| g)) := by
    intro f g
    simp only [modify, List.modify_modify_eq]
    congr 2
    funext x
    simp [DraftType.setFlags, BitVec.or_assoc]
  rw [addElement, load_ok hr, Fault.ok_bind, DraftType.roleIn]
  dsimp only
  by_cases hc : r.test isComposite = true
  · rw [if_pos hc, if_pos hc]
    rcases hlen : r.members.length with _ | _ | n
    · rw [memberRole, Fault.ok_bind, htwice]
      simp
    · rw [memberRole, Fault.ok_bind, htwice]
      simp
    · simp [memberRole, hc]
  · simp [hc]

theorem Draft.addElement_new {d' : Draft} {j : Nat} (h : d.addElement i j = .ok d') (hij : j ≠ i)
    (hr : d.types[j]? = some r) : ∃ r', d'.types[j]? = some r' ∧ Flagged r r' := by
  cases hi : d.types[i]? with
  | none =>
    rw [addElement, load, hi] at h
    cases h
  | some ri =>
    rw [addElement_eq hi] at h
    split at h
    · cases h
    · cases h
      exact ⟨_, by rw [modify_ne _ hij, modify_self hr], .setFlags r ri.roleIn_sub⟩

theorem Draft.enterContainer_new {d' : Draft} {b b' : Buffer} {m : EncodingMetaData} {j : Nat}
    (h : d.enterContainer b m i j = .ok (d', b')) (hij : j ≠ i) (hr : d.types[j]? = some r) :
    ∃ r', d'.types[j]? = some r' ∧ Flagged r r' := by
  rw [enterContainer, Fault.bind_eq_ok] at h
  obtain ⟨ri, -, h⟩ := h
  have hadd : ∀ {d1 : Draft} {r1} {b1 : Buffer}, d1.types[j]? = some r1 → Flagged r r1 →
      (do .ok (← d1.addElement i j, b1) : Except Fault (Draft × Buffer)) = .ok (d', b') →
      ∃ r', d'.types[j]? = some r' ∧ Flagged r r' := by
    intro d1 r1 b1 hr1 hf h
    rw [Fault.bind_eq_ok] at h
    obtain ⟨d2, hd2, h⟩ := h
    cases h
    obtain ⟨r', hr', hf'⟩ := addElement_new hd2 hij hr1
    exact ⟨r', hr', hf.trans hf'⟩
  split at h
  · obtain ⟨b1, -, h⟩ := Fault.bind_eq_ok.1 h
    exact hadd hr (.refl r) h
  split at h
  · obtain ⟨b1, -, h⟩ := Fault.bind_eq_ok.1 h
    exact hadd (by rw [modify_ne _ hij, hr]) (.refl r) h
  split at h
  · cases h
  · obtain ⟨rf, -, h⟩ := Fault.bind_eq_ok.1 h
    obtain ⟨rt, -, h⟩ := Fault.bind_eq_ok.1 h
    split at h
    · exact hadd hr (.refl r) h
    · exact hadd (by rw [modify_ne _ hij, modify_self hr]) (.markInvalid r _) h

/-- The type that a call made. -/
theorem Draft.place_new {d' : Draft} {b b' : Buffer} {m : EncodingMetaData} {extra : TypedefFlags}
    (h : d.place b extra m = .ok (d', b')) (hst : ∀ F ∈ d.stack, F.id < d.types.length) :
    ∃ r, d'.types[d.types.length]? = some r ∧
      Flagged ⟨m, m.typedefFlags ||| isEncoded ||| extra, m.formatCode, none, [], none⟩ r := by
  have hnew : (d.make extra m).types[d.types.length]? =
      some ⟨m, m.typedefFlags ||| isEncoded ||| extra, m.formatCode, none, [], none⟩ := by
    simp [make]
  unfold place at h
  split at h
  · obtain ⟨b1, -, h⟩ := Fault.bind_eq_ok.1 h
    cases h
    exact ⟨_, hnew, .refl _⟩
  · rename_i F rest hF
    have hlt := hst F (by rw [hF]; exact .head _)
    exact enterContainer_new h (by omega) hnew

end
end Amqp
