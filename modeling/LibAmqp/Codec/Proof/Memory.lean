import LibAmqp.Codec.Proof.Safety
import LibAmqp.Lib.Budget

/-!
# Decoding with the memory there is

The decoder writes to what `malloc` returns without a look at it, and what it asks for is up to the peer:
an element array for every element that a container declares, a type for each one it meets.

* `amqpDecode_within`: a decode in limited memory against one without a limit, function by function.
* `Lays.taken`: the memory a decode takes is the one its outline says.
* `amqpDecode_returns_iff`: `amqp_decode` returns unless the bytes have a format code that is in the
  table but not implemented, or ask for more memory than there is.
-/

namespace Amqp

open Lib Memory

/-- The context with another bound on its memory. -/
def Context.within (c : Context) (l : Limit) : Context := { c with limit := l }

/-- The words and blocks of a context, as a budget that is limited by `l`. -/
def Limit.budget (l : Limit) : Budget Context (Nat × Nat) where
  taken c := (c.words, c.types.blocks.dom.length)
  fits m := l.fits m.1 m.2 = true
  antitone h hb := l.mono h.1 h.2 hb
  tight c := c.within l
  loose c := c.within .unlimited

/-! ## What the parts of the decoder take -/

theorem allocateObject_blocks {α : Type} {M : Malloc} {pool pool' : MemoryPool α} {s : Slot}
    (h : allocateObject M pool = .ok (s, pool')) : pool.blocks.dom.length ≤ pool'.blocks.dom.length := by
  obtain ⟨found, -, h⟩ := Fault.bind_eq_ok.1 h
  have hle : pool.blocks.dom.length ≤
      (if found = 0 then allocateNewMemoryBlock M pool else (found, pool)).2.blocks.dom.length := by
    split
    · simp only [allocateNewMemoryBlock]
      split <;> simp
    · exact Nat.le_refl _
  dsimp only at h
  generalize (if found = 0 then allocateNewMemoryBlock M pool else (found, pool)) = r at h hle
  obtain ⟨block, pool1⟩ := r
  dsimp only at h hle
  split at h
  · cases h
  · obtain ⟨⟨index, mask⟩, -, h⟩ := Fault.bind_eq_ok.1 h
    dsimp only at h
    split at h
    · cases h
    · cases h
      exact hle

theorem amqpAllocate_blocks {α : Type} {M : Malloc} {pool pool' : MemoryPool α} {s : Slot}
    (h : amqpAllocate M pool = .ok (s, pool')) : pool.blocks.dom.length ≤ pool'.blocks.dom.length := by
  obtain ⟨⟨s1, pool1⟩, hobject, h⟩ := Fault.bind_eq_ok.1 h
  dsimp only at h
  split at h
  · cases h
  · cases h
    simpa [MemoryPool.store] using allocateObject_blocks hobject

section
variable {l : Limit} {c : Context}

theorem allocateType_eq {s : Slot} {types : MemoryPool AmqpType}
    (hall : amqpAllocate c.malloc c.types = .ok (s, types)) :
    (c.within l).allocateType =
      if c.types.blocks.dom.length < types.blocks.dom.length ∧
          l.fits c.words types.blocks.dom.length = false then .error .wildPointer
      else .ok (s, ({ c with types := types } : Context).within l) := by
  show (amqpAllocate c.malloc c.types >>= _) = _
  rw [hall]
  rfl

/-- A new object, and sometimes a new block for it. -/
theorem allocateType_within (c : Context) :
    l.budget.Within (l.budget.taken c) (c.within l).allocateType (c.within .unlimited).allocateType := by
  cases hall : amqpAllocate c.malloc c.types with
  | error e =>
    have herr : ∀ l, (c.within l).allocateType = .error e := fun l => by
      show (amqpAllocate c.malloc c.types >>= _) = _
      rw [hall]
      rfl
    rw [herr, herr]
    exact .error e e
  | ok r =>
    obtain ⟨s, types⟩ := r
    let d : Slot × Context := (s, { c with types := types })
    have hle : l.budget.taken c ≤ l.budget.cost d := ⟨Nat.le_refl _, amqpAllocate_blocks hall⟩
    have hloose : (c.within .unlimited).allocateType = .ok (Holds.map l.budget.loose d) := by
      rw [allocateType_eq hall, if_neg fun h => Bool.false_ne_true h.2.symm]
      rfl
    rw [allocateType_eq hall, hloose]
    split
    · rename_i hfull
      exact ⟨d, rfl, hle, fun hfit => Bool.false_ne_true (hfull.2.symm.trans hfit)⟩
    · rename_i hroom
      refine ⟨d, rfl, rfl, hle, fun hfit => ?_⟩
      by_cases hnew : c.types.blocks.dom.length < types.blocks.dom.length
      · exact Bool.eq_true_of_not_eq_false fun h => hroom ⟨hnew, h⟩
      · have hsame : l.budget.cost d ≤ l.budget.taken c := ⟨Nat.le_refl _, Nat.le_of_not_lt hnew⟩
        exact l.budget.antitone hsame hfit

/-- The words of the element arrays after one more. -/
theorem words_newArray (c : Context) (count : Nat) :
    (c.newArray count).2.words = Context.arrayWords (Context.arrayLength count) + c.words := by
  have hold : ∀ a ∈ c.arrays.dom, (c.arrays.malloc c.malloc
      (List.replicate (Context.arrayLength count) none)).2.get a = c.arrays.get a := by
    intro a ha
    obtain ⟨v, hv⟩ := Heap.mem_dom_iff.1 ha
    rw [hv]
    exact Heap.get_malloc_of_some hv
  simp only [Context.words, Context.newArray, Heap.dom_malloc, List.map_cons, List.sum_cons,
    Heap.get_malloc_self, Option.getD_some, List.length_replicate]
  rw [List.map_congr_left fun a ha => by rw [hold a ha]]

theorem allocateArray_within (c : Context) (count : Nat) :
    l.budget.Within (l.budget.taken c) ((c.within l).allocateArray count)
      ((c.within .unlimited).allocateArray count) := by
  let d : Nat × Context := c.newArray count
  have hle : l.budget.taken c ≤ l.budget.cost d :=
    ⟨by rw [show (l.budget.cost d).1 = _ from words_newArray c count]; exact Nat.le_add_left _ _,
      Nat.le_refl _⟩
  have hloose : (c.within .unlimited).allocateArray count = .ok (Holds.map l.budget.loose d) := rfl
  have htight : (c.within l).allocateArray count =
      if l.fits d.2.words d.2.types.blocks.dom.length then .ok (Holds.map l.budget.tight d)
      else .error .wildPointer := rfl
  rw [hloose, htight]
  split
  · rename_i hfit
    exact ⟨d, rfl, rfl, hle, fun _ => hfit⟩
  · rename_i hfull
    exact ⟨d, rfl, hle, hfull⟩

/-- What is written to a type or to an array takes nothing. -/
theorem taken_store (c : Context) (s : Slot) (t : AmqpType) :
    l.budget.taken (c.store s t) = l.budget.taken c := by
  refine Prod.ext rfl ?_
  exact congrArg List.length (Heap.dom_modify ..)

theorem setElement_within (c : Context) (elements i : Nat) (s : Slot) :
    l.budget.Within (l.budget.taken c) ((c.within l).setElement elements i s)
      ((c.within .unlimited).setElement elements i s) := by
  cases hget : c.arrays.get elements with
  | none =>
    have herr : ∀ l, (c.within l).setElement elements i s = .error .wildPointer := fun l => by
      rw [Context.setElement, show (c.within l).arrays.get elements = none from hget]
    rw [herr, herr]
    exact .error _ _
  | some array =>
    let d : Context := { c with arrays := c.arrays.set elements (array.set i (some s)) }
    have hcost : l.budget.taken c = l.budget.taken d := by
      refine Prod.ext ?_ rfl
      show List.sum _ = List.sum _
      congr 1
      refine List.map_congr_left fun a ha => ?_
      by_cases h : a = elements
      · subst h
        rw [hget, Heap.get_set_self hget]
        simp
      · rw [Heap.get_set_ne _ h]
    have hset : ∀ l, (c.within l).setElement elements i s =
        if i < array.length then .ok (d.within l) else .error .wildPointer := fun l => by
      rw [Context.setElement, show (c.within l).arrays.get elements = some array from hget]
      rfl
    rw [hset, hset]
    exact .ite (fun _ => .ok d hcost) fun _ => .error _ _

theorem modify_within (c : Context) (s : Slot) (f : AmqpType → AmqpType) :
    l.budget.Within (l.budget.taken c) ((c.within l).modify s f) ((c.within .unlimited).modify s f) :=
  .same (c.load s) fun t => .ok (c.store s (f t)) (taken_store c s _).symm

end

/-! ## The decoder -/

section
variable {l : Limit} {recurse : Recurse}
  {step : Context → Buffer → Except Fault (Option Slot × Context × Buffer)}

def Recurse.OnBudget (l : Limit) (recurse : Recurse) : Prop :=
  ∀ c b type, l.budget.Within (l.budget.taken c) (recurse (c.within l) b type)
    (recurse (c.within .unlimited) b type)

def StepOnBudget (l : Limit) (step : Context → Buffer → Except Fault (Option Slot × Context × Buffer)) : Prop :=
  ∀ c b, l.budget.Within (l.budget.taken c) (step (c.within l) b) (step (c.within .unlimited) b)

theorem amqpDecodeWith_within (h : recurse.OnBudget l) : StepOnBudget l (amqpDecodeWith recurse) := by
  intro c b
  refine .ite (fun _ => .ok (none, c, b) rfl) fun _ => ?_
  refine .bind (allocateType_within c) fun d => ?_
  obtain ⟨s, c⟩ := d
  refine .same (c.load s) fun t => ?_
  refine .same (decodeTypeConstructorIntoResult b t) fun r => ?_
  obtain ⟨rc, b', type⟩ := r
  refine .ite (fun _ => ?_) fun _ => ?_
  · refine .bind (h c b' type) fun d => ?_
    obtain ⟨rc, c, b'', type⟩ := d
    exact .ok (some s, (c.store s type).log ⟨s, b.index, b''.index⟩, b'') (taken_store c s type).symm
  · exact .ok (some s, (c.store s type).log ⟨s, b.index, b'.index⟩, b') (taken_store c s type).symm

theorem decodeElements_within (h : StepOnBudget l step) (elements n : Nat) : ∀ i c b,
    l.budget.Within (l.budget.taken c) (decodeElements step elements n i (c.within l) b)
      (decodeElements step elements n i (c.within .unlimited) b) := by
  induction n with
  | zero => exact fun i c b => .ok (c, b) rfl
  | succ n ih =>
    intro i c b
    refine .bind (h c b) fun d => ?_
    obtain ⟨ptr, c, b⟩ := d
    cases ptr with
    | none => exact ih (i + 1) c b
    | some element =>
      refine .bind (setElement_within c elements i element) fun c => ?_
      exact .bind (modify_within c element _) fun c => ih (i + 1) c b

theorem decodeCompound_within (h : recurse.OnBudget l) (c : Context) (b : Buffer) (m : EncodingMetaData)
    (type : AmqpType) : l.budget.Within (l.budget.taken c) (decodeCompound recurse (c.within l) b m type)
      (decodeCompound recurse (c.within .unlimited) b m type) := by
  refine .same (amqpConstructContainerType b m type) fun r => ?_
  obtain ⟨rc, b, type⟩ := r
  refine .ite (fun _ => ?_) fun _ => .ok (false, c, b, type) rfl
  refine .same (getVariableTypeCount b m type) fun r => ?_
  obtain ⟨count, b, type⟩ := r
  refine .ite (fun _ => .ok (false, c, b, type) rfl) fun _ => ?_
  refine .bind (allocateArray_within c count) fun d => ?_
  obtain ⟨elements, c⟩ := d
  refine .bind (decodeElements_within (amqpDecodeWith_within h) elements count 0 c b) fun d => ?_
  obtain ⟨c, b⟩ := d
  exact .ok (true, c, b, _) rfl

theorem amqpDecodeDescribedType_within (h : recurse.OnBudget l) (c : Context) (b : Buffer)
    (m : EncodingMetaData) (type : AmqpType) :
    l.budget.Within (l.budget.taken c) (amqpDecodeDescribedType recurse (c.within l) b m type)
      (amqpDecodeDescribedType recurse (c.within .unlimited) b m type) := by
  refine .bind (allocateArray_within c 2) fun d => ?_
  obtain ⟨elements, c⟩ := d
  refine .bind (amqpDecodeWith_within h c b) fun d => ?_
  obtain ⟨ptr, c, b⟩ := d
  cases ptr with
  | none => exact .ok (false, c, b, _) rfl
  | some descriptor =>
    refine .bind (setElement_within c elements 0 descriptor) fun c => ?_
    refine .bind (modify_within c descriptor _) fun c => ?_
    refine .bind (amqpDecodeWith_within h c b) fun d => ?_
    obtain ⟨ptr, c, b⟩ := d
    cases ptr with
    | none => exact .ok (false, c, b, _) rfl
    | some described =>
      refine .bind (setElement_within c elements 1 described) fun c => ?_
      refine .bind (modify_within c described _) fun c => ?_
      refine .same (c.load descriptor) fun t => ?_
      refine .ite (fun _ => .ok (false, c, b, _) rfl) fun _ => ?_
      refine .same (c.load described) fun t => ?_
      exact .ite (fun _ => .ok (false, c, b, _) rfl) fun _ => .ok (true, c, b, _) rfl

theorem amqpDecodeArrayElement_within (h : recurse.OnBudget l) (constructor : TypeConstructor) :
    StepOnBudget l (amqpDecodeArrayElement recurse constructor) := by
  intro c b
  refine .bind (allocateType_within c) fun d => ?_
  obtain ⟨s, c⟩ := d
  refine .same (c.load s) fun t => ?_
  refine .bind (h c b _) fun d => ?_
  obtain ⟨rc, c, b', type⟩ := d
  exact .ok (some s, (c.store s type).log ⟨s, b.index, b'.index⟩, b') (taken_store c s type).symm

theorem amqpDecodeArray_within (h : recurse.OnBudget l) (c : Context) (b : Buffer) (m : EncodingMetaData)
    (type : AmqpType) : l.budget.Within (l.budget.taken c) (amqpDecodeArray recurse (c.within l) b m type)
      (amqpDecodeArray recurse (c.within .unlimited) b m type) := by
  refine .same (amqpConstructContainerType b m type) fun r => ?_
  obtain ⟨rc, b, type⟩ := r
  refine .ite (fun _ => ?_) fun _ => .ok (false, c, b, type) rfl
  refine .same (getVariableTypeCount b m type) fun r => ?_
  obtain ⟨count, b, type⟩ := r
  refine .ite (fun _ => .ok (false, c, b, type) rfl) fun _ => ?_
  refine .bind (allocateType_within c) fun d => ?_
  obtain ⟨s, c⟩ := d
  refine .same (c.load s) fun holder => ?_
  refine .same (decodeTypeConstructor b holder.constructor) fun r => ?_
  obtain ⟨rc, b, constructor⟩ := r
  have hstore := taken_store (l := l) c s { holder with constructor := constructor }
  refine .ite (fun _ => .ok (false, c.store s _, b, _) hstore.symm) fun _ => ?_
  refine .ite (fun _ => ?_) fun _ => .ok (true, c.store s _, b, _) hstore.symm
  refine .of_start hstore.symm (.bind (allocateArray_within (c.store s _) count) fun d => ?_)
  obtain ⟨elements, c⟩ := d
  refine .bind (decodeElements_within (amqpDecodeArrayElement_within h constructor) elements count 0 c b)
    fun d => ?_
  obtain ⟨c, b⟩ := d
  exact .ok (true, c, b, _) rfl

theorem liftDecoding_within (c : Context) (r : Decoding) :
    l.budget.Within (l.budget.taken c) (liftDecoding (c.within l) r) (liftDecoding (c.within .unlimited) r) := by
  refine .same r fun r => ?_
  obtain ⟨rc, b, type⟩ := r
  exact .ok (rc, c, b, type) rfl

theorem call_within (h : recurse.OnBudget l) (c : Context) (b : Buffer) (m : EncodingMetaData)
    (type : AmqpType) (d : TypeDecoder) :
    l.budget.Within (l.budget.taken c) (d.call recurse (c.within l) b m type)
      (d.call recurse (c.within .unlimited) b m type) := by
  cases d
  case describedType => exact amqpDecodeDescribedType_within h c b m type
  case extensionType => exact .error _ _
  case list8 | list32 | map8 | map32 => exact decodeCompound_within h c b m type
  case array8 | array32 => exact amqpDecodeArray_within h c b m type
  all_goals exact liftDecoding_within c _

theorem decodeTypeIntoResult_within (fuel : Nat) : Recurse.OnBudget l (decodeTypeIntoResult fuel) := by
  induction fuel with
  | zero => exact fun c b type => .error _ _
  | succ fuel ih =>
    intro c b type
    rw [decodeTypeIntoResult, decodeTypeIntoResult]
    cases type.constructor.metaData with
    | none => exact .error _ _
    | some m =>
      refine .bind (call_within ih c b m type m.typeDecoder) fun d => ?_
      obtain ⟨rc, c, b, type⟩ := d
      refine .ite (fun _ => .ok (rc, c, b, type) rfl) fun _ => ?_
      exact .ite (fun _ => .ok (rc, c, b, type) rfl) fun _ => .error _ _

theorem amqpDecode_within (c : Context) (b : Buffer) :
    l.budget.Within (l.budget.taken c) (amqpDecode (c.within l) b) (amqpDecode (c.within .unlimited) b) :=
  amqpDecodeWith_within (decodeTypeIntoResult_within _) c b

end

/-! ## What a decode takes -/

section
variable {P : AmqpType → Prop} {w : Nat} {c c' : Context} {live : Finset Slot} {S : List Slot} {A : List Nat}
  {inp : Input} {address : Nat} {n : Node} {kids F : Layout} {b : Buffer}

/-- The words of some element arrays. -/
def Context.wordsOf (c : Context) (A : List Nat) : Nat :=
  (A.map fun a => arrayWords ((c.arrays.get a).getD []).length).sum

theorem Grows.words (h : Grows P 0 c live c' S A) : c'.words = c.words + c'.wordsOf A := by
  have hperm : c'.arrays.dom.Perm (c.arrays.dom ++ A) := by
    refine (List.perm_ext_iff_of_nodup c'.arrays.nodup ?_).2 fun a => by rw [h.dom, List.mem_append]
    exact List.nodup_append.2 ⟨c.arrays.nodup, h.arraysNodup,
      fun a ha _ ha' he => h.arraysFresh a (he ▸ ha') ha⟩
  have hold : c'.wordsOf c.arrays.dom = c.words := by
    refine congrArg List.sum (List.map_congr_left fun a ha => ?_)
    obtain ⟨v, hv⟩ := Heap.mem_dom_iff.1 ha
    rw [h.get a ha (by rintro rfl; simp at hv)]
  calc c'.words = c'.wordsOf (c.arrays.dom ++ A) := (hperm.map _).sum_nat
    _ = c'.wordsOf c.arrays.dom + c'.wordsOf A := by
      rw [Context.wordsOf, List.map_append, List.sum_append]
      rfl
    _ = c.words + c'.wordsOf A := by rw [hold]

theorem Grows.card (h : Grows P w c live c' S A) : (live ∪ S.toFinset).card = live.card + S.length := by
  rw [Finset.card_union_of_disjoint, List.toFinset_card_of_nodup h.nodup]
  exact Finset.disjoint_right.2 fun s hs => h.fresh s (List.mem_toFinset.1 hs)

/-- The array of a decoded type is the one its item has, in the length for its elements. -/
theorem Fits.words (h : Fits c inp address P n kids) :
    c.wordsOf n.array.toList = n.item.words (kids.map Node.item) := by
  have hnone : n.array = none → c.wordsOf n.array.toList = 0 := fun harr => by rw [harr]; rfl
  have hsome : ∀ a, n.array = some a →
      c.wordsOf n.array.toList = Context.arrayWords (Context.arrayLength kids.length) := by
    intro a harr
    obtain ⟨l, hget, hlen, -⟩ := h.elements a harr
    rw [harr, ← hlen]
    simp [Context.wordsOf, hget]
  obtain ⟨t, role, -, ⟨stale, k, -, -, hf⟩, -⟩ := h.record
  rw [Item.words, Item.metaData, Forest.length_map]
  cases hl : amqpTypeMetaDataLookup n.item.code with
  | none =>
    simp only [hl] at hf ⊢
    exact hnone hf.2.1
  | some m =>
    simp only [hl] at hf ⊢
    have hhas := hf.hasArray
    cases harr : n.array with
    | none =>
      rw [harr] at hhas
      rw [if_neg (by rw [← hhas]; exact Bool.false_ne_true), ← harr]
      exact hnone harr
    | some a =>
      rw [harr] at hhas
      rw [if_pos (hhas.symm.trans Option.isSome_some), ← harr]
      exact hsome a harr

theorem Fits.types (h : Fits c inp address P n kids) :
    (n.holder.map Holder.slot).toList.length + 1 = n.item.types inp (kids.map Node.item) := by
  obtain ⟨t, role, -, ⟨stale, k, -, -, hf⟩, -⟩ := h.record
  rw [Item.types, Item.metaData]
  cases hl : amqpTypeMetaDataLookup n.item.code with
  | none =>
    simp only [hl] at hf ⊢
    rw [hf.2.2.1]
    rfl
  | some m =>
    simp only [hl] at hf ⊢
    by_cases hk : m.kind = .array
    · rw [← hf.elementCode hk]
      cases n.holder with
      | none => simp
      | some d => simp [hk]
    · rw [hf.notArray hk, if_neg fun h => hk h.1]
      rfl

theorem Laid.words (h : Laid c inp address P F) : c.wordsOf F.arrays = F.outline.sum Item.words := by
  rw [Layout.outline, Forest.sum_map]
  induction F with
  | nil => rfl
  | hole rest ih => exact ih h
  | node n kids rest ihk ihr =>
    rw [Forest.sum, ← ihk h.2.1, ← ihr h.2.2, ← h.1.words]
    simp only [Layout.arrays, Context.wordsOf, List.map_append, List.sum_append]

theorem Laid.types (h : Laid c inp address P F) : F.slots.length = F.outline.sum (Item.types inp) := by
  rw [Layout.outline, Forest.sum_map]
  induction F with
  | nil => rfl
  | hole rest ih => exact ih h
  | node n kids rest ihk ihr =>
    rw [Forest.sum, ← ihk h.2.1, ← ihr h.2.2, ← h.1.types]
    simp only [Layout.slots, List.length_cons, List.length_append]
    omega

/-- The memory has room for all that the decoder allocates for the bytes of a buffer. -/
def Context.HasRoom (c : Context) (b : Buffer) : Prop :=
  let O := Forest.cons b.outline .nil
  c.limit.fits (c.words + O.sum Item.words)
    (max c.types.blocks.dom.length
      (c.types.blocksFor (c.types.outstandingAllocations + O.sum (Item.types b.input)))) = true

instance (c : Context) (b : Buffer) : Decidable (c.HasRoom b) := inferInstanceAs (Decidable (_ = true))

/-- What a decode without a bound takes, against the bound there is. -/
theorem Lays.taken {l : Limit} (hlive : Live P c.types live)
    (h : Lays P 0 b.input address (c.within l) live (.cons b.outline .nil) c' F) :
    c.limit.fits c'.words c'.types.blocks.dom.length = true ↔ c.HasRoom b := by
  rw [Context.HasRoom, h.grows.words, h.grows.blocks, h.grows.card, h.laid.words, h.laid.types, h.outline,
    hlive.card]
  exact Iff.rfl

end

section
variable {c : Context} {live : Finset Slot} {b : Buffer}

theorem amqpDecode_returns_iff (hr : Usable (fun _ => True) c live) (hgranted : c.isGranted = true)
    (hi : b.index ≤ b.size) :
    Returns c b ↔ (Forest.cons b.outline .nil).All Item.Implemented ∧ c.HasRoom b := by
  have hready : Ready (fun _ => True) (c.within .unlimited) live := ⟨⟨hr.held, hr.initializer⟩, rfl⟩
  have hsim := amqpDecode_simulates hready hi
  -- a run in the memory there is, against one that has no bound
  let good (r : Option Slot × Context × Buffer) : Prop := ∀ s, r.1 = some s → ∃ t,
    r.2.1.types.load s = some t ∧ (t.typeIsValid = true ∨ t.typeIsInvalid = true ∧ t.invalidCause.isSome = true)
  have hwithin : (∃ r, amqpDecode c b = .ok r ∧ good r) ↔ ∃ r, amqpDecode (c.within .unlimited) b = .ok r ∧
      good r ∧ c.limit.fits r.2.1.words r.2.1.types.blocks.dom.length = true :=
    (amqpDecode_within (l := c.limit) c b).returns_iff hgranted (fun _ => Iff.rfl) fun _ => rfl
  have hrun : Returns c b ↔ ∃ r, amqpDecode c b = .ok r ∧ good r := by
    constructor
    · rintro ⟨ptr, c', b', hcall, hr⟩
      exact ⟨(ptr, c', b'), hcall, hr⟩
    · rintro ⟨r, hcall, hr⟩
      exact ⟨r.1, r.2.1, r.2.2, hcall, hr⟩
  rw [hrun, hwithin]
  constructor
  · rintro ⟨⟨ptr, c', b'⟩, hcall, hQ, hfit⟩
    have himp : (Forest.cons b.outline .nil).All Item.Implemented :=
      Returns.implemented hready hi ⟨ptr, c', b', hcall, hQ⟩
    refine ⟨himp, ?_⟩
    obtain ⟨ptr1, c1, F, hcall1, hlays, -⟩ := hsim.1 (implemented_iff.1 himp)
    obtain rfl : c1 = c' := by
      rw [hcall1] at hcall
      cases hcall
      rfl
    exact (hlays.taken hr.held).1 hfit
  · rintro ⟨himp, hroom⟩
    obtain ⟨ptr, c', b', hcall, hQ⟩ := returns_of_implemented hready hi himp
    obtain ⟨ptr1, c1, F, hcall1, hlays, -⟩ := hsim.1 (implemented_iff.1 himp)
    obtain rfl : c1 = c' := by
      rw [hcall1] at hcall
      cases hcall
      rfl
    exact ⟨(ptr, c1, b'), hcall, hQ, (hlays.taken hr.held).2 hroom⟩

/-- Memory for so many words of element arrays and so many blocks of types. -/
def Limit.upTo (words blocks : Nat) : Limit where
  fits w b := decide (w ≤ words) && decide (b ≤ blocks)
  mono hw hb h := by
    simp only [Bool.and_eq_true, decide_eq_true_eq] at h ⊢
    exact ⟨hw.trans h.1, hb.trans h.2⟩

theorem create_usable (M : Malloc) {n : Nat} (h1 : 1 ≤ n) (h2 : n ≤ 63) (l : Limit) :
    Usable (fun _ => True) ((Context.create M n).within l) ∅ :=
  have h := (create_ready M h1 h2).mono fun _ _ => trivial
  ⟨h.held, h.initializer⟩

/-- A list of a byte, a string and an array that is cut off, in 2 blocks and 19 words of memory. -/
theorem amqpDecode_returns_truncated :
    Returns ((Context.create Malloc.bump 2).within (.upTo 19 2))
      (.received [0xc0, 0x08, 0x03, 0x50, 0x07, 0xa1, 0x01, 0x61, 0xe0, 0x20]) :=
  (amqpDecode_returns_iff (create_usable Malloc.bump (by decide) (by decide) _) (by decide)
    (by decide)).2 (by decide +kernel)

/-- A `decimal128` stops the process. -/
theorem amqpDecode_decimal128_stops :
    ¬ Returns (Context.create Malloc.bump 21) (.received (0x94 :: List.replicate 16 0x00)) := by
  intro h
  have := h.implemented (create_ready Malloc.bump (by decide) (by decide)) (by decide)
  revert this
  decide +kernel

/-- So does a list that declares more elements than there is memory for, with none of them there. -/
theorem amqpDecode_declared_stops :
    ¬ Returns ((Context.create Malloc.bump 21).within (.upTo 200 2))
      (.received [0xd0, 0x00, 0x00, 0x00, 0x04, 0x00, 0x00, 0x00, 0xff]) := by
  intro h
  have := (amqpDecode_returns_iff (create_usable Malloc.bump (by decide) (by decide) _) (by decide)
    (by decide)).1 h
  revert this
  decide +kernel

end
end Amqp
