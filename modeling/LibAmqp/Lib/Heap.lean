import Mathlib.Data.List.Basic
import Mathlib.Data.List.Nodup

/-!
# Heaps of allocated cells

`Heap β`: a finite set of allocated addresses, each holding a `β`. Address `0` is the null
pointer and is never allocated. Which unused address an allocation returns is left open: it is
chosen by a `Malloc`, a policy that only has to avoid the addresses in use and `0`.

* `get_malloc`, `get_set`, `get_free`: what each operation leaves at an address.
* `mem_dom_malloc`, `dom_set`, `mem_dom_free`: which addresses are allocated afterwards.
-/

namespace Lib

/-- How addresses are picked: any unused non-null one, given those in use. -/
structure Malloc where
  pick : List Nat → Nat
  fresh : ∀ used, pick used ∉ used
  ne_zero : ∀ used, pick used ≠ 0

/-- The policy that takes the address after the largest one in use. -/
def Malloc.bump : Malloc where
  pick used := used.foldr max 0 + 1
  fresh used h := by
    have key : ∀ (l : List Nat) (a : Nat), a ∈ l → a ≤ l.foldr max 0 := by
      intro l a ha
      induction l with
      | nil => cases ha
      | cons b l ih =>
        rcases List.mem_cons.1 ha with rfl | ha
        · exact Nat.le_max_left _ _
        · exact Nat.le_trans (ih ha) (Nat.le_max_right _ _)
    have := key used _ h
    omega
  ne_zero used := by omega

structure Heap (β : Type) where
  cells : Nat → Option β
  dom : List Nat
  nodup : dom.Nodup
  mem_dom : ∀ a, a ∈ dom ↔ (cells a).isSome
  null : cells 0 = none

namespace Heap

variable {β : Type}

/-- The heap with nothing allocated. -/
def empty : Heap β where
  cells _ := none
  dom := []
  nodup := List.nodup_nil
  mem_dom a := by simp
  null := rfl

def get (h : Heap β) (a : Nat) : Option β := h.cells a

/-- Allocate a cell holding `v`. -/
def malloc (M : Malloc) (h : Heap β) (v : β) : Nat × Heap β :=
  (M.pick h.dom,
    { cells := fun a => if a = M.pick h.dom then some v else h.cells a
      dom := M.pick h.dom :: h.dom
      nodup := List.nodup_cons.2 ⟨M.fresh _, h.nodup⟩
      mem_dom := fun a => by
        by_cases ha : a = M.pick h.dom
        · simp [ha]
        · simp [ha, h.mem_dom]
      null := by rw [if_neg (M.ne_zero _).symm, h.null] })

/-- Overwrite an allocated cell; nothing happens at an unused address. -/
def set (h : Heap β) (a : Nat) (v : β) : Heap β where
  cells x := if x = a ∧ (h.cells a).isSome then some v else h.cells x
  dom := h.dom
  nodup := h.nodup
  mem_dom x := by
    by_cases hx : x = a ∧ (h.cells a).isSome
    · simp [hx, h.mem_dom]
    · rw [if_neg hx, h.mem_dom]
  null := by
    by_cases ha : 0 = a ∧ (h.cells a).isSome
    · obtain ⟨rfl, hs⟩ := ha
      simp [h.null] at hs
    · rw [if_neg ha, h.null]

/-- Change an allocated cell; nothing happens at an unused address. -/
def modify (h : Heap β) (a : Nat) (f : β → β) : Heap β :=
  match h.get a with
  | some v => h.set a (f v)
  | none => h

def free (h : Heap β) (a : Nat) : Heap β where
  cells x := if x = a then none else h.cells x
  dom := h.dom.erase a
  nodup := h.nodup.erase a
  mem_dom x := by
    by_cases hx : x = a
    · subst hx; simp [h.nodup.mem_erase_iff]
    · simp [hx, List.mem_erase_of_ne hx, h.mem_dom]
  null := by
    by_cases ha : 0 = a
    · simp [ha]
    · rw [if_neg ha, h.null]

/-! ## Contents -/

@[simp] theorem get_zero (h : Heap β) : h.get 0 = none := h.null

@[simp] theorem get_empty (a : Nat) : (empty : Heap β).get a = none := rfl

@[simp] theorem dom_empty : (empty : Heap β).dom = [] := rfl

theorem mem_dom_iff {h : Heap β} {a : Nat} : a ∈ h.dom ↔ ∃ v, h.get a = some v := by
  rw [h.mem_dom, Option.isSome_iff_exists]; rfl

theorem get_eq_none {h : Heap β} {a : Nat} : h.get a = none ↔ a ∉ h.dom := by
  rw [mem_dom_iff]; cases h.get a <;> simp

theorem pick_not_mem (M : Malloc) (h : Heap β) : h.get (M.pick h.dom) = none :=
  get_eq_none.2 (M.fresh _)

theorem malloc_fst (M : Malloc) (h : Heap β) (v : β) : (h.malloc M v).1 = M.pick h.dom := rfl

theorem get_malloc (M : Malloc) (h : Heap β) (v : β) (a : Nat) :
    (h.malloc M v).2.get a = if a = M.pick h.dom then some v else h.get a := rfl

@[simp] theorem get_malloc_self (M : Malloc) (h : Heap β) (v : β) :
    (h.malloc M v).2.get (M.pick h.dom) = some v := by simp [get_malloc]

theorem get_malloc_of_some {M : Malloc} {h : Heap β} {v w : β} {a : Nat} (ha : h.get a = some w) :
    (h.malloc M v).2.get a = some w := by
  rw [get_malloc, if_neg, ha]
  rintro rfl
  rw [pick_not_mem] at ha
  cases ha

theorem get_set_self {h : Heap β} {a : Nat} {v w : β} (ha : h.get a = some w) :
    (h.set a v).get a = some v := by
  simp only [get] at ha
  simp [get, set, ha]

theorem get_set_ne {h : Heap β} {a x : Nat} (v : β) (hx : x ≠ a) : (h.set a v).get x = h.get x := by
  simp [get, set, hx]

theorem get_modify_self {h : Heap β} {a : Nat} {f : β → β} {v : β} (ha : h.get a = some v) :
    (h.modify a f).get a = some (f v) := by
  unfold modify
  rw [ha]
  exact get_set_self ha

theorem get_modify_ne {h : Heap β} {a x : Nat} (f : β → β) (hx : x ≠ a) :
    (h.modify a f).get x = h.get x := by
  unfold modify
  split
  · exact get_set_ne _ hx
  · rfl

theorem get_free (h : Heap β) (a x : Nat) :
    (h.free a).get x = if x = a then none else h.get x := rfl

/-! ## Allocated addresses -/

theorem mem_dom_malloc {M : Malloc} {h : Heap β} {v : β} {a : Nat} :
    a ∈ (h.malloc M v).2.dom ↔ a = M.pick h.dom ∨ a ∈ h.dom := List.mem_cons

@[simp] theorem dom_malloc (M : Malloc) (h : Heap β) (v : β) :
    (h.malloc M v).2.dom = M.pick h.dom :: h.dom := rfl

@[simp] theorem dom_set (h : Heap β) (a : Nat) (v : β) : (h.set a v).dom = h.dom := rfl

@[simp] theorem dom_modify (h : Heap β) (a : Nat) (f : β → β) : (h.modify a f).dom = h.dom := by
  unfold modify; split <;> rfl

@[simp] theorem dom_free (h : Heap β) (a : Nat) : (h.free a).dom = h.dom.erase a := rfl

theorem modify_of_none {h : Heap β} {a : Nat} {f : β → β} (ha : h.get a = none) :
    h.modify a f = h := by
  unfold modify; rw [ha]

/-! ## Growth -/

/-- A heap that gained the addresses `A` and kept what it had. -/
structure Gains (h h' : Heap β) (A : List Nat) : Prop where
  dom : ∀ a, a ∈ h'.dom ↔ a ∈ h.dom ∨ a ∈ A
  nodup : A.Nodup
  fresh : ∀ a ∈ A, a ∉ h.dom
  get : ∀ a ∈ h.dom, h'.get a = h.get a

theorem Gains.refl (h : Heap β) : Gains h h [] where
  dom _ := by simp
  nodup := List.nodup_nil
  fresh _ ha := nomatch ha
  get _ _ := rfl

theorem Gains.trans {h h' h'' : Heap β} {A A' : List Nat} (h1 : Gains h h' A)
    (h2 : Gains h' h'' A') : Gains h h'' (A ++ A') where
  dom a := by rw [h2.dom, h1.dom, List.mem_append, or_assoc]
  nodup := by
    refine List.nodup_append.2 ⟨h1.nodup, h2.nodup, ?_⟩
    rintro a ha _ ha' rfl
    exact h2.fresh a ha' ((h1.dom a).2 (.inr ha))
  fresh := by
    intro a ha
    rcases List.mem_append.1 ha with ha | ha
    · exact h1.fresh a ha
    · exact fun hd => h2.fresh a ha ((h1.dom a).2 (.inl hd))
  get a ha := by rw [h2.get a ((h1.dom a).2 (.inl ha)), h1.get a ha]

theorem gains_malloc (M : Malloc) (h : Heap β) (v : β) :
    Gains h (h.malloc M v).2 [(h.malloc M v).1] where
  dom a := by
    rw [dom_malloc, malloc_fst, List.mem_cons, List.mem_singleton]
    exact or_comm
  nodup := List.nodup_singleton _
  fresh a ha := by
    rw [List.mem_singleton] at ha
    rw [ha, malloc_fst]
    exact M.fresh _
  get a ha := by
    obtain ⟨w, hw⟩ := mem_dom_iff.1 ha
    rw [get_malloc_of_some hw, hw]

theorem Gains.get_some {h h' : Heap β} {A : List Nat} {a : Nat} {v : β} (hg : Gains h h' A)
    (ha : h.get a = some v) : h'.get a = some v := by
  rw [hg.get a (mem_dom_iff.2 ⟨v, ha⟩), ha]

end Heap
end Lib
