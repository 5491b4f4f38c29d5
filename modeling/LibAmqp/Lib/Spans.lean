import Mathlib.Data.List.Basic
import Mathlib.Data.List.Range

/-!
# Forests as lists of children

Nodes are numbered in the order in which they are made, and each has the list of its children.
`Spans children roots nodes`: the trees with these roots have the nodes `nodes`, a parent before its
descendants. `Grown top children children' roots`: new trees were made below `top`, or as trees of their
own, and nothing else changed.

* `Grown.trans`: more trees beside the first ones.
* `Grown.node`: a new node and the trees made below it.
-/

namespace Lib

inductive Spans (children : List (List Nat)) : List Nat → List Nat → Prop
  | nil : Spans children [] []
  | cons {i : Nat} {kids below is rest : List Nat} (hi : children[i]? = some kids)
      (hkids : Spans children kids below) (hrest : Spans children is rest) :
      Spans children (i :: is) (i :: (below ++ rest))

/-- More children for a node. -/
def graft (top : Option Nat) (roots : List Nat) (children : List (List Nat)) : List (List Nat) :=
  top.elim children fun i => children.modify i (· ++ roots)

structure Grown (top : Option Nat) (children children' : List (List Nat)) (roots : List Nat) : Prop where
  below : ∀ i, top = some i → i < children.length
  grafted : ∃ block, children' = graft top roots children ++ block ∧
    Spans children' roots (List.range' children.length block.length)

variable {top : Option Nat} {children children' children'' : List (List Nat)} {roots roots' : List Nat}

/-- Trees only depend on their own nodes. -/
theorem Spans.congr {nodes : List Nat} (h : Spans children roots nodes)
    (heq : ∀ i ∈ nodes, children'[i]? = children[i]?) : Spans children' roots nodes := by
  induction h with
  | nil => exact .nil
  | cons hi _ _ ihk ihr =>
    refine .cons ((heq _ (.head _)).trans hi) (ihk fun j hj => heq j ?_) (ihr fun j hj => heq j ?_)
    · exact .tail _ (List.mem_append_left _ hj)
    · exact .tail _ (List.mem_append_right _ hj)

/-- Trees side by side. -/
theorem Spans.append {nodes nodes' : List Nat} (h : Spans children roots nodes)
    (h' : Spans children roots' nodes') : Spans children (roots ++ roots') (nodes ++ nodes') := by
  induction h with
  | nil => exact h'
  | cons hi hk _ _ ihr =>
    rw [List.cons_append, List.cons_append, List.append_assoc]
    exact .cons hi hk ihr

@[simp] theorem length_graft : (graft top roots children).length = children.length := by
  cases top <;> simp [graft]

theorem graft_graft : graft top roots' (graft top roots children) = graft top (roots ++ roots') children := by
  cases top with
  | none => rfl
  | some i =>
    simp only [graft, Option.elim_some, List.modify_modify_eq]
    congr 1
    funext kids
    exact List.append_assoc _ _ _

theorem graft_some (i : Nat) : graft (some i) roots children = children.modify i (· ++ roots) := rfl

/-- Nodes behind the one that gets more children. -/
theorem graft_append (block : List (List Nat)) (h : ∀ i, top = some i → i < children.length) :
    graft top roots (children ++ block) = graft top roots children ++ block := by
  cases top with
  | none => rfl
  | some i =>
    have hlt := h i rfl
    refine List.ext_getElem? fun j => ?_
    simp only [graft, Option.elim_some, List.getElem?_modify, List.getElem?_append, List.length_modify]
    by_cases hj : j < children.length
    · rw [if_pos hj, if_pos hj]
    · have hij : i ≠ j := by omega
      simp [hj, hij]

theorem getElem?_graft {j : Nat} (h : top ≠ some j) : (graft top roots children)[j]? = children[j]? := by
  cases top with
  | none => rfl
  | some i =>
    have hij : i ≠ j := fun heq => h (congrArg some heq)
    simp [graft, hij]

theorem graft_nil : graft top [] children = children := by
  cases top with
  | none => rfl
  | some i =>
    refine List.ext_getElem? fun j => ?_
    simp [graft, List.getElem?_modify]

theorem Grown.refl (h : ∀ i, top = some i → i < children.length) : Grown top children children [] :=
  ⟨h, [], by rw [graft_nil, List.append_nil], .nil⟩

theorem Grown.trans (h : Grown top children children' roots)
    (h' : Grown top children' children'' roots') :
    Grown top children children'' (roots ++ roots') := by
  obtain ⟨hbelow, block, rfl, hspans⟩ := h
  obtain ⟨-, block', rfl, hspans'⟩ := h'
  have hlen : (graft top roots children ++ block).length = children.length + block.length := by simp
  rw [hlen] at hspans'
  have heq : graft top roots' (graft top roots children ++ block) =
      graft top (roots ++ roots') children ++ block := by
    rw [graft_append _ (by simpa using hbelow), graft_graft]
  refine ⟨hbelow, block ++ block', by rw [heq, List.append_assoc], ?_⟩
  have hrange : List.range' children.length (block ++ block').length =
      List.range' children.length block.length ++
        List.range' (children.length + block.length) block'.length := by
    rw [List.length_append, ← List.range'_append_1]
  rw [hrange]
  refine (hspans.congr fun j hj => ?_).append hspans'
  -- the first trees have no node that got children later
  have hj := List.mem_range'_1.1 hj
  rw [List.getElem?_append_left (by simp; omega)]
  exact getElem?_graft fun ht => absurd (hbelow j ht) (by omega)

/-- A new node, and then what is made below it. -/
theorem Grown.node {kids : List Nat} (hbelow : ∀ i, top = some i → i < children.length)
    (h : Grown (some children.length) (graft top [children.length] children ++ [[]]) children' kids) :
    Grown top children children' [children.length] := by
  obtain ⟨-, block, heq, hspans⟩ := h
  have hnode : graft (some children.length) kids (graft top [children.length] children ++ [[]]) =
      graft top [children.length] children ++ [kids] := by
    have hlen : (graft top [children.length] children).length = children.length := length_graft
    refine List.ext_getElem? fun j => ?_
    simp only [graft_some, List.getElem?_modify, List.getElem?_append, hlen]
    rcases Nat.lt_trichotomy j children.length with hj | rfl | hj
    · have hne : children.length ≠ j := by omega
      simp [hj, hne]
    · simp
    · have hne : children.length ≠ j := by omega
      have hpos : j - children.length ≠ 0 := by omega
      simp [hne, Nat.not_lt_of_gt hj, hpos]
  rw [hnode, List.append_assoc] at heq
  refine ⟨hbelow, kids :: block, heq, ?_⟩
  rw [List.length_cons, List.range'_succ]
  rw [List.length_append, length_graft, List.length_singleton] at hspans
  have hself : children'[children.length]? = some kids := by
    rw [heq, List.getElem?_append_right (by simp)]
    simp
  have := Spans.cons hself hspans .nil
  rwa [List.append_nil] at this

end Lib
