import Mathlib.Data.List.Basic

/-!
# Ordered forests with holes

A `Forest` is a list of trees, some of them missing: `node a kids rest` is a tree with root `a` and
children `kids`, before the trees `rest`. One inductive type stands for trees and for lists of
trees, so that a property of either is proved by plain induction.

* `All p`: every node satisfies `p`; `p` may look at the children.
* `labels`: the nodes in the order in which a post-order walk leaves them.
-/

namespace Lib

inductive Forest (α : Type)
  | nil
  | hole (rest : Forest α)
  | node (a : α) (kids rest : Forest α)
  deriving DecidableEq, Repr

namespace Forest

variable {α β : Type}

/-- The number of trees, missing ones included. -/
def length : Forest α → Nat
  | nil => 0
  | hole rest => rest.length + 1
  | node _ _ rest => rest.length + 1

/-- One more tree in front, or a hole. -/
def cons (tree : Option (α × Forest α)) (rest : Forest α) : Forest α :=
  match tree with
  | none => hole rest
  | some (a, kids) => node a kids rest

def map (f : α → β) : Forest α → Forest β
  | nil => nil
  | hole rest => hole (rest.map f)
  | node a kids rest => node (f a) (kids.map f) (rest.map f)

/-- Every node, with its children, satisfies `p`. -/
def All (p : α → Forest α → Prop) : Forest α → Prop
  | nil => True
  | hole rest => rest.All p
  | node a kids rest => p a kids ∧ kids.All p ∧ rest.All p

/-- No tree of the list is missing. -/
def Full : Forest α → Prop
  | nil => True
  | hole _ => False
  | node _ _ rest => rest.Full

/-- One list of trees after another. -/
def append : Forest α → Forest α → Forest α
  | nil, G => G
  | hole rest, G => hole (rest.append G)
  | node a kids rest, G => node a kids (rest.append G)

/-- The roots, `none` for a hole. -/
def roots : Forest α → List (Option α)
  | nil => []
  | hole rest => none :: rest.roots
  | node a _ rest => some a :: rest.roots

/-- The tree at a place of the list, `none` for a hole and past the end. -/
def nth : Forest α → Nat → Option (α × Forest α)
  | nil, _ => none
  | hole _, 0 => none
  | hole rest, i + 1 => rest.nth i
  | node a kids _, 0 => some (a, kids)
  | node _ _ rest, i + 1 => rest.nth i

/-- The nodes, each after its children. -/
def labels : Forest α → List α
  | nil => []
  | hole rest => rest.labels
  | node a kids rest => kids.labels ++ a :: rest.labels

/-- The sum of a weight over the nodes. -/
def sum (w : α → Forest α → Nat) : Forest α → Nat
  | nil => 0
  | hole rest => rest.sum w
  | node a kids rest => w a kids + (kids.sum w + rest.sum w)

instance decidableAll (p : α → Forest α → Prop) [∀ a kids, Decidable (p a kids)] :
    ∀ F : Forest α, Decidable (F.All p)
  | nil => isTrue trivial
  | hole rest => decidableAll p rest
  | node a kids rest =>
    have := decidableAll p kids
    have := decidableAll p rest
    inferInstanceAs (Decidable (p a kids ∧ kids.All p ∧ rest.All p))

instance decidableFull : ∀ F : Forest α, Decidable F.Full
  | nil => isTrue trivial
  | hole _ => isFalse id
  | node _ _ rest => decidableFull rest

variable {p q : α → Forest α → Prop}

@[simp] theorem length_map (f : α → β) : ∀ F : Forest α, (F.map f).length = F.length
  | nil => rfl
  | hole rest => by simp [map, length, length_map f rest]
  | node _ _ rest => by simp [map, length, length_map f rest]

@[simp] theorem length_roots : ∀ F : Forest α, F.roots.length = F.length
  | nil => rfl
  | hole rest => by simp [roots, length, length_roots rest]
  | node _ _ rest => by simp [roots, length, length_roots rest]

theorem roots_map (f : α → β) : ∀ F : Forest α, (F.map f).roots = F.roots.map (Option.map f)
  | nil => rfl
  | hole rest => by simp [map, roots, roots_map f rest]
  | node _ _ rest => by simp [map, roots, roots_map f rest]

theorem nth_map (f : α → β) (F : Forest α) : ∀ i,
    (F.map f).nth i = (F.nth i).map fun t => (f t.1, t.2.map f) := by
  induction F with
  | nil => exact fun _ => rfl
  | hole rest ih =>
    intro i
    cases i with
    | zero => rfl
    | succ i => exact ih i
  | node a kids rest _ ih =>
    intro i
    cases i with
    | zero => rfl
    | succ i => exact ih i

/-- The root at a place. -/
theorem roots_getElem? (F : Forest α) : ∀ i < F.length, F.roots[i]? = some ((F.nth i).map Prod.fst) := by
  induction F with
  | nil =>
    intro i hi
    cases hi
  | hole rest ih =>
    intro i hi
    cases i with
    | zero => rfl
    | succ i => exact ih i (Nat.lt_of_succ_lt_succ hi)
  | node a kids rest _ ih =>
    intro i hi
    cases i with
    | zero => rfl
    | succ i => exact ih i (Nat.lt_of_succ_lt_succ hi)

theorem nth_of_length_le (F : Forest α) : ∀ i, F.length ≤ i → F.nth i = none := by
  induction F with
  | nil => exact fun _ _ => rfl
  | hole rest ih =>
    intro i hi
    cases i with
    | zero => cases hi
    | succ i => exact ih i (Nat.le_of_succ_le_succ hi)
  | node a kids rest _ ih =>
    intro i hi
    cases i with
    | zero => cases hi
    | succ i => exact ih i (Nat.le_of_succ_le_succ hi)

theorem full_map (f : α → β) : ∀ F : Forest α, (F.map f).Full ↔ F.Full
  | nil => Iff.rfl
  | hole _ => Iff.rfl
  | node _ _ rest => full_map f rest

theorem map_cons (f : α → β) (tree : Option (α × Forest α)) (rest : Forest α) :
    (cons tree rest).map f = cons (tree.map fun t => (f t.1, t.2.map f)) (rest.map f) := by
  cases tree <;> rfl

theorem map_append (f : α → β) (F G : Forest α) : (F.append G).map f = (F.map f).append (G.map f) := by
  induction F with
  | nil => rfl
  | hole rest ih => simp only [append, map, ih]
  | node a kids rest _ ih => simp only [append, map, ih]

theorem roots_append (F G : Forest α) : (F.append G).roots = F.roots ++ G.roots := by
  induction F with
  | nil => rfl
  | hole rest ih => simp only [append, roots, ih, List.cons_append]
  | node a kids rest _ ih => simp only [append, roots, ih, List.cons_append]

theorem labels_append (F G : Forest α) : (F.append G).labels = F.labels ++ G.labels := by
  induction F with
  | nil => rfl
  | hole rest ih => simp only [append, labels, ih]
  | node a kids rest _ ih => simp only [append, labels, ih, List.append_assoc, List.cons_append]

theorem labels_map (f : α → β) : ∀ F : Forest α, (F.map f).labels = F.labels.map f
  | nil => rfl
  | hole rest => by simp [map, labels, labels_map f rest]
  | node _ kids rest => by simp [map, labels, labels_map f kids, labels_map f rest]

theorem all_append {F G : Forest α} : (F.append G).All p ↔ F.All p ∧ G.All p := by
  induction F with
  | nil => simp [append, All]
  | hole rest ih => simpa only [append, All] using ih
  | node a kids rest _ ih => simp only [append, All, ih, and_assoc]

theorem all_map (f : α → β) {r : β → Forest β → Prop} {F : Forest α} :
    (F.map f).All r ↔ F.All fun a kids => r (f a) (kids.map f) := by
  induction F with
  | nil => exact Iff.rfl
  | hole rest ih => exact ih
  | node a kids rest ihk ihr => simp only [map, All, ihk, ihr]

theorem sum_map (f : α → β) (w : β → Forest β → Nat) : ∀ F : Forest α,
    (F.map f).sum w = F.sum fun a kids => w (f a) (kids.map f)
  | nil => rfl
  | hole rest => sum_map f w rest
  | node a kids rest => by rw [map, sum, sum, sum_map f w kids, sum_map f w rest]

theorem append_cons (tree : Option (α × Forest α)) (G : Forest α) :
    (cons tree nil).append G = cons tree G := by
  cases tree <;> rfl

theorem All.imp {F : Forest α} (h : ∀ a kids, p a kids → q a kids) (hF : F.All p) : F.All q := by
  induction F with
  | nil => trivial
  | hole rest ih => exact ih hF
  | node a kids rest ihk ihr => exact ⟨h a kids hF.1, ihk hF.2.1, ihr hF.2.2⟩

theorem All.and {F : Forest α} (hp : F.All p) (hq : F.All q) :
    F.All fun a kids => p a kids ∧ q a kids := by
  induction F with
  | nil => trivial
  | hole rest ih => exact ih hp hq
  | node a kids rest ihk ihr => exact ⟨⟨hp.1, hq.1⟩, ihk hp.2.1 hq.2.1, ihr hp.2.2 hq.2.2⟩

/-- What holds of every node holds of the label of each. -/
theorem All.labels {r : α → Prop} {F : Forest α} (h : ∀ a kids, p a kids → r a) (hF : F.All p) :
    ∀ a ∈ F.labels, r a := by
  induction F with
  | nil => exact fun _ ha => nomatch ha
  | hole rest ih => exact ih hF
  | node b kids rest ihk ihr =>
    intro a ha
    rcases List.mem_append.1 ha with ha | ha
    · exact ihk hF.2.1 a ha
    · rcases List.mem_cons.1 ha with rfl | ha
      · exact h a kids hF.1
      · exact ihr hF.2.2 a ha

/-- A tree of the list, with what every node satisfies. -/
theorem All.nth {F : Forest α} (hF : F.All p) : ∀ {i : Nat} {a : α} {kids : Forest α},
    F.nth i = some (a, kids) → p a kids ∧ kids.All p := by
  induction F with
  | nil =>
    intro i a kids h
    cases h
  | hole rest ih =>
    intro i a kids h
    cases i with
    | zero => cases h
    | succ i => exact ih hF h
  | node b ks rest _ ih =>
    intro i a kids h
    cases i with
    | zero =>
      cases h
      exact ⟨hF.1, hF.2.1⟩
    | succ i => exact ih hF.2.2 h

theorem all_of_labels {r : α → Prop} {F : Forest α} (h : ∀ a ∈ F.labels, r a) :
    F.All fun a _ => r a := by
  induction F with
  | nil => trivial
  | hole rest ih => exact ih h
  | node b kids rest ihk ihr =>
    simp only [labels, List.mem_append, List.mem_cons] at h
    exact ⟨h b (.inr (.inl rfl)), ihk fun a ha => h a (.inl ha),
      ihr fun a ha => h a (.inr (.inr ha))⟩

theorem mem_labels_of_roots {F : Forest α} {a : α} (h : some a ∈ F.roots) : a ∈ F.labels := by
  induction F with
  | nil => cases h
  | hole rest ih =>
    simp only [roots, List.mem_cons, reduceCtorEq, false_or] at h
    exact ih h
  | node b kids rest _ ih =>
    simp only [roots, List.mem_cons, Option.some.injEq] at h
    simp only [labels, List.mem_append, List.mem_cons]
    exact h.elim (fun h => .inr (.inl h)) fun h => .inr (.inr (ih h))

/-- The children of a node are nodes. -/
theorem all_roots_mem {L : List α} {F : Forest α} (h : ∀ a ∈ F.labels, a ∈ L) :
    F.All fun _ kids => ∀ a, some a ∈ kids.roots → a ∈ L := by
  induction F with
  | nil => trivial
  | hole rest ih => exact ih h
  | node b kids rest ihk ihr =>
    simp only [labels, List.mem_append, List.mem_cons] at h
    exact ⟨fun a ha => h a (.inl (mem_labels_of_roots ha)), ihk fun a ha => h a (.inl ha),
      ihr fun a ha => h a (.inr (.inr ha))⟩

end Forest
end Lib
