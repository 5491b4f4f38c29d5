import LibAmqp.Lib.Heap

/-!
# Singly linked lists in a heap

`Path next h a cells`: from address `a` on, the cells follow one another by `next`. A cell can be on
several paths, each by a link of its own.

* `Path.malloc`: a new cell in front.
* `Path.free`: the first cell released.
-/

namespace Lib

variable {β : Type}

def Path (next : β → Nat) (h : Heap β) : Nat → List (Nat × β) → Prop
  | a, [] => a = 0
  | a, (x, c) :: cells => x = a ∧ h.get a = some c ∧ Path next h (next c) cells

namespace Path

variable {next : β → Nat} {h h' : Heap β} {a : Nat} {cells : List (Nat × β)}

theorem get : ∀ {cells : List (Nat × β)} {a : Nat}, Path next h a cells → ∀ x ∈ cells,
    h.get x.1 = some x.2
  | (_, _) :: _, _, ⟨rfl, hc, hpath⟩, x, hx => by
    rcases List.mem_cons.1 hx with rfl | hx
    · exact hc
    · exact hpath.get x hx

/-- A path only depends on its own cells. -/
theorem congr : ∀ {cells : List (Nat × β)} {a : Nat}, Path next h a cells →
    (∀ x ∈ cells, h'.get x.1 = some x.2) → Path next h' a cells
  | [], _, hpath, _ => hpath
  | (x, c) :: _, _, ⟨hx, _, hpath⟩, hget =>
    ⟨hx, hx ▸ hget (x, c) (.head _), hpath.congr fun y hy => hget y (.tail _ hy)⟩

theorem malloc_other (hpath : Path next h a cells) (M : Malloc) (v : β) :
    Path next (h.malloc M v).2 a cells :=
  hpath.congr fun x hx => Heap.get_malloc_of_some (hpath.get x hx)

/-- A new cell in front of the others. -/
theorem malloc (hpath : Path next h a cells) (M : Malloc) {v : β} (hv : next v = a) :
    Path next (h.malloc M v).2 (M.pick h.dom) ((M.pick h.dom, v) :: cells) := by
  refine ⟨rfl, Heap.get_malloc_self M h v, ?_⟩
  rw [hv]
  exact hpath.malloc_other M v

/-- The rest of a path whose first cell is released. -/
theorem free {x : Nat} {c : β} (hpath : Path next h a ((x, c) :: cells))
    (hnodup : (((x, c) :: cells).map Prod.fst).Nodup) : Path next (h.free x) (next c) cells := by
  rw [List.map_cons, List.nodup_cons] at hnodup
  refine hpath.2.2.congr fun y hy => ?_
  rw [Heap.get_free, if_neg]
  · exact hpath.2.2.get y hy
  · rintro rfl
    exact hnodup.1 (List.mem_map.2 ⟨y, hy, rfl⟩)

theorem eq_zero_iff (hpath : Path next h a cells) : a = 0 ↔ cells = [] := by
  cases cells with
  | nil => exact iff_of_true hpath rfl
  | cons x cells =>
    obtain ⟨-, hc, -⟩ := hpath
    refine iff_of_false (fun ha => ?_) (List.cons_ne_nil _ _)
    rw [ha, Heap.get_zero] at hc
    cases hc

end Path
end Lib
