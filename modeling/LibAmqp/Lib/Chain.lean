import LibAmqp.Lib.Heap

/-!
# Doubly linked lists in a heap

`Links β` says how a cell stores its two links. `Seg L h p a xs q b`: starting at address `a`,
the cells `xs` follow one another by their `next` links; the first one's `prev` is `p`, the last
one is `q` and its `next` is `b` (`q = p` and `b = a` for no cells). `Chain L h a xs` is a whole
list: no cell before the first, none after the last.

* `Seg.append`: segments compose.
* `Chain.push`: a new cell linked before the head.
* `Chain.unlink`: a cell taken out, wherever it stands.
-/

namespace Lib

/-- The two links of a cell. -/
structure Links (β : Type) where
  next : β → Nat
  prev : β → Nat
  setNext : β → Nat → β
  setPrev : β → Nat → β
  next_setNext : ∀ b n, next (setNext b n) = n
  prev_setNext : ∀ b n, prev (setNext b n) = prev b
  next_setPrev : ∀ b n, next (setPrev b n) = next b
  prev_setPrev : ∀ b n, prev (setPrev b n) = n

attribute [simp] Links.next_setNext Links.prev_setNext Links.next_setPrev Links.prev_setPrev

variable {β : Type} (L : Links β)

def Seg (h : Heap β) : Nat → Nat → List Nat → Nat → Nat → Prop
  | p, a, [], q, b => q = p ∧ b = a
  | p, a, x :: xs, q, b => x = a ∧ ∃ c, h.get a = some c ∧ L.prev c = p ∧ Seg h a (L.next c) xs q b

/-- A whole list from its head. -/
def Chain (h : Heap β) (a : Nat) (xs : List Nat) : Prop := ∃ q, Seg L h 0 a xs q 0

variable {L} {h : Heap β}

theorem Seg.append {xs ys : List Nat} : ∀ {p a q b : Nat}, Seg L h p a (xs ++ ys) q b ↔
    ∃ q' b', Seg L h p a xs q' b' ∧ Seg L h q' b' ys q b := by
  induction xs with
  | nil =>
    intro p a q b
    exact ⟨fun hs => ⟨p, a, ⟨rfl, rfl⟩, hs⟩, by rintro ⟨_, _, ⟨rfl, rfl⟩, hs⟩; exact hs⟩
  | cons x xs ih =>
    intro p a q b
    simp only [List.cons_append, Seg]
    constructor
    · rintro ⟨hx, c, hc, hp, hs⟩
      obtain ⟨q', b', h1, h2⟩ := ih.1 hs
      exact ⟨q', b', ⟨hx, c, hc, hp, h1⟩, h2⟩
    · rintro ⟨q', b', ⟨hx, c, hc, hp, h1⟩, h2⟩
      exact ⟨hx, c, hc, hp, ih.2 ⟨q', b', h1, h2⟩⟩

/-- A segment only depends on its own cells. -/
theorem Seg.congr {h' : Heap β} : ∀ {xs : List Nat} {p a q b : Nat}, Seg L h p a xs q b →
    (∀ x ∈ xs, h'.get x = h.get x) → Seg L h' p a xs q b
  | [], _, _, _, _, hs, _ => hs
  | x :: xs, p, a, q, b, ⟨hx, c, hc, hp, hs⟩, heq => by
    refine ⟨hx, c, ?_, hp, Seg.congr hs fun y hy => heq y (.tail _ hy)⟩
    rw [heq a (hx ▸ .head _), hc]

theorem Seg.get {xs : List Nat} : ∀ {p a q b : Nat}, Seg L h p a xs q b →
    ∀ x ∈ xs, ∃ c, h.get x = some c := by
  induction xs with
  | nil => intro p a q b _ x hx; cases hx
  | cons y ys ih =>
    rintro p a q b ⟨rfl, c, hc, -, hs⟩ x hx
    rcases List.mem_cons.1 hx with rfl | hx
    · exact ⟨c, hc⟩
    · exact ih hs x hx

/-- The last cell of a non-empty segment is one of its cells. -/
theorem Seg.last_mem : ∀ {xs : List Nat} {p a q b : Nat}, Seg L h p a xs q b → xs ≠ [] → q ∈ xs
  | [], _, _, _, _, _, hne => absurd rfl hne
  | x :: xs, p, a, q, b, ⟨hx, c, hc, hp, hs⟩, _ => by
    by_cases hxs : xs = []
    · subst hxs; rw [hs.1, ← hx]; exact .head _
    · exact .tail _ (hs.last_mem hxs)

/-- Repointing the first cell's `prev`. -/
theorem Seg.setPrev {xs : List Nat} {p p' a q b : Nat} (hs : Seg L h p a xs q b) (hn : xs.Nodup)
    (hne : xs ≠ []) : Seg L (h.modify a (L.setPrev · p')) p' a xs q b := by
  match xs, hs, hne with
  | x :: xs, ⟨hx, c, hc, hp, hs⟩, _ =>
    subst hx
    refine ⟨rfl, _, Heap.get_modify_self hc, L.prev_setPrev _ _, ?_⟩
    rw [L.next_setPrev]
    refine hs.congr fun y hy => Heap.get_modify_ne _ ?_
    rintro rfl
    exact (List.nodup_cons.1 hn).1 hy

/-- Repointing the last cell's `next`. -/
theorem Seg.setNext {b' : Nat} : ∀ {xs : List Nat} {p a q b : Nat}, Seg L h p a xs q b → xs.Nodup →
    xs ≠ [] → Seg L (h.modify q (L.setNext · b')) p a xs q b'
  | [x], p, a, q, b, ⟨hx, c, hc, hp, hq, hb⟩, _, _ => by
    subst hx hq
    exact ⟨rfl, _, Heap.get_modify_self hc, by rw [L.prev_setNext, hp], rfl, by rw [L.next_setNext]⟩
  | x :: y :: xs, p, a, q, b, ⟨hx, c, hc, hp, hs⟩, hn, _ => by
    subst hx
    have hn' := List.nodup_cons.1 hn
    refine ⟨rfl, c, ?_, hp, Seg.setNext hs hn'.2 (by simp)⟩
    rw [Heap.get_modify_ne _ ?_, hc]
    rintro rfl
    exact hn'.1 (hs.last_mem (by simp))

/-- The address a segment starts at is its first cell. -/
theorem Seg.head_mem {xs : List Nat} {p a q b : Nat} (hs : Seg L h p a xs q b) (hne : xs ≠ []) :
    a ∈ xs := by
  match xs, hs, hne with
  | x :: xs, ⟨hx, _⟩, _ => exact hx ▸ .head _

theorem Chain.nil : Chain L h 0 [] := ⟨0, rfl, rfl⟩

theorem Chain.get {a : Nat} {xs : List Nat} (hc : Chain L h a xs) {x : Nat} (hx : x ∈ xs) :
    ∃ c, h.get x = some c :=
  hc.elim fun _ hs => hs.get x hx

theorem Chain.congr {h' : Heap β} {a : Nat} {xs : List Nat} (hc : Chain L h a xs)
    (heq : ∀ x ∈ xs, h'.get x = h.get x) : Chain L h' a xs :=
  hc.elim fun q hs => ⟨q, hs.congr heq⟩

/-- Relinking cells that keep both their links. -/
theorem Seg.congr_links {h' : Heap β} : ∀ {xs : List Nat} {p a q b : Nat}, Seg L h p a xs q b →
    (∀ x ∈ xs, ∀ c, h.get x = some c → ∃ c', h'.get x = some c' ∧ L.next c' = L.next c ∧
      L.prev c' = L.prev c) → Seg L h' p a xs q b
  | [], _, _, _, _, hs, _ => hs
  | x :: xs, p, a, q, b, ⟨hx, c, hc, hp, hs⟩, heq => by
    subst hx
    obtain ⟨c', hc', hn, hp'⟩ := heq x (.head _) c hc
    refine ⟨rfl, c', hc', by rw [hp', hp], ?_⟩
    rw [hn]
    exact Seg.congr_links hs fun y hy => heq y (.tail _ hy)

theorem Chain.congr_links {h' : Heap β} {a : Nat} {xs : List Nat} (hc : Chain L h a xs)
    (heq : ∀ x ∈ xs, ∀ c, h.get x = some c → ∃ c', h'.get x = some c' ∧ L.next c' = L.next c ∧
      L.prev c' = L.prev c) : Chain L h' a xs :=
  hc.elim fun q hs => ⟨q, hs.congr_links heq⟩

/-- A new cell linked in before the head. -/
theorem Chain.push {a x : Nat} {xs : List Nat} {c : β} {h' : Heap β} (hc : Chain L h a xs)
    (hn : xs.Nodup) (hx : x ∉ xs) (hget : h'.get x = some c) (hnext : L.next c = a)
    (hprev : L.prev c = 0) (hother : ∀ y ∈ xs, h'.get y = (h.modify a (L.setPrev · x)).get y) :
    Chain L h' x (x :: xs) := by
  obtain ⟨q, hs⟩ := hc
  refine ⟨if xs = [] then x else q, rfl, c, hget, hprev, ?_⟩
  rw [hnext]
  by_cases hxs : xs = []
  · subst hxs
    rw [if_pos rfl]
    exact ⟨rfl, hs.2⟩
  · rw [if_neg hxs]
    exact (hs.setPrev hn hxs).congr hother

/-- The heap after a cell with links `p` and `n` was taken out of its list. -/
def unlinked (L : Links β) (h : Heap β) (x p n : Nat) : Heap β :=
  ((h.modify n (L.setPrev · p)).modify p (L.setNext · n)).free x

/-- Taking a cell out of its list, from the head, the middle or the end. -/
theorem Chain.unlink {a x : Nat} {xs ys : List Nat} {c : β} (hc : Chain L h a (xs ++ x :: ys))
    (hn : (xs ++ x :: ys).Nodup) (hx : h.get x = some c) :
    Chain L (unlinked L h x (L.prev c) (L.next c)) (if L.prev c = 0 then L.next c else a)
      (xs ++ ys) := by
  obtain ⟨q, hs⟩ := hc
  obtain ⟨q1, b1, h1, hx1, c', hc', hp', h2⟩ := Seg.append.1 hs
  subst hx1
  obtain rfl : c' = c := by rw [hc'] at hx; exact Option.some.inj hx
  obtain ⟨hnx, hnc, hdis⟩ := List.nodup_append.1 hn
  obtain ⟨hxy, hny⟩ := List.nodup_cons.1 hnc
  have hxx : ∀ y ∈ xs, y ≠ x := fun y hy => hdis y hy x (.head _)
  have hxys : ∀ y ∈ xs, y ∉ ys := fun y hy hy' => hdis y hy y (.tail _ hy') rfl
  have hpos : ∀ y ∈ xs, y ≠ 0 := by
    rintro y hy rfl
    obtain ⟨d, hd⟩ := h1.get 0 hy
    simp at hd
  rw [hp']
  -- the cells after `x`, with the first one repointed to the cell before `x`
  have hys : ∀ q', (xs = [] → q' = 0) → (xs ≠ [] → q' ∈ xs) →
      ∃ r, Seg L (unlinked L h x q' (L.next c')) q' (L.next c') ys r 0 := by
    intro q' hq0 hqm
    by_cases hy : ys = []
    · subst hy
      exact ⟨q', rfl, h2.2⟩
    · refine ⟨q, (h2.setPrev hny hy).congr fun y hyy => ?_⟩
      have hyx : y ≠ x := by rintro rfl; exact hxy hyy
      have hyq : y ≠ q' := by
        rintro rfl
        by_cases hxs : xs = []
        · have := hq0 hxs
          subst this
          obtain ⟨d, hd⟩ := h2.get 0 hyy
          simp at hd
        · exact hxys _ (hqm hxs) hyy
      rw [unlinked, Heap.get_free, if_neg hyx, Heap.get_modify_ne _ hyq]
  by_cases hxs : xs = []
  · subst hxs
    obtain ⟨rfl, -⟩ := h1
    rw [if_pos rfl]
    obtain ⟨r, hr⟩ := hys 0 (fun _ => rfl) (fun h => absurd rfl h)
    exact ⟨r, hr⟩
  · have hq1 := h1.last_mem hxs
    rw [if_neg (hpos _ hq1)]
    obtain ⟨r, hr⟩ := hys q1 (fun h => absurd h hxs) (fun _ => hq1)
    refine ⟨r, Seg.append.2 ⟨q1, L.next c', (h1.setNext hnx hxs).congr fun y hy => ?_, hr⟩⟩
    have hynx : y ≠ L.next c' := by
      rintro rfl
      by_cases hy' : ys = []
      · subst hy'
        exact hpos _ hy h2.2.symm
      · exact hxys _ hy (h2.head_mem hy')
    rw [unlinked, Heap.get_free, if_neg (hxx y hy)]
    by_cases hne : y = q1
    · subst hne
      obtain ⟨d, hd⟩ := h1.get y hy
      have hd' : (h.modify (L.next c') (L.setPrev · y)).get y = some d := by
        rw [Heap.get_modify_ne _ hynx, hd]
      rw [Heap.get_modify_self hd', Heap.get_modify_self hd]
    · rw [Heap.get_modify_ne _ hne, Heap.get_modify_ne _ hne, Heap.get_modify_ne _ hynx]

end Lib
