import Mathlib.Data.List.Nodup

/-!
# Chained hash tables

A table of chains of entries, by bucket. An entry is added in front of its bucket's chain unless the
chain has its key; which bucket a key belongs to is the caller's business.

* `get_fill`: a table filled with entries of different keys has exactly these.
-/

namespace Lib

structure HashTable (κ ν : Type) where
  buckets : Nat → List (κ × ν)

namespace HashTable

variable {κ ν : Type} {same : κ → κ → Bool}

def empty : HashTable κ ν := ⟨fun _ => []⟩

/-- The first entry of a chain that has the key. -/
def search (same : κ → κ → Bool) (chain : List (κ × ν)) (k : κ) : Option ν :=
  (chain.find? fun e => same e.1 k).map Prod.snd

def get (same : κ → κ → Bool) (t : HashTable κ ν) (i : Nat) (k : κ) : Option ν :=
  search same (t.buckets i) k

def put (same : κ → κ → Bool) (t : HashTable κ ν) (i : Nat) (k : κ) (v : ν) : HashTable κ ν :=
  if (search same (t.buckets i) k).isSome then t
  else ⟨fun j => if j = i then (k, v) :: t.buckets i else t.buckets j⟩

/-- Put entries one after the other, each in the bucket of its key. -/
def fill (same : κ → κ → Bool) (bucket : κ → Nat) : List (κ × ν) → HashTable κ ν → HashTable κ ν
  | [], t => t
  | (k, v) :: rest, t => fill same bucket rest (put same t (bucket k) k v)

theorem search_none (hsame : ∀ a b, same a b = true ↔ a = b) {chain : List (κ × ν)} {k : κ} :
    search same chain k = none ↔ ∀ v, (k, v) ∉ chain := by
  rw [search, Option.map_eq_none_iff, List.find?_eq_none]
  constructor
  · intro h v hv
    exact h (k, v) hv ((hsame k k).2 rfl)
  · intro h e he hk
    obtain rfl := (hsame e.1 k).1 hk
    exact h e.2 he

theorem mem_of_search (hsame : ∀ a b, same a b = true ↔ a = b) {chain : List (κ × ν)} {k : κ} {v : ν}
    (h : search same chain k = some v) : (k, v) ∈ chain := by
  rw [search, Option.map_eq_some_iff] at h
  obtain ⟨e, he, rfl⟩ := h
  have hk : same e.1 k = true := List.find?_some (p := fun e : κ × ν => same e.1 k) he
  obtain rfl := (hsame e.1 k).1 hk
  exact List.mem_of_find?_eq_some he

/-- The entries of a filled table, by bucket. -/
theorem mem_fill (hsame : ∀ a b, same a b = true ↔ a = b) (bucket : κ → Nat) :
    ∀ {entries : List (κ × ν)} {t : HashTable κ ν}, (entries.map Prod.fst).Nodup →
      (∀ e ∈ entries, ∀ v, (e.1, v) ∉ t.buckets (bucket e.1)) → ∀ (i : Nat) (e : κ × ν),
      e ∈ (fill same bucket entries t).buckets i ↔
        e ∈ t.buckets i ∨ e ∈ entries ∧ bucket e.1 = i := by
  intro entries
  induction entries with
  | nil => simp [fill]
  | cons head rest ih =>
    obtain ⟨k, v⟩ := head
    intro t hnodup hnew i e
    rw [List.map_cons, List.nodup_cons] at hnodup
    have hnone : search same (t.buckets (bucket k)) k = none :=
      (search_none hsame).2 (hnew (k, v) (.head _))
    have hput : ∀ j, (put same t (bucket k) k v).buckets j =
        if j = bucket k then (k, v) :: t.buckets (bucket k) else t.buckets j := by
      intro j
      rw [put, hnone]
      rfl
    rw [fill, ih hnodup.2, hput]
    · by_cases hi : i = bucket k
      · subst hi
        rw [if_pos rfl, List.mem_cons, List.mem_cons]
        constructor
        · rintro ((rfl | h) | h)
          · exact .inr ⟨.inl rfl, rfl⟩
          · exact .inl h
          · exact .inr ⟨.inr h.1, h.2⟩
        · rintro (h | ⟨rfl | h, hb⟩)
          · exact .inl (.inr h)
          · exact .inl (.inl rfl)
          · exact .inr ⟨h, hb⟩
      · rw [if_neg hi, List.mem_cons]
        refine or_congr_right (and_congr_left fun hb => ?_)
        refine ⟨.inr, fun h => h.resolve_left ?_⟩
        rintro rfl
        exact hi hb.symm
    · intro e' he' w hmem
      rw [hput] at hmem
      split at hmem
      · rename_i hb
        rcases List.mem_cons.1 hmem with h | h
        · exact hnodup.1 (List.mem_map.2 ⟨e', he', (Prod.mk.injEq .. ▸ h).1⟩)
        · exact hnew e' (.tail _ he') w (hb ▸ h)
      · exact hnew e' (.tail _ he') w hmem

/-- What is found in a filled table is one of its entries, whichever bucket is searched. -/
theorem mem_of_get_fill (hsame : ∀ a b, same a b = true ↔ a = b) {bucket : κ → Nat}
    {entries : List (κ × ν)} (hnodup : (entries.map Prod.fst).Nodup) {i : Nat} {k : κ} {v : ν}
    (h : get same (fill same bucket entries empty) i k = some v) : (k, v) ∈ entries := by
  have hmem := mem_fill hsame bucket (t := (empty : HashTable κ ν)) hnodup
    (fun _ _ _ h => nomatch h) i (k, v)
  have hbucket := hmem.1 (mem_of_search hsame h)
  exact (hbucket.resolve_left fun h => nomatch h).1

/-- Looking up a key in a table filled with entries of different keys. -/
theorem get_fill (hsame : ∀ a b, same a b = true ↔ a = b) {bucket : κ → Nat}
    {entries : List (κ × ν)} (hnodup : (entries.map Prod.fst).Nodup) (k : κ) (v : ν) :
    get same (fill same bucket entries empty) (bucket k) k = some v ↔ (k, v) ∈ entries := by
  have hmem := mem_fill hsame bucket (t := (empty : HashTable κ ν)) hnodup
    (fun _ _ _ h => nomatch h) (bucket k)
  have hiff : ∀ w, (k, w) ∈ (fill same bucket entries empty).buckets (bucket k) ↔
      (k, w) ∈ entries := by
    intro w
    rw [hmem]
    simp [empty]
  constructor
  · intro h
    exact (hiff v).1 (mem_of_search hsame h)
  · intro h
    cases hget : get same (fill same bucket entries empty) (bucket k) k with
    | none => exact absurd ((hiff v).2 h) ((search_none hsame).1 hget v)
    | some w =>
      have hw := (hiff w).1 (mem_of_search hsame hget)
      have := List.inj_on_of_nodup_map hnodup h hw rfl
      rw [Prod.mk.injEq] at this
      rw [this.2]

end HashTable
end Lib
