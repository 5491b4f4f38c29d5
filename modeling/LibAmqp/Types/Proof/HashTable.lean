import LibAmqp.Types.Proof.Bits

/-!
# Hash tables are finite maps

`Inv`: all entries are on one path, and those of a bucket, in the same order, are on the path of that
bucket. Every call keeps this and does what the finite map does (`Inv.step`).

* `refines_map`: any calls on a new table.
-/

namespace Amqp.AmqpHashTable

open Lib

/-! ## The paths -/

section
variable {κ : Type} {K : Keys κ} {M : Malloc} {s : State κ} {cells : List (Nat × AmqpEntry κ)} {key : κ}
  {data : Nat} {m : K.Map}

/-- All entries, in the order of `entry_list`, are `cells`. -/
structure Inv (K : Keys κ) (s : State κ) (cells : List (Nat × AmqpEntry κ)) : Prop where
  hash : s.map.hash = K.hash
  compare : s.map.compare = K.compare
  capacity : ∃ k ≤ 30, s.map.capacity = 2 ^ k
  entries : Path AmqpEntry.entryNext s.heap s.map.entryList cells
  chains : ∀ i < s.map.capacity, Path AmqpEntry.collisionNext s.heap (s.map.buckets i)
    (cells.filter fun c => (K.hash c.2.key).toNat % s.map.capacity = i)
  dom : s.heap.dom = cells.map Prod.fst
  count : s.map.count = cells.length
  distinct : (cells.map fun c => K.classOf c.2.key).Nodup

theorem Inv.index (h : Inv K s cells) (key : κ) : (K.hash key).toNat % s.map.capacity < s.map.capacity ∧
    s.map.calculateIndex key = ((K.hash key).toNat % s.map.capacity : Nat) := by
  obtain ⟨k, hk, hcap⟩ := h.capacity
  have hlt : (K.hash key).toNat % 2 ^ k < 2 ^ k := Nat.mod_lt _ (Nat.two_pow_pos k)
  rw [calculateIndex_eq hcap (by omega), h.hash, hcap]
  exact ⟨hlt, rfl⟩

/-- A key that compares equal has the same class, and the same hash. -/
theorem Keys.classOf_eq {a b : κ} : K.classOf a = K.classOf b ↔ K.compare a b = 0 :=
  Quotient.eq (r := K.setoid)

/-- The first entry of a path that has the key. -/
theorem searchChain_spec (hcompare : s.map.compare = K.compare) : ∀ {ys : List (Nat × AmqpEntry κ)}
    {fuel a : Nat}, Path AmqpEntry.collisionNext s.heap a ys → ys.length < fuel →
    ∃ found, searchChain s fuel a key = .ok found ∧
      ((found = 0 ∧ ∀ c ∈ ys, K.classOf c.2.key ≠ K.classOf key) ∨
        ∃ c ∈ ys, found = c.1 ∧ c.1 ≠ 0 ∧ K.classOf c.2.key = K.classOf key) := by
  intro ys
  induction ys with
  | nil =>
    intro fuel a hpath hfuel
    obtain ⟨fuel, rfl⟩ := Nat.exists_eq_succ_of_ne_zero (Nat.ne_zero_of_lt hfuel)
    rw [searchChain, if_pos (show a = 0 from hpath)]
    exact ⟨0, rfl, .inl ⟨rfl, nofun⟩⟩
  | cons c ys ih =>
    intro fuel a hpath hfuel
    obtain ⟨fuel, rfl⟩ := Nat.exists_eq_succ_of_ne_zero (Nat.ne_zero_of_lt hfuel)
    have hne : a ≠ 0 := fun ha => List.cons_ne_nil _ _ (hpath.eq_zero_iff.1 ha)
    obtain ⟨rfl, hc, hrest⟩ := hpath
    rw [searchChain, if_neg hne, hc]
    dsimp only
    rw [hcompare]
    by_cases hkey : K.compare c.2.key key = 0
    · rw [if_neg (not_not_intro hkey)]
      exact ⟨_, rfl, .inr ⟨c, .head _, rfl, hne, Keys.classOf_eq.2 hkey⟩⟩
    · rw [if_pos hkey]
      obtain ⟨found, hfound, hcases⟩ := ih hrest (Nat.lt_of_succ_lt_succ hfuel)
      refine ⟨found, hfound, ?_⟩
      rcases hcases with ⟨hzero, hnone⟩ | ⟨d, hd, hsome⟩
      · refine .inl ⟨hzero, fun d hd => ?_⟩
        rcases List.mem_cons.1 hd with rfl | hd
        · exact mt Keys.classOf_eq.1 hkey
        · exact hnone d hd
      · exact .inr ⟨d, .tail _ hd, hsome⟩

/-- Every entry of the key's class is in the bucket that is searched. -/
theorem Inv.search (h : Inv K s cells) (key : κ) :
    ∃ found, searchChain s s.fuel (s.map.buckets ((K.hash key).toNat % s.map.capacity)) key = .ok found ∧
      ((found = 0 ∧ K.classOf key ∉ cells.map fun c => K.classOf c.2.key) ∨
        ∃ c ∈ cells, found = c.1 ∧ c.1 ≠ 0 ∧ K.classOf c.2.key = K.classOf key) := by
  have hlen := congrArg List.length h.dom
  rw [List.length_map] at hlen
  obtain ⟨found, hfound, hcases⟩ := @searchChain_spec κ K s key h.compare _ s.fuel _
    (h.chains _ (h.index key).1) (by
      unfold State.fuel
      rw [hlen]
      exact Nat.lt_succ_of_le (List.length_filter_le _ _))
  refine ⟨found, hfound, ?_⟩
  rcases hcases with ⟨hzero, hnone⟩ | ⟨c, hc, hsome⟩
  · refine .inl ⟨hzero, fun hmem => ?_⟩
    obtain ⟨c, hc, hclass⟩ := List.mem_map.1 hmem
    refine hnone c (List.mem_filter.2 ⟨hc, ?_⟩) hclass
    rw [K.compatible _ _ (Keys.classOf_eq.1 hclass), decide_eq_true_iff]
  · exact .inr ⟨c, (List.mem_filter.1 hc).1, hsome⟩

theorem Inv.bucket (h : Inv K s cells) (key : κ) : s.map.bucket (s.map.calculateIndex key) =
    .ok (s.map.buckets ((K.hash key).toNat % s.map.capacity)) := by
  obtain ⟨hlt, hindex⟩ := h.index key
  rw [AmqpHashTable.bucket, hindex, if_pos (by omega), Int.toNat_natCast]

theorem searchChain_zero : searchChain s s.fuel 0 key = .ok 0 := rfl

/-! ## Calls -/

theorem Inv.put (h : Inv K s cells) (key : κ) (data : Nat) :
    (K.classOf key ∈ (cells.map fun c => K.classOf c.2.key) ∧
      AmqpHashTable.put M s key data = .ok (false, s)) ∨
    (K.classOf key ∉ (cells.map fun c => K.classOf c.2.key) ∧
      AmqpHashTable.put M s key data = .ok (true, addEntry M s (s.map.calculateIndex key) key data)) := by
  obtain ⟨found, hfound, hcases⟩ := h.search key
  have hput : AmqpHashTable.put M s key data = if found ≠ 0 then .ok (false, s)
      else .ok (true, addEntry M s (s.map.calculateIndex key) key data) := by
    unfold AmqpHashTable.put
    dsimp only
    rw [h.bucket key, Fault.ok_bind]
    split
    · rw [hfound, Fault.ok_bind]
    · -- an empty bucket is not searched
      rename_i hzero
      rw [not_not.1 hzero, searchChain_zero] at hfound
      rw [← Except.ok.inj hfound, Fault.ok_bind]
  rw [hput]
  rcases hcases with ⟨rfl, hnone⟩ | ⟨c, hc, rfl, hne, hclass⟩
  · exact .inr ⟨hnone, if_neg (not_not_intro rfl)⟩
  · exact .inl ⟨List.mem_map.2 ⟨c, hc, hclass⟩, if_pos hne⟩

/-- The entry of `add_entry`. -/
def newEntry (s : State κ) (index : Nat) (key : κ) (data : Nat) : AmqpEntry κ where
  key := key
  data := data
  collisionNext := s.map.buckets index
  entryNext := s.map.entryList

/-- An entry is added in front of both paths. -/
theorem Inv.addEntry (h : Inv K s cells) (hnew : K.classOf key ∉ cells.map fun c => K.classOf c.2.key) :
    Inv K (AmqpHashTable.addEntry M s (s.map.calculateIndex key) key data)
      ((M.pick s.heap.dom,
        newEntry s ((K.hash key).toNat % s.map.capacity) key data) :: cells) := by
  obtain ⟨-, hindex⟩ := h.index key
  unfold AmqpHashTable.addEntry
  rw [hindex, Int.toNat_natCast]
  refine ⟨h.hash, h.compare, h.capacity, h.entries.malloc M rfl, fun i hi => ?_, ?_, ?_, ?_⟩
  · dsimp only
    by_cases hbucket : i = (K.hash key).toNat % s.map.capacity
    · rw [if_pos hbucket, List.filter_cons_of_pos (by rw [decide_eq_true_iff]; exact hbucket.symm), hbucket]
      exact (h.chains _ (hbucket ▸ hi)).malloc M rfl
    · rw [if_neg hbucket, List.filter_cons_of_neg (by rw [decide_eq_true_iff]; exact Ne.symm hbucket)]
      exact (h.chains i hi).malloc_other M _
  · exact congrArg _ h.dom
  · exact congrArg _ h.count
  · exact List.nodup_cons.2 ⟨hnew, h.distinct⟩

theorem Inv.get (h : Inv K s cells) (key : κ) :
    (K.classOf key ∉ (cells.map fun c => K.classOf c.2.key) ∧ AmqpHashTable.get s key = .ok 0) ∨
    ∃ c ∈ cells, K.classOf c.2.key = K.classOf key ∧ AmqpHashTable.get s key = .ok c.2.data := by
  obtain ⟨found, hfound, hcases⟩ := h.search key
  unfold AmqpHashTable.get
  dsimp only
  rw [h.bucket key, Fault.ok_bind, hfound, Fault.ok_bind]
  rcases hcases with ⟨rfl, hnone⟩ | ⟨c, hc, rfl, hne, hclass⟩
  · exact .inl ⟨hnone, if_pos rfl⟩
  · refine .inr ⟨c, hc, hclass, ?_⟩
    rw [if_neg hne, h.entries.get c hc]

/-- Every entry is given to the callback and released. -/
theorem cleanup_go_spec : ∀ {cells : List (Nat × AmqpEntry κ)} {heap : Heap (AmqpEntry κ)} {fuel a : Nat},
    Path AmqpEntry.entryNext heap a cells → heap.dom = cells.map Prod.fst → cells.length < fuel →
    ∃ heap', cleanup.go heap fuel a = .ok (cells.map fun c => (c.2.key, c.2.data), heap') ∧
      heap'.dom = [] := by
  intro cells
  induction cells with
  | nil =>
    intro heap fuel a hpath hdom hfuel
    obtain ⟨fuel, rfl⟩ := Nat.exists_eq_succ_of_ne_zero (Nat.ne_zero_of_lt hfuel)
    rw [cleanup.go, if_pos (show a = 0 from hpath)]
    exact ⟨heap, rfl, hdom⟩
  | cons c cells ih =>
    intro heap fuel a hpath hdom hfuel
    obtain ⟨fuel, rfl⟩ := Nat.exists_eq_succ_of_ne_zero (Nat.ne_zero_of_lt hfuel)
    have hne : a ≠ 0 := fun ha => List.cons_ne_nil _ _ (hpath.eq_zero_iff.1 ha)
    have hnodup := heap.nodup
    rw [hdom] at hnodup
    have hrest := Path.free hpath hnodup
    obtain ⟨rfl, hc, -⟩ := hpath
    obtain ⟨heap', hgo, hempty⟩ := ih hrest (by
      rw [Heap.dom_free, hdom, List.map_cons, List.erase_cons_head]) (Nat.lt_of_succ_lt_succ hfuel)
    refine ⟨heap', ?_, hempty⟩
    rw [cleanup.go, if_neg hne, hc]
    dsimp only
    rw [hgo]
    rfl

/-! ## Maps -/

theorem mem_map_iff (hm : (cells.map K.binding : Multiset _) = m.entries) :
    K.classOf key ∈ m ↔ K.classOf key ∈ cells.map fun c => K.classOf c.2.key := by
  rw [Finmap.mem_def, ← hm, Multiset.coe_keys, Multiset.mem_coe, List.keys, List.map_map]
  rfl

theorem Inv.represents (h : Inv K s cells) (hm : (cells.map K.binding : Multiset _) = m.entries) :
    K.Represents s m := by
  have hlen := congrArg List.length h.dom
  rw [List.length_map] at hlen
  have hcard : m.keys.card = cells.length := by
    show Multiset.card (Multiset.keys m.entries) = _
    rw [← hm, Multiset.coe_keys, Multiset.coe_card, List.keys, List.length_map, List.length_map]
  refine ⟨h.count.trans hcard.symm, cells, h.entries, hm, ?_⟩
  refine cleanup_go_spec h.entries h.dom ?_
  unfold State.fuel
  rw [hlen]
  exact Nat.lt_succ_self _

/-- A call keeps the paths, and does what it does to the map. -/
theorem Inv.step (h : Inv K s cells) (hm : (cells.map K.binding : Multiset _) = m.entries) (op : Op κ) :
    ∃ s' cells', step M s op = .ok ((K.step m op).1, s') ∧ Inv K s' cells' ∧
      (cells'.map K.binding : Multiset _) = (K.step m op).2.entries ∧
      ((K.step m op).1 ≠ .put true → s' = s) := by
  cases op with
  | put key data =>
    unfold AmqpHashTable.step Keys.step
    dsimp only
    rcases @Inv.put κ K M s cells h key data with ⟨hmem, hput⟩ | ⟨hmem, hput⟩
    · rw [hput, if_pos ((mem_map_iff hm).2 hmem)]
      exact ⟨s, cells, rfl, h, hm, fun _ => rfl⟩
    · rw [hput, if_neg (mt (mem_map_iff hm).1 hmem)]
      refine ⟨_, _, rfl, h.addEntry hmem, ?_, fun hne => absurd rfl hne⟩
      rw [Finmap.entries_insert_of_notMem (mt (mem_map_iff hm).1 hmem), ← hm]
      rfl
  | get key =>
    unfold AmqpHashTable.step Keys.step
    dsimp only
    rcases h.get key with ⟨hmem, hget⟩ | ⟨c, hc, hclass, hget⟩
    · rw [hget, Finmap.lookup_eq_none.2 (mt (mem_map_iff hm).1 hmem)]
      exact ⟨s, cells, rfl, h, hm, fun _ => rfl⟩
    · have hlookup : m.lookup (K.classOf key) = some c.2.data := by
        rw [Finmap.lookup_eq_some_iff, ← hm, ← hclass]
        exact Multiset.mem_coe.2 (List.mem_map_of_mem hc)
      rw [hget, hlookup]
      exact ⟨s, cells, rfl, h, hm, fun _ => rfl⟩

theorem Inv.run : ∀ {ops : List (Op κ)} {s : State κ} {cells : List (Nat × AmqpEntry κ)} {m : K.Map},
    Inv K s cells → (cells.map K.binding : Multiset _) = m.entries →
    ∃ s' cells', run M s ops = .ok ((K.run m ops).1, s') ∧ Inv K s' cells' ∧
      (cells'.map K.binding : Multiset _) = (K.run m ops).2.entries := by
  intro ops
  induction ops with
  | nil => exact fun h hm => ⟨_, _, rfl, h, hm⟩
  | cons op ops ih =>
    intro s cells m h hm
    obtain ⟨s1, cells1, hstep, h1, hm1, -⟩ := @Inv.step κ K M s cells m h hm op
    obtain ⟨s', cells', hrun, h', hm'⟩ := ih h1 hm1
    refine ⟨s', cells', ?_, h', hm'⟩
    rw [AmqpHashTable.run, hstep, Fault.ok_bind]
    dsimp only
    rw [hrun]
    rfl

theorem Inv.new {n : BitVec 32} (h1 : 1 ≤ n.toNat) (h2 : n.toNat ≤ 2 ^ 30) :
    ∃ table, amqpHashTableInitialize n K.hash K.compare = .ok table ∧ Inv K ⟨Heap.empty, table⟩ [] := by
  obtain ⟨k, hk, hcap⟩ := capacity_spec h1 (by omega) h2
  have hpow : 2 ^ k ≤ 2 ^ 30 := Nat.pow_le_pow_right (by decide) hk
  have hpos := Nat.two_pow_pos k
  unfold amqpHashTableInitialize
  dsimp only
  rw [hcap, if_neg (by omega), if_pos (by omega)]
  exact ⟨_, rfl, rfl, rfl, ⟨k, hk, rfl⟩, rfl, fun _ _ => rfl, rfl, rfl, List.nodup_nil⟩

end

/-- Any calls on a new table, and any further call, do what they do to the finite map. -/
theorem refines_map {κ : Type} (K : Keys κ) (M : Malloc) {n : BitVec 32} (h1 : 1 ≤ n.toNat)
    (h2 : n.toNat ≤ 2 ^ 30) (ops : List (Op κ)) :
    ∃ table s, amqpHashTableInitialize n K.hash K.compare = .ok table ∧
      run M ⟨Heap.empty, table⟩ ops = .ok ((K.run ∅ ops).1, s) ∧ K.Represents s (K.run ∅ ops).2 ∧
      ∀ op, ∃ s', step M s op = .ok ((K.step (K.run ∅ ops).2 op).1, s') ∧
        K.Represents s' (K.step (K.run ∅ ops).2 op).2 ∧
        ((K.step (K.run ∅ ops).2 op).1 ≠ .put true → s' = s) := by
  obtain ⟨table, htable, hnew⟩ := @Inv.new κ K n h1 h2
  obtain ⟨s, cells, hrun, h, hm⟩ := @Inv.run κ K M ops _ _ ∅ hnew rfl
  refine ⟨table, s, htable, hrun, h.represents hm, fun op => ?_⟩
  obtain ⟨s', cells', hstep, h', hm', hsame⟩ := @Inv.step κ K M s cells _ h hm op
  exact ⟨s', hstep, h'.represents hm', hsame⟩

/-- Numbers, all in one bucket. -/
def numberKeys : Keys Nat where
  hash _ := 0
  compare a b := a - b
  equivalence := ⟨fun _ => Int.sub_self _, fun h => by omega, fun h h' => by omega⟩
  compatible _ _ _ := rfl

theorem refines_map_collisions :
    ∃ table s, amqpHashTableInitialize 16 numberKeys.hash numberKeys.compare = .ok table ∧
      run .bump ⟨Heap.empty, table⟩ [.put 1 10, .put 2 20, .put 1 30, .get 1] =
        .ok ((numberKeys.run ∅ [.put 1 10, .put 2 20, .put 1 30, .get 1]).1, s) ∧
      numberKeys.Represents s (numberKeys.run ∅ [.put 1 10, .put 2 20, .put 1 30, .get 1]).2 ∧
      ∀ op, ∃ s', step .bump s op = .ok ((numberKeys.step
            (numberKeys.run ∅ [.put 1 10, .put 2 20, .put 1 30, .get 1]).2 op).1, s') ∧
        numberKeys.Represents s' (numberKeys.step
          (numberKeys.run ∅ [.put 1 10, .put 2 20, .put 1 30, .get 1]).2 op).2 ∧
        ((numberKeys.step (numberKeys.run ∅ [.put 1 10, .put 2 20, .put 1 30, .get 1]).2 op).1 ≠
          .put true → s' = s) :=
  refines_map numberKeys .bump (by decide) (by decide) _

end Amqp.AmqpHashTable
