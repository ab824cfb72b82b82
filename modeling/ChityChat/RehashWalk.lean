import ChityChat.ShutdownLoop

namespace ChityChat.RehashWalk

open ServerHt hiding ghtResize
open ShutdownLoop (Node Pointer Fault Buckets)

variable {V L : Type}

/-- The old array with its heap, the table that is filled from it, and the buckets visited so
far. -/
structure Walk (V L : Type) where
  old : Buckets V
  ht : ServerGht V L
  visited : List Pointer

/-- `free` of a bucket that is marked as allocated. One of the array is no block of its own. -/
def freeInheap (m : Buckets V) (p : Pointer) (inheap : Int) : Except Fault (Buckets V) :=
  if inheap ≠ 0 then
    match p with
    | .slot _ => throw .released
    | .node a => return m.release a
  else return m

/-- The inner loop of `ght_resize`. The link is read before the bucket is freed. -/
def walkChain (A : LoadFactor L) : Nat → Walk V L → Pointer → Except Fault (Walk V L)
  | 0, _, _ => throw .running
  | fuel + 1, w, p => do
      let oldBucket ← w.old.read p
      let ht := ghtMove A w.ht oldBucket.toGhtBucket
      let old ← freeInheap w.old p oldBucket.inheap
      match oldBucket.next with
      | none => return ⟨old, ht, w.visited ++ [p]⟩
      | some a => walkChain A fuel ⟨old, ht, w.visited ++ [p]⟩ (.node a)

def ghtResize (A : LoadFactor L) (fuel : Nat) (m : Buckets V) (ht : ServerGht V L)
    (newSize : Nat) : Except Fault (Walk V L) :=
  if clamped ht newSize = ht.size ∨ ht.ignoreResize then return ⟨m, ht, []⟩
  else do
    let w ← (List.range ht.size).foldlM (fun w i => walkChain A fuel w (.slot i))
      ⟨m, cleared ht (clamped ht newSize), []⟩
    return { w with old := { w.old with table := [] } }

inductive NodesAt (heap : Nat → Option (Node V)) : Option Nat → List (Nat × GhtBucket V) → Prop
  | nil : NodesAt heap none []
  | cons {a : Nat} {b : Node V} {nodes : List (Nat × GhtBucket V)} (h : heap a = some b)
    (hnext : NodesAt heap b.next nodes) : NodesAt heap (some a) ((a, b.toGhtBucket) :: nodes)

/-- The table in memory. The nodes are blocks of their own, and marked as such. -/
structure Stored (m : Buckets V) (table : List (Chain V)) (nodes : List (List (Nat × GhtBucket V))) :
    Prop where
  heads : m.table.map Node.toGhtBucket = table.map Chain.head
  nexts : nodes.map (List.map Prod.snd) = table.map Chain.next
  linked : ∀ (i : Nat) (b : Node V) (ns : List (Nat × GhtBucket V)), m.table[i]? = some b →
    nodes[i]? = some ns → NodesAt m.heap b.next ns
  separate : (nodes.flatten.map Prod.fst).Nodup
  marked : ∀ c ∈ table, c.Flagged

structure Sound (ht : ServerGht V L) : Prop where
  size_pos : 0 < ht.size
  length : ht.table.length = ht.size
  chains : ∀ (i : Nat) (c : Chain V), ht.table[i]? = some c → c.Ok ht.size i
  count : ht.count = ht.entries.length

def addresses (nodes : List (List (Nat × GhtBucket V))) : List Nat := nodes.flatten.map Prod.fst

def places (nodes : List (List (Nat × GhtBucket V))) : List Pointer :=
  (nodes.mapIdx (fun i ns => Pointer.slot i :: ns.map (fun n => Pointer.node n.1))).flatten

def released (heap : Nat → Option (Node V)) (as : List Nat) : Nat → Option (Node V) :=
  fun a => if a ∈ as then none else heap a

section Walk

variable {A : LoadFactor L} {heap : Nat → Option (Node V)} {as : List Nat} {link : Option Nat}
  {nodes : List (Nat × GhtBucket V)} {slots : List (Node V)}

theorem release_released (slots : List (Node V)) (heap : Nat → Option (Node V)) (as : List Nat)
    (a : Nat) :
    Buckets.release ⟨slots, released heap as⟩ a = ⟨slots, released heap (as ++ [a])⟩ := by
  simp only [Buckets.release, Buckets.mk.injEq, true_and]
  funext c
  rw [Function.update_apply]
  by_cases hc : c = a <;> simp [released, hc]

theorem read_free_node (slots : List (Node V)) {a : Nat} {b : Node V} (hb : heap a = some b)
    (ha : a ∉ as) (hm : b.inheap = inHeap) :
    Buckets.read ⟨slots, released heap as⟩ (.node a) = .ok b ∧
      freeInheap ⟨slots, released heap as⟩ (.node a) b.inheap =
        .ok ⟨slots, released heap (as ++ [a])⟩ := by
  have hread : Buckets.read ⟨slots, released heap as⟩ (.node a) = .ok b := by
    rw [ShutdownLoop.read_ok]
    exact (if_neg ha).trans hb
  have hheap : b.inheap ≠ 0 := by
    rw [hm]
    decide
  refine ⟨hread, ?_⟩
  rw [freeInheap, if_pos hheap, ← release_released]
  rfl

/-- The walk frees a node only behind its successor's address, and never one that it still needs. -/
theorem walkChain_nodes {a : Nat} (h : NodesAt heap (some a) nodes)
    (hsep : (nodes.map Prod.fst).Nodup) (has : ∀ n ∈ nodes, n.1 ∉ as)
    (hmark : ∀ n ∈ nodes, n.2.inheap = inHeap) {fuel : Nat} (hfuel : nodes.length ≤ fuel)
    (ht : ServerGht V L) (visited : List Pointer) :
    walkChain A fuel ⟨⟨slots, released heap as⟩, ht, visited⟩ (.node a) =
      .ok ⟨⟨slots, released heap (as ++ nodes.map Prod.fst)⟩,
        (nodes.map Prod.snd).foldl (ghtMove A) ht,
        visited ++ nodes.map (fun n => .node n.1)⟩ := by
  induction nodes generalizing a as fuel ht visited with
  | nil => cases h
  | cons n rest ih =>
      obtain ⟨fuel, rfl⟩ := Nat.exists_eq_add_of_le' (Nat.le_trans (Nat.le_add_left 1 _) hfuel)
      cases h with
      | @cons _ b _ hb hnext =>
          obtain ⟨hread, hfree⟩ := read_free_node slots hb (has _ List.mem_cons_self)
            (hmark _ List.mem_cons_self)
          rw [List.map_cons, List.nodup_cons] at hsep
          simp only [walkChain, hread, hfree, bind, Except.bind]
          cases hlink : b.next with
          | none =>
              rw [hlink] at hnext
              cases hnext
              rfl
          | some c =>
              rw [hlink] at hnext
              have hrest : ∀ n ∈ rest, n.1 ∉ as ++ [a] := by
                intro n hn hm
                rcases List.mem_append.mp hm with hm | hm
                · exact has n (List.mem_cons_of_mem _ hn) hm
                · rw [List.mem_singleton] at hm
                  exact hsep.1 (List.mem_map.mpr ⟨n, hn, hm⟩)
              have hwalk := ih hnext hsep.2 hrest (fun n hn => hmark n (List.mem_cons_of_mem _ hn))
                (Nat.le_of_succ_le_succ hfuel) (ghtMove A ht b.toGhtBucket) (visited ++ [.node a])
              simpa only [List.map_cons, List.foldl_cons, List.append_assoc,
                List.singleton_append] using hwalk

theorem walkChain_slot {i : Nat} {b : Node V} (hb : slots[i]? = some b)
    (harray : b.inheap = inArray) (h : NodesAt heap b.next nodes)
    (hsep : (nodes.map Prod.fst).Nodup) (has : ∀ n ∈ nodes, n.1 ∉ as)
    (hmark : ∀ n ∈ nodes, n.2.inheap = inHeap) {fuel : Nat} (hfuel : nodes.length < fuel)
    (ht : ServerGht V L) (visited : List Pointer) :
    walkChain A fuel ⟨⟨slots, released heap as⟩, ht, visited⟩ (.slot i) =
      .ok ⟨⟨slots, released heap (as ++ nodes.map Prod.fst)⟩,
        (b.toGhtBucket :: nodes.map Prod.snd).foldl (ghtMove A) ht,
        visited ++ (.slot i :: nodes.map (fun n => .node n.1))⟩ := by
  obtain ⟨fuel, rfl⟩ := Nat.exists_eq_add_of_lt hfuel
  have hread : Buckets.read ⟨slots, released heap as⟩ (.slot i) = .ok b :=
    ShutdownLoop.read_ok.mpr hb
  have hkeep : freeInheap ⟨slots, released heap as⟩ (.slot i) b.inheap =
      .ok ⟨slots, released heap as⟩ := by
    rw [freeInheap, harray]
    rfl
  simp only [walkChain, hread, hkeep, bind, Except.bind]
  cases hlink : b.next with
  | none =>
      rw [hlink] at h
      cases h
      simp only [List.map_nil, List.append_nil]
      rfl
  | some a =>
      rw [hlink] at h
      refine (walkChain_nodes h hsep has hmark (Nat.le_add_right _ fuel) _ _).trans ?_
      rw [List.foldl_cons, List.append_assoc, List.singleton_append]

variable {m : Buckets V} {table : List (Chain V)} {cells : List (List (Nat × GhtBucket V))} {j : Nat}

theorem Stored.length (h : Stored m table cells) :
    m.table.length = table.length ∧ cells.length = table.length := by
  have hheads := congrArg List.length h.heads
  have hnexts := congrArg List.length h.nexts
  simpa only [List.length_map] using And.intro hheads hnexts

theorem Stored.chain (h : Stored m table cells) (hj : j < table.length) :
    ∃ b c ns, m.table[j]? = some b ∧ table[j]? = some c ∧ cells[j]? = some ns ∧
      c = ⟨b.toGhtBucket, ns.map Prod.snd⟩ := by
  obtain ⟨hslots, hcells⟩ := h.length
  have hb := List.getElem?_eq_getElem (hslots ▸ hj : j < m.table.length)
  have hns := List.getElem?_eq_getElem (hcells ▸ hj : j < cells.length)
  have hc := List.getElem?_eq_getElem hj
  have hhead := congrArg (fun l => l[j]?) h.heads
  have hnext := congrArg (fun l => l[j]?) h.nexts
  simp only [List.getElem?_map, hb, hc, hns, Option.map_some, Option.some.injEq] at hhead hnext
  refine ⟨_, _, _, hb, hc, hns, ?_⟩
  rw [hhead, hnext]

theorem addresses_take (h : cells[j]? = some nodes) :
    addresses (cells.take (j + 1)) = addresses (cells.take j) ++ nodes.map Prod.fst := by
  obtain ⟨hj, rfl⟩ := List.getElem?_eq_some_iff.mp h
  rw [addresses, List.take_succ_eq_append_getElem hj, List.flatten_concat, List.map_append]
  rfl

theorem places_take (h : cells[j]? = some nodes) :
    places (cells.take (j + 1)) =
      places (cells.take j) ++ (.slot j :: nodes.map (fun n => .node n.1)) := by
  obtain ⟨hj, rfl⟩ := List.getElem?_eq_some_iff.mp h
  rw [places, List.take_succ_eq_append_getElem hj, List.mapIdx_concat, List.flatten_concat,
    List.length_take_of_le (Nat.le_of_lt hj)]
  rfl

theorem ghtRehash_take {c : Chain V} (ht : ServerGht V L) (h : table[j]? = some c) :
    ghtRehash A ht (table.take (j + 1)) =
      c.buckets.foldl (ghtMove A) (ghtRehash A ht (table.take j)) := by
  obtain ⟨hj, rfl⟩ := List.getElem?_eq_some_iff.mp h
  simp only [ghtRehash, List.take_succ_eq_append_getElem hj, List.foldl_append, List.foldl_cons,
    List.foldl_nil]

theorem Stored.apart (h : Stored m table cells) (hj : cells[j]? = some nodes) :
    (nodes.map Prod.fst).Nodup ∧ ∀ n ∈ nodes, n.1 ∉ addresses (cells.take j) := by
  have hsplit : addresses (cells.take (j + 1)) ++ addresses (cells.drop (j + 1)) =
      addresses cells := by
    rw [addresses, addresses, ← List.map_append, ← List.flatten_append, List.take_append_drop]
    rfl
  have hall : (addresses cells).Nodup := h.separate
  rw [← hsplit, addresses_take hj] at hall
  have hfirst := (List.nodup_append.mp hall).1
  obtain ⟨-, hnodup, hdisjoint⟩ := List.nodup_append.mp hfirst
  refine ⟨hnodup, fun n hn hm => ?_⟩
  exact hdisjoint _ hm _ (List.mem_map.mpr ⟨n, hn, rfl⟩) rfl

theorem walk_take (h : Stored m table cells) {fuel : Nat} (hfuel : ∀ ns ∈ cells, ns.length < fuel)
    (ht : ServerGht V L) (hj : j ≤ table.length) :
    (List.range j).foldlM (fun w i => walkChain A fuel w (.slot i)) ⟨m, ht, []⟩ =
      .ok ⟨⟨m.table, released m.heap (addresses (cells.take j))⟩, ghtRehash A ht (table.take j),
        places (cells.take j)⟩ := by
  induction j with
  | zero => rfl
  | succ j ih =>
      obtain ⟨b, c, ns, hb, hc, hns, hchain⟩ := h.chain hj
      obtain ⟨hsep, has⟩ := h.apart hns
      have hmark := h.marked c (List.mem_of_getElem? hc)
      have hnext : ∀ n ∈ ns, n.2.inheap = inHeap := by
        intro n hn
        apply hmark.2
        rw [hchain]
        exact List.mem_map.mpr ⟨n, hn, rfl⟩
      have hturn := walkChain_slot (A := A) hb (by rw [← hmark.1, hchain])
        (h.linked j b ns hb hns) hsep has hnext (hfuel ns (List.mem_of_getElem? hns))
        (ghtRehash A ht (table.take j)) (places (cells.take j))
      have hbuckets : c.buckets = b.toGhtBucket :: ns.map Prod.snd := by rw [hchain, Chain.buckets]
      rw [List.range_succ, List.foldlM_append, ih (Nat.le_of_succ_le hj), addresses_take hns,
        places_take hns, ghtRehash_take ht hc, hbuckets]
      simp only [List.foldlM_cons, List.foldlM_nil, bind, Except.bind, hturn]
      rfl

theorem mem_places {p : Pointer} :
    p ∈ places cells ↔
      (∃ i, i < cells.length ∧ p = .slot i) ∨ ∃ a ∈ addresses cells, p = .node a := by
  simp only [places, addresses, List.mem_flatten, List.mem_mapIdx, List.mem_map]
  constructor
  · rintro ⟨_, ⟨i, hi, rfl⟩, hp⟩
    rcases List.mem_cons.mp hp with rfl | hp
    · exact .inl ⟨i, hi, rfl⟩
    · obtain ⟨n, hn, rfl⟩ := List.mem_map.mp hp
      exact .inr ⟨n.1, ⟨n, ⟨_, List.getElem_mem hi, hn⟩, rfl⟩, rfl⟩
  · rintro (⟨i, hi, rfl⟩ | ⟨_, ⟨n, ⟨ns, hns, hn⟩, rfl⟩, rfl⟩)
    · exact ⟨_, ⟨i, hi, rfl⟩, List.mem_cons_self⟩
    · obtain ⟨i, hi, rfl⟩ := List.getElem_of_mem hns
      exact ⟨_, ⟨i, hi, rfl⟩, List.mem_cons_of_mem _ (List.mem_map.mpr ⟨n, hn, rfl⟩)⟩

theorem Stored.places_nodup (h : Stored m table cells) (hj : j ≤ cells.length) :
    (places (cells.take j)).Nodup := by
  induction j with
  | zero => exact List.nodup_nil
  | succ j ih =>
      have hns := List.getElem?_eq_getElem (Nat.lt_of_succ_le hj)
      obtain ⟨hsep, has⟩ := h.apart hns
      rw [places_take hns, List.nodup_append]
      refine ⟨ih (Nat.le_of_succ_le hj), List.nodup_cons.mpr ⟨by simp, ?_⟩, ?_⟩
      · have hmap : (cells[j].map (fun n => Pointer.node n.1)) =
            (cells[j].map Prod.fst).map Pointer.node := by simp
        rw [hmap]
        exact hsep.map (fun a c he => Pointer.node.inj he)
      · rintro p hp q hq rfl
        rcases mem_places.mp hp with ⟨i, hi, rfl⟩ | ⟨a, ha, rfl⟩
        · rw [List.length_take_of_le (Nat.le_of_succ_le hj)] at hi
          simp at hq
          omega
        · obtain ⟨n, hn, he⟩ : ∃ n ∈ cells[j], n.1 = a := by simpa using hq
          exact has n hn (he ▸ ha)

end Walk

section Table

variable {A : LoadFactor L} {ht : ServerGht V L}

theorem ghtMove_minSize (A : LoadFactor L) (ht : ServerGht V L) (k : Nat) (b : GhtBucket V) :
    ghtMove A { ht with minSize := k } b = { ghtMove A ht b with minSize := k } := by
  have hinsert (data : V) : (ghtInsert A { ht with minSize := k } b.key data).2 =
      { (ghtInsert A ht b.key data).2 with minSize := k } := by
    have hchain : ghtChain { ht with minSize := k } b.key = ghtChain ht b.key := rfl
    rw [ghtInsert, ghtInsert, hchain]
    cases (ghtChain ht b.key).insert b.key data <;> rfl
  simp only [ghtMove]
  cases b.data with
  | none => split <;> rfl
  | some data =>
      simp only [hinsert]
      split <;> rfl

theorem ghtRehash_minSize (A : LoadFactor L) (k : Nat) (table : List (Chain V))
    (ht : ServerGht V L) :
    ghtRehash A { ht with minSize := k } table = { ghtRehash A ht table with minSize := k } := by
  have hchain (bs : List (GhtBucket V)) (ht : ServerGht V L) :
      bs.foldl (ghtMove A) { ht with minSize := k } =
        { bs.foldl (ghtMove A) ht with minSize := k } := by
    induction bs generalizing ht with
    | nil => rfl
    | cons b bs ih => rw [List.foldl_cons, List.foldl_cons, ghtMove_minSize, ih]
  induction table generalizing ht with
  | nil => rfl
  | cons c table ih =>
      rw [ghtRehash, List.foldl_cons, hchain]
      exact ih _

theorem Sound.shaped (h : Sound ht) : Shaped { ht with minSize := 1 } :=
  ⟨h.size_pos, Nat.one_pos, h.length, h.chains⟩

theorem ghtRehash_adds_sound (A : LoadFactor L) (h : Sound ht) {n : Nat} (hn : 0 < n) :
    Adds A (cleared { ht with minSize := 1 } n)
      { ghtRehash A (cleared ht n) ht.table with minSize := 1 } ht.entries := by
  rw [← ghtRehash_minSize]
  exact ghtRehash_adds A h.shaped hn

theorem ghtRehash_perm (A : LoadFactor L) (h : Sound ht) {n : Nat} (hn : 0 < n) :
    (ghtRehash A (cleared ht n) ht.table).entries.Perm ht.entries := by
  have ha := ghtRehash_adds_sound A h hn
  have hnew : (ghtRehash A (cleared ht n) ht.table).entries.Nodup :=
    ha.shaped.keys_nodup.of_map
  have hold : ht.entries.Nodup := h.shaped.keys_nodup.of_map
  refine (List.perm_ext_iff_of_nodup hnew hold).mpr (fun e => ?_)
  have hget : e ∈ (ghtRehash A (cleared ht n) ht.table).entries ↔
      serverGhtGet (cleared { ht with minSize := 1 } n) e.1 = some e.2 ∨ e ∈ ht.entries :=
    (get_eq_some_iff ha.shaped e.1 e.2).symm.trans (ha.get_iff e.1 e.2)
  rw [hget, cleared_get]
  simp

theorem ghtRehash_sound (A : LoadFactor L) (h : Sound ht) {n : Nat} (hn : 0 < n) :
    Sound (ghtRehash A (cleared ht n) ht.table) ∧
      (ghtRehash A (cleared ht n) ht.table).size = n ∧
      (ghtRehash A (cleared ht n) ht.table).count = ht.count := by
  have ha := ghtRehash_adds_sound A h hn
  have hcount : (ghtRehash A (cleared ht n) ht.table).count = ht.entries.length :=
    ha.count.trans (Nat.zero_add _)
  refine ⟨⟨ha.shaped.size_pos, ha.shaped.length, ha.shaped.chains, ?_⟩, ha.size, ?_⟩
  · rw [hcount, (ghtRehash_perm A h hn).length_eq]
  · rw [hcount, h.count]

/-- What `ght_resize` leaves of a table, and of its buckets in memory. -/
structure Rehashed (m : Buckets V) (ht : ServerGht V L) (cells : List (List (Nat × GhtBucket V)))
    (newSize : Nat) (w : Walk V L) : Prop where
  sound : Sound w.ht
  size : w.ht.size = max newSize ht.minSize
  entries : w.ht.entries.Perm ht.entries
  count : w.ht.count = ht.count
  visited : w.ht.size ≠ ht.size → w.visited = places cells
  once : w.visited.Nodup
  freed : w.ht.size ≠ ht.size → w.old = ⟨[], released m.heap (addresses cells)⟩
  kept : w.ht.size = ht.size → w.ht = ht ∧ w.old = m

theorem clamped_max (ht : ServerGht V L) (n : Nat) : clamped ht n = max n ht.minSize := by
  rw [clamped]
  split <;> omega

/-- A rehash loses nothing, visits each old bucket once and frees the nodes that were allocated. -/
theorem ghtResize_rehashed (A : LoadFactor L) {m : Buckets V} {ht : ServerGht V L}
    {cells : List (List (Nat × GhtBucket V))} {newSize : Nat} (hs : Sound ht)
    (hm : Stored m ht.table cells) (hn : 1 ≤ newSize) (hi : ht.ignoreResize = false) :
    ∃ fuel w, ghtResize A fuel m ht newSize = .ok w ∧
      w.ht = ServerHt.ghtResize A ht newSize ∧ Rehashed m ht cells newSize w := by
  refine ⟨cells.flatten.length + 1, ?_⟩
  have hclamp := clamped_max ht newSize
  by_cases hsame : clamped ht newSize = ht.size
  · refine ⟨⟨m, ht, []⟩, if_pos (.inl hsame), ?_, ?_⟩
    · rw [ghtResize_eq, if_pos (.inl hsame)]
    · exact ⟨hs, hsame.symm.trans hclamp, .refl _, rfl, fun h => absurd rfl h, List.nodup_nil,
        fun h => absurd rfl h, fun _ => ⟨rfl, rfl⟩⟩
  · have hgo : ¬ (clamped ht newSize = ht.size ∨ ht.ignoreResize) := by simp [hsame, hi]
    have hpos : 0 < clamped ht newSize := by omega
    have hfuel : ∀ ns ∈ cells, ns.length < cells.flatten.length + 1 := fun ns hns =>
      Nat.lt_succ_of_le (List.sublist_flatten_of_mem hns).length_le
    have hwalk := walk_take (A := A) hm hfuel (cleared ht (clamped ht newSize)) (Nat.le_refl _)
    rw [← hm.length.2, List.take_length, hm.length.2, List.take_length, hs.length] at hwalk
    obtain ⟨hsound, hsize, hcount⟩ := ghtRehash_sound A hs hpos
    refine ⟨⟨⟨[], released m.heap (addresses cells)⟩,
      ghtRehash A (cleared ht (clamped ht newSize)) ht.table, places cells⟩, ?_, ?_, ?_⟩
    · rw [ghtResize, if_neg hgo, hwalk]
      rfl
    · rw [ghtResize_eq, if_neg hgo]
    · refine ⟨hsound, hsize.trans hclamp, ghtRehash_perm A hs hpos, hcount, fun _ => rfl, ?_,
        fun _ => rfl, fun he => absurd (hsize.symm.trans he) hsame⟩
      have hnodup := hm.places_nodup (Nat.le_refl _)
      rwa [List.take_length] at hnodup

open ShutdownLoop (layout linkOf)

def layoutCells (ht : ServerGht V L) : List (List (Nat × GhtBucket V)) :=
  ht.table.mapIdx (fun i c => c.next.mapIdx (fun k b => (Nat.pair i k, b)))

theorem nodesAt_layout {i : Nat} {c : Chain V} (hc : ht.table[i]? = some c) {k : Nat}
    (hk : k ≤ c.next.length) :
    NodesAt (layout ht).heap (linkOf c i k)
      ((c.next.mapIdx (fun k b => (Nat.pair i k, b))).drop k) := by
  induction hd : c.next.length - k generalizing k with
  | zero =>
      rw [linkOf, if_neg (by omega), List.drop_eq_nil_of_le (by rw [List.length_mapIdx]; omega)]
      exact .nil
  | succ d ih =>
      have hlt : k < c.next.length := by omega
      have hnode : (layout ht).heap (Nat.pair i k) = some ⟨c.next[k], linkOf c i (k + 1)⟩ := by
        simp [layout, hc, hlt]
      rw [linkOf, if_pos hlt, List.drop_eq_getElem_cons (by rwa [List.length_mapIdx]),
        List.getElem_mapIdx]
      exact .cons hnode (ih hlt (by omega))

theorem layoutCells_separate (ht : ServerGht V L) :
    ((layoutCells ht).flatten.map Prod.fst).Nodup := by
  have haddress (i : Nat) (c : Chain V) :
      (c.next.mapIdx (fun k b => (Nat.pair i k, b))).map Prod.fst =
        (List.range c.next.length).map (Nat.pair i) := by
    apply List.ext_getElem
    · simp
    · simp
  have hcells : (layoutCells ht).map (List.map Prod.fst) =
      ht.table.mapIdx (fun i c => (List.range c.next.length).map (Nat.pair i)) := by
    apply List.ext_getElem
    · simp [layoutCells]
    · intro i hi hi'
      simp only [layoutCells, List.getElem_map, List.getElem_mapIdx, haddress]
  rw [List.map_flatten, hcells, List.nodup_flatten]
  constructor
  · intro as has
    obtain ⟨i, hi, rfl⟩ := List.mem_mapIdx.mp has
    exact List.nodup_range.map (fun a b hab => (Nat.pair_eq_pair.mp hab).2)
  · rw [List.pairwise_iff_getElem]
    intro i j hi hj hij a hai haj
    simp only [List.getElem_mapIdx, List.mem_map] at hai haj
    obtain ⟨k, -, rfl⟩ := hai
    obtain ⟨d, -, he⟩ := haj
    have hsame := (Nat.pair_eq_pair.mp he).1
    omega

theorem layout_stored (hf : Flagged ht) : Stored (layout ht) ht.table (layoutCells ht) where
  heads := by
    apply List.ext_getElem?
    intro i
    simp only [layout, List.getElem?_map, List.getElem?_mapIdx, Option.map_map]
    rfl
  nexts := by
    apply List.ext_getElem?
    intro i
    simp only [layoutCells, List.getElem?_map, List.getElem?_mapIdx, Option.map_map]
    congr 1
    funext c
    apply List.ext_getElem?
    intro k
    simp only [Function.comp_apply, List.getElem?_map, List.getElem?_mapIdx, Option.map_map]
    exact Option.map_id'
  linked := by
    intro i b ns hb hns
    simp only [layoutCells, layout, List.getElem?_mapIdx, Option.map_eq_some_iff] at hb hns
    obtain ⟨c, hc, rfl⟩ := hb
    obtain ⟨c', hc', rfl⟩ := hns
    cases hc.symm.trans hc'
    exact nodesAt_layout hc (Nat.zero_le _)
  separate := layoutCells_separate ht
  marked := hf

theorem threeInChain_rehashed :
    ∃ fuel w, ghtResize exactLoad fuel (layout threeInChain) threeInChain 20 = .ok w ∧
      w.ht = ServerHt.ghtResize exactLoad threeInChain 20 ∧
      Rehashed (layout threeInChain) threeInChain (layoutCells threeInChain) 20 w :=
  have h := reachable_counted threeInChain_reachable
  ghtResize_rehashed exactLoad
    ⟨h.shaped.size_pos, h.shaped.length, h.shaped.chains, by decide +kernel⟩
    (layout_stored h.flagged) (by decide) (by decide +kernel)

end Table

end ChityChat.RehashWalk
