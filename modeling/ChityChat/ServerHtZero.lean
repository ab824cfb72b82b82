import ChityChat.ServerHtOrder

namespace ChityChat.ServerHt

variable {V L : Type} {A : LoadFactor L} {ht ht' x : ServerGht V L} {key : Nat} {data d : V}
  {before after : List (GhtBucket V)} {es : List (Nat × V)}

structure HoldsZero (ht ht' : ServerGht V L) (before after : List (GhtBucket V)) (data : V) :
    Prop where
  stored : (ghtChain ht 0).head.data.isSome
  next : (ghtChain ht 0).next = before ++ after
  table : ht'.table = (setChain ht 0
    ⟨(ghtChain ht 0).head, before ++ ⟨0, some data, inHeap⟩ :: after⟩).table
  size : ht'.size = ht.size
  minSize : ht'.minSize = ht.minSize

variable (data) in
theorem Chain.insert_stored {c : Chain V} (hs : c.head.data.isSome) (hh : c.head.key ≠ key)
    (hm : key ∉ c.next.map GhtBucket.key) :
    c.insert key data = some ⟨c.head, c.next ++ [⟨key, some data, inHeap⟩]⟩ := by
  rw [Chain.insert, if_neg hh, if_pos hs, ghtLink_eq, if_neg hm, Option.map_some]

theorem ghtInsert_of_chain {c : Chain V} (hc : (ghtChain ht key).insert key data = some c) :
    ghtInsert A ht key data = (true, ghtInc A (setChain ht key c)) := by
  rw [ghtInsert, hc]
  rfl

theorem HoldsZero.chain (hz : HoldsZero ht ht' before after data) (h : Shaped ht) (j : Nat) :
    ghtChain ht' j = if ghtHash ht j = ghtHash ht 0 then
      ⟨(ghtChain ht 0).head, before ++ ⟨0, some data, inHeap⟩ :: after⟩ else ghtChain ht j := by
  rw [ghtChain_congr hz.table hz.size, ghtChain_setChain h]

theorem ghtChain_ghtInc (ht : ServerGht V L) (j : Nat) :
    ghtChain (ghtInc A ht) j = ghtChain ht j := rfl

theorem HoldsZero.insert_here (hz : HoldsZero ht ht' before after data) (h : Shaped ht)
    (hk : key ≠ 0) (hp : serverGhtGet ht key = none) (hj : ghtHash ht key = ghtHash ht 0) :
    HoldsZero (ghtInsert A ht key d).2 (ghtInsert A ht' key d).2 before
      (after ++ [⟨key, some d, inHeap⟩]) data := by
  have hok := h.chain_ok key
  have hsame : ghtChain ht key = ghtChain ht 0 := by rw [ghtChain, hj, ← ghtChain]
  have hslot : ghtHash ht' key = ghtHash ht key := by rw [ghtHash, ghtHash, hz.size]
  have hhead : (ghtChain ht 0).head.key ≠ key := hsame ▸ fun heq => hok.key_head hk heq hp
  have hnext : key ∉ (before ++ after).map GhtBucket.key := by
    rw [← hz.next, ← hsame]
    exact fun hm => hok.key_mem_next hm hp
  have hc : (ghtChain ht key).insert key d =
      some ⟨(ghtChain ht 0).head, before ++ (after ++ [⟨key, some d, inHeap⟩])⟩ := by
    rw [hsame, Chain.insert_stored d hz.stored hhead (hz.next ▸ hnext), hz.next, List.append_assoc]
  have hc' : (ghtChain ht' key).insert key d = some ⟨(ghtChain ht 0).head,
      before ++ ⟨0, some data, inHeap⟩ :: (after ++ [⟨key, some d, inHeap⟩])⟩ := by
    have hnext' : key ∉ (before ++ ⟨0, some data, inHeap⟩ :: after).map GhtBucket.key := by
      rw [List.map_append, List.mem_append, not_or] at hnext
      simp [hnext.1, hnext.2, hk]
    have hinsert := Chain.insert_stored d
      (c := ⟨(ghtChain ht 0).head, before ++ ⟨0, some data, inHeap⟩ :: after⟩)
      hz.stored hhead hnext'
    rw [hz.chain h, if_pos hj, hinsert, List.append_assoc, List.cons_append]
  have hnew : ghtChain (ghtInsert A ht key d).2 0 =
      ⟨(ghtChain ht 0).head, before ++ (after ++ [⟨key, some d, inHeap⟩])⟩ := by
    rw [ghtInsert_of_chain hc, ghtChain_ghtInc, ghtChain_setChain h, if_pos hj.symm]
  refine ⟨by rw [hnew]; exact hz.stored, by rw [hnew], ?_, ?_, ?_⟩
  · rw [hnew, ghtInsert_of_chain hc, ghtInsert_of_chain hc']
    change ht'.table.set (ghtHash ht' key) _ =
      (ht.table.set (ghtHash ht key) _).set (ghtHash ht 0) _
    rw [hslot, hj, hz.table, setChain, List.set_set, List.set_set]
  · rw [ghtInsert_of_chain hc, ghtInsert_of_chain hc']
    exact hz.size
  · rw [ghtInsert_of_chain hc, ghtInsert_of_chain hc']
    exact hz.minSize

theorem HoldsZero.insert_elsewhere (hz : HoldsZero ht ht' before after data) (h : Shaped ht)
    (hk : key ≠ 0) (hp : serverGhtGet ht key = none) (hj : ghtHash ht key ≠ ghtHash ht 0) :
    HoldsZero (ghtInsert A ht key d).2 (ghtInsert A ht' key d).2 before after data := by
  obtain ⟨c, hc, -⟩ := (h.chain_ok key).insert_absent d hk rfl hp
  have hslot : ghtHash ht' key = ghtHash ht key := by rw [ghtHash, ghtHash, hz.size]
  have hc' : (ghtChain ht' key).insert key d = some c := by
    rw [hz.chain h, if_neg hj, hc]
  have hold : ghtChain (ghtInsert A ht key d).2 0 = ghtChain ht 0 := by
    rw [ghtInsert_of_chain hc, ghtChain_ghtInc, ghtChain_setChain h, if_neg (Ne.symm hj)]
  refine ⟨by rw [hold]; exact hz.stored, by rw [hold]; exact hz.next, ?_, ?_, ?_⟩
  · rw [hold, ghtInsert_of_chain hc, ghtInsert_of_chain hc']
    change ht'.table.set (ghtHash ht' key) _ =
      (ht.table.set (ghtHash ht key) _).set (ghtHash ht 0) _
    rw [hslot, hz.table]
    exact List.set_comm _ _ (Ne.symm hj)
  · rw [ghtInsert_of_chain hc, ghtInsert_of_chain hc']
    exact hz.size
  · rw [ghtInsert_of_chain hc, ghtInsert_of_chain hc']
    exact hz.minSize

theorem HoldsZero.move (hz : HoldsZero ht ht' before after data) (h : Shaped ht) (b : GhtBucket V)
    (hk : ∀ e ∈ bucketEntries [b], e.1 ≠ 0 ∧ serverGhtGet ht e.1 = none) :
    ∃ after', HoldsZero (ghtMove A ht b) (ghtMove A ht' b) before after' data ∧
      bucketEntries after' =
        bucketEntries after ++ (bucketEntries [b]).filter (fun e => e.1 % ht.size = 0) := by
  have hlog {x x' : ServerGht V L} {after : List (GhtBucket V)}
      (hx : HoldsZero x x' before after data) (log log' : List (GhtBucket V)) :
      HoldsZero { x with freed := log } { x' with freed := log' } before after data :=
    ⟨hx.stored, hx.next, hx.table, hx.size, hx.minSize⟩
  have hmove {x x' : ServerGht V L} {after : List (GhtBucket V)}
      (hx : HoldsZero x x' before after data) :
      HoldsZero (if b.inheap ≠ 0 then { x with freed := x.freed ++ [b] } else x)
        (if b.inheap ≠ 0 then { x' with freed := x'.freed ++ [b] } else x') before after data := by
    split
    · exact hlog hx _ _
    · exact hx
  cases hdata : b.data with
  | none =>
      refine ⟨after, ?_, by simp [bucketEntries_cons_none hdata]⟩
      simp only [ghtMove, hdata]
      exact hmove hz
  | some d =>
      rw [bucketEntries_cons_some hdata, bucketEntries_nil] at hk ⊢
      obtain ⟨hne, hp⟩ := hk _ List.mem_cons_self
      simp only [ghtMove, hdata]
      by_cases hj : ghtHash ht b.key = ghtHash ht 0
      · refine ⟨_, hmove (hz.insert_here h hne hp hj), ?_⟩
        rw [bucketEntries_append, List.filter_cons_of_pos (by simpa [ghtHash] using hj)]
        rfl
      · refine ⟨_, hmove (hz.insert_elsewhere h hne hp hj), ?_⟩
        rw [List.filter_cons_of_neg (by simpa [ghtHash] using hj), List.filter_nil, List.append_nil]

theorem HoldsZero.foldl_move (bs : List (GhtBucket V)) (hz : HoldsZero ht ht' before after data)
    (h : Shaped ht) (hm : Movable ht (bucketEntries bs)) :
    ∃ after', HoldsZero (bs.foldl (ghtMove A) ht) (bs.foldl (ghtMove A) ht') before after' data ∧
      bucketEntries after' =
        bucketEntries after ++ (bucketEntries bs).filter (fun e => e.1 % ht.size = 0) := by
  induction bs generalizing ht ht' after with
  | nil => exact ⟨after, hz, (List.append_nil _).symm⟩
  | cons b bs ih =>
      rw [bucketEntries_cons] at hm ⊢
      have hb := ghtMove_adds A h b hm.left.absent
      obtain ⟨after', hz', hafter'⟩ := hz.move (A := A) h b hm.left.absent
      obtain ⟨after'', hz'', hafter''⟩ := ih hz' hb.shaped (hm.right hb)
      refine ⟨after'', hz'', ?_⟩
      rw [hafter'', hafter', hb.size, List.filter_append, List.append_assoc]

theorem ghtInsert_zero_empty (h : Shaped ht) (hempty : (ghtChain ht 0).head.data = none) :
    ghtInsert A ht 0 data = (false, ht) := by
  have hkey := ((h.chain_ok 0).empty_head hempty).1
  rw [ghtInsert, Chain.insert, if_pos hkey]

theorem head_key_ne_zero (h : Shaped ht) (hs : (ghtChain ht 0).head.data.isSome) :
    (ghtChain ht 0).head.key ≠ 0 := by
  obtain ⟨x, hx⟩ := Option.isSome_iff_exists.mp hs
  exact (h.chain_ok 0).key_ne _ (by rw [head_entries hx]; exact List.mem_cons_self)

theorem not_mem_next_zero (h : Shaped ht) : 0 ∉ (ghtChain ht 0).next.map GhtBucket.key :=
  fun hm => (h.chain_ok 0).key_mem_next hm (get_zero h)

variable (A data) in
theorem ghtInsert_zero_stored (h : Shaped ht) (hs : (ghtChain ht 0).head.data.isSome) :
    (ghtInsert A ht 0 data).1 = true ∧
      HoldsZero ht (ghtInsert A ht 0 data).2 (ghtChain ht 0).next [] data ∧
      ghtNewSize A (ghtInsert A ht 0 data).2 = ghtNewSize A (ghtInc A ht) := by
  have hc := Chain.insert_stored data hs (head_key_ne_zero h hs) (not_mem_next_zero h)
  rw [ghtInsert_of_chain hc]
  exact ⟨rfl, ⟨hs, (List.append_nil _).symm, rfl, rfl, rfl⟩, rfl⟩

theorem ghtCheckLoad_get (h : Shaped ht) (htable : ht'.table = ht.table) (hsize : ht'.size = ht.size)
    (hmin : ht'.minSize = ht.minSize) (j : Nat) :
    serverGhtGet (ghtCheckLoad A ht') j = serverGhtGet ht j :=
  ((ghtCheckLoad_resized A (h.congr htable hsize hmin)).get_eq j).trans (get_congr htable hsize j)

theorem serverGhtDel_zero_get (h : Shaped ht) (j : Nat) :
    serverGhtGet (serverGhtDel A ht 0).2 j = serverGhtGet ht j := by
  rw [serverGhtDel]
  split
  · next hkey =>
      have hempty : (ghtChain ht 0).head.data = none := by
        by_contra hs
        exact head_key_ne_zero h (Option.isSome_iff_ne_none.mpr hs) hkey
      have hnext := ((h.chain_ok 0).empty_head hempty).2
      have hget (k : Nat) : serverGhtGet (setChain ht 0 Chain.empty) k = serverGhtGet ht k := by
        rw [get_setChain h]
        split
        · next hk =>
            rw [serverGhtGet, ghtChain, hk, ← ghtChain, Chain.get, Chain.get, hempty]
            rfl
        · rfl
      have hdelete : (ghtChain ht 0).delete =
          if (ghtChain ht 0).head.inheap = inHeap then none else some Chain.empty := by
        simp [Chain.delete, hnext]
      unfold ghtDelBucket
      rw [hdelete]
      by_cases hheap : (ghtChain ht 0).head.inheap = inHeap
      · rw [if_pos hheap]
        refine ghtCheckLoad_get h ?_ ?_ ?_ j <;> rfl
      · rw [if_neg hheap]
        have hshaped := h.setChain (Chain.empty_ok ht.size (ghtHash ht 0))
        rw [← hget j]
        refine ghtCheckLoad_get hshaped ?_ ?_ ?_ j <;> rfl
  · cases hfind : ghtFind 0 (ghtChain ht 0).next with
    | none => rfl
    | some p =>
        obtain ⟨hsplit, hkey⟩ := ghtFind_some hfind
        refine absurd ?_ (not_mem_next_zero h)
        rw [hsplit, List.map_append, List.mem_append]
        exact .inr (List.mem_map.mpr ⟨p.2.head, List.mem_cons_self, hkey⟩)

theorem ghtFind_middle {b : GhtBucket V} (hb : b.key = key)
    (hbefore : key ∉ before.map GhtBucket.key) :
    ghtFind key (before ++ b :: after) = some (before, ⟨b, after⟩) := by
  induction before with
  | nil => rw [List.nil_append, ghtFind, if_pos hb]
  | cons x before ih =>
      rw [List.map_cons, List.mem_cons, not_or] at hbefore
      rw [List.cons_append, ghtFind, if_neg (Ne.symm hbefore.1), ih hbefore.2]
      rfl

theorem HoldsZero.cut_ok (hz : HoldsZero ht ht' before after data) (h : Shaped ht) :
    Chain.Ok ht.size (ghtHash ht 0) ⟨(ghtChain ht 0).head, before⟩ := by
  have hok := h.chain_ok 0
  apply hok.sublist
  · rw [Chain.entries, Chain.entries, Chain.buckets, Chain.buckets, hz.next]
    exact ((List.sublist_append_left before after).cons_cons _).filterMap _
  · intro hnone
    have hs := hz.stored
    rw [hnone] at hs
    cases hs
  · exact fun b hb => hok.stored b (by rw [hz.next]; exact List.mem_append_left _ hb)

theorem HoldsZero.del_get (hz : HoldsZero ht ht' before after data) (h : Shaped ht) (j : Nat) :
    serverGhtGet (serverGhtDel A ht' 0).2 j =
      serverGhtGet (setChain ht 0 ⟨(ghtChain ht 0).head, before⟩) j := by
  have hok := h.chain_ok 0
  have hslot : ghtHash ht' 0 = ghtHash ht 0 := by rw [ghtHash, ghtHash, hz.size]
  have hbefore : 0 ∉ before.map GhtBucket.key := by
    intro hm
    apply not_mem_next_zero h
    rw [hz.next, List.map_append]
    exact List.mem_append_left _ hm
  have hcut := hz.cut_ok h
  have hdel : ∃ x, serverGhtDel A ht' 0 = (true, ghtCheckLoad A x) ∧
      x.table = (setChain ht 0 ⟨(ghtChain ht 0).head, before⟩).table ∧ x.size = ht.size ∧
      x.minSize = ht.minSize := by
    have hfind : ghtFind 0 (before ++ ⟨0, some data, inHeap⟩ :: after) =
        some (before, ⟨⟨0, some data, inHeap⟩, after⟩) := ghtFind_middle rfl hbefore
    rw [serverGhtDel, hz.chain h, if_pos rfl, if_neg (head_key_ne_zero h hz.stored)]
    dsimp only
    rw [hfind]
    refine ⟨_, rfl, ?_, hz.size, hz.minSize⟩
    change ht'.table.set (ghtHash ht' 0) _ = _
    rw [hslot, hz.table, setChain, setChain, List.set_set]
  obtain ⟨x, hx, htable, hsize, hmin⟩ := hdel
  rw [hx, ghtCheckLoad_get (h.setChain hcut) htable hsize hmin]

theorem HoldsZero.del_same_iff (hz : HoldsZero ht ht' before after data) (h : Shaped ht) :
    (∀ j, serverGhtGet (serverGhtDel A ht' 0).2 j = serverGhtGet ht j) ↔
      bucketEntries after = [] := by
  have hok := h.chain_ok 0
  have hsplit : (ghtChain ht 0).entries =
      (⟨(ghtChain ht 0).head, before⟩ : Chain V).entries ++ bucketEntries after := by
    rw [Chain.entries, Chain.entries, Chain.buckets, Chain.buckets, hz.next, ← List.cons_append,
      bucketEntries_append]
  have hcut := hz.cut_ok h
  simp only [hz.del_get h, get_setChain h]
  constructor
  · intro hsame
    by_contra hne
    obtain ⟨⟨k, x⟩, hafter⟩ := List.exists_mem_of_ne_nil _ hne
    have hmem : (k, x) ∈ (ghtChain ht 0).entries := hsplit ▸ List.mem_append_right _ hafter
    have hk := hsame k
    have hplaced : ghtHash ht k = ghtHash ht 0 := hok.placed _ hmem
    have hchain : ghtChain ht k = ghtChain ht 0 := by rw [ghtChain, hplaced, ← ghtChain]
    rw [if_pos hplaced, serverGhtGet, hchain, (hok.get_iff k x).mpr hmem,
      hcut.get_iff] at hk
    have hdistinct := hok.distinct
    rw [hsplit, List.map_append, List.nodup_append] at hdistinct
    exact hdistinct.2.2 k (List.mem_map.mpr ⟨_, hk, rfl⟩) k (List.mem_map.mpr ⟨_, hafter, rfl⟩) rfl
  · intro hempty j
    rw [hempty, List.append_nil] at hsplit
    split
    · next hj =>
        have hchain : ghtChain ht j = ghtChain ht 0 := by rw [ghtChain, hj, ← ghtChain]
        apply Option.ext
        intro x
        rw [hcut.get_iff, ← hsplit, serverGhtGet, hchain, hok.get_iff]
    · rfl

theorem HoldsZero.buckets (hz : HoldsZero ht ht' (ghtChain ht 0).next [] data) (h : Shaped ht) :
    ht'.table.flatMap Chain.buckets = (ghtChain ht 0).buckets ++
      ⟨0, some data, inHeap⟩ :: (ht.table.drop 1).flatMap Chain.buckets := by
  have hlt := ghtHash_lt h 0
  have hzero : ghtHash ht 0 = 0 := Nat.zero_mod _
  rw [hz.table, setChain, List.set_eq_take_append_cons_drop, if_pos hlt, hzero, List.take_zero,
    List.nil_append, List.flatMap_cons, Chain.buckets, Chain.buckets]
  simp

theorem early_zero (h : Shaped ht) : early ht 0 = bucketEntries (ghtChain ht 0).buckets := by
  have hlt := ghtHash_lt h 0
  have hzero : ghtHash ht 0 = 0 := Nat.zero_mod _
  have hchain : ht.table[ghtHash ht 0] = ghtChain ht 0 := by
    rw [ghtChain, List.getD_eq_getElem?_getD, List.getElem?_eq_getElem hlt, Option.getD_some]
  rw [early, List.take_succ_eq_append_getElem hlt, hchain, hzero, List.take_zero, List.nil_append,
    List.flatMap_singleton]
  rfl

theorem late_zero (ht : ServerGht V L) :
    late ht 0 = bucketEntries ((ht.table.drop 1).flatMap Chain.buckets) := by
  rw [late, ghtHash, Nat.zero_mod, Nat.zero_add, bucketEntries, List.filterMap_flatMap]
  rfl

structure Halves (ht x : ServerGht V L) (bs cs : List (GhtBucket V)) : Prop where
  entries : ht.entries = bucketEntries bs ++ bucketEntries cs
  table : Shaped ht
  shaped : Shaped x
  empty : ∀ j, ghtChain x j = Chain.empty

section Halves

variable {bs cs : List (GhtBucket V)}

theorem Halves.get_none (hv : Halves ht x bs cs) (j : Nat) : serverGhtGet x j = none := by
  rw [serverGhtGet, hv.empty]
  rfl

theorem Halves.movable (hv : Halves ht x bs cs) :
    Movable x (bucketEntries bs ++ bucketEntries cs) := by
  rw [← hv.entries]
  exact ⟨hv.table.keys_nodup, fun e he => ⟨entries_key_ne_zero hv.table he, hv.get_none e.1⟩⟩

theorem Halves.first (hv : Halves ht x bs cs) :
    Adds A x (bs.foldl (ghtMove A) x) (bucketEntries bs) :=
  foldl_ghtMove_adds A bs hv.shaped hv.movable.left

theorem Halves.first_chain (hv : Halves ht x bs cs) :
    (ghtChain (bs.foldl (ghtMove A) x) 0).entries =
      (bucketEntries bs).filter (fun e => e.1 % x.size = 0) := by
  have hchain := (foldl_ghtMove_appends (A := A) bs hv.shaped hv.movable.left).chain 0
  rw [hv.empty, Nat.zero_mod] at hchain
  exact hchain

theorem Halves.rest (hv : Halves ht x bs cs) (hx : Adds A x ht' (bucketEntries bs)) :
    Shaped (cs.foldl (ghtMove A) ht') ∧
      ∀ j, serverGhtGet (cs.foldl (ghtMove A) ht') j = serverGhtGet ht j := by
  have hall := hx.trans (foldl_ghtMove_adds A cs hx.shaped (hv.movable.right hx))
  refine ⟨hall.shaped, fun j => Option.ext fun d => ?_⟩
  rw [hall.get_iff, hv.get_none, get_eq_some_iff hv.table, hv.entries]
  simp

theorem Halves.dropped (hv : Halves ht x bs cs)
    (hhead : (ghtChain (bs.foldl (ghtMove A) x) 0).head.data = none) (j : Nat) :
    serverGhtGet (serverGhtDel A (cs.foldl (ghtMove A)
      (ghtMove A (bs.foldl (ghtMove A) x) ⟨0, some data, inHeap⟩)) 0).2 j =
        serverGhtGet ht j := by
  have hfirst : Adds A x (bs.foldl (ghtMove A) x) (bucketEntries bs) := hv.first
  have hmove : ghtMove A (bs.foldl (ghtMove A) x) ⟨0, some data, inHeap⟩ =
      { bs.foldl (ghtMove A) x with
        freed := (bs.foldl (ghtMove A) x).freed ++ [⟨0, some data, inHeap⟩] } := by
    simp only [ghtMove, ghtInsert_zero_empty hfirst.shaped hhead]
    rfl
  obtain ⟨hshaped, hsame⟩ := hv.rest (hfirst.freed _)
  rw [hmove, serverGhtDel_zero_get hshaped, hsame]

theorem Halves.linked (hv : Halves ht x bs cs)
    (hs : (ghtChain (bs.foldl (ghtMove A) x) 0).head.data.isSome) :
    (∀ j, serverGhtGet (serverGhtDel A (cs.foldl (ghtMove A)
      (ghtMove A (bs.foldl (ghtMove A) x) ⟨0, some data, inHeap⟩)) 0).2 j = serverGhtGet ht j) ↔
        (bucketEntries cs).filter (fun e => e.1 % x.size = 0) = [] := by
  have hfirst : Adds A x (bs.foldl (ghtMove A) x) (bucketEntries bs) := hv.first
  obtain ⟨-, hz, -⟩ := ghtInsert_zero_stored A data hfirst.shaped hs
  have hmove : HoldsZero (bs.foldl (ghtMove A) x)
      (ghtMove A (bs.foldl (ghtMove A) x) ⟨0, some data, inHeap⟩)
      (ghtChain (bs.foldl (ghtMove A) x) 0).next [] data :=
    ⟨hz.stored, hz.next, hz.table, hz.size, hz.minSize⟩
  obtain ⟨after, hz', hafter⟩ := hmove.foldl_move (A := A) cs hfirst.shaped
    (hv.movable.right hfirst)
  obtain ⟨hshaped, hsame⟩ := hv.rest hfirst
  have hdel := hz'.del_same_iff (A := A) hshaped
  simp only [hsame] at hdel
  rw [hdel, hafter, bucketEntries_nil, List.nil_append, hfirst.size]

end Halves

theorem foldl_ghtMove_zero (h : Shaped ht) (hx : Shaped x)
    (hempty : ∀ j, ghtChain x j = Chain.empty) :
    (∀ j, serverGhtGet (serverGhtDel A (((ht.table.drop 1).flatMap Chain.buckets).foldl (ghtMove A)
        (ghtMove A ((ghtChain ht 0).buckets.foldl (ghtMove A) x) ⟨0, some data, inHeap⟩)) 0).2 j =
      serverGhtGet ht j) ↔
    ¬ ((early ht 0).filter (fun e => e.1 % x.size = 0 % x.size) ≠ [] ∧
      (late ht 0).filter (fun e => e.1 % x.size = 0 % x.size) ≠ []) := by
  have hentries := entries_eq_early_late ht 0
  rw [early_zero h, late_zero] at hentries
  have hv : Halves ht x (ghtChain ht 0).buckets ((ht.table.drop 1).flatMap Chain.buckets) :=
    ⟨hentries, h, hx, hempty⟩
  have hchain := hv.first_chain (A := A)
  rw [early_zero h, late_zero, Nat.zero_mod, ← hchain, not_and_or, not_not, not_not]
  cases hhead : (ghtChain ((ghtChain ht 0).buckets.foldl (ghtMove A) x) 0).head.data with
  | none =>
      have hfirst : Adds A x _ (bucketEntries (ghtChain ht 0).buckets) := hv.first
      exact iff_of_true (hv.dropped hhead) (.inl ((hfirst.shaped.chain_ok 0).entries_empty hhead))
  | some d =>
      rw [hv.linked (Option.isSome_iff_exists.mpr ⟨d, hhead⟩), or_iff_right]
      rw [head_entries hhead]
      exact List.cons_ne_nil _ _

/-- A table whose load is checked with key 0 in it: the rehash may have dropped the key, and if not,
it says what stands behind it. -/
theorem HoldsZero.checkLoad (hz : HoldsZero ht ht' (ghtChain ht 0).next [] data) (h : Shaped ht)
    (hnew : ghtNewSize A ht' = ghtNewSize A (ghtInc A ht)) :
    (∀ j, serverGhtGet (serverGhtDel A (ghtCheckLoad A ht') 0).2 j = serverGhtGet ht j) ↔
      ¬ parted A ht 0 := by
  rw [ghtCheckLoad_eq, hnew, hz.size]
  by_cases hkept : ghtNewSize A (ghtInc A ht) = ht.size
  · rw [if_pos hkept, hz.del_same_iff h]
    exact iff_of_true rfl (not_parted_of_kept hkept)
  · have hinc : Shaped (ghtInc A ht) := h.congr rfl rfl rfl
    have hcleared : Shaped (cleared ht' (ghtNewSize A (ghtInc A ht))) :=
      (cleared_shaped h (ghtNewSize_pos A hinc)).congr rfl rfl hz.minSize
    rw [if_neg hkept, ghtRehash, ← List.foldl_flatMap, hz.buckets h, List.foldl_append,
      List.foldl_cons, foldl_ghtMove_zero h hcleared (ghtChain_cleared ht' _), parted_iff A h]
    rfl

end ChityChat.ServerHt
