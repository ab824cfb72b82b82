import ChityChat.ServerHtOrder

namespace ChityChat.ServerHt

open Transition

variable {V L : Type} {A : LoadFactor L} {ht ht' : ServerGht V L} {key : Nat} {data d : V}
  {n i : Nat} {c c' : Chain V} {es : List (Nat × V)}

/-- The chain of bucket `i` in an array of `n`, key 0 among the others. An empty array bucket is a
zeroed one. -/
structure Chain.Linked (n i : Nat) (c : Chain V) : Prop where
  empty_head : c.head.data = none → c.head.key = 0 ∧ c.next = []
  stored : ∀ b ∈ c.next, b.data.isSome
  placed : ∀ e ∈ c.entries, e.1 % n = i
  distinct : (c.entries.map Prod.fst).Nodup
  flagged : c.Flagged

structure Linked (ht : ServerGht V L) : Prop where
  size_pos : 0 < ht.size
  min_pos : 0 < ht.minSize
  length : ht.table.length = ht.size
  chains : ∀ (i : Nat) (c : Chain V), ht.table[i]? = some c → c.Linked ht.size i

def chainKeys (c : Chain V) : List Nat := c.entries.map Prod.fst

def Blocked (keys : List Nat) (key : Nat) : Prop := key ∈ keys ∨ key = 0 ∧ keys = []

instance (keys : List Nat) (key : Nat) : Decidable (Blocked keys key) :=
  inferInstanceAs (Decidable (_ ∨ _ ∧ _))

def linkEntry (es : List (Nat × V)) (e : Nat × V) : List (Nat × V) :=
  if Blocked (es.map Prod.fst) e.1 then es else es ++ [e]

def cutEntries (key : Nat) : List (Nat × V) → List (Nat × V)
  | [] => []
  | e :: es => if e.1 = key then es else e :: es.takeWhile (fun e => e.1 ≠ key)

def OperateAny (A : LoadFactor L) (ht : ServerGht V L) (op : GhtOp V) (ht' : ServerGht V L) :
    Prop :=
  op.key < 2 ^ 64 ∧ ht' = ghtApply A ht op

theorem Chain.Linked.entries_empty (h : c.Linked n i) (hn : c.head.data = none) :
    c.entries = [] := by
  rw [Chain.entries, Chain.buckets, bucketEntries_cons_none hn, (h.empty_head hn).2,
    bucketEntries_nil]

theorem Chain.Linked.get_iff (h : c.Linked n i) (key : Nat) (data : V) :
    c.get key = some data ↔ (key, data) ∈ c.entries :=
  c.get_entries (fun hn => (h.empty_head hn).2) h.stored h.distinct key data

theorem Chain.empty_linked (n i : Nat) : (Chain.empty : Chain V).Linked n i :=
  ⟨fun _ => ⟨rfl, rfl⟩, fun _ hb => absurd hb List.not_mem_nil,
    fun _ he => absurd he List.not_mem_nil, List.nodup_nil, rfl,
    fun _ hb => absurd hb List.not_mem_nil⟩

theorem Chain.Linked.keys_stored (h : c.Linked n i) (hd : c.head.data = some d) :
    chainKeys c = c.buckets.map GhtBucket.key := by
  refine (map_key_eq fun b hb => ?_).symm
  rcases List.mem_cons.mp hb with rfl | hb
  · rw [hd]
    rfl
  · exact h.stored b hb

theorem Chain.Linked.blocked_iff (h : c.Linked n i) :
    Blocked (chainKeys c) key ↔ c.head.key = key ∨ key ∈ c.next.map GhtBucket.key := by
  cases hd : c.head.data with
  | none =>
      obtain ⟨hzero, hnext⟩ := h.empty_head hd
      have hkeys : chainKeys c = [] := by rw [chainKeys, h.entries_empty hd, List.map_nil]
      rw [hkeys, hzero, hnext, Blocked, eq_comm (a := 0)]
      simp
  | some d =>
      rw [h.keys_stored hd, Chain.buckets, List.map_cons, Blocked, List.mem_cons, eq_comm (a := key)]
      simp

variable (data) in
theorem Chain.Linked.insert_blocked (h : c.Linked n i) (hb : Blocked (chainKeys c) key) :
    c.insert key data = none := by
  rw [Chain.insert]
  rcases h.blocked_iff.mp hb with hhead | hnext
  · rw [if_pos hhead]
  · have hs : c.head.data.isSome := by
      rw [Option.isSome_iff_ne_none]
      intro hd
      rw [(h.empty_head hd).2] at hnext
      cases hnext
    rw [ghtLink_eq, if_pos hnext, if_pos hs]
    split <;> rfl

theorem Chain.Linked.append (h : c.Linked n i) (hi : key % n = i) (hk : key ∉ chainKeys c)
    (he : c'.entries = c.entries ++ [(key, data)]) (hh : c'.head.data.isSome)
    (hs : ∀ b ∈ c'.next, b.data.isSome) (hf : c'.Flagged) : c'.Linked n i := by
  refine ⟨fun hd => by simp [hd] at hh, hs, ?_, ?_, hf⟩
  · rw [he]
    intro e hm
    rcases List.mem_append.mp hm with hm | hm
    · exact h.placed e hm
    · rw [List.mem_singleton.mp hm]
      exact hi
  · rw [he, List.map_append, List.nodup_append]
    refine ⟨h.distinct, List.nodup_singleton _, fun a ha b hb => ?_⟩
    rintro rfl
    rw [List.mem_singleton.mp hb] at ha
    exact hk ha

variable (data) in
theorem Chain.Linked.insert_free (h : c.Linked n i) (hi : key % n = i)
    (hb : ¬ Blocked (chainKeys c) key) :
    ∃ c', c.insert key data = some c' ∧ c'.Linked n i ∧
      c'.entries = c.entries ++ [(key, data)] := by
  have hkeys : key ∉ chainKeys c := fun hm => hb (.inl hm)
  rw [h.blocked_iff, not_or] at hb
  obtain ⟨c', hinsert, he, hs, hstored, hf⟩ := Chain.insert_new data
    (fun hd => (h.empty_head hd).2) hb.1 hb.2
  exact ⟨c', hinsert, h.append hi hkeys he hs (hstored h.stored) (hf h.flagged), he⟩

theorem Chain.Linked.delete_head (h : c.Linked n i) :
    ∃ c', c.delete = some c' ∧ c'.Linked n i ∧ c'.entries = bucketEntries c.next := by
  cases hn : c.next with
  | nil =>
      refine ⟨Chain.empty, ?_, Chain.empty_linked n i, rfl⟩
      rw [Chain.delete, hn, h.flagged.1]
      rfl
  | cons b bs =>
      obtain ⟨x, hx⟩ := Option.isSome_iff_exists.mp (h.stored b (by simp [hn]))
      have hent : (⟨{ b with inheap := inArray }, bs⟩ : Chain V).entries =
          bucketEntries (b :: bs) := by
        rw [head_entries (c := ⟨{ b with inheap := inArray }, bs⟩) hx, bucketEntries_cons_some hx]
      have hsub : (bucketEntries (b :: bs)).Sublist c.entries := by
        rw [Chain.entries, Chain.buckets, hn]
        exact (List.sublist_cons_self _ _).filterMap _
      refine ⟨⟨{ b with inheap := inArray }, bs⟩, ?_, ⟨?_, ?_, ?_, ?_, rfl, ?_⟩, hent⟩
      · rw [Chain.delete, hn, h.flagged.1]
        rfl
      · intro hd
        rw [hx] at hd
        cases hd
      · exact fun d hd => h.stored d (by simp [hn, hd])
      · exact fun e he => h.placed e (hsub.subset (hent ▸ he))
      · rw [hent]
        exact h.distinct.sublist (hsub.map _)
      · exact fun d hd => h.flagged.2 d (by simp [hn, hd])

theorem Chain.Linked.cut (h : c.Linked n i) {before : List (GhtBucket V)} (hn : before <+: c.next) :
    Chain.Linked n i ⟨c.head, before⟩ := by
  have hsub : (⟨c.head, before⟩ : Chain V).entries.Sublist c.entries :=
    (hn.sublist.cons_cons _).filterMap _
  refine ⟨fun hd => ⟨(h.empty_head hd).1, ?_⟩, fun b hb => h.stored b (hn.subset hb),
    fun e he => h.placed e (hsub.subset he), h.distinct.sublist (hsub.map _), h.flagged.1,
    fun b hb => h.flagged.2 b (hn.subset hb)⟩
  rw [(h.empty_head hd).2] at hn
  exact List.prefix_nil.mp hn

theorem Linked.hash_lt (h : Linked ht) (key : Nat) : ghtHash ht key < ht.table.length := by
  rw [h.length]
  exact Nat.mod_lt _ h.size_pos

theorem Linked.chain (h : Linked ht) (key : Nat) :
    (ghtChain ht key).Linked ht.size (ghtHash ht key) := by
  apply h.chains
  rw [ghtChain, List.getD_eq_getElem?_getD, List.getElem?_eq_getElem (h.hash_lt key),
    Option.getD_some]

theorem Linked.congr (h : Linked ht) (htable : ht'.table = ht.table) (hsize : ht'.size = ht.size)
    (hmin : ht'.minSize = ht.minSize) : Linked ht' :=
  ⟨hsize ▸ h.size_pos, hmin ▸ h.min_pos, by rw [htable, hsize, h.length],
    by rw [htable, hsize]; exact h.chains⟩

theorem Linked.set (h : Linked ht) (hc : c.Linked ht.size (ghtHash ht key)) :
    Linked (setChain ht key c) := by
  refine ⟨h.size_pos, h.min_pos, by simpa [setChain] using h.length, ?_⟩
  intro i x hx
  by_cases hi : ghtHash ht key = i
  · subst hi
    simp only [setChain, List.getElem?_set_self (h.hash_lt key), Option.some.injEq] at hx
    exact hx ▸ hc
  · rw [setChain, List.getElem?_set_ne hi] at hx
    exact h.chains i x hx

theorem Linked.get_iff (h : Linked ht) (key : Nat) (data : V) :
    serverGhtGet ht key = some data ↔ (key, data) ∈ (ghtChain ht key).entries :=
  (h.chain key).get_iff key data

theorem Linked.get_none_iff (h : Linked ht) (key : Nat) :
    serverGhtGet ht key = none ↔ key ∉ chainKeys (ghtChain ht key) := by
  rw [Option.eq_none_iff_forall_ne_some, chainKeys, List.mem_map]
  constructor
  · rintro hnone ⟨⟨k, d⟩, hm, rfl⟩
    exact hnone d ((h.get_iff k d).mpr hm)
  · exact fun hn d hd => hn ⟨(key, d), (h.get_iff key d).mp hd, rfl⟩

variable (A data) in
theorem Linked.insert_blocked (h : Linked ht) (hb : Blocked (chainKeys (ghtChain ht key)) key) :
    ghtInsert A ht key data = (false, ht) := by
  rw [ghtInsert, (h.chain key).insert_blocked data hb]

variable (A data) in
theorem Linked.insert_free (h : Linked ht) (hb : ¬ Blocked (chainKeys (ghtChain ht key)) key) :
    ∃ c, ghtInsert A ht key data = (true, ghtInc A (setChain ht key c)) ∧
      c.Linked ht.size (ghtHash ht key) ∧
        c.entries = (ghtChain ht key).entries ++ [(key, data)] := by
  obtain ⟨c, hc, hlinked, he⟩ := (h.chain key).insert_free data rfl hb
  refine ⟨c, ?_, hlinked, he⟩
  rw [ghtInsert, hc]
  rfl

/-- What an insertion, or a move of several entries, does to a table whose array stays: `es` are
linked one after the other. -/
structure Links (ht ht' : ServerGht V L) (es : List (Nat × V)) : Prop where
  linked : Linked ht'
  size : ht'.size = ht.size
  minSize : ht'.minSize = ht.minSize
  chain : ∀ j, (ghtChain ht' j).entries =
    (es.filter (fun e => e.1 % ht.size = j % ht.size)).foldl linkEntry (ghtChain ht j).entries

theorem Links.refl (h : Linked ht) : Links ht ht [] := ⟨h, rfl, rfl, fun _ => rfl⟩

theorem Links.trans {ht'' : ServerGht V L} {es' : List (Nat × V)} (h : Links ht ht' es)
    (h' : Links ht' ht'' es') : Links ht ht'' (es ++ es') := by
  refine ⟨h'.linked, h'.size.trans h.size, h'.minSize.trans h.minSize, fun j => ?_⟩
  rw [h'.chain, h.chain, h.size, List.filter_append, List.foldl_append]

theorem Links.freed (h : Links ht ht' es) (log : List (GhtBucket V)) :
    Links ht { ht' with freed := log } es :=
  ⟨h.linked.congr rfl rfl rfl, h.size, h.minSize, h.chain⟩

variable (A data) in
theorem Linked.insert (h : Linked ht) (key : Nat) :
    Links ht (ghtInsert A ht key data).2 [(key, data)] := by
  by_cases hb : Blocked (chainKeys (ghtChain ht key)) key
  · rw [h.insert_blocked A data hb]
    refine ⟨h, rfl, rfl, fun j => ?_⟩
    by_cases hj : key % ht.size = j % ht.size
    · have hsame : ghtChain ht j = ghtChain ht key := by rw [ghtChain, ghtHash, ← hj]; rfl
      rw [List.filter_cons_of_pos (by simpa using hj), hsame]
      exact (if_pos hb).symm
    · rw [List.filter_cons_of_neg (by simpa using hj)]
      rfl
  · obtain ⟨c, hinsert, hc, he⟩ := h.insert_free A data hb
    rw [hinsert]
    refine ⟨(h.set hc).congr rfl rfl rfl, rfl, rfl, fun j => ?_⟩
    have hcount : ghtChain (ghtInc A (setChain ht key c)) j =
        ghtChain (setChain ht key c) j := ghtChain_congr rfl rfl j
    rw [hcount, ghtChain_set (h.hash_lt key), ghtHash, ghtHash]
    by_cases hj : key % ht.size = j % ht.size
    · have hsame : ghtChain ht j = ghtChain ht key := by rw [ghtChain, ghtHash, ← hj]; rfl
      rw [if_pos hj.symm, he, List.filter_cons_of_pos (by simpa using hj), hsame]
      exact (if_neg hb).symm
    · rw [if_neg (Ne.symm hj), List.filter_cons_of_neg (by simpa using hj)]
      rfl

theorem Linked.move (h : Linked ht) (b : GhtBucket V) :
    Links ht (ghtMove A ht b) (bucketEntries [b]) :=
  ghtMove_cases (P := Links ht) (fun _ _ log hx => hx.freed log) (Links.refl h)
    (fun data _ => h.insert A data b.key)

theorem Linked.foldl_move (h : Linked ht) (bs : List (GhtBucket V)) :
    Links ht (bs.foldl (ghtMove A) ht) (bucketEntries bs) := by
  induction bs generalizing ht with
  | nil => exact Links.refl h
  | cons b bs ih =>
      have hb := h.move (A := A) b
      rw [bucketEntries_cons]
      exact hb.trans (ih hb.linked)

theorem Linked.clear (h : Linked ht) {newSize : Nat} (hn : 0 < newSize) :
    Linked (cleared ht newSize) := by
  refine ⟨hn, h.min_pos, List.length_replicate, fun i c hc => ?_⟩
  rw [List.eq_of_mem_replicate (List.mem_of_getElem? hc)]
  exact Chain.empty_linked _ _

theorem Linked.newSize_pos (h : Linked ht) : 0 < ghtNewSize A ht := by
  have hsize := h.size_pos
  have hmin := h.min_pos
  unfold ghtNewSize clamped
  split_ifs <;> omega

theorem Linked.rehash (h : Linked ht) {newSize : Nat} (hn : 0 < newSize) :
    Links (cleared ht newSize) (ghtRehash A (cleared ht newSize) ht.table) ht.entries := by
  rw [ghtRehash, ← List.foldl_flatMap, entries_eq_bucketEntries]
  exact (h.clear hn).foldl_move _

theorem Linked.checkLoad (h : Linked ht) : Linked (ghtCheckLoad A ht) := by
  rw [ghtCheckLoad_eq]
  split
  · exact h
  · exact (h.rehash h.newSize_pos).linked

/-- What a deletion does before the load check. -/
structure Cuts (A : LoadFactor L) (ht ht' : ServerGht V L) (key : Nat) : Prop where
  linked : Linked ht'
  size : ht'.size = ht.size
  newSize : ghtNewSize A ht' = ghtNewSize A (ghtDec A ht)
  chain : ∀ j, (ghtChain ht' j).entries = if j % ht.size = key % ht.size then
    cutEntries key (ghtChain ht j).entries else (ghtChain ht j).entries

theorem Linked.cuts (h : Linked ht) (hc : c.Linked ht.size (ghtHash ht key))
    (he : c.entries = cutEntries key (ghtChain ht key).entries)
    (htable : ht'.table = (setChain ht key c).table) (hsize : ht'.size = ht.size)
    (hmin : ht'.minSize = ht.minSize) (hignore : ht'.ignoreResize = ht.ignoreResize)
    (hload : ht'.load = (ghtDec A ht).load) : Cuts A ht ht' key := by
  refine ⟨(h.set hc).congr htable hsize hmin, hsize, ?_, fun j => ?_⟩
  · simp only [ghtNewSize, clamped, hsize, hmin, hignore, hload]
    rfl
  · have hset : ghtChain ht' j = ghtChain (setChain ht key c) j := ghtChain_congr htable hsize j
    rw [hset, ghtChain_set (h.hash_lt key), ghtHash, ghtHash]
    by_cases hj : j % ht.size = key % ht.size
    · have hsame : ghtChain ht j = ghtChain ht key := by rw [ghtChain, ghtHash, hj]; rfl
      rw [if_pos hj, if_pos hj, he, hsame]
    · rw [if_neg hj, if_neg hj]

theorem takeWhile_bucketEntries {before : List (GhtBucket V)} {hit : Chain V}
    (hs : ∀ b ∈ before ++ hit.buckets, b.data.isSome)
    (hd : ((bucketEntries (before ++ hit.buckets)).map Prod.fst).Nodup) :
    (bucketEntries (before ++ hit.buckets)).takeWhile (fun e => e.1 ≠ hit.head.key) =
      bucketEntries before := by
  obtain ⟨x, hx⟩ := Option.isSome_iff_exists.mp
    (hs hit.head (List.mem_append_right _ List.mem_cons_self))
  rw [bucketEntries_append, Chain.buckets, bucketEntries_cons_some hx] at hd ⊢
  rw [List.map_append, List.nodup_append] at hd
  have hkept : ∀ e ∈ bucketEntries before, decide (e.1 ≠ hit.head.key) = true := by
    intro e he
    exact decide_eq_true (hd.2.2 e.1 (List.mem_map.mpr ⟨e, he, rfl⟩) _ List.mem_cons_self)
  rw [List.takeWhile_append_of_pos hkept, List.takeWhile_cons_of_neg (by simp), List.append_nil]

theorem Linked.del_free (h : Linked ht) (hb : ¬ Blocked (chainKeys (ghtChain ht key)) key) :
    serverGhtDel A ht key = (false, ht) := by
  rw [(h.chain key).blocked_iff, not_or] at hb
  cases hfind : ghtFind key (ghtChain ht key).next with
  | none => rw [serverGhtDel, if_neg hb.1, hfind]
  | some p =>
      obtain ⟨hnext, hkey⟩ := ghtFind_some hfind
      refine absurd (List.mem_map.mpr ⟨p.2.head, ?_, hkey⟩) hb.2
      rw [hnext]
      exact List.mem_append_right _ List.mem_cons_self

theorem Linked.del_blocked (h : Linked ht) (hb : Blocked (chainKeys (ghtChain ht key)) key) :
    ∃ x, serverGhtDel A ht key = (true, ghtCheckLoad A x) ∧ Cuts A ht x key := by
  have hchain := h.chain key
  by_cases hhead : (ghtChain ht key).head.key = key
  · obtain ⟨c, hc, hlinked, he⟩ := hchain.delete_head
    refine ⟨_, by rw [serverGhtDel, if_pos hhead]; rfl, ?_⟩
    rw [hc]
    refine h.cuts hlinked ?_ rfl rfl rfl rfl rfl
    cases hd : (ghtChain ht key).head.data with
    | none => rw [he, hchain.entries_empty hd, (hchain.empty_head hd).2]; rfl
    | some d => rw [he, head_entries hd, cutEntries, if_pos hhead]
  · cases hfind : ghtFind key (ghtChain ht key).next with
    | none =>
        exact absurd ((hchain.blocked_iff.mp hb).resolve_left hhead) (ghtFind_none hfind)
    | some p =>
        obtain ⟨before, hit⟩ := p
        obtain ⟨hnext, hkey⟩ := ghtFind_some hfind
        refine ⟨_, by rw [serverGhtDel, if_neg hhead, hfind]; rfl, ?_⟩
        refine h.cuts (hchain.cut ⟨hit.buckets, hnext.symm⟩) ?_ rfl rfl rfl rfl rfl
        cases hd : (ghtChain ht key).head.data with
        | none =>
            rw [(hchain.empty_head hd).2, Chain.buckets] at hnext
            cases before <;> cases hnext
        | some d =>
            have hdistinct := hchain.distinct
            rw [head_entries hd, hnext, List.map_cons, List.nodup_cons] at hdistinct
            have hcut := takeWhile_bucketEntries (hnext ▸ hchain.stored) hdistinct.2
            rw [hkey] at hcut
            rw [head_entries hd, cutEntries, if_neg hhead, hnext, hcut]
            exact head_entries hd

theorem Linked.apply (h : Linked ht) (op : GhtOp V) : Linked (ghtApply A ht op) := by
  cases op with
  | insert key data =>
      cases data with
      | none => exact h
      | some data =>
          have hlinks := h.insert A data key
          rw [ghtApply, serverGhtInsert]
          split
          · next heq =>
              rw [heq] at hlinks
              exact hlinks.linked.checkLoad
          · next heq =>
              rw [heq] at hlinks
              exact hlinks.linked
  | del key =>
      rw [ghtApply]
      by_cases hb : Blocked (chainKeys (ghtChain ht key)) key
      · obtain ⟨x, hdel, hcuts⟩ := h.del_blocked (A := A) hb
        rw [hdel]
        exact hcuts.linked.checkLoad
      · rw [h.del_free hb]
        exact h

theorem reachable_linked (hr : Reachable (Initial A) (OperateAny A) ht) : Linked ht := by
  refine hr.invariant ?_ (fun _ op _ h hs => hs.2 ▸ h.apply op)
  rintro s ⟨size, free, hs⟩
  rw [serverGhtInit] at hs
  split at hs
  · cases hs
  · next hsize =>
      obtain rfl := Option.some.inj hs
      have hpos := Nat.pos_of_ne_zero hsize
      refine ⟨hpos, hpos, List.length_replicate, fun i c hc => ?_⟩
      rw [List.eq_of_mem_replicate (List.mem_of_getElem? hc)]
      exact Chain.empty_linked _ _

end ChityChat.ServerHt
