import ChityChat.ServerHtShape

namespace ChityChat.ServerHt

variable {V L : Type}

def Chain.Flagged (c : Chain V) : Prop :=
  c.head.inheap = inArray ∧ ∀ b ∈ c.next, b.inheap = inHeap

def Flagged (ht : ServerGht V L) : Prop := ∀ c ∈ ht.table, c.Flagged

theorem ghtLink_eq (key : Nat) (data : V) (bs : List (GhtBucket V)) :
    ghtLink key data bs =
      if key ∈ bs.map GhtBucket.key then none else some (bs ++ [⟨key, some data, inHeap⟩]) := by
  induction bs with
  | nil => simp [ghtLink]
  | cons b bs ih =>
      by_cases hb : b.key = key
      · simp [ghtLink, hb]
      · by_cases hm : key ∈ bs.map GhtBucket.key <;> simp_all [ghtLink, Ne.symm hb]

theorem Chain.Ok.key_mem_next {n i : Nat} {c : Chain V} (h : c.Ok n i) {key : Nat}
    (hm : key ∈ c.next.map GhtBucket.key) : c.get key ≠ none := by
  rw [← h.key_mem_iff]
  obtain ⟨b, hb, rfl⟩ := List.mem_map.mp hm
  exact mem_keys_of_mem (List.mem_cons_of_mem _ hb) (h.stored b hb)

theorem Chain.Ok.key_head {n i : Nat} {c : Chain V} (h : c.Ok n i) {key : Nat} (hk : key ≠ 0)
    (hh : c.head.key = key) : c.get key ≠ none := by
  rw [← h.key_mem_iff, ← hh]
  apply mem_keys_of_mem List.mem_cons_self
  by_contra hn
  rw [Bool.not_eq_true, Option.isSome_eq_false_iff, Option.isNone_iff_eq_none] at hn
  exact hk (hh ▸ (h.empty_head hn).1)

theorem Chain.Ok.insert_present {n i : Nat} {c : Chain V} (h : c.Ok n i) {key : Nat} (data : V)
    (hp : c.get key ≠ none) : c.insert key data = none := by
  obtain ⟨e, he⟩ := Option.ne_none_iff_exists'.mp hp
  obtain ⟨b, hb, hbe⟩ := List.mem_filterMap.mp ((h.get_iff key e).mp he)
  obtain ⟨d, hd, hde⟩ := Option.map_eq_some_iff.mp hbe
  have hkey : b.key = key := (Prod.mk.inj hde).1
  by_cases hh : c.head.key = key
  · simp [Chain.insert, hh]
  · rcases List.mem_cons.mp hb with rfl | hn
    · exact absurd hkey hh
    · have hs : c.head.data.isSome := by
        by_contra hs
        rw [Bool.not_eq_true, Option.isSome_eq_false_iff, Option.isNone_iff_eq_none] at hs
        rw [(h.empty_head hs).2] at hn
        exact absurd hn List.not_mem_nil
      have hm : key ∈ c.next.map GhtBucket.key := List.mem_map.mpr ⟨b, hn, hkey⟩
      simp [Chain.insert, hh, hs, ghtLink_eq, hm]

theorem Chain.Ok.append {n i : Nat} {c c' : Chain V} (h : c.Ok n i) {key : Nat} {data : V}
    (hk : key ≠ 0) (hi : key % n = i) (hp : c.get key = none)
    (he : c'.entries = c.entries ++ [(key, data)]) (hh : c'.head.data.isSome)
    (hs : ∀ b ∈ c'.next, b.data.isSome) : c'.Ok n i := by
  have hn : key ∉ c.entries.map Prod.fst := by rw [h.key_mem_iff, not_not]; exact hp
  refine ⟨fun hd => by simp [hd] at hh, hs, ?_, ?_, ?_⟩
  · rw [he]
    intro e hm
    rcases List.mem_append.mp hm with hm | hm
    · exact h.key_ne e hm
    · rw [List.mem_singleton.mp hm]; exact hk
  · rw [he]
    intro e hm
    rcases List.mem_append.mp hm with hm | hm
    · exact h.placed e hm
    · rw [List.mem_singleton.mp hm]; exact hi
  · rw [he, List.map_append, List.nodup_append]
    refine ⟨h.distinct, by simp, ?_⟩
    intro a ha b hb
    simp only [List.map_cons, List.map_nil, List.mem_singleton] at hb
    exact fun hab => hn (hb ▸ hab ▸ ha)

/-- A key that no bucket of the chain has is put behind the last bucket that is used. -/
theorem Chain.insert_new {c : Chain V} {key : Nat} (data : V)
    (hempty : c.head.data = none → c.next = []) (hh : c.head.key ≠ key)
    (hm : key ∉ c.next.map GhtBucket.key) :
    ∃ c', c.insert key data = some c' ∧ c'.entries = c.entries ++ [(key, data)] ∧
      c'.head.data.isSome ∧
      ((∀ b ∈ c.next, b.data.isSome) → ∀ b ∈ c'.next, b.data.isSome) ∧
      (c.Flagged → c'.Flagged) := by
  cases hd : c.head.data with
  | none =>
      refine ⟨⟨{ c.head with key := key, data := some data }, c.next⟩, by
        simp [Chain.insert, hh, hd], ?_, rfl, id, fun hf => ⟨hf.1, hf.2⟩⟩
      simp [Chain.entries, Chain.buckets, hempty hd, bucketEntries, GhtBucket.entry, hd]
  | some e =>
      have hbehind (p : GhtBucket V → Prop) (hp : p ⟨key, some data, inHeap⟩)
          (hall : ∀ b ∈ c.next, p b) : ∀ b ∈ c.next ++ [⟨key, some data, inHeap⟩], p b := by
        rw [List.forall_mem_append, List.forall_mem_singleton]
        exact ⟨hall, hp⟩
      refine ⟨⟨c.head, c.next ++ [⟨key, some data, inHeap⟩]⟩, by
        simp [Chain.insert, hh, hd, ghtLink_eq, hm], ?_, by simp [hd],
        hbehind (fun b => b.data.isSome) rfl,
        fun hf => ⟨hf.1, hbehind (fun b => b.inheap = inHeap) rfl hf.2⟩⟩
      rw [Chain.entries, Chain.buckets, ← List.cons_append, bucketEntries_append]
      rfl

theorem Chain.Ok.insert_absent {n i : Nat} {c : Chain V} (h : c.Ok n i) {key : Nat} (data : V)
    (hk : key ≠ 0) (hi : key % n = i) (hp : c.get key = none) :
    ∃ c', c.insert key data = some c' ∧ c'.Ok n i ∧ c'.entries = c.entries ++ [(key, data)] ∧
      (c.Flagged → c'.Flagged) := by
  obtain ⟨c', hinsert, he, hs, hstored, hf⟩ := Chain.insert_new data
    (fun hd => (h.empty_head hd).2) (fun hh => h.key_head hk hh hp)
    (fun hm => h.key_mem_next hm hp)
  exact ⟨c', hinsert, h.append hk hi hp he hs (hstored h.stored), he, hf⟩

structure Adds (A : LoadFactor L) (ht ht' : ServerGht V L) (es : List (Nat × V)) : Prop where
  shaped : Shaped ht'
  get_iff : ∀ key data, serverGhtGet ht' key = some data ↔
    serverGhtGet ht key = some data ∨ (key, data) ∈ es
  length : ht'.entries.length = ht.entries.length + es.length
  count : ht'.count = ht.count + es.length
  load : ht.load = A.ratio ht.count ht.size ∨ es ≠ [] → ht'.load = A.ratio ht'.count ht'.size
  size : ht'.size = ht.size
  minSize : ht'.minSize = ht.minSize
  flagged : Flagged ht → Flagged ht'

theorem Adds.refl (A : LoadFactor L) {ht : ServerGht V L} (h : Shaped ht) : Adds A ht ht [] :=
  ⟨h, by simp, rfl, rfl, by simp, rfl, rfl, id⟩

theorem Adds.trans {A : LoadFactor L} {ht ht' ht'' : ServerGht V L} {es es' : List (Nat × V)}
    (h : Adds A ht ht' es) (h' : Adds A ht' ht'' es') : Adds A ht ht'' (es ++ es') := by
  refine ⟨h'.shaped, ?_, ?_, ?_, ?_, h'.size.trans h.size, h'.minSize.trans h.minSize,
    fun hf => h'.flagged (h.flagged hf)⟩
  · intro key data
    rw [h'.get_iff, h.get_iff, List.mem_append, or_assoc]
  · rw [h'.length, h.length, List.length_append, Nat.add_assoc]
  · rw [h'.count, h.count, List.length_append, Nat.add_assoc]
  · intro hl
    apply h'.load
    by_cases he : es' = []
    · rw [he, List.append_nil] at hl
      exact .inl (h.load hl)
    · exact .inr he

theorem Adds.absent {A : LoadFactor L} {ht ht' : ServerGht V L} {es : List (Nat × V)}
    (h : Adds A ht ht' es) {key : Nat} (hg : serverGhtGet ht key = none)
    (hn : key ∉ es.map Prod.fst) : serverGhtGet ht' key = none := by
  rw [Option.eq_none_iff_forall_ne_some]
  intro data hd
  rcases (h.get_iff key data).mp hd with hd | hd
  · rw [hg] at hd; cases hd
  · exact hn (List.mem_map.mpr ⟨_, hd, rfl⟩)

theorem ghtInsert_present (A : LoadFactor L) {ht : ServerGht V L} (h : Shaped ht) {key : Nat}
    (data : V) (hp : serverGhtGet ht key ≠ none) : ghtInsert A ht key data = (false, ht) := by
  rw [ghtInsert, (h.chain_ok key).insert_present data hp]

theorem ghtInsert_absent (A : LoadFactor L) {ht : ServerGht V L} (h : Shaped ht) {key : Nat}
    (data : V) (hk : key ≠ 0) (hp : serverGhtGet ht key = none) :
    ∃ ht', ghtInsert A ht key data = (true, ht') ∧ Adds A ht ht' [(key, data)] := by
  obtain ⟨c, hc, hok, he, hf⟩ := (h.chain_ok key).insert_absent data hk rfl hp
  refine ⟨ghtInc A (setChain ht key c), by rw [ghtInsert, hc]; rfl, ?_⟩
  have hs := h.setChain hok
  have hget (k : Nat) : serverGhtGet (ghtInc A (setChain ht key c)) k =
    serverGhtGet (setChain ht key c) k :=
    get_congr rfl rfl k
  refine ⟨hs.congr rfl rfl rfl, ?_, ?_, rfl, fun _ => rfl, rfl, rfl, ?_⟩
  · intro k d
    rw [hget, get_setChain h]
    by_cases hh : ghtHash ht k = ghtHash ht key
    · have hc : ghtChain ht k = ghtChain ht key := by rw [ghtChain, hh, ← ghtChain]
      rw [if_pos hh, hok.get_iff, he, List.mem_append, ← (h.chain_ok key).get_iff, serverGhtGet, hc]
    · have hne : k ≠ key := fun hk => hh (by rw [hk])
      simp [if_neg hh, hne]
  · have hl := entries_setChain_length h key c
    rw [he, List.length_append] at hl
    change (setChain ht key c).entries.length = _
    omega
  · intro hfl d hd
    rcases List.mem_or_eq_of_mem_set hd with hd | rfl
    · exact hfl d hd
    · exact hf (hfl _ (List.mem_of_getElem? (getElem?_ghtHash h key)))

/-- Entries that a table can take: their keys are distinct and not in it. -/
structure Movable (ht : ServerGht V L) (es : List (Nat × V)) : Prop where
  distinct : (es.map Prod.fst).Nodup
  absent : ∀ e ∈ es, e.1 ≠ 0 ∧ serverGhtGet ht e.1 = none

theorem Movable.left {ht : ServerGht V L} {es es' : List (Nat × V)} (h : Movable ht (es ++ es')) :
    Movable ht es := by
  obtain ⟨hd, hk⟩ := h
  rw [List.map_append, List.nodup_append] at hd
  exact ⟨hd.1, fun e he => hk e (List.mem_append_left _ he)⟩

theorem Movable.right {A : LoadFactor L} {ht ht' : ServerGht V L} {es es' : List (Nat × V)}
    (h : Movable ht (es ++ es')) (ha : Adds A ht ht' es) : Movable ht' es' := by
  obtain ⟨hd, hk⟩ := h
  rw [List.map_append, List.nodup_append] at hd
  refine ⟨hd.2.1, ?_⟩
  intro e he
  obtain ⟨hne, hg⟩ := hk e (List.mem_append_right _ he)
  refine ⟨hne, ha.absent hg ?_⟩
  exact fun hm => hd.2.2 _ hm _ (List.mem_map.mpr ⟨e, he, rfl⟩) rfl

theorem Adds.freed {A : LoadFactor L} {ht ht' : ServerGht V L} {es : List (Nat × V)}
    (ha : Adds A ht ht' es) (log : List (GhtBucket V)) : Adds A ht { ht' with freed := log } es :=
  ⟨ha.shaped.congr rfl rfl rfl, ha.get_iff, ha.length, ha.count, ha.load, ha.size, ha.minSize,
    ha.flagged⟩

theorem ghtMove_cases {A : LoadFactor L} {ht : ServerGht V L} {b : GhtBucket V}
    {P : ServerGht V L → List (Nat × V) → Prop}
    (hfreed : ∀ ht' es log, P ht' es → P { ht' with freed := log } es)
    (hempty : P ht [])
    (hdata : ∀ data, bucketEntries [b] = [(b.key, data)] →
      P (ghtInsert A ht b.key data).2 [(b.key, data)]) :
    P (ghtMove A ht b) (bucketEntries [b]) := by
  cases hd : b.data with
  | none =>
      rw [bucketEntries_cons_none hd, bucketEntries_nil]
      simp only [ghtMove, hd]
      split
      · exact hfreed _ _ _ hempty
      · exact hempty
  | some data =>
      have hes : bucketEntries [b] = [(b.key, data)] := by
        rw [bucketEntries_cons_some hd, bucketEntries_nil]
      rw [hes]
      simp only [ghtMove, hd]
      split
      · exact hfreed _ _ _ (hdata data hes)
      · exact hdata data hes

theorem ghtMove_adds (A : LoadFactor L) {ht : ServerGht V L} (h : Shaped ht) (b : GhtBucket V)
    (hk : ∀ e ∈ bucketEntries [b], e.1 ≠ 0 ∧ serverGhtGet ht e.1 = none) :
    Adds A ht (ghtMove A ht b) (bucketEntries [b]) := by
  refine ghtMove_cases (P := Adds A ht) (fun _ _ log ha => ha.freed log) (Adds.refl A h) ?_
  intro data hes
  obtain ⟨hne, hp⟩ := hk (b.key, data) (hes ▸ List.mem_cons_self)
  obtain ⟨ht', hi, ha⟩ := ghtInsert_absent A h data hne hp
  rw [hi]
  exact ha

theorem foldl_ghtMove_adds (A : LoadFactor L) (bs : List (GhtBucket V)) {ht : ServerGht V L}
    (h : Shaped ht) (hm : Movable ht (bucketEntries bs)) :
    Adds A ht (bs.foldl (ghtMove A) ht) (bucketEntries bs) := by
  induction bs generalizing ht with
  | nil => exact Adds.refl A h
  | cons b bs ih =>
      rw [bucketEntries_cons] at hm ⊢
      have hb := ghtMove_adds A h b hm.left.absent
      exact hb.trans (ih hb.shaped (hm.right hb))

/-- `ht'` is `ht` or its rehash: the same entries, recounted if the array was replaced. -/
structure Resized (A : LoadFactor L) (ht ht' : ServerGht V L) : Prop where
  shaped : Shaped ht'
  get_eq : ∀ key, serverGhtGet ht' key = serverGhtGet ht key
  length : ht'.entries.length = ht.entries.length
  flagged : Flagged ht → Flagged ht'
  same_or_counted : ht' = ht ∨ ht'.count = ht.entries.length ∧ ht'.size ≠ ht.size ∧
    (ht.entries ≠ [] → ht'.load = A.ratio ht'.count ht'.size)

theorem Resized.refl (A : LoadFactor L) {ht : ServerGht V L} (h : Shaped ht) : Resized A ht ht :=
  ⟨h, fun _ => rfl, rfl, id, .inl rfl⟩

def cleared (ht : ServerGht V L) (newSize : Nat) : ServerGht V L :=
  { ht with size := newSize, table := List.replicate newSize Chain.empty, count := 0 }

theorem cleared_shaped {ht : ServerGht V L} (h : Shaped ht) {newSize : Nat} (hn : 0 < newSize) :
    Shaped (cleared ht newSize) := by
  refine ⟨hn, h.min_pos, List.length_replicate, ?_⟩
  intro i c hc
  rw [List.eq_of_mem_replicate (List.mem_of_getElem? hc)]
  exact Chain.empty_ok _ _

theorem cleared_get (ht : ServerGht V L) (newSize key : Nat) :
    serverGhtGet (cleared ht newSize) key = none := by
  have hc : ghtChain (cleared ht newSize) key = Chain.empty := by
    rw [ghtChain, List.getD_eq_getElem?_getD, cleared, List.getElem?_replicate]
    split <;> rfl
  rw [serverGhtGet, hc]
  rfl

theorem cleared_entries (ht : ServerGht V L) (newSize : Nat) :
    (cleared ht newSize).entries = [] := by
  rw [ServerGht.entries, List.flatMap_eq_nil_iff]
  intro c hc
  rw [List.eq_of_mem_replicate hc]
  rfl

theorem cleared_flagged (ht : ServerGht V L) (newSize : Nat) : Flagged (cleared ht newSize) := by
  intro c hc
  rw [List.eq_of_mem_replicate hc]
  exact ⟨rfl, fun b hb => absurd hb List.not_mem_nil⟩

theorem entries_eq_bucketEntries (ht : ServerGht V L) :
    ht.entries = bucketEntries (ht.table.flatMap Chain.buckets) := by
  rw [bucketEntries, List.filterMap_flatMap]
  rfl

theorem entries_key_ne_zero {ht : ServerGht V L} (h : Shaped ht) {e : Nat × V}
    (he : e ∈ ht.entries) : e.1 ≠ 0 := by
  intro hzero
  have hg := (get_eq_some_iff h e.1 e.2).mpr he
  rw [hzero, get_zero h] at hg
  cases hg

theorem cleared_movable {ht : ServerGht V L} (h : Shaped ht) (newSize : Nat) :
    Movable (cleared ht newSize) ht.entries :=
  ⟨h.keys_nodup, fun e he => ⟨entries_key_ne_zero h he, cleared_get ht newSize e.1⟩⟩

theorem ghtRehash_adds (A : LoadFactor L) {ht : ServerGht V L} (h : Shaped ht) {newSize : Nat}
    (hn : 0 < newSize) :
    Adds A (cleared ht newSize) (ghtRehash A (cleared ht newSize) ht.table) ht.entries := by
  have hm := cleared_movable h newSize
  rw [entries_eq_bucketEntries] at hm
  rw [ghtRehash, ← List.foldl_flatMap, entries_eq_bucketEntries]
  exact foldl_ghtMove_adds A _ (cleared_shaped h hn) hm

theorem ghtRehash_resized (A : LoadFactor L) {ht : ServerGht V L} (h : Shaped ht) {newSize : Nat}
    (hn : 0 < newSize) (hne : newSize ≠ ht.size) :
    Resized A ht (ghtRehash A (cleared ht newSize) ht.table) := by
  have ha := ghtRehash_adds A h hn
  refine ⟨ha.shaped, ?_, ?_, fun _ => ha.flagged (cleared_flagged ht newSize), .inr ⟨?_, ?_, ?_⟩⟩
  · intro key
    apply Option.ext
    intro data
    rw [ha.get_iff, cleared_get, get_eq_some_iff h]
    simp
  · rw [ha.length, cleared_entries, List.length_nil, Nat.zero_add]
  · rw [ha.count]
    exact Nat.zero_add _
  · rw [ha.size]
    exact hne
  · exact fun he => ha.load (.inr he)

def clamped (ht : ServerGht V L) (newSize : Nat) : Nat :=
  if newSize < ht.minSize then ht.minSize else newSize

theorem ghtResize_eq (A : LoadFactor L) (ht : ServerGht V L) (newSize : Nat) :
    ghtResize A ht newSize =
      if clamped ht newSize = ht.size ∨ ht.ignoreResize then ht
      else ghtRehash A (cleared ht (clamped ht newSize)) ht.table := rfl

theorem clamped_pos {ht : ServerGht V L} (h : Shaped ht) (newSize : Nat) :
    0 < clamped ht newSize := by
  have hm := h.min_pos
  rw [clamped]
  split <;> omega

theorem ghtResize_resized (A : LoadFactor L) {ht : ServerGht V L} (h : Shaped ht) (newSize : Nat) :
    Resized A ht (ghtResize A ht newSize) := by
  rw [ghtResize_eq]
  split
  · exact Resized.refl A h
  · next hn => exact ghtRehash_resized A h (clamped_pos h newSize) (fun he => hn (.inl he))

theorem ghtCheckLoad_resized (A : LoadFactor L) {ht : ServerGht V L} (h : Shaped ht) :
    Resized A ht (ghtCheckLoad A ht) := by
  rw [ghtCheckLoad]
  split
  · exact ghtResize_resized A h _
  · split
    · exact ghtResize_resized A h _
    · exact Resized.refl A h

theorem Resized.wellFormed {A : LoadFactor L} {ht ht' : ServerGht V L} (h : Resized A ht ht')
    (hw : WellFormed A ht) (hne : ht.entries ≠ []) : WellFormed A ht' := by
  rcases h.same_or_counted with rfl | ⟨hc, -, hl⟩
  · exact hw
  · exact ⟨h.shaped, by rw [hc, h.length], hl hne⟩

theorem emptyGht_wellFormed (A : LoadFactor L) {initialSize : Nat} (hn : 0 < initialSize)
    (free : Bool) :
    WellFormed A (emptyGht A initialSize free : ServerGht V L) ∧
      Flagged (emptyGht A initialSize free : ServerGht V L) := by
  have hr : ∀ c ∈ List.replicate initialSize (Chain.empty : Chain V), c = Chain.empty :=
    fun c hc => List.eq_of_mem_replicate hc
  refine ⟨⟨⟨hn, hn, List.length_replicate, ?_⟩, ?_, rfl⟩, ?_⟩
  · intro i c hc
    rw [hr c (List.mem_of_getElem? hc)]
    exact Chain.empty_ok _ _
  · have he : (emptyGht A initialSize free : ServerGht V L).entries = [] := by
      rw [ServerGht.entries, List.flatMap_eq_nil_iff]
      intro c hc
      rw [hr c hc]
      rfl
    rw [he]
    rfl
  · intro c hc
    rw [hr c hc]
    exact ⟨rfl, by simp [Chain.empty]⟩

theorem serverGhtInsert_wellFormed (A : LoadFactor L) {ht : ServerGht V L} (h : WellFormed A ht) {key : Nat}
    (hk : key ≠ 0) (data : V) : WellFormed A (serverGhtInsert A ht key (some data)).2 := by
  by_cases hp : serverGhtGet ht key = none
  · obtain ⟨ht₁, hi, ha⟩ := ghtInsert_absent A h.toShaped data hk hp
    have hlen : ht₁.entries.length = ht.entries.length + 1 := ha.length
    have hw : WellFormed A ht₁ :=
      ⟨ha.shaped, by rw [ha.count, hlen, h.count_eq]; rfl, ha.load (.inr (by simp))⟩
    simp only [serverGhtInsert, hi]
    refine (ghtCheckLoad_resized A ha.shaped).wellFormed hw ?_
    intro he
    rw [he, List.length_nil] at hlen
    omega
  · simp only [serverGhtInsert, ghtInsert_present A h.toShaped data hp]
    exact h

/-- Insertion refines the update of a finite map, also when it grows or shrinks the array. -/
theorem serverGhtInsert_refines (A : LoadFactor L) (ht : ServerGht V L) (h : WellFormed A ht)
    (key : Nat) (hk : key ≠ 0) (data : V) :
    (serverGhtGet ht key ≠ none → serverGhtInsert A ht key (some data) = (false, ht)) ∧
    (serverGhtGet ht key = none → ∃ ht', serverGhtInsert A ht key (some data) = (true, ht') ∧
      WellFormed A ht' ∧ serverGhtGet ht' = Function.update (serverGhtGet ht) key (some data)) := by
  constructor
  · intro hp
    simp only [serverGhtInsert, ghtInsert_present A h.toShaped data hp]
  · intro hp
    obtain ⟨ht₁, hi, ha⟩ := ghtInsert_absent A h.toShaped data hk hp
    have hr := ghtCheckLoad_resized A ha.shaped
    have heq : serverGhtInsert A ht key (some data) = (true, ghtCheckLoad A ht₁) := by
      simp only [serverGhtInsert, hi]
    have hw := serverGhtInsert_wellFormed A h hk data
    rw [heq] at hw
    refine ⟨_, heq, hw, ?_⟩
    funext j
    apply Option.ext
    intro d
    rw [hr.get_eq, ha.get_iff]
    by_cases hj : j = key
    · subst hj
      rw [hp, Function.update_self]
      simp [eq_comm]
    · simp [hj]

def filled : Nat → ServerGht Nat ℚ
  | 0 => emptyGht exactLoad 10 false
  | n + 1 => (serverGhtInsert exactLoad (filled n) (10 * n + 5) (some n)).2

theorem filled_wellFormed (n : Nat) : WellFormed exactLoad (filled n) := by
  induction n with
  | zero => exact (emptyGht_wellFormed exactLoad (by decide) false).1
  | succ n ih => exact serverGhtInsert_wellFormed exactLoad ih (by omega) n

theorem serverGhtInsert_refines_eighth :
    (filled 7).size = 10 ∧ ∃ ht', serverGhtInsert exactLoad (filled 7) 75 (some 7) = (true, ht') ∧
      ht'.size = 20 ∧ WellFormed exactLoad ht' ∧
      serverGhtGet ht' = Function.update (serverGhtGet (filled 7)) 75 (some 7) := by
  obtain ⟨ht', heq, hw, hget⟩ := (serverGhtInsert_refines exactLoad (filled 7) (filled_wellFormed 7) 75
    (by decide) 7).2 (by decide +kernel)
  have hsize : (serverGhtInsert exactLoad (filled 7) 75 (some 7)).2.size = 20 := by decide +kernel
  rw [heq] at hsize
  exact ⟨by decide +kernel, ht', heq, hsize, hw, hget⟩

end ChityChat.ServerHt
