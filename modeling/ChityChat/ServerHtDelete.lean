import ChityChat.ServerHtInsert
import ChityChat.Transition

namespace ChityChat.ServerHt

open Transition

variable {V L : Type}

inductive GhtOp (V : Type)
  | insert (key : Nat) (data : Option V)
  | del (key : Nat)

def GhtOp.key : GhtOp V → Nat
  | .insert key _ | .del key => key

def ghtApply (A : LoadFactor L) (ht : ServerGht V L) : GhtOp V → ServerGht V L
  | .insert key data => (serverGhtInsert A ht key data).2
  | .del key => (serverGhtDel A ht key).2

def Initial (A : LoadFactor L) (ht : ServerGht V L) : Prop :=
  ∃ initialSize free, serverGhtInit A initialSize free = some ht

def Operate (A : LoadFactor L) (ht : ServerGht V L) (op : GhtOp V) (ht' : ServerGht V L) : Prop :=
  op.key ≠ 0 ∧ ht' = ghtApply A ht op

/-- Deleting `key` removes its entry and nothing else, and counts it. -/
structure DeletesExactly (A : LoadFactor L) (ht : ServerGht V L) (key : Nat) : Prop where
  returns : (serverGhtDel A ht key).1 = true
  get_self : serverGhtGet (serverGhtDel A ht key).2 key = none
  count : (serverGhtDel A ht key).2.count + 1 = ht.count
  get_other : ∀ j, j ≠ key → serverGhtGet (serverGhtDel A ht key).2 j = serverGhtGet ht j

/-- The key stands behind the array bucket and another node follows it. -/
def midChain (ht : ServerGht V L) (key : Nat) : Bool :=
  (ghtChain ht key).head.key != key &&
    match ghtFind key (ghtChain ht key).next with
    | some (_, hit) => !hit.next.isEmpty
    | none => false

def ghtNewSize (A : LoadFactor L) (ht : ServerGht V L) : Nat :=
  if ht.ignoreResize then ht.size
  else if A.aboveMax ht.load then clamped ht (ht.size * 2)
  else if A.belowMin ht.load then clamped ht (ht.size / 2)
  else ht.size

/-- The entries that deleting `key` unlinks along with it. -/
def ghtLost (ht : ServerGht V L) (key : Nat) : List (Nat × V) :=
  if (ghtChain ht key).head.key = key then []
  else match ghtFind key (ghtChain ht key).next with
    | some (_, hit) => bucketEntries hit.next
    | none => []

theorem ghtCheckLoad_eq (A : LoadFactor L) (ht : ServerGht V L) :
    ghtCheckLoad A ht =
      if ghtNewSize A ht = ht.size then ht else ghtRehash A
        (cleared ht (ghtNewSize A ht)) ht.table := by
  rw [ghtCheckLoad, ghtNewSize]
  cases hi : ht.ignoreResize <;> cases ha : A.aboveMax ht.load <;> cases hb : A.belowMin ht.load <;>
    simp [ghtResize_eq, hi]

theorem ghtFind_some {key : Nat} {bs before : List (GhtBucket V)} {hit : Chain V}
    (h : ghtFind key bs = some (before, hit)) :
    bs = before ++ hit.buckets ∧ hit.head.key = key := by
  induction bs generalizing before with
  | nil => simp [ghtFind] at h
  | cons b bs ih =>
      by_cases hb : b.key = key
      · simp only [ghtFind, hb, if_true, Option.some.injEq, Prod.mk.injEq] at h
        obtain ⟨rfl, rfl⟩ := h
        exact ⟨rfl, hb⟩
      · simp only [ghtFind, hb, if_false, Option.map_eq_some_iff, Prod.mk.injEq] at h
        obtain ⟨⟨before', hit'⟩, hf, rfl, rfl⟩ := h
        obtain ⟨he, hk⟩ := ih hf
        exact ⟨by rw [he]; rfl, hk⟩

theorem ghtFind_none {key : Nat} {bs : List (GhtBucket V)} (h : ghtFind key bs = none) :
    key ∉ bs.map GhtBucket.key := by
  induction bs with
  | nil => simp
  | cons b bs ih =>
      by_cases hb : b.key = key
      · simp [ghtFind, hb] at h
      · simp only [ghtFind, hb, if_false, Option.map_eq_none_iff] at h
        simpa [Ne.symm hb] using ih h

/-- What one deletion does before the load check: `key` and
`lost` are gone, one entry is counted. -/
structure Removes (A : LoadFactor L) (ht ht' : ServerGht V L) (key : Nat) (lost : List (Nat × V)) :
    Prop where
  shaped : Shaped ht'
  flagged : Flagged ht'
  get_iff : ∀ j data, serverGhtGet ht' j = some data ↔
    serverGhtGet ht j = some data ∧ j ≠ key ∧ (j, data) ∉ lost
  lost_entry : ∀ j data, (j, data) ∈ lost → serverGhtGet ht j = some data ∧ j ≠ key
  length : ht'.entries.length + 1 + lost.length = ht.entries.length
  count : ht'.count = (ghtDec A ht).count
  newSize : ghtNewSize A ht' = ghtNewSize A (ghtDec A ht)
  size : ht'.size = ht.size

theorem Chain.Ok.sublist {n i : Nat} {c c' : Chain V} (h : c.Ok n i)
    (hs : c'.entries.Sublist c.entries) (he : c'.head.data = none → c'.head.key = 0 ∧ c'.next = [])
    (hn : ∀ b ∈ c'.next, b.data.isSome) :
    c'.Ok n i :=
  ⟨he, hn, fun e hm => h.key_ne e (hs.subset hm), fun e hm => h.placed e (hs.subset hm),
    h.distinct.sublist (hs.map _)⟩

theorem mem_kept {es lost : List (Nat × V)} {key j : Nat} {data d : V}
    (hnd : (((key, data) :: (es ++ lost)).map Prod.fst).Nodup) :
    (j, d) ∈ es ↔ (j, d) ∈ (key, data) :: (es ++ lost) ∧ j ≠ key ∧ (j, d) ∉ lost := by
  simp only [List.map_cons, List.map_append, List.nodup_cons, List.nodup_append, List.mem_append,
    not_or] at hnd
  obtain ⟨⟨hkey, -⟩, -, -, hdisj⟩ := hnd
  rw [List.mem_cons, List.mem_append]
  constructor
  · intro hm
    refine ⟨.inr (.inl hm), ?_, ?_⟩
    · rintro rfl
      exact hkey (List.mem_map.mpr ⟨_, hm, rfl⟩)
    · exact fun hl => hdisj j (List.mem_map.mpr ⟨_, hm, rfl⟩) j (List.mem_map.mpr ⟨_, hl, rfl⟩) rfl
  · rintro ⟨he | hm | hl, hne, hn⟩
    · exact absurd (Prod.mk.inj he).1 hne
    · exact hm
    · exact absurd hl hn

theorem setChain_removes (A : LoadFactor L) {ht ht' : ServerGht V L} (h : Shaped ht)
    (hf : Flagged ht) {key : Nat} {data : V} {c : Chain V} {lost : List (Nat × V)}
    (hok : c.Ok ht.size (ghtHash ht key)) (hcf : c.Flagged)
    (hperm : (ghtChain ht key).entries.Perm ((key, data) :: (c.entries ++ lost)))
    (htable : ht'.table = (setChain ht key c).table) (hsize : ht'.size = ht.size)
    (hmin : ht'.minSize = ht.minSize) (hign : ht'.ignoreResize = ht.ignoreResize)
    (hcount : ht'.count = (ghtDec A ht).count) (hload : ht'.load = (ghtDec A ht).load) :
    Removes A ht ht' key lost := by
  have hs := h.setChain hok
  have hnd : (((key, data) :: (c.entries ++ lost)).map Prod.fst).Nodup :=
    ((hperm.map _).nodup_iff).mp (h.chain_ok key).distinct
  refine ⟨hs.congr htable hsize hmin, ?_, ?_, ?_, ?_, hcount, ?_, hsize⟩
  · intro d hd
    rw [htable] at hd
    rcases List.mem_or_eq_of_mem_set hd with hd | rfl
    · exact hf d hd
    · exact hcf
  · intro j d
    rw [get_congr htable hsize, get_setChain h]
    by_cases hh : ghtHash ht j = ghtHash ht key
    · have hc : ghtChain ht j = ghtChain ht key := by rw [ghtChain, hh, ← ghtChain]
      have hold : serverGhtGet ht j = some d ↔ (j, d) ∈ (key, data) :: (c.entries ++ lost) := by
        rw [serverGhtGet, hc, (h.chain_ok key).get_iff, hperm.mem_iff]
      rw [if_pos hh, hok.get_iff, hold, mem_kept hnd]
    · rw [if_neg hh, iff_self_and]
      intro hg
      refine ⟨fun hj => hh (by rw [hj]), ?_⟩
      intro hl
      have hm : (j, d) ∈ (ghtChain ht key).entries := hperm.mem_iff.mpr (by simp [hl])
      exact hh ((h.chain_ok key).placed _ hm)
  · intro j d hl
    have hm : (j, d) ∈ (ghtChain ht key).entries := hperm.mem_iff.mpr (by simp [hl])
    refine ⟨(get_eq_some_iff h j d).mpr ?_, ?_⟩
    · exact List.mem_flatMap.mpr ⟨_, List.mem_of_getElem? (getElem?_ghtHash h key), hm⟩
    · rintro rfl
      exact (List.nodup_cons.mp hnd).1 (List.mem_map.mpr ⟨_, List.mem_append_right _ hl, rfl⟩)
  · have hl := entries_setChain_length h key c
    rw [hperm.length_eq, List.length_cons, List.length_append] at hl
    rw [ServerGht.entries, htable, ← ServerGht.entries]
    omega
  · simp only [ghtNewSize, clamped, hsize, hmin, hign, hload]
    rfl

theorem head_entries {c : Chain V} {data : V} (hd : c.head.data = some data) :
    c.entries = (c.head.key, data) :: bucketEntries c.next :=
  bucketEntries_cons_some hd _

theorem Chain.Ok.delete_head {n i : Nat} {c : Chain V} (h : c.Ok n i) (hf : c.Flagged) :
    ∃ c', c.delete = some c' ∧ c'.Ok n i ∧ c'.Flagged ∧ c'.entries = bucketEntries c.next := by
  cases hn : c.next with
  | nil =>
      refine ⟨Chain.empty, ?_, Chain.empty_ok n i, ⟨rfl, by simp [Chain.empty]⟩, rfl⟩
      rw [Chain.delete, hn, hf.1]
      rfl
  | cons b bs =>
      obtain ⟨e, he⟩ := Option.isSome_iff_exists.mp (h.stored b (by simp [hn]))
      have hent : (⟨{ b with inheap := inArray }, bs⟩ : Chain V).entries =
          bucketEntries (b :: bs) := by
        rw [head_entries (c := ⟨{ b with inheap := inArray }, bs⟩) he, bucketEntries_cons_some he]
      have hsub : (bucketEntries (b :: bs)).Sublist c.entries := by
        rw [Chain.entries, Chain.buckets, hn]
        exact (List.sublist_cons_self _ _).filterMap _
      refine ⟨⟨{ b with inheap := inArray }, bs⟩, ?_, h.sublist (hent ▸ hsub) ?_ ?_, ⟨rfl, ?_⟩,
        hent⟩
      · rw [Chain.delete, hn, hf.1]
        rfl
      · intro hd
        rw [he] at hd
        cases hd
      · exact fun d hd => h.stored d (by simp [hn, hd])
      · exact fun d hd => hf.2 d (by simp [hn, hd])

theorem Chain.Ok.delete_next {n i : Nat} {c : Chain V} (h : c.Ok n i) (hf : c.Flagged)
    {before : List (GhtBucket V)} {hit : Chain V} (hn : c.next = before ++ hit.buckets) :
    Chain.Ok n i ⟨c.head, before⟩ ∧ Chain.Flagged ⟨c.head, before⟩ ∧
      ∃ data, c.entries.Perm
        ((hit.head.key, data) :: ((⟨c.head, before⟩ : Chain V).entries ++
          bucketEntries hit.next)) := by
  have hsplit : c.entries = (⟨c.head, before⟩ : Chain V).entries ++ bucketEntries hit.buckets := by
    rw [Chain.entries, Chain.buckets, hn, ← List.cons_append, bucketEntries_append]
    rfl
  obtain ⟨data, hd⟩ := Option.isSome_iff_exists.mp
    (h.stored hit.head (by rw [hn]; exact List.mem_append_right _ List.mem_cons_self))
  refine ⟨h.sublist (hsplit ▸ List.sublist_append_left _ _) ?_ ?_, ⟨hf.1, ?_⟩, data, ?_⟩
  · intro hh
    refine ⟨(h.empty_head hh).1, ?_⟩
    have he := (h.empty_head hh).2
    rw [hn] at he
    exact (List.append_eq_nil_iff.mp he).1
  · exact fun b hb => h.stored b (by rw [hn]; exact List.mem_append_left _ hb)
  · exact fun b hb => hf.2 b (by rw [hn]; exact List.mem_append_left _ hb)
  · rw [hsplit, Chain.buckets, bucketEntries_cons_some hd]
    exact List.perm_middle

theorem serverGhtDel_present (A : LoadFactor L) {ht : ServerGht V L} (h : Shaped ht)
    (hf : Flagged ht) {key : Nat} (hp : serverGhtGet ht key ≠ none) :
    ∃ ht', serverGhtDel A ht key = (true, ghtCheckLoad A ht') ∧
      Removes A ht ht' key (ghtLost ht key) := by
  have hok := h.chain_ok key
  have hcf := hf _ (List.mem_of_getElem? (getElem?_ghtHash h key))
  by_cases hh : (ghtChain ht key).head.key = key
  · obtain ⟨c, hc, hcok, hcflag, hent⟩ := hok.delete_head hcf
    obtain ⟨data, hd⟩ : ∃ data, (ghtChain ht key).head.data = some data := by
      cases hd : (ghtChain ht key).head.data with
      | some data => exact ⟨data, rfl⟩
      | none => exact absurd (by rw [serverGhtGet, Chain.get, hd]; rfl) hp
    refine ⟨_, by rw [serverGhtDel, if_pos hh]; rfl, ?_⟩
    rw [ghtLost, if_pos hh, hc]
    have hperm : (ghtChain ht key).entries.Perm ((key, data) :: (c.entries ++ [])) := by
      rw [List.append_nil, head_entries hd, hh, hent]
    exact setChain_removes A h hf hcok hcflag hperm rfl rfl rfl rfl rfl rfl
  · cases hfind : ghtFind key (ghtChain ht key).next with
    | none =>
        obtain ⟨data, hd⟩ := Option.ne_none_iff_exists'.mp hp
        have hm := (hok.get_iff key data).mp hd
        obtain ⟨b, hb, hbe⟩ := List.mem_filterMap.mp hm
        obtain ⟨_, -, hbk⟩ := Option.map_eq_some_iff.mp hbe
        have hbk : b.key = key := (Prod.mk.inj hbk).1
        rcases List.mem_cons.mp hb with rfl | hb
        · exact absurd hbk hh
        · exact absurd (List.mem_map.mpr ⟨b, hb, hbk⟩) (ghtFind_none hfind)
    | some p =>
        obtain ⟨before, hit⟩ := p
        obtain ⟨hnext, hkey⟩ := ghtFind_some hfind
        obtain ⟨hcok, hcflag, data, hperm⟩ := hok.delete_next hcf hnext
        rw [hkey] at hperm
        refine ⟨_, by rw [serverGhtDel, if_neg hh, hfind]; rfl, ?_⟩
        rw [ghtLost, if_neg hh, hfind]
        exact setChain_removes A h hf hcok hcflag hperm rfl rfl rfl rfl rfl rfl

theorem serverGhtDel_absent (A : LoadFactor L) {ht : ServerGht V L} (h : Shaped ht) {key : Nat}
    (hk : key ≠ 0) (hp : serverGhtGet ht key = none) : serverGhtDel A ht key = (false, ht) := by
  have hok := h.chain_ok key
  have hh : (ghtChain ht key).head.key ≠ key := fun he => hok.key_head hk he hp
  rw [serverGhtDel, if_neg hh]
  cases hfind : ghtFind key (ghtChain ht key).next with
  | none => rfl
  | some p =>
      obtain ⟨hnext, hkey⟩ := ghtFind_some hfind
      refine absurd hp (hok.key_mem_next ?_)
      rw [hnext, List.map_append, List.mem_append]
      exact .inr (List.mem_map.mpr ⟨p.2.head, List.mem_cons_self, hkey⟩)

structure Counted (ht : ServerGht V L) : Prop where
  shaped : Shaped ht
  flagged : Flagged ht
  count : ht.entries.length ≤ ht.count

theorem Resized.counted {A : LoadFactor L} {ht ht' : ServerGht V L} (h : Resized A ht ht')
    (hc : Counted ht) :
    Counted ht' := by
  refine ⟨h.shaped, h.flagged hc.flagged, ?_⟩
  rcases h.same_or_counted with rfl | ⟨he, -⟩
  · exact hc.count
  · rw [he, h.length]

theorem Removes.counted {A : LoadFactor L} {ht ht' : ServerGht V L} {key : Nat}
    {lost : List (Nat × V)} (h : Removes A ht ht' key lost) (hc : Counted ht) :
    Counted ht' ∧ ht'.count + 1 = ht.count := by
  have hl := h.length
  have hn := hc.count
  have hpos : ht.count ≠ 0 := by omega
  have hcount : ht'.count = ht.count - 1 := by
    rw [h.count]
    exact if_neg hpos
  exact ⟨⟨h.shaped, h.flagged, by omega⟩, by omega⟩

theorem serverGhtInsert_counted (A : LoadFactor L) {ht : ServerGht V L} (hc : Counted ht)
    {key : Nat} (hk : key ≠ 0) (data : Option V) : Counted (serverGhtInsert A ht key data).2 := by
  cases data with
  | none => exact hc
  | some data =>
      by_cases hp : serverGhtGet ht key = none
      · obtain ⟨ht', hi, ha⟩ := ghtInsert_absent A hc.shaped data hk hp
        have hc' : Counted ht' := by
          refine ⟨ha.shaped, ha.flagged hc.flagged, ?_⟩
          rw [ha.length, ha.count]
          exact Nat.add_le_add_right hc.count 1
        rw [serverGhtInsert, hi]
        exact (ghtCheckLoad_resized A hc'.shaped).counted hc'
      · rw [serverGhtInsert, ghtInsert_present A hc.shaped data hp]
        exact hc

theorem serverGhtDel_counted (A : LoadFactor L) {ht : ServerGht V L} (hc : Counted ht) {key : Nat}
    (hk : key ≠ 0) : Counted (serverGhtDel A ht key).2 := by
  by_cases hp : serverGhtGet ht key = none
  · rw [serverGhtDel_absent A hc.shaped hk hp]
    exact hc
  · obtain ⟨ht', hd, hr⟩ := serverGhtDel_present A hc.shaped hc.flagged hp
    have hc' := (hr.counted hc).1
    rw [hd]
    exact (ghtCheckLoad_resized A hc'.shaped).counted hc'

theorem Operate.counted {A : LoadFactor L} {ht ht' : ServerGht V L} {op : GhtOp V} (hc : Counted ht)
    (hs : Operate A ht op ht') : Counted ht' := by
  obtain ⟨hk, rfl⟩ := hs
  cases op with
  | insert key data => exact serverGhtInsert_counted A hc hk data
  | del key => exact serverGhtDel_counted A hc hk

theorem reachable_counted {A : LoadFactor L} {ht : ServerGht V L}
    (h : Reachable (Initial A) (Operate A) ht) :
    Counted ht := by
  refine h.invariant ?_ (fun _ _ _ hc hs => hs.counted hc)
  rintro s ⟨n, free, hs⟩
  rw [serverGhtInit] at hs
  split at hs
  · cases hs
  · next hn =>
      obtain ⟨hw, hf⟩ := emptyGht_wellFormed (V := V) A (Nat.pos_of_ne_zero hn) free
      cases hs
      exact ⟨hw.toShaped, hf, hw.count_eq.ge⟩

theorem ghtLost_eq_nil_iff {ht : ServerGht V L} (h : Shaped ht) (key : Nat) :
    ghtLost ht key = [] ↔ midChain ht key = false := by
  rw [ghtLost, midChain]
  by_cases hh : (ghtChain ht key).head.key = key
  · simp [hh]
  · cases hfind : ghtFind key (ghtChain ht key).next with
    | none => simp [hh]
    | some p =>
        obtain ⟨hnext, -⟩ := ghtFind_some hfind
        cases hb : p.2.next with
        | nil => simp [hh, hb]
        | cons b bs =>
            have hs : b.data.isSome :=
              (h.chain_ok key).stored b (by simp [hnext, Chain.buckets, hb])
            obtain ⟨e, he⟩ := Option.isSome_iff_exists.mp hs
            simp [hh, hb, bucketEntries_cons_some he]

theorem ghtNewSize_pos (A : LoadFactor L) {ht : ServerGht V L} (h : Shaped ht) :
    0 < ghtNewSize A ht := by
  rw [ghtNewSize]
  split_ifs
  · exact h.size_pos
  · exact clamped_pos h _
  · exact clamped_pos h _
  · exact h.size_pos

theorem ghtCheckLoad_count (A : LoadFactor L) {ht : ServerGht V L} (h : Shaped ht) :
    (ghtCheckLoad A ht).count = if ghtNewSize A ht = ht.size then ht.count
      else ht.entries.length := by
  rw [ghtCheckLoad_eq]
  split
  · rfl
  · rw [(ghtRehash_adds A h (ghtNewSize_pos A h)).count]
    exact Nat.zero_add _

/-- Exactly when a deletion does what a finite map does: no node follows the key behind the array
bucket, and a rehash, if the load asks for one, finds as many entries as are counted. -/
theorem serverGhtDel_exact_iff (A : LoadFactor L) (ht : ServerGht V L)
    (h : Reachable (Initial A) (Operate A) ht) (key : Nat) (hp : serverGhtGet ht key ≠ none) :
    DeletesExactly A ht key ↔ midChain ht key = false ∧
      (ghtNewSize A (ghtDec A ht) = ht.size ∨ ht.count = ht.entries.length) := by
  have hc := reachable_counted h
  obtain ⟨ht', hd, hr⟩ := serverGhtDel_present A hc.shaped hc.flagged hp
  obtain ⟨hc', hcount⟩ := hr.counted hc
  have hz := ghtCheckLoad_resized A hc'.shaped
  have hzc := ghtCheckLoad_count A hc'.shaped
  have hlen := hr.length
  rw [hr.newSize, hr.size] at hzc
  rw [← ghtLost_eq_nil_iff hc.shaped]
  constructor
  · rintro ⟨-, -, hcnt, hoth⟩
    simp only [hd] at hcnt hoth
    have hlost : ghtLost ht key = [] := by
      by_contra hne
      obtain ⟨⟨j, data⟩, hm⟩ := List.exists_mem_of_ne_nil _ hne
      obtain ⟨hg, hj⟩ := hr.lost_entry j data hm
      have hz' := hoth j hj
      rw [hz.get_eq, hg, hr.get_iff] at hz'
      exact hz'.2.2 hm
    refine ⟨hlost, ?_⟩
    rw [hlost, List.length_nil] at hlen
    by_cases hs : ghtNewSize A (ghtDec A ht) = ht.size
    · exact .inl hs
    · rw [if_neg hs] at hzc
      exact .inr (by omega)
  · rintro ⟨hlost, hsz⟩
    rw [hlost, List.length_nil] at hlen
    have hget (j : Nat) (data : V) : serverGhtGet (ghtCheckLoad A ht') j = some data ↔
        serverGhtGet ht j = some data ∧ j ≠ key := by
      rw [hz.get_eq, hr.get_iff, hlost]
      simp
    refine ⟨by rw [hd], ?_, ?_, ?_⟩
    · rw [hd, Option.eq_none_iff_forall_ne_some]
      exact fun data hg => ((hget key data).mp hg).2 rfl
    · simp only [hd]
      split at hzc
      · omega
      · next hs =>
          rcases hsz with hsz | hsz
          · exact absurd hsz hs
          · omega
    · intro j hj
      rw [hd]
      apply Option.ext
      intro data
      rw [hget, and_iff_left hj]

def threeInChain : ServerGht Nat ℚ :=
  [1, 11, 21].foldl (fun ht key => ghtApply exactLoad ht (.insert key (some key)))
    (emptyGht exactLoad 10 false)

theorem threeInChain_reachable : Reachable (Initial exactLoad) (Operate exactLoad) threeInChain :=
  (((Reachable.start ⟨10, false, rfl⟩).next (a := .insert 1 (some 1)) ⟨by decide, rfl⟩).next
    (a := .insert 11 (some 11)) ⟨by decide, rfl⟩).next (a := .insert 21 (some 21)) ⟨by decide, rfl⟩

theorem serverGhtDel_exact_iff_first :
    DeletesExactly exactLoad threeInChain 1 ↔ midChain threeInChain 1 = false ∧
      (ghtNewSize exactLoad (ghtDec exactLoad threeInChain) = threeInChain.size ∨
        threeInChain.count = threeInChain.entries.length) :=
  serverGhtDel_exact_iff exactLoad threeInChain threeInChain_reachable 1 (by decide +kernel)

/-- Deleting 11 from the chain 1, 11, 21 loses 21. -/
theorem serverGhtDel_loses_successor : ¬ ∀ (ht : ServerGht Nat ℚ) (key : Nat),
    Reachable (Initial exactLoad) (Operate exactLoad) ht → serverGhtGet ht key ≠ none →
      DeletesExactly exactLoad ht key := by
  intro h
  have hd := h threeInChain 11 threeInChain_reachable (by decide +kernel)
  have hlost : serverGhtGet (serverGhtDel exactLoad threeInChain 11).2 21 ≠
      serverGhtGet threeInChain 21 := by
    decide +kernel
  exact hlost (hd.get_other 21 (by decide))

end ChityChat.ServerHt
