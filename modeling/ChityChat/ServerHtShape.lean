import ChityChat.ServerHt
import Mathlib.Data.List.Perm.Basic
import Mathlib.Data.List.Nodup

namespace ChityChat.ServerHt

variable {V L : Type}

def GhtBucket.entry (b : GhtBucket V) : Option (Nat × V) := b.data.map (fun data => (b.key, data))

def bucketEntries (bs : List (GhtBucket V)) : List (Nat × V) := bs.filterMap GhtBucket.entry

def Chain.entries (c : Chain V) : List (Nat × V) := bucketEntries c.buckets

def ServerGht.entries (ht : ServerGht V L) : List (Nat × V) := ht.table.flatMap Chain.entries

/-- The chain of bucket `i` in an array of `n`. An empty array bucket is a zeroed one. -/
structure Chain.Ok (n i : Nat) (c : Chain V) : Prop where
  empty_head : c.head.data = none → c.head.key = 0 ∧ c.next = []
  stored : ∀ b ∈ c.next, b.data.isSome
  key_ne : ∀ e ∈ c.entries, e.1 ≠ 0
  placed : ∀ e ∈ c.entries, e.1 % n = i
  distinct : (c.entries.map Prod.fst).Nodup

structure Shaped (ht : ServerGht V L) : Prop where
  size_pos : 0 < ht.size
  min_pos : 0 < ht.minSize
  length : ht.table.length = ht.size
  chains : ∀ (i : Nat) (c : Chain V), ht.table[i]? = some c → c.Ok ht.size i

structure WellFormed (A : LoadFactor L) (ht : ServerGht V L) : Prop extends Shaped ht where
  count_eq : ht.count = ht.entries.length
  load_eq : ht.load = A.ratio ht.count ht.size

@[simp] theorem bucketEntries_nil : bucketEntries ([] : List (GhtBucket V)) = [] := rfl

theorem bucketEntries_cons_some {b : GhtBucket V} {data : V} (h : b.data = some data)
    (bs : List (GhtBucket V)) :
    bucketEntries (b :: bs) = (b.key, data) :: bucketEntries bs := by
  simp [bucketEntries, GhtBucket.entry, h]

theorem bucketEntries_cons_none {b : GhtBucket V} (h : b.data = none) (bs : List (GhtBucket V)) :
    bucketEntries (b :: bs) = bucketEntries bs := by
  simp [bucketEntries, GhtBucket.entry, h]

theorem bucketEntries_append (bs cs : List (GhtBucket V)) :
    bucketEntries (bs ++ cs) = bucketEntries bs ++ bucketEntries cs :=
  List.filterMap_append

theorem bucketEntries_cons (b : GhtBucket V) (bs : List (GhtBucket V)) :
    bucketEntries (b :: bs) = bucketEntries [b] ++ bucketEntries bs :=
  bucketEntries_append [b] bs

theorem mem_keys_of_mem {bs : List (GhtBucket V)} {b : GhtBucket V} (hb : b ∈ bs)
    (hs : b.data.isSome) :
    b.key ∈ (bucketEntries bs).map Prod.fst := by
  obtain ⟨data, hd⟩ := Option.isSome_iff_exists.mp hs
  exact List.mem_map.mpr ⟨(b.key, data), List.mem_filterMap.mpr
    ⟨b, hb, by simp [GhtBucket.entry, hd]⟩, rfl⟩

theorem map_key_eq {bs : List (GhtBucket V)} (h : ∀ b ∈ bs, b.data.isSome) :
    bs.map GhtBucket.key = (bucketEntries bs).map Prod.fst := by
  induction bs with
  | nil => rfl
  | cons b bs ih =>
      obtain ⟨v, hv⟩ := Option.isSome_iff_exists.mp (h b (by simp))
      rw [bucketEntries_cons_some hv, List.map_cons, List.map_cons,
        ih (fun c hc => h c (by simp [hc]))]

theorem find_entries (bs : List (GhtBucket V)) (hs : ∀ b ∈ bs, b.data.isSome)
    (hd : ((bucketEntries bs).map Prod.fst).Nodup) (key : Nat) (data : V) :
    (bs.find? (fun b => b.key = key)).bind GhtBucket.data = some data ↔
    (key, data) ∈ bucketEntries bs := by
  induction bs with
  | nil => simp
  | cons b bs ih =>
      obtain ⟨e, he⟩ := Option.isSome_iff_exists.mp (hs b (by simp))
      rw [bucketEntries_cons_some he] at hd ⊢
      simp only [List.map_cons, List.nodup_cons] at hd
      by_cases hk : b.key = key
      · subst hk
        have hn : (b.key, data) ∉ bucketEntries bs :=
          fun hm => hd.1 (List.mem_map.mpr ⟨_, hm, rfl⟩)
        simp [he, hn, eq_comm]
      · rw [List.find?_cons_of_neg (by simpa using hk), ih (fun c hc => hs c (by simp [hc])) hd.2]
        simp [Ne.symm hk]

theorem Chain.Ok.entries_empty {n i : Nat} {c : Chain V} (h : c.Ok n i) (hn : c.head.data = none) :
    c.entries = [] := by
  rw [Chain.entries, Chain.buckets, bucketEntries_cons_none hn, (h.empty_head hn).2,
    bucketEntries_nil]

theorem Chain.Ok.all_stored {n i : Nat} {c : Chain V} (h : c.Ok n i) (hs : c.head.data.isSome) :
    ∀ b ∈ c.buckets, b.data.isSome := by
  intro b hb
  rcases List.mem_cons.mp hb with rfl | hb
  · exact hs
  · exact h.stored b hb

theorem Chain.get_entries (c : Chain V) (hempty : c.head.data = none → c.next = [])
    (hstored : ∀ b ∈ c.next, b.data.isSome) (hdistinct : (c.entries.map Prod.fst).Nodup)
    (key : Nat) (data : V) : c.get key = some data ↔ (key, data) ∈ c.entries := by
  cases hd : c.head.data with
  | none =>
      have hnil : c.entries = [] := by
        rw [Chain.entries, Chain.buckets, bucketEntries_cons_none hd, hempty hd, bucketEntries_nil]
      simp [Chain.get, hd, hnil]
  | some e =>
      have hs : ∀ b ∈ c.buckets, b.data.isSome := by
        intro b hb
        rcases List.mem_cons.mp hb with rfl | hb
        · simp [hd]
        · exact hstored b hb
      have hf := find_entries c.buckets hs hdistinct key data
      by_cases hk : c.head.key = key
      · rw [Chain.entries, ← hf]
        simp [Chain.get, Chain.buckets, hd, hk]
      · rw [Chain.entries, ← hf]
        simp [Chain.get, hd, hk]

theorem Chain.Ok.get_iff {n i : Nat} {c : Chain V} (h : c.Ok n i) (key : Nat) (data : V) :
    c.get key = some data ↔ (key, data) ∈ c.entries :=
  c.get_entries (fun hn => (h.empty_head hn).2) h.stored h.distinct key data

theorem Chain.Ok.key_mem_iff {n i : Nat} {c : Chain V} (h : c.Ok n i) (key : Nat) :
    key ∈ c.entries.map Prod.fst ↔ c.get key ≠ none := by
  rw [Option.ne_none_iff_exists', List.mem_map]
  constructor
  · rintro ⟨⟨k, data⟩, hm, rfl⟩
    exact ⟨data, (h.get_iff k data).mpr hm⟩
  · rintro ⟨data, hg⟩
    exact ⟨(key, data), (h.get_iff key data).mp hg, rfl⟩

theorem Chain.empty_ok (n i : Nat) : (Chain.empty : Chain V).Ok n i := by
  have he : (Chain.empty : Chain V).entries = [] := rfl
  exact ⟨fun _ => ⟨rfl, rfl⟩, by simp [Chain.empty], by simp [he], by simp [he], by simp [he]⟩

theorem ghtHash_lt {ht : ServerGht V L} (h : Shaped ht) (key : Nat) :
    ghtHash ht key < ht.table.length := by
  rw [h.length]
  exact Nat.mod_lt _ h.size_pos

theorem getElem?_ghtHash {ht : ServerGht V L} (h : Shaped ht) (key : Nat) :
    ht.table[ghtHash ht key]? = some (ghtChain ht key) := by
  rw [ghtChain, List.getD_eq_getElem?_getD, List.getElem?_eq_getElem (ghtHash_lt h key),
    Option.getD_some]

theorem Shaped.chain_ok {ht : ServerGht V L} (h : Shaped ht) (key : Nat) :
    (ghtChain ht key).Ok ht.size (ghtHash ht key) :=
  h.chains _ _ (getElem?_ghtHash h key)

theorem get_eq_some_iff {ht : ServerGht V L} (h : Shaped ht) (key : Nat) (data : V) :
    serverGhtGet ht key = some data ↔ (key, data) ∈ ht.entries := by
  rw [serverGhtGet, (h.chain_ok key).get_iff, ServerGht.entries, List.mem_flatMap]
  constructor
  · intro hm
    exact ⟨_, List.mem_of_getElem? (getElem?_ghtHash h key), hm⟩
  · rintro ⟨c, hc, hm⟩
    obtain ⟨i, hi⟩ := List.mem_iff_getElem?.mp hc
    have hp : ghtHash ht key = i := (h.chains i c hi).placed _ hm
    have he := getElem?_ghtHash h key
    rw [hp, hi, Option.some.injEq] at he
    rwa [← he]

theorem get_zero {ht : ServerGht V L} (h : Shaped ht) : serverGhtGet ht 0 = none := by
  rw [Option.eq_none_iff_forall_ne_some]
  intro data hg
  exact (h.chain_ok 0).key_ne _ (((h.chain_ok 0).get_iff 0 data).mp hg) rfl

theorem Shaped.congr {ht ht' : ServerGht V L} (h : Shaped ht) (ht_table : ht'.table = ht.table)
    (ht_size : ht'.size = ht.size) (ht_min : ht'.minSize = ht.minSize) : Shaped ht' := by
  refine ⟨ht_size ▸ h.size_pos, ht_min ▸ h.min_pos, ?_, ?_⟩
  · rw [ht_table, ht_size, h.length]
  · rw [ht_table, ht_size]
    exact h.chains

theorem get_congr {ht ht' : ServerGht V L} (ht_table : ht'.table = ht.table)
    (ht_size : ht'.size = ht.size) (key : Nat) : serverGhtGet ht' key = serverGhtGet ht key := by
  rw [serverGhtGet, serverGhtGet, ghtChain, ghtChain, ghtHash, ghtHash, ht_table, ht_size]

def setChain (ht : ServerGht V L) (key : Nat) (c : Chain V) : ServerGht V L :=
  { ht with table := ht.table.set (ghtHash ht key) c }

theorem Shaped.setChain {ht : ServerGht V L} (h : Shaped ht) {key : Nat} {c : Chain V}
    (hc : c.Ok ht.size (ghtHash ht key)) : Shaped (setChain ht key c) := by
  refine ⟨h.size_pos, h.min_pos, by simpa [ServerHt.setChain] using h.length, ?_⟩
  intro i d hd
  by_cases hi : ghtHash ht key = i
  · subst hi
    simp only [ServerHt.setChain, List.getElem?_set_self (ghtHash_lt h key),
      Option.some.injEq] at hd
    exact hd ▸ hc
  · rw [ServerHt.setChain, List.getElem?_set_ne hi] at hd
    exact h.chains i d hd

theorem get_setChain {ht : ServerGht V L} (h : Shaped ht) (key : Nat) (c : Chain V) (j : Nat) :
    serverGhtGet (setChain ht key c) j =
      if ghtHash ht j = ghtHash ht key then c.get j else serverGhtGet ht j := by
  have hh : ghtHash (setChain ht key c) j = ghtHash ht j := rfl
  by_cases hi : ghtHash ht j = ghtHash ht key
  · rw [serverGhtGet, ghtChain, hh, if_pos hi, hi, setChain, List.getD_eq_getElem?_getD,
      List.getElem?_set_self (ghtHash_lt h key), Option.getD_some]
  · rw [if_neg hi, serverGhtGet, ghtChain, hh, setChain, List.getD_eq_getElem?_getD,
      List.getElem?_set_ne (Ne.symm hi), ← List.getD_eq_getElem?_getD]
    rfl

theorem set_flatMap_length {α β : Type} (f : α → List β) (l : List α) (i : Nat) (a b : α)
    (h : l[i]? = some a) :
    ((l.set i b).flatMap f).length + (f a).length = (l.flatMap f).length + (f b).length := by
  induction l generalizing i with
  | nil => simp at h
  | cons x l ih =>
      cases i with
      | zero =>
          simp only [List.getElem?_cons_zero, Option.some.injEq] at h
          simp only [List.set_cons_zero, List.flatMap_cons, List.length_append, h]
          omega
      | succ i =>
          have hl := ih i (by simpa using h)
          simp only [List.set_cons_succ, List.flatMap_cons, List.length_append]
          omega

theorem entries_setChain_length {ht : ServerGht V L} (h : Shaped ht) (key : Nat) (c : Chain V) :
    (setChain ht key c).entries.length + (ghtChain ht key).entries.length =
      ht.entries.length + c.entries.length :=
  set_flatMap_length _ _ _ _ _ (getElem?_ghtHash h key)

theorem flatMap_keys_nodup {n : Nat} (l : List (Chain V)) (start : Nat)
    (h : ∀ (i : Nat) (c : Chain V), l[i]? = some c → c.Ok n (start + i)) :
    ((l.flatMap Chain.entries).map Prod.fst).Nodup := by
  induction l generalizing start with
  | nil => simp
  | cons c l ih =>
      have hl := ih (start + 1) (fun i d hd => by
        simpa [Nat.add_assoc, Nat.add_comm 1 i] using h (i + 1) d (by simpa using hd))
      have hc := h 0 c rfl
      rw [List.flatMap_cons, List.map_append, List.nodup_append]
      refine ⟨hc.distinct, hl, ?_⟩
      rintro k hk _ hk' rfl
      obtain ⟨e, he, rfl⟩ := List.mem_map.mp hk
      obtain ⟨e', he', heq⟩ := List.mem_map.mp hk'
      obtain ⟨d, hd, hed⟩ := List.mem_flatMap.mp he'
      obtain ⟨i, hi⟩ := List.mem_iff_getElem?.mp hd
      have h1 := hc.placed e he
      have h2 := (h (i + 1) d (by simpa using hi)).placed e' hed
      rw [heq, h1] at h2
      omega

theorem Shaped.keys_nodup {ht : ServerGht V L} (h : Shaped ht) : (ht.entries.map Prod.fst).Nodup :=
  flatMap_keys_nodup ht.table 0 (fun i c hc => by simpa using h.chains i c hc)

end ChityChat.ServerHt
