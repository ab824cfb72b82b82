import ChityChat.ServerHtDelete
import Mathlib.Data.List.Basic

namespace ChityChat.ServerHt

variable {V L : Type} {A : LoadFactor L} {ht ht' ht'' : ServerGht V L} {key j : Nat} {data : V}
  {es es' : List (Nat × V)}

/-- `ht'` is `ht` with the entries `es` at the ends of their chains, in their order. -/
structure Appends (ht ht' : ServerGht V L) (es : List (Nat × V)) : Prop where
  size : ht'.size = ht.size
  chain : ∀ j, (ghtChain ht' j).entries =
    (ghtChain ht j).entries ++ es.filter (fun e => e.1 % ht.size = j % ht.size)

theorem Appends.refl (ht : ServerGht V L) : Appends ht ht [] :=
  ⟨rfl, fun _ => (List.append_nil _).symm⟩

theorem Appends.trans (h : Appends ht ht' es) (h' : Appends ht' ht'' es') :
    Appends ht ht'' (es ++ es') := by
  refine ⟨h'.size.trans h.size, fun j => ?_⟩
  rw [h'.chain, h.chain, h.size, List.filter_append, List.append_assoc]

theorem ghtChain_congr (htable : ht'.table = ht.table) (hsize : ht'.size = ht.size) (j : Nat) :
    ghtChain ht' j = ghtChain ht j := by
  rw [ghtChain, ghtChain, ghtHash, ghtHash, htable, hsize]

theorem ghtChain_set (hlt : ghtHash ht key < ht.table.length) (c : Chain V) (j : Nat) :
    ghtChain (setChain ht key c) j =
      if ghtHash ht j = ghtHash ht key then c else ghtChain ht j := by
  have hhash : ghtHash (setChain ht key c) j = ghtHash ht j := rfl
  by_cases hj : ghtHash ht j = ghtHash ht key
  · rw [if_pos hj, ghtChain, hhash, hj, setChain, List.getD_eq_getElem?_getD,
      List.getElem?_set_self hlt, Option.getD_some]
  · rw [if_neg hj, ghtChain, hhash, setChain, List.getD_eq_getElem?_getD,
      List.getElem?_set_ne (Ne.symm hj), ← List.getD_eq_getElem?_getD]
    rfl

theorem ghtChain_setChain (h : Shaped ht) (key : Nat) (c : Chain V) (j : Nat) :
    ghtChain (setChain ht key c) j =
      if ghtHash ht j = ghtHash ht key then c else ghtChain ht j :=
  ghtChain_set (ghtHash_lt h key) c j

variable (A data) in
theorem ghtInsert_appends (h : Shaped ht) (hk : key ≠ 0) (hp : serverGhtGet ht key = none) :
    Appends ht (ghtInsert A ht key data).2 [(key, data)] := by
  obtain ⟨c, hc, -, hentries, -⟩ := (h.chain_ok key).insert_absent data hk rfl hp
  have hinsert : (ghtInsert A ht key data).2 = ghtInc A (setChain ht key c) := by
    rw [ghtInsert, hc]
    rfl
  rw [hinsert]
  refine ⟨rfl, fun j => ?_⟩
  have hcount : ghtChain (ghtInc A (setChain ht key c)) j = ghtChain (setChain ht key c) j :=
    ghtChain_congr rfl rfl j
  rw [hcount, ghtChain_setChain h]
  by_cases hj : ghtHash ht j = ghtHash ht key
  · have hsame : ghtChain ht j = ghtChain ht key := by rw [ghtChain, hj, ← ghtChain]
    rw [if_pos hj, hentries, hsame, List.filter_cons_of_pos (by simpa [ghtHash] using hj.symm),
      List.filter_nil]
  · rw [if_neg hj, List.filter_cons_of_neg (by simpa [ghtHash] using Ne.symm hj), List.filter_nil,
      List.append_nil]

theorem ghtMove_appends (h : Shaped ht) (b : GhtBucket V)
    (hk : ∀ e ∈ bucketEntries [b], e.1 ≠ 0 ∧ serverGhtGet ht e.1 = none) :
    Appends ht (ghtMove A ht b) (bucketEntries [b]) := by
  refine ghtMove_cases (P := Appends ht) (fun _ _ _ ha => ⟨ha.size, ha.chain⟩)
    (Appends.refl ht) ?_
  intro data hes
  obtain ⟨hne, hp⟩ := hk (b.key, data) (hes ▸ List.mem_cons_self)
  exact ghtInsert_appends A data h hne hp

theorem foldl_ghtMove_appends (bs : List (GhtBucket V)) (h : Shaped ht)
    (hm : Movable ht (bucketEntries bs)) :
    Appends ht (bs.foldl (ghtMove A) ht) (bucketEntries bs) := by
  induction bs generalizing ht with
  | nil => exact Appends.refl ht
  | cons b bs ih =>
      rw [bucketEntries_cons] at hm ⊢
      have hb := ghtMove_adds A h b hm.left.absent
      exact (ghtMove_appends h b hm.left.absent).trans (ih hb.shaped (hm.right hb))

theorem ghtChain_cleared (ht : ServerGht V L) (newSize j : Nat) :
    ghtChain (cleared ht newSize) j = Chain.empty := by
  rw [ghtChain, List.getD_eq_getElem?_getD, cleared, List.getElem?_replicate]
  split <;> rfl

def early (ht : ServerGht V L) (key : Nat) : List (Nat × V) :=
  (ht.table.take (ghtHash ht key + 1)).flatMap Chain.entries

def late (ht : ServerGht V L) (key : Nat) : List (Nat × V) :=
  (ht.table.drop (ghtHash ht key + 1)).flatMap Chain.entries

theorem entries_eq_early_late (ht : ServerGht V L) (key : Nat) :
    ht.entries = early ht key ++ late ht key := by
  rw [early, late, ← List.flatMap_append, List.take_append_drop]
  rfl

theorem early_placed (h : Shaped ht) {e : Nat × V} (he : e ∈ early ht key) :
    e.1 % ht.size ≤ key % ht.size := by
  obtain ⟨c, hc, hmem⟩ := List.mem_flatMap.mp he
  obtain ⟨i, hi⟩ := List.mem_iff_getElem?.mp hc
  rw [List.getElem?_take] at hi
  split at hi
  · next hlt =>
      rw [(h.chains i c hi).placed e hmem]
      exact Nat.lt_succ_iff.mp hlt
  · cases hi

theorem late_placed (h : Shaped ht) {e : Nat × V} (he : e ∈ late ht key) :
    key % ht.size < e.1 % ht.size := by
  obtain ⟨c, hc, hmem⟩ := List.mem_flatMap.mp he
  obtain ⟨i, hi⟩ := List.mem_iff_getElem?.mp hc
  rw [List.getElem?_drop] at hi
  rw [(h.chains _ c hi).placed e hmem]
  exact Nat.lt_of_lt_of_le (Nat.lt_succ_self _) (Nat.le_add_right _ _)

theorem mem_early_iff (h : Shaped ht) {e : Nat × V} :
    e ∈ early ht key ↔ e ∈ ht.entries ∧ e.1 % ht.size ≤ key % ht.size := by
  rw [entries_eq_early_late ht key, List.mem_append]
  constructor
  · exact fun he => ⟨.inl he, early_placed h he⟩
  · rintro ⟨he | he, hle⟩
    · exact he
    · exact absurd (late_placed h he) (Nat.not_lt.mpr hle)

theorem mem_late_iff (h : Shaped ht) {e : Nat × V} :
    e ∈ late ht key ↔ e ∈ ht.entries ∧ key % ht.size < e.1 % ht.size := by
  rw [entries_eq_early_late ht key, List.mem_append]
  constructor
  · exact fun he => ⟨.inr he, late_placed h he⟩
  · rintro ⟨he | he, hlt⟩
    · exact absurd (early_placed h he) (Nat.not_le.mpr hlt)
    · exact he

/-- The load check behind an insertion of the key brings it between other entries of its chain. -/
def parted (A : LoadFactor L) (ht : ServerGht V L) (key : Nat) : Prop :=
  let newSize := ghtNewSize A (ghtInc A ht)
  (∃ e ∈ ht.entries, e.1 % ht.size ≤ key % ht.size ∧ e.1 % newSize = key % newSize) ∧
    ∃ e ∈ ht.entries, key % ht.size < e.1 % ht.size ∧ e.1 % newSize = key % newSize

theorem filter_ne_nil_iff {newSize : Nat} :
    es.filter (fun e => e.1 % newSize = key % newSize) ≠ [] ↔
      ∃ e ∈ es, e.1 % newSize = key % newSize := by
  rw [Ne, List.filter_eq_nil_iff]
  simp

theorem parted_iff (A : LoadFactor L) (h : Shaped ht) :
    parted A ht key ↔
      (early ht key).filter (fun e => e.1 % ghtNewSize A (ghtInc A ht) =
        key % ghtNewSize A (ghtInc A ht)) ≠ [] ∧
      (late ht key).filter (fun e => e.1 % ghtNewSize A (ghtInc A ht) =
        key % ghtNewSize A (ghtInc A ht)) ≠ [] := by
  rw [filter_ne_nil_iff, filter_ne_nil_iff, parted]
  simp only [mem_early_iff h, mem_late_iff h, and_assoc]

theorem not_parted_of_kept (h : ghtNewSize A (ghtInc A ht) = ht.size) : ¬ parted A ht key := by
  rintro ⟨-, e, -, hlt, hsame⟩
  rw [h] at hsame
  omega

end ChityChat.ServerHt
