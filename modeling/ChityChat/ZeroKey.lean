import ChityChat.ServerHtAnyKey
import ChityChat.ServerHtEntries
import Mathlib.Data.List.TakeWhile

namespace ChityChat.ServerHt

open Transition

variable {V L : Type} {A : LoadFactor L} {ht ht' : ServerGht V L} {key : Nat} {data d : V}
  {es fs : List (Nat × V)} {before after : List (Nat × V)}

/-- `data` is found under key 0 before the operations `ops` and after each of them. -/
def StaysZero (A : LoadFactor L) (data : V) : ServerGht V L → List (GhtOp V) → Prop
  | ht, [] => serverGhtGet ht 0 = some data
  | ht, op :: ops => serverGhtGet ht 0 = some data ∧ StaysZero A data (ghtApply A ht op) ops

/-- Key 0 behaves in `ht`, which does not contain it, like any other absent key. The operations
`later` follow its insertion. -/
structure ZeroOrdinary (A : LoadFactor L) (ht : ServerGht V L) (data : V)
    (later : List (GhtOp V)) : Prop where
  inserted : (serverGhtInsert A ht 0 (some data)).1 = true
  stays : StaysZero A data (serverGhtInsert A ht 0 (some data)).2 later
  refused : serverGhtDel A ht 0 = (false, ht)

def keysBefore (ht : ServerGht V L) : List Nat := (chainKeys (ghtChain ht 0)).takeWhile (· ≠ 0)

/-- A load check keeps the array, or moves one of `keys` to the new bucket 0 ahead of key 0. -/
def Covered (size newSize : Nat) (keys : List Nat) : Prop :=
  newSize = size ∨ ∃ k ∈ keys, k % newSize = 0

/-- What an operation on another key has to find in `ht` to leave key 0 alone. -/
def SparesZero (A : LoadFactor L) (ht : ServerGht V L) : GhtOp V → Prop
  | .insert key data => data = none ∨ serverGhtGet ht key ≠ none ∨
      Covered ht.size (ghtNewSize A (ghtInc A ht)) (keysBefore ht)
  | .del key => serverGhtGet ht key = none ∨ key ∉ (keysBefore ht).tail ∧
      Covered ht.size (ghtNewSize A (ghtDec A ht)) ((keysBefore ht).erase key)

def SpareZero (A : LoadFactor L) : ServerGht V L → List (GhtOp V) → Prop
  | _, [] => True
  | ht, op :: ops => SparesZero A ht op ∧ SpareZero A (ghtApply A ht op) ops

instance (size newSize : Nat) (keys : List Nat) : Decidable (Covered size newSize keys) :=
  inferInstanceAs (Decidable (_ ∨ _))

instance [DecidableEq V] (A : LoadFactor L) (ht : ServerGht V L) :
    (op : GhtOp V) → Decidable (SparesZero A ht op)
  | .insert _ _ => inferInstanceAs (Decidable (_ ∨ _ ∨ _))
  | .del _ => inferInstanceAs (Decidable (_ ∨ _ ∧ _))

instance decidableSpareZero [DecidableEq V] (A : LoadFactor L) (ht : ServerGht V L) :
    (ops : List (GhtOp V)) → Decidable (SpareZero A ht ops)
  | [] => isTrue trivial
  | op :: ops =>
      have := decidableSpareZero A (ghtApply A ht op) ops
      inferInstanceAs (Decidable (_ ∧ _))

theorem linkEntry_keeps (es : List (Nat × V)) (e : Nat × V) : es <+: linkEntry es e := by
  rw [linkEntry]
  split
  · exact List.prefix_rfl
  · exact List.prefix_append _ _

theorem foldl_linkEntry_keeps (fs es : List (Nat × V)) : es <+: fs.foldl linkEntry es := by
  induction fs generalizing es with
  | nil => exact List.prefix_rfl
  | cons f fs ih => exact (linkEntry_keeps es f).trans (ih _)

theorem mem_foldl_linkEntry {e : Nat × V} (h : e ∈ fs.foldl linkEntry es) : e ∈ es ∨ e ∈ fs := by
  induction fs generalizing es with
  | nil => exact .inl h
  | cons f fs ih =>
      rcases ih h with h | h
      · rw [linkEntry] at h
        split at h
        · exact .inl h
        · rcases List.mem_append.mp h with h | h
          · exact .inl h
          · exact .inr (List.mem_singleton.mp h ▸ List.mem_cons_self)
      · exact .inr (List.mem_cons_of_mem _ h)

theorem foldl_linkEntry_zero (hbefore : 0 ∉ before.map Prod.fst) (hafter : 0 ∉ after.map Prod.fst) :
    (0, data) ∈ (before ++ (0, data) :: after).foldl linkEntry [] ↔ before ≠ [] := by
  rw [List.foldl_append, List.foldl_cons]
  cases before with
  | nil =>
      refine iff_of_false (fun hm => ?_) (fun hne => hne rfl)
      have hdropped : linkEntry [] ((0, data) : Nat × V) = [] := if_pos (.inr ⟨rfl, rfl⟩)
      rw [List.foldl_nil, hdropped] at hm
      rcases mem_foldl_linkEntry hm with hm | hm
      · cases hm
      · exact hafter (List.mem_map.mpr ⟨_, hm, rfl⟩)
  | cons e before =>
      refine iff_of_true ?_ (List.cons_ne_nil _ _)
      have hkey : e.1 ≠ 0 := fun he => hbefore (by rw [List.map_cons, he]; exact List.mem_cons_self)
      have hfirst : linkEntry [] e = [e] := if_neg (by simp [Blocked, hkey])
      have hnil : (e :: before).foldl linkEntry [] ≠ [] := by
        have hkept := foldl_linkEntry_keeps before [e]
        rw [List.foldl_cons, hfirst]
        intro hnil
        rw [hnil] at hkept
        cases List.prefix_nil.mp hkept
      have habsent : 0 ∉ ((e :: before).foldl linkEntry []).map Prod.fst := by
        intro hm
        obtain ⟨f, hf, hzero⟩ := List.mem_map.mp hm
        rcases mem_foldl_linkEntry hf with hf | hf
        · cases hf
        · exact hbefore (List.mem_map.mpr ⟨f, hf, hzero⟩)
      have hlinked : linkEntry ((e :: before).foldl linkEntry []) (0, data) =
          (e :: before).foldl linkEntry [] ++ [(0, data)] := by
        refine if_neg ?_
        rintro (hm | ⟨-, hm⟩)
        · exact habsent hm
        · exact hnil (List.map_eq_nil_iff.mp hm)
      rw [hlinked]
      exact (foldl_linkEntry_keeps after _).subset
        (List.mem_append_right _ (List.mem_singleton.mpr rfl))

theorem ghtHash_zero (ht : ServerGht V L) : ghtHash ht 0 = 0 := Nat.zero_mod _

theorem Linked.entries_split (h : Linked ht) :
    ∃ rest, ht.entries = (ghtChain ht 0).entries ++ rest ∧ 0 ∉ rest.map Prod.fst := by
  have hlt := h.hash_lt 0
  rw [ghtHash_zero] at hlt
  have htable : ht.table = ghtChain ht 0 :: ht.table.drop 1 := by
    rw [ghtChain, ghtHash_zero, List.getD_eq_getElem?_getD, List.getElem?_eq_getElem hlt,
      Option.getD_some]
    exact List.drop_eq_getElem_cons hlt
  refine ⟨(ht.table.drop 1).flatMap Chain.entries, ?_, fun hm => ?_⟩
  · rw [ServerGht.entries, ← List.flatMap_cons, ← htable]
  · obtain ⟨e, he, hzero⟩ := List.mem_map.mp hm
    obtain ⟨c, hc, hec⟩ := List.mem_flatMap.mp he
    obtain ⟨i, hi⟩ := List.mem_iff_getElem?.mp hc
    rw [List.getElem?_drop] at hi
    have hplaced := (h.chains _ c hi).placed e hec
    rw [hzero, Nat.zero_mod] at hplaced
    omega

theorem Linked.zero_once (h : Linked ht)
    (hz : (ghtChain ht 0).entries = before ++ (0, data) :: after) :
    0 ∉ before.map Prod.fst ∧ 0 ∉ after.map Prod.fst := by
  have hdistinct := (h.chain 0).distinct
  rw [hz, List.map_append, List.map_cons, List.nodup_append, List.nodup_cons] at hdistinct
  exact ⟨fun hm => hdistinct.2.2 0 hm 0 List.mem_cons_self rfl, hdistinct.2.1.1⟩

theorem Linked.keysBefore_eq (h : Linked ht)
    (hz : (ghtChain ht 0).entries = before ++ (0, data) :: after) :
    keysBefore ht = before.map Prod.fst := by
  have hother : ∀ k ∈ before.map Prod.fst, decide (k ≠ 0) = true := by
    intro k hk
    refine decide_eq_true (fun hzero => (h.zero_once hz).1 (hzero ▸ hk))
  rw [keysBefore, chainKeys, hz, List.map_append, List.map_cons,
    List.takeWhile_append_of_pos hother, List.takeWhile_cons_of_neg (by simp), List.append_nil]

theorem Linked.get_zero_of (h : Linked ht)
    (hz : (ghtChain ht 0).entries = before ++ (0, data) :: after) :
    serverGhtGet ht 0 = some data := by
  rw [h.get_iff, hz]
  exact List.mem_append_right _ List.mem_cons_self

theorem Linked.zero_split (h : Linked ht) (hg : serverGhtGet ht 0 = some data) :
    ∃ before after, (ghtChain ht 0).entries = before ++ (0, data) :: after :=
  List.append_of_mem ((h.get_iff 0 data).mp hg)

theorem Linked.checkLoad_zero (h : Linked ht)
    (hz : (ghtChain ht 0).entries = before ++ (0, data) :: after) :
    serverGhtGet (ghtCheckLoad A ht) 0 = some data ↔
      Covered ht.size (ghtNewSize A ht) (before.map Prod.fst) := by
  rw [ghtCheckLoad_eq, Covered]
  by_cases hkept : ghtNewSize A ht = ht.size
  · rw [if_pos hkept]
    exact iff_of_true (h.get_zero_of hz) (.inl hkept)
  · have hlinks := h.rehash (A := A) (h.newSize_pos (A := A))
    obtain ⟨rest, hentries, hrest⟩ := h.entries_split
    obtain ⟨hbefore, hafter⟩ := h.zero_once hz
    have hsub {l : List (Nat × V)} (hl : 0 ∉ l.map Prod.fst) :
        0 ∉ (l.filter (fun e => e.1 % ghtNewSize A ht = 0)).map Prod.fst :=
      fun hm => hl ((List.filter_sublist.map _).subset hm)
    have hmoved : (ghtChain (ghtRehash A (cleared ht (ghtNewSize A ht)) ht.table) 0).entries =
        (before.filter (fun e => e.1 % ghtNewSize A ht = 0) ++ (0, data) ::
          (after ++ rest).filter (fun e => e.1 % ghtNewSize A ht = 0)).foldl linkEntry [] := by
      have hfilter : ht.entries.filter (fun e => e.1 % ghtNewSize A ht = 0) =
          before.filter (fun e => e.1 % ghtNewSize A ht = 0) ++ (0, data) ::
            (after ++ rest).filter (fun e => e.1 % ghtNewSize A ht = 0) := by
        rw [hentries, hz, List.append_assoc, List.cons_append, List.filter_append,
          List.filter_cons_of_pos (by simp)]
      rw [hlinks.chain, ghtChain_cleared, Nat.zero_mod, ← hfilter]
      rfl
    have hafter' : 0 ∉ (after ++ rest).map Prod.fst := by
      rw [List.map_append, List.mem_append, not_or]
      exact ⟨hafter, hrest⟩
    rw [if_neg hkept, or_iff_right hkept, hlinks.linked.get_iff, hmoved,
      foldl_linkEntry_zero (hsub hbefore) (hsub hafter'), Ne, List.filter_eq_nil_iff]
    simp

theorem Linked.checkLoad_absent (h : Linked ht)
    (habsent : 0 ∉ (ghtChain ht 0).entries.map Prod.fst) :
    serverGhtGet (ghtCheckLoad A ht) 0 ≠ some data := by
  intro hg
  have hentry := ghtCheckLoad_entries
    (mem_entries_of_chain ((h.checkLoad.get_iff 0 data).mp hg))
  obtain ⟨rest, hsplit, hrest⟩ := h.entries_split
  rw [hsplit] at hentry
  rcases List.mem_append.mp hentry with hentry | hentry
  · exact habsent (List.mem_map.mpr ⟨_, hentry, rfl⟩)
  · exact hrest (List.mem_map.mpr ⟨_, hentry, rfl⟩)

theorem Linked.found_iff (h : Linked ht) (hk : key ≠ 0) :
    serverGhtGet ht key ≠ none ↔ Blocked (chainKeys (ghtChain ht key)) key := by
  rw [Ne, h.get_none_iff, not_not, Blocked]
  exact (or_iff_left (fun hzero => hk hzero.1)).symm

theorem Linked.insert_zero (h : Linked ht)
    (hz : (ghtChain ht 0).entries = before ++ (0, data) :: after) (hk : key ≠ 0) (x : Option V) :
    serverGhtGet (ghtApply A ht (.insert key x)) 0 = some data ↔
      SparesZero A ht (.insert key x) := by
  rw [SparesZero, h.keysBefore_eq hz, ghtApply]
  cases x with
  | none => exact iff_of_true (h.get_zero_of hz) (.inl rfl)
  | some x =>
      rw [or_iff_right (Option.some_ne_none x), serverGhtInsert]
      by_cases hb : Blocked (chainKeys (ghtChain ht key)) key
      · rw [h.insert_blocked A x hb]
        exact iff_of_true (h.get_zero_of hz) (.inl ((h.found_iff hk).mpr hb))
      · obtain ⟨c, hinsert, -⟩ := h.insert_free A x hb
        have hlinks := h.insert A x key
        rw [hinsert] at hlinks ⊢
        have hz' : ∃ after', (ghtChain (ghtInc A (setChain ht key c)) 0).entries =
            before ++ (0, data) :: after' := by
          obtain ⟨more, hmore⟩ := foldl_linkEntry_keeps
            ([(key, x)].filter (fun e => e.1 % ht.size = 0 % ht.size)) (ghtChain ht 0).entries
          refine ⟨after ++ more, ?_⟩
          rw [hlinks.chain, ← hmore, hz, List.append_assoc, List.cons_append]
        obtain ⟨after', hz'⟩ := hz'
        rw [hlinks.linked.checkLoad_zero hz', or_iff_right (mt (h.found_iff hk).mp hb)]
        rfl

theorem cutEntries_lost (hd : (before.map Prod.fst).Nodup) (hbefore : 0 ∉ before.map Prod.fst)
    (hm : key ∈ (before.map Prod.fst).tail) (rest : List (Nat × V)) :
    0 ∉ (cutEntries key (before ++ rest)).map Prod.fst := by
  cases before with
  | nil => cases hm
  | cons e before =>
      rw [List.map_cons, List.tail_cons] at hm
      rw [List.map_cons, List.nodup_cons] at hd
      have hne : e.1 ≠ key := fun he => hd.1 (he ▸ hm)
      have hstop : (before ++ rest).takeWhile (fun e => e.1 ≠ key) =
          before.takeWhile (fun e => e.1 ≠ key) := by
        rw [List.takeWhile_append, if_neg]
        intro hall
        have hwhole := (List.takeWhile_prefix _).eq_of_length hall
        obtain ⟨f, hf, rfl⟩ := List.mem_map.mp hm
        rw [← hwhole] at hf
        have hkept := List.all_eq_true.mp List.all_takeWhile f hf
        exact of_decide_eq_true hkept rfl
      rw [List.cons_append, cutEntries, if_neg hne, hstop]
      intro hzero
      have hsub : (e :: before.takeWhile (fun e => e.1 ≠ key)).Sublist (e :: before) :=
        (List.takeWhile_sublist _).cons_cons _
      exact hbefore ((hsub.map _).subset hzero)

theorem cutEntries_kept (hk : key ≠ 0) (hm : key ∉ (before.map Prod.fst).tail) :
    ∃ before' after', cutEntries key (before ++ (0, data) :: after) =
      before' ++ (0, data) :: after' ∧ before'.map Prod.fst = (before.map Prod.fst).erase key := by
  cases before with
  | nil => exact ⟨[], _, if_neg (Ne.symm hk), rfl⟩
  | cons e before =>
      rw [List.map_cons, List.tail_cons] at hm
      rw [List.cons_append, cutEntries]
      by_cases he : e.1 = key
      · refine ⟨before, after, if_pos he, ?_⟩
        rw [List.map_cons, he, List.erase_cons_head]
      · have hall : ∀ f ∈ before, decide (f.1 ≠ key) = true := by
          intro f hf
          exact decide_eq_true (fun hfk => hm (List.mem_map.mpr ⟨f, hf, hfk⟩))
        refine ⟨e :: before, after.takeWhile (fun f => f.1 ≠ key), ?_, ?_⟩
        · rw [if_neg he, List.takeWhile_append_of_pos hall,
            List.takeWhile_cons_of_pos (by simpa using Ne.symm hk), List.cons_append]
        · rw [List.map_cons, List.erase_of_not_mem]
          rw [List.mem_cons, not_or]
          exact ⟨Ne.symm he, hm⟩

theorem Linked.del_zero (h : Linked ht)
    (hz : (ghtChain ht 0).entries = before ++ (0, data) :: after) (hk : key ≠ 0) :
    serverGhtGet (ghtApply A ht (.del key)) 0 = some data ↔ SparesZero A ht (.del key) := by
  have hdistinct := (h.chain 0).distinct
  rw [hz, List.map_append, List.nodup_append] at hdistinct
  obtain ⟨hbefore, -⟩ := h.zero_once hz
  rw [SparesZero, h.keysBefore_eq hz, ghtApply]
  by_cases hb : Blocked (chainKeys (ghtChain ht key)) key
  · obtain ⟨x, hdel, hcuts⟩ := h.del_blocked (A := A) hb
    rw [hdel, or_iff_right ((h.found_iff hk).mpr hb)]
    have hchain := hcuts.chain 0
    have hleft (before' after' : List (Nat × V))
        (hx : (ghtChain x 0).entries = before' ++ (0, data) :: after')
        (hkeys : before'.map Prod.fst = (before.map Prod.fst).erase key)
        (hm : key ∉ (before.map Prod.fst).tail) :
        serverGhtGet (ghtCheckLoad A x) 0 = some data ↔ key ∉ (before.map Prod.fst).tail ∧
          Covered ht.size (ghtNewSize A (ghtDec A ht)) ((before.map Prod.fst).erase key) := by
      rw [hcuts.linked.checkLoad_zero hx, hcuts.newSize, hcuts.size, hkeys, and_iff_right hm]
    by_cases hj : 0 % ht.size = key % ht.size
    · rw [if_pos hj, hz] at hchain
      by_cases hm : key ∈ (before.map Prod.fst).tail
      · have hlost := cutEntries_lost hdistinct.1 hbefore hm ((0, data) :: after)
        rw [← hchain] at hlost
        exact iff_of_false (hcuts.linked.checkLoad_absent hlost) (fun hspared => hspared.1 hm)
      · obtain ⟨before', after', hcut, hkeys⟩ := cutEntries_kept hk hm
        exact hleft before' after' (hchain.trans hcut) hkeys hm
    · rw [if_neg hj, hz] at hchain
      have habsent : key ∉ before.map Prod.fst := by
        intro hm
        obtain ⟨e, he, rfl⟩ := List.mem_map.mp hm
        have hplaced := (h.chain 0).placed e (hz ▸ List.mem_append_left _ he)
        exact hj (by rw [hplaced]; rfl)
      refine hleft before after hchain ?_ (fun hm => habsent (List.mem_of_mem_tail hm))
      rw [List.erase_of_not_mem habsent]
  · have habsent : serverGhtGet ht key = none := not_not.mp (mt (h.found_iff hk).mp hb)
    rw [h.del_free hb]
    exact iff_of_true (h.get_zero_of hz) (.inl habsent)

theorem Linked.apply_zero (h : Linked ht) (hg : serverGhtGet ht 0 = some data) {op : GhtOp V}
    (hk : op.key ≠ 0) :
    serverGhtGet (ghtApply A ht op) 0 = some data ↔ SparesZero A ht op := by
  obtain ⟨before, after, hz⟩ := h.zero_split hg
  cases op with
  | insert key x => exact h.insert_zero hz hk x
  | del key => exact h.del_zero hz hk

theorem StaysZero.head {ops : List (GhtOp V)} (hs : StaysZero A data ht ops) :
    serverGhtGet ht 0 = some data := by
  cases ops with
  | nil => exact hs
  | cons op ops => exact hs.1

theorem Linked.stays_iff (h : Linked ht) (hg : serverGhtGet ht 0 = some data) {ops : List (GhtOp V)}
    (hk : ∀ op ∈ ops, op.key ≠ 0) : StaysZero A data ht ops ↔ SpareZero A ht ops := by
  induction ops generalizing ht with
  | nil => exact iff_of_true hg trivial
  | cons op ops ih =>
      have hstep := h.apply_zero (A := A) hg (hk op List.mem_cons_self)
      have hrest := fun hg' => ih (h.apply (A := A) op) hg'
        (fun op' hop => hk op' (List.mem_cons_of_mem _ hop))
      constructor
      · rintro ⟨-, hs⟩
        exact ⟨hstep.mp hs.head, (hrest hs.head).mp hs⟩
      · rintro ⟨hspares, hs⟩
        have hg' := hstep.mpr hspares
        exact ⟨hg, (hrest hg').mpr hs⟩

theorem keysBefore_absent (h0 : ∀ e ∈ ht.entries, e.1 ≠ 0) :
    keysBefore ht = chainKeys (ghtChain ht 0) := by
  rw [keysBefore, List.takeWhile_eq_self_iff]
  intro k hk
  obtain ⟨e, he, rfl⟩ := List.mem_map.mp hk
  exact decide_eq_true (h0 e (mem_entries_of_chain he))

/-- Key 0 is ordinary exactly where bucket 0 is used and every rehash, that of the insertion and
those of later operations, finds a key before it that comes along. -/
theorem zero_ordinary_iff (A : LoadFactor L) (ht : ServerGht V L)
    (hr : Reachable (Initial A) (OperateAny A) ht) (h0 : ∀ e ∈ ht.entries, e.1 ≠ 0) (data : V)
    (later : List (GhtOp V)) (hk : ∀ op ∈ later, op.key ≠ 0) :
    ZeroOrdinary A ht data later ↔ keysBefore ht ≠ [] ∧
      Covered ht.size (ghtNewSize A (ghtInc A ht)) (keysBefore ht) ∧
        SpareZero A (serverGhtInsert A ht 0 (some data)).2 later := by
  have h := reachable_linked hr
  rw [keysBefore_absent h0]
  have habsent : 0 ∉ chainKeys (ghtChain ht 0) := by
    intro hm
    obtain ⟨e, he, hzero⟩ := List.mem_map.mp hm
    exact h0 e (mem_entries_of_chain he) hzero
  by_cases hb : Blocked (chainKeys (ghtChain ht 0)) 0
  · have hempty := (hb.resolve_left habsent).2
    refine iff_of_false (fun hz => ?_) (fun hc => hc.1 hempty)
    have hinserted := hz.inserted
    rw [serverGhtInsert, h.insert_blocked A data hb] at hinserted
    cases hinserted
  · have hused : chainKeys (ghtChain ht 0) ≠ [] := fun hnil => hb (.inr ⟨rfl, hnil⟩)
    obtain ⟨c, hinsert, hc, he⟩ := h.insert_free A data hb
    have hlinks := h.insert A data 0
    rw [hinsert] at hlinks
    have hz : (ghtChain (ghtInc A (setChain ht 0 c)) 0).entries =
        (ghtChain ht 0).entries ++ [(0, data)] := by
      have hcount : ghtChain (ghtInc A (setChain ht 0 c)) 0 = ghtChain (setChain ht 0 c) 0 :=
        ghtChain_congr rfl rfl 0
      rw [hcount, ghtChain_set (h.hash_lt 0), if_pos rfl, he]
    have hcovered := hlinks.linked.checkLoad_zero (A := A) hz
    have hserver : serverGhtInsert A ht 0 (some data) =
        (true, ghtCheckLoad A (ghtInc A (setChain ht 0 c))) := by
      rw [serverGhtInsert, hinsert]
    rw [and_iff_right hused, hserver]
    constructor
    · intro hord
      have hs := hord.stays
      rw [hserver] at hs
      exact ⟨hcovered.mp hs.head, (hlinks.linked.checkLoad.stays_iff hs.head hk).mp hs⟩
    · rintro ⟨hcov, hspare⟩
      have hg := hcovered.mpr hcov
      refine ⟨by rw [hserver], ?_, h.del_free hb⟩
      rw [hserver]
      exact (hlinks.linked.checkLoad.stays_iff hg hk).mpr hspare

def twentyStored : ServerGht Nat ℚ :=
  ghtApply exactLoad (emptyGht exactLoad 10 false) (.insert 20 (some 20))

theorem twentyStored_reachable :
    Reachable (Initial exactLoad) (OperateAny exactLoad) twentyStored :=
  (Reachable.start ⟨10, false, rfl⟩).next (a := .insert 20 (some 20)) ⟨by decide, rfl⟩

def sixInserts : List (GhtOp Nat) := [1, 2, 3, 4, 5, 6].map (fun key => .insert key (some key))

/-- Behind 20, key 0 survives the rehash to 20 buckets. -/
theorem zero_ordinary_behind_twenty : ZeroOrdinary exactLoad twentyStored 7 sixInserts :=
  (zero_ordinary_iff exactLoad twentyStored twentyStored_reachable (by decide +kernel) 7 sixInserts
    (by decide)).mpr (by decide +kernel)

/-- In an empty table key 0 cannot be inserted. -/
theorem zero_refused_when_empty : ¬ ∀ (ht : ServerGht Nat ℚ) (data : Nat)
    (later : List (GhtOp Nat)), Reachable (Initial exactLoad) (OperateAny exactLoad) ht →
      (∀ e ∈ ht.entries, e.1 ≠ 0) → (∀ op ∈ later, op.key ≠ 0) →
        ZeroOrdinary exactLoad ht data later := by
  intro hall
  have hord := hall (emptyGht exactLoad 10 false) 7 [] (.start ⟨10, false, rfl⟩) (by decide +kernel)
    (by decide)
  have hrefused :
      (serverGhtInsert exactLoad (emptyGht exactLoad 10 false) 0 (some 7)).1 = false := by
    decide +kernel
  rw [hord.inserted] at hrefused
  cases hrefused

end ChityChat.ServerHt
