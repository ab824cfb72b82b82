import ChityChat.ServerHtDelete
import Mathlib.Logic.Function.Basic
import Mathlib.Data.Nat.Find
import Mathlib.Data.Nat.Pairing
import Mathlib.Logic.Relation

namespace ChityChat.ShutdownLoop

open Transition
open ServerHt hiding ghtDelBucket serverGhtDel cleared

variable {V : Type}

/-- `ght_bucket_t`. A link is the address of a bucket on the heap. -/
structure Node (V : Type) extends GhtBucket V where
  next : Option Nat

inductive Pointer
  | slot (i : Nat)
  | node (a : Nat)
  deriving DecidableEq

inductive Fault
  | released
  | running
  deriving DecidableEq

/-- The bucket array and the buckets on the heap, `none` where nothing is allocated any more. The
count and the load factor are left out: with `ignore_resize` set, nothing reads them. -/
structure Buckets (V : Type) where
  table : List (Node V)
  heap : Nat → Option (Node V)

namespace Buckets

def load (m : Buckets V) : Pointer → Option (Node V)
  | .slot i => m.table[i]?
  | .node a => m.heap a

def read (m : Buckets V) (p : Pointer) : Except Fault (Node V) :=
  match m.load p with
  | some b => .ok b
  | none => .error .released

def store (m : Buckets V) (p : Pointer) (b : Node V) : Buckets V :=
  match p with
  | .slot i => { m with table := m.table.set i b }
  | .node a => { m with heap := Function.update m.heap a (some b) }

def release (m : Buckets V) (a : Nat) : Buckets V :=
  { m with heap := Function.update m.heap a none }

end Buckets

def cleared : Node V := ⟨zeroed, none⟩

def ghtDelBucket (m : Buckets V) (p : Pointer) : Except Fault (Buckets V) := do
  let bucket ← m.read p
  match bucket.next, p with
  | some a, _ => do
      let next ← m.read (.node a)
      let next := if bucket.inheap = inArray then { next with inheap := inArray } else next
      return (m.store p next).release a
  | none, .node a =>
      if bucket.inheap = inHeap then return m.release a else return m.store (.node a) cleared
  | none, .slot i =>
      if bucket.inheap = inHeap then throw .released else return m.store (.slot i) cleared

def ghtFindLink (m : Buckets V) (key : Nat) : Nat → Pointer → Except Fault (Option (Pointer × Nat))
  | 0, _ => throw .running
  | fuel + 1, prev => do
      let bucket ← m.read prev
      match bucket.next with
      | none => return none
      | some a => do
          let next ← m.read (.node a)
          if next.key = key then return some (prev, a) else ghtFindLink m key fuel (.node a)

def serverGhtDel (fuel : Nat) (m : Buckets V) (key : Nat) : Except Fault (Buckets V) := do
  let idx := key % m.table.length
  let bucket ← m.read (.slot idx)
  if bucket.key = key then ghtDelBucket m (.slot idx)
  else
    match ← ghtFindLink m key fuel (.slot idx) with
    | none => return m
    | some (prev, a) => do
        let bucket ← m.read prev
        ghtDelBucket (m.store prev { bucket with next := none }) (.node a)

/-- The inner loop of `GHT_FOREACH` whose body deletes the item. The list logs the deleted items. -/
def visit (id : V → Nat) : Nat → Buckets V → List V → Option Pointer →
    Except Fault (Buckets V × List V)
  | 0, _, _, _ => throw .running
  | _ + 1, m, log, none => return (m, log)
  | fuel + 1, m, log, some p => do
      let bucket ← m.read p
      match bucket.data with
      | none => return (m, log)
      | some item => do
          let m ← serverGhtDel fuel m (id item)
          let bucket ← m.read p
          visit id fuel m (log ++ [item]) (bucket.next.map .node)

def serverDelAllSessions (sessionId : V → Nat) (fuel : Nat) (m : Buckets V) :
    Except Fault (Buckets V × List V) :=
  (List.range m.table.length).foldlM
    (fun s i => visit sessionId fuel s.1 s.2 (some (.slot i))) (m, [])

def Next (m : Buckets V) (p q : Pointer) : Prop :=
  ∃ b a, m.load p = some b ∧ b.next = some a ∧ q = .node a

def Stored (m : Buckets V) (v : V) : Prop :=
  ∃ i p b, Relation.ReflTransGen (Next m) (.slot i) p ∧ m.load p = some b ∧ b.data = some v

structure Content (id : V → Nat) (m : Buckets V) : Prop where
  flagged : ∀ i b, m.load (.slot i) = some b → b.inheap = inArray
  unlinked : ∀ i b, m.load (.slot i) = some b → b.data = none → b.next = none
  stored : ∀ a b, m.load (.node a) = some b → b.data.isSome
  live : ∀ p b a, m.load p = some b → b.next = some a → (m.load (.node a)).isSome
  keyed : ∀ p b v, m.load p = some b → b.data = some v → b.key = id v
  placed : ∀ i b v, m.load (.slot i) = some b → b.data = some v → id v % m.table.length = i
  distinct : ∀ p q b c v w, m.load p = some b → m.load q = some c → b.data = some v →
    c.data = some w → id v = id w → p = q

/-- The loop ends without a use of a released bucket, every session stored at the start was deleted
once and none is stored at the end. -/
def VisitsOnce [DecidableEq V] (sessionId : V → Nat) (m : Buckets V) : Prop :=
  ∃ fuel m' log, serverDelAllSessions sessionId fuel m = .ok (m', log) ∧
    (∀ v, Stored m v → log.count v = 1) ∧ ∀ v, ¬ Stored m' v

theorem bind_ok {ε α β : Type} {x : Except ε α} {f : α → Except ε β} {r : β} :
    (x >>= f) = .ok r ↔ ∃ a, x = .ok a ∧ f a = .ok r := by
  cases x with
  | error e => simp [bind, Except.bind]
  | ok a => simp [bind, Except.bind]

theorem read_ok {m : Buckets V} {p : Pointer} {b : Node V} :
    m.read p = .ok b ↔ m.load p = some b := by
  rw [Buckets.read]
  cases m.load p <;> simp

structure Stuck (id : V → Nat) (i k : Nat) (m : Buckets V) : Prop where
  key : ∀ b, m.load (.slot i) = some b → b.key = k
  others : ∀ p b v, p ≠ .slot i → m.load p = some b → b.data = some v → id v ≠ k

variable {id : V → Nat} {i k : Nat} {m m' : Buckets V} {p : Pointer}

theorem load_store_some {b c : Node V} {q : Pointer} (h : (m.store p b).load q = some c) :
    q = p ∧ c = b ∨ q ≠ p ∧ m.load q = some c := by
  cases p with
  | slot i =>
      cases q with
      | node a => exact .inr ⟨by simp, h⟩
      | slot j =>
          simp only [Buckets.store, Buckets.load, List.getElem?_set] at h
          by_cases hij : i = j
          · subst hij
            rw [if_pos rfl] at h
            split at h
            · exact .inl ⟨rfl, (Option.some.inj h).symm⟩
            · cases h
          · rw [if_neg hij] at h
            exact .inr ⟨by simpa using Ne.symm hij, h⟩
  | node a =>
      cases q with
      | slot j => exact .inr ⟨by simp, h⟩
      | node d =>
          simp only [Buckets.store, Buckets.load, Function.update_apply] at h
          by_cases hd : d = a
          · rw [if_pos hd] at h
            exact .inl ⟨by rw [hd], (Option.some.inj h).symm⟩
          · rw [if_neg hd] at h
            exact .inr ⟨by simpa using hd, h⟩

theorem load_release_some {a : Nat} {c : Node V} {q : Pointer}
    (h : (m.release a).load q = some c) : q ≠ .node a ∧ m.load q = some c := by
  cases q with
  | slot j => exact ⟨by simp, h⟩
  | node d =>
      simp only [Buckets.release, Buckets.load, Function.update_apply] at h
      split at h
      · cases h
      · rename_i hd
        exact ⟨by simpa using hd, h⟩

theorem Stuck.store {b : Node V} (h : Stuck id i k m) (hp : p ≠ .slot i)
    (hb : ∀ v, b.data = some v → id v ≠ k) : Stuck id i k (m.store p b) := by
  constructor
  · intro c hc
    rcases load_store_some hc with ⟨heq, -⟩ | ⟨-, hc⟩
    · exact absurd heq.symm hp
    · exact h.key c hc
  · intro q c v hq hc hv
    rcases load_store_some hc with ⟨-, rfl⟩ | ⟨-, hc⟩
    · exact hb v hv
    · exact h.others q c v hq hc hv

theorem Stuck.store_slot {b : Node V} (h : Stuck id i k m) (hb : b.key = k) :
    Stuck id i k (m.store (.slot i) b) := by
  constructor
  · intro c hc
    rcases load_store_some hc with ⟨-, rfl⟩ | ⟨hne, -⟩
    · exact hb
    · exact absurd rfl hne
  · intro q c v hq hc hv
    rcases load_store_some hc with ⟨heq, -⟩ | ⟨-, hc⟩
    · exact absurd heq hq
    · exact h.others q c v hq hc hv

theorem Stuck.release (h : Stuck id i k m) (a : Nat) : Stuck id i k (m.release a) :=
  ⟨fun c hc => h.key c (load_release_some hc).2,
    fun q c v hq hc hv => h.others q c v hq (load_release_some hc).2 hv⟩

theorem ghtDelBucket_stuck (h : Stuck id i k m) (hp : p ≠ .slot i)
    (hdel : ghtDelBucket m p = .ok m') : Stuck id i k m' := by
  obtain ⟨b, hb, hdel⟩ := bind_ok.mp hdel
  split at hdel
  · obtain ⟨next, hnext, hdel⟩ := bind_ok.mp hdel
    cases hdel
    refine (h.store hp ?_).release _
    intro v hv
    refine h.others _ next v (by simp) (read_ok.mp hnext) ?_
    split at hv <;> exact hv
  · split at hdel <;> cases hdel
    · exact h.release _
    · exact h.store hp (by simp [cleared, zeroed])
  · split at hdel <;> cases hdel
    exact h.store hp (by simp [cleared, zeroed])

theorem serverGhtDel_stuck {fuel key : Nat} (h : Stuck id i k m) (hkey : key ≠ k)
    (hdel : serverGhtDel fuel m key = .ok m') : Stuck id i k m' := by
  obtain ⟨b, hb, hdel⟩ := bind_ok.mp hdel
  split at hdel
  · rename_i hhit
    refine ghtDelBucket_stuck h ?_ hdel
    intro heq
    rw [heq] at hb
    exact hkey (hhit.symm.trans (h.key b (read_ok.mp hb)))
  · obtain ⟨found, -, hdel⟩ := bind_ok.mp hdel
    split at hdel
    · cases hdel
      exact h
    · obtain ⟨c, hc, hdel⟩ := bind_ok.mp hdel
      refine ghtDelBucket_stuck ?_ (by simp) hdel
      rename_i prev a _
      by_cases hprev : prev = .slot i
      · subst hprev
        exact h.store_slot (h.key c (read_ok.mp hc))
      · exact h.store hprev (fun v hv => h.others _ c v hprev (read_ok.mp hc) hv)

theorem visit_stuck {fuel : Nat} {log log' : List V} {cursor : Option Pointer}
    (h : Stuck id i k m) (hcursor : cursor ≠ some (.slot i)) (hlog : ∀ v ∈ log, id v ≠ k)
    (hvisit : visit id fuel m log cursor = .ok (m', log')) :
    Stuck id i k m' ∧ ∀ v ∈ log', id v ≠ k := by
  induction fuel generalizing m log cursor with
  | zero => cases hvisit
  | succ fuel ih =>
      cases cursor with
      | none =>
          cases hvisit
          exact ⟨h, hlog⟩
      | some p =>
          have hp : p ≠ .slot i := fun heq => hcursor (heq ▸ rfl)
          obtain ⟨b, hb, hvisit⟩ := bind_ok.mp hvisit
          split at hvisit
          · cases hvisit
            exact ⟨h, hlog⟩
          · rename_i item hitem
            have hne : id item ≠ k := h.others p b item hp (read_ok.mp hb) hitem
            obtain ⟨m₁, hdel, hvisit⟩ := bind_ok.mp hvisit
            obtain ⟨c, -, hvisit⟩ := bind_ok.mp hvisit
            refine ih (serverGhtDel_stuck h hne hdel) ?_ ?_ hvisit
            · cases c.next <;> simp
            · intro v hv
              rcases List.mem_append.mp hv with hv | hv
              · exact hlog v hv
              · rwa [List.mem_singleton.mp hv]

def settle (b : Node V) : Node V := if b.data.isSome then cleared else b

def settled (m : Buckets V) (j : Nat) : Buckets V :=
  { m with table := m.table.mapIdx (fun i b => if i < j then settle b else b) }

theorem settle_data (b : Node V) : (settle b).data = none := by
  rw [settle]
  cases h : b.data with
  | none => simp [h]
  | some v => simp [cleared, zeroed]

theorem settle_next {b : Node V} (h : b.next = none) : (settle b).next = none := by
  rw [settle]
  split
  · rfl
  · exact h

theorem settled_slot (m : Buckets V) (i j : Nat) :
    (settled m j).load (.slot i) =
      (m.load (.slot i)).map (fun b => if i < j then settle b else b) := by
  simp only [settled, Buckets.load, List.getElem?_mapIdx]

theorem settled_load {j : Nat} {c : Node V} {v : V} (hc : (settled m j).load p = some c)
    (hv : c.data = some v) : m.load p = some c := by
  cases p with
  | node a => exact hc
  | slot i =>
      rw [settled_slot, Option.map_eq_some_iff] at hc
      obtain ⟨b, hb, rfl⟩ := hc
      split at hv
      · rw [settle_data] at hv
        cases hv
      · rename_i hij
        rw [if_neg hij, hb]

theorem settled_length (m : Buckets V) (j : Nat) :
    (settled m j).table.length = m.table.length := by
  simp only [settled, List.length_mapIdx]

theorem settled_zero (m : Buckets V) : settled m 0 = m := by
  cases m
  simp [settled, List.mapIdx_eq_zipIdx_map]

theorem settled_succ {j : Nat} {b : Node V} (h : m.load (.slot j) = some b) :
    settled m (j + 1) = (settled m j).store (.slot j) (settle b) := by
  simp only [settled, Buckets.store, Buckets.mk.injEq, and_true]
  apply List.ext_getElem?
  intro i
  rw [List.getElem?_set, List.getElem?_mapIdx, List.getElem?_mapIdx, List.length_mapIdx]
  by_cases hij : j = i
  · subst hij
    obtain ⟨hlt, hb⟩ := List.getElem?_eq_some_iff.mp h
    simp [hlt, hb]
  · rw [if_neg hij]
    simp only [show i < j + 1 ↔ i < j by omega]

section Single

variable {fuel j : Nat} {log : List V} {b : Node V}

theorem serverGhtDel_head {v : V} (hb : m.load (.slot j) = some b) (hkey : b.key = id v)
    (hplace : id v % m.table.length = j) :
    serverGhtDel fuel m (id v) = ghtDelBucket m (.slot j) := by
  simp only [serverGhtDel, hplace, read_ok.mpr hb]
  exact if_pos hkey

theorem settled_store_self (hb : m.load (.slot j) = some b) (hv : b.data = none) :
    settled m (j + 1) = settled m j := by
  have hsettle : settle b = b := by simp [settle, hv]
  have hload : (settled m j).load (.slot j) = some b := by simp [settled_slot, hb]
  obtain ⟨hlt, hget⟩ := List.getElem?_eq_some_iff.mp hload
  rw [settled_succ hb, hsettle, Buckets.store, ← hget, List.set_getElem_self]

theorem visit_single (h : Content id m) (hb : m.load (.slot j) = some b) (hnext : b.next = none) :
    visit id (fuel + 2) (settled m j) log (some (.slot j)) =
      .ok (settled m (j + 1), log ++ b.data.toList) := by
  have hread : (settled m j).read (.slot j) = .ok b := by simp [read_ok, settled_slot, hb]
  cases hv : b.data with
  | none =>
      simp only [visit, hread, bind, Except.bind, hv, settled_store_self hb hv,
        Option.toList_none, List.append_nil]
      rfl
  | some v =>
      have hdel : serverGhtDel (fuel + 1) (settled m j) (id v) = .ok (settled m (j + 1)) := by
        rw [serverGhtDel_head (read_ok.mp hread) (h.keyed _ _ _ hb hv)
          (by rw [settled_length]; exact h.placed _ _ _ hb hv), settled_succ hb]
        have hflag : b.inheap ≠ inHeap := by simp [h.flagged j b hb, inArray, inHeap]
        simp only [ghtDelBucket, hread, bind, Except.bind, hnext, hflag, if_false, settle, hv,
          Option.isSome_some, if_true]
        rfl
      have hafter : (settled m (j + 1)).read (.slot j) = .ok (settle b) := by
        simp [read_ok, settled_slot, hb]
      simp only [visit, hread, bind, Except.bind, hv, hdel, hafter, settle_next hnext,
        Option.map_none]
      rfl

theorem visit_single_ok {r : Buckets V × List V} (h : Content id m)
    (hb : m.load (.slot j) = some b) (hnext : b.next = none)
    (hr : visit id fuel (settled m j) log (some (.slot j)) = .ok r) :
    r = (settled m (j + 1), log ++ b.data.toList) := by
  have hread : (settled m j).read (.slot j) = .ok b := by simp [read_ok, settled_slot, hb]
  match fuel with
  | 0 => cases hr
  | 1 =>
      cases hv : b.data with
      | none =>
          simp only [visit, hread, bind, Except.bind, hv] at hr
          cases hr
          rw [settled_store_self hb hv, Option.toList_none, List.append_nil]
      | some v =>
          obtain ⟨c, hc, hr⟩ := bind_ok.mp hr
          cases hread.symm.trans hc
          simp only [hv] at hr
          obtain ⟨m₁, -, hr⟩ := bind_ok.mp hr
          obtain ⟨c, -, hr⟩ := bind_ok.mp hr
          cases hr
  | fuel + 2 => exact (Except.ok.inj ((visit_single h hb hnext).symm.trans hr)).symm

end Single

section Run

def rounds (id : V → Nat) (fuel : Nat) (s : Buckets V × List V) (slots : List Nat) :
    Except Fault (Buckets V × List V) :=
  slots.foldlM (fun s i => visit id fuel s.1 s.2 (some (.slot i))) s

theorem rounds_append (fuel : Nat) (s : Buckets V × List V) (l l' : List Nat) :
    rounds id fuel s (l ++ l') = rounds id fuel s l >>= fun s => rounds id fuel s l' :=
  List.foldlM_append

theorem rounds_single_ok {fuel j : Nat} {r : Buckets V × List V} (h : Content id m)
    (hj : j ≤ m.table.length)
    (hnext : ∀ i b, i < j → m.load (.slot i) = some b → b.next = none)
    (hr : rounds id fuel (m, []) (List.range j) = .ok r) :
    r = (settled m j, (m.table.take j).filterMap (fun b => b.data)) := by
  induction j generalizing r with
  | zero =>
      cases hr
      simp [settled_zero]
  | succ j ih =>
      rw [List.range_succ, rounds_append] at hr
      obtain ⟨s, hs, hr⟩ := bind_ok.mp hr
      rw [ih (by omega) (fun i b hi => hnext i b (by omega)) hs] at hr
      obtain ⟨s', hs', hr⟩ := bind_ok.mp hr
      cases hr
      have hb : m.load (.slot j) = some (m.table[j]) := List.getElem?_eq_getElem hj
      rw [visit_single_ok h hb (hnext j _ (by omega) hb) hs']
      rw [List.take_succ_eq_append_getElem hj, List.filterMap_append]
      cases hv : (m.table[j]).data <;> simp [hv]

theorem rounds_single {j : Nat} (h : Content id m) (hj : j ≤ m.table.length)
    (hnext : ∀ i b, i < j → m.load (.slot i) = some b → b.next = none) :
    ∃ r, rounds id 2 (m, []) (List.range j) = .ok r := by
  induction j with
  | zero => exact ⟨_, rfl⟩
  | succ j ih =>
      have hnext' : ∀ i b, i < j → m.load (.slot i) = some b → b.next = none :=
        fun i b hi => hnext i b (by omega)
      obtain ⟨s, hs⟩ := ih (by omega) hnext'
      have hb : m.load (.slot j) = some (m.table[j]) := List.getElem?_eq_getElem hj
      rw [List.range_succ, rounds_append, hs, rounds_single_ok h (by omega) hnext' hs]
      exact ⟨_, bind_ok.mpr ⟨_, rfl, bind_ok.mpr
        ⟨_, visit_single h hb (hnext j _ (by omega) hb), rfl⟩⟩⟩

theorem rounds_stuck {fuel : Nat} {slots : List Nat} {log : List V} {r : Buckets V × List V}
    (h : Stuck id i k m) (hslots : i ∉ slots) (hlog : ∀ v ∈ log, id v ≠ k)
    (hr : rounds id fuel (m, log) slots = .ok r) : ∀ v ∈ r.2, id v ≠ k := by
  induction slots generalizing m log with
  | nil =>
      cases hr
      exact hlog
  | cons j slots ih =>
      obtain ⟨s, hs, hr⟩ := bind_ok.mp hr
      rw [List.mem_cons, not_or] at hslots
      obtain ⟨hstuck, hlog'⟩ := visit_stuck h (by simpa using Ne.symm hslots.1) hlog hs
      exact ih hstuck hslots.2 hlog' hr

theorem visit_linked {fuel a : Nat} {b next : Node V} {v : V} {log : List V}
    {r : Buckets V × List V} (h : Content id m) (hb : m.load (.slot i) = some b)
    (hlink : b.next = some a) (hnext : m.load (.node a) = some next) (hv : next.data = some v)
    (hlog : ∀ w ∈ log, id w ≠ id v)
    (hr : visit id fuel (settled m i) log (some (.slot i)) = .ok r) :
    Stuck id i (id v) r.1 ∧ ∀ w ∈ r.2, id w ≠ id v := by
  have hread : (settled m i).read (.slot i) = .ok b := by simp [read_ok, settled_slot, hb]
  have hnode : (settled m i).read (.node a) = .ok next := read_ok.mpr hnext
  obtain ⟨u, hu⟩ : ∃ u, b.data = some u := by
    cases hd : b.data with
    | none => exact absurd (h.unlinked i b hb hd) (by simp [hlink])
    | some u => exact ⟨u, rfl⟩
  have hne : id u ≠ id v := by
    intro heq
    cases h.distinct _ _ _ _ _ _ hb hnext hu hv heq
  cases fuel with
  | zero => cases hr
  | succ fuel =>
      obtain ⟨c, hc, hr⟩ := bind_ok.mp hr
      cases hread.symm.trans hc
      simp only [hu] at hr
      obtain ⟨m₁, hdel, hr⟩ := bind_ok.mp hr
      obtain ⟨c, -, hr⟩ := bind_ok.mp hr
      rw [serverGhtDel_head (read_ok.mp hread) (h.keyed _ _ _ hb hu)
        (by rw [settled_length]; exact h.placed _ _ _ hb hu)] at hdel
      simp only [ghtDelBucket, hread, hnode, bind, Except.bind, hlink, h.flagged i b hb,
        if_true] at hdel
      cases hdel
      have hstuck : Stuck id i (id v)
          (((settled m i).store (.slot i) { next with inheap := inArray }).release a) := by
        have hkey : next.key = id v := h.keyed _ _ _ hnext hv
        constructor
        · intro d hd
          rcases load_store_some (load_release_some hd).2 with ⟨-, rfl⟩ | ⟨hne, -⟩
          · exact hkey
          · exact absurd rfl hne
        · intro q d w hq hd hw heq
          obtain ⟨hqa, hd⟩ := load_release_some hd
          rcases load_store_some hd with ⟨hqi, -⟩ | ⟨-, hd⟩
          · exact hq hqi
          · exact hqa (h.distinct _ _ _ _ _ _ (settled_load hd hw) hnext hw hv heq)
      refine visit_stuck hstuck ?_ ?_ hr
      · cases c.next <;> simp
      · intro w hw
        rcases List.mem_append.mp hw with hw | hw
        · exact hlog w hw
        · rwa [List.mem_singleton.mp hw]

end Run

theorem reaches_slot {i : Nat} {b : Node V} (h : Relation.ReflTransGen (Next m) (.slot i) p)
    (hb : m.load (.slot i) = some b) (hnext : b.next = none) : p = .slot i := by
  rcases h.cases_head with rfl | ⟨q, ⟨c, a, hc, ha, -⟩, -⟩
  · rfl
  · rw [hb, Option.some.injEq] at hc
    rw [← hc, hnext] at ha
    cases ha

theorem stored_slot (h : Relation.ReflTransGen (Next m) (.slot i) p) {b : Node V}
    (hb : m.load p = some b) : ∃ c, m.load (.slot i) = some c := by
  rcases h.cases_head with rfl | ⟨q, ⟨c, a, hc, -⟩, -⟩
  · exact ⟨b, hb⟩
  · exact ⟨c, hc⟩

theorem items_nodup (h : Content id m) : (m.table.filterMap (fun b => b.data)).Nodup := by
  have hpair : m.table.Pairwise (fun b c => ∀ v ∈ b.data, ∀ w ∈ c.data, v ≠ w) := by
    rw [List.pairwise_iff_getElem]
    rintro i j hi hj hij v hv w hw rfl
    have := h.distinct (.slot i) (.slot j) _ _ v v (List.getElem?_eq_getElem hi)
      (List.getElem?_eq_getElem hj) hv hw rfl
    simp only [Pointer.slot.injEq] at this
    omega
  exact List.Pairwise.filterMap (fun b => b.data) (fun b c hbc v hv w hw => hbc v hv w hw) hpair

section Layout

variable {L : Type} {ht : ServerGht V L}

def linkOf (c : Chain V) (i n : Nat) : Option Nat :=
  if n < c.next.length then some (Nat.pair i n) else none

def layout (ht : ServerGht V L) : Buckets V where
  table := ht.table.mapIdx (fun i c => ⟨c.head, linkOf c i 0⟩)
  heap a := ht.table[a.unpair.1]?.bind (fun c =>
    c.next[a.unpair.2]?.map (fun b => ⟨b, linkOf c a.unpair.1 (a.unpair.2 + 1)⟩))

def place : Pointer → Nat × Nat
  | .slot i => (i, 0)
  | .node a => (a.unpair.1, a.unpair.2 + 1)

theorem place_injective {p q : Pointer} (h : place p = place q) : p = q := by
  cases p with
  | slot i =>
      cases q with
      | slot j => simpa [place] using h
      | node a => simp [place] at h
  | node a =>
      cases q with
      | slot j => simp [place] at h
      | node d =>
          simp only [place, Prod.mk.injEq, Nat.add_right_cancel_iff] at h
          rw [← Nat.pair_unpair a, ← Nat.pair_unpair d, h.1, h.2]

theorem layout_load {b : Node V} (h : (layout ht).load p = some b) :
    ∃ c, ht.table[(place p).1]? = some c ∧ c.buckets[(place p).2]? = some b.toGhtBucket ∧
      b.next = linkOf c (place p).1 (place p).2 := by
  cases p with
  | slot i =>
      simp only [layout, Buckets.load, List.getElem?_mapIdx, Option.map_eq_some_iff] at h
      obtain ⟨c, hc, rfl⟩ := h
      exact ⟨c, hc, rfl, rfl⟩
  | node a =>
      simp only [layout, Buckets.load, Option.bind_eq_some_iff, Option.map_eq_some_iff] at h
      obtain ⟨c, hc, d, hd, rfl⟩ := h
      exact ⟨c, hc, hd, rfl⟩

theorem layout_length (ht : ServerGht V L) : (layout ht).table.length = ht.table.length :=
  List.length_mapIdx

theorem layout_entry {b : Node V} {v : V} (h : (layout ht).load p = some b)
    (hv : b.data = some v) :
    (∃ c, ht.table[(place p).1]? = some c ∧ (b.key, v) ∈ c.entries) ∧ (b.key, v) ∈ ht.entries := by
  obtain ⟨c, hc, hb, -⟩ := layout_load h
  have he : (b.key, v) ∈ c.entries :=
    List.mem_filterMap.mpr ⟨_, List.mem_of_getElem? hb, by simp [GhtBucket.entry, hv]⟩
  exact ⟨⟨c, hc, he⟩, List.mem_flatMap.mpr ⟨c, List.mem_of_getElem? hc, he⟩⟩

theorem buckets_nodup {n i : Nat} {c : Chain V} (h : c.Ok n i) (hne : c.entries ≠ []) :
    (c.buckets.map GhtBucket.key).Nodup := by
  have hhead : c.head.data.isSome := by
    cases hd : c.head.data with
    | none => exact absurd (h.entries_empty hd) hne
    | some v => rfl
  rw [map_key_eq (h.all_stored hhead)]
  exact h.distinct

theorem layout_content (hs : Shaped ht) (hf : Flagged ht) (hk : ∀ e ∈ ht.entries, e.1 = id e.2) :
    Content id (layout ht) where
  flagged := by
    intro i b hb
    obtain ⟨c, hc, hhead, -⟩ := layout_load hb
    have hb : c.head = b.toGhtBucket := Option.some.inj hhead
    rw [← hb]
    exact (hf c (List.mem_of_getElem? hc)).1
  unlinked := by
    intro i b hb hd
    obtain ⟨c, hc, hhead, hnext⟩ := layout_load hb
    have hb : c.head = b.toGhtBucket := Option.some.inj hhead
    rw [hnext, linkOf, ((hs.chains i c hc).empty_head (hb ▸ hd)).2]
    rfl
  stored := by
    intro a b hb
    obtain ⟨c, hc, hnode, -⟩ := layout_load hb
    exact (hs.chains _ c hc).stored _ (List.mem_of_getElem? hnode)
  live := by
    intro p b a hb ha
    obtain ⟨c, hc, -, hnext⟩ := layout_load hb
    rw [ha, linkOf] at hnext
    split at hnext
    · rename_i hlt
      cases hnext
      simp [layout, Buckets.load, hc, hlt]
    · cases hnext
  keyed := by
    intro p b v hb hv
    exact hk _ (layout_entry hb hv).2
  placed := by
    intro i b v hb hv
    obtain ⟨hchain, hm⟩ := layout_entry hb hv
    obtain ⟨c, hc, he⟩ := hchain
    rw [← hk _ hm, layout_length, hs.length]
    exact (hs.chains _ c hc).placed _ he
  distinct := by
    intro p q b d v w hb hd hv hw hvw
    have hkey : b.key = d.key :=
      (hk _ (layout_entry hb hv).2).trans (hvw.trans (hk _ (layout_entry hd hw).2).symm)
    obtain ⟨c, hc, hbc⟩ := (layout_entry hb hv).1
    obtain ⟨e, he, hde⟩ := (layout_entry hd hw).1
    have hchain : (place p).1 = (place q).1 := by
      rw [← (hs.chains _ c hc).placed _ hbc, ← (hs.chains _ e he).placed _ hde, hkey]
    obtain ⟨c', hc', hbn, -⟩ := layout_load hb
    obtain ⟨e', he', hdn, -⟩ := layout_load hd
    cases hc.symm.trans hc'
    cases he.symm.trans he'
    rw [hchain] at hc
    cases hc.symm.trans he
    have hnodup := buckets_nodup (hs.chains _ c he) (List.ne_nil_of_mem hbc)
    have hlt : (place p).2 < (c.buckets.map GhtBucket.key).length := by
      rw [List.length_map]
      exact (List.getElem?_eq_some_iff.mp hbn).1
    refine place_injective (Prod.ext hchain ((List.getElem?_inj hlt hnodup).mp ?_))
    rw [List.getElem?_map, List.getElem?_map, hbn, hdn, Option.map_some, Option.map_some, hkey]

theorem reachable_content {A : LoadFactor L}
    (h : Reachable (Initial A) (Operate A) ht) (hk : ∀ e ∈ ht.entries, e.1 = id e.2) :
    Content id (layout ht) :=
  layout_content (reachable_counted h).shaped (reachable_counted h).flagged hk

end Layout

variable [DecidableEq V]

theorem visitsOnce_of_single (h : Content id m) (hnext : ∀ b ∈ m.table, b.next = none) :
    VisitsOnce id m := by
  have hslot : ∀ i b, m.load (.slot i) = some b → b.next = none :=
    fun i b hb => hnext b (List.mem_of_getElem? hb)
  obtain ⟨r, hr⟩ := rounds_single h (Nat.le_refl _) (fun i b _ => hslot i b)
  have heq := rounds_single_ok h (Nat.le_refl _) (fun i b _ => hslot i b) hr
  rw [List.take_length] at heq
  rw [heq] at hr
  refine ⟨2, _, _, hr, ?_, ?_⟩
  · rintro v ⟨i, p, b, hreach, hb, hv⟩
    obtain ⟨c, hc⟩ := stored_slot hreach hb
    rw [reaches_slot hreach hc (hslot i c hc)] at hb
    exact List.count_eq_one_of_mem (items_nodup h)
      (List.mem_filterMap.mpr ⟨b, List.mem_of_getElem? hb, hv⟩)
  · rintro v ⟨i, p, b, hreach, hb, hv⟩
    obtain ⟨c, hc⟩ := stored_slot hreach hb
    obtain ⟨d, hd, hdc⟩ := Option.map_eq_some_iff.mp ((settled_slot m i _).symm.trans hc)
    have hlt : i < m.table.length := (List.getElem?_eq_some_iff.mp hd).1
    rw [if_pos hlt] at hdc
    subst hdc
    rw [reaches_slot hreach hc (settle_next (hslot i d hd)), hc, Option.some.injEq] at hb
    rw [← hb, settle_data] at hv
    cases hv

/-- The bucket behind the first one of the first longer chain is never deleted. -/
theorem not_visitsOnce_of_linked {b : Node V} (h : Content id m)
    (hb : m.load (.slot i) = some b) (hlink : b.next ≠ none)
    (hfirst : ∀ j c, j < i → m.load (.slot j) = some c → c.next = none) : ¬ VisitsOnce id m := by
  rintro ⟨fuel, m', log, hrun, honce, -⟩
  obtain ⟨a, ha⟩ := Option.ne_none_iff_exists'.mp hlink
  obtain ⟨next, hnext⟩ := Option.isSome_iff_exists.mp (h.live _ _ _ hb ha)
  obtain ⟨v, hv⟩ := Option.isSome_iff_exists.mp (h.stored _ _ hnext)
  have hlt : i < m.table.length := (List.getElem?_eq_some_iff.mp hb).1
  obtain ⟨d, hd⟩ : ∃ d, m.table.length = i + (d + 1) := ⟨m.table.length - i - 1, by omega⟩
  replace hrun : rounds id fuel (m, []) (List.range m.table.length) = .ok (m', log) := hrun
  rw [hd, List.range_add, rounds_append, List.range_succ_eq_map, List.map_cons] at hrun
  obtain ⟨s, hs, hrun⟩ := bind_ok.mp hrun
  obtain ⟨s', hs', hrun⟩ := bind_ok.mp hrun
  rw [rounds_single_ok h (by omega) hfirst hs] at hs'
  have hbefore : ∀ w ∈ (m.table.take i).filterMap (fun b => b.data), id w ≠ id v := by
    intro w hw heq
    obtain ⟨c, hc, hcw⟩ := List.mem_filterMap.mp hw
    obtain ⟨j, hj⟩ := List.mem_iff_getElem?.mp (List.mem_of_mem_take hc)
    cases h.distinct (.slot j) _ _ _ _ _ hj hnext hcw hv heq
  obtain ⟨hstuck, hlog⟩ := visit_linked h hb ha hnext hv hbefore hs'
  have hlog' := rounds_stuck hstuck (by simp) hlog hrun
  have hstored : Stored m v := ⟨i, .node a, next, .single ⟨b, a, hb, ha, rfl⟩, hnext, hv⟩
  have hmem : v ∈ log := List.count_pos_iff.mp (by rw [honce v hstored]; exact Nat.one_pos)
  exact hlog' v hmem rfl

theorem not_visitsOnce_of_mem {b : Node V} (h : Content id m) (hb : b ∈ m.table)
    (hlink : b.next ≠ none) : ¬ VisitsOnce id m := by
  have hex : ∃ i b, m.load (.slot i) = some b ∧ b.next ≠ none := by
    obtain ⟨i, hi⟩ := List.mem_iff_getElem?.mp hb
    exact ⟨i, b, hi, hlink⟩
  classical
  obtain ⟨c, hc, hne⟩ := Nat.find_spec hex
  refine not_visitsOnce_of_linked h hc hne ?_
  intro j d hj hd
  by_contra hdn
  exact Nat.find_min hex hj ⟨d, hd, hdn⟩

/-- Shutdown deletes every session once, exactly if no chain has a second bucket. -/
theorem serverDelAllSessions_visitsOnce_iff (sessionId : V → Nat) (m : Buckets V)
    (h : Content sessionId m) : VisitsOnce sessionId m ↔ ∀ b ∈ m.table, b.next = none := by
  constructor
  · intro hvisits b hb
    by_contra hlink
    exact not_visitsOnce_of_mem h hb hlink hvisits
  · exact visitsOnce_of_single h

def twoApart : ServerGht Nat ℚ :=
  [1, 12].foldl (fun ht key => ghtApply exactLoad ht (.insert key (some key)))
    (emptyGht exactLoad 10 false)

theorem twoApart_reachable : Reachable (Initial exactLoad) (Operate exactLoad) twoApart :=
  ((Reachable.start ⟨10, false, rfl⟩).next (a := .insert 1 (some 1)) ⟨by decide, rfl⟩).next
    (a := .insert 12 (some 12)) ⟨by decide, rfl⟩

theorem serverDelAllSessions_visitsOnce_apart :
    VisitsOnce (fun sessionId => sessionId) (layout twoApart) :=
  (serverDelAllSessions_visitsOnce_iff _ _ (reachable_content twoApart_reachable
    (by decide +kernel))).mpr (by decide +kernel)

/-- The sessions 1, 11 and 21 are in one chain. -/
theorem serverDelAllSessions_skips_second :
    Content (fun sessionId => sessionId) (layout threeInChain) ∧
      ¬ VisitsOnce (fun sessionId => sessionId) (layout threeInChain) := by
  have h : Content (fun sessionId => sessionId) (layout threeInChain) :=
    reachable_content threeInChain_reachable (by decide +kernel)
  have hex : ∃ b ∈ (layout threeInChain).table, b.next ≠ none := by decide +kernel
  obtain ⟨b, hb, hlink⟩ := hex
  exact ⟨h, not_visitsOnce_of_mem h hb hlink⟩

end ChityChat.ShutdownLoop
