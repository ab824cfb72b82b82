import ChityChat.Mutex
import ChityChat.ServerHtAnyKey

namespace ChityChat.ServerHtLock

open Mutex ServerHt Transition

variable {V L T : Type} [DecidableEq T]

inductive GhtCall (V : Type)
  | insert (key : Nat) (data : Option V)
  | get (key : Nat)
  | del (key : Nat)

inductive GhtRet (V : Type)
  | bool (b : Bool)
  | data (d : Option V)

/-- Where a thread is between `server_ght_lock` and `server_ght_unlock`. `idx` is the bucket of the
array that it looks at, `j` how far it has followed `next`. -/
inductive GhtPc (V : Type)
  | insert (key : Nat) (data : V)
  | insertWalk (idx : Nat) (key : Nat) (data : V) (j : Nat)
  | inc
  | checkLoad
  | move (old : List (GhtBucket V))
  | get (key : Nat)
  | getWalk (idx : Nat) (key : Nat) (j : Nat)
  | del (key : Nat)
  | delWalk (idx : Nat) (key : Nat) (j : Nat)

abbrev Next (V L : Type) := ServerGht V L × (GhtPc V ⊕ GhtRet V)

def chainAt (ht : ServerGht V L) (idx : Nat) : Chain V := ht.table.getD idx Chain.empty

def insertAt (ht : ServerGht V L) (key : Nat) (data : V) : Next V L :=
  let idx := ghtHash ht key
  let c := chainAt ht idx
  if c.head.key = key then (ht, .inr (.bool false))
  else if c.head.data.isSome then (ht, .inl (.insertWalk idx key data 0))
  else
    ({ ht with table := ht.table.set idx ⟨{ c.head with key := key, data := some data }, c.next⟩ },
      .inl .inc)

def insertWalkAt (ht : ServerGht V L) (idx key : Nat) (data : V) (j : Nat) : Next V L :=
  let c := chainAt ht idx
  match c.next[j]? with
  | some b =>
      if b.key = key then (ht, .inr (.bool false)) else (ht, .inl (.insertWalk idx key data (j + 1)))
  | none =>
      ({ ht with table := ht.table.set idx ⟨c.head, c.next ++ [⟨key, some data, inHeap⟩]⟩ }, .inl .inc)

def checkLoadAt (A : LoadFactor L) (ht : ServerGht V L) : Next V L :=
  let resize (newSize : Nat) : Next V L :=
    let newSize := if newSize < ht.minSize then ht.minSize else newSize
    if newSize = ht.size ∨ ht.ignoreResize then (ht, .inr (.bool true))
    else
      ({ ht with size := newSize, table := List.replicate newSize Chain.empty, count := 0 },
        .inl (.move (ht.table.flatMap Chain.buckets)))
  if A.aboveMax ht.load then resize (ht.size * 2)
  else if A.belowMin ht.load then resize (ht.size / 2)
  else (ht, .inr (.bool true))

def getAt (ht : ServerGht V L) (key : Nat) : Next V L :=
  let idx := ghtHash ht key
  let c := chainAt ht idx
  if c.head.data.isNone then (ht, .inr (.data none))
  else if c.head.key = key then (ht, .inr (.data c.head.data))
  else (ht, .inl (.getWalk idx key 0))

def getWalkAt (ht : ServerGht V L) (idx key j : Nat) : Next V L :=
  match (chainAt ht idx).buckets[j]? with
  | some b => if b.key = key then (ht, .inr (.data b.data)) else (ht, .inl (.getWalk idx key (j + 1)))
  | none => (ht, .inr (.data none))

def unlinkBucket (A : LoadFactor L) (ht : ServerGht V L) (slot : Option Nat) (c : Chain V) :
    ServerGht V L :=
  let table := match slot, c.delete with
    | some i, some c' => ht.table.set i c'
    | _, _ => ht.table
  ghtDec A { ht with
    table := table
    released := if ht.free then ht.released ++ c.head.data.toList else ht.released
    freed := ht.freed ++ c.deleteFreed }

def delAt (A : LoadFactor L) (ht : ServerGht V L) (key : Nat) : Next V L :=
  let idx := ghtHash ht key
  let c := chainAt ht idx
  if c.head.key = key then (unlinkBucket A ht (some idx) c, .inl .checkLoad)
  else (ht, .inl (.delWalk idx key 0))

def delWalkAt (A : LoadFactor L) (ht : ServerGht V L) (idx key j : Nat) : Next V L :=
  let c := chainAt ht idx
  match c.next[j]? with
  | some b =>
      if b.key = key then
        -- prev->next = NULL comes first: the chain ends before the hit
        let ht := { ht with table := ht.table.set idx ⟨c.head, c.next.take j⟩ }
        (unlinkBucket A ht none ⟨b, c.next.drop (j + 1)⟩, .inl .checkLoad)
      else (ht, .inl (.delWalk idx key (j + 1)))
  | none => (ht, .inr (.bool false))

/-- `server_ght_insert`, `server_ght_get` and `server_ght_del`, access by access. An insert of NULL
returns before it takes the lock. -/
def ghtCode (A : LoadFactor L) : Code (ServerGht V L) (GhtCall V) (GhtPc V) (GhtRet V) where
  enter
    | .insert _ none => .inr (.bool false)
    | .insert key (some data) => .inl (.insert key data)
    | .get key => .inl (.get key)
    | .del key => .inl (.del key)
  access
    | .insert key data, ht => insertAt ht key data
    | .insertWalk idx key data j, ht => insertWalkAt ht idx key data j
    | .inc, ht => (ghtInc A ht, .inl .checkLoad)
    | .checkLoad, ht => checkLoadAt A ht
    | .move [], ht => (ht, .inr (.bool true))
    | .move (b :: bs), ht => (ghtMove A ht b, .inl (.move bs))
    | .get key, ht => getAt ht key
    | .getWalk idx key j, ht => getWalkAt ht idx key j
    | .del key, ht => delAt A ht key
    | .delWalk idx key j, ht => delWalkAt A ht idx key j

def ghtExec (A : LoadFactor L) : GhtCall V → ServerGht V L → ServerGht V L × GhtRet V
  | .insert key data, ht => ((serverGhtInsert A ht key data).2, .bool (serverGhtInsert A ht key data).1)
  | .get key, ht => (ht, .data (serverGhtGet ht key))
  | .del key, ht => ((serverGhtDel A ht key).2, .bool (serverGhtDel A ht key).1)

theorem move_runs (A : LoadFactor L) (old : List (GhtBucket V)) (ht : ServerGht V L) :
    Runs (ghtCode A) (.move old) ht (old.foldl (ghtMove A) ht) (.bool true) := by
  induction old generalizing ht with
  | nil => exact .done rfl
  | cons b bs ih => exact .step rfl (ih _)

theorem ghtRehash_eq (A : LoadFactor L) (ht : ServerGht V L) (table : List (Chain V)) :
    ghtRehash A ht table = (table.flatMap Chain.buckets).foldl (ghtMove A) ht := by
  induction table generalizing ht with
  | nil => rfl
  | cons c table ih =>
      rw [List.flatMap_cons, List.foldl_append]
      exact ih _

theorem checkLoad_runs (A : LoadFactor L) (ht : ServerGht V L) :
    Runs (ghtCode A) .checkLoad ht (ghtCheckLoad A ht) (.bool true) := by
  have hresize : ∀ n, checkLoadAt A ht =
      (let newSize := if n < ht.minSize then ht.minSize else n
       if newSize = ht.size ∨ ht.ignoreResize then (ht, .inr (.bool true))
       else ({ ht with size := newSize, table := List.replicate newSize Chain.empty, count := 0 },
        .inl (.move (ht.table.flatMap Chain.buckets)))) →
      Runs (ghtCode A) .checkLoad ht (ghtResize A ht n) (.bool true) := by
    intro n h
    rw [ghtResize]
    by_cases hkeep : (if n < ht.minSize then ht.minSize else n) = ht.size ∨ ht.ignoreResize
    · simp only [if_pos hkeep] at h ⊢
      exact .done h
    · simp only [if_neg hkeep] at h ⊢
      rw [ghtRehash_eq]
      exact .step h (move_runs A _ _)
  rw [ghtCheckLoad]
  by_cases hmax : A.aboveMax ht.load
  · rw [if_pos hmax]
    exact hresize _ (by simp only [checkLoadAt, if_pos hmax])
  · rw [if_neg hmax]
    by_cases hmin : A.belowMin ht.load
    · rw [if_pos hmin]
      exact hresize _ (by simp only [checkLoadAt, if_neg hmax, if_pos hmin])
    · rw [if_neg hmin]
      exact .done (by simp only [ghtCode, checkLoadAt, if_neg hmax, if_neg hmin])

theorem inc_runs (A : LoadFactor L) (ht : ServerGht V L) :
    Runs (ghtCode A) .inc ht (ghtCheckLoad A (ghtInc A ht)) (.bool true) :=
  .step rfl (checkLoad_runs A _)

theorem insertWalk_runs (A : LoadFactor L) (ht : ServerGht V L) (idx key : Nat) (data : V)
    (before rest : List (GhtBucket V)) (hc : (chainAt ht idx).next = before ++ rest) :
    match ghtLink key data rest with
    | none => Runs (ghtCode A) (.insertWalk idx key data before.length) ht ht (.bool false)
    | some bs => Runs (ghtCode A) (.insertWalk idx key data before.length) ht
        (ghtCheckLoad A (ghtInc A
          { ht with table := ht.table.set idx ⟨(chainAt ht idx).head, before ++ bs⟩ })) (.bool true) := by
  induction rest generalizing before with
  | nil =>
      have hnone : (chainAt ht idx).next[before.length]? = none := by simp [hc]
      refine .step ?_ (inc_runs A _)
      simp only [ghtCode, insertWalkAt, hnone]
      rw [hc, List.append_nil]
  | cons b bs ih =>
      have hsome : (chainAt ht idx).next[before.length]? = some b := by simp [hc]
      by_cases hkey : b.key = key
      · simp only [ghtLink, if_pos hkey]
        exact .done (by simp only [ghtCode, insertWalkAt, hsome, if_pos hkey])
      · have hacc : (ghtCode A).access (.insertWalk idx key data before.length) ht =
            (ht, .inl (.insertWalk idx key data (before ++ [b]).length)) := by
          simp only [ghtCode, insertWalkAt, hsome, if_neg hkey, List.length_append, List.length_singleton]
        have hrec := ih (before ++ [b]) (by simp [hc])
        simp only [ghtLink, if_neg hkey]
        cases hl : ghtLink key data bs with
        | none =>
            simp only [hl] at hrec
            exact .step hacc hrec
        | some bs' =>
            simp only [hl, List.append_assoc, List.singleton_append] at hrec
            exact .step hacc hrec

theorem insert_runs (A : LoadFactor L) (ht : ServerGht V L) (key : Nat) (data : V) :
    Runs (ghtCode A) (.insert key data) ht (serverGhtInsert A ht key (some data)).2
      (.bool (serverGhtInsert A ht key (some data)).1) := by
  have hchain : chainAt ht (ghtHash ht key) = ghtChain ht key := rfl
  by_cases hkey : (ghtChain ht key).head.key = key
  · have hins : (ghtChain ht key).insert key data = none := if_pos hkey
    simp only [serverGhtInsert, ghtInsert, hins]
    exact .done (by simp only [ghtCode, insertAt, hchain, if_pos hkey])
  by_cases hdata : (ghtChain ht key).head.data.isSome
  · have hins : (ghtChain ht key).insert key data =
        (ghtLink key data (ghtChain ht key).next).map (fun next => ⟨(ghtChain ht key).head, next⟩) :=
      (if_neg hkey).trans (if_pos hdata)
    have hacc : (ghtCode A).access (.insert key data) ht =
        (ht, .inl (.insertWalk (ghtHash ht key) key data 0)) := by
      simp only [ghtCode, insertAt, hchain, if_neg hkey, if_pos hdata]
    have hwalk := insertWalk_runs A ht (ghtHash ht key) key data [] _ rfl
    simp only [serverGhtInsert, ghtInsert, hins]
    rw [hchain] at hwalk
    cases hl : ghtLink key data (ghtChain ht key).next with
    | none =>
        rw [hl] at hwalk
        exact .step hacc hwalk
    | some bs =>
        rw [hl] at hwalk
        exact .step hacc hwalk
  · have hins : (ghtChain ht key).insert key data =
        some ⟨{ (ghtChain ht key).head with key := key, data := some data }, (ghtChain ht key).next⟩ :=
      (if_neg hkey).trans (if_neg hdata)
    simp only [serverGhtInsert, ghtInsert, hins]
    refine .step ?_ (inc_runs A _)
    simp only [ghtCode, insertAt, hchain, if_neg hkey, if_neg hdata]

theorem getWalk_runs (A : LoadFactor L) (ht : ServerGht V L) (idx key : Nat)
    (before rest : List (GhtBucket V)) (hc : (chainAt ht idx).buckets = before ++ rest) :
    Runs (ghtCode A) (.getWalk idx key before.length) ht ht
      (.data ((rest.find? (fun b => b.key = key)).bind GhtBucket.data)) := by
  induction rest generalizing before with
  | nil =>
      have hnone : (chainAt ht idx).buckets[before.length]? = none := by simp [hc]
      exact .done (by simp only [ghtCode, getWalkAt, hnone]; rfl)
  | cons b bs ih =>
      have hsome : (chainAt ht idx).buckets[before.length]? = some b := by simp [hc]
      by_cases hkey : b.key = key
      · refine .done ?_
        simp only [ghtCode, getWalkAt, hsome, List.find?_cons, hkey, decide_true]
        rfl
      · have hacc : (ghtCode A).access (.getWalk idx key before.length) ht =
            (ht, .inl (.getWalk idx key (before ++ [b]).length)) := by
          simp only [ghtCode, getWalkAt, hsome, if_neg hkey, List.length_append, List.length_singleton]
        have hrec := ih (before ++ [b]) (by simp [hc])
        simp only [List.find?_cons, hkey, decide_false]
        exact .step hacc hrec

theorem get_runs (A : LoadFactor L) (ht : ServerGht V L) (key : Nat) :
    Runs (ghtCode A) (.get key) ht ht (.data (serverGhtGet ht key)) := by
  have hchain : chainAt ht (ghtHash ht key) = ghtChain ht key := rfl
  rw [serverGhtGet, Chain.get]
  by_cases hnone : (ghtChain ht key).head.data.isNone
  · rw [if_pos hnone]
    exact .done (by simp only [ghtCode, getAt, hchain, if_pos hnone])
  rw [if_neg hnone]
  by_cases hkey : (ghtChain ht key).head.key = key
  · rw [if_pos hkey]
    exact .done (by simp only [ghtCode, getAt, hchain, if_neg hnone, if_pos hkey])
  · rw [if_neg hkey]
    have hacc : (ghtCode A).access (.get key) ht = (ht, .inl (.getWalk (ghtHash ht key) key 0)) := by
      simp only [ghtCode, getAt, hchain, if_neg hnone, if_neg hkey]
    exact .step hacc (getWalk_runs A ht (ghtHash ht key) key [] _ rfl)

theorem ghtDelBucket_eq (A : LoadFactor L) (ht : ServerGht V L) (slot : Option Nat) (c : Chain V) :
    ghtDelBucket A ht slot c = ghtCheckLoad A (unlinkBucket A ht slot c) := rfl

theorem delWalk_runs (A : LoadFactor L) (ht : ServerGht V L) (idx key : Nat)
    (before rest : List (GhtBucket V)) (hc : (chainAt ht idx).next = before ++ rest) :
    match ghtFind key rest with
    | none => Runs (ghtCode A) (.delWalk idx key before.length) ht ht (.bool false)
    | some (bs, hit) => Runs (ghtCode A) (.delWalk idx key before.length) ht
        (ghtDelBucket A { ht with table := ht.table.set idx ⟨(chainAt ht idx).head, before ++ bs⟩ }
          none hit) (.bool true) := by
  induction rest generalizing before with
  | nil =>
      have hnone : (chainAt ht idx).next[before.length]? = none := by simp [hc]
      exact .done (by simp only [ghtCode, delWalkAt, hnone])
  | cons b bs ih =>
      have hsome : (chainAt ht idx).next[before.length]? = some b := by simp [hc]
      by_cases hkey : b.key = key
      · simp only [ghtFind, if_pos hkey, ghtDelBucket_eq]
        refine .step ?_ (checkLoad_runs A _)
        have htake : (chainAt ht idx).next.take before.length = before := by simp [hc]
        have hdrop : (chainAt ht idx).next.drop (before.length + 1) = bs := by simp [hc]
        simp only [ghtCode, delWalkAt, hsome, if_pos hkey, htake, hdrop, List.append_nil]
      · have hacc : (ghtCode A).access (.delWalk idx key before.length) ht =
            (ht, .inl (.delWalk idx key (before ++ [b]).length)) := by
          simp only [ghtCode, delWalkAt, hsome, if_neg hkey, List.length_append, List.length_singleton]
        have hrec := ih (before ++ [b]) (by simp [hc])
        simp only [ghtFind, if_neg hkey]
        cases hl : ghtFind key bs with
        | none =>
            simp only [hl] at hrec
            exact .step hacc hrec
        | some p =>
            simp only [hl, List.append_assoc, List.singleton_append] at hrec
            exact .step hacc hrec

theorem del_runs (A : LoadFactor L) (ht : ServerGht V L) (key : Nat) :
    Runs (ghtCode A) (.del key) ht (serverGhtDel A ht key).2 (.bool (serverGhtDel A ht key).1) := by
  have hchain : chainAt ht (ghtHash ht key) = ghtChain ht key := rfl
  by_cases hkey : (ghtChain ht key).head.key = key
  · simp only [serverGhtDel, if_pos hkey, ghtDelBucket_eq]
    exact .step (by simp only [ghtCode, delAt, hchain, if_pos hkey]) (checkLoad_runs A _)
  · have hacc : (ghtCode A).access (.del key) ht = (ht, .inl (.delWalk (ghtHash ht key) key 0)) := by
      simp only [ghtCode, delAt, hchain, if_neg hkey]
    have hwalk := delWalk_runs A ht (ghtHash ht key) key [] _ rfl
    simp only [serverGhtDel, if_neg hkey]
    rw [hchain] at hwalk
    cases hl : ghtFind key (ghtChain ht key).next with
    | none =>
        rw [hl] at hwalk
        exact .step hacc hwalk
    | some p =>
        rw [hl] at hwalk
        exact .step hacc hwalk

theorem ghtCode_computes (A : LoadFactor L) :
    Computes (ghtCode A : Code (ServerGht V L) (GhtCall V) (GhtPc V) (GhtRet V)) (ghtExec A) where
  quick c r h s := by
    cases c with
    | insert key data =>
        cases data with
        | none =>
            cases h
            rfl
        | some data => cases h
    | get => cases h
    | del => cases h
  body c p h s := by
    cases c with
    | insert key data =>
        cases data with
        | none => cases h
        | some data =>
            cases h
            exact insert_runs A s key data
    | get key =>
        cases h
        exact get_runs A s key
    | del key =>
        cases h
        exact del_runs A s key

/-- Whatever the threads do and in whatever order, the calls return what they return one at a time
in the order of their unlocks, and between two of them the table is the one they leave then; and
the thread that has the mutex reaches the unlock alone. -/
theorem serverGht_linearizable (A : LoadFactor L) (ht : ServerGht V L)
    (acts : List (Act (GhtCall V) T)) :
    let s := run (ghtCode A) (start ht) acts
    Sequential (ghtExec A) ht s.log ∧ KeepsOrder s.log ∧
      (s.owner = none → s.obj = replay (ghtExec A) ht s.log) ∧
      ∀ t, s.owner = some t → ∃ k, (run (ghtCode A) s (List.replicate k (.go t))).owner = none := by
  intro s
  have hinv : Inv (ghtCode A) (ghtExec A) ht s := run_inv (ghtCode_computes A) (start_inv _ _ ht) acts
  exact ⟨hinv.sequential, hinv.keepsOrder, hinv.free, fun t ht => owner_unlocks hinv ht⟩

def GhtCall.key : GhtCall V → Nat
  | .insert key _ | .get key | .del key => key

omit [DecidableEq T] in
theorem replay_reachable (A : LoadFactor L) {ht : ServerGht V L}
    (h : Reachable (Initial A) (OperateAny A) ht) (log : List (Entry (GhtCall V) (GhtRet V) T))
    (hkeys : ∀ e ∈ log, e.call.key < 2 ^ 64) :
    Reachable (Initial A) (OperateAny A) (replay (ghtExec A) ht log) := by
  induction log generalizing ht with
  | nil => exact h
  | cons e log ih =>
      obtain ⟨hkey, hkeys⟩ := List.forall_mem_cons.mp hkeys
      refine ih ?_ hkeys
      obtain ⟨t, c, r, n⟩ := e
      cases c with
      | insert key data => exact h.next (a := .insert key data) ⟨hkey, rfl⟩
      | get key => exact h
      | del key => exact h.next (a := .del key) ⟨hkey, rfl⟩

/-- Between two calls the table is one that a single thread reaches. -/
theorem unlocked_reachable (A : LoadFactor L) {ht : ServerGht V L}
    (h : Reachable (Initial A) (OperateAny A) ht) {acts : List (Act (GhtCall V) T)}
    (hkeys : ∀ a ∈ acts, a.Makes (fun c => c.key < 2 ^ 64))
    (hfree : (run (ghtCode A) (start ht) acts).owner = none) :
    Reachable (Initial A) (OperateAny A) (run (ghtCode A) (start ht) acts).obj := by
  have hinv : Inv (ghtCode A) (ghtExec A) ht (run (ghtCode A) (start ht) acts) :=
    run_inv (ghtCode_computes A) (start_inv _ _ ht) acts
  rw [hinv.free hfree]
  exact replay_reachable A h _ (run_made ht hkeys).log

end ChityChat.ServerHtLock
