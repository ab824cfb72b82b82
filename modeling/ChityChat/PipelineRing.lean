import ChityChat.DbPipeline

namespace ChityChat.PipelineRing

open RingBuffer

variable {C E D : Type}

/-- `dbcmd_ctx_t`: the two pointers that the ring looks at, and what else is in it. -/
structure DbcmdCtx (C E D : Type) where
  client : Option C
  exec : Option E
  fields : Option D

def zeroed : DbcmdCtx C E D := ⟨none, none, none⟩

/-- `plq_t` with the memory that its pointers point into. -/
structure Plq (C E D : Type) where
  memory : Nat → DbcmdCtx C E D
  begin : Nat
  endPtr : Nat
  read : Nat
  write : Nat
  size : Nat
  count : Nat

def dbInitQueue (base size : Nat) : Plq C E D :=
  ⟨fun _ => zeroed, base, base + size - 1, base, base, size, 0⟩

/-- A pointer that is not from `begin` to `end` is not followed. -/
def load (q : Plq C E D) (p : Nat) : Option (DbcmdCtx C E D) :=
  if q.begin ≤ p ∧ p ≤ q.endPtr then some (q.memory p) else none

def store (q : Plq C E D) (p : Nat) (cmd : DbcmdCtx C E D) : Option (Plq C E D) :=
  if q.begin ≤ p ∧ p ≤ q.endPtr then some { q with memory := Function.update q.memory p cmd }
  else none

def dbPipelineEnqueue (q : Plq C E D) (cmd : DbcmdCtx C E D) : Option (Int × Plq C E D) := do
  let slot ← load q q.write
  if slot.client.isSome then return (-1, q)
  let q ← store q q.write cmd
  -- the comparison sees the pointer before the increment
  let write := if q.endPtr ≤ q.write then q.begin else q.write + 1
  return (0, { q with write, count := q.count + 1 })

def dbPipelinePeek (q : Plq C E D) : Option (Option (DbcmdCtx C E D)) := do
  let slot ← load q q.read
  return if slot.exec.isNone then none else some slot

/-- With the copy that the caller gets. -/
def dbPipelineDequeue (q : Plq C E D) : Option (Int × Option (DbcmdCtx C E D) × Plq C E D) := do
  let slot ← load q q.read
  if slot.exec.isNone then return (0, none, q)
  let q ← store q q.read zeroed
  let read := if q.endPtr ≤ q.read then q.begin else q.read + 1
  return (1, some slot, { q with read, count := q.count - 1 })

inductive Call (C E D : Type)
  | enqueue (cmd : DbcmdCtx C E D)
  | peek
  | dequeue

inductive Answer (C E D : Type)
  | enqueue (ret : Int)
  | peek (cmd : Option (DbcmdCtx C E D))
  | dequeue (ret : Int) (cmd : Option (DbcmdCtx C E D))

def Call.run (q : Plq C E D) : Call C E D → Option (Answer C E D × Plq C E D)
  | enqueue cmd => (dbPipelineEnqueue q cmd).map (fun r => (.enqueue r.1, r.2))
  | peek => (dbPipelinePeek q).map (fun cmd => (.peek cmd, q))
  | dequeue => (dbPipelineDequeue q).map (fun r => (.dequeue r.1 r.2.1, r.2.2))

def run (q : Plq C E D) : List (Call C E D) → Option (List (Answer C E D) × Plq C E D)
  | [] => some ([], q)
  | call :: calls => do
    let (answer, q) ← call.run q
    let (answers, q) ← run q calls
    return (answer :: answers, q)

def Call.fifo (xs : List (DbcmdCtx C E D)) :
    Call C E D → Answer C E D × List (DbcmdCtx C E D)
  | enqueue cmd => (.enqueue 0, xs ++ [cmd])
  | peek => (.peek xs.head?, xs)
  | dequeue => (.dequeue (if xs = [] then 0 else 1) xs.head?, xs.tail)

def fifo (xs : List (DbcmdCtx C E D)) :
    List (Call C E D) → List (Answer C E D) × List (DbcmdCtx C E D)
  | [] => ([], xs)
  | call :: calls =>
    let (answer, xs) := call.fifo xs
    let (answers, xs) := fifo xs calls
    (answer :: answers, xs)

/-- What is enqueued has an `exec`, and fewer than `n` commands are queued then. -/
def Allowed (n : Nat) (xs : List (DbcmdCtx C E D)) : List (Call C E D) → Prop
  | [] => True
  | call :: calls =>
    (∀ cmd, call = .enqueue cmd → cmd.exec ≠ none ∧ xs.length < n) ∧
      Allowed n (call.fifo xs).2 calls

/-- The memory from `begin` to `end` is the ring `r` of values that are laid out as `layout` says,
with zeroed memory in the free slots. -/
structure Stores {α : Type} (layout : α → DbcmdCtx C E D) (q : Plq C E D) (r : RingQueue α) :
    Prop where
  size_pos : 0 < r.size
  endPtr : q.endPtr + 1 = q.begin + r.size
  read : q.read = q.begin + r.read
  write : q.write = q.begin + r.write
  count : q.count = r.count
  slot : ∀ i, i < r.size → q.memory (q.begin + i) = ((r.slots i).map layout).getD zeroed

section

variable {α : Type} {layout : α → DbcmdCtx C E D} {q : Plq C E D} {r : RingQueue α} {a : α}
  {xs : List α}

theorem stores_init (layout : α → DbcmdCtx C E D) (base : Nat) {size : Nat} (h : 0 < size) :
    Stores layout (dbInitQueue base size) (RingQueue.empty size) where
  size_pos := h
  endPtr := Nat.sub_add_cancel (Nat.le_add_left_of_le h)
  read := rfl
  write := rfl
  count := rfl
  slot _ _ := rfl

theorem Stores.load (h : Stores layout q r) {i : Nat} (hi : i < r.size) :
    load q (q.begin + i) = some (((r.slots i).map layout).getD zeroed) := by
  have hend := h.endPtr
  rw [PipelineRing.load, if_pos ⟨Nat.le_add_right _ _, by omega⟩, h.slot i hi]

theorem Stores.store (h : Stores layout q r) {i : Nat} (hi : i < r.size) (cmd : DbcmdCtx C E D) :
    store q (q.begin + i) cmd =
      some { q with memory := Function.update q.memory (q.begin + i) cmd } := by
  have hend := h.endPtr
  rw [PipelineRing.store, if_pos ⟨Nat.le_add_right _ _, by omega⟩]

theorem Stores.wrap (h : Stores layout q r) {i : Nat} (hi : i < r.size) :
    (if q.endPtr ≤ q.begin + i then q.begin else q.begin + i + 1) =
      q.begin + advance r.size i := by
  have hend := h.endPtr
  rw [advance]
  split <;> split <;> omega

theorem Stores.update (h : Stores layout q r) (i : Nat) (value : Option α) {j : Nat}
    (hj : j < r.size) :
    Function.update q.memory (q.begin + i) ((value.map layout).getD zeroed) (q.begin + j) =
      ((Function.update r.slots i value j).map layout).getD zeroed := by
  by_cases hji : j = i
  · rw [hji, Function.update_self, Function.update_self]
  · rw [Function.update_of_ne (by omega), Function.update_of_ne hji, h.slot j hj]

theorem Stores.enqueue_free (h : Stores layout q r) (hwrite : r.write < r.size)
    (hfree : (r.slots r.write).bind (fun b => (layout b).client) = none) (a : α) :
    ∃ q', dbPipelineEnqueue q (layout a) = some (0, q') ∧ Stores layout q' (r.push a) := by
  have hclient : (((r.slots r.write).map layout).getD zeroed).client.isSome = false := by
    cases hslot : r.slots r.write with
    | none => rfl
    | some b =>
        rw [hslot, Option.bind_some] at hfree
        rw [Option.map_some, Option.getD_some, hfree, Option.isSome_none]
  refine ⟨{ q with
    memory := Function.update q.memory (q.begin + r.write) (layout a)
    write := q.begin + advance r.size r.write
    count := q.count + 1 }, ?_, ?_⟩
  · rw [dbPipelineEnqueue, h.write, h.load hwrite]
    simp only [Option.bind_eq_bind, Option.bind_some, hclient, h.store hwrite, h.write,
      h.wrap hwrite, Option.pure_def, Bool.false_eq_true, if_false]
  · exact ⟨h.size_pos, h.endPtr, h.read, rfl, congrArg (· + 1) h.count,
      fun i hi => h.update r.write (some a) hi⟩

theorem Stores.enqueue_full (h : Stores layout q r) (hwrite : r.write < r.size)
    (hfull : (r.slots r.write).bind (fun b => (layout b).client) ≠ none) (a : α) :
    dbPipelineEnqueue q (layout a) = some (-1, q) := by
  cases hslot : r.slots r.write with
  | none => exact absurd (by rw [hslot, Option.bind_none]) hfull
  | some b =>
      rw [hslot, Option.bind_some, ← Option.isSome_iff_ne_none] at hfull
      rw [dbPipelineEnqueue, h.write, h.load hwrite, hslot]
      simp only [Option.bind_eq_bind, Option.bind_some, Option.map_some, Option.getD_some, hfull,
        if_true, Option.pure_def]

theorem Stores.peek (h : Stores layout q r) (hread : r.read < r.size) :
    dbPipelinePeek q =
      some (((r.slots r.read).map layout).filter (fun cmd => cmd.exec.isSome)) := by
  rw [dbPipelinePeek, h.read, h.load hread]
  cases r.slots r.read with
  | none => rfl
  | some b =>
      simp only [Option.map_some, Option.getD_some, Option.bind_eq_bind, Option.bind_some,
        Option.pure_def, Option.filter_some]
      cases (layout b).exec <;> rfl

theorem Stores.dequeue_empty (h : Stores layout q r) (hread : r.read < r.size)
    (hempty : ((r.slots r.read).bind (fun b => (layout b).exec)) = none) :
    dbPipelineDequeue q = some (0, none, q) := by
  have hexec : (((r.slots r.read).map layout).getD zeroed).exec.isNone = true := by
    cases hslot : r.slots r.read with
    | none => rfl
    | some b =>
        rw [hslot, Option.bind_some] at hempty
        rw [Option.map_some, Option.getD_some, hempty, Option.isNone_none]
  rw [dbPipelineDequeue, h.read, h.load hread]
  simp only [Option.bind_eq_bind, Option.bind_some, hexec, if_true, Option.pure_def]

theorem Stores.dequeue (h : Stores layout q r) (hread : r.read < r.size)
    (hslot : r.slots r.read = some a) (hexec : (layout a).exec ≠ none) :
    ∃ q', dbPipelineDequeue q = some (1, some (layout a), q') ∧ Stores layout q' r.pop := by
  have hsome : (layout a).exec.isNone = false := by
    rwa [Option.isNone_eq_false_iff, Option.isSome_iff_ne_none]
  refine ⟨{ q with
    memory := Function.update q.memory (q.begin + r.read) zeroed
    read := q.begin + advance r.size r.read
    count := q.count - 1 }, ?_, ?_⟩
  · rw [dbPipelineDequeue, h.read, h.load hread, hslot]
    simp only [Option.bind_eq_bind, Option.bind_some, Option.map_some, Option.getD_some, hsome,
      h.store hread, h.read, h.wrap hread, Option.pure_def, Bool.false_eq_true, if_false]
  · exact ⟨h.size_pos, h.endPtr, rfl, h.write, congrArg (· - 1) h.count,
      fun i hi => h.update r.read none hi⟩

structure Queued (n : Nat) (xs : List (DbcmdCtx C E D)) (q : Plq C E D) : Prop where
  ring : ∃ r, r.size = n ∧ Stores id q r ∧ Represents r xs
  exec : ∀ cmd ∈ xs, cmd.exec ≠ none

end

section

variable {n : Nat} {cmd : DbcmdCtx C E D} {xs : List (DbcmdCtx C E D)} {q : Plq C E D}

theorem queued_init (base : Nat) (h : 0 < n) : Queued n [] (dbInitQueue base n : Plq C E D) :=
  ⟨⟨RingQueue.empty n, rfl, stores_init id base h, represents_empty h⟩, fun _ hcmd => nomatch hcmd⟩

theorem Queued.count (h : Queued n xs q) : q.count = xs.length := by
  obtain ⟨r, -, hstores, hrep⟩ := h.ring
  exact hstores.count.trans hrep.count

theorem Queued.enqueue (h : Queued n xs q) (hexec : cmd.exec ≠ none) (hroom : xs.length < n) :
    ∃ q', dbPipelineEnqueue q cmd = some (0, q') ∧ Queued n (xs ++ [cmd]) q' := by
  obtain ⟨r, rfl, hstores, hrep⟩ := h.ring
  have hwrite : r.write < r.size := by
    rw [hrep.write]
    exact Nat.mod_lt _ hstores.size_pos
  obtain ⟨q', hq', hstores'⟩ := hstores.enqueue_free hwrite (by rw [hrep.free hroom]; rfl) cmd
  refine ⟨q', hq', ⟨r.push cmd, rfl, hstores', hrep.push hroom cmd⟩, fun c hc => ?_⟩
  rcases List.mem_append.mp hc with hc | hc
  · exact h.exec c hc
  · rwa [List.mem_singleton.mp hc]

theorem slot_read {r : RingQueue (DbcmdCtx C E D)} (h : Represents r xs) :
    r.slots r.read = xs.head? := by
  have hstored := h.stored 0 (Nat.zero_lt_of_lt h.read)
  rwa [Nat.add_zero, Nat.mod_eq_of_lt h.read, ← List.head?_eq_getElem?] at hstored

theorem Queued.peek (h : Queued n xs q) : dbPipelinePeek q = some xs.head? := by
  obtain ⟨r, -, hstores, hrep⟩ := h.ring
  rw [hstores.peek hrep.read, slot_read hrep, Option.map_id_fun, id]
  cases xs with
  | nil => rfl
  | cons x xs =>
      have hexec := Option.isSome_iff_ne_none.mpr (h.exec x List.mem_cons_self)
      rw [List.head?_cons, Option.filter_some, if_pos hexec]

theorem Queued.dequeue (h : Queued n xs q) :
    ∃ q', dbPipelineDequeue q = some (if xs = [] then 0 else 1, xs.head?, q') ∧
      Queued n xs.tail q' := by
  obtain ⟨r, hsize, hstores, hrep⟩ := h.ring
  have hslot := slot_read hrep
  cases xs with
  | nil => exact ⟨q, hstores.dequeue_empty hrep.read (by rw [hslot]; rfl), h⟩
  | cons x xs =>
      have hexec := h.exec x List.mem_cons_self
      obtain ⟨q', hq', hstores'⟩ := hstores.dequeue hrep.read hslot hexec
      exact ⟨q', hq', ⟨r.pop, hsize, hstores', hrep.pop⟩,
        fun c hc => h.exec c (List.mem_cons_of_mem x hc)⟩

theorem Queued.call {call : Call C E D} (h : Queued n xs q)
    (hallowed : ∀ cmd, call = .enqueue cmd → cmd.exec ≠ none ∧ xs.length < n) :
    ∃ q', call.run q = some ((call.fifo xs).1, q') ∧ Queued n (call.fifo xs).2 q' := by
  cases call with
  | enqueue cmd =>
      obtain ⟨hexec, hroom⟩ := hallowed cmd rfl
      obtain ⟨q', hq', hqueued⟩ := h.enqueue hexec hroom
      exact ⟨q', by rw [Call.run, hq']; rfl, hqueued⟩
  | peek => exact ⟨q, by rw [Call.run, h.peek]; rfl, h⟩
  | dequeue =>
      obtain ⟨q', hq', hqueued⟩ := h.dequeue
      exact ⟨q', by rw [Call.run, hq']; rfl, hqueued⟩

theorem Queued.run {calls : List (Call C E D)} (h : Queued n xs q) (hallowed : Allowed n xs calls) :
    ∃ q', run q calls = some ((fifo xs calls).1, q') ∧ Queued n (fifo xs calls).2 q' := by
  induction calls generalizing xs q with
  | nil => exact ⟨q, rfl, h⟩
  | cons call calls ih =>
      obtain ⟨q', hq', hqueued⟩ := h.call hallowed.1
      obtain ⟨q'', hq'', hqueued'⟩ := ih hqueued hallowed.2
      refine ⟨q'', ?_, hqueued'⟩
      simp only [PipelineRing.run, hq', hq'', Option.bind_eq_bind, Option.bind_some]
      rfl

/-- From an empty ring on, the calls answer as a queue does, follow no pointer out of the ring, and
`count` is the length of the queue. -/
theorem run_fifo (base : Nat) {n : Nat} (hn : 1 ≤ n) (calls : List (Call C E D))
    (hallowed : Allowed n [] calls) :
    ∃ q, run (dbInitQueue base n) calls = some ((fifo [] calls).1, q) ∧
      q.count = (fifo [] calls).2.length := by
  obtain ⟨q, hq, hqueued⟩ := (queued_init base hn).run hallowed
  exact ⟨q, hq, hqueued.count⟩

end

/-- In two slots, with a command without a client, and around the end. -/
theorem run_fifo_around :
    ∃ q, run (dbInitQueue 5 2 : Plq Nat Unit Nat) [.enqueue ⟨none, some (), some 1⟩,
      .enqueue ⟨some 7, some (), some 2⟩, .dequeue, .enqueue ⟨some 7, some (), some 3⟩, .dequeue,
      .peek, .dequeue, .dequeue] =
        some ([.enqueue 0, .enqueue 0, .dequeue 1 (some ⟨none, some (), some 1⟩), .enqueue 0,
          .dequeue 1 (some ⟨some 7, some (), some 2⟩), .peek (some ⟨some 7, some (), some 3⟩),
          .dequeue 1 (some ⟨some 7, some (), some 3⟩), .dequeue 0 none], q) ∧ q.count = 0 :=
  run_fifo 5 (by decide) [.enqueue ⟨none, some (), some 1⟩, .enqueue ⟨some 7, some (), some 2⟩,
    .dequeue, .enqueue ⟨some 7, some (), some 3⟩, .dequeue, .peek, .dequeue, .dequeue]
    (by simp [Allowed, Call.fifo])

section

open DbPipeline (Chain ServerDb)

def layout (chain : Chain C) : DbcmdCtx C Unit (Chain C) :=
  ⟨chain.head.client, if chain.head.exec then some () else none, some chain⟩

variable {q : Plq C Unit (Chain C)} {db : ServerDb C}

/-- The ring in memory does what the ring of chains does, whether a slot is free or not. -/
theorem dbPipelineEnqueue_refines (h : Stores layout q db.queue)
    (hwrite : db.queue.write < db.queue.size) (chain : Chain C) :
    ∃ q', dbPipelineEnqueue q (layout chain) =
        some (if (DbPipeline.dbPipelineEnqueue db chain).1 then 0 else -1, q') ∧
      Stores layout q' (DbPipeline.dbPipelineEnqueue db chain).2.queue := by
  cases hfree : (db.queue.slots db.queue.write).bind (fun slot => slot.head.client) with
  | none =>
      obtain ⟨q', hq', hstores⟩ := h.enqueue_free hwrite hfree chain
      have henqueue : DbPipeline.dbPipelineEnqueue db chain =
          (true, { db with queue := db.queue.push chain }) := by
        rw [DbPipeline.dbPipelineEnqueue, hfree]
        rfl
      rw [henqueue]
      exact ⟨q', hq', hstores⟩
  | some client =>
      have henqueue : DbPipeline.dbPipelineEnqueue db chain = (false, db) := by
        rw [DbPipeline.dbPipelineEnqueue, hfree]
        rfl
      have hfull : (db.queue.slots db.queue.write).bind (fun slot => (layout slot).client) ≠ none :=
        hfree.trans_ne (Option.some_ne_none client)
      rw [henqueue]
      exact ⟨q, h.enqueue_full hwrite hfull chain, h⟩

theorem dbPipelinePeek_refines (h : Stores layout q db.queue)
    (hread : db.queue.read < db.queue.size) :
    dbPipelinePeek q = some ((DbPipeline.dbPipelinePeek db).map layout) := by
  rw [h.peek hread, DbPipeline.dbPipelinePeek]
  cases db.queue.slots db.queue.read with
  | none => rfl
  | some chain => cases hexec : chain.head.exec <;> simp [layout, hexec, Option.filter_some]

theorem dbPipelineDequeue_refines {chain : Chain C} (h : Stores layout q db.queue)
    (hread : db.queue.read < db.queue.size) (hpeek : DbPipeline.dbPipelinePeek db = some chain) :
    ∃ q', dbPipelineDequeue q = some (1, some (layout chain), q') ∧
      Stores layout q' db.queue.pop := by
  obtain ⟨hslot, hexec⟩ := Option.filter_eq_some_iff.mp hpeek
  exact h.dequeue hread hslot (by rw [layout, if_pos hexec]; exact Option.some_ne_none ())

end

end ChityChat.PipelineRing
