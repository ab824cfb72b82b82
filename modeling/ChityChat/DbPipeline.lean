import ChityChat.DbResult
import ChityChat.RingBuffer
import ChityChat.Transition

namespace ChityChat.DbPipeline

open DbResult RingBuffer Transition

variable {C : Type}

structure Chain (C : Type) where
  head : DbcmdCtx C
  next : List (DbcmdCtx C)

def Chain.ctxs (chain : Chain C) : List (DbcmdCtx C) := chain.head :: chain.next

def dbPipelineQueueSize : Nat := 128

/-- The parts of `server_db_t` behind the pipeline: the ring of chains and the chain of the current
event with its client. `running` is the rest of the chain that `db_exec_cmd_chain` is in. The other
fields are counts and logs: queries sent, results obtained, results not cleared, calls of `exec_res`
(the query of the context and the handle), calls of `exec`, and the contexts made with an `exec`. -/
structure ServerDb (C : Type) where
  queue : RingQueue (Chain C)
  client : Option C
  current : Option (Chain C)
  running : List (DbcmdCtx C)
  sent : Nat
  arrived : Nat
  live : List Nat
  delivered : List (Nat × Nat)
  executed : List Nat
  created : List Nat

def dbInit : ServerDb C :=
  ⟨RingQueue.empty dbPipelineQueueSize, none, none, [], 0, 0, [], [], [], []⟩

def dbPipelineEnqueue (db : ServerDb C) (cmd : Chain C) : Bool × ServerDb C :=
  if ((db.queue.slots db.queue.write).bind (fun slot => slot.head.client)).isSome then (false, db)
  else (true, { db with queue := db.queue.push cmd })

def dbPipelineEnqueueCurrent (db : ServerDb C) (cmd : DbcmdCtx C) : ServerDb C :=
  let nextCmd := { cmd with client := cmd.client.or db.client }
  match db.current with
  | none => { db with current := some ⟨nextCmd, []⟩ }
  | some chain => { db with current := some ⟨chain.head, chain.next ++ [nextCmd]⟩ }

/-- The context of a query that was sent is the caller's, under the number of the query. -/
def dbAsyncParams (db : ServerDb C) (cmd : DbcmdCtx C) : ServerDb C :=
  let db' := dbPipelineEnqueueCurrent db { cmd with query := db.sent }
  { db' with
    sent := db.sent + 1
    created := if cmd.exec then db.created ++ [db.sent] else db.created }

def dbPipelineSetCtx (db : ServerDb C) (client : Option C) : ServerDb C :=
  { db with client := client }

def dbPipelineResetCurrent (db : ServerDb C) : ServerDb C :=
  { db with client := none, current := none }

def dbPipelineCurrentDone (db : ServerDb C) : ServerDb C :=
  match db.current with
  | none => db
  | some chain => dbPipelineResetCurrent (dbPipelineEnqueue db chain).2

def dbPipelinePeek (db : ServerDb C) : Option (Chain C) :=
  (db.queue.slots db.queue.read).filter (fun chain => chain.head.exec)

/-- The context that the next result of a chain goes to: the
first one without a result, else the last. -/
def awaiting (ctx : DbcmdCtx C) : List (DbcmdCtx C) → DbcmdCtx C
  | [] => ctx
  | next :: more => if ctx.ret ≠ .busy then awaiting next more else ctx

def answer (res : PGresult) (ctx : DbcmdCtx C) : List (DbcmdCtx C) → Chain C
  | [] => ⟨ctx.execRes.run res ctx, []⟩
  | next :: more =>
    if ctx.ret ≠ .busy then ⟨ctx, (answer res next more).ctxs⟩
    else ⟨ctx.execRes.run res ctx, next :: more⟩

def complete (ctx : DbcmdCtx C) : List (DbcmdCtx C) → Bool
  | [] => true
  | next :: more => if ctx.ret ≠ .busy then complete next more else false

def pqClear (db : ServerDb C) (handle : Nat) : ServerDb C :=
  { db with live := db.live.erase handle }

def dbProcessResult (db : ServerDb C) (res : PGresult) : ServerDb C :=
  let db := { db with live := res.handle :: db.live }
  if res.status = .pipelineSync then pqClear db res.handle
  else
    let db := { db with arrived := db.arrived + 1 }
    match dbPipelinePeek db with
    | none => pqClear db res.handle
    | some chain =>
      let db := { db with
        queue := db.queue.replace (answer res chain.head chain.next)
        delivered := db.delivered ++ [((awaiting chain.head chain.next).query, res.handle)] }
      if complete chain.head chain.next then
        { db with queue := db.queue.pop, running := (answer res chain.head chain.next).ctxs }
      else pqClear db res.handle

/-- One context in `db_exec_cmd_chain`, whose callback sends `cmds`. The result of the round is
cleared when the chain is through. -/
def dbExecCmd (db : ServerDb C) (ctx : DbcmdCtx C) (rest : List (DbcmdCtx C))
    (cmds : List (DbcmdCtx C)) : ServerDb C :=
  let db := if ctx.exec then
    dbPipelineCurrentDone (cmds.foldl dbAsyncParams
      { db with executed := db.executed ++ [ctx.query] }) else db
  let db := { db with running := rest }
  if rest = [] then pqClear db (db.arrived - 1) else db

def eventCtx (db : ServerDb C) : Option C → ServerDb C
  | some client => dbPipelineSetCtx db (some client)
  | none => db

def eworkerPrepEvent (db : ServerDb C) (client : Option C) (cmds : List (DbcmdCtx C)) :
    ServerDb C :=
  dbPipelineCurrentDone (cmds.foldl dbAsyncParams (eventCtx db client))

/-- What the handlers send in one go: fresh contexts, the first of which has a callback. -/
structure Command (cmds : List (DbcmdCtx C)) : Prop where
  busy : ∀ cmd ∈ cmds, cmd.ret = .busy
  exec : ∀ cmd ∈ cmds.head?, cmd.exec = true

inductive Action (C : Type)
  | event (client : Option C) (cmds : List (DbcmdCtx C))
  | result (res : PGresult)
  | exec (cmds : List (DbcmdCtx C))

/-- A worker: events while no result is processed, and for every query one result, in the order of
the queries, some time after it was sent. -/
inductive Step : ServerDb C → Action C → ServerDb C → Prop
  | event {db : ServerDb C} (client : Option C) (cmds : List (DbcmdCtx C)) (hrun : db.running = [])
    (hcmds : Command cmds) : Step db (.event client cmds) (eworkerPrepEvent db client cmds)
  | result {db : ServerDb C} (res : PGresult) (hrun : db.running = [])
      (hsent : db.arrived < db.sent)
    (hres : res.handle = db.arrived) (hsync : res.status ≠ .pipelineSync) :
    Step db (.result res) (dbProcessResult db res)
  | exec {db : ServerDb C} {ctx : DbcmdCtx C} {rest : List (DbcmdCtx C)} (cmds : List (DbcmdCtx C))
    (hrun : db.running = ctx :: rest) (hcmds : Command cmds) :
      Step db (.exec cmds) (dbExecCmd db ctx rest cmds)

def queued (db : ServerDb C) : List (DbcmdCtx C) := db.queue.contents.flatMap Chain.ctxs

/-- Every result went to the context made for its query, and every context with a callback has run
it once, is about to, or waits in the ring. -/
structure InOrder (db : ServerDb C) : Prop where
  delivered : db.delivered = (List.range db.arrived).map (fun query => (query, query))
  executed : db.executed ++
    ((db.running ++ queued db).filter (fun ctx => ctx.exec)).map DbcmdCtx.query = db.created
  settled : db.arrived = db.sent → db.running = [] → db.executed = db.created

/-- A chain is only enqueued while the ring has a free slot. -/
def Room (db : ServerDb C) : Action C → Prop
  | .event _ cmds => cmds ≠ [] → db.queue.count < dbPipelineQueueSize
  | .result _ => True
  | .exec cmds => cmds ≠ [] → db.queue.count < dbPipelineQueueSize

end ChityChat.DbPipeline
