import ChityChat.DbPipelineOrder

namespace ChityChat.ChainDelivery

open DbResult RingBuffer DbPipeline DbPipelineOrder

variable {C W : Type}

/-- A call of `exec_res`, and one of `exec` with the contexts that follow in the chain. -/
inductive Call (C : Type)
  | execRes (ctx : DbcmdCtx C) (res : PGresult)
  | exec (ctx : DbcmdCtx C) (next : List (DbcmdCtx C))

/-- What an `exec` does outside of the pipeline, and the commands that it sends. -/
abbrev Callbacks (C W : Type) := W → DbcmdCtx C → List (DbcmdCtx C) → W × List (DbcmdCtx C)

/-- The pipeline, all that the callbacks look at besides it, and the calls so far. -/
structure Worker (C W : Type) where
  db : ServerDb C
  world : W
  calls : List (Call C)

def dbExecCmd (exec : Callbacks C W) (x : Worker C W) (ctx : DbcmdCtx C)
    (next : List (DbcmdCtx C)) : Worker C W :=
  let (world, cmds) := exec x.world ctx next
  let db := { x.db with executed := x.db.executed ++ [ctx.query] }
  { db := dbPipelineCurrentDone (cmds.foldl dbAsyncParams db)
    world
    calls := x.calls ++ [.exec ctx next] }

def dbExecCmdChain (exec : Callbacks C W) (x : Worker C W) : List (DbcmdCtx C) → Worker C W
  | [] => x
  | ctx :: next =>
    let x := if ctx.exec then dbExecCmd exec x ctx next else x
    dbExecCmdChain exec { x with db := { x.db with running := next } } next

def execResCall (db : ServerDb C) (res : PGresult) : List (Call C) :=
  if res.status = .pipelineSync then []
  else (dbPipelinePeek db).toList.map (fun chain => .execRes (awaiting chain.head chain.next) res)

def dbProcessResult (exec : Callbacks C W) (x : Worker C W) (res : PGresult) : Worker C W :=
  let db := DbPipeline.dbProcessResult x.db res
  let y := dbExecCmdChain exec ⟨db, x.world, x.calls ++ execResCall x.db res⟩ db.running
  -- the round of a chain that is complete leaves its result to be cleared at the end
  if db.running = [] then y else { y with db := pqClear y.db res.handle }

def dbProcessResults (exec : Callbacks C W) (x : Worker C W) (results : List PGresult) :
    Worker C W :=
  results.foldl (dbProcessResult exec) x

/-- A call of `db_process_results` with the results that are there, or an event in between, which
may change anything outside of the pipeline. -/
inductive Turn (C W : Type)
  | results (results : List PGresult)
  | event (client : Option C) (cmds : List (DbcmdCtx C)) (world : W)

def Turn.run (exec : Callbacks C W) (x : Worker C W) : Turn C W → Worker C W
  | results rs => dbProcessResults exec x rs
  | event client cmds world => { x with db := eworkerPrepEvent x.db client cmds, world := world }

def runTurns (exec : Callbacks C W) (x : Worker C W) (turns : List (Turn C W)) : Worker C W :=
  turns.foldl (Turn.run exec) x

def proper (results : List PGresult) : List PGresult :=
  results.filter (fun res => res.status ≠ .pipelineSync)

def Turn.proper : Turn C W → List PGresult
  | results rs => ChainDelivery.proper rs
  | event .. => []

/-- The callbacks of a chain only send commands while fewer chains than there are slots are queued. -/
def CallbacksFit (exec : Callbacks C W) (x : Worker C W) : List (DbcmdCtx C) → Prop
  | [] => True
  | ctx :: next =>
    let y := if ctx.exec then dbExecCmd exec x ctx next else x
    (ctx.exec = true → (exec x.world ctx next).2 ≠ [] → x.db.queue.count < x.db.queue.size) ∧
      CallbacksFit exec { y with db := { y.db with running := next } } next

def ResultsFit (exec : Callbacks C W) (x : Worker C W) : List PGresult → Prop
  | [] => True
  | res :: results =>
    let db := DbPipeline.dbProcessResult x.db res
    CallbacksFit exec ⟨db, x.world, x.calls ++ execResCall x.db res⟩ db.running ∧
      ResultsFit exec (dbProcessResult exec x res) results

/-- The same for the events in between. -/
def TurnsFit (exec : Callbacks C W) (x : Worker C W) : List (Turn C W) → Prop
  | [] => True
  | .results rs :: turns => ResultsFit exec x rs ∧ TurnsFit exec (dbProcessResults exec x rs) turns
  | .event client cmds world :: turns =>
    (cmds ≠ [] → x.db.queue.count < x.db.queue.size) ∧
      TurnsFit exec ((Turn.event client cmds world).run exec x) turns

def answered (ctxs : List (DbcmdCtx C)) (results : List PGresult) : List (DbcmdCtx C) :=
  List.zipWith (fun ctx res => ctx.execRes.run res ctx) ctxs results

def execCalls : List (DbcmdCtx C) → List (Call C)
  | [] => []
  | ctx :: next => if ctx.exec then .exec ctx next :: execCalls next else execCalls next

def sentChains (exec : Callbacks C W) (world : W) (client : Option C) (sent : Nat) :
    List (DbcmdCtx C) → List (Chain C)
  | [] => []
  | ctx :: next =>
    if ctx.exec then
      match exec world ctx next with
      | (world, []) => sentChains exec world client sent next
      | (world, cmd :: cmds) =>
        ⟨{ cmd with query := sent, client := cmd.client.or client },
          numbered client (sent + 1) cmds⟩ ::
            sentChains exec world none (sent + (cmds.length + 1)) next
    else sentChains exec world client sent next

variable {exec : Callbacks C W} {x y : Worker C W} {db : ServerDb C} {chain : Chain C}
  {more others : List (Chain C)} {ctx : DbcmdCtx C} {cmds finished waiting : List (DbcmdCtx C)}
  {res : PGresult} {results : List PGresult}

theorem answered_done (ctxs : List (DbcmdCtx C)) (results : List PGresult) :
    ∀ ctx ∈ answered ctxs results, ctx.ret ≠ .busy := by
  intro ctx hctx
  obtain ⟨i, hi⟩ := List.mem_iff_getElem?.mp hctx
  rw [answered, List.getElem?_zipWith_eq_some] at hi
  obtain ⟨old, res, -, -, rfl⟩ := hi
  exact (run_answered old.execRes res old).ret

/-- Between two results the pipeline has `chains` in the ring and nothing else under way. -/
structure Holds (db : ServerDb C) (chains : List (Chain C)) : Prop where
  ring : Represents db.queue chains
  current : db.current = none

theorem Holds.flush_cons (h : Holds db more) (cmd : DbcmdCtx C) (cmds : List (DbcmdCtx C))
    (hroom : db.queue.count < db.queue.size) :
    dbPipelineCurrentDone ((cmd :: cmds).foldl dbAsyncParams db) = { db with
      queue := db.queue.push (sentChain db cmd cmds)
      client := none
      sent := db.sent + (cmds.length + 1)
      created := db.created ++ callbacks (sentChain db cmd cmds).ctxs } ∧
    Represents (db.queue.push (sentChain db cmd cmds)) (more ++ [sentChain db cmd cmds]) := by
  have hlen : more.length < db.queue.size := h.ring.count ▸ hroom
  have hqueue : (dbPipelineEnqueue db (sentChain db cmd cmds)).2.queue =
      db.queue.push (sentChain db cmd cmds) := by
    simp [dbPipelineEnqueue, h.ring.free hlen]
  exact ⟨by rw [flush_eq h.current, hqueue], h.ring.push hlen _⟩

theorem Holds.flush_nil (h : Holds db more) :
    dbPipelineCurrentDone (([] : List (DbcmdCtx C)).foldl dbAsyncParams db) = db := by
  rw [List.foldl_nil, dbPipelineCurrentDone, h.current]

theorem Holds.event (h : Holds db more) (client : Option C) (cmds : List (DbcmdCtx C))
    (hroom : cmds ≠ [] → db.queue.count < db.queue.size) :
    ∃ events, Holds (eworkerPrepEvent db client cmds) (more ++ events) := by
  have hctx : Holds (eventCtx db client) more ∧ (eventCtx db client).queue = db.queue := by
    cases client with
    | none => exact ⟨h, rfl⟩
    | some client => exact ⟨⟨h.ring, h.current⟩, rfl⟩
  cases cmds with
  | nil => exact ⟨[], by rw [eworkerPrepEvent, hctx.1.flush_nil, List.append_nil]; exact hctx.1⟩
  | cons cmd cmds =>
      obtain ⟨hflush, hpush⟩ := hctx.1.flush_cons cmd cmds
        (by rw [hctx.2]; exact hroom (List.cons_ne_nil _ _))
      exact ⟨_, by rw [eworkerPrepEvent, hflush]; exact ⟨hpush, hctx.1.current⟩⟩

theorem Holds.execCmd (h : Holds x.db more) {next : List (DbcmdCtx C)} (hexec : ctx.exec = true)
    (hroom : (exec x.world ctx next).2 ≠ [] → x.db.queue.count < x.db.queue.size) :
    ∃ front, Holds (dbExecCmd exec x ctx next).db (more ++ front) ∧
      sentChains exec x.world x.db.client x.db.sent (ctx :: next) =
        front ++ sentChains exec (dbExecCmd exec x ctx next).world
          (dbExecCmd exec x ctx next).db.client (dbExecCmd exec x ctx next).db.sent next := by
  have hlogged : Holds { x.db with executed := x.db.executed ++ [ctx.query] } more :=
    ⟨h.ring, h.current⟩
  rw [sentChains, if_pos hexec]
  rw [dbExecCmd]
  rcases hsent : exec x.world ctx next with ⟨world, cmds⟩
  rw [hsent] at hroom
  cases cmds with
  | nil =>
      dsimp only
      rw [hlogged.flush_nil]
      exact ⟨[], by rwa [List.append_nil], rfl⟩
  | cons cmd cmds =>
      obtain ⟨hflush, hpush⟩ := hlogged.flush_cons cmd cmds (hroom (List.cons_ne_nil _ _))
      dsimp only
      rw [hflush]
      exact ⟨[_], ⟨hpush, h.current⟩, rfl⟩

theorem dbExecCmdChain_calls (exec : Callbacks C W) (x : Worker C W) (ctxs : List (DbcmdCtx C)) :
    (dbExecCmdChain exec x ctxs).calls = x.calls ++ execCalls ctxs := by
  induction ctxs generalizing x with
  | nil => exact (List.append_nil _).symm
  | cons ctx next ih =>
      rw [dbExecCmdChain, ih, execCalls]
      cases ctx.exec with
      | false => rfl
      | true =>
          rw [if_pos rfl, if_pos rfl, dbExecCmd, List.append_assoc, List.singleton_append]

theorem Holds.execCmdChain (h : Holds x.db more) (ctxs : List (DbcmdCtx C))
    (hfit : CallbacksFit exec x ctxs) :
    Holds (dbExecCmdChain exec x ctxs).db
      (more ++ sentChains exec x.world x.db.client x.db.sent ctxs) := by
  induction ctxs generalizing x more with
  | nil => rwa [sentChains, List.append_nil]
  | cons ctx next ih =>
      obtain ⟨hroom, hrest⟩ := hfit
      cases hexec : ctx.exec with
      | false =>
          rw [hexec] at hrest
          have hnext := fun hholds => @ih _ more hholds hrest
          simp only [dbExecCmdChain, sentChains, hexec, Bool.false_eq_true, if_false]
          exact hnext ⟨h.ring, h.current⟩
      | true =>
          rw [hexec] at hrest
          obtain ⟨front, hfront, hsent⟩ := h.execCmd hexec (hroom hexec)
          have hnext := fun hholds => @ih _ (more ++ front) hholds hrest
          rw [dbExecCmdChain, hsent, ← List.append_assoc, hexec]
          exact hnext ⟨hfront.ring, hfront.current⟩

structure Partway (x : Worker C W) (others : List (Chain C))
    (finished waiting : List (DbcmdCtx C)) : Prop where
  chain : ∃ chain : Chain C, Holds x.db (chain :: others) ∧ chain.head.exec = true ∧
    chain.ctxs = finished ++ waiting
  running : x.db.running = []
  done : ∀ ctx ∈ finished, ctx.ret ≠ .busy
  busy : ∀ ctx ∈ waiting, ctx.ret = .busy

theorem dbProcessResult_sync (exec : Callbacks C W) (hrun : x.db.running = [])
    (hsync : res.status = .pipelineSync) : dbProcessResult exec x res = x := by
  have hdb : DbPipeline.dbProcessResult x.db res = x.db := by
    simp only [DbPipeline.dbProcessResult, if_pos hsync, pqClear, List.erase_cons_head]
  have hcall : execResCall x.db res = [] := if_pos hsync
  simp only [dbProcessResult, hdb, hrun, hcall, List.append_nil, if_true, dbExecCmdChain]

structure Quietly (x y : Worker C W) (calls : List (Call C)) : Prop where
  calls : y.calls = x.calls ++ calls
  world : y.world = x.world
  client : y.db.client = x.db.client
  sent : y.db.sent = x.db.sent

theorem Quietly.refl (x : Worker C W) : Quietly x x [] := ⟨(List.append_nil _).symm, rfl, rfl, rfl⟩

theorem Quietly.trans {z : Worker C W} {calls calls' : List (Call C)} (h : Quietly x y calls)
    (h' : Quietly y z calls') : Quietly x z (calls ++ calls') :=
  ⟨by rw [h'.calls, h.calls, List.append_assoc], h'.world.trans h.world,
    h'.client.trans h.client, h'.sent.trans h.sent⟩

theorem Partway.round (h : Partway x others finished (ctx :: waiting))
    (hsync : res.status ≠ .pipelineSync) :
    ∃ chain' : Chain C, chain'.head.exec = true ∧
      chain'.ctxs = (finished ++ [ctx.execRes.run res ctx]) ++ waiting ∧
      Represents (x.db.queue.replace chain') (chain' :: others) ∧
      DbPipeline.dbProcessResult x.db res = if waiting = [] then { x.db with
          live := res.handle :: x.db.live
          arrived := x.db.arrived + 1
          queue := (x.db.queue.replace chain').pop
          delivered := x.db.delivered ++ [(ctx.query, res.handle)]
          running := chain'.ctxs }
        else { x.db with
          arrived := x.db.arrived + 1
          queue := x.db.queue.replace chain'
          delivered := x.db.delivered ++ [(ctx.query, res.handle)] } := by
  obtain ⟨chain, hholds, hexec, hctxs⟩ := h.chain
  obtain ⟨chain', ⟨-, -, hexec'⟩, hctxs', hround⟩ := dbProcessResult_round res hholds.ring.peek hexec
    hctxs h.done (h.busy ctx List.mem_cons_self) hsync
  exact ⟨chain', hexec'.trans hexec, hctxs', hholds.ring.replace chain', hround⟩

theorem Partway.call (h : Partway x others finished (ctx :: waiting))
    (hsync : res.status ≠ .pipelineSync) : execResCall x.db res = [.execRes ctx res] := by
  obtain ⟨chain, hholds, hexec, hctxs⟩ := h.chain
  have hpeek : dbPipelinePeek x.db = some chain := by
    rw [dbPipelinePeek, hholds.ring.peek, Option.filter_some, if_pos hexec]
  rw [execResCall, if_neg hsync, hpeek, Option.toList_some, List.map_singleton,
    (deliver_split res hctxs h.done (h.busy ctx List.mem_cons_self)).1]

theorem Partway.current (h : Partway x others finished waiting) : x.db.current = none := by
  obtain ⟨chain, hholds, -⟩ := h.chain
  exact hholds.current

theorem Partway.next (h : Partway x others finished (ctx :: waiting)) (hne : waiting ≠ [])
    (hsync : res.status ≠ .pipelineSync) :
    Partway (dbProcessResult exec x res) others (finished ++ [ctx.execRes.run res ctx]) waiting ∧
      Quietly x (dbProcessResult exec x res) [.execRes ctx res] := by
  obtain ⟨chain', hexec, hctxs, hreplaced, hround⟩ := h.round hsync
  have hrun := h.running
  rw [if_neg hne] at hround
  rw [dbProcessResult]
  rw [h.call hsync, hround]
  simp only [hrun, if_true, dbExecCmdChain]
  refine ⟨⟨⟨chain', ⟨hreplaced, h.current⟩, hexec, hctxs⟩, rfl, finished_append h.done res ctx, ?_⟩,
    rfl, rfl, rfl, rfl⟩
  exact fun c hc => h.busy c (List.mem_cons_of_mem ctx hc)

theorem dbExecCmdChain_running (exec : Callbacks C W) (x : Worker C W) {ctxs : List (DbcmdCtx C)}
    (hne : ctxs ≠ []) : (dbExecCmdChain exec x ctxs).db.running = [] := by
  induction ctxs generalizing x with
  | nil => exact absurd rfl hne
  | cons ctx next ih =>
      cases next with
      | nil => rfl
      | cons second more => exact ih _ (List.cons_ne_nil _ _)

theorem Partway.last (h : Partway x others finished [ctx]) (hsync : res.status ≠ .pipelineSync)
    (hfit : ResultsFit exec x [res]) :
    let ctxs := finished ++ [ctx.execRes.run res ctx]
    Holds (dbProcessResult exec x res).db
        (others ++ sentChains exec x.world x.db.client x.db.sent ctxs) ∧
      (dbProcessResult exec x res).db.running = [] ∧
      (dbProcessResult exec x res).calls = x.calls ++ (.execRes ctx res :: execCalls ctxs) := by
  obtain ⟨chain', -, hctxs, hreplaced, hround⟩ := h.round hsync
  obtain ⟨hfit, -⟩ := hfit
  have hne : finished ++ [ctx.execRes.run res ctx] ≠ [] := by simp
  rw [if_pos rfl, hctxs, List.append_nil] at hround
  rw [h.call hsync, hround] at hfit
  have hpopped := fun hholds => @Holds.execCmdChain _ _ exec _ others hholds _ hfit
  have hholds := hpopped ⟨hreplaced.pop, h.current⟩
  rw [dbProcessResult]
  rw [h.call hsync, hround]
  simp only [if_neg hne]
  refine ⟨⟨hholds.ring, hholds.current⟩, dbExecCmdChain_running exec _ hne, ?_⟩
  refine (dbExecCmdChain_calls exec _ _).trans ?_
  rw [List.append_assoc, List.singleton_append]

theorem proper_cons_sync (hsync : res.status = .pipelineSync) (results : List PGresult) :
    proper (res :: results) = proper results :=
  List.filter_cons_of_neg (by simpa using hsync)

theorem proper_cons (hsync : res.status ≠ .pipelineSync) (results : List PGresult) :
    proper (res :: results) = res :: proper results :=
  List.filter_cons_of_pos (by simpa using hsync)

theorem Partway.results_next (h : Partway x others finished waiting) (exec : Callbacks C W)
    (hlen : (proper results).length < waiting.length) :
    Partway (dbProcessResults exec x results) others (finished ++ answered waiting (proper results))
        (waiting.drop (proper results).length) ∧
      Quietly x (dbProcessResults exec x results)
        (List.zipWith Call.execRes waiting (proper results)) := by
  induction results generalizing x finished waiting with
  | nil =>
      simp only [proper, List.filter_nil, answered, List.zipWith_nil_right, List.append_nil,
        List.length_nil, List.drop_zero]
      exact ⟨h, Quietly.refl x⟩
  | cons res results ih =>
      rw [dbProcessResults, List.foldl_cons]
      by_cases hsync : res.status = .pipelineSync
      · rw [proper_cons_sync hsync] at hlen ⊢
        rw [dbProcessResult_sync exec h.running hsync]
        exact ih h hlen
      · rw [proper_cons hsync, List.length_cons] at hlen
        rw [proper_cons hsync]
        cases waiting with
        | nil => cases hlen
        | cons ctx waiting =>
            have hlen : (proper results).length < waiting.length := Nat.lt_of_succ_lt_succ hlen
            obtain ⟨hnext, hquiet⟩ :=
              h.next (List.ne_nil_of_length_pos (Nat.zero_lt_of_lt hlen)) hsync
            obtain ⟨hpart, hquiet'⟩ := ih hnext hlen
            rw [List.append_assoc, List.singleton_append] at hpart
            exact ⟨hpart, hquiet.trans hquiet'⟩

theorem dbProcessResults_sync (exec : Callbacks C W) (hrun : x.db.running = [])
    (hsync : proper results = []) : dbProcessResults exec x results = x := by
  induction results with
  | nil => rfl
  | cons res results ih =>
      by_cases hres : res.status = .pipelineSync
      · rw [proper_cons_sync hres] at hsync
        rw [dbProcessResults, List.foldl_cons, dbProcessResult_sync exec hrun hres]
        exact ih hsync
      · rw [proper_cons hres] at hsync
        cases hsync

theorem Partway.results_last (h : Partway x others finished waiting) (hne : waiting ≠ [])
    (hlen : (proper results).length = waiting.length) (hfit : ResultsFit exec x results) :
    let ctxs := finished ++ answered waiting (proper results)
    Holds (dbProcessResults exec x results).db
        (others ++ sentChains exec x.world x.db.client x.db.sent ctxs) ∧
      (dbProcessResults exec x results).calls =
        x.calls ++ (List.zipWith Call.execRes waiting (proper results) ++ execCalls ctxs) := by
  induction results generalizing x finished waiting with
  | nil => exact absurd (List.eq_nil_of_length_eq_zero hlen.symm) hne
  | cons res results ih =>
      rw [dbProcessResults, List.foldl_cons]
      by_cases hsync : res.status = .pipelineSync
      · have hrest := hfit.2
        rw [dbProcessResult_sync exec h.running hsync] at hrest ⊢
        rw [proper_cons_sync hsync] at hlen ⊢
        exact ih h hne hlen hrest
      · rw [proper_cons hsync, List.length_cons] at hlen
        rw [proper_cons hsync]
        cases waiting with
        | nil => exact absurd rfl hne
        | cons ctx waiting =>
            have hlen : (proper results).length = waiting.length := Nat.succ.inj hlen
            cases waiting with
            | nil =>
                obtain ⟨hholds, hrun, hcalls⟩ := h.last hsync ⟨hfit.1, trivial⟩
                have hnil : proper results = [] := List.eq_nil_of_length_eq_zero hlen
                have hrest := dbProcessResults_sync exec hrun hnil
                rw [dbProcessResults] at hrest
                rw [hrest, hnil]
                exact ⟨hholds, hcalls⟩
            | cons second waiting =>
                obtain ⟨hnext, hquiet⟩ := h.next (List.cons_ne_nil _ _) hsync
                obtain ⟨hholds, hcalls⟩ := ih hnext (List.cons_ne_nil _ _) hlen hfit.2
                rw [hquiet.world, hquiet.client, hquiet.sent, List.append_assoc,
                  List.singleton_append] at hholds
                rw [hquiet.calls, List.append_assoc, List.append_assoc, List.singleton_append]
                  at hcalls
                exact ⟨hholds, hcalls⟩

theorem Partway.event (h : Partway x others finished waiting) (exec : Callbacks C W)
    (client : Option C) (cmds : List (DbcmdCtx C)) (world : W)
    (hroom : cmds ≠ [] → x.db.queue.count < x.db.queue.size) :
    ∃ events, Partway ((Turn.event client cmds world).run exec x) (others ++ events) finished
      waiting := by
  obtain ⟨chain, hholds, hexec, hctxs⟩ := h.chain
  obtain ⟨events, hevent⟩ := hholds.event client cmds hroom
  have hrun := eworkerPrepEvent_running h.current client cmds
  exact ⟨events, ⟨chain, hevent, hexec, hctxs⟩, hrun.trans h.running, h.done, h.busy⟩

theorem zipWith_append_drop {α β γ : Type} (f : α → β → γ) (as : List α) (bs bs' : List β) :
    List.zipWith f as (bs ++ bs') =
      List.zipWith f as bs ++ List.zipWith f (as.drop bs.length) bs' := by
  induction bs generalizing as with
  | nil => rw [List.nil_append, List.zipWith_nil_right, List.length_nil, List.drop_zero]; rfl
  | cons b bs ih =>
      cases as with
      | nil => simp
      | cons a as => simp [ih]

/-- The calls up to the one with the last result. Events between them add chains behind those that
are there. -/
theorem Partway.turns {turns : List (Turn C W)} (h : Partway x others finished waiting)
    (hlen : (turns.flatMap Turn.proper).length < waiting.length) (hfit : TurnsFit exec x turns) :
    ∃ events, Partway (runTurns exec x turns) (others ++ events)
        (finished ++ answered waiting (turns.flatMap Turn.proper))
        (waiting.drop (turns.flatMap Turn.proper).length) ∧
      (runTurns exec x turns).calls = x.calls ++
        List.zipWith Call.execRes waiting (turns.flatMap Turn.proper) := by
  induction turns generalizing x others finished waiting with
  | nil =>
      refine ⟨[], ?_, ?_⟩
      · simpa [answered, runTurns] using h
      · simp [runTurns]
  | cons turn turns ih =>
      rw [List.flatMap_cons, List.length_append] at hlen
      rw [List.flatMap_cons, runTurns, List.foldl_cons]
      cases turn with
      | results rs =>
          have hfirst : (proper rs).length < waiting.length :=
            Nat.lt_of_le_of_lt (Nat.le_add_right _ _) hlen
          obtain ⟨hpart, hquiet⟩ := h.results_next exec hfirst
          have hrest : (turns.flatMap Turn.proper).length <
              (waiting.drop (proper rs).length).length := by
            rw [List.length_drop]
            exact Nat.lt_sub_of_add_lt (by rw [Nat.add_comm]; exact hlen)
          obtain ⟨events, hturns, hcalls⟩ := ih hpart hrest hfit.2
          refine ⟨events, ?_, ?_⟩
          · rw [Turn.proper, List.length_append, ← List.drop_drop, answered, zipWith_append_drop,
              ← List.append_assoc]
            exact hturns
          · rw [Turn.proper, zipWith_append_drop, ← List.append_assoc, ← hquiet.calls]
            exact hcalls
      | event client cmds world =>
          obtain ⟨events, hevent⟩ := h.event exec client cmds world hfit.1
          rw [Turn.proper, List.length_nil, Nat.zero_add] at hlen
          obtain ⟨events', hturns, hcalls⟩ := ih hevent hlen hfit.2
          exact ⟨events ++ events', by rw [← List.append_assoc]; exact hturns, hcalls⟩

theorem turnsFit_append {turns turns' : List (Turn C W)} (h : TurnsFit exec x (turns ++ turns')) :
    TurnsFit exec x turns ∧ TurnsFit exec (runTurns exec x turns) turns' := by
  induction turns generalizing x with
  | nil => exact ⟨trivial, h⟩
  | cons turn turns ih =>
      cases turn with
      | results rs =>
          obtain ⟨hturns, hturns'⟩ := ih h.2
          exact ⟨⟨h.1, hturns⟩, hturns'⟩
      | event client cmds world =>
          obtain ⟨hturns, hturns'⟩ := ih h.2
          exact ⟨⟨h.1, hturns⟩, hturns'⟩

/-- What became of the first chain of the ring: `y` is the worker before the call with the last of
its results, which runs the callbacks, and `z` the worker after it. -/
structure Delivered (exec : Callbacks C W) (x y z : Worker C W) (ctxs : List (DbcmdCtx C))
    (more : List (Chain C)) (before results : List PGresult) : Prop where
  before : y.calls = x.calls ++ List.zipWith Call.execRes ctxs before
  calls : z.calls = x.calls ++
    (List.zipWith Call.execRes ctxs results ++ execCalls (answered ctxs results))
  done : ∀ ctx ∈ answered ctxs results, ctx.ret ≠ .busy
  queue : ∃ first events, Represents y.db.queue (first :: (more ++ events)) ∧
    Represents z.db.queue (more ++ events ++
      sentChains exec y.world y.db.client y.db.sent (answered ctxs results))

/-- The results go to the contexts of the first chain in their order, the callbacks run behind the
last one, and what they send stands behind what was in the ring besides this chain. -/
theorem dbProcessResults_delivers (exec : Callbacks C W) (x : Worker C W) (chain : Chain C)
    (more : List (Chain C)) (hring : Represents x.db.queue (chain :: more))
    (hcurrent : x.db.current = none) (hrunning : x.db.running = [])
    (hexec : chain.head.exec = true) (hbusy : ∀ ctx ∈ chain.ctxs, ctx.ret = .busy)
    (earlier : List (Turn C W)) (last : List PGresult)
    (hfit : TurnsFit exec x (earlier ++ [.results last]))
    (hearlier : (earlier.flatMap Turn.proper).length < chain.ctxs.length)
    (hlast : (earlier.flatMap Turn.proper ++ proper last).length = chain.ctxs.length) :
    Delivered exec x (runTurns exec x earlier) (runTurns exec x (earlier ++ [.results last]))
      chain.ctxs more (earlier.flatMap Turn.proper)
      (earlier.flatMap Turn.proper ++ proper last) := by
  have hstart : Partway x more [] chain.ctxs :=
    ⟨⟨chain, ⟨hring, hcurrent⟩, hexec, rfl⟩, hrunning, by simp, hbusy⟩
  obtain ⟨hturns, hresults, -⟩ := turnsFit_append hfit
  obtain ⟨events, hpart, hcalls⟩ := hstart.turns hearlier hturns
  obtain ⟨first, hholds, -⟩ := hpart.chain
  have hne : chain.ctxs.drop (earlier.flatMap Turn.proper).length ≠ [] := by
    rw [ne_eq, List.drop_eq_nil_iff]
    exact Nat.not_le.mpr hearlier
  have hwaiting : (proper last).length =
      (chain.ctxs.drop (earlier.flatMap Turn.proper).length).length := by
    rw [List.length_drop, ← hlast, List.length_append, Nat.add_sub_cancel_left]
  obtain ⟨hqueue, hlastCalls⟩ := hpart.results_last hne hwaiting hresults
  have hall : answered chain.ctxs (earlier.flatMap Turn.proper) ++
      answered (chain.ctxs.drop (earlier.flatMap Turn.proper).length) (proper last) =
        answered chain.ctxs (earlier.flatMap Turn.proper ++ proper last) :=
    (zipWith_append_drop _ _ _ _).symm
  rw [List.nil_append, hall] at hqueue hlastCalls
  have hrun : runTurns exec x (earlier ++ [.results last]) =
      dbProcessResults exec (runTurns exec x earlier) last := List.foldl_append
  rw [hrun]
  refine ⟨hcalls, ?_, answered_done _ _, first, events, hholds.ring, hqueue.ring⟩
  rw [hlastCalls, hcalls, zipWith_append_drop, List.append_assoc, List.append_assoc]

def deleteUserfile (query : Nat) : DbcmdCtx Nat :=
  ⟨query, some 7, .busy, false, 0, true, .deleteUserfile, 0, 0, 0, none, []⟩

def userfileRefcount (query : Nat) : DbcmdCtx Nat :=
  ⟨query, some 7, .busy, false, 0, false, .userfileRefcount, 0, 0, 0, none, []⟩

def deleting : Worker Nat Unit :=
  ⟨{ dbInit with queue := dbInit.queue.push ⟨deleteUserfile 0, [userfileRefcount 1]⟩ }, (), []⟩

/-- Two calls, with the result of a `PQpipelineSync` and another client's command in between, and a
callback that sends a command itself. -/
theorem dbProcessResults_delivers_deleting :
    ∃ y z, Delivered (fun _ _ _ => ((), [getUserInfo])) deleting y z
      [deleteUserfile 0, userfileRefcount 1] [] [⟨0, .commandOk, []⟩]
      [⟨0, .commandOk, []⟩, ⟨1, .tuplesOk, []⟩] :=
  ⟨_, _, dbProcessResults_delivers (fun _ _ _ => ((), [getUserInfo])) deleting
    ⟨deleteUserfile 0, [userfileRefcount 1]⟩ []
    ((represents_empty (by decide)).push (by decide) _) rfl rfl rfl
    (by simp [Chain.ctxs, deleteUserfile, userfileRefcount])
    [.results [⟨0, .commandOk, []⟩, ⟨0, .pipelineSync, []⟩], .event (some 8) [getUserInfo] ()]
    [⟨1, .tuplesOk, []⟩]
    ⟨⟨trivial, trivial, trivial⟩, fun _ => by decide,
      ⟨⟨fun _ _ => by decide, ⟨fun h => absurd h Bool.false_ne_true, trivial⟩⟩, trivial⟩, trivial⟩
    (by decide) (by decide)⟩

end ChityChat.ChainDelivery
