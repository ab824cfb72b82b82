import ChityChat.DbPipeline

namespace ChityChat.DbPipelineOrder

open DbResult RingBuffer Transition DbPipeline

variable {C : Type} {db db' : ServerDb C} {chains more : List (Chain C)} {chain : Chain C}
  {ctx : DbcmdCtx C} {cmds running rest finished : List (DbcmdCtx C)} {res : PGresult}

def numbered (client : Option C) (query : Nat) : List (DbcmdCtx C) → List (DbcmdCtx C)
  | [] => []
  | cmd :: cmds =>
    { cmd with query := query, client := cmd.client.or client } :: numbered client (query + 1) cmds

def callbacks (ctxs : List (DbcmdCtx C)) : List Nat :=
  (ctxs.filter (fun ctx => ctx.exec)).map DbcmdCtx.query

def unanswered (ctxs : List (DbcmdCtx C)) : List Nat :=
  (ctxs.filter (fun ctx => ctx.ret = .busy)).map DbcmdCtx.query

theorem callbacks_append (as bs : List (DbcmdCtx C)) :
    callbacks (as ++ bs) = callbacks as ++ callbacks bs := by
  simp only [callbacks, List.filter_append, List.map_append]

theorem unanswered_append (as bs : List (DbcmdCtx C)) :
    unanswered (as ++ bs) = unanswered as ++ unanswered bs := by
  simp only [unanswered, List.filter_append, List.map_append]

theorem callbacks_cons (ctx : DbcmdCtx C) (ctxs : List (DbcmdCtx C)) :
    callbacks (ctx :: ctxs) = (if ctx.exec then [ctx.query] else []) ++ callbacks ctxs := by
  cases h : ctx.exec <;> simp [callbacks, h]

theorem unanswered_busy {ctxs : List (DbcmdCtx C)} (h : ∀ ctx ∈ ctxs, ctx.ret = .busy) :
    unanswered ctxs = ctxs.map DbcmdCtx.query := by
  rw [unanswered, List.filter_eq_self.mpr (fun ctx hctx => by simpa using h ctx hctx)]

theorem unanswered_done {ctxs : List (DbcmdCtx C)} (h : ∀ ctx ∈ ctxs, ctx.ret ≠ .busy) :
    unanswered ctxs = [] := by
  rw [unanswered, List.filter_eq_nil_iff.mpr (fun ctx hctx => by simpa using h ctx hctx),
    List.map_nil]

theorem numbered_query (client : Option C) (query : Nat) (cmds : List (DbcmdCtx C)) :
    (numbered client query cmds).map DbcmdCtx.query = List.range' query cmds.length := by
  induction cmds generalizing query with
  | nil => rfl
  | cons cmd cmds ih => rw [numbered, List.map_cons, ih, List.length_cons, List.range'_succ]

theorem numbered_busy (client : Option C) (query : Nat) (h : ∀ cmd ∈ cmds, cmd.ret = .busy) :
    ∀ ctx ∈ numbered client query cmds, ctx.ret = .busy := by
  induction cmds generalizing query with
  | nil => simp [numbered]
  | cons cmd cmds ih =>
      intro ctx hctx
      rcases List.mem_cons.mp hctx with rfl | hctx
      · exact h cmd (by simp)
      · exact ih (query + 1) (fun c hc => h c (List.mem_cons_of_mem _ hc)) ctx hctx

theorem numbered_mem {client : Option C} {query : Nat} {cmds : List (DbcmdCtx C)}
    (h : ctx ∈ numbered client query cmds) :
    ∃ (i : Nat) (cmd : DbcmdCtx C), cmds[i]? = some cmd ∧
      ctx = { cmd with query := query + i, client := cmd.client.or client } := by
  induction cmds generalizing query with
  | nil => cases h
  | cons cmd cmds ih =>
      rcases List.mem_cons.mp h with rfl | h
      · exact ⟨0, cmd, rfl, rfl⟩
      · obtain ⟨i, cmd', hcmd', rfl⟩ := ih h
        exact ⟨i + 1, cmd', hcmd', by rw [Nat.add_assoc, Nat.add_comm 1]⟩

theorem foldl_dbAsyncParams (h : db.current = some chain) :
    cmds.foldl dbAsyncParams db = { db with
      current := some ⟨chain.head, chain.next ++ numbered db.client db.sent cmds⟩
      sent := db.sent + cmds.length
      created := db.created ++ callbacks (numbered db.client db.sent cmds) } := by
  induction cmds generalizing db chain with
  | nil => cases db; cases h; simp [numbered, callbacks]
  | cons cmd cmds ih =>
      have hone : dbAsyncParams db cmd = { db with
          current := some ⟨chain.head, chain.next ++
            [{ cmd with query := db.sent, client := cmd.client.or db.client }]⟩
          sent := db.sent + 1
          created := if cmd.exec then db.created ++ [db.sent] else db.created } := by
        simp only [dbAsyncParams, dbPipelineEnqueueCurrent, h]
      rw [List.foldl_cons, hone, ih rfl]
      simp only [numbered, callbacks_cons, List.append_assoc, List.singleton_append,
        List.length_cons, Nat.add_assoc, Nat.add_comm 1]
      cases cmd.exec <;> simp

theorem foldl_dbAsyncParams_first (h : db.current = none) (cmd : DbcmdCtx C) :
    (cmd :: cmds).foldl dbAsyncParams db = { db with
      current := some ⟨{ cmd with query := db.sent, client := cmd.client.or db.client },
        numbered db.client (db.sent + 1) cmds⟩
      sent := db.sent + (cmds.length + 1)
      created := db.created ++ callbacks (numbered db.client db.sent (cmd :: cmds)) } := by
  have hone : dbAsyncParams db cmd = { db with
      current := some ⟨{ cmd with query := db.sent, client := cmd.client.or db.client }, []⟩
      sent := db.sent + 1
      created := if cmd.exec then db.created ++ [db.sent] else db.created } := by
    simp only [dbAsyncParams, dbPipelineEnqueueCurrent, h]
  rw [List.foldl_cons, hone, foldl_dbAsyncParams rfl]
  simp only [numbered, callbacks_cons, List.nil_append, Nat.add_assoc, Nat.add_comm 1]
  cases cmd.exec <;> simp

/-- Some contexts of the chain, at least the last one, have no result yet. -/
def Waiting (chain : Chain C) : Prop :=
  ∃ finished ctx rest, chain.ctxs = finished ++ ctx :: rest ∧ (∀ c ∈ finished, c.ret ≠ .busy) ∧
    ∀ c ∈ ctx :: rest, c.ret = .busy

/-- The ring holds `chains`, whose unanswered queries are the ones in flight, in order. -/
structure Tracked (db : ServerDb C) (running : List (DbcmdCtx C)) (chains : List (Chain C)) :
    Prop where
  size : db.queue.size = dbPipelineQueueSize
  ring : Represents db.queue chains
  current : db.current = none
  exec : ∀ chain ∈ chains, chain.head.exec = true
  waiting : ∀ chain ∈ chains, Waiting chain
  arrived : db.arrived ≤ db.sent
  order : unanswered (chains.flatMap Chain.ctxs) = List.range' db.arrived (db.sent - db.arrived)
  delivered : db.delivered = (List.range db.arrived).map (fun query => (query, query))
  executed : db.executed ++ callbacks (running ++ chains.flatMap Chain.ctxs) = db.created

theorem tracked_init : Tracked (dbInit : ServerDb C) [] [] where
  size := rfl
  ring := represents_empty (by decide)
  current := rfl
  exec := by simp
  waiting := by simp
  arrived := Nat.le_refl _
  order := rfl
  delivered := rfl
  executed := rfl

def sentChain (db : ServerDb C) (cmd : DbcmdCtx C) (cmds : List (DbcmdCtx C)) : Chain C :=
  ⟨{ cmd with query := db.sent, client := cmd.client.or db.client },
    numbered db.client (db.sent + 1) cmds⟩

theorem flush_eq (h : db.current = none) (cmd : DbcmdCtx C) :
    dbPipelineCurrentDone ((cmd :: cmds).foldl dbAsyncParams db) = { db with
      queue := (dbPipelineEnqueue db (sentChain db cmd cmds)).2.queue
      client := none
      sent := db.sent + (cmds.length + 1)
      created := db.created ++ callbacks (sentChain db cmd cmds).ctxs } := by
  rw [foldl_dbAsyncParams_first h]
  simp only [dbPipelineCurrentDone, dbPipelineEnqueue, dbPipelineResetCurrent, h]
  split <;> rfl

theorem Tracked.flush_cons {cmd : DbcmdCtx C} (h : Tracked db running chains)
    (hcmds : Command (cmd :: cmds)) (hroom : chains.length < dbPipelineQueueSize) :
    Tracked (dbPipelineCurrentDone ((cmd :: cmds).foldl dbAsyncParams db)) running
      (chains ++ [sentChain db cmd cmds]) := by
  have hroom : chains.length < db.queue.size := by rwa [h.size]
  have hctxs : (sentChain db cmd cmds).ctxs = numbered db.client db.sent (cmd :: cmds) := rfl
  have hbusy := numbered_busy db.client db.sent hcmds.busy
  have hqueue : (dbPipelineEnqueue db (sentChain db cmd cmds)).2.queue =
      db.queue.push (sentChain db cmd cmds) := by
    simp [dbPipelineEnqueue, h.ring.free hroom]
  rw [flush_eq h.current, hqueue]
  refine ⟨h.size, h.ring.push hroom _, h.current, ?_, ?_, ?_, ?_, h.delivered, ?_⟩
  · intro c hc
    rcases List.mem_append.mp hc with hc | hc
    · exact h.exec c hc
    · rw [List.mem_singleton.mp hc]
      exact hcmds.exec cmd rfl
  · intro c hc
    rcases List.mem_append.mp hc with hc | hc
    · exact h.waiting c hc
    · rw [List.mem_singleton.mp hc]
      exact ⟨[], _, _, rfl, by simp, hbusy⟩
  · exact Nat.le_trans h.arrived (Nat.le_add_right _ _)
  · have harr := h.arrived
    have happ := List.range'_append_1 (s := db.arrived) (m := db.sent - db.arrived)
      (n := cmds.length + 1)
    rw [Nat.add_sub_cancel' harr, ← Nat.sub_add_comm harr] at happ
    rw [List.flatMap_append, List.flatMap_singleton, unanswered_append, h.order, hctxs,
      unanswered_busy hbusy, numbered_query]
    exact happ
  · rw [List.flatMap_append, List.flatMap_singleton, ← List.append_assoc running, callbacks_append,
      ← List.append_assoc, h.executed]

theorem Tracked.flush (h : Tracked db running chains) (hcmds : Command cmds)
    (hroom : cmds ≠ [] → chains.length < dbPipelineQueueSize) :
    ∃ chains', Tracked (dbPipelineCurrentDone (cmds.foldl dbAsyncParams db)) running chains' ∧
      chains'.flatMap Chain.ctxs = chains.flatMap Chain.ctxs ++
        numbered db.client db.sent cmds := by
  cases cmds with
  | nil => exact ⟨chains, by rw [List.foldl_nil, dbPipelineCurrentDone, h.current]; exact h,
      (List.append_nil _).symm⟩
  | cons cmd cmds =>
      refine ⟨_, h.flush_cons hcmds (hroom (by simp)), ?_⟩
      rw [List.flatMap_append, List.flatMap_singleton]
      rfl

theorem Tracked.setCtx (h : Tracked db running chains) (client : Option C) :
    Tracked (eventCtx db client) running chains := by
  cases client with
  | none => exact h
  | some client =>
      exact ⟨h.size, h.ring, h.current, h.exec, h.waiting, h.arrived, h.order, h.delivered,
        h.executed⟩

theorem eventCtx_same (db : ServerDb C) (client : Option C) :
    (eventCtx db client).sent = db.sent ∧ (eventCtx db client).arrived = db.arrived ∧
      (eventCtx db client).running = db.running ∧ (eventCtx db client).current = db.current := by
  cases client <;> exact ⟨rfl, rfl, rfl, rfl⟩

theorem flush_running (h : db.current = none) (cmds : List (DbcmdCtx C)) :
    (dbPipelineCurrentDone (cmds.foldl dbAsyncParams db)).running = db.running := by
  cases cmds with
  | nil => rw [List.foldl_nil, dbPipelineCurrentDone, h]
  | cons cmd cmds => rw [flush_eq h]

theorem flush_counts (h : db.current = none) (cmds : List (DbcmdCtx C)) :
    (dbPipelineCurrentDone (cmds.foldl dbAsyncParams db)).sent = db.sent + cmds.length ∧
      (dbPipelineCurrentDone (cmds.foldl dbAsyncParams db)).arrived = db.arrived := by
  cases cmds with
  | nil => rw [List.foldl_nil, dbPipelineCurrentDone, h]; exact ⟨rfl, rfl⟩
  | cons cmd cmds => rw [flush_eq h]; exact ⟨rfl, rfl⟩

theorem deliver_split {ctx first : DbcmdCtx C} {next : List (DbcmdCtx C)} (res : PGresult)
    (hsplit : first :: next = finished ++ ctx :: rest) (hdone : ∀ c ∈ finished, c.ret ≠ .busy)
    (hbusy : ctx.ret = .busy) :
    awaiting first next = ctx ∧
      (answer res first next).ctxs = finished ++ ctx.execRes.run res ctx :: rest ∧
      (complete first next = true ↔ rest = []) := by
  induction finished generalizing first next with
  | nil =>
      obtain ⟨rfl, rfl⟩ := List.cons.inj hsplit
      cases next with
      | nil => exact ⟨rfl, rfl, by simp [complete]⟩
      | cons second more => simp [awaiting, answer, complete, hbusy, Chain.ctxs]
  | cons c finished ih =>
      obtain ⟨rfl, hnext⟩ := List.cons.inj hsplit
      have hc := hdone first (by simp)
      cases next with
      | nil => simp at hnext
      | cons second more =>
          have hrec := ih hnext (fun d hd => hdone d (List.mem_cons_of_mem _ hd))
          simpa [awaiting, answer, complete, hc, Chain.ctxs] using hrec

theorem answer_head (res : PGresult) (first : DbcmdCtx C) (next : List (DbcmdCtx C)) :
    (answer res first next).head.query = first.query ∧
      (answer res first next).head.client = first.client ∧
        (answer res first next).head.exec = first.exec := by
  have hrun := run_answered first.execRes res first
  cases next with
  | nil => exact ⟨hrun.query, hrun.client, hrun.exec⟩
  | cons second more =>
      rw [answer]
      split
      · exact ⟨rfl, rfl, rfl⟩
      · exact ⟨hrun.query, hrun.client, hrun.exec⟩

theorem finished_append (hdone : ∀ c ∈ finished, c.ret ≠ .busy) (res : PGresult) (ctx : DbcmdCtx C) :
    ∀ c ∈ finished ++ [ctx.execRes.run res ctx], c.ret ≠ .busy := by
  intro c hc
  rcases List.mem_append.mp hc with hc | hc
  · exact hdone c hc
  · rw [List.mem_singleton.mp hc]
    exact (run_answered ctx.execRes res ctx).ret

theorem callbacks_answered {c c' : DbcmdCtx C} (h : Answered c c') (as bs : List (DbcmdCtx C)) :
    callbacks (as ++ c' :: bs) = callbacks (as ++ c :: bs) := by
  rw [callbacks_append, callbacks_append, callbacks_cons, callbacks_cons, h.exec, h.query]

/-- The next result is for `ctx`, in the chain at the head of the ring. -/
structure NextResult (db : ServerDb C) (chain : Chain C) (more : List (Chain C))
    (finished : List (DbcmdCtx C)) (ctx : DbcmdCtx C) (rest : List (DbcmdCtx C)) : Prop where
  split : chain.ctxs = finished ++ ctx :: rest
  done : ∀ c ∈ finished, c.ret ≠ .busy
  busy : ∀ c ∈ ctx :: rest, c.ret = .busy
  query : ctx.query = db.arrived
  order : unanswered (rest ++ more.flatMap Chain.ctxs) =
    List.range' (db.arrived + 1) (db.sent - (db.arrived + 1))

theorem Tracked.nextResult (h : Tracked db running chains) (hsent : db.arrived < db.sent) :
    ∃ chain more finished ctx rest, chains = chain :: more ∧
      NextResult db chain more finished ctx rest := by
  have horder := h.order
  rw [show db.sent - db.arrived = db.sent - (db.arrived + 1) + 1 by omega,
    List.range'_succ] at horder
  cases chains with
  | nil => cases horder
  | cons chain more =>
      obtain ⟨finished, ctx, rest, hsplit, hdone, hbusy⟩ := h.waiting chain (by simp)
      have hctx : unanswered [ctx] = [ctx.query] :=
        unanswered_busy (by simpa using hbusy ctx (by simp))
      rw [List.flatMap_cons, hsplit, List.append_assoc, unanswered_append, unanswered_done hdone,
        List.nil_append, List.cons_append, ← List.singleton_append, unanswered_append, hctx,
        List.singleton_append] at horder
      obtain ⟨hquery, hrest⟩ := List.cons.inj horder
      exact ⟨chain, more, finished, ctx, rest, rfl, hsplit, hdone, hbusy, hquery, hrest⟩

theorem dbProcessResult_eq (hslot : db.queue.slots db.queue.read = some chain)
    (hexec : chain.head.exec = true) (hsync : res.status ≠ .pipelineSync) :
    dbProcessResult db res =
      if complete chain.head chain.next then { db with
        live := res.handle :: db.live
        arrived := db.arrived + 1
        queue := (db.queue.replace (answer res chain.head chain.next)).pop
        delivered := db.delivered ++ [((awaiting chain.head chain.next).query, res.handle)]
        running := (answer res chain.head chain.next).ctxs }
      else { db with
        arrived := db.arrived + 1
        queue := db.queue.replace (answer res chain.head chain.next)
        delivered := db.delivered ++ [((awaiting chain.head chain.next).query, res.handle)] } := by
  have hpeek : (db.queue.slots db.queue.read).filter (fun chain => chain.head.exec) =
      some chain := by
    rw [hslot, Option.filter_some, if_pos hexec]
  simp only [dbProcessResult, if_neg hsync, dbPipelinePeek, hpeek, pqClear, List.erase_cons_head]

theorem dbProcessResult_round {pending : List (DbcmdCtx C)} {ctx : DbcmdCtx C} (res : PGresult)
    (hslot : db.queue.slots db.queue.read = some chain) (hexec : chain.head.exec = true)
    (hsplit : chain.ctxs = finished ++ ctx :: pending) (hdone : ∀ c ∈ finished, c.ret ≠ .busy)
    (hbusy : ctx.ret = .busy) (hsync : res.status ≠ .pipelineSync) :
    ∃ chain' : Chain C, (chain'.head.query = chain.head.query ∧
        chain'.head.client = chain.head.client ∧ chain'.head.exec = chain.head.exec) ∧
      chain'.ctxs = (finished ++ [ctx.execRes.run res ctx]) ++ pending ∧
      dbProcessResult db res = if pending = [] then { db with
          live := res.handle :: db.live
          arrived := db.arrived + 1
          queue := (db.queue.replace chain').pop
          delivered := db.delivered ++ [(ctx.query, res.handle)]
          running := chain'.ctxs }
        else { db with
          arrived := db.arrived + 1
          queue := db.queue.replace chain'
          delivered := db.delivered ++ [(ctx.query, res.handle)] } := by
  obtain ⟨hawaiting, hanswer, hcomplete⟩ := deliver_split res hsplit hdone hbusy
  refine ⟨answer res chain.head chain.next, answer_head res _ _, ?_, ?_⟩
  · rw [hanswer, List.append_cons]
  · rw [dbProcessResult_eq hslot hexec hsync, hawaiting]
    exact if_congr hcomplete rfl rfl

theorem dbProcessResult_counts (db : ServerDb C) (hsync : res.status ≠ .pipelineSync) :
    (dbProcessResult db res).sent = db.sent ∧
      (dbProcessResult db res).arrived = db.arrived + 1 := by
  simp only [dbProcessResult, if_neg hsync]
  split
  · exact ⟨rfl, rfl⟩
  · split <;> exact ⟨rfl, rfl⟩

theorem NextResult.deliver (h : NextResult db chain more finished ctx rest) (res : PGresult) :
    awaiting chain.head chain.next = ctx ∧
      (answer res chain.head chain.next).ctxs = finished ++ ctx.execRes.run res ctx :: rest ∧
      (complete chain.head chain.next = true ↔ rest = []) :=
  deliver_split res h.split h.done (h.busy ctx (by simp))

theorem NextResult.delivered (h : NextResult db chain more finished ctx rest)
    (hd : Tracked db [] (chain :: more)) (hres : res.handle = db.arrived) :
    db.delivered ++ [((awaiting chain.head chain.next).query, res.handle)] =
      (List.range (db.arrived + 1)).map (fun query => (query, query)) := by
  rw [(h.deliver res).1, h.query, hres, hd.delivered, List.range_succ, List.map_append,
    List.map_singleton]

theorem NextResult.executed (h : NextResult db chain more finished ctx rest)
    (hd : Tracked db [] (chain :: more)) (res : PGresult) :
    db.executed ++ callbacks ((answer res chain.head chain.next).ctxs ++ more.flatMap Chain.ctxs) =
      db.created := by
  have hrun := run_answered ctx.execRes res ctx
  rw [← hd.executed, List.nil_append, List.flatMap_cons, (h.deliver res).2.1, h.split,
    List.append_assoc, List.append_assoc, List.cons_append, List.cons_append,
    callbacks_answered hrun]

theorem NextResult.complete (h : NextResult db chain more finished ctx [])
    (hd : Tracked db [] (chain :: more)) (hsent : db.arrived < db.sent)
    (hres : res.handle = db.arrived) (hsync : res.status ≠ .pipelineSync) :
    Tracked (dbProcessResult db res) (dbProcessResult db res).running more ∧
      (dbProcessResult db res).running = finished ++ [ctx.execRes.run res ctx] := by
  have hreplaced := hd.ring.replace (answer res chain.head chain.next)
  obtain ⟨-, hanswer, hcomplete⟩ := h.deliver res
  rw [dbProcessResult_eq hd.ring.peek (hd.exec chain (by simp)) hsync, if_pos (hcomplete.mpr rfl)]
  exact ⟨⟨hd.size, hreplaced.pop, hd.current, fun c hc => hd.exec c (List.mem_cons_of_mem _ hc),
    fun c hc => hd.waiting c (List.mem_cons_of_mem _ hc), hsent, h.order, h.delivered hd hres,
      h.executed hd res⟩, hanswer⟩

theorem NextResult.partly (h : NextResult db chain more finished ctx rest)
    (hd : Tracked db [] (chain :: more)) (hidle : db.running = []) (hsent : db.arrived < db.sent)
    (hres : res.handle = db.arrived) (hsync : res.status ≠ .pipelineSync) (hrest : rest ≠ []) :
    Tracked (dbProcessResult db res) [] (answer res chain.head chain.next :: more) ∧
      (dbProcessResult db res).running = [] := by
  have hreplaced := hd.ring.replace (answer res chain.head chain.next)
  have hexec := hd.exec chain (by simp)
  obtain ⟨-, hanswer, hcomplete⟩ := h.deliver res
  rw [dbProcessResult_eq hd.ring.peek hexec hsync, if_neg (fun hc => hrest (hcomplete.mp hc))]
  have hfinished := finished_append h.done res ctx
  refine ⟨⟨hd.size, hreplaced, hd.current, ?_, ?_, hsent, ?_, h.delivered hd hres, ?_⟩, hidle⟩
  · intro c hc
    rcases List.mem_cons.mp hc with rfl | hc
    · exact (answer_head res _ _).2.2.trans hexec
    · exact hd.exec c (List.mem_cons_of_mem _ hc)
  · intro c hc
    rcases List.mem_cons.mp hc with rfl | hc
    · cases rest with
      | nil => exact absurd rfl hrest
      | cons next rest =>
          refine ⟨_, next, rest, ?_, hfinished, fun d hd => h.busy d (List.mem_cons_of_mem _ hd)⟩
          rw [hanswer, List.append_assoc, List.singleton_append]
    · exact hd.waiting c (List.mem_cons_of_mem _ hc)
  · rw [List.flatMap_cons, hanswer, List.append_cons, List.append_assoc (finished ++ [_]),
      unanswered_append, unanswered_done hfinished, List.nil_append]
    exact h.order
  · rw [List.flatMap_cons]
    exact h.executed hd res

theorem Tracked.result (h : Tracked db [] chains) (hidle : db.running = [])
    (hsent : db.arrived < db.sent) (hres : res.handle = db.arrived)
    (hsync : res.status ≠ .pipelineSync) :
    ∃ chains' before ctx after,
      Tracked (dbProcessResult db res) (dbProcessResult db res).running chains' ∧
      ctx.ret = .busy ∧ ctx.query = db.arrived ∧ chains.flatMap Chain.ctxs =
        before ++ ctx :: after ∧
      (dbProcessResult db res).running ++ chains'.flatMap Chain.ctxs =
        before ++ ctx.execRes.run res ctx :: after := by
  obtain ⟨chain, more, finished, ctx, rest, rfl, hnext⟩ := h.nextResult hsent
  have hbusy := hnext.busy ctx (by simp)
  have hbefore : (chain :: more).flatMap Chain.ctxs =
      finished ++ ctx :: (rest ++ more.flatMap Chain.ctxs) := by
    rw [List.flatMap_cons, hnext.split, List.append_assoc, List.cons_append]
  by_cases hrest : rest = []
  · subst hrest
    obtain ⟨htracked, hrunning⟩ := hnext.complete h hsent hres hsync
    refine ⟨more, finished, ctx, more.flatMap Chain.ctxs, htracked, hbusy, hnext.query, hbefore, ?_⟩
    rw [hrunning, List.append_assoc, List.singleton_append]
  · obtain ⟨htracked, hrunning⟩ := hnext.partly h hidle hsent hres hsync hrest
    refine ⟨_, finished, ctx, rest ++ more.flatMap Chain.ctxs, hrunning.symm ▸ htracked, hbusy,
      hnext.query, hbefore, ?_⟩
    rw [hrunning, List.nil_append, List.flatMap_cons, (hnext.deliver res).2.1, List.append_assoc,
      List.cons_append]

theorem Tracked.exec_step (h : Tracked db (ctx :: rest) chains) (hcmds : Command cmds)
    (hroom : cmds ≠ [] → chains.length < dbPipelineQueueSize) :
    ∃ chains' sent, Tracked (dbExecCmd db ctx rest cmds) rest chains' ∧
    (sent = [] ∨ sent = numbered db.client db.sent cmds) ∧
      chains'.flatMap Chain.ctxs = chains.flatMap Chain.ctxs ++ sent := by
  have hcleared : ∀ {db : ServerDb C} {chains : List (Chain C)}, Tracked db rest chains →
      Tracked (let db := { db with running := rest }; if rest = [] then pqClear db (db.arrived - 1)
        else db) rest chains := by
    intro db chains h
    dsimp only
    split <;> exact ⟨h.size, h.ring, h.current, h.exec, h.waiting, h.arrived, h.order,
      h.delivered, h.executed⟩
  cases hexec : ctx.exec with
  | false =>
      have hrest : Tracked db rest chains := { h with
        executed := by
          have := h.executed
          rwa [List.cons_append, callbacks_cons, hexec, if_neg Bool.false_ne_true,
            List.nil_append] at this }
      exact ⟨chains, [],
        by simpa only [dbExecCmd, hexec, Bool.false_eq_true, if_false] using hcleared hrest,
        .inl rfl, (List.append_nil _).symm⟩
  | true =>
      have hrest : Tracked { db with executed := db.executed ++ [ctx.query] } rest chains :=
        ⟨h.size, h.ring, h.current, h.exec, h.waiting, h.arrived, h.order, h.delivered, by
          have := h.executed
          rw [List.cons_append, callbacks_cons, hexec, if_pos rfl, ← List.append_assoc] at this
          exact this⟩
      obtain ⟨chains', hflush, hctxs⟩ := hrest.flush hcmds hroom
      exact ⟨chains', _, by simpa only [dbExecCmd, hexec, if_true] using hcleared hflush, .inr rfl,
        hctxs⟩

theorem Tracked.event (h : Tracked db [] chains) (client : Option C) (hcmds : Command cmds)
    (hroom : cmds ≠ [] → chains.length < dbPipelineQueueSize) :
    ∃ chains', Tracked (eworkerPrepEvent db client cmds) [] chains' ∧
      chains'.flatMap Chain.ctxs = chains.flatMap Chain.ctxs ++
        numbered (eventCtx db client).client db.sent cmds := by
  obtain ⟨chains', h', hctxs⟩ := (h.setCtx client).flush hcmds hroom
  rw [(eventCtx_same db client).1] at hctxs
  exact ⟨chains', h', hctxs⟩

theorem eworkerPrepEvent_running (h : db.current = none) (client : Option C)
    (cmds : List (DbcmdCtx C)) :
    (eworkerPrepEvent db client cmds).running = db.running := by
  obtain ⟨-, -, hrunning, hcurrent⟩ := eventCtx_same db client
  rw [eworkerPrepEvent, flush_running (hcurrent.trans h), hrunning]

theorem dbExecCmd_running (db : ServerDb C) (ctx : DbcmdCtx C) (rest cmds : List (DbcmdCtx C)) :
    (dbExecCmd db ctx rest cmds).running = rest := by
  simp only [dbExecCmd]
  split <;> split <;> rfl

theorem dbExecCmd_counts (rest : List (DbcmdCtx C)) (h : db.current = none)
    (hexec : ctx.exec = false → cmds = []) :
    (dbExecCmd db ctx rest cmds).sent = db.sent + cmds.length ∧
    (dbExecCmd db ctx rest cmds).arrived = db.arrived := by
  have hcounts := flush_counts
    (show ({ db with executed := db.executed ++ [ctx.query] } : ServerDb C).current = none from h)
    cmds
  simp only [dbExecCmd]
  cases hctx : ctx.exec with
  | false =>
      rw [hexec hctx]
      simp only [Bool.false_eq_true, if_false]
      split <;> exact ⟨rfl, rfl⟩
  | true =>
      simp only [if_true]
      split <;> exact hcounts

theorem tracked_step {a : Action C} (h : ∃ chains, Tracked db db.running chains)
    (hstep : Step db a db') (hroom : Room db a) : ∃ chains, Tracked db' db'.running chains := by
  obtain ⟨chains, h⟩ := h
  have hcount := h.ring.count
  cases hstep with
  | event client cmds hrun hcmds =>
      obtain ⟨chains', h', -⟩ := (hrun ▸ h).event client hcmds (fun hne => hcount ▸ hroom hne)
      rw [eworkerPrepEvent_running h.current, hrun]
      exact ⟨chains', h'⟩
  | result res hrun hsent hres hsync =>
      obtain ⟨chains', -, -, -, h', -⟩ := (hrun ▸ h).result hrun hsent hres hsync
      exact ⟨chains', h'⟩
  | exec cmds hrun hcmds =>
      obtain ⟨chains', -, h', -⟩ := (hrun ▸ h).exec_step hcmds (fun hne => hcount ▸ hroom hne)
      rw [dbExecCmd_running]
      exact ⟨chains', h'⟩

theorem Tracked.inOrder (h : Tracked db db.running chains) : InOrder db where
  delivered := h.delivered
  executed := by
    rw [queued, h.ring.contents]
    exact h.executed
  settled harr hrun := by
    have horder := h.order
    have hexecuted := h.executed
    rw [harr, Nat.sub_self, List.range'_zero] at horder
    have hnil : chains = [] := by
      cases chains with
      | nil => rfl
      | cons chain more =>
          obtain ⟨finished, ctx, rest, hsplit, -, hbusy⟩ := h.waiting chain (by simp)
          rw [List.flatMap_cons, hsplit, unanswered_append, unanswered_append,
            unanswered_busy hbusy] at horder
          simp at horder
    rw [hnil, hrun] at hexecuted
    simpa [callbacks] using hexecuted

/-- As long as every chain finds a free slot, results and callbacks are in order. -/
theorem room_inOrder
    (h : Reachable (fun db : ServerDb C => db = dbInit)
      (fun db a db' => Step db a db' ∧ Room db a) db) :
    InOrder db := by
  have htracked : ∃ chains, Tracked db db.running chains :=
    h.invariant (I := fun db => ∃ chains, Tracked db db.running chains)
      (fun db hdb => ⟨[], by rw [hdb]; exact tracked_init⟩)
        (fun _ _ _ ht hstep => tracked_step ht hstep.1 hstep.2)
  obtain ⟨chains, htracked⟩ := htracked
  exact htracked.inOrder

def getUserInfo : DbcmdCtx Nat := ⟨0, none, .busy, false, 0, true, .dbGetUser, 0, 0, 0, none, []⟩

theorem getUserInfo_command :
    Command [getUserInfo] := ⟨by simp [getUserInfo], by simp [getUserInfo]⟩

theorem room_inOrder_once : ∃ db : ServerDb Nat, db.executed = [0] ∧ InOrder db := by
  have h0 : Reachable (fun db : ServerDb Nat => db = dbInit) (fun db a db' => Step db a db' ∧
    Room db a) dbInit :=
    .start rfl
  have h1 := h0.next ⟨.event (some 7) _ rfl getUserInfo_command, fun _ => by decide⟩
  have h2 := h1.next ⟨.result ⟨0, .tuplesOk, []⟩ rfl (by decide) rfl (by decide), trivial⟩
  have h3 := h2.next ⟨.exec [] rfl ⟨by simp, by simp⟩, fun hne => absurd rfl hne⟩
  exact ⟨_, rfl, room_inOrder h3⟩

theorem reachable_pile (k : Nat) (hk : k ≤ dbPipelineQueueSize) :
    ∃ (db : ServerDb Nat) (chains : List (Chain Nat)), Reachable (fun db => db = dbInit) Step db ∧
      Tracked db [] chains ∧ db.running = [] ∧ chains.length = k ∧
        ∀ chain ∈ chains, chain.head.client = some 7 := by
  induction k with
  | zero => exact ⟨dbInit, [], .start rfl, tracked_init, rfl, rfl, by simp⟩
  | succ k ih =>
      obtain ⟨db, chains, hreach, htracked, hrun, hlen, hclient⟩ := ih (Nat.le_of_succ_le hk)
      have hset := htracked.setCtx (some 7)
      refine ⟨_, _, hreach.next (.event (some 7) _ hrun getUserInfo_command),
        hset.flush_cons getUserInfo_command (by omega),
        (flush_running hset.current _).trans hrun, by rw [List.length_append, hlen]; rfl,
          fun chain hchain => ?_⟩
      rcases List.mem_append.mp hchain with hchain | hchain
      · exact hclient chain hchain
      · rw [List.mem_singleton.mp hchain]
        rfl

/-- With all slots taken, the chain of the next event is dropped. -/
theorem full_ring_drops :
    ∃ db : ServerDb Nat, Reachable (fun db => db = dbInit) Step db ∧ ¬ InOrder db := by
  obtain ⟨db, chains, hreach, htracked, hrun, hlen, hclient⟩ :=
    reachable_pile dbPipelineQueueSize (Nat.le_refl _)
  refine ⟨_, hreach.next (.event (some 7) _ hrun getUserInfo_command), fun horder => ?_⟩
  cases chains with
  | nil => cases hlen
  | cons chain more =>
      have hslot : db.queue.slots db.queue.write = some chain := by
        rw [htracked.ring.full (hlen.trans htracked.size.symm), htracked.ring.peek]
      have hdropped : eworkerPrepEvent db (some 7) [getUserInfo] = { db with
          client := none
          sent := db.sent + 1
          created := db.created ++ [db.sent] } := by
        rw [eworkerPrepEvent, flush_eq (by exact htracked.current)]
        simp [dbPipelineEnqueue, eventCtx, dbPipelineSetCtx, hslot, hclient chain, sentChain,
          callbacks, Chain.ctxs, numbered, getUserInfo]
      have hbefore : InOrder db :=
        (show Tracked db db.running (chain :: more) by rw [hrun]; exact htracked).inOrder
      rw [hdropped] at horder
      have hlost : db.created = db.created ++ [db.sent] :=
        hbefore.executed.symm.trans horder.executed
      simp at hlost

end ChityChat.DbPipelineOrder
