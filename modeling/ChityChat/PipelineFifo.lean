import ChityChat.Callbacks
import ChityChat.ResultLifetime

namespace ChityChat.PipelineFifo

open DbResult RingBuffer Transition DbPipeline DbPipelineOrder ResultLifetime
open Callbacks (All)

variable {X A Stmt Res C W : Type}

/-- What runs on the workers: the contexts of its statements, which are fresh and have a callback, its
steps without the database, what the events, the callbacks and the database do. -/
structure Program (X A Stmt Res C : Type) where
  ctx : Stmt → DbcmdCtx C
  busy : ∀ stmt, (ctx stmt).ret = .busy
  exec : ∀ stmt, (ctx stmt).exec = true
  text : ∀ stmt, (ctx stmt).text = none
  other : X → A → X → Prop
  event : X → X → List Stmt → Prop
  execute : X → Stmt → X → Res → Prop
  callback : X → Res → X → List Stmt → Prop

variable {p : Program X A Stmt Res C}

section Queues

structure Fifo (X Stmt Res W : Type) where
  core : X
  sent : W → List Stmt
  results : W → List Res

inductive FifoAction (W A : Type)
  | other (a : A)
  | event (w : W)
  | execute (w : W)
  | result (w : W)

variable [DecidableEq W]

def Fifo.send (s : Fifo X Stmt Res W) (w : W) (core : X) (stmts : List Stmt) : Fifo X Stmt Res W :=
  { s with core := core, sent := Function.update s.sent w (s.sent w ++ stmts) }

theorem Fifo.send_nil (s : Fifo X Stmt Res W) (w : W) : s.send w s.core [] = s := by
  rw [Fifo.send, List.append_nil, Function.update_eq_self]

theorem Fifo.send_send (s : Fifo X Stmt Res W) (w : W) (core core' : X) (stmts stmts' : List Stmt) :
    (s.send w core stmts).send w core' stmts' = s.send w core' (stmts ++ stmts') := by
  simp only [Fifo.send, Function.update_self, Function.update_idem, List.append_assoc]

inductive FifoStep (p : Program X A Stmt Res C) : Fifo X Stmt Res W → FifoAction W A →
    Fifo X Stmt Res W → Prop
  | other {s : Fifo X Stmt Res W} {a : A} {core : X} (h : p.other s.core a core) :
      FifoStep p s (.other a) { s with core := core }
  | event {s : Fifo X Stmt Res W} {w : W} {core : X} {stmts : List Stmt} (h : p.event s.core core stmts) :
      FifoStep p s (.event w) (s.send w core stmts)
  | execute {s : Fifo X Stmt Res W} {w : W} {stmt : Stmt} {rest : List Stmt} {core : X} {res : Res}
      (hsent : s.sent w = stmt :: rest) (h : p.execute s.core stmt core res) :
      FifoStep p s (.execute w) ⟨core, Function.update s.sent w rest,
        Function.update s.results w (s.results w ++ [res])⟩
  | result {s : Fifo X Stmt Res W} {w : W} {res : Res} {rest : List Res} {core : X} {stmts : List Stmt}
      (hres : s.results w = res :: rest) (h : p.callback s.core res core stmts) :
      FifoStep p s (.result w) ({ s with results := Function.update s.results w rest }.send w core stmts)

end Queues

/-- A worker with all statements that it has sent, and what the database has answered to them. -/
structure Worker (Stmt Res C : Type) where
  pipe : ServerDb C
  stmts : List Stmt
  answers : List Res

def Worker.init : Worker Stmt Res C := ⟨dbInit, [], []⟩

def Worker.send (x : Worker Stmt Res C) (pipe : ServerDb C) (stmts : List Stmt) : Worker Stmt Res C :=
  ⟨pipe, x.stmts ++ stmts, x.answers⟩

def Worker.answer (x : Worker Stmt Res C) (res : Res) : Worker Stmt Res C :=
  ⟨x.pipe, x.stmts, x.answers ++ [res]⟩

def Worker.process (x : Worker Stmt Res C) (res : PGresult) : Worker Stmt Res C :=
  ⟨dbProcessResult x.pipe res, x.stmts, x.answers⟩

def Worker.sent (x : Worker Stmt Res C) : List Stmt := x.stmts.drop x.answers.length

def Worker.results (x : Worker Stmt Res C) : List Res := x.answers.drop x.pipe.executed.length

structure System (X Stmt Res C W : Type) where
  core : X
  workers : W → Worker Stmt Res C

def System.fifo (s : System X Stmt Res C W) : Fifo X Stmt Res W :=
  ⟨s.core, fun w => (s.workers w).sent, fun w => (s.workers w).results⟩

/-- The callback of a context finds what it reads: the context was given the result of its own query,
which is not cleared if the context points into it. -/
structure Finds (db : ServerDb C) (ctx : DbcmdCtx C) : Prop where
  own : ∀ handle, (ctx.query, handle) ∈ db.delivered ↔ handle = ctx.query
  live : ∀ handle, kept ctx = some handle → handle ∈ db.live

inductive Action (W A Stmt C : Type)
  | other (a : A)
  | event (w : W) (client : Option C) (stmts : List Stmt)
  | execute (w : W)
  | result (w : W) (res : PGresult)
  | exec (w : W) (stmts : List Stmt)

section Pipelines

variable [DecidableEq W]

def System.put (s : System X Stmt Res C W) (core : X) (w : W) (x : Worker Stmt Res C) :
    System X Stmt Res C W := ⟨core, Function.update s.workers w x⟩

/-- The program with the pipelines of the workers. What a callback does that does not find its result is
anybody's guess. -/
inductive Step (p : Program X A Stmt Res C) : System X Stmt Res C W → Action W A Stmt C →
    System X Stmt Res C W → Prop
  | other {s : System X Stmt Res C W} {a : A} {core : X} (h : p.other s.core a core) :
      Step p s (.other a) { s with core := core }
  | event {s : System X Stmt Res C W} {w : W} {core : X} (client : Option C) (stmts : List Stmt)
      (hrun : (s.workers w).pipe.running = []) (h : p.event s.core core stmts) :
      Step p s (.event w client stmts) (s.put core w
        ((s.workers w).send (eworkerPrepEvent (s.workers w).pipe client (stmts.map p.ctx)) stmts))
  | execute {s : System X Stmt Res C W} {w : W} {stmt : Stmt} {core : X} {res : Res}
      (hstmt : (s.workers w).stmts[(s.workers w).answers.length]? = some stmt)
      (h : p.execute s.core stmt core res) :
      Step p s (.execute w) (s.put core w ((s.workers w).answer res))
  | result {s : System X Stmt Res C W} {w : W} (res : PGresult)
      (hrun : (s.workers w).pipe.running = [])
      (hanswer : (s.workers w).pipe.arrived < (s.workers w).answers.length)
      (hres : res.handle = (s.workers w).pipe.arrived) (hsync : res.status ≠ .pipelineSync) :
      Step p s (.result w res) (s.put s.core w ((s.workers w).process res))
  | exec {s : System X Stmt Res C W} {w : W} {ctx : DbcmdCtx C} {rest : List (DbcmdCtx C)} {core : X}
      (stmts : List Stmt) (hrun : (s.workers w).pipe.running = ctx :: rest)
      (h : Finds (s.workers w).pipe ctx →
        ∃ res, (s.workers w).answers[ctx.query]? = some res ∧ p.callback s.core res core stmts) :
      Step p s (.exec w stmts) (s.put core w
        ((s.workers w).send (dbExecCmd (s.workers w).pipe ctx rest (stmts.map p.ctx)) stmts))

end Pipelines

/-- No context but the last of a chain can keep a pointer into a result. -/
def TextLast (ctxs : List (DbcmdCtx C)) : Prop := ∀ ctx ∈ ctxs.dropLast, ∀ res, ¬ Keeps ctx res

/-- A chain finds a free slot, and in it only the text of the last result is read. -/
def Fits (p : Program X A Stmt Res C) (s : System X Stmt Res C W) : Action W A Stmt C → Prop
  | .event w client stmts =>
      Room (s.workers w).pipe (.event client (stmts.map p.ctx)) ∧ TextLast (stmts.map p.ctx)
  | .exec w stmts => Room (s.workers w).pipe (.exec (stmts.map p.ctx)) ∧ TextLast (stmts.map p.ctx)
  | _ => True

def FitStep [DecidableEq W] (p : Program X A Stmt Res C) (s : System X Stmt Res C W) (a : Action W A Stmt C)
    (t : System X Stmt Res C W) : Prop :=
  Fits p s a ∧ Step p s a t

/-- No context of a chain points into a result yet, and only the last one will. -/
structure Texts (chain : Chain C) : Prop where
  empty : ∀ ctx ∈ chain.ctxs, kept ctx = none
  last : TextLast chain.ctxs

/-- The results of a worker have come in order, and those that are read are not cleared. -/
structure InStep (x : Worker Stmt Res C) : Prop where
  tracked : ∃ chains, Tracked x.pipe x.pipe.running chains
  exec : All (fun ctx => ctx.exec = true) x.pipe
  texts : ∀ i chain, x.pipe.queue.slots i = some chain → Texts chain
  live : ∀ ctx ∈ x.pipe.running, ∀ handle, kept ctx = some handle → handle ∈ x.pipe.live
  created : x.pipe.created = List.range x.pipe.sent
  sent : x.pipe.sent = x.stmts.length
  arrived : x.pipe.arrived ≤ x.answers.length
  answered : x.answers.length ≤ x.stmts.length

variable {db : ServerDb C} {ctx : DbcmdCtx C} {rest cmds : List (DbcmdCtx C)} {x : Worker Stmt Res C}
  {res : PGresult} {stmts : List Stmt} {s t : System X Stmt Res C W} {w : W}

theorem keeps_congr {ctx' : DbcmdCtx C} (hres : ctx'.execRes = ctx.execRes) (hjson : ctx'.noJson = ctx.noJson) :
    Keeps ctx' res ↔ Keeps ctx res := by
  rw [Keeps, Keeps, hres, hjson]

theorem numbered_dropLast (client : Option C) (query : Nat) (cmds : List (DbcmdCtx C)) :
    (numbered client query cmds).dropLast = numbered client query cmds.dropLast := by
  induction cmds generalizing query with
  | nil => rfl
  | cons cmd cmds ih =>
      cases cmds with
      | nil => rfl
      | cons next cmds => exact congrArg (List.cons _) (ih (query + 1))

theorem textLast_numbered (h : TextLast cmds) (client : Option C) (query : Nat) :
    TextLast (numbered client query cmds) := by
  intro ctx hctx res hkeeps
  rw [numbered_dropLast] at hctx
  obtain ⟨i, cmd, hcmd, rfl⟩ := numbered_mem hctx
  exact h cmd (List.mem_of_getElem? hcmd) res ((keeps_congr rfl rfl).mp hkeeps)

section Chains

variable {chain : Chain C} {finished pending : List (DbcmdCtx C)}

theorem Texts.answered {chain' : Chain C} (h : Texts chain) (hsplit : chain.ctxs = finished ++ ctx :: pending)
    (hne : pending ≠ []) (hsplit' : chain'.ctxs = finished ++ ctx.execRes.run res ctx :: pending) :
    Texts chain' := by
  have hrun := run_answered ctx.execRes res ctx
  have hdrop : ∀ c : DbcmdCtx C, (finished ++ c :: pending).dropLast = finished ++ c :: pending.dropLast := by
    intro c
    rw [List.dropLast_append_of_ne_nil (List.cons_ne_nil _ _), List.dropLast_cons_of_ne_nil hne]
  have hnever : ∀ res, ¬ Keeps ctx res := fun res =>
    h.last ctx (by rw [hsplit, hdrop]; simp) res
  constructor
  · intro c hc
    rw [hsplit'] at hc
    have hold : ∀ c, c ∈ finished ∨ c ∈ pending → kept c = none := fun c hc =>
      h.empty c (by rw [hsplit]; rcases hc with hc | hc <;> simp [hc])
    rcases List.mem_append.mp hc with hc | hc
    · exact hold c (.inl hc)
    · rcases List.mem_cons.mp hc with rfl | hc
      · rw [Option.eq_none_iff_forall_ne_some]
        intro handle hkept
        exact hnever res ((run_kept (h.empty ctx (by rw [hsplit]; simp))).mp hkept).1
      · exact hold c (.inr hc)
  · intro c hc res' hkeeps
    rw [hsplit', hdrop] at hc
    have hold : ∀ c, c ∈ finished ∨ c ∈ pending.dropLast → ¬ Keeps c res' := fun c hc =>
      h.last c (by rw [hsplit, hdrop]; rcases hc with hc | hc <;> simp [hc]) res'
    rcases List.mem_append.mp hc with hc | hc
    · exact hold c (.inl hc) hkeeps
    · rcases List.mem_cons.mp hc with rfl | hc
      · exact hnever res' ((keeps_congr hrun.execRes hrun.noJson).mp hkeeps)
      · exact hold c (.inr hc) hkeeps

theorem texts_sentChain (db : ServerDb C) {cmd : DbcmdCtx C} (htext : ∀ c ∈ cmd :: cmds, c.text = none)
    (hlast : TextLast (cmd :: cmds)) : Texts (sentChain db cmd cmds) :=
  ⟨numbered_kept htext, textLast_numbered hlast db.client db.sent⟩

def Slots (P : Chain C → Prop) (queue : RingQueue (Chain C)) : Prop :=
  ∀ i chain, queue.slots i = some chain → P chain

theorem slots_update {P : Chain C → Prop} {slots : Nat → Option (Chain C)}
    (h : ∀ i chain, slots i = some chain → P chain) (j : Nat) {slot : Option (Chain C)}
    (hslot : ∀ chain, slot = some chain → P chain) :
    ∀ i chain, Function.update slots j slot i = some chain → P chain :=
  (Function.forall_update_iff slots (fun _ slot => ∀ chain, slot = some chain → P chain)).mpr
    ⟨hslot, fun i _ => h i⟩

theorem Slots.flush {P : Chain C → Prop} (h : Slots P db.queue) (hcurrent : db.current = none)
    (hcmds : ∀ cmd more, cmds = cmd :: more → P (sentChain db cmd more)) :
    Slots P (dbPipelineCurrentDone (cmds.foldl dbAsyncParams db)).queue := by
  cases cmds with
  | nil =>
      rw [List.foldl_nil, dbPipelineCurrentDone, hcurrent]
      exact h
  | cons cmd cmds =>
      rw [flush_eq hcurrent]
      dsimp only [dbPipelineEnqueue]
      split
      · exact h
      · exact slots_update h _ (fun chain hchain => Option.some.inj hchain ▸ hcmds cmd cmds rfl)

end Chains

section Pipes

theorem numbered_exec {client : Option C} {query : Nat} (h : ∀ cmd ∈ cmds, cmd.exec = true) :
    ∀ ctx ∈ numbered client query cmds, ctx.exec = true := by
  intro ctx hctx
  obtain ⟨i, cmd, hcmd, rfl⟩ := numbered_mem hctx
  exact h cmd (List.mem_of_getElem? hcmd)

theorem callbacks_exec {ctxs : List (DbcmdCtx C)} (h : ∀ ctx ∈ ctxs, ctx.exec = true) :
    callbacks ctxs = ctxs.map DbcmdCtx.query := by
  rw [callbacks, List.filter_eq_self.mpr h]

theorem flush_logs (hcurrent : db.current = none) (hexec : ∀ cmd ∈ cmds, cmd.exec = true)
    (hcreated : db.created = List.range db.sent) :
    let db' := dbPipelineCurrentDone (cmds.foldl dbAsyncParams db)
    db'.executed = db.executed ∧ db'.delivered = db.delivered ∧ db'.live = db.live ∧
      db'.created = List.range db'.sent := by
  cases cmds with
  | nil =>
      rw [List.foldl_nil, dbPipelineCurrentDone, hcurrent]
      exact ⟨rfl, rfl, rfl, hcreated⟩
  | cons cmd cmds =>
      rw [flush_eq hcurrent]
      refine ⟨rfl, rfl, rfl, ?_⟩
      have hctxs : (sentChain db cmd cmds).ctxs = numbered db.client db.sent (cmd :: cmds) := rfl
      have happ := List.range'_append_1 (s := 0) (m := db.sent) (n := cmds.length + 1)
      rw [Nat.zero_add, ← List.range_eq_range', ← List.range_eq_range'] at happ
      dsimp only
      rw [hctxs, callbacks_exec (numbered_exec hexec), numbered_query, hcreated]
      exact happ

variable (p)

theorem Program.command (stmts : List Stmt) : Command (stmts.map p.ctx) where
  busy := List.forall_mem_map.mpr fun stmt _ => p.busy stmt
  exec cmd hcmd := by
    obtain ⟨stmt, -, rfl⟩ := List.mem_map.mp (List.mem_of_mem_head? hcmd)
    exact p.exec stmt

theorem Program.all_exec (stmts : List Stmt) : ∀ cmd ∈ stmts.map p.ctx, cmd.exec = true :=
  List.forall_mem_map.mpr fun stmt _ => p.exec stmt

theorem Program.all_text (stmts : List Stmt) : ∀ cmd ∈ stmts.map p.ctx, cmd.text = none :=
  List.forall_mem_map.mpr fun stmt _ => p.text stmt

variable {p}

theorem flush_texts (h : Slots Texts db.queue) (hcurrent : db.current = none)
    (hlast : TextLast (stmts.map p.ctx)) :
    Slots Texts (dbPipelineCurrentDone ((stmts.map p.ctx).foldl dbAsyncParams db)).queue := by
  refine h.flush hcurrent (fun cmd more hcons => ?_)
  rw [hcons] at hlast
  exact texts_sentChain db (hcons ▸ p.all_text stmts) hlast

theorem inStep_init : InStep (Worker.init : Worker Stmt Res C) where
  tracked := ⟨[], tracked_init⟩
  exec := ⟨rfl, fun _ _ hslot => (by cases hslot), fun _ hctx => (by cases hctx)⟩
  texts _ _ hslot := by cases hslot
  live _ hctx := by cases hctx
  created := rfl
  sent := rfl
  arrived := Nat.le_refl _
  answered := Nat.le_refl _

theorem InStep.current (h : InStep x) : x.pipe.current = none := h.exec.current

theorem InStep.event (h : InStep x) (client : Option C) (stmts : List Stmt) (hrun : x.pipe.running = [])
    (hroom : Room x.pipe (.event client (stmts.map p.ctx))) (hlast : TextLast (stmts.map p.ctx)) :
    InStep (x.send (eworkerPrepEvent x.pipe client (stmts.map p.ctx)) stmts) ∧
      (eworkerPrepEvent x.pipe client (stmts.map p.ctx)).executed = x.pipe.executed := by
  obtain ⟨chains, htracked⟩ := h.tracked
  obtain ⟨hsent, harrived, -, hcurrent⟩ := eventCtx_same x.pipe client
  have hcur := hcurrent.trans h.current
  have hrunning := (eworkerPrepEvent_running h.current client (stmts.map p.ctx)).trans hrun
  have hcounts := flush_counts hcur (stmts.map p.ctx)
  obtain ⟨chains', htracked', -⟩ := (hrun ▸ htracked).event client (p.command stmts)
    (fun hne => htracked.ring.count ▸ hroom hne)
  have hsame : ∀ client : Option C, (eventCtx x.pipe client).executed = x.pipe.executed ∧
      (eventCtx x.pipe client).created = x.pipe.created ∧ (eventCtx x.pipe client).queue = x.pipe.queue := by
    rintro (_ | _) <;> exact ⟨rfl, rfl, rfl⟩
  obtain ⟨hexecuted, hcreated, hqueue⟩ := hsame client
  obtain ⟨hlog, -, -, hrange⟩ := flush_logs hcur (p.all_exec stmts)
    (hcreated.trans (h.created.trans (by rw [hsent])))
  refine ⟨⟨⟨chains', hrunning ▸ htracked'⟩, ?_, ?_, ?_, hrange, ?_, ?_, ?_⟩, hlog.trans hexecuted⟩
  · exact h.exec.event client (numbered_exec (p.all_exec stmts))
  · exact flush_texts (hqueue ▸ h.texts) hcur hlast
  · intro ctx hctx
    rw [Worker.send, hrunning] at hctx
    cases hctx
  · rw [Worker.send, List.length_append, ← h.sent, ← hsent]
    exact hcounts.1.trans (by rw [List.length_map])
  · exact Nat.le_trans (Nat.le_of_eq (hcounts.2.trans harrived)) h.arrived
  · exact Nat.le_trans h.answered (by simp [Worker.send])

theorem unanswered_length (ctxs : List (DbcmdCtx C)) : (unanswered ctxs).length ≤ ctxs.length := by
  rw [unanswered, List.length_map]
  exact List.length_filter_le _ _

/-- The callbacks run in the order of the queries, each behind its result. -/
theorem InStep.counts (h : InStep x) {chains : List (Chain C)} (ht : Tracked x.pipe x.pipe.running chains) :
    x.pipe.executed ++ (x.pipe.running ++ chains.flatMap Chain.ctxs).map DbcmdCtx.query =
        List.range x.pipe.sent ∧
      x.pipe.executed.length + x.pipe.running.length ≤ x.pipe.arrived := by
  have hexec : ∀ ctx ∈ x.pipe.running ++ chains.flatMap Chain.ctxs, ctx.exec = true := by
    intro ctx hctx
    rcases List.mem_append.mp hctx with hctx | hctx
    · exact h.exec.running ctx hctx
    · obtain ⟨chain, hchain, hctx⟩ := List.mem_flatMap.mp hctx
      obtain ⟨i, hi, rfl⟩ := List.getElem_of_mem hchain
      have hslot := (ht.ring.stored i (Nat.lt_of_lt_of_le hi ht.ring.fits)).trans (List.getElem?_eq_getElem hi)
      exact h.exec.slots _ _ hslot ctx hctx
  have hexecuted := ht.executed
  rw [callbacks_exec hexec, h.created] at hexecuted
  refine ⟨hexecuted, ?_⟩
  have hall := congrArg List.length hexecuted
  have hwaiting := congrArg List.length ht.order
  have hle := unanswered_length (chains.flatMap Chain.ctxs)
  have harrived := ht.arrived
  rw [List.length_append, List.length_map, List.length_append, List.length_range] at hall
  rw [List.length_range'] at hwaiting
  omega

/-- The next callback is that of the first answer whose callback has not run, and finds it. -/
theorem InStep.head (h : InStep x) (hrun : x.pipe.running = ctx :: rest) :
    ctx.query = x.pipe.executed.length ∧ ctx.query < x.pipe.arrived ∧ Finds x.pipe ctx := by
  obtain ⟨chains, ht⟩ := h.tracked
  obtain ⟨horder, hcount⟩ := h.counts ht
  rw [hrun] at horder hcount
  have hquery : ctx.query = x.pipe.executed.length := by
    have hget := congrArg (fun l => l[x.pipe.executed.length]?) horder
    simp only [List.getElem?_append_right (Nat.le_refl _), Nat.sub_self, List.cons_append, List.map_cons,
      List.getElem?_cons_zero] at hget
    exact (List.getElem_of_getElem? hget.symm).elim (fun hlt heq => heq.symm.trans (List.getElem_range hlt))
  have hlt : ctx.query < x.pipe.arrived := by
    rw [List.length_cons] at hcount
    omega
  refine ⟨hquery, hlt, ?_, fun handle hkept => h.live ctx (by rw [hrun]; simp) handle hkept⟩
  intro handle
  rw [ht.delivered]
  simp only [List.mem_map, List.mem_range, Prod.mk.injEq]
  constructor
  · rintro ⟨query, -, rfl, rfl⟩
    rfl
  · rintro rfl
    exact ⟨_, hlt, rfl, rfl⟩

theorem InStep.result (h : InStep x) (res : PGresult) (hrun : x.pipe.running = [])
    (hanswer : x.pipe.arrived < x.answers.length) (hres : res.handle = x.pipe.arrived)
    (hsync : res.status ≠ .pipelineSync) :
    InStep (x.process res) ∧ (dbProcessResult x.pipe res).executed = x.pipe.executed := by
  obtain ⟨chains, ht⟩ := h.tracked
  have hsent : x.pipe.arrived < x.pipe.sent := by
    rw [h.sent]
    exact Nat.lt_of_lt_of_le hanswer h.answered
  obtain ⟨chains', -, -, -, ht', -⟩ := (hrun ▸ ht).result hrun hsent hres hsync
  obtain ⟨hcounts, harrived⟩ := dbProcessResult_counts x.pipe hsync
  obtain ⟨chain, more, finished, ctx, pending, rfl, hnext⟩ := (hrun ▸ ht).nextResult hsent
  obtain ⟨-, hanswered, hcomplete⟩ := hnext.deliver res
  have htexts := h.texts _ _ ht.ring.peek
  have hslots := dbProcessResult_eq ht.ring.peek (ht.exec chain (by simp)) hsync
  have hexec : All (fun ctx => ctx.exec = true) (dbProcessResult x.pipe res) :=
    h.exec.result res (fun c c' hc ha => ha.exec.trans hc)
  by_cases hpending : pending = []
  · subst hpending
    rw [if_pos (hcomplete.mpr rfl)] at hslots
    refine ⟨⟨⟨chains', ht'⟩, hexec, ?_, ?_, ?_, ?_, ?_, h.answered⟩, by rw [hslots]⟩
    · intro i chain' hchain'
      rw [Worker.process, hslots] at hchain'
      dsimp only [RingQueue.pop, RingQueue.replace] at hchain'
      rw [Function.update_idem] at hchain'
      exact slots_update h.texts _ (fun _ hnone => (by cases hnone)) i chain' hchain'
    · intro c hc handle hkept
      rw [Worker.process, hslots] at hc ⊢
      dsimp only at hc ⊢
      rw [hanswered] at hc
      rcases List.mem_append.mp hc with hc | hc
      · rw [htexts.empty c (by rw [hnext.split]; simp [hc])] at hkept
        cases hkept
      · obtain rfl := List.mem_singleton.mp hc
        have hempty := htexts.empty ctx (by rw [hnext.split]; simp)
        rw [((run_kept hempty).mp hkept).2]
        exact List.mem_cons_self
    · rw [Worker.process, hslots]
      exact h.created
    · exact hcounts.trans h.sent
    · exact harrived.trans_le hanswer
  · rw [if_neg (fun hc => hpending (hcomplete.mp hc))] at hslots
    refine ⟨⟨⟨chains', ht'⟩, hexec, ?_, ?_, ?_, ?_, ?_, h.answered⟩, by rw [hslots]⟩
    · rw [Worker.process, hslots]
      exact slots_update h.texts _ (fun chain' hchain' =>
        Option.some.inj hchain' ▸ htexts.answered hnext.split hpending hanswered)
    · intro c hc
      rw [Worker.process, hslots] at hc
      dsimp only at hc
      rw [hrun] at hc
      cases hc
    · rw [Worker.process, hslots]
      exact h.created
    · exact hcounts.trans h.sent
    · exact harrived.trans_le hanswer

theorem dbExecCmd_exec (db : ServerDb C) (rest : List (DbcmdCtx C)) (hexec : ctx.exec = true)
    (cmds : List (DbcmdCtx C)) :
    let db' := dbPipelineCurrentDone
      (cmds.foldl dbAsyncParams { db with executed := db.executed ++ [ctx.query] })
    (dbExecCmd db ctx rest cmds).queue = db'.queue ∧ (dbExecCmd db ctx rest cmds).executed = db'.executed ∧
      (dbExecCmd db ctx rest cmds).created = db'.created ∧ (dbExecCmd db ctx rest cmds).sent = db'.sent := by
  simp only [dbExecCmd, hexec, if_true]
  split <;> exact ⟨rfl, rfl, rfl, rfl⟩

theorem InStep.exec_step (h : InStep x) (hrun : x.pipe.running = ctx :: rest) (stmts : List Stmt)
    (hroom : Room x.pipe (.exec (stmts.map p.ctx))) (hlast : TextLast (stmts.map p.ctx)) :
    InStep (x.send (dbExecCmd x.pipe ctx rest (stmts.map p.ctx)) stmts) ∧
      (dbExecCmd x.pipe ctx rest (stmts.map p.ctx)).executed = x.pipe.executed ++ [ctx.query] := by
  obtain ⟨chains, ht⟩ := h.tracked
  have hexec : ctx.exec = true := h.exec.running ctx (by rw [hrun]; simp)
  obtain ⟨chains', -, ht', -⟩ := (hrun ▸ ht).exec_step (p.command stmts)
    (fun hne => ht.ring.count ▸ hroom hne)
  have hrunning := dbExecCmd_running x.pipe ctx rest (stmts.map p.ctx)
  have hnone : ctx.exec = false → stmts.map p.ctx = [] := fun hfalse =>
    absurd (hexec.symm.trans hfalse) (by decide)
  obtain ⟨hsent, harrived⟩ := dbExecCmd_counts rest h.current hnone
  obtain ⟨hqueue, hexecuted, hcreated, hsent'⟩ :=
    dbExecCmd_exec x.pipe rest hexec (stmts.map p.ctx)
  have hlogged : ({ x.pipe with executed := x.pipe.executed ++ [ctx.query] } : ServerDb C).current = none :=
    h.current
  obtain ⟨hlog, -, -, hrange⟩ := flush_logs hlogged (p.all_exec stmts) h.created
  refine ⟨⟨⟨chains', ?_⟩, ?_, ?_, ?_, ?_, ?_, ?_, ?_⟩, hexecuted.trans hlog⟩
  · rw [Worker.send, hrunning]
    exact ht'
  · exact h.exec.exec hrun (fun _ => numbered_exec (p.all_exec stmts))
  · rw [Worker.send, hqueue]
    exact flush_texts h.texts hlogged hlast
  · intro c hc handle hkept
    rw [Worker.send, hrunning] at hc
    rw [Worker.send, dbExecCmd_live _ _ _ (List.ne_nil_of_mem hc)]
    exact h.live c (by rw [hrun]; exact List.mem_cons_of_mem _ hc) handle hkept
  · rw [Worker.send, hcreated, hsent']
    exact hrange
  · rw [Worker.send, hsent, List.length_map, List.length_append, h.sent]
  · rw [Worker.send, harrived]
    exact h.arrived
  · exact Nat.le_trans h.answered (by simp [Worker.send])

theorem InStep.settled (h : InStep x) (harrived : x.pipe.arrived = x.pipe.sent) (hrun : x.pipe.running = []) :
    x.sent = [] ∧ x.results = [] := by
  obtain ⟨chains, ht⟩ := h.tracked
  have hexecuted := ht.inOrder.settled harrived hrun
  have hlength := congrArg List.length (hexecuted.trans h.created)
  rw [List.length_range] at hlength
  have hsent := h.sent
  have harr := h.arrived
  have hanswered := h.answered
  exact ⟨List.drop_of_length_le (by omega), List.drop_of_length_le (by omega)⟩

end Pipes

section Refinement

variable [DecidableEq W] {a : Action W A Stmt C}

/-- The step of the queues that a step of the pipelines is: none when a result only comes in. -/
def Action.fifo : Action W A Stmt C → Option (FifoAction W A)
  | .other a => some (.other a)
  | .event w _ _ => some (.event w)
  | .execute w => some (.execute w)
  | .result _ _ => none
  | .exec w _ => some (.result w)

theorem fifo_put (s : System X Stmt Res C W) (core : X) (w : W) (x : Worker Stmt Res C) :
    (s.put core w x).fifo = ⟨core, Function.update s.fifo.sent w x.sent,
      Function.update s.fifo.results w x.results⟩ := by
  rw [System.fifo, System.put, Fifo.mk.injEq]
  refine ⟨rfl, ?_, ?_⟩ <;> funext w'
  · exact Function.apply_update (fun _ => Worker.sent) s.workers w x w'
  · exact Function.apply_update (fun _ => Worker.results) s.workers w x w'

theorem inStep_put {core : X} (h : ∀ w, InStep (s.workers w)) (hx : InStep x) :
    ∀ w', InStep ((s.put core w x).workers w') :=
  (Function.forall_update_iff s.workers (fun _ x => InStep x)).mpr ⟨hx, fun w' _ => h w'⟩

theorem InStep.send_sent (h : InStep x) (pipe : ServerDb C) (stmts : List Stmt) :
    (x.send pipe stmts).sent = x.sent ++ stmts :=
  List.drop_append_of_le_length h.answered

theorem results_eq {pipe : ServerDb C} {stmts : List Stmt} (h : pipe.executed = x.pipe.executed) :
    Worker.results ⟨pipe, stmts, x.answers⟩ = x.results := by
  rw [Worker.results, Worker.results, h]

/-- With room in the rings and one text a chain, a step of the pipelines is at most one of the queues. -/
theorem FitStep.refines (h : ∀ w, InStep (s.workers w)) (hs : FitStep p s a t) :
    (∀ w, InStep (t.workers w)) ∧ (a.fifo = none → t.fifo = s.fifo) ∧
      ∀ b, a.fifo = some b → FifoStep p s.fifo b t.fifo := by
  obtain ⟨hfits, hs⟩ := hs
  cases hs with
  | other hother =>
      refine ⟨h, fun hnone => (by cases hnone), ?_⟩
      rintro b ⟨⟩
      exact .other hother
  | @event w core client stmts hrun hevent =>
      obtain ⟨hstep, hexecuted⟩ := (h w).event client stmts hrun hfits.1 hfits.2
      refine ⟨inStep_put h hstep, fun hnone => (by cases hnone), ?_⟩
      rintro b ⟨⟩
      have hresults : ((s.workers w).send (eworkerPrepEvent (s.workers w).pipe client (stmts.map p.ctx))
          stmts).results = s.fifo.results w := results_eq hexecuted
      rw [fifo_put, (h w).send_sent, hresults, Function.update_eq_self]
      exact .event hevent
  | @execute w stmt core res hstmt hexecute =>
      obtain ⟨hlt, hget⟩ := List.getElem?_eq_some_iff.mp hstmt
      have hx := h w
      have hstep : InStep ((s.workers w).answer res) :=
        ⟨hx.tracked, hx.exec, hx.texts, hx.live, hx.created, hx.sent,
          Nat.le_trans hx.arrived (by simp [Worker.answer]), (List.length_append ..).trans_le hlt⟩
      refine ⟨inStep_put h hstep, fun hnone => (by cases hnone), ?_⟩
      rintro b ⟨⟩
      have hsent : s.fifo.sent w = stmt :: ((s.workers w).answer res).sent := by
        have hdrop := List.drop_eq_getElem_cons hlt
        rw [hget] at hdrop
        rw [Worker.sent, Worker.answer, List.length_append, List.length_singleton]
        exact hdrop
      have hexecuted : (s.workers w).pipe.executed.length ≤ (s.workers w).answers.length := by
        obtain ⟨chains, ht⟩ := hx.tracked
        have hcount := (hx.counts ht).2
        have harrived := hx.arrived
        omega
      have hresults : ((s.workers w).answer res).results = s.fifo.results w ++ [res] :=
        List.drop_append_of_le_length hexecuted
      rw [fifo_put, hresults]
      exact .execute hsent hexecute
  | @result w res hrun hanswer hres hsync =>
      obtain ⟨hstep, hexecuted⟩ := (h w).result res hrun hanswer hres hsync
      refine ⟨inStep_put h hstep, fun _ => ?_, fun b hb => (by cases hb)⟩
      have hresults : ((s.workers w).process res).results = s.fifo.results w := results_eq hexecuted
      have hsent : ((s.workers w).process res).sent = s.fifo.sent w := rfl
      rw [fifo_put, hresults, hsent, Function.update_eq_self, Function.update_eq_self]
      rfl
  | @exec w ctx rest core stmts hrun hcallback =>
      obtain ⟨hstep, hexecuted⟩ := (h w).exec_step hrun stmts hfits.1 hfits.2
      obtain ⟨hquery, -, hfinds⟩ := (h w).head hrun
      refine ⟨inStep_put h hstep, fun hnone => (by cases hnone), ?_⟩
      rintro b ⟨⟩
      obtain ⟨res, hanswer, hcallback⟩ := hcallback hfinds
      obtain ⟨hlt, hget⟩ := List.getElem?_eq_some_iff.mp (hquery ▸ hanswer)
      have hresults : s.fifo.results w = res :: ((s.workers w).send
          (dbExecCmd (s.workers w).pipe ctx rest (stmts.map p.ctx)) stmts).results := by
        have hdrop := List.drop_eq_getElem_cons hlt
        rw [hget] at hdrop
        rw [Worker.results, Worker.send, hexecuted, List.length_append, List.length_singleton]
        exact hdrop
      rw [fifo_put, (h w).send_sent]
      exact .result hresults hcallback

/-- But for full rings and cleared results the pipelines are queues: what holds of every run of the program
with queues holds of its runs with pipelines in which every chain fits. -/
theorem reachable_fifo {init : System X Stmt Res C W → Prop} {init' : Fifo X Stmt Res W → Prop}
    (h0 : ∀ s, init s → (∀ w, InStep (s.workers w)) ∧ init' s.fifo) (h : Reachable init (FitStep p) s) :
    (∀ w, InStep (s.workers w)) ∧ Reachable init' (FifoStep p) s.fifo := by
  induction h with
  | start hinit => exact (h0 _ hinit).imp_right .start
  | @next s t a _ hs ih =>
      obtain ⟨hstep, hsame, hfifo⟩ := hs.refines ih.1
      refine ⟨hstep, ?_⟩
      cases hb : a.fifo with
      | none =>
          rw [hsame hb]
          exact ih.2
      | some b => exact ih.2.next (hfifo b hb)

end Refinement

section Runs

variable [DecidableEq W] {init : System X Stmt Res C W → Prop} {core : X}

def Reaches (init : System X Stmt Res C W → Prop) (p : Program X A Stmt Res C) (s : System X Stmt Res C W) :
    Prop := Reachable init (FitStep p) s

theorem textLast_nil : TextLast (([] : List Stmt).map p.ctx) := fun _ hm => (by cases hm)

theorem textLast_single (stmt : Stmt) : TextLast ([stmt].map p.ctx) := fun _ hm => (by cases hm)

theorem Reaches.other {a : A} (h : Reaches init p s) (ha : p.other s.core a core) :
    Reaches init p { s with core := core } := h.next (a := .other a) ⟨trivial, .other ha⟩

theorem Reaches.event (h : Reaches init p s) (w : W) (client : Option C) (stmts : List Stmt)
    (hrun : (s.workers w).pipe.running = []) (hroom : (s.workers w).pipe.queue.count < dbPipelineQueueSize)
    (hlast : TextLast (stmts.map p.ctx)) (hevent : p.event s.core core stmts) :
    Reaches init p (s.put core w
      ((s.workers w).send (eworkerPrepEvent (s.workers w).pipe client (stmts.map p.ctx)) stmts)) :=
  h.next (a := .event w client stmts) ⟨⟨fun _ => hroom, hlast⟩, .event _ _ hrun hevent⟩

theorem Reaches.execute {stmt : Stmt} {res : Res} (h : Reaches init p s) (w : W)
    (hstmt : (s.workers w).stmts[(s.workers w).answers.length]? = some stmt)
    (hexecute : p.execute s.core stmt core res) : Reaches init p (s.put core w ((s.workers w).answer res)) :=
  h.next (a := .execute w) ⟨trivial, .execute hstmt hexecute⟩

theorem Reaches.result (h : Reaches init p s) (w : W) (res : PGresult) (hrun : (s.workers w).pipe.running = [])
    (hanswer : (s.workers w).pipe.arrived < (s.workers w).answers.length)
    (hres : res.handle = (s.workers w).pipe.arrived) (hsync : res.status ≠ .pipelineSync) :
    Reaches init p (s.put s.core w ((s.workers w).process res)) :=
  h.next (a := .result w res) ⟨trivial, .result res hrun hanswer hres hsync⟩

/-- The rows that a query has selected. -/
theorem Reaches.tuples (h : Reaches init p s) (w : W) (rows : List (List (Option Value)))
    (hrun : (s.workers w).pipe.running = []) (hanswer : (s.workers w).pipe.arrived < (s.workers w).answers.length) :
    Reaches init p (s.put s.core w ((s.workers w).process ⟨(s.workers w).pipe.arrived, .tuplesOk, rows⟩)) :=
  h.result w _ hrun hanswer rfl nofun

theorem Reaches.commandOk (h : Reaches init p s) (w : W) (hrun : (s.workers w).pipe.running = [])
    (hanswer : (s.workers w).pipe.arrived < (s.workers w).answers.length) :
    Reaches init p (s.put s.core w ((s.workers w).process ⟨(s.workers w).pipe.arrived, .commandOk, []⟩)) :=
  h.result w _ hrun hanswer rfl nofun

theorem Reaches.exec (h : Reaches init p s) (w : W) (res : Res) (stmts : List Stmt)
    (hrun : (s.workers w).pipe.running = ctx :: rest) (hanswer : (s.workers w).answers[ctx.query]? = some res)
    (hroom : (s.workers w).pipe.queue.count < dbPipelineQueueSize) (hlast : TextLast (stmts.map p.ctx))
    (hcallback : p.callback s.core res core stmts) :
    Reaches init p (s.put core w
      ((s.workers w).send (dbExecCmd (s.workers w).pipe ctx rest (stmts.map p.ctx)) stmts)) :=
  h.next (a := .exec w stmts) ⟨⟨fun _ => hroom, hlast⟩, .exec _ hrun (fun _ => ⟨res, hanswer, hcallback⟩)⟩

end Runs

end ChityChat.PipelineFifo
