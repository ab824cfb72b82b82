import ChityChat.DbPipelineOrder

namespace ChityChat.Callbacks

open DbResult RingBuffer DbPipeline DbPipelineOrder

variable {C : Type}

inductive Exec
  | doGroupBroadcast
  | doClientGroups
  | getAllGroupsResult
  | joinGroupResult
  | doGroupMsg
  | doGetGroupMsgs
  | createGroupCodeResult
  | joinGroupCodeResult
  | getGroupCodesResult
  | deleteGroupCodeResult
  | deleteMsgResult
  | deleteGroupResult
  | getGroupOwner
  | doGetGroupMemberIds
  | doRtusmBroadcast
  | doGetUsers
  | doClientLoginSession
  | doClientLogin
  | doClientRegister
  | doSaveFileImg
  | doDeleteFile
  | updatePfpResult
  | doInsertMsgAfter
  deriving DecidableEq

def Exec.errmsgs : Exec → List String
  | doClientGroups => ["Failed to get groups"]
  | getAllGroupsResult => ["Failed to get public groups"]
  | joinGroupResult => ["Failed to join group"]
  | doGroupMsg => ["Failed to insert message"]
  | doGetGroupMsgs => ["Failed to get group messages"]
  | createGroupCodeResult => ["Failed to create group code"]
  | joinGroupCodeResult => ["Failed to join group"]
  | getGroupCodesResult => ["Failed to get group codes"]
  | deleteGroupCodeResult => ["Failed to delete group code"]
  | deleteMsgResult => ["Failed to delete message"]
  | deleteGroupResult => ["Failed to delete group"]
  | getGroupOwner =>
      ["Failed to get group owner", "Not group owner", "Error: async-delete-group"]
  | doGetGroupMemberIds => ["Failed to get group member IDs"]
  | doGetUsers => ["Failed to get users"]
  | doClientLoginSession => ["Could not find user from session", "Someone else already logged in"]
  | doClientLogin =>
      ["Incorrect Username or Password", "Internal error: ctx->data",
        "Someone else already logged in"]
  | doClientRegister => ["Username already taken", "Someone else already logged in"]
  | doSaveFileImg => ["Internal error", "Failed to save image"]
  | doGroupBroadcast | doRtusmBroadcast | doDeleteFile | updatePfpResult | doInsertMsgAfter => []

def Exec.issues : Exec → List Exec
  | joinGroupResult | joinGroupCodeResult => [.doClientGroups, .doGroupBroadcast]
  | doGroupMsg | doInsertMsgAfter => [.doGroupBroadcast]
  | deleteMsgResult => [.doDeleteFile, .doGroupBroadcast]
  | deleteGroupResult => [.doDeleteFile]
  | getGroupOwner => [.deleteGroupResult]
  | updatePfpResult => [.doDeleteFile, .doRtusmBroadcast]
  | _ => []

/-- A context as it is handed to `db_async_params`, and the client whose `dbuser_t` its parameter
points to. -/
structure Issue (C : Type) where
  cmd : DbcmdCtx C
  exec : Option Exec
  user : Option C

structure Tag (C : Type) where
  exec : Option Exec
  user : Option C
  requester : Option C

def Issue.tag (issue : Issue C) (requester : Option C) : Tag C :=
  ⟨issue.exec, issue.user, requester⟩

/-- An error packet, or none when there is no client to send it to. -/
structure Reply (C : Type) where
  requester : Option C
  sentTo : Option C
  errmsg : String

/-- A worker with the tags of its queries and the errors so far. -/
structure Worker (C : Type) where
  db : ServerDb C
  tags : Nat → Tag C
  replies : List (Reply C)

def Worker.issue (x : Worker C) (db : ServerDb C) (requester : Option C) (issues : List (Issue C)) :
    Worker C :=
  { x with
    db := db
    tags := fun q => if q < x.db.sent then x.tags q
      else (issues[q - x.db.sent]?).elim ⟨none, none, none⟩ (fun issue => issue.tag requester) }

/-- `db_exec_cmd` sends an error to the client of the context. -/
def Worker.reply (x : Worker C) (ctx : DbcmdCtx C) (errmsg : Option String) : Worker C :=
  { x with replies :=
      x.replies ++ errmsg.toList.map (fun msg => ⟨(x.tags ctx.query).requester, ctx.client, msg⟩) }

/-- Handlers leave the client of a context to the pipeline. An event that `se_read_client` does not
handle is a disconnect, at most. -/
def Handler (client : Option C) (issue : Issue C) : Prop :=
  issue.cmd.client = none ∧
    (client = none → ∀ k ∈ issue.exec, k = .doRtusmBroadcast)

/-- So do callbacks, but for the groups of `on_user_group_join`. -/
def Callback (ctx : DbcmdCtx C) (k : Exec) (issue : Issue C) : Prop :=
  ∀ k' ∈ issue.exec, k' ∈ k.issues ∧
    issue.cmd.client = if k' = .doClientGroups then ctx.client else none

inductive Action (C : Type)
  | event (client : Option C) (issues : List (Issue C))
  | result (res : PGresult)
  | exec (issues : List (Issue C)) (errmsg : Option String)
  | skip

/-- A worker, as in `DbPipeline.Step`, with the callbacks of the program. -/
inductive Step : Worker C → Action C → Worker C → Prop
  | event {x : Worker C} (client : Option C) (issues : List (Issue C)) (hrun : x.db.running = [])
      (hcmds : Command (issues.map Issue.cmd)) (hissues : ∀ issue ∈ issues, Handler client issue) :
    Step x (.event client issues)
      (x.issue (eworkerPrepEvent x.db client (issues.map Issue.cmd)) client issues)
  | result {x : Worker C} (res : PGresult) (hrun : x.db.running = [])
      (hsent : x.db.arrived < x.db.sent) (hres : res.handle = x.db.arrived)
      (hsync : res.status ≠ .pipelineSync) :
    Step x (.result res) { x with db := dbProcessResult x.db res }
  | exec {x : Worker C} {ctx : DbcmdCtx C} {rest : List (DbcmdCtx C)} {k : Exec}
      (issues : List (Issue C)) (errmsg : Option String) (hrun : x.db.running = ctx :: rest)
      (hexec : ctx.exec = true) (hk : (x.tags ctx.query).exec = some k)
      (hcmds : Command (issues.map Issue.cmd)) (hissues : ∀ issue ∈ issues, Callback ctx k issue)
      (herr : ∀ msg ∈ errmsg, msg ∈ k.errmsgs) :
    Step x (.exec issues errmsg)
      ((x.reply ctx errmsg).issue (dbExecCmd x.db ctx rest (issues.map Issue.cmd))
        (x.tags ctx.query).requester issues)
  | skip {x : Worker C} {ctx : DbcmdCtx C} {rest : List (DbcmdCtx C)}
      (hrun : x.db.running = ctx :: rest) (hexec : ctx.exec = false) :
    Step x .skip { x with db := dbExecCmd x.db ctx rest [] }

structure Initial (x : Worker C) : Prop where
  db : x.db = dbInit
  replies : x.replies = []

variable {x : Worker C} {db : ServerDb C} {ctx : DbcmdCtx C} {rest cmds : List (DbcmdCtx C)}
  {Q : Tag C → Option C → Prop}

theorem issues_fail {k k' : Exec} (h : k' ∈ k.issues) (hfail : k'.errmsgs ≠ []) :
    k.errmsgs ≠ [] ∧ k ≠ .deleteGroupResult ∧ (k' = .deleteGroupResult ∨ k' = .doClientGroups) := by
  cases k <;> simp only [Exec.issues, List.mem_cons, List.not_mem_nil, or_false] at h
  case joinGroupResult | joinGroupCodeResult =>
    rcases h with rfl | rfl
    · exact ⟨List.cons_ne_nil _ _, nofun, .inr rfl⟩
    · exact absurd rfl hfail
  case getGroupOwner => exact ⟨List.cons_ne_nil _ _, nofun, .inl h⟩
  case deleteMsgResult | updatePfpResult =>
    rcases h with rfl | rfl <;> exact absurd rfl hfail
  case doGroupMsg | doInsertMsgAfter | deleteGroupResult =>
    subst h
    exact absurd rfl hfail

structure All (P : DbcmdCtx C → Prop) (db : ServerDb C) : Prop where
  current : db.current = none
  slots : ∀ i chain, db.queue.slots i = some chain → ∀ ctx ∈ chain.ctxs, P ctx
  running : ∀ ctx ∈ db.running, P ctx

theorem All.mono {P Q : DbcmdCtx C → Prop} (h : All P db) (hpq : ∀ ctx, P ctx → Q ctx) :
    All Q db :=
  ⟨h.current, fun i chain hi ctx hctx => hpq ctx (h.slots i chain hi ctx hctx),
    fun ctx hctx => hpq ctx (h.running ctx hctx)⟩

theorem mem_answer {res : PGresult} {first : DbcmdCtx C} {next : List (DbcmdCtx C)}
    (h : ctx ∈ (answer res first next).ctxs) :
    ∃ c ∈ first :: next, ctx = c ∨ Answered c ctx := by
  induction next generalizing first with
  | nil =>
      rw [answer, Chain.ctxs, List.mem_singleton] at h
      exact ⟨first, by simp, .inr (h ▸ run_answered _ res first)⟩
  | cons second more ih =>
      rw [answer] at h
      split at h
      · rcases List.mem_cons.mp h with rfl | h
        · exact ⟨ctx, by simp, .inl rfl⟩
        · obtain ⟨c, hc, hsame⟩ := ih h
          exact ⟨c, List.mem_cons_of_mem _ hc, hsame⟩
      · rcases List.mem_cons.mp h with rfl | h
        · exact ⟨first, by simp, .inr (run_answered _ res first)⟩
        · exact ⟨ctx, List.mem_cons_of_mem _ h, .inl rfl⟩

theorem slots_update {P : DbcmdCtx C → Prop} {slots : Nat → Option (Chain C)}
    (h : ∀ i chain, slots i = some chain → ∀ ctx ∈ chain.ctxs, P ctx) (j : Nat)
    {slot : Option (Chain C)} (hslot : ∀ chain, slot = some chain → ∀ ctx ∈ chain.ctxs, P ctx) :
    ∀ i chain, Function.update slots j slot i = some chain → ∀ ctx ∈ chain.ctxs, P ctx :=
  (Function.forall_update_iff slots
    (fun _ slot => ∀ chain, slot = some chain → ∀ ctx ∈ chain.ctxs, P ctx)).mpr
    ⟨hslot, fun i _ => h i⟩

theorem All.push {P : DbcmdCtx C → Prop} (h : All P db) {chain : Chain C}
    (hchain : ∀ ctx ∈ chain.ctxs, P ctx) :
    ∀ i c, (dbPipelineEnqueue db chain).2.queue.slots i = some c → ∀ ctx ∈ c.ctxs, P ctx := by
  rw [dbPipelineEnqueue]
  split
  · exact h.slots
  · exact slots_update h.slots _ (fun c hc => Option.some.inj hc ▸ hchain)

theorem All.flush {P : DbcmdCtx C → Prop} (h : All P db)
    (hcmds : ∀ ctx ∈ numbered db.client db.sent cmds, P ctx) :
    All P (dbPipelineCurrentDone (cmds.foldl dbAsyncParams db)) := by
  cases cmds with
  | nil =>
      rw [List.foldl_nil, dbPipelineCurrentDone, h.current]
      exact h
  | cons cmd cmds =>
      rw [flush_eq h.current]
      have hchain : ∀ ctx ∈ (sentChain db cmd cmds).ctxs, P ctx := hcmds
      exact ⟨h.current, h.push hchain, h.running⟩

theorem All.event {P : DbcmdCtx C → Prop} (h : All P db) (client : Option C)
    (hcmds : ∀ ctx ∈ numbered (eventCtx db client).client db.sent cmds, P ctx) :
    All P (eworkerPrepEvent db client cmds) := by
  cases client with
  | none => exact h.flush hcmds
  | some client =>
      have hset : All P (dbPipelineSetCtx db (some client)) := ⟨h.current, h.slots, h.running⟩
      exact hset.flush hcmds

theorem All.exec {P : DbcmdCtx C → Prop} (h : All P db) (hrun : db.running = ctx :: rest)
    (hcmds : ctx.exec = true → ∀ c ∈ numbered db.client db.sent cmds, P c) :
    All P (dbExecCmd db ctx rest cmds) := by
  have hrest : ∀ c ∈ rest, P c := fun c hc =>
    h.running c (by rw [hrun]; exact List.mem_cons_of_mem _ hc)
  simp only [dbExecCmd]
  cases hexec : ctx.exec with
  | false =>
      simp only [Bool.false_eq_true, if_false]
      split <;> exact ⟨h.current, h.slots, hrest⟩
  | true =>
      have hlogged : All P { db with executed := db.executed ++ [ctx.query] } :=
        ⟨h.current, h.slots, h.running⟩
      have hdone := hlogged.flush (hcmds hexec)
      simp only [if_true]
      split <;> exact ⟨hdone.current, hdone.slots, hrest⟩

theorem All.result {P : DbcmdCtx C → Prop} (h : All P db) (res : PGresult)
    (hsame : ∀ c c', P c → Answered c c' → P c') : All P (dbProcessResult db res) := by
  simp only [dbProcessResult]
  split
  · exact ⟨h.current, h.slots, h.running⟩
  · split
    · exact ⟨h.current, h.slots, h.running⟩
    · next chain hpeek =>
        have hslot := (Option.filter_eq_some_iff.mp hpeek).1
        have hanswer : ∀ c ∈ (answer res chain.head chain.next).ctxs, P c := by
          intro c hc
          obtain ⟨c', hc', heq⟩ := mem_answer hc
          have hold := h.slots _ _ hslot c' hc'
          rcases heq with rfl | hanswered
          · exact hold
          · exact hsame _ _ hold hanswered
        have hreplaced : ∀ i c, (db.queue.replace (answer res chain.head chain.next)).slots i =
            some c → ∀ ctx ∈ c.ctxs, P ctx :=
          slots_update h.slots _ (fun c hc => Option.some.inj hc ▸ hanswer)
        have hnone : ∀ c : Chain C, none = some c → ∀ ctx ∈ c.ctxs, P ctx := by
          intro c hc
          cases hc
        split
        · exact ⟨h.current, slots_update hreplaced _ hnone, hanswer⟩
        · exact ⟨h.current, hreplaced, h.running⟩

def Tagged (Q : Tag C → Option C → Prop) (x : Worker C) : Prop :=
  All (fun ctx => ctx.query < x.db.sent ∧ Q (x.tags ctx.query) ctx.client) x.db

theorem Tagged.running (h : Tagged Q x) (hrun : x.db.running = ctx :: rest) :
    Q (x.tags ctx.query) ctx.client :=
  (All.running h ctx (by rw [hrun]; exact List.mem_cons_self)).2

theorem tagged_initial (h : Initial x) : Tagged Q x := by
  rw [Tagged, h.db]
  refine ⟨rfl, fun i chain hi => ?_, by simp [dbInit]⟩
  simp [dbInit, RingQueue.empty] at hi

theorem Tagged.issue_old (h : Tagged Q x) (requester : Option C) (issues : List (Issue C))
    (hsent : x.db.sent ≤ db.sent) :
    All (fun ctx => ctx.query < db.sent ∧
      Q ((x.issue db requester issues).tags ctx.query) ctx.client) x.db := by
  refine All.mono h (fun ctx hctx => ⟨Nat.lt_of_lt_of_le hctx.1 hsent, ?_⟩)
  simp only [Worker.issue, if_pos hctx.1]
  exact hctx.2

theorem issue_new {client requester : Option C} {issues : List (Issue C)}
    (hsent : db.sent = x.db.sent + issues.length)
    (hissues : ∀ issue ∈ issues, Q (issue.tag requester) (issue.cmd.client.or client)) :
    ∀ ctx ∈ numbered client x.db.sent (issues.map Issue.cmd), ctx.query < db.sent ∧
      Q ((x.issue db requester issues).tags ctx.query) ctx.client := by
  intro ctx hctx
  obtain ⟨i, cmd, hcmd, rfl⟩ := numbered_mem hctx
  rw [List.getElem?_map] at hcmd
  obtain ⟨issue, hissue, rfl⟩ := Option.map_eq_some_iff.mp hcmd
  have hlt : i < issues.length := (List.getElem?_eq_some_iff.mp hissue).1
  have hnew : ¬ x.db.sent + i < x.db.sent := by omega
  refine ⟨by dsimp only; omega, ?_⟩
  simp only [Worker.issue, if_neg hnew, Nat.add_sub_cancel_left, hissue, Option.elim_some]
  exact hissues issue (List.mem_of_getElem? hissue)

theorem Tagged.event {client : Option C} {issues : List (Issue C)} (h : Tagged Q x)
    (hissues : ∀ issue ∈ issues,
      Q (issue.tag client) (issue.cmd.client.or (eventCtx x.db client).client)) :
    Tagged Q (x.issue (eworkerPrepEvent x.db client (issues.map Issue.cmd)) client issues) := by
  obtain ⟨hctxSent, -, -, hctxCurrent⟩ := eventCtx_same x.db client
  have hsent : (eworkerPrepEvent x.db client (issues.map Issue.cmd)).sent =
      x.db.sent + issues.length := by
    rw [eworkerPrepEvent, (flush_counts (hctxCurrent.trans (All.current h)) _).1, hctxSent,
      List.length_map]
  have hold := h.issue_old client issues (hsent ▸ Nat.le_add_right _ _)
  exact hold.event client (issue_new hsent hissues)

theorem Tagged.exec {errmsg : Option String} {issues : List (Issue C)} (h : Tagged Q x)
    (hrun : x.db.running = ctx :: rest) (hexec : ctx.exec = true)
    (hissues : ∀ issue ∈ issues, Q (issue.tag (x.tags ctx.query).requester)
      (issue.cmd.client.or x.db.client)) :
    Tagged Q ((x.reply ctx errmsg).issue (dbExecCmd x.db ctx rest (issues.map Issue.cmd))
      (x.tags ctx.query).requester issues) := by
  have hsent : (dbExecCmd x.db ctx rest (issues.map Issue.cmd)).sent =
      x.db.sent + issues.length := by
    rw [(dbExecCmd_counts rest (All.current h) (by simp [hexec])).1, List.length_map]
  have hold := h.issue_old (x.tags ctx.query).requester issues (hsent ▸ Nat.le_add_right _ _)
  exact hold.exec hrun (fun _ => issue_new hsent hissues)

theorem Tagged.skip (h : Tagged Q x) (hrun : x.db.running = ctx :: rest)
    (hexec : ctx.exec = false) : Tagged Q { x with db := dbExecCmd x.db ctx rest [] } := by
  have hsent : (dbExecCmd x.db ctx rest []).sent = x.db.sent :=
    (dbExecCmd_counts rest (All.current h) (fun _ => rfl)).1
  have hall : All (fun c => c.query < x.db.sent ∧ Q (x.tags c.query) c.client)
      (dbExecCmd x.db ctx rest []) :=
    All.exec h hrun (fun htrue => by rw [hexec] at htrue; cases htrue)
  exact hall.mono (fun ctx hctx => ⟨hsent ▸ hctx.1, hctx.2⟩)

theorem Tagged.result (h : Tagged Q x) {res : PGresult} (hsync : res.status ≠ .pipelineSync) :
    Tagged Q { x with db := dbProcessResult x.db res } := by
  have hsent : (dbProcessResult x.db res).sent = x.db.sent := (dbProcessResult_counts x.db hsync).1
  have hall := All.result h res (fun c c' hc hanswered => by
    rw [hanswered.query, hanswered.client]
    exact hc)
  exact hall.mono (fun ctx hctx => ⟨hsent ▸ hctx.1, hctx.2⟩)

end ChityChat.Callbacks
