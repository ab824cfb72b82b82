import ChityChat.WriteRuns

namespace ChityChat.WriteWorkers

open JsonC DbResult Schema RingBuffer Transition DbPipeline DbPipelineOrder WriteStatements
  WriteCommands WriteAuthorised WriteRuns

variable {W C : Type} [DecidableEq W] {s s' : Store} {tx tx' : Option Tx}
  {stmt : Stmt} {res : PGresult}
  {handle userId groupId : Nat} {command : ChatCommand} {issued issued' : List (Nat × ChatCommand)}
  {w : Worker C} {stmts : List Sent} {ctx : DbcmdCtx C}

def RequestedSent (s : Store) (issued : List (Nat × ChatCommand)) (sent : Sent) : Prop :=
  match sent.origin with
  | none => sent.stmt = .other ∨ ∃ username displayname, sent.stmt =
      .insertUser username displayname
  | some (userId, command) => (userId, command) ∈ issued ∧ Requested s userId command sent.stmt

/-- A context of `server_delete_group`, with the query that it
waits for, or the owner that it was told. -/
structure OwnerCtx (s : Store) (issued : List (Nat × ChatCommand)) (stmts : List Sent)
    (ctx : DbcmdCtx C) : Prop where
  issued : (ctx.userId, .deleteGroup ctx.groupId) ∈ issued
  user : 0 < ctx.userId
  asked : ctx.ret = .busy → ∃ origin, stmts[ctx.query]? = some ⟨.selectOwner ctx.groupId, origin⟩
  owner : 0 < ctx.ownerId → OwnerIs s ctx.groupId ctx.ownerId

structure WorkerOk (s : Store) (issued : List (Nat × ChatCommand)) (w : Worker C) : Prop where
  sent : w.pipe.sent = w.stmts.length
  arrived : w.pipe.arrived ≤ w.results.length
  executed : w.results.length ≤ w.stmts.length
  handles : ∀ (k : Nat) (res : PGresult), w.results[k]? = some res → res.handle = k ∧
    res.status ≠ .pipelineSync
  owners : ∀ (k groupId : Nat) origin res, w.stmts[k]? = some ⟨.selectOwner groupId, origin⟩ →
    w.results[k]? = some res → OwnerResult s groupId res
  requested : ∀ sent ∈ w.stmts, RequestedSent s issued sent
  pending : Pending w.tx (w.stmts.drop w.results.length)
  tracked : ∃ chains, Tracked w.pipe w.pipe.running chains ∧
    ∀ ctx ∈ w.pipe.running ++ chains.flatMap Chain.ctxs,
    ctx.execRes = .getGroupOwner → OwnerCtx s issued w.stmts ctx

theorem workerOk_init : WorkerOk s issued (Worker.init : Worker C) where
  sent := rfl
  arrived := Nat.le_refl _
  executed := Nat.le_refl _
  handles k res h := by cases h
  owners k groupId origin res h := by cases h
  requested := by simp [Worker.init]
  pending := Blocks.nil
  tracked := ⟨[], tracked_init, by simp [Worker.init, dbInit]⟩

theorem Requested.mono (howner : ∀ g u, OwnerIs s g u → OwnerIs s' g u)
    (h : Requested s userId command stmt) :
    Requested s' userId command stmt := by
  cases stmt with
  | delGroupMsg | delGroupMembers | delGroupCodes | delGroup => exact h.imp_right (howner _ _)
  | commit => exact h.imp fun g => And.imp_right (howner _ _)
  | _ => exact h

theorem RequestedSent.mono {sent : Sent} (hissued : ∀ c ∈ issued, c ∈ issued')
    (howner : ∀ g u, OwnerIs s g u → OwnerIs s' g u) (h : RequestedSent s issued sent) :
    RequestedSent s' issued' sent := by
  obtain ⟨stmt, origin⟩ := sent
  cases origin with
  | none => exact h
  | some origin => exact ⟨hissued _ h.1, Requested.mono howner h.2⟩

theorem OwnerCtx.mono {stmts' : List Sent} (hissued : ∀ c ∈ issued, c ∈ issued')
    (howner : ∀ g u, OwnerIs s g u → OwnerIs s' g u) (hstmts : stmts <+: stmts')
    (h : OwnerCtx s issued stmts ctx) :
    OwnerCtx s' issued' stmts' ctx where
  issued := hissued _ h.issued
  user := h.user
  asked hbusy := by
    obtain ⟨origin, hsent⟩ := h.asked hbusy
    obtain ⟨more, rfl⟩ := hstmts
    exact ⟨origin, by rw [List.getElem?_append_left (List.getElem?_eq_some_iff.mp hsent).1, hsent]⟩
  owner hpos := howner _ _ (h.owner hpos)

theorem WorkerOk.mono (hissued : ∀ c ∈ issued, c ∈ issued')
    (howner : ∀ g u, OwnerIs s g u → OwnerIs s' g u) (h : WorkerOk s issued w) :
    WorkerOk s' issued' w where
  sent := h.sent
  arrived := h.arrived
  executed := h.executed
  handles := h.handles
  owners k g origin res hsent hres hstatus hrows hpos :=
    howner _ _ (h.owners k g origin res hsent hres hstatus hrows hpos)
  requested sent hsent := (h.requested sent hsent).mono hissued howner
  pending := h.pending
  tracked := by
    obtain ⟨chains, htracked, hctxs⟩ := h.tracked
    exact ⟨chains, htracked, fun ctx hctx hkind =>
      (hctxs ctx hctx hkind).mono hissued howner List.prefix_rfl⟩

structure SendsOk (s : Store) (issued : List (Nat × ChatCommand))
    (sends : List (Sent × DbcmdCtx C)) : Prop where
  command : Command (sends.map Prod.snd)
  requested : ∀ p ∈ sends, RequestedSent s issued p.1
  blocks : Blocks (sends.map Prod.fst)
  owners : ∀ p ∈ sends, p.2.execRes = .getGroupOwner →
    p.1.stmt = .selectOwner p.2.groupId ∧ (p.2.userId, .deleteGroup p.2.groupId) ∈ issued ∧
      0 < p.2.userId ∧ p.2.ownerId = 0

theorem WorkerOk.send {sends : List (Sent × DbcmdCtx C)} {pipe : ServerDb C} (client : Option C)
    (h : WorkerOk s issued w) (hsends : SendsOk s issued sends)
    (hsent : pipe.sent = w.pipe.sent + sends.length) (harrived : pipe.arrived = w.pipe.arrived)
    (htracked : ∃ chains, Tracked pipe pipe.running chains ∧
      ∀ ctx ∈ pipe.running ++ chains.flatMap Chain.ctxs,
        (ctx.execRes = .getGroupOwner → OwnerCtx s issued w.stmts ctx) ∨
          ctx ∈ numbered client w.pipe.sent (sends.map Prod.snd)) :
    WorkerOk s issued { w with pipe := pipe, stmts := w.stmts ++ sends.map Prod.fst } where
  sent := by simp [hsent, h.sent]
  arrived := harrived ▸ h.arrived
  executed := Nat.le_trans h.executed (by simp)
  handles := h.handles
  owners k g origin res hstmt hres := by
    have hlt : k < w.stmts.length :=
      Nat.lt_of_lt_of_le (List.getElem?_eq_some_iff.mp hres).1 h.executed
    rw [List.getElem?_append_left hlt] at hstmt
    exact h.owners k g origin res hstmt hres
  requested sent hin := by
    rcases List.mem_append.mp hin with hin | hin
    · exact h.requested sent hin
    · obtain ⟨p, hp, rfl⟩ := List.mem_map.mp hin
      exact hsends.requested p hp
  pending := by
    rw [List.drop_append_of_le_length h.executed]
    exact h.pending.append hsends.blocks
  tracked := by
    obtain ⟨chains, htracked, hctxs⟩ := htracked
    refine ⟨chains, htracked, fun ctx hctx hkind => ?_⟩
    rcases hctxs ctx hctx with hold | hnew
    · exact (hold hkind).mono (fun _ hc => hc) (fun _ _ ho => ho) (List.prefix_append _ _)
    · obtain ⟨i, cmd, hcmd, rfl⟩ := numbered_mem hnew
      obtain ⟨p, hp, rfl⟩ := Option.map_eq_some_iff.mp ((List.getElem?_map ..).symm.trans hcmd)
      obtain ⟨hstmt, hissued, hpos, hzero⟩ := hsends.owners p (List.mem_of_getElem? hp) hkind
      refine ⟨hissued, hpos, fun _ => ⟨p.1.origin, ?_⟩, fun howner =>
        absurd hzero (Nat.ne_of_gt howner)⟩
      dsimp only
      rw [h.sent, List.getElem?_append_right (Nat.le_add_right _ _), Nat.add_sub_cancel_left,
        List.getElem?_map, hp, Option.map_some, ← hstmt]

theorem sendsOk_nil : SendsOk s issued ([] : List (Sent × DbcmdCtx C)) :=
  ⟨⟨by simp, by simp⟩, by simp, .nil, by simp⟩

theorem SendsOk.append {xs ys : List (Sent × DbcmdCtx C)} (hx : SendsOk s issued xs)
    (hy : SendsOk s issued ys) :
    SendsOk s issued (xs ++ ys) where
  command := by
    rw [List.map_append]
    refine ⟨fun cmd hcmd => ?_, fun cmd hcmd => ?_⟩
    · rcases List.mem_append.mp hcmd with hcmd | hcmd
      · exact hx.command.busy cmd hcmd
      · exact hy.command.busy cmd hcmd
    · cases xs with
      | nil => exact hy.command.exec cmd hcmd
      | cons x xs => exact hx.command.exec cmd hcmd
  requested p hp := (List.mem_append.mp hp).elim (hx.requested p) (hy.requested p)
  blocks := by
    rw [List.map_append]
    exact hx.blocks.append hy.blocks
  owners p hp := (List.mem_append.mp hp).elim (hx.owners p) (hy.owners p)

theorem sendsOk_single {p : Sent × DbcmdCtx C} (hbusy : p.2.ret = .busy) (hexec : p.2.exec = true)
    (hreq : RequestedSent s issued p.1) (hplain : Plain p.1.stmt)
    (howner : p.2.execRes = .getGroupOwner →
      p.1.stmt = .selectOwner p.2.groupId ∧ (p.2.userId, .deleteGroup p.2.groupId) ∈ issued ∧
        0 < p.2.userId ∧ p.2.ownerId = 0) :
    SendsOk s issued [p] where
  command := ⟨by simpa using hbusy, by simpa using hexec⟩
  requested := by simpa using hreq
  blocks := .plain hplain .nil
  owners := by simpa using howner

def RequestOk (issued : List (Nat × ChatCommand)) : Request C → Prop
  | .chat userId command => 0 < userId ∧ (userId, command) ∈ issued
  | .upload token _ => (token.userId, .groupMsg token.groupId token.content token.attachments) ∈
      issued
  | .register _ _ => True
  | .other cmds => Others cmds

theorem others_sendsOk {cmds : List (DbcmdCtx C)} (h : Others cmds) :
    SendsOk s issued (Request.other cmds).sends where
  command := by simpa [Request.sends, Function.comp_def] using h.1
  requested p hp := by
    obtain ⟨ctx, -, rfl⟩ := List.mem_map.mp hp
    exact .inl rfl
  blocks := by
    have hblocks : ∀ cmds : List (DbcmdCtx C), Blocks ((Request.other cmds).sends.map Prod.fst) := by
      intro cmds
      induction cmds with
      | nil => exact .nil
      | cons cmd cmds ih => exact .plain trivial ih
    exact hblocks cmds
  owners p hp hkind := by
    obtain ⟨ctx, hctx, rfl⟩ := List.mem_map.mp hp
    exact absurd hkind (h.2 ctx hctx)

theorem chat_sendsOk (hpos : 0 < userId) (hissued : (userId, command) ∈ issued) :
    SendsOk s issued (command.sends userId : List (Sent × DbcmdCtx C)) := by
  cases command with
  | groupMsg groupId content attachments =>
      simp only [ChatCommand.sends]
      split
      · exact sendsOk_single rfl rfl ⟨hissued, rfl⟩ trivial (fun hkind => by cases hkind)
      · exact sendsOk_nil
  | createGroupCode groupId maxUses =>
      exact sendsOk_single rfl rfl ⟨hissued, rfl, maxUses, rfl⟩ trivial
        (fun hkind => by cases hkind)
  | deleteGroup groupId =>
      exact sendsOk_single rfl rfl ⟨hissued, trivial⟩ trivial (fun _ => ⟨rfl, hissued, hpos, rfl⟩)
  | groupCreate | joinGroup | joinGroupCode | deleteGroupCode | deleteMsg =>
      exact sendsOk_single rfl rfl ⟨hissued, rfl, rfl⟩ trivial (fun hkind => by cases hkind)

theorem request_sendsOk {request : Request C} (h : RequestOk issued request) :
    SendsOk s issued request.sends := by
  cases request with
  | chat userId command => exact chat_sendsOk h.1 h.2
  | upload token attachments =>
      exact sendsOk_single rfl rfl ⟨h, rfl⟩ trivial (fun hkind => by cases hkind)
  | register username displayname =>
      exact sendsOk_single rfl rfl (.inr ⟨username, displayname, rfl⟩) trivial
        (fun hkind => by cases hkind)
  | other cmds => exact others_sendsOk h

theorem requests_sendsOk {requests : List (Request C)}
    (h : ∀ request ∈ requests, RequestOk issued request) :
    SendsOk s issued (requests.flatMap Request.sends) := by
  induction requests with
  | nil => exact sendsOk_nil
  | cons request requests ih =>
      rw [List.flatMap_cons]
      exact (request_sendsOk (h request (by simp))).append (ih fun r hr =>
        h r (List.mem_cons_of_mem _ hr))

theorem getGroupOwner_sendsOk (h : OwnerCtx s issued stmts ctx) :
    SendsOk s issued (getGroupOwner ctx) := by
  rw [getGroupOwner]
  split
  · exact sendsOk_nil
  · split
    · exact sendsOk_nil
    · next heq =>
        have heq : ctx.userId = ctx.ownerId := not_not.mp heq
        have howner : OwnerIs s ctx.groupId ctx.userId := heq ▸ h.owner (heq ▸ h.user)
        refine ⟨⟨?_, ?_⟩, ?_, .delete .nil, ?_⟩
        · simp [dbAsyncDeleteGroup, deleteGroupStmts, deleteGroupCtxs, newCtx]
        · simp [dbAsyncDeleteGroup, deleteGroupStmts, deleteGroupCtxs, newCtx]
        · simp [dbAsyncDeleteGroup, deleteGroupStmts, deleteGroupCtxs, RequestedSent, Requested,
            h.issued, howner]
        · simp [dbAsyncDeleteGroup, deleteGroupStmts, deleteGroupCtxs, newCtx]

theorem callback_sendsOk {sends : List (Sent × DbcmdCtx C)} (h : Callback ctx sends)
    (hctx : ctx.execRes = .getGroupOwner → OwnerCtx s issued stmts ctx) :
    SendsOk s issued sends := by
  rw [Callback] at h
  split at h
  · rw [h]
    exact sendsOk_nil
  · split at h
    · next hkind =>
        rw [h]
        exact getGroupOwner_sendsOk (hctx hkind)
    · obtain ⟨cmds, hothers, rfl⟩ := h
      exact others_sendsOk hothers

theorem WorkerOk.event {sends : List (Sent × DbcmdCtx C)} {client : Option C}
    (h : WorkerOk s issued w) (hrun : w.pipe.running = []) (hsends : SendsOk s issued sends)
    (hroom : sends ≠ [] → w.pipe.queue.count < dbPipelineQueueSize) :
    WorkerOk s issued (w.event client sends) := by
  obtain ⟨chains, htracked, hctxs⟩ := h.tracked
  obtain ⟨hctxSent, hctxArrived, -, hctxCurrent⟩ := eventCtx_same w.pipe client
  obtain ⟨hsent, harrived⟩ := flush_counts (hctxCurrent.trans htracked.current)
    (sends.map Prod.snd)
  rw [hrun] at htracked
  obtain ⟨chains', htracked', hall⟩ := htracked.event client hsends.command
    (fun hne => htracked.ring.count ▸ hroom fun hnil => hne (by rw [hnil]; rfl))
  have hrunning : (eworkerPrepEvent w.pipe client (sends.map Prod.snd)).running = [] :=
    (eworkerPrepEvent_running htracked.current client _).trans hrun
  refine h.send (eventCtx w.pipe client).client hsends
    (hsent.trans (by rw [hctxSent, List.length_map])) (harrived.trans hctxArrived) ⟨chains', ?_, ?_⟩
  · rw [hrunning]
    exact htracked'
  · intro ctx hctx
    rw [hrunning, List.nil_append, hall] at hctx
    refine (List.mem_append.mp hctx).imp (fun hold => hctxs ctx (List.mem_append_right _ hold)) id

theorem WorkerOk.exec {sends : List (Sent × DbcmdCtx C)} {rest : List (DbcmdCtx C)}
    (h : WorkerOk s issued w) (hrun : w.pipe.running = ctx :: rest) (hsends : Callback ctx sends)
    (hroom : sends ≠ [] → w.pipe.queue.count < dbPipelineQueueSize) :
    WorkerOk s issued (w.exec ctx rest sends) := by
  obtain ⟨chains, htracked, hctxs⟩ := h.tracked
  have hok := callback_sendsOk hsends (hctxs ctx (by simp [hrun]))
  have hnone : ctx.exec = false → sends.map Prod.snd = [] := by
    intro hexec
    rw [Callback, if_pos hexec] at hsends
    rw [hsends]
    rfl
  obtain ⟨hsent, harrived⟩ := dbExecCmd_counts rest htracked.current hnone
  rw [hrun] at htracked
  obtain ⟨chains', sent', htracked', hsent', hall⟩ := htracked.exec_step hok.command
    (fun hne => htracked.ring.count ▸ hroom fun hnil => hne (by rw [hnil]; rfl))
  have hrunning := dbExecCmd_running w.pipe ctx rest (sends.map Prod.snd)
  refine h.send w.pipe.client hok (by simpa using hsent) harrived ⟨chains', ?_, ?_⟩
  · rw [hrunning]
    exact htracked'
  · intro c hc
    rw [hrunning, hall, ← List.append_assoc] at hc
    rcases List.mem_append.mp hc with hold | hnew
    · refine .inl (hctxs c ?_)
      rw [hrun]
      exact List.mem_cons_of_mem _ hold
    · rcases hsent' with rfl | rfl
      · cases hnew
      · exact .inr hnew

theorem WorkerOk.deliver (h : WorkerOk s issued w) (hrun : w.pipe.running = [])
    (hres : w.results[w.pipe.arrived]? = some res) :
    WorkerOk s issued { w with pipe := dbProcessResult w.pipe res } := by
  obtain ⟨chains, htracked, hctxs⟩ := h.tracked
  obtain ⟨hhandle, hsync⟩ := h.handles _ _ hres
  have hlt := (List.getElem?_eq_some_iff.mp hres).1
  obtain ⟨hsent, harrived⟩ := dbProcessResult_counts w.pipe hsync
  rw [hrun] at htracked
  obtain ⟨chains', before, ctx, after, htracked', hbusy, hquery, hbefore, hafter⟩ :=
    htracked.result hrun
    (by rw [h.sent]; exact Nat.lt_of_lt_of_le hlt h.executed) hhandle hsync
  rw [hrun, List.nil_append, hbefore] at hctxs
  refine { h with
    sent := hsent.trans h.sent, arrived := harrived ▸ hlt, tracked := ⟨chains', htracked', ?_⟩ }
  intro c hc hkind
  dsimp only at hc ⊢
  rw [hafter] at hc
  rcases List.mem_append.mp hc with hc | hc
  · exact hctxs c (List.mem_append_left _ hc) hkind
  · rcases List.mem_cons.mp hc with rfl | hc
    · -- The context that the result went to.
      rw [(run_answered _ res ctx).execRes] at hkind
      have hctx := hctxs ctx (by simp) hkind
      obtain ⟨origin, hstmt⟩ := hctx.asked hbusy
      rw [hquery] at hstmt
      have hresult := h.owners _ _ _ _ hstmt hres
      have hret := (run_answered ctx.execRes res ctx).ret
      rw [hkind] at hret ⊢
      simp only [ExecRes.run, getGroupOwnerResult] at hret ⊢
      split at hret
      · next hok =>
          rw [if_pos hok]
          exact ⟨hctx.issued, hctx.user, fun hb => absurd hb hret, fun hpos =>
            hresult hok.1 hok.2 hpos⟩
      · next hbad =>
          rw [if_neg hbad]
          exact ⟨hctx.issued, hctx.user, fun hb => absurd hb hret, hctx.owner⟩
    · exact hctxs c (List.mem_append_right _ (List.mem_cons_of_mem _ hc)) hkind

theorem run_status {now code : String} {status : ExecStatusType} {rows : List (List (Option Value))}
    (h : stmt.run s now code = some (s', status, rows)) : status ≠ .pipelineSync := by
  rintro rfl
  cases stmt <;> simp [Stmt.run] at h

theorem txRun_status {t t' : Tx} {status : ExecStatusType} {rows : List (List (Option Value))}
    (h : t.run s stmt = some (t', status, rows)) : status ≠ .pipelineSync := by
  rintro rfl
  cases stmt <;> simp [Tx.run] at h

theorem execute_res (h : Execute handle s tx stmt res s' tx') :
    res.handle = handle ∧ res.status ≠ .pipelineSync := by
  cases h with
  | run now code hrun hs' => exact ⟨rfl, run_status hrun⟩
  | inside hok hrun => exact ⟨rfl, txRun_status hrun⟩
  | other hres hsync => exact ⟨hres, hsync⟩
  | error | begin | fail | commit | rollback => exact ⟨rfl, by simp⟩

theorem of_getElem?_concat {α : Type} {xs : List α} {x y : α} {k : Nat}
    (h : (xs ++ [x])[k]? = some y) :
    xs[k]? = some y ∨ k = xs.length ∧ y = x := by
  rw [List.getElem?_append] at h
  split at h
  · exact .inl h
  · next hge =>
      obtain ⟨hlt, rfl⟩ := List.getElem?_eq_some_iff.mp h
      rw [List.length_singleton] at hlt
      exact .inr ⟨by omega, List.getElem_singleton hlt⟩

theorem WorkerOk.execute {sent : Sent} (hs : Stored s) (h : WorkerOk s issued w)
    (hsent : w.stmts[w.results.length]? = some sent)
    (hexec : Execute w.results.length s w.tx sent.stmt res s' tx') :
    WorkerOk s' issued { w with results := w.results ++ [res], tx := tx' } := by
  have hlt := (List.getElem?_eq_some_iff.mp hsent).1
  have hpending := h.pending
  rw [List.drop_eq_getElem_cons hlt, (List.getElem?_eq_some_iff.mp hsent).2] at hpending
  have hlater := h.mono (fun _ hc => hc) (fun _ _ howner => OwnerIs.execute howner hexec)
  refine { hlater with
    arrived := Nat.le_trans h.arrived (by simp)
    executed := by rw [List.length_append]; exact hlt
    pending := by simpa using hpending.execute hexec
    handles := fun k res' hres' => ?_
    owners := fun k groupId origin res' hstmt hres' => ?_ }
  · rcases of_getElem?_concat hres' with hold | ⟨rfl, rfl⟩
    · exact h.handles k res' hold
    · exact execute_res hexec
  · rcases of_getElem?_concat hres' with hold | ⟨rfl, rfl⟩
    · exact hlater.owners k groupId origin res' hstmt hold
    · rw [hsent] at hstmt
      obtain rfl := Option.some.inj hstmt
      exact selectOwner_ownerResult hs hexec

end ChityChat.WriteWorkers
