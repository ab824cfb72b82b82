import ChityChat.DbPipelineOrder
import Mathlib.Data.List.Induction

namespace ChityChat.ResultLifetime

open DbResult RingBuffer Transition DbPipeline DbPipelineOrder

variable {C : Type} {db db' : ServerDb C} {chain : Chain C} {ctx : DbcmdCtx C} {res : PGresult}
  {finished pending running : List (DbcmdCtx C)} {rs : List PGresult}

def kept (ctx : DbcmdCtx C) : Option Nat := ctx.text.bind Text.source

/-- For which results `exec_res` keeps a pointer into the result. -/
def Keeps (ctx : DbcmdCtx C) (res : PGresult) : Prop :=
  res.status = .tuplesOk ∧
    match ctx.execRes with
    | .dbGetGroupMemberIds => ctx.noJson = false ∧ pqGetvalue res 0 0 ≠ none
    | .doGetGroupMsgs => ∃ text, pqGetvalue res 0 0 = some text ∧ text.value.isEmpty = false
    | .dbDeleteMsg => pqNtuples res ≠ 0 ∧ pqGetvalue res 0 1 ≠ none
    | .getPublicGroups | .getGroupCodes | .dbGetUserJson => pqGetvalue res 0 0 ≠ none
    | _ => False

theorem pqGetvalue_source {row column : Nat} {text : Text}
    (h : pqGetvalue res row column = some text) :
    text.source = some res.handle := by
  obtain ⟨value, -, rfl⟩ := Option.map_eq_some_iff.mp h
  rfl

theorem textResult_kept (text : Option Text) (hctx : kept ctx = none) :
    kept (textResult res text ctx) = if res.status = .tuplesOk then text.bind Text.source
      else none := by
  rw [textResult]
  split
  · rfl
  · exact hctx

theorem rowsResult_kept (hctx : kept ctx = none) : kept (rowsResult res ctx) = none := by
  rw [rowsResult]
  split <;> exact hctx

theorem textResult_orLiteral (hctx : kept ctx = none) {handle : Nat} :
    kept (textResult res (some ((pqGetvalue res 0 0).getD (.literal "[]"))) ctx) = some handle ↔
      (res.status = .tuplesOk ∧ pqGetvalue res 0 0 ≠ none) ∧ handle = res.handle := by
  rw [textResult_kept _ hctx]
  cases htext : pqGetvalue res 0 0 with
  | none => simp [Text.source]
  | some text =>
      have hsource := pqGetvalue_source htext
      by_cases hstatus : res.status = .tuplesOk <;> simp [hstatus, hsource, eq_comm]

theorem doGetGroupMsgs_kept (hctx : kept ctx = none) {handle : Nat} :
    kept (doGetGroupMsgs res ctx) = some handle ↔
      (res.status = .tuplesOk ∧ ∃ text, pqGetvalue res 0 0 = some text ∧
        text.value.isEmpty = false) ∧ handle = res.handle := by
  rw [doGetGroupMsgs, textResult_kept _ hctx]
  cases htext : pqGetvalue res 0 0 with
  | none => simp [Text.source]
  | some text =>
      have hsource := pqGetvalue_source htext
      rw [Option.filter_some]
      cases hempty : text.value.isEmpty with
      | true => simp [hempty, Text.source]
      | false => by_cases hstatus : res.status = .tuplesOk <;> simp [hempty, hstatus, hsource,
          eq_comm (a := handle)]

theorem dbDeleteMsgResult_kept (hctx : kept ctx = none) {handle : Nat} :
    kept (dbDeleteMsgResult res ctx) = some handle ↔
      (res.status = .tuplesOk ∧ pqNtuples res ≠ 0 ∧ pqGetvalue res 0 1 ≠ none) ∧
        handle = res.handle := by
  rw [dbDeleteMsgResult]
  split
  · next h =>
      cases htext : pqGetvalue res 0 1 with
      | none => simp [kept]
      | some text => simp [kept, h.1, h.2, pqGetvalue_source htext, eq_comm]
  · next h =>
      rw [show kept (ctx.returns .error) = none from hctx]
      constructor
      · intro hk
        cases hk
      · rintro ⟨⟨hstatus, hrows, -⟩, -⟩
        exact absurd ⟨hstatus, hrows⟩ h

theorem dbGetUserJsonResult_kept (hctx : kept ctx = none) {handle : Nat} :
    kept (dbGetUserJsonResult res ctx) = some handle ↔
      (res.status = .tuplesOk ∧ pqGetvalue res 0 0 ≠ none) ∧ handle = res.handle := by
  rw [dbGetUserJsonResult]
  split
  · next h =>
      obtain ⟨text, htext⟩ := Option.isSome_iff_exists.mp h.2
      simp [kept, h.1, htext, pqGetvalue_source htext, eq_comm]
  · next h =>
      rw [show kept (ctx.returns .error) = none from hctx]
      constructor
      · intro hk
        cases hk
      · rintro ⟨⟨hstatus, htext⟩, -⟩
        exact absurd ⟨hstatus, Option.isSome_iff_ne_none.mpr htext⟩ h

theorem run_kept (hctx : kept ctx = none) {handle : Nat} :
    kept (ctx.execRes.run res ctx) = some handle ↔ Keeps ctx res ∧ handle = res.handle := by
  have hother : ∀ {ctx' : DbcmdCtx C}, ctx'.text = ctx.text → (kept ctx' = some handle ↔
      (res.status = .tuplesOk ∧ False) ∧ handle = res.handle) := by
    intro ctx' htext
    rw [kept, htext, show ctx.text.bind Text.source = none from hctx]
    simp
  rw [Keeps]
  cases hk : ctx.execRes with
  | dbGetGroupMemberIds =>
      simp only [ExecRes.run, dbGetGroupMemberIdsResult]
      cases hjson : ctx.noJson with
      | true => simp [rowsResult_kept hctx]
      | false => simpa using textResult_orLiteral hctx
  | doGetGroupMsgs => exact doGetGroupMsgs_kept hctx
  | dbDeleteMsg => exact dbDeleteMsgResult_kept hctx
  | getPublicGroups | getGroupCodes => exact textResult_orLiteral hctx
  | dbGetUserJson => exact dbGetUserJsonResult_kept hctx
  | joinPubGroup | dbDeleteGroupCode | delGroup | updateUser | insertUserfiles | deleteUserfile =>
      refine hother (show (commandResult res ctx).text = ctx.text from ?_)
      rw [commandResult]
      split <;> rfl
  | insertGroupMsg | createGroup | createGroupCode | userJoinGroupCode | getGroupOwner | dbGetUser | dbInsertUser
  | dbGetGroups | userfileRefcount | begin =>
      refine hother ?_
      simp only [ExecRes.run, dbGetGroupsResult, insertGroupMsgResult, createGroupResult,
        createGroupCodeResult, userJoinGroupCodeResult, getGroupOwnerResult, dbGetUserResult,
        dbInsertUserResult, userfileRefcountResult, beginResult, presentResult]
      split <;> rfl
  | getAllAttachs | getConnectedUsers =>
      refine hother ?_
      simp only [ExecRes.run, getAllAttachsResult, getConnectedUsersResult, rowsResult]
      split
      · rfl
      · split <;> rfl

theorem foldl_dbProcessResult (hslot : db.queue.slots db.queue.read = some chain)
    (hexec : chain.head.exec = true) (hsplit : chain.ctxs = finished ++ pending)
    (hdone : ∀ c ∈ finished, c.ret ≠ .busy) (hbusy : ∀ c ∈ pending, c.ret = .busy)
    (hlen : pending.length = rs.length) (hne : rs ≠ [])
    (hsync : ∀ res ∈ rs, res.status ≠ .pipelineSync) :
    (rs.foldl dbProcessResult db).running =
        finished ++ List.zipWith (fun ctx res => ctx.execRes.run res ctx) pending rs ∧
      (rs.foldl dbProcessResult db).live = (rs.getLast hne).handle :: db.live := by
  induction rs generalizing db chain finished pending with
  | nil => exact absurd rfl hne
  | cons res rs ih =>
      cases pending with
      | nil => cases hlen
      | cons ctx pending =>
          obtain ⟨chain', ⟨-, -, hhead⟩, hsplit', hround⟩ := dbProcessResult_round res hslot hexec
            hsplit hdone (hbusy ctx (by simp)) (hsync res (by simp))
          rw [List.foldl_cons, hround]
          cases rs with
          | nil =>
              obtain rfl : pending = [] := List.length_eq_zero_iff.mp (Nat.succ.inj hlen)
              rw [if_pos rfl]
              exact ⟨hsplit'.trans (List.append_nil _), rfl⟩
          | cons res' rs =>
              have hmore : pending ≠ [] := fun heq => by rw [heq] at hlen; cases hlen
              rw [if_neg hmore, List.zipWith_cons_cons, List.append_cons finished,
                List.getLast_cons_cons]
              refine ih ?_ (hhead.trans hexec) hsplit' (finished_append hdone res ctx) ?_ ?_ (by simp) ?_
              · exact Function.update_self ..
              · exact fun c hc => hbusy c (List.mem_cons_of_mem _ hc)
              · exact Nat.succ.inj hlen
              · exact fun r hr => hsync r (List.mem_cons_of_mem _ hr)

inductive Execs : ServerDb C → ServerDb C → Prop
  | refl (db : ServerDb C) : Execs db db
  | step {db db' : ServerDb C} {ctx : DbcmdCtx C} {rest : List (DbcmdCtx C)}
      (cmds : List (DbcmdCtx C))
    (h : Execs db db') (hrun : db'.running = ctx :: rest) : Execs db (dbExecCmd db' ctx rest cmds)

theorem dbAsyncParams_live (db : ServerDb C) (cmd : DbcmdCtx C) :
    (dbAsyncParams db cmd).live = db.live := by
  simp only [dbAsyncParams, dbPipelineEnqueueCurrent]
  split <;> rfl

theorem dbPipelineCurrentDone_live (db : ServerDb C) :
    (dbPipelineCurrentDone db).live = db.live := by
  unfold dbPipelineCurrentDone dbPipelineEnqueue
  split
  · rfl
  · split <;> rfl

theorem dbExecCmd_live {rest : List (DbcmdCtx C)} (db : ServerDb C) (ctx : DbcmdCtx C)
    (cmds : List (DbcmdCtx C)) (hrest : rest ≠ []) :
    (dbExecCmd db ctx rest cmds).live = db.live := by
  have hfold : ∀ db : ServerDb C, (cmds.foldl dbAsyncParams db).live = db.live := by
    induction cmds with
    | nil => exact fun _ => rfl
    | cons cmd cmds ih => exact fun db => (ih _).trans (dbAsyncParams_live db cmd)
  simp only [dbExecCmd, if_neg hrest]
  split
  · rw [dbPipelineCurrentDone_live, hfold]
  · rfl

theorem Execs.suffix (h : Execs db db') :
    db'.running <:+ db.running ∧ (db'.running ≠ [] → db'.live = db.live) := by
  induction h with
  | refl => exact ⟨List.suffix_rfl, fun _ => rfl⟩
  | step cmds _ hrun ih =>
      obtain ⟨hsuffix, hlive⟩ := ih
      rw [hrun] at hsuffix hlive
      rw [dbExecCmd_running]
      exact ⟨(List.suffix_cons _ _).trans hsuffix,
        fun hrest => (dbExecCmd_live _ _ cmds hrest).trans (hlive (List.cons_ne_nil _ _))⟩

theorem execs_reach (h : running <:+ db.running) : ∃ db', Execs db db' ∧ db'.running = running := by
  obtain ⟨before, h⟩ := h
  induction before using List.reverseRecOn generalizing running with
  | nil => exact ⟨db, .refl db, h.symm⟩
  | append_singleton before ctx ih =>
      obtain ⟨db', hexecs, hrun⟩ := ih (by rw [← h, List.append_assoc, List.singleton_append])
      exact ⟨_, .step [] hexecs hrun, dbExecCmd_running ..⟩

/-- Every callback that runs finds the result that its context points into. -/
def Safe (db : ServerDb C) : Prop :=
  ∀ db' ctx rest, Execs db db' → db'.running = ctx :: rest → ctx.exec = true →
    ∀ handle, kept ctx = some handle → handle ∈ db'.live

theorem safe_iff :
    Safe db ↔ ∀ ctx ∈ db.running, ctx.exec = true → ∀ handle, kept ctx = some handle →
      handle ∈ db.live := by
  constructor
  · intro h ctx hctx hexec handle hkept
    obtain ⟨before, rest, hsplit⟩ := List.append_of_mem hctx
    obtain ⟨db', hexecs, hrun⟩ :=
      execs_reach (show ctx :: rest <:+ db.running from ⟨before, hsplit.symm⟩)
    have hin := h db' ctx rest hexecs hrun hexec handle hkept
    rwa [hexecs.suffix.2 (by simp [hrun])] at hin
  · intro h db' ctx rest hexecs hrun hexec handle hkept
    obtain ⟨hsuffix, hlive⟩ := hexecs.suffix
    rw [hlive (by simp [hrun])]
    exact h ctx (hsuffix.subset (by simp [hrun])) hexec handle hkept

/-- Only the last context of a chain keeps a pointer into its result. -/
def LastKeeps (ctxs : List (DbcmdCtx C)) (rs : List PGresult) : Prop :=
  ∀ i ctx res, ctxs[i]? = some ctx → rs[i]? = some res → ctx.exec = true →
    Keeps ctx res → i + 1 = rs.length

structure Unanswered (chain : Chain C) : Prop where
  exec : chain.head.exec = true
  busy : ∀ ctx ∈ chain.ctxs, ctx.ret = .busy
  kept : ∀ ctx ∈ chain.ctxs, kept ctx = none

theorem numbered_kept {client : Option C} {query : Nat} {cmds : List (DbcmdCtx C)}
    (h : ∀ cmd ∈ cmds, cmd.text = none) :
    ∀ ctx ∈ numbered client query cmds, kept ctx = none := by
  induction cmds generalizing query with
  | nil => simp [numbered]
  | cons cmd cmds ih =>
      intro ctx hctx
      rcases List.mem_cons.mp hctx with rfl | hctx
      · simp [kept, h cmd (by simp)]
      · exact ih (fun c hc => h c (List.mem_cons_of_mem _ hc)) ctx hctx

theorem sentChain_unanswered {cmd : DbcmdCtx C} {cmds : List (DbcmdCtx C)}
    (hcmds : Command (cmd :: cmds)) (htext : ∀ c ∈ cmd :: cmds, c.text = none) :
    Unanswered (sentChain db cmd cmds) where
  exec := hcmds.exec cmd rfl
  busy := numbered_busy db.client db.sent hcmds.busy
  kept := numbered_kept htext

/-- Callbacks of a chain find their results if and only if no
context but the last one keeps a pointer. -/
theorem safe_iff_lastKeeps (hslot : db.queue.slots db.queue.read = some chain)
    (hchain : Unanswered chain) (hlen : rs.length = chain.ctxs.length)
    (hsync : ∀ res ∈ rs, res.status ≠ .pipelineSync) (hnodup : (rs.map PGresult.handle).Nodup)
    (hfresh : ∀ res ∈ rs, res.handle ∉ db.live) :
    Safe (rs.foldl dbProcessResult db) ↔ LastKeeps chain.ctxs rs := by
  have hne : rs ≠ [] := fun heq => by rw [heq] at hlen; cases hlen
  obtain ⟨hrunning, hlive⟩ := foldl_dbProcessResult hslot hchain.exec (List.nil_append _).symm
    (by simp) hchain.busy hlen.symm
    hne hsync
  have hlast : rs[rs.length - 1]? = some (rs.getLast hne) := by
    rw [← List.getLast?_eq_getElem?, List.getLast?_eq_some_getLast]
  rw [safe_iff, hrunning, hlive, List.nil_append]
  constructor
  · intro h i ctx res hctx hres hexec hkeeps
    have hrun := run_answered ctx.execRes res ctx
    have hmem : ctx.execRes.run res ctx ∈ List.zipWith (fun ctx res =>
      ctx.execRes.run res ctx) chain.ctxs rs :=
      List.mem_iff_getElem?.mpr ⟨i, by rw [List.getElem?_zipWith, hctx, hres]⟩
    have hkept := (run_kept (hchain.kept ctx (List.mem_of_getElem? hctx))).mpr ⟨hkeeps, rfl⟩
    rcases List.mem_cons.mp (h _ hmem (hrun.exec.trans hexec) _ hkept) with heq | hin
    · have hi := (List.getElem?_eq_some_iff.mp hres).1
      have hsame : (rs.map PGresult.handle)[i]? = (rs.map PGresult.handle)[rs.length - 1]? := by
        rw [List.getElem?_map, List.getElem?_map, hres, hlast, Option.map_some, Option.map_some,
          heq]
      have hlength := (List.getElem?_inj (by rwa [List.length_map]) hnodup).mp hsame
      omega
    · exact absurd hin (hfresh res (List.mem_of_getElem? hres))
  · intro h ctx' hctx' hexec handle hkept
    obtain ⟨i, hi⟩ := List.mem_iff_getElem?.mp hctx'
    obtain ⟨ctx, res, hctx, hres, rfl⟩ := List.getElem?_zipWith_eq_some.mp hi
    obtain ⟨hkeeps, rfl⟩ := (run_kept (hchain.kept ctx (List.mem_of_getElem? hctx))).mp hkept
    have hlength := h i ctx res hctx hres ((run_answered ctx.execRes res ctx).exec ▸ hexec) hkeeps
    rw [show rs.length - 1 = i by omega, hres] at hlast
    rw [Option.some.inj hlast]
    exact List.mem_cons_self

def getMemberIds : DbcmdCtx Nat :=
  ⟨0, none, .busy, false, 0, true, .dbGetGroupMemberIds, 0, 0, 0, none, []⟩

def getUserJson : DbcmdCtx Nat :=
  ⟨0, none, .busy, false, 0, true, .dbGetUserJson, 0, 0, 0, none, []⟩

def joinPubGroup : DbcmdCtx Nat :=
  ⟨0, none, .busy, false, 0, true, .joinPubGroup, 0, 0, 0, none, []⟩

def idsResult (handle : Nat) : PGresult := ⟨handle, .tuplesOk, [[some (.json (.array [.int 1]))]]⟩

theorem safe_iff_lastKeeps_two :
    Safe ([⟨0, .commandOk, []⟩, idsResult 1].foldl dbProcessResult
      (eworkerPrepEvent dbInit (some 7) [joinPubGroup, getMemberIds])) ∧
    ¬ Safe ([idsResult 0, ⟨1, .commandOk, []⟩].foldl dbProcessResult
      (eworkerPrepEvent dbInit (some 7) [getMemberIds, joinPubGroup])) := by
  constructor
  · have hcmd : Command [joinPubGroup, getMemberIds] :=
      ⟨by simp [joinPubGroup, getMemberIds], by simp [joinPubGroup]⟩
    refine (safe_iff_lastKeeps rfl (sentChain_unanswered hcmd (by simp [joinPubGroup, getMemberIds])) rfl
      (by simp [idsResult]) (by simp [idsResult]) (fun _ _ => List.not_mem_nil)).mpr ?_
    intro i ctx res hctx hres _ hkeeps
    obtain _ | _ | i := i
    · obtain rfl := Option.some.inj hctx
      exact hkeeps.2.elim
    · rfl
    · cases hctx
  · have hcmd : Command [getMemberIds, joinPubGroup] :=
      ⟨by simp [joinPubGroup, getMemberIds], by simp [getMemberIds]⟩
    rw [safe_iff_lastKeeps rfl (sentChain_unanswered hcmd (by simp [joinPubGroup, getMemberIds])) rfl
      (by simp [idsResult]) (by simp [idsResult]) (fun _ _ => List.not_mem_nil)]
    intro hlast
    have hzero := hlast 0 _ _ rfl rfl rfl ⟨rfl, rfl, by simp [idsResult, pqGetvalue]⟩
    simp at hzero

/-- With another command behind it, the result is cleared before the callback. -/
theorem second_command_dangles :
    ∃ db : ServerDb Nat, Reachable (fun db => db = dbInit) Step db ∧ ¬ Safe db := by
  have h0 : Reachable (fun db : ServerDb Nat => db = dbInit) Step dbInit := .start rfl
  have h1 := h0.next (.event (some 7) [getMemberIds, getUserJson] rfl
    ⟨by simp [getMemberIds, getUserJson], by simp [getMemberIds]⟩)
  have h2 := h1.next (.result ⟨0, .tuplesOk, [[some (.json (.array [.int 1]))]]⟩ rfl
    (by decide) rfl (by decide))
  have h3 := h2.next (.result ⟨1, .tuplesOk, [[some (.json (.array []))]]⟩ rfl
    (by decide) rfl (by decide))
  refine ⟨_, h3, fun hsafe => ?_⟩
  have hin : 0 ∈ [1] := hsafe _ _ _ (.refl _) rfl rfl 0 rfl
  simp at hin

end ChityChat.ResultLifetime
