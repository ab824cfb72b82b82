import ChityChat.MemberAgreement
import ChityChat.PipelineFifo
import ChityChat.UnopenedJoin

namespace ChityChat.MemberPipeline

open DbResult Transition DbPipeline WebClient MemberSync PipelineFifo
open JoinGroup (PublicGroup)
open WriteStatements (Stored)
open UnopenedJoin (joins)

variable {W : Type} [DecidableEq W] {me : Nat}

def Stmt.execRes : Stmt → ExecRes
  | .userGroups | .group .. => .dbGetGroups
  | .memberIds .. | .announce .. | .broadcast .. => .dbGetGroupMemberIds
  | .userArray .. => .dbGetUserJson
  | .joinPubGroup .. => .joinPubGroup
  | .joinGroupCode .. => .userJoinGroupCode
  | .createGroup .. => .createGroup
  | .insertUser .. => .dbInsertUser
  | .connectedUsers .. => .getConnectedUsers
  | .groupMsgs .. => .doGetGroupMsgs
  | .insertMsg .. => .insertGroupMsg
  | .deleteMsg .. => .dbDeleteMsg
  | .other execRes _ => execRes

/-- `DB_CTX_NO_JSON`, which `server_group_broadcast` sets. -/
def Stmt.noJson : Stmt → Bool
  | .announce .. | .broadcast .. => true
  | .other _ noJson => noJson
  | _ => false

def ctx (stmt : Stmt) : DbcmdCtx Nat :=
  ⟨0, none, .busy, Stmt.noJson stmt, 0, true, Stmt.execRes stmt, 0, 0, 0, none, []⟩

theorem ctx_ret (stmt : Stmt) : (ctx stmt).ret = .busy := rfl

theorem ctx_exec (stmt : Stmt) : (ctx stmt).exec = true := rfl

theorem ctx_text (stmt : Stmt) : (ctx stmt).text = none := rfl

/-- The steps without a worker's pipeline. -/
inductive Alone
  | select (groupId : Int)
  | scroll (groupId : Int)
  | deliver
  | packet (packet : Packet)

inductive AloneStep : Core → Alone → Core → Prop
  | select (s : Core) (groupId : Int) :
      AloneStep s (.select groupId) { s with app := s.app.exec (.select groupId) }
  | scroll (s : Core) (groupId : Int) :
      AloneStep s (.scroll groupId) { s with app := s.app.exec (.scroll groupId) }
  | deliver {s : Core} {packet : Packet} {rest : List Packet} (h : s.channel = packet :: rest) :
      AloneStep s .deliver (s.delivered packet rest)
  | packet {s : Core} {packet : Packet} (h : Neutral s.store packet) :
      AloneStep s (.packet packet) (s.emit [packet])

/-- What the handlers of one event send: the next requests of the client, and commands of anybody. -/
inductive Handles : Core → Core → List Stmt → Prop
  | nil (s : Core) : Handles s s []
  | serve {s t : Core} {r : Request} {stmts : List Stmt} (online : Int → Option UserInfo)
      (h : s.app.sent[s.handled]? = some r) (honline : ∀ id info, online id = some info → info.userId = id)
      (hrest : Handles (s.served online r) t stmts) : Handles s t ((handler online r).stmts ++ stmts)
  | command {s t : Core} {stmt : Stmt} {stmts : List Stmt} (h : stmt.ofOthers = true)
      (hrest : Handles s t stmts) : Handles s t (stmt :: stmts)

/-- A callback may first send commands that have nothing to do with members and messages, as those that
delete files. -/
inductive Calls (me : Nat) : Core → Result → Core → List Stmt → Prop
  | intro (s : Core) (res : Result) {stmts : List Stmt} (h : ∀ stmt ∈ stmts, stmt.ofOthers = true) :
      Calls me s res (s.emit (callback me res).packets) (stmts ++ (callback me res).stmts)

/-- Nobody joins a group that is not public by its number. -/
inductive Executes (me : Nat) : Core → Stmt → Core → Result → Prop
  | intro {s : Core} {stmt : Stmt} {store : WriteStatements.Store} {res : Result}
      (hrun : Runs me s.store stmt store res)
      (hpub : ∀ userId groupId, stmt = .joinPubGroup userId groupId → PublicGroup s.store groupId) :
      Executes me s stmt { s with store := store } res

def program (me : Nat) : Program Core Alone Stmt Result Nat where
  ctx := ctx
  busy := ctx_ret
  exec := ctx_exec
  text := ctx_text
  other := AloneStep
  event := Handles
  execute := Executes me
  callback := Calls me

abbrev Server (W : Type) := System Core Stmt Result Nat W

abbrev ServerStep (me : Nat) (s : Server W) (a : PipelineFifo.Action W Alone Stmt Nat) (t : Server W) : Prop :=
  FitStep (program me) s a t

/-- The client is behind its login, and of the queries of others some may be under way. -/
structure Initial (me : Nat) (s : Server W) : Prop where
  stored : Stored s.core.store
  app : ∃ urlGroup storedGroup info, info.userId = (me : Int) ∧ s.core.app =
    ((App.start urlGroup storedGroup).exec (.packet .session)).exec (.packet (.clientUserInfo info))
  handled : s.core.handled = 1
  channel : s.core.channel = []
  loaded : ∀ groupId, s.core.loaded groupId = false
  workers : ∀ w, InStep (s.workers w)
  sent : ∀ w, ∀ stmt ∈ (s.workers w).sent, stmt.ofOthers = true
  results : ∀ w, (s.workers w).results = []

def member (f : Fifo Core Stmt Result W) : State W := ⟨f.core, f.sent, f.results⟩

section Simulation

variable {f g : Fifo Core Stmt Result W} {w : W}

def Still (me : Nat) (s t : State W) : Prop := ∃ a, a ≠ .deliver ∧ KeptStep me s a t

theorem member_command (f : Fifo Core Stmt Result W) (w : W) (stmt : Stmt) :
    (member f).emit w ⟨[], [stmt]⟩ = member (f.send w f.core [stmt]) := by
  rw [member, State.emit, Core.emit, List.append_nil]
  rfl

theorem Handles.run {core : Core} {stmts : List Stmt} (h : Handles f.core core stmts) (w : W) :
    Relation.ReflTransGen (Still me) (member f) (member (f.send w core stmts)) := by
  generalize hs : f.core = s at h
  induction h generalizing f with
  | nil s =>
      rw [← hs, Fifo.send_nil]
  | @serve s t r stmts online hr honline hrest ih =>
      subst hs
      have hstep : Still me (member f) (member (f.send w (f.core.served online r) (handler online r).stmts)) :=
        ⟨.serve w, by simp, trivial, .serve w online hr honline⟩
      have hmore := ih (f := f.send w (f.core.served online r) (handler online r).stmts) rfl
      rw [Fifo.send_send] at hmore
      exact .head hstep hmore
  | @command s t stmt stmts hstmt hrest ih =>
      subst hs
      have hstep : Still me (member f) (member (f.send w f.core [stmt])) := by
        rw [← member_command]
        exact ⟨.command w stmt, by simp, trivial, .command _ w hstmt⟩
      have hmore := ih (f := f.send w f.core [stmt]) rfl
      rw [Fifo.send_send] at hmore
      exact .head hstep hmore

theorem Calls.run {res : Result} {rest : List Result} {core : Core} {stmts : List Stmt}
    (h : Calls me f.core res core stmts) (hres : f.results w = res :: rest) :
    Relation.ReflTransGen (Still me) (member f)
      (member ({ f with results := Function.update f.results w rest }.send w core stmts)) := by
  obtain @⟨more, hstmts⟩ := h
  have hcommands : ∀ (stmts : List Stmt) (f : Fifo Core Stmt Result W), (∀ stmt ∈ stmts, stmt.ofOthers = true) →
      Relation.ReflTransGen (Still me) (member f) (member (f.send w f.core stmts)) := by
    intro stmts f hstmts
    refine Handles.run ?_ w
    induction stmts with
    | nil => exact .nil _
    | cons stmt stmts ih =>
        exact .command (hstmts stmt List.mem_cons_self) (ih (fun s hs => hstmts s (List.mem_cons_of_mem _ hs)))
  refine (hcommands more f hstmts).tail ⟨.result w, by simp, trivial, ?_⟩
  have hstep : Step me (member (f.send w f.core more)) (.result w)
      ((member (f.send w f.core more)).taken me w rest res) := .result hres
  have hsame : (member (f.send w f.core more)).taken me w rest res =
      member ({ f with results := Function.update f.results w rest }.send w
        (f.core.emit (callback me res).packets) (more ++ (callback me res).stmts)) := by
    simp only [member, State.taken, State.emit, Fifo.send, Function.update_self, Function.update_idem,
      List.append_assoc]
  exact hsame ▸ hstep

/-- A step of the queues is a run of `MemberSync`, in which a packet arrives only if one arrives in the step. -/
theorem fifo_run {b : FifoAction W Alone} (h : FifoStep (program me) f b g) :
    (b = .other .deliver ∧ KeptStep me (member f) .deliver (member g)) ∨
      (b ≠ .other .deliver ∧ Relation.ReflTransGen (Still me) (member f) (member g)) := by
  cases h with
  | other hother =>
      cases hother with
      | deliver hc => exact .inl ⟨rfl, trivial, .deliver hc⟩
      | select groupId => exact .inr ⟨by simp, .single ⟨.select groupId, by simp, trivial, .select _ groupId⟩⟩
      | scroll groupId => exact .inr ⟨by simp, .single ⟨.scroll groupId, by simp, trivial, .scroll _ groupId⟩⟩
      | @packet packet hn => exact .inr ⟨by simp, .single ⟨.packet packet, by simp, trivial, .packet _ hn⟩⟩
  | event hevent => exact .inr ⟨by simp, Handles.run hevent _⟩
  | @execute w stmt rest core res hsent hexecute =>
      obtain ⟨hrun, hpub⟩ := hexecute
      refine .inr ⟨by simp, .single ⟨.execute w, by simp, ?_, .execute hsent hrun⟩⟩
      intro userId groupId rest' he
      exact hpub userId groupId (List.cons.inj (hsent.symm.trans he)).1
  | result hres hcallback => exact .inr ⟨by simp, Calls.run hcallback hres⟩

theorem Still.kept {s t : State W} (hrun : Relation.ReflTransGen (Still me) s t) :
    Relation.ReflTransGen (fun s t => ∃ a, KeptStep me s a t) s t :=
  Relation.ReflTransGen.mono (fun _ _ hs => hs.imp fun _ => And.right) _ _ hrun

theorem fifo_kept {b : FifoAction W Alone} (h : FifoStep (program me) f b g) :
    Relation.ReflTransGen (fun s t => ∃ a, KeptStep me s a t) (member f) (member g) := by
  rcases fifo_run h with ⟨-, hstep⟩ | ⟨-, hrun⟩
  · exact .single ⟨.deliver, hstep⟩
  · exact Still.kept hrun

end Simulation

variable {s t : Server W} {groupId : Int} {ids : List Int}

omit [DecidableEq W] in
theorem Initial.refines (h : Initial me s) :
    (∀ w, InStep (s.workers w)) ∧ MemberSync.Initial me (member s.fifo) :=
  ⟨h.workers, h.stored, h.app, h.handled, h.channel, h.sent, h.results, h.loaded⟩

/-- Where every chain fits, the pipelines of the workers are the queues of `MemberSync`. -/
theorem reachable_member (h : Reachable (Initial me) (ServerStep me) s) :
    (∀ w, InStep (s.workers w)) ∧ Reachable (MemberSync.Initial me) (KeptStep me) (member s.fifo) := by
  obtain ⟨hsteps, hqueues⟩ : (∀ w, InStep (s.workers w)) ∧
      Reachable (fun f => MemberSync.Initial me (member f)) (FifoStep (program me)) s.fifo :=
    reachable_fifo (fun _ hinit => hinit.refines) h
  exact ⟨hsteps, hqueues.refines (f := member) (fun _ hi => hi) (fun _ _ _ hs => fifo_kept hs)⟩

/-- With any number of workers, in any order of their steps, the client lists and shows only members. -/
theorem only_members_shown (h : Reachable (Initial me) (ServerStep me) s) {group : Group}
    (hg : s.core.app.groups groupId = some group) :
    (∀ id ∈ group.membersId, id ∈ memberIds s.core.store groupId) ∧
      ∀ div ∈ group.divMembers, div.memberId ∈ memberIds s.core.store groupId :=
  have hshown := (reachable_safe (reachable_member h).2).shown groupId group hg
  ⟨hshown.ids, hshown.divs⟩

/-- Every request is handled, every result has come, and no callback is left to run. -/
structure Quiet (s : Server W) : Prop where
  handled : s.core.handled = s.core.app.sent.length
  channel : s.core.channel = []
  arrived : ∀ w, (s.workers w).pipe.arrived = (s.workers w).pipe.sent
  running : ∀ w, (s.workers w).pipe.running = []

omit [DecidableEq W] in
theorem Quiet.member (h : Quiet s) (hs : ∀ w, InStep (s.workers w)) : MemberAgreement.Quiet (member s.fifo) where
  handled := h.handled
  channel := h.channel
  sent w := ((hs w).settled (h.arrived w) (h.running w)).1
  results w := ((hs w).settled (h.arrived w) (h.running w)).2

section Unopened

open UnopenedJoin

def arrives (s : Server W) : PipelineFifo.Action W Alone Stmt Nat → List Packet
  | .other .deliver => s.core.channel.head?.toList
  | _ => []

/-- A run with the packets that arrive in it, none of which is a list of groups with the group. -/
inductive Delivers (me : Nat) (groupId : Int) (s : Server W) : List Packet → Server W → Prop
  | refl : Delivers me groupId s [] s
  | step {packets : List Packet} {t u : Server W} {a : PipelineFifo.Action W Alone Stmt Nat}
      (h : Delivers me groupId s packets t)
      (hk : ∀ packet ∈ arrives t a, .reset ∉ MemberUpdates.updates groupId packet) (hs : ServerStep me t a u) :
      Delivers me groupId s (packets ++ arrives t a) u

theorem Unopened.stills {s t : State W} (hrun : Relation.ReflTransGen (Still me) s t)
    (hreach : Reachable (MemberSync.Initial me) (KeptStep me) s) (hne : ids ≠ []) (h : Unopened groupId ids s) :
    Unopened groupId ids t := by
  induction hrun with
  | refl => exact h
  | @tail t u hrun hs ih =>
      obtain ⟨a, hdeliver, hs⟩ := hs
      have ht := reachable_requested (hreach.run (Still.kept hrun))
      have hnone : UnopenedJoin.arrives t a = [] := by
        cases a <;> first | rfl | exact absurd rfl hdeliver
      have hstep := ih.step ht.1 ht.2 hne (fun packet hm => by rw [hnone] at hm; cases hm) hs
      rwa [hnone, List.flatMap_nil, List.append_nil] at hstep

theorem Unopened.serverStep (h : Unopened groupId ids (member s.fifo)) (hreach : Reachable (Initial me) (ServerStep me) s)
    (hne : ids ≠ []) {a : PipelineFifo.Action W Alone Stmt Nat}
    (hk : ∀ packet ∈ arrives s a, .reset ∉ MemberUpdates.updates groupId packet) (hs : ServerStep me s a t) :
    Unopened groupId (ids ++ (arrives s a).flatMap (joins groupId)) (member t.fifo) := by
  obtain ⟨hsteps, hmember⟩ := reachable_member hreach
  obtain ⟨-, hsame, hfifo⟩ := FitStep.refines hsteps hs
  obtain ⟨hsafe, hreq⟩ := reachable_requested hmember
  cases hb : a.fifo with
  | none =>
      have hnone : arrives s a = [] := by cases a <;> first | rfl | cases hb
      rw [hsame hb, hnone, List.flatMap_nil, List.append_nil]
      exact h
  | some b =>
      rcases fifo_run (hfifo b hb) with ⟨rfl, hstep⟩ | ⟨hne', hrun⟩
      · obtain rfl : a = .other .deliver := by cases a <;> cases hb; rfl
        have hkeeps : KeepsGroup groupId (member s.fifo) .deliver := hk
        exact h.step hsafe hreq hne hkeeps hstep
      · have hnone : arrives s a = [] := by
          rcases a with (_ | _ | _ | _) | _ | _ | _ | _ <;>
            first | rfl | exact absurd (Option.some.inj hb).symm hne'
        rw [hnone, List.flatMap_nil, List.append_nil]
        exact Unopened.stills hrun hmember hne h

theorem Unopened.delivers (h : Unopened groupId ids (member s.fifo)) (hreach : Reachable (Initial me) (ServerStep me) s)
    (hne : ids ≠ []) {packets : List Packet} (hrun : Delivers me groupId s packets t) :
    Reachable (Initial me) (ServerStep me) t ∧
      Unopened groupId (ids ++ packets.flatMap (joins groupId)) (member t.fifo) := by
  induction hrun with
  | refl =>
      rw [List.flatMap_nil, List.append_nil]
      exact ⟨hreach, h⟩
  | step _ hk hs ih =>
      obtain ⟨hreach, hu⟩ := ih
      rw [List.flatMap_append, ← List.append_assoc]
      exact ⟨hreach.next hs, Unopened.serverStep hu hreach (List.append_ne_nil_of_left_ne_nil hne _) hk hs⟩

/-- A group of which a join arrives before its list has been asked for: however often it is opened in
the run behind it, its list is never asked for, and has only those whose joins arrive. -/
theorem unopened_join_unasked (h : Reachable (Initial me) (ServerStep me) s)
    (hlist : MemberUpdates.listOf s.core.app groupId = some ids) (hne : ids ≠ [])
    (hun : .getMemberIds groupId ∉ s.core.app.sent) {packets : List Packet}
    (hrun : Delivers me groupId s packets t) :
    .getMemberIds groupId ∉ t.core.app.sent ∧ t.core.loaded groupId = false ∧
      MemberUpdates.listOf t.core.app groupId = some (ids ++ packets.flatMap (joins groupId)) := by
  have hstart : Unopened groupId ids (member s.fifo) := ⟨hlist, hun⟩
  obtain ⟨hreach, hu⟩ := Unopened.delivers hstart h hne hrun
  obtain ⟨-, hreq⟩ := reachable_requested (reachable_member hreach).2
  refine ⟨hu.unasked, ?_, hu.list⟩
  rw [Bool.eq_false_iff]
  exact fun hl => hu.unasked (hreq.loaded groupId hl)

end Unopened

section Run

def nobody : Int → Option UserInfo := fun _ => none

theorem request (h : Reaches (Initial 1) (program 1) s) (w : W) (r : Request) (stmt : Stmt)
    (hr : s.core.app.sent[s.core.handled]? = some r) (hstmts : (handler nobody r).stmts = [stmt])
    (hrun : (s.workers w).pipe.running = []) (hroom : (s.workers w).pipe.queue.count < dbPipelineQueueSize) :
    Reaches (Initial 1) (program 1) (s.put (s.core.served nobody r) w ((s.workers w).send
      (eworkerPrepEvent (s.workers w).pipe (some 7) ([stmt].map (program 1).ctx)) [stmt])) := by
  refine h.event w (some 7) [stmt] hrun hroom (textLast_single stmt) ?_
  have hserve : Handles s.core (s.core.served nobody r) ((handler nobody r).stmts ++ []) :=
    .serve nobody hr nofun (.nil _)
  rwa [List.append_nil, hstmts] at hserve

theorem join (h : Reaches (Initial 1) (program 1) s) (w : W) (userId : Nat)
    (hrun : (s.workers w).pipe.running = []) (hroom : (s.workers w).pipe.queue.count < dbPipelineQueueSize) :
    Reaches (Initial 1) (program 1) (s.put s.core w ((s.workers w).send (eworkerPrepEvent (s.workers w).pipe
      (some 8) ([Stmt.joinPubGroup userId 1].map (program 1).ctx)) [Stmt.joinPubGroup userId 1])) :=
  h.event w (some 8) [.joinPubGroup userId 1] hrun hroom (textLast_single _) (.command rfl (.nil _))

theorem call {ctx : DbcmdCtx Nat} {rest : List (DbcmdCtx Nat)} (h : Reaches (Initial 1) (program 1) s) (w : W)
    (res : Result) (hrun : (s.workers w).pipe.running = ctx :: rest)
    (hroom : (s.workers w).pipe.queue.count < dbPipelineQueueSize)
    (hanswer : (s.workers w).answers[ctx.query]? = some res) (hstmts : (callback 1 res).stmts = []) :
    Reaches (Initial 1) (program 1) (s.put (s.core.emit (callback 1 res).packets) w
      ((s.workers w).send (dbExecCmd (s.workers w).pipe ctx rest (([] : List Stmt).map (program 1).ctx)) [])) := by
  refine h.exec w res [] hrun hanswer hroom textLast_nil ?_
  have hcalls : Calls 1 s.core res (s.core.emit (callback 1 res).packets) ([] ++ (callback 1 res).stmts) :=
    .intro s.core res nofun
  rwa [List.nil_append, hstmts] at hcalls

theorem announce {ctx : DbcmdCtx Nat} {rest : List (DbcmdCtx Nat)} (h : Reaches (Initial 1) (program 1) s) (w : W)
    (userId : Nat) (hrun : (s.workers w).pipe.running = ctx :: rest)
    (hroom : (s.workers w).pipe.queue.count < dbPipelineQueueSize)
    (hanswer : (s.workers w).answers[ctx.query]? = some (.joined userId 1)) :
    let stmts : List Stmt := [.group userId 1, .announce 1 userId]
    Reaches (Initial 1) (program 1) (s.put (s.core.emit []) w
      ((s.workers w).send (dbExecCmd (s.workers w).pipe ctx rest (stmts.map (program 1).ctx)) stmts)) := by
  have hlast : TextLast ([Stmt.group userId 1, .announce 1 userId].map (program 1).ctx) := by
    intro ctx hctx res hkeeps
    obtain rfl := List.mem_singleton.mp hctx
    exact hkeeps.2
  refine h.exec w (.joined userId 1) _ hrun hanswer hroom hlast ?_
  have hcalls : Calls 1 s.core (.joined userId 1) (s.core.emit []) ([] ++ onUserGroupJoin userId 1) :=
    .intro s.core (.joined userId 1) nofun
  exact hcalls

def loggedIn (store : WriteStatements.Store) : Server W where
  core :=
    { app := ((App.start none none).exec (.packet .session)).exec
        (.packet (.clientUserInfo ⟨1, "one", "one", "", "", none, some "online"⟩))
      handled := 1
      channel := []
      store := store
      loaded := fun _ => false }
  workers _ := Worker.init

omit [DecidableEq W] in
theorem loggedIn_initial {store : WriteStatements.Store} (hs : Stored store) :
    Initial 1 (loggedIn store : Server W) where
  stored := hs
  app := ⟨none, none, _, rfl, rfl⟩
  handled := rfl
  channel := rfl
  loaded _ := rfl
  workers _ := inStep_init
  sent _ _ hm := by cases hm
  results _ := rfl

def openGroups : List GroupInfo := [⟨1, 1, "open", ""⟩, ⟨2, 1, "closed", ""⟩]

theorem public_one {store : WriteStatements.Store} (hg : store.groups = JoinGroup.twoGroups.groups) (userId : Nat) :
    ∀ userId' groupId, Stmt.joinPubGroup userId 1 = .joinPubGroup userId' groupId → PublicGroup store groupId := by
  rintro _ _ ⟨⟩
  exact ⟨⟨1, some 1, "open", none, some true, none⟩, by rw [hg]; exact List.mem_cons_self, rfl, rfl⟩

def two : UserInfo := ⟨2, "two", "two", "", "", none, none⟩

def twoWorkersGroup : Group :=
  ⟨1, 1, "open", "", 0, [1], [1], [], 15, [⟨1, "one", pfpUrl "default.jpg", "online"⟩], []⟩

theorem twoWorkers_reaches : ∃ s : Server Bool, Reaches (Initial 1) (program 1) s ∧ Quiet s ∧
    s.core.loaded 1 = true ∧ s.core.app.groups 1 = some twoWorkersGroup ∧ s.core.store = JoinGroup.joinedOpen := by
  have h0 : Reaches (Initial 1) (program 1) (loggedIn JoinGroup.twoGroups : Server Bool) :=
    .start (loggedIn_initial JoinGroup.twoGroups_stored)
  have h1 := request h0 false .clientGroups .userGroups rfl rfl rfl (by decide)
  have h2 := h1.execute false rfl (.intro (.userGroups _) nofun)
  have h3 := h2.tuples false [] rfl (by decide)
  have h4 := (call h3 false (.groups 1 openGroups) rfl (by decide) rfl rfl).other (.deliver rfl)
  have h5 := h4.other (.select _ 1)
  have h6 := request h5 false (.getMemberIds 1) (.memberIds 1) rfl rfl rfl (by decide)
  have h7 := request h6 false (.getGroupMsgs 1 15 0) (.groupMsgs 1 15 0) rfl rfl rfl (by decide)
  have h8 := h7.execute false rfl (.intro (.memberIds _ 1) nofun)
  have h9 := h8.execute false rfl (.intro (.groupMsgs _ 1 15 0 (show List.Forall₂ _ _ [] from .nil)) nofun)
  have h10 := join h9 true 2 rfl (by decide)
  have h11 := h10.execute true rfl (.intro (.joinPubGroup _ 2 1 JoinGroup.joinedOpen_stored) (public_one rfl 2))
  have h12 := h11.commandOk true rfl (by decide)
  have h13 := announce h12 true 2 rfl (by decide) rfl
  have h14 := (h13.execute true rfl (.intro (.group _ 2 1) nofun)).execute true rfl (.intro (.announce _ 1 2) nofun)
  have h15 := h14.tuples true [] rfl (by decide)
  have h16 := h15.tuples true [] rfl (by decide)
  have h17 := call h16 true (.groups 2 [⟨1, 1, "open", ""⟩]) rfl (by decide) rfl rfl
  have h18 := (call h17 true (.announce [1, 2] 1 2) rfl (by decide) rfl rfl).other (.deliver rfl)
  have h19 := request h18 true (.getUser [2]) (.userArray [2]) rfl rfl rfl (by decide)
  have h20 := h19.execute true rfl (.intro (.userArray _ [2]) nofun)
  have h21 := h20.tuples true [] rfl (by decide)
  have h22 := h21.tuples false [[some (.json (.array [.int 1]))]] rfl (by decide)
  have h23 := call h22 false (.memberIds 1 [1]) rfl (by decide) rfl rfl
  have h24 := h23.tuples false [] rfl (by decide)
  have h25 := call h24 false (.groupMsgs 1 []) rfl (by decide) rfl rfl
  have h26 := call h25 true (.users [two]) rfl (by decide) rfl rfl
  have h27 := ((h26.other (.deliver rfl)).other (.deliver rfl)).other (.deliver rfl)
  exact ⟨_, h27, ⟨rfl, rfl, by decide, by rintro (_ | _) <;> rfl⟩, rfl, rfl, rfl⟩

theorem only_members_shown_two : ∃ s : Server Bool, s.core.store = JoinGroup.joinedOpen ∧
    s.core.app.groups 1 = some twoWorkersGroup ∧
    (∀ id ∈ twoWorkersGroup.membersId, id ∈ memberIds s.core.store 1) ∧
      ∀ div ∈ twoWorkersGroup.divMembers, div.memberId ∈ memberIds s.core.store 1 := by
  obtain ⟨s, hs, -, -, hg, hstore⟩ := twoWorkers_reaches
  exact ⟨s, hstore, hg, only_members_shown hs hg⟩

/-- With two workers a list that was read before a join may arrive behind it: the new member is not
shown, though nothing is under way. -/
theorem two_workers_miss_member : ∃ s : Server Bool, Reachable (Initial 1) (ServerStep 1) s ∧ Quiet s ∧
    s.core.loaded 1 = true ∧ s.core.app.groups 1 = some twoWorkersGroup ∧ 2 ∈ memberIds s.core.store 1 ∧
      ¬ ∃ div ∈ twoWorkersGroup.divMembers, div.memberId = 2 := by
  obtain ⟨s, hs, hq, hloaded, hg, hstore⟩ := twoWorkers_reaches
  exact ⟨s, hs, hq, hloaded, hg, by rw [hstore]; decide, by decide⟩

def threeUsers : WriteStatements.Store :=
  { JoinGroup.twoGroups with
    users := JoinGroup.twoGroups.users ++ [⟨3, "three", "three", none, none, none⟩]
    userSeq := 4 }

theorem threeUsers_stored : Stored threeUsers where
  valid := by constructor <;> simp [threeUsers, JoinGroup.twoGroups]
  users := by simp [threeUsers, JoinGroup.twoGroups]
  groups := JoinGroup.twoGroups_stored.groups
  messages := JoinGroup.twoGroups_stored.messages
  ints := by simp [threeUsers, JoinGroup.twoGroups]

theorem threeUsers_joined : Stored (WriteStatements.joinPubGroup threeUsers 2 1) ∧
    Stored (WriteStatements.joinPubGroup (WriteStatements.joinPubGroup threeUsers 2 1) 3 1) := by
  constructor
  · exact
      { valid := by constructor <;> simp [WriteStatements.joinPubGroup, threeUsers, JoinGroup.twoGroups]
        users := threeUsers_stored.users
        groups := threeUsers_stored.groups
        messages := threeUsers_stored.messages
        ints := threeUsers_stored.ints }
  · exact
      { valid := by constructor <;> simp [WriteStatements.joinPubGroup, threeUsers, JoinGroup.twoGroups]
        users := threeUsers_stored.users
        groups := threeUsers_stored.groups
        messages := threeUsers_stored.messages
        ints := threeUsers_stored.ints }

theorem delivers_refl (_ : Reaches (Initial 1) (program 1) s) (groupId : Int) : Delivers 1 groupId s [] s := .refl

/-- The users 2 and 3 join before the user 1 opens the group, and the second join arrives behind that. -/
theorem unopened_join_unasked_late : ∃ s t : Server Unit, Delivers 1 1 s [.joinGroup 1 3] t ∧
    s.core.app.currentGroup = none ∧ t.core.app.currentGroup = some (1, 0) ∧ .getMemberIds 1 ∉ t.core.app.sent ∧
      t.core.loaded 1 = false ∧ MemberUpdates.listOf t.core.app 1 = some [2, 3] := by
  have h0 : Reaches (Initial 1) (program 1) (loggedIn threeUsers : Server Unit) :=
    .start (loggedIn_initial threeUsers_stored)
  have h1 := request h0 () .clientGroups .userGroups rfl rfl rfl (by decide)
  have h2 := h1.execute () rfl (.intro (.userGroups _) nofun)
  have h3 := h2.tuples () [] rfl (by decide)
  have h4 := (call h3 () (.groups 1 openGroups) rfl (by decide) rfl rfl).other (.deliver rfl)
  have h5 := join h4 () 2 rfl (by decide)
  have h6 := join h5 () 3 rfl (by decide)
  have h7 := h6.execute () rfl (.intro (.joinPubGroup _ 2 1 threeUsers_joined.1) (public_one rfl 2))
  have h8 := h7.execute () rfl (.intro (.joinPubGroup _ 3 1 threeUsers_joined.2) (public_one rfl 3))
  have h9 := h8.commandOk () rfl (by decide)
  have h10 := announce h9 () 2 rfl (by decide) rfl
  have h11 := h10.commandOk () rfl (by decide)
  have h12 := announce h11 () 3 rfl (by decide) rfl
  have h13 := (h12.execute () rfl (.intro (.group _ 2 1) nofun)).execute () rfl (.intro (.announce _ 1 2) nofun)
  have h14 := (h13.execute () rfl (.intro (.group _ 3 1) nofun)).execute () rfl (.intro (.announce _ 1 3) nofun)
  have h15 := h14.tuples () [] rfl (by decide)
  have h16 := h15.tuples () [] rfl (by decide)
  have h17 := call h16 () (.groups 2 [⟨1, 1, "open", ""⟩]) rfl (by decide) rfl rfl
  have h18 := (call h17 () (.announce [1, 2, 3] 1 2) rfl (by decide) rfl rfl).other (.deliver rfl)
  have h19 := h18.tuples () [] rfl (by decide)
  have h20 := h19.tuples () [] rfl (by decide)
  have h21 := call h20 () (.groups 3 [⟨1, 1, "open", ""⟩]) rfl (by decide) rfl rfl
  have h22 := call h21 () (.announce [1, 2, 3] 1 3) rfl (by decide) rfl rfl
  have hopen := (delivers_refl h22 1).step (a := .other (.select 1)) (fun _ hm => (by cases hm))
    ⟨trivial, .other (.select _ 1)⟩
  have hjoin := hopen.step (a := .other .deliver) (by
      intro packet hm
      obtain rfl : packet = .joinGroup 1 3 := List.mem_singleton.mp hm
      simp [MemberUpdates.updates])
    ⟨trivial, .other (.deliver rfl)⟩
  exact ⟨_, _, hjoin, rfl, rfl, unopened_join_unasked h22 rfl (by decide) (by decide) hjoin⟩

end Run

end ChityChat.MemberPipeline
