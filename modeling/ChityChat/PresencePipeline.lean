import ChityChat.MemberPipeline
import ChityChat.PresenceSync

namespace ChityChat.PresencePipeline

open DbResult Transition DbPipeline WebClient MemberSync PipelineFifo PresenceSync
open StatusWrites (writes)

structure Core extends MemberSync.Core, Table

def Core.served (s : Core) (r : Request) : Core := { s with toCore := s.toCore.served s.online r }

inductive Alone
  | member (a : MemberPipeline.Alone)
  | table

/-- The packets of the server that are about no members are not about the status of users either. -/
inductive AloneStep (me : Nat) : Core → Alone → Core → Prop
  | member {s : Core} {a : MemberPipeline.Alone} {core : MemberSync.Core}
      (h : MemberPipeline.AloneStep s.toCore a core)
      (hquiet : ∀ packet, a = .packet packet → (∀ id, writes id packet = []) ∧ OwnersShare s.store me packet) :
      AloneStep me s (.member a) { s with toCore := core }
  | table {s : Core} {table : Table} (h : Unannounced me s.toTable table) :
      AloneStep me s .table { s with toTable := table }

inductive Handles (me : Nat) : Core → Core → List Stmt → Prop
  | nil (s : Core) : Handles me s s []
  | serve {s t : Core} {r : Request} {stmts : List Stmt} (h : s.app.sent[s.handled]? = some r)
      (hrest : Handles me (s.served r) t stmts) : Handles me s t ((handler s.online r).stmts ++ stmts)
  | command {s t : Core} {stmt : Stmt} {stmts : List Stmt} (h : stmt.silent = true)
      (hrest : Handles me s t stmts) : Handles me s t (stmt :: stmts)
  | announce {s t : Core} {userId : Nat} {status : String} {table : Table} {stmts : List Stmt}
      (h : Announces me s.toTable userId status table) (hrest : Handles me { s with toTable := table } t stmts) :
      Handles me s t (.connectedUsers userId status :: stmts)

inductive Executes (me : Nat) : Core → Stmt → Core → Result → Prop
  | intro {s : Core} {stmt : Stmt} {core : MemberSync.Core} {res : Result}
      (h : MemberPipeline.Executes me s.toCore stmt core res) : Executes me s stmt { s with toCore := core } res

inductive Calls (me : Nat) : Core → Result → Core → List Stmt → Prop
  | intro (s : Core) (res : Result) {stmts : List Stmt} (h : ∀ stmt ∈ stmts, stmt.silent = true) :
      Calls me s res { s with toCore := s.toCore.emit (callback me res).packets }
        (stmts ++ (callback me res).stmts)

def program (me : Nat) : Program Core Alone Stmt Result Nat where
  ctx := MemberPipeline.ctx
  busy := MemberPipeline.ctx_ret
  exec := MemberPipeline.ctx_exec
  text := MemberPipeline.ctx_text
  other := AloneStep me
  event := Handles me
  execute := Executes me
  callback := Calls me

abbrev Server := System Core Stmt Result Nat Unit

abbrev ServerStep (me : Nat) (s : Server) (a : PipelineFifo.Action Unit Alone Stmt Nat) (t : Server) : Prop :=
  FitStep (program me) s a t

def member (s : Server) : MemberPipeline.Server Unit := ⟨s.core.toCore, s.workers⟩

structure Initial (me : Nat) (s : Server) : Prop where
  member : MemberPipeline.Initial me (member s)
  sent : ∀ stmt ∈ (s.workers ()).sent, stmt.silent = true
  online : ∀ id info, s.core.online id = some info → info.userId = id

def presence (f : Fifo Core Stmt Result Unit) : PresenceSync.State :=
  ⟨f.core.toTable, ⟨f.core.toCore, f.sent, f.results⟩⟩

variable {me : Nat} {f g : Fifo Core Stmt Result Unit}

abbrev Moves (me : Nat) (s t : PresenceSync.State) : Prop :=
  Relation.ReflTransGen (fun s t => ∃ a, PresenceSync.Step me s a t) s t

theorem presence_command (f : Fifo Core Stmt Result Unit) (table : Table) (stmt : Stmt) :
    (⟨table, (presence f).base.emit () ⟨[], [stmt]⟩⟩ : PresenceSync.State) =
      presence (f.send () { f.core with toTable := table } [stmt]) := by
  rw [State.emit, MemberSync.Core.emit, List.append_nil]
  rfl

theorem Handles.run {core : Core} {stmts : List Stmt} (h : Handles me f.core core stmts) :
    Moves me (presence f) (presence (f.send () core stmts)) := by
  generalize hs : f.core = s at h
  induction h generalizing f with
  | nil s =>
      rw [← hs, Fifo.send_nil]
  | @serve s t r stmts hr hrest ih =>
      subst hs
      have hmore := ih (f := f.send () (f.core.served r) (handler f.core.online r).stmts) rfl
      rw [Fifo.send_send] at hmore
      exact .head ⟨.serve, .serve hr⟩ hmore
  | @command s t stmt stmts hstmt hrest ih =>
      subst hs
      have hmore := ih (f := f.send () f.core [stmt]) rfl
      rw [Fifo.send_send] at hmore
      have hstep : Moves me (presence f) (presence (f.send () f.core [stmt])) := by
        rw [← presence_command f f.core.toTable stmt]
        exact .single ⟨.base (.command () stmt), .base hstmt
          ⟨trivial, .command _ () (Stmt.ofOthers_of_silent hstmt)⟩⟩
      exact hstep.trans hmore
  | @announce s t userId status table stmts hannounces hrest ih =>
      subst hs
      have hmore := ih (f := f.send () { f.core with toTable := table } [.connectedUsers userId status]) rfl
      rw [Fifo.send_send] at hmore
      have hstep : Moves me (presence f)
          (presence (f.send () { f.core with toTable := table } [.connectedUsers userId status])) := by
        rw [← presence_command f table (.connectedUsers userId status)]
        exact .single ⟨.announce userId status, .announce hannounces⟩
      exact hstep.trans hmore

theorem Calls.run {res : Result} {rest : List Result} {core : Core} {stmts : List Stmt}
    (h : Calls me f.core res core stmts) (hres : f.results () = res :: rest) :
    Moves me (presence f) (presence ({ f with results := Function.update f.results () rest }.send () core stmts)) := by
  obtain @⟨more, hsilent⟩ := h
  have hcommands : Moves me (presence f) (presence (f.send () f.core more)) := by
    refine Handles.run ?_
    clear hres
    induction more with
    | nil => exact .nil _
    | cons stmt more ih =>
        exact .command (hsilent stmt List.mem_cons_self) (ih (fun s hs => hsilent s (List.mem_cons_of_mem _ hs)))
  refine hcommands.tail ⟨.base (.result ()), ?_⟩
  have hstep : MemberSync.Step me (presence (f.send () f.core more)).base (.result ())
      ((presence (f.send () f.core more)).base.taken me () rest res) := .result hres
  have hsame : (⟨f.core.toTable, (presence (f.send () f.core more)).base.taken me () rest res⟩ : PresenceSync.State) =
      presence ({ f with results := Function.update f.results () rest }.send ()
        { f.core with toCore := f.core.toCore.emit (callback me res).packets } (more ++ (callback me res).stmts)) := by
    simp only [presence, State.taken, State.emit, Fifo.send, Function.update_self, Function.update_idem,
      List.append_assoc]
  rw [← hsame]
  exact .base trivial ⟨trivial, hstep⟩

theorem fifo_run {b : FifoAction Unit Alone} (h : FifoStep (program me) f b g) :
    Moves me (presence f) (presence g) := by
  cases h with
  | other hother =>
      cases hother with
      | table hu => exact .single ⟨.table, .table hu⟩
      | member hmember hquiet =>
          cases hmember with
          | deliver hc => exact .single ⟨.base .deliver, .base trivial ⟨trivial, .deliver hc⟩⟩
          | select groupId => exact .single ⟨.base (.select groupId), .base trivial ⟨trivial, .select _ groupId⟩⟩
          | scroll groupId => exact .single ⟨.base (.scroll groupId), .base trivial ⟨trivial, .scroll _ groupId⟩⟩
          | @packet packet hn =>
              exact .single ⟨.base (.packet packet), .base (hquiet packet rfl) ⟨trivial, .packet _ hn⟩⟩
  | event hevent => exact Handles.run hevent
  | @execute _ stmt rest core res hsent hexecute =>
      obtain ⟨hrun, hpub⟩ := hexecute
      refine .single ⟨.base (.execute ()), .base trivial ⟨?_, .execute hsent hrun⟩⟩
      intro userId groupId rest' he
      exact hpub userId groupId (List.cons.inj (hsent.symm.trans he)).1
  | result hres hcallback => exact Calls.run hcallback hres

variable {s : Server} {id : Int}

theorem Initial.refines (h : Initial me s) :
    (∀ w, InStep (s.workers w)) ∧ PresenceSync.Initial me (presence s.fifo) :=
  ⟨h.member.workers, h.member.refines.2, h.sent, h.online⟩

section Run

open MemberPipeline (loggedIn loggedIn_initial openGroups nobody two)

theorem request (h : Reaches (Initial 1) (program 1) s) (r : Request) (stmt : Stmt)
    (hr : s.core.app.sent[s.core.handled]? = some r) (hstmts : (handler s.core.online r).stmts = [stmt])
    (hrun : (s.workers ()).pipe.running = []) (hroom : (s.workers ()).pipe.queue.count < dbPipelineQueueSize) :
    Reaches (Initial 1) (program 1) (s.put (s.core.served r) () ((s.workers ()).send
      (eworkerPrepEvent (s.workers ()).pipe (some 7) ([stmt].map (program 1).ctx)) [stmt])) := by
  refine h.event () (some 7) [stmt] hrun hroom (textLast_single stmt) ?_
  have hserve : Handles 1 s.core (s.core.served r) ((handler s.core.online r).stmts ++ []) := .serve hr (.nil _)
  rwa [List.append_nil, hstmts] at hserve

theorem call {ctx : DbcmdCtx Nat} {rest : List (DbcmdCtx Nat)} (h : Reaches (Initial 1) (program 1) s)
    (res : Result) (hrun : (s.workers ()).pipe.running = ctx :: rest)
    (hroom : (s.workers ()).pipe.queue.count < dbPipelineQueueSize)
    (hanswer : (s.workers ()).answers[ctx.query]? = some res) (hstmts : (callback 1 res).stmts = []) :
    Reaches (Initial 1) (program 1)
      (s.put { s.core with toCore := s.core.toCore.emit (callback 1 res).packets } () ((s.workers ()).send
        (dbExecCmd (s.workers ()).pipe ctx rest (([] : List Stmt).map (program 1).ctx)) [])) := by
  refine h.exec () res [] hrun hanswer hroom textLast_nil ?_
  have hcalls : Calls 1 s.core res { s.core with toCore := s.core.toCore.emit (callback 1 res).packets }
      ([] ++ (callback 1 res).stmts) := .intro s.core res nofun
  rwa [List.nil_append, hstmts] at hcalls

theorem query {stmt : Stmt} {res : Result} (h : Reaches (Initial 1) (program 1) s)
    (hstmt : (s.workers ()).stmts[(s.workers ()).answers.length]? = some stmt)
    (hrun : Runs 1 s.core.store stmt s.core.store res)
    (hpub : ∀ userId groupId, stmt = .joinPubGroup userId groupId → JoinGroup.PublicGroup s.core.store groupId) :
    Reaches (Initial 1) (program 1) (s.put s.core () ((s.workers ()).answer res)) :=
  h.execute () hstmt (.intro (.intro hrun hpub))

theorem deliver {packet : Packet} {rest : List Packet} (h : Reaches (Initial 1) (program 1) s)
    (hc : s.core.channel = packet :: rest) :
    Reaches (Initial 1) (program 1) { s with core := { s.core with toCore := s.core.delivered packet rest } } :=
  h.other (a := .member .deliver) (.member (.deliver hc) (fun _ hp => (by cases hp)))

theorem select (h : Reaches (Initial 1) (program 1) s) (groupId : Int) : Reaches (Initial 1) (program 1)
    { s with core := { s.core with app := s.core.app.exec (.select groupId) } } :=
  h.other (a := .member (.select groupId))
    (.member (.select s.core.toCore groupId) (fun _ hp => (by cases hp)))

theorem unannounced {table : Table} (h : Reaches (Initial 1) (program 1) s)
    (hu : Unannounced 1 s.core.toTable table) :
    Reaches (Initial 1) (program 1) { s with core := { s.core with toTable := table } } :=
  h.other (a := .table) (.table hu)

def start : Server where
  core :=
    { toCore := (loggedIn JoinGroup.joinedOpen : MemberPipeline.Server Unit).core
      online := nobody
      lost := fun _ => false }
  workers _ := Worker.init

def online : UserInfo := { two with status := some "online" }

theorem online_reaches : ∃ s : Server, Reaches (Initial 1) (program 1) s ∧ MemberPipeline.Quiet (member s) ∧
    s.core.lost 2 = false ∧ s.core.online 2 = some online ∧ s.core.app.users 2 = some (User.new online) := by
  have h0 : Reaches (Initial 1) (program 1) start :=
    .start ⟨loggedIn_initial JoinGroup.joinedOpen_stored, nofun, nofun⟩
  have h1 := query (request h0 .clientGroups .userGroups rfl rfl rfl (by decide)) rfl (.userGroups _) nofun
  have h2 := h1.tuples () [] rfl (by decide)
  have h3 := deliver (call h2 (.groups 1 openGroups) rfl (by decide) rfl rfl) rfl
  have h5 := request (select h3 1) (.getMemberIds 1) (.memberIds 1) rfl rfl rfl (by decide)
  have h6 := request h5 (.getGroupMsgs 1 15 0) (.groupMsgs 1 15 0) rfl rfl rfl (by decide)
  have h7 := query h6 rfl (.memberIds _ 1) nofun
  have h8 := query h7 rfl (.groupMsgs _ 1 15 0 (show List.Forall₂ _ _ [] from .nil)) nofun
  have h9 := h8.tuples () [[some (.json (.array [.int 1, .int 2]))]] rfl (by decide)
  have h10 := call h9 (.memberIds 1 [1, 2]) rfl (by decide) rfl rfl
  have h11 := h10.tuples () [] rfl (by decide)
  have h12 := call h11 (.groupMsgs 1 []) rfl (by decide) rfl rfl
  have h13 := request (deliver (deliver h12 rfl) rfl) (.getUser [2]) (.userArray [2]) rfl rfl rfl (by decide)
  have h14 := unannounced h13 (.login two rfl rfl)
  have h15 := h14.event () (some 8) [.connectedUsers 2 "online"] rfl (by decide) (textLast_single _)
    (.announce (.userInfo 2 rfl) (.nil _))
  have h16 := query (query h15 rfl (.userArray _ [2]) nofun) rfl (.connectedUsers _ 2 "online") nofun
  have h17 := h16.tuples () [] rfl (by decide)
  have h18 := call h17 (.users [two]) rfl (by decide) rfl rfl
  have h19 := h18.tuples () [] rfl (by decide)
  have h20 := call h19 (.connectedUsers [1, 2] 2 "online") rfl (by decide) rfl rfl
  have h21 := deliver (deliver h20 rfl) rfl
  exact ⟨_, h21, ⟨rfl, rfl, fun _ => rfl, fun _ => rfl⟩, rfl, rfl, rfl⟩

/-- A connection that ends with an `EPIPE` leaves the user online in the page, though nothing is under way. -/
theorem lost_shown_online : ∃ s : Server, Reachable (Initial 1) (ServerStep 1) s ∧
    MemberPipeline.Quiet (member s) ∧ s.core.app.users 2 = some (User.new online) ∧
      (User.new online).status = "online" ∧ statusOf s.core.online 2 = "offline" := by
  obtain ⟨s, hs, hq, -, honline, hu⟩ := online_reaches
  have hcut : CutsOff s.core.toTable 1 (fun id => id = 2) := by
    intro id hid
    obtain rfl : id = 2 := by simpa using hid
    exact ⟨by rw [honline]; rfl, by decide⟩
  have hlose : Unannounced 1 s.core.toTable (s.core.toTable.cutOff (fun id => id = 2)) :=
    .lose 2 _ honline (by decide) hcut rfl
  exact ⟨_, unannounced hs hlose, ⟨hq.handled, hq.channel, hq.arrived, hq.running⟩, hu, rfl, rfl⟩

end Run

end ChityChat.PresencePipeline
