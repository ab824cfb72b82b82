import ChityChat.DbPipelineOrder
import ChityChat.WriteStatements

namespace ChityChat.WriteCommands

open JsonC DbResult Schema RingBuffer DbPipeline WriteStatements

variable {W C : Type} [DecidableEq W]

/-- The commands that change groups, with the arguments that their handlers read. -/
inductive ChatCommand
  | groupCreate (name : String) (isPublic : Bool)
  | joinGroup (groupId : Nat)
  | groupMsg (groupId : Nat) (content : String) (attachments : List JsonObject)
  | createGroupCode (groupId : Nat) (maxUses : Int)
  | joinGroupCode (code : String)
  | deleteGroupCode (code : String)
  | deleteMsg (msgId : Nat)
  | deleteGroup (groupId : Nat)

structure Sent where
  stmt : Stmt
  origin : Option (Nat × ChatCommand)

def newCtx (execRes : ExecRes) : DbcmdCtx C :=
  ⟨0, none, .busy, false, 0, true, execRes, 0, 0, 0, none, []⟩

/-- What the handler of a command sends. A message with attachments waits for their upload. -/
def ChatCommand.sends (userId : Nat) (command : ChatCommand) : List (Sent × DbcmdCtx C) :=
  match command with
  | groupCreate name isPublic =>
      [(⟨.insertGroup name userId isPublic, some (userId, command)⟩, newCtx .createGroup)]
  | joinGroup groupId =>
      [(⟨.joinPubGroup userId groupId, some (userId, command)⟩,
        { newCtx .joinPubGroup with groupId := groupId })]
  | groupMsg groupId content attachments =>
      if attachments.length = 0 then
        [(⟨.insertMsg userId groupId content (.array []), some (userId, command)⟩,
          newCtx .insertGroupMsg)]
      else []
  | createGroupCode groupId maxUses =>
      [(⟨.createGroupCode groupId (if maxUses = 0 then 1 else maxUses) userId,
        some (userId, command)⟩, newCtx .createGroupCode)]
  | joinGroupCode code =>
      [(⟨.insertGroupmemberCode userId code, some (userId, command)⟩, newCtx .userJoinGroupCode)]
  | deleteGroupCode code =>
      [(⟨.deleteGroupCode code userId, some (userId, command)⟩, newCtx .dbDeleteGroupCode)]
  | deleteMsg msgId => [(⟨.deleteMsg msgId userId, some (userId, command)⟩, newCtx .dbDeleteMsg)]
  | deleteGroup groupId =>
      [(⟨.selectOwner groupId, some (userId, command)⟩,
        { newCtx .getGroupOwner with groupId := groupId, userId := userId })]

structure UploadToken where
  userId : Nat
  groupId : Nat
  content : String
  attachments : List JsonObject

def ChatCommand.tokens (userId : Nat) : ChatCommand → List UploadToken
  | groupMsg groupId content attachments =>
      if attachments.length = 0 then [] else [⟨userId, groupId, content, attachments⟩]
  | _ => []

def deleteGroupStmts (groupId : Nat) : List Stmt :=
  [.begin, .getAllAttachs groupId, .selectMemberIds groupId, .delGroupMsg groupId,
    .delGroupMembers groupId, .delGroupCodes groupId, .delGroup groupId, .commit]

def deleteGroupCtxs (groupId : Nat) : List (DbcmdCtx C) :=
  let first := { newCtx .begin with groupId := groupId }
  let ids := { first with exec := false, noJson := true }
  [first, { first with exec := false, execRes := .getAllAttachs },
    { ids with execRes := .dbGetGroupMemberIds }, { ids with execRes := .delGroup },
    { ids with execRes := .delGroup }, { ids with execRes := .delGroup },
    { ids with execRes := .delGroup }, { newCtx .begin with exec := false }]

def dbAsyncDeleteGroup (userId groupId : Nat) : List (Sent × DbcmdCtx C) :=
  ((deleteGroupStmts groupId).map (fun stmt => ⟨stmt, some (userId, .deleteGroup groupId)⟩)).zip
    (deleteGroupCtxs groupId)

/-- The callback of `server_delete_group`. -/
def getGroupOwner (ctx : DbcmdCtx C) : List (Sent × DbcmdCtx C) :=
  if ctx.ret = .error then []
  else if ctx.userId ≠ ctx.ownerId then []
  else dbAsyncDeleteGroup ctx.userId ctx.groupId

/-- What an event brings: a command of a logged-in user, the last upload of a message, a
registration, or something that sends statements of the remaining kind. -/
inductive Request (C : Type)
  | chat (userId : Nat) (command : ChatCommand)
  | upload (token : UploadToken) (attachments : JsonObject)
  | register (username displayname : String)
  | other (cmds : List (DbcmdCtx C))

def Request.sends : Request C → List (Sent × DbcmdCtx C)
  | chat userId command => command.sends userId
  | upload token attachments =>
      [(⟨.insertMsg token.userId token.groupId token.content attachments,
        some (token.userId, .groupMsg token.groupId token.content token.attachments)⟩,
          newCtx .insertGroupMsg)]
  | register username displayname =>
      [(⟨.insertUser username displayname, none⟩, newCtx .dbInsertUser)]
  | other cmds => cmds.map (fun ctx => (⟨.other, none⟩, ctx))

def Request.issued : Request C → List (Nat × ChatCommand)
  | chat userId command => [(userId, command)]
  | _ => []

def Request.tokens : Request C → List UploadToken
  | chat userId command => command.tokens userId
  | _ => []

def Others (cmds : List (DbcmdCtx C)) : Prop :=
  Command cmds ∧ ∀ ctx ∈ cmds, ctx.execRes ≠ .getGroupOwner

/-- A worker with its connection: all statements sent, the
results of those executed, and the transaction. -/
structure Worker (C : Type) where
  pipe : ServerDb C
  stmts : List Sent
  results : List PGresult
  tx : Option Tx

def Worker.init : Worker C := ⟨dbInit, [], [], none⟩

/-- The database, the workers, the messages that wait for uploads, and a log of the commands. -/
structure World (W C : Type) where
  store : Store
  workers : W → Worker C
  tokens : List UploadToken
  issued : List (Nat × ChatCommand)

def Request.Allowed (x : World W C) : Request C → Prop
  | chat userId _ => userId ∈ x.store.users.map UserRow.userId
  | upload token _ => token ∈ x.tokens
  | register _ _ => True
  | other cmds => Others cmds

def Worker.event (w : Worker C) (client : Option C) (sends : List (Sent × DbcmdCtx C)) : Worker C :=
  { w with
    pipe := eworkerPrepEvent w.pipe client (sends.map Prod.snd)
    stmts := w.stmts ++ sends.map Prod.fst }

def Worker.exec (w : Worker C) (ctx : DbcmdCtx C) (rest : List (DbcmdCtx C))
    (sends : List (Sent × DbcmdCtx C)) :
    Worker C :=
  { w with
    pipe := dbExecCmd w.pipe ctx rest (sends.map Prod.snd)
    stmts := w.stmts ++ sends.map Prod.fst }

def Callback (ctx : DbcmdCtx C) (sends : List (Sent × DbcmdCtx C)) : Prop :=
  if ctx.exec = false then sends = []
  else if ctx.execRes = .getGroupOwner then sends = getGroupOwner ctx
  else ∃ cmds, Others cmds ∧ sends = (Request.other cmds).sends

inductive Act (W C : Type)
  | event (w : W) (client : Option C) (requests : List (Request C))
  | execute (w : W)
  | deliver (w : W)
  | exec (w : W) (sends : List (Sent × DbcmdCtx C))

/-- Any number of workers in any order. The database executes
the statements of a connection in order. -/
inductive WorldStep : World W C → Act W C → World W C → Prop
  | event {x : World W C} (w : W) (client : Option C) (requests : List (Request C))
      (hrun : (x.workers w).pipe.running = []) (hreq : ∀ request ∈ requests, request.Allowed x) :
      WorldStep x (.event w client requests) { x with
        workers := Function.update x.workers w
          ((x.workers w).event client (requests.flatMap Request.sends))
        tokens := x.tokens ++ requests.flatMap Request.tokens
        issued := x.issued ++ requests.flatMap Request.issued }
  | execute {x : World W C} (w : W) {sent : Sent} {res : PGresult} {store : Store} {tx : Option Tx}
      (hsent : (x.workers w).stmts[(x.workers w).results.length]? = some sent)
      (hexec : Execute (x.workers w).results.length x.store (x.workers w).tx sent.stmt res store
        tx) :
      WorldStep x (.execute w) { x with
        store := store
        workers := Function.update x.workers w
          { x.workers w with results := (x.workers w).results ++ [res], tx := tx } }
  | deliver {x : World W C} (w : W) {res : PGresult} (hrun : (x.workers w).pipe.running = [])
      (hres : (x.workers w).results[(x.workers w).pipe.arrived]? = some res) :
      WorldStep x (.deliver w) { x with
        workers := Function.update x.workers w
          { x.workers w with pipe := dbProcessResult (x.workers w).pipe res } }
  | exec {x : World W C} (w : W) {ctx : DbcmdCtx C} {rest : List (DbcmdCtx C)}
      (sends : List (Sent × DbcmdCtx C))
      (hrun : (x.workers w).pipe.running = ctx :: rest) (hsends : Callback ctx sends) :
      WorldStep x (.exec w sends) { x with
        workers := Function.update x.workers w ((x.workers w).exec ctx rest sends) }

def Initial (x : World W C) : Prop :=
  Stored x.store ∧ (∀ w, x.workers w = Worker.init) ∧ x.tokens = [] ∧ x.issued = []

/-- A chain is only enqueued while the ring of its worker has a free slot. -/
def HasRoom (x : World W C) : Act W C → Prop
  | .event w _ requests => requests.flatMap Request.sends ≠ [] →
      (x.workers w).pipe.queue.count < dbPipelineQueueSize
  | .exec w sends => sends ≠ [] → (x.workers w).pipe.queue.count < dbPipelineQueueSize
  | _ => True

end ChityChat.WriteCommands
