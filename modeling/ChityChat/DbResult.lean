import ChityChat.JsonC

namespace ChityChat.DbResult

open JsonC

inductive ExecStatusType
  | commandOk
  | tuplesOk
  | fatalError
  | pipelineSync
  | other
  deriving DecidableEq

inductive Value
  | text (s : String)
  | int (n : Int)
  | json (j : JsonObject)

def Value.isEmpty : Value → Bool
  | text s => s.isEmpty
  | _ => false

/-- A result is a handle to what libpq allocated for it. A SQL NULL is `none`. -/
structure PGresult where
  handle : Nat
  status : ExecStatusType
  rows : List (List (Option Value))

/-- A `const char*`: a string literal, or a pointer into a result. -/
inductive Text
  | literal (s : String)
  | ofResult (handle : Nat) (value : Value)

def Text.source : Text → Option Nat
  | literal _ => none
  | ofResult handle _ => some handle

def Text.value : Text → Value
  | literal s => .text s
  | ofResult _ value => value

def pqNtuples (res : PGresult) : Nat := res.rows.length

/-- NULL outside the table, and the empty string for a SQL NULL. -/
def pqGetvalue (res : PGresult) (row column : Nat) : Option Text :=
  ((res.rows[row]?).bind (fun values => values[column]?)).map
    (fun value => .ofResult res.handle (value.getD (.text "")))

def digitsValue (digits : List Char) : Nat :=
  (digits.takeWhile Char.isDigit).foldl (fun n c => n * 10 + (c.toNat - '0'.toNat)) 0

def atoi : Value → Int
  | .int n => n
  | .json _ => 0
  | .text s =>
    match s.toList with
    | '-' :: digits => -(digitsValue digits)
    | digits => digitsValue digits

def strtoul (text : Option Text) : Nat := text.elim 0 (fun text => u32 (atoi text.value))

def columnBytes (text : Option Text) : Bytes :=
  match text.map Text.value with
  | some (.text s) => utf8 s
  | _ => []

def dbDisplaynameMax : Nat := 50
def dbDescMax : Nat := 256
def dbTimestampMax : Nat := 64

/-- The arrays hold what `strncpy` copied into zeroed memory. -/
structure DbGroup where
  groupId : Nat
  ownerId : Nat
  displayname : Bytes
  desc : Bytes
  isPublic : Bool
  createdAt : Bytes

def dbRowToGroup (res : PGresult) (row : Nat) : DbGroup where
  groupId := strtoul (pqGetvalue res row 0)
  ownerId := strtoul (pqGetvalue res row 1)
  displayname := (columnBytes (pqGetvalue res row 2)).take dbDisplaynameMax
  desc := (columnBytes (pqGetvalue res row 3)).take dbDescMax
  isPublic := (columnBytes (pqGetvalue res row 4)).head? = some 't'.toUInt8
  createdAt := (columnBytes (pqGetvalue res row 5)).take dbTimestampMax

inductive DbAsync
  | busy
  | ok
  | error
  deriving DecidableEq

inductive ExecRes
  | dbGetGroups
  | dbGetGroupMemberIds
  | doGetGroupMsgs
  | insertGroupMsg
  | dbDeleteMsg
  | getPublicGroups
  | joinPubGroup
  | createGroup
  | createGroupCode
  | getGroupCodes
  | userJoinGroupCode
  | dbDeleteGroupCode
  | delGroup
  | getAllAttachs
  | getGroupOwner
  | dbGetUser
  | dbInsertUser
  | dbGetUserJson
  | getConnectedUsers
  | updateUser
  | insertUserfiles
  | deleteUserfile
  | userfileRefcount
  | begin
  deriving DecidableEq

/-- `dbcmd_ctx_t` without `next`. `query` numbers the query that it was created for, `exec` tells
whether there is a callback, and `text` is the text field of `param`: `ids_json`, `msgs_json`,
`attachments_json`, `array_json` or `str`; `groups` is `data` where that is an array of groups. -/
structure DbcmdCtx (C : Type) where
  query : Nat
  client : Option C
  ret : DbAsync
  noJson : Bool
  dataSize : Int
  exec : Bool
  execRes : ExecRes
  groupId : Nat
  ownerId : Nat
  userId : Nat
  text : Option Text
  groups : List DbGroup

variable {C : Type}

def DbcmdCtx.returns (ctx : DbcmdCtx C) (ret : DbAsync) : DbcmdCtx C := { ctx with ret := ret }

def commandResult (res : PGresult) (ctx : DbcmdCtx C) : DbcmdCtx C :=
  if res.status = .commandOk then ctx.returns .ok else ctx.returns .error

def textResult (res : PGresult) (text : Option Text) (ctx : DbcmdCtx C) : DbcmdCtx C :=
  if res.status = .tuplesOk then { ctx with text := text, ret := .ok } else ctx.returns .error

def rowsResult (res : PGresult) (ctx : DbcmdCtx C) : DbcmdCtx C :=
  if res.status = .tuplesOk then { ctx with dataSize := pqNtuples res, ret := .ok }
    else ctx.returns .error

def presentResult (res : PGresult) (ctx : DbcmdCtx C) : DbcmdCtx C :=
  if res.status = .tuplesOk ∧ pqNtuples res ≠ 0 then ctx.returns .ok else ctx.returns .error

def dbGetGroupsResult (res : PGresult) (ctx : DbcmdCtx C) : DbcmdCtx C :=
  if res.status = .tuplesOk then
    { ctx with
      groups := (List.range (pqNtuples res)).map (dbRowToGroup res), dataSize := pqNtuples res,
      ret := .ok }
  else ctx.returns .error

def dbGetGroupMemberIdsResult (res : PGresult) (ctx : DbcmdCtx C) : DbcmdCtx C :=
  if ctx.noJson then rowsResult res ctx
  else textResult res (some ((pqGetvalue res 0 0).getD (.literal "[]"))) ctx

def doGetGroupMsgs (res : PGresult) (ctx : DbcmdCtx C) : DbcmdCtx C :=
  textResult res (some (((pqGetvalue res 0 0).filter (fun text => !text.value.isEmpty)).getD
    (.literal "[]"))) ctx

def insertGroupMsgResult (res : PGresult) (ctx : DbcmdCtx C) : DbcmdCtx C :=
  if res.status = .tuplesOk ∧ strtoul (pqGetvalue res 0 0) ≠ 0 then ctx.returns .ok
    else ctx.returns .error

def dbDeleteMsgResult (res : PGresult) (ctx : DbcmdCtx C) : DbcmdCtx C :=
  if res.status = .tuplesOk ∧ pqNtuples res ≠ 0 then
    { ctx with groupId := strtoul (pqGetvalue res 0 0), text := pqGetvalue res 0 1, ret := .ok }
  else ctx.returns .error

def getPublicGroupsResult (res : PGresult) (ctx : DbcmdCtx C) : DbcmdCtx C :=
  textResult res (some ((pqGetvalue res 0 0).getD (.literal "[]"))) ctx

def joinPubGroupResult (res : PGresult) (ctx : DbcmdCtx C) : DbcmdCtx C := commandResult res ctx

def createGroupResult (res : PGresult) (ctx : DbcmdCtx C) : DbcmdCtx C :=
  if res.status = .tuplesOk then ctx.returns .ok else ctx.returns .error

def createGroupCodeResult (res : PGresult) (ctx : DbcmdCtx C) : DbcmdCtx C := presentResult res ctx

def getGroupCodesResult (res : PGresult) (ctx : DbcmdCtx C) : DbcmdCtx C :=
  textResult res (some ((pqGetvalue res 0 0).getD (.literal "[]"))) ctx

def userJoinGroupCodeResult (res : PGresult) (ctx : DbcmdCtx C) : DbcmdCtx C :=
  if res.status = .tuplesOk ∧ (pqGetvalue res 0 0).isSome then
    { ctx with groupId := strtoul (pqGetvalue res 0 0), ret := .ok }
  else ctx.returns .error

def dbDeleteGroupCodeResult (res : PGresult) (ctx : DbcmdCtx C) : DbcmdCtx C :=
  commandResult res ctx

def delGroupResult (res : PGresult) (ctx : DbcmdCtx C) : DbcmdCtx C := commandResult res ctx

def getAllAttachsResult (res : PGresult) (ctx : DbcmdCtx C) : DbcmdCtx C :=
  if res.status = .tuplesOk ∧ pqNtuples res = 0 then ctx.returns .ok else rowsResult res ctx

def getGroupOwnerResult (res : PGresult) (ctx : DbcmdCtx C) : DbcmdCtx C :=
  if res.status = .tuplesOk ∧ pqNtuples res ≠ 0 then
    { ctx with ownerId := strtoul (pqGetvalue res 0 0), ret := .ok }
  else ctx.returns .error

def dbGetUserResult (res : PGresult) (ctx : DbcmdCtx C) : DbcmdCtx C := presentResult res ctx

def dbInsertUserResult (res : PGresult) (ctx : DbcmdCtx C) : DbcmdCtx C :=
  if res.status = .tuplesOk then ctx.returns .ok else ctx.returns .error

def dbGetUserJsonResult (res : PGresult) (ctx : DbcmdCtx C) : DbcmdCtx C :=
  if res.status = .tuplesOk ∧ (pqGetvalue res 0 0).isSome then
    { ctx with text := pqGetvalue res 0 0, ret := .ok }
  else ctx.returns .error

def getConnectedUsersResult (res : PGresult) (ctx : DbcmdCtx C) : DbcmdCtx C :=
  if pqNtuples res = 0 then ctx.returns .error else rowsResult res ctx

def updateUserResult (res : PGresult) (ctx : DbcmdCtx C) : DbcmdCtx C := commandResult res ctx

def insertUserfilesResult (res : PGresult) (ctx : DbcmdCtx C) : DbcmdCtx C := commandResult res ctx

def deleteUserfileResult (res : PGresult) (ctx : DbcmdCtx C) : DbcmdCtx C := commandResult res ctx

def userfileRefcountResult (res : PGresult) (ctx : DbcmdCtx C) : DbcmdCtx C :=
  if res.status = .tuplesOk then
    { ctx with dataSize := (pqGetvalue res 0 0).elim 0 (fun text => atoi text.value), ret := .ok }
  else ctx.returns .error

def beginResult (res : PGresult) (ctx : DbcmdCtx C) : DbcmdCtx C :=
  if res.status = .fatalError then ctx.returns .error else ctx.returns .ok

def ExecRes.run : ExecRes → PGresult → DbcmdCtx C → DbcmdCtx C
  | dbGetGroups => dbGetGroupsResult
  | dbGetGroupMemberIds => dbGetGroupMemberIdsResult
  | .doGetGroupMsgs => DbResult.doGetGroupMsgs
  | insertGroupMsg => insertGroupMsgResult
  | dbDeleteMsg => dbDeleteMsgResult
  | getPublicGroups => getPublicGroupsResult
  | joinPubGroup => joinPubGroupResult
  | createGroup => createGroupResult
  | createGroupCode => createGroupCodeResult
  | getGroupCodes => getGroupCodesResult
  | userJoinGroupCode => userJoinGroupCodeResult
  | dbDeleteGroupCode => dbDeleteGroupCodeResult
  | delGroup => delGroupResult
  | getAllAttachs => getAllAttachsResult
  | getGroupOwner => getGroupOwnerResult
  | dbGetUser => dbGetUserResult
  | dbInsertUser => dbInsertUserResult
  | dbGetUserJson => dbGetUserJsonResult
  | getConnectedUsers => getConnectedUsersResult
  | updateUser => updateUserResult
  | insertUserfiles => insertUserfilesResult
  | deleteUserfile => deleteUserfileResult
  | userfileRefcount => userfileRefcountResult
  | begin => beginResult

structure Answered (ctx ctx' : DbcmdCtx C) : Prop where
  query : ctx'.query = ctx.query
  exec : ctx'.exec = ctx.exec
  client : ctx'.client = ctx.client
  execRes : ctx'.execRes = ctx.execRes
  noJson : ctx'.noJson = ctx.noJson
  ret : ctx'.ret ≠ .busy

theorem returns_answered (ctx : DbcmdCtx C) {ret : DbAsync} (h : ret ≠ .busy) :
    Answered ctx (ctx.returns ret) :=
  ⟨rfl, rfl, rfl, rfl, rfl, h⟩

theorem commandResult_answered (res : PGresult) (ctx : DbcmdCtx C) :
    Answered ctx (commandResult res ctx) := by
  rw [commandResult]
  split <;> exact returns_answered ctx (by decide)

theorem textResult_answered (res : PGresult) (text : Option Text) (ctx : DbcmdCtx C) :
    Answered ctx (textResult res text ctx) := by
  rw [textResult]
  split
  · exact ⟨rfl, rfl, rfl, rfl, rfl, by simp⟩
  · exact returns_answered ctx (by decide)

theorem rowsResult_answered (res : PGresult) (ctx : DbcmdCtx C) :
    Answered ctx (rowsResult res ctx) := by
  rw [rowsResult]
  split
  · exact ⟨rfl, rfl, rfl, rfl, rfl, by simp⟩
  · exact returns_answered ctx (by decide)

theorem run_answered (k : ExecRes) (res : PGresult) (ctx : DbcmdCtx C) :
    Answered ctx (k.run res ctx) := by
  cases k with
  | joinPubGroup | dbDeleteGroupCode | delGroup | updateUser | insertUserfiles | deleteUserfile =>
      exact commandResult_answered res ctx
  | getPublicGroups | getGroupCodes | doGetGroupMsgs => exact textResult_answered res _ ctx
  | dbGetGroupMemberIds =>
      simp only [ExecRes.run, dbGetGroupMemberIdsResult]
      split
      · exact rowsResult_answered res ctx
      · exact textResult_answered res _ ctx
  | getAllAttachs =>
      simp only [ExecRes.run, getAllAttachsResult]
      split
      · exact returns_answered ctx (by decide)
      · exact rowsResult_answered res ctx
  | getConnectedUsers =>
      simp only [ExecRes.run, getConnectedUsersResult]
      split
      · exact returns_answered ctx (by decide)
      · exact rowsResult_answered res ctx
  | insertGroupMsg | createGroup | createGroupCode | dbGetUser | dbInsertUser | begin =>
      simp only [ExecRes.run, insertGroupMsgResult, createGroupResult, createGroupCodeResult,
        dbGetUserResult, dbInsertUserResult, beginResult, presentResult]
      split <;> exact returns_answered ctx (by decide)
  | dbGetGroups | dbDeleteMsg | userJoinGroupCode | getGroupOwner | dbGetUserJson
  | userfileRefcount =>
      simp only [ExecRes.run, dbGetGroupsResult, dbDeleteMsgResult, userJoinGroupCodeResult,
        getGroupOwnerResult, dbGetUserJsonResult, userfileRefcountResult]
      split
      · exact ⟨rfl, rfl, rfl, rfl, rfl, by simp⟩
      · exact returns_answered ctx (by decide)

end ChityChat.DbResult
