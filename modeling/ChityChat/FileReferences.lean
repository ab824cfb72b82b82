import ChityChat.Counts
import ChityChat.DbResult
import ChityChat.RingBuffer
import ChityChat.UnlinkConfinement
import ChityChat.UserFileAgree
import ChityChat.UserLogin

namespace ChityChat.FileReferences

open CString JsonC Transition DbResult Counts
open UserFile (DbuserFile UserFiles insertUserfiles)
open MsgAttachments (Libs Msg Upload Accepted serverGroupMsg serverHandleMsgAttach attachIndexOf
  serverSaveFileImg attachFile serverSha256Str ofBytes getString dbPfpHashMax dbPfpNameMax
  dbMimeTypeLen)

variable {C : Type} [DecidableEq C]

structure UserRow where
  userId : Nat
  username : String
  displayname : String
  bio : Option String
  hash : String
  salt : String
  createdAt : String
  pfp : Option String

def UserRow.values (row : UserRow) : List (Option Value) :=
  [some (.int row.userId), some (.text row.username), some (.text row.displayname),
    row.bio.map .text, some (.text row.hash), some (.text row.salt), some (.text row.createdAt),
    row.pfp.map .text]

def selectUser (row : UserRow) : PGresult := ⟨0, .tuplesOk, [row.values]⟩

structure DbUser where
  userId : Nat
  pfpHash : String

def dbRowToUser (res : PGresult) (row : Nat) : DbUser where
  userId := strtoul (pqGetvalue res row 0)
  pfpHash := ofBytes ((columnBytes (pqGetvalue res row 8)).take dbPfpHashMax)

inductive UploadToken
  | userPfp (userId : Nat)
  | msgAttachment (msgState : MsgAttachments.UploadToken) (uploaded : List Nat)

/-- The tables `UserFiles`, `Users` and `Messages`, the owners of the groups, and the server.
`pfpHash` is the copy in the `dbuser` of a client. -/
structure State (C : Type) where
  rows : UserFiles
  users : List UserRow
  owners : Nat → Option Nat
  messages : List (Nat × Msg)
  msgSeq : Nat
  logins : UserLogin.Server C
  pfpHash : C → String
  tokens : List (Nat × UploadToken)
  crashed : Bool

def setLoggedIn (s : State C) (c : C) (user : DbUser) (sent : Bool) : State C :=
  match UserLogin.serverSetClientLoggedIn s.logins c user.userId sent with
  | (none, logins) => { s with logins, pfpHash := Function.update s.pfpHash c user.pfpHash }
  | (some _, _) => s

/-- A token whose number is taken is not found by any upload. -/
def newUploadToken (s : State C) (token : Nat) (ut : UploadToken) : State C :=
  if token ∈ s.tokens.map Prod.fst then s else { s with tokens := s.tokens ++ [(token, ut)] }

def insertMsg (s : State C) (msg : Msg) (rejected : Bool) : State C :=
  { s with
    messages := if rejected then s.messages else s.messages ++ [(s.msgSeq, msg)]
    msgSeq := s.msgSeq + 1 }

def newMsg (s : State C) (token : Nat) (msg : Msg) (rejected : Bool) : State C :=
  if msg.attachments = [] then insertMsg s msg rejected
  else newUploadToken s token (.msgAttachment ⟨msg, msg.attachments.length % 2 ^ 32, 0⟩ [])

/-- The foreign key of `pfp` rejects the update when the trigger deletes a row that a user has. -/
def deleteUserfile (users : List UserRow) (rows : UserFiles) (hash : String) : UserFiles :=
  let rows' := UserFile.deleteUserfile rows hash
  if users.any (fun row => row.pfp.any (fun hash => (rows' hash).isNone)) then rows else rows'

def updateUser (users : List UserRow) (rows : UserFiles) (hash : String) (userId : Nat) :
    Option (List UserRow) :=
  if (rows hash).isSome then
    some (users.map (fun row => if row.userId = userId then { row with pfp := some hash } else row))
  else none

def updateUserPfp (s : State C) (c : C) (userId : Nat) (file : DbuserFile) : State C :=
  let rows := insertUserfiles s.rows file.hash
  match updateUser s.users rows file.hash userId with
  | none => { s with rows }
  | some users => { s with
    rows := deleteUserfile users rows (s.pfpHash c)
    users
    pfpHash := Function.update s.pfpHash c file.hash }

/-- A client that was freed is read after it was freed. -/
def serverHandleUserPfpUpdate (libs : Libs) (s : State C) (userId : Nat) (url body : Bytes) :
    State C :=
  if utf8 "/img/" <+: url then
    match s.logins.userHt userId with
    | none => s
    | some c =>
      match s.logins.clients c with
      | some ⟨some userId, _, false⟩ =>
        (serverSaveFileImg libs body).elim s (updateUserPfp s c userId)
      | _ => { s with crashed := true }
  else s

def acceptUpload (s : State C) (before after : List (Nat × UploadToken)) (token : Nat)
    (uploaded : List Nat) (a : Accepted) (rejected : Bool) : State C :=
  let s := { s with rows := insertUserfiles s.rows a.file.hash }
  if a.ut.total ≤ a.ut.current then
    insertMsg { s with tokens := before ++ after } a.ut.msg rejected
  else { s with
    tokens := before ++ (token, .msgAttachment a.ut (a.index :: uploaded)) :: after }

def serverDeleteAttachments (libs : Libs) (s : State C) (attachments : List JsonObject) : State C :=
  match attachments.mapM (attachFile libs) with
  | none => { s with crashed := true }
  | some files => { s with
    rows := files.foldl (fun rows file => deleteUserfile s.users rows file.hash) s.rows }

inductive Op (C : Type)
  | accept (c : C)
  | register (c : C) (row : UserRow) (sent : Bool)
  | login (c : C) (userId : Nat) (sent : Bool)
  | disconnect (c : C)
  | editAccount (c : C) (token : Nat)
  | groupMsg (userId : Nat) (payload : JsonObject) (token : Nat) (rejected : Bool)
  | uploadPfp (token : Nat) (url body : Bytes)
  | uploadAttachment (token : Nat) (upload : Upload) (rejected : Bool)
  | expire (token : Nat)
  | deleteMsg (userId msgId : Nat)
  | deleteGroup (userId groupId : Nat)

/-- Every operation runs with all its statements before the next one starts. -/
inductive Step (libs : Libs) : State C → Op C → State C → Prop
  | accept {s : State C} {c : C} (h : s.logins.clients c = none) :
    Step libs s (.accept c) { s with logins := UserLogin.serverAcceptClient s.logins c }
  | register {s : State C} {c : C} {row : UserRow} (sent : Bool) (hc : UserLogin.Connected s.logins c)
      (hnew : ∀ other ∈ s.users, other.userId ≠ row.userId ∧ other.username ≠ row.username)
      (hpfp : row.pfp = none) :
    Step libs s (.register c row sent)
      (setLoggedIn { s with users := s.users ++ [row] } c ⟨row.userId, ""⟩ sent)
  | login {s : State C} {c : C} {row : UserRow} (sent : Bool) (hc : UserLogin.Connected s.logins c)
      (hrow : row ∈ s.users) :
    Step libs s (.login c row.userId sent) (setLoggedIn s c (dbRowToUser (selectUser row) 0) sent)
  | disconnect {s : State C} {c : C} (hc : UserLogin.Connected s.logins c) :
    Step libs s (.disconnect c) { s with logins := UserLogin.serverFreeClient s.logins c }
  | editAccount {s : State C} {c : C} (token : Nat) {userId : Nat}
      (hc : s.logins.clients c = some ⟨some userId, true, false⟩) :
    Step libs s (.editAccount c token) (newUploadToken s token (.userPfp userId))
  | groupMsg {s : State C} {userId : Nat} {payload : JsonObject} (token : Nat) (rejected : Bool)
      {msg : Msg} (hmsg : serverGroupMsg userId payload = .ok msg) :
    Step libs s (.groupMsg userId payload token rejected) (newMsg s token msg rejected)
  | uploadPfp {s : State C} {token userId : Nat} (before : List (Nat × UploadToken))
      {after : List (Nat × UploadToken)} (url body : Bytes)
      (hs : s.tokens = before ++ (token, .userPfp userId) :: after) :
    Step libs s (.uploadPfp token url body)
      (serverHandleUserPfpUpdate libs { s with tokens := before ++ after } userId url body)
  | uploadAttachment {s : State C} {token : Nat} {ut : MsgAttachments.UploadToken}
      {uploaded : List Nat} (before : List (Nat × UploadToken)) {after : List (Nat × UploadToken)}
      {upload : Upload} {a : Accepted} (rejected : Bool)
      (hs : s.tokens = before ++ (token, .msgAttachment ut uploaded) :: after)
      (haccept : serverHandleMsgAttach libs ut upload = some a) :
    Step libs s (.uploadAttachment token upload rejected)
      (acceptUpload s before after token uploaded a rejected)
  | expire {s : State C} {token : Nat} {ut : UploadToken} (before : List (Nat × UploadToken))
      {after : List (Nat × UploadToken)} (hs : s.tokens = before ++ (token, ut) :: after) :
    Step libs s (.expire token) { s with tokens := before ++ after }
  | deleteMsg {s : State C} {userId msgId owner : Nat} {msg : Msg} (before : List (Nat × Msg))
      {after : List (Nat × Msg)} (hs : s.messages = before ++ (msgId, msg) :: after)
      (howner : s.owners msg.groupId = some owner) (hmay : msg.userId = userId ∨ owner = userId) :
    Step libs s (.deleteMsg userId msgId)
      (serverDeleteAttachments libs { s with messages := before ++ after } msg.attachments)
  | deleteGroup {s : State C} {userId groupId : Nat} (howner : s.owners groupId = some userId) :
    Step libs s (.deleteGroup userId groupId)
      (serverDeleteAttachments libs { s with
        owners := Function.update s.owners groupId none
        messages := s.messages.filter (fun m => m.2.groupId ≠ groupId) }
        ((s.messages.filter (fun m => m.2.groupId = groupId)).flatMap (fun m => m.2.attachments)))

def Running (libs : Libs) (s : State C) (op : Op C) (s' : State C) : Prop :=
  s.crashed = false ∧ Step libs s op s'

structure Initial (s : State C) : Prop where
  rows : s.rows = fun _ => none
  users : s.users = []
  messages : s.messages = []
  logins : UserLogin.Initial s.logins
  tokens : s.tokens = []
  crashed : s.crashed = false

def attachHash (attach : JsonObject) : Option String :=
  match attach.objectGet "hash" with
  | .string hash => some (ofBytes (cstr hash))
  | _ => none

def storedHashes (messages : List (Nat × Msg)) : List String :=
  (messages.flatMap (fun m => m.2.attachments)).filterMap attachHash

def pictures (users : List UserRow) : List String := users.filterMap UserRow.pfp

/-- Every row counts the stored attachments and the users with its hash. -/
def Exact (s : State C) : Prop :=
  ∀ hash refCount, s.rows hash = some refCount →
    refCount = (storedHashes s.messages).count hash + (pictures s.users).count hash

def CopyCurrent (s : State C) (c : C) : Prop :=
  ∃ row ∈ s.users, ∃ loggedIn, s.logins.clients c = some ⟨some row.userId, loggedIn, false⟩ ∧
    s.pfpHash c = row.pfp.getD ""

/-- Every attachment is uploaded once, and its message is inserted. No token with an upload expires.
A picture is changed by a client that holds the one of its user. -/
def Matched (libs : Libs) (s : State C) : Op C → Prop
  | .groupMsg _ payload _ _ => ∀ attachments, payload.objectGet "attachments" = .array attachments →
      attachments.length < 2 ^ 32
  | .uploadPfp token url body => ∀ userId c, (token, .userPfp userId) ∈ s.tokens →
      utf8 "/img/" <+: url → (serverSaveFileImg libs body).isSome →
      s.logins.userHt userId = some c → CopyCurrent s c
  | .uploadAttachment token upload rejected => ∀ ut uploaded index attach,
      (token, .msgAttachment ut uploaded) ∈ s.tokens →
      attachIndexOf ut upload = some (index, attach) →
      (serverSaveFileImg libs upload.body).isSome →
      index ∉ uploaded ∧ (ut.total ≤ (ut.current + 1) % 2 ^ 32 → rejected = false)
  | .expire token => ∀ ut uploaded, (token, .msgAttachment ut uploaded) ∈ s.tokens → uploaded = []
  | _ => True

end ChityChat.FileReferences
