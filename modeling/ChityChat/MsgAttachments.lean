import ChityChat.CString
import ChityChat.JsonC
import ChityChat.UserFile

namespace ChityChat.MsgAttachments

open CString JsonC Transition UserFile

variable {W : Type} [DecidableEq W]

def pathMax : Nat := 4096
def configPathLen : Nat := 512
def sha256DigestLength : Nat := 32
def dbPfpHashMax : Nat := 2 * sha256DigestLength + 1
def dbPfpNameMax : Nat := 255
def dbMimeTypeLen : Nat := 32
def dbMessageMax : Nat := 4096

structure Digest where
  bytes : Bytes
  length_eq : bytes.length = sha256DigestLength

structure Libs where
  sha256 : Bytes → Digest
  magicBuffer : Bytes → Option Bytes
  toJsonString : JsonObject → Bytes

structure Dirs extends Conf where
  imgFits : imgDir.length < configPathLen
  vidFits : vidDir.length < configPathLen
  fileFits : fileDir.length < configPathLen

def ofBytes (s : Bytes) : String := String.ofList (s.map (fun c => Char.ofNat c.toNat))

def hexDigit (n : Nat) : UInt8 := UInt8.ofNat (if n < 10 then 48 + n else 87 + n)

def serverSha256Str (libs : Libs) (data : Bytes) : Bytes :=
  (libs.sha256 data).bytes.flatMap (fun b => [hexDigit (b.toNat / 16), hexDigit (b.toNat % 16)])

/-- `json_object_get_string` prints what is no string. -/
def getString (libs : Libs) : JsonObject → Option Bytes
  | .null => none
  | .string s => some (cstr s)
  | json => some (libs.toJsonString json)

structure Msg where
  userId : Nat
  groupId : Nat
  content : Bytes
  attachments : List JsonObject

def serverVerifyMsgAttachments (attachments : List JsonObject) : Except String Unit :=
  attachments.forM (fun attach => do
    let _ ← stringField attach "name"
    let type ← stringField attach "type"
    if utf8 "image/" <+: cstr type then .ok () else .error "Attachment type is not image.")

def serverGroupMsg (userId : Nat) (payload : JsonObject) : Except String Msg := do
  let groupId ← intField payload "group_id"
  let content ← stringField payload "content"
  let attachments ← arrayField payload "attachments"
  serverVerifyMsgAttachments attachments
  .ok ⟨userId, u32 groupId, (cstr content).take dbMessageMax, attachments⟩

structure UploadToken where
  msg : Msg
  total : Nat
  current : Nat

structure Upload where
  attachIndex : Option Bytes
  body : Bytes

def serverSaveFileImg (libs : Libs) (data : Bytes) : Option DbuserFile :=
  match libs.magicBuffer data with
  | none => none
  | some mimeType =>
    if utf8 "image/" <:+: mimeType then
      some ⟨ofBytes (serverSha256Str libs data), ofBytes (mimeType.take dbMimeTypeLen)⟩
    else none

def attachIndexOf (ut : UploadToken) (upload : Upload) : Option (Nat × JsonObject) :=
  match upload.attachIndex with
  | none => none
  | some str =>
    let index := strtoull str
    if index = 2 ^ 64 - 1 then none
    else
      match ut.msg.attachments[index]? with
      | none | some .null => none
      | some attach => some (index, attach)

structure Accepted where
  index : Nat
  file : DbuserFile
  ut : UploadToken

def serverHandleMsgAttach (libs : Libs) (ut : UploadToken) (upload : Upload) : Option Accepted :=
  match attachIndexOf ut upload, serverSaveFileImg libs upload.body with
  | some (index, attach), some file =>
    let hashed := attach.objectAdd "hash" (.string (serverSha256Str libs upload.body))
    some ⟨index, file, {
      msg := { ut.msg with attachments := ut.msg.attachments.set index hashed }
      total := ut.total
      current := (ut.current + 1) % 2 ^ 32 }⟩
  | _, _ => none

/-- The file of a stored attachment. A string that is missing is a NULL source of `strncpy`. -/
def attachFile (libs : Libs) (attach : JsonObject) : Option DbuserFile := do
  let hash ← getString libs (attach.objectGet "hash")
  let type ← getString libs (attach.objectGet "type")
  let name ← getString libs (attach.objectGet "name")
  let mimeStr := type.take dbMimeTypeLen
  let nameStr := runOn dbPfpNameMax (name.take dbPfpNameMax) mimeStr
  let hashStr := runOn dbPfpHashMax (hash.take dbPfpHashMax) nameStr
  some ⟨ofBytes hashStr, ofBytes mimeStr⟩

def unlinkPath (conf : Conf) (file : DbuserFile) : List Char :=
  ((serverMimeTypeDir conf file.mimeType).toList ++ '/' :: file.hash.toList).take (pathMax - 1)

def send (store : Store W) (w : W) (ops : List Op) : Store W :=
  { store with sent := Function.update store.sent w (store.sent w ++ ops) }

/-- An insert that was sent, with the token that its callback deletes. -/
structure SentMsg where
  token : Option Nat
  msg : Msg

/-- `owners` are the groups. The arrays in `deleted` wait for the callback of their `delete_msg` or
`delete_group`. The last two are no data of the server: the attachments that were uploaded for each
token, and the bodies whose hash was computed. -/
structure State (W : Type) where
  store : Store W
  owners : Nat → Option Nat
  tokens : Nat → Option UploadToken
  sentMsgs : List SentMsg
  inserted : List Nat
  msgSeq : Nat
  messages : List (Nat × Msg)
  deleted : List (List (List JsonObject))
  crashed : Bool
  uploaded : Nat → List Nat
  hashed : List Bytes

def newMsg (s : State W) (token : Nat) (msg : Msg) : State W :=
  if msg.attachments = [] then { s with sentMsgs := s.sentMsgs ++ [⟨none, msg⟩] }
  else if (s.tokens token).isSome then s
  else { s with
    tokens := Function.update s.tokens token
      (some ⟨msg, msg.attachments.length % 2 ^ 32, 0⟩)
    uploaded := Function.update s.uploaded token [] }

def accept (s : State W) (w : W) (token : Nat) (body : Bytes) (a : Accepted) : State W :=
  { s with
    store := send s.store w [.saveFileImg a.file]
    tokens := Function.update s.tokens token (some a.ut)
    sentMsgs := if a.ut.total ≤ a.ut.current then s.sentMsgs ++ [⟨some token, a.ut.msg⟩]
      else s.sentMsgs
    uploaded := Function.update s.uploaded token (a.index :: s.uploaded token)
    hashed := body :: s.hashed }

def MayDelete (s : State W) (userId : Nat) (msg : Msg) : Prop :=
  ∃ owner ∈ s.owners msg.groupId, msg.userId = userId ∨ owner = userId

inductive Action (W : Type)
  | groupMsg (userId : Nat) (payload : JsonObject) (token : Nat)
  | upload (worker : W) (token : Nat) (upload : Upload)
  | expire (token : Nat)
  | insertMsg (rejected : Bool)
  | insertMsgAfter (token : Nat)
  | deleteMsg (userId msgId : Nat)
  | deleteGroup (userId groupId : Nat)
  | deleteAttachments (worker : W)
  | file (action : UserFile.Action W)

/-- The commands, the uploads, the statements and callbacks that they lead to. The operations on
files are sent by those only. -/
inductive Step (libs : Libs) (conf : Conf) : State W → Action W → State W → Prop
  | groupMsg {s : State W} {userId : Nat} {payload : JsonObject} (token : Nat) {msg : Msg}
      (hmsg : serverGroupMsg userId payload = .ok msg) :
    Step libs conf s (.groupMsg userId payload token) (newMsg s token msg)
  | upload {s : State W} (w : W) (token : Nat) {ut : UploadToken} {upload : Upload} {a : Accepted}
      (hut : s.tokens token = some ut) (haccept : serverHandleMsgAttach libs ut upload = some a) :
    Step libs conf s (.upload w token upload) (accept s w token upload.body a)
  | expire {s : State W} (token : Nat) :
    Step libs conf s (.expire token) { s with tokens := Function.update s.tokens token none }
  | insertMsg {s : State W} (before : List SentMsg) {after : List SentMsg} {e : SentMsg}
      (rejected : Bool) (hs : s.sentMsgs = before ++ e :: after) :
    Step libs conf s (.insertMsg rejected) { s with
      sentMsgs := before ++ after
      inserted := s.inserted ++ e.token.toList
      msgSeq := s.msgSeq + 1
      messages := if rejected then s.messages else s.messages ++ [(s.msgSeq, e.msg)] }
  | insertMsgAfter {s : State W} {token : Nat} (hs : token ∈ s.inserted) :
    Step libs conf s (.insertMsgAfter token) { s with
      tokens := Function.update s.tokens token none
      inserted := s.inserted.erase token }
  | deleteMsg {s : State W} {userId msgId : Nat} {msg : Msg} (hmsg : (msgId, msg) ∈ s.messages)
      (hmay : MayDelete s userId msg) :
    Step libs conf s (.deleteMsg userId msgId) { s with
      messages := s.messages.filter (fun m => m.1 ≠ msgId)
      deleted := s.deleted ++ [[msg.attachments]] }
  | deleteGroup {s : State W} {userId groupId : Nat} (howner : s.owners groupId = some userId) :
    Step libs conf s (.deleteGroup userId groupId) { s with
      owners := Function.update s.owners groupId none
      messages := s.messages.filter (fun m => m.2.groupId ≠ groupId)
      deleted := s.deleted ++ [((s.messages.filter (fun m => m.2.groupId = groupId)).map
        (fun m => m.2.attachments)).filter (· ≠ [])] }
  | deleteAttachments {s : State W} (w : W) (before : List (List (List JsonObject)))
      {after : List (List (List JsonObject))} {e : List (List JsonObject)} {files : List DbuserFile}
      (hs : s.deleted = before ++ e :: after)
      (hfiles : e.flatten.mapM (attachFile libs) = some files) :
    Step libs conf s (.deleteAttachments w) { s with
      store := send s.store w (files.map .deleteFile)
      deleted := before ++ after }
  | crash {s : State W} (w : W) {e : List (List JsonObject)} (hs : e ∈ s.deleted)
      (hnull : e.flatten.mapM (attachFile libs) = none) :
    Step libs conf s (.deleteAttachments w) { s with crashed := true }
  | file {s : State W} {action : UserFile.Action W} {store : Store W}
      (hsent : ∀ w op, action ≠ .send w op) (hstep : UserFile.Step conf s.store action store) :
    Step libs conf s (.file action) { s with store }

def Running (libs : Libs) (conf : Conf) (s : State W) (a : Action W) (s' : State W) : Prop :=
  s.crashed = false ∧ Step libs conf s a s'

/-- `do_delete_file` passes this path to `unlink` in this step. -/
inductive Unlinks (conf : Conf) (s : State W) : Action W → List Char → Prop
  | exec {before after : List (InFlight W)} {w : W} {file : DbuserFile} {refCount : Int}
      (hs : s.store.inFlight = before ++ ⟨w, .deleteFile file, true, some refCount⟩ :: after)
      (hfirst : ∀ x ∈ before, x.worker ≠ w) (hzero : refCount ≤ 0) :
    Unlinks conf s (.file (.exec w)) (unlinkPath conf file)

structure Initial (s : State W) : Prop where
  store : UserFile.Quiet s.store
  tokens : ∀ token, s.tokens token = none
  sentMsgs : s.sentMsgs = []
  inserted : s.inserted = []
  messages : s.messages = []
  deleted : s.deleted = []
  crashed : s.crashed = false
  hashed : s.hashed = []

end ChityChat.MsgAttachments
