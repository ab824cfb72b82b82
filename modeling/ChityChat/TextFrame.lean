import ChityChat.GroupRead
import ChityChat.LoggedInUser
import ChityChat.MsgAttachments
import ChityChat.UserRegister

namespace ChityChat.TextFrame

open CString JsonC ServerHttp UserRegister GroupRead LoggedInUser

variable {C S T : Type} [DecidableEq C] [DecidableEq S] [DecidableEq T]

/-- The callback of a context and what its `param` holds. -/
inductive Exec (S : Type)
  | doClientGroups
  | getAllGroupsResult
  | joinGroupResult (groupId : Nat)
  | doGroupMsg
  | doGetGroupMsgs (groupId : Nat)
  | createGroupCodeResult
  | joinGroupCodeResult
  | getGroupCodesResult (groupId : Nat)
  | deleteGroupCodeResult
  | deleteMsgResult (msgId : Nat)
  | getGroupOwner (groupId userId : Nat)
  | doGetGroupMemberIds (groupId : Nat)
  | doGetUsers
  | doRtusmBroadcast (userId : Nat) (status : Bytes)
  | doClientLogin (param : UserLoginParam)
  | doClientRegister (doSession : Bool)
  | doClientLoginSession (session : S)

/-- A statement, by its text or its name in `db->cmd`, with its parameters and context. -/
structure Query (S : Type) where
  sql : String
  vals : List Bytes
  exec : Exec S

structure Client (S : Type) where
  state : ClientState
  dbuser : Option DbUser
  session : Option S
  hasUser : state.loggedIn = true → dbuser.isSome

def Client.user (client : Client S) (h : client.state.loggedIn = true) : DbUser :=
  client.dbuser.get (client.hasUser h)

inductive UploadType
  | userPfp
  | msgAttachment

structure UploadToken where
  userId : Nat
  type : UploadType
  token : UInt32
  msg : Option MsgAttachments.Msg
  total : Nat
  timerfd : Option Int

/-- The server as the handlers see it. Pointers to clients, sessions and tokens are keys, tables are
finite maps, `timers` are those armed, `queries` those queued by the worker, and `sent` is what the
clients were sent. -/
structure Server (C S T : Type) where
  clients : C → Option (Client S)
  userHt : Nat → Option C
  sessions : S → Option Nat
  sessionHt : UInt32 → Option S
  uploadTokens : T → Option UploadToken
  uploadTokenHt : UInt32 → Option T
  timers : List (Int × T)
  queries : List (Query S)
  sent : List (C × JsonObject)

/-- json-c, libcrypto and libpq, and what the system gives a handler: random bytes, a new block and
the descriptor of a timer. -/
structure Env (S T : Type) where
  parse : Bytes → Option JsonObject
  toJsonString : JsonObject → Bytes
  sha512 : Bytes → Bytes → Bytes
  sends : Query S → Bool
  salt : Bytes
  draw : UInt32
  ut : T
  timerfd : Option Int

/-- The server and `respond_json`. -/
structure Frame (C S T : Type) where
  server : Server C S T
  resp : JsonObject

abbrev Handler (C S T α : Type) := ExceptT String (StateM (Frame C S T)) α

def modifyServer (f : Server C S T → Server C S T) : Handler C S T Unit :=
  modify (fun x => { x with server := f x.server })

def wsJsonSend (client : C) (json : JsonObject) : Handler C S T Unit :=
  modifyServer (fun s => { s with sent := s.sent ++ [(client, json)] })

def dbAsyncParams (env : Env S T) (query : Query S) : Handler C S T Bool := do
  if env.sends query then
    modifyServer (fun s => { s with queries := s.queries ++ [query] })
    pure true
  else pure false

def queue (env : Env S T) (query : Query S) (errmsg : String) : Handler C S T Unit := do
  if (← dbAsyncParams env query) then pure () else throw errmsg

def uintStr (n : Nat) : Bytes := utf8 (toString n)

def intStr (n : Int) : Bytes := utf8 (toString n)

def booleanField (payload : JsonObject) (key : String) : Except String Bool :=
  match payload.objectGet key with
  | .boolean b => .ok b
  | _ => .error (invalidStr key)

/-- An integer as `json_object_get_uint64` gives it, cut to 32 bits. -/
def uint64Field (payload : JsonObject) (key : String) : Except String UInt32 :=
  match payload.objectGet key with
  | .int n => .ok (UInt32.ofNat (min n.toNat (2 ^ 64 - 1)))
  | _ => .error (invalidStr key)

def serverNewUploadToken (env : Env S T) (userId : Nat) (type : UploadType)
    (msg : Option MsgAttachments.Msg) (total : Nat) : Handler C S T Unit :=
  modifyServer (fun s => { s with
    uploadTokens := Function.update s.uploadTokens env.ut
      (some ⟨userId, type, env.draw, msg, total, env.timerfd⟩)
    uploadTokenHt := if (s.uploadTokenHt env.draw).isSome then s.uploadTokenHt
      else Function.update s.uploadTokenHt env.draw (some env.ut)
    timers := s.timers ++ (env.timerfd.map (fun fd => (fd, env.ut))).toList })

def serverSendUploadToken (env : Env S T) (client : C) (packetType : String) :
    Handler C S T Unit :=
  wsJsonSend client (.object [("cmd", .newString packetType),
    ("upload_token", .int env.draw.toNat)])

def serverRtusmUserConnect (env : Env S T) (client : C) (user : DbUser) : Handler C S T Unit := do
  modifyServer (fun s => { s with
    clients := Function.update s.clients client ((s.clients client).map (fun c =>
      { c with
        dbuser := c.dbuser.map (fun user => { user with status := utf8 "online" })
        hasUser := fun h => by simpa using c.hasUser h })) })
  let _ ← dbAsyncParams env ⟨"select_connected_users", [uintStr user.userId],
    .doRtusmBroadcast user.userId (utf8 "online")⟩

section
variable (env : Env S T) (client : C) (user : DbUser) (payload : JsonObject)

def serverClientUserInfo : Handler C S T Unit := do
  let json := match serverAddUserInJson user with
    | .object fields => .object (("cmd", .newString "client_user_info") :: fields)
    | json => json
  modify (fun x => { x with resp := json })
  wsJsonSend client json
  serverRtusmUserConnect env client user

def serverClientGroups : Handler C S T Unit :=
  queue env ⟨"select_user_groups", [uintStr user.userId], .doClientGroups⟩
    "Internal error: async-get-user-groups"

def serverGetGroupMemberIds : Handler C S T Unit := do
  let groupId ← intField payload "group_id"
  queue env ⟨"SELECT json_agg(user_id) FROM GroupMembers WHERE group_id = $1::int;",
    [uintStr (u32 groupId)], .doGetGroupMemberIds (u32 groupId)⟩
    "internal error: async-get-group-member-ids"

def serverGroupCreate : Handler C S T Unit := do
  let name ← stringField payload "name"
  let isPublic ← booleanField payload "public"
  queue env ⟨"insert_group", [(cstr name).take dbDisplaynameMax, uintStr user.userId,
    utf8 (if isPublic then "true" else "false")], .doClientGroups⟩
    "Internal error: async-create-group"

/-- The users that are not connected are asked for before those connected are sent. -/
def serverGetUser : Handler C S T Unit := do
  let elements ← arrayField payload "user_ids"
  match intsOf elements with
  | none | some [] => throw "Invalid array"
  | some ids => do
    let s := (← get).server
    let online := fun id => (s.userHt (lookupId id)).bind (fun c => (s.clients c).bind Client.dbuser)
    let users := ids.reverse.filterMap online
    let others := ids.filter (fun id => (online id).isNone)
    let queued ← if others = [] then pure true else
      dbAsyncParams env ⟨"select_user_json", [env.toJsonString (.array (others.map .int))],
        .doGetUsers⟩
    if users = [] then pure () else
      let json := JsonObject.object [("cmd", .newString "get_user"),
        ("users", .array (users.map serverAddUserInJson))]
      modify (fun x => { x with resp := json })
      wsJsonSend client json
    if queued then pure () else throw "Internal error: async-get-user-array"

def serverGetAllGroups : Handler C S T Unit :=
  queue env ⟨"select_pub_group", [uintStr user.userId], .getAllGroupsResult⟩
    "Internal error: async-get-public-groups"

def serverJoinGroup : Handler C S T Unit := do
  let groupId ← intField payload "group_id"
  queue env ⟨"insert_pub_groupmember", [uintStr user.userId, uintStr (u32 groupId)],
    .joinGroupResult (u32 groupId)⟩ "Internal error: async-user-join-pub-group"

def serverGroupMsg : Handler C S T Unit := do
  let groupId ← intField payload "group_id"
  let content ← stringField payload "content"
  let attachments ← arrayField payload "attachments"
  let content := (cstr content).take MsgAttachments.dbMessageMax
  if attachments.length = 0 then
    queue env ⟨"insert_msg", [uintStr user.userId, uintStr (u32 groupId), content, utf8 "[]"],
      .doGroupMsg⟩ "Internal error: async-group-msg-insert"
  else do
    let () ← MsgAttachments.serverVerifyMsgAttachments attachments
    serverNewUploadToken env 0 .msgAttachment
      (some ⟨user.userId, u32 groupId, content, attachments⟩) attachments.length
    serverSendUploadToken env client "send_attachments"

def serverGetGroupMsgs : Handler C S T Unit := do
  let groupId ← intField payload "group_id"
  let limit ← intField payload "limit"
  let offset ← intField payload "offset"
  queue env ⟨"select_group_msgs_json",
    [uintStr (u32 groupId), uintStr (u32 limit), uintStr (u32 offset)],
    .doGetGroupMsgs (u32 groupId)⟩ "Internal error: async-get-group-msgs"

def newPfp : Except String Bool :=
  match payload.objectGet "new_pfp" with
  | .boolean b => .ok b
  | .null => .ok false
  | _ => .error "\"new_pfp\" is invalid"

def serverUserEditAccount : Handler C S T Unit := do
  let newPfp ← newPfp payload
  if newPfp then
    serverNewUploadToken env user.userId .userPfp none 0
    serverSendUploadToken env client "edit_account"
  else pure ()

def serverCreateGroupCode : Handler C S T Unit := do
  let groupId ← intField payload "group_id"
  let maxUses ← intField payload "max_uses"
  queue env ⟨"create_group_code", [uintStr (u32 groupId),
    intStr (if maxUses = 0 then 1 else maxUses), uintStr user.userId], .createGroupCodeResult⟩
    "Error: async-create-group-code"

def serverJoinGroupCode : Handler C S T Unit := do
  let code ← stringField payload "code"
  queue env ⟨"insert_groupmember_code", [uintStr user.userId, cstr code], .joinGroupCodeResult⟩
    "Error: async-user-join-group-code"

def serverGetGroupCodes : Handler C S T Unit := do
  let groupId ← intField payload "group_id"
  queue env ⟨"get_group_code", [uintStr (u32 groupId), uintStr user.userId],
    .getGroupCodesResult (u32 groupId)⟩ "Error: async-get-group-codes"

def serverDeleteGroupCode : Handler C S T Unit := do
  let code ← stringField payload "code"
  queue env ⟨"delete_group_code", [cstr code, uintStr user.userId], .deleteGroupCodeResult⟩
    "Error: async-delete-group-code"

def serverDeleteGroupMsg : Handler C S T Unit := do
  let msgId ← intField payload "msg_id"
  queue env ⟨"delete_msg", [uintStr (u32 msgId), uintStr user.userId],
    .deleteMsgResult (u32 msgId)⟩ "Error: async-delete-msg"

def serverDeleteGroup : Handler C S T Unit := do
  let groupId ← intField payload "group_id"
  queue env ⟨"SELECT owner_id FROM Groups WHERE group_id = $1::int;", [uintStr (u32 groupId)],
    .getGroupOwner (u32 groupId) user.userId⟩ "Error: async-get-group-owner"

def serverClientRegister : Handler C S T Unit := do
  let username ← stringField payload "username"
  let displayname ← stringField payload "displayname"
  let password ← stringField payload "password"
  let doSession ← booleanField payload "session"
  let newUser := UserRegister.serverClientRegister env.sha512
    ⟨username, displayname, password, env.salt⟩
  queue env ⟨"insert_user", [newUser.usernameStr, newUser.displaynameStr, newUser.hash,
    newUser.salt], .doClientRegister doSession⟩ "Internal error: async-insert-user"

def serverClientLogin : Handler C S T Unit := do
  let username ← stringField payload "username"
  let password ← stringField payload "password"
  let doSession ← booleanField payload "session"
  queue env ⟨"SELECT * FROM Users WHERE username = $1::varchar(50);", [cstr username],
    .doClientLogin (UserRegister.serverClientLogin password doSession)⟩ "Failed to do async sql.\n"

def serverClientLoginSession : Handler C S T Unit := do
  let sessionId ← uint64Field payload "id"
  let s := (← get).server
  match s.sessionHt sessionId with
  | none => throw "Invalid session ID or session expired"
  | some session =>
    queue env ⟨"SELECT * FROM Users WHERE user_id = $1::int;",
      [uintStr ((s.sessions session).getD 0)], .doClientLoginSession session⟩
      "Internal error: async-get-user"

end

/-- A callback. Those with the permission `CHATCMD_PERM_LOGGED_IN` use the user of the client. -/
inductive Callback (C S T : Type)
  | loggedIn (f : Env S T → C → DbUser → JsonObject → Handler C S T Unit)
  | none (f : Env S T → C → JsonObject → Handler C S T Unit)

def Callback.perms : Callback C S T → Perms
  | loggedIn _ => .loggedIn
  | none _ => .none

/-- `server_init_chatcmd`. -/
def chatcmds : List (String × Callback C S T) :=
  [("client_user_info", .loggedIn (fun env client user _ => serverClientUserInfo env client user)),
    ("client_groups", .loggedIn (fun env _ user _ => serverClientGroups env user)),
    ("get_member_ids", .loggedIn (fun env _ _ payload => serverGetGroupMemberIds env payload)),
    ("group_create", .loggedIn (fun env _ user payload => serverGroupCreate env user payload)),
    ("get_user", .loggedIn (fun env client _ payload => serverGetUser env client payload)),
    ("get_all_groups", .loggedIn (fun env _ user _ => serverGetAllGroups env user)),
    ("join_group", .loggedIn (fun env _ user payload => serverJoinGroup env user payload)),
    ("group_msg", .loggedIn serverGroupMsg),
    ("get_group_msgs", .loggedIn (fun env _ _ payload => serverGetGroupMsgs env payload)),
    ("edit_account", .loggedIn serverUserEditAccount),
    ("create_group_code",
      .loggedIn (fun env _ user payload => serverCreateGroupCode env user payload)),
    ("join_group_code", .loggedIn (fun env _ user payload => serverJoinGroupCode env user payload)),
    ("get_group_codes", .loggedIn (fun env _ user payload => serverGetGroupCodes env user payload)),
    ("delete_group_code",
      .loggedIn (fun env _ user payload => serverDeleteGroupCode env user payload)),
    ("delete_msg", .loggedIn (fun env _ user payload => serverDeleteGroupMsg env user payload)),
    ("delete_group", .loggedIn (fun env _ user payload => serverDeleteGroup env user payload)),
    ("register", .none (fun env _ payload => serverClientRegister env payload)),
    ("login", .none (fun env _ payload => serverClientLogin env payload)),
    ("session", .none (fun env _ payload => serverClientLoginSession env payload))]

def findChatcmd (cmd : Bytes) : Option (String × Callback C S T) :=
  chatcmds.find? (fun chatcmd => serverGhtHashstr (utf8 chatcmd.1) = serverGhtHashstr cmd)

def serverExecChatcmd (env : Env S T) (cmd : Bytes) (c : C) (client : Client S)
    (payload : JsonObject) : Handler C S T Unit :=
  match findChatcmd cmd with
  | none => throw "Command not found."
  | some (_, .loggedIn callback) =>
    if h : client.state.loggedIn = true then callback env c (client.user h) payload
    else throw "Require permission"
  | some (_, .none callback) =>
    if client.state.websocket then callback env c payload else throw "Require permission"

inductive RecvStatus
  | ok
  | disconnect

/-- The packet that reports an error, made of what `respond_json` holds by then. -/
def errorPacket (resp payload : JsonObject) (errorMsg : String) : JsonObject :=
  ((resp.objectAdd "cmd" (.newString "error")).objectAdd "from" payload).objectAdd "error_msg"
    (.newString errorMsg)

def execPayload (env : Env S T) (c : C) (client : Client S) (payload : JsonObject) :
    Handler C S T Unit := do
  let cmd ← stringField payload "cmd"
  serverExecChatcmd env (cstr cmd) c client payload

/-- The parser gives NULL for `null` too. -/
def serverWsHandleTextFrame (env : Env S T) (c : C) (client : Client S) (buf : Bytes)
    (server : Server C S T) : RecvStatus × Server C S T :=
  match env.parse buf with
  | none | some .null => (.disconnect, server)
  | some payload =>
    match (execPayload env c client payload).run.run ⟨server, .object []⟩ with
    | (.ok (), x) => (.ok, x.server)
    | (.error errorMsg, x) =>
      (.ok, { x.server with
        sent := x.server.sent ++ [(c, errorPacket x.resp payload errorMsg)] })

end ChityChat.TextFrame
