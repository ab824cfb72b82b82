import ChityChat.DbResult
import ChityChat.Schema
import Mathlib.Data.List.Sort

namespace ChityChat.GroupRead

open JsonC DbResult Schema

def jsonText (s : Option String) : JsonObject := s.elim .null .newString

def jsonInt (n : Option Int) : JsonObject := n.elim .null .int

def groupJson (g : GroupRow) : JsonObject :=
  .object [("group_id", .int g.groupId), ("owner_id", jsonInt (g.ownerId.map Int.ofNat)),
    ("name", .newString g.name), ("desc", jsonText g.desc),
    ("public", g.isPublic.elim .null .boolean), ("created_at", jsonText g.createdAt)]

def messageJson (m : MessageRow) : JsonObject :=
  .object [("msg_id", .int m.msgId), ("user_id", jsonInt (m.userId.map Int.ofNat)),
    ("group_id", jsonInt (m.groupId.map Int.ofNat)), ("content", jsonText m.content),
    ("timestamp", jsonText m.timestamp), ("attachments", m.attachments.getD .null),
    ("parent_msg_id", jsonInt (m.parentMsgId.map Int.ofNat))]

def codeJson (c : CodeRow) : JsonObject :=
  .object [("code", .newString c.inviteCode), ("uses", jsonInt c.uses),
    ("max_uses", .int c.maxUses)]

def userJson (u : UserRow) : JsonObject :=
  .object [("user_id", .int u.userId), ("username", .newString u.username),
    ("displayname", .newString u.displayname), ("bio", jsonText u.bio),
    ("pfp_name", jsonText u.pfp), ("created_at", jsonText u.createdAt)]

def IsInt (n : Nat) : Prop := n < 2 ^ 31

instance (n : Nat) : Decidable (IsInt n) := inferInstanceAs (Decidable (n < 2 ^ 31))

def jsonAgg (rows : List JsonObject) : Option Value :=
  if rows = [] then none else some (.json (.array rows))

def groupColumns (g : GroupRow) : List (Option Value) :=
  [some (.int g.groupId), (g.ownerId.map Int.ofNat).map .int, some (.text g.name), g.desc.map .text,
    g.isPublic.map (fun b => .text (if b then "t" else "f")), g.createdAt.map .text]

def selectUserGroups (d : Database) (userId : Nat) : List GroupRow :=
  d.groups.flatMap (fun g =>
    (d.members.filter (fun gm => gm.groupId = g.groupId ∧ gm.userId = userId)).map (fun _ => g))

def selectPublicGroup (d : Database) (userId : Nat) : List GroupRow :=
  d.groups.filter (fun g =>
    g.isPublic = some true ∧
      d.members.filter (fun gm => g.groupId = gm.groupId ∧ gm.userId = userId) = [])

def selectMemberIds (d : Database) (groupId : Nat) : List Nat :=
  (d.members.filter (fun gm => gm.groupId = groupId)).map MemberRow.userId

def orderByMsgId (messages : List MessageRow) : List MessageRow :=
  messages.insertionSort (fun a b => b.msgId ≤ a.msgId)

def selectGroupMsgs (d : Database) (groupId limit offset : Nat) : List MessageRow :=
  ((orderByMsgId (d.messages.filter (fun m => m.groupId = some groupId))).drop offset).take limit

def getGroupCodes (d : Database) (groupId userId : Nat) : List CodeRow :=
  (d.codes.filter (fun gc => gc.groupId = groupId)).flatMap (fun gc =>
    (d.members.filter (fun gm => gc.groupId = gm.groupId ∧ gm.userId = userId)).map (fun _ => gc))

def selectUserJson (d : Database) (ids : List Int) : List UserRow :=
  d.users.filter (fun u => (u.userId : Int) ∈ ids)

/-- The statements of the read commands, with the parameters as the server prints them. -/
inductive Select
  | userGroups (userId : Nat)
  | publicGroups (userId : Nat)
  | memberIds (groupId : Nat)
  | groupMsgs (groupId limit offset : Nat)
  | groupCodes (groupId userId : Nat)
  | users (ids : List Int)

def Select.rows (d : Database) : Select → Option (List (List (Option Value)))
  | userGroups userId =>
    if IsInt userId then some ((selectUserGroups d userId).map groupColumns) else none
  | publicGroups userId =>
    if IsInt userId then some [[jsonAgg ((selectPublicGroup d userId).map groupJson)]] else none
  | memberIds groupId =>
    if IsInt groupId then
      some [[jsonAgg ((selectMemberIds d groupId).map (fun (id : Nat) => .int id))]] else none
  | groupMsgs groupId limit offset =>
    if IsInt groupId ∧ IsInt limit ∧ IsInt offset then
      some [[jsonAgg ((selectGroupMsgs d groupId limit offset).map messageJson)]] else none
  | groupCodes groupId userId =>
    if IsInt groupId ∧ IsInt userId then
      some [[jsonAgg ((getGroupCodes d groupId userId).map codeJson)]] else none
  | users ids =>
    if ∀ id ∈ ids, -2 ^ 31 ≤ id ∧ id < 2 ^ 31 then
      some [[jsonAgg ((selectUserJson d ids).map userJson)]] else none

def Select.result (d : Database) (select : Select) : PGresult :=
  match select.rows d with
  | none => ⟨0, .fatalError, []⟩
  | some rows => ⟨0, .tuplesOk, rows⟩

/-- The levels that the tokener of `json_tokener_parse` is made for, `JSON_TOKENER_DEFAULT_DEPTH`. -/
def jsonTokenerDefaultDepth : Nat := 32

/-- `json_tokener_parse` of json-c. It gives back what a `json` column printed if that is not nested
too deep, and nothing for the empty string, which `PQgetvalue` has for a NULL. -/
structure JsonTokener where
  parse : Text → JsonObject
  json : ∀ text j, text.value = .json j → j.depth ≤ jsonTokenerDefaultDepth → parse text = j
  deep : ∀ text j, text.value = .json j → jsonTokenerDefaultDepth < j.depth → parse text = .null
  brackets : ∀ text, text.value = .text "[]" → parse text = .array []
  empty : ∀ text, text.value = .text "" → parse text = .null

def plainTokener : JsonTokener where
  parse text := match text.value with
    | .json j => if j.depth ≤ jsonTokenerDefaultDepth then j else .null
    | .text s => if s = "[]" then .array [] else .null
    | .int n => .int n
  json text j h hd := by simp only [h, if_pos hd]
  deep text j h hd := by simp only [h, if_neg (Nat.not_le.mpr hd)]
  brackets text h := by simp only [h, if_true]
  empty text h := by simp only [h]; rfl

/-- A C string that starts in an array of `size` bytes and may run into what is behind. -/
def cString (size : Nat) (bytes behind : Bytes) : Bytes :=
  if bytes.length < size then bytes else bytes ++ behind

def serverGroupToJson (g : DbGroup) : JsonObject :=
  let desc := cString dbDescMax g.desc (if g.isPublic then 1 :: g.createdAt else [])
  .object [("group_id", .newInt g.groupId), ("owner_id", .newInt g.ownerId),
    ("name", .string (cString dbDisplaynameMax g.displayname desc)),
    ("desc", .string desc), ("public", .boolean g.isPublic)]

def doClientGroups (ctx : DbcmdCtx Nat) : Except String JsonObject :=
  if ctx.ret = .error then .error "Failed to get groups"
  else .ok (.object [("cmd", .newString "client_groups"),
    ("groups", .array (ctx.groups.map serverGroupToJson))])

def textPacket (errmsg : String) (fields : List (String × JsonObject)) (key : String)
    (tokener : JsonTokener) (ctx : DbcmdCtx Nat) : Except String JsonObject :=
  if ctx.ret = .error then .error errmsg
  else .ok (.object (fields ++ [(key, ctx.text.elim .null tokener.parse)]))

def getAllGroupsResult : JsonTokener → DbcmdCtx Nat → Except String JsonObject :=
  textPacket "Failed to get public groups" [("cmd", .newString "get_all_groups")] "groups"

def doGetGroupMsgs (tokener : JsonTokener) (ctx : DbcmdCtx Nat) : Except String JsonObject :=
  textPacket "Failed to get group messages"
    [("cmd", .newString "get_group_msgs"), ("group_id", .newInt ctx.groupId)] "messages" tokener ctx

def getGroupCodesResult (tokener : JsonTokener) (ctx : DbcmdCtx Nat) : Except String JsonObject :=
  textPacket "Failed to get group codes"
    [("cmd", .newString "group_codes"), ("group_id", .newInt ctx.groupId)] "codes" tokener ctx

def doGetGroupMemberIds (tokener : JsonTokener) (ctx : DbcmdCtx Nat) : Except String JsonObject :=
  textPacket "Failed to get group member IDs"
    [("cmd", .newString "get_member_ids"), ("group_id", .newInt ctx.groupId)] "member_ids" tokener ctx

def doGetUsers : JsonTokener → DbcmdCtx Nat → Except String JsonObject :=
  textPacket "Failed to get users" [("cmd", .newString "get_user")] "users"

structure Query where
  select : Select
  ctx : DbcmdCtx Nat
  exec : JsonTokener → DbcmdCtx Nat → Except String JsonObject

def queryCtx (execRes : ExecRes) (groupId : Nat) : DbcmdCtx Nat :=
  ⟨0, none, .busy, false, 0, true, execRes, groupId, 0, 0, none, []⟩

def serverClientGroups (userId : Nat) : Query :=
  ⟨.userGroups userId, queryCtx .dbGetGroups 0, fun _ => doClientGroups⟩

def serverGetAllGroups (userId : Nat) : Query :=
  ⟨.publicGroups userId, queryCtx .getPublicGroups 0, getAllGroupsResult⟩

def serverGetGroupMsgs (payload : JsonObject) : Except String Query := do
  let groupId ← intField payload "group_id"
  let limit ← intField payload "limit"
  let offset ← intField payload "offset"
  pure ⟨.groupMsgs (u32 groupId) (u32 limit) (u32 offset), queryCtx .doGetGroupMsgs (u32 groupId),
    doGetGroupMsgs⟩

def serverGetGroupCodes (userId : Nat) (payload : JsonObject) : Except String Query := do
  let groupId ← intField payload "group_id"
  pure ⟨.groupCodes (u32 groupId) userId, queryCtx .getGroupCodes (u32 groupId),
    getGroupCodesResult⟩

def serverGetGroupMemberIds (payload : JsonObject) : Except String Query := do
  let groupId ← intField payload "group_id"
  pure ⟨.memberIds (u32 groupId), queryCtx .dbGetGroupMemberIds (u32 groupId), doGetGroupMemberIds⟩

/-- The user of a connected client, with the C strings of its fields. -/
structure DbUser where
  userId : Nat
  username : Bytes
  displayname : Bytes
  bio : Bytes
  createdAt : Bytes
  pfpHash : Bytes
  status : Bytes

def serverAddUserInJson (user : DbUser) : JsonObject :=
  .object [("user_id", .newInt user.userId), ("username", .string user.username),
    ("displayname", .string user.displayname), ("bio", .string user.bio),
    ("created_at", .string user.createdAt), ("pfp_name", .string user.pfpHash),
    ("status", .string user.status)]

def intsOf : List JsonObject → Option (List Int)
  | [] => some []
  | .int n :: elements => (intsOf elements).map (n :: ·)
  | _ :: _ => none

def lookupId (n : Int) : Nat := u32 (max (-2 ^ 31) (min n (2 ^ 31 - 1)))

/-- Connected users are answered at once, from the last to the first, and the others are queried. -/
def serverGetUser (online : Nat → Option DbUser) (payload : JsonObject) :
    Except String (List JsonObject × Option Query) := do
  let elements ← arrayField payload "user_ids"
  match intsOf elements with
  | none | some [] => .error "Invalid array"
  | some ids =>
    let users := ids.reverse.filterMap (fun id => online (lookupId id))
    let others := ids.filter (fun id => (online (lookupId id)).isNone)
    let packets := if users = [] then [] else
      [JsonObject.object [("cmd", .newString "get_user"),
        ("users", .array (users.map serverAddUserInJson))]]
    let query := if others = [] then none
      else some ⟨.users others, queryCtx .dbGetUserJson 0, doGetUsers⟩
    pure (packets, query)

inductive ReadCommand
  | clientGroups
  | getAllGroups
  | getMemberIds (payload : JsonObject)
  | getGroupMsgs (payload : JsonObject)
  | getGroupCodes (payload : JsonObject)
  | getUser (payload : JsonObject)

def handlerError (payload : JsonObject) (errmsg : String) : JsonObject :=
  .object [("cmd", .newString "error"), ("from", payload), ("error_msg", .newString errmsg)]

def execError (errmsg : String) : JsonObject :=
  .object [("cmd", .newString "error"), ("error_msg", .newString errmsg)]

def Query.packet (tokener : JsonTokener) (d : Database) (query : Query) : JsonObject :=
  match query.exec tokener (query.ctx.execRes.run (query.select.result d) query.ctx) with
  | .ok packet => packet
  | .error errmsg => execError errmsg

def handled (tokener : JsonTokener) (d : Database) (payload : JsonObject)
    (query : Except String Query) : List JsonObject :=
  match query with
  | .ok query => [query.packet tokener d]
  | .error errmsg => [handlerError payload errmsg]

/-- The packets that user `userId` is sent in answer to a command. -/
def answer (tokener : JsonTokener) (online : Nat → Option DbUser) (d : Database) (userId : Nat) :
    ReadCommand → List JsonObject
  | .clientGroups => [(serverClientGroups userId).packet tokener d]
  | .getAllGroups => [(serverGetAllGroups userId).packet tokener d]
  | .getMemberIds payload => handled tokener d payload (serverGetGroupMemberIds payload)
  | .getGroupMsgs payload => handled tokener d payload (serverGetGroupMsgs payload)
  | .getGroupCodes payload => handled tokener d payload (serverGetGroupCodes userId payload)
  | .getUser payload =>
    match serverGetUser online payload with
    | .ok (packets, query) => packets ++ query.toList.map (Query.packet tokener d)
    | .error errmsg => [handlerError payload errmsg]

def aggregated (rows : List JsonObject) : PGresult := ⟨0, .tuplesOk, [[jsonAgg rows]]⟩

def parsedList (rows : List JsonObject) : JsonObject :=
  if (JsonObject.array rows).depth ≤ jsonTokenerDefaultDepth then .array rows else .null

/-- The list of a reply where the text of the column is only compared with NULL. -/
def plainList (rows : List JsonObject) : JsonObject := if rows = [] then .null else parsedList rows

theorem JsonTokener.parse_rows (tokener : JsonTokener) (handle : Nat) (rows : List JsonObject) :
    tokener.parse (.ofResult handle (.json (.array rows))) = parsedList rows := by
  rw [parsedList]
  split
  · next h => exact tokener.json _ _ rfl h
  · next h => exact tokener.deep _ _ rfl (by omega)

theorem plain_parsed (tokener : JsonTokener) (rows : List JsonObject) :
    tokener.parse ((pqGetvalue (aggregated rows) 0 0).getD (.literal "[]")) = plainList rows := by
  cases rows with
  | nil => exact tokener.empty _ rfl
  | cons row rows => exact tokener.parse_rows 0 (row :: rows)

theorem checked_parsed (tokener : JsonTokener) (rows : List JsonObject) :
    tokener.parse (((pqGetvalue (aggregated rows) 0 0).filter
      (fun text => !text.value.isEmpty)).getD (.literal "[]")) = parsedList rows := by
  cases rows with
  | nil => exact tokener.brackets _ rfl
  | cons row rows => exact tokener.parse_rows 0 (row :: rows)

section Packets

variable {d : Database} {userId groupId limit offset : Nat} {tokener : JsonTokener}

theorem publicGroups_packet :
    (serverGetAllGroups userId).packet tokener d =
      if IsInt userId then
        .object [("cmd", .newString "get_all_groups"),
          ("groups", plainList ((selectPublicGroup d userId).map groupJson))]
      else execError "Failed to get public groups" := by
  rw [← plain_parsed tokener]
  simp only [Query.packet, Select.result, serverGetAllGroups, Select.rows]
  by_cases hint : IsInt userId
  · simp only [if_pos hint]
    rfl
  · simp only [if_neg hint]
    rfl

theorem memberIds_packet :
    Query.packet tokener d ⟨.memberIds groupId, queryCtx .dbGetGroupMemberIds groupId,
      doGetGroupMemberIds⟩ =
      if IsInt groupId then
        .object [("cmd", .newString "get_member_ids"), ("group_id", .newInt groupId),
          ("member_ids", plainList ((selectMemberIds d groupId).map (fun (id : Nat) => .int id)))]
      else execError "Failed to get group member IDs" := by
  rw [← plain_parsed tokener]
  simp only [Query.packet, Select.result, Select.rows]
  by_cases hint : IsInt groupId
  · simp only [if_pos hint]
    rfl
  · simp only [if_neg hint]
    rfl

theorem groupCodes_packet :
    Query.packet tokener d ⟨.groupCodes groupId userId, queryCtx .getGroupCodes groupId,
      GroupRead.getGroupCodesResult⟩ =
      if IsInt groupId ∧ IsInt userId then
        .object [("cmd", .newString "group_codes"), ("group_id", .newInt groupId),
          ("codes", plainList ((getGroupCodes d groupId userId).map codeJson))]
      else execError "Failed to get group codes" := by
  rw [← plain_parsed tokener]
  simp only [Query.packet, Select.result, Select.rows]
  by_cases hint : IsInt groupId ∧ IsInt userId
  · simp only [if_pos hint]
    rfl
  · simp only [if_neg hint]
    rfl

theorem groupMsgs_packet :
    Query.packet tokener d ⟨.groupMsgs groupId limit offset, queryCtx .doGetGroupMsgs groupId,
      GroupRead.doGetGroupMsgs⟩ =
      if IsInt groupId ∧ IsInt limit ∧ IsInt offset then
        .object [("cmd", .newString "get_group_msgs"), ("group_id", .newInt groupId),
          ("messages", parsedList ((selectGroupMsgs d groupId limit offset).map messageJson))]
      else execError "Failed to get group messages" := by
  rw [← checked_parsed tokener]
  simp only [Query.packet, Select.result, Select.rows]
  by_cases hint : IsInt groupId ∧ IsInt limit ∧ IsInt offset
  · simp only [if_pos hint]
    rfl
  · simp only [if_neg hint]
    rfl

theorem parsedList_flat {rows : List JsonObject} (h : ∀ row ∈ rows, row.depth ≤ 2) :
    parsedList rows = .array rows := by
  rw [parsedList, if_pos]
  rw [jsonTokenerDefaultDepth, JsonObject.depth_array_le]
  exact fun row hm => (h row hm).trans (by decide)

theorem plainList_flat {rows : List JsonObject} (h : ∀ row ∈ rows, row.depth ≤ 2) :
    plainList rows = if rows = [] then .null else .array rows := by
  rw [plainList, parsedList_flat h]

end Packets

section Depth

theorem depth_jsonText (s : Option String) : (jsonText s).depth = 1 := by cases s <;> rfl

theorem depth_jsonInt (n : Option Int) : (jsonInt n).depth = 1 := by cases n <;> rfl

theorem depth_newString (s : String) : (JsonObject.newString s).depth = 1 := rfl

theorem groupJson_depth (g : GroupRow) : (groupJson g).depth = 2 := by
  have hpublic : ∀ b : Option Bool, (b.elim .null JsonObject.boolean).depth = 1 := by
    intro b
    cases b <;> rfl
  simp only [groupJson, JsonObject.depth, JsonObject.fieldsDepth, depth_jsonText, depth_jsonInt,
    depth_newString, hpublic]
  rfl

theorem codeJson_depth (c : CodeRow) : (codeJson c).depth = 2 := by
  simp only [codeJson, JsonObject.depth, JsonObject.fieldsDepth, depth_jsonInt, depth_newString]
  rfl

theorem userJson_depth (u : UserRow) : (userJson u).depth = 2 := by
  simp only [userJson, JsonObject.depth, JsonObject.fieldsDepth, depth_jsonText, depth_newString]
  rfl

theorem messageJson_depth {m : MessageRow} (h : m.attachments = none) : (messageJson m).depth = 2 := by
  simp only [messageJson, h, JsonObject.depth, JsonObject.fieldsDepth, depth_jsonText, depth_jsonInt,
    Option.getD_none]
  rfl

end Depth

end ChityChat.GroupRead
