import ChityChat.GroupRead

namespace ChityChat.ListReplies

open JsonC DbResult Schema GroupRead

variable {tokener : JsonTokener} {d : Database} {online : Nat → Option DbUser} {userId : Nat}

inductive ListRequest
  | getAllGroups
  | getGroupCodes (payload : JsonObject)
  | getMemberIds (payload : JsonObject)
  | getGroupMsgs (payload : JsonObject)

def ListRequest.command : ListRequest → ReadCommand
  | getAllGroups => .getAllGroups
  | getGroupCodes payload => .getGroupCodes payload
  | getMemberIds payload => .getMemberIds payload
  | getGroupMsgs payload => .getGroupMsgs payload

def ListRequest.payload : ListRequest → JsonObject
  | getAllGroups => .null
  | getGroupCodes payload | getMemberIds payload | getGroupMsgs payload => payload

def ListRequest.query (userId : Nat) : ListRequest → Except String Query
  | getAllGroups => .ok (serverGetAllGroups userId)
  | getGroupCodes payload => serverGetGroupCodes userId payload
  | getMemberIds payload => serverGetGroupMemberIds payload
  | getGroupMsgs payload => serverGetGroupMsgs payload

def ListRequest.field : ListRequest → String
  | getAllGroups => "groups"
  | getGroupCodes _ => "codes"
  | getMemberIds _ => "member_ids"
  | getGroupMsgs _ => "messages"

def selectedRows (d : Database) : Select → List JsonObject
  | .userGroups userId => (selectUserGroups d userId).map groupJson
  | .publicGroups userId => (selectPublicGroup d userId).map groupJson
  | .memberIds groupId => (selectMemberIds d groupId).map (fun (id : Nat) => .int id)
  | .groupMsgs groupId limit offset => (selectGroupMsgs d groupId limit offset).map messageJson
  | .groupCodes groupId userId => (getGroupCodes d groupId userId).map codeJson
  | .users ids => (selectUserJson d ids).map userJson

/-- Every reply other than an error has the rows of its query in its list. -/
def CarriesList (tokener : JsonTokener) (online : Nat → Option DbUser) (d : Database) (userId : Nat)
    (request : ListRequest) : Prop :=
  ∀ reply ∈ answer tokener online d userId request.command,
    reply.objectGet "cmd" ≠ .newString "error" →
      ∃ query, request.query userId = .ok query ∧
        reply.objectGet request.field = .array (selectedRows d query.select)

theorem answer_query (request : ListRequest) :
    answer tokener online d userId request.command =
      handled tokener d request.payload (request.query userId) := by
  cases request <;> rfl

theorem handlerError_cmd (payload : JsonObject) (errmsg : String) :
    (handlerError payload errmsg).objectGet "cmd" = .newString "error" := rfl

theorem execError_cmd (errmsg : String) :
    (execError errmsg).objectGet "cmd" = .newString "error" := rfl

theorem cmd_not_error {cmd : String} {fields : List (String × JsonObject)}
    (h : utf8 cmd ≠ utf8 "error") :
    (JsonObject.object (("cmd", .newString cmd) :: fields)).objectGet "cmd" ≠
      .newString "error" :=
  fun he => h (JsonObject.string.inj he)

/-- How the list of a reply comes from the rows. -/
def ListRequest.listed (rows : List JsonObject) : ListRequest → JsonObject
  | getGroupMsgs _ => parsedList rows
  | getAllGroups | getGroupCodes _ | getMemberIds _ => plainList rows

/-- The rows are read in: the callback for messages looks for an empty text, and the tokener gives up
on attachments that are nested too deep, since a message in the list is two levels more. The others
need a row. -/
def ListRequest.Reads (rows : List JsonObject) : ListRequest → Prop
  | getGroupMsgs _ => ∀ row ∈ rows, row.depth < jsonTokenerDefaultDepth
  | getAllGroups | getGroupCodes _ | getMemberIds _ => rows ≠ []

theorem parsedList_array {rows : List JsonObject} :
    parsedList rows = .array rows ↔ ∀ row ∈ rows, row.depth < jsonTokenerDefaultDepth := by
  have hdepth : (JsonObject.array rows).depth ≤ jsonTokenerDefaultDepth ↔
      ∀ row ∈ rows, row.depth < jsonTokenerDefaultDepth := by
    rw [show jsonTokenerDefaultDepth = 31 + 1 from rfl, JsonObject.depth_array_le]
    exact forall₂_congr (fun _ _ => Nat.lt_succ_iff.symm)
  rw [parsedList, ← hdepth]
  by_cases h : (JsonObject.array rows).depth ≤ jsonTokenerDefaultDepth
  · rw [if_pos h]
    exact iff_of_true rfl h
  · rw [if_neg h]
    exact iff_of_false (by simp) h

def Replies (d : Database) (query : Query) (request : ListRequest) (packet : JsonObject) : Prop :=
  match query.select.rows d with
  | none => packet.objectGet "cmd" = .newString "error"
  | some _ => packet.objectGet "cmd" ≠ .newString "error" ∧
      packet.objectGet request.field = request.listed (selectedRows d query.select)

theorem replies_of_packet {p : Prop} [Decidable p] {request : ListRequest} {query : Query}
    {rows : List (List (Option Value))} {cmd errmsg : String} {fields : List (String × JsonObject)}
    (hrows : query.select.rows d = if p then some rows else none)
    (hpacket : query.packet tokener d =
      if p then .object (("cmd", .newString cmd) :: fields) else execError errmsg)
    (hcmd : utf8 cmd ≠ utf8 "error")
    (hlist : (JsonObject.object (("cmd", .newString cmd) :: fields)).objectGet request.field =
      request.listed (selectedRows d query.select)) :
    Replies d query request (query.packet tokener d) := by
  rw [Replies, hrows, hpacket]
  by_cases hp : p
  · rw [if_pos hp, if_pos hp]
    exact ⟨cmd_not_error hcmd, hlist⟩
  · rw [if_neg hp, if_neg hp]
    exact execError_cmd errmsg

theorem packet_replies {request : ListRequest} {query : Query}
    (hquery : request.query userId = .ok query) :
    Replies d query request (query.packet tokener d) := by
  cases request with
  | getAllGroups =>
      cases hquery
      exact replies_of_packet rfl publicGroups_packet (by decide +kernel) rfl
  | getGroupCodes payload =>
      obtain ⟨groupId, -, hquery⟩ := bind_ok.mp hquery
      cases hquery
      exact replies_of_packet rfl groupCodes_packet (by decide +kernel) rfl
  | getMemberIds payload =>
      obtain ⟨groupId, -, hquery⟩ := bind_ok.mp hquery
      cases hquery
      exact replies_of_packet rfl memberIds_packet (by decide +kernel) rfl
  | getGroupMsgs payload =>
      obtain ⟨groupId, -, hquery⟩ := bind_ok.mp hquery
      obtain ⟨limit, -, hquery⟩ := bind_ok.mp hquery
      obtain ⟨offset, -, hquery⟩ := bind_ok.mp hquery
      cases hquery
      exact replies_of_packet rfl groupMsgs_packet (by decide +kernel) rfl

theorem depth_of_ne_groupMsgs {request : ListRequest} {query : Query} {row : JsonObject}
    (hquery : request.query userId = .ok query) (hne : ∀ payload, request ≠ .getGroupMsgs payload)
    (hrow : row ∈ selectedRows d query.select) : row.depth ≤ 2 := by
  cases request with
  | getAllGroups =>
      cases hquery
      obtain ⟨g, -, rfl⟩ := List.mem_map.mp hrow
      exact (groupJson_depth g).le
  | getGroupCodes payload =>
      obtain ⟨groupId, -, hquery⟩ := bind_ok.mp hquery
      cases hquery
      obtain ⟨c, -, rfl⟩ := List.mem_map.mp hrow
      exact (codeJson_depth c).le
  | getMemberIds payload =>
      obtain ⟨groupId, -, hquery⟩ := bind_ok.mp hquery
      cases hquery
      obtain ⟨id, -, rfl⟩ := List.mem_map.mp hrow
      exact Nat.le_succ 1
  | getGroupMsgs payload => exact absurd rfl (hne payload)

theorem listed_array {request : ListRequest} {query : Query}
    (hquery : request.query userId = .ok query) :
    request.listed (selectedRows d query.select) = .array (selectedRows d query.select) ↔
      request.Reads (selectedRows d query.select) := by
  have hflat : (∀ payload, request ≠ .getGroupMsgs payload) →
      ∀ row ∈ selectedRows d query.select, row.depth ≤ 2 :=
    fun hne row hm => depth_of_ne_groupMsgs hquery hne hm
  cases request with
  | getGroupMsgs payload => exact parsedList_array
  | getAllGroups | getGroupCodes | getMemberIds =>
      rw [ListRequest.listed, plainList_flat (hflat (by simp)), ListRequest.Reads]
      split <;> simp [*]

/-- Three of the four callbacks only replace a NULL pointer by `[]`, and a NULL of the database is
the empty string: without rows, the list is not there. -/
theorem carriesList_iff (tokener : JsonTokener) (online : Nat → Option DbUser) (d : Database)
    (userId : Nat) (request : ListRequest) :
    CarriesList tokener online d userId request ↔
      ∀ query, request.query userId = .ok query → query.select.rows d ≠ none →
        request.Reads (selectedRows d query.select) := by
  rw [CarriesList, answer_query]
  cases hquery : request.query userId with
  | error errmsg => simp [handled, handlerError_cmd]
  | ok query =>
      have hreplies : Replies d query request (query.packet tokener d) := packet_replies hquery
      simp only [handled, List.mem_singleton, forall_eq, Except.ok.injEq, exists_eq_left']
      cases hrows : query.select.rows d with
      | none =>
          simp only [Replies, hrows] at hreplies
          simp [hreplies, hrows]
      | some rows =>
          simp only [Replies, hrows] at hreplies
          rw [hreplies.2, listed_array hquery]
          simp [hreplies.1, hrows]

def emptyDatabase : Database := ⟨[], [], [], [], []⟩

/-- With no group at all, user 1 is sent `groups` as null instead of the empty list. -/
theorem no_groups_no_list :
    ¬ CarriesList plainTokener (fun _ => none) emptyDatabase 1 .getAllGroups := by
  intro h
  have hreply : .object [("cmd", .newString "get_all_groups"), ("groups", .null)] ∈
      answer plainTokener (fun _ => none) emptyDatabase 1 .getAllGroups := by
    rw [answer, publicGroups_packet, if_pos (by decide)]
    exact List.mem_singleton_self _
  obtain ⟨query, -, hlist⟩ := h _ hreply (cmd_not_error (by decide +kernel))
  cases hlist

end ChityChat.ListReplies
