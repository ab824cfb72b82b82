import ChityChat.GroupBroadcast
import ChityChat.MsgAttachments
import ChityChat.WriteAuthorisation

namespace ChityChat.GroupMessage

open JsonC DbResult Schema WriteStatements WriteCommands GroupBroadcast
open GroupRead (cString execError)
open MsgAttachments (Msg dbMessageMax serverGroupMsg)
open WriteAuthorisation (oneUser oneUser_insertGroup_stored)

variable {s s' : Store} {msg : Msg} {text : String} {res : PGresult} {handle : Nat}

/-- The statement of `db_async_insert_group_msg` for a message without attachments. Its text is what
the C string at `msg->content` is the encoding of. -/
def insertStmt (msg : Msg) (text : String) : Stmt :=
  .insertMsg msg.userId msg.groupId text (.array [])

/-- The message as `insert_group_msg_result` completes it. -/
def serverMsgToJson (msg : Msg) (res : PGresult) : JsonObject :=
  let timestamp := (columnBytes (pqGetvalue res 0 1)).take dbTimestampMax
  .object [("cmd", .newString "group_msg"), ("msg_id", .newInt (strtoul (pqGetvalue res 0 0))),
    ("group_id", .newInt msg.groupId), ("user_id", .newInt msg.userId),
    ("content", .string (cString dbMessageMax msg.content timestamp)),
    ("attachments", .array []), ("timestamp", .string timestamp)]

def doGroupMsg (ctx : DbcmdCtx Nat) : Except String Unit :=
  if ctx.ret = .error then .error "Failed to insert message" else .ok ()

/-- Everything that is sent for a `group_msg` command, given the results of the insert and of the
member query behind it. -/
def groupMsgPackets (userHt : Nat → Option Nat) (client : Nat) (msg : Msg) (res ids : PGresult) :
    List Packet :=
  let ctx := { (newCtx .insertGroupMsg : DbcmdCtx Nat) with client := some client }
  execPackets (some client) ((doGroupMsg (insertGroupMsgResult res ctx)).map
    (fun _ => doGroupBroadcast userHt (serverMsgToJson msg res) ids))

/-- The statement has added a row for the message, with a new id. -/
def Inserted (s s' : Store) (msg : Msg) (text : String) (msgId : Nat) : Prop :=
  msgId ∉ s.messages.map MessageRow.msgId ∧ ∃ now, s'.messages = s.messages ++
    [⟨msgId, some msg.userId, some msg.groupId, some text, some now, some (.array []), none⟩]

theorem msgSeq_new (hs : Stored s) : s.msgSeq ∉ s.messages.map MessageRow.msgId := by
  intro h
  obtain ⟨m, hm, hid⟩ := List.mem_map.mp h
  exact absurd (hs.messages m hm).2 (by omega)

theorem insertMsg_valid (hs : Stored s) (now : String)
    (hm : ⟨msg.userId, msg.groupId⟩ ∈ s.members) :
    Valid (insertMsg s now msg.userId msg.groupId text (.array [])).toDatabase where
  userKey := hs.valid.userKey
  username := hs.valid.username
  groupKey := hs.valid.groupKey
  memberKey := hs.valid.memberKey
  messageKey := by
    simp only [insertMsg, List.map_append, List.map_cons, List.map_nil]
    exact List.nodup_append.mpr ⟨hs.valid.messageKey, List.nodup_singleton _, fun a ha b hb => by
      rintro rfl
      rw [List.mem_singleton.mp hb] at ha
      exact msgSeq_new hs ha⟩
  codeKey := hs.valid.codeKey
  owner := hs.valid.owner
  memberUser := hs.valid.memberUser
  memberGroup := hs.valid.memberGroup
  messageUser m hmem u hu := by
    rcases List.mem_append.mp hmem with hold | hnew
    · exact hs.valid.messageUser m hold u hu
    · rw [List.mem_singleton.mp hnew] at hu
      obtain rfl := Option.some.inj hu
      exact hs.valid.memberUser _ hm
  messageGroup m hmem g hg := by
    rcases List.mem_append.mp hmem with hold | hnew
    · exact hs.valid.messageGroup m hold g hg
    · rw [List.mem_singleton.mp hnew] at hg
      obtain rfl := Option.some.inj hg
      exact hs.valid.memberGroup _ hm
  messageMember m hmem u hu g hg := by
    rcases List.mem_append.mp hmem with hold | hnew
    · exact hs.valid.messageMember m hold u hu g hg
    · rw [List.mem_singleton.mp hnew] at hu hg
      obtain rfl := Option.some.inj hu
      obtain rfl := Option.some.inj hg
      exact hm
  messageParent m hmem p hp := by
    rcases List.mem_append.mp hmem with hold | hnew
    · obtain ⟨hpar, hne⟩ := hs.valid.messageParent m hold p hp
      exact ⟨by simp only [insertMsg, List.map_append]; exact List.mem_append_left _ hpar, hne⟩
    · rw [List.mem_singleton.mp hnew] at hp
      cases hp
  codeGroup := hs.valid.codeGroup

/-- What the insert can come to. -/
inductive Outcome (s : Store) (msg : Msg) (text : String) : PGresult → Store → Prop
  | inserted {res : PGresult} (now : String) (hstatus : res.status = .tuplesOk)
      (hid : strtoul (pqGetvalue res 0 0) = s.msgSeq) (hpos : 0 < s.msgSeq)
      (hlt : s.msgSeq < 2 ^ 31) (hm : ⟨msg.userId, msg.groupId⟩ ∈ s.members) :
      Outcome s msg text res (insertMsg s now msg.userId msg.groupId text (.array []))
  | failed {res : PGresult} {s' : Store} (hstatus : res.status = .fatalError)
      (hsame : s'.messages = s.messages) : Outcome s msg text res s'

theorem insert_outcome (h : Execute handle s none (insertStmt msg text) res s' none) :
    Outcome s msg text res s' := by
  cases h with
  | run now code hrun hs' =>
      simp only [insertStmt, Stmt.run, Option.some.injEq, Prod.mk.injEq] at hrun
      obtain ⟨rfl, rfl, rfl⟩ := hrun
      have hnew : (⟨s.msgSeq, some msg.userId, some msg.groupId, some text, some now,
          some (.array []), none⟩ : MessageRow) ∈
          (insertMsg s now msg.userId msg.groupId text (.array [])).messages :=
        List.mem_append_right _ (List.mem_singleton_self _)
      have hlt : s.msgSeq + 1 ≤ 2 ^ 31 := hs'.ints.2.2
      refine .inserted now rfl ?_ (hs'.messages _ hnew).1 hlt
        (hs'.valid.messageMember _ hnew _ rfl _ rfl)
      simp only [strtoul, pqGetvalue, List.getElem?_cons_zero, Option.bind_some, Option.map_some,
        Option.elim_some, Text.value, Option.getD_some, atoi, u32]
      omega
  | error => exact .failed rfl rfl

theorem packets_of_failed {userHt : Nat → Option Nat} {client : Nat} {ids : PGresult}
    (h : res.status = .fatalError) :
    groupMsgPackets userHt client msg res ids = [(client, execError "Failed to insert message")] := by
  simp [groupMsgPackets, insertGroupMsgResult, h, DbcmdCtx.returns, doGroupMsg, Except.map,
    execPackets]

theorem packets_of_inserted {userHt : Nat → Option Nat} {client : Nat} {ids : PGresult}
    (h : res.status = .tuplesOk) (hid : strtoul (pqGetvalue res 0 0) ≠ 0) :
    groupMsgPackets userHt client msg res ids =
      doGroupBroadcast userHt (serverMsgToJson msg res) ids := by
  simp [groupMsgPackets, insertGroupMsgResult, h, hid, DbcmdCtx.returns, doGroupMsg, Except.map,
    execPackets]

theorem sends_insert {sent : Sent} {ctx : DbcmdCtx Nat} {userId : Nat} (hatt : msg.attachments = [])
    (huser : msg.userId = userId)
    (h : (sent, ctx) ∈ (ChatCommand.groupMsg msg.groupId text msg.attachments).sends userId) :
    sent.stmt = insertStmt msg text := by
  subst huser
  rw [ChatCommand.sends, hatt, List.length_nil, if_pos rfl, List.mem_singleton] at h
  rw [(Prod.mk.inj h).1]
  rfl

theorem serverGroupMsg_userId {userId : Nat} {payload : JsonObject}
    (h : serverGroupMsg userId payload = .ok msg) : msg.userId = userId := by
  simp only [serverGroupMsg, bind_ok] at h
  obtain ⟨groupId, -, content, -, attachments, -, -, -, hmsg⟩ := h
  rw [← Except.ok.inj hmsg]

theorem select_result {handle groupId : Nat} {ids : PGresult} (hs : Stored s)
    (h : Execute handle s none (.selectMemberIds groupId) ids s' none)
    (hjust : Justified s (.selectMemberIds groupId) ids) :
    ids = ⟨handle, .tuplesOk, selectMemberIds s groupId⟩ := by
  cases h with
  | run now code hrun hs' =>
      simp only [Stmt.run, Option.some.injEq, Prod.mk.injEq] at hrun
      obtain ⟨-, rfl, rfl⟩ := hrun
      rfl
  | error => exact absurd hs.valid (hjust rfl "" "" s .tuplesOk _ rfl)

theorem newInt_of_lt {n : Nat} (h : n < 2 ^ 31) : JsonObject.newInt n = .int n := by
  have hmod : n % 2 ^ 32 = n := Nat.mod_eq_of_lt (by omega)
  rw [JsonObject.newInt, hmod, if_pos h]
  congr 1
  omega

/-- The online members are sent one packet each, with the id and the text of the message, and nobody
else is sent one. -/
def Delivered (s : Store) (userHt : Nat → Option Nat) (msg : Msg) (text : String) (msgId : Nat)
    (packets : List Packet) : Prop :=
  ∃ users json, OnlineMembers s msg.groupId userHt users ∧ packets = sendAll json users ∧
    json.objectGet "cmd" = .newString "group_msg" ∧ json.objectGet "msg_id" = .int msgId ∧
    json.objectGet "content" = .string (utf8 text)

/-- A message is stored if and only if its sender is a member. Then it goes to the online users that
are members when the member query runs, and otherwise to nobody. -/
theorem group_msg_delivered {userId : Nat} {payload : JsonObject} {sent : Sent} {ctx : DbcmdCtx Nat}
    (hs : Stored s) (hmsg : serverGroupMsg userId payload = .ok msg) (hatt : msg.attachments = [])
    (htext : msg.content = utf8 text) (hlen : (utf8 text).length < dbMessageMax)
    (hsent : (sent, ctx) ∈ (ChatCommand.groupMsg msg.groupId text msg.attachments).sends userId)
    (hexec : Execute handle s none sent.stmt res s' none) (hjust : Justified s sent.stmt res)
    (userHt : Nat → Option Nat) (client : Nat) :
    ((∃ msgId, Inserted s s' msg text msgId) ↔ ⟨userId, msg.groupId⟩ ∈ s.members) ∧
    (∀ msgId, Inserted s s' msg text msgId → ∀ handle' s₂ s₂' ids, Stored s₂ →
      Execute handle' s₂ none (.selectMemberIds msg.groupId) ids s₂' none →
      Justified s₂ (.selectMemberIds msg.groupId) ids →
      Delivered s₂ userHt msg text msgId (groupMsgPackets userHt client msg res ids)) ∧
    ((¬ ∃ msgId, Inserted s s' msg text msgId) → ∀ ids,
      ∀ p ∈ groupMsgPackets userHt client msg res ids,
        p.2.objectGet "cmd" ≠ .newString "group_msg") := by
  have huser := serverGroupMsg_userId hmsg
  rw [sends_insert hatt huser hsent] at hexec hjust
  subst huser
  cases insert_outcome hexec with
  | inserted now hstatus hid hpos hlt hm =>
      have hinserted : Inserted s (insertMsg s now msg.userId msg.groupId text (.array [])) msg text
          s.msgSeq := ⟨msgSeq_new hs, now, rfl⟩
      refine ⟨⟨fun _ => hm, fun _ => ⟨_, hinserted⟩⟩, ?_, fun hno => absurd ⟨_, hinserted⟩ hno⟩
      rintro msgId ⟨-, now', happ⟩ handle' s₂ s₂' ids hs₂ hexec₂ hjust₂
      have hrow := List.append_cancel_left happ
      obtain rfl : s.msgSeq = msgId := congrArg MessageRow.msgId (List.cons.inj hrow).1
      rw [select_result hs₂ hexec₂ hjust₂, packets_of_inserted hstatus (by omega)]
      refine ⟨_, _, groupRecipients_online hs₂, rfl, rfl, ?_, ?_⟩
      · rw [serverMsgToJson, hid, newInt_of_lt hlt]
        rfl
      · have hstr : cString dbMessageMax msg.content
            ((columnBytes (pqGetvalue res 0 1)).take dbTimestampMax) = utf8 text := by
          rw [cString, htext, if_pos hlen]
        rw [serverMsgToJson, hstr]
        rfl
  | failed hstatus hsame =>
      have hno : ¬ ∃ msgId, Inserted s s' msg text msgId := by
        rintro ⟨msgId, -, now, happ⟩
        rw [hsame] at happ
        exact absurd (congrArg List.length happ) (by simp)
      refine ⟨⟨fun h => absurd h hno, fun hm => ?_⟩, fun msgId h => absurd ⟨_, h⟩ hno, fun _ ids => ?_⟩
      · exact absurd (insertMsg_valid hs "" hm) (hjust hstatus "" "" _ _ _ rfl)
      · rw [packets_of_failed hstatus]
        intro p hp
        rw [List.mem_singleton.mp hp]
        intro hcmd
        exact absurd (JsonObject.string.inj hcmd) (by decide +kernel)

def oneMember : Store := insertGroup oneUser "now" "first" 1 false

def hiPayload : JsonObject :=
  .object [("group_id", .int 1), ("content", .newString "hi"), ("attachments", .array [])]

def hiMsg : Msg := ⟨1, 1, utf8 "hi", []⟩

def said : Store := insertMsg oneMember "now" 1 1 "hi" (.array [])

theorem said_stored : Stored said where
  valid := by constructor <;> simp [said, oneMember, oneUser, insertGroup, insertMsg]
  users := by simp [said, oneMember, oneUser, insertGroup, insertMsg]
  groups := by simp [said, oneMember, oneUser, insertGroup, insertMsg]
  messages := by simp [said, oneMember, oneUser, insertGroup, insertMsg]
  ints := by simp [said, oneMember, oneUser, insertGroup, insertMsg]

theorem hiPayload_parses : serverGroupMsg 1 hiPayload = .ok hiMsg := by
  have htake : (CString.cstr (utf8 "hi")).take dbMessageMax = utf8 "hi" := by decide +kernel
  simp only [serverGroupMsg, bind_ok]
  exact ⟨1, rfl, utf8 "hi", rfl, [], rfl, (), rfl, by rw [htake]; rfl⟩

theorem oneMember_says : Execute 0 oneMember none (insertStmt hiMsg "hi")
    ⟨0, .tuplesOk, [[some (.int 1), some (.text "now")]]⟩ said none :=
  .run "now" "" rfl said_stored

theorem group_msg_delivered_hi :
    Delivered said (fun userId => if userId = 1 then some 7 else none) hiMsg "hi" 1
      (groupMsgPackets (fun userId => if userId = 1 then some 7 else none) 7 hiMsg
        ⟨0, .tuplesOk, [[some (.int 1), some (.text "now")]]⟩
        ⟨1, .tuplesOk, selectMemberIds said 1⟩) :=
  (group_msg_delivered oneUser_insertGroup_stored hiPayload_parses rfl rfl (by decide +kernel)
    (List.mem_singleton_self _) oneMember_says (fun hfatal => by cases hfatal) _ 7).2.1 1
      ⟨by simp [oneUser, insertGroup], "now", rfl⟩ 1 said said _ said_stored
      (.run "" "" rfl said_stored) (fun hfatal => by cases hfatal)

end ChityChat.GroupMessage
