import ChityChat.JoinGroup
import ChityChat.MemberUpdates

namespace ChityChat.MemberSync

open Transition Schema WriteStatements WebClient Replica MemberUpdates
open JoinGroup (PublicGroup)
open ClientMembers (Known)

inductive Note
  | msg (msg : Msg)
  | deleted (msgId : Nat)

def Note.packet (groupId : Nat) : Note → Packet
  | .msg m => .groupMsg groupId m
  | .deleted msgId => .deleteMsg groupId msgId

/-- The statements on a connection, with what their contexts hold. `userGroups`, `memberIds`,
`userArray` and `groupMsgs` are for requests of the client, `other` are the queries about codes, files,
sessions and public groups. -/
inductive Stmt
  | userGroups
  | memberIds (groupId : Int)
  | userArray (ids : List Int)
  | group (userId groupId : Nat)
  | announce (groupId userId : Nat)
  | joinPubGroup (userId groupId : Nat)
  | joinGroupCode (userId : Nat) (inviteCode : String)
  | createGroup (userId : Nat) (name : String) (isPublic : Bool)
  | insertUser (username displayname : String)
  | connectedUsers (userId : Nat) (status : String)
  | groupMsgs (groupId : Int) (limit offset : Nat)
  | insertMsg (userId groupId : Nat) (content : String) (attachments : JsonC.JsonObject)
  | deleteMsg (msgId userId : Nat)
  | broadcast (groupId : Nat) (note : Note)
  | other (execRes : DbResult.ExecRes) (noJson : Bool)

inductive Result
  | groups (userId : Nat) (groups : List GroupInfo)
  | memberIds (groupId : Int) (ids : List Int)
  | users (infos : List UserInfo)
  | announce (ids : List Int) (groupId userId : Nat)
  | joined (userId groupId : Nat)
  | connectedUsers (ids : List Int) (userId : Nat) (status : String)
  | groupMsgs (groupId : Int) (msgs : List Msg)
  | noMsgs
  | changed (groupId : Nat) (note : Note)
  | broadcast (ids : List Int) (groupId : Nat) (note : Note)
  | done

def Stmt.writes : Stmt → Bool
  | .joinPubGroup .. | .joinGroupCode .. | .createGroup .. | .insertUser .. | .insertMsg ..
  | .deleteMsg .. => true
  | _ => false

def Stmt.silent : Stmt → Bool
  | .other .. => true
  | stmt => stmt.writes

theorem Stmt.silent_of_writes {stmt : Stmt} (h : stmt.writes = true) : stmt.silent = true := by
  cases stmt <;> first | rfl | cases h

/-- What the worker sends for others: these, and the query for a broadcast of `rtusm`. -/
def Stmt.ofOthers : Stmt → Bool
  | .connectedUsers .. => true
  | stmt => stmt.silent

theorem Stmt.ofOthers_of_silent {stmt : Stmt} (h : stmt.silent = true) : stmt.ofOthers = true := by
  cases stmt <;> first | exact h | rfl

def groupInfo (g : GroupRow) : GroupInfo :=
  ⟨g.groupId, (g.ownerId.getD 0 : Nat), g.name, g.desc.getD ""⟩

/-- A row of `select_user_json.sql`, which has no status. -/
def userInfo (u : UserRow) : UserInfo :=
  ⟨u.userId, u.username, u.displayname, u.bio.getD "", u.createdAt.getD "", u.pfp, none⟩

def memberIds (s : Store) (groupId : Int) : List Int :=
  (s.members.filter (fun gm => (gm.groupId : Int) = groupId)).map (fun gm => (gm.userId : Int))

def connectedUsers (s : Store) (userId : Nat) : List Int :=
  (s.users.filter (fun u => s.members.any (fun gm =>
    gm.userId = userId ∧ ⟨u.userId, gm.groupId⟩ ∈ s.members))).map (fun u => (u.userId : Int))

def rowsOf (s : Store) (groupId : Int) : List MessageRow :=
  s.messages.filter (fun m => m.groupId.map (fun (id : Nat) => (id : Int)) = some groupId)

def groupMsgs (s : Store) (groupId : Int) (limit offset : Nat) : List MessageRow :=
  ((GroupRead.orderByMsgId (rowsOf s groupId)).drop offset).take limit

/-- A message in a packet is that of a row. Its text and its time are printed in different ways. -/
def Describes (m : MessageRow) (msg : Msg) : Prop :=
  msg.msgId = m.msgId ∧ m.userId.map (fun (id : Nat) => (id : Int)) = some msg.userId

/-- The database executes a statement of the user `me`'s client or of others. A statement that
changes tables may fail, and uses up numbers of the sequences. Messages that are nested too deep for the
tokener are no list, at which the client throws. -/
inductive Runs (me : Nat) : Store → Stmt → Store → Result → Prop
  | userGroups (s : Store) : Runs me s .userGroups s
      (.groups me ((GroupRead.selectUserGroups s.toDatabase me).map groupInfo))
  | memberIds (s : Store) (groupId : Int) : Runs me s (.memberIds groupId) s
      (.memberIds groupId (MemberSync.memberIds s groupId))
  | userArray (s : Store) (ids : List Int) : Runs me s (.userArray ids) s
      (.users ((GroupRead.selectUserJson s.toDatabase ids).map userInfo))
  | group (s : Store) (userId groupId : Nat) : Runs me s (.group userId groupId) s
      (.groups userId ((s.groups.filter (fun g => g.groupId = groupId)).map groupInfo))
  | announce (s : Store) (groupId userId : Nat) : Runs me s (.announce groupId userId) s
      (.announce (MemberSync.memberIds s groupId) groupId userId)
  | joinPubGroup (s : Store) (userId groupId : Nat) (hs : Stored (joinPubGroup s userId groupId)) :
      Runs me s (.joinPubGroup userId groupId) (joinPubGroup s userId groupId) (.joined userId groupId)
  | joinGroupCode {s s' : Store} {userId : Nat} {inviteCode : String} {gc : CodeRow}
      (hgc : s.codes.find? (fun c => c.inviteCode = varchar8 inviteCode) = some gc)
      (hrun : insertGroupmemberCode s userId inviteCode = some s') (hs : Stored s') :
      Runs me s (.joinGroupCode userId inviteCode) s' (.joined userId gc.groupId)
  | createGroup {s : Store} {userId : Nat} {name : String} {isPublic : Bool} (now : String)
      (hs : Stored (insertGroup s now name userId isPublic)) :
      Runs me s (.createGroup userId name isPublic) (insertGroup s now name userId isPublic)
        (.groups userId [⟨s.groupSeq, userId, name, ""⟩])
  | insertUser {s : Store} {username displayname : String} (now : String)
      (hs : Stored (insertUser s now username displayname)) :
      Runs me s (.insertUser username displayname) (insertUser s now username displayname) .done
  | connectedUsers (s : Store) (userId : Nat) (status : String) :
      Runs me s (.connectedUsers userId status) s
        (.connectedUsers (MemberSync.connectedUsers s userId) userId status)
  | groupMsgs (s : Store) (groupId : Int) (limit offset : Nat) {msgs : List Msg}
      (hmsgs : List.Forall₂ Describes (MemberSync.groupMsgs s groupId limit offset) msgs) :
      Runs me s (.groupMsgs groupId limit offset) s (.groupMsgs groupId msgs)
  | noMsgs (s : Store) (groupId : Int) (limit offset : Nat) :
      Runs me s (.groupMsgs groupId limit offset) s .noMsgs
  | insertMsg {s : Store} {userId groupId : Nat} {content : String} {attachments : JsonC.JsonObject} (now : String)
      {msg : Msg} (hmsg : msg.msgId = s.msgSeq ∧ msg.userId = userId)
      (hs : Stored (insertMsg s now userId groupId content attachments)) :
      Runs me s (.insertMsg userId groupId content attachments)
        (insertMsg s now userId groupId content attachments) (.changed groupId (.msg msg))
  | deleteMsg {s : Store} {msgId userId : Nat} {m : MessageRow} {groupId : Nat} (hm : m ∈ s.messages)
      (hmay : MayDelete s msgId userId m) (hgroup : m.groupId = some groupId)
      (hs : Stored (deleteMsg s msgId userId)) :
      Runs me s (.deleteMsg msgId userId) (deleteMsg s msgId userId) (.changed groupId (.deleted msgId))
  | broadcast (s : Store) (groupId : Nat) (note : Note) : Runs me s (.broadcast groupId note) s
      (.broadcast (MemberSync.memberIds s groupId) groupId note)
  | other (s : Store) (execRes : DbResult.ExecRes) (noJson : Bool) : Runs me s (.other execRes noJson) s .done
  | failed {s : Store} {stmt : Stmt} (users groups msgs : Nat) (hstmt : stmt.writes = true)
      (hs : Stored { s with
        userSeq := s.userSeq + users, groupSeq := s.groupSeq + groups, msgSeq := s.msgSeq + msgs }) :
      Runs me s stmt { s with
        userSeq := s.userSeq + users, groupSeq := s.groupSeq + groups, msgSeq := s.msgSeq + msgs } .done

/-- What a handler or a callback sends to the client, and to the database. -/
structure Sends where
  packets : List Packet
  stmts : List Stmt

def sendUsersFromClients (users : List UserInfo) : List Packet :=
  if users = [] then [] else [.getUser users]

def serverGetUser (online : Int → Option UserInfo) (ids : List Int) : Sends :=
  let others := ids.filter (fun id => (online id).isNone)
  ⟨sendUsersFromClients (ids.reverse.filterMap online), if others = [] then [] else [.userArray others]⟩

/-- The handlers of the client's requests. The replies to `client_user_info` behind the first one are
among the other packets of the server. -/
def handler (online : Int → Option UserInfo) : Request → Sends
  | .clientGroups => ⟨[], [.userGroups]⟩
  | .getUser ids => serverGetUser online ids
  | .getMemberIds groupId => ⟨[], [.memberIds groupId]⟩
  | .getGroupMsgs groupId limit offset => ⟨[], [.groupMsgs groupId limit offset]⟩
  | .clientUserInfo => ⟨[], []⟩

def onUserGroupJoin (userId groupId : Nat) : List Stmt := [.group userId groupId, .announce groupId userId]

/-- The callbacks, with what they send to the client of `me`. -/
def callback (me : Nat) : Result → Sends
  | .groups userId groups => ⟨if userId = me then [.clientGroups groups] else [], []⟩
  | .memberIds groupId ids => ⟨[.getMemberIds groupId ids], []⟩
  | .users infos => ⟨[.getUser infos], []⟩
  | .announce ids groupId userId => ⟨if (me : Int) ∈ ids then [.joinGroup groupId userId] else [], []⟩
  | .joined userId groupId => ⟨[], onUserGroupJoin userId groupId⟩
  | .connectedUsers ids userId status =>
      ⟨if (me : Int) ∈ ids then [.rtusm userId (some status) none] else [], []⟩
  | .groupMsgs groupId msgs => ⟨[.getGroupMsgs groupId msgs], []⟩
  | .noMsgs => ⟨[.other], []⟩
  | .changed groupId note => ⟨[], [.broadcast groupId note]⟩
  | .broadcast ids groupId note => ⟨if (me : Int) ∈ ids then [note.packet groupId] else [], []⟩
  | .done => ⟨[], []⟩

variable {W : Type} [DecidableEq W] {me : Nat} {s s' : Store}

/-- The client of `me` behind its login, the packets on their way to it, how many of its requests are
handled, and the tables. `loaded` tells of which groups the client has been sent a list. -/
structure Core where
  app : App
  handled : Nat
  channel : List Packet
  store : Store
  loaded : Int → Bool

def Core.view (s : Core) (groupId : Int) : View Int := ⟨listOf s.app groupId, s.loaded groupId⟩

def Core.delivered (s : Core) (packet : Packet) (rest : List Packet) : Core :=
  { s with
    app := s.app.exec (.packet packet)
    channel := rest
    loaded := fun groupId => ((s.view groupId).after (updates groupId packet)).loaded }

def Core.emit (s : Core) (packets : List Packet) : Core := { s with channel := s.channel ++ packets }

@[simp] theorem Core.emit_channel (s : Core) (packets : List Packet) :
    (s.emit packets).channel = s.channel ++ packets := rfl

def Core.served (s : Core) (online : Int → Option UserInfo) (r : Request) : Core :=
  { s with handled := s.handled + 1 }.emit (handler online r).packets

/-- The connections of the workers beside it, which are queues. -/
structure State (W : Type) extends Core where
  sent : W → List Stmt
  results : W → List Result

def State.emit (s : State W) (w : W) (r : Sends) : State W where
  toCore := s.toCore.emit r.packets
  sent := Function.update s.sent w (s.sent w ++ r.stmts)
  results := s.results

def State.delivered (s : State W) (packet : Packet) (rest : List Packet) : State W :=
  { s with toCore := s.toCore.delivered packet rest }

omit [DecidableEq W] in
@[simp] theorem State.delivered_app (s : State W) (packet : Packet) (rest : List Packet) :
    (s.delivered packet rest).app = s.app.exec (.packet packet) := rfl

def State.served (s : State W) (w : W) (online : Int → Option UserInfo) (r : Request) : State W :=
  { s with handled := s.handled + 1 }.emit w (handler online r)

def State.executed (s : State W) (w : W) (rest : List Stmt) (store : Store) (res : Result) : State W :=
  { s with
    store := store
    sent := Function.update s.sent w rest
    results := Function.update s.results w (s.results w ++ [res]) }

def State.taken (s : State W) (me : Nat) (w : W) (rest : List Result) (res : Result) : State W :=
  { s with results := Function.update s.results w rest }.emit w (callback me res)

@[simp] theorem State.emit_sent (s : State W) (w : W) (r : Sends) :
    (s.emit w r).sent w = s.sent w ++ r.stmts := Function.update_self ..

@[simp] theorem State.served_sent (s : State W) (w : W) (online : Int → Option UserInfo) (r : Request) :
    (s.served w online r).sent w = s.sent w ++ (handler online r).stmts := Function.update_self ..

@[simp] theorem State.taken_sent (s : State W) (me : Nat) (w : W) (rest : List Result) (res : Result) :
    (s.taken me w rest res).sent w = s.sent w ++ (callback me res).stmts := Function.update_self ..

@[simp] theorem State.taken_results (s : State W) (me : Nat) (w : W) (rest : List Result) (res : Result) :
    (s.taken me w rest res).results w = rest := Function.update_self ..

@[simp] theorem State.executed_sent (s : State W) (w : W) (rest : List Stmt) (store : Store) (res : Result) :
    (s.executed w rest store res).sent w = rest := Function.update_self ..

@[simp] theorem State.executed_results (s : State W) (w : W) (rest : List Stmt) (store : Store)
    (res : Result) : (s.executed w rest store res).results w = s.results w ++ [res] :=
  Function.update_self ..

def IsUser (s : Store) (id : Int) : Prop := ∃ u ∈ s.users, (u.userId : Int) = id

/-- The packets of the server that are about no members and no messages. -/
def Neutral (s : Store) : Packet → Prop
  | .rtusm .. | .other => True
  | .getAllGroups groups => ∀ group ∈ groups, IsUser s group.ownerId
  | _ => False

inductive Action (W : Type)
  | select (groupId : Int)
  | scroll (groupId : Int)
  | deliver
  | serve (w : W)
  | command (w : W) (stmt : Stmt)
  | execute (w : W)
  | result (w : W)
  | packet (packet : Packet)

/-- A click, a packet that arrives, a worker with the next request of the client, a command of anybody,
a statement or a result of a connection, or another packet of the server. -/
inductive Step (me : Nat) : State W → Action W → State W → Prop
  | select (s : State W) (groupId : Int) :
      Step me s (.select groupId) { s with app := s.app.exec (.select groupId) }
  | scroll (s : State W) (groupId : Int) :
      Step me s (.scroll groupId) { s with app := s.app.exec (.scroll groupId) }
  | deliver {s : State W} {packet : Packet} {rest : List Packet} (h : s.channel = packet :: rest) :
      Step me s .deliver (s.delivered packet rest)
  | serve {s : State W} {r : Request} (w : W) (online : Int → Option UserInfo)
      (h : s.app.sent[s.handled]? = some r)
      (honline : ∀ id info, online id = some info → info.userId = id) :
      Step me s (.serve w) (s.served w online r)
  | command (s : State W) (w : W) {stmt : Stmt} (h : stmt.ofOthers = true) :
      Step me s (.command w stmt) (s.emit w ⟨[], [stmt]⟩)
  | execute {s : State W} {w : W} {stmt : Stmt} {rest : List Stmt} {store : Store} {res : Result}
      (h : s.sent w = stmt :: rest) (hrun : Runs me s.store stmt store res) :
      Step me s (.execute w) (s.executed w rest store res)
  | result {s : State W} {w : W} {res : Result} {rest : List Result} (h : s.results w = res :: rest) :
      Step me s (.result w) (s.taken me w rest res)
  | packet (s : State W) {packet : Packet} (h : Neutral s.store packet) :
      Step me s (.packet packet) { s with channel := s.channel ++ [packet] }

/-- The client knows its user. The connections may have commands of others. -/
structure Initial (me : Nat) (s : State W) : Prop where
  stored : Stored s.store
  app : ∃ urlGroup storedGroup info, info.userId = (me : Int) ∧
    s.app = ((App.start urlGroup storedGroup).exec (.packet .session)).exec (.packet (.clientUserInfo info))
  handled : s.handled = 1
  channel : s.channel = []
  sent : ∀ w, ∀ stmt ∈ s.sent w, stmt.ofOthers = true
  results : ∀ w, s.results w = []
  loaded : ∀ groupId, s.loaded groupId = false

/-- Nobody joins a group that is not public by its number, which is announced like a join. -/
def JoinsPublic (s : State W) : Action W → Prop
  | .execute w => ∀ userId groupId rest, s.sent w = .joinPubGroup userId groupId :: rest →
      PublicGroup s.store groupId
  | _ => True

def KeptStep (me : Nat) (s : State W) (a : Action W) (s' : State W) : Prop :=
  JoinsPublic s a ∧ Step me s a s'

theorem mem_memberIds {groupId id : Int} : id ∈ memberIds s groupId ↔
    ∃ gm ∈ s.members, (gm.groupId : Int) = groupId ∧ (gm.userId : Int) = id := by
  simp [memberIds, and_assoc]

def Inserts (s s' : Store) (userId groupId : Nat) : Prop :=
  ∀ gm, gm ∈ s'.members ↔ gm ∈ s.members ∨ gm = ⟨userId, groupId⟩

theorem Inserts.memberIds {userId groupId : Nat} (h : Inserts s s' userId groupId) {groupId' id : Int} :
    id ∈ MemberSync.memberIds s' groupId' ↔
      id ∈ MemberSync.memberIds s groupId' ∨ (groupId : Int) = groupId' ∧ (userId : Int) = id := by
  rw [mem_memberIds, mem_memberIds]
  constructor
  · rintro ⟨gm, hm, hg, hu⟩
    rcases (h gm).mp hm with hm | rfl
    · exact .inl ⟨gm, hm, hg, hu⟩
    · exact .inr ⟨hg, hu⟩
  · rintro (⟨gm, hm, hg, hu⟩ | ⟨hg, hu⟩)
    · exact ⟨gm, (h gm).mpr (.inl hm), hg, hu⟩
    · exact ⟨_, (h _).mpr (.inr rfl), hg, hu⟩

theorem joinPubGroup_inserts {userId groupId : Nat} (hpub : PublicGroup s groupId) :
    Inserts s (joinPubGroup s userId groupId) userId groupId := by
  obtain ⟨g, hg, hid, hp⟩ := hpub
  intro gm
  simp only [joinPubGroup, List.mem_append, List.mem_map, List.mem_filter, decide_eq_true_eq]
  refine or_congr_right ⟨?_, ?_⟩
  · rintro ⟨-, -, rfl⟩
    rfl
  · rintro rfl
    exact ⟨g, ⟨hg, hid, hp⟩, rfl⟩

theorem insertGroupmemberCode_inserts {userId : Nat} {inviteCode : String} {gc : CodeRow}
    (hgc : s.codes.find? (fun c => c.inviteCode = varchar8 inviteCode) = some gc)
    (hrun : insertGroupmemberCode s userId inviteCode = some s') :
    Inserts s s' userId gc.groupId ∧ s'.users = s.users := by
  rw [insertGroupmemberCode, hgc] at hrun
  obtain rfl := Option.some.inj hrun
  exact ⟨fun gm => by simp, rfl⟩

theorem insertGroup_inserts (now name : String) (userId : Nat) (isPublic : Bool) :
    Inserts s (insertGroup s now name userId isPublic) userId s.groupSeq := by
  intro gm
  simp [insertGroup]

theorem memberIds_groupSeq (hs : Stored s) (id : Int) : id ∉ memberIds s (s.groupSeq : Int) := by
  intro hm
  obtain ⟨gm, hgm, hg, -⟩ := mem_memberIds.mp hm
  obtain ⟨g, hg', heq⟩ := List.mem_map.mp (hs.valid.memberGroup gm hgm)
  have hlt := (hs.groups g hg').2
  omega

/-- Members and users only become more. -/
structure Grows (s s' : Store) : Prop where
  members : ∀ groupId id, id ∈ memberIds s groupId → id ∈ memberIds s' groupId
  users : ∀ id, IsUser s id → IsUser s' id

theorem Inserts.grows {userId groupId : Nat} (h : Inserts s s' userId groupId) (hu : s'.users = s.users) :
    Grows s s' where
  members _ _ hm := h.memberIds.mpr (.inl hm)
  users _ hid := by rw [IsUser, hu]; exact hid

theorem Inserts.member {userId groupId : Nat} (h : Inserts s s' userId groupId) :
    (userId : Int) ∈ MemberSync.memberIds s' groupId := h.memberIds.mpr (.inr ⟨rfl, rfl⟩)

theorem member_isUser (hs : Stored s) {groupId id : Int} (h : id ∈ memberIds s groupId) : IsUser s id := by
  obtain ⟨gm, hgm, -, rfl⟩ := mem_memberIds.mp h
  obtain ⟨u, hu, heq⟩ := List.mem_map.mp (hs.valid.memberUser gm hgm)
  exact ⟨u, hu, by rw [heq]⟩

def PacketSound (s : Store) (me : Nat) : Packet → Prop
  | .session | .clientUserInfo _ | .deleteGroup _ => False
  | .clientGroups groups => ∀ info ∈ groups, (me : Int) ∈ memberIds s info.groupId
  | .getMemberIds groupId ids => ∀ id ∈ ids, id ∈ memberIds s groupId
  | .joinGroup groupId userId => userId ∈ memberIds s groupId
  | .getAllGroups groups => ∀ group ∈ groups, IsUser s group.ownerId
  | _ => True

def StmtSound (s : Store) : Stmt → Prop
  | .group userId groupId | .announce groupId userId => (userId : Int) ∈ memberIds s groupId
  | _ => True

def ResultSound (s : Store) (me : Nat) : Result → Prop
  | .groups userId groups => userId = me → ∀ info ∈ groups, (me : Int) ∈ memberIds s info.groupId
  | .memberIds groupId ids => ∀ id ∈ ids, id ∈ memberIds s groupId
  | .announce _ groupId userId | .joined userId groupId => (userId : Int) ∈ memberIds s groupId
  | _ => True

theorem PacketSound.mono {packet : Packet} (hg : Grows s s') (h : PacketSound s me packet) :
    PacketSound s' me packet := by
  cases packet with
  | clientGroups groups => exact fun info hi => hg.members _ _ (h info hi)
  | getMemberIds groupId ids => exact fun id hi => hg.members _ _ (h id hi)
  | joinGroup groupId userId => exact hg.members _ _ h
  | getAllGroups groups => exact fun group hm => hg.users _ (h group hm)
  | _ => exact h

theorem StmtSound.mono {stmt : Stmt} (hg : Grows s s') (h : StmtSound s stmt) : StmtSound s' stmt := by
  cases stmt with
  | group | announce => exact hg.members _ _ h
  | _ => trivial

theorem ResultSound.mono {res : Result} (hg : Grows s s') (h : ResultSound s me res) :
    ResultSound s' me res := by
  cases res with
  | groups userId groups => exact fun he info hi => hg.members _ _ (h he info hi)
  | memberIds groupId ids => exact fun id hi => hg.members _ _ (h id hi)
  | announce | joined => exact hg.members _ _ h
  | _ => trivial

theorem Neutral.sound {packet : Packet} (h : Neutral s packet) : PacketSound s me packet := by
  cases packet <;> trivial

theorem Neutral.updates {packet : Packet} (h : Neutral s packet) (groupId : Int) :
    MemberUpdates.updates groupId packet = [] := by
  cases packet <;> first | rfl | exact h.elim

theorem sound_of_others {stmt : Stmt} (h : stmt.ofOthers = true) : StmtSound s stmt := by
  cases stmt with
  | group | announce => cases h
  | _ => trivial

theorem Note.sound (note : Note) (groupId : Nat) : PacketSound s me (note.packet groupId) := by
  cases note <;> trivial

theorem callback_sound {res : Result} (h : ResultSound s me res) :
    (∀ packet ∈ (callback me res).packets, PacketSound s me packet) ∧
      ∀ stmt ∈ (callback me res).stmts, StmtSound s stmt := by
  cases res with
  | groups userId groups =>
      refine ⟨fun packet hp => ?_, fun stmt hm => (by cases hm)⟩
      rw [callback] at hp
      split at hp
      · next he =>
          obtain rfl := List.mem_singleton.mp hp
          exact h he
      · cases hp
  | memberIds groupId ids =>
      refine ⟨fun packet hp => ?_, fun stmt hm => (by cases hm)⟩
      obtain rfl := List.mem_singleton.mp hp
      exact h
  | users infos =>
      refine ⟨fun packet hp => ?_, fun stmt hm => (by cases hm)⟩
      obtain rfl := List.mem_singleton.mp hp
      trivial
  | announce ids groupId userId =>
      refine ⟨fun packet hp => ?_, fun stmt hm => (by cases hm)⟩
      rw [callback] at hp
      split at hp
      · obtain rfl := List.mem_singleton.mp hp
        exact h
      · cases hp
  | connectedUsers ids userId status =>
      refine ⟨fun packet hp => ?_, fun stmt hm => (by cases hm)⟩
      rw [callback] at hp
      split at hp
      · obtain rfl := List.mem_singleton.mp hp
        trivial
      · cases hp
  | groupMsgs | noMsgs =>
      refine ⟨fun packet hp => ?_, fun stmt hm => (by cases hm)⟩
      obtain rfl := List.mem_singleton.mp hp
      trivial
  | changed groupId note =>
      refine ⟨fun packet hp => (by cases hp), fun stmt hm => ?_⟩
      obtain rfl := List.mem_singleton.mp hm
      trivial
  | broadcast ids groupId note =>
      refine ⟨fun packet hp => ?_, fun stmt hm => (by cases hm)⟩
      rw [callback] at hp
      split at hp
      · obtain rfl := List.mem_singleton.mp hp
        exact note.sound groupId
      · cases hp
  | joined userId groupId =>
      refine ⟨fun packet hp => (by cases hp), fun stmt hm => ?_⟩
      simp only [callback, onUserGroupJoin, List.mem_cons, List.not_mem_nil, or_false] at hm
      rcases hm with rfl | rfl <;> exact h
  | done => exact ⟨fun packet hp => (by cases hp), fun stmt hm => (by cases hm)⟩

theorem handler_sound (online : Int → Option UserInfo) (r : Request) :
    (∀ packet ∈ (handler online r).packets, PacketSound s me packet) ∧
      ∀ stmt ∈ (handler online r).stmts, StmtSound s stmt := by
  cases r with
  | clientUserInfo => exact ⟨nofun, nofun⟩
  | clientGroups | getMemberIds | getGroupMsgs =>
      refine ⟨nofun, fun stmt hm => ?_⟩
      obtain rfl := List.mem_singleton.mp hm
      trivial
  | getUser ids =>
      simp only [handler, serverGetUser, sendUsersFromClients]
      refine ⟨fun packet hp => ?_, fun stmt hm => ?_⟩
      · split at hp
        · cases hp
        · obtain rfl := List.mem_singleton.mp hp
          trivial
      · split at hm
        · cases hm
        · obtain rfl := List.mem_singleton.mp hm
          trivial

theorem mem_selectUserGroups {g : GroupRow} (h : g ∈ GroupRead.selectUserGroups s.toDatabase me) :
    (me : Int) ∈ memberIds s g.groupId := by
  simp only [GroupRead.selectUserGroups, List.mem_flatMap, List.mem_map, List.mem_filter,
    decide_eq_true_eq] at h
  obtain ⟨g', -, gm, ⟨hm, hg, hu⟩, rfl⟩ := h
  exact mem_memberIds.mpr ⟨gm, hm, by rw [hg], by rw [hu]⟩

theorem Runs.sound {stmt : Stmt} {res : Result} (h : Runs me s stmt s' res) (hs : Stored s)
    (hstmt : StmtSound s stmt)
    (hpub : ∀ userId groupId, stmt = .joinPubGroup userId groupId → PublicGroup s groupId) :
    Grows s s' ∧ Stored s' ∧ ResultSound s' me res := by
  have hsame : Grows s s := ⟨fun _ _ hm => hm, fun _ hu => hu⟩
  cases h with
  | userGroups =>
      refine ⟨hsame, hs, fun _ info hi => ?_⟩
      obtain ⟨g, hg, rfl⟩ := List.mem_map.mp hi
      exact mem_selectUserGroups hg
  | memberIds groupId => exact ⟨hsame, hs, fun _ hm => hm⟩
  | userArray | connectedUsers | groupMsgs | noMsgs | broadcast | other => exact ⟨hsame, hs, trivial⟩
  | insertMsg now hmsg hs' | deleteMsg hm hmay hgroup hs' =>
      exact ⟨⟨fun _ _ hm => hm, fun _ hu => hu⟩, hs', trivial⟩
  | group userId groupId =>
      refine ⟨hsame, hs, fun he info hi => ?_⟩
      obtain ⟨g, hg, rfl⟩ := List.mem_map.mp hi
      have hid : g.groupId = groupId := by simpa using (List.mem_filter.mp hg).2
      rw [← he, groupInfo, hid]
      exact hstmt
  | announce groupId userId => exact ⟨hsame, hs, hstmt⟩
  | joinPubGroup userId groupId hs' =>
      have hins : Inserts s (WriteStatements.joinPubGroup s userId groupId) userId groupId :=
        joinPubGroup_inserts (hpub userId groupId rfl)
      exact ⟨hins.grows rfl, hs', hins.member⟩
  | joinGroupCode hgc hrun hs' =>
      obtain ⟨hins, husers⟩ := insertGroupmemberCode_inserts hgc hrun
      exact ⟨hins.grows husers, hs', hins.member⟩
  | @createGroup userId name isPublic now hs' =>
      have hins : Inserts s (insertGroup s now name userId isPublic) userId s.groupSeq :=
        insertGroup_inserts now name userId isPublic
      refine ⟨hins.grows rfl, hs', fun he info hi => ?_⟩
      obtain rfl := List.mem_singleton.mp hi
      exact he ▸ hins.member
  | insertUser now hs' =>
      refine ⟨⟨fun _ _ hm => hm, ?_⟩, hs', trivial⟩
      rintro id ⟨u, hu, heq⟩
      exact ⟨u, List.mem_append_left _ hu, heq⟩
  | failed users groups msgs hw hs' => exact ⟨⟨fun _ _ hm => hm, fun _ hu => hu⟩, hs', trivial⟩

theorem PacketSound.lists {packet : Packet} (h : PacketSound s me packet) {groupId id : Int}
    (hl : lists packet groupId id) : id ∈ memberIds s groupId := by
  rcases hl with ⟨as, hm, hid⟩ | hm
  · cases packet with
    | getMemberIds groupId' ids =>
        rw [updates] at hm
        split at hm
        · next he =>
            obtain rfl := Update.snapshot.inj (List.mem_singleton.mp hm)
            exact he ▸ h id hid
        · cases hm
    | joinGroup groupId' userId =>
        rw [updates] at hm
        split at hm
        · cases List.mem_singleton.mp hm
        · cases hm
    | clientGroups groups =>
        obtain ⟨-, -, he⟩ := List.mem_map.mp hm
        cases he
    | _ => cases hm
  · cases packet with
    | getMemberIds groupId' ids =>
        rw [updates] at hm
        split at hm
        · cases List.mem_singleton.mp hm
        · cases hm
    | joinGroup groupId' userId =>
        rw [updates] at hm
        split at hm
        · next he =>
            obtain rfl := Update.add.inj (List.mem_singleton.mp hm)
            exact he ▸ h
        · cases hm
    | clientGroups groups =>
        obtain ⟨-, -, he⟩ := List.mem_map.mp hm
        cases he
    | _ => cases hm

theorem PacketSound.reset {packet : Packet} (h : PacketSound s me packet) {groupId : Int}
    (hm : .reset ∈ updates groupId packet) : (me : Int) ∈ memberIds s groupId := by
  cases packet with
  | clientGroups groups =>
      obtain ⟨info, hi, -⟩ := List.mem_map.mp hm
      obtain ⟨hi, he⟩ := List.mem_filter.mp hi
      have hid : info.groupId = groupId := by simpa using he
      exact hid ▸ h info hi
  | getMemberIds groupId' ids =>
      rw [updates] at hm
      split at hm
      · cases List.mem_singleton.mp hm
      · cases hm
  | joinGroup groupId' userId =>
      rw [updates] at hm
      split at hm
      · cases List.mem_singleton.mp hm
      · cases hm
  | _ => cases hm

theorem PacketSound.ne_session {packet : Packet} (h : PacketSound s me packet) : packet ≠ .session := by
  rintro rfl
  exact h

theorem PacketSound.ne_delete {packet : Packet} (h : PacketSound s me packet) (groupId : Int) :
    packet ≠ .deleteGroup groupId := by
  rintro rfl
  exact h

theorem PacketSound.inOrder {packet : Packet} (h : PacketSound s me packet) (app : App) :
    ClientMembers.InOrder app (.packet packet) := by
  cases packet with
  | clientUserInfo => exact h.elim
  | _ => trivial

theorem PacketSound.asks {packet : Packet} (h : PacketSound s me packet) (hs : Stored s) {app : App}
    {ids : List Int} (ha : asks app packet (.getUser ids)) : ∀ id ∈ ids, IsUser s id := by
  intro id hid
  cases packet with
  | getMemberIds groupId memberIds => exact member_isUser hs (h id (ha.2 id hid))
  | joinGroup groupId userId =>
      obtain ⟨-, rfl⟩ := ha
      obtain rfl := List.mem_singleton.mp hid
      exact member_isUser hs h
  | getAllGroups groups =>
      obtain ⟨group, hm, rfl⟩ := ha id hid
      exact h group hm
  | _ => exact ha.elim

def LoggedIn (app : App) : Prop := app.loggedIn = true ∧ app.leftPage = false

variable {app : App}

theorem exec_packet (h : LoggedIn app) (packet : Packet) :
    app.exec (.packet packet) = handlePacket app packet := by
  simp [App.exec, handlePacketState, h.1, h.2]

theorem exec_select (h : LoggedIn app) (groupId : Int) : app.exec (.select groupId) = app.select groupId := by
  simp [App.exec, h.2]

theorem exec_scroll (h : LoggedIn app) (groupId : Int) : app.exec (.scroll groupId) = app.scroll groupId := by
  simp [App.exec, h.2]

theorem Extends.loggedIn {Q : Request → Prop} {app' : App} (h : Extends Q app app') (hl : LoggedIn app) :
    LoggedIn app' := ⟨h.page.1.trans hl.1, h.page.2.trans hl.2⟩

/-- The part of the invariant that holds with any number of workers. -/
structure Safe (me : Nat) (s : State W) : Prop where
  stored : Stored s.store
  client : ClientMembers.Inv s.app
  page : LoggedIn s.app
  shown : Shown (fun groupId id => id ∈ memberIds s.store groupId) s.app
  own : ∀ groupId, (listOf s.app groupId).isSome → (me : Int) ∈ memberIds s.store groupId
  channel : ∀ packet ∈ s.channel, PacketSound s.store me packet
  sent : ∀ w, ∀ stmt ∈ s.sent w, StmtSound s.store stmt
  results : ∀ w, ∀ res ∈ s.results w, ResultSound s.store me res

omit [DecidableEq W] in
theorem Safe.initial {s : State W} (h : Initial me s) : Safe me s := by
  obtain ⟨urlGroup, storedGroup, info, -, happ⟩ := h.app
  have hgroups : ∀ groupId, s.app.groups groupId = none := by
    rw [happ]
    exact fun _ => rfl
  have hreach : Reachable Starts ClientMembers.Step s.app := by
    rw [happ]
    have hstart : Reachable Starts ClientMembers.Step (App.start urlGroup storedGroup) :=
      .start ⟨urlGroup, storedGroup, rfl⟩
    exact (hstart.next (a := Event.packet .session) ⟨trivial, rfl⟩).next
      (a := Event.packet (.clientUserInfo info)) ⟨(by intro _ _ hg; cases hg), rfl⟩
  exact
    { stored := h.stored
      client := ClientMembers.reachable_inv hreach
      page := by rw [happ]; exact ⟨rfl, rfl⟩
      shown := fun groupId group hg => by rw [hgroups] at hg; cases hg
      own := fun groupId hg => by rw [listOf_none (hgroups groupId)] at hg; cases hg
      channel := by rw [h.channel]; exact nofun
      sent := fun w stmt hm => sound_of_others (h.sent w stmt hm)
      results := fun w => by rw [h.results]; exact nofun }

variable {s t : State W}

theorem mem_update {α : Type} {f : W → List α} {w w' : W} {as : List α} {a : α}
    (h : a ∈ Function.update f w as w') : (w' = w ∧ a ∈ as) ∨ a ∈ f w' := by
  by_cases he : w' = w
  · subst he
    rw [Function.update_self] at h
    exact .inl ⟨rfl, h⟩
  · rw [Function.update_of_ne he] at h
    exact .inr h

omit [DecidableEq W] in
theorem Safe.head (h : Safe me s) {packet : Packet} {rest : List Packet} (hc : s.channel = packet :: rest) :
    PacketSound s.store me packet := h.channel packet (hc ▸ List.mem_cons_self)

theorem Safe.emit (h : Safe me s) (w : W) {r : Sends}
    (hp : ∀ packet ∈ r.packets, PacketSound s.store me packet) (hs : ∀ stmt ∈ r.stmts, StmtSound s.store stmt) :
    Safe me (s.emit w r) :=
  { h with
    channel := fun packet hm => (List.mem_append.mp hm).elim (h.channel packet) (hp packet)
    sent := fun w' stmt hm => by
      rcases mem_update hm with ⟨rfl, hm⟩ | hm
      · exact (List.mem_append.mp hm).elim (h.sent w' stmt) (hs stmt)
      · exact h.sent w' stmt hm }

omit [DecidableEq W] in
theorem Safe.deliver (h : Safe me s) {packet : Packet} {rest : List Packet}
    (hc : s.channel = packet :: rest) : Safe me (s.delivered packet rest) := by
  have hp := h.head hc
  refine
    { stored := h.stored
      client := ?client
      page := ?page
      shown := ?shown
      own := ?own
      channel := fun packet hm => h.channel packet (hc ▸ List.mem_cons_of_mem _ hm)
      sent := h.sent
      results := h.results }
  case client =>
    change ClientMembers.Inv (s.app.exec (.packet packet))
    refine ClientMembers.plain.exec h.client ?_
    intro packet' he hch
    cases he
    exact h.client.packet (hp.inOrder s.app) hch
  case page =>
    rw [State.delivered_app, exec_packet h.page]
    exact Extends.loggedIn (Extends.packet s.app hp.ne_session) h.page
  case shown =>
    change Shown _ (s.app.exec (.packet packet))
    refine shownPlain.exec h.shown ?_
    intro packet' he hch
    cases he
    exact h.shown.packet h.client.keyed (fun _ _ hl => hp.lists hl) hch
  case own =>
    intro groupId hg
    rw [State.delivered_app, exec_packet h.page, listOf_packet s.app hp.ne_delete groupId false] at hg
    rcases View.isSome_after hg with hg | hm
    · exact h.own groupId hg
    · exact hp.reset hm

theorem Safe.execute (h : Safe me s) {w : W} {stmt : Stmt} {rest : List Stmt} {store : Store} {res : Result}
    (hsent : s.sent w = stmt :: rest) (hrun : Runs me s.store stmt store res)
    (hpub : JoinsPublic s (.execute w)) :
    Safe me (s.executed w rest store res) := by
  have hstmt : StmtSound s.store stmt := h.sent w stmt (hsent ▸ List.mem_cons_self)
  obtain ⟨hgrows, hstored, hres⟩ := hrun.sound h.stored hstmt
    (fun userId groupId he => hpub userId groupId rest (he ▸ hsent))
  refine
    { stored := hstored
      client := h.client
      page := h.page
      shown := fun groupId group hg => ?shown
      own := fun groupId hg => hgrows.members _ _ (h.own groupId hg)
      channel := fun packet hm => (h.channel packet hm).mono hgrows
      sent := fun w' stmt' hm => ?sent
      results := fun w' res' hm => ?results }
  case shown =>
    obtain ⟨hid, hids, hdivs⟩ := h.shown groupId group hg
    exact ⟨hid, fun id hm => hgrows.members _ _ (hids id hm), fun div hd => hgrows.members _ _ (hdivs div hd)⟩
  case sent =>
    rcases mem_update hm with ⟨rfl, hr⟩ | hm
    · exact (h.sent w' stmt' (hsent ▸ List.mem_cons_of_mem _ hr)).mono hgrows
    · exact (h.sent w' stmt' hm).mono hgrows
  case results =>
    rcases mem_update hm with ⟨rfl, hm⟩ | hm
    · rcases List.mem_append.mp hm with hm | hm
      · exact (h.results w' res' hm).mono hgrows
      · exact List.mem_singleton.mp hm ▸ hres
    · exact (h.results w' res' hm).mono hgrows

theorem Safe.step (h : Safe me s) {a : Action W} (hs : KeptStep me s a t) : Safe me t := by
  obtain ⟨hpub, hs⟩ := hs
  cases hs with
  | select groupId =>
      rw [exec_select h.page]
      exact
        { h with
          client := ClientMembers.plain.select h.client groupId
          page := Extends.loggedIn (Extends.select s.app groupId) h.page
          shown := shownPlain.select h.shown groupId
          own := fun groupId' hg => h.own groupId' (listOf_select s.app groupId ▸ hg) }
  | scroll groupId =>
      rw [exec_scroll h.page]
      exact
        { h with
          client := ClientMembers.plain.scroll h.client groupId
          page := Extends.loggedIn (Extends.scroll s.app groupId) h.page
          shown := shownPlain.scroll h.shown groupId
          own := fun groupId' hg => h.own groupId' (listOf_scroll s.app groupId ▸ hg) }
  | deliver hc => exact h.deliver hc
  | @serve r w online _ _ =>
      have hserved : Safe me { s with handled := s.handled + 1 } := { h with }
      have hr : (∀ packet ∈ (handler online r).packets, PacketSound s.store me packet) ∧
          ∀ stmt ∈ (handler online r).stmts, StmtSound s.store stmt := handler_sound online r
      exact hserved.emit w hr.1 hr.2
  | command w hw =>
      refine h.emit w nofun (fun stmt hm => ?_)
      obtain rfl := List.mem_singleton.mp hm
      exact sound_of_others hw
  | execute hsent hrun => exact h.execute hsent hrun hpub
  | @result w res rest hr =>
      have hres : ResultSound s.store me res := h.results w res (hr ▸ List.mem_cons_self)
      have htaken : Safe me { s with results := Function.update s.results w rest } :=
        { h with
          results := fun w' res' hm => by
            rcases mem_update hm with ⟨rfl, hrest⟩ | hm
            · exact h.results w' res' (hr ▸ List.mem_cons_of_mem _ hrest)
            · exact h.results w' res' hm }
      exact htaken.emit w (callback_sound hres).1 (callback_sound hres).2
  | @packet packet hn =>
      refine { h with channel := fun packet' hm => ?_ }
      rcases List.mem_append.mp hm with hm | hm
      · exact h.channel packet' hm
      · obtain rfl := List.mem_singleton.mp hm
        exact hn.sound

theorem reachable_safe (h : Reachable (Initial me) (KeptStep me) s) : Safe me s :=
  h.invariant (fun _ hi => .initial hi) (fun _ _ _ hi hs => hi.step hs)

end ChityChat.MemberSync
