import Mathlib.Data.List.Basic
import Mathlib.Logic.Function.Basic

namespace ChityChat.WebClient

/-- JavaScript's `!x` for a string that may be missing. -/
def falsy : Option String → Bool
  | none => true
  | some s => s.isEmpty

structure User where
  id : Int
  username : String
  displayname : String
  bio : String
  createdAt : String
  status : String
  pfpName : String
  deriving DecidableEq

structure UserInfo where
  userId : Int
  username : String
  displayname : String
  bio : String
  createdAt : String
  pfpName : Option String
  status : Option String

def User.new (info : UserInfo) : User where
  id := info.userId
  username := info.username
  displayname := info.displayname
  bio := info.bio
  createdAt := info.createdAt
  status := if falsy info.status then "offline" else info.status.getD ""
  pfpName := if falsy info.pfpName then "default.jpg" else info.pfpName.getD ""

def pfpUrl (pfpName : String) : String := "/upload/imgs/" ++ pfpName

structure DivMember where
  memberId : Int
  name : String
  img : String
  status : String

structure Attachment where
  type : String
  hash : String
  name : String

structure Msg where
  msgId : Int
  userId : Int
  content : String
  timestamp : String
  attachments : List Attachment

/-- What `add_msg` reads of its user: a known one, or what stands in for an unknown one. -/
structure MsgUser where
  id : Option Int
  displayname : String
  pfpUrl : Option String

structure DivMsg where
  msgUserId : Option Int
  msgId : Int
  img : Option String
  displayname : String
  timestamp : String
  content : String
  deleteButton : Bool
  images : List (String × String)

/-- A `Group`. `serial` tells the objects apart that are made for one id. -/
structure Group where
  id : Int
  ownerId : Int
  name : String
  desc : String
  serial : Nat
  membersId : List Int
  members : List Int
  messages : List Int
  msgOffset : Nat
  divMembers : List DivMember
  divMsgs : List DivMsg

structure GroupInfo where
  groupId : Int
  ownerId : Int
  name : String
  desc : String

inductive Request
  | clientUserInfo
  | clientGroups
  | getUser (userIds : List Int)
  | getMemberIds (groupId : Int)
  | getGroupMsgs (groupId : Int) (limit offset : Nat)
  deriving DecidableEq

/-- The `App`. `leftPage` is set when the page goes to "/login". -/
structure App where
  groups : Int → Option Group
  users : Int → Option User
  clientUser : Option Int
  currentGroup : Option (Int × Nat)
  loggedIn : Bool
  leftPage : Bool
  /-- `group_id` of the URL and of the local storage. -/
  urlGroup : Option Int
  storedGroup : Option Int
  made : Nat
  /-- The groups whose `div_list` has been removed from the list of groups. -/
  delisted : List Nat
  sent : List Request

def App.wsSend (app : App) (r : Request) : App := { app with sent := app.sent ++ [r] }

def App.setUser (app : App) (user : User) : App :=
  { app with users := Function.update app.users user.id (some user) }

def App.setGroup (app : App) (groupId : Int) (group : Group) : App :=
  { app with groups := Function.update app.groups groupId (some group) }

def App.eachGroup (app : App) (f : Group → Group) : App :=
  { app with groups := fun groupId => (app.groups groupId).map f }

def Group.addMember (group : Group) (member : User) : Group :=
  { group with
    divMembers := group.divMembers ++
      [⟨member.id, member.displayname, pfpUrl member.pfpName, member.status⟩]
    members := group.members ++ [member.id] }

def images (attachments : List Attachment) : List (String × String) :=
  (attachments.filter (fun attch => attch.type.startsWith "image/")).map
    (fun attch => ("/upload/imgs/" ++ attch.hash, attch.name))

def Group.addMsg (group : Group) (clientUser : Int) (user : MsgUser) (msg : Msg) (insert : Bool) :
    Group :=
  let div : DivMsg :=
    ⟨user.id, msg.msgId, user.pfpUrl, user.displayname, msg.timestamp, msg.content,
      decide (group.ownerId = clientUser ∨ msg.userId = clientUser), images msg.attachments⟩
  { group with
    divMsgs := if insert then div :: group.divMsgs else group.divMsgs ++ [div]
    messages := group.messages ++ [msg.msgId] }

/-- `querySelector`: only the first element that matches is changed. -/
def modifyFirst {α : Type} (p : α → Bool) (f : α → α) : List α → List α
  | [] => []
  | a :: as => if p a then f a :: as else a :: modifyFirst p f as

def Group.modifyMember (group : Group) (userId : Int) (f : DivMember → DivMember) : Group :=
  { group with divMembers := modifyFirst (fun div => div.memberId = userId) f group.divMembers }

/-- `querySelectorAll` for the messages of a user. -/
def Group.modifyMsgs (group : Group) (userId : Int) (f : DivMsg → DivMsg) : Group :=
  { group with
    divMsgs := group.divMsgs.map (fun div => if div.msgUserId = some userId then f div else div) }

def DivMsg.show (user : User) (div : DivMsg) : DivMsg :=
  { div with displayname := user.displayname, img := some (pfpUrl user.pfpName) }

def limit : Nat := 15

def App.getMsgs (app : App) (groupId : Int) (group : Group) : App :=
  (app.setGroup groupId { group with msgOffset := group.msgOffset + limit }).wsSend
    (.getGroupMsgs group.id limit group.msgOffset)

def App.select (app : App) (groupId : Int) : App :=
  match app.groups groupId with
  | none => app
  | some group =>
      let app := if group.membersId.isEmpty then app.wsSend (.getMemberIds group.id) else app
      let app := if group.messages.isEmpty then app.getMsgs groupId group else app
      { app with currentGroup := some (group.id, group.serial), storedGroup := some group.id }

/-- `get_scroll_messages` where the container is scrolled to the top. -/
def App.scroll (app : App) (groupId : Int) : App :=
  match app.groups groupId with
  | none => app
  | some group => app.getMsgs groupId group

def cmdSession (app : App) : App :=
  ({ app with loggedIn := true }.wsSend .clientUserInfo).wsSend .clientGroups

def clientUserInfo (app : App) (info : UserInfo) : App :=
  { app.setUser (User.new info) with clientUser := some info.userId }

def Group.new (info : GroupInfo) (serial : Nat) : Group :=
  ⟨info.groupId, info.ownerId, info.name, info.desc, serial, [], [], [], 0, [], []⟩

def App.addGroup (app : App) (info : GroupInfo) : App :=
  { app.setGroup info.groupId (Group.new info app.made) with made := app.made + 1 }

/-- The variables of the loop of `client_groups`. The ids 0 and NaN of `param_group_id` count as
none. -/
structure Groups where
  app : App
  param : Option Int
  selected : Bool

def clientGroup (len : Nat) (s : Groups) (info : GroupInfo) : Groups :=
  let app := s.app.addGroup info
  let param := if s.param.isNone then app.storedGroup else s.param
  if len = 1 ∨ param = some info.groupId then ⟨app.select info.groupId, param, true⟩
  else ⟨app, param, s.selected⟩

def clientGroups (app : App) (groups : List GroupInfo) : App :=
  let s := groups.foldl (clientGroup groups.length) ⟨app, app.urlGroup, false⟩
  if s.selected then s.app else { s.app with storedGroup := none }

def Group.resolve (newUser : User) (group : Group) : Group :=
  let group := if newUser.id ∈ group.membersId
    then (group.addMember newUser).modifyMsgs newUser.id (DivMsg.show newUser) else group
  group.modifyMsgs newUser.id (DivMsg.show newUser)

def getUser (app : App) (users : List UserInfo) : App :=
  users.foldl (fun app info =>
    (app.setUser (User.new info)).eachGroup (Group.resolve (User.new info))) app

def addKnown (app : App) (group : Group) (userIds : List Int) : Group :=
  userIds.foldl (fun group userId =>
    match app.users userId with
    | some user => group.addMember user
    | none => group) group

def getMemberIds (app : App) (groupId : Int) (memberIds : List Int) : App :=
  match app.groups groupId with
  | none => app
  | some group =>
      let app := app.setGroup groupId (addKnown app { group with membersId := memberIds } memberIds)
      let unknown := memberIds.filter (fun userId => (app.users userId).isNone)
      if unknown.isEmpty then app else app.wsSend (.getUser unknown)

def joinGroup (app : App) (groupId userId : Int) : App :=
  match app.groups groupId with
  | none => app
  | some group =>
      let group := { group with membersId := group.membersId ++ [userId] }
      match app.users userId with
      | none => (app.setGroup groupId group).wsSend (.getUser [userId])
      | some user => app.setGroup groupId (group.addMember user)

def msgUserOf (user : User) : MsgUser := ⟨some user.id, user.displayname, some (pfpUrl user.pfpName)⟩

/-- An unknown sender is shown without an id: nothing resolves its name later. -/
def groupMsg (app : App) (groupId : Int) (msg : Msg) : App :=
  match app.groups groupId, app.clientUser with
  | some group, some clientUser =>
      let user := match app.users msg.userId with
        | some user => msgUserOf user
        | none => ⟨none, "[object Undefined]", none⟩
      app.setGroup groupId (group.addMsg clientUser user msg false)
  | _, _ => app

def getGroupMsgs (app : App) (groupId : Int) (msgs : List Msg) : App :=
  match app.groups groupId, app.clientUser with
  | some group, some clientUser =>
      app.setGroup groupId (msgs.foldl (fun group msg =>
        let user := match app.users msg.userId with
          | some user => msgUserOf user
          | none => ⟨some msg.userId, "", none⟩
        group.addMsg clientUser user msg true) group)
  | _, _ => app

def deleteMsg (app : App) (groupId msgId : Int) : App :=
  match app.groups groupId with
  | none => app
  | some group =>
      app.setGroup groupId { group with divMsgs := group.divMsgs.eraseP (fun div => div.msgId = msgId) }

def setStatus (app : App) (user : User) (status : String) : App :=
  (app.setUser { user with status := status }).eachGroup
    (fun group => group.modifyMember user.id (fun div => { div with status := status }))

/-- `update_pfp` with its second argument set. It throws before `client_user` is there. -/
def updatePfp (app : App) (user : User) (pfpName : String) : App :=
  let app := app.setUser { user with pfpName := pfpName }
  match app.clientUser with
  | none => app
  | some _ =>
      app.eachGroup (fun group =>
        (group.modifyMember user.id (fun div => { div with img := pfpUrl pfpName })).modifyMsgs user.id
          (fun div => { div with img := some (pfpUrl pfpName) }))

def rtusm (app : App) (userId : Int) (status pfpName : Option String) : App :=
  match app.users userId with
  | none => app
  | some user =>
      let status' := if falsy status then user.status else status.getD ""
      let app := if falsy status then app else setStatus app user status'
      if falsy pfpName then app
      else updatePfp app { user with status := status' } (pfpName.getD "")

/-- `removeChild` throws for a group that is not in the list any more. Without a current group the handler
throws behind it. Either way the group stays. -/
def deleteGroup (app : App) (groupId : Int) : App :=
  match app.groups groupId with
  | none => app
  | some group =>
      if group.serial ∈ app.delisted then app
      else
        let app := { app with delisted := app.delisted ++ [group.serial] }
        match app.currentGroup with
        | none => app
        | some (currentId, serial) =>
            let app := if currentId = group.id ∧ serial = group.serial
              then { app with currentGroup := none } else app
            { app with groups := Function.update app.groups groupId none }

/-- The owners that `get_all_groups` asks for, in the order of the groups. -/
def getAllGroups (app : App) (groups : List GroupInfo) : App :=
  let requested := groups.foldl (fun requested group =>
    if (app.users group.ownerId).isNone ∧ group.ownerId ∉ requested then requested ++ [group.ownerId]
    else requested) []
  app.wsSend (.getUser requested)

inductive Packet
  | session
  | clientUserInfo (info : UserInfo)
  | clientGroups (groups : List GroupInfo)
  | getMemberIds (groupId : Int) (memberIds : List Int)
  | getUser (users : List UserInfo)
  | getAllGroups (groups : List GroupInfo)
  | groupMsg (groupId : Int) (msg : Msg)
  | getGroupMsgs (groupId : Int) (msgs : List Msg)
  | joinGroup (groupId userId : Int)
  | deleteMsg (groupId msgId : Int)
  | rtusm (userId : Int) (status pfpName : Option String)
  | deleteGroup (groupId : Int)
  /-- Packets that change no group and no user: uploads, invite codes, errors. -/
  | other

/-- The packets that change users, or more of groups than which there are. -/
def Packet.changes : Packet → Bool
  | .session | .clientGroups _ | .getAllGroups _ | .other => false
  | _ => true

def handlePacket (app : App) : Packet → App
  | .session => cmdSession app
  | .clientUserInfo info => clientUserInfo app info
  | .clientGroups groups => clientGroups app groups
  | .getMemberIds groupId memberIds => getMemberIds app groupId memberIds
  | .getUser users => getUser app users
  | .getAllGroups groups => getAllGroups app groups
  | .groupMsg groupId msg => groupMsg app groupId msg
  | .getGroupMsgs groupId msgs => getGroupMsgs app groupId msgs
  | .joinGroup groupId userId => joinGroup app groupId userId
  | .deleteMsg groupId msgId => deleteMsg app groupId msgId
  | .rtusm userId status pfpName => rtusm app userId status pfpName
  | .deleteGroup groupId => deleteGroup app groupId
  | .other => app

def handleLogin (app : App) : Packet → App
  | .session => cmdSession app
  | _ => { app with leftPage := true }

def handlePacketState (app : App) (packet : Packet) : App :=
  if app.leftPage then app
  else if app.loggedIn then handlePacket app packet else handleLogin app packet

inductive Event
  | packet (packet : Packet)
  | select (groupId : Int)
  | scroll (groupId : Int)
  | close

def App.exec (app : App) : Event → App
  | .packet packet => handlePacketState app packet
  | .select groupId => if app.leftPage then app else app.select groupId
  | .scroll groupId => if app.leftPage then app else app.scroll groupId
  | .close => { app with loggedIn := false }

def App.start (urlGroup storedGroup : Option Int) : App where
  groups _ := none
  users _ := none
  clientUser := none
  currentGroup := none
  loggedIn := false
  leftPage := false
  urlGroup := urlGroup
  storedGroup := storedGroup
  made := 0
  delisted := []
  sent := []

def Starts (app : App) : Prop := ∃ urlGroup storedGroup, app = App.start urlGroup storedGroup

def Keyed (app : App) : Prop := ∀ id user, app.users id = some user → user.id = id

theorem Keyed.setUser {app : App} (h : Keyed app) (user : User) : Keyed (app.setUser user) := by
  intro id user' hu
  by_cases he : id = user.id
  · subst he
    simp only [App.setUser, Function.update_self, Option.some.injEq] at hu
    rw [hu]
  · simp only [App.setUser, Function.update_of_ne he] at hu
    exact h id user' hu

theorem setGroup_cases {app : App} {groupId groupId' : Int} {group group' : Group}
    (h : (app.setGroup groupId group).groups groupId' = some group') :
    group' = group ∨ app.groups groupId' = some group' := by
  by_cases he : groupId' = groupId
  · subst he
    simp only [App.setGroup, Function.update_self, Option.some.injEq] at h
    exact .inl h.symm
  · simp only [App.setGroup, Function.update_of_ne he] at h
    exact .inr h

theorem deleteGroup_frame (app : App) (groupId : Int) :
    (deleteGroup app groupId).users = app.users ∧ (deleteGroup app groupId).sent = app.sent ∧
      (deleteGroup app groupId).clientUser = app.clientUser ∧
      ∀ groupId' group', (deleteGroup app groupId).groups groupId' = some group' →
        app.groups groupId' = some group' := by
  have hgroups : ∀ groupId' group', Function.update app.groups groupId none groupId' = some group' →
      app.groups groupId' = some group' := by
    intro groupId' group' hg
    have hne : groupId' ≠ groupId := by
      rintro rfl
      rw [Function.update_self] at hg
      cases hg
    rwa [Function.update_of_ne hne] at hg
  rw [deleteGroup]
  split
  · exact ⟨rfl, rfl, rfl, fun _ _ hg => hg⟩
  · split
    · exact ⟨rfl, rfl, rfl, fun _ _ hg => hg⟩
    · dsimp only
      split
      · exact ⟨rfl, rfl, rfl, fun _ _ hg => hg⟩
      · split <;> exact ⟨rfl, rfl, rfl, hgroups⟩

/-- An invariant of the groups, the users, the client's user and the requests: it does not look at
the offset of a group, more requests do not hurt it, and it holds of a new group. -/
structure Plain (I : App → Prop) : Prop where
  send : ∀ {app : App} (r : Request), I app → I (app.wsSend r)
  offset : ∀ {app : App} {groupId : Int} {group : Group} (n : Nat), I app →
    app.groups groupId = some group → I (app.setGroup groupId { group with msgOffset := n })
  view : ∀ {app app' : App}, I app → app'.groups = app.groups → app'.users = app.users →
    app'.clientUser = app.clientUser → app'.sent = app.sent → I app'
  new : ∀ {app : App} (info : GroupInfo), I app → I (app.addGroup info)

namespace Plain

variable {I : App → Prop} {app : App}

theorem getMsgs (hI : Plain I) (h : I app) {groupId : Int} {group : Group}
    (hg : app.groups groupId = some group) : I (app.getMsgs groupId group) :=
  hI.send _ (hI.offset _ h hg)

theorem select (hI : Plain I) (h : I app) (groupId : Int) : I (app.select groupId) := by
  rw [App.select]
  cases hg : app.groups groupId with
  | none => exact h
  | some group =>
      have hids : ∀ app' : App, app' = app ∨ app' = app.wsSend (.getMemberIds group.id) →
          I app' ∧ app'.groups groupId = some group := by
        rintro app' (rfl | rfl)
        · exact ⟨h, hg⟩
        · exact ⟨hI.send _ h, hg⟩
      simp only
      split <;> split
      · obtain ⟨hi, hg'⟩ := hids _ (.inr rfl)
        exact hI.view (hI.getMsgs hi hg') rfl rfl rfl rfl
      · exact hI.view (hI.getMsgs h hg) rfl rfl rfl rfl
      · exact hI.view (hI.send _ h) rfl rfl rfl rfl
      · exact hI.view h rfl rfl rfl rfl

theorem scroll (hI : Plain I) (h : I app) (groupId : Int) : I (app.scroll groupId) := by
  rw [App.scroll]
  cases hg : app.groups groupId with
  | none => exact h
  | some group => exact hI.getMsgs h hg

theorem clientGroup (hI : Plain I) {s : Groups} (h : I s.app) (len : Nat) (info : GroupInfo) :
    I (clientGroup len s info).app := by
  have hstep : ∀ param : Option Int, I (if len = 1 ∨ param = some info.groupId
      then (⟨(s.app.addGroup info).select info.groupId, param, true⟩ : Groups)
      else ⟨s.app.addGroup info, param, s.selected⟩).app := by
    intro param
    split
    · exact hI.select (hI.new info h) _
    · exact hI.new info h
  exact hstep _

theorem clientGroups (hI : Plain I) (h : I app) (groups : List GroupInfo) :
    I (clientGroups app groups) := by
  have hfold : ∀ (groups : List GroupInfo) (len : Nat) (s : Groups), I s.app →
      I (groups.foldl (WebClient.clientGroup len) s).app := by
    intro groups
    induction groups with
    | nil => exact fun _ _ hs => hs
    | cons info groups ih => exact fun len s hs => ih len _ (hI.clientGroup hs len info)
  have hall := hfold groups groups.length ⟨app, app.urlGroup, false⟩ h
  rw [WebClient.clientGroups]
  simp only
  split
  · exact hall
  · exact hI.view hall rfl rfl rfl rfl

theorem cmdSession (hI : Plain I) (h : I app) : I (cmdSession app) :=
  hI.send _ (hI.send _ (hI.view h rfl rfl rfl rfl))

theorem getAllGroups (hI : Plain I) (h : I app) (groups : List GroupInfo) :
    I (getAllGroups app groups) :=
  hI.send _ h

/-- It is enough to look at the packets that change users or the contents of groups. -/
theorem exec (hI : Plain I) {e : Event} (h : I app)
    (hpacket : ∀ packet, e = .packet packet → packet.changes = true → I (handlePacket app packet)) :
    I (app.exec e) := by
  cases e with
  | select groupId =>
      simp only [App.exec]
      split
      · exact h
      · exact hI.select h groupId
  | scroll groupId =>
      simp only [App.exec]
      split
      · exact h
      · exact hI.scroll h groupId
  | close => exact hI.view h rfl rfl rfl rfl
  | packet packet =>
      have hhandle : I (handlePacket app packet) := by
        have hp := hpacket packet rfl
        cases packet with
        | session => exact hI.cmdSession h
        | clientGroups groups => exact hI.clientGroups h groups
        | getAllGroups groups => exact hI.getAllGroups h groups
        | other => exact h
        | _ => exact hp rfl
      have hlogin : I (handleLogin app packet) := by
        cases packet with
        | session => exact hI.cmdSession h
        | _ => exact hI.view h rfl rfl rfl rfl
      simp only [App.exec, handlePacketState]
      split
      · exact h
      · split
        · exact hhandle
        · exact hlogin

end Plain

end ChityChat.WebClient
