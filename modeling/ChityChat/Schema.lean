import ChityChat.JsonC

namespace ChityChat.Schema

open JsonC

structure UserRow where
  userId : Nat
  username : String
  displayname : String
  bio : Option String
  createdAt : Option String
  pfp : Option String

structure GroupRow where
  groupId : Nat
  ownerId : Option Nat
  name : String
  desc : Option String
  isPublic : Option Bool
  createdAt : Option String

structure MemberRow where
  userId : Nat
  groupId : Nat
  deriving DecidableEq

structure MessageRow where
  msgId : Nat
  userId : Option Nat
  groupId : Option Nat
  content : Option String
  timestamp : Option String
  attachments : Option JsonObject
  parentMsgId : Option Nat

structure CodeRow where
  inviteCode : String
  groupId : Nat
  uses : Option Int
  maxUses : Int
  deriving DecidableEq

/-- The tables, with their rows in the order in which they are scanned. -/
structure Database where
  users : List UserRow
  groups : List GroupRow
  members : List MemberRow
  messages : List MessageRow
  codes : List CodeRow

/-- The constraints of `schema.sql`. A composite foreign key with a NULL in it is not checked. -/
structure Valid (d : Database) : Prop where
  userKey : (d.users.map UserRow.userId).Nodup
  username : (d.users.map UserRow.username).Nodup
  groupKey : (d.groups.map GroupRow.groupId).Nodup
  memberKey : d.members.Nodup
  messageKey : (d.messages.map MessageRow.msgId).Nodup
  codeKey : (d.codes.map CodeRow.inviteCode).Nodup
  owner : ∀ g ∈ d.groups, ∀ u ∈ g.ownerId, u ∈ d.users.map UserRow.userId
  memberUser : ∀ m ∈ d.members, m.userId ∈ d.users.map UserRow.userId
  memberGroup : ∀ m ∈ d.members, m.groupId ∈ d.groups.map GroupRow.groupId
  messageUser : ∀ m ∈ d.messages, ∀ u ∈ m.userId, u ∈ d.users.map UserRow.userId
  messageGroup : ∀ m ∈ d.messages, ∀ g ∈ m.groupId, g ∈ d.groups.map GroupRow.groupId
  messageMember : ∀ m ∈ d.messages, ∀ u ∈ m.userId, ∀ g ∈ m.groupId, ⟨u, g⟩ ∈ d.members
  messageParent : ∀ m ∈ d.messages, ∀ p ∈ m.parentMsgId, p ∈ d.messages.map MessageRow.msgId ∧
    p ≠ m.msgId
  codeGroup : ∀ c ∈ d.codes, c.groupId ∈ d.groups.map GroupRow.groupId

end ChityChat.Schema
