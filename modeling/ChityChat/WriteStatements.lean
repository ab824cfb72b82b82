import ChityChat.DbResult
import ChityChat.Schema

namespace ChityChat.WriteStatements

open JsonC DbResult Schema

/-- The tables with the next values of their `SERIAL` columns. -/
structure Store extends Database where
  userSeq : Nat
  groupSeq : Nat
  msgSeq : Nat

/-- Identifiers come from the sequences, which end with the `int` type. -/
structure Stored (s : Store) : Prop where
  valid : Valid s.toDatabase
  users : ∀ u ∈ s.users, 0 < u.userId ∧ u.userId < s.userSeq
  groups : ∀ g ∈ s.groups, 0 < g.groupId ∧ g.groupId < s.groupSeq
  messages : ∀ m ∈ s.messages, 0 < m.msgId ∧ m.msgId < s.msgSeq
  ints : s.userSeq ≤ 2 ^ 31 ∧ s.groupSeq ≤ 2 ^ 31 ∧ s.msgSeq ≤ 2 ^ 31

def varchar8 (s : String) : String := (s.take 8).toString

/-- The statements that the server sends. `other` is any that only
reads, or changes user files or a user's own columns. -/
inductive Stmt
  | selectOwner (groupId : Nat)
  | insertGroup (name : String) (ownerId : Nat) (isPublic : Bool)
  | joinPubGroup (userId groupId : Nat)
  | insertGroupmemberCode (userId : Nat) (inviteCode : String)
  | createGroupCode (groupId : Nat) (maxUses : Int) (userId : Nat)
  | deleteGroupCode (inviteCode : String) (userId : Nat)
  | insertMsg (userId groupId : Nat) (content : String) (attachments : JsonObject)
  | deleteMsg (msgId userId : Nat)
  | insertUser (username displayname : String)
  | begin
  | getAllAttachs (groupId : Nat)
  | selectMemberIds (groupId : Nat)
  | delGroupMsg (groupId : Nat)
  | delGroupMembers (groupId : Nat)
  | delGroupCodes (groupId : Nat)
  | delGroup (groupId : Nat)
  | commit
  | other

variable (s : Store) (now code : String)

def selectOwner (groupId : Nat) : List (List (Option Value)) :=
  (s.groups.filter (fun g => g.groupId = groupId)).map
    (fun g => [g.ownerId.map (fun (id : Nat) => Value.int id)])

/-- The trigger `insert_owner_group_member` adds the owner. -/
def insertGroup (name : String) (ownerId : Nat) (isPublic : Bool) : Store :=
  { s with
    groups := s.groups ++ [⟨s.groupSeq, some ownerId, name, none, some isPublic, some now⟩]
    members := s.members ++ [⟨ownerId, s.groupSeq⟩]
    groupSeq := s.groupSeq + 1 }

def joinPubGroup (userId groupId : Nat) : Store :=
  { s with
    members := s.members ++
      (s.groups.filter (fun g => g.groupId = groupId ∧ g.isPublic = some true)).map
        (fun _ => ⟨userId, groupId⟩) }

def deleteGroupcodeIfOverMax (codes : List CodeRow) : List CodeRow :=
  codes.filter (fun c => ¬ (c.maxUses ≠ -1 ∧ ∃ uses ∈ c.uses, c.maxUses ≤ uses))

def useCode (inviteCode : String) (c : CodeRow) : CodeRow :=
  if c.inviteCode = inviteCode then { c with uses := c.uses.map (· + 1) } else c

/-- Without such a code the group to join is NULL, which the primary key does not allow. -/
def insertGroupmemberCode (userId : Nat) (inviteCode : String) : Option Store :=
  match s.codes.find? (fun c => c.inviteCode = varchar8 inviteCode) with
  | none => none
  | some gc => some { s with
      members := s.members ++ [⟨userId, gc.groupId⟩]
      codes := if s.groups.any (fun g => g.groupId = gc.groupId)
        then deleteGroupcodeIfOverMax (s.codes.map (useCode gc.inviteCode)) else s.codes }

def createGroupCode (groupId : Nat) (maxUses : Int) (userId : Nat) : Store :=
  { s with
    codes := s.codes ++ (s.members.filter (fun gm => gm.groupId = groupId ∧ gm.userId = userId)).map
      (fun _ => ⟨code, groupId, some 0, maxUses⟩) }

def deleteGroupCode (inviteCode : String) (userId : Nat) : Store :=
  { s with
    codes := s.codes.filter (fun gc => ¬ (gc.inviteCode = varchar8 inviteCode ∧
      ∃ gm ∈ s.members, gc.groupId = gm.groupId ∧ gm.userId = userId)) }

def insertMsg (userId groupId : Nat) (content : String) (attachments : JsonObject) : Store :=
  { s with
    messages := s.messages ++
      [⟨s.msgSeq, some userId, some groupId, some content, some now, some attachments, none⟩]
    msgSeq := s.msgSeq + 1 }

def MayDelete (msgId userId : Nat) (m : MessageRow) : Prop :=
  m.msgId = msgId ∧ ∃ g ∈ s.groups, m.groupId = some g.groupId ∧
    (m.userId = some userId ∨ g.ownerId = some userId)

instance (msgId userId : Nat) (m : MessageRow) : Decidable (MayDelete s msgId userId m) :=
  inferInstanceAs (Decidable (_ ∧ _))

def deleteMsg (msgId userId : Nat) : Store :=
  { s with messages := s.messages.filter (fun m => ¬ MayDelete s msgId userId m) }

def insertUser (username displayname : String) : Store :=
  { s with
    users := s.users ++ [⟨s.userSeq, username.toLower, displayname, none, some now, none⟩]
    userSeq := s.userSeq + 1 }

def getAllAttachs (groupId : Nat) : List (List (Option Value)) :=
  s.messages.filterMap (fun m =>
    match m.attachments with
    | some (.array (a :: as)) =>
        if m.groupId = some groupId then some [some (.json (.array (a :: as)))] else none
    | _ => none)

def selectMemberIds (groupId : Nat) : List (List (Option Value)) :=
  (s.members.filter (fun gm => gm.groupId = groupId)).map (fun gm => [some (.int gm.userId)])

/-- A statement on its own: the next store, if no constraint is violated, and the result. -/
def Stmt.run (s : Store) (now code : String) :
    Stmt → Option (Store × ExecStatusType × List (List (Option Value)))
  | selectOwner groupId => some (s, .tuplesOk, WriteStatements.selectOwner s groupId)
  | insertGroup name ownerId isPublic =>
      some (WriteStatements.insertGroup s now name ownerId isPublic, .tuplesOk,
        [[some (.int s.groupSeq)]])
  | joinPubGroup userId groupId =>
      some (WriteStatements.joinPubGroup s userId groupId, .commandOk, [])
  | insertGroupmemberCode userId inviteCode =>
      (WriteStatements.insertGroupmemberCode s userId inviteCode).map (fun s' =>
        (s', .tuplesOk, (s.codes.find? (fun c => c.inviteCode = varchar8 inviteCode)).toList.map
          (fun gc => [some (.int gc.groupId)])))
  | createGroupCode groupId maxUses userId =>
      some (WriteStatements.createGroupCode s code groupId maxUses userId, .tuplesOk,
        (s.members.filter (fun gm => gm.groupId = groupId ∧ gm.userId = userId)).map
          (fun _ => [some (.text code)]))
  | deleteGroupCode inviteCode userId =>
      some (WriteStatements.deleteGroupCode s inviteCode userId, .commandOk, [])
  | insertMsg userId groupId content attachments =>
      some (WriteStatements.insertMsg s now userId groupId content attachments, .tuplesOk,
        [[some (.int s.msgSeq), some (.text now)]])
  | deleteMsg msgId userId =>
      some (WriteStatements.deleteMsg s msgId userId, .tuplesOk,
        (s.messages.filter (fun m => MayDelete s msgId userId m)).map
        (fun m => [m.groupId.map (fun (id : Nat) => Value.int id), m.attachments.map .json]))
  | insertUser username displayname =>
      some (WriteStatements.insertUser s now username displayname, .tuplesOk,
        [[some (.int s.userSeq)]])
  | getAllAttachs groupId => some (s, .tuplesOk, WriteStatements.getAllAttachs s groupId)
  | selectMemberIds groupId => some (s, .tuplesOk, WriteStatements.selectMemberIds s groupId)
  | _ => none

/-- An open transaction: the rows that it has deleted, messages and codes with their group. -/
structure Tx where
  failed : Bool
  msgs : List (Nat × Nat)
  members : List MemberRow
  codes : List (String × Nat)
  groups : List Nat

def Tx.empty : Tx := ⟨false, [], [], [], []⟩

/-- What the transaction sees, and what it leaves when it commits. -/
def Tx.view (t : Tx) (s : Store) : Store :=
  { s with
    groups := s.groups.filter (fun g => g.groupId ∉ t.groups)
    members := s.members.filter (fun m => m ∉ t.members)
    messages := s.messages.filter (fun m => ¬ ∃ p ∈ t.msgs, m.msgId = p.1 ∧ m.groupId = some p.2)
    codes := s.codes.filter (fun c => (c.inviteCode, c.groupId) ∉ t.codes) }

def Tx.run (t : Tx) (s : Store) : Stmt → Option (Tx × ExecStatusType × List (List (Option Value)))
  | .getAllAttachs groupId => some (t, .tuplesOk, getAllAttachs (t.view s) groupId)
  | .selectMemberIds groupId => some (t, .tuplesOk, selectMemberIds (t.view s) groupId)
  | .delGroupMsg groupId =>
      let rows := (t.view s).messages.filter (fun m => m.groupId = some groupId)
      some ({ t with msgs := t.msgs ++ rows.map (fun m => (m.msgId, groupId)) }, .commandOk, [])
  | .delGroupMembers groupId =>
      let rows := (t.view s).members.filter (fun m => m.groupId = groupId)
      some ({ t with members := t.members ++ rows }, .commandOk, [])
  | .delGroupCodes groupId =>
      let rows := (t.view s).codes.filter (fun c => c.groupId = groupId)
      some ({ t with codes := t.codes ++ rows.map (fun c => (c.inviteCode, groupId)) },
        .commandOk, [])
  | .delGroup groupId => some ({ t with groups := t.groups ++ [groupId] }, .commandOk, [])
  | _ => none

/-- The database executes a statement of a connection, which may be in a transaction. A
statement that violates a constraint fails, and others may too. -/
inductive Execute (handle : Nat) : Store → Option Tx → Stmt → PGresult → Store → Option Tx → Prop
  | run {s s' : Store} {stmt : Stmt} {status : ExecStatusType} {rows : List (List (Option Value))}
      (now code : String)
      (hrun : stmt.run s now code = some (s', status, rows)) (hs : Stored s') :
      Execute handle s none stmt ⟨handle, status, rows⟩ s' none
  | other {s : Store} {res : PGresult} (hres : res.handle = handle)
      (hsync : res.status ≠ .pipelineSync) :
      Execute handle s none .other res s none
  | error {s : Store} {stmt : Stmt} (users groups msgs : Nat) (hstmt : stmt ≠ .begin)
      (hs : Stored { s with
        userSeq := s.userSeq + users, groupSeq := s.groupSeq + groups, msgSeq := s.msgSeq + msgs }) :
      Execute handle s none stmt ⟨handle, .fatalError, []⟩
        { s with
          userSeq := s.userSeq + users, groupSeq := s.groupSeq + groups, msgSeq := s.msgSeq + msgs }
        none
  | begin {s : Store} : Execute handle s none .begin ⟨handle, .commandOk, []⟩ s (some Tx.empty)
  | inside {s : Store} {t t' : Tx} {stmt : Stmt} {status : ExecStatusType}
      {rows : List (List (Option Value))} (hok : t.failed = false)
      (hrun : t.run s stmt = some (t', status, rows)) (hs : Stored (t'.view s)) :
      Execute handle s (some t) stmt ⟨handle, status, rows⟩ s (some t')
  | fail {s : Store} {t : Tx} {stmt : Stmt} (hstmt : stmt ≠ .commit) :
      Execute handle s (some t) stmt ⟨handle, .fatalError, []⟩ s (some { t with failed := true })
  | commit {s : Store} {t : Tx} (hok : t.failed = false) (hs : Stored (t.view s)) :
      Execute handle s (some t) .commit ⟨handle, .commandOk, []⟩ (t.view s) none
  | rollback {s : Store} {t : Tx} :
      Execute handle s (some t) .commit ⟨handle, .commandOk, []⟩ s none

end ChityChat.WriteStatements
