import ChityChat.AttachmentDeletion
import ChityChat.GroupBroadcast
import ChityChat.WriteAuthorisation

namespace ChityChat.GroupDeletion

open JsonC DbResult Schema WriteStatements WriteCommands WriteAuthorised WriteRuns GroupBroadcast
open AttachmentDeletion (Cmd serverDeleteFile serverDeleteAttachmentsJson)
open UnlinkConfinement (attachment gifHash gifLibs gifFile)
open GroupRead (JsonTokener jsonTokenerDefaultDepth plainTokener)
open MsgAttachments (Libs attachFile getString)
open UserFile (DbuserFile)
open WriteAuthorisation (oneUser oneUser_insertGroup_stored)

variable {s s' : Store} {t t' t'' : Tx} {stmt : Stmt} {stmts : List (Stmt × Store)}
  {res : PGresult} {results : List PGresult} {handle groupId : Nat} {userHt : Nat → Option Nat}
  {libs : Libs} {tokener : JsonTokener}

/-- What `delete_group_result` does with an element of its array. A NULL is only warned of, and
`json_object_array_length` asserts an array. -/
def deleteAttachs (libs : Libs) : JsonObject → Option (List (Cmd Nat))
  | .null => some []
  | .array attachments => serverDeleteAttachmentsJson libs attachments
  | _ => none

def attachArray (tokener : JsonTokener) (res : PGresult) : List JsonObject :=
  (List.range (pqNtuples res)).map (fun i => (pqGetvalue res i 0).elim .null tokener.parse)

def answeredCtxs (groupId : Nat) (results : List PGresult) : List (DbcmdCtx Nat) :=
  List.zipWith (fun ctx res => ctx.execRes.run res ctx) (deleteGroupCtxs groupId) results

def deleteGroupPacket (groupId : Nat) : JsonObject :=
  .object [("cmd", .newString "delete_group"), ("group_id", .newInt groupId)]

/-- What `delete_group_result` sends to the database for the files that it releases, and the packets
that it sends. The contexts of the attachments and of the member ids are the second and the third of
the chain. `none` is a crash. -/
def deleteGroupResult (libs : Libs) (tokener : JsonTokener) (userHt : Nat → Option Nat) (groupId : Nat)
    (results : List PGresult) : Option (Except String (List (Cmd Nat) × List Packet)) :=
  if ∃ ctx ∈ answeredCtxs groupId results, ctx.ret = .error then some (.error "Failed to delete group")
  else
    match results with
    | _ :: attachs :: ids :: _ =>
      ((attachArray tokener attachs).mapM (deleteAttachs libs)).map (fun cmds =>
        .ok (cmds.flatten, sendAll (deleteGroupPacket groupId) (recipients id userHt (memberIds ids))))
    | _ => some (.ok ([], []))

/-- The statements of a transaction between `BEGIN` and `COMMIT`, each with the store that other
connections have left when it runs. -/
inductive TxRun : Tx → List (Stmt × Store) → List PGresult → Tx → Prop
  | nil (t : Tx) : TxRun t [] [] t
  | cons {t t' t'' : Tx} {stmt : Stmt} {s : Store} {stmts : List (Stmt × Store)} {handle : Nat}
      {res : PGresult} {results : List PGresult}
      (hexec : Execute handle s (some t) stmt res s (some t'))
      (hrest : TxRun t' stmts results t'') : TxRun t ((stmt, s) :: stmts) (res :: results) t''

def removeGroup (s : Store) (groupId : Nat) : Store :=
  { s with
    groups := s.groups.filter (fun g => g.groupId ≠ groupId)
    members := s.members.filter (fun m => m.groupId ≠ groupId)
    messages := s.messages.filter (fun m => m.groupId ≠ some groupId)
    codes := s.codes.filter (fun c => c.groupId ≠ groupId) }

theorem run_failed {status : ExecStatusType} {rows : List (List (Option Value))}
    (h : t.run s stmt = some (t', status, rows)) : t'.failed = t.failed := by
  cases stmt with
  | getAllAttachs | selectMemberIds | delGroupMsg | delGroupMembers | delGroupCodes | delGroup =>
      obtain ⟨rfl, -⟩ := Prod.mk.inj (Option.some.inj h)
      rfl
  | selectOwner | insertGroup | joinPubGroup | insertGroupmemberCode | createGroupCode
  | deleteGroupCode | insertMsg | deleteMsg | insertUser | begin | commit | other => cases h

theorem inside_cases (h : Execute handle s (some t) stmt res s' (some t')) :
    t.failed = false ∧ t'.failed = false ∧ t.run s stmt = some (t', res.status, res.rows) ∧
      Stored (t'.view s) ∨ res.status = .fatalError ∧ t'.failed = true := by
  cases h with
  | inside hok hrun hs => exact Or.inl ⟨hok, (run_failed hrun).trans hok, hrun, hs⟩
  | fail => exact Or.inr ⟨rfl, rfl⟩

theorem TxRun.stays_failed (h : TxRun t stmts results t') (hf : t.failed = true) :
    t'.failed = true := by
  induction h with
  | nil => exact hf
  | cons hexec _ ih =>
      rcases inside_cases hexec with ⟨hok, -⟩ | ⟨-, hfailed⟩
      · rw [hf] at hok
        cases hok
      · exact ih hfailed

theorem TxRun.length (h : TxRun t stmts results t') : results.length = stmts.length := by
  induction h with
  | nil => rfl
  | cons _ _ ih => rw [List.length_cons, List.length_cons, ih]

theorem TxRun.head (h : TxRun t ((stmt, s) :: stmts) results t'') (hok : t''.failed = false) :
    ∃ res results' t', results = res :: results' ∧
      t.run s stmt = some (t', res.status, res.rows) ∧ Stored (t'.view s) ∧
        TxRun t' stmts results' t'' := by
  cases h with
  | cons hexec hrest =>
      rcases inside_cases hexec with ⟨-, -, hrun, hs⟩ | ⟨-, hfailed⟩
      · exact ⟨_, _, _, rfl, hrun, hs, hrest⟩
      · rw [hrest.stays_failed hfailed] at hok
        cases hok

def messageAttachs (m : MessageRow) : List JsonObject :=
  match m.attachments with
  | some (.array attachments) => attachments
  | _ => []

def groupMessages (s : Store) (groupId : Nat) : List MessageRow :=
  s.messages.filter (fun m => m.groupId = some groupId)

def groupAttachs (s : Store) (groupId : Nat) : List JsonObject :=
  (groupMessages s groupId).flatMap messageAttachs

def Named (attach : JsonObject) : Prop :=
  attach.objectGet "hash" ≠ .null ∧ attach.objectGet "type" ≠ .null ∧ attach.objectGet "name" ≠ .null

/-- Nothing of a group is left. -/
structure Removed (s : Store) (groupId : Nat) : Prop where
  group : groupId ∉ s.groups.map GroupRow.groupId
  members : groupId ∉ s.members.map MemberRow.groupId
  messages : some groupId ∉ s.messages.map MessageRow.groupId
  codes : groupId ∉ s.codes.map CodeRow.groupId

/-- Either all of a group is removed, the files of its attachments are released and the online users
among its members get the packet, or nothing happens and the requester gets an error. -/
structure AllOrNothing (libs : Libs) (tokener : JsonTokener) (userHt : Nat → Option Nat) (groupId : Nat)
    (s₁ s₂ s s' : Store) (results : List PGresult) : Prop where
  outcome : (∃ users files, OnlineMembers s₂ groupId userHt users ∧ s' = removeGroup s groupId ∧
      (groupAttachs s₁ groupId).mapM (attachFile libs) = some files ∧
      deleteGroupResult libs tokener userHt groupId results =
        some (.ok (files.flatMap serverDeleteFile, sendAll (deleteGroupPacket groupId) users))) ∨
    s' = s ∧ deleteGroupResult libs tokener userHt groupId results =
      some (.error "Failed to delete group")
  announced : groupId ∈ s.groups.map GroupRow.groupId →
    ((∃ r, deleteGroupResult libs tokener userHt groupId results = some (.ok r)) ↔ Removed s' groupId)

theorem AllOrNothing.error {s₁ s₂ : Store}
    (h : deleteGroupResult libs tokener userHt groupId results = some (.error "Failed to delete group")) :
    AllOrNothing libs tokener userHt groupId s₁ s₂ s s results where
  outcome := .inr ⟨rfl, h⟩
  announced hg := by
    rw [h]
    constructor
    · rintro ⟨r, hr⟩
      cases hr
    · intro hremoved
      exact absurd hg hremoved.group

end ChityChat.GroupDeletion
