import ChityChat.FixedFields
import ChityChat.GroupMessage

namespace ChityChat.StoredContent

open ByteMemory (Memory read_write_outside read_write_self)
open CString DbResult FixedFields JsonC
open MsgAttachments (Msg dbMessageMax)

variable {content : Bytes} {userId groupId : Nat} {res : PGresult} {attachments : JsonObject}

/-- The fields of `dbmsg_t` that hold text follow its three ids. -/
def contentAt : Nat := 12
def timestampAt : Nat := contentAt + dbMessageMax

/-- The first of the bytes that align `attachments`. Nothing writes to it. -/
def paddingAt : Nat := timestampAt + dbTimestampMax

/-- `dbmsg_t`. `mem` is the struct without its numbers. -/
structure Dbmsg where
  msgId : Nat
  userId : Nat
  groupId : Nat
  mem : Memory UInt8

def calloc : Dbmsg := ⟨0, 0, 0, fun _ => 0⟩

def setMsg (msg : Dbmsg) (userId groupId : Nat) (content : Bytes) : Dbmsg :=
  { msg with userId, groupId, mem := strncpy msg.mem contentAt content dbMessageMax }

def contentString (msg : Dbmsg) : Bytes := stringAt (paddingAt + 1) msg.mem contentAt

def timestampString (msg : Dbmsg) : Bytes := stringAt (paddingAt + 1) msg.mem timestampAt

def insertGroupMsgResult (res : PGresult) (msg : Dbmsg) : Option Dbmsg :=
  if res.status = .tuplesOk then
    let msgId := strtoul (pqGetvalue res 0 0)
    if msgId = 0 then none
    else match pqGetvalue res 0 1 with
      | none => some { msg with msgId }
      | some timestamp => some { msg with
          msgId, mem := strncpy msg.mem timestampAt (columnBytes (some timestamp)) dbTimestampMax }
  else none

def serverMsgToJson (msg : Dbmsg) (attachments : JsonObject) : JsonObject :=
  .object [("cmd", .newString "group_msg"), ("msg_id", .newInt msg.msgId),
    ("group_id", .newInt msg.groupId), ("user_id", .newInt msg.userId),
    ("content", .string (contentString msg)), ("attachments", attachments),
    ("timestamp", .string (timestampString msg))]

def newMsg (userId groupId : Nat) (content : Bytes) : Dbmsg := setMsg calloc userId groupId content

def storedContent (userId groupId : Nat) (content : Bytes) : Bytes :=
  contentString (newMsg userId groupId content)

def groupMsgPacket (res : PGresult) (userId groupId : Nat) (content : Bytes)
    (attachments : JsonObject) : Option JsonObject :=
  (insertGroupMsgResult res (newMsg userId groupId content)).map
    (fun msg => serverMsgToJson msg attachments)

/-- The members are sent the content that is stored. -/
def ShowsStored (res : PGresult) (userId groupId : Nat) (content : Bytes)
    (attachments : JsonObject) : Prop :=
  ∀ json, groupMsgPacket res userId groupId content attachments = some json →
    json.objectGet "content" = .string (storedContent userId groupId content)

def timestampOf (res : PGresult) : Bytes := cstr (columnBytes (pqGetvalue res 0 1))

structure Holds (msg : Dbmsg) (content timestamp : Bytes) : Prop where
  content : ByteMemory.read msg.mem contentAt dbMessageMax = padded dbMessageMax (cstr content)
  timestamp : ByteMemory.read msg.mem timestampAt dbTimestampMax =
    padded dbTimestampMax (cstr timestamp)
  padding : msg.mem paddingAt = 0

theorem newMsg_zero (userId groupId : Nat) (content : Bytes) {i : Nat} (hi : timestampAt ≤ i) :
    (newMsg userId groupId content).mem i = 0 := by
  refine ByteMemory.write_outside _ _ (.inr ?_)
  rw [length_padded]
  exact hi

theorem newMsg_holds (userId groupId : Nat) (content : Bytes) :
    Holds (newMsg userId groupId content) content [] where
  content := read_write_self _ (length_padded _ _)
  timestamp := read_padded (fun i => by
    rw [newMsg_zero _ _ _ (Nat.le_add_right _ _)]
    rfl)
  padding := newMsg_zero _ _ _ (Nat.le_add_right _ _)

theorem insertGroupMsgResult_holds {msg : Dbmsg}
    (h : insertGroupMsgResult res (newMsg userId groupId content) = some msg) :
    Holds msg content (columnBytes (pqGetvalue res 0 1)) := by
  have hnew := newMsg_holds userId groupId content
  rw [insertGroupMsgResult] at h
  split at h
  · dsimp only at h
    split at h
    · cases h
    · cases hvalue : pqGetvalue res 0 1 with
      | none =>
          rw [hvalue] at h
          obtain rfl := Option.some.inj h
          exact ⟨hnew.content, hnew.timestamp, hnew.padding⟩
      | some timestamp =>
          rw [hvalue] at h
          obtain rfl := Option.some.inj h
          refine ⟨?_, read_write_self _ (length_padded _ _), ?_⟩
          · exact (read_write_outside _ (.inl (Nat.le_refl _))).trans hnew.content
          · have hkept : strncpy (newMsg userId groupId content).mem timestampAt
                (columnBytes (some timestamp)) dbTimestampMax paddingAt =
                  (newMsg userId groupId content).mem paddingAt := by
              apply ByteMemory.write_outside
              rw [length_padded]
              exact .inr (Nat.le_refl _)
            exact hkept.trans hnew.padding
  · cases h

theorem Holds.timestampString {msg : Dbmsg} {timestamp : Bytes} (h : Holds msg content timestamp) :
    timestampString msg = (cstr timestamp).take dbTimestampMax := by
  have hend : stringAt (paddingAt + 1) msg.mem (timestampAt + dbTimestampMax) = [] :=
    (stringAt_nil_iff (Nat.lt_succ_self _)).mpr h.padding
  have hroom : timestampAt + dbTimestampMax ≤ paddingAt + 1 := Nat.le_succ _
  rw [StoredContent.timestampString, stringAt_eq h.timestamp (zero_notMem_cstr _) hroom, hend,
    List.append_nil]
  split
  · next hlt => exact (List.take_of_length_le (Nat.le_of_lt hlt)).symm
  · rfl

theorem Holds.contentString {msg : Dbmsg} {timestamp : Bytes} (h : Holds msg content timestamp) :
    contentString msg = if (cstr content).length < dbMessageMax then cstr content
      else (cstr content).take dbMessageMax ++ (cstr timestamp).take dbTimestampMax := by
  have hroom : contentAt + dbMessageMax ≤ paddingAt + 1 := by decide
  rw [StoredContent.contentString, stringAt_eq h.content (zero_notMem_cstr _) hroom,
    ← h.timestampString]
  rfl

theorem storedContent_eq (userId groupId : Nat) (content : Bytes) :
    storedContent userId groupId content = (cstr content).take dbMessageMax := by
  rw [storedContent, (newMsg_holds userId groupId content).contentString]
  split
  · next hlt => exact (List.take_of_length_le (Nat.le_of_lt hlt)).symm
  · exact List.append_nil _

theorem groupMsgPacket_content {json : JsonObject}
    (h : groupMsgPacket res userId groupId content attachments = some json) :
    json.objectGet "content" = .string (if (cstr content).length < dbMessageMax then cstr content
      else (cstr content).take dbMessageMax ++ (timestampOf res).take dbTimestampMax) := by
  obtain ⟨msg, hmsg, rfl⟩ := Option.map_eq_some_iff.mp h
  have hcontent := (insertGroupMsgResult_holds hmsg).contentString
  rw [timestampOf, ← hcontent]
  rfl

theorem groupMsgPacket_isSome_iff (res : PGresult) (userId groupId : Nat) (content : Bytes)
    (attachments : JsonObject) :
    (groupMsgPacket res userId groupId content attachments).isSome ↔
      res.status = .tuplesOk ∧ strtoul (pqGetvalue res 0 0) ≠ 0 := by
  rw [groupMsgPacket, Option.isSome_map, insertGroupMsgResult]
  by_cases hstatus : res.status = .tuplesOk
  · rw [if_pos hstatus, and_iff_right hstatus]
    by_cases hid : strtoul (pqGetvalue res 0 0) = 0
    · simp [hid]
    · simp only [if_neg hid]
      cases pqGetvalue res 0 1 <;> simp [hid]
  · simp [hstatus]

/-- Members see what is stored exactly if the content leaves room for a NUL in its field, unless the
insert fails or its result has no time. -/
theorem groupMsgPacket_shows_iff (res : PGresult) (userId groupId : Nat) (content : Bytes)
    (attachments : JsonObject) : ShowsStored res userId groupId content attachments ↔
      (cstr content).length < dbMessageMax ∨ timestampOf res = [] ∨
        ¬ (res.status = .tuplesOk ∧ strtoul (pqGetvalue res 0 0) ≠ 0) := by
  rw [← groupMsgPacket_isSome_iff res userId groupId content attachments, ShowsStored,
    storedContent_eq]
  constructor
  · intro hshows
    by_contra hbad
    simp only [not_or, not_not] at hbad
    obtain ⟨hlong, htime, hsome⟩ := hbad
    obtain ⟨json, hjson⟩ := Option.isSome_iff_exists.mp hsome
    have hcontent := groupMsgPacket_content hjson
    rw [hshows json hjson, if_neg hlong] at hcontent
    have hnil := List.append_right_eq_self.mp (JsonObject.string.inj hcontent).symm
    rw [List.take_eq_nil_iff] at hnil
    exact htime (hnil.resolve_left (by decide))
  · rintro hgood json hjson
    rw [groupMsgPacket_content hjson]
    split
    · next hlt => rw [List.take_of_length_le (Nat.le_of_lt hlt)]
    · next hlong =>
        rcases hgood with hlt | htime | hnone
        · exact absurd hlt hlong
        · rw [htime, List.take_nil, List.append_nil]
        · exact absurd (by rw [hjson]; rfl) hnone

def insertedNow : PGresult := ⟨0, .tuplesOk, [[some (.int 1), some (.text "now")]]⟩

/-- A content of 4096 bytes is shown with the time behind it. -/
theorem long_content_shows_time : ¬ ∀ (res : PGresult) (userId groupId : Nat) (content : Bytes)
    (attachments : JsonObject), ShowsStored res userId groupId content attachments := by
  intro hall
  have hfull : (List.replicate 4096 97 : Bytes).length = dbMessageMax := List.length_replicate
  have htext : cstr (List.replicate 4096 97) = List.replicate 4096 97 := by
    apply cstr_eq_self
    rw [List.mem_replicate]
    exact fun h => absurd h.2 (by decide)
  have hsome : (groupMsgPacket insertedNow 1 1 (List.replicate 4096 97) (.array [])).isSome :=
    (groupMsgPacket_isSome_iff ..).mpr (by decide)
  obtain ⟨json, hjson⟩ := Option.isSome_iff_exists.mp hsome
  have hcontent := groupMsgPacket_content hjson
  have hroom : ¬ (List.replicate 4096 97 : Bytes).length < dbMessageMax :=
    Nat.not_lt.mpr (Nat.le_of_eq hfull.symm)
  rw [hall _ _ _ _ _ json hjson, storedContent_eq, htext, if_neg hroom] at hcontent
  have hnil := List.append_right_eq_self.mp (JsonObject.string.inj hcontent).symm
  have htime : (timestampOf insertedNow).take dbTimestampMax ≠ [] := by decide +kernel
  exact htime hnil

end ChityChat.StoredContent
