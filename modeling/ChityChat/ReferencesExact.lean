import ChityChat.FileReferences
import Mathlib.Algebra.Order.Group.Multiset
import Mathlib.Tactic.Abel

namespace ChityChat.ReferencesExact

open CString JsonC Transition Counts FileReferences
open UserFile (DbuserFile UserFiles Op insertUserfiles)
open MsgAttachments (Libs Msg Upload Accepted serverGroupMsg serverHandleMsgAttach attachIndexOf
  serverSaveFileImg attachFile serverSha256Str ofBytes getString dbPfpHashMax dbPfpNameMax
  dbMimeTypeLen sha256DigestLength)
open UserFileAgree (Positive update_eq)
open UnlinkConfinement (serverSha256Str_length cstr_serverSha256Str)

variable {C : Type} {libs : Libs} {refs : Multiset String} {hash : String}

theorem counts_positive (refs : Multiset String) : Positive (counts refs) :=
  fun _ _ h => counts_pos h

theorem insertUserfiles_counts (refs : Multiset String) (hash : String) :
    insertUserfiles (counts refs) hash = counts (hash ::ₘ refs) := by
  rw [counts_cons]
  exact update_eq (counts_positive refs) (.saveFileImg ⟨hash, ""⟩)

theorem deleteUserfile_counts (refs : Multiset String) (hash : String) :
    UserFile.deleteUserfile (counts refs) hash = counts (refs.erase hash) := by
  rw [counts_erase]
  exact update_eq (counts_positive refs) (.deleteFile ⟨hash, ""⟩)

theorem mem_pictures {users : List UserRow} :
    hash ∈ pictures users ↔ ∃ row ∈ users, row.pfp = some hash :=
  List.mem_filterMap

theorem deleteUserfile_cons {users : List UserRow} (hash : String) (h : ↑(pictures users) ≤ refs) :
    deleteUserfile users (counts (hash ::ₘ refs)) hash = counts refs := by
  have hkept : users.any (fun row => row.pfp.any (fun hash => (counts refs hash).isNone)) =
      false := by
    rw [List.any_eq_false]
    intro row hrow hany
    rw [Option.any_eq_true] at hany
    obtain ⟨picture, hpfp, hnone⟩ := hany
    rw [Option.isNone_iff_eq_none, counts_eq_none] at hnone
    exact hnone (Multiset.mem_of_le h (Multiset.mem_coe.mpr (mem_pictures.mpr ⟨row, hrow, hpfp⟩)))
  simp only [deleteUserfile, deleteUserfile_counts, Multiset.erase_cons_head, hkept]
  rfl

theorem deleteUserfile_missing {users : List UserRow} (h : hash ∉ refs) :
    deleteUserfile users (counts refs) hash = counts refs := by
  simp only [deleteUserfile, deleteUserfile_counts, Multiset.erase_of_notMem h, ite_self]

theorem foldl_deleteUserfile {users : List UserRow} (h : ↑(pictures users) ≤ refs)
    (files : List DbuserFile) :
    files.foldl (fun rows file => deleteUserfile users rows file.hash)
      (counts ((files.map DbuserFile.hash : Multiset String) + refs)) = counts refs := by
  induction files with
  | nil => rw [List.map_nil, Multiset.coe_nil, zero_add, List.foldl_nil]
  | cons file files ih =>
      rw [List.map_cons, ← Multiset.cons_coe, Multiset.cons_add, List.foldl_cons,
        deleteUserfile_cons _ (h.trans (Multiset.le_add_left _ _)), ih]

def Deletable (libs : Libs) (attach : JsonObject) : Prop :=
  ∃ file, attachFile libs attach = some file ∧ attachHash attach = some file.hash

def Named (attach : JsonObject) : Prop :=
  (∃ name, attach.objectGet "name" = .string name) ∧
    ∃ type, attach.objectGet "type" = .string type

def Hashed (libs : Libs) (attach : JsonObject) : Prop :=
  ∃ data, attach.objectGet "hash" = .string (serverSha256Str libs data)

theorem attachHash_sha {attach : JsonObject} {data : Bytes}
    (h : attach.objectGet "hash" = .string (serverSha256Str libs data)) :
    attachHash attach = some (ofBytes (serverSha256Str libs data)) := by
  rw [attachHash, h]
  exact congrArg (fun hash => some (ofBytes hash)) (cstr_serverSha256Str libs data)

theorem deletable_of_hashed {attach : JsonObject} (hnamed : Named attach)
    (hhashed : Hashed libs attach) : Deletable libs attach := by
  obtain ⟨⟨name, hname⟩, type, htype⟩ := hnamed
  obtain ⟨data, hhash⟩ := hhashed
  have hshort : (serverSha256Str libs data).length < dbPfpHashMax := by
    rw [serverSha256Str_length]
    decide
  refine ⟨⟨ofBytes (serverSha256Str libs data), ofBytes ((cstr type).take dbMimeTypeLen)⟩, ?_,
    attachHash_sha hhash⟩
  rw [attachFile, hhash, htype, hname]
  simp only [getString, cstr_serverSha256Str, Option.bind_eq_bind, Option.bind_some,
    List.take_of_length_le hshort.le, runOn_of_lt hshort]

theorem mapM_deletable {attachments : List JsonObject}
    (h : ∀ attach ∈ attachments, Deletable libs attach) :
    ∃ files, attachments.mapM (attachFile libs) = some files ∧
      files.map DbuserFile.hash = attachments.filterMap attachHash := by
  induction attachments with
  | nil => exact ⟨[], rfl, rfl⟩
  | cons attach attachments ih =>
      rw [List.forall_mem_cons] at h
      obtain ⟨file, hfile, hhash⟩ := h.1
      obtain ⟨files, hfiles, hhashes⟩ := ih h.2
      refine ⟨file :: files, ?_, ?_⟩
      · rw [List.mapM_cons, hfile, hfiles]
        rfl
      · rw [List.map_cons, List.filterMap_cons_some hhash, hhashes]

theorem serverDeleteAttachments_counts {s : State C} {attachments : List JsonObject}
    (h : ∀ attach ∈ attachments, Deletable libs attach)
    (hrows : s.rows = counts ((attachments.filterMap attachHash : Multiset String) + refs))
    (hpictures : ↑(pictures s.users) ≤ refs) :
    serverDeleteAttachments libs s attachments = { s with rows := counts refs } := by
  obtain ⟨files, hfiles, hhashes⟩ := mapM_deletable h
  rw [serverDeleteAttachments, hfiles]
  dsimp only
  rw [hrows, ← hhashes, foldl_deleteUserfile hpictures]

def heldBy : UploadToken → List String
  | .userPfp _ => []
  | .msgAttachment ut uploaded =>
    uploaded.filterMap (fun i => (ut.msg.attachments[i]?).bind attachHash)

def heldHashes (tokens : List (Nat × UploadToken)) : List String :=
  tokens.flatMap (fun t => heldBy t.2)

structure Uploads (libs : Libs) (ut : MsgAttachments.UploadToken) (uploaded : List Nat) : Prop where
  total : ut.total = ut.msg.attachments.length
  current : ut.current = uploaded.length
  small : ut.msg.attachments.length < 2 ^ 32
  nodup : uploaded.Nodup
  named : ∀ attach ∈ ut.msg.attachments, Named attach
  hashed : ∀ i ∈ uploaded, ∃ attach, ut.msg.attachments[i]? = some attach ∧ Hashed libs attach

def TokenKept (libs : Libs) : UploadToken → Prop
  | .userPfp _ => True
  | .msgAttachment ut uploaded => Uploads libs ut uploaded ∧ uploaded.length < ut.total

theorem serverGroupMsg_named {userId : Nat} {payload : JsonObject} {msg : Msg}
    (h : serverGroupMsg userId payload = .ok msg) :
    payload.objectGet "attachments" = .array msg.attachments ∧
      ∀ attach ∈ msg.attachments, Named attach := by
  simp only [serverGroupMsg, bind_ok, Except.ok.injEq] at h
  obtain ⟨groupId, -, content, -, attachments, harray, u, hverify, rfl⟩ := h
  refine ⟨arrayField_ok.mp harray, fun attach hmem => ?_⟩
  obtain ⟨name, hname, hrest⟩ := bind_ok.mp (forM_ok hverify attach hmem)
  obtain ⟨type, htype, -⟩ := bind_ok.mp hrest
  exact ⟨⟨name, stringField_ok.mp hname⟩, type, stringField_ok.mp htype⟩

theorem serverSaveFileImg_hash {data : Bytes} {file : DbuserFile}
    (h : serverSaveFileImg libs data = some file) :
    file.hash = ofBytes (serverSha256Str libs data) := by
  rw [serverSaveFileImg] at h
  split at h
  · cases h
  · split at h
    · rw [← Option.some.inj h]
    · cases h

theorem ofBytes_sha_ne (libs : Libs) (data : Bytes) : ofBytes (serverSha256Str libs data) ≠ "" := by
  intro h
  have hlength := congrArg String.length h
  rw [ofBytes, String.length_ofList, List.length_map, serverSha256Str_length] at hlength
  exact absurd hlength (by decide)

theorem serverSaveFileImg_named {data : Bytes} {file : DbuserFile}
    (h : serverSaveFileImg libs data = some file) : file.hash ≠ "" := by
  rw [serverSaveFileImg_hash h]
  exact ofBytes_sha_ne libs data

theorem filterMap_range_bind (attachments : List JsonObject) :
    (List.range attachments.length).filterMap (fun i => (attachments[i]?).bind attachHash) =
      attachments.filterMap attachHash := by
  rw [← List.filterMap_filterMap, RingBuffer.filterMap_range_getElem]

section Accepted

variable {ut : MsgAttachments.UploadToken} {uploaded : List Nat} {upload : Upload} {a : Accepted}

theorem Uploads.accept (h : Uploads libs ut uploaded) (hunfilled : uploaded.length < ut.total)
    (haccept : serverHandleMsgAttach libs ut upload = some a) (hnew : a.index ∉ uploaded) :
    Uploads libs a.ut (a.index :: uploaded) ∧
      heldBy (.msgAttachment a.ut (a.index :: uploaded)) =
        a.file.hash :: heldBy (.msgAttachment ut uploaded) := by
  obtain ⟨attach, hindex, hfile, hattachments, htotal, hcurrent⟩ :=
    UnlinkConfinement.serverHandleMsgAttach_some haccept
  have hget := UnlinkConfinement.attachIndexOf_getElem? hindex
  have hlt := (List.getElem?_eq_some_iff.mp hget).1
  have hnamed := h.named attach (List.mem_of_getElem? hget)
  have hself : a.ut.msg.attachments[a.index]? = some
      (attach.objectAdd "hash" (.string (serverSha256Str libs upload.body))) := by
    rw [hattachments, List.getElem?_set_self hlt]
  have hhash : (attach.objectAdd "hash" (.string (serverSha256Str libs upload.body))).objectGet
      "hash" = .string (serverSha256Str libs upload.body) := by
    obtain ⟨⟨name, hname⟩, -⟩ := hnamed
    cases attach with
    | object fields => exact JsonObject.objectGet_objectAdd fields _ _
    | null | boolean | int | double | string | array => cases hname
  have hother : ∀ i ∈ uploaded, a.ut.msg.attachments[i]? = ut.msg.attachments[i]? := by
    intro i hi
    rw [hattachments]
    refine List.getElem?_set_ne ?_
    rintro rfl
    exact hnew hi
  refine ⟨⟨?_, ?_, ?_, List.nodup_cons.mpr ⟨hnew, h.nodup⟩, ?_, ?_⟩, ?_⟩
  · rw [htotal, h.total, hattachments, List.length_set]
  · have hsmall := h.small
    have htotal := h.total
    rw [hcurrent, h.current, List.length_cons, Nat.mod_eq_of_lt (by omega)]
  · rw [hattachments, List.length_set]
    exact h.small
  · intro other hmem
    rw [hattachments] at hmem
    rcases List.mem_or_eq_of_mem_set hmem with hmem | rfl
    · exact h.named other hmem
    · obtain ⟨⟨name, hname⟩, type, htype⟩ := hnamed
      refine ⟨⟨name, ?_⟩, type, ?_⟩
      · rw [JsonObject.objectGet_objectAdd_of_ne _ (by decide), hname]
      · rw [JsonObject.objectGet_objectAdd_of_ne _ (by decide), htype]
  · rw [List.forall_mem_cons]
    refine ⟨⟨_, hself, upload.body, hhash⟩, fun i hi => ?_⟩
    rw [hother i hi]
    exact h.hashed i hi
  · have hheld : heldBy (.msgAttachment a.ut uploaded) = heldBy (.msgAttachment ut uploaded) :=
      List.filterMap_congr (fun i hi => by rw [hother i hi])
    have hfirst : (a.ut.msg.attachments[a.index]?).bind attachHash = some a.file.hash := by
      rw [hself, Option.bind_some, attachHash_sha hhash, serverSaveFileImg_hash hfile]
    rw [← hheld, heldBy, List.filterMap_cons, hfirst]
    rfl

theorem Uploads.complete (h : Uploads libs ut uploaded) (hfull : ut.total ≤ uploaded.length) :
    (heldBy (.msgAttachment ut uploaded)).Perm (ut.msg.attachments.filterMap attachHash) ∧
      ∀ attach ∈ ut.msg.attachments, Deletable libs attach := by
  have hsubset : uploaded ⊆ List.range ut.msg.attachments.length := by
    intro i hi
    obtain ⟨attach, hget, -⟩ := h.hashed i hi
    exact List.mem_range.mpr (List.getElem?_eq_some_iff.mp hget).1
  have hperm : uploaded.Perm (List.range ut.msg.attachments.length) := by
    refine (List.subperm_of_subset h.nodup hsubset).perm_of_length_le ?_
    rw [List.length_range, ← h.total]
    exact hfull
  constructor
  · rw [← filterMap_range_bind]
    exact hperm.filterMap _
  · intro attach hmem
    obtain ⟨i, hi⟩ := List.mem_iff_getElem?.mp hmem
    have hlt := (List.getElem?_eq_some_iff.mp hi).1
    obtain ⟨other, hget, hhashed⟩ := h.hashed i (hperm.mem_iff.mpr (List.mem_range.mpr hlt))
    rw [hi, Option.some.injEq] at hget
    exact deletable_of_hashed (h.named attach hmem) (hget ▸ hhashed)

end Accepted

def references (s : State C) : Multiset String :=
  storedHashes s.messages + pictures s.users + heldHashes s.tokens

/-- The rows count every reference, and what the operation under way has yet to put somewhere. -/
structure Kept (libs : Libs) (owed : Multiset String) (s : State C) : Prop where
  counted : s.rows = counts (owed + references s)
  unnamed : "" ∉ owed + references s
  users : (s.users.map UserRow.userId).Nodup
  messages : ∀ m ∈ s.messages, ∀ attach ∈ m.2.attachments, Deletable libs attach
  tokens : ∀ t ∈ s.tokens, TokenKept libs t.2

section Moves

variable {s : State C} {owed : Multiset String} {before after : List (Nat × UploadToken)}
  {token : Nat} {ut : UploadToken}

theorem heldHashes_append (tokens tokens' : List (Nat × UploadToken)) :
    heldHashes (tokens ++ tokens') = heldHashes tokens ++ heldHashes tokens' :=
  List.flatMap_append

theorem heldHashes_split : heldHashes (before ++ (token, ut) :: after) =
    heldHashes before ++ (heldBy ut ++ heldHashes after) := by
  rw [heldHashes_append]
  rfl

theorem storedHashes_append (messages messages' : List (Nat × Msg)) :
    storedHashes (messages ++ messages') = storedHashes messages ++ storedHashes messages' := by
  rw [storedHashes, List.flatMap_append, List.filterMap_append]
  rfl

theorem storedHashes_cons (m : Nat × Msg) (messages : List (Nat × Msg)) :
    storedHashes (m :: messages) =
      m.2.attachments.filterMap attachHash ++ storedHashes messages := by
  rw [storedHashes, List.flatMap_cons, List.filterMap_append]
  rfl

theorem Kept.takeToken (h : Kept libs owed s) (hs : s.tokens = before ++ (token, ut) :: after) :
    Kept libs (heldBy ut + owed) { s with tokens := before ++ after } ∧ TokenKept libs ut := by
  have hrefs : heldBy ut + owed + references { s with tokens := before ++ after } =
      owed + references s := by
    rw [references, references, hs, heldHashes_split, heldHashes_append]
    simp only [← Multiset.coe_add]
    abel
  have htokens := h.tokens
  rw [hs, List.forall_mem_append, List.forall_mem_cons] at htokens
  refine ⟨⟨hrefs ▸ h.counted, hrefs ▸ h.unnamed, h.users, h.messages, ?_⟩, htokens.2.1⟩
  rw [List.forall_mem_append]
  exact ⟨htokens.1, htokens.2.2⟩

theorem Kept.putToken (h : Kept libs (heldBy ut + owed) { s with tokens := before ++ after })
    (hut : TokenKept libs ut) :
    Kept libs owed { s with tokens := before ++ (token, ut) :: after } := by
  have hrefs : heldBy ut + owed + references { s with tokens := before ++ after } =
      owed + references { s with tokens := before ++ (token, ut) :: after } := by
    rw [references, references, heldHashes_split, heldHashes_append]
    simp only [← Multiset.coe_add]
    abel
  have htokens := List.forall_mem_append.mp h.tokens
  refine ⟨hrefs ▸ h.counted, hrefs ▸ h.unnamed, h.users, h.messages, ?_⟩
  rw [List.forall_mem_append, List.forall_mem_cons]
  exact ⟨htokens.1, hut, htokens.2⟩

theorem Kept.newUploadToken (h : Kept libs 0 s) (hheld : heldBy ut = []) (hut : TokenKept libs ut)
    (token : Nat) : Kept libs 0 (newUploadToken s token ut) := by
  rw [FileReferences.newUploadToken]
  split
  · exact h
  · refine Kept.putToken ?_ hut
    rw [hheld, Multiset.coe_nil, zero_add, List.append_nil]
    exact h

theorem Kept.insertUserfiles (h : Kept libs owed s) (hnamed : hash ≠ "") :
    Kept libs ({hash} + owed) { s with rows := insertUserfiles s.rows hash } where
  counted := by
    rw [h.counted, insertUserfiles_counts, ← Multiset.singleton_add, ← add_assoc]
    rfl
  unnamed := by
    rw [add_assoc, Multiset.singleton_add, Multiset.mem_cons, not_or]
    exact ⟨hnamed.symm, h.unnamed⟩
  users := h.users
  messages := h.messages
  tokens := h.tokens

theorem Kept.insertMsg {msg : Msg}
    (h : Kept libs ((msg.attachments.filterMap attachHash : Multiset String) + owed) s)
    (hmsg : ∀ attach ∈ msg.attachments, Deletable libs attach) :
    Kept libs owed (insertMsg s msg false) := by
  have hrefs : (msg.attachments.filterMap attachHash : Multiset String) + owed + references s =
      owed + references (FileReferences.insertMsg s msg false) := by
    rw [references, references, FileReferences.insertMsg, if_neg Bool.false_ne_true,
      storedHashes_append, storedHashes_cons]
    simp only [← Multiset.coe_add, storedHashes, List.flatMap_nil, List.filterMap_nil,
      List.append_nil]
    abel
  refine ⟨hrefs ▸ h.counted, hrefs ▸ h.unnamed, h.users, ?_, h.tokens⟩
  rw [FileReferences.insertMsg, if_neg Bool.false_ne_true, List.forall_mem_append,
    List.forall_mem_singleton]
  exact ⟨h.messages, hmsg⟩

theorem Kept.insertMsg_nil {msg : Msg} (h : Kept libs 0 s) (hmsg : msg.attachments = [])
    (rejected : Bool) : Kept libs 0 (FileReferences.insertMsg s msg rejected) := by
  cases rejected with
  | true => exact ⟨h.counted, h.unnamed, h.users, h.messages, h.tokens⟩
  | false =>
      refine Kept.insertMsg ?_ (by simp [hmsg])
      rw [hmsg]
      exact h

theorem Kept.deleteAttachments {attachments : List JsonObject}
    (h : Kept libs ((attachments.filterMap attachHash : Multiset String) + owed) s)
    (hdeletable : ∀ attach ∈ attachments, Deletable libs attach) :
    Kept libs owed (serverDeleteAttachments libs s attachments) := by
  have hpictures : (pictures s.users : Multiset String) ≤ owed + references s := by
    rw [references, add_right_comm, ← add_assoc]
    exact Multiset.le_add_left _ _
  have hcounted := h.counted
  rw [add_assoc] at hcounted
  rw [serverDeleteAttachments_counts hdeletable hcounted hpictures]
  refine ⟨rfl, fun hmem => h.unnamed ?_, h.users, h.messages, h.tokens⟩
  rw [add_assoc]
  exact Multiset.mem_add.mpr (.inr hmem)

theorem Kept.takeMessages {taken kept : List (Nat × Msg)} (h : Kept libs owed s)
    (hperm : s.messages.Perm (taken ++ kept)) :
    Kept libs (storedHashes taken + owed) { s with messages := kept } ∧
      ∀ attach ∈ taken.flatMap (fun m => m.2.attachments), Deletable libs attach := by
  have hstored : (storedHashes s.messages : Multiset String) =
      storedHashes taken + storedHashes kept := by
    rw [Multiset.coe_add, ← storedHashes_append]
    exact Multiset.coe_eq_coe.mpr ((hperm.flatMap_right _).filterMap _)
  have hrefs : storedHashes taken + owed + references { s with messages := kept } =
      owed + references s := by
    rw [references, references, hstored]
    abel
  have hmessages : ∀ m ∈ taken ++ kept, ∀ attach ∈ m.2.attachments, Deletable libs attach :=
    fun m hm => h.messages m (hperm.mem_iff.mpr hm)
  rw [List.forall_mem_append] at hmessages
  refine ⟨⟨hrefs ▸ h.counted, hrefs ▸ h.unnamed, h.users, hmessages.2, h.tokens⟩, ?_⟩
  intro attach hattach
  obtain ⟨m, hm, hmem⟩ := List.mem_flatMap.mp hattach
  exact hmessages.1 m hm attach hmem

theorem map_user {users before after : List UserRow} {row : UserRow}
    (hnodup : (users.map UserRow.userId).Nodup) (hs : users = before ++ row :: after)
    (hash : String) :
    users.map (fun other => if other.userId = row.userId then { other with pfp := some hash }
      else other) = before ++ { row with pfp := some hash } :: after := by
  rw [hs, List.map_append, List.map_cons, List.nodup_middle, List.nodup_cons,
    List.mem_append, not_or] at hnodup
  have hsame : ∀ others : List UserRow, row.userId ∉ others.map UserRow.userId →
      others.map (fun other => if other.userId = row.userId then { other with pfp := some hash }
        else other) = others := by
    intro others hnot
    refine (List.map_congr_left (fun other hother => if_neg ?_)).trans (List.map_id _)
    exact fun heq => hnot (List.mem_map.mpr ⟨other, hother, heq⟩)
  rw [hs, List.map_append, List.map_cons, if_pos rfl, hsame before hnodup.1.1,
    hsame after hnodup.1.2]

theorem pictures_split (before after : List UserRow) (row : UserRow) :
    pictures (before ++ row :: after) = pictures before ++ (row.pfp.toList ++ pictures after) := by
  rw [pictures, List.filterMap_append, List.filterMap_cons]
  cases row.pfp <;> rfl

theorem Kept.deletePicture {picture : Option String} (h : Kept libs picture.toList s) :
    Kept libs 0 { s with rows := deleteUserfile s.users s.rows (picture.getD "") } := by
  cases picture with
  | none =>
      have hmissing : deleteUserfile s.users s.rows "" = s.rows := by
        rw [h.counted, deleteUserfile_missing h.unnamed]
      refine ⟨?_, h.unnamed, h.users, h.messages, h.tokens⟩
      exact hmissing.trans h.counted
  | some old =>
      have hpictures : (pictures s.users : Multiset String) ≤ 0 + references s := by
        rw [references, zero_add, add_right_comm]
        exact Multiset.le_add_left _ _
      have hcounted : s.rows = counts (old ::ₘ (0 + references s)) := h.counted
      refine ⟨?_, fun hmem => h.unnamed (Multiset.mem_add.mpr (.inr ?_)), h.users, h.messages,
        h.tokens⟩
      · exact (congrArg (fun rows => deleteUserfile s.users rows old) hcounted).trans
          (deleteUserfile_cons old hpictures)
      · rwa [zero_add] at hmem

theorem Kept.updateUserPfp {c : C} {row : UserRow} {file : DbuserFile} [DecidableEq C]
    (h : Kept libs 0 s) (hfile : file.hash ≠ "") (hrow : row ∈ s.users)
    (hcopy : s.pfpHash c = row.pfp.getD "") :
    Kept libs 0 (updateUserPfp s c row.userId file) := by
  have hinsert := h.insertUserfiles hfile
  obtain ⟨before, after, hs⟩ := List.append_of_mem hrow
  let users := before ++ { row with pfp := some file.hash } :: after
  have hupdate : updateUser s.users (UserFile.insertUserfiles s.rows file.hash) file.hash
      row.userId = some users := by
    have hmem : file.hash ∈ {file.hash} + 0 + references s :=
      Multiset.mem_add.mpr (.inl (by simp))
    rw [updateUser, map_user h.users hs, if_pos]
    exact congrArg Option.isSome ((congrFun hinsert.counted file.hash).trans (counts_of_mem hmem))
  have hrefs : {file.hash} + 0 + references s =
      row.pfp.toList + references { s with users } := by
    rw [references, references, hs, pictures_split, pictures_split]
    simp only [← Multiset.coe_add, Option.toList_some, Multiset.coe_singleton]
    abel
  have hupdated : Kept libs row.pfp.toList
      { s with rows := UserFile.insertUserfiles s.rows file.hash, users } := by
    refine ⟨hrefs ▸ hinsert.counted, hrefs ▸ hinsert.unnamed, ?_, h.messages, h.tokens⟩
    have hids : users.map UserRow.userId = s.users.map UserRow.userId := by
      rw [hs, List.map_append, List.map_append]
      rfl
    rw [hids]
    exact h.users
  have hdeleted := hupdated.deletePicture
  rw [FileReferences.updateUserPfp, hupdate, hcopy]
  exact ⟨hdeleted.counted, hdeleted.unnamed, hdeleted.users, h.messages, h.tokens⟩

end Moves

section Runs

variable [DecidableEq C] {s s' : State C} {op : FileReferences.Op C}

omit [DecidableEq C] in
theorem kept_initial (h : Initial s) : Kept libs 0 s := by
  have hrefs : 0 + references s = 0 := by
    rw [references, h.messages, h.users, h.tokens]
    rfl
  refine ⟨?_, ?_, ?_, ?_, ?_⟩
  · rw [hrefs, counts_zero, h.rows]
  · rw [hrefs]
    exact Multiset.notMem_zero _
  · rw [h.users]
    exact List.nodup_nil
  · rw [h.messages]
    exact fun _ hmem => absurd hmem List.not_mem_nil
  · rw [h.tokens]
    exact fun _ hmem => absurd hmem List.not_mem_nil

theorem Kept.setLoggedIn (h : Kept libs 0 s) (c : C) (user : DbUser) (sent : Bool) :
    Kept libs 0 (setLoggedIn s c user sent) := by
  rw [FileReferences.setLoggedIn]
  split
  · exact ⟨h.counted, h.unnamed, h.users, h.messages, h.tokens⟩
  · exact h

omit [DecidableEq C] in
theorem Kept.newUser {row : UserRow} (h : Kept libs 0 s)
    (hnew : ∀ other ∈ s.users, other.userId ≠ row.userId) (hpfp : row.pfp = none) :
    Kept libs 0 { s with users := s.users ++ [row] } := by
  have hrefs : references { s with users := s.users ++ [row] } = references s := by
    have hpictures : pictures (s.users ++ [row]) = pictures s.users := by
      rw [pictures_split, hpfp, Option.toList_none, List.nil_append]
      exact List.append_nil _
    rw [references, references, hpictures]
  refine ⟨hrefs.symm ▸ h.counted, hrefs.symm ▸ h.unnamed, ?_, h.messages, h.tokens⟩
  rw [List.map_append, List.map_singleton, List.nodup_append]
  refine ⟨h.users, List.nodup_singleton _, fun userId hmem other hother => ?_⟩
  obtain ⟨row', hrow', rfl⟩ := List.mem_map.mp hmem
  rw [List.mem_singleton.mp hother]
  exact hnew row' hrow'

theorem Kept.serverHandleUserPfpUpdate {userId : Nat} {url body : Bytes} (h : Kept libs 0 s)
    (hcopy : utf8 "/img/" <+: url → (serverSaveFileImg libs body).isSome →
      ∀ c, s.logins.userHt userId = some c → CopyCurrent s c) :
    Kept libs 0 (serverHandleUserPfpUpdate libs s userId url body) := by
  rw [FileReferences.serverHandleUserPfpUpdate]
  split
  · next himg =>
    split
    · exact h
    · next c hc =>
      split
      · next userId' _ hclient =>
        cases hsave : serverSaveFileImg libs body with
        | none => exact h
        | some file =>
            obtain ⟨row, hrow, loggedIn, hcurrent, hhash⟩ := hcopy himg (by rw [hsave]; rfl) c hc
            have huser : userId' = row.userId := by
              rw [hclient] at hcurrent
              simpa using congrArg (fun client => client.bind UserLogin.Client.dbuser) hcurrent
            rw [huser]
            exact h.updateUserPfp (serverSaveFileImg_named hsave) hrow hhash
      · exact ⟨h.counted, h.unnamed, h.users, h.messages, h.tokens⟩
  · exact h

omit [DecidableEq C] in
theorem Kept.acceptUpload {token : Nat} {ut : MsgAttachments.UploadToken} {uploaded : List Nat}
    {before after : List (Nat × UploadToken)} {upload : Upload} {a : Accepted} {rejected : Bool}
    (h : Kept libs 0 s) (hs : s.tokens = before ++ (token, .msgAttachment ut uploaded) :: after)
    (haccept : serverHandleMsgAttach libs ut upload = some a)
    (hmatched : Matched libs s (.uploadAttachment token upload rejected)) :
    Kept libs 0 (acceptUpload s before after token uploaded a rejected) := by
  obtain ⟨attach, hindex, hfile, -, htotal, hcurrent⟩ :=
    UnlinkConfinement.serverHandleMsgAttach_some haccept
  obtain ⟨hnew, hinsert⟩ := hmatched ut uploaded a.index attach
    (hs ▸ List.mem_append_cons_self) hindex (by rw [hfile]; rfl)
  obtain ⟨htaken, huploads, hunfilled⟩ :=
    (h.insertUserfiles (serverSaveFileImg_named hfile)).takeToken hs
  obtain ⟨huploads', hheld⟩ := huploads.accept hunfilled haccept hnew
  have howed : (heldBy (.msgAttachment ut uploaded) : Multiset String) + ({a.file.hash} + 0) =
      heldBy (.msgAttachment a.ut (a.index :: uploaded)) + 0 := by
    rw [hheld, ← Multiset.cons_coe, ← Multiset.singleton_add]
    abel
  rw [howed] at htaken
  rw [FileReferences.acceptUpload]
  dsimp only
  split
  · next hfull =>
    have hrejected : rejected = false := hinsert (by rwa [← htotal, ← hcurrent])
    obtain ⟨hperm, hdeletable⟩ := huploads'.complete (huploads'.current ▸ hfull)
    rw [Multiset.coe_eq_coe.mpr hperm] at htaken
    rw [hrejected]
    exact htaken.insertMsg hdeletable
  · next hfull =>
    exact htaken.putToken ⟨huploads', by rw [← huploads'.current]; omega⟩

theorem Kept.step (h : Kept libs 0 s) (hstep : Step libs s op s') (hmatched : Matched libs s op) :
    Kept libs 0 s' := by
  cases hstep with
  | accept hc => exact ⟨h.counted, h.unnamed, h.users, h.messages, h.tokens⟩
  | register sent hc hnew hpfp =>
      exact (h.newUser (fun other hmem => (hnew other hmem).1) hpfp).setLoggedIn _ _ sent
  | login sent hc hrow => exact h.setLoggedIn _ _ sent
  | disconnect hc => exact ⟨h.counted, h.unnamed, h.users, h.messages, h.tokens⟩
  | @editAccount c token userId hc =>
      have hut : TokenKept libs (.userPfp userId) := trivial
      exact h.newUploadToken rfl hut token
  | @groupMsg userId payload token rejected msg hmsg =>
      obtain ⟨harray, hnamed⟩ := serverGroupMsg_named hmsg
      have hsmall : msg.attachments.length < 2 ^ 32 := hmatched _ harray
      rw [newMsg]
      split
      · next hnil => exact h.insertMsg_nil hnil rejected
      · next hsome =>
        have huploads : Uploads libs ⟨msg, msg.attachments.length % 2 ^ 32, 0⟩ [] :=
          ⟨Nat.mod_eq_of_lt hsmall, rfl, hsmall, List.nodup_nil, hnamed,
            fun _ hmem => absurd hmem List.not_mem_nil⟩
        have hunfilled : 0 < msg.attachments.length % 2 ^ 32 := by
          rw [Nat.mod_eq_of_lt hsmall]
          exact List.length_pos_iff.mpr hsome
        have hut : TokenKept libs (.msgAttachment ⟨msg, msg.attachments.length % 2 ^ 32, 0⟩ []) :=
          ⟨huploads, hunfilled⟩
        exact h.newUploadToken rfl hut token
  | @uploadPfp token userId before after url body hs =>
      have htaken := (h.takeToken hs).1
      refine Kept.serverHandleUserPfpUpdate htaken (fun himg hsome c hc => ?_)
      exact hmatched userId c (hs ▸ List.mem_append_cons_self)
        himg hsome hc
  | uploadAttachment before rejected hs haccept => exact h.acceptUpload hs haccept hmatched
  | @expire token ut before after hs =>
      have htaken := (h.takeToken hs).1
      cases ut with
      | userPfp userId => exact htaken
      | msgAttachment ut uploaded =>
          obtain rfl := hmatched ut uploaded
            (hs ▸ List.mem_append_cons_self)
          exact htaken
  | @deleteMsg userId msgId owner msg before after hs howner hmay =>
      obtain ⟨htaken, hdeletable⟩ := h.takeMessages
        (show s.messages.Perm ([(msgId, msg)] ++ (before ++ after)) from hs ▸ List.perm_middle)
      rw [List.flatMap_singleton] at hdeletable
      rw [storedHashes, List.flatMap_singleton] at htaken
      exact htaken.deleteAttachments hdeletable
  | @deleteGroup userId groupId howner =>
      have hperm : s.messages.Perm (s.messages.filter (fun m => m.2.groupId = groupId) ++
          s.messages.filter (fun m => m.2.groupId ≠ groupId)) := by
        refine (List.filter_append_perm (fun m => decide (m.2.groupId = groupId)) _).symm.trans ?_
        simp
      obtain ⟨htaken, hdeletable⟩ := h.takeMessages hperm
      refine Kept.deleteAttachments ?_ hdeletable
      exact ⟨htaken.counted, htaken.unnamed, htaken.users, htaken.messages, htaken.tokens⟩

theorem reachable_kept (h : Reachable Initial
    (fun s op s' => Running libs s op s' ∧ Matched libs s op) s) : Kept libs 0 s :=
  h.invariant (fun _ => kept_initial) (fun _ _ _ hkept hstep => hkept.step hstep.1.2 hstep.2)

omit [DecidableEq C] in
theorem Kept.exact (h : Kept libs 0 s) (htokens : s.tokens = []) : Exact s := by
  intro hash refCount hrow
  have hcount := counts_getD (0 + references s) hash
  rw [← h.counted, hrow, Option.getD_some, references, htokens] at hcount
  rw [hcount]
  simp [heldHashes]

/-- In every run in which uploads are matched by references, the counts are exact whenever no upload
token is left. -/
theorem reachable_exact (h : Reachable Initial
    (fun s op s' => Running libs s op s' ∧ Matched libs s op) s) (htokens : s.tokens = []) :
    Exact s :=
  (reachable_kept h).exact htokens

/-- The picture that a user had before a login is still counted after the next change. -/
theorem updateUserPfp_forgets {c : C} {userId : Nat} {file : DbuserFile}
    (hrows : s.rows = counts refs) (hcopy : s.pfpHash c = "") (hunnamed : "" ∉ file.hash ::ₘ refs) :
    updateUserPfp s c userId file = { s with
      rows := counts (file.hash ::ₘ refs)
      users := s.users.map (fun row =>
        if row.userId = userId then { row with pfp := some file.hash } else row)
      pfpHash := Function.update s.pfpHash c file.hash } := by
  have hsome : (counts (file.hash ::ₘ refs) file.hash).isSome := by
    rw [counts_of_mem (Multiset.mem_cons_self _ _)]
    rfl
  rw [updateUserPfp, hrows, insertUserfiles_counts, updateUser, if_pos hsome, hcopy]
  dsimp only
  rw [deleteUserfile_missing hunnamed]

end Runs

section Gif

open UnlinkConfinement (gif gifLibs gifFile gif_saved attachment serverGroupMsg_attachments
  serverHandleMsgAttach_first)

def started : State Nat :=
  ⟨fun _ => none, [], fun group => if group = 1 then some 1 else none, [], 1,
    ⟨fun _ => none, fun _ => none, []⟩, fun _ => "", [], false⟩

theorem started_initial : Initial started :=
  ⟨rfl, rfl, rfl, ⟨fun _ => rfl, fun _ => rfl, rfl⟩, rfl, rfl⟩

theorem gif_row : insertUserfiles (fun _ => none) gifFile.hash gifFile.hash = some 1 := by
  simp [insertUserfiles]

theorem reachable_exact_gif :
    ∃ s : State Nat, s.rows gifFile.hash = some 1 ∧ s.messages.length = 1 ∧ Exact s := by
  have h0 : Reachable Initial (fun s op s' => Running gifLibs s op s' ∧ Matched gifLibs s op)
      started := .start started_initial
  have h1 := h0.next ⟨⟨rfl, .groupMsg 7 false (serverGroupMsg_attachments [[]])⟩, by
    intro attachments harray
    cases harray
    decide⟩
  have hupload := serverHandleMsgAttach_first ⟨⟨1, 1, [], [attachment []]⟩, 1, 0⟩ [] rfl
  have h2 := h1.next ⟨⟨rfl, .uploadAttachment [] false rfl hupload⟩, by
    intro ut uploaded index attach hmem hindex hsave
    cases List.mem_singleton.mp hmem
    exact ⟨List.not_mem_nil, fun _ => rfl⟩⟩
  exact ⟨_, gif_row, rfl, reachable_exact h2 rfl⟩

theorem rejected_message : ∃ s : State Nat, Reachable Initial (Running gifLibs) s ∧
    s.tokens = [] ∧ s.msgSeq = 2 ∧ s.messages = [] ∧ ¬ Exact s := by
  have h0 : Reachable Initial (Running gifLibs) started := .start started_initial
  have h1 := h0.next ⟨rfl, .groupMsg 7 true (serverGroupMsg_attachments [[]])⟩
  have hupload := serverHandleMsgAttach_first ⟨⟨1, 1, [], [attachment []]⟩, 1, 0⟩ [] rfl
  have h2 : Reachable Initial (Running gifLibs)
      { started with rows := insertUserfiles (fun _ => none) gifFile.hash, msgSeq := 2 } :=
    h1.next ⟨rfl, .uploadAttachment [] true rfl hupload⟩
  exact ⟨_, h2, rfl, rfl, rfl, fun h => absurd (h gifFile.hash 1 gif_row) (by decide)⟩

theorem expired_upload : ∃ s : State Nat, Reachable Initial (Running gifLibs) s ∧
    s.tokens = [] ∧ s.msgSeq = 1 ∧ ¬ Exact s := by
  have h0 : Reachable Initial (Running gifLibs) started := .start started_initial
  have h1 := h0.next ⟨rfl, .groupMsg 7 true (serverGroupMsg_attachments [[], []])⟩
  have hupload := serverHandleMsgAttach_first
    ⟨⟨1, 1, [], [attachment [], attachment []]⟩, 2, 0⟩ [] rfl
  have h2 := h1.next ⟨rfl, .uploadAttachment [] true rfl hupload⟩
  have h3 : Reachable Initial (Running gifLibs)
      { started with rows := insertUserfiles (fun _ => none) gifFile.hash } :=
    h2.next ⟨rfl, .expire [] rfl⟩
  exact ⟨_, h3, rfl, rfl, fun h => absurd (h gifFile.hash 1 gif_row) (by decide)⟩

theorem gif_unnamed (h : "" ∉ refs) : "" ∉ gifFile.hash ::ₘ refs := by
  rw [Multiset.mem_cons, not_or]
  exact ⟨(serverSaveFileImg_named gif_saved).symm, h⟩

theorem uploadPfp_gif {s : State Nat} {c userId userId' : Nat} {loggedIn : Bool}
    (hc : s.logins.userHt userId = some c)
    (hclient : s.logins.clients c = some ⟨some userId', loggedIn, false⟩)
    (hrows : s.rows = counts refs) (hcopy : s.pfpHash c = "") (hrefs : "" ∉ refs) :
    serverHandleUserPfpUpdate gifLibs s userId (utf8 "/img/") gif = { s with
      rows := counts (gifFile.hash ::ₘ refs)
      users := s.users.map (fun row =>
        if row.userId = userId' then { row with pfp := some gifFile.hash } else row)
      pfpHash := Function.update s.pfpHash c gifFile.hash } := by
  rw [serverHandleUserPfpUpdate, if_pos List.prefix_rfl, hc]
  dsimp only
  rw [hclient, gif_saved]
  exact updateUserPfp_forgets hrows hcopy (gif_unnamed hrefs)

def user : UserRow := ⟨1, "user", "User", none, "\\x00", "\\x00", "2024-01-01 00:00:00", none⟩

theorem picture_after_login : ∃ s : State Nat, Reachable Initial (Running gifLibs) s ∧
    s.tokens = [] ∧ s.users.length = 1 ∧ ¬ Exact s := by
  have h0 : Reachable Initial (Running gifLibs) started := .start started_initial
  have h1 := h0.next ⟨rfl, .accept (c := 0) rfl⟩
  have h2 := h1.next ⟨rfl, .register (c := 0) true ⟨_, rfl, rfl⟩
    (fun _ hmem => absurd hmem List.not_mem_nil) (show user.pfp = none from rfl)⟩
  have h3 := h2.next ⟨rfl, .editAccount (c := 0) 7 rfl⟩
  have h4 := h3.next ⟨rfl, .uploadPfp [] (utf8 "/img/") gif rfl⟩
  rw [uploadPfp_gif rfl rfl counts_zero.symm rfl (Multiset.notMem_zero _)] at h4
  have h5 := h4.next ⟨rfl, .disconnect (c := 0) ⟨_, rfl, rfl⟩⟩
  have h6 := h5.next ⟨rfl, .accept (c := 1) rfl⟩
  have h7 := h6.next ⟨rfl, .login (c := 1) true ⟨_, rfl, rfl⟩ (List.mem_singleton_self _)⟩
  have h8 := h7.next ⟨rfl, .editAccount (c := 1) 7 rfl⟩
  have h9 := h8.next ⟨rfl, .uploadPfp [] (utf8 "/img/") gif rfl⟩
  rw [uploadPfp_gif rfl rfl rfl rfl (gif_unnamed (Multiset.notMem_zero _))] at h9
  refine ⟨_, h9, rfl, rfl, fun h => ?_⟩
  have htwo : counts (gifFile.hash ::ₘ gifFile.hash ::ₘ 0) gifFile.hash = some 2 := by
    rw [counts_of_mem (Multiset.mem_cons_self _ _), Multiset.count_cons_self,
      Multiset.count_cons_self, Multiset.count_zero]
    rfl
  have hcount := h gifFile.hash 2 htwo
  change (2 : Int) = (0 : Nat) + [gifFile.hash].count gifFile.hash at hcount
  rw [List.count_singleton_self] at hcount
  exact absurd hcount (by decide)

/-- The message of an upload is rejected, the token of an upload expires, and a user changes the
picture again after the next login. -/
theorem references_not_exact :
    (∃ s : State Nat, Reachable Initial (Running gifLibs) s ∧ s.tokens = [] ∧ s.msgSeq = 2 ∧
      s.messages = [] ∧ ¬ Exact s) ∧
    (∃ s : State Nat, Reachable Initial (Running gifLibs) s ∧ s.tokens = [] ∧ s.msgSeq = 1 ∧
      ¬ Exact s) ∧
    ∃ s : State Nat, Reachable Initial (Running gifLibs) s ∧ s.tokens = [] ∧ s.users.length = 1 ∧
      ¬ Exact s :=
  ⟨rejected_message, expired_upload, picture_after_login⟩

end Gif

end ChityChat.ReferencesExact
