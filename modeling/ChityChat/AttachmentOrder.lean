import ChityChat.AttachmentUploads

namespace ChityChat.AttachmentOrder

open CString JsonC MsgAttachments UnlinkConfinement UploadTokens AttachmentUploads

/-- `json_tokener_parse_ex` reads at most `len` bytes, an `int`, and an element of an array takes one
at least. -/
structure JsonTokener where
  parse : Bytes → Option JsonObject
  bounded : ∀ text payload key elements, parse text = some payload →
    payload.objectGet key = .array elements → elements.length < 2 ^ 31

def issued (libs : Libs) (x : State) (post : Post) : Option Msg :=
  if x.listed then
    (accepted libs x post).bind
      (fun a => if a.ut.total ≤ a.ut.current then some a.ut.msg else none)
  else none

def issues (libs : Libs) : State → List Post → List (Option Msg)
  | _, [] => []
  | x, post :: posts =>
    issued libs x post :: issues libs (serverHandleUserUpload libs x post) posts

/-- An upload for each of `n` attachments, in their order, that stores its file. -/
structure OneEach (libs : Libs) (n : Nat) (posts : List Post) : Prop where
  length : posts.length = n
  index : ∀ i post, posts[i]? = some post → uploadIndex libs n post = some i

def withHash (libs : Libs) (attach : JsonObject) (post : Post) : JsonObject :=
  attach.objectAdd "hash" (.string (serverSha256Str libs post.upload.body))

/-- The message when each attachment has the hash of the body that was uploaded for it. -/
def allHashed (libs : Libs) (msg : Msg) (posts : List Post) : Msg :=
  { msg with attachments := List.zipWith (withHash libs) msg.attachments posts }

/-- The uploads so far have put hashes into their attachments and left the others as they were. -/
structure PartHashed (libs : Libs) (msg : Msg) (posts done : List Post) (x : State) : Prop where
  filled : Filled libs msg.attachments.length done x
  alive : x.freed = 0
  attachments : ∀ i, x.ut.msg.attachments[i]? =
    if i ∈ indexes libs msg.attachments.length done then (allHashed libs msg posts).attachments[i]?
    else msg.attachments[i]?
  message : x.ut.msg = { msg with attachments := x.ut.msg.attachments }

variable {libs : Libs} {n i : Nat} {posts done rest order : List Post} {post : Post} {x : State}
  {msg : Msg} {fd : Int}

theorem serverHandleUserUpload_inserts (libs : Libs) (x : State) (post : Post) :
    (serverHandleUserUpload libs x post).inserts = x.inserts ++
      ((issued libs x post).filter (fun _ => post.sent)).toList.map (fun msg => ⟨msg, .sent⟩) := by
  rw [serverHandleUserUpload, issued]
  cases x.listed with
  | false => simp
  | true =>
      cases accepted libs x post with
      | none => simp [touch]
      | some a =>
          by_cases hcount : a.ut.total ≤ a.ut.current
          · cases hsent : post.sent <;> simp [hcount, touch, Option.filter_some]
          · simp [hcount, touch]

theorem OneEach.indexes_eq (h : OneEach libs n posts) : indexes libs n posts = List.range n := by
  have hmap : posts.map (uploadIndex libs n) = (List.range n).map some := by
    apply List.ext_getElem?
    intro i
    by_cases hi : i < n
    · have hget := List.getElem?_eq_getElem (h.length ▸ hi)
      rw [List.getElem?_map, hget, Option.map_some, h.index i _ hget, List.getElem?_map,
        List.getElem?_range hi, Option.map_some]
    · have hlen := h.length
      rw [List.getElem?_eq_none (by rw [List.length_map]; omega),
        List.getElem?_eq_none (by rw [List.length_map, List.length_range]; omega)]
  have hfilter : indexes libs n posts = (posts.map (uploadIndex libs n)).filterMap id := by
    rw [List.filterMap_map]
    rfl
  rw [hfilter, hmap, List.filterMap_map]
  exact List.filterMap_some

theorem OneEach.indexes_perm (h : OneEach libs n posts) (hperm : order.Perm posts) :
    (indexes libs n order).Perm (List.range n) := by
  rw [← h.indexes_eq]
  exact hperm.filterMap _

theorem OneEach.mem (h : OneEach libs n posts) (hpost : post ∈ posts) :
    ∃ i, posts[i]? = some post ∧ uploadIndex libs n post = some i := by
  obtain ⟨i, hi⟩ := List.mem_iff_getElem?.mp hpost
  exact ⟨i, hi, h.index i post hi⟩

theorem OneEach.next (h : OneEach libs n posts) (hperm : (done ++ post :: rest).Perm posts) :
    ∃ i, posts[i]? = some post ∧ uploadIndex libs n post = some i ∧ i ∉ indexes libs n done := by
  have hmem : post ∈ posts := hperm.subset (List.mem_append_right done List.mem_cons_self)
  obtain ⟨i, hget, hindex⟩ := h.mem hmem
  refine ⟨i, hget, hindex, fun hold => ?_⟩
  have hnodup := (h.indexes_perm hperm).nodup_iff.mpr List.nodup_range
  rw [indexes, List.filterMap_append, List.filterMap_cons_some hindex] at hnodup
  exact (List.nodup_append.mp hnodup).2.2 i hold i List.mem_cons_self rfl

theorem OneEach.indexes_length (h : OneEach libs n posts) (hsub : ∀ post ∈ done, post ∈ posts) :
    (indexes libs n done).length = done.length := by
  induction done with
  | nil => rfl
  | cons post done ih =>
      obtain ⟨i, -, hindex⟩ := h.mem (hsub post List.mem_cons_self)
      have hrest := ih (fun post' hpost => hsub post' (List.mem_cons_of_mem post hpost))
      rw [indexes, List.filterMap_cons_some hindex, List.length_cons, List.length_cons]
      exact congrArg (· + 1) hrest

theorem partHashed_fresh {userId : Nat} {payload : JsonObject}
    (hmsg : serverGroupMsg userId payload = .ok msg) (posts : List Post) (fd : Int) :
    PartHashed libs msg posts [] (fresh msg fd) where
  filled := filled_fresh hmsg fd
  alive := rfl
  attachments _ := rfl
  message := rfl

theorem PartHashed.step (h : PartHashed libs msg posts done x)
    (hindex : uploadIndex libs msg.attachments.length post = some i)
    (hget : posts[i]? = some post) (hnew : i ∉ indexes libs msg.attachments.length done) :
    PartHashed libs msg posts (done ++ [post]) (serverHandleUserUpload libs x post) ∧
      issued libs x post =
        if msg.attachments.length % 2 ^ 32 ≤
          (indexes libs msg.attachments.length (done ++ [post])).length % 2 ^ 32
        then some (serverHandleUserUpload libs x post).ut.msg else none := by
  obtain ⟨attach, file, hattach, haccept⟩ := h.filled.accepted_some hindex
  have hold : msg.attachments[i]? = some attach := by
    have hi := h.attachments i
    rwa [if_neg hnew, hattach, eq_comm] at hi
  have hut : (serverHandleUserUpload libs x post).ut =
      hashAt x.ut i attach (serverSha256Str libs post.upload.body) := by
    rw [serverHandleUserUpload, if_pos h.filled.listed, haccept]
    dsimp only
    split <;> rfl
  obtain ⟨hfilled, halive, -, -⟩ := h.filled.step h.alive post
  refine ⟨⟨hfilled, halive, ?_, ?_⟩, ?_⟩
  · intro j
    rw [hut, indexes_snoc, hindex, Option.toList_some]
    simp only [hashAt, List.mem_append, List.mem_singleton]
    by_cases hji : j = i
    · subst hji
      have hlt := (List.getElem?_eq_some_iff.mp hattach).1
      rw [List.getElem?_set_self hlt, if_pos (.inr rfl)]
      simp only [allHashed, List.getElem?_zipWith, hold, hget]
      rfl
    · rw [List.getElem?_set_ne (Ne.symm hji), h.attachments j]
      simp only [hji, or_false]
  · rw [hut, hashAt, h.message]
  · rw [issued, if_pos h.filled.listed, haccept, Option.bind_some, ← hfilled.total,
      ← hfilled.current, hut]

theorem PartHashed.complete (h : PartHashed libs msg posts done x)
    (hposts : OneEach libs msg.attachments.length posts)
    (hall : ∀ i, i < msg.attachments.length → i ∈ indexes libs msg.attachments.length done) :
    x.ut.msg = allHashed libs msg posts := by
  have hattachments : x.ut.msg.attachments = (allHashed libs msg posts).attachments := by
    apply List.ext_getElem?
    intro i
    rw [h.attachments i]
    by_cases hi : i < msg.attachments.length
    · rw [if_pos (hall i hi)]
    · have hlen := hposts.length
      split
      · rfl
      · rw [List.getElem?_eq_none (Nat.not_lt.mp hi), List.getElem?_eq_none]
        rw [allHashed, List.length_zipWith]
        omega
  rw [h.message, hattachments]
  rfl

theorem PartHashed.run (h : PartHashed libs msg posts done x)
    (hposts : OneEach libs msg.attachments.length posts) (hsmall : msg.attachments.length < 2 ^ 32)
    (hperm : (done ++ rest).Perm posts) (hrest : rest ≠ []) :
    issues libs x rest = List.replicate (rest.length - 1) none ++
      [some (allHashed libs msg posts)] := by
  induction rest generalizing done x with
  | nil => exact absurd rfl hrest
  | cons post rest ih =>
      obtain ⟨i, hget, hindex, hnew⟩ := hposts.next hperm
      obtain ⟨hnext, hissued⟩ := h.step hindex hget hnew
      have hsnoc : done ++ post :: rest = (done ++ [post]) ++ rest := by simp
      have hsub : ∀ post' ∈ done ++ [post], post' ∈ posts :=
        fun post' hpost => hperm.subset (hsnoc ▸ List.mem_append_left rest hpost)
      have hlen := hperm.length_eq
      rw [hposts.length, List.length_append, List.length_cons] at hlen
      rw [hposts.indexes_length hsub, List.length_append, List.length_singleton,
        Nat.mod_eq_of_lt hsmall, Nat.mod_eq_of_lt (by omega)] at hissued
      rw [issues, hissued]
      cases rest with
      | nil =>
          have hall : ∀ j, j < msg.attachments.length →
              j ∈ indexes libs msg.attachments.length (done ++ [post]) :=
            fun j hj => (hposts.indexes_perm hperm).symm.subset (List.mem_range.mpr hj)
          rw [if_pos (by simp at hlen; omega), hnext.complete hposts hall]
          rfl
      | cons post' rest =>
          rw [List.length_cons] at hlen
          rw [if_neg (by omega), ih hnext (hsnoc ▸ hperm) (by simp)]
          rfl

theorem issues_append (libs : Libs) (x : State) (posts rest : List Post) :
    issues libs x (posts ++ rest) = issues libs x posts ++
      issues libs (posts.foldl (serverHandleUserUpload libs) x) rest := by
  induction posts generalizing x with
  | nil => rfl
  | cons post posts ih => rw [List.cons_append, issues, ih, List.foldl_cons, issues, List.cons_append]

theorem issues_length (libs : Libs) (x : State) (posts : List Post) :
    (issues libs x posts).length = posts.length := by
  induction posts generalizing x with
  | nil => rfl
  | cons post posts ih => exact congrArg (· + 1) (ih _)

theorem inserts_of_issues_none (h : ∀ insert ∈ issues libs x posts, insert = none) :
    (posts.foldl (serverHandleUserUpload libs) x).inserts = x.inserts := by
  induction posts generalizing x with
  | nil => rfl
  | cons post posts ih =>
      rw [issues, List.forall_mem_cons] at h
      rw [List.foldl_cons, ih h.2, serverHandleUserUpload_inserts, h.1]
      simp

theorem inserts_of_last {m : Msg} {before : List Post} {last : Post}
    (h : issues libs x (before ++ [last]) = List.replicate before.length none ++ [some m]) :
    (before.foldl (serverHandleUserUpload libs) x).inserts = x.inserts ∧
      ((before ++ [last]).foldl (serverHandleUserUpload libs) x).inserts =
        x.inserts ++ if last.sent then [⟨m, .sent⟩] else [] := by
  rw [issues_append] at h
  obtain ⟨hbefore, hlast⟩ := List.append_inj h (by rw [issues_length, List.length_replicate])
  have hnone := inserts_of_issues_none (fun insert hinsert =>
    List.eq_of_mem_replicate (hbefore ▸ hinsert))
  have hissued : issued libs (before.foldl (serverHandleUserUpload libs) x) last = some m := by
    simpa only [issues, List.cons.injEq, and_true] using hlast
  refine ⟨hnone, ?_⟩
  rw [List.foldl_append, List.foldl_cons, List.foldl_nil, serverHandleUserUpload_inserts, hnone,
    hissued]
  cases last.sent <;> rfl

structure Hashed (libs : Libs) (before : JsonObject) (post : Post) (attach : JsonObject) : Prop where
  hash : attach.objectGet "hash" = .string (serverSha256Str libs post.upload.body)
  name : attach.objectGet "name" = before.objectGet "name"
  type : attach.objectGet "type" = before.objectGet "type"

theorem withHash_hashed (libs : Libs) {attach : JsonObject} (hobject : Image attach) (post : Post) :
    Hashed libs attach post (withHash libs attach post) where
  hash := by
    obtain ⟨fields, rfl⟩ := image_object hobject
    exact JsonObject.objectGet_objectAdd _ _ _
  name := JsonObject.objectGet_objectAdd_of_ne _ (by decide) _
  type := JsonObject.objectGet_objectAdd_of_ne _ (by decide) _

theorem serverGroupMsg_attachments_field {userId : Nat} {payload : JsonObject}
    (h : serverGroupMsg userId payload = .ok msg) :
    payload.objectGet "attachments" = .array msg.attachments := by
  simp only [serverGroupMsg, bind_ok, Except.ok.injEq] at h
  obtain ⟨_, -, _, -, attachments, hfield, -, -, rfl⟩ := h
  exact arrayField_ok.mp hfield

/-- In whatever order a file is uploaded for each attachment of a message, the last upload issues
the insert and no other one does, and the message is the same: every attachment has the hash of its
body and what it had. -/
theorem uploads_commute (libs : Libs) (tokener : JsonTokener) {text : Bytes} {payload : JsonObject}
    {userId : Nat} (hparse : tokener.parse text = some payload)
    (hmsg : serverGroupMsg userId payload = .ok msg) (hn : 1 ≤ msg.attachments.length) (fd : Int)
    (hposts : OneEach libs msg.attachments.length posts) :
    (∀ order, order.Perm posts → ∃ before last, order = before ++ [last] ∧
      issues libs (fresh msg fd) order =
        List.replicate before.length none ++ [some (allHashed libs msg posts)] ∧
      (posted libs msg fd before).inserts = [] ∧
      (posted libs msg fd order).inserts =
        if last.sent then [⟨allHashed libs msg posts, .sent⟩] else []) ∧
    (allHashed libs msg posts).attachments.length = msg.attachments.length ∧
    ∀ (i : Nat) (hi : i < msg.attachments.length), ∃ post attach, posts[i]? = some post ∧
      (allHashed libs msg posts).attachments[i]? = some attach ∧
      Hashed libs msg.attachments[i] post attach := by
  have hsmall : msg.attachments.length < 2 ^ 32 :=
    (tokener.bounded text payload "attachments" _ hparse
      (serverGroupMsg_attachments_field hmsg)).trans (by decide)
  refine ⟨fun order hperm => ?_, ?_, fun i hi => ?_⟩
  · have hne : order ≠ [] := by
      rintro rfl
      rw [← hposts.length, ← hperm.length_eq] at hn
      exact absurd hn (by decide)
    have hrun := (partHashed_fresh hmsg posts fd).run hposts hsmall hperm hne
    obtain ⟨before, last, rfl⟩ := List.eq_nil_or_concat' order |>.resolve_left hne
    rw [List.length_append, List.length_singleton, Nat.add_sub_cancel] at hrun
    exact ⟨before, last, rfl, hrun, inserts_of_last hrun⟩
  · rw [allHashed, List.length_zipWith, hposts.length, Nat.min_self]
  · have hget := List.getElem?_eq_getElem (hposts.length.symm ▸ hi : i < posts.length)
    have himage := serverGroupMsg_image hmsg _ (List.getElem_mem hi)
    refine ⟨_, _, hget, ?_, withHash_hashed libs himage _⟩
    simp only [allHashed, List.getElem?_zipWith, hget, List.getElem?_eq_getElem hi]

def commandText : Bytes :=
  utf8 ("\x7b\"cmd\":\"group_msg\",\"group_id\":1,\"content\":\"\",\"attachments\":[" ++
    "\x7b\"name\":\"a.gif\",\"type\":\"image/gif\"\x7d," ++
    "\x7b\"name\":\"a.gif\",\"type\":\"image/gif\"\x7d]\x7d")

def command : JsonObject :=
  .object [("cmd", .newString "group_msg"), ("group_id", .int 1), ("content", .string []),
    ("attachments", .array ([[], []].map attachment))]

theorem objectGet_array {fields : List (String × JsonObject)} {key : String}
    {elements : List JsonObject} (h : (JsonObject.object fields).objectGet key = .array elements) :
    .array elements ∈ fields.map Prod.snd := by
  rw [JsonObject.objectGet] at h
  cases hfind : fields.find? (fun field => field.1 = key) with
  | none => rw [hfind] at h; cases h
  | some field =>
      rw [hfind] at h
      exact List.mem_map.mpr ⟨field, List.mem_of_find?_eq_some hfind, h⟩

def oneCommand : JsonTokener where
  parse text := if text = commandText then some command else none
  bounded := by
    intro text payload key elements hparse hget
    obtain ⟨-, rfl⟩ : text = commandText ∧ command = payload := by simpa using hparse
    have hmem := objectGet_array hget
    simp only [List.map_cons, List.map_nil, List.mem_cons, List.not_mem_nil, or_false,
      JsonObject.newString, reduceCtorEq, false_or, JsonObject.array.injEq] at hmem
    rw [hmem]
    decide

theorem command_msg : serverGroupMsg 1 command = .ok twoAttachments :=
  twoAttachments_msg

theorem uploads_commute_two : oneCommand.parse commandText = some command ∧
    ∃ before last, [uploadAt 49, uploadAt 48] = before ++ [last] ∧
      issues gifLibs (fresh twoAttachments 9) [uploadAt 49, uploadAt 48] =
        List.replicate before.length none ++
          [some (allHashed gifLibs twoAttachments [uploadAt 48, uploadAt 49])] := by
  have hparse : oneCommand.parse commandText = some command := if_pos rfl
  have hposts : OneEach gifLibs 2 [uploadAt 48, uploadAt 49] := by
    refine ⟨rfl, fun i post hpost => ?_⟩
    match i with
    | 0 =>
        obtain rfl := Option.some.inj hpost
        exact uploadAt_index (by decide +kernel) (by decide)
    | 1 =>
        obtain rfl := Option.some.inj hpost
        exact uploadAt_index (by decide +kernel) (by decide)
    | _ + 2 => cases hpost
  obtain ⟨before, last, horder, hissues, -⟩ :=
    (uploads_commute gifLibs oneCommand hparse command_msg (by decide) 9 hposts).1
      [uploadAt 49, uploadAt 48] (.swap _ _ [])
  exact ⟨hparse, before, last, horder, hissues⟩

end ChityChat.AttachmentOrder
