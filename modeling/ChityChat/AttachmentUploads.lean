import ChityChat.UploadTokens
import Mathlib.Data.Finset.Card

namespace ChityChat.AttachmentUploads

open CString JsonC MsgAttachments UnlinkConfinement UploadTokens

def fresh (msg : Msg) (fd : Int) : State :=
  ⟨⟨msg, msg.attachments.length % 2 ^ 32, 0⟩, fd, true, some fd, [], [], 0, 0, false⟩

def posted (libs : Libs) (msg : Msg) (fd : Int) (posts : List Post) : State :=
  posts.foldl (serverHandleUserUpload libs) (fresh msg fd)

/-- The attachment, of `n`, that a request stores a file for. -/
def uploadIndex (libs : Libs) (n : Nat) (post : Post) : Option Nat :=
  if post.saved ∧ (serverSaveFileImg libs post.upload.body).isSome then
    (post.upload.attachIndex.map strtoull).filter (fun i => i < n ∧ i ≠ 2 ^ 64 - 1)
  else none

def indexes (libs : Libs) (n : Nat) (posts : List Post) : List Nat :=
  posts.filterMap (uploadIndex libs n)

/-- The request behind `before` brings the count of uploads to the count of attachments, or past it,
and the insert is sent. -/
def Completes (libs : Libs) (n : Nat) (before : List Post) (post : Post) : Prop :=
  post.sent = true ∧ (uploadIndex libs n post).isSome ∧
    n % 2 ^ 32 ≤ (indexes libs n (before ++ [post])).length % 2 ^ 32

/-- Each attachment has the hash of a body that was uploaded for it. -/
def AllHashed (libs : Libs) (posts : List Post) (msg : Msg) : Prop :=
  ∀ i, i < msg.attachments.length → ∃ post ∈ posts,
    uploadIndex libs msg.attachments.length post = some i ∧
    ∃ attach, msg.attachments[i]? = some attach ∧
      attach.objectGet "hash" = .string (serverSha256Str libs post.upload.body)

variable {libs : Libs} {n i : Nat} {posts before : List Post} {post : Post} {x : State} {msg : Msg}
  {fd : Int}

theorem indexes_snoc (posts : List Post) (post : Post) :
    indexes libs n (posts ++ [post]) =
      indexes libs n posts ++ (uploadIndex libs n post).toList := by
  rw [indexes, List.filterMap_append]
  cases h : uploadIndex libs n post <;> simp [indexes, h]

theorem uploadIndex_lt (h : uploadIndex libs n post = some i) : i < n := by
  rw [uploadIndex] at h
  split at h
  · simp only [Option.filter_eq_some_iff, decide_eq_true_eq] at h
    exact h.2.1
  · cases h

structure Filled (libs : Libs) (n : Nat) (posts : List Post) (x : State) : Prop where
  listed : x.listed = true
  total : x.ut.total = n % 2 ^ 32
  current : x.ut.current = (indexes libs n posts).length % 2 ^ 32
  length : x.ut.msg.attachments.length = n
  objects : ∀ attach ∈ x.ut.msg.attachments, ∃ fields, attach = .object fields
  hashed : ∀ i ∈ indexes libs n posts, ∃ post ∈ posts, uploadIndex libs n post = some i ∧
    ∃ attach, x.ut.msg.attachments[i]? = some attach ∧
      attach.objectGet "hash" = .string (serverSha256Str libs post.upload.body)

theorem image_object {attach : JsonObject} (h : Image attach) :
    ∃ fields, attach = .object fields := by
  obtain ⟨type, htype, -⟩ := h
  cases attach with
  | object fields => exact ⟨fields, rfl⟩
  | _ => cases htype

theorem filled_fresh {userId : Nat} {payload : JsonObject}
    (h : serverGroupMsg userId payload = .ok msg) (fd : Int) :
    Filled libs msg.attachments.length [] (fresh msg fd) where
  listed := rfl
  total := rfl
  current := rfl
  length := rfl
  objects attach hattach := image_object (serverGroupMsg_image h attach hattach)
  hashed i hi := by simp [indexes] at hi

theorem Filled.attachIndexOf (h : Filled libs n posts x) (str : Option Bytes) (body : Bytes) :
    attachIndexOf x.ut ⟨str, body⟩ =
      ((str.map strtoull).filter (fun i => i < n ∧ i ≠ 2 ^ 64 - 1)).bind
        (fun i => x.ut.msg.attachments[i]?.map (fun attach => (i, attach))) := by
  cases str with
  | none => rfl
  | some str =>
      simp only [MsgAttachments.attachIndexOf]
      rw [Option.map_some, Option.filter_some]
      by_cases hmax : strtoull str = 2 ^ 64 - 1
      · rw [if_pos hmax, if_neg (by simpa using fun _ => hmax)]
        rfl
      · rw [if_neg hmax]
        by_cases hlt : strtoull str < n
        · have hget := List.getElem?_eq_getElem (h.length ▸ hlt)
          obtain ⟨fields, hobject⟩ := h.objects _ (List.mem_of_getElem? hget)
          rw [if_pos (by simpa using ⟨hlt, hmax⟩), Option.bind_some, hget, hobject]
          rfl
        · have hget : x.ut.msg.attachments[strtoull str]? = none :=
            List.getElem?_eq_none (by have := h.length; omega)
          rw [if_neg (by simp [hlt]), hget]
          rfl

theorem Filled.accepted_none (h : Filled libs n posts x) (hnone : uploadIndex libs n post = none) :
    accepted libs x post = none := by
  rw [accepted, serverHandleMsgAttach, h.attachIndexOf]
  rw [uploadIndex] at hnone
  cases hsaved : post.saved with
  | false => simp
  | true =>
      cases hfile : serverSaveFileImg libs post.upload.body with
      | none => simp
      | some file =>
          rw [if_pos ⟨hsaved, by simp [hfile]⟩] at hnone
          rw [hnone, if_pos rfl]
          rfl

def hashAt (ut : UploadToken) (i : Nat) (attach : JsonObject) (hash : Bytes) : UploadToken where
  msg :=
    { ut.msg with attachments := ut.msg.attachments.set i (attach.objectAdd "hash" (.string hash)) }
  total := ut.total
  current := (ut.current + 1) % 2 ^ 32

theorem Filled.accepted_some (h : Filled libs n posts x)
    (hsome : uploadIndex libs n post = some i) :
    ∃ attach file, x.ut.msg.attachments[i]? = some attach ∧ accepted libs x post =
      some ⟨i, file, hashAt x.ut i attach (serverSha256Str libs post.upload.body)⟩ := by
  have hlt := uploadIndex_lt hsome
  have hget := List.getElem?_eq_getElem (h.length ▸ hlt)
  rw [uploadIndex] at hsome
  split at hsome
  · rename_i hok
    obtain ⟨file, hfile⟩ := Option.isSome_iff_exists.mp hok.2
    refine ⟨_, file, hget, ?_⟩
    rw [accepted, if_pos hok.1, serverHandleMsgAttach, h.attachIndexOf, hsome, hfile,
      Option.bind_some, hget]
    rfl
  · cases hsome

theorem touch_eq (h : x.freed = 0) : touch x = x := by
  obtain ⟨ut, timerfd, listed, event, inserts, messages, removed, freed, misused⟩ := x
  obtain rfl : freed = 0 := h
  simp [touch]

theorem Filled.hashAt (h : Filled libs n posts x) (hsome : uploadIndex libs n post = some i)
    {attach : JsonObject} (hget : x.ut.msg.attachments[i]? = some attach) {x' : State}
    (hlisted : x'.listed = x.listed)
    (hut : x'.ut = hashAt x.ut i attach (serverSha256Str libs post.upload.body)) :
    Filled libs n (posts ++ [post]) x' where
  listed := hlisted.trans h.listed
  total := by
    rw [hut]
    exact h.total
  current := by
    rw [hut, indexes_snoc, hsome]
    simp [AttachmentUploads.hashAt, h.current]
  length := by
    rw [hut]
    simpa [AttachmentUploads.hashAt] using h.length
  objects := by
    intro attach' hmem
    rw [hut] at hmem
    rcases List.mem_or_eq_of_mem_set hmem with hmem | rfl
    · exact h.objects attach' hmem
    · obtain ⟨fields, rfl⟩ := h.objects attach (List.mem_of_getElem? hget)
      simp only [JsonObject.objectAdd]
      split <;> exact ⟨_, rfl⟩
  hashed := by
    intro j hj
    rw [indexes_snoc, hsome, Option.toList_some, List.mem_append, List.mem_singleton] at hj
    rw [hut]
    by_cases hji : j = i
    · subst hji
      obtain ⟨fields, rfl⟩ := h.objects attach (List.mem_of_getElem? hget)
      have hlt : j < x.ut.msg.attachments.length := (List.getElem?_eq_some_iff.mp hget).1
      exact ⟨post, by simp, hsome, _, List.getElem?_set_self hlt,
        JsonObject.objectGet_objectAdd _ _ _⟩
    · obtain ⟨post', hpost, hindex, attach', hget', hhash⟩ := h.hashed j (hj.resolve_right hji)
      refine ⟨post', List.mem_append_left _ hpost, hindex, attach', ?_, hhash⟩
      rw [← hget']
      exact List.getElem?_set_ne (Ne.symm hji)

theorem Filled.same (h : Filled libs n posts x) (hnone : uploadIndex libs n post = none) :
    Filled libs n (posts ++ [post]) x := by
  have hsnoc : indexes libs n (posts ++ [post]) = indexes libs n posts := by
    rw [indexes_snoc, hnone, Option.toList_none, List.append_nil]
  refine ⟨h.listed, h.total, hsnoc ▸ h.current, h.length, h.objects, ?_⟩
  intro j hj
  obtain ⟨post', hpost, hrest⟩ := h.hashed j (hsnoc ▸ hj)
  exact ⟨post', List.mem_append_left _ hpost, hrest⟩

theorem Filled.step (h : Filled libs n posts x) (hfreed : x.freed = 0) (post : Post) :
    let x' := serverHandleUserUpload libs x post
    Filled libs n (posts ++ [post]) x' ∧ x'.freed = 0 ∧
      (∀ insert ∈ x'.inserts, insert ∈ x.inserts ∨
        Completes libs n posts post ∧ insert.msg = x'.ut.msg) ∧
      (Completes libs n posts post → ⟨x'.ut.msg, .sent⟩ ∈ x'.inserts) := by
  intro x'
  have htouch := touch_eq hfreed
  cases hindex : uploadIndex libs n post with
  | none =>
      have hx' : x' = x := by
        simp only [x', serverHandleUserUpload, h.listed, if_true, h.accepted_none hindex, htouch]
      rw [hx']
      refine ⟨h.same hindex, hfreed, fun insert hinsert => .inl hinsert, ?_⟩
      rintro ⟨-, hsome, -⟩
      simp [hindex] at hsome
  | some i =>
      obtain ⟨attach, file, hget, haccept⟩ := h.accepted_some hindex
      let ut := AttachmentUploads.hashAt x.ut i attach (serverSha256Str libs post.upload.body)
      have hfilled {y : State} (hlisted : y.listed = x.listed) (hut : y.ut = ut) :
          Filled libs n (posts ++ [post]) y := h.hashAt hindex hget hlisted hut
      have hcount : Completes libs n posts post ↔ ut.total ≤ ut.current ∧ post.sent = true := by
        have hnext := hfilled (y := { x with ut := ut }) rfl rfl
        rw [Completes, hindex, ← hnext.total, ← hnext.current]
        simp [and_comm]
      have hx' : x' = if ut.total ≤ ut.current ∧ post.sent then
          { x with ut := ut, inserts := x.inserts ++ [⟨ut.msg, .sent⟩] }
          else { x with ut := ut } := by
        simp only [x', serverHandleUserUpload, h.listed, if_true, haccept, htouch]
        rfl
      rw [hcount]
      split at hx'
      · rename_i hissue
        rw [hx']
        refine ⟨hfilled rfl rfl, hfreed, ?_, fun _ => by simp⟩
        intro insert hinsert
        rcases List.mem_append.mp hinsert with hold | hnew
        · exact .inl hold
        · exact .inr ⟨hissue, by rw [List.mem_singleton.mp hnew]⟩
      · rename_i hissue
        rw [hx']
        exact ⟨hfilled rfl rfl, hfreed, fun insert hinsert => .inl hinsert,
          fun h => absurd h hissue⟩

theorem posted_snoc (posts : List Post) (post : Post) :
    posted libs msg fd (posts ++ [post]) =
      serverHandleUserUpload libs (posted libs msg fd posts) post := by
  rw [posted, List.foldl_append]
  rfl

variable (libs) in
theorem posted_filled {userId : Nat} {payload : JsonObject}
    (hmsg : serverGroupMsg userId payload = .ok msg) (fd : Int) (posts : List Post) :
    Filled libs msg.attachments.length posts (posted libs msg fd posts) ∧
      (posted libs msg fd posts).freed = 0 := by
  induction posts using List.reverseRecOn with
  | nil => exact ⟨filled_fresh hmsg fd, rfl⟩
  | append_singleton posts post ih =>
      rw [posted_snoc]
      obtain ⟨hfilled, hfreed, -, -⟩ := ih.1.step ih.2 post
      exact ⟨hfilled, hfreed⟩

theorem indexes_subset_range (posts : List Post) :
    (indexes libs n posts).toFinset ⊆ Finset.range n := by
  intro i hi
  obtain ⟨post, -, hindex⟩ := List.mem_filterMap.mp (List.mem_toFinset.mp hi)
  exact Finset.mem_range.mpr (uploadIndex_lt hindex)

theorem covers_iff_card (posts : List Post) :
    (∀ i, i < n → i ∈ indexes libs n posts) ↔ (indexes libs n posts).toFinset.card = n := by
  have hsub : (indexes libs n posts).toFinset ⊆ Finset.range n := indexes_subset_range posts
  constructor
  · intro h
    have heq : (indexes libs n posts).toFinset = Finset.range n :=
      Finset.Subset.antisymm hsub
        (fun i hi => List.mem_toFinset.mpr (h i (Finset.mem_range.mp hi)))
    rw [heq, Finset.card_range]
  · intro h i hi
    have heq := Finset.eq_of_subset_of_card_le hsub (by rw [Finset.card_range, h])
    exact List.mem_toFinset.mp (heq ▸ Finset.mem_range.mpr hi)

theorem AllHashed.mono {posts' : List Post} (h : AllHashed libs posts msg) (hsub : posts ⊆ posts') :
    AllHashed libs posts' msg := by
  intro i hi
  obtain ⟨post, hpost, hrest⟩ := h i hi
  exact ⟨post, hsub hpost, hrest⟩

theorem AllHashed.covers (h : AllHashed libs posts msg) :
    ∀ i, i < msg.attachments.length → i ∈ indexes libs msg.attachments.length posts := by
  intro i hi
  obtain ⟨post, hpost, hindex, -⟩ := h i hi
  exact List.mem_filterMap.mpr ⟨post, hpost, hindex⟩

theorem Filled.allHashed (h : Filled libs n posts x)
    (hcovers : ∀ i, i < n → i ∈ indexes libs n posts) : AllHashed libs posts x.ut.msg := by
  have hlen := h.length
  subst hlen
  exact fun i hi => h.hashed i (hcovers i hi)

/-- Every inserted message has its attachments, exactly if the uploads that complete the count are
for different attachments. -/
theorem inserted_allHashed_iff (libs : Libs) (userId : Nat) (payload : JsonObject) (msg : Msg)
    (hmsg : serverGroupMsg userId payload = .ok msg) (fd : Int) (posts : List Post) :
    (∀ pre, pre <+: posts → ∀ insert ∈ (posted libs msg fd pre).inserts,
        AllHashed libs pre insert.msg) ↔
      ∀ before post, before ++ [post] <+: posts →
        Completes libs msg.attachments.length before post →
        (indexes libs msg.attachments.length (before ++ [post])).toFinset.card =
          msg.attachments.length := by
  constructor
  · intro h before post hpre hcompletes
    obtain ⟨hfilled, hfreed⟩ := posted_filled libs hmsg fd before
    obtain ⟨hnext, -, -, hinsert⟩ := hfilled.step hfreed post
    have hmem := hinsert hcompletes
    rw [← posted_snoc] at hmem hnext
    have hcovers := (h _ hpre _ hmem).covers
    rw [hnext.length] at hcovers
    exact (covers_iff_card _).mp hcovers
  · intro h pre hpre
    induction pre using List.reverseRecOn with
    | nil => simp [posted, fresh]
    | append_singleton before post ih =>
        obtain ⟨hfilled, hfreed⟩ := posted_filled libs hmsg fd before
        obtain ⟨hnext, -, hinserts, -⟩ := hfilled.step hfreed post
        rw [posted_snoc]
        intro insert hinsert
        rcases hinserts insert hinsert with hold | ⟨hcompletes, heq⟩
        · have hbefore := ih ((List.prefix_append before [post]).trans hpre) insert hold
          exact hbefore.mono (List.subset_append_left _ _)
        · rw [heq]
          exact hnext.allHashed ((covers_iff_card _).mpr (h before post hpre hcompletes))

theorem exists_nth_upload {k : Nat} (hk : 0 < k)
    (hle : k ≤ (indexes libs n posts).length) :
    ∃ before post, before ++ [post] <+: posts ∧ (uploadIndex libs n post).isSome ∧
      (indexes libs n (before ++ [post])).length = k := by
  induction posts using List.reverseRecOn with
  | nil =>
      simp [indexes] at hle
      omega
  | append_singleton posts post ih =>
      by_cases hold : k ≤ (indexes libs n posts).length
      · obtain ⟨before, post', hpre, hrest⟩ := ih hold
        exact ⟨before, post', hpre.trans (List.prefix_append _ _), hrest⟩
      · rw [indexes_snoc, List.length_append] at hle
        refine ⟨posts, post, List.prefix_rfl, ?_, ?_⟩
        · cases h : uploadIndex libs n post with
          | none =>
              simp only [h, Option.toList_none, List.length_nil] at hle
              omega
          | some i => rfl
        · rw [indexes_snoc, List.length_append]
          have hone : (uploadIndex libs n post).toList.length ≤ 1 := by
            cases uploadIndex libs n post <;> simp
          omega

theorem card_iff_nodup (hn : 0 < n) (hsmall : n < 2 ^ 32)
    (hsent : ∀ post ∈ posts, post.sent = true) :
    (∀ before post, before ++ [post] <+: posts → Completes libs n before post →
        (indexes libs n (before ++ [post])).toFinset.card = n) ↔
      (n ≤ (indexes libs n posts).length → ((indexes libs n posts).take n).Nodup) := by
  have hprefix {before : List Post} (hpre : before <+: posts)
      (hlen : n ≤ (indexes libs n before).length) :
      (indexes libs n before).take n = (indexes libs n posts).take n := by
    obtain ⟨rest, rfl⟩ := hpre
    have happend : indexes libs n (before ++ rest) = indexes libs n before ++ indexes libs n rest :=
      List.filterMap_append
    rw [happend, List.take_append_of_le_length hlen]
  constructor
  · intro h hle
    obtain ⟨before, post, hpre, hsome, hlen⟩ := exists_nth_upload hn hle
    have hpost : post ∈ posts := hpre.subset (by simp)
    have hcard := h before post hpre ⟨hsent post hpost, hsome, by rw [hlen]⟩
    rw [← hprefix hpre (by rw [hlen]), List.take_of_length_le (by rw [hlen])]
    exact Multiset.coe_nodup.mp
      (Multiset.toFinset_card_eq_card_iff_nodup.mp (hcard.trans hlen.symm))
  · intro h before post hpre hcompletes
    have hlen : n ≤ (indexes libs n (before ++ [post])).length := by
      have hcount := hcompletes.2.2
      rw [Nat.mod_eq_of_lt hsmall] at hcount
      exact hcount.trans (Nat.mod_le _ _)
    have htotal : n ≤ (indexes libs n posts).length :=
      hlen.trans (hpre.sublist.filterMap _).length_le
    have hnodup := h htotal
    rw [← hprefix hpre hlen] at hnodup
    apply Nat.le_antisymm
    · simpa using Finset.card_le_card (indexes_subset_range (before ++ [post]))
    · have hcard := List.toFinset_card_of_nodup hnodup
      rw [List.length_take_of_le hlen] at hcard
      exact hcard.ge.trans (Finset.card_le_card (fun i hi =>
        List.mem_toFinset.mpr (List.mem_of_mem_take (List.mem_toFinset.mp hi))))

def twoAttachments : Msg := ⟨1, 1, [], [[], []].map attachment⟩

def uploadAt (digit : UInt8) : Post := ⟨⟨some [digit], gif⟩, true, true⟩

theorem twoAttachments_msg :
    serverGroupMsg 1 (groupMsg ([[], []].map attachment)) = .ok twoAttachments :=
  serverGroupMsg_attachments [[], []]

theorem uploadAt_index {digit : UInt8} (h : strtoull [digit] = i) (hi : i < 2) :
    uploadIndex gifLibs 2 (uploadAt digit) = some i := by
  have hrange : decide (i < 2 ∧ i ≠ 2 ^ 64 - 1) = true := decide_eq_true (by omega)
  have hsaves : (serverSaveFileImg gifLibs gif).isSome := by
    rw [gif_saved]
    rfl
  rw [uploadIndex, uploadAt, if_pos ⟨rfl, hsaves⟩, Option.map_some, h, Option.filter_some,
    if_pos hrange]

theorem indexes_both : indexes gifLibs 2 [uploadAt 48, uploadAt 49] = [0, 1] := by
  have h0 := uploadAt_index (show strtoull [48] = 0 by decide +kernel) (by decide)
  have h1 := uploadAt_index (show strtoull [49] = 1 by decide +kernel) (by decide)
  simp [indexes, h0, h1]

theorem indexes_twice : indexes gifLibs 2 [uploadAt 48, uploadAt 48] = [0, 0] := by
  have h0 := uploadAt_index (show strtoull [48] = 0 by decide +kernel) (by decide)
  simp [indexes, h0]

theorem inserted_allHashed_both :
    serverGroupMsg 1 (groupMsg ([[], []].map attachment)) = .ok twoAttachments ∧
    ∀ pre, pre <+: [uploadAt 48, uploadAt 49] →
      ∀ insert ∈ (posted gifLibs twoAttachments 9 pre).inserts,
        AllHashed gifLibs pre insert.msg := by
  refine ⟨twoAttachments_msg,
    (inserted_allHashed_iff gifLibs 1 _ twoAttachments twoAttachments_msg 9 _).mpr ?_⟩
  refine (card_iff_nodup (by decide) (by decide) (by simp [uploadAt])).mpr (fun _ => ?_)
  rw [show twoAttachments.attachments.length = 2 from rfl, indexes_both]
  decide

/-- The first attachment is uploaded twice. -/
theorem inserted_without_second : ∃ insert ∈
    (posted gifLibs twoAttachments 9 [uploadAt 48, uploadAt 48]).inserts,
      ¬ AllHashed gifLibs [uploadAt 48, uploadAt 48] insert.msg := by
  obtain ⟨hfilled, hfreed⟩ := posted_filled gifLibs twoAttachments_msg 9 [uploadAt 48]
  obtain ⟨hnext, -, -, hinsert⟩ := hfilled.step hfreed (uploadAt 48)
  have hsome : (uploadIndex gifLibs 2 (uploadAt 48)).isSome := by
    rw [uploadAt_index (show strtoull [48] = 0 by decide +kernel) (by decide)]
    rfl
  have hcompletes : Completes gifLibs 2 [uploadAt 48] (uploadAt 48) := by
    refine ⟨rfl, hsome, ?_⟩
    rw [List.singleton_append, indexes_twice]
    decide
  refine ⟨_, hinsert hcompletes, fun hall => ?_⟩
  have hcovers := hall.covers
  rw [hnext.length] at hcovers
  have hone := hcovers 1 (by decide)
  rw [show twoAttachments.attachments.length = 2 from rfl, indexes_twice] at hone
  simp at hone

end ChityChat.AttachmentUploads
