import ChityChat.MsgAttachments

namespace ChityChat.UnlinkConfinement

open CString JsonC Transition MsgAttachments
open UserFile (Conf DbuserFile UserFiles Op InFlight serverMimeTypeDir
  insertUserfiles deleteUserfile userfileRefcount)

variable {W : Type} [DecidableEq W] {libs : Libs} {conf : Conf} {hashed : List Bytes}

def Confined (libs : Libs) (conf : Conf) (hashed : List Bytes) (path : List Char) : Prop :=
  ∃ dir ∈ [conf.imgDir, conf.vidDir, conf.fileDir], ∃ data ∈ hashed,
    path = dir.toList ++ '/' :: (ofBytes (serverSha256Str libs data)).toList

instance (libs : Libs) (conf : Conf) (hashed : List Bytes) (path : List Char) :
    Decidable (Confined libs conf hashed path) :=
  inferInstanceAs (Decidable (∃ dir ∈ _, ∃ data ∈ _, _))

/-- An accepted upload that brings the counter to the number of attachments leaves no attachment
that came with a hash and was never uploaded. -/
def HashesUploaded (libs : Libs) (s : State W) : Action W → Prop
  | .upload _ token upload => ∀ ut index attach, s.tokens token = some ut →
      attachIndexOf ut upload = some (index, attach) →
      (serverSaveFileImg libs upload.body).isSome → ut.total ≤ (ut.current + 1) % 2 ^ 32 →
      ∀ i attach, ut.msg.attachments[i]? = some attach → attach.objectGet "hash" ≠ .null →
        i = index ∨ i ∈ s.uploaded token
  | _ => True

def Image (attach : JsonObject) : Prop :=
  ∃ type, attach.objectGet "type" = .string type ∧ utf8 "image/" <+: cstr type

def Hashed (libs : Libs) (hashed : List Bytes) (attach : JsonObject) : Prop :=
  ∃ data ∈ hashed, attach.objectGet "hash" = .string (serverSha256Str libs data)

def Clean (libs : Libs) (hashed : List Bytes) (attach : JsonObject) : Prop :=
  Image attach ∧ (attach.objectGet "hash" = .null ∨ Hashed libs hashed attach)

def FileOk (libs : Libs) (conf : Conf) (hashed : List Bytes) (file : DbuserFile) : Prop :=
  serverMimeTypeDir conf file.mimeType = conf.imgDir ∧
    ∃ data ∈ hashed, file.hash = ofBytes (serverSha256Str libs data)

def OpOk (libs : Libs) (conf : Conf) (hashed : List Bytes) (op : Op) : Prop :=
  ∀ file, op = .deleteFile file → FileOk libs conf hashed file

theorem hexDigit_ne_zero {n : Nat} (h : n < 16) : hexDigit n ≠ 0 := by
  revert n
  decide +kernel

theorem serverSha256Str_length (libs : Libs) (data : Bytes) :
    (serverSha256Str libs data).length = 2 * sha256DigestLength := by
  rw [serverSha256Str, List.length_flatMap]
  simp [(libs.sha256 data).length_eq, Nat.mul_comm]

theorem cstr_serverSha256Str (libs : Libs) (data : Bytes) :
    cstr (serverSha256Str libs data) = serverSha256Str libs data := by
  apply cstr_eq_self
  rw [serverSha256Str, List.mem_flatMap]
  rintro ⟨b, -, hb⟩
  have hlt := b.toNat_lt
  simp only [List.mem_cons, List.not_mem_nil, or_false] at hb
  rcases hb with hb | hb
  · exact hexDigit_ne_zero (by omega) hb.symm
  · exact hexDigit_ne_zero (by omega) hb.symm

theorem serverMimeTypeDir_image (conf : Conf) {type : Bytes} (h : utf8 "image/" <+: type) :
    serverMimeTypeDir conf (ofBytes (type.take dbMimeTypeLen)) = conf.imgDir := by
  have htake : utf8 "image/" <+: type.take dbMimeTypeLen := by
    rw [List.prefix_take_iff]
    exact ⟨h, by decide +kernel⟩
  have himage : (utf8 "image/").map (fun c => Char.ofNat c.toNat) = "image/".toList := by
    decide +kernel
  have hinfix : "image/".toList <:+: (ofBytes (type.take dbMimeTypeLen)).toList := by
    have hmap := (htake.map (fun c => Char.ofNat c.toNat)).isInfix
    rwa [himage, ← String.toList_ofList (l := (type.take dbMimeTypeLen).map _)] at hmap
  exact if_pos hinfix

theorem attachFile_ok {attach : JsonObject} {file : DbuserFile} (h : Clean libs hashed attach)
    (hfile : attachFile libs attach = some file) : FileOk libs conf hashed file := by
  obtain ⟨⟨type, htype, himage⟩, hnull | ⟨data, hdata, hhash⟩⟩ := h
  · simp [attachFile, hnull, getString] at hfile
  · have hlen := serverSha256Str_length libs data
    have hshort : (serverSha256Str libs data).length < dbPfpHashMax := by
      rw [hlen]
      decide
    rw [attachFile, hhash, htype] at hfile
    simp only [getString, cstr_serverSha256Str, Option.bind_eq_bind, Option.bind_some,
      List.take_of_length_le hshort.le, runOn_of_lt hshort, Option.bind_eq_some_iff,
      Option.some.injEq] at hfile
    obtain ⟨name, -, rfl⟩ := hfile
    exact ⟨serverMimeTypeDir_image conf himage, data, hdata, rfl⟩

theorem Hashed.mono {hashed' : List Bytes} {attach : JsonObject} (h : Hashed libs hashed attach)
    (hsub : hashed ⊆ hashed') : Hashed libs hashed' attach := by
  obtain ⟨data, hdata, heq⟩ := h
  exact ⟨data, hsub hdata, heq⟩

theorem Clean.mono {hashed' : List Bytes} {attach : JsonObject} (h : Clean libs hashed attach)
    (hsub : hashed ⊆ hashed') : Clean libs hashed' attach :=
  ⟨h.1, h.2.imp_right (fun hh => hh.mono hsub)⟩

theorem OpOk.mono {hashed' : List Bytes} {op : Op} (h : OpOk libs conf hashed op)
    (hsub : hashed ⊆ hashed') : OpOk libs conf hashed' op := by
  intro file hop
  obtain ⟨hdir, data, hdata, heq⟩ := h file hop
  exact ⟨hdir, data, hsub hdata, heq⟩

theorem serverVerifyMsgAttachments_image {attachments : List JsonObject}
    (h : serverVerifyMsgAttachments attachments = .ok ()) :
    ∀ attach ∈ attachments, Image attach := by
  intro attach hmem
  have hattach := forM_ok h attach hmem
  simp only [bind_ok, stringField_ok, ite_eq_left_iff, reduceCtorEq, imp_false, not_not] at hattach
  obtain ⟨-, -, type, htype, himage⟩ := hattach
  exact ⟨type, htype, himage⟩

theorem serverGroupMsg_image {userId : Nat} {payload : JsonObject} {msg : Msg}
    (h : serverGroupMsg userId payload = .ok msg) : ∀ attach ∈ msg.attachments, Image attach := by
  simp only [serverGroupMsg, bind_ok, Except.ok.injEq] at h
  obtain ⟨groupId, -, content, -, attachments, -, u, hverify, rfl⟩ := h
  exact serverVerifyMsgAttachments_image hverify

theorem attachIndexOf_getElem? {ut : UploadToken} {upload : Upload} {index : Nat}
    {attach : JsonObject} (h : attachIndexOf ut upload = some (index, attach)) :
    ut.msg.attachments[index]? = some attach := by
  rw [attachIndexOf] at h
  split at h
  · cases h
  · dsimp only at h
    split at h
    · cases h
    · split at h
      · cases h
      · cases h
      · rename_i hget
        rw [Option.some.injEq, Prod.mk.injEq] at h
        obtain ⟨rfl, rfl⟩ := h
        exact hget

theorem serverHandleMsgAttach_some {ut : UploadToken} {upload : Upload} {a : Accepted}
    (h : serverHandleMsgAttach libs ut upload = some a) :
    ∃ attach, attachIndexOf ut upload = some (a.index, attach) ∧
      serverSaveFileImg libs upload.body = some a.file ∧
      a.ut.msg.attachments = ut.msg.attachments.set a.index
        (attach.objectAdd "hash" (.string (serverSha256Str libs upload.body))) ∧
      a.ut.total = ut.total ∧ a.ut.current = (ut.current + 1) % 2 ^ 32 := by
  rw [serverHandleMsgAttach] at h
  split at h
  · rename_i index attach file hindex hfile
    rw [Option.some.injEq] at h
    subst h
    exact ⟨attach, hindex, hfile, rfl, rfl, rfl⟩
  · cases h

theorem Image.objectAdd {attach : JsonObject} (h : Image attach) (value : JsonObject) :
    Image (attach.objectAdd "hash" value) := by
  obtain ⟨type, htype, himage⟩ := h
  exact ⟨type, by rw [JsonObject.objectGet_objectAdd_of_ne _ (by decide), htype], himage⟩

theorem Image.replaced {attach : JsonObject} (h : Image attach) {data : Bytes}
    (hdata : data ∈ hashed) :
    Hashed libs hashed (attach.objectAdd "hash" (.string (serverSha256Str libs data))) := by
  obtain ⟨type, htype, -⟩ := h
  refine ⟨data, hdata, ?_⟩
  cases attach with
  | object fields => exact JsonObject.objectGet_objectAdd fields _ _
  | null | boolean | int | double | string | array => cases htype

/-- What a run keeps when hashes are uploaded. -/
structure Kept (libs : Libs) (conf : Conf) (s : State W) : Prop where
  image : ∀ token ut, s.tokens token = some ut → ∀ attach ∈ ut.msg.attachments, Image attach
  uploaded : ∀ token ut, s.tokens token = some ut → ∀ i ∈ s.uploaded token,
    ∀ attach, ut.msg.attachments[i]? = some attach → Hashed libs s.hashed attach
  sentMsgs : ∀ e ∈ s.sentMsgs, ∀ attach ∈ e.msg.attachments, Clean libs s.hashed attach
  messages : ∀ m ∈ s.messages, ∀ attach ∈ m.2.attachments, Clean libs s.hashed attach
  deleted : ∀ e ∈ s.deleted, ∀ attach ∈ e.flatten, Clean libs s.hashed attach
  sent : ∀ w, ∀ op ∈ s.store.sent w, OpOk libs conf s.hashed op
  inFlight : ∀ e ∈ s.store.inFlight, OpOk libs conf s.hashed e.op

variable {s s' : State W} {a : Action W}

omit [DecidableEq W] in
theorem kept_initial (h : Initial s) : Kept libs conf s where
  image token ut hut := by simp [h.tokens] at hut
  uploaded token ut hut := by simp [h.tokens] at hut
  sentMsgs := by simp [h.sentMsgs]
  messages := by simp [h.messages]
  deleted := by simp [h.deleted]
  sent w := by simp [h.store.2 w]
  inFlight := by simp [h.store.1]

theorem update_eq_some {tokens : Nat → Option UploadToken} {token t : Nat} {ut ut' : UploadToken}
    (h : Function.update tokens token (some ut) t = some ut') :
    t = token ∧ ut' = ut ∨ t ≠ token ∧ tokens t = some ut' := by
  by_cases ht : t = token
  · subst ht
    rw [Function.update_self, Option.some.injEq] at h
    exact Or.inl ⟨rfl, h.symm⟩
  · rw [Function.update_of_ne ht] at h
    exact Or.inr ⟨ht, h⟩

omit [DecidableEq W] in
theorem Kept.newMsg (h : Kept libs conf s) {msg : Msg} (token : Nat)
    (himage : ∀ attach ∈ msg.attachments, Image attach) : Kept libs conf (newMsg s token msg) := by
  rw [MsgAttachments.newMsg]
  split
  · rename_i hnil
    refine { h with sentMsgs := ?_ }
    intro e he
    rcases List.mem_append.mp he with he | he
    · exact h.sentMsgs e he
    · obtain rfl := List.mem_singleton.mp he
      simp [hnil]
  · split
    · exact h
    · refine { h with image := ?_, uploaded := ?_ }
      · intro t ut hut
        rcases update_eq_some hut with ⟨-, rfl⟩ | ⟨-, hut⟩
        · exact himage
        · exact h.image t ut hut
      · intro t ut hut i hi
        rcases update_eq_some hut with ⟨rfl, -⟩ | ⟨ht, hut⟩
        · simp at hi
        · have hold : i ∈ s.uploaded t := by simpa [Function.update_of_ne ht] using hi
          exact h.uploaded t ut hut i hold

theorem sent_send {P : Op → Prop} {store : UserFile.Store W}
    (h : ∀ w, ∀ op ∈ store.sent w, P op) (w : W) {ops : List Op} (hops : ∀ op ∈ ops, P op) :
    ∀ v, ∀ op ∈ (send store w ops).sent v, P op := by
  intro v op hop
  rcases UserFile.mem_update hop with hop | hop
  · exact h v op hop
  · rcases List.mem_append.mp hop with hop | hop
    · exact h w op hop
    · exact hops op hop

section Accepted

variable {w : W} {token : Nat} {ut : UploadToken} {upload : Upload} {accepted : Accepted}
  (hut : s.tokens token = some ut)
  (haccept : serverHandleMsgAttach libs ut upload = some accepted)

include hut haccept

omit [DecidableEq W] in
theorem Kept.acceptedImage (h : Kept libs conf s) :
    ∀ x ∈ accepted.ut.msg.attachments, Image x := by
  obtain ⟨attach, hindex, -, hattachments, -⟩ := serverHandleMsgAttach_some haccept
  intro x hx
  rw [hattachments] at hx
  rcases List.mem_or_eq_of_mem_set hx with hx | rfl
  · exact h.image token ut hut x hx
  · exact (h.image token ut hut attach
      (List.mem_of_getElem? (attachIndexOf_getElem? hindex))).objectAdd _

omit [DecidableEq W] in
theorem Kept.acceptedUploaded (h : Kept libs conf s) :
    ∀ i ∈ accepted.index :: s.uploaded token, ∀ x, accepted.ut.msg.attachments[i]? = some x →
      Hashed libs (upload.body :: s.hashed) x := by
  obtain ⟨attach, hindex, -, hattachments, -⟩ := serverHandleMsgAttach_some haccept
  have hget := attachIndexOf_getElem? hindex
  intro i hi x hx
  rw [hattachments] at hx
  by_cases hia : accepted.index = i
  · subst hia
    rw [List.getElem?_set_self (List.getElem?_eq_some_iff.mp hget).1, Option.some.injEq] at hx
    rw [← hx]
    exact (h.image token ut hut attach (List.mem_of_getElem? hget)).replaced List.mem_cons_self
  · rw [List.getElem?_set_ne hia] at hx
    have hold : i ∈ s.uploaded token := (List.mem_cons.mp hi).resolve_left (Ne.symm hia)
    exact (h.uploaded token ut hut i hold x hx).mono (List.subset_cons_self ..)

omit [DecidableEq W] in
theorem Kept.acceptedClean (h : Kept libs conf s)
    (hcareful : HashesUploaded libs s (.upload w token upload))
    (hfull : accepted.ut.total ≤ accepted.ut.current) :
    ∀ x ∈ accepted.ut.msg.attachments, Clean libs (upload.body :: s.hashed) x := by
  obtain ⟨attach, hindex, hfile, hattachments, htotal, hcurrent⟩ :=
    serverHandleMsgAttach_some haccept
  intro x hx
  refine ⟨h.acceptedImage hut haccept x hx, ?_⟩
  obtain ⟨i, hi⟩ := List.mem_iff_getElem?.mp hx
  by_cases hnull : x.objectGet "hash" = .null
  · exact Or.inl hnull
  · refine Or.inr (h.acceptedUploaded hut haccept i ?_ x hi)
    rw [htotal, hcurrent] at hfull
    by_cases hia : accepted.index = i
    · simp [hia]
    · rw [hattachments, List.getElem?_set_ne hia] at hi
      have hold := hcareful ut accepted.index attach hut hindex (by simp [hfile]) hfull i x hi hnull
      exact List.mem_cons_of_mem _ (hold.resolve_left (Ne.symm hia))

theorem Kept.accept (h : Kept libs conf s)
    (hcareful : HashesUploaded libs s (.upload w token upload)) :
    Kept libs conf (accept s w token upload.body accepted) := by
  have hsub : s.hashed ⊆ upload.body :: s.hashed := List.subset_cons_self ..
  refine ⟨?_, ?_, ?_, ?_, ?_, ?_, ?_⟩
  · intro t u hu
    rcases update_eq_some hu with ⟨-, rfl⟩ | ⟨-, hu⟩
    · exact h.acceptedImage hut haccept
    · exact h.image t u hu
  · intro t u hu i hi x hx
    rcases update_eq_some hu with ⟨rfl, rfl⟩ | ⟨ht, hu⟩
    · have hnew : i ∈ accepted.index :: s.uploaded t := by
        simpa [MsgAttachments.accept] using hi
      exact h.acceptedUploaded hut haccept i hnew x hx
    · have hold : i ∈ s.uploaded t := by
        simpa [MsgAttachments.accept, Function.update_of_ne ht] using hi
      exact (h.uploaded t u hu i hold x hx).mono hsub
  · intro e he x hx
    rw [MsgAttachments.accept] at he
    dsimp only at he
    split at he
    · rename_i hfull
      rcases List.mem_append.mp he with he | he
      · exact (h.sentMsgs e he x hx).mono hsub
      · obtain rfl := List.mem_singleton.mp he
        exact h.acceptedClean hut haccept hcareful hfull x hx
    · exact (h.sentMsgs e he x hx).mono hsub
  · intro m hm x hx
    exact (h.messages m hm x hx).mono hsub
  · intro e he x hx
    exact (h.deleted e he x hx).mono hsub
  · apply sent_send
    · intro v op hop
      exact (h.sent v op hop).mono hsub
    · rw [List.forall_mem_singleton]
      intro file hdelete
      cases hdelete
  · intro e he
    exact (h.inFlight e he).mono hsub

end Accepted

theorem mapM_some {α β : Type} {f : α → Option β} {l : List α} {ys : List β}
    (h : l.mapM f = some ys) : ∀ y ∈ ys, ∃ x ∈ l, f x = some y := by
  induction l generalizing ys with
  | nil =>
      rw [List.mapM_nil, Option.pure_def, Option.some.injEq] at h
      simp [← h]
  | cons x l ih =>
      rw [List.mapM_cons] at h
      simp only [Option.bind_eq_bind, Option.bind_eq_some_iff, Option.pure_def,
        Option.some.injEq] at h
      obtain ⟨y, hy, zs, hzs, rfl⟩ := h
      rw [List.forall_mem_cons]
      refine ⟨⟨x, List.mem_cons_self, hy⟩, ?_⟩
      intro z hz
      obtain ⟨x', hx', hf⟩ := ih hzs z hz
      exact ⟨x', List.mem_cons_of_mem _ hx', hf⟩

omit [DecidableEq W] in
theorem Kept.forget (h : Kept libs conf s) (token : Nat) (inserted : List Nat) :
    Kept libs conf { s with tokens := Function.update s.tokens token none, inserted } := by
  have hold : ∀ t ut, Function.update s.tokens token none t = some ut → s.tokens t = some ut := by
    intro t ut hut
    by_cases ht : t = token
    · simp [ht] at hut
    · rwa [Function.update_of_ne ht] at hut
  exact { h with
    image := fun t ut hut => h.image t ut (hold t ut hut)
    uploaded := fun t ut hut => h.uploaded t ut (hold t ut hut) }

omit [DecidableEq W] in
theorem Kept.delete (h : Kept libs conf s) (keep : Nat × Msg → Bool) (owners : Nat → Option Nat)
    {attachments : List (List JsonObject)}
    (hdel : ∀ as ∈ attachments, ∃ m ∈ s.messages, m.2.attachments = as) :
    Kept libs conf { s with
      owners := owners
      messages := s.messages.filter keep
      deleted := s.deleted ++ [attachments] } := by
  refine { h with messages := ?_, deleted := ?_ }
  · intro m hm
    exact h.messages m (List.mem_of_mem_filter hm)
  · rw [List.forall_mem_append, List.forall_mem_singleton]
    refine ⟨h.deleted, ?_⟩
    intro attach hattach
    obtain ⟨as, has, hattach⟩ := List.mem_flatten.mp hattach
    obtain ⟨m, hm, rfl⟩ := hdel as has
    exact h.messages m hm attach hattach

theorem Kept.step (h : Kept libs conf s) (hstep : Step libs conf s a s')
    (hcareful : HashesUploaded libs s a) : Kept libs conf s' := by
  cases hstep with
  | groupMsg token hmsg => exact h.newMsg token (serverGroupMsg_image hmsg)
  | upload w token hut haccept => exact h.accept hut haccept hcareful
  | expire token => exact h.forget token s.inserted
  | @insertMsg before after e rejected hs =>
      have hall := h.sentMsgs
      rw [hs, List.forall_mem_append, List.forall_mem_cons] at hall
      refine { h with sentMsgs := ?_, messages := ?_ }
      · rw [List.forall_mem_append]
        exact ⟨hall.1, hall.2.2⟩
      · cases rejected with
        | true => exact h.messages
        | false =>
            rw [if_neg (by decide), List.forall_mem_append, List.forall_mem_singleton]
            exact ⟨h.messages, hall.2.1⟩
  | @insertMsgAfter token _ => exact h.forget token _
  | deleteMsg hmsg _ =>
      apply h.delete
      intro as has
      rw [List.mem_singleton] at has
      exact ⟨_, hmsg, has.symm⟩
  | deleteGroup _ =>
      apply h.delete
      intro as has
      obtain ⟨m, hm, rfl⟩ := List.mem_map.mp (List.mem_of_mem_filter has)
      exact ⟨m, List.mem_of_mem_filter hm, rfl⟩
  | @deleteAttachments w before after e files hs hfiles =>
      have hall := h.deleted
      rw [hs, List.forall_mem_append, List.forall_mem_cons] at hall
      have hops : ∀ op ∈ files.map Op.deleteFile, OpOk libs conf s.hashed op := by
        intro op hop file hdelete
        obtain ⟨f, hf, rfl⟩ := List.mem_map.mp hop
        obtain rfl : f = file := by simpa using hdelete
        obtain ⟨attach, hattach, hfile⟩ := mapM_some hfiles f hf
        exact attachFile_ok (hall.2.1 attach hattach) hfile
      refine { h with sent := sent_send h.sent w hops, deleted := ?_ }
      rw [List.forall_mem_append]
      exact ⟨hall.1, hall.2.2⟩
  | crash _ _ => exact { h with }
  | file hsent hfile =>
      obtain ⟨hs, hf⟩ := hfile.ops h.sent h.inFlight
        (fun v op hsend => absurd hsend (hsent v op))
      exact { h with sent := hs, inFlight := hf }

theorem reachable_kept (h : Reachable Initial
    (fun s a s' => Running libs conf s a s' ∧ HashesUploaded libs s a) s) : Kept libs conf s :=
  h.invariant (fun _ => kept_initial) (fun _ _ _ hk hstep => hk.step hstep.1.2 hstep.2)

theorem unlinkPath_confined {dirs : Dirs} {file : DbuserFile}
    (h : FileOk libs dirs.toConf hashed file) :
    Confined libs dirs.toConf hashed (unlinkPath dirs.toConf file) := by
  obtain ⟨hdir, data, hdata, hhash⟩ := h
  refine ⟨dirs.imgDir, by simp, data, hdata, ?_⟩
  have hlen := serverSha256Str_length libs data
  have hfits := dirs.imgFits
  rw [unlinkPath, hdir, hhash, List.take_of_length_le]
  rw [← String.length_toList] at hfits
  simp only [ofBytes, String.toList_ofList, List.length_append, List.length_cons, List.length_map,
    hlen, pathMax, sha256DigestLength, configPathLen] at hfits ⊢
  omega

/-- In every run in which hashes are uploaded, only hashes of uploads in a configured directory are
unlinked. -/
theorem unlinks_confined {dirs : Dirs} (h : Reachable Initial
    (fun s a s' => Running libs dirs.toConf s a s' ∧ HashesUploaded libs s a) s)
    {path : List Char} (hu : Unlinks dirs.toConf s a path) :
    Confined libs dirs.toConf s.hashed path := by
  cases hu with
  | exec hs _ _ =>
      have hall := (reachable_kept h).inFlight
      rw [hs, List.forall_mem_append, List.forall_mem_cons] at hall
      exact unlinkPath_confined (hall.2.1 _ rfl)

section Runs

variable {R : State Unit → Action Unit → State Unit → Prop} {s : State Unit}

theorem counted (hR : ∀ s a s', Running libs conf s (.file a) s' → R s (.file a) s')
    (h : Reachable Initial R s) (hrun : s.crashed = false) {op : Op} {later : List Op}
    (hsent : s.store.sent () = op :: later) (hidle : s.store.inFlight = []) :
    Reachable Initial R { s with store := ⟨op.update s.store.rows, s.store.files, fun _ => later,
      [⟨(), op, true, some (userfileRefcount (op.update s.store.rows) op.file.hash)⟩]⟩ } := by
  have hupdate := @UserFile.Step.update Unit _ conf _ () op later false hsent (by simp [hidle])
  have hconst : Function.update s.store.sent () later = fun _ => later := by
    funext u
    simp
  rw [hidle, hconst] at hupdate
  have hcount := @UserFile.Step.refcount Unit _ conf
    ⟨op.update s.store.rows, s.store.files, fun _ => later, [⟨(), op, true, none⟩]⟩ [] []
    ⟨(), op, true, none⟩ rfl rfl
  have h1 := h.next (hR _ _ _ ⟨hrun, .file (by simp) hupdate⟩)
  exact h1.next (hR _ _ _ ⟨hrun, .file (by simp) hcount⟩)

theorem settled (hR : ∀ s a s', Running libs conf s (.file a) s' → R s (.file a) s')
    (h : Reachable Initial R s) (hrun : s.crashed = false) {op : Op} {later : List Op}
    (hsent : s.store.sent () = op :: later) (hidle : s.store.inFlight = []) :
    ∃ files, Reachable Initial R
      { s with store := ⟨op.update s.store.rows, files, fun _ => later, []⟩ } := by
  have hexec := @UserFile.Step.exec Unit _ conf ⟨op.update s.store.rows, s.store.files,
    fun _ => later, [⟨(), op, true, some (userfileRefcount (op.update s.store.rows) op.file.hash)⟩]⟩
    [] [] _ _ rfl (by simp) rfl
  have h1 := counted hR h hrun hsent hidle
  exact ⟨_, h1.next (hR _ _ _ ⟨hrun, .file (by simp) hexec⟩)⟩

theorem deletes (hR : ∀ s a s', Running libs conf s (.file a) s' → R s (.file a) s')
    (h : Reachable Initial R s) (hrun : s.crashed = false) (file : DbuserFile) {later : List Op}
    (hsent : s.store.sent () = .deleteFile file :: later) (hidle : s.store.inFlight = [])
    (rows : UserFiles) (hrows : s.store.rows = rows)
    (hzero : userfileRefcount (deleteUserfile rows file.hash) file.hash ≤ 0) :
    ∃ s', Reachable Initial R s' ∧ s'.hashed = s.hashed ∧
      Unlinks conf s' (.file (.exec ())) (unlinkPath conf file) := by
  subst hrows
  exact ⟨_, counted hR h hrun hsent hidle, rfl,
    @Unlinks.exec Unit conf _ [] [] () file _ rfl (by simp) hzero⟩

end Runs

def gif : Bytes := utf8 "GIF89a"

def gifDigest : Digest where
  bytes := [97, 15, 90, 228, 215, 110, 51, 38, 54, 161, 123, 211, 87, 253, 108, 233,
    144, 41, 49, 106, 153, 211, 32, 40, 13, 77, 119, 167, 70, 191, 41, 232]
  length_eq := rfl

def gifLibs : Libs := ⟨fun _ => gifDigest, fun _ => some (utf8 "image/gif"), fun _ => []⟩

def gifHash : JsonObject := .string (serverSha256Str gifLibs gif)

def gifFile : DbuserFile :=
  ⟨ofBytes (serverSha256Str gifLibs gif), ofBytes ((utf8 "image/gif").take dbMimeTypeLen)⟩

def dirs : Dirs := ⟨⟨"img", "vid", "file"⟩, by decide +kernel, by decide +kernel, by decide +kernel⟩

def start : State Unit :=
  ⟨⟨fun _ => none, fun _ _ => false, fun _ => [], []⟩, fun g => if g = 1 then some 1 else none,
    fun _ => none, [], [], 1, [], [], false, fun _ => [], []⟩

theorem start_initial : Initial start :=
  ⟨⟨rfl, fun _ => rfl⟩, fun _ => rfl, rfl, rfl, rfl, rfl, rfl, rfl⟩

def attachment (more : List (String × JsonObject)) : JsonObject :=
  .object ([("name", .string (utf8 "a.gif")), ("type", .string (utf8 "image/gif"))] ++ more)

def groupMsg (attachments : List JsonObject) : JsonObject :=
  .object [("group_id", .int 1), ("content", .string []), ("attachments", .array attachments)]

theorem serverGroupMsg_attachments (mores : List (List (String × JsonObject))) :
    serverGroupMsg 1 (groupMsg (mores.map attachment)) = .ok ⟨1, 1, [], mores.map attachment⟩ := by
  have hverify : serverVerifyMsgAttachments (mores.map attachment) = .ok () := by
    induction mores with
    | nil => rfl
    | cons more mores ih =>
        have himage : utf8 "image/" <+: cstr (utf8 "image/gif") := by decide +kernel
        rw [serverVerifyMsgAttachments, List.map_cons, List.forM_eq_forM, List.forM_cons, bind_ok]
        refine ⟨(), ?_, ih⟩
        simp [bind_ok, stringField, attachment, JsonObject.objectGet, himage]
  simp only [serverGroupMsg, bind_ok]
  exact ⟨1, rfl, [], rfl, mores.map attachment, rfl, (), hverify, rfl⟩

theorem gif_saved : serverSaveFileImg gifLibs gif = some gifFile := by
  have himage : utf8 "image/" <:+: utf8 "image/gif" := by decide +kernel
  simp [serverSaveFileImg, gifLibs, himage, gifFile]

theorem serverHandleMsgAttach_first (ut : UploadToken) (more : List (String × JsonObject))
    (h : ut.msg.attachments[0]? = some (attachment more)) :
    serverHandleMsgAttach gifLibs ut ⟨some [48], gif⟩ = some ⟨0, gifFile, {
      msg := { ut.msg with
        attachments := ut.msg.attachments.set 0 ((attachment more).objectAdd "hash" gifHash) }
      total := ut.total
      current := (ut.current + 1) % 2 ^ 32 }⟩ := by
  have hindex : attachIndexOf ut ⟨some [48], gif⟩ = some (0, attachment more) := by
    have hzero : strtoull [48] = 0 := by decide +kernel
    simp [attachIndexOf, hzero, h, attachment]
  rw [serverHandleMsgAttach, hindex, gif_saved]
  rfl

deriving instance DecidableEq for DbuserFile

theorem gif_files : [[attachment [("hash", gifHash)]]].flatten.mapM (attachFile gifLibs) =
    some [gifFile] := by decide +kernel

theorem unlinks_confined_gif : ∃ (s : State Unit) (path : List Char),
    Unlinks dirs.toConf s (.file (.exec ())) path ∧ Confined gifLibs dirs.toConf s.hashed path := by
  have h0 : Reachable Initial (fun s a s' => Running gifLibs dirs.toConf s a s' ∧
      HashesUploaded gifLibs s a) start := .start start_initial
  have h1 := h0.next ⟨⟨rfl, .groupMsg 7 (serverGroupMsg_attachments [[]])⟩, trivial⟩
  have hupload := serverHandleMsgAttach_first ⟨⟨1, 1, [], [attachment []]⟩, 1, 0⟩ [] rfl
  have h2 := h1.next ⟨⟨rfl, .upload () 7 rfl hupload⟩, by
    intro ut index attach hut _ _ _ i x hx hne
    obtain rfl := Option.some.inj hut
    cases i with
    | zero => exact absurd (Option.some.inj hx ▸ rfl) hne
    | succ i => cases hx⟩
  have h3 := h2.next ⟨⟨rfl, .insertMsg [] false rfl⟩, trivial⟩
  have h4 := h3.next ⟨⟨rfl, .deleteMsg (List.mem_singleton.mpr rfl) ⟨1, rfl, .inl rfl⟩⟩, trivial⟩
  have h5 := h4.next ⟨⟨rfl, .deleteAttachments () [] rfl gif_files⟩, trivial⟩
  obtain ⟨files, h6⟩ := settled (fun _ _ _ h => ⟨h, trivial⟩) h5 rfl rfl rfl
  obtain ⟨s, h7, -, hu⟩ := deletes (fun _ _ _ h => ⟨h, trivial⟩) h6 rfl gifFile rfl rfl
    (insertUserfiles (fun _ => none) gifFile.hash) rfl (by decide +kernel)
  exact ⟨s, _, hu, unlinks_confined h7 hu⟩

def climb : List (String × JsonObject) := [("hash", .string (utf8 "../../../x"))]

def climbFile : DbuserFile := ⟨ofBytes (utf8 "../../../x"), ofBytes (utf8 "image/gif")⟩

theorem climb_files : [[attachment [("hash", gifHash)], attachment climb]].flatten.mapM
    (attachFile gifLibs) = some [gifFile, climbFile] := by decide +kernel

/-- The first of two attachments is uploaded twice. The second came with a hash of its own. -/
theorem climb_unlinks : ∃ s : State Unit, Reachable Initial (Running gifLibs dirs.toConf) s ∧
    Unlinks dirs.toConf s (.file (.exec ())) "img/../../../x".toList ∧
    ¬ Confined gifLibs dirs.toConf s.hashed "img/../../../x".toList := by
  have h0 : Reachable Initial (Running gifLibs dirs.toConf) start := .start start_initial
  have h1 := h0.next ⟨rfl, .groupMsg 7 (serverGroupMsg_attachments [[], climb])⟩
  have hfirst := serverHandleMsgAttach_first
    ⟨⟨1, 1, [], [attachment [], attachment climb]⟩, 2, 0⟩ [] rfl
  have h2 := h1.next ⟨rfl, .upload () 7 rfl hfirst⟩
  have hsecond := serverHandleMsgAttach_first
    ⟨⟨1, 1, [], [attachment [("hash", gifHash)], attachment climb]⟩, 2, 1⟩ [("hash", gifHash)] rfl
  have h3 := h2.next ⟨rfl, .upload () 7 rfl hsecond⟩
  have h4 := h3.next ⟨rfl, .insertMsg [] false rfl⟩
  have h5 := h4.next ⟨rfl, .deleteMsg (List.mem_singleton.mpr rfl) ⟨1, rfl, .inl rfl⟩⟩
  have h6 := h5.next ⟨rfl, .deleteAttachments () [] rfl climb_files⟩
  obtain ⟨files, h7⟩ := settled (fun _ _ _ h => h) h6 rfl rfl rfl
  obtain ⟨files, h8⟩ := settled (fun _ _ _ h => h) h7 rfl rfl rfl
  obtain ⟨files, h9⟩ := settled (fun _ _ _ h => h) h8 rfl rfl rfl
  obtain ⟨s, h10, hs, hu⟩ := deletes (fun _ _ _ h => h) h9 rfl climbFile rfl rfl
    (deleteUserfile (insertUserfiles (insertUserfiles (fun _ => none) gifFile.hash) gifFile.hash)
      gifFile.hash) rfl (by decide +kernel)
  have hhashed : s.hashed = [gif, gif] := hs
  have hpath : unlinkPath dirs.toConf climbFile = "img/../../../x".toList := by decide +kernel
  rw [hpath] at hu
  refine ⟨s, h10, hu, ?_⟩
  rw [hhashed]
  decide +kernel

end ChityChat.UnlinkConfinement
