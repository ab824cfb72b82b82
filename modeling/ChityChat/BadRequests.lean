import ChityChat.TextFrame

namespace ChityChat.BadRequests

open CString JsonC LoggedInUser GroupRead TextFrame

variable {C S T α β : Type} [DecidableEq C] [DecidableEq S] [DecidableEq T]

inductive JsonType
  | int
  | string
  | boolean
  | array

def jsonObjectIsType : JsonObject → JsonType → Bool
  | .int _, .int | .string _, .string | .boolean _, .boolean | .array _, .array => true
  | _, _ => false

def required : String → List (String × JsonType)
  | "get_member_ids" | "join_group" | "get_group_codes" | "delete_group" => [("group_id", .int)]
  | "group_create" => [("name", .string), ("public", .boolean)]
  | "get_user" => [("user_ids", .array)]
  | "group_msg" => [("group_id", .int), ("content", .string), ("attachments", .array)]
  | "get_group_msgs" => [("group_id", .int), ("limit", .int), ("offset", .int)]
  | "create_group_code" => [("group_id", .int), ("max_uses", .int)]
  | "join_group_code" | "delete_group_code" => [("code", .string)]
  | "delete_msg" => [("msg_id", .int)]
  | "register" => [("username", .string), ("displayname", .string), ("password", .string),
      ("session", .boolean)]
  | "login" => [("username", .string), ("password", .string), ("session", .boolean)]
  | "session" => [("id", .int)]
  | _ => []

structure ImageAttachment (attach : JsonObject) : Prop where
  name : jsonObjectIsType (attach.objectGet "name") .string = true
  type : ∃ type, attach.objectGet "type" = .string type ∧ utf8 "image/" <+: cstr type

/-- What is required of the fields beyond their types. -/
def Elements : String → JsonObject → Prop
  | "get_user", payload => ∀ elements, payload.objectGet "user_ids" = .array elements →
      elements ≠ [] ∧ ∀ element ∈ elements, jsonObjectIsType element .int = true
  | "group_msg", payload => ∀ attachments, payload.objectGet "attachments" = .array attachments →
      ∀ attach ∈ attachments, ImageAttachment attach
  | "edit_account", payload => payload.objectGet "new_pfp" = .null ∨
      jsonObjectIsType (payload.objectGet "new_pfp") .boolean = true
  | _, _ => True

def HasFields (payload : JsonObject) (fields : List (String × JsonType)) : Prop :=
  ∀ field ∈ fields, jsonObjectIsType (payload.objectGet field.1) field.2 = true

def WellFormed (cmd : String) (payload : JsonObject) : Prop :=
  HasFields payload (required cmd) ∧ Elements cmd payload

/-- A request that is not for a command, or for one that the client may not use, or that lacks what
the command requires. -/
inductive BadRequest (C T : Type) [DecidableEq C] [DecidableEq T] (client : Client S)
    (payload : JsonObject) : Prop
  | cmd (h : ∀ cmd, payload.objectGet "cmd" ≠ .string cmd)
  | notFound {cmd : Bytes} (h : payload.objectGet "cmd" = .string cmd)
      (hfind : (findChatcmd (cstr cmd) : Option (String × Callback C S T)) = none)
  | perms {cmd : Bytes} {name : String} {callback : Callback C S T}
      (h : payload.objectGet "cmd" = .string cmd)
      (hfind : findChatcmd (cstr cmd) = some (name, callback))
      (hperms : callback.perms.allows client.state = false)
  | fields {cmd : Bytes} {name : String} {callback : Callback C S T}
      (h : payload.objectGet "cmd" = .string cmd)
      (hfind : findChatcmd (cstr cmd) = some (name, callback))
      (hfields : ¬ WellFormed name payload)

/-- Where `good` fails, the handler returns an error and has changed nothing. -/
def Requires (good : Prop) (handler : Handler C S T α) : Prop :=
  ¬ good → ∃ errorMsg, ∀ x, handler.run.run x = (.error errorMsg, x)

section
omit [DecidableEq C] [DecidableEq S] [DecidableEq T]

theorem Requires.of_true (handler : Handler C S T α) : Requires True handler :=
  fun h => absurd trivial h

theorem Requires.imp {good good' : Prop} {handler : Handler C S T α} (h : Requires good handler)
    (himp : good → good') : Requires good' handler :=
  fun hbad => h (mt himp hbad)

theorem Requires.bind {fine good : Prop} {x : Except String β} {f : β → Handler C S T α}
    (hx : ∀ b, x = .ok b → fine) (hf : ∀ b, x = .ok b → Requires good (f b)) :
    Requires (fine ∧ good) (do let b ← x; f b) := by
  intro hbad
  cases hcheck : x with
  | error errorMsg => exact ⟨errorMsg, fun _ => rfl⟩
  | ok b =>
      obtain ⟨errorMsg, herror⟩ := hf b hcheck (fun hgood => hbad ⟨hx b hcheck, hgood⟩)
      exact ⟨errorMsg, herror⟩

theorem Requires.rest {payload : JsonObject} {handler : Handler C S T α} :
    Requires (HasFields payload []) handler :=
  (Requires.of_true handler).imp (fun _ _ hmem => absurd hmem List.not_mem_nil)

theorem Requires.field {payload : JsonObject} {field : String × JsonType}
    {fields : List (String × JsonType)} {x : Except String β} {f : β → Handler C S T α}
    (hx : ∀ b, x = .ok b → jsonObjectIsType (payload.objectGet field.1) field.2 = true)
    (hf : ∀ b, x = .ok b → Requires (HasFields payload fields) (f b)) :
    Requires (HasFields payload (field :: fields)) (do let b ← x; f b) :=
  (Requires.bind hx hf).imp (fun h => List.forall_mem_cons.mpr h)

theorem Requires.fields {cmd : String} {payload : JsonObject} {handler : Handler C S T α}
    (helements : Elements cmd payload) (h : Requires (HasFields payload (required cmd)) handler) :
    Requires (WellFormed cmd payload) handler :=
  h.imp (fun hfields => ⟨hfields, helements⟩)

end

theorem intField_ok {payload : JsonObject} {key : String} (n : Int)
    (h : intField payload key = .ok n) : jsonObjectIsType (payload.objectGet key) .int = true := by
  rw [intField] at h
  split at h
  · next hget => rw [hget]; rfl
  · cases h

theorem uint64Field_ok {payload : JsonObject} {key : String} (n : UInt32)
    (h : uint64Field payload key = .ok n) :
    jsonObjectIsType (payload.objectGet key) .int = true := by
  rw [uint64Field] at h
  split at h
  · next hget => rw [hget]; rfl
  · cases h

theorem booleanField_ok {payload : JsonObject} {key : String} (b : Bool)
    (h : booleanField payload key = .ok b) :
    jsonObjectIsType (payload.objectGet key) .boolean = true := by
  rw [booleanField] at h
  split at h
  · next hget => rw [hget]; rfl
  · cases h

theorem stringField_type {payload : JsonObject} {key : String} (s : Bytes)
    (h : stringField payload key = .ok s) :
    jsonObjectIsType (payload.objectGet key) .string = true := by
  rw [stringField_ok.mp h]
  rfl

theorem arrayField_type {payload : JsonObject} {key : String} (elements : List JsonObject)
    (h : arrayField payload key = .ok elements) :
    jsonObjectIsType (payload.objectGet key) .array = true := by
  rw [arrayField_ok.mp h]
  rfl

section
variable (env : Env S T) (client : C) (user : DbUser) (payload : JsonObject)

section
omit [DecidableEq C] [DecidableEq S] [DecidableEq T]

theorem serverGetGroupMemberIds_requires : Requires (WellFormed "get_member_ids" payload)
    (serverGetGroupMemberIds env payload : Handler C S T Unit) := by
  refine .fields trivial ?_
  exact .field intField_ok (fun _ _ => .rest)

theorem serverGroupCreate_requires : Requires (WellFormed "group_create" payload)
    (serverGroupCreate env user payload : Handler C S T Unit) := by
  refine .fields trivial ?_
  exact .field stringField_type (fun _ _ => .field booleanField_ok (fun _ _ => .rest))

theorem intsOf_some {elements : List JsonObject} {ids : List Int}
    (h : intsOf elements = some ids) : elements.length = ids.length ∧
      ∀ element ∈ elements, jsonObjectIsType element .int = true := by
  induction elements generalizing ids with
  | nil =>
      cases h
      exact ⟨rfl, fun _ hmem => absurd hmem List.not_mem_nil⟩
  | cons element elements ih =>
      cases element with
      | int n =>
          obtain ⟨others, hothers, rfl⟩ := Option.map_eq_some_iff.mp h
          obtain ⟨hlength, hints⟩ := ih hothers
          exact ⟨congrArg (· + 1) hlength, List.forall_mem_cons.mpr ⟨rfl, hints⟩⟩
      | null | boolean | double | string | array | object => cases h

theorem serverGetUser_requires : Requires (WellFormed "get_user" payload)
    (serverGetUser env client payload) := by
  suffices hfields : Requires (jsonObjectIsType (payload.objectGet "user_ids") .array = true ∧
      Elements "get_user" payload) (serverGetUser env client payload) from
    hfields.imp (fun h => ⟨List.forall_mem_singleton.mpr h.1, h.2⟩)
  refine Requires.bind arrayField_type (fun elements hget => ?_)
  intro hbad
  cases hids : intsOf elements with
  | none => exact ⟨_, fun _ => rfl⟩
  | some ids =>
      cases ids with
      | nil => exact ⟨_, fun _ => rfl⟩
      | cons id ids =>
          obtain ⟨hlength, hints⟩ := intsOf_some hids
          refine absurd (fun other hother => ?_) hbad
          rw [arrayField_ok.mp hget, JsonObject.array.injEq] at hother
          subst hother
          exact ⟨fun hnil => by simp [hnil] at hlength, hints⟩

theorem serverJoinGroup_requires : Requires (WellFormed "join_group" payload)
    (serverJoinGroup env user payload : Handler C S T Unit) := by
  refine .fields trivial ?_
  exact .field intField_ok (fun _ _ => .rest)

theorem serverGetGroupMsgs_requires : Requires (WellFormed "get_group_msgs" payload)
    (serverGetGroupMsgs env payload : Handler C S T Unit) := by
  refine .fields trivial ?_
  exact .field intField_ok (fun _ _ => .field intField_ok (fun _ _ =>
    .field intField_ok (fun _ _ => .rest)))

theorem serverCreateGroupCode_requires : Requires (WellFormed "create_group_code" payload)
    (serverCreateGroupCode env user payload : Handler C S T Unit) := by
  refine .fields trivial ?_
  exact .field intField_ok (fun _ _ => .field intField_ok (fun _ _ => .rest))

theorem serverJoinGroupCode_requires : Requires (WellFormed "join_group_code" payload)
    (serverJoinGroupCode env user payload : Handler C S T Unit) := by
  refine .fields trivial ?_
  exact .field stringField_type (fun _ _ => .rest)

theorem serverGetGroupCodes_requires : Requires (WellFormed "get_group_codes" payload)
    (serverGetGroupCodes env user payload : Handler C S T Unit) := by
  refine .fields trivial ?_
  exact .field intField_ok (fun _ _ => .rest)

theorem serverDeleteGroupCode_requires : Requires (WellFormed "delete_group_code" payload)
    (serverDeleteGroupCode env user payload : Handler C S T Unit) := by
  refine .fields trivial ?_
  exact .field stringField_type (fun _ _ => .rest)

theorem serverDeleteGroupMsg_requires : Requires (WellFormed "delete_msg" payload)
    (serverDeleteGroupMsg env user payload : Handler C S T Unit) := by
  refine .fields trivial ?_
  exact .field intField_ok (fun _ _ => .rest)

theorem serverDeleteGroup_requires : Requires (WellFormed "delete_group" payload)
    (serverDeleteGroup env user payload : Handler C S T Unit) := by
  refine .fields trivial ?_
  exact .field intField_ok (fun _ _ => .rest)

theorem serverClientRegister_requires : Requires (WellFormed "register" payload)
    (serverClientRegister env payload : Handler C S T Unit) := by
  refine .fields trivial ?_
  exact .field stringField_type (fun _ _ => .field stringField_type (fun _ _ =>
    .field stringField_type (fun _ _ => .field booleanField_ok (fun _ _ => .rest))))

theorem serverClientLogin_requires : Requires (WellFormed "login" payload)
    (serverClientLogin env payload : Handler C S T Unit) := by
  refine .fields trivial ?_
  exact .field stringField_type (fun _ _ => .field stringField_type (fun _ _ =>
    .field booleanField_ok (fun _ _ => .rest)))

theorem serverClientLoginSession_requires : Requires (WellFormed "session" payload)
    (serverClientLoginSession env payload : Handler C S T Unit) := by
  refine .fields trivial ?_
  exact .field uint64Field_ok (fun _ _ => .rest)

end

theorem serverVerifyMsgAttachments_ok {attachments : List JsonObject}
    (h : MsgAttachments.serverVerifyMsgAttachments attachments = .ok ()) :
    ∀ attach ∈ attachments, ImageAttachment attach := by
  intro attach hmem
  obtain ⟨name, hname, hrest⟩ := bind_ok.mp (forM_ok h attach hmem)
  obtain ⟨type, htype, hrest⟩ := bind_ok.mp hrest
  split at hrest
  · next himage => exact ⟨stringField_type name hname, type, stringField_ok.mp htype, himage⟩
  · cases hrest

omit [DecidableEq C] [DecidableEq S] in
theorem serverGroupMsg_requires : Requires (WellFormed "group_msg" payload)
    (serverGroupMsg env client user payload) := by
  suffices hfields : Requires (jsonObjectIsType (payload.objectGet "group_id") .int = true ∧
      jsonObjectIsType (payload.objectGet "content") .string = true ∧
      jsonObjectIsType (payload.objectGet "attachments") .array = true ∧
      Elements "group_msg" payload) (serverGroupMsg env client user payload) from
    hfields.imp (fun h => ⟨List.forall_mem_cons.mpr ⟨h.1, List.forall_mem_cons.mpr ⟨h.2.1,
      List.forall_mem_singleton.mpr h.2.2.1⟩⟩, h.2.2.2⟩)
  refine Requires.bind intField_ok (fun _ _ => .bind stringField_type (fun _ _ =>
    .bind arrayField_type (fun attachments hget => ?_)))
  have hsame : ∀ other, payload.objectGet "attachments" = .array other → other = attachments :=
    fun other hother => by
      rw [arrayField_ok.mp hget, JsonObject.array.injEq] at hother
      exact hother.symm
  dsimp only
  split
  · next hempty =>
    refine (Requires.of_true _).imp (fun _ other hother => ?_)
    rw [hsame other hother, List.eq_nil_of_length_eq_zero hempty]
    exact fun _ hmem => absurd hmem List.not_mem_nil
  · refine (Requires.bind (fun _ hverify => serverVerifyMsgAttachments_ok hverify)
      (fun _ _ => .of_true _)).imp (fun h other hother => ?_)
    rw [hsame other hother]
    exact h.1

omit [DecidableEq C] [DecidableEq S] in
theorem serverUserEditAccount_requires : Requires (WellFormed "edit_account" payload)
    (serverUserEditAccount env client user payload) := by
  suffices hfields : Requires (Elements "edit_account" payload ∧ True)
      (serverUserEditAccount env client user payload) from
    hfields.imp (fun h => ⟨List.forall_mem_nil _, h.1⟩)
  refine Requires.bind (fun b hb => ?_) (fun _ _ => .of_true _)
  rw [newPfp] at hb
  split at hb
  · next hget => exact .inr (by rw [hget]; rfl)
  · next hget => exact .inl hget
  · cases hb

end

def Callback.Requires (good : JsonObject → Prop) : Callback C S T → Prop
  | .loggedIn f => ∀ env client user payload,
      BadRequests.Requires (good payload) (f env client user payload)
  | .none f => ∀ env client payload, BadRequests.Requires (good payload) (f env client payload)

omit [DecidableEq C] [DecidableEq S] [DecidableEq T] in
theorem Requires.of_nil {cmd : String} {payload : JsonObject} {handler : Handler C S T α}
    (hfields : required cmd = []) (helements : Elements cmd payload) :
    Requires (WellFormed cmd payload) handler := by
  refine (Requires.of_true handler).imp (fun _ => ⟨?_, helements⟩)
  rw [hfields]
  exact List.forall_mem_nil _

omit [DecidableEq S] in
theorem chatcmds_require : ∀ chatcmd ∈ (chatcmds : List (String × Callback C S T)),
    Callback.Requires (WellFormed chatcmd.1) chatcmd.2 := by
  simp only [chatcmds, List.forall_mem_cons]
  refine ⟨?_, ?_, ?_, ?_, ?_, ?_, ?_, ?_, ?_, ?_, ?_, ?_, ?_, ?_, ?_, ?_, ?_, ?_, ?_, ?_⟩
  · exact fun env client user payload => .of_nil rfl trivial
  · exact fun env client user payload => .of_nil rfl trivial
  · exact fun env client user => serverGetGroupMemberIds_requires env
  · exact fun env client user => serverGroupCreate_requires env user
  · exact fun env client user => serverGetUser_requires env client
  · exact fun env client user payload => .of_nil rfl trivial
  · exact fun env client user => serverJoinGroup_requires env user
  · exact serverGroupMsg_requires
  · exact fun env client user => serverGetGroupMsgs_requires env
  · exact serverUserEditAccount_requires
  · exact fun env client user => serverCreateGroupCode_requires env user
  · exact fun env client user => serverJoinGroupCode_requires env user
  · exact fun env client user => serverGetGroupCodes_requires env user
  · exact fun env client user => serverDeleteGroupCode_requires env user
  · exact fun env client user => serverDeleteGroupMsg_requires env user
  · exact fun env client user => serverDeleteGroup_requires env user
  · exact fun env client => serverClientRegister_requires env
  · exact fun env client => serverClientLogin_requires env
  · exact fun env client => serverClientLoginSession_requires env
  · exact fun _ hmem => absurd hmem List.not_mem_nil

omit [DecidableEq S] in
theorem chatcmds_perms : (chatcmds : List (String × Callback C S T)).map
    (fun chatcmd => (chatcmd.1, chatcmd.2.perms)) = chatCmdHt := rfl

variable {client : TextFrame.Client S} {payload : JsonObject} {cmd : Bytes} {name : String}
  {callback : Callback C S T}

omit [DecidableEq S] in
theorem execPayload_cmd (env : Env S T) (c : C) (h : payload.objectGet "cmd" = .string cmd)
    (x : Frame C S T) : (execPayload env c client payload).run.run x =
      (serverExecChatcmd env (cstr cmd) c client payload).run.run x := by
  rw [execPayload, stringField_ok.mpr h]
  rfl

omit [DecidableEq S] in
theorem serverExecChatcmd_requires (env : Env S T) (client : TextFrame.Client S)
    (payload : JsonObject) (c : C) (hfind : findChatcmd (cstr cmd) = some (name, callback)) :
    Requires (callback.perms.allows client.state = true ∧ WellFormed name payload)
      (serverExecChatcmd env (cstr cmd) c client payload) := by
  have hcallback := chatcmds_require (name, callback) (List.mem_of_find?_eq_some hfind)
  intro hbad
  rw [TextFrame.serverExecChatcmd, hfind]
  cases callback with
  | loggedIn f =>
      dsimp only
      split
      · next hlogged => exact hcallback env c _ payload (fun hfields => hbad ⟨hlogged, hfields⟩)
      · exact ⟨_, fun _ => rfl⟩
  | none f =>
      dsimp only
      split
      · next hws => exact hcallback env c payload (fun hfields => hbad ⟨hws, hfields⟩)
      · exact ⟨_, fun _ => rfl⟩

omit [DecidableEq S] in
theorem BadRequest.error (h : BadRequest C T client payload) (env : Env S T) (c : C) :
    ∃ errorMsg, ∀ x, (execPayload env c client payload).run.run x = (.error errorMsg, x) := by
  cases h with
  | cmd h =>
      have hcmd : Requires (False ∧ True) (execPayload env c client payload) :=
        .bind (fun cmd hcmd => h cmd (stringField_ok.mp hcmd)) (fun _ _ => .of_true _)
      exact hcmd (fun hboth => hboth.1)
  | notFound h hfind =>
      refine ⟨"Command not found.", fun x => ?_⟩
      rw [execPayload_cmd env c h, TextFrame.serverExecChatcmd, hfind]
      rfl
  | perms h hfind hperms =>
      obtain ⟨errorMsg, herror⟩ := serverExecChatcmd_requires env client payload c hfind
        (fun hgood => by rw [hperms] at hgood; cases hgood.1)
      exact ⟨errorMsg, fun x => by rw [execPayload_cmd env c h, herror]⟩
  | fields h hfind hfields =>
      obtain ⟨errorMsg, herror⟩ := serverExecChatcmd_requires env client payload c hfind
        (fun hgood => hfields hgood.2)
      exact ⟨errorMsg, fun x => by rw [execPayload_cmd env c h, herror]⟩

omit [DecidableEq S] in
/-- A bad request is answered with an error packet, and that is all that happens. -/
theorem badRequest_noEffect (env : Env S T) (c : C) (client : TextFrame.Client S) (buf : Bytes)
    (payload : JsonObject) (server : Server C S T) (hparse : env.parse buf = some payload)
    (hnull : payload ≠ .null) (hbad : BadRequest C T client payload) :
    ∃ errorMsg, serverWsHandleTextFrame env c client buf server =
      (.ok, { server with
        sent := server.sent ++ [(c, handlerError payload errorMsg)] }) := by
  obtain ⟨errorMsg, herror⟩ := hbad.error env c
  refine ⟨errorMsg, ?_⟩
  rw [serverWsHandleTextFrame, hparse]
  cases payload with
  | null => exact absurd rfl hnull
  | boolean | int | double | string | array | object =>
      dsimp only
      rw [herror]
      rfl

def parsesTo (payload : JsonObject) : Env Unit Unit :=
  ⟨fun _ => some payload, fun _ => [], fun _ _ => [], fun _ => true, [], 0, (), none⟩

def visitor : TextFrame.Client Unit :=
  ⟨⟨false, true, false, false⟩, none, none, fun h => absurd h Bool.false_ne_true⟩

def alone : Server Unit Unit Unit :=
  ⟨fun _ => some visitor, fun _ => none, fun _ => none, fun _ => none, fun _ => none, fun _ => none,
    [], [], []⟩

theorem badRequest_noEffect_number :
    ∃ errorMsg, serverWsHandleTextFrame (parsesTo (.object [("cmd", .int 1)])) () visitor [] alone =
      (.ok, { alone with
        sent := [((), handlerError (.object [("cmd", .int 1)]) errorMsg)] }) :=
  badRequest_noEffect _ () visitor [] (.object [("cmd", .int 1)]) alone rfl (by simp)
    (.cmd (fun cmd h => by simp [JsonObject.objectGet] at h))

end ChityChat.BadRequests
