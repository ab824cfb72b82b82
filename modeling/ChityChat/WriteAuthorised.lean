import ChityChat.WriteCommands

namespace ChityChat.WriteAuthorised

open JsonC DbResult Schema WriteStatements WriteCommands

variable {s s' : Store} {tx tx' : Option Tx} {stmt : Stmt} {res : PGresult}
  {handle userId groupId : Nat}
  {command : ChatCommand}

/-- The changes of a statement are within the rights of the user whose command it was sent for. -/
structure Authorised (userId : Nat) (command : ChatCommand) (s s' : Store) : Prop where
  groupGone : ∀ g ∈ s.groups, g ∉ s'.groups → command = .deleteGroup g.groupId ∧
    g.ownerId = some userId
  messageGone : ∀ m ∈ s.messages, m ∉ s'.messages →
    (command = .deleteMsg m.msgId ∧
      (m.userId = some userId ∨ ∃ g ∈ s.groups, m.groupId = some g.groupId ∧
        g.ownerId = some userId)) ∨
    ∃ g ∈ s.groups, m.groupId = some g.groupId ∧ g ∉ s'.groups
  messageNew : ∀ m ∈ s'.messages, m ∉ s.messages →
    m.userId = some userId ∧ ∃ g, m.groupId = some g ∧ ⟨userId, g⟩ ∈ s.members
  memberNew : ∀ r ∈ s'.members, r ∉ s.members → r.userId = userId ∧
    ((∃ name isPublic, command = .groupCreate name isPublic ∧
        ∃ g ∈ s'.groups, g ∉ s.groups ∧ g.groupId = r.groupId ∧ g.ownerId = some userId) ∨
      (command = .joinGroup r.groupId ∧ ∃ g ∈ s.groups, g.groupId = r.groupId ∧
        g.isPublic = some true) ∨
      ∃ code, command = .joinGroupCode code ∧ ∃ c ∈ s.codes, c.inviteCode = varchar8 code ∧
        c.groupId = r.groupId)
  codeNew : ∀ c ∈ s'.codes, c.inviteCode ∉ s.codes.map CodeRow.inviteCode →
    (∃ maxUses, command = .createGroupCode c.groupId maxUses) ∧ ⟨userId, c.groupId⟩ ∈ s.members
  codeGone : ∀ c ∈ s.codes, c.inviteCode ∉ s'.codes.map CodeRow.inviteCode →
    (∃ code, command = .deleteGroupCode code ∧ c.inviteCode = varchar8 code ∧
      ⟨userId, c.groupId⟩ ∈ s.members) ∨
    (∃ code, command = .joinGroupCode code ∧ c.maxUses ≠ -1 ∧
      ∃ uses ∈ c.uses, c.maxUses ≤ uses + 1) ∨ ∃ g ∈ s.groups, g.groupId = c.groupId ∧ g ∉ s'.groups

structure Unchanged (s s' : Store) : Prop where
  groups : s'.groups = s.groups
  members : s'.members = s.members
  messages : s'.messages = s.messages
  codes : s'.codes = s.codes

theorem Unchanged.authorised (h : Unchanged s s') : Authorised userId command s s' where
  groupGone _ hg hgone := absurd (h.groups ▸ hg) hgone
  messageGone _ hm hgone := absurd (h.messages ▸ hm) hgone
  messageNew _ hm hnew := absurd (h.messages ▸ hm) hnew
  memberNew _ hr hnew := absurd (h.members ▸ hr) hnew
  codeNew _ hc hnew := absurd (List.mem_map_of_mem (h.codes ▸ hc)) hnew
  codeGone _ hc hgone := absurd (List.mem_map_of_mem (h.codes ▸ hc)) hgone

/-- The group has existed, and its row has this owner as long as it stays. -/
def OwnerIs (s : Store) (groupId userId : Nat) : Prop :=
  groupId < s.groupSeq ∧ ∀ g ∈ s.groups, g.groupId = groupId → g.ownerId = some userId

/-- Statements are sent for commands of the users in them,
and groups are deleted for their owners. -/
def Requested (s : Store) (userId : Nat) (command : ChatCommand) : Stmt → Prop
  | .insertGroup name ownerId isPublic => ownerId = userId ∧ command = .groupCreate name isPublic
  | .joinPubGroup memberId groupId => memberId = userId ∧ command = .joinGroup groupId
  | .insertGroupmemberCode memberId code => memberId = userId ∧ command = .joinGroupCode code
  | .createGroupCode groupId _ creatorId =>
      creatorId = userId ∧ ∃ maxUses, command = .createGroupCode groupId maxUses
  | .deleteGroupCode code deleterId => deleterId = userId ∧ command = .deleteGroupCode code
  | .insertMsg authorId _ _ _ => authorId = userId
  | .deleteMsg msgId deleterId => deleterId = userId ∧ command = .deleteMsg msgId
  | .delGroupMsg groupId | .delGroupMembers groupId | .delGroupCodes groupId | .delGroup groupId =>
      command = .deleteGroup groupId ∧ OwnerIs s groupId userId
  | .commit => ∃ groupId, command = .deleteGroup groupId ∧ OwnerIs s groupId userId
  | _ => True

theorem insertGroup_authorised {name : String} {isPublic : Bool} {now : String} (hs : Stored s)
    (hcommand : command = .groupCreate name isPublic) :
    Authorised userId command s (insertGroup s now name userId isPublic) where
  groupGone g hg hgone := absurd (List.mem_append_left _ hg) hgone
  messageGone m hm hgone := absurd hm hgone
  messageNew m hm hnew := absurd hm hnew
  memberNew r hr hnew := by
    obtain rfl : r = ⟨userId, s.groupSeq⟩ := by
      rcases List.mem_append.mp hr with hr | hr
      · exact absurd hr hnew
      · exact List.mem_singleton.mp hr
    refine ⟨rfl, .inl ⟨name, isPublic, hcommand, _, List.mem_append_right _ List.mem_cons_self,
      fun hold => ?_, rfl, rfl⟩⟩
    exact Nat.lt_irrefl _ (hs.groups _ hold).2
  codeNew c hc hnew := absurd (List.mem_map_of_mem hc) hnew
  codeGone c hc hgone := absurd (List.mem_map_of_mem hc) hgone

theorem joinPubGroup_authorised (hcommand : command = .joinGroup groupId) :
    Authorised userId command s (joinPubGroup s userId groupId) where
  groupGone g hg hgone := absurd hg hgone
  messageGone m hm hgone := absurd hm hgone
  messageNew m hm hnew := absurd hm hnew
  memberNew r hr hnew := by
    rcases List.mem_append.mp hr with hr | hr
    · exact absurd hr hnew
    · obtain ⟨g, hg, rfl⟩ := List.mem_map.mp hr
      obtain ⟨hg, hpublic⟩ := List.mem_filter.mp hg
      have hpublic : g.groupId = groupId ∧ g.isPublic = some true := by simpa using hpublic
      exact ⟨rfl, .inr (.inl ⟨hcommand, g, hg, hpublic⟩)⟩
  codeNew c hc hnew := absurd (List.mem_map_of_mem hc) hnew
  codeGone c hc hgone := absurd (List.mem_map_of_mem hc) hgone

theorem useCode_inviteCode (inviteCode : String) (c : CodeRow) :
    (useCode inviteCode c).inviteCode = c.inviteCode := by
  rw [useCode]
  split <;> rfl

theorem overMax_inviteCode {inviteCode : String} {codes : List CodeRow} {c : CodeRow}
    (h : c ∈ deleteGroupcodeIfOverMax (codes.map (useCode inviteCode))) :
    c.inviteCode ∈ codes.map CodeRow.inviteCode := by
  obtain ⟨before, hbefore, rfl⟩ := List.mem_map.mp (List.mem_filter.mp h).1
  exact List.mem_map.mpr ⟨before, hbefore, (useCode_inviteCode _ _).symm⟩

theorem overMax_gone {inviteCode : String} {codes : List CodeRow} {c : CodeRow} (hc : c ∈ codes)
    (hgone : c.inviteCode ∉
      (deleteGroupcodeIfOverMax (codes.map (useCode inviteCode))).map CodeRow.inviteCode) :
    c.maxUses ≠ -1 ∧ ∃ uses ∈ c.uses, c.maxUses ≤ uses + 1 := by
  have hover : ¬ (¬ ((useCode inviteCode c).maxUses ≠ -1 ∧
      ∃ uses ∈ (useCode inviteCode c).uses, (useCode inviteCode c).maxUses ≤ uses)) := by
    intro hkept
    refine hgone (List.mem_map.mpr ⟨useCode inviteCode c, List.mem_filter.mpr
      ⟨List.mem_map_of_mem hc, decide_eq_true hkept⟩, useCode_inviteCode _ _⟩)
  obtain ⟨hmax, uses, huses, hle⟩ := not_not.mp hover
  rw [useCode] at hmax huses hle
  split at huses
  · next heq =>
      rw [if_pos heq] at hmax hle
      obtain ⟨before, hbefore, rfl⟩ := Option.map_eq_some_iff.mp huses
      exact ⟨hmax, before, hbefore, hle⟩
  · next hne =>
      rw [if_neg hne] at hmax hle
      exact ⟨hmax, uses, huses, Int.le_add_one hle⟩

theorem insertGroupmemberCode_authorised {code : String} (hcommand : command = .joinGroupCode code)
    (hjoin : insertGroupmemberCode s userId code = some s') : Authorised userId command s s' := by
  rw [insertGroupmemberCode] at hjoin
  split at hjoin
  · cases hjoin
  · next gc hfind =>
      have hgc : gc ∈ s.codes := List.mem_of_find?_eq_some hfind
      have hcode : gc.inviteCode = varchar8 code := by simpa using List.find?_some hfind
      obtain rfl := Option.some.inj hjoin
      refine ⟨fun g hg hgone => absurd hg hgone, fun m hm hgone => absurd hm hgone,
        fun m hm hnew => absurd hm hnew, ?_, ?_, ?_⟩
      · intro r hr hnew
        rcases List.mem_append.mp hr with hr | hr
        · exact absurd hr hnew
        · obtain rfl := List.mem_singleton.mp hr
          exact ⟨rfl, .inr (.inr ⟨code, hcommand, gc, hgc, hcode, rfl⟩)⟩
      · intro c hc hnew
        refine absurd ?_ hnew
        dsimp only at hc
        split at hc
        · exact overMax_inviteCode hc
        · exact List.mem_map_of_mem hc
      · intro c hc hgone
        dsimp only at hgone
        split at hgone
        · exact .inr (.inl ⟨code, hcommand, overMax_gone hc hgone⟩)
        · exact absurd (List.mem_map_of_mem hc) hgone

theorem createGroupCode_authorised {code : String} {maxUses maxUses' : Int}
    (hcommand : command = .createGroupCode groupId maxUses') :
    Authorised userId command s (createGroupCode s code groupId maxUses userId) where
  groupGone g hg hgone := absurd hg hgone
  messageGone m hm hgone := absurd hm hgone
  messageNew m hm hnew := absurd hm hnew
  memberNew r hr hnew := absurd hr hnew
  codeNew c hc hnew := by
    rcases List.mem_append.mp hc with hc | hc
    · exact absurd (List.mem_map_of_mem hc) hnew
    · obtain ⟨gm, hfound, rfl⟩ := List.mem_map.mp hc
      obtain ⟨hgm, hrow⟩ := List.mem_filter.mp hfound
      obtain ⟨rfl, rfl⟩ : gm.groupId = groupId ∧ gm.userId = userId := by simpa using hrow
      exact ⟨⟨maxUses', hcommand⟩, hgm⟩
  codeGone c hc hgone := absurd (List.mem_map_of_mem (List.mem_append_left _ hc)) hgone

theorem deleteGroupCode_authorised {code : String} (hcommand : command = .deleteGroupCode code) :
    Authorised userId command s (deleteGroupCode s code userId) where
  groupGone g hg hgone := absurd hg hgone
  messageGone m hm hgone := absurd hm hgone
  messageNew m hm hnew := absurd hm hnew
  memberNew r hr hnew := absurd hr hnew
  codeNew c hc hnew := absurd (List.mem_map_of_mem (List.mem_filter.mp hc).1) hnew
  codeGone c hc hgone := by
    have hdeleted : ¬ ¬ (c.inviteCode = varchar8 code ∧ ∃ gm ∈ s.members, c.groupId = gm.groupId ∧
      gm.userId = userId) :=
      fun hkept => hgone (List.mem_map_of_mem (List.mem_filter.mpr ⟨hc, decide_eq_true hkept⟩))
    obtain ⟨hcode, gm, hgm, hgroup, rfl⟩ := not_not.mp hdeleted
    exact .inl ⟨code, hcommand, hcode, hgroup ▸ hgm⟩

theorem insertMsg_authorised {now content : String} {attachments : JsonObject}
    (hs : Stored (insertMsg s now userId groupId content attachments)) :
    Authorised userId command s (insertMsg s now userId groupId content attachments) where
  groupGone g hg hgone := absurd hg hgone
  messageGone m hm hgone := absurd (List.mem_append_left _ hm) hgone
  messageNew m hm hnew := by
    have hmember := hs.valid.messageMember m hm
    rcases List.mem_append.mp hm with hm | hm
    · exact absurd hm hnew
    · obtain rfl := List.mem_singleton.mp hm
      exact ⟨rfl, groupId, rfl, hmember userId rfl groupId rfl⟩
  memberNew r hr hnew := absurd hr hnew
  codeNew c hc hnew := absurd (List.mem_map_of_mem hc) hnew
  codeGone c hc hgone := absurd (List.mem_map_of_mem hc) hgone

theorem deleteMsg_authorised {msgId : Nat} (hcommand : command = .deleteMsg msgId) :
    Authorised userId command s (deleteMsg s msgId userId) where
  groupGone g hg hgone := absurd hg hgone
  messageGone m hm hgone := by
    have hdeleted : ¬ ¬ MayDelete s msgId userId m :=
      fun hkept => hgone (List.mem_filter.mpr ⟨hm, decide_eq_true hkept⟩)
    obtain ⟨rfl, g, hg, hgroup, hright⟩ := not_not.mp hdeleted
    exact .inl ⟨hcommand, hright.imp_right fun howner => ⟨g, hg, hgroup, howner⟩⟩
  messageNew m hm hnew := absurd (List.mem_filter.mp hm).1 hnew
  memberNew r hr hnew := absurd hr hnew
  codeNew c hc hnew := absurd (List.mem_map_of_mem hc) hnew
  codeGone c hc hgone := absurd (List.mem_map_of_mem hc) hgone

/-- A transaction that has deleted rows of one group only, and that group itself. -/
structure Deletes (t : Tx) (groupId : Nat) : Prop where
  msgs : ∀ p ∈ t.msgs, p.2 = groupId
  codes : ∀ p ∈ t.codes, p.2 = groupId
  groups : ∀ id ∈ t.groups, id = groupId

theorem commit_authorised {t : Tx} (hs : Stored s) (ht : Deletes t groupId)
    (hgroup : groupId ∈ t.groups) (hcommand : command = .deleteGroup groupId)
    (howner : OwnerIs s groupId userId) :
    Authorised userId command s (t.view s) where
  groupGone g hg hgone := by
    have hdeleted : ¬ g.groupId ∉ t.groups :=
      fun hkept => hgone (List.mem_filter.mpr ⟨hg, decide_eq_true hkept⟩)
    have hid := ht.groups _ (not_not.mp hdeleted)
    exact ⟨hid ▸ hcommand, howner.2 g hg hid⟩
  messageGone m hm hgone := by
    have hdeleted : ¬ ¬ ∃ p ∈ t.msgs, m.msgId = p.1 ∧ m.groupId = some p.2 :=
      fun hkept => hgone (List.mem_filter.mpr ⟨hm, decide_eq_true hkept⟩)
    obtain ⟨p, hp, -, hmgroup⟩ := not_not.mp hdeleted
    rw [ht.msgs p hp] at hmgroup
    obtain ⟨g, hg, hid⟩ := List.mem_map.mp (hs.valid.messageGroup m hm groupId hmgroup)
    refine .inr ⟨g, hg, hid ▸ hmgroup, fun hkept => ?_⟩
    exact of_decide_eq_true (List.mem_filter.mp hkept).2 (hid ▸ hgroup)
  messageNew m hm hnew := absurd (List.mem_filter.mp hm).1 hnew
  memberNew r hr hnew := absurd (List.mem_filter.mp hr).1 hnew
  codeNew c hc hnew := absurd (List.mem_map_of_mem (List.mem_filter.mp hc).1) hnew
  codeGone c hc hgone := by
    have hdeleted : ¬ (c.inviteCode, c.groupId) ∉ t.codes :=
      fun hkept => hgone (List.mem_map_of_mem (List.mem_filter.mpr ⟨hc, decide_eq_true hkept⟩))
    have hid : c.groupId = groupId := ht.codes _ (not_not.mp hdeleted)
    obtain ⟨g, hg, hgid⟩ := List.mem_map.mp (hs.valid.codeGroup c hc)
    refine .inr (.inr ⟨g, hg, hgid, fun hkept => ?_⟩)
    exact of_decide_eq_true (List.mem_filter.mp hkept).2 (by rw [hgid, hid]; exact hgroup)

theorem execute_authorised (hs : Stored s) (hreq : Requested s userId command stmt)
    (htx : ∀ t ∈ tx, t.failed = false → stmt = .commit →
      ∃ g, command = .deleteGroup g ∧ Deletes t g ∧ g ∈ t.groups ∧ OwnerIs s g userId)
    (hexec : Execute handle s tx stmt res s' tx') : Authorised userId command s s' := by
  have hsame : Authorised userId command s s := Unchanged.authorised ⟨rfl, rfl, rfl, rfl⟩
  cases hexec with
  | run now code hrun hs' =>
      cases stmt with
      | insertGroup name ownerId isPublic =>
          obtain ⟨rfl, hcommand⟩ := hreq
          obtain ⟨rfl, -⟩ := Prod.mk.inj (Option.some.inj hrun)
          exact insertGroup_authorised hs hcommand
      | joinPubGroup memberId groupId =>
          obtain ⟨rfl, hcommand⟩ := hreq
          obtain ⟨rfl, -⟩ := Prod.mk.inj (Option.some.inj hrun)
          exact joinPubGroup_authorised hcommand
      | insertGroupmemberCode memberId inviteCode =>
          obtain ⟨rfl, hcommand⟩ := hreq
          obtain ⟨s₁, hjoin, heq⟩ := Option.map_eq_some_iff.mp hrun
          obtain ⟨rfl, -⟩ := Prod.mk.inj heq
          exact insertGroupmemberCode_authorised hcommand hjoin
      | createGroupCode groupId maxUses creatorId =>
          obtain ⟨rfl, maxUses', hcommand⟩ := hreq
          obtain ⟨rfl, -⟩ := Prod.mk.inj (Option.some.inj hrun)
          exact createGroupCode_authorised hcommand
      | deleteGroupCode inviteCode deleterId =>
          obtain ⟨rfl, hcommand⟩ := hreq
          obtain ⟨rfl, -⟩ := Prod.mk.inj (Option.some.inj hrun)
          exact deleteGroupCode_authorised hcommand
      | insertMsg authorId groupId content attachments =>
          obtain rfl : authorId = userId := hreq
          obtain ⟨rfl, -⟩ := Prod.mk.inj (Option.some.inj hrun)
          exact insertMsg_authorised hs'
      | deleteMsg msgId deleterId =>
          obtain ⟨rfl, hcommand⟩ := hreq
          obtain ⟨rfl, -⟩ := Prod.mk.inj (Option.some.inj hrun)
          exact deleteMsg_authorised hcommand
      | selectOwner | insertUser | getAllAttachs | selectMemberIds =>
          obtain ⟨rfl, -⟩ := Prod.mk.inj (Option.some.inj hrun)
          exact Unchanged.authorised ⟨rfl, rfl, rfl, rfl⟩
      | begin | delGroupMsg | delGroupMembers | delGroupCodes | delGroup | commit | other =>
          cases hrun
  | error => exact Unchanged.authorised ⟨rfl, rfl, rfl, rfl⟩
  | commit hok hs' =>
      obtain ⟨g, hcommand, hdeletes, hg, howner⟩ := htx _ rfl hok rfl
      exact commit_authorised hs hdeletes hg hcommand howner
  | other | begin | inside | fail | rollback => exact hsame

end ChityChat.WriteAuthorised
