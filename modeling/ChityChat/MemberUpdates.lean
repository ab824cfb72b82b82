import ChityChat.ClientMembers
import ChityChat.Replica

namespace ChityChat.MemberUpdates

open WebClient Replica
open ClientMembers (Known addKnown_divMembers addMsgs_listed)

variable {app : App} {group group' : Group} {groupId groupId' : Int}

/-- The list of member ids of a group, if the client has the group. -/
def listOf (app : App) (groupId : Int) : Option (List Int) :=
  (app.groups groupId).map Group.membersId

/-- What a packet does to the list of one group. -/
def updates (groupId : Int) : Packet → List (Update Int)
  | .clientGroups groups =>
      (groups.filter (fun info => info.groupId = groupId)).map (fun _ => .reset)
  | .getMemberIds groupId' memberIds => if groupId' = groupId then [.snapshot memberIds] else []
  | .joinGroup groupId' userId => if groupId' = groupId then [.add userId] else []
  | _ => []

theorem listOf_some (h : app.groups groupId = some group) :
    listOf app groupId = some group.membersId := by
  rw [listOf, h]
  rfl

theorem listOf_none (h : app.groups groupId = none) : listOf app groupId = none := by
  rw [listOf, h]
  rfl

theorem listOf_setGroup :
    listOf (app.setGroup groupId group) groupId = some group.membersId :=
  listOf_some (Function.update_self ..)

theorem listOf_setGroup_of_ne (h : groupId' ≠ groupId) :
    listOf (app.setGroup groupId group) groupId' = listOf app groupId' := by
  simp [listOf, App.setGroup, h]

theorem listOf_keep (h : app.groups groupId = some group) (hids : group'.membersId = group.membersId) :
    listOf (app.setGroup groupId group') = listOf app := by
  funext groupId'
  by_cases he : groupId' = groupId
  · rw [he, listOf_setGroup, listOf_some h, hids]
  · exact listOf_setGroup_of_ne he

theorem listOf_eachGroup {f : Group → Group} (hf : ∀ group, (f group).membersId = group.membersId) :
    listOf (app.eachGroup f) = listOf app := by
  funext groupId'
  rw [listOf, listOf, App.eachGroup]
  simp [Function.comp_def, hf]

theorem listOf_select (app : App) (groupId : Int) : listOf (app.select groupId) = listOf app := by
  rw [App.select]
  cases hg : app.groups groupId with
  | none => rfl
  | some group =>
      have hmsgs : ∀ app' : App, app'.groups = app.groups →
          listOf (app'.getMsgs groupId group) = listOf app' := by
        intro app' he
        have hg' : app'.groups groupId = some group := by rw [he, hg]
        exact listOf_keep hg' rfl
      simp only
      split <;> split
      · exact hmsgs (app.wsSend _) rfl
      · exact hmsgs app rfl
      · rfl
      · rfl

theorem listOf_scroll (app : App) (groupId : Int) : listOf (app.scroll groupId) = listOf app := by
  rw [App.scroll]
  cases hg : app.groups groupId with
  | none => rfl
  | some group => exact listOf_keep hg rfl

theorem listOf_clientGroup (len : Nat) (s : Groups) (info : GroupInfo) :
    listOf (clientGroup len s info).app = Function.update (listOf s.app) info.groupId (some []) := by
  have hadd : listOf (s.app.addGroup info) = Function.update (listOf s.app) info.groupId (some []) := by
    funext groupId'
    by_cases he : groupId' = info.groupId
    · rw [he, Function.update_self]
      exact listOf_setGroup
    · rw [Function.update_of_ne he]
      exact listOf_setGroup_of_ne he
  have hstep : ∀ param : Option Int, listOf (if len = 1 ∨ param = some info.groupId
      then (⟨(s.app.addGroup info).select info.groupId, param, true⟩ : Groups)
      else ⟨s.app.addGroup info, param, s.selected⟩).app =
        Function.update (listOf s.app) info.groupId (some []) := by
    intro param
    split
    · rw [listOf_select, hadd]
    · exact hadd
  exact hstep _

theorem listOf_clientGroups (app : App) (groups : List GroupInfo) (groupId : Int) (loaded : Bool) :
    listOf (clientGroups app groups) groupId =
      ((⟨listOf app groupId, loaded⟩ : View Int).after (updates groupId (.clientGroups groups))).list := by
  have hfold : ∀ (groups : List GroupInfo) (len : Nat) (s : Groups) (loaded : Bool),
      listOf (groups.foldl (clientGroup len) s).app groupId =
        ((⟨listOf s.app groupId, loaded⟩ : View Int).after (updates groupId (.clientGroups groups))).list := by
    intro groups
    induction groups with
    | nil => exact fun _ _ _ => rfl
    | cons info groups ih =>
        intro len s loaded
        by_cases he : info.groupId = groupId
        · have hstep := ih len (clientGroup len s info) false
          rw [listOf_clientGroup, he, Function.update_self] at hstep
          rw [List.foldl_cons, hstep, updates, updates, List.filter_cons_of_pos (by simpa using he)]
          rfl
        · have hstep := ih len (clientGroup len s info) loaded
          rw [listOf_clientGroup, Function.update_of_ne (Ne.symm he)] at hstep
          rw [List.foldl_cons, hstep, updates, updates, List.filter_cons_of_neg (by simpa using he)]
  rw [clientGroups]
  dsimp only
  split
  · exact hfold groups _ ⟨app, app.urlGroup, false⟩ loaded
  · exact hfold groups _ ⟨app, app.urlGroup, false⟩ loaded

theorem addKnown_membersId (app : App) (group : Group) (ids : List Int) :
    (addKnown app group ids).membersId = group.membersId :=
  (addKnown_divMembers app group ids).1

theorem listOf_one {app' : App} {u : Update Int} {loaded : Bool}
    (hother : ∀ groupId, groupId ≠ groupId' → listOf app' groupId = listOf app groupId)
    (hsame : listOf app' groupId' = ((⟨listOf app groupId', loaded⟩ : View Int).apply u).list)
    (groupId : Int) : listOf app' groupId =
      ((⟨listOf app groupId, loaded⟩ : View Int).after (if groupId' = groupId then [u] else [])).list := by
  by_cases he : groupId' = groupId
  · rw [if_pos he, ← he, hsame]
    rfl
  · rw [if_neg he, hother groupId (Ne.symm he)]
    rfl

theorem listOf_getMemberIds (app : App) (groupId' : Int) (ids : List Int) (groupId : Int) (loaded : Bool) :
    listOf (getMemberIds app groupId' ids) groupId =
      ((⟨listOf app groupId, loaded⟩ : View Int).after (updates groupId (.getMemberIds groupId' ids))).list := by
  cases hg : app.groups groupId' with
  | none =>
      have hsame : getMemberIds app groupId' ids = app := by simp only [getMemberIds, hg]
      refine listOf_one (fun _ _ => by rw [hsame]) ?_ groupId
      rw [hsame, listOf_none hg]
      rfl
  | some group =>
      have hgroups : (getMemberIds app groupId' ids).groups =
          (app.setGroup groupId' (addKnown app { group with membersId := ids } ids)).groups := by
        simp only [getMemberIds, hg]
        split <;> rfl
      have hlist : listOf (getMemberIds app groupId' ids) =
          listOf (app.setGroup groupId' (addKnown app { group with membersId := ids } ids)) := by
        funext groupId
        rw [listOf, listOf, hgroups]
      refine listOf_one (fun _ hne => by rw [hlist, listOf_setGroup_of_ne hne]) ?_ groupId
      rw [hlist, listOf_setGroup, addKnown_membersId, listOf_some hg]
      rfl

theorem listOf_joinGroup (app : App) (groupId' userId : Int) (groupId : Int) (loaded : Bool) :
    listOf (joinGroup app groupId' userId) groupId =
      ((⟨listOf app groupId, loaded⟩ : View Int).after (updates groupId (.joinGroup groupId' userId))).list := by
  cases hg : app.groups groupId' with
  | none =>
      have hsame : joinGroup app groupId' userId = app := by simp only [joinGroup, hg]
      refine listOf_one (fun _ _ => by rw [hsame]) ?_ groupId
      rw [hsame, listOf_none hg]
      rfl
  | some group =>
      have hset : ∃ group' : Group, group'.membersId = group.membersId ++ [userId] ∧
          (joinGroup app groupId' userId).groups = (app.setGroup groupId' group').groups := by
        simp only [joinGroup, hg]
        split
        · exact ⟨_, rfl, rfl⟩
        · exact ⟨_, rfl, rfl⟩
      obtain ⟨group', hids, hgroups⟩ := hset
      have hlist : listOf (joinGroup app groupId' userId) = listOf (app.setGroup groupId' group') := by
        funext groupId
        rw [listOf, listOf, hgroups]
      refine listOf_one (fun _ hne => by rw [hlist, listOf_setGroup_of_ne hne]) ?_ groupId
      rw [hlist, listOf_setGroup, hids, listOf_some hg]
      rfl

theorem listOf_getUser (app : App) (infos : List UserInfo) : listOf (getUser app infos) = listOf app := by
  induction infos generalizing app with
  | nil => rfl
  | cons info infos ih =>
      refine (ih _).trans (listOf_eachGroup ?_)
      intro group
      rw [Group.resolve]
      split <;> rfl

theorem listOf_rtusm (app : App) (userId : Int) (status pfpName : Option String) :
    listOf (rtusm app userId status pfpName) = listOf app := by
  have hstatus : ∀ (app : App) (user : User) (s : String), listOf (setStatus app user s) = listOf app :=
    fun _ _ _ => listOf_eachGroup (fun _ => rfl)
  have hpfp : ∀ (app : App) (user : User) (s : String), listOf (updatePfp app user s) = listOf app := by
    intro app user s
    rw [updatePfp]
    split
    · rfl
    · exact listOf_eachGroup (fun _ => rfl)
  rw [rtusm]
  split
  · rfl
  · dsimp only
    split <;> split
    · rfl
    · exact hstatus ..
    · exact hpfp ..
    · rw [hpfp, hstatus]

theorem listOf_packet (app : App) {packet : Packet} (hdel : ∀ groupId, packet ≠ .deleteGroup groupId)
    (groupId : Int) (loaded : Bool) : listOf (handlePacket app packet) groupId =
      ((⟨listOf app groupId, loaded⟩ : View Int).after (updates groupId packet)).list := by
  cases packet with
  | session | clientUserInfo | getAllGroups | other => rfl
  | clientGroups groups => exact listOf_clientGroups app groups groupId loaded
  | getMemberIds groupId' ids => exact listOf_getMemberIds app groupId' ids groupId loaded
  | joinGroup groupId' userId => exact listOf_joinGroup app groupId' userId groupId loaded
  | getUser infos => exact congrFun (listOf_getUser app infos) groupId
  | rtusm userId status pfpName => exact congrFun (listOf_rtusm app userId status pfpName) groupId
  | deleteGroup groupId' => exact absurd rfl (hdel groupId')
  | groupMsg groupId' msg =>
      simp only [handlePacket, groupMsg]
      split
      · next hg _ =>
          refine congrFun (listOf_keep hg ?_) groupId
          rfl
      · rfl
  | getGroupMsgs groupId' msgs =>
      simp only [handlePacket, getGroupMsgs]
      split
      · next group clientUser hg _ =>
          refine congrFun (listOf_keep hg ?_) groupId
          exact addMsgs_listed (I := fun group' => group'.membersId = group.membersId)
            (fun _ _ _ _ _ hids => hids) rfl msgs
      · rfl
  | deleteMsg groupId' msgId =>
      simp only [handlePacket, deleteMsg]
      split
      · rfl
      · next hg =>
          refine congrFun (listOf_keep hg ?_) groupId
          rfl

theorem addKnown_id (app : App) (group : Group) (ids : List Int) : (addKnown app group ids).id = group.id := by
  induction ids generalizing group with
  | nil => rfl
  | cons id ids ih =>
      refine (ih _).trans ?_
      dsimp only
      split <;> rfl

structure ShownIn (S : Int → Int → Prop) (groupId : Int) (group : Group) : Prop where
  id : group.id = groupId
  ids : ∀ id ∈ group.membersId, S groupId id
  divs : ∀ div ∈ group.divMembers, S groupId div.memberId

def Shown (S : Int → Int → Prop) (app : App) : Prop :=
  ∀ groupId group, app.groups groupId = some group → ShownIn S groupId group

variable {S : Int → Int → Prop}

theorem Shown.congr (h : Shown S app) {app' : App} (hgroups : app'.groups = app.groups) : Shown S app' :=
  fun groupId group hg => h groupId group (hgroups ▸ hg)

theorem Shown.setGroup (h : Shown S app) (hg : ShownIn S groupId group) :
    Shown S (app.setGroup groupId group) := by
  intro groupId' group' hg'
  by_cases he : groupId' = groupId
  · subst he
    simp only [App.setGroup, Function.update_self, Option.some.injEq] at hg'
    exact hg' ▸ hg
  · simp only [App.setGroup, Function.update_of_ne he] at hg'
    exact h groupId' group' hg'

theorem Shown.keep (h : Shown S app) (hg : app.groups groupId = some group) (hid : group'.id = group.id)
    (hids : group'.membersId = group.membersId) (hdivs : group'.divMembers = group.divMembers) :
    Shown S (app.setGroup groupId group') := by
  obtain ⟨hid', hids', hdivs'⟩ := h groupId group hg
  exact h.setGroup ⟨hid.trans hid', by rw [hids]; exact hids', by rw [hdivs]; exact hdivs'⟩

theorem shownPlain : Plain (Shown S) where
  send _ h := h
  offset _ h hg := h.keep hg rfl rfl rfl
  view h hgroups _ _ _ := h.congr hgroups
  new info h := by
    have hnew : ∀ serial, ShownIn S info.groupId (Group.new info serial) :=
      fun _ => ⟨rfl, nofun, nofun⟩
    exact Shown.congr (h.setGroup (hnew _)) rfl

theorem Shown.eachGroup {f : Group → Group}
    (hf : ∀ groupId group, app.groups groupId = some group → ShownIn S groupId (f group)) :
    Shown S (app.eachGroup f) := by
  intro groupId group hg
  obtain ⟨group', hg', rfl⟩ := Option.map_eq_some_iff.mp hg
  exact hf groupId group' hg'

theorem Shown.modifyMember (h : Shown S app) (userId : Int) {f : DivMember → DivMember}
    (hf : ∀ div, (f div).memberId = div.memberId) {f' : Group → Group}
    (hid : ∀ group, (f' group).id = group.id) (hids : ∀ group, (f' group).membersId = group.membersId)
    (hdivs : ∀ group, (f' group).divMembers = (group.modifyMember userId f).divMembers) :
    Shown S (app.eachGroup f') := by
  refine Shown.eachGroup (fun groupId group hg => ?_)
  refine ⟨(hid group).trans (h groupId group hg).id, by rw [hids]; exact (h groupId group hg).ids, ?_⟩
  intro div hd
  rw [hdivs] at hd
  have hmap : div.memberId ∈ group.divMembers.map DivMember.memberId := by
    rw [← ClientMembers.modifyFirst_map _ f _ hf]
    exact List.mem_map_of_mem hd
  obtain ⟨old, ho, he⟩ := List.mem_map.mp hmap
  exact he ▸ (h groupId group hg).divs old ho

theorem Shown.getUser (h : Shown S app) (infos : List UserInfo) : Shown S (getUser app infos) := by
  induction infos generalizing app with
  | nil => exact h
  | cons info infos ih =>
      refine ih ?_
      have hset : Shown S (app.setUser (User.new info)) := h.congr rfl
      refine Shown.eachGroup (fun groupId group hg => ?_)
      obtain ⟨hid, hids, hdivs⟩ := hset groupId group hg
      by_cases hm : (User.new info).id ∈ group.membersId
      · rw [Group.resolve, if_pos hm]
        refine ⟨hid, hids, fun div hd => ?_⟩
        rcases List.mem_append.mp hd with hd | hd
        · exact hdivs div hd
        · obtain rfl := List.mem_singleton.mp hd
          exact hids _ hm
      · rw [Group.resolve, if_neg hm]
        exact ⟨hid, hids, hdivs⟩

theorem Shown.rtusm (h : Shown S app) (userId : Int) (status pfpName : Option String) :
    Shown S (rtusm app userId status pfpName) := by
  have hstatus : ∀ {app : App} (user : User) (s : String), Shown S app → Shown S (setStatus app user s) :=
    fun user s h => (h.congr rfl).modifyMember user.id (f := fun div => { div with status := s })
      (fun _ => rfl) (fun _ => rfl) (fun _ => rfl) (fun _ => rfl)
  have hpfp : ∀ {app : App} (user : User) (s : String), Shown S app → Shown S (updatePfp app user s) := by
    intro app user s h
    rw [updatePfp]
    split
    · exact h.congr rfl
    · exact (h.congr rfl).modifyMember user.id (f := fun div => { div with img := pfpUrl s })
        (fun _ => rfl) (fun _ => rfl) (fun _ => rfl) (fun _ => rfl)
  rw [WebClient.rtusm]
  split
  · exact h
  · dsimp only
    split <;> split
    · exact h
    · exact hstatus _ _ h
    · exact hpfp _ _ h
    · exact hpfp _ _ (hstatus _ _ h)

def lists (packet : Packet) (groupId id : Int) : Prop :=
  (∃ as, .snapshot as ∈ updates groupId packet ∧ id ∈ as) ∨ .add id ∈ updates groupId packet

theorem Shown.packet (h : Shown S app) (hkeyed : Keyed app) {packet : Packet}
    (hs : ∀ groupId id, lists packet groupId id → S groupId id) (hc : packet.changes = true) :
    Shown S (handlePacket app packet) := by
  cases packet with
  | session | clientGroups | getAllGroups | other => cases hc
  | clientUserInfo info => exact h.congr rfl
  | getUser infos => exact h.getUser infos
  | rtusm userId status pfpName => exact h.rtusm userId status pfpName
  | deleteGroup groupId =>
      exact fun groupId' group' hg => h groupId' group' ((deleteGroup_frame app groupId).2.2.2 _ _ hg)
  | getMemberIds groupId ids =>
      have hids : ∀ id ∈ ids, S groupId id := fun id hid =>
        hs groupId id (.inl ⟨ids, by simp [updates], hid⟩)
      simp only [handlePacket, getMemberIds]
      split
      · exact h
      · next group hg =>
          obtain ⟨hlist, hdivs⟩ := addKnown_divMembers app { group with membersId := ids } ids
          have hset : Shown S (app.setGroup groupId (addKnown app { group with membersId := ids } ids)) := by
            refine h.setGroup ⟨(addKnown_id ..).trans (h groupId group hg).id, by rw [hlist]; exact hids, ?_⟩
            intro div hd
            rcases (hdivs div).mp hd with hd | ⟨id, hid, user, hu, rfl⟩
            · exact (h groupId group hg).divs div hd
            · change S groupId user.id
              rw [hkeyed id user hu]
              exact hids id hid
          split
          · exact hset
          · exact hset.congr rfl
  | joinGroup groupId userId =>
      have hid : S groupId userId := hs groupId userId (.inr (by simp [updates]))
      simp only [handlePacket, joinGroup]
      split
      · exact h
      · next group hg =>
          have hids : ∀ id ∈ group.membersId ++ [userId], S groupId id := by
            intro id hm
            rcases List.mem_append.mp hm with hm | hm
            · exact (h groupId group hg).ids id hm
            · exact List.mem_singleton.mp hm ▸ hid
          split
          · refine Shown.congr (h.setGroup ⟨?_, hids, ?_⟩) rfl
            · exact (h groupId group hg).id
            · exact (h groupId group hg).divs
          · next user hu =>
              refine h.setGroup ⟨(h groupId group hg).id, hids, ?_⟩
              intro div hd
              rcases List.mem_append.mp hd with hd | hd
              · exact (h groupId group hg).divs div hd
              · obtain rfl := List.mem_singleton.mp hd
                exact (hkeyed userId user hu).symm ▸ hid
  | groupMsg groupId msg =>
      simp only [handlePacket, groupMsg]
      split
      · next hg _ =>
          refine h.keep hg ?_ ?_ ?_ <;> rfl
      · exact h
  | getGroupMsgs groupId msgs =>
      simp only [handlePacket, getGroupMsgs]
      split
      · next group clientUser hg _ =>
          refine h.keep hg ?_ ?_ ?_
          · exact addMsgs_listed (I := fun group' => group'.id = group.id)
              (fun _ _ _ _ _ hid => hid) rfl msgs
          · exact addMsgs_listed (I := fun group' => group'.membersId = group.membersId)
              (fun _ _ _ _ _ hids => hids) rfl msgs
          · exact addMsgs_listed (I := fun group' => group'.divMembers = group.divMembers)
              (fun _ _ _ _ _ hdivs => hdivs) rfl msgs
      · exact h
  | deleteMsg groupId msgId =>
      simp only [handlePacket, deleteMsg]
      split
      · exact h
      · next hg =>
          refine h.keep hg ?_ ?_ ?_ <;> rfl

section Requests

variable {Q Q' : Request → Prop} {app' app'' : App}

/-- The page stays what it is, and only requests that may be are sent. -/
structure Extends (Q : Request → Prop) (app app' : App) : Prop where
  page : app'.loggedIn = app.loggedIn ∧ app'.leftPage = app.leftPage
  sent : ∃ rs, app'.sent = app.sent ++ rs ∧ ∀ r ∈ rs, Q r

theorem Extends.same (hpage : app'.loggedIn = app.loggedIn ∧ app'.leftPage = app.leftPage)
    (hsent : app'.sent = app.sent) : Extends Q app app' :=
  ⟨hpage, [], by rw [hsent, List.append_nil], nofun⟩

theorem Extends.trans (h : Extends Q app app') (h' : Extends Q app' app'') : Extends Q app app'' := by
  obtain ⟨hpage, rs, heq, hq⟩ := h
  obtain ⟨hpage', rs', heq', hq'⟩ := h'
  refine ⟨⟨hpage'.1.trans hpage.1, hpage'.2.trans hpage.2⟩, rs ++ rs', ?_, fun r hm => ?_⟩
  · rw [heq', heq, List.append_assoc]
  · exact (List.mem_append.mp hm).elim (hq r) (hq' r)

theorem Extends.mono (h : Extends Q app app') (hq : ∀ r, Q r → Q' r) : Extends Q' app app' := by
  obtain ⟨hpage, rs, heq, hrs⟩ := h
  exact ⟨hpage, rs, heq, fun r hm => hq r (hrs r hm)⟩

theorem Extends.not_mem (h : Extends Q app app') {r : Request} (hr : ¬ Q r) (hn : r ∉ app.sent) :
    r ∉ app'.sent := by
  obtain ⟨-, rs, heq, hq⟩ := h
  rw [heq, List.mem_append, not_or]
  exact ⟨hn, fun hm => hr (hq r hm)⟩

theorem Extends.subset (h : Extends Q app app') {r : Request} (hm : r ∈ app.sent) : r ∈ app'.sent := by
  obtain ⟨-, rs, heq, -⟩ := h
  rw [heq]
  exact List.mem_append_left _ hm

theorem Extends.send {r : Request} (hr : Q r) : Extends Q app (app.wsSend r) :=
  ⟨⟨rfl, rfl⟩, [r], rfl, fun _ hm => List.mem_singleton.mp hm ▸ hr⟩

def groupAsks (group : Group) : Request → Prop
  | .getMemberIds groupId => groupId = group.id ∧ group.membersId = []
  | .getGroupMsgs groupId _ _ => groupId = group.id
  | _ => False

theorem Extends.getMsgs (app : App) (groupId : Int) (group : Group) :
    Extends (groupAsks group) app (app.getMsgs groupId group) := by
  have hset : Extends (groupAsks group) app
      (app.setGroup groupId { group with msgOffset := group.msgOffset + limit }) := .same ⟨rfl, rfl⟩ rfl
  exact hset.trans (.send rfl)

theorem Extends.select (app : App) (groupId : Int) :
    Extends (fun r => ∃ group, app.groups groupId = some group ∧ groupAsks group r) app
      (app.select groupId) := by
  rw [App.select]
  cases hg : app.groups groupId with
  | none => exact .same ⟨rfl, rfl⟩ rfl
  | some group =>
      have hask : Extends (groupAsks group) app
          (if group.membersId.isEmpty then app.wsSend (.getMemberIds group.id) else app) := by
        split
        · next hids => exact .send ⟨rfl, List.isEmpty_iff.mp hids⟩
        · exact .same ⟨rfl, rfl⟩ rfl
      have hmsgs : ∀ app' : App, Extends (groupAsks group) app'
          (if group.messages.isEmpty then app'.getMsgs groupId group else app') := by
        intro app'
        split
        · exact .getMsgs ..
        · exact .same ⟨rfl, rfl⟩ rfl
      have hall := hask.trans (hmsgs _)
      refine Extends.mono (Q := groupAsks group) ?_ (fun r hr => ⟨group, rfl, hr⟩)
      exact hall.trans (.same ⟨rfl, rfl⟩ rfl)

theorem Extends.scroll (app : App) (groupId : Int) :
    Extends (fun r => ∃ group, app.groups groupId = some group ∧ groupAsks group r) app
      (app.scroll groupId) := by
  rw [App.scroll]
  cases hg : app.groups groupId with
  | none => exact .same ⟨rfl, rfl⟩ rfl
  | some group => exact (Extends.getMsgs app groupId group).mono (fun r hr => ⟨group, rfl, hr⟩)

def asks (app : App) : Packet → Request → Prop
  | .clientGroups groups, .getMemberIds groupId | .clientGroups groups, .getGroupMsgs groupId _ _ =>
      ∃ info ∈ groups, info.groupId = groupId
  | .getMemberIds groupId ids, .getUser unknown =>
      (app.groups groupId).isSome ∧ ∀ id ∈ unknown, id ∈ ids
  | .joinGroup groupId userId, .getUser unknown => (app.groups groupId).isSome ∧ unknown = [userId]
  | .getAllGroups groups, .getUser unknown => ∀ id ∈ unknown, ∃ group ∈ groups, group.ownerId = id
  | _, _ => False

theorem Extends.clientGroups (app : App) (groups : List GroupInfo) :
    Extends (asks app (.clientGroups groups)) app (clientGroups app groups) := by
  have hone : ∀ (len : Nat) (s : Groups) (info : GroupInfo), info ∈ groups →
      Extends (asks app (.clientGroups groups)) s.app (clientGroup len s info).app := by
    intro len s info hm
    have hselect : Extends (asks app (.clientGroups groups)) (s.app.addGroup info)
        ((s.app.addGroup info).select info.groupId) := by
      refine (Extends.select ..).mono ?_
      rintro r ⟨group, hg, hr⟩
      simp only [App.addGroup, App.setGroup, Function.update_self, Option.some.injEq] at hg
      subst hg
      cases r with
      | getMemberIds groupId => exact ⟨info, hm, hr.1.symm⟩
      | getGroupMsgs groupId limit offset => exact ⟨info, hm, hr.symm⟩
      | _ => exact hr
    have hadd : Extends (asks app (.clientGroups groups)) s.app (s.app.addGroup info) := .same ⟨rfl, rfl⟩ rfl
    have hstep : ∀ param : Option Int, Extends (asks app (.clientGroups groups)) s.app
        (if len = 1 ∨ param = some info.groupId
          then (⟨(s.app.addGroup info).select info.groupId, param, true⟩ : Groups)
          else ⟨s.app.addGroup info, param, s.selected⟩).app := by
      intro param
      split
      · exact hadd.trans hselect
      · exact hadd
    exact hstep _
  have hfold : ∀ (infos : List GroupInfo) (len : Nat) (s : Groups), (∀ info ∈ infos, info ∈ groups) →
      Extends (asks app (.clientGroups groups)) s.app (infos.foldl (clientGroup len) s).app := by
    intro infos
    induction infos with
    | nil => exact fun _ _ _ => .same ⟨rfl, rfl⟩ rfl
    | cons info infos ih =>
        intro len s hm
        exact (hone len s info (hm info List.mem_cons_self)).trans
          (ih len _ (fun info hi => hm info (List.mem_cons_of_mem _ hi)))
  have hall := hfold groups groups.length ⟨app, app.urlGroup, false⟩ (fun _ hm => hm)
  rw [WebClient.clientGroups]
  dsimp only
  split
  · exact hall
  · exact hall.trans (.same ⟨rfl, rfl⟩ rfl)

theorem Extends.rtusm (app : App) (userId : Int) (status pfpName : Option String) :
    Extends Q app (rtusm app userId status pfpName) := by
  have hpfp : ∀ (app : App) (user : User) (s : String), Extends Q app (updatePfp app user s) := by
    intro app user s
    rw [updatePfp]
    split <;> exact .same ⟨rfl, rfl⟩ rfl
  have hstatus : ∀ (app : App) (user : User) (s : String), Extends Q app (setStatus app user s) :=
    fun _ _ _ => .same ⟨rfl, rfl⟩ rfl
  rw [WebClient.rtusm]
  split
  · exact .same ⟨rfl, rfl⟩ rfl
  · dsimp only
    split <;> split
    · exact .same ⟨rfl, rfl⟩ rfl
    · exact hstatus ..
    · exact hpfp ..
    · exact (hstatus ..).trans (hpfp ..)

theorem Extends.getUser (app : App) (infos : List UserInfo) : Extends Q app (getUser app infos) := by
  induction infos generalizing app with
  | nil => exact .same ⟨rfl, rfl⟩ rfl
  | cons info infos ih =>
      have hone : Extends Q app ((app.setUser (User.new info)).eachGroup (Group.resolve (User.new info))) :=
        .same ⟨rfl, rfl⟩ rfl
      exact hone.trans (ih _)

theorem Extends.getAllGroups (app : App) (groups : List GroupInfo) :
    Extends (asks app (.getAllGroups groups)) app (getAllGroups app groups) := by
  refine .send (fun id hid => ?_)
  have hall : ∀ (groups : List GroupInfo) (requested : List Int) (id : Int),
      id ∈ groups.foldl (fun requested group =>
        if (app.users group.ownerId).isNone ∧ group.ownerId ∉ requested
        then requested ++ [group.ownerId] else requested) requested →
      id ∈ requested ∨ ∃ group ∈ groups, group.ownerId = id := by
    intro groups
    induction groups with
    | nil => exact fun _ _ hm => .inl hm
    | cons group groups ih =>
        intro requested id hm
        rcases ih _ id hm with hm | ⟨group', hg, heq⟩
        · beta_reduce at hm
          split at hm
          · rcases List.mem_append.mp hm with hm | hm
            · exact .inl hm
            · exact .inr ⟨group, List.mem_cons_self, (List.mem_singleton.mp hm).symm⟩
          · exact .inl hm
        · exact .inr ⟨group', List.mem_cons_of_mem _ hg, heq⟩
  exact (hall groups [] id hid).resolve_left List.not_mem_nil

theorem Extends.packet (app : App) {packet : Packet} (hsession : packet ≠ .session) :
    Extends (asks app packet) app (handlePacket app packet) := by
  cases packet with
  | session => exact absurd rfl hsession
  | clientUserInfo | other => exact .same ⟨rfl, rfl⟩ rfl
  | clientGroups groups => exact .clientGroups app groups
  | getUser infos => exact .getUser app infos
  | rtusm userId status pfpName => exact .rtusm app userId status pfpName
  | getAllGroups groups => exact .getAllGroups app groups
  | deleteGroup groupId =>
      simp only [handlePacket, deleteGroup]
      split
      · exact .same ⟨rfl, rfl⟩ rfl
      · split
        · exact .same ⟨rfl, rfl⟩ rfl
        · split
          · exact .same ⟨rfl, rfl⟩ rfl
          · split <;> exact .same ⟨rfl, rfl⟩ rfl
  | getMemberIds groupId ids =>
      simp only [handlePacket, getMemberIds]
      split
      · exact .same ⟨rfl, rfl⟩ rfl
      · next group hg =>
          have hset : Extends (asks app (.getMemberIds groupId ids)) app
              (app.setGroup groupId (addKnown app { group with membersId := ids } ids)) := .same ⟨rfl, rfl⟩ rfl
          split
          · exact hset
          · exact hset.trans (.send ⟨by rw [hg]; rfl, fun id hid => (List.mem_filter.mp hid).1⟩)
  | joinGroup groupId userId =>
      simp only [handlePacket, joinGroup]
      split
      · exact .same ⟨rfl, rfl⟩ rfl
      · next group hg =>
          split
          · have hset : Extends (asks app (.joinGroup groupId userId)) app
                (app.setGroup groupId { group with membersId := group.membersId ++ [userId] }) :=
              .same ⟨rfl, rfl⟩ rfl
            exact hset.trans (.send ⟨by rw [hg]; rfl, rfl⟩)
          · exact .same ⟨rfl, rfl⟩ rfl
  | groupMsg groupId msg =>
      simp only [handlePacket, groupMsg]
      split <;> exact .same ⟨rfl, rfl⟩ rfl
  | getGroupMsgs groupId msgs =>
      simp only [handlePacket, getGroupMsgs]
      split <;> exact .same ⟨rfl, rfl⟩ rfl
  | deleteMsg groupId msgId =>
      simp only [handlePacket, deleteMsg]
      split <;> exact .same ⟨rfl, rfl⟩ rfl

end Requests

section Users

theorem known_getUser (app : App) (infos : List UserInfo) (id : Int) :
    Known (getUser app infos) id ↔ Known app id ∨ ∃ info ∈ infos, info.userId = id := by
  induction infos generalizing app with
  | nil => simp [getUser]
  | cons info infos ih =>
      have hstep : Known ((app.setUser (User.new info)).eachGroup (Group.resolve (User.new info))) id ↔
          Known app id ∨ id = info.userId := ClientMembers.setUser_known app (User.new info) id
      refine (ih _).trans ?_
      rw [hstep, or_assoc]
      simp [eq_comm]

theorem knownPlain {id : Int} : Plain (fun app => Known app id) where
  send _ h := h
  offset _ h _ := h
  view h _ husers _ _ := by rw [Known, husers]; exact h
  new _ h := h

theorem known_packet {id : Int} (h : Known app id) (packet : Packet) : Known (handlePacket app packet) id := by
  have hset : ∀ {app : App} (user : User), Known app id → Known (app.setUser user) id :=
    fun user h => (ClientMembers.setUser_known _ user id).mpr (.inl h)
  cases packet with
  | session => exact knownPlain.cmdSession h
  | clientGroups groups => exact knownPlain.clientGroups h groups
  | getAllGroups groups => exact knownPlain.getAllGroups h groups
  | other => exact h
  | clientUserInfo info => exact hset (User.new info) h
  | getUser infos => exact (known_getUser app infos id).mpr (.inl h)
  | deleteGroup groupId =>
      change (deleteGroup app groupId).users id |>.isSome
      rw [(deleteGroup_frame app groupId).1]
      exact h
  | rtusm userId status pfpName =>
      have hpfp : ∀ {app : App} (user : User) (s : String), Known app id → Known (updatePfp app user s) id := by
        intro app user s h
        rw [updatePfp]
        split <;> exact hset _ h
      have hstatus : ∀ {app : App} (user : User) (s : String), Known app id →
          Known (setStatus app user s) id := fun user s h => hset { user with status := s } h
      simp only [handlePacket, rtusm]
      split
      · exact h
      · split <;> split
        · exact h
        · exact hstatus _ _ h
        · exact hpfp _ _ h
        · exact hpfp _ _ (hstatus _ _ h)
  | getMemberIds groupId ids =>
      simp only [handlePacket, getMemberIds]
      split
      · exact h
      · split <;> exact h
  | joinGroup groupId userId =>
      simp only [handlePacket, joinGroup]
      split
      · exact h
      · split <;> exact h
  | groupMsg groupId msg =>
      simp only [handlePacket, groupMsg]
      split <;> exact h
  | getGroupMsgs groupId msgs =>
      simp only [handlePacket, getGroupMsgs]
      split <;> exact h
  | deleteMsg groupId msgId =>
      simp only [handlePacket, deleteMsg]
      split <;> exact h

end Users

end ChityChat.MemberUpdates
