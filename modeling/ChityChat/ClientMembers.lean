import ChityChat.Transition
import ChityChat.WebClient

namespace ChityChat.ClientMembers

open Transition WebClient

variable {app : App} {known known' : Int → Prop} {sent sent' : List Request} {group : Group}

/-- The member list of a group against the users that are known: only known users are shown, every
listed user that is known is shown, and for the others the server has been asked. -/
structure Listed (known : Int → Prop) (sent : List Request) (group : Group) : Prop where
  users : ∀ div ∈ group.divMembers, known div.memberId
  shown : ∀ id ∈ group.membersId, known id → ∃ div ∈ group.divMembers, div.memberId = id
  asked : ∀ id ∈ group.membersId, ¬ known id → ∃ ids, .getUser ids ∈ sent ∧ id ∈ ids

def Known (app : App) (id : Int) : Prop := (app.users id).isSome

structure Inv (app : App) : Prop where
  keyed : Keyed app
  listed : ∀ groupId group, app.groups groupId = some group → Listed (Known app) app.sent group

/-- A packet about the user herself comes before the groups that list her, as the server answers
`client_user_info` and `client_groups`, or when she is known. -/
def InOrder (app : App) : Event → Prop
  | .packet (.clientUserInfo info) => ∀ groupId group, app.groups groupId = some group →
      info.userId ∈ group.membersId → Known app info.userId
  | _ => True

def Step (app : App) (e : Event) (app' : App) : Prop := InOrder app e ∧ app' = app.exec e

theorem Listed.congr (h : Listed known sent group) {group' : Group}
    (hdivs : group'.divMembers.map DivMember.memberId = group.divMembers.map DivMember.memberId)
    (hids : group'.membersId = group.membersId) : Listed known sent group' := by
  have hmem : ∀ id, (∃ div ∈ group'.divMembers, div.memberId = id) ↔
      ∃ div ∈ group.divMembers, div.memberId = id := by
    intro id
    rw [← List.mem_map, hdivs, List.mem_map]
  refine ⟨?_, ?_, ?_⟩
  · intro div hd
    obtain ⟨div', hd', heq⟩ := (hmem div.memberId).mp ⟨div, hd, rfl⟩
    exact heq ▸ h.users div' hd'
  · intro id hid hk
    exact (hmem id).mpr (h.shown id (hids ▸ hid) hk)
  · intro id hid hk
    exact h.asked id (hids ▸ hid) hk

theorem Listed.mono (h : Listed known sent group) (hknown : ∀ id, known' id ↔ known id)
    (hsent : ∀ r ∈ sent, r ∈ sent') : Listed known' sent' group where
  users div hd := (hknown _).mpr (h.users div hd)
  shown id hid hk := h.shown id hid ((hknown id).mp hk)
  asked id hid hk := by
    obtain ⟨ids, hr, hm⟩ := h.asked id hid (fun hk' => hk ((hknown id).mpr hk'))
    exact ⟨ids, hsent _ hr, hm⟩

theorem Listed.addMember (h : Listed known sent group) {user : User} (hu : known user.id) :
    Listed known sent (group.addMember user) where
  users div hd := by
    rcases List.mem_append.mp hd with hd | hd
    · exact h.users div hd
    · obtain rfl := List.mem_singleton.mp hd
      exact hu
  shown id hid hk := by
    obtain ⟨div, hd, heq⟩ := h.shown id hid hk
    exact ⟨div, List.mem_append_left _ hd, heq⟩
  asked := h.asked

theorem modifyFirst_map {α β : Type} (p : α → Bool) (f : α → α) (key : α → β)
    (hf : ∀ a, key (f a) = key a) (as : List α) : (modifyFirst p f as).map key = as.map key := by
  induction as with
  | nil => rfl
  | cons a as ih =>
      rw [modifyFirst]
      split
      · rw [List.map_cons, List.map_cons, hf]
      · rw [List.map_cons, List.map_cons, ih]

theorem Listed.modifyMember (h : Listed known sent group) (userId : Int) {f : DivMember → DivMember}
    (hf : ∀ div, (f div).memberId = div.memberId) : Listed known sent (group.modifyMember userId f) :=
  h.congr (modifyFirst_map _ f _ hf _) rfl

theorem Listed.modifyMsgs (h : Listed known sent group) (userId : Int) (f : DivMsg → DivMsg) :
    Listed known sent (group.modifyMsgs userId f) :=
  h.congr rfl rfl

theorem Listed.resolve (h : Listed known sent group) {user : User}
    (hknown : ∀ id, known' id ↔ known id ∨ id = user.id) :
    Listed known' sent (Group.resolve user group) := by
  have hbase : Listed known' sent
      (if user.id ∈ group.membersId
        then (group.addMember user).modifyMsgs user.id (DivMsg.show user) else group) := by
    by_cases hm : user.id ∈ group.membersId
    · rw [if_pos hm]
      refine ⟨?_, ?_, ?_⟩
      · intro div hd
        rcases List.mem_append.mp hd with hd | hd
        · exact (hknown _).mpr (.inl (h.users div hd))
        · obtain rfl := List.mem_singleton.mp hd
          exact (hknown _).mpr (.inr rfl)
      · intro id hid hk
        rcases (hknown id).mp hk with hk | rfl
        · obtain ⟨div, hd, heq⟩ := h.shown id hid hk
          exact ⟨div, List.mem_append_left _ hd, heq⟩
        · exact ⟨_, List.mem_append_right _ (List.mem_singleton_self _), rfl⟩
      · intro id hid hk
        exact h.asked id hid (fun hk' => hk ((hknown id).mpr (.inl hk')))
    · rw [if_neg hm]
      refine ⟨?_, ?_, ?_⟩
      · intro div hd
        exact (hknown _).mpr (.inl (h.users div hd))
      · intro id hid hk
        rcases (hknown id).mp hk with hk | rfl
        · exact h.shown id hid hk
        · exact absurd hid hm
      · intro id hid hk
        exact h.asked id hid (fun hk' => hk ((hknown id).mpr (.inl hk')))
  exact hbase.modifyMsgs _ _

theorem addKnown_divMembers (app : App) (group : Group) (ids : List Int) :
    (addKnown app group ids).membersId = group.membersId ∧
      ∀ div, div ∈ (addKnown app group ids).divMembers ↔ div ∈ group.divMembers ∨
        ∃ id ∈ ids, ∃ user, app.users id = some user ∧
          div = ⟨user.id, user.displayname, pfpUrl user.pfpName, user.status⟩ := by
  induction ids generalizing group with
  | nil => simp [addKnown]
  | cons id ids ih =>
      cases hu : app.users id with
      | none =>
          obtain ⟨hids, hdivs⟩ := ih group
          have hstep : addKnown app group (id :: ids) = addKnown app group ids := by
            simp only [addKnown, List.foldl_cons, hu]
          rw [hstep]
          refine ⟨hids, fun div => (hdivs div).trans (or_congr_right ?_)⟩
          simp [hu]
      | some user =>
          obtain ⟨hids, hdivs⟩ := ih (group.addMember user)
          have hstep : addKnown app group (id :: ids) = addKnown app (group.addMember user) ids := by
            simp only [addKnown, List.foldl_cons, hu]
          rw [hstep]
          refine ⟨hids, fun div => (hdivs div).trans ?_⟩
          simp [Group.addMember, hu, or_assoc]

theorem Inv.setGroup (h : Inv app) (groupId : Int) (hg : Listed (Known app) app.sent group) :
    Inv (app.setGroup groupId group) where
  keyed := h.keyed
  listed groupId' group' hg' := by
    rcases setGroup_cases hg' with rfl | hg'
    · exact hg
    · exact h.listed groupId' group' hg'

theorem Inv.wsSend (h : Inv app) (r : Request) : Inv (app.wsSend r) where
  keyed := h.keyed
  listed groupId group hg :=
    (h.listed groupId group hg).mono (fun _ => Iff.rfl) (fun _ hr => List.mem_append_left _ hr)

theorem Inv.congr (h : Inv app) {app' : App} (hgroups : app'.groups = app.groups)
    (husers : app'.users = app.users) (hsent : app'.sent = app.sent) : Inv app' where
  keyed id user hu := h.keyed id user (husers ▸ hu)
  listed groupId group hg :=
    (h.listed groupId group (hgroups ▸ hg)).mono (fun id => by rw [Known, Known, husers])
      (fun r hr => hsent ▸ hr)

theorem plain : Plain Inv where
  send r h := h.wsSend r
  offset _ h hg := h.setGroup _ ((h.listed _ _ hg).congr rfl rfl)
  view h hgroups husers _ hsent := h.congr hgroups husers hsent
  new info h := by
    refine Inv.congr (h.setGroup info.groupId ⟨?_, ?_, ?_⟩) rfl rfl rfl <;> intro x hx <;> cases hx

theorem setUser_known (app : App) (user : User) (id : Int) :
    Known (app.setUser user) id ↔ Known app id ∨ id = user.id := by
  by_cases he : id = user.id
  · simp [Known, App.setUser, he]
  · simp [Known, App.setUser, he]

theorem Inv.setUser (h : Inv app) {user : User}
    (hk : ∀ groupId group, app.groups groupId = some group → user.id ∈ group.membersId →
      Known app user.id) : Inv (app.setUser user) where
  keyed := h.keyed.setUser user
  listed groupId group hg := by
    have hl := h.listed groupId group hg
    refine ⟨?_, ?_, ?_⟩
    · exact fun div hd => (setUser_known app user _).mpr (.inl (hl.users div hd))
    · intro id hid hid'
      rcases (setUser_known app user id).mp hid' with hid' | rfl
      · exact hl.shown id hid hid'
      · exact hl.shown _ hid (hk groupId group hg hid)
    · exact fun id hid hid' => hl.asked id hid (fun hk' => hid' ((setUser_known app user id).mpr (.inl hk')))

theorem Inv.eachGroup (h : Inv app) {f : Group → Group}
    (hf : ∀ group, Listed (Known app) app.sent group → Listed (Known app) app.sent (f group)) :
    Inv (app.eachGroup f) where
  keyed := h.keyed
  listed groupId group hg := by
    obtain ⟨group', hg', rfl⟩ := Option.map_eq_some_iff.mp hg
    exact hf group' (h.listed groupId group' hg')

theorem Inv.resolveUser (h : Inv app) (user : User) :
    Inv ((app.setUser user).eachGroup (Group.resolve user)) where
  keyed := h.keyed.setUser user
  listed groupId group hg := by
    obtain ⟨group', hg', rfl⟩ := Option.map_eq_some_iff.mp hg
    exact (h.listed groupId group' hg').resolve (setUser_known app user)

theorem Inv.getUser (h : Inv app) (users : List UserInfo) : Inv (getUser app users) := by
  induction users generalizing app with
  | nil => exact h
  | cons info users ih => exact ih (h.resolveUser (User.new info))

theorem Inv.getMemberIds (h : Inv app) (groupId : Int) (ids : List Int) :
    Inv (getMemberIds app groupId ids) := by
  rw [WebClient.getMemberIds]
  cases hg : app.groups groupId with
  | none => exact h
  | some group =>
      have hl := h.listed groupId group hg
      obtain ⟨hids, hdivs⟩ := addKnown_divMembers app { group with membersId := ids } ids
      change (addKnown app { group with membersId := ids } ids).membersId = ids at hids
      -- Until the request is sent the unknown members are all that is missing.
      have hlisted : ∀ sent, (∀ r ∈ app.sent, r ∈ sent) →
          (∀ id ∈ ids, ¬ Known app id → ∃ us, Request.getUser us ∈ sent ∧ id ∈ us) →
          Listed (Known app) sent (addKnown app { group with membersId := ids } ids) := by
        intro sent hsent hask
        refine ⟨?_, ?_, ?_⟩
        · intro div hd
          rcases (hdivs div).mp hd with hd | ⟨id, -, user, hu, rfl⟩
          · exact hl.users div hd
          · change (app.users user.id).isSome
            rw [h.keyed id user hu, hu]
            rfl
        · intro id hid hk
          obtain ⟨user, hu⟩ := Option.isSome_iff_exists.mp hk
          refine ⟨_, (hdivs _).mpr (.inr ⟨id, hids ▸ hid, user, hu, rfl⟩), h.keyed id user hu⟩
        · intro id hid hk
          exact hask id (hids ▸ hid) hk
      dsimp only
      split
      next hnone =>
        refine h.setGroup groupId (hlisted _ (fun _ hr => hr) ?_)
        intro id hid hk
        have hin : id ∈ ids.filter (fun userId => (app.users userId).isNone) := by
          simpa [hid, Known] using hk
        have hempty : (ids.filter (fun userId => (app.users userId).isNone)).isEmpty := hnone
        rw [List.isEmpty_iff.mp hempty] at hin
        cases hin
      next hsome =>
        have hsent : ∀ r ∈ app.sent,
            r ∈ app.sent ++ [.getUser (ids.filter (fun userId => (app.users userId).isNone))] :=
          fun r hr => List.mem_append_left _ hr
        have hall : Listed (Known app)
            (app.sent ++ [.getUser (ids.filter (fun userId => (app.users userId).isNone))])
            (addKnown app { group with membersId := ids } ids) := by
          refine hlisted _ hsent ?_
          intro id hid hk
          exact ⟨_, List.mem_append_right _ (List.mem_singleton_self _), by simpa [hid, Known] using hk⟩
        exact (h.wsSend _).setGroup groupId hall

theorem Inv.joinGroup (h : Inv app) (groupId userId : Int) : Inv (joinGroup app groupId userId) := by
  rw [WebClient.joinGroup]
  cases hg : app.groups groupId with
  | none => exact h
  | some group =>
      have hl := h.listed groupId group hg
      -- The group with the new id, once that one is shown or asked for.
      have hlisted : ∀ (sent : List Request) (divs : List DivMember) (members : List Int),
          (∀ r ∈ app.sent, r ∈ sent) → (∀ div ∈ group.divMembers, div ∈ divs) →
          (∀ div ∈ divs, Known app div.memberId) →
          (Known app userId → ∃ div ∈ divs, div.memberId = userId) →
          (¬ Known app userId → ∃ us, Request.getUser us ∈ sent ∧ userId ∈ us) →
          Listed (Known app) sent { group with
            membersId := group.membersId ++ [userId], divMembers := divs, members := members } := by
        intro sent divs members hsent hdivs husers hshown hask
        refine ⟨husers, ?_, ?_⟩
        · intro id hid hk
          rcases List.mem_append.mp hid with hid | hid
          · obtain ⟨div, hd, heq⟩ := hl.shown id hid hk
            exact ⟨div, hdivs div hd, heq⟩
          · obtain rfl := List.mem_singleton.mp hid
            exact hshown hk
        · intro id hid hk
          rcases List.mem_append.mp hid with hid | hid
          · obtain ⟨us, hr, hm⟩ := hl.asked id hid hk
            exact ⟨us, hsent _ hr, hm⟩
          · obtain rfl := List.mem_singleton.mp hid
            exact hask hk
      cases hu : app.users userId with
      | none =>
          have hk : ¬ Known app userId := by simp [Known, hu]
          refine (h.wsSend (.getUser [userId])).setGroup groupId ?_
          exact hlisted _ _ group.members (fun _ hr => List.mem_append_left _ hr) (fun _ hd => hd) hl.users
            (fun hk' => absurd hk' hk)
            (fun _ => ⟨_, List.mem_append_right _ (List.mem_singleton_self _), List.mem_singleton_self _⟩)
      | some user =>
          have hid := h.keyed userId user hu
          have hk : Known app user.id := by simp [Known, hid, hu]
          refine h.setGroup groupId (hlisted _ _ _ (fun _ hr => hr)
            (fun _ hd => List.mem_append_left _ hd) ?_ ?_ (fun hn => absurd (hid ▸ hk) hn))
          · intro div hd
            rcases List.mem_append.mp hd with hd | hd
            · exact hl.users div hd
            · obtain rfl := List.mem_singleton.mp hd
              exact hk
          · exact fun _ => ⟨_, List.mem_append_right _ (List.mem_singleton_self _), hid⟩

theorem addMsgs_listed {I : Group → Prop} (hI : ∀ group clientUser user msg insert, I group →
    I (group.addMsg clientUser user msg insert)) {users : Msg → MsgUser} {clientUser : Int}
    (h : I group) (msgs : List Msg) :
    I (msgs.foldl (fun group msg => group.addMsg clientUser (users msg) msg true) group) := by
  induction msgs generalizing group with
  | nil => exact h
  | cons msg msgs ih => exact ih (hI _ _ _ _ _ h)

theorem Inv.rtusm (h : Inv app) (userId : Int) (status pfpName : Option String) :
    Inv (rtusm app userId status pfpName) := by
  -- A known user is set again, and the elements keep their ids.
  have hset : ∀ {app : App} {user : User}, Inv app → Known app user.id → Inv (app.setUser user) :=
    fun h hk => h.setUser (fun _ _ _ _ => hk)
  have hstatus : ∀ {app : App} {user : User} (s : String), Inv app → Known app user.id →
      Inv (setStatus app user s) := by
    intro app user s h hk
    have hs : Inv (app.setUser { user with status := s }) := hset h hk
    exact hs.eachGroup (fun _ hl => hl.modifyMember _ (fun _ => rfl))
  have hpfp : ∀ {app : App} {user : User} (s : String), Inv app → Known app user.id →
      Inv (updatePfp app user s) := by
    intro app user s h hk
    have hs : Inv (app.setUser { user with pfpName := s }) := hset h hk
    rw [updatePfp]
    split
    · exact hs
    · refine hs.eachGroup ?_
      intro group hl
      refine Listed.modifyMsgs ?_ _ _
      exact hl.modifyMember _ (fun _ => rfl)
  rw [WebClient.rtusm]
  cases hu : app.users userId with
  | none => exact h
  | some user =>
      have hk : Known app user.id := by simp [Known, h.keyed userId user hu, hu]
      dsimp only
      split <;> split
      · exact h
      · exact hstatus _ h hk
      · exact hpfp _ h hk
      · refine hpfp _ (hstatus _ h hk) ?_
        exact (setUser_known app { user with status := _ } user.id).mpr (.inl hk)

theorem Inv.clientUserInfo (h : Inv app) {info : UserInfo}
    (hk : ∀ groupId group, app.groups groupId = some group → info.userId ∈ group.membersId →
      Known app info.userId) : Inv (clientUserInfo app info) := by
  have hs : Inv (app.setUser (User.new info)) := h.setUser hk
  exact ⟨hs.keyed, hs.listed⟩

theorem Inv.deleteGroup (h : Inv app) (groupId : Int) : Inv (deleteGroup app groupId) := by
  obtain ⟨husers, hsent, -, hgroups⟩ := deleteGroup_frame app groupId
  refine ⟨fun id user hu => h.keyed id user (husers ▸ hu), fun groupId' group' hg' => ?_⟩
  exact (h.listed groupId' group' (hgroups _ _ hg')).mono (fun id => by rw [Known, Known, husers])
    (fun r hr => hsent ▸ hr)

theorem Inv.packet (h : Inv app) {packet : Packet} (ho : InOrder app (.packet packet))
    (hc : packet.changes = true) : Inv (handlePacket app packet) := by
  cases packet with
  | session | clientGroups | getAllGroups | other => cases hc
  | clientUserInfo info => exact h.clientUserInfo ho
  | getMemberIds groupId ids => exact h.getMemberIds groupId ids
  | getUser users => exact h.getUser users
  | groupMsg groupId msg =>
      simp only [handlePacket, groupMsg]
      split
      next hg _ => exact h.setGroup groupId ((h.listed _ _ hg).congr rfl rfl)
      next => exact h
  | getGroupMsgs groupId msgs =>
      simp only [handlePacket, getGroupMsgs]
      split
      next hg _ =>
        exact h.setGroup groupId (addMsgs_listed (fun _ _ _ _ _ hl => hl.congr rfl rfl) (h.listed _ _ hg) msgs)
      next => exact h
  | joinGroup groupId userId => exact h.joinGroup groupId userId
  | deleteMsg groupId msgId =>
      simp only [handlePacket, deleteMsg]
      split
      next => exact h
      next hg => exact h.setGroup groupId ((h.listed _ _ hg).congr rfl rfl)
  | rtusm userId status pfpName => exact h.rtusm userId status pfpName
  | deleteGroup groupId => exact h.deleteGroup groupId

theorem reachable_inv (h : Reachable Starts Step app) : Inv app := by
  refine h.invariant ?_ ?_
  · rintro app ⟨urlGroup, storedGroup, rfl⟩
    exact ⟨nofun, nofun⟩
  · rintro app e app' hi ⟨ho, rfl⟩
    exact plain.exec hi (fun packet he hc => hi.packet (he ▸ ho) hc)

end ChityChat.ClientMembers
