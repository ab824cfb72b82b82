import ChityChat.Transition
import ChityChat.WebClient

namespace ChityChat.ClientDisplay

open Transition WebClient

variable {app : App} {users users' : Int → Option User} {group : Group}

section Messages

/-- Every message whose sender is known shows the sender's name and picture. -/
def MsgsCurrent (users : Int → Option User) (group : Group) : Prop :=
  ∀ div ∈ group.divMsgs, ∀ id user, div.msgUserId = some id → users id = some user →
    div.displayname = user.displayname ∧ div.img = some (pfpUrl user.pfpName)

structure MsgsInv (app : App) : Prop where
  keyed : Keyed app
  current : ∀ groupId group, app.groups groupId = some group → MsgsCurrent app.users group
  silent : app.clientUser = none → ∀ groupId group, app.groups groupId = some group →
    group.divMsgs = []

/-- `client_user_info` does not go through the messages: it comes before any of hers are shown, or
says what they show. -/
def SelfFirst (app : App) : Event → Prop
  | .packet (.clientUserInfo info) => ∀ groupId group, app.groups groupId = some group →
      ∀ div ∈ group.divMsgs, div.msgUserId = some info.userId →
        div.displayname = info.displayname ∧ div.img = some (pfpUrl (User.new info).pfpName)
  | _ => True

theorem MsgsInv.congr (h : MsgsInv app) {app' : App} (hgroups : app'.groups = app.groups)
    (husers : app'.users = app.users) (hclient : app'.clientUser = app.clientUser) : MsgsInv app' where
  keyed id user hu := h.keyed id user (husers ▸ hu)
  current groupId group hg := husers ▸ h.current groupId group (hgroups ▸ hg)
  silent hc groupId group hg := h.silent (hclient ▸ hc) groupId group (hgroups ▸ hg)

theorem MsgsInv.setGroup (h : MsgsInv app) (groupId : Int) (hg : MsgsCurrent app.users group)
    (hs : app.clientUser = none → group.divMsgs = []) : MsgsInv (app.setGroup groupId group) := by
  refine ⟨h.keyed, ?_, ?_⟩
  · intro groupId' group' hg'
    rcases setGroup_cases hg' with rfl | hg'
    · exact hg
    · exact h.current groupId' group' hg'
  · intro hc groupId' group' hg'
    rcases setGroup_cases hg' with rfl | hg'
    · exact hs hc
    · exact h.silent hc groupId' group' hg'

theorem MsgsInv.keep (h : MsgsInv app) {groupId : Int} (hg : app.groups groupId = some group)
    {group' : Group} (hdivs : group'.divMsgs = group.divMsgs) : MsgsInv (app.setGroup groupId group') :=
  h.setGroup groupId (fun div hd => h.current groupId group hg div (hdivs ▸ hd))
    (fun hc => hdivs.trans (h.silent hc groupId group hg))

theorem mem_modifyMsgs {userId : Int} {f : DivMsg → DivMsg} {div : DivMsg}
    (hd : div ∈ (group.modifyMsgs userId f).divMsgs) : ∃ old ∈ group.divMsgs,
      (old.msgUserId = some userId ∧ div = f old) ∨ (old.msgUserId ≠ some userId ∧ div = old) := by
  obtain ⟨old, ho, rfl⟩ := List.mem_map.mp hd
  by_cases hid : old.msgUserId = some userId
  · exact ⟨old, ho, .inl ⟨hid, if_pos hid⟩⟩
  · exact ⟨old, ho, .inr ⟨hid, if_neg hid⟩⟩

theorem MsgsCurrent.modify (h : MsgsCurrent users group) {user : User} {f : DivMsg → DivMsg}
    (hid : ∀ div, (f div).msgUserId = div.msgUserId)
    (hf : ∀ div ∈ group.divMsgs, div.msgUserId = some user.id →
      (f div).displayname = user.displayname ∧ (f div).img = some (pfpUrl user.pfpName)) :
    MsgsCurrent (Function.update users user.id (some user)) (group.modifyMsgs user.id f) := by
  intro div hd id user' hm hu
  obtain ⟨old, ho, ⟨hold, rfl⟩ | ⟨hold, rfl⟩⟩ := mem_modifyMsgs hd
  · rw [hid, hold, Option.some.injEq] at hm
    subst hm
    rw [Function.update_self, Option.some.injEq] at hu
    exact hu ▸ hf old ho hold
  · have hne : id ≠ user.id := fun e => hold (e ▸ hm)
    rw [Function.update_of_ne hne] at hu
    exact h _ ho id user' hm hu

theorem MsgsCurrent.resolve (h : MsgsCurrent users group) (user : User) :
    MsgsCurrent (Function.update users user.id (some user)) (Group.resolve user group) := by
  have hone : MsgsCurrent (Function.update users user.id (some user))
      (group.modifyMsgs user.id (DivMsg.show user)) := h.modify (fun _ => rfl) (fun _ _ _ => ⟨rfl, rfl⟩)
  have htwice : MsgsCurrent (Function.update (Function.update users user.id (some user)) user.id (some user))
      ((group.modifyMsgs user.id (DivMsg.show user)).modifyMsgs user.id (DivMsg.show user)) :=
    hone.modify (fun _ => rfl) (fun _ _ _ => ⟨rfl, rfl⟩)
  rw [Function.update_idem] at htwice
  rw [Group.resolve]
  split
  · exact htwice
  · exact hone

theorem MsgsInv.eachGroup (h : MsgsInv app) (user : User) {f : Group → Group}
    (hf : ∀ groupId group, app.groups groupId = some group →
      MsgsCurrent (app.setUser user).users (f group) ∧ (group.divMsgs = [] → (f group).divMsgs = [])) :
    MsgsInv ((app.setUser user).eachGroup f) where
  keyed := h.keyed.setUser user
  current groupId group hg := by
    obtain ⟨group', hg', rfl⟩ := Option.map_eq_some_iff.mp hg
    exact (hf groupId group' hg').1
  silent hc groupId group hg := by
    obtain ⟨group', hg', rfl⟩ := Option.map_eq_some_iff.mp hg
    exact (hf groupId group' hg').2 (h.silent hc groupId group' hg')

theorem MsgsInv.getUser (h : MsgsInv app) (infos : List UserInfo) : MsgsInv (getUser app infos) := by
  induction infos generalizing app with
  | nil => exact h
  | cons info infos ih =>
      refine ih (h.eachGroup (User.new info) (fun groupId group hg => ?_))
      refine ⟨(h.current groupId group hg).resolve _, fun hnil => ?_⟩
      rw [Group.resolve]
      split <;> simp [Group.modifyMsgs, Group.addMember, hnil]

theorem addKnown_divMsgs (app : App) (group : Group) (ids : List Int) :
    (addKnown app group ids).divMsgs = group.divMsgs := by
  induction ids generalizing group with
  | nil => rfl
  | cons id ids ih =>
      refine (ih _).trans ?_
      dsimp only
      split <;> rfl

theorem MsgsInv.getMemberIds (h : MsgsInv app) (groupId : Int) (ids : List Int) :
    MsgsInv (getMemberIds app groupId ids) := by
  rw [WebClient.getMemberIds]
  split
  · exact h
  · next group hg =>
      have hset : MsgsInv (app.setGroup groupId (addKnown app { group with membersId := ids } ids)) :=
        h.keep hg (addKnown_divMsgs ..)
      dsimp only
      split
      · exact hset
      · exact hset.congr rfl rfl rfl

theorem MsgsInv.joinGroup (h : MsgsInv app) (groupId userId : Int) :
    MsgsInv (joinGroup app groupId userId) := by
  rw [WebClient.joinGroup]
  split
  · exact h
  · next group hg =>
      dsimp only
      split
      · have hset : MsgsInv (app.setGroup groupId { group with membersId := group.membersId ++ [userId] }) :=
          h.keep hg rfl
        exact hset.congr rfl rfl rfl
      · exact h.keep hg rfl

theorem MsgsCurrent.addMsg (h : MsgsCurrent users group) {clientUser : Int} {user : MsgUser} {msg : Msg}
    {insert : Bool} (hu : ∀ id user', user.id = some id → users id = some user' →
      user.displayname = user'.displayname ∧ user.pfpUrl = some (pfpUrl user'.pfpName)) :
    MsgsCurrent users (group.addMsg clientUser user msg insert) := by
  intro div hd id user' hm hk
  have hcases : div.msgUserId = user.id ∧ div.displayname = user.displayname ∧ div.img = user.pfpUrl ∨
      div ∈ group.divMsgs := by
    cases insert with
    | true =>
        rcases List.mem_cons.mp hd with rfl | hd
        · exact .inl ⟨rfl, rfl, rfl⟩
        · exact .inr hd
    | false =>
        rcases List.mem_append.mp hd with hd | hd
        · exact .inr hd
        · obtain rfl := List.mem_singleton.mp hd
          exact .inl ⟨rfl, rfl, rfl⟩
  rcases hcases with ⟨hid, hname, himg⟩ | hd
  · rw [hname, himg]
    exact hu id user' (hid ▸ hm) hk
  · exact h div hd id user' hm hk

theorem MsgsInv.groupMsg (h : MsgsInv app) (groupId : Int) (msg : Msg) :
    MsgsInv (groupMsg app groupId msg) := by
  rw [WebClient.groupMsg]
  split
  · next group clientUser hg hc =>
      refine h.setGroup groupId ((h.current groupId group hg).addMsg ?_) (fun hn => by rw [hc] at hn; cases hn)
      intro id user' hid hu
      cases hk : app.users msg.userId with
      | none =>
          rw [hk] at hid
          cases hid
      | some user =>
          simp only [hk, msgUserOf, Option.some.injEq] at hid ⊢
          have hkey := h.keyed msg.userId user hk
          rw [← hid, hkey, hk, Option.some.injEq] at hu
          exact ⟨by rw [hu], by rw [hu]⟩
  · exact h

theorem MsgsInv.getGroupMsgs (h : MsgsInv app) (groupId : Int) (msgs : List Msg) :
    MsgsInv (getGroupMsgs app groupId msgs) := by
  rw [WebClient.getGroupMsgs]
  split
  · next group clientUser hg hc =>
      refine h.setGroup groupId ?_ (fun hn => by rw [hc] at hn; cases hn)
      have hgroup := h.current groupId group hg
      clear hg
      induction msgs generalizing group with
      | nil => exact hgroup
      | cons msg msgs ih =>
          refine ih _ (hgroup.addMsg ?_)
          intro id user' hid hu
          cases hk : app.users msg.userId with
          | none =>
              simp only [hk, Option.some.injEq] at hid
              rw [← hid, hk] at hu
              cases hu
          | some user =>
              simp only [hk, msgUserOf, Option.some.injEq] at hid ⊢
              have hkey := h.keyed msg.userId user hk
              rw [← hid, hkey, hk, Option.some.injEq] at hu
              exact ⟨by rw [hu], by rw [hu]⟩
  · exact h

theorem MsgsInv.deleteMsg (h : MsgsInv app) (groupId msgId : Int) :
    MsgsInv (deleteMsg app groupId msgId) := by
  rw [WebClient.deleteMsg]
  split
  · exact h
  · next group hg =>
      refine h.setGroup groupId ?_ (fun hc => by rw [h.silent hc groupId group hg]; rfl)
      intro div hd
      exact h.current groupId group hg div (List.mem_of_mem_eraseP hd)

theorem MsgsInv.setStatus (h : MsgsInv app) {user : User} (hu : app.users user.id = some user)
    (status : String) : MsgsInv (setStatus app user status) := by
  refine h.eachGroup { user with status := status } (fun groupId group hg => ⟨?_, id⟩)
  intro div hd id user' hm hk
  by_cases he : id = user.id
  · subst he
    simp only [App.setUser, Function.update_self, Option.some.injEq] at hk
    obtain ⟨hname, himg⟩ := h.current groupId group hg div hd user.id user hm hu
    exact ⟨by rw [hname, ← hk], by rw [himg, ← hk]⟩
  · simp only [App.setUser, Function.update_of_ne he] at hk
    exact h.current groupId group hg div hd id user' hm hk

theorem MsgsInv.updatePfp (h : MsgsInv app) {user : User}
    (hname : ∃ user', app.users user.id = some user' ∧ user'.displayname = user.displayname)
    (pfpName : String) : MsgsInv (updatePfp app user pfpName) := by
  obtain ⟨user', hu, hname⟩ := hname
  rw [WebClient.updatePfp]
  split
  · next hc =>
      -- Before `client_user` is there no message is shown.
      refine ⟨h.keyed.setUser _, ?_, fun _ => h.silent hc⟩
      intro groupId group hg div hd
      rw [h.silent hc groupId group hg] at hd
      cases hd
  · refine h.eachGroup { user with pfpName := pfpName } (fun groupId group hg => ⟨?_, ?_⟩)
    · have hgroup : MsgsCurrent app.users
          (group.modifyMember user.id (fun div => { div with img := pfpUrl pfpName })) :=
        h.current groupId group hg
      refine hgroup.modify (fun _ => rfl) ?_
      intro div hd hid
      exact ⟨(hgroup div hd user.id user' hid hu).1.trans hname, rfl⟩
    · intro hnil
      simp [Group.modifyMsgs, Group.modifyMember, hnil]

theorem MsgsInv.rtusm (h : MsgsInv app) (userId : Int) (status pfpName : Option String) :
    MsgsInv (rtusm app userId status pfpName) := by
  rw [WebClient.rtusm]
  split
  · exact h
  · next user hu =>
      have hself : app.users user.id = some user := by rw [h.keyed userId user hu, hu]
      dsimp only
      split <;> split
      · exact h
      · exact h.setStatus hself _
      · exact h.updatePfp ⟨user, hself, rfl⟩ _
      · refine (h.setStatus hself _).updatePfp ⟨{ user with status := status.getD "" }, ?_, rfl⟩ _
        simp [WebClient.setStatus, App.eachGroup, App.setUser]

theorem MsgsInv.clientUserInfo (h : MsgsInv app) {info : UserInfo}
    (ho : SelfFirst app (.packet (.clientUserInfo info))) : MsgsInv (clientUserInfo app info) := by
  refine ⟨h.keyed.setUser _, ?_, nofun⟩
  intro groupId group hg div hd id user hm hu
  by_cases he : id = info.userId
  · subst he
    simp only [WebClient.clientUserInfo, App.setUser, User.new, Function.update_self,
      Option.some.injEq] at hu
    obtain ⟨hname, himg⟩ := ho groupId group hg div hd hm
    exact ⟨by rw [hname, ← hu], by rw [himg, ← hu]; rfl⟩
  · have hold : app.users id = some user := by
      rw [← hu]
      exact (Function.update_of_ne he _ _).symm
    exact h.current groupId group hg div hd id user hm hold

theorem MsgsInv.deleteGroup (h : MsgsInv app) (groupId : Int) : MsgsInv (deleteGroup app groupId) := by
  obtain ⟨husers, -, hclient, hgroups⟩ := deleteGroup_frame app groupId
  exact ⟨fun id user hu => h.keyed id user (husers ▸ hu),
    fun groupId' group' hg => husers ▸ h.current groupId' group' (hgroups _ _ hg),
    fun hc groupId' group' hg => h.silent (hclient ▸ hc) groupId' group' (hgroups _ _ hg)⟩

theorem MsgsInv.packet (h : MsgsInv app) {packet : Packet} (ho : SelfFirst app (.packet packet))
    (hc : packet.changes = true) : MsgsInv (handlePacket app packet) := by
  cases packet with
  | session | clientGroups | getAllGroups | other => cases hc
  | clientUserInfo info => exact h.clientUserInfo ho
  | getMemberIds groupId ids => exact h.getMemberIds groupId ids
  | getUser infos => exact h.getUser infos
  | groupMsg groupId msg => exact h.groupMsg groupId msg
  | getGroupMsgs groupId msgs => exact h.getGroupMsgs groupId msgs
  | joinGroup groupId userId => exact h.joinGroup groupId userId
  | deleteMsg groupId msgId => exact h.deleteMsg groupId msgId
  | rtusm userId status pfpName => exact h.rtusm userId status pfpName
  | deleteGroup groupId => exact h.deleteGroup groupId

def someone (id : Int) (name : String) : UserInfo := ⟨id, name, name, "", "", none, none⟩

def loggedIn : App :=
  ((App.start none none).exec (.packet .session)).exec (.packet (.clientUserInfo (someone 1 "ada")))

end Messages

section Members

/-- The element that shows what is known of a user. -/
def memberOf (user : User) : DivMember :=
  ⟨user.id, user.displayname, pfpUrl user.pfpName, user.status⟩

/-- The first element of a user in the member list, which is the one that `querySelector` finds,
shows what is known of her. -/
def MembersCurrent (users : Int → Option User) (group : Group) : Prop :=
  ∀ id div user, group.divMembers.find? (fun div => div.memberId = id) = some div →
    users id = some user → div = memberOf user

structure MembersInv (app : App) : Prop where
  keyed : Keyed app
  known : ∀ groupId group, app.groups groupId = some group →
    ∀ div ∈ group.divMembers, (app.users div.memberId).isSome
  current : ∀ groupId group, app.groups groupId = some group → MembersCurrent app.users group

/-- A user whom the client knows already is described as she is known, and no picture changes before
the client's own user has come. -/
def Repeats (app : App) : Event → Prop
  | .packet (.clientUserInfo info) => ∀ user, app.users info.userId = some user → user = User.new info
  | .packet (.getUser infos) => ∀ info ∈ infos,
      (∀ user, app.users info.userId = some user → user = User.new info) ∧
        ∀ info' ∈ infos, info'.userId = info.userId → User.new info' = User.new info
  | .packet (.rtusm _ _ _) => app.clientUser.isSome
  | _ => True

theorem MembersInv.congr (h : MembersInv app) {app' : App} (hgroups : app'.groups = app.groups)
    (husers : app'.users = app.users) : MembersInv app' where
  keyed id user hu := h.keyed id user (husers ▸ hu)
  known groupId group hg := husers ▸ h.known groupId group (hgroups ▸ hg)
  current groupId group hg := husers ▸ h.current groupId group (hgroups ▸ hg)

theorem MembersInv.setGroup (h : MembersInv app) (groupId : Int)
    (hk : ∀ div ∈ group.divMembers, (app.users div.memberId).isSome)
    (hc : MembersCurrent app.users group) : MembersInv (app.setGroup groupId group) := by
  refine ⟨h.keyed, ?_, ?_⟩
  · intro groupId' group' hg'
    rcases setGroup_cases hg' with rfl | hg'
    · exact hk
    · exact h.known groupId' group' hg'
  · intro groupId' group' hg'
    rcases setGroup_cases hg' with rfl | hg'
    · exact hc
    · exact h.current groupId' group' hg'

theorem MembersInv.keep (h : MembersInv app) {groupId : Int} (hg : app.groups groupId = some group)
    {group' : Group} (hdivs : group'.divMembers = group.divMembers) :
    MembersInv (app.setGroup groupId group') :=
  h.setGroup groupId (by rw [hdivs]; exact h.known groupId group hg)
    (by rw [MembersCurrent, hdivs]; exact h.current groupId group hg)

theorem find?_modifyFirst {α : Type} {p : α → Bool} {f : α → α} (hf : ∀ a, p (f a) = p a) (as : List α) :
    (modifyFirst p f as).find? p = (as.find? p).map f := by
  induction as with
  | nil => rfl
  | cons a as ih =>
      by_cases hp : p a = true
      · simp [modifyFirst, hp, hf]
      · simp [modifyFirst, hp, ih]

theorem find?_modifyFirst_other {α : Type} {p q : α → Bool} {f : α → α} (hf : ∀ a, q (f a) = q a)
    (hpq : ∀ a, p a = true → q a = false) (as : List α) :
    (modifyFirst p f as).find? q = as.find? q := by
  induction as with
  | nil => rfl
  | cons a as ih =>
      by_cases hp : p a = true
      · simp [modifyFirst, hp, hf, hpq a hp]
      · simp only [modifyFirst, hp, Bool.false_eq_true, if_false, List.find?_cons, ih]

theorem MembersCurrent.addMember (h : MembersCurrent users group) {user : User}
    (hu : users user.id = some user) : MembersCurrent users (group.addMember user) := by
  intro id div user' hf hk
  simp only [Group.addMember, List.find?_append, Option.or_eq_some_iff] at hf
  rcases hf with hf | ⟨-, hf⟩
  · exact h id div user' hf hk
  · have hdiv : div = memberOf user := List.mem_singleton.mp (List.mem_of_find?_eq_some hf)
    subst hdiv
    have hm := List.find?_some hf
    have hid : user.id = id := of_decide_eq_true hm
    rw [← hid, hu, Option.some.injEq] at hk
    rw [hk]

theorem MembersCurrent.modify (h : MembersCurrent users group) {user : User}
    {f : DivMember → DivMember} (hid : ∀ div, (f div).memberId = div.memberId)
    (hf : ∀ div, group.divMembers.find? (fun div => div.memberId = user.id) = some div →
      f div = memberOf user) :
    MembersCurrent (Function.update users user.id (some user)) (group.modifyMember user.id f) := by
  intro id div user' hm hu
  by_cases he : id = user.id
  · subst he
    rw [Group.modifyMember, find?_modifyFirst (by simp [hid])] at hm
    obtain ⟨old, ho, rfl⟩ := Option.map_eq_some_iff.mp hm
    rw [Function.update_self, Option.some.injEq] at hu
    rw [hf old ho, hu]
  · rw [Group.modifyMember, find?_modifyFirst_other (by simp [hid]) (by grind)] at hm
    rw [Function.update_of_ne he] at hu
    exact h id div user' hm hu

theorem MembersCurrent.setUser (h : MembersCurrent users group)
    (hk : ∀ div ∈ group.divMembers, (users div.memberId).isSome) {user : User}
    (hu : ∀ user', users user.id = some user' → user' = user) :
    MembersCurrent (Function.update users user.id (some user)) group := by
  intro id div user' hm hu'
  by_cases he : id = user.id
  · subst he
    have hid : div.memberId = user.id := by simpa using List.find?_some hm
    obtain ⟨old, ho⟩ := Option.isSome_iff_exists.mp (hk div (List.mem_of_find?_eq_some hm))
    rw [hid] at ho
    rw [Function.update_self, Option.some.injEq] at hu'
    rw [h user.id div old hm ho, hu old ho, hu']
  · rw [Function.update_of_ne he] at hu'
    exact h id div user' hm hu'

theorem known_setUser {user : User} {id : Int} (h : (users id).isSome) :
    (Function.update users user.id (some user) id).isSome := by
  by_cases he : id = user.id
  · rw [he, Function.update_self]
    rfl
  · rwa [Function.update_of_ne he]

theorem MembersInv.eachGroup (h : MembersInv app) (user : User) {f : Group → Group}
    (hk : ∀ groupId group, app.groups groupId = some group →
      ∀ div ∈ (f group).divMembers, ((app.setUser user).users div.memberId).isSome)
    (hc : ∀ groupId group, app.groups groupId = some group →
      MembersCurrent (app.setUser user).users (f group)) :
    MembersInv ((app.setUser user).eachGroup f) where
  keyed := h.keyed.setUser user
  known groupId group hg := by
    obtain ⟨group', hg', rfl⟩ := Option.map_eq_some_iff.mp hg
    exact hk groupId group' hg'
  current groupId group hg := by
    obtain ⟨group', hg', rfl⟩ := Option.map_eq_some_iff.mp hg
    exact hc groupId group' hg'

theorem mem_modifyFirst {α : Type} {p : α → Bool} {f : α → α} {as : List α} {a : α}
    (h : a ∈ modifyFirst p f as) : a ∈ as ∨ ∃ b ∈ as, a = f b := by
  induction as with
  | nil => cases h
  | cons b bs ih =>
      rw [modifyFirst] at h
      split at h
      · rcases List.mem_cons.mp h with rfl | h
        · exact .inr ⟨b, List.mem_cons_self, rfl⟩
        · exact .inl (List.mem_cons_of_mem b h)
      · rcases List.mem_cons.mp h with rfl | h
        · exact .inl List.mem_cons_self
        · rcases ih h with h | ⟨c, hc, rfl⟩
          · exact .inl (List.mem_cons_of_mem b h)
          · exact .inr ⟨c, List.mem_cons_of_mem b hc, rfl⟩

theorem MembersInv.modify (h : MembersInv app) {user : User} {f : DivMember → DivMember}
    {g : Group → Group} (hg : ∀ group, (g group).divMembers = (group.modifyMember user.id f).divMembers)
    (hid : ∀ div, (f div).memberId = div.memberId) {old : User} (ho : app.users user.id = some old)
    (hf : f (memberOf old) = memberOf user) : MembersInv ((app.setUser user).eachGroup g) := by
  refine h.eachGroup user ?_ ?_
  · intro groupId group hgroup div hd
    rw [hg] at hd
    rcases mem_modifyFirst hd with hd | ⟨div', hd', rfl⟩
    · exact known_setUser (h.known groupId group hgroup div hd)
    · rw [hid]
      exact known_setUser (h.known groupId group hgroup div' hd')
  · intro groupId group hgroup
    rw [MembersCurrent, hg]
    refine (h.current groupId group hgroup).modify hid ?_
    intro div hd
    rw [h.current groupId group hgroup user.id div old hd ho, hf]

theorem MembersInv.setStatus (h : MembersInv app) {user : User} (hu : app.users user.id = some user)
    (status : String) : MembersInv (setStatus app user status) := by
  have hf : ({ memberOf user with status := status } : DivMember) =
      memberOf { user with status := status } := rfl
  exact h.modify (f := fun div => { div with status := status }) (fun _ => rfl) (fun _ => rfl) hu hf

theorem MembersInv.updatePfp (h : MembersInv app) {user : User} (hu : app.users user.id = some user)
    (hc : app.clientUser.isSome) (pfpName : String) : MembersInv (updatePfp app user pfpName) := by
  obtain ⟨clientUser, hc⟩ := Option.isSome_iff_exists.mp hc
  have happ : (app.setUser { user with pfpName := pfpName }).clientUser = some clientUser := hc
  have hf : ({ memberOf user with img := pfpUrl pfpName } : DivMember) =
      memberOf { user with pfpName := pfpName } := rfl
  simp only [WebClient.updatePfp, happ]
  exact h.modify (f := fun div => { div with img := pfpUrl pfpName }) (fun _ => rfl) (fun _ => rfl) hu hf

theorem MembersInv.rtusm (h : MembersInv app) {userId : Int} {status pfpName : Option String}
    (hc : app.clientUser.isSome) : MembersInv (rtusm app userId status pfpName) := by
  rw [WebClient.rtusm]
  split
  · exact h
  · next user hu =>
      have hself : app.users user.id = some user := by rw [h.keyed userId user hu, hu]
      dsimp only
      split <;> split
      · exact h
      · exact h.setStatus hself _
      · exact h.updatePfp hself hc _
      · refine (h.setStatus hself _).updatePfp ?_ hc _
        exact Function.update_self ..

theorem MembersInv.resolve (h : MembersInv app) {user : User}
    (hu : ∀ user', app.users user.id = some user' → user' = user) :
    MembersInv ((app.setUser user).eachGroup (Group.resolve user)) := by
  have hdivs : ∀ group, (Group.resolve user group).divMembers = group.divMembers ∨
      (Group.resolve user group).divMembers = (group.addMember user).divMembers := by
    intro group
    rw [Group.resolve]
    split
    · exact .inr rfl
    · exact .inl rfl
  refine h.eachGroup user ?_ ?_
  · intro groupId group hg div hd
    rcases hdivs group with heq | heq <;> rw [heq] at hd
    · exact known_setUser (h.known groupId group hg div hd)
    · rcases List.mem_append.mp hd with hd | hd
      · exact known_setUser (h.known groupId group hg div hd)
      · obtain rfl := List.mem_singleton.mp hd
        simp [App.setUser]
  · intro groupId group hg
    have hset : MembersCurrent (app.setUser user).users group :=
      (h.current groupId group hg).setUser (h.known groupId group hg) hu
    rcases hdivs group with heq | heq <;> rw [MembersCurrent, heq]
    · exact hset
    · exact hset.addMember (Function.update_self ..)

theorem MembersInv.getUser (h : MembersInv app) {infos : List UserInfo}
    (ho : Repeats app (.packet (.getUser infos))) : MembersInv (getUser app infos) := by
  induction infos generalizing app with
  | nil => exact h
  | cons info infos ih =>
      refine ih (h.resolve (ho info List.mem_cons_self).1) ?_
      intro info' hm
      obtain ⟨hold, hsame⟩ := ho info' (List.mem_cons_of_mem _ hm)
      refine ⟨?_, fun info'' hm' => hsame info'' (List.mem_cons_of_mem _ hm')⟩
      intro user hu
      by_cases he : info.userId = info'.userId
      · have hself : (app.setUser (User.new info)).users info'.userId = some (User.new info) := by
          rw [← he]
          exact Function.update_self ..
        rw [← hsame info List.mem_cons_self he]
        exact (Option.some.inj (hself.symm.trans hu)).symm
      · refine hold user ?_
        rw [← hu]
        exact (Function.update_of_ne (Ne.symm he) ..).symm

theorem addKnown_keeps {I : Group → Prop} (hI : ∀ group id user, I group → app.users id = some user →
    I (group.addMember user)) (h : I group) (ids : List Int) : I (addKnown app group ids) := by
  induction ids generalizing group with
  | nil => exact h
  | cons id ids ih =>
      refine ih ?_
      dsimp only
      split
      · next user hu => exact hI group id user h hu
      · exact h

def Shows (app : App) (group : Group) : Prop :=
  (∀ div ∈ group.divMembers, (app.users div.memberId).isSome) ∧ MembersCurrent app.users group

theorem MembersInv.addMember (h : MembersInv app) {id : Int} {user : User} (hg : Shows app group)
    (hu : app.users id = some user) : Shows app (group.addMember user) := by
  have hself : app.users user.id = some user := by rw [h.keyed id user hu, hu]
  refine ⟨?_, hg.2.addMember hself⟩
  intro div hd
  rcases List.mem_append.mp hd with hd | hd
  · exact hg.1 div hd
  · obtain rfl := List.mem_singleton.mp hd
    change (app.users user.id).isSome
    rw [hself]
    rfl

theorem MembersInv.getMemberIds (h : MembersInv app) (groupId : Int) (ids : List Int) :
    MembersInv (getMemberIds app groupId ids) := by
  rw [WebClient.getMemberIds]
  split
  · exact h
  · next group hg =>
      have hlist : Shows app { group with membersId := ids } :=
        ⟨h.known groupId group hg, h.current groupId group hg⟩
      have hall := addKnown_keeps (fun _ _ _ hs hu => h.addMember hs hu) hlist ids
      have hset := h.setGroup groupId hall.1 hall.2
      dsimp only
      split
      · exact hset
      · exact hset.congr rfl rfl

theorem MembersInv.joinGroup (h : MembersInv app) (groupId userId : Int) :
    MembersInv (joinGroup app groupId userId) := by
  rw [WebClient.joinGroup]
  split
  · exact h
  · next group hg =>
      dsimp only
      split
      · have hset : MembersInv (app.setGroup groupId { group with membersId := group.membersId ++ [userId] }) :=
          h.keep hg rfl
        exact hset.congr rfl rfl
      · next user hu =>
          have hlist : Shows app { group with membersId := group.membersId ++ [userId] } :=
            ⟨h.known groupId group hg, h.current groupId group hg⟩
          have hadd := h.addMember hlist hu
          exact h.setGroup groupId hadd.1 hadd.2

theorem MembersInv.clientUserInfo (h : MembersInv app) {info : UserInfo}
    (ho : Repeats app (.packet (.clientUserInfo info))) : MembersInv (clientUserInfo app info) where
  keyed := h.keyed.setUser _
  known groupId group hg div hd := known_setUser (h.known groupId group hg div hd)
  current groupId group hg := (h.current groupId group hg).setUser (h.known groupId group hg) ho

theorem MembersInv.deleteGroup (h : MembersInv app) (groupId : Int) :
    MembersInv (deleteGroup app groupId) := by
  obtain ⟨husers, -, -, hgroups⟩ := deleteGroup_frame app groupId
  exact ⟨fun id user hu => h.keyed id user (husers ▸ hu),
    fun groupId' group' hg => husers ▸ h.known groupId' group' (hgroups _ _ hg),
    fun groupId' group' hg => husers ▸ h.current groupId' group' (hgroups _ _ hg)⟩

theorem MembersInv.packet (h : MembersInv app) {packet : Packet} (ho : Repeats app (.packet packet))
    (hc : packet.changes = true) : MembersInv (handlePacket app packet) := by
  cases packet with
  | session | clientGroups | getAllGroups | other => cases hc
  | clientUserInfo info => exact h.clientUserInfo ho
  | getMemberIds groupId ids => exact h.getMemberIds groupId ids
  | getUser infos => exact h.getUser ho
  | groupMsg groupId msg =>
      simp only [handlePacket, WebClient.groupMsg]
      split
      · next hg _ => exact h.keep hg rfl
      · exact h
  | getGroupMsgs groupId msgs =>
      simp only [handlePacket, WebClient.getGroupMsgs]
      split
      · next group clientUser hg _ =>
          refine h.keep hg ?_
          clear hg ho hc
          induction msgs generalizing group with
          | nil => rfl
          | cons msg msgs ih => exact ih _
      · exact h
  | joinGroup groupId userId => exact h.joinGroup groupId userId
  | deleteMsg groupId msgId =>
      simp only [handlePacket, WebClient.deleteMsg]
      split
      · exact h
      · next hg => exact h.keep hg rfl
  | rtusm userId status pfpName => exact h.rtusm ho
  | deleteGroup groupId => exact h.deleteGroup groupId

end Members

end ChityChat.ClientDisplay
