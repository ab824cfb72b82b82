import ChityChat.GroupBroadcast
import ChityChat.WriteCommands

namespace ChityChat.JoinGroup

open JsonC DbResult Schema WriteStatements WriteCommands GroupBroadcast
open GroupRead (IsInt execError serverGroupToJson doClientGroups)

variable {s s' : Store} {userHt : Nat → Option Nat} {handle client userId groupId : Nat}

/-- The statement of `join_pub_group.sql` as a command of its own. A parameter that is no `int` is an
error. -/
structure Joins (handle userId groupId : Nat) (s : Store) (res : PGresult) (s' : Store) : Prop where
  execute : Execute handle s none (.joinPubGroup userId groupId) res s' none
  params : ¬ (IsInt userId ∧ IsInt groupId) → res.status = .fatalError

def joinGroupResult (ctx : DbcmdCtx Nat) : Except String Unit :=
  if ctx.ret = .error then .error "Failed to join group" else .ok ()

def joinPacket (userId groupId : Nat) : JsonObject :=
  .object [("cmd", .newString "join_group"), ("user_id", .newInt userId),
    ("group_id", .newInt groupId)]

def groupsPacket (groups : List DbGroup) : JsonObject :=
  .object [("cmd", .newString "client_groups"), ("groups", .array (groups.map serverGroupToJson))]

/-- The packets of `on_user_group_join`, given the results of its two queries. -/
def onUserGroupJoin (userHt : Nat → Option Nat) (client userId groupId : Nat)
    (group members : PGresult) : List Packet :=
  let ctx := { (newCtx .dbGetGroups : DbcmdCtx Nat) with client := some client }
  execPackets (some client)
      ((doClientGroups (dbGetGroupsResult group ctx)).map (fun json => [(client, json)])) ++
    doGroupBroadcast userHt (joinPacket userId groupId) members

def joinGroupPackets (userHt : Nat → Option Nat) (client userId groupId : Nat)
    (res group members : PGresult) : List Packet :=
  let ctx :=
    { (newCtx .joinPubGroup : DbcmdCtx Nat) with groupId := groupId, client := some client }
  execPackets (some client) ((joinGroupResult (joinPubGroupResult res ctx)).map
    (fun _ => onUserGroupJoin userHt client userId groupId group members))

def Joined (s s' : Store) (userId groupId : Nat) : Prop :=
  ⟨userId, groupId⟩ ∉ s.members ∧ ⟨userId, groupId⟩ ∈ s'.members

def Announces (client userId groupId : Nat) (packets : List Packet) : Prop :=
  (∃ c, (c, joinPacket userId groupId) ∈ packets) ∨
    ∃ groups, groups ≠ [] ∧ (client, groupsPacket groups) ∈ packets

structure AnnouncedIfJoined (s s' : Store) (client userId groupId : Nat) (packets : List Packet) :
    Prop where
  announced : Announces client userId groupId packets → Joined s s' userId groupId
  refused : ¬ Joined s s' userId groupId → ∃ errmsg, (client, execError errmsg) ∈ packets

def PublicGroup (s : Store) (groupId : Nat) : Prop :=
  ∃ g ∈ s.groups, g.groupId = groupId ∧ g.isPublic = some true

theorem joined_of_public (hs : Stored (joinPubGroup s userId groupId))
    (hpub : PublicGroup s groupId) : Joined s (joinPubGroup s userId groupId) userId groupId := by
  obtain ⟨g, hg, hid, hp⟩ := hpub
  have hrow : (⟨userId, groupId⟩ : MemberRow) ∈
      (s.groups.filter (fun g => g.groupId = groupId ∧ g.isPublic = some true)).map
        (fun _ => ⟨userId, groupId⟩) :=
    List.mem_map.mpr ⟨g, List.mem_filter.mpr ⟨hg, by simp [hid, hp]⟩, rfl⟩
  constructor
  · intro hm
    exact (List.nodup_append.mp hs.valid.memberKey).2.2 _ hm _ hrow rfl
  · exact List.mem_append_right _ hrow

theorem joinPubGroup_of_not_public (h : ¬ PublicGroup s groupId) :
    joinPubGroup s userId groupId = s := by
  have hnone : s.groups.filter (fun g => g.groupId = groupId ∧ g.isPublic = some true) = [] := by
    apply List.filter_eq_nil_iff.mpr
    intro g hg hp
    exact h ⟨g, hg, by simpa using hp⟩
  rw [joinPubGroup, hnone, List.map_nil, List.append_nil]

theorem packets_of_error {res group members : PGresult} (h : res.status = .fatalError) :
    joinGroupPackets userHt client userId groupId res group members =
      [(client, execError "Failed to join group")] := by
  simp [joinGroupPackets, joinPubGroupResult, commandResult, h, DbcmdCtx.returns, joinGroupResult,
    Except.map, execPackets]

theorem packets_of_ok {res group members : PGresult} (h : res.status = .commandOk) :
    joinGroupPackets userHt client userId groupId res group members =
      onUserGroupJoin userHt client userId groupId group members := by
  simp [joinGroupPackets, joinPubGroupResult, commandResult, h, DbcmdCtx.returns, joinGroupResult,
    Except.map, execPackets]

theorem onUserGroupJoin_empty :
    onUserGroupJoin userHt client userId groupId ⟨0, .tuplesOk, []⟩ ⟨0, .tuplesOk, []⟩ =
      [(client, groupsPacket [])] := rfl

theorem cmd_ne {a b : String} {xs ys : List (String × JsonObject)} (h : utf8 a ≠ utf8 b) :
    JsonObject.object (("cmd", .newString a) :: xs) ≠ .object (("cmd", .newString b) :: ys) := by
  intro he
  have hhead := (List.cons.inj (JsonObject.object.inj he)).1
  exact h (JsonObject.string.inj (Prod.mk.inj hhead).2)

theorem error_not_announces (errmsg : String) :
    ¬ Announces client userId groupId [(client, execError errmsg)] := by
  rintro (⟨c, hc⟩ | ⟨groups, -, hgroups⟩)
  · exact cmd_ne (by decide +kernel) (Prod.mk.inj (List.mem_singleton.mp hc)).2
  · exact cmd_ne (by decide +kernel) (Prod.mk.inj (List.mem_singleton.mp hgroups)).2

theorem announced_of_error {res group members : PGresult} (h : res.status = .fatalError) :
    AnnouncedIfJoined s s' client userId groupId
      (joinGroupPackets userHt client userId groupId res group members) := by
  rw [packets_of_error h]
  exact ⟨fun ha => absurd ha (error_not_announces _), fun _ => ⟨_, List.mem_singleton_self _⟩⟩

theorem joins_cases {res : PGresult} (h : Joins handle userId groupId s res s') :
    res.status = .fatalError ∨
      res.status = .commandOk ∧ s' = joinPubGroup s userId groupId ∧ Stored s' := by
  cases h.execute with
  | run now code hrun hs =>
      obtain ⟨rfl, rfl, rfl⟩ : _ ∧ _ ∧ _ := by simpa [Stmt.run] using hrun
      exact Or.inr ⟨rfl, rfl, hs⟩
  | error => exact Or.inl rfl

theorem joins_nothing (hs : Stored s) (hu : IsInt userId) (hg : IsInt groupId)
    (h : ¬ PublicGroup s groupId) : Joins 0 userId groupId s ⟨0, .commandOk, []⟩ s where
  execute := .run "" "" (by rw [Stmt.run, joinPubGroup_of_not_public h]) hs
  params hno := absurd ⟨hu, hg⟩ hno

/-- Whatever the queries behind the statement find, a join is announced only if it happened and
refused with an error otherwise, exactly when there is such a public group or a parameter is no
`int`. -/
theorem announced_iff (hs : Stored s) (userHt : Nat → Option Nat) (client userId groupId : Nat) :
    (∀ handle res s' group members, Joins handle userId groupId s res s' →
      AnnouncedIfJoined s s' client userId groupId
        (joinGroupPackets userHt client userId groupId res group members)) ↔
      PublicGroup s groupId ∨ ¬ (IsInt userId ∧ IsInt groupId) := by
  constructor
  · intro h
    by_contra hno
    obtain ⟨hpub, hint⟩ := not_or.mp hno
    obtain ⟨hu, hg⟩ := not_not.mp hint
    have hann := h 0 _ s ⟨0, .tuplesOk, []⟩ ⟨0, .tuplesOk, []⟩ (joins_nothing hs hu hg hpub)
    obtain ⟨errmsg, herr⟩ := hann.refused (fun hj => hj.1 hj.2)
    rw [packets_of_ok rfl, onUserGroupJoin_empty] at herr
    exact cmd_ne (by decide +kernel) (Prod.mk.inj (List.mem_singleton.mp herr)).2
  · intro h handle res s' group members hjoin
    rcases joins_cases hjoin with herr | ⟨hok, rfl, hs'⟩
    · exact announced_of_error herr
    · rcases h with hpub | hint
      · have hjoined := joined_of_public hs' hpub
        exact ⟨fun _ => hjoined, fun hno => absurd hjoined hno⟩
      · rw [hjoin.params hint] at hok
        cases hok

def twoGroups : Store where
  users := [⟨1, "one", "one", none, none, none⟩, ⟨2, "two", "two", none, none, none⟩]
  groups := [⟨1, some 1, "open", none, some true, none⟩, ⟨2, some 1, "closed", none, some false, none⟩]
  members := [⟨1, 1⟩, ⟨1, 2⟩]
  messages := []
  codes := []
  userSeq := 3
  groupSeq := 3
  msgSeq := 1

theorem twoGroups_stored : Stored twoGroups where
  valid := by constructor <;> simp [twoGroups]
  users := by simp [twoGroups]
  groups := by simp [twoGroups]
  messages := by simp [twoGroups]
  ints := by simp [twoGroups]

def joinedOpen : Store := { twoGroups with members := [⟨1, 1⟩, ⟨1, 2⟩, ⟨2, 1⟩] }

theorem joinedOpen_stored : Stored joinedOpen where
  valid := by constructor <;> simp [joinedOpen, twoGroups]
  users := twoGroups_stored.users
  groups := twoGroups_stored.groups
  messages := twoGroups_stored.messages
  ints := by simp [joinedOpen, twoGroups]

theorem joins_open : Joins 0 2 1 twoGroups ⟨0, .commandOk, []⟩ joinedOpen where
  execute := .run "" "" rfl joinedOpen_stored
  params hno := absurd (by decide) hno

theorem announced_open : AnnouncedIfJoined twoGroups joinedOpen 7 2 1
    (joinGroupPackets (fun _ => none) 7 2 1 ⟨0, .commandOk, []⟩ ⟨1, .tuplesOk, []⟩
      ⟨2, .tuplesOk, []⟩) :=
  (announced_iff twoGroups_stored (fun _ => none) 7 2 1).mpr
    (Or.inl ⟨⟨1, some 1, "open", none, some true, none⟩, by simp [twoGroups], rfl, rfl⟩)
    0 ⟨0, .commandOk, []⟩ joinedOpen ⟨1, .tuplesOk, []⟩ ⟨2, .tuplesOk, []⟩ joins_open

/-- The user 2 asks for the private group: the owner is told of a join, and the requester is sent the
group. -/
theorem private_announced :
    ∃ res s', Joins 0 2 2 twoGroups res s' ∧ ¬ Joined twoGroups s' 2 2 ∧
      joinGroupPackets (fun userId => if userId = 1 then some 8 else none) 7 2 2 res
        ⟨1, .tuplesOk, (twoGroups.groups.filter (fun g => g.groupId = 2)).map
          GroupRead.groupColumns⟩ ⟨2, .tuplesOk, selectMemberIds twoGroups 2⟩ =
        [(7, groupsPacket [dbRowToGroup ⟨1, .tuplesOk, [GroupRead.groupColumns
          ⟨2, some 1, "closed", none, some false, none⟩]⟩ 0]), (8, joinPacket 2 2)] := by
  refine ⟨_, _, joins_nothing twoGroups_stored (by decide) (by decide) ?_, fun hj => hj.1 hj.2, ?_⟩
  · rintro ⟨g, hg, hid, hp⟩
    simp only [twoGroups, List.mem_cons, List.not_mem_nil, or_false] at hg
    rcases hg with rfl | rfl
    · simp at hid
    · simp at hp
  · rfl

end ChityChat.JoinGroup
