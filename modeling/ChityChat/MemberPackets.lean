import ChityChat.GetUserSplit
import ChityChat.GroupMessage
import ChityChat.MemberSync

namespace ChityChat.MemberPackets

open JsonC DbResult Schema WriteStatements GroupBroadcast
open GroupRead (DbUser Query queryCtx groupColumns serverAddUserInJson serverGroupToJson doClientGroups)
open GroupMessage (newInt_of_lt)
open WebClient (UserInfo GroupInfo)
open MemberSync (groupInfo callback mem_memberIds)

variable {s : Store} {me groupId userId : Nat} {tokener : GroupRead.JsonTokener}

/-- What the client reads of groups and users in a packet. The texts of the packet are left out. -/
inductive Reads : JsonObject → WebClient.Packet → Prop
  | clientGroups {objs : List JsonObject} {groups : List GroupInfo}
      (h : List.Forall₂ (fun obj info => obj.objectGet "group_id" = .int info.groupId ∧
        obj.objectGet "owner_id" = .int info.ownerId) objs groups) :
      Reads (.object [("cmd", .newString "client_groups"), ("groups", .array objs)]) (.clientGroups groups)
  | getMemberIds (groupId : Int) (ids : List Int) :
      Reads (.object [("cmd", .newString "get_member_ids"), ("group_id", .int groupId),
        ("member_ids", .array (ids.map .int))]) (.getMemberIds groupId ids)
  | joinGroup (groupId userId : Int) :
      Reads (.object [("cmd", .newString "join_group"), ("user_id", .int userId), ("group_id", .int groupId)])
        (.joinGroup groupId userId)
  | getUser {objs : List JsonObject} {infos : List UserInfo}
      (h : List.Forall₂ (fun obj info => obj.objectGet "user_id" = .int info.userId) objs infos) :
      Reads (.object [("cmd", .newString "get_user"), ("users", .array objs)]) (.getUser infos)

theorem memberIds_select (s : Store) (groupId : Nat) :
    MemberSync.memberIds s groupId = (members s groupId).map (fun (id : Nat) => (id : Int)) := by
  simp [MemberSync.memberIds, members, Function.comp_def]

theorem members_int (hs : Stored s) (h : (userId : Int) ∈ MemberSync.memberIds s groupId) :
    userId < 2 ^ 31 ∧ groupId < 2 ^ 31 := by
  obtain ⟨gm, hm, hg, hu⟩ := mem_memberIds.mp h
  obtain rfl : gm.groupId = groupId := by omega
  obtain rfl : gm.userId = userId := by omega
  obtain ⟨user, huser, hid⟩ := List.mem_map.mp (hs.valid.memberUser gm hm)
  obtain ⟨group, hgroup, hgid⟩ := List.mem_map.mp (hs.valid.memberGroup gm hm)
  have hlt := (hs.users user huser).2
  have hlt' := (hs.groups group hgroup).2
  have hints := hs.ints
  omega

theorem memberIds_reads (hs : Stored s) (hm : (userId : Int) ∈ MemberSync.memberIds s groupId) :
    Reads (Query.packet tokener s.toDatabase ⟨.memberIds groupId, queryCtx .dbGetGroupMemberIds groupId,
      GroupRead.doGetGroupMemberIds⟩) (.getMemberIds groupId (MemberSync.memberIds s groupId)) := by
  have hint : GroupRead.IsInt groupId := (members_int hs hm).2
  have hids : (GroupRead.selectMemberIds s.toDatabase groupId).map (fun (id : Nat) => JsonObject.int id) =
      (MemberSync.memberIds s groupId).map .int := by
    simp [memberIds_select, GroupRead.selectMemberIds, members]
  have hflat : ∀ row ∈ (MemberSync.memberIds s groupId).map JsonC.JsonObject.int, row.depth ≤ 2 := by
    intro row hrow
    obtain ⟨id, -, rfl⟩ := List.mem_map.mp hrow
    exact Nat.le_succ 1
  rw [GroupRead.memberIds_packet, if_pos hint, newInt_of_lt hint, hids, GroupRead.plainList_flat hflat,
    if_neg (fun hnil => List.ne_nil_of_mem hm (List.map_eq_nil_iff.mp hnil))]
  exact .getMemberIds groupId _

theorem sendAll_client {userHt : Nat → Option Nat} {client : Nat} (hclient : ∀ id, userHt id = some client ↔ id = me)
    {users : List (Nat × Nat)} (h : OnlineMembers s groupId userHt users) (json : JsonObject) :
    ((sendAll json users).filter (fun p => p.1 = client)).map Prod.snd =
      if (me : Int) ∈ MemberSync.memberIds s groupId then [json] else [] := by
  have hone : ∀ r ∈ users, decide (r.2 = client) = decide (r = (me, client)) := by
    rintro ⟨id, c⟩ hr
    refine decide_eq_decide.mpr ⟨?_, fun he => (Prod.mk.inj he).2⟩
    rintro rfl
    rw [(hclient id).mp ((h.mem id _).mp hr).2]
  have hmember : (me, client) ∈ users ↔ (me : Int) ∈ MemberSync.memberIds s groupId := by
    rw [h.mem, memberIds_select, ← mem_members, and_iff_left ((hclient me).mpr rfl)]
    simp
  have hfilter : (sendAll json users).filter (fun p => p.1 = client) =
      sendAll json (List.replicate (users.count (me, client)) (me, client)) := by
    rw [sendAll, List.filter_map, ← List.filter_eq, sendAll]
    exact congrArg _ (List.filter_congr hone)
  rw [hfilter]
  by_cases hm : (me, client) ∈ users
  · rw [if_pos (hmember.mp hm), List.count_eq_one_of_mem (h.once.of_map _) hm]
    rfl
  · rw [if_neg (fun hn => hm (hmember.mpr hn)), List.count_eq_zero_of_not_mem hm]
    rfl

theorem announce_reads (hs : Stored s) {userHt : Nat → Option Nat} {client handle : Nat}
    (hclient : ∀ id, userHt id = some client ↔ id = me) (hm : (userId : Int) ∈ MemberSync.memberIds s groupId) :
    List.Forall₂ Reads (((doGroupBroadcast userHt (JoinGroup.joinPacket userId groupId)
      ⟨handle, .tuplesOk, selectMemberIds s groupId⟩).filter (fun p => p.1 = client)).map Prod.snd)
      (callback me (.announce (MemberSync.memberIds s groupId) groupId userId)).packets := by
  obtain ⟨hu, hg⟩ := members_int hs hm
  rw [doGroupBroadcast, sendAll_client hclient (groupRecipients_online hs), callback]
  by_cases hme : (me : Int) ∈ MemberSync.memberIds s groupId
  · rw [if_pos hme, if_pos hme, JoinGroup.joinPacket, newInt_of_lt hu, newInt_of_lt hg]
    exact .cons (.joinGroup groupId userId) .nil
  · rw [if_neg hme, if_neg hme]
    exact .nil

theorem users_reads {ids : List Int} (hint : ∀ id ∈ ids, -2 ^ 31 ≤ id ∧ id < 2 ^ 31)
    (hne : GroupRead.selectUserJson s.toDatabase ids ≠ []) :
    Reads (Query.packet tokener s.toDatabase ⟨.users ids, queryCtx .dbGetUserJson 0, GroupRead.doGetUsers⟩)
      (.getUser ((GroupRead.selectUserJson s.toDatabase ids).map MemberSync.userInfo)) := by
  have hpacket : Query.packet tokener s.toDatabase ⟨.users ids, queryCtx .dbGetUserJson 0, GroupRead.doGetUsers⟩ =
      .object [("cmd", .newString "get_user"),
        ("users", GroupRead.plainList ((GroupRead.selectUserJson s.toDatabase ids).map GroupRead.userJson))] := by
    rw [← GroupRead.plain_parsed tokener]
    simp only [Query.packet, GroupRead.Select.result, GroupRead.Select.rows, if_pos hint]
    rfl
  have hflat : ∀ row ∈ (GroupRead.selectUserJson s.toDatabase ids).map GroupRead.userJson, row.depth ≤ 2 := by
    intro row hrow
    obtain ⟨u, -, rfl⟩ := List.mem_map.mp hrow
    exact (GroupRead.userJson_depth u).le
  rw [hpacket, GroupRead.plainList_flat hflat, if_neg (fun hnil => hne (List.map_eq_nil_iff.mp hnil))]
  refine .getUser ?_
  rw [List.forall₂_map_left_iff, List.forall₂_map_right_iff, List.forall₂_same]
  exact fun _ _ => rfl

theorem strtoul_int {handle n : Nat} (h : n < 2 ^ 31) : strtoul (some (.ofResult handle (.int n))) = n := by
  simp only [strtoul, Option.elim_some, Text.value, atoi, u32]
  omega

theorem groupRow_reads {res : PGresult} {i : Nat} {g : GroupRow} (hrow : res.rows[i]? = some (groupColumns g))
    (hid : g.groupId < 2 ^ 31) (howner : g.ownerId.getD 0 < 2 ^ 31) :
    (serverGroupToJson (dbRowToGroup res i)).objectGet "group_id" = .int (groupInfo g).groupId ∧
      (serverGroupToJson (dbRowToGroup res i)).objectGet "owner_id" = .int (groupInfo g).ownerId := by
  have hgroup : (dbRowToGroup res i).groupId = g.groupId := by
    simp only [dbRowToGroup, pqGetvalue, hrow, groupColumns, Option.bind_some, List.getElem?_cons_zero,
      Option.map_some, Option.getD_some]
    exact strtoul_int hid
  have hown : (dbRowToGroup res i).ownerId = g.ownerId.getD 0 := by
    simp only [dbRowToGroup, pqGetvalue, hrow, groupColumns, Option.bind_some, List.getElem?_cons_succ,
      List.getElem?_cons_zero, Option.map_some]
    cases ho : g.ownerId with
    | none => rfl
    | some ownerId =>
        rw [ho] at howner
        exact strtoul_int howner
  constructor
  · change JsonObject.newInt (dbRowToGroup res i).groupId = _
    rw [hgroup, newInt_of_lt hid]
    rfl
  · change JsonObject.newInt (dbRowToGroup res i).ownerId = _
    rw [hown, newInt_of_lt howner]
    rfl

theorem clientGroups_reads {gs : List GroupRow} (hgs : ∀ g ∈ gs, g.groupId < 2 ^ 31 ∧ g.ownerId.getD 0 < 2 ^ 31)
    {handle : Nat} (ctx : DbcmdCtx Nat) :
    ∃ json, doClientGroups (dbGetGroupsResult ⟨handle, .tuplesOk, gs.map groupColumns⟩ ctx) = .ok json ∧
      Reads json (.clientGroups (gs.map groupInfo)) := by
  refine ⟨_, rfl, .clientGroups ?_⟩
  rw [List.forall₂_iff_get]
  refine ⟨by simp [dbGetGroupsResult, pqNtuples], fun i hi hi' => ?_⟩
  rw [List.length_map] at hi'
  obtain ⟨hid, howner⟩ := hgs gs[i] (List.getElem_mem hi')
  have hrow : (gs.map groupColumns)[i]? = some (groupColumns gs[i]) := by
    rw [List.getElem?_map, List.getElem?_eq_getElem hi', Option.map_some]
  simpa [dbGetGroupsResult] using groupRow_reads hrow hid howner

theorem getUser_reads {online : UInt32 → Option DbUser} {info : DbUser → UserInfo} {sends : List JsonObject → Bool}
    (hinfo : ∀ v user, online v = some user → user.userId < 2 ^ 31 ∧ (info user).userId = user.userId)
    {payload : JsonObject} {ids : List Int} (hpay : payload.objectGet "user_ids" = .array (ids.map .int))
    (hne : ids ≠ []) :
    List.Forall₂ Reads (GetUserSplit.serverGetUser online sends payload).packets
        (MemberSync.serverGetUser (fun id => (GetUserSplit.found online id).map info) ids).packets ∧
      ∃ others, (GetUserSplit.serverGetUser online sends payload).asked =
          (if others = [] then none else some (others.map .int)) ∧
        (MemberSync.serverGetUser (fun id => (GetUserSplit.found online id).map info) ids).stmts =
          if others = [] then [] else [.userArray others] := by
  obtain ⟨hpackets, hasked⟩ := GetUserSplit.serverGetUser_reply online sends hpay hne
  refine ⟨?_, ids.filter (fun v => (GetUserSplit.found online v).isNone), hasked, ?_⟩
  · have hdesc : ids.reverse.filterMap (fun v => GetUserSplit.described (GetUserSplit.found online v)) =
        (ids.reverse.filterMap (GetUserSplit.found online)).map serverAddUserInJson := by
      rw [List.map_filterMap]
      rfl
    have hinfos : ids.reverse.filterMap (fun id => (GetUserSplit.found online id).map info) =
        (ids.reverse.filterMap (GetUserSplit.found online)).map info := (List.map_filterMap ..).symm
    rw [hpackets, hdesc, GetUserSplit.usersPacket_map, MemberSync.serverGetUser, hinfos]
    simp only [MemberSync.sendUsersFromClients, List.map_eq_nil_iff]
    split
    · exact .nil
    · refine .cons (.getUser ?_) .nil
      rw [List.forall₂_map_left_iff, List.forall₂_map_right_iff, List.forall₂_same]
      intro user hm
      obtain ⟨v, -, hv⟩ := List.mem_filterMap.mp hm
      obtain ⟨hlt, hid⟩ := hinfo _ user hv
      change JsonObject.newInt user.userId = _
      rw [newInt_of_lt hlt, hid]
  · simp [MemberSync.serverGetUser]

end ChityChat.MemberPackets
