import ChityChat.GroupRead

namespace ChityChat.PrivateGroups

open JsonC DbResult Schema GroupRead

variable {d d' : Database} {userId groupId limit offset : Nat} {online : Nat → Option DbUser}
  {tokener : JsonTokener}

def isMember (d : Database) (userId groupId : Nat) : Bool := ⟨userId, groupId⟩ ∈ d.members

/-- A group that is not public and that the user is not a member of. -/
def hiddenFrom (d : Database) (userId groupId : Nat) : Bool :=
  d.groups.any (fun g => g.groupId = groupId ∧ g.isPublic ≠ some true) && !isMember d userId groupId

/-- The states differ only in messages, memberships of others
and codes of groups hidden from the user. -/
structure LowEquiv (userId : Nat) (d d' : Database) : Prop where
  users : d.users = d'.users
  groups : d.groups = d'.groups
  members : d.members.filter (fun m => m.userId = userId ∨ hiddenFrom d userId m.groupId = false) =
    d'.members.filter (fun m => m.userId = userId ∨ hiddenFrom d' userId m.groupId = false)
  messages : d.messages.filter (fun m => ∀ g ∈ m.groupId, hiddenFrom d userId g = false) =
    d'.messages.filter (fun m => ∀ g ∈ m.groupId, hiddenFrom d' userId g = false)
  codes : d.codes.filter (fun c => hiddenFrom d userId c.groupId = false) =
    d'.codes.filter (fun c => hiddenFrom d' userId c.groupId = false)

theorem filter_of_visible {α : Type} {visible visible' : α → Bool} {xs ys : List α}
    (h : xs.filter visible = ys.filter visible') {p : α → Bool} (hx : ∀ a ∈ xs, p a → visible a)
    (hy : ∀ a ∈ ys, p a → visible' a) :
    xs.filter p = ys.filter p := by
  have hfilter : ∀ {zs : List α} {v : α → Bool}, (∀ a ∈ zs, p a → v a) →
      zs.filter p = (zs.filter v).filter p := by
    intro zs v hz
    rw [List.filter_filter]
    exact List.filter_congr fun a ha => by
      cases hp : p a
      · rfl
      · simp [hz a ha hp]
  rw [hfilter hx, hfilter hy, h]

theorem LowEquiv.own (h : LowEquiv userId d d') {p : MemberRow → Bool}
    (hp : ∀ m, p m → m.userId = userId) :
    d.members.filter p = d'.members.filter p :=
  filter_of_visible h.members (fun m _ hm => by simp [hp m hm]) (fun m _ hm => by simp [hp m hm])

theorem LowEquiv.isMember (h : LowEquiv userId d d') :
    isMember d userId groupId = isMember d' userId groupId := by
  have hmem : ∀ d : Database, (⟨userId, groupId⟩ : MemberRow) ∈ d.members ↔
      ⟨userId, groupId⟩ ∈ d.members.filter (fun m => m = ⟨userId, groupId⟩) := by simp
  simp only [PrivateGroups.isMember, hmem,
    h.own (p := fun m => m = ⟨userId, groupId⟩) (by simp +contextual)]

theorem LowEquiv.hiddenFrom (h : LowEquiv userId d d') :
    hiddenFrom d userId groupId = hiddenFrom d' userId groupId := by
  simp only [PrivateGroups.hiddenFrom, h.groups, h.isMember]

theorem Query.packet_congr {query : Query} (h : query.select.rows d = query.select.rows d') :
    query.packet tokener d = query.packet tokener d' := by
  simp only [Query.packet, Select.result, h]

theorem selectUserGroups_eq (h : LowEquiv userId d d') :
    selectUserGroups d userId = selectUserGroups d' userId := by
  simp only [selectUserGroups, h.groups]
  congr 1
  funext g
  rw [h.own (fun m hm => by simp at hm; exact hm.2)]

theorem selectPublicGroup_eq (h : LowEquiv userId d d') :
    selectPublicGroup d userId = selectPublicGroup d' userId := by
  simp only [selectPublicGroup, h.groups]
  congr 1
  funext g
  rw [h.own (fun m hm => by simp at hm; exact hm.2)]

theorem getGroupCodes_nil (h : isMember d userId groupId = false) :
    getGroupCodes d groupId userId = [] := by
  rw [getGroupCodes, List.flatMap_eq_nil_iff]
  intro gc hgc
  have hgc : gc.groupId = groupId := by simpa using (List.mem_filter.mp hgc).2
  rw [List.map_eq_nil_iff, List.filter_eq_nil_iff]
  rintro ⟨u, g⟩ hgm heq
  simp only [decide_eq_true_eq] at heq
  obtain ⟨rfl, rfl⟩ := heq
  rw [hgc] at hgm
  simp [isMember, hgm] at h

theorem getGroupCodes_eq (h : LowEquiv userId d d') :
    getGroupCodes d groupId userId = getGroupCodes d' groupId userId := by
  cases hmember : isMember d userId groupId with
  | false => rw [getGroupCodes_nil hmember, getGroupCodes_nil (h.isMember ▸ hmember)]
  | true =>
      have hvisible : PrivateGroups.hiddenFrom d userId groupId =
        false := by simp [PrivateGroups.hiddenFrom, hmember]
      have hcodes : d.codes.filter (fun gc => gc.groupId = groupId) =
          d'.codes.filter (fun gc => gc.groupId = groupId) := by
        refine filter_of_visible h.codes ?_ ?_ <;> intro c _ hc <;>
          simp only [decide_eq_true_eq] at hc ⊢
        · rw [hc, hvisible]
        · rw [hc, ← h.hiddenFrom, hvisible]
      simp only [getGroupCodes, hcodes]
      congr 1
      funext gc
      rw [h.own (fun m hm => by simp at hm; exact hm.2)]

theorem selectMemberIds_eq (h : LowEquiv userId d d')
    (hvisible : PrivateGroups.hiddenFrom d userId groupId = false) :
    selectMemberIds d groupId = selectMemberIds d' groupId := by
  rw [selectMemberIds, selectMemberIds]
  congr 1
  refine filter_of_visible h.members ?_ ?_ <;> intro m _ hm <;>
    simp only [decide_eq_true_eq] at hm ⊢
  · rw [hm]
    exact .inr hvisible
  · rw [hm, ← h.hiddenFrom]
    exact .inr hvisible

theorem selectGroupMsgs_eq (h : LowEquiv userId d d')
    (hvisible : PrivateGroups.hiddenFrom d userId groupId = false) :
    selectGroupMsgs d groupId limit offset = selectGroupMsgs d' groupId limit offset := by
  rw [selectGroupMsgs, selectGroupMsgs]
  congr 3
  refine filter_of_visible h.messages ?_ ?_ <;> intro m _ hm <;>
    simp only [decide_eq_true_eq] at hm ⊢
  · intro g hg
    rw [hm, Option.mem_some_iff] at hg
    rw [← hg, hvisible]
  · intro g hg
    rw [hm, Option.mem_some_iff] at hg
    rw [← hg, ← h.hiddenFrom, hvisible]

/-- When a command answers with hidden rows. -/
def Leaks (d : Database) (userId : Nat) : ReadCommand → Prop
  | .getMemberIds payload => ∃ n, intField payload "group_id" = .ok n ∧ IsInt (u32 n) ∧
      hiddenFrom d userId (u32 n) = true ∧ ∃ v ∈ d.users, v.userId ≠ userId
  | .getGroupMsgs payload => ∃ n limit offset, intField payload "group_id" = .ok n ∧
      intField payload "limit" = .ok limit ∧ intField payload "offset" = .ok offset ∧
      (IsInt (u32 n) ∧ IsInt (u32 limit) ∧ IsInt (u32 offset)) ∧
      hiddenFrom d userId (u32 n) = true ∧ u32 limit ≠ 0
  | _ => False

theorem selectMemberIds_nil (hd : Valid d) (hhidden : hiddenFrom d userId groupId = true)
    (halone : ∀ v ∈ d.users, v.userId = userId) : selectMemberIds d groupId = [] := by
  rw [selectMemberIds, List.map_eq_nil_iff, List.filter_eq_nil_iff]
  rintro ⟨v, g⟩ hm hg
  obtain rfl : g = groupId := by simpa using hg
  obtain ⟨row, hrow, hv⟩ := List.mem_map.mp (hd.memberUser _ hm)
  have hv : v = userId := hv.symm.trans (halone row hrow)
  simp [hiddenFrom, isMember, ← hv, hm] at hhidden

theorem memberIds_rows_eq (hd : Valid d) (hd' : Valid d') (h : LowEquiv userId d d')
    (hleaks : ¬ (IsInt groupId ∧ hiddenFrom d userId groupId = true ∧
      ∃ v ∈ d.users, v.userId ≠ userId)) :
    (Select.memberIds groupId).rows d = (Select.memberIds groupId).rows d' := by
  simp only [Select.rows]
  split
  · next hint =>
      congr 5
      cases hhidden : hiddenFrom d userId groupId with
      | false => exact selectMemberIds_eq h hhidden
      | true =>
          have halone : ∀ v ∈ d.users, v.userId = userId := by
            intro v hv
            by_contra hne
            exact hleaks ⟨hint, hhidden, v, hv, hne⟩
          rw [selectMemberIds_nil hd hhidden halone,
            selectMemberIds_nil hd' (h.hiddenFrom ▸ hhidden) (h.users ▸ halone)]
  · rfl

theorem groupMsgs_rows_eq (h : LowEquiv userId d d')
    (hleaks : ¬ ((IsInt groupId ∧ IsInt limit ∧ IsInt offset) ∧
      hiddenFrom d userId groupId = true ∧ limit ≠ 0)) :
    (Select.groupMsgs groupId limit offset).rows d =
    (Select.groupMsgs groupId limit offset).rows d' := by
  simp only [Select.rows]
  split
  · next hint =>
      congr 5
      cases hhidden : hiddenFrom d userId groupId with
      | false => exact selectGroupMsgs_eq h hhidden
      | true =>
          obtain rfl : limit = 0 := by
            by_contra hne
            exact hleaks ⟨hint, hhidden, hne⟩
          rw [selectGroupMsgs, selectGroupMsgs, List.take_zero, List.take_zero]
  · rfl

theorem users_rows_eq (h : LowEquiv userId d d') (ids : List Int) :
    (Select.users ids).rows d = (Select.users ids).rows d' := by
  simp only [Select.rows, selectUserJson, h.users]

theorem serverGetGroupMemberIds_ok {payload : JsonObject} {q : Query} :
    serverGetGroupMemberIds payload = .ok q ↔
    ∃ n, intField payload "group_id" = .ok n ∧
      ⟨.memberIds (u32 n), queryCtx .dbGetGroupMemberIds (u32 n), doGetGroupMemberIds⟩ = q := by
  simp only [serverGetGroupMemberIds, bind_ok, pure, Except.pure, Except.ok.injEq]

theorem serverGetGroupMsgs_ok {payload : JsonObject} {q : Query} :
    serverGetGroupMsgs payload = .ok q ↔
    ∃ n, intField payload "group_id" = .ok n ∧ ∃ limit, intField payload "limit" = .ok limit ∧
      ∃ offset, intField payload "offset" = .ok offset ∧
        ⟨.groupMsgs (u32 n) (u32 limit) (u32 offset), queryCtx .doGetGroupMsgs (u32 n),
          GroupRead.doGetGroupMsgs⟩ = q := by
  simp only [serverGetGroupMsgs, bind_ok, pure, Except.pure, Except.ok.injEq]

theorem serverGetGroupCodes_ok {payload : JsonObject} {q : Query} :
    serverGetGroupCodes userId payload = .ok q ↔
    ∃ n, intField payload "group_id" = .ok n ∧
      ⟨.groupCodes (u32 n) userId, queryCtx .getGroupCodes (u32 n), GroupRead.getGroupCodesResult⟩ =
        q := by
  simp only [serverGetGroupCodes, bind_ok, pure, Except.pure, Except.ok.injEq]

theorem serverGetUser_select {payload : JsonObject} {packets : List JsonObject} {q : Query}
    (h : serverGetUser online payload = .ok (packets, some q)) : ∃ ids, q.select = .users ids := by
  obtain ⟨elements, -, h⟩ := bind_ok.mp h
  split at h
  · cases h
  · cases h
  · simp only [pure, Except.pure, Except.ok.injEq, Prod.mk.injEq] at h
    obtain ⟨-, h⟩ := h
    split at h
    · cases h
    · exact ⟨_, congrArg Query.select (Option.some.inj h).symm⟩

theorem handled_eq {payload : JsonObject} {query : Except String Query}
    (h : ∀ q, query = .ok q → q.select.rows d = q.select.rows d') :
    handled tokener d payload query = handled tokener d' payload query := by
  cases query with
  | error errmsg => rfl
  | ok q => exact congrArg (fun p => [p]) (Query.packet_congr (h q rfl))

theorem answer_eq_of_not_leaks (hd : Valid d) (hd' : Valid d') (h : LowEquiv userId d d')
    {cmd : ReadCommand} (hleaks : ¬ Leaks d userId cmd) :
    answer tokener online d userId cmd = answer tokener online d' userId cmd := by
  cases cmd with
  | clientGroups =>
      refine congrArg (fun p => [p]) (Query.packet_congr ?_)
      simp only [serverClientGroups, Select.rows, selectUserGroups_eq h]
  | getAllGroups =>
      refine congrArg (fun p => [p]) (Query.packet_congr ?_)
      simp only [serverGetAllGroups, Select.rows, selectPublicGroup_eq h]
  | getMemberIds payload =>
      refine handled_eq fun q hq => ?_
      obtain ⟨n, hn, rfl⟩ := serverGetGroupMemberIds_ok.mp hq
      exact memberIds_rows_eq hd hd' h fun hl => hleaks ⟨n, hn, hl⟩
  | getGroupMsgs payload =>
      refine handled_eq fun q hq => ?_
      obtain ⟨n, hn, limit, hlimit, offset, hoffset, rfl⟩ := serverGetGroupMsgs_ok.mp hq
      exact groupMsgs_rows_eq h fun hl => hleaks ⟨n, limit, offset, hn, hlimit, hoffset, hl⟩
  | getGroupCodes payload =>
      refine handled_eq fun q hq => ?_
      obtain ⟨n, -, rfl⟩ := serverGetGroupCodes_ok.mp hq
      simp only [Select.rows, getGroupCodes_eq h]
  | getUser payload =>
      simp only [answer]
      cases hget : serverGetUser online payload with
      | error errmsg => rfl
      | ok found =>
          obtain ⟨packets, query⟩ := found
          cases query with
          | none => rfl
          | some q =>
              obtain ⟨ids, hselect⟩ := serverGetUser_select hget
              have hpacket : q.packet tokener d = q.packet tokener d' :=
                Query.packet_congr (by rw [hselect]; exact users_rows_eq h ids)
              simp only [Option.toList_some, List.map_cons, List.map_nil, hpacket]

end ChityChat.PrivateGroups
