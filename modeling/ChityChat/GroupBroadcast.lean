import ChityChat.GroupRead
import ChityChat.WriteStatements

namespace ChityChat.GroupBroadcast

open JsonC DbResult Schema WriteStatements
open GroupRead (execError)

abbrev Packet := Nat × JsonObject

def i32ToU64 (n : Nat) : Nat := if n < 2 ^ 31 then n else n + (2 ^ 64 - 2 ^ 32)

def memberIds (res : PGresult) : List Nat :=
  (List.range (pqNtuples res)).map (fun i => strtoul (pqGetvalue res i 0))

/-- The users with a client in `user_ht`, with that client. The ids are looked up by `key`. -/
def recipients (key : Nat → Nat) (userHt : Nat → Option Nat) (ids : List Nat) : List (Nat × Nat) :=
  ids.filterMap (fun id => (userHt (key id)).map (fun client => (id, client)))

def sendAll (json : JsonObject) (users : List (Nat × Nat)) : List Packet :=
  users.map (fun r => (r.2, json))

def groupRecipients (userHt : Nat → Option Nat) (res : PGresult) : List (Nat × Nat) :=
  if res.status = .tuplesOk then recipients i32ToU64 userHt (memberIds res) else []

def doGroupBroadcast (userHt : Nat → Option Nat) (json : JsonObject) (res : PGresult) :
    List Packet :=
  sendAll json (groupRecipients userHt res)

def execPackets (client : Option Nat) : Except String (List Packet) → List Packet
  | .ok packets => packets
  | .error errmsg => client.toList.map (fun c => (c, execError errmsg))

/-- An error is only reported for a violated constraint. -/
def Justified (s : Store) (stmt : Stmt) (res : PGresult) : Prop :=
  res.status = .fatalError → ∀ now code s' status rows,
    stmt.run s now code = some (s', status, rows) → ¬ Valid s'.toDatabase

variable {s : Store} {userHt : Nat → Option Nat} {handle groupId : Nat}

theorem map_pqGetvalue {α β : Type} (status : ExecStatusType) (value : α → Value)
    (f : Option Text → β) (xs : List α) :
    (List.range (pqNtuples ⟨handle, status, xs.map (fun x => [some (value x)])⟩)).map
        (fun i => f (pqGetvalue ⟨handle, status, xs.map (fun x => [some (value x)])⟩ i 0)) =
      xs.map (fun x => f (some (.ofResult handle (value x)))) := by
  apply List.ext_getElem
  · simp [pqNtuples]
  · intro i hi hxs
    rw [List.length_map] at hxs
    have hrow : (xs.map (fun x => [some (value x)]))[i]? = some [some (value xs[i])] := by
      rw [List.getElem?_map, List.getElem?_eq_getElem hxs, Option.map_some]
    simp only [List.getElem_map, List.getElem_range, pqGetvalue, hrow, Option.bind_some,
      List.getElem?_cons_zero, Option.map_some, Option.getD_some]

theorem memberIds_ints {ids : List Nat} (status : ExecStatusType) (h : ∀ id ∈ ids, id < 2 ^ 31) :
    memberIds ⟨handle, status, ids.map (fun (id : Nat) => [some (.int id)])⟩ = ids := by
  rw [memberIds, map_pqGetvalue status (fun (id : Nat) => .int id) strtoul]
  refine (List.map_congr_left (g := fun n => n) (fun n hn => ?_)).trans (List.map_id ids)
  have hlt := h n hn
  simp only [strtoul, Option.elim_some, Text.value, atoi, u32]
  omega

def members (s : Store) (groupId : Nat) : List Nat :=
  (s.members.filter (fun gm => gm.groupId = groupId)).map MemberRow.userId

theorem mem_members {userId : Nat} : userId ∈ members s groupId ↔ ⟨userId, groupId⟩ ∈ s.members := by
  simp only [members, List.mem_map, List.mem_filter, decide_eq_true_eq]
  constructor
  · rintro ⟨⟨u, g⟩, ⟨hm, rfl⟩, rfl⟩
    exact hm
  · intro hm
    exact ⟨_, ⟨hm, rfl⟩, rfl⟩

theorem members_nodup (hs : Stored s) : (members s groupId).Nodup := by
  apply List.Nodup.map_on
  · rintro ⟨u, g⟩ hx ⟨v, k⟩ hy rfl
    simp only [List.mem_filter, decide_eq_true_eq] at hx hy
    rw [hx.2, hy.2]
  · exact hs.valid.memberKey.filter _

theorem member_int (hs : Stored s) {userId : Nat} (h : userId ∈ members s groupId) :
    userId < 2 ^ 31 := by
  obtain ⟨user, huser, rfl⟩ := List.mem_map.mp (hs.valid.memberUser _ (mem_members.mp h))
  exact (hs.users user huser).2.trans_le hs.ints.1

theorem memberIds_select (hs : Stored s) :
    memberIds ⟨handle, .tuplesOk, selectMemberIds s groupId⟩ = members s groupId := by
  have hrows : selectMemberIds s groupId =
      (members s groupId).map (fun (id : Nat) => [some (.int id)]) := by
    rw [selectMemberIds, members, List.map_map]
    rfl
  rw [hrows, memberIds_ints .tuplesOk (fun _ => member_int hs)]

theorem mem_recipients {key : Nat → Nat} {ids : List Nat} {userId client : Nat} :
    (userId, client) ∈ recipients key userHt ids ↔
      userId ∈ ids ∧ userHt (key userId) = some client := by
  simp [recipients]

theorem recipients_nodup (key : Nat → Nat) {ids : List Nat} (h : ids.Nodup) :
    ((recipients key userHt ids).map Prod.fst).Nodup := by
  refine List.Nodup.sublist ?_ h
  clear h
  induction ids with
  | nil => exact .slnil
  | cons id ids ih =>
      rw [recipients, List.filterMap_cons]
      cases userHt (key id) with
      | none => exact ih.cons id
      | some client => exact ih.cons_cons id

/-- Every online member is among the users, once and with its own client, and nobody else is. -/
structure OnlineMembers (s : Store) (groupId : Nat) (userHt : Nat → Option Nat)
    (users : List (Nat × Nat)) : Prop where
  once : (users.map Prod.fst).Nodup
  mem : ∀ userId client, (userId, client) ∈ users ↔
    ⟨userId, groupId⟩ ∈ s.members ∧ userHt userId = some client

theorem recipients_online (hs : Stored s) {key : Nat → Nat} (hkey : ∀ n < 2 ^ 31, key n = n) :
    OnlineMembers s groupId userHt (recipients key userHt (members s groupId)) where
  once := recipients_nodup key (members_nodup hs)
  mem userId client := by
    rw [mem_recipients, mem_members]
    constructor
    · rintro ⟨hm, hht⟩
      rw [hkey _ (member_int hs (mem_members.mpr hm))] at hht
      exact ⟨hm, hht⟩
    · rintro ⟨hm, hht⟩
      rw [hkey _ (member_int hs (mem_members.mpr hm))]
      exact ⟨hm, hht⟩

theorem groupRecipients_online (hs : Stored s) :
    OnlineMembers s groupId userHt
      (groupRecipients userHt ⟨handle, .tuplesOk, selectMemberIds s groupId⟩) := by
  rw [groupRecipients, if_pos rfl, memberIds_select hs]
  exact recipients_online hs (fun n hn => if_pos hn)

end ChityChat.GroupBroadcast
