import ChityChat.GroupRead
import Mathlib.Data.List.Induction

namespace ChityChat.GetUserSplit

open JsonC GroupRead

/-- What a command sends at once, what it asks the database for, and the error it returns. -/
structure Reply where
  packets : List JsonObject
  asked : Option (List JsonObject)
  errmsg : Option String

def jsonObjectGetInt : JsonObject → Int
  | .int n => max (-2 ^ 31) (min n (2 ^ 31 - 1))
  | _ => 0

def isInt : JsonObject → Bool
  | .int _ => true
  | _ => false

def verifyJsonArrayType (array : List JsonObject) : Bool := array ≠ [] && array.all isInt

def userIdOf (element : JsonObject) : UInt32 := UInt32.ofNat (u32 (jsonObjectGetInt element))

/-- The rounds of the loop with `i` below this number, from the last to the first. An online user is
put behind those found before, and his element is deleted from the array. -/
def rmLoop (online : UInt32 → Option DbUser) :
    Nat → List JsonObject → List DbUser → List DbUser × List JsonObject
  | 0, array, ret => (ret, array)
  | i + 1, array, ret =>
    match online (userIdOf (array.getD i .null)) with
    | some user => rmLoop online i (array.eraseIdx i) (ret ++ [user])
    | none => rmLoop online i array ret

def getRmUsersJson (online : UInt32 → Option DbUser) (array : List JsonObject) :
    List DbUser × List JsonObject := rmLoop online array.length array []

def getUsersFromDb (sends : List JsonObject → Bool) (array : List JsonObject) :
    Option (List JsonObject) × Option String :=
  if array.length = 0 then (none, none)
  else (some array, if sends array then none else some "Internal error: async-get-user-array")

def usersPacket (users : List JsonObject) : List JsonObject :=
  if users = [] then [] else [.object [("cmd", .newString "get_user"), ("users", .array users)]]

def sendUsersFromClients (users : List DbUser) : List JsonObject :=
  usersPacket (users.map serverAddUserInJson)

def serverGetUser (online : UInt32 → Option DbUser) (sends : List JsonObject → Bool)
    (payload : JsonObject) : Reply :=
  match payload.objectGet "user_ids" with
  | .array array =>
    if verifyJsonArrayType array = false then ⟨[], none, some "Invalid array"⟩
    else
      let r := getRmUsersJson online array
      let db := getUsersFromDb sends r.2
      ⟨sendUsersFromClients r.1, db.1, db.2⟩
  | _ => ⟨[], none, some (invalidStr "user_ids")⟩

/-- The user in `user_ht` with this id. -/
def onlineAt (online : UInt32 → Option DbUser) (v : Int) : Option DbUser :=
  if 0 ≤ v ∧ v < 2 ^ 32 then online (UInt32.ofNat v.toNat) else none

def described (user : Option DbUser) : Option JsonObject := user.map serverAddUserInJson

/-- The online positions are described in one packet, and the database is asked for the others. -/
structure Splits (online : UInt32 → Option DbUser) (ids : List Int) (r : Reply) : Prop where
  packet : ∃ users, users.Perm (ids.filterMap (fun v => described (onlineAt online v))) ∧
    r.packets = usersPacket users
  asked : r.asked = let others := ids.filter (fun v => (onlineAt online v).isNone)
    if others = [] then none else some (others.map .int)

variable {online : UInt32 → Option DbUser} {ids : List Int}

theorem rmLoop_eq (online : UInt32 → Option DbUser) (before rest : List JsonObject) (ret : List DbUser) :
    rmLoop online before.length (before ++ rest) ret =
      (ret ++ before.reverse.filterMap (fun e => online (userIdOf e)),
        before.filter (fun e => (online (userIdOf e)).isNone) ++ rest) := by
  induction before using List.reverseRecOn generalizing rest ret with
  | nil => simp [rmLoop]
  | append_singleton before e ih =>
      have hget : (before ++ [e] ++ rest).getD before.length .null = e := by simp
      rw [List.length_append, List.length_singleton, rmLoop, hget]
      cases he : online (userIdOf e) with
      | none =>
          rw [List.append_assoc, ih]
          simp [he]
      | some user =>
          have hdel : (before ++ [e] ++ rest).eraseIdx before.length = before ++ rest := by
            rw [List.append_assoc, List.eraseIdx_append_of_length_le (Nat.le_refl _)]
            simp
          simp only [hdel]
          rw [ih]
          simp [he]

def found (online : UInt32 → Option DbUser) (v : Int) : Option DbUser := online (userIdOf (.int v))

theorem getRmUsersJson_ints :
    getRmUsersJson online (ids.map .int) =
      (ids.reverse.filterMap (found online),
        (ids.filter (fun v => (found online v).isNone)).map .int) := by
  have h := rmLoop_eq online (ids.map .int) [] []
  rw [List.append_nil, List.append_nil] at h
  rw [getRmUsersJson, h, ← List.map_reverse, List.filterMap_map, List.filter_map, List.nil_append]
  rfl

theorem verifyJsonArrayType_ints (hne : ids ≠ []) : verifyJsonArrayType (ids.map .int) = true := by
  simp [verifyJsonArrayType, hne, isInt]

theorem serverGetUser_reply (online : UInt32 → Option DbUser) (sends : List JsonObject → Bool)
    {payload : JsonObject}
    (hpay : payload.objectGet "user_ids" = .array (ids.map .int)) (hne : ids ≠ []) :
    (serverGetUser online sends payload).packets =
        usersPacket (ids.reverse.filterMap (fun v => described (found online v))) ∧
      (serverGetUser online sends payload).asked =
        let others := ids.filter (fun v => (found online v).isNone)
        if others = [] then none else some (others.map .int) := by
  rw [serverGetUser, hpay]
  simp only [verifyJsonArrayType_ints hne, getRmUsersJson_ints, sendUsersFromClients,
    getUsersFromDb, List.map_filterMap]
  refine ⟨rfl, ?_⟩
  cases ids.filter (fun v => (found online v).isNone) <;> simp

theorem usersPacket_map (users : List DbUser) :
    usersPacket (users.map serverAddUserInJson) = if users = [] then [] else
      [.object [("cmd", .newString "get_user"),
        ("users", .array (users.map serverAddUserInJson))]] := by
  cases users <;> rfl

theorem intsOf_map (ids : List Int) : intsOf (ids.map .int) = some ids := by
  induction ids with
  | nil => rfl
  | cons v ids ih => rw [List.map_cons, intsOf, ih]; rfl

theorem serverGetUser_groupRead {payload : JsonObject} {sends : List JsonObject → Bool}
    (hpay : payload.objectGet "user_ids" = .array (ids.map .int)) (hne : ids ≠ []) :
    GroupRead.serverGetUser (fun id => online (UInt32.ofNat id)) payload =
      .ok ((serverGetUser online sends payload).packets,
        let others := ids.filter (fun v => (found online v).isNone)
        if others = [] then none
        else some ⟨.users others, queryCtx .dbGetUserJson 0, doGetUsers⟩) := by
  -- the match asks for a list that is not empty
  obtain ⟨v, rest, rfl⟩ := List.exists_cons_of_ne_nil hne
  rw [(serverGetUser_reply online sends hpay hne).1, GroupRead.serverGetUser, arrayField_ok.mpr hpay]
  simp only [bind, Except.bind, intsOf_map]
  have hdesc : (v :: rest).reverse.filterMap (fun v => described (found online v)) =
      ((v :: rest).reverse.filterMap (found online)).map serverAddUserInJson := by
    rw [List.map_filterMap]
    rfl
  rw [hdesc, usersPacket_map]
  rfl

theorem usersPacket_injective {users users' : List JsonObject}
    (h : usersPacket users = usersPacket users') : users = users' := by
  cases users <;> cases users' <;> simp [usersPacket] at h ⊢
  exact h

theorem asked_injective {others others' : List Int}
    (h : (if others = [] then none else some (others.map JsonObject.int)) =
      if others' = [] then none else some (others'.map JsonObject.int)) : others = others' := by
  have hinj : Function.Injective JsonObject.int := fun a b hab => JsonObject.int.inj hab
  split at h <;> split at h
  · next h₁ h₂ => rw [h₁, h₂]
  · cases h
  · cases h
  · exact hinj.list_map (Option.some.inj h)

theorem found_of_lt {v : Int} (hlo : 0 ≤ v) (hhi : v < 2 ^ 31) :
    found online v = onlineAt online v := by
  have hget : jsonObjectGetInt (.int v) = v := by simp only [jsonObjectGetInt]; omega
  rw [found, userIdOf, hget, onlineAt, if_pos ⟨hlo, by omega⟩]
  congr 2
  simp only [u32]
  omega

theorem found_of_le {v : Int} (hv : 2 ^ 31 ≤ v) : found online v = online 2147483647 := by
  have hget : jsonObjectGetInt (.int v) = 2 ^ 31 - 1 := by simp only [jsonObjectGetInt]; omega
  rw [found, userIdOf, hget]
  rfl

theorem perm_described {f g : Int → Option JsonObject} (p : Int → Bool)
    (hfg : ∀ v ∈ ids, p v = true → f v = g v) (h : (ids.filterMap f).Perm (ids.filterMap g)) :
    ((ids.filter (!p ·)).filterMap f).Perm ((ids.filter (!p ·)).filterMap g) := by
  have hsplit (k : Int → Option JsonObject) :
      (ids.filterMap k).Perm
        ((ids.filter p).filterMap k ++ (ids.filter (!p ·)).filterMap k) := by
    rw [← List.filterMap_append]
    exact ((List.filter_append_perm p ids).filterMap k).symm
  have hsame : (ids.filter p).filterMap f = (ids.filter p).filterMap g := by
    apply List.filterMap_congr
    intro v hv
    rw [List.mem_filter] at hv
    exact hfg v hv.1 hv.2
  have hall := (hsplit f).symm.trans (h.trans (hsplit g))
  rw [hsame] at hall
  exact (List.perm_append_left_iff _).mp hall

/-- The same ids found, and the same descriptions in some order, is the same description of each
id. Ids from `2 ^ 31` on are all looked up as one. -/
theorem described_found
    (hsame : ids.filter (fun v => (found online v).isNone) =
      ids.filter (fun v => (onlineAt online v).isNone))
    (hperm : (ids.filterMap (fun v => described (found online v))).Perm
      (ids.filterMap (fun v => described (onlineAt online v)))) :
    ∀ v ∈ ids, described (found online v) = described (onlineAt online v) := by
  have hnone : ∀ v ∈ ids, (found online v = none ↔ onlineAt online v = none) := by
    intro v hv
    have h : v ∈ ids.filter (fun v => (found online v).isNone) ↔
        v ∈ ids.filter (fun v => (onlineAt online v).isNone) := by rw [hsame]
    simpa [hv] using h
  have hsmall : ∀ v ∈ ids, decide (v < 2 ^ 31) = true →
      described (found online v) = described (onlineAt online v) := by
    intro v hv hlt
    rw [decide_eq_true_eq] at hlt
    by_cases hlo : 0 ≤ v
    · rw [found_of_lt hlo hlt]
    · have hat : onlineAt online v = none := if_neg (by omega)
      rw [(hnone v hv).mpr hat, hat]
  intro v hv
  by_cases hlt : v < 2 ^ 31
  · exact hsmall v hv (by simpa using hlt)
  cases hat : onlineAt online v with
  | none => rw [(hnone v hv).mpr hat]
  | some user =>
      have hbig := perm_described (fun v => decide (v < 2 ^ 31)) hsmall hperm
      have hmem : serverAddUserInJson user ∈
          (ids.filter (fun v => !decide (v < 2 ^ 31))).filterMap
            (fun v => described (onlineAt online v)) := by
        rw [List.mem_filterMap]
        exact ⟨v, by simp [hv]; omega, by rw [hat]; rfl⟩
      -- some other id gave this description, and it was looked up like this one
      obtain ⟨w, hw, hdesc⟩ := List.mem_filterMap.mp (hbig.mem_iff.mpr hmem)
      have hwge : 2 ^ 31 ≤ w := by simpa using (List.mem_filter.mp hw).2
      rw [found_of_le hwge] at hdesc
      rw [found_of_le (by omega), hdesc]
      rfl

theorem serverGetUser_splits_iff {payload : JsonObject} {sends : List JsonObject → Bool}
    (hpay : payload.objectGet "user_ids" = .array (ids.map .int)) (hne : ids ≠ []) :
    Splits online ids (serverGetUser online sends payload) ↔
      ∀ v ∈ ids, described (online (userIdOf (.int v))) = described (onlineAt online v) := by
  obtain ⟨hpackets, hasked⟩ := serverGetUser_reply online sends hpay hne
  constructor
  · intro ⟨⟨users, hperm, husers⟩, hothers⟩
    have hrev : ids.reverse.filterMap (fun v => described (found online v)) = users :=
      usersPacket_injective (hpackets.symm.trans husers)
    have hids : (ids.filterMap (fun v => described (found online v))).Perm users := by
      rw [← hrev]
      exact (List.reverse_perm ids).symm.filterMap _
    exact described_found (asked_injective (hasked.symm.trans hothers)) (hids.trans hperm)
  · intro h
    refine ⟨⟨_, ?_, hpackets⟩, ?_⟩
    · rw [← List.filterMap_congr h]
      exact (List.reverse_perm ids).filterMap _
    · rw [hasked]
      have hsame : ids.filter (fun v => (found online v).isNone) =
          ids.filter (fun v => (onlineAt online v).isNone) := by
        apply List.filter_congr
        intro v hv
        have hv' := congrArg Option.isNone (h v hv)
        simpa [described, found] using hv'
      simp only [hsame]

def sevenOnline (id : UInt32) : Option DbUser := if id = 7 then some ⟨7, utf8 "seven", [], [], [], [], []⟩ else none

theorem serverGetUser_splits_seven : Splits sevenOnline [1, 7, 1]
    (serverGetUser sevenOnline (fun _ => true) (.object [("user_ids", .array [.int 1, .int 7, .int 1])])) := by
  have hone : userIdOf (.int 1) = 1 := by decide +kernel
  have hseven : userIdOf (.int 7) = 7 := by decide +kernel
  refine (serverGetUser_splits_iff rfl (by decide)).mpr (fun v hv => ?_)
  simp only [List.mem_cons, List.not_mem_nil, or_false] at hv
  rcases hv with rfl | rfl | rfl
  · rw [hone]
    rfl
  · rw [hseven]
    rfl
  · rw [hone]
    rfl

def lastInt : DbUser := ⟨2147483647, [], [], [], [], [], []⟩

def lastIntOnline (id : UInt32) : Option DbUser := if id = 2147483647 then some lastInt else none

/-- The user behind the largest `int` is asked for, and the one with that id is described. -/
theorem nextInt_not_split : ¬ Splits lastIntOnline [2147483648]
    (serverGetUser lastIntOnline (fun _ => true)
      (.object [("user_ids", .array [.int 2147483648])])) := by
  intro h
  have hpay : (JsonObject.object [("user_ids", .array [.int 2147483648])]).objectGet "user_ids" =
      .array ([(2147483648 : Int)].map .int) := rfl
  have hreply := serverGetUser_reply lastIntOnline (fun _ => true) hpay (by decide)
  have hothers := asked_injective (hreply.2.symm.trans h.asked)
  revert hothers
  decide +kernel

end ChityChat.GetUserSplit
