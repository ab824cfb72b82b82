import ChityChat.UserRegister

namespace ChityChat.UsernameLogin

open CString JsonC UserRegister

variable {Salt Hash : Type}

/-- The bytes that registering sends for the username. From 50 bytes on the display name follows. -/
def sentUsername (r : Registration Salt) : Bytes :=
  if (cstr r.username).length < dbUsernameMax then cstr r.username
  else (cstr r.username).take dbUsernameMax ++ (cstr r.displayname).take dbUsernameMax

/-- What registering stores, the sent name in lower case, is the name as a login reads it. -/
def NameKept (pg : Postgres) (r : Registration Salt) : Prop :=
  ∃ sent name, pg.text (sentUsername r) = some sent ∧ pg.text (cstr r.username) = some name ∧
    varchar50 (pg.lower (varchar50 sent)) = varchar50 name

theorem displaynameStr_serverClientRegister (sha512 : Salt → Bytes → Hash)
    (r : Registration Salt) :
    (serverClientRegister sha512 r).displaynameStr = (cstr r.displayname).take dbUsernameMax := by
  simp [Dbuser.displaynameStr, serverClientRegister, runOn]

theorem usernameStr_serverClientRegister (sha512 : Salt → Bytes → Hash) (r : Registration Salt) :
    (serverClientRegister sha512 r).usernameStr = sentUsername r := by
  rw [Dbuser.usernameStr, displaynameStr_serverClientRegister, sentUsername]
  obtain hl | hl := Nat.lt_or_ge (cstr r.username).length dbUsernameMax
  · have ht : (cstr r.username).take dbUsernameMax = cstr r.username :=
      List.take_of_length_le (by omega)
    rw [if_pos hl, serverClientRegister, ht, runOn_of_lt hl]
  · rw [if_neg (by omega), serverClientRegister, runOn, List.length_take, if_neg (by omega)]

theorem assignVarchar50_eq_some {s name : List Char} (h : assignVarchar50 s = some name) :
    name = varchar50 s := by
  rw [assignVarchar50, Option.ite_none_right_eq_some, Option.some.injEq] at h
  exact h.2.symm

theorem insertUser_some {pg : Postgres} {table table' : UserTable Salt Hash}
    {user : Dbuser Salt Hash} {row : UserRow Salt Hash}
    (h : insertUser pg table user = (some row, table')) :
    ∃ sent, pg.text user.usernameStr = some sent ∧
      row.username = varchar50 (pg.lower (varchar50 sent)) ∧
      row.username ∉ table.rows.map UserRow.username ∧ table'.rows = table.rows ++ [row] := by
  rw [insertUser] at h
  split at h
  · rename_i sent displayname hs hd
    split at h
    · simp at h
    · rename_i name hname
      split at h
      · simp at h
      · rename_i hfresh
        rw [Prod.mk.injEq, Option.some.injEq] at h
        obtain ⟨rfl, rfl⟩ := h
        exact ⟨sent, hs, assignVarchar50_eq_some hname, hfresh, rfl⟩
  · simp at h

theorem insertUser_rows (pg : Postgres) (table : UserTable Salt Hash) (user : Dbuser Salt Hash) :
    table.rows <+: (insertUser pg table user).2.rows := by
  rw [insertUser]
  split
  · split
    · exact List.prefix_rfl
    · split
      · exact List.prefix_rfl
      · exact List.prefix_append ..
  · exact List.prefix_rfl

theorem registerAll_rows (pg : Postgres) (sha512 : Salt → Bytes → Hash)
    (table : UserTable Salt Hash) (rs : List (Registration Salt)) :
    table.rows <+: (registerAll pg sha512 table rs).rows := by
  induction rs generalizing table with
  | nil => exact List.prefix_rfl
  | cons r rs ih => exact (insertUser_rows pg table _).trans (ih _)

theorem find?_username {before : List (UserRow Salt Hash)} {row : UserRow Salt Hash}
    (h : row.username ∉ before.map UserRow.username) (behind : List (UserRow Salt Hash))
    (name : List Char) :
    (before ++ row :: behind).find? (fun row => row.username = name) = some row ↔
      row.username = name := by
  constructor
  · intro hf
    simpa using List.find?_some hf
  · rintro rfl
    have hb : before.find? (fun r => r.username = row.username) = none := by
      rw [List.find?_eq_none]
      intro r hr
      have hne := ne_of_mem_of_not_mem (List.mem_map_of_mem hr) h
      simpa using hne
    rw [List.find?_append, hb, Option.none_or, List.find?_cons_of_pos (by simp)]

/-- After other registrations, a login with the registered username selects the registered row if
and only if the name is kept. -/
theorem login_selects_iff {pg : Postgres} {sha512 : Salt → Bytes → Hash}
    {table table' : UserTable Salt Hash} {r : Registration Salt} {row : UserRow Salt Hash}
    (h : register pg sha512 table r = (some row, table')) (later : List (Registration Salt)) :
    getUserUsername pg (registerAll pg sha512 table' later) r.username = some row ↔
      NameKept pg r := by
  obtain ⟨sent, hs, hrow, hfresh, htable⟩ := insertUser_some h
  obtain ⟨behind, hbehind⟩ := registerAll_rows pg sha512 table' later
  rw [usernameStr_serverClientRegister] at hs
  rw [htable, List.append_assoc, List.singleton_append] at hbehind
  rw [getUserUsername, NameKept]
  cases hn : pg.text (cstr r.username) with
  | none => simp
  | some name =>
      rw [← hbehind, find?_username hfresh, hrow]
      simp [hs]

def ascii : Postgres where
  text s := if s.all (· < 128) then some (s.map (fun c => Char.ofNat c.toNat)) else none
  lower := List.map Char.toLower

theorem login_selects_iff_alice :
    getUserUsername ascii (registerAll ascii Prod.mk
      (register ascii Prod.mk ⟨1, []⟩ ⟨utf8 "alice", utf8 "Alice", utf8 "pw", ()⟩).2
      [⟨utf8 "bob", utf8 "Bob", utf8 "pw", ()⟩]) (utf8 "alice") =
        some ⟨1, "alice".toList, "Alice".toList, (), ((), utf8 "pw")⟩ ↔
      NameKept ascii ⟨utf8 "alice", utf8 "Alice", utf8 "pw", ()⟩ := by
  have h : register ascii Prod.mk ⟨1, []⟩ ⟨utf8 "alice", utf8 "Alice", utf8 "pw", ()⟩ =
      (some ⟨1, "alice".toList, "Alice".toList, (), ((), utf8 "pw")⟩,
        (register ascii Prod.mk ⟨1, []⟩ ⟨utf8 "alice", utf8 "Alice", utf8 "pw", ()⟩).2) :=
    Prod.ext (by decide +kernel) rfl
  exact login_selects_iff h [⟨utf8 "bob", utf8 "Bob", utf8 "pw", ()⟩]

/-- The name is stored in lower case and looked up as it was typed. -/
theorem capital_not_selected :
    (register ascii Prod.mk ⟨1, []⟩ ⟨utf8 "Alice", utf8 "Alice", utf8 "pw", ()⟩).1 =
        some ⟨1, "alice".toList, "Alice".toList, (), ((), utf8 "pw")⟩ ∧
      getUserUsername ascii
        (register ascii Prod.mk ⟨1, []⟩ ⟨utf8 "Alice", utf8 "Alice", utf8 "pw", ()⟩).2
        (utf8 "Alice") = none := by decide +kernel

end ChityChat.UsernameLogin
