import ChityChat.GroupRead
import ChityChat.UserRows

namespace ChityChat.UserFields

open ByteMemory (Memory)
open CString JsonC UserRows FixedFields
open GroupRead (serverAddUserInJson)

variable {n : Nat} {s text : Bytes} {row : UsersRow}

/-- The string of a field, which ends with the struct at the latest. -/
def fieldString (m : Memory UInt8) (pos : Nat) : Bytes := stringAt sizeofDbuser m pos

/-- `rtusm.status` is an `enum` behind `flags`. -/
def statusAt : Nat := pfpHashAt + dbPfpNameMax + 1 + 4

def rtusmStatusStr : List String := ["offline", "online", "away", "dnd"]

def rtusmStatus (m : Memory UInt8) : Nat :=
  (ByteMemory.read m statusAt 4).foldr (fun b n => b.toNat + 256 * n) 0

/-- The user as `server_add_user_in_json` reads it. -/
def strings (user : Dbuser) : GroupRead.DbUser where
  userId := user.userId
  username := fieldString user.mem usernameAt
  displayname := fieldString user.mem displaynameAt
  bio := fieldString user.mem bioAt
  createdAt := fieldString user.mem createdAtAt
  pfpHash := fieldString user.mem pfpHashAt
  status := utf8 (rtusmStatusStr.getD (rtusmStatus user.mem) "")

def userJson (user : Dbuser) : JsonObject := serverAddUserInJson (strings user)

/-- The string under the key is read from a field of this size alone, and it is a prefix of the
text. -/
def Confined (json : JsonObject) (key : String) (size : Nat) (text : Bytes) : Prop :=
  ∃ s, json.objectGet key = .string s ∧ s <+: text ∧ s.length ≤ size

/-- Each string shows the beginning of its column and no byte of another field. -/
structure ShowsColumns (json : JsonObject) (row : UsersRow) : Prop where
  username : Confined json "username" dbUsernameMax row.username.bytes
  displayname : Confined json "displayname" dbDisplaynameMax row.displayname.bytes
  bio : Confined json "bio" dbBioMax (textOf row.bio)
  createdAt : Confined json "created_at" dbTimestampMax (textOf row.createdAt)
  pfpName : Confined json "pfp_name" dbPfpNameMax (textOf row.pfp)

structure Separated (row : UsersRow) : Prop where
  inside : Inside row
  username : row.username.bytes.length < dbUsernameMax ∨ row.displayname.bytes = []
  displayname : row.displayname.bytes.length < dbDisplaynameMax ∨ textOf row.bio = []
  bio : (textOf row.bio).length < dbBioMax ∨ row.hash.headD 0 = 0
  createdAt : (textOf row.pfp).take dbTimestampMax <+: textOf row.createdAt
  createdAt_end : (textOf row.pfp).length < dbTimestampMax ∨ (pfpSpill row).headD 0 = 0
  pfpName : cstr (pfpSpill row) <+: textOf row.pfp
  pfpName_end : (cstr (pfpSpill row)).length ≤ dbPfpNameMax

theorem zero_notMem_textOf (t : Option DbText) : 0 ∉ textOf t := by
  cases t with
  | none => exact List.not_mem_nil
  | some t => exact t.noNul

theorem confined_iff {json : JsonObject} {key : String} (h : json.objectGet key = .string s) :
    Confined json key n text ↔ s <+: text ∧ s.length ≤ n := by
  constructor
  · rintro ⟨s', hs', hconfined⟩
    rw [h] at hs'
    cases hs'
    exact hconfined
  · exact fun hconfined => ⟨s, h, hconfined⟩

theorem username_iff (row : UsersRow) :
    (fieldString (rowMem row) usernameAt <+: row.username.bytes ∧
      (fieldString (rowMem row) usernameAt).length ≤ dbUsernameMax) ↔
        row.username.bytes.length < dbUsernameMax ∨ row.displayname.bytes = [] := by
  have hnext : rowMem row (usernameAt + dbUsernameMax) = row.displayname.bytes.headD 0 :=
    first_byte (rowMem_displayname row) (by decide)
  rw [fieldString, stringAt_own_iff (rowMem_username row) row.username.bytes_noNul (by decide),
    hnext, headD_eq_zero_iff row.displayname.bytes_noNul]

theorem displayname_iff (row : UsersRow) :
    (fieldString (rowMem row) displaynameAt <+: row.displayname.bytes ∧
      (fieldString (rowMem row) displaynameAt).length ≤ dbDisplaynameMax) ↔
        row.displayname.bytes.length < dbDisplaynameMax ∨ textOf row.bio = [] := by
  have hnext : rowMem row (displaynameAt + dbDisplaynameMax) = (textOf row.bio).headD 0 :=
    first_byte (rowMem_bio row) (by decide)
  rw [fieldString, stringAt_own_iff (rowMem_displayname row) row.displayname.bytes_noNul (by decide),
    hnext, headD_eq_zero_iff (zero_notMem_textOf _)]

theorem bio_iff (row : UsersRow) :
    (fieldString (rowMem row) bioAt <+: textOf row.bio ∧
      (fieldString (rowMem row) bioAt).length ≤ dbBioMax) ↔
        (textOf row.bio).length < dbBioMax ∨ row.hash.headD 0 = 0 := by
  have hnext : rowMem row (bioAt + dbBioMax) = row.hash.headD 0 :=
    first_byte (rowMem_hash row) (by decide)
  rw [fieldString, stringAt_own_iff (rowMem_bio row) (zero_notMem_textOf _) (by decide),
    hnext]

theorem createdAt_iff (row : UsersRow) :
    (fieldString (rowMem row) createdAtAt <+: textOf row.createdAt ∧
      (fieldString (rowMem row) createdAtAt).length ≤ dbTimestampMax) ↔
        (textOf row.pfp).take dbTimestampMax <+: textOf row.createdAt ∧
          ((textOf row.pfp).length < dbTimestampMax ∨ (pfpSpill row).headD 0 = 0) := by
  have hnext : rowMem row (createdAtAt + dbTimestampMax) = (pfpSpill row).headD 0 :=
    first_byte (rowMem_pfpHash row 1) (by decide)
  rw [fieldString, stringAt_confined_iff (rowMem_createdAt row) (zero_notMem_textOf _) (by decide),
    hnext]

theorem pfpName_iff (row : UsersRow) :
    (fieldString (rowMem row) pfpHashAt <+: textOf row.pfp ∧
      (fieldString (rowMem row) pfpHashAt).length ≤ dbPfpNameMax) ↔
        cstr (pfpSpill row) <+: textOf row.pfp ∧ (cstr (pfpSpill row)).length ≤ dbPfpNameMax := by
  have hroom : dbPfpNameMax < sizeofDbuser - pfpHashAt := by decide
  rw [fieldString, stringAt, rowMem_pfpHash, cstr_padded]
  by_cases hle : (cstr (pfpSpill row)).length ≤ dbPfpNameMax
  · rw [List.take_of_length_le (Nat.le_of_lt (Nat.lt_of_le_of_lt hle hroom))]
  · refine iff_of_false (fun h => hle ?_) (fun h => hle h.2)
    have hlen := h.2
    rw [List.length_take] at hlen
    omega

theorem serverAddUserInJson_get (user : GroupRead.DbUser) :
    (serverAddUserInJson user).objectGet "username" = .string user.username ∧
      (serverAddUserInJson user).objectGet "displayname" = .string user.displayname ∧
      (serverAddUserInJson user).objectGet "bio" = .string user.bio ∧
      (serverAddUserInJson user).objectGet "created_at" = .string user.createdAt ∧
      (serverAddUserInJson user).objectGet "pfp_name" = .string user.pfpHash :=
  ⟨rfl, rfl, rfl, rfl, rfl⟩

theorem userJson_get (user : Dbuser) :
    (userJson user).objectGet "username" = .string (fieldString user.mem usernameAt) ∧
      (userJson user).objectGet "displayname" = .string (fieldString user.mem displaynameAt) ∧
      (userJson user).objectGet "bio" = .string (fieldString user.mem bioAt) ∧
      (userJson user).objectGet "created_at" = .string (fieldString user.mem createdAtAt) ∧
      (userJson user).objectGet "pfp_name" = .string (fieldString user.mem pfpHashAt) := by
  simp only [userJson, serverAddUserInJson_get, strings, and_self]

theorem showsColumns_iff (row : UsersRow) (flags : Int) :
    ShowsColumns (userJson ⟨row.userId, flags, rowMem row⟩) row ↔
      (row.username.bytes.length < dbUsernameMax ∨ row.displayname.bytes = []) ∧
      (row.displayname.bytes.length < dbDisplaynameMax ∨ textOf row.bio = []) ∧
      ((textOf row.bio).length < dbBioMax ∨ row.hash.headD 0 = 0) ∧
      ((textOf row.pfp).take dbTimestampMax <+: textOf row.createdAt ∧
        ((textOf row.pfp).length < dbTimestampMax ∨ (pfpSpill row).headD 0 = 0)) ∧
      cstr (pfpSpill row) <+: textOf row.pfp ∧ (cstr (pfpSpill row)).length ≤ dbPfpNameMax := by
  obtain ⟨husername, hdisplayname, hbio, hcreated, hpfp⟩ :=
    userJson_get ⟨row.userId, flags, rowMem row⟩
  have h1 := (confined_iff husername).trans (username_iff row)
  have h2 := (confined_iff hdisplayname).trans (displayname_iff row)
  have h3 := (confined_iff hbio).trans (bio_iff row)
  have h4 := (confined_iff hcreated).trans (createdAt_iff row)
  have h5 := (confined_iff hpfp).trans (pfpName_iff row)
  rw [← h1, ← h2, ← h3, ← h4, ← h5]
  exact ⟨fun h => ⟨h.username, h.displayname, h.bio, h.createdAt, h.pfpName⟩,
    fun ⟨h1, h2, h3, h4, h5⟩ => ⟨h1, h2, h3, h4, h5⟩⟩

/-- The strings of a user keep apart exactly if no column fills its field in front of another text,
and the picture, which stands where the time of the creation is read, begins that time. -/
theorem dbGetUserResult_shows_iff (row : UsersRow) (rows : List (List (Option Bytes))) :
    (∃ user, dbGetUserResult .tuplesOk (row.columns :: rows) = some user ∧
      ShowsColumns (userJson user) row) ↔ Separated row := by
  constructor
  · rintro ⟨user, huser, hshows⟩
    obtain ⟨hinside, rfl⟩ := dbGetUserResult_some huser
    obtain ⟨h1, h2, h3, ⟨h4, h5⟩, h6, h7⟩ := (showsColumns_iff row _).mp hshows
    exact ⟨hinside, h1, h2, h3, h4, h5, h6, h7⟩
  · intro h
    rw [dbGetUserResult_columns, if_pos h.inside]
    exact ⟨_, rfl, (showsColumns_iff row _).mpr ⟨h.username, h.displayname, h.bio,
      ⟨h.createdAt, h.createdAt_end⟩, h.pfpName, h.pfpName_end⟩⟩

def talker : UsersRow := { anna with
  bio := some ⟨String.ofList (List.replicate 256 'b'), by decide +kernel⟩ }

/-- The bio of such a user is shown with the hash of the password behind it. -/
theorem talker_shows_hash : ¬ ∀ (row : UsersRow) (rows : List (List (Option Bytes))),
    ∃ user, dbGetUserResult .tuplesOk (row.columns :: rows) = some user ∧
      ShowsColumns (userJson user) row := by
  intro hall
  obtain ⟨user, huser, hshows⟩ := hall talker []
  obtain ⟨-, rfl⟩ := dbGetUserResult_some huser
  have hbio := ((showsColumns_iff talker _).mp hshows).2.2.1
  have hfull : ¬ ((textOf talker.bio).length < dbBioMax ∨ talker.hash.headD 0 = 0) := by
    decide +kernel
  exact hfull hbio

end ChityChat.UserFields
