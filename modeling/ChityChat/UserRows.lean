import ChityChat.DbResult
import ChityChat.DecimalText
import ChityChat.FixedFields

namespace ChityChat.UserRows

open ByteMemory hiding read
open CString JsonC DecimalText FixedFields
open DbResult (ExecStatusType)

/-- A value of a `text` column, which has no NUL. -/
structure DbText where
  text : String
  noNul : 0 ∉ utf8 text

def DbText.bytes (t : DbText) : Bytes := utf8 t.text

theorem DbText.bytes_noNul (t : DbText) : 0 ∉ t.bytes := t.noNul

theorem DbText.cstr_bytes (t : DbText) : cstr t.bytes = t.bytes := cstr_eq_self t.bytes_noNul

def textOf (t : Option DbText) : Bytes := t.elim [] DbText.bytes

/-- A row of `Users`, with the creation time as it is printed. -/
structure UsersRow where
  userId : Nat
  username : DbText
  displayname : DbText
  bio : Option DbText
  hash : Bytes
  salt : Bytes
  createdAt : Option DbText
  pfp : Option DbText
  serial : userId < 2 ^ 31
  username_le : username.text.length ≤ 50
  displayname_le : displayname.text.length ≤ 50

def hexDigit (n : Nat) : UInt8 := UInt8.ofNat (if n < 10 then 48 + n else 87 + n)

def byteaHex (bytes : Bytes) : Bytes :=
  92 :: 120 :: bytes.flatMap (fun b => [hexDigit (b.toNat / 16), hexDigit (b.toNat % 16)])

/-- What `SELECT *` gives for a row: its columns in the order of their declaration. -/
def UsersRow.columns (row : UsersRow) : List (Option Bytes) :=
  [some (decimal row.userId), some row.username.bytes, some row.displayname.bytes,
    row.bio.map DbText.bytes, some (byteaHex row.hash), some (byteaHex row.salt),
    row.createdAt.map DbText.bytes, row.pfp.map DbText.bytes]

/-- NULL outside the row, and the empty string for a SQL NULL. -/
def pqGetvalue (columns : List (Option Bytes)) (column : Nat) : Option Bytes :=
  columns[column]?.map (fun value => value.getD [])

def hexValue (c : UInt8) : Option Nat :=
  if 48 ≤ c ∧ c ≤ 57 then some (c.toNat - 48)
  else if 97 ≤ c ∧ c ≤ 102 then some (c.toNat - 87)
  else if 65 ≤ c ∧ c ≤ 70 then some (c.toNat - 55)
  else none

def strtoulHex (s : Bytes) : Nat :=
  (s.takeWhile (fun c => (hexValue c).isSome)).foldl (fun n c => 16 * n + (hexValue c).getD 0) 0

def hexPairs : Bytes → Bytes
  | [] => []
  | [c] => [UInt8.ofNat (strtoulHex [c])]
  | c :: d :: hexstr => UInt8.ofNat (strtoulHex [c, d]) :: hexPairs hexstr

def hexstrToU8 : Bytes → Bytes
  | 92 :: 120 :: hexstr => hexPairs hexstr
  | hexstr => hexPairs hexstr

def dbUsernameMax : Nat := 50
def dbDisplaynameMax : Nat := 50
def dbBioMax : Nat := 256
def serverHashSize : Nat := 64
def serverSaltSize : Nat := 16
def dbTimestampMax : Nat := 64
def dbPfpHashMax : Nat := 65
def dbPfpNameMax : Nat := 255

/-- The fields of `dbuser_t` follow each other behind `user_id`. -/
def usernameAt : Nat := 4
def displaynameAt : Nat := usernameAt + dbUsernameMax
def bioAt : Nat := displaynameAt + dbDisplaynameMax
def hashAt : Nat := bioAt + dbBioMax
def saltAt : Nat := hashAt + serverHashSize
def createdAtAt : Nat := saltAt + serverSaltSize
def pfpHashAt : Nat := createdAtAt + dbTimestampMax

/-- Behind `pfp_hash` come a byte that aligns `flags`, `flags` and `rtusm`. -/
def sizeofDbuser : Nat := pfpHashAt + dbPfpNameMax + 1 + 4 + 12

/-- `dbuser_t`. `mem` is the struct without its numbers. -/
structure Dbuser where
  userId : Nat
  flags : Int
  mem : Memory UInt8

def calloc : Dbuser := ⟨0, 0, fun _ => 0⟩

def copyColumn (columns : List (Option Bytes)) (column : Nat) (m : Memory UInt8) (dest n : Nat) :
    Memory UInt8 :=
  match pqGetvalue columns column with
  | some src => strncpy m dest src n
  | none => m

/-- `none` when a hash or a salt is written past the end of the struct. -/
def dbRowToUser (user : Dbuser) (columns : List (Option Bytes)) : Option Dbuser :=
  let hash := hexstrToU8 ((pqGetvalue columns 4).getD [])
  let salt := hexstrToU8 ((pqGetvalue columns 5).getD [])
  if hashAt + hash.length ≤ sizeofDbuser ∧ saltAt + salt.length ≤ sizeofDbuser then
    let m := copyColumn columns 1 user.mem usernameAt dbUsernameMax
    let m := copyColumn columns 2 m displaynameAt dbDisplaynameMax
    let m := copyColumn columns 3 m bioAt dbBioMax
    let m := write m hashAt hash
    let m := write m saltAt salt
    let m := copyColumn columns 7 m createdAtAt dbTimestampMax
    let m := copyColumn columns 8 m pfpHashAt dbPfpHashMax
    some {
      userId := (pqGetvalue columns 0).elim user.userId (fun s => strtoull s % 2 ^ 32)
      flags := (pqGetvalue columns 6).elim user.flags atoi
      mem := m }
  else none

def dbGetUserResult (status : ExecStatusType) (rows : List (List (Option Bytes))) :
    Option Dbuser :=
  match status, rows with
  | .tuplesOk, columns :: _ => dbRowToUser calloc columns
  | _, _ => none

def HoldsText (m : Memory UInt8) (pos size : Nat) (text : Bytes) : Prop :=
  cstr (ByteMemory.read m pos size) = text.take size

def HoldsBytes (m : Memory UInt8) (pos size : Nat) (bytes : Bytes) : Prop :=
  ByteMemory.read m pos size = padded size bytes

structure Decoded (user : Dbuser) (row : UsersRow) : Prop where
  userId : user.userId = row.userId
  username : HoldsText user.mem usernameAt dbUsernameMax row.username.bytes
  displayname : HoldsText user.mem displaynameAt dbDisplaynameMax row.displayname.bytes
  bio : HoldsText user.mem bioAt dbBioMax (textOf row.bio)
  hash : HoldsBytes user.mem hashAt serverHashSize row.hash
  salt : HoldsBytes user.mem saltAt serverSaltSize row.salt
  createdAt : HoldsText user.mem createdAtAt dbTimestampMax (textOf row.createdAt)
  pfpHash : HoldsText user.mem pfpHashAt dbPfpNameMax (textOf row.pfp)

/-- What the hash and the salt leave from the place of the salt on. -/
def spill (row : UsersRow) : Bytes :=
  row.salt ++ (row.hash.drop serverHashSize).drop row.salt.length

def pfpSpill (row : UsersRow) : Bytes := (spill row).drop (serverSaltSize + dbTimestampMax)

def Inside (row : UsersRow) : Prop :=
  hashAt + row.hash.length ≤ sizeofDbuser ∧ saltAt + row.salt.length ≤ sizeofDbuser

instance (row : UsersRow) : Decidable (Inside row) := inferInstanceAs (Decidable (_ ∧ _))

structure Decodable (row : UsersRow) : Prop where
  inside : Inside row
  salt : padded serverSaltSize (spill row) = padded serverSaltSize row.salt
  createdAt : (textOf row.pfp).take dbTimestampMax = (textOf row.createdAt).take dbTimestampMax
  pfp : (cstr (pfpSpill row)).take dbPfpNameMax = (textOf row.pfp).take dbPfpNameMax

theorem cstr_textOf (t : Option DbText) : cstr (textOf t) = textOf t := by
  cases t with
  | none => rfl
  | some t => exact t.cstr_bytes

theorem hexDigit_value : ∀ n < 16, hexValue (hexDigit n) = some n := by decide

theorem strtoulHex_pair (b : UInt8) :
    UInt8.ofNat (strtoulHex [hexDigit (b.toNat / 16), hexDigit (b.toNat % 16)]) = b := by
  have hb := b.toNat_lt
  have hhigh := hexDigit_value (b.toNat / 16) (by omega)
  have hlow := hexDigit_value (b.toNat % 16) (by omega)
  have hvalue : strtoulHex [hexDigit (b.toNat / 16), hexDigit (b.toNat % 16)] = b.toNat := by
    simp only [strtoulHex, List.takeWhile_cons, hhigh, hlow, Option.isSome_some, if_true,
      List.takeWhile_nil, List.foldl_cons, List.foldl_nil, Option.getD_some]
    omega
  rw [hvalue, UInt8.ofNat_toNat]

theorem hexPairs_digits (bytes : Bytes) :
    hexPairs (bytes.flatMap (fun b => [hexDigit (b.toNat / 16), hexDigit (b.toNat % 16)])) = bytes := by
  induction bytes with
  | nil => rfl
  | cons b bytes ih =>
      rw [List.flatMap_cons, List.cons_append, List.cons_append, List.nil_append, hexPairs,
        strtoulHex_pair, ih]

theorem hexstrToU8_byteaHex (bytes : Bytes) : hexstrToU8 (byteaHex bytes) = bytes := by
  rw [byteaHex, hexstrToU8, hexPairs_digits]

def textMem (row : UsersRow) : Memory UInt8 :=
  let m := write (fun _ => 0) usernameAt (padded dbUsernameMax row.username.bytes)
  let m := write m displaynameAt (padded dbDisplaynameMax row.displayname.bytes)
  write m bioAt (padded dbBioMax (textOf row.bio))

def rowMem (row : UsersRow) : Memory UInt8 :=
  write (write (write (textMem row) hashAt row.hash) saltAt row.salt) createdAtAt
    (padded dbTimestampMax (textOf row.pfp))

theorem dbGetUserResult_columns (row : UsersRow) (rows : List (List (Option Bytes))) :
    dbGetUserResult .tuplesOk (row.columns :: rows) = if Inside row then
      some ⟨row.userId, atoi (textOf row.createdAt), rowMem row⟩ else none := by
  have hid : strtoull (decimal row.userId) % 2 ^ 32 = row.userId := by
    have hserial := row.serial
    rw [strtoull_print (by omega)]
    omega
  have htext (t : Option DbText) : (t.map DbText.bytes).getD [] = textOf t := by
    cases t <;> rfl
  rw [dbGetUserResult, dbRowToUser]
  simp only [UsersRow.columns, pqGetvalue, copyColumn, strncpy, List.getElem?_cons_zero,
    List.getElem?_cons_succ, List.getElem?_nil, Option.map_some, Option.map_none, Option.getD_some,
    Option.elim_some, hexstrToU8_byteaHex, htext, cstr_textOf, DbText.cstr_bytes, hid]
  rfl

theorem rowMem_before (row : UsersRow) {pos n : Nat} (h : pos + n ≤ hashAt) :
    ByteMemory.read (rowMem row) pos n = ByteMemory.read (textMem row) pos n := by
  have hsalt : hashAt ≤ saltAt := by decide
  have hcreated : hashAt ≤ createdAtAt := by decide
  rw [rowMem, read_write_outside _ (.inl (Nat.le_trans h hcreated)),
    read_write_outside _ (.inl (Nat.le_trans h hsalt)), read_write_outside _ (.inl h)]

theorem rowMem_username (row : UsersRow) : ByteMemory.read (rowMem row) usernameAt dbUsernameMax =
    padded dbUsernameMax row.username.bytes := by
  rw [rowMem_before row (by decide), textMem, read_write_outside _ (.inl (by decide)),
    read_write_outside _ (.inl (by decide)), read_write_self _ (length_padded _ _)]

theorem rowMem_displayname (row : UsersRow) :
    ByteMemory.read (rowMem row) displaynameAt dbDisplaynameMax =
      padded dbDisplaynameMax row.displayname.bytes := by
  rw [rowMem_before row (by decide), textMem, read_write_outside _ (.inl (by decide)),
    read_write_self _ (length_padded _ _)]

theorem rowMem_bio (row : UsersRow) :
    ByteMemory.read (rowMem row) bioAt dbBioMax = padded dbBioMax (textOf row.bio) := by
  rw [rowMem_before row (by decide), textMem, read_write_self _ (length_padded _ _)]

theorem textMem_zero (row : UsersRow) {i : Nat} (h : hashAt ≤ i) : textMem row i = 0 := by
  have husername : usernameAt + (padded dbUsernameMax row.username.bytes).length ≤ i := by
    rw [length_padded]
    exact Nat.le_trans (by decide) h
  have hdisplayname : displaynameAt + (padded dbDisplaynameMax row.displayname.bytes).length ≤ i := by
    rw [length_padded]
    exact Nat.le_trans (by decide) h
  have hbio : bioAt + (padded dbBioMax (textOf row.bio)).length ≤ i := by
    rw [length_padded]
    exact h
  rw [textMem, write_outside _ _ (.inr hbio), write_outside _ _ (.inr hdisplayname),
    write_outside _ _ (.inr husername)]

theorem hashMem (row : UsersRow) (i : Nat) :
    write (textMem row) hashAt row.hash (hashAt + i) = row.hash.getD i 0 := by
  rw [write, if_pos (Nat.le_add_right _ _), Nat.add_sub_cancel_left,
    textMem_zero row (Nat.le_add_right _ _)]

theorem rowMem_hash (row : UsersRow) :
    ByteMemory.read (rowMem row) hashAt serverHashSize = padded serverHashSize row.hash := by
  rw [rowMem, read_write_outside _ (.inl (by decide)), read_write_outside _ (.inl (by decide)),
    read_padded (hashMem row)]

theorem spillMem (row : UsersRow) (i : Nat) :
    write (write (textMem row) hashAt row.hash) saltAt row.salt (saltAt + i) =
      (spill row).getD i 0 := by
  have hplace : saltAt + i = hashAt + (serverHashSize + i) := by rw [saltAt, Nat.add_assoc]
  rw [write, if_pos (Nat.le_add_right _ _), Nat.add_sub_cancel_left, hplace, hashMem, spill]
  simp only [List.getD_eq_getElem?_getD]
  by_cases hlt : i < row.salt.length
  · rw [List.getElem?_append_left hlt, List.getElem?_eq_getElem hlt, Option.getD_some,
      Option.getD_some]
  · rw [List.getElem?_append_right (Nat.not_lt.mp hlt), List.getElem?_eq_none (Nat.not_lt.mp hlt),
      Option.getD_none, List.getElem?_drop, List.getElem?_drop,
      Nat.add_sub_cancel' (Nat.not_lt.mp hlt)]

theorem rowMem_salt (row : UsersRow) :
    ByteMemory.read (rowMem row) saltAt serverSaltSize = padded serverSaltSize (spill row) := by
  rw [rowMem, read_write_outside _ (.inl (by decide)), read_padded (spillMem row)]

theorem rowMem_createdAt (row : UsersRow) :
    ByteMemory.read (rowMem row) createdAtAt dbTimestampMax =
      padded dbTimestampMax (textOf row.pfp) := by
  rw [rowMem, read_write_self _ (length_padded _ _)]

theorem rowMem_pfpHash (row : UsersRow) (n : Nat) :
    ByteMemory.read (rowMem row) pfpHashAt n = padded n (pfpSpill row) := by
  have houtside : createdAtAt + (padded dbTimestampMax (textOf row.pfp)).length ≤ pfpHashAt := by
    rw [length_padded]
    exact Nat.le_refl _
  rw [rowMem, read_write_outside _ (.inr houtside)]
  apply read_padded
  intro i
  have hplace : pfpHashAt + i = saltAt + (serverSaltSize + dbTimestampMax + i) := by
    simp only [pfpHashAt, createdAtAt, Nat.add_assoc]
  rw [hplace, spillMem, pfpSpill, List.getD_eq_getElem?_getD, List.getD_eq_getElem?_getD,
    List.getElem?_drop]

theorem holdsText_padded {m : Memory UInt8} {pos n : Nat} {s : Bytes}
    (h : ByteMemory.read m pos n = padded n s) (text : Bytes) :
    HoldsText m pos n text ↔ (cstr s).take n = text.take n := by
  rw [HoldsText, h, cstr_padded]

theorem dbGetUserResult_some {row : UsersRow} {rows : List (List (Option Bytes))} {user : Dbuser}
    (h : dbGetUserResult .tuplesOk (row.columns :: rows) = some user) :
    Inside row ∧ user = ⟨row.userId, atoi (textOf row.createdAt), rowMem row⟩ := by
  rw [dbGetUserResult_columns] at h
  split at h
  · next hinside => exact ⟨hinside, (Option.some.inj h).symm⟩
  · cases h

theorem decoded_createdAt {row : UsersRow} {rows : List (List (Option Bytes))} {user : Dbuser}
    (h : dbGetUserResult .tuplesOk (row.columns :: rows) = some user) (hdecoded : Decoded user row) :
    (textOf row.pfp).take dbTimestampMax = (textOf row.createdAt).take dbTimestampMax := by
  obtain ⟨-, rfl⟩ := dbGetUserResult_some h
  have hcreated := (holdsText_padded (rowMem_createdAt row) _).mp hdecoded.createdAt
  rwa [cstr_textOf] at hcreated

/-- A row is decoded column by column exactly if no column stands where another is read. -/
theorem dbGetUserResult_decoded_iff (row : UsersRow) (rows : List (List (Option Bytes))) :
    (∃ user, dbGetUserResult .tuplesOk (row.columns :: rows) = some user ∧ Decoded user row) ↔
      Decodable row := by
  constructor
  · rintro ⟨user, huser, hdecoded⟩
    have hcreated := decoded_createdAt huser hdecoded
    obtain ⟨hinside, rfl⟩ := dbGetUserResult_some huser
    exact ⟨hinside, (rowMem_salt row).symm.trans hdecoded.salt, hcreated,
      (holdsText_padded (rowMem_pfpHash row _) _).mp hdecoded.pfpHash⟩
  · intro h
    rw [dbGetUserResult_columns, if_pos h.inside]
    refine ⟨_, rfl, rfl, ?_, ?_, ?_, rowMem_hash row, (rowMem_salt row).trans h.salt, ?_, ?_⟩
    · rw [holdsText_padded (rowMem_username row), DbText.cstr_bytes]
    · rw [holdsText_padded (rowMem_displayname row), DbText.cstr_bytes]
    · rw [holdsText_padded (rowMem_bio row), cstr_textOf]
    · rw [holdsText_padded (rowMem_createdAt row), cstr_textOf, h.createdAt]
    · rw [holdsText_padded (rowMem_pfpHash row _), h.pfp]

def anna : UsersRow where
  userId := 1
  username := ⟨"anna", by decide +kernel⟩
  displayname := ⟨"Anna", by decide +kernel⟩
  bio := none
  hash := List.replicate 64 7
  salt := List.replicate 16 9
  createdAt := some ⟨"2024-05-01 12:00:00", by decide +kernel⟩
  pfp := none
  serial := by decide
  username_le := by decide
  displayname_le := by decide

/-- A user without a picture is given no time of creation. -/
theorem anna_created_never : ¬ ∀ (row : UsersRow) (rows : List (List (Option Bytes))),
    ∃ user, dbGetUserResult .tuplesOk (row.columns :: rows) = some user ∧ Decoded user row := by
  intro hall
  obtain ⟨user, huser, hdecoded⟩ := hall anna []
  have hcreated := decoded_createdAt huser hdecoded
  have hdiffer : (textOf anna.pfp).take dbTimestampMax ≠
      (textOf anna.createdAt).take dbTimestampMax := by
    decide +kernel
  exact hdiffer hcreated

/-- With a hash and a salt that fit, only a row without both texts is decoded. -/
theorem decodable_fitting_iff {row : UsersRow} (hhash : row.hash.length ≤ serverHashSize)
    (hsalt : row.salt.length ≤ serverSaltSize) :
    Decodable row ↔ textOf row.createdAt = [] ∧ textOf row.pfp = [] := by
  have hspill : spill row = row.salt := by
    rw [spill, List.drop_eq_nil_of_le hhash, List.drop_nil, List.append_nil]
  have hpfp : pfpSpill row = [] := by
    rw [pfpSpill, hspill]
    exact List.drop_eq_nil_of_le (Nat.le_trans hsalt (by decide))
  have hempty {n : Nat} (hn : 0 < n) (t : Option DbText) :
      (textOf t).take n = [] ↔ textOf t = [] := by
    rw [List.take_eq_nil_iff, or_iff_right (Nat.ne_of_gt hn)]
  constructor
  · intro h
    have hnone : textOf row.pfp = [] := by
      have hpic := h.pfp
      rw [hpfp] at hpic
      exact (hempty (by decide) _).mp hpic.symm
    have hcreated := h.createdAt
    rw [hnone, List.take_nil] at hcreated
    exact ⟨(hempty (by decide) _).mp hcreated.symm, hnone⟩
  · rintro ⟨hcreated, hnone⟩
    refine ⟨⟨?_, ?_⟩, by rw [hspill], by rw [hcreated, hnone], by rw [hpfp, hnone]; rfl⟩
    · exact Nat.le_trans (Nat.add_le_add_left hhash _) (by decide)
    · exact Nat.le_trans (Nat.add_le_add_left hsalt _) (by decide)

end ChityChat.UserRows
