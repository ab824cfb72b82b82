import ChityChat.CString
import ChityChat.JsonC

namespace ChityChat.UserRegister

open CString JsonC

variable {Salt Hash : Type}

def dbUsernameMax : Nat := 50
def dbDisplaynameMax : Nat := 50
def dbPasswordMax : Nat := 50

/-- The strings of a `register` command, as json-c holds them. -/
structure Registration (Salt : Type) where
  username : Bytes
  displayname : Bytes
  password : Bytes
  salt : Salt

/-- The fields of `dbuser_t` that registering fills. Zeros follow the display name. -/
structure Dbuser (Salt Hash : Type) where
  username : Bytes
  displayname : Bytes
  salt : Salt
  hash : Hash

def Dbuser.displaynameStr (user : Dbuser Salt Hash) : Bytes :=
  runOn dbDisplaynameMax user.displayname []

def Dbuser.usernameStr (user : Dbuser Salt Hash) : Bytes :=
  runOn dbUsernameMax user.username user.displaynameStr

/-- The user that `server_client_register` inserts. `sha512` is `server_sha512`. -/
def serverClientRegister (sha512 : Salt → Bytes → Hash) (r : Registration Salt) :
    Dbuser Salt Hash where
  username := (cstr r.username).take dbUsernameMax
  displayname := (cstr r.displayname).take dbUsernameMax
  salt := r.salt
  hash := sha512 r.salt (cstr r.password)

structure UserLoginParam where
  password : Bytes
  doSession : Bool

/-- The string at `password`. Behind it are `do_session` and the zeros of the context. -/
def UserLoginParam.passwordStr (param : UserLoginParam) : Bytes :=
  runOn dbPasswordMax param.password (if param.doSession then [1] else [])

def serverClientLogin (password : Bytes) (doSession : Bool) : UserLoginParam :=
  ⟨(cstr password).take dbPasswordMax, doSession⟩

def doClientLogin [DecidableEq Hash] (sha512 : Salt → Bytes → Hash) (salt : Salt) (hash : Hash)
    (param : UserLoginParam) : Bool :=
  hash = sha512 salt param.passwordStr

/-- How the database reads a text parameter, which it may refuse, and its `LOWER`. -/
structure Postgres where
  text : Bytes → Option (List Char)
  lower : List Char → List Char

def varchar50 (s : List Char) : List Char := s.take 50

structure UserRow (Salt Hash : Type) where
  userId : Nat
  username : List Char
  displayname : List Char
  salt : Salt
  hash : Hash
  deriving DecidableEq

structure UserTable (Salt Hash : Type) where
  serial : Nat
  rows : List (UserRow Salt Hash)

/-- What a column of type `varchar(50)` stores. Only spaces may be cut. -/
def assignVarchar50 (s : List Char) : Option (List Char) :=
  if (s.drop 50).all (· = ' ') then some (s.take 50) else none

/-- `insert_user.sql`. A failed insert uses up an id when its parameters could be read. -/
def insertUser (pg : Postgres) (table : UserTable Salt Hash) (user : Dbuser Salt Hash) :
    Option (UserRow Salt Hash) × UserTable Salt Hash :=
  match pg.text user.usernameStr, pg.text user.displaynameStr with
  | some username, some displayname =>
    match assignVarchar50 (pg.lower (varchar50 username)) with
    | none => (none, { table with serial := table.serial + 1 })
    | some username =>
      if username ∈ table.rows.map UserRow.username then
        (none, { table with serial := table.serial + 1 })
      else
        let row := ⟨table.serial, username, varchar50 displayname, user.salt, user.hash⟩
        (some row, ⟨table.serial + 1, table.rows ++ [row]⟩)
  | _, _ => (none, table)

def register (pg : Postgres) (sha512 : Salt → Bytes → Hash) (table : UserTable Salt Hash)
    (r : Registration Salt) : Option (UserRow Salt Hash) × UserTable Salt Hash :=
  insertUser pg table (serverClientRegister sha512 r)

def registerAll (pg : Postgres) (sha512 : Salt → Bytes → Hash) (table : UserTable Salt Hash)
    (rs : List (Registration Salt)) : UserTable Salt Hash :=
  rs.foldl (fun table r => (register pg sha512 table r).2) table

def getUserUsername (pg : Postgres) (table : UserTable Salt Hash) (username : Bytes) :
    Option (UserRow Salt Hash) :=
  match pg.text (cstr username) with
  | none => none
  | some name => table.rows.find? (fun row => row.username = varchar50 name)

end ChityChat.UserRegister
