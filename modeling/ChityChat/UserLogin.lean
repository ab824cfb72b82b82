import ChityChat.Transition
import Mathlib.Logic.Function.Basic

namespace ChityChat.UserLogin

open Transition

variable {C : Type} [DecidableEq C]

/-- What logging in and out uses of `client_t`. `dbuser` is the id of the user, `none` for NULL. -/
structure Client where
  dbuser : Option Nat
  loggedIn : Bool
  freed : Bool

inductive LoginCmd
  | login
  | register
  | session

/-- What the callback of a login command reports when the database finds no user for it, or when the
password is wrong. -/
def LoginCmd.failure : LoginCmd → String
  | login => "Incorrect Username or Password"
  | register => "Username already taken"
  | session => "Could not find user from session"

/-- Clients are pointers, `none` before they are allocated. `userHt` is `user_ht` as a finite
map and `pending` lists the contexts of the login commands under way. -/
structure Server (C : Type) where
  clients : C → Option Client
  userHt : Nat → Option C
  pending : List (C × LoginCmd)

def Server.modify (s : Server C) (c : C) (f : Client → Client) : Server C :=
  { s with clients := Function.update s.clients c ((s.clients c).map f) }

def assignDbuser (s : Server C) (c : C) (userId : Nat) : Server C :=
  s.modify c (fun client => { client with dbuser := some userId })

/-- `server_ght_insert` on `user_ht`. Its result is not looked at. -/
def insertUser (s : Server C) (userId : Nat) (c : C) : Server C :=
  { s with userHt := if (s.userHt userId).isSome then s.userHt
    else Function.update s.userHt userId (some c) }

def markLoggedIn (s : Server C) (c : C) : Server C :=
  s.modify c (fun client => { client with loggedIn := true })

/-- `sent` tells whether `ws_json_send` succeeded. -/
def serverSetClientLoggedIn (s : Server C) (c : C) (userId : Nat) (sent : Bool) :
    Option String × Server C :=
  if (s.userHt userId).isSome then (some "Someone else already logged in", s)
  else
    let s := insertUser (assignDbuser s c userId) userId c
    (none, if sent then markLoggedIn s c else s)

/-- The callbacks `do_client_login`, `do_client_register` and `do_client_login_session`, given the
user that the database and the password check found. -/
def LoginCmd.exec (cmd : LoginCmd) (s : Server C) (c : C) (found : Option Nat) (sent : Bool) :
    Option String × Server C :=
  match found with
  | none => (some cmd.failure, s)
  | some userId => serverSetClientLoggedIn s c userId sent

def serverAcceptClient (s : Server C) (c : C) : Server C :=
  { s with clients := Function.update s.clients c (some ⟨none, false, false⟩) }

/-- `server_free_client` up to the removal from `user_ht`. -/
def removeUser (s : Server C) (c : C) : Server C :=
  match (s.clients c).bind Client.dbuser with
  | none => s
  | some userId => { s with userHt := Function.update s.userHt userId none }

def release (s : Server C) (c : C) : Server C :=
  s.modify c (fun client => { client with freed := true })

def serverFreeClient (s : Server C) (c : C) : Server C := release (removeUser s c) c

inductive Event (C : Type)
  | accept (c : C)
  | command (c : C) (cmd : LoginCmd)
  | complete (c : C) (cmd : LoginCmd) (found : Option Nat) (sent : Bool)
  | disconnect (c : C)

def Connected (s : Server C) (c : C) : Prop :=
  ∃ client, s.clients c = some client ∧ client.freed = false

/-- The login commands need no login, so a connected client may send any number of them. Their
callbacks run later, in any order between clients. -/
inductive Step : Server C → Event C → Server C → Prop
  | accept {s : Server C} {c : C} (h : s.clients c = none) :
      Step s (.accept c) (serverAcceptClient s c)
  | command {s : Server C} {c : C} (cmd : LoginCmd) (h : Connected s c) :
    Step s (.command c cmd) { s with pending := s.pending ++ [(c, cmd)] }
  | complete {s : Server C} (before : List (C × LoginCmd)) {after : List (C × LoginCmd)}
      {c : C} {cmd : LoginCmd}
    (found : Option Nat) (sent : Bool) (hs : s.pending = before ++ (c, cmd) :: after) :
    Step s (.complete c cmd found sent)
      { (cmd.exec s c found sent).2 with pending := before ++ after }
  | disconnect {s : Server C} {c : C} (h : Connected s c) :
      Step s (.disconnect c) (serverFreeClient s c)

structure Initial (s : Server C) : Prop where
  clients : ∀ c, s.clients c = none
  userHt : ∀ userId, s.userHt userId = none
  pending : s.pending = []

/-- Every entry of `user_ht` is a client that has not been
freed and carries the user of the entry. -/
def EntriesLive (s : Server C) : Prop :=
  ∀ userId c, s.userHt userId = some c →
    ∃ client, s.clients c = some client ∧ client.freed = false ∧ client.dbuser = some userId

/-- A login that finds its user not logged in is for a connected client that carries no user. -/
def FirstLogin (s : Server C) : Event C → Prop
  | .complete c _ (some userId) _ => s.userHt userId = none →
      ∃ client, s.clients c = some client ∧ client.freed = false ∧ client.dbuser = none
  | _ => True

end ChityChat.UserLogin
