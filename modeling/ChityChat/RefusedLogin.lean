import ChityChat.ServerHtEntries
import Mathlib.Logic.Function.Basic

namespace ChityChat.RefusedLogin

open ServerHt

variable {C S Salt Hash Password L : Type} [DecidableEq C] [DecidableEq S] [DecidableEq Hash]

structure Dbuser (Salt Hash : Type) where
  userId : UInt32
  salt : Salt
  hash : Hash

/-- `session_t`. A `timerfd` of 0 is no timer. -/
structure Session where
  sessionId : UInt32
  userId : UInt32
  timerfd : Int

/-- What of `client_t` a login reads or writes. -/
structure Client (S Salt Hash : Type) where
  dbuser : Option (Dbuser Salt Hash)
  session : Option S
  state : UInt16

def clientStateLoggedIn : UInt16 := 8

/-- Clients and sessions are pointers. `eventHt` tells which descriptors have an event. -/
structure Server (C S Salt Hash L : Type) where
  clients : C → Client S Salt Hash
  sessions : S → Session
  userHt : ServerGht C L
  sessionHt : ServerGht S L
  eventHt : Int → Bool

variable (A : LoadFactor L)

def Server.modify (s : Server C S Salt Hash L) (c : C)
    (f : Client S Salt Hash → Client S Salt Hash) : Server C S Salt Hash L :=
  { s with clients := Function.update s.clients c (f (s.clients c)) }

def serverGetClientUserId (s : Server C S Salt Hash L) (userId : UInt32) : Option C :=
  serverGhtGet s.userHt userId.toNat

/-- The block that `calloc` returned and the id that `getrandom` drew. -/
structure NewSession (S : Type) where
  session : S
  draw : UInt32

def serverNewUserSession (s : Server C S Salt Hash L) (c : C) (new : NewSession S) :
    Server C S Salt Hash L :=
  let s := { s with sessions := Function.update s.sessions new.session ⟨new.draw, 0, 0⟩ }
  let s := s.modify c (fun client => { client with session := some new.session })
  { s with sessionHt := (serverGhtInsert A s.sessionHt new.draw.toNat (some new.session)).2 }

def serverDelUserSession (s : Server C S Salt Hash L) (session : S) : Server C S Salt Hash L :=
  { s with sessionHt := (serverGhtDel A s.sessionHt (s.sessions session).sessionId.toNat).2 }

/-- The timer of a session that is in use again is deleted without running it. -/
def stopTimer (s : Server C S Salt Hash L) (session : S) : Server C S Salt Hash L :=
  if (s.sessions session).timerfd ≠ 0 then
    { s with
      eventHt := Function.update s.eventHt (s.sessions session).timerfd false
      sessions := Function.update s.sessions session { s.sessions session with timerfd := 0 } }
  else s

/-- `sent` tells whether `ws_json_send` succeeds. -/
def serverSetClientLoggedIn (s : Server C S Salt Hash L) (c : C) (user : Dbuser Salt Hash)
    (session : Option S) (sent : Bool) : Option String × Server C S Salt Hash L :=
  if (serverGetClientUserId s user.userId).isSome then
    (some "Someone else already logged in", s)
  else
    let s := s.modify c (fun client => { client with dbuser := some user })
    let s := { s with userHt := (serverGhtInsert A s.userHt user.userId.toNat (some c)).2 }
    let s := if sent then
      s.modify c (fun client =>
        { client with state := client.state ||| clientStateLoggedIn, session := session })
      else s
    (none, session.elim s (stopTimer s))

/-- A context of a login command with its result: `ret` is false for `DB_ASYNC_ERROR`, and `data`
is `none` where it is NULL. -/
inductive LoginCtx (S Salt Hash Password : Type)
  | login (password : Password) (doSession ret : Bool) (data : Option (Dbuser Salt Hash))
  | register (doSession ret : Bool) (data : Dbuser Salt Hash)
  | session (param : S) (ret : Bool) (data : Dbuser Salt Hash)

def loginWith (s : Server C S Salt Hash L) (c : C) (user : Dbuser Salt Hash) (doSession : Bool)
    (new : NewSession S) (sent : Bool) : Option String × Server C S Salt Hash L :=
  if doSession then
    let s := serverNewUserSession A s c new
    let session := { s.sessions new.session with userId := user.userId }
    let s := { s with sessions := Function.update s.sessions new.session session }
    serverSetClientLoggedIn A s c user (some new.session) sent
  else serverSetClientLoggedIn A s c user none sent

def doClientLogin (sha512 : Password → Salt → Hash) (s : Server C S Salt Hash L) (c : C)
    (password : Password) (doSession ret : Bool) (data : Option (Dbuser Salt Hash))
    (new : NewSession S) (sent : Bool) : Option String × Server C S Salt Hash L :=
  if ret = false then (some "Incorrect Username or Password", s)
  else
    match data with
    | none => (some "Internal error: ctx->data", s)
    | some user =>
      if user.hash = sha512 password user.salt then loginWith A s c user doSession new sent
      else (some "Incorrect Username or Password", s)

def doClientRegister (s : Server C S Salt Hash L) (c : C) (doSession ret : Bool)
    (data : Dbuser Salt Hash) (new : NewSession S) (sent : Bool) :
    Option String × Server C S Salt Hash L :=
  if ret = false then (some "Username already taken", s)
  else loginWith A s c data doSession new sent

def doClientLoginSession (s : Server C S Salt Hash L) (c : C) (param : S) (ret : Bool)
    (data : Dbuser Salt Hash) (sent : Bool) : Option String × Server C S Salt Hash L :=
  if ret = false then
    (some "Could not find user from session", serverDelUserSession A s param)
  else serverSetClientLoggedIn A s c data (some param) sent

def LoginCtx.exec (sha512 : Password → Salt → Hash) (s : Server C S Salt Hash L) (c : C)
    (new : NewSession S) (sent : Bool) :
    LoginCtx S Salt Hash Password → Option String × Server C S Salt Hash L
  | login password doSession ret data =>
      doClientLogin A sha512 s c password doSession ret data new sent
  | register doSession ret data => doClientRegister A s c doSession ret data new sent
  | session param ret data => doClientLoginSession A s c param ret data sent

def Holds (s : Server C S Salt Hash L) (session : S) : Prop :=
  ∃ key, (key, session) ∈ s.sessionHt.entries

structure Unchanged (s s' : Server C S Salt Hash L) (c : C) : Prop where
  dbuser : (s'.clients c).dbuser = (s.clients c).dbuser
  session : (s'.clients c).session = (s.clients c).session
  state : (s'.clients c).state = (s.clients c).state
  userHt : s'.userHt = s.userHt
  sessionHt : ∀ session, Holds s' session → Holds s session

def LoginCtx.createsSession (sha512 : Password → Salt → Hash) :
    LoginCtx S Salt Hash Password → Prop
  | login password doSession ret data =>
      doSession = true ∧ ret = true ∧ ∃ user ∈ data, user.hash = sha512 password user.salt
  | register doSession ret _ => doSession = true ∧ ret = true
  | session _ _ _ => False

variable {A} {s s' : Server C S Salt Hash L} {c : C} {user : Dbuser Salt Hash} {new : NewSession S}
  {session : S} {sent doSession : Bool} {errmsg : String} {sha512 : Password → Salt → Hash}

omit [DecidableEq C] [DecidableEq S] [DecidableEq Hash] in
theorem Unchanged.refl (s : Server C S Salt Hash L) (c : C) : Unchanged s s c :=
  ⟨rfl, rfl, rfl, rfl, fun _ h => h⟩

omit [DecidableEq C] [DecidableEq S] [DecidableEq Hash] in
theorem serverDelUserSession_unchanged (s : Server C S Salt Hash L) (c : C) (session : S) :
    Unchanged s (serverDelUserSession A s session) c :=
  ⟨rfl, rfl, rfl, rfl, fun _ ⟨key, h⟩ => ⟨key, serverGhtDel_entries h⟩⟩

omit [DecidableEq Hash] in
theorem serverSetClientLoggedIn_refused {param : Option S}
    (h : (serverSetClientLoggedIn A s c user param sent).1 = some errmsg) :
    (serverSetClientLoggedIn A s c user param sent).2 = s := by
  rw [serverSetClientLoggedIn] at h ⊢
  split
  · rfl
  · next hfree =>
      rw [if_neg hfree] at h
      cases h

omit [DecidableEq Hash] in
theorem loginWith_refused (hnew : (s.clients c).session ≠ some new.session)
    (h : (loginWith A s c user doSession new sent).1 = some errmsg) :
    Unchanged s (loginWith A s c user doSession new sent).2 c ↔ doSession = false := by
  rw [loginWith] at h ⊢
  cases doSession with
  | false =>
      rw [if_neg Bool.false_ne_true] at h ⊢
      rw [serverSetClientLoggedIn_refused h]
      exact iff_of_true (Unchanged.refl s c) rfl
  | true =>
      rw [if_pos rfl] at h ⊢
      refine iff_of_false (fun hsame => ?_) Bool.true_eq_false.mp
      have hsession := hsame.session
      rw [serverSetClientLoggedIn_refused h] at hsession
      exact hnew (hsession.symm.trans (by simp [serverNewUserSession, Server.modify]))

theorem doClientLogin_refused {password : Password} {ret : Bool} {data : Option (Dbuser Salt Hash)}
    (hnew : (s.clients c).session ≠ some new.session)
    (h : (doClientLogin A sha512 s c password doSession ret data new sent).1 = some errmsg) :
    Unchanged s (doClientLogin A sha512 s c password doSession ret data new sent).2 c ↔
      ¬ (LoginCtx.login password doSession ret data : LoginCtx S Salt Hash Password).createsSession
        sha512 := by
  unfold doClientLogin at h ⊢
  by_cases hret : ret = false
  · rw [if_pos hret]
    refine iff_of_true (Unchanged.refl s c) ?_
    rintro ⟨-, htrue, -⟩
    cases hret.symm.trans htrue
  · rw [if_neg hret] at h ⊢
    cases data with
    | none =>
        refine iff_of_true (Unchanged.refl s c) ?_
        rintro ⟨-, -, user, huser, -⟩
        cases huser
    | some user =>
        dsimp only at h ⊢
        by_cases hhash : user.hash = sha512 password user.salt
        · rw [if_pos hhash] at h ⊢
          rw [loginWith_refused hnew h, ← Bool.not_eq_true, not_iff_not]
          refine ⟨fun hsession => ?_, And.left⟩
          exact ⟨hsession, Bool.not_eq_false _ ▸ hret, user, rfl, hhash⟩
        · rw [if_neg hhash]
          refine iff_of_true (Unchanged.refl s c) ?_
          rintro ⟨-, -, other, hother, heq⟩
          obtain rfl := Option.some.inj hother
          exact hhash heq

omit [DecidableEq Hash] in
theorem doClientRegister_refused {ret : Bool} {data : Dbuser Salt Hash}
    (hnew : (s.clients c).session ≠ some new.session)
    (h : (doClientRegister A s c doSession ret data new sent).1 = some errmsg) :
    Unchanged s (doClientRegister A s c doSession ret data new sent).2 c ↔
      ¬ (LoginCtx.register doSession ret data : LoginCtx S Salt Hash Password).createsSession
        sha512 := by
  rw [doClientRegister] at h ⊢
  by_cases hret : ret = false
  · rw [if_pos hret]
    refine iff_of_true (Unchanged.refl s c) ?_
    rintro ⟨-, htrue⟩
    cases hret.symm.trans htrue
  · rw [if_neg hret] at h ⊢
    rw [loginWith_refused hnew h, ← Bool.not_eq_true, not_iff_not]
    exact ⟨fun hsession => ⟨hsession, Bool.not_eq_false _ ▸ hret⟩, And.left⟩

omit [DecidableEq Hash] in
theorem doClientLoginSession_refused {param : S} {ret : Bool} {data : Dbuser Salt Hash}
    (h : (doClientLoginSession A s c param ret data sent).1 = some errmsg) :
    Unchanged s (doClientLoginSession A s c param ret data sent).2 c := by
  rw [doClientLoginSession] at h ⊢
  split
  · exact serverDelUserSession_unchanged s c param
  · next hret =>
      rw [if_neg hret] at h
      rw [serverSetClientLoggedIn_refused h]
      exact Unchanged.refl s c

/-- A login command that ends with an error leaves things as they were if and only if it has not
created a session before. -/
theorem refused_unchanged_iff (A : LoadFactor L) (sha512 : Password → Salt → Hash)
    (s : Server C S Salt Hash L) (c : C) (ctx : LoginCtx S Salt Hash Password)
    (new : NewSession S) (sent : Bool) (hnew : (s.clients c).session ≠ some new.session)
    (errmsg : String) (herr : (ctx.exec A sha512 s c new sent).1 = some errmsg) :
    Unchanged s (ctx.exec A sha512 s c new sent).2 c ↔ ¬ ctx.createsSession sha512 := by
  cases ctx with
  | login password doSession ret data => exact doClientLogin_refused hnew herr
  | register doSession ret data => exact doClientRegister_refused hnew herr
  | session param ret data => exact iff_of_true (doClientLoginSession_refused herr) (fun h => h)

section OneUser

def loggedIn : Server Unit Unit Unit Nat ℚ where
  clients := fun _ => ⟨some ⟨1, (), 7⟩, none, clientStateLoggedIn⟩
  sessions := fun _ => ⟨0, 0, 0⟩
  userHt := (serverGhtInsert exactLoad (emptyGht exactLoad 4 false) 1 (some ())).2
  sessionHt := emptyGht exactLoad 4 true
  eventHt := fun _ => false

def hashOf (password : Nat) (_ : Unit) : Nat := password

def secondLogin : LoginCtx Unit Unit Nat Nat := .login 7 true true (some ⟨1, (), 7⟩)

theorem secondLogin_leaves_session :
    (secondLogin.exec exactLoad hashOf loggedIn () ⟨(), 5⟩ true).1 =
      some "Someone else already logged in" ∧
    ((secondLogin.exec exactLoad hashOf loggedIn () ⟨(), 5⟩ true).2.clients ()).session =
      some () ∧
    ¬ Holds loggedIn () ∧
    Holds (secondLogin.exec exactLoad hashOf loggedIn () ⟨(), 5⟩ true).2 () := by
  refine ⟨by decide +kernel, by decide +kernel, ?_, ⟨5, by decide +kernel⟩⟩
  rintro ⟨key, h⟩
  have hempty : loggedIn.sessionHt.entries = [] := by decide +kernel
  rw [hempty] at h
  cases h

/-- Without a session the same login is refused too, and changes nothing. -/
theorem refused_unchanged_iff_plain :
    Unchanged loggedIn ((LoginCtx.login 7 false true (some ⟨1, (), 7⟩) :
        LoginCtx Unit Unit Nat Nat).exec exactLoad hashOf loggedIn () ⟨(), 5⟩ true).2 () ↔
      ¬ (LoginCtx.login 7 false true (some ⟨1, (), 7⟩) :
        LoginCtx Unit Unit Nat Nat).createsSession hashOf :=
  refused_unchanged_iff exactLoad hashOf loggedIn () (.login 7 false true (some ⟨1, (), 7⟩))
    ⟨(), 5⟩ true (by simp [loggedIn]) "Someone else already logged in" (by decide +kernel)

end OneUser

end ChityChat.RefusedLogin
