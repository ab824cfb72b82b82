import ChityChat.UserEntries
import ChityChat.ServerHtDelete

namespace ChityChat.SessionTimers

open Transition UserLogin UserEntries

variable {C S T : Type} [DecidableEq C] [DecidableEq S] [DecidableEq T]

/-- `session_t`. A `timerfd` of 0 is `none`. -/
structure Session (T : Type) where
  sessionId : UInt32
  userId : Nat
  timerfd : Option T

inductive LoginCtx (S : Type)
  | login (doSession : Bool)
  | register (doSession : Bool)
  | session (session : S) (userId : Nat)

def LoginCtx.cmd : LoginCtx S → LoginCmd
  | login _ => .login
  | register _ => .register
  | session _ _ => .session

/-- Sessions are pointers, `none` while they are not allocated. `clientSession` is the field
`session` of the clients, `sessionHt` is `session_ht` as a finite map and `timers` gives the session
of each armed timer. -/
structure Server (C S T : Type) where
  users : UserLogin.Server C
  clientSession : C → Option S
  sessions : S → Option (Session T)
  sessionHt : UInt32 → Option S
  timers : T → Option S
  pending : List (C × LoginCtx S)

/-- What `server_ght_insert` does to the entries: it adds at most this one, under a free key. -/
def Inserts (ht : UInt32 → Option S) (key : UInt32) (session : S) (ht' : UInt32 → Option S) : Prop :=
  ∀ id, ht' id = ht id ∨ id = key ∧ ht id = none ∧ ht' id = some session

/-- What `server_ght_del` does to the entries: that of the key goes, and others may go with it. -/
def Deletes (ht : UInt32 → Option S) (key : UInt32) (ht' : UInt32 → Option S) : Prop :=
  ht' key = none ∧ ∀ id, ht' id = ht id ∨ ht' id = none

omit [DecidableEq S] in
theorem inserts_serverGhtInsert {L : Type} (A : ServerHt.LoadFactor L) {ht : ServerHt.ServerGht S L}
    (h : ServerHt.Counted ht) {key : UInt32} (hkey : key ≠ 0) (session : S) :
    Inserts (fun id => ServerHt.serverGhtGet ht id.toNat) key session
      (fun id => ServerHt.serverGhtGet
        (ServerHt.serverGhtInsert A ht key.toNat (some session)).2 id.toNat) := by
  have hk : key.toNat ≠ 0 := fun h0 => hkey (UInt32.toNat_inj.mp h0)
  intro id
  by_cases hp : ServerHt.serverGhtGet ht key.toNat = none
  · obtain ⟨ht', hins, hadds⟩ := ServerHt.ghtInsert_absent A h.shaped session hk hp
    have hresized := ServerHt.ghtCheckLoad_resized A hadds.shaped
    simp only [ServerHt.serverGhtInsert, hins, hresized.get_eq]
    by_cases hid : id = key
    · subst hid
      exact .inr ⟨rfl, hp, (hadds.get_iff _ _).mpr (.inr (List.mem_singleton_self _))⟩
    · refine .inl (Option.ext (fun other => ?_))
      rw [hadds.get_iff]
      simp [UInt32.toNat_inj, hid]
  · rw [ServerHt.serverGhtInsert, ServerHt.ghtInsert_present A h.shaped session hp]
    exact .inl rfl

omit [DecidableEq S] in
theorem deletes_serverGhtDel {L : Type} (A : ServerHt.LoadFactor L) {ht : ServerHt.ServerGht S L}
    (h : ServerHt.Counted ht) {key : UInt32} (hkey : key ≠ 0) :
    Deletes (fun id => ServerHt.serverGhtGet ht id.toNat) key
      (fun id => ServerHt.serverGhtGet (ServerHt.serverGhtDel A ht key.toNat).2 id.toNat) := by
  have hk : key.toNat ≠ 0 := fun h0 => hkey (UInt32.toNat_inj.mp h0)
  by_cases hp : ServerHt.serverGhtGet ht key.toNat = none
  · rw [ServerHt.serverGhtDel_absent A h.shaped hk hp]
    exact ⟨hp, fun id => .inl rfl⟩
  · obtain ⟨ht', hdel, hremoves⟩ := ServerHt.serverGhtDel_present A h.shaped h.flagged hp
    have hresized := ServerHt.ghtCheckLoad_resized A hremoves.shaped
    simp only [Deletes, hdel, hresized.get_eq]
    constructor
    · rw [Option.eq_none_iff_forall_ne_some]
      intro other hother
      exact ((hremoves.get_iff _ _).mp hother).2.1 rfl
    · intro id
      cases hid : ServerHt.serverGhtGet ht' id.toNat with
      | none => exact .inr rfl
      | some other => exact .inl ((hremoves.get_iff _ _).mp hid).1.symm

/-- A new session at this address with the id that was drawn, and `session_ht` after it. -/
structure NewSession (S : Type) where
  session : S
  draw : UInt32
  ht : UInt32 → Option S

def serverNewUserSession (s : Server C S T) (c : C) (userId : Nat) (new : NewSession S) :
    Server C S T :=
  { s with
    clientSession := Function.update s.clientSession c (some new.session)
    sessions := Function.update s.sessions new.session (some ⟨new.draw, userId, none⟩)
    sessionHt := new.ht }

def serverDelUserSession (s : Server C S T) (session : S) (ht : UInt32 → Option S) :
    Server C S T :=
  match s.sessions session with
  | none => s
  | some _ => { s with sessions := Function.update s.sessions session none, sessionHt := ht }

/-- `server_addtimer` for a session, with the timer that the system hands out. -/
def addSessionTimer (s : Server C S T) (session : S) (rec : Session T) (timer : T) :
    Server C S T :=
  { s with
    sessions := Function.update s.sessions session (some { rec with timerfd := some timer })
    timers := Function.update s.timers timer (some session) }

def stopSessionTimer (s : Server C S T) (session : S) : Server C S T :=
  match s.sessions session with
  | none => s
  | some rec =>
      match rec.timerfd with
      | none => s
      | some timer =>
        { s with
          sessions := Function.update s.sessions session (some { rec with timerfd := none })
          timers := Function.update s.timers timer none }

/-- Where `ws_json_send` succeeds. -/
def serverSetClientLoggedIn (s : Server C S T) (c : C) (userId : Nat) (session : Option S) :
    Option String × Server C S T :=
  match UserLogin.serverSetClientLoggedIn s.users c userId true with
  | (some errmsg, _) => (some errmsg, s)
  | (none, users) =>
    let s := { s with
      users := users
      clientSession := Function.update s.clientSession c session }
    match session with
    | none => (none, s)
    | some session => (none, stopSessionTimer s session)

/-- `do_client_login`, `do_client_register` and `do_client_login_session`. -/
def LoginCtx.exec (ctx : LoginCtx S) (s : Server C S T) (c : C) (found : Option Nat)
    (new : NewSession S) : Option String × Server C S T :=
  match ctx, found with
  | session param _, none => (some ctx.cmd.failure, serverDelUserSession s param new.ht)
  | _, none => (some ctx.cmd.failure, s)
  | session param _, some userId => serverSetClientLoggedIn s c userId (some param)
  | login true, some userId | register true, some userId =>
      serverSetClientLoggedIn (serverNewUserSession s c userId new) c userId (some new.session)
  | login false, some userId | register false, some userId =>
      serverSetClientLoggedIn s c userId none

def serverAcceptClient (s : Server C S T) (c : C) : Server C S T :=
  { s with
    users := UserLogin.serverAcceptClient s.users c
    clientSession := Function.update s.clientSession c none }

/-- The session part of `server_free_client`. -/
def startSessionTimer (s : Server C S T) (c : C) (timer : T) : Server C S T :=
  match s.clientSession c with
  | none => s
  | some session =>
      match s.sessions session with
      | none => s
      | some rec => if rec.timerfd = none then addSessionTimer s session rec timer else s

def serverFreeClient (s : Server C S T) (c : C) (timer : T) : Server C S T :=
  let s := startSessionTimer s c timer
  { s with users := UserLogin.serverFreeClient s.users c }

def timerUserSession (s : Server C S T) (timer : T) (session : S) (ht : UInt32 → Option S) :
    Server C S T :=
  let s := serverDelUserSession s session ht
  { s with timers := Function.update s.timers timer none }

inductive Event (C S T : Type)
  | accept (c : C)
  | command (c : C) (ctx : LoginCtx S)
  | complete (c : C) (ctx : LoginCtx S) (found : Option Nat) (new : NewSession S)
  | disconnect (c : C)
  | expire (timer : T) (session : S)

def Looks (s : Server C S T) : LoginCtx S → Prop
  | .session session userId => ∃ id rec, s.sessionHt id = some session ∧
      s.sessions session = some rec ∧ rec.userId = userId
  | _ => True

/-- What a completion may rely on: a new session is at a free address, the table changes as the
insert or the deletion changes it, and a session command finds its own user. -/
def Completes (s : Server C S T) (new : NewSession S) : LoginCtx S → Option Nat → Prop
  | .session session _, none =>
      ∀ rec, s.sessions session = some rec → Deletes s.sessionHt rec.sessionId new.ht
  | .session _ userId, some found => found = userId
  | .login true, some _ | .register true, some _ =>
      s.sessions new.session = none ∧ Inserts s.sessionHt new.draw new.session new.ht
  | _, _ => True

/-- Creating a timer and sending succeed. -/
inductive Step : Server C S T → Event C S T → Server C S T → Prop
  | accept {s : Server C S T} {c : C} (h : s.users.clients c = none) :
    Step s (.accept c) (serverAcceptClient s c)
  | command {s : Server C S T} {c : C} (ctx : LoginCtx S) (h : Connected s.users c)
      (hctx : Looks s ctx) :
    Step s (.command c ctx) { s with pending := s.pending ++ [(c, ctx)] }
  | complete {s : Server C S T} (before : List (C × LoginCtx S)) {after : List (C × LoginCtx S)}
      {c : C} {ctx : LoginCtx S} (found : Option Nat) (new : NewSession S)
      (hs : s.pending = before ++ (c, ctx) :: after) (hnew : Completes s new ctx found) :
    Step s (.complete c ctx found new)
      { (ctx.exec s c found new).2 with pending := before ++ after }
  | disconnect {s : Server C S T} {c : C} (timer : T) (h : Connected s.users c)
      (hfree : s.timers timer = none) :
    Step s (.disconnect c) (serverFreeClient s c timer)
  | expire {s : Server C S T} {timer : T} {session : S} (ht : UInt32 → Option S)
      (h : s.timers timer = some session)
      (hdel : ∀ rec, s.sessions session = some rec → Deletes s.sessionHt rec.sessionId ht) :
    Step s (.expire timer session) (timerUserSession s timer session ht)

structure Initial (s : Server C S T) : Prop where
  users : UserLogin.Initial s.users
  clientSession : ∀ c, s.clientSession c = none
  sessions : ∀ session, s.sessions session = none
  sessionHt : ∀ id, s.sessionHt id = none
  timers : ∀ timer, s.timers timer = none
  pending : s.pending = []

def Listed (s : Server C S T) (session : S) : Prop := ∃ id, s.sessionHt id = some session

def Attached (s : Server C S T) (c : C) (session : S) : Prop :=
  Connected s.users c ∧ s.clientSession c = some session

def Ticking (s : Server C S T) (session : S) : Prop := ∃ timer, s.timers timer = some session

/-- Every session in the table is that of a connected client or has an armed timer. -/
def AttachedOrTicking (s : Server C S T) : Prop :=
  ∀ session, Listed s session → (∃ c, Attached s c session) ∨ Ticking s session

def LoginCtx.assigns (s : Server C S T) (userId : Nat) (new : NewSession S) :
    LoginCtx S → Option (Option S)
  | login true | register true => some (some new.session)
  | login false | register false => if (s.users.userHt userId).isSome then none else some none
  | session param _ => if (s.users.userHt userId).isSome then none else some (some param)

/-- The client may stop pointing to its session: it is not in the table, another connected client
has it, or its timer is armed. -/
def Spare (s : Server C S T) (c : C) (session : S) : Prop :=
  Listed s session → (∃ d, d ≠ c ∧ Attached s d session) ∨ Ticking s session

/-- No step uses a client or a session that has been freed. -/
def Safe (s : Server C S T) : Event C S T → Prop
  | .complete c ctx _ _ => Connected s.users c ∧
      ∀ session userId, ctx = .session session userId → s.sessions session ≠ none
  | .disconnect c => ∀ session, s.clientSession c = some session → s.sessions session ≠ none
  | .expire _ session => s.sessions session ≠ none
  | _ => True

def Replaces (s : Server C S T) : Event C S T → Prop
  | .complete c ctx (some userId) new => ∀ session written,
      s.clientSession c = some session → ctx.assigns s userId new = some written →
        written ≠ some session → Spare s c session
  | _ => True

structure Sound (s : Server C S T) : Prop where
  listed : ∀ id session, s.sessionHt id = some session →
    ∃ rec, s.sessions session = some rec ∧ rec.sessionId = id
  timer : ∀ session rec timer, s.sessions session = some rec → rec.timerfd = some timer →
    s.timers timer = some session

variable {s s' s'' : Server C S T} {c d : C} {userId : Nat} {session other : S} {rec : Session T}
  {timer : T} {written : Option S} {new : NewSession S} {ctx : LoginCtx S}
  {ht : UInt32 → Option S} {id : UInt32} {users : UserLogin.Server C} {e : Event C S T}

omit [DecidableEq S] [DecidableEq T] [DecidableEq C] in
theorem Sound.initial (h : Initial s) : Sound s where
  listed id session hid := by rw [h.sessionHt id] at hid; cases hid
  timer session rec timer hrec := by rw [h.sessions session] at hrec; cases hrec

omit [DecidableEq T] in
theorem Sound.newUserSession (h : Sound s) (hfree : s.sessions new.session = none)
    (hht : Inserts s.sessionHt new.draw new.session new.ht) (c : C) (userId : Nat) :
    Sound (serverNewUserSession s c userId new) where
  listed id session hid := by
    rcases hht id with hold | ⟨hkey, -, hnew⟩
    · obtain ⟨rec, hrec, hrecId⟩ := h.listed id session (hold ▸ hid)
      have hne : session ≠ new.session := by
        rintro rfl
        rw [hfree] at hrec
        cases hrec
      exact ⟨rec, (Function.update_of_ne hne _ _).trans hrec, hrecId⟩
    · obtain rfl : session = new.session := Option.some.inj (hid.symm.trans hnew)
      exact ⟨_, Function.update_self .., hkey.symm⟩
  timer session rec timer hrec htimer := by
    simp only [serverNewUserSession, Function.update_apply] at hrec
    split at hrec
    · cases hrec
      cases htimer
    · exact h.timer session rec timer hrec htimer

omit [DecidableEq T] [DecidableEq C] in
theorem listed_del (h : Sound s)
    (hdel : ∀ rec, s.sessions session = some rec → Deletes s.sessionHt rec.sessionId ht)
    (hother : (serverDelUserSession s session ht).sessionHt id = some other) :
    s.sessionHt id = some other ∧ (s.sessions session = none ∨ other ≠ session) := by
  rw [serverDelUserSession] at hother
  cases hrec : s.sessions session with
  | none =>
      rw [hrec] at hother
      exact ⟨hother, .inl rfl⟩
  | some rec =>
      rw [hrec] at hother
      obtain ⟨hkey, hold⟩ := hdel rec hrec
      rcases hold id with hsame | hnone
      · have hid : s.sessionHt id = some other := hsame ▸ hother
        refine ⟨hid, .inr ?_⟩
        rintro rfl
        obtain ⟨rec', hrec', hrecId⟩ := h.listed id other hid
        rw [hrec, Option.some.injEq] at hrec'
        have hht : ht id = some other := hother
        rw [← hrecId, ← hrec', hkey] at hht
        cases hht
      · exact absurd (hnone.symm.trans hother) (by simp)

omit [DecidableEq T] [DecidableEq C] in
theorem Sound.delUserSession (h : Sound s)
    (hdel : ∀ rec, s.sessions session = some rec → Deletes s.sessionHt rec.sessionId ht) :
    Sound (serverDelUserSession s session ht) where
  listed id other hid := by
    obtain ⟨hold, hne⟩ := listed_del h hdel hid
    obtain ⟨rec, hrec, hrecId⟩ := h.listed id other hold
    refine ⟨rec, ?_, hrecId⟩
    rw [serverDelUserSession]
    cases hsession : s.sessions session with
    | none => exact hrec
    | some deleted =>
        refine (Function.update_of_ne ?_ _ _).trans hrec
        rcases hne with hnone | hne
        · rw [hsession] at hnone
          cases hnone
        · exact hne
  timer other rec timer hrec htimer := by
    rw [serverDelUserSession] at hrec ⊢
    cases hsession : s.sessions session with
    | none =>
        rw [hsession] at hrec
        exact h.timer other rec timer hrec htimer
    | some deleted =>
        simp only [hsession, Function.update_apply] at hrec
        split at hrec
        · cases hrec
        · exact h.timer other rec timer hrec htimer

omit [DecidableEq T] [DecidableEq C] in
theorem Sound.listed_update (h : Sound s) (hrec : s.sessions session = some rec)
    (timerfd : Option T) : ∀ id other, s.sessionHt id = some other → ∃ rec',
      Function.update s.sessions session (some { rec with timerfd := timerfd }) other = some rec' ∧
        rec'.sessionId = id := by
  intro id other hid
  obtain ⟨rec', hrec', hrecId⟩ := h.listed id other hid
  by_cases hother : other = session
  · subst hother
    rw [hrec, Option.some.injEq] at hrec'
    exact ⟨_, Function.update_self .., by rw [← hrecId, ← hrec']⟩
  · exact ⟨rec', (Function.update_of_ne hother _ _).trans hrec', hrecId⟩

omit [DecidableEq C] in
theorem Sound.stopSessionTimer (h : Sound s) (session : S) : Sound (stopSessionTimer s session) := by
  rw [SessionTimers.stopSessionTimer]
  split
  · exact h
  · next rec hrec =>
    split
    · exact h
    · next timer htimer =>
      refine ⟨h.listed_update hrec none, fun other rec' timer' hrec' htimer' => ?_⟩
      simp only [Function.update_apply] at hrec' ⊢
      split at hrec'
      · cases hrec'
        cases htimer'
      · next hother =>
        have hold := h.timer other rec' timer' hrec' htimer'
        rw [if_neg, hold]
        rintro rfl
        rw [h.timer session rec timer' hrec htimer, Option.some.injEq] at hold
        exact hother hold.symm

omit [DecidableEq C] in
theorem Sound.startSessionTimer (h : Sound s) (hfree : s.timers timer = none) (c : C) :
    Sound (startSessionTimer s c timer) := by
  rw [SessionTimers.startSessionTimer]
  split
  · exact h
  · next session hsession =>
    split
    · exact h
    · next rec hrec =>
      split
      · refine ⟨h.listed_update hrec (some timer), fun other rec' timer' hrec' htimer' => ?_⟩
        simp only [addSessionTimer, Function.update_apply] at hrec' ⊢
        split at hrec'
        · next hother =>
          cases hrec'
          cases htimer'
          rw [if_pos rfl, hother]
        · have hold := h.timer other rec' timer' hrec' htimer'
          rw [if_neg, hold]
          rintro rfl
          rw [hfree] at hold
          cases hold
      · exact h

/-- The session of `c` becomes `written`. Nothing else changes for the other sessions. -/
structure Assigned (s s' : Server C S T) (c : C) (written : Option S) : Prop where
  connected : ∀ d, Connected s'.users d ↔ Connected s.users d
  clientSession : s'.clientSession = Function.update s.clientSession c written
  listed : ∀ session, written ≠ some session → (Listed s' session ↔ Listed s session)
  ticking : ∀ session, written ≠ some session → (Ticking s' session ↔ Ticking s session)

omit [DecidableEq S] [DecidableEq T] in
theorem Assigned.trans (h : Assigned s s' c written) (h' : Assigned s' s'' c written) :
    Assigned s s'' c written where
  connected d := (h'.connected d).trans (h.connected d)
  clientSession := by rw [h'.clientSession, h.clientSession, Function.update_idem]
  listed session hne := (h'.listed session hne).trans (h.listed session hne)
  ticking session hne := (h'.ticking session hne).trans (h.ticking session hne)

omit [DecidableEq S] [DecidableEq T] in
theorem Assigned.attached (h : Assigned s s' c written) :
    Attached s' d session ↔ Connected s.users d ∧
      if d = c then written = some session else s.clientSession d = some session := by
  rw [Attached, h.connected, h.clientSession, Function.update_apply]
  split <;> rfl

omit [DecidableEq S] [DecidableEq T] in
theorem Assigned.attachedOrTicking_iff (h : Assigned s s' c written) (hc : Connected s.users c)
    (hs : AttachedOrTicking s) : AttachedOrTicking s' ↔
      ∀ session, s.clientSession c = some session → written ≠ some session → Spare s c session := by
  constructor
  · intro hs' session hsession hne hlisted
    rcases hs' session ((h.listed session hne).mpr hlisted) with ⟨d, hd⟩ | hticking
    · obtain ⟨hd, hsome⟩ := h.attached.mp hd
      split at hsome
      · exact absurd hsome hne
      · next hdc => exact .inl ⟨d, hdc, hd, hsome⟩
    · exact .inr ((h.ticking session hne).mp hticking)
  · intro hspare session hlisted
    by_cases hne : written = some session
    · exact .inl ⟨c, h.attached.mpr ⟨hc, (if_pos rfl).mpr hne⟩⟩
    · have hlisted := (h.listed session hne).mp hlisted
      have hkeep : ∀ d, d ≠ c → Attached s d session → ∃ d, Attached s' d session :=
        fun d hdc hd => ⟨d, h.attached.mpr ⟨hd.1, (if_neg hdc).mpr hd.2⟩⟩
      rcases hs session hlisted with ⟨d, hd⟩ | hticking
      · by_cases hdc : d = c
        · subst hdc
          rcases hspare session hd.2 hne hlisted with ⟨d', hd'c, hd'⟩ | hticking
          · exact .inl (hkeep d' hd'c hd')
          · exact .inr ((h.ticking session hne).mpr hticking)
        · exact .inl (hkeep d hdc hd)
      · exact .inr ((h.ticking session hne).mpr hticking)

omit [DecidableEq T] in
theorem assigned_newUserSession (hht : Inserts s.sessionHt new.draw new.session new.ht) (c : C)
    (userId : Nat) :
    Assigned s (serverNewUserSession s c userId new) c (some new.session) where
  connected d := Iff.rfl
  clientSession := rfl
  listed session hne := by
    constructor
    · rintro ⟨id, hid⟩
      rcases hht id with hold | ⟨-, -, hnew⟩
      · exact ⟨id, hold ▸ hid⟩
      · exact absurd (hnew.symm.trans hid) hne
    · rintro ⟨id, hid⟩
      rcases hht id with hold | ⟨-, hnone, -⟩
      · exact ⟨id, hold.trans hid⟩
      · rw [hnone] at hid
        cases hid
  ticking session hne := Iff.rfl

theorem connected_loggedIn (users : UserLogin.Server C) (c : C) (userId : Nat) (d : C) :
    Connected (UserLogin.serverSetClientLoggedIn users c userId true).2 d ↔ Connected users d := by
  by_cases hnone : users.userHt userId = none
  · simp only [Connected, loggedIn_clients true hnone]
    split
    · next hdc =>
      subst hdc
      cases users.clients d <;> simp
    · rfl
  · rw [loggedIn_refused true hnone]

def assignSession (s : Server C S T) (users : UserLogin.Server C) (c : C) (session : Option S) :
    Server C S T :=
  { s with users := users, clientSession := Function.update s.clientSession c session }

theorem serverSetClientLoggedIn_eq (s : Server C S T) (c : C) (userId : Nat) (session : Option S) :
    (serverSetClientLoggedIn s c userId session).2 =
      if (s.users.userHt userId).isSome then s
      else
        let s := assignSession s (UserLogin.serverSetClientLoggedIn s.users c userId true).2 c session
        match session with
        | none => s
        | some session => stopSessionTimer s session := by
  rw [serverSetClientLoggedIn, UserLogin.serverSetClientLoggedIn]
  by_cases hsome : (s.users.userHt userId).isSome
  · simp only [if_pos hsome]
  · simp only [if_neg hsome]
    cases session <;> rfl

omit [DecidableEq S] [DecidableEq T] in
theorem Sound.assignSession (h : Sound s) (users : UserLogin.Server C) (c : C)
    (session : Option S) : Sound (assignSession s users c session) :=
  ⟨h.listed, h.timer⟩

omit [DecidableEq S] [DecidableEq T] in
theorem assigned_assignSession (husers : ∀ d, Connected users d ↔ Connected s.users d) :
    Assigned s (assignSession s users c written) c written :=
  ⟨husers, rfl, fun _ _ => Iff.rfl, fun _ _ => Iff.rfl⟩

theorem Assigned.stopSessionTimer (hsound : Sound s') (h : Assigned s s' c (some session)) :
    Assigned s (stopSessionTimer s' session) c (some session) := by
  rw [SessionTimers.stopSessionTimer]
  split
  · exact h
  · next rec hrec =>
    split
    · exact h
    · next timer htimer =>
      refine ⟨h.connected, h.clientSession, h.listed, fun other hne => ?_⟩
      rw [← h.ticking other hne]
      constructor
      · rintro ⟨timer', htimer'⟩
        simp only [Function.update_apply] at htimer'
        split at htimer'
        · cases htimer'
        · exact ⟨timer', htimer'⟩
      · rintro ⟨timer', htimer'⟩
        refine ⟨timer', (Function.update_of_ne ?_ _ _).trans htimer'⟩
        rintro rfl
        exact hne ((hsound.timer session rec timer' hrec htimer).symm.trans htimer')

theorem serverSetClientLoggedIn_assigned (h : Sound s) (c : C) (userId : Nat)
    (session : Option S) :
    Sound (serverSetClientLoggedIn s c userId session).2 ∧
      if (s.users.userHt userId).isSome then (serverSetClientLoggedIn s c userId session).2 = s
      else Assigned s (serverSetClientLoggedIn s c userId session).2 c session := by
  rw [serverSetClientLoggedIn_eq]
  by_cases hsome : (s.users.userHt userId).isSome
  · rw [if_pos hsome, if_pos hsome]
    exact ⟨h, rfl⟩
  · rw [if_neg hsome, if_neg hsome]
    have hassigned : Assigned s (assignSession s
      (UserLogin.serverSetClientLoggedIn s.users c userId true).2 c session) c session :=
        assigned_assignSession (connected_loggedIn s.users c userId)
    cases session with
    | none => exact ⟨h.assignSession _ c none, hassigned⟩
    | some session =>
        have hsound := h.assignSession
          (UserLogin.serverSetClientLoggedIn s.users c userId true).2 c (some session)
        exact ⟨hsound.stopSessionTimer session, hassigned.stopSessionTimer hsound⟩

theorem exec_assigned (h : Sound s) (hnew : Completes s new ctx (some userId)) (c : C) :
    Sound (ctx.exec s c (some userId) new).2 ∧
      match ctx.assigns s userId new with
      | none => (ctx.exec s c (some userId) new).2 = s
      | some written => Assigned s (ctx.exec s c (some userId) new).2 c written := by
  have hcreate : s.sessions new.session = none ∧ Inserts s.sessionHt new.draw new.session new.ht →
      Sound (serverSetClientLoggedIn (serverNewUserSession s c userId new) c userId
        (some new.session)).2 ∧
      Assigned s (serverSetClientLoggedIn (serverNewUserSession s c userId new) c userId
        (some new.session)).2 c (some new.session) := by
    rintro ⟨hfree, hht⟩
    have hassigned := assigned_newUserSession hht c userId
    obtain ⟨hsound, hlogin⟩ := serverSetClientLoggedIn_assigned
      (h.newUserSession hfree hht c userId) c userId (some new.session)
    refine ⟨hsound, ?_⟩
    split at hlogin
    · rw [hlogin]
      exact hassigned
    · exact hassigned.trans hlogin
  have hgive : ∀ session : Option S, Sound (serverSetClientLoggedIn s c userId session).2 ∧
      match (if (s.users.userHt userId).isSome then none else some session) with
      | none => (serverSetClientLoggedIn s c userId session).2 = s
      | some written => Assigned s (serverSetClientLoggedIn s c userId session).2 c written := by
    intro session
    obtain ⟨hsound, hlogin⟩ := serverSetClientLoggedIn_assigned h c userId session
    refine ⟨hsound, ?_⟩
    split at hlogin
    · next hsome =>
      rw [if_pos hsome]
      exact hlogin
    · next hsome =>
      rw [if_neg hsome]
      exact hlogin
  cases ctx with
  | login doSession =>
      cases doSession with
      | true => exact hcreate hnew
      | false => exact hgive none
  | register doSession =>
      cases doSession with
      | true => exact hcreate hnew
      | false => exact hgive none
  | session param userId => exact hgive (some param)

omit [DecidableEq C] [DecidableEq T] in
theorem delUserSession_frame (s : Server C S T) (session : S) (ht : UInt32 → Option S) :
    (serverDelUserSession s session ht).users = s.users ∧
      (serverDelUserSession s session ht).clientSession = s.clientSession ∧
        (serverDelUserSession s session ht).timers = s.timers := by
  rw [serverDelUserSession]
  split <;> exact ⟨rfl, rfl, rfl⟩

omit [DecidableEq C] [DecidableEq T] in
theorem attachedOrTicking_del (h : Sound s) (hs : AttachedOrTicking s)
    (hdel : ∀ rec, s.sessions session = some rec → Deletes s.sessionHt rec.sessionId ht) :
    AttachedOrTicking (serverDelUserSession s session ht) := by
  obtain ⟨husers, hclient, htimers⟩ := delUserSession_frame s session ht
  rintro other ⟨id, hid⟩
  have hold := hs other ⟨id, (listed_del h hdel hid).1⟩
  simpa only [Attached, Ticking, husers, hclient, htimers] using hold

omit [DecidableEq C] in
theorem Sound.timerUserSession (h : Sound s) (hallocated : s.sessions session ≠ none)
    (htimer : s.timers timer = some session)
    (hdel : ∀ rec, s.sessions session = some rec → Deletes s.sessionHt rec.sessionId ht) :
    Sound (timerUserSession s timer session ht) where
  listed := (h.delUserSession hdel).listed
  timer other rec timer' hrec htimer' := by
    obtain ⟨deleted, hdeleted⟩ := Option.ne_none_iff_exists'.mp hallocated
    simp only [SessionTimers.timerUserSession, serverDelUserSession, hdeleted,
      Function.update_apply] at hrec ⊢
    split at hrec
    · cases hrec
    · next hother =>
      have hold := h.timer other rec timer' hrec htimer'
      rw [if_neg, hold]
      rintro rfl
      exact hother (Option.some.inj (hold.symm.trans htimer))

omit [DecidableEq C] in
theorem attachedOrTicking_expire (h : Sound s) (hs : AttachedOrTicking s)
    (hallocated : s.sessions session ≠ none) (htimer : s.timers timer = some session)
    (hdel : ∀ rec, s.sessions session = some rec → Deletes s.sessionHt rec.sessionId ht) :
    AttachedOrTicking (timerUserSession s timer session ht) := by
  obtain ⟨husers, hclient, htimers⟩ := delUserSession_frame s session ht
  rintro other ⟨id, hid⟩
  obtain ⟨hold, hnone | hne⟩ := listed_del h hdel hid
  · exact absurd hnone hallocated
  · rcases hs other ⟨id, hold⟩ with ⟨c, hc⟩ | ⟨timer', htimer'⟩
    · refine .inl ⟨c, ?_⟩
      simpa only [Attached, timerUserSession, husers, hclient] using hc
    · refine .inr ⟨timer', ?_⟩
      simp only [timerUserSession, htimers, Function.update_apply]
      rw [if_neg, htimer']
      rintro rfl
      exact hne (Option.some.inj (htimer'.symm.trans htimer))

omit [DecidableEq C] in
theorem startSessionTimer_frame (s : Server C S T) (c : C) (timer : T) :
    (startSessionTimer s c timer).users = s.users ∧
      (startSessionTimer s c timer).clientSession = s.clientSession ∧
        (startSessionTimer s c timer).sessionHt = s.sessionHt := by
  rw [startSessionTimer]
  split
  · exact ⟨rfl, rfl, rfl⟩
  · split
    · exact ⟨rfl, rfl, rfl⟩
    · split <;> exact ⟨rfl, rfl, rfl⟩

omit [DecidableEq C] in
theorem ticking_startSessionTimer (h : Sound s) (hfree : s.timers timer = none) :
    (Ticking s session → Ticking (startSessionTimer s c timer) session) ∧
      (s.clientSession c = some session → s.sessions session ≠ none →
        Ticking (startSessionTimer s c timer) session) := by
  rw [startSessionTimer]
  split
  · next hnone => exact ⟨id, fun hheld => by rw [hnone] at hheld; cases hheld⟩
  · next held hsome =>
    have hsame : s.clientSession c = some session → session = held := fun hheld =>
      Option.some.inj (hheld.symm.trans hsome)
    split
    · next hrec => exact ⟨id, fun hheld hallocated => absurd (hsame hheld ▸ hrec) hallocated⟩
    · next rec hrec =>
      split
      · constructor
        · rintro ⟨timer', htimer'⟩
          refine ⟨timer', (Function.update_of_ne ?_ _ _).trans htimer'⟩
          rintro rfl
          rw [hfree] at htimer'
          cases htimer'
        · intro hheld _
          exact ⟨timer, hsame hheld ▸ Function.update_self ..⟩
      · next hrunning =>
        obtain ⟨timer', htimer'⟩ := Option.ne_none_iff_exists'.mp hrunning
        exact ⟨id, fun hheld _ => ⟨timer', hsame hheld ▸ h.timer held rec timer' hrec htimer'⟩⟩

theorem connected_free (users : UserLogin.Server C) (c d : C) :
    Connected (UserLogin.serverFreeClient users c) d ↔ d ≠ c ∧ Connected users d := by
  rw [Connected, serverFreeClient_clients]
  split
  · next hdc =>
    subst hdc
    cases users.clients d <;> simp
  · next hdc => exact ⟨fun hd => ⟨hdc, hd⟩, fun hd => hd.2⟩

theorem attachedOrTicking_free (h : Sound s) (hs : AttachedOrTicking s)
    (hfree : s.timers timer = none)
    (hsafe : ∀ session, s.clientSession c = some session → s.sessions session ≠ none) :
    AttachedOrTicking (serverFreeClient s c timer) := by
  obtain ⟨husers, hclient, hht⟩ := startSessionTimer_frame s c timer
  have htick (session : S) : (Ticking s session → Ticking (startSessionTimer s c timer) session) ∧
      (s.clientSession c = some session → s.sessions session ≠ none →
        Ticking (startSessionTimer s c timer) session) := ticking_startSessionTimer h hfree
  rintro session ⟨id, hid⟩
  have hold : s.sessionHt id = some session := hht ▸ hid
  rcases hs session ⟨id, hold⟩ with ⟨d, hd, hsession⟩ | hticking
  · by_cases hdc : d = c
    · subst hdc
      exact .inr ((htick session).2 hsession (hsafe session hsession))
    · refine .inl ⟨d, ?_, ?_⟩
      · rw [serverFreeClient, husers]
        exact (connected_free s.users c d).mpr ⟨hdc, hd⟩
      · exact (congrFun hclient d).trans hsession
  · exact .inr ((htick session).1 hticking)

omit [DecidableEq S] [DecidableEq T] in
theorem attachedOrTicking_accept (hs : AttachedOrTicking s) (hc : s.users.clients c = none) :
    AttachedOrTicking (serverAcceptClient s c) := by
  intro session hlisted
  rcases hs session hlisted with ⟨d, ⟨client, hclient, hfreed⟩, hsession⟩ | hticking
  · have hdc : d ≠ c := by
      rintro rfl
      rw [hc] at hclient
      cases hclient
    refine .inl ⟨d, ⟨client, ?_, hfreed⟩, (Function.update_of_ne hdc _ _).trans hsession⟩
    rw [serverAcceptClient, serverAcceptClient_clients, if_neg hdc, hclient]
  · exact .inr hticking

theorem step_attachedOrTicking (h : Sound s) (hs : AttachedOrTicking s) (hstep : Step s e s')
    (hsafe : Safe s e) : Sound s' ∧ (AttachedOrTicking s' ↔ Replaces s e) := by
  cases hstep with
  | accept hc =>
      exact ⟨⟨h.listed, h.timer⟩, iff_of_true (attachedOrTicking_accept hs hc) trivial⟩
  | command ctx hc hctx => exact ⟨⟨h.listed, h.timer⟩, iff_of_true hs trivial⟩
  | disconnect timer hc hfree =>
      have hsound := h.startSessionTimer hfree
      exact ⟨⟨(hsound _).listed, (hsound _).timer⟩,
        iff_of_true (attachedOrTicking_free h hs hfree hsafe) trivial⟩
  | expire ht htimer hdel =>
      exact ⟨h.timerUserSession hsafe htimer hdel,
        iff_of_true (attachedOrTicking_expire h hs hsafe htimer hdel) trivial⟩
  | complete before found new hpending hnew =>
      cases found with
      | none =>
          rename_i ctx
          cases ctx with
          | login | register => exact ⟨⟨h.listed, h.timer⟩, iff_of_true hs trivial⟩
          | session param userId =>
              have hsound := h.delUserSession hnew
              exact ⟨⟨hsound.listed, hsound.timer⟩,
                iff_of_true (attachedOrTicking_del h hs hnew) trivial⟩
      | some userId =>
          rename_i c ctx
          obtain ⟨hsound, hassigned⟩ := exec_assigned h hnew c
          refine ⟨⟨hsound.listed, hsound.timer⟩, ?_⟩
          cases hwritten : ctx.assigns s userId new with
          | none =>
              rw [hwritten] at hassigned
              refine iff_of_true ?_ ?_
              · have hsame : AttachedOrTicking (ctx.exec s c (some userId) new).2 :=
                  hassigned.symm ▸ hs
                exact hsame
              · intro session written _ hsome
                rw [hwritten] at hsome
                cases hsome
          | some written =>
              rw [hwritten] at hassigned
              refine (hassigned.attachedOrTicking_iff hsafe.1 hs).trans ?_
              constructor
              · intro hspare session written' hsession hsome hne
                rw [hwritten, Option.some.injEq] at hsome
                exact hspare session hsession (hsome ▸ hne)
              · exact fun hreplaces session hsession hne =>
                  hreplaces session written hsession hwritten hne

/-- In every run that uses nothing freed and in which a login only replaces a session that is spare,
every session in the table is attached or ticking; the first login that replaces another one leaves
it without a client and without a timer. -/
theorem reachable_attachedOrTicking
    (h : Reachable Initial (fun s e s' => Step s e s' ∧ Safe s e ∧ Replaces s e) s) :
    AttachedOrTicking s ∧
      ∀ e s', Step s e s' → Safe s e → (AttachedOrTicking s' ↔ Replaces s e) := by
  have hinv : Sound s ∧ AttachedOrTicking s := by
    refine h.invariant (I := fun s => Sound s ∧ AttachedOrTicking s) (fun s h0 => ?_) ?_
    · refine ⟨.initial h0, ?_⟩
      rintro session ⟨id, hid⟩
      rw [h0.sessionHt id] at hid
      cases hid
    · rintro s e s' ⟨hsound, hs⟩ ⟨hstep, hsafe, hreplaces⟩
      obtain ⟨hsound', hiff⟩ := step_attachedOrTicking hsound hs hstep hsafe
      exact ⟨hsound', hiff.mpr hreplaces⟩
  exact ⟨hinv.2, fun e s' hstep hsafe => (step_attachedOrTicking hinv.1 hinv.2 hstep hsafe).2⟩

def closed : Server Unit Nat Nat :=
  ⟨⟨fun _ => none, fun _ => none, []⟩, fun _ => none, fun _ => none, fun _ => none, fun _ => none,
    []⟩

theorem closed_initial : Initial closed :=
  ⟨⟨fun _ => rfl, fun _ => rfl, rfl⟩, fun _ => rfl, fun _ => rfl, fun _ => rfl, fun _ => rfl, rfl⟩

def first : NewSession Nat := ⟨10, 5, Function.update (fun _ => none) 5 (some 10)⟩

def second : NewSession Nat := ⟨11, 6, Function.update first.ht 6 (some 11)⟩

omit [DecidableEq S] in
theorem inserts_update {before : UInt32 → Option S} {key : UInt32} (hkey : before key = none)
    (session : S) : Inserts before key session (Function.update before key (some session)) := by
  intro id
  by_cases hid : id = key
  · subst hid
    exact .inr ⟨rfl, hkey, Function.update_self ..⟩
  · exact .inl (Function.update_of_ne hid _ _)

theorem reachable_attachedOrTicking_leaving :
    ∃ s : Server Unit Nat Nat, s.sessionHt 5 = some 10 ∧ ¬ Connected s.users () ∧
      AttachedOrTicking s := by
  have h0 : Reachable Initial (fun s e s' => Step s e s' ∧ Safe s e ∧ Replaces s e) closed :=
    .start closed_initial
  have h1 := h0.next ⟨.accept (c := ()) rfl, trivial, trivial⟩
  have h2 := h1.next ⟨.command (c := ()) (.login true) ⟨_, rfl, rfl⟩ trivial, trivial, trivial⟩
  have h3 := h2.next ⟨.complete [] (some 1) first rfl ⟨rfl, inserts_update rfl 10⟩,
    ⟨⟨_, rfl, rfl⟩, fun _ _ hctx => by cases hctx⟩, fun _ _ hsession => by cases hsession⟩
  have h4 := h3.next ⟨.disconnect (c := ()) 3 ⟨_, rfl, rfl⟩ rfl,
    by rintro session ⟨⟩ ⟨⟩, trivial⟩
  refine ⟨_, rfl, ?_, (reachable_attachedOrTicking h4).1⟩
  rintro ⟨client, hclient, hfreed⟩
  cases hclient
  cases hfreed

/-- A client that has a session logs in again. The second login is refused, as the user is logged
in, but its session replaces the first one, which stays in the table without a timer. -/
theorem first_session_stays : ∃ s : Server Unit Nat Nat,
    Reachable Initial (fun s e s' => Step s e s' ∧ Safe s e) s ∧ ¬ AttachedOrTicking s := by
  have h0 : Reachable Initial (fun s e s' => Step s e s' ∧ Safe s e) closed := .start closed_initial
  have h1 := h0.next ⟨.accept (c := ()) rfl, trivial⟩
  have h2 := h1.next ⟨.command (c := ()) (.login true) ⟨_, rfl, rfl⟩ trivial, trivial⟩
  have h3 := h2.next ⟨.complete [] (some 1) first rfl ⟨rfl, inserts_update rfl 10⟩,
    ⟨_, rfl, rfl⟩, fun _ _ hctx => by cases hctx⟩
  have h4 := h3.next ⟨.command (c := ()) (.login true) ⟨_, rfl, rfl⟩ trivial, trivial⟩
  have h5 := h4.next ⟨.complete [] (some 1) second rfl ⟨rfl, inserts_update rfl 11⟩,
    ⟨_, rfl, rfl⟩, fun _ _ hctx => by cases hctx⟩
  refine ⟨_, h5, fun hall => ?_⟩
  rcases hall 10 ⟨5, rfl⟩ with ⟨c, -, hsession⟩ | ⟨timer, htimer⟩
  · cases hsession
  · cases htimer

end ChityChat.SessionTimers
