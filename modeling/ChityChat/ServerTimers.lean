import ChityChat.NewEvent

namespace ChityChat.ServerTimers

open ServerHt NewEvent

variable {P L : Type} [DecidableEq P]

inductive Fault
  | nullDereference
  | useAfterFree
  | outOfFuel
  deriving DecidableEq

/-- `enum timer_type`: a timer from `calloc` has the first. -/
inductive TimerType
  | clientSession
  | uploadToken
  deriving DecidableEq

structure Session where
  sessionId : UInt32
  userId : UInt32
  timerfd : Int

/-- The union of `upload_token_t` under its type: the user of a profile picture, or of a message the
text of its attachments, whether it is on the heap, and their JSON. -/
inductive TokenState (P : Type)
  | userPfp (userId : UInt32)
  | msgAttachment (attachments : Option P) (inheap : Bool) (json : Option P)

structure UploadToken (P : Type) where
  state : TokenState P
  token : UInt32
  timerfd : Int
  timerSeconds : Int

structure Timer (P : Type) where
  fd : Int
  seconds : Int
  flags : Int
  type : TimerType
  data : Option P

structure Event (P : Type) where
  fd : Int
  timer : P
  keepData : Bool

/-- Objects by their addresses, `none` for what is freed. Logged are the arguments of `close`, the
tokens and texts of attachments that were freed, the JSON that was put, and the timers whose expiry
action was started. -/
structure State (P L : Type) extends NewEvent.Server P L where
  running : Bool
  sessions : P → Option Session
  tokens : P → Option (UploadToken P)
  timers : P → Option (Timer P)
  events : P → Option (Event P)
  sessionHt : ServerGht P L
  uploadTokenHt : ServerGht P L
  closed : List Int
  freedTokens : List P
  freedTexts : List P
  putJson : List P
  expired : List P

def deref {α : Type} (heap : P → Option α) (p : P) : Except Fault α :=
  match heap p with
  | some x => .ok x
  | none => .error .useAfterFree

/-- `close` takes the descriptor out of the epoll set, too. -/
def close (s : State P L) (fd : Int) : State P L :=
  { s with closed := s.closed ++ [fd], epoll := Function.update s.epoll fd none }

variable (A : LoadFactor L)

def serverDelUserSession (s : State P L) (session : P) : Except Fault (State P L) := do
  let ses ← deref s.sessions session
  .ok { s with
    sessionHt := (serverGhtDel A s.sessionHt ses.sessionId.toNat).2
    sessions := Function.update s.sessions session none }

/-- The user of the session is read for a message to the log. -/
def timerUserSession (s : State P L) (timer : Timer P) : Except Fault (State P L) :=
  match timer.data with
  | none => .error .nullDereference
  | some session => serverDelUserSession A s session

/-- `del` is `server_del_upload_token`. -/
def timerUt (del : State P L → P → Except Fault (State P L)) (s : State P L) (timer : Timer P) :
    Except Fault (State P L) :=
  match timer.data with
  | none => .error .nullDereference
  | some ut => do
    let tok ← deref s.tokens ut
    del { s with tokens := Function.update s.tokens ut (some { tok with timerfd := 0 }) } ut

def serverTimerExp (del : State P L → P → Except Fault (State P L)) (s : State P L) (t : P) :
    Except Fault (State P L) := do
  let timer ← deref s.timers t
  let s := { s with expired := s.expired ++ [t] }
  match timer.type with
  | .clientSession => timerUserSession A s timer
  | .uploadToken => timerUt del s timer

def serverCloseTimer (del : State P L → P → Except Fault (State P L)) (s : State P L) (t : P)
    (keepData : Bool) : Except Fault (State P L) := do
  let s ← if keepData then .ok s else serverTimerExp A del s t
  let timer ← deref s.timers t
  .ok { close s timer.fd with timers := Function.update s.timers t none }

/-- `server_del_event` of a timer's event, with `se_timer_close` for its `close`. -/
def serverDelEvent (del : State P L → P → Except Fault (State P L)) (s : State P L) (e : P) :
    Except Fault (State P L) := do
  let se ← deref s.events e
  let s := { s with toServer := (serverEventRemove s.toServer se.fd).2 }
  let s ← serverCloseTimer A del s se.timer se.keepData
  let se ← deref s.events e
  let s := if s.running then { s with eventHt := (serverGhtDel A s.eventHt (fdKey se.fd)).2 } else s
  .ok { s with events := Function.update s.events e none }

def releaseAttachments (s : State P L) : TokenState P → State P L
  | .userPfp _ => s
  | .msgAttachment attachments inheap json =>
    { s with
      freedTexts := if inheap then s.freedTexts ++ attachments.toList else s.freedTexts
      putJson := s.putJson ++ json.toList }

/-- `server_del_upload_token` behind the timer. -/
def releaseToken (s : State P L) (ut : P) : Except Fault (State P L) := do
  let tok ← deref s.tokens ut
  let s := releaseAttachments s tok.state
  .ok { s with
    uploadTokenHt := (serverGhtDel A s.uploadTokenHt tok.token.toNat).2
    tokens := Function.update s.tokens ut none
    freedTokens := s.freedTokens ++ [ut] }

variable {A} {s : State P L} {ut : P} {tok : UploadToken P}

omit [DecidableEq P] in
theorem deref_some {α : Type} {heap : P → Option α} {p : P} {x : α} (h : heap p = some x) :
    deref heap p = .ok x := by
  rw [deref, h]

omit [DecidableEq P] in
theorem releaseAttachments_eq (s : State P L) (state : TokenState P) :
    ∃ texts json, releaseAttachments s state =
        { s with freedTexts := texts, putJson := s.putJson ++ json } ∧ json.length ≤ 1 := by
  cases state with
  | userPfp => exact ⟨s.freedTexts, [], by rw [List.append_nil]; rfl, Nat.zero_le _⟩
  | msgAttachment attachments inheap json => exact ⟨_, _, rfl, by cases json <;> simp⟩

theorem releaseToken_eq (h : s.tokens ut = some tok) :
    ∃ texts json, releaseToken A s ut = .ok { s with
        freedTexts := texts
        putJson := s.putJson ++ json
        uploadTokenHt := (serverGhtDel A s.uploadTokenHt tok.token.toNat).2
        tokens := Function.update s.tokens ut none
        freedTokens := s.freedTokens ++ [ut] } ∧ json.length ≤ 1 := by
  obtain ⟨texts, json, hs, hlen⟩ := releaseAttachments_eq s tok.state
  refine ⟨texts, json, ?_, hlen⟩
  rw [releaseToken, deref_some h]
  simp only [bind, Except.bind, hs]

variable (A)

/-- The fuel bounds how deep calls of `server_del_upload_token` are nested. -/
def serverDelUploadToken : Nat → State P L → P → Except Fault (State P L)
  | 0, _, _ => .error .outOfFuel
  | fuel + 1, s, ut => do
    let tok ← deref s.tokens ut
    let s ← if tok.timerfd ≠ 0 then
        match serverGhtGet s.eventHt (fdKey tok.timerfd) with
        | none => .ok s
        | some e => serverDelEvent A (serverDelUploadToken fuel) s e
      else .ok s
    releaseToken A s ut

theorem serverDelUploadToken_idle {fuel : Nat} (h : s.tokens ut = some tok) (hfd : tok.timerfd = 0) :
    serverDelUploadToken A (fuel + 1) s ut = releaseToken A s ut := by
  rw [serverDelUploadToken, deref_some h]
  simp [hfd, bind, Except.bind]

/-- What a call of `server_addtimer` gets from the system: the blocks for the timer and its event,
the descriptor of `timerfd_create`, and whether `timerfd_settime` and `epoll_ctl` succeed. -/
structure NewTimer (P : Type) where
  timer : P
  event : P
  fd : Option Int
  settime : Bool
  addable : Bool

def setTimerfd (s : State P L) (type : TimerType) (data : P) (fd : Int) :
    Except Fault (State P L) :=
  match type with
  | .clientSession => do
    let ses ← deref s.sessions data
    .ok { s with sessions := Function.update s.sessions data (some { ses with timerfd := fd }) }
  | .uploadToken => do
    let tok ← deref s.tokens data
    .ok { s with tokens := Function.update s.tokens data (some { tok with timerfd := fd }) }

def addtimerError (del : State P L → P → Except Fault (State P L)) (s : State P L) (t : P) :
    Except Fault (Option P × State P L) := do
  let s ← serverCloseTimer A del s t false
  .ok (none, s)

def setTimer (s : State P L) (t : P) (timer : Timer P) : State P L :=
  { s with timers := Function.update s.timers t (some timer) }

@[simp] theorem setTimer_timers (s : State P L) (t : P) (timer : Timer P) :
    (setTimer s t timer).timers t = some timer :=
  Function.update_self ..

def serverAddtimer (del : State P L → P → Except Fault (State P L)) (s : State P L)
    (seconds flags : Int) (type : TimerType) (data : P) (new : NewTimer P) :
    Except Fault (Option P × State P L) :=
  match new.fd with
  | none => addtimerError A del (setTimer s new.timer ⟨-1, 0, 0, .clientSession, none⟩) new.timer
  | some fd => do
    let s := setTimer s new.timer ⟨fd, seconds, flags, type, some data⟩
    let s ← setTimerfd s type data fd
    if new.settime = false then addtimerError A del s new.timer
    else
      match serverNewEvent A s.toServer ⟨true, fd, true, true, true⟩ new.event new.addable with
      | (none, events) => addtimerError A del { s with toServer := events } new.timer
      | (some e, events) =>
        .ok (some new.timer, { s with
          toServer := events
          events := Function.update s.events e (some ⟨fd, new.timer, false⟩) })

def timerOnce : Int := 0x80

/-- `ut` is the block from `calloc`, and `token` the id from `getrandom`. -/
def serverNewUploadToken (del : State P L → P → Except Fault (State P L)) (s : State P L)
    (userId : UInt32) (ut : P) (token : UInt32) (new : NewTimer P) :
    Except Fault (P × State P L) := do
  let s := { s with
    tokens := Function.update s.tokens ut (some ⟨.userPfp userId, token, 0, 0⟩)
    uploadTokenHt := (serverGhtInsert A s.uploadTokenHt token.toNat (some ut)).2 }
  let (timer, s) ← serverAddtimer A del s 10 timerOnce .uploadToken ut new
  match timer with
  | none => .ok (ut, s)
  | some t => do
    let timer ← deref s.timers t
    let tok ← deref s.tokens ut
    let tok := { tok with timerfd := timer.fd, timerSeconds := timer.seconds }
    .ok (ut, { s with tokens := Function.update s.tokens ut (some tok) })

end ChityChat.ServerTimers
