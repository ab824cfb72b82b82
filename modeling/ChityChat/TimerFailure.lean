import ChityChat.ServerTimers

namespace ChityChat.TimerFailure

open ServerHt NewEvent ServerTimers

variable {P L : Type} [DecidableEq P]

def Has (s : State P L) (type : TimerType) (data : P) (id : UInt32) : Prop :=
  match type with
  | .clientSession => ∃ ses, s.sessions data = some ses ∧ ses.sessionId = id
  | .uploadToken => ∃ tok, s.tokens data = some tok ∧ tok.token = id

def tableOf (s : State P L) : TimerType → ServerGht P L
  | .clientSession => s.sessionHt
  | .uploadToken => s.uploadTokenHt

def Listed (s : State P L) (type : TimerType) (data : P) : Prop :=
  ∃ id, Has s type data id ∧ serverGhtGet (tableOf s type) id.toNat = some data

/-- The call comes to its end, and where it returns NULL, the session or token is in its table and
nothing has expired. -/
def Inert (s : State P L) (type : TimerType) (data : P) (run : Except Fault (Option P × State P L)) :
    Prop :=
  ∃ r, run = .ok r ∧ (r.1 = none → Listed r.2 type data ∧ r.2.expired = s.expired)

def ReturnsListed (run : Except Fault (P × State P L)) : Prop :=
  ∃ r, run = .ok r ∧ Listed r.2 .uploadToken r.1

def Registers (A : LoadFactor L) (s : NewEvent.Server P L) (fd : Int) (new : NewTimer P) : Prop :=
  (serverGhtInsert A s.eventHt (fdKey fd) (some new.event)).1 = true ∧ s.epoll fd = none ∧
    new.addable = true

/-- `timerfd_create`, `timerfd_settime` and the registration of the event succeed. -/
def Succeeds (A : LoadFactor L) (s : NewEvent.Server P L) (new : NewTimer P) : Prop :=
  ∃ fd, new.fd = some fd ∧ new.settime = true ∧ Registers A s fd new

variable {A : LoadFactor L} {s s' : State P L} {type : TimerType} {data : P} {new : NewTimer P}
  {fuel : Nat} {seconds flags fd : Int} {userId token : UInt32} {t ut : P} {tok : UploadToken P}
  {timer : Timer P}

variable (A fuel) in
theorem serverTimerExp_frees {id : UInt32} (ht : s.timers t = some timer)
    (hdata : timer.data = some data) (hhas : Has s timer.type data id) :
    ∃ s', serverTimerExp A (serverDelUploadToken A (fuel + 1)) s t = .ok s' ∧
      (∀ id, ¬ Has s' timer.type data id) ∧ s'.timers = s.timers ∧
      s'.expired = s.expired ++ [t] := by
  rw [serverTimerExp, deref_some ht]
  simp only [bind, Except.bind]
  cases htype : timer.type with
  | clientSession =>
      rw [htype] at hhas
      obtain ⟨ses, hses, -⟩ := hhas
      simp only [timerUserSession, hdata, serverDelUserSession, deref, hses]
      refine ⟨_, rfl, ?_, rfl, rfl⟩
      rintro id ⟨other, hother, -⟩
      cases (Function.update_self ..).symm.trans hother
  | uploadToken =>
      rw [htype] at hhas
      obtain ⟨tok, htok, -⟩ := hhas
      simp only [timerUt, hdata, deref_some htok, bind, Except.bind]
      rw [serverDelUploadToken_idle A (Function.update_self ..) rfl]
      obtain ⟨texts, json, hs', -⟩ := releaseToken_eq (A := A) (s := { s with
        expired := s.expired ++ [t]
        tokens := Function.update s.tokens data (some { tok with timerfd := 0 }) })
        (Function.update_self ..)
      refine ⟨_, hs', ?_, rfl, rfl⟩
      rintro id ⟨other, hother, -⟩
      cases (Function.update_self ..).symm.trans hother

variable (A fuel) in
theorem addtimerError_frees {id : UInt32} (ht : s.timers t = some timer)
    (hdata : timer.data = some data) (hhas : Has s timer.type data id) :
    ∃ s', addtimerError A (serverDelUploadToken A (fuel + 1)) s t = .ok (none, s') ∧
      (∀ id, ¬ Has s' timer.type data id) ∧ s'.expired = s.expired ++ [t] := by
  obtain ⟨s', hs', hdead, htimers, hexpired⟩ := serverTimerExp_frees A fuel ht hdata hhas
  rw [addtimerError, serverCloseTimer, if_neg Bool.false_ne_true, hs']
  simp only [bind, Except.bind, deref, htimers, ht]
  refine ⟨_, rfl, ?_, hexpired⟩
  cases htype : timer.type <;> rw [htype] at hdead <;> exact hdead

theorem setTimerfd_has {id : UInt32} (hhas : Has s type data id) (fd : Int) :
    ∃ s', setTimerfd s type data fd = .ok s' ∧ Has s' type data id ∧ s'.timers = s.timers ∧
      s'.expired = s.expired ∧ s'.toServer = s.toServer ∧ s'.uploadTokenHt = s.uploadTokenHt := by
  cases type with
  | clientSession =>
      obtain ⟨ses, hses, hid⟩ := hhas
      rw [setTimerfd, deref_some hses]
      exact ⟨_, rfl, ⟨_, Function.update_self .., hid⟩, rfl, rfl, rfl, rfl⟩
  | uploadToken =>
      obtain ⟨tok, htok, hid⟩ := hhas
      rw [setTimerfd, deref_some htok]
      exact ⟨_, rfl, ⟨_, Function.update_self .., hid⟩, rfl, rfl, rfl, rfl⟩

theorem good_args (fd : Int) : ¬ (⟨true, fd, true, true, true⟩ : Args).bad = true :=
  Bool.false_ne_true

omit [DecidableEq P] in
theorem serverNewEvent_some_iff (e : NewEvent.Server P L) :
    (serverNewEvent A e ⟨true, fd, true, true, true⟩ new.event new.addable).1 = some new.event ↔
      Registers A e fd new := by
  rw [serverNewEvent, if_neg (good_args fd), Registers]
  dsimp only
  by_cases hinsert : (serverGhtInsert A e.eventHt (fdKey fd) (some new.event)).1 = false
  · rw [if_pos hinsert, hinsert]
    simp
  · have htaken : (serverGhtInsert A e.eventHt (fdKey fd) (some new.event)).1 = true := by
      simpa using hinsert
    rw [if_neg hinsert, htaken]
    cases hepoll : e.epoll fd <;> cases hroom : new.addable <;> simp [serverEventAdd, hepoll]

omit [DecidableEq P] in
theorem serverNewEvent_none_or (e : NewEvent.Server P L) (a : Args) (se : P) (addable : Bool) :
    (serverNewEvent A e a se addable).1 = none ∨
      (serverNewEvent A e a se addable).1 = some se := by
  rw [serverNewEvent]
  split
  · exact .inl rfl
  · dsimp only
    split
    · exact .inl rfl
    · split
      · exact .inl rfl
      · exact .inr rfl

theorem serverAddtimer_uncreated (hfd : new.fd = none) :
    serverAddtimer A (serverDelUploadToken A fuel) s seconds flags type data new =
      .error .nullDereference := by
  rw [serverAddtimer, hfd]
  dsimp only
  rw [addtimerError, serverCloseTimer, if_neg Bool.false_ne_true, serverTimerExp,
    deref_some (setTimer_timers ..)]
  rfl

variable (fuel seconds flags) in
theorem serverAddtimer_fails {id : UInt32} (hhas : Has s type data id) (hfd : new.fd = some fd)
    (hfails : ¬ (new.settime = true ∧ Registers A s.toServer fd new)) :
    ∃ s', serverAddtimer A (serverDelUploadToken A (fuel + 1)) s seconds flags type data new =
        .ok (none, s') ∧
      (∀ id, ¬ Has s' type data id) ∧ s'.expired = s.expired ++ [new.timer] := by
  have hset : Has (setTimer s new.timer ⟨fd, seconds, flags, type, some data⟩) type data id := by
    cases type <;> exact hhas
  obtain ⟨s₁, hs₁, hhas₁, htimers, hexpired, hserver, -⟩ := setTimerfd_has hset fd
  have htimer : s₁.timers new.timer = some ⟨fd, seconds, flags, type, some data⟩ := by
    rw [htimers]
    exact setTimer_timers ..
  rw [serverAddtimer, hfd]
  simp only [hs₁, bind, Except.bind]
  split
  · obtain ⟨s', hs', hdead, hlog⟩ := addtimerError_frees A fuel htimer rfl hhas₁
    exact ⟨s', hs', hdead, hexpired ▸ hlog⟩
  · next hsettime =>
      rw [Bool.not_eq_false] at hsettime
      have hnone := (serverNewEvent_none_or (A := A) s₁.toServer ⟨true, fd, true, true, true⟩
        new.event new.addable).resolve_right
          (fun h => hfails ⟨hsettime, hserver ▸ (serverNewEvent_some_iff s₁.toServer).mp h⟩)
      split
      · next events _ =>
          have hhas₂ : Has { s₁ with toServer := events } type data id := by
            cases type <;> exact hhas₁
          obtain ⟨s', hs', hdead, hlog⟩ := addtimerError_frees A fuel
            (s := { s₁ with toServer := events }) htimer rfl hhas₂
          exact ⟨s', hs', hdead, hexpired ▸ hlog⟩
      · next heq =>
          rw [heq] at hnone
          cases hnone

variable (seconds flags) in
theorem serverAddtimer_succeeds {id : UInt32} (del : State P L → P → Except Fault (State P L))
    (hhas : Has s type data id) (h : Succeeds A s.toServer new) :
    ∃ s', serverAddtimer A del s seconds flags type data new = .ok (some new.timer, s') ∧
      Has s' type data id ∧ (∃ timer, s'.timers new.timer = some timer) ∧
      s'.uploadTokenHt = s.uploadTokenHt := by
  obtain ⟨fd, hfd, hsettime, hregisters⟩ := h
  have hset : Has (setTimer s new.timer ⟨fd, seconds, flags, type, some data⟩) type data id := by
    cases type <;> exact hhas
  obtain ⟨s₁, hs₁, hhas₁, htimers, -, hserver, htable⟩ := setTimerfd_has hset fd
  have hsome := (serverNewEvent_some_iff (A := A) s₁.toServer).mpr (hserver ▸ hregisters)
  rw [serverAddtimer, hfd]
  simp only [hs₁, bind, Except.bind]
  rw [if_neg (by rw [hsettime]; decide)]
  split
  · next heq =>
      rw [heq] at hsome
      cases hsome
  · refine ⟨_, rfl, ?_, ?_, htable⟩
    · cases type <;> exact hhas₁
    · rw [htimers]
      exact ⟨_, setTimer_timers ..⟩

theorem serverAddtimer_inert_iff (hlisted : Listed s type data) :
    Inert s type data (serverAddtimer A (serverDelUploadToken A (fuel + 1)) s seconds flags type data
      new) ↔ Succeeds A s.toServer new := by
  obtain ⟨id, hhas, -⟩ := hlisted
  constructor
  · rintro ⟨r, hrun, hinert⟩
    cases hfd : new.fd with
    | none =>
        rw [serverAddtimer_uncreated hfd] at hrun
        cases hrun
    | some fd =>
        by_contra hfails
        obtain ⟨s', hs', hdead, -⟩ := serverAddtimer_fails fuel seconds flags hhas hfd
          (fun h => hfails ⟨fd, hfd, h⟩)
        rw [hs'] at hrun
        obtain rfl := Except.ok.inj hrun
        obtain ⟨⟨id', hhas', -⟩, -⟩ := hinert rfl
        exact hdead id' hhas'
  · intro h
    obtain ⟨s', hs', -⟩ := serverAddtimer_succeeds seconds flags
      (serverDelUploadToken A (fuel + 1)) hhas h
    exact ⟨_, hs', fun hnull => absurd hnull (Option.some_ne_none _)⟩

def withToken (A : LoadFactor L) (s : State P L) (userId : UInt32) (ut : P) (token : UInt32) :
    State P L :=
  { s with
    tokens := Function.update s.tokens ut (some ⟨.userPfp userId, token, 0, 0⟩)
    uploadTokenHt := (serverGhtInsert A s.uploadTokenHt token.toNat (some ut)).2 }

theorem withToken_has (s : State P L) (userId : UInt32) (ut : P) (token : UInt32) :
    Has (withToken A s userId ut token) .uploadToken ut token :=
  ⟨_, Function.update_self .., rfl⟩

theorem serverNewUploadToken_fails (hfails : ¬ Succeeds A s.toServer new) :
    ¬ ReturnsListed (serverNewUploadToken A (serverDelUploadToken A (fuel + 1)) s userId ut token
      new) := by
  rintro ⟨r, hrun, id, hhas, -⟩
  rw [serverNewUploadToken] at hrun
  change (serverAddtimer A _ (withToken A s userId ut token) 10 timerOnce .uploadToken ut new >>= _) =
    _ at hrun
  cases hfd : new.fd with
  | none =>
      rw [serverAddtimer_uncreated hfd] at hrun
      cases hrun
  | some fd =>
      obtain ⟨s', hs', hdead, -⟩ := serverAddtimer_fails (A := A) fuel 10 timerOnce
        (withToken_has s userId ut token) hfd
        (fun h => hfails ⟨fd, hfd, h⟩)
      rw [hs'] at hrun
      obtain rfl := Except.ok.inj hrun
      exact hdead id hhas

theorem serverNewUploadToken_succeeds (del : State P L → P → Except Fault (State P L))
    (h : Succeeds A s.toServer new) :
    ReturnsListed (serverNewUploadToken A del s userId ut token new) ↔
      serverGhtGet (serverGhtInsert A s.uploadTokenHt token.toNat (some ut)).2 token.toNat =
        some ut := by
  obtain ⟨s', hs', ⟨tok, htok, hid⟩, ⟨timer, htimer⟩, htable⟩ :=
    serverAddtimer_succeeds (A := A) 10 timerOnce del
      (withToken_has s userId ut token) (s := withToken A s userId ut token) h
  have hrun : serverNewUploadToken A del s userId ut token new = .ok (ut, { s' with
      tokens := Function.update s'.tokens ut
        (some { tok with timerfd := timer.fd, timerSeconds := timer.seconds }) }) := by
    rw [serverNewUploadToken]
    change (serverAddtimer A del (withToken A s userId ut token) 10 timerOnce .uploadToken ut new
      >>= _) = _
    rw [hs']
    simp only [bind, Except.bind, deref_some htimer, deref_some htok]
  rw [hrun]
  constructor
  · rintro ⟨r, hr, id, ⟨other, hother, rfl⟩, hget⟩
    obtain rfl := Except.ok.inj hr
    dsimp only at hother
    rw [Function.update_self] at hother
    obtain rfl := Option.some.inj hother
    dsimp only [tableOf] at hget
    rwa [htable, hid] at hget
  · intro hget
    refine ⟨_, rfl, token, ⟨_, Function.update_self .., hid⟩, ?_⟩
    exact (congrArg (serverGhtGet · _) htable).trans hget

/-- A timer does not act on its session or token, and a new upload token is in its table, if and
only if nothing fails that could make `server_addtimer` return NULL, and, for the token, the table
takes its id. -/
theorem failed_timer_inert_iff (A : LoadFactor L) (fuel : Nat) (s : State P L) (new : NewTimer P) :
    (∀ (seconds flags : Int) (type : TimerType) (data : P), Listed s type data →
      (Inert s type data (serverAddtimer A (serverDelUploadToken A (fuel + 1)) s seconds flags type
        data new) ↔ Succeeds A s.toServer new)) ∧
    ∀ (userId : UInt32) (ut : P) (token : UInt32),
      ReturnsListed (serverNewUploadToken A (serverDelUploadToken A (fuel + 1)) s userId ut token
        new) ↔
      Succeeds A s.toServer new ∧
        serverGhtGet (serverGhtInsert A s.uploadTokenHt token.toNat (some ut)).2 token.toNat =
          some ut := by
  refine ⟨fun _ _ _ _ hlisted => serverAddtimer_inert_iff hlisted, fun userId ut token => ?_⟩
  by_cases h : Succeeds A s.toServer new
  · rw [serverNewUploadToken_succeeds _ h, and_iff_right h]
  · exact iff_of_false (serverNewUploadToken_fails h) (fun hboth => h hboth.1)

section FullDescriptors

def oneSession : State Nat ℚ where
  eventHt := emptyGht exactLoad 4 false
  epoll := fun _ => none
  running := true
  sessions := fun p => if p = 1 then some ⟨9, 7, 0⟩ else none
  tokens := fun _ => none
  timers := fun _ => none
  events := fun _ => none
  sessionHt := (serverGhtInsert exactLoad (emptyGht exactLoad 4 false) 9 (some 1)).2
  uploadTokenHt := emptyGht exactLoad 4 false
  closed := []
  freedTokens := []
  freedTexts := []
  putJson := []
  expired := []

/-- `timerfd_settime` fails: the session that was to expire later is deleted at once, and a token is
returned that is freed. -/
theorem serverAddtimer_expires_at_once :
    (serverAddtimer exactLoad (serverDelUploadToken exactLoad 2) oneSession 1800 timerOnce
      .clientSession 1 ⟨2, 3, some 5, false, true⟩).map
        (fun r => (r.1, (r.2.sessions 1).isSome, r.2.expired)) = .ok (none, false, [2]) ∧
    (serverNewUploadToken exactLoad (serverDelUploadToken exactLoad 2) oneSession 7 6 11
      ⟨2, 3, some 5, false, true⟩).map (fun r => (r.1, (r.2.tokens 6).isSome)) = .ok (6, false) := by
  decide +kernel

/-- Where all three succeed, both hold. -/
theorem failed_timer_inert_iff_success :
    (Inert oneSession .clientSession 1 (serverAddtimer exactLoad (serverDelUploadToken exactLoad 2)
        oneSession 1800 timerOnce .clientSession 1 ⟨2, 3, some 5, true, true⟩) ↔
      Succeeds exactLoad oneSession.toServer (⟨2, 3, some 5, true, true⟩ : NewTimer Nat)) ∧
    Succeeds exactLoad oneSession.toServer (⟨2, 3, some 5, true, true⟩ : NewTimer Nat) :=
  ⟨(failed_timer_inert_iff exactLoad 1 oneSession ⟨2, 3, some 5, true, true⟩).1 1800 timerOnce
    .clientSession 1 ⟨9, ⟨⟨9, 7, 0⟩, rfl, rfl⟩, by decide +kernel⟩,
    5, rfl, rfl, by decide +kernel, rfl, rfl⟩

end FullDescriptors

end ChityChat.TimerFailure
