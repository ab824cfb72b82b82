import ChityChat.ServerTimers

namespace ChityChat.TokenDeletion

open Transition ServerHt NewEvent ServerTimers

variable {P L : Type} [DecidableEq P]

def Registered (s : State P L) (tok : UploadToken P) (e : P) : Prop :=
  tok.timerfd ≠ 0 ∧ serverGhtGet s.eventHt (fdKey tok.timerfd) = some e

def OwnEvent (s : State P L) (ut : P) (tok : UploadToken P) (e : P) : Prop :=
  ∃ ev timer, s.events e = some ev ∧ ev.fd = tok.timerfd ∧ s.timers ev.timer = some timer ∧
    timer.fd = tok.timerfd ∧ timer.type = .uploadToken ∧ timer.data = some ut

structure Live (A : LoadFactor L) (s : State P L) (ut : P) (tok : UploadToken P) : Prop where
  uploadTokenHt : Reachable (Initial A) (Operate A) s.uploadTokenHt
  eventHt : Reachable (Initial A) (Operate A) s.eventHt
  allocated : s.tokens ut = some tok
  listed : serverGhtGet s.uploadTokenHt tok.token.toNat = some ut
  own : ∀ e, Registered s tok e → OwnEvent s ut tok e

/-- The token is out of its table and released once, its JSON at most once, and the event of its
timer is removed and closed. -/
structure DeletedOnce (s s' : State P L) (ut : P) (tok : UploadToken P) : Prop where
  unlisted : serverGhtGet s'.uploadTokenHt tok.token.toNat = none
  freed : s'.tokens ut = none ∧ s'.freedTokens = s.freedTokens ++ [ut]
  json : ∃ json, s'.putJson = s.putJson ++ json ∧ json.length ≤ 1
  event : ∀ e, Registered s tok e → serverGhtGet s'.eventHt (fdKey tok.timerfd) = none ∧
    s'.epoll tok.timerfd = none ∧ s'.events e = none ∧ s'.closed = s.closed ++ [tok.timerfd]

/-- Closing the timer does not run its expiry, and the server keeps track of its events. -/
def Unhooked (s : State P L) (tok : UploadToken P) : Prop :=
  ∀ e ev, Registered s tok e → s.events e = some ev → ev.keepData = true ∧ s.running = true

variable {A : LoadFactor L} {s s' : State P L} {ut e : P} {tok : UploadToken P} {fuel : Nat}
  {ev : Event P} {timer : Timer P}

omit [DecidableEq P] in
theorem serverGhtDel_self {ht : ServerGht P L} {key : Nat}
    (h : Reachable (Initial A) (Operate A) ht) (hp : serverGhtGet ht key ≠ none) :
    serverGhtGet (serverGhtDel A ht key).2 key = none := by
  obtain ⟨hshaped, hflagged, -⟩ := reachable_counted h
  obtain ⟨x, hdel, hremoves⟩ := serverGhtDel_present A hshaped hflagged hp
  rw [hdel, (ghtCheckLoad_resized A hremoves.shaped).get_eq, Option.eq_none_iff_forall_ne_some]
  exact fun d hd => ((hremoves.get_iff key d).mp hd).2.1 rfl

theorem serverDelEvent_kept (del : State P L → P → Except Fault (State P L))
    (hev : s.events e = some ev) (hkeep : ev.keepData = true)
    (htimer : s.timers ev.timer = some timer) :
    ∃ s', serverDelEvent A del s e = .ok s' ∧ s'.tokens = s.tokens ∧
      s'.uploadTokenHt = s.uploadTokenHt ∧ s'.freedTokens = s.freedTokens ∧
      s'.putJson = s.putJson ∧ s'.events e = none ∧ s'.closed = s.closed ++ [timer.fd] ∧
      s'.epoll timer.fd = none ∧
      s'.eventHt = if s.running then (serverGhtDel A s.eventHt (fdKey ev.fd)).2 else s.eventHt := by
  obtain ⟨-, htable⟩ := serverEventRemove_epoll s.toServer ev.fd
  rw [serverDelEvent, deref_some hev]
  simp only [bind, Except.bind, serverCloseTimer, hkeep, if_true, deref, htimer, close, hev]
  cases hrunning : s.running with
  | false =>
      exact ⟨_, rfl, rfl, rfl, rfl, rfl, Function.update_self .., rfl, Function.update_self ..,
        htable⟩
  | true =>
      refine ⟨_, rfl, rfl, rfl, rfl, rfl, Function.update_self .., rfl, Function.update_self .., ?_⟩
      exact congrArg (fun ht => (serverGhtDel A ht (fdKey ev.fd)).2) htable

variable (A fuel) in
theorem serverDelEvent_hooked (hev : s.events e = some ev) (hkeep : ev.keepData = false)
    (htimer : s.timers ev.timer = some timer) (htype : timer.type = .uploadToken)
    (hdata : timer.data = some ut) (htok : s.tokens ut = some tok) :
    ∃ s', serverDelEvent A (serverDelUploadToken A (fuel + 1)) s e = .ok s' ∧
      s'.tokens ut = none := by
  rw [serverDelEvent, deref_some hev]
  simp only [bind, Except.bind, serverCloseTimer, hkeep, Bool.false_eq_true, if_false,
    serverTimerExp, deref, htimer, htype, timerUt, hdata, htok]
  rw [serverDelUploadToken_idle A (Function.update_self ..) rfl]
  obtain ⟨texts, json, hs', -⟩ := releaseToken_eq (A := A) (s := { s with
    toServer := (serverEventRemove s.toServer ev.fd).2
    expired := s.expired ++ [ev.timer]
    tokens := Function.update s.tokens ut (some { tok with timerfd := 0 }) })
    (Function.update_self ..)
  rw [hs']
  simp only [htimer, hev, close]
  refine ⟨_, rfl, ?_⟩
  split <;> exact Function.update_self ..

theorem serverDelUploadToken_hooked (htok : s.tokens ut = some tok) (he : Registered s tok e)
    (hev : s.events e = some ev) (hkeep : ev.keepData = false)
    (htimer : s.timers ev.timer = some timer) (htype : timer.type = .uploadToken)
    (hdata : timer.data = some ut) :
    serverDelUploadToken A (fuel + 2) s ut = .error .useAfterFree := by
  obtain ⟨s', hs', hnone⟩ := serverDelEvent_hooked A fuel hev hkeep htimer htype
    hdata htok
  rw [serverDelUploadToken, deref_some htok]
  simp only [bind, Except.bind]
  rw [if_pos he.1, he.2]
  simp only [hs', releaseToken, deref, hnone, bind, Except.bind]

theorem releaseToken_once {x : State P L} (h : Live A s ut tok) (htokens : x.tokens = s.tokens)
    (htable : x.uploadTokenHt = s.uploadTokenHt) (hfreed : x.freedTokens = s.freedTokens)
    (hjson : x.putJson = s.putJson)
    (hevent : ∀ e, Registered s tok e → serverGhtGet x.eventHt (fdKey tok.timerfd) = none ∧
      x.epoll tok.timerfd = none ∧ x.events e = none ∧ x.closed = s.closed ++ [tok.timerfd]) :
    ∃ s', releaseToken A x ut = .ok s' ∧ DeletedOnce s s' ut tok := by
  obtain ⟨texts, json, hs', hlen⟩ := releaseToken_eq (A := A) (s := x) (htokens ▸ h.allocated)
  refine ⟨_, hs', ?_, ⟨?_, ?_⟩, ⟨json, ?_, hlen⟩, hevent⟩
  · rw [htable]
    exact serverGhtDel_self h.uploadTokenHt (by rw [h.listed]; exact Option.some_ne_none ut)
  · exact Function.update_self ..
  · rw [hfreed]
  · rw [hjson]

theorem serverDelUploadToken_unhooked (h : Live A s ut tok) (hu : Unhooked s tok) :
    ∃ s', serverDelUploadToken A (fuel + 1) s ut = .ok s' ∧ DeletedOnce s s' ut tok := by
  rw [serverDelUploadToken, deref_some h.allocated]
  simp only [bind, Except.bind]
  split
  · next hfd =>
      cases hget : serverGhtGet s.eventHt (fdKey tok.timerfd) with
      | none =>
          refine releaseToken_once h rfl rfl rfl rfl (fun e he => ?_)
          cases hget.symm.trans he.2
      | some e =>
          obtain ⟨ev, timer, hev, hevfd, htimer, htimerfd, -, -⟩ := h.own e ⟨hfd, hget⟩
          obtain ⟨hkeep, hrunning⟩ := hu e ev ⟨hfd, hget⟩ hev
          obtain ⟨x, hx, htokens, htable, hfreed, hjson, hgone, hclosed, hepoll, heventHt⟩ :=
            serverDelEvent_kept (A := A) (serverDelUploadToken A fuel) hev hkeep htimer
          rw [htimerfd] at hclosed hepoll
          rw [hevfd] at heventHt
          simp only [hx]
          refine releaseToken_once h htokens htable hfreed hjson (fun e' he' => ?_)
          obtain rfl := Option.some.inj (hget.symm.trans he'.2)
          refine ⟨?_, hepoll, hgone, hclosed⟩
          rw [heventHt, if_pos hrunning]
          exact serverGhtDel_self h.eventHt (by rw [hget]; exact Option.some_ne_none e)
  · next hfd => exact releaseToken_once h rfl rfl rfl rfl (fun e he => absurd he.1 hfd)

/-- A direct deletion does what it should if and only if closing the timer does not delete the token
before. -/
theorem serverDelUploadToken_once_iff (A : LoadFactor L) (fuel : Nat) (s : State P L) (ut : P)
    (tok : UploadToken P) (h : Live A s ut tok) :
    (∃ s', serverDelUploadToken A (fuel + 2) s ut = .ok s' ∧ DeletedOnce s s' ut tok) ↔
      Unhooked s tok := by
  refine ⟨?_, serverDelUploadToken_unhooked h⟩
  rintro ⟨s', hrun, hdeleted⟩ e ev he hev
  obtain ⟨ev', timer, hev', hevfd, htimer, htimerfd, htype, hdata⟩ := h.own e he
  obtain rfl := Option.some.inj (hev'.symm.trans hev)
  cases hkeep : ev'.keepData with
  | false =>
      rw [serverDelUploadToken_hooked h.allocated he hev hkeep htimer htype hdata] at hrun
      cases hrun
  | true =>
      refine ⟨rfl, ?_⟩
      by_contra hstopped
      obtain ⟨x, hx, htokens, -, -, -, -, -, -, heventHt⟩ :=
        serverDelEvent_kept (A := A) (serverDelUploadToken A (fuel + 1)) hev' hkeep htimer
      obtain ⟨texts, json, hreleased, -⟩ :=
        releaseToken_eq (A := A) (s := x) (htokens ▸ h.allocated)
      rw [serverDelUploadToken, deref_some h.allocated] at hrun
      simp only [bind, Except.bind] at hrun
      rw [if_pos he.1, he.2] at hrun
      simp only [hx, hreleased] at hrun
      have hgone := (hdeleted.event e he).1
      rw [← Except.ok.inj hrun, heventHt, if_neg hstopped, he.2] at hgone
      cases hgone

section Attachment

def ticking : State Nat ℚ where
  eventHt := ghtApply exactLoad (emptyGht exactLoad 4 false) (.insert 5 (some 3))
  epoll := fun fd => if fd = 5 then some 3 else none
  running := true
  sessions := fun _ => none
  tokens := fun p => if p = 1 then some ⟨.msgAttachment none false (some 9), 8, 5, 10⟩ else none
  timers := fun p => if p = 2 then some ⟨5, 10, timerOnce, .uploadToken, some 1⟩ else none
  events := fun p => if p = 3 then some ⟨5, 2, false⟩ else none
  sessionHt := emptyGht exactLoad 4 false
  uploadTokenHt := ghtApply exactLoad (emptyGht exactLoad 4 false) (.insert 8 (some 1))
  closed := []
  freedTokens := []
  freedTexts := []
  putJson := []
  expired := []

theorem ticking_read_when_freed :
    serverGhtGet ticking.eventHt 5 = some 3 ∧ serverGhtGet ticking.uploadTokenHt 8 = some 1 ∧
    (serverDelUploadToken exactLoad 3 ticking 1).map (fun s => s.freedTokens) =
      .error .useAfterFree := by
  decide +kernel

def tickingToken : UploadToken Nat := ⟨.msgAttachment none false (some 9), 8, 5, 10⟩

def keeping : State Nat ℚ := { ticking with events := fun p => if p = 3 then some ⟨5, 2, true⟩ else none }

theorem ticking_live (events : Nat → Option (Event Nat)) {keepData : Bool}
    (hevents : events 3 = some ⟨5, 2, keepData⟩) :
    Live exactLoad { ticking with events := events } 1 tickingToken where
  uploadTokenHt := (Reachable.start ⟨4, false, rfl⟩).next (a := .insert 8 (some 1)) ⟨by decide, rfl⟩
  eventHt := (Reachable.start ⟨4, false, rfl⟩).next (a := .insert 5 (some 3)) ⟨by decide, rfl⟩
  allocated := rfl
  listed := by
    have hget : serverGhtGet ticking.uploadTokenHt 8 = some 1 := by decide +kernel
    exact hget
  own e he := by
    have hget : serverGhtGet ticking.eventHt (fdKey 5) = some 3 := by decide +kernel
    obtain rfl : 3 = e := Option.some.inj (hget.symm.trans he.2)
    exact ⟨_, _, hevents, rfl, rfl, rfl, rfl, rfl⟩

theorem serverDelUploadToken_once_iff_timer :
    (∃ s', serverDelUploadToken exactLoad 2 keeping 1 = .ok s' ∧ DeletedOnce keeping s' 1 tickingToken) ∧
      ¬ ∃ s', serverDelUploadToken exactLoad 2 ticking 1 = .ok s' ∧ DeletedOnce ticking s' 1 tickingToken := by
  have hget : serverGhtGet ticking.eventHt (fdKey 5) = some 3 := by decide +kernel
  rw [serverDelUploadToken_once_iff exactLoad 0 keeping 1 tickingToken (ticking_live keeping.events rfl),
    serverDelUploadToken_once_iff exactLoad 0 ticking 1 tickingToken (ticking_live ticking.events rfl)]
  constructor
  · intro e ev he hev
    obtain rfl : 3 = e := Option.some.inj (hget.symm.trans he.2)
    obtain rfl := Option.some.inj hev
    exact ⟨rfl, rfl⟩
  · intro hunhooked
    have hkept := (hunhooked 3 ⟨5, 2, false⟩ ⟨by decide, hget⟩ rfl).1
    cases hkept

end Attachment

end ChityChat.TokenDeletion
