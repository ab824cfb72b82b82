import ChityChat.DescriptorReuse

namespace ChityChat.ListeningSocket

open Transition ServerDescriptors DescriptorReuse

inductive Call
  | step (a : Action)
  | noRoom (o : Owner)

inductive Run : State → Call → State → Prop
  | step {s s' : State} {a : Action} (hstep : Step s a s') : Run s (.step a) s'
  | noRoom {s : State} {o : Owner} {fd : Int} (ho : s.pc o = .adding fd) :
    Run s (.noRoom o) (s.goto o (.errRemoving fd))

/-- Every `server_accept_client` gets a socket, a session, a free key of `event_ht` and room in the
epoll set, and no error or hang-up is reported for the listening socket. -/
def Succeeds (s : State) : Call → Prop
  | .step (.accept _ fd) => fd ≠ none
  | .step (.sslHandshake _ ok) => ok = true
  | .step (.insertEvent (.client c)) => ∀ fd, s.pc (.client c) = .inserting fd → s.eventHt fd = none
  | .step (.delEvent o) => o ≠ .listen
  | .noRoom (.client _) => False
  | _ => True

/-- The client comes from a `server_accept_client` that fails. -/
inductive Unaccepted : Owner → Pc → Prop
  | errRemoving (c : Nat) (fd : Int) : Unaccepted (.client c) (.errRemoving fd)
  | errDeleting (c : Nat) (fd : Int) : Unaccepted (.client c) (.errDeleting fd)
  | unlisting (c : Nat) (fd : Int) : Unaccepted (.client c) (.unlisting fd false)
  | closing (c : Nat) (fd : Int) : Unaccepted (.client c) (.closing fd false)

structure Listening (l : Int) (s : State) : Prop where
  pc : Registered l (s.pc .listen)
  eventHt : s.eventHt l = some .listen
  epoll : s.epoll l = some .listen
  undeleted : ∀ o, s.pc o ≠ .deleting l
  clients : ∀ o, ¬ Unaccepted o (s.pc o)

variable {s s' : State} {l : Int}

theorem sock_of_registered {p : Pc} (h : Registered l p) : p.sock = some l := by
  cases h <;> rfl

theorem registered_nonneg (ho : Owned s) {o : Owner} (h : Registered l (s.pc o)) : 0 ≤ l := by
  apply (ho.nonneg o l (sock_of_registered h)).resolve_right
  rintro (hp | hp)
  · rw [hp] at h
    cases h
  · rw [hp] at h
    cases h

theorem Listening.owner (ho : Owned s) (h : Listening l s) : s.owner l = some .listen :=
  ho.held l .listen (opens_of_nonneg (sock_of_registered h.pc) (registered_nonneg ho h.pc))

theorem Listening.ne (ho : Owned s) (h : Listening l s) {o : Owner} (hne : o ≠ .listen) {fd : Int}
    (hp : (s.pc o).sock = some fd) : l ≠ fd := by
  rintro rfl
  exact hne (ho.eq (registered_nonneg ho h.pc) hp (sock_of_registered h.pc))

theorem Listening.others (h : Listening l s) (owner : Int → Option Owner)
    (clientHt : Int → Option Nat) : Listening l { s with owner, clientHt } :=
  ⟨h.pc, h.eventHt, h.epoll, h.undeleted, h.clients⟩

theorem Listening.setEventHt (h : Listening l s) {eventHt : Int → Option Owner}
    (hl : eventHt l = s.eventHt l) : Listening l { s with eventHt } :=
  ⟨h.pc, hl.trans h.eventHt, h.epoll, h.undeleted, h.clients⟩

theorem Listening.setEpoll (h : Listening l s) {epoll : Int → Option Owner}
    (hl : epoll l = s.epoll l) : Listening l { s with epoll } :=
  ⟨h.pc, h.eventHt, hl.trans h.epoll, h.undeleted, h.clients⟩

theorem Listening.close (h : Listening l s) {fd : Int} (hl : l ≠ fd) : Listening l (close s fd) :=
  (h.others _ s.clientHt).setEpoll (Function.update_of_ne hl ..)

theorem Listening.goto (h : Listening l s) {o : Owner} {p : Pc}
    (hlisten : o = .listen → Registered l p) (hdel : p ≠ .deleting l) (hp : ¬ Unaccepted o p) :
    Listening l (s.goto o p) where
  pc := goto_forall (P := fun o p => o = .listen → Registered l p) (by rintro q rfl; exact h.pc)
    hlisten .listen rfl
  eventHt := h.eventHt
  epoll := h.epoll
  undeleted := goto_forall (P := fun _ p => p ≠ .deleting l) h.undeleted hdel
  clients := goto_forall (P := fun o p => ¬ Unaccepted o p) h.clients hp

theorem Listening.own (h : Listening l s) {o : Owner} (hne : o ≠ .listen) {p : Pc}
    (hdel : p ≠ .deleting l) (hp : ¬ Unaccepted o p) : Listening l (s.goto o p) :=
  h.goto (fun ho => absurd ho hne) hdel hp

theorem Listening.next (h : Listening l s) (o : Owner) {next : Int → Pc}
    (hnext : ∀ n, Registered n (next n)) : Listening l (accepted s o next) := by
  rcases accepted_cases s o next with he | ⟨n, c, -, hn, he⟩
  · rwa [he]
  · rw [he]
    have hpc := h.pc
    rw [hn] at hpc
    cases hpc
    refine h.goto (fun _ => hnext l) ?_ nofun
    intro hdel
    have := hnext l
    rw [hdel] at this
    cases this

theorem Listening.ne_listen (h : Listening l s) {o : Owner} {p : Pc} (hp : s.pc o = p)
    (hreg : ¬ Registered l p) : o ≠ .listen := by
  rintro rfl
  exact hreg (hp ▸ h.pc)

theorem Listening.elsewhere (ho : Owned s) (h : Listening l s) {o : Owner} {p : Pc} {fd : Int}
    (hp : s.pc o = p) (hreg : ¬ Registered l p) (hsock : p.sock = some fd) :
    o ≠ .listen ∧ l ≠ fd := by
  subst hp
  have hne := h.ne_listen rfl hreg
  exact ⟨hne, h.ne ho hne hsock⟩

theorem Listening.eq (h : Listening l s) {p : Pc} {fd : Int} (hp : s.pc .listen = p)
    (hfd : p.sock = some fd) : fd = l := by
  have hsock := sock_of_registered h.pc
  rw [hp, hfd] at hsock
  exact Option.some.inj hsock

theorem Listening.step (ho : Owned s) (hpolled : Polled s) (h : Listening l s) {a : Action}
    (hstep : Step s a s') (hs : Succeeds s (.step a)) : Listening l s' := by
  cases hstep with
  | @accept n c fd hl hc hpos hfree =>
      obtain rfl := h.eq hl rfl
      have hclient := (h.others (Function.update s.owner fd (some (.client c))) s.clientHt).own
        (o := .client c) (p := .opened fd) (by nofun) (by nofun) (by nofun)
      exact hclient.goto (fun _ => .accepting c) (by nofun) (by nofun)
  | acceptFails hl hc => exact absurd rfl hs
  | sslHandshake ok hc =>
      obtain rfl : ok = true := hs
      exact h.own (by nofun) (by nofun) (by nofun)
  | listClient hc => exact (h.others _ _).own (by nofun) (by nofun) (by nofun)
  | timerfdCreate ht hpos hfree => exact (h.others _ _).own (by nofun) (by nofun) (by nofun)
  | timerfdSettime ok ht =>
      cases ok with
      | true | false => exact h.own (by nofun) (by nofun) (by nofun)
  | @insertEvent o fd hp hfree =>
      obtain ⟨hne, hl⟩ := h.elsewhere ho hp (by nofun) rfl
      exact (h.setEventHt (ghtInsert_apply_of_ne s.eventHt hl o)).own hne (by nofun) (by nofun)
  | @insertEventFails o fd hp htaken =>
      obtain ⟨hne, hl⟩ := h.elsewhere ho hp (by nofun) rfl
      refine (h.setEventHt (ghtInsert_apply_of_ne s.eventHt hl o)).own hne (by nofun) ?_
      rintro ⟨⟩
      exact absurd (hs fd hp) htaken
  | @eventAdd o fd hp hadd =>
      obtain ⟨hne, hl⟩ := h.elsewhere ho hp (by nofun) rfl
      have hadded := (h.setEpoll (Function.update_of_ne hl (some o) s.epoll)).own hne
        (p := .registered fd) (by nofun) (by nofun)
      exact hadded.next o (fun _ => .rearming)
  | eventAddFails hp hadd => exact absurd (mayAdd ho hpolled hp) hadd
  | @errRemove o fd hp =>
      obtain ⟨hne, hl⟩ := h.elsewhere ho hp (by nofun) rfl
      have hset := h.setEpoll (Function.update_of_ne hl none s.epoll)
      cases o with
      | listen => exact absurd rfl hne
      | client c => exact absurd (hp ▸ .errRemoving c fd) (h.clients (.client c))
      | timer t | other k => exact hset.own hne (by nofun) (by nofun)
  | @errDelete o fd hp =>
      obtain ⟨hne, hl⟩ := h.elsewhere ho hp (by nofun) rfl
      have hset := h.setEventHt (Function.update_of_ne hl none s.eventHt)
      cases o with
      | listen => exact absurd rfl hne
      | client c => exact absurd (hp ▸ .errDeleting c fd) (h.clients (.client c))
      | timer t | other k => exact hset.own hne (by nofun) (by nofun)
  | process hp =>
      refine h.goto ?_ (by nofun) (by nofun)
      rintro rfl
      obtain rfl := h.eq hp rfl
      exact .processing
  | rearm hp =>
      refine h.goto ?_ (by nofun) (by nofun)
      rintro rfl
      rcases hp with hp | ⟨hne, -⟩
      · obtain rfl := h.eq hp rfl
        exact .registered
      · exact absurd rfl hne
  | delEvent hp => exact h.own hs (by nofun) (by nofun)
  | @eventRemove o fd hp =>
      obtain ⟨hne, hl⟩ := h.elsewhere ho hp (by nofun) rfl
      have hset := h.setEpoll (Function.update_of_ne hl none s.epoll)
      cases o with
      | listen | client c | timer t | other k => exact hset.own hne (by nofun) (by nofun)
  | @unlistClient c fd del hc =>
      cases del with
      | true => exact (h.others _ _).own (by nofun) (by nofun) (by nofun)
      | false => exact absurd (hc ▸ .unlisting c fd) (h.clients (.client c))
  | @closeFd o fd hp =>
      obtain ⟨hne, hl⟩ := h.elsewhere ho hp (by nofun) rfl
      refine (h.close hl).own hne ?_ (by nofun)
      rw [ne_eq, Pc.deleting.injEq]
      exact Ne.symm hl
  | @closeNew o fd hp =>
      obtain ⟨hne, hl⟩ := h.elsewhere ho hp (by nofun) rfl
      have hgone := (h.close hl).own hne (p := .gone) (by nofun) (by nofun)
      cases o with
      | listen => exact absurd rfl hne
      | client c => exact absurd (hp ▸ .closing c fd) (h.clients (.client c))
      | timer t | other k => exact hgone
  | @deleteEvent o fd hp =>
      have hne := h.ne_listen hp (by nofun)
      have hl : l ≠ fd := by
        rintro rfl
        exact h.undeleted o hp
      exact (h.setEventHt (Function.update_of_ne hl ..)).own hne (by nofun) (by nofun)
  | openOther hk hpos hfree => exact (h.others _ _).own (by nofun) (by nofun) (by nofun)
  | @closeOther k fd hk =>
      obtain ⟨-, hl⟩ := h.elsewhere ho hk (by nofun) rfl
      exact (h.close hl).own (by nofun) (by nofun) (by nofun)

theorem Listening.run (ho : Owned s) (hpolled : Polled s) (h : Listening l s) {c : Call}
    (hrun : Run s c s') (hs : Succeeds s c) : Listening l s' := by
  cases hrun with
  | step hstep => exact h.step ho hpolled hstep hs
  | @noRoom o fd hp =>
      cases o with
      | listen => exact absurd rfl (h.ne_listen hp (by nofun))
      | client c => exact hs.elim
      | timer t | other k => exact h.own (by nofun) (by nofun) (by nofun)

theorem Owned.run (h : Owned s) {c : Call} (hrun : Run s c s') : Owned s' := by
  cases hrun with
  | step hstep => exact h.step hstep
  | noRoom hp => exact h.goto hp rfl (by simp [Refused])

theorem Polled.run (h : Polled s) {c : Call} (hrun : Run s c s') : Polled s' := by
  cases hrun with
  | step hstep => exact h.step hstep
  | noRoom hp => exact h.goto hp (Or.inr rfl)

theorem listening_of_initial (h : Initial s) (hl : s.pc .listen = .registered l) :
    Listening l s := by
  obtain ⟨n, -, -, hn, hepoll, htable⟩ := h.listen
  obtain rfl : n = l := Pc.registered.inj (hn.symm.trans hl)
  have hothers : ∀ o, s.pc o ≠ .deleting n ∧ ¬ Unaccepted o (s.pc o) := by
    intro o
    cases o with
    | listen => exact hl ▸ ⟨nofun, nofun⟩
    | client c => exact h.clients c ▸ ⟨nofun, nofun⟩
    | timer t => exact h.timers t ▸ ⟨nofun, nofun⟩
    | other k =>
        rcases h.others k with hk | ⟨n, -, hk⟩
        · exact hk ▸ ⟨nofun, nofun⟩
        · exact hk ▸ ⟨nofun, nofun⟩
  refine ⟨hl ▸ .registered, ?_, ?_, fun o => (hothers o).1, fun o => (hothers o).2⟩
  · rw [htable, Function.update_self]
  · rw [hepoll, Function.update_self]

def InitialAt (l : Int) (s : State) : Prop := Initial s ∧ s.pc .listen = .registered l

theorem reachable_listening
    (h : Reachable (InitialAt l) (fun s c s' => Run s c s' ∧ Succeeds s c) s) :
    Owned s ∧ Polled s ∧ Listening l s :=
  h.invariant (I := fun s => Owned s ∧ Polled s ∧ Listening l s)
    (fun _ hi => ⟨owned_initial hi.1, polled_initial hi.1, listening_of_initial hi.1 hi.2⟩)
    (fun _ _ _ ⟨ho, hpolled, hl⟩ ⟨hrun, hs⟩ =>
      ⟨Owned.run ho hrun, Polled.run hpolled hrun, hl.run ho hpolled hrun hs⟩)

/-- While every `server_accept_client` succeeds, the descriptor of the listening socket is open and
its event is in `event_ht` and in the epoll set, with no deletion of it begun. -/
theorem listening_stays
    (h : Reachable (InitialAt l) (fun s c s' => Run s c s' ∧ Succeeds s c) s) :
    s.owner l = some .listen ∧ s.eventHt l = some .listen ∧ s.epoll l = some .listen ∧
      Registered l (s.pc .listen) := by
  obtain ⟨ho, -, hl⟩ := reachable_listening h
  exact ⟨hl.owner ho, hl.eventHt, hl.epoll, hl.pc⟩

theorem listening_stays_accepted : ∃ s : State, s.pc .listen = .registered 3 ∧
    s.pc (.client 0) = .registered 5 ∧ s.owner 3 = some .listen ∧ s.eventHt 3 = some .listen ∧
      s.epoll 3 = some .listen ∧ Registered 3 (s.pc .listen) := by
  have h0 : Reachable (InitialAt 3) (fun s c s' => Run s c s' ∧ Succeeds s c) listening :=
    .start ⟨listening_initial, rfl⟩
  have h1 := h0.next (a := Call.step (.process .listen)) ⟨.step (.process rfl), trivial⟩
  have h2 := h1.next (a := Call.step (.accept 0 (some 5)))
    ⟨.step (.accept rfl rfl (by decide) rfl), Option.some_ne_none _⟩
  have h3 := h2.next (a := Call.step (.sslHandshake 0 true)) ⟨.step (.sslHandshake true rfl), rfl⟩
  have h4 := h3.next (a := Call.step (.listClient 0)) ⟨.step (.listClient rfl), trivial⟩
  have h5 := h4.next (a := Call.step (.insertEvent (.client 0))) ⟨.step (.insertEvent rfl rfl), by
    rintro fd ⟨⟩
    rfl⟩
  have h6 := h5.next (a := Call.step (.eventAdd (.client 0)))
    ⟨.step (.eventAdd rfl ⟨rfl, Option.some_ne_none _⟩), trivial⟩
  have h7 := h6.next (a := Call.step (.rearm .listen)) ⟨.step (.rearm (.inl rfl)), trivial⟩
  exact ⟨_, rfl, rfl, listening_stays h7⟩

/-- One `accept` fails, and the descriptor of the listening socket is closed. -/
theorem listening_closed : ∃ s, Reachable (InitialAt 3) Run s ∧ s.owner 3 = none ∧
    s.pc .listen = .deleting 3 := by
  have h0 : Reachable (InitialAt 3) Run listening := .start ⟨listening_initial, rfl⟩
  have h1 := h0.next (a := .step (.process .listen)) (.step (.process rfl))
  have h2 := h1.next (a := .step (.accept 0 none)) (.step (.acceptFails rfl rfl))
  have h3 := h2.next (a := .step (.unlistClient 0)) (.step (.unlistClient rfl))
  have h4 := h3.next (a := .step (.closeFd (.client 0))) (.step (.closeNew rfl))
  have h5 := h4.next (a := .step (.eventRemove .listen)) (.step (.eventRemove rfl))
  have h6 := h5.next (a := .step (.closeFd .listen)) (.step (.closeFd rfl))
  exact ⟨_, h6, rfl, rfl⟩

end ChityChat.ListeningSocket
