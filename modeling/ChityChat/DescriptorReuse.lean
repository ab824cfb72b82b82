import ChityChat.ServerDescriptors

namespace ChityChat.DescriptorReuse

open Transition TableTracking ServerDescriptors

/-- No event is inserted for a number while a deletion of an event with this number is between its
`close` and its `server_ght_del`. -/
def ReusedLate (s : State) : Action → Prop
  | .insertEvent o => ∀ fd, s.pc o = .inserting fd → ∀ q, s.pc q ≠ .deleting fd
  | _ => True

inductive Registered (fd : Int) : Pc → Prop
  | registered : Registered fd (.registered fd)
  | processing : Registered fd (.processing fd)
  | accepting (c : Nat) : Registered fd (.accepting fd c)
  | rearming : Registered fd (.rearming fd)

inductive Failed : Pc → Prop
  | errRemoving (fd : Int) : Failed (.errRemoving fd)
  | errDeleting (fd : Int) : Failed (.errDeleting fd)

def tabled : Pc → Option Int
  | .adding fd | .registered fd | .processing fd | .accepting fd _ | .rearming fd | .removing fd
  | .unlisting fd true | .closing fd true | .deleting fd => some fd
  | _ => none

structure Entered (s : State) : Prop where
  tableWithin : Within s.eventHt s.pc tabled
  tableHeld : Held s.eventHt s.pc tabled
  epollHeld : Held s.epoll s.pc polled
  unfailed : ∀ o, ¬ Failed (s.pc o)

variable {s s' : State} {a : Action}

theorem Registered.tabled {fd : Int} {p : Pc} (h : Registered fd p) : tabled p = some fd := by
  cases h <;> rfl

theorem Registered.polled {fd : Int} {p : Pc} (h : Registered fd p) : polled p = some fd := by
  cases h <;> rfl

theorem sock_of_tabled {p : Pc} {fd : Int} (h : tabled p = some fd) :
    p.sock = some fd ∨ p = .deleting fd := by
  unfold tabled at h
  split at h
  all_goals cases h
  all_goals first | exact Or.inl rfl | exact Or.inr rfl

theorem eventHt_free (ho : Owned s) (h : Entered s) {o : Owner} {fd : Int}
    (hp : s.pc o = .inserting fd) (hlate : ∀ q, s.pc q ≠ .deleting fd) : s.eventHt fd = none := by
  cases hq : s.eventHt fd with
  | none => rfl
  | some q =>
      have htab := h.tableWithin fd q hq
      have hsock := (sock_of_tabled htab).resolve_right (hlate q)
      have hpos : 0 ≤ fd := ho.pos hp rfl (by simp [Refused])
      obtain rfl := ho.eq hpos hsock (by rw [hp]; rfl)
      simp [hp, tabled] at htab

theorem unfailed_goto (h : ∀ o, ¬ Failed (s.pc o)) {o : Owner} {p : Pc} (hp : ¬ Failed p) :
    ∀ q, ¬ Failed ((s.goto o p).pc q) :=
  goto_forall (P := fun _ p => ¬ Failed p) h hp

theorem Entered.others (h : Entered s) (owner : Int → Option Owner) (clientHt : Int → Option Nat) :
    Entered { s with owner, clientHt } :=
  ⟨h.tableWithin, h.tableHeld, h.epollHeld, h.unfailed⟩

theorem Entered.goto (h : Entered s) {o : Owner} {p q : Pc} (ho : s.pc o = q)
    (htab : tabled p = tabled q) (hpoll : polled p = polled q) (hp : ¬ Failed p) :
    Entered (s.goto o p) := by
  subst ho
  exact {
    tableWithin := h.tableWithin.move (Or.inl htab)
    tableHeld := h.tableHeld.move (Or.inl htab)
    epollHeld := h.epollHeld.move (Or.inl hpoll)
    unfailed := unfailed_goto h.unfailed hp }

theorem Entered.close (ho : Owned s) (h : Entered s) {o : Owner} {q : Pc} {fd : Int}
    (hp : s.pc o = q) (hsock : q.sock = some fd) (hpoll : polled q = none) :
    Entered (close s fd) where
  tableWithin := h.tableWithin
  tableHeld := h.tableHeld
  epollHeld := by
    subst hp
    apply h.epollHeld.clear
    intro q hq
    obtain rfl := polled_eq ho hsock hq
    simp [hpoll] at hq
  unfailed := h.unfailed

theorem Entered.accepted (h : Entered s) (o : Owner) {next : Int → Pc}
    (htab : ∀ l, tabled (next l) = some l) (hpoll : ∀ l, polled (next l) = some l)
    (hnext : ∀ l, ¬ Failed (next l)) : Entered (accepted s o next) := by
  rcases accepted_cases s o next with he | ⟨l, c, -, hl, he⟩
  · rwa [he]
  · rw [he]
    exact h.goto hl (htab l) (hpoll l) (hnext l)

theorem Entered.step (ho : Owned s) (hpolled : Polled s) (h : Entered s) (hstep : Step s a s')
    (hlate : ReusedLate s a) : Entered s' := by
  cases hstep with
  | @accept l c fd hl hc hpos hfree =>
      have hclient := (h.others (Function.update s.owner fd (some (.client c))) s.clientHt).goto
        (p := .opened fd) hc rfl rfl nofun
      exact hclient.goto ((goto_client_listen ..).trans hl) rfl rfl nofun
  | @acceptFails l c hl hc =>
      have hclient := h.goto (p := .unlisting (-1) false) hc rfl rfl nofun
      exact hclient.goto ((goto_client_listen ..).trans hl) rfl rfl nofun
  | sslHandshake ok hc =>
      cases ok with
      | true => exact h.goto hc rfl rfl nofun
      | false => exact h.goto hc rfl rfl nofun
  | listClient hc => exact (h.others _ _).goto hc rfl rfl nofun
  | timerfdCreate ht hpos hfree =>
      exact (h.others _ _).goto ht rfl rfl nofun
  | timerfdSettime ok ht =>
      cases ok with
      | true => exact h.goto ht rfl rfl nofun
      | false => exact h.goto ht rfl rfl nofun
  | @insertEvent o fd hp hfree =>
      rw [ghtInsert_of_none hfree]
      exact {
        tableWithin := h.tableWithin.insert (by rw [hp]; rfl) rfl
        tableHeld := h.tableHeld.insert hfree rfl
        epollHeld := h.epollHeld.move (Or.inl (by rw [hp]; rfl))
        unfailed := unfailed_goto h.unfailed nofun }
  | insertEventFails hp htaken => exact absurd (eventHt_free ho h hp (hlate _ hp)) htaken
  | @eventAdd o fd hp hadd =>
      have hgoto : Entered ({ s with epoll := Function.update s.epoll fd (some o) }.goto o
          (.registered fd)) := {
        tableWithin := h.tableWithin.move (Or.inl (by rw [hp]; rfl))
        tableHeld := h.tableHeld.move (Or.inl (by rw [hp]; rfl))
        epollHeld := h.epollHeld.insert hadd.1 rfl
        unfailed := unfailed_goto h.unfailed nofun }
      exact hgoto.accepted o (fun _ => rfl) (fun _ => rfl) nofun
  | eventAddFails hp hadd => exact absurd (mayAdd ho hpolled hp) hadd
  | @errRemove o fd hp => exact absurd (hp ▸ .errRemoving fd) (h.unfailed o)
  | @errDelete o fd hp => exact absurd (hp ▸ .errDeleting fd) (h.unfailed o)
  | process hp => exact h.goto hp rfl rfl nofun
  | rearm hp =>
      rcases hp with hp | ⟨-, hp⟩
      · exact h.goto hp rfl rfl nofun
      · exact h.goto hp rfl rfl nofun
  | delEvent hp => exact h.goto hp rfl rfl nofun
  | @eventRemove o fd hp =>
      have hnext : tabled (seClose o fd) = some fd ∧ polled (seClose o fd) = none ∧
          ¬ Failed (seClose o fd) := by
        cases o with
        | listen | client | timer | other => exact ⟨rfl, rfl, nofun⟩
      exact {
        tableWithin := h.tableWithin.move (Or.inl (by rw [hp, hnext.1]; rfl))
        tableHeld := h.tableHeld.move (Or.inl (by rw [hp, hnext.1]; rfl))
        epollHeld := h.epollHeld.delete (by rw [hp]; rfl) hnext.2.1
        unfailed := unfailed_goto h.unfailed hnext.2.2 }
  | @unlistClient c fd del hc =>
      cases del with
      | true => exact (h.others _ _).goto hc rfl rfl nofun
      | false => exact (h.others _ _).goto hc rfl rfl nofun
  | closeFd hp =>
      exact (h.close ho hp rfl rfl).goto hp rfl rfl nofun
  | @closeNew o fd hp =>
      have hgone := (h.close ho hp rfl rfl).goto (p := .gone) hp rfl rfl nofun
      exact hgone.accepted o (fun _ => rfl) (fun _ => rfl) nofun
  | deleteEvent hp =>
      exact {
        tableWithin := h.tableWithin.delete (by simp [hp, tabled])
        tableHeld := h.tableHeld.delete (by rw [hp]; rfl) rfl
        epollHeld := h.epollHeld.move (Or.inl (by rw [hp]; rfl))
        unfailed := unfailed_goto h.unfailed nofun }
  | openOther hk hpos hfree =>
      exact (h.others _ _).goto hk rfl rfl nofun
  | closeOther hk =>
      exact (h.close ho hk rfl rfl).goto hk rfl rfl nofun

theorem entered_initial (h : Initial s) : Entered s := by
  obtain ⟨l, -, -, hl, hepoll, htable⟩ := h.listen
  have hothers : ∀ o, o ≠ .listen →
      tabled (s.pc o) = none ∧ polled (s.pc o) = none ∧ ¬ Failed (s.pc o) := by
    intro o ho
    cases o with
    | listen => exact absurd rfl ho
    | client c => exact h.clients c ▸ ⟨rfl, rfl, nofun⟩
    | timer t => exact h.timers t ▸ ⟨rfl, rfl, nofun⟩
    | other k =>
        rcases h.others k with hk | ⟨n, -, hk⟩
        · exact hk ▸ ⟨rfl, rfl, nofun⟩
        · exact hk ▸ ⟨rfl, rfl, nofun⟩
  refine ⟨?_, ?_, ?_, ?_⟩
  · rw [htable]
    exact within_single (by rw [hl]; rfl)
  · rw [htable]
    exact held_single (by rw [hl]; rfl) (fun o ho => (hothers o ho).1)
  · rw [hepoll]
    exact held_single (by rw [hl]; rfl) (fun o ho => (hothers o ho).2.1)
  · intro o
    by_cases ho : o = .listen
    · subst ho
      rw [hl]
      nofun
    · exact (hothers o ho).2.2

theorem reachable_entered (h : Reachable Initial (fun s a s' => Step s a s' ∧ ReusedLate s a) s) :
    Owned s ∧ Polled s ∧ Entered s :=
  h.invariant (I := fun s => Owned s ∧ Polled s ∧ Entered s)
    (fun _ hi => ⟨owned_initial hi, polled_initial hi, entered_initial hi⟩)
    (fun _ _ _ hi hstep => ⟨hi.1.step hstep.1, hi.2.1.step hstep.1,
      hi.2.2.step hi.1 hi.2.1 hstep.1 hstep.2⟩)

/-- In every run that reuses numbers late enough, no registration fails, and the event stays in
`event_ht` and in the epoll set until it is deleted. -/
theorem registrations_stay
    (h : Reachable Initial (fun s a s' => Step s a s' ∧ ReusedLate s a) s) :
    (∀ o, ¬ Failed (s.pc o)) ∧
      ∀ o fd, Registered fd (s.pc o) → s.eventHt fd = some o ∧ s.epoll fd = some o := by
  obtain ⟨-, -, hentered⟩ := reachable_entered h
  refine ⟨hentered.unfailed, ?_⟩
  intro o fd ho
  exact ⟨hentered.tableHeld fd o ho.tabled, hentered.epollHeld fd o ho.polled⟩

/-- The client 0 is gone, and the client 1 has got its number. -/
theorem registrations_stay_reused : ∃ s : State, s.pc (.client 0) = .gone ∧
    s.pc (.client 1) = .registered 5 ∧ s.eventHt 5 = some (.client 1) ∧ s.epoll 5 = some (.client 1) := by
  have h0 : Reachable Initial (fun s a s' => Step s a s' ∧ ReusedLate s a) listening :=
    .start listening_initial
  have h1 := h0.next (a := Action.process .listen) ⟨.process rfl, trivial⟩
  have h2 := h1.next (a := Action.accept 0 (some 5)) ⟨.accept rfl rfl (by decide) rfl, trivial⟩
  have h3 := h2.next (a := Action.sslHandshake 0 true) ⟨.sslHandshake true rfl, trivial⟩
  have h4 := h3.next (a := Action.listClient 0) ⟨.listClient rfl, trivial⟩
  have h5 := h4.next (a := Action.insertEvent (.client 0)) ⟨.insertEvent rfl rfl, by
    rintro fd - (_ | (_ | _) | _ | _) <;> nofun⟩
  have h6 := h5.next (a := Action.eventAdd (.client 0)) ⟨.eventAdd rfl ⟨rfl, Option.some_ne_none _⟩, trivial⟩
  have h7 := h6.next (a := Action.rearm .listen) ⟨.rearm (.inl rfl), trivial⟩
  have h8 := h7.next (a := Action.process (.client 0)) ⟨.process rfl, trivial⟩
  have h9 := h8.next (a := Action.delEvent (.client 0)) ⟨.delEvent rfl, trivial⟩
  have h10 := h9.next (a := Action.eventRemove (.client 0)) ⟨.eventRemove rfl, trivial⟩
  have h11 := h10.next (a := Action.unlistClient 0) ⟨.unlistClient rfl, trivial⟩
  have h12 := h11.next (a := Action.closeFd (.client 0)) ⟨.closeFd rfl, trivial⟩
  have h13 := h12.next (a := Action.deleteEvent (.client 0)) ⟨.deleteEvent rfl, trivial⟩
  have h14 := h13.next (a := Action.process .listen) ⟨.process rfl, trivial⟩
  have h15 := h14.next (a := Action.accept 1 (some 5)) ⟨.accept rfl rfl (by decide) rfl, trivial⟩
  have h16 := h15.next (a := Action.sslHandshake 1 true) ⟨.sslHandshake true rfl, trivial⟩
  have h17 := h16.next (a := Action.listClient 1) ⟨.listClient rfl, trivial⟩
  have h18 := h17.next (a := Action.insertEvent (.client 1)) ⟨.insertEvent rfl rfl, by
    rintro fd - (_ | (_ | _ | _) | _ | _) <;> nofun⟩
  have h19 := h18.next (a := Action.eventAdd (.client 1)) ⟨.eventAdd rfl ⟨rfl, Option.some_ne_none _⟩, trivial⟩
  exact ⟨_, rfl, rfl, (registrations_stay h19).2 (.client 1) 5 .registered⟩

/-- A worker has closed the descriptor of the client 0 and not yet removed its event. Another
accepts the client 1 with the same number, whose registration fails. -/
theorem reused_early : ∃ s, Reachable Initial Step s ∧ Failed (s.pc (.client 1)) := by
  have h0 : Reachable Initial Step listening := .start listening_initial
  have h1 := h0.next (a := .process .listen) (.process rfl)
  have h2 := h1.next (a := .accept 0 (some 5)) (.accept rfl rfl (by decide) rfl)
  have h3 := h2.next (a := .sslHandshake 0 true) (.sslHandshake true rfl)
  have h4 := h3.next (a := .listClient 0) (.listClient rfl)
  have h5 := h4.next (a := .insertEvent (.client 0)) (.insertEvent rfl rfl)
  have h6 := h5.next (a := .eventAdd (.client 0)) (.eventAdd rfl ⟨rfl, Option.some_ne_none _⟩)
  have h7 := h6.next (a := .rearm .listen) (.rearm (.inl rfl))
  have h8 := h7.next (a := .process (.client 0)) (.process rfl)
  have h9 := h8.next (a := .delEvent (.client 0)) (.delEvent rfl)
  have h10 := h9.next (a := .eventRemove (.client 0)) (.eventRemove rfl)
  have h11 := h10.next (a := .unlistClient 0) (.unlistClient rfl)
  have h12 := h11.next (a := .closeFd (.client 0)) (.closeFd rfl)
  have h13 := h12.next (a := .process .listen) (.process rfl)
  have h14 := h13.next (a := .accept 1 (some 5)) (.accept rfl rfl (by decide) rfl)
  have h15 := h14.next (a := .sslHandshake 1 true) (.sslHandshake true rfl)
  have h16 := h15.next (a := .listClient 1) (.listClient rfl)
  have h17 := h16.next (a := .insertEvent (.client 1))
    (.insertEventFails rfl (Option.some_ne_none _))
  exact ⟨_, h17, .errRemoving 5⟩

end ChityChat.DescriptorReuse
