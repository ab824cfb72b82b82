import ChityChat.ServerDescriptors

namespace ChityChat.ClientTable

open Transition TableTracking ServerDescriptors

/-- Any number of workers may be in `server_accept_client` at a time, also while the event of the
listening socket is not reported to them, and `epoll_ctl` may have no room for an event. -/
inductive Call : State → Action → State → Prop
  | step {s s' : State} {a : Action} (hstep : Step s a s') : Call s a s'
  | accept {s : State} {c : Nat} {fd : Int} (hc : s.pc (.client c) = .absent) (hpos : 0 ≤ fd)
      (hfree : s.owner fd = none) :
    Call s (.accept c (some fd)) ({ s with
      owner := Function.update s.owner fd (some (.client c)) }.goto (.client c) (.opened fd))
  | acceptFails {s : State} {c : Nat} (hc : s.pc (.client c) = .absent) :
    Call s (.accept c none) (s.goto (.client c) (.unlisting (-1) false))
  | noRoom {s : State} {o : Owner} {fd : Int} (ho : s.pc o = .adding fd) :
    Call s (.eventAdd o) (s.goto o (.errRemoving fd))

/-- The descriptor of a client that `client_ht` may have. -/
def listed : Pc → Option Int
  | .inserting fd | .adding fd | .registered fd | .processing fd | .accepting fd _ | .rearming fd
  | .errRemoving fd | .errDeleting fd | .removing fd => some fd
  | .unlisting fd _ => if 0 ≤ fd then some fd else none
  | _ => none

def clients (s : State) (c : Nat) : Pc := s.pc (.client c)

def Listed (s : State) : Prop := Within s.clientHt (clients s) listed

variable {s s' : State} {a : Action}

theorem sock_of_listed {p : Pc} {fd : Int} (h : listed p = some fd) : p.sock = some fd := by
  cases p with
  | unlisting n del => exact (Option.ite_none_right_eq_some.mp h).2
  | inserting | adding | registered | processing | accepting | rearming | errRemoving | errDeleting
  | removing => exact h
  | absent | opened | listing | closing | deleting | gone => cases h

theorem listed_nonneg (ho : Owned s) {o : Owner} {fd : Int} (h : listed (s.pc o) = some fd) :
    0 ≤ fd := by
  rcases ho.nonneg o fd (sock_of_listed h) with hpos | hp | hp
  · exact hpos
  · rw [hp] at h
    exact (Option.ite_none_right_eq_some.mp h).1
  · rw [hp] at h
    cases h

theorem listed_unlisting {fd : Int} (hpos : 0 ≤ fd) (del : Bool) :
    listed (.unlisting fd del) = some fd :=
  if_pos hpos

theorem clients_goto (s : State) (c : Nat) (p : Pc) :
    clients (s.goto (.client c) p) = Function.update (clients s) c p := by
  funext d
  by_cases hd : d = c
  · subst hd
    simp [clients, State.goto]
  · simp [clients, State.goto, hd]

theorem clients_goto_of_ne (s : State) {o : Owner} (ho : ∀ c, o ≠ .client c) (p : Pc) :
    clients (s.goto o p) = clients s := by
  funext d
  simp [clients, State.goto, (ho d).symm]

theorem Listed.goto (h : Listed s) {o : Owner} {p : Pc}
    (hp : ∀ c, o = .client c → listed p = listed (s.pc o) ∨ listed (s.pc o) = none) :
    Listed (s.goto o p) := by
  cases o with
  | client c =>
      rw [Listed, clients_goto]
      exact h.move (hp c rfl)
  | listen | timer t | other k =>
      rw [Listed, clients_goto_of_ne _ (by simp)]
      exact h

theorem Listed.move (h : Listed s) {o : Owner} {p q : Pc} (ho : s.pc o = q)
    (hp : listed p = listed q ∨ listed q = none) : Listed (s.goto o p) :=
  h.goto (fun _ _ => ho ▸ hp)

theorem Listed.unlisting (ho : Owned s) (h : Listed s) {o : Owner} {p q : Pc} {fd : Int}
    (hp : s.pc o = q) (hq : listed q = some fd) (del : Bool)
    (hclient : ∀ c, o = .client c → p = .unlisting fd del) : Listed (s.goto o p) := by
  subst hp
  refine h.goto ?_
  intro c hc
  rw [hclient c hc, hq]
  exact Or.inl (listed_unlisting (listed_nonneg ho hq) del)

theorem Listed.accepted (h : Listed s) (o : Owner) (next : Int → Pc) :
    Listed (accepted s o next) := by
  rcases accepted_cases s o next with he | ⟨l, c, -, -, he⟩
  · rwa [he]
  · rw [he]
    exact h.goto (by simp)

theorem clientHt_eq (ho : Owned s) (h : Listed s) {c d : Nat} {fd : Int}
    (hc : (s.pc (.client c)).sock = some fd) (hd : s.clientHt fd = some d) : d = c := by
  have hlisted := h fd d hd
  have heq := ho.eq (listed_nonneg ho hlisted) (sock_of_listed hlisted) hc
  exact Owner.client.inj heq

theorem clientHt_free (ho : Owned s) (h : Listed s) {c : Nat} {fd : Int}
    (hc : s.pc (.client c) = .listing fd) : s.clientHt fd = none := by
  cases hd : s.clientHt fd with
  | none => rfl
  | some d =>
      obtain rfl := clientHt_eq ho h (by rw [hc]; rfl) hd
      have hlisted := h fd d hd
      simp [clients, hc, listed] at hlisted

theorem Listed.step (ho : Owned s) (h : Listed s) (hstep : Step s a s') : Listed s' := by
  cases hstep with
  | @listClient c fd hc =>
      rw [Listed, clients_goto, ghtInsert_of_none (clientHt_free ho h hc)]
      exact h.insert (by rw [clients, hc]; rfl) rfl
  | @unlistClient c fd del hc =>
      rw [Listed, clients_goto]
      apply h.delete
      intro n hn
      have hsock := sock_of_listed hn
      rw [clients, hc] at hsock
      exact (Option.some.inj hsock).symm
  | accept hl hc hpos hfree => exact Listed.goto (Listed.move h hc (Or.inr rfl)) (by simp)
  | acceptFails hl hc => exact Listed.goto (Listed.move h hc (Or.inr rfl)) (by simp)
  | sslHandshake ok hc => exact h.move hc (Or.inr rfl)
  | timerfdCreate ht hpos hfree => exact h.goto (by simp)
  | timerfdSettime ok ht => exact h.goto (by simp)
  | insertEvent hp hfree => exact h.move hp (Or.inl rfl)
  | insertEventFails hp htaken => exact h.move hp (Or.inl rfl)
  | @eventAdd o fd hp hadd =>
      have hgoto : Listed ({ s with epoll := Function.update s.epoll fd (some o) }.goto o
          (.registered fd)) := h.move hp (Or.inl rfl)
      exact hgoto.accepted o _
  | eventAddFails hp hadd => exact h.move hp (Or.inl rfl)
  | errRemove hp => exact h.move hp (Or.inl rfl)
  | errDelete hp =>
      apply Listed.unlisting ho h hp rfl false
      rintro c rfl
      rfl
  | process hp => exact h.move hp (Or.inl rfl)
  | rearm hp =>
      rcases hp with hp | ⟨-, hp⟩
      · exact h.move hp (Or.inl rfl)
      · exact h.move hp (Or.inl rfl)
  | delEvent hp => exact h.move hp (Or.inl rfl)
  | eventRemove hp =>
      apply Listed.unlisting ho h hp rfl true
      rintro c rfl
      rfl
  | closeFd hp => exact Listed.move h hp (Or.inr rfl)
  | @closeNew o fd hp =>
      have hgoto : Listed ((close s fd).goto o .gone) :=
        Listed.move h hp (Or.inr rfl)
      exact hgoto.accepted o _
  | deleteEvent hp => exact h.move hp (Or.inr rfl)
  | openOther hk hpos hfree => exact h.goto (by simp)
  | closeOther hk => exact Listed.goto h (by simp)

theorem listed_initial (h : Initial s) : Listed s := by
  intro fd c hc
  simp [h.clientHt] at hc

theorem Owned.call (ho : Owned s) (hcall : Call s a s') : Owned s' := by
  cases hcall with
  | step hstep => exact ho.step hstep
  | accept hc hpos hfree => exact ho.open hfree hpos _
  | acceptFails hc => exact ho.refuse hc
  | noRoom hp => exact ho.goto hp rfl (by simp [Refused])

theorem Listed.call (ho : Owned s) (h : Listed s) (hcall : Call s a s') : Listed s' := by
  cases hcall with
  | step hstep => exact h.step ho hstep
  | accept hc hpos hfree => exact h.move hc (Or.inr rfl)
  | acceptFails hc => exact h.move hc (Or.inr rfl)
  | noRoom hp => exact h.move hp (Or.inl rfl)

theorem reachable_listed (h : Reachable Initial Call s) : Owned s ∧ Listed s :=
  h.invariant (I := fun s => Owned s ∧ Listed s) (fun _ hi => ⟨owned_initial hi, listed_initial hi⟩)
    (fun _ _ _ hi hcall => ⟨Owned.call hi.1 hcall, hi.2.call hi.1 hcall⟩)

/-- An insert into `client_ht` finds its key absent, `server_free_client` removes no other client's
entry, and the client of an entry is still there with this descriptor. -/
theorem client_ht_exact (h : Reachable Initial Call s) :
    (∀ c fd, s.pc (.client c) = .listing fd → s.clientHt fd = none) ∧
      (∀ c fd del, s.pc (.client c) = .unlisting fd del → ∀ d, s.clientHt fd = some d → d = c) ∧
      ∀ fd c, s.clientHt fd = some c → (s.pc (.client c)).sock = some fd := by
  obtain ⟨ho, hlisted⟩ := reachable_listed h
  refine ⟨?_, ?_, ?_⟩
  · intro c fd hc
    exact clientHt_free ho hlisted hc
  · intro c fd del hc d hd
    exact clientHt_eq ho hlisted (by rw [hc]; rfl) hd
  · intro fd c hc
    exact sock_of_listed (hlisted fd c hc)

/-- The client 0 is gone, and the client 1 has got its number. -/
theorem client_ht_exact_reused : ∃ s : State, s.pc (.client 0) = .gone ∧ s.clientHt 5 = some 1 ∧
    (s.pc (.client 1)).sock = some 5 := by
  have h0 : Reachable Initial Call listening := .start listening_initial
  have h1 := h0.next (a := .process .listen) (.step (.process rfl))
  have h2 := h1.next (a := .accept 0 (some 5)) (.step (.accept rfl rfl (by decide) rfl))
  have h3 := h2.next (a := .sslHandshake 0 true) (.step (.sslHandshake true rfl))
  have h4 := h3.next (a := .listClient 0) (.step (.listClient rfl))
  have h5 := h4.next (a := .insertEvent (.client 0)) (.step (.insertEvent rfl rfl))
  have h6 := h5.next (a := .eventAdd (.client 0)) (.step (.eventAdd rfl ⟨rfl, Option.some_ne_none _⟩))
  have h7 := h6.next (a := .rearm .listen) (.step (.rearm (.inl rfl)))
  have h8 := h7.next (a := .process (.client 0)) (.step (.process rfl))
  have h9 := h8.next (a := .delEvent (.client 0)) (.step (.delEvent rfl))
  have h10 := h9.next (a := .eventRemove (.client 0)) (.step (.eventRemove rfl))
  have h11 := h10.next (a := .unlistClient 0) (.step (.unlistClient rfl))
  have h12 := h11.next (a := .closeFd (.client 0)) (.step (.closeFd rfl))
  have h13 := h12.next (a := .process .listen) (.step (.process rfl))
  have h14 := h13.next (a := .accept 1 (some 5)) (.step (.accept rfl rfl (by decide) rfl))
  have h15 := h14.next (a := .sslHandshake 1 true) (.step (.sslHandshake true rfl))
  have h16 := h15.next (a := .listClient 1) (.step (.listClient rfl))
  have h17 := h16.next (a := .deleteEvent (.client 0)) (.step (.deleteEvent rfl))
  exact ⟨_, rfl, rfl, (client_ht_exact h17).2.2 5 1 rfl⟩

end ChityChat.ClientTable
