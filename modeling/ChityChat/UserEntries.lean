import ChityChat.UserLogin

namespace ChityChat.UserEntries

open Transition UserLogin

variable {C : Type} [DecidableEq C] {s s' : Server C} {c d : C} {userId other : Nat}
  {client : Client} {e : Event C}

theorem modify_clients (s : Server C) (c d : C) (f : Client → Client) :
    (s.modify c f).clients d = if d = c then (s.clients c).map f else s.clients d :=
      Function.update_apply ..

theorem serverAcceptClient_clients (s : Server C) (c d : C) :
    (serverAcceptClient s c).clients d = if d = c then some ⟨none, false, false⟩ else s.clients d :=
  Function.update_apply ..

omit [DecidableEq C] in
theorem removeUser_clients (s : Server C) (c : C) : (removeUser s c).clients = s.clients := by
  rw [removeUser]
  split <;> rfl

omit [DecidableEq C] in
theorem removeUser_userHt (s : Server C) (c : C) (userId : Nat) : (removeUser s c).userHt userId =
    if (s.clients c).bind Client.dbuser = some userId then none else s.userHt userId := by
  rw [removeUser]
  cases (s.clients c).bind Client.dbuser with
  | none => rfl
  | some u => simp only [Function.update_apply, Option.some.injEq, eq_comm]

theorem serverFreeClient_clients (s : Server C) (c d : C) : (serverFreeClient s c).clients d =
    if d = c then (s.clients c).map (fun client => { client with freed := true })
      else s.clients d := by
  rw [serverFreeClient, release, modify_clients, removeUser_clients]

theorem serverFreeClient_userHt (s : Server C) (c : C) (userId : Nat) :
    (serverFreeClient s c).userHt userId =
    if (s.clients c).bind Client.dbuser = some userId then none else s.userHt userId :=
      removeUser_userHt s c userId

theorem loggedIn_clients (sent : Bool) (hnone : s.userHt userId = none) (c d : C) :
    (serverSetClientLoggedIn s c userId sent).2.clients d = if d = c then
      (s.clients c).map (fun client => ⟨some userId, client.loggedIn || sent, client.freed⟩)
        else s.clients d := by
  have h2 : ∀ d, (insertUser (assignDbuser s c userId) userId c).clients d = if d = c then
      (s.clients c).map (fun client => { client with dbuser := some userId }) else s.clients d :=
    fun d => modify_clients s c d _
  rw [serverSetClientLoggedIn, if_neg (by simp [hnone])]
  cases sent with
  | false => simp only [Bool.false_eq_true, if_false, h2, Bool.or_false]
  | true =>
      simp only [if_true, markLoggedIn, modify_clients, h2, Option.map_map, Bool.or_true]
      split <;> rfl

theorem loggedIn_userHt (sent : Bool) (hnone : s.userHt userId = none) (c : C) (other : Nat) :
    (serverSetClientLoggedIn s c userId sent).2.userHt other =
      if other = userId then some c else s.userHt other := by
  have hht : (insertUser (assignDbuser s c userId) userId c).userHt =
    Function.update s.userHt userId (some c) :=
    if_neg (by simp [assignDbuser, Server.modify, hnone])
  rw [serverSetClientLoggedIn, if_neg (by simp [hnone]), ← Function.update_apply, ← hht]
  cases sent <;> rfl

theorem loggedIn_refused (sent : Bool) (hsome : s.userHt userId ≠ none) (c : C) :
    (serverSetClientLoggedIn s c userId sent).2 = s := by
  rw [serverSetClientLoggedIn, if_pos (Option.isSome_iff_ne_none.mpr hsome)]

/-- The entry of a user and the users of connected clients determine each other. -/
structure Entered (s : Server C) : Prop where
  live : EntriesLive s
  entry : ∀ c client userId, s.clients c = some client → client.freed = false →
    client.dbuser = some userId → s.userHt userId = some c

omit [DecidableEq C] in
theorem entered_initial (h : Initial s) : Entered s where
  live userId c hc := by rw [h.userHt userId] at hc; cases hc
  entry c client userId hc := by rw [h.clients c] at hc; cases hc

theorem entered_accept (h : Entered s) (hc : s.clients c = none) :
    Entered (serverAcceptClient s c) where
  live userId d hd := by
    obtain ⟨client, hclient, hfreed, huser⟩ := h.live userId d hd
    have hdc : d ≠ c := fun heq => by rw [heq, hc] at hclient; cases hclient
    exact ⟨client, by rw [serverAcceptClient_clients, if_neg hdc, hclient], hfreed, huser⟩
  entry d client userId hd hfreed huser := by
    rw [serverAcceptClient_clients] at hd
    split at hd
    · cases hd
      cases huser
    · exact h.entry d client userId hd hfreed huser

theorem entered_disconnect (h : Entered s) (hc : s.clients c = some client)
    (hfreed : client.freed = false) :
    Entered (serverFreeClient s c) where
  live userId d hd := by
    rw [serverFreeClient_userHt, hc, Option.bind_some] at hd
    split at hd
    · cases hd
    · next hne =>
        obtain ⟨client', hclient', hfreed', huser'⟩ := h.live userId d hd
        have hdc : d ≠ c := by
          rintro rfl
          rw [hc, Option.some.injEq] at hclient'
          exact hne (hclient' ▸ huser')
        exact ⟨client', by rw [serverFreeClient_clients, if_neg hdc, hclient'], hfreed', huser'⟩
  entry d client' userId hd hfreed' huser' := by
    rw [serverFreeClient_clients, hc] at hd
    split at hd
    · cases hd
      cases hfreed'
    · next hdc =>
        have hentry := h.entry d client' userId hd hfreed' huser'
        rw [serverFreeClient_userHt, hc, Option.bind_some, if_neg, hentry]
        intro hsame
        rw [h.entry c client userId hc hfreed hsame, Option.some.injEq] at hentry
        exact hdc hentry.symm

theorem entered_login (h : Entered s) (sent : Bool) (hnone : s.userHt userId = none)
    (hc : s.clients c = some client) (hfreed : client.freed = false)
    (huser : client.dbuser = none) :
    Entered (serverSetClientLoggedIn s c userId sent).2 where
  live other d hd := by
    rw [loggedIn_userHt sent hnone] at hd
    rw [loggedIn_clients sent hnone, hc]
    split at hd
    · next hother =>
        cases hd
        exact ⟨_, if_pos rfl, hfreed, by rw [hother]⟩
    · obtain ⟨client', hclient', hfreed', huser'⟩ := h.live other d hd
      have hdc : d ≠ c := by
        rintro rfl
        rw [hc, Option.some.injEq] at hclient'
        rw [← hclient', huser] at huser'
        cases huser'
      exact ⟨client', by rw [if_neg hdc, hclient'], hfreed', huser'⟩
  entry d client' other hd hfreed' huser' := by
    rw [loggedIn_clients sent hnone, hc] at hd
    rw [loggedIn_userHt sent hnone]
    split at hd
    · next hdc =>
        cases hd
        cases huser'
        rw [if_pos rfl, hdc]
    · have hentry := h.entry d client' other hd hfreed' huser'
      rw [if_neg, hentry]
      rintro rfl
      rw [hnone] at hentry
      cases hentry

theorem login_stale (h : Entered s) (sent : Bool) (hnone : s.userHt userId = none)
    (hlive : EntriesLive (serverSetClientLoggedIn s c userId sent).2) :
    ∃ client, s.clients c = some client ∧ client.freed = false ∧ client.dbuser = none := by
  obtain ⟨client', hclient', hfreed', -⟩ :=
    hlive userId c (by rw [loggedIn_userHt sent hnone, if_pos rfl])
  rw [loggedIn_clients sent hnone, if_pos rfl] at hclient'
  obtain ⟨client, hclient, rfl⟩ := Option.map_eq_some_iff.mp hclient'
  refine ⟨client, hclient, hfreed', ?_⟩
  cases huser : client.dbuser with
  | none => rfl
  | some other =>
      have hentry := h.entry c client other hclient hfreed' huser
      have hother : other ≠ userId := by
        rintro rfl
        rw [hnone] at hentry
        cases hentry
      obtain ⟨client', hclient', -, huser'⟩ :=
        hlive other c (by rw [loggedIn_userHt sent hnone, if_neg hother, hentry])
      rw [loggedIn_clients sent hnone, if_pos rfl, hclient, Option.map_some,
        Option.some.injEq] at hclient'
      rw [← hclient', Option.some.injEq] at huser'
      exact absurd huser'.symm hother

omit [DecidableEq C] in
theorem entered_pending (h : Entered s) (pending : List (C × LoginCmd)) :
    Entered { s with pending := pending } :=
  ⟨h.live, h.entry⟩

theorem entered_step (h : Entered s) (hstep : Step s e s') :
    (FirstLogin s e → Entered s') ∧ (EntriesLive s' → FirstLogin s e) := by
  cases hstep with
  | accept hc => exact ⟨fun _ => entered_accept h hc, fun _ => trivial⟩
  | command cmd hc => exact ⟨fun _ => entered_pending h _, fun _ => trivial⟩
  | disconnect hc =>
      obtain ⟨client, hclient, hfreed⟩ := hc
      exact ⟨fun _ => entered_disconnect h hclient hfreed, fun _ => trivial⟩
  | complete before found sent hs =>
      cases found with
      | none => exact ⟨fun _ => entered_pending h _, fun _ => trivial⟩
      | some userId =>
          by_cases hnone : s.userHt userId = none
          · constructor
            · intro hfirst
              obtain ⟨client, hclient, hfreed, huser⟩ := hfirst hnone
              exact entered_pending (entered_login h sent hnone hclient hfreed huser) _
            · exact fun hlive _ => login_stale h sent hnone hlive
          · refine ⟨fun _ => ?_, fun _ hn => absurd hn hnone⟩
            rw [LoginCmd.exec, loggedIn_refused sent hnone]
            exact entered_pending h _

/-- As long as every login is the first one of a connected client, the entries are truthful; the
first login that is not makes one stale. -/
theorem firstLogin_live (h : Reachable Initial (fun s e s' => Step s e s' ∧ FirstLogin s e) s) :
    EntriesLive s ∧ ∀ e s', Step s e s' → (EntriesLive s' ↔ FirstLogin s e) := by
  have hentered : Entered s := h.invariant (fun _ => entered_initial)
    (fun _ _ _ hentered hstep => (entered_step hentered hstep.1).1 hstep.2)
  refine ⟨hentered.live, fun e s' hstep => ?_⟩
  have hiff := entered_step hentered hstep
  exact ⟨hiff.2, fun hfirst => (hiff.1 hfirst).live⟩

def closed : Server Nat := ⟨fun _ => none, fun _ => none, []⟩

theorem closed_initial : Initial closed := ⟨fun _ => rfl, fun _ => rfl, rfl⟩

theorem firstLogin_live_once : ∃ s : Server Nat, s.userHt 1 = some 0 ∧ EntriesLive s := by
  have h0 : Reachable Initial (fun s e s' => Step s e s' ∧ FirstLogin s e) closed :=
    .start closed_initial
  have h1 := h0.next ⟨.accept (c := 0) rfl, trivial⟩
  have h2 := h1.next ⟨.command (c := 0) .login ⟨_, rfl, rfl⟩, trivial⟩
  have h3 := h2.next ⟨.complete (c := 0) [] (some 1) true rfl, fun _ => ⟨_, rfl, rfl, rfl⟩⟩
  exact ⟨_, rfl, (firstLogin_live h3).1⟩

/-- A client that is logged in as user 1 logs in as user 2. The entry of user 1 stays. -/
theorem second_login_stale : ∃ s : Server Nat, Reachable Initial Step s ∧ ¬ EntriesLive s := by
  have h0 : Reachable Initial Step closed := .start closed_initial
  have h1 := h0.next (.accept (c := 0) rfl)
  have h2 := h1.next (.command (c := 0) .login ⟨_, rfl, rfl⟩)
  have h3 := h2.next (.complete (c := 0) [] (some 1) true rfl)
  have h4 := h3.next (.command (c := 0) .login ⟨_, rfl, rfl⟩)
  have h5 := h4.next (.complete (c := 0) [] (some 2) true rfl)
  refine ⟨_, h5, fun hlive => ?_⟩
  obtain ⟨client, hclient, -, huser⟩ := hlive 1 0 rfl
  cases hclient
  cases huser

end ChityChat.UserEntries
