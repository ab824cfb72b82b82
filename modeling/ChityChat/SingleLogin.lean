import ChityChat.UserEntries

namespace ChityChat.SingleLogin

open Transition UserLogin UserEntries

variable {C W : Type} [DecidableEq C] [DecidableEq W]

/-- Where a worker is inside `server_set_client_logged_in` or `server_free_client`. -/
inductive Phase (C : Type)
  | idle
  | checked (c : C) (userId : Nat)
  | assigned (c : C) (userId : Nat)
  | inserted (c : C)
  | removed (c : C)

def Phase.entering : Phase C → Option (Nat × C)
  | checked c userId => some (userId, c)
  | assigned c userId => some (userId, c)
  | _ => none

def Phase.leaving : Phase C → Option C
  | removed c => some c
  | _ => none

structure Workers (C W : Type) where
  server : Server C
  phase : W → Phase C

inductive Action (C W : Type)
  | accept (c : C)
  | check (w : W) (c : C) (userId : Nat)
  | assign (w : W)
  | insert (w : W)
  | mark (w : W) (sent : Bool)
  | remove (w : W) (c : C)
  | release (w : W)

def Workers.become (s : Workers C W) (server : Server C) (w : W) (phase : Phase C) : Workers C W :=
  ⟨server, Function.update s.phase w phase⟩

/-- The operations on `user_ht` are atomic, and other workers may take steps between them. A login
command whose user is found checks the table at any time after it was sent. -/
inductive Step : Workers C W → Action C W → Workers C W → Prop
  | accept {s : Workers C W} {c : C} (h : s.server.clients c = none) :
    Step s (.accept c) { s with server := serverAcceptClient s.server c }
  | check {s : Workers C W} {w : W} {c : C} (userId : Nat) (hw : s.phase w = .idle)
      (hc : s.server.clients c ≠ none) :
    Step s (.check w c userId)
      (s.become s.server w (if (s.server.userHt userId).isSome then .idle else .checked c userId))
  | assign {s : Workers C W} {w : W} {c : C} {userId : Nat} (hw : s.phase w = .checked c userId) :
    Step s (.assign w) (s.become (assignDbuser s.server c userId) w (.assigned c userId))
  | insert {s : Workers C W} {w : W} {c : C} {userId : Nat} (hw : s.phase w = .assigned c userId) :
    Step s (.insert w) (s.become (insertUser s.server userId c) w (.inserted c))
  | mark {s : Workers C W} {w : W} {c : C} (sent : Bool) (hw : s.phase w = .inserted c) :
    Step s (.mark w sent) (s.become (if sent then markLoggedIn s.server c else s.server) w .idle)
  | remove {s : Workers C W} {w : W} {c : C} (hw : s.phase w = .idle) (hc : Connected s.server c)
    (hother : ∀ v, (s.phase v).leaving ≠ some c) :
    Step s (.remove w c) (s.become (removeUser s.server c) w (.removed c))
  | release {s : Workers C W} {w : W} {c : C} (hw : s.phase w = .removed c) :
    Step s (.release w) (s.become (release s.server c) w .idle)

structure Initial (s : Workers C W) : Prop where
  clients : ∀ c, s.server.clients c = none
  userHt : ∀ userId, s.server.userHt userId = none
  phase : ∀ w, s.phase w = .idle

def Carries (s : Server C) (userId : Nat) (c : C) : Prop :=
  ∃ client, s.clients c = some client ∧ client.freed = false ∧ client.dbuser = some userId

def AtMostOneLogin (s : Server C) : Prop :=
  ∀ userId c d client client', s.clients c = some client → s.clients d = some client' →
    client.freed = false → client'.freed = false → client.loggedIn = true →
      client'.loggedIn = true → client.dbuser = some userId → client'.dbuser = some userId → c = d

def Entering (s : Workers C W) (userId : Nat) (c : C) : Prop :=
  ∃ w, (s.phase w).entering = some (userId, c)

def Leaving (s : Workers C W) (c : C) : Prop := ∃ w, (s.phase w).leaving = some c

/-- A check that passes does not fall between the check and the insert for another client, nor
between the removal of another client of that user and its release. -/
def Undisturbed (s : Workers C W) : Action C W → Prop
  | .check _ c userId => s.server.userHt userId = none →
      ∀ d, Entering s userId d ∨ (Leaving s d ∧ Carries s.server userId d) → d = c
  | _ => True

def Holds (s : Workers C W) (userId : Nat) (c : C) : Prop :=
  Carries s.server userId c ∨ Entering s userId c

structure Exclusive (s : Workers C W) : Prop where
  unique : ∀ userId c d, Holds s userId c → Holds s userId d → c = d
  entry : ∀ userId c, Holds s userId c →
    s.server.userHt userId = some c ∨ s.server.userHt userId = none ∧
      (Entering s userId c ∨ Leaving s c)

variable {s s' : Workers C W} {server : Server C} {w : W} {p : Phase C}
  {userId other : Nat} {c d : C}
  {a : Action C W} {client : Client}

section Labels

omit [DecidableEq C]

theorem exists_update_of_eq {L : Type} (label : Phase C → Option L)
    (h : label p = label (s.phase w)) (x : L) :
    (∃ v, label ((s.become server w p).phase v) = some x) ↔ ∃ v, label (s.phase v) = some x := by
  have heq : (fun v => label ((s.become server w p).phase v)) = fun v => label (s.phase v) := by
    funext v
    by_cases hv : v = w
    · simp [Workers.become, hv, h]
    · simp [Workers.become, hv]
  exact exists_congr (fun v => by rw [congrFun heq v])

theorem exists_update_of_none {L : Type} (label : Phase C → Option L) (h : label (s.phase w) = none)
    (x : L) :
    (∃ v, label ((s.become server w p).phase v) = some x) ↔ label p = some x ∨
      ∃ v, label (s.phase v) = some x := by
  constructor
  · rintro ⟨v, hv⟩
    by_cases hvw : v = w
    · exact .inl (by simpa [Workers.become, hvw] using hv)
    · exact .inr ⟨v, by simpa [Workers.become, hvw] using hv⟩
  · rintro (hp | ⟨v, hv⟩)
    · exact ⟨w, by simpa [Workers.become] using hp⟩
    · have hvw : v ≠ w := by rintro rfl; rw [h] at hv; cases hv
      exact ⟨v, by simpa [Workers.become, hvw] using hv⟩

theorem exists_of_update {L : Type} (label : Phase C → Option L) (hp : label p = none) (x : L)
    (h : ∃ v, label ((s.become server w p).phase v) = some x) :
    ∃ v, label (s.phase v) = some x := by
  obtain ⟨v, hv⟩ := h
  by_cases hvw : v = w
  · simp [Workers.become, hvw, hp] at hv
  · exact ⟨v, by simpa [Workers.become, hvw] using hv⟩

theorem exists_update_of_ne {L : Type} (label : Phase C → Option L) {x : L}
    (hne : label (s.phase w) ≠ some x) (h : ∃ v, label (s.phase v) = some x) :
    ∃ v, label ((s.become server w p).phase v) = some x := by
  obtain ⟨v, hv⟩ := h
  have hvw : v ≠ w := by
    rintro rfl
    exact hne hv
  exact ⟨v, by simpa [Workers.become, hvw] using hv⟩

end Labels

omit [DecidableEq W] in
theorem exclusive_accept (h : Exclusive s) (c : C) :
    Exclusive { s with server := serverAcceptClient s.server c } := by
  have hback : ∀ userId d, Holds { s with server := serverAcceptClient s.server c } userId d →
      Holds s userId d := by
    rintro userId d (⟨client, hclient, hfreed, huser⟩ | hent)
    · rw [serverAcceptClient_clients] at hclient
      split at hclient
      · cases hclient
        cases huser
      · exact .inl ⟨client, hclient, hfreed, huser⟩
    · exact .inr hent
  exact ⟨fun u c d hc hd => h.unique u c d (hback u c hc) (hback u d hd), fun u d hd =>
    h.entry u d (hback u d hd)⟩

section Check

variable (hw : s.phase w = .idle) (hht : s.server.userHt userId = none)
  (hund : ∀ d, Entering s userId d ∨ (Leaving s d ∧ Carries s.server userId d) → d = c)

include hht hund in
omit [DecidableEq C] [DecidableEq W] in
theorem eq_of_holds (h : Exclusive s) (hd : Holds s userId d) : d = c := by
  rcases h.entry userId d hd with hsome | ⟨-, henter | hleave⟩
  · rw [hht] at hsome
    cases hsome
  · exact hund d (.inl henter)
  · rcases hd with hcar | henter
    · exact hund d (.inr ⟨hleave, hcar⟩)
    · exact hund d (.inl henter)

include hw in
omit [DecidableEq C] in
theorem entering_checked (u : Nat) (d : C) :
    Entering (s.become s.server w (.checked c userId)) u d ↔
      some (userId, c) = some (u, d) ∨ Entering s u d :=
  exists_update_of_none Phase.entering (by rw [hw]; rfl) (u, d)

include hw hht hund

omit [DecidableEq C] in
theorem holds_checked (h : Exclusive s) (u : Nat) (d : C)
    (hd : Holds (s.become s.server w (.checked c userId)) u d) :
    (u = userId ∧ d = c) ∨ (u ≠ userId ∧ Holds s u d) := by
  rcases hd with hcar | hin
  · by_cases hu : u = userId
    · subst hu
      exact .inl ⟨rfl, eq_of_holds hht hund h (.inl hcar)⟩
    · exact .inr ⟨hu, .inl hcar⟩
  · rcases (entering_checked hw u d).mp hin with heq | henter
    · cases heq
      exact .inl ⟨rfl, rfl⟩
    · by_cases hu : u = userId
      · subst hu
        exact .inl ⟨rfl, eq_of_holds hht hund h (.inr henter)⟩
      · exact .inr ⟨hu, .inr henter⟩

omit [DecidableEq C] in
theorem exclusive_checked (h : Exclusive s) :
    Exclusive (s.become s.server w (.checked c userId)) := by
  have hlea : ∀ d, Leaving (s.become s.server w (.checked c userId)) d ↔ Leaving s d :=
    fun d => exists_update_of_eq Phase.leaving (by rw [hw]; rfl) d
  constructor
  · intro u d e hd he
    rcases holds_checked hw hht hund h u d hd with ⟨hu, rfl⟩ | ⟨hu, hd⟩
    · rcases holds_checked hw hht hund h u e he with ⟨-, rfl⟩ | ⟨hne, -⟩
      · rfl
      · exact absurd hu hne
    · rcases holds_checked hw hht hund h u e he with ⟨heq, -⟩ | ⟨-, he⟩
      · exact absurd heq hu
      · exact h.unique u d e hd he
  · intro u d hd
    rcases holds_checked hw hht hund h u d hd with ⟨rfl, rfl⟩ | ⟨-, hd⟩
    · exact .inr ⟨hht, .inl ((entering_checked hw _ _).mpr (.inl rfl))⟩
    · rcases h.entry u d hd with hsome | ⟨hnone, henter | hleave⟩
      · exact .inl hsome
      · exact .inr ⟨hnone, .inl ((entering_checked hw u d).mpr (.inr henter))⟩
      · exact .inr ⟨hnone, .inr ((hlea d).mpr hleave)⟩

end Check

omit [DecidableEq C] in
theorem exclusive_check (h : Exclusive s) (hw : s.phase w = .idle)
    (hund : s.server.userHt userId = none →
      ∀ d, Entering s userId d ∨ (Leaving s d ∧ Carries s.server userId d) → d = c) :
    Exclusive (s.become s.server w (if (s.server.userHt userId).isSome then .idle
      else .checked c userId)) := by
  cases hht : s.server.userHt userId with
  | some x =>
      have hsame : s.become s.server w (if (some x).isSome then .idle else .checked c userId) =
          s := by
        simp only [Option.isSome_some, if_true, Workers.become, ← hw, Function.update_eq_self]
      rw [hsame]
      exact h
  | none =>
      rw [Option.isSome_none, if_neg Bool.false_ne_true]
      exact exclusive_checked hw hht (hund hht) h

theorem exclusive_assign (h : Exclusive s) (hw : s.phase w = .checked c userId) :
    Exclusive (s.become (assignDbuser s.server c userId) w (.assigned c userId)) := by
  have hent : ∀ u d, Entering (s.become (assignDbuser s.server c userId) w
    (.assigned c userId)) u d ↔ Entering s u d :=
    fun u d => exists_update_of_eq Phase.entering (by rw [hw]; rfl) (u, d)
  have hlea : ∀ d, Leaving (s.become (assignDbuser s.server c userId) w (.assigned c userId)) d ↔
    Leaving s d :=
    fun d => exists_update_of_eq Phase.leaving (by rw [hw]; rfl) d
  have hback : ∀ u d, Holds (s.become (assignDbuser s.server c userId) w (.assigned c userId)) u d →
      Holds s u d := by
    rintro u d (⟨client, hclient, hfreed, huser⟩ | henter)
    · rw [Workers.become, assignDbuser, modify_clients] at hclient
      split at hclient
      · next hdc =>
          obtain ⟨client', -, rfl⟩ := Option.map_eq_some_iff.mp hclient
          cases huser
          exact .inr ⟨w, by rw [hw, hdc]; rfl⟩
      · exact .inl ⟨client, hclient, hfreed, huser⟩
    · exact .inr ((hent u d).mp henter)
  refine ⟨fun u d e hd he => h.unique u d e (hback u d hd) (hback u e he), fun u d hd => ?_⟩
  rw [hent, hlea]
  exact h.entry u d (hback u d hd)

omit [DecidableEq C] in
theorem exclusive_insert (h : Exclusive s) (hw : s.phase w = .assigned c userId) :
    Exclusive (s.become (insertUser s.server userId c) w (.inserted c)) := by
  have hback : ∀ u d, Holds (s.become (insertUser s.server userId c) w (.inserted c)) u d →
    Holds s u d :=
    fun u d hd => hd.imp_right (exists_of_update Phase.entering rfl (u, d))
  have hlea : ∀ d, Leaving (s.become (insertUser s.server userId c) w (.inserted c)) d ↔
    Leaving s d :=
    fun d => exists_update_of_eq Phase.leaving (by rw [hw]; rfl) d
  have hself : Holds s userId c := .inr ⟨w, by rw [hw]; rfl⟩
  refine ⟨fun u d e hd he => h.unique u d e (hback u d hd) (hback u e he), fun u d hd => ?_⟩
  have hold := hback u d hd
  by_cases hu : u = userId
  · subst hu
    obtain rfl := h.unique u d c hold hself
    rcases h.entry u d hold with hsome | ⟨hnone, -⟩
    · exact .inl (by simp [Workers.become, insertUser, hsome])
    · exact .inl (by simp [Workers.become, insertUser, hnone])
  · have hht : (insertUser s.server userId c).userHt u = s.server.userHt u := by
      rw [insertUser]
      split
      · rfl
      · exact Function.update_of_ne hu ..
    have hent : Entering s u d → Entering (s.become (insertUser s.server userId c) w
        (.inserted c)) u d := by
      refine exists_update_of_ne Phase.entering ?_
      rw [hw]
      rintro heq
      cases heq
      exact hu rfl
    rw [hlea]
    refine (h.entry u d hold).imp hht.trans (fun ⟨hnone, hor⟩ =>
      ⟨hht.trans hnone, hor.imp_left hent⟩)

theorem exclusive_mark (h : Exclusive s) (sent : Bool) (hw : s.phase w = .inserted c) :
    Exclusive (s.become (if sent then markLoggedIn s.server c else s.server) w .idle) := by
  have hent : ∀ u d, Entering (s.become (if sent then markLoggedIn s.server c
    else s.server) w .idle) u d ↔
      Entering s u d := fun u d => exists_update_of_eq Phase.entering (by rw [hw]; rfl) (u, d)
  have hlea : ∀ d, Leaving (s.become (if sent then markLoggedIn s.server c
    else s.server) w .idle) d ↔ Leaving s d :=
    fun d => exists_update_of_eq Phase.leaving (by rw [hw]; rfl) d
  have hback : ∀ u d, Holds (s.become (if sent then markLoggedIn s.server c
    else s.server) w .idle) u d → Holds s u d := by
    rintro u d (⟨client, hclient, hfreed, huser⟩ | henter)
    · cases sent with
      | false => exact .inl ⟨client, hclient, hfreed, huser⟩
      | true =>
          simp only [Workers.become, if_true, markLoggedIn, modify_clients] at hclient
          split at hclient
          · next hdc =>
              obtain ⟨client', hclient', rfl⟩ := Option.map_eq_some_iff.mp hclient
              exact .inl ⟨client', hdc ▸ hclient', hfreed, huser⟩
          · exact .inl ⟨client, hclient, hfreed, huser⟩
    · exact .inr ((hent u d).mp henter)
  have hht : (if sent then markLoggedIn s.server c else s.server).userHt =
    s.server.userHt := by cases sent <;> rfl
  refine ⟨fun u d e hd he => h.unique u d e (hback u d hd) (hback u e he), fun u d hd => ?_⟩
  rw [hent, hlea, Workers.become, hht]
  exact h.entry u d (hback u d hd)

omit [DecidableEq C] in
theorem exclusive_remove (h : Exclusive s) (hw : s.phase w = .idle) (hc : Connected s.server c) :
    Exclusive (s.become (removeUser s.server c) w (.removed c)) := by
  have hent : ∀ u d, Entering (s.become (removeUser s.server c) w (.removed c)) u d ↔
    Entering s u d :=
    fun u d => exists_update_of_eq Phase.entering (by rw [hw]; rfl) (u, d)
  have hlea : ∀ d, Leaving (s.become (removeUser s.server c) w (.removed c)) d ↔
    some c = some d ∨ Leaving s d :=
    fun d => exists_update_of_none Phase.leaving (by rw [hw]; rfl) d
  have hback : ∀ u d, Holds (s.become (removeUser s.server c) w (.removed c)) u d →
      Holds s u d := by
    rintro u d (⟨client, hclient, hfreed, huser⟩ | henter)
    · rw [Workers.become, removeUser_clients] at hclient
      exact .inl ⟨client, hclient, hfreed, huser⟩
    · exact .inr ((hent u d).mp henter)
  refine ⟨fun u d e hd he => h.unique u d e (hback u d hd) (hback u e he), fun u d hd => ?_⟩
  rw [hent, hlea, Workers.become, removeUser_userHt]
  obtain ⟨client, hclient, hfreed⟩ := hc
  by_cases huser : client.dbuser = some u
  · obtain rfl := h.unique u c d (.inl ⟨client, hclient, hfreed, huser⟩) (hback u d hd)
    exact .inr ⟨by rw [hclient, Option.bind_some, if_pos huser], .inr (.inl rfl)⟩
  · rw [hclient, Option.bind_some, if_neg huser]
    exact (h.entry u d (hback u d hd)).imp_right (fun ⟨hnone, hor⟩ => ⟨hnone, hor.imp_right .inr⟩)

theorem exclusive_release (h : Exclusive s) (hw : s.phase w = .removed c) :
    Exclusive (s.become (release s.server c) w .idle) := by
  have hent : ∀ u d, Entering (s.become (release s.server c) w .idle) u d ↔ Entering s u d :=
    fun u d => exists_update_of_eq Phase.entering (by rw [hw]; rfl) (u, d)
  have hlea : ∀ d, d ≠ c → Leaving s d → Leaving (s.become (release s.server c) w .idle) d := by
    intro d hd
    refine exists_update_of_ne Phase.leaving ?_
    rw [hw]
    rintro heq
    cases heq
    exact hd rfl
  have hback : ∀ u d, Holds (s.become (release s.server c) w .idle) u d → Holds s u d ∧
      (d = c → Entering s u d) := by
    rintro u d (⟨client, hclient, hfreed, huser⟩ | henter)
    · rw [Workers.become, release, modify_clients] at hclient
      split at hclient
      · obtain ⟨client', -, rfl⟩ := Option.map_eq_some_iff.mp hclient
        cases hfreed
      · next hdc => exact ⟨.inl ⟨client, hclient, hfreed, huser⟩, fun heq => absurd heq hdc⟩
    · exact ⟨.inr ((hent u d).mp henter), fun _ => (hent u d).mp henter⟩
  refine ⟨fun u d e hd he => h.unique u d e (hback u d hd).1 (hback u e he).1, fun u d hd => ?_⟩
  obtain ⟨hold, hsame⟩ := hback u d hd
  rw [hent]
  refine (h.entry u d hold).imp_right (And.imp_right fun hor => ?_)
  by_cases hdc : d = c
  · exact .inl (hsame hdc)
  · exact hor.imp_right (hlea d hdc)

theorem exclusive_step (h : Exclusive s) (hstep : Step s a s') (hund : Undisturbed s a) :
    Exclusive s' := by
  cases hstep with
  | accept => exact exclusive_accept h _
  | check userId hw _ => exact exclusive_check h hw hund
  | assign hw => exact exclusive_assign h hw
  | insert hw => exact exclusive_insert h hw
  | mark sent hw => exact exclusive_mark h sent hw
  | remove hw hc _ => exact exclusive_remove h hw hc
  | release hw => exact exclusive_release h hw

omit [DecidableEq C] [DecidableEq W] in
theorem exclusive_initial (h : Initial s) : Exclusive s := by
  have hnone : ∀ u d, ¬ Holds s u d := by
    rintro u d (⟨client, hclient, -⟩ | ⟨w, hw⟩)
    · rw [h.clients] at hclient
      cases hclient
    · rw [h.phase] at hw
      cases hw
  exact ⟨fun u c d hc => absurd hc (hnone u c), fun u c hc => absurd hc (hnone u c)⟩

/-- In every run whose checks are undisturbed, no user is logged in on two clients. -/
theorem undisturbed_single (h : Reachable Initial (fun s a s' => Step s a s' ∧ Undisturbed s a) s) :
    AtMostOneLogin s.server := by
  have hex : Exclusive s := h.invariant (fun _ => exclusive_initial)
    (fun _ _ _ hex hstep => exclusive_step hex hstep.1 hstep.2)
  intro u c d client client' hc hd hcf hdf _ _ hcu hdu
  exact hex.unique u c d (.inl ⟨client, hc, hcf, hcu⟩) (.inl ⟨client', hd, hdf, hdu⟩)

def idleWorkers : Workers Nat Bool := ⟨closed, fun _ => .idle⟩

theorem idleWorkers_initial : Initial idleWorkers := ⟨fun _ => rfl, fun _ => rfl, fun _ => rfl⟩

theorem undisturbed_single_once :
    ∃ s : Workers Nat Bool, s.server.userHt 1 = some 0 ∧ AtMostOneLogin s.server := by
  have h0 : Reachable Initial (fun s a s' => Step s a s' ∧ Undisturbed s a) idleWorkers :=
    .start idleWorkers_initial
  have h1 := h0.next ⟨.accept (c := 0) rfl, trivial⟩
  have h2 := h1.next ⟨.check (w := true) (c := 0) 1 rfl (by simp [serverAcceptClient]),
    fun _ d hd => by
    rcases hd with ⟨w, hw⟩ | ⟨⟨w, hw⟩, -⟩ <;> cases hw⟩
  have h3 := h2.next ⟨.assign (w := true) rfl, trivial⟩
  have h4 := h3.next ⟨.insert (w := true) rfl, trivial⟩
  have h5 := h4.next ⟨.mark (w := true) true rfl, trivial⟩
  exact ⟨_, rfl, undisturbed_single h5⟩

/-- Two workers log two clients in as user 1. Both check the table before either inserts. -/
theorem both_logged_in :
    ∃ s : Workers Nat Bool, Reachable Initial Step s ∧ ¬ AtMostOneLogin s.server := by
  have h0 : Reachable Initial Step idleWorkers := .start idleWorkers_initial
  have h1 := h0.next (.accept (c := 0) rfl)
  have h2 := h1.next (.accept (c := 1) rfl)
  have h3 := h2.next (.check (w := true) (c := 0) 1 rfl (by simp [serverAcceptClient]))
  have h4 := h3.next (.check (w := false) (c := 1) 1 rfl
    (by simp [Workers.become, serverAcceptClient]))
  have h5 := h4.next (.assign (w := true) rfl)
  have h6 := h5.next (.insert (w := true) rfl)
  have h7 := h6.next (.mark (w := true) true rfl)
  have h8 := h7.next (.assign (w := false) rfl)
  have h9 := h8.next (.insert (w := false) rfl)
  have h10 := h9.next (.mark (w := false) true rfl)
  refine ⟨_, h10, fun hsingle => ?_⟩
  exact absurd (hsingle 1 0 1 ⟨some 1, true, false⟩
    ⟨some 1, true, false⟩ rfl rfl rfl rfl rfl rfl rfl rfl) (by decide)

end ChityChat.SingleLogin
