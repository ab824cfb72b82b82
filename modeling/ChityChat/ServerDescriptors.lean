import ChityChat.TableTracking
import ChityChat.Transition

namespace ChityChat.ServerDescriptors

open Transition TableTracking

/-- What a descriptor is open for: the listening socket, the socket of a client, the `timerfd` of a
timer, or something without an event. An owner's event has the owner as its `data`. -/
inductive Owner
  | listen
  | client (c : Nat)
  | timer (t : Nat)
  | other (k : Nat)
  deriving DecidableEq

/-- The operation that comes next for an owner with this descriptor. Each is one atomic step of the
worker that handles the owner, whichever that is. `del` tells whether `server_del_event` is
under way, which goes on behind the close. -/
inductive Pc
  | absent
  | opened (fd : Int)
  | listing (fd : Int)
  | inserting (fd : Int)
  | adding (fd : Int)
  | registered (fd : Int)
  | processing (fd : Int)
  | accepting (fd : Int) (c : Nat)
  | rearming (fd : Int)
  | errRemoving (fd : Int)
  | errDeleting (fd : Int)
  | removing (fd : Int)
  | unlisting (fd : Int) (del : Bool)
  | closing (fd : Int) (del : Bool)
  | deleting (fd : Int)
  | gone
  deriving DecidableEq

namespace Pc

/-- The descriptor of an owner that is still there. A failed `accept` leaves -1 in `addr.sock`. -/
def sock : Pc → Option Int
  | opened fd | listing fd | inserting fd | adding fd | registered fd | processing fd
  | accepting fd _ | rearming fd | errRemoving fd | errDeleting fd | removing fd
  | unlisting fd _ | closing fd _ => some fd
  | absent | deleting _ | gone => none

def opens (p : Pc) : Option Int := p.sock.filter (0 ≤ ·)

end Pc

/-- The open descriptors, the epoll set, `event_ht`, `client_ht` and the progress of every owner. The
tables are maps here: what `server_ght_del` does to the other entries of a chain is left out. -/
structure State where
  owner : Int → Option Owner
  epoll : Int → Option Owner
  eventHt : Int → Option Owner
  clientHt : Int → Option Nat
  pc : Owner → Pc

def State.goto (s : State) (o : Owner) (p : Pc) : State := { s with pc := Function.update s.pc o p }

/-- `server_ght_insert` leaves an entry that is there alone. -/
def ghtInsert {α : Type} (table : Int → Option α) (fd : Int) (x : α) : Int → Option α :=
  if (table fd).isSome then table else Function.update table fd (some x)

/-- `epoll_ctl` adds an open descriptor that is not in the set. -/
def MayAdd (s : State) (fd : Int) : Prop := s.epoll fd = none ∧ s.owner fd ≠ none

def afterNewEvent (o : Owner) (fd : Int) : Pc :=
  match o with
  | .client _ => .unlisting fd false
  | _ => .closing fd false

def seClose (o : Owner) (fd : Int) : Pc :=
  match o with
  | .client _ => .unlisting fd true
  | _ => .closing fd true

/-- `se_accept_conn` goes on once `server_accept_client` is done with the client. -/
def accepted (s : State) (o : Owner) (next : Int → Pc) : State :=
  match o, s.pc .listen with
  | .client c, .accepting l d => if c = d then s.goto .listen (next l) else s
  | _, _ => s

def close (s : State) (fd : Int) : State :=
  { s with
    owner := Function.update s.owner fd none
    epoll := Function.update s.epoll fd none }

inductive Action
  | accept (c : Nat) (fd : Option Int)
  | sslHandshake (c : Nat) (ok : Bool)
  | listClient (c : Nat)
  | timerfdCreate (t : Nat) (fd : Int)
  | timerfdSettime (t : Nat) (ok : Bool)
  | insertEvent (o : Owner)
  | eventAdd (o : Owner)
  | errRemove (o : Owner)
  | errDelete (o : Owner)
  | process (o : Owner)
  | rearm (o : Owner)
  | delEvent (o : Owner)
  | eventRemove (o : Owner)
  | unlistClient (c : Nat)
  | closeFd (o : Owner)
  | deleteEvent (o : Owner)
  | openOther (k : Nat) (fd : Int)
  | closeOther (k : Nat)

/-- The steps of `server_accept_client`, `server_free_client`, `server_addtimer`,
`server_close_timer`, `server_new_event`, `server_del_event` and `server_process_event`, in any
order. The kernel hands out a number that is not open. An event that was reported stays disarmed
until it is rearmed. -/
inductive Step : State → Action → State → Prop
  | accept {s : State} {l : Int} {c : Nat} {fd : Int} (hl : s.pc .listen = .processing l)
      (hc : s.pc (.client c) = .absent) (hpos : 0 ≤ fd) (hfree : s.owner fd = none) :
    Step s (.accept c (some fd)) (({ s with
      owner := Function.update s.owner fd (some (.client c)) }.goto (.client c) (.opened fd)).goto
        .listen (.accepting l c))
  | acceptFails {s : State} {l : Int} {c : Nat} (hl : s.pc .listen = .processing l)
      (hc : s.pc (.client c) = .absent) :
    Step s (.accept c none)
      ((s.goto (.client c) (.unlisting (-1) false)).goto .listen (.accepting l c))
  | sslHandshake {s : State} {c : Nat} {fd : Int} (ok : Bool)
      (hc : s.pc (.client c) = .opened fd) :
    Step s (.sslHandshake c ok)
      (s.goto (.client c) (if ok then .listing fd else .unlisting fd false))
  | listClient {s : State} {c : Nat} {fd : Int} (hc : s.pc (.client c) = .listing fd) :
    Step s (.listClient c)
      ({ s with clientHt := ghtInsert s.clientHt fd c }.goto (.client c) (.inserting fd))
  | timerfdCreate {s : State} {t : Nat} {fd : Int} (ht : s.pc (.timer t) = .absent)
      (hpos : 0 ≤ fd) (hfree : s.owner fd = none) :
    Step s (.timerfdCreate t fd) ({ s with
      owner := Function.update s.owner fd (some (.timer t)) }.goto (.timer t) (.opened fd))
  | timerfdSettime {s : State} {t : Nat} {fd : Int} (ok : Bool)
      (ht : s.pc (.timer t) = .opened fd) :
    Step s (.timerfdSettime t ok)
      (s.goto (.timer t) (if ok then .inserting fd else .closing fd false))
  | insertEvent {s : State} {o : Owner} {fd : Int} (ho : s.pc o = .inserting fd)
      (hfree : s.eventHt fd = none) :
    Step s (.insertEvent o)
      ({ s with eventHt := ghtInsert s.eventHt fd o }.goto o (.adding fd))
  | insertEventFails {s : State} {o : Owner} {fd : Int} (ho : s.pc o = .inserting fd)
      (htaken : s.eventHt fd ≠ none) :
    Step s (.insertEvent o)
      ({ s with eventHt := ghtInsert s.eventHt fd o }.goto o (.errRemoving fd))
  | eventAdd {s : State} {o : Owner} {fd : Int} (ho : s.pc o = .adding fd) (hadd : MayAdd s fd) :
    Step s (.eventAdd o) (accepted ({ s with
      epoll := Function.update s.epoll fd (some o) }.goto o (.registered fd)) o .rearming)
  | eventAddFails {s : State} {o : Owner} {fd : Int} (ho : s.pc o = .adding fd)
      (hadd : ¬ MayAdd s fd) :
    Step s (.eventAdd o) (s.goto o (.errRemoving fd))
  | errRemove {s : State} {o : Owner} {fd : Int} (ho : s.pc o = .errRemoving fd) :
    Step s (.errRemove o)
      ({ s with epoll := Function.update s.epoll fd none }.goto o (.errDeleting fd))
  | errDelete {s : State} {o : Owner} {fd : Int} (ho : s.pc o = .errDeleting fd) :
    Step s (.errDelete o)
      ({ s with eventHt := Function.update s.eventHt fd none }.goto o (afterNewEvent o fd))
  | process {s : State} {o : Owner} {fd : Int} (ho : s.pc o = .registered fd) :
    Step s (.process o) (s.goto o (.processing fd))
  | rearm {s : State} {o : Owner} {fd : Int}
      (ho : s.pc o = .rearming fd ∨ o ≠ .listen ∧ s.pc o = .processing fd) :
    Step s (.rearm o) (s.goto o (.registered fd))
  | delEvent {s : State} {o : Owner} {fd : Int} (ho : s.pc o = .processing fd) :
    Step s (.delEvent o) (s.goto o (.removing fd))
  | eventRemove {s : State} {o : Owner} {fd : Int} (ho : s.pc o = .removing fd) :
    Step s (.eventRemove o)
      ({ s with epoll := Function.update s.epoll fd none }.goto o (seClose o fd))
  | unlistClient {s : State} {c : Nat} {fd : Int} {del : Bool}
      (hc : s.pc (.client c) = .unlisting fd del) :
    Step s (.unlistClient c)
      ({ s with clientHt := Function.update s.clientHt fd none }.goto (.client c) (.closing fd del))
  | closeFd {s : State} {o : Owner} {fd : Int} (ho : s.pc o = .closing fd true) :
    Step s (.closeFd o) ((close s fd).goto o (.deleting fd))
  | closeNew {s : State} {o : Owner} {fd : Int} (ho : s.pc o = .closing fd false) :
    Step s (.closeFd o) (accepted ((close s fd).goto o .gone) o .removing)
  | deleteEvent {s : State} {o : Owner} {fd : Int} (ho : s.pc o = .deleting fd) :
    Step s (.deleteEvent o)
      ({ s with eventHt := Function.update s.eventHt fd none }.goto o .gone)
  | openOther {s : State} {k : Nat} {fd : Int} (hk : s.pc (.other k) = .absent) (hpos : 0 ≤ fd)
      (hfree : s.owner fd = none) :
    Step s (.openOther k fd) ({ s with
      owner := Function.update s.owner fd (some (.other k)) }.goto (.other k) (.opened fd))
  | closeOther {s : State} {k : Nat} {fd : Int} (hk : s.pc (.other k) = .opened fd) :
    Step s (.closeOther k) ((close s fd).goto (.other k) .gone)

/-- The listening socket is registered. Other descriptors may be open, without events: the eventfd, whose
event is never deleted, is one of them. -/
structure Initial (s : State) : Prop where
  listen : ∃ l, 0 ≤ l ∧ s.owner l = some .listen ∧ s.pc .listen = .registered l ∧
    s.epoll = Function.update (fun _ => none) l (some .listen) ∧
    s.eventHt = Function.update (fun _ => none) l (some .listen)
  clientHt : s.clientHt = fun _ => none
  clients : ∀ c, s.pc (.client c) = .absent
  timers : ∀ t, s.pc (.timer t) = .absent
  others : ∀ k, s.pc (.other k) = .absent ∨ ∃ fd, 0 ≤ fd ∧ s.pc (.other k) = .opened fd
  owners : ∀ fd o, s.owner fd = some o ↔ s.pc o = .opened fd ∨ s.pc o = .registered fd

variable {s s' : State} {a : Action}

theorem goto_forall {P : Owner → Pc → Prop} (h : ∀ q, P q (s.pc q)) {o : Owner} {p : Pc}
    (hp : P o p) : ∀ q, P q ((s.goto o p).pc q) :=
  (Function.forall_update_iff s.pc P).mpr ⟨hp, fun q _ => h q⟩

theorem goto_client_listen (s : State) (c : Nat) (p : Pc) :
    (s.goto (.client c) p).pc .listen = s.pc .listen := by
  have hne : Owner.listen ≠ .client c := nofun
  exact Function.update_of_ne hne p s.pc

theorem opens_nonneg {p : Pc} {fd : Int} (h : p.opens = some fd) : 0 ≤ fd := by
  have := (Option.filter_eq_some_iff.mp h).2
  simpa using this

theorem opens_of_nonneg {p : Pc} {fd : Int} (h : p.sock = some fd) (hpos : 0 ≤ fd) :
    p.opens = some fd := by
  rw [Pc.opens, h, Option.filter_some, if_pos (by simpa using hpos)]

theorem sock_of_opens {p : Pc} {fd : Int} (h : p.opens = some fd) : p.sock = some fd :=
  (Option.filter_eq_some_iff.mp h).1

theorem sock_afterNewEvent (o : Owner) (fd : Int) : (afterNewEvent o fd).sock = some fd := by
  cases o <;> rfl

theorem sock_seClose (o : Owner) (fd : Int) : (seClose o fd).sock = some fd := by
  cases o <;> rfl

theorem opens_eq_of_sock {p q : Pc} (h : p.sock = q.sock) : p.opens = q.opens := by
  rw [Pc.opens, h, Pc.opens]

theorem ghtInsert_of_none {α : Type} {table : Int → Option α} {fd : Int} (h : table fd = none)
    (x : α) : ghtInsert table fd x = Function.update table fd (some x) := by
  rw [ghtInsert, h, if_neg (by simp)]

theorem ghtInsert_apply_of_ne {α : Type} (table : Int → Option α) {fd n : Int} (h : n ≠ fd)
    (x : α) : ghtInsert table fd x n = table n := by
  rw [ghtInsert]
  split
  · rfl
  · exact Function.update_of_ne h ..

theorem accepted_cases (s : State) (o : Owner) (next : Int → Pc) :
    accepted s o next = s ∨ ∃ l c, o = .client c ∧ s.pc .listen = .accepting l c ∧
      accepted s o next = s.goto .listen (next l) := by
  unfold accepted
  split
  · rename_i c l d hl
    by_cases hcd : c = d
    · subst hcd
      exact Or.inr ⟨l, c, rfl, hl, if_pos rfl⟩
    · exact Or.inl (if_neg hcd)
  · exact Or.inl rfl

def Refused (fd : Int) (p : Pc) : Prop := p = .unlisting fd false ∨ p = .closing fd false

/-- Every descriptor that an owner has is its own, and a number behind a failed `accept` aside it
is one. -/
structure Owned (s : State) : Prop where
  held : Held s.owner s.pc Pc.opens
  nonneg : ∀ o fd, (s.pc o).sock = some fd → 0 ≤ fd ∨ Refused fd (s.pc o)

theorem Owned.eq (h : Owned s) {o q : Owner} {fd : Int} (hpos : 0 ≤ fd)
    (ho : (s.pc o).sock = some fd) (hq : (s.pc q).sock = some fd) : o = q :=
  h.held.unique (opens_of_nonneg ho hpos) (opens_of_nonneg hq hpos)

theorem Owned.pos (h : Owned s) {o : Owner} {q : Pc} (ho : s.pc o = q) {fd : Int}
    (hq : q.sock = some fd) (hrefused : ¬ Refused fd q) : 0 ≤ fd := by
  subst ho
  exact (h.nonneg o fd hq).resolve_right hrefused

theorem nonneg_goto (h : ∀ o fd, (s.pc o).sock = some fd → 0 ≤ fd ∨ Refused fd (s.pc o)) {o : Owner}
    {p : Pc} (hp : ∀ fd, p.sock = some fd → 0 ≤ fd ∨ Refused fd p) :
    ∀ q fd, ((s.goto o p).pc q).sock = some fd → 0 ≤ fd ∨ Refused fd ((s.goto o p).pc q) :=
  goto_forall (P := fun _ p => ∀ fd, p.sock = some fd → 0 ≤ fd ∨ Refused fd p) h hp

theorem Owned.tables (h : Owned s) (epoll eventHt : Int → Option Owner)
    (clientHt : Int → Option Nat) : Owned { s with epoll, eventHt, clientHt } :=
  ⟨h.held, h.nonneg⟩

theorem Owned.goto (h : Owned s) {o : Owner} {p q : Pc} (ho : s.pc o = q) (hp : p.sock = q.sock)
    (hrefused : ∀ fd, Refused fd q → Refused fd p) : Owned (s.goto o p) := by
  subst ho
  exact {
    held := h.held.move (Or.inl (opens_eq_of_sock hp))
    nonneg := nonneg_goto h.nonneg
      (fun fd hfd => (h.nonneg o fd (hp ▸ hfd)).imp_right (hrefused fd)) }

theorem Owned.open (h : Owned s) {fd : Int} (hfree : s.owner fd = none) (hpos : 0 ≤ fd)
    (o : Owner) :
    Owned ({ s with owner := Function.update s.owner fd (some o) }.goto o (.opened fd)) where
  held := h.held.insert hfree (opens_of_nonneg rfl hpos)
  nonneg := nonneg_goto h.nonneg (by
    intro n hn
    rw [Pc.sock, Option.some.injEq] at hn
    exact Or.inl (hn ▸ hpos))

theorem Owned.refuse (h : Owned s) {o : Owner} (ho : s.pc o = .absent) :
    Owned (s.goto o (.unlisting (-1) false)) where
  held := h.held.move (Or.inl (by rw [ho]; rfl))
  nonneg := nonneg_goto h.nonneg (by simp [Pc.sock, Refused])

theorem Owned.close (h : Owned s) {o : Owner} {p q : Pc} {fd : Int} (ho : s.pc o = q)
    (hq : q.sock = some fd) (hp : p.sock = none) : Owned ((close s fd).goto o p) where
  held := by
    subst ho
    have hnone : p.opens = none := by
      rw [Pc.opens, hp, Option.filter_none]
    by_cases hpos : 0 ≤ fd
    · exact h.held.delete (opens_of_nonneg hq hpos) hnone
    · exact (h.held.clear (fun b hb => hpos (opens_nonneg hb))).move (Or.inr hnone)
  nonneg := nonneg_goto h.nonneg (by simp [hp])

theorem Owned.accepted (h : Owned s) (o : Owner) {next : Int → Pc}
    (hnext : ∀ l, (next l).sock = some l) : Owned (accepted s o next) := by
  rcases accepted_cases s o next with he | ⟨l, c, -, hl, he⟩
  · rwa [he]
  · rw [he]
    exact h.goto hl (hnext l) (by simp [Refused])

theorem owned_initial (h : Initial s) : Owned s := by
  obtain ⟨l, hpos, -, hl, -⟩ := h.listen
  constructor
  · intro fd o ho
    rw [h.owners]
    have hsock := sock_of_opens ho
    cases o with
    | listen => simpa [hl, Pc.sock] using hsock
    | client c => simp [h.clients, Pc.sock] at hsock
    | timer t => simp [h.timers, Pc.sock] at hsock
    | other k =>
        rcases h.others k with hk | ⟨n, -, hk⟩
        · simp [hk, Pc.sock] at hsock
        · simpa [hk, Pc.sock] using hsock
  · intro o fd hsock
    left
    cases o with
    | listen =>
        obtain rfl : l = fd := by simpa [hl, Pc.sock] using hsock
        exact hpos
    | client c => simp [h.clients, Pc.sock] at hsock
    | timer t => simp [h.timers, Pc.sock] at hsock
    | other k =>
        rcases h.others k with hk | ⟨n, hn, hk⟩
        · simp [hk, Pc.sock] at hsock
        · obtain rfl : n = fd := by simpa [hk, Pc.sock] using hsock
          exact hn

theorem Owned.step (h : Owned s) (hstep : Step s a s') : Owned s' := by
  cases hstep with
  | @accept l c fd hl hc hpos hfree =>
      exact (h.open hfree hpos _).goto ((goto_client_listen ..).trans hl) rfl (by simp [Refused])
  | acceptFails hl hc =>
      exact (h.refuse hc).goto ((goto_client_listen ..).trans hl) rfl (by simp [Refused])
  | sslHandshake ok hc =>
      exact h.goto hc (by cases ok <;> rfl) (by simp [Refused])
  | listClient hc => exact (h.tables _ _ _).goto hc rfl (by simp [Refused])
  | timerfdCreate ht hpos hfree => exact h.open hfree hpos _
  | timerfdSettime ok ht => exact h.goto ht (by cases ok <;> rfl) (by simp [Refused])
  | insertEvent ho hfree => exact (h.tables _ _ _).goto ho rfl (by simp [Refused])
  | insertEventFails ho htaken => exact (h.tables _ _ _).goto ho rfl (by simp [Refused])
  | eventAdd ho hadd =>
      refine Owned.accepted ?_ _ (fun _ => rfl)
      exact (h.tables _ _ _).goto ho rfl (by simp [Refused])
  | eventAddFails ho hadd => exact h.goto ho rfl (by simp [Refused])
  | errRemove ho => exact (h.tables _ _ _).goto ho rfl (by simp [Refused])
  | errDelete ho => exact (h.tables _ _ _).goto ho (sock_afterNewEvent ..) (by simp [Refused])
  | process ho => exact h.goto ho rfl (by simp [Refused])
  | rearm ho =>
      rcases ho with ho | ⟨-, ho⟩
      · exact h.goto ho rfl (by simp [Refused])
      · exact h.goto ho rfl (by simp [Refused])
  | delEvent ho => exact h.goto ho rfl (by simp [Refused])
  | eventRemove ho => exact (h.tables _ _ _).goto ho (sock_seClose ..) (by simp [Refused])
  | unlistClient hc =>
      refine (h.tables _ _ _).goto hc rfl ?_
      rintro fd (hfd | hfd)
      · rw [Pc.unlisting.injEq] at hfd
        exact Or.inr (by rw [hfd.1, hfd.2])
      · cases hfd
  | closeFd ho => exact h.close ho rfl rfl
  | closeNew ho =>
      refine Owned.accepted ?_ _ (fun _ => rfl)
      exact h.close ho rfl rfl
  | deleteEvent ho => exact (h.tables _ _ _).goto ho rfl (by simp [Refused])
  | openOther hk hpos hfree => exact h.open hfree hpos _
  | closeOther hk => exact h.close hk rfl rfl

def polled : Pc → Option Int
  | .registered fd | .processing fd | .accepting fd _ | .rearming fd | .removing fd => some fd
  | _ => none

/-- The epoll set has only events that were added and not yet removed. -/
def Polled (s : State) : Prop := Within s.epoll s.pc polled

theorem sock_of_polled {p : Pc} {fd : Int} (h : polled p = some fd) : p.sock = some fd := by
  cases p with
  | registered | processing | accepting | rearming | removing => exact h
  | absent | opened | listing | inserting | adding | errRemoving | errDeleting | unlisting | closing
  | deleting | gone => cases h

theorem polled_nonneg (ho : Owned s) {o : Owner} {fd : Int} (h : polled (s.pc o) = some fd) :
    0 ≤ fd := by
  apply ho.pos rfl (sock_of_polled h)
  rintro (hp | hp)
  · rw [hp] at h
    cases h
  · rw [hp] at h
    cases h

theorem polled_eq (ho : Owned s) {o q : Owner} {fd : Int} (hsock : (s.pc o).sock = some fd)
    (h : polled (s.pc q) = some fd) : q = o :=
  ho.eq (polled_nonneg ho h) (sock_of_polled h) hsock

theorem mayAdd (ho : Owned s) (h : Polled s) {o : Owner} {fd : Int} (hp : s.pc o = .adding fd) :
    MayAdd s fd := by
  have hsock : (s.pc o).sock = some fd := by rw [hp]; rfl
  have hpos : 0 ≤ fd := ho.pos hp rfl (by simp [Refused])
  constructor
  · cases hq : s.epoll fd with
    | none => rfl
    | some q =>
        have hpolled := h fd q hq
        obtain rfl := polled_eq ho hsock hpolled
        simp [hp, polled] at hpolled
  · rw [ho.held fd o (opens_of_nonneg hsock hpos)]
    simp

theorem Polled.goto (h : Polled s) {o : Owner} {p q : Pc} (ho : s.pc o = q)
    (hp : polled p = polled q ∨ polled q = none) : Polled (s.goto o p) :=
  Within.move h (ho ▸ hp)

theorem Polled.accepted (h : Polled s) (o : Owner) {next : Int → Pc}
    (hnext : ∀ l, polled (next l) = some l) : Polled (accepted s o next) := by
  rcases accepted_cases s o next with he | ⟨l, c, -, hl, he⟩
  · rwa [he]
  · rw [he]
    exact h.goto hl (Or.inl (hnext l))

theorem polled_close (h : Polled s) (fd : Int) : Polled (close s fd) := h.clear fd

theorem polled_initial (h : Initial s) : Polled s := by
  obtain ⟨l, -, -, hl, hepoll, -⟩ := h.listen
  rw [Polled, hepoll]
  exact within_single (by rw [hl]; rfl)

theorem Polled.step (h : Polled s) (hstep : Step s a s') : Polled s' := by
  cases hstep with
  | accept hl hc hpos hfree =>
      exact Polled.goto (Polled.goto h hc (Or.inr rfl)) ((goto_client_listen ..).trans hl)
        (Or.inl rfl)
  | acceptFails hl hc =>
      exact Polled.goto (Polled.goto h hc (Or.inr rfl)) ((goto_client_listen ..).trans hl)
        (Or.inl rfl)
  | sslHandshake ok hc => exact h.goto hc (Or.inr rfl)
  | listClient hc => exact Polled.goto h hc (Or.inr rfl)
  | timerfdCreate ht hpos hfree => exact Polled.goto h ht (Or.inr rfl)
  | timerfdSettime ok ht => exact h.goto ht (Or.inr rfl)
  | insertEvent ho hfree => exact Polled.goto h ho (Or.inr rfl)
  | insertEventFails ho htaken => exact Polled.goto h ho (Or.inr rfl)
  | @eventAdd o fd ho hadd =>
      have hgoto : Polled ({ s with epoll := Function.update s.epoll fd (some o) }.goto o
          (.registered fd)) := Within.insert h (by rw [ho]; rfl) rfl
      exact hgoto.accepted o (fun _ => rfl)
  | eventAddFails ho hadd => exact h.goto ho (Or.inr rfl)
  | @errRemove o fd ho => exact Within.move (h.clear fd) (Or.inr (by rw [ho]; rfl))
  | errDelete ho => exact Polled.goto h ho (Or.inr rfl)
  | process ho => exact h.goto ho (Or.inl rfl)
  | rearm ho =>
      rcases ho with ho | ⟨-, ho⟩
      · exact h.goto ho (Or.inl rfl)
      · exact h.goto ho (Or.inl rfl)
  | delEvent ho => exact h.goto ho (Or.inl rfl)
  | @eventRemove o fd ho =>
      apply Within.delete h
      intro n hn
      rw [ho] at hn
      exact (Option.some.inj hn).symm
  | unlistClient hc => exact Polled.goto h hc (Or.inr rfl)
  | closeFd ho => exact (polled_close h _).goto ho (Or.inr rfl)
  | @closeNew o fd ho =>
      have hgone : Polled ((close s fd).goto o .gone) :=
        (polled_close h fd).goto ho (Or.inr rfl)
      exact hgone.accepted o (fun _ => rfl)
  | deleteEvent ho => exact Polled.goto h ho (Or.inr rfl)
  | openOther hk hpos hfree => exact Polled.goto h hk (Or.inr rfl)
  | closeOther hk => exact (polled_close h _).goto hk (Or.inr rfl)

def listening : State where
  owner := Function.update (fun _ => none) 3 (some .listen)
  epoll := Function.update (fun _ => none) 3 (some .listen)
  eventHt := Function.update (fun _ => none) 3 (some .listen)
  clientHt := fun _ => none
  pc := Function.update (fun _ => .absent) .listen (.registered 3)

theorem listening_initial : Initial listening where
  listen := ⟨3, by decide, rfl, rfl, rfl, rfl⟩
  clientHt := rfl
  clients _ := rfl
  timers _ := rfl
  others _ := Or.inl rfl
  owners fd o := by
    by_cases ho : o = .listen
    · subst ho
      simp [listening, Function.update_apply, eq_comm]
    · simp [listening, Function.update_apply, ho, Ne.symm ho]

end ChityChat.ServerDescriptors
