import ChityChat.FreedClients
import ChityChat.ServerWebsocket
import ChityChat.UserEntries

namespace ChityChat.OfflineBroadcast

open Transition UserLogin UserEntries
open FreedClients (serverGhtDel)
open ServerWebsocket (RecvStatus)

variable {C : Type} [DecidableEq C]

/-- What is written down of a run: a client became a user, `server_rtusm_user_disconnect` was called
for a user, a client was freed, with what `server->running` was. -/
inductive Note (C : Type)
  | loggedIn (c : C) (userId : Nat)
  | offline (userId : Nat)
  | freed (c : C) (running : Bool)

structure State (C : Type) where
  server : Server C
  running : Bool
  log : List (Note C)

def State.note (s : State C) (notes : List (Note C)) : State C := { s with log := s.log ++ notes }

inductive SeStatus
  | ok
  | close
  | error
  deriving DecidableEq

def epollin : UInt32 := 0x1

def epollerr : UInt32 := 0x8

def epollhup : UInt32 := 0x10

def epollrdhup : UInt32 := 0x2000

def epipe : Int := 32

/-- Whether `getsockopt` succeeds, what `errno` is then, and what is in the memory of `err`. -/
structure SockErr where
  getsockopt : Bool
  errno : Int
  err : Int

def serverPrintSockerr (sock : SockErr) : Int := if sock.getsockopt then sock.errno else sock.err

/-- What `server_recv` returns, the login commands among the frames, and what parsing them
returned. -/
structure Recv where
  bytesRecv : Int
  commands : List LoginCmd
  status : RecvStatus

/-- What `epoll_wait` reported, with what is then read. `lost` are the users that `server_ght_del`
cuts off `user_ht`. -/
structure Ready where
  epEvents : UInt32
  sock : SockErr
  recv : Recv
  lost : List Nat

def dbuserOf (s : Server C) (c : C) : Option Nat := (s.clients c).bind Client.dbuser

def queue (s : State C) (c : C) (commands : List LoginCmd) : State C :=
  { s with server.pending := s.server.pending ++ commands.map (fun cmd => (c, cmd)) }

def seReadClient (s : State C) (c : C) (recv : Recv) : SeStatus × State C :=
  if recv.bytesRecv ≤ 0 then (.close, s)
  else
    (if recv.status = .disconnect ∨ recv.status = .error then .close else .ok,
      queue s c recv.commands)

def serverRtusmUserDisconnect (s : State C) (userId : Nat) : State C := s.note [.offline userId]

/-- `server_free_client` where the deletion from `user_ht` may take other users along. -/
def freeClient (s : State C) (c : C) (lost : List Nat) : State C :=
  let server := serverFreeClient s.server c
  let server := match dbuserOf s.server c with
    | none => server
    | some _ => { server with userHt := serverGhtDel server.userHt lost }
  { s with server }.note [.freed c s.running]

def seCloseClient (s : State C) (c : C) (err : Int) (lost : List Nat) : State C :=
  let s := if err = epipe then s else
    match dbuserOf s.server c with
    | some userId => if s.running then serverRtusmUserDisconnect s userId else s
    | none => s
  freeClient s c lost

/-- `server_del_event` is the close callback, as far as clients are concerned. -/
def serverProcessEvent (s : State C) (c : C) (ready : Ready) : State C :=
  if ready.epEvents &&& epollerr ≠ 0 then
    seCloseClient s c (serverPrintSockerr ready.sock) ready.lost
  else if ready.epEvents &&& (epollrdhup ||| epollhup) ≠ 0 then seCloseClient s c 0 ready.lost
  else if ready.epEvents &&& epollin ≠ 0 then
    let r := seReadClient s c ready.recv
    if r.1 = .close ∨ r.1 = .error then seCloseClient r.2 c 0 ready.lost else r.2
  else s

def complete (s : State C) (pending : List (C × LoginCmd)) (c : C) (cmd : LoginCmd)
    (found : Option Nat) (sent : Bool) : State C :=
  let r := cmd.exec s.server c found sent
  { s with server := { r.2 with pending } }.note
    (if r.1 = none then found.toList.map (.loggedIn c) else [])

inductive Event (C : Type)
  | accept (c : C)
  | ready (c : C) (ready : Ready)
  | complete (c : C) (cmd : LoginCmd) (found : Option Nat) (sent : Bool)
  | stop

/-- Each event of a client and each callback is handled in one go, in any order. -/
inductive Step : State C → Event C → State C → Prop
  | accept {s : State C} {c : C} (h : s.server.clients c = none) :
    Step s (.accept c) { s with server := serverAcceptClient s.server c }
  | ready {s : State C} {c : C} (ready : Ready) (h : Connected s.server c) :
    Step s (.ready c ready) (serverProcessEvent s c ready)
  | complete {s : State C} (before : List (C × LoginCmd)) {after : List (C × LoginCmd)} {c : C}
      {cmd : LoginCmd} (found : Option Nat) (sent : Bool)
      (hs : s.server.pending = before ++ (c, cmd) :: after) :
    Step s (.complete c cmd found sent) (complete s (before ++ after) c cmd found sent)
  | stop {s : State C} : Step s .stop { s with running := false }

structure Initial (s : State C) : Prop where
  server : UserLogin.Initial s.server
  running : s.running = true
  log : s.log = []

/-- Behind every login of the client its user went offline. -/
def Settled (log : List (Note C)) (c : C) : Prop :=
  ∀ userId after, .loggedIn c userId :: after <:+ log → .offline userId ∈ after

/-- A client that is freed while the server is running is settled by then, and nobody logs in on it
any more. -/
structure Announced (log : List (Note C)) : Prop where
  settled : ∀ before c, before ++ [.freed c true] <+: log → Settled before c
  connected : ∀ before c userId, before ++ [.loggedIn c userId] <+: log → .freed c true ∉ before

/-- No client with a user ends with `EPIPE`, and a login that finds its user not logged in is for a
connected client that carries no other user. -/
def KeepsUsers (s : State C) : Event C → Prop
  | .ready c ready => ready.epEvents &&& epollerr ≠ 0 → serverPrintSockerr ready.sock = epipe →
      s.running = true → dbuserOf s.server c = none
  | .complete c _ (some userId) _ => s.server.userHt userId = none →
      ∃ client, s.server.clients c = some client ∧ client.freed = false ∧
        ∀ other, client.dbuser = some other → other = userId
  | _ => True

section Log

omit [DecidableEq C]

variable {log : List (Note C)} {c : C} {userId : Nat} {note : Note C}

theorem announced_nil : Announced ([] : List (Note C)) where
  settled before c h := by simp at h
  connected before c userId h := by simp at h

theorem announced_concat (h : Announced log)
    (hfreed : ∀ c, note = .freed c true → Settled log c)
    (hlogin : ∀ c userId, note = .loggedIn c userId → .freed c true ∉ log) :
    Announced (log ++ [note]) where
  settled before c hpre := by
    rcases List.prefix_concat_iff.mp hpre with heq | hpre
    · obtain ⟨rfl, hnote⟩ := List.append_inj' heq rfl
      exact hfreed c (List.singleton_inj.mp hnote).symm
    · exact h.settled before c hpre
  connected before c userId hpre := by
    rcases List.prefix_concat_iff.mp hpre with heq | hpre
    · obtain ⟨rfl, hnote⟩ := List.append_inj' heq rfl
      exact hlogin c userId (List.singleton_inj.mp hnote).symm
    · exact h.connected before c userId hpre

theorem settled_of_none (h : ∀ userId, .loggedIn c userId ∉ log) : Settled log c :=
  fun userId _ hsuf => absurd (hsuf.subset List.mem_cons_self) (h userId)

theorem settled_offline (h : ∀ other, .loggedIn c other ∈ log → other = userId) :
    Settled (log ++ [.offline userId]) c := by
  intro other after hsuf
  obtain hnil | ⟨t, ht, hsuf⟩ := List.suffix_concat_iff.mp hsuf
  · cases hnil
  · cases t with
    | nil => cases ht
    | cons note rest =>
        obtain ⟨hnote, rfl⟩ := List.cons_eq_cons.mp ht
        subst hnote
        rw [h other (hsuf.subset List.mem_cons_self)]
        exact List.mem_append_right rest (List.mem_singleton.mpr rfl)

end Log

/-- A connected client had no other users than the one that it carries. -/
structure Tracked (s : State C) : Prop where
  announced : Announced s.log
  fresh : ∀ c, s.server.clients c = none → ∀ userId, .loggedIn c userId ∉ s.log
  unfreed : ∀ c, (∀ client, s.server.clients c = some client → client.freed = false) →
    ∀ running, .freed c running ∉ s.log
  user : ∀ c client userId, s.server.clients c = some client → client.freed = false →
    .loggedIn c userId ∈ s.log → client.dbuser = some userId

variable {s s' : State C} {c d : C} {userId : Nat} {client : Client} {e : Event C}

omit [DecidableEq C] in
theorem tracked_initial (h : Initial s) : Tracked s where
  announced := by rw [h.log]; exact announced_nil
  fresh c _ userId := by simp [h.log]
  unfreed c _ running := by simp [h.log]
  user c client userId hc := by rw [h.server.clients c] at hc; cases hc

omit [DecidableEq C] in
theorem Tracked.congr (h : Tracked s) (hclients : s'.server.clients = s.server.clients)
    (hlog : s'.log = s.log) : Tracked s' where
  announced := by rw [hlog]; exact h.announced
  fresh c hc := by rw [hlog]; exact h.fresh c (hclients ▸ hc)
  unfreed c hc := by rw [hlog]; exact h.unfreed c (hclients ▸ hc)
  user c client userId hc hfreed hin := by
    rw [hlog] at hin
    exact h.user c client userId (hclients ▸ hc) hfreed hin

theorem tracked_accept (h : Tracked s) (hc : s.server.clients c = none) :
    Tracked { s with server := serverAcceptClient s.server c } where
  announced := h.announced
  fresh d hd := by
    rw [serverAcceptClient_clients] at hd
    split at hd
    · cases hd
    · exact h.fresh d hd
  unfreed d hd := by
    by_cases hdc : d = c
    · subst hdc
      exact h.unfreed d (fun client hclient => by rw [hc] at hclient; cases hclient)
    · apply h.unfreed d
      intro client hclient
      exact hd client (by rw [serverAcceptClient_clients, if_neg hdc, hclient])
  user d client userId hd hfreed hin := by
    rw [serverAcceptClient_clients] at hd
    split at hd
    · next hdc =>
        subst hdc
        exact absurd hin (h.fresh d hc userId)
    · exact h.user d client userId hd hfreed hin

theorem freeClient_clients (s : State C) (c : C) (lost : List Nat) (d : C) :
    (freeClient s c lost).server.clients d =
      if d = c then (s.server.clients c).map (fun client => { client with freed := true })
      else s.server.clients d := by
  rw [← serverFreeClient_clients, freeClient]
  cases dbuserOf s.server c <;> rfl

theorem freeClient_log (s : State C) (c : C) (lost : List Nat) :
    (freeClient s c lost).log = s.log ++ [.freed c s.running] := rfl

theorem tracked_free (h : Tracked s) (hc : s.server.clients c ≠ none)
    (hsettled : s.running = true → Settled s.log c) (lost : List Nat) :
    Tracked (freeClient s c lost) where
  announced := by
    rw [freeClient_log]
    refine announced_concat h.announced (fun d hd => ?_) (fun d userId hd => by cases hd)
    obtain ⟨rfl, hrunning⟩ := Note.freed.inj hd
    exact hsettled hrunning
  fresh d hd userId := by
    rw [freeClient_clients] at hd
    split at hd
    · exact absurd (Option.map_eq_none_iff.mp hd) hc
    · simpa [freeClient_log] using h.fresh d hd userId
  unfreed d hd running := by
    obtain ⟨client, hclient⟩ := Option.ne_none_iff_exists'.mp hc
    have hdc : d ≠ c := by
      rintro rfl
      have hfreed := hd _ (by rw [freeClient_clients, if_pos rfl, hclient]; rfl)
      cases hfreed
    have hold := h.unfreed d
      (fun client' hclient' => hd client' (by rw [freeClient_clients, if_neg hdc, hclient'])) running
    simp [freeClient_log, hold, hdc]
  user d client userId hd hfreed hin := by
    rw [freeClient_clients] at hd
    split at hd
    · obtain ⟨client', -, rfl⟩ := Option.map_eq_some_iff.mp hd
      cases hfreed
    · exact h.user d client userId hd hfreed (by simpa [freeClient_log] using hin)

omit [DecidableEq C] in
theorem tracked_disconnect (h : Tracked s) (userId : Nat) :
    Tracked (serverRtusmUserDisconnect s userId) where
  announced := announced_concat h.announced (fun c hc => by cases hc) (fun c userId hc => by cases hc)
  fresh c hc userId := by
    simpa [serverRtusmUserDisconnect, State.note] using h.fresh c hc userId
  unfreed c hc running := by
    simpa [serverRtusmUserDisconnect, State.note] using h.unfreed c hc running
  user c client userId hc hfreed hin :=
    h.user c client userId hc hfreed (by simpa [serverRtusmUserDisconnect, State.note] using hin)

theorem tracked_close (h : Tracked s) (hc : Connected s.server c) {err : Int}
    (herr : err = epipe → s.running = true → dbuserOf s.server c = none) (lost : List Nat) :
    Tracked (seCloseClient s c err lost) := by
  obtain ⟨client, hclient, hfreed⟩ := hc
  have hsome : s.server.clients c ≠ none := by rw [hclient]; exact Option.some_ne_none client
  have huser : dbuserOf s.server c = client.dbuser := by rw [dbuserOf, hclient, Option.bind_some]
  have hnobody : client.dbuser = none → Settled s.log c := by
    intro hnone
    apply settled_of_none
    intro userId hin
    have hdbuser := h.user c client userId hclient hfreed hin
    rw [hnone] at hdbuser
    cases hdbuser
  rw [seCloseClient]
  by_cases hpipe : err = epipe
  · rw [if_pos hpipe]
    exact tracked_free h hsome (fun hrun => hnobody (huser ▸ herr hpipe hrun)) lost
  · rw [if_neg hpipe, huser]
    cases hdbuser : client.dbuser with
    | none => exact tracked_free h hsome (fun _ => hnobody hdbuser) lost
    | some userId =>
        cases hrun : s.running with
        | false =>
            refine tracked_free h hsome (fun htrue => ?_) lost
            rw [hrun] at htrue
            cases htrue
        | true =>
            refine tracked_free (tracked_disconnect h userId) hsome (fun _ => ?_) lost
            apply settled_offline
            intro other hin
            have hother := h.user c client other hclient hfreed hin
            rw [hdbuser, Option.some.injEq] at hother
            exact hother.symm

omit [DecidableEq C] in
theorem seReadClient_clients (s : State C) (c : C) (recv : Recv) :
    (seReadClient s c recv).2.server.clients = s.server.clients ∧
      (seReadClient s c recv).2.log = s.log := by
  rw [seReadClient]
  split <;> exact ⟨rfl, rfl⟩

omit [DecidableEq C] in
theorem connected_read (hc : Connected s.server c) (recv : Recv) :
    Connected (seReadClient s c recv).2.server c := by
  rw [Connected, (seReadClient_clients s c recv).1]
  exact hc

theorem tracked_process (h : Tracked s) (hc : Connected s.server c) {ready : Ready}
    (hkeeps : KeepsUsers s (.ready c ready)) : Tracked (serverProcessEvent s c ready) := by
  have hzero : (0 : Int) = epipe → s.running = true → dbuserOf s.server c = none := by
    intro hpipe
    cases hpipe
  obtain ⟨hclients, hlog⟩ := seReadClient_clients s c ready.recv
  have hread : Tracked (seReadClient s c ready.recv).2 := h.congr hclients hlog
  have hconnected := connected_read hc ready.recv
  rw [serverProcessEvent]
  split
  · next herr => exact tracked_close h hc (hkeeps herr) ready.lost
  split
  · exact tracked_close h hc hzero ready.lost
  split
  · dsimp only
    split
    · refine tracked_close hread hconnected (fun hpipe => ?_) ready.lost
      cases hpipe
    · exact hread
  · exact h

theorem complete_refused {pending : List (C × LoginCmd)} (cmd : LoginCmd) (sent : Bool)
    (htaken : s.server.userHt userId ≠ none) :
    (complete s pending c cmd (some userId) sent).server.clients = s.server.clients ∧
      (complete s pending c cmd (some userId) sent).log = s.log := by
  have hrefused := loggedIn_refused sent htaken c
  have herr : (serverSetClientLoggedIn s.server c userId sent).1 ≠ none := by
    rw [serverSetClientLoggedIn, if_pos (Option.isSome_iff_ne_none.mpr htaken)]
    exact Option.some_ne_none _
  refine ⟨(congrArg Server.clients hrefused :), ?_⟩
  simp [complete, State.note, LoginCmd.exec, herr]

theorem complete_loggedIn {pending : List (C × LoginCmd)} (cmd : LoginCmd) (sent : Bool)
    (hfree : s.server.userHt userId = none) (hc : s.server.clients c = some client) (d : C) :
    (complete s pending c cmd (some userId) sent).server.clients d =
      if d = c then some ⟨some userId, client.loggedIn || sent, client.freed⟩
      else s.server.clients d := by
  have hclients := loggedIn_clients sent hfree c d
  rw [hc] at hclients
  exact hclients

theorem complete_log {pending : List (C × LoginCmd)} (cmd : LoginCmd) (sent : Bool)
    (hfree : s.server.userHt userId = none) :
    (complete s pending c cmd (some userId) sent).log = s.log ++ [.loggedIn c userId] := by
  have herr : (serverSetClientLoggedIn s.server c userId sent).1 = none := by
    rw [serverSetClientLoggedIn, if_neg (by simp [hfree])]
  simp [complete, State.note, LoginCmd.exec, herr]

theorem tracked_login (h : Tracked s) (hc : s.server.clients c = some client)
    (hfreed : client.freed = false) (hsame : ∀ other, client.dbuser = some other → other = userId)
    {loggedIn : Bool} (hclients : ∀ d, s'.server.clients d =
      if d = c then some ⟨some userId, loggedIn, client.freed⟩ else s.server.clients d)
    (hlog : s'.log = s.log ++ [.loggedIn c userId]) : Tracked s' := by
  have hunfreed : ∀ running, .freed c running ∉ s.log := by
    apply h.unfreed c
    intro client' hclient'
    rw [hc, Option.some.injEq] at hclient'
    exact hclient' ▸ hfreed
  refine ⟨?_, fun d hd other => ?_, fun d hd running => ?_, fun d client' other hd hfreed' hin => ?_⟩
  · rw [hlog]
    refine announced_concat h.announced (fun d hd => by cases hd) (fun d other hd => ?_)
    obtain ⟨rfl, -⟩ := Note.loggedIn.inj hd
    exact hunfreed true
  · rw [hclients] at hd
    split at hd
    · cases hd
    · next hdc => simp [hlog, h.fresh d hd other, hdc]
  · have hold : .freed d running ∉ s.log := by
      by_cases hdc : d = c
      · subst hdc
        exact hunfreed running
      · apply h.unfreed d
        intro client' hclient'
        exact hd client' (by rw [hclients, if_neg hdc, hclient'])
    simpa [hlog] using hold
  · rw [hclients] at hd
    simp only [hlog, List.mem_append, List.mem_singleton, Note.loggedIn.injEq] at hin
    split at hd
    · next hdc =>
        subst hdc
        obtain rfl := Option.some.inj hd
        rcases hin with hin | ⟨-, rfl⟩
        · rw [hsame other (h.user d client other hc hfreed hin)]
        · rfl
    · next hdc =>
        rcases hin with hin | ⟨hdc', -⟩
        · exact h.user d client' other hd hfreed' hin
        · exact absurd hdc' hdc

theorem tracked_complete (h : Tracked s) {pending : List (C × LoginCmd)} {cmd : LoginCmd}
    {found : Option Nat} {sent : Bool}
    (hkeeps : KeepsUsers s (.complete c cmd found sent)) :
    Tracked (complete s pending c cmd found sent) := by
  cases found with
  | none => exact h.congr rfl (by simp [complete, State.note])
  | some userId =>
      by_cases hfree : s.server.userHt userId = none
      · obtain ⟨client, hclient, hfreed, hsame⟩ := hkeeps hfree
        exact tracked_login h hclient hfreed hsame (complete_loggedIn cmd sent hfree hclient)
          (complete_log cmd sent hfree)
      · exact h.congr (complete_refused cmd sent hfree).1 (complete_refused cmd sent hfree).2

theorem tracked_step (h : Tracked s) (hstep : Step s e s') (hkeeps : KeepsUsers s e) :
    Tracked s' := by
  cases hstep with
  | accept hc => exact tracked_accept h hc
  | ready ready hc => exact tracked_process h hc hkeeps
  | complete before found sent hs => exact tracked_complete h hkeeps
  | stop => exact h.congr rfl rfl

theorem reachable_announced
    (h : Reachable Initial (fun s e s' => Step s e s' ∧ KeepsUsers s e) s) : Announced s.log := by
  have htracked : Tracked s := h.invariant (fun _ => tracked_initial)
    (fun _ _ _ htracked hstep => tracked_step htracked hstep.1 hstep.2)
  exact htracked.announced

abbrev Steps : Server C → Server C → Prop :=
  Relation.ReflTransGen (fun server server' => ∃ e, UserLogin.Step server e server')

theorem queue_steps (commands : List LoginCmd) (hc : Connected s.server c) :
    Steps s.server (queue s c commands).server := by
  induction commands generalizing s with
  | nil => rw [queue, List.map_nil, List.append_nil]
  | cons cmd commands ih =>
      have hrest := ih (s := queue s c [cmd]) hc
      have hqueue : queue (queue s c [cmd]) c commands = queue s c (cmd :: commands) := by
        simp [queue]
      rw [hqueue] at hrest
      exact .head ⟨_, .command cmd hc⟩ hrest

theorem freeClient_steps (hc : Connected s.server c) :
    Steps s.server (freeClient s c []).server := by
  have hfree : (freeClient s c []).server = serverFreeClient s.server c := by
    have hdel : serverGhtDel (serverFreeClient s.server c).userHt [] =
        (serverFreeClient s.server c).userHt := by
      funext key
      exact if_neg List.not_mem_nil
    rw [freeClient, hdel]
    cases dbuserOf s.server c <;> rfl
  rw [hfree]
  exact .single ⟨_, .disconnect hc⟩

theorem seCloseClient_steps (hc : Connected s.server c) (err : Int) :
    Steps s.server (seCloseClient s c err []).server := by
  rw [seCloseClient]
  split
  · exact freeClient_steps hc
  split
  · split
    · exact freeClient_steps (s := serverRtusmUserDisconnect s _) hc
    · exact freeClient_steps hc
  · exact freeClient_steps hc

/-- When no deletion loses an entry of `user_ht`, the clients log in and out as in `UserLogin`. -/
theorem step_userLogin (hstep : Step s e s')
    (hlost : ∀ c ready, e = .ready c ready → ready.lost = []) : Steps s.server s'.server := by
  cases hstep with
  | accept hc => exact .single ⟨_, .accept hc⟩
  | complete before found sent hs => exact .single ⟨_, .complete before found sent hs⟩
  | stop => exact .refl
  | @ready c ready hc =>
      have hclose (err : Int) := seCloseClient_steps (s := s) hc err
      rw [serverProcessEvent, hlost c ready rfl]
      split
      · exact hclose _
      split
      · exact hclose 0
      split
      · dsimp only
        have hread : Steps s.server (seReadClient s c ready.recv).2.server := by
          rw [seReadClient]
          split
          · exact .refl
          · exact queue_steps ready.recv.commands hc
        split
        · exact hread.trans (seCloseClient_steps (connected_read hc ready.recv) 0)
        · exact hread
      · exact .refl

def begun : State Nat := ⟨closed, true, []⟩

theorem begun_initial : Initial begun := ⟨closed_initial, rfl, rfl⟩

def frames (commands : List LoginCmd) : Ready :=
  ⟨epollin, ⟨true, 0, 0⟩, ⟨6, commands, .ok⟩, []⟩

def hangUp : Ready := ⟨epollrdhup, ⟨true, 0, 0⟩, ⟨0, [], .ok⟩, []⟩

def brokenPipe : Ready := ⟨epollerr, ⟨true, epipe, 0⟩, ⟨0, [], .ok⟩, []⟩

theorem reachable_announced_hangUp : ∃ s : State Nat,
    s.log = [.loggedIn 0 1, .offline 1, .freed 0 true] ∧ Announced s.log := by
  have h0 : Reachable Initial (fun s e s' => Step s e s' ∧ KeepsUsers s e) begun :=
    .start begun_initial
  have h1 := h0.next ⟨.accept (c := 0) rfl, trivial⟩
  have h2 := h1.next ⟨.ready (c := 0) (frames [.login]) ⟨_, rfl, rfl⟩, fun _ h => by cases h⟩
  have h3 := h2.next ⟨.complete (c := 0) [] (some 1) true rfl,
    fun _ => ⟨_, rfl, rfl, fun _ h => by cases h⟩⟩
  have h4 := h3.next ⟨.ready (c := 0) hangUp ⟨_, rfl, rfl⟩, fun _ h => by cases h⟩
  exact ⟨_, rfl, reachable_announced h4⟩

omit [DecidableEq C] in
theorem not_announced (log : List (Note C)) {after : List (Note C)}
    (hsuf : .loggedIn c userId :: after <:+ log) (hoff : .offline userId ∉ after) :
    ¬ Announced (log ++ [.freed c true]) :=
  fun h => hoff (h.settled log c (List.prefix_refl _) userId after hsuf)

/-- The user of a client that ends with `EPIPE` is not announced. -/
theorem brokenPipe_unannounced :
    ∃ s : State Nat, Reachable Initial Step s ∧ ¬ Announced s.log := by
  have h0 : Reachable Initial Step begun := .start begun_initial
  have h1 := h0.next (.accept (c := 0) rfl)
  have h2 := h1.next (.ready (c := 0) (frames [.login]) ⟨_, rfl, rfl⟩)
  have h3 := h2.next (.complete (c := 0) [] (some 1) true rfl)
  have h4 := h3.next (.ready (c := 0) brokenPipe ⟨_, rfl, rfl⟩)
  exact ⟨_, h4, not_announced [.loggedIn 0 1] (List.suffix_refl _) List.not_mem_nil⟩

/-- Nor is the first user of a client that logs in twice. -/
theorem second_login_unannounced : ∃ s : State Nat, Reachable Initial Step s ∧
    s.log = [.loggedIn 0 1, .loggedIn 0 2, .offline 2, .freed 0 true] ∧ ¬ Announced s.log := by
  have h0 : Reachable Initial Step begun := .start begun_initial
  have h1 := h0.next (.accept (c := 0) rfl)
  have h2 := h1.next (.ready (c := 0) (frames [.login, .login]) ⟨_, rfl, rfl⟩)
  have h3 := h2.next (.complete (c := 0) [] (some 1) true rfl)
  have h4 := h3.next (.complete (c := 0) [] (some 2) true rfl)
  have h5 := h4.next (.ready (c := 0) hangUp ⟨_, rfl, rfl⟩)
  exact ⟨_, h5, rfl, not_announced [.loggedIn 0 1, .loggedIn 0 2, .offline 2]
    (List.suffix_refl _) (by simp)⟩

end ChityChat.OfflineBroadcast
