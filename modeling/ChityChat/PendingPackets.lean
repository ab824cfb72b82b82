import Mathlib.Data.List.Basic

namespace ChityChat.PendingPackets

variable {P : Type*}

/-- What `send` depends on: a connecting socket throws, a closing or closed one drops what it is
given. -/
inductive ReadyState
  | connecting
  | opened
  | closed
  deriving DecidableEq

/-- A `WebSocket` that `init_socket` made. `closeFired` says that its close event was dispatched. -/
structure Socket where
  ready : ReadyState
  closeFired : Bool

/-- The `Server` object. `this.socket` is the socket made last. The last three fields are logs: what
an open socket was given, what `ws_send` was called with, and how many of these calls found no
connection. -/
structure Server (P : Type*) where
  connected : Bool
  pendingPackets : List P
  earlier : List Socket
  socket : Socket
  sent : List P
  requested : List P
  queued : Nat

def newSocket : Socket := ⟨.connecting, false⟩

def Server.initSocket (s : Server P) : Server P :=
  { s with earlier := s.earlier ++ [s.socket], socket := newSocket }

def Server.new : Server P := ⟨false, [], [], newSocket, [], [], 0⟩

/-- `this.socket.send(packet)`, and whether it returns. -/
def Server.send (s : Server P) (packet : P) : Server P × Bool :=
  match s.socket.ready with
  | .connecting => (s, false)
  | .opened => ({ s with sent := s.sent ++ [packet] }, true)
  | .closed => (s, true)

def Server.wsSend (s : Server P) (packet : P) : Server P :=
  let s := { s with requested := s.requested ++ [packet] }
  if s.connected then (s.send packet).1
  else { s.initSocket with pendingPackets := s.pendingPackets ++ [packet], queued := s.queued + 1 }

/-- The loop over `pending_packets`: an exception ends it. -/
def Server.sendAll (s : Server P) : List P → Server P × Bool
  | [] => (s, true)
  | packet :: packets =>
      if (s.send packet).2 then (s.send packet).1.sendAll packets else ((s.send packet).1, false)

/-- The open listener. `session` is the packet that `server_open` sends when a session is stored. -/
def Server.onOpen (s : Server P) (session : Option P) : Server P :=
  let s := { s with connected := true }
  match s.sendAll s.pendingPackets with
  | (s, false) => s
  | (s, true) =>
      let s := { s with pendingPackets := [] }
      match session with
      | none => s
      | some packet => s.wsSend packet

def Server.onClose (s : Server P) : Server P :=
  { s with connected := false }.initSocket

def Server.sockets (s : Server P) : List Socket := s.earlier ++ [s.socket]

def Server.socketAt (s : Server P) (i : Nat) : Option Socket := s.sockets[i]?

def Server.setSocket (s : Server P) (i : Nat) (socket : Socket) : Server P :=
  if i < s.earlier.length then { s with earlier := s.earlier.set i socket }
  else { s with socket := socket }

/-- What happens in the browser. A socket is closed some time before its close event. -/
inductive Event (P : Type*)
  | wsSend (packet : P)
  | opened (i : Nat) (session : Option P)
  | broken (i : Nat)
  | closed (i : Nat)

/-- Events that a socket cannot have in its state do nothing. -/
def Server.exec (s : Server P) : Event P → Server P
  | .wsSend packet => s.wsSend packet
  | .opened i session =>
      match s.socketAt i with
      | some ⟨.connecting, fired⟩ => (s.setSocket i ⟨.opened, fired⟩).onOpen session
      | _ => s
  | .broken i =>
      match s.socketAt i with
      | some ⟨.connecting, fired⟩ | some ⟨.opened, fired⟩ => s.setSocket i ⟨.closed, fired⟩
      | _ => s
  | .closed i =>
      match s.socketAt i with
      | some ⟨.closed, false⟩ => (s.setSocket i ⟨.closed, true⟩).onClose
      | _ => s

def run (s : Server P) (events : List (Event P)) : Server P := events.foldl Server.exec s

def Server.kept (s : Server P) : List P := s.sent ++ s.pendingPackets

/-- The sockets whose close event is still to come: each of them makes another one then. -/
def Server.live (s : Server P) : Nat := s.sockets.countP (fun socket => !socket.closeFired)

/-- An event after which no packet is lost: a send finds an open socket or no connection, and a
socket that opens is the last one made, or what it flushes goes to an open socket or stays. -/
def Server.Keeps (s : Server P) : Event P → Prop
  | .wsSend _ => s.connected = true → s.socket.ready = .opened
  | .opened i session =>
      (∃ fired, s.socketAt i = some ⟨.connecting, fired⟩) → i < s.earlier.length →
        s.socket.ready = .opened ∨ (s.socket.ready = .connecting ∧ s.pendingPackets ≠ []) ∨
          (s.pendingPackets = [] ∧ session = none)
  | .broken _ | .closed _ => True

def AllKeep (s : Server P) : List (Event P) → Prop
  | [] => True
  | e :: es => s.Keeps e ∧ AllKeep (s.exec e) es

structure Base (s : Server P) : Prop where
  sublist : s.kept.Sublist s.requested
  live : s.live = s.queued + 1
  fired : ∀ socket ∈ s.sockets, socket.closeFired = true → socket.ready = .closed

structure Inv (s : Server P) : Prop extends Base s where
  flushed : s.socket.ready = .opened → s.pendingPackets = []

theorem socketAt_lt {s : Server P} {i : Nat} {socket : Socket} (h : s.socketAt i = some socket) :
    i < s.sockets.length := (List.getElem?_eq_some_iff.mp h).1

theorem setSocket_sockets (s : Server P) {i : Nat} (hi : i < s.sockets.length) (socket : Socket) :
    (s.setSocket i socket).sockets = s.sockets.set i socket := by
  rw [Server.sockets, List.length_append, List.length_singleton] at hi
  by_cases h : i < s.earlier.length
  · rw [Server.setSocket, if_pos h, Server.sockets, Server.sockets, List.set_append_left _ _ h]
  · have hlast : i = s.earlier.length := by omega
    rw [Server.setSocket, if_neg h, Server.sockets, Server.sockets, hlast,
      List.set_append_right _ _ (Nat.le_refl _), Nat.sub_self]
    rfl

theorem setSocket_frame (s : Server P) (i : Nat) (socket : Socket) :
    (s.setSocket i socket).connected = s.connected ∧
      (s.setSocket i socket).pendingPackets = s.pendingPackets ∧
      (s.setSocket i socket).sent = s.sent ∧ (s.setSocket i socket).requested = s.requested ∧
      (s.setSocket i socket).queued = s.queued := by
  rw [Server.setSocket]
  split <;> exact ⟨rfl, rfl, rfl, rfl, rfl⟩

theorem sendAll_open {s : Server P} (h : s.socket.ready = .opened) (packets : List P) :
    s.sendAll packets = ({ s with sent := s.sent ++ packets }, true) := by
  induction packets generalizing s with
  | nil => simp [Server.sendAll]
  | cons packet packets ih =>
      have hsend : s.send packet = ({ s with sent := s.sent ++ [packet] }, true) := by
        simp [Server.send, h]
      have hrest : (s.send packet).1.sendAll packets =
          ({ s with sent := s.sent ++ [packet] ++ packets }, true) := by
        rw [hsend]
        exact ih h
      rw [Server.sendAll, hrest, hsend, if_pos rfl, List.append_assoc]
      rfl

theorem sendAll_connecting {s : Server P} (h : s.socket.ready = .connecting) {packets : List P}
    (hp : packets ≠ []) : s.sendAll packets = (s, false) := by
  cases packets with
  | nil => exact absurd rfl hp
  | cons packet packets => simp [Server.sendAll, Server.send, h]

theorem sendAll_closed {s : Server P} (h : s.socket.ready = .closed) (packets : List P) :
    s.sendAll packets = (s, true) := by
  induction packets with
  | nil => rfl
  | cons packet packets ih => simp [Server.sendAll, Server.send, h, ih]

theorem wsSend_kept {s : Server P} (h : s.socket.ready = .opened → s.pendingPackets = []) (packet : P) :
    (s.wsSend packet).kept =
      if s.connected = true → s.socket.ready = .opened then s.kept ++ [packet] else s.kept := by
  cases hc : s.connected with
  | false => simp [Server.wsSend, hc, Server.kept, Server.initSocket]
  | true =>
      cases hr : s.socket.ready with
      | opened => simp [Server.wsSend, hc, Server.send, hr, Server.kept, h hr]
      | connecting | closed => simp [Server.wsSend, hc, Server.send, hr, Server.kept]

theorem wsSend_requested (s : Server P) (packet : P) :
    (s.wsSend packet).requested = s.requested ++ [packet] := by
  rw [Server.wsSend]
  split
  · rw [Server.send]
    split <;> rfl
  · rfl

theorem wsSend_sockets (s : Server P) (packet : P) :
    (s.connected = true ∧ (s.wsSend packet).sockets = s.sockets ∧ (s.wsSend packet).queued = s.queued ∧
      (s.wsSend packet).socket = s.socket ∧ (s.wsSend packet).pendingPackets = s.pendingPackets) ∨
    ((s.wsSend packet).sockets = s.sockets ++ [newSocket] ∧
      (s.wsSend packet).queued = s.queued + 1 ∧ (s.wsSend packet).socket = newSocket) := by
  cases hc : s.connected with
  | false => exact .inr (by simp [Server.wsSend, hc, Server.sockets, Server.initSocket])
  | true =>
      refine .inl ⟨rfl, ?_⟩
      simp only [Server.wsSend, hc, if_true, Server.send]
      split <;> exact ⟨rfl, rfl, rfl, rfl⟩

theorem wsSend_inv {s : Server P} (h : Inv s) (packet : P) : Inv (s.wsSend packet) := by
  have hsub : (s.wsSend packet).kept.Sublist (s.wsSend packet).requested := by
    rw [wsSend_kept h.flushed, wsSend_requested]
    split
    · exact h.sublist.append (List.Sublist.refl _)
    · exact h.sublist.trans (List.sublist_append_left _ _)
  have hlive := h.live
  rw [Server.live] at hlive
  rcases wsSend_sockets s packet with ⟨-, hs, hq, hsock, hpend⟩ | ⟨hs, hq, hsock⟩
  · refine ⟨⟨hsub, ?_, ?_⟩, ?_⟩
    · rw [Server.live, hs, hq, hlive]
    · rw [hs]
      exact h.fired
    · rw [hsock, hpend]
      exact h.flushed
  · refine ⟨⟨hsub, ?_, ?_⟩, ?_⟩
    · rw [Server.live, hs, hq, List.countP_append, hlive]
      rfl
    · rw [hs]
      intro socket hm hf
      rcases List.mem_append.mp hm with hm | hm
      · exact h.fired socket hm hf
      · obtain rfl := List.mem_singleton.mp hm
        cases hf
    · rw [hsock]
      nofun

def Server.flushed (s : Server P) : Server P :=
  { s with
    connected := true
    sent := if s.socket.ready = .opened then s.sent ++ s.pendingPackets else s.sent
    pendingPackets := [] }

theorem onOpen_cases (s : Server P) (session : Option P) :
    (s.socket.ready = .connecting ∧ s.pendingPackets ≠ [] ∧
      s.onOpen session = { s with connected := true }) ∨
    ((s.socket.ready = .connecting → s.pendingPackets = []) ∧
      s.onOpen session = session.elim s.flushed s.flushed.wsSend) := by
  have hdone : ∀ s' : Server P,
      ({ s with connected := true } : Server P).sendAll s.pendingPackets = (s', true) →
      s.onOpen session = session.elim { s' with pendingPackets := [] }
        ({ s' with pendingPackets := [] } : Server P).wsSend := by
    intro s' hs
    rw [Server.onOpen, hs]
    cases session <;> rfl
  cases hr : s.socket.ready with
  | connecting =>
      by_cases hp : s.pendingPackets = []
      · refine .inr ⟨fun _ => hp, (hdone { s with connected := true } (by rw [hp]; rfl)).trans ?_⟩
        simp [Server.flushed, hr]
      · refine .inl ⟨rfl, hp, ?_⟩
        have hs : ({ s with connected := true } : Server P).sendAll s.pendingPackets =
            ({ s with connected := true }, false) :=
          sendAll_connecting (s := { s with connected := true }) hr hp
        rw [Server.onOpen, hs]
  | opened =>
      refine .inr ⟨nofun, (hdone _ (sendAll_open (s := { s with connected := true }) hr _)).trans ?_⟩
      simp [Server.flushed, hr]
  | closed =>
      refine .inr ⟨nofun, (hdone _ (sendAll_closed (s := { s with connected := true }) hr _)).trans ?_⟩
      simp [Server.flushed, hr]

theorem flushed_inv {s : Server P} (h : Base s) : Inv s.flushed := by
  refine ⟨⟨?_, h.live, h.fired⟩, fun _ => rfl⟩
  have hsub : (s.sent ++ s.pendingPackets).Sublist s.requested := h.sublist
  simp only [Server.kept, Server.flushed, List.append_nil]
  split
  · exact hsub
  · exact (List.sublist_append_left _ _).trans hsub

theorem onOpen_inv {s : Server P} (h : Base s) (session : Option P) : Inv (s.onOpen session) := by
  rcases onOpen_cases s session with ⟨hr, -, ho⟩ | ⟨-, ho⟩
  · rw [ho]
    exact ⟨⟨h.sublist, h.live, h.fired⟩, fun hopen => by rw [hr] at hopen; cases hopen⟩
  · rw [ho]
    cases session with
    | none => exact flushed_inv h
    | some packet => exact wsSend_inv (flushed_inv h) packet

theorem Base.setSocket {s : Server P} (h : Base s) {i : Nat} {ready ready' : ReadyState} {fired : Bool}
    (hi : s.socketAt i = some ⟨ready, fired⟩) (hopen : ready ≠ .closed) :
    Base (s.setSocket i ⟨ready', fired⟩) := by
  obtain ⟨-, hpend, hsent, hreq, hq⟩ := setSocket_frame s i ⟨ready', fired⟩
  have hlt := socketAt_lt hi
  obtain ⟨_, hget⟩ := List.getElem?_eq_some_iff.mp hi
  have hfired : fired = false := by
    cases hf : fired with
    | false => rfl
    | true => exact absurd (h.fired _ (List.mem_of_getElem? hi) hf) hopen
  refine ⟨?_, ?_, ?_⟩
  · rw [Server.kept, hsent, hpend, hreq]
    exact h.sublist
  · have hlive := h.live
    rw [Server.live] at hlive ⊢
    have hpos : 0 < s.sockets.countP (fun socket => !socket.closeFired) := by omega
    rw [setSocket_sockets s hlt, List.countP_set hlt, hget, hq]
    simp only [hfired, Bool.not_false, if_true]
    omega
  · rw [setSocket_sockets s hlt]
    intro socket hm hf
    rcases List.mem_or_eq_of_mem_set hm with hm | rfl
    · exact h.fired socket hm hf
    · rw [hfired] at hf
      cases hf

theorem setSocket_socket (s : Server P) (i : Nat) (socket : Socket) :
    (i < s.earlier.length ∧ (s.setSocket i socket).socket = s.socket) ∨
      (¬ i < s.earlier.length ∧ (s.setSocket i socket).socket = socket) := by
  by_cases h : i < s.earlier.length
  · exact .inl ⟨h, by rw [Server.setSocket, if_pos h]⟩
  · exact .inr ⟨h, by rw [Server.setSocket, if_neg h]⟩

theorem broken_inv {s : Server P} (h : Inv s) {i : Nat} {ready : ReadyState} {fired : Bool}
    (hi : s.socketAt i = some ⟨ready, fired⟩) (hopen : ready ≠ .closed) :
    Inv (s.setSocket i ⟨.closed, fired⟩) := by
  refine ⟨h.toBase.setSocket hi hopen, ?_⟩
  obtain ⟨-, hpend, -⟩ := setSocket_frame s i ⟨.closed, fired⟩
  rcases setSocket_socket s i ⟨.closed, fired⟩ with ⟨-, hs⟩ | ⟨-, hs⟩
  · rw [hs, hpend]
    exact h.flushed
  · rw [hs]
    nofun

theorem closed_inv {s : Server P} (h : Inv s) {i : Nat}
    (hi : s.socketAt i = some ⟨.closed, false⟩) : Inv (s.setSocket i ⟨.closed, true⟩).onClose := by
  obtain ⟨-, hpend, hsent, hreq, hq⟩ := setSocket_frame s i ⟨.closed, true⟩
  have hlt := socketAt_lt hi
  obtain ⟨_, hget⟩ := List.getElem?_eq_some_iff.mp hi
  have hsockets : (s.setSocket i ⟨.closed, true⟩).onClose.sockets =
      s.sockets.set i ⟨.closed, true⟩ ++ [newSocket] := by
    rw [← setSocket_sockets s hlt]
    rfl
  refine ⟨⟨?_, ?_, ?_⟩, nofun⟩
  · change ((s.setSocket i ⟨.closed, true⟩).sent ++ (s.setSocket i ⟨.closed, true⟩).pendingPackets).Sublist
      (s.setSocket i ⟨.closed, true⟩).requested
    rw [hsent, hpend, hreq]
    exact h.sublist
  · have hlive := h.live
    change (s.setSocket i ⟨.closed, true⟩).onClose.live = (s.setSocket i ⟨.closed, true⟩).queued + 1
    rw [Server.live] at hlive ⊢
    have hone : 0 < s.sockets.countP (fun socket => !socket.closeFired) := by omega
    rw [hsockets, List.countP_append, List.countP_set hlt, hget, hq]
    simp only [Bool.not_false, Bool.not_true, if_true, newSocket, List.countP_singleton,
      Bool.false_eq_true, if_false]
    omega
  · rw [hsockets]
    intro socket hm hf
    rcases List.mem_append.mp hm with hm | hm
    · rcases List.mem_or_eq_of_mem_set hm with hm | rfl
      · exact h.fired socket hm hf
      · rfl
    · obtain rfl := List.mem_singleton.mp hm
      cases hf

theorem exec_inv {s : Server P} (h : Inv s) (e : Event P) : Inv (s.exec e) := by
  cases e with
  | wsSend packet => exact wsSend_inv h packet
  | opened i session =>
      simp only [Server.exec]
      split
      case h_1 fired hi => exact onOpen_inv (h.toBase.setSocket hi nofun) session
      case h_2 => exact h
  | broken i =>
      simp only [Server.exec]
      split
      case h_1 fired hi => exact broken_inv h hi nofun
      case h_2 fired hi => exact broken_inv h hi nofun
      case h_3 => exact h
  | closed i =>
      simp only [Server.exec]
      split
      case h_1 hi => exact closed_inv h hi
      case h_2 => exact h

theorem run_inv {s : Server P} (h : Inv s) (events : List (Event P)) : Inv (run s events) := by
  induction events generalizing s with
  | nil => exact h
  | cons e events ih => exact ih (exec_inv h e)

theorem new_inv : Inv (Server.new : Server P) :=
  ⟨⟨.refl _, rfl, fun socket hm hf => by
    obtain rfl := List.mem_singleton.mp hm
    cases hf⟩, fun _ => rfl⟩

theorem wsSend_lossless {s : Server P} (h : Inv s) (packet : P) :
    (s.wsSend packet).kept = (s.wsSend packet).requested ↔
      s.kept = s.requested ∧ (s.connected = true → s.socket.ready = .opened) := by
  rw [wsSend_kept h.flushed, wsSend_requested]
  by_cases hk : s.connected = true → s.socket.ready = .opened
  · rw [if_pos hk, List.append_left_inj, and_iff_left hk]
  · rw [if_neg hk]
    refine iff_of_false (fun heq => ?_) (fun hkeep => hk hkeep.2)
    have hlen := congrArg List.length heq
    have hle := h.sublist.length_le
    rw [List.length_append, List.length_singleton] at hlen
    omega

theorem onOpen_lossless {s : Server P} (h : Base s) (session : Option P) :
    (s.onOpen session).kept = (s.onOpen session).requested ↔
      s.kept = s.requested ∧ (s.socket.ready = .opened ∨
        (s.socket.ready = .connecting ∧ s.pendingPackets ≠ []) ∨
          (s.pendingPackets = [] ∧ session = none)) := by
  rcases onOpen_cases s session with ⟨hr, hp, ho⟩ | ⟨hp, ho⟩
  · rw [ho]
    exact ⟨fun heq => ⟨heq, .inr (.inl ⟨hr, hp⟩)⟩, fun hkeep => hkeep.1⟩
  · have hfl : s.flushed.kept = s.flushed.requested ↔
        s.kept = s.requested ∧ (s.socket.ready = .opened ∨ s.pendingPackets = []) := by
      simp only [Server.kept, Server.flushed, List.append_nil]
      by_cases hr : s.socket.ready = .opened
      · simp [hr]
      · rw [if_neg hr, or_iff_right hr]
        refine ⟨fun heq => ?_, fun hk => by rw [← hk.1, hk.2, List.append_nil]⟩
        have hle := h.sublist.length_le
        rw [Server.kept, List.length_append, ← heq] at hle
        have hnil : s.pendingPackets = [] := List.length_eq_zero_iff.mp (by omega)
        exact ⟨by rw [hnil, List.append_nil, heq], hnil⟩
    rw [ho]
    cases session with
    | none =>
        simp only [Option.elim, hfl, and_true]
        exact and_congr_right fun _ => or_congr_right
          ⟨.inr, fun hk => hk.elim (fun hc => hp hc.1) id⟩
    | some packet =>
        have hsend := wsSend_lossless (flushed_inv h) packet
        simp only [Option.elim, reduceCtorEq, and_false, or_false]
        rw [hsend, hfl]
        constructor
        · rintro ⟨⟨heq, -⟩, hopen⟩
          exact ⟨heq, .inl (hopen rfl)⟩
        · rintro ⟨heq, hopen | ⟨hc, hne⟩⟩
          · exact ⟨⟨heq, .inl hopen⟩, fun _ => hopen⟩
          · exact absurd (hp hc) hne

theorem exec_lossless {s : Server P} (h : Inv s) (e : Event P) :
    (s.exec e).kept = (s.exec e).requested ↔ s.kept = s.requested ∧ s.Keeps e := by
  cases e with
  | wsSend packet => exact wsSend_lossless h packet
  | opened i session =>
      simp only [Server.exec]
      split
      case h_1 fired hi =>
        obtain ⟨-, hpend, hsent, hreq, -⟩ := setSocket_frame s i ⟨.opened, fired⟩
        rw [onOpen_lossless (h.toBase.setSocket hi nofun), Server.kept, hsent, hpend, hreq, ← Server.kept]
        refine and_congr_right fun _ => ?_
        rcases setSocket_socket s i ⟨.opened, fired⟩ with ⟨hlt, hs⟩ | ⟨hge, hs⟩
        · rw [hs]
          exact ⟨fun hk _ _ => hk, fun hk => hk ⟨fired, hi⟩ hlt⟩
        · rw [hs]
          exact ⟨fun _ _ hlt => absurd hlt hge, fun _ => .inl rfl⟩
      case h_2 hi =>
        exact ⟨fun heq => ⟨heq, fun hex => by
          obtain ⟨fired, hs⟩ := hex
          exact absurd hs (hi fired)⟩, And.left⟩
  | broken i =>
      have hframe : ∀ socket, (s.setSocket i socket).kept = (s.setSocket i socket).requested ↔
          s.kept = s.requested ∧ True := by
        intro socket
        obtain ⟨-, hpend, hsent, hreq, -⟩ := setSocket_frame s i socket
        rw [Server.kept, hsent, hpend, hreq, and_true, Server.kept]
      simp only [Server.exec, Server.Keeps]
      split
      · exact hframe _
      · exact hframe _
      · exact (and_iff_left trivial).symm
  | closed i =>
      simp only [Server.exec, Server.Keeps, and_true]
      split
      · obtain ⟨-, hpend, hsent, hreq, -⟩ := setSocket_frame s i ⟨.closed, true⟩
        change (s.setSocket i _).sent ++ (s.setSocket i _).pendingPackets = (s.setSocket i _).requested ↔ _
        rw [hsent, hpend, hreq, Server.kept]
      · exact Iff.rfl

theorem run_lossless {s : Server P} (h : Inv s) (events : List (Event P)) :
    (run s events).kept = (run s events).requested ↔ s.kept = s.requested ∧ AllKeep s events := by
  induction events generalizing s with
  | nil => exact (and_iff_left trivial).symm
  | cons e events ih =>
      rw [AllKeep, ← and_assoc, ← exec_lossless h e]
      exact ih (exec_inv h e)

/-- Whatever the browser and the network do, packets go out at most once and in the order of the
`ws_send` calls, those that wait behind those that are sent; and none is lost exactly when no event
finds the wrong socket. -/
theorem ws_send_in_order (events : List (Event P)) :
    let s := run Server.new events
    (s.sent ++ s.pendingPackets).Sublist s.requested ∧
      (s.sent ++ s.pendingPackets = s.requested ↔ AllKeep Server.new events) := by
  refine ⟨(run_inv new_inv events).sublist, ?_⟩
  exact (run_lossless new_inv events).trans (and_iff_right rfl)

/-- A packet sent before the first socket opens: that socket's listener throws on the second one, and
what follows is lost until the second one opens. -/
example : (run (Server.new : Server Nat)
    [.wsSend 7, .opened 0 (some 1), .wsSend 8, .opened 1 (some 1)]).sent = [7, 1] := rfl

/-- Each call that finds no connection opens one for good: as many sockets will be replaced when they
close as there were such calls, and one. -/
theorem sockets_grow (events : List (Event P)) :
    (run Server.new events).live = (run (Server.new : Server P) events).queued + 1 :=
  (run_inv new_inv events).live

end ChityChat.PendingPackets
