import ChityChat.DbPipelineOrder

namespace ChityChat.ResultReading

open DbResult DbPipeline DbPipelineOrder Transition

variable {C : Type}

/-- What the server sends: bytes after which an answer is complete, and bytes after which none is. -/
inductive Piece
  | part
  | last (res : PGresult)

inductive PgCmd
  | query
  | sync
  deriving DecidableEq

/-- A connection in pipeline mode: the commands that `PQgetResult` has not returned an answer to,
the answers that have not arrived, that wait in the socket and that were read into libpq's buffer,
and whether the next `PQgetResult` returns the NULL after a query. -/
structure PGconn where
  cmds : List PgCmd
  coming : List Piece
  socket : List Piece
  buffer : List Piece
  nullDue : Bool

def Piece.res : Piece → Option PGresult
  | part => none
  | last res => some res

def answers (pieces : List Piece) : List PGresult := pieces.filterMap Piece.res

def kind (res : PGresult) : PgCmd := if res.status = .pipelineSync then .sync else .query

def results (pieces : List Piece) : List PGresult :=
  (answers pieces).filter (fun res => kind res = .query)

def sentCmds (count : Nat) : List PgCmd := (List.replicate count [.query, .sync]).flatten

def Answering (cmds : List PgCmd) (pieces : List Piece) : Prop := (answers pieces).map kind = cmds

instance (cmds : List PgCmd) (pieces : List Piece) : Decidable (Answering cmds pieces) :=
  inferInstanceAs (Decidable (_ = _))

def PGconn.send (conn : PGconn) (cmds : List PgCmd) (pieces : List Piece) : PGconn :=
  { conn with cmds := conn.cmds ++ cmds, coming := conn.coming ++ pieces }

def PGconn.arrive (conn : PGconn) (count : Nat) : PGconn :=
  { conn with
    socket := conn.socket ++ conn.coming.take count
    coming := conn.coming.drop count }

def pqReadData (conn : PGconn) : PGconn :=
  { conn with buffer := conn.buffer ++ conn.socket, socket := [] }

/-- The first complete answer of the buffer and what is behind it. -/
def parseInput : List Piece → Option (PGresult × List Piece)
  | [] => none
  | .part :: pieces => parseInput pieces
  | .last res :: pieces => some (res, pieces)

/-- What `PQgetResult` returns, unless it has to read first. -/
def pqGetResult (conn : PGconn) : Option (Option PGresult × PGconn) :=
  if conn.nullDue then some (none, { conn with nullDue := false })
  else match conn.cmds with
    | [] => some (none, conn)
    | _ :: cmds => (parseInput conn.buffer).map (fun (res, buffer) =>
        (some res, { conn with cmds := cmds, buffer := buffer, nullDue := kind res = .query }))

/-- Where a worker is: in `db_process_results` of `server_eworker_init`, at the poll, in
`db_process_results` behind it, or at its events. -/
inductive Phase
  | init
  | poll
  | process
  | events
  deriving DecidableEq

def Phase.processing : Phase → Bool
  | init => true
  | process => true
  | poll => false
  | events => false

def Phase.next : Phase → Phase
  | init => poll
  | poll => process
  | process => events
  | events => poll

structure Worker (C : Type) where
  db : ServerDb C
  conn : PGconn
  phase : Phase

inductive Action (C : Type)
  | arrive (count : Nat)
  | poll
  | read
  | result (res : PGresult)
  | null
  | exec (cmds : List (DbcmdCtx C)) (pieces : List Piece)
  | event (client : Option C) (cmds : List (DbcmdCtx C)) (pieces : List Piece)
  | handled

/-- `server_eworker_async_run` over its connection. Bytes arrive at any time and in any grouping. -/
inductive Step : Worker C → Action C → Worker C → Prop
  | arrive {x : Worker C} (count : Nat) :
      Step x (.arrive count) { x with conn := x.conn.arrive count }
  | poll {x : Worker C} (hphase : x.phase = .poll) :
      Step x .poll { x with phase := if x.conn.socket.isEmpty then .events else .process }
  | read {x : Worker C} (hphase : x.phase.processing = true) (hrun : x.db.running = [])
      (hget : pqGetResult x.conn = none) (hsocket : x.conn.socket ≠ []) :
      Step x .read { x with conn := pqReadData x.conn }
  | result {x : Worker C} {res : PGresult} {conn : PGconn} (hphase : x.phase.processing = true)
      (hrun : x.db.running = []) (hget : pqGetResult x.conn = some (some res, conn)) :
      Step x (.result res) { x with db := dbProcessResult x.db res, conn := conn }
  | null {x : Worker C} {conn : PGconn} (hphase : x.phase.processing = true)
      (hrun : x.db.running = []) (hget : pqGetResult x.conn = some (none, conn)) :
      Step x .null { x with conn := conn, phase := x.phase.next }
  | exec {x : Worker C} {ctx : DbcmdCtx C} {rest : List (DbcmdCtx C)} (cmds : List (DbcmdCtx C))
      (pieces : List Piece) (hrun : x.db.running = ctx :: rest) (hcmds : Command cmds)
      (hpieces : Answering (sentCmds cmds.length) pieces) :
      Step x (.exec cmds pieces) { x with
        db := dbExecCmd x.db ctx rest cmds
        conn := x.conn.send (sentCmds cmds.length) pieces }
  | event {x : Worker C} (client : Option C) (cmds : List (DbcmdCtx C)) (pieces : List Piece)
      (hphase : x.phase = .events) (hcmds : Command cmds)
      (hpieces : Answering (sentCmds cmds.length) pieces) :
      Step x (.event client cmds pieces) { x with
        db := eworkerPrepEvent x.db client cmds
        conn := x.conn.send (sentCmds cmds.length) pieces }
  | handled {x : Worker C} (hphase : x.phase = .events) : Step x .handled { x with phase := .poll }

/-- `server_eworker_init` has sent its `PQpipelineSync`. -/
def Initial (x : Worker C) : Prop :=
  ∃ coming, Answering [.sync] coming ∧ x = ⟨dbInit, ⟨[.sync], coming, [], [], false⟩, .init⟩

/-- A read finds the results of one query at most in the socket. -/
def OneResult (x : Worker C) : Action C → Prop
  | .read => (results x.conn.socket).length ≤ 1
  | _ => True

instance (x : Worker C) (a : Action C) : Decidable (OneResult x a) := by
  cases a <;> unfold OneResult <;> infer_instance

/-- Poll reports the socket as not readable, but the buffer has the result of a query. -/
def Stalled (x : Worker C) : Prop :=
  x.phase = .poll ∧ x.conn.socket = [] ∧ results x.conn.buffer ≠ []

variable {x x' : Worker C} {a : Action C} {conn conn' : PGconn} {res : PGresult}
  {pieces more : List Piece}

theorem answers_append : answers (pieces ++ more) = answers pieces ++ answers more :=
  List.filterMap_append

theorem results_append : results (pieces ++ more) = results pieces ++ results more := by
  rw [results, answers_append, List.filter_append, results, results]

theorem parseInput_none (h : parseInput pieces = none) : answers pieces = [] := by
  induction pieces with
  | nil => rfl
  | cons piece pieces ih =>
      cases piece with
      | part => exact ih h
      | last res => cases h

theorem parseInput_some (h : parseInput pieces = some (res, more)) :
    answers pieces = res :: answers more := by
  induction pieces with
  | nil => cases h
  | cons piece pieces ih =>
      cases piece with
      | part => exact ih h
      | last res' =>
          cases h
          rfl

theorem pqGetResult_wait (h : pqGetResult conn = none) :
    conn.nullDue = false ∧ answers conn.buffer = [] := by
  rw [pqGetResult] at h
  split at h
  · cases h
  · next hnull =>
      refine ⟨by simpa using hnull, ?_⟩
      split at h
      · cases h
      · exact parseInput_none (Option.map_eq_none_iff.mp h)

theorem pqGetResult_null (h : pqGetResult conn = some (none, conn')) :
    (conn.nullDue = true ∨ conn.cmds = []) ∧ conn' = { conn with nullDue := false } := by
  rw [pqGetResult] at h
  split at h
  · next hnull =>
      obtain ⟨-, rfl⟩ := Prod.mk.inj (Option.some.inj h)
      exact ⟨.inl hnull, rfl⟩
  · next hnull =>
      split at h
      · next hcmds =>
          obtain ⟨-, rfl⟩ := Prod.mk.inj (Option.some.inj h)
          obtain ⟨cmds, coming, socket, buffer, nullDue⟩ := conn
          cases nullDue with
          | false => exact ⟨.inr hcmds, rfl⟩
          | true => exact absurd rfl hnull
      · obtain ⟨_, -, h⟩ := Option.map_eq_some_iff.mp h
        cases (Prod.mk.inj h).1

theorem pqGetResult_result (h : pqGetResult conn = some (some res, conn')) :
    conn.nullDue = false ∧ answers conn.buffer = res :: answers conn'.buffer ∧
      ∃ cmd, conn.cmds = cmd :: conn'.cmds ∧ conn' = { conn with
        cmds := conn'.cmds, buffer := conn'.buffer, nullDue := kind res = .query } := by
  rw [pqGetResult] at h
  split at h
  · cases h
  · next hnull =>
      refine ⟨by simpa using hnull, ?_⟩
      split at h
      · cases h
      · next cmd cmds hcmds =>
          obtain ⟨⟨res', buffer⟩, hparse, h⟩ := Option.map_eq_some_iff.mp h
          obtain ⟨hres, rfl⟩ := Prod.mk.inj h
          obtain rfl := Option.some.inj hres
          exact ⟨parseInput_some hparse, cmd, hcmds, rfl⟩

/-- The answers to the commands are on their way, and only `db_process_results` leaves one result
of a query in the buffer, until it has returned it. -/
structure Read (x : Worker C) : Prop where
  answering : Answering x.conn.cmds (x.conn.buffer ++ x.conn.socket ++ x.conn.coming)
  one : (results x.conn.buffer).length ≤ 1
  clear : x.phase.processing = false ∨ x.conn.nullDue = true → results x.conn.buffer = []

theorem read_initial (h : Initial x) : Read x := by
  obtain ⟨coming, hcoming, rfl⟩ := h
  exact ⟨hcoming, Nat.zero_le 1, fun _ => rfl⟩

theorem Read.arrive (h : Read x) (count : Nat) :
    Read { x with conn := x.conn.arrive count } where
  answering := by
    have hcoming := List.take_append_drop count x.conn.coming
    have hanswering := h.answering
    rw [← hcoming] at hanswering
    simpa only [PGconn.arrive, List.append_assoc] using hanswering
  one := h.one
  clear := h.clear

theorem Read.pqReadData (h : Read x) (hphase : x.phase.processing = true)
    (hget : pqGetResult x.conn = none) (hone : (results x.conn.socket).length ≤ 1) :
    Read { x with conn := pqReadData x.conn } := by
  obtain ⟨hnull, hempty⟩ := pqGetResult_wait hget
  have hresults : results (x.conn.buffer ++ x.conn.socket) = results x.conn.socket := by
    rw [results_append, results, hempty, List.filter_nil, List.nil_append]
  refine ⟨?_, ?_, ?_⟩
  · simpa only [ResultReading.pqReadData, List.append_nil] using h.answering
  · exact (congrArg List.length hresults).trans_le hone
  · rintro (hnot | hdue)
    · rw [hphase] at hnot
      cases hnot
    · rw [show x.conn.nullDue = true from hdue] at hnull
      cases hnull

theorem Read.result (h : Read x) (hphase : x.phase.processing = true)
    (hget : pqGetResult x.conn = some (some res, conn)) (db : ServerDb C) :
    Read { x with db := db, conn := conn } := by
  obtain ⟨-, hanswers, cmd, hcmds, hconn⟩ := pqGetResult_result hget
  have hbuffer : results x.conn.buffer =
      if kind res = .query then res :: results conn.buffer else results conn.buffer := by
    rw [results, hanswers, List.filter_cons]
    simp only [decide_eq_true_eq]
    rfl
  have hone := h.one
  rw [hbuffer] at hone
  refine ⟨?_, ?_, ?_⟩
  · have hanswering := h.answering
    rw [Answering, answers_append, answers_append, hanswers, hcmds] at hanswering
    rw [hconn, Answering, answers_append, answers_append]
    exact (List.cons.inj hanswering).2
  · split at hone
    · exact Nat.le_of_succ_le hone
    · exact hone
  · rintro (hnot | hdue)
    · rw [hphase] at hnot
      cases hnot
    · dsimp only at hdue ⊢
      rw [hconn] at hdue
      rw [if_pos (by simpa using hdue), List.length_cons] at hone
      exact List.eq_nil_of_length_eq_zero (by omega)

theorem Read.null (h : Read x) (hget : pqGetResult x.conn = some (none, conn)) :
    Read { x with conn := conn, phase := x.phase.next } := by
  obtain ⟨hdone, rfl⟩ := pqGetResult_null hget
  have hnone : results x.conn.buffer = [] := by
    rcases hdone with hdue | hcmds
    · exact h.clear (.inr hdue)
    · have hanswering := h.answering
      rw [hcmds, Answering, answers_append, answers_append] at hanswering
      have hempty := (List.append_eq_nil_iff.mp (List.map_eq_nil_iff.mp hanswering)).1
      rw [results, (List.append_eq_nil_iff.mp hempty).1, List.filter_nil]
  exact ⟨h.answering, h.one, fun _ => hnone⟩

theorem Read.send {cmds : List PgCmd} (h : Read x) (hpieces : Answering cmds pieces)
    (db : ServerDb C) : Read { x with db := db, conn := x.conn.send cmds pieces } where
  answering := by
    have hanswering := h.answering
    rw [Answering] at hpieces hanswering ⊢
    rw [PGconn.send, ← List.append_assoc, answers_append, List.map_append, hpieces, hanswering]
  one := h.one
  clear := h.clear

theorem Read.step (h : Read x) (hstep : Step x a x') (hone : OneResult x a) : Read x' := by
  cases hstep with
  | arrive count => exact h.arrive count
  | poll hphase => exact ⟨h.answering, h.one, fun _ => h.clear (.inl (by rw [hphase]; rfl))⟩
  | read hphase _ hget _ => exact h.pqReadData hphase hget hone
  | result hphase _ hget => exact h.result hphase hget _
  | null _ _ hget => exact h.null hget
  | exec cmds pieces _ _ hpieces => exact h.send hpieces _
  | event client cmds pieces _ _ hpieces => exact h.send hpieces _
  | handled hphase => exact ⟨h.answering, h.one, fun _ => h.clear (.inl (by rw [hphase]; rfl))⟩

/-- As long as no read finds the results of several queries, none is left in the buffer while poll
waits for the socket. -/
theorem not_stalled
    (h : Reachable Initial (fun x a x' => Step x a x' ∧ OneResult x a) x) : ¬ Stalled x := by
  have hread : Read x := h.invariant (fun _ => read_initial)
    (fun _ _ _ hx hstep => hx.step hstep.1 hstep.2)
  rintro ⟨hphase, -, hne⟩
  exact hne (hread.clear (.inl (by rw [hphase]; rfl)))

def answer (n : Nat) : List Piece := [.last ⟨n, .tuplesOk, []⟩, .last ⟨n, .pipelineSync, []⟩]

def started : Worker Nat := ⟨dbInit, ⟨[.sync], [.last ⟨0, .pipelineSync, []⟩], [], [], false⟩, .init⟩

theorem started_initial : Initial started :=
  ⟨[.last ⟨0, .pipelineSync, []⟩], by decide, rfl⟩

def up : Worker Nat := ⟨dbInit, ⟨[], [], [], [], false⟩, .poll⟩

theorem reachable_up : Reachable Initial (fun x a x' => Step x a x' ∧ OneResult x a) up := by
  have h0 : Reachable Initial (fun x a x' => Step x a x' ∧ OneResult x a) started :=
    .start started_initial
  have h1 := h0.next ⟨.arrive 1, trivial⟩
  have h2 := h1.next ⟨.read rfl rfl rfl (List.cons_ne_nil _ _), by decide⟩
  have h3 := h2.next ⟨.result rfl rfl rfl, trivial⟩
  exact h3.next ⟨.null rfl rfl rfl, trivial⟩

theorem no_command : Command ([] : List (DbcmdCtx Nat)) := ⟨by simp, by simp⟩

theorem not_stalled_once : ∃ x : Worker Nat, x.db.executed = [0] ∧ ¬ Stalled x := by
  have h1 := reachable_up.next ⟨.poll rfl, trivial⟩
  have h2 := h1.next ⟨.event (some 7) _ (answer 0) rfl getUserInfo_command (by decide), trivial⟩
  have h3 := h2.next ⟨.handled rfl, trivial⟩
  have h4 := h3.next ⟨.arrive 2, trivial⟩
  have h5 := h4.next ⟨.poll rfl, trivial⟩
  have h6 := h5.next ⟨.read rfl rfl rfl (List.cons_ne_nil _ _), by decide⟩
  have h7 := h6.next ⟨.result rfl rfl rfl, trivial⟩
  have h8 := h7.next ⟨.exec [] [] rfl no_command (by decide), trivial⟩
  exact ⟨_, rfl, not_stalled h8⟩

/-- The answers to two queries arrive together, and the second one is left behind. -/
theorem two_answers_stall : ∃ x : Worker Nat, Reachable Initial Step x ∧ Stalled x := by
  have h0 : Reachable Initial Step up := reachable_up.mono (fun _ _ _ h => h.1)
  have h1 := h0.next (.poll rfl)
  have h2 := h1.next (.event (some 7) _ (answer 0) rfl getUserInfo_command (by decide))
  have h3 := h2.next (.event (some 8) _ (answer 1) rfl getUserInfo_command (by decide))
  have h4 := h3.next (.handled rfl)
  have h5 := h4.next (.arrive 4)
  have h6 := h5.next (.poll rfl)
  have h7 := h6.next (.read rfl rfl rfl (List.cons_ne_nil _ _))
  have h8 := h7.next (.result rfl rfl rfl)
  have h9 := h8.next (.exec [] [] rfl no_command (by decide))
  have h10 := h9.next (.null rfl rfl rfl)
  have h11 := h10.next (.handled rfl)
  exact ⟨_, h11, rfl, rfl, List.cons_ne_nil _ _⟩

end ChityChat.ResultReading
