import ChityChat.Termination
import Mathlib.Data.Fintype.BigOperators
import Mathlib.Algebra.Order.BigOperators.Group.Finset

namespace ChityChat.WorkerShutdown

open Transition Termination

def eworkerMaxEvents : Nat := 16

inductive Fd
  | eventfd
  | client (fd : Nat)
  deriving DecidableEq

/-- Where an event worker is in `server_eworker_async_run`. The timeout of `epoll_wait` is -1 when
it may block. The sockets of clients block: in a callback or a handler the worker `waits` while
`SSL_accept`, `SSL_read` or `SSL_write` waits for a client, or `PQgetResult` for the database. -/
inductive Pc
  | test
  | poll
  | results (waits : Bool)
  | wait
  | epoll (timeout : Int)
  | events (todo : List Fd)
  | handler (waits : Bool) (todo : List Fd)
  | exited
  deriving DecidableEq

def Pc.waits : Pc → Bool
  | .results waits | .handler waits _ => waits
  | _ => false

structure Eworker where
  pc : Pc
  /-- `ew->db.queue.count` -/
  queued : Nat

/-- Where the main thread is: in `server_wait_for_signals`, or behind it in `server_tm_shutdown`. -/
inductive Main
  | signals
  | cleanup
  | flagged
  | joining (i : Nat)
  deriving DecidableEq

/-- The server with `n` workers. `counter` is the eventfd's counter, which `eventfd_dummy_read`
does not read, and `ready` the descriptors of clients that epoll would report. -/
structure State (n : Nat) where
  main : Main
  shutdown : Bool
  counter : Nat
  workers : Fin n → Eworker
  ready : List Nat

variable {n : Nat}

def State.isReady (s : State n) : Fd → Prop
  | .eventfd => 0 < s.counter
  | .client fd => fd ∈ s.ready

/-- EPOLLONESHOT: what is reported to one worker is not reported again. -/
def State.reported (s : State n) (es : List Fd) : List Nat :=
  s.ready.filter (fun fd => Fd.client fd ∉ es)

inductive Act (n : Nat)
  | worker (i : Fin n)
  /-- A system call of the worker fails. -/
  | fail (i : Fin n)
  | main
  | arrival
  /-- The client or the database for which the worker waits answers, or hangs up. -/
  | wake (i : Fin n)

def Act.isThread : Act n → Bool
  | .worker _ | .fail _ | .main => true
  | .arrival | .wake _ => false

def State.set (s : State n) (i : Fin n) (w : Eworker) : State n :=
  { s with workers := Function.update s.workers i w }

/-- One turn of a worker. What `poll` finds and what `db_process_results` and the handlers queue is
open. -/
inductive WorkerStep (s : State n) (i : Fin n) : State n → Prop
  | leave (hpc : (s.workers i).pc = .test) (h : s.shutdown = true) :
      WorkerStep s i (s.set i ⟨.exited, (s.workers i).queued⟩)
  | loop (hpc : (s.workers i).pc = .test) (h : s.shutdown = false) :
      WorkerStep s i (s.set i ⟨.poll, (s.workers i).queued⟩)
  | pollReady (hpc : (s.workers i).pc = .poll) (waits : Bool) :
      WorkerStep s i (s.set i ⟨.results waits, (s.workers i).queued⟩)
  | pollEmpty (hpc : (s.workers i).pc = .poll) :
      WorkerStep s i (s.set i ⟨.wait, (s.workers i).queued⟩)
  | results (hpc : (s.workers i).pc = .results false) (queued : Nat) :
      WorkerStep s i (s.set i ⟨.wait, queued⟩)
  | wait (hpc : (s.workers i).pc = .wait) :
      WorkerStep s i (s.set i
        ⟨.epoll (if (s.workers i).queued = 0 then -1 else 0), (s.workers i).queued⟩)
  | epollReturn {timeout : Int} (hpc : (s.workers i).pc = .epoll timeout) (es : List Fd)
      (hlen : es.length ≤ eworkerMaxEvents) (hready : ∀ e ∈ es, s.isReady e)
      (hblock : es = [] → timeout = 0) :
      WorkerStep s i
        { s.set i ⟨.events es, (s.workers i).queued⟩ with ready := s.reported es }
  | handle {e : Fd} {es : List Fd} (hpc : (s.workers i).pc = .events (e :: es)) (waits : Bool) :
      WorkerStep s i (s.set i ⟨.handler waits es, (s.workers i).queued⟩)
  | rearm {es : List Fd} (hpc : (s.workers i).pc = .handler false es) (queued : Nat)
      (rearmed : List Nat) :
      WorkerStep s i { s.set i ⟨.events es, queued⟩ with ready := s.ready ++ rearmed }
  | handled (hpc : (s.workers i).pc = .events []) :
      WorkerStep s i (s.set i ⟨.test, (s.workers i).queued⟩)

inductive WorkerFail (s : State n) (i : Fin n) : State n → Prop
  | poll (hpc : (s.workers i).pc = .poll) :
      WorkerFail s i { s.set i ⟨.exited, (s.workers i).queued⟩ with shutdown := true }
  | epoll {timeout : Int} (hpc : (s.workers i).pc = .epoll timeout) :
      WorkerFail s i (s.set i ⟨.test, (s.workers i).queued⟩)

inductive MainStep (s : State n) : State n → Prop
  /-- SIGPIPE is read and nothing happens. -/
  | ignored (h : s.main = .signals) : MainStep s s
  /-- SIGINT or SIGTERM, or the read of the signalfd failed. -/
  | stopped (h : s.main = .signals) : MainStep s { s with main := .cleanup }
  | flag (h : s.main = .cleanup) : MainStep s { s with main := .flagged, shutdown := true }
  | write (h : s.main = .flagged) :
      MainStep s { s with main := .joining 0, counter := s.counter + 1 }
  | join {i : Nat} (h : s.main = .joining i) (hi : i < n)
      (hexit : (s.workers ⟨i, hi⟩).pc = .exited) : MainStep s { s with main := .joining (i + 1) }

/-- What worker `i` waits for has come. -/
inductive Wakes (s : State n) (i : Fin n) : State n → Prop
  | results (hpc : (s.workers i).pc = .results true) :
      Wakes s i (s.set i ⟨.results false, (s.workers i).queued⟩)
  | handler {es : List Fd} (hpc : (s.workers i).pc = .handler true es) :
      Wakes s i (s.set i ⟨.handler false es, (s.workers i).queued⟩)

inductive Step (s : State n) : Act n → State n → Prop
  | worker (i : Fin n) {s' : State n} (h : WorkerStep s i s') : Step s (.worker i) s'
  | fail (i : Fin n) {s' : State n} (h : WorkerFail s i s') : Step s (.fail i) s'
  | main {s' : State n} (h : MainStep s s') : Step s .main s'
  | arrival (fds : List Nat) : Step s .arrival { s with ready := s.ready ++ fds }
  | wake (i : Fin n) {s' : State n} (h : Wakes s i s') : Step s (.wake i) s'

/-- A worker whose `server_eworker_init` failed has left at once. -/
def Started (s : State n) : Prop :=
  s.main = .signals ∧ s.shutdown = false ∧ s.counter = 0 ∧
    ∀ i, (s.workers i).pc = .test ∨ (s.workers i).pc = .exited

def Main.closing : Main → Bool
  | .flagged | .joining _ => true
  | _ => false

/-- How many turns a worker takes at most when the flag is set. -/
def Pc.left : Pc → Nat
  | .exited => 0
  | .test => 1
  | .events todo => 2 * todo.length + 2
  | .handler _ todo => 2 * todo.length + 3
  | .epoll _ => 2 * eworkerMaxEvents + 3
  | .wait => 2 * eworkerMaxEvents + 4
  | .results _ => 2 * eworkerMaxEvents + 5
  | .poll => 2 * eworkerMaxEvents + 6

def Pc.todo : Pc → List Fd
  | .events todo | .handler _ todo => todo
  | _ => []

def Main.left (n : Nat) : Main → Nat
  | .joining i => n - i
  | _ => n + 1

def State.left (s : State n) : Nat := s.main.left n + ∑ i, (s.workers i).pc.left

structure Inv (s : State n) : Prop where
  flag : s.main.closing = true → s.shutdown = true
  written : ∀ i, s.main = .joining i → 0 < s.counter
  joined : ∀ i, s.main = .joining i → i ≤ n ∧ ∀ j : Fin n, j < i → (s.workers j).pc = .exited
  todo : ∀ i, (s.workers i).pc.todo.length ≤ eworkerMaxEvents

structure Turn (s : State n) (i : Fin n) (s' : State n) : Prop where
  main : s'.main = s.main
  counter : s'.counter = s.counter
  shutdown : s.shutdown = true → s'.shutdown = true
  others : ∀ j, j ≠ i → s'.workers j = s.workers j
  active : (s.workers i).pc ≠ .exited
  left : s.shutdown = true → (s'.workers i).pc.left < (s.workers i).pc.left
  todo : (s'.workers i).pc.todo.length ≤ eworkerMaxEvents

@[simp] theorem set_self (s : State n) (i : Fin n) (w : Eworker) : (s.set i w).workers i = w :=
  Function.update_self ..

theorem set_other (s : State n) {i j : Fin n} (w : Eworker) (h : j ≠ i) :
    (s.set i w).workers j = s.workers j :=
  Function.update_of_ne h ..

theorem WorkerStep.turn {s s' : State n} {i : Fin n} (hi : Inv s) (h : WorkerStep s i s') :
    Turn s i s' := by
  have hothers : ∀ (w : Eworker) j, j ≠ i → (s.set i w).workers j = s.workers j :=
    fun w j hj => set_other s w hj
  have htodo := hi.todo i
  cases h with
  | leave hpc | loop hpc | pollReady hpc | pollEmpty hpc | results hpc | wait hpc | handled hpc =>
      refine ⟨rfl, rfl, id, hothers _, by simp [hpc], ?_, by simp [Pc.todo]⟩
      intro hs
      simp_all [Pc.left]
  | epollReturn hpc es hlen =>
      refine ⟨rfl, rfl, id, hothers _, by simp [hpc], ?_, by simpa [Pc.todo] using hlen⟩
      intro _
      simp only [set_self, hpc, Pc.left]
      omega
  | handle hpc | rearm hpc =>
      rw [hpc] at htodo
      simp only [Pc.todo, List.length_cons] at htodo
      refine ⟨rfl, rfl, id, hothers _, by simp [hpc], ?_, ?_⟩
      · intro _
        simp only [set_self, hpc, Pc.left, List.length_cons]
        omega
      · simp only [set_self, Pc.todo]
        omega

theorem WorkerFail.turn {s s' : State n} {i : Fin n} (h : WorkerFail s i s') : Turn s i s' := by
  have hothers : ∀ (w : Eworker) j, j ≠ i → (s.set i w).workers j = s.workers j :=
    fun w j hj => set_other s w hj
  cases h with
  | poll hpc =>
      exact ⟨rfl, rfl, fun _ => rfl, hothers _, by simp [hpc], fun _ => by simp [hpc, Pc.left],
        by simp [Pc.todo]⟩
  | epoll hpc =>
      exact ⟨rfl, rfl, id, hothers _, by simp [hpc], fun _ => by simp [hpc, Pc.left],
        by simp [Pc.todo]⟩

theorem Turn.inv {s s' : State n} {i : Fin n} (hi : Inv s) (h : Turn s i s') : Inv s' where
  flag hc := h.shutdown (hi.flag (h.main ▸ hc))
  written j hj := by
    rw [h.counter]
    exact hi.written j (h.main ▸ hj)
  joined j hj := by
    obtain ⟨hle, hexit⟩ := hi.joined j (h.main ▸ hj)
    refine ⟨hle, fun k hk => ?_⟩
    have hne : k ≠ i := by
      rintro rfl
      exact h.active (hexit k hk)
    rw [h.others k hne]
    exact hexit k hk
  todo j := by
    by_cases hji : j = i
    · subst hji
      exact h.todo
    · rw [h.others j hji]
      exact hi.todo j

theorem Wakes.pc {s s' : State n} {i : Fin n} (h : Wakes s i s') (j : Fin n) :
    ((s'.workers j).pc = .exited ↔ (s.workers j).pc = .exited) ∧
      (s'.workers j).pc.left = (s.workers j).pc.left ∧ (s'.workers j).pc.todo = (s.workers j).pc.todo := by
  cases h with
  | results hpc | handler hpc =>
      by_cases hji : j = i
      · subst hji
        simp [hpc, Pc.left, Pc.todo]
      · rw [set_other s _ hji]
        exact ⟨Iff.rfl, rfl, rfl⟩

theorem Wakes.same {s s' : State n} {i : Fin n} (h : Wakes s i s') :
    s'.main = s.main ∧ s'.counter = s.counter ∧ s'.shutdown = s.shutdown := by
  cases h <;> exact ⟨rfl, rfl, rfl⟩

theorem Wakes.inv {s s' : State n} {i : Fin n} (hi : Inv s) (h : Wakes s i s') : Inv s' := by
  obtain ⟨hmain, hcounter, hshutdown⟩ := h.same
  refine ⟨?_, ?_, ?_, fun j => (h.pc j).2.2 ▸ hi.todo j⟩
  · rw [hmain, hshutdown]
    exact hi.flag
  · rw [hmain, hcounter]
    exact hi.written
  · intro j hj
    obtain ⟨hle, hexit⟩ := hi.joined j (hmain ▸ hj)
    exact ⟨hle, fun k hk => (h.pc k).1.mpr (hexit k hk)⟩

theorem Wakes.left {s s' : State n} {i : Fin n} (h : Wakes s i s') : s'.left = s.left := by
  rw [State.left, State.left, h.same.1]
  exact congrArg _ (Finset.sum_congr rfl (fun j _ => (h.pc j).2.1))

theorem MainStep.inv {s s' : State n} (hi : Inv s) (h : MainStep s s') : Inv s' := by
  cases h with
  | ignored => exact hi
  | stopped hm => exact ⟨nofun, nofun, nofun, hi.todo⟩
  | flag hm => exact ⟨fun _ => rfl, nofun, nofun, hi.todo⟩
  | write hm =>
      refine ⟨fun _ => hi.flag (by rw [hm]; rfl), fun _ _ => Nat.succ_pos _, ?_, hi.todo⟩
      intro i heq
      obtain rfl := Main.joining.inj heq
      exact ⟨Nat.zero_le n, fun j hj => absurd hj (Nat.not_lt_zero _)⟩
  | @join i hm hlt hexit =>
      refine ⟨fun _ => hi.flag (by rw [hm]; rfl), fun _ _ => hi.written i hm, ?_, hi.todo⟩
      intro i' heq
      obtain rfl := Main.joining.inj heq
      refine ⟨hlt, fun j hj => ?_⟩
      rcases Nat.lt_succ_iff_lt_or_eq.mp hj with hj | hj
      · exact (hi.joined i hm).2 j hj
      · obtain rfl : j = ⟨i, hlt⟩ := Fin.ext hj
        exact hexit

theorem Step.inv {s s' : State n} {a : Act n} (hi : Inv s) (h : Step s a s') : Inv s' := by
  cases h with
  | worker i h => exact (h.turn hi).inv hi
  | fail i h => exact h.turn.inv hi
  | main h => exact h.inv hi
  | arrival fds => exact ⟨hi.flag, hi.written, hi.joined, hi.todo⟩
  | wake i h => exact h.inv hi

theorem reachable_inv {s : State n} (h : Reachable Started Step s) : Inv s := by
  refine h.invariant ?_ (fun _ _ _ hi hs => hs.inv hi)
  rintro s ⟨hmain, -, -, hpc⟩
  refine ⟨?_, ?_, ?_, ?_⟩
  · rw [hmain]
    nofun
  · rw [hmain]
    nofun
  · rw [hmain]
    nofun
  · intro i
    rcases hpc i with ht | ht <;> rw [ht] <;> exact Nat.zero_le _

theorem Step.closing {s s' : State n} {a : Act n} (hi : Inv s) (hc : s.main.closing = true)
    (h : Step s a s') : s'.main.closing = true := by
  cases h with
  | worker i h => rw [(h.turn hi).main, hc]
  | fail i h => rw [h.turn.main, hc]
  | arrival => exact hc
  | wake i h => rw [h.same.1, hc]
  | main h =>
      cases h with
      | ignored => exact hc
      | stopped hm | flag hm | write hm | join hm => first | rfl | (rw [hm] at hc; cases hc)

/-- The main thread joins a worker that waits for a client or the database. -/
def State.Held (s : State n) : Prop := ∃ i : Fin n, s.main = .joining i ∧ (s.workers i).pc.waits = true

def oneWorker (main : Main) (shutdown : Bool) (counter : Nat) (pc : Pc) : State 1 :=
  ⟨main, shutdown, counter, fun _ => ⟨pc, 0⟩, []⟩

theorem oneWorker_set (main : Main) (shutdown : Bool) (counter : Nat) (pc pc' : Pc) :
    (oneWorker main shutdown counter pc).set 0 ⟨pc', 0⟩ = oneWorker main shutdown counter pc' := by
  simp only [oneWorker, State.set, State.mk.injEq, true_and, and_true]
  funext i
  rw [Fin.fin_one_eq_zero i, Function.update_self]

theorem oneWorker_step {main : Main} {shutdown : Bool} {counter : Nat} {pc pc' : Pc}
    (h : WorkerStep (oneWorker main shutdown counter pc) 0
      ((oneWorker main shutdown counter pc).set 0 ⟨pc', 0⟩)) :
    Step (oneWorker main shutdown counter pc) (.worker 0) (oneWorker main shutdown counter pc') :=
  oneWorker_set main shutdown counter pc pc' ▸ .worker 0 h

theorem oneWorker_flagged : Reachable Started Step (oneWorker .flagged true 0 (.epoll (-1))) := by
  have hstart : Reachable Started Step (oneWorker .signals false 0 .test) :=
    .start ⟨rfl, rfl, rfl, fun _ => .inl rfl⟩
  have hblocked : Reachable Started Step (oneWorker .signals false 0 (.epoll (-1))) :=
    ((hstart.next (oneWorker_step (.loop rfl rfl))).next (oneWorker_step (.pollEmpty rfl))).next
      (oneWorker_step (.wait rfl))
  exact (hblocked.next (.main (.stopped rfl))).next (.main (.flag rfl))

theorem eventfd_ready {main : Main} {shutdown : Bool} {pc : Pc} :
    ∀ e ∈ [Fd.eventfd], (oneWorker main shutdown 1 pc).isReady e :=
  fun _ he => List.mem_singleton.mp he ▸ Nat.one_pos

/-- A client that stays silent holds the shutdown up: no thread can take a turn. -/
theorem silent_client_holds : ∃ s : State 1, Reachable Started Step s ∧ s.main.closing = true ∧
    s.main ≠ .joining 1 ∧ ∀ a s', a.isThread = true → ¬ Step s a s' := by
  have hwrite : Reachable Started Step (oneWorker (.joining 0) true 1 (.epoll (-1))) :=
    oneWorker_flagged.next (.main (.write rfl))
  have hevents := hwrite.next (oneWorker_step (.epollReturn rfl [.eventfd] (by decide) eventfd_ready nofun))
  refine ⟨_, hevents.next (oneWorker_step (.handle rfl true)), rfl, nofun, ?_⟩
  intro a s' ha hs
  cases hs with
  | worker i h =>
      cases h with
      | leave hpc | loop hpc | pollReady hpc | pollEmpty hpc | results hpc | wait hpc | epollReturn hpc
      | handle hpc | rearm hpc | handled hpc => cases hpc
  | fail i h =>
      cases h with
      | poll hpc | epoll hpc => cases hpc
  | main h =>
      cases h with
      | join hm hi hexit => cases hm; cases hexit
      | ignored hm | stopped hm | flag hm | write hm => cases hm
  | arrival | wake => cases ha

end ChityChat.WorkerShutdown
