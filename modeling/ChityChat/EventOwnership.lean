import ChityChat.Transition
import Mathlib.Data.List.Nodup

namespace ChityChat.EventOwnership

open Transition

variable {W : Type} [DecidableEq W]

inductive Kind
  | listen
  | client
  | timer
  deriving DecidableEq

/-- How far an event is in `server_new_event`, and in a `server_del_event` that was called for it,
each up to the operation that comes next. `free` is memory that no event has. -/
inductive Pc
  | free
  | inserting
  | adding
  | errRemoving
  | errDeleting
  | live
  | removing
  | closing
  | unlisting
  deriving DecidableEq

/-- A worker is in `epoll_wait`, in the loop over what it reported, or in `server_process_event`. -/
inductive Phase
  | waiting
  | between
  | processing
  deriving DecidableEq

/-- Events by their addresses, the open descriptors, the registrations with the event that they
point to and whether they are armed, and `event_ht`. A worker has the events that were reported to
it and are not finished, a descriptor that it looks up and what it has found. -/
structure State (W : Type) where
  pc : Nat → Pc
  kind : Nat → Kind
  fd : Nat → Int
  isOpen : Int → Bool
  epoll : Int → Option (Nat × Bool)
  eventHt : Int → Option Nat
  phase : W → Phase
  batch : W → List Nat
  looking : W → Option Int
  found : W → Option Nat

def State.goto (x : State W) (e : Nat) (p : Pc) : State W :=
  { x with pc := Function.update x.pc e p }

def State.finish (x : State W) (w : W) (rest : List Nat) : State W :=
  { x with
    batch := Function.update x.batch w rest
    phase := Function.update x.phase w .between }

def epollDel (x : State W) (n : Int) : State W :=
  { x with epoll := Function.update x.epoll n none }

def epollMod (x : State W) (e : Nat) : State W :=
  if (x.epoll (x.fd e)).isSome then
    { x with epoll := Function.update x.epoll (x.fd e) (some (e, true)) }
  else x

def close (x : State W) (n : Int) : State W :=
  { epollDel x n with isOpen := Function.update x.isOpen n false }

def ghtDel (x : State W) (n : Int) : State W :=
  { x with eventHt := Function.update x.eventHt n none }

inductive Action (W : Type)
  | newEvent (e : Nat) (kind : Kind) (n : Int)
  | insert (e : Nat)
  | add (e : Nat)
  | errRemove (e : Nat)
  | errDelete (e : Nat)
  | wait (w : W)
  | report (w : W) (n : Int)
  | reported (w : W)
  | process (w : W)
  | rearm (w : W)
  | ignore (w : W)
  | delEvent (w : W)
  | readTimerfd (w : W) (e : Nat)
  | getEvent (w : W)
  | delFound (w : W)
  | remove (e : Nat)
  | close (e : Nat)
  | unlist (e : Nat)

/-- The operations on events, of any number of workers in any order. Workers call
`server_del_event` for the event that they process, and for one that `server_get_event` has found
under the descriptor of a timer. -/
inductive Step : State W → Action W → State W → Prop
  | newEvent {x : State W} {e : Nat} (kind : Kind) {n : Int} (he : x.pc e = .free)
      (hn : x.isOpen n = false) :
    Step x (.newEvent e kind n) ({ x with
      kind := Function.update x.kind e kind
      fd := Function.update x.fd e n
      isOpen := Function.update x.isOpen n true }.goto e .inserting)
  | insert {x : State W} {e : Nat} (he : x.pc e = .inserting) (hfree : x.eventHt (x.fd e) = none) :
    Step x (.insert e)
      ({ x with eventHt := Function.update x.eventHt (x.fd e) (some e) }.goto e .adding)
  | insertFails {x : State W} {e : Nat} (he : x.pc e = .inserting)
      (htaken : x.eventHt (x.fd e) ≠ none) :
    Step x (.insert e) (x.goto e .errRemoving)
  | add {x : State W} {e : Nat} (he : x.pc e = .adding) (hopen : x.isOpen (x.fd e) = true)
      (hfree : x.epoll (x.fd e) = none) :
    Step x (.add e)
      ({ x with epoll := Function.update x.epoll (x.fd e) (some (e, true)) }.goto e .live)
  | addFails {x : State W} {e : Nat} (he : x.pc e = .adding) :
    Step x (.add e) (x.goto e .errRemoving)
  | errRemove {x : State W} {e : Nat} (he : x.pc e = .errRemoving) :
    Step x (.errRemove e) ((epollDel x (x.fd e)).goto e .errDeleting)
  | errDelete {x : State W} {e : Nat} (he : x.pc e = .errDeleting) :
    Step x (.errDelete e) ((close (ghtDel x (x.fd e)) (x.fd e)).goto e .free)
  | wait {x : State W} {w : W} (hphase : x.phase w = .between) (hbatch : x.batch w = []) :
    Step x (.wait w) { x with phase := Function.update x.phase w .waiting }
  | report {x : State W} {w : W} {n : Int} {e : Nat} (hphase : x.phase w = .waiting)
      (harmed : x.epoll n = some (e, true)) :
    Step x (.report w n) { x with
      epoll := Function.update x.epoll n (some (e, false))
      batch := Function.update x.batch w (x.batch w ++ [e]) }
  | reported {x : State W} {w : W} (hphase : x.phase w = .waiting) :
    Step x (.reported w) { x with phase := Function.update x.phase w .between }
  | process {x : State W} {w : W} (hphase : x.phase w = .between) (hbatch : x.batch w ≠ []) :
    Step x (.process w) { x with phase := Function.update x.phase w .processing }
  | rearm {x : State W} {w : W} {e : Nat} {rest : List Nat} (hphase : x.phase w = .processing)
      (hbatch : x.batch w = e :: rest) :
    Step x (.rearm w) ((epollMod x e).finish w rest)
  | ignore {x : State W} {w : W} {e : Nat} {rest : List Nat} (hphase : x.phase w = .processing)
      (hbatch : x.batch w = e :: rest) :
    Step x (.ignore w) (x.finish w rest)
  | delEvent {x : State W} {w : W} {e : Nat} {rest : List Nat} (hphase : x.phase w = .processing)
      (hbatch : x.batch w = e :: rest) (he : x.pc e = .live) :
    Step x (.delEvent w) ((x.finish w rest).goto e .removing)
  | readTimerfd {x : State W} {e : Nat} (w : W) (he : x.pc e ≠ .free) (hkind : x.kind e = .timer) :
    Step x (.readTimerfd w e) { x with looking := Function.update x.looking w (some (x.fd e)) }
  | getEvent {x : State W} {w : W} {n : Int} (hlooking : x.looking w = some n) :
    Step x (.getEvent w) { x with
      looking := Function.update x.looking w none
      found := Function.update x.found w (x.eventHt n) }
  | delFound {x : State W} {w : W} {e : Nat} (hfound : x.found w = some e) (he : x.pc e = .live) :
    Step x (.delFound w) ({ x with found := Function.update x.found w none }.goto e .removing)
  | remove {x : State W} {e : Nat} (he : x.pc e = .removing) :
    Step x (.remove e) ((epollDel x (x.fd e)).goto e .closing)
  | close {x : State W} {e : Nat} (he : x.pc e = .closing) :
    Step x (.close e) ((close x (x.fd e)).goto e .unlisting)
  | unlist {x : State W} {e : Nat} (he : x.pc e = .unlisting) :
    Step x (.unlist e) ((ghtDel x (x.fd e)).goto e .free)

structure Initial (x : State W) : Prop where
  pc : ∀ e, x.pc e = .free
  epoll : ∀ n, x.epoll n = none
  eventHt : ∀ n, x.eventHt n = none
  phase : ∀ w, x.phase w = .waiting
  batch : ∀ w, x.batch w = []
  looking : ∀ w, x.looking w = none
  found : ∀ w, x.found w = none

/-- An event that was found is deleted while it waits in epoll, and not reported any more then. -/
def Waiting (x : State W) : Action W → Prop
  | .delFound w => ∀ e ∈ x.found w, x.epoll (x.fd e) = some (e, true)
  | .report _ n => ∀ e b, x.epoll n = some (e, b) → x.pc e ≠ .removing
  | _ => True

variable {x x' : State W} {a : Action W} {w : W} {e : Nat} {n : Int} {rest : List Nat}

/-- What is armed or reported is live. Only what a lookup has found can be armed while it is being
deleted. -/
structure Owned (x : State W) : Prop where
  live : ∀ w e, e ∈ x.batch w → x.pc e = .live
  one : ∀ w w' e, e ∈ x.batch w → e ∈ x.batch w' → w' = w
  nodup : ∀ w, (x.batch w).Nodup
  armed : ∀ n e, x.epoll n = some (e, true) →
    x.fd e = n ∧ (x.pc e = .live ∨ x.pc e = .removing) ∧ ∀ w, e ∉ x.batch w

omit [DecidableEq W] in
theorem owned_initial (h : Initial x) : Owned x where
  live w e he := by simp [h.batch w] at he
  one w _ e he := by simp [h.batch w] at he
  nodup w := by simp [h.batch w]
  armed n e he := by simp [h.epoll n] at he

omit [DecidableEq W] in
theorem Owned.same (h : Owned x) (hpc : x'.pc = x.pc) (hfd : x'.fd = x.fd)
    (hepoll : x'.epoll = x.epoll) (hbatch : x'.batch = x.batch) : Owned x' := by
  refine ⟨?_, ?_, ?_, ?_⟩
  · rw [hbatch, hpc]
    exact h.live
  · rw [hbatch]
    exact h.one
  · rw [hbatch]
    exact h.nodup
  · rw [hepoll, hfd, hpc, hbatch]
    exact h.armed

omit [DecidableEq W] in
theorem Owned.notMem (h : Owned x) (he : x.pc e ≠ .live) (w : W) : e ∉ x.batch w :=
  fun hmem => he (h.live w e hmem)

omit [DecidableEq W] in
theorem Owned.not_armed (h : Owned x) (hlive : x.pc e ≠ .live) (hremoving : x.pc e ≠ .removing) :
    x.epoll n ≠ some (e, true) :=
  fun harmed => (h.armed n e harmed).2.1.elim hlive hremoving

omit [DecidableEq W] in
theorem Owned.epollDel (h : Owned x) (n : Int) : Owned (epollDel x n) where
  live := h.live
  one := h.one
  nodup := h.nodup
  armed m e he := by
    rcases eq_or_ne m n with rfl | hne
    · simp [EventOwnership.epollDel] at he
    · exact h.armed m e (by simpa [EventOwnership.epollDel, hne] using he)

omit [DecidableEq W] in
theorem Owned.goto (h : Owned x) (hlive : x.pc e ≠ .live)
    (harmed : ∀ n, x.epoll n ≠ some (e, true)) (p : Pc) : Owned (x.goto e p) where
  live w f hf := by
    have hne : f ≠ e := fun heq => hlive (heq ▸ h.live w f hf)
    simpa [State.goto, hne] using h.live w f hf
  one := h.one
  nodup := h.nodup
  armed n f hf := by
    have hne : f ≠ e := fun heq => harmed n (heq ▸ hf)
    simpa [State.goto, hne] using h.armed n f hf

omit [DecidableEq W] in
theorem Owned.advance {q : Pc} (h : Owned x) (he : x.pc e = q) (hlive : q ≠ .live)
    (hremoving : q ≠ .removing) (p : Pc) : Owned (x.goto e p) := by
  subst he
  exact h.goto hlive (fun _ => h.not_armed hlive hremoving) p

omit [DecidableEq W] in
theorem Owned.newEvent (h : Owned x) (he : x.pc e = .free) (n : Int) :
    Owned { x with fd := Function.update x.fd e n } where
  live := h.live
  one := h.one
  nodup := h.nodup
  armed m f hf := by
    have hne : f ≠ e := by
      rintro rfl
      exact h.not_armed (by rw [he]; nofun) (by rw [he]; nofun) hf
    simpa [hne] using h.armed m f hf

omit [DecidableEq W] in
theorem Owned.arm (h : Owned x) (he : x.pc e = .live) (hfree : ∀ w, e ∉ x.batch w) :
    Owned { x with epoll := Function.update x.epoll (x.fd e) (some (e, true)) } where
  live := h.live
  one := h.one
  nodup := h.nodup
  armed m f hf := by
    dsimp only at hf
    rcases eq_or_ne m (x.fd e) with rfl | hne
    · rw [Function.update_self] at hf
      obtain rfl : e = f := congrArg Prod.fst (Option.some.inj hf)
      exact ⟨rfl, .inl he, hfree⟩
    · rw [Function.update_of_ne hne] at hf
      exact h.armed m f hf

omit [DecidableEq W] in
theorem Owned.add (h : Owned x) (he : x.pc e = .adding) :
    Owned ({ x with epoll := Function.update x.epoll (x.fd e) (some (e, true)) }.goto e .live) := by
  have hlive : Owned (x.goto e .live) := h.advance he nofun nofun _
  exact hlive.arm (Function.update_self ..) (h.notMem (by rw [he]; nofun))

theorem Owned.report (h : Owned x) (harmed : x.epoll n = some (e, true))
    (hremoving : x.pc e ≠ .removing) (w : W) :
    Owned { x with
      epoll := Function.update x.epoll n (some (e, false))
      batch := Function.update x.batch w (x.batch w ++ [e]) } := by
  obtain ⟨hfd, hpc, hfree⟩ := h.armed n e harmed
  have hmem : ∀ v f, f ∈ Function.update x.batch w (x.batch w ++ [e]) v →
      f ∈ x.batch v ∨ f = e ∧ v = w := by
    intro v f hf
    rcases eq_or_ne v w with rfl | hne
    · rw [Function.update_self, List.mem_append, List.mem_singleton] at hf
      exact hf.imp_right (fun hfe => ⟨hfe, rfl⟩)
    · rw [Function.update_of_ne hne] at hf
      exact .inl hf
  refine ⟨?_, ?_, ?_, ?_⟩
  · intro v f hf
    rcases hmem v f hf with hold | ⟨rfl, -⟩
    · exact h.live v f hold
    · exact hpc.resolve_right hremoving
  · intro v v' f hf hf'
    rcases hmem v f hf with hold | ⟨rfl, rfl⟩
    · rcases hmem v' f hf' with hold' | ⟨rfl, -⟩
      · exact h.one v v' f hold hold'
      · exact absurd hold (hfree v)
    · rcases hmem v' f hf' with hold' | ⟨-, rfl⟩
      · exact absurd hold' (hfree v')
      · rfl
  · have hnodup : (x.batch w ++ [e]).Nodup :=
      List.Nodup.append (h.nodup w) (List.nodup_singleton e) (by simpa using hfree w)
    exact (Function.forall_update_iff x.batch (fun _ es => es.Nodup)).mpr
      ⟨hnodup, fun v _ => h.nodup v⟩
  · intro m f hf
    have hold : x.epoll m = some (f, true) ∧ m ≠ n := by
      rcases eq_or_ne m n with rfl | hne
      · simp at hf
      · exact ⟨by simpa [hne] using hf, hne⟩
    obtain ⟨hfd', hpc', hfree'⟩ := h.armed m f hold.1
    refine ⟨hfd', hpc', fun v hv => ?_⟩
    rcases hmem v f hv with hbatch | ⟨rfl, -⟩
    · exact hfree' v hbatch
    · exact hold.2 (hfd'.symm.trans hfd)

theorem Owned.notMem_finish (h : Owned x) (hbatch : x.batch w = e :: rest) (v : W) :
    e ∉ (x.finish w rest).batch v := by
  have he : e ∈ x.batch w := by rw [hbatch]; exact List.mem_cons_self
  intro hmem
  dsimp only [State.finish] at hmem
  rcases eq_or_ne v w with rfl | hne
  · rw [Function.update_self] at hmem
    have hnodup := h.nodup v
    rw [hbatch] at hnodup
    exact (List.nodup_cons.mp hnodup).1 hmem
  · rw [Function.update_of_ne hne] at hmem
    exact hne (h.one w v e he hmem)

theorem Owned.finish (h : Owned x) (hbatch : x.batch w = e :: rest) : Owned (x.finish w rest) := by
  have hsub : ∀ v f, f ∈ (x.finish w rest).batch v → f ∈ x.batch v := by
    intro v f hf
    dsimp only [State.finish] at hf
    rcases eq_or_ne v w with rfl | hne
    · rw [Function.update_self] at hf
      rw [hbatch]
      exact List.mem_cons_of_mem _ hf
    · rwa [Function.update_of_ne hne] at hf
  refine ⟨fun v f hf => h.live v f (hsub v f hf),
    fun v v' f hf hf' => h.one v v' f (hsub v f hf) (hsub v' f hf'), ?_, ?_⟩
  · have hnodup := h.nodup w
    rw [hbatch] at hnodup
    exact (Function.forall_update_iff x.batch (fun _ es => es.Nodup)).mpr
      ⟨(List.nodup_cons.mp hnodup).2, fun v _ => h.nodup v⟩
  · intro m f hf
    obtain ⟨hfd, hpc, hfree⟩ := h.armed m f hf
    exact ⟨hfd, hpc, fun v hv => hfree v (hsub v f hv)⟩

theorem Owned.rearm (h : Owned x) (hbatch : x.batch w = e :: rest) :
    Owned ((epollMod x e).finish w rest) := by
  have hdone := h.finish hbatch
  have he : x.pc e = .live := h.live w e (by rw [hbatch]; exact List.mem_cons_self)
  rw [epollMod]
  split
  · exact hdone.arm he (h.notMem_finish hbatch)
  · exact hdone

omit [DecidableEq W] in
theorem Owned.del (h : Owned x) (hfree : ∀ w, e ∉ x.batch w) : Owned (x.goto e .removing) where
  live w f hf := by
    have hne : f ≠ e := fun heq => hfree w (heq ▸ hf)
    simpa [State.goto, hne] using h.live w f hf
  one := h.one
  nodup := h.nodup
  armed n f hf := by
    obtain ⟨hfd, hpc, hfree'⟩ := h.armed n f hf
    refine ⟨hfd, ?_, hfree'⟩
    rcases eq_or_ne f e with rfl | hne
    · exact .inr (Function.update_self ..)
    · simpa [State.goto, hne] using hpc

omit [DecidableEq W] in
theorem Owned.remove (h : Owned x) (he : x.pc e = .removing) :
    Owned ((EventOwnership.epollDel x (x.fd e)).goto e .closing) := by
  refine (h.epollDel (x.fd e)).goto (by dsimp only [EventOwnership.epollDel]; rw [he]; nofun) ?_ _
  intro n harmed
  have hfd : x.fd e = n := ((h.epollDel (x.fd e)).armed n e harmed).1
  rw [← hfd] at harmed
  simp [EventOwnership.epollDel] at harmed

theorem Owned.step (h : Owned x) (hstep : Step x a x') (hwaiting : Waiting x a) : Owned x' := by
  cases hstep with
  | newEvent kind he _ =>
      exact ((h.newEvent he _).advance he nofun nofun _).same rfl rfl rfl rfl
  | insert he _ => exact (h.advance he nofun nofun _).same rfl rfl rfl rfl
  | insertFails he _ => exact h.advance he nofun nofun _
  | add he _ _ => exact h.add he
  | addFails he => exact h.advance he nofun nofun _
  | errRemove he => exact (h.epollDel _).advance he nofun nofun _
  | errDelete he => exact ((h.epollDel _).advance he nofun nofun _).same rfl rfl rfl rfl
  | wait | reported | process | readTimerfd | getEvent => exact h.same rfl rfl rfl rfl
  | report _ harmed => exact h.report harmed (hwaiting _ _ harmed) _
  | rearm _ hbatch => exact h.rearm hbatch
  | ignore _ hbatch => exact h.finish hbatch
  | delEvent _ hbatch _ => exact (h.finish hbatch).del (h.notMem_finish hbatch)
  | delFound hfound _ =>
      exact (h.del (h.armed _ _ (hwaiting _ hfound)).2.2).same rfl rfl rfl rfl
  | remove he => exact h.remove he
  | close he => exact ((h.epollDel _).advance he nofun nofun _).same rfl rfl rfl rfl
  | unlist he => exact (h.advance he nofun nofun _).same rfl rfl rfl rfl

def idle : State Nat :=
  ⟨fun _ => .free, fun _ => .listen, fun _ => -1, fun _ => false, fun _ => none, fun _ => none,
    fun _ => .waiting, fun _ => [], fun _ => none, fun _ => none⟩

end ChityChat.EventOwnership
