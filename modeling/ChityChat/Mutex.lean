import Mathlib.Data.List.Basic
import Mathlib.Logic.Function.Basic

namespace ChityChat.Mutex

variable {σ C P R T : Type*} [DecidableEq T]

/-- The code of an object's calls. A call returns at once (`inr`), or it takes the lock and goes on
at a place of the code, where one access to the object leads to the next place or to the result. -/
structure Code (σ C P R : Type*) where
  enter : C → P ⊕ R
  access : P → σ → σ × (P ⊕ R)

inductive Runs (M : Code σ C P R) : P → σ → σ → R → Prop
  | done {p : P} {s s' : σ} {r : R} (h : M.access p s = (s', .inr r)) : Runs M p s s' r
  | step {p p' : P} {s s₁ s' : σ} {r : R} (h : M.access p s = (s₁, .inl p'))
      (hr : Runs M p' s₁ s' r) : Runs M p s s' r

structure Computes (M : Code σ C P R) (f : C → σ → σ × R) : Prop where
  quick : ∀ c r, M.enter c = .inr r → ∀ s, f c s = (s, r)
  body : ∀ c p, M.enter c = .inl p → ∀ s, Runs M p s (f c s).1 (f c s).2

/-- Where a thread is in its call. `since` is the number of calls that had returned when it was
made. -/
inductive Phase (C P R : Type*)
  | idle
  | calling (c : C) (since : Nat)
  | inside (c : C) (p : P) (since : Nat)
  | leaving (c : C) (r : R) (since : Nat)

structure Entry (C R T : Type*) where
  thread : T
  call : C
  result : R
  since : Nat

structure State (σ C P R T : Type*) where
  obj : σ
  owner : Option T
  phase : T → Phase C P R
  log : List (Entry C R T)

/-- A thread makes a call, or takes the next step of the one it is in. -/
inductive Act (C T : Type*)
  | call (t : T) (c : C)
  | go (t : T)

def start (s : σ) : State σ C P R T := ⟨s, none, fun _ => .idle, []⟩

def State.goTo (s : State σ C P R T) (t : T) (ph : Phase C P R) : State σ C P R T :=
  { s with phase := Function.update s.phase t ph }

def State.finish (s : State σ C P R T) (t : T) (c : C) (r : R) (since : Nat) :
    State σ C P R T :=
  { s.goTo t .idle with log := s.log ++ [⟨t, c, r, since⟩] }

/-- A thread that cannot go on, because the lock is taken, stays where it is. -/
def exec (M : Code σ C P R) (s : State σ C P R T) : Act C T → State σ C P R T
  | .call t c =>
      match s.phase t with
      | .idle => s.goTo t (.calling c s.log.length)
      | _ => s
  | .go t =>
      match s.phase t with
      | .idle => s
      | .calling c since =>
          match M.enter c, s.owner with
          | .inr r, _ => s.finish t c r since
          | .inl p, none => { s.goTo t (.inside c p since) with owner := some t }
          | .inl _, some _ => s
      | .inside c p since =>
          match M.access p s.obj with
          | (obj, .inl p') => { s.goTo t (.inside c p' since) with obj := obj }
          | (obj, .inr r) => { s.goTo t (.leaving c r since) with obj := obj }
      | .leaving c r since => { s.finish t c r since with owner := none }

def run (M : Code σ C P R) (s : State σ C P R T) (acts : List (Act C T)) : State σ C P R T :=
  acts.foldl (exec M) s

def replay (f : C → σ → σ × R) (s : σ) (log : List (Entry C R T)) : σ :=
  log.foldl (fun s e => (f e.call s).1) s

def Sequential (f : C → σ → σ × R) : σ → List (Entry C R T) → Prop
  | _, [] => True
  | s, e :: es => e.result = (f e.call s).2 ∧ Sequential f (f e.call s).1 es

/-- A call that had returned before another was made stands before it in the log. -/
def KeepsOrder (log : List (Entry C R T)) : Prop :=
  ∀ i (e : Entry C R T), log[i]? = some e → e.since ≤ i

omit [DecidableEq T] in
theorem replay_append (f : C → σ → σ × R) (s : σ) (log : List (Entry C R T)) (e : Entry C R T) :
    replay f s (log ++ [e]) = (f e.call (replay f s log)).1 := by
  simp [replay]

omit [DecidableEq T] in
theorem sequential_append (f : C → σ → σ × R) (log : List (Entry C R T)) (e : Entry C R T) (s : σ) :
    Sequential f s (log ++ [e]) ↔
      Sequential f s log ∧ e.result = (f e.call (replay f s log)).2 := by
  induction log generalizing s with
  | nil => simp [Sequential, replay]
  | cons a log ih =>
      simp only [List.cons_append, Sequential, replay, List.foldl_cons]
      rw [ih, replay, and_assoc]

omit [DecidableEq T] in
theorem KeepsOrder.append {log : List (Entry C R T)} {e : Entry C R T} (h : KeepsOrder log)
    (he : e.since ≤ log.length) : KeepsOrder (log ++ [e]) := by
  intro i e' hi
  rcases Nat.lt_trichotomy i log.length with hlt | rfl | hgt
  · exact h i e' (by rwa [List.getElem?_append_left hlt] at hi)
  · rw [List.getElem?_concat_length, Option.some.injEq] at hi
    exact hi ▸ he
  · rw [List.getElem?_eq_none (by simp; omega)] at hi
    cases hi

/-- What the object and the place of the lock's owner have to do with the calls in the log. -/
inductive OwnerAt (M : Code σ C P R) (f : C → σ → σ × R) (base obj : σ) : Phase C P R → Prop
  | inside {c : C} {p : P} {since : Nat} (h : Runs M p obj (f c base).1 (f c base).2) :
      OwnerAt M f base obj (.inside c p since)
  | leaving {c : C} {r : R} {since : Nat} (h : f c base = (obj, r)) :
      OwnerAt M f base obj (.leaving c r since)

def Phase.outside : Phase C P R → Prop
  | .idle | .calling .. => True
  | _ => False

def Phase.since : Phase C P R → Nat
  | .idle => 0
  | .calling _ n | .inside _ _ n | .leaving _ _ n => n

structure Inv (M : Code σ C P R) (f : C → σ → σ × R) (s₀ : σ) (s : State σ C P R T) : Prop where
  sequential : Sequential f s₀ s.log
  keepsOrder : KeepsOrder s.log
  since : ∀ t, (s.phase t).since ≤ s.log.length
  free : s.owner = none → s.obj = replay f s₀ s.log
  outside : ∀ t, s.owner ≠ some t → (s.phase t).outside
  owned : ∀ t, s.owner = some t → OwnerAt M f (replay f s₀ s.log) s.obj (s.phase t)

omit [DecidableEq T] in
theorem start_inv (M : Code σ C P R) (f : C → σ → σ × R) (s₀ : σ) :
    Inv M f s₀ (start s₀ : State σ C P R T) where
  sequential := trivial
  keepsOrder := by intro i e h; simp [start] at h
  since _ := Nat.zero_le _
  free _ := rfl
  outside _ _ := trivial
  owned t h := by cases h

theorem finish_since {s : State σ C P R T} {t : T} {c : C} {r : R} {n : Nat}
    (h : ∀ t', (s.phase t').since ≤ s.log.length) (t' : T) :
    ((s.finish t c r n).phase t').since ≤ (s.finish t c r n).log.length := by
  have hlen : (s.finish t c r n).log.length = s.log.length + 1 := by simp [State.finish]
  rw [hlen]
  by_cases ht : t' = t
  · subst ht
    simp [State.finish, State.goTo, Phase.since]
  · simp only [State.finish, State.goTo, Function.update_of_ne ht]
    exact Nat.le_succ_of_le (h t')

variable {M : Code σ C P R} {f : C → σ → σ × R} {s₀ : σ}

theorem Inv.call {s : State σ C P R T} (h : Inv M f s₀ s) (t : T) (c : C) :
    Inv M f s₀ (exec M s (.call t c)) := by
  simp only [exec]
  split
  case h_2 => exact h
  case h_1 hph =>
    have hne : s.owner ≠ some t := by
      intro ho
      have hown := h.owned t ho
      rw [hph] at hown
      cases hown
    refine ⟨h.sequential, h.keepsOrder, ?_, h.free, ?_, ?_⟩
    · intro t'
      by_cases ht : t' = t
      · subst ht
        simp [State.goTo, Phase.since]
      · simpa only [State.goTo, Function.update_of_ne ht] using h.since t'
    · intro t' ho
      by_cases ht : t' = t
      · subst ht
        simp [State.goTo, Phase.outside]
      · simpa only [State.goTo, Function.update_of_ne ht] using h.outside t' ho
    · intro t' ho
      have ht : t' ≠ t := by
        rintro rfl
        exact hne ho
      simpa only [State.goTo, Function.update_of_ne ht] using h.owned t' ho

theorem Inv.quick (hM : Computes M f) {s : State σ C P R T} (h : Inv M f s₀ s) {t : T} {c : C}
    {r : R} {n : Nat} (hph : s.phase t = .calling c n) (he : M.enter c = .inr r) :
    Inv M f s₀ (s.finish t c r n) := by
  have hf : ∀ obj, f c obj = (obj, r) := hM.quick c r he
  have hbase : replay f s₀ (s.finish t c r n).log = replay f s₀ s.log := by
    rw [State.finish, replay_append, hf]
  have hne : s.owner ≠ some t := by
    intro ho
    have hown := h.owned t ho
    rw [hph] at hown
    cases hown
  refine ⟨?_, ?_, finish_since h.since, ?_, ?_, ?_⟩
  · rw [State.finish, sequential_append]
    exact ⟨h.sequential, by rw [hf]⟩
  · have hn := h.since t
    rw [hph] at hn
    exact h.keepsOrder.append hn
  · intro ho
    rw [hbase]
    exact h.free ho
  · intro t' ho
    by_cases ht : t' = t
    · subst ht
      simp [State.finish, State.goTo, Phase.outside]
    · simpa only [State.finish, State.goTo, Function.update_of_ne ht] using h.outside t' ho
  · intro t' ho
    have ht : t' ≠ t := by
      rintro rfl
      exact hne ho
    rw [hbase]
    simpa only [State.finish, State.goTo, Function.update_of_ne ht] using h.owned t' ho

theorem Inv.lock (hM : Computes M f) {s : State σ C P R T} (h : Inv M f s₀ s) {t : T} {c : C}
    {p : P} {n : Nat} (hph : s.phase t = .calling c n) (he : M.enter c = .inl p)
    (ho : s.owner = none) :
    Inv M f s₀ { s.goTo t (.inside c p n) with owner := some t } := by
  refine ⟨h.sequential, h.keepsOrder, ?_, nofun, ?_, ?_⟩
  · intro t'
    by_cases ht : t' = t
    · subst ht
      have hn := h.since t'
      rw [hph] at hn
      simpa [State.goTo, Phase.since] using hn
    · simpa only [State.goTo, Function.update_of_ne ht] using h.since t'
  · intro t' hne
    have ht : t' ≠ t := fun e => hne (by rw [e])
    simpa only [State.goTo, Function.update_of_ne ht] using h.outside t' (by rw [ho]; nofun)
  · intro t' ht
    obtain rfl : t = t' := Option.some.inj ht
    simp only [State.goTo, Function.update_self]
    exact .inside (by rw [h.free ho]; exact hM.body c p he _)

/-- An access is the owner's: nobody else is inside. -/
theorem Inv.access {s : State σ C P R T} (h : Inv M f s₀ s) {t : T} {c : C} {p : P} {n : Nat}
    (hph : s.phase t = .inside c p n) : Inv M f s₀ (exec M s (.go t)) := by
  have ho : s.owner = some t := by
    by_contra hne
    have hout := h.outside t hne
    rw [hph] at hout
    exact hout
  have hother : ∀ t', s.owner ≠ some t' → t' ≠ t := fun t' hne e => hne (by rw [ho, e])
  have hsince : ∀ ph : Phase C P R, ph.since = n → ∀ t', ((s.goTo t ph).phase t').since ≤ s.log.length := by
    intro ph hphs t'
    by_cases ht : t' = t
    · subst ht
      have hn := h.since t'
      rw [hph] at hn
      simp only [State.goTo, Function.update_self, hphs]
      exact hn
    · simpa only [State.goTo, Function.update_of_ne ht] using h.since t'
  have hout : ∀ ph : Phase C P R, ∀ t', s.owner ≠ some t' → ((s.goTo t ph).phase t').outside := by
    intro ph t' hne
    simpa only [State.goTo, Function.update_of_ne (hother t' hne)] using h.outside t' hne
  have hown := h.owned t ho
  rw [hph] at hown
  obtain ⟨hruns⟩ | _ := hown
  simp only [exec, hph]
  cases hruns with
  | done hacc =>
      rw [hacc]
      refine ⟨h.sequential, h.keepsOrder, hsince (.leaving c _ n) rfl, ?_, hout _, ?_⟩
      · intro hnone
        rw [show s.owner = none from hnone] at ho
        cases ho
      · intro t' ht
        obtain rfl : t = t' := Option.some.inj (ho.symm.trans ht)
        simp only [State.goTo, Function.update_self]
        exact .leaving rfl
  | step hacc hr =>
      rw [hacc]
      refine ⟨h.sequential, h.keepsOrder, hsince (.inside c _ n) rfl, ?_, hout _, ?_⟩
      · intro hnone
        rw [show s.owner = none from hnone] at ho
        cases ho
      · intro t' ht
        obtain rfl : t = t' := Option.some.inj (ho.symm.trans ht)
        simp only [State.goTo, Function.update_self]
        exact .inside hr

theorem Inv.unlock {s : State σ C P R T} (h : Inv M f s₀ s) {t : T} {c : C} {r : R} {n : Nat}
    (hph : s.phase t = .leaving c r n) :
    Inv M f s₀ { s.finish t c r n with owner := none } := by
  have ho : s.owner = some t := by
    by_contra hne
    have hout := h.outside t hne
    rw [hph] at hout
    exact hout
  have hown := h.owned t ho
  rw [hph] at hown
  obtain _ | ⟨hf⟩ := hown
  refine ⟨?_, ?_, finish_since h.since, ?_, ?_, nofun⟩
  · exact (sequential_append f s.log ⟨t, c, r, n⟩ s₀).mpr ⟨h.sequential, by rw [hf]⟩
  · have hn := h.since t
    rw [hph] at hn
    exact h.keepsOrder.append hn
  · intro _
    refine Eq.symm ((replay_append f s₀ s.log ⟨t, c, r, n⟩).trans ?_)
    rw [hf]
    rfl
  · intro t' _
    by_cases ht : t' = t
    · subst ht
      simp [State.finish, State.goTo, Phase.outside]
    · simpa only [State.finish, State.goTo, Function.update_of_ne ht] using
        h.outside t' (fun e => ht (Option.some.inj (e.symm.trans ho)))

theorem Inv.exec (hM : Computes M f) {s : State σ C P R T} (h : Inv M f s₀ s) (a : Act C T) :
    Inv M f s₀ (exec M s a) := by
  cases a with
  | call t c => exact h.call t c
  | go t =>
      cases hph : s.phase t with
      | idle => simpa only [Mutex.exec, hph] using h
      | calling c n =>
          simp only [Mutex.exec, hph]
          split
          case h_1 he => exact h.quick hM hph he
          case h_2 he ho => exact h.lock hM hph he ho
          case h_3 => exact h
      | inside c p n => exact h.access hph
      | leaving c r n => simpa only [Mutex.exec, hph] using h.unlock hph

theorem run_inv (hM : Computes M f) {s : State σ C P R T} (h : Inv M f s₀ s)
    (acts : List (Act C T)) : Inv M f s₀ (run M s acts) := by
  induction acts generalizing s with
  | nil => exact h
  | cons a acts ih => exact ih (h.exec hM a)

theorem owner_unlocks {s : State σ C P R T} (h : Inv M f s₀ s) {t : T} (ho : s.owner = some t) :
    ∃ k, (run M s (List.replicate k (.go t))).owner = none := by
  have hleave : ∀ (s : State σ C P R T) c r n, s.phase t = .leaving c r n →
      (run M s [.go t]).owner = none := by
    intro s c r n hph
    simp [run, exec, hph]
  have hinside : ∀ {p obj obj' r}, Runs M p obj obj' r → ∀ (s : State σ C P R T) c n,
      s.phase t = .inside c p n → s.obj = obj →
      ∃ k, (run M s (List.replicate k (.go t))).owner = none := by
    intro p obj obj' r hr
    induction hr with
    | @done p obj obj' r hacc =>
        intro s c n hph hobj
        refine ⟨2, ?_⟩
        have hnext : (exec M s (.go t)).phase t = .leaving c r n := by
          simp [exec, hph, hobj, hacc, State.goTo]
        exact hleave _ c r n hnext
    | @step p p' obj obj₁ obj' r hacc _ ih =>
        intro s c n hph hobj
        have hnext : (exec M s (.go t)).phase t = .inside c p' n := by
          simp [exec, hph, hobj, hacc, State.goTo]
        have hobj₁ : (exec M s (.go t)).obj = obj₁ := by simp [exec, hph, hobj, hacc]
        obtain ⟨k, hk⟩ := ih (exec M s (.go t)) c n hnext hobj₁
        exact ⟨k + 1, hk⟩
  have hown := h.owned t ho
  cases hph : s.phase t with
  | idle => rw [hph] at hown; cases hown
  | calling => rw [hph] at hown; cases hown
  | inside c p n =>
      rw [hph] at hown
      obtain ⟨hruns⟩ | _ := hown
      exact hinside hruns s c n hph rfl
  | leaving c r n => exact ⟨1, hleave s c r n hph⟩

def Phase.Calls (Q : C → Prop) : Phase C P R → Prop
  | .idle => True
  | .calling c _ | .inside c _ _ | .leaving c _ _ => Q c

structure Made (Q : C → Prop) (s : State σ C P R T) : Prop where
  log : ∀ e ∈ s.log, Q e.call
  phase : ∀ t, (s.phase t).Calls Q

def Act.Makes (Q : C → Prop) : Act C T → Prop
  | .call _ c => Q c
  | .go _ => True

theorem Made.goTo {Q : C → Prop} {s : State σ C P R T} (h : Made Q s) {t : T} {ph : Phase C P R}
    (hph : ph.Calls Q) (t' : T) : ((s.goTo t ph).phase t').Calls Q := by
  by_cases ht : t' = t
  · subst ht
    simpa only [State.goTo, Function.update_self] using hph
  · simpa only [State.goTo, Function.update_of_ne ht] using h.phase t'

theorem Made.finish {Q : C → Prop} {s : State σ C P R T} (h : Made Q s) {t : T} {c : C} {r : R}
    {n : Nat} (hc : Q c) : Made Q (s.finish t c r n) := by
  refine ⟨?_, h.goTo trivial⟩
  intro e he
  rcases List.mem_append.mp he with he | he
  · exact h.log e he
  · obtain rfl := List.mem_singleton.mp he
    exact hc

theorem Made.exec {Q : C → Prop} {s : State σ C P R T} (h : Made Q s) {a : Act C T}
    (ha : a.Makes Q) : Made Q (exec M s a) := by
  cases a with
  | call t c =>
      simp only [Mutex.exec]
      split
      · exact ⟨h.log, h.goTo ha⟩
      · exact h
  | go t =>
      have hph := h.phase t
      cases hp : s.phase t with
      | idle => simpa only [Mutex.exec, hp] using h
      | calling c n =>
          rw [hp] at hph
          simp only [Mutex.exec, hp]
          split
          · exact h.finish hph
          · exact ⟨h.log, h.goTo hph⟩
          · exact h
      | inside c p n =>
          rw [hp] at hph
          simp only [Mutex.exec, hp]
          split
          · exact ⟨h.log, h.goTo hph⟩
          · exact ⟨h.log, h.goTo hph⟩
      | leaving c r n =>
          rw [hp] at hph
          simp only [Mutex.exec, hp]
          have hfin : Made Q (s.finish t c r n) := h.finish hph
          exact ⟨hfin.log, hfin.phase⟩

theorem run_made {Q : C → Prop} (s : σ) {acts : List (Act C T)} (ha : ∀ a ∈ acts, a.Makes Q) :
    Made Q (run M (start s) acts) := by
  have hrun : ∀ (s : State σ C P R T), Made Q s → Made Q (run M s acts) := by
    induction acts with
    | nil => exact fun s h => h
    | cons a acts ih =>
        obtain ⟨ha, hacts⟩ := List.forall_mem_cons.mp ha
        exact fun s h => ih hacts _ (h.exec ha)
  exact hrun _ ⟨fun e he => absurd he List.not_mem_nil, fun _ => trivial⟩

end ChityChat.Mutex
