import Mathlib.Logic.Relation

namespace ChityChat.Transition

variable {S A : Type*}

/-- The states that runs from an initial state reach. -/
inductive Reachable (init : S → Prop) (step : S → A → S → Prop) : S → Prop
  | start {s : S} (h : init s) : Reachable init step s
  | next {s s' : S} {a : A} (h : Reachable init step s) (hs : step s a s') : Reachable init step s'

theorem Reachable.invariant {init : S → Prop} {step : S → A → S → Prop} {I : S → Prop}
    (h0 : ∀ s, init s → I s) (hstep : ∀ s a s', I s → step s a s' → I s') {s : S}
    (h : Reachable init step s) : I s := by
  induction h with
  | start h => exact h0 _ h
  | next _ hs ih => exact hstep _ _ _ ih hs

theorem Reachable.mono {init : S → Prop} {step step' : S → A → S → Prop}
    (hstep : ∀ s a s', step s a s' → step' s a s') {s : S} (h : Reachable init step s) :
    Reachable init step' s := by
  induction h with
  | start h => exact .start h
  | next _ hs ih => exact ih.next (hstep _ _ _ hs)

theorem Reachable.run {init : S → Prop} {step : S → A → S → Prop} {s t : S} (h : Reachable init step s)
    (hrun : Relation.ReflTransGen (fun s t => ∃ a, step s a t) s t) : Reachable init step t := by
  induction hrun with
  | refl => exact h
  | tail _ hs ih =>
      obtain ⟨a, hs⟩ := hs
      exact ih.next hs

/-- Each step of one system is a run of the other. -/
theorem Reachable.refines {T B : Type*} {init : S → Prop} {step : S → A → S → Prop} {init' : T → Prop}
    {step' : T → B → T → Prop} {f : S → T} (h0 : ∀ s, init s → init' (f s))
    (hstep : ∀ s a t, step s a t → Relation.ReflTransGen (fun s t => ∃ b, step' s b t) (f s) (f t)) {s : S}
    (h : Reachable init step s) : Reachable init' step' (f s) := by
  induction h with
  | start h => exact .start (h0 _ h)
  | next _ hs ih => exact ih.run (hstep _ _ _ hs)

end ChityChat.Transition
