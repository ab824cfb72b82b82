import ChityChat.Transition
import Mathlib.Data.List.Basic

namespace ChityChat.Termination

variable {S A : Type*}

/-- A run with the actions it takes. -/
inductive Run (step : S → A → S → Prop) : S → List A → S → Prop
  | nil (s : S) : Run step s [] s
  | cons {s s' s'' : S} {a : A} {as : List A} (hs : step s a s') (hr : Run step s' as s'') :
      Run step s (a :: as) s''

theorem Run.reachable {init : S → Prop} {step : S → A → S → Prop} {s s' : S} {as : List A}
    (h : Run step s as s') (hs : Transition.Reachable init step s) :
    Transition.Reachable init step s' := by
  induction h with
  | nil => exact hs
  | cons hstep _ ih => exact ih (hs.next hstep)

end ChityChat.Termination
