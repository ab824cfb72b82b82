import Mathlib.Data.List.Basic

namespace ChityChat.Register

variable {α : Type*}

/-- A write to a copy of a value, which may not be there yet: `put` makes the copy, `set` is for one
that is there. -/
inductive Write (α : Type*)
  | put (a : α)
  | set (a : α)

def Write.value : Write α → α
  | .put a | .set a => a

def write (v : Option α) : Write α → Option α
  | .put a => some a
  | .set a => v.map (fun _ => a)

def after (v : Option α) (ws : List (Write α)) : Option α := ws.foldl write v

@[simp] theorem after_nil (v : Option α) : after v [] = v := rfl

theorem after_append (v : Option α) (ws ws' : List (Write α)) :
    after v (ws ++ ws') = after (after v ws) ws' :=
  List.foldl_append ..

theorem after_last {v : Option α} {ws : List (Write α)} {w : Write α} (hw : ws.getLast? = some w) {a : α}
    (h : after v ws = some a) : a = w.value := by
  obtain ⟨ws, rfl⟩ := List.getLast?_eq_some_iff.mp hw
  rw [after_append] at h
  cases w with
  | put b => exact (Option.some.inj h).symm
  | set b =>
      obtain ⟨-, -, rfl⟩ := Option.map_eq_some_iff.mp h
      rfl

/-- A copy has the value, or will have it with the last write under way. -/
structure Tracks (cur : α) (v : Option α) (ws : List (Write α)) : Prop where
  last : ∀ w ∈ ws.getLast?, w.value = cur
  copy : ws = [] → ∀ a, v = some a → a = cur

variable {cur : α} {v : Option α} {ws us ws' : List (Write α)}

theorem Tracks.deliver (h : Tracks cur v (ws ++ ws')) : Tracks cur (after v ws) ws' := by
  refine ⟨fun w hw => h.last w ?_, ?_⟩
  · rw [List.getLast?_append, hw]
    rfl
  · rintro rfl a ha
    rw [List.append_nil] at h
    cases hl : ws.getLast? with
    | none =>
        obtain rfl := List.getLast?_eq_none_iff.mp hl
        exact h.copy rfl a ha
    | some w => exact (after_last hl ha).trans (h.last w hl)

theorem Tracks.insert (h : Tracks cur v (ws ++ ws')) (hus : ∀ w ∈ us, w.value = cur) :
    Tracks cur v (ws ++ (us ++ ws')) := by
  constructor
  · intro w hw
    rw [List.getLast?_append, List.getLast?_append] at hw
    have hlast := h.last
    rw [List.getLast?_append] at hlast
    cases hl' : ws'.getLast? with
    | some w' =>
        rw [hl'] at hw hlast
        exact hlast w hw
    | none =>
        cases hl : us.getLast? with
        | some w' =>
            rw [hl', hl] at hw
            obtain rfl := Option.some.inj hw
            exact hus _ (List.mem_of_getLast? hl)
        | none =>
            rw [hl', hl] at hw
            rw [hl'] at hlast
            exact hlast w hw
  · intro hnil
    obtain ⟨rfl, hrest⟩ := List.append_eq_nil_iff.mp hnil
    exact h.copy (List.append_eq_nil_iff.mp hrest).2

theorem Tracks.write (v : Option α) (ws : List (Write α)) (w : Write α) : Tracks w.value v (ws ++ [w]) := by
  refine ⟨fun w' hw => ?_, fun hnil => by simp at hnil⟩
  rw [List.getLast?_concat] at hw
  rw [Option.some.inj hw]

theorem Tracks.lose {w : Write α} (h : Tracks cur none (w :: ws)) : Tracks cur none ws := by
  refine ⟨fun w' hw => h.last w' ?_, fun _ _ ha => by cases ha⟩
  rw [List.getLast?_cons, hw]
  rfl

end ChityChat.Register
