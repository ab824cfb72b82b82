import Mathlib.Data.List.Basic

namespace ChityChat.Replica

variable {α : Type*}

/-- What is sent of a set that only grows: an empty replica is set up, or it is sent the whole set, or
one more element. -/
inductive Update (α : Type*)
  | reset
  | snapshot (as : List α)
  | add (a : α)

/-- A replica, if there is one. `loaded` says whether it has been sent a whole set. -/
structure View (α : Type*) where
  list : Option (List α)
  loaded : Bool

def View.apply (v : View α) : Update α → View α
  | .reset => ⟨some [], false⟩
  | .snapshot as => ⟨v.list.map (fun _ => as), v.loaded || v.list.isSome⟩
  | .add a => ⟨v.list.map (fun as => as ++ [a]), v.loaded⟩

def View.after (v : View α) (us : List (Update α)) : View α := us.foldl View.apply v

@[simp] theorem View.after_nil (v : View α) : v.after [] = v := rfl

@[simp] theorem View.after_cons (v : View α) (u : Update α) (us : List (Update α)) :
    v.after (u :: us) = (v.apply u).after us := rfl

theorem View.after_append (v : View α) (us us' : List (Update α)) :
    v.after (us ++ us') = (v.after us).after us' :=
  List.foldl_append ..

theorem View.isSome_after {v : View α} {us : List (Update α)} (h : (v.after us).list.isSome) :
    v.list.isSome ∨ .reset ∈ us := by
  induction us generalizing v with
  | nil => exact .inl h
  | cons u us ih =>
      rcases ih h with hs | hm
      · cases u with
        | reset => exact .inr List.mem_cons_self
        | snapshot as => exact .inl (by simpa [View.apply] using hs)
        | add a => exact .inl (by simpa [View.apply] using hs)
      · exact .inr (List.mem_cons_of_mem u hm)

theorem View.loaded_after {v : View α} {us : List (Update α)} (h : (v.after us).loaded = true) :
    v.loaded = true ∨ ∃ as, .snapshot as ∈ us := by
  induction us generalizing v with
  | nil => exact .inl h
  | cons u us ih =>
      rcases ih h with hl | ⟨as, hm⟩
      · cases u with
        | reset => cases hl
        | snapshot as => exact .inr ⟨as, List.mem_cons_self⟩
        | add a => exact .inl hl
      · exact .inr ⟨as, List.mem_cons_of_mem u hm⟩

theorem View.after_adds {v : View α} {as : List α} (h : v.list = some as) (bs : List α) :
    (v.after (bs.map .add)).list = some (as ++ bs) := by
  induction bs generalizing v as with
  | nil =>
      rw [List.append_nil]
      exact h
  | cons b bs ih =>
      have happly : (v.apply (.add b)).list = some (as ++ [b]) := by
        rw [View.apply, h]
        rfl
      rw [List.map_cons, View.after_cons, ih happly, List.append_assoc, List.singleton_append]

/-- With the updates under way a loaded replica has everything of the source but what is late, of
which the update has still to be sent. -/
def Complete (source late : α → Prop) (v : View α) (us : List (Update α)) : Prop :=
  (v.after us).loaded = true → ∀ as, (v.after us).list = some as → ∀ a, source a → a ∈ as ∨ late a

variable {source source' late late' : α → Prop} {v : View α} {us us' : List (Update α)}

theorem Complete.deliver (h : Complete source late v (us ++ us')) :
    Complete source late (v.after us) us' := by
  rw [Complete, ← View.after_append]
  exact h

theorem Complete.mono (h : Complete source late v us) (hs : ∀ a, source' a → source a ∨ late' a)
    (hl : ∀ a, late a → late' a) : Complete source' late' v us := by
  intro hloaded as has a ha
  rcases hs a ha with ha | ha
  · exact (h hloaded as has a ha).imp_right (hl a)
  · exact .inr ha

theorem Complete.snapshot {as : List α} (h : ∀ a, source a → a ∈ as) :
    Complete source late v (us ++ [.snapshot as]) := by
  intro _ bs hbs a ha
  rw [View.after_append] at hbs
  obtain ⟨-, -, rfl⟩ := Option.map_eq_some_iff.mp hbs
  exact .inl (h a ha)

theorem Complete.add (h : Complete source late v us) {a : α} (hl : ∀ b, late b → b = a ∨ late' b) :
    Complete source late' v (us ++ [.add a]) := by
  intro hloaded bs hbs b hb
  rw [View.after_append] at hloaded hbs
  obtain ⟨as, has, rfl⟩ := Option.map_eq_some_iff.mp hbs
  rcases h hloaded as has b hb with hm | hm
  · exact .inl (List.mem_append_left _ hm)
  · rcases hl b hm with rfl | hm
    · exact .inl (List.mem_append_right _ (List.mem_singleton_self b))
    · exact .inr hm

theorem Complete.reset : Complete source late v (us ++ [.reset]) := by
  intro hloaded
  rw [View.after_append] at hloaded
  cases hloaded

theorem Complete.resets (h : Complete source late v us) (hr : ∀ u ∈ us', u = .reset) :
    Complete source late v (us ++ us') := by
  induction us' generalizing us with
  | nil =>
      rw [List.append_nil]
      exact h
  | cons u us' ih =>
      have hu : u = .reset := hr u List.mem_cons_self
      have hone : Complete source late v (us ++ [u]) := by
        rw [hu]
        exact .reset
      have hall := ih hone (fun u hm => hr u (List.mem_cons_of_mem _ hm))
      rwa [List.append_assoc] at hall

theorem Complete.absent (h : (v.after us).list = none) : Complete source late v us := by
  intro _ as has
  rw [h] at has
  cases has

theorem Complete.settled (h : Complete source late v []) (hl : ∀ a, ¬ late a) (hloaded : v.loaded = true)
    {as : List α} (has : v.list = some as) {a : α} (ha : source a) : a ∈ as :=
  (h hloaded as has a ha).resolve_right (hl a)

end ChityChat.Replica
