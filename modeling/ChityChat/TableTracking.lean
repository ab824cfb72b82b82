import Mathlib.Logic.Function.Basic

namespace ChityChat.TableTracking

variable {K A P : Type} {table : K → Option A} {pc : A → P} {key : P → Option K}

def Within (table : K → Option A) (pc : A → P) (key : P → Option K) : Prop :=
  ∀ k a, table k = some a → key (pc a) = some k

def Held (table : K → Option A) (pc : A → P) (key : P → Option K) : Prop :=
  ∀ k a, key (pc a) = some k → table k = some a

theorem Held.unique (h : Held table pc key) {k : K} {a b : A} (ha : key (pc a) = some k)
    (hb : key (pc b) = some k) : a = b :=
  Option.some.inj ((h k a ha).symm.trans (h k b hb))

section Move

variable [DecidableEq A] {a : A} {p : P}

theorem Within.move (h : Within table pc key) (hp : key p = key (pc a) ∨ key (pc a) = none) :
    Within table (Function.update pc a p) key := by
  intro k b hk
  have hold := h k b hk
  by_cases hb : b = a
  · subst hb
    rw [Function.update_self]
    rcases hp with hp | hp
    · rw [hp, hold]
    · simp [hp] at hold
  · rwa [Function.update_of_ne hb]

theorem Held.move (h : Held table pc key) (hp : key p = key (pc a) ∨ key p = none) :
    Held table (Function.update pc a p) key := by
  intro k b hk
  by_cases hb : b = a
  · subst hb
    rw [Function.update_self] at hk
    rcases hp with hp | hp
    · exact h k b (hp ▸ hk)
    · simp [hp] at hk
  · rw [Function.update_of_ne hb] at hk
    exact h k b hk

variable [DecidableEq K] {k : K}

theorem Within.insert (h : Within table pc key) (hold : key (pc a) = none) (hp : key p = some k) :
    Within (Function.update table k (some a)) (Function.update pc a p) key := by
  intro j b hj
  by_cases hk : j = k
  · subst hk
    rw [Function.update_self, Option.some.injEq] at hj
    subst hj
    rw [Function.update_self, hp]
  · rw [Function.update_of_ne hk] at hj
    exact (h.move (Or.inr hold)) j b hj

theorem Held.insert (h : Held table pc key) (hfree : table k = none) (hp : key p = some k) :
    Held (Function.update table k (some a)) (Function.update pc a p) key := by
  intro j b hj
  by_cases hb : b = a
  · subst hb
    rw [Function.update_self, hp, Option.some.injEq] at hj
    rw [← hj, Function.update_self]
  · rw [Function.update_of_ne hb] at hj
    have hold := h j b hj
    have hk : j ≠ k := by
      rintro rfl
      simp [hfree] at hold
    rwa [Function.update_of_ne hk]

theorem Within.delete (h : Within table pc key) (hold : ∀ j, key (pc a) = some j → j = k) :
    Within (Function.update table k none) (Function.update pc a p) key := by
  intro j b hj
  by_cases hk : j = k
  · subst hk
    simp at hj
  · rw [Function.update_of_ne hk] at hj
    have hkey := h j b hj
    by_cases hb : b = a
    · subst hb
      exact absurd (hold j hkey) hk
    · rwa [Function.update_of_ne hb]

theorem Held.delete (h : Held table pc key) (hold : key (pc a) = some k) (hp : key p = none) :
    Held (Function.update table k none) (Function.update pc a p) key := by
  intro j b hj
  by_cases hb : b = a
  · subst hb
    simp [hp] at hj
  · rw [Function.update_of_ne hb] at hj
    have hk : j ≠ k := by
      rintro rfl
      exact hb (h.unique hj hold)
    rw [Function.update_of_ne hk]
    exact h j b hj

end Move

section Keys

variable [DecidableEq K] {k : K}

theorem within_single {a : A} (ha : key (pc a) = some k) :
    Within (Function.update (fun _ => none) k (some a)) pc key := by
  intro j b hj
  rw [Function.update_apply, Option.ite_none_right_eq_some, Option.some.injEq] at hj
  rw [← hj.2, hj.1, ha]

theorem held_single {a : A} (ha : key (pc a) = some k) (hothers : ∀ b, b ≠ a → key (pc b) = none) :
    Held (Function.update (fun _ => none) k (some a)) pc key := by
  intro j b hj
  have hb : b = a := by
    by_contra hb
    simp [hothers b hb] at hj
  rw [hb, ha, Option.some.injEq] at hj
  rw [← hj, hb, Function.update_self]

theorem Within.clear (h : Within table pc key) (k : K) :
    Within (Function.update table k none) pc key := by
  intro j b hj
  by_cases hk : j = k
  · subst hk
    simp at hj
  · rw [Function.update_of_ne hk] at hj
    exact h j b hj

theorem Held.clear (h : Held table pc key) (hk : ∀ b, key (pc b) ≠ some k) :
    Held (Function.update table k none) pc key := by
  intro j b hj
  have hne : j ≠ k := by
    rintro rfl
    exact hk b hj
  rw [Function.update_of_ne hne]
  exact h j b hj

end Keys

end ChityChat.TableTracking
