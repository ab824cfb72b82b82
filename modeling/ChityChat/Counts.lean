import Mathlib.Data.Multiset.AddSub
import Mathlib.Logic.Function.Basic

namespace ChityChat.Counts

variable {α : Type*} [DecidableEq α] {refs : Multiset α} {a : α}

def counts (refs : Multiset α) : α → Option Int :=
  fun a => if a ∈ refs then some (refs.count a) else none

theorem counts_of_mem (h : a ∈ refs) : counts refs a = some (refs.count a : Int) := if_pos h

theorem counts_of_notMem (h : a ∉ refs) : counts refs a = none := if_neg h

theorem counts_zero : counts (0 : Multiset α) = fun _ => none :=
  funext (fun a => counts_of_notMem (Multiset.notMem_zero a))

theorem counts_eq_none : counts refs a = none ↔ a ∉ refs := by
  refine ⟨fun h hmem => ?_, counts_of_notMem⟩
  rw [counts_of_mem hmem] at h
  cases h

theorem counts_getD (refs : Multiset α) (a : α) : (counts refs a).getD 0 = refs.count a := by
  by_cases h : a ∈ refs
  · rw [counts_of_mem h, Option.getD_some]
  · rw [counts_of_notMem h, Multiset.count_eq_zero_of_notMem h]
    rfl

theorem counts_pos {n : Int} (h : counts refs a = some n) : 0 < n := by
  have hmem : a ∈ refs := by
    by_contra hnot
    rw [counts_of_notMem hnot] at h
    cases h
  rw [counts_of_mem hmem, Option.some.injEq] at h
  rw [← h]
  exact_mod_cast Multiset.count_pos.mpr hmem

theorem counts_cons (refs : Multiset α) (a : α) :
    counts (a ::ₘ refs) = Function.update (counts refs) a (some ((counts refs a).getD 0 + 1)) := by
  funext b
  by_cases hb : b = a
  · subst hb
    rw [Function.update_self, counts_of_mem (Multiset.mem_cons_self b refs), counts_getD,
      Multiset.count_cons_self]
    rfl
  · rw [Function.update_of_ne hb, counts, counts, Multiset.count_cons_of_ne hb]
    simp [hb]

theorem counts_erase (refs : Multiset α) (a : α) :
    counts (refs.erase a) = Function.update (counts refs) a
      ((counts refs a).bind (fun n => if 1 < n then some (n - 1) else none)) := by
  funext b
  by_cases hb : b = a
  · subst hb
    rw [Function.update_self]
    by_cases hmem : b ∈ refs
    · rw [counts_of_mem hmem, Option.bind_some]
      have hpos := Multiset.count_pos.mpr hmem
      have hcount := Multiset.count_erase_self b refs
      split
      · next hmore =>
        rw [counts_of_mem (Multiset.count_pos.mp (by omega)), hcount]
        congr 1
        omega
      · next hlast =>
        exact counts_of_notMem (Multiset.count_eq_zero.mp (by omega))
    · rw [Multiset.erase_of_notMem hmem, counts_of_notMem hmem]
      rfl
  · rw [Function.update_of_ne hb]
    simp only [counts, Multiset.count_erase_of_ne hb, Multiset.mem_erase_of_ne hb]

end ChityChat.Counts
