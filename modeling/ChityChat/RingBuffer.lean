import Mathlib.Data.Nat.ModEq
import Mathlib.Logic.Function.Basic

namespace ChityChat.RingBuffer

variable {α : Type}

/-- A fixed number of slots, `none` where nothing is stored, and two positions that go around. -/
structure RingQueue (α : Type) where
  slots : Nat → Option α
  size : Nat
  read : Nat
  write : Nat
  count : Nat

def advance (size i : Nat) : Nat := if size - 1 ≤ i then 0 else i + 1

namespace RingQueue

def empty (size : Nat) : RingQueue α := ⟨fun _ => none, size, 0, 0, 0⟩

/-- Whether the slot at `write` is free is not asked. -/
def push (r : RingQueue α) (a : α) : RingQueue α :=
  { r with
    slots := Function.update r.slots r.write (some a)
    write := advance r.size r.write
    count := r.count + 1 }

def pop (r : RingQueue α) : RingQueue α :=
  { r with
    slots := Function.update r.slots r.read none
    read := advance r.size r.read
    count := r.count - 1 }

def replace (r : RingQueue α) (a : α) : RingQueue α :=
  { r with slots := Function.update r.slots r.read (some a) }

def contents (r : RingQueue α) : List α :=
  (List.range r.count).filterMap (fun i => r.slots ((r.read + i) % r.size))

end RingQueue

theorem advance_eq {size i : Nat} (h : i < size) : advance size i = (i + 1) % size := by
  rw [advance]
  split
  · rw [show i + 1 = size by omega, Nat.mod_self]
  · rw [Nat.mod_eq_of_lt (by omega)]

theorem position_inj {size read i j : Nat} (hi : i < size) (hj : j < size)
    (h : (read + i) % size = (read + j) % size) : i = j := by
  have hmod : i ≡ j [MOD size] := Nat.ModEq.add_left_cancel' read h
  rwa [Nat.ModEq, Nat.mod_eq_of_lt hi, Nat.mod_eq_of_lt hj] at hmod

theorem position_ne {size read i : Nat} (hread : read < size) (h0 : 0 < i) (hi : i < size) :
    (read + i) % size ≠ read := by
  intro heq
  have hpos : i = 0 := position_inj hi (Nat.zero_lt_of_lt hi)
    (heq.trans (by rw [Nat.add_zero, Nat.mod_eq_of_lt hread]))
  omega

/-- The ring stores the list, first in first out, and nothing else. -/
structure Represents (r : RingQueue α) (xs : List α) : Prop where
  read : r.read < r.size
  count : r.count = xs.length
  fits : xs.length ≤ r.size
  write : r.write = (r.read + xs.length) % r.size
  stored : ∀ i, i < r.size → r.slots ((r.read + i) % r.size) = xs[i]?

variable {r : RingQueue α} {x a : α} {xs : List α}

theorem represents_empty {size : Nat} (h : 0 < size) :
    Represents (RingQueue.empty size : RingQueue α) [] where
  read := h
  count := rfl
  fits := Nat.zero_le _
  write := (Nat.zero_mod size).symm
  stored _ _ := rfl

theorem Represents.peek (h : Represents r (x :: xs)) : r.slots r.read = some x := by
  have hs := h.stored 0 (Nat.zero_lt_of_lt h.read)
  rwa [Nat.add_zero, Nat.mod_eq_of_lt h.read] at hs

theorem Represents.free (h : Represents r xs) (hroom : xs.length < r.size) :
    r.slots r.write = none := by
  rw [h.write, h.stored _ hroom, List.getElem?_eq_none (Nat.le_refl _)]

theorem Represents.full (h : Represents r xs) (hfull : xs.length = r.size) : r.write = r.read := by
  rw [h.write, hfull, Nat.add_mod_right, Nat.mod_eq_of_lt h.read]

theorem Represents.push (h : Represents r xs) (hroom : xs.length < r.size) (a : α) :
    Represents (r.push a) (xs ++ [a]) where
  read := h.read
  count := by simp [RingQueue.push, h.count]
  fits := by rw [List.length_append]; exact hroom
  write := by
    have hpos := Nat.zero_lt_of_lt h.read
    simp only [RingQueue.push, List.length_append, List.length_singleton]
    rw [advance_eq (by rw [h.write]; exact Nat.mod_lt _ hpos), h.write, Nat.mod_add_mod,
      Nat.add_assoc]
  stored i hi := by
    simp only [RingQueue.push, h.write]
    by_cases hlast : i = xs.length
    · rw [hlast, Function.update_self, List.getElem?_concat_length]
    · have hpos : (r.read + i) % r.size ≠ (r.read + xs.length) % r.size :=
        fun heq => hlast (position_inj hi hroom heq)
      rw [Function.update_of_ne hpos, h.stored i hi]
      rcases Nat.lt_or_ge i xs.length with hlt | hge
      · rw [List.getElem?_append_left hlt]
      · rw [List.getElem?_eq_none hge, List.getElem?_eq_none (by simp; omega)]

theorem Represents.pop (h : Represents r (x :: xs)) : Represents r.pop xs := by
  have hpos := Nat.zero_lt_of_lt h.read
  have hfits : xs.length < r.size := h.fits
  have hadv : advance r.size r.read = (r.read + 1) % r.size := advance_eq h.read
  refine ⟨?_, ?_, Nat.le_of_lt hfits, ?_, fun i hi => ?_⟩
  · simp only [RingQueue.pop, hadv]
    exact Nat.mod_lt _ hpos
  · simp [RingQueue.pop, h.count]
  · simp only [RingQueue.pop, hadv, Nat.mod_add_mod]
    rw [h.write, List.length_cons, Nat.add_assoc, Nat.add_comm 1]
  · simp only [RingQueue.pop, hadv, Nat.mod_add_mod, Nat.add_assoc, Nat.add_comm 1]
    have hi : i < r.size := hi
    rcases Nat.lt_or_ge (i + 1) r.size with hlt | hge
    · rw [Function.update_of_ne (position_ne h.read (by omega) hlt), h.stored _ hlt,
        List.getElem?_cons_succ]
    · have heq : (r.read + (i + 1)) % r.size = r.read := by
        rw [show i + 1 = r.size by omega, Nat.add_mod_right, Nat.mod_eq_of_lt h.read]
      rw [heq, Function.update_self, List.getElem?_eq_none (by omega)]

theorem Represents.replace (h : Represents r (x :: xs)) (a : α) :
    Represents (r.replace a) (a :: xs) where
  read := h.read
  count := h.count
  fits := h.fits
  write := h.write
  stored i hi := by
    have hi : i < r.size := hi
    simp only [RingQueue.replace]
    cases i with
    | zero => rw [Nat.add_zero, Nat.mod_eq_of_lt h.read, Function.update_self]; rfl
    | succ i => rw [Function.update_of_ne (position_ne h.read (by omega) hi), h.stored _ hi]; rfl

theorem filterMap_range_getElem (xs : List α) :
    (List.range xs.length).filterMap (fun i => xs[i]?) = xs := by
  induction xs with
  | nil => rfl
  | cons x xs ih =>
      rw [List.length_cons, List.range_succ_eq_map, List.filterMap_cons, List.filterMap_map]
      exact congrArg (x :: ·) ih

theorem Represents.contents (h : Represents r xs) : r.contents = xs := by
  have hmap : (List.range r.count).map (fun i => r.slots ((r.read + i) % r.size)) =
      (List.range xs.length).map (fun i => xs[i]?) := by
    rw [h.count]
    exact List.map_congr_left fun i hi => h.stored i
      (Nat.lt_of_lt_of_le (List.mem_range.mp hi) h.fits)
  have hid := congrArg (List.filterMap id) hmap
  rw [List.filterMap_map, List.filterMap_map] at hid
  exact hid.trans (filterMap_range_getElem xs)

end ChityChat.RingBuffer
