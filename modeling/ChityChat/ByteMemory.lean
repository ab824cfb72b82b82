import Mathlib.Algebra.Group.Int.Defs
import Mathlib.Algebra.Group.Nat.Defs
import Mathlib.Data.List.Basic

namespace ChityChat.ByteMemory

variable {α : Type}

/-- Every address holds something; which addresses are allocated is the client's business. -/
abbrev Memory (α : Type) := Nat → α

def read (m : Memory α) (pos n : Nat) : List α := (List.range n).map (fun i => m (pos + i))

def write (m : Memory α) (pos : Nat) (bs : List α) : Memory α :=
  fun i => if pos ≤ i then bs.getD (i - pos) (m i) else m i

def Holds (m : Memory α) (pos : Nat) (bs : List α) : Prop :=
  ∀ i b, bs[i]? = some b → m (pos + i) = b

def keep (n : Nat) (m m' : Memory α) : Memory α := fun i => if i < n then m i else m' i

@[simp] theorem length_read (m : Memory α) (pos n : Nat) : (read m pos n).length = n := by
  simp [read]

theorem holds_nil (m : Memory α) (pos : Nat) : Holds m pos [] := by simp [Holds]

theorem holds_append {m : Memory α} {pos : Nat} {as bs : List α} :
    Holds m pos (as ++ bs) ↔ Holds m pos as ∧ Holds m (pos + as.length) bs := by
  constructor
  · intro h
    constructor
    · intro i b hb
      obtain ⟨hi, -⟩ := List.getElem?_eq_some_iff.mp hb
      exact h i b (by rw [List.getElem?_append_left hi, hb])
    · intro i b hb
      rw [Nat.add_assoc]
      exact h (as.length + i) b (by rwa [List.getElem?_append_right (by omega),
        Nat.add_sub_cancel_left])
  · rintro ⟨ha, hb⟩ i b hi
    by_cases hlt : i < as.length
    · exact ha i b (by rwa [List.getElem?_append_left hlt] at hi)
    · rw [List.getElem?_append_right (by omega)] at hi
      have := hb _ b hi
      rwa [Nat.add_assoc, Nat.add_sub_cancel' (by omega)] at this

theorem holds_cons {m : Memory α} {pos : Nat} {a : α} {bs : List α} :
    Holds m pos (a :: bs) ↔ m pos = a ∧ Holds m (pos + 1) bs := by
  have h : Holds m pos [a] ↔ m pos = a := by
    constructor
    · exact fun h => h 0 a rfl
    · intro h i b hb
      cases i with
      | zero => simpa [← h] using hb
      | succ i => simp at hb
  rw [← List.singleton_append, holds_append, h, List.length_singleton]

theorem read_eq_of_holds {m : Memory α} {pos : Nat} {bs : List α} (h : Holds m pos bs) :
    read m pos bs.length = bs := by
  apply List.ext_getElem?
  intro i
  by_cases hi : i < bs.length
  · have hb := List.getElem?_eq_getElem hi
    rw [hb, read, List.getElem?_map, List.getElem?_range hi, Option.map_some, h i _ hb]
  · rw [List.getElem?_eq_none (by simpa using hi), List.getElem?_eq_none (by omega)]

theorem holds_congr {m m' : Memory α} {pos : Nat} {bs : List α} (h : Holds m pos bs)
    (he : ∀ i, i < bs.length → m' (pos + i) = m (pos + i)) : Holds m' pos bs := by
  intro i b hb
  rw [he i (List.getElem?_eq_some_iff.mp hb).1, h i b hb]

theorem holds_write (m : Memory α) (pos : Nat) (bs : List α) : Holds (write m pos bs) pos bs := by
  intro i b hb
  obtain ⟨hi, he⟩ := List.getElem?_eq_some_iff.mp hb
  simp [write, hi, he]

theorem Holds.write_append {m : Memory α} {pos : Nat} {as : List α} (h : Holds m pos as)
    (bs : List α) :
    Holds (write m (pos + as.length) bs) pos (as ++ bs) := by
  refine holds_append.mpr ⟨holds_congr h ?_, holds_write m _ bs⟩
  intro i hi
  simp [write, show ¬ pos + as.length ≤ pos + i by omega]

theorem write_write (m : Memory α) (pos : Nat) (as bs : List α) :
    write (write m pos as) (pos + as.length) bs = write m pos (as ++ bs) := by
  funext i
  by_cases hpos : pos ≤ i
  · by_cases hlt : i - pos < as.length
    · have hbefore : ¬ pos + as.length ≤ i := by omega
      simp [write, hpos, hbefore, hlt, List.getElem?_append_left hlt]
    · have hbehind : pos + as.length ≤ i := by omega
      have hsub : i - pos - as.length = i - (pos + as.length) := by omega
      simp [write, hpos, hbehind, hlt, List.getElem?_append_right (Nat.not_lt.mp hlt), hsub]
  · have hbefore : ¬ pos + as.length ≤ i := by omega
    simp [write, hpos, hbefore]

theorem write_outside (m : Memory α) {pos i : Nat} (bs : List α)
    (hi : i < pos ∨ pos + bs.length ≤ i) : write m pos bs i = m i := by
  rw [write]
  split
  · rw [List.getD_eq_getElem?_getD, List.getElem?_eq_none (by omega), Option.getD_none]
  · rfl

theorem write_nil (m : Memory α) (pos : Nat) : write m pos [] = m := by
  funext i
  apply write_outside
  rw [List.length_nil]
  omega

theorem read_write_outside (m : Memory α) {pos dest n : Nat} {bs : List α}
    (h : pos + n ≤ dest ∨ dest + bs.length ≤ pos) :
    read (write m dest bs) pos n = read m pos n := by
  apply List.map_congr_left
  intro i hi
  rw [List.mem_range] at hi
  exact write_outside m bs (by omega)

theorem read_write_self (m : Memory α) {pos n : Nat} {bs : List α} (h : bs.length = n) :
    read (write m pos bs) pos n = bs := by
  rw [← h]
  exact read_eq_of_holds (holds_write m pos bs)

theorem read_add (m : Memory α) (pos n k : Nat) :
    read m pos (n + k) = read m pos n ++ read m (pos + n) k := by
  simp [read, List.range_add, Function.comp_def, Nat.add_assoc]

theorem Holds.keep {m : Memory α} {bs : List α} {n : Nat} (h : Holds m 0 bs) (hn : bs.length ≤ n)
    (m' : Memory α) : Holds (keep n m m') 0 bs := by
  refine holds_congr h ?_
  intro i hi
  simp [ByteMemory.keep, show i < n by omega]

end ChityChat.ByteMemory
