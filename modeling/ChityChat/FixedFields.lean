import ChityChat.ByteMemory
import ChityChat.CString

namespace ChityChat.FixedFields

open ByteMemory hiding read
open CString

variable {m : Memory UInt8} {pos n stop : Nat} {s text : List UInt8}

def padded (n : Nat) (s : List UInt8) : List UInt8 := s.take n ++ List.replicate (n - s.length) 0

def strncpy (m : Memory UInt8) (dest : Nat) (src : List UInt8) (n : Nat) : Memory UInt8 :=
  write m dest (padded n (cstr src))

/-- The string at a place, which is read up to `stop` at most. -/
def stringAt (stop : Nat) (m : Memory UInt8) (pos : Nat) : List UInt8 :=
  cstr (ByteMemory.read m pos (stop - pos))

theorem length_padded (n : Nat) (s : List UInt8) : (padded n s).length = n := by
  rw [padded, List.length_append, List.length_take, List.length_replicate]
  omega

theorem cstr_zeros (s : List UInt8) (k : Nat) : cstr (s ++ List.replicate k 0) = cstr s := by
  induction s with
  | nil => cases k <;> rfl
  | cons c s ih =>
      by_cases hc : c = 0
      · subst hc
        rfl
      · rw [List.cons_append, cstr, cstr, List.takeWhile_cons_of_pos (by simpa using hc),
          List.takeWhile_cons_of_pos (by simpa using hc)]
        exact congrArg (c :: ·) ih

theorem cstr_padded (n : Nat) (s : List UInt8) : cstr (padded n s) = (cstr s).take n := by
  rw [padded, cstr_zeros, cstr, cstr, List.take_takeWhile]

theorem cstr_eq_nil_iff (s : List UInt8) : cstr s = [] ↔ s.headD 0 = 0 := by
  cases s with
  | nil => exact iff_of_true rfl rfl
  | cons c s =>
      rw [cstr, List.headD_cons]
      by_cases hc : c = 0
      · rw [List.takeWhile_cons_of_neg (by simpa using hc)]
        exact iff_of_true rfl hc
      · rw [List.takeWhile_cons_of_pos (by simpa using hc)]
        exact iff_of_false (List.cons_ne_nil _ _) hc

theorem headD_padded (hn : 0 < n) (s : List UInt8) : (padded n s).headD 0 = s.headD 0 := by
  obtain ⟨k, rfl⟩ := Nat.exists_eq_succ_of_ne_zero (Nat.ne_of_gt hn)
  cases s with
  | nil => rfl
  | cons c s => rfl

theorem headD_eq_zero_iff (h : 0 ∉ s) : s.headD 0 = 0 ↔ s = [] := by
  cases s with
  | nil => exact iff_of_true rfl rfl
  | cons c s =>
      rw [List.mem_cons, not_or] at h
      exact iff_of_false (Ne.symm h.1) (List.cons_ne_nil _ _)

/-- A text that fills its field runs on into what is behind it. -/
theorem cstr_padded_append (h : 0 ∉ s) (rest : List UInt8) :
    cstr (padded n s ++ rest) = if s.length < n then s else s.take n ++ cstr rest := by
  split
  · next hlt =>
      have hzeros : n - s.length = n - s.length - 1 + 1 := by omega
      rw [padded, List.take_of_length_le (Nat.le_of_lt hlt), List.append_assoc, cstr_append h,
        hzeros, List.replicate_succ, List.cons_append]
      exact List.append_nil s
  · next hle =>
      rw [padded, Nat.sub_eq_zero_of_le (Nat.not_lt.mp hle), List.replicate_zero, List.append_nil,
        cstr_append (fun hm => h (List.mem_of_mem_take hm))]

theorem read_padded (h : ∀ i, m (pos + i) = s.getD i 0) : ByteMemory.read m pos n = padded n s := by
  apply List.ext_getElem
  · rw [length_padded, length_read]
  · intro i hi hi'
    rw [length_padded] at hi'
    simp only [ByteMemory.read, List.getElem_map, List.getElem_range, h, padded]
    by_cases hlt : i < s.length
    · rw [List.getElem_append_left (by rw [List.length_take]; omega), List.getElem_take,
        List.getD_eq_getElem?_getD, List.getElem?_eq_getElem hlt, Option.getD_some]
    · rw [List.getElem_append_right (by rw [List.length_take]; omega), List.getElem_replicate,
        List.getD_eq_getElem?_getD, List.getElem?_eq_none (Nat.not_lt.mp hlt), Option.getD_none]

theorem read_headD (hn : 0 < n) : (ByteMemory.read m pos n).headD 0 = m pos := by
  obtain ⟨k, rfl⟩ := Nat.exists_eq_succ_of_ne_zero (Nat.ne_of_gt hn)
  rw [Nat.succ_eq_add_one, Nat.add_comm, read_add]
  rfl

theorem first_byte (hread : ByteMemory.read m pos n = padded n s) (hn : 0 < n) :
    m pos = s.headD 0 := by
  have hfirst : (ByteMemory.read m pos n).headD 0 = m pos := read_headD hn
  rw [← hfirst, hread, headD_padded hn]

theorem stringAt_eq (hread : ByteMemory.read m pos n = padded n s) (hs : 0 ∉ s)
    (hstop : pos + n ≤ stop) :
    stringAt stop m pos = if s.length < n then s else s.take n ++ stringAt stop m (pos + n) := by
  have hsplit : stop - pos = n + (stop - (pos + n)) := by omega
  rw [stringAt, stringAt, hsplit, read_add, hread, cstr_padded_append hs]

theorem stringAt_nil_iff (hpos : pos < stop) : stringAt stop m pos = [] ↔ m pos = 0 := by
  rw [stringAt, cstr_eq_nil_iff, read_headD (by omega)]

theorem stringAt_confined_iff (hread : ByteMemory.read m pos n = padded n s) (hs : 0 ∉ s)
    (hend : pos + n < stop) :
    (stringAt stop m pos <+: text ∧ (stringAt stop m pos).length ≤ n) ↔
      s.take n <+: text ∧ (s.length < n ∨ m (pos + n) = 0) := by
  rw [stringAt_eq hread hs (Nat.le_of_lt hend), ← stringAt_nil_iff hend]
  by_cases hlt : s.length < n
  · rw [if_pos hlt, List.take_of_length_le (Nat.le_of_lt hlt), and_iff_left (Nat.le_of_lt hlt),
      and_iff_left (.inl hlt)]
  · rw [if_neg hlt, or_iff_right hlt, List.length_append, List.length_take,
      Nat.min_eq_left (Nat.not_lt.mp hlt)]
    constructor
    · rintro ⟨hkept, hle⟩
      exact ⟨(List.prefix_append _ _).trans hkept, List.length_eq_zero_iff.mp (by omega)⟩
    · rintro ⟨hkept, hnil⟩
      rw [hnil, List.append_nil]
      exact ⟨hkept, Nat.le_refl _⟩

theorem stringAt_own_iff (hread : ByteMemory.read m pos n = padded n s) (hs : 0 ∉ s)
    (hend : pos + n < stop) :
    (stringAt stop m pos <+: s ∧ (stringAt stop m pos).length ≤ n) ↔
      s.length < n ∨ m (pos + n) = 0 := by
  rw [stringAt_confined_iff hread hs hend, and_iff_right (List.take_prefix _ _)]

end ChityChat.FixedFields
