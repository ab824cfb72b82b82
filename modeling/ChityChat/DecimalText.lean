import ChityChat.HttpBody

namespace ChityChat.DecimalText

open CString JsonC HttpBody

/-- `%u` and `%zu`. -/
def decimal (n : Nat) : Bytes := (Nat.toDigits 10 n).map (fun c => UInt8.ofNat c.toNat)

theorem decimal_length_le {n k : Nat} (hk : 0 < k) (hn : n < 10 ^ k) : (decimal n).length ≤ k := by
  rw [decimal, List.length_map]
  exact (Nat.length_toDigits_le_iff (by decide) hk).mpr hn

theorem decimal_isDecimal (n : Nat) : Decimal (decimal n) n := by
  have hdigit : ∀ c ∈ Nat.toDigits 10 n, 48 ≤ c.toNat ∧ c.toNat ≤ 57 := by
    intro c hc
    have h := Nat.isDigit_of_mem_toDigits (by decide) (by decide) hc
    simp only [Char.isDigit, Bool.and_eq_true, decide_eq_true_eq, ge_iff_le,
      UInt32.le_iff_toNat_le] at h
    exact h
  have hbyte : ∀ c ∈ Nat.toDigits 10 n, (UInt8.ofNat c.toNat).toNat = c.toNat := by
    intro c hc
    have h := hdigit c hc
    exact UInt8.toNat_ofNat_of_lt' (show c.toNat < 2 ^ 8 by omega)
  refine ⟨[], decimal n, [], by simp, by simp, by simp [decimal], ?_, by simp, ?_⟩
  · intro b hb
    obtain ⟨c, hc, rfl⟩ := List.mem_map.mp hb
    have h := hdigit c hc
    simp only [isDigit, UInt8.le_iff_toNat_le, hbyte c hc, decide_eq_true_eq]
    exact h
  · have hfold : ∀ (l : List Char) (k : Nat), (∀ c ∈ l, (UInt8.ofNat c.toNat).toNat = c.toNat) →
        (l.map (fun c => UInt8.ofNat c.toNat)).foldl (fun n c => 10 * n + (c.toNat - 48)) k =
          Nat.ofDigitChars 10 l k := by
      intro l
      induction l with
      | nil => simp
      | cons c l ih =>
          intro k hl
          rw [List.forall_mem_cons] at hl
          rw [List.map_cons, List.foldl_cons, ih _ hl.2, hl.1, Nat.ofDigitChars_cons]
          rfl
    rw [digitsValue, decimal, hfold _ _ hbyte, Nat.ofDigitChars_ten_toDigits]

theorem strtoull_print {n : Nat} (h : n < 2 ^ 64) : strtoull (decimal n) = n := by
  rw [strtoull_decimal (decimal_isDecimal n)]
  omega

end ChityChat.DecimalText
