import ChityChat.RehashWalk
import Mathlib.Algebra.Order.Field.Basic
import Mathlib.Tactic.Linarith

namespace ChityChat.LoadBounds

open ServerHt

variable {V : Type}

/-- A table whose load is between the thresholds, or that cannot shrink. -/
structure Balanced (ht : ServerGht V ℚ) : Prop where
  wellFormed : WellFormed exactLoad ht
  power : ∃ j, ht.size = ht.minSize * 2 ^ j
  max : ht.load ≤ 7 / 10
  min : ht.size = ht.minSize ∨ 1 / 5 ≤ ht.load

structure Neighbour (ht ht' : ServerGht V ℚ) : Prop where
  wellFormed : WellFormed exactLoad ht'
  size : ht'.size = ht.size
  minSize : ht'.minSize = ht.minSize
  ignoreResize : ht'.ignoreResize = false
  entries : ∃ e, ht'.entries.Perm (e :: ht.entries) ∨ ht.entries.Perm (e :: ht'.entries)

structure InBounds (minSize size count : Nat) : Prop where
  power : ∃ j, size = minSize * 2 ^ j
  max : 10 * count ≤ 7 * size
  min : size = minSize ∨ size ≤ 5 * count

def nextSize (minSize size count : Nat) : Nat :=
  if 7 * size < 10 * count then max (size * 2) minSize
  else if 5 * count < size then max (size / 2) minSize
  else size

theorem nextSize_inBounds {minSize size count count' : Nat} (h : InBounds minSize size count)
    (hmin : 10 ≤ minSize) (hcount : count' = count + 1 ∨ count = count' + 1) :
    InBounds minSize (nextSize minSize size count') count' ∧
      (nextSize minSize size count' = size ∨ nextSize minSize size count' = size * 2 ∨
        nextSize minSize size count' * 2 = size) := by
  obtain ⟨⟨j, hj⟩, hmax, hlow⟩ := h
  have hle : minSize ≤ size := by
    rw [hj]
    exact Nat.le_mul_of_pos_right _ (Nat.two_pow_pos j)
  rw [nextSize]
  split
  · -- The doubled array is filled to more than a third.
    rw [Nat.max_eq_left (by omega)]
    refine ⟨⟨⟨j + 1, by rw [hj, Nat.pow_succ, Nat.mul_assoc]⟩, by omega, .inr (by omega)⟩,
      .inr (.inl rfl)⟩
  · split
    · cases j with
      | zero =>
          -- The array has its least size and keeps it.
          have hsize : size = minSize := by simpa using hj
          rw [Nat.max_eq_right (by omega)]
          exact ⟨⟨⟨0, by simp⟩, by omega, .inl rfl⟩, .inl hsize.symm⟩
      | succ j =>
          have hhalf : size / 2 = minSize * 2 ^ j := by
            rw [hj, Nat.pow_succ, ← Nat.mul_assoc, Nat.mul_div_cancel _ (by decide)]
          have hpos := Nat.le_mul_of_pos_right minSize (Nat.two_pow_pos j)
          have heven : size / 2 * 2 = size := by
            rw [hhalf, hj, Nat.pow_succ, Nat.mul_assoc]
          rw [Nat.max_eq_left (by omega)]
          -- Before the removal the array was filled to a fifth.
          have hbefore : size ≤ 5 * count := hlow.resolve_left (by omega)
          exact ⟨⟨⟨j, hhalf⟩, by omega, .inr (by omega)⟩, .inr (.inr heven)⟩
    · exact ⟨⟨⟨j, hj⟩, by omega, .inr (by omega)⟩, .inl rfl⟩

theorem ratio_le (count : Nat) {size : Nat} (hs : 0 < size) :
    exactLoad.ratio count size ≤ 7 / 10 ↔ 10 * count ≤ 7 * size := by
  have hpos : (0 : ℚ) < size := by exact_mod_cast hs
  have hcast : (10 * count ≤ 7 * size) ↔ (10 * (count : ℚ) ≤ 7 * size) := by norm_cast
  rw [exactLoad, div_le_iff₀ hpos, hcast]
  constructor <;> intro h <;> linarith

theorem le_ratio (count : Nat) {size : Nat} (hs : 0 < size) :
    1 / 5 ≤ exactLoad.ratio count size ↔ size ≤ 5 * count := by
  have hpos : (0 : ℚ) < size := by exact_mod_cast hs
  have hcast : (size ≤ 5 * count) ↔ ((size : ℚ) ≤ 5 * count) := by norm_cast
  rw [exactLoad, le_div_iff₀ hpos, hcast]
  constructor <;> intro h <;> linarith

theorem balanced_iff {ht : ServerGht V ℚ} (h : WellFormed exactLoad ht) :
    Balanced ht ↔ InBounds ht.minSize ht.size ht.count := by
  have hle := ratio_le ht.count h.size_pos
  have hge := le_ratio ht.count h.size_pos
  rw [← h.load_eq] at hle hge
  constructor
  · intro hb
    exact ⟨hb.power, hle.mp hb.max, hb.min.imp_right hge.mp⟩
  · intro hb
    exact ⟨h, hb.power, hle.mpr hb.max, hb.min.imp_right hge.mpr⟩

theorem ghtNewSize_eq {ht : ServerGht V ℚ} (h : WellFormed exactLoad ht)
    (hi : ht.ignoreResize = false) :
    ghtNewSize exactLoad ht = nextSize ht.minSize ht.size ht.count := by
  have hle := ratio_le ht.count h.size_pos
  have hge := le_ratio ht.count h.size_pos
  rw [← h.load_eq] at hle hge
  have habove : exactLoad.aboveMax ht.load = decide (7 * ht.size < 10 * ht.count) := by
    rw [exactLoad, decide_eq_decide, ← not_le, hle, not_le]
  have hbelow : exactLoad.belowMin ht.load = decide (5 * ht.count < ht.size) := by
    rw [exactLoad, decide_eq_decide, ← not_le, hge, not_le]
  simp only [ghtNewSize, nextSize, hi, habove, hbelow, RehashWalk.clamped_max, decide_eq_true_eq,
    Bool.false_eq_true, if_false]

theorem Neighbour.count {ht ht' : ServerGht V ℚ} (h : Neighbour ht ht')
    (hb : WellFormed exactLoad ht) : ht'.count = ht.count + 1 ∨ ht.count = ht'.count + 1 := by
  obtain ⟨e, he | he⟩ := h.entries
  · exact .inl (by rw [h.wellFormed.count_eq, hb.count_eq, he.length_eq, List.length_cons])
  · exact .inr (by rw [h.wellFormed.count_eq, hb.count_eq, he.length_eq, List.length_cons])

theorem ghtRehash_wellFormed {ht : ServerGht V ℚ} (h : WellFormed exactLoad ht) {n : Nat}
    (hn : 0 < n) : WellFormed exactLoad (ghtRehash exactLoad (cleared ht n) ht.table) := by
  have ha := ghtRehash_adds exactLoad h.toShaped hn
  have hlength := ha.length
  rw [cleared_entries, List.length_nil, Nat.zero_add] at hlength
  refine ⟨ha.shaped, ?_, ha.load ?_⟩
  · rw [ha.count, hlength]
    exact Nat.zero_add _
  · by_cases he : ht.entries = []
    · have hzero : ht.count = 0 := by rw [h.count_eq, he, List.length_nil]
      refine .inl ?_
      have hload : (cleared ht n).load = ht.load := rfl
      rw [hload, h.load_eq, hzero]
      simp [exactLoad, cleared]
    · exact .inr he

theorem Balanced.checked {ht : ServerGht V ℚ} (h : Balanced ht) : ghtCheckLoad exactLoad ht = ht := by
  rw [ghtCheckLoad_eq, if_pos]
  have hb := (balanced_iff h.wellFormed).mp h
  have hpos := h.wellFormed.size_pos
  have hmax := hb.max
  cases hi : ht.ignoreResize with
  | true => rw [ghtNewSize, if_pos hi]
  | false =>
      rw [ghtNewSize_eq h.wellFormed hi, nextSize, if_neg (by omega)]
      split
      · have hsize : ht.size = ht.minSize := hb.min.resolve_right (by omega)
        omega
      · rfl

/-- One entry more or fewer is answered by one step at most, and the next check changes nothing. -/
theorem ghtCheckLoad_balances {ht ht' : ServerGht V ℚ} (hb : Balanced ht) (hmin : 10 ≤ ht.minSize)
    (h : Neighbour ht ht') :
    Balanced (ghtCheckLoad exactLoad ht') ∧
      (ghtCheckLoad exactLoad ht').entries.Perm ht'.entries ∧
      ((ghtCheckLoad exactLoad ht').size = ht'.size ∨
        (ghtCheckLoad exactLoad ht').size = ht'.size * 2 ∨
        (ghtCheckLoad exactLoad ht').size * 2 = ht'.size) ∧
      ghtCheckLoad exactLoad (ghtCheckLoad exactLoad ht') = ghtCheckLoad exactLoad ht' := by
  have hw := h.wellFormed
  have hbounds := (balanced_iff hb.wellFormed).mp hb
  rw [← h.minSize, ← h.size] at hbounds
  rw [← h.minSize] at hmin
  obtain ⟨hnext, hstep⟩ := nextSize_inBounds hbounds hmin (h.count hb.wellFormed)
  have hsize := ghtNewSize_eq hw h.ignoreResize
  rw [← hsize] at hnext hstep
  have hpos := ghtNewSize_pos exactLoad hw.toShaped
  rw [ghtCheckLoad_eq]
  split
  · next hsame =>
      rw [hsame] at hnext
      have hbal := (balanced_iff hw).mpr hnext
      exact ⟨hbal, .refl _, .inl rfl, hbal.checked⟩
  · have ha := ghtRehash_adds exactLoad hw.toShaped hpos
    have hsound : RehashWalk.Sound ht' := ⟨hw.size_pos, hw.length, hw.chains, hw.count_eq⟩
    have hcount := (RehashWalk.ghtRehash_sound exactLoad hsound hpos).2.2
    have hwell := ghtRehash_wellFormed hw hpos
    have hrehash : Balanced (ghtRehash exactLoad (cleared ht' (ghtNewSize exactLoad ht')) ht'.table) := by
      rw [balanced_iff hwell, ha.minSize, ha.size, hcount]
      exact hnext
    refine ⟨hrehash, RehashWalk.ghtRehash_perm exactLoad hsound hpos, ?_, hrehash.checked⟩
    rw [ha.size]
    exact hstep

theorem ghtInsert_neighbour {ht : ServerGht V ℚ} (h : WellFormed exactLoad ht) {key : Nat}
    (hk : key ≠ 0) (hp : serverGhtGet ht key = none) (hi : ht.ignoreResize = false) (data : V) :
    Neighbour ht (ghtInsert exactLoad ht key data).2 := by
  obtain ⟨ht', heq, ha⟩ := ghtInsert_absent exactLoad h.toShaped data hk hp
  have hignore : (ghtInsert exactLoad ht key data).2.ignoreResize = ht.ignoreResize := by
    rw [ghtInsert]
    cases (ghtChain ht key).insert key data <;> rfl
  rw [heq] at hignore ⊢
  have hcount : ht'.count = ht'.entries.length := by rw [ha.count, ha.length, h.count_eq]
  have hnew : (key, data) ∉ ht.entries := by
    intro hm
    rw [← get_eq_some_iff h.toShaped, hp] at hm
    cases hm
  refine ⟨⟨ha.shaped, hcount, ha.load (.inr (List.cons_ne_nil _ _))⟩, ha.size, ha.minSize,
    hignore.trans hi, (key, data), .inl ?_⟩
  refine (List.perm_ext_iff_of_nodup ha.shaped.keys_nodup.of_map
    (List.nodup_cons.mpr ⟨hnew, h.keys_nodup.of_map⟩)).mpr (fun e => ?_)
  rw [← get_eq_some_iff ha.shaped e.1 e.2, ha.get_iff, get_eq_some_iff h.toShaped,
    List.mem_singleton, or_comm]
  exact List.mem_cons.symm

theorem filled_balanced : Balanced (filled 7) := by
  rw [balanced_iff (filled_wellFormed 7)]
  exact ⟨⟨0, by decide +kernel⟩, by decide +kernel, .inl (by decide +kernel)⟩

theorem ghtCheckLoad_balances_eighth :
    let ht' := (ghtInsert exactLoad (filled 7) 75 7).2
    (ghtCheckLoad exactLoad ht').size = 20 ∧ Balanced (ghtCheckLoad exactLoad ht') ∧
      (ghtCheckLoad exactLoad ht').entries.Perm ht'.entries ∧
      ((ghtCheckLoad exactLoad ht').size = ht'.size ∨
        (ghtCheckLoad exactLoad ht').size = ht'.size * 2 ∨
        (ghtCheckLoad exactLoad ht').size * 2 = ht'.size) ∧
      ghtCheckLoad exactLoad (ghtCheckLoad exactLoad ht') = ghtCheckLoad exactLoad ht' := by
  refine ⟨by decide +kernel, ghtCheckLoad_balances filled_balanced (by decide +kernel) ?_⟩
  exact ghtInsert_neighbour (filled_wellFormed 7) (by decide) (by decide +kernel) (by decide +kernel) 7

end ChityChat.LoadBounds
