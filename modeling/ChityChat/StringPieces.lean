import ChityChat.ServerHttp

namespace ChityChat.StringPieces

open CString JsonC

/-- The array that is split and what is behind the save pointer. -/
structure Save where
  buf : Bytes
  saveptr : Option Nat

def strAt (buf : Bytes) (p : Nat) : Bytes := cstr (buf.drop p)

def zero (buf : Bytes) (start n : Nat) : Bytes :=
  buf.take start ++ (List.replicate n 0 ++ buf.drop (start + n))

def strsplit (str : Option Nat) (delm : Bytes) (x : Save) : Option Nat × Save :=
  match str.or x.saveptr with
  | none => (none, x)
  | some p =>
    match strstr delm (strAt x.buf p) with
    -- Only the local variable is set to NULL here: the save pointer stays at `p`.
    | none => (if strAt x.buf p = [] then none else some p, { x with saveptr := some p })
    | some i => (some p, ⟨zero x.buf (p + i) delm.length, some (p + i + delm.length)⟩)

def results (delm : Bytes) : Nat → Option Nat → Save → List (Option Bytes)
  | 0, _, _ => []
  | n + 1, str, x =>
    let r := strsplit str delm x
    r.1.map (strAt r.2.buf) :: results delm n none r.2

/-- The pieces come one after the other, maybe without an empty one at the end, and NULL after
them. `results n` is what the first `n` calls return. -/
def Enumerates (delm s : Bytes) (results : Nat → List (Option Bytes)) : Prop :=
  ∃ shown, (shown = pieces delm s ∨ shown ++ [[]] = pieces delm s) ∧
    results (shown.length + 1) = shown.map some ++ [none]

def lastResult (s : Bytes) : Option Bytes := if s = [] then none else some s

theorem lastResult_eq_none {s : Bytes} : lastResult s = none ↔ s = [] := by simp [lastResult]

def saveAt (done s rest : Bytes) : Save := ⟨done ++ (s ++ 0 :: rest), some done.length⟩

theorem strAt_append {s : Bytes} (done rest : Bytes) (hs : 0 ∉ s) :
    strAt (done ++ (s ++ 0 :: rest)) done.length = s := by
  rw [strAt, List.drop_left, cstr_append hs]
  simp [cstr]

theorem strsplit_last {delm s : Bytes} (done rest : Bytes) (hs : 0 ∉ s)
    (h : strstr delm s = none) :
    strsplit none delm (saveAt done s rest) =
      (if s = [] then none else some done.length, saveAt done s rest) := by
  simp only [strsplit, saveAt, Option.none_or, strAt_append done rest hs, h]

theorem strsplit_cut {delm s : Bytes} {i : Nat} (done rest : Bytes) (hs : 0 ∉ s)
    (h : strstr delm s = some i) :
    strsplit none delm (saveAt done s rest) = (some done.length,
      saveAt (done ++ (s.take i ++ List.replicate delm.length 0)) (s.drop (i + delm.length)) rest) := by
  have hlen := strstr_length h
  have hbefore : (done ++ (s ++ 0 :: rest)).take (done.length + i) = done ++ s.take i := by
    rw [List.take_append, List.take_of_length_le (by omega), Nat.add_sub_cancel_left,
      List.take_append_of_le_length (by omega)]
  have hbehind : (done ++ (s ++ 0 :: rest)).drop (done.length + i + delm.length) =
      s.drop (i + delm.length) ++ 0 :: rest := by
    rw [Nat.add_assoc, List.drop_append, List.drop_of_length_le (by omega),
      Nat.add_sub_cancel_left, List.nil_append, List.drop_append_of_le_length hlen]
  simp only [strsplit, saveAt, Option.none_or, strAt_append done rest hs, h, zero, hbefore, hbehind]
  simp only [List.append_assoc, List.length_append, List.length_take, List.length_replicate,
    Nat.min_eq_left (show i ≤ s.length by omega), Nat.add_assoc]

theorem strAt_cut {delm s : Bytes} {i : Nat} (hd : delm ≠ []) (hs : 0 ∉ s) (done rest : Bytes) :
    strAt (saveAt (done ++ (s.take i ++ List.replicate delm.length 0))
      (s.drop (i + delm.length)) rest).buf done.length = s.take i := by
  obtain ⟨c, delm', rfl⟩ := List.exists_cons_of_ne_nil hd
  have hnul : 0 ∉ s.take i := fun h => hs (List.mem_of_mem_take h)
  simp only [saveAt, List.append_assoc, List.length_cons, List.replicate_succ, List.cons_append]
  exact strAt_append done _ hnul

theorem results_last {delm s : Bytes} (done rest : Bytes) (hs : 0 ∉ s) (h : strstr delm s = none)
    (n : Nat) :
    results delm n none (saveAt done s rest) = List.replicate n (lastResult s) := by
  induction n with
  | zero => rfl
  | succ n ih =>
      have hread : strAt (saveAt done s rest).buf done.length = s := strAt_append done rest hs
      simp only [results, strsplit_last done rest hs h, ih, List.replicate_succ, lastResult]
      split
      · rfl
      · rw [Option.map_some, hread]

theorem results_pieces {delm s : Bytes} (hd : delm ≠ []) (hs : 0 ∉ s) (done rest : Bytes) (n : Nat) :
    results delm ((pieces delm s).dropLast.length + n) none (saveAt done s rest) =
      (pieces delm s).dropLast.map some ++
        List.replicate n (lastResult ((pieces delm s).getLast (pieces_ne_nil delm s))) := by
  induction hn : s.length using Nat.strongRecOn generalizing s done with
  | ind k ih =>
    cases h : strstr delm s with
    | none =>
        simp only [pieces_last h, List.dropLast_singleton, List.getLast_singleton, List.length_nil,
          Nat.zero_add, List.map_nil, List.nil_append]
        exact results_last done rest hs h n
    | some i =>
        have hlen := strstr_length h
        have hpos := List.length_pos_iff.mpr hd
        have hnul : 0 ∉ s.drop (i + delm.length) := fun hc => hs (List.mem_of_mem_drop hc)
        have hrest := ih (s.drop (i + delm.length)).length (by rw [List.length_drop]; omega)
          hnul (done ++ (s.take i ++ List.replicate delm.length 0)) rfl
        simp only [pieces_cut hd h, List.dropLast_cons_of_ne_nil (pieces_ne_nil _ _),
          List.getLast_cons (pieces_ne_nil _ _), List.length_cons, List.map_cons, List.cons_append]
        rw [Nat.add_right_comm, results]
        simp only [strsplit_cut done rest hs h, Option.map_some, strAt_cut hd hs, hrest]

/-- All pieces but an empty last one are returned before the first NULL, and there is no NULL when
the last piece has characters. -/
theorem strsplit_enumerates_iff {delm s : Bytes} (hd : delm ≠ []) (hs : 0 ∉ s) (rest : Bytes)
    (p : Option Nat) :
    Enumerates delm s (fun n => results delm n (some 0) ⟨s ++ 0 :: rest, p⟩) ↔
      (pieces delm s).getLast? = some [] := by
  have hfirst (n : Nat) : results delm n (some 0) ⟨s ++ 0 :: rest, p⟩ =
      results delm n none (saveAt [] s rest) := by
    cases n with
    | zero => rfl
    | succ n => rfl
  have hne := pieces_ne_nil delm s
  have hall (n : Nat) := results_pieces hd hs [] rest n
  rw [List.getLast?_eq_some_getLast hne, Option.some.injEq]
  simp only [Enumerates, hfirst]
  constructor
  · rintro ⟨shown, rfl | hshown, hresults⟩
    · have hlen : (pieces delm s).length + 1 = (pieces delm s).dropLast.length + 2 := by
        have hpos := List.length_pos_iff.mpr hne
        rw [List.length_dropLast]
        omega
      rw [hlen, hall 2] at hresults
      have hends := congrArg List.getLast? hresults
      simp only [List.replicate_succ, List.replicate_zero, List.getLast?_append,
        List.getLast?_cons_cons, List.getLast?_singleton, Option.some_or, Option.some.injEq] at hends
      exact lastResult_eq_none.mp hends
    · simp only [← hshown, List.getLast_concat]
  · intro hlast
    refine ⟨(pieces delm s).dropLast, .inr ?_, ?_⟩
    · rw [← hlast, List.dropLast_append_getLast hne]
    · rw [hall 1, hlast]
      rfl

theorem strsplit_enumerates_line :
    Enumerates [13, 10] [97, 13, 10] (fun n => results [13, 10] n (some 0) ⟨[97, 13, 10, 0], none⟩) :=
  (strsplit_enumerates_iff (by decide) (by decide) [] none).mpr (by
    rw [pieces_cut (i := 1) (by decide) (by decide), pieces_last (by decide)]
    decide)

/-- A string without the delimiter is returned by every call. -/
theorem strsplit_repeats_last : ¬ ∀ (delm s rest : Bytes) (p : Option Nat), delm ≠ [] →
    0 ∉ delm → 0 ∉ s → Enumerates delm s (fun n => results delm n (some 0) ⟨s ++ 0 :: rest, p⟩) := by
  intro hall
  obtain ⟨shown, hshown, hresults⟩ := hall [13, 10] [97] [] none (by decide) (by decide) (by decide)
  have hpieces : pieces [13, 10] [97] = [[(97 : UInt8)]] := by
    rw [pieces_last]
    decide
  rw [hpieces] at hshown
  rcases hshown with rfl | hshown
  · revert hresults
    decide
  · have hempty := congrArg List.getLast? hshown
    rw [List.getLast?_append] at hempty
    cases hempty

/-- The cut that the parser of messages is written with. -/
theorem strsplit_serverHttp {delm s : Bytes} (hd : delm ≠ []) (hs : 0 ∉ s) (done rest : Bytes) :
    let r := strsplit none delm (saveAt done s rest)
    (ServerHttp.strsplit delm (s ++ 0 :: rest)).map Prod.fst = r.1.map (strAt r.2.buf) := by
  have hcstr : cstr (s ++ 0 :: rest) = s := strAt_append [] rest hs
  cases h : strstr delm s with
  | none =>
      simp only [ServerHttp.strsplit, hcstr, h, strsplit_last done rest hs h]
      split
      · rfl
      · have hread : strAt (saveAt done s rest).buf done.length = s := strAt_append done rest hs
        rw [Option.map_some, Option.map_some, hread]
  | some i =>
      have hlen := strstr_length h
      simp only [ServerHttp.strsplit, hcstr, h, strsplit_cut done rest hs h, Option.map_some,
        strAt_cut hd hs]
      rw [List.take_append_of_le_length (by omega)]

end ChityChat.StringPieces
