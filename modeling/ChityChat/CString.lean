import Mathlib.Algebra.Group.Int.Defs
import Mathlib.Algebra.Group.Nat.Defs
import Mathlib.Data.List.Infix
import Mathlib.Data.List.TakeWhile

namespace ChityChat.CString

variable {α : Type} [DecidableEq α]

/-- The string at a pointer to these bytes. A NUL follows the last of them. -/
def cstr (bytes : List UInt8) : List UInt8 := bytes.takeWhile (· ≠ 0)

def strstr (needle : List α) : List α → Option Nat
  | [] => if needle = [] then some 0 else none
  | c :: s => if needle <+: c :: s then some 0 else (strstr needle s).map (· + 1)

/-- The next token and the string at the save pointer, which is empty when there is no token. -/
def strtok (delims s : List α) : Option (List α) × List α :=
  match s.dropWhile (· ∈ delims) with
  | [] => (none, [])
  | c :: s => (some ((c :: s).takeWhile (· ∉ delims)), ((c :: s).dropWhile (· ∉ delims)).tail)

/-- The string at the argument after `strtok` ended the token in it. -/
def strtokLeaves (delims s : List α) : List α :=
  s.takeWhile (· ∈ delims) ++ (s.dropWhile (· ∈ delims)).takeWhile (· ∉ delims)

/-- Up to `n` tokens of a string. -/
def strtokAll (delims : List α) : Nat → List α → List (List α)
  | 0, _ => []
  | n + 1, s =>
    match strtok delims s with
    | (none, _) => []
    | (some token, s) => token :: strtokAll delims n s

/-- The string in a field of this size. A text that fills the field has no NUL behind it, so
that the string runs on into what follows the field. -/
def runOn (size : Nat) (text next : List α) : List α :=
  if text.length < size then text else text ++ next

/-- What a field holds after tokens were read from a string that runs through it. `inToken` tells
whether the field starts inside a token. -/
def strtokCut (delims : List α) : Bool → List α → List α
  | _, [] => []
  | inToken, c :: s =>
    if c ∉ delims then c :: strtokCut delims true s
    else if inToken then []
    else c :: strtokCut delims false s

def endsInToken (delims : List α) (inToken : Bool) (s : List α) : Bool :=
  match s.getLast? with
  | none => inToken
  | some c => decide (c ∉ delims)

def isDigit (c : UInt8) : Bool := 48 ≤ c ∧ c ≤ 57

def isSpace (c : UInt8) : Bool := c = 32 ∨ 9 ≤ c ∧ c ≤ 13

def digitsValue (s : List UInt8) : Nat := s.foldl (fun n c => 10 * n + (c.toNat - 48)) 0

def readDigits (s : List UInt8) : Bool × List UInt8 :=
  match s.dropWhile isSpace with
  | 45 :: s => (true, s.takeWhile isDigit)
  | 43 :: s => (false, s.takeWhile isDigit)
  | s => (false, s.takeWhile isDigit)

def readNumber (s : List UInt8) : Bool × Nat := (readDigits s).map id digitsValue

def strtoull (s : List UInt8) : Nat :=
  let r := readNumber s
  if 2 ^ 64 ≤ r.2 then 2 ^ 64 - 1 else if r.1 then (2 ^ 64 - r.2) % 2 ^ 64 else r.2

def atoi (s : List UInt8) : Int :=
  let r := readNumber s
  let n : Int := if r.1 then max (-2 ^ 63) (-r.2) else min r.2 (2 ^ 63 - 1)
  n.bmod (2 ^ 32)

theorem zero_notMem_cstr (s : List UInt8) : 0 ∉ cstr s := by
  intro h
  simpa using List.mem_takeWhile_imp h

theorem cstr_append {s : List UInt8} (h : 0 ∉ s) (t : List UInt8) :
    cstr (s ++ t) = s ++ cstr t := by
  apply List.takeWhile_append_of_pos
  intro c hc
  simpa using ne_of_mem_of_not_mem hc h

theorem cstr_eq_self {s : List UInt8} (h : 0 ∉ s) : cstr s = s := by
  simpa [cstr] using cstr_append h []

theorem cstr_append_drop (s : List UInt8) : cstr s ++ s.drop (cstr s).length = s :=
  List.prefix_iff_eq_append.mp (List.takeWhile_prefix _)

theorem strstr_eq_none {needle s : List α} : strstr needle s = none ↔ ¬ needle <:+: s := by
  induction s with
  | nil => simp [strstr]
  | cons c s ih =>
      rw [strstr, List.infix_cons_iff, not_or]
      by_cases hp : needle <+: c :: s
      · simp [hp]
      · simp [hp, ih]

theorem strstr_spec {needle s : List α} {i : Nat} (h : strstr needle s = some i) :
    needle <+: s.drop i ∧ i ≤ s.length := by
  induction s generalizing i with
  | nil =>
      by_cases hn : needle = []
      · simp_all [strstr]
      · simp [strstr, hn] at h
  | cons c s ih =>
      rw [strstr] at h
      by_cases hp : needle <+: c :: s
      · rw [if_pos hp, Option.some.injEq] at h
        subst h
        simpa using hp
      · rw [if_neg hp, Option.map_eq_some_iff] at h
        obtain ⟨j, hj, rfl⟩ := h
        simpa using ih hj

theorem strstr_length {needle s : List α} {i : Nat} (h : strstr needle s = some i) :
    i + needle.length ≤ s.length := by
  obtain ⟨hp, hi⟩ := strstr_spec h
  have hl := hp.length_le
  rw [List.length_drop] at hl
  omega

/-- What stands between the leftmost occurrences of the delimiter, each looked for behind the one
before it. -/
def pieces (delm s : List α) : List (List α) :=
  match _hi : strstr delm s with
  | none => [s]
  | some i => if _hd : delm = [] then [s] else s.take i :: pieces delm (s.drop (i + delm.length))
termination_by s.length
decreasing_by
  have hlen := strstr_length _hi
  have hpos := List.length_pos_iff.mpr _hd
  rw [List.length_drop]
  omega

theorem pieces_last {delm s : List α} (h : strstr delm s = none) : pieces delm s = [s] := by
  rw [pieces]
  split
  · rfl
  · next hi => simp [h] at hi

theorem pieces_cut {delm s : List α} {i : Nat} (hd : delm ≠ []) (h : strstr delm s = some i) :
    pieces delm s = s.take i :: pieces delm (s.drop (i + delm.length)) := by
  rw [pieces]
  split
  · next hi => simp [h] at hi
  · next j hj =>
      rw [h, Option.some.injEq] at hj
      rw [dif_neg hd, hj]

theorem pieces_ne_nil (delm s : List α) : pieces delm s ≠ [] := by
  rw [pieces]
  split
  · simp
  · split <;> simp

theorem strstr_append {needle s : List α} {i : Nat} (h : strstr needle s = some i) (t : List α) :
    strstr needle (s ++ t) = some i := by
  induction s generalizing i with
  | nil =>
      by_cases hn : needle = []
      · subst hn
        cases t <;> simpa [strstr] using h
      · simp [strstr, hn] at h
  | cons c s ih =>
      have hl := strstr_length h
      rw [strstr] at h
      rw [List.cons_append, strstr]
      by_cases hp : needle <+: c :: s
      · have hq : needle <+: c :: (s ++ t) := hp.trans (List.prefix_append (c :: s) t)
        rw [if_pos hq]
        rwa [if_pos hp] at h
      · rw [if_neg hp, Option.map_eq_some_iff] at h
        obtain ⟨j, hj, rfl⟩ := h
        have hq : ¬ needle <+: c :: (s ++ t) := by
          intro hq
          refine hp (List.prefix_of_prefix_length_le hq (List.prefix_append (c :: s) t) ?_)
          omega
        rw [if_neg hq, ih hj]
        rfl

theorem strstr_skip {c : α} {needle line : List α} (hc : needle.head? = some c) (h : c ∉ line)
    (s : List α) : strstr needle (line ++ s) = (strstr needle s).map (· + line.length) := by
  induction line with
  | nil => simp
  | cons b line ih =>
      rw [List.mem_cons, not_or] at h
      have hp : ¬ needle <+: b :: (line ++ s) := by
        rintro ⟨t, ht⟩
        cases needle with
        | nil => simp at hc
        | cons a needle =>
            rw [List.head?_cons, Option.some.injEq] at hc
            rw [List.cons_append, List.cons.injEq] at ht
            exact h.1 (hc.symm.trans ht.1)
      rw [List.cons_append, strstr, if_neg hp, ih h.2, Option.map_map]
      congr 1

theorem strstr_prefix {needle s : List α} (h : needle <+: s) : strstr needle s = some 0 := by
  cases s with
  | nil => simp [strstr, List.prefix_nil.mp h]
  | cons c s => simp [strstr, h]

theorem strtok_eq_none (delims s : List α) : (strtok delims s).1 = none ↔ ∀ c ∈ s, c ∈ delims := by
  have hd := List.dropWhile_eq_nil_iff (p := fun c => decide (c ∈ delims)) (l := s)
  simp only [decide_eq_true_eq] at hd
  rw [← hd, strtok]
  split
  · simp_all
  · simp_all

theorem strtok_ne_nil {delims s token save : List α} (h : strtok delims s = (some token, save)) :
    token ≠ [] := by
  rw [strtok] at h
  split at h
  · simp at h
  · rename_i c rest hd
    have hc := List.head?_dropWhile_not (fun c => decide (c ∈ delims)) s
    rw [hd] at hc
    rw [Prod.mk.injEq, Option.some.injEq] at h
    rw [← h.1, List.takeWhile_cons_of_pos (by simpa using hc)]
    simp

theorem strtok_of_notMem {delims token : List α} (hne : token ≠ []) (h : ∀ c ∈ token, c ∉ delims)
    {s : List α} (hs : ∀ c ∈ s.head?, c ∈ delims) :
    strtok delims (token ++ s) = (some token, s.tail) := by
  obtain ⟨a, as, rfl⟩ := List.exists_cons_of_ne_nil hne
  have ht : ((a :: as) ++ s).takeWhile (· ∉ delims) = a :: as := by
    rw [List.takeWhile_append_of_pos (by simpa using h)]
    cases s with
    | nil => simp
    | cons c s => simp [hs c rfl]
  have hd : ((a :: as) ++ s).dropWhile (· ∉ delims) = s := by
    rw [List.dropWhile_append_of_pos (by simpa using h)]
    cases s with
    | nil => rfl
    | cons c s => simp [hs c rfl]
  have ha : a ∉ delims := h a (List.mem_cons_self ..)
  rw [strtok, List.cons_append, List.dropWhile_cons_of_neg (by simpa using ha)]
  rw [List.cons_append] at ht hd
  simp only [ht, hd]

theorem strtok_nil_delims {s : List α} (h : s ≠ []) : strtok [] s = (some s, []) := by
  have hs : ∀ c ∈ s, c ∉ ([] : List α) := by simp
  simpa using strtok_of_notMem h hs (s := []) (by simp)

omit [DecidableEq α] in
theorem runOn_of_lt {size : Nat} {text : List α} (h : text.length < size) (next : List α) :
    runOn size text next = text := if_pos h

end ChityChat.CString
