import ChityChat.UserRows

namespace ChityChat.HexDecoding

open ByteMemory CString JsonC
open UserRows (hexDigit byteaHex hexValue strtoulHex hexPairs)

def readSign (s : Bytes) : Bool × Bytes :=
  match s.dropWhile isSpace with
  | 45 :: s => (true, s)
  | 43 :: s => (false, s)
  | s => (false, s)

/-- `0x` is skipped only before a digit. -/
def skipMark (s : Bytes) : Bytes :=
  match s with
  | 48 :: x :: c :: s =>
    if (x = 120 ∨ x = 88) ∧ (hexValue c).isSome then c :: s else 48 :: x :: c :: s
  | s => s

def strtoul (s : Bytes) : Nat :=
  let r := readSign s
  let n := strtoulHex (skipMark r.2)
  if 2 ^ 64 ≤ n then 2 ^ 64 - 1 else if r.1 then (2 ^ 64 - n) % 2 ^ 64 else n

def sizeSub (n k : Nat) : Nat := if k ≤ n then n - k else n + 2 ^ 64 - k

structure Written where
  mem : Memory UInt8
  index : Nat

def Written.put (out : Written) (output : Nat) (b : UInt8) : Written :=
  ⟨write out.mem (output + out.index) [b], out.index + 1⟩

def hexpair (src : Memory UInt8) (hexstr : Nat) : UInt8 :=
  UInt8.ofNat (strtoul (cstr [src hexstr, src (hexstr + 1)]))

def hexLoop (src : Memory UInt8) (hexstr hexstrLen output : Nat) (i : Nat) (out : Written) :
    Written :=
  if i < hexstrLen then
    hexLoop src hexstr hexstrLen output (i + 2) (out.put output (hexpair src (hexstr + i)))
  else out
termination_by hexstrLen - i

def hexstrToU8 (src : Memory UInt8) (hexstr hexstrLen : Nat) (mem : Memory UInt8) (output : Nat) :
    Written :=
  if src hexstr = 92 ∧ src (hexstr + 1) = 120 then
    hexLoop src (hexstr + 2) (sizeSub hexstrLen 2) output 0 ⟨mem, 0⟩
  else hexLoop src hexstr hexstrLen output 0 ⟨mem, 0⟩

def sprintf02x (mem : Memory UInt8) (output : Nat) (b : UInt8) : Memory UInt8 :=
  write mem output [hexDigit (b.toNat / 16), hexDigit (b.toNat % 16), 0]

def hashLoop (output : Nat) : Bytes → Nat → Memory UInt8 → Memory UInt8
  | [], _, mem => mem
  | b :: hash, i, mem => hashLoop output hash (i + 1) (sprintf02x mem (output + i * 2) b)

def sha256Str (mem : Memory UInt8) (output : Nat) (hash : Bytes) : Memory UInt8 :=
  write (hashLoop output hash 0 mem) (output + hash.length * 2) [0]

def hexDigits (bytes : Bytes) : Bytes :=
  bytes.flatMap (fun b => [hexDigit (b.toNat / 16), hexDigit (b.toNat % 16)])

def hexText (marked : Bool) (bytes : Bytes) : Bytes :=
  if marked then byteaHex bytes else hexDigits bytes

example : hexText true [7, 171] = [92, 120, 48, 55, 97, 98] := by decide

theorem hexValue_isSome {c : UInt8} (h : (hexValue c).isSome) :
    isSpace c = false ∧ c ≠ 45 ∧ c ≠ 43 ∧ c ≠ 92 ∧ c ≠ 0 := by
  simp only [hexValue, UInt8.le_iff_toNat_le] at h
  simp only [isSpace, decide_eq_false_iff_not, ne_eq, ← UInt8.toNat_inj, UInt8.le_iff_toNat_le]
  simp only [UInt8.reduceToNat] at h ⊢
  split at h
  · omega
  · split at h
    · omega
    · split at h
      · omega
      · cases h

theorem readSign_digit {c : UInt8} (h : (hexValue c).isSome) (s : Bytes) :
    readSign (c :: s) = (false, c :: s) := by
  obtain ⟨hspace, hminus, hplus, -⟩ := hexValue_isSome h
  rw [readSign, List.dropWhile_cons_of_neg (by simp [hspace])]
  split
  · simp_all
  · simp_all
  · rfl

theorem hexValue_lt (c : UInt8) : (hexValue c).getD 0 < 16 := by
  simp only [hexValue, UInt8.le_iff_toNat_le, UInt8.reduceToNat]
  split
  · simp only [Option.getD_some]
    omega
  · split
    · simp only [Option.getD_some]
      omega
    · split
      · simp only [Option.getD_some]
        omega
      · decide

theorem digits_lt (s : Bytes) (n : Nat) :
    s.foldl (fun n c => 16 * n + (hexValue c).getD 0) n < (n + 1) * 16 ^ s.length := by
  induction s generalizing n with
  | nil => simp
  | cons c s ih =>
      have hc := hexValue_lt c
      have hstep : 16 * n + (hexValue c).getD 0 + 1 ≤ (n + 1) * 16 := by omega
      calc s.foldl (fun n c => 16 * n + (hexValue c).getD 0) (16 * n + (hexValue c).getD 0)
          < (16 * n + (hexValue c).getD 0 + 1) * 16 ^ s.length := ih _
        _ ≤ (n + 1) * 16 * 16 ^ s.length := Nat.mul_le_mul_right _ hstep
        _ = (n + 1) * 16 ^ (s.length + 1) := by rw [Nat.pow_succ', Nat.mul_assoc]

theorem strtoulHex_lt (s : Bytes) : strtoulHex s < 16 ^ s.length := by
  have hlt := digits_lt (s.takeWhile (fun c => (hexValue c).isSome)) 0
  rw [Nat.zero_add, Nat.one_mul] at hlt
  exact Nat.lt_of_lt_of_le hlt (Nat.pow_le_pow_right (by decide) (List.takeWhile_prefix _).length_le)

theorem strtoul_short {c : UInt8} {s : Bytes} (hc : (hexValue c).isSome) (hs : s.length ≤ 1) :
    strtoul (c :: s) = strtoulHex (c :: s) := by
  have hmark : skipMark (c :: s) = c :: s := by
    rw [skipMark]
    intro x d rest he
    simp_all
  have hlt : strtoulHex (c :: s) < 2 ^ 64 :=
    Nat.lt_of_lt_of_le (strtoulHex_lt _)
      (Nat.le_trans (Nat.pow_le_pow_right (by decide) (Nat.succ_le_succ hs)) (by decide))
  rw [strtoul, readSign_digit hc]
  simp only [hmark, if_neg (Nat.not_le.mpr hlt), Bool.false_eq_true, if_false]

theorem hexpair_two {src : Memory UInt8} {hexstr : Nat} {c d : UInt8} {s : Bytes}
    (h : Holds src hexstr (c :: d :: s)) (hc : (hexValue c).isSome) (hd : (hexValue d).isSome) :
    hexpair src hexstr = UInt8.ofNat (strtoulHex [c, d]) := by
  obtain ⟨hfirst, hrest⟩ := holds_cons.mp h
  obtain ⟨hsecond, -⟩ := holds_cons.mp hrest
  have hnul : 0 ∉ [c, d] := by
    have hc0 := (hexValue_isSome hc).2.2.2.2
    have hd0 := (hexValue_isSome hd).2.2.2.2
    simp [hc0.symm, hd0.symm]
  rw [hexpair, hfirst, hsecond, cstr_eq_self hnul, strtoul_short hc (by simp)]

theorem hexpair_last {src : Memory UInt8} {hexstr : Nat} {c : UInt8}
    (h : Holds src hexstr [c, 0]) (hc : (hexValue c).isSome) :
    hexpair src hexstr = UInt8.ofNat (strtoulHex [c]) := by
  obtain ⟨hfirst, hrest⟩ := holds_cons.mp h
  obtain ⟨hsecond, -⟩ := holds_cons.mp hrest
  have hnul : 0 ∉ [c] := by simpa using (hexValue_isSome hc).2.2.2.2.symm
  have hcstr : cstr ([c] ++ [0]) = [c] := by
    rw [cstr_append hnul]
    rfl
  rw [hexpair, hfirst, hsecond]
  rw [List.singleton_append] at hcstr
  rw [hcstr, strtoul_short hc (by simp)]

theorem Written.put_write (out : Written) (output : Nat) (b : UInt8) (bytes : Bytes) :
    write (out.put output b).mem (output + (out.put output b).index) bytes =
      write out.mem (output + out.index) (b :: bytes) := by
  rw [Written.put, ← Nat.add_assoc, ← List.length_singleton (a := b), write_write, List.singleton_append]

theorem hexLoop_digits {src : Memory UInt8} {hexstr : Nat} (output : Nat) (s : Bytes)
    (hdigits : ∀ c ∈ s, (hexValue c).isSome) {i : Nat}
    (h : Holds src (hexstr + i) (s ++ [0])) (out : Written) :
    hexLoop src hexstr (i + s.length) output i out =
      ⟨write out.mem (output + out.index) (hexPairs s), out.index + (hexPairs s).length⟩ := by
  fun_induction hexPairs s generalizing i out with
  | case1 =>
      rw [List.length_nil, Nat.add_zero, hexLoop, if_neg (Nat.lt_irrefl i), write_nil, Nat.add_zero]
  | case2 c =>
      have hc := hdigits c (List.mem_singleton_self c)
      rw [List.length_singleton, hexLoop, if_pos (Nat.lt_succ_self i), hexLoop,
        if_neg (by omega), hexpair_last h hc]
      rfl
  | case3 c d s ih =>
      have hc := hdigits c (by simp)
      have hd := hdigits d (by simp)
      have hlen : i + (c :: d :: s).length = i + 2 + s.length := by
        simp only [List.length_cons]
        omega
      have hrest : Holds src (hexstr + (i + 2)) (s ++ [0]) := (holds_cons.mp (holds_cons.mp h).2).2
      rw [hexLoop, if_pos (by simp), hlen, hexpair_two h hc hd,
        ih (fun e he => hdigits e (by simp [he])) hrest, Written.put_write]
      simp only [Written.put, List.length_cons, Nat.add_assoc, Nat.add_comm 1]

theorem hexDigit_isSome {n : Nat} (h : n < 16) : (hexValue (hexDigit n)).isSome := by
  rw [UserRows.hexDigit_value n h]
  rfl

theorem hexDigits_isSome (bytes : Bytes) : ∀ c ∈ hexDigits bytes, (hexValue c).isSome := by
  intro c hc
  obtain ⟨b, -, hb⟩ := List.mem_flatMap.mp hc
  have hlt := b.toNat_lt
  rcases List.mem_pair.mp hb with rfl | rfl
  · exact hexDigit_isSome (by omega)
  · exact hexDigit_isSome (by omega)

theorem hexDigits_unmarked (src : Memory UInt8) (hexstr : Nat) (bytes : Bytes)
    (h : Holds src hexstr (hexDigits bytes ++ [0])) : src hexstr ≠ 92 := by
  cases hs : hexDigits bytes with
  | nil =>
      rw [hs, List.nil_append, holds_cons] at h
      rw [h.1]
      decide
  | cons c s =>
      have hc : (hexValue c).isSome := hexDigits_isSome bytes c (by simp [hs])
      rw [hs, List.cons_append, holds_cons] at h
      rw [h.1]
      exact (hexValue_isSome hc).2.2.2.1

/-- Both spellings of some bytes are decoded to these bytes, and no other byte is written. -/
theorem hexstrToU8_hexText {src : Memory UInt8} {hexstr : Nat} {marked : Bool} {bytes : Bytes}
    (h : Holds src hexstr (hexText marked bytes ++ [0])) (mem : Memory UInt8) (output : Nat) :
    hexstrToU8 src hexstr (hexText marked bytes).length mem output =
      ⟨write mem output bytes, bytes.length⟩ := by
  have hloop (start : Nat) (hstart : Holds src start (hexDigits bytes ++ [0])) :
      hexLoop src start (hexDigits bytes).length output 0 ⟨mem, 0⟩ =
        ⟨write mem output bytes, bytes.length⟩ := by
    have hdone := hexLoop_digits output (i := 0) _ (hexDigits_isSome bytes) hstart
      ⟨mem, 0⟩
    rwa [Nat.zero_add, hexDigits, UserRows.hexPairs_digits, Nat.zero_add] at hdone
  cases marked with
  | false =>
      rw [hexstrToU8, if_neg (fun hmark => hexDigits_unmarked src hexstr bytes h hmark.1)]
      exact hloop hexstr h
  | true =>
      obtain ⟨hslash, hbehind⟩ := holds_cons.mp h
      obtain ⟨hx, hrest⟩ := holds_cons.mp hbehind
      have hsize : sizeSub (hexText true bytes).length 2 = (hexDigits bytes).length :=
        if_pos (Nat.le_add_left 2 _)
      rw [hexstrToU8, if_pos ⟨hslash, hx⟩, hsize]
      exact hloop (hexstr + 2) hrest

theorem sprintf02x_holds {mem : Memory UInt8} {output i : Nat} {text : Bytes}
    (h : Holds mem output text) (hi : text.length = i * 2) (b : UInt8) :
    Holds (sprintf02x mem (output + i * 2) b) output
      (text ++ [hexDigit (b.toNat / 16), hexDigit (b.toNat % 16)]) := by
  have hall := h.write_append [hexDigit (b.toNat / 16), hexDigit (b.toNat % 16), 0]
  rw [hi, ← sprintf02x] at hall
  have hcut : text ++ [hexDigit (b.toNat / 16), hexDigit (b.toNat % 16), 0] =
      text ++ [hexDigit (b.toNat / 16), hexDigit (b.toNat % 16)] ++ [0] := by simp
  rw [hcut] at hall
  exact (holds_append.mp hall).1

theorem hashLoop_holds {output : Nat} (hash : Bytes) {i : Nat} {mem : Memory UInt8} {text : Bytes}
    (h : Holds mem output text) (hi : text.length = i * 2) :
    Holds (hashLoop output hash i mem) output (text ++ hexDigits hash) := by
  induction hash generalizing i mem text with
  | nil => rwa [hashLoop, hexDigits, List.flatMap_nil, List.append_nil]
  | cons b hash ih =>
      have hlen : (text ++ [hexDigit (b.toNat / 16), hexDigit (b.toNat % 16)]).length =
          (i + 1) * 2 := by
        rw [List.length_append, hi, Nat.add_mul]
        rfl
      have hturn := ih (sprintf02x_holds h hi b) hlen
      rwa [List.append_assoc] at hturn

theorem length_hexDigits (bytes : Bytes) : (hexDigits bytes).length = bytes.length * 2 := by
  induction bytes with
  | nil => rfl
  | cons b bytes ih =>
      have hpair : (hexDigits (b :: bytes)).length = (hexDigits bytes).length + 2 := rfl
      rw [hpair, ih, List.length_cons, Nat.add_mul]

theorem sha256Str_holds (mem : Memory UInt8) (output : Nat) (hash : Bytes) :
    Holds (sha256Str mem output hash) output (hexText false hash ++ [0]) := by
  have hloop := hashLoop_holds hash (holds_nil mem output) (i := 0) rfl
  have hend := hloop.write_append [0]
  rwa [List.nil_append, length_hexDigits] at hend

/-- The bytes come back from the text that the server writes for a hash, and from what stands in a
column, with or without the mark. -/
theorem hexstrToU8_inverts (bytes : Bytes) (mem : Memory UInt8) (output : Nat) :
    (∀ (src : Memory UInt8) (hexstr : Nat) (marked : Bool),
      Holds src hexstr (hexText marked bytes ++ [0]) →
      hexstrToU8 src hexstr (hexText marked bytes).length mem output =
        ⟨write mem output bytes, bytes.length⟩) ∧
    ∀ (src : Memory UInt8) (hexstr : Nat),
      hexstrToU8 (sha256Str src hexstr bytes) hexstr (hexText false bytes).length mem output =
        ⟨write mem output bytes, bytes.length⟩ := by
  constructor
  · intro src hexstr marked h
    exact hexstrToU8_hexText h mem output
  · intro src hexstr
    exact hexstrToU8_hexText (sha256Str_holds src hexstr bytes) mem output

theorem hexstrToU8_inverts_column :
    hexstrToU8 (write (fun _ => 0) 0 (hexText true [7, 171] ++ [0])) 0 6 (fun _ => 0) 100 =
      ⟨write (fun _ => 0) 100 [7, 171], 2⟩ :=
  (hexstrToU8_inverts [7, 171] (fun _ => 0) 100).1 _ 0 true (holds_write _ _ _)

end ChityChat.HexDecoding
