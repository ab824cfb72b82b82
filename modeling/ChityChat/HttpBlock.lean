import ChityChat.ServerHttp

namespace ChityChat.HttpBlock

open CString JsonC ServerHttp

def Plain (text : Bytes) : Prop := 0 ∉ text ∧ 13 ∉ text ∧ 10 ∉ text

instance (text : Bytes) : Decidable (Plain text) := inferInstanceAs (Decidable (_ ∧ _ ∧ _))

structure RequestLine where
  method : Bytes
  target : Bytes
  version : Bytes
  method_ne : method ≠ []
  method_plain : Plain method
  method_space : 32 ∉ method
  method_request : ¬ utf8 "HTTP/" <:+: method
  target_ne : target ≠ []
  target_plain : Plain target
  target_space : 32 ∉ target
  version_plain : Plain version

def RequestLine.line (req : RequestLine) : Bytes :=
  req.method ++ 32 :: (req.target ++ 32 :: req.version)

def valOf (field : Bytes) : Bytes := if field.head? = some 32 then field.tail else field

structure HeaderLine where
  name : Bytes
  field : Bytes
  name_ne : name ≠ []
  name_plain : Plain name
  name_token : ∀ c ∈ name, c ∉ utf8 ": "
  name_fits : name.length < httpHeadNameLen
  field_plain : Plain field
  val_ne : valOf field ≠ []
  val_fits : (valOf field).length < httpHeadValLen

def HeaderLine.header (h : HeaderLine) : HttpHeader := ⟨h.name, valOf h.field⟩

def HeaderLine.line (h : HeaderLine) : Bytes := h.name ++ 58 :: h.field

def moreLines (headers : List HeaderLine) : Bytes := headers.flatMap (fun h => httpNl ++ h.line)

def block (req : RequestLine) (headers : List HeaderLine) : Bytes := req.line ++ moreLines headers

theorem Plain.append {s t : Bytes} (hs : Plain s) (ht : Plain t) : Plain (s ++ t) := by
  simp only [Plain, List.mem_append, not_or]
  exact ⟨⟨hs.1, ht.1⟩, ⟨hs.2.1, ht.2.1⟩, ⟨hs.2.2, ht.2.2⟩⟩

theorem Plain.cons {c : UInt8} {s : Bytes} (hc : c ∉ [0, 13, 10]) (hs : Plain s) :
    Plain (c :: s) := by
  simp only [List.mem_cons, List.not_mem_nil, or_false, not_or] at hc
  simp only [Plain, List.mem_cons, not_or]
  exact ⟨⟨Ne.symm hc.1, hs.1⟩, ⟨Ne.symm hc.2.1, hs.2.1⟩, ⟨Ne.symm hc.2.2, hs.2.2⟩⟩

theorem RequestLine.line_plain (req : RequestLine) : Plain req.line := by
  apply req.method_plain.append
  apply Plain.cons (by decide)
  exact req.target_plain.append (Plain.cons (by decide) req.version_plain)

theorem HeaderLine.line_plain (h : HeaderLine) : Plain h.line :=
  h.name_plain.append (Plain.cons (by decide) h.field_plain)

theorem HeaderLine.line_ne (h : HeaderLine) : h.line ≠ [] := by
  simp [HeaderLine.line]

theorem HeaderLine.field_ne (h : HeaderLine) : h.field ≠ [] := by
  intro he
  simpa [valOf, he] using h.val_ne

theorem moreLines_cons (h : HeaderLine) (headers : List HeaderLine) :
    moreLines (h :: headers) = httpNl ++ (h.line ++ moreLines headers) := by
  simp [moreLines]

theorem zero_notMem_moreLines (headers : List HeaderLine) : 0 ∉ moreLines headers := by
  induction headers with
  | nil => simp [moreLines]
  | cons h headers ih =>
      rw [moreLines_cons, List.mem_append, List.mem_append, not_or, not_or]
      exact ⟨by decide, h.line_plain.1, ih⟩

theorem zero_notMem_block (req : RequestLine) (headers : List HeaderLine) :
    0 ∉ block req headers := by
  rw [block, List.mem_append, not_or]
  exact ⟨req.line_plain.1, zero_notMem_moreLines headers⟩

theorem strstr_moreLines (headers : List HeaderLine) (t : Bytes) :
    strstr httpEnd (moreLines headers ++ (httpEnd ++ t)) = some (moreLines headers).length := by
  induction headers with
  | nil => exact strstr_prefix (List.prefix_append httpEnd t)
  | cons h headers ih =>
      obtain ⟨c, s, hc⟩ := List.exists_cons_of_ne_nil h.line_ne
      have hline : (13 : UInt8) ∉ c :: s := hc ▸ h.line_plain.2.1
      have h13 : (13 : UInt8) ≠ c := fun he => hline (he ▸ List.mem_cons_self ..)
      have hskip := strstr_skip (show httpEnd.head? = some 13 from rfl) hline
        (moreLines headers ++ (httpEnd ++ t))
      rw [ih, List.cons_append] at hskip
      rw [moreLines_cons, hc]
      simp only [httpNl, List.cons_append, List.nil_append, List.append_assoc] at *
      rw [strstr, if_neg (by simp [httpEnd, List.cons_prefix_cons, h13]), strstr,
        if_neg (by simp [httpEnd, List.cons_prefix_cons]), hskip]
      simp only [Option.map_some, List.length_append, List.length_cons]
      congr 1
      omega

theorem strsplit_block (req : RequestLine) (headers : List HeaderLine) (rest : Bytes) :
    strsplit httpEnd (block req headers ++ httpEnd ++ rest) =
      some (block req headers, some rest) := by
  have hc : cstr (block req headers ++ httpEnd ++ rest) =
      block req headers ++ (httpEnd ++ cstr rest) := by
    rw [List.append_assoc, cstr_append (zero_notMem_block req headers), cstr_append (by decide)]
  have hs : strstr httpEnd (block req headers ++ (httpEnd ++ cstr rest)) =
      some (block req headers).length := by
    rw [block, List.append_assoc, strstr_skip rfl req.line_plain.2.1, strstr_moreLines]
    simp [Nat.add_comm]
  rw [strsplit, hc, hs]
  simp [List.drop_append]

theorem strsplit_line {line : Bytes} (h : Plain line) (rest : Bytes) :
    strsplit httpNl (line ++ (httpNl ++ rest)) = some (line, some rest) := by
  have hs : strstr httpNl (line ++ (httpNl ++ cstr rest)) = some line.length := by
    rw [strstr_skip rfl h.2.1, strstr_prefix (List.prefix_append _ _)]
    simp
  rw [strsplit, cstr_append h.1, cstr_append (by decide), hs]
  simp [List.drop_append]

theorem strsplit_last {line : Bytes} (h : Plain line) (hne : line ≠ []) :
    strsplit httpNl line = some (line, none) := by
  have hs : strstr httpNl line = none := by
    rw [strstr_eq_none]
    intro hi
    exact h.2.1 (hi.subset (List.mem_cons_self ..))
  rw [strsplit, cstr_eq_self h.1, hs]
  simp [hne]

theorem HeaderLine.strtok_line (h : HeaderLine) :
    strtok (utf8 ": ") h.line = (some h.name, h.field) :=
  strtok_of_notMem h.name_ne h.name_token (s := 58 :: h.field)
    (by simpa using (by decide +kernel : (58 : UInt8) ∈ utf8 ": "))

theorem HeaderLine.strtokLeaves_line (h : HeaderLine) :
    strtokLeaves (utf8 ": ") h.line = h.name := by
  obtain ⟨c, s, hc⟩ := List.exists_cons_of_ne_nil h.name_ne
  have hn : ∀ b ∈ c :: s, b ∉ utf8 ": " := hc ▸ h.name_token
  have h58 : (58 : UInt8) ∈ utf8 ": " := by decide +kernel
  have ht : (c :: s ++ 58 :: h.field).takeWhile (· ∉ utf8 ": ") = c :: s := by
    rw [List.takeWhile_append_of_pos (by simpa using hn), List.takeWhile_cons_of_neg (by simpa)]
    simp
  have hh := hn c (List.mem_cons_self ..)
  rw [strtokLeaves, HeaderLine.line, hc, List.cons_append,
    List.takeWhile_cons_of_neg (by simpa using hh), List.dropWhile_cons_of_neg (by simpa using hh)]
  exact ht

theorem parseHeaders_name (h : HeaderLine) (n : Nat) : parseHeaders n h.name = [] := by
  cases n with
  | zero => rfl
  | succ n =>
      have ht := strtok_of_notMem h.name_ne h.name_token (s := []) (by simp)
      rw [List.append_nil] at ht
      simp only [parseHeaders, strsplit_last h.name_plain h.name_ne, ht, List.tail_nil]
      rfl

theorem parseHeaders_line (h : HeaderLine) {str : Bytes} {rest : Option Bytes} (n : Nat)
    (hs : strsplit httpNl str = some (h.line, rest)) :
    parseHeaders (n + 1) str = h.header :: parseHeaders n (rest.getD h.name) := by
  have hname : h.name.take httpHeadNameLen = h.name := List.take_of_length_le h.name_fits.le
  have hval : (valOf h.field).take httpHeadValLen = valOf h.field :=
    List.take_of_length_le h.val_fits.le
  rw [valOf] at hval
  simp only [parseHeaders, hs, h.strtok_line, strtok_nil_delims h.field_ne, h.strtokLeaves_line,
    hname, hval]
  rfl

theorem parseHeaders_lines (h : HeaderLine) (headers : List HeaderLine) {n : Nat}
    (hn : headers.length < n) :
    parseHeaders n (h.line ++ moreLines headers) = (h :: headers).map HeaderLine.header := by
  obtain ⟨n, rfl⟩ := Nat.exists_eq_add_one_of_ne_zero (Nat.ne_zero_of_lt hn)
  induction headers generalizing h n with
  | nil =>
      rw [moreLines, List.flatMap_nil, List.append_nil,
        parseHeaders_line h n (strsplit_last h.line_plain h.line_ne), Option.getD_none,
        parseHeaders_name]
      rfl
  | cons h' headers ih =>
      rw [List.length_cons, Nat.add_lt_add_iff_right] at hn
      obtain ⟨n, rfl⟩ := Nat.exists_eq_add_one_of_ne_zero (Nat.ne_zero_of_lt hn)
      rw [moreLines_cons, parseHeaders_line h (n + 1) (strsplit_line h.line_plain _),
        Option.getD_some, ih h' n hn]
      rfl

end ChityChat.HttpBlock
