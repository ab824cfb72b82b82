import ChityChat.HttpBody

namespace ChityChat.HeaderList

open CString JsonC ServerHttp HttpBlock HttpBody

def firstVal (headers : List HeaderLine) (name : Bytes) : Option Bytes :=
  (headers.find? (fun h => h.name = name)).map (fun h => valOf h.field)

/-- The headers that `http` counts are the ones of the message, each once and in order, and a name
finds the first of them that has it. -/
structure Lists (http : Http) (headers : List HeaderLine) : Prop where
  count : http.nHeaders = headers.length
  stored : http.headers.take http.nHeaders = headers.map HeaderLine.header
  lookup : ∀ name, findHeader (behindHeaders http.headers) name http.nHeaders http.headers =
    firstVal headers name

def StoresHeaders (calloc : Nat → Bool) (state : ClientState) (req : RequestLine)
    (headers : List HeaderLine) (rest : Bytes) : Prop :=
  ∃ http state', parseHttpIn calloc state (block req headers ++ httpEnd ++ rest) =
    .ok (some (http, state')) ∧ Lists http headers

/-- The message is parsed to its end, and it has no line that is read a second time as a header:
without headers that is the method, which then must not be a name, a colon and a value. -/
structure Readable (state : ClientState) (req : RequestLine) (headers : List HeaderLine) :
    Prop where
  target : UrlParses req.target
  upgrade : state.upgradePending = true → ∃ h ∈ headers, h.name = utf8 "Upgrade"
  method : headers = [] → (strtok (utf8 ": ") req.method).2 = []

def linesOf (req : RequestLine) : List HeaderLine → Bytes
  | [] => req.method
  | h :: headers => h.line ++ moreLines headers

variable {state state' : ClientState} {req : RequestLine} {headers : List HeaderLine} {http : Http}

theorem nHeaders_lt {buf : Bytes} (h : parseHttp state buf = .ok (some (http, state'))) :
    http.nHeaders < httpMaxHeaders := by
  obtain ⟨header, rest, head, -, hhead, -, rfl⟩ := parseHttp_ok_iff.mp h
  have hcount (lines : Bytes) : (readHeaders state lines).nHeaders < httpMaxHeaders := by
    simp only [readHeaders, countHeaders, httpMaxHeaders]
    omega
  rw [parseHead] at hhead
  cases hsplit : strsplit httpNl header with
  | none => simp [hsplit] at hhead
  | some split =>
      simp only [hsplit] at hhead
      cases hm : parseMessage split.1 with
      | error fault => simp [hm] at hhead
      | ok m =>
          cases m with
          | none => simp [hm] at hhead
          | some m =>
              simp only [hm, Except.ok.injEq, Option.some.injEq] at hhead
              rw [← hhead]
              exact hcount _

theorem strtokLeaves_word {word : Bytes} (hne : word ≠ []) (h : 32 ∉ word) (rest : Bytes) :
    strtokLeaves (utf8 " ") (word ++ 32 :: rest) = word := by
  have hsp : utf8 " " = [32] := by decide +kernel
  have hword : ∀ c ∈ word, c ∉ [(32 : UInt8)] := by
    intro c hc
    rw [List.mem_singleton]
    exact ne_of_mem_of_not_mem hc h
  obtain ⟨c, s, rfl⟩ := List.exists_cons_of_ne_nil hne
  have hc := hword c (List.mem_cons_self ..)
  rw [hsp, strtokLeaves, List.cons_append, List.takeWhile_cons_of_neg (by simpa using hc),
    List.dropWhile_cons_of_neg (by simpa using hc), ← List.cons_append,
    List.takeWhile_append_of_pos (by simpa using hword), List.takeWhile_cons_of_neg (by simp)]
  simp

theorem parseHead_iff {head : Head} : parseHead state (block req headers) = .ok (some head) ↔
    ∃ message params, parseMessage req.line = .ok (some (message, params)) ∧
      head = ⟨message, params, readHeaders state (linesOf req headers)⟩ := by
  have hlines : ∃ rest, strsplit httpNl (block req headers) = some (req.line, rest) ∧
      headerLines req.line rest = linesOf req headers := by
    cases headers with
    | nil =>
        refine ⟨none, ?_, strtokLeaves_word req.method_ne req.method_space _⟩
        rw [block, moreLines, List.flatMap_nil, List.append_nil]
        exact strsplit_last req.line_plain (by simp [RequestLine.line])
    | cons h headers =>
        refine ⟨some (linesOf req (h :: headers)), ?_, rfl⟩
        rw [block, moreLines_cons, strsplit_line req.line_plain]
        rfl
  obtain ⟨rest, hsplit, hrest⟩ := hlines
  rw [parseHead, hsplit]
  simp only [hrest]
  cases parseMessage req.line with
  | error fault => simp
  | ok m =>
      cases m with
      | none => simp
      | some m =>
          obtain ⟨message, params⟩ := m
          simp [eq_comm]

theorem parseHeaders_method {n : Nat} (hn : 0 < n) :
    parseHeaders n req.method = [] ↔ (strtok (utf8 ": ") req.method).2 = [] := by
  obtain ⟨n, rfl⟩ := Nat.exists_eq_add_one_of_ne_zero hn.ne'
  rw [parseHeaders, strsplit_last req.method_plain req.method_ne]
  cases hs : strtok (utf8 ": ") req.method with
  | mk name save =>
      cases name with
      | none =>
          have hsave : save = [] := by
            rw [strtok] at hs
            split at hs <;> simp_all
          simp [hs, hsave]
      | some name =>
          by_cases hsave : save = []
          · subst hsave
            have hnil : strtok [] ([] : Bytes) = (none, []) := rfl
            simp [hs, hnil]
          · simp [hs, strtok_nil_delims hsave, hsave]

theorem parseHeaders_linesOf (hlen : headers.length < httpMaxHeaders)
    (hmethod : headers = [] → (strtok (utf8 ": ") req.method).2 = []) :
    parseHeaders httpMaxHeaders (linesOf req headers) = headers.map HeaderLine.header := by
  cases headers with
  | nil => exact (parseHeaders_method (by decide)).mpr (hmethod rfl)
  | cons h headers => exact parseHeaders_lines h headers (by simp at hlen; omega)

/-- Without `Connection`, handling the headers leaves them as they are. -/
theorem handleHttpHeaders_kept (behind : Bytes) (x : Handled)
    (hconn : ∀ h ∈ headers, h.name ≠ utf8 "Connection") :
    handleHttpHeaders behind headers.length x (headers.map HeaderLine.header) =
      (headers.foldl handleOne x, headers.map HeaderLine.header) := by
  induction headers generalizing x with
  | nil => rfl
  | cons h headers ih =>
      rw [List.forall_mem_cons] at hconn
      have hone : handleHttpHeader behind x h.header (headers.map HeaderLine.header) =
          (handleOne x h, h.header, headers.map HeaderLine.header) := by
        have hname : h.header.name = h.name := rfl
        simp only [handleHttpHeader, handleOne, HeaderLine.valStr, hname, if_neg hconn.1]
        split_ifs <;> rfl
      rw [List.length_cons, List.map_cons, handleHttpHeaders, hone]
      simp only [ih (handleOne x h) hconn.2, List.foldl_cons]

theorem connectionState_kept (hconn : ∀ h ∈ headers, h.name ≠ utf8 "Connection") :
    connectionState state headers = state := by
  induction headers with
  | nil => rfl
  | cons h headers ih =>
      rw [List.forall_mem_cons] at hconn
      rw [connectionState, List.foldl_cons, if_neg hconn.1]
      exact ih hconn.2

theorem readHeaders_linesOf (hlen : headers.length < httpMaxHeaders)
    (hmethod : headers = [] → (strtok (utf8 ": ") req.method).2 = [])
    (hconn : ∀ h ∈ headers, h.name ≠ utf8 "Connection") :
    readHeaders state (linesOf req headers) = ⟨headers.map HeaderLine.header, headers.length,
      headers.foldl handleOne ⟨state, 0, none⟩⟩ := by
  have hcount : countHeaders (headers.map HeaderLine.header) = headers.length := by
    rw [countHeaders, List.length_map]
    exact Nat.min_eq_left (Nat.le_sub_one_of_lt hlen)
  rw [readHeaders, parseHeaders_linesOf hlen hmethod, hcount,
    handleHttpHeaders_kept _ _ hconn]

theorem findHeader_headers (behind name : Bytes) (headers : List HeaderLine) :
    findHeader behind name headers.length (headers.map HeaderLine.header) =
      firstVal headers name := by
  induction headers with
  | nil => rfl
  | cons h headers ih =>
      have hname : h.header.name = h.name := rfl
      rw [List.length_cons, List.map_cons, findHeader, hname, HeaderLine.valStr, ih]
      by_cases hn : h.name = name <;> simp [firstVal, hn]

theorem Lists.method_of_parse {rest : Bytes} (h : Lists http headers)
    (hparse : parseHttp state (block req headers ++ httpEnd ++ rest) = .ok (some (http, state'))) :
    headers = [] → (strtok (utf8 ": ") req.method).2 = [] := by
  rintro rfl
  obtain ⟨header, more, head, hsplit, hhead, -, rfl⟩ := parseHttp_ok_iff.mp hparse
  rw [strsplit_block, Option.some.injEq, Prod.mk.injEq] at hsplit
  rw [← hsplit.1] at hhead
  obtain ⟨message, params, -, rfl⟩ := parseHead_iff.mp hhead
  have hcount : countHeaders (parseHeaders httpMaxHeaders req.method) = 0 := h.count
  rw [← parseHeaders_method (n := httpMaxHeaders) (by decide)]
  apply List.eq_nil_of_length_eq_zero
  simp only [countHeaders, httpMaxHeaders] at hcount ⊢
  omega

theorem Lists.storeBody {calloc : Nat → Bool} {parsed : Http} (h : storeBody calloc parsed = .ok http) :
    Lists http headers ↔ Lists parsed headers := by
  rw [ServerHttp.storeBody] at h
  split at h
  · split at h
    · obtain rfl := Except.ok.inj h
      exact ⟨fun hl => ⟨hl.count, hl.stored, hl.lookup⟩, fun hl => ⟨hl.count, hl.stored, hl.lookup⟩⟩
    · cases h
  · rw [Except.ok.inj h]

/-- Nothing of a body is received behind a header block that stands alone. -/
theorem storeBody_alone {calloc : Nat → Bool} {rest : Bytes} (hrest : rest = [] ∨ ∀ n, calloc n = true)
    (head : Head) (bufLen headerLen : Nat) :
    ∃ http, storeBody calloc (finish head (parseBody (some rest))
      (actualBodyLen (parseBody (some rest)) bufLen headerLen)) = .ok http := by
  rcases hrest with rfl | hcalloc
  · have hnull : parseBody (some []) = .null := rfl
    have htotal : (finish head .null 0).totalRecv = 0 := ite_self 0
    rw [hnull, actualBodyLen, if_pos rfl, ServerHttp.storeBody, if_pos htotal]
    split <;> exact ⟨_, rfl⟩
  · rw [ServerHttp.storeBody, if_neg (by simp [hcalloc])]
    exact ⟨_, rfl⟩

/-- The header block is stored as it stands if and only if there is room for it in the places that
are counted and the message is parsed to its end, when nothing is behind it, or there is memory for
the body that is. -/
theorem parseHttp_stores_iff (calloc : Nat → Bool) (state : ClientState) (req : RequestLine)
    (headers : List HeaderLine) (rest : Bytes) (hrest : rest = [] ∨ ∀ n, calloc n = true)
    (hconn : ∀ h ∈ headers, h.name ≠ utf8 "Connection") :
    StoresHeaders calloc state req headers rest ↔
      headers.length < httpMaxHeaders ∧ Readable state req headers := by
  constructor
  · rintro ⟨http, state', hin, hstored⟩
    obtain ⟨parsed, hparse, hstore⟩ := parseHttpIn_ok_iff.mp hin
    have hlists := (Lists.storeBody hstore).mp hstored
    have hlen : headers.length < httpMaxHeaders := hlists.count ▸ nHeaders_lt hparse
    have hmethod := hlists.method_of_parse hparse
    obtain ⟨header, more, head, hsplit, hhead, hup, -⟩ := parseHttp_ok_iff.mp hparse
    rw [strsplit_block, Option.some.injEq, Prod.mk.injEq] at hsplit
    rw [← hsplit.1] at hhead
    obtain ⟨message, params, hm, rfl⟩ := parseHead_iff.mp hhead
    rw [readHeaders_linesOf hlen hmethod hconn] at hup
    have hpending := (handleUpgrade_headers (by simp [HeaderLine.header]) state).mp ⟨state', hup⟩
    rw [connectionState_kept hconn] at hpending
    exact ⟨hlen, (parseMessage_line req).mp ⟨_, hm⟩, hpending, hmethod⟩
  · rintro ⟨hlen, htarget, hpending, hmethod⟩
    obtain ⟨⟨message, params⟩, hm⟩ := (parseMessage_line req).mpr htarget
    have hstored : (headers.map HeaderLine.header).map HttpHeader.name =
        headers.map HeaderLine.name := by
      simp [HeaderLine.header]
    obtain ⟨state', hup⟩ := (handleUpgrade_headers hstored state).mpr
      (by rwa [connectionState_kept hconn])
    have htable : readHeaders state (linesOf req headers) = _ :=
      readHeaders_linesOf hlen hmethod hconn
    have hhead : parseHead state (block req headers) = .ok (some ⟨message, params, _⟩) :=
      parseHead_iff.mpr ⟨message, params, hm, rfl⟩
    rw [htable] at hhead
    obtain ⟨http, hstore⟩ := storeBody_alone hrest _ _ _
    refine ⟨http, state', parseHttpIn_ok_iff.mpr ⟨_, parseHttp_ok_iff.mpr ⟨_, _, _,
      strsplit_block req headers rest, hhead, hup, rfl⟩, hstore⟩, (Lists.storeBody hstore).mpr ?_⟩
    refine ⟨rfl, ?_, ?_⟩
    · exact List.take_of_length_le (by simp [finish])
    · exact fun name => findHeader_headers _ name headers

def hostLine : HeaderLine where
  name := utf8 "Host"
  field := utf8 " chat"
  name_ne := by decide +kernel
  name_plain := by decide +kernel
  name_token := by decide +kernel
  name_fits := by decide +kernel
  field_plain := by decide +kernel
  val_ne := by decide +kernel
  val_fits := by decide +kernel

theorem parseHttp_stores_img : StoresHeaders (fun _ => false) shortLive imgPost [hostLine, fourBytes] [] :=
  (parseHttp_stores_iff (fun _ => false) shortLive imgPost [hostLine, fourBytes] [] (.inl rfl)
    (by decide +kernel)).mpr
    ⟨by decide, ⟨by decide +kernel, by decide, by decide⟩⟩

/-- Of twenty headers, as many as there are places, only nineteen are counted. -/
theorem twenty_headers_miscounted :
    (List.replicate httpMaxHeaders hostLine).length = httpMaxHeaders ∧
      (∀ h ∈ List.replicate httpMaxHeaders hostLine, h.name ≠ utf8 "Connection") ∧
      Readable shortLive imgPost (List.replicate httpMaxHeaders hostLine) ∧
      ¬ StoresHeaders (fun _ => true) shortLive imgPost (List.replicate httpMaxHeaders hostLine) [] := by
  refine ⟨List.length_replicate, by decide +kernel, ⟨by decide +kernel, by decide, by decide⟩, ?_⟩
  rintro ⟨http, state', hin, hstored⟩
  obtain ⟨parsed, hparse, hstore⟩ := parseHttpIn_ok_iff.mp hin
  have hlists := (Lists.storeBody hstore).mp hstored
  have hlt := nHeaders_lt hparse
  rw [hlists.count, List.length_replicate] at hlt
  exact absurd hlt (Nat.lt_irrefl _)

end ChityChat.HeaderList
