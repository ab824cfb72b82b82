import ChityChat.HttpBlock

namespace ChityChat.HttpBody

open CString JsonC ServerHttp HttpBlock

structure Keeps (http : Http) (received : Bytes) (n : Nat) : Prop where
  bytes : ∀ i, i < received.length → http.body.byte i = received[i]?
  missing : http.missing = true ↔ received.length < n
  totalRecv : http.missing = true → http.totalRecv = received.length

def BodySurvives (calloc : Nat → Bool) (state : ClientState) (req : RequestLine)
    (headers : List HeaderLine) (received : Bytes) (n : Nat) : Prop :=
  ∃ http state', parseHttpIn calloc state (block req headers ++ httpEnd ++ received) =
    .ok (some (http, state')) ∧ Keeps http received n

def Decimal (val : Bytes) (n : Nat) : Prop :=
  ∃ before digits after, val = before ++ digits ++ after ∧ (∀ c ∈ before, isSpace c) ∧
    digits ≠ [] ∧ (∀ c ∈ digits, isDigit c) ∧ (∀ c ∈ after, isSpace c) ∧ digitsValue digits = n

structure DeclaresLength (headers : List HeaderLine) (n : Nat) : Prop where
  declared : ∃ h ∈ headers, h.name = utf8 "Content-Length"
  agree : ∀ h ∈ headers, h.name = utf8 "Content-Length" → Decimal (valOf h.field) n

def connectionState (state : ClientState) (headers : List HeaderLine) : ClientState :=
  headers.foldl
    (fun state h => if h.name = utf8 "Connection" then
      (strtokAll (utf8 ", ") (valOf h.field).length (valOf h.field)).foldl connectionToken state
      else state) state

/-- The request is parsed to its end: its target has a path and keys, and there is an `Upgrade`
header where the connection is to be upgraded. -/
structure Parses (state : ClientState) (req : RequestLine) (headers : List HeaderLine) : Prop where
  target : UrlParses req.target
  upgrade : (connectionState state headers).upgradePending = true →
    ∃ h ∈ headers, h.name = utf8 "Upgrade"

/-- What is received of the body does not begin with a NUL and has no blank line before its first
NUL. -/
structure CleanBody (received : Bytes) : Prop where
  head : received.head? ≠ some 0
  blank : ¬ httpEnd <:+: cstr received

/-- There is a block for the body when some of it is received and some is missing. The declared
length is read by `strtoull`. -/
def HasBlock (calloc : Nat → Bool) (received : Bytes) (n : Nat) : Prop :=
  received.length < n → received = [] ∨ calloc (min n (2 ^ 64 - 1)) = true

theorem HeaderLine.valStr (behind : Bytes) (h : HeaderLine) (headers : List HttpHeader) :
    valStr behind h.header headers = valOf h.field := runOn_of_lt h.val_fits _

def handleOne (x : Handled) (h : HeaderLine) : Handled :=
  if h.name = utf8 "Content-Length" then { x with bodyLen := strtoull (valOf h.field) }
  else if h.name = utf8 "Connection" then { x with state := connectionState x.state [h] }
  else if h.name = utf8 "Sec-WebSocket-Key" then { x with websocketKey := some (valOf h.field) }
  else x

theorem handleHttpHeader_eq (behind : Bytes) (x : Handled) (h : HeaderLine)
    (headers : List HttpHeader) :
    ∃ val, handleHttpHeader behind x h.header headers =
      (handleOne x h, ⟨h.name, val⟩, headers) := by
  have hval : h.header.val.length < httpHeadValLen := h.val_fits
  have hname : h.header.name = h.name := rfl
  simp only [handleHttpHeader, handleOne, setClientConnection, HeaderLine.valStr, hname,
    if_pos hval]
  split_ifs with hlen hconn hkey
  · exact ⟨valOf h.field, rfl⟩
  · refine ⟨strtokCut (utf8 ", ") false h.header.val, ?_⟩
    simp only [connectionState, List.foldl_cons, List.foldl_nil, if_pos hconn]
  · exact ⟨valOf h.field, rfl⟩
  · exact ⟨valOf h.field, rfl⟩

theorem handleHttpHeaders_eq (behind : Bytes) (x : Handled) (headers : List HeaderLine) :
    ∃ headers', handleHttpHeaders behind headers.length x (headers.map HeaderLine.header) =
      (headers.foldl handleOne x, headers') ∧
      headers'.map HttpHeader.name = headers.map HeaderLine.name := by
  induction headers generalizing x with
  | nil => exact ⟨[], rfl, rfl⟩
  | cons h headers ih =>
      obtain ⟨val, hval⟩ := handleHttpHeader_eq behind x h (headers.map HeaderLine.header)
      obtain ⟨headers', he, hn⟩ := ih (handleOne x h)
      refine ⟨⟨h.name, val⟩ :: headers', ?_, by simp [hn]⟩
      rw [List.length_cons, List.map_cons, handleHttpHeaders, hval]
      simp only [he, List.foldl_cons]

theorem foldl_handleOne_state (x : Handled) (headers : List HeaderLine) :
    (headers.foldl handleOne x).state = connectionState x.state headers := by
  induction headers generalizing x with
  | nil => rfl
  | cons h headers ih =>
      have h1 : (handleOne x h).state = connectionState x.state [h] := by
        rw [handleOne]
        split
        · rename_i hlen
          rw [connectionState, List.foldl_cons, List.foldl_nil, if_neg]
          rw [hlen]
          decide +kernel
        · split
          · rfl
          · rename_i hconn
            rw [connectionState, List.foldl_cons, List.foldl_nil, if_neg hconn]
            split <;> rfl
      rw [List.foldl_cons, ih, h1, connectionState, connectionState, connectionState,
        ← List.foldl_append, List.singleton_append]

theorem not_isDigit_of_isSpace {c : UInt8} (h : isSpace c) : isDigit c = false := by
  simp only [isSpace, isDigit, UInt8.le_iff_toNat_le, decide_eq_true_eq, decide_eq_false_iff_not,
    ← UInt8.toNat_inj] at *
  simp only [UInt8.reduceToNat] at *
  omega

theorem strtoull_decimal {val : Bytes} {n : Nat} (h : Decimal val n) :
    strtoull val = min n (2 ^ 64 - 1) := by
  obtain ⟨before, digits, after, rfl, hb, hne, hd, ha, rfl⟩ := h
  obtain ⟨d, ds, rfl⟩ := List.exists_cons_of_ne_nil hne
  have hdigit : isDigit d := hd d (List.mem_cons_self ..)
  have hspace : isSpace d = false := by
    by_contra hs
    rw [Bool.not_eq_false] at hs
    rw [not_isDigit_of_isSpace hs] at hdigit
    exact Bool.noConfusion hdigit
  have hdrop : (before ++ (d :: ds) ++ after).dropWhile isSpace = d :: (ds ++ after) := by
    rw [List.append_assoc, List.dropWhile_append_of_pos hb, List.cons_append,
      List.dropWhile_cons_of_neg (by simp [hspace])]
  have htake : (d :: (ds ++ after)).takeWhile isDigit = d :: ds := by
    rw [← List.cons_append, List.takeWhile_append_of_pos hd]
    cases after with
    | nil => simp
    | cons c after => simp [not_isDigit_of_isSpace (ha c (List.mem_cons_self ..))]
  have hread : readNumber (before ++ (d :: ds) ++ after) = (false, digitsValue (d :: ds)) := by
    rw [readNumber, readDigits, hdrop]
    split
    · rename_i hc
      rw [List.cons.injEq] at hc
      rw [hc.1] at hdigit
      exact absurd hdigit (by decide)
    · rename_i hc
      rw [List.cons.injEq] at hc
      rw [hc.1] at hdigit
      exact absurd hdigit (by decide)
    · rw [htake]
      rfl
  rw [strtoull, hread]
  simp only [Bool.false_eq_true, if_false]
  split <;> omega

theorem foldl_handleOne_bodyLen {headers : List HeaderLine} {x : Handled} {len : Nat}
    (hagree : ∀ h ∈ headers, h.name = utf8 "Content-Length" → strtoull (valOf h.field) = len)
    (hlen : x.bodyLen = len ∨ ∃ h ∈ headers, h.name = utf8 "Content-Length") :
    (headers.foldl handleOne x).bodyLen = len := by
  induction headers generalizing x with
  | nil => simpa using hlen
  | cons h headers ih =>
      rw [List.forall_mem_cons] at hagree
      rw [List.foldl_cons]
      apply ih hagree.2
      by_cases hn : h.name = utf8 "Content-Length"
      · exact .inl (by rw [handleOne, if_pos hn, ← hagree.1 hn])
      · have hx : (handleOne x h).bodyLen = x.bodyLen := by
          rw [handleOne, if_neg hn]
          split_ifs <;> rfl
        rw [hx]
        simpa [hn] using hlen

theorem strtok_word {word : Bytes} (hne : word ≠ []) (h : 32 ∉ word) (rest : Bytes) :
    strtok (utf8 " ") (word ++ 32 :: rest) = (some word, rest) := by
  have hsp : utf8 " " = [32] := by decide +kernel
  apply strtok_of_notMem hne (s := 32 :: rest)
  · intro c hc
    rw [hsp, List.mem_singleton]
    exact ne_of_mem_of_not_mem hc h
  · simp [hsp]

theorem parseMessage_line (req : RequestLine) :
    (∃ r, parseMessage req.line = .ok (some r)) ↔ UrlParses req.target := by
  have hmethod := strtok_word req.method_ne req.method_space (req.target ++ 32 :: req.version)
  rw [RequestLine.line, parseMessage_req hmethod req.method_request,
    strtok_word req.target_ne req.target_space]
  simp

theorem readHeaders_lines (h : HeaderLine) {headers : List HeaderLine}
    (hlen : (h :: headers).length < httpMaxHeaders) (state : ClientState) :
    ∃ headers', headers'.map HttpHeader.name = (h :: headers).map HeaderLine.name ∧
      readHeaders state (h.line ++ moreLines headers) = ⟨headers', (h :: headers).length,
        (h :: headers).foldl handleOne ⟨state, 0, none⟩⟩ := by
  have hparse : parseHeaders httpMaxHeaders (h.line ++ moreLines headers) =
      (h :: headers).map HeaderLine.header :=
    parseHeaders_lines h headers (by simp at hlen; omega)
  have hn : countHeaders ((h :: headers).map HeaderLine.header) = (h :: headers).length := by
    rw [countHeaders, List.length_map]
    exact Nat.min_eq_left (Nat.le_sub_one_of_lt hlen)
  obtain ⟨headers', he, hnames⟩ := handleHttpHeaders_eq
    (behindHeaders ((h :: headers).map HeaderLine.header)) ⟨state, 0, none⟩ (h :: headers)
  refine ⟨headers', hnames, ?_⟩
  rw [readHeaders, hparse, hn]
  simp only [he]

theorem findHeader_isSome (behind name : Bytes) (headers : List HttpHeader) :
    (findHeader behind name headers.length headers).isSome ↔
      name ∈ headers.map HttpHeader.name := by
  induction headers with
  | nil => simp [findHeader]
  | cons header headers ih =>
      rw [List.length_cons, findHeader, List.map_cons, List.mem_cons, ← ih]
      split
      · rename_i hn
        simp [hn]
      · rename_i hn
        simp [Ne.symm hn]

theorem parseHead_block (h : HeaderLine) {headers : List HeaderLine}
    (hlen : (h :: headers).length < httpMaxHeaders) (state : ClientState) (req : RequestLine) :
    ∃ headers', headers'.map HttpHeader.name = (h :: headers).map HeaderLine.name ∧
      ∀ head, parseHead state (block req (h :: headers)) = .ok (some head) ↔
        ∃ message params, parseMessage req.line = .ok (some (message, params)) ∧
          head = ⟨message, params, headers', (h :: headers).length,
            (h :: headers).foldl handleOne ⟨state, 0, none⟩⟩ := by
  obtain ⟨headers', hnames, htable⟩ := readHeaders_lines h hlen state
  refine ⟨headers', hnames, ?_⟩
  intro head
  rw [parseHead, block, moreLines_cons, strsplit_line req.line_plain]
  simp only [headerLines, Option.getD_some, htable]
  cases parseMessage req.line with
  | error fault => simp
  | ok m =>
      cases m with
      | none => simp
      | some m =>
          obtain ⟨message, params⟩ := m
          simp [eq_comm]

theorem handleUpgrade_headers {headers : List HeaderLine} {headers' : List HttpHeader}
    (hnames : headers'.map HttpHeader.name = headers.map HeaderLine.name) (state : ClientState) :
    (∃ state', handleUpgrade ⟨headers', headers.length,
      headers.foldl handleOne ⟨state, 0, none⟩⟩ = .ok state') ↔
      ((connectionState state headers).upgradePending = true →
        ∃ h ∈ headers, h.name = utf8 "Upgrade") := by
  have hup : (httpGetHeader headers.length headers' "Upgrade").isSome ↔
      ∃ h ∈ headers, h.name = utf8 "Upgrade" := by
    have hcount : headers'.length = headers.length := by
      simpa using congrArg List.length hnames
    rw [httpGetHeader, ← hcount, findHeader_isSome, hnames, List.mem_map]
  rw [handleUpgrade_ok, foldl_handleOne_state ⟨state, 0, none⟩ headers, ← hup]
  rfl

theorem parseHead_parses {headers : List HeaderLine} {n : Nat} (hn : DeclaresLength headers n)
    (hlen : headers.length < httpMaxHeaders) (state : ClientState) (req : RequestLine) :
    (∀ head, parseHead state (block req headers) = .ok (some head) →
      head.table.handled.bodyLen = min n (2 ^ 64 - 1)) ∧
    ((∃ head state', parseHead state (block req headers) = .ok (some head) ∧
      handleUpgrade head.table = .ok state') ↔ Parses state req headers) := by
  obtain ⟨h, hmem, hname⟩ := hn.declared
  have hbody : (headers.foldl handleOne ⟨state, 0, none⟩).bodyLen = min n (2 ^ 64 - 1) :=
    foldl_handleOne_bodyLen (fun h hh hc => strtoull_decimal (hn.agree h hh hc))
      (.inr ⟨h, hmem, hname⟩)
  obtain ⟨h0, more, rfl⟩ := List.exists_cons_of_ne_nil (List.ne_nil_of_mem hmem)
  obtain ⟨headers', hnames, hhead⟩ := parseHead_block h0 hlen state req
  have hupgrade := handleUpgrade_headers hnames state
  constructor
  · intro head he
    obtain ⟨message, params, -, rfl⟩ := (hhead head).mp he
    exact hbody
  · constructor
    · rintro ⟨head, state', he, hu⟩
      obtain ⟨message, params, hm, rfl⟩ := (hhead head).mp he
      exact ⟨(parseMessage_line req).mp ⟨_, hm⟩, hupgrade.mp ⟨state', hu⟩⟩
    · rintro ⟨htarget, hnamed⟩
      obtain ⟨⟨message, params⟩, hm⟩ := (parseMessage_line req).mpr htarget
      obtain ⟨state', hu⟩ := hupgrade.mpr hnamed
      exact ⟨_, state', (hhead _).mpr ⟨message, params, hm, rfl⟩, hu⟩

theorem actualBodyLen_received {body : Body} (hb : body ≠ .null) {header received : Bytes}
    (hbuf : (header ++ httpEnd ++ received).length < 2 ^ 64) :
    actualBodyLen body (header ++ httpEnd ++ received).length (headerLen header) =
      received.length := by
  rw [actualBodyLen, if_neg hb, headerLen, ← List.length_append, List.length_append] at *
  omega

theorem cstr_eq_nil_iff {str : Bytes} : cstr str = [] ↔ str = [] ∨ str.head? = some 0 := by
  cases str with
  | nil => simp [cstr]
  | cons c str => by_cases hc : c = 0 <;> simp [cstr, hc]

theorem restBody_blank {received : Bytes} (h : httpEnd <:+: cstr received) :
    restBody received ≠ .null ∧
      ∃ i, i < received.length ∧ received[i]? = some 13 ∧
        (restBody received).byte i = some 0 := by
  obtain ⟨i, hi⟩ := Option.ne_none_iff_exists'.mp (mt strstr_eq_none.mp (not_not.mpr h))
  have hlen : i + 4 ≤ (cstr received).length := strstr_length hi
  have hle : (cstr received).length ≤ received.length := (List.takeWhile_prefix _).length_le
  have h13 : (cstr received)[i]? = some 13 := by
    obtain ⟨t, ht⟩ := (strstr_spec hi).1
    have : ((cstr received).drop i)[0]? = some 13 := by rw [← ht]; rfl
    simpa using this
  have hrest : restBody received =
      .rest (received.take i ++ List.replicate httpEnd.length 0 ++ received.drop (i + 4)) := by
    rw [restBody, strsplit, hi]
    rfl
  rw [hrest]
  refine ⟨by simp, i, by omega, ?_, ?_⟩
  · rw [← cstr_append_drop received, List.getElem?_append_left (by omega), h13]
  · rw [Body.byte, List.append_assoc, List.getElem?_append_right (List.length_take_le i received)]
    simp [httpEnd, Nat.min_eq_left (show i ≤ received.length by omega)]

theorem finish_keeps_of_ne {head : Head} {body : Body} {received : Bytes} {n : Nat}
    (hlen : head.table.handled.bodyLen = min n (2 ^ 64 - 1)) (hm : received.length < 2 ^ 64 - 1)
    (hne : body ≠ .null) :
    Keeps (finish head body received.length) received n ↔
      ∀ i, i < received.length → body.byte i = received[i]? := by
  have hmissing : (finish head body received.length).missing = true ↔ received.length < n := by
    simp only [finish, hlen, decide_eq_true_eq]
    constructor
    · intro h
      omega
    · exact fun h => ⟨.inl hne, by omega⟩
  have hbyte : ∀ i, i < received.length →
      (finish head body received.length).body.byte i = body.byte i := by
    intro i hi
    simp only [finish]
    split
    · exact if_pos hi
    · rfl
  constructor
  · intro hk i hi
    rw [← hbyte i hi, hk.bytes i hi]
  · intro h
    refine ⟨fun i hi => by rw [hbyte i hi, h i hi], hmissing, ?_⟩
    exact fun hmiss => if_pos hmiss

theorem finish_keeps_null {head : Head} {received : Bytes} {n : Nat}
    (hlen : head.table.handled.bodyLen = min n (2 ^ 64 - 1)) (hn : received.length ≤ n) :
    Keeps (finish head .null 0) received n ↔ received = [] := by
  constructor
  · intro hk
    by_contra hne
    have hpos : 0 < received.length := List.length_pos_iff.mpr hne
    have hmiss : (finish head .null 0).missing = true := by
      simp only [finish, hlen, decide_eq_true_eq]
      exact ⟨.inr (by omega), by omega⟩
    have htotal : 0 = received.length := by
      rw [← hk.totalRecv hmiss]
      exact (ite_self 0).symm
    omega
  · rintro rfl
    refine ⟨by simp, ?_, fun _ => ?_⟩
    · simp only [finish, hlen, decide_eq_true_eq, List.length_nil]
      omega
    · exact ite_self 0

theorem finish_keeps {head : Head} {header received : Bytes} {n : Nat}
    (hlen : head.table.handled.bodyLen = min n (2 ^ 64 - 1)) (hn : received.length ≤ n)
    (hbuf : (header ++ httpEnd ++ received).length < 2 ^ 64) :
    Keeps (finish head (restBody received) (actualBodyLen (restBody received)
      (header ++ httpEnd ++ received).length (headerLen header))) received n ↔
    CleanBody received := by
  have hm : received.length < 2 ^ 64 - 1 := by
    simp only [List.length_append, httpEnd, List.length_cons] at hbuf
    omega
  by_cases hblank : httpEnd <:+: cstr received
  · obtain ⟨hne, i, hi, h13, hbyte⟩ := restBody_blank hblank
    rw [actualBodyLen_received hne hbuf, finish_keeps_of_ne hlen hm hne]
    constructor
    · intro h
      have := h i hi
      rw [h13, hbyte] at this
      exact absurd this (by decide)
    · exact fun hc => absurd hblank hc.blank
  · have hnone : strstr httpEnd (cstr received) = none := strstr_eq_none.mpr hblank
    by_cases hnil : cstr received = []
    · have hnull : restBody received = .null := by
        rw [restBody, strsplit, hnone]
        simp [hnil]
      rw [hnull, actualBodyLen, if_pos rfl, finish_keeps_null hlen hn]
      constructor
      · rintro rfl
        exact ⟨by simp, hblank⟩
      · exact fun hc => (cstr_eq_nil_iff.mp hnil).resolve_right hc.head
    · have hrest : restBody received = .rest received := by
        rw [restBody, strsplit, hnone]
        simp [hnil]
      have hne : Body.rest received ≠ .null := by simp
      rw [hrest, actualBodyLen_received hne hbuf, finish_keeps_of_ne hlen hm hne]
      refine ⟨fun _ => ⟨fun hzero => hnil (cstr_eq_nil_iff.mpr (.inr hzero)), hblank⟩, ?_⟩
      exact fun _ i _ => rfl

theorem storeBody_keeps {calloc : Nat → Bool} {http : Http} {received : Bytes} {n : Nat} :
    (∃ http', storeBody calloc http = .ok http' ∧ Keeps http' received n) ↔
      Keeps http received n ∧
        (received.length < n → received = [] ∨ calloc http.bodyLen = true) := by
  by_cases hfail : http.missing = true ∧ calloc http.bodyLen = false
  · rw [storeBody, if_pos hfail]
    constructor
    · rintro ⟨http', hstore, hk⟩
      split at hstore
      · obtain rfl := Except.ok.inj hstore
        have htotal : http.totalRecv = received.length := hk.totalRecv hfail.1
        have hnil : received = [] := List.length_eq_zero_iff.mp (by omega)
        subst hnil
        exact ⟨⟨by simp, hk.missing, hk.totalRecv⟩, fun _ => .inl rfl⟩
      · cases hstore
    · rintro ⟨hk, hblock⟩
      have hnil : received = [] := by
        rcases hblock (hk.missing.mp hfail.1) with hnil | hsome
        · exact hnil
        · rw [hfail.2] at hsome
          cases hsome
      subst hnil
      have htotal : http.totalRecv = 0 := hk.totalRecv hfail.1
      rw [if_pos htotal]
      exact ⟨_, rfl, by simp, hk.missing, hk.totalRecv⟩
  · rw [storeBody, if_neg hfail]
    constructor
    · rintro ⟨http', hstore, hk⟩
      obtain rfl := Except.ok.inj hstore
      refine ⟨hk, fun hlt => .inr ?_⟩
      by_contra hnone
      exact hfail ⟨hk.missing.mpr hlt, by simpa using hnone⟩
    · exact fun h => ⟨http, rfl, h.1⟩

/-- The body of a well-formed request keeps its bytes and its count if and only if the request is
parsed to its end, what is received of the body does not begin with a NUL and has no blank line
before its first NUL, and the block for a body that is received in part is there. -/
theorem body_survives_iff {headers : List HeaderLine} {n : Nat} (hn : DeclaresLength headers n)
    (hlen : headers.length < httpMaxHeaders) (calloc : Nat → Bool) (state : ClientState)
    (req : RequestLine) {received : Bytes} (hm : received.length ≤ n)
    (hbuf : (block req headers ++ httpEnd ++ received).length < 2 ^ 64) :
    BodySurvives calloc state req headers received n ↔
      Parses state req headers ∧ CleanBody received ∧ HasBlock calloc received n := by
  obtain ⟨hbody, hparses⟩ := parseHead_parses hn hlen state req
  simp only [BodySurvives, parseHttpIn_ok_iff, parseHttp_ok_iff, strsplit_block, Option.some.injEq,
    Prod.mk.injEq]
  constructor
  · rintro ⟨http, state', ⟨parsed, ⟨header, rest, head, ⟨rfl, rfl⟩, he, hu, rfl⟩, hstore⟩, hk⟩
    obtain ⟨hk, hblock⟩ := storeBody_keeps.mp ⟨http, hstore, hk⟩
    rw [finish, hbody head he] at hblock
    exact ⟨hparses.mp ⟨head, state', he, hu⟩, (finish_keeps (hbody head he) hm hbuf).mp hk, hblock⟩
  · rintro ⟨hp, hc, hblock⟩
    obtain ⟨head, state', he, hu⟩ := hparses.mpr hp
    have hk := (finish_keeps (hbody head he) hm hbuf).mpr hc
    obtain ⟨http, hstore, hk⟩ := storeBody_keeps.mpr ⟨hk, by rw [finish, hbody head he]; exact hblock⟩
    exact ⟨http, state', ⟨_, ⟨_, _, head, ⟨rfl, rfl⟩, he, hu, rfl⟩, hstore⟩, hk⟩

def imgPost : RequestLine where
  method := utf8 "POST"
  target := utf8 "/img/"
  version := utf8 "HTTP/1.1"
  method_ne := by decide +kernel
  method_plain := by decide +kernel
  method_space := by decide +kernel
  method_request := by decide +kernel
  target_ne := by decide +kernel
  target_plain := by decide +kernel
  target_space := by decide +kernel
  version_plain := by decide +kernel

def fourBytes : HeaderLine where
  name := utf8 "Content-Length"
  field := utf8 " 4"
  name_ne := by decide +kernel
  name_plain := by decide +kernel
  name_token := by decide +kernel
  name_fits := by decide +kernel
  field_plain := by decide +kernel
  val_ne := by decide +kernel
  val_fits := by decide +kernel

theorem fourBytes_declares : DeclaresLength [fourBytes] 4 where
  declared := ⟨fourBytes, by simp, rfl⟩
  agree := by
    intro h hh _
    rw [List.mem_singleton] at hh
    subst hh
    refine ⟨[], [52], [], by decide +kernel, by simp, by simp, ?_, by simp, by decide⟩
    simp [isDigit]

/-- The first two bytes of a PNG file of four. -/
theorem body_survives_iff_png : BodySurvives (· < 2 ^ 32) shortLive imgPost [fourBytes] [137, 80] 4 :=
  (body_survives_iff fourBytes_declares (by decide) (· < 2 ^ 32) shortLive imgPost (by decide)
    (by decide +kernel)).mpr ⟨⟨by decide +kernel, by decide +kernel⟩,
      ⟨by decide, by decide⟩, fun _ => .inr (by decide)⟩

/-- An icon file of four bytes begins with a NUL: all of it is received, and four bytes more are
waited for, with memory for every body. -/
theorem icon_body_lost : ¬ BodySurvives (fun _ => true) shortLive imgPost [fourBytes] [0, 0, 1, 0] 4 := by
  rintro ⟨http, state', hin, hk⟩
  obtain ⟨parsed, he, hstore⟩ := parseHttpIn_ok_iff.mp hin
  obtain rfl : parsed = http := by simpa [storeBody] using hstore
  have hmissing : (parseHttp shortLive (block imgPost [fourBytes] ++ httpEnd ++ [0, 0, 1, 0])).map
      (Option.map (fun r => r.1.missing)) = .ok (some true) := by
    decide +kernel
  rw [he] at hmissing
  have hmiss : parsed.missing = true := by
    simpa [Except.map] using hmissing
  exact absurd (hk.missing.mp hmiss) (by decide)

def hugeLength : HeaderLine where
  name := utf8 "Content-Length"
  field := utf8 " 9000000000000000000"
  name_ne := by decide +kernel
  name_plain := by decide +kernel
  name_token := by decide +kernel
  name_fits := by decide +kernel
  field_plain := by decide +kernel
  val_ne := by decide +kernel
  val_fits := by decide +kernel

/-- Nobody has this much memory: one byte of such a body is copied into NULL. -/
example : parseHttpIn (· < 2 ^ 47) shortLive (block imgPost [hugeLength] ++ httpEnd ++ [137]) =
    .error .nullBlock := by decide +kernel

end ChityChat.HttpBody
