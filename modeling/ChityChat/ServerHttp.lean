import ChityChat.CString
import ChityChat.JsonC

namespace ChityChat.ServerHttp

open CString JsonC

/-- What handling a request must not do: give a NULL token to `strncpy` or `strtok`, use a header
that was not found, index a string before its start, copy into a block that `calloc` did not give. -/
inductive Fault
  | nullSource
  | nullHeader
  | negativeIndex
  | nullBlock
  deriving DecidableEq

def httpNl : Bytes := [13, 10]
def httpEnd : Bytes := [13, 10, 13, 10]

def httpMethodLen : Nat := 16
def httpVersionLen : Nat := 16
def httpUrlLen : Nat := 256
def httpHeadNameLen : Nat := 64
def httpHeadValLen : Nat := 256
def httpStatusMsgLen : Nat := 128
def httpMaxHeaders : Nat := 20
def httpMaxParams : Nat := 10

structure ClientState where
  upgradePending : Bool
  websocket : Bool
  keepAlive : Bool
  loggedIn : Bool
  deriving DecidableEq

def shortLive : ClientState := ⟨false, false, false, false⟩

structure HttpHeader where
  name : Bytes
  val : Bytes
  deriving DecidableEq

/-- The union of `http_req_t` and `http_resp_t` with its tag. -/
inductive Message
  | req (method url version : Bytes)
  | resp (version : Bytes) (code : Int) (msg : Bytes)
  deriving DecidableEq

/-- Where `http->body` points: at the bytes behind the blank line, at the start of the buffer, which
the tokenizers have written into, or at a new block that holds the first `n` bytes of another body
and zeros behind them. -/
inductive Body
  | null
  | rest (bytes : Bytes)
  | start
  | heap (copied : Body) (n : Nat)
  deriving DecidableEq

def Body.byte : Body → Nat → Option UInt8
  | null, _ => none
  | rest bytes, i => bytes[i]?
  | start, _ => none
  | heap copied n, i => if i < n then copied.byte i else some 0

structure Http where
  message : Message
  headers : List HttpHeader
  nHeaders : Nat
  params : List HttpHeader
  body : Body
  bodyLen : Nat
  websocketKey : Option Bytes
  missing : Bool
  totalRecv : Nat
  deriving DecidableEq

/-- The part before the delimiter and what is behind it. There is no such part, and the save pointer
stays at the returned string, when the delimiter is not found. -/
def strsplit (delm str : Bytes) : Option (Bytes × Option Bytes) :=
  match strstr delm (cstr str) with
  | some i => some (str.take i, some (str.drop (i + delm.length)))
  | none => if cstr str = [] then none else some (cstr str, none)

/-- The string that starts at a header's name. `behind` is what follows the array. -/
def headersStr (behind : Bytes) : List HttpHeader → Bytes
  | [] => behind
  | header :: headers =>
    runOn httpHeadNameLen header.name (runOn httpHeadValLen header.val (headersStr behind headers))

def valStr (behind : Bytes) (header : HttpHeader) (headers : List HttpHeader) : Bytes :=
  runOn httpHeadValLen header.val (headersStr behind headers)

def strtokHeaders (delims : Bytes) (inToken : Bool) : List HttpHeader → List HttpHeader
  | [] => []
  | header :: headers =>
    let name := strtokCut delims inToken header.name
    if header.name.length < httpHeadNameLen then { header with name := name } :: headers
    else
      let inVal := endsInToken delims inToken header.name
      ⟨name, strtokCut delims inVal header.val⟩ ::
        if header.val.length < httpHeadValLen then headers
        else strtokHeaders delims (endsInToken delims inVal header.val) headers

def connectionToken (state : ClientState) (token : Bytes) : ClientState :=
  if token = utf8 "keep-alive" then { state with keepAlive := true }
  else if token = utf8 "close" then shortLive
  else if token = utf8 "Upgrade" then { state with upgradePending := true }
  else state

def setClientConnection (behind : Bytes) (state : ClientState) (header : HttpHeader)
    (headers : List HttpHeader) : ClientState × HttpHeader × List HttpHeader :=
  let connection := valStr behind header headers
  let delims := utf8 ", "
  ((strtokAll delims connection.length connection).foldl connectionToken state,
    { header with val := strtokCut delims false header.val },
    if header.val.length < httpHeadValLen then headers
    else strtokHeaders delims (endsInToken delims false header.val) headers)

/-- What the headers of a message set. `websocketKey` stands for the answer to the key. -/
structure Handled where
  state : ClientState
  bodyLen : Nat
  websocketKey : Option Bytes

def handleHttpHeader (behind : Bytes) (h : Handled) (header : HttpHeader)
    (headers : List HttpHeader) : Handled × HttpHeader × List HttpHeader :=
  if header.name = utf8 "Content-Length" then
    ({ h with bodyLen := strtoull (valStr behind header headers) }, header, headers)
  else if header.name = utf8 "Connection" then
    let r := setClientConnection behind h.state header headers
    ({ h with state := r.1 }, r.2)
  else if header.name = utf8 "Sec-WebSocket-Key" then
    ({ h with websocketKey := some (valStr behind header headers) }, header, headers)
  else (h, header, headers)

def handleHttpHeaders (behind : Bytes) :
    Nat → Handled → List HttpHeader → Handled × List HttpHeader
  | 0, h, headers => (h, headers)
  | _, h, [] => (h, [])
  | n + 1, h, header :: headers =>
    let r := handleHttpHeader behind h header headers
    let s := handleHttpHeaders behind n r.1 r.2.2
    (s.1, r.2.1 :: s.2)

def parseParam (param : Bytes) : Except Fault HttpHeader :=
  match strtok (utf8 "=") param with
  | (none, _) => .error .nullSource
  | (some key, val) => .ok ⟨key.take httpHeadNameLen, val.take httpHeadValLen⟩

def parseUrl (url : Bytes) : Except Fault (Bytes × List HttpHeader) :=
  match strtok (utf8 "?") url with
  | (path, paramsLine) =>
    match (strtokAll (utf8 "&") httpMaxParams paramsLine).mapM parseParam, path with
    | .error fault, _ => .error fault
    | .ok _, none => .error .nullSource
    | .ok params, some path => .ok (path.take httpUrlLen, params)

/-- The first line of a message, `none` when `parse_http` gives up on it. -/
def parseMessage (line : Bytes) : Except Fault (Option (Message × List HttpHeader)) :=
  match strtok (utf8 " ") line with
  | (none, _) => .ok none
  | (some first, save) =>
    let second := strtok (utf8 " ") save
    let last := (strtok httpNl second.2).1.getD []
    if utf8 "HTTP/" <:+: first then
      let code := match second.1 with
        | none => 0
        | some code => atoi code % 2 ^ 16
      .ok (some (.resp (first.take httpVersionLen) code (last.take httpStatusMsgLen), []))
    else
      match second.1 with
      | none => .ok (some (.req (first.take httpMethodLen) [] (last.take httpMethodLen), []))
      | some url =>
        match parseUrl url with
        | .error fault => .error fault
        | .ok (path, params) =>
          .ok (some (.req (first.take httpMethodLen) path (last.take httpMethodLen), params))

/-- Up to `n` headers. The line behind which there is no line break is read again, cut down to its
name, so that the loop ends there. -/
def parseHeaders : Nat → Bytes → List HttpHeader
  | 0, _ => []
  | n + 1, save =>
    match strsplit httpNl save with
    | none => []
    | some (line, rest) =>
      match strtok (utf8 ": ") line with
      | (none, _) => []
      | (some name, save) =>
        match strtok [] save with
        | (none, _) => []
        | (some val, _) =>
          let val := if val.head? = some 32 then val.tail else val
          ⟨name.take httpHeadNameLen, val.take httpHeadValLen⟩ ::
            parseHeaders n (rest.getD (strtokLeaves (utf8 ": ") line))

/-- `n_headers` counts one header less than there are in a full array. -/
def countHeaders (headers : List HttpHeader) : Nat := min headers.length (httpMaxHeaders - 1)

/-- The bytes of `n_headers` follow a full array, zeros another one. -/
def behindHeaders (headers : List HttpHeader) : Bytes :=
  if headers.length = httpMaxHeaders then [19] else []

structure HeaderTable where
  headers : List HttpHeader
  nHeaders : Nat
  handled : Handled

def readHeaders (state : ClientState) (lines : Bytes) : HeaderTable :=
  let headers := parseHeaders httpMaxHeaders lines
  let n := countHeaders headers
  let r := handleHttpHeaders (behindHeaders headers) n ⟨state, 0, none⟩ headers
  ⟨r.2, n, r.1⟩

def findHeader (behind name : Bytes) : Nat → List HttpHeader → Option Bytes
  | 0, _ => none
  | _, [] => none
  | n + 1, header :: headers =>
    if header.name = name then some (valStr behind header headers)
    else findHeader behind name n headers

def httpGetHeader (nHeaders : Nat) (headers : List HttpHeader) (name : String) : Option Bytes :=
  findHeader (behindHeaders headers) (utf8 name) nHeaders headers

def HeaderTable.get (table : HeaderTable) (name : String) : Option Bytes :=
  httpGetHeader table.nHeaders table.headers name

structure Head where
  message : Message
  params : List HttpHeader
  table : HeaderTable

def handleHttpUpgrade (state : ClientState) (val : Bytes) : ClientState :=
  if val = utf8 "websocket" then { state with websocket := true } else state

def handleUpgrade (table : HeaderTable) : Except Fault ClientState :=
  if table.handled.state.upgradePending then
    match table.get "Upgrade" with
    | none => .error .nullHeader
    | some val => .ok (handleHttpUpgrade table.handled.state val)
  else .ok table.handled.state

/-- What the header lines are read from when the first line is done: without a line break behind it,
the first line again, cut down to its first token. -/
def headerLines (line : Bytes) (rest : Option Bytes) : Bytes :=
  rest.getD (strtokLeaves (utf8 " ") line)

/-- The header block up to the handling of an upgrade. -/
def parseHead (state : ClientState) (header : Bytes) : Except Fault (Option Head) :=
  match strsplit httpNl header with
  | none => .error .nullSource
  | some (line, rest) =>
    match parseMessage line with
    | .error fault => .error fault
    | .ok none => .ok none
    | .ok (some (message, params)) =>
      .ok (some ⟨message, params, readHeaders state (headerLines line rest)⟩)

/-- The second `strsplit` of `parse_http`, which overwrites a delimiter that it finds. -/
def restBody (rest : Bytes) : Body :=
  match strsplit httpEnd rest with
  | none => .null
  | some (_, none) => .rest rest
  | some (token, some behind) => .rest (token ++ List.replicate httpEnd.length 0 ++ behind)

def parseBody (rest : Option Bytes) : Body :=
  match rest with
  | none => .start
  | some rest => restBody rest

/-- `actual_body_len`, a subtraction of `size_t`. -/
def actualBodyLen (body : Body) (bufLen headerLen : Nat) : Nat :=
  if body = .null then 0 else (bufLen + 2 ^ 64 - headerLen) % 2 ^ 64

def headerLen (header : Bytes) : Nat := header.length + httpEnd.length

def finish (head : Head) (body : Body) (actual : Nat) : Http :=
  let bodyLen := head.table.handled.bodyLen
  let missing := decide ((body ≠ .null ∨ bodyLen ≠ 0) ∧ actual < bodyLen)
  { message := head.message
    headers := head.table.headers
    nHeaders := head.table.nHeaders
    params := head.params
    body := if missing then .heap body actual else body
    bodyLen := bodyLen
    websocketKey := head.table.handled.websocketKey
    missing := missing
    totalRecv := if missing then actual else 0 }

/-- `parse_http` where there is memory for the body. `none` is a NULL result. `client->recv.http` is
set when the body is missing. -/
def parseHttp (state : ClientState) (buf : Bytes) :
    Except Fault (Option (Http × ClientState)) :=
  match strsplit httpEnd buf with
  | none => .ok none
  | some (header, rest) =>
    match parseHead state header with
    | .error fault => .error fault
    | .ok none => .ok none
    | .ok (some head) =>
      match handleUpgrade head.table with
      | .error fault => .error fault
      | .ok state =>
        let body := parseBody rest
        .ok (some (finish head body (actualBodyLen body buf.length (headerLen header)), state))

/-- `calloc` tells for which numbers of bytes there is a block. That of a missing body is not looked
at: the `memcpy` of the received bytes into NULL is a fault, unless there are none. -/
def storeBody (calloc : Nat → Bool) (http : Http) : Except Fault Http :=
  if http.missing = true ∧ calloc http.bodyLen = false then
    if http.totalRecv = 0 then .ok { http with body := .null } else .error .nullBlock
  else .ok http

/-- `parse_http`, which allocates the block of a missing body last. -/
def parseHttpIn (calloc : Nat → Bool) (state : ClientState) (buf : Bytes) :
    Except Fault (Option (Http × ClientState)) :=
  match parseHttp state buf with
  | .error fault => .error fault
  | .ok none => .ok none
  | .ok (some (http, state)) => (storeBody calloc http).map (fun http => some (http, state))

def UrlParses (url : Bytes) : Prop :=
  (∃ c ∈ url, c ∉ utf8 "?") ∧
    ∀ param ∈ strtokAll (utf8 "&") httpMaxParams (strtok (utf8 "?") url).2,
      ∃ c ∈ param, c ∉ utf8 "="

instance (url : Bytes) : Decidable (UrlParses url) := inferInstanceAs (Decidable (_ ∧ _))

theorem mapM_ok_iff {α β ε : Type} (f : α → Except ε β) (l : List α) :
    (∃ ys, l.mapM f = .ok ys) ↔ ∀ x ∈ l, ∃ y, f x = .ok y := by
  induction l with
  | nil => simp [pure, Except.pure]
  | cons x l ih =>
      rw [List.forall_mem_cons, ← ih, List.mapM_cons]
      cases hx : f x with
      | error e => simp [bind, Except.bind]
      | ok y =>
          cases hl : l.mapM f with
          | error e => simp [bind, Except.bind]
          | ok ys => simp [bind, Except.bind, pure, Except.pure]

theorem strtok_some_iff {delims s : Bytes} :
    (∃ token save, strtok delims s = (some token, save)) ↔ ∃ c ∈ s, c ∉ delims := by
  have h := (strtok_eq_none delims s).not
  push Not at h
  rw [← h, Option.ne_none_iff_exists']
  constructor
  · rintro ⟨token, save, h⟩
    exact ⟨token, by rw [h]⟩
  · rintro ⟨token, h⟩
    exact ⟨token, _, Prod.ext h rfl⟩

theorem parseParam_ok_iff {param : Bytes} :
    (∃ header, parseParam param = .ok header) ↔ ∃ c ∈ param, c ∉ utf8 "=" := by
  rw [← strtok_some_iff, parseParam]
  cases strtok (utf8 "=") param with
  | mk token save => cases token <;> simp

theorem handleUpgrade_ok (table : HeaderTable) :
    (∃ state, handleUpgrade table = .ok state) ↔
      (table.handled.state.upgradePending = true → (table.get "Upgrade").isSome) := by
  rw [handleUpgrade]
  cases table.handled.state.upgradePending with
  | false => simp
  | true => cases table.get "Upgrade" <;> simp

theorem parseHttp_ok_iff {state state' : ClientState} {buf : Bytes} {http : Http} :
    parseHttp state buf = .ok (some (http, state')) ↔
      ∃ header rest head, strsplit httpEnd buf = some (header, rest) ∧
        parseHead state header = .ok (some head) ∧ handleUpgrade head.table = .ok state' ∧
        http = finish head (parseBody rest)
          (actualBodyLen (parseBody rest) buf.length (headerLen header)) := by
  rw [parseHttp]
  cases strsplit httpEnd buf with
  | none => simp
  | some split =>
      obtain ⟨header, rest⟩ := split
      simp only [Option.some.injEq, Prod.mk.injEq]
      constructor
      · intro h
        cases hhead : parseHead state header with
        | error fault => simp [hhead] at h
        | ok head =>
            cases head with
            | none => simp [hhead] at h
            | some head =>
                cases hup : handleUpgrade head.table with
                | error fault => simp [hhead, hup] at h
                | ok state'' =>
                    simp only [hhead, hup, Except.ok.injEq, Option.some.injEq, Prod.mk.injEq] at h
                    exact ⟨header, rest, head, ⟨rfl, rfl⟩, hhead, by rw [hup, h.2], h.1.symm⟩
      · rintro ⟨header, rest, head, ⟨rfl, rfl⟩, hhead, hup, rfl⟩
        simp only [hhead, hup]

theorem parseHttpIn_ok_iff {calloc : Nat → Bool} {state state' : ClientState} {buf : Bytes}
    {http : Http} :
    parseHttpIn calloc state buf = .ok (some (http, state')) ↔
      ∃ parsed, parseHttp state buf = .ok (some (parsed, state')) ∧
        storeBody calloc parsed = .ok http := by
  rw [parseHttpIn]
  cases hparse : parseHttp state buf with
  | error fault => simp
  | ok r =>
      cases r with
      | none => simp
      | some r =>
          obtain ⟨parsed, state''⟩ := r
          simp only [Except.ok.injEq, Option.some.injEq, Prod.mk.injEq]
          constructor
          · intro h
            cases hstore : storeBody calloc parsed with
            | error fault => simp [Except.map, hstore] at h
            | ok http' =>
                simp only [Except.map, hstore, Except.ok.injEq, Option.some.injEq, Prod.mk.injEq] at h
                exact ⟨parsed, ⟨rfl, h.2⟩, by rw [hstore, h.1]⟩
          · rintro ⟨parsed', ⟨rfl, rfl⟩, hstore⟩
            simp [Except.map, hstore]

theorem parseUrl_ok_iff {url : Bytes} : (∃ r, parseUrl url = .ok r) ↔ UrlParses url := by
  have hm := mapM_ok_iff parseParam (strtokAll (utf8 "&") httpMaxParams (strtok (utf8 "?") url).2)
  simp only [parseParam_ok_iff] at hm
  rw [UrlParses, ← hm, ← strtok_some_iff, parseUrl]
  cases strtok (utf8 "?") url with
  | mk path paramsLine =>
      cases hp : (strtokAll (utf8 "&") httpMaxParams paramsLine).mapM parseParam with
      | error fault => simp [hp]
      | ok params => cases path <;> simp [hp]

theorem parseMessage_req {first line save : Bytes} (h : strtok (utf8 " ") line = (some first, save))
    (hreq : ¬ utf8 "HTTP/" <:+: first) :
    (∃ r, parseMessage line = .ok (some r)) ↔
      ∀ url, (strtok (utf8 " ") save).1 = some url → UrlParses url := by
  rw [parseMessage, h]
  simp only [if_neg hreq]
  cases hs : (strtok (utf8 " ") save).1 with
  | none => simp
  | some url =>
      simp only [Option.some.injEq, forall_eq', ← parseUrl_ok_iff]
      cases parseUrl url <;> simp

end ChityChat.ServerHttp
