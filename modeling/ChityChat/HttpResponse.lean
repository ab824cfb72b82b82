import ChityChat.DecimalText
import Mathlib.Data.List.Nodup

namespace ChityChat.HttpResponse

open CString JsonC ServerHttp HttpBlock HttpBody DecimalText

def httpVersion : Bytes := utf8 "HTTP/1.1"
def serverName : Bytes := utf8 "ChityChat"

/-- `sizeof(http_header_t) + sizeof(HTTP_NL) + sizeof(": ")`. -/
def headerLineLen : Nat := httpHeadNameLen + httpHeadValLen + 3 + 3

def httpEndSize : Nat := 5

/-- `sizeof(http_resp_t)`, which has the code between two arrays. -/
def httpRespSize : Nat := httpVersionLen + 2 + httpStatusMsgLen

/-- No object is larger than `PTRDIFF_MAX`. -/
structure Buffer where
  bytes : Bytes
  size : bytes.length < 2 ^ 63

structure Response where
  code : UInt16
  msg : Bytes
  headers : List HttpHeader
  body : Option Bytes
  bodyLen : Nat

structure HttpToStr where
  str : Bytes
  len : Nat
  max : Nat

/-- The place of a header that `http_add_header` writes to: the name is there already, or the place
is empty. -/
def Takes (name : Bytes) (header : HttpHeader) : Prop :=
  header.name = name.take httpHeadNameLen ∨ header.name = [] ∨ header.val = []

instance (name : Bytes) (header : HttpHeader) : Decidable (Takes name header) :=
  inferInstanceAs (Decidable (_ ∨ _))

def stored (name val : Bytes) : HttpHeader := ⟨name.take httpHeadNameLen, val.take httpHeadValLen⟩

def putHeader (name val : Bytes) : List HttpHeader → Option (List HttpHeader)
  | [] => none
  | header :: headers =>
    if Takes name header then some (stored name val :: headers)
    else (putHeader name val headers).map (header :: ·)

def httpAddHeader (http : Response) (name val : Bytes) : Response :=
  match putHeader name val http.headers with
  | some headers => { http with headers := headers }
  | none =>
    if httpMaxHeaders ≤ http.headers.length then http
    else { http with headers := http.headers ++ [stored name val] }

def httpAddBody (http : Response) (body : Bytes) : Response :=
  httpAddHeader { http with body := some body, bodyLen := body.length } (utf8 "Content-Length")
    ((decimal body.length).take (httpHeadValLen - 1))

def httpNewResp (code : UInt16) (statusMsg : Bytes) (body : Option Bytes) : Response :=
  let http := httpAddHeader ⟨code, statusMsg.take httpStatusMsgLen, [], none, 0⟩ (utf8 "Server")
    serverName
  match body with
  | none => http
  | some body => httpAddBody http body

def statusLine (code : UInt16) (msg : Bytes) : Bytes :=
  httpVersion ++ 32 :: (decimal code.toNat ++ 32 :: (msg ++ httpNl))

def headerLines (behind : Bytes) : List HttpHeader → Bytes
  | [] => []
  | header :: headers =>
    (if header.name = [] ∨ header.val = [] then []
      else (headersStr behind (header :: headers) ++ 58 :: 32 :: (valStr behind header headers ++
        if headers = [] then [] else httpNl)).take (headerLineLen - 1)) ++
      headerLines behind headers

/-- The bytes of `n_headers` follow a full array, zeros another one. -/
def behindArray (http : Response) : Bytes :=
  if http.headers.length = httpMaxHeaders then [20] else []

def toStrSize (http : Response) : Nat :=
  (headerLineLen * http.headers.length + httpEndSize + httpRespSize +
    if http.body.isSome then http.bodyLen else 0) % 2 ^ 64

def toStrText (http : Response) : Bytes :=
  (statusLine http.code http.msg).take (toStrSize http - 1) ++
    headerLines (behindArray http) http.headers ++ httpEnd

def httpToStr (http : Response) : HttpToStr :=
  let currentLen := min (toStrText http).length (toStrSize http)
  { str := (toStrText http).take currentLen ++ (http.body.getD []).take http.bodyLen
    len := (currentLen + http.bodyLen) % 2 ^ 64
    max := toStrSize http }

structure StatusText where
  text : Bytes
  fits : text.length < httpStatusMsgLen

structure Addition where
  name : Bytes
  val : Bytes
  name_ne : name ≠ []
  val_ne : val ≠ []
  name_plain : Plain name
  val_plain : Plain val
  name_fits : name.length < httpHeadNameLen
  val_fits : val.length < httpHeadValLen
  name_other : name ≠ utf8 "Content-Length"

def addAll (http : Response) (added : List Addition) : Response :=
  added.foldl (fun http a => httpAddHeader http a.name a.val) http

def sent (body : Option Buffer) (added : List Addition) : List (Bytes × Bytes) :=
  (utf8 "Server", serverName) ::
    (body.elim [] (fun b => [(utf8 "Content-Length", decimal b.bytes.length)]) ++
      added.map (fun a => (a.name, a.val)))

def lastVal (sent : List (Bytes × Bytes)) (name : Bytes) : Option Bytes :=
  sent.foldl (fun val s => if s.1 = name then some s.2 else val) none

/-- The table holds the last value for each name, and all names while it is not full. -/
structure HoldsLast (sent : List (Bytes × Bytes)) (http : Response) : Prop where
  bounded : http.headers.length ≤ httpMaxHeaders
  once : (http.headers.map HttpHeader.name).Nodup
  last : ∀ h ∈ http.headers, lastVal sent h.name = some h.val
  kept : ∀ name, lastVal sent name ≠ none →
    name ∈ http.headers.map HttpHeader.name ∨ http.headers.length = httpMaxHeaders

def headerText (h : HttpHeader) : Bytes := h.name ++ 58 :: 32 :: (h.val ++ httpNl)

structure Written (http : Response) (code : UInt16) (status : Bytes) (body : Option Buffer) :
    Prop where
  str : (httpToStr http).str = statusLine code status ++
    (http.headers.flatMap headerText ++ (httpNl ++ body.elim [] Buffer.bytes))
  len : (httpToStr http).len = (httpToStr http).str.length
  bound : (httpToStr http).len ≤ (httpToStr http).max
  contentLength : ∀ b, body = some b →
    ∃ val, ⟨utf8 "Content-Length", val⟩ ∈ http.headers ∧ Decimal val b.bytes.length

structure Fits (h : HttpHeader) : Prop where
  name_ne : h.name ≠ []
  val_ne : h.val ≠ []
  name_fits : h.name.length < httpHeadNameLen
  val_fits : h.val.length < httpHeadValLen

variable {http : Response} {name val : Bytes} {headers : List HttpHeader}

section Table

theorem putHeader_some {headers' : List HttpHeader}
    (h : putHeader name val headers = some headers') : ∃ before old after,
    headers = before ++ old :: after ∧ Takes name old ∧
      headers' = before ++ stored name val :: after := by
  induction headers generalizing headers' with
  | nil => simp [putHeader] at h
  | cons header headers ih =>
      rw [putHeader] at h
      by_cases ht : Takes name header
      · rw [if_pos ht, Option.some.injEq] at h
        exact ⟨[], header, headers, rfl, ht, h.symm⟩
      · rw [if_neg ht, Option.map_eq_some_iff] at h
        obtain ⟨rest, hrest, rfl⟩ := h
        obtain ⟨before, old, after, rfl, hold, rfl⟩ := ih hrest
        exact ⟨header :: before, old, after, rfl, hold, rfl⟩

theorem putHeader_none (h : putHeader name val headers = none) : ∀ h ∈ headers, ¬ Takes name h := by
  induction headers with
  | nil => simp
  | cons header headers ih =>
      rw [putHeader] at h
      by_cases ht : Takes name header
      · simp [ht] at h
      · rw [if_neg ht, Option.map_eq_none_iff] at h
        exact List.forall_mem_cons.mpr ⟨ht, ih h⟩

theorem httpAddHeader_cases (http : Response) (name val : Bytes) :
    (∃ before old after, http.headers = before ++ old :: after ∧ Takes name old ∧
      httpAddHeader http name val = { http with headers := before ++ stored name val :: after }) ∨
    (∀ h ∈ http.headers, ¬ Takes name h) ∧
      (http.headers.length < httpMaxHeaders ∧
        httpAddHeader http name val = { http with headers := http.headers ++ [stored name val] } ∨
      httpMaxHeaders ≤ http.headers.length ∧ httpAddHeader http name val = http) := by
  rw [httpAddHeader]
  cases hput : putHeader name val http.headers with
  | some headers =>
      obtain ⟨before, old, after, hh, ht, rfl⟩ := putHeader_some hput
      exact .inl ⟨before, old, after, hh, ht, rfl⟩
  | none =>
      refine .inr ⟨putHeader_none hput, ?_⟩
      by_cases hfull : httpMaxHeaders ≤ http.headers.length
      · exact .inr ⟨hfull, if_pos hfull⟩
      · exact .inl ⟨by omega, if_neg hfull⟩

theorem stored_eq (hname : name.length < httpHeadNameLen) (hval : val.length < httpHeadValLen) :
    stored name val = ⟨name, val⟩ := by
  rw [stored, List.take_of_length_le hname.le, List.take_of_length_le hval.le]

theorem takes_iff {h : HttpHeader} (hfits : Fits h) (hname : name.length < httpHeadNameLen) :
    Takes name h ↔ h.name = name := by
  rw [Takes, List.take_of_length_le hname.le]
  simp [hfits.name_ne, hfits.val_ne]

theorem lastVal_append (sent : List (Bytes × Bytes)) (name val other : Bytes) :
    lastVal (sent ++ [(name, val)]) other = if name = other then some val else lastVal sent other := by
  rw [lastVal, List.foldl_append]
  rfl

structure Table (sent : List (Bytes × Bytes)) (http : Response) : Prop where
  holds : HoldsLast sent http
  fits : ∀ h ∈ http.headers, Fits h

variable {added : List (Bytes × Bytes)}

theorem HoldsLast.last_other (h : HoldsLast added http) {header : HttpHeader}
    (hmem : header ∈ http.headers) (hne : header.name ≠ name) :
    lastVal (added ++ [(name, val)]) header.name = some header.val := by
  rw [lastVal_append, if_neg (Ne.symm hne), h.last header hmem]

theorem lastVal_ne_none {other : Bytes} (h : lastVal (added ++ [(name, val)]) other ≠ none) :
    other = name ∨ lastVal added other ≠ none := by
  rw [lastVal_append] at h
  by_cases heq : name = other
  · exact .inl heq.symm
  · exact .inr (by rwa [if_neg heq] at h)

theorem Table.replace (h : Table added http) (hfits : Fits ⟨name, val⟩)
    {before after : List HttpHeader} {old : HttpHeader}
    (hh : http.headers = before ++ old :: after) (hold : old.name = name) :
    Table (added ++ [(name, val)]) { http with headers := before ++ ⟨name, val⟩ :: after } := by
  have honce := h.holds.once
  have hnames : (before ++ ⟨name, val⟩ :: after).map HttpHeader.name =
      http.headers.map HttpHeader.name := by
    simp [hh, hold]
  have hlen : (before ++ ⟨name, val⟩ :: after).length = http.headers.length := by simp [hh]
  have hother : ∀ h' ∈ before ++ after, h' ∈ http.headers ∧ h'.name ≠ name := by
    intro h' hmem
    constructor
    · rw [List.mem_append] at hmem
      simp only [hh, List.mem_append, List.mem_cons]
      tauto
    · intro hn
      rw [hh, List.map_append, List.map_cons, List.nodup_middle, List.nodup_cons,
        ← List.map_append, hold] at honce
      exact honce.1 (List.mem_map.mpr ⟨h', hmem, hn⟩)
  have hsub : ∀ h' ∈ before ++ ⟨name, val⟩ :: after, h' = ⟨name, val⟩ ∨ h' ∈ before ++ after := by
    intro h' hmem
    rw [List.mem_append, List.mem_cons] at hmem
    rw [List.mem_append]
    tauto
  refine ⟨⟨hlen.trans_le h.holds.bounded, hnames ▸ honce, ?_, ?_⟩, ?_⟩
  · intro h' hmem
    rcases hsub h' hmem with rfl | hmem
    · rw [lastVal_append, if_pos rfl]
    · exact h.holds.last_other (hother h' hmem).1 (hother h' hmem).2
  · intro other ho
    simp only [hnames, hlen]
    rcases lastVal_ne_none ho with rfl | ho
    · exact .inl (by simp [hh, hold])
    · exact h.holds.kept other ho
  · intro h' hmem
    rcases hsub h' hmem with rfl | hmem
    · exact hfits
    · exact h.fits h' (hother h' hmem).1

theorem Table.append (h : Table added http) (hfits : Fits ⟨name, val⟩)
    (hfresh : ∀ h' ∈ http.headers, h'.name ≠ name) (hroom : http.headers.length < httpMaxHeaders) :
    Table (added ++ [(name, val)]) { http with headers := http.headers ++ [⟨name, val⟩] } := by
  have hsub : ∀ h' ∈ http.headers ++ [⟨name, val⟩], h' ∈ http.headers ∨ h' = ⟨name, val⟩ := by
    simp
  refine ⟨⟨by simpa using Nat.succ_le_of_lt hroom, ?_, ?_, ?_⟩, ?_⟩
  · rw [List.map_append, List.nodup_append]
    refine ⟨h.holds.once, by simp, ?_⟩
    simpa using hfresh
  · intro h' hmem
    rcases hsub h' hmem with hmem | rfl
    · exact h.holds.last_other hmem (hfresh h' hmem)
    · rw [lastVal_append, if_pos rfl]
  · intro other ho
    rcases lastVal_ne_none ho with rfl | ho
    · exact .inl (by simp)
    · rcases h.holds.kept other ho with hmem | hlen
      · exact .inl (by rw [List.map_append]; exact List.mem_append_left _ hmem)
      · exact absurd hlen hroom.ne
  · intro h' hmem
    rcases hsub h' hmem with hmem | rfl
    · exact h.fits h' hmem
    · exact hfits

theorem Table.refuse (h : Table added http) (hfresh : ∀ h' ∈ http.headers, h'.name ≠ name)
    (hfull : httpMaxHeaders ≤ http.headers.length) : Table (added ++ [(name, val)]) http := by
  refine ⟨⟨h.holds.bounded, h.holds.once, ?_, ?_⟩, h.fits⟩
  · exact fun h' hmem => h.holds.last_other hmem (hfresh h' hmem)
  · exact fun other _ => .inr (Nat.le_antisymm h.holds.bounded hfull)

theorem Table.add (h : Table added http) (hfits : Fits ⟨name, val⟩) :
    Table (added ++ [(name, val)]) (httpAddHeader http name val) := by
  have htakes {h' : HttpHeader} (hmem : h' ∈ http.headers) :=
    takes_iff (h.fits h' hmem) hfits.name_fits
  have hcases := httpAddHeader_cases http name val
  rw [stored_eq hfits.name_fits hfits.val_fits] at hcases
  rcases hcases with ⟨before, old, after, hh, ht, he⟩ | ⟨hnone, ⟨hroom, he⟩ | ⟨hfull, he⟩⟩
  · rw [he]
    exact h.replace hfits hh ((htakes (by simp [hh])).mp ht)
  · rw [he]
    exact h.append hfits (fun h' hmem hn => hnone h' hmem ((htakes hmem).mpr hn)) hroom
  · rw [he]
    exact h.refuse (fun h' hmem hn => hnone h' hmem ((htakes hmem).mpr hn)) hfull

theorem Table.mem_add (h : Table added http) (hfits : Fits ⟨name, val⟩) {header : HttpHeader}
    (hmem : header ∈ http.headers) (hne : header.name ≠ name) :
    header ∈ (httpAddHeader http name val).headers := by
  rcases httpAddHeader_cases http name val with
    ⟨before, old, after, hh, ht, he⟩ | ⟨-, ⟨-, he⟩ | ⟨-, he⟩⟩
  · have hold := (takes_iff (h.fits old (by simp [hh])) hfits.name_fits).mp ht
    rw [hh, List.mem_append, List.mem_cons] at hmem
    rw [he, List.mem_append, List.mem_cons]
    rcases hmem with hmem | rfl | hmem
    · exact .inl hmem
    · exact absurd hold hne
    · exact .inr (.inr hmem)
  · rw [he]
    exact List.mem_append_left _ hmem
  · rwa [he]

theorem httpAddHeader_rest (http : Response) (name val : Bytes) :
    (httpAddHeader http name val).code = http.code ∧ (httpAddHeader http name val).msg = http.msg ∧
      (httpAddHeader http name val).body = http.body ∧
      (httpAddHeader http name val).bodyLen = http.bodyLen := by
  rcases httpAddHeader_cases http name val with
    ⟨before, old, after, -, -, he⟩ | ⟨-, ⟨-, he⟩ | ⟨-, he⟩⟩ <;> simp [he]

end Table

section Text

theorem headerLines_nl (behind : Bytes) (hne : headers ≠ []) (hfits : ∀ h ∈ headers, Fits h) :
    headerLines behind headers ++ httpNl = headers.flatMap headerText := by
  induction headers with
  | nil => exact absurd rfl hne
  | cons h headers ih =>
      rw [List.forall_mem_cons] at hfits
      obtain ⟨hname_ne, hval_ne, hname, hval⟩ := hfits.1
      have hline : (h.name ++ 58 :: 32 :: (h.val ++ if headers = [] then [] else httpNl)).length ≤
          headerLineLen - 1 := by
        have hnl : (if headers = [] then [] else httpNl).length ≤ 2 := by split <;> decide
        simp only [httpHeadNameLen, httpHeadValLen, headerLineLen, List.length_append,
          List.length_cons] at *
        omega
      rw [headerLines, if_neg (by simp [hname_ne, hval_ne]), headersStr, runOn_of_lt hname, valStr,
        runOn_of_lt hval, List.take_of_length_le hline, List.flatMap_cons, headerText]
      by_cases hlast : headers = []
      · simp [hlast, headerLines]
      · simp [← ih hlast hfits.2, hlast]

theorem flatMap_headerText_length (hfits : ∀ h ∈ headers, Fits h) :
    (headers.flatMap headerText).length ≤ 322 * headers.length := by
  induction headers with
  | nil => simp
  | cons h headers ih =>
      rw [List.forall_mem_cons] at hfits
      have hname := hfits.1.name_fits
      have hval := hfits.1.val_fits
      have hrest := ih hfits.2
      simp only [httpHeadNameLen, httpHeadValLen, httpNl, List.flatMap_cons, headerText,
        List.length_append, List.length_cons, List.length_nil] at *
      omega

theorem statusLine_length (code : UInt16) (status : StatusText) :
    (statusLine code status.text).length ≤ 144 := by
  have hcode : (decimal code.toNat).length ≤ 5 := by
    have := code.toNat_lt
    exact decimal_length_le (by decide) (by omega)
  have hversion : httpVersion.length = 8 := by decide +kernel
  have hfits := status.fits
  simp only [statusLine, httpNl, httpStatusMsgLen, List.length_append, List.length_cons,
    List.length_nil] at *
  omega

structure Writable (http : Response) (code : UInt16) (status : StatusText) (body : Option Buffer) :
    Prop where
  code_eq : http.code = code
  msg_eq : http.msg = status.text
  body_eq : http.body = body.map Buffer.bytes
  bodyLen_eq : http.bodyLen = (body.elim [] Buffer.bytes).length
  ne : http.headers ≠ []
  bounded : http.headers.length ≤ httpMaxHeaders
  fits : ∀ h ∈ http.headers, Fits h

variable {code : UInt16} {status : StatusText} {body : Option Buffer}

theorem Writable.toStrSize (h : Writable http code status body) :
    toStrSize http = 326 * http.headers.length + 151 + (body.elim [] Buffer.bytes).length := by
  have hbounded := h.bounded
  have hwhole : (if http.body.isSome then http.bodyLen else 0) =
      (body.elim [] Buffer.bytes).length := by
    rw [h.bodyLen_eq, h.body_eq]
    cases body <;> simp
  have hsize : (body.elim [] Buffer.bytes).length < 2 ^ 63 := by
    cases body with
    | none => decide
    | some b => exact b.size
  rw [HttpResponse.toStrSize, hwhole]
  simp only [headerLineLen, httpHeadNameLen, httpHeadValLen, httpEndSize, httpRespSize,
    httpVersionLen, httpStatusMsgLen, httpMaxHeaders] at *
  omega

theorem Writable.toStrText (h : Writable http code status body) :
    toStrText http = statusLine code status.text ++
      (http.headers.flatMap headerText ++ httpNl) := by
  have hend : httpEnd = httpNl ++ httpNl := rfl
  have hstatus := statusLine_length code status
  rw [HttpResponse.toStrText, h.toStrSize, h.code_eq, h.msg_eq,
    List.take_of_length_le (by omega), hend, List.append_assoc,
    ← headerLines_nl (behindArray http) h.ne h.fits]
  simp only [List.append_assoc]

theorem Writable.room (h : Writable http code status body) :
    (HttpResponse.toStrText http).length + (body.elim [] Buffer.bytes).length ≤
      HttpResponse.toStrSize http := by
  have hstatus := statusLine_length code status
  have hlines := flatMap_headerText_length h.fits
  rw [h.toStrText, h.toStrSize]
  simp only [httpNl, List.length_append, List.length_cons, List.length_nil]
  omega

theorem Writable.str (h : Writable http code status body) :
    (httpToStr http).str = statusLine code status.text ++
      (http.headers.flatMap headerText ++ (httpNl ++ body.elim [] Buffer.bytes)) := by
  have hroom := h.room
  have hbody : (http.body.getD []).take http.bodyLen = body.elim [] Buffer.bytes := by
    rw [h.bodyLen_eq, h.body_eq]
    cases body <;> simp
  rw [httpToStr, hbody]
  simp only [Nat.min_eq_left (Nat.le_of_add_right_le hroom), List.take_length]
  rw [h.toStrText]
  simp only [List.append_assoc]

theorem Writable.len (h : Writable http code status body) :
    (httpToStr http).len = (HttpResponse.toStrText http).length +
      (body.elim [] Buffer.bytes).length := by
  have hroom := h.room
  have hsize : HttpResponse.toStrSize http < 2 ^ 64 := Nat.mod_lt _ (by decide)
  simp only [httpToStr, Nat.min_eq_left (Nat.le_of_add_right_le hroom), h.bodyLen_eq]
  omega

theorem Writable.written (h : Writable http code status body)
    (hlength : ∀ b, body = some b →
      ∃ val, ⟨utf8 "Content-Length", val⟩ ∈ http.headers ∧ Decimal val b.bytes.length) :
    Written http code status.text body := by
  refine ⟨h.str, ?_, ?_, hlength⟩
  · rw [h.len, h.str, h.toStrText]
    simp only [List.length_append]
    omega
  · rw [h.len]
    exact h.room

end Text

theorem server_fits : Fits ⟨utf8 "Server", serverName⟩ :=
  ⟨by decide +kernel, by decide +kernel, by decide +kernel, by decide +kernel⟩

theorem contentLength_fits (b : Buffer) :
    Fits ⟨utf8 "Content-Length", decimal b.bytes.length⟩ := by
  have hname : utf8 "Content-Length" ≠ [] ∧ (utf8 "Content-Length").length < httpHeadNameLen := by
    decide +kernel
  have hlen : (decimal b.bytes.length).length ≤ 20 :=
    decimal_length_le (by decide) (Nat.lt_trans b.size (by decide))
  exact ⟨hname.1, by simp [decimal], hname.2, Nat.lt_of_le_of_lt hlen (by decide)⟩

theorem Addition.fits (a : Addition) : Fits ⟨a.name, a.val⟩ :=
  ⟨a.name_ne, a.val_ne, a.name_fits, a.val_fits⟩

structure Ready (added : List (Bytes × Bytes)) (http : Response) (code : UInt16)
    (status : StatusText) (body : Option Buffer) : Prop where
  table : Table added http
  writable : Writable http code status body
  contentLength : ∀ b, body = some b →
    ⟨utf8 "Content-Length", decimal b.bytes.length⟩ ∈ http.headers

variable {code : UInt16} {status : StatusText} {body : Option Buffer}
  {added : List (Bytes × Bytes)}

theorem httpAddHeader_ne (http : Response) (name val : Bytes) (h : http.headers ≠ []) :
    (httpAddHeader http name val).headers ≠ [] := by
  rcases httpAddHeader_cases http name val with
    ⟨before, old, after, -, -, he⟩ | ⟨-, ⟨-, he⟩ | ⟨-, he⟩⟩ <;> simp [he, h]

theorem Writable.add (h : Writable http code status body)
    (ht : Table added (httpAddHeader http name val)) :
    Writable (httpAddHeader http name val) code status body := by
  obtain ⟨hcode, hmsg, hbody, hlen⟩ := httpAddHeader_rest http name val
  exact ⟨hcode.trans h.code_eq, hmsg.trans h.msg_eq, hbody.trans h.body_eq,
    hlen.trans h.bodyLen_eq, httpAddHeader_ne http name val h.ne, ht.holds.bounded, ht.fits⟩

theorem Ready.add (h : Ready added http code status body) (a : Addition) :
    Ready (added ++ [(a.name, a.val)]) (httpAddHeader http a.name a.val) code status body := by
  have ht := h.table.add a.fits
  refine ⟨ht, h.writable.add ht, ?_⟩
  intro b hb
  exact h.table.mem_add a.fits (h.contentLength b hb) a.name_other.symm

theorem Ready.addAll (h : Ready added http code status body) (more : List Addition) :
    Ready (added ++ more.map (fun a => (a.name, a.val))) (addAll http more) code status body := by
  induction more generalizing added http with
  | nil => simpa [HttpResponse.addAll] using h
  | cons a more ih => simpa [HttpResponse.addAll] using ih (h.add a)

def served (code : UInt16) (status : StatusText) (body : Option Bytes) (bodyLen : Nat) : Response :=
  ⟨code, status.text, [⟨utf8 "Server", serverName⟩], body, bodyLen⟩

theorem served_eq (code : UInt16) (status : StatusText) (body : Option Bytes) (bodyLen : Nat) :
    httpAddHeader ⟨code, status.text, [], body, bodyLen⟩ (utf8 "Server") serverName =
      served code status body bodyLen := by
  rw [served, ← stored_eq server_fits.name_fits server_fits.val_fits]
  rfl

theorem served_table (code : UInt16) (status : StatusText) (body : Option Bytes) (bodyLen : Nat) :
    Table [(utf8 "Server", serverName)] (served code status body bodyLen) := by
  have hempty : Table [] ⟨code, status.text, [], body, bodyLen⟩ :=
    ⟨⟨by simp, by simp, by simp, by simp [lastVal]⟩, by simp⟩
  rw [← served_eq]
  exact hempty.add server_fits

theorem served_writable (code : UInt16) (status : StatusText) (body : Option Buffer) :
    Writable (served code status (body.map Buffer.bytes) (body.elim [] Buffer.bytes).length) code
      status body :=
  ⟨rfl, rfl, rfl, rfl, by simp [served], by simp [served, httpMaxHeaders],
    (served_table code status _ _).fits⟩

theorem ready_served (code : UInt16) (status : StatusText) :
    Ready (sent none []) (served code status none 0) code status none :=
  ⟨served_table code status none 0, served_writable code status none, by simp⟩

theorem ready_httpAddBody (code : UInt16) (status : StatusText) (b : Buffer) :
    Ready (sent (some b) []) (httpAddBody (served code status none 0) b.bytes) code status
      (some b) := by
  have hfits := contentLength_fits b
  have hval : (decimal b.bytes.length).take (httpHeadValLen - 1) = decimal b.bytes.length := by
    apply List.take_of_length_le
    exact Nat.le_sub_one_of_lt hfits.val_fits
  have ht := (served_table code status (some b.bytes) b.bytes.length).add hfits
  rw [httpAddBody, hval]
  refine ⟨ht, (served_writable code status (some b)).add ht, ?_⟩
  rintro b' hb
  rw [Option.some.injEq] at hb
  subst hb
  have hother : ¬ Takes (utf8 "Content-Length") ⟨utf8 "Server", serverName⟩ := by
    decide +kernel
  rw [served, httpAddHeader, putHeader, if_neg hother, putHeader]
  simp [httpMaxHeaders, stored_eq hfits.name_fits hfits.val_fits]

theorem ready_httpNewResp (code : UInt16) (status : StatusText) (body : Option Buffer) :
    Ready (sent body []) (httpNewResp code status.text (body.map Buffer.bytes)) code status
      body := by
  have hfirst : httpAddHeader ⟨code, status.text.take httpStatusMsgLen, [], none, 0⟩
      (utf8 "Server") serverName = served code status none 0 := by
    rw [List.take_of_length_le status.fits.le]
    exact served_eq code status none 0
  cases body with
  | none =>
      simp only [httpNewResp, Option.map_none, hfirst]
      exact ready_served code status
  | some b =>
      simp only [httpNewResp, Option.map_some, hfirst]
      exact ready_httpAddBody code status b

/-- A response holds the last value of each header that was added to it, and is written with all of
them into a buffer that is large enough. -/
theorem httpToStr_writes (code : UInt16) (status : StatusText) (body : Option Buffer)
    (added : List Addition) :
    let http := addAll (httpNewResp code status.text (body.map Buffer.bytes)) added
    HoldsLast (sent body added) http ∧ Written http code status.text body ∧
      ∀ a : Addition, http.headers.length = httpMaxHeaders →
        a.name ∉ http.headers.map HttpHeader.name → httpAddHeader http a.name a.val = http := by
  intro http
  have hready := (ready_httpNewResp code status body).addAll added
  have hsent : sent body [] ++ added.map (fun a => (a.name, a.val)) = sent body added := by
    simp [sent]
  rw [hsent] at hready
  refine ⟨hready.table.holds, hready.writable.written ?_, ?_⟩
  · intro b hb
    exact ⟨_, hready.contentLength b hb, decimal_isDecimal _⟩
  · intro a hfull hnew
    rcases httpAddHeader_cases http a.name a.val with
      ⟨before, old, after, hh, ht, -⟩ | ⟨-, ⟨hroom, -⟩ | ⟨-, he⟩⟩
    · have hold := (takes_iff (hready.table.fits old (by simp [http, hh])) a.name_fits).mp ht
      exact absurd (List.mem_map.mpr ⟨old, by simp [hh], hold⟩) hnew
    · exact absurd hfull hroom.ne
    · exact he

def ok : StatusText := ⟨utf8 "OK", by decide +kernel⟩

def page : Buffer := ⟨utf8 "hi", by decide +kernel⟩

def contentType (val : Bytes) (hne : val ≠ []) (hplain : Plain val) (hfits : val.length < httpHeadValLen) : Addition :=
  ⟨utf8 "Content-Type", val, by decide +kernel, hne, by decide +kernel, hplain, by decide +kernel, hfits,
    by decide +kernel⟩

def text : Addition := contentType (utf8 "text/plain") (by decide +kernel) (by decide +kernel) (by decide +kernel)
def html : Addition := contentType (utf8 "text/html") (by decide +kernel) (by decide +kernel) (by decide +kernel)

theorem httpToStr_writes_page :
    HoldsLast (sent (some page) [text, html]) (addAll (httpNewResp 200 ok.text (some page.bytes)) [text, html]) ∧
      (httpToStr (addAll (httpNewResp 200 ok.text (some page.bytes)) [text, html])).str =
        utf8 "HTTP/1.1 200 OK\r\nServer: ChityChat\r\nContent-Length: 2\r\nContent-Type: text/html\r\n\r\nhi" := by
  obtain ⟨hlast, hwritten, -⟩ := httpToStr_writes 200 ok (some page) [text, html]
  refine ⟨hlast, hwritten.str.trans ?_⟩
  decide +kernel

end ChityChat.HttpResponse
