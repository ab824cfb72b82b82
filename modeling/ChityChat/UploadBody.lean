import ChityChat.ServerHttp
import Mathlib.Logic.Function.Basic

namespace ChityChat.UploadBody

open JsonC ServerHttp

inductive Block
  | recv
  | own
  deriving DecidableEq

structure Ptr where
  block : Block
  offset : Nat
  deriving DecidableEq

/-- How often each block was released, and whether released memory was read, or `free` called with a
pointer that is not the start of a block. -/
structure Heap where
  released : Block → Nat
  misread : Bool
  misfreed : Bool

def fresh : Heap := ⟨fun _ => 0, false, false⟩

def Heap.read (h : Heap) : Option Ptr → Heap
  | none => h
  | some p => { h with misread := h.misread || decide (h.released p.block ≠ 0) }

def Heap.free (h : Heap) : Option Ptr → Heap
  | none => h
  | some p =>
    if p.offset = 0 then
      { h with released := Function.update h.released p.block (h.released p.block + 1) }
    else { h with misfreed := true }

structure HttpBody where
  body : Option Ptr
  bodyInheap : Bool

/-- The body of a parsed message. `offset` is how far behind the start of the buffer the header
block ends. -/
def httpBody (http : Http) (offset : Nat) : HttpBody where
  body := match http.body with
    | .null => none
    | .start => some ⟨.recv, 0⟩
    | .rest _ => some ⟨.recv, offset⟩
    | .heap _ _ => some ⟨.own, 0⟩
  bodyInheap := http.missing

def httpFree (h : Heap) (http : HttpBody) : Heap :=
  if http.bodyInheap then h.free http.body else h

/-- A context of the chain, with the body that it keeps. -/
inductive Cmd
  | saveFileImg (data : Option Ptr)
  | userfileRefcount
  | updateUser
  | insertGroupMsg
  deriving DecidableEq

inductive Kind
  | userPfp
  | msgAttach
  deriving DecidableEq

/-- What decides the way of an upload: whether its handler comes to `server_save_file_img`, and
whether the body is an image, which queries are sent (`last` is the update of the user, or an insert
of the message that is due), whether the ring has a slot for the chain, and the results of the
insert and of the count. -/
structure Outcome where
  accepted : Bool
  image : Bool
  insertSent : Bool
  refcountSent : Bool
  lastSent : Bool
  slot : Bool
  insertOk : Bool
  refCount : Int

def serverSaveFileImg (o : Outcome) (data : Option Ptr) (h : Heap) : Bool × List Cmd × Heap :=
  let h := h.read data
  if o.image = false then (false, [], h)
  else if o.insertSent = false then (false, [], h)
  else if o.refcountSent = false then (false, [.saveFileImg data], h)
  else (true, [.saveFileImg data, .userfileRefcount], h)

/-- The third component is what the handler leaves of the message. -/
def serverHandleUserPfpUpdate (o : Outcome) (http : HttpBody) (h : Heap) :
    List Cmd × Heap × HttpBody :=
  if o.accepted = false then ([], h, http)
  else
    match serverSaveFileImg o http.body h with
    | (true, chain, h) =>
      if o.lastSent then (chain ++ [.updateUser], h, { http with bodyInheap := false })
      else (chain, h, http)
    | (false, chain, h) => (chain, h, http)

def serverHandleMsgAttach (o : Outcome) (http : HttpBody) (h : Heap) : List Cmd × Heap × HttpBody :=
  if o.accepted = false then ([], h, http)
  else
    match serverSaveFileImg o http.body h with
    | (true, chain, h) =>
      (if o.lastSent then chain ++ [.insertGroupMsg] else chain, h, { http with bodyInheap := false })
    | (false, chain, h) => (chain, h, http)

def serverHandleHttp (kind : Kind) (o : Outcome) (http : HttpBody) (h : Heap) : List Cmd × Heap :=
  let (chain, h, http) := match kind with
    | .userPfp => serverHandleUserPfpUpdate o http h
    | .msgAttach => serverHandleMsgAttach o http h
  (chain, httpFree h http)

/-- The receive buffer goes at the end of the first event, with the message handled before that
unless more of its body is to come. -/
def seReadClient (kind : Kind) (o : Outcome) (http : Http) (offset : Nat) : List Cmd × Heap :=
  if http.missing then
    serverHandleHttp kind o (httpBody http offset) (fresh.free (some ⟨.recv, 0⟩))
  else
    let (chain, h) := serverHandleHttp kind o (httpBody http offset) fresh
    (chain, h.free (some ⟨.recv, 0⟩))

def doSaveFileImg (o : Outcome) (data : Option Ptr) (next : Option Cmd) (h : Heap) : Heap :=
  if next = none then h
  else if o.insertOk = false then h
  else (if o.refCount = 1 then h.read data else h).free data

def dbExecCmdChain (o : Outcome) (h : Heap) : List Cmd → Heap
  | [] => h
  | .saveFileImg data :: chain => dbExecCmdChain o (doSaveFileImg o data chain.head? h) chain
  | _ :: chain => dbExecCmdChain o h chain

/-- An upload from its request to the end of its chain, which is dropped when the ring is full. -/
def upload (kind : Kind) (o : Outcome) (http : Http) (offset : Nat) : List Cmd × Heap :=
  let (chain, h) := seReadClient kind o http offset
  (chain, if o.slot then dbExecCmdChain o h chain else h)

/-- A body that is handed to the callback is the start of its own block and not read after its
release, and the block of a body is released once. -/
structure ReleasedOnce (http : Http) (x : List Cmd × Heap) : Prop where
  handed : ∀ data, .saveFileImg data ∈ x.1 → data = some ⟨.own, 0⟩ ∧ x.2.misread = false
  once : http.missing = true → x.2.released .own = 1

def Outcome.hands (o : Outcome) : Bool := o.accepted && o.image && o.insertSent

def Outcome.clears (o : Outcome) (kind : Kind) : Bool :=
  o.refcountSent && (decide (kind = .msgAttach) || o.lastSent)

def Outcome.frees (o : Outcome) : Bool := o.refcountSent && o.slot && o.insertOk

variable {kind : Kind} {o : Outcome} {h : Heap} {http : HttpBody} {data : Option Ptr}
  {chain : List Cmd}

theorem serverSaveFileImg_keeps (h : Heap) (hkeeps : ¬ (o.image = true ∧ o.insertSent = true)) :
    serverSaveFileImg o data h = (false, [], h.read data) := by
  rw [serverSaveFileImg]
  cases himage : o.image with
  | false => rw [if_pos rfl]
  | true =>
      have hsent : o.insertSent = false := by
        rw [← Bool.not_eq_true]
        exact fun hsent => hkeeps ⟨himage, hsent⟩
      rw [if_neg (Bool.false_ne_true ∘ Eq.symm), if_pos hsent]

variable (kind h http) in
theorem serverHandleHttp_keeps (ho : o.hands = false) :
    ∃ h', serverHandleHttp kind o http h = ([], httpFree h' http) ∧ h'.released = h.released := by
  by_cases hacc : o.accepted = false
  · refine ⟨h, ?_, rfl⟩
    cases kind with
    | userPfp => rw [serverHandleHttp, serverHandleUserPfpUpdate, if_pos hacc]
    | msgAttach => rw [serverHandleHttp, serverHandleMsgAttach, if_pos hacc]
  · have hkeeps : ¬ (o.image = true ∧ o.insertSent = true) := by
      rintro ⟨himage, hsent⟩
      rw [Outcome.hands, himage, hsent, Bool.and_true, Bool.and_true] at ho
      exact hacc ho
    refine ⟨h.read http.body, ?_, by cases hbody : http.body <;> rfl⟩
    cases kind with
    | userPfp =>
        rw [serverHandleHttp, serverHandleUserPfpUpdate, if_neg hacc,
          serverSaveFileImg_keeps h hkeeps]
    | msgAttach =>
        rw [serverHandleHttp, serverHandleMsgAttach, if_neg hacc,
          serverSaveFileImg_keeps h hkeeps]

def restOf (kind : Kind) (o : Outcome) : List Cmd :=
  if o.refcountSent = false then []
  else .userfileRefcount :: (if o.lastSent = false then []
    else match kind with
      | .userPfp => [.updateUser]
      | .msgAttach => [.insertGroupMsg])

theorem serverHandleHttp_hands (ho : o.hands = true) :
    serverHandleHttp kind o http h = (.saveFileImg http.body :: restOf kind o,
      httpFree (h.read http.body)
        { http with bodyInheap := http.bodyInheap && !o.clears kind }) := by
  simp only [Outcome.hands, Bool.and_eq_true] at ho
  obtain ⟨⟨hacc, himage⟩, hsent⟩ := ho
  cases kind <;> cases hcount : o.refcountSent <;> cases hlast : o.lastSent <;>
    simp [serverHandleHttp, serverHandleUserPfpUpdate, serverHandleMsgAttach, serverSaveFileImg,
      restOf, Outcome.clears, hacc, himage, hsent, hcount, hlast]

theorem dbExecCmdChain_restOf (o' : Outcome) (h : Heap) :
    dbExecCmdChain o' h (restOf kind o) = h := by
  unfold restOf
  split
  · rfl
  · split
    · rfl
    · cases kind <;> rfl

theorem restOf_head : (restOf kind o).head? = none ↔ o.refcountSent = false := by
  unfold restOf
  split
  · next hcount => exact iff_of_true rfl hcount
  · next hcount => exact iff_of_false (Option.some_ne_none _) hcount

theorem saveFileImg_notMem_restOf : Cmd.saveFileImg data ∉ restOf kind o := by
  unfold restOf
  split
  · exact List.not_mem_nil
  · split
    · simp
    · cases kind <;> simp

theorem chain_frees (h : Heap) :
    (if o.slot then dbExecCmdChain o h (.saveFileImg data :: restOf kind o) else h) =
      if o.frees then (if o.refCount = 1 then h.read data else h).free data else h := by
  rw [dbExecCmdChain, dbExecCmdChain_restOf, doSaveFileImg, Outcome.frees]
  simp only [restOf_head]
  cases o.slot <;> cases o.refcountSent <;> cases o.insertOk <;> simp

theorem parseBody_ne_heap (rest : Option Bytes) (copied : Body) (n : Nat) :
    parseBody rest ≠ .heap copied n := by
  unfold parseBody
  split
  · nofun
  · rw [restBody]
    split <;> nofun

theorem httpBody_missing {state state' : ClientState} {buf : Bytes} {http : Http}
    (hparse : parseHttp state buf = .ok (some (http, state'))) (hmissing : http.missing = true)
    (offset : Nat) : httpBody http offset = ⟨some ⟨.own, 0⟩, true⟩ := by
  obtain ⟨header, rest, head, -, -, -, rfl⟩ := parseHttp_ok_iff.mp hparse
  have hbody := hmissing
  dsimp only [finish] at hbody
  simp only [httpBody, finish, hbody, if_true]

theorem httpBody_complete {state state' : ClientState} {buf : Bytes} {http : Http}
    (hparse : parseHttp state buf = .ok (some (http, state'))) (hmissing : http.missing = false)
    (offset : Nat) : (httpBody http offset).body ≠ some ⟨.own, 0⟩ := by
  obtain ⟨header, rest, head, -, -, -, rfl⟩ := parseHttp_ok_iff.mp hparse
  have hbody := hmissing
  simp only [finish] at hbody
  simp only [httpBody, finish, hbody, Bool.false_eq_true, if_false]
  cases hrest : parseBody rest with
  | heap copied n => exact absurd hrest (parseBody_ne_heap rest copied n)
  | null => nofun
  | start => simp
  | rest bytes => simp

theorem releasedOnce_keeps {http : Http} {state state' : ClientState} {buf : Bytes}
    (hparse : parseHttp state buf = .ok (some (http, state'))) (ho : o.hands = false)
    (offset : Nat) : ReleasedOnce http (upload kind o http offset) := by
  rw [upload, seReadClient]
  cases hmissing : http.missing with
  | true =>
      obtain ⟨h', heq, hreleased⟩ := serverHandleHttp_keeps kind
        (fresh.free (some ⟨.recv, 0⟩)) (httpBody http offset) ho
      rw [if_pos rfl, heq, httpBody_missing hparse hmissing]
      refine ⟨fun data hdata => absurd hdata List.not_mem_nil, fun _ => ?_⟩
      have hown : (httpFree h' ⟨some ⟨.own, 0⟩, true⟩).released .own = 1 := by
        simp [httpFree, Heap.free, hreleased, fresh]
      simpa [dbExecCmdChain] using hown
  | false =>
      obtain ⟨h', heq, -⟩ := serverHandleHttp_keeps kind fresh (httpBody http offset) ho
      rw [if_neg Bool.false_ne_true, heq]
      exact ⟨fun data hdata => absurd hdata List.not_mem_nil,
        fun htrue => absurd (hmissing.symm.trans htrue) Bool.false_ne_true⟩

def handledHeap (kind : Kind) (o : Outcome) : Heap :=
  httpFree ((fresh.free (some ⟨.recv, 0⟩)).read (some ⟨.own, 0⟩))
    ⟨some ⟨.own, 0⟩, !o.clears kind⟩

theorem handledHeap_released (kind : Kind) (o : Outcome) :
    (handledHeap kind o).released .own = if o.clears kind then 0 else 1 := by
  cases hclears : o.clears kind <;> simp [handledHeap, httpFree, Heap.free, Heap.read, fresh, hclears]

theorem handledHeap_misread (kind : Kind) (o : Outcome) : (handledHeap kind o).misread = false := by
  cases hclears : o.clears kind <;> simp [handledHeap, httpFree, Heap.free, Heap.read, fresh, hclears]

theorem upload_missing {http : Http} {state state' : ClientState} {buf : Bytes}
    (hparse : parseHttp state buf = .ok (some (http, state'))) (ho : o.hands = true)
    (hmissing : http.missing = true) (offset : Nat) :
    upload kind o http offset = (.saveFileImg (some ⟨.own, 0⟩) :: restOf kind o,
      if o.frees then
        (if o.refCount = 1 then (handledHeap kind o).read (some ⟨.own, 0⟩)
          else handledHeap kind o).free (some ⟨.own, 0⟩)
      else handledHeap kind o) := by
  rw [upload, seReadClient, if_pos hmissing, serverHandleHttp_hands ho,
    httpBody_missing hparse hmissing]
  simp only [chain_frees, Bool.true_and]
  rfl

/-- The block of a body that came in parts is released by the handler unless that clears the flag,
and by the callback if it comes to the body. -/
theorem releasedOnce_missing {http : Http} {state state' : ClientState} {buf : Bytes}
    (hparse : parseHttp state buf = .ok (some (http, state'))) (ho : o.hands = true)
    (hmissing : http.missing = true) (offset : Nat) :
    ReleasedOnce http (upload kind o http offset) ↔ o.clears kind = o.frees := by
  have hreleased := handledHeap_released kind o
  have hmisread := handledHeap_misread kind o
  rw [upload_missing hparse ho hmissing]
  generalize handledHeap kind o = h at *
  have hread : (if o.refCount = 1 then h.read (some ⟨.own, 0⟩) else h).released = h.released := by
    split <;> rfl
  constructor
  · rintro ⟨-, honce⟩
    have hcount := honce hmissing
    cases hclears : o.clears kind <;> cases hfrees : o.frees <;>
      simp [hclears, hfrees, Heap.free, hread, hreleased] at hcount ⊢
  · intro heq
    refine ⟨fun data hdata => ?_, fun _ => ?_⟩
    · rcases List.mem_cons.mp hdata with hdata | hdata
      · refine ⟨Cmd.saveFileImg.inj hdata, ?_⟩
        cases hfrees : o.frees with
        | false => simpa using hmisread
        | true =>
            rw [heq, hfrees, if_pos rfl] at hreleased
            by_cases hcount : o.refCount = 1 <;>
              simp [Heap.free, Heap.read, hcount, hmisread, hreleased]
      · exact absurd hdata saveFileImg_notMem_restOf
    · cases hfrees : o.frees <;> rw [hfrees] at heq <;>
        simp [Heap.free, hread, hreleased, heq]

/-- The body of an upload is released once, and not before the callback reads it, if and only if it
is not handed to the callback, or came in parts and is either left to the callback that comes to it
or kept from a callback that does not. -/
theorem upload_releasedOnce_iff (state : ClientState) (buf : Bytes) (http : Http)
    (state' : ClientState) (hparse : parseHttp state buf = .ok (some (http, state')))
    (kind : Kind) (o : Outcome) (offset : Nat) :
    ReleasedOnce http (upload kind o http offset) ↔
      o.hands = false ∨ http.missing = true ∧ o.clears kind = o.frees := by
  cases ho : o.hands with
  | false => exact iff_of_true (releasedOnce_keeps hparse ho offset) (.inl rfl)
  | true =>
      rw [or_iff_right (Bool.true_eq_false.mp ·)]
      cases hmissing : http.missing with
      | true => rw [releasedOnce_missing hparse ho hmissing, and_iff_right rfl]
      | false =>
          refine iff_of_false (fun hreleased => ?_) (fun hboth => Bool.false_ne_true hboth.1)
          have hmem : .saveFileImg (httpBody http offset).body ∈ (upload kind o http offset).1 := by
            rw [upload, seReadClient, if_neg (by rw [hmissing]; exact Bool.false_ne_true),
              serverHandleHttp_hands ho]
            exact List.mem_cons_self
          exact httpBody_complete hparse hmissing offset (hreleased.handed _ hmem).1

section Posts

def postHead : Bytes :=
  utf8 "POST /img/ HTTP/1.1" ++ httpNl ++ utf8 "Upload-Token: 7" ++ httpNl ++ utf8 "Attach-Index: 0" ++ httpNl ++
    utf8 "Content-Length: 4" ++ httpEnd

def smallPost : Bytes := postHead ++ utf8 "GIF8"

def halfPost : Bytes := postHead ++ utf8 "GI"

def allSucceed : Outcome := ⟨true, true, true, true, true, true, true, 1⟩

/-- A small body is read after the release of the receive buffer, and `free` is called with a pointer
into it. The block of one that came in parts is released twice when the user cannot be updated, and
never when the insert of the file fails. -/
theorem small_body_freed_inside :
    (parseHttp shortLive smallPost).map (Option.map (fun x =>
      let y := upload .msgAttach allSucceed x.1 42
      (y.1.head?, y.2.misread, y.2.misfreed))) =
        .ok (some (some (.saveFileImg (some ⟨.recv, 42⟩)), true, true)) ∧
    (parseHttp shortLive halfPost).map (Option.map (fun x =>
      ((upload .userPfp { allSucceed with lastSent := false } x.1 42).2.released .own,
        (upload .msgAttach { allSucceed with insertOk := false } x.1 42).2.released .own))) =
        .ok (some (2, 0)) := by
  decide +kernel

theorem halfPost_parses : ∃ http state', parseHttp shortLive halfPost = .ok (some (http, state')) ∧
    http.missing = true := by
  have hsome : ((parseHttp shortLive halfPost).map (Option.map (fun x => x.1.missing))) =
      .ok (some true) := by
    decide +kernel
  cases hparse : parseHttp shortLive halfPost with
  | error fault =>
      rw [hparse] at hsome
      cases hsome
  | ok x =>
      rw [hparse] at hsome
      cases x with
      | none => cases hsome
      | some x => exact ⟨x.1, x.2, rfl, Option.some.inj (Except.ok.inj hsome)⟩

/-- Where everything succeeds, a body that came in parts is released by the callback. -/
theorem upload_releasedOnce_iff_half : ∃ http state',
    parseHttp shortLive halfPost = .ok (some (http, state')) ∧
      (ReleasedOnce http (upload .userPfp allSucceed http 42) ↔ allSucceed.hands = false ∨
        http.missing = true ∧ allSucceed.clears .userPfp = allSucceed.frees) ∧
      http.missing = true := by
  obtain ⟨http, state', hparse, hmissing⟩ := halfPost_parses
  exact ⟨http, state', hparse,
    upload_releasedOnce_iff shortLive halfPost http state' hparse .userPfp allSucceed 42, hmissing⟩

end Posts

end ChityChat.UploadBody
