import ChityChat.WebsocketStream
import ChityChat.FrameSizes

namespace ChityChat.TokenizerRange

open ByteMemory ServerWebsocket WebsocketFrame ServerEvents WebsocketStream FrameSizes

def handled (H : Handlers) (client : Client) (e : Recv) : List Dispatch :=
  (seReadClient H client e).2.dispatched.drop client.dispatched.length

/-- The payload and the byte behind it are inside the block. When no bytes are behind the frame, that
byte ends the JSON text. -/
structure Inside (bufLen : Nat) (d : Dispatch) : Prop where
  range : d.pos + (d.payload.length + 1) ≤ d.block
  ends : d.pos + d.payload.length = bufLen → d.behind = 0

/-- In the run, the frame whose payload is at `pos` is handled inside the block. -/
def FrameInside (H : Handlers) (pos : Nat) (client : Client) : List Recv → Prop
  | [] => True
  | e :: es =>
    (∀ d ∈ handled H client e, d.pos = pos →
      Inside (e.chunk.length + recvStart client.recv) d) ∧
      FrameInside H pos (seReadClient H client e).2 es

/-- The chunks bring the frames `before`, the frame `f` and some bytes behind it, and the last one
completes `f`. A frame that is cut begins the buffer: behind another one its first bytes are
not kept. -/
structure Arrival (before : List ClientFrame) (f : ClientFrame) (behind : List UInt8)
    (chunks : List (List UInt8)) : Prop where
  bytes : chunks.flatten = encodeAll before ++ f.encode ++ behind
  last : chunks.dropLast.flatten.length < (encodeAll before).length + f.encode.length
  start : before = [] ∨ chunks.length = 1

/-- Whatever a growing block holds, the frame is handled inside it. -/
def StaysInside (H : Handlers) (client : Client) (before : List ClientFrame) (f : ClientFrame)
    (chunks : List (List UInt8)) : Prop :=
  ∀ es, es.map Recv.chunk = chunks → Fits H client es →
    FrameInside H ((encodeAll before).length + f.head.length) client es

section Parse

structure Within (client : Client) (buf bufLen : Nat) (d : Dispatch) : Prop where
  first : buf + wsFrameSize ≤ d.pos
  last : d.pos + d.payload.length ≤ buf + bufLen
  block : d.block = client.recv.block
  behind : d.pos + d.payload.length = buf + bufLen → d.behind = client.recv.data (buf + bufLen)

theorem dispatch_within (client : Client) (bufLen opcode : Nat) {m : Memory UInt8}
    {buf offset len : Nat} (hmin : wsFrameSize ≤ offset) (hfits : len + offset ≤ bufLen)
    (hkeep : ∀ i, buf + offset + len ≤ i → m i = client.recv.data i) :
    ∃ d, (client.dispatch m opcode (buf + offset) len).dispatched = client.dispatched ++ [d] ∧
      Within client buf bufLen d := by
  refine ⟨_, rfl, ?_, ?_, rfl, ?_⟩
  · simp only
    omega
  · simp only [length_read]
    omega
  · simp only [length_read]
    intro he
    rw [he]
    exact hkeep _ (by omega)

theorem Within.behind_frame {client next : Client} {m : Memory UInt8} {buf bufLen n : Nat}
    {d : Dispatch} (h : Within next (buf + n) (bufLen - n) d) (hdata : next.recv.data = m)
    (hblock : next.recv.block = client.recv.block) (hn : n ≤ bufLen)
    (hkeep : ∀ i, buf + n ≤ i → m i = client.recv.data i) : Within client buf bufLen d := by
  have hend : buf + n + (bufLen - n) = buf + bufLen := by omega
  obtain ⟨hfirst, hlast, hsame, hbehind⟩ := h
  rw [hend] at hlast hbehind
  rw [hdata] at hbehind
  exact ⟨by omega, hlast, hsame.trans hblock, fun he => (hbehind he).trans (hkeep _ (by omega))⟩

theorem serverWsParse_within (textFrame : List Dispatch → RecvStatus) (grown : Memory UInt8)
    (client : Client) (buf bufLen : Nat) :
    ∃ log, (serverWsParse textFrame grown client buf bufLen).2.dispatched =
      client.dispatched ++ log ∧ ∀ d ∈ log, Within client buf bufLen d := by
  induction bufLen using Nat.strongRecOn generalizing client buf with
  | ind bufLen ih =>
      rw [serverWsParse]
      obtain ⟨ws, hws⟩ : ∃ ws, ws = wsFrame client.recv.data buf := ⟨_, rfl⟩
      obtain ⟨offset, hoffset⟩ : ∃ offset, offset = parseCheckOffset ws wsFrameSize := ⟨_, rfl⟩
      obtain ⟨len, hlen⟩ : ∃ len, len = wsPayloadLen ws client.recv.data buf := ⟨_, rfl⟩
      simp only [← hws, ← hoffset, ← hlen]
      have hmin : wsFrameSize ≤ offset := by
        rw [hoffset, parseCheckOffset]
        omega
      have hpos : 0 < wsFrameSize := by decide
      by_cases hshort : bufLen < len + offset
      · rw [if_pos hshort]
        exact ⟨[], by simp, by simp⟩
      · rw [if_neg hshort]
        obtain ⟨m, hm⟩ : ∃ m, m = unmask ws client.recv.data buf offset len := ⟨_, rfl⟩
        obtain ⟨next, hnext⟩ :
            ∃ next, next = client.dispatch m ws.opcode (buf + offset) len := ⟨_, rfl⟩
        obtain ⟨ret, hret⟩ : ∃ ret, ret = if ws.opcode = wsTextFrame then
            textFrame next.dispatched else .ok := ⟨_, rfl⟩
        simp only [← hm, ← hnext, ← hret]
        have hkeep (i : Nat) (hi : buf + offset + len ≤ i) : m i = client.recv.data i := by
          rw [hm]
          exact unmask_outside ws client.recv.data buf offset len (.inr hi)
        obtain ⟨d, hdisp, hone⟩ := dispatch_within client bufLen ws.opcode hmin (by omega)
          hkeep
        rw [← hnext] at hdisp
        have hstop : ∃ log, next.dispatched = client.dispatched ++ log ∧
            ∀ d ∈ log, Within client buf bufLen d := ⟨_, hdisp, by simpa using hone⟩
        by_cases hclose : ws.opcode = wsCloseFrame
        · rw [if_pos hclose]
          exact hstop
        · rw [if_neg hclose]
          by_cases hmore : len + offset < bufLen ∧ ret = .ok
          · rw [if_pos hmore]
            obtain ⟨log, hlog, hwithin⟩ := ih (bufLen - (len + offset)) (by omega) next
              (buf + (len + offset))
            refine ⟨_, by rw [hlog, hdisp, List.append_assoc], ?_⟩
            rw [List.singleton_append, List.forall_mem_cons]
            refine ⟨hone, ?_⟩
            intro d hd
            exact (hwithin d hd).behind_frame (hnext ▸ rfl) (hnext ▸ rfl) (by omega)
              (fun i hi => hkeep i (by omega))
          · rw [if_neg hmore]
            exact hstop

theorem conclude_dispatched (status : RecvStatus) (client : Client) :
    (conclude status client).2.dispatched = client.dispatched := by
  simp only [conclude]
  split <;> rfl

variable {H : Handlers} {client : Client} {e : Recv}

theorem handled_within (hw : client.websocket = true) (hh : client.recv.http = none)
    (hne : e.chunk ≠ []) : ∀ d ∈ handled H client e, Within (received client e) 0
      (e.chunk.length + recvStart client.recv) d := by
  obtain ⟨log, hlog, hwithin⟩ := serverWsParse_within H.textFrame e.grown (received client e) 0
    (e.chunk.length + recvStart client.recv)
  have hdisp : (seReadClient H client e).2.dispatched = client.dispatched ++ log := by
    rw [seReadClient_websocket hw hh hne]
    exact (conclude_dispatched _ _).trans hlog
  rw [handled, hdisp, List.drop_left]
  exact hwithin

theorem fresh_inside (hfresh : Fresh client) (hne : e.chunk ≠ [])
    (hfit : e.chunk.length ≤ asked client.recv) :
    ∀ d ∈ handled H client e, Inside (e.chunk.length + recvStart client.recv) d := by
  intro d hd
  have hstart : recvStart client.recv = 0 := if_pos hfresh.block
  have hpage : e.chunk.length ≤ clientRecvPage - 1 := by
    simpa [asked, hfresh.http, hfresh.block] using hfit
  obtain ⟨-, hlast, hblock, hbehind⟩ := handled_within hfresh.websocket hfresh.http hne d hd
  have hsize : d.block = clientRecvPage := by
    rw [hblock, received]
    simp [openRecv, hfresh.block]
  simp only [hstart, Nat.zero_add, Nat.add_zero] at hlast hbehind ⊢
  simp only [clientRecvPage] at hpage hsize
  refine ⟨by omega, ?_⟩
  intro he
  rw [hbehind he, received]
  simp only [hstart, openRecv, hfresh.block, if_true]
  rw [write_outside _ _ (.inr (by omega)), keep, clientRecvPage, if_pos (by omega)]

end Parse

section Runs

variable {H : Handlers} {client client' : Client} {f : ClientFrame} {got : Nat} {e : Recv}
  {behind : List UInt8}

def Pieces (f : ClientFrame) (behind : List UInt8) : Nat → List (List UInt8) → Prop
  | _, [] => False
  | got, [c] => f.encode.take got ++ c = f.encode ++ behind
  | got, c :: c' :: cs => got + c.length < f.encode.length ∧
      f.encode.take got ++ c = f.encode.take (got + c.length) ∧
      Pieces f behind (got + c.length) (c' :: cs)

theorem pieces_of_flatten {chunks : List (List UInt8)} (hgot : got < f.encode.length)
    (hbytes : f.encode.take got ++ chunks.flatten = f.encode ++ behind)
    (hlast : got + chunks.dropLast.flatten.length < f.encode.length) :
    Pieces f behind got chunks := by
  have htaken : (f.encode.take got).length = got := List.length_take_of_le (Nat.le_of_lt hgot)
  induction chunks generalizing got with
  | nil =>
      have hlen := congrArg List.length hbytes
      simp only [List.flatten_nil, List.append_nil, htaken, List.length_append] at hlen
      omega
  | cons c chunks ih =>
      cases chunks with
      | nil =>
          rw [Pieces, ← hbytes]
          simp
      | cons c' cs =>
          rw [List.dropLast_cons_cons, List.flatten_cons, List.length_append] at hlast
          have hshort : got + c.length < f.encode.length := by omega
          rw [List.flatten_cons, ← List.append_assoc] at hbytes
          have hlen : (f.encode.take got ++ c).length = got + c.length := by
            rw [List.length_append, htaken]
          have htake : f.encode.take got ++ c = f.encode.take (got + c.length) := by
            have h := congrArg (List.take (got + c.length)) hbytes
            rwa [List.take_left' hlen, List.take_append_of_le_length (Nat.le_of_lt hshort)] at h
          refine ⟨hshort, htake, ih hshort ?_ (by omega) (List.length_take_of_le (Nat.le_of_lt hshort))⟩
          rw [← htake]
          exact hbytes

def blockOf (r : RecvBuf) : Nat := if r.block = 0 then clientRecvPage else r.block

def dataOf (r : RecvBuf) : Memory UInt8 := if r.block = 0 then fun _ => 0 else r.data

theorem openRecv_eq (r : RecvBuf) (heap : Memory UInt8) :
    (openRecv r heap).data = keep (blockOf r) (dataOf r) heap ∧
      (openRecv r heap).block = blockOf r := by
  simp only [openRecv, blockOf, dataOf]
  split <;> exact ⟨rfl, rfl⟩

theorem received_block (client : Client) (e : Recv) :
    (received client e).recv.block = blockOf client.recv := (openRecv_eq client.recv e.heap).2

theorem received_outside (h : Holding client [f] got) {i : Nat} (hi : got + e.chunk.length ≤ i) :
    (received client e).recv.data i = keep (blockOf client.recv) (dataOf client.recv) e.heap i := by
  rw [received, ← (openRecv_eq client.recv e.heap).1]
  exact write_outside _ _ (.inr (by rw [h.start]; exact hi))

theorem received_held (h : Holding client [f] got)
    (hbytes : f.encode.take got ++ e.chunk = f.encode.take (got + e.chunk.length)) :
    Holds (received client e).recv.data 0 (f.encode.take (got + e.chunk.length)) := by
  have hr := h.received (e := e)
  rwa [show encodeAll [f] = f.encode by simp [encodeAll], hbytes] at hr

theorem seReadClient_partial (h : Holding client [f] got) (hne : e.chunk ≠ [])
    (hshort : got + e.chunk.length < f.encode.length)
    (hbytes : f.encode.take got ++ e.chunk = f.encode.take (got + e.chunk.length)) :
    (seReadClient H client e).2 = { received client e with
      recv := (received client e).recv.await e.grown (totalSize (received client e).recv.data)
        (got + e.chunk.length) } := by
  have hpos : 0 < got + e.chunk.length := Nat.add_pos_right _ (List.length_pos_of_ne_nil hne)
  have hmore := partial_totalSize (received_held h hbytes) hpos hshort
  have hstart : e.chunk.length + recvStart client.recv = got + e.chunk.length := by
    rw [h.start, Nat.add_comm]
  rw [seReadClient_websocket h.websocket h.http hne, hstart, serverWsParse]
  simp only [if_pos hmore]
  simp [conclude, RecvBuf.await, totalSize]

theorem handled_incomplete (h : Holding client [f] got) (hne : e.chunk ≠ [])
    (hshort : got + e.chunk.length < f.encode.length)
    (hbytes : f.encode.take got ++ e.chunk = f.encode.take (got + e.chunk.length)) :
    handled H client e = [] := by
  rw [handled, seReadClient_partial h hne hshort hbytes]
  exact List.drop_length

theorem handled_whole (h : Holding client [f] got) (hne : e.chunk ≠ [])
    (hbytes : f.encode.take got ++ e.chunk = f.encode ++ behind) :
    ∃ log, handled H client e = dispatchOf (received client e) 0 f :: log ∧
      ∀ d ∈ log, f.encode.length < d.pos := by
  have hr := h.received (e := e)
  rw [show encodeAll [f] = f.encode by simp [encodeAll], hbytes] at hr
  have hm := (holds_append.mp hr).1
  have hlen : e.chunk.length + recvStart client.recv = f.encode.length + behind.length := by
    rw [h.length, show encodeAll [f] = f.encode by simp [encodeAll], hbytes, List.length_append]
  have hparse : ∃ log, (serverWsParse H.textFrame e.grown (received client e) 0
      (f.encode.length + behind.length)).2.dispatched =
        client.dispatched ++ dispatchOf (received client e) 0 f :: log ∧
      ∀ d ∈ log, f.encode.length < d.pos := by
    rw [serverWsParse_whole (received client e) e.grown hm (Nat.le_add_right _ _)]
    split_ifs with hclose hmore
    · exact ⟨[], rfl, by simp⟩
    · obtain ⟨log, hlog, hwithin⟩ := serverWsParse_within H.textFrame e.grown
        (advanced (received client e) (unmasked (received client e).recv.data 0 f)
          [dispatchOf (received client e) 0 f]) (0 + f.encode.length)
        (f.encode.length + behind.length - f.encode.length)
      refine ⟨log, by rw [hlog]; simp [advanced, received], ?_⟩
      intro d hd
      have := (hwithin d hd).first
      simp only [wsFrameSize] at this
      omega
    · exact ⟨[], rfl, by simp⟩
  obtain ⟨log, hlog, hbehind⟩ := hparse
  refine ⟨log, ?_, hbehind⟩
  rw [handled, seReadClient_websocket h.websocket h.http hne, hlen]
  simp only [conclude_dispatched, hlog, List.drop_left]

theorem frame_inside_iff (h : Holding client [f] got) (hne : e.chunk ≠ [])
    (hbytes : f.encode.take got ++ e.chunk = f.encode ++ behind) :
    (∀ d ∈ handled H client e, d.pos = f.head.length →
      Inside (e.chunk.length + recvStart client.recv) d) ↔
    Inside (f.encode.length + behind.length) (dispatchOf (received client e) 0 f) := by
  obtain ⟨log, hlog, hbehind⟩ := handled_whole (H := H) h hne hbytes
  have hlen : e.chunk.length + recvStart client.recv = f.encode.length + behind.length := by
    rw [h.length, show encodeAll [f] = f.encode by simp [encodeAll], hbytes, List.length_append]
  have hhead := f.encode_length
  rw [hlog, hlen, List.forall_mem_cons]
  constructor
  · exact fun hall => hall.1 (Nat.zero_add _)
  · intro hd
    refine ⟨fun _ => hd, ?_⟩
    intro d hmem hpos
    have := hbehind d hmem
    omega

theorem inside_of_behind (h : Holding client [f] got) (hfit : e.chunk.length ≤ asked client.recv)
    (hbytes : f.encode.take got ++ e.chunk = f.encode ++ behind) (hbehind : behind ≠ []) :
    Inside (f.encode.length + behind.length) (dispatchOf (received client e) 0 f) := by
  have hblock : got + e.chunk.length ≤ (received client e).recv.block := h.block_le hfit
  have hlen := congrArg List.length hbytes
  rw [List.length_append, List.length_append, List.length_take_of_le (Nat.le_of_lt h.short)] at hlen
  have hpos := List.length_pos_of_ne_nil hbehind
  have hhead := f.encode_length
  constructor
  · simp only [dispatchOf]
    omega
  · simp only [dispatchOf]
    omega

theorem frameInside_of_behind {es : List Recv} (h : Holding client [f] got)
    (hpieces : Pieces f behind got (es.map Recv.chunk)) (hfits : Fits H client es)
    (hbehind : behind ≠ []) : FrameInside H f.head.length client es := by
  induction es generalizing client got with
  | nil => exact trivial
  | cons e es ih =>
      obtain ⟨hne, hfit, hfits⟩ := hfits
      cases es with
      | nil =>
          exact ⟨(frame_inside_iff h hne hpieces).mpr (inside_of_behind h hfit hpieces hbehind),
            trivial⟩
      | cons e' es =>
          obtain ⟨hshort, hbytes, hpieces⟩ := hpieces
          have hwhole : encodeAll [f] = f.encode := by simp [encodeAll]
          obtain ⟨client', heq, hawait, -⟩ := seReadClient_awaits (H := H) h hne hfit
            (hwhole ▸ hbytes) hshort
          refine ⟨by simp [handled_incomplete h hne hshort hbytes], ?_⟩
          rw [heq] at hfits ⊢
          exact ih (.awaiting hawait) hpieces hfits

def filled (f : ClientFrame) (e : Recv) : Recv := ⟨e.chunk, frameMem f, frameMem f⟩

structure Paired (f : ClientFrame) (got : Nat) (client client' : Client) : Prop where
  holding : Holding client [f] got
  holding' : Holding client' [f] got
  twins : Twins f got (blockOf client.recv) (dataOf client.recv) (blockOf client'.recv)
    (dataOf client'.recv)
  fits : ∀ n, got + n ≤ f.encode.length → n ≤ asked client.recv → n ≤ asked client'.recv
  started : blockOf client.recv = 2 → 0 < got
  small : 0 < got → blockOf client'.recv ≤ f.encode.length

theorem paired_fresh (hfresh : Fresh client) : Paired f 0 client client := by
  have hblock : blockOf client.recv = clientRecvPage := if_pos hfresh.block
  have hdata : dataOf client.recv = fun _ => 0 := if_pos hfresh.block
  refine ⟨.fresh hfresh, .fresh hfresh, .same rfl (.inr ?_) ?_, fun n _ h => h, ?_,
    fun h => absurd h (Nat.lt_irrefl 0)⟩
  · rw [hblock]
    decide
  · simp [hdata]
  · rw [hblock]
    exact fun h => absurd h (by decide)

theorem holds_frame {m : Memory UInt8} {n : Nat} (h : Holds m 0 (f.encode.take n))
    (hn : n ≤ f.encode.length) : ∀ i, i < n → m i = frameMem f i := by
  intro i hi
  have hlt : i < (f.encode.take n).length := by rwa [List.length_take_of_le hn]
  have hm := h i _ (List.getElem?_eq_getElem hlt)
  rw [Nat.zero_add] at hm
  rw [hm, List.getElem_take, frameMem, List.getD_eq_getElem?_getD, List.getElem?_eq_getElem,
    Option.getD_some]

structure Grown (f : ClientFrame) (got : Nat) (client : Client) (e : Recv) (next : Client) :
    Prop where
  awaiting : Awaiting next f (got + e.chunk.length)
  block : blockOf next.recv = totalSize (received client e).recv.data
  data : dataOf next.recv = keep (min (blockOf client.recv)
    (totalSize (received client e).recv.data)) (received client e).recv.data e.grown
  asked : asked next.recv = blockOf next.recv - (got + e.chunk.length)

theorem seReadClient_grown (h : Holding client [f] got) (hne : e.chunk ≠ [])
    (hfit : e.chunk.length ≤ asked client.recv)
    (hshort : got + e.chunk.length < f.encode.length)
    (hbytes : f.encode.take got ++ e.chunk = f.encode.take (got + e.chunk.length)) :
    Grown f got client e (seReadClient H client e).2 := by
  have hwhole : encodeAll [f] = f.encode := by simp [encodeAll]
  obtain ⟨c, hc, hawait, -⟩ := seReadClient_awaits (H := H) h hne hfit (hwhole ▸ hbytes) hshort
  have he := seReadClient_partial (H := H) h hne hshort hbytes
  rw [hc] at he ⊢
  simp only at he ⊢
  refine ⟨hawait, ?_, ?_, ?_⟩
  · rw [blockOf, if_neg hawait.block_ne, he]
    rfl
  · rw [dataOf, if_neg hawait.block_ne, he, ← received_block client e]
    rfl
  · simp only [ServerEvents.asked, hawait.http, blockOf, if_neg hawait.block_ne, hawait.offset]
    rw [hawait.block]

theorem Paired.step (h : Paired f got client client') (hne : e.chunk ≠ [])
    (hfit : e.chunk.length ≤ asked client.recv)
    (hshort : got + e.chunk.length < f.encode.length)
    (hbytes : f.encode.take got ++ e.chunk = f.encode.take (got + e.chunk.length)) :
    Paired f (got + e.chunk.length) (seReadClient H client e).2
      (seReadClient H client' (filled f e)).2 := by
  have hpos := List.length_pos_of_ne_nil hne
  have hle := Nat.le_of_lt hshort
  have hg := seReadClient_grown (H := H) h.holding hne hfit hshort hbytes
  have hg' := seReadClient_grown (H := H) (e := filled f e) h.holding' hne (h.fits _ hle hfit)
    hshort hbytes
  have hm := holds_frame (received_held (e := e) h.holding hbytes) hle
  have hm' := holds_frame (received_held (e := filled f e) h.holding' hbytes) hle
  have htwins := h.twins.step e.grown (Nat.le_add_right _ _) (by omega)
    (fun hb => by have := h.started hb; omega)
    ⟨hm, hm', fun i hi hb => by rw [received_outside h.holding hi, keep_of_lt _ _ hb],
      fun i hi => received_outside (e := filled f e) h.holding' hi⟩
  have hdata' : keep (min (blockOf client'.recv)
      (totalSize (received client' (filled f e)).recv.data))
      (received client' (filled f e)).recv.data (frameMem f) =
      dataOf (seReadClient H client' (filled f e)).2.recv := hg'.data.symm
  rw [← hg.data, hdata', ← hg.block, ← hg'.block] at htwins
  have hasked' : asked (seReadClient H client' (filled f e)).2.recv =
      blockOf (seReadClient H client' (filled f e)).2.recv - (got + e.chunk.length) := hg'.asked
  refine ⟨.awaiting hg.awaiting, .awaiting hg'.awaiting, htwins.1, ?_, fun _ => by omega,
    fun _ => htwins.2⟩
  intro n hn hn'
  rw [hg.asked] at hn'
  rw [hasked']
  cases htwins.1 with
  | known hsize _ => omega
  | same hsize _ _ => omega

theorem Paired.overreads {es : List Recv} (h : Paired f got client client')
    (hpieces : Pieces f [] got (es.map Recv.chunk)) (hfits : Fits H client es)
    (hcut : 0 < got ∨ 2 ≤ es.length) :
    Fits H client' (es.map (filled f)) ∧
      ¬ FrameInside H f.head.length client' (es.map (filled f)) := by
  induction es generalizing client client' got with
  | nil => exact absurd hpieces id
  | cons e es ih =>
      obtain ⟨hne, hfit, hfits⟩ := hfits
      cases es with
      | nil =>
          have hgot : 0 < got := hcut.resolve_right (by simp)
          have hlen := congrArg List.length hpieces
          rw [List.length_append, List.length_append,
            List.length_take_of_le (Nat.le_of_lt h.holding.short), List.length_nil] at hlen
          have hfit' := h.fits _ (Nat.le_of_eq hlen) hfit
          refine ⟨⟨hne, hfit', trivial⟩, ?_⟩
          rintro ⟨hinside, -⟩
          have hd := (frame_inside_iff (e := filled f e) h.holding' hne hpieces).mp hinside
          have hrange := hd.range
          have hsmall := h.small hgot
          rw [← received_block client' (filled f e)] at hsmall
          have hhead := f.encode_length
          simp only [dispatchOf] at hrange
          omega
      | cons e' es =>
          obtain ⟨hshort, hbytes, hpieces⟩ := hpieces
          obtain ⟨hf, hi⟩ := ih (h.step (H := H) hne hfit hshort hbytes) hpieces hfits
            (.inl (Nat.add_pos_right _ (List.length_pos_of_ne_nil hne)))
          exact ⟨⟨hne, h.fits _ (Nat.le_of_lt hshort) hfit, hf⟩, fun hinside => hi hinside.2⟩

end Runs

/-- A frame, which for the tokenizer is a text frame, is handled inside the receive block if and only
if it comes with one `server_recv`, or its last byte comes together with bytes behind it. -/
theorem frame_stays_inside_iff (H : Handlers) (client : Client) (before : List ClientFrame)
    (f : ClientFrame) (behind : List UInt8) (es : List Recv) (hfresh : Fresh client)
    (harrival : Arrival before f behind (es.map Recv.chunk)) (hfits : Fits H client es) :
    StaysInside H client before f (es.map Recv.chunk) ↔ es.length = 1 ∨ behind ≠ [] := by
  have hcut (hbefore : before = []) : Pieces f behind 0 (es.map Recv.chunk) := by
    have hbytes := harrival.bytes
    have hlast := harrival.last
    simp only [hbefore, encodeAll, List.flatMap_nil, List.nil_append, List.length_nil,
      Nat.zero_add] at hbytes hlast
    exact pieces_of_flatten f.encode_pos (by simpa using hbytes) (by omega)
  have hpos (hbefore : before = []) :
      (encodeAll before).length + f.head.length = f.head.length := by
    simp [hbefore, encodeAll]
  constructor
  · intro hstays
    by_contra hnot
    rw [not_or, ne_eq, not_not] at hnot
    have hbefore : before = [] :=
      harrival.start.resolve_right (by simpa using hnot.1)
    have hpieces := hcut hbefore
    rw [hnot.2] at hpieces
    have htwo : 2 ≤ es.length := by
      have hne : es ≠ [] := by
        rintro rfl
        exact hpieces
      have := List.length_pos_of_ne_nil hne
      omega
    obtain ⟨hfits', hover⟩ := (paired_fresh hfresh).overreads hpieces hfits (.inr htwo)
    have hinside := hstays (es.map (filled f)) (by simp [filled]) hfits'
    rw [hpos hbefore] at hinside
    exact hover hinside
  · intro hone es' hchunks hfits'
    have hlen : es'.length = es.length := by simpa using congrArg List.length hchunks
    by_cases h1 : es.length = 1
    · obtain ⟨e, rfl⟩ := List.length_eq_one_iff.mp (hlen.trans h1)
      exact ⟨fun d hd _ => fresh_inside hfresh hfits'.1 hfits'.2.1 d hd, trivial⟩
    · have hbefore : before = [] :=
        harrival.start.resolve_right (by simpa using h1)
      rw [hpos hbefore]
      exact frameInside_of_behind (.fresh hfresh) (hchunks ▸ hcut hbefore) hfits'
        (hone.resolve_left h1)

def abc : ClientFrame := ⟨0x81, false, some (fun i => [1, 2, 3, 4].get i), [97, 98, 99], by decide⟩

theorem abc_stays_inside : StaysInside idle upgraded [abc] abc
    ([delivered (abc.encode ++ abc.encode)].map Recv.chunk) :=
  (frame_stays_inside_iff idle upgraded [abc] abc [] [delivered (abc.encode ++ abc.encode)]
    upgraded_fresh ⟨by decide +kernel, by decide +kernel, .inr rfl⟩ (by decide +kernel)).mpr
    (.inl rfl)

/-- The frame cut in two: it fills the block that was grown for it. -/
theorem cut_frame_overread :
    let es := [delivered [0x81, 0x83, 1, 2, 3, 4, 96], delivered [96, 96]]
    Fits idle upgraded es ∧ abc.opcode = wsTextFrame ∧
      (es.map Recv.chunk).flatten = abc.encode ∧
      ¬ StaysInside idle upgraded [] abc (es.map Recv.chunk) := by
  intro es
  refine ⟨by decide +kernel, by decide +kernel, by decide +kernel, ?_⟩
  intro hstays
  obtain ⟨-, hinside, -⟩ := hstays es rfl (by decide +kernel)
  have hover : ∃ d ∈ handled idle
      (seReadClient idle upgraded (delivered [0x81, 0x83, 1, 2, 3, 4, 96])).2
      (delivered [96, 96]), d.pos = (encodeAll []).length + abc.head.length ∧
        ¬ d.pos + (d.payload.length + 1) ≤ d.block := by
    decide +kernel
  obtain ⟨d, hd, hpos, hrange⟩ := hover
  exact hrange (hinside d hd hpos).range

end ChityChat.TokenizerRange
