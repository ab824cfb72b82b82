import ChityChat.ServerEvents

namespace ChityChat.WebsocketStream

open ByteMemory ServerWebsocket WebsocketFrame ServerEvents

variable {client : Client} {f : ClientFrame} {pos n got : Nat} {H : Handlers}
  {rest : List ClientFrame} {e : Recv}

def encodeAll (frames : List ClientFrame) : List UInt8 := frames.flatMap ClientFrame.encode

def Dispatch.content (d : Dispatch) : Nat × List UInt8 := (d.opcode, d.payload)

def ClientFrame.content (f : ClientFrame) : Nat × List UInt8 := (f.opcode, f.payload)

def advanced (client : Client) (data : Memory UInt8) (log : List Dispatch) : Client :=
  { client with
    recv := { client.recv with data := data }
    dispatched := client.dispatched ++ log }

theorem advanced_advanced (client : Client) (data data' : Memory UInt8) (log log' : List Dispatch) :
    advanced (advanced client data log) data' log' = advanced client data' (log ++ log') := by
  simp only [advanced, List.append_assoc]

theorem encodeAll_cons (f : ClientFrame) (fs : List ClientFrame) :
    encodeAll (f :: fs) = f.encode ++ encodeAll fs := List.flatMap_cons

theorem encodeAll_append (fs gs : List ClientFrame) :
    encodeAll (fs ++ gs) = encodeAll fs ++ encodeAll gs :=
  List.flatMap_append

section Parse

variable {textFrame : List Dispatch → RecvStatus} (grown : Memory UInt8) (client)

theorem serverWsParse_await (hm : Holds client.recv.data pos (f.encode.take n)) (h0 : 0 < n)
    (hn : n < f.encode.length) :
    ∃ total, n < total ∧ serverWsParse textFrame grown client pos n =
      (.ok, { client with recv := client.recv.await grown total n }) := by
  have h := partial_totalSize hm h0 hn
  refine ⟨_, h, ?_⟩
  rw [serverWsParse]
  exact if_pos h

def unmasked (m : Memory UInt8) (pos : Nat) (f : ClientFrame) : Memory UInt8 :=
  unmask (wsFrame m pos) m pos f.head.length f.payload.length

theorem unmasked_outside (m : Memory UInt8) (pos : Nat) (f : ClientFrame) {i : Nat}
    (hi : i < pos + f.head.length ∨ pos + f.encode.length ≤ i) : unmasked m pos f i = m i := by
  rw [f.encode_length] at hi
  exact unmask_outside _ _ _ _ _ (by omega)

def dispatchOf (client : Client) (pos : Nat) (f : ClientFrame) : Dispatch :=
  ⟨f.opcode, f.payload, pos + f.head.length,
    unmasked client.recv.data pos f (pos + f.head.length + f.payload.length), client.recv.block⟩

/-- What the handler of a frame other than a close frame returns. -/
def answer (textFrame : List Dispatch → RecvStatus) (f : ClientFrame) (log : List Dispatch) :
    RecvStatus :=
  if f.opcode = wsTextFrame then textFrame log else .ok

theorem unmasked_holds {m : Memory UInt8} (hm : Holds m pos f.encode) :
    Holds (unmasked m pos f) pos (f.head ++ f.payload) := by
  have hhead := (holds_append.mp hm).1
  obtain ⟨h0, h1, -⟩ := by simpa only [ClientFrame.head, holds_cons] using hhead
  refine holds_append.mpr ⟨holds_congr hhead ?_, unmask_holds (wsFrame_holds h0 h1) hm⟩
  intro i hi
  exact unmasked_outside _ _ _ (.inl (by omega))

theorem serverWsParse_whole (hm : Holds client.recv.data pos f.encode) (hn : f.encode.length ≤ n) :
    let next := advanced client (unmasked client.recv.data pos f) [dispatchOf client pos f]
    serverWsParse textFrame grown client pos n =
      if f.opcode = wsCloseFrame then (.disconnect, next)
      else if f.encode.length < n ∧ answer textFrame f next.dispatched = .ok then
        serverWsParse textFrame grown next (pos + f.encode.length) (n - f.encode.length)
      else (answer textFrame f next.dispatched, next.settled) := by
  have hhead := (holds_append.mp hm).1
  obtain ⟨h0, h1, htail⟩ := by simpa only [ClientFrame.head, holds_cons] using hhead
  have hw := wsFrame_holds h0 h1
  have hop : (wsFrame client.recv.data pos).opcode = f.opcode := by rw [hw]
  have hoff := parseCheckOffset_holds hw
  have hlen := wsPayloadLen_holds hw (holds_append.mp htail).1
  have htotal : f.payload.length + f.head.length = f.encode.length := by
    rw [f.encode_length, Nat.add_comm]
  have hread := read_eq_of_holds (unmask_holds hw hm)
  have hnext : client.dispatch (unmask (wsFrame client.recv.data pos) client.recv.data pos
      f.head.length f.payload.length) (wsFrame client.recv.data pos).opcode
      (pos + f.head.length) f.payload.length =
      advanced client (unmasked client.recv.data pos f) [dispatchOf client pos f] := by
    simp only [Client.dispatch, advanced, dispatchOf, unmasked, hread, hop]
  rw [serverWsParse]
  simp only [hoff, hlen, htotal]
  rw [if_neg (by omega), hnext]
  simp only [hw, answer]
  rfl

theorem serverWsParse_frame (hm : Holds client.recv.data pos f.encode) (hn : f.encode.length ≤ n)
    (hclose : f.opcode ≠ wsCloseFrame) (htext : ∀ log, textFrame log = .ok) :
    ∃ data d, Dispatch.content d = ClientFrame.content f ∧
      (∀ i, pos + f.encode.length ≤ i → data i = client.recv.data i) ∧
      serverWsParse textFrame grown client pos n =
        if f.encode.length < n then
          serverWsParse textFrame grown (advanced client data [d]) (pos + f.encode.length)
            (n - f.encode.length)
        else (.ok, (advanced client data [d]).settled) := by
  have hok : ∀ log, answer textFrame f log = .ok := fun log => by
    simp only [answer, htext, ite_self]
  refine ⟨_, dispatchOf client pos f, rfl, fun i hi => unmasked_outside _ _ _ (.inr hi), ?_⟩
  rw [serverWsParse_whole client grown hm hn, if_neg hclose]
  simp only [hok, and_true]

theorem serverWsParse_frames (fs : List ClientFrame) (htext : ∀ log, textFrame log = .ok)
    (hclose : ∀ g ∈ f :: fs, g.opcode ≠ wsCloseFrame)
    (hm : Holds client.recv.data pos (encodeAll (f :: fs))) :
    ∃ data log, log.map Dispatch.content = (f :: fs).map ClientFrame.content ∧
      serverWsParse textFrame grown client pos (encodeAll (f :: fs)).length =
        (.ok, (advanced client data log).settled) := by
  induction fs generalizing f client pos with
  | nil =>
      obtain ⟨data, d, hd, -, heq⟩ := serverWsParse_frame client grown
        (n := (encodeAll [f]).length) (by simpa [encodeAll] using hm) (by simp [encodeAll])
        (hclose f (by simp)) htext
      exact ⟨data, [d], by simpa using hd, by simpa [encodeAll] using heq⟩
  | cons g gs ih =>
      rw [encodeAll_cons, holds_append] at hm
      have hlen : (encodeAll (f :: g :: gs)).length =
          f.encode.length + (encodeAll (g :: gs)).length := by
        rw [encodeAll_cons, List.length_append]
      have hpos : 0 < (encodeAll (g :: gs)).length := by
        rw [encodeAll_cons, List.length_append]
        exact Nat.add_pos_left g.encode_pos _
      obtain ⟨data, d, hd, hframe, heq⟩ := serverWsParse_frame client grown
        (n := (encodeAll (f :: g :: gs)).length) hm.1 (by omega) (hclose f (by simp)) htext
      obtain ⟨data', log, hlog, hrest⟩ := ih (advanced client data [d])
        (fun k hk => hclose k (List.mem_cons_of_mem _ hk))
        (holds_congr hm.2 (fun i _ => hframe _ (by omega)))
      refine ⟨data', d :: log, by rw [List.map_cons, hd, hlog]; rfl, ?_⟩
      rw [heq, if_pos (by omega), hlen, Nat.add_sub_cancel_left, hrest, advanced_advanced]
      rfl

end Parse

structure Fresh (client : Client) : Prop where
  websocket : client.websocket = true
  http : client.recv.http = none
  block : client.recv.block = 0
  busy : client.recv.busy = false

structure Awaiting (client : Client) (f : ClientFrame) (got : Nat) : Prop where
  websocket : client.websocket = true
  http : client.recv.http = none
  held : Holds client.recv.data 0 (f.encode.take got)
  offset : client.recv.offset = got
  block : client.recv.block = client.recv.dataSize
  room : got < client.recv.dataSize
  pos : 0 < got
  short : got < f.encode.length

/-- What the receive buffer holds when `rest` is still to be
dispatched and `got` bytes of it came. -/
inductive Holding (client : Client) : List ClientFrame → Nat → Prop
  | fresh {rest : List ClientFrame} (h : Fresh client) : Holding client rest 0
  | awaiting {f : ClientFrame} {fs : List ClientFrame} {got : Nat} (h : Awaiting client f got) :
    Holding client (f :: fs) got

theorem Holding.websocket (h : Holding client rest got) : client.websocket = true := by
  cases h with
  | fresh h => exact h.websocket
  | awaiting h => exact h.websocket

theorem Holding.http (h : Holding client rest got) : client.recv.http = none := by
  cases h with
  | fresh h => exact h.http
  | awaiting h => exact h.http

theorem Awaiting.block_ne (h : Awaiting client f got) : client.recv.block ≠ 0 := by
  have hroom := h.room
  rw [h.block]
  omega

theorem Holding.start (h : Holding client rest got) : recvStart client.recv = got := by
  cases h with
  | fresh h => exact if_pos h.block
  | awaiting h => rw [recvStart, if_neg h.block_ne, h.offset]

theorem Holding.taken_length (h : Holding client rest got) :
    ((encodeAll rest).take got).length = got := by
  cases h with
  | fresh h => simp
  | awaiting h =>
      have hshort := h.short
      rw [encodeAll_cons, List.length_take, List.length_append]
      omega

theorem Holding.kept (h : Holding client rest got) (heap : Memory UInt8) :
    Holds (openRecv client.recv heap).data 0 ((encodeAll rest).take got) := by
  cases h with
  | fresh h => exact holds_nil _ _
  | awaiting h =>
      have hroom := h.room
      rw [encodeAll_cons, List.take_append_of_le_length (Nat.le_of_lt h.short), openRecv,
        if_neg h.block_ne]
      exact h.held.keep (by rw [List.length_take, h.block]; omega) _

theorem Holding.short {fs : List ClientFrame} (h : Holding client (f :: fs) got) :
    got < f.encode.length := by
  cases h with
  | fresh => exact f.encode_pos
  | awaiting h => exact h.short

theorem Holding.received (h : Holding client rest got) :
    Holds (received client e).recv.data 0 ((encodeAll rest).take got ++ e.chunk) := by
  have hw := (h.kept e.heap).write_append e.chunk
  rw [h.taken_length, Nat.zero_add, ← h.start] at hw
  rw [← h.start]
  exact hw

theorem openRecv_http (r : RecvBuf) (heap : Memory UInt8) : (openRecv r heap).http = r.http := by
  rw [openRecv]
  split <;> rfl

theorem Holding.length (h : Holding client rest got) :
    e.chunk.length + recvStart client.recv = ((encodeAll rest).take got ++ e.chunk).length := by
  rw [h.start, List.length_append, h.taken_length, Nat.add_comm]

theorem Holding.block_le (h : Holding client rest got) (hfit : e.chunk.length ≤ asked client.recv) :
    got + e.chunk.length ≤ (openRecv client.recv e.heap).block := by
  simp only [asked, h.http] at hfit
  cases h with
  | fresh h =>
      simp only [h.block, if_true, clientRecvPage] at hfit
      simp only [openRecv, h.block, if_true, clientRecvPage]
      omega
  | awaiting h =>
      have hroom := h.room
      rw [if_neg h.block_ne, h.offset] at hfit
      rw [openRecv, if_neg h.block_ne]
      simp only [h.block]
      omega

theorem seReadClient_websocket (hw : client.websocket = true) (hh : client.recv.http = none)
    (hne : e.chunk ≠ []) :
    seReadClient H client e =
      let r := serverWsParse H.textFrame e.grown (received client e) 0
        (e.chunk.length + recvStart client.recv)
      conclude r.1 r.2 := by
  simp only [seReadClient, hh, hne, hw, if_false, if_true]

theorem seReadClient_frames {fs : List ClientFrame} {rest' : List ClientFrame}
    (h : Holding client (f :: fs ++ rest') got) (hne : e.chunk ≠ [])
    (hbytes : (encodeAll (f :: fs ++ rest')).take got ++ e.chunk = encodeAll (f :: fs))
    (hclose : ∀ g ∈ f :: fs, g.opcode ≠ wsCloseFrame) (htext : ∀ log, H.textFrame log = .ok) :
    ∃ client' log, seReadClient H client e = (.ok, client') ∧ Fresh client' ∧
      client'.dispatched = client.dispatched ++ log ∧
      log.map Dispatch.content = (f :: fs).map ClientFrame.content := by
  obtain ⟨data, log, hlog, heq⟩ :=
    serverWsParse_frames _ e.grown fs htext hclose (hbytes ▸ h.received)
  rw [seReadClient_websocket h.websocket h.http hne, h.length, hbytes, heq]
  exact ⟨_, log, rfl, ⟨h.websocket, (openRecv_http _ _).trans h.http, rfl, rfl⟩, rfl, hlog⟩

theorem seReadClient_awaits {fs : List ClientFrame} (h : Holding client (f :: fs) got)
    (hne : e.chunk ≠ []) (hfit : e.chunk.length ≤ asked client.recv)
    (hbytes : (encodeAll (f :: fs)).take got ++ e.chunk = f.encode.take (got + e.chunk.length))
    (hshort : got + e.chunk.length < f.encode.length) :
    ∃ client', seReadClient H client e = (.ok, client') ∧
      Awaiting client' f (got + e.chunk.length) ∧ client'.dispatched = client.dispatched := by
  have hlen : ((encodeAll (f :: fs)).take got ++ e.chunk).length = got + e.chunk.length := by
    rw [List.length_append, h.taken_length]
  have hpos : 0 < got + e.chunk.length := Nat.add_pos_right _ (List.length_pos_of_ne_nil hne)
  have hm := h.received (e := e)
  rw [hbytes] at hm
  obtain ⟨total, htotal, heq⟩ := serverWsParse_await _ e.grown hm hpos hshort
  rw [seReadClient_websocket h.websocket h.http hne, h.length, hlen, heq]
  refine ⟨_, rfl, ⟨h.websocket, (openRecv_http _ _).trans h.http, ?_, rfl, rfl, htotal,
    hpos, hshort⟩, rfl⟩
  have hblock : got + e.chunk.length ≤ (received client e).recv.block := h.block_le hfit
  exact hm.keep (by rw [List.length_take]; omega) _

def IsBoundary (frames : List ClientFrame) (n : Nat) : Prop :=
  ∃ pre, pre <+: frames ∧ (encodeAll pre).length = n

/-- Behind position `n`, every chunk ends between two frames or inside the frame it begins in. -/
def NoStraddle (frames : List ClientFrame) (n : Nat) : List (List UInt8) → Prop
  | [] => True
  | c :: cs =>
    (IsBoundary frames (n + c.length) ∨ ∀ b, IsBoundary frames b → n < b → n + c.length ≤ b) ∧
      NoStraddle frames (n + c.length) cs

theorem seReadClient_step {later : List UInt8} (h : Holding client rest got) (hne : e.chunk ≠ [])
    (hfit : e.chunk.length ≤ asked client.recv)
    (hstream : (encodeAll rest).take got ++ e.chunk ++ later = encodeAll rest)
    (hclose : ∀ g ∈ rest, g.opcode ≠ wsCloseFrame) (htext : ∀ log, H.textFrame log = .ok)
    (hend : IsBoundary rest (got + e.chunk.length) ∨
      ∀ b, IsBoundary rest b → got < b → got + e.chunk.length ≤ b) :
    ∃ client' log now rest' got', seReadClient H client e = (.ok, client') ∧ rest = now ++ rest' ∧
      Holding client' rest' got' ∧ got + e.chunk.length = (encodeAll now).length + got' ∧
      client'.dispatched = client.dispatched ++ log ∧
      log.map Dispatch.content = now.map ClientFrame.content := by
  have hpos := List.length_pos_of_ne_nil hne
  have hlen : ((encodeAll rest).take got ++ e.chunk).length = got + e.chunk.length := by
    rw [List.length_append, h.taken_length]
  by_cases hb : IsBoundary rest (got + e.chunk.length)
  · obtain ⟨now, ⟨rest', rfl⟩, hnow⟩ := hb
    obtain ⟨f, fs, rfl⟩ : ∃ f fs, now = f :: fs := by
      cases now with
      | nil => simp [encodeAll] at hnow; omega
      | cons f fs => exact ⟨f, fs, rfl⟩
    have hbytes : (encodeAll (f :: fs ++ rest')).take got ++ e.chunk = encodeAll (f :: fs) :=
      (List.append_inj (hstream.trans (encodeAll_append _ _)) (hlen.trans hnow.symm)).1
    obtain ⟨client', log, heq, hfresh, hdisp, hlog⟩ := seReadClient_frames h hne hbytes
      (fun g hg => hclose g (List.mem_append_left _ hg)) htext
    exact ⟨client', log, f :: fs, rest', 0, heq, rfl, .fresh hfresh, by omega, hdisp, hlog⟩
  · have hend := hend.resolve_left hb
    cases rest with
    | nil =>
        have hnil := congrArg List.length hstream
        simp only [encodeAll, List.flatMap_nil, List.length_append, List.length_nil] at hnil
        omega
    | cons f fs =>
        have hfirst : IsBoundary (f :: fs) f.encode.length := ⟨[f], ⟨fs, rfl⟩, by simp [encodeAll]⟩
        have hshort : got + e.chunk.length < f.encode.length :=
          Nat.lt_of_le_of_ne (hend _ hfirst h.short) (fun heq => hb (heq ▸ hfirst))
        have hbytes : (encodeAll (f :: fs)).take got ++ e.chunk =
            f.encode.take (got + e.chunk.length) := by
          have htake := congrArg (List.take (got + e.chunk.length)) hstream
          rwa [List.take_left' hlen, encodeAll_cons f fs,
            List.take_append_of_le_length (Nat.le_of_lt hshort)] at htake
        obtain ⟨client', heq, hawait, hdisp⟩ := seReadClient_awaits h hne hfit hbytes hshort
        exact ⟨client', [], [], f :: fs, _, heq, rfl, .awaiting hawait, by simp [encodeAll],
          by simpa using hdisp, rfl⟩

theorem isBoundary_append {done : List ClientFrame} (hn : 0 < n) :
    IsBoundary (done ++ rest) ((encodeAll done).length + n) ↔ IsBoundary rest n := by
  constructor
  · rintro ⟨pre, hpre, hlen⟩
    rcases List.prefix_or_prefix_of_prefix hpre (List.prefix_append done rest) with ⟨post,
      rfl⟩ | ⟨post, rfl⟩
    · rw [encodeAll_append, List.length_append] at hlen
      omega
    · rw [List.prefix_append_right_inj] at hpre
      rw [encodeAll_append, List.length_append] at hlen
      exact ⟨post, hpre, by omega⟩
  · rintro ⟨pre, hpre, rfl⟩
    exact ⟨done ++ pre, (List.prefix_append_right_inj done).mpr hpre,
      by rw [encodeAll_append, List.length_append]⟩

theorem Holding.finished (h : Holding client rest got) (hdrop : (encodeAll rest).drop got = []) :
    rest = [] ∧ Fresh client := by
  cases h with
  | fresh h =>
      cases rest with
      | nil => exact ⟨rfl, h⟩
      | cons f fs =>
          have hpos := f.encode_pos
          have hlen := congrArg List.length hdrop
          simp only [encodeAll_cons, List.drop_zero, List.length_append, List.length_nil] at hlen
          omega
  | awaiting h =>
      have hshort := h.short
      have hlen := congrArg List.length hdrop
      simp only [encodeAll_cons, List.length_drop, List.length_append, List.length_nil] at hlen
      omega

theorem seReadRun_holding {es : List Recv} (done : List ClientFrame)
    (htext : ∀ log, H.textFrame log = .ok) (h : Holding client rest got)
    (hclose : ∀ g ∈ rest, g.opcode ≠ wsCloseFrame)
    (hcut : (es.map Recv.chunk).flatten = (encodeAll rest).drop got) (hfits : Fits H client es)
    (hstr : NoStraddle (done ++ rest) ((encodeAll done).length + got) (es.map Recv.chunk)) :
    (∀ s ∈ (seReadRun H client es).1, s = .ok) ∧ Fresh (seReadRun H client es).2 ∧
      ∃ log, (seReadRun H client es).2.dispatched = client.dispatched ++ log ∧
        log.map Dispatch.content = rest.map ClientFrame.content := by
  induction es generalizing client rest got done with
  | nil =>
      obtain ⟨rfl, hfresh⟩ := h.finished hcut.symm
      exact ⟨by simp [seReadRun], hfresh, [], by simp [seReadRun], rfl⟩
  | cons e es ih =>
      obtain ⟨hne, hfit, hfits⟩ := hfits
      obtain ⟨hend, hstr⟩ := hstr
      have hpos := List.length_pos_of_ne_nil hne
      rw [List.map_cons, List.flatten_cons] at hcut
      have hstream : (encodeAll rest).take got ++ e.chunk ++ (es.map Recv.chunk).flatten =
          encodeAll rest := by
        rw [List.append_assoc, hcut, List.take_append_drop]
      have hend : IsBoundary rest (got + e.chunk.length) ∨
          ∀ b, IsBoundary rest b → got < b → got + e.chunk.length ≤ b := by
        rcases hend with hend | hend
        · exact .inl ((isBoundary_append (by omega)).mp (by rwa [← Nat.add_assoc]))
        · refine .inr (fun b hb hlt => ?_)
          have := hend _ ((isBoundary_append (by omega)).mpr hb) (by omega)
          omega
      obtain ⟨client', log, now, rest', got', heq, rfl, hhold, hcount, hdisp, hlog⟩ :=
        seReadClient_step h hne hfit hstream hclose htext hend
      have hcut' : (es.map Recv.chunk).flatten = (encodeAll rest').drop got' := by
        have hdrop := congrArg (List.drop e.chunk.length) hcut
        rwa [List.drop_left, List.drop_drop, hcount, encodeAll_append,
          List.drop_length_add_append] at hdrop
      rw [heq] at hfits
      rw [show (encodeAll done).length + got + e.chunk.length =
          (encodeAll (done ++ now)).length + got' by
            rw [encodeAll_append, List.length_append]; omega,
        ← List.append_assoc] at hstr
      obtain ⟨hok, hfresh, log', hdisp', hlog'⟩ :=
        ih (done ++ now) hhold (fun g hg => hclose g (List.mem_append_right _ hg)) hcut' hfits hstr
      simp only [seReadRun, heq]
      refine ⟨by simpa using hok, hfresh, log ++ log', ?_, ?_⟩
      · rw [hdisp', hdisp, List.append_assoc]
      · rw [List.map_append, hlog, hlog', List.map_append]

/-- The frames of a client arrive whole and in order, however the stream is cut into chunks without
straddling. -/
theorem seReadRun_dispatches {frames : List ClientFrame} {es : List Recv} (hfresh : Fresh client)
    (htext : ∀ log, H.textFrame log = .ok) (hclose : ∀ f ∈ frames, f.opcode ≠ wsCloseFrame)
    (hcut : (es.map Recv.chunk).flatten = encodeAll frames) (hfits : Fits H client es)
    (hstr : NoStraddle frames 0 (es.map Recv.chunk)) :
    (∀ s ∈ (seReadRun H client es).1, s = .ok) ∧ Fresh (seReadRun H client es).2 ∧
      ∃ log, (seReadRun H client es).2.dispatched = client.dispatched ++ log ∧
        log.map Dispatch.content = frames.map ClientFrame.content :=
  seReadRun_holding [] htext (.fresh hfresh) hclose hcut hfits hstr

def idle : Handlers := ⟨fun _ => .ok, fun client _ => (.ok, client), fun client _ => client⟩

def upgraded : Client := ⟨true, ⟨fun _ => 0, 0, 0, 0, false, none⟩, []⟩

def holding (bytes : List UInt8) : Client :=
  ⟨true, ⟨write (fun _ => 0) 0 bytes, bytes.length, bytes.length, 0, false, none⟩, []⟩

theorem holding_holds (bytes : List UInt8) : Holds (holding bytes).recv.data 0 bytes :=
  holds_write (fun _ => 0) 0 bytes

def delivered (chunk : List UInt8) : Recv := ⟨chunk, fun _ => 0, fun _ => 0⟩

def textOf (payload : List UInt8) (h : payload.length < 126) : ClientFrame :=
  ⟨0x81, false, none, payload, h⟩

instance decidableFits (H : Handlers) (client : Client) :
    (es : List Recv) → Decidable (Fits H client es)
  | [] => isTrue trivial
  | _ :: es => @instDecidableAnd _ _ _ (@instDecidableAnd _ _ _ (decidableFits H _ es))

theorem upgraded_fresh : Fresh upgraded := ⟨rfl, rfl, rfl, rfl⟩

theorem seReadRun_dispatches_split :
    let f : ClientFrame := ⟨0x81, false, some (fun i => [1, 2, 3, 4].get i),
    [97, 98, 99], by decide⟩
    let es := [delivered [0x81, 0x83, 1, 2, 3, 4, 96], delivered [96, 96]]
    (∀ s ∈ (seReadRun idle upgraded es).1, s = .ok) ∧ Fresh (seReadRun idle upgraded es).2 ∧
      ∃ log, (seReadRun idle upgraded es).2.dispatched = upgraded.dispatched ++ log ∧
        log.map Dispatch.content = [f].map ClientFrame.content := by
  intro f es
  have hlen : f.encode.length = 9 := by decide +kernel
  have hboundary : ∀ b, IsBoundary [f] b → b = 0 ∨ b = 9 := by
    rintro b ⟨pre, hpre, rfl⟩
    rcases List.prefix_cons_iff.mp hpre with rfl | ⟨tail, rfl, htail⟩
    · exact .inl rfl
    · rw [List.prefix_nil] at htail
      exact .inr (by simpa [encodeAll, htail] using hlen)
  have hstr : NoStraddle [f] 0 (es.map Recv.chunk) := by
    refine ⟨.inr (fun b hb h0 => ?_), .inl ⟨[f], List.prefix_rfl, by decide +kernel⟩, trivial⟩
    rcases hboundary b hb with rfl | rfl
    · exact absurd h0 (by decide)
    · decide
  exact seReadRun_dispatches (H := idle) upgraded_fresh (fun _ => rfl) (by decide +kernel)
    (by decide +kernel)
    (by decide +kernel) hstr

/-- The second frame begins behind the first one in the same chunk. Its first bytes are left there,
and the next chunk is put behind the first bytes of the first frame. -/
theorem seReadRun_rereads_first :
    let frames := [textOf [97] (by decide), textOf [98, 99] (by decide)]
    let es := [delivered [0x81, 1, 97, 0x81, 2], delivered [98, 99]]
    Fresh upgraded ∧ (∀ log, idle.textFrame log = .ok) ∧ (∀ f ∈ frames, f.opcode ≠ wsCloseFrame) ∧
      (es.map Recv.chunk).flatten = encodeAll frames ∧ Fits idle upgraded es ∧
      (seReadRun idle upgraded es).2.dispatched.map Dispatch.content = [(1, [97]), (1, [98])] ∧
      (seReadRun idle upgraded es).2.dispatched.map Dispatch.content ≠
        frames.map ClientFrame.content :=
  ⟨upgraded_fresh, fun _ => rfl, by decide +kernel, by decide +kernel, by decide +kernel,
    by decide +kernel, by decide +kernel⟩

structure Waits (client client' : Client) (bytes : List UInt8) : Prop where
  quiet : client'.dispatched = client.dispatched
  busy : client'.recv.busy = true
  offset : client'.recv.offset = bytes.length
  dataSize : client'.recv.offset < client'.recv.dataSize
  asks : client'.recv.http = none → 0 < asked client'.recv
  kept : Holds client'.recv.data 0 bytes

/-- Wherever a frame is cut, and whatever lies behind the bytes of it that came, the parser waits for
the others. -/
theorem serverWsParse_partial (textFrame : List Dispatch → RecvStatus) (grown : Memory UInt8)
    {client : Client} {f : ClientFrame} {n : Nat} (h0 : 0 < n) (hn : n < f.encode.length)
    (hm : Holds client.recv.data 0 (f.encode.take n)) (hblock : n ≤ client.recv.block) :
    ∃ client', serverWsParse textFrame grown client 0 n = (.ok, client') ∧
      Waits client client' (f.encode.take n) := by
  have hlen : (f.encode.take n).length = n := List.length_take_of_le (Nat.le_of_lt hn)
  obtain ⟨total, htotal, heq⟩ := (serverWsParse_await client grown hm h0 hn :
    ∃ total, n < total ∧ serverWsParse textFrame grown client 0 n = _)
  refine ⟨_, heq, rfl, rfl, hlen.symm, htotal, ?_, ?_⟩
  · intro (hhttp : client.recv.http = none)
    have hopen : total ≠ 0 := Nat.ne_of_gt (Nat.zero_lt_of_lt htotal)
    simp only [asked, RecvBuf.await, hhttp, if_neg hopen]
    exact Nat.sub_pos_of_lt htotal
  · exact hm.keep (by rw [hlen]; exact Nat.le_min.mpr ⟨hblock, Nat.le_of_lt htotal⟩) grown

theorem serverWsParse_partial_text :
    ∃ client', serverWsParse (fun _ => .ok) (fun _ => 0) (holding [0x81]) 0 1 = (.ok, client') ∧
      Waits (holding [0x81]) client' ((textOf [97] (by decide)).encode.take 1) :=
  serverWsParse_partial _ _ (by decide) (by decide +kernel) (holding_holds [0x81]) (by decide)

end ChityChat.WebsocketStream
