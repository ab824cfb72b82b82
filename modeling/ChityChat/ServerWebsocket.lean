import ChityChat.ByteMemory

namespace ChityChat.ServerWebsocket

open ByteMemory

inductive RecvStatus
  | ok
  | disconnect
  | error
  deriving DecidableEq

/-- The parts of `http_t` that receiving the rest of its body uses. -/
structure Http where
  body : Memory UInt8
  bodyLen : Nat
  totalRecv : Nat

/-- `recv_buf_t`. `block` counts the bytes allocated for `data`; it is 0 when `data` is NULL. -/
structure RecvBuf where
  data : Memory UInt8
  block : Nat
  dataSize : Nat
  offset : Nat
  busy : Bool
  http : Option Http

/-- What a frame's handler is given: the opcode, the payload, its position in `recv.data`, the byte
behind it (the text handler reads `payload_len + 1` bytes) and the size of the block then. -/
structure Dispatch where
  opcode : Nat
  payload : List UInt8
  pos : Nat
  behind : UInt8
  block : Nat
  deriving DecidableEq

/-- The parts of `client_t` that receiving uses, and a log of the frames dispatched for it. -/
structure Client where
  websocket : Bool
  recv : RecvBuf
  dispatched : List Dispatch

def wsTextFrame : Nat := 0x01
def wsCloseFrame : Nat := 0x08
def wsFrameSize : Nat := 2
def wsMaskkeyLen : Nat := 4

structure WsFrame where
  opcode : Nat
  payloadLen : Nat
  mask : Bool
  deriving DecidableEq

def wsFrame (m : Memory UInt8) (buf : Nat) : WsFrame :=
  ⟨(m buf).toNat % 16, (m (buf + 1)).toNat % 128, decide (128 ≤ (m (buf + 1)).toNat)⟩

def parseCheckOffset (ws : WsFrame) (offset : Nat) : Nat :=
  offset + (if ws.payloadLen = 126 then 2 else if ws.payloadLen = 127 then 8 else 0) +
    (if ws.mask then wsMaskkeyLen else 0)

/-- `WS_PAYLOAD_LEN64` reads a single byte of the long form. -/
def wsPayloadLen (ws : WsFrame) (m : Memory UInt8) (buf : Nat) : Nat :=
  if ws.payloadLen = 126 then (m (buf + 2)).toNat * 256 + (m (buf + 3)).toNat
  else if ws.payloadLen = 127 then (m (buf + 2)).toNat
  else ws.payloadLen

def mask (m : Memory UInt8) (pos len : Nat) (maskkey : Memory UInt8) (maskkeyLen : Nat) :
    Memory UInt8 :=
  fun i => if pos ≤ i ∧ i < pos + len then m i ^^^ maskkey ((i - pos) % maskkeyLen) else m i

def unmask (ws : WsFrame) (m : Memory UInt8) (buf offset payloadLen : Nat) : Memory UInt8 :=
  if ws.mask then
    mask m (buf + offset) payloadLen (fun i => m (buf + (offset - wsMaskkeyLen) + i)) wsMaskkeyLen
  else m

/-- The wait for the rest of a frame. `grown` is what `realloc` finds in the bytes that it adds. -/
def RecvBuf.await (r : RecvBuf) (grown : Memory UInt8) (totalSize bufLen : Nat) : RecvBuf :=
  { r with
    data := keep (min r.block totalSize) r.data grown
    block := totalSize
    dataSize := totalSize
    offset := bufLen
    busy := true }

def Client.dispatch (client : Client) (data : Memory UInt8) (opcode pos payloadLen : Nat) :
    Client :=
  { client with
    recv := { client.recv with data := data }
    dispatched := client.dispatched ++
      [⟨opcode, read data pos payloadLen, pos, data (pos + payloadLen), client.recv.block⟩] }

def Client.settled (client : Client) : Client :=
  { client with recv := { client.recv with busy := false } }

/-- `buf` is the offset of the argument in `client->recv.data`. The text handler is a parameter: it
answers from the frames of the client so far. -/
def serverWsParse (textFrame : List Dispatch → RecvStatus) (grown : Memory UInt8) (client : Client)
    (buf bufLen : Nat) : RecvStatus × Client :=
  let ws := wsFrame client.recv.data buf
  let offset := parseCheckOffset ws wsFrameSize
  let payloadLen := wsPayloadLen ws client.recv.data buf
  let totalSize := payloadLen + offset
  if bufLen < totalSize then
    (.ok, { client with recv := client.recv.await grown totalSize bufLen })
  else
    let client := client.dispatch (unmask ws client.recv.data buf offset payloadLen) ws.opcode
      (buf + offset) payloadLen
    if ws.opcode = wsCloseFrame then (.disconnect, client)
    else
      let ret := if ws.opcode = wsTextFrame then textFrame client.dispatched else .ok
      if totalSize < bufLen ∧ ret = .ok then
        serverWsParse textFrame grown client (buf + totalSize) (bufLen - totalSize)
      else (ret, client.settled)
termination_by bufLen
decreasing_by simp only [parseCheckOffset, wsFrameSize] at *; omega

end ChityChat.ServerWebsocket
