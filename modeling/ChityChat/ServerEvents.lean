import ChityChat.WebsocketFrame

namespace ChityChat.ServerEvents

open ByteMemory ServerWebsocket WebsocketFrame

inductive SeStatus
  | ok
  | close
  | error
  deriving DecidableEq

/-- The code behind the received bytes: the text handler, the HTTP parser (on the bytes at the start
of `recv.data`) and the handling of a completed HTTP body. -/
structure Handlers where
  textFrame : List Dispatch → RecvStatus
  httpParse : Client → Nat → RecvStatus × Client
  handleHttp : Client → Http → Client

/-- One `server_recv`: the bytes it delivers, none at the end of the stream or on an error. `heap`
is what lies behind the receive block at that time and `grown` what a `realloc` finds there. -/
structure Recv where
  chunk : List UInt8
  heap : Memory UInt8
  grown : Memory UInt8

def clientRecvPage : Nat := 4096

def openRecv (r : RecvBuf) (heap : Memory UInt8) : RecvBuf :=
  if r.block = 0 then
    { r with
      data := keep clientRecvPage (fun _ => 0) heap, block := clientRecvPage,
      dataSize := clientRecvPage - 1 }
  else { r with data := keep r.block r.data heap }

def recvStart (r : RecvBuf) : Nat := if r.block = 0 then 0 else r.offset

def closeRecv (r : RecvBuf) : RecvBuf := { r with block := 0, dataSize := 0, offset := 0 }

def asked (r : RecvBuf) : Nat :=
  match r.http with
  | some http => http.bodyLen - http.totalRecv
  | none => if r.block = 0 then clientRecvPage - 1 else r.dataSize - r.offset

def conclude (status : RecvStatus) (client : Client) : SeStatus × Client :=
  let client := if status ≠ .disconnect ∧ client.recv.busy = false then
    { client with recv := closeRecv client.recv } else client
  (if status = .disconnect ∨ status = .error then .close else .ok, client)

def received (client : Client) (e : Recv) : Client :=
  let r := openRecv client.recv e.heap
  { client with recv := { r with data := write r.data (recvStart client.recv) e.chunk } }

def seReadClient (H : Handlers) (client : Client) (e : Recv) : SeStatus × Client :=
  match client.recv.http with
  | some http =>
    if e.chunk = [] then (.close, client)
    else
      let bufSize := http.bodyLen - http.totalRecv
      let http := { http with
        body := write http.body http.totalRecv e.chunk
        totalRecv := http.totalRecv + e.chunk.length }
      if bufSize ≤ e.chunk.length then
        let client := H.handleHttp
          { client with recv := { client.recv with http := some http } } http
        conclude .ok { client with recv := { client.recv with http := none } }
      else conclude .ok { client with recv := { client.recv with http := some http } }
  | none =>
    if e.chunk = [] then (.close, { client with recv := openRecv client.recv e.heap })
    else
      let r :=
        if client.websocket then
          serverWsParse H.textFrame e.grown (received client e) 0
            (e.chunk.length + recvStart client.recv)
        else H.httpParse (received client e) e.chunk.length
      conclude r.1 r.2

def seReadRun (H : Handlers) (client : Client) : List Recv → List SeStatus × Client
  | [] => ([], client)
  | e :: es =>
    let r := seReadClient H client e
    let s := seReadRun H r.2 es
    (r.1 :: s.1, s.2)

/-- Every `server_recv` delivers something and no more than it is asked for. -/
def Fits (H : Handlers) (client : Client) : List Recv → Prop
  | [] => True
  | e :: es => e.chunk ≠ [] ∧ e.chunk.length ≤ asked client.recv ∧
      Fits H (seReadClient H client e).2 es

end ChityChat.ServerEvents
