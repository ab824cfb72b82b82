import ChityChat.ServerHttp
import ChityChat.ServerWebsocket

namespace ChityChat.ServerHandleHttp

open CString JsonC ServerHttp
open ServerWebsocket (RecvStatus)

def pathMax : Nat := 4096

inductive UploadTokenType
  | userPfp
  | msgAttachment
  deriving DecidableEq

/-- What the handlers look at outside of the request. `errno` tells whether an earlier call left an
error number behind. -/
structure Server where
  rootDir : Bytes
  fileIsdir : Bytes → Option Bool
  uploadTokens : Nat → Option UploadTokenType
  errno : Bool

def urlStr (http : Http) (url version : Bytes) : Bytes :=
  runOn httpUrlLen url (runOn httpVersionLen version
    (headersStr (behindHeaders http.headers) http.headers))

def serverHttpUrlChecks (url : Bytes) : Bool := !decide (utf8 "../" <:+: url)

def getPath (rootDir url : Bytes) : Except Fault Bytes :=
  match min url.length httpUrlLen with
  | 0 => .error .negativeIndex
  | last + 1 =>
    let path := if url[last]? = some 47 then rootDir ++ url ++ utf8 "index.html"
      else rootDir ++ url
    .ok (path.take (pathMax - 1))

def serverHandleHttpGet (server : Server) (url : Bytes) : Except Fault (Option Bytes) :=
  if serverHttpUrlChecks url = false then .ok none
  else
    match getPath server.rootDir url with
    | .error fault => .error fault
    | .ok path =>
      .ok ((server.fileIsdir path).map (fun isdir =>
        if isdir then path ++ utf8 "/index.html" else path))

def serverCheckUploadToken (server : Server) (http : Http) :
    Except Fault (Option (Nat × UploadTokenType)) :=
  match httpGetHeader http.nHeaders http.headers "Upload-Token" with
  | none => .error .nullHeader
  | some str =>
    let token := strtoull str
    if 2 ^ 64 ≤ (readNumber str).2 ∨ server.errno ∧ token = 0 ∨ (readDigits str).2 = [] then .ok none
    else .ok ((server.uploadTokens token).map (fun type => (token, type)))

inductive Upload
  | refused
  | pfp (token : Nat)
  | attach (token index : Nat)
  deriving DecidableEq

def serverHandleUserUpload (server : Server) (http : Http) : Except Fault Upload :=
  match serverCheckUploadToken server http with
  | .error fault => .error fault
  | .ok none => .ok .refused
  | .ok (some (token, .userPfp)) => .ok (.pfp token)
  | .ok (some (token, .msgAttachment)) =>
    match httpGetHeader http.nHeaders http.headers "Attach-Index" with
    | none => .ok .refused
    | some str =>
      if strtoull str = 2 ^ 64 - 1 then .ok .refused else .ok (.attach token (strtoull str))

inductive Outcome
  | upgrade (key : Option Bytes)
  | get (path : Option Bytes)
  | post (upload : Upload)
  | refused (status : RecvStatus)
  deriving DecidableEq

def serverHandleClientUpgrade (http : Http) : Option Bytes :=
  match httpGetHeader http.nHeaders http.headers "Upgrade" with
  | none => none
  | some val => if val = utf8 "websocket" then http.websocketKey else none

def serverHandleHttp (server : Server) (state : ClientState) (http : Http) :
    Except Fault Outcome :=
  if state.upgradePending then .ok (.upgrade (serverHandleClientUpgrade http))
  else
    match http.message with
    | .req method url version =>
      if method = utf8 "GET" then
        (serverHandleHttpGet server (urlStr http url version)).map .get
      else if method = utf8 "POST" then (serverHandleUserUpload server http).map .post
      else .ok (.refused .disconnect)
    | .resp _ _ _ => .ok (.refused .error)

/-- A request on a fresh connection. It is handled at once or when the rest of its body has come. -/
def serveFresh (server : Server) (buf : Bytes) : Except Fault Outcome :=
  match parseHttp shortLive buf with
  | .error fault => .error fault
  | .ok none => .ok (.refused .error)
  | .ok (some (http, state)) => serverHandleHttp server state http

end ChityChat.ServerHandleHttp
