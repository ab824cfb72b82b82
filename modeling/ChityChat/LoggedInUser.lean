import ChityChat.ServerHandleHttp
import ChityChat.UserLogin

namespace ChityChat.LoggedInUser

open JsonC ServerHttp UserLogin Transition

/-- The permissions of a chat command, a bit of `client->state`. -/
inductive Perms
  | loggedIn
  | none
  deriving DecidableEq

def Perms.allows : Perms → ClientState → Bool
  | loggedIn, state => state.loggedIn
  | none, state => state.websocket

/-- The commands of `server_init_chatcmd`. -/
def chatCmdHt : List (String × Perms) :=
  [("client_user_info", .loggedIn), ("client_groups", .loggedIn), ("get_member_ids", .loggedIn),
    ("group_create", .loggedIn), ("get_user", .loggedIn), ("get_all_groups", .loggedIn),
    ("join_group", .loggedIn), ("group_msg", .loggedIn), ("get_group_msgs", .loggedIn),
    ("edit_account", .loggedIn), ("create_group_code", .loggedIn), ("join_group_code", .loggedIn),
    ("get_group_codes", .loggedIn), ("delete_group_code", .loggedIn), ("delete_msg", .loggedIn),
    ("delete_group", .loggedIn), ("register", .none), ("login", .none), ("session", .none)]

def ghtHashVal : UInt64 := 5381

/-- A `char` is signed. -/
def serverGhtHashstr (str : Bytes) : UInt64 :=
  str.foldl (fun hash c => (hash <<< 5) + hash + c.toInt8.toInt64.toUInt64) ghtHashVal

def serverExecChatcmd (state : ClientState) (cmd : Bytes) : Except String (String × Perms) :=
  match chatCmdHt.find? (fun chatcmd =>
    serverGhtHashstr (utf8 chatcmd.1) = serverGhtHashstr cmd) with
  | none => .error "Command not found."
  | some chatcmd => if chatcmd.2.allows state then .ok chatcmd else .error "Require permission"

def serverHandleClientUpgrade (state : ClientState) (http : Http) (sent : Bool) : ClientState :=
  match httpGetHeader http.nHeaders http.headers "Upgrade" with
  | none => { state with upgradePending := state.upgradePending ^^ true }
  | some val =>
    let upgraded := if val = utf8 "websocket" ∧ sent then { state with websocket := true } else state
    { upgraded with upgradePending := upgraded.upgradePending ^^ true }

/-- The state that `server_handle_http` leaves. The handlers of requests do not touch it. -/
def handledState (state : ClientState) (http : Http) (sent : Bool) : ClientState :=
  if state.upgradePending then serverHandleClientUpgrade state http sent else state

/-- A connection: `http` is `recv.http` and `dbuser` the id of the user, `none` for NULL. `pending`
has the login commands without a result yet, and `assigned` counts the logins between the assignment
of `dbuser` and the flag. -/
structure Connection where
  state : ClientState
  http : Option Http
  dbuser : Option Nat
  pending : List LoginCmd
  assigned : Nat

def loginCmd : String → Option LoginCmd
  | "register" => some .register
  | "login" => some .login
  | "session" => some .session
  | _ => none

inductive Action
  | httpParse (buf : Bytes) (sent : Bool)
  | recvBody (totalRecv : Nat)
  | handleBody (sent : Bool)
  | textFrame (cmd : Bytes) (queued : Bool)
  | complete (cmd : LoginCmd) (found : Option Nat) (taken : Bool)
  | markLoggedIn (sent : Bool)

/-- What `se_read_client` and the callbacks of login commands do with a connection. A callback finds
a user in its context or reports an error, and `taken` tells whether that user is logged in
already. -/
inductive Step : Connection → Action → Connection → Prop
  | httpParse {c : Connection} {buf : Bytes} {http : Http} {state : ClientState} (sent : Bool)
      (hhttp : c.http = none) (hws : c.state.websocket = false)
      (hparse : parseHttp c.state buf = .ok (some (http, state))) :
      Step c (.httpParse buf sent)
        (if http.missing then { c with state := state, http := some http }
          else { c with state := handledState state http sent })
  | recvBody {c : Connection} {http : Http} (totalRecv : Nat) (hhttp : c.http = some http) :
      Step c (.recvBody totalRecv) { c with http := some { http with totalRecv } }
  | handleBody {c : Connection} {http : Http} (sent : Bool) (hhttp : c.http = some http) :
      Step c (.handleBody sent)
        { c with state := handledState c.state http sent, http := none }
  | textFrame {c : Connection} (cmd : Bytes) {chatcmd : String × Perms} (queued : Bool)
      (hhttp : c.http = none) (hws : c.state.websocket = true)
      (hexec : serverExecChatcmd c.state cmd = .ok chatcmd) :
      Step c (.textFrame cmd queued)
        (if queued then { c with pending := c.pending ++ (loginCmd chatcmd.1).toList } else c)
  | complete {c : Connection} (before : List LoginCmd) {after : List LoginCmd} {cmd : LoginCmd}
      (found : Option Nat) (taken : Bool) (hpending : c.pending = before ++ cmd :: after) :
      Step c (.complete cmd found taken)
        (match found, taken with
          | some userId, false =>
            { c with dbuser := some userId, pending := before ++ after, assigned := c.assigned + 1 }
          | _, _ => { c with pending := before ++ after })
  | markLoggedIn {c : Connection} {n : Nat} (sent : Bool) (hassigned : c.assigned = n + 1) :
      Step c (.markLoggedIn sent)
        { c with state.loggedIn := c.state.loggedIn || sent, assigned := n }

def accepted : Connection := ⟨shortLive, none, none, [], 0⟩

variable {c c' : Connection} {a : Action}

def KeepsOut (state state' : ClientState) : Prop := state'.loggedIn = true → state.loggedIn = true

theorem connectionToken_keepsOut (state : ClientState) (token : Bytes) :
    KeepsOut state (connectionToken state token) := by
  rw [connectionToken]
  intro h
  split at h
  · exact h
  · split at h
    · simp [shortLive] at h
    · split at h <;> exact h

theorem handleHttpHeader_state {P : ClientState → Prop}
    (hP : ∀ state token, P state → P (connectionToken state token)) (behind : Bytes) (h : Handled)
    (header : HttpHeader) (headers : List HttpHeader) (h0 : P h.state) :
    P (handleHttpHeader behind h header headers).1.state := by
  have htokens (tokens : List Bytes) (state : ClientState) (h0 : P state) :
      P (tokens.foldl connectionToken state) := by
    induction tokens generalizing state with
    | nil => exact h0
    | cons token tokens ih => exact ih _ (hP state token h0)
  rw [handleHttpHeader]
  split
  · exact h0
  · split
    · exact htokens _ _ h0
    · split <;> exact h0

theorem handleHttpHeaders_state {P : ClientState → Prop}
    (hP : ∀ state token, P state → P (connectionToken state token)) (behind : Bytes) (n : Nat)
    (h : Handled) (headers : List HttpHeader) (h0 : P h.state) :
    P (handleHttpHeaders behind n h headers).1.state := by
  induction n, h, headers using handleHttpHeaders.induct behind with
  | case1 h headers => exact h0
  | case2 n h hn =>
      cases n with
      | zero => exact h0
      | succ n => exact h0
  | case3 n h header headers r ih => exact ih (handleHttpHeader_state hP behind h header headers h0)

theorem parseHead_state {P : ClientState → Prop}
    (hP : ∀ state token, P state → P (connectionToken state token)) {state : ClientState}
    {header : Bytes} {head : Head} (h : parseHead state header = .ok (some head)) (h0 : P state) :
    P head.table.handled.state := by
  rw [parseHead] at h
  split at h
  · cases h
  · split at h
    · cases h
    · cases h
    · obtain rfl := Option.some.inj (Except.ok.inj h)
      exact handleHttpHeaders_state hP _ _ _ _ h0

theorem handleUpgrade_keepsOut {table : HeaderTable} {state : ClientState}
    (h : handleUpgrade table = .ok state) : KeepsOut table.handled.state state := by
  rw [handleUpgrade] at h
  split at h
  · split at h
    · cases h
    · rename_i val _
      obtain rfl := Except.ok.inj h
      rw [handleHttpUpgrade]
      split <;> exact id
  · obtain rfl := Except.ok.inj h
    exact id

theorem parseHttp_keepsOut {state state' : ClientState} {buf : Bytes} {http : Http}
    (h : parseHttp state buf = .ok (some (http, state'))) : KeepsOut state state' := by
  obtain ⟨header, rest, head, -, hhead, hup, -⟩ := parseHttp_ok_iff.mp h
  have htable : KeepsOut state head.table.handled.state :=
    parseHead_state (fun s token hs hl => hs (connectionToken_keepsOut s token hl)) hhead id
  exact fun hout => htable (handleUpgrade_keepsOut hup hout)

theorem handledState_keepsOut (state : ClientState) (http : Http) (sent : Bool) :
    KeepsOut state (handledState state http sent) := by
  rw [handledState, serverHandleClientUpgrade]
  split
  · split
    · exact id
    · dsimp only
      split <;> exact id
  · exact id

/-- The connection speaks the websocket protocol only. -/
structure Upgraded (c : Connection) : Prop where
  websocket : c.state.websocket = true
  http : c.http = none

structure HasUser (c : Connection) : Prop where
  pending : c.pending ≠ [] → Upgraded c
  assigned : c.assigned ≠ 0 → Upgraded c ∧ c.dbuser ≠ none
  loggedIn : c.state.loggedIn = true → Upgraded c ∧ c.dbuser ≠ none

theorem HasUser.http (h : HasUser c) (hc : ¬ Upgraded c) {state : ClientState}
    (hstate : KeepsOut c.state state) (http : Option Http) :
    HasUser { c with state := state, http := http } where
  pending hp := absurd (h.pending hp) hc
  assigned ha := absurd (h.assigned ha).1 hc
  loggedIn hl := absurd (h.loggedIn (hstate hl)).1 hc

theorem hasUser_accepted : HasUser accepted where
  pending h := absurd rfl h
  assigned h := absurd rfl h
  loggedIn h := nomatch h

theorem HasUser.queue (h : HasUser c) (hc : Upgraded c) (pending : List LoginCmd) :
    HasUser { c with pending := pending } where
  pending _ := ⟨hc.websocket, hc.http⟩
  assigned ha := ⟨⟨hc.websocket, hc.http⟩, (h.assigned ha).2⟩
  loggedIn hl := ⟨⟨hc.websocket, hc.http⟩, (h.loggedIn hl).2⟩

theorem HasUser.step (h : HasUser c) (hstep : Step c a c') : HasUser c' := by
  cases hstep with
  | @httpParse buf http state sent hhttp hws hparse =>
      have hc : ¬ Upgraded c := fun hc => by
        have hup := hc.websocket
        simp [hws] at hup
      have hout := parseHttp_keepsOut hparse
      split
      · exact h.http hc hout _
      · exact h.http hc (fun hl => hout (handledState_keepsOut state http sent hl)) c.http
  | @recvBody http totalRecv hhttp =>
      have hc : ¬ Upgraded c := fun hc => by
        have hup := hc.http
        simp [hhttp] at hup
      exact h.http hc id _
  | @handleBody http sent hhttp =>
      have hc : ¬ Upgraded c := fun hc => by
        have hup := hc.http
        simp [hhttp] at hup
      exact h.http hc (handledState_keepsOut c.state http sent) none
  | textFrame cmd queued hhttp hws hexec =>
      split
      · exact h.queue ⟨hws, hhttp⟩ _
      · exact h
  | complete before found taken hpending =>
      have hc : Upgraded c := h.pending (by simp [hpending])
      split
      · exact ⟨fun _ => ⟨hc.websocket, hc.http⟩,
          fun _ => ⟨⟨hc.websocket, hc.http⟩, Option.some_ne_none _⟩,
          fun _ => ⟨⟨hc.websocket, hc.http⟩, Option.some_ne_none _⟩⟩
      · exact h.queue hc _
  | markLoggedIn sent hassigned =>
      obtain ⟨hc, huser⟩ := h.assigned (by simp [hassigned])
      exact ⟨fun _ => ⟨hc.websocket, hc.http⟩, fun _ => ⟨⟨hc.websocket, hc.http⟩, huser⟩,
        fun _ => ⟨⟨hc.websocket, hc.http⟩, huser⟩⟩

/-- What `CHATCMD_PERM_LOGGED_IN` asks for. -/
theorem exec_loggedIn {state : ClientState} {cmd : Bytes}
    {name : String}
    (h : serverExecChatcmd state cmd = .ok (name, .loggedIn)) : state.loggedIn = true := by
  rw [serverExecChatcmd] at h
  split at h
  · cases h
  · split at h
    · rename_i hallows
      obtain rfl := Except.ok.inj h
      exact hallows
    · cases h

/-- A client that is logged in speaks the websocket protocol and has a user, which no handler of a
command for logged-in clients misses. -/
theorem reachable_hasUser
    (h : Reachable (fun c => c = accepted) Step c) :
    (c.state.loggedIn = true → c.state.websocket = true ∧ c.dbuser ≠ none) ∧
      ∀ cmd name, serverExecChatcmd c.state cmd = .ok (name, .loggedIn) →
        c.dbuser ≠ none := by
  have huser : HasUser c :=
    h.invariant (fun _ hc => hc ▸ hasUser_accepted) (fun _ _ _ hc hstep => hc.step hstep)
  constructor
  · intro hl
    exact ⟨(huser.loggedIn hl).1.websocket, (huser.loggedIn hl).2⟩
  · intro cmd name hexec
    exact (huser.loggedIn (exec_loggedIn hexec)).2

def Connection.client (c : Connection) : Client := ⟨c.dbuser, c.state.loggedIn, false⟩

def upgradeRequest : Bytes :=
  utf8 "GET / HTTP/1.1\r\nConnection: Upgrade\r\nUpgrade: websocket\r\n\r\n"

def upgrading : ClientState := ⟨true, true, false, false⟩

theorem upgradeRequest_parses : ∃ http, http.missing = false ∧
    handledState upgrading http true = ⟨false, true, false, false⟩ ∧
    parseHttp shortLive upgradeRequest = .ok (some (http, upgrading)) := by
  refine ⟨⟨.req (utf8 "GET") (utf8 "/") (utf8 "HTTP/1.1"),
    [⟨utf8 "Connection", utf8 "Upgrade"⟩, ⟨utf8 "Upgrade", utf8 "websocket"⟩], 2, [], .null, 0,
    none, false, 0⟩, rfl, ?_, ?_⟩
  · decide +kernel
  · decide +kernel

def loggedInFirst : Connection := ⟨⟨false, true, false, true⟩, none, some 1, [], 0⟩

theorem reachable_loggedInFirst : Reachable (fun c => c = accepted) Step loggedInFirst := by
  obtain ⟨http, hmissing, hstate, hparse⟩ := upgradeRequest_parses
  have hstart : Reachable (fun c => c = accepted) Step accepted := .start rfl
  have hupgraded := hstart.next (.httpParse true rfl rfl hparse)
  rw [if_neg (by simp [hmissing]), hstate] at hupgraded
  have hexec : serverExecChatcmd ⟨false, true, false, false⟩ (utf8 "login") =
      .ok ("login", .none) := by decide +kernel
  have hqueued := hupgraded.next (.textFrame (utf8 "login") true rfl rfl hexec)
  have hassigned := hqueued.next (a := .complete .login (some 1) false) (.complete [] _ _ rfl)
  exact hassigned.next (.markLoggedIn (n := 0) true rfl)

theorem reachable_hasUser_first :
    loggedInFirst.state.websocket = true ∧ loggedInFirst.dbuser ≠ none :=
  (reachable_hasUser reachable_loggedInFirst).1 rfl

end ChityChat.LoggedInUser
