import ChityChat.LoggedInUser

namespace ChityChat.UpgradeHandshake

open CString JsonC ServerHttp Transition
open LoggedInUser hiding Step

/-- The upgrade header that `server_handle_client_upgrade` looks for, with the value it accepts. -/
def ForWebsocket (http : Http) : Prop :=
  httpGetHeader http.nHeaders http.headers "Upgrade" = some (utf8 "websocket")

instance (http : Http) : Decidable (ForWebsocket http) := inferInstanceAs (Decidable (_ = _))

def answers (state : ClientState) (http : Http) (sent : Bool) : Bool :=
  state.upgradePending && decide (ForWebsocket http) && sent

def answersBy (c : Connection) : Action → Bool
  | .httpParse buf sent =>
    match parseHttp c.state buf with
    | .ok (some (http, state)) => !http.missing && answers state http sent
    | _ => false
  | .handleBody sent => c.http.any (fun http => answers c.state http sent)
  | _ => false

/-- A connection with a flag that is set once the 101 response has been sent on it. -/
structure Handshake where
  conn : Connection
  answered : Bool

def Step (s : Handshake) (a : Action) (s' : Handshake) : Prop :=
  LoggedInUser.Step s.conn a s'.conn ∧ s'.answered = (s.answered || answersBy s.conn a)

def opened : Handshake := ⟨accepted, false⟩

def AsksWebsocket (head : Head) : Prop :=
  head.table.handled.state.upgradePending = true ∧ head.table.get "Upgrade" = some (utf8 "websocket")

/-- A message that asks for the upgrade comes with its whole body, and the answer is sent. -/
def Kept (s : Handshake) : Action → Prop
  | .httpParse buf sent => ∀ header rest head, strsplit httpEnd buf = some (header, rest) →
      parseHead s.conn.state header = .ok (some head) → AsksWebsocket head →
      head.table.handled.bodyLen ≤ actualBodyLen (parseBody rest) buf.length (headerLen header) ∧
        sent = true
  | _ => True

variable {s s' : Handshake} {a : Action} {state state' : ClientState} {head : Head} {sent : Bool}

theorem connectionToken_websocket (state : ClientState) (token : Bytes)
    (h : state.websocket = false) : (connectionToken state token).websocket = false := by
  rw [connectionToken]
  split
  · exact h
  · split
    · rfl
    · split <;> exact h

theorem handleUpgrade_websocket (h : handleUpgrade head.table = .ok state')
    (hws : head.table.handled.state.websocket = false) (hset : state'.websocket = true) :
    AsksWebsocket head ∧ state'.upgradePending = true := by
  rw [handleUpgrade] at h
  split at h
  · rename_i hpending
    split at h
    · cases h
    · rename_i val hget
      obtain rfl := Except.ok.inj h
      rw [handleHttpUpgrade] at hset ⊢
      split at hset
      · rename_i hval
        rw [hval] at hget
        exact ⟨⟨hpending, hget⟩, by rw [if_pos hval]; exact hpending⟩
      · rw [hws] at hset
        cases hset
  · obtain rfl := Except.ok.inj h
    rw [hws] at hset
    cases hset

theorem handledState_websocket {http : Http}
    (hset : (handledState state http sent).websocket = true) :
    state.websocket = true ∨ answers state http sent = true := by
  rw [handledState] at hset
  split at hset
  · rename_i hpending
    rw [serverHandleClientUpgrade] at hset
    split at hset
    · exact .inl hset
    · rename_i val hget
      dsimp only at hset
      split at hset
      · rename_i hval
        rw [hval.1] at hget
        simp [answers, hpending, hval.2, ForWebsocket, hget]
      · exact .inl hset
  · exact .inl hset

theorem Step.answered (h : Step s a s') (hkept : Kept s a)
    (hs : s.conn.state.websocket = true → s.answered = true)
    (hset : s'.conn.state.websocket = true) : s'.answered = true := by
  obtain ⟨conn, answered⟩ := s
  obtain ⟨conn', answered'⟩ := s'
  obtain ⟨hstep, hans⟩ := h
  dsimp only at hstep hans hs hset ⊢
  rw [hans]
  cases hstep with
  | @httpParse buf http state sent hhttp hws hparse =>
      obtain ⟨header, rest, head, hsplit, hhead, hup, rfl⟩ := parseHttp_ok_iff.mp hparse
      have hclear := parseHead_state connectionToken_websocket hhead hws
      have hasked (hbit : state.websocket = true) : sent = true ∧ AsksWebsocket head ∧
          state.upgradePending = true ∧
          head.table.handled.bodyLen ≤
            actualBodyLen (parseBody rest) buf.length (headerLen header) := by
        obtain ⟨hasks, hpending⟩ := handleUpgrade_websocket hup hclear hbit
        obtain ⟨hbody, hsent⟩ := hkept header rest head hsplit hhead hasks
        exact ⟨hsent, hasks, hpending, hbody⟩
      simp only [answersBy, hparse]
      split at hset
      · rename_i hmissing
        obtain ⟨-, -, -, hbody⟩ := hasked hset
        simp only [finish, decide_eq_true_eq] at hmissing
        omega
      · rename_i hmissing
        rw [Bool.eq_false_iff.mpr hmissing, Bool.not_false, Bool.true_and]
        rcases handledState_websocket hset with hbit | hnew
        · obtain ⟨hsent, hasks, hpending, -⟩ := hasked hbit
          have hfor : ForWebsocket (finish head (parseBody rest)
            (actualBodyLen (parseBody rest) buf.length (headerLen header))) := hasks.2
          simp [answers, hpending, hfor, hsent]
        · rw [hnew, Bool.or_true]
  | recvBody totalRecv hhttp => rw [hs hset, Bool.true_or]
  | @handleBody http sent hhttp =>
      rcases handledState_websocket hset with hold | hnew
      · rw [hs hold, Bool.true_or]
      · simp [answersBy, hhttp, hnew]
  | textFrame cmd queued hhttp hws hexec => rw [hs hws, Bool.true_or]
  | complete before found taken hpending =>
      have hbit : conn.state.websocket = true := by
        split at hset <;> exact hset
      rw [hs hbit, Bool.true_or]
  | markLoggedIn sent hassigned => rw [hs hset, Bool.true_or]

/-- In every run whose upgrade requests come with their whole body and are answered, the connection
is in websocket mode only after the answer. -/
theorem reachable_websocket_answered
    (h : Reachable (fun s => s = opened) (fun s a s' => Step s a s' ∧ Kept s a) s)
    (hset : s.conn.state.websocket = true) : s.answered = true := by
  have hinv : s.conn.state.websocket = true → s.answered = true := by
    refine h.invariant ?_ (fun _ _ _ hs hstep => hstep.1.answered hstep.2 hs)
    rintro _ rfl hset
    cases hset
  exact hinv hset

theorem handleUpgrade_asks (hasks : AsksWebsocket head)
    (h : handleUpgrade head.table = .ok state') :
    state'.websocket = true ∧ state'.upgradePending = true := by
  simp only [handleUpgrade, hasks.1, hasks.2, if_true, Except.ok.injEq] at h
  rw [← h, handleHttpUpgrade, if_pos rfl]
  exact ⟨rfl, hasks.1⟩

theorem handledState_keeps {http : Http} (h : state.websocket = true) :
    (handledState state http sent).websocket = true := by
  rw [handledState, serverHandleClientUpgrade]
  split
  · split
    · exact h
    · dsimp only
      split
      · rfl
      · exact h
  · exact h

/-- The condition is exact: a step that misses it leaves the bit set without an answer. -/
theorem Step.unanswered (h : Step s a s') (hs : s.answered = false) (hkept : ¬ Kept s a) :
    s'.conn.state.websocket = true ∧ s'.answered = false := by
  obtain ⟨conn, answered⟩ := s
  obtain ⟨conn', answered'⟩ := s'
  obtain ⟨hstep, hans⟩ := h
  dsimp only at hstep hans hs ⊢
  rw [hans, hs, Bool.false_or]
  cases hstep with
  | @httpParse buf http state sent hhttp hws hparse =>
      obtain ⟨header, rest, head, hsplit, hhead, hup, rfl⟩ := parseHttp_ok_iff.mp hparse
      have hneg : ∃ head', parseHead conn.state header = .ok (some head') ∧ AsksWebsocket head' ∧
          ¬ (head'.table.handled.bodyLen ≤
            actualBodyLen (parseBody rest) buf.length (headerLen header) ∧ sent = true) := by
        by_contra hall
        apply hkept
        intro header' rest' head' hsplit' hhead' hasks'
        by_contra hnot
        cases hsplit.symm.trans hsplit'
        exact hall ⟨head', hhead', hasks', hnot⟩
      obtain ⟨head', hhead', hasks, hnot⟩ := hneg
      cases hhead.symm.trans hhead'
      obtain ⟨hbit, hpending⟩ := handleUpgrade_asks hasks hup
      simp only [answersBy, hparse]
      split
      · rename_i hmissing
        rw [hmissing]
        exact ⟨hbit, rfl⟩
      · rename_i hmissing
        have hsent : sent = false := by
          cases sent with
          | false => rfl
          | true =>
              simp only [finish, decide_eq_true_eq] at hmissing
              exact absurd ⟨by omega, rfl⟩ hnot
        subst hsent
        exact ⟨handledState_keeps hbit, by simp [answers]⟩
  | _ => exact absurd trivial hkept

theorem kept_of_whole {buf : Bytes} {http : Http}
    (hparse : parseHttp s.conn.state buf = .ok (some (http, state)))
    (hmissing : http.missing = false) : Kept s (.httpParse buf true) := by
  intro header rest head hsplit hhead hasks
  obtain ⟨header', rest', head', hsplit', hhead', -, rfl⟩ := parseHttp_ok_iff.mp hparse
  cases hsplit.symm.trans hsplit'
  cases hhead.symm.trans hhead'
  simp only [finish, decide_eq_false_iff_not] at hmissing
  exact ⟨by omega, rfl⟩

def websocketMode : Connection := { accepted with state := ⟨false, true, false, false⟩ }

theorem reachable_websocket_answered_upgrade :
    ∃ answered, Reachable (fun s => s = opened) (fun s a s' => Step s a s' ∧ Kept s a)
      ⟨websocketMode, answered⟩ ∧ answered = true := by
  obtain ⟨http, hmissing, hstate, hparse⟩ := upgradeRequest_parses
  have hstep := LoggedInUser.Step.httpParse (c := accepted) true rfl rfl hparse
  rw [if_neg (by simp [hmissing]), hstate] at hstep
  let after : Handshake :=
    ⟨websocketMode, opened.answered || answersBy accepted (.httpParse upgradeRequest true)⟩
  have hkept : Kept opened (.httpParse upgradeRequest true) := kept_of_whole hparse hmissing
  have hnext : Step opened (.httpParse upgradeRequest true) after := ⟨hstep, rfl⟩
  have hstart : Reachable (fun s => s = opened) (fun s a s' => Step s a s' ∧ Kept s a) opened :=
    .start rfl
  have hrun := hstart.next ⟨hnext, hkept⟩
  exact ⟨_, hrun, reachable_websocket_answered hrun rfl⟩

def pendingRequest : Bytes :=
  utf8 "GET / HTTP/1.1\r\nConnection: Upgrade\r\nUpgrade: websocket\r\nContent-Length: 5\r\n\r\n"

theorem pendingRequest_parses : ∃ http, http.missing = true ∧
    parseHttp shortLive pendingRequest = .ok (some (http, upgrading)) := by
  refine ⟨⟨.req (utf8 "GET") (utf8 "/") (utf8 "HTTP/1.1"),
    [⟨utf8 "Connection", utf8 "Upgrade"⟩, ⟨utf8 "Upgrade", utf8 "websocket"⟩,
      ⟨utf8 "Content-Length", utf8 "5"⟩], 3, [], .heap .null 0, 5, none, true, 0⟩, rfl, ?_⟩
  decide +kernel

theorem websocket_before_answer : ∃ s, Reachable (fun s => s = opened) Step s ∧
    s.conn.state.websocket = true ∧ s.answered = false := by
  obtain ⟨http, hmissing, hparse⟩ := pendingRequest_parses
  have hstep := LoggedInUser.Step.httpParse (c := accepted) true rfl rfl hparse
  rw [if_pos hmissing] at hstep
  let after : Handshake := ⟨{ accepted with state := upgrading, http := some http },
    opened.answered || answersBy accepted (.httpParse pendingRequest true)⟩
  have hnext : Step opened (.httpParse pendingRequest true) after := ⟨hstep, rfl⟩
  have hstart : Reachable (fun s => s = opened) Step opened := .start rfl
  refine ⟨after, hstart.next hnext, rfl, ?_⟩
  simp [after, opened, answersBy, accepted, hparse, hmissing]

end ChityChat.UpgradeHandshake
