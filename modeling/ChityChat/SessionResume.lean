import ChityChat.RefusedLogin
import ChityChat.ServerHtAnyKey
import ChityChat.TextFrame

namespace ChityChat.SessionResume

open ServerHt JsonC
open RefusedLogin (Session)

variable {S L : Type}

/-- `session_ht`, with what its pointers point to. Every session is stored under its own id. -/
structure SessionTable (S L : Type) where
  ht : ServerGht S L
  sessions : S → Session
  linked : Linked ht
  keyed : ∀ e ∈ ht.entries, e.1 = (sessions e.2).sessionId.toNat

def Live (table : SessionTable S L) (session : S) : Prop :=
  ∃ key, (key, session) ∈ table.ht.entries

def serverGetUserSession (table : SessionTable S L) (sessionId : UInt32) : Option S :=
  serverGhtGet table.ht sessionId.toNat

def serverClientLoginSession (table : SessionTable S L) (payload : JsonObject) :
    Except String (S × UInt32) := do
  let sessionId ← TextFrame.uint64Field payload "id"
  match serverGetUserSession table sessionId with
  | none => throw "Invalid session ID or session expired"
  | some session => return (session, (table.sessions session).userId)

/-- An id resumes the session that has it, for the user of that session, and nothing else. -/
def ResumesExactly (table : SessionTable S L) (v : Int) : Prop :=
  ∀ payload session userId, payload.objectGet "id" = .int v →
    serverClientLoginSession table payload = .ok (session, userId) →
      Live table session ∧ v = (table.sessions session).sessionId.toNat ∧
        userId = (table.sessions session).userId

def sessionIdOf (v : Int) : UInt32 := UInt32.ofNat (min v.toNat (2 ^ 64 - 1))

variable {table : SessionTable S L} {v : Int}

theorem get_linked_iff {ht : ServerGht S L} (h : Linked ht) (key : Nat) (session : S) :
    serverGhtGet ht key = some session ↔ (key, session) ∈ ht.entries := by
  rw [h.get_iff]
  refine ⟨mem_entries_of_chain, fun hm => ?_⟩
  obtain ⟨c, hc, he⟩ := List.mem_flatMap.mp hm
  obtain ⟨i, hi⟩ := List.mem_iff_getElem?.mp hc
  have hplace : ghtHash ht key = i := (h.chains i c hi).placed _ he
  rwa [ghtChain, hplace, List.getD_eq_getElem?_getD, hi, Option.getD_some]

theorem uint64Field_int {payload : JsonObject} (h : payload.objectGet "id" = .int v) :
    TextFrame.uint64Field payload "id" = .ok (sessionIdOf v) := by
  rw [TextFrame.uint64Field, h]
  rfl

theorem serverClientLoginSession_ok {payload : JsonObject} {session : S} {userId : UInt32}
    (h : payload.objectGet "id" = .int v) :
    serverClientLoginSession table payload = .ok (session, userId) ↔
      serverGetUserSession table (sessionIdOf v) = some session ∧
        (table.sessions session).userId = userId := by
  rw [serverClientLoginSession, uint64Field_int h]
  simp only [bind, Except.bind]
  split
  · next hget => simp [hget, throw, throwThe, MonadExceptOf.throw]
  · next found hget =>
      rw [hget]
      constructor
      · intro h
        cases h
        exact ⟨rfl, rfl⟩
      · rintro ⟨h, rfl⟩
        cases h
        rfl

theorem sessionIdOf_toNat (h0 : 0 ≤ v) (hlt : v < 2 ^ 32) : ((sessionIdOf v).toNat : Int) = v := by
  have hsmall : min v.toNat (2 ^ 64 - 1) < 2 ^ 32 := by omega
  rw [sessionIdOf, UInt32.toNat_ofNat_of_lt' hsmall]
  omega

theorem serverGetUserSession_iff (table : SessionTable S L) (sessionId : UInt32) (session : S) :
    serverGetUserSession table sessionId = some session ↔
      Live table session ∧ (table.sessions session).sessionId = sessionId := by
  rw [serverGetUserSession, get_linked_iff table.linked]
  constructor
  · intro hm
    exact ⟨⟨_, hm⟩, UInt32.toNat_inj.mp (table.keyed _ hm).symm⟩
  · rintro ⟨⟨key, hm⟩, rfl⟩
    rwa [← table.keyed _ hm]

/-- An id between the bounds of a session id is looked up as it is. Any other one is cut, and must not
become the id of a session. -/
theorem resumesExactly_iff (table : SessionTable S L) (v : Int) :
    ResumesExactly table v ↔ 0 ≤ v ∧ v < 2 ^ 32 ∨
      ∀ session, Live table session → (table.sessions session).sessionId ≠ sessionIdOf v := by
  constructor
  · intro h
    by_contra hnot
    rw [not_or, not_forall] at hnot
    obtain ⟨hrange, session, hsession⟩ := hnot
    rw [Classical.not_imp, not_not] at hsession
    have hget := (serverGetUserSession_iff table _ session).mpr hsession
    have hpayload : (JsonObject.object [("id", .int v)]).objectGet "id" = .int v := rfl
    obtain ⟨-, hv, -⟩ := h _ session _ hpayload
      ((serverClientLoginSession_ok hpayload).mpr ⟨hget, rfl⟩)
    have hlt := (table.sessions session).sessionId.toNat_lt
    omega
  · rintro (⟨h0, hlt⟩ | hnone) payload session userId hpayload hok
    · obtain ⟨hget, huser⟩ := (serverClientLoginSession_ok hpayload).mp hok
      obtain ⟨hlive, hid⟩ := (serverGetUserSession_iff table _ session).mp hget
      exact ⟨hlive, by rw [hid, sessionIdOf_toNat h0 hlt], huser.symm⟩
    · obtain ⟨hget, -⟩ := (serverClientLoginSession_ok hpayload).mp hok
      obtain ⟨hlive, hid⟩ := (serverGetUserSession_iff table _ session).mp hget
      exact absurd hid (hnone session hlive)

def oneSession : SessionTable Unit ℚ where
  ht := (serverGhtInsert exactLoad (emptyGht exactLoad 4 true) 5 (some ())).2
  sessions := fun _ => ⟨5, 1, 0⟩
  linked := reachable_linked (A := exactLoad) ((Transition.Reachable.start ⟨4, true, rfl⟩).next
    (a := .insert 5 (some ())) ⟨by decide, rfl⟩)
  keyed := by decide +kernel

/-- 2^32 + 5 resumes the session 5. -/
theorem oneSession_cut : ¬ ∀ (table : SessionTable Unit ℚ) (v : Int), ResumesExactly table v := by
  intro hall
  have hget : serverGetUserSession oneSession (sessionIdOf (2 ^ 32 + 5)) = some () := by
    decide +kernel
  have hpayload : (JsonObject.object [("id", .int (2 ^ 32 + 5))]).objectGet "id" =
      .int (2 ^ 32 + 5) := rfl
  obtain ⟨-, hv, -⟩ := hall oneSession (2 ^ 32 + 5) _ () _ hpayload
    ((serverClientLoginSession_ok hpayload).mpr ⟨hget, rfl⟩)
  revert hv
  decide

section Handler

variable {C T : Type}

open TextFrame (Frame Handler Env)

def queueLogin (env : Env S T) (session : S) (userId : UInt32) : Handler C S T Unit :=
  TextFrame.queue env ⟨"SELECT * FROM Users WHERE user_id = $1::int;",
    [TextFrame.uintStr userId.toNat], .doClientLoginSession session⟩ "Internal error: async-get-user"

/-- The handler of the command finds the sessions of the table. -/
theorem serverClientLoginSession_handler (table : SessionTable S L) (env : Env S T)
    (payload : JsonObject) {x : Frame C S T}
    (hht : ∀ id, x.server.sessionHt id = serverGetUserSession table id)
    (husers : ∀ session, x.server.sessions session = some (table.sessions session).userId.toNat) :
    (TextFrame.serverClientLoginSession env payload : Handler C S T Unit).run.run x =
      match serverClientLoginSession table payload with
      | .error errmsg => (.error errmsg, x)
      | .ok (session, userId) => (queueLogin env session userId : Handler C S T Unit).run.run x := by
  rw [TextFrame.serverClientLoginSession, serverClientLoginSession]
  cases hid : TextFrame.uint64Field payload "id" with
  | error errmsg => rfl
  | ok id =>
      change (match x.server.sessionHt id with
        | none => _
        | some session => _ : Handler C S T Unit).run.run x = _
      rw [hht]
      cases hget : serverGetUserSession table id with
      | none =>
          simp only [bind, Except.bind, hget]
          rfl
      | some session =>
          simp only [bind, Except.bind, hget]
          rw [husers]
          rfl

end Handler

section Callback

variable {C Salt Hash : Type} [DecidableEq C] [DecidableEq S]

open RefusedLogin (Server Dbuser doClientLoginSession stopTimer)

omit [DecidableEq C] in
theorem stopTimer_clients (s : Server C S Salt Hash L) (session : S) :
    (stopTimer s session).clients = s.clients := by
  rw [stopTimer]
  split <;> rfl

/-- A client that is logged in is logged in as the user that the query found. -/
theorem doClientLoginSession_user (A : LoadFactor L) {s s' : Server C S Salt Hash L} {c : C}
    {param : S} {data : Dbuser Salt Hash} {sent : Bool}
    (h : doClientLoginSession A s c param true data sent = (none, s')) :
    (s'.clients c).dbuser = some data := by
  rw [doClientLoginSession, if_neg (by decide), RefusedLogin.serverSetClientLoggedIn] at h
  split at h
  · cases h
  · cases h
    simp only [Option.elim_some, stopTimer_clients]
    split <;> simp [Server.modify]

end Callback

end ChityChat.SessionResume
