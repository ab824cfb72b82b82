import ChityChat.ServerEvents
import ChityChat.ServerHttp

namespace ChityChat.PendingBody

open ByteMemory ServerWebsocket ServerEvents

def bytesOf (es : List Recv) : List UInt8 := es.flatMap Recv.chunk

structure Pending (client : Client) (http : Http) : Prop where
  pending : client.recv.http = some http
  missing : http.totalRecv < http.bodyLen

structure Stores (http http' : Http) (bs : List UInt8) : Prop where
  within : http.totalRecv + bs.length ≤ http.bodyLen
  stored : Holds http'.body http.totalRecv bs
  kept : ∀ i, i < http.totalRecv → http'.body i = http.body i
  outside : ∀ i, http.bodyLen ≤ i → http'.body i = http.body i
  totalRecv : http'.totalRecv = http.totalRecv + bs.length
  bodyLen : http'.bodyLen = http.bodyLen

def extended (http : Http) (bs : List UInt8) : Http :=
  { http with
    body := write http.body http.totalRecv bs
    totalRecv := http.totalRecv + bs.length }

def withHttp (client : Client) (http : Option Http) : Client :=
  { client with recv := { client.recv with http := http } }

/-- The call of `server_handle_http` that an event leads to for a pending message, if any. -/
def handed (client : Client) (e : Recv) : Option (Client × Http) :=
  match client.recv.http with
  | none => none
  | some http =>
    if e.chunk ≠ [] ∧ http.bodyLen - http.totalRecv ≤ e.chunk.length then
      some (withHttp client (some (extended http e.chunk)), extended http e.chunk)
    else none

def handles (H : Handlers) (client : Client) : List Recv → List Http
  | [] => []
  | e :: es =>
    ((handed client e).map Prod.snd).toList ++ handles H (seReadClient H client e).2 es

variable {H : Handlers} {client : Client} {http : Http} {e : Recv} {es : List Recv}
  {bs cs : List UInt8}

theorem bytesOf_cons (e : Recv) (es : List Recv) : bytesOf (e :: es) = e.chunk ++ bytesOf es :=
  List.flatMap_cons

theorem extended_nil (http : Http) : extended http [] = http := by
  have hbody : write http.body http.totalRecv [] = http.body := by
    funext i
    exact write_outside http.body [] (lt_or_ge i http.totalRecv)
  rw [extended, hbody]
  rfl

theorem extended_extended (http : Http) (bs cs : List UInt8) :
    extended (extended http bs) cs = extended http (bs ++ cs) := by
  simp only [extended, write_write, List.length_append, Nat.add_assoc]

theorem extended_stores (h : http.totalRecv + bs.length ≤ http.bodyLen) :
    Stores http (extended http bs) bs where
  within := h
  stored := holds_write http.body http.totalRecv bs
  kept _ hi := write_outside http.body bs (.inl hi)
  outside _ hi := write_outside http.body bs (.inr (h.trans hi))
  totalRecv := rfl
  bodyLen := rfl

theorem Stores.read_full {http' : Http} (h : Stores http http' bs)
    (hfull : http.totalRecv + bs.length = http.bodyLen) :
    read http'.body 0 http.bodyLen = read http.body 0 http.totalRecv ++ bs := by
  have hlen : (read http.body 0 http.totalRecv).length = http.totalRecv := by
    simp [ByteMemory.read]
  have hkept : Holds http'.body 0 (read http.body 0 http.totalRecv) := by
    intro i b hb
    obtain ⟨hi, hib⟩ := List.getElem?_eq_some_iff.mp hb
    rw [hlen] at hi
    rw [Nat.zero_add, h.kept i hi, ← hib]
    simp [ByteMemory.read]
  have hall : Holds http'.body 0 (read http.body 0 http.totalRecv ++ bs) := by
    refine holds_append.mpr ⟨hkept, ?_⟩
    rw [hlen, Nat.zero_add]
    exact h.stored
  rw [← read_eq_of_holds hall, List.length_append, hlen, hfull]

theorem conclude_http (status : RecvStatus) (client : Client) :
    (conclude status client).2.recv.http = client.recv.http := by
  unfold conclude
  split
  · rfl
  · rfl

theorem seReadClient_handed (H : Handlers) (client : Client) (e : Recv) :
    seReadClient H client e = match handed client e with
      | some (c, http) => conclude .ok (withHttp (H.handleHttp c http) none)
      | none => seReadClient { H with handleHttp := fun c _ => c } client e := by
  rw [handed]
  cases hhttp : client.recv.http with
  | none => simp only [seReadClient, hhttp]
  | some http =>
      dsimp only
      by_cases hcall : e.chunk ≠ [] ∧ http.bodyLen - http.totalRecv ≤ e.chunk.length
      · rw [if_pos hcall]
        simp only [seReadClient, hhttp, if_neg hcall.1, if_pos hcall.2]
        rfl
      · rw [if_neg hcall]
        by_cases hchunk : e.chunk = []
        · simp only [seReadClient, hhttp, if_pos hchunk]
        · have hmore : ¬ http.bodyLen - http.totalRecv ≤ e.chunk.length :=
            fun hle => hcall ⟨hchunk, hle⟩
          simp only [seReadClient, hhttp, if_neg hchunk, if_neg hmore]

theorem Pending.piece (h : Pending client http) (hchunk : e.chunk ≠ [])
    (hmore : http.totalRecv + e.chunk.length < http.bodyLen) :
    handed client e = none ∧
      seReadClient H client e =
        conclude .ok (withHttp client (some (extended http e.chunk))) := by
  have hle : ¬ http.bodyLen - http.totalRecv ≤ e.chunk.length := by omega
  constructor
  · simp only [handed, h.pending, if_neg (fun hc : _ ∧ _ => hle hc.2)]
  · simp only [seReadClient, h.pending, if_neg hchunk, if_neg hle]
    rfl

theorem Pending.piece_pending (h : Pending client http) (hchunk : e.chunk ≠ [])
    (hmore : http.totalRecv + e.chunk.length < http.bodyLen) :
    Pending (seReadClient H client e).2 (extended http e.chunk) where
  pending := by
    rw [(h.piece hchunk hmore).2, conclude_http]
    rfl
  missing := hmore

theorem Pending.last (h : Pending client http) (hchunk : e.chunk ≠ [])
    (hlast : http.totalRecv + e.chunk.length = http.bodyLen) :
    handed client e =
      some (withHttp client (some (extended http e.chunk)), extended http e.chunk) := by
  have hle : http.bodyLen - http.totalRecv ≤ e.chunk.length := by omega
  simp only [handed, h.pending]
  exact if_pos ⟨hchunk, hle⟩

/-- A pending message stays pending as long as bytes are missing, whatever the handlers do. -/
theorem Pending.run (h : Pending client http) (hfits : Fits H client es)
    (hmore : http.totalRecv + (bytesOf es).length < http.bodyLen) :
    handles H client es = [] ∧ (∀ H', seReadRun H' client es = seReadRun H client es) ∧
      (seReadRun H client es).2.recv.http = some (extended http (bytesOf es)) := by
  induction es generalizing client http with
  | nil =>
      refine ⟨rfl, fun _ => rfl, ?_⟩
      rw [seReadRun, h.pending]
      exact congrArg some (extended_nil http).symm
  | cons e es ih =>
      obtain ⟨hchunk, -, hfits⟩ := hfits
      rw [bytesOf_cons, List.length_append, ← Nat.add_assoc] at hmore
      have hpiece : http.totalRecv + e.chunk.length < http.bodyLen := by omega
      obtain ⟨hnone, -⟩ := h.piece (H := H) hchunk hpiece
      have hsame (H' : Handlers) : seReadClient H' client e = seReadClient H client e :=
        (h.piece hchunk hpiece).2.trans (h.piece hchunk hpiece).2.symm
      obtain ⟨hcalls, hruns, hleft⟩ := ih (h.piece_pending hchunk hpiece) hfits hmore
      refine ⟨?_, fun H' => ?_, ?_⟩
      · rw [handles, hnone, hcalls]
        rfl
      · rw [seReadRun, seReadRun, hsame H', hruns H']
      · rw [seReadRun, hleft, extended_extended, bytesOf_cons]

theorem Pending.split (h : Pending client http) (hfits : Fits H client es)
    (henough : http.bodyLen ≤ http.totalRecv + (bytesOf es).length) :
    ∃ done e rest, es = done ++ e :: rest ∧ Fits H client done ∧ e.chunk ≠ [] ∧
      http.totalRecv + (bytesOf done).length < http.bodyLen ∧
      http.totalRecv + (bytesOf done).length + e.chunk.length = http.bodyLen := by
  induction es generalizing client http with
  | nil => exact absurd h.missing (Nat.not_lt.mpr henough)
  | cons e es ih =>
      obtain ⟨hchunk, hasked, hfits⟩ := hfits
      simp only [asked, h.pending] at hasked
      have hmissing := h.missing
      obtain hpiece | hlast : http.totalRecv + e.chunk.length < http.bodyLen ∨
          http.totalRecv + e.chunk.length = http.bodyLen := by omega
      · rw [bytesOf_cons, List.length_append, ← Nat.add_assoc] at henough
        obtain ⟨done, e', rest, rfl, hdone, hchunk', hbefore, hlast⟩ :=
          ih (h.piece_pending hchunk hpiece) hfits henough
        refine ⟨e :: done, e', rest, rfl, ⟨hchunk, ?_, hdone⟩, hchunk', ?_, ?_⟩
        · simpa only [asked, h.pending] using hasked
        · rwa [bytesOf_cons, List.length_append, ← Nat.add_assoc]
        · rwa [bytesOf_cons, List.length_append, ← Nat.add_assoc]
      · exact ⟨[], e, es, rfl, trivial, hchunk, hmissing, hlast⟩

theorem Pending.complete (h : Pending client http) (hchunk : e.chunk ≠ [])
    (hlast : http.totalRecv + e.chunk.length = http.bodyLen) :
    handles H client [e] = [extended http e.chunk] ∧
      (seReadRun H client [e]).2 = (conclude .ok (withHttp (H.handleHttp
        (withHttp client (some (extended http e.chunk))) (extended http e.chunk)) none)).2 := by
  have hhanded := h.last hchunk hlast
  constructor
  · rw [handles, hhanded]
    rfl
  · rw [seReadRun, seReadClient_handed, hhanded]
    rfl

theorem seReadRun_append (H : Handlers) (client : Client) (es fs : List Recv) :
    (seReadRun H client (es ++ fs)).2 = (seReadRun H (seReadRun H client es).2 fs).2 := by
  induction es generalizing client with
  | nil => rfl
  | cons e es ih => exact ih (seReadClient H client e).2

theorem handles_append (H : Handlers) (client : Client) (es fs : List Recv) :
    handles H client (es ++ fs) =
      handles H client es ++ handles H (seReadRun H client es).2 fs := by
  induction es generalizing client with
  | nil => rfl
  | cons e es ih =>
      rw [List.cons_append, handles, ih, handles, List.append_assoc]
      rfl

theorem bytesOf_append (es fs : List Recv) : bytesOf (es ++ fs) = bytesOf es ++ bytesOf fs :=
  List.flatMap_append

/-- What `parse_http` leaves with a part of its body missing is a pending message, whatever the new
block holds. -/
theorem parseHttp_pending {state state' : ServerHttp.ClientState} {buf : List UInt8}
    {parsed : ServerHttp.Http}
    (h : ServerHttp.parseHttp state buf = .ok (some (parsed, state')))
    (hmissing : parsed.missing = true) (client : Client) (body : Memory UInt8) :
    Pending (withHttp client (some ⟨body, parsed.bodyLen, parsed.totalRecv⟩))
      ⟨body, parsed.bodyLen, parsed.totalRecv⟩ where
  pending := rfl
  missing := by
    obtain ⟨_, _, head, -, -, -, rfl⟩ := ServerHttp.parseHttp_ok_iff.mp h
    have hfew := of_decide_eq_true hmissing
    simp only [ServerHttp.finish, if_pos (decide_eq_true hfew)]
    exact hfew.2

/-- For every message that is pending and every sequence of reads: the bytes are stored one behind
the other inside the block, and the handler is called once, at the event with the last byte, with
all the bytes of the body; then no message is pending. -/
theorem pendingBody_completes (H : Handlers) (h : Pending client http) (hfits : Fits H client es) :
    (http.totalRecv + (bytesOf es).length < http.bodyLen →
      handles H client es = [] ∧ (∀ H', seReadRun H' client es = seReadRun H client es) ∧
        ∃ http', (seReadRun H client es).2.recv.http = some http' ∧
          Stores http http' (bytesOf es)) ∧
      (http.bodyLen ≤ http.totalRecv + (bytesOf es).length →
        ∃ done e rest c http', es = done ++ e :: rest ∧
          http.totalRecv + (bytesOf (done ++ [e])).length = http.bodyLen ∧
          handles H client done = [] ∧ handles H client (done ++ [e]) = [http'] ∧
          Stores http http' (bytesOf (done ++ [e])) ∧
          read http'.body 0 http.bodyLen =
            read http.body 0 http.totalRecv ++ bytesOf (done ++ [e]) ∧
          c.recv.http = some http' ∧
          (seReadRun H client (done ++ [e])).2 =
            (conclude .ok (withHttp (H.handleHttp c http') none)).2 ∧
          (seReadRun H client (done ++ [e])).2.recv.http = none) := by
  constructor
  · intro hmore
    obtain ⟨hcalls, hruns, hleft⟩ := h.run hfits hmore
    exact ⟨hcalls, hruns, _, hleft, extended_stores hmore.le⟩
  · intro henough
    obtain ⟨done, e, rest, rfl, hdone, hchunk, hbefore, hlast⟩ := h.split hfits henough
    obtain ⟨hcalls, -, hleft⟩ := h.run hdone hbefore
    have hpending : Pending (seReadRun H client done).2 (extended http (bytesOf done)) :=
      ⟨hleft, hbefore⟩
    have hbytes : bytesOf (done ++ [e]) = bytesOf done ++ e.chunk := by
      rw [bytesOf_append, bytesOf_cons]
      exact congrArg _ (List.append_nil _)
    obtain ⟨hhandles, hrun⟩ := hpending.complete (H := H) hchunk hlast
    rw [extended_extended, ← hbytes] at hhandles hrun
    rw [← seReadRun_append] at hrun
    have hlen : http.totalRecv + (bytesOf (done ++ [e])).length = http.bodyLen := by
      rw [hbytes, List.length_append, ← Nat.add_assoc]
      exact hlast
    have hstores := extended_stores hlen.le
    refine ⟨done, e, rest, _, _, rfl, hlen, hcalls, ?_, hstores, hstores.read_full hlen, rfl, hrun,
      ?_⟩
    · rw [handles_append, hcalls, hhandles]
      rfl
    · rw [hrun, conclude_http]
      rfl

def quarterBody : Http := ⟨write (fun _ => 0) 0 [97], 4, 1⟩

def waiting : Client := ⟨false, ⟨fun _ => 0, 0, 0, 0, false, some quarterBody⟩, []⟩

def ignoring : Handlers := ⟨fun _ => .ok, fun client _ => (.ok, client), fun client _ => client⟩

def twoPieces : List Recv :=
  [⟨[98], fun _ => 0, fun _ => 0⟩, ⟨[99, 100], fun _ => 0, fun _ => 0⟩]

theorem pendingBody_completes_twoPieces :
    ∃ done e rest http', twoPieces = done ++ e :: rest ∧
      handles ignoring waiting (done ++ [e]) = [http'] ∧
      read http'.body 0 4 = 97 :: bytesOf (done ++ [e]) := by
  have hpending : Pending waiting quarterBody := ⟨rfl, by decide⟩
  have hfits : Fits ignoring waiting twoPieces :=
    ⟨by decide, by decide, by decide, by decide, trivial⟩
  obtain ⟨done, e, rest, _, http', hes, -, -, hcalls, -, hread, -⟩ :=
    (pendingBody_completes ignoring hpending hfits).2 (by decide)
  exact ⟨done, e, rest, http', hes, hcalls, hread⟩

end ChityChat.PendingBody
