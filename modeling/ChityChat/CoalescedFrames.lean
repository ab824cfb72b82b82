import ChityChat.WebsocketStream

namespace ChityChat.CoalescedFrames

open ByteMemory ServerWebsocket WebsocketFrame ServerEvents WebsocketStream

variable {textFrame : List Dispatch → RecvStatus} {client : Client} {f : ClientFrame}
  {fs done rest : List ClientFrame} {log : List Dispatch} {r : RecvStatus × Client} {pos : Nat}

/-- The status with which a frame ends the processing. The log includes the frame. -/
def stops (textFrame : List Dispatch → RecvStatus) (f : ClientFrame) (log : List Dispatch) :
    Option RecvStatus :=
  if f.opcode = wsCloseFrame then some .disconnect
  else if answer textFrame f log = .ok then none
  else some (answer textFrame f log)

def opened (f : ClientFrame) : List UInt8 := f.head ++ f.payload

theorem opened_length (f : ClientFrame) : (opened f).length = f.encode.length := by
  rw [opened, List.length_append, f.encode_length]

structure Coalesced (textFrame : List Dispatch → RecvStatus) (client : Client) (pos : Nat)
    (frames : List ClientFrame) (r : RecvStatus × Client) (done rest : List ClientFrame)
    (log : List Dispatch) : Prop where
  split : frames = done ++ rest
  seen : log.map Dispatch.content = done.map ClientFrame.content
  dispatched : r.2.dispatched = client.dispatched ++ log
  goesOn : ∀ i g, i + 1 < done.length → done[i]? = some g →
    stops textFrame g (client.dispatched ++ log.take (i + 1)) = none
  ends : ∃ g, done.getLast? = some g ∧ (stops textFrame g r.2.dispatched = some r.1 ∨
    stops textFrame g r.2.dispatched = none ∧ rest = [] ∧ r.1 = .ok)
  busy : r.2.recv.busy =
    if ∃ g ∈ done, g.opcode = wsCloseFrame then client.recv.busy else false
  buffer : Holds r.2.recv.data pos (done.flatMap opened ++ encodeAll rest)
  outside : ∀ i, i < pos ∨ pos + (encodeAll frames).length ≤ i →
    r.2.recv.data i = client.recv.data i

theorem coalesced_last (hm : Holds client.recv.data pos (encodeAll (f :: rest)))
    (hdata : r.2.recv.data = unmasked client.recv.data pos f)
    (hlog : r.2.dispatched = client.dispatched ++ [dispatchOf client pos f])
    (hbusy : r.2.recv.busy = if f.opcode = wsCloseFrame then client.recv.busy else false)
    (hopen : Holds (unmasked client.recv.data pos f) pos (opened f))
    (hend : stops textFrame f r.2.dispatched = some r.1 ∨
      stops textFrame f r.2.dispatched = none ∧ rest = [] ∧ r.1 = .ok) :
    Coalesced textFrame client pos (f :: rest) r [f] rest [dispatchOf client pos f] where
  split := rfl
  seen := rfl
  dispatched := hlog
  goesOn := by
    intro i g hi
    simp at hi
  ends := ⟨f, rfl, hend⟩
  busy := by simpa using hbusy
  buffer := by
    rw [List.flatMap_singleton, holds_append, opened_length, hdata]
    rw [encodeAll_cons, holds_append] at hm
    exact ⟨hopen, holds_congr hm.2 (fun i _ => unmasked_outside _ _ _ (.inr (by omega)))⟩
  outside := by
    intro i hi
    have hlen := f.encode_length
    rw [encodeAll_cons, List.length_append] at hi
    rw [hdata, unmasked_outside _ _ _ (by omega)]

theorem Coalesced.cons (hstop : stops textFrame f (client.dispatched ++ [dispatchOf client pos f]) =
      none)
    (hclose : f.opcode ≠ wsCloseFrame)
    (hopen : Holds (unmasked client.recv.data pos f) pos (opened f))
    (h : Coalesced textFrame
      (advanced client (unmasked client.recv.data pos f) [dispatchOf client pos f])
      (pos + f.encode.length) fs r done rest log) :
    Coalesced textFrame client pos (f :: fs) r (f :: done) rest
      (dispatchOf client pos f :: log) where
  split := by rw [h.split, List.cons_append]
  seen := by
    rw [List.map_cons, List.map_cons, h.seen]
    rfl
  dispatched := by
    rw [h.dispatched, advanced, List.append_assoc, List.singleton_append]
  goesOn := by
    intro i g hi hg
    cases i with
    | zero =>
        obtain rfl : f = g := by simpa using hg
        simpa using hstop
    | succ i =>
        have := h.goesOn i g (by simpa using hi) (by simpa using hg)
        simpa [advanced] using this
  ends := by
    obtain ⟨g, hg, hend⟩ := h.ends
    exact ⟨g, by simp [List.getLast?_cons, hg], hend⟩
  busy := by
    have hbusy := h.busy
    simp only [advanced] at hbusy
    simpa [hclose] using hbusy
  buffer := by
    rw [List.flatMap_cons, List.append_assoc, holds_append, opened_length]
    refine ⟨holds_congr hopen ?_, h.buffer⟩
    intro i hi
    rw [opened_length] at hi
    exact h.outside _ (.inl (by omega))
  outside := by
    intro i hi
    have hlen := f.encode_length
    rw [encodeAll_cons, List.length_append] at hi
    rw [h.outside i (by omega)]
    exact unmasked_outside _ _ _ (by omega)

theorem serverWsParse_first (grown : Memory UInt8)
    (hm : Holds client.recv.data pos (encodeAll (f :: fs))) :
    let next := advanced client (unmasked client.recv.data pos f) [dispatchOf client pos f]
    let parsed := serverWsParse textFrame grown client pos (encodeAll (f :: fs)).length
    Coalesced textFrame client pos (f :: fs) parsed [f] fs [dispatchOf client pos f] ∨
      f.opcode ≠ wsCloseFrame ∧ stops textFrame f next.dispatched = none ∧ fs ≠ [] ∧
        parsed = serverWsParse textFrame grown next (pos + f.encode.length) (encodeAll fs).length := by
  intro next parsed
  have hlen : (encodeAll (f :: fs)).length = f.encode.length + (encodeAll fs).length := by
    rw [encodeAll_cons, List.length_append]
  have hf := (holds_append.mp (encodeAll_cons f fs ▸ hm)).1
  have hopen := unmasked_holds hf
  have heq : parsed = _ := serverWsParse_whole client grown hf (by omega)
  clear_value parsed
  by_cases hclose : f.opcode = wsCloseFrame
  · rw [if_pos hclose] at heq
    refine .inl (coalesced_last hm ?_ ?_ ?_ hopen (.inl ?_)) <;> rw [heq]
    · rfl
    · rfl
    · rw [if_pos hclose]
      rfl
    · rw [stops, if_pos hclose]
  · rw [if_neg hclose] at heq
    have hstop : stops textFrame f next.dispatched =
        if answer textFrame f next.dispatched = .ok then none
        else some (answer textFrame f next.dispatched) := by
      rw [stops, if_neg hclose]
    by_cases hgo : answer textFrame f next.dispatched = .ok ∧ fs ≠ []
    · obtain ⟨g, gs, rfl⟩ := List.exists_cons_of_ne_nil hgo.2
      have hpos : 0 < (encodeAll (g :: gs)).length := by
        rw [encodeAll_cons, List.length_append]
        exact Nat.add_pos_left g.encode_pos _
      rw [if_pos ⟨by omega, hgo.1⟩, hlen, Nat.add_sub_cancel_left] at heq
      exact .inr ⟨hclose, by rw [hstop, if_pos hgo.1], hgo.2, heq⟩
    · have hlast : ¬ (f.encode.length < (encodeAll (f :: fs)).length ∧
          answer textFrame f next.dispatched = .ok) := by
        rintro ⟨hlt, hok⟩
        refine hgo ⟨hok, ?_⟩
        rintro rfl
        simp [encodeAll] at hlt
      rw [if_neg hlast] at heq
      refine .inl (coalesced_last hm ?_ ?_ ?_ hopen ?_) <;> rw [heq]
      · rfl
      · rfl
      · rw [if_neg hclose]
        rfl
      · by_cases hok : answer textFrame f next.dispatched = .ok
        · exact .inr ⟨hstop.trans (if_pos hok), not_not.mp (fun hne => hgo ⟨hok, hne⟩), hok⟩
        · exact .inl (hstop.trans (if_neg hok))

/-- Frames laid end to end are handled in order up to the first one that stops the processing, and
each of them is unmasked in its own bytes only. -/
theorem serverWsParse_coalesced (textFrame : List Dispatch → RecvStatus) (grown : Memory UInt8)
    (client : Client) (pos : Nat) (f : ClientFrame) (fs : List ClientFrame)
    (hm : Holds client.recv.data pos (encodeAll (f :: fs))) :
    ∃ done rest log, Coalesced textFrame client pos (f :: fs)
      (serverWsParse textFrame grown client pos (encodeAll (f :: fs)).length) done rest log := by
  induction fs generalizing f client pos with
  | nil =>
      rcases serverWsParse_first grown hm with h | ⟨-, -, hne, -⟩
      · exact ⟨_, _, _, h⟩
      · exact absurd rfl hne
  | cons g gs ih =>
      rcases serverWsParse_first grown hm with h | ⟨hclose, hstop, -, heq⟩
      · exact ⟨_, _, _, h⟩
      · rw [heq]
        obtain ⟨hf, hrest⟩ := holds_append.mp (encodeAll_cons f (g :: gs) ▸ hm)
        obtain ⟨done, rest, log, h⟩ := ih
          (advanced client (unmasked client.recv.data pos f) [dispatchOf client pos f])
          (pos + f.encode.length) g
          (holds_congr hrest (fun i _ => unmasked_outside _ _ _ (.inr (by omega))))
        exact ⟨_, _, _, h.cons hstop hclose (unmasked_holds hf)⟩

def closing : ClientFrame := ⟨0x88, false, none, [], by decide⟩

theorem serverWsParse_coalesced_closing :
    let f : ClientFrame := ⟨0x81, false, some (fun i => [1, 2, 3, 4].get i), [104, 105], by decide⟩
    let frames := [f, closing, f]
    ∃ done rest log, Coalesced (fun _ => .ok) (holding (encodeAll frames)) 0 frames
      (serverWsParse (fun _ => .ok) (fun _ => 0) (holding (encodeAll frames)) 0
        (encodeAll frames).length) done rest log := by
  intro f frames
  exact serverWsParse_coalesced _ _ _ 0 f [closing, f] (holding_holds _)

/-- The end of a close frame came in a chunk of its own: `recv.busy` is still set. -/
theorem closing_stays_busy :
    let client := received (seReadRun idle upgraded [delivered [0x88]]).2 (delivered [0])
    let r := serverWsParse idle.textFrame (fun _ => 0) client 0 (encodeAll [closing]).length
    Holds client.recv.data 0 (encodeAll [closing]) ∧ r.1 = .disconnect ∧
      r.2.dispatched.map Dispatch.content = [closing].map ClientFrame.content ∧
      r.2.recv.busy = true := by
  intro client r
  refine ⟨?_, by decide +kernel, by decide +kernel, by decide +kernel⟩
  exact holds_cons.mpr ⟨by decide +kernel, holds_cons.mpr ⟨by decide +kernel, holds_nil _ _⟩⟩

end ChityChat.CoalescedFrames
