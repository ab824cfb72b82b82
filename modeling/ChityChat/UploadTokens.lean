import ChityChat.UnlinkConfinement

namespace ChityChat.UploadTokens

open Transition MsgAttachments UnlinkConfinement

/-- How far an insert is: sent, through in the database, or back from `insert_group_msg_result`,
each time with whether there is a row. -/
inductive Stage
  | sent
  | executed (ok : Bool)
  | answered (ok : Bool)

structure Insert where
  msg : Msg
  stage : Stage

def Insert.executed (insert : Insert) : Bool :=
  match insert.stage with
  | .sent => false
  | .executed _ => true
  | .answered _ => true

/-- A token in memory, whether `upload_token_ht` has it, the descriptor of its timer's event as long
as there is one, its inserts that wait for their callback and its rows of `Messages`. The other
fields count calls of `server_ght_del` and `free`, and record a use of the freed memory. -/
structure State where
  ut : UploadToken
  timerfd : Int
  listed : Bool
  event : Option Int
  inserts : List Insert
  messages : List Msg
  removed : Nat
  freed : Nat
  misused : Bool

def touch (x : State) : State := { x with misused := x.misused || decide (0 < x.freed) }

/-- `server_del_upload_token` behind the timer. -/
def freeToken (x : State) : State :=
  { x with
    listed := false
    removed := if x.listed then x.removed + 1 else x.removed
    freed := x.freed + 1 }

def timerUt (x : State) : State := freeToken { touch x with timerfd := 0 }

/-- `server_del_event` of the timer's event, whose close callback runs the timer. -/
def serverDelEvent (x : State) (keepData : Bool) : State :=
  { (if keepData then x else timerUt x) with event := none }

def serverDelUploadToken (x : State) : State :=
  let x := touch x
  if x.timerfd ≠ 0 ∧ x.event = some x.timerfd then freeToken (touch (serverDelEvent x false))
  else freeToken x

/-- `server_get_event` finds no other event under the descriptor of the timer, or under 0. -/
def doInsertMsgAfter (x : State) : State :=
  let x := touch x
  if x.event = some x.timerfd then serverDelEvent x false else serverDelUploadToken x

/-- `server_process_event` of the timer's event, whose `read` may fail. -/
def seTimerRead (x : State) (ok : Bool) : State :=
  if ok then serverDelEvent (timerUt x) true else serverDelEvent x false

/-- An upload, whether the statements for its file were sent, and whether the insert is sent if it
comes to it. -/
structure Post where
  upload : Upload
  saved : Bool
  sent : Bool

def accepted (libs : Libs) (x : State) (post : Post) : Option Accepted :=
  if post.saved then serverHandleMsgAttach libs x.ut post.upload else none

def serverHandleUserUpload (libs : Libs) (x : State) (post : Post) : State :=
  if x.listed then
    match accepted libs x post with
    | none => touch x
    | some a =>
      let x := { touch x with ut := a.ut }
      if a.ut.total ≤ a.ut.current ∧ post.sent then
        { x with inserts := x.inserts ++ [⟨a.ut.msg, .sent⟩] }
      else x
  else x

def insertGroupMsgResult (x : State) (ok : Bool) : State := if ok then touch x else x

inductive Action
  | upload (post : Post)
  | execute (ok : Bool)
  | result
  | callback
  | expire (ok : Bool)

/-- A handler, a callback or an expiry is one step, on whichever worker. -/
inductive Step (libs : Libs) : State → Action → State → Prop
  | upload {x : State} (post : Post) :
      Step libs x (.upload post) (serverHandleUserUpload libs x post)
  | execute {x : State} (before : List Insert) {after : List Insert} {msg : Msg} (ok : Bool)
      (hx : x.inserts = before ++ ⟨msg, .sent⟩ :: after) :
      Step libs x (.execute ok) { x with
        inserts := before ++ ⟨msg, .executed ok⟩ :: after
        messages := if ok then x.messages ++ [msg] else x.messages }
  | result {x : State} (before : List Insert) {after : List Insert} {msg : Msg} {ok : Bool}
      (hx : x.inserts = before ++ ⟨msg, .executed ok⟩ :: after) :
      Step libs x .result
        { insertGroupMsgResult x ok with inserts := before ++ ⟨msg, .answered ok⟩ :: after }
  | callback {x : State} (before : List Insert) {after : List Insert} {msg : Msg} {ok : Bool}
      (hx : x.inserts = before ++ ⟨msg, .answered ok⟩ :: after) :
      Step libs x .callback { doInsertMsgAfter x with inserts := before ++ after }
  | expire {x : State} (ok : Bool) (hx : x.event.isSome) :
      Step libs x (.expire ok) (seTimerRead x ok)

/-- `server_group_msg` has made the token, and `server_addtimer` its timer. -/
def Initial (x : State) : Prop :=
  ∃ (msg : Msg) (fd : Int), fd ≠ 0 ∧
    x = ⟨⟨msg, msg.attachments.length % 2 ^ 32, 0⟩, fd, true, some fd, [], [], 0, 0, false⟩

/-- One message at most, and the token is gone with its timer, once, and not used behind that. -/
structure DiesOnce (x : State) : Prop where
  messages : x.messages.length ≤ 1
  removed : x.removed = x.freed
  freed : x.freed = if x.event.isSome then 0 else 1
  unused : x.misused = false

def Issues (libs : Libs) (x : State) (post : Post) : Prop :=
  ∃ a ∈ accepted libs x post, a.ut.total ≤ a.ut.current ∧ post.sent

/-- While an insert is under way, no upload issues another one and the timer does not fire. -/
def Careful (libs : Libs) (x : State) : Action → Prop
  | .upload post => Issues libs x post → x.inserts = []
  | .expire _ => x.inserts = []
  | _ => True

variable {libs : Libs} {x x' : State} {a : Action} {before after : List Insert} {insert : Insert}

structure Alive (x : State) : Prop where
  listed : x.listed = true
  event : x.event = some x.timerfd
  inserts : x.inserts.length ≤ 1
  messages : x.messages.length ≤ (x.inserts.filter Insert.executed).length
  removed : x.removed = 0
  freed : x.freed = 0
  unused : x.misused = false

structure Dead (x : State) : Prop where
  listed : x.listed = false
  event : x.event = none
  inserts : x.inserts = []
  messages : x.messages.length ≤ 1
  removed : x.removed = 1
  freed : x.freed = 1
  unused : x.misused = false

theorem alive_initial (h : Initial x) : Alive x := by
  obtain ⟨msg, fd, -, rfl⟩ := h
  exact ⟨rfl, rfl, Nat.zero_le 1, Nat.le_refl 0, rfl, rfl, rfl⟩

theorem Alive.touch (h : Alive x) : touch x = x := by
  have hunused := h.unused
  obtain ⟨ut, timerfd, listed, event, inserts, messages, removed, freed, misused⟩ := x
  obtain rfl : freed = 0 := h.freed
  obtain rfl : misused = false := hunused
  rfl

theorem Alive.messages_le (h : Alive x) : x.messages.length ≤ 1 :=
  h.messages.trans ((List.length_filter_le _ _).trans h.inserts)

theorem Alive.close (h : Alive x) :
    Dead { serverDelEvent x false with inserts := [] } := by
  have hremoved := h.removed
  have hfreed := h.freed
  refine ⟨rfl, rfl, rfl, h.messages_le, ?_, ?_, ?_⟩
  · simp [serverDelEvent, timerUt, freeToken, h.touch, h.listed, hremoved]
  · simp [serverDelEvent, timerUt, freeToken, h.touch, hfreed]
  · simp [serverDelEvent, timerUt, freeToken, h.touch, h.unused]

theorem Alive.upload (h : Alive x) (post : Post) (hcareful : Careful libs x (.upload post)) :
    Alive (serverHandleUserUpload libs x post) := by
  rw [serverHandleUserUpload, if_pos h.listed, h.touch]
  cases haccept : accepted libs x post with
  | none => exact h
  | some a =>
      have hut : Alive { x with ut := a.ut } := { h with }
      dsimp only
      split
      · next hissue =>
          have hempty := hcareful ⟨a, haccept, hissue⟩
          have hmessages := h.messages
          rw [hempty] at hmessages ⊢
          exact { hut with
            inserts := Nat.le_refl 1
            messages := hmessages }
      · exact hut

theorem Alive.at_most (h : Alive x) (hx : x.inserts = before ++ insert :: after) :
    before = [] ∧ after = [] := by
  have hlen := h.inserts
  rw [hx, List.length_append, List.length_cons] at hlen
  exact ⟨List.eq_nil_of_length_eq_zero (by omega), List.eq_nil_of_length_eq_zero (by omega)⟩

theorem Alive.execute {msg : Msg} (h : Alive x) (ok : Bool)
    (hx : x.inserts = before ++ ⟨msg, .sent⟩ :: after) :
    Alive { x with
      inserts := before ++ ⟨msg, .executed ok⟩ :: after
      messages := if ok then x.messages ++ [msg] else x.messages } := by
  obtain ⟨rfl, rfl⟩ := h.at_most hx
  have hmessages := h.messages
  rw [hx] at hmessages
  have hnone : x.messages = [] := List.eq_nil_of_length_eq_zero (Nat.le_zero.mp hmessages)
  refine { h with inserts := Nat.le_refl 1, messages := ?_ }
  rw [hnone]
  cases ok with
  | false => exact Nat.zero_le _
  | true => exact Nat.le_refl 1

theorem Alive.result {msg : Msg} {ok : Bool} (h : Alive x)
    (hx : x.inserts = before ++ ⟨msg, .executed ok⟩ :: after) :
    Alive { insertGroupMsgResult x ok with
      inserts := before ++ ⟨msg, .answered ok⟩ :: after } := by
  obtain ⟨rfl, rfl⟩ := h.at_most hx
  have hsame : insertGroupMsgResult x ok = x := by
    rw [insertGroupMsgResult, h.touch, ite_self]
  have hmessages := h.messages
  rw [hx] at hmessages
  rw [hsame]
  exact { h with inserts := Nat.le_refl 1, messages := hmessages }

theorem Alive.callback {msg : Msg} {ok : Bool} (h : Alive x)
    (hx : x.inserts = before ++ ⟨msg, .answered ok⟩ :: after) :
    Dead { doInsertMsgAfter x with inserts := before ++ after } := by
  obtain ⟨rfl, rfl⟩ := h.at_most hx
  rw [doInsertMsgAfter, h.touch, if_pos h.event]
  exact h.close

theorem Alive.expire (h : Alive x) (ok : Bool) (hnone : x.inserts = []) :
    Dead (seTimerRead x ok) := by
  have hclose := h.close
  rw [← hnone] at hclose
  cases ok <;> exact hclose

theorem Dead.upload (h : Dead x) (post : Post) : serverHandleUserUpload libs x post = x := by
  rw [serverHandleUserUpload, h.listed]
  rfl

theorem Dead.no_insert (h : Dead x) (hx : x.inserts = before ++ insert :: after) : False := by
  rw [h.inserts] at hx
  simp at hx

theorem life_step (h : Alive x ∨ Dead x) (hstep : Step libs x a x') (hcareful : Careful libs x a) :
    Alive x' ∨ Dead x' := by
  rcases h with h | h
  · cases hstep with
    | upload post => exact .inl (h.upload post hcareful)
    | execute _ ok hx => exact .inl (h.execute ok hx)
    | result _ hx => exact .inl (h.result hx)
    | callback _ hx => exact .inr (h.callback hx)
    | expire ok _ => exact .inr (h.expire ok hcareful)
  · cases hstep with
    | upload post => exact .inr (by rwa [h.upload post])
    | execute _ ok hx => exact (h.no_insert hx).elim
    | result _ hx => exact (h.no_insert hx).elim
    | callback _ hx => exact (h.no_insert hx).elim
    | expire ok hx =>
        rw [h.event] at hx
        cases hx

theorem Alive.diesOnce (h : Alive x) : DiesOnce x :=
  ⟨h.messages_le, by rw [h.removed, h.freed], by rw [h.event, h.freed]; rfl, h.unused⟩

theorem Dead.diesOnce (h : Dead x) : DiesOnce x :=
  ⟨h.messages, by rw [h.removed, h.freed], by rw [h.event, h.freed]; rfl, h.unused⟩

/-- As long as no upload comes in and the timer does not fire while the insert is under way, the
token yields one message at most and dies once. -/
theorem careful_diesOnce
    (h : Reachable Initial (fun x a x' => Step libs x a x' ∧ Careful libs x a) x) : DiesOnce x := by
  have hlife := h.invariant (I := fun x => Alive x ∨ Dead x) (fun _ h0 => .inl (alive_initial h0))
    (fun _ _ _ hx hstep => life_step hx hstep.1 hstep.2)
  rcases hlife with halive | hdead
  · exact halive.diesOnce
  · exact hdead.diesOnce

theorem serverHandleUserUpload_issues {post : Post} {ut : UploadToken} (hlisted : x.listed = true)
    (hsaved : post.saved = true) {index : Nat} {file : UserFile.DbuserFile}
    (haccept : serverHandleMsgAttach libs x.ut post.upload = some ⟨index, file, ut⟩)
    (hissue : ut.total ≤ ut.current ∧ post.sent = true) :
    serverHandleUserUpload libs x post =
      { touch x with ut := ut, inserts := x.inserts ++ [⟨ut.msg, .sent⟩] } := by
  rw [serverHandleUserUpload, if_pos hlisted, accepted, if_pos hsaved, haccept]
  dsimp only
  rw [if_pos hissue]
  rfl

def waiting : State :=
  ⟨⟨⟨1, 1, [], [attachment []]⟩, 1, 0⟩, 9, true, some 9, [], [], 0, 0, false⟩

theorem waiting_initial : Initial waiting := ⟨⟨1, 1, [], [attachment []]⟩, 9, by decide, rfl⟩

def post : Post := ⟨⟨some [48], gif⟩, true, true⟩

def stored : Msg := ⟨1, 1, [], [attachment [("hash", gifHash)]]⟩

def issued (inserts : List Insert) (current : Nat) : State :=
  { waiting with ut := ⟨stored, 1, current⟩, inserts := inserts }

theorem post_first :
    serverHandleUserUpload gifLibs waiting post = issued [⟨stored, .sent⟩] 1 :=
  serverHandleUserUpload_issues rfl rfl (serverHandleMsgAttach_first _ [] rfl) (by decide)

theorem post_second : serverHandleUserUpload gifLibs (issued [⟨stored, .sent⟩] 1) post =
    issued [⟨stored, .sent⟩, ⟨stored, .sent⟩] 2 :=
  serverHandleUserUpload_issues rfl rfl (serverHandleMsgAttach_first _ [("hash", gifHash)] rfl)
    (by decide)

theorem careful_diesOnce_upload :
    ∃ x, x.messages = [stored] ∧ x.freed = 1 ∧ DiesOnce x := by
  have h0 : Reachable Initial (fun x a x' => Step gifLibs x a x' ∧ Careful gifLibs x a) waiting :=
    .start waiting_initial
  have h1 := h0.next ⟨.upload post, fun _ => rfl⟩
  rw [post_first] at h1
  have h2 := h1.next ⟨.execute [] true rfl, trivial⟩
  have h3 := h2.next ⟨.result [] rfl, trivial⟩
  have h4 := h3.next ⟨.callback [] rfl, trivial⟩
  exact ⟨_, rfl, rfl, careful_diesOnce h4⟩

/-- A second upload of the only attachment comes, or the timer fires, before the result of the
insert. -/
theorem two_messages : (∃ x, Reachable Initial (Step gifLibs) x ∧
      x.messages = [stored, stored] ∧ x.freed = 2 ∧ x.misused = true) ∧
    ∃ x, Reachable Initial (Step gifLibs) x ∧
      x.messages = [stored] ∧ x.freed = 2 ∧ x.misused = true := by
  have h0 : Reachable Initial (Step gifLibs) waiting := .start waiting_initial
  have h1 := h0.next (.upload post)
  rw [post_first] at h1
  constructor
  · have h2 := h1.next (.upload post)
    rw [post_second] at h2
    have h3 := h2.next (.execute [] true rfl)
    have h4 := h3.next (.result [] rfl)
    have h5 := h4.next (.execute [⟨stored, .answered true⟩] true rfl)
    have h6 := h5.next (.callback [] rfl)
    have h7 := h6.next (.result [] rfl)
    have h8 := h7.next (.callback [] rfl)
    exact ⟨_, h8, rfl, rfl, rfl⟩
  · have h2 := h1.next (.expire true rfl)
    have h3 := h2.next (.execute [] true rfl)
    have h4 := h3.next (.result [] rfl)
    have h5 := h4.next (.callback [] rfl)
    exact ⟨_, h5, rfl, rfl, rfl⟩

end ChityChat.UploadTokens
