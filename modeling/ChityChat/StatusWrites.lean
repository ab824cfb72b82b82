import ChityChat.ClientMembers
import ChityChat.Register

namespace ChityChat.StatusWrites

open WebClient Register

variable {app : App} {id : Int}

def status (app : App) (id : Int) : Option String := (app.users id).map User.status

def writes (id : Int) : Packet → List (Write String)
  | .clientUserInfo info => if info.userId = id then [.put (User.new info).status] else []
  | .getUser infos =>
      (infos.filter (fun info => info.userId = id)).map (fun info => .put (User.new info).status)
  | .rtusm userId status _ => if userId = id ∧ falsy status = false then [.set (status.getD "")] else []
  | _ => []

theorem status_congr {app' : App} (h : app'.users = app.users) (id : Int) : status app' id = status app id := by
  rw [status, h, status]

theorem status_setUser (app : App) (user : User) (id : Int) :
    status (app.setUser user) id = if user.id = id then some user.status else status app id := by
  by_cases he : user.id = id
  · rw [if_pos he, ← he]
    simp [status, App.setUser]
  · rw [if_neg he]
    simp [status, App.setUser, Ne.symm he]

theorem usersPlain {us : Int → Option User} : Plain (fun app => app.users = us) where
  send _ h := h
  offset _ h _ := h
  view h _ husers _ _ := husers.trans h
  new _ h := h

theorem status_getUser (app : App) (infos : List UserInfo) (id : Int) :
    status (getUser app infos) id = after (status app id) (writes id (.getUser infos)) := by
  induction infos generalizing app with
  | nil => rfl
  | cons info infos ih =>
      refine (ih _).trans ?_
      have hstep : status ((app.setUser (User.new info)).eachGroup (Group.resolve (User.new info))) id =
          if info.userId = id then some (User.new info).status else status app id :=
        status_setUser app (User.new info) id
      dsimp only
      rw [hstep]
      by_cases he : info.userId = id
      · rw [if_pos he, writes, writes, List.filter_cons_of_pos (by simpa using he)]
        rfl
      · rw [if_neg he, writes, writes, List.filter_cons_of_neg (by simpa using he)]

theorem status_updatePfp (app : App) (user : User) (pfpName : String) (id : Int) :
    status (updatePfp app user pfpName) id = if user.id = id then some user.status else status app id := by
  rw [updatePfp]
  split <;> exact status_setUser app { user with pfpName := pfpName } id

theorem rtusm_known {user : User} (hu : app.users id = some user) (hid : user.id = id)
    (status' pfpName : Option String) (id' : Int) :
    status (rtusm app id status' pfpName) id' =
      if id = id' then some (if falsy status' then user.status else status'.getD "") else status app id' := by
  have hset : ∀ s : String, (falsy status' = true → s = user.status) →
      status (if falsy status' then app else setStatus app user s) id' =
        if id = id' then some s else status app id' := by
    intro s hs
    split
    · next hf =>
        split
        · next he =>
            rw [hs hf, ← he, status, hu]
            rfl
        · rfl
    · exact hid ▸ status_setUser app { user with status := s } id'
  have hpfp : ∀ (app' : App) (s : String), status app' id' = (if id = id' then some s else status app id') →
      status (if falsy pfpName then app' else updatePfp app' { user with status := s } (pfpName.getD "")) id' =
        if id = id' then some s else status app id' := by
    intro app' s happ
    split
    · exact happ
    · rw [status_updatePfp, happ]
      dsimp only
      rw [hid]
      split <;> rfl
  simp only [rtusm, hu]
  exact hpfp _ _ (hset _ (fun hf => if_pos hf))

theorem status_rtusm (hkeyed : Keyed app) (userId : Int) (status' pfpName : Option String) (id : Int) :
    status (rtusm app userId status' pfpName) id =
      after (status app id) (writes id (.rtusm userId status' pfpName)) := by
  rw [writes]
  cases hu : app.users userId with
  | none =>
      have hnone : rtusm app userId status' pfpName = app := by simp only [rtusm, hu]
      rw [hnone]
      split
      · next he =>
          have hstatus : status app id = none := by rw [status, ← he.1, hu]; rfl
          rw [hstatus]
          rfl
      · rfl
  | some user =>
      rw [rtusm_known hu (hkeyed userId user hu)]
      by_cases he : userId = id
      · have hstatus : status app id = some user.status := by rw [status, ← he, hu]; rfl
        rw [if_pos he, hstatus]
        cases hf : falsy status' with
        | true => simp
        | false =>
            rw [if_neg Bool.false_ne_true, if_pos ⟨he, rfl⟩]
            rfl
      · rw [if_neg he, if_neg (fun hn => he hn.1)]
        rfl

theorem status_packet (hkeyed : Keyed app) (packet : Packet) (id : Int) :
    status (handlePacket app packet) id = after (status app id) (writes id packet) := by
  cases packet with
  | session => exact status_congr (usersPlain.cmdSession rfl) id
  | clientGroups groups => exact status_congr (usersPlain.clientGroups rfl groups) id
  | getAllGroups groups => exact status_congr (usersPlain.getAllGroups rfl groups) id
  | other => rfl
  | clientUserInfo info =>
      have hset : status (handlePacket app (.clientUserInfo info)) id =
          if info.userId = id then some (User.new info).status else status app id :=
        status_setUser app (User.new info) id
      rw [hset, writes]
      split <;> rfl
  | getUser infos => exact status_getUser app infos id
  | rtusm userId status' pfpName => exact status_rtusm hkeyed userId status' pfpName id
  | deleteGroup groupId => exact status_congr (deleteGroup_frame app groupId).1 id
  | getMemberIds groupId ids =>
      refine status_congr ?_ id
      simp only [handlePacket, getMemberIds]
      split
      · rfl
      · split <;> rfl
  | joinGroup groupId userId =>
      refine status_congr ?_ id
      simp only [handlePacket, joinGroup]
      split
      · rfl
      · split <;> rfl
  | groupMsg groupId msg =>
      refine status_congr ?_ id
      simp only [handlePacket, groupMsg]
      split <;> rfl
  | getGroupMsgs groupId msgs =>
      refine status_congr ?_ id
      simp only [handlePacket, getGroupMsgs]
      split <;> rfl
  | deleteMsg groupId msgId =>
      refine status_congr ?_ id
      simp only [handlePacket, deleteMsg]
      split <;> rfl

end ChityChat.StatusWrites
