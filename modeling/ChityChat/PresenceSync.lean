import ChityChat.MemberAgreement
import ChityChat.StatusWrites

namespace ChityChat.PresenceSync

open Transition Schema WebClient Register MemberSync
open WriteStatements (Store Stored)
open MemberUpdates (Extends groupAsks asks listOf)
open StatusWrites (status writes)

def Shares (s : Store) (me : Nat) (id : Int) : Prop :=
  ∃ groupId, (me : Int) ∈ memberIds s groupId ∧ id ∈ memberIds s groupId

/-- The users in `user_ht`. `lost` tells who has left it without a broadcast: the last connection ended
with an error, or another entry was deleted in front. -/
structure Table where
  online : Int → Option UserInfo
  lost : Int → Bool

def Table.put (table : Table) (userId : Nat) (info : Option UserInfo) : Table where
  online := Function.update table.online userId info
  lost := Function.update table.lost userId false

/-- `server_ght_del` cuts off the entries behind the one that it deletes. -/
def Table.cutOff (table : Table) (cut : Int → Bool) : Table where
  online id := if cut id then none else table.online id
  lost id := cut id || table.lost id

/-- Who is cut off is in the table. The client's user is not. -/
def CutsOff (table : Table) (me : Nat) (cut : Int → Bool) : Prop :=
  ∀ id, cut id = true → (table.online id).isSome ∧ id ≠ me

/-- What is broadcast: a user is online from `client_user_info` to the close of the connection. Those who
were cut off stay connected, and what they do is broadcast all the same. -/
inductive Announces (me : Nat) : Table → Nat → String → Table → Prop
  | userInfo {table : Table} (userId : Nat) {info : UserInfo} (h : table.online userId = some info) :
      Announces me table userId "online" (table.put userId (some { info with status := some "online" }))
  | disconnect {table : Table} (userId : Nat) {info : UserInfo} (cut : Int → Bool)
      (h : table.online userId = some info) (hme : userId ≠ me) (hcut : CutsOff table me cut)
      (hself : cut userId = false) : Announces me table userId "offline" ((table.put userId none).cutOff cut)
  | strayInfo {table : Table} (userId : Nat) (h : table.online userId = none) (hme : userId ≠ me) :
      Announces me table userId "online" ((table.put userId none).cutOff (fun id => id = (userId : Int)))
  | strayClose {table : Table} (userId : Nat) (h : table.online userId = none) (hme : userId ≠ me) :
      Announces me table userId "offline" (table.put userId none)

/-- What is not: a login, and a close after an `EPIPE`. -/
inductive Unannounced (me : Nat) : Table → Table → Prop
  | login {table : Table} (info : UserInfo) (h : table.online info.userId = none)
      (hstatus : (User.new info).status = "offline") :
      Unannounced me table { table with online := Function.update table.online info.userId (some info) }
  | lose {table : Table} (userId : Nat) {info : UserInfo} (cut : Int → Bool)
      (h : table.online userId = some info) (hme : userId ≠ me) (hcut : CutsOff table me cut)
      (hself : cut userId = true) : Unannounced me table (table.cutOff cut)

structure State extends Table where
  base : MemberSync.State Unit

def State.announced (s : State) (table : Table) (userId : Nat) (status : String) : State :=
  ⟨table, s.base.emit () ⟨[], [.connectedUsers userId status]⟩⟩

inductive Action
  | base (a : MemberSync.Action Unit)
  | serve
  | announce (userId : Nat) (status : String)
  | table

/-- The owners in a list of public groups share a group with the user, who knows no others. -/
def OwnersShare (s : Store) (me : Nat) : Packet → Prop
  | .getAllGroups groups => ∀ group ∈ groups, group.ownerId = me ∨ Shares s me group.ownerId
  | _ => True

def Apart (s : Store) (me : Nat) : MemberSync.Action Unit → Prop
  | .serve _ => False
  | .command _ stmt => stmt.silent = true
  | .packet packet => (∀ id, writes id packet = []) ∧ OwnersShare s me packet
  | _ => True

inductive Step (me : Nat) : State → Action → State → Prop
  | base {s : State} {a : MemberSync.Action Unit} {base : MemberSync.State Unit}
      (ha : Apart s.base.store me a) (h : KeptStep me s.base a base) :
      Step me s (.base a) { s with base := base }
  | serve {s : State} {r : Request} (h : s.base.app.sent[s.base.handled]? = some r) :
      Step me s .serve { s with base := s.base.served () s.online r }
  | announce {s : State} {userId : Nat} {status : String} {table : Table}
      (h : Announces me s.toTable userId status table) :
      Step me s (.announce userId status) (s.announced table userId status)
  | table {s : State} {table : Table} (h : Unannounced me s.toTable table) :
      Step me s .table { s with toTable := table }

structure Initial (me : Nat) (s : State) : Prop where
  base : MemberSync.Initial me s.base
  sent : ∀ stmt ∈ s.base.sent (), stmt.silent = true
  online : ∀ id info, s.online id = some info → info.userId = id

def statusOf (online : Int → Option UserInfo) (id : Int) : String :=
  ((online id).map (fun info => (User.new info).status)).getD "offline"

def stmtWrites (id : Int) : Stmt → List (Write String)
  | .userArray ids => if id ∈ ids then [.put "offline"] else []
  | .connectedUsers userId status => writes id (.rtusm userId (some status) none)
  | _ => []

def resultWrites (me : Nat) (id : Int) (res : Result) : List (Write String) :=
  (callback me res).packets.flatMap (writes id)

def flight (me : Nat) (s : MemberSync.State Unit) (id : Int) : List (Write String) :=
  s.channel.flatMap (writes id) ++
    ((s.results ()).flatMap (resultWrites me id) ++ (s.sent ()).flatMap (stmtWrites id))

/-- Nothing of a user is on its way to a client with whom he shares no group, unless he joins one
before the broadcast is executed. -/
structure Unheard (me : Nat) (s : MemberSync.State Unit) (id : Int) : Prop where
  unknown : s.app.users id = none
  channel : s.channel.flatMap (writes id) = []
  results : (s.results ()).flatMap (resultWrites me id) = []
  sent : ∀ ids, .userArray ids ∈ s.sent () → id ∉ ids

structure Inv (me : Nat) (s : State) : Prop where
  safe : Safe me s.base
  keyed : ∀ id info, s.online id = some info → info.userId = id
  owners : ∀ packet ∈ s.base.channel, OwnersShare s.base.store me packet
  asked : ∀ ids, .getUser ids ∈ s.base.app.sent →
    ∀ id : Int, id ∈ ids → id = me ∨ Shares s.base.store me id
  unheard : ∀ id : Int, id ≠ me → ¬ Shares s.base.store me id → Unheard me s.base id
  tracks : ∀ id : Int, id ≠ me → s.lost id = false →
    Tracks (statusOf s.online id) (status s.base.app id) (flight me s.base id)

variable {me : Nat} {s t : State} {store store' : Store} {id : Int}

theorem Shares.mono (h : Shares store me id) (hg : Grows store store') : Shares store' me id := by
  obtain ⟨groupId, hme, hid⟩ := h
  exact ⟨groupId, hg.members _ _ hme, hg.members _ _ hid⟩

theorem mem_connectedUsers (hs : Stored store) {userId : Nat} :
    (me : Int) ∈ connectedUsers store userId ↔ Shares store me userId := by
  simp only [connectedUsers, List.mem_map, List.mem_filter, List.any_eq_true, decide_eq_true_eq]
  constructor
  · rintro ⟨u, ⟨hu, gm, hm, hid, hshare⟩, heq⟩
    obtain rfl : u.userId = me := by omega
    exact ⟨gm.groupId, mem_memberIds.mpr ⟨_, hshare, rfl, rfl⟩, mem_memberIds.mpr ⟨gm, hm, rfl, by rw [hid]⟩⟩
  · rintro ⟨groupId, hme, hid⟩
    obtain ⟨u, hu, heq⟩ := member_isUser hs hme
    obtain ⟨gm, hm, hg, hgu⟩ := mem_memberIds.mp hid
    obtain ⟨⟨userId', groupId'⟩, hm', hg', hgu'⟩ := mem_memberIds.mp hme
    dsimp only at hg' hgu'
    have hrow : (⟨u.userId, gm.groupId⟩ : MemberRow) = ⟨userId', groupId'⟩ := by
      rw [MemberRow.mk.injEq]
      omega
    exact ⟨u, ⟨hu, gm, hm, by omega, hrow ▸ hm'⟩, heq⟩

theorem writes_of_others {stmt : Stmt} (h : stmt.silent = true) (id : Int) : stmtWrites id stmt = [] := by
  cases stmt <;> first | rfl | cases h

theorem Inv.initial (h : Initial me s) : Inv me s := by
  obtain ⟨hbase, hsent, hkeyed⟩ := h
  obtain ⟨urlGroup, storedGroup, info, hinfo, happ⟩ := hbase.app
  have husers : ∀ id, id ≠ (me : Int) → s.base.app.users id = none := by
    intro id hne
    rw [happ]
    have hset : ((App.start urlGroup storedGroup).exec (.packet .session)).exec
        (.packet (.clientUserInfo info)) = clientUserInfo (cmdSession (App.start urlGroup storedGroup)) info := rfl
    rw [hset]
    simp [clientUserInfo, App.setUser, User.new, hinfo, hne, cmdSession, App.wsSend, App.start]
  have hflight : ∀ id, flight me s.base id = [] := by
    intro id
    rw [flight, hbase.channel, hbase.results]
    simp only [List.flatMap_nil, List.nil_append, List.flatMap_eq_nil_iff]
    exact fun stmt hm => writes_of_others (hsent stmt hm) id
  refine
    { safe := .initial hbase
      keyed := hkeyed
      owners := fun packet hm => by rw [hbase.channel] at hm; cases hm
      asked := ?asked
      unheard := fun id hne _ => ?unheard
      tracks := fun id hne hlost => ?tracks }
  case asked =>
    intro ids hm
    have hrequests : s.base.app.sent = [.clientUserInfo, .clientGroups] := by rw [happ]; rfl
    rw [hrequests] at hm
    simp at hm
  case unheard =>
    exact ⟨husers id hne, by rw [hbase.channel]; rfl, by rw [hbase.results]; rfl,
      fun ids hm => by cases hsent _ hm⟩
  case tracks =>
    have hnone : status s.base.app id = none := by rw [status, husers id hne]; rfl
    rw [hflight, hnone]
    exact ⟨fun _ hw => (by cases hw), fun _ _ ha => (by cases ha)⟩

section Execute

theorem filter_unique {α : Type} {l : List α} (h : l.Nodup) {a : α} (ha : a ∈ l) {p : α → Bool}
    (hp : ∀ b ∈ l, p b = true ↔ b = a) : l.filter p = [a] := by
  induction l with
  | nil => cases ha
  | cons b l ih =>
      obtain ⟨hb, hl⟩ := List.nodup_cons.mp h
      rcases List.mem_cons.mp ha with rfl | hm
      · rw [List.filter_cons_of_pos ((hp a ha).mpr rfl), List.filter_eq_nil_iff.mpr]
        intro c hc hpc
        exact hb ((hp c (List.mem_cons_of_mem _ hc)).mp hpc ▸ hc)
      · have hne : ¬ p b = true := fun hpb => hb ((hp b List.mem_cons_self).mp hpb ▸ hm)
        rw [List.filter_cons_of_neg hne]
        exact ih hl hm (fun c hc => hp c (List.mem_cons_of_mem _ hc))

theorem writes_userArray (hs : Stored store) {ids : List Int} (hid : id ∈ ids → IsUser store id) :
    resultWrites me id (.users ((GroupRead.selectUserJson store.toDatabase ids).map userInfo)) =
      stmtWrites id (.userArray ids) := by
  have hwrites : resultWrites me id (.users ((GroupRead.selectUserJson store.toDatabase ids).map userInfo)) =
      ((GroupRead.selectUserJson store.toDatabase ids).filter (fun u => (u.userId : Int) = id)).map
        (fun _ => Write.put "offline") := by
    refine (List.append_nil _).trans ?_
    rw [writes, List.filter_map, List.map_map]
    rfl
  rw [hwrites, stmtWrites, GroupRead.selectUserJson, List.filter_filter]
  split
  · next hm =>
      obtain ⟨u, hu, rfl⟩ := hid hm
      have hone : store.users.filter (fun u' => decide ((u'.userId : Int) = u.userId) &&
          decide ((u'.userId : Int) ∈ ids)) = [u] := by
        refine filter_unique (hs.valid.userKey.of_map _) hu (fun u' hu' => ?_)
        simp only [Bool.and_eq_true, decide_eq_true_eq]
        constructor
        · rintro ⟨he, -⟩
          exact List.inj_on_of_nodup_map hs.valid.userKey hu' hu (by omega)
        · rintro rfl
          exact ⟨rfl, hm⟩
      rw [hone]
      rfl
  · next hm =>
      rw [List.map_eq_nil_iff, List.filter_eq_nil_iff]
      intro u _ hp
      simp only [Bool.and_eq_true, decide_eq_true_eq] at hp
      exact hm (hp.1 ▸ hp.2)

theorem resultWrites_runs {stmt : Stmt} {res : Result} (hs : Stored store) (hrun : Runs me store stmt store' res)
    (hask : ∀ ids, stmt = .userArray ids → id ∈ ids → IsUser store id) :
    resultWrites me id res = stmtWrites id stmt ∨
      ¬ Shares store me id ∧ resultWrites me id res = [] ∧ ∃ w, stmtWrites id stmt = [w] := by
  cases hrun with
  | userArray ids => exact .inl (writes_userArray hs (hask ids rfl))
  | connectedUsers userId status =>
      by_cases hshare : Shares store me userId
      · left
        rw [resultWrites, callback, if_pos ((mem_connectedUsers hs).mpr hshare)]
        exact List.append_nil _
      · have hnil : resultWrites me id (.connectedUsers (connectedUsers store userId) userId status) = [] := by
          rw [resultWrites, callback, if_neg (fun hm => hshare ((mem_connectedUsers hs).mp hm))]
          rfl
        rw [hnil, stmtWrites, writes]
        split
        · next he => exact .inr ⟨he.1 ▸ hshare, rfl, _, rfl⟩
        · exact .inl rfl
  | userGroups | group | createGroup =>
      left
      rw [resultWrites, callback]
      split <;> rfl
  | announce groupId userId =>
      left
      rw [resultWrites, callback]
      split <;> rfl
  | broadcast groupId note =>
      left
      rw [resultWrites, callback]
      split
      · cases note <;> rfl
      · rfl
  | memberIds | joinPubGroup | joinGroupCode | insertUser | groupMsgs | noMsgs | insertMsg | deleteMsg | other =>
      exact .inl rfl
  | failed users groups msgs hw =>
      rw [writes_of_others (Stmt.silent_of_writes hw)]
      exact .inl rfl

theorem resultWrites_unheard {stmt : Stmt} {res : Result} (hs : Stored store) (hrun : Runs me store stmt store' res)
    (hshare : ¬ Shares store me id) (hask : ∀ ids, stmt = .userArray ids → id ∉ ids) :
    resultWrites me id res = [] := by
  rcases resultWrites_runs hs hrun (fun ids he hm => absurd hm (hask ids he)) with heq | ⟨-, hnil, -⟩
  · rw [heq]
    cases hrun with
    | userArray ids => exact if_neg (hask ids rfl)
    | connectedUsers userId status =>
        rw [stmtWrites, writes, if_neg]
        rintro ⟨rfl, hf⟩
        have hsome : resultWrites me userId (.connectedUsers (connectedUsers store userId) userId status) = [] := by
          rw [resultWrites, callback, if_neg (fun hm => hshare ((mem_connectedUsers hs).mp hm))]
          rfl
        rw [hsome, stmtWrites, writes, if_pos ⟨rfl, hf⟩] at heq
        cases heq
    | failed users groups msgs hw => exact writes_of_others (Stmt.silent_of_writes hw) id
    | _ => rfl
  · exact hnil

theorem OwnersShare.mono {packet : Packet} (h : OwnersShare store me packet) (hg : Grows store store') :
    OwnersShare store' me packet := by
  cases packet with
  | getAllGroups groups => exact fun group hm => (h group hm).imp_right (fun hs => hs.mono hg)
  | _ => trivial

theorem Unheard.executed {b : MemberSync.State Unit} (h : Unheard me b id) {stmt : Stmt} {rest : List Stmt}
    {res : Result} (hsent : b.sent () = stmt :: rest) (hres : resultWrites me id res = []) :
    Unheard me (b.executed () rest store res) id where
  unknown := h.unknown
  channel := h.channel
  results := by
    rw [State.executed_results, List.flatMap_append, h.results, List.flatMap_cons, hres]
    rfl
  sent ids hm := h.sent ids (by
    rw [State.executed_sent] at hm
    exact hsent ▸ List.mem_cons_of_mem _ hm)

theorem flight_executed (b : MemberSync.State Unit) (rest : List Stmt) (res : Result) :
    flight me (b.executed () rest store res) id = b.channel.flatMap (writes id) ++
      ((b.results ()).flatMap (resultWrites me id) ++ (resultWrites me id res ++ rest.flatMap (stmtWrites id))) := by
  rw [flight, State.executed_results, State.executed_sent, List.flatMap_append, List.append_assoc]
  simp [State.executed]

theorem Inv.execute (h : Inv me s) {stmt : Stmt} {rest : List Stmt} {res : Result}
    (hsent : s.base.sent () = stmt :: rest) (hrun : Runs me s.base.store stmt store res)
    (hpub : JoinsPublic s.base (.execute ())) :
    Inv me { s with base := s.base.executed () rest store res } := by
  have hstored := h.safe.stored
  have hstmt : StmtSound s.base.store stmt := h.safe.sent () stmt (hsent ▸ List.mem_cons_self)
  have hgrows := (hrun.sound hstored hstmt (fun userId groupId he => hpub userId groupId rest (he ▸ hsent))).1
  have hask : ∀ id, id ≠ (me : Int) → ¬ Shares s.base.store me id → ∀ ids, stmt = .userArray ids → id ∉ ids := by
    rintro id hne hshare ids rfl
    exact (h.unheard id hne hshare).sent ids (hsent ▸ List.mem_cons_self)
  refine
    { safe := h.safe.execute hsent hrun hpub
      keyed := h.keyed
      owners := fun packet hm => (h.owners packet hm).mono hgrows
      asked := fun ids hm id hid => (h.asked ids hm id hid).imp_right (fun hs => hs.mono hgrows)
      unheard := fun id hne hshare => ?unheard
      tracks := fun id hne hlost => ?tracks }
  case unheard =>
    have hold : ¬ Shares s.base.store me id := fun hs => hshare (hs.mono hgrows)
    exact (h.unheard id hne hold).executed hsent (resultWrites_unheard hstored hrun hold (hask id hne hold))
  case tracks =>
    have htracks := h.tracks id hne hlost
    rw [flight, hsent, List.flatMap_cons] at htracks
    rw [flight_executed]
    have huser : ∀ ids, stmt = .userArray ids → id ∈ ids → IsUser s.base.store id := by
      intro ids he hm
      by_contra hno
      refine hask id hne (fun hs => hno ?_) ids he hm
      obtain ⟨groupId, -, hid⟩ := hs
      exact member_isUser hstored hid
    rcases resultWrites_runs hstored hrun huser with heq | ⟨hshare, hnil, w, hw⟩
    · rw [heq]
      exact htracks
    · have hun := h.unheard id hne hshare
      have hnone : status s.base.app id = none := by rw [status, hun.unknown]; rfl
      rw [hun.channel, hun.results, hw, hnone] at htracks
      rw [hun.channel, hun.results, hnil]
      change Tracks _ (status s.base.app id) _
      rw [hnone]
      exact htracks.lose

end Execute

theorem callback_stmts (res : Result) (id : Int) : (callback me res).stmts.flatMap (stmtWrites id) = [] := by
  cases res <;> rfl

theorem callback_owners {res : Result} : ∀ packet ∈ (callback me res).packets, OwnersShare store me packet := by
  intro packet hm
  cases packet with
  | getAllGroups groups =>
      cases res with
      | groups | announce | connectedUsers =>
          rw [callback] at hm
          split at hm
          · cases List.mem_singleton.mp hm
          · cases hm
      | broadcast ids groupId note =>
          rw [callback] at hm
          split at hm
          · cases note <;> cases List.mem_singleton.mp hm
          · cases hm
      | memberIds | users | groupMsgs | noMsgs => cases List.mem_singleton.mp hm
      | joined | changed | done => cases hm
  | _ => trivial

theorem Inv.result (h : Inv me s) {res : Result} {rest : List Result} (hr : s.base.results () = res :: rest) :
    Inv me { s with base := s.base.taken me () rest res } := by
  have hsafe : Safe me (s.base.taken me () rest res) := h.safe.step (a := .result ()) ⟨trivial, .result hr⟩
  have hflight : ∀ id, flight me (s.base.taken me () rest res) id = flight me s.base id := by
    intro id
    rw [flight, flight, State.taken_results, State.taken_sent, hr, List.flatMap_append, callback_stmts,
      List.append_nil]
    simp only [State.taken, State.emit, Core.emit_channel, List.flatMap_append, List.flatMap_cons,
      List.append_assoc]
    rfl
  refine
    { safe := hsafe
      keyed := h.keyed
      owners := fun packet hm => ?owners
      asked := h.asked
      unheard := fun id hne hshare => ?unheard
      tracks := fun id hne hlost => by dsimp only; rw [hflight]; exact h.tracks id hne hlost }
  case owners =>
    exact (List.mem_append.mp hm).elim (h.owners packet) (callback_owners packet)
  case unheard =>
    have hun := h.unheard id hne hshare
    have hres := hun.results
    rw [hr, List.flatMap_cons, List.append_eq_nil_iff] at hres
    refine ⟨hun.unknown, ?_, ?_, ?_⟩
    · change (s.base.channel ++ (callback me res).packets).flatMap (writes id) = []
      rw [List.flatMap_append, hun.channel]
      exact hres.1
    · rw [State.taken_results]
      exact hres.2
    · intro ids hm
      rw [State.taken_sent] at hm
      rcases List.mem_append.mp hm with hm | hm
      · exact hun.sent ids hm
      · cases res with
        | joined userId groupId => simp [callback, onUserGroupJoin] at hm
        | changed => cases List.mem_singleton.mp hm
        | _ => cases hm

theorem Inv.deliver (h : Inv me s) {packet : Packet} {rest : List Packet} (hc : s.base.channel = packet :: rest) :
    Inv me { s with base := s.base.delivered packet rest } := by
  have hp := h.safe.head hc
  have hexec : (s.base.delivered packet rest).app = handlePacket s.base.app packet :=
    exec_packet h.safe.page packet
  have hstatus : ∀ id, status (s.base.delivered packet rest).app id =
      after (status s.base.app id) (writes id packet) := by
    intro id
    rw [hexec]
    exact StatusWrites.status_packet h.safe.client.keyed packet id
  refine
    { safe := h.safe.deliver hc
      keyed := h.keyed
      owners := fun packet hm => h.owners packet (hc ▸ List.mem_cons_of_mem _ hm)
      asked := fun ids hm id hid => ?asked
      unheard := fun id hne hshare => ?unheard
      tracks := fun id hne hlost => ?tracks }
  case asked =>
    obtain ⟨-, rs, hsent, hrs⟩ := Extends.packet s.base.app hp.ne_session
    have hm' : .getUser ids ∈ (handlePacket s.base.app packet).sent := hexec ▸ hm
    rw [hsent] at hm'
    rcases List.mem_append.mp hm' with hm' | hm'
    · exact h.asked ids hm' id hid
    · have hask := hrs _ hm'
      have hown : ∀ groupId, (s.base.app.groups groupId).isSome → (me : Int) ∈ memberIds s.base.store groupId := by
        intro groupId hsome
        exact h.safe.own groupId (by rw [listOf, Option.isSome_map]; exact hsome)
      cases packet with
      | getMemberIds groupId ids' => exact .inr ⟨groupId, hown groupId hask.1, hp id (hask.2 id hid)⟩
      | joinGroup groupId userId =>
          obtain ⟨hsome, rfl⟩ := hask
          obtain rfl := List.mem_singleton.mp hid
          exact .inr ⟨groupId, hown groupId hsome, hp⟩
      | getAllGroups groups =>
          obtain ⟨group, hg, rfl⟩ := hask id hid
          have howners : OwnersShare s.base.store me (.getAllGroups groups) :=
            h.owners _ (hc ▸ List.mem_cons_self)
          exact howners group hg
      | _ => exact hask.elim
  case unheard =>
    have hun := h.unheard id hne hshare
    have hchannel := hun.channel
    rw [hc, List.flatMap_cons, List.append_eq_nil_iff] at hchannel
    refine ⟨?_, hchannel.2, hun.results, hun.sent⟩
    have hnone := hstatus id
    rw [hchannel.1, status, status, hun.unknown] at hnone
    exact Option.map_eq_none_iff.mp hnone
  case tracks =>
    have htracks := h.tracks id hne hlost
    rw [flight, hc, List.flatMap_cons, List.append_assoc] at htracks
    dsimp only
    rw [hstatus]
    exact htracks.deliver

/-- `server_get_user` writes the status that the server has now: a user who is not in `user_ht` is
offline. -/
theorem handler_writes {online : Int → Option UserInfo} (hkeyed : ∀ id info, online id = some info → info.userId = id)
    (r : Request) (id : Int) :
    (∀ w ∈ (handler online r).packets.flatMap (writes id), w.value = statusOf online id) ∧
      ∀ w ∈ (handler online r).stmts.flatMap (stmtWrites id), w.value = statusOf online id := by
  cases r with
  | getUser ids =>
      simp only [handler, serverGetUser, sendUsersFromClients]
      constructor
      · intro w hw
        split at hw
        · cases hw
        · simp only [List.flatMap_cons, List.flatMap_nil, List.append_nil, writes] at hw
          obtain ⟨info, hm, rfl⟩ := List.mem_map.mp hw
          obtain ⟨hm, he⟩ := List.mem_filter.mp hm
          obtain ⟨id', -, hinfo⟩ := List.mem_filterMap.mp hm
          have hid : info.userId = id := by simpa using he
          obtain rfl : id' = id := (hkeyed id' info hinfo).symm.trans hid
          rw [statusOf, hinfo]
          rfl
      · intro w hw
        split at hw
        · cases hw
        · simp only [List.flatMap_cons, List.flatMap_nil, List.append_nil, stmtWrites] at hw
          split at hw
          · next hm =>
              obtain rfl := List.mem_singleton.mp hw
              have hnone : online id = none := by simpa using (List.mem_filter.mp hm).2
              rw [statusOf, hnone]
              rfl
          · cases hw
  | _ => exact ⟨fun _ hw => (by cases hw), fun _ hw => (by cases hw)⟩

theorem handler_unheard {online : Int → Option UserInfo} (hkeyed : ∀ id info, online id = some info → info.userId = id)
    {r : Request} {id : Int} (hr : ∀ ids, r = .getUser ids → id ∉ ids) :
    (handler online r).packets.flatMap (writes id) = [] ∧
      ∀ ids, .userArray ids ∈ (handler online r).stmts → id ∉ ids := by
  cases r with
  | getUser ids =>
      simp only [handler, serverGetUser, sendUsersFromClients]
      constructor
      · split
        · rfl
        · simp only [List.flatMap_cons, List.flatMap_nil, List.append_nil, writes, List.map_eq_nil_iff,
            List.filter_eq_nil_iff]
          intro info hm he
          obtain ⟨id', hid', hinfo⟩ := List.mem_filterMap.mp hm
          have hid : info.userId = id := by simpa using he
          obtain rfl : id' = id := (hkeyed id' info hinfo).symm.trans hid
          exact hr ids rfl (List.mem_reverse.mp hid')
      · intro others hm hid
        split at hm
        · cases hm
        · obtain rfl := Stmt.userArray.inj (List.mem_singleton.mp hm)
          exact hr ids rfl (List.mem_filter.mp hid).1
  | clientGroups | getMemberIds | getGroupMsgs => exact ⟨rfl, fun ids hm => by cases List.mem_singleton.mp hm⟩
  | _ => exact ⟨rfl, fun _ hm => (by cases hm)⟩

theorem flight_emit (b : MemberSync.State Unit) (r : Sends) :
    flight me (b.emit () r) id = b.channel.flatMap (writes id) ++ (r.packets.flatMap (writes id) ++
      ((b.results ()).flatMap (resultWrites me id) ++ (b.sent ()).flatMap (stmtWrites id))) ++
        r.stmts.flatMap (stmtWrites id) := by
  rw [flight, State.emit_sent]
  simp [State.emit]

theorem Inv.serve (h : Inv me s) {r : Request} (hr : s.base.app.sent[s.base.handled]? = some r) :
    Inv me { s with base := s.base.served () s.online r } := by
  refine
    { safe := h.safe.step (a := .serve ()) ⟨trivial, .serve () s.online hr h.keyed⟩
      keyed := h.keyed
      owners := fun packet hm => ?owners
      asked := h.asked
      unheard := fun id hne hshare => ?unheard
      tracks := fun id hne hlost => ?tracks }
  case owners =>
    rcases List.mem_append.mp hm with hm | hm
    · exact h.owners packet hm
    · cases r with
      | getUser ids =>
          simp only [handler, serverGetUser, sendUsersFromClients] at hm
          split at hm
          · cases hm
          · obtain rfl := List.mem_singleton.mp hm
            trivial
      | _ => cases hm
  case unheard =>
    have hun := h.unheard id hne hshare
    have hother : ∀ ids, r = .getUser ids → id ∉ ids := by
      rintro ids rfl hid
      exact (h.asked ids (List.mem_of_getElem? hr) id hid).elim hne hshare
    obtain ⟨hpackets, hstmts⟩ := handler_unheard h.keyed hother
    refine ⟨hun.unknown, ?_, hun.results, fun ids hm => ?_⟩
    · change (s.base.channel ++ (handler s.online r).packets).flatMap (writes id) = []
      rw [List.flatMap_append, hun.channel, hpackets]
      rfl
    · rw [State.served_sent] at hm
      exact (List.mem_append.mp hm).elim (hun.sent ids) (hstmts ids)
  case tracks =>
    obtain ⟨hpackets, hstmts⟩ := handler_writes h.keyed r id
    have hmiddle := (h.tracks id hne hlost).insert hpackets
    rw [← List.append_nil (_ ++ (_ ++ _))] at hmiddle
    have hend := hmiddle.insert hstmts
    rw [List.append_nil] at hend
    change Tracks _ _ (flight me ({ s.base with handled := s.base.handled + 1 }.emit () (handler s.online r)) id)
    rw [flight_emit]
    exact hend

theorem Inv.app (h : Inv me s) {app : App} (hsafe : Safe me { s.base with app := app })
    (husers : app.users = s.base.app.users) (hext : Extends (fun r => ∀ ids, r ≠ .getUser ids) s.base.app app) :
    Inv me { s with base := { s.base with app := app } } where
  safe := hsafe
  keyed := h.keyed
  owners := h.owners
  asked ids hm := h.asked ids (by_contra fun hn => hext.not_mem (fun hq => hq ids rfl) hn hm)
  unheard id hne hshare :=
    have hun := h.unheard id hne hshare
    ⟨husers ▸ hun.unknown, hun.channel, hun.results, hun.sent⟩
  tracks id hne hlost := by
    dsimp only
    rw [StatusWrites.status_congr husers]
    exact h.tracks id hne hlost

theorem not_getUser {app : App} {groupId : Int} {r : Request}
    (h : ∃ group, app.groups groupId = some group ∧ groupAsks group r) (ids : List Int) : r ≠ .getUser ids := by
  rintro rfl
  obtain ⟨_, _, hr⟩ := h
  exact hr

theorem Inv.command (h : Inv me s) {stmt : Stmt} (hw : stmt.silent = true)
    (hsafe : Safe me (s.base.emit () ⟨[], [stmt]⟩)) :
    Inv me { s with base := s.base.emit () ⟨[], [stmt]⟩ } := by
  have hflight : ∀ id, flight me (s.base.emit () ⟨[], [stmt]⟩) id = flight me s.base id := by
    intro id
    rw [flight_emit, flight]
    simp [writes_of_others hw]
  refine
    { safe := hsafe
      keyed := h.keyed
      owners := fun packet hm => h.owners packet (by simpa [State.emit] using hm)
      asked := h.asked
      unheard := fun id hne hshare => ?unheard
      tracks := fun id hne hlost => by dsimp only; rw [hflight]; exact h.tracks id hne hlost }
  have hun := h.unheard id hne hshare
  refine ⟨hun.unknown, by simpa [State.emit] using hun.channel, hun.results, fun ids hm => ?_⟩
  rw [State.emit_sent] at hm
  rcases List.mem_append.mp hm with hm | hm
  · exact hun.sent ids hm
  · obtain rfl := List.mem_singleton.mp hm
    cases hw

theorem Inv.packet (h : Inv me s) {packet : Packet} (hquiet : ∀ id, writes id packet = [])
    (howners : OwnersShare s.base.store me packet)
    (hsafe : Safe me { s.base with channel := s.base.channel ++ [packet] }) :
    Inv me { s with base := { s.base with channel := s.base.channel ++ [packet] } } := by
  have hchannel : ∀ id, (s.base.channel ++ [packet]).flatMap (writes id) = s.base.channel.flatMap (writes id) := by
    intro id
    simp [hquiet]
  refine
    { safe := hsafe
      keyed := h.keyed
      owners := fun packet hm => ?owners
      asked := h.asked
      unheard := fun id hne hshare => ?unheard
      tracks := fun id hne hlost => ?tracks }
  case owners =>
    rcases List.mem_append.mp hm with hm | hm
    · exact h.owners packet hm
    · obtain rfl := List.mem_singleton.mp hm
      exact howners
  case unheard =>
    have hun := h.unheard id hne hshare
    exact ⟨hun.unknown, (hchannel id).trans hun.channel, hun.results, hun.sent⟩
  case tracks =>
    have htracks := h.tracks id hne hlost
    rw [flight] at htracks ⊢
    dsimp only
    rw [hchannel]
    exact htracks

theorem Inv.base (h : Inv me s) {a : MemberSync.Action Unit} {b : MemberSync.State Unit}
    (ha : Apart s.base.store me a) (hk : KeptStep me s.base a b) : Inv me { s with base := b } := by
  have hsafe := h.safe.step hk
  obtain ⟨hpub, hs⟩ := hk
  cases hs with
  | select groupId =>
      rw [exec_select h.safe.page] at hsafe ⊢
      exact h.app hsafe (StatusWrites.usersPlain.select rfl groupId)
        ((Extends.select ..).mono (fun r hr => not_getUser hr))
  | scroll groupId =>
      rw [exec_scroll h.safe.page] at hsafe ⊢
      exact h.app hsafe (StatusWrites.usersPlain.scroll rfl groupId)
        ((Extends.scroll ..).mono (fun r hr => not_getUser hr))
  | deliver hc => exact h.deliver hc
  | serve => exact ha.elim
  | command => exact h.command ha hsafe
  | execute hsent hrun => exact h.execute hsent hrun hpub
  | result hr => exact h.result hr
  | packet => exact h.packet ha.1 ha.2 hsafe

theorem statusOf_update {online : Int → Option UserInfo} {userId : Int} {info : Option UserInfo} (h : id ≠ userId) :
    statusOf (Function.update online userId info) id = statusOf online id := by
  rw [statusOf, Function.update_of_ne h, statusOf]

theorem keyed_update (hkeyed : ∀ id info, s.online id = some info → info.userId = id) {userId : Int}
    {new : Option UserInfo} (hnew : ∀ info, new = some info → info.userId = userId) :
    ∀ id info, Function.update s.online userId new id = some info → info.userId = id := by
  intro id info ho
  by_cases he : id = userId
  · rw [he] at ho ⊢
    rw [Function.update_self] at ho
    exact hnew info ho
  · rw [Function.update_of_ne he] at ho
    exact hkeyed id info ho

theorem Inv.login (h : Inv me s) {info : UserInfo} (hnone : s.online info.userId = none)
    (hstatus : (User.new info).status = "offline") :
    Inv me { s with online := Function.update s.online info.userId (some info) } where
  safe := h.safe
  keyed := keyed_update h.keyed (fun _ he => by rw [Option.some.inj he])
  owners := h.owners
  asked := h.asked
  unheard := h.unheard
  tracks id hne hlost := by
    have hsame : statusOf (Function.update s.online info.userId (some info)) id = statusOf s.online id := by
      by_cases he : id = info.userId
      · rw [he, statusOf, statusOf, Function.update_self, hnone]
        exact hstatus
      · exact statusOf_update he
    dsimp only
    rw [hsame]
    exact h.tracks id hne hlost

section CutOff

variable {table : Table} {cut : Int → Bool}

theorem statusOf_cutOff (h : cut id = false) :
    statusOf (table.cutOff cut).online id = statusOf table.online id := by
  simp [statusOf, Table.cutOff, h]

theorem keyed_cutOff (hkeyed : ∀ id info, table.online id = some info → info.userId = id) (cut : Int → Bool) :
    ∀ id info, (table.cutOff cut).online id = some info → info.userId = id := by
  intro id info ho
  rw [Table.cutOff] at ho
  dsimp only at ho
  split at ho
  · cases ho
  · exact hkeyed id info ho

theorem cutOff_kept (h : (table.cutOff cut).lost id = false) : cut id = false ∧ table.lost id = false :=
  Bool.or_eq_false_iff.mp h

end CutOff

theorem Inv.cutOff (h : Inv me s) (cut : Int → Bool) : Inv me { s with toTable := s.toTable.cutOff cut } where
  safe := h.safe
  keyed := keyed_cutOff h.keyed cut
  owners := h.owners
  asked := h.asked
  unheard := h.unheard
  tracks id hne hlost := by
    obtain ⟨hcut, hlost⟩ := cutOff_kept hlost
    dsimp only
    rw [statusOf_cutOff hcut]
    exact h.tracks id hne hlost

/-- A change of status is the last that is sent to those who share a group. -/
theorem Inv.rtusm (h : Inv me s) {userId : Nat} {status : String} {table : Table}
    (hf : falsy (some status) = false) (hkeyed : ∀ id info, table.online id = some info → info.userId = id)
    (hself : table.lost userId = false → statusOf table.online userId = status)
    (hothers : ∀ id : Int, id ≠ userId → table.lost id = false →
      s.lost id = false ∧ statusOf table.online id = statusOf s.online id) :
    Inv me (s.announced table userId status) := by
  have hchannel : (s.base.emit () ⟨[], [.connectedUsers userId status]⟩).channel = s.base.channel :=
    List.append_nil _
  refine
    { safe := h.safe.step (a := .command () (.connectedUsers userId status)) ⟨trivial, .command _ _ rfl⟩
      keyed := hkeyed
      owners := fun packet hm => h.owners packet (hchannel ▸ hm)
      asked := h.asked
      unheard := fun id hne hshare => ?unheard
      tracks := fun id hne hlost => ?tracks }
  case unheard =>
    have hun := h.unheard id hne hshare
    refine ⟨hun.unknown, by rw [State.announced, hchannel]; exact hun.channel, hun.results,
      fun ids hm => hun.sent ids ?_⟩
    rw [State.announced, State.emit_sent] at hm
    exact (List.mem_append.mp hm).resolve_right (fun hm => by cases List.mem_singleton.mp hm)
  case tracks =>
    have hflight : flight me (s.base.emit () ⟨[], [.connectedUsers userId status]⟩) id =
        flight me s.base id ++ stmtWrites id (.connectedUsers userId status) := by
      rw [flight_emit, flight]
      simp
    rw [State.announced, hflight, stmtWrites, writes]
    change Tracks _ (StatusWrites.status s.base.app id) _
    by_cases he : (userId : Int) = id
    · subst he
      rw [if_pos ⟨rfl, hf⟩, hself hlost]
      exact .write _ _ (.set status)
    · obtain ⟨hlost, hsame⟩ := hothers id (Ne.symm he) hlost
      rw [if_neg (fun hn => he hn.1), List.append_nil, hsame]
      exact h.tracks id hne hlost

theorem Inv.put (h : Inv me s) {userId : Nat} {status : String} {new : Option UserInfo}
    (hnew : ∀ info, new = some info → info.userId = userId) (hf : falsy (some status) = false)
    (cut : Int → Bool) (hstatus : cut userId = false →
      (new.map (fun info => (User.new info).status)).getD "offline" = status) :
    Inv me (s.announced ((s.toTable.put userId new).cutOff cut) userId status) := by
  have hkeyed : ∀ id info, (s.toTable.put userId new).online id = some info → info.userId = id :=
    keyed_update h.keyed hnew
  refine h.rtusm hf (keyed_cutOff hkeyed cut) ?self ?others
  case self =>
    intro hlost
    obtain ⟨hcut, -⟩ := cutOff_kept hlost
    have hnow : (s.toTable.put userId new).online userId = new := Function.update_self ..
    rw [statusOf_cutOff hcut, statusOf, hnow, hstatus hcut]
  case others =>
    intro id hne hlost
    obtain ⟨hcut, hlost⟩ := cutOff_kept hlost
    have hsame : (s.toTable.put userId new).lost id = s.lost id := Function.update_of_ne hne ..
    exact ⟨hsame ▸ hlost, (statusOf_cutOff hcut).trans (statusOf_update hne)⟩

theorem cutOff_none (table : Table) : table.cutOff (fun _ => false) = table := rfl

theorem Inv.announces (h : Inv me s) {userId : Nat} {status : String} {table : Table}
    (ha : Announces me s.toTable userId status table) : Inv me (s.announced table userId status) := by
  cases ha with
  | userInfo ho =>
      rw [← cutOff_none (s.toTable.put _ _)]
      refine h.put ?_ rfl (fun _ => false) (fun _ => rfl)
      have hid := h.keyed _ _ ho
      rintro _ ⟨⟩
      exact hid
  | disconnect cut => exact h.put (fun _ hnone => (by cases hnone)) rfl cut (fun _ => rfl)
  | strayInfo =>
      refine h.put (fun _ hnone => (by cases hnone)) rfl _ (fun hcut => ?_)
      simp at hcut
  | strayClose =>
      rw [← cutOff_none (s.toTable.put _ _)]
      exact h.put (fun _ hnone => (by cases hnone)) rfl (fun _ => false) (fun _ => rfl)

theorem Inv.step (h : Inv me s) {a : Action} (hs : Step me s a t) : Inv me t := by
  cases hs with
  | base ha hk => exact h.base ha hk
  | serve hr => exact h.serve hr
  | announce ha => exact h.announces ha
  | table hu =>
      cases hu with
      | login _ hnone hstatus => exact h.login hnone hstatus
      | lose _ cut => exact h.cutOff cut

theorem reachable_inv (h : Reachable (Initial me) (Step me) s) : Inv me s :=
  h.invariant (fun _ hi => .initial hi) (fun _ _ _ hi hs => hi.step hs)

end ChityChat.PresenceSync
