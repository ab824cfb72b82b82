import ChityChat.MemberSync

namespace ChityChat.UnopenedJoin

open Transition WebClient Replica MemberUpdates MemberSync
open WriteStatements (Store)

variable {W : Type} [DecidableEq W] {me : Nat} {s t : State W} {groupId : Int} {ids : List Int}

structure Requested (s : State W) : Prop where
  channel : ∀ groupId ids, .getMemberIds groupId ids ∈ s.channel → .getMemberIds groupId ∈ s.app.sent
  sent : ∀ w groupId, .memberIds groupId ∈ s.sent w → .getMemberIds groupId ∈ s.app.sent
  results : ∀ w groupId ids, .memberIds groupId ids ∈ s.results w → .getMemberIds groupId ∈ s.app.sent
  loaded : ∀ groupId, s.loaded groupId = true → .getMemberIds groupId ∈ s.app.sent

omit [DecidableEq W] in
theorem Requested.initial (h : Initial me s) : Requested s where
  channel := by rw [h.channel]; exact nofun
  sent w _ hm := by cases h.sent w _ hm
  results w := by rw [h.results]; exact nofun
  loaded groupId hl := by rw [h.loaded] at hl; cases hl

omit [DecidableEq W] in
theorem Requested.app (h : Requested s) {app : App} (hsub : ∀ r ∈ s.app.sent, r ∈ app.sent) :
    Requested { s with app := app } where
  channel _ _ hm := hsub _ (h.channel _ _ hm)
  sent _ _ hm := hsub _ (h.sent _ _ hm)
  results _ _ _ hm := hsub _ (h.results _ _ _ hm)
  loaded _ hl := hsub _ (h.loaded _ hl)

theorem Requested.emit (h : Requested s) (w : W) {r : Sends}
    (hp : ∀ groupId ids, .getMemberIds groupId ids ∈ r.packets → .getMemberIds groupId ∈ s.app.sent)
    (hs : ∀ groupId, .memberIds groupId ∈ r.stmts → .getMemberIds groupId ∈ s.app.sent) :
    Requested (s.emit w r) where
  channel groupId ids hm := (List.mem_append.mp hm).elim (h.channel groupId ids) (hp groupId ids)
  sent w' groupId hm := by
    rcases mem_update hm with ⟨rfl, hm⟩ | hm
    · exact (List.mem_append.mp hm).elim (h.sent w' groupId) (hs groupId)
    · exact h.sent w' groupId hm
  results := h.results
  loaded := h.loaded

theorem Requested.serve (h : Requested s) {r : Request} (hr : r ∈ s.app.sent) (w : W)
    (online : Int → Option UserInfo) : Requested (s.served w online r) := by
  have hserved : Requested { s with handled := s.handled + 1 } := ⟨h.channel, h.sent, h.results, h.loaded⟩
  refine hserved.emit w (fun groupId ids hm => ?_) (fun groupId hm => ?_)
  · cases r with
    | getUser ids =>
        simp only [handler, serverGetUser, sendUsersFromClients] at hm
        split at hm
        · cases hm
        · cases List.mem_singleton.mp hm
    | _ => cases hm
  · cases r with
    | getMemberIds groupId' =>
        obtain rfl := Stmt.memberIds.inj (List.mem_singleton.mp hm)
        exact hr
    | getUser ids =>
        simp only [handler, serverGetUser] at hm
        split at hm
        · cases hm
        · cases List.mem_singleton.mp hm
    | clientGroups | getGroupMsgs => cases List.mem_singleton.mp hm
    | _ => cases hm

theorem Requested.execute (h : Requested s) {w : W} {stmt : Stmt} {rest : List Stmt} {store : Store} {res : Result}
    (hsent : s.sent w = stmt :: rest) (hrun : Runs me s.store stmt store res) :
    Requested (s.executed w rest store res) where
  channel := h.channel
  sent w' groupId hm := by
    rcases mem_update hm with ⟨rfl, hrest⟩ | hm
    · exact h.sent w' groupId (hsent ▸ List.mem_cons_of_mem _ hrest)
    · exact h.sent w' groupId hm
  results w' groupId ids hm := by
    rcases mem_update hm with ⟨rfl, hm⟩ | hm
    · rcases List.mem_append.mp hm with hm | hm
      · exact h.results w' groupId ids hm
      · obtain rfl := List.mem_singleton.mp hm
        cases hrun with
        | memberIds => exact h.sent w' groupId (hsent ▸ List.mem_cons_self)
    · exact h.results w' groupId ids hm
  loaded := h.loaded

theorem Requested.result (h : Requested s) {w : W} {res : Result} {rest : List Result}
    (hr : s.results w = res :: rest) : Requested (s.taken me w rest res) := by
  have htaken : Requested { s with results := Function.update s.results w rest } :=
    { h with
      results := fun w' groupId ids hm => by
        rcases mem_update hm with ⟨rfl, hrest⟩ | hm
        · exact h.results w' groupId ids (hr ▸ List.mem_cons_of_mem _ hrest)
        · exact h.results w' groupId ids hm }
  refine htaken.emit w (fun groupId ids hm => ?_) (fun groupId hm => ?_)
  · cases res with
    | memberIds groupId' ids' =>
        obtain ⟨rfl, rfl⟩ := Packet.getMemberIds.inj (List.mem_singleton.mp hm)
        exact h.results w groupId ids (hr ▸ List.mem_cons_self)
    | groups | announce | connectedUsers =>
        rw [callback] at hm
        split at hm
        · cases List.mem_singleton.mp hm
        · cases hm
    | broadcast ids' groupId' note =>
        rw [callback] at hm
        split at hm
        · cases note <;> cases List.mem_singleton.mp hm
        · cases hm
    | users | groupMsgs | noMsgs => cases List.mem_singleton.mp hm
    | joined | changed | done => cases hm
  · cases res with
    | joined userId groupId' => simp [callback, onUserGroupJoin] at hm
    | changed => cases List.mem_singleton.mp hm
    | _ => cases hm

theorem snapshot_updates {packet : Packet} (hm : .snapshot ids ∈ updates groupId packet) :
    packet = .getMemberIds groupId ids := by
  cases packet with
  | getMemberIds groupId' ids' =>
      rw [updates] at hm
      split at hm
      · next he =>
          obtain rfl := Update.snapshot.inj (List.mem_singleton.mp hm)
          rw [he]
      · cases hm
  | joinGroup groupId' userId =>
      rw [updates] at hm
      split at hm
      · cases List.mem_singleton.mp hm
      · cases hm
  | clientGroups groups =>
      obtain ⟨-, -, he⟩ := List.mem_map.mp hm
      cases he
  | _ => cases hm

omit [DecidableEq W] in
theorem Requested.deliver (h : Requested s) (hsafe : Safe me s) {packet : Packet} {rest : List Packet}
    (hc : s.channel = packet :: rest) : Requested (s.delivered packet rest) := by
  have hp := hsafe.head hc
  have hsub : ∀ r ∈ s.app.sent, r ∈ (s.app.exec (.packet packet)).sent := by
    intro r hm
    rw [exec_packet hsafe.page]
    exact (Extends.packet s.app hp.ne_session).subset hm
  refine
    { channel := fun groupId ids hm => hsub _ (h.channel groupId ids (hc ▸ List.mem_cons_of_mem _ hm))
      sent := fun w groupId hm => hsub _ (h.sent w groupId hm)
      results := fun w groupId ids hm => hsub _ (h.results w groupId ids hm)
      loaded := fun groupId hl => hsub _ ?loaded }
  rcases View.loaded_after hl with hl | ⟨ids, hm⟩
  · exact h.loaded groupId hl
  · obtain rfl := snapshot_updates hm
    exact h.channel groupId ids (hc ▸ List.mem_cons_self)

theorem Requested.step (h : Requested s) (hsafe : Safe me s) {a : Action W} (hs : KeptStep me s a t) :
    Requested t := by
  obtain ⟨hpub, hs⟩ := hs
  cases hs with
  | select groupId =>
      refine h.app (fun r hm => ?_)
      rw [exec_select hsafe.page]
      exact (Extends.select ..).subset hm
  | scroll groupId =>
      refine h.app (fun r hm => ?_)
      rw [exec_scroll hsafe.page]
      exact (Extends.scroll ..).subset hm
  | deliver hc => exact h.deliver hsafe hc
  | serve w online hr honline => exact h.serve (List.mem_of_getElem? hr) w online
  | @command w stmt hw =>
      refine h.emit w nofun (fun groupId hm => ?_)
      obtain rfl := List.mem_singleton.mp hm
      cases hw
  | execute hsent hrun => exact h.execute hsent hrun
  | result hr => exact h.result hr
  | packet hn =>
      refine { h with channel := fun groupId ids hm => ?_ }
      rcases List.mem_append.mp hm with hm | hm
      · exact h.channel groupId ids hm
      · obtain rfl := List.mem_singleton.mp hm
        exact hn.elim

theorem reachable_requested (h : Reachable (Initial me) (KeptStep me) s) : Safe me s ∧ Requested s :=
  h.invariant (I := fun s => Safe me s ∧ Requested s) (fun _ hi => ⟨.initial hi, .initial hi⟩)
    (fun _ _ _ hi hs => ⟨hi.1.step hs, hi.2.step hi.1 hs⟩)

def joins (groupId : Int) : Packet → List Int
  | .joinGroup groupId' userId => if groupId' = groupId then [userId] else []
  | _ => []

def arrives (s : State W) : Action W → List Packet
  | .deliver => s.channel.head?.toList
  | _ => []

/-- The next packet is not a list of groups with the group, which would be a new object. -/
def KeepsGroup (groupId : Int) (s : State W) (a : Action W) : Prop :=
  ∀ packet ∈ arrives s a, .reset ∉ updates groupId packet

structure Unopened (groupId : Int) (ids : List Int) (s : State W) : Prop where
  list : listOf s.app groupId = some ids
  unasked : .getMemberIds groupId ∉ s.app.sent

omit [DecidableEq W] in
theorem Unopened.click (h : Unopened groupId ids s) (hsafe : Safe me s) (hne : ids ≠ []) {app : App}
    {groupId' : Int} (hlist : listOf app = listOf s.app)
    (hext : Extends (fun r => ∃ group, s.app.groups groupId' = some group ∧ groupAsks group r) s.app app) :
    Unopened groupId ids { s with app := app } := by
  refine ⟨by dsimp only; rw [hlist]; exact h.list, hext.not_mem ?_ h.unasked⟩
  rintro ⟨group, hg, hid, hempty⟩
  have hgroup : groupId' = groupId := (hsafe.shown groupId' group hg).id.symm.trans hid.symm
  have hids := h.list
  rw [← hgroup, listOf_some hg, hempty] at hids
  exact hne (Option.some.inj hids).symm

theorem updates_joins {packet : Packet} (hreset : .reset ∉ updates groupId packet)
    (hsnapshot : ∀ ids, .snapshot ids ∉ updates groupId packet) :
    updates groupId packet = (joins groupId packet).map .add := by
  cases packet with
  | clientGroups groups =>
      refine List.eq_nil_iff_forall_not_mem.mpr (fun u hm => ?_)
      obtain ⟨-, -, rfl⟩ := List.mem_map.mp hm
      exact hreset hm
  | getMemberIds groupId' ids =>
      refine List.eq_nil_iff_forall_not_mem.mpr (fun u hm => hsnapshot ids ?_)
      rw [updates] at hm ⊢
      split at hm
      · next he =>
          rw [if_pos he]
          exact List.mem_singleton_self _
      · cases hm
  | joinGroup groupId' userId =>
      rw [updates, joins]
      split <;> rfl
  | _ => rfl

omit [DecidableEq W] in
theorem Unopened.deliver (h : Unopened groupId ids s) (hsafe : Safe me s) (hreq : Requested s) {packet : Packet}
    {rest : List Packet} (hc : s.channel = packet :: rest) (hreset : .reset ∉ updates groupId packet) :
    Unopened groupId (ids ++ joins groupId packet) (s.delivered packet rest) := by
  have hp := hsafe.head hc
  have hexec : (s.delivered packet rest).app = handlePacket s.app packet := exec_packet hsafe.page packet
  constructor
  · have hsnapshot : ∀ ids, .snapshot ids ∉ updates groupId packet := by
      intro ids hm
      obtain rfl := snapshot_updates hm
      exact h.unasked (hreq.channel groupId ids (hc ▸ List.mem_cons_self))
    have hview : (⟨listOf s.app groupId, false⟩ : View Int).list = some ids := h.list
    rw [hexec, listOf_packet s.app hp.ne_delete groupId false, updates_joins hreset hsnapshot]
    exact View.after_adds hview _
  · rw [hexec]
    refine (Extends.packet s.app hp.ne_session).not_mem (fun ha => hreset ?_) h.unasked
    cases packet with
    | clientGroups groups =>
        obtain ⟨info, hm, he⟩ := ha
        exact List.mem_map.mpr ⟨info, List.mem_filter.mpr ⟨hm, by simpa using he⟩, rfl⟩
    | _ => exact ha.elim

theorem Unopened.step (h : Unopened groupId ids s) (hsafe : Safe me s) (hreq : Requested s) (hne : ids ≠ [])
    {a : Action W} (hk : KeepsGroup groupId s a) (hs : KeptStep me s a t) :
    Unopened groupId (ids ++ (arrives s a).flatMap (joins groupId)) t := by
  have hstill : ∀ {t : State W}, Unopened groupId ids t → arrives s a = [] →
      Unopened groupId (ids ++ (arrives s a).flatMap (joins groupId)) t := by
    intro t ht hnone
    rw [hnone, List.flatMap_nil, List.append_nil]
    exact ht
  obtain ⟨hpub, hs⟩ := hs
  cases hs with
  | select groupId' =>
      refine hstill ?_ rfl
      rw [exec_select hsafe.page]
      exact h.click hsafe hne (listOf_select ..) (.select ..)
  | scroll groupId' =>
      refine hstill ?_ rfl
      rw [exec_scroll hsafe.page]
      exact h.click hsafe hne (listOf_scroll ..) (.scroll ..)
  | @deliver packet rest hc =>
      have harrives : arrives s .deliver = [packet] := by rw [arrives, hc]; rfl
      rw [harrives, List.flatMap_singleton]
      exact h.deliver hsafe hreq hc (hk packet (by rw [harrives]; exact List.mem_singleton_self _))
  | _ => exact hstill ⟨h.list, h.unasked⟩ rfl

end ChityChat.UnopenedJoin
