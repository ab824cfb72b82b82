import ChityChat.MemberSync

namespace ChityChat.MemberAgreement

open Transition Schema WebClient Replica MemberUpdates MemberSync
open WriteStatements (Store Stored insertGroup)
open ClientMembers (Known)

variable {W : Type} [DecidableEq W] {me : Nat} {s t : State W}

theorem mem_emit {w' : W} {stmt : Stmt} (h : stmt ∈ s.sent w') (w : W) (r : Sends) :
    stmt ∈ (s.emit w r).sent w' := by
  by_cases he : w' = w
  · subst he
    rw [State.emit_sent]
    exact List.mem_append_left _ h
  · rw [State.emit]
    dsimp only
    rwa [Function.update_of_ne he]

section Requests

def Answering (s : State W) (id : Int) : Prop :=
  (∃ infos, .getUser infos ∈ s.channel ∧ ∃ info ∈ infos, info.userId = id) ∨
    ∃ w, (∃ infos, .users infos ∈ s.results w ∧ ∃ info ∈ infos, info.userId = id) ∨
      ∃ ids, .userArray ids ∈ s.sent w ∧ id ∈ ids

structure Asked (s : State W) : Prop where
  handled : s.handled ≤ s.app.sent.length
  users : ∀ ids, .getUser ids ∈ s.app.sent → ∀ id ∈ ids, IsUser s.store id
  answered : ∀ i < s.handled, ∀ ids, s.app.sent[i]? = some (.getUser ids) →
    ∀ id ∈ ids, Known s.app id ∨ Answering s id

def AsksUsers (s : Store) (r : Request) : Prop := ∀ ids, r = .getUser ids → ∀ id ∈ ids, IsUser s id

theorem opened_users {store : Store} {app : App} {groupId : Int} {r : Request}
    (h : ∃ group, app.groups groupId = some group ∧ groupAsks group r) : AsksUsers store r := by
  rintro ids rfl
  obtain ⟨group, -, hr⟩ := h
  exact hr.elim

omit [DecidableEq W] in
theorem Asked.move (h : Asked s) (hhandled : t.handled = s.handled)
    (hext : Extends (AsksUsers s.store) s.app t.app) (husers : ∀ id, IsUser s.store id → IsUser t.store id)
    (hanswer : ∀ id, IsUser s.store id → Known s.app id ∨ Answering s id → Known t.app id ∨ Answering t id) :
    Asked t := by
  obtain ⟨rs, hsent, hrs⟩ := hext.sent
  refine ⟨?_, ?_, ?_⟩
  · rw [hhandled, hsent, List.length_append]
    exact Nat.le_add_right_of_le h.handled
  · intro ids hm id hid
    rw [hsent] at hm
    rcases List.mem_append.mp hm with hm | hm
    · exact husers id (h.users ids hm id hid)
    · exact husers id (hrs _ hm ids rfl id hid)
  · intro i hi ids hget id hid
    rw [hhandled] at hi
    rw [hsent, List.getElem?_append_left (Nat.lt_of_lt_of_le hi h.handled)] at hget
    have huser := h.users ids (List.mem_of_getElem? hget) id hid
    exact hanswer id huser (h.answered i hi ids hget id hid)

theorem Answering.emit {id : Int} (h : Answering s id) (w : W) (r : Sends) : Answering (s.emit w r) id := by
  rcases h with ⟨infos, hm, hid⟩ | ⟨w', h | ⟨ids, hm, hid⟩⟩
  · exact .inl ⟨infos, List.mem_append_left _ hm, hid⟩
  · exact .inr ⟨w', .inl h⟩
  · exact .inr ⟨w', .inr ⟨ids, mem_emit hm w r, hid⟩⟩

theorem answering_getUser {online : Int → Option UserInfo}
    (honline : ∀ id info, online id = some info → info.userId = id) {ids : List Int} {id : Int}
    (hid : id ∈ ids) (w : W) : Answering (s.emit w (handler online (.getUser ids))) id := by
  cases ho : online id with
  | some info =>
      have hm : info ∈ ids.reverse.filterMap online :=
        List.mem_filterMap.mpr ⟨id, List.mem_reverse.mpr hid, ho⟩
      refine .inl ⟨ids.reverse.filterMap online, ?_, info, hm, honline id info ho⟩
      refine List.mem_append_right _ ?_
      rw [handler, serverGetUser, sendUsersFromClients, if_neg (List.ne_nil_of_mem hm)]
      exact List.mem_singleton_self _
  | none =>
      have hm : id ∈ ids.filter (fun id => (online id).isNone) := by simp [hid, ho]
      refine .inr ⟨w, .inr ⟨ids.filter (fun id => (online id).isNone), ?_, hm⟩⟩
      rw [State.emit_sent, handler, serverGetUser, if_neg (List.ne_nil_of_mem hm)]
      exact List.mem_append_right _ (List.mem_singleton_self _)

theorem Asked.serve (h : Asked s) {r : Request} (hr : s.app.sent[s.handled]? = some r) (w : W)
    {online : Int → Option UserInfo} (honline : ∀ id info, online id = some info → info.userId = id) :
    Asked (s.served w online r) where
  handled := (List.getElem?_eq_some_iff.mp hr).1
  users := h.users
  answered i hi ids hget id hid := by
    rcases Nat.lt_succ_iff_lt_or_eq.mp hi with hi | rfl
    · exact (h.answered i hi ids hget id hid).imp_right (fun ha => Answering.emit ha w _)
    · obtain rfl := Option.some.inj (hr.symm.trans hget)
      exact .inr (answering_getUser honline hid w)

omit [DecidableEq W] in
theorem Asked.initial (h : Initial me s) : Asked s := by
  obtain ⟨urlGroup, storedGroup, info, -, happ⟩ := h.app
  have hsent : s.app.sent = [.clientUserInfo, .clientGroups] := by
    rw [happ]
    rfl
  refine ⟨by rw [h.handled, hsent]; decide, ?_, ?_⟩
  · intro ids hm
    rw [hsent] at hm
    simp at hm
  · intro i hi ids hget
    have hm := List.mem_of_getElem? hget
    rw [hsent] at hm
    simp at hm

theorem mem_selectUserJson {store : Store} {ids : List Int} {id : Int} (hu : IsUser store id)
    (hid : id ∈ ids) :
    ∃ info ∈ (GroupRead.selectUserJson store.toDatabase ids).map userInfo, info.userId = id := by
  obtain ⟨u, hm, rfl⟩ := hu
  exact ⟨userInfo u, List.mem_map_of_mem (List.mem_filter.mpr ⟨hm, by simpa using hid⟩), rfl⟩

omit [DecidableEq W] in
theorem Asked.deliver (h : Asked s) (hsafe : Safe me s) {packet : Packet} {rest : List Packet}
    (hc : s.channel = packet :: rest) : Asked (s.delivered packet rest) := by
  have hp := hsafe.head hc
  have hexec := exec_packet hsafe.page packet
  refine h.move rfl ?_ (fun _ hu => hu) ?_
  · rw [State.delivered_app, hexec]
    refine (Extends.packet s.app hp.ne_session).mono ?_
    rintro r hr ids rfl
    exact hp.asks hsafe.stored hr
  · rintro id - hk
    rw [State.delivered_app, hexec]
    rcases hk with hk | ⟨infos, hm, hid⟩ | ha
    · exact .inl (known_packet hk packet)
    · rcases List.mem_cons.mp (hc ▸ hm) with rfl | hm
      · exact .inl ((known_getUser s.app infos id).mpr (.inr hid))
      · exact .inr (.inl ⟨infos, hm, hid⟩)
    · exact .inr (.inr ha)

theorem Asked.execute (h : Asked s) {w : W} {stmt : Stmt} {rest : List Stmt} {store : Store} {res : Result}
    (hsent : s.sent w = stmt :: rest) (hrun : Runs me s.store stmt store res) (hgrows : Grows s.store store) :
    Asked (s.executed w rest store res) := by
  refine h.move rfl (.same ⟨rfl, rfl⟩ rfl) hgrows.users ?_
  rintro id hu (hk | hin | ⟨w', ⟨infos, hm, hid⟩ | ⟨ids, hm, hid⟩⟩)
  · exact .inl hk
  · exact .inr (.inl hin)
  · refine .inr (.inr ⟨w', .inl ⟨infos, ?_, hid⟩⟩)
    by_cases he : w' = w
    · subst he
      rw [State.executed_results]
      exact List.mem_append_left _ hm
    · rw [State.executed]
      dsimp only
      rwa [Function.update_of_ne he]
  · refine .inr (.inr ⟨w', ?_⟩)
    by_cases he : w' = w
    · subst he
      rw [State.executed_results, State.executed_sent]
      rcases List.mem_cons.mp (hsent ▸ hm) with rfl | hm
      · cases hrun with
        | userArray =>
            have hfound := mem_selectUserJson hu hid
            exact .inl ⟨_, List.mem_append_right _ (List.mem_singleton_self _), hfound⟩
        | failed users groups msgs hw hs => cases hw
      · exact .inr ⟨ids, hm, hid⟩
    · rw [State.executed]
      dsimp only
      rw [Function.update_of_ne he, Function.update_of_ne he]
      exact .inr ⟨ids, hm, hid⟩

theorem Asked.result (h : Asked s) {w : W} {res : Result} {rest : List Result} (hr : s.results w = res :: rest) :
    Asked (s.taken me w rest res) := by
  refine h.move rfl (.same ⟨rfl, rfl⟩ rfl) (fun _ hu => hu) ?_
  rintro id - (hk | ⟨infos, hm, hid⟩ | ⟨w', ⟨infos, hm, hid⟩ | ⟨ids, hm, hid⟩⟩)
  · exact .inl hk
  · exact .inr (.inl ⟨infos, List.mem_append_left _ hm, hid⟩)
  · by_cases he : w' = w
    · subst he
      rcases List.mem_cons.mp (hr ▸ hm) with rfl | hm
      · exact .inr (.inl ⟨infos, List.mem_append_right _ (List.mem_singleton_self _), hid⟩)
      · refine .inr (.inr ⟨w', .inl ⟨infos, ?_, hid⟩⟩)
        change _ ∈ Function.update s.results w' rest w'
        rwa [Function.update_self]
    · refine .inr (.inr ⟨w', .inl ⟨infos, ?_, hid⟩⟩)
      change _ ∈ Function.update s.results w rest w'
      rwa [Function.update_of_ne he]
  · have ha : Answering { s with results := Function.update s.results w rest } id :=
      .inr ⟨w', .inr ⟨ids, hm, hid⟩⟩
    exact .inr (ha.emit w _)

theorem Asked.step (h : Asked s) (hsafe : Safe me s) {a : Action W} (hs : KeptStep me s a t) : Asked t := by
  obtain ⟨hpub, hs⟩ := hs
  cases hs with
  | select groupId =>
      refine h.move rfl ?_ (fun _ hu => hu) ?_
      · dsimp only
        rw [exec_select hsafe.page]
        exact (Extends.select ..).mono (fun r hr => opened_users hr)
      · dsimp only
        rw [exec_select hsafe.page]
        exact fun id _ hk => hk.imp_left (fun hk => knownPlain.select hk groupId)
  | scroll groupId =>
      refine h.move rfl ?_ (fun _ hu => hu) ?_
      · dsimp only
        rw [exec_scroll hsafe.page]
        exact (Extends.scroll ..).mono (fun r hr => opened_users hr)
      · dsimp only
        rw [exec_scroll hsafe.page]
        exact fun id _ hk => hk.imp_left (fun hk => knownPlain.scroll hk groupId)
  | deliver hc => exact h.deliver hsafe hc
  | serve w online hr honline => exact h.serve hr w honline
  | command w hw =>
      exact h.move rfl (.same ⟨rfl, rfl⟩ rfl) (fun _ hu => hu)
        (fun id _ hk => hk.imp_right (fun ha => Answering.emit ha w _))
  | @execute w stmt rest store res hsent hrun =>
      have hstmt : StmtSound s.store stmt := hsafe.sent w stmt (hsent ▸ List.mem_cons_self)
      have hsound := hrun.sound hsafe.stored hstmt (fun userId groupId he => hpub userId groupId rest (he ▸ hsent))
      exact h.execute hsent hrun hsound.1
  | result hr => exact h.result hr
  | packet hn =>
      refine h.move rfl (.same ⟨rfl, rfl⟩ rfl) (fun _ hu => hu) ?_
      rintro id - (hk | ⟨infos, hm, hid⟩ | ha)
      · exact .inl hk
      · exact .inr (.inl ⟨infos, List.mem_append_left _ hm, hid⟩)
      · exact .inr (.inr ha)

end Requests

section OneWorker

variable {w : W}

/-- What is on its way to the list of a group, in the order in which it arrives. -/
def flight (me : Nat) (s : State W) (w : W) (groupId : Int) : List (Update Int) :=
  s.channel.flatMap (updates groupId) ++
    (s.results w).flatMap (fun res => (callback me res).packets.flatMap (updates groupId))

def Late (s : State W) (w : W) (groupId id : Int) : Prop :=
  ∃ userId groupId' : Nat, (groupId' : Int) = groupId ∧ (userId : Int) = id ∧
    (.joined userId groupId' ∈ s.results w ∨ .announce groupId' userId ∈ s.sent w)

/-- The list of a group is complete behind what is under way. -/
def Synced (me : Nat) (s : State W) (w : W) : Prop :=
  ∀ groupId, Complete (fun id => id ∈ memberIds s.store groupId) (Late s w groupId) (s.view groupId)
    (flight me s w groupId)

omit [DecidableEq W] in
theorem Synced.initial (h : Initial me s) (w : W) : Synced me s w := by
  intro groupId hloaded
  rw [flight, h.channel, h.results] at hloaded
  change s.loaded groupId = true at hloaded
  rw [h.loaded] at hloaded
  cases hloaded

omit [DecidableEq W] in
theorem own_flight (h : Safe me s) {groupId : Int}
    (hs : ((s.view groupId).after (flight me s w groupId)).list.isSome) :
    (me : Int) ∈ memberIds s.store groupId := by
  rcases View.isSome_after hs with hs | hm
  · exact h.own groupId hs
  · rcases List.mem_append.mp hm with hm | hm
    · obtain ⟨packet, hp, hm⟩ := List.mem_flatMap.mp hm
      exact (h.channel packet hp).reset hm
    · obtain ⟨res, hr, hm⟩ := List.mem_flatMap.mp hm
      obtain ⟨packet, hp, hm⟩ := List.mem_flatMap.mp hm
      exact ((callback_sound (h.results w res hr)).1 packet hp).reset hm

theorem flight_emit (s : State W) (w w' : W) {r : Sends} (groupId : Int) :
    flight me (s.emit w' r) w groupId =
      (s.channel ++ r.packets).flatMap (updates groupId) ++
        (s.results w).flatMap (fun res => (callback me res).packets.flatMap (updates groupId)) := rfl

theorem handler_updates (online : Int → Option UserInfo) (r : Request) (groupId : Int) :
    (handler online r).packets.flatMap (updates groupId) = [] := by
  cases r with
  | getUser ids =>
      simp only [handler, serverGetUser, sendUsersFromClients]
      split <;> rfl
  | _ => rfl

theorem Late.emit {w' : W} {groupId id : Int} (h : Late s w groupId id) (r : Sends) :
    Late (s.emit w' r) w groupId id := by
  obtain ⟨userId, groupId', hg, hu, hm | hm⟩ := h
  · exact ⟨userId, groupId', hg, hu, .inl hm⟩
  · exact ⟨userId, groupId', hg, hu, .inr (mem_emit hm w' r)⟩

omit [DecidableEq W] in
theorem Synced.deliver (h : Synced me s w) (hsafe : Safe me s) {packet : Packet} {rest : List Packet}
    (hc : s.channel = packet :: rest) :
    Synced me (s.delivered packet rest) w := by
  have hp := hsafe.head hc
  intro groupId
  have hflight : flight me s w groupId = updates groupId packet ++ (rest.flatMap (updates groupId) ++
      (s.results w).flatMap (fun res => (callback me res).packets.flatMap (updates groupId))) := by
    rw [flight, hc, List.flatMap_cons, List.append_assoc]
  have hview : listOf (s.app.exec (.packet packet)) groupId =
      ((s.view groupId).after (updates groupId packet)).list := by
    rw [exec_packet hsafe.page]
    exact listOf_packet s.app hp.ne_delete groupId _
  have hcomplete := h groupId
  rw [hflight] at hcomplete
  have hrest := hcomplete.deliver
  rw [Core.view, State.delivered_app, hview]
  exact hrest

omit [DecidableEq W] in
theorem Synced.announced (h : Synced me s w) (hsafe : Safe me s) {groupId userId : Nat}
    {late : Int → Prop} (groupId' : Int)
    (hlate : ∀ id, Late s w groupId' id → ((groupId : Int) = groupId' ∧ id = userId) ∨ late id) :
    Complete (fun id => id ∈ memberIds s.store groupId') late (s.view groupId')
      (flight me s w groupId' ++
        (callback me (.announce (memberIds s.store groupId) groupId userId)).packets.flatMap
          (updates groupId')) := by
  have hother : (groupId : Int) ≠ groupId' → Complete (fun id => id ∈ memberIds s.store groupId') late
      (s.view groupId') (flight me s w groupId') := fun he =>
    (h groupId').mono (fun _ hs => .inl hs) (fun id hl => (hlate id hl).resolve_left (fun hn => he hn.1))
  by_cases hm : (me : Int) ∈ memberIds s.store groupId
  · rw [callback, if_pos hm]
    by_cases he : (groupId : Int) = groupId'
    · simp only [List.flatMap_cons, List.flatMap_nil, List.append_nil, updates, if_pos he]
      exact (h groupId').add (fun id hl => (hlate id hl).imp_left And.right)
    · simp only [List.flatMap_cons, List.flatMap_nil, List.append_nil, updates, if_neg he]
      exact hother he
  · rw [callback, if_neg hm]
    simp only [List.flatMap_nil, List.append_nil]
    by_cases he : (groupId : Int) = groupId'
    · refine .absent (Option.not_isSome_iff_eq_none.mp (fun hs => hm ?_))
      exact he ▸ own_flight hsafe hs
    · exact hother he

omit [DecidableEq W] in
theorem Synced.move (h : Synced me s w) (hview : ∀ groupId, t.view groupId = s.view groupId)
    (hflight : ∀ groupId, flight me t w groupId = flight me s w groupId)
    (hsource : ∀ groupId id, id ∈ memberIds t.store groupId →
      id ∈ memberIds s.store groupId ∨ Late t w groupId id)
    (hlate : ∀ groupId id, Late s w groupId id → Late t w groupId id) : Synced me t w := by
  intro groupId
  rw [hview, hflight]
  exact (h groupId).mono (hsource groupId) (hlate groupId)

theorem flight_executed (s : State W) (w : W) (rest : List Stmt) (store : Store) (res : Result) (groupId : Int) :
    flight me (s.executed w rest store res) w groupId =
      flight me s w groupId ++ (callback me res).packets.flatMap (updates groupId) := by
  simp [flight, State.executed]

theorem Late.executed {groupId id : Int} (h : Late s w groupId id) {stmt : Stmt} {rest : List Stmt}
    (hsent : s.sent w = stmt :: rest) (store : Store) (res : Result) :
    (∃ userId groupId' : Nat, stmt = .announce groupId' userId ∧ (groupId' : Int) = groupId ∧
        (userId : Int) = id) ∨
      Late (s.executed w rest store res) w groupId id := by
  obtain ⟨userId, groupId', hg, hu, hm | hm⟩ := h
  · refine .inr ⟨userId, groupId', hg, hu, .inl ?_⟩
    rw [State.executed_results]
    exact List.mem_append_left _ hm
  · rcases List.mem_cons.mp (hsent ▸ hm) with heq | hm
    · exact .inl ⟨userId, groupId', heq.symm, hg, hu⟩
    · refine .inr ⟨userId, groupId', hg, hu, .inr ?_⟩
      rwa [State.executed_sent]

theorem groups_resets (userId : Nat) (groups : List GroupInfo) (groupId : Int) :
    ∀ u ∈ (callback me (.groups userId groups)).packets.flatMap (updates groupId), u = .reset := by
  intro u hm
  rw [callback] at hm
  split at hm
  · simp only [List.flatMap_cons, List.flatMap_nil, List.append_nil, updates] at hm
    obtain ⟨-, -, rfl⟩ := List.mem_map.mp hm
    rfl
  · cases hm

theorem Late.kept {groupId id : Int} (h : Late s w groupId id) {stmt : Stmt} {rest : List Stmt}
    (hsent : s.sent w = stmt :: rest) (hne : ∀ groupId userId, stmt ≠ .announce groupId userId)
    (store : Store) (res : Result) : Late (s.executed w rest store res) w groupId id := by
  refine (h.executed hsent store res).resolve_left ?_
  rintro ⟨userId, groupId', heq, -⟩
  exact hne _ _ heq

theorem Synced.joined (h : Synced me s w) {stmt : Stmt} {rest : List Stmt} {store : Store}
    (hsent : s.sent w = stmt :: rest) (hne : ∀ groupId userId, stmt ≠ .announce groupId userId)
    {userId groupId : Nat} (hins : Inserts s.store store userId groupId) :
    Synced me (s.executed w rest store (.joined userId groupId)) w := by
  refine h.move (fun _ => rfl) (fun groupId' => ?_) (fun groupId' id hid => ?_)
    (fun groupId' id hl => hl.kept hsent hne store _)
  · rw [flight_executed]
    exact List.append_nil _
  · refine (hins.memberIds.mp hid).imp_right ?_
    rintro ⟨hg, hu⟩
    refine ⟨userId, groupId, hg, hu, .inl ?_⟩
    rw [State.executed_results]
    exact List.mem_append_right _ (List.mem_singleton_self _)

theorem Synced.created (h : Synced me s w) (hsafe : Safe me s) {stmt : Stmt} {rest : List Stmt} {store : Store}
    (hsent : s.sent w = stmt :: rest) (hne : ∀ groupId userId, stmt ≠ .announce groupId userId)
    {userId : Nat} (hins : Inserts s.store store userId s.store.groupSeq) {info : GroupInfo}
    (hinfo : info.groupId = s.store.groupSeq) :
    Synced me (s.executed w rest store (.groups userId [info])) w := by
  intro groupId
  rw [flight_executed]
  by_cases he : (s.store.groupSeq : Int) = groupId
  · subst he
    by_cases hme : userId = me
    · have hreset : (callback me (.groups userId [info])).packets.flatMap (updates s.store.groupSeq) = [.reset] := by
        simp [callback, hme, updates, hinfo]
      rw [hreset]
      exact .reset
    · have hnone : (callback me (.groups userId [info])).packets = [] := by simp [callback, hme]
      rw [hnone, List.flatMap_nil, List.append_nil]
      refine .absent (Option.not_isSome_iff_eq_none.mp (fun hs => ?_))
      exact memberIds_groupSeq hsafe.stored me (own_flight hsafe hs)
  · refine ((h groupId).mono (fun id hid => ?_) (fun id hl => hl.kept hsent hne store _)).resets
      (groups_resets userId [info] groupId)
    exact .inl ((hins.memberIds.mp hid).resolve_right (fun hn => he hn.1))

theorem Synced.execute (h : Synced me s w) (hsafe : Safe me s) {stmt : Stmt} {rest : List Stmt} {store : Store}
    {res : Result} (hsent : s.sent w = stmt :: rest) (hrun : Runs me s.store stmt store res)
    (hpub : JoinsPublic s (.execute w)) : Synced me (s.executed w rest store res) w := by
  cases hrun with
  | userGroups | group =>
      intro groupId
      rw [flight_executed]
      refine ((h groupId).mono (fun _ hs => .inl hs) (fun id hl => ?_)).resets (groups_resets _ _ groupId)
      exact hl.kept hsent (fun _ _ => Stmt.noConfusion) _ _
  | memberIds groupId' =>
      intro groupId
      rw [flight_executed]
      by_cases he : groupId' = groupId
      · subst he
        simp only [callback, List.flatMap_cons, List.flatMap_nil, List.append_nil, updates, if_pos]
        exact .snapshot (fun _ hs => hs)
      · simp only [callback, List.flatMap_cons, List.flatMap_nil, List.append_nil, updates, if_neg he]
        refine (h groupId).mono (fun _ hs => .inl hs) (fun id hl => ?_)
        exact hl.kept hsent (fun _ _ => Stmt.noConfusion) _ _
  | announce groupId' userId =>
      intro groupId
      rw [flight_executed]
      refine h.announced hsafe groupId (fun id hl => ?_)
      refine (hl.executed hsent _ _).imp_left ?_
      rintro ⟨userId, groupId', heq, hg, hu⟩
      obtain ⟨rfl, rfl⟩ := Stmt.announce.inj heq
      exact ⟨hg, hu.symm⟩
  | joinPubGroup userId groupId' hs =>
      have hins : Inserts s.store _ userId groupId' := joinPubGroup_inserts (hpub userId groupId' rest hsent)
      exact h.joined hsent (fun _ _ => Stmt.noConfusion) hins
  | joinGroupCode hgc hrun hs =>
      have hins := (insertGroupmemberCode_inserts hgc hrun).1
      exact h.joined hsent (fun _ _ => Stmt.noConfusion) hins
  | @createGroup userId name isPublic now hs =>
      have hins := insertGroup_inserts (s := s.store) now name userId isPublic
      exact h.created hsafe hsent (fun _ _ => Stmt.noConfusion) hins rfl
  | connectedUsers userId status =>
      refine h.move (fun _ => rfl) (fun groupId => ?_) (fun _ _ hid => .inl hid)
        (fun _ _ hl => hl.kept hsent (fun _ _ => Stmt.noConfusion) _ _)
      rw [flight_executed, callback]
      split <;> exact List.append_nil _
  | userArray | insertUser | groupMsgs | noMsgs | insertMsg | deleteMsg | other =>
      refine h.move (fun _ => rfl) (fun groupId => ?_) (fun _ _ hid => .inl hid)
        (fun _ _ hl => hl.kept hsent (fun _ _ => Stmt.noConfusion) _ _)
      rw [flight_executed]
      exact List.append_nil _
  | broadcast groupId' note =>
      refine h.move (fun _ => rfl) (fun groupId => ?_) (fun _ _ hid => .inl hid)
        (fun _ _ hl => hl.kept hsent (fun _ _ => Stmt.noConfusion) _ _)
      rw [flight_executed, callback]
      split
      · cases note <;> exact List.append_nil _
      · exact List.append_nil _
  | failed users groups msgs hw hs =>
      refine h.move (fun _ => rfl) (fun groupId => ?_) (fun _ _ hid => .inl hid)
        (fun _ _ hl => hl.kept hsent ?_ _ _)
      · rw [flight_executed]
        exact List.append_nil _
      · rintro groupId userId rfl
        cases hw

theorem Synced.result (h : Synced me s w) {res : Result} {rest : List Result} (hr : s.results w = res :: rest) :
    Synced me (s.taken me w rest res) w := by
  refine h.move (fun _ => rfl) (fun groupId => ?_) (fun _ _ hid => .inl hid) (fun groupId id hl => ?_)
  · rw [State.taken, flight_emit]
    simp only [flight, hr, Function.update_self, List.flatMap_append, List.flatMap_cons, List.append_assoc]
  · obtain ⟨userId, groupId', hg, hu, hm | hm⟩ := hl
    · rcases List.mem_cons.mp (hr ▸ hm) with rfl | hm
      · refine ⟨userId, groupId', hg, hu, .inr ?_⟩
        rw [State.taken, State.emit_sent]
        exact List.mem_append_right _ (by simp [callback, onUserGroupJoin])
      · have hl : Late { s with results := Function.update s.results w rest } w groupId id :=
          ⟨userId, groupId', hg, hu, .inl (by
            change _ ∈ Function.update s.results w rest w
            rwa [Function.update_self])⟩
        exact hl.emit _
    · have hl : Late { s with results := Function.update s.results w rest } w groupId id :=
        ⟨userId, groupId', hg, hu, .inr hm⟩
      exact hl.emit _

theorem Synced.emit (h : Synced me s w) (w' : W) {r : Sends}
    (hnone : ∀ groupId, r.packets.flatMap (updates groupId) = []) : Synced me (s.emit w' r) w := by
  refine h.move (fun _ => rfl) (fun groupId => ?_) (fun _ _ hid => .inl hid) (fun _ _ hl => hl.emit r)
  rw [flight_emit, List.flatMap_append, hnone, List.append_nil]
  rfl

/-- With one worker the list is complete behind what is under way in every state. -/
theorem Synced.step [Subsingleton W] (h : Synced me s w) (hsafe : Safe me s) {a : Action W}
    (hs : KeptStep me s a t) : Synced me t w := by
  obtain ⟨hpub, hs⟩ := hs
  have happ : ∀ app : App, listOf app = listOf s.app → Synced me { s with app := app } w := by
    intro app hlist
    refine h.move (fun groupId => ?_) (fun _ => rfl) (fun _ _ hid => .inl hid) (fun _ _ hl => hl)
    rw [Core.view, hlist]
    rfl
  cases hs with
  | select groupId => exact happ _ (by rw [exec_select hsafe.page, listOf_select])
  | scroll groupId => exact happ _ (by rw [exec_scroll hsafe.page, listOf_scroll])
  | deliver hc => exact h.deliver hsafe hc
  | @serve r w' online _ _ =>
      have hserved : Synced me { s with handled := s.handled + 1 } w := h
      exact hserved.emit w' (handler_updates online r)
  | command w' hw => exact h.emit w' (fun _ => rfl)
  | @execute w' stmt rest store res hsent hrun =>
      obtain rfl := Subsingleton.elim w' w
      exact h.execute hsafe hsent hrun hpub
  | @result w' res rest hr =>
      obtain rfl := Subsingleton.elim w' w
      exact h.result hr
  | packet hn =>
      refine h.move (fun _ => rfl) (fun groupId => ?_) (fun _ _ hid => .inl hid) (fun _ _ hl => hl)
      simp [flight, hn.updates]

end OneWorker

structure Quiet (s : State W) : Prop where
  handled : s.handled = s.app.sent.length
  channel : s.channel = []
  sent : ∀ w, s.sent w = []
  results : ∀ w, s.results w = []

omit [DecidableEq W] in
theorem Asked.known (h : Asked s) (hq : Quiet s) {ids : List Int} (hm : .getUser ids ∈ s.app.sent) {id : Int}
    (hid : id ∈ ids) : Known s.app id := by
  obtain ⟨i, hi, hget⟩ := List.mem_iff_getElem.mp hm
  have hsome : s.app.sent[i]? = some (.getUser ids) := by rw [List.getElem?_eq_getElem hi, hget]
  refine (h.answered i (hq.handled ▸ hi) ids hsome id hid).resolve_right ?_
  rintro (⟨infos, hc, -⟩ | ⟨w, ⟨infos, hr, -⟩ | ⟨ids, hs, -⟩⟩)
  · rw [hq.channel] at hc
    cases hc
  · rw [hq.results w] at hr
    cases hr
  · rw [hq.sent w] at hs
    cases hs

end ChityChat.MemberAgreement
