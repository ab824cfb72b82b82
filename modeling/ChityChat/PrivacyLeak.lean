import ChityChat.PrivateGroups

namespace ChityChat.PrivacyLeak

open JsonC DbResult Schema GroupRead PrivateGroups

variable {d d' : Database} {userId groupId limit offset : Nat} {online : Nat → Option DbUser}

theorem hidden_congr (hgroups : d'.groups = d.groups)
    (hmembers : ∀ g, (⟨userId, g⟩ : MemberRow) ∈ d'.members ↔ (⟨userId, g⟩ : MemberRow) ∈ d.members)
    (g : Nat) :
    hiddenFrom d' userId g = hiddenFrom d userId g := by
  simp only [hiddenFrom, isMember, hgroups, hmembers]

def orphaned (groupId : Nat) (m : MessageRow) : MessageRow :=
  if m.groupId = some groupId then { m with userId := none } else m

def expelled (d : Database) (groupId : Nat) : Database :=
  { d with
    members := d.members.filter (fun m => m.groupId ≠ groupId)
    messages := d.messages.map (orphaned groupId) }

theorem orphaned_msgId (m : MessageRow) : (orphaned groupId m).msgId = m.msgId := by
  rw [orphaned]
  split <;> rfl

theorem orphaned_groupId (m : MessageRow) : (orphaned groupId m).groupId = m.groupId := by
  rw [orphaned]
  split <;> rfl

theorem orphaned_parent (m : MessageRow) : (orphaned groupId m).parentMsgId = m.parentMsgId := by
  rw [orphaned]
  split <;> rfl

theorem orphaned_user {m : MessageRow} {u : Nat} (h : u ∈ (orphaned groupId m).userId) :
    u ∈ m.userId ∧ m.groupId ≠ some groupId := by
  rw [orphaned] at h
  split at h
  · cases h
  · next hne => exact ⟨h, hne⟩

theorem expelled_valid (hd : Valid d) : Valid (expelled d groupId) := by
  have hids : (d.messages.map (orphaned groupId)).map MessageRow.msgId =
      d.messages.map MessageRow.msgId := by
    rw [List.map_map]
    exact List.map_congr_left fun m _ => orphaned_msgId m
  refine { hd with
    memberKey := hd.memberKey.filter _
    messageKey := by simpa only [expelled, hids] using hd.messageKey
    memberUser := fun m hm => hd.memberUser m (List.mem_filter.mp hm).1
    memberGroup := fun m hm => hd.memberGroup m (List.mem_filter.mp hm).1
    messageUser := ?_
    messageGroup := ?_
    messageMember := ?_
    messageParent := ?_ } <;> intro m' hm' <;> obtain ⟨m, hm, rfl⟩ := List.mem_map.mp hm'
  · exact fun u hu => hd.messageUser m hm u (orphaned_user hu).1
  · intro g hg
    rw [orphaned_groupId] at hg
    exact hd.messageGroup m hm g hg
  · intro u hu g hg
    obtain ⟨hu, hne⟩ := orphaned_user hu
    rw [orphaned_groupId] at hg
    refine List.mem_filter.mpr ⟨hd.messageMember m hm u hu g hg, ?_⟩
    simp only [decide_eq_true_eq]
    rintro rfl
    exact hne hg
  · intro p hp
    rw [orphaned_parent] at hp
    simpa only [expelled, hids, orphaned_msgId] using hd.messageParent m hm p hp

theorem not_mem_of_hidden (hhidden : hiddenFrom d userId groupId = true) :
    (⟨userId, groupId⟩ : MemberRow) ∉ d.members := by
  simp only [hiddenFrom, isMember, Bool.and_eq_true, Bool.not_eq_true',
    decide_eq_false_iff_not] at hhidden
  exact hhidden.2

theorem expelled_lowEquiv (hhidden : hiddenFrom d userId groupId = true) :
    LowEquiv userId d (expelled d groupId) := by
  have hnot := not_mem_of_hidden hhidden
  have hsame : ∀ g, hiddenFrom (expelled d groupId) userId g = hiddenFrom d userId g := by
    refine hidden_congr rfl fun g => ?_
    simp only [expelled, List.mem_filter, decide_eq_true_eq, and_iff_left_iff_imp]
    rintro hg rfl
    exact hnot hg
  refine ⟨rfl, rfl, ?_, ?_, ?_⟩ <;> simp only [hsame]
  · simp only [expelled, List.filter_filter]
    refine List.filter_congr fun m hm => ?_
    by_cases hg : m.groupId = groupId
    · have hu : m.userId ≠ userId := by
        rintro rfl
        exact hnot (hg ▸ hm)
      simp [hg, hu, hhidden]
    · simp [hg]
  · simp only [expelled, List.filter_map]
    have hvisible :
        (fun m : MessageRow => decide (∀ g ∈ m.groupId, hiddenFrom d userId g = false)) ∘
          orphaned groupId =
        fun m => decide (∀ g ∈ m.groupId, hiddenFrom d userId g = false) := by
      funext m
      simp only [Function.comp, orphaned_groupId]
    rw [hvisible]
    refine (List.map_id _).symm.trans (List.map_congr_left fun m hm => ?_)
    rw [orphaned, if_neg]
    · rfl
    · intro hg
      have hshown := (List.mem_filter.mp hm).2
      simp [hg, hhidden] at hshown
  · rfl

def enlisted (d : Database) (v groupId : Nat) : Database :=
  { d with members := d.members ++ [⟨v, groupId⟩] }

theorem enlisted_valid {v : Nat} (hd : Valid d) (hv : v ∈ d.users.map UserRow.userId)
    (hg : groupId ∈ d.groups.map GroupRow.groupId) (hnew : (⟨v, groupId⟩ : MemberRow) ∉ d.members) :
    Valid (enlisted d v groupId) := by
  refine { hd with memberKey := ?_, memberUser := ?_, memberGroup := ?_, messageMember := ?_ }
  · refine List.nodup_append'.mpr ⟨hd.memberKey, List.nodup_singleton _, ?_⟩
    simpa using hnew
  · intro m hm
    rcases List.mem_append.mp hm with hm | hm
    · exact hd.memberUser m hm
    · rw [List.mem_singleton.mp hm]
      exact hv
  · intro m hm
    rcases List.mem_append.mp hm with hm | hm
    · exact hd.memberGroup m hm
    · rw [List.mem_singleton.mp hm]
      exact hg
  · exact fun m hm u hu g hg => List.mem_append_left _ (hd.messageMember m hm u hu g hg)

theorem enlisted_lowEquiv {v : Nat} (hhidden : hiddenFrom d userId groupId = true)
    (hv : v ≠ userId) :
    LowEquiv userId d (enlisted d v groupId) := by
  have hsame : ∀ g, hiddenFrom (enlisted d v groupId) userId g = hiddenFrom d userId g := by
    refine hidden_congr rfl fun g => ?_
    simp [enlisted, hv.symm]
  refine ⟨rfl, rfl, ?_, ?_, ?_⟩ <;> simp only [hsame]
  · simp [enlisted, hv, hhidden]
  · rfl
  · rfl

def newMessages (groupId lastId : Nat) : Nat → List MessageRow
  | 0 => []
  | k + 1 =>
    ⟨lastId + k + 1, none, some groupId, none, none, none, none⟩ :: newMessages groupId lastId k

def posted (d : Database) (groupId lastId k : Nat) : Database :=
  { d with messages := newMessages groupId lastId k ++ d.messages }

theorem newMessages_mem {lastId k : Nat} {m : MessageRow} (h : m ∈ newMessages groupId lastId k) :
    lastId < m.msgId ∧ m.msgId ≤ lastId + k ∧ m.userId = none ∧ m.groupId = some groupId ∧
      m.parentMsgId = none ∧ m.attachments = none := by
  induction k with
  | zero => cases h
  | succ k ih =>
      rcases List.mem_cons.mp h with rfl | h
      · exact ⟨by dsimp only; omega, by dsimp only; omega, rfl, rfl, rfl, rfl⟩
      · obtain ⟨hlow, hhigh, hrest⟩ := ih h
        exact ⟨hlow, by omega, hrest⟩

theorem newMessages_nodup (groupId lastId k : Nat) :
    ((newMessages groupId lastId k).map MessageRow.msgId).Nodup := by
  induction k with
  | zero => exact List.nodup_nil
  | succ k ih =>
      refine List.nodup_cons.mpr ⟨fun hmem => ?_, ih⟩
      obtain ⟨m, hm, heq⟩ := List.mem_map.mp hmem
      have hhigh := (newMessages_mem hm).2.1
      simp only at heq
      omega

theorem posted_valid {lastId k : Nat} (hd : Valid d) (hg : groupId ∈ d.groups.map GroupRow.groupId)
    (hlast : ∀ m ∈ d.messages, m.msgId ≤ lastId) : Valid (posted d groupId lastId k) := by
  refine { hd with
    messageKey := ?_, messageUser := ?_, messageGroup := ?_, messageMember := ?_, messageParent := ?_ }
  · simp only [posted, List.map_append]
    refine List.nodup_append'.mpr ⟨newMessages_nodup groupId lastId k, hd.messageKey, ?_⟩
    intro id hnew hold
    obtain ⟨m, hm, rfl⟩ := List.mem_map.mp hnew
    obtain ⟨m', hm', heq⟩ := List.mem_map.mp hold
    have := (newMessages_mem hm).1
    have := hlast m' hm'
    omega
  · intro m hm
    rcases List.mem_append.mp hm with hm | hm
    · simp [(newMessages_mem hm).2.2.1]
    · exact hd.messageUser m hm
  · intro m hm
    rcases List.mem_append.mp hm with hm | hm
    · rw [(newMessages_mem hm).2.2.2.1]
      rintro g ⟨⟩
      exact hg
    · exact hd.messageGroup m hm
  · intro m hm
    rcases List.mem_append.mp hm with hm | hm
    · simp [(newMessages_mem hm).2.2.1]
    · exact hd.messageMember m hm
  · intro m hm
    rcases List.mem_append.mp hm with hm | hm
    · simp [(newMessages_mem hm).2.2.2.2]
    · intro p hp
      obtain ⟨hparent, hne⟩ := hd.messageParent m hm p hp
      exact ⟨by simpa only [posted, List.map_append] using List.mem_append_right _ hparent, hne⟩

theorem posted_lowEquiv {lastId k : Nat} (hhidden : hiddenFrom d userId groupId = true) :
    LowEquiv userId d (posted d groupId lastId k) := by
  have hsame : ∀ g, hiddenFrom (posted d groupId lastId k) userId g = hiddenFrom d userId g :=
    fun _ => rfl
  refine ⟨rfl, rfl, ?_, ?_, ?_⟩ <;> simp only [hsame]
  · rfl
  · have hnone : (newMessages groupId lastId k).filter (fun m => ∀ g ∈ m.groupId,
        hiddenFrom d userId g = false) = [] := by
      rw [List.filter_eq_nil_iff]
      intro m hm
      simp [(newMessages_mem hm).2.2.2.1, hhidden]
    rw [posted, List.filter_append, hnone, List.nil_append]
  · rfl

theorem mem_groups_of_hidden (hhidden : hiddenFrom d userId groupId = true) :
    groupId ∈ d.groups.map GroupRow.groupId := by
  simp only [hiddenFrom, Bool.and_eq_true, List.any_eq_true, decide_eq_true_eq] at hhidden
  obtain ⟨⟨g, hg, heq, -⟩, -⟩ := hhidden
  exact List.mem_map.mpr ⟨g, hg, heq⟩

theorem memberIds_differ (tokener : JsonTokener) (hd : Valid d) (hint : IsInt groupId)
    (hhidden : hiddenFrom d userId groupId = true) (hother : ∃ v ∈ d.users, v.userId ≠ userId) :
    ∃ d', Valid d' ∧ LowEquiv userId d d' ∧
      Query.packet tokener d ⟨.memberIds groupId, queryCtx .dbGetGroupMemberIds groupId,
        doGetGroupMemberIds⟩ ≠
        Query.packet tokener d' ⟨.memberIds groupId, queryCtx .dbGetGroupMemberIds groupId,
          doGetGroupMemberIds⟩ := by
  have hflat : ∀ d : Database, plainList ((selectMemberIds d groupId).map (fun (id : Nat) => .int id)) =
      if (selectMemberIds d groupId).map (fun (id : Nat) => JsonObject.int id) = [] then .null
      else .array ((selectMemberIds d groupId).map (fun (id : Nat) => .int id)) := by
    refine fun d => plainList_flat (fun row hrow => ?_)
    obtain ⟨id, -, rfl⟩ := List.mem_map.mp hrow
    exact Nat.le_succ 1
  simp only [memberIds_packet, if_pos hint, hflat]
  by_cases hids : selectMemberIds d groupId = []
  · obtain ⟨v, hv, hne⟩ := hother
    have hnew : (⟨v.userId, groupId⟩ : MemberRow) ∉ d.members := by
      intro hmem
      have hin : v.userId ∈ selectMemberIds d groupId :=
        List.mem_map.mpr ⟨_, List.mem_filter.mpr ⟨hmem, by simp⟩, rfl⟩
      simp [hids] at hin
    refine ⟨_, enlisted_valid hd (List.mem_map.mpr ⟨v, hv, rfl⟩)
      (mem_groups_of_hidden hhidden) hnew, enlisted_lowEquiv hhidden hne, ?_⟩
    have hafter : selectMemberIds (enlisted d v.userId groupId) groupId = [v.userId] := by
      have hbefore := hids
      simp only [selectMemberIds, enlisted, List.filter_append, List.map_append] at hbefore ⊢
      rw [hbefore]
      simp
    simp [hids, hafter]
  · refine ⟨_, expelled_valid hd, expelled_lowEquiv hhidden, ?_⟩
    have hafter : selectMemberIds (expelled d groupId) groupId = [] := by
      simp [selectMemberIds, expelled, List.filter_filter]
    simp [hids, hafter]

theorem messageJson_msgId {m m' : MessageRow} (h : messageJson m = messageJson m') :
    m.msgId = m'.msgId := by
  simp only [messageJson, JsonObject.object.injEq, List.cons.injEq, Prod.mk.injEq,
    JsonObject.int.injEq] at h
  exact Int.ofNat.inj h.1.2

theorem orderByMsgId_newest {lastId k : Nat} {ms : List MessageRow}
    (hlast : ∀ m ∈ ms, m.msgId ≤ lastId) :
    orderByMsgId (newMessages groupId lastId k ++ ms) =
      newMessages groupId lastId k ++ orderByMsgId ms := by
  induction k with
  | zero => rfl
  | succ k ih =>
      rw [newMessages, List.cons_append, List.cons_append, orderByMsgId,
        List.insertionSort_cons_of_forall_rel]
      · exact congrArg _ ih
      · intro m hm
        rcases List.mem_append.mp hm with hm | hm
        · have := (newMessages_mem hm).2.1
          simp only
          omega
        · have := hlast m hm
          simp only
          omega

theorem newMessages_drop (groupId lastId n k : Nat) :
    (newMessages groupId lastId (n + k)).drop k = newMessages groupId lastId n := by
  induction k with
  | zero => rfl
  | succ k ih => exact ih

theorem newMessages_length (groupId lastId k : Nat) :
    (newMessages groupId lastId k).length = k := by
  induction k with
  | zero => rfl
  | succ k ih => exact congrArg Nat.succ ih

theorem exists_lastId (ms : List MessageRow) : ∃ lastId, ∀ m ∈ ms, m.msgId ≤ lastId := by
  induction ms with
  | nil => exact ⟨0, by simp⟩
  | cons m ms ih =>
      obtain ⟨lastId, h⟩ := ih
      refine ⟨max m.msgId lastId, fun m' hm' => ?_⟩
      rcases List.mem_cons.mp hm' with rfl | hm'
      · exact Nat.le_max_left _ _
      · exact Nat.le_trans (h m' hm') (Nat.le_max_right _ _)

theorem selectGroupMsgs_posted {lastId : Nat} (hlast : ∀ m ∈ d.messages, m.msgId ≤ lastId) :
    selectGroupMsgs (posted d groupId lastId (limit + offset)) groupId limit offset =
      newMessages groupId lastId limit := by
  have hnew : (newMessages groupId lastId (limit + offset)).filter (fun m => m.groupId = some groupId) =
      newMessages groupId lastId (limit + offset) :=
    List.filter_eq_self.mpr fun m hm => by simp [(newMessages_mem hm).2.2.2.1]
  rw [selectGroupMsgs, posted, List.filter_append, hnew,
    orderByMsgId_newest fun m hm => hlast m (List.mem_filter.mp hm).1,
    List.drop_append_of_le_length (by rw [newMessages_length]; omega), newMessages_drop,
    List.take_append_of_le_length (by rw [newMessages_length]),
    List.take_of_length_le (by rw [newMessages_length])]

theorem groupMsgs_differ (tokener : JsonTokener) (hd : Valid d)
    (hint : IsInt groupId ∧ IsInt limit ∧ IsInt offset)
    (hhidden : hiddenFrom d userId groupId = true) (hlimit : limit ≠ 0) :
    ∃ d', Valid d' ∧ LowEquiv userId d d' ∧
      Query.packet tokener d ⟨.groupMsgs groupId limit offset, queryCtx .doGetGroupMsgs groupId,
        GroupRead.doGetGroupMsgs⟩ ≠
        Query.packet tokener d' ⟨.groupMsgs groupId limit offset, queryCtx .doGetGroupMsgs groupId,
          GroupRead.doGetGroupMsgs⟩ := by
  obtain ⟨lastId, hlast⟩ := exists_lastId d.messages
  refine ⟨posted d groupId lastId (limit + offset),
    posted_valid hd (mem_groups_of_hidden hhidden) hlast, posted_lowEquiv hhidden, fun heq => ?_⟩
  have hflat : parsedList ((newMessages groupId lastId limit).map messageJson) =
      .array ((newMessages groupId lastId limit).map messageJson) := by
    refine parsedList_flat (fun row hrow => ?_)
    obtain ⟨m, hm, rfl⟩ := List.mem_map.mp hrow
    exact (messageJson_depth (newMessages_mem hm).2.2.2.2.2).le
  simp only [groupMsgs_packet, if_pos hint, selectGroupMsgs_posted hlast, hflat] at heq
  simp only [JsonObject.object.injEq, List.cons.injEq, Prod.mk.injEq, true_and, and_true] at heq
  -- a page that the tokener gives up on is null
  rw [parsedList] at heq
  split at heq
  · obtain ⟨limit, rfl⟩ := Nat.exists_eq_succ_of_ne_zero hlimit
    -- the newest message of the page has an id that no message had before
    have hnew : messageJson ⟨lastId + limit + 1, none, some groupId, none, none, none, none⟩ ∈
        (selectGroupMsgs d groupId (limit + 1) offset).map messageJson := by
      rw [JsonObject.array.inj heq]
      exact List.mem_cons_self
    obtain ⟨m, hm, hjson⟩ := List.mem_map.mp hnew
    have hold : m ∈ d.messages := by
      have hin := List.mem_of_mem_drop (List.mem_of_mem_take hm)
      exact (List.mem_filter.mp ((List.mem_insertionSort _).mp hin)).1
    have hid := messageJson_msgId hjson
    have hle := hlast m hold
    simp only at hid
    omega
  · cases heq

/-- Answers are the same in all states that the user cannot tell apart, unless the command asks for
members or messages of a hidden group. -/
theorem answers_agree_iff (tokener : JsonTokener) (hd : Valid d) (cmd : ReadCommand) :
    (∀ d', Valid d' → LowEquiv userId d d' → answer tokener online d userId cmd =
      answer tokener online d' userId cmd) ↔ ¬ Leaks d userId cmd := by
  constructor
  · intro hsame hleaks
    cases cmd with
    | getMemberIds payload =>
        obtain ⟨n, hn, hint, hhidden, hother⟩ := hleaks
        obtain ⟨d', hd', hlow, hne⟩ := memberIds_differ tokener hd hint hhidden hother
        have hquery := serverGetGroupMemberIds_ok.mpr ⟨n, hn, rfl⟩
        have heq := hsame d' hd' hlow
        simp only [answer, hquery, handled] at heq
        exact hne (List.cons.inj heq).1
    | getGroupMsgs payload =>
        obtain ⟨n, limit, offset, hn, hlimit, hoffset, hint, hhidden, hne0⟩ := hleaks
        obtain ⟨d', hd', hlow, hne⟩ := groupMsgs_differ tokener hd hint hhidden hne0
        have hquery := serverGetGroupMsgs_ok.mpr ⟨n, hn, limit, hlimit, offset, hoffset, rfl⟩
        have heq := hsame d' hd' hlow
        simp only [answer, hquery, handled] at heq
        exact hne (List.cons.inj heq).1
    | clientGroups | getAllGroups | getGroupCodes payload | getUser payload => exact hleaks
  · exact fun hleaks d' hd' hlow => answer_eq_of_not_leaks hd hd' hlow hleaks

def privateGroup (messages : List MessageRow) : Database where
  users := [⟨1, "owner", "owner", none, none, none⟩, ⟨2, "other", "other", none, none, none⟩]
  groups := [⟨1, some 1, "private", none, some false, none⟩]
  members := [⟨1, 1⟩]
  messages := messages
  codes := []

def secret : MessageRow := ⟨1, some 1, some 1, some "secret", none, none, none⟩

theorem privateGroup_valid {messages : List MessageRow} (h : messages = [] ∨ messages = [secret]) :
    Valid (privateGroup messages) where
  userKey := by simp [privateGroup]
  username := by simp [privateGroup]
  groupKey := by simp [privateGroup]
  memberKey := by simp [privateGroup]
  messageKey := by rcases h with rfl | rfl <;> simp [privateGroup]
  codeKey := by simp [privateGroup]
  owner := by simp [privateGroup]
  memberUser := by simp [privateGroup]
  memberGroup := by simp [privateGroup]
  messageUser := by rcases h with rfl | rfl <;> simp [privateGroup, secret]
  messageGroup := by rcases h with rfl | rfl <;> simp [privateGroup, secret]
  messageMember := by rcases h with rfl | rfl <;> simp [privateGroup, secret]
  messageParent := by rcases h with rfl | rfl <;> simp [privateGroup, secret]
  codeGroup := by simp [privateGroup]

def groupMsgsPayload : JsonObject :=
  .object [("group_id", .int 1), ("limit", .int 10), ("offset", .int 0)]

/-- To user 2, invite codes of the private group do not show anything. -/
theorem answers_agree_iff_codes :
    answer plainTokener (fun _ => none) (privateGroup [secret]) 2 (.getGroupCodes groupMsgsPayload) =
      answer plainTokener (fun _ => none) (privateGroup []) 2 (.getGroupCodes groupMsgsPayload) :=
  (answers_agree_iff plainTokener (privateGroup_valid (.inr rfl)) (.getGroupCodes groupMsgsPayload)).mpr id _
    (privateGroup_valid (.inl rfl)) ⟨rfl, rfl, rfl, rfl, rfl⟩

/-- Its messages do. -/
theorem messages_show : ∃ d d' : Database, Valid d ∧ Valid d' ∧ LowEquiv 2 d d' ∧
    answer plainTokener (fun _ => none) d 2 (.getGroupMsgs groupMsgsPayload) ≠
      answer plainTokener (fun _ => none) d' 2 (.getGroupMsgs groupMsgsPayload) := by
  refine ⟨privateGroup [], privateGroup [secret], privateGroup_valid (.inl rfl),
    privateGroup_valid (.inr rfl), ⟨rfl, rfl, rfl, rfl, rfl⟩, fun heq => ?_⟩
  have hquery := serverGetGroupMsgs_ok.mpr ⟨1, (rfl : intField groupMsgsPayload "group_id" = _), 10,
    (rfl : intField groupMsgsPayload "limit" = _), 0,
      (rfl : intField groupMsgsPayload "offset" = _), rfl⟩
  have hint : IsInt (u32 1) ∧ IsInt (u32 10) ∧ IsInt (u32 0) := by decide
  simp only [answer, hquery, handled, groupMsgs_packet, if_pos hint] at heq
  have hrows : selectGroupMsgs (privateGroup [secret]) (u32 1) (u32 10) (u32 0) = [secret] := by
    rw [selectGroupMsgs, u32, u32, u32]
    rfl
  rw [hrows] at heq
  have hnone : parsedList [] = .array [] := parsedList_flat (by simp)
  have hone : parsedList [messageJson secret] = .array [messageJson secret] := by
    refine parsedList_flat (fun row hrow => ?_)
    rw [List.mem_singleton.mp hrow]
    exact (messageJson_depth rfl).le
  simp [selectGroupMsgs, privateGroup, orderByMsgId, hnone, hone] at heq

end ChityChat.PrivacyLeak
