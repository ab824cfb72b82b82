import ChityChat.WriteAuthorised
import Mathlib.Data.List.Nodup
import Mathlib.Tactic.IntervalCases

namespace ChityChat.WriteRuns

open JsonC DbResult Schema RingBuffer Transition DbPipeline DbPipelineOrder WriteStatements
  WriteCommands WriteAuthorised

variable {W C : Type} [DecidableEq W] {s s' : Store} {tx tx' : Option Tx}
  {stmt : Stmt} {res : PGresult}
  {handle userId groupId : Nat} {command : ChatCommand} {issued issued' : List (Nat × ChatCommand)}

theorem execute_stored (hs : Stored s) (h : Execute handle s tx stmt res s' tx') : Stored s' := by
  cases h with
  | run now code hrun hs' => exact hs'
  | error users groups msgs hstmt hs' => exact hs'
  | commit hok hs' => exact hs'
  | other | begin | inside | fail | rollback => exact hs

theorem execute_groups (h : Execute handle s tx stmt res s' tx') :
    s.groupSeq ≤ s'.groupSeq ∧ ∀ g ∈ s'.groups, g ∈ s.groups ∨ s.groupSeq ≤ g.groupId := by
  cases h with
  | run now code hrun hs' =>
      cases stmt with
      | insertGroup name ownerId isPublic =>
          obtain ⟨rfl, -⟩ := Prod.mk.inj (Option.some.inj hrun)
          refine ⟨Nat.le_succ _, fun g hg => ?_⟩
          rcases List.mem_append.mp hg with hg | hg
          · exact .inl hg
          · rw [List.mem_singleton.mp hg]
            exact .inr (Nat.le_refl _)
      | insertGroupmemberCode memberId code =>
          obtain ⟨s₁, hjoin, heq⟩ := Option.map_eq_some_iff.mp hrun
          obtain ⟨rfl, -⟩ := Prod.mk.inj heq
          rw [insertGroupmemberCode] at hjoin
          split at hjoin
          · cases hjoin
          · obtain rfl := Option.some.inj hjoin
            exact ⟨Nat.le_refl _, fun g hg => .inl hg⟩
      | selectOwner | joinPubGroup | createGroupCode | deleteGroupCode | insertMsg | deleteMsg | insertUser
      | getAllAttachs | selectMemberIds =>
          obtain ⟨rfl, -⟩ := Prod.mk.inj (Option.some.inj hrun)
          exact ⟨Nat.le_refl _, fun g hg => .inl hg⟩
      | begin | delGroupMsg | delGroupMembers | delGroupCodes | delGroup | commit | other =>
          cases hrun
  | error users groups msgs => exact ⟨Nat.le_add_right _ _, fun g hg => .inl hg⟩
  | commit => exact ⟨Nat.le_refl _, fun g hg => .inl (List.mem_filter.mp hg).1⟩
  | other | begin | inside | fail | rollback => exact ⟨Nat.le_refl _, fun g hg => .inl hg⟩

theorem OwnerIs.execute (howner : OwnerIs s groupId userId)
    (h : Execute handle s tx stmt res s' tx') :
    OwnerIs s' groupId userId := by
  obtain ⟨hseq, hgroups⟩ := execute_groups h
  refine ⟨Nat.lt_of_lt_of_le howner.1 hseq, fun g hg hid => ?_⟩
  rcases hgroups g hg with hg | hg
  · exact howner.2 g hg hid
  · exact absurd (hid ▸ hg) (Nat.not_le.mpr howner.1)

/-- A result that `get_group_owner_result` accepts names the owner of the group. -/
def OwnerResult (s : Store) (groupId : Nat) (res : PGresult) : Prop :=
  res.status = .tuplesOk → pqNtuples res ≠ 0 → 0 < strtoul (pqGetvalue res 0 0) →
    OwnerIs s groupId (strtoul (pqGetvalue res 0 0))

theorem selectOwner_ownerResult (hs : Stored s)
    (h : Execute handle s tx (.selectOwner groupId) res s' tx') :
    OwnerResult s' groupId res := by
  cases h with
  | error | fail => exact fun hstatus => by cases hstatus
  | inside hok hrun => cases hrun
  | run now code hrun hs' =>
      obtain ⟨rfl, hres⟩ := Prod.mk.inj (Option.some.inj hrun)
      obtain ⟨rfl, rfl⟩ := Prod.mk.inj hres
      intro _ hrows hpos
      cases hfound : s.groups.filter (fun g => g.groupId = groupId) with
      | nil => simp [pqNtuples, selectOwner, hfound] at hrows
      | cons g more =>
          have hin : g ∈ s.groups.filter (fun g => g.groupId = groupId) := by simp [hfound]
          obtain ⟨hg, hid⟩ := List.mem_filter.mp hin
          have hid : g.groupId = groupId := by simpa using hid
          have hvalue : strtoul (pqGetvalue ⟨handle, .tuplesOk, selectOwner s groupId⟩ 0 0) =
              g.ownerId.getD 0 := by
            cases howner : g.ownerId with
            | none => simp [pqGetvalue, selectOwner, hfound, howner, strtoul, Text.value,
                atoi, digitsValue, u32]
            | some owner =>
                obtain ⟨u, hu, rfl⟩ := List.mem_map.mp (hs.valid.owner g hg owner howner)
                have hlt := (hs.users u hu).2
                have hmax := hs.ints.1
                simp only [pqGetvalue, selectOwner, hfound, howner, strtoul, Text.value, atoi, u32,
                  List.map_cons, List.getElem?_cons_zero, Option.map_some, Option.bind_some,
                  Option.getD_some, Option.elim_some]
                omega
          rw [hvalue] at hpos ⊢
          refine ⟨hid ▸ (hs.groups g hg).2, fun g' hg' hid' => ?_⟩
          obtain rfl : g' = g :=
            List.inj_on_of_nodup_map hs.valid.groupKey hg' hg (hid'.trans hid.symm)
          cases howner : g'.ownerId with
          | none => simp [howner] at hpos
          | some owner => rfl

def Plain : Stmt → Prop
  | .begin | .delGroupMsg _ | .delGroupMembers _ | .delGroupCodes _ | .delGroup _ | .commit => False
  | _ => True

def deleteGroupSent (userId groupId : Nat) : List Sent :=
  (deleteGroupStmts groupId).map (fun stmt => ⟨stmt, some (userId, .deleteGroup groupId)⟩)

/-- Transactions are sent in one piece. -/
inductive Blocks : List Sent → Prop
  | nil : Blocks []
  | plain {sent : Sent} {rest : List Sent} (h : Plain sent.stmt) (hrest : Blocks rest) :
      Blocks (sent :: rest)
  | delete {userId groupId : Nat} {rest : List Sent} (hrest : Blocks rest) :
      Blocks (deleteGroupSent userId groupId ++ rest)

theorem Blocks.append {xs ys : List Sent} (hx : Blocks xs) (hy : Blocks ys) :
    Blocks (xs ++ ys) := by
  induction hx with
  | nil => exact hy
  | plain h _ ih => exact .plain h ih
  | delete _ ih =>
      rw [List.append_assoc]
      exact .delete ih

def Pending : Option Tx → List Sent → Prop
  | none, sents => Blocks sents
  | some t, sents => ∃ userId groupId k rest, 1 ≤ k ∧ k ≤ 7 ∧
      sents = (deleteGroupSent userId groupId).drop k ++ rest ∧ Blocks rest ∧ Deletes t groupId ∧
      (k = 7 → t.failed = false → groupId ∈ t.groups)

theorem Pending.append {xs ys : List Sent} (hx : Pending tx xs) (hy : Blocks ys) :
    Pending tx (xs ++ ys) := by
  cases tx with
  | none => exact Blocks.append hx hy
  | some t =>
      obtain ⟨userId, groupId, k, rest, hlow, hhigh, rfl, hrest, hdeletes⟩ := hx
      exact ⟨userId, groupId, k, rest ++ ys, hlow, hhigh, List.append_assoc ..,
        hrest.append hy, hdeletes⟩

theorem Pending.commit {t : Tx} {sent : Sent} {rest : List Sent}
    (h : Pending (some t) (sent :: rest)) (hcommit : sent.stmt = .commit) (hok : t.failed = false) :
    ∃ userId groupId, sent.origin = some (userId, .deleteGroup groupId) ∧ Deletes t groupId ∧
      groupId ∈ t.groups := by
  obtain ⟨userId, groupId, k, more, hlow, hhigh, heq, -, hdeletes, hgroup⟩ := h
  have hlast : k = 7 := by
    interval_cases k
    all_goals first
      | rfl
      | obtain ⟨rfl, -⟩ := List.cons.inj heq
        cases hcommit
  subst hlast
  obtain ⟨rfl, -⟩ := List.cons.inj heq
  exact ⟨userId, groupId, rfl, hdeletes, hgroup rfl hok⟩

theorem Plain.execute (hplain : Plain stmt) (h : Execute handle s none stmt res s' tx') :
    tx' = none := by
  cases h with
  | begin => exact absurd hplain id
  | run | other | error => rfl

theorem begin_execute (h : Execute handle s none .begin res s' tx') : tx' = some Tx.empty := by
  cases h with
  | run now code hrun => cases hrun
  | error users groups msgs hstmt => exact absurd rfl hstmt
  | begin => rfl

theorem deletes_run {t t' : Tx} {status : ExecStatusType} {rows : List (List (Option Value))}
    (ht : Deletes t groupId) (hstmt : stmt ∈ deleteGroupStmts groupId)
    (h : t.run s stmt = some (t', status, rows)) :
    Deletes t' groupId ∧ (groupId ∈ t.groups ∨ stmt = .delGroup groupId → groupId ∈ t'.groups) := by
  simp only [deleteGroupStmts, List.mem_cons, List.not_mem_nil, or_false] at hstmt
  rcases hstmt with rfl | rfl | rfl | rfl | rfl | rfl | rfl | rfl
  · cases h
  · obtain ⟨rfl, -⟩ := Prod.mk.inj (Option.some.inj h)
    exact ⟨ht, fun hg => by simpa using hg⟩
  · obtain ⟨rfl, -⟩ := Prod.mk.inj (Option.some.inj h)
    exact ⟨ht, fun hg => by simpa using hg⟩
  · obtain ⟨rfl, -⟩ := Prod.mk.inj (Option.some.inj h)
    refine ⟨⟨fun p hp => ?_, ht.codes, ht.groups⟩, fun hg => by simpa using hg⟩
    rcases List.mem_append.mp hp with hp | hp
    · exact ht.msgs p hp
    · obtain ⟨m, -, rfl⟩ := List.mem_map.mp hp
      rfl
  · obtain ⟨rfl, -⟩ := Prod.mk.inj (Option.some.inj h)
    exact ⟨⟨ht.msgs, ht.codes, ht.groups⟩, fun hg => by simpa using hg⟩
  · obtain ⟨rfl, -⟩ := Prod.mk.inj (Option.some.inj h)
    refine ⟨⟨ht.msgs, fun p hp => ?_, ht.groups⟩, fun hg => by simpa using hg⟩
    rcases List.mem_append.mp hp with hp | hp
    · exact ht.codes p hp
    · obtain ⟨c, -, rfl⟩ := List.mem_map.mp hp
      rfl
  · obtain ⟨rfl, -⟩ := Prod.mk.inj (Option.some.inj h)
    refine ⟨⟨ht.msgs, ht.codes, fun id hid => ?_⟩, fun _ =>
      List.mem_append_right _ List.mem_cons_self⟩
    rcases List.mem_append.mp hid with hid | hid
    · exact ht.groups id hid
    · exact List.mem_singleton.mp hid
  · cases h

theorem inside_execute {t : Tx} (ht : Deletes t groupId) (hstmt : stmt ∈ deleteGroupStmts groupId)
    (hne : stmt ≠ .commit) (h : Execute handle s (some t) stmt res s' tx') :
    ∃ t', tx' = some t' ∧ Deletes t' groupId ∧ (stmt = .delGroup groupId → t'.failed = false →
      groupId ∈ t'.groups) := by
  cases h with
  | inside hok hrun =>
      obtain ⟨ht', hgroup⟩ := deletes_run ht hstmt hrun
      exact ⟨_, rfl, ht', fun heq _ => hgroup (.inr heq)⟩
  | fail => exact ⟨_, rfl, ⟨ht.msgs, ht.codes, ht.groups⟩, fun _ hok => by cases hok⟩
  | commit | rollback => exact absurd rfl hne

theorem commit_execute {t : Tx} (h : Execute handle s (some t) .commit res s' tx') :
    tx' = none := by
  cases h with
  | inside hok hrun => cases hrun
  | fail hne => exact absurd rfl hne
  | commit | rollback => rfl

theorem Pending.execute {sent : Sent} {rest : List Sent} (h : Pending tx (sent :: rest))
    (hexec : Execute handle s tx sent.stmt res s' tx') : Pending tx' rest := by
  cases tx with
  | none =>
      generalize hall : sent :: rest = all at h
      cases h with
      | nil => cases hall
      | plain hplain hrest =>
          obtain ⟨rfl, rfl⟩ := List.cons.inj hall
          rw [hplain.execute hexec]
          exact hrest
      | @delete userId groupId more hrest =>
          obtain ⟨rfl, rfl⟩ := List.cons.inj hall
          rw [begin_execute hexec]
          exact ⟨userId, groupId, 1, more, by decide, by decide, rfl, hrest,
            ⟨by simp [Tx.empty], by simp [Tx.empty], by simp [Tx.empty]⟩, fun hk => by cases hk⟩
  | some t =>
      obtain ⟨userId, groupId, k, more, hlow, hhigh, heq, hrest, hdeletes, hgroup⟩ := h
      rcases Nat.lt_or_ge k 7 with hlt | hge
      · have hmore : ∃ stmt, sent = ⟨stmt, some (userId, .deleteGroup groupId)⟩ ∧
          stmt ∈ deleteGroupStmts groupId ∧ stmt ≠ .commit ∧ (k = 6 → stmt = .delGroup groupId) ∧
            rest = (deleteGroupSent userId groupId).drop (k + 1) ++ more := by
          interval_cases k
          all_goals
            obtain ⟨rfl, rfl⟩ := List.cons.inj heq
            exact ⟨_, rfl, by simp [deleteGroupStmts], by simp, by simp, rfl⟩
        obtain ⟨stmt, rfl, hstmt, hne, hlast, hrest'⟩ := hmore
        obtain ⟨t', rfl, hdeletes', hgroup'⟩ := inside_execute hdeletes hstmt hne hexec
        exact ⟨userId, groupId, k + 1, more, by omega, by omega, hrest', hrest, hdeletes',
          fun hk => hgroup' (hlast (by omega))⟩
      · obtain rfl : k = 7 := by omega
        obtain ⟨rfl, rfl⟩ := List.cons.inj heq
        rw [commit_execute hexec]
        exact hrest

end ChityChat.WriteRuns
