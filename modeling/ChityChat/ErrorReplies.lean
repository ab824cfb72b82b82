import ChityChat.Callbacks
import ChityChat.WriteCommands

namespace ChityChat.ErrorReplies

open DbResult Transition DbPipelineOrder Callbacks
open DbPipeline hiding Action Step
open WriteCommands (newCtx deleteGroupCtxs)

variable {C : Type}

/-- When `get_group_owner` sends the statements of a deletion, the client that the worker has in its
context is the one that asked for it. -/
def Kept (x : Worker C) : Action C → Prop
  | .exec issues _ => ∀ ctx ∈ x.db.running.head?, ∀ issue ∈ issues,
      issue.exec = some .deleteGroupResult → x.db.client = (x.tags ctx.query).requester
  | _ => True

def ToRequester (reply : Reply C) : Prop :=
  ∃ client, reply.requester = some client ∧ reply.sentTo = some client

def Right (tag : Tag C) (client : Option C) : Prop :=
  ∀ k, tag.exec = some k → k.errmsgs ≠ [] → ∃ c, tag.requester = some c ∧ client = some c

variable {x x' : Worker C} {a : Action C} {ctx : DbcmdCtx C} {rest : List (DbcmdCtx C)}

structure Addressed (x : Worker C) : Prop where
  tagged : Tagged Right x
  replies : ∀ reply ∈ x.replies, ToRequester reply

theorem addressed_initial (h : Initial x) : Addressed x where
  tagged := tagged_initial h
  replies := by
    rw [h.replies]
    nofun

theorem handler_right {client current : Option C} {issue : Issue C} (h : Handler client issue)
    (hcurrent : client ≠ none → current = client) :
    Right (issue.tag client) (issue.cmd.client.or current) := by
  intro k hk hfail
  obtain ⟨hclient, hevent⟩ := h
  rw [hclient, Option.none_or]
  cases client with
  | some client => exact ⟨client, rfl, hcurrent (Option.some_ne_none _)⟩
  | none =>
      obtain rfl := hevent rfl k hk
      exact absurd rfl hfail

theorem callback_right {k : Exec} {issue : Issue C} (h : Callback ctx k issue)
    (hctx : Right (x.tags ctx.query) ctx.client) (hk : (x.tags ctx.query).exec = some k)
    (hkept : issue.exec = some .deleteGroupResult → x.db.client = (x.tags ctx.query).requester) :
    Right (issue.tag (x.tags ctx.query).requester) (issue.cmd.client.or x.db.client) := by
  intro k' hissue hfail
  obtain ⟨hmem, hclient⟩ := h k' hissue
  obtain ⟨hk', -, hcases⟩ := issues_fail hmem hfail
  obtain ⟨c, hrequester, hown⟩ := hctx k hk hk'
  refine ⟨c, hrequester, ?_⟩
  rcases hcases with rfl | rfl
  · rw [hclient, if_neg (by decide), Option.none_or, hkept hissue, hrequester]
  · rw [hclient, if_pos rfl, hown, Option.some_or]

theorem Addressed.exec {k : Exec} {issues : List (Issue C)} {errmsg : Option String}
    (h : Addressed x) (hrun : x.db.running = ctx :: rest) (hexec : ctx.exec = true)
    (hk : (x.tags ctx.query).exec = some k) (hissues : ∀ issue ∈ issues, Callback ctx k issue)
    (herr : ∀ msg ∈ errmsg, msg ∈ k.errmsgs) (hkept : Kept x (.exec issues errmsg)) :
    Addressed ((x.reply ctx errmsg).issue (dbExecCmd x.db ctx rest (issues.map Issue.cmd))
      (x.tags ctx.query).requester issues) := by
  have hctx : Right (x.tags ctx.query) ctx.client := h.tagged.running hrun
  refine ⟨h.tagged.exec hrun hexec (fun issue hissue => ?_), fun reply hreply => ?_⟩
  · exact callback_right (hissues issue hissue) hctx hk (hkept ctx (by rw [hrun]; rfl) issue hissue)
  · rcases List.mem_append.mp hreply with hreply | hreply
    · exact h.replies reply hreply
    · obtain ⟨msg, hmsg, rfl⟩ := List.mem_map.mp hreply
      exact hctx k hk (List.ne_nil_of_mem (herr msg (Option.mem_toList.mp hmsg)))

theorem Addressed.step (h : Addressed x) (hstep : Step x a x') (hkept : Kept x a) :
    Addressed x' := by
  cases hstep with
  | event client issues _ _ hissues =>
      refine ⟨h.tagged.event (fun issue hissue => ?_), h.replies⟩
      refine handler_right (hissues issue hissue) (fun hne => ?_)
      obtain ⟨c, rfl⟩ := Option.ne_none_iff_exists'.mp hne
      rfl
  | result res _ _ _ hsync => exact ⟨h.tagged.result hsync, h.replies⟩
  | exec issues errmsg hrun hexec hk _ hissues herr =>
      exact h.exec hrun hexec hk hissues herr hkept
  | skip hrun hexec => exact ⟨h.tagged.skip hrun hexec, h.replies⟩

/-- As long as deletions of groups are sent in the context of their requester, every error goes to
the client that issued the command. -/
theorem kept_right (h : Reachable Initial (fun x a x' => Step x a x' ∧ Kept x a) x) :
    ∀ reply ∈ x.replies, ToRequester reply := by
  have haddressed : Addressed x := h.invariant (fun _ => addressed_initial)
    (fun _ _ _ hx hstep => hx.step hstep.1 hstep.2)
  exact haddressed.replies

theorem reachable_answered {R : Worker C → Action C → Worker C → Prop}
    (hR : ∀ x res x', Step x (.result res) x' → R x (.result res) x') {results : List PGresult}
    {chain : Chain C} {finished waiting : List (DbcmdCtx C)} (h : Reachable Initial R x)
    (hrun : x.db.running = []) (hslot : x.db.queue.slots x.db.queue.read = some chain)
    (hexec : chain.head.exec = true) (hsplit : chain.ctxs = finished ++ waiting)
    (hdone : ∀ ctx ∈ finished, ctx.ret ≠ .busy) (hbusy : ∀ ctx ∈ waiting, ctx.ret = .busy)
    (hne : results ≠ []) (hlen : results.length = waiting.length)
    (hhandles : results.map PGresult.handle = List.range' x.db.arrived results.length)
    (hsync : ∀ res ∈ results, res.status ≠ .pipelineSync)
    (hsent : x.db.arrived + results.length ≤ x.db.sent) :
    ∃ x' first rest, Reachable Initial R x' ∧ x'.db.running = first :: rest ∧
      first.query = chain.head.query ∧ first.client = chain.head.client ∧ first.exec = true ∧
      x'.tags = x.tags ∧ x'.replies = x.replies := by
  induction results generalizing x chain finished waiting with
  | nil => exact absurd rfl hne
  | cons res more ih =>
      cases waiting with
      | nil => cases hlen
      | cons ctx rest =>
          obtain ⟨hhandle, hlater⟩ := List.cons.inj hhandles
          have hres := hsync res List.mem_cons_self
          rw [List.length_cons] at hsent
          have hnext := h.next (hR _ _ _ (.result res hrun (by omega) hhandle hres))
          obtain ⟨chain', ⟨hquery, hclient, hhead⟩, hsplit', hround⟩ := dbProcessResult_round res
            hslot hexec hsplit hdone (hbusy ctx List.mem_cons_self) hres
          have hrest : rest.length = more.length := (Nat.succ.inj hlen).symm
          cases more with
          | nil =>
              rw [if_pos (List.eq_nil_of_length_eq_zero hrest)] at hround
              exact ⟨_, _, _, hnext, by rw [hround]; rfl, hquery, hclient, hhead.trans hexec, rfl,
                rfl⟩
          | cons res' more =>
              have hmore : rest ≠ [] := fun heq => by rw [heq] at hrest; cases hrest
              rw [if_neg hmore] at hround
              rw [hround] at hnext
              have hlater := ih hnext hrun (Function.update_self ..) (hhead.trans hexec) hsplit'
                (finished_append hdone res ctx) (fun c hc => hbusy c (List.mem_cons_of_mem _ hc))
                (List.cons_ne_nil _ _) hrest.symm hlater
                (fun r hr => hsync r (List.mem_cons_of_mem _ hr)) (by dsimp only; omega)
              rw [hquery, hclient] at hlater
              exact hlater

def ready : Worker Nat := ⟨dbInit, fun _ => ⟨none, none, none⟩, []⟩

def ownerIssue : Issue Nat :=
  ⟨{ newCtx .getGroupOwner with groupId := 7, userId := 1 }, some .getGroupOwner, none⟩

def deleteIssues : List (Issue Nat) :=
  (deleteGroupCtxs 7).map (fun ctx => ⟨ctx, if ctx.exec then some .deleteGroupResult else none,
    none⟩)

def deleteResults : List PGresult :=
  [⟨1, .commandOk, []⟩, ⟨2, .tuplesOk, []⟩, ⟨3, .tuplesOk, []⟩, ⟨4, .commandOk, []⟩,
    ⟨5, .commandOk, []⟩, ⟨6, .commandOk, []⟩, ⟨7, .fatalError, []⟩, ⟨8, .commandOk, []⟩]

def deletion (c : Nat) : Chain Nat :=
  ⟨{ (newCtx .begin : DbcmdCtx Nat) with query := 1, client := some c, groupId := 7 },
    numbered (some c) 2 (deleteGroupCtxs 7).tail⟩

theorem deletion_busy (c : Nat) : ∀ ctx ∈ (deletion c).ctxs, ctx.ret = .busy := by
  simp [deletion, Chain.ctxs, numbered, deleteGroupCtxs, newCtx]

theorem ownerIssue_command : Command ([ownerIssue].map Issue.cmd) :=
  ⟨by simp [ownerIssue, newCtx], by simp [ownerIssue, newCtx]⟩

theorem deleteIssues_command : Command (deleteIssues.map Issue.cmd) :=
  ⟨by simp [deleteIssues, deleteGroupCtxs, newCtx], by simp [deleteIssues, deleteGroupCtxs, newCtx]⟩

theorem deleteIssues_callback (ctx : DbcmdCtx Nat) :
    ∀ issue ∈ deleteIssues, Callback ctx .getGroupOwner issue := by
  simp [deleteIssues, deleteGroupCtxs, newCtx, Callback, Exec.issues]

theorem no_command : Command (([] : List (Issue Nat)).map Issue.cmd) := ⟨by simp, by simp⟩

/-- The client 1 deletes its group 7. Then the client `c` sends something that needs no query,
before the owner arrives. -/
theorem failed_deletion (c : Nat) :
    ∃ x, Reachable Initial (fun x a x' => Step x a x' ∧ (c = 1 → Kept x a)) x ∧
      x.replies = [⟨some 1, some c, "Failed to delete group"⟩] := by
  have h0 : Reachable Initial (fun x a x' => Step x a x' ∧ (c = 1 → Kept x a)) ready :=
    .start ⟨rfl, rfl⟩
  have h1 := h0.next ⟨.event (some 1) [ownerIssue] rfl ownerIssue_command
    (by simp [Handler, ownerIssue, newCtx]), fun _ => trivial⟩
  have h2 := h1.next ⟨.event (some c) [] rfl no_command (by simp), fun _ => trivial⟩
  have h3 := h2.next ⟨.result ⟨0, .tuplesOk, [[some (.int 1)]]⟩ rfl (Nat.lt_add_one 0) rfl
    (by decide), fun _ => trivial⟩
  have h4 := h3.next ⟨.exec deleteIssues none rfl rfl rfl deleteIssues_command
    (deleteIssues_callback _) (by simp), by rintro rfl ctx ⟨⟩ _ _ _; rfl⟩
  obtain ⟨x, first, rest, h5, hrun, hquery, hclient, hexec, htags, hreplies⟩ :=
    reachable_answered (fun _ _ _ hstep => ⟨hstep, fun _ => trivial⟩) h4 rfl
      (show _ = some (deletion c) from rfl) rfl
      (List.nil_append _).symm (by simp) (deletion_busy c) (List.cons_ne_nil _ _) rfl
      (show deleteResults.map PGresult.handle = List.range' 1 8 from rfl) (by decide)
      (Nat.le_refl 9)
  have h6 := h5.next ⟨.exec [] (some "Failed to delete group") hrun hexec
    (by rw [htags, hquery]; rfl) no_command (by simp) (by simp [Exec.errmsgs]),
    fun _ => by simp [Kept]⟩
  refine ⟨_, h6, ?_⟩
  simp only [Worker.issue, Worker.reply, hreplies, htags, hquery, hclient]
  rfl

theorem kept_right_deletion : ∃ x : Worker Nat,
    x.replies = [⟨some 1, some 1, "Failed to delete group"⟩] ∧
      ∀ reply ∈ x.replies, ToRequester reply := by
  obtain ⟨x, hx, hreplies⟩ := failed_deletion 1
  have hkept : Reachable Initial (fun x a x' => Step x a x' ∧ Kept x a) x :=
    hx.mono (fun _ _ _ hstep => ⟨hstep.1, hstep.2 rfl⟩)
  exact ⟨x, hreplies, kept_right hkept⟩

/-- The client 2 is told that the group of the client 1 cannot be deleted. -/
theorem wrong_client_told : ∃ x : Worker Nat, Reachable Initial Step x ∧
    x.replies = [⟨some 1, some 2, "Failed to delete group"⟩] := by
  obtain ⟨x, hx, hreplies⟩ := failed_deletion 2
  exact ⟨x, hx.mono (fun _ _ _ hstep => hstep.1), hreplies⟩

end ChityChat.ErrorReplies
