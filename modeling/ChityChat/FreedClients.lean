import ChityChat.Callbacks
import ChityChat.WriteCommands

namespace ChityChat.FreedClients

open DbResult Transition Callbacks
open DbPipeline hiding Action Step
open WriteCommands (newCtx)

variable {W C : Type} [DecidableEq W] [DecidableEq C]

def UsesClient (k : Exec) : Prop := k.errmsgs ≠ []

def logins : List Exec := [.doClientLoginSession, .doClientLogin, .doClientRegister]

def broadcasts : List Exec := [.doGroupBroadcast, .doRtusmBroadcast, .deleteGroupResult]

/-- A client that is used, and whether `server_free_client` was called for it before. -/
structure Use (C : Type) where
  client : C
  freed : Bool

/-- Workers, each with the client that the loop of its callback has found, what `user_ht` and the
users of the clients are, the clients that are freed, and the uses so far. -/
structure State (W C : Type) where
  worker : W → Worker C
  found : W → Option C
  userHt : Nat → Option C
  dbuser : C → Option Nat
  freed : C → Bool
  uses : List (Use C)

def State.log (x : State W C) (client : Option C) : State W C :=
  { x with uses := x.uses ++ client.toList.map (fun c => ⟨c, x.freed c⟩) }

structure Runs (x : Worker C) (ctx : DbcmdCtx C) (k : Exec) : Prop where
  running : ∃ rest, x.db.running = ctx :: rest
  exec : ctx.exec = true
  tag : (x.tags ctx.query).exec = some k

/-- The client of an event may be told an error at once, and `db_exec_cmd` tells the one of its
context. -/
def used (x : Worker C) : Callbacks.Action C → Option C
  | .event client _ => client
  | .exec _ (some _) => x.db.running.head?.bind DbcmdCtx.client
  | _ => none

/-- The entries of some keys are gone. -/
def serverGhtDel (ht : Nat → Option C) (keys : List Nat) : Nat → Option C :=
  fun key => if key ∈ keys then none else ht key

inductive Action (W C : Type)
  | work (w : W) (a : Callbacks.Action C)
  | useClient (w : W)
  | useUser (w : W)
  | setUser (w : W) (userId : Nat)
  | insertUser (w : W) (userId : Nat)
  | getClient (w : W) (userId : Nat)
  | send (w : W)
  | sent (w : W)
  | free (w : W) (c : C)
  | delUser (c : C) (cut : List Nat)

/-- The workers in any order, and between any two operations of a callback. `server_free_client` is
called for an event, and takes the user out of `user_ht` later, where `server_ght_del` may also cut
off the users behind it. -/
inductive Step : State W C → Action W C → State W C → Prop
  | work {x : State W C} {w : W} {a : Callbacks.Action C} {y : Worker C}
      (hstep : Callbacks.Step (x.worker w) a y) (hfound : x.found w = none) :
    Step x (.work w a)
      { x.log (used (x.worker w) a) with worker := Function.update x.worker w y }
  | useClient {x : State W C} {w : W} {ctx : DbcmdCtx C} {k : Exec} (hrun : Runs (x.worker w) ctx k)
      (hk : UsesClient k) :
    Step x (.useClient w) (x.log ctx.client)
  | useUser {x : State W C} {w : W} {ctx : DbcmdCtx C}
      (hrun : Runs (x.worker w) ctx .updatePfpResult) :
    Step x (.useUser w) (x.log ((x.worker w).tags ctx.query).user)
  | setUser {x : State W C} {w : W} {ctx : DbcmdCtx C} {k : Exec} {c : C} (userId : Nat)
      (hrun : Runs (x.worker w) ctx k) (hk : k ∈ logins) (hclient : ctx.client = some c) :
    Step x (.setUser w userId)
      { x.log (some c) with dbuser := Function.update x.dbuser c (some userId) }
  | insertUser {x : State W C} {w : W} {ctx : DbcmdCtx C} {k : Exec} {c : C} (userId : Nat)
      (hrun : Runs (x.worker w) ctx k) (hk : k ∈ logins) (hclient : ctx.client = some c) :
    Step x (.insertUser w userId)
      { x with userHt := Function.update x.userHt userId ((x.userHt userId).or (some c)) }
  | getClient {x : State W C} {w : W} {ctx : DbcmdCtx C} {k : Exec} (userId : Nat)
      (hrun : Runs (x.worker w) ctx k) (hk : k ∈ broadcasts) :
    Step x (.getClient w userId) { x with found := Function.update x.found w (x.userHt userId) }
  | send {x : State W C} {w : W} {c : C} (hfound : x.found w = some c) :
    Step x (.send w) (x.log (some c))
  | sent {x : State W C} (w : W) :
    Step x (.sent w) { x with found := Function.update x.found w none }
  | free {x : State W C} {w : W} (c : C) (hrun : (x.worker w).db.running = []) :
    Step x (.free w c) { x with freed := Function.update x.freed c true }
  | delUser {x : State W C} {c : C} {userId : Nat} (cut : List Nat) (hfreed : x.freed c = true)
      (huser : x.dbuser c = some userId) :
    Step x (.delUser c cut) { x with userHt := serverGhtDel x.userHt (userId :: cut) }

structure Initial (x : State W C) : Prop where
  worker : ∀ w, Callbacks.Initial (x.worker w)
  found : x.found = fun _ => none
  userHt : x.userHt = fun _ => none
  dbuser : x.dbuser = fun _ => none
  freed : x.freed = fun _ => false
  uses : x.uses = []

inductive Pending (db : ServerDb C) : DbcmdCtx C → Prop
  | queued {i : Nat} {chain : Chain C} {ctx : DbcmdCtx C} (hslot : db.queue.slots i = some chain)
      (hctx : ctx ∈ chain.ctxs) : Pending db ctx
  | running {ctx : DbcmdCtx C} (hctx : ctx ∈ db.running) : Pending db ctx

/-- The callback of a context may use the client of the context or the user of its parameter. -/
def MayUse (tag : Tag C) (client : Option C) (c : C) : Prop :=
  ∃ k, tag.exec = some k ∧
    (UsesClient k ∧ client = some c ∨ k = .updatePfpResult ∧ tag.user = some c)

/-- A client is freed when no context may use it and no loop has found it. What events, loops and
`get_group_owner` hand out is not freed. -/
def Kept (x : State W C) : Action W C → Prop
  | .work _ (.event client issues) => (∀ c ∈ client, x.freed c = false) ∧
      ∀ issue ∈ issues, issue.exec = some .updatePfpResult → ∀ c ∈ issue.user, x.freed c = false
  | .work w (.exec issues _) => ∀ issue ∈ issues, issue.exec = some .deleteGroupResult →
      ∀ c ∈ (x.worker w).db.client, x.freed c = false
  | .getClient _ userId => ∀ c ∈ x.userHt userId, x.freed c = false
  | .free _ c => ∀ w, x.found w ≠ some c ∧
      ∀ ctx, Pending (x.worker w).db ctx → ¬ MayUse ((x.worker w).tags ctx.query) ctx.client c
  | _ => True

variable {x x' : State W C} {a : Action W C} {y : Worker C} {db : ServerDb C} {ctx : DbcmdCtx C}
  {rest : List (DbcmdCtx C)} {freed : C → Bool} {k : Exec}

/-- What a callback may use is not freed, and it has a client to use. -/
structure Live (freed : C → Bool) (tag : Tag C) (client : Option C) : Prop where
  live : ∀ c, MayUse tag client c → freed c = false
  client : ∀ k, tag.exec = some k → UsesClient k → k ≠ .deleteGroupResult → client ≠ none

omit [DecidableEq C] in
theorem all_iff_pending {P : DbcmdCtx C → Prop} :
    All P db ↔ db.current = none ∧ ∀ ctx, Pending db ctx → P ctx := by
  constructor
  · intro h
    refine ⟨h.current, fun ctx hctx => ?_⟩
    cases hctx with
    | queued hslot hctx => exact h.slots _ _ hslot _ hctx
    | running hctx => exact h.running _ hctx
  · rintro ⟨hcurrent, h⟩
    exact ⟨hcurrent, fun i chain hi ctx hctx => h ctx (.queued hi hctx),
      fun ctx hctx => h ctx (.running hctx)⟩

structure Safe (x : State W C) : Prop where
  tagged : ∀ w, Tagged (Live x.freed) (x.worker w)
  found : ∀ w, ∀ c ∈ x.found w, x.freed c = false
  uses : ∀ use ∈ x.uses, use.freed = false

omit [DecidableEq W] [DecidableEq C] in
theorem safe_initial (h : Initial x) : Safe x where
  tagged w := tagged_initial (h.worker w)
  found := by
    rw [h.found]
    nofun
  uses := by
    rw [h.uses]
    nofun

omit [DecidableEq W] [DecidableEq C] in
theorem Safe.log (h : Safe x) {client : Option C} (hlive : ∀ c ∈ client, x.freed c = false) :
    Safe (x.log client) := by
  refine ⟨h.tagged, h.found, fun use huse => ?_⟩
  rcases List.mem_append.mp huse with huse | huse
  · exact h.uses use huse
  · obtain ⟨c, hc, rfl⟩ := List.mem_map.mp huse
    exact hlive c (Option.mem_toList.mp hc)

omit [DecidableEq W] [DecidableEq C] in
theorem Safe.runs (h : Safe x) {w : W} (hrun : Runs (x.worker w) ctx k) :
    Live x.freed ((x.worker w).tags ctx.query) ctx.client := by
  obtain ⟨rest, hrunning⟩ := hrun.running
  exact (h.tagged w).running hrunning

omit [DecidableEq W] [DecidableEq C] in
theorem Safe.client (h : Safe x) {w : W} (hrun : Runs (x.worker w) ctx k) (hk : UsesClient k) :
    ∀ c ∈ ctx.client, x.freed c = false :=
  fun c hc => (h.runs hrun).live c ⟨k, hrun.tag, .inl ⟨hk, hc⟩⟩

omit [DecidableEq C] in
theorem handler_live {client current : Option C} {issue : Issue C} (h : Handler client issue)
    (hcurrent : client ≠ none → current = client) (hclient : ∀ c ∈ client, freed c = false)
    (huser : issue.exec = some .updatePfpResult → ∀ c ∈ issue.user, freed c = false) :
    Live freed (issue.tag client) (issue.cmd.client.or current) := by
  obtain ⟨hnone, hevent⟩ := h
  rw [hnone, Option.none_or]
  have hsome : ∀ k, issue.exec = some k → UsesClient k → current = client ∧ client ≠ none := by
    intro k hk huse
    have hne : client ≠ none := by
      rintro rfl
      obtain rfl := hevent rfl k hk
      exact huse rfl
    exact ⟨hcurrent hne, hne⟩
  constructor
  · rintro c ⟨k, hk, ⟨huse, hc⟩ | ⟨rfl, hc⟩⟩
    · exact hclient c ((hsome k hk huse).1 ▸ hc)
    · exact huser hk c hc
  · intro k hk huse _
    obtain ⟨heq, hne⟩ := hsome k hk huse
    exact heq ▸ hne

omit [DecidableEq C] in
theorem callback_live {issue : Issue C} {requester : Option C} (h : Callback ctx k issue)
    (hctx : Live freed (y.tags ctx.query) ctx.client) (hk : (y.tags ctx.query).exec = some k)
    (hkept : issue.exec = some .deleteGroupResult → ∀ c ∈ y.db.client, freed c = false) :
    Live freed (issue.tag requester) (issue.cmd.client.or y.db.client) := by
  have hgroups : ∀ k', issue.exec = some k' → UsesClient k' → k' ≠ .deleteGroupResult →
      UsesClient k ∧ ctx.client ≠ none ∧ issue.cmd.client.or y.db.client = ctx.client := by
    intro k' hissue huse hne
    obtain ⟨hmem, hclient⟩ := h k' hissue
    obtain ⟨huse', hk', hcases⟩ := issues_fail hmem huse
    have hsome := hctx.client k hk huse' hk'
    obtain ⟨c, hc⟩ := Option.ne_none_iff_exists'.mp hsome
    rw [hclient, if_pos (hcases.resolve_left hne), hc]
    exact ⟨huse', Option.some_ne_none c, rfl⟩
  constructor
  · rintro c ⟨k', hissue, ⟨huse, hc⟩ | ⟨rfl, -⟩⟩
    · rcases eq_or_ne k' .deleteGroupResult with rfl | hne
      · obtain ⟨-, hclient⟩ := h _ hissue
        rw [hclient, if_neg (by decide), Option.none_or] at hc
        exact hkept hissue c hc
      · obtain ⟨huse', -, heq⟩ := hgroups k' hissue huse hne
        exact hctx.live c ⟨k, hk, .inl ⟨huse', heq ▸ hc⟩⟩
    · obtain ⟨hmem, -⟩ := h _ hissue
      cases k <;> simp [Exec.issues] at hmem
  · intro k' hissue huse hne
    obtain ⟨-, hsome, heq⟩ := hgroups k' hissue huse hne
    exact heq ▸ hsome

omit [DecidableEq W] in
theorem Safe.free (h : Safe x) {w : W} {c : C} (hkept : Kept x (.free w c)) :
    Safe { x with freed := Function.update x.freed c true } := by
  refine ⟨fun v => ?_, fun v c' hc' => ?_, h.uses⟩
  · obtain ⟨hcurrent, hold⟩ := all_iff_pending.mp (h.tagged v)
    refine all_iff_pending.mpr ⟨hcurrent, fun ctx hctx => ?_⟩
    obtain ⟨hlt, hlive⟩ := hold ctx hctx
    refine ⟨hlt, fun c' huse => ?_, hlive.client⟩
    have hne : c' ≠ c := by
      rintro rfl
      exact (hkept v).2 ctx hctx huse
    exact (Function.update_of_ne hne ..).trans (hlive.live c' huse)
  · have hne : c' ≠ c := by
      rintro rfl
      exact (hkept v).1 hc'
    exact (Function.update_of_ne hne ..).trans (h.found v c' hc')

omit [DecidableEq W] [DecidableEq C] in
theorem Safe.live {w : W} {b : Callbacks.Action C} (h : Safe x)
    (hstep : Callbacks.Step (x.worker w) b y) (hkept : Kept x (.work w b)) :
    (∀ c ∈ used (x.worker w) b, x.freed c = false) ∧ Tagged (Live x.freed) y := by
  cases hstep with
  | event client issues _ _ hissues =>
      refine ⟨hkept.1, (h.tagged w).event (fun issue hissue => ?_)⟩
      refine handler_live (hissues issue hissue) (fun hne => ?_) hkept.1 (hkept.2 issue hissue)
      obtain ⟨c, rfl⟩ := Option.ne_none_iff_exists'.mp hne
      rfl
  | result res _ _ _ hsync => exact ⟨nofun, (h.tagged w).result hsync⟩
  | @exec ctx rest k issues errmsg hrun hexec hk _ hissues herr =>
      have hruns : Runs (x.worker w) ctx k := ⟨⟨rest, hrun⟩, hexec, hk⟩
      constructor
      · cases errmsg with
        | none => nofun
        | some msg =>
            have hused : used (x.worker w) (.exec issues (some msg)) = ctx.client := by
              rw [used, hrun]
              rfl
            rw [hused]
            exact h.client hruns (List.ne_nil_of_mem (herr msg rfl))
      · exact (h.tagged w).exec hrun hexec (fun issue hissue =>
          callback_live (hissues issue hissue) (h.runs hruns) hk (hkept issue hissue))
  | skip hrun hexec => exact ⟨nofun, (h.tagged w).skip hrun hexec⟩

theorem logins_use (h : k ∈ logins) : UsesClient k := by
  simp only [logins, List.mem_cons, List.not_mem_nil, or_false] at h
  rcases h with rfl | rfl | rfl <;> exact List.cons_ne_nil _ _

omit [DecidableEq C] in
theorem Safe.worker (h : Safe x) {w : W} (hlive : Tagged (Live x.freed) y) :
    Safe { x with worker := Function.update x.worker w y } where
  tagged := (Function.forall_update_iff x.worker (fun _ y => Tagged (Live x.freed) y)).mpr
    ⟨hlive, fun v _ => h.tagged v⟩
  found := h.found
  uses := h.uses

omit [DecidableEq C] in
theorem Safe.find (h : Safe x) {w : W} {client : Option C}
    (hlive : ∀ c ∈ client, x.freed c = false) :
    Safe { x with found := Function.update x.found w client } where
  tagged := h.tagged
  found := (Function.forall_update_iff x.found (fun _ r => ∀ c ∈ r, x.freed c = false)).mpr
    ⟨hlive, fun v _ => h.found v⟩
  uses := h.uses

theorem Safe.step (h : Safe x) (hstep : Step x a x') (hkept : Kept x a) : Safe x' := by
  cases hstep with
  | work hstep _ =>
      obtain ⟨hused, hlive⟩ := h.live hstep hkept
      exact (h.log hused).worker hlive
  | useClient hrun hk => exact h.log (h.client hrun hk)
  | useUser hrun =>
      exact h.log (fun c hc => (h.runs hrun).live c ⟨_, hrun.tag, .inr ⟨rfl, hc⟩⟩)
  | setUser userId hrun hk hclient =>
      have hlog := h.log (hclient ▸ h.client hrun (logins_use hk))
      exact ⟨h.tagged, h.found, hlog.uses⟩
  | insertUser | delUser => exact ⟨h.tagged, h.found, h.uses⟩
  | getClient userId _ _ => exact h.find hkept
  | @send w c hfound => exact h.log (fun c' hc' => h.found w c' (hfound ▸ hc'))
  | sent w => exact h.find nofun
  | free c _ => exact h.free hkept

/-- As long as clients are freed when nothing may use them any more, and nothing freed is handed
out, no client is used after `server_free_client` was called for it. -/
theorem uses_before_free (h : Reachable Initial (fun x a x' => Step x a x' ∧ Kept x a) x) :
    ∀ use ∈ x.uses, use.freed = false := by
  have hsafe : Safe x := h.invariant (fun _ => safe_initial)
    (fun _ _ _ hx hstep => hx.step hstep.1 hstep.2)
  exact hsafe.uses

def ready : State Unit Nat :=
  ⟨fun _ => ⟨dbInit, fun _ => ⟨none, none, none⟩, []⟩, fun _ => none, fun _ => none, fun _ => none,
    fun _ => false, []⟩

def loginIssue : Issue Nat := ⟨newCtx .dbGetUser, some .doClientLogin, none⟩

theorem loginIssue_command : Command ([loginIssue].map Issue.cmd) :=
  ⟨by simp [loginIssue, newCtx], by simp [loginIssue, newCtx]⟩

theorem no_command : Command (([] : List (Issue Nat)).map Issue.cmd) := ⟨by simp, by simp⟩

def asked : Worker Nat :=
  (ready.worker ()).issue (eworkerPrepEvent dbInit (some 1) [loginIssue.cmd]) (some 1) [loginIssue]

def answered : Worker Nat := { asked with db := dbProcessResult asked.db ⟨0, .tuplesOk, []⟩ }

theorem login_fails {gone : Bool} {x : State Unit Nat}
    (h : Reachable Initial (fun x a x' => Step x a x' ∧ (gone = false → Kept x a)) x)
    (hworker : x.worker () = asked) (hfound : x.found () = none) :
    ∃ x' : State Unit Nat,
      Reachable Initial (fun x a x' => Step x a x' ∧ (gone = false → Kept x a)) x' ∧
      x'.uses = x.uses ++ [⟨1, x.freed 1⟩] := by
  have hresult : Callbacks.Step asked (.result ⟨0, .tuplesOk, []⟩) answered :=
    .result _ rfl (Nat.lt_add_one 0) rfl (by decide)
  have h1 : Step x (.work () (.result ⟨0, .tuplesOk, []⟩)) _ :=
    .work (hworker ▸ hresult) hfound
  have hexec : Callbacks.Step answered (.exec [] (some "Incorrect Username or Password")) _ :=
    .exec [] _ rfl rfl rfl no_command (by simp) (by simp [Exec.errmsgs])
  have h2 : Step { x.log none with worker := Function.update x.worker () answered }
      (.work () (.exec [] (some "Incorrect Username or Password"))) _ :=
    .work hexec hfound
  refine ⟨_, (h.next ⟨h1, fun _ => trivial⟩).next ⟨h2, fun _ => by simp [Kept]⟩, ?_⟩
  have huses : x.uses ++ [] ++ [⟨1, x.freed 1⟩] = x.uses ++ [⟨1, x.freed 1⟩] := by
    rw [List.append_nil]
  exact huses

/-- The client 1 sends the login, and `gone` tells whether it hangs up before the answer. -/
theorem failed_login (gone : Bool) : ∃ x : State Unit Nat,
    Reachable Initial (fun x a x' => Step x a x' ∧ (gone = false → Kept x a)) x ∧
      x.uses = [⟨1, false⟩, ⟨1, gone⟩] := by
  have h0 : Reachable Initial (fun x a x' => Step x a x' ∧ (gone = false → Kept x a)) ready :=
    .start ⟨fun _ => ⟨rfl, rfl⟩, rfl, rfl, rfl, rfl, rfl⟩
  have hevent : Callbacks.Step (ready.worker ()) (.event (some 1) [loginIssue]) asked :=
    .event _ _ rfl loginIssue_command (by simp [Handler, loginIssue, newCtx])
  have hasked : Step ready (.work () (.event (some 1) [loginIssue])) _ := .work hevent rfl
  have h1 := h0.next ⟨hasked, fun _ => by simp [Kept, ready, loginIssue]⟩
  cases gone with
  | false => exact login_fails h1 rfl rfl
  | true =>
      have hfree : Step { ready.log (some 1) with worker := Function.update ready.worker () asked }
          (.free () 1) _ := .free 1 rfl
      exact login_fails (h1.next ⟨hfree, nofun⟩) rfl rfl

theorem uses_before_free_login : ∃ x : State Unit Nat, x.uses = [⟨1, false⟩, ⟨1, false⟩] ∧
    ∀ use ∈ x.uses, use.freed = false := by
  obtain ⟨x, hx, huses⟩ := failed_login false
  have hkept : Reachable Initial (fun x a x' => Step x a x' ∧ Kept x a) x :=
    hx.mono (fun _ _ _ hstep => ⟨hstep.1, hstep.2 rfl⟩)
  exact ⟨x, huses, uses_before_free hkept⟩

/-- The error is sent to a client that is freed. -/
theorem freed_client_told : ∃ x : State Unit Nat, Reachable Initial Step x ∧
    x.uses = [⟨1, false⟩, ⟨1, true⟩] := by
  obtain ⟨x, hx, huses⟩ := failed_login true
  exact ⟨x, hx.mono (fun _ _ _ hstep => hstep.1), huses⟩

end ChityChat.FreedClients
