import ChityChat.WriteAuthorisation

namespace ChityChat.OverflowDelete

open JsonC DbResult Schema RingBuffer Transition DbPipeline DbPipelineOrder WriteStatements
  WriteCommands WriteAuthorised WriteAuthorisation

def firstGroup : GroupRow := ⟨1, some 1, "first", none, some false, none⟩

def secondGroup : GroupRow := ⟨2, some 2, "second", none, some false, none⟩

def twoGroups : Store where
  users := [⟨1, "one", "one", none, none, none⟩, ⟨2, "two", "two", none, none, none⟩]
  groups := [firstGroup, secondGroup]
  members := [⟨1, 1⟩, ⟨2, 2⟩]
  messages := []
  codes := []
  userSeq := 3
  groupSeq := 3
  msgSeq := 1

theorem twoGroups_stored : Stored twoGroups where
  valid := by constructor <;> simp [twoGroups, firstGroup, secondGroup]
  users := by simp [twoGroups]
  groups := by simp [twoGroups, firstGroup, secondGroup]
  messages := by simp [twoGroups]
  ints := by simp [twoGroups]

variable {t : Tx} {x : World Unit Nat} {w : Worker Nat} {ctx : DbcmdCtx Nat}
  {running : List (DbcmdCtx Nat)}
  {chains : List (Chain Nat)} {todo : List Sent} {sent : Sent} {res : PGresult} {tx tx' : Option Tx}

theorem view_stored (h : ∀ m ∈ twoGroups.members, m ∉ t.members → m.groupId ∉ t.groups) :
    Stored (t.view twoGroups) where
  valid := { twoGroups_stored.valid with
    groupKey := (List.filter_sublist.map _).nodup twoGroups_stored.valid.groupKey
    memberKey := List.filter_sublist.nodup twoGroups_stored.valid.memberKey
    messageKey := List.nodup_nil
    codeKey := List.nodup_nil
    owner := fun g hg => twoGroups_stored.valid.owner g (List.mem_filter.mp hg).1
    memberUser := fun m hm => twoGroups_stored.valid.memberUser m (List.mem_filter.mp hm).1
    memberGroup := fun m hm => by
      obtain ⟨hm, hkept⟩ := List.mem_filter.mp hm
      obtain ⟨g, hg, heq⟩ := List.mem_map.mp (twoGroups_stored.valid.memberGroup m hm)
      refine List.mem_map.mpr ⟨g, List.mem_filter.mpr ⟨hg, ?_⟩, heq⟩
      rw [heq]
      exact decide_eq_true (h m hm (of_decide_eq_true hkept))
    messageUser := by simp [Tx.view, twoGroups]
    messageGroup := by simp [Tx.view, twoGroups]
    messageMember := by simp [Tx.view, twoGroups]
    messageParent := by simp [Tx.view, twoGroups]
    codeGroup := by simp [Tx.view, twoGroups] }
  users := twoGroups_stored.users
  groups g hg := twoGroups_stored.groups g (List.mem_filter.mp hg).1
  messages := by simp [Tx.view, twoGroups]
  ints := twoGroups_stored.ints

structure Left (w : Worker Nat) (tx : Option Tx) (todo : List Sent) : Prop where
  stmts : w.stmts.drop w.results.length = todo
  executed : w.results.length ≤ w.stmts.length
  tx : w.tx = tx

/-- Every result was processed; the ring holds `chains`, all of one client. -/
structure Holds (w : Worker Nat) (running : List (DbcmdCtx Nat)) (chains : List (Chain Nat))
    (todo : List Sent) : Prop
    extends Left w none todo where
  arrived : w.pipe.arrived = w.results.length
  running : w.pipe.running = running
  current : w.pipe.current = none
  size : w.pipe.queue.size = dbPipelineQueueSize
  ring : Represents w.pipe.queue chains
  clients : ∀ chain ∈ chains, chain.head.client = some 7

theorem Left.send (h : Left w tx todo) (pipe : ServerDb Nat) (sends : List Sent) :
    Left { w with pipe := pipe, stmts := w.stmts ++ sends } tx (todo ++ sends) where
  stmts := by rw [List.drop_append_of_le_length h.executed, h.stmts]
  executed := Nat.le_trans h.executed (by simp)
  tx := h.tx

theorem Left.head (h : Left w tx (sent :: todo)) : w.stmts[w.results.length]? = some sent := by
  rw [← List.head?_drop, h.stmts, List.head?_cons]

theorem Left.execute (h : Left w tx (sent :: todo)) (pipe : ServerDb Nat) (res : PGresult)
    (tx' : Option Tx) :
    Left { w with pipe := pipe, results := w.results ++ [res], tx := tx' } tx' todo where
  stmts := by
    rw [List.length_append, List.length_singleton, ← List.drop_drop, h.stmts, List.drop_succ_cons,
      List.drop_zero]
  executed := by
    rw [List.length_append]
    exact (List.getElem?_eq_some_iff.mp h.head).1
  tx := rfl

theorem enqueue_room {db : ServerDb Nat} (h : Represents db.queue chains)
    (hroom : chains.length < db.queue.size) (chain : Chain Nat) :
    (dbPipelineEnqueue db chain).2.queue = db.queue.push chain := by
  simp [dbPipelineEnqueue, h.free hroom]

theorem enqueue_full {db : ServerDb Nat} (h : Represents db.queue chains)
    (hfull : chains.length = db.queue.size)
    (hclients : ∀ chain ∈ chains, chain.head.client = some 7) (chain : Chain Nat) :
    (dbPipelineEnqueue db chain).2.queue = db.queue := by
  cases chains with
  | nil => exact absurd h.read (by rw [← hfull]; exact Nat.not_lt_zero _)
  | cons first more => simp [dbPipelineEnqueue, h.full hfull, h.peek, hclients first]

def asked (ctx : DbcmdCtx Nat) (query : Nat) : Chain Nat :=
  ⟨{ ctx with query := query, client := some 7 }, []⟩

theorem Holds.event (h : Holds w [] chains todo) (sent : Sent) (ctx : DbcmdCtx Nat)
    (hclient : ctx.client = none) (hroom : chains.length < dbPipelineQueueSize) :
    Holds (w.event (some 7) [(sent, ctx)]) [] (chains ++ [asked ctx w.pipe.sent])
    (todo ++ [sent]) := by
  have hset : (dbPipelineSetCtx w.pipe (some 7)).current = none := h.current
  have hring : Represents (dbPipelineSetCtx w.pipe (some 7)).queue chains := h.ring
  have hsize : chains.length < (dbPipelineSetCtx w.pipe (some 7)).queue.size :=
    hroom.trans_eq h.size.symm
  have hchain : sentChain (dbPipelineSetCtx w.pipe (some 7)) ctx [] = asked ctx w.pipe.sent := by
    simp [sentChain, asked, numbered, dbPipelineSetCtx, hclient]
  have hpipe : eworkerPrepEvent w.pipe (some 7) [ctx] = _ := flush_eq hset ctx
  rw [enqueue_room hring hsize, hchain] at hpipe
  simp only [Worker.event, List.map_cons, List.map_nil, hpipe]
  refine ⟨h.toLeft.send _ [sent], h.arrived, h.running, h.current, h.size, hring.push hsize _,
    fun chain hchain => ?_⟩
  rcases List.mem_append.mp hchain with hchain | hchain
  · exact h.clients chain hchain
  · rw [List.mem_singleton.mp hchain]
    rfl

theorem Holds.event_full (h : Holds w [] chains todo) (sent : Sent) (ctx : DbcmdCtx Nat)
    (hfull : chains.length = dbPipelineQueueSize) :
    Holds (w.event (some 7) [(sent, ctx)]) [] chains (todo ++ [sent]) := by
  have hset : (dbPipelineSetCtx w.pipe (some 7)).current = none := h.current
  have hring : Represents (dbPipelineSetCtx w.pipe (some 7)).queue chains := h.ring
  have hpipe : eworkerPrepEvent w.pipe (some 7) [ctx] = _ := flush_eq hset ctx
  rw [enqueue_full hring (hfull.trans h.size.symm) h.clients] at hpipe
  simp only [Worker.event, List.map_cons, List.map_nil, hpipe]
  exact ⟨h.toLeft.send _ [sent], h.arrived, h.running, h.current, h.size, h.ring, h.clients⟩

theorem Holds.answer {query : Nat} (h : Holds w [] (asked ctx query :: chains) (sent :: todo))
    (hexec : ctx.exec = true) (hsync : res.status ≠ .pipelineSync) :
    Holds { w with pipe := dbProcessResult w.pipe res, results := w.results ++ [res], tx := none }
      [ctx.execRes.run res (asked ctx query).head] chains todo := by
  rw [dbProcessResult_eq h.ring.peek hexec hsync, if_pos (show complete _ _ = true from rfl)]
  exact ⟨h.toLeft.execute _ res none, by simp [h.arrived], rfl, h.current, h.size,
    (h.ring.replace _).pop, fun chain hchain => h.clients chain (List.mem_cons_of_mem _ hchain)⟩

theorem Holds.exec_nil (h : Holds w [ctx] chains todo) :
    Holds (w.exec ctx [] []) [] chains todo := by
  have hpipe : dbExecCmd w.pipe ctx [] [] = { w.pipe with
      executed := if ctx.exec then w.pipe.executed ++ [ctx.query] else w.pipe.executed
      running := []
      live := w.pipe.live.erase (w.pipe.arrived - 1) } := by
    cases hexec : ctx.exec <;> simp [dbExecCmd, hexec, dbPipelineCurrentDone, h.current, pqClear]
  simp only [Worker.exec, List.map_nil, hpipe]
  refine ⟨?_, h.arrived, rfl, h.current, h.size, h.ring, h.clients⟩
  simpa using h.toLeft.send _ []

/-- A run in which nothing has changed, and in which the first user has given all commands. -/
structure Scene (x : World Unit Nat) : Prop where
  reachable : Reachable Initial WorldStep x
  store : x.store = twoGroups
  issued : ∀ c ∈ x.issued, c.1 = 1

theorem Scene.event (h : Scene x) (request : Request Nat) (hrun : (x.workers ()).pipe.running = [])
    (hallowed : request.Allowed x) (hissued : ∀ c ∈ request.issued, c.1 = 1) :
    ∃ x', Scene x' ∧ x'.workers () = (x.workers ()).event (some 7) request.sends := by
  have hstep := WorldStep.event () (some 7) [request] hrun (by simpa using hallowed)
  refine ⟨_, ⟨h.reachable.next hstep, h.store, fun c hc => ?_⟩, by simp⟩
  rcases List.mem_append.mp hc with hc | hc
  · exact h.issued c hc
  · exact hissued c (by simpa using hc)

theorem Scene.execute (h : Scene x) (hleft : Left (x.workers ()) tx (sent :: todo))
    (hexec : Execute (x.workers ()).results.length twoGroups tx sent.stmt res twoGroups tx') :
    ∃ x', Scene x' ∧ x'.workers () =
      { x.workers () with results := (x.workers ()).results ++ [res], tx := tx' } := by
  rw [← hleft.tx] at hexec
  have hstep := WorldStep.execute (x := x) () hleft.head (h.store ▸ hexec)
  exact ⟨_, ⟨h.reachable.next hstep, h.store, h.issued⟩, by simp⟩

theorem Scene.answer {query : Nat} (h : Scene x) (res : PGresult) (hctx : ctx.exec = true)
    (hholds : Holds (x.workers ()) [] (asked ctx query :: chains) (sent :: todo))
    (hsync : res.status ≠ .pipelineSync)
    (hexec : Execute (x.workers ()).results.length twoGroups none sent.stmt res twoGroups none) :
    ∃ x', Scene x' ∧
      Holds (x'.workers ()) [ctx.execRes.run res (asked ctx query).head] chains todo := by
  obtain ⟨x', h', hworker⟩ := h.execute hholds.toLeft hexec
  have hres : (x'.workers ()).results[(x'.workers ()).pipe.arrived]? = some res := by
    simp [hworker, hholds.arrived]
  have hstep := WorldStep.deliver () (by rw [hworker]; exact hholds.running) hres
  refine ⟨_, ⟨h'.reachable.next hstep, h'.store, h'.issued⟩, ?_⟩
  simpa [hworker] using hholds.answer hctx hsync

theorem Scene.exec (h : Scene x) (sends : List (Sent × DbcmdCtx Nat))
    (hholds : Holds (x.workers ()) [ctx] chains todo) (hsends : Callback ctx sends) :
    ∃ x', Scene x' ∧ x'.workers () = (x.workers ()).exec ctx [] sends := by
  have hstep := WorldStep.exec () sends hholds.running hsends
  exact ⟨_, ⟨h.reachable.next hstep, h.store, h.issued⟩, by simp⟩

def reading : Sent := ⟨.other, none⟩

theorem scene_full (k : Nat) (hk : k ≤ dbPipelineQueueSize) :
    ∃ x chains, Scene x ∧ Holds (x.workers ()) [] chains (List.replicate k reading) ∧
      chains.length = k ∧ ∀ chain ∈ chains, ∃ query, chain = asked (newCtx .dbGetUser) query := by
  induction k with
  | zero =>
      refine ⟨⟨twoGroups, fun _ => Worker.init, [], []⟩, [],
        ⟨.start ⟨twoGroups_stored, fun _ => rfl, rfl, rfl⟩, rfl, by simp⟩,
        ⟨⟨rfl, Nat.le_refl _, rfl⟩, rfl, rfl, rfl, rfl, represents_empty (by decide), by simp⟩, rfl,
          by simp⟩
  | succ k ih =>
      obtain ⟨x, chains, h, hholds, hlen, hchains⟩ := ih (Nat.le_of_succ_le hk)
      have hothers : Others [(newCtx .dbGetUser : DbcmdCtx Nat)] := by
        refine ⟨⟨?_, ?_⟩, ?_⟩ <;> simp [newCtx]
      obtain ⟨x', h', hworker⟩ :=
        h.event (.other [newCtx .dbGetUser]) hholds.running hothers (by simp [Request.issued])
      have hholds' := hholds.event reading (newCtx .dbGetUser) rfl (by omega)
      refine ⟨x', chains ++ [asked (newCtx .dbGetUser) (x.workers ()).pipe.sent], h', ?_, ?_,
        fun chain hchain => ?_⟩
      · rw [List.replicate_succ', hworker]
        exact hholds'
      · rw [List.length_append, hlen]
        rfl
      · rcases List.mem_append.mp hchain with hchain | hchain
        · exact hchains chain hchain
        · exact ⟨_, List.mem_singleton.mp hchain⟩

theorem Scene.drain (h : Scene x)
    (hholds : Holds (x.workers ()) [] chains (List.replicate chains.length reading ++ todo))
    (hchains : ∀ chain ∈ chains, ∃ query, chain = asked (newCtx .dbGetUser) query) :
    ∃ x', Scene x' ∧ Holds (x'.workers ()) [] [] todo := by
  induction chains generalizing x with
  | nil => exact ⟨x, h, hholds⟩
  | cons chain chains ih =>
      obtain ⟨query, rfl⟩ := hchains chain (by simp)
      obtain ⟨x₁, h₁, hholds₁⟩ :=
        h.answer ⟨_, .tuplesOk, []⟩ rfl hholds (by simp) (.other rfl (by simp))
      obtain ⟨x₂, h₂, hworker⟩ := h₁.exec [] hholds₁ ⟨[], ⟨⟨by simp, by simp⟩, by simp⟩, rfl⟩
      exact ih h₂ (hworker ▸ hholds₁.exec_nil) fun c hc => hchains c (List.mem_cons_of_mem _ hc)

theorem Scene.left (h : Scene x) (hleft : Left (x.workers ()) tx (sent :: todo))
    (hexec : Execute (x.workers ()).results.length twoGroups tx sent.stmt res twoGroups tx') :
    ∃ x', Scene x' ∧ Left (x'.workers ()) tx' todo := by
  obtain ⟨x', h', hworker⟩ := h.execute hleft hexec
  exact ⟨x', h', hworker ▸ hleft.execute _ res tx'⟩

def wrongly (stmts : List Stmt) : List Sent :=
  stmts.map (fun stmt => ⟨stmt, some (1, .deleteGroup 2)⟩)

theorem Scene.inside {stmt : Stmt} {stmts : List Stmt} {t' : Tx} {status : ExecStatusType}
    {rows : List (List (Option Value))} (h : Scene x)
    (hleft : Left (x.workers ()) (some t) (wrongly (stmt :: stmts))) (hok : t.failed = false)
    (hrun : t.run twoGroups stmt = some (t', status, rows))
    (hmembers : ∀ m ∈ twoGroups.members, m ∉ t'.members → m.groupId ∉ t'.groups) :
    ∃ x', Scene x' ∧ Left (x'.workers ()) (some t') (wrongly stmts) :=
  h.left hleft (.inside hok hrun (view_stored hmembers))

def deleting : Tx := ⟨false, [], [⟨2, 2⟩], [], [2]⟩

theorem Scene.delete (h : Scene x)
    (hleft : Left (x.workers ()) none (wrongly (deleteGroupStmts 2))) :
    ∃ x', Scene x' ∧ Left (x'.workers ()) (some deleting) (wrongly [.commit]) := by
  obtain ⟨x, h, hleft⟩ := h.left hleft .begin
  obtain ⟨x, h, hleft⟩ := h.inside hleft rfl rfl (by decide)
  obtain ⟨x, h, hleft⟩ := h.inside hleft rfl rfl (by decide)
  obtain ⟨x, h, hleft⟩ := h.inside hleft rfl rfl (by decide)
  obtain ⟨x, h, hleft⟩ := h.inside hleft rfl rfl (by decide)
  obtain ⟨x, h, hleft⟩ := h.inside hleft rfl rfl (by decide)
  obtain ⟨x, h, hleft⟩ := h.inside hleft rfl rfl (by decide)
  exact ⟨x, h, hleft⟩

def ownerSent (groupId : Nat) : Sent := ⟨.selectOwner groupId, some (1, .deleteGroup groupId)⟩

def ownerCtx (groupId : Nat) : DbcmdCtx Nat :=
  { newCtx .getGroupOwner with groupId := groupId, userId := 1 }

theorem Scene.deleteGroup (h : Scene x) (hrun : (x.workers ()).pipe.running = []) (groupId : Nat) :
    ∃ x', Scene x' ∧ x'.workers () = (x.workers ()).event (some 7)
    [(ownerSent groupId, ownerCtx groupId)] := by
  refine h.event (.chat 1 (.deleteGroup groupId)) hrun ?_ (by simp [Request.issued])
  simp [Request.Allowed, h.store, twoGroups]

theorem Scene.confuse (h : Scene x) (hholds : Holds (x.workers ()) [] [] [ownerSent 1]) :
    ∃ x', Scene x' ∧ Left (x'.workers ()) none (wrongly (deleteGroupStmts 2)) := by
  obtain ⟨x₁, h₁, hworker₁⟩ := h.deleteGroup hholds.running 2
  have hholds₁ := hworker₁ ▸ hholds.event (ownerSent 2) (ownerCtx 2) rfl (by decide)
  obtain ⟨x₂, h₂, hholds₂⟩ := h₁.answer ⟨_, .tuplesOk, [[some (.int 1)]]⟩ rfl hholds₁ (by simp)
    (.run "" "" rfl twoGroups_stored)
  obtain ⟨x₃, h₃, hworker₃⟩ := h₂.exec (dbAsyncDeleteGroup 1 2) hholds₂ rfl
  have hleft : Left (x₃.workers ()) none (ownerSent 2 :: wrongly (deleteGroupStmts 2)) := by
    rw [hworker₃]
    exact hholds₂.toLeft.send _ (wrongly (deleteGroupStmts 2))
  exact h₃.left hleft (.run "" "" rfl twoGroups_stored)

/-- With all slots taken, a group can be deleted by a user who does not own it. -/
theorem full_ring_deletes : ∃ (x : World Unit Nat) (a : Act Unit Nat) (x' : World Unit Nat),
    Reachable Initial WorldStep x ∧ WorldStep x a x' ∧ ¬ StepAuthorised x x' := by
  obtain ⟨x, chains, h, hholds, hlen, hchains⟩ := scene_full dbPipelineQueueSize (Nat.le_refl _)
  obtain ⟨x, h, hworker⟩ := h.deleteGroup hholds.running 1
  have hholds := hworker ▸ hholds.event_full (ownerSent 1) (ownerCtx 1) hlen
  obtain ⟨x, h, hholds⟩ := h.drain (hlen.symm ▸ hholds) hchains
  obtain ⟨x, h, hleft⟩ := h.confuse hholds
  obtain ⟨x, h, hleft⟩ := h.delete hleft
  have hcommit : Execute (x.workers ()).results.length x.store (x.workers ()).tx .commit
      ⟨(x.workers ()).results.length, .commandOk, []⟩ (deleting.view twoGroups) none := by
    rw [h.store, hleft.tx]
    exact .commit rfl (view_stored (by decide))
  refine ⟨x, _, _, h.reachable, .execute () hleft.head hcommit, ?_⟩
  have hmem : secondGroup ∈ x.store.groups := by simp [h.store, twoGroups]
  have hgone : secondGroup ∉ (deleting.view twoGroups).groups := by simp [Tx.view, deleting,
    twoGroups, secondGroup]
  rintro (hsame | ⟨userId, command, hissued, hauth⟩)
  · exact hgone (hsame.groups ▸ hmem)
  · have howner : some 2 = some userId := (hauth.groupGone secondGroup hmem hgone).2
    rw [show userId = 1 from h.issued _ hissued] at howner
    exact absurd howner (by decide)

end ChityChat.OverflowDelete
