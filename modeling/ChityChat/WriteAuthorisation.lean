import ChityChat.WriteWorkers

namespace ChityChat.WriteAuthorisation

open JsonC DbResult Schema RingBuffer Transition DbPipeline DbPipelineOrder WriteStatements
  WriteCommands WriteAuthorised WriteRuns WriteWorkers

variable {W C : Type} [DecidableEq W] {x x' : World W C} {a : Act W C}

structure WorldOk (x : World W C) : Prop where
  stored : Stored x.store
  workers : ∀ w, WorkerOk x.store x.issued (x.workers w)
  tokens : ∀ token ∈ x.tokens, (token.userId,
    .groupMsg token.groupId token.content token.attachments) ∈ x.issued

/-- A step leaves the four tables alone, or stays within the
rights of a user whose command it is part of. -/
def StepAuthorised (x x' : World W C) : Prop :=
  Unchanged x.store x'.store ∨
    ∃ userId command, (userId, command) ∈ x.issued ∧ Authorised userId command x.store x'.store

omit [DecidableEq W] in
theorem allowed_requestOk {request : Request C} {issued : List (Nat × ChatCommand)} (h : WorldOk x)
    (hallowed : request.Allowed x) (hissued : ∀ c ∈ x.issued ++ request.issued, c ∈ issued) :
    RequestOk issued request := by
  cases request with
  | chat userId command =>
      obtain ⟨u, hu, rfl⟩ := List.mem_map.mp hallowed
      exact ⟨(h.stored.users u hu).1, hissued _ (List.mem_append_right _ List.mem_cons_self)⟩
  | upload token attachments => exact hissued _ (List.mem_append_left _ (h.tokens token hallowed))
  | register username displayname => trivial
  | other cmds => exact hallowed

theorem tokens_issued {request : Request C} {token : UploadToken} (h : token ∈ request.tokens) :
    (token.userId, .groupMsg token.groupId token.content token.attachments) ∈ request.issued := by
  cases request with
  | chat userId command =>
      cases command with
      | groupMsg groupId content attachments =>
          simp only [Request.tokens, ChatCommand.tokens] at h
          split at h
          · cases h
          · rw [List.mem_singleton.mp h]
            exact List.mem_cons_self
      | _ => cases h
  | upload | register | other => cases h

theorem update_workerOk {s : Store} {issued : List (Nat × ChatCommand)} {workers : W → Worker C}
    {w : W} {worker : Worker C} (hw : WorkerOk s issued worker)
    (hothers : ∀ v, WorkerOk s issued (workers v)) (v : W) :
    WorkerOk s issued (Function.update workers w worker v) := by
  by_cases hv : v = w
  · rw [hv, Function.update_self]
    exact hw
  · rw [Function.update_of_ne hv]
    exact hothers v

theorem worldOk_step (h : WorldOk x) (hstep : WorldStep x a x') (hroom : HasRoom x a) :
    WorldOk x' := by
  cases hstep with
  | event w client requests hrun hreq =>
      have hissued : ∀ c ∈ x.issued, c ∈ x.issued ++ requests.flatMap Request.issued :=
        fun c hc => List.mem_append_left _ hc
      have hothers := fun v => (h.workers v).mono hissued (fun _ _ howner => howner)
      have hsends : SendsOk x.store (x.issued ++ requests.flatMap Request.issued)
          (requests.flatMap Request.sends) := by
        refine requests_sendsOk fun request hin =>
          allowed_requestOk h (hreq request hin) fun c hc => ?_
        rcases List.mem_append.mp hc with hc | hc
        · exact hissued c hc
        · exact List.mem_append_right _ (List.mem_flatMap.mpr ⟨request, hin, hc⟩)
      refine ⟨h.stored, update_workerOk ((hothers w).event hrun hsends hroom) hothers,
        fun token htoken => ?_⟩
      rcases List.mem_append.mp htoken with htoken | htoken
      · exact hissued _ (h.tokens token htoken)
      · obtain ⟨request, hin, htoken⟩ := List.mem_flatMap.mp htoken
        exact List.mem_append_right _ (List.mem_flatMap.mpr ⟨request, hin, tokens_issued htoken⟩)
  | execute w hsent hexec =>
      refine ⟨execute_stored h.stored hexec, update_workerOk
        ((h.workers w).execute h.stored hsent hexec) fun v => ?_, h.tokens⟩
      exact (h.workers v).mono (fun _ hc => hc) (fun _ _ howner => OwnerIs.execute howner hexec)
  | deliver w hrun hres => exact ⟨h.stored, update_workerOk
      ((h.workers w).deliver hrun hres) h.workers, h.tokens⟩
  | exec w sends hrun hsends =>
      exact ⟨h.stored, update_workerOk ((h.workers w).exec hrun hsends hroom) h.workers, h.tokens⟩

theorem reachable_worldOk (h : Reachable Initial (fun x a x' => WorldStep x a x' ∧ HasRoom x a) x) :
    WorldOk x :=
  h.invariant (I := WorldOk)
    (fun x hx => ⟨hx.1, fun w => by rw [hx.2.1 w]; exact workerOk_init, by simp [hx.2.2.1]⟩)
    (fun _ _ _ hok hstep => worldOk_step hok hstep.1 hstep.2)

theorem register_unchanged {handle : Nat} {s s' : Store} {tx tx' : Option Tx} {stmt : Stmt}
    {res : PGresult}
    (hstmt : stmt = .other ∨ ∃ username displayname, stmt = .insertUser username displayname)
    (h : Execute handle s tx stmt res s' tx') : Unchanged s s' := by
  cases h with
  | run now code hrun =>
      rcases hstmt with rfl | ⟨username, displayname, rfl⟩
      · cases hrun
      · obtain ⟨rfl, -⟩ := Prod.mk.inj (Option.some.inj hrun)
        exact ⟨rfl, rfl, rfl, rfl⟩
  | commit => simp at hstmt
  | other | error | begin | inside | fail | rollback => exact ⟨rfl, rfl, rfl, rfl⟩

theorem step_authorised (h : WorldOk x) (hstep : WorldStep x a x') : StepAuthorised x x' := by
  cases hstep with
  | event | deliver | exec => exact .inl ⟨rfl, rfl, rfl, rfl⟩
  | @execute w sent res store tx hsent hexec =>
      have hw := h.workers w
      have hreq := hw.requested sent (List.mem_of_getElem? hsent)
      have hlt := (List.getElem?_eq_some_iff.mp hsent).1
      have hpending := hw.pending
      rw [List.drop_eq_getElem_cons hlt, (List.getElem?_eq_some_iff.mp hsent).2] at hpending
      obtain ⟨stmt, origin⟩ := sent
      cases origin with
      | none => exact .inl (register_unchanged hreq hexec)
      | some origin =>
          refine .inr ⟨origin.1, origin.2, hreq.1, execute_authorised h.stored hreq.2 ?_ hexec⟩
          intro t ht hok hcommit
          rw [show (x.workers w).tx = some t from ht] at hpending
          obtain ⟨userId, groupId, horigin, hdeletes, hgroup⟩ := hpending.commit hcommit hok
          obtain rfl : origin = (userId, .deleteGroup groupId) := Option.some.inj horigin
          obtain rfl : stmt = .commit := hcommit
          obtain ⟨groupId', hcommand, howner⟩ := hreq.2
          obtain rfl : groupId = groupId' := ChatCommand.deleteGroup.inj hcommand
          exact ⟨groupId, rfl, hdeletes, hgroup, howner⟩

/-- As long as every chain finds a free slot, nobody changes groups without the right to. -/
theorem room_authorised (h : Reachable Initial (fun x a x' => WorldStep x a x' ∧ HasRoom x a) x)
    (hstep : WorldStep x a x') : StepAuthorised x x' := step_authorised (reachable_worldOk h) hstep

def oneUser : Store := ⟨⟨[⟨1, "one", "one", none, none, none⟩], [], [], [], []⟩, 2, 1, 1⟩

theorem oneUser_stored : Stored oneUser where
  valid := by constructor <;> simp [oneUser]
  users := by simp [oneUser]
  groups := by simp [oneUser]
  messages := by simp [oneUser]
  ints := by simp [oneUser]

theorem oneUser_insertGroup_stored : Stored (insertGroup oneUser "now" "first" 1 false) where
  valid := by constructor <;> simp [oneUser, insertGroup]
  users := by simp [oneUser, insertGroup]
  groups := by simp [oneUser, insertGroup]
  messages := by simp [oneUser, insertGroup]
  ints := by simp [oneUser, insertGroup]

theorem room_authorised_create :
    ∃ x x' : World Unit Nat, x.store.groups = [] ∧ x'.store.groups.length = 1 ∧
    StepAuthorised x x' := by
  have h0 : Reachable Initial (fun x a x' => WorldStep x a x' ∧ HasRoom x a)
      (⟨oneUser, fun _ => Worker.init, [], []⟩ : World Unit Nat) :=
        .start ⟨oneUser_stored, fun _ => rfl, rfl, rfl⟩
  have h1 := h0.next ⟨.event () (some 7) [.chat 1 (.groupCreate "first" false)] rfl
    (by simp [Request.Allowed, oneUser]), fun _ => by decide⟩
  exact ⟨_, _, rfl, rfl, room_authorised h1 (.execute () rfl
    (.run "now" "" rfl oneUser_insertGroup_stored))⟩

end ChityChat.WriteAuthorisation
