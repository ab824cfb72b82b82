import ChityChat.ChainDelivery
import ChityChat.UnlinkConfinement
import ChityChat.WriteCommands
import Mathlib.Data.List.Count

namespace ChityChat.AttachmentDeletion

open CString JsonC MsgAttachments DbResult DbPipelineOrder ChainDelivery
open UserFile (DbuserFile UserFiles)
open WriteCommands (newCtx)

variable {C W : Type}

inductive Stmt
  | deleteUserfile (hash : String)
  | userfileRefcount (hash : String)
  | other

/-- A context with its statement. `file` is its `data` where its `exec` is `do_delete_file`. -/
structure Cmd (C : Type) where
  ctx : DbcmdCtx C
  stmt : Stmt
  file : Option DbuserFile

def dbAsyncDeleteUserfile (file : DbuserFile) : Cmd C :=
  ⟨newCtx .deleteUserfile, .deleteUserfile file.hash, some file⟩

def dbAsyncUserfileRefcount (hash : String) : Cmd C :=
  ⟨{ newCtx .userfileRefcount with exec := false }, .userfileRefcount hash, none⟩

def serverDeleteFile (file : DbuserFile) : List (Cmd C) :=
  [dbAsyncDeleteUserfile file, dbAsyncUserfileRefcount file.hash]

/-- `none` is a NULL source of `strncpy`. -/
def serverDeleteAttachmentsJson (libs : Libs) (attachments : List JsonObject) :
    Option (List (Cmd C)) :=
  (attachments.mapM (attachFile libs)).map (fun files => files.flatMap serverDeleteFile)

/-- The file whose path `do_delete_file` gives to `unlink`. The argument behind the context is the
rest of its chain. -/
def doDeleteFile (file : DbuserFile) (ctx : DbcmdCtx C) : List (DbcmdCtx C) → Option DbuserFile
  | [] => none
  | ctxNext :: _ =>
    if ctx.ret = .error then none
    else if ctxNext.dataSize ≤ 0 then some file
    else none

def fileOf (first : Nat) (cmds : List (Cmd C)) (query : Nat) : Option DbuserFile :=
  if first ≤ query then (cmds[query - first]?).bind Cmd.file else none

def unlinks (fileOf : Nat → Option DbuserFile) (calls : List (Call C)) : List DbuserFile :=
  calls.flatMap (fun call => match call with
    | .execRes .. => []
    | .exec ctx next => ((fileOf ctx.query).bind (fun file => doDeleteFile file ctx next)).toList)

/-- What others do leaves the rows of these files. -/
def Untouched (hashes : List String) (rows rows' : UserFiles) : Prop :=
  ∀ hash ∈ hashes, rows' hash = rows hash

inductive Execute (hashes : List String) : UserFiles → Stmt → PGresult → UserFiles → Prop
  | deleteUserfile (rows : UserFiles) (hash : String) (handle : Nat) :
    Execute hashes rows (.deleteUserfile hash) ⟨handle, .commandOk, []⟩
      (UserFile.deleteUserfile rows hash)
  | userfileRefcount (rows : UserFiles) (hash : String) (handle : Nat) :
    Execute hashes rows (.userfileRefcount hash)
      ⟨handle, .tuplesOk, (rows hash).toList.map (fun refCount => [some (.int refCount)])⟩ rows
  | other {rows rows' : UserFiles} (res : PGresult) (hrows : Untouched hashes rows rows') :
    Execute hashes rows .other res rows'

/-- The statements of a chain, with what other workers do between them. -/
inductive Runs (hashes : List String) :
    UserFiles → List (Cmd C) → List PGresult → UserFiles → Prop
  | nil {rows rows' : UserFiles} (hrows : Untouched hashes rows rows') :
    Runs hashes rows [] [] rows'
  | cons {rows rows₁ rows₂ rows' : UserFiles} {cmd : Cmd C} {cmds : List (Cmd C)} {res : PGresult}
      {results : List PGresult} (hrows : Untouched hashes rows rows₁)
      (hexec : Execute hashes rows₁ cmd.stmt res rows₂) (hrest : Runs hashes rows₂ cmds results rows') :
    Runs hashes rows (cmd :: cmds) (res :: results) rows'

def positive (refCount : Option Int) : Option Int := refCount.filter (fun c => decide (0 < c))

def lowered (refCount : Option Int) (k : Nat) : Option Int := positive (refCount.map (· - (k : Int)))

/-- A row behind `k` deletions of its file. Before the first one it may have gone with another one
that is updated. -/
def Lowered (old : Option Int) (k : Nat) (new : Option Int) : Prop :=
  new = lowered old k ∨ k = 0 ∧ new = old

/-- The hash, type and name of an attachment fit into the buffers. -/
structure Fields (attach : JsonObject) : Prop where
  hash : ∃ hash, attach.objectGet "hash" = .string hash ∧ (cstr hash).length < dbPfpHashMax
  type : ∃ type, attach.objectGet "type" = .string type ∧ (cstr type).length < dbMimeTypeLen
  name : ∃ name, attach.objectGet "name" = .string name ∧ (cstr name).length < dbPfpNameMax

def hashOf (attach : JsonObject) : Bytes :=
  match attach.objectGet "hash" with
  | .string hash => cstr hash
  | _ => []

/-- The files that are unlinked for `files` when `done` are the deletions before them. -/
def unlinked (rows : UserFiles) : List String → List DbuserFile → List DbuserFile
  | _, [] => []
  | done, file :: files =>
    (if lowered (rows file.hash) (done.count file.hash + 1) = none then [file] else []) ++
      unlinked rows (done ++ [file.hash]) files

section Counts

variable {old new : Option Int} {k m : Nat}

theorem positive_some (c : Int) : positive (some c) = if 0 < c then some c else none := by
  simp [positive, Option.filter_some]

theorem lowered_none (k : Nat) : lowered none k = none := rfl

theorem lowered_some (c : Int) (k : Nat) :
    lowered (some c) k = if c ≤ k then none else some (c - k) := by
  rw [lowered, Option.map_some, positive_some]
  by_cases hk : c ≤ k
  · rw [if_pos hk, if_neg (by omega)]
  · rw [if_neg hk, if_pos (by omega)]

theorem lowered_lowered (old : Option Int) (k : Nat) :
    lowered (lowered old k) 1 = lowered old (k + 1) := by
  cases old with
  | none => rfl
  | some c =>
      rw [lowered_some, lowered_some]
      by_cases hk : c ≤ k
      · rw [if_pos hk, if_pos (by omega), lowered_none]
      · rw [if_neg hk, lowered_some]
        by_cases hlast : c ≤ (k + 1 : Nat)
        · rw [if_pos (by omega), if_pos hlast]
        · rw [if_neg (by omega), if_neg hlast]
          exact congrArg some (by omega)

theorem positive_lowered (old : Option Int) (k : Nat) : positive (lowered old k) = lowered old k := by
  simp [lowered, positive, Option.filter_filter]

theorem lowered_eq_none_mono (h : lowered old k = none) (hk : k ≤ m) : lowered old m = none := by
  cases old with
  | none => rfl
  | some c =>
      rw [lowered_some] at h ⊢
      split at h
      · rw [if_pos (by omega)]
      · cases h

theorem lowered_getD_le : (lowered old k).getD 0 ≤ 0 ↔ lowered old k = none := by
  cases old with
  | none => simp [lowered_none]
  | some c =>
      rw [lowered_some]
      split
      · simp
      · simp only [Option.getD_some, reduceCtorEq, iff_false]
        omega

theorem Lowered.own (h : Lowered old k new) : lowered new 1 = lowered old (k + 1) := by
  rcases h with rfl | ⟨rfl, rfl⟩
  · exact lowered_lowered old k
  · rfl

/-- The trigger leaves a row, or deletes one that the deletion of its file would delete. -/
theorem Lowered.positive (h : Lowered old k new) : Lowered old k (positive new) := by
  rcases h with rfl | ⟨rfl, rfl⟩
  · exact .inl (positive_lowered old k)
  · exact .inl (by simp [lowered])

theorem Lowered.eq (h : Lowered old k new) (hk : 0 < k) : new = lowered old k :=
  h.resolve_right (fun hzero => by omega)

end Counts

section Rows

variable {rows rows₁ rows' : UserFiles} {hash : String} {hashes done : List String}
  {file : DbuserFile} {files : List DbuserFile}

theorem deleteUserfile_self (rows : UserFiles) (hash : String) :
    UserFile.deleteUserfile rows hash hash = lowered (rows hash) 1 := by
  rw [UserFile.deleteUserfile]
  cases h : rows hash with
  | none => exact h
  | some c =>
      simp only [UserFile.deleteUserfilesIfRefIsZero, Function.update_self]
      rfl

theorem deleteUserfile_other (rows : UserFiles) {hash other : String} (h : other ≠ hash) :
    UserFile.deleteUserfile rows hash other = rows other ∨
      UserFile.deleteUserfile rows hash other = positive (rows other) := by
  rw [UserFile.deleteUserfile]
  cases rows hash with
  | none => exact .inl rfl
  | some c =>
      right
      simp only [UserFile.deleteUserfilesIfRefIsZero, Function.update_of_ne h]
      rfl

def AllLowered (hashes : List String) (rows : UserFiles) (done : List String)
    (rows' : UserFiles) : Prop :=
  ∀ hash ∈ hashes, Lowered (rows hash) (done.count hash) (rows' hash)

theorem AllLowered.untouched (h : AllLowered hashes rows done rows₁)
    (hrows : Untouched hashes rows₁ rows') : AllLowered hashes rows done rows' := by
  intro hash hhash
  rw [hrows hash hhash]
  exact h hash hhash

theorem AllLowered.delete (h : AllLowered hashes rows done rows₁) (hash : String) :
    AllLowered hashes rows (done ++ [hash]) (UserFile.deleteUserfile rows₁ hash) := by
  intro other hother
  by_cases heq : other = hash
  · subst heq
    rw [deleteUserfile_self, (h other hother).own, List.count_append, List.count_singleton_self]
    exact .inl rfl
  · rw [List.count_append, List.count_singleton, if_neg (by simpa using Ne.symm heq), Nat.add_zero]
    rcases deleteUserfile_other rows₁ heq with hsame | hpositive
    · rw [hsame]
      exact h other hother
    · rw [hpositive]
      exact (h other hother).positive

theorem AllLowered.refcount (h : AllLowered hashes rows (done ++ [hash]) rows₁)
    (hmem : hash ∈ hashes) :
    (rows₁ hash).getD 0 ≤ 0 ↔ lowered (rows hash) (done.count hash + 1) = none := by
  have hlowered := (h hash hmem).eq
    (List.count_pos_iff.mpr (List.mem_append_right _ (List.mem_singleton_self _)))
  rw [hlowered, List.count_append, List.count_singleton_self, lowered_getD_le]

theorem unlinked_subset (rows : UserFiles) (done : List String) (files : List DbuserFile) :
    ∀ file ∈ unlinked rows done files, file ∈ files := by
  induction files generalizing done with
  | nil => simp [unlinked]
  | cons first files ih =>
      intro file hfile
      rw [unlinked, List.mem_append] at hfile
      rcases hfile with hfile | hfile
      · split at hfile
        · exact List.mem_cons.mpr (.inl (List.mem_singleton.mp hfile))
        · cases hfile
      · exact List.mem_cons_of_mem _ (ih _ file hfile)

/-- A file is unlinked by some deletion exactly if the row is gone behind the last one. -/
theorem unlinked_iff (hmem : hash ∈ files.map DbuserFile.hash) :
    (∃ file ∈ unlinked rows done files, file.hash = hash) ↔
      lowered (rows hash) ((done ++ files.map DbuserFile.hash).count hash) = none := by
  induction files generalizing done with
  | nil => cases hmem
  | cons first files ih =>
      have hcount : done ++ (first :: files).map DbuserFile.hash =
          (done ++ [first.hash]) ++ files.map DbuserFile.hash := by
        rw [List.map_cons, List.append_assoc, List.singleton_append]
      rw [hcount, unlinked]
      simp only [List.mem_append, or_and_right, exists_or]
      by_cases hlater : hash ∈ files.map DbuserFile.hash
      · rw [ih hlater, or_iff_right_of_imp]
        rintro ⟨file, hfile, rfl⟩
        split at hfile
        · next hnone =>
            obtain rfl := List.mem_singleton.mp hfile
            refine lowered_eq_none_mono hnone ?_
            rw [List.count_append, List.count_append, List.count_singleton_self]
            omega
        · cases hfile
      · obtain rfl : hash = first.hash := by simpa [hlater] using hmem
        have hnone : ¬ ∃ file ∈ unlinked rows (done ++ [first.hash]) files,
            file.hash = first.hash := by
          rintro ⟨file, hfile, heq⟩
          exact hlater (heq ▸ List.mem_map_of_mem (unlinked_subset _ _ _ file hfile))
        rw [or_iff_left hnone, List.count_append, List.count_append, List.count_singleton_self,
          List.count_eq_zero.mpr hlater, Nat.add_zero]
        split
        · next hgone => simp [hgone]
        · next hthere => simp [hthere]

end Rows

section Chain

variable {old rows rows' : UserFiles} {hashes done : List String} {file : DbuserFile}
  {files : List DbuserFile} {cmd : Cmd C} {cmds after : List (Cmd C)} {results : List PGresult}
  {client : Option C} {first : Nat} {table : Nat → Option DbuserFile}

def refcountResult (handle : Nat) (refCount : Option Int) : PGresult :=
  ⟨handle, .tuplesOk, refCount.toList.map (fun refCount => [some (.int refCount)])⟩

theorem Runs.delete (h : Runs hashes rows (serverDeleteFile file ++ cmds) results rows')
    (hold : AllLowered hashes old done rows) :
    ∃ handle handle' rows₁ results', results =
        ⟨handle, .commandOk, []⟩ :: refcountResult handle' (rows₁ file.hash) :: results' ∧
      AllLowered hashes old (done ++ [file.hash]) rows₁ ∧ Runs hashes rows₁ cmds results' rows' := by
  cases h with
  | cons hrows hexec hrest =>
      cases hrest with
      | cons hrows' hexec' hrest' =>
          change Execute _ _ (.deleteUserfile file.hash) _ _ at hexec
          change Execute _ _ (.userfileRefcount file.hash) _ _ at hexec'
          cases hexec
          cases hexec'
          exact ⟨_, _, _, _, rfl, ((hold.untouched hrows).delete file.hash).untouched hrows', hrest'⟩

theorem Runs.others (h : Runs hashes rows after results rows')
    (hafter : ∀ cmd ∈ after, cmd.stmt = .other) : Untouched hashes rows rows' := by
  induction h with
  | nil hrows => exact hrows
  | @cons rows rows₁ rows₂ rows' cmd cmds res results hrows hexec hrest ih =>
      rw [List.forall_mem_cons] at hafter
      rw [hafter.1] at hexec
      cases hexec with
      | other res hother =>
          intro hash hhash
          rw [ih hafter.2 hash hhash, hother hash hhash, hrows hash hhash]

theorem refcountResult_dataSize (handle : Nat) (refCount : Option Int) (ctx : DbcmdCtx C) :
    (userfileRefcountResult (refcountResult handle refCount) ctx).dataSize = refCount.getD 0 := by
  cases refCount <;> rfl

theorem unlinks_cons (table : Nat → Option DbuserFile) (call : Call C) (calls : List (Call C)) :
    unlinks table (call :: calls) = unlinks table [call] ++ unlinks table calls := by
  simp [unlinks]

theorem unlinks_file (ctxs : List (DbcmdCtx C)) (handle handle' : Nat) (refCount : Option Int)
    (htable : table first = some file) :
    unlinks table (execCalls (answered
        (numbered client first ((serverDeleteFile file).map Cmd.ctx ++ ctxs))
        (⟨handle, .commandOk, []⟩ :: refcountResult handle' refCount :: results))) =
      (if refCount.getD 0 ≤ 0 then [file] else []) ++
        unlinks table (execCalls (answered (numbered client (first + 2) ctxs) results)) := by
  let deletion : DbcmdCtx C :=
    { (newCtx .deleteUserfile : DbcmdCtx C) with query := first, client := client }
  let refcount : DbcmdCtx C :=
    { (newCtx .userfileRefcount : DbcmdCtx C) with
      query := first + 1, client := client, exec := false }
  let next := answered (numbered client (first + 2) ctxs) results
  have hcount : (userfileRefcountResult (refcountResult handle' refCount) refcount).dataSize =
      refCount.getD 0 := refcountResult_dataSize handle' refCount refcount
  have hcalls : execCalls (answered
      (numbered client first ((serverDeleteFile file).map Cmd.ctx ++ ctxs))
      (⟨handle, .commandOk, []⟩ :: refcountResult handle' refCount :: results)) =
        .exec (deletion.returns .ok)
          (userfileRefcountResult (refcountResult handle' refCount) refcount :: next) ::
            execCalls next := by
    cases refCount <;> rfl
  rw [hcalls, unlinks_cons]
  congr 1
  simp only [unlinks, List.flatMap_cons, List.flatMap_nil, List.append_nil]
  change ((table first).bind _).toList = _
  rw [htable, Option.bind_some, doDeleteFile, hcount, if_neg (by simp [DbcmdCtx.returns])]
  split <;> rfl

theorem unlinks_others (hnone : ∀ i, table (first + i) = none) (ctxs : List (DbcmdCtx C)) :
    unlinks table (execCalls (answered (numbered client first ctxs) results)) = [] := by
  induction ctxs generalizing first results with
  | nil => rfl
  | cons ctx ctxs ih =>
      have hnext : ∀ i, table (first + 1 + i) = none := fun i => by
        rw [Nat.add_assoc]
        exact hnone (1 + i)
      cases results with
      | nil => rfl
      | cons res results =>
          let ctx' := ctx.execRes.run res { ctx with query := first, client := ctx.client.or client }
          have hquery : table ctx'.query = none := by
            rw [(run_answered ctx.execRes res _).query]
            exact hnone 0
          have hcalls : execCalls (answered (numbered client first (ctx :: ctxs)) (res :: results)) =
              if ctx'.exec then
                .exec ctx' (answered (numbered client (first + 1) ctxs) results) ::
                  execCalls (answered (numbered client (first + 1) ctxs) results)
              else execCalls (answered (numbered client (first + 1) ctxs) results) := rfl
          rw [hcalls]
          split
          · rw [unlinks_cons, ih hnext, List.append_nil]
            simp [unlinks, hquery]
          · exact ih hnext

theorem Runs.deletes
    (h : Runs hashes rows (files.flatMap serverDeleteFile ++ after) results rows')
    (hold : AllLowered hashes old done rows) (hmem : ∀ file ∈ files, file.hash ∈ hashes)
    (hafter : ∀ cmd ∈ after, cmd.stmt = .other ∧ cmd.file = none)
    (htable : ∀ i, table (first + i) =
      ((files.flatMap serverDeleteFile ++ after)[i]?).bind Cmd.file) :
    AllLowered hashes old (done ++ files.map DbuserFile.hash) rows' ∧
      unlinks table (execCalls (answered (numbered client first
        ((files.flatMap serverDeleteFile ++ after).map Cmd.ctx)) results)) =
          unlinked old done files := by
  induction files generalizing rows done first results with
  | nil =>
      have hnone : ∀ i, table (first + i) = none := by
        intro i
        rw [htable i]
        cases hi : after[i]? with
        | none => simp [hi]
        | some cmd => simpa [hi] using (hafter cmd (List.mem_of_getElem? hi)).2
      rw [List.map_nil, List.append_nil]
      exact ⟨hold.untouched (h.others fun cmd hcmd => (hafter cmd hcmd).1), unlinks_others hnone _⟩
  | cons file files ih =>
      rw [List.forall_mem_cons] at hmem
      have hcmds : (file :: files).flatMap serverDeleteFile ++ after =
          serverDeleteFile file ++ (files.flatMap serverDeleteFile ++ after) := by
        rw [List.flatMap_cons, List.append_assoc]
      rw [hcmds] at h htable ⊢
      obtain ⟨handle, handle', rows₁, results', rfl, hold₁, hrest⟩ := h.delete hold
      have htable' : ∀ i, table (first + 2 + i) =
          ((files.flatMap serverDeleteFile ++ after)[i]?).bind Cmd.file := by
        intro i
        rw [Nat.add_assoc, htable (2 + i), Nat.add_comm 2 i]
        rfl
      obtain ⟨hrows, hunlinks⟩ := ih hrest hold₁ hmem.2 htable'
      have hfirst : table first = some file := htable 0
      rw [List.map_append, unlinks_file _ _ _ _ hfirst, hunlinks, unlinked]
      refine ⟨?_, ?_⟩
      · rwa [List.append_assoc, List.singleton_append] at hrows
      · simp only [hold₁.refcount hmem.1]

end Chain

section Attachments

variable {attach : JsonObject} {attachments : List JsonObject}

theorem toNat_ofNat {n : Nat} (h : n < 2 ^ 8) : (Char.ofNat n).toNat = n := by
  have hvalid : n.isValidChar := .inl (h.trans (by decide))
  rw [Char.ofNat, dif_pos hvalid]
  rfl

theorem ofBytes_injective : Function.Injective ofBytes := by
  intro as bs h
  have hchars := String.ofList_inj.mp h
  refine List.map_injective_iff.mpr ?_ hchars
  intro a b hab
  have hnat := congrArg Char.toNat hab
  dsimp only at hnat
  rw [toNat_ofNat a.toNat_lt, toNat_ofNat b.toNat_lt] at hnat
  exact UInt8.toNat_inj.mp hnat

theorem attachFile_fields (libs : Libs) (h : Fields attach) :
    ∃ file, attachFile libs attach = some file ∧ file.hash = ofBytes (hashOf attach) := by
  obtain ⟨⟨hash, hhash, hlen⟩, ⟨type, htype, -⟩, ⟨name, hname, -⟩⟩ := h
  have hgets : attachFile libs attach = some ⟨ofBytes (runOn dbPfpHashMax
      ((cstr hash).take dbPfpHashMax) (runOn dbPfpNameMax ((cstr name).take dbPfpNameMax)
        ((cstr type).take dbMimeTypeLen))), ofBytes ((cstr type).take dbMimeTypeLen)⟩ := by
    simp [attachFile, hhash, htype, hname, getString]
  refine ⟨_, hgets, ?_⟩
  rw [hashOf, hhash, List.take_of_length_le hlen.le, runOn, if_pos hlen]

theorem mapM_attachFile (libs : Libs) (h : ∀ attach ∈ attachments, Fields attach) :
    ∃ files, attachments.mapM (attachFile libs) = some files ∧
      files.map DbuserFile.hash = (attachments.map hashOf).map ofBytes := by
  induction attachments with
  | nil => exact ⟨[], rfl, rfl⟩
  | cons attach attachments ih =>
      rw [List.forall_mem_cons] at h
      obtain ⟨file, hfile, hhash⟩ := attachFile_fields libs h.1
      obtain ⟨files, hfiles, hhashes⟩ := ih h.2
      refine ⟨file :: files, ?_, ?_⟩
      · simp [List.mapM_cons, hfile, hfiles]
      · rw [List.map_cons, hhash, hhashes]
        rfl

theorem fileOf_add (first : Nat) (cmds : List (Cmd C)) (i : Nat) :
    fileOf first cmds (first + i) = (cmds[i]?).bind Cmd.file := by
  rw [fileOf, if_pos (Nat.le_add_right first i), Nat.add_sub_cancel_left]

theorem AllLowered.start (hashes : List String) (rows : UserFiles) :
    AllLowered hashes rows [] rows := fun _ _ => .inr ⟨rfl, rfl⟩

/-- What `db_process_results` does with the chain comes down to the calls of its callbacks. -/
theorem delivered_unlinks {exec : Callbacks C W} {x y z : Worker C W} {ctxs : List (DbcmdCtx C)}
    {more : List (DbPipeline.Chain C)} {before results : List PGresult}
    (h : Delivered exec x y z ctxs more before results) (table : Nat → Option DbuserFile) :
    ∃ calls, z.calls = x.calls ++ calls ∧
      unlinks table calls = unlinks table (execCalls (answered ctxs results)) := by
  refine ⟨_, h.calls, ?_⟩
  have hnone : unlinks table (List.zipWith Call.execRes ctxs results) = [] := by
    rw [unlinks, List.flatMap_eq_nil_iff]
    intro call hcall
    obtain ⟨i, hi⟩ := List.mem_iff_getElem?.mp hcall
    rw [List.getElem?_zipWith_eq_some] at hi
    obtain ⟨ctx, res, -, -, rfl⟩ := hi
    rfl
  rw [unlinks, List.flatMap_append, ← unlinks, ← unlinks, hnone, List.nil_append]

/-- Every file loses as many references as there are attachments with its hash, and when the
callbacks of the chain have run, it has been unlinked exactly if its row is gone. -/
theorem deleteAttachments_unlinks (libs : Libs) (attachments : List JsonObject)
    (hfields : ∀ attach ∈ attachments, Fields attach) (after : List (Cmd C))
    (hafter : ∀ cmd ∈ after, cmd.stmt = .other ∧ cmd.file = none) :
    ∃ cmds, serverDeleteAttachmentsJson libs attachments = some cmds ∧
      ∀ rows results rows',
        Runs ((attachments.map hashOf).map ofBytes) rows (cmds ++ after) results rows' →
      ∀ (exec : Callbacks C W) (x : Worker C W) (client : Option C) (first : Nat), ∃ calls,
        (dbExecCmdChain exec x (answered
          (numbered client first ((cmds ++ after).map Cmd.ctx)) results)).calls = x.calls ++ calls ∧
        ∀ hash ∈ attachments.map hashOf,
          rows' (ofBytes hash) =
            lowered (rows (ofBytes hash)) ((attachments.map hashOf).count hash) ∧
          ((∃ file ∈ unlinks (fileOf first (cmds ++ after)) calls, file.hash = ofBytes hash) ↔
            rows' (ofBytes hash) = none) := by
  obtain ⟨files, hfiles, hhashes⟩ := mapM_attachFile libs hfields
  refine ⟨files.flatMap serverDeleteFile, by rw [serverDeleteAttachmentsJson, hfiles]; rfl, ?_⟩
  intro rows results rows' hruns exec x client first
  refine ⟨_, dbExecCmdChain_calls exec x _, ?_⟩
  intro hash hhash
  have hmem : ofBytes hash ∈ files.map DbuserFile.hash :=
    hhashes ▸ List.mem_map_of_mem hhash
  rw [← hhashes] at hruns
  obtain ⟨hrows, hunlinks⟩ := hruns.deletes (.start _ rows)
    (fun file hfile => List.mem_map_of_mem hfile) hafter (fileOf_add first _)
  rw [List.nil_append] at hrows
  have hcount : (files.map DbuserFile.hash).count (ofBytes hash) =
      (attachments.map hashOf).count hash := by
    rw [hhashes, List.count_map_of_injective _ _ ofBytes_injective]
  have hrow := (hrows (ofBytes hash) hmem).eq (List.count_pos_iff.mpr hmem)
  rw [hunlinks, unlinked_iff hmem, List.nil_append, ← hrow, ← hcount]
  exact ⟨hrow, Iff.rfl⟩

end Attachments

open UnlinkConfinement (attachment gifHash gifLibs gifFile gif)

/-- Two attachments of one file, which has as many references, and a command behind them. -/
def twice : List JsonObject := [attachment [("hash", gifHash)], attachment [("hash", gifHash)]]

def twoReferences : UserFiles := fun hash => if hash = gifFile.hash then some 2 else none

def memberIds : Cmd Nat := ⟨newCtx .dbGetGroupMemberIds, .other, none⟩

theorem twice_files : serverDeleteAttachmentsJson (C := Nat) gifLibs twice =
    some ([gifFile, gifFile].flatMap serverDeleteFile) := by
  have hfiles : twice.mapM (attachFile gifLibs) = some [gifFile, gifFile] := by decide +kernel
  rw [serverDeleteAttachmentsJson, hfiles]
  rfl

theorem twice_runs : ∃ results rows', Runs ((twice.map hashOf).map ofBytes) twoReferences
    ([gifFile, gifFile].flatMap serverDeleteFile ++ [memberIds]) results rows' ∧
      rows' gifFile.hash = none := by
  have h1 : UserFile.deleteUserfile twoReferences gifFile.hash gifFile.hash = some 1 := by
    rw [deleteUserfile_self, twoReferences, if_pos rfl]
    rfl
  refine ⟨_, _, .cons (fun _ _ => rfl) (.deleteUserfile _ _ 0)
    (.cons (fun _ _ => rfl) (.userfileRefcount _ _ 1)
      (.cons (fun _ _ => rfl) (.deleteUserfile _ _ 2)
        (.cons (fun _ _ => rfl) (.userfileRefcount _ _ 3)
          (.cons (fun _ _ => rfl) (.other ⟨4, .tuplesOk, []⟩ (fun _ _ => rfl))
            (.nil (fun _ _ => rfl)))))), ?_⟩
  rw [deleteUserfile_self, h1]
  rfl

theorem deleteAttachments_unlinks_twice : ∃ (cmds : List (Cmd Nat)) (rows' : UserFiles)
    (calls : List (Call Nat)),
    serverDeleteAttachmentsJson gifLibs twice = some cmds ∧ rows' gifFile.hash = none ∧
      ∃ file ∈ unlinks (fileOf 0 (cmds ++ [memberIds])) calls, file.hash = gifFile.hash := by
  have hfits : Fields (attachment [("hash", gifHash)]) :=
    ⟨⟨_, rfl, by decide +kernel⟩, ⟨_, rfl, by decide +kernel⟩, ⟨_, rfl, by decide +kernel⟩⟩
  have hfields : ∀ attach ∈ twice, Fields attach := by
    intro attach hattach
    simp only [twice, List.mem_cons, List.not_mem_nil, or_false, or_self] at hattach
    rw [hattach]
    exact hfits
  have hhash : hashOf (attachment [("hash", gifHash)]) = serverSha256Str gifLibs gif := by
    decide +kernel
  obtain ⟨cmds, hcmds, hall⟩ := deleteAttachments_unlinks (C := Nat) (W := Unit) gifLibs twice
    hfields [memberIds] (by simp [memberIds])
  obtain rfl := Option.some.inj (hcmds.symm.trans twice_files)
  obtain ⟨results, rows', hruns, hgone⟩ := twice_runs
  obtain ⟨calls, -, hhashes⟩ := hall _ _ _ hruns (fun w _ _ => (w, [])) deleting none 0
  have hunlinks := (hhashes _ (hhash ▸ List.mem_map_of_mem List.mem_cons_self)).2.mpr hgone
  exact ⟨_, rows', calls, hcmds, hgone, hunlinks⟩

end ChityChat.AttachmentDeletion
