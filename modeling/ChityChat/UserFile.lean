import ChityChat.Transition
import Mathlib.Data.List.Infix
import Mathlib.Logic.Function.Basic

namespace ChityChat.UserFile

open Transition

variable {W : Type} [DecidableEq W]

abbrev UserFiles : Type := String → Option Int

def deleteUserfilesIfRefIsZero (rows : UserFiles) : UserFiles :=
  fun hash => (rows hash).filter (fun refCount => decide (0 < refCount))

def insertUserfiles (rows : UserFiles) (hash : String) : UserFiles :=
  match rows hash with
  | none => Function.update rows hash (some 1)
  | some refCount => deleteUserfilesIfRefIsZero (Function.update rows hash (some (refCount + 1)))

def deleteUserfile (rows : UserFiles) (hash : String) : UserFiles :=
  match rows hash with
  | none => rows
  | some refCount => deleteUserfilesIfRefIsZero (Function.update rows hash (some (refCount - 1)))

/-- `userfile_refcount_result` takes a missing row for 0. -/
def userfileRefcount (rows : UserFiles) (hash : String) : Int := (rows hash).getD 0

structure Conf where
  imgDir : String
  vidDir : String
  fileDir : String

/-- The parts of `dbuser_file_t` that saving and deleting use. -/
structure DbuserFile where
  hash : String
  mimeType : String

def serverMimeTypeDir (conf : Conf) (mimeType : String) : String :=
  if "image/".toList <:+: mimeType.toList then conf.imgDir
  else if "video/".toList <:+: mimeType.toList then conf.vidDir
  else conf.fileDir

abbrev Files : Type := String → String → Bool

def setFile (files : Files) (dir name : String) (b : Bool) : Files :=
  fun d n => if d = dir ∧ n = name then b else files d n

inductive Op
  | saveFileImg (file : DbuserFile)
  | deleteFile (file : DbuserFile)

def Op.file : Op → DbuserFile
  | saveFileImg file => file
  | deleteFile file => file

def Op.update (rows : UserFiles) : Op → UserFiles
  | saveFileImg file => insertUserfiles rows file.hash
  | deleteFile file => deleteUserfile rows file.hash

/-- The callbacks `do_save_file_img` and `do_delete_file`. `ret` is false for `DB_ASYNC_ERROR`. -/
def Op.exec (conf : Conf) (files : Files) (ret : Bool) (refCount : Int) : Op → Files
  | saveFileImg file =>
    if ret = false then files
    else if refCount = 1 then setFile files conf.imgDir file.hash true
    else files
  | deleteFile file =>
    if ret = false then files
    else if refCount ≤ 0 then setFile files (serverMimeTypeDir conf file.mimeType) file.hash false
    else files

/-- An operation between its update and its callback. The result of the count query is `none` until
that query ran. -/
structure InFlight (W : Type) where
  worker : W
  op : Op
  ret : Bool
  refCount : Option Int

/-- The database, the file store, the operations whose update has not run by worker, and those whose
callback has not run in the order of their updates. -/
structure Store (W : Type) where
  rows : UserFiles
  files : Files
  sent : W → List Op
  inFlight : List (InFlight W)

inductive Action (W : Type)
  | send (worker : W) (op : Op)
  | update (worker : W) (rejected : Bool)
  | refcount (worker : W)
  | exec (worker : W)

/-- Each worker's connection runs its statements one after the other, and its callbacks run in the
same order some time after the results are there. -/
inductive Step (conf : Conf) : Store W → Action W → Store W → Prop
  | send (s : Store W) (w : W) (op : Op) :
    Step conf s (.send w op) { s with sent := Function.update s.sent w (s.sent w ++ [op]) }
  | update {s : Store W} {w : W} {op : Op} {later : List Op} (rejected : Bool)
      (hsent : s.sent w = op :: later)
    (hidle : ∀ e ∈ s.inFlight, e.worker = w → e.refCount ≠ none) :
    Step conf s (.update w rejected) { s with
      rows := if rejected then s.rows else op.update s.rows
      sent := Function.update s.sent w later
      inFlight := s.inFlight ++ [⟨w, op, !rejected, none⟩] }
  | refcount {s : Store W} (before : List (InFlight W)) {after : List (InFlight W)} {e : InFlight W}
    (hs : s.inFlight = before ++ e :: after) (hnone : e.refCount = none) :
    Step conf s (.refcount e.worker) { s with
      inFlight := before ++
        { e with refCount := some (userfileRefcount s.rows e.op.file.hash) } :: after }
  | exec {s : Store W} (before : List (InFlight W)) {after : List (InFlight W)}
      {e : InFlight W} {refCount : Int}
    (hs : s.inFlight = before ++ e :: after) (hfirst : ∀ x ∈ before, x.worker ≠ e.worker)
    (hsome : e.refCount = some refCount) :
    Step conf s (.exec e.worker) { s with
      files := e.op.exec conf s.files e.ret refCount
      inFlight := before ++ after }

def Quiet (s : Store W) : Prop := s.inFlight = [] ∧ ∀ w, s.sent w = []

def Agree (conf : Conf) (s : Store W) : Prop :=
  ∀ hash, s.files conf.imgDir hash = (s.rows hash).isSome

structure Initial (conf : Conf) (s : Store W) : Prop where
  quiet : Quiet s
  agree : Agree conf s
  counts : ∀ hash refCount, s.rows hash = some refCount → 0 < refCount

/-- Deletions name an image, no update falls between another update of the same hash and its count
query, and the callbacks for a hash run in the order of its updates. -/
def Careful (conf : Conf) (s : Store W) : Action W → Prop
  | .send _ op => ∀ file, op = .deleteFile file → serverMimeTypeDir conf file.mimeType = conf.imgDir
  | .update w _ => ∀ op ∈ (s.sent w).head?, ∀ e ∈ s.inFlight, e.op.file.hash = op.file.hash →
      e.refCount ≠ none
  | .refcount _ => True
  | .exec w => ∀ before e after, s.inFlight = before ++ e :: after → e.worker = w →
      (∀ x ∈ before, x.worker ≠ w) → ∀ x ∈ before, x.op.file.hash ≠ e.op.file.hash

section Ops

variable {W : Type} [DecidableEq W] {conf : Conf} {s s' : Store W} {a : Action W}

theorem mem_update {f : W → List Op} {w v : W} {ops : List Op} {op : Op}
    (h : op ∈ Function.update f w ops v) : op ∈ f v ∨ op ∈ ops := by
  by_cases hv : v = w
  · subst hv
    rw [Function.update_self] at h
    exact Or.inr h
  · rw [Function.update_of_ne hv] at h
    exact Or.inl h

theorem Step.ops {P : Op → Prop} (h : Step conf s a s') (hs : ∀ w, ∀ op ∈ s.sent w, P op)
    (hf : ∀ e ∈ s.inFlight, P e.op) (hsend : ∀ w op, a = .send w op → P op) :
    (∀ w, ∀ op ∈ s'.sent w, P op) ∧ ∀ e ∈ s'.inFlight, P e.op := by
  cases h with
  | send w op =>
      refine ⟨?_, hf⟩
      intro v o ho
      rcases mem_update ho with ho | ho
      · exact hs v o ho
      · rcases List.mem_append.mp ho with ho | ho
        · exact hs w o ho
        · obtain rfl := List.mem_singleton.mp ho
          exact hsend w o rfl
  | @update w op later rejected hhead _ =>
      have hall := hs w
      rw [hhead, List.forall_mem_cons] at hall
      constructor
      · intro v o ho
        rcases mem_update ho with ho | ho
        · exact hs v o ho
        · exact hall.2 o ho
      · rw [List.forall_mem_append, List.forall_mem_singleton]
        exact ⟨hf, hall.1⟩
  | @refcount before after e hsplit _ =>
      rw [hsplit, List.forall_mem_append, List.forall_mem_cons] at hf
      rw [List.forall_mem_append, List.forall_mem_cons]
      exact ⟨hs, hf⟩
  | @exec before after e refCount hsplit _ _ =>
      rw [hsplit, List.forall_mem_append, List.forall_mem_cons] at hf
      rw [List.forall_mem_append]
      exact ⟨hs, hf.1, hf.2.2⟩

/-- An operation that runs alone leaves its update of the rows, and nothing under way. -/
theorem Quiet.alone (h : Quiet s) (w : W) (op : Op) :
    ∃ s', Reachable (· = s) (Step conf) s' ∧ Quiet s' ∧ s'.rows = op.update s.rows := by
  have hsent : ∀ ops : List Op, Function.update (Function.update s.sent w ops) w [] = s.sent := by
    intro ops
    rw [Function.update_idem]
    exact Function.update_eq_self_iff.mpr (h.2 w).symm
  have hself : Function.update s.sent w (s.sent w ++ [op]) w = [op] := by
    rw [Function.update_self, h.2 w, List.nil_append]
  have hidle : ∀ e ∈ s.inFlight, e.worker = w → e.refCount ≠ none := by
    rw [h.1]
    exact fun _ hmem => absurd hmem List.not_mem_nil
  have h0 : Reachable (· = s) (Step conf) s := .start rfl
  have h1 := h0.next (.send s w op)
  have h2 := h1.next (.update false hself hidle)
  have h3 := h2.next (.refcount s.inFlight rfl rfl)
  have h4 := h3.next (.exec s.inFlight rfl (by
    rw [h.1]
    exact fun _ hmem => absurd hmem List.not_mem_nil) rfl)
  refine ⟨_, h4, ⟨?_, ?_⟩, rfl⟩
  · exact (List.append_nil _).trans h.1
  · exact fun v => (congrFun (hsent _) v).trans (h.2 v)

end Ops

end ChityChat.UserFile
