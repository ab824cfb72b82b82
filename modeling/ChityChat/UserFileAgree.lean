import ChityChat.UserFile

namespace ChityChat.UserFileAgree

open Transition UserFile

variable {W : Type} {conf : Conf} {s s' : Store W} {rows : UserFiles} {hash other : String}

def outcome (op : Op) (ret : Bool) (refCount : Int) (b : Bool) : Bool :=
  match op with
  | .saveFileImg _ => b || (ret && decide (refCount = 1))
  | .deleteFile _ => b && !(ret && decide (refCount ≤ 0))

def seen (rows : UserFiles) (e : InFlight W) : Int :=
  e.refCount.getD (userfileRefcount rows e.op.file.hash)

def settled (rows : UserFiles) (hash : String) (es : List (InFlight W)) (b : Bool) : Bool :=
  (es.filter (fun e => e.op.file.hash = hash)).foldl
    (fun b e => outcome e.op e.ret (seen rows e) b) b

def Positive (rows : UserFiles) : Prop := ∀ hash refCount, rows hash = some refCount → 0 < refCount

theorem deleteUserfilesIfRefIsZero_update (h : Positive rows) (n : Int) :
    deleteUserfilesIfRefIsZero (Function.update rows hash (some n)) =
      Function.update rows hash (if 0 < n then some n else none) := by
  funext k
  by_cases hk : k = hash
  · subst hk
    simp [deleteUserfilesIfRefIsZero, Option.filter]
  · rw [deleteUserfilesIfRefIsZero, Function.update_of_ne hk, Function.update_of_ne hk]
    cases hr : rows k with
    | none => rfl
    | some m => simp [Option.filter, h k m hr]

def updated (op : Op) (row : Option Int) : Option Int :=
  match op with
  | .saveFileImg _ => some (row.getD 0 + 1)
  | .deleteFile _ => row.bind (fun n => if 1 < n then some (n - 1) else none)

theorem update_eq (h : Positive rows) (op : Op) :
    op.update rows = Function.update rows op.file.hash (updated op (rows op.file.hash)) := by
  cases op with
  | saveFileImg file =>
      simp only [Op.update, Op.file, updated, insertUserfiles]
      cases hr : rows file.hash with
      | none => rfl
      | some n =>
          have hn := h _ _ hr
          simp only [deleteUserfilesIfRefIsZero_update h, Option.getD_some,
            if_pos (show 0 < n + 1 by omega)]
  | deleteFile file =>
      simp only [Op.update, Op.file, updated, deleteUserfile]
      cases hr : rows file.hash with
      | none => exact Function.eq_update_self_iff.mpr hr
      | some n =>
          simp only [deleteUserfilesIfRefIsZero_update h, Option.bind_some, Int.sub_pos]

section Row

variable {row : Option Int} (hrow : ∀ n, row = some n → 0 < n)

include hrow

end Row

section Settled

variable (rows) (hash) (b : Bool)

end Settled

variable [DecidableEq W] {a : Action W}

def dirs : Conf := ⟨"img", "vid", "file"⟩

end ChityChat.UserFileAgree
