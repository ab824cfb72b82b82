import Mathlib.Data.List.Basic
import Mathlib.Data.List.InsertIdx

namespace ChityChat.AttachmentPreviews

section Erasure

variable {α : Type}

theorem eraseIdx_eq_iff_of_le {l : List α} {i p : Nat} {a : α} (hip : i ≤ p) (hp : l[p]? = some a) :
    l.eraseIdx i = l.eraseIdx p ↔ ∀ k, i ≤ k → k ≤ p → l[k]? = some a := by
  constructor
  · intro h k hik hkp
    induction hd : p - k generalizing k with
    | zero => rwa [show k = p by omega]
    | succ d ih =>
        have hnext := ih (k + 1) (by omega) (by omega) (by omega)
        have hcell := congrArg (fun l => l[k]?) h
        simp only [List.getElem?_eraseIdx] at hcell
        rw [if_neg (by omega), if_pos (by omega)] at hcell
        rw [← hcell, hnext]
  · intro h
    apply List.ext_getElem?
    intro k
    simp only [List.getElem?_eraseIdx]
    by_cases hk : k < i
    · rw [if_pos hk, if_pos (by omega)]
    · by_cases hkp : k < p
      · rw [if_neg hk, if_pos hkp, h k (by omega) (by omega), h (k + 1) (by omega) (by omega)]
      · rw [if_neg hk, if_neg hkp]

theorem eraseIdx_eq_iff {l : List α} {i p : Nat} {a : α} (hp : l[p]? = some a) :
    l.eraseIdx i = l.eraseIdx p ↔ ∀ k, min i p ≤ k → k ≤ max i p → l[k]? = some a := by
  rcases Nat.le_total i p with hip | hpi
  · rw [Nat.min_eq_left hip, Nat.max_eq_right hip]
    exact eraseIdx_eq_iff_of_le hip hp
  · rw [Nat.min_eq_right hpi, Nat.max_eq_left hpi]
    cases hi : l[i]? with
    | none =>
        -- Nothing is erased behind the end, and the two lists differ in length.
        have hbehind : l.length ≤ i := List.getElem?_eq_none_iff.mp hi
        have hp' := (List.getElem?_eq_some_iff.mp hp).1
        refine iff_of_false (fun h => ?_) (fun h => ?_)
        · have hlen := congrArg List.length h
          rw [List.eraseIdx_of_length_le hbehind, List.length_eraseIdx_of_lt hp'] at hlen
          omega
        · cases hi.symm.trans (h i hpi (Nat.le_refl i))
    | some b =>
        rw [eq_comm, eraseIdx_eq_iff_of_le hpi hi]
        constructor
        · intro h
          rw [← hp, h p (Nat.le_refl p) hpi]
          exact h
        · intro h
          rw [← hi, h i hpi (Nat.le_refl i)]
          exact h

end Erasure

structure File where
  name : String
  type : String
  content : List UInt8
  deriving DecidableEq

structure Attach where
  file : File
  name : String
  type : String
  deriving DecidableEq

def attach (file : File) : Attach := ⟨file, file.name, file.type⟩

/-- The element that shows a file. The listener of its close button keeps the index. -/
structure AttachCon where
  file : File
  index : Nat
  deriving DecidableEq

/-- `attachments` holds the children of the element `input_attachments`. -/
structure App where
  currentAttachments : List Attach
  attachments : List AttachCon
  deriving DecidableEq

def isImage (file : File) : Bool := "image/".toList.isPrefixOf file.type.toList

def splice {α : Type} (l : List α) (start deleteCount : Nat) : List α :=
  l.take start ++ l.drop (start + deleteCount)

def addAttachment (app : App) (file : File) : App :=
  if isImage file then
    let current := app.currentAttachments ++ [attach file]
    ⟨current, app.attachments ++ [⟨file, current.length - 1⟩]⟩
  else app

def clickClose (app : App) (p : Nat) : App :=
  match app.attachments[p]? with
  | some con => ⟨splice app.currentAttachments con.index 1, app.attachments.eraseIdx p⟩
  | none => app

def packetAttachments (app : App) : List (String × String) :=
  app.currentAttachments.map (fun att => (att.type, att.name))

inductive Act
  | add (file : File)
  | close (p : Nat)

def exec (app : App) : Act → App
  | .add file => addAttachment app file
  | .close p => clickClose app p

def shown (app : App) : List File := app.attachments.map AttachCon.file

/-- The files to be sent are those whose preview is shown. -/
def Matches (app : App) : Prop := app.currentAttachments = (shown app).map attach

instance (app : App) : Decidable (Matches app) := inferInstanceAs (Decidable (_ = _))

def AfterEach (P : App → Prop) (app : App) : List Act → Prop
  | [] => True
  | act :: acts => P (exec app act) ∧ AfterEach P (exec app act) acts

def BeforeEach (P : App → Act → Prop) (app : App) : List Act → Prop
  | [] => True
  | act :: acts => P app act ∧ BeforeEach P (exec app act) acts

/-- From the position of a closed preview to the index that its button kept there is only this
file. -/
def SameFiles (app : App) : Act → Prop
  | .add _ => True
  | .close p => ∀ con, app.attachments[p]? = some con →
    ∀ k, min con.index p ≤ k → k ≤ max con.index p → (shown app)[k]? = some con.file

def empty : App := ⟨[], []⟩

instance decidableAfterEach (P : App → Prop) [DecidablePred P] (app : App) :
    (acts : List Act) → Decidable (AfterEach P app acts)
  | [] => isTrue trivial
  | _ :: acts => @instDecidableAnd _ _ _ (decidableAfterEach P _ acts)

theorem splice_one {α : Type} (l : List α) (i : Nat) : splice l i 1 = l.eraseIdx i :=
  (List.eraseIdx_eq_take_drop_succ l i).symm

theorem attach_injective : Function.Injective attach := fun _ _ h => congrArg Attach.file h

theorem addAttachment_matches {app : App} (h : Matches app) (file : File) :
    Matches (addAttachment app file) := by
  rw [addAttachment]
  split
  · rw [Matches, shown] at h ⊢
    simp only [h, List.map_append, List.map_cons, List.map_nil]
  · exact h

theorem clickClose_matches_iff {app : App} (h : Matches app) (p : Nat) :
    Matches (clickClose app p) ↔ SameFiles app (.close p) := by
  cases hp : app.attachments[p]? with
  | none => simp only [clickClose, hp, SameFiles, h, reduceCtorEq, false_implies, implies_true]
  | some con =>
      have hfile : (shown app)[p]? = some con.file := by
        rw [shown, List.getElem?_map, hp, Option.map_some]
      have hcurrent : (clickClose app p).currentAttachments =
          ((shown app).eraseIdx con.index).map attach := by
        rw [Matches] at h
        simp only [clickClose, hp, splice_one, h, List.eraseIdx_map]
      have hshown : shown (clickClose app p) = (shown app).eraseIdx p := by
        simp only [shown, clickClose, hp, List.eraseIdx_map]
      simp only [SameFiles, hp, Option.some.injEq, forall_eq']
      rw [← eraseIdx_eq_iff hfile, Matches, hcurrent, hshown,
        (List.map_injective_iff.mpr attach_injective).eq_iff]

theorem exec_matches_iff {app : App} (h : Matches app) (act : Act) :
    Matches (exec app act) ↔ SameFiles app act := by
  cases act with
  | add file => exact iff_of_true (addAttachment_matches h file) trivial
  | close p => exact clickClose_matches_iff h p

theorem afterEach_matches_iff {app : App} (h : Matches app) (acts : List Act) :
    AfterEach Matches app acts ↔ BeforeEach SameFiles app acts := by
  induction acts generalizing app with
  | nil => rfl
  | cons act acts ih =>
      rw [AfterEach, BeforeEach, exec_matches_iff h]
      exact and_congr_right (fun hact => ih ((exec_matches_iff h act).mpr hact))

/-- From an empty list on, what is to be sent is what is shown exactly as long as no button's index
misses. -/
theorem attachments_match_iff (acts : List Act) :
    AfterEach Matches empty acts ↔ BeforeEach SameFiles empty acts := by
  have hempty : Matches empty := rfl
  exact afterEach_matches_iff hempty acts

/-- Behind a removal every later index is one too big. The third file is dropped for the second. -/
theorem attachments_mismatch : ¬ ∀ acts : List Act, AfterEach Matches empty acts := by
  intro hall
  have hrun := hall [.add ⟨"a", "image/png", []⟩, .add ⟨"b", "image/png", []⟩,
    .add ⟨"c", "image/png", []⟩, .close 0, .close 0]
  revert hrun
  decide

theorem Matches.packet {app : App} (h : Matches app) :
    packetAttachments app = (shown app).map (fun file => (file.type, file.name)) := by
  rw [packetAttachments, h, List.map_map]
  rfl

end ChityChat.AttachmentPreviews
