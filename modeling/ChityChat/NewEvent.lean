import ChityChat.ServerHtZero
import Mathlib.Logic.Function.Basic

namespace ChityChat.NewEvent

open Transition ServerHt

variable {E L : Type}

/-- `event_ht`, and for each descriptor in the epoll set the event that its registration points to. -/
structure Server (E L : Type) where
  eventHt : ServerGht E L
  epoll : Int → Option E

/-- The arguments of `server_new_event`: the descriptor, and which pointers are not NULL. -/
structure Args where
  server : Bool
  fd : Int
  data : Bool
  readCallback : Bool
  closeCallback : Bool

def Args.bad (a : Args) : Bool := !a.server || !a.readCallback || (a.data && !a.closeCallback)

/-- An `i32` that is passed for a `u64` key. -/
def fdKey (fd : Int) : Nat := (fd % 2 ^ 64).toNat

/-- `EPOLL_CTL_ADD` fails for a descriptor that is in the set, and where `addable` is false for
another reason. -/
def serverEventAdd (s : Server E L) (fd : Int) (se : E) (addable : Bool) : Int × Server E L :=
  if (s.epoll fd).isSome ∨ addable = false then (-1, s)
  else (0, { s with epoll := Function.update s.epoll fd (some se) })

/-- `EPOLL_CTL_DEL` fails only for a descriptor that is not in the set. -/
def serverEventRemove (s : Server E L) (fd : Int) : Int × Server E L :=
  if (s.epoll fd).isSome then (0, { s with epoll := Function.update s.epoll fd none }) else (-1, s)

def newEventErr (A : LoadFactor L) (s : Server E L) (fd : Int) : Server E L :=
  let s := (serverEventRemove s fd).2
  { s with eventHt := (serverGhtDel A s.eventHt (fdKey fd)).2 }

/-- `se` is the block that `calloc` returns. -/
def serverNewEvent (A : LoadFactor L) (s : Server E L) (a : Args) (se : E) (addable : Bool) :
    Option E × Server E L :=
  if a.bad then (none, s)
  else
    let inserted := serverGhtInsert A s.eventHt (fdKey a.fd) (some se)
    let s := { s with eventHt := inserted.2 }
    if inserted.1 = false then (none, newEventErr A s a.fd)
    else
      let added := serverEventAdd s a.fd se addable
      if added.1 = -1 then (none, newEventErr A added.2 a.fd)
      else (some se, added.2)

structure Unchanged (s s' : Server E L) : Prop where
  eventHt : ∀ key, serverGhtGet s'.eventHt key = serverGhtGet s.eventHt key
  epoll : s'.epoll = s.epoll

variable {A : LoadFactor L} {ht : ServerGht E L} {key : Nat} {se : E} {s : Server E L} {fd : Int}

theorem serverEventRemove_epoll (s : Server E L) (fd : Int) :
    (serverEventRemove s fd).2.epoll = Function.update s.epoll fd none ∧
      (serverEventRemove s fd).2.eventHt = s.eventHt := by
  rw [serverEventRemove]
  split
  · exact ⟨rfl, rfl⟩
  · next hnone =>
      rw [Bool.not_eq_true, Option.isSome_eq_false_iff, Option.isNone_iff_eq_none] at hnone
      rw [← hnone, Function.update_eq_self]
      exact ⟨rfl, rfl⟩

section Twice

def listening : Server Nat ℚ :=
  ⟨ghtApply exactLoad (emptyGht exactLoad 10 false) (.insert 5 (some 1)), fun fd =>
    if fd = 5 then some 1 else none⟩

end Twice

end ChityChat.NewEvent
