import ChityChat.LoggedInUser
import Mathlib.Logic.Function.Basic

namespace ChityChat.CommandDispatch

open JsonC LoggedInUser ServerHttp

def cmdStrMax : Nat := 32

inductive Callback
  | serverClientUserInfo
  | serverClientGroups
  | serverGetGroupMemberIds
  | serverGroupCreate
  | serverGetUser
  | serverGetAllGroups
  | serverJoinGroup
  | serverGroupMsg
  | serverGetGroupMsgs
  | serverUserEditAccount
  | serverCreateGroupCode
  | serverJoinGroupCode
  | serverGetGroupCodes
  | serverDeleteGroupCode
  | serverDeleteGroupMsg
  | serverDeleteGroup
  | serverClientRegister
  | serverClientLogin
  | serverClientLoginSession
  deriving DecidableEq

structure ServerChatcmd where
  cmdHash : UInt64
  cmd : Bytes
  callback : Callback
  perms : Perms

/-- `chat_cmd_ht` as a map from hash to command. -/
abbrev ChatCmdHt := UInt64 → Option ServerChatcmd

def serverGhtInsert (ht : ChatCmdHt) (key : UInt64) (chatcmd : ServerChatcmd) : Bool × ChatCmdHt :=
  match ht key with
  | some _ => (false, ht)
  | none => (true, Function.update ht key (some chatcmd))

structure Registration where
  cmd : Bytes
  callback : Callback
  perms : Perms

/-- What `server_new_chatcmd` stores. A name shorter than the field is copied with a NUL. -/
def Registration.chatcmd (r : Registration) : ServerChatcmd :=
  let cmd := r.cmd.take cmdStrMax
  ⟨serverGhtHashstr cmd, cmd, r.callback, r.perms⟩

def serverNewChatcmd (ht : ChatCmdHt) (r : Registration) : Bool × ChatCmdHt :=
  serverGhtInsert ht r.chatcmd.cmdHash r.chatcmd

def newChatcmds : ChatCmdHt → List Registration → Bool × ChatCmdHt
  | ht, [] => (true, ht)
  | ht, r :: rs =>
    match serverNewChatcmd ht r with
    | (false, ht) => (false, ht)
    | (true, ht) => newChatcmds ht rs

def chatcmdsLoggedIn : List Registration :=
  [⟨utf8 "client_user_info", .serverClientUserInfo, .loggedIn⟩,
    ⟨utf8 "client_groups", .serverClientGroups, .loggedIn⟩,
    ⟨utf8 "get_member_ids", .serverGetGroupMemberIds, .loggedIn⟩,
    ⟨utf8 "group_create", .serverGroupCreate, .loggedIn⟩,
    ⟨utf8 "get_user", .serverGetUser, .loggedIn⟩,
    ⟨utf8 "get_all_groups", .serverGetAllGroups, .loggedIn⟩,
    ⟨utf8 "join_group", .serverJoinGroup, .loggedIn⟩,
    ⟨utf8 "group_msg", .serverGroupMsg, .loggedIn⟩,
    ⟨utf8 "get_group_msgs", .serverGetGroupMsgs, .loggedIn⟩,
    ⟨utf8 "edit_account", .serverUserEditAccount, .loggedIn⟩,
    ⟨utf8 "create_group_code", .serverCreateGroupCode, .loggedIn⟩,
    ⟨utf8 "join_group_code", .serverJoinGroupCode, .loggedIn⟩,
    ⟨utf8 "get_group_codes", .serverGetGroupCodes, .loggedIn⟩,
    ⟨utf8 "delete_group_code", .serverDeleteGroupCode, .loggedIn⟩,
    ⟨utf8 "delete_msg", .serverDeleteGroupMsg, .loggedIn⟩,
    ⟨utf8 "delete_group", .serverDeleteGroup, .loggedIn⟩]

def chatcmdsNotLoggedIn : List Registration :=
  [⟨utf8 "register", .serverClientRegister, .none⟩,
    ⟨utf8 "login", .serverClientLogin, .none⟩,
    ⟨utf8 "session", .serverClientLoginSession, .none⟩]

def registrations : List Registration := chatcmdsLoggedIn ++ chatcmdsNotLoggedIn

def serverInitChatcmd : Bool × ChatCmdHt := newChatcmds (fun _ => none) registrations

/-- The callback that `server_exec_chatcmd` runs, or its answer without one. -/
def serverExecChatcmd (ht : ChatCmdHt) (cmd : Bytes) (state : ClientState) :
    Except String Callback :=
  match ht (serverGhtHashstr cmd) with
  | none => .error "Command not found."
  | some chatcmd =>
    if !chatcmd.perms.allows state then .error "Require permission" else .ok chatcmd.callback

/-- The command runs only what was registered under it, and is refused if nothing was. -/
structure DispatchesExactly (cmd : Bytes) (state : ClientState) : Prop where
  registered : ∀ callback, serverExecChatcmd serverInitChatcmd.2 cmd state = .ok callback →
    ∃ r ∈ registrations, r.cmd = cmd ∧ r.callback = callback
  notFound : cmd ∉ registrations.map Registration.cmd →
    serverExecChatcmd serverInitChatcmd.2 cmd state = .error "Command not found."

theorem serverInitChatcmd_true : serverInitChatcmd.1 = true := by decide +kernel

theorem registrations_cmd : ∀ r ∈ registrations, r.cmd.length < cmdStrMax := by decide +kernel

theorem registrations_chatCmdHt : registrations.map (fun r => (r.cmd, r.perms)) =
    LoggedInUser.chatCmdHt.map (fun chatcmd => (utf8 chatcmd.1, chatcmd.2)) := rfl

theorem newChatcmds_iff {ht : ChatCmdHt} {rs : List Registration}
    (h : (newChatcmds ht rs).1 = true) (hash : UInt64) (chatcmd : ServerChatcmd) :
    (newChatcmds ht rs).2 hash = some chatcmd ↔
      ht hash = some chatcmd ∨ ∃ r ∈ rs, r.chatcmd = chatcmd ∧ chatcmd.cmdHash = hash := by
  induction rs generalizing ht with
  | nil => simp [newChatcmds]
  | cons r rs ih =>
      rw [newChatcmds, serverNewChatcmd, serverGhtInsert] at h ⊢
      cases hfree : ht r.chatcmd.cmdHash with
      | some other =>
          rw [hfree] at h
          cases h
      | none =>
          rw [hfree] at h
          rw [ih h, List.exists_mem_cons_iff]
          by_cases hhash : hash = r.chatcmd.cmdHash
          · subst hhash
            have hnone : (none : Option ServerChatcmd) ≠ some chatcmd :=
              (Option.some_ne_none chatcmd).symm
            have hfirst : r.chatcmd = chatcmd ∧ chatcmd.cmdHash = r.chatcmd.cmdHash ↔
                r.chatcmd = chatcmd := and_iff_left_of_imp (fun heq => by rw [heq])
            rw [Function.update_self, hfree, or_iff_right hnone, Option.some.injEq, hfirst]
          · have hfirst : ¬ (r.chatcmd = chatcmd ∧ chatcmd.cmdHash = hash) := by
              rintro ⟨rfl, heq⟩
              exact hhash heq.symm
            rw [Function.update_of_ne hhash, or_iff_right hfirst]

theorem find_iff (hash : UInt64) (chatcmd : ServerChatcmd) :
    serverInitChatcmd.2 hash = some chatcmd ↔
      ∃ r ∈ registrations, r.chatcmd = chatcmd ∧ chatcmd.cmdHash = hash := by
  have hiff := newChatcmds_iff serverInitChatcmd_true hash chatcmd
  rwa [or_iff_right (Option.some_ne_none chatcmd).symm] at hiff

theorem Registration.cmdHash_eq {r : Registration} (hr : r ∈ registrations) :
    r.chatcmd.cmdHash = serverGhtHashstr r.cmd := by
  have hfits : r.cmd.take cmdStrMax = r.cmd :=
    List.take_of_length_le (Nat.le_of_lt (registrations_cmd r hr))
  rw [chatcmd, hfits]

theorem find_registered {r : Registration} (hr : r ∈ registrations) :
    serverInitChatcmd.2 (serverGhtHashstr r.cmd) = some r.chatcmd :=
  (find_iff _ _).mpr ⟨r, hr, rfl, Registration.cmdHash_eq hr⟩

theorem find_none_iff (cmd : Bytes) :
    serverInitChatcmd.2 (serverGhtHashstr cmd) = none ↔
      serverGhtHashstr cmd ∉ registrations.map (fun r => serverGhtHashstr r.cmd) := by
  rw [Option.eq_none_iff_forall_ne_some, List.mem_map]
  constructor
  · rintro hnone ⟨r, hr, hhash⟩
    apply hnone r.chatcmd
    rw [← hhash, find_registered hr]
  · rintro hnone chatcmd hfind
    obtain ⟨r, hr, rfl, hhash⟩ := (find_iff _ _).mp hfind
    rw [Registration.cmdHash_eq hr] at hhash
    exact hnone ⟨r, hr, hhash⟩

/-- Dispatch goes wrong exactly for the other strings with the hash of a registered name. -/
theorem serverExecChatcmd_exact_iff (cmd : Bytes) (state : ClientState) :
    DispatchesExactly cmd state ↔ cmd ∈ registrations.map Registration.cmd ∨
      serverGhtHashstr cmd ∉ registrations.map (fun r => serverGhtHashstr r.cmd) := by
  constructor
  · intro hexact
    by_contra hcollides
    rw [not_or] at hcollides
    have hanswer := hexact.notFound hcollides.1
    rw [serverExecChatcmd] at hanswer
    cases hfind : serverInitChatcmd.2 (serverGhtHashstr cmd) with
    | none => exact hcollides.2 ((find_none_iff cmd).mp hfind)
    | some chatcmd =>
        rw [hfind] at hanswer
        dsimp only at hanswer
        split at hanswer
        · exact absurd (Except.error.inj hanswer) (by decide)
        · cases hanswer
  · rintro (hcmd | hfree)
    · refine ⟨fun callback hruns => ?_, fun hother => absurd hcmd hother⟩
      obtain ⟨r, hr, rfl⟩ := List.mem_map.mp hcmd
      rw [serverExecChatcmd, find_registered hr] at hruns
      dsimp only at hruns
      split at hruns
      · cases hruns
      · exact ⟨r, hr, rfl, Except.ok.inj hruns⟩
    · have hnone := (find_none_iff cmd).mpr hfree
      have hanswer : serverExecChatcmd serverInitChatcmd.2 cmd state =
          .error "Command not found." := by
        rw [serverExecChatcmd, hnone]
      refine ⟨fun callback hruns => ?_, fun _ => hanswer⟩
      rw [hanswer] at hruns
      cases hruns

/-- A client that is not logged in logs in with "mNgin". -/
theorem mNgin_dispatched : ¬ ∀ (cmd : Bytes) (state : ClientState), DispatchesExactly cmd state := by
  intro hall
  have hanswer := (hall (utf8 "mNgin") ⟨false, true, false, false⟩).notFound (by decide +kernel)
  have hruns : serverExecChatcmd serverInitChatcmd.2 (utf8 "mNgin") ⟨false, true, false, false⟩ =
      .ok .serverClientLogin := by
    have hhash : serverGhtHashstr (utf8 "mNgin") = serverGhtHashstr (utf8 "login") := by
      decide +kernel
    have hlogin := find_registered (r := ⟨utf8 "login", .serverClientLogin, .none⟩)
      (by simp [registrations, chatcmdsNotLoggedIn])
    rw [serverExecChatcmd, hhash, hlogin]
    rfl
  rw [hruns] at hanswer
  cases hanswer

end ChityChat.CommandDispatch
