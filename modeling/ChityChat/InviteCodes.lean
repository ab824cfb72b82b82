import ChityChat.Transition
import ChityChat.WriteCommands
import Mathlib.Data.List.Nodup

namespace ChityChat.InviteCodes

open DbResult Schema WriteStatements WriteCommands Transition

variable {W : Type} [DecidableEq W]

/-- A statement of `insert_groupmember_code.sql` that has read its snapshot: `gc` and `g` are what
its common table expressions of these names have found. -/
structure Running where
  userId : Nat
  inviteCode : String
  gc : Option CodeRow
  g : List GroupRow

structure Ended where
  userId : Nat
  inviteCode : String
  inserted : Bool
  ret : DbAsync
  deriving DecidableEq

structure State (W : Type) where
  store : Store
  running : W → Option Running
  log : List Ended

def snapshot (s : Store) (userId : Nat) (inviteCode : String) : Running :=
  let gc := s.codes.find? (fun c => c.inviteCode = varchar8 inviteCode)
  ⟨userId, varchar8 inviteCode, gc, s.groups.filter (fun g => some g.groupId = gc.map CodeRow.groupId)⟩

/-- The row of the code is still there when the update has waited for its writers. -/
def Finds (s : Store) (gc : CodeRow) : Prop := ∃ c ∈ s.codes, c.inviteCode = gc.inviteCode

instance (s : Store) (gc : CodeRow) : Decidable (Finds s gc) :=
  inferInstanceAs (Decidable (∃ c ∈ s.codes, _))

/-- The update changes the row that it finds again, which runs the trigger
`delete_groupcode_if_over_max`. The insert does not depend on it. -/
def effect (s : Store) (r : Running) (gc : CodeRow) : Store :=
  { s with
    members := s.members ++ [⟨r.userId, gc.groupId⟩]
    codes := if r.g ≠ [] ∧ Finds s gc then deleteGroupcodeIfOverMax (s.codes.map (useCode gc.inviteCode))
      else s.codes }

def returning (s : Store) (r : Running) (gc : CodeRow) : List (List (Option Value)) :=
  if Finds s gc then r.g.map (fun g => [some (.int g.groupId)]) else []

def ret (status : ExecStatusType) (rows : List (List (Option Value))) : DbAsync :=
  (userJoinGroupCodeResult ⟨0, status, rows⟩ (newCtx .userJoinGroupCode : DbcmdCtx Nat)).ret

def State.finish (x : State W) (w : W) (store : Store) (e : Ended) : State W :=
  ⟨store, Function.update x.running w none, x.log ++ [e]⟩

inductive Action (W : Type)
  | start (w : W) (userId : Nat) (inviteCode : String)
  | finish (w : W)
  | fail (w : W)

/-- The join commands of any number of workers. A statement reads its snapshot, and takes effect as
a whole later, unless it violates a constraint or fails for another reason. -/
inductive Step : State W → Action W → State W → Prop
  | start {x : State W} {w : W} (userId : Nat) (inviteCode : String) (hw : x.running w = none) :
      Step x (.start w userId inviteCode)
        { x with running := Function.update x.running w (some (snapshot x.store userId inviteCode)) }
  | finish {x : State W} {w : W} {r : Running} {gc : CodeRow} (hw : x.running w = some r)
      (hgc : r.gc = some gc) (hs : Stored (effect x.store r gc)) :
      Step x (.finish w) (x.finish w (effect x.store r gc)
        ⟨r.userId, r.inviteCode, true, ret .tuplesOk (returning x.store r gc)⟩)
  | fail {x : State W} {w : W} {r : Running} (hw : x.running w = some r) :
      Step x (.fail w) (x.finish w x.store ⟨r.userId, r.inviteCode, false, ret .fatalError []⟩)

structure Initial (s₀ : Store) (x : State W) : Prop where
  store : x.store = s₀
  stored : Stored s₀
  running : ∀ w, x.running w = none
  log : x.log = []

/-- A statement that ends finds the row again that its snapshot has. -/
def Kept (x : State W) : Action W → Prop
  | .finish w => ∀ r gc, x.running w = some r → r.gc = some gc → Finds x.store gc
  | _ => True

def through (x : State W) (inviteCode : String) : List Nat :=
  (x.log.filter (fun e => e.inserted ∧ e.inviteCode = inviteCode)).map Ended.userId

variable {s₀ : Store} {x x' : State W} {a : Action W} {c : CodeRow} {k : Int}

theorem snapshot_gc {s : Store} {userId : Nat} {inviteCode : String} {gc : CodeRow}
    (h : (snapshot s userId inviteCode).gc = some gc) :
    gc ∈ s.codes ∧ gc.inviteCode = varchar8 inviteCode :=
  ⟨List.mem_of_find?_eq_some h, by simpa using List.find?_some h⟩

theorem mem_snapshot_g {s : Store} {userId : Nat} {inviteCode : String} {gc : CodeRow}
    (h : (snapshot s userId inviteCode).gc = some gc) {g : GroupRow} :
    g ∈ (snapshot s userId inviteCode).g ↔ g ∈ s.groups ∧ g.groupId = gc.groupId := by
  have hgc : s.codes.find? (fun c => c.inviteCode = varchar8 inviteCode) = some gc := h
  simp [snapshot, hgc]

/-- The joins through a code are counted as long as its row is there, and what is inserted is
reported. -/
structure Counted (s₀ : Store) (c : CodeRow) (k : Int) (x : State W) : Prop where
  stored : Stored x.store
  running : ∀ w r gc, x.running w = some r → r.gc = some gc →
    r.g ≠ [] ∧ r.inviteCode = gc.inviteCode
  bound : k + (through x c.inviteCode).length ≤ c.maxUses
  present : ∀ d ∈ x.store.codes, d.inviteCode = c.inviteCode →
    d.uses = some (k + (through x c.inviteCode).length) ∧ d.maxUses = c.maxUses ∧
      k + (through x c.inviteCode).length < c.maxUses
  told : ∀ e ∈ x.log, e.inserted = true → e.ret = .ok
  joined : ∀ m ∈ x.store.members, m ∈ s₀.members ∨
    ∃ e ∈ x.log, e.inserted = true ∧ e.userId = m.userId

omit [DecidableEq W] in
theorem counted_initial (h : Initial s₀ x) (hc : c ∈ s₀.codes) (huses : c.uses = some k)
    (hk : k < c.maxUses) : Counted s₀ c k x where
  stored := h.store ▸ h.stored
  running w r gc hw := by
    rw [h.running w] at hw
    cases hw
  bound := by
    rw [through, h.log]
    simpa using hk.le
  present d hd hcode := by
    rw [h.store] at hd
    obtain rfl := List.inj_on_of_nodup_map h.stored.valid.codeKey hd hc hcode
    rw [through, h.log]
    simpa using ⟨huses, hk⟩
  told e he := by
    rw [h.log] at he
    cases he
  joined m hm := Or.inl (h.store ▸ hm)

theorem through_finish (x : State W) (w : W) (store : Store) (e : Ended) (inviteCode : String) :
    through (x.finish w store e) inviteCode = through x inviteCode ++
      if e.inserted ∧ e.inviteCode = inviteCode then [e.userId] else [] := by
  simp only [through, State.finish, List.filter_append, List.map_append]
  congr 1
  split
  · rename_i h
    simp [h]
  · rename_i h
    simp [h]

theorem Counted.running_update (h : Counted s₀ c k x) (w : W) {running : Option Running}
    (hrunning : ∀ r gc, running = some r → r.gc = some gc →
      r.g ≠ [] ∧ r.inviteCode = gc.inviteCode) :
    ∀ v r gc, Function.update x.running w running v = some r → r.gc = some gc →
      r.g ≠ [] ∧ r.inviteCode = gc.inviteCode :=
  (Function.forall_update_iff x.running (fun _ running => ∀ r gc, running = some r →
    r.gc = some gc → r.g ≠ [] ∧ r.inviteCode = gc.inviteCode)).mpr
    ⟨hrunning, fun v _ => h.running v⟩

theorem snapshot_running {s : Store} (hs : Stored s) {userId : Nat} {inviteCode : String}
    {gc : CodeRow} (h : (snapshot s userId inviteCode).gc = some gc) :
    (snapshot s userId inviteCode).g ≠ [] ∧
      (snapshot s userId inviteCode).inviteCode = gc.inviteCode := by
  obtain ⟨hmem, hcode⟩ := snapshot_gc h
  obtain ⟨g, hg, hid⟩ := List.mem_map.mp (hs.valid.codeGroup gc hmem)
  exact ⟨List.ne_nil_of_mem ((mem_snapshot_g h).mpr ⟨hg, hid⟩), hcode.symm⟩

theorem mem_effect_codes {s : Store} {r : Running} {gc d : CodeRow} (hg : r.g ≠ [])
    (hf : Finds s gc) (hd : d ∈ (effect s r gc).codes) :
    ∃ d₀ ∈ s.codes, d = useCode gc.inviteCode d₀ ∧
      (d.maxUses = -1 ∨ ∀ uses, d.uses = some uses → uses < d.maxUses) := by
  simp only [effect, if_pos (And.intro hg hf), deleteGroupcodeIfOverMax] at hd
  obtain ⟨hmap, hkept⟩ := List.mem_filter.mp hd
  obtain ⟨d₀, hd₀, rfl⟩ := List.mem_map.mp hmap
  exact ⟨d₀, hd₀, rfl, by simpa using hkept⟩

theorem ret_returning {s : Store} {r : Running} {gc : CodeRow} (hg : r.g ≠ []) (hf : Finds s gc) :
    ret .tuplesOk (returning s r gc) = .ok := by
  rw [returning, if_pos hf]
  cases hrows : r.g with
  | nil => exact absurd hrows hg
  | cons g gs => rfl

omit [DecidableEq W] in
/-- Rows of the same code are counted up together, and the others are left alone. -/
theorem Counted.finish_codes (h : Counted s₀ c k x) (hmax : 0 < c.maxUses) {r : Running}
    {gc : CodeRow} (hg : r.g ≠ []) (hcode : r.inviteCode = gc.inviteCode)
    (hf : Finds x.store gc) {n : Nat}
    (hn : n = (through x c.inviteCode).length + if r.inviteCode = c.inviteCode then 1 else 0) :
    ∀ d ∈ (effect x.store r gc).codes, d.inviteCode = c.inviteCode →
      d.uses = some (k + n) ∧ d.maxUses = c.maxUses ∧ k + n < c.maxUses := by
  intro d hd hdcode
  obtain ⟨d₀, hd₀, rfl, hkept⟩ := mem_effect_codes hg hf hd
  by_cases hc : r.inviteCode = c.inviteCode
  · have hd₀code : d₀.inviteCode = gc.inviteCode := by
      by_contra hne
      rw [useCode, if_neg hne] at hdcode
      exact hne (hdcode.trans (hc.symm.trans hcode))
    rw [useCode, if_pos hd₀code] at hkept ⊢
    obtain ⟨huses, hm, hlt⟩ := h.present d₀ hd₀ (hd₀code.trans (hcode.symm.trans hc))
    rw [if_pos hc] at hn
    simp only [huses, Option.map_some, hm] at hkept ⊢
    have hlt' := hkept.resolve_left (by omega) _ rfl
    exact ⟨congrArg some (by omega), trivial, by omega⟩
  · have hd₀code : d₀.inviteCode ≠ gc.inviteCode := by
      intro he
      rw [useCode, if_pos he] at hdcode
      exact hc (hcode.trans (he.symm.trans hdcode))
    rw [useCode, if_neg hd₀code] at hdcode ⊢
    rw [if_neg hc, Nat.add_zero] at hn
    exact hn ▸ h.present d₀ hd₀ hdcode

theorem Counted.finish (h : Counted s₀ c k x) (hmax : 0 < c.maxUses) {w : W} {r : Running}
    {gc : CodeRow} (hw : x.running w = some r) (hgc : r.gc = some gc)
    (hs : Stored (effect x.store r gc)) (hf : Finds x.store gc) :
    Counted s₀ c k (x.finish w (effect x.store r gc)
      ⟨r.userId, r.inviteCode, true, ret .tuplesOk (returning x.store r gc)⟩) := by
  obtain ⟨hg, hcode⟩ := h.running w r gc hw hgc
  have hlength : (through (x.finish w (effect x.store r gc)
      ⟨r.userId, r.inviteCode, true, ret .tuplesOk (returning x.store r gc)⟩) c.inviteCode).length =
      (through x c.inviteCode).length + if r.inviteCode = c.inviteCode then 1 else 0 := by
    rw [through_finish, List.length_append]
    by_cases hc : r.inviteCode = c.inviteCode <;> simp [hc]
  constructor
  · exact hs
  · exact h.running_update w (by nofun)
  · rw [hlength]
    by_cases hc : r.inviteCode = c.inviteCode
    · obtain ⟨d, hd, hdcode⟩ := hf
      have hlt := (h.present d hd (hdcode.trans (hcode.symm.trans hc))).2.2
      rw [if_pos hc]
      omega
    · rw [if_neg hc]
      exact h.bound
  · exact h.finish_codes hmax hg hcode hf hlength
  · intro e he hins
    rcases List.mem_append.mp he with hold | hnew
    · exact h.told e hold hins
    · rw [List.mem_singleton.mp hnew]
      exact ret_returning hg hf
  · intro m hm
    rcases List.mem_append.mp hm with hold | hnew
    · rcases h.joined m hold with hm₀ | ⟨e, he, hins, huser⟩
      · exact Or.inl hm₀
      · exact Or.inr ⟨e, List.mem_append_left _ he, hins, huser⟩
    · rw [List.mem_singleton.mp hnew]
      exact Or.inr ⟨_, List.mem_append_right _ (List.mem_singleton_self _), rfl, rfl⟩

theorem Counted.fail (h : Counted s₀ c k x) (w : W) (r : Running) :
    Counted s₀ c k (x.finish w x.store ⟨r.userId, r.inviteCode, false, ret .fatalError []⟩) := by
  have hthrough : through (x.finish w x.store ⟨r.userId, r.inviteCode, false, ret .fatalError []⟩)
      c.inviteCode = through x c.inviteCode := by
    rw [through_finish]
    simp
  constructor
  · exact h.stored
  · exact h.running_update w (by nofun)
  · rw [hthrough]
    exact h.bound
  · intro d hd hcode
    rw [hthrough]
    exact h.present d hd hcode
  · intro e he hins
    rcases List.mem_append.mp he with hold | hnew
    · exact h.told e hold hins
    · rw [List.mem_singleton.mp hnew] at hins
      cases hins
  · intro m hm
    rcases h.joined m hm with hm₀ | ⟨e, he, hins, huser⟩
    · exact Or.inl hm₀
    · exact Or.inr ⟨e, List.mem_append_left _ he, hins, huser⟩

theorem Counted.step (h : Counted s₀ c k x) (hmax : 0 < c.maxUses) (hstep : Step x a x')
    (hkept : Kept x a) : Counted s₀ c k x' := by
  cases hstep with
  | @start w userId inviteCode hw =>
      refine ⟨h.stored, h.running_update w ?_, h.bound, h.present, h.told, h.joined⟩
      rintro r gc hr hgc
      obtain rfl := Option.some.inj hr
      exact snapshot_running h.stored hgc
  | finish hw hgc hs => exact h.finish hmax hw hgc hs (hkept _ _ hw hgc)
  | @fail w r hw => exact h.fail w r

/-- As long as no join loses the row of its code to another writer, the members that joined through
a code are at most as many as it has uses left, and everybody that became a member is told so. -/
theorem kept_respected (hc : c ∈ s₀.codes) (hmax : 0 < c.maxUses) (huses : c.uses = some k)
    (hk : k < c.maxUses)
    (h : Reachable (Initial s₀) (fun x a x' => Step x a x' ∧ Kept x a) x) :
    k + (through x c.inviteCode).length ≤ c.maxUses ∧
      (∀ e ∈ x.log, e.ret = .error → e.inserted = false) ∧
      ∀ m ∈ x.store.members, m ∉ s₀.members → ∃ e ∈ x.log, e.userId = m.userId ∧ e.ret = .ok := by
  have hcounted : Counted s₀ c k x := h.invariant (fun _ h0 => counted_initial h0 hc huses hk)
    (fun _ _ _ hx hstep => hx.step hmax hstep.1 hstep.2)
  refine ⟨hcounted.bound, fun e he herr => ?_, fun m hm hnew => ?_⟩
  · cases hins : e.inserted with
    | false => rfl
    | true =>
        rw [hcounted.told e he hins] at herr
        cases herr
  · obtain ⟨e, he, hins, huser⟩ := (hcounted.joined m hm).resolve_left hnew
    exact ⟨e, he, huser, hcounted.told e he hins⟩

def onceCode : CodeRow := ⟨"aaaaaaaa", 1, some 0, 1⟩

def firstGroup : GroupRow := ⟨1, some 1, "first", none, some false, none⟩

def oneUse : Store where
  users := [⟨1, "one", "one", none, none, none⟩, ⟨2, "two", "two", none, none, none⟩,
    ⟨3, "three", "three", none, none, none⟩]
  groups := [firstGroup]
  members := [⟨1, 1⟩]
  messages := []
  codes := [onceCode]
  userSeq := 4
  groupSeq := 2
  msgSeq := 1

theorem oneUse_stored : Stored oneUse where
  valid := by constructor <;> simp [oneUse, firstGroup, onceCode]
  users := by simp [oneUse]
  groups := by simp [oneUse, firstGroup]
  messages := by simp [oneUse]
  ints := by simp [oneUse]

def joining (userId : Nat) : Running := ⟨userId, "aaaaaaaa", some onceCode, [firstGroup]⟩

theorem snapshot_oneUse (userId : Nat) : snapshot oneUse userId "aaaaaaaa" = joining userId := by
  have hcode : varchar8 "aaaaaaaa" = "aaaaaaaa" := by decide +kernel
  simp [snapshot, joining, hcode, oneUse, onceCode, firstGroup]

def usedOnce : Store := { oneUse with members := [⟨1, 1⟩, ⟨2, 1⟩], codes := [] }
def usedTwice : Store := { oneUse with members := [⟨1, 1⟩, ⟨2, 1⟩, ⟨3, 1⟩], codes := [] }

theorem usedOnce_stored : Stored usedOnce where
  valid := by constructor <;> simp [usedOnce, oneUse, firstGroup]
  users := by simp [usedOnce, oneUse]
  groups := by simp [usedOnce, oneUse, firstGroup]
  messages := by simp [usedOnce, oneUse]
  ints := by simp [usedOnce, oneUse]

theorem usedTwice_stored : Stored usedTwice where
  valid := by constructor <;> simp [usedTwice, oneUse, firstGroup]
  users := by simp [usedTwice, oneUse]
  groups := by simp [usedTwice, oneUse, firstGroup]
  messages := by simp [usedTwice, oneUse]
  ints := by simp [usedTwice, oneUse]

def twiceCode (uses : Int) : CodeRow := ⟨"aaaaaaaa", 1, some uses, 2⟩

def twoUses : Store := { oneUse with codes := [twiceCode 0] }

theorem twoUses_stored : Stored twoUses where
  valid := by constructor <;> simp [twoUses, oneUse, firstGroup, twiceCode]
  users := by simp [twoUses, oneUse]
  groups := by simp [twoUses, oneUse, firstGroup]
  messages := by simp [twoUses, oneUse]
  ints := by simp [twoUses, oneUse]

def joiningTwice (userId : Nat) : Running := ⟨userId, "aaaaaaaa", some (twiceCode 0), [firstGroup]⟩

theorem snapshot_twoUses (userId : Nat) : snapshot twoUses userId "aaaaaaaa" = joiningTwice userId := by
  have hcode : varchar8 "aaaaaaaa" = "aaaaaaaa" := by decide +kernel
  simp [snapshot, joiningTwice, hcode, twoUses, oneUse, twiceCode, firstGroup]

def oneLeft : Store := { twoUses with members := [⟨1, 1⟩, ⟨2, 1⟩], codes := [twiceCode 1] }

theorem oneLeft_stored : Stored oneLeft where
  valid := by constructor <;> simp [oneLeft, twoUses, oneUse, firstGroup, twiceCode]
  users := twoUses_stored.users
  groups := twoUses_stored.groups
  messages := twoUses_stored.messages
  ints := by simp [oneLeft, twoUses, oneUse]

theorem kept_respected_twice :
    ∃ x : State Bool, x.log = [⟨2, "aaaaaaaa", true, .ok⟩, ⟨3, "aaaaaaaa", true, .ok⟩] ∧
      (0 : Int) + (through x "aaaaaaaa").length ≤ 2 := by
  have h0 : Reachable (Initial twoUses) (fun x a x' => Step x a x' ∧ Kept x a)
      (⟨twoUses, fun _ => none, []⟩ : State Bool) := .start ⟨rfl, twoUses_stored, fun _ => rfl, rfl⟩
  have h1 := h0.next (a := Action.start false 2 "aaaaaaaa") ⟨.start 2 "aaaaaaaa" rfl, trivial⟩
  have h2 := h1.next (a := Action.start true 3 "aaaaaaaa") ⟨.start 3 "aaaaaaaa" rfl, trivial⟩
  rw [snapshot_twoUses, snapshot_twoUses] at h2
  have hkept : ∀ userId uses store, twiceCode uses ∈ store.codes → ∀ r gc, some (joiningTwice userId) = some r →
      r.gc = some gc → Finds store gc := by
    rintro userId uses store hcode r gc hr hgc
    obtain rfl := Option.some.inj hr
    have hsame : (twiceCode 0).inviteCode = gc.inviteCode := congrArg CodeRow.inviteCode (Option.some.inj hgc)
    exact ⟨twiceCode uses, hcode, hsame⟩
  have h3 := h2.next (a := Action.finish false)
    ⟨.finish rfl rfl oneLeft_stored, hkept 2 0 twoUses (by simp [twoUses])⟩
  have h4 := h3.next (a := Action.finish true)
    ⟨.finish rfl rfl usedTwice_stored, hkept 3 1 oneLeft (by simp [oneLeft])⟩
  exact ⟨_, rfl, (kept_respected (c := twiceCode 0) (by simp [twoUses]) (by decide) rfl (by decide) h4).1⟩

/-- The users 2 and 3 send the code at the same time. Both become members, and the user 3 is told
that it did not. -/
theorem two_join_once :
    ∃ x : State Bool, Reachable (Initial oneUse) Step x ∧ onceCode ∈ oneUse.codes ∧
      onceCode.maxUses = 1 ∧ through x "aaaaaaaa" = [2, 3] ∧
      ⟨2, 1⟩ ∈ x.store.members ∧ ⟨3, 1⟩ ∈ x.store.members ∧
      ⟨3, "aaaaaaaa", true, .error⟩ ∈ x.log := by
  have h0 : Reachable (Initial oneUse) Step (⟨oneUse, fun _ => none, []⟩ : State Bool) :=
    .start ⟨rfl, oneUse_stored, fun _ => rfl, rfl⟩
  have h1 := h0.next (a := .start false 2 "aaaaaaaa") (.start 2 "aaaaaaaa" rfl)
  have h2 := h1.next (a := .start true 3 "aaaaaaaa") (.start 3 "aaaaaaaa" rfl)
  rw [snapshot_oneUse, snapshot_oneUse] at h2
  have h3 := h2.next (a := .finish false) (by exact .finish rfl rfl usedOnce_stored)
  have h4 := h3.next (a := .finish true) (by exact .finish rfl rfl usedTwice_stored)
  exact ⟨_, h4, by simp [oneUse], rfl, rfl, by decide, by decide, by decide⟩

end ChityChat.InviteCodes
