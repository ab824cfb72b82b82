import ChityChat.ServerHtDelete

namespace ChityChat.IssuedIds

open ServerHt Transition

variable {R S T L : Type} [DecidableEq R] [DecidableEq S] [DecidableEq T]

/-- A table of ids, and the id of each record that was allocated and is not freed yet. -/
structure IdTable (R L : Type) where
  ht : ServerGht R L
  id : R → Option UInt32

namespace IdTable

variable (A : LoadFactor L) (t : IdTable R L)

omit [DecidableEq R] in
def get (id : UInt32) : Option R := serverGhtGet t.ht id.toNat

/-- A new record gets the id that `getrandom` draws. The result of the insert is not looked at. -/
def issue (r : R) (draw : UInt32) : IdTable R L where
  ht := (serverGhtInsert A t.ht draw.toNat (some r)).2
  id := Function.update t.id r (some draw)

def del (r : R) : IdTable R L :=
  match t.id r with
  | none => t
  | some id => ⟨(serverGhtDel A t.ht id.toNat).2, Function.update t.id r none⟩

end IdTable

structure Server (S T L : Type) where
  session : IdTable S L
  uploadToken : IdTable T L

def serverNewUserSession (A : LoadFactor L) (server : Server S T L) (session : S) (draw : UInt32) :
    Server S T L :=
  { server with session := server.session.issue A session draw }

def serverGetUserSession (server : Server S T L) (sessionId : UInt32) : Option S :=
  server.session.get sessionId

def serverDelUserSession (A : LoadFactor L) (server : Server S T L) (session : S) : Server S T L :=
  { server with session := server.session.del A session }

def serverNewUploadToken (A : LoadFactor L) (server : Server S T L) (ut : T) (draw : UInt32) :
    Server S T L :=
  { server with uploadToken := server.uploadToken.issue A ut draw }

def serverGetUploadToken (server : Server S T L) (token : UInt32) : Option T :=
  server.uploadToken.get token

/-- Without the timer, which is stopped first. -/
def serverDelUploadToken (A : LoadFactor L) (server : Server S T L) (ut : T) : Server S T L :=
  { server with uploadToken := server.uploadToken.del A ut }

inductive Action (S T : Type)
  | newUserSession (session : S) (draw : UInt32)
  | delUserSession (session : S)
  | newUploadToken (ut : T) (draw : UInt32)
  | delUploadToken (ut : T)

/-- `calloc` returns no block that is in use. -/
inductive Step (A : LoadFactor L) : Server S T L → Action S T → Server S T L → Prop
  | newUserSession {s : Server S T L} (session : S) (draw : UInt32)
      (hfree : s.session.id session = none) :
      Step A s (.newUserSession session draw) (serverNewUserSession A s session draw)
  | delUserSession {s : Server S T L} (session : S) :
      Step A s (.delUserSession session) (serverDelUserSession A s session)
  | newUploadToken {s : Server S T L} (ut : T) (draw : UInt32)
      (hfree : s.uploadToken.id ut = none) :
      Step A s (.newUploadToken ut draw) (serverNewUploadToken A s ut draw)
  | delUploadToken {s : Server S T L} (ut : T) :
      Step A s (.delUploadToken ut) (serverDelUploadToken A s ut)

def Start (A : LoadFactor L) (s : Server S T L) : Prop :=
  (∃ n free, serverGhtInit A n free = some s.session.ht) ∧ (∀ r, s.session.id r = none) ∧
    (∃ n free, serverGhtInit A n free = some s.uploadToken.ht) ∧ ∀ r, s.uploadToken.id r = none

/-- The drawn id is not 0, which marks an empty bucket, and no record has it. -/
def Unused (t : IdTable R L) (draw : UInt32) : Prop := draw ≠ 0 ∧ t.get draw = none

/-- No other record stands behind the deleted one in a chain, unless it is the first there. -/
def Last (t : IdTable R L) (r : R) : Prop :=
  ∀ id, t.id r = some id → midChain t.ht id.toNat = false

def Kept (s : Server S T L) : Action S T → Prop
  | .newUserSession _ draw => Unused s.session draw
  | .delUserSession session => Last s.session session
  | .newUploadToken _ draw => Unused s.uploadToken draw
  | .delUploadToken ut => Last s.uploadToken ut

/-- Looking an id up finds the record that has it, and no other one. -/
structure Issued (t : IdTable R L) : Prop where
  counted : Counted t.ht
  get_iff : ∀ id r, t.get id = some r ↔ t.id r = some id

variable {A : LoadFactor L} {t : IdTable R L} {r : R} {draw : UInt32}

theorem Issued.issue (h : Issued t) (hfree : t.id r = none) (hunused : Unused t draw) :
    Issued (t.issue A r draw) := by
  have hkey : draw.toNat ≠ 0 := fun h0 => hunused.1 (UInt32.toNat_inj.mp h0)
  obtain ⟨ht', hins, hadds⟩ := ghtInsert_absent A h.counted.shaped r hkey hunused.2
  have hresized := ghtCheckLoad_resized A hadds.shaped
  have hht : (t.issue A r draw).ht = ghtCheckLoad A ht' := by
    simp only [IdTable.issue, serverGhtInsert, hins]
  refine ⟨?_, ?_⟩
  · exact serverGhtInsert_counted A h.counted hkey (some r)
  · intro id q
    have hold := h.get_iff id q
    have hdraw := h.get_iff draw q
    simp only [IdTable.get] at hold hdraw
    rw [IdTable.get, hht, hresized.get_eq, hadds.get_iff, hold]
    simp only [IdTable.issue, List.mem_singleton, Prod.mk.injEq, UInt32.toNat_inj]
    by_cases hq : q = r
    · subst hq
      rw [Function.update_self, hfree]
      simp [eq_comm]
    · rw [Function.update_of_ne hq]
      simp [hq]

theorem Issued.del (h : Issued t) (hlast : Last t r) : Issued (t.del A r) := by
  rw [IdTable.del]
  split
  · exact h
  · rename_i id hid
    have hget : t.get id = some r := (h.get_iff id r).mpr hid
    have hpresent : serverGhtGet t.ht id.toNat ≠ none := by
      rw [IdTable.get] at hget
      simp [hget]
    obtain ⟨ht', hdel, hremoves⟩ := serverGhtDel_present A h.counted.shaped h.counted.flagged hpresent
    have hkey : id.toNat ≠ 0 := by
      intro h0
      rw [h0, get_zero h.counted.shaped] at hpresent
      exact hpresent rfl
    have hlost : ghtLost t.ht id.toNat = [] :=
      (ghtLost_eq_nil_iff h.counted.shaped _).mpr (hlast id hid)
    have hresized := ghtCheckLoad_resized A hremoves.shaped
    refine ⟨serverGhtDel_counted A h.counted hkey, ?_⟩
    intro id' q
    have hold := h.get_iff id' q
    simp only [IdTable.get] at hold ⊢
    rw [hdel, hresized.get_eq, hremoves.get_iff, hlost, hold]
    by_cases hq : q = r
    · subst hq
      rw [Function.update_self, hid]
      simp only [Option.some.injEq, ne_eq, List.not_mem_nil, not_false_eq_true, and_true,
        reduceCtorEq, iff_false, not_and, not_not]
      rintro rfl
      rfl
    · rw [Function.update_of_ne hq]
      simp only [ne_eq, List.not_mem_nil, not_false_eq_true, and_true, and_iff_left_iff_imp]
      intro hq' heq
      have hsame := (h.get_iff id' q).mpr hq'
      rw [UInt32.toNat_inj.mp heq, hget] at hsame
      exact hq (Option.some.inj hsame).symm

omit [DecidableEq R] in
theorem issued_init {n : Nat} {free : Bool} (hinit : serverGhtInit A n free = some t.ht)
    (hid : ∀ r, t.id r = none) : Issued t := by
  refine ⟨reachable_counted (A := A) (.start ⟨n, free, hinit⟩), ?_⟩
  intro id r
  have hempty : t.ht = emptyGht A n free := by
    rw [serverGhtInit] at hinit
    split at hinit
    · cases hinit
    · exact (Option.some.inj hinit).symm
  have hnone : t.get id = none := by
    rw [IdTable.get, hempty, ← cleared_get (emptyGht A n free) n id.toNat]
    exact get_congr rfl rfl _
  simp [hnone, hid]

theorem issued_step {s s' : Server S T L} {a : Action S T}
    (h : Issued s.session ∧ Issued s.uploadToken) (hstep : Step A s a s') (hkept : Kept s a) :
    Issued s'.session ∧ Issued s'.uploadToken := by
  cases hstep with
  | newUserSession session draw hfree => exact ⟨h.1.issue hfree hkept, h.2⟩
  | delUserSession session => exact ⟨h.1.del hkept, h.2⟩
  | newUploadToken ut draw hfree => exact ⟨h.1, h.2.issue hfree hkept⟩
  | delUploadToken ut => exact ⟨h.1, h.2.del hkept⟩

/-- In every run that draws unused ids only and deletes no record in the middle of a chain, an id
yields the record that it was issued to, as long as this is not deleted, and no other record. -/
theorem reachable_issued (A : LoadFactor L) (s : Server S T L)
    (h : Reachable (Start A) (fun s a s' => Step A s a s' ∧ Kept s a) s) :
    (∀ id session, serverGetUserSession s id = some session ↔ s.session.id session = some id) ∧
      ∀ id ut, serverGetUploadToken s id = some ut ↔ s.uploadToken.id ut = some id := by
  have hissued : Issued s.session ∧ Issued s.uploadToken := by
    refine h.invariant (I := fun s => Issued s.session ∧ Issued s.uploadToken) ?_
      (fun _ _ _ hs hstep => issued_step hs hstep.1 hstep.2)
    rintro s ⟨⟨n, free, hsession⟩, hsid, ⟨m, free', htoken⟩, htid⟩
    exact ⟨issued_init hsession hsid, issued_init htoken htid⟩
  exact ⟨hissued.1.get_iff, hissued.2.get_iff⟩

def noIds (n : Nat) : IdTable Nat ℚ := ⟨emptyGht exactLoad n false, fun _ => none⟩

def started : Server Nat Nat ℚ := ⟨noIds 10, noIds 10⟩

theorem started_start : Start exactLoad started :=
  ⟨⟨10, false, rfl⟩, fun _ => rfl, ⟨10, false, rfl⟩, fun _ => rfl⟩

theorem reachable_issued_chain : ∃ s : Server Nat Nat ℚ, s.session.id 1 = none ∧
    serverGetUserSession s 15 = some 2 ∧ serverGetUserSession s 7 = some 3 ∧ serverGetUploadToken s 5 = some 4 := by
  have h0 : Reachable (Start exactLoad) (fun s a s' => Step exactLoad s a s' ∧ Kept s a) started :=
    .start started_start
  have hfive : Unused started.session 5 := ⟨by decide, by decide +kernel⟩
  have h1 := h0.next ⟨.newUserSession 1 5 rfl, hfive⟩
  have hfifteen : Unused (serverNewUserSession exactLoad started 1 5).session 15 :=
    ⟨by decide, by decide +kernel⟩
  have h2 := h1.next ⟨.newUserSession 2 15 rfl, hfifteen⟩
  have h3 := h2.next ⟨.newUserSession 3 7 rfl, ⟨by decide, by decide +kernel⟩⟩
  have h4 := h3.next ⟨.newUploadToken 4 5 rfl, ⟨by decide, by decide +kernel⟩⟩
  have h5 := h4.next ⟨.delUserSession 1, by
    rintro _ ⟨⟩
    decide +kernel⟩
  obtain ⟨hsession, htoken⟩ := reachable_issued exactLoad _ h5
  exact ⟨_, rfl, (hsession 15 2).mpr rfl, (hsession 7 3).mpr rfl, (htoken 5 4).mpr rfl⟩

/-- The same id is drawn for a second session: it yields the first one, which deleting the second
one removes. -/
theorem second_session_unreachable : ∃ s : Server Nat Nat ℚ,
    Reachable (Start exactLoad) (Step exactLoad) s ∧ s.session.id 2 = some 5 ∧
      serverGetUserSession s 5 = some 1 ∧ s.session.id 1 = some 5 ∧
      serverGetUserSession (serverDelUserSession exactLoad s 2) 5 = none := by
  have h0 : Reachable (Start exactLoad) (Step exactLoad) started := .start started_start
  have h1 := h0.next (.newUserSession 1 5 rfl)
  have h2 := h1.next (.newUserSession 2 5 (by decide +kernel))
  exact ⟨_, h2, by decide +kernel, by decide +kernel, by decide +kernel, by decide +kernel⟩

end ChityChat.IssuedIds
