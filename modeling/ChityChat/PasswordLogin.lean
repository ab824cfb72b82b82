import ChityChat.UserRegister

namespace ChityChat.PasswordLogin

open CString JsonC UserRegister

variable {Salt Hash : Type} [DecidableEq Hash]

/-- The password field of a login holds all of the password, which may end with the byte that
`do_session` supplies. -/
def FieldKeeps (password : Bytes) (doSession : Bool) : Prop :=
  (cstr password).length < dbPasswordMax ∨
    (cstr password).length = dbPasswordMax ∧ doSession = false ∨
    (cstr password).length = dbPasswordMax + 1 ∧ doSession = true ∧
      (cstr password).getLast? = some 1

/-- The registered password is what a login with another password leaves in the field. A password
that fills it is cut, and `do_session` follows. -/
def FieldMeets (registered password : Bytes) (doSession : Bool) : Prop :=
  (cstr password).length < dbPasswordMax ∧ cstr registered = cstr password ∨
    dbPasswordMax ≤ (cstr password).length ∧
      cstr registered = (cstr password).take dbPasswordMax ++ if doSession then [1] else []

theorem passwordStr_of_lt {password : Bytes} (h : (cstr password).length < dbPasswordMax)
    (doSession : Bool) : (serverClientLogin password doSession).passwordStr = cstr password := by
  have ht : (cstr password).take dbPasswordMax = cstr password := List.take_of_length_le (by omega)
  rw [UserLoginParam.passwordStr, serverClientLogin, ht, runOn_of_lt h]

theorem passwordStr_of_le {password : Bytes} (h : dbPasswordMax ≤ (cstr password).length)
    (doSession : Bool) : (serverClientLogin password doSession).passwordStr =
      (cstr password).take dbPasswordMax ++ if doSession then [1] else [] := by
  rw [UserLoginParam.passwordStr, serverClientLogin, runOn, List.length_take, if_neg (by omega)]

theorem zero_notMem_passwordStr (password : Bytes) (doSession : Bool) :
    0 ∉ (serverClientLogin password doSession).passwordStr := by
  have hz := zero_notMem_cstr password
  obtain hl | hl := Nat.lt_or_ge (cstr password).length dbPasswordMax
  · rwa [passwordStr_of_lt hl]
  · rw [passwordStr_of_le hl, List.mem_append, not_or]
    refine ⟨fun h => hz (List.mem_of_mem_take h), ?_⟩
    cases doSession <;> simp

theorem passwordStr_eq_registered_iff (registered password : Bytes) (doSession : Bool) :
    (serverClientLogin password doSession).passwordStr = cstr registered ↔
      FieldMeets registered password doSession := by
  rw [eq_comm, FieldMeets]
  obtain hl | hl := Nat.lt_or_ge (cstr password).length dbPasswordMax
  · simp [passwordStr_of_lt hl, hl, Nat.not_le.mpr hl]
  · simp [passwordStr_of_le hl, hl, Nat.not_lt.mpr hl]

theorem append_singleton_eq_iff {s : Bytes} {n : Nat} (h : n ≤ s.length) (c : UInt8) :
    s.take n ++ [c] = s ↔ s.length = n + 1 ∧ s.getLast? = some c := by
  constructor
  · intro hs
    have hl := congrArg List.length hs
    rw [List.length_append, List.length_take, List.length_singleton] at hl
    refine ⟨by omega, ?_⟩
    rw [← hs, List.getLast?_append, List.getLast?_singleton, Option.some_or]
  · rintro ⟨hl, hc⟩
    obtain ⟨t, rfl⟩ := List.getLast?_eq_some_iff.mp hc
    have ht : t.length = n := by simpa using hl
    rw [List.take_left' ht]

theorem passwordStr_eq_iff (password : Bytes) (doSession : Bool) :
    (serverClientLogin password doSession).passwordStr = cstr password ↔
      FieldKeeps password doSession := by
  rw [FieldKeeps]
  obtain hl | hl := Nat.lt_or_ge (cstr password).length dbPasswordMax
  · simp [passwordStr_of_lt hl, hl]
  · rw [passwordStr_of_le hl]
    cases doSession with
    | false =>
        rw [if_neg Bool.false_ne_true, List.append_nil, List.take_eq_self_iff]
        constructor
        · intro h
          exact Or.inr (Or.inl ⟨by omega, rfl⟩)
        · rintro (h | h | h)
          · omega
          · omega
          · simp at h
    | true =>
        rw [if_pos rfl, append_singleton_eq_iff hl]
        constructor
        · rintro ⟨h, hc⟩
          exact Or.inr (Or.inr ⟨h, rfl, hc⟩)
        · rintro (h | h | h)
          · omega
          · simp at h
          · exact ⟨h.1, h.2.2⟩

theorem doClientLogin_iff {sha512 : Salt → Bytes → Hash}
    (hinj : ∀ salt s t, 0 ∉ s → 0 ∉ t → sha512 salt s = sha512 salt t → s = t)
    (r : Registration Salt) (q : Bytes) (doSession : Bool) :
    doClientLogin sha512 r.salt (serverClientRegister sha512 r).hash
      (serverClientLogin q doSession) = true ↔
    (serverClientLogin q doSession).passwordStr = cstr r.password := by
  rw [doClientLogin, decide_eq_true_eq, serverClientRegister]
  constructor
  · intro h
    exact (hinj _ _ _ (zero_notMem_cstr _) (zero_notMem_passwordStr _ _) h).symm
  · intro h
    rw [h]

/-- A login with the registered password agrees with the registration if and only if the field
keeps the password, and any other if and only if what it leaves there is not the registered
password. -/
theorem login_agrees_iff {sha512 : Salt → Bytes → Hash}
    (hinj : ∀ salt s t, 0 ∉ s → 0 ∉ t → sha512 salt s = sha512 salt t → s = t)
    (r : Registration Salt) (q : Bytes) (doSession : Bool) :
    (doClientLogin sha512 r.salt (serverClientRegister sha512 r).hash
      (serverClientLogin q doSession) = true ↔ q = r.password) ↔
    (q = r.password → FieldKeeps q doSession) ∧
      (q ≠ r.password → ¬ FieldMeets r.password q doSession) := by
  rw [doClientLogin_iff hinj, ← passwordStr_eq_registered_iff, ← passwordStr_eq_iff]
  by_cases hq : q = r.password
  · simp [hq]
  · simp [hq]

theorem login_agrees_iff_short :
    (doClientLogin Prod.mk () (serverClientRegister Prod.mk ⟨[97], [97], [112, 119], ()⟩).hash
      (serverClientLogin [112, 119] true) = true ↔ [112, 119] = ([112, 119] : Bytes)) ↔
    (([112, 119] : Bytes) = [112, 119] → FieldKeeps [112, 119] true) ∧
      (([112, 119] : Bytes) ≠ [112, 119] → ¬ FieldMeets [112, 119] [112, 119] true) := by
  have hinj : ∀ (salt : Unit) (s t : Bytes), 0 ∉ s → 0 ∉ t → (salt, s) = (salt, t) → s = t := by
    intro salt s t _ _ h
    exact (Prod.mk.inj h).2
  exact login_agrees_iff hinj ⟨[97], [97], [112, 119], ()⟩ [112, 119] true

/-- A login with a session is refused for a password of exactly 50 bytes. -/
theorem full_field_refused :
    ¬ (doClientLogin Prod.mk ()
      (serverClientRegister Prod.mk ⟨[97], [97], List.replicate 50 112, ()⟩).hash
      (serverClientLogin (List.replicate 50 112) true) = true ↔
    List.replicate 50 112 = List.replicate 50 (112 : UInt8)) := by decide +kernel

end ChityChat.PasswordLogin
