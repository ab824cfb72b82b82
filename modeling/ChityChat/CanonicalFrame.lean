import ChityChat.WebsocketSend

namespace ChityChat.CanonicalFrame

open WebsocketSend

inductive LengthForm
  | seven
  | sixteen
  | sixtyFour
  deriving DecidableEq

namespace LengthForm

def limit : LengthForm → Nat
  | seven => 126
  | sixteen => 2 ^ 16
  | sixtyFour => 2 ^ 64

def bytes : LengthForm → Nat
  | seven => 0
  | sixteen => 2
  | sixtyFour => 8

def bits (len : Nat) : LengthForm → BitVec 7
  | seven => BitVec.ofNat 7 len
  | sixteen => 126
  | sixtyFour => 127

end LengthForm

def Shortest (form : LengthForm) (len : Nat) : Prop :=
  len < form.limit ∧ ∀ other : LengthForm, len < other.limit → form.bytes ≤ other.bytes

def bigEndian (n len : Nat) : List UInt8 :=
  (List.range n).map (fun i => UInt8.ofNat (len / 256 ^ (n - 1 - i)))

def firstByte (opcode : BitVec 4) : UInt8 := ⟨1#1 ++ 0#3 ++ opcode⟩

def secondByte (masked : Bool) (bits : BitVec 7) : UInt8 := ⟨BitVec.ofBool masked ++ bits⟩

def xorKey (payload : List UInt8) (key : Fin 4 → UInt8) : List UInt8 :=
  List.zipWith (· ^^^ ·) payload ((List.range payload.length).map (fun i => key (Fin.ofNat 4 i)))

def frame (form : LengthForm) (opcode : BitVec 4) (payload : List UInt8)
    (maskkey : Option (Fin 4 → UInt8)) : List UInt8 :=
  firstByte opcode :: secondByte maskkey.isSome (form.bits payload.length) ::
    (bigEndian form.bytes payload.length ++
      maskkey.elim payload (fun key => List.ofFn key ++ xorKey payload key))

def Canonical (bytes : List UInt8) (opcode : BitVec 4) (payload : List UInt8)
    (maskkey : Option (Fin 4 → UInt8)) : Prop :=
  ∃ form, Shortest form payload.length ∧ bytes = frame form opcode payload maskkey

def formOf (len : Nat) : LengthForm :=
  if len < 126 then .seven else if len < uint16Max then .sixteen else .sixtyFour

theorem shortest_formOf_iff {len : Nat} (hlen : len < 2 ^ 64) :
    Shortest (formOf len) len ↔ len ≠ 65535 := by
  constructor
  · rintro ⟨-, h⟩ rfl
    exact absurd (h .sixteen (by decide)) (by decide)
  · intro hne
    rw [formOf, uint16Max]
    split_ifs with h7 h16
    · exact ⟨h7, fun other _ => Nat.zero_le _⟩
    · refine ⟨Nat.lt_trans h16 (by decide), ?_⟩
      intro other hother
      cases other with
      | seven => exact absurd hother h7
      | sixteen => exact Nat.le_refl _
      | sixtyFour => decide
    · refine ⟨hlen, ?_⟩
      intro other hother
      cases other with
      | seven => exact absurd hother h7
      | sixteen =>
          simp only [LengthForm.limit] at hother
          omega
      | sixtyFour => exact Nat.le_refl _

theorem frameBytes_eq (opcode : UInt8) (n : Nat) (masked : Bool) :
    frameBytes opcode n masked =
      [firstByte (BitVec.ofNat 4 opcode.toNat), secondByte masked (BitVec.ofNat 7 n)] := by
  have hfirst : ∀ op : BitVec 4, UInt8.ofNat (op.toNat % 16 + 128) = firstByte op := by decide
  have hsecond : ∀ (m : Bool) (bits : BitVec 7),
      UInt8.ofNat (bits.toNat + if m then 128 else 0) = secondByte m bits := by
    decide +kernel
  have hmod : opcode.toNat % 2 ^ 4 % 16 = opcode.toNat % 16 := by omega
  rw [frameBytes, ← hfirst, ← hsecond, BitVec.toNat_ofNat, BitVec.toNat_ofNat, hmod]

theorem maskBuf_eq (payload : List UInt8) (key : Fin 4 → UInt8) :
    maskBuf payload key = xorKey payload key := by
  apply List.ext_getElem
  · simp [maskBuf, xorKey]
  · intro i h1 h2
    simp [maskBuf, xorKey, Fin.ofNat]

theorem swpcpy_eight (len : Nat) : swpcpy (sizeBytes len) 8 = bigEndian 8 len := by
  simp [swpcpy, sizeBytes, bigEndian, List.range_succ]

theorem wsSendAdv_eq_frame (opcode : UInt8) (payload : List UInt8)
    (maskkey : Option (Fin 4 → UInt8)) :
    wsSendAdv opcode payload maskkey =
      frame (formOf payload.length) (BitVec.ofNat 4 opcode.toNat) payload maskkey := by
  have htail : combineBuffers (maskkey.elim [payload] (fun key => [List.ofFn key,
      maskBuf payload key])) =
      maskkey.elim payload (fun key => List.ofFn key ++ xorKey payload key) := by
    cases maskkey <;> simp [combineBuffers, maskBuf_eq]
  have hsplit (front ext tail : List (List UInt8)) : combineBuffers (front ++ ext ++ tail) =
      combineBuffers front ++ (combineBuffers ext ++ combineBuffers tail) := by
    simp [combineBuffers]
  simp only [wsSendAdv, hsplit, htail, frameBytes_eq, decide_eq_true_eq]
  rw [frame, formOf]
  by_cases h7 : payload.length < 126
  · have hshort : ¬ 126 ≤ payload.length := by omega
    simp [h7, hshort, combineBuffers, LengthForm.bits, LengthForm.bytes, bigEndian]
  · have hlong : 126 ≤ payload.length := by omega
    by_cases h16 : payload.length < uint16Max
    · have hnot : ¬ uint16Max ≤ payload.length := by omega
      simp [h7, hlong, h16, hnot, combineBuffers, LengthForm.bits, LengthForm.bytes, bigEndian,
        swpcpy_two, List.range_succ]
    · have hle : uint16Max ≤ payload.length := by omega
      simp [h7, hlong, h16, hle, combineBuffers, LengthForm.bits, LengthForm.bytes, swpcpy_eight]

theorem frame_form {form : LengthForm} {opcode : BitVec 4} {payload : List UInt8}
    {maskkey : Option (Fin 4 → UInt8)} (hform : Shortest form payload.length)
    (h : frame (formOf payload.length) opcode payload maskkey =
      frame form opcode payload maskkey) : form = formOf payload.length := by
  have hlow (m : Bool) (bits : BitVec 7) : (secondByte m bits).toBitVec.setWidth 7 = bits :=
    BitVec.setWidth_append_eq_right
  have hsecond := congrArg (fun c : UInt8 => c.toBitVec.setWidth 7)
    (List.cons.inj (List.cons.inj h).2).1
  have hbits := (hlow _ _).symm.trans (hsecond.trans (hlow _ _))
  have hlt := hform.1
  have hseven (n : Nat) (hn : n < 126) (k : Nat) (hk : 126 ≤ k ∧ k < 128) :
      BitVec.ofNat 7 n ≠ BitVec.ofNat 7 k := by
    intro he
    have := congrArg BitVec.toNat he
    simp only [BitVec.toNat_ofNat] at this
    omega
  rw [formOf] at hbits ⊢
  by_cases h7 : payload.length < 126
  · rw [if_pos h7] at hbits ⊢
    cases form with
    | seven => rfl
    | sixteen => exact absurd hbits (hseven _ h7 126 (by decide))
    | sixtyFour => exact absurd hbits (hseven _ h7 127 (by decide))
  · rw [if_neg h7] at hbits ⊢
    by_cases h16 : payload.length < uint16Max
    · rw [if_pos h16] at hbits ⊢
      cases form with
      | seven => exact absurd hlt h7
      | sixteen => rfl
      | sixtyFour => exact absurd hbits (show (126 : BitVec 7) ≠ 127 by decide)
    · rw [if_neg h16] at hbits ⊢
      cases form with
      | seven => exact absurd hlt h7
      | sixteen => exact absurd hbits (show (127 : BitVec 7) ≠ 126 by decide)
      | sixtyFour => rfl

theorem canonical_iff_shortest {opcode : UInt8} {payload : List UInt8}
    {maskkey : Option (Fin 4 → UInt8)} :
    Canonical (wsSendAdv opcode payload maskkey) (BitVec.ofNat 4 opcode.toNat) payload maskkey ↔
      Shortest (formOf payload.length) payload.length := by
  rw [wsSendAdv_eq_frame opcode payload maskkey]
  constructor
  · rintro ⟨form, hform, he⟩
    exact frame_form hform he ▸ hform
  · exact fun h => ⟨_, h, rfl⟩

/-- The frames that are sent, with the low four bits of the opcode, are canonical, except that
65535 bytes are sent in the 64-bit form. -/
theorem wsSendAdv_canonical_iff (opcode : UInt8) (payload : List UInt8)
    (maskkey : Option (Fin 4 → UInt8)) (hlen : payload.length < 2 ^ 64) :
    Canonical (wsSendAdv opcode payload maskkey) (BitVec.ofNat 4 opcode.toNat) payload maskkey ↔
      payload.length ≠ 65535 :=
  canonical_iff_shortest.trans (shortest_formOf_iff hlen)

theorem wsSendAdv_canonical_masked :
    Canonical (wsSendAdv 1 [104, 105] (some (fun i => [1, 2, 3, 4].get i)))
      (BitVec.ofNat 4 (1 : UInt8).toNat) [104, 105] (some (fun i => [1, 2, 3, 4].get i)) :=
  (wsSendAdv_canonical_iff 1 [104, 105] _ (by decide)).mpr (by decide)

theorem longest_sixteen_not_canonical :
    ¬ Canonical (wsSendAdv 1 (List.replicate 65535 97) none) (BitVec.ofNat 4 (1 : UInt8).toNat)
      (List.replicate 65535 97) none := by
  rw [canonical_iff_shortest, List.length_replicate, shortest_formOf_iff (by decide)]
  exact fun h => h rfl

end ChityChat.CanonicalFrame
