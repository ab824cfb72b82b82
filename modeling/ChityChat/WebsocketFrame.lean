import ChityChat.ServerWebsocket

namespace ChityChat.WebsocketFrame

open ByteMemory ServerWebsocket

/-- A frame of a client in the 7-bit or the 16-bit form. `first` holds the final bit, the reserved
bits and the opcode; the 16-bit form is open to every length that fits. -/
structure ClientFrame where
  first : UInt8
  extended : Bool
  maskkey : Option (Fin 4 → UInt8)
  payload : List UInt8
  fits : payload.length < if extended then 2 ^ 16 else 126

namespace ClientFrame

variable (f : ClientFrame)

def opcode : Nat := f.first.toNat % 16

def lengthBits : Nat := if f.extended then 126 else f.payload.length

def second : UInt8 := UInt8.ofNat (f.lengthBits + if f.maskkey.isSome then 128 else 0)

def extension : List UInt8 :=
  if f.extended then [UInt8.ofNat (f.payload.length / 256), UInt8.ofNat (f.payload.length % 256)]
    else []

def keyBytes : List UInt8 := f.maskkey.elim [] List.ofFn

def keyAt (i : Nat) : UInt8 := f.maskkey.elim 0 (fun key => key ⟨i % 4, Nat.mod_lt _ (by decide)⟩)

def body : List UInt8 := f.payload.mapIdx (fun i b => b ^^^ f.keyAt i)

def head : List UInt8 := f.first :: f.second :: (f.extension ++ f.keyBytes)

def encode : List UInt8 := f.head ++ f.body

theorem body_length : f.body.length = f.payload.length := List.length_mapIdx

theorem extension_length : f.extension.length = if f.extended then 2 else 0 := by
  rw [extension]
  split <;> rfl

theorem keyBytes_length : f.keyBytes.length = if f.maskkey.isSome then wsMaskkeyLen else 0 := by
  cases h : f.maskkey <;> simp [keyBytes, h, wsMaskkeyLen]

theorem head_length : f.head.length = 2 + f.extension.length + f.keyBytes.length := by
  simp only [head, List.length_cons, List.length_append]
  omega

theorem encode_length : f.encode.length = f.head.length + f.payload.length := by
  rw [encode, List.length_append, body_length]

theorem encode_pos : 0 < f.encode.length := by
  rw [encode_length, head_length]
  omega

theorem lengthBits_lt : f.lengthBits < 127 := by
  have h := f.fits
  rw [lengthBits]
  cases hx : f.extended with
  | false => simp only [hx, Bool.false_eq_true, if_false] at h ⊢; omega
  | true => simp

theorem lengthBits_eq_126 : f.lengthBits = 126 ↔ f.extended = true := by
  have h := f.fits
  rw [lengthBits]
  cases hx : f.extended with
  | false => simp only [hx, Bool.false_eq_true, if_false, iff_false] at h ⊢; omega
  | true => simp

theorem second_toNat : f.second.toNat = f.lengthBits + if f.maskkey.isSome then 128 else 0 := by
  have h := f.lengthBits_lt
  have hlt : (f.lengthBits + if f.maskkey.isSome then 128 else 0) < 2 ^ 8 := by split <;> omega
  simpa only [second] using UInt8.toNat_ofNat_of_lt' hlt

end ClientFrame

variable {m : Memory UInt8} {f : ClientFrame} {pos n : Nat}

theorem wsFrame_holds (h0 : m pos = f.first) (h1 : m (pos + 1) = f.second) :
    wsFrame m pos = ⟨f.opcode, f.lengthBits, f.maskkey.isSome⟩ := by
  have hlt := f.lengthBits_lt
  have hmod : f.second.toNat % 128 = f.lengthBits := by
    rw [f.second_toNat]
    split <;> omega
  have hmask : decide (128 ≤ f.second.toNat) = f.maskkey.isSome := by
    rw [f.second_toNat]
    cases f.maskkey <;> simp
    omega
  rw [wsFrame, h0, h1, hmod, hmask]
  rfl

theorem parseCheckOffset_holds (h : wsFrame m pos = ⟨f.opcode, f.lengthBits, f.maskkey.isSome⟩) :
    parseCheckOffset (wsFrame m pos) wsFrameSize = f.head.length := by
  have h127 : f.lengthBits ≠ 127 := by have := f.lengthBits_lt; omega
  rw [f.head_length, f.extension_length, f.keyBytes_length, h]
  simp only [parseCheckOffset, f.lengthBits_eq_126, h127, if_false, wsFrameSize]

theorem wsPayloadLen_holds (h : wsFrame m pos = ⟨f.opcode, f.lengthBits, f.maskkey.isSome⟩)
    (hext : Holds m (pos + 2) f.extension) :
    wsPayloadLen (wsFrame m pos) m pos = f.payload.length := by
  have h127 : f.lengthBits ≠ 127 := by have := f.lengthBits_lt; omega
  have hfits := f.fits
  rw [h]
  simp only [wsPayloadLen, f.lengthBits_eq_126, h127, if_false]
  cases he : f.extended with
  | false => simp [ClientFrame.lengthBits, he]
  | true =>
      simp only [ClientFrame.extension, he, if_true, holds_cons] at hext hfits
      obtain ⟨h2, h3, -⟩ := hext
      have hlo : f.payload.length / 256 < 2 ^ 8 := by omega
      have hhi : f.payload.length % 256 < 2 ^ 8 := by omega
      rw [if_pos rfl, h2, h3, UInt8.toNat_ofNat_of_lt' hlo, UInt8.toNat_ofNat_of_lt' hhi]
      omega

theorem unmask_holds (h : wsFrame m pos = ⟨f.opcode, f.lengthBits, f.maskkey.isSome⟩)
    (hm : Holds m pos f.encode) :
    Holds (unmask (wsFrame m pos) m pos f.head.length f.payload.length)
    (pos + f.head.length) f.payload := by
  intro i b hb
  obtain ⟨hi, -⟩ := List.getElem?_eq_some_iff.mp hb
  obtain ⟨hhead, hbody⟩ := holds_append.mp hm
  have hcell : m (pos + f.head.length + i) = b ^^^ f.keyAt i := by
    apply hbody
    simp [ClientFrame.body, List.getElem?_mapIdx, hb]
  cases hk : f.maskkey with
  | none => simpa [unmask, h, hk, ClientFrame.keyAt] using hcell
  | some key =>
      have hlen := f.head_length
      have hkl : f.keyBytes.length = 4 := by simp [f.keyBytes_length, hk, wsMaskkeyLen]
      have hkey : Holds m (pos + (f.head.length - 4)) (List.ofFn key) := by
        have := (holds_append.mp (holds_cons.mp (holds_cons.mp hhead).2).2).2
        rw [show pos + 1 + 1 + f.extension.length = pos + (f.head.length - 4) by omega] at this
        simpa only [ClientFrame.keyBytes, hk, Option.elim_some] using this
      have hmod : m (pos + (f.head.length - 4) + i % 4) = f.keyAt i := by
        have hlt : i % 4 < 4 := Nat.mod_lt _ (by decide)
        apply hkey
        simp only [List.getElem?_ofFn, hlt, dif_pos, ClientFrame.keyAt, hk, Option.elim_some]
      simp only [unmask, h, hk, Option.isSome_some, if_true, mask, wsMaskkeyLen]
      rw [if_pos (by omega), Nat.add_sub_cancel_left, hcell, hmod, UInt8.xor_assoc, UInt8.xor_self,
        UInt8.xor_zero]

theorem unmask_outside (ws : WsFrame) (m : Memory UInt8) (pos offset len : Nat) {i : Nat}
    (hi : i < pos + offset ∨ pos + offset + len ≤ i) : unmask ws m pos offset len i = m i := by
  rw [unmask]
  split
  · exact if_neg (by omega)
  · rfl

theorem partial_totalSize (hm : Holds m pos (f.encode.take n)) (h0 : 0 < n)
    (hn : n < f.encode.length) :
    n < wsPayloadLen (wsFrame m pos) m pos + parseCheckOffset (wsFrame m pos) wsFrameSize := by
  have hmin : 2 ≤ parseCheckOffset (wsFrame m pos) wsFrameSize := by
    simp only [parseCheckOffset, wsFrameSize]
    omega
  rcases Nat.lt_or_ge n 2 with h2 | h2
  · omega
  · have htake : f.encode.take n = f.first :: f.second :: (f.extension ++ f.keyBytes ++ f.body).take
        (n - 2) := by
      obtain ⟨k, rfl⟩ := Nat.exists_eq_add_of_le' h2
      rfl
    rw [htake, holds_cons, holds_cons] at hm
    have hw := wsFrame_holds hm.1 hm.2.1
    rw [parseCheckOffset_holds hw]
    rcases Nat.lt_or_ge n f.head.length with hh | hh
    · omega
    · have hext : Holds m (pos + 2) f.extension := by
        rw [f.head_length] at hh
        have := hm.2.2
        rw [List.append_assoc, List.take_append, List.take_of_length_le (by omega)] at this
        exact (holds_append.mp this).1
      rw [wsPayloadLen_holds hw hext]
      rw [f.encode_length] at hn
      omega

end ChityChat.WebsocketFrame
