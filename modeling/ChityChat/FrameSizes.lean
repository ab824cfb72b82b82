import ChityChat.WebsocketFrame

namespace ChityChat.FrameSizes

open ByteMemory ServerWebsocket WebsocketFrame

variable {f : ClientFrame} {m m' : Memory UInt8}

def totalSize (m : Memory UInt8) : Nat :=
  wsPayloadLen (wsFrame m 0) m 0 + parseCheckOffset (wsFrame m 0) wsFrameSize

def sizeBytes (f : ClientFrame) : List UInt8 := f.first :: f.second :: f.extension

def frameMem (f : ClientFrame) : Memory UInt8 := fun i => f.encode.getD i 0

theorem holds_frameMem (f : ClientFrame) : Holds (frameMem f) 0 f.encode := by
  intro i b hb
  simp [frameMem, hb]

theorem encode_sizeBytes (f : ClientFrame) :
    f.encode = sizeBytes f ++ (f.keyBytes ++ f.body) := by
  simp [ClientFrame.encode, ClientFrame.head, sizeBytes]

theorem sizeBytes_length (f : ClientFrame) :
    (sizeBytes f).length = if f.extended then 4 else 2 := by
  simp only [sizeBytes, List.length_cons, f.extension_length]
  split <;> rfl

theorem sizeBytes_le (f : ClientFrame) : (sizeBytes f).length ≤ f.encode.length := by
  rw [encode_sizeBytes, List.length_append]
  omega

theorem holds_sizeBytes (h : ∀ i, i < (sizeBytes f).length → m i = frameMem f i) :
    Holds m 0 (sizeBytes f) := by
  have hf : Holds (frameMem f) 0 (sizeBytes f) :=
    (holds_append.mp (encode_sizeBytes f ▸ holds_frameMem f)).1
  refine holds_congr hf ?_
  intro i hi
  rw [Nat.zero_add, h i hi]

theorem totalSize_known (h : Holds m 0 (sizeBytes f)) : totalSize m = f.encode.length := by
  obtain ⟨h0, h1, hext⟩ := by simpa only [sizeBytes, holds_cons] using h
  have hw := wsFrame_holds h0 h1
  rw [totalSize, parseCheckOffset_holds hw, wsPayloadLen_holds hw hext, f.encode_length,
    Nat.add_comm]

theorem totalSize_of_zero (h1 : m 1 = 0) : totalSize m = 2 := by
  have hw : (wsFrame m 0).payloadLen = 0 ∧ (wsFrame m 0).mask = false := by
    simp [wsFrame, h1]
  simp [totalSize, wsPayloadLen, parseCheckOffset, hw, wsFrameSize]

theorem frameMem_extension (hext : f.extended = true) :
    (frameMem f 2).toNat = f.payload.length / 256 ∧
      (frameMem f 3).toNat = f.payload.length % 256 := by
  have hfits : f.payload.length < 2 ^ 16 := by simpa [hext] using f.fits
  have hlist : f.extension = [UInt8.ofNat (f.payload.length / 256),
      UInt8.ofNat (f.payload.length % 256)] := by
    simp [ClientFrame.extension, hext]
  have h2 : frameMem f 2 = UInt8.ofNat (f.payload.length / 256) := by
    simp [frameMem, ClientFrame.encode, ClientFrame.head, hlist]
  have h3 : frameMem f 3 = UInt8.ofNat (f.payload.length % 256) := by
    simp [frameMem, ClientFrame.encode, ClientFrame.head, hlist]
  rw [h2, h3]
  exact ⟨UInt8.toNat_ofNat_of_lt' (show f.payload.length / 256 < 2 ^ 8 by omega),
    UInt8.toNat_ofNat_of_lt' (show f.payload.length % 256 < 2 ^ 8 by omega)⟩

theorem totalSize_le (h : ∀ i, i < 4 → m i = 0 ∨ m i = frameMem f i) (h0 : m 0 = frameMem f 0) :
    totalSize m ≤ f.encode.length := by
  have hlen := f.encode_length
  have hhead := f.head_length
  rcases h 1 (by decide) with h1 | h1
  · rw [totalSize_of_zero h1]
    omega
  · have hw : wsFrame m 0 = ⟨f.opcode, f.lengthBits, f.maskkey.isSome⟩ := wsFrame_holds h0 h1
    cases hext : f.extended with
    | false =>
        have hsize : (sizeBytes f).length = 2 := by simp [sizeBytes_length, hext]
        have hknown : Holds m 0 (sizeBytes f) := by
          apply holds_sizeBytes
          intro i hi
          obtain rfl | rfl : i = 0 ∨ i = 1 := by omega
          · exact h0
          · exact h1
        exact Nat.le_of_eq (totalSize_known hknown)
    | true =>
        have hcell (i : Nat) (hi : i < 4) : (m i).toNat ≤ (frameMem f i).toNat := by
          rcases h i hi with hz | ht
          · simp [hz]
          · exact Nat.le_of_eq (by rw [ht])
        have h2 := hcell 2 (by decide)
        have h3 := hcell 3 (by decide)
        have hbits : (wsFrame m 0).payloadLen = 126 := by
          rw [hw]
          exact f.lengthBits_eq_126.mpr hext
        rw [(frameMem_extension hext).1] at h2
        rw [(frameMem_extension hext).2] at h3
        rw [totalSize, parseCheckOffset_holds hw, wsPayloadLen, if_pos hbits]
        simp only [Nat.zero_add]
        omega

theorem totalSize_congr (h : ∀ i, i < 4 → m i = m' i) : totalSize m = totalSize m' := by
  simp only [totalSize, wsFrame, wsPayloadLen, Nat.zero_add, h 0 (by decide), h 1 (by decide),
    h 2 (by decide), h 3 (by decide)]

theorem le_totalSize (hext : f.extended = true) (h0 : m 0 = frameMem f 0)
    (h1 : m 1 = frameMem f 1) : 4 ≤ totalSize m := by
  have hhead := f.head_length
  have hx : f.extension.length = 2 := by simp [f.extension_length, hext]
  rw [totalSize, parseCheckOffset_holds (wsFrame_holds h0 h1)]
  omega

/-- Two buffers that received the same `got` bytes of a frame. The second one grows into the bytes of
the frame itself. Either the size of the frame is known from it, or both blocks have one size, and
zeros where the rest of the header goes. -/
inductive Twins (f : ClientFrame) (got block : Nat) (data : Memory UInt8) (block' : Nat)
    (data' : Memory UInt8) : Prop
  | known (size : block' = f.encode.length) (held : Holds data' 0 (sizeBytes f))
  | same (size : block = block') (room : block = 2 ∨ 4 ≤ block)
    (zeros : ∀ i, got ≤ i → i < 4 → i < block → data i = 0 ∧ data' i = 0)

variable {got got' block block' : Nat} {data data' : Memory UInt8}

theorem keep_of_lt (m m' : Memory UInt8) {n i : Nat} (h : i < n) : keep n m m' i = m i := if_pos h

theorem Twins.of_held (hm : Holds m' 0 (sizeBytes f)) (grown : Memory UInt8)
    (hkeep : ∀ i, i < (sizeBytes f).length → block' ≤ i → frameMem f i = m' i) :
    Twins f got (totalSize m) (keep (min block (totalSize m)) m grown) (totalSize m')
      (keep (min block' (totalSize m')) m' (frameMem f)) ∧
    totalSize m' ≤ f.encode.length := by
  have htotal := totalSize_known hm
  have hle := sizeBytes_le f
  refine ⟨.known htotal ?_, Nat.le_of_eq htotal⟩
  refine holds_congr hm ?_
  intro i hi
  rw [Nat.zero_add, keep]
  split
  · rfl
  · exact hkeep i hi (by omega)

/-- The bytes up to `got` are those of the frame, and behind them is what was in the blocks. Behind
the second block is the frame itself. -/
structure Arrived (f : ClientFrame) (got block : Nat) (data : Memory UInt8) (block' : Nat)
    (data' m m' : Memory UInt8) : Prop where
  first : ∀ i, i < got → m i = frameMem f i
  second : ∀ i, i < got → m' i = frameMem f i
  kept : ∀ i, got ≤ i → i < block → m i = data i
  kept' : ∀ i, got ≤ i → m' i = if i < block' then data' i else frameMem f i

theorem Arrived.held (h : Arrived f got block data block' data' m m')
    (hblock : block' = f.encode.length) (hheld : Holds data' 0 (sizeBytes f)) :
    Holds m' 0 (sizeBytes f) := by
  have hle := sizeBytes_le f
  apply holds_sizeBytes
  intro i hi
  by_cases hlt : i < got
  · exact h.second i hlt
  · rw [h.kept' i (by omega), if_pos (by omega)]
    have hf := (holds_append.mp (encode_sizeBytes f ▸ holds_frameMem f)).1
    have hb := List.getElem?_eq_getElem hi
    rw [← Nat.zero_add i, hheld i _ hb, hf i _ hb]

theorem Arrived.beyond (h : Arrived f got block data block' data' m m') {i : Nat}
    (hi : got ≤ i → block' ≤ i) : m' i = frameMem f i := by
  by_cases hlt : i < got
  · exact h.second i hlt
  · have hge := hi (by omega)
    rw [h.kept' i (by omega), if_neg (by omega)]

theorem Arrived.zeros (h : Arrived f got' block data block data' m m') (hgot : got ≤ got')
    (hzeros : ∀ i, got ≤ i → i < 4 → i < block → data i = 0 ∧ data' i = 0) {i : Nat}
    (hi : got' ≤ i) (hfour : i < 4) (hlt : i < block) : m i = 0 ∧ m' i = 0 := by
  have hz := hzeros i (by omega) hfour hlt
  exact ⟨(h.kept i hi hlt).trans hz.1, by rw [h.kept' i hi, if_pos hlt, hz.2]⟩

theorem Arrived.cells (h : Arrived f got' block data block data' m m') (hgot : got ≤ got')
    (hzeros : ∀ i, got ≤ i → i < 4 → i < block → data i = 0 ∧ data' i = 0) (hbig : 4 ≤ block)
    {i : Nat} (hi : i < 4) : m i = m' i ∧ (m' i = 0 ∨ m' i = frameMem f i) := by
  by_cases hlt : i < got'
  · exact ⟨(h.first i hlt).trans (h.second i hlt).symm, .inr (h.second i hlt)⟩
  · obtain ⟨hz, hz'⟩ := h.zeros hgot hzeros (by omega) hi (by omega)
    exact ⟨hz.trans hz'.symm, .inl hz'⟩

theorem Twins.step (h : Twins f got block data block' data') (grown : Memory UInt8)
    (hgot : got ≤ got') (hpos : 0 < got') (htwo : block = 2 → 2 ≤ got')
    (hcame : Arrived f got' block data block' data' m m') :
    Twins f got' (totalSize m) (keep (min block (totalSize m)) m grown) (totalSize m')
      (keep (min block' (totalSize m')) m' (frameMem f)) ∧
    totalSize m' ≤ f.encode.length := by
  have hsize := sizeBytes_length f
  have hle := sizeBytes_le f
  cases h with
  | known hblock hheld =>
      exact Twins.of_held (hcame.held hblock hheld) grown (fun i hi hb => by omega)
  | same hblock hroom hzeros =>
      subst hblock
      have hkept (m₁ : Memory UInt8) {n i : Nat} (hi : m₁ i = 0) (hlt : i < n)
          (hb : i < block) (m₂ : Memory UInt8) : keep (min block n) m₁ m₂ i = 0 :=
        (keep_of_lt _ _ (Nat.lt_min.mpr ⟨hb, hlt⟩)).trans hi
      by_cases hone : got' < 2
      · -- Only one byte came: the length byte is still zero.
        have hbig : 4 ≤ block := hroom.resolve_left (fun he => by have := htwo he; omega)
        obtain ⟨h1, h1'⟩ := hcame.zeros hgot hzeros (i := 1) (by omega) (by decide) (by omega)
        rw [totalSize_of_zero h1, totalSize_of_zero h1']
        refine ⟨.same rfl (.inl rfl) ?_, by split at hsize <;> omega⟩
        intro i hi _ hlt
        obtain rfl : i = 1 := by omega
        exact ⟨hkept m h1 hlt (by omega) _, hkept m' h1' hlt (by omega) _⟩
      · cases hext : f.extended with
        | false =>
            rw [hext] at hsize
            simp only [Bool.false_eq_true, if_false] at hsize
            exact Twins.of_held (holds_sizeBytes (fun i hi => hcame.second i (by omega))) grown
              (fun i hi hb => (hcame.second i (by omega)).symm)
        | true =>
            rw [hext, if_pos rfl] at hsize
            rcases hroom with hsmall | hbig
            · have hall (i : Nat) : m' i = frameMem f i := hcame.beyond (fun hi => by omega)
              exact Twins.of_held (holds_sizeBytes (fun i _ => hall i)) grown
                (fun i _ _ => (hall i).symm)
            · have hcells (i : Nat) (hi : i < 4) := hcame.cells hgot hzeros hbig hi
              have htotal : totalSize m = totalSize m' :=
                totalSize_congr (fun i hi => (hcells i hi).1)
              have hfour : 4 ≤ totalSize m :=
                le_totalSize hext (hcame.first 0 hpos) (hcame.first 1 (by omega))
              refine ⟨.same htotal (.inr hfour) ?_,
                totalSize_le (fun i hi => (hcells i hi).2) (hcame.second 0 hpos)⟩
              intro i hi h4 hlt
              obtain ⟨hz, hz'⟩ := hcame.zeros hgot hzeros hi h4 (by omega)
              exact ⟨hkept m hz hlt (by omega) _, hkept m' hz' (by omega) (by omega) _⟩

end ChityChat.FrameSizes
