import ChityChat.WebsocketStream

namespace ChityChat.WebsocketSend

open ByteMemory ServerWebsocket WebsocketFrame WebsocketStream

variable (opcode : UInt8) (payload : List UInt8) (maskkey : Option (Fin 4 → UInt8))

def uint16Max : Nat := 65535

/-- A `size_t` in the memory of a little-endian host. -/
def sizeBytes (len : Nat) : List UInt8 := (List.range 8).map (fun k => UInt8.ofNat (len / 256 ^ k))

def swpcpy (src : List UInt8) (n : Nat) : List UInt8 := (src.take n).reverse

def combineBuffers (iov : List (List UInt8)) : List UInt8 := iov.flatten

/-- The two bytes of `ws_frame_t` with the final bit set: its fields have 4, 7 and 1 bits. -/
def frameBytes (opcode : UInt8) (payloadLen : Nat) (masked : Bool) : List UInt8 :=
  [UInt8.ofNat (opcode.toNat % 16 + 128),
    UInt8.ofNat (payloadLen % 128 + if masked then 128 else 0)]

theorem mod_four_lt (i : Nat) : i % 4 < 4 := Nat.mod_lt i (by decide)

def maskBuf (buf : List UInt8) (maskkey : Fin 4 → UInt8) : List UInt8 :=
  buf.mapIdx (fun i b => b ^^^ maskkey ⟨i % 4, mod_four_lt i⟩)

def wsSendAdv : List UInt8 :=
  let len := payload.length
  let long := decide (126 ≤ len)
  let payloadLen := if long then if uint16Max ≤ len then 127 else 126 else len
  let ext := if long then [swpcpy (sizeBytes len) (if uint16Max ≤ len then 8 else 2)] else []
  combineBuffers ([frameBytes opcode payloadLen maskkey.isSome] ++ ext ++
    maskkey.elim [payload] (fun key => [List.ofFn key, maskBuf payload key]))

/-- The parse of one complete buffer finds `payload` behind the header, and nothing behind it. -/
structure Recovers (textFrame : List Dispatch → RecvStatus) (grown : Memory UInt8) (client : Client)
    (buf bufLen opcode : Nat) (payload : List UInt8) : Prop where
  payloadLen : wsPayloadLen (wsFrame client.recv.data buf) client.recv.data buf = payload.length
  whole : payload.length + parseCheckOffset (wsFrame client.recv.data buf) wsFrameSize = bufLen
  fits : wsPayloadLen (wsFrame client.recv.data buf) client.recv.data buf +
    parseCheckOffset (wsFrame client.recv.data buf) wsFrameSize < 2 ^ 64
  dispatched : ∃ d, d.opcode = opcode ∧ d.payload = payload ∧
    (serverWsParse textFrame grown client buf bufLen).2.dispatched = client.dispatched ++ [d]

theorem swpcpy_two (len : Nat) :
    swpcpy (sizeBytes len) 2 = [UInt8.ofNat (len / 256), UInt8.ofNat len] := by
  simp [swpcpy, sizeBytes, List.range_succ]

def sent (h : payload.length < uint16Max) : ClientFrame where
  first := UInt8.ofNat (opcode.toNat % 16 + 128)
  extended := decide (126 ≤ payload.length)
  maskkey := maskkey
  payload := payload
  fits := by
    simp only [uint16Max] at h
    by_cases hl : 126 ≤ payload.length
    · simp only [hl, decide_true, if_true]
      omega
    · simp only [hl, decide_false, Bool.false_eq_true, if_false]
      omega

variable {opcode payload maskkey}

theorem sent_opcode (h : payload.length < uint16Max) :
    (sent opcode payload maskkey h).opcode = opcode.toNat % 16 := by
  have hlt : opcode.toNat % 16 + 128 < 2 ^ 8 := by omega
  simp only [ClientFrame.opcode, sent]
  rw [UInt8.toNat_ofNat_of_lt' hlt]
  omega

variable (opcode) in
theorem sent_body (h : payload.length < uint16Max) : (sent opcode payload maskkey h).keyBytes ++
    (sent opcode payload maskkey h).body =
    combineBuffers (maskkey.elim [payload] (fun key => [List.ofFn key, maskBuf payload key])) := by
  cases maskkey with
  | none =>
      have hid : payload.mapIdx (fun _ b => b) = payload := by simp [List.mapIdx_eq_zipIdx_map]
      simpa [combineBuffers, ClientFrame.keyBytes, ClientFrame.body, ClientFrame.keyAt, sent]
  | some key =>
      simp only [combineBuffers, ClientFrame.keyBytes, ClientFrame.body, ClientFrame.keyAt, sent,
        Option.elim_some, maskBuf, List.flatten_cons, List.flatten_nil, List.append_nil]

theorem sent_front (h : payload.length < uint16Max) :
    combineBuffers ([frameBytes opcode (sent opcode payload maskkey h).lengthBits maskkey.isSome] ++
      if 126 ≤ payload.length then [swpcpy (sizeBytes payload.length) 2] else []) =
    (sent opcode payload maskkey h).first :: (sent opcode payload maskkey h).second ::
      (sent opcode payload maskkey h).extension := by
  have hmod : (sent opcode payload maskkey h).lengthBits % 128 =
      (sent opcode payload maskkey h).lengthBits := by
    have := (sent opcode payload maskkey h).lengthBits_lt
    omega
  have hlow : UInt8.ofNat payload.length = UInt8.ofNat (payload.length % 256) := by
    apply UInt8.toNat_inj.mp
    simp
  simp only [frameBytes, hmod, swpcpy_two, combineBuffers, hlow, ClientFrame.extension,
    ClientFrame.second]
  by_cases hl : 126 ≤ payload.length <;> simp [sent, hl]

theorem wsSendAdv_eq_encode (h : payload.length < uint16Max) :
    wsSendAdv opcode payload maskkey = (sent opcode payload maskkey h).encode := by
  have hlong : ¬ uint16Max ≤ payload.length := by omega
  have hbits : (if 126 ≤ payload.length then 126 else payload.length) =
      (sent opcode payload maskkey h).lengthBits := by
    simp only [ClientFrame.lengthBits, sent, decide_eq_true_eq]
  have hsplit (as bs : List (List UInt8)) :
      combineBuffers (as ++ bs) = combineBuffers as ++ combineBuffers bs := List.flatten_append
  simp only [wsSendAdv, hlong, if_false, decide_eq_true_eq, hbits]
  rw [hsplit, sent_front h, ← sent_body opcode h]
  simp only [ClientFrame.encode, ClientFrame.head, List.cons_append, List.append_assoc]

theorem wsSendAdv_long (h : uint16Max ≤ payload.length) : ∃ tail, wsSendAdv opcode payload maskkey =
    frameBytes opcode 127 maskkey.isSome ++ tail := by
  have hlong : 126 ≤ payload.length := Nat.le_trans (by decide) h
  simp only [wsSendAdv, h, hlong, if_true, decide_true, combineBuffers, List.flatten_append,
    List.flatten_cons, List.flatten_nil, List.append_nil, List.append_assoc]
  exact ⟨_, rfl⟩

theorem wsPayloadLen_long {m : Memory UInt8} {buf : Nat} {masked : Bool} {tail : List UInt8}
    (h : Holds m buf (frameBytes opcode 127 masked ++ tail)) :
    wsPayloadLen (wsFrame m buf) m buf < 256 := by
  have h1 := (holds_cons.mp (holds_cons.mp (holds_append.mp h).1).2).1
  have hlen : (wsFrame m buf).payloadLen = 127 := by
    simp only [wsFrame, h1]
    cases masked <;> decide
  simp only [wsPayloadLen, hlen]
  exact UInt8.toNat_lt _

theorem not_recovers_of_long {textFrame : List Dispatch → RecvStatus} {grown : Memory UInt8}
    {client : Client} {buf bufLen : Nat} (h : uint16Max ≤ payload.length)
    (hm : Holds client.recv.data buf (wsSendAdv opcode payload maskkey)) (code : Nat) :
    ¬ Recovers textFrame grown client buf bufLen code payload := by
  intro hr
  obtain ⟨tail, htail⟩ : ∃ tail, wsSendAdv opcode payload maskkey =
    frameBytes opcode 127 maskkey.isSome ++ tail := wsSendAdv_long h
  have hlt := wsPayloadLen_long (htail ▸ hm)
  have heq := hr.payloadLen
  simp only [uint16Max] at h
  omega

/-- The parser undoes `ws_send_adv` on the 7-bit and the 16-bit form, and on no frame of the 64-bit
form, of whose length it reads one byte. -/
theorem wsSendAdv_recovers_iff (opcode : UInt8) (payload : List UInt8)
    (maskkey : Option (Fin 4 → UInt8)) (textFrame : List Dispatch → RecvStatus)
    (grown : Memory UInt8) (client : Client) (buf : Nat)
    (hm : Holds client.recv.data buf (wsSendAdv opcode payload maskkey)) :
    Recovers textFrame grown client buf (wsSendAdv opcode payload maskkey).length
      (opcode.toNat % 16) payload ↔ payload.length < 65535 := by
  constructor
  · intro h
    apply Nat.lt_of_not_le
    intro hlong
    exact not_recovers_of_long hlong hm _ h
  · intro h
    obtain ⟨f, hf⟩ : ∃ f, f = sent opcode payload maskkey h := ⟨_, rfl⟩
    have hop : f.opcode = opcode.toNat % 16 := hf ▸ sent_opcode h
    have hpay : f.payload = payload := hf ▸ rfl
    rw [wsSendAdv_eq_encode h, ← hf] at hm ⊢
    obtain ⟨hhead, -⟩ := holds_append.mp hm
    obtain ⟨h0, h1, htail⟩ := by simpa only [ClientFrame.head, holds_cons] using hhead
    have hw := wsFrame_holds h0 h1
    have hoff := parseCheckOffset_holds hw
    have hlen := wsPayloadLen_holds hw (holds_append.mp htail).1
    have hwhole := f.encode_length
    have hhl := f.head_length
    have hel := f.extension_length
    have hkl := f.keyBytes_length
    have hheadle : f.head.length ≤ 8 := by
      simp only [wsMaskkeyLen] at hkl
      split at hel <;> split at hkl <;> omega
    constructor
    · rw [hlen, hpay]
    · rw [hoff, hwhole, hpay, Nat.add_comm]
    · rw [hoff, hlen, hpay]
      omega
    · refine ⟨dispatchOf client buf f, hop, hpay, ?_⟩
      rw [serverWsParse_whole client grown hm (Nat.le_refl _)]
      split
      · rfl
      · rw [if_neg (by omega)]
        rfl

theorem wsSendAdv_recovers_masked :
    let bytes := wsSendAdv 1 [104, 105] (some (fun i => [1, 2, 3, 4].get i))
    Recovers (fun _ => .ok) (fun _ => 0) (holding bytes) 0 bytes.length 1 [104, 105] :=
  (wsSendAdv_recovers_iff 1 [104, 105] _ _ _ (holding _) 0 (holding_holds _)).mpr (by decide)

theorem wsSendAdv_loses_length :
    let payload := List.replicate 65535 (97 : UInt8)
    let bytes := wsSendAdv 1 payload none
    Holds (holding bytes).recv.data 0 bytes ∧
      ¬ Recovers (fun _ => .ok) (fun _ => 0) (holding bytes) 0 bytes.length 1 payload := by
  intro payload bytes
  have hlong : uint16Max ≤ payload.length := Nat.le_of_eq List.length_replicate.symm
  exact ⟨holding_holds bytes, not_recovers_of_long hlong (holding_holds bytes) 1⟩

end ChityChat.WebsocketSend
