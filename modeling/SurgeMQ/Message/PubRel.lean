import SurgeMQ.Message.Provider

/-!
# PUBREL

`PubRelMessage` is a header with the fixed flags `0x02` and a packet identifier. Its decoder reads
the identifier from the two bytes after the header whatever remaining length the header declares,
and its encoder refuses an unset identifier. `decode_bytes` and `Encode_eq` are the two halves of
the round trip for a message the encoder accepts.
-/

namespace SurgeMQ.Message

structure PubRelMessage where
  header : Header
  deriving DecidableEq, Repr

namespace PubRelMessage

def newPubRelMessage : PubRelMessage :=
  let h := ({} : Header).setType .pubrel
  ⟨{ h with mTypeFlags := h.mTypeFlags ||| 0x02 }⟩

def setPacketID (msg : PubRelMessage) (v : UInt16) : PubRelMessage :=
  { msg with header.packetID := v }

def decode (msg : PubRelMessage) (src : Bytes) : Option (Decoded PubRelMessage) :=
  let hd := msg.header.decode src
  let msg := { msg with header := hd.msg }
  match hd.err with
  | some e => some ⟨msg, hd.n, some e⟩
  | none => do
    let packetID ← uint16 (src.drop hd.n)
    pure ⟨{ msg with header.packetID := packetID }, hd.n + 2, none⟩

def preEncode (msg : PubRelMessage) (dst : Bytes) : Option (Bytes × Nat × Option Error) :=
  if msg.header.packetID = 0 then some (dst, 0, some .errPackedIDZero)
  else do
    let (dst, n) ← msg.header.encode dst
    let dst ← writeAt dst n (putUint16 msg.header.packetID)
    pure (dst, n + 2, none)

/-- The remaining length: the packet identifier. -/
def size (_ : PubRelMessage) : Nat := 2

def Size (msg : PubRelMessage) : PubRelMessage × Except Error Nat :=
  let (h, r) := msg.header.Size msg.size
  ({ msg with header := h }, r)

def Encode (msg : PubRelMessage) (dst : Bytes) : Option (Encoded PubRelMessage) :=
  encodeWith Size preEncode msg dst

def Send (msg : PubRelMessage) (externalBuf : Bytes) : Option (Sent PubRelMessage) :=
  sendWith Size preEncode msg externalBuf

/-- The bytes a PUBREL encodes to: the header and the identifier. -/
def bytes (msg : PubRelMessage) : Bytes := msg.header.bytes ++ putUint16 msg.header.packetID

theorem newPubRelMessage_mTypeFlags : newPubRelMessage.header.mTypeFlags = 0x62 := by decide

theorem Size_eq (msg : PubRelMessage) :
    msg.Size = (⟨{ msg.header with remLen := 2 }⟩, .ok (1 + (encodeLength 2).length + 2)) := by
  simp [Size, Header.Size, size, maxRemainingLength]

theorem preEncode_eq {msg : PubRelMessage} {dst : Bytes} (hp : msg.header.packetID ≠ 0)
    (hd : msg.bytes.length ≤ dst.length) :
    msg.preEncode dst = (writeAt dst 0 msg.bytes).map (·, msg.bytes.length, none) := by
  simp only [bytes, List.length_append, putUint16_length] at hd ⊢
  obtain ⟨d1, h1⟩ : ∃ d, writeAt dst 0 msg.header.bytes = some d := ⟨_, writeAt_eq_some (by omega)⟩
  have h2 := writeAt_writeAt (b := putUint16 msg.header.packetID)
    (by simp only [List.length_append, putUint16_length]; omega) h1
  simp only [Nat.zero_add] at h2
  simp only [preEncode, if_neg hp, Header.encode, h1, Option.map_some', Option.bind_eq_bind,
    Option.some_bind, h2, Option.pure_def]
  cases writeAt dst 0 (msg.header.bytes ++ putUint16 msg.header.packetID) <;> simp

theorem Encode_eq {msg : PubRelMessage} {dst : Bytes} (hp : msg.header.packetID ≠ 0)
    (hd : (⟨{ msg.header with remLen := 2 }⟩ : PubRelMessage).bytes.length ≤ dst.length) :
    msg.Encode dst = (writeAt dst 0 (⟨{ msg.header with remLen := 2 }⟩ : PubRelMessage).bytes).map
      fun d => ⟨⟨{ msg.header with remLen := 2 }⟩, d,
        (⟨{ msg.header with remLen := 2 }⟩ : PubRelMessage).bytes.length, none⟩ := by
  have hlen : (⟨{ msg.header with remLen := 2 }⟩ : PubRelMessage).bytes.length =
      1 + (encodeLength 2).length + 2 := by
    simp only [bytes, Header.bytes, List.length_append, List.length_cons, putUint16_length]
    omega
  exact encodeWith_eq (by rw [Size_eq, hlen]) (preEncode_eq hp hd) hd

/-- `Size` never fails: the remaining length is the identifier's two bytes. -/
theorem Size_error {msg msg' : PubRelMessage} {err : Error} (hs : msg.Size = (msg', .error err)) :
    err = .errInvalidLength := by
  rw [Size_eq] at hs
  cases hs

theorem writesSame_of_Size {msg msg' : PubRelMessage} {L : Nat} (hs : msg.Size = (msg', .ok L)) :
    WritesSame preEncode msg' L := by
  rw [Size_eq] at hs
  cases hs
  by_cases hp : msg.header.packetID = 0
  · exact .inr fun buf => by simp [preEncode, hp]
  · have hlen : (⟨{ msg.header with remLen := 2 }⟩ : PubRelMessage).bytes.length =
        1 + (encodeLength 2).length + 2 := by
      simp only [bytes, Header.bytes, List.length_append, List.length_cons, putUint16_length]
      omega
    exact .inl ⟨_, hlen, fun buf hb => hlen ▸ preEncode_eq hp (hlen ▸ hb)⟩

/-- **PUBREL decoding inverts encoding.** A well-formed PUBREL's bytes with remaining length 2,
followed by anything, decode to its identifier, consuming exactly its bytes. -/
theorem decode_bytes (msg g : PubRelMessage) (rest : Bytes) (hw : msg.header.Wf)
    (hr : msg.header.remLen = 2) :
    g.decode (msg.bytes ++ rest) = some ⟨⟨{ g.header with
        mTypeFlags := msg.header.mTypeFlags, remLen := msg.header.remLen,
        packetID := msg.header.packetID }⟩, msg.bytes.length, none⟩ := by
  have hrem : msg.header.remLen ≤ (putUint16 msg.header.packetID ++ rest).length := by simp [hr]
  simp only [decode, bytes, List.append_assoc]
  rw [Header.decode_header_bytes _ _ _ hw hrem]
  simp [Nat.add_assoc]

/-- `decode` panics exactly when the header is accepted and fewer than two bytes follow it, which
needs a remaining length below 2. -/
theorem decode_eq_none_iff (msg : PubRelMessage) (src : Bytes) :
    msg.decode src = none ↔ (msg.header.decode src).err = none ∧
      (msg.header.decode src).msg.remLen < 2 ∧ src.length < (msg.header.decode src).n + 2 := by
  simp only [decode]
  cases he : (msg.header.decode src).err with
  | some e => simp
  | none =>
    have hf := Header.decode_frame_le he
    generalize msg.header.decode src = d at hf ⊢
    simp only [bind_pure_comp, Option.map_eq_map, Option.map_eq_none', uint16_eq_none_iff,
      List.length_drop, true_and]
    omega

/-- A frame whose remaining length holds the identifier decodes alike whatever follows it. -/
theorem decode_append (msg : PubRelMessage) {src : Bytes} (rest : Bytes)
    (hh : (msg.header.decode src).err = none) (hr : 2 ≤ (msg.header.decode src).msg.remLen) :
    msg.decode (src ++ rest) = msg.decode src := by
  have hf := Header.decode_frame_le hh
  simp only [decode, Header.decode_append rest hh, hh]
  rw [List.drop_append_of_le_length (by omega), uint16_append _ (by rw [List.length_drop]; omega)]

/-- A PUBREL built with `NewPubRelMessage` and `SetPacketID` encodes to the four bytes `0x62 0x02`
and the identifier, which a fresh PUBREL decodes back to the identifier, with anything after
them. -/
theorem built_round_trip (p : UInt16) (hp : p ≠ 0) :
    (newPubRelMessage.setPacketID p).Size.2 = .ok 4 ∧
    ∀ dst rest, 4 ≤ dst.length →
      ∃ e, (newPubRelMessage.setPacketID p).Encode dst = some e ∧ e.err = none ∧ e.n = 4 ∧
        e.dst.take e.n = [0x62, 0x02] ++ putUint16 p ∧
        ∃ d, newPubRelMessage.decode (e.dst.take e.n ++ rest) = some d ∧ d.err = none ∧ d.n = 4 ∧
          d.msg.header.packetType = .pubrel ∧ d.msg.header.packetID = p := by
  have hm : newPubRelMessage.setPacketID p = ⟨⟨0x62, 0, p⟩⟩ := by
    simp only [setPacketID, newPubRelMessage_mTypeFlags.symm]; rfl
  have hwf : (⟨0x62, 2, p⟩ : Header).Wf :=
    ⟨by simp only [Header.packetType]; decide,
      by simp only [Header.packetType, Header.flags]; decide,
      show 2 ≤ maxRemainingLength by decide⟩
  have hbytes : (⟨⟨0x62, 2, p⟩⟩ : PubRelMessage).bytes = [0x62, 0x02] ++ putUint16 p := rfl
  rw [hm, Size_eq]
  refine ⟨rfl, fun dst rest hdst => ?_⟩
  obtain ⟨d', hw⟩ : ∃ d', writeAt dst 0 (⟨⟨0x62, 2, p⟩⟩ : PubRelMessage).bytes = some d' :=
    ⟨_, writeAt_eq_some (by rw [hbytes]; simpa using hdst)⟩
  have he := @Encode_eq ⟨⟨0x62, 0, p⟩⟩ dst hp
    (show (⟨⟨0x62, 2, p⟩⟩ : PubRelMessage).bytes.length ≤ dst.length by rw [hbytes]; simpa using hdst)
  rw [he]
  simp only at hw ⊢
  rw [hw, Option.map_some']
  refine ⟨_, rfl, rfl, rfl, ?_⟩
  simp only [take_of_writeAt hw]
  exact ⟨hbytes, _, decode_bytes _ newPubRelMessage rest hwf rfl, rfl, by simp [hbytes],
    by simp only [Header.packetType]; decide, rfl⟩

/-! ### What the decoder accepts beyond the encoder's image -/

/-- The decoder takes identifier zero, which `preEncode` refuses under [MQTT-2.3.1]: the message it
returns, followed by any bytes, does not encode. -/
theorem decode_accepts_packetID_zero (rest : Bytes) :
    (newPubRelMessage.decode ([0x62, 0x02, 0x00, 0x00] ++ rest)).map (fun d =>
      (d.n, d.err, d.msg.header.packetID, (d.msg.Encode (List.replicate 4 0)).map (·.err))) =
      some (4, none, 0, some (some .errPackedIDZero)) := by
  have hw : (⟨0x62, 2, 0⟩ : Header).Wf := by decide
  have hsrc : [0x62, 0x02, 0x00, 0x00] ++ rest = (⟨0x62, 2, 0⟩ : Header).bytes ++ ([0x00, 0x00] ++ rest) :=
    rfl
  rw [hsrc]
  simp only [decode]
  rw [Header.decode_header_bytes ⟨0x62, 2, 0⟩ _ ([0x00, 0x00] ++ rest) hw (by simp)]
  simp [Encode, encodeWith, Size_eq, preEncode, uint16, Header.bytes, encodeLength, varint]

end PubRelMessage

end SurgeMQ.Message
