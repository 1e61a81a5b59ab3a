import SurgeMQ.Message.Provider

/-!
# PINGREQ

`PingReqMessage` is a header alone. Decoding it is decoding its header, so it returns the header's
length whatever remaining length the header declares; encoding writes the header with remaining
length zero and cannot fail once the buffer is long enough.
-/

namespace SurgeMQ.Message

structure PingReqMessage where
  header : Header
  deriving DecidableEq, Repr

namespace PingReqMessage

def newPingReqMessage : PingReqMessage := ⟨({} : Header).setType .pingreq⟩

def decode (msg : PingReqMessage) (src : Bytes) : Decoded PingReqMessage :=
  let hd := msg.header.decode src
  ⟨⟨hd.msg⟩, hd.n, hd.err⟩

def preEncode (msg : PingReqMessage) (dst : Bytes) : Option (Bytes × Nat) :=
  msg.header.encode dst

/-- The remaining length: nothing follows the header. -/
def size (_ : PingReqMessage) : Nat := 0

def Size (msg : PingReqMessage) : PingReqMessage × Except Error Nat :=
  let (h, r) := msg.header.Size msg.size
  ({ msg with header := h }, r)

/-- `Encode` returns `preEncode`'s count with a nil error. -/
def Encode (msg : PingReqMessage) (dst : Bytes) : Option (Encoded PingReqMessage) :=
  encodeWith Size (fun m d => (m.preEncode d).map fun (d, n) => (d, n, none)) msg dst

def Send (msg : PingReqMessage) (externalBuf : Bytes) : Option (Sent PingReqMessage) :=
  sendWith Size (fun m d => (m.preEncode d).map fun (d, n) => (d, n, none)) msg externalBuf

theorem Size_eq (msg : PingReqMessage) :
    msg.Size = (⟨{ msg.header with remLen := 0 }⟩, .ok 2) := by
  simp [Size, Header.Size, size, maxRemainingLength, encodeLength, varint]

theorem Encode_eq {msg : PingReqMessage} {dst : Bytes} (hd : 2 ≤ dst.length) :
    msg.Encode dst = (writeAt dst 0 [msg.header.mTypeFlags, 0]).map
      fun d => ⟨⟨{ msg.header with remLen := 0 }⟩, d, 2, none⟩ := by
  have hb : ({ msg.header with remLen := 0 } : Header).bytes = [msg.header.mTypeFlags, 0] := by
    simp [Header.bytes, encodeLength, varint]
  refine @encodeWith_eq _ _ _ _ _ _ [msg.header.mTypeFlags, 0] (Size_eq msg) ?_ hd
  simp only [preEncode, Header.encode, hb, Option.map_map]
  rfl

/-- `Size` never fails: nothing follows the header. -/
theorem Size_error {msg msg' : PingReqMessage} {err : Error} (hs : msg.Size = (msg', .error err)) :
    err = .errInvalidLength := by
  rw [Size_eq] at hs
  cases hs

theorem writesSame_of_Size {msg msg' : PingReqMessage} {L : Nat} (hs : msg.Size = (msg', .ok L)) :
    WritesSame (fun m d => (m.preEncode d).map fun (d, n) => (d, n, none)) msg' L := by
  rw [Size_eq] at hs
  cases hs
  have hb : ({ msg.header with remLen := 0 } : Header).bytes = [msg.header.mTypeFlags, 0] := by
    simp [Header.bytes, encodeLength, varint]
  refine .inl ⟨[msg.header.mTypeFlags, 0], rfl, fun buf _ => ?_⟩
  simp only [preEncode, Header.encode, hb, Option.map_map]
  rfl

/-- **PINGREQ decoding inverts encoding.** A well-formed header with remaining length zero, followed
by anything, decodes to its type and flags, consuming exactly its two bytes. -/
theorem decode_bytes (h : Header) (g : PingReqMessage) (rest : Bytes) (hw : h.Wf)
    (hr : h.remLen = 0) :
    g.decode (h.bytes ++ rest) =
      ⟨⟨{ g.header with mTypeFlags := h.mTypeFlags, remLen := 0 }⟩, h.bytes.length, none⟩ := by
  simp [decode, Header.decode_header_bytes _ _ _ hw (by simp [hr] : h.remLen ≤ rest.length), hr]

/-- A PINGREQ encodes to the two header bytes `0xC0 0x00`, which a fresh PINGREQ decodes, with
anything after them, consuming both. -/
theorem built_round_trip :
    newPingReqMessage.Size.2 = .ok 2 ∧
    ∀ dst rest, 2 ≤ dst.length →
      ∃ e, newPingReqMessage.Encode dst = some e ∧ e.err = none ∧ e.n = 2 ∧
        e.dst.take e.n = [0xC0, 0x00] ∧
        (newPingReqMessage.decode (e.dst.take e.n ++ rest)).err = none ∧
        (newPingReqMessage.decode (e.dst.take e.n ++ rest)).n = 2 ∧
        (newPingReqMessage.decode (e.dst.take e.n ++ rest)).msg.header.packetType = .pingreq := by
  have hwf : (⟨0xC0, 0, 0⟩ : Header).Wf := by decide
  refine ⟨by rw [Size_eq], fun dst rest hdst => ?_⟩
  obtain ⟨d', hw⟩ : ∃ d', writeAt dst 0 [0xC0, 0x00] = some d' := ⟨_, writeAt_eq_some hdst⟩
  have ht : d'.take 2 = (⟨0xC0, 0, 0⟩ : Header).bytes := take_of_writeAt hw
  rw [Encode_eq hdst, show newPingReqMessage.header.mTypeFlags = 0xC0 from rfl, hw, Option.map_some']
  refine ⟨_, rfl, rfl, rfl, ?_⟩
  simp only [ht, decode_bytes _ _ rest hwf rfl, true_and]
  exact ⟨rfl, rfl, rfl⟩

end PingReqMessage

end SurgeMQ.Message
