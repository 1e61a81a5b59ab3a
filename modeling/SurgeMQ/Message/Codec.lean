import SurgeMQ.Message.SubAck
import SurgeMQ.Message.PubRel
import SurgeMQ.Message.PingReq
import SurgeMQ.Message.UnSubAck

/-!
# The decoders against the encoders

A message built the way an application builds it encodes, into any buffer `Size` says is long
enough, to exactly `Size` bytes, and those bytes, followed by whatever else the buffer holds, decode
in a fresh message of the same type back to what was built. For SUBACK this holds at every code
count up to the remaining-length maximum, so across every length where the remaining-length varint
grows a byte. Each half is proved in its packet's module; this is the three together.

The converse direction fails at the frame. None of the decoders compares the remaining length the
header declares with the two identifier bytes it goes on to read, so a header declaring fewer makes
them read past the frame or panic (`decoders_read_past_frame`); and that is the only way to make them
panic (`decoders_panic_on_short_frames`). Where a decoder reads by a slice expression, Go bounds it
by the buffer's capacity: UNSUBACK then takes its identifier from the spare bytes past the length,
and panics only past the capacity. Once the remaining length holds the identifier, they read only
the frame (`decoders_read_only_the_frame`).

The encoders have no such gap: `Size` measures the packet before anything is written, so `Encode`
and `Send` never panic, whatever the message holds; they fail only with the three errors of
`encodeErrors`, and `Send` replaces an external buffer too short for the packet
(`encoders_never_panic`). `Encode` writes nothing past the packet
(`encoders_write_only_the_packet`). Nor do the two differ: `Send` hands the transport exactly the
bytes `Encode` writes, or fails with its error (`send_agrees_with_encode`), since each `preEncode`
writes the same bytes into every buffer long enough for them.
-/

namespace SurgeMQ.Message

open SubAckMessage PubRelMessage PingReqMessage in
/-- **Round trip** for SUBACK, PUBREL and PINGREQ. -/
theorem encode_decode_round_trip :
    (∀ (p : UInt16) (cs : List QosType), p ≠ 0 → (∀ c ∈ cs, isValidFull c) →
      2 + cs.length ≤ maxRemainingLength →
      let r := (newSubAckMessage.setPacketID p).addReturnCodes cs
      r.2 = none ∧ r.1.Size.2 = .ok (1 + (encodeLength (2 + cs.length)).length + 2 + cs.length) ∧
      ∀ dst rest, 1 + (encodeLength (2 + cs.length)).length + 2 + cs.length ≤ dst.length →
        ∃ e, r.1.Encode dst = some e ∧ e.err = none ∧
          e.n = 1 + (encodeLength (2 + cs.length)).length + 2 + cs.length ∧
          ∃ d, newSubAckMessage.decode (e.dst.take e.n ++ rest) = some d ∧ d.err = none ∧
            d.n = e.n ∧ d.msg.header.packetType = .suback ∧ d.msg.header.packetID = p ∧
            d.msg.returnCodes = cs) ∧
    (∀ p : UInt16, p ≠ 0 →
      (newPubRelMessage.setPacketID p).Size.2 = .ok 4 ∧
      ∀ dst rest, 4 ≤ dst.length →
        ∃ e, (newPubRelMessage.setPacketID p).Encode dst = some e ∧ e.err = none ∧ e.n = 4 ∧
          e.dst.take e.n = [0x62, 0x02] ++ putUint16 p ∧
          ∃ d, newPubRelMessage.decode (e.dst.take e.n ++ rest) = some d ∧ d.err = none ∧
            d.n = 4 ∧ d.msg.header.packetType = .pubrel ∧ d.msg.header.packetID = p) ∧
    (newPingReqMessage.Size.2 = .ok 2 ∧
      ∀ dst rest, 2 ≤ dst.length →
        ∃ e, newPingReqMessage.Encode dst = some e ∧ e.err = none ∧ e.n = 2 ∧
          e.dst.take e.n = [0xC0, 0x00] ∧
          (newPingReqMessage.decode (e.dst.take e.n ++ rest)).err = none ∧
          (newPingReqMessage.decode (e.dst.take e.n ++ rest)).n = 2 ∧
          (newPingReqMessage.decode (e.dst.take e.n ++ rest)).msg.header.packetType = .pingreq) :=
  ⟨SubAckMessage.built_round_trip, PubRelMessage.built_round_trip,
    PingReqMessage.built_round_trip⟩

open SubAckMessage in
/-- The SUBACK half at identifier 7 with codes `0, 1, 2, 0x80`. -/
theorem encode_decode_round_trip_suback_seven :
    let r := (newSubAckMessage.setPacketID 7).addReturnCodes [0, 1, 2, 0x80]
    r.2 = none ∧ r.1.Size.2 = .ok 8 :=
  let h := encode_decode_round_trip.1 7 [0, 1, 2, 0x80] (by decide) (by decide) (by decide)
  ⟨h.1, h.2.1⟩

/-! ### Reading past the frame -/

open SubAckMessage PubRelMessage UnSubAckMessage in
/-- A PUBREL or UNSUBACK header declaring remaining length zero frames two bytes, yet the decoders
take the identifier from the two bytes after it, so buffers that agree on the frame decode to
different identifiers; cut at the frame, PUBREL panics, and SUBACK panics on remaining length one. -/
theorem decoders_read_past_frame :
    (newPubRelMessage.header.decode [0x62, 0x00, 0x00, 0x07]).n = 2 ∧
    (newPubRelMessage.header.decode [0x62, 0x00, 0x00, 0x07]).msg.remLen = 0 ∧
    (newPubRelMessage.decode [0x62, 0x00, 0x00, 0x07]).map (fun d => (d.n, d.err, d.msg.header.packetID)) =
      some (4, none, 7) ∧
    (newPubRelMessage.decode [0x62, 0x00, 0x00, 0x08]).map (fun d => (d.n, d.err, d.msg.header.packetID)) =
      some (4, none, 8) ∧
    (newPubRelMessage.decode [0x62, 0x00]).isNone ∧
    (newUnSubAckMessage.decode [0xB0, 0x00, 0x00, 0x07]).map (fun d => (d.n, d.err, d.msg.packetID)) =
      some (4, none, [0x00, 0x07]) ∧
    (newUnSubAckMessage.decode [0xB0, 0x00, 0x00, 0x08]).map (fun d => (d.n, d.err, d.msg.packetID)) =
      some (4, none, [0x00, 0x08]) ∧
    (newSubAckMessage.decode [0x90, 0x01, 0x00, 0x07]).isNone := by
  decide

/-- **Decoders panic exactly on frames too short for an identifier.** For every slice `src`, whatever
spare bytes `spare` its backing array holds past its length, and every message decoded into: SUBACK
decoding panics exactly when the header is accepted with a remaining length below 2, whatever the
capacity. PUBREL decoding panics exactly when, besides, fewer than two bytes follow the header, since
`Uint16` is bounded by the length. UNSUBACK decoding panics exactly when fewer than two bytes follow
the header within the capacity, since it slices `src[total : total+2]`. A frame whose remaining
length holds the identifier decodes without a panic. -/
theorem decoders_panic_on_short_frames (src spare : Bytes) (a : SubAckMessage) (b : PubRelMessage)
    (c : UnSubAckMessage) :
    (a.decodeCap src spare = none ↔
      (a.header.decode src).err = none ∧ (a.header.decode src).msg.remLen < 2) ∧
    (b.decode src = none ↔ (b.header.decode src).err = none ∧
      (b.header.decode src).msg.remLen < 2 ∧ src.length < (b.header.decode src).n + 2) ∧
    (c.decodeCap src spare = none ↔ (c.header.decode src).err = none ∧
      (c.header.decode src).msg.remLen < 2 ∧
      src.length + spare.length < (c.header.decode src).n + 2) :=
  ⟨by rw [a.decodeCap_eq_decode]; exact a.decode_eq_none_iff src, b.decode_eq_none_iff src,
    c.decodeCap_eq_none_iff src spare⟩

/-- **Past the identifier, the decoders read only the frame.** For every buffer and every message
decoded into: once the header is accepted with a remaining length that holds the identifier, SUBACK,
PUBREL and UNSUBACK decoding return the same, whatever bytes follow the buffer. -/
theorem decoders_read_only_the_frame (src rest : Bytes) (a : SubAckMessage) (b : PubRelMessage)
    (c : UnSubAckMessage) :
    ((a.header.decode src).err = none → 2 ≤ (a.header.decode src).msg.remLen →
        a.decode (src ++ rest) = a.decode src) ∧
      ((b.header.decode src).err = none → 2 ≤ (b.header.decode src).msg.remLen →
        b.decode (src ++ rest) = b.decode src) ∧
      ((c.header.decode src).err = none → 2 ≤ (c.header.decode src).msg.remLen →
        c.decode (src ++ rest) = c.decode src) :=
  ⟨a.decode_append rest, b.decode_append rest, c.decode_append rest⟩

open SubAckMessage PubRelMessage UnSubAckMessage in
theorem decoders_read_only_the_frame_trailing_byte :
    newSubAckMessage.decode ([0x90, 0x03, 0x00, 0x07, 0x01] ++ [0xFF]) =
        newSubAckMessage.decode [0x90, 0x03, 0x00, 0x07, 0x01] ∧
      newPubRelMessage.decode ([0x62, 0x02, 0x00, 0x07] ++ [0xFF]) =
        newPubRelMessage.decode [0x62, 0x02, 0x00, 0x07] ∧
      newUnSubAckMessage.decode ([0xB0, 0x02, 0x00, 0x07] ++ [0xFF]) =
        newUnSubAckMessage.decode [0xB0, 0x02, 0x00, 0x07] :=
  ⟨(decoders_read_only_the_frame [0x90, 0x03, 0x00, 0x07, 0x01] [0xFF] newSubAckMessage
      newPubRelMessage newUnSubAckMessage).1 (by decide) (by decide),
    (decoders_read_only_the_frame [0x62, 0x02, 0x00, 0x07] [0xFF] newSubAckMessage
      newPubRelMessage newUnSubAckMessage).2.1 (by decide) (by decide),
    (decoders_read_only_the_frame [0xB0, 0x02, 0x00, 0x07] [0xFF] newSubAckMessage
      newPubRelMessage newUnSubAckMessage).2.2 (by decide) (by decide)⟩

/-- **Encoding never panics.** For every SUBACK, PUBREL and PINGREQ message, whatever its
identifier, codes and header hold, and every buffer `dst`: `Encode` returns without a runtime panic,
leaves a buffer of the same length, and fails only with `ErrInvalidLength`,
`ErrInsufficientBufferSize` or `ErrPackedIDZero`. For every external buffer `ext`, `Send` returns
without a panic, fails only with one of those, and when `Size` gives the packet's length `L` leaves
an external buffer of `max L ext.length` bytes: a shorter one is replaced by a zeroed one of `L`. -/
theorem encoders_never_panic (a : SubAckMessage) (b : PubRelMessage) (c : PingReqMessage)
    (dst ext : Bytes) :
    (∃ e, a.Encode dst = some e ∧ e.dst.length = dst.length ∧
        ∀ err, e.err = some err → err ∈ encodeErrors) ∧
      (∃ e, b.Encode dst = some e ∧ e.dst.length = dst.length ∧
        ∀ err, e.err = some err → err ∈ encodeErrors) ∧
      (∃ e, c.Encode dst = some e ∧ e.dst.length = dst.length ∧
        ∀ err, e.err = some err → err ∈ encodeErrors) ∧
      (∃ s, a.Send ext = some s ∧ (∀ err, s.sent = .error err → err ∈ encodeErrors) ∧
        ∀ L, a.Size.2 = .ok L → s.externalBuf.length = max L ext.length) ∧
      (∃ s, b.Send ext = some s ∧ (∀ err, s.sent = .error err → err ∈ encodeErrors) ∧
        ∀ L, b.Size.2 = .ok L → s.externalBuf.length = max L ext.length) ∧
      (∃ s, c.Send ext = some s ∧ (∀ err, s.sent = .error err → err ∈ encodeErrors) ∧
        ∀ L, c.Size.2 = .ok L → s.externalBuf.length = max L ext.length) :=
  ⟨encodeWith_safe dst (fun _ _ => SubAckMessage.Size_error) fun _ _ => SubAckMessage.writesSame_of_Size,
    encodeWith_safe dst (fun _ _ => PubRelMessage.Size_error) fun _ _ => PubRelMessage.writesSame_of_Size,
    encodeWith_safe dst (fun _ _ => PingReqMessage.Size_error) fun _ _ => PingReqMessage.writesSame_of_Size,
    sendWith_safe ext (fun _ _ => SubAckMessage.Size_error) fun _ _ => SubAckMessage.writesSame_of_Size,
    sendWith_safe ext (fun _ _ => PubRelMessage.Size_error) fun _ _ => PubRelMessage.writesSame_of_Size,
    sendWith_safe ext (fun _ _ => PingReqMessage.Size_error) fun _ _ => PingReqMessage.writesSame_of_Size⟩

/-- **Encoding writes only the packet.** For every SUBACK, PUBREL and PINGREQ message and every buffer,
`Encode` leaves every byte of the buffer from the count it returns on as it was: a packet encoded at
the start of a buffer never overwrites what follows it. -/
theorem encoders_write_only_the_packet (a : SubAckMessage) (b : PubRelMessage) (c : PingReqMessage)
    (dst : Bytes) :
    (∃ e, a.Encode dst = some e ∧ e.dst.drop e.n = dst.drop e.n) ∧
      (∃ e, b.Encode dst = some e ∧ e.dst.drop e.n = dst.drop e.n) ∧
      (∃ e, c.Encode dst = some e ∧ e.dst.drop e.n = dst.drop e.n) :=
  ⟨encodeWith_tail fun _ _ hs => SubAckMessage.writesSame_of_Size hs,
    encodeWith_tail fun _ _ hs => PubRelMessage.writesSame_of_Size hs,
    encodeWith_tail fun _ _ hs => PingReqMessage.writesSame_of_Size hs⟩

/-- **`Send` hands the transport what `Encode` writes.** For every SUBACK, PUBREL and PINGREQ
message, whatever its identifier, codes and header hold, every buffer `dst` that holds the packet
`Size` measures, and every external buffer: `Send` hands the transport exactly the bytes `Encode`
writes at the start of `dst`, and fails with the error `Encode` returns when that fails. -/
theorem send_agrees_with_encode (a : SubAckMessage) (b : PubRelMessage) (c : PingReqMessage)
    (dst ext : Bytes) :
    ((∀ L, a.Size.2 = .ok L → L ≤ dst.length) →
        ∃ e s, a.Encode dst = some e ∧ a.Send ext = some s ∧ Agrees e s) ∧
      ((∀ L, b.Size.2 = .ok L → L ≤ dst.length) →
        ∃ e s, b.Encode dst = some e ∧ b.Send ext = some s ∧ Agrees e s) ∧
      ((∀ L, c.Size.2 = .ok L → L ≤ dst.length) →
        ∃ e s, c.Encode dst = some e ∧ c.Send ext = some s ∧ Agrees e s) :=
  ⟨fun hd => sendWith_agrees fun _ L hs => ⟨SubAckMessage.writesSame_of_Size hs, hd L (by rw [hs])⟩,
    fun hd => sendWith_agrees fun _ L hs => ⟨PubRelMessage.writesSame_of_Size hs, hd L (by rw [hs])⟩,
    fun hd => sendWith_agrees fun _ L hs => ⟨PingReqMessage.writesSame_of_Size hs, hd L (by rw [hs])⟩⟩

theorem send_agrees_with_encode_built :
    (∃ e s, (SubAckMessage.newSubAckMessage.setPacketID 7).Encode (List.replicate 4 0) = some e ∧
        (SubAckMessage.newSubAckMessage.setPacketID 7).Send [] = some s ∧ Agrees e s) ∧
      (∃ e s, (PubRelMessage.newPubRelMessage.setPacketID 7).Encode (List.replicate 4 0) = some e ∧
        (PubRelMessage.newPubRelMessage.setPacketID 7).Send [] = some s ∧ Agrees e s) ∧
      ∃ e s, PingReqMessage.newPingReqMessage.Encode (List.replicate 4 0) = some e ∧
        PingReqMessage.newPingReqMessage.Send [] = some s ∧ Agrees e s :=
  have h := send_agrees_with_encode (SubAckMessage.newSubAckMessage.setPacketID 7)
    (PubRelMessage.newPubRelMessage.setPacketID 7) PingReqMessage.newPingReqMessage
    (List.replicate 4 0) []
  ⟨h.1 fun L hL => by
      rw [show (SubAckMessage.newSubAckMessage.setPacketID 7).Size.2 = .ok 4 from rfl] at hL
      cases hL
      decide,
    h.2.1 fun L hL => by
      rw [show (PubRelMessage.newPubRelMessage.setPacketID 7).Size.2 = .ok 4 from rfl] at hL
      cases hL
      decide,
    h.2.2 fun L hL => by
      rw [show PingReqMessage.newPingReqMessage.Size.2 = .ok 2 from rfl] at hL
      cases hL
      decide⟩

end SurgeMQ.Message
