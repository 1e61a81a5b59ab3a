import SurgeMQ.Message.Header

/-!
# UNSUBACK

The UNSUBACK source is written against an older header, one that keeps the packet identifier as a
byte slice and caches the decoded buffer (`dirty`, `dBuf`). Only `Decode` is modelled: it decodes
the header, slices the two identifier bytes after it whatever remaining length the header declares,
and marks the message clean. `Len`, `Encode` and `Send` read `dBuf`, which only that older header's
code sets, and it is not among the sources.

The identifier is taken by the slice expression `src[total : total+2]`, which Go bounds by the
capacity of `src`, not its length. So `decodeCap` reads `src` with the bytes `spare` that its
backing array holds past its length: the header sees only `src`, the identifier may come from
`spare`, and `Decode` panics only when the two bytes run past the capacity
(`decodeCap_eq_none_iff`). `decode` is the slice with no spare capacity.
-/

namespace SurgeMQ.Message

structure UnSubAckMessage where
  header : Header
  packetID : Bytes
  dirty : Bool
  deriving DecidableEq, Repr

namespace UnSubAckMessage

def newUnSubAckMessage : UnSubAckMessage := ⟨({} : Header).setType .unsuback, [], true⟩

/-- `Decode` on the slice `src`, whose backing array holds the bytes `spare` past its length. -/
def decodeCap (msg : UnSubAckMessage) (src spare : Bytes) : Option (Decoded UnSubAckMessage) :=
  let hd := msg.header.decode src
  let msg := { msg with header := hd.msg }
  match hd.err with
  | some e => some ⟨msg, hd.n, some e⟩
  | none => do
    let packetID ← slice (src ++ spare) hd.n (hd.n + 2 : Nat)
    pure ⟨{ msg with packetID := packetID, dirty := false }, hd.n + 2, none⟩

/-- `Decode` on a slice whose capacity is its length. -/
def decode (msg : UnSubAckMessage) (src : Bytes) : Option (Decoded UnSubAckMessage) :=
  msg.decodeCap src []

/-- `Decode` panics exactly when the header is accepted, declares a remaining length below the
identifier's two bytes, and fewer than two bytes follow the header within the slice's capacity. -/
theorem decodeCap_eq_none_iff (msg : UnSubAckMessage) (src spare : Bytes) :
    msg.decodeCap src spare = none ↔ (msg.header.decode src).err = none ∧
      (msg.header.decode src).msg.remLen < 2 ∧
      src.length + spare.length < (msg.header.decode src).n + 2 := by
  simp only [decodeCap]
  cases he : (msg.header.decode src).err with
  | some e => simp
  | none =>
    have hf := Header.decode_frame_le he
    generalize msg.header.decode src = d at hf ⊢
    simp only [bind_pure_comp, Option.map_eq_map, Option.map_eq_none', slice_eq_none_iff,
      List.length_append, true_and]
    omega

/-- With no spare capacity, `Decode` panics exactly when the header is accepted and fewer than two
bytes follow it. -/
theorem decode_eq_none_iff (msg : UnSubAckMessage) (src : Bytes) :
    msg.decode src = none ↔ (msg.header.decode src).err = none ∧
      (msg.header.decode src).msg.remLen < 2 ∧ src.length < (msg.header.decode src).n + 2 := by
  simpa using msg.decodeCap_eq_none_iff src []

/-- A frame whose remaining length holds the identifier decodes alike whatever follows it. -/
theorem decode_append (msg : UnSubAckMessage) {src : Bytes} (rest : Bytes)
    (hh : (msg.header.decode src).err = none) (hr : 2 ≤ (msg.header.decode src).msg.remLen) :
    msg.decode (src ++ rest) = msg.decode src := by
  have hf := Header.decode_frame_le hh
  simp only [decode, decodeCap, List.append_nil, Header.decode_append rest hh, hh]
  rw [slice_append _ (by push_cast; omega)]

end UnSubAckMessage

end SurgeMQ.Message
