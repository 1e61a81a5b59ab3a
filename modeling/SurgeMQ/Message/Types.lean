import Mathlib.Data.UInt
import Mathlib.Data.List.Basic

/-!
# Bytes, packet types and the codec's errors

The vocabulary every other module of the codec is written in. A Go `[]byte` is a list of bytes
whose capacity is its length, so slicing past the end, reading a `uint16` from fewer than two
bytes or writing past the end is a runtime panic, and every codec function that can panic returns
an `Option` whose `none` is that panic. Machine words stay machine words (`UInt8`, `UInt16`); the
few facts about them the proofs need are stated once here, on `toNat`.
-/

namespace SurgeMQ

/-- A Go byte slice, by its contents. Where a slice expression of the sources can reach past the
length into the capacity, the model passes the spare bytes of the backing array beside it. -/
abbrev Bytes := List UInt8

@[simp] theorem byte_toNat (n : Nat) : (UInt8.ofNat n).toNat = n % 256 := rfl

@[simp] theorem word_toNat (n : Nat) : (UInt16.ofNat n).toNat = n % 65536 := rfl

theorem byte_lt (b : UInt8) : b.toNat < 256 := b.toNat_lt_size

theorem word_lt (v : UInt16) : v.toNat < 65536 := v.toNat_lt_size

@[simp] theorem byte_ofNat_toNat (b : UInt8) : UInt8.ofNat b.toNat = b :=
  UInt8.toNat.inj (by simp [Nat.mod_eq_of_lt (byte_lt b)])

@[simp] theorem word_ofNat_toNat (v : UInt16) : UInt16.ofNat v.toNat = v :=
  UInt16.toNat.inj (by simp [Nat.mod_eq_of_lt (word_lt v)])

/-! ### Slices -/

/-- `src[lo:hi]` with Go's `int` bounds: it panics unless `0 ≤ lo ≤ hi ≤ cap(src)`. The capacity is
the length of `src`, which holds the spare bytes past the slice's length where a caller has them
(`SubAckMessage.decodeCap`, `UnSubAckMessage.decodeCap`). -/
def slice (src : Bytes) (lo : Nat) (hi : Int) : Option Bytes :=
  if lo ≤ hi ∧ hi ≤ src.length then some ((src.drop lo).take (hi.toNat - lo)) else none

theorem slice_mid (a b c : Bytes) :
    slice (a ++ b ++ c) a.length ((a.length + b.length : Nat) : Int) = some b := by
  rw [slice, if_pos (by simp only [List.length_append]; omega)]
  have : ((a.length : Int) + b.length).toNat - a.length = b.length := by omega
  simp [List.append_assoc, this]

/-- `src[lo:hi]` panics exactly when its bounds are out of order or past the buffer. -/
theorem slice_eq_none_iff (src : Bytes) (lo : Nat) (hi : Int) :
    slice src lo hi = none ↔ ¬ (lo ≤ hi ∧ hi ≤ src.length) := by
  unfold slice
  split <;> simp_all

/-- A slice within the buffer does not see what follows it. -/
theorem slice_append {src : Bytes} (rest : Bytes) {lo : Nat} {hi : Int} (h : hi ≤ src.length) :
    slice (src ++ rest) lo hi = slice src lo hi := by
  unfold slice
  by_cases hlo : (lo : Int) ≤ hi
  · rw [if_pos ⟨hlo, by simp only [List.length_append]; push_cast; omega⟩, if_pos ⟨hlo, h⟩,
      List.drop_append_of_le_length (by omega), List.take_append_of_le_length (by simp; omega)]
  · rw [if_neg (fun h' => hlo h'.1), if_neg (fun h' => hlo h'.1)]

/-- Copying `bs` into `dst` at offset `i`, one indexed store a byte: it panics when a store falls
past the end of `dst`. -/
def writeAt (dst : Bytes) (i : Nat) (bs : Bytes) : Option Bytes :=
  if i + bs.length ≤ dst.length then some (dst.take i ++ bs ++ dst.drop (i + bs.length)) else none

theorem writeAt_eq_some {dst bs : Bytes} {i : Nat} (h : i + bs.length ≤ dst.length) :
    writeAt dst i bs = some (dst.take i ++ bs ++ dst.drop (i + bs.length)) := if_pos h

theorem take_of_writeAt {dst bs out : Bytes} (h : writeAt dst 0 bs = some out) :
    out.take bs.length = bs := by
  unfold writeAt at h
  split at h
  · cases h
    simp
  · cases h

/-- A write at the start of the buffer leaves what follows it as it was. -/
theorem drop_of_writeAt {dst bs out : Bytes} (h : writeAt dst 0 bs = some out) :
    out.drop bs.length = dst.drop bs.length := by
  unfold writeAt at h
  split at h
  · cases h
    simp
  · cases h

theorem writeAt_length {dst bs out : Bytes} {i : Nat} (h : writeAt dst i bs = some out) :
    out.length = dst.length := by
  unfold writeAt at h
  split at h
  · cases h
    simp only [List.length_append, List.length_take, List.length_drop]
    omega
  · cases h

/-- Two writes side by side are one write of both. -/
theorem writeAt_append {dst a b : Bytes} {i : Nat} (h : i + a.length + b.length ≤ dst.length) :
    (writeAt dst i a).bind (fun d => writeAt d (i + a.length) b) = writeAt dst i (a ++ b) := by
  have hi : (dst.take i).length = i := List.length_take_of_le (by omega)
  have hd : (dst.drop (i + a.length)).length = dst.length - (i + a.length) := List.length_drop _ _
  unfold writeAt
  simp only [List.length_append, List.append_assoc]
  rw [if_pos (by omega), if_pos (by omega), Option.some_bind,
    if_pos (by simp only [List.length_append, hi, hd]; omega)]
  have e : i + a.length + b.length = (dst.take i ++ a).length + b.length := by simp [hi]
  rw [← List.append_assoc (dst.take i), List.take_left' (by simp [hi]), e, List.drop_append,
    List.drop_drop]
  simp only [List.append_assoc, Nat.add_assoc]

theorem writeAt_writeAt {dst a b d : Bytes} {i : Nat} (h : i + a.length + b.length ≤ dst.length)
    (hd : writeAt dst i a = some d) : writeAt d (i + a.length) b = writeAt dst i (a ++ b) := by
  rw [← writeAt_append h, hd, Option.some_bind]

/-! ### Big-endian packet identifiers -/

/-- `binary.BigEndian.Uint16`: the first two bytes, high byte first; it panics on fewer. -/
def uint16 : Bytes → Option UInt16
  | b0 :: b1 :: _ => some (UInt16.ofNat (b0.toNat * 256 + b1.toNat))
  | _ => none

/-- The two bytes `binary.BigEndian.PutUint16` stores, high byte first (`itob16`). -/
def putUint16 (v : UInt16) : Bytes := [UInt8.ofNat (v.toNat / 256), UInt8.ofNat v.toNat]

@[simp] theorem putUint16_length (v : UInt16) : (putUint16 v).length = 2 := rfl

@[simp] theorem uint16_putUint16 (v : UInt16) (rest : Bytes) :
    uint16 (putUint16 v ++ rest) = some v := by
  have hv := word_lt v
  simp only [putUint16, List.cons_append, uint16, byte_toNat, Option.some.injEq]
  apply UInt16.toNat.inj
  simp only [word_toNat]
  omega

theorem uint16_eq_some {src : Bytes} {v : UInt16} (h : uint16 src = some v) :
    ∃ rest, src = putUint16 v ++ rest := by
  match src, h with
  | b0 :: b1 :: rest, h =>
    simp only [uint16, Option.some.injEq] at h
    subst h
    have h0 := byte_lt b0
    have h1 := byte_lt b1
    refine ⟨rest, ?_⟩
    simp only [putUint16, word_toNat, List.cons_append, List.nil_append, List.cons.injEq, and_true]
    constructor <;> apply UInt8.toNat.inj <;> simp <;> omega

/-- `binary.BigEndian.Uint16` panics exactly on fewer than two bytes. -/
theorem uint16_eq_none_iff (bs : Bytes) : uint16 bs = none ↔ bs.length < 2 := by
  match bs with
  | [] | [_] => simp [uint16]
  | _ :: _ :: _ => simp [uint16]

/-- `binary.BigEndian.Uint16` reads only the first two bytes. -/
theorem uint16_append {bs : Bytes} (rest : Bytes) (h : 2 ≤ bs.length) :
    uint16 (bs ++ rest) = uint16 bs := by
  match bs, h with
  | _ :: _ :: _, _ => rfl

/-! ### Packet types and QoS -/

/-- Control packet types, the top four bits of a packet's first byte (`message.Type`). -/
inductive PacketType where
  | reserved | connect | connack | publish | puback | pubrec | pubrel | pubcomp
  | subscribe | suback | unsubscribe | unsuback | pingreq | pingresp | disconnect | reserved2
  deriving DecidableEq, Repr

namespace PacketType

/-- The type's value on the wire (`byte(t)`). -/
def toNat : PacketType → Nat
  | reserved => 0 | connect => 1 | connack => 2 | publish => 3 | puback => 4 | pubrec => 5
  | pubrel => 6 | pubcomp => 7 | subscribe => 8 | suback => 9 | unsubscribe => 10
  | unsuback => 11 | pingreq => 12 | pingresp => 13 | disconnect => 14 | reserved2 => 15

/-- `Type(b)` for the four bits of a byte. -/
def ofBits : Nat → PacketType
  | 0 => reserved | 1 => connect | 2 => connack | 3 => publish | 4 => puback | 5 => pubrec
  | 6 => pubrel | 7 => pubcomp | 8 => subscribe | 9 => suback | 10 => unsubscribe
  | 11 => unsuback | 12 => pingreq | 13 => pingresp | 14 => disconnect | _ => reserved2

@[simp] theorem ofBits_toNat (t : PacketType) : ofBits t.toNat = t := by cases t <;> rfl

theorem toNat_lt (t : PacketType) : t.toNat < 16 := by cases t <;> decide

/-- The fourteen types a packet may carry: the two reserved values are invalid. -/
def valid (t : PacketType) : Bool := t != reserved && t != reserved2

/-- The fixed flags of a type's header (`DefaultFlags`): `0x02` for PUBREL, SUBSCRIBE and
UNSUBSCRIBE, zero otherwise. -/
def defaultFlags : PacketType → Nat
  | pubrel | subscribe | unsubscribe => 2
  | _ => 0

end PacketType

/-- A QoS level or a SUBACK return code (`message.QosType`), one byte. -/
abbrev QosType := UInt8

/-- Modelled from the spec: `QosType.IsValidFull`, absent from the sources. A SUBACK return code is
valid when it is one of `{0, 1, 2, 0x80}` (spec, wire format: "SUBACK return codes"). -/
def isValidFull (c : QosType) : Bool := c == 0 || c == 1 || c == 2 || c == 0x80

/-- Modelled from the spec: `QosType.IsValid`, absent from the sources. A QoS level is `0`, `1` or
`2`. -/
def isValid (c : QosType) : Bool := c.toNat ≤ 2

namespace Message

/-- The errors of the `message` package that the modelled code returns. -/
inductive Error where
  | errInvalidMessageType
  | errInvalidMessageTypeFlags
  | errInvalidLength
  | errInsufficientBufferSize
  | errInvalidReturnCode
  | errPackedIDZero
  | errInvalidQoS
  | errInvalidTopic
  deriving DecidableEq, Repr

/-- What a decoding method leaves in its receiver and returns, `(n, err)`, when it does not
panic. -/
structure Decoded (σ : Type) where
  msg : σ
  n : Nat
  err : Option Error

end Message

end SurgeMQ
