import SurgeMQ.Message.Types

/-!
# The fixed header

Every packet starts with a byte holding its type and flags and a varint holding the remaining
length. The header's code (`header.decode`, `header.encode`, `Size` and `setType`) is not among
the sources, so this module models it from the spec's contract: decoding validates the type, the
type's mandated flags and a remaining length of one to four varint bytes that the buffer holds,
and encoding writes the minimal varint. Everything the packet modules need of the header is the
round trip `decode_header_bytes` and the inversion `decode_ok`.
-/

namespace SurgeMQ.Message

/-- The largest remaining length, the largest value four varint bytes carry. -/
def maxRemainingLength : Nat := 268435455

/-- The varint of `n` in at most `k` bytes: seven bits a byte, low group first, the top bit set on
every byte but the last. -/
def varint : Nat → Nat → Bytes
  | 0, _ => []
  | k + 1, n => if n < 128 then [UInt8.ofNat n] else UInt8.ofNat (n % 128 + 128) :: varint k (n / 128)

/-- Reads a varint of at most `k` bytes: its value and how many bytes it took, or `none` when the
bytes run out or a `k + 1`-th byte would be needed. -/
def readVarint : Nat → Bytes → Option (Nat × Nat)
  | 0, _ => none
  | _ + 1, [] => none
  | k + 1, b :: rest =>
    if b.toNat < 128 then some (b.toNat, 1)
    else (readVarint k rest).map fun (v, m) => (b.toNat - 128 + 128 * v, m + 1)

/-- Modelled from the spec: the remaining-length encoding `header.encode` writes, the minimal
varint. -/
def encodeLength (n : Nat) : Bytes := varint 4 n

theorem readVarint_varint (k n : Nat) (rest : Bytes) (h : n < 128 ^ (k + 1)) :
    readVarint (k + 1) (varint (k + 1) n ++ rest) = some (n, (varint (k + 1) n).length) := by
  induction k generalizing n with
  | zero =>
    have hn : n < 128 := by simpa using h
    simp [varint, readVarint, hn, Nat.mod_eq_of_lt (show n < 256 by omega)]
  | succ k ih =>
    by_cases hn : n < 128
    · simp [varint, readVarint, hn, Nat.mod_eq_of_lt (show n < 256 by omega)]
    · have hq : n / 128 < 128 ^ (k + 1) := by
        rw [Nat.div_lt_iff_lt_mul (by decide)]
        simpa [Nat.pow_succ] using h
      rw [varint, if_neg hn, List.cons_append, readVarint]
      simp only [byte_toNat, Nat.mod_eq_of_lt (show n % 128 + 128 < 256 by omega),
        show ¬(n % 128 + 128 < 128) by omega, if_false, ih _ hq, Option.map_some',
        List.length_cons, Option.some.injEq, Prod.mk.injEq, and_true]
      omega

theorem varint_length_pos (k n : Nat) : (varint (k + 1) n).length ≥ 1 := by
  cases k <;> simp only [varint] <;> split <;> simp

theorem varint_length_le (k n : Nat) : (varint k n).length ≤ k := by
  induction k generalizing n with
  | zero => simp [varint]
  | succ k ih => simp only [varint]; split <;> simp [ih]

theorem readVarint_encodeLength {n : Nat} (rest : Bytes) (h : n ≤ maxRemainingLength) :
    readVarint 4 (encodeLength n ++ rest) = some (n, (encodeLength n).length) :=
  readVarint_varint 3 n rest (by simp only [maxRemainingLength] at h; omega)

/-- What `readVarint` reads lies inside the bytes it was given. -/
theorem readVarint_bounds {k : Nat} {bs : Bytes} {v m : Nat} (h : readVarint k bs = some (v, m)) :
    1 ≤ m ∧ m ≤ bs.length := by
  induction k generalizing bs v m with
  | zero => simp [readVarint] at h
  | succ k ih =>
    match bs, h with
    | b :: rest, h =>
      simp only [readVarint] at h
      split at h
      · simp only [Option.some.injEq, Prod.mk.injEq] at h
        simp [← h.2]
      · obtain ⟨⟨v', m'⟩, hr, he⟩ := Option.map_eq_some'.mp h
        simp only [Prod.mk.injEq] at he
        have := ih hr
        simp only [List.length_cons]
        omega

/-- `readVarint` reads only its own bytes: bytes after them change nothing. -/
theorem readVarint_append {k : Nat} {bs : Bytes} {v m : Nat} (extra : Bytes)
    (h : readVarint k bs = some (v, m)) : readVarint k (bs ++ extra) = some (v, m) := by
  induction k generalizing bs v m with
  | zero => simp [readVarint] at h
  | succ k ih =>
    match bs, h with
    | b :: rest, h =>
      simp only [readVarint] at h
      split at h
      · rw [List.cons_append, readVarint, if_pos ‹_›, h]
      · obtain ⟨⟨v', m'⟩, hr, he⟩ := Option.map_eq_some'.mp h
        rw [List.cons_append, readVarint, if_neg ‹_›, ih hr, Option.map_some']
        exact congrArg some he

/-- Modelled from the spec: the flags a header of type `t` may carry. PUBLISH's are its DUP, QoS and
RETAIN bits, with a QoS of at most 2; every other type's are its fixed `defaultFlags`. -/
def flagsValid (t : PacketType) (flags : Nat) : Bool :=
  if t = .publish then flags / 2 % 4 ≤ 2 else flags = t.defaultFlags

/-- The header every packet type embeds. -/
structure Header where
  mTypeFlags : UInt8 := 0
  remLen : Nat := 0
  packetID : UInt16 := 0
  deriving DecidableEq, Repr

namespace Header

/-- The type in the top four bits of the first byte (`Type`). -/
def packetType (h : Header) : PacketType := PacketType.ofBits (h.mTypeFlags.toNat / 16)

/-- The flags in the low four bits of the first byte (`Flags`). -/
def flags (h : Header) : Nat := h.mTypeFlags.toNat % 16

/-- Modelled from the spec: `setType` puts the type in the top four bits, with zero flags. -/
def setType (h : Header) (t : PacketType) : Header := { h with mTypeFlags := UInt8.ofNat (t.toNat * 16) }

@[simp] theorem setType_packetType (h : Header) (t : PacketType) : (h.setType t).packetType = t := by
  have := t.toNat_lt
  simp [setType, packetType, Nat.mod_eq_of_lt (show t.toNat * 16 < 256 by omega)]

/-- The bytes `header.encode` writes: the type and flags byte, then the remaining length. -/
def bytes (h : Header) : Bytes := h.mTypeFlags :: encodeLength h.remLen

/-- Modelled from the spec: `header.encode` writes the header at the start of `dst` and returns how
many bytes it wrote; a `dst` too short for them panics. -/
def encode (h : Header) (dst : Bytes) : Option (Bytes × Nat) :=
  (writeAt dst 0 h.bytes).map (·, h.bytes.length)

/-- Modelled from the spec: `header.decode` reads the type and flags byte, rejects a reserved type
(`ErrInvalidMessageType`) or flags the type does not allow (`ErrInvalidMessageTypeFlags`), then
reads the remaining length, failing `ErrInvalidLength` on an empty buffer, a varint longer than four
bytes or running past the buffer, and a remaining length the buffer does not hold. It returns the
header's length. -/
def decode (h : Header) (src : Bytes) : Decoded Header :=
  match src with
  | [] => ⟨h, 0, some .errInvalidLength⟩
  | b :: rest =>
    let t := PacketType.ofBits (b.toNat / 16)
    if !t.valid then ⟨h, 0, some .errInvalidMessageType⟩
    else if !flagsValid t (b.toNat % 16) then ⟨h, 0, some .errInvalidMessageTypeFlags⟩
    else match readVarint 4 rest with
      | none => ⟨h, 1, some .errInvalidLength⟩
      | some (r, m) =>
        if rest.length - m < r then ⟨h, 1 + m, some .errInvalidLength⟩
        else ⟨{ h with mTypeFlags := b, remLen := r }, 1 + m, none⟩

/-- Modelled from the spec: `Size` stores the remaining length the message's `size` callback
computes and returns the whole packet's length, failing `ErrInvalidLength` above the maximum. -/
def Size (h : Header) (ml : Nat) : Header × Except Error Nat :=
  if maxRemainingLength < ml then (h, .error .errInvalidLength)
  else ({ h with remLen := ml }, .ok (1 + (encodeLength ml).length + ml))

/-- A header `decode` accepts: a valid type, allowed flags and a remaining length four varint bytes
carry. -/
def Wf (h : Header) : Prop :=
  h.packetType.valid ∧ flagsValid h.packetType h.flags ∧ h.remLen ≤ maxRemainingLength

instance (h : Header) : Decidable h.Wf := inferInstanceAs (Decidable (_ ∧ _ ∧ _))

/-- **Header round trip.** A well-formed header's bytes, followed by at least its remaining length of
further bytes, decode back to its type, flags and remaining length. -/
theorem decode_header_bytes (h g : Header) (rest : Bytes) (hw : h.Wf) (hr : h.remLen ≤ rest.length) :
    g.decode (h.bytes ++ rest) =
      ⟨{ g with mTypeFlags := h.mTypeFlags, remLen := h.remLen }, h.bytes.length, none⟩ := by
  obtain ⟨ht, hf, hmax⟩ := hw
  simp only [packetType, flags] at ht hf
  simp only [bytes, List.cons_append, decode, ht, hf, Bool.not_true, Bool.false_eq_true, if_false,
    readVarint_encodeLength rest hmax, List.length_append, List.length_cons]
  rw [if_neg (by omega)]
  simp only [Nat.add_comm]

/-- Everything a successful `decode` establishes. -/
theorem decode_ok {g : Header} {src : Bytes} (h : (g.decode src).err = none) :
    ∃ b rest r m, src = b :: rest ∧ readVarint 4 rest = some (r, m) ∧ r + m ≤ rest.length ∧
      (g.decode src).msg = { g with mTypeFlags := b, remLen := r } ∧ (g.decode src).n = 1 + m ∧
      (PacketType.ofBits (b.toNat / 16)).valid ∧ flagsValid (PacketType.ofBits (b.toNat / 16)) (b.toNat % 16) := by
  match src, h with
  | b :: rest, h =>
    simp only [decode] at h ⊢
    split at h <;> try simp at h
    split at h <;> try simp at h
    rename_i ht hf
    split at h
    · simp at h
    · rename_i r m hv
      split at h
      · simp at h
      · have := readVarint_bounds hv
        refine ⟨b, rest, r, m, rfl, hv, by omega, ?_⟩
        rw [if_neg (show ¬(rest.length - m < r) by omega)]
        simp_all

/-- An accepted header and the remaining length it declares lie inside the buffer. -/
theorem decode_frame_le {g : Header} {src : Bytes} (h : (g.decode src).err = none) :
    (g.decode src).n + (g.decode src).msg.remLen ≤ src.length := by
  obtain ⟨b, rest, r, m, rfl, -, hr, hmsg, hn, -⟩ := decode_ok h
  rw [hmsg, hn]
  simp only [List.length_cons]
  omega

/-- An accepted header decodes alike whatever follows the buffer. -/
theorem decode_append {g : Header} {src : Bytes} (rest : Bytes) (h : (g.decode src).err = none) :
    g.decode (src ++ rest) = g.decode src := by
  obtain ⟨b, rest₀, r, m, rfl, hv, hr, -, -, ht, hf⟩ := decode_ok h
  have hv' := readVarint_append rest hv
  simp only [List.cons_append, decode, ht, hf, hv, hv', List.length_append, Bool.not_true,
    Bool.false_eq_true, if_false]
  rw [if_neg (by omega), if_neg (by omega)]

end Header

end SurgeMQ.Message
