import SurgeMQ.Message.Provider

/-!
# SUBACK

`SubAckMessage` carries a packet identifier and one return code per requested subscription. Its
decoder reads the identifier, then `remLen - 2` codes into the message's code list, growing the
list when it is shorter and overwriting its prefix otherwise, and only then checks each code. Its
encoder writes the header, the identifier and the codes. `AddReturnCodes` appends codes one at a
time and stops at the first invalid one, so an error leaves the valid codes before it appended:
`addReturnCodes_eq` says exactly what it leaves.
-/

namespace SurgeMQ.Message

structure SubAckMessage where
  header : Header
  returnCodes : List QosType
  deriving DecidableEq, Repr

namespace SubAckMessage

def newSubAckMessage : SubAckMessage := ⟨({} : Header).setType .suback, []⟩

/-- `AddReturnCodes`: each code is checked and appended in turn; the first invalid one ends the call
with `ErrInvalidReturnCode`. -/
def addReturnCodes (msg : SubAckMessage) : List QosType → SubAckMessage × Option Error
  | [] => (msg, none)
  | c :: cs =>
    if !isValidFull c then (msg, some .errInvalidReturnCode)
    else addReturnCodes { msg with returnCodes := msg.returnCodes ++ [c] } cs

def addReturnCode (msg : SubAckMessage) (ret : QosType) : SubAckMessage × Option Error :=
  msg.addReturnCodes [ret]

def setPacketID (msg : SubAckMessage) (v : UInt16) : SubAckMessage :=
  { msg with header.packetID := v }

/-- The remaining length: the packet identifier and one byte a code. -/
def size (msg : SubAckMessage) : Nat := 2 + msg.returnCodes.length

def Size (msg : SubAckMessage) : SubAckMessage × Except Error Nat :=
  let (h, r) := msg.header.Size msg.size
  ({ msg with header := h }, r)

/-- The code list after decoding `read`, `l` codes: a zeroed list of `l` codes replaces a shorter
one, then the codes read overwrite its prefix. -/
def readCodes (codes : List QosType) (l : Int) (read : Bytes) : List QosType :=
  let codes := if (codes.length : Int) < l then List.replicate l.toNat 0 else codes
  read ++ codes.drop read.length

/-- `decode` on the slice `src`, whose backing array holds the bytes `spare` past its length: the
slice expression of the codes, `src[total : total+l]`, is bounded by the capacity. -/
def decodeCap (msg : SubAckMessage) (src spare : Bytes) : Option (Decoded SubAckMessage) :=
  let hd := msg.header.decode src
  let msg := { msg with header := hd.msg }
  match hd.err with
  | some e => some ⟨msg, hd.n, some e⟩
  | none => do
    let packetID ← uint16 (src.drop hd.n)
    let total := hd.n + 2
    let l : Int := msg.header.remLen - (total - hd.n)
    let read ← slice (src ++ spare) total (total + l)
    let codes := readCodes msg.returnCodes l read
    let msg := { msg with header.packetID := packetID, returnCodes := codes }
    let total := total + codes.length
    if codes.all isValidFull then pure ⟨msg, total, none⟩
    else pure ⟨msg, total, some .errInvalidReturnCode⟩

/-- `decode` on a slice whose capacity is its length. -/
def decode (msg : SubAckMessage) (src : Bytes) : Option (Decoded SubAckMessage) :=
  msg.decodeCap src []

def preEncode (msg : SubAckMessage) (dst : Bytes) : Option (Bytes × Nat × Option Error) :=
  if msg.header.packetID = 0 then some (dst, 0, some .errPackedIDZero)
  else do
    let (dst, n) ← msg.header.encode dst
    let dst ← writeAt dst n (putUint16 msg.header.packetID)
    let dst ← writeAt dst (n + 2) msg.returnCodes
    pure (dst, n + 2 + msg.returnCodes.length, none)

def Encode (msg : SubAckMessage) (dst : Bytes) : Option (Encoded SubAckMessage) :=
  encodeWith Size preEncode msg dst

def Send (msg : SubAckMessage) (externalBuf : Bytes) : Option (Sent SubAckMessage) :=
  sendWith Size preEncode msg externalBuf

/-! ### Adding return codes -/

/-- **`AddReturnCodes` keeps the valid prefix.** It succeeds with every code appended exactly when
all are valid; otherwise it fails with the codes before the first invalid one appended. -/
theorem addReturnCodes_eq (msg : SubAckMessage) (ret : List QosType) :
    msg.addReturnCodes ret =
      if ret.all isValidFull then ({ msg with returnCodes := msg.returnCodes ++ ret }, none)
      else ({ msg with returnCodes := msg.returnCodes ++ ret.takeWhile isValidFull },
        some .errInvalidReturnCode) := by
  induction ret generalizing msg with
  | nil => simp [addReturnCodes]
  | cons c cs ih =>
    by_cases hc : isValidFull c
    · simp [addReturnCodes, hc, ih, List.takeWhile_cons]
    · simp [addReturnCodes, hc, List.takeWhile_cons]

theorem addReturnCodes_ok {msg : SubAckMessage} {ret : List QosType}
    (h : ∀ c ∈ ret, isValidFull c) :
    msg.addReturnCodes ret = ({ msg with returnCodes := msg.returnCodes ++ ret }, none) := by
  rw [addReturnCodes_eq, if_pos (List.all_eq_true.mpr h)]

/-- What `AddReturnCodes` does to a message: the header is untouched; it returns nil exactly when
every code is valid, and then appends them all; otherwise it returns `ErrInvalidReturnCode` with the
codes before the first invalid one appended. -/
theorem addReturnCodes_outcome (msg : SubAckMessage) (ret : List QosType) :
    (msg.addReturnCodes ret).1.header = msg.header ∧
    ((msg.addReturnCodes ret).2 = none ↔ ∀ c ∈ ret, isValidFull c) ∧
    ((msg.addReturnCodes ret).2 = none →
      (msg.addReturnCodes ret).1.returnCodes = msg.returnCodes ++ ret) ∧
    ((msg.addReturnCodes ret).2 ≠ none →
      (msg.addReturnCodes ret).2 = some .errInvalidReturnCode ∧
      (msg.addReturnCodes ret).1.returnCodes = msg.returnCodes ++ ret.takeWhile isValidFull) := by
  rw [addReturnCodes_eq]
  by_cases h : ret.all isValidFull
  · simp only [h, if_true, true_and, imp_self, not_true_eq_false, false_implies, and_true]
    simpa using h
  · simp only [h, if_false, reduceCtorEq, false_iff, false_implies, ne_eq, not_false_eq_true,
      true_and, forall_const]
    simpa using h

/-- A valid code before an invalid one stays appended when `AddReturnCodes` fails. -/
theorem addReturnCodes_keeps_code_before_invalid :
    newSubAckMessage.addReturnCodes [0, 3] =
      ({ newSubAckMessage with returnCodes := [0] }, some .errInvalidReturnCode) := by
  decide

/-! ### Encoding -/

/-- The bytes a SUBACK encodes to: the header, the identifier and the codes. -/
def bytes (msg : SubAckMessage) : Bytes :=
  msg.header.bytes ++ putUint16 msg.header.packetID ++ msg.returnCodes

theorem preEncode_eq {msg : SubAckMessage} {dst : Bytes} (hp : msg.header.packetID ≠ 0)
    (hd : msg.bytes.length ≤ dst.length) :
    msg.preEncode dst = (writeAt dst 0 msg.bytes).map (·, msg.bytes.length, none) := by
  simp only [bytes, List.length_append, putUint16_length] at hd ⊢
  obtain ⟨d1, h1⟩ : ∃ d, writeAt dst 0 msg.header.bytes = some d := ⟨_, writeAt_eq_some (by omega)⟩
  have h2 := writeAt_writeAt (b := putUint16 msg.header.packetID)
    (by simp only [List.length_append, putUint16_length]; omega) h1
  obtain ⟨d2, h2'⟩ : ∃ d, writeAt dst 0 (msg.header.bytes ++ putUint16 msg.header.packetID) = some d :=
    ⟨_, writeAt_eq_some (by simp only [List.length_append, putUint16_length]; omega)⟩
  have h3 := writeAt_writeAt (b := msg.returnCodes) (by simp only [List.length_append, putUint16_length]; omega) h2'
  simp only [Nat.zero_add, List.length_append, putUint16_length] at h2 h3
  simp only [preEncode, if_neg hp, Header.encode, h1, Option.map_some', Option.bind_eq_bind,
    Option.some_bind, h2, h2', h3, Option.pure_def]
  cases writeAt dst 0 (msg.header.bytes ++ putUint16 msg.header.packetID ++ msg.returnCodes) <;>
    simp [Nat.add_assoc]

theorem Size_of_le {msg : SubAckMessage} (hs : msg.size ≤ maxRemainingLength) :
    msg.Size = (⟨{ msg.header with remLen := msg.size }, msg.returnCodes⟩,
      .ok (1 + (encodeLength msg.size).length + msg.size)) := by
  simp [Size, Header.Size, if_neg (Nat.not_lt.mpr hs)]

theorem Encode_eq {msg : SubAckMessage} {dst : Bytes} (hp : msg.header.packetID ≠ 0)
    (hs : msg.size ≤ maxRemainingLength)
    (hd : (⟨{ msg.header with remLen := msg.size }, msg.returnCodes⟩ : SubAckMessage).bytes.length ≤
      dst.length) :
    msg.Encode dst = (writeAt dst 0 (⟨{ msg.header with remLen := msg.size }, msg.returnCodes⟩ :
      SubAckMessage).bytes).map fun d => ⟨⟨{ msg.header with remLen := msg.size }, msg.returnCodes⟩,
        d, (⟨{ msg.header with remLen := msg.size }, msg.returnCodes⟩ : SubAckMessage).bytes.length,
        none⟩ := by
  have hlen : (⟨{ msg.header with remLen := msg.size }, msg.returnCodes⟩ : SubAckMessage).bytes.length =
      1 + (encodeLength msg.size).length + msg.size := by
    simp only [bytes, Header.bytes, size, List.length_append, List.length_cons, putUint16_length]
    omega
  exact encodeWith_eq (by rw [Size_of_le hs, hlen]) (preEncode_eq hp hd) hd

/-- `Size` fails only on a remaining length past the maximum, with `ErrInvalidLength`. -/
theorem Size_error {msg msg' : SubAckMessage} {err : Error} (hs : msg.Size = (msg', .error err)) :
    err = .errInvalidLength := by
  by_cases hm : msg.size ≤ maxRemainingLength
  · rw [Size_of_le hm] at hs
    cases hs
  · simp only [Size, Header.Size, if_pos (Nat.lt_of_not_le hm), Prod.mk.injEq, Except.error.injEq] at hs
    exact hs.2.symm

theorem writesSame_of_Size {msg msg' : SubAckMessage} {L : Nat} (hs : msg.Size = (msg', .ok L)) :
    WritesSame preEncode msg' L := by
  by_cases hm : msg.size ≤ maxRemainingLength
  · rw [Size_of_le hm] at hs
    cases hs
    by_cases hp : msg.header.packetID = 0
    · exact .inr fun buf => by simp [preEncode, hp]
    · have hlen : (⟨{ msg.header with remLen := msg.size }, msg.returnCodes⟩ : SubAckMessage).bytes.length =
          1 + (encodeLength msg.size).length + msg.size := by
        simp only [bytes, Header.bytes, size, List.length_append, List.length_cons, putUint16_length]
        omega
      exact .inl ⟨_, hlen, fun buf hb => hlen ▸ preEncode_eq hp (hlen ▸ hb)⟩
  · simp [Size, Header.Size, Nat.lt_of_not_le hm] at hs

/-! ### Decoding -/

theorem readCodes_of_le {codes : List QosType} {read : Bytes} (h : codes.length ≤ read.length) :
    readCodes codes read.length read = read := by
  simp only [readCodes]
  split <;> simp [List.drop_eq_nil_of_le h]

theorem readCodes_read (codes read : List QosType) :
    readCodes codes read.length read = read ++ codes.drop read.length := by
  simp only [readCodes]
  split
  · rename_i h
    simp [List.drop_eq_nil_of_le (show codes.length ≤ read.length by omega)]
  · rfl

/-- `decode` panics exactly on a header it accepts whose remaining length is below the two bytes of
the identifier: `Uint16` reads past the buffer, or the slice of codes has a negative length. -/
theorem decode_eq_none_iff (msg : SubAckMessage) (src : Bytes) :
    msg.decode src = none ↔
      (msg.header.decode src).err = none ∧ (msg.header.decode src).msg.remLen < 2 := by
  simp only [decode, decodeCap, List.append_nil]
  cases he : (msg.header.decode src).err with
  | some e => simp
  | none =>
    have hf := Header.decode_frame_le he
    generalize msg.header.decode src = d at hf ⊢
    simp only [true_and, Option.bind_eq_bind, Option.bind_eq_none, Option.pure_def]
    constructor
    · intro h
      by_contra hr
      obtain ⟨a, ha⟩ : ∃ a, uint16 (src.drop d.n) = some a := Option.ne_none_iff_exists'.mp
        ((uint16_eq_none_iff _).not.mpr (by rw [List.length_drop]; omega))
      have h := h a ha
      rw [slice, if_pos (by push_cast; omega)] at h
      have := h _ rfl
      split at this <;> cases this
    · intro hr _ _ r hs
      rw [slice, if_neg (by push_cast; omega)] at hs
      cases hs

/-- Spare capacity changes nothing: the slice of the codes is in order only when the header's
remaining length holds the identifier, and then it ends within the frame. -/
theorem decodeCap_eq_decode (msg : SubAckMessage) (src spare : Bytes) :
    msg.decodeCap src spare = msg.decode src := by
  simp only [decode, decodeCap, List.append_nil]
  cases he : (msg.header.decode src).err with
  | some e => rfl
  | none =>
    have hf := Header.decode_frame_le he
    generalize msg.header.decode src = d at hf ⊢
    simp only [Option.bind_eq_bind]
    congr 1; funext packetID; congr 1
    by_cases hr : 2 ≤ d.msg.remLen
    · exact slice_append _ (by push_cast; omega)
    · rw [(slice_eq_none_iff _ _ _).mpr (by push_cast; omega),
        (slice_eq_none_iff _ _ _).mpr (by push_cast; omega)]

/-- A frame whose remaining length holds the identifier decodes alike whatever follows it. -/
theorem decode_append (msg : SubAckMessage) {src : Bytes} (rest : Bytes)
    (hh : (msg.header.decode src).err = none) (hr : 2 ≤ (msg.header.decode src).msg.remLen) :
    msg.decode (src ++ rest) = msg.decode src := by
  have hf := Header.decode_frame_le hh
  simp only [decode, decodeCap, List.append_nil, Header.decode_append rest hh, hh]
  rw [List.drop_append_of_le_length (by omega), uint16_append _ (by rw [List.length_drop]; omega),
    slice_append _ (by push_cast; omega)]

/-- **SUBACK decoding inverts encoding.** A well-formed SUBACK's bytes, followed by anything, decode
into a message that holds no more codes than it to its identifier and codes, consuming exactly its
bytes. -/
theorem decode_bytes (msg g : SubAckMessage) (rest : Bytes) (hw : msg.header.Wf)
    (hr : msg.header.remLen = msg.size) (hg : g.returnCodes.length ≤ msg.returnCodes.length)
    (hv : ∀ c ∈ msg.returnCodes, isValidFull c) :
    g.decode (msg.bytes ++ rest) = some ⟨{ header := { g.header with
        mTypeFlags := msg.header.mTypeFlags, remLen := msg.header.remLen,
        packetID := msg.header.packetID }, returnCodes := msg.returnCodes },
      msg.bytes.length, none⟩ := by
  have hsrc : msg.bytes ++ rest =
      msg.header.bytes ++ (putUint16 msg.header.packetID ++ msg.returnCodes ++ rest) := by
    simp [bytes]
  have hrem : msg.header.remLen ≤ (putUint16 msg.header.packetID ++ msg.returnCodes ++ rest).length := by
    simp [hr, size]
  have hl : (msg.header.remLen : Int) -
      (((msg.header.bytes.length + 2 : Nat) : Int) - msg.header.bytes.length) =
      msg.returnCodes.length := by
    rw [hr, size]; omega
  have hslice := slice_mid (msg.header.bytes ++ putUint16 msg.header.packetID) msg.returnCodes rest
  simp only [List.length_append, putUint16_length, List.append_assoc] at hslice
  rw [hsrc]
  simp only [decode, decodeCap, List.append_nil]
  rw [Header.decode_header_bytes _ _ _ hw hrem]
  simp only [hl, List.drop_left, List.append_assoc, uint16_putUint16, Option.bind_eq_bind,
    Option.some_bind, ← Nat.cast_add, hslice, readCodes_of_le hg, List.all_eq_true.mpr hv, if_true,
    Option.pure_def, Option.some.injEq, Decoded.mk.injEq, and_true]
  simp [bytes, Nat.add_assoc]

/-- **Decoding into a used SUBACK keeps its surplus codes.** `decode` replaces the code list only
when it is shorter than the frame's, then overwrites its prefix. Take any header bytes `hb` that a
header decode accepts, with a remaining length of `2 + cs.length` in any varint encoding, followed
by an identifier, the codes `cs` and anything. Decoded into a message that holds more codes, the
frame comes back with the header read, its identifier, the codes `cs` followed by the old ones past
them, a count that runs past the frame by as many, and `ErrInvalidReturnCode` when one of those is
invalid. It is exact only into a message with no more codes than the frame. -/
theorem decode_keeps_surplus_codes (g : SubAckMessage) (hb : Bytes) (p : UInt16)
    (cs rest : List QosType)
    (hh : (g.header.decode (hb ++ putUint16 p ++ cs ++ rest)).err = none)
    (hn : (g.header.decode (hb ++ putUint16 p ++ cs ++ rest)).n = hb.length)
    (hr : (g.header.decode (hb ++ putUint16 p ++ cs ++ rest)).msg.remLen = 2 + cs.length) :
    g.decode (hb ++ putUint16 p ++ cs ++ rest) =
      some ⟨⟨{ (g.header.decode (hb ++ putUint16 p ++ cs ++ rest)).msg with packetID := p },
          cs ++ g.returnCodes.drop cs.length⟩,
        hb.length + 2 + cs.length + (g.returnCodes.length - cs.length),
        if (cs ++ g.returnCodes.drop cs.length).all isValidFull then none
        else some .errInvalidReturnCode⟩ := by
  have hl : ((2 + cs.length : Nat) : Int) - (((hb.length + 2 : Nat) : Int) - hb.length) = cs.length := by
    omega
  have hslice := slice_mid (hb ++ putUint16 p) cs rest
  simp only [List.length_append, putUint16_length, List.append_assoc] at hslice
  simp only [decode, decodeCap, List.append_nil]
  generalize g.header.decode (hb ++ putUint16 p ++ cs ++ rest) = d at hh hn hr ⊢
  simp only [hh, hn, hr, hl, List.append_assoc, List.drop_left, uint16_putUint16,
    Option.bind_eq_bind, Option.some_bind, ← Nat.cast_add, hslice, readCodes_read]
  split <;> simp <;> omega

theorem decode_keeps_surplus_codes_long_varint_into_three :
    (({} : Header).decode ([0x90, 0x83, 0x00] ++ putUint16 7 ++ [1] ++ [])).err = none ∧
      (({} : Header).decode ([0x90, 0x83, 0x00] ++ putUint16 7 ++ [1] ++ [])).n =
        [0x90, 0x83, 0x00].length ∧
      (({} : Header).decode ([0x90, 0x83, 0x00] ++ putUint16 7 ++ [1] ++ [])).msg.remLen =
        2 + [(1 : QosType)].length ∧
      (⟨{}, [0, 2, 0x80]⟩ : SubAckMessage).decode ([0x90, 0x83, 0x00] ++ putUint16 7 ++ [1] ++ []) =
        some ⟨⟨{ (({} : Header).decode ([0x90, 0x83, 0x00] ++ putUint16 7 ++ [1] ++ [])).msg with
            packetID := 7 }, [1] ++ [0, 2, 0x80].drop 1⟩,
          [0x90, 0x83, 0x00].length + 2 + [(1 : QosType)].length + (3 - 1),
          if ([1] ++ [(0 : QosType), 2, 0x80].drop 1).all isValidFull then none
          else some .errInvalidReturnCode⟩ :=
  ⟨by decide, by decide, by decide,
    decode_keeps_surplus_codes ⟨{}, [0, 2, 0x80]⟩ [0x90, 0x83, 0x00] 7 [1] [] (by decide) (by decide)
      (by decide)⟩

/-- A SUBACK built with `NewSubAckMessage`, `SetPacketID` and `AddReturnCodes` encodes to `Size`
bytes that a fresh SUBACK decodes back to its identifier and codes, with anything after them. -/
theorem built_round_trip (p : UInt16) (cs : List QosType) (hp : p ≠ 0)
    (hcs : ∀ c ∈ cs, isValidFull c) (hlen : 2 + cs.length ≤ maxRemainingLength) :
    let r := (newSubAckMessage.setPacketID p).addReturnCodes cs
    r.2 = none ∧ r.1.Size.2 = .ok (1 + (encodeLength (2 + cs.length)).length + 2 + cs.length) ∧
    ∀ dst rest, 1 + (encodeLength (2 + cs.length)).length + 2 + cs.length ≤ dst.length →
      ∃ e, r.1.Encode dst = some e ∧ e.err = none ∧
        e.n = 1 + (encodeLength (2 + cs.length)).length + 2 + cs.length ∧
        ∃ d, newSubAckMessage.decode (e.dst.take e.n ++ rest) = some d ∧ d.err = none ∧ d.n = e.n ∧
          d.msg.header.packetType = .suback ∧ d.msg.header.packetID = p ∧
          d.msg.returnCodes = cs := by
  have hm : (newSubAckMessage.setPacketID p).addReturnCodes cs = (⟨⟨0x90, 0, p⟩, cs⟩, none) := by
    rw [addReturnCodes_ok hcs]; rfl
  have hs : (⟨⟨0x90, 0, p⟩, cs⟩ : SubAckMessage).size ≤ maxRemainingLength := hlen
  have hwf : (⟨0x90, 2 + cs.length, p⟩ : Header).Wf :=
    ⟨by simp only [Header.packetType]; decide,
      by simp only [Header.packetType, Header.flags]; decide, hlen⟩
  have hbytes : (⟨⟨0x90, 2 + cs.length, p⟩, cs⟩ : SubAckMessage).bytes.length =
      1 + (encodeLength (2 + cs.length)).length + 2 + cs.length := by
    simp only [bytes, Header.bytes, List.length_append, List.length_cons, putUint16_length]
    omega
  simp only [hm, Size_of_le hs, size, true_and]
  refine ⟨by congr 1; omega, fun dst rest hdst => ?_⟩
  obtain ⟨d', hw⟩ : ∃ d', writeAt dst 0 (⟨⟨0x90, 2 + cs.length, p⟩, cs⟩ : SubAckMessage).bytes = some d' :=
    ⟨_, writeAt_eq_some (by omega)⟩
  have he := @Encode_eq ⟨⟨0x90, 0, p⟩, cs⟩ dst hp hs (by simpa [size] using hbytes ▸ hdst)
  simp only [size] at he
  rw [he, hw, Option.map_some']
  refine ⟨_, rfl, rfl, hbytes, ?_⟩
  simp only [take_of_writeAt hw]
  exact ⟨_, decode_bytes _ newSubAckMessage rest hwf rfl (Nat.zero_le _) hcs, rfl, rfl,
    by simp only [Header.packetType]; decide, rfl, rfl⟩

end SubAckMessage

end SurgeMQ.Message
