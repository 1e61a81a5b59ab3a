import SurgeMQ.Message.Header

/-!
# Encoding through `Size` and `preEncode`

Every packet type of the sources encodes the same way: `Size` stores the remaining length its
`size` callback computes and gives the packet's length, `Encode` refuses a buffer shorter than that
with `ErrInsufficientBufferSize` and otherwise runs the type's `preEncode`, and `Send` does the same
into the transport's external buffer, replacing it by a zeroed one when it is too short. The two
methods are written once here, over the type's `Size` and `preEncode`; `encodeWith_eq` is the one
fact about them the packet modules use. When `preEncode` writes the same bytes into every buffer
that holds them (`WritesSame`), the two methods agree (`sendWith_agrees`).
-/

namespace SurgeMQ.Message

/-- What an encoding method leaves in its receiver and its buffer and returns, `(n, err)`, when it
does not panic. -/
structure Encoded (σ : Type) where
  msg : σ
  dst : Bytes
  n : Nat
  err : Option Error

/-- What `Send` leaves in its receiver and in the transport's external buffer, and the slice it
hands to the transport, when it does not panic; `.error` when it fails before sending. -/
structure Sent (σ : Type) where
  msg : σ
  externalBuf : Bytes
  sent : Except Error Bytes

variable {σ : Type} (Size : σ → σ × Except Error Nat)
  (preEncode : σ → Bytes → Option (Bytes × Nat × Option Error))

/-- `Encode`, given the type's `Size` and `preEncode`. -/
def encodeWith (msg : σ) (dst : Bytes) : Option (Encoded σ) :=
  let (msg, r) := Size msg
  match r with
  | .error e => some ⟨msg, dst, 0, some e⟩
  | .ok expectedSize =>
    if dst.length < expectedSize then some ⟨msg, dst, expectedSize, some .errInsufficientBufferSize⟩
    else (preEncode msg dst).map fun (dst, n, e) => ⟨msg, dst, n, e⟩

/-- `Send`, given the type's `Size` and `preEncode`. -/
def sendWith (msg : σ) (externalBuf : Bytes) : Option (Sent σ) :=
  let (msg, r) := Size msg
  match r with
  | .error e => some ⟨msg, externalBuf, .error e⟩
  | .ok expectedSize =>
    let buf := if externalBuf.length < expectedSize then List.replicate expectedSize 0
      else externalBuf
    (preEncode msg buf).map fun (buf, total, e) =>
      match e with
      | some e => ⟨msg, buf, .error e⟩
      | none => ⟨msg, buf, .ok (buf.take total)⟩

variable {Size preEncode}

/-- When `Size` succeeds with the length of the bytes `preEncode` writes, `Encode` into a buffer that
holds them writes them at its start and returns their length. -/
theorem encodeWith_eq {msg msg' : σ} {dst bs : Bytes} (hs : Size msg = (msg', .ok bs.length))
    (hp : preEncode msg' dst = (writeAt dst 0 bs).map (·, bs.length, none))
    (hd : bs.length ≤ dst.length) :
    encodeWith Size preEncode msg dst = (writeAt dst 0 bs).map (⟨msg', ·, bs.length, none⟩) := by
  simp only [encodeWith, hs, if_neg (Nat.not_lt.mpr hd), hp]
  cases writeAt dst 0 bs <;> rfl

/-- Under the same conditions `Send` hands the transport exactly those bytes. -/
theorem sendWith_sent {msg msg' : σ} {ext bs : Bytes} (hs : Size msg = (msg', .ok bs.length))
    (hp : ∀ dst, bs.length ≤ dst.length → preEncode msg' dst = (writeAt dst 0 bs).map (·, bs.length, none)) :
    ∃ s, sendWith Size preEncode msg ext = some s ∧ s.sent = .ok bs := by
  have hbuf : bs.length ≤ (if ext.length < bs.length then List.replicate bs.length (0 : UInt8)
      else ext).length := by
    split
    · simp
    · omega
  have hw := @writeAt_eq_some (if ext.length < bs.length then List.replicate bs.length 0 else ext) bs
    0 (by simpa using hbuf)
  simp only [sendWith, hs, hp _ hbuf, hw, Option.map_some', Option.some.injEq, exists_eq_left']
  simp

/-- What `Send` hands the transport against what `Encode` returns: the bytes written at the start of
the buffer, or the same error. -/
def Agrees (e : Encoded σ) (s : Sent σ) : Prop :=
  s.msg = e.msg ∧ s.sent = match e.err with
    | none => .ok (e.dst.take e.n)
    | some err => .error err

/-- `preEncode` on a packet of `L` bytes writes the same bytes at the start of every buffer that holds
them, or refuses every buffer with `ErrPackedIDZero`, writing nothing: the one check the sources'
`preEncode`s make. -/
def WritesSame (preEncode : σ → Bytes → Option (Bytes × Nat × Option Error)) (msg : σ) (L : Nat) :
    Prop :=
  (∃ bs : Bytes, bs.length = L ∧
    ∀ buf : Bytes, L ≤ buf.length → preEncode msg buf = (writeAt buf 0 bs).map (·, L, none)) ∨
  ∀ buf, preEncode msg buf = some (buf, 0, some .errPackedIDZero)

/-- The errors `Encode` and `Send` return where a message or a buffer could otherwise make them
panic: a remaining length past the maximum (`Size`), a buffer too short for the packet (`Encode`),
and a packet identifier of zero (`preEncode`). -/
def encodeErrors : List Error := [.errInvalidLength, .errInsufficientBufferSize, .errPackedIDZero]

/-- **`Encode` does not panic.** When `Size` fails only with `ErrInvalidLength` and `preEncode`
writes the same bytes into every buffer that holds them, `Encode` returns on every buffer, leaves
one of the same length, and fails only with one of `encodeErrors`. -/
theorem encodeWith_safe {msg : σ} (dst : Bytes)
    (hs : ∀ msg' err, Size msg = (msg', .error err) → err = .errInvalidLength)
    (hp : ∀ msg' L, Size msg = (msg', .ok L) → WritesSame preEncode msg' L) :
    ∃ e, encodeWith Size preEncode msg dst = some e ∧ e.dst.length = dst.length ∧
      ∀ err, e.err = some err → err ∈ encodeErrors := by
  rcases h : Size msg with ⟨msg', err | L⟩
  · simp [encodeWith, h, hs msg' err h, encodeErrors]
  by_cases hd : dst.length < L
  · simp [encodeWith, h, hd, encodeErrors]
  rcases hp msg' L h with ⟨bs, hbs, hw⟩ | hw
  · obtain ⟨d, hd'⟩ : ∃ d, writeAt dst 0 bs = some d := ⟨_, writeAt_eq_some (by omega)⟩
    simp [encodeWith, h, hd, hw dst (by omega), hd', writeAt_length hd']
  · simp [encodeWith, h, hd, hw, encodeErrors]

/-- The buffer `Send` writes into, the external one or a zeroed one of the packet's `L` bytes when
that is too short, has `max L ext.length` bytes. -/
theorem sendWith_buf_length (ext : Bytes) (L : Nat) :
    (if ext.length < L then List.replicate L (0 : UInt8) else ext).length = max L ext.length := by
  split <;> simp <;> omega

/-- **`Send` does not panic.** Under the same conditions `Send` returns on every external buffer and
fails only with one of `encodeErrors`. When `Size` gives the packet's length `L`, the external buffer
it leaves has length `max L ext.length`: a buffer too short is replaced by a zeroed one of `L`
bytes. -/
theorem sendWith_safe {msg : σ} (ext : Bytes)
    (hs : ∀ msg' err, Size msg = (msg', .error err) → err = .errInvalidLength)
    (hp : ∀ msg' L, Size msg = (msg', .ok L) → WritesSame preEncode msg' L) :
    ∃ s, sendWith Size preEncode msg ext = some s ∧ (∀ err, s.sent = .error err → err ∈ encodeErrors) ∧
      ∀ L, (Size msg).2 = .ok L → s.externalBuf.length = max L ext.length := by
  rcases h : Size msg with ⟨msg', err | L⟩
  · simp [sendWith, h, hs msg' err h, encodeErrors]
  have hbuf := sendWith_buf_length ext L
  have hL : L ≤ (if ext.length < L then List.replicate L (0 : UInt8) else ext).length :=
    hbuf ▸ le_max_left _ _
  rcases hp msg' L h with ⟨bs, hbs, hw⟩ | hw
  · obtain ⟨d, hd⟩ : ∃ d, writeAt (if ext.length < L then List.replicate L 0 else ext) 0 bs = some d :=
      ⟨_, writeAt_eq_some (by omega)⟩
    simp only [sendWith, h, hw _ hL, hd, Option.map_some', Option.some.injEq,
      exists_eq_left', Except.ok.injEq]
    exact ⟨fun _ he => (by cases he), fun _ hL => by subst hL; rw [writeAt_length hd, hbuf]⟩
  · simp only [sendWith, h, hw, Option.map_some', Option.some.injEq, exists_eq_left']
    exact ⟨fun _ he => by cases he; simp [encodeErrors], fun _ hL => by cases hL; exact hbuf⟩

/-- `Send` and `Encode` agree on a buffer that holds the packet when `preEncode` writes the same
bytes into every such buffer: `Send`'s own buffer is the external one or a fresh one of the packet's
length. -/
theorem sendWith_agrees {msg : σ} {dst ext : Bytes}
    (hp : ∀ msg' L, Size msg = (msg', .ok L) → WritesSame preEncode msg' L ∧ L ≤ dst.length) :
    ∃ e s, encodeWith Size preEncode msg dst = some e ∧ sendWith Size preEncode msg ext = some s ∧
      Agrees e s := by
  rcases hs : Size msg with ⟨msg', _ | L⟩
  · simp only [encodeWith, sendWith, hs, Option.some.injEq, exists_and_left, exists_eq_left']
    exact ⟨rfl, rfl⟩
  obtain ⟨⟨bs, hbs, hw⟩ | hw, hd⟩ := hp msg' L hs
  · have hbuf : L ≤ (if ext.length < L then List.replicate L (0 : UInt8) else ext).length :=
      sendWith_buf_length ext L ▸ le_max_left _ _
    obtain ⟨d, hd'⟩ : ∃ d, writeAt dst 0 bs = some d := ⟨_, writeAt_eq_some (by omega)⟩
    obtain ⟨d', hd''⟩ : ∃ d', writeAt (if ext.length < L then List.replicate L 0 else ext) 0 bs =
        some d' := ⟨_, writeAt_eq_some (by omega)⟩
    simp only [encodeWith, sendWith, hs, if_neg (Nat.not_lt.mpr hd), hw dst hd, hw _ hbuf, hd', hd'',
      Option.map_some', Option.some.injEq, exists_and_left, exists_eq_left']
    refine ⟨rfl, ?_⟩
    simp only [← hbs, take_of_writeAt hd', take_of_writeAt hd'']
  · simp only [encodeWith, sendWith, hs, if_neg (Nat.not_lt.mpr hd), hw, Option.map_some',
      Option.some.injEq, exists_and_left, exists_eq_left']
    exact ⟨rfl, rfl⟩

/-- When `preEncode` writes the same bytes into every buffer that holds them, `Encode` leaves every
byte of the buffer from the count it returns on as it was, on its error paths too. -/
theorem encodeWith_tail {msg : σ} {dst : Bytes}
    (hp : ∀ msg' L, Size msg = (msg', .ok L) → WritesSame preEncode msg' L) :
    ∃ e, encodeWith Size preEncode msg dst = some e ∧ e.dst.drop e.n = dst.drop e.n := by
  rcases hs : Size msg with ⟨msg', _ | L⟩
  · simp [encodeWith, hs]
  by_cases hd : dst.length < L
  · simp [encodeWith, hs, hd]
  obtain ⟨bs, hbs, hw⟩ | hw := hp msg' L hs
  · obtain ⟨d, hd'⟩ : ∃ d, writeAt dst 0 bs = some d := ⟨_, writeAt_eq_some (by omega)⟩
    simp only [encodeWith, hs, if_neg hd, hw dst (by omega), hd', Option.map_some',
      Option.some.injEq, exists_eq_left']
    rw [← hbs]
    exact drop_of_writeAt hd'
  · simp [encodeWith, hs, if_neg hd, hw]

end SurgeMQ.Message
