import SurgeMQ.Message.PubRel

/-!
# PUBLISH, and messages as the store sees them

The persistence code stores and restores messages through the `message.Provider` interface: their
type and packet identifier, and for a PUBLISH its QoS, topic and payload, read back through the
setters. PUBLISH itself is not among the sources, so `PublishMessage` is modelled from the spec by
those fields and by the two other flags the spec gives a PUBLISH header, DUP and RETAIN: the store
writes neither, so a reloaded PUBLISH has both cleared, and the model has to be able to say so. Its
setters check what the spec says they check, and the structure carries the two checks as fields,
so a `PublishMessage` with an invalid QoS or topic cannot be built, as none can be through the
setters.

`Provider` is the interface closed over the kinds the store tells apart: a PUBLISH, a PUBREL, and
any other type with its packet identifier. `newMessage` is the dispatcher's constructor, which the
loader calls on the stored type byte.
-/

namespace SurgeMQ.Message

/-- Modelled from the spec: the topic-name check of `SetTopic`, absent from the sources. A topic name
is length-prefixed, so at most 65535 bytes, and holds no wildcard character, `+` or `#`. -/
def topicValid (t : Bytes) : Bool := decide (t.length ≤ 65535) && !t.contains 0x2B && !t.contains 0x23

/-- Modelled from the spec: `PublishMessage`, absent from the sources, by the fields the store
keeps and the header's DUP and RETAIN flags, which it does not. -/
structure PublishMessage where
  packetID : UInt16
  dup : Bool
  qos : QosType
  retain : Bool
  topic : Bytes
  payload : Bytes
  qos_valid : isValid qos
  topic_valid : topicValid topic
  deriving DecidableEq

namespace PublishMessage

/-- Modelled from the spec: `NewPublishMessage`, QoS 0 with no flag set and an empty topic and
payload. -/
def newPublishMessage : PublishMessage := ⟨0, false, 0, false, [], [], rfl, rfl⟩

/-- Modelled from the spec: `SetPacketID`. -/
def setPacketID (m : PublishMessage) (v : UInt16) : PublishMessage := { m with packetID := v }

/-- Modelled from the spec: `SetQoS` refuses a QoS outside `{0, 1, 2}`. -/
def setQoS (m : PublishMessage) (q : QosType) : Except Error PublishMessage :=
  if h : isValid q then .ok { m with qos := q, qos_valid := h } else .error .errInvalidQoS

/-- Modelled from the spec: `SetTopic` refuses a topic name `topicValid` rejects. -/
def setTopic (m : PublishMessage) (t : Bytes) : Except Error PublishMessage :=
  if h : topicValid t then .ok { m with topic := t, topic_valid := h } else .error .errInvalidTopic

/-- Modelled from the spec: `SetPayload`. -/
def setPayload (m : PublishMessage) (p : Bytes) : PublishMessage := { m with payload := p }

theorem topic_length_le (m : PublishMessage) : m.topic.length ≤ 65535 := by
  have h := m.topic_valid
  simp only [topicValid, Bool.and_eq_true, decide_eq_true_eq] at h
  exact h.1.1

theorem setQoS_of_valid (m : PublishMessage) {q : QosType} (h : isValid q) :
    m.setQoS q = .ok { m with qos := q, qos_valid := h } := dif_pos h

theorem setTopic_of_valid (m : PublishMessage) {t : Bytes} (h : topicValid t) :
    m.setTopic t = .ok { m with topic := t, topic_valid := h } := dif_pos h

end PublishMessage

/-- `message.Provider`, by the kinds the store tells apart. -/
inductive Provider where
  | publish (m : PublishMessage)
  | pubRel (m : PubRelMessage)
  | other (t : PacketType) (packetID : UInt16)
  deriving DecidableEq

namespace Provider

/-- `Type()`: a PUBREL's is the type in its header. -/
def type : Provider → PacketType
  | publish _ => .publish
  | pubRel m => m.header.packetType
  | other t _ => t

/-- `PacketID()`. -/
def packetID : Provider → UInt16
  | publish m => m.packetID
  | pubRel m => m.header.packetID
  | other _ p => p

end Provider

/-- Modelled from the spec: `Type.NewMessage`, absent from the sources. A fresh message of each of
the fourteen types, and `ErrInvalidMessageType` for the two reserved values and for any byte above
fifteen. -/
def newMessage (t : UInt8) : Except Error Provider :=
  if 16 ≤ t.toNat then .error .errInvalidMessageType
  else match PacketType.ofBits t.toNat with
    | .reserved | .reserved2 => .error .errInvalidMessageType
    | .publish => .ok (.publish PublishMessage.newPublishMessage)
    | .pubrel => .ok (.pubRel PubRelMessage.newPubRelMessage)
    | t => .ok (.other t 0)

theorem newMessage_publish :
    newMessage (UInt8.ofNat PacketType.publish.toNat) =
      .ok (.publish PublishMessage.newPublishMessage) := rfl

theorem newMessage_pubrel :
    newMessage (UInt8.ofNat PacketType.pubrel.toNat) = .ok (.pubRel PubRelMessage.newPubRelMessage) :=
  rfl

/-- A valid type's byte makes a fresh message of that type. -/
theorem newMessage_type {t : PacketType} (ht : t.valid) :
    ∃ m, newMessage (UInt8.ofNat t.toNat) = .ok m ∧ m.type = t := by
  cases t <;> first | exact ⟨_, rfl, rfl⟩ | cases ht

end SurgeMQ.Message
