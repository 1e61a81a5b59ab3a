import SurgeMQ.Persistence.Sessions
import SurgeMQ.Message.Publish

/-!
# Queued and retained messages

A session's queued messages live in the buckets `in` and `out` below its `messages` bucket, the
retained messages in the root bucket `retained`. Either way each message is a record of its own,
stored by `putMsg` in a bucket keyed by `itob64` of the next sequence number: its type byte under
`type`, its packet identifier under `id` when set, and for a PUBLISH its QoS, topic and payload.
`getMsgs` reads the records back in cursor order: it makes a fresh message of the stored type and,
for a PUBLISH only, sets every stored field through its setter.

So a stored PUBLISH comes back with its packet identifier, QoS, topic and payload, but with DUP and
RETAIN cleared, as `NewMessage` makes it and as no record keeps them; any other message comes back
fresh, of its type but without the packet identifier `putMsg` stored (`reloaded`). `load_after_stores` and
`retained_load_after_stores` state the round trip for every run of `Store` calls. The proof
follows `Subscriptions`: the record `putMsg` makes of a message (`putMsg_empty`), the bucket the
store loop leaves (`putSequenced_seqBucket`), and one pass of the cursor loop over it
(`getMsgsFrom_seqEntries`).
-/

namespace SurgeMQ.Persistence

open Bolt Message

/-- `putMsg`: the type byte, the packet identifier when it is set, and for a PUBLISH its QoS, its
topic, and its payload when that is not empty. -/
def putMsg (msg : Provider) : Tx Unit := do
  Tx.put (bytesOf "type") [UInt8.ofNat msg.type.toNat]
  if msg.packetID ≠ 0 then
    Tx.put (bytesOf "id") (putUint16 msg.packetID)
  match msg with
  | .publish m =>
    Tx.put (bytesOf "qos") [m.qos]
    Tx.put (bytesOf "topic") m.topic
    if m.payload.length > 0 then
      Tx.put (bytesOf "payload") m.payload
  | _ => pure ()

/-- `getMsgs`' `ForEach` callback on a PUBLISH: a stored field through its setter. `Uint16` on fewer
than two bytes and `val[0]` on an empty value panic. -/
def loadField (m : PublishMessage) (name : Bytes) (val : Option Bytes) :
    Except Error PublishMessage :=
  if name = bytesOf "id" then
    match uint16 (val.getD []) with
    | some v => .ok (m.setPacketID v)
    | none => .error .panic
  else if name = bytesOf "topic" then (m.setTopic (val.getD [])).mapError .message
  else if name = bytesOf "payload" then .ok (m.setPayload (val.getD []))
  else if name = bytesOf "qos" then
    match val with
    | some (b :: _) => (m.setQoS b).mapError .message
    | _ => .error .panic
  else .ok m

/-- `ForEach` over a record with that callback, stopping at its first error. -/
def loadFields (m : PublishMessage) : List (Bytes × Node) → Except Error PublishMessage
  | [] => .ok m
  | (name, n) :: es =>
    match loadField m name n.value? with
    | .ok m => loadFields m es
    | .error e => .error e

/-- One turn of `getMsgs`' cursor loop, on the bucket `b.Bucket(k)` at the cursor's key: a nil
bucket, or a missing or empty `type`, panics. -/
def getMsg (packBuk : Option Bucket) : Except Error Provider :=
  match packBuk with
  | none => .error .panic
  | some packBuk =>
    match packBuk.get (bytesOf "type") with
    | some (t :: _) =>
      match newMessage t with
      | .error e => .error (.message e)
      | .ok (.publish m) => (loadFields m packBuk.entries).map .publish
      | .ok mT => .ok mT
    | _ => .error .panic

/-- `getMsgs`' cursor loop over the entries `es` of `b`. -/
def getMsgsFrom (b : Bucket) : List (Bytes × Node) → Except Error (List Provider)
  | [] => .ok []
  | (k, _) :: es =>
    match getMsg (b.bucket k) with
    | .error e => .error e
    | .ok m => (getMsgsFrom b es).map (m :: ·)

def getMsgs (b : Bucket) : Except Error (List Provider) := getMsgsFrom b b.entries

/-- `types.SessionMessages`. -/
structure SessionMessages where
  inMessages : List Provider
  outMessages : List Provider
  deriving DecidableEq

/-- The two directions `Load` reads. -/
def directions : List Bytes := [bytesOf "in", bytesOf "out"]

theorem ne_nil_of_mem_directions {d : Bytes} (hd : d ∈ directions) : d ≠ [] := by
  simp only [directions, List.mem_cons, List.mem_singleton, List.not_mem_nil, or_false] at hd
  rcases hd with rfl | rfl <;> decide

namespace Messages

/-- `messages.Store(dir, msg)`. -/
def store (id dir : Bytes) (msg : List Provider) (root : Bucket) : Bucket × Option Error :=
  update (Tx.inBucket bucketSessions .errNotFound <| Tx.inBucket id .errNotFound <|
    Tx.inCreatedBucket bucketMessages <| Tx.inCreatedBucket dir <| putSequenced putMsg msg) root

/-- `Load`'s read of one direction, `msg.In.Messages, _ = getMsgs(dirBuck)`: an error of `getMsgs`
is dropped and leaves the list nil; a panic is not. -/
def loadDir (msgBuck : Bucket) (dir : Bytes) : Except Error (List Provider) :=
  match msgBuck.bucket dir with
  | none => .ok []
  | some dirBuck =>
    match getMsgs dirBuck with
    | .ok l => .ok l
    | .error .panic => .error .panic
    | .error _ => .ok []

/-- `messages.Load()`. -/
def load (id : Bytes) (root : Bucket) : SessionMessages × Option Error :=
  let r : Except Error SessionMessages :=
    match root.bucket bucketSessions with
    | none => .error .errNotFound
    | some sesBucket =>
      match sesBucket.bucket id with
      | none => .error .errNotFound
      | some sBucket =>
        match sBucket.bucket bucketMessages with
        | none => .error .errNotFound
        | some msgBuck => do
          let i ← loadDir msgBuck (bytesOf "in")
          let o ← loadDir msgBuck (bytesOf "out")
          pure ⟨i, o⟩
  match r with
  | .ok m => (m, none)
  | .error e => (⟨[], []⟩, some e)

/-- `messages.Delete()`. -/
def delete (id : Bytes) (root : Bucket) : Bucket × Option Error :=
  Sessions.deleteSessionBucket bucketMessages id root

/-- `Store(dir₁, L₁), …, Store(dirₖ, Lₖ)` in turn. -/
def storeAll (id : Bytes) (stores : List (Bytes × List Provider)) (root : Bucket) : Bucket :=
  stores.foldl (fun r s => (store id s.1 s.2 r).1) root

end Messages

namespace Retained

/-- `retained.Load()`. -/
def load (root : Bucket) : List Provider × Option Error :=
  match root.bucket bucketRetained with
  | none => ([], some .errNotFound)
  | some bucket =>
    match getMsgs bucket with
    | .ok l => (l, none)
    | .error e => ([], some e)

/-- `retained.Store(msg)`. -/
def store (msg : List Provider) (root : Bucket) : Bucket × Option Error :=
  update (Tx.inCreatedBucket bucketRetained (putSequenced putMsg msg)) root

/-- `retained.Delete()`: `ErrBucketNotFound` becomes `ErrNotFound`. -/
def delete (root : Bucket) : Bucket × Option Error :=
  match update (Tx.deleteBucket bucketRetained) root with
  | (root', some (.bolt .errBucketNotFound)) => (root', some .errNotFound)
  | r => r

/-- `Store(L₁), …, Store(Lₖ)` in turn. -/
def storeAll (Ls : List (List Provider)) (root : Bucket) : Bucket :=
  Ls.foldl (fun r L => (store L r).1) root

end Retained

/-! ### Records -/

/-- The messages `putMsg` writes whole and `getMsgs` reads back: a PUBLISH whose payload bolt can
hold, or a PUBREL. A longer payload makes the `Put` fail (`putMsg_fails`), and a record of any other
type is read back without any field. -/
def Persistable : Provider → Prop
  | .publish m => m.payload.length ≤ maxValueSize
  | .pubRel m => m.header.packetType = .pubrel
  | .other _ _ => False

instance : DecidablePred Persistable := fun
  | .publish m => inferInstanceAs (Decidable (m.payload.length ≤ maxValueSize))
  | .pubRel m => inferInstanceAs (Decidable (m.header.packetType = .pubrel))
  | .other _ _ => inferInstanceAs (Decidable False)

/-- The record `putMsg` makes of a message, in key order: `id`, `payload`, `qos`, `topic`,
`type`. -/
def msgBucket (msg : Provider) : Bucket :=
  .mk 0 <| (if msg.packetID = 0 then [] else [(bytesOf "id", .value (putUint16 msg.packetID))]) ++
    (match msg with
      | .publish m =>
        (if m.payload = [] then [] else [(bytesOf "payload", .value m.payload)]) ++
          [(bytesOf "qos", .value [m.qos]), (bytesOf "topic", .value m.topic)]
      | _ => []) ++
    [(bytesOf "type", .value [UInt8.ofNat msg.type.toNat])]

/-- A message as `getMsgs` rebuilds it from its record: a PUBLISH with the stored fields set on a
fresh one, so with DUP and RETAIN cleared, any other type fresh from `NewMessage`, without its
packet identifier. -/
def reloaded : Provider → Provider
  | .publish m => .publish { m with dup := false, retain := false }
  | .pubRel _ => .pubRel PubRelMessage.newPubRelMessage
  | .other t _ => .other t 0

theorem putMsg_empty {msg : Provider} (h : Persistable msg) :
    putMsg msg .empty = .ok ((), msgBucket msg) := by
  cases msg with
  | publish m =>
    have ht : m.topic.length ≤ maxValueSize := le_trans m.topic_length_le (by decide)
    have hp : m.payload.length ≤ maxValueSize := h
    by_cases hid : m.packetID = 0 <;> by_cases hpay : m.payload = [] <;>
      simp +decide [putMsg, Tx.put_eq, Bucket.empty, putEntry, lookup, msgBucket, Provider.type,
        Provider.packetID, hid, hpay, ht, hp, List.length_pos]
  | pubRel m =>
    by_cases hid : m.header.packetID = 0 <;>
      simp +decide [putMsg, Tx.put_eq, Bucket.empty, putEntry, lookup, msgBucket, Provider.type,
        Provider.packetID, hid]
  | other => cases h

/-- A PUBLISH whose payload bolt cannot hold fails to be written, into any bucket: every `Put`
before the payload's succeeds or fails. -/
theorem putMsg_fails {m : PublishMessage} (h : maxValueSize < m.payload.length) :
    Tx.Fails (putMsg (.publish m)) := by
  simp only [putMsg, gt_iff_lt, if_pos (show 0 < m.payload.length by omega)]
  refine Tx.Fails.bind_right fun _ => ?_
  split <;> exact Tx.Fails.bind_right fun _ => Tx.Fails.bind_right fun _ =>
    Tx.Fails.bind_right fun _ => Tx.put_fails h

theorem getMsg_msgBucket {msg : Provider} (h : Persistable msg) :
    getMsg (some (msgBucket msg)) = .ok (reloaded msg) := by
  cases msg with
  | publish m =>
    obtain ⟨id, d, q, r, t, p, hq, ht⟩ := m
    have hid' : uint16 (putUint16 id) = some id := by simpa using uint16_putUint16 id []
    by_cases hid : id = 0 <;> by_cases hpay : p = [] <;>
      simp +decide [getMsg, msgBucket, Bucket.get, lookup, Node.value?, newMessage_publish, loadFields,
        loadField, PublishMessage.newPublishMessage, PublishMessage.setPacketID,
        PublishMessage.setPayload, PublishMessage.setQoS, PublishMessage.setTopic, hq, ht, hid, hid',
        hpay, reloaded, Provider.type, Provider.packetID, Except.map, Except.mapError]
  | pubRel m =>
    simp only [Persistable] at h
    by_cases hid : m.header.packetID = 0 <;>
      simp +decide [getMsg, msgBucket, Bucket.get, lookup, Node.value?, newMessage_pubrel, h, hid, reloaded,
        Provider.type, Provider.packetID]
  | other => cases h

/-- **One pass of the cursor loop.** Over records each of which its key finds, `getMsgs` rebuilds
their messages in order. -/
theorem getMsgsFrom_seqEntries {b : Bucket} :
    ∀ {n : Nat} {L : List Provider}, (∀ msg ∈ L, Persistable msg) →
      (∀ e ∈ seqEntries msgBucket n L, lookup e.1 b.entries = some e.2) →
      getMsgsFrom b (seqEntries msgBucket n L) = .ok (L.map reloaded)
  | _, [], _, _ => rfl
  | n, msg :: L, hp, h => by
    have hb : b.bucket (seqKey (n + 1)) = some (msgBucket msg) := by
      simp [Bucket.bucket, h _ (List.mem_cons_self _ _)]
    simp only [seqEntries, getMsgsFrom, hb, getMsg_msgBucket (hp msg (List.mem_cons_self _ _)),
      getMsgsFrom_seqEntries (fun m hm => hp m (List.mem_cons_of_mem _ hm))
        (fun e he => h e (List.mem_cons_of_mem _ he)), List.map_cons]
    rfl

theorem getMsgs_seqBucket {L : List Provider} (hp : ∀ msg ∈ L, Persistable msg)
    (hn : L.length < 2 ^ 64) : getMsgs (seqBucket msgBucket L) = .ok (L.map reloaded) :=
  getMsgsFrom_seqEntries hp fun _ he => lookup_seqBucket hn he

/-- The bucket of direction `d` holds the records of `L`, or there is none and `L` is empty. -/
def DirHolds (msgBuck : Bucket) (d : Bytes) (L : List Provider) : Prop :=
  msgBuck.bucket d = some (seqBucket msgBucket L) ∨ (L = [] ∧ lookup d msgBuck.entries = none)

/-- The direction's bucket as `CreateBucketIfNotExists` finds it: the stored one, or none yet and
an empty one made. -/
theorem DirHolds.created {msgBuck : Bucket} {d : Bytes} {L : List Provider} (h : DirHolds msgBuck d L) :
    msgBuck.bucket d = some (seqBucket msgBucket L) ∨
      (seqBucket msgBucket L = .empty ∧ lookup d msgBuck.entries = none) :=
  Or.imp_right (fun ⟨h₁, h₂⟩ => ⟨by rw [h₁]; rfl, h₂⟩) h

theorem loadDir_of_dirHolds {msgBuck : Bucket} {d : Bytes} {L : List Provider}
    (h : DirHolds msgBuck d L) (hp : ∀ msg ∈ L, Persistable msg) (hn : L.length < 2 ^ 64) :
    Messages.loadDir msgBuck d = .ok (L.map reloaded) := by
  rcases h with h | ⟨rfl, h⟩
  · simp [Messages.loadDir, h, getMsgs_seqBucket hp hn]
  · simp [Messages.loadDir, Bucket.bucket, h]

/-- What the `Store` calls `stores` put under direction `dir`: their lists for `dir`, concatenated
in call order. -/
def storedFor (dir : Bytes) (stores : List (Bytes × List Provider)) : List Provider :=
  (stores.filterMap fun s => if s.1 = dir then some s.2 else none).flatten

theorem storedFor_cons (dir : Bytes) (s : Bytes × List Provider) (stores : List (Bytes × List Provider)) :
    storedFor dir (s :: stores) = (if s.1 = dir then s.2 else []) ++ storedFor dir stores := by
  by_cases h : s.1 = dir <;> simp [storedFor, List.filterMap_cons, h]

theorem mem_storedFor {dir : Bytes} {stores : List (Bytes × List Provider)} {msg : Provider}
    (h : msg ∈ storedFor dir stores) : ∃ s ∈ stores, msg ∈ s.2 := by
  simp only [storedFor, List.mem_flatten, List.mem_filterMap] at h
  obtain ⟨l, ⟨s, hs, hl⟩, hm⟩ := h
  split at hl <;> cases hl
  exact ⟨s, hs, hm⟩

/-- A `Store(s.1, s.2)` followed by `stores` leaves each direction what `s :: stores` stores for it. -/
theorem update_append_storedFor (held : Bytes → List Provider) (s : Bytes × List Provider)
    (stores : List (Bytes × List Provider)) (d : Bytes) :
    Function.update held s.1 (held s.1 ++ s.2) d ++ storedFor d stores =
      held d ++ storedFor d (s :: stores) := by
  by_cases hsd : d = s.1
  · subst hsd; simp [storedFor_cons]
  · simp [storedFor_cons, hsd, Ne.symm hsd]

namespace Messages

/-- Session `id` has a `messages` bucket, whose bucket for each direction `d` holds the records of
`held d`. -/
def Holds (id : Bytes) (held : Bytes → List Provider) (root : Bucket) : Prop :=
  ∃ sesBucket sBucket msgBuck, root.bucket bucketSessions = some sesBucket ∧
    sesBucket.bucket id = some sBucket ∧ sBucket.bucket bucketMessages = some msgBuck ∧
    ∀ d ∈ directions, DirHolds msgBuck d (held d)

/-- Session `id` is there with no `messages` bucket, as `New` leaves it and `Delete` leaves its
messages. -/
def Fresh (id : Bytes) (root : Bucket) : Prop :=
  ∃ sesBucket sBucket, root.bucket bucketSessions = some sesBucket ∧
    sesBucket.bucket id = some sBucket ∧ lookup bucketMessages sBucket.entries = none

/-- **One `Store`.** `Store(dir, M)` returns nil and appends `M` to what direction `dir` holds. -/
theorem store_holds {id dir : Bytes} {held : Bytes → List Provider} {M : List Provider}
    {root : Bucket} (hr : Holds id held root ∨ ((∀ d, held d = []) ∧ Fresh id root))
    (hd : dir ∈ directions) (hM : ∀ msg ∈ M, Persistable msg)
    (hn : (held dir ++ M).length < 2 ^ 64) :
    (store id dir M root).2 = none ∧
      Holds id (Function.update held dir (held dir ++ M)) (store id dir M root).1 := by
  obtain ⟨sesBucket, sBucket, msgBuck, hses, hs, hmsg, hdirs⟩ : ∃ sesBucket sBucket msgBuck,
      root.bucket bucketSessions = some sesBucket ∧ sesBucket.bucket id = some sBucket ∧
      (sBucket.bucket bucketMessages = some msgBuck ∨
        (msgBuck = .empty ∧ lookup bucketMessages sBucket.entries = none)) ∧
      ∀ d ∈ directions, DirHolds msgBuck d (held d) := by
    rcases hr with ⟨a, b, c, h₁, h₂, h₃, h₄⟩ | ⟨hh, a, b, h₁, h₂, h₃⟩
    · exact ⟨a, b, c, h₁, h₂, .inl h₃, h₄⟩
    · exact ⟨a, b, .empty, h₁, h₂, .inr ⟨rfl, h₃⟩, fun d _ => .inr ⟨hh d, rfl⟩⟩
  have hin := Tx.inCreatedBucket_eq (by decide) hmsg (Tx.inCreatedBucket_eq
    (ne_nil_of_mem_directions hd) (hdirs dir hd).created
    (putSequenced_seqBucket (fun msg h => putMsg_empty (hM msg h)) hn))
  have hsB : (Sessions.sessionsOf root).bucket id = some sBucket := by
    rw [Sessions.sessionsOf_of_bucket hses, hs]
  rw [store, Sessions.update_inSession_eq hsB hin]
  refine ⟨rfl, _, _, _, by simp [Sessions.putSession]; rfl, by simp; rfl, by simp; rfl, fun d hd' => ?_⟩
  by_cases h : d = dir
  · subst h
    exact .inl (by simp)
  · rcases hdirs d hd' with h' | ⟨h₁, h₂⟩
    · exact .inl (by simp [h, Ne.symm h, h'])
    · exact .inr ⟨by simp [h, h₁], by simp [Bucket.setBucket, Ne.symm h, h₂]⟩

/-- **The `Store`s.** Each `Store` appends its list to what its direction holds. -/
theorem storeAll_holds {id : Bytes} :
    ∀ {stores : List (Bytes × List Provider)} {held : Bytes → List Provider} {root : Bucket},
      Holds id held root → (∀ s ∈ stores, s.1 ∈ directions) →
      (∀ s ∈ stores, ∀ msg ∈ s.2, Persistable msg) →
      (∀ d ∈ directions, (held d ++ storedFor d stores).length < 2 ^ 64) →
      Holds id (fun d => held d ++ storedFor d stores) (storeAll id stores root)
  | [], held, root, h, _, _, _ => by simpa [storeAll, storedFor] using h
  | s :: stores, held, root, h, hdirs, hp, hn => by
    have hstep := store_holds (.inl h) (hdirs s (by simp)) (hp s (by simp))
      (by have := hn s.1 (hdirs s (by simp)); simp [storedFor_cons] at this ⊢; omega)
    have hrest := storeAll_holds hstep.2 (fun s' (h' : s' ∈ stores) => hdirs s' (by simp [h']))
      (fun s' (h' : s' ∈ stores) => hp s' (by simp [h']))
      (fun d hd => by rw [update_append_storedFor]; exact hn d hd)
    simpa [storeAll, update_append_storedFor] using hrest

theorem load_of_holds {id : Bytes} {held : Bytes → List Provider} {root : Bucket}
    (h : Holds id held root) (hp : ∀ d ∈ directions, ∀ msg ∈ held d, Persistable msg)
    (hn : ∀ d ∈ directions, (held d).length < 2 ^ 64) :
    load id root =
      (⟨(held (bytesOf "in")).map reloaded, (held (bytesOf "out")).map reloaded⟩, none) := by
  obtain ⟨sesBucket, sBucket, msgBuck, hses, hs, hmsg, hdirs⟩ := h
  have hin : bytesOf "in" ∈ directions := by simp [directions]
  have hout : bytesOf "out" ∈ directions := by simp [directions]
  simp [load, hses, hs, hmsg, loadDir_of_dirHolds (hdirs _ hin) (hp _ hin) (hn _ hin),
    loadDir_of_dirHolds (hdirs _ hout) (hp _ hout) (hn _ hout), bind, Except.bind, pure, Except.pure]

/-- **Queued messages load back as stored.** After `Store(dir₁, L₁), …, Store(dirₖ, Lₖ)` with
`k ≥ 1` on a session with no messages, `Load` returns nil and, for each direction, the messages
stored for it in call order, each as `getMsgs` rebuilds it. -/
theorem load_after_stores {id : Bytes} {stores : List (Bytes × List Provider)} {root : Bucket}
    (hfresh : Fresh id root) (hk : stores ≠ []) (hdirs : ∀ s ∈ stores, s.1 ∈ directions)
    (hp : ∀ s ∈ stores, ∀ msg ∈ s.2, Persistable msg)
    (hn : ∀ d ∈ directions, (storedFor d stores).length < 2 ^ 64) :
    load id (storeAll id stores root) =
      (⟨(storedFor (bytesOf "in") stores).map reloaded,
        (storedFor (bytesOf "out") stores).map reloaded⟩, none) := by
  obtain ⟨s, stores, rfl⟩ := List.exists_cons_of_ne_nil hk
  have hfirst := @store_holds id s.1 (fun _ => []) s.2 root (.inr ⟨fun _ => rfl, hfresh⟩)
    (hdirs s (by simp)) (hp s (by simp))
    (by have := hn s.1 (hdirs s (by simp)); simp [storedFor_cons] at this ⊢; omega)
  have hheld := update_append_storedFor (fun _ => []) s stores
  have hall := storeAll_holds hfirst.2 (fun s' (h' : s' ∈ stores) => hdirs s' (by simp [h']))
    (fun s' (h' : s' ∈ stores) => hp s' (by simp [h'])) (fun d hd => by rw [hheld]; exact hn d hd)
  simp only [hheld] at hall
  exact load_of_holds hall (fun d _ msg hm => by
    obtain ⟨s', hs', hm'⟩ := mem_storedFor hm
    exact hp s' hs' msg hm') hn

theorem load_after_stores_both_directions :
    let stores : List (Bytes × List Provider) :=
      [(bytesOf "in", [.publish ⟨5, true, 1, true, bytesOf "a/b", [1, 2, 3], rfl, rfl⟩]),
        (bytesOf "out", [.pubRel (PubRelMessage.newPubRelMessage.setPacketID 9)]),
        (bytesOf "in", [.publish PublishMessage.newPublishMessage])]
    Fresh (bytesOf "s") (Sessions.new (bytesOf "s") .empty).1 ∧ stores ≠ [] ∧
      (∀ s ∈ stores, s.1 ∈ directions) ∧ (∀ s ∈ stores, ∀ msg ∈ s.2, Persistable msg) ∧
      (∀ d ∈ directions, (storedFor d stores).length < 2 ^ 64) ∧
      load (bytesOf "s") (storeAll (bytesOf "s") stores (Sessions.new (bytesOf "s") .empty).1) =
        (⟨(storedFor (bytesOf "in") stores).map reloaded,
          (storedFor (bytesOf "out") stores).map reloaded⟩, none) := by
  intro stores
  have hfresh : Fresh (bytesOf "s") (Sessions.new (bytesOf "s") .empty).1 := ⟨_, _, rfl, rfl, rfl⟩
  have hk : stores ≠ [] := List.cons_ne_nil _ _
  have hdirs : ∀ s ∈ stores, s.1 ∈ directions := by decide
  have hp : ∀ s ∈ stores, ∀ msg ∈ s.2, Persistable msg := by decide
  have hn : ∀ d ∈ directions, (storedFor d stores).length < 2 ^ 64 := by decide
  exact ⟨hfresh, hk, hdirs, hp, hn, load_after_stores hfresh hk hdirs hp hn⟩

/-- A PUBREL stored with packet identifier 7 loads back with identifier 0, and so cannot be encoded
again; and before the first `Store` a session's messages are not found. -/
theorem load_reloads_pubrel_without_packetID :
    load (bytesOf "s") (store (bytesOf "s") (bytesOf "in")
        [.pubRel (PubRelMessage.newPubRelMessage.setPacketID 7)] (Sessions.new (bytesOf "s") .empty).1).1 =
        (⟨[.pubRel PubRelMessage.newPubRelMessage], []⟩, none) ∧
      (Provider.pubRel (PubRelMessage.newPubRelMessage.setPacketID 7)).packetID = 7 ∧
      (Provider.pubRel PubRelMessage.newPubRelMessage).packetID = 0 ∧
      (PubRelMessage.newPubRelMessage.Encode (List.replicate 4 0)).map (·.err) =
        some (some .errPackedIDZero) ∧
      load (bytesOf "s") (Sessions.new (bytesOf "s") .empty).1 = (⟨[], []⟩, some .errNotFound) := by
  decide

end Messages

namespace Retained

theorem store_holds {L M : List Provider} {root : Bucket}
    (hr : root.bucket bucketRetained = some (seqBucket msgBucket L) ∨
      (L = [] ∧ lookup bucketRetained root.entries = none))
    (hM : ∀ msg ∈ M, Persistable msg) (hn : (L ++ M).length < 2 ^ 64) :
    store M root = (root.setBucket bucketRetained (seqBucket msgBucket (L ++ M)), none) := by
  have hcur : root.bucket bucketRetained = some (seqBucket msgBucket L) ∨
      (seqBucket msgBucket L = .empty ∧ lookup bucketRetained root.entries = none) := by
    rcases hr with h | ⟨rfl, h⟩
    · exact .inl h
    · exact .inr ⟨rfl, h⟩
  exact update_of_ok (Tx.inCreatedBucket_eq (by decide) hcur
    (putSequenced_seqBucket (fun msg h => putMsg_empty (hM msg h)) hn))

theorem storeAll_holds :
    ∀ {Ls : List (List Provider)} {L : List Provider} {root : Bucket},
      root.bucket bucketRetained = some (seqBucket msgBucket L) →
      (∀ M ∈ Ls, ∀ msg ∈ M, Persistable msg) → (L ++ Ls.flatten).length < 2 ^ 64 →
      (storeAll Ls root).bucket bucketRetained = some (seqBucket msgBucket (L ++ Ls.flatten))
  | [], L, root, h, _, _ => by simpa [storeAll] using h
  | M :: Ls, L, root, h, hp, hn => by
    have hstore := store_holds (.inl h) (hp M (by simp)) (by simp at hn ⊢; omega)
    have hnext : (store M root).1.bucket bucketRetained = some (seqBucket msgBucket (L ++ M)) := by
      rw [hstore]; simp
    have := storeAll_holds hnext (fun M' (h' : M' ∈ Ls) => hp M' (by simp [h']))
      (by simpa [List.append_assoc] using hn)
    simpa [storeAll, List.append_assoc] using this

/-- **Retained messages load back as stored.** After `Store(L₁), …, Store(Lₖ)` with `k ≥ 1` on a
store with no retained messages, `Load` returns nil and the stored messages in call order, each as
`getMsgs` rebuilds it. -/
theorem retained_load_after_stores {Ls : List (List Provider)} {root : Bucket}
    (hfresh : lookup bucketRetained root.entries = none) (hk : Ls ≠ [])
    (hp : ∀ L ∈ Ls, ∀ msg ∈ L, Persistable msg) (hn : Ls.flatten.length < 2 ^ 64) :
    load (storeAll Ls root) = (Ls.flatten.map reloaded, none) := by
  obtain ⟨M, Ls, rfl⟩ := List.exists_cons_of_ne_nil hk
  simp only [List.flatten_cons, List.length_append] at hn
  have hfirst := store_holds (L := []) (.inr ⟨rfl, hfresh⟩) (hp M (by simp)) (by simp; omega)
  have hnext : (store M root).1.bucket bucketRetained = some (seqBucket msgBucket M) := by
    rw [hfirst]; simp
  have hall := storeAll_holds hnext (fun M' (h' : M' ∈ Ls) => hp M' (by simp [h']))
    (by simpa using hn)
  have hpers : ∀ msg ∈ M ++ Ls.flatten, Persistable msg := fun msg hm => by
    rcases List.mem_append.mp hm with hm | hm
    · exact hp M (by simp) msg hm
    · obtain ⟨L, hL, hm⟩ := List.mem_flatten.mp hm
      exact hp L (by simp [hL]) msg hm
  have hload := getMsgs_seqBucket hpers (by simpa using hn)
  simp only [storeAll, List.foldl_cons] at hall ⊢
  simp [load, hall, hload]

theorem retained_load_after_stores_two_calls :
    let Ls : List (List Provider) :=
      [[.publish ⟨0, false, 0, true, bytesOf "t", [7], rfl, rfl⟩], [.pubRel (PubRelMessage.newPubRelMessage.setPacketID 2)]]
    lookup bucketRetained Bucket.empty.entries = none ∧ Ls ≠ [] ∧
      (∀ L ∈ Ls, ∀ msg ∈ L, Persistable msg) ∧ Ls.flatten.length < 2 ^ 64 ∧
      load (storeAll Ls .empty) = (Ls.flatten.map reloaded, none) := by
  intro Ls
  have hfresh : lookup bucketRetained Bucket.empty.entries = none := rfl
  have hk : Ls ≠ [] := List.cons_ne_nil _ _
  have hp : ∀ L ∈ Ls, ∀ msg ∈ L, Persistable msg := by decide
  have hn : Ls.flatten.length < 2 ^ 64 := by decide
  exact ⟨hfresh, hk, hp, hn, retained_load_after_stores hfresh hk hp hn⟩

end Retained

end SurgeMQ.Persistence
