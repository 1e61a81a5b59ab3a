import SurgeMQ.Persistence.Subscriptions
import SurgeMQ.Persistence.Messages

/-!
# The store as a set of sessions

The store's interface describes a set of sessions, each with its own subscriptions and messages:
`New(id)` adds `id` unless it is there, `Delete(id)` removes it with everything below it, `Get` and
`GetAll` read the set, and every other write works below one session or on the retained messages.
This module states that description over the bolt model and proves it for every run of the store's
writes.

A run is a list of `Op`s, the writes with the arguments their callers pass; `Op.apply` is the code
of each. What one write can do to the root is said once, by `Effect`: keep it, set or drop the
bucket of the session it names, or set or drop the retained bucket (`effect_apply`). The shape
`Wf`, the abstraction `hasSession` and the frame of every other session follow from that, one case
per kind of effect, and then over whole runs by induction.

bolt refuses the empty bucket name, so `New("")` stores nothing and returns nil: the refinement is
for runs whose `New`s name non-empty ids (`Op.Valid`).

A write that fails changes nothing, since `Update` rolls its closure back. The batch writes fail as
soon as one element holds a value longer than bolt's `MaxValueSize`, whatever the store holds, and
the elements before it are rolled back with it (`oversized_write_rolls_back`).
-/

namespace SurgeMQ.Persistence

open Bolt Message Sessions

/-- The store's writes, with the arguments their callers pass. -/
inductive Op where
  | newSession (id : Bytes)
  | deleteSession (id : Bytes)
  | addSubscriptions (id : Bytes) (subs : List (Bytes × QosType))
  | deleteSubscriptions (id : Bytes)
  | storeMessages (id dir : Bytes) (msg : List Provider)
  | deleteMessages (id : Bytes)
  | storeRetained (msg : List Provider)
  | deleteRetained
  deriving DecidableEq

namespace Op

/-- The code each write runs. -/
def apply : Op → Bucket → Bucket × Option Error
  | newSession id => Sessions.new id
  | deleteSession id => Sessions.delete id
  | addSubscriptions id subs => Subscriptions.add id subs
  | deleteSubscriptions id => Subscriptions.delete id
  | storeMessages id dir msg => Messages.store id dir msg
  | deleteMessages id => Messages.delete id
  | storeRetained msg => Retained.store msg
  | deleteRetained => Retained.delete

/-- The session a write names. -/
def names : Op → Option Bytes
  | newSession id | deleteSession id | addSubscriptions id _ | deleteSubscriptions id
  | storeMessages id _ _ | deleteMessages id => some id
  | storeRetained _ | deleteRetained => none

/-- Every write but `New("")`. -/
def Valid : Op → Prop
  | newSession id => id ≠ []
  | _ => True

instance : DecidablePred Valid := fun
  | newSession id => inferInstanceAs (Decidable (id ≠ []))
  | deleteSession _ | addSubscriptions _ _ | deleteSubscriptions _ | storeMessages _ _ _
  | deleteMessages _ | storeRetained _ | deleteRetained => inferInstanceAs (Decidable True)

/-- The write that makes the `sessions` bucket when there is none: `New`. -/
def createsSessions : Op → Bool
  | newSession _ => true
  | _ => false

/-- What the interface says a write does to the set of sessions. -/
def onSessions : Op → (Bytes → Bool) → (Bytes → Bool)
  | newSession id, S => Function.update S id true
  | deleteSession id, S => Function.update S id false
  | _, S => S

end Op

/-- The store after the writes `ops`, in turn. -/
def run (root : Bucket) (ops : List Op) : Bucket := ops.foldl (fun r op => (op.apply r).1) root

/-- The set of sessions the interface describes after the writes `ops`. -/
def runSessions (S : Bytes → Bool) (ops : List Op) : Bytes → Bool :=
  ops.foldl (fun S op => op.onSessions S) S

@[simp] theorem run_cons (root : Bucket) (op : Op) (ops : List Op) :
    run root (op :: ops) = run (op.apply root).1 ops := rfl

@[simp] theorem runSessions_cons (S : Bytes → Bool) (op : Op) (ops : List Op) :
    runSessions S (op :: ops) = runSessions (op.onSessions S) ops := rfl

theorem wf_empty : Wf Bucket.empty :=
  ⟨by simp [BucketsOnly, Bucket.empty], by simp [BucketsOnly, sessionsOf, Bucket.empty, Bucket.bucket]⟩

theorem sorted_empty : Sorted Bucket.empty := by
  simp [Sorted, sessionsOf, Bucket.empty, Bucket.bucket]

/-! ### What one write does -/

/-- What one write can do to the root, for a write that names session `n`: keep it, set or drop
the bucket of that session, or, naming none, set or drop the retained bucket. -/
inductive Effect (root : Bucket) : Option Bytes → Bucket → Prop
  | keep (n : Option Bytes) : Effect root n root
  | session (id : Bytes) (c : Bucket) : Effect root (some id) (putSession id c root)
  | unsession (id : Bytes) : Effect root (some id) (dropSession id root)
  | retained (c : Bucket) : Effect root none (root.setBucket bucketRetained c)
  | unretained : Effect root none (.mk root.sequence (delEntry bucketRetained root.entries))

/-- A closure that works below session `id` fails and changes nothing, or rewrites the bucket of
that session, which is there, and nothing else. -/
theorem update_inSession (id : Bytes) (x : Tx Unit) (root : Bucket) :
    (update (Tx.inBucket bucketSessions .errNotFound (Tx.inBucket id .errNotFound x)) root).1 = root ∨
      ∃ c, hasSession root id ∧ (update (Tx.inBucket bucketSessions .errNotFound
        (Tx.inBucket id .errNotFound x)) root).1 = putSession id c root := by
  unfold update
  split
  next root' h =>
    obtain ⟨ses, ses', hses, h', rfl⟩ := Tx.inBucket_ok h
    obtain ⟨c, c', hc, -, rfl⟩ := Tx.inBucket_ok h'
    exact .inr ⟨c', by simp [hasSession, hses, hc], by simp [putSession, sessionsOf_of_bucket hses]⟩
  next => exact .inl rfl

theorem effect_update_inSession (id : Bytes) (x : Tx Unit) (root : Bucket) :
    Effect root (some id)
      (update (Tx.inBucket bucketSessions .errNotFound (Tx.inBucket id .errNotFound x)) root).1 := by
  rcases update_inSession id x root with h | ⟨c, -, h⟩ <;> rw [h]
  · exact .keep _
  · exact .session id c

theorem hasSession_update_inSession (id : Bytes) (x : Tx Unit) (root : Bucket) :
    hasSession (update (Tx.inBucket bucketSessions .errNotFound
      (Tx.inBucket id .errNotFound x)) root).1 = hasSession root := by
  rcases update_inSession id x root with h | ⟨c, hs, h⟩ <;> rw [h]
  rw [hasSession_putSession, Function.update_eq_self_iff.mpr hs.symm]

theorem effect_store_retained (msg : List Provider) (root : Bucket) :
    Effect root none (Retained.store msg root).1 := by
  unfold Retained.store update
  split
  next root' h =>
    obtain ⟨c, rfl⟩ := Tx.inCreatedBucket_ok h
    exact .retained c
  next => exact .keep none

theorem effect_delete_retained (root : Bucket) :
    Effect root none (Retained.delete root).1 := by
  have h₁ : (Retained.delete root).1 = (update (Tx.deleteBucket bucketRetained) root).1 := by
    unfold Retained.delete
    split <;> simp_all
  rw [h₁]
  unfold update
  split
  next root' h =>
    simp only [Tx.deleteBucket, Tx.lift] at h
    split at h <;> cases h
    obtain ⟨-, rfl⟩ := Bucket.deleteBucket_ok ‹_›
    exact .unretained
  next => exact .keep none

/-- **What one write does.** On a well-formed store every write keeps the root, sets or drops the
bucket of the session it names, or sets or drops the retained bucket. -/
theorem effect_apply (op : Op) {root : Bucket} (hw : Wf root) :
    Effect root op.names (op.apply root).1 := by
  cases op with
  | newSession id =>
    by_cases hid : id = []
    · subst hid
      rw [Op.apply, new_nil]
      exact .keep _
    · rw [Op.apply, new_eq hid hw]
      split
      · exact .keep _
      · exact .session id .empty
  | deleteSession id =>
    rw [Op.apply, delete_eq]
    split
    · exact .unsession id
    · exact .keep _
  | addSubscriptions id subs => exact effect_update_inSession id _ root
  | deleteSubscriptions id => exact effect_update_inSession id _ root
  | storeMessages id dir msg => exact effect_update_inSession id _ root
  | deleteMessages id => exact effect_update_inSession id _ root
  | storeRetained msg => exact effect_store_retained msg root
  | deleteRetained => exact effect_delete_retained root

section Effect

variable {root root' : Bucket} {n : Option Bytes}

theorem Effect.wf (he : Effect root n root') (hw : Wf root) : Wf root' := by
  have hRS : bucketRetained ≠ bucketSessions := by decide
  cases he with
  | keep => exact hw
  | session id c => exact hw.putSession id c
  | unsession id => exact hw.dropSession id
  | retained c => exact ⟨hw.root_buckets.putEntry _ c, by simpa [hRS] using hw.sessions_buckets⟩
  | unretained =>
    exact ⟨hw.root_buckets.delEntry _, by simpa [sessionsOf, hRS] using hw.sessions_buckets⟩

theorem Effect.sorted (he : Effect root n root') (hs : Sorted root) : Sorted root' := by
  have hRS : bucketRetained ≠ bucketSessions := by decide
  cases he with
  | keep => exact hs
  | session id c => exact hs.putSession id c
  | unsession id => exact hs.dropSession id
  | retained c => simpa [Sorted, hRS] using hs
  | unretained => simpa [Sorted, sessionsOf, hRS] using hs

/-- A write leaves the bucket of every session it does not name. -/
theorem Effect.bucket_of_ne {id : Bytes} (he : Effect root n root') (hn : n ≠ some id) :
    (sessionsOf root').bucket id = (sessionsOf root).bucket id := by
  have hRS : bucketRetained ≠ bucketSessions := by decide
  cases he with
  | keep => rfl
  | session id' c =>
    have : id' ≠ id := fun h => hn (h ▸ rfl)
    simp [putSession, this]
  | unsession id' =>
    have : id' ≠ id := fun h => hn (h ▸ rfl)
    simp [dropSession, this]
  | retained => simp [hRS]
  | unretained => simp [sessionsOf, hRS]

/-- A write that names no session leaves the `sessions` bucket. -/
theorem Effect.sessions_of_none (he : Effect root none root') :
    root'.bucket bucketSessions = root.bucket bucketSessions := by
  have hRS : bucketRetained ≠ bucketSessions := by decide
  cases he with
  | keep => rfl
  | retained => simp [hRS]
  | unretained => simp [Bucket.bucket, hRS]

theorem Effect.hasSession_of_none (he : Effect root none root') : hasSession root' = hasSession root := by
  funext id
  rw [hasSession_eq, hasSession_eq, he.bucket_of_ne (by simp)]

/-- A write that names a session leaves the retained bucket. -/
theorem Effect.retained_of_some {id : Bytes} (he : Effect root (some id) root') :
    root'.bucket bucketRetained = root.bucket bucketRetained := by
  have hSR : bucketSessions ≠ bucketRetained := by decide
  cases he with
  | keep => rfl
  | session => simp [putSession, hSR]
  | unsession => simp [dropSession, hSR]

end Effect

/-- Each write changes the set of sessions as the interface says. -/
theorem hasSession_apply {op : Op} {root : Bucket} (hop : op.Valid) (hw : Wf root) :
    hasSession (op.apply root).1 = op.onSessions (hasSession root) := by
  cases op with
  | newSession id =>
    rw [Op.apply, Op.onSessions, new_eq hop hw]
    split
    · next h => exact (Function.update_eq_self_iff.mpr h.symm).symm
    · exact hasSession_putSession id .empty root
  | deleteSession id =>
    rw [Op.apply, Op.onSessions, delete_eq]
    split
    · exact hasSession_dropSession id root
    · next h => exact (Function.update_eq_self_iff.mpr (by simpa using h)).symm
  | addSubscriptions id subs => exact hasSession_update_inSession id _ root
  | deleteSubscriptions id => exact hasSession_update_inSession id _ root
  | storeMessages id dir msg => exact hasSession_update_inSession id _ root
  | deleteMessages id => exact hasSession_update_inSession id _ root
  | storeRetained msg => exact (effect_apply (.storeRetained msg) hw).hasSession_of_none
  | deleteRetained => exact (effect_apply .deleteRetained hw).hasSession_of_none

/-- Only `New` makes the `sessions` bucket, and no write removes it. -/
theorem hasSessionsBucket_apply {op : Op} {root : Bucket} (hop : op.Valid) (hw : Wf root) :
    hasSessionsBucket (op.apply root).1 = (hasSessionsBucket root || op.createsSessions) := by
  have hin : ∀ id (x : Tx Unit), hasSessionsBucket (update (Tx.inBucket bucketSessions .errNotFound
      (Tx.inBucket id .errNotFound x)) root).1 = hasSessionsBucket root := fun id x => by
    rcases update_inSession id x root with h | ⟨c, hs, h⟩ <;> rw [h]
    simp [hasSessionsBucket_of_hasSession hs]
  cases op with
  | newSession id =>
    rw [Op.apply, new_eq hop hw]
    split
    · next h => simp [Op.createsSessions, hasSessionsBucket_of_hasSession h]
    · simp [Op.createsSessions]
  | deleteSession id =>
    rw [Op.apply, delete_eq]
    split
    · next h => simp [Op.createsSessions, hasSessionsBucket_of_hasSession h]
    · simp [Op.createsSessions]
  | addSubscriptions id _ | deleteSubscriptions id | storeMessages id _ _ | deleteMessages id =>
    simpa [Op.createsSessions] using hin id _
  | storeRetained msg =>
    simp [Op.createsSessions, hasSessionsBucket, (effect_apply (.storeRetained msg) hw).sessions_of_none]
  | deleteRetained =>
    simp [Op.createsSessions, hasSessionsBucket, (effect_apply .deleteRetained hw).sessions_of_none]

/-! ### Runs -/

theorem wf_run {root : Bucket} (hw : Wf root) (ops : List Op) : Wf (run root ops) := by
  induction ops generalizing root with
  | nil => exact hw
  | cons op ops ih => exact ih ((effect_apply op hw).wf hw)

theorem sorted_run {root : Bucket} (hw : Wf root) (hs : Sorted root) (ops : List Op) :
    Sorted (run root ops) := by
  induction ops generalizing root with
  | nil => exact hs
  | cons op ops ih => exact ih ((effect_apply op hw).wf hw) ((effect_apply op hw).sorted hs)

theorem hasSession_run {root : Bucket} (hw : Wf root) {ops : List Op} (hops : ∀ op ∈ ops, op.Valid) :
    hasSession (run root ops) = runSessions (hasSession root) ops := by
  induction ops generalizing root with
  | nil => rfl
  | cons op ops ih =>
    rw [run_cons, runSessions_cons, ih ((effect_apply op hw).wf hw) (fun o h => hops o (.tail _ h)),
      hasSession_apply (hops op (.head _)) hw]

theorem hasSessionsBucket_run {root : Bucket} (hw : Wf root) {ops : List Op}
    (hops : ∀ op ∈ ops, op.Valid) :
    hasSessionsBucket (run root ops) = (hasSessionsBucket root || ops.any Op.createsSessions) := by
  induction ops generalizing root with
  | nil => simp [run]
  | cons op ops ih =>
    rw [run_cons, ih ((effect_apply op hw).wf hw) (fun o h => hops o (.tail _ h)),
      hasSessionsBucket_apply (hops op (.head _)) hw, List.any_cons, Bool.or_assoc]

theorem bucket_run_of_not_names {root : Bucket} (hw : Wf root) {ops : List Op} {id : Bytes}
    (h : ∀ op ∈ ops, op.names ≠ some id) :
    (sessionsOf (run root ops)).bucket id = (sessionsOf root).bucket id := by
  induction ops generalizing root with
  | nil => rfl
  | cons op ops ih =>
    rw [run_cons, ih ((effect_apply op hw).wf hw) (fun o ho => h o (.tail _ ho)),
      (effect_apply op hw).bucket_of_ne (h op (.head _))]

/-! ### Reads of one session -/

theorem Sessions.get_eq (id : Bytes) (root : Bucket) :
    Sessions.get id root = if hasSession root id then none else some .errNotFound := by
  unfold Sessions.get hasSession
  split <;> simp

/-- `subscriptions.Get` reads only the bucket of its session. -/
theorem Subscriptions.get_congr {r r' : Bucket} {id : Bytes}
    (h : (sessionsOf r).bucket id = (sessionsOf r').bucket id) :
    Subscriptions.get id r = Subscriptions.get id r' := by
  unfold sessionsOf at h
  unfold Subscriptions.get
  cases hr : r.bucket bucketSessions <;> cases hr' : r'.bucket bucketSessions <;>
    simp only [hr, hr', Option.getD, Bucket.bucket_empty] at h <;> dsimp only <;>
    first | rfl | rw [h] | rw [← h]

/-- `messages.Load` reads only the bucket of its session. -/
theorem Messages.load_congr {r r' : Bucket} {id : Bytes}
    (h : (sessionsOf r).bucket id = (sessionsOf r').bucket id) :
    Messages.load id r = Messages.load id r' := by
  unfold sessionsOf at h
  unfold Messages.load
  cases hr : r.bucket bucketSessions <;> cases hr' : r'.bucket bucketSessions <;>
    simp only [hr, hr', Option.getD, Bucket.bucket_empty] at h <;> dsimp only <;>
    first | rfl | rw [h] | rw [← h]

/-- `messages.Load` reads only the `messages` entry of its session's bucket. -/
theorem Messages.load_putSession {id : Bytes} {root sB sB' : Bucket}
    (hs : (sessionsOf root).bucket id = some sB)
    (h : sB'.bucket bucketMessages = sB.bucket bucketMessages) :
    Messages.load id (putSession id sB' root) = Messages.load id root := by
  obtain ⟨ses, hses, hsB⟩ := bucket_of_sessionsOf hs
  simp [Messages.load, putSession, hses, hsB, h, sessionsOf_of_bucket hses]

/-- `subscriptions.Get` reads only the `subscriptions` entry of its session's bucket. -/
theorem Subscriptions.get_putSession {id : Bytes} {root sB sB' : Bucket}
    (hs : (sessionsOf root).bucket id = some sB)
    (h : sB'.bucket bucketSubscriptions = sB.bucket bucketSubscriptions) :
    Subscriptions.get id (putSession id sB' root) = Subscriptions.get id root := by
  obtain ⟨ses, hses, hsB⟩ := bucket_of_sessionsOf hs
  simp [Subscriptions.get, putSession, hses, hsB, h, sessionsOf_of_bucket hses]

/-- A session whose bucket has no entry `key`: the shape `Fresh` names for both kinds of data. -/
theorem putSession_fresh {id key : Bytes} {c : Bucket} (root : Bucket)
    (hc : lookup key c.entries = none) :
    ∃ ses sB, (putSession id c root).bucket bucketSessions = some ses ∧ ses.bucket id = some sB ∧
      lookup key sB.entries = none :=
  ⟨(sessionsOf root).setBucket id c, c, by simp [putSession], by simp, hc⟩

theorem fresh_of_fresh {id : Bytes} {root : Bucket} (key : Bytes)
    (h : ∃ ses sB, root.bucket bucketSessions = some ses ∧ ses.bucket id = some sB ∧
      lookup key sB.entries = none) :
    ∃ sB, (sessionsOf root).bucket id = some sB ∧ lookup key sB.entries = none := by
  obtain ⟨ses, sB, hses, hs, hk⟩ := h
  exact ⟨sB, by rw [sessionsOf_of_bucket hses, hs], hk⟩

/-- **Deleting a session's subscriptions or messages.** When `subscriptions.Delete()` returns nil,
the session is there with no subscriptions, as `New` left it, and its messages load as before;
`messages.Delete()` likewise for messages, and the subscriptions read as before. On a session with
no subscriptions, as `New` leaves it, `subscriptions.Delete()` returns bolt's `ErrBucketNotFound`
and changes nothing, and `messages.Delete()` likewise. -/
theorem deletes_below_session (id : Bytes) (root : Bucket) :
    ((Subscriptions.delete id root).2 = none →
      Subscriptions.Fresh id (Subscriptions.delete id root).1 ∧
        Messages.load id (Subscriptions.delete id root).1 = Messages.load id root) ∧
      ((Messages.delete id root).2 = none →
        Messages.Fresh id (Messages.delete id root).1 ∧
          Subscriptions.get id (Messages.delete id root).1 = Subscriptions.get id root) ∧
      (Subscriptions.Fresh id root →
        Subscriptions.delete id root = (root, some (.bolt .errBucketNotFound))) ∧
      (Messages.Fresh id root → Messages.delete id root = (root, some (.bolt .errBucketNotFound))) := by
  have hSM : bucketSubscriptions ≠ bucketMessages := by decide
  refine ⟨fun h => ?_, fun h => ?_, fun h => ?_, fun h => ?_⟩
  · obtain ⟨sB, hs, heq⟩ := deleteSessionBucket_ok h
    rw [Subscriptions.delete, heq]
    exact ⟨putSession_fresh root (by simp), Messages.load_putSession hs (by simp [hSM])⟩
  · obtain ⟨sB, hs, heq⟩ := deleteSessionBucket_ok h
    rw [Messages.delete, heq]
    exact ⟨putSession_fresh root (by simp), Subscriptions.get_putSession hs (by simp [Ne.symm hSM])⟩
  · obtain ⟨sB, hs, hk⟩ := fresh_of_fresh bucketSubscriptions h
    exact deleteSessionBucket_of_none hs hk
  · obtain ⟨sB, hs, hk⟩ := fresh_of_fresh bucketMessages h
    exact deleteSessionBucket_of_none hs hk

/-! ### The store refines a set of sessions -/

/-- `New` on a session that is not there leaves it with no subscriptions and no messages. -/
theorem fresh_putSession_empty (id : Bytes) (root : Bucket) :
    Subscriptions.Fresh id (putSession id .empty root) ∧ Messages.Fresh id (putSession id .empty root) :=
  ⟨putSession_fresh root rfl, putSession_fresh root rfl⟩

/-- **The sessions store refines a set of ids.** After any run of writes from the empty store
whose `New`s name non-empty ids, the sessions are the set the interface describes after that run.
On that store, for a non-empty id, `New` reports `ErrAlreadyExists` exactly for a member, and
otherwise returns nil and adds a session with no subscriptions and no messages. `Get` succeeds
exactly for a member, `Delete` returns nil exactly for a member, and `GetAll`, when it returns nil,
lists the members. -/
theorem sessions_refine_set {ops : List Op} (hops : ∀ op ∈ ops, op.Valid) {id : Bytes}
    (hid : id ≠ []) :
    hasSession (run .empty ops) = runSessions (fun _ => false) ops ∧
      (Sessions.new id (run .empty ops)).2 =
        (if runSessions (fun _ => false) ops id then some .errAlreadyExists else none) ∧
      (runSessions (fun _ => false) ops id = false →
        Subscriptions.Fresh id (Sessions.new id (run .empty ops)).1 ∧
          Messages.Fresh id (Sessions.new id (run .empty ops)).1) ∧
      (Sessions.get id (run .empty ops) = none ↔ runSessions (fun _ => false) ops id) ∧
      (Sessions.delete id (run .empty ops)).2 =
        (if runSessions (fun _ => false) ops id then none else some .errNotFound) ∧
      ((Sessions.getAll (run .empty ops)).2 = none →
        (id ∈ (Sessions.getAll (run .empty ops)).1 ↔ runSessions (fun _ => false) ops id)) := by
  have hw := wf_run wf_empty ops
  have hS : hasSession (run .empty ops) = runSessions (fun _ => false) ops :=
    hasSession_run wf_empty hops
  rw [← hS]
  refine ⟨rfl, ?_, fun hn => ?_, get_eq_none_iff id _, ?_, fun _ => mem_getAll _ id⟩
  · rw [new_eq hid hw]
    split <;> rfl
  · rw [new_eq hid hw, if_neg (by simp [hn])]
    exact fresh_putSession_empty id _
  · rw [delete_eq]
    split <;> rfl

theorem sessions_refine_set_after_delete :
    let ops : List Op := [.newSession (bytesOf "a"), .newSession (bytesOf "b"),
      .addSubscriptions (bytesOf "a") [(bytesOf "t", 1)], .deleteSession (bytesOf "a")]
    (∀ op ∈ ops, op.Valid) ∧ bytesOf "a" ≠ [] ∧
      (hasSession (run .empty ops) = runSessions (fun _ => false) ops ∧
        (Sessions.new (bytesOf "a") (run .empty ops)).2 =
          (if runSessions (fun _ => false) ops (bytesOf "a") then some .errAlreadyExists else none) ∧
        (runSessions (fun _ => false) ops (bytesOf "a") = false →
          Subscriptions.Fresh (bytesOf "a") (Sessions.new (bytesOf "a") (run .empty ops)).1 ∧
            Messages.Fresh (bytesOf "a") (Sessions.new (bytesOf "a") (run .empty ops)).1) ∧
        (Sessions.get (bytesOf "a") (run .empty ops) = none ↔
          runSessions (fun _ => false) ops (bytesOf "a")) ∧
        (Sessions.delete (bytesOf "a") (run .empty ops)).2 =
          (if runSessions (fun _ => false) ops (bytesOf "a") then none else some .errNotFound) ∧
        ((Sessions.getAll (run .empty ops)).2 = none →
          (bytesOf "a" ∈ (Sessions.getAll (run .empty ops)).1 ↔
            runSessions (fun _ => false) ops (bytesOf "a")))) := by
  intro ops
  have hops : ∀ op ∈ ops, op.Valid := by decide
  have hid : bytesOf "a" ≠ [] := by decide
  exact ⟨hops, hid, sessions_refine_set hops hid⟩

/-- **`GetAll` lists the set of sessions in ascending order.** After any run of writes from the
empty store whose `New`s name non-empty ids, `GetAll` returns exactly the ids of the set the
interface describes, each once and in ascending byte order, and it returns nil whenever that set is
not empty. A run with no `New` leaves no `sessions` bucket, and `GetAll` returns no ids and
`ErrNotFound`. -/
theorem getAll_lists_set {ops : List Op} (hops : ∀ op ∈ ops, op.Valid) :
    (∀ id, id ∈ (Sessions.getAll (run .empty ops)).1 ↔ runSessions (fun _ => false) ops id) ∧
      (Sessions.getAll (run .empty ops)).1.Pairwise (fun a b => keyLt a b) ∧
      ((∃ id, runSessions (fun _ => false) ops id) → (Sessions.getAll (run .empty ops)).2 = none) ∧
      ((∀ op ∈ ops, ∀ id, op ≠ .newSession id) →
        Sessions.getAll (run .empty ops) = ([], some .errNotFound)) := by
  have hS : hasSession (run .empty ops) = runSessions (fun _ => false) ops :=
    hasSession_run wf_empty hops
  rw [← hS]
  refine ⟨mem_getAll _, getAll_sorted (sorted_run wf_empty sorted_empty ops),
    fun ⟨_, h⟩ => getAll_ok h, fun hnew => getAll_of_not_hasSessionsBucket ?_⟩
  have hany : ops.any Op.createsSessions = false := List.any_eq_false.mpr fun op hop => by
    cases op with
    | newSession id => exact absurd rfl (hnew _ hop id)
    | _ => simp [Op.createsSessions]
  rw [hasSessionsBucket_run wf_empty hops, hany]
  rfl

theorem getAll_lists_set_three_sessions :
    let ops : List Op := [.newSession (bytesOf "b"), .newSession (bytesOf "a"),
      .newSession (bytesOf "c"), .deleteSession (bytesOf "c")]
    (∀ op ∈ ops, op.Valid) ∧
      ((∀ id, id ∈ (Sessions.getAll (run .empty ops)).1 ↔ runSessions (fun _ => false) ops id) ∧
        (Sessions.getAll (run .empty ops)).1.Pairwise (fun a b => keyLt a b) ∧
        ((∃ id, runSessions (fun _ => false) ops id) → (Sessions.getAll (run .empty ops)).2 = none) ∧
        ((∀ op ∈ ops, ∀ id, op ≠ .newSession id) →
          Sessions.getAll (run .empty ops) = ([], some .errNotFound))) := by
  intro ops
  have hops : ∀ op ∈ ops, op.Valid := by decide
  exact ⟨hops, getAll_lists_set hops⟩

/-- **Sessions are isolated.** A run of writes none of which names session `id` leaves what `Get`,
`subscriptions.Get` and `messages.Load` return for `id`. -/
theorem run_isolates_session {root : Bucket} (hw : Wf root) {ops : List Op} {id : Bytes}
    (h : ∀ op ∈ ops, op.names ≠ some id) :
    Sessions.get id (run root ops) = Sessions.get id root ∧
      Subscriptions.get id (run root ops) = Subscriptions.get id root ∧
      Messages.load id (run root ops) = Messages.load id root := by
  have hb := bucket_run_of_not_names hw h
  exact ⟨by rw [Sessions.get_eq, Sessions.get_eq, hasSession_eq, hasSession_eq, hb],
    Subscriptions.get_congr hb, Messages.load_congr hb⟩

theorem run_isolates_session_other_writes :
    let root := run .empty [.newSession (bytesOf "a"), .newSession (bytesOf "b"),
      .addSubscriptions (bytesOf "b") [(bytesOf "t", 1)]]
    let ops : List Op := [.addSubscriptions (bytesOf "a") [(bytesOf "t", 2)],
      .storeMessages (bytesOf "a") (bytesOf "in") [], .deleteSession (bytesOf "a"), .storeRetained []]
    Wf root ∧ (∀ op ∈ ops, op.names ≠ some (bytesOf "b")) ∧
      (Sessions.get (bytesOf "b") (run root ops) = Sessions.get (bytesOf "b") root ∧
        Subscriptions.get (bytesOf "b") (run root ops) = Subscriptions.get (bytesOf "b") root ∧
        Messages.load (bytesOf "b") (run root ops) = Messages.load (bytesOf "b") root) := by
  intro root ops
  have hw : Wf root := wf_run wf_empty _
  have h : ∀ op ∈ ops, op.names ≠ some (bytesOf "b") := by decide
  exact ⟨hw, h, run_isolates_session hw h⟩

/-- **Session writes leave the retained messages.** A run of writes each of which names a session
leaves what `retained.Load` returns. -/
theorem run_keeps_retained {root : Bucket} (hw : Wf root) {ops : List Op}
    (h : ∀ op ∈ ops, op.names ≠ none) : Retained.load (run root ops) = Retained.load root := by
  induction ops generalizing root with
  | nil => rfl
  | cons op ops ih =>
    obtain ⟨id, hid⟩ := Option.ne_none_iff_exists'.mp (h op (.head _))
    have he := effect_apply op hw
    rw [hid] at he
    rw [run_cons, ih (he.wf hw) (fun o ho => h o (.tail _ ho))]
    unfold Retained.load
    rw [he.retained_of_some]

theorem run_keeps_retained_session_writes :
    let root := run .empty [.newSession (bytesOf "a"), .storeRetained []]
    let ops : List Op := [.newSession (bytesOf "b"), .storeMessages (bytesOf "b") (bytesOf "out") [],
      .deleteSubscriptions (bytesOf "a"), .deleteSession (bytesOf "a")]
    Wf root ∧ (∀ op ∈ ops, op.names ≠ none) ∧ Retained.load (run root ops) = Retained.load root := by
  intro root ops
  have hw : Wf root := wf_run wf_empty _
  have h : ∀ op ∈ ops, op.names ≠ none := by decide
  exact ⟨hw, h, run_keeps_retained hw h⟩

/-- **A write bolt cannot hold changes nothing.** Whatever the store holds, `messages.Store` and
`retained.Store` of a list with a PUBLISH whose payload is longer than bolt's `MaxValueSize`, and
`subscriptions.Add` with a topic longer than that, return an error and leave the store as it was:
none of the list's other elements is written, those before the long one included. -/
theorem oversized_write_rolls_back (root : Bucket) :
    (∀ (id dir : Bytes) (msg : List Provider) (m : PublishMessage), .publish m ∈ msg →
        maxValueSize < m.payload.length → ∃ e, Messages.store id dir msg root = (root, some e)) ∧
      (∀ (msg : List Provider) (m : PublishMessage), .publish m ∈ msg →
        maxValueSize < m.payload.length → ∃ e, Retained.store msg root = (root, some e)) ∧
      ∀ (id : Bytes) (subs : List (Bytes × QosType)) (tq : Bytes × QosType), tq ∈ subs →
        maxValueSize < tq.1.length → ∃ e, Subscriptions.add id subs root = (root, some e) :=
  ⟨fun _ _ _ _ hm h => update_of_fails
      (putSequenced_fails (putMsg_fails h _) hm).inCreatedBucket.inCreatedBucket.inBucket.inBucket root,
    fun _ _ hm h => update_of_fails (putSequenced_fails (putMsg_fails h _) hm).inCreatedBucket root,
    fun _ _ _ htq h => update_of_fails
      (putSequenced_fails (Subscriptions.putSubscription_fails h _) htq).inCreatedBucket.inBucket.inBucket root⟩

theorem oversized_write_rolls_back_after_fitting_one :
    (∃ e, Messages.store (bytesOf "a") (bytesOf "in") [.publish PublishMessage.newPublishMessage,
      .publish ⟨0, false, 0, false, [], List.replicate (maxValueSize + 1) 0, rfl, rfl⟩] Bucket.empty =
        (Bucket.empty, some e)) ∧
      (∃ e, Retained.store [.publish PublishMessage.newPublishMessage,
        .publish ⟨0, false, 0, false, [], List.replicate (maxValueSize + 1) 0, rfl, rfl⟩] Bucket.empty =
          (Bucket.empty, some e)) ∧
      ∃ e, Subscriptions.add (bytesOf "a") [(bytesOf "a/b", 1), (List.replicate (maxValueSize + 1) 0, 0)]
        Bucket.empty = (Bucket.empty, some e) :=
  have h := oversized_write_rolls_back Bucket.empty
  ⟨h.1 _ _ _ _ (List.mem_cons_of_mem _ (List.mem_singleton_self _)) (by simp),
    h.2.1 _ _ (List.mem_cons_of_mem _ (List.mem_singleton_self _)) (by simp),
    h.2.2 _ _ _ (List.mem_cons_of_mem _ (List.mem_singleton_self _)) (by simp)⟩

end SurgeMQ.Persistence
