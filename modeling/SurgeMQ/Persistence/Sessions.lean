import SurgeMQ.Persistence.Sequence

/-!
# Sessions

A session is a nested bucket of the `sessions` bucket, named by the session's id, and its
subscriptions and messages live in buckets below it. `New` creates it, `Get` looks it up, `GetAll`
lists the nested buckets in cursor order, and `Delete` removes one with everything below it. The
sessions a store holds are the ids `hasSession` accepts, which is `Get`'s own test.

`New` turns only `ErrBucketExists` into an error. Any other error of its transaction, which bolt
has rolled back, is dropped, and `New` returns a session as if it had stored one. bolt refuses the
empty bucket name, so `New("")` stores nothing and returns nil (`new_nil`).

No other error reaches `New` on a store of the shape every write keeps, `Wf`: neither the root nor
the `sessions` bucket holds a value. There `New` and `Delete` are the set operations on `hasSession`
(`new_eq`, `delete_eq`), written as the two ways a write can change the `sessions` bucket:
`putSession` sets one session's bucket, `dropSession` removes it.
-/

namespace SurgeMQ.Persistence

open Bolt

namespace Sessions

/-- `sessions.New(id)`. -/
def new (id : Bytes) (root : Bucket) : Bucket × Option Error :=
  match update (Tx.inCreatedBucket bucketSessions (Tx.createBucket id)) root with
  | (root', some (.bolt .errBucketExists)) => (root', some .errAlreadyExists)
  | (root', _) => (root', none)

/-- `sessions.Get(id)`: nil when the session's bucket is there. -/
def get (id : Bytes) (root : Bucket) : Option Error :=
  match root.bucket bucketSessions with
  | none => some .errNotFound
  | some sesBucket => if (sesBucket.bucket id).isSome then none else some .errNotFound

/-- `sessions.GetAll()`: the keys the cursor meets that name a nested bucket. -/
def getAll (root : Bucket) : List Bytes × Option Error :=
  match root.bucket bucketSessions with
  | none => ([], some .errNotFound)
  | some sesBucket =>
    (sesBucket.entries.filterMap fun e => (sesBucket.bucket e.1).map fun _ => e.1, none)

/-- `sessions.Delete(id)`: every error of the transaction becomes `ErrNotFound`. -/
def delete (id : Bytes) (root : Bucket) : Bucket × Option Error :=
  match update (Tx.inBucket bucketSessions .errNotFound (Tx.deleteBucket id)) root with
  | (root', none) => (root', none)
  | (root', some _) => (root', some .errNotFound)

/-- `subscriptions.Delete()` and `messages.Delete()`: `DeleteBucket(key)` in session `id`'s bucket,
whose error, bolt's included, is returned as it is. -/
def deleteSessionBucket (key id : Bytes) (root : Bucket) : Bucket × Option Error :=
  update (Tx.inBucket bucketSessions .errNotFound <| Tx.inBucket id .errNotFound <|
    Tx.deleteBucket key) root

/-- Whether the store holds session `id`. -/
def hasSession (root : Bucket) (id : Bytes) : Bool :=
  match root.bucket bucketSessions with
  | none => false
  | some sesBucket => (sesBucket.bucket id).isSome

theorem get_eq_none_iff (id : Bytes) (root : Bucket) : get id root = none ↔ hasSession root id := by
  unfold get hasSession
  split <;> simp [Option.isSome_iff_ne_none]

/-- Whether the root has a `sessions` bucket. The first `New` makes it and no write removes it;
until then `GetAll` reports `ErrNotFound`. -/
def hasSessionsBucket (root : Bucket) : Bool := (root.bucket bucketSessions).isSome

/-- The `sessions` bucket, or the empty bucket `New` would create when there is none. -/
def sessionsOf (root : Bucket) : Bucket := (root.bucket bucketSessions).getD .empty

/-- Entries that are all nested buckets. -/
def BucketsOnly (es : List (Bytes × Node)) : Prop := ∀ e ∈ es, ∃ c, e.2 = .bucket c

/-- The shape every write of the store keeps: neither the root nor the `sessions` bucket holds a
value. -/
structure Wf (root : Bucket) : Prop where
  root_buckets : BucketsOnly root.entries
  sessions_buckets : BucketsOnly (sessionsOf root).entries

/-- The `sessions` bucket keeps its keys in ascending order, as bolt keeps every bucket's. -/
def Sorted (root : Bucket) : Prop := (sessionsOf root).entries.Pairwise fun a b => keyLt a.1 b.1

/-- Session `id`'s bucket set to `c`: a new session, or a write below an existing one. -/
def putSession (id : Bytes) (c root : Bucket) : Bucket :=
  root.setBucket bucketSessions ((sessionsOf root).setBucket id c)

/-- Session `id`'s bucket removed with everything below it. -/
def dropSession (id : Bytes) (root : Bucket) : Bucket :=
  root.setBucket bucketSessions
    (.mk (sessionsOf root).sequence (delEntry id (sessionsOf root).entries))

@[simp] theorem sessionsOf_setBucket (root c : Bucket) (k : Bytes) :
    sessionsOf (root.setBucket k c) = if k = bucketSessions then c else sessionsOf root := by
  by_cases h : k = bucketSessions <;> simp [sessionsOf, h]

theorem sessionsOf_of_bucket {root ses : Bucket} (h : root.bucket bucketSessions = some ses) :
    sessionsOf root = ses := by
  simp [sessionsOf, h]

theorem bucket_of_sessionsOf {root sB : Bucket} {id : Bytes}
    (h : (sessionsOf root).bucket id = some sB) :
    ∃ ses, root.bucket bucketSessions = some ses ∧ ses.bucket id = some sB := by
  unfold sessionsOf at h
  cases hr : root.bucket bucketSessions with
  | none => simp [hr] at h
  | some ses => exact ⟨ses, rfl, by simpa [hr] using h⟩

theorem hasSession_eq (root : Bucket) (id : Bytes) :
    hasSession root id = ((sessionsOf root).bucket id).isSome := by
  unfold hasSession sessionsOf
  cases root.bucket bucketSessions <;> rfl

theorem hasSessionsBucket_of_hasSession {root : Bucket} {id : Bytes} (h : hasSession root id) :
    hasSessionsBucket root := by
  unfold hasSession at h
  unfold hasSessionsBucket
  split at h <;> simp_all

theorem hasSessionsBucket_of_bucket {root sB : Bucket} {id : Bytes}
    (h : (sessionsOf root).bucket id = some sB) : hasSessionsBucket root :=
  hasSessionsBucket_of_hasSession (show hasSession root id by simp [hasSession_eq, h])

@[simp] theorem hasSessionsBucket_putSession (id : Bytes) (c root : Bucket) :
    hasSessionsBucket (putSession id c root) = true := by
  simp [hasSessionsBucket, putSession]

@[simp] theorem hasSessionsBucket_dropSession (id : Bytes) (root : Bucket) :
    hasSessionsBucket (dropSession id root) = true := by
  simp [hasSessionsBucket, dropSession]

theorem hasSession_putSession (id : Bytes) (c root : Bucket) :
    hasSession (putSession id c root) = Function.update (hasSession root) id true := by
  funext id'
  by_cases h : id = id'
  · subst h; simp [hasSession_eq, putSession]
  · simp [hasSession_eq, putSession, h, Function.update_noteq (Ne.symm h)]

theorem hasSession_dropSession (id : Bytes) (root : Bucket) :
    hasSession (dropSession id root) = Function.update (hasSession root) id false := by
  funext id'
  by_cases h : id = id'
  · subst h; simp [hasSession_eq, dropSession]
  · simp [hasSession_eq, dropSession, h, Function.update_noteq (Ne.symm h)]

theorem BucketsOnly.lookup {es : List (Bytes × Node)} {k : Bytes} {n : Node} (h : BucketsOnly es)
    (hl : Bolt.lookup k es = some n) : ∃ c, n = .bucket c :=
  h _ (mem_of_lookup hl)

theorem BucketsOnly.putEntry {es : List (Bytes × Node)} (h : BucketsOnly es) (k : Bytes) (c : Bucket) :
    BucketsOnly (Bolt.putEntry k (.bucket c) es) := fun e he => by
  rcases mem_putEntry he with rfl | he
  · exact ⟨c, rfl⟩
  · exact h e he

theorem BucketsOnly.delEntry {es : List (Bytes × Node)} (h : BucketsOnly es) (k : Bytes) :
    BucketsOnly (Bolt.delEntry k es) := fun e he => h e (List.mem_of_mem_filter he)

theorem Wf.putSession {root : Bucket} (hw : Wf root) (id : Bytes) (c : Bucket) :
    Wf (putSession id c root) :=
  ⟨hw.root_buckets.putEntry _ _, by simpa [Sessions.putSession] using hw.sessions_buckets.putEntry id c⟩

theorem Wf.dropSession {root : Bucket} (hw : Wf root) (id : Bytes) : Wf (dropSession id root) :=
  ⟨hw.root_buckets.putEntry _ _, by simpa [Sessions.dropSession] using hw.sessions_buckets.delEntry id⟩

theorem Sorted.putSession {root : Bucket} (hs : Sorted root) (id : Bytes) (c : Bucket) :
    Sorted (putSession id c root) := by
  simpa [Sorted, Sessions.putSession] using pairwise_putEntry hs

theorem Sorted.dropSession {root : Bucket} (hs : Sorted root) (id : Bytes) :
    Sorted (dropSession id root) := by
  simpa [Sorted, Sessions.dropSession, Bolt.delEntry] using hs.sublist (List.filter_sublist _)

/-- With no value among the root's entries, the `sessions` bucket is there or its key is free. -/
theorem sessions_cases {root : Bucket} (h : BucketsOnly root.entries) :
    root.bucket bucketSessions = some (sessionsOf root) ∨
      (sessionsOf root = .empty ∧ lookup bucketSessions root.entries = none) := by
  unfold sessionsOf Bucket.bucket
  cases hl : lookup bucketSessions root.entries with
  | none => simp
  | some n =>
    obtain ⟨c, rfl⟩ := h.lookup hl
    simp

/-- `New("")` fails inside its transaction, which changes nothing, and returns nil. -/
theorem new_nil (root : Bucket) : new [] root = (root, none) := by
  obtain ⟨e, he, hne⟩ : ∃ e, Tx.inCreatedBucket bucketSessions (Tx.createBucket []) root = .error e ∧
      e ≠ .bolt .errBucketExists := by
    simp only [Tx.inCreatedBucket, Tx.createBucketIfNotExists, Tx.lift, Tx.bind_apply]
    cases h : root.createBucketIfNotExists bucketSessions with
    | error e =>
      exact ⟨_, rfl, fun he => Bucket.createBucketIfNotExists_ne_exists _ _ (by cases he; exact h)⟩
    | ok r =>
      simp only [Tx.inBucket]
      cases r.bucket bucketSessions with
      | none => exact ⟨_, rfl, by simp⟩
      | some c =>
        exact ⟨.bolt .errBucketNameRequired, by simp [Tx.createBucket, Tx.lift, Bucket.createBucket],
          by simp⟩
  unfold new
  rw [update_of_error he]
  split
  · simp_all
  · simp_all

/-- `New("")` returns nil, yet the store holds no session `""` afterwards. -/
theorem new_accepts_empty_id (root : Bucket) (h : hasSession root [] = false) :
    (new [] root).2 = none ∧ hasSession (new [] root).1 [] = false := by
  rw [new_nil]
  exact ⟨rfl, h⟩

theorem new_accepts_empty_id_on_empty_store :
    hasSession Bucket.empty [] = false ∧
      ((new [] Bucket.empty).2 = none ∧ hasSession (new [] Bucket.empty).1 [] = false) :=
  ⟨rfl, new_accepts_empty_id _ rfl⟩

/-- **`New` on a well-formed store.** For a non-empty id it reports `ErrAlreadyExists` for a
session that is there and changes nothing, and otherwise adds the session with an empty bucket. -/
theorem new_eq {id : Bytes} {root : Bucket} (hid : id ≠ []) (hw : Wf root) :
    new id root =
      if hasSession root id then (root, some .errAlreadyExists) else (putSession id .empty root, none) := by
  have hS : bucketSessions ≠ [] := by decide
  by_cases h : hasSession root id
  · obtain ⟨ses, hses, c, hc⟩ :
        ∃ ses, root.bucket bucketSessions = some ses ∧ ∃ c, ses.bucket id = some c := by
      unfold hasSession at h
      split at h
      · cases h
      · exact ⟨_, ‹_›, Option.isSome_iff_exists.mp h⟩
    have hx : Tx.inCreatedBucket bucketSessions (Tx.createBucket id) root =
        .error (.bolt .errBucketExists) := by
      simp [Tx.inCreatedBucket, Tx.createBucketIfNotExists_ok
        (Bucket.createBucketIfNotExists_of_bucket hS (Bucket.lookup_of_bucket hses)),
        Tx.inBucket_of_bucket hses, Tx.createBucket, Tx.lift, Bucket.createBucket, hid,
        Bucket.lookup_of_bucket hc]
    simp [new, update_of_error hx, h]
  · have hn : lookup id (sessionsOf root).entries = none := by
      cases hl : lookup id (sessionsOf root).entries with
      | none => rfl
      | some n =>
        obtain ⟨c, rfl⟩ := hw.sessions_buckets.lookup hl
        simp [hasSession_eq, Bucket.bucket, hl] at h
    have hx := Tx.inCreatedBucket_eq hS (sessions_cases hw.root_buckets)
      (Tx.createBucket_ok (Bucket.createBucket_eq hid hn))
    simp [new, update_of_ok hx, h, putSession, Bucket.setBucket]

/-- **`Delete`.** It removes a session that is there, with everything below it, and otherwise
reports `ErrNotFound` and changes nothing. -/
theorem delete_eq (id : Bytes) (root : Bucket) :
    delete id root = if hasSession root id then (dropSession id root, none) else (root, some .errNotFound) := by
  unfold delete
  cases hses : root.bucket bucketSessions with
  | none =>
    have : hasSession root id = false := by simp [hasSession, hses]
    have hx : Tx.inBucket bucketSessions .errNotFound (Tx.deleteBucket id) root = .error .errNotFound :=
      Tx.inBucket_of_none hses
    simp [update_of_error hx, this]
  | some ses =>
    cases hd : ses.deleteBucket id with
    | error e =>
      have : hasSession root id = false := by
        simp [hasSession, hses, Bucket.bucket_of_deleteBucket_error hd]
      have hx : Tx.inBucket bucketSessions .errNotFound (Tx.deleteBucket id) root = .error (.bolt e) := by
        simp [Tx.inBucket_of_bucket hses, Tx.deleteBucket, Tx.lift, hd]
      simp [update_of_error hx, this]
    | ok ses' =>
      obtain ⟨hsome, rfl⟩ := Bucket.deleteBucket_ok hd
      have : hasSession root id = true := by simp [hasSession, hses, hsome]
      have hx : Tx.inBucket bucketSessions .errNotFound (Tx.deleteBucket id) root =
          .ok ((), root.setBucket bucketSessions (.mk ses.sequence (delEntry id ses.entries))) := by
        simp [Tx.inBucket_of_bucket hses, Tx.deleteBucket_ok hd]
      simp [update_of_ok hx, this, dropSession, sessionsOf_of_bucket hses]

/-- A closure that works below session `id`, which is not there, returns `ErrNotFound`. -/
theorem update_inSession_of_none {id : Bytes} (x : Tx Unit) {root : Bucket}
    (h : (sessionsOf root).bucket id = none) :
    update (Tx.inBucket bucketSessions .errNotFound (Tx.inBucket id .errNotFound x)) root =
      (root, some .errNotFound) := by
  apply update_of_error
  cases hr : root.bucket bucketSessions with
  | none => exact Tx.inBucket_of_none hr
  | some ses =>
    rw [sessionsOf_of_bucket hr] at h
    simp [Tx.inBucket_of_bucket hr, Tx.inBucket_of_none h]

/-- A closure that works below session `id`, and succeeds on its bucket, rewrites only that. -/
theorem update_inSession_eq {id : Bytes} {x : Tx Unit} {root sB sB' : Bucket}
    (hs : (sessionsOf root).bucket id = some sB) (hx : x sB = .ok ((), sB')) :
    update (Tx.inBucket bucketSessions .errNotFound (Tx.inBucket id .errNotFound x)) root =
      (putSession id sB' root, none) := by
  obtain ⟨ses, hses, hsB⟩ := bucket_of_sessionsOf hs
  apply update_of_ok
  simp [Tx.inBucket_of_bucket hses, Tx.inBucket_of_bucket hsB, hx, putSession,
    sessionsOf_of_bucket hses]

/-- **`Delete` below a session.** `DeleteBucket(key)` on the session's bucket: a missing session
gives `ErrNotFound` and bolt's error is passed through, both leaving the store as it was. -/
theorem deleteSessionBucket_eq (key id : Bytes) (root : Bucket) :
    deleteSessionBucket key id root =
      match (sessionsOf root).bucket id with
      | none => (root, some .errNotFound)
      | some sB =>
        match sB.deleteBucket key with
        | .ok sB' => (putSession id sB' root, none)
        | .error e => (root, some (.bolt e)) := by
  unfold deleteSessionBucket update
  cases hses : root.bucket bucketSessions with
  | none => simp [Tx.inBucket_of_none hses, sessionsOf, hses]
  | some ses =>
    rw [sessionsOf_of_bucket hses]
    cases hs : ses.bucket id with
    | none => simp [Tx.inBucket_of_bucket hses, Tx.inBucket_of_none hs]
    | some sB =>
      cases hd : sB.deleteBucket key <;>
        simp [Tx.inBucket_of_bucket hses, Tx.inBucket_of_bucket hs, Tx.deleteBucket, Tx.lift, hd,
          putSession, sessionsOf_of_bucket hses]

/-- When `DeleteBucket(key)` below session `id` returns nil, the session was there, and its bucket
is now the old one without `key`. -/
theorem deleteSessionBucket_ok {key id : Bytes} {root : Bucket}
    (h : (deleteSessionBucket key id root).2 = none) :
    ∃ sB, (sessionsOf root).bucket id = some sB ∧
      (deleteSessionBucket key id root).1 = putSession id (.mk sB.sequence (delEntry key sB.entries)) root := by
  rw [deleteSessionBucket_eq] at h ⊢
  cases hs : (sessionsOf root).bucket id with
  | none => simp [hs] at h
  | some sB =>
    cases hd : sB.deleteBucket key with
    | error e => simp [hs, hd] at h
    | ok sB' =>
      obtain ⟨-, rfl⟩ := Bucket.deleteBucket_ok hd
      exact ⟨sB, rfl, by simp [hd]⟩

/-- Below a session without the bucket `key`, `DeleteBucket(key)` gives bolt's `ErrBucketNotFound`
and changes nothing. -/
theorem deleteSessionBucket_of_none {key id : Bytes} {root sB : Bucket}
    (hs : (sessionsOf root).bucket id = some sB) (hk : lookup key sB.entries = none) :
    deleteSessionBucket key id root = (root, some (.bolt .errBucketNotFound)) := by
  simp [deleteSessionBucket_eq, hs, Bucket.deleteBucket, hk]

theorem deleteSessionBucket_of_bucket {key id : Bytes} {root sB c : Bucket}
    (hs : (sessionsOf root).bucket id = some sB) (hc : sB.bucket key = some c) :
    deleteSessionBucket key id root =
      (putSession id (.mk sB.sequence (delEntry key sB.entries)) root, none) := by
  have hd : sB.deleteBucket key = .ok (.mk sB.sequence (delEntry key sB.entries)) := by
    rw [Bucket.deleteBucket, Bucket.lookup_of_bucket hc]
  rw [deleteSessionBucket_eq, hs]
  simp only [hd]

theorem deleteSessionBucket_of_session_none {key id : Bytes} {root : Bucket}
    (hs : (sessionsOf root).bucket id = none) :
    deleteSessionBucket key id root = (root, some .errNotFound) := by
  rw [deleteSessionBucket_eq, hs]

/-- What `GetAll` lists is the set of sessions; with no `sessions` bucket both are empty. -/
theorem mem_getAll (root : Bucket) (id : Bytes) : id ∈ (getAll root).1 ↔ hasSession root id := by
  unfold getAll hasSession
  cases hses : root.bucket bucketSessions with
  | none => simp
  | some ses =>
    simp only [List.mem_filterMap, Option.map_eq_some', Option.isSome_iff_exists]
    constructor
    · rintro ⟨e, -, c, hc, rfl⟩
      exact ⟨c, hc⟩
    · rintro ⟨c, hc⟩
      exact ⟨(id, .bucket c), mem_of_lookup (Bucket.lookup_of_bucket hc), c, hc, rfl⟩

/-- `GetAll` lists in the cursor's order, ascending, so each session once. -/
theorem getAll_sorted {root : Bucket} (hs : Sorted root) :
    (getAll root).1.Pairwise fun a b => keyLt a b := by
  unfold getAll
  cases hses : root.bucket bucketSessions with
  | none => simp
  | some ses =>
    rw [Sorted, sessionsOf_of_bucket hses] at hs
    refine List.pairwise_filterMap.mpr (hs.imp fun {a a'} h b hb b' hb' => ?_)
    obtain ⟨_, -, rfl⟩ := Option.mem_map.mp hb
    obtain ⟨_, -, rfl⟩ := Option.mem_map.mp hb'
    exact h

/-- `GetAll` returns nil once there is a session. -/
theorem getAll_ok {root : Bucket} {id : Bytes} (h : hasSession root id) : (getAll root).2 = none := by
  unfold getAll
  unfold hasSession at h
  split at h
  · cases h
  · simp [*]

/-- With no `sessions` bucket, `GetAll` returns no ids and `ErrNotFound`. -/
theorem getAll_of_not_hasSessionsBucket {root : Bucket} (h : hasSessionsBucket root = false) :
    getAll root = ([], some .errNotFound) := by
  unfold getAll
  unfold hasSessionsBucket at h
  split <;> simp_all

/-- With a `sessions` bucket, `GetAll` returns nil, whatever the bucket holds. -/
theorem getAll_ok_of_hasSessionsBucket {root : Bucket} (h : hasSessionsBucket root) :
    (getAll root).2 = none := by
  unfold getAll
  unfold hasSessionsBucket at h
  split <;> simp_all

/-- **`GetAll` reads only the set of sessions.** Two stores in bolt's key order with the same
sessions, and each with a `sessions` bucket or neither, give the same list and the same error. -/
theorem getAll_congr {r r' : Bucket} (hs : Sorted r) (hs' : Sorted r')
    (hb : hasSessionsBucket r = hasSessionsBucket r') (hm : hasSession r = hasSession r') :
    getAll r = getAll r' := by
  cases hr : hasSessionsBucket r
  · rw [getAll_of_not_hasSessionsBucket hr, getAll_of_not_hasSessionsBucket (hb ▸ hr)]
  · refine Prod.ext (eq_of_keyLt_sorted (getAll_sorted hs) (getAll_sorted hs') fun k => ?_) ?_
    · rw [mem_getAll, mem_getAll, hm]
    · rw [getAll_ok_of_hasSessionsBucket hr, getAll_ok_of_hasSessionsBucket (hb ▸ hr)]

end Sessions

end SurgeMQ.Persistence
