import SurgeMQ.Persistence.Bucket

/-!
# Transactions

Every operation of the durable store runs a closure inside bolt's `Update` or `View`. The closure
gets the transaction's root bucket and returns nil or an error; `Update` commits what it wrote when
it returns nil and rolls all of it back otherwise. A closure that writes is a `Tx`: a function on
the bucket it works in that gives the rewritten bucket or fails. A closure that only reads is a
plain function of the root.

The code reaches nested buckets through handles (`*bolt.Bucket`), and each handle a closure writes
through is used only inside the bucket it was taken from. So a write through a handle is
`inBucket k missing x`: run `x` on the nested bucket `k` and put the result back, or do what the
code does when the handle is nil. A Go runtime panic inside a closure (a method called on a nil
handle, an index past the end of a slice) unwinds through bolt, which rolls the transaction back;
it is the error `panic` here. Work that fails on every bucket (`Tx.Fails`) fails through every
handle, and `Update` then leaves the store as it was (`update_of_fails`).

The gate every public operation opens with (`select` on `done`) belongs to shutdown and is modelled
there; the operations of the next modules are what runs once the gate has found the store open.
-/

namespace SurgeMQ.Persistence

open Bolt

/-- What a store operation can return: the store's own errors (`types.Err*`), a bolt error
passed through, a message error, or a runtime panic. -/
inductive Error where
  | errNotFound
  | errAlreadyExists
  | errNotOpen
  | bolt (e : Bolt.Error)
  | message (e : Message.Error)
  | panic
  deriving DecidableEq, Repr

/-- A transaction closure's work on the bucket it runs in. -/
abbrev Tx := StateT Bucket (Except Error)

namespace Tx

variable {α β : Type}

@[simp] theorem pure_apply (a : α) (b : Bucket) : (pure a : Tx α) b = .ok (a, b) := rfl

@[simp] theorem bind_apply (x : Tx α) (f : α → Tx β) (b : Bucket) :
    (x >>= f) b = match x b with
      | .ok (a, b') => f a b'
      | .error e => .error e := by
  show StateT.bind x f b = _
  unfold StateT.bind
  cases x b <;> rfl

@[simp] theorem throw_apply (e : Error) (b : Bucket) : (throw e : Tx α) b = .error e := rfl

/-- A bolt method on the bucket, its error passed through. -/
def lift (f : Bucket → Except Bolt.Error Bucket) : Tx Unit := fun b =>
  match f b with
  | .ok b' => .ok ((), b')
  | .error e => .error (.bolt e)

def createBucket (k : Bytes) : Tx Unit := lift (·.createBucket k)

def createBucketIfNotExists (k : Bytes) : Tx Unit := lift (·.createBucketIfNotExists k)

def deleteBucket (k : Bytes) : Tx Unit := lift (·.deleteBucket k)

def put (k v : Bytes) : Tx Unit := lift (·.put k v)

/-- `NextSequence()`, whose error (a closed or read-only transaction) the code ignores. -/
def nextSequence : Tx UInt64 := fun b => .ok b.nextSequence

/-- Running `x` through the handle `Bucket(k)`; `missing` is what the code does with a nil one. -/
def inBucket (k : Bytes) (missing : Error) (x : Tx α) : Tx α := fun b =>
  match b.bucket k with
  | none => .error missing
  | some c =>
    match x c with
    | .ok (a, c') => .ok (a, b.setBucket k c')
    | .error e => .error e

/-- `CreateBucketIfNotExists(k)`, then work through the handle it returns. -/
def inCreatedBucket (k : Bytes) (x : Tx α) : Tx α := do
  createBucketIfNotExists k
  inBucket k .panic x

theorem createBucket_ok {k : Bytes} {b b' : Bucket} (h : b.createBucket k = .ok b') :
    createBucket k b = .ok ((), b') := by
  simp [createBucket, lift, h]

theorem createBucketIfNotExists_ok {k : Bytes} {b b' : Bucket}
    (h : b.createBucketIfNotExists k = .ok b') : createBucketIfNotExists k b = .ok ((), b') := by
  simp [createBucketIfNotExists, lift, h]

theorem deleteBucket_ok {k : Bytes} {b b' : Bucket} (h : b.deleteBucket k = .ok b') :
    deleteBucket k b = .ok ((), b') := by
  simp [deleteBucket, lift, h]

theorem put_ok {k v : Bytes} {b b' : Bucket} (h : b.put k v = .ok b') : put k v b = .ok ((), b') := by
  simp [put, lift, h]

/-- A `Put` bolt accepts, under a key that names no nested bucket. -/
theorem put_eq {k v : Bytes} {b : Bucket} (hk : k ≠ []) (hks : k.length ≤ maxKeySize)
    (hv : v.length ≤ maxValueSize) (hn : ∀ c, lookup k b.entries ≠ some (.bucket c)) :
    put k v b = .ok ((), .mk b.sequence (putEntry k (.value v) b.entries)) :=
  put_ok (Bucket.put_eq hk hks hv hn)

@[simp] theorem nextSequence_apply (b : Bucket) : nextSequence b = .ok b.nextSequence := rfl

theorem inBucket_of_bucket {k : Bytes} {missing : Error} {x : Tx α} {b c : Bucket}
    (hc : b.bucket k = some c) :
    inBucket k missing x b = match x c with
      | .ok (a, c') => .ok (a, b.setBucket k c')
      | .error e => .error e := by
  simp [inBucket, hc]

theorem inBucket_of_none {k : Bytes} {missing : Error} {x : Tx α} {b : Bucket}
    (hc : b.bucket k = none) : inBucket k missing x b = .error missing := by
  simp [inBucket, hc]

/-- Work through a handle that succeeds ran on the nested bucket, and wrote back only that. -/
theorem inBucket_ok {k : Bytes} {missing : Error} {x : Tx α} {b b' : Bucket} {a : α}
    (h : inBucket k missing x b = .ok (a, b')) :
    ∃ c c', b.bucket k = some c ∧ x c = .ok (a, c') ∧ b' = b.setBucket k c' := by
  unfold inBucket at h
  split at h
  · cases h
  · rename_i c hc
    split at h <;> cases h
    exact ⟨c, _, hc, ‹_›, rfl⟩

/-- Work through `CreateBucketIfNotExists(k)`'s handle that succeeds wrote back only the bucket at
`k`. -/
theorem inCreatedBucket_ok {k : Bytes} {x : Tx α} {b b' : Bucket} {a : α}
    (h : inCreatedBucket k x b = .ok (a, b')) : ∃ c', b' = b.setBucket k c' := by
  simp only [inCreatedBucket, createBucketIfNotExists, lift, bind_apply] at h
  cases hb₁ : b.createBucketIfNotExists k with
  | error e => simp [hb₁] at h
  | ok b₁ =>
    simp only [hb₁] at h
    obtain ⟨-, c', -, -, rfl⟩ := inBucket_ok h
    rcases Bucket.createBucketIfNotExists_cases hb₁ with rfl | rfl
    · exact ⟨c', rfl⟩
    · exact ⟨c', by simp [Bucket.setBucket]⟩

/-- Work through the handle `CreateBucketIfNotExists(k)` returns runs on the bucket at `k`, or on a
new empty one, and is written back in its place. -/
theorem inCreatedBucket_eq {k : Bytes} {x : Tx α} {b c c' : Bucket} {a : α} (hk : k ≠ [])
    (hc : b.bucket k = some c ∨ (c = .empty ∧ lookup k b.entries = none))
    (hx : x c = .ok (a, c')) : inCreatedBucket k x b = .ok (a, b.setBucket k c') := by
  rcases hc with hc | ⟨rfl, hn⟩
  · simp [inCreatedBucket, createBucketIfNotExists_ok
      (Bucket.createBucketIfNotExists_of_bucket hk (Bucket.lookup_of_bucket hc)), inBucket_of_bucket hc, hx]
  · have hcreate : b.createBucketIfNotExists k =
        .ok (.mk b.sequence (putEntry k (.bucket .empty) b.entries)) := by
      simp [Bucket.createBucketIfNotExists, Bucket.createBucket_eq hk hn]
    have hb : (Bucket.mk b.sequence (putEntry k (.bucket .empty) b.entries)).bucket k = some .empty := by
      simp [Bucket.bucket]
    simp [inCreatedBucket, createBucketIfNotExists_ok hcreate, inBucket_of_bucket hb, hx,
      Bucket.setBucket]

/-- Work that fails on every bucket it runs in. -/
def Fails (x : Tx α) : Prop := ∀ b, ∃ e, x b = .error e

theorem Fails.bind_left {x : Tx α} {f : α → Tx β} (hx : Fails x) : Fails (x >>= f) := fun b => by
  obtain ⟨e, he⟩ := hx b
  exact ⟨e, by rw [bind_apply, he]⟩

theorem Fails.bind_right {x : Tx α} {f : α → Tx β} (hf : ∀ a, Fails (f a)) : Fails (x >>= f) :=
  fun b => by
    rw [bind_apply]
    split
    · exact hf _ _
    · exact ⟨_, rfl⟩

/-- A value longer than `MaxValueSize` makes `Put` fail, whatever the key and the bucket. -/
theorem put_fails {k v : Bytes} (hv : maxValueSize < v.length) : Fails (put k v) := fun b => by
  simp only [put, lift, Bucket.put, if_pos hv]
  split_ifs <;> exact ⟨_, rfl⟩

/-- Work that fails on every bucket fails through any handle to one. -/
theorem Fails.inBucket {k : Bytes} {missing : Error} {x : Tx α} (hx : Fails x) :
    Fails (inBucket k missing x) := fun b => by
  unfold Tx.inBucket
  split
  · exact ⟨_, rfl⟩
  · obtain ⟨e, he⟩ := hx ‹_›
    exact ⟨e, by rw [he]⟩

theorem Fails.inCreatedBucket {k : Bytes} {x : Tx α} (hx : Fails x) :
    Fails (inCreatedBucket k x) :=
  Fails.bind_right fun _ => hx.inBucket

end Tx

/-- `db.Update(fn)`: the new root and nil when the closure succeeds, the old root and the closure's
error otherwise. -/
def update (x : Tx Unit) (root : Bucket) : Bucket × Option Error :=
  match x root with
  | .ok ((), root') => (root', none)
  | .error e => (root, some e)

theorem update_of_ok {x : Tx Unit} {root root' : Bucket} (h : x root = .ok ((), root')) :
    update x root = (root', none) := by
  simp [update, h]

theorem update_of_error {x : Tx Unit} {root : Bucket} {e : Error} (h : x root = .error e) :
    update x root = (root, some e) := by
  simp [update, h]

/-- `Update` of failing work returns its error and leaves the store as it was. -/
theorem update_of_fails {x : Tx Unit} (hx : Tx.Fails x) (root : Bucket) :
    ∃ e, update x root = (root, some e) := by
  obtain ⟨e, he⟩ := hx root
  exact ⟨e, update_of_error he⟩

end SurgeMQ.Persistence
