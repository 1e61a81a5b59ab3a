import SurgeMQ.Message.Types

/-!
# bolt's buckets

The durable backend keeps everything in a bolt database and relies only on bolt's bucket contract:
a bucket maps keys to values or to nested buckets, keeps its keys in ascending byte order, which is
the order its cursor and `ForEach` visit them in, and carries a sequence counter. bolt is not among
the sources, so this module models that documented contract and nothing of bolt's pages: a bucket
is its counter and its ordered entries, and each bucket method the persistence code calls is a
function on one bucket, with the errors bolt documents for it.

Keys are compared as byte strings, by `keyLt`, which is `bytes.Compare(a, b) < 0`. The facts about
that order the persistence proofs need are stated with it: it is irreflexive, appending to equally
long keys keeps their order, and a common prefix does not change it.
-/

namespace SurgeMQ.Bolt

/-- The errors of bolt's bucket methods that the persistence code can meet. -/
inductive Error where
  | errBucketNotFound
  | errBucketExists
  | errBucketNameRequired
  | errIncompatibleValue
  | errKeyRequired
  | errKeyTooLarge
  | errValueTooLarge
  deriving DecidableEq, Repr

mutual

/-- What a key of a bucket holds. -/
inductive Node where
  | value (v : Bytes)
  | bucket (b : Bucket)

/-- A bucket: its sequence counter and its entries in ascending key order. -/
inductive Bucket where
  | mk (sequence : UInt64) (entries : List (Bytes × Node))

end

/-- `MaxKeySize`. -/
def maxKeySize : Nat := 32768

/-- `MaxValueSize`, `(1 << 31) - 2`. -/
def maxValueSize : Nat := 2147483646

namespace Node

/-- What `ForEach` and a cursor pass for an entry: the value, or nil for a nested bucket. -/
def value? : Node → Option Bytes
  | value v => some v
  | bucket _ => none

end Node

/-! ### Keys and entries -/

/-- `bytes.Compare(a, b) < 0`: the first differing byte decides, and a proper prefix comes first. -/
def keyLt : Bytes → Bytes → Bool
  | _, [] => false
  | [], _ :: _ => true
  | a :: as, b :: bs => if a = b then keyLt as bs else decide (a.toNat < b.toNat)

@[simp] theorem keyLt_self (k : Bytes) : keyLt k k = false := by
  induction k with
  | nil => rfl
  | cons a k ih => simp [keyLt, ih]

theorem ne_of_keyLt {k₁ k₂ : Bytes} (h : keyLt k₁ k₂) : k₁ ≠ k₂ := by
  rintro rfl
  simp at h

theorem keyLt_trans {k₁ k₂ k₃ : Bytes} (h₁ : keyLt k₁ k₂) (h₂ : keyLt k₂ k₃) : keyLt k₁ k₃ := by
  induction k₁ generalizing k₂ k₃ with
  | nil => cases k₂ <;> cases k₃ <;> simp_all [keyLt]
  | cons a k₁ ih =>
    cases k₂ with
    | nil => simp [keyLt] at h₁
    | cons b k₂ =>
      cases k₃ with
      | nil => simp [keyLt] at h₂
      | cons c k₃ =>
        simp only [keyLt] at h₁ h₂ ⊢
        by_cases hab : a = b <;> by_cases hbc : b = c
        · subst hab hbc
          simp only [if_pos rfl] at h₁ h₂ ⊢
          exact ih h₁ h₂
        · subst hab; simp_all
        · subst hbc; simp_all
        · have hlt : a.toNat < c.toNat := by simp_all; omega
          have hac : a ≠ c := by rintro rfl; omega
          simp [hac, hlt]

/-- Distinct keys are ordered one way or the other: `bytes.Compare` is a total order. -/
theorem keyLt_total {k₁ k₂ : Bytes} (h : k₁ ≠ k₂) : keyLt k₁ k₂ ∨ keyLt k₂ k₁ := by
  induction k₁ generalizing k₂ with
  | nil => cases k₂ <;> simp_all [keyLt]
  | cons a k₁ ih =>
    cases k₂ with
    | nil => simp [keyLt]
    | cons b k₂ =>
      simp only [keyLt]
      by_cases hab : a = b
      · subst hab; simpa using ih (by simpa using h)
      · have : a.toNat ≠ b.toNat := fun e => hab (UInt8.toNat.inj e)
        simp [hab, Ne.symm hab]; omega

/-- Two lists of keys in ascending order with the same members are the same list. -/
theorem eq_of_keyLt_sorted {l₁ l₂ : List Bytes} (h₁ : l₁.Pairwise fun a b => keyLt a b)
    (h₂ : l₂.Pairwise fun a b => keyLt a b) (hm : ∀ k, k ∈ l₁ ↔ k ∈ l₂) : l₁ = l₂ :=
  have : IsAntisymm Bytes fun a b => keyLt a b :=
    ⟨fun _ _ hab hba => absurd (keyLt_trans hab hba) (by simp)⟩
  List.eq_of_perm_of_sorted ((List.perm_ext_iff_of_nodup (h₁.imp ne_of_keyLt)
    (h₂.imp ne_of_keyLt)).mpr hm) h₁ h₂

/-- Keys of one length keep their order whatever follows them. -/
theorem keyLt_append {k₁ k₂ : Bytes} (l₁ l₂ : Bytes) (h : keyLt k₁ k₂)
    (hl : k₁.length = k₂.length) : keyLt (k₁ ++ l₁) (k₂ ++ l₂) := by
  induction k₁ generalizing k₂ with
  | nil => cases k₂ <;> simp_all
  | cons a k₁ ih =>
    cases k₂ with
    | nil => simp at hl
    | cons b k₂ =>
      simp only [keyLt, List.cons_append] at h ⊢
      split <;> simp_all

/-- A common prefix leaves the order of what follows it. -/
@[simp] theorem keyLt_append_left (k l₁ l₂ : Bytes) : keyLt (k ++ l₁) (k ++ l₂) = keyLt l₁ l₂ := by
  induction k with
  | nil => rfl
  | cons a k ih => simp [keyLt, ih]

/-- The entry a seek for `k` finds, if its key is `k`. -/
def lookup (k : Bytes) : List (Bytes × Node) → Option Node
  | [] => none
  | (k', n) :: es => if k' = k then some n else lookup k es

/-- `node.put`: the entry goes where a seek for `k` lands, replacing the entry with key `k` if there
is one. -/
def putEntry (k : Bytes) (n : Node) : List (Bytes × Node) → List (Bytes × Node)
  | [] => [(k, n)]
  | (k', n') :: es =>
    if keyLt k' k then (k', n') :: putEntry k n es
    else if k' = k then (k, n) :: es
    else (k, n) :: (k', n') :: es

/-- `node.del`. -/
def delEntry (k : Bytes) (es : List (Bytes × Node)) : List (Bytes × Node) :=
  es.filter fun e => e.1 ≠ k

@[simp] theorem lookup_nil (k : Bytes) : lookup k [] = none := rfl

theorem lookup_append (k : Bytes) (es fs : List (Bytes × Node)) :
    lookup k (es ++ fs) = (lookup k es).orElse fun _ => lookup k fs := by
  induction es with
  | nil => rfl
  | cons e es ih =>
    simp only [List.cons_append, lookup]
    split <;> simp [ih]

@[simp] theorem lookup_putEntry (k k' : Bytes) (n : Node) (es : List (Bytes × Node)) :
    lookup k' (putEntry k n es) = if k = k' then some n else lookup k' es := by
  induction es with
  | nil => simp [putEntry, lookup]
  | cons e es ih =>
    obtain ⟨k₀, n₀⟩ := e
    by_cases hlt : keyLt k₀ k
    · have hne : k₀ ≠ k := ne_of_keyLt hlt
      by_cases h : k₀ = k'
      · subst h; simp [putEntry, lookup, hlt, hne.symm]
      · simp [putEntry, lookup, hlt, h, ih]
    · by_cases h₀ : k₀ = k
      · subst h₀; by_cases h : k₀ = k' <;> simp [putEntry, lookup, h]
      · by_cases h : k = k'
        · subst h; simp [putEntry, lookup, hlt, h₀]
        · simp [putEntry, lookup, hlt, h₀, h]

@[simp] theorem lookup_delEntry (k k' : Bytes) (es : List (Bytes × Node)) :
    lookup k' (delEntry k es) = if k = k' then none else lookup k' es := by
  induction es with
  | nil => simp [delEntry]
  | cons e es ih =>
    obtain ⟨k₀, n₀⟩ := e
    simp only [delEntry] at ih ⊢
    by_cases h₀ : k₀ = k <;> by_cases h : k = k' <;> simp_all [List.filter_cons, lookup]

theorem lookup_eq_none {k : Bytes} {es : List (Bytes × Node)} (h : ∀ e ∈ es, e.1 ≠ k) :
    lookup k es = none := by
  induction es with
  | nil => rfl
  | cons e es ih =>
    simp only [List.mem_cons, forall_eq_or_imp] at h
    simp [lookup, h.1, ih h.2]

theorem mem_of_lookup {k : Bytes} {n : Node} {es : List (Bytes × Node)} (h : lookup k es = some n) :
    (k, n) ∈ es := by
  induction es with
  | nil => cases h
  | cons e es ih =>
    simp only [lookup] at h
    split_ifs at h with hk
    · cases h; simp [← hk]
    · exact List.mem_cons_of_mem _ (ih h)

/-- In entries with ascending keys, each key finds its own entry. -/
theorem lookup_of_mem {es : List (Bytes × Node)} (hs : es.Pairwise fun a b => keyLt a.1 b.1)
    {e : Bytes × Node} (he : e ∈ es) : lookup e.1 es = some e.2 := by
  induction es with
  | nil => cases he
  | cons e₀ es ih =>
    rw [List.pairwise_cons] at hs
    rcases List.mem_cons.mp he with rfl | he
    · simp [lookup]
    · simp [lookup, ne_of_keyLt (hs.1 e he), ih hs.2 he]

theorem mem_putEntry {k : Bytes} {n : Node} {es : List (Bytes × Node)} {e : Bytes × Node}
    (h : e ∈ putEntry k n es) : e = (k, n) ∨ e ∈ es := by
  induction es with
  | nil => simpa [putEntry] using h
  | cons e₀ es ih =>
    simp only [putEntry] at h
    split_ifs at h <;> rcases List.mem_cons.mp h with rfl | h
    · exact .inr (.head _)
    · exact (ih h).imp_right (.tail _)
    · exact .inl rfl
    · exact .inr (.tail _ h)
    · exact .inl rfl
    · exact .inr h

/-- `putEntry` keeps the entries in ascending key order. -/
theorem pairwise_putEntry {k : Bytes} {n : Node} {es : List (Bytes × Node)}
    (hs : es.Pairwise fun a b => keyLt a.1 b.1) :
    (putEntry k n es).Pairwise fun a b => keyLt a.1 b.1 := by
  induction es with
  | nil => simp [putEntry]
  | cons e es ih =>
    obtain ⟨k₀, n₀⟩ := e
    rw [List.pairwise_cons] at hs
    simp only [putEntry]
    split_ifs with hlt heq
    · refine List.Pairwise.cons (fun e he => ?_) (ih hs.2)
      rcases mem_putEntry he with rfl | he
      · exact hlt
      · exact hs.1 e he
    · subst heq
      exact List.Pairwise.cons hs.1 hs.2
    · have hk : keyLt k k₀ := (keyLt_total (Ne.symm heq)).resolve_right (by simpa using hlt)
      exact List.Pairwise.cons (fun e he => by
        rcases List.mem_cons.mp he with rfl | he
        · exact hk
        · exact keyLt_trans hk (hs.1 e he)) (List.Pairwise.cons hs.1 hs.2)

/-- Putting twice under one key is putting the second. -/
@[simp] theorem putEntry_putEntry (k : Bytes) (n n' : Node) (es : List (Bytes × Node)) :
    putEntry k n (putEntry k n' es) = putEntry k n es := by
  induction es with
  | nil => simp [putEntry]
  | cons e es ih =>
    obtain ⟨k₀, n₀⟩ := e
    by_cases hlt : keyLt k₀ k
    · simp [putEntry, hlt, ih]
    · by_cases h₀ : k₀ = k
      · subst h₀; simp [putEntry]
      · simp [putEntry, hlt, h₀]

/-- A key above every key there is goes last. -/
theorem putEntry_of_lt {k : Bytes} {n : Node} {es : List (Bytes × Node)}
    (h : ∀ e ∈ es, keyLt e.1 k) : putEntry k n es = es ++ [(k, n)] := by
  induction es with
  | nil => rfl
  | cons e es ih =>
    simp only [List.mem_cons, forall_eq_or_imp] at h
    simp [putEntry, h.1, ih h.2]

/-- A key below every key of the list goes first. -/
theorem putEntry_of_gt {k : Bytes} {n : Node} {es : List (Bytes × Node)}
    (h : ∀ e ∈ es, keyLt k e.1) : putEntry k n es = (k, n) :: es := by
  cases es with
  | nil => rfl
  | cons e es =>
    obtain ⟨k', n'⟩ := e
    have hk : keyLt k k' := h _ (.head _)
    have hk' : keyLt k' k = false := by
      cases hc : keyLt k' k
      · rfl
      · simpa using keyLt_trans hk hc
    simp [putEntry, hk', Ne.symm (ne_of_keyLt hk)]

/-- Replacing the last entry, when the keys before it are below its key. -/
theorem putEntry_last {k : Bytes} {n n' : Node} {es : List (Bytes × Node)}
    (h : ∀ e ∈ es, keyLt e.1 k) : putEntry k n (es ++ [(k, n')]) = es ++ [(k, n)] := by
  induction es with
  | nil => simp [putEntry]
  | cons e es ih =>
    simp only [List.mem_cons, forall_eq_or_imp] at h
    simp [putEntry, h.1, ih h.2]

/-! ### Bucket methods -/

namespace Bucket

def sequence : Bucket → UInt64
  | mk s _ => s

def entries : Bucket → List (Bytes × Node)
  | mk _ es => es

@[simp] theorem sequence_mk (s : UInt64) (es : List (Bytes × Node)) : (mk s es).sequence = s := rfl

@[simp] theorem entries_mk (s : UInt64) (es : List (Bytes × Node)) : (mk s es).entries = es := rfl

@[simp] theorem mk_sequence_entries (b : Bucket) : mk b.sequence b.entries = b := by
  cases b; rfl

/-- The bucket `CreateBucket` makes: no entries, sequence zero. -/
def empty : Bucket := mk 0 []

/-- `Bucket(key)`: the nested bucket at `key`; nil for a missing key or a value. -/
def bucket (b : Bucket) (k : Bytes) : Option Bucket :=
  match lookup k b.entries with
  | some (.bucket c) => some c
  | _ => none

@[simp] theorem bucket_empty (k : Bytes) : empty.bucket k = none := rfl

/-- `Get(key)`: the value at `key`; nil for a missing key or a nested bucket. -/
def get (b : Bucket) (k : Bytes) : Option Bytes :=
  (lookup k b.entries).bind Node.value?

/-- `CreateBucket(key)`: a new empty bucket at `key`, refused for an empty name or a key in use. -/
def createBucket (b : Bucket) (k : Bytes) : Except Error Bucket :=
  if k = [] then .error .errBucketNameRequired
  else match lookup k b.entries with
    | some (.bucket _) => .error .errBucketExists
    | some (.value _) => .error .errIncompatibleValue
    | none => .ok (mk b.sequence (putEntry k (.bucket empty) b.entries))

/-- `CreateBucketIfNotExists(key)`: `CreateBucket`, with `ErrBucketExists` read as success. -/
def createBucketIfNotExists (b : Bucket) (k : Bytes) : Except Error Bucket :=
  match b.createBucket k with
  | .error .errBucketExists => .ok b
  | r => r

/-- `DeleteBucket(key)`: removes the nested bucket at `key` with everything below it. -/
def deleteBucket (b : Bucket) (k : Bytes) : Except Error Bucket :=
  match lookup k b.entries with
  | none => .error .errBucketNotFound
  | some (.value _) => .error .errIncompatibleValue
  | some (.bucket _) => .ok (mk b.sequence (delEntry k b.entries))

/-- `Put(key, value)`: sets a value, refused for an empty or too long key, a too long value, or a
key holding a nested bucket. -/
def put (b : Bucket) (k v : Bytes) : Except Error Bucket :=
  if k = [] then .error .errKeyRequired
  else if maxKeySize < k.length then .error .errKeyTooLarge
  else if maxValueSize < v.length then .error .errValueTooLarge
  else match lookup k b.entries with
    | some (.bucket _) => .error .errIncompatibleValue
    | _ => .ok (mk b.sequence (putEntry k (.value v) b.entries))

/-- `NextSequence()`: the incremented counter, which the bucket keeps. -/
def nextSequence (b : Bucket) : UInt64 × Bucket :=
  (b.sequence + 1, mk (b.sequence + 1) b.entries)

/-- The write-back of a nested bucket changed through its handle. -/
def setBucket (b : Bucket) (k : Bytes) (c : Bucket) : Bucket :=
  mk b.sequence (putEntry k (.bucket c) b.entries)

@[simp] theorem bucket_setBucket (b c : Bucket) (k k' : Bytes) :
    (b.setBucket k c).bucket k' = if k = k' then some c else b.bucket k' := by
  unfold bucket setBucket
  by_cases h : k = k' <;> simp [h]

@[simp] theorem sequence_setBucket (b c : Bucket) (k : Bytes) :
    (b.setBucket k c).sequence = b.sequence := rfl

@[simp] theorem entries_setBucket (b c : Bucket) (k : Bytes) :
    (b.setBucket k c).entries = putEntry k (.bucket c) b.entries := rfl

theorem lookup_of_bucket {b c : Bucket} {k : Bytes} (h : b.bucket k = some c) :
    lookup k b.entries = some (.bucket c) := by
  unfold bucket at h
  split at h <;> simp_all

/-- The nested bucket at `k` is read through the entry at `k` alone. -/
theorem bucket_congr {b b' : Bucket} {k : Bytes} (h : lookup k b'.entries = lookup k b.entries) :
    b'.bucket k = b.bucket k := by
  unfold bucket
  rw [h]

@[simp] theorem bucket_mk_delEntry (s : UInt64) (es : List (Bytes × Node)) (k k' : Bytes) :
    (mk s (delEntry k es)).bucket k' = if k = k' then none else (mk s es).bucket k' := by
  unfold bucket
  by_cases h : k = k' <;> simp [h]

theorem createBucket_eq {b : Bucket} {k : Bytes} (hk : k ≠ []) (hn : lookup k b.entries = none) :
    b.createBucket k = .ok (mk b.sequence (putEntry k (.bucket empty) b.entries)) := by
  simp [createBucket, hk, hn]

/-- What `CreateBucket` returns when it succeeds: the bucket with a new empty one at `k`. -/
theorem eq_setBucket_of_createBucket {b b' : Bucket} {k : Bytes} (h : b.createBucket k = .ok b') :
    b' = b.setBucket k empty := by
  unfold createBucket at h
  split at h
  · cases h
  · split at h <;> cases h
    rfl

/-- `CreateBucketIfNotExists` never reports `ErrBucketExists`: it is the one error it absorbs. -/
theorem createBucketIfNotExists_ne_exists (b : Bucket) (k : Bytes) :
    b.createBucketIfNotExists k ≠ .error .errBucketExists := by
  unfold createBucketIfNotExists
  split <;> simp_all

theorem createBucketIfNotExists_of_bucket {b c : Bucket} {k : Bytes} (hk : k ≠ [])
    (hc : lookup k b.entries = some (.bucket c)) : b.createBucketIfNotExists k = .ok b := by
  simp [createBucketIfNotExists, createBucket, hk, hc]

/-- A successful `CreateBucketIfNotExists(k)` found the bucket, or made an empty one. -/
theorem createBucketIfNotExists_cases {b b' : Bucket} {k : Bytes}
    (h : b.createBucketIfNotExists k = .ok b') :
    b' = b ∨ b' = mk b.sequence (putEntry k (.bucket empty) b.entries) := by
  unfold createBucketIfNotExists at h
  split at h
  · exact .inl (Except.ok.inj h).symm
  · unfold createBucket at h
    split_ifs at h
    split at h <;> cases h
    exact .inr rfl

/-- A successful `DeleteBucket(k)` removed a nested bucket that was there. -/
theorem deleteBucket_ok {b b' : Bucket} {k : Bytes} (h : b.deleteBucket k = .ok b') :
    (b.bucket k).isSome ∧ b' = mk b.sequence (delEntry k b.entries) := by
  unfold deleteBucket at h
  unfold bucket
  split at h <;> cases h
  simp_all

/-- After `DeleteBucket(k)` there is no nested bucket at `k`, and when it fails there was none. -/
theorem bucket_of_deleteBucket {b b' : Bucket} {k : Bytes} (h : b.deleteBucket k = .ok b') :
    b'.bucket k = none := by
  unfold deleteBucket at h
  split at h <;> cases h
  simp [bucket]

theorem bucket_of_deleteBucket_error {b : Bucket} {k : Bytes} {e : Error}
    (h : b.deleteBucket k = .error e) : b.bucket k = none := by
  unfold deleteBucket at h
  unfold bucket
  split at h <;> simp_all

theorem put_eq {b : Bucket} {k v : Bytes} (hk : k ≠ []) (hks : k.length ≤ maxKeySize)
    (hv : v.length ≤ maxValueSize) (hn : ∀ c, lookup k b.entries ≠ some (.bucket c)) :
    b.put k v = .ok (mk b.sequence (putEntry k (.value v) b.entries)) := by
  rw [put, if_neg hk, if_neg (Nat.not_lt.mpr hks), if_neg (Nat.not_lt.mpr hv)]
  split
  · exact absurd ‹_› (hn _)
  · rfl

end Bucket

end SurgeMQ.Bolt
