import SurgeMQ.Persistence.Tx

/-!
# Keys, and records under sequence numbers

The store keeps lists under one nested bucket per element, keyed by `itob64` of the bucket's next
sequence number: `messages.Store` and `retained.Store` do it for messages, `subscriptions.Add` for
topics. The loop is the same in the three, so it is one definition here, `putSequenced`, with the
element's own writes as a parameter, and one lemma, `putSequenced_eq`: run on a bucket whose keys
are all below the next sequence key, it appends one entry per element, in the loop's order, and
leaves the counter advanced by the length of the list.

That the appended entries come last, and so that a cursor meets them in the order they were
stored, rests on `keyLt_seqKey`: eight big-endian bytes compare as the numbers they encode. Over all
of `UInt64`, `bytes.Compare` orders `itob64 a` and `itob64 b` exactly as `a` and `b`, so `itob64` is
injective (`keyLt_itob64_iff`, `itob64_inj`).

The results carry one resource bound, fewer than `2⁶⁴` records in a bucket. The counter is a
`uint64`, and bolt's `NextSequence()` would wrap on a bucket of `2⁶⁴ - 1` records, the next one
going under `itob64 0`, ahead of all the others (`putSequenced_wraps`). No run of the store gets
there: only this loop advances the counter, a write that fails is rolled back with its counter,
records leave only with their bucket, and a bolt database holds far fewer than `2⁶⁴` nested
buckets.
-/

namespace SurgeMQ.Persistence

open Bolt

/-- `[]byte(s)`: a Go string's UTF-8 bytes. -/
def bytesOf (s : String) : Bytes := s.toUTF8.data.toList

def bucketRetained : Bytes := bytesOf "retained"

def bucketSessions : Bytes := bytesOf "sessions"

def bucketMessages : Bytes := bytesOf "messages"

def bucketSubscriptions : Bytes := bytesOf "subscriptions"

/-- `itob64`: `binary.BigEndian.PutUint64` into eight fresh bytes. -/
def itob64 (v : UInt64) : Bytes :=
  [UInt8.ofNat (v.toNat / 2 ^ 56), UInt8.ofNat (v.toNat / 2 ^ 48), UInt8.ofNat (v.toNat / 2 ^ 40),
    UInt8.ofNat (v.toNat / 2 ^ 32), UInt8.ofNat (v.toNat / 2 ^ 24), UInt8.ofNat (v.toNat / 2 ^ 16),
    UInt8.ofNat (v.toNat / 2 ^ 8), UInt8.ofNat v.toNat]

/-! ### The order of sequence keys -/

/-- `k` bytes of `v`, most significant first. -/
def bigEndian : Nat → Nat → Bytes
  | 0, _ => []
  | k + 1, v => bigEndian k (v / 256) ++ [UInt8.ofNat v]

@[simp] theorem bigEndian_length (k v : Nat) : (bigEndian k v).length = k := by
  induction k generalizing v with
  | zero => rfl
  | succ k ih => simp [bigEndian, ih]

theorem itob64_eq_bigEndian (v : UInt64) : itob64 v = bigEndian 8 v.toNat := by
  simp [itob64, bigEndian, Nat.div_div_eq_div_mul]

/-- Big-endian bytes of one width compare as the numbers they encode: the higher bytes decide,
and when they agree, the last byte does. -/
theorem keyLt_bigEndian {k a b : Nat} (hab : a < b) (hb : b < 256 ^ k) :
    keyLt (bigEndian k a) (bigEndian k b) := by
  induction k generalizing a b with
  | zero => simp at hb; omega
  | succ k ih =>
    simp only [bigEndian]
    rcases Nat.lt_or_eq_of_le (Nat.div_le_div_right hab.le : a / 256 ≤ b / 256) with h | h
    · have hb' : b / 256 < 256 ^ k := Nat.div_lt_of_lt_mul (by rw [← pow_succ']; exact hb)
      exact keyLt_append _ _ (ih h hb') (by simp)
    · have hlow : a % 256 < b % 256 := by omega
      have hne : UInt8.ofNat a ≠ UInt8.ofNat b := fun he => by
        have := congrArg UInt8.toNat he
        simp only [byte_toNat] at this
        omega
      simp [h, keyLt, hne, hlow]

theorem uint64_lt_iff_toNat {a b : UInt64} : a < b ↔ a.toNat < b.toNat := Iff.rfl

/-- `itob64` is strictly monotone for `bytes.Compare`, over all of `UInt64`. -/
theorem keyLt_itob64 {a b : UInt64} (h : a < b) : keyLt (itob64 a) (itob64 b) := by
  rw [itob64_eq_bigEndian, itob64_eq_bigEndian]
  exact keyLt_bigEndian (uint64_lt_iff_toNat.mp h) (by simpa using b.toBitVec.isLt)

/-- `bytes.Compare` orders `itob64 a` before `itob64 b` exactly when `a < b`: equal numbers give
equal keys, and the reversed order is asymmetric to the strict one. -/
theorem keyLt_itob64_iff (a b : UInt64) : keyLt (itob64 a) (itob64 b) ↔ a < b := by
  refine ⟨fun h => ?_, keyLt_itob64⟩
  rcases Nat.lt_trichotomy a.toNat b.toNat with hlt | heq | hgt
  · exact uint64_lt_iff_toNat.mpr hlt
  · rw [UInt64.toNat.inj heq, keyLt_self] at h
    cases h
  · simpa using keyLt_trans h (keyLt_itob64 (uint64_lt_iff_toNat.mpr hgt))

theorem itob64_inj {a b : UInt64} : itob64 a = itob64 b ↔ a = b := by
  refine ⟨fun h => ?_, congrArg itob64⟩
  rcases Nat.lt_trichotomy a.toNat b.toNat with hlt | heq | hgt
  · exact absurd h (ne_of_keyLt (keyLt_itob64 (uint64_lt_iff_toNat.mpr hlt)))
  · exact UInt64.toNat.inj heq
  · exact absurd h.symm (ne_of_keyLt (keyLt_itob64 (uint64_lt_iff_toNat.mpr hgt)))

/-- The key of the record stored under sequence number `i`. -/
def seqKey (i : Nat) : Bytes := itob64 (UInt64.ofNat i)

@[simp] theorem seqKey_length (i : Nat) : (seqKey i).length = 8 := rfl

theorem keyLt_seqKey {i j : Nat} (hij : i < j) (hj : j < 2 ^ 64) : keyLt (seqKey i) (seqKey j) :=
  keyLt_itob64 (show i % 2 ^ 64 < j % 2 ^ 64 by rw [Nat.mod_eq_of_lt (by omega), Nat.mod_eq_of_lt hj]; exact hij)

theorem ofNat_add_one (n : Nat) : UInt64.ofNat n + 1 = UInt64.ofNat (n + 1) :=
  UInt64.toNat.inj (show (n % 2 ^ 64 + 1 % 2 ^ 64) % 2 ^ 64 = (n + 1) % 2 ^ 64 by omega)

/-! ### The loop -/

/-- The entries a run of the loop over `xs` adds after sequence number `n`: under the keys of
`n + 1, n + 2, …`, the bucket each element's writes make of an empty one. -/
def seqEntries {α : Type} (f : α → Bucket) (n : Nat) : List α → List (Bytes × Node)
  | [] => []
  | x :: xs => (seqKey (n + 1), .bucket (f x)) :: seqEntries f (n + 1) xs

/-- Every key of `es` is below the key of any sequence number after `n`. -/
def Below (es : List (Bytes × Node)) (n : Nat) : Prop :=
  ∀ e ∈ es, ∀ j, n < j → j < 2 ^ 64 → keyLt e.1 (seqKey j)

/-- The loop `Store` and `Add` share: each element into a new bucket under `itob64` of the next
sequence number, filled by `fill`. -/
def putSequenced {α : Type} (fill : α → Tx Unit) : List α → Tx Unit
  | [] => pure ()
  | x :: xs => do
    let id ← Tx.nextSequence
    Tx.createBucket (itob64 id)
    Tx.inBucket (itob64 id) .panic (fill x)
    putSequenced fill xs

section Loop

variable {α : Type} {fill : α → Tx Unit} {f : α → Bucket}

/-- One turn of the loop: the new bucket lands last and is filled there. -/
theorem putSequenced_cons {x : α} {xs : List α} {n : Nat} {es : List (Bytes × Node)}
    (hx : fill x Bucket.empty = .ok ((), f x)) (hes : Below es n) (hn : n + 1 < 2 ^ 64) :
    putSequenced fill (x :: xs) (.mk (UInt64.ofNat n) es) =
      putSequenced fill xs (.mk (UInt64.ofNat (n + 1)) (es ++ [(seqKey (n + 1), .bucket (f x))])) := by
  have hlt : ∀ e ∈ es, keyLt e.1 (seqKey (n + 1)) := fun e he => hes e he _ (by omega) hn
  have hnone : lookup (seqKey (n + 1)) es = none :=
    lookup_eq_none fun e he => ne_of_keyLt (hlt e he)
  have hcreate : Tx.createBucket (seqKey (n + 1)) (.mk (UInt64.ofNat (n + 1)) es) =
      .ok ((), .mk (UInt64.ofNat (n + 1)) (es ++ [(seqKey (n + 1), .bucket .empty)])) := by
    rw [Tx.createBucket_ok (Bucket.createBucket_eq (by simp [← List.length_pos]) hnone),
      Bucket.sequence_mk, Bucket.entries_mk, putEntry_of_lt hlt]
  have hbucket : (Bucket.mk (UInt64.ofNat (n + 1)) (es ++ [(seqKey (n + 1), .bucket .empty)])).bucket
      (seqKey (n + 1)) = some .empty := by
    simp [Bucket.bucket, lookup_append, hnone, lookup]
  simp only [putSequenced, Tx.bind_apply, Tx.nextSequence_apply, Bucket.nextSequence,
    Bucket.sequence_mk, Bucket.entries_mk, ofNat_add_one]
  rw [← seqKey, hcreate]
  simp only [Tx.inBucket_of_bucket hbucket, hx, Bucket.setBucket, Bucket.sequence_mk,
    Bucket.entries_mk, putEntry_last hlt]

/-- **The store loop.** On a bucket whose keys are below the next sequence key, the loop appends
one entry per element, in order, and advances the counter by their number. -/
theorem putSequenced_eq {xs : List α} (hfill : ∀ x ∈ xs, fill x Bucket.empty = .ok ((), f x)) :
    ∀ {n : Nat} {es : List (Bytes × Node)}, Below es n → n + xs.length < 2 ^ 64 →
      putSequenced fill xs (.mk (UInt64.ofNat n) es) =
        .ok ((), .mk (UInt64.ofNat (n + xs.length)) (es ++ seqEntries f n xs)) := by
  induction xs with
  | nil => intro n es _ _; simp [putSequenced, seqEntries]
  | cons x xs ih =>
    intro n es hes hn
    simp only [List.length_cons] at hn
    have hes' : Below (es ++ [(seqKey (n + 1), .bucket (f x))]) (n + 1) := by
      intro e he j hj hj'
      rcases List.mem_append.mp he with he | he
      · exact hes e he j (by omega) hj'
      · simp only [List.mem_singleton] at he
        subst he
        exact keyLt_seqKey hj hj'
    rw [putSequenced_cons (hfill x (by simp)) hes (by omega),
      ih (fun y hy => hfill y (by simp [hy])) hes' (by omega)]
    simp [seqEntries, Nat.add_right_comm, Nat.add_assoc]

/-- The loop fails, wherever it starts, on a list with an element whose writes fail on the empty
bucket made for it: every element before it succeeds or fails. -/
theorem putSequenced_fails {x : α} (hx : ∃ e, fill x Bucket.empty = .error e) :
    ∀ {xs : List α}, x ∈ xs → Tx.Fails (putSequenced fill xs)
  | [], h, _ => absurd h (List.not_mem_nil _)
  | y :: ys, h, b => by
    simp only [putSequenced, Tx.bind_apply, Tx.nextSequence_apply, Tx.createBucket, Tx.lift]
    cases hc : b.nextSequence.2.createBucket (itob64 b.nextSequence.1) with
    | error e' => exact ⟨_, rfl⟩
    | ok c =>
      have hb : c.bucket (itob64 b.nextSequence.1) = some .empty := by
        simp [Bucket.eq_setBucket_of_createBucket hc]
      simp only [Tx.inBucket_of_bucket hb]
      rcases List.mem_cons.mp h with rfl | h
      · obtain ⟨e, he⟩ := hx
        exact ⟨e, by rw [he]⟩
      · cases hy : fill y .empty with
        | error e' => exact ⟨e', rfl⟩
        | ok r => exact putSequenced_fails hx h _

end Loop

theorem mem_seqEntries {α : Type} {f : α → Bucket} {e : Bytes × Node} :
    ∀ {n : Nat} {xs : List α}, e ∈ seqEntries f n xs →
      ∃ j, n < j ∧ j ≤ n + xs.length ∧ e.1 = seqKey j
  | _, [], h => by cases h
  | n, x :: xs, h => by
    rcases List.mem_cons.mp h with rfl | h
    · exact ⟨n + 1, by omega, by simp, rfl⟩
    · obtain ⟨j, hj, hj', he⟩ := mem_seqEntries h
      exact ⟨j, by omega, by simp only [List.length_cons]; omega, he⟩

theorem seqEntries_append {α : Type} (f : α → Bucket) :
    ∀ (n : Nat) (xs ys : List α),
      seqEntries f n (xs ++ ys) = seqEntries f n xs ++ seqEntries f (n + xs.length) ys
  | _, [], _ => rfl
  | n, x :: xs, ys => by
    simp [seqEntries, seqEntries_append f (n + 1) xs ys, Nat.add_assoc, Nat.add_comm 1]

/-- The loop's keys are below every later sequence key, so a later run appends after them. -/
theorem below_seqEntries {α : Type} (f : α → Bucket) (n : Nat) (xs : List α) :
    Below (seqEntries f n xs) (n + xs.length) := fun _ he _ hj hj' => by
  obtain ⟨i, _, hi, he⟩ := mem_seqEntries he
  exact he ▸ keyLt_seqKey (by omega) hj'

/-- The keys of the loop's entries ascend. -/
theorem seqEntries_sorted {α : Type} (f : α → Bucket) :
    ∀ (n : Nat) (xs : List α), n + xs.length < 2 ^ 64 →
      (seqEntries f n xs).Pairwise fun a b => keyLt a.1 b.1
  | _, [], _ => List.Pairwise.nil
  | n, x :: xs, h => by
    simp only [List.length_cons] at h
    refine List.Pairwise.cons (fun e he => ?_) (seqEntries_sorted f (n + 1) xs (by omega))
    obtain ⟨j, hj, hj', he⟩ := mem_seqEntries he
    exact he ▸ keyLt_seqKey (by omega) (by omega)

/-- The bucket the loop leaves after storing the elements of `L`, in order, in a new bucket. -/
def seqBucket {α : Type} (f : α → Bucket) (L : List α) : Bucket :=
  .mk (UInt64.ofNat L.length) (seqEntries f 0 L)

/-- **The loop on its own bucket.** Storing `M` after `L` leaves the bucket of `L ++ M`. -/
theorem putSequenced_seqBucket {α : Type} {fill : α → Tx Unit} {f : α → Bucket} {L M : List α}
    (hfill : ∀ x ∈ M, fill x Bucket.empty = .ok ((), f x)) (hn : (L ++ M).length < 2 ^ 64) :
    putSequenced fill M (seqBucket f L) = .ok ((), seqBucket f (L ++ M)) := by
  rw [List.length_append] at hn
  rw [seqBucket, putSequenced_eq hfill (by simpa using below_seqEntries f 0 L) hn]
  simp [seqBucket, seqEntries_append]

/-- In the loop's bucket each record's key finds it, so a cursor loop reading `Bucket(k)` for each
key `k` it meets reads that record. -/
theorem lookup_seqBucket {α : Type} {f : α → Bucket} {L : List α} (hn : L.length < 2 ^ 64)
    {e : Bytes × Node} (he : e ∈ (seqBucket f L).entries) :
    lookup e.1 (seqBucket f L).entries = some e.2 :=
  lookup_of_mem (seqEntries_sorted f 0 L (by omega)) he

/-- Past the resource bound the counter would wrap. On the loop's bucket of `2⁶⁴ - 1` records the
counter is at its maximum, so `NextSequence()` returns 0 and the next record goes under `itob64 0`,
below every key, where a cursor meets it first. -/
theorem putSequenced_wraps {α : Type} {fill : α → Tx Unit} {f : α → Bucket} {x : α} {L : List α} (hx : fill x Bucket.empty = .ok ((), f x))
    (hL : L.length = 2 ^ 64 - 1) :
    putSequenced fill [x] (seqBucket f L) =
      .ok ((), .mk 0 ((itob64 0, .bucket (f x)) :: (seqBucket f L).entries)) := by
  have hbelow : ∀ e ∈ (seqBucket f L).entries, keyLt (itob64 0) e.1 := fun e he => by
    obtain ⟨j, hj, hj', he⟩ := mem_seqEntries he
    exact he ▸ keyLt_seqKey (i := 0) hj (by omega)
  have hnone : lookup (itob64 0) (seqBucket f L).entries = none :=
    lookup_eq_none fun e he => (ne_of_keyLt (hbelow e he)).symm
  have hseq : (seqBucket f L).sequence + 1 = 0 := by
    rw [seqBucket, hL, Bucket.sequence_mk]
    decide
  have hcreate : Tx.createBucket (itob64 0) (.mk 0 (seqBucket f L).entries) =
      .ok ((), .mk 0 ((itob64 0, .bucket .empty) :: (seqBucket f L).entries)) := by
    rw [Tx.createBucket_ok (Bucket.createBucket_eq (b := .mk 0 (seqBucket f L).entries)
      (by simp [itob64]) hnone), Bucket.sequence_mk,
      Bucket.entries_mk, putEntry_of_gt hbelow]
  have hbucket : (Bucket.mk 0 ((itob64 0, .bucket .empty) :: (seqBucket f L).entries)).bucket
      (itob64 0) = some .empty := by
    simp [Bucket.bucket, lookup]
  simp only [putSequenced, Tx.bind_apply, Tx.nextSequence_apply, Bucket.nextSequence, hseq]
  rw [hcreate]
  simp [Tx.inBucket_of_bucket hbucket, hx, Bucket.setBucket, putEntry]

/-- The loop's entries in the order a cursor meets them: the `i`-th element stored after sequence
number `n`, under the key of `n + i`. -/
theorem seqEntries_eq_enumFrom {α : Type} (f : α → Bucket) :
    ∀ (n : Nat) (xs : List α),
      seqEntries f n xs = (xs.enumFrom (n + 1)).map fun p => (seqKey p.1, .bucket (f p.2))
  | _, [] => rfl
  | n, x :: xs => by simp [seqEntries, List.enumFrom_cons, seqEntries_eq_enumFrom f (n + 1) xs]

/-- **Sequence keys sort in numeric order.** For all 64-bit `a` and `b`, `bytes.Compare` orders
`itob64 a` before `itob64 b` exactly when `a < b`, so `itob64` is injective. And within the resource
bound of fewer than `2⁶⁴` records, a run of the loop that stores `M` after records `L` leaves a bucket whose
entries, the order a cursor visits them, are the records of `L ++ M` as they were inserted, the
`i`-th under the key of sequence number `i`. -/
theorem sequence_keys_sort_numerically :
    (∀ a b : UInt64, keyLt (itob64 a) (itob64 b) ↔ a < b) ∧
      (∀ a b : UInt64, itob64 a = itob64 b ↔ a = b) ∧
      ∀ {α : Type} (fill : α → Tx Unit) (f : α → Bucket) (L M : List α),
        (∀ x ∈ M, fill x Bucket.empty = .ok ((), f x)) → (L ++ M).length < 2 ^ 64 →
        putSequenced fill M (seqBucket f L) = .ok ((), seqBucket f (L ++ M)) ∧
          (seqBucket f (L ++ M)).entries =
            ((L ++ M).enumFrom 1).map fun p => (seqKey p.1, .bucket (f p.2)) :=
  ⟨keyLt_itob64_iff, fun _ _ => itob64_inj, fun _ _ _ _ hfill hn =>
    ⟨putSequenced_seqBucket hfill hn, seqEntries_eq_enumFrom _ 0 _⟩⟩

theorem sequence_keys_sort_numerically_three_records :
    (∀ x ∈ [(), ()], (fun _ : Unit => (pure () : Tx Unit)) x Bucket.empty = .ok ((), Bucket.empty)) ∧
      ([()] ++ [(), ()]).length < 2 ^ 64 ∧
      (putSequenced (fun _ : Unit => (pure () : Tx Unit)) [(), ()] (seqBucket (fun _ => Bucket.empty) [()]) =
          .ok ((), seqBucket (fun _ => Bucket.empty) ([()] ++ [(), ()])) ∧
        (seqBucket (fun _ => Bucket.empty) ([()] ++ [(), ()])).entries =
          (([()] ++ [(), ()]).enumFrom 1).map fun p => (seqKey p.1, .bucket Bucket.empty)) := by
  have hfill : ∀ x ∈ [(), ()], (fun _ : Unit => (pure () : Tx Unit)) x Bucket.empty =
      .ok ((), Bucket.empty) := fun _ _ => rfl
  have hn : ([()] ++ [(), ()]).length < 2 ^ 64 := by decide
  exact ⟨hfill, hn, sequence_keys_sort_numerically.2.2 _ _ [()] [(), ()] hfill hn⟩

end SurgeMQ.Persistence
