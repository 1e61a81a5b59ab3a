import SurgeMQ.Persistence.Sessions

/-!
# Subscriptions

`Add` stores each topic of its map in a bucket of its own below the session's `subscriptions`
bucket, keyed by `itob64` of the next sequence number, with the topic under `topic` and the QoS byte
under `qos`. `Get` reads them back into a map, and reads them all once per entry of the bucket: its
`ForEach` callback ignores its arguments and runs a full cursor scan, each writing every topic into
the map again.

After `Add(m₁), …, Add(mₖ)` on a session with no subscriptions, `Get` returns `latest [m₁, …, mₖ]`,
the last write of every topic (`get_adds_of_fresh`; `Refinement` states it for `Add`s with any other
writes between them). The proof follows the data. The bucket the `Add`s
leave is `seqBucket subscriptionBucket L`, one record per pair of the concatenation `L` (`add_holds`). One scan
of it assigns the pairs of `L` in order (`scan_seqEntries`), which gives each topic its last write
(`assignAll_apply`), and every further scan changes nothing (`assignAll_idem`). The order within one
map does not matter, since a map's topics are distinct (`find?_reverse`).
-/

namespace SurgeMQ.Persistence

open Bolt

/-- A Go map from topics to QoS levels (`message.TopicsQoS`), as the function it is. -/
abbrev TopicsQoS := Bytes → Option QosType

namespace Subscriptions

/-- What `Add` writes for one topic into its new bucket. -/
def putSubscription (tq : Bytes × QosType) : Tx Unit := do
  Tx.put (bytesOf "topic") tq.1
  Tx.put (bytesOf "qos") [tq.2]

/-- `subscriptions.Add(subs)`, with `subs` listed in the order its `range` loop visits the map. -/
def add (id : Bytes) (subs : List (Bytes × QosType)) (root : Bucket) : Bucket × Option Error :=
  update (Tx.inBucket bucketSessions .errNotFound <| Tx.inBucket id .errNotFound <|
    Tx.inCreatedBucket bucketSubscriptions (putSequenced putSubscription subs)) root

/-- `Get`'s `ForEach` over one topic's bucket: `topic` sets the topic (`string(v)`, empty for nil),
`qos` the QoS (`v[0]`, which panics on an empty or nil value). -/
def readSubscription : List (Bytes × Node) → Bytes × QosType → Except Error (Bytes × QosType)
  | [], tq => .ok tq
  | (k, n) :: es, (t, q) =>
    if k = bytesOf "topic" then readSubscription es (n.value?.getD [], q)
    else if k = bytesOf "qos" then
      match n.value? with
      | some (b :: _) => readSubscription es (t, b)
      | _ => .error .panic
    else readSubscription es (t, q)

/-- `Get`'s cursor loop over the entries `es` of `bucket`, each key's bucket read and written into
`res`; a key holding a value has a nil bucket, and reading through it panics. -/
def scan (bucket : Bucket) : List (Bytes × Node) → TopicsQoS → Except Error TopicsQoS
  | [], res => .ok res
  | (k, _) :: es, res =>
    match bucket.bucket k with
    | none => .error .panic
    | some subBuck =>
      match readSubscription subBuck.entries ([], 0) with
      | .ok (t, q) => scan bucket es (Function.update res t (some q))
      | .error e => .error e

/-- `bucket.ForEach` around the cursor loop: the whole loop once per entry. -/
def scanEach (bucket : Bucket) : List (Bytes × Node) → TopicsQoS → Except Error TopicsQoS
  | [], res => .ok res
  | _ :: es, res =>
    match scan bucket bucket.entries res with
    | .ok res => scanEach bucket es res
    | .error e => .error e

/-- `subscriptions.Get()`: a nil map with the error when there is one. -/
def get (id : Bytes) (root : Bucket) : TopicsQoS × Option Error :=
  match root.bucket bucketSessions with
  | none => (fun _ => none, some .errNotFound)
  | some sesBucket =>
    match sesBucket.bucket id with
    | none => (fun _ => none, some .errNotFound)
    | some sBucket =>
      match sBucket.bucket bucketSubscriptions with
      | none => (fun _ => none, some .errNotFound)
      | some bucket =>
        match scanEach bucket bucket.entries (fun _ => none) with
        | .ok res => (res, none)
        | .error e => (fun _ => none, some e)

/-- `subscriptions.Delete()`. -/
def delete (id : Bytes) (root : Bucket) : Bucket × Option Error :=
  Sessions.deleteSessionBucket bucketSubscriptions id root

/-- `Add(m₁), …, Add(mₖ)` in turn. -/
def adds (id : Bytes) (ms : List (List (Bytes × QosType))) (root : Bucket) : Bucket :=
  ms.foldl (fun r m => (add id m r).1) root

/-- The map `Get` should return after `Add(m₁), …, Add(mₖ)`: every topic of some `mᵢ` to its QoS in
the latest `mᵢ` holding it, and no other topic. -/
def latest : List (List (Bytes × QosType)) → TopicsQoS
  | [] => fun _ => none
  | m :: ms => fun t => (latest ms t).or ((m.find? fun tq => decide (tq.1 = t)).map (·.2))

/-! ### What `Add` leaves -/

/-- The bucket `Add` makes for one topic. -/
def subscriptionBucket (tq : Bytes × QosType) : Bucket :=
  .mk 0 [(bytesOf "qos", .value [tq.2]), (bytesOf "topic", .value tq.1)]

/-- Session `id` is there, and its `subscriptions` bucket holds the records of `L`. -/
def Holds (id : Bytes) (L : List (Bytes × QosType)) (root : Bucket) : Prop :=
  ∃ sesBucket sBucket, root.bucket bucketSessions = some sesBucket ∧
    sesBucket.bucket id = some sBucket ∧
    sBucket.bucket bucketSubscriptions = some (seqBucket subscriptionBucket L)

/-- Session `id` is there with no `subscriptions` bucket, as `New` leaves it and `Delete` leaves
its subscriptions. -/
def Fresh (id : Bytes) (root : Bucket) : Prop :=
  ∃ sesBucket sBucket, root.bucket bucketSessions = some sesBucket ∧
    sesBucket.bucket id = some sBucket ∧ lookup bucketSubscriptions sBucket.entries = none

theorem putSubscription_empty {tq : Bytes × QosType} (h : tq.1.length ≤ maxValueSize) :
    putSubscription tq .empty = .ok ((), subscriptionBucket tq) := by
  simp +decide [putSubscription, Tx.put_eq, Bucket.empty, putEntry, lookup, subscriptionBucket, h]

theorem putSubscription_fails {tq : Bytes × QosType} (h : maxValueSize < tq.1.length) :
    Tx.Fails (putSubscription tq) :=
  (Tx.put_fails h).bind_left

/-- **One `Add`.** On a session whose subscriptions hold `L`, or with none yet and `L` empty, `Add(m)`
returns nil and leaves them holding `L ++ m`. -/
theorem add_holds {id : Bytes} {L m : List (Bytes × QosType)} {root : Bucket}
    (hr : Holds id L root ∨ (L = [] ∧ Fresh id root))
    (hm : ∀ tq ∈ m, tq.1.length ≤ maxValueSize) (hn : (L ++ m).length < 2 ^ 64) :
    (add id m root).2 = none ∧ Holds id (L ++ m) (add id m root).1 := by
  obtain ⟨sesBucket, sBucket, hses, hs, hsub⟩ : ∃ sesBucket sBucket,
      root.bucket bucketSessions = some sesBucket ∧ sesBucket.bucket id = some sBucket ∧
      (sBucket.bucket bucketSubscriptions = some (seqBucket subscriptionBucket L) ∨
        (seqBucket subscriptionBucket L = .empty ∧
          lookup bucketSubscriptions sBucket.entries = none)) := by
    rcases hr with ⟨a, b, h₁, h₂, h₃⟩ | ⟨rfl, a, b, h₁, h₂, h₃⟩
    · exact ⟨a, b, h₁, h₂, .inl h₃⟩
    · exact ⟨a, b, h₁, h₂, .inr ⟨rfl, h₃⟩⟩
  have hin := Tx.inCreatedBucket_eq (by decide) hsub
    (putSequenced_seqBucket (fun tq h => putSubscription_empty (hm tq h)) hn)
  have hsB : (Sessions.sessionsOf root).bucket id = some sBucket := by
    rw [Sessions.sessionsOf_of_bucket hses, hs]
  rw [add, Sessions.update_inSession_eq hsB hin]
  exact ⟨rfl, _, _, by simp [Sessions.putSession]; rfl, by simp; rfl, by simp⟩

/-- **The `Add`s.** Each `Add` appends its pairs to what the subscriptions hold. -/
theorem adds_holds {id : Bytes} :
    ∀ {ms : List (List (Bytes × QosType))} {L : List (Bytes × QosType)} {root : Bucket},
      Holds id L root → (∀ m ∈ ms, ∀ tq ∈ m, tq.1.length ≤ maxValueSize) →
      (L ++ ms.flatten).length < 2 ^ 64 → Holds id (L ++ ms.flatten) (adds id ms root)
  | [], L, root, hr, _, _ => by simpa [adds] using hr
  | m :: ms, L, root, hr, hm, hn => by
    have hn' : (L ++ m ++ ms.flatten).length < 2 ^ 64 := by simpa [List.append_assoc] using hn
    have h := add_holds (.inl hr) (hm m (by simp)) (by simp at hn' ⊢; omega)
    simpa [adds, List.append_assoc] using
      adds_holds h.2 (fun m' hm' => hm m' (by simp [hm'])) hn'

/-! ### What `Get` reads -/

/-- `res` after `res[t] = q` for each pair of `L` in turn. -/
def assignAll (res : TopicsQoS) : List (Bytes × QosType) → TopicsQoS
  | [] => res
  | (t, q) :: L => assignAll (Function.update res t (some q)) L

/-- Each topic gets its last write in `L`, and keeps what it had if `L` has none. -/
theorem assignAll_apply (res : TopicsQoS) (L : List (Bytes × QosType)) (t : Bytes) :
    assignAll res L t = ((L.reverse.find? fun tq => decide (tq.1 = t)).map (·.2)).or (res t) := by
  induction L generalizing res with
  | nil => simp [assignAll]
  | cons tq L ih =>
    obtain ⟨t', q⟩ := tq
    simp only [assignAll, ih, List.reverse_cons, List.find?_append]
    by_cases h : t = t'
    · subst h
      cases L.reverse.find? fun tq => decide (tq.1 = t) <;> simp [Function.update_apply]
    · cases L.reverse.find? fun tq => decide (tq.1 = t) <;>
        simp [h, Ne.symm h, Function.update_apply]

theorem assignAll_idem (res : TopicsQoS) (L : List (Bytes × QosType)) :
    assignAll (assignAll res L) L = assignAll res L := by
  funext t
  simp only [assignAll_apply]
  cases (L.reverse.find? fun tq => decide (tq.1 = t)) <;> simp

theorem assignAll_append (res : TopicsQoS) (L M : List (Bytes × QosType)) :
    assignAll res (L ++ M) = assignAll (assignAll res L) M := by
  induction L generalizing res with
  | nil => rfl
  | cons tq L ih => exact ih _

theorem readSubscription_bucket (tq tq₀ : Bytes × QosType) :
    readSubscription (subscriptionBucket tq).entries tq₀ = .ok tq := by
  obtain ⟨t₀, q₀⟩ := tq₀
  simp [readSubscription, subscriptionBucket, Node.value?, show bytesOf "qos" ≠ bytesOf "topic" by decide]

/-- **One scan.** Over records each of which its key finds, the cursor loop assigns their pairs
in order. -/
theorem scan_seqEntries {b : Bucket} :
    ∀ {n : Nat} {L : List (Bytes × QosType)} {res : TopicsQoS},
      (∀ e ∈ seqEntries subscriptionBucket n L, lookup e.1 b.entries = some e.2) →
      scan b (seqEntries subscriptionBucket n L) res = .ok (assignAll res L)
  | _, [], _, _ => rfl
  | n, (t, q) :: L, res, h => by
    have hb : b.bucket (seqKey (n + 1)) = some (subscriptionBucket (t, q)) := by
      simp [Bucket.bucket, h _ (List.mem_cons_self _ _)]
    simp only [seqEntries, scan, hb, readSubscription_bucket, assignAll]
    exact scan_seqEntries fun e he => h e (List.mem_cons_of_mem _ he)

theorem scanEach_assignAll {b : Bucket} {L : List (Bytes × QosType)}
    (hscan : ∀ res, scan b b.entries res = .ok (assignAll res L)) :
    ∀ (es : List (Bytes × Node)) (res : TopicsQoS),
      scanEach b es (assignAll res L) = .ok (assignAll res L)
  | [], _ => rfl
  | _ :: es, res => by
    simp only [scanEach, hscan, assignAll_idem, scanEach_assignAll hscan es]

/-- **`Get` on what the `Add`s left.** Every scan of it assigns its pairs in order, and the map is
their last writes. -/
theorem get_of_holds {id : Bytes} {L : List (Bytes × QosType)} {root : Bucket}
    (h : Holds id L root) (hn : L.length < 2 ^ 64) :
    get id root = (assignAll (fun _ => none) L, none) := by
  obtain ⟨sesBucket, sBucket, hses, hs, hsub⟩ := h
  have hscan : ∀ res, scan (seqBucket subscriptionBucket L) (seqBucket subscriptionBucket L).entries
      res = .ok (assignAll res L) := fun res =>
    scan_seqEntries fun e he => lookup_seqBucket hn he
  have hget : scanEach (seqBucket subscriptionBucket L) (seqBucket subscriptionBucket L).entries
      (fun _ => none) = .ok (assignAll (fun _ => none) L) := by
    cases L with
    | nil => rfl
    | cons tq L =>
      simp only [scanEach, seqBucket, seqEntries, Bucket.entries_mk] at hscan ⊢
      rw [hscan]
      exact scanEach_assignAll hscan _ _
  simp [get, hses, hs, hsub, hget]

/-- Within a map, whose topics are distinct, the last write of a topic is its only one. -/
theorem find?_reverse {m : List (Bytes × QosType)} (hm : (m.map Prod.fst).Nodup) (t : Bytes) :
    m.reverse.find? (fun tq => decide (tq.1 = t)) = m.find? fun tq => decide (tq.1 = t) := by
  induction m with
  | nil => rfl
  | cons tq m ih =>
    rw [List.map_cons, List.nodup_cons] at hm
    simp only [List.reverse_cons, List.find?_append, ih hm.2, List.find?_cons]
    by_cases h : tq.1 = t
    · have : m.find? (fun tq => decide (tq.1 = t)) = none :=
        List.find?_eq_none.mpr fun x hx hxt => hm.1 (by
          simp only [decide_eq_true_eq] at hxt
          exact h ▸ hxt ▸ List.mem_map_of_mem _ hx)
      simp [h, this]
    · simp [h]

theorem assignAll_flatten {ms : List (List (Bytes × QosType))}
    (hms : ∀ m ∈ ms, (m.map Prod.fst).Nodup) : assignAll (fun _ => none) ms.flatten = latest ms := by
  funext t
  rw [assignAll_apply, Option.or_none]
  induction ms with
  | nil => rfl
  | cons m ms ih =>
    simp only [List.flatten_cons, List.reverse_append, List.find?_append, latest,
      ← ih fun m' h => hms m' (by simp [h]), find?_reverse (hms m (by simp)) t]
    cases (ms.flatten.reverse.find? fun tq => decide (tq.1 = t)) <;> rfl

/-- `Get` finds nothing when session `id` is not there or has no subscriptions bucket. -/
theorem get_of_bucket_none {id : Bytes} {root : Bucket}
    (h : ∀ sB, (Sessions.sessionsOf root).bucket id = some sB → sB.bucket bucketSubscriptions = none) :
    (get id root).2 = some .errNotFound := by
  unfold get
  cases hses : root.bucket bucketSessions with
  | none => rfl
  | some ses =>
    rw [Sessions.sessionsOf_of_bucket hses] at h
    cases hs : ses.bucket id with
    | none => simp [hs]
    | some sB => simp [hs, h sB hs]

/-- After `Delete`, whatever it returned, there are no subscriptions to read. -/
theorem get_delete (id : Bytes) (root : Bucket) : (get id (delete id root).1).2 = some .errNotFound := by
  rw [delete, Sessions.deleteSessionBucket_eq]
  split
  · exact get_of_bucket_none (by simp_all)
  · next sB hs =>
    split
    · next sB' hd =>
      refine get_of_bucket_none fun c hc => ?_
      obtain rfl : sB' = c := by simpa [Sessions.putSession] using hc
      exact Bucket.bucket_of_deleteBucket hd
    · next e hd =>
      refine get_of_bucket_none fun c hc => ?_
      obtain rfl : sB = c := by simpa [hs] using hc
      exact Bucket.bucket_of_deleteBucket_error hd

/-- Back-to-back `Add`s on a session with no subscriptions, in any store, leave the last write of
every topic; and after `Delete` there is nothing to read. -/
theorem get_adds_of_fresh {id : Bytes} {ms : List (List (Bytes × QosType))} {root : Bucket}
    (hfresh : Fresh id root) (hk : ms ≠ [])
    (hmaps : ∀ m ∈ ms, (m.map Prod.fst).Nodup)
    (htopics : ∀ m ∈ ms, ∀ tq ∈ m, tq.1.length ≤ maxValueSize)
    (hcount : ms.flatten.length < 2 ^ 64) :
    get id (adds id ms root) = (latest ms, none) ∧
      ∀ root', (get id (delete id root').1).2 = some .errNotFound := by
  refine ⟨?_, get_delete id⟩
  obtain ⟨m, ms, rfl⟩ := List.exists_cons_of_ne_nil hk
  simp only [List.flatten_cons, List.length_append] at hcount
  have hfirst := add_holds (.inr ⟨rfl, hfresh⟩) (htopics m (by simp)) (by simp; omega)
  have h := adds_holds hfirst.2 (fun m' (hm' : m' ∈ ms) => htopics m' (by simp [hm']))
    (by simpa using hcount)
  rw [List.nil_append, ← List.flatten_cons] at h
  rw [adds, List.foldl_cons, ← adds, get_of_holds h (by simpa using hcount),
    assignAll_flatten hmaps]

end Subscriptions

end SurgeMQ.Persistence
