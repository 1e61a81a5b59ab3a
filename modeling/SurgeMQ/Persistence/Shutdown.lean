import SurgeMQ.Persistence.Tx

/-!
# Shutdown

Both providers close a `done` channel to shut down, and every public operation starts with a gate,
a `select` that returns `ErrNotOpen` once `done` is closed. This module models the concurrent side:
each call is a thread with a program counter, a run is the list of threads that take a step in
turn, and a step that is not enabled (a finished call, a lock held by another call) makes no run.
An operation of the bolt provider is its gate and then its transaction; a call that only hands out
a handle (`Sessions`, `Retained`, `Subscriptions`, `Messages`, `ID`) is its gate and returns.

The in-memory provider's `Shutdown` is two steps, its `select` and, when that found the channel
open, `close(done)`. Two calls can both pass the `select` before either closes, and the second close
panics (`mem_shutdown_closes_twice`). What does hold in every run is that one call at most returns
nil, the first to close, and that a call returning `ErrNotOpen` or panicking comes after it
(`mem_shutdown_one_nil`).

The bolt provider's `Shutdown` holds `p.lock` from before its `select` to its return, so its check
and its close cannot be split by another `Shutdown`: `done` is closed at most once in every run
(`closes_le_one`, from the invariant `Inv`); no call panics, and only one gets past the close to
`Close` the database (`one_shutdown_closes_db`). It then waits for `wgTx` to reach zero before closing
the database; but no operation ever increments `wgTx`, and an operation that passed its gate before
`close(done)` runs its transaction whenever it is scheduled, after `Close` too
(`tx_runs_after_close`). Those are the only ones: once `done` is closed no operation and no handle
call passes its gate (`no_admission_after_close`).

No interleaving deadlocks it (`calls_return`): from every state a run reaches, some schedule lets any
given calls all run to their end. The call holding `p.lock` always has its next step, each one
lowering its `ShutPc.rank`, and a call waiting for the lock takes it once the holder returns. That
`wgTx.Wait()` never blocks is the other side of `wgTx` never being incremented (`Held`).
-/

namespace SurgeMQ.Persistence

namespace Mem

/-- Where one `Shutdown` call of the in-memory provider is. -/
inductive Pc where
  | start
  | closing
  | returnedNil
  | returnedNotOpen
  | panicked
  deriving DecidableEq, Repr

structure State where
  /-- Whether `status.done` is closed. -/
  done : Bool
  /-- How many `close(status.done)` have run. -/
  closes : Nat
  pc : Nat → Pc

def init : State := ⟨false, 0, fun _ => .start⟩

/-- One step of call `i`: its `select`, which takes `default` while `done` is open, or then its
`close(done)`, which panics on a closed channel. -/
def step (s : State) (i : Nat) : Option State :=
  match s.pc i with
  | .start =>
    some { s with pc := Function.update s.pc i (if s.done then .returnedNotOpen else .closing) }
  | .closing =>
    some { s with done := true, closes := s.closes + 1,
                  pc := Function.update s.pc i (if s.done then .panicked else .returnedNil) }
  | _ => none

def run (s : State) : List Nat → Option State
  | [] => some s
  | i :: is => (step s i).bind (run · is)

/-- Two calls both pass the `select`, then both close: the second close panics. -/
theorem mem_shutdown_closes_twice :
    (run init [0, 1, 0, 1]).map (fun s => (s.closes, s.pc 0, s.pc 1)) =
      some (2, .returnedNil, .panicked) := by
  decide

/-- What every run keeps: `done` is closed exactly when some call has returned nil, no two calls
have, and a call that returned `ErrNotOpen` or panicked found `done` closed. -/
structure Inv (s : State) : Prop where
  done_iff : s.done = true ↔ ∃ j, s.pc j = .returnedNil
  nil_unique : ∀ i j, s.pc i = .returnedNil → s.pc j = .returnedNil → i = j
  found_closed : ∀ i, s.pc i = .returnedNotOpen ∨ s.pc i = .panicked → s.done = true

theorem inv_init : Inv init where
  done_iff := by simp [init]
  nil_unique _ _ h := by simp [init] at h
  found_closed _ h := by simp [init] at h

/-- The `select` moves `i` from `start` to its `close`, or returns `ErrNotOpen` on a closed channel:
no call returns nil. -/
theorem Inv.select {s : State} {i : Nat} (hs : Inv s) (hpc : s.pc i = .start) :
    Inv { s with pc := Function.update s.pc i (if s.done then .returnedNotOpen else .closing) } := by
  have hnil : ∀ j, Function.update s.pc i (if s.done then .returnedNotOpen else .closing) j =
      .returnedNil ↔ s.pc j = .returnedNil := by
    intro j
    by_cases hj : j = i
    · subst hj
      simp only [Function.update_same, hpc]
      split <;> simp
    · rw [Function.update_noteq hj]
  refine ⟨by simpa only [hnil] using hs.done_iff,
    fun a b ha hb => hs.nil_unique a b ((hnil a).mp ha) ((hnil b).mp hb), fun a ha => ?_⟩
  dsimp only at ha ⊢
  by_cases hj : a = i
  · subst hj
    simp only [Function.update_same] at ha
    split at ha <;> simp_all
  · rw [Function.update_noteq hj] at ha
    exact hs.found_closed a ha

/-- `close(done)`: the first call to close returns nil, a later one panics. -/
theorem Inv.close {s : State} {i : Nat} (hs : Inv s) (hpc : s.pc i = .closing) :
    Inv { s with done := true, closes := s.closes + 1,
                 pc := Function.update s.pc i (if s.done then .panicked else .returnedNil) } := by
  refine ⟨?_, fun a b ha hb => ?_, fun _ _ => rfl⟩
  · cases hd : s.done
    · exact iff_of_true rfl ⟨i, by simp⟩
    · obtain ⟨j, hj⟩ := hs.done_iff.mp hd
      have hji : j ≠ i := fun e => by simp [e, hpc] at hj
      exact iff_of_true rfl ⟨j, (Function.update_noteq hji _ _).trans hj⟩
  · dsimp only at ha hb
    by_cases hd : s.done = true
    · -- `i` panics; the call that returned nil is another one, still the only one
      simp only [hd, if_true] at ha hb
      have hne : ∀ j, Function.update s.pc i .panicked j = .returnedNil → j ≠ i := by
        rintro j h rfl
        simp at h
      exact hs.nil_unique a b ((Function.update_noteq (hne a ha) _ _).symm.trans ha)
        ((Function.update_noteq (hne b hb) _ _).symm.trans hb)
    · -- `i` is the first to close: no other call has returned nil
      simp only [hd, if_false] at ha hb
      have hi : ∀ j, Function.update s.pc i .returnedNil j = .returnedNil → j = i := fun j h => by
        by_contra hj
        exact hd (hs.done_iff.mpr ⟨j, (Function.update_noteq hj _ _).symm.trans h⟩)
      exact (hi a ha).trans (hi b hb).symm

theorem inv_step {s s' : State} {i : Nat} (hs : Inv s) (h : step s i = some s') : Inv s' := by
  unfold step at h
  split at h
  · cases h
    exact hs.select ‹_›
  · cases h
    exact hs.close ‹_›
  · cases h

theorem inv_run {s s' : State} : ∀ {is : List Nat}, Inv s → run s is = some s' → Inv s'
  | [], hs, h => by cases h; exact hs
  | _ :: _, hs, h => by
    simp only [run, Option.bind_eq_some] at h
    obtain ⟨s₁, h₁, h₂⟩ := h
    exact inv_run (inv_step hs h₁) h₂

/-- **At most one `Shutdown` of the in-memory provider returns nil.** In every interleaving of any
number of calls, `done` is closed exactly when a call has returned nil, no two calls do, and a call
that returned `ErrNotOpen` or panicked did so after another had returned nil: the panic of
`mem_shutdown_closes_twice` is always a second close. -/
theorem mem_shutdown_one_nil {is : List Nat} {s : State} (h : run init is = some s) :
    (s.done = true ↔ ∃ j, s.pc j = .returnedNil) ∧
      (∀ i j, s.pc i = .returnedNil → s.pc j = .returnedNil → i = j) ∧
      ∀ i, s.pc i = .returnedNotOpen ∨ s.pc i = .panicked → ∃ j, j ≠ i ∧ s.pc j = .returnedNil := by
  have hs := inv_run inv_init h
  refine ⟨hs.done_iff, hs.nil_unique, fun i hi => ?_⟩
  obtain ⟨j, hj⟩ := hs.done_iff.mp (hs.found_closed i hi)
  exact ⟨j, by rintro rfl; rcases hi with hi | hi <;> simp [hi] at hj, hj⟩

theorem mem_shutdown_one_nil_race :
    ∃ s, run init [0, 1, 0, 1] = some s ∧ (s.done = true ↔ ∃ j, s.pc j = .returnedNil) ∧
      (∀ i j, s.pc i = .returnedNil → s.pc j = .returnedNil → i = j) ∧
      ∀ i, s.pc i = .returnedNotOpen ∨ s.pc i = .panicked → ∃ j, j ≠ i ∧ s.pc j = .returnedNil := by
  obtain ⟨s, hs⟩ := Option.isSome_iff_exists.mp (by decide : (run init [0, 1, 0, 1]).isSome)
  exact ⟨s, hs, mem_shutdown_one_nil hs⟩

end Mem

namespace Gate

/-- Where one public operation of the bolt provider is: before its gate, past it, or done. -/
inductive OpPc where
  | start
  | admitted
  /-- Its transaction ran on the open database. -/
  | committed
  | notOpen
  /-- Its transaction step ran once `Close` had begun: on the closed database it gets
  `ErrDatabaseNotOpen`, on `p.db.db = nil` it panics. -/
  | afterClose
  deriving DecidableEq, Repr

/-- Where one call that only returns a handle is (`impl.Sessions`, `impl.Retained`,
`session.Subscriptions`, `Messages`, `ID`): before its gate, or returned, with the handle or with
`ErrNotOpen`. It runs no transaction. -/
inductive HandlePc where
  | start
  | handed
  | notOpen
  deriving DecidableEq, Repr

/-- Where one call of the bolt provider's `Shutdown` is. -/
inductive ShutPc where
  | start
  | locked
  | closing
  | waiting
  | closingDb
  | clearing
  | returned
  | notOpen
  | panicked
  deriving DecidableEq, Repr

/-- The database handle `p.db.db`: open, closed by `Close`, or set to nil. -/
inductive Db where
  | opened
  | closed
  | cleared
  deriving DecidableEq, Repr

structure State where
  done : Bool
  /-- `p.wgTx`'s counter. -/
  wgTx : Nat
  /-- The `Shutdown` call holding `p.lock`. -/
  lock : Option Nat
  db : Db
  /-- How many `close(p.db.done)` have run. -/
  closes : Nat
  op : Nat → OpPc
  handle : Nat → HandlePc
  shut : Nat → ShutPc

def init : State := ⟨false, 0, none, .opened, 0, fun _ => .start, fun _ => .start, fun _ => .start⟩

/-- A step of an operation that runs a transaction, of a call that returns a handle, or of a
`Shutdown` call. -/
inductive Event where
  | op (i : Nat)
  | handle (i : Nat)
  | shutdown (j : Nat)
  deriving DecidableEq, Repr

/-- One step of operation `i`: its gate, then its transaction on `p.db.db`. No step touches
`wgTx`: the code never calls `wgTx.Add`. -/
def stepOp (s : State) (i : Nat) : Option State :=
  match s.op i with
  | .start => some { s with op := Function.update s.op i (if s.done then .notOpen else .admitted) }
  | .admitted =>
    some { s with op := Function.update s.op i (if s.db = .opened then .committed else .afterClose) }
  | _ => none

/-- The one step of handle call `i`, its gate. -/
def stepHandle (s : State) (i : Nat) : Option State :=
  match s.handle i with
  | .start => some { s with handle := Function.update s.handle i (if s.done then .notOpen else .handed) }
  | _ => none

/-- One step of `Shutdown` call `j`: take `p.lock`; its `select`, returning `ErrNotOpen` and
unlocking when `done` is closed; `close(done)`; `wgTx.Wait()`; `Close()`; set `p.db.db` to nil and
return, unlocking. -/
def stepShutdown (s : State) (j : Nat) : Option State :=
  match s.shut j with
  | .start =>
    if s.lock = none then some { s with lock := some j, shut := Function.update s.shut j .locked }
    else none
  | .locked =>
    if s.done then some { s with lock := none, shut := Function.update s.shut j .notOpen }
    else some { s with shut := Function.update s.shut j .closing }
  | .closing =>
    some { s with done := true, closes := s.closes + 1,
                  shut := Function.update s.shut j (if s.done then .panicked else .waiting) }
  | .waiting =>
    if s.wgTx = 0 then some { s with shut := Function.update s.shut j .closingDb } else none
  | .closingDb => some { s with db := .closed, shut := Function.update s.shut j .clearing }
  | .clearing =>
    some { s with db := .cleared, lock := none, shut := Function.update s.shut j .returned }
  | _ => none

def step (s : State) : Event → Option State
  | .op i => stepOp s i
  | .handle i => stepHandle s i
  | .shutdown j => stepShutdown s j

def run (s : State) : List Event → Option State
  | [] => some s
  | e :: es => (step s e).bind (run · es)

/-- An operation passes its gate, `Shutdown` closes `done`, finds `wgTx` at zero and closes the
database, and the operation's transaction then runs on the closed database. -/
theorem tx_runs_after_close :
    (run init [.op 0, .shutdown 0, .shutdown 0, .shutdown 0, .shutdown 0, .shutdown 0, .op 0]).map
      (fun s => (s.done, s.wgTx, s.db, s.op 0)) = some (true, 0, .closed, .afterClose) := by
  decide

/-- A handle call's step moves only that call. -/
theorem stepHandle_eq {s s' : State} {i : Nat} (h : stepHandle s i = some s') :
    s.handle i = .start ∧
      s' = { s with handle := Function.update s.handle i (if s.done then .notOpen else .handed) } := by
  unfold stepHandle at h
  split at h <;> cases h
  exact ⟨‹_›, rfl⟩

/-- A `Shutdown` step moves only its own call. -/
theorem stepShutdown_shut {s s' : State} {j j' : Nat} (h : stepShutdown s j = some s')
    (hj : j' ≠ j) : s'.shut j' = s.shut j' := by
  unfold stepShutdown at h
  split at h <;> (try split at h) <;> cases h <;> simp [hj]

/-! ### The locked `Shutdown` closes `done` once -/

/-- The part of `Shutdown` that runs under `p.lock`. -/
def ShutPc.holdsLock : ShutPc → Bool
  | .locked | .closing | .waiting | .closingDb | .clearing => true
  | _ => false

/-- Every call between its lock and its return holds the lock; one about to close `done` found it
open; and `done` has been closed exactly as many times as it is closed. -/
structure Inv (s : State) : Prop where
  holder : ∀ j, (s.shut j).holdsLock → s.lock = some j
  closing_open : ∀ j, s.shut j = .closing → s.done = false
  closes_done : s.closes = if s.done then 1 else 0

theorem inv_init : Inv init :=
  ⟨fun _ h => by simp [init, ShutPc.holdsLock] at h, fun _ h => by simp [init] at h, rfl⟩

theorem inv_stepOp {s s' : State} {i : Nat} (hs : Inv s) (h : stepOp s i = some s') : Inv s' := by
  unfold stepOp at h
  split at h <;> cases h <;> exact ⟨hs.holder, hs.closing_open, hs.closes_done⟩

/-- A step of call `j` keeps the invariant when the lock goes with the calls that hold it, `done`
changes only under the lock, and `closes` follows `done`. -/
theorem Inv.of_step {s s' : State} (hs : Inv s) {j : Nat}
    (hshut : ∀ j', j' ≠ j → s'.shut j' = s.shut j')
    (hlock : (s'.shut j).holdsLock → s'.lock = some j)
    (hothers : ∀ j', j' ≠ j → (s.shut j').holdsLock → s'.lock = some j')
    (hclosing : s'.shut j = .closing → s'.done = false)
    (hdone : s'.done = s.done ∨ (s'.shut j).holdsLock)
    (hc : s'.closes = if s'.done then 1 else 0) : Inv s' := by
  refine ⟨fun j' h' => ?_, fun j' h' => ?_, hc⟩
  · by_cases hj : j' = j
    · exact hj ▸ hlock (hj ▸ h')
    · exact hothers j' hj (hshut j' hj ▸ h')
  · by_cases hj : j' = j
    · exact hclosing (hj ▸ h')
    · have hold : s.shut j' = .closing := hshut j' hj ▸ h'
      rcases hdone with hd | hd
      · exact hd ▸ hs.closing_open j' hold
      · have h₁ := hothers j' hj (by simp [hold, ShutPc.holdsLock])
        exact absurd (Option.some.inj ((hlock hd).symm.trans h₁)) (Ne.symm hj)

/-- A step of the call `j` that holds the lock: no other call holds it, so only `j`'s own part of
the invariant can change. -/
theorem Inv.of_holder_step {s s' : State} (hs : Inv s) {j : Nat} (hpc : (s.shut j).holdsLock)
    (hshut : ∀ j', j' ≠ j → s'.shut j' = s.shut j')
    (hlock : (s'.shut j).holdsLock → s'.lock = s.lock)
    (hclosing : s'.shut j = .closing → s'.done = false)
    (hdone : s'.done = s.done ∨ (s'.shut j).holdsLock)
    (hc : s'.closes = if s'.done then 1 else 0) : Inv s' :=
  hs.of_step hshut (fun h => (hlock h).trans (hs.holder j hpc))
    (fun j' hj h' => absurd (Option.some.inj ((hs.holder j' h').symm.trans (hs.holder j hpc))) hj)
    hclosing hdone hc

theorem inv_stepShutdown {s s' : State} {j : Nat} (hs : Inv s) (h : stepShutdown s j = some s') :
    Inv s' := by
  have hshut : ∀ j', j' ≠ j → s'.shut j' = s.shut j' := fun _ => stepShutdown_shut h
  unfold stepShutdown at h
  split at h
  · -- `start`: take the lock when it is free
    split at h <;> cases h
    refine hs.of_step hshut (by simp) (fun j' _ h' => ?_) (by simp) (.inl rfl) hs.closes_done
    simp [hs.holder j' h'] at ‹s.lock = none›
  · -- `locked`: the `select`
    rename_i hpc
    have hheld : (s.shut j).holdsLock := by simp [hpc, ShutPc.holdsLock]
    split at h <;> cases h
    · exact hs.of_holder_step hheld hshut (by simp [ShutPc.holdsLock]) (by simp) (.inl rfl)
        hs.closes_done
    · exact hs.of_holder_step hheld hshut (fun _ => rfl) (fun _ => by simpa using ‹¬s.done = true›)
        (.inl rfl) hs.closes_done
  · -- `closing`: `close(done)`, which the invariant says is open
    rename_i hpc
    have hopen := hs.closing_open j hpc
    cases h
    exact hs.of_holder_step (by simp [hpc, ShutPc.holdsLock]) hshut (fun _ => rfl) (by simp [hopen])
      (.inr (by simp [hopen, ShutPc.holdsLock])) (by simp [hs.closes_done, hopen])
  · -- `waiting`
    rename_i hpc
    split at h <;> cases h
    exact hs.of_holder_step (by simp [hpc, ShutPc.holdsLock]) hshut (fun _ => rfl) (by simp)
      (.inl rfl) hs.closes_done
  · -- `closingDb`
    rename_i hpc
    cases h
    exact hs.of_holder_step (by simp [hpc, ShutPc.holdsLock]) hshut (fun _ => rfl) (by simp)
      (.inl rfl) hs.closes_done
  · -- `clearing`: unlock and return
    rename_i hpc
    cases h
    exact hs.of_holder_step (by simp [hpc, ShutPc.holdsLock]) hshut (by simp [ShutPc.holdsLock])
      (by simp) (.inl rfl) hs.closes_done
  · cases h

/-- What every step keeps, every run keeps. -/
theorem run_preserves {P : State → Prop}
    (hstep : ∀ {s s' : State} {e : Event}, P s → step s e = some s' → P s') :
    ∀ {es : List Event} {s s' : State}, P s → run s es = some s' → P s'
  | [], _, _, hs, h => by cases h; exact hs
  | _ :: _, _, _, hs, h => by
    simp only [run, Option.bind_eq_some] at h
    obtain ⟨s₁, h₁, h₂⟩ := h
    exact run_preserves hstep (hstep hs h₁) h₂

theorem inv_step {s s' : State} {e : Event} (hs : Inv s) (h : step s e = some s') : Inv s' := by
  cases e with
  | op i => exact inv_stepOp hs h
  | handle i =>
    obtain ⟨-, rfl⟩ := stepHandle_eq h
    exact ⟨hs.holder, hs.closing_open, hs.closes_done⟩
  | shutdown j => exact inv_stepShutdown hs h

/-- **The locked `Shutdown` closes `done` at most once**, in every interleaving of any number of
operations, handle calls and `Shutdown` calls. -/
theorem closes_le_one {es : List Event} {s : State} (h : run init es = some s) : s.closes ≤ 1 := by
  have := (run_preserves inv_step inv_init h).closes_done
  split at this <;> omega

theorem closes_le_one_two_shutdowns :
    ∃ s, run init [.op 0, .shutdown 0, .shutdown 0, .op 1, .shutdown 0, .shutdown 0, .shutdown 0,
      .shutdown 0, .shutdown 1, .shutdown 1, .op 0, .op 1] = some s ∧ s.closes ≤ 1 := by
  obtain ⟨s, hs⟩ := Option.isSome_iff_exists.mp (by decide : (run init [.op 0, .shutdown 0,
    .shutdown 0, .op 1, .shutdown 0, .shutdown 0, .shutdown 0, .shutdown 0, .shutdown 1, .shutdown 1,
    .op 0, .op 1]).isSome)
  exact ⟨s, hs, closes_le_one hs⟩

/-! ### One `Shutdown` call closes the database -/

/-- Past `close(done)`: waiting for the transactions, closing the database, or returned. -/
def ShutPc.pastClose : ShutPc → Bool
  | .waiting | .closingDb | .clearing | .returned => true
  | _ => false

/-- At most one call is past `close(done)`, `done` is closed once one is, and no call has panicked
on a second close. -/
structure OneCloser (s : State) : Prop where
  done_of_past : ∀ j, (s.shut j).pastClose → s.done = true
  unique : ∀ j j', (s.shut j).pastClose → (s.shut j').pastClose → j = j'
  no_panic : ∀ j, s.shut j ≠ .panicked

theorem oneCloser_init : OneCloser init :=
  ⟨fun _ h => by simp [init, ShutPc.pastClose] at h, fun _ _ h => by simp [init, ShutPc.pastClose] at h,
    fun _ => by simp [init]⟩

theorem oneCloser_stepOp {s s' : State} {i : Nat} (hs : OneCloser s) (h : stepOp s i = some s') :
    OneCloser s' := by
  unfold stepOp at h
  split at h <;> cases h <;> exact ⟨hs.done_of_past, hs.unique, hs.no_panic⟩

/-- A step of call `j` that leaves `done`, does not panic, and keeps `j` past `close(done)` only if
it was. -/
theorem OneCloser.of_step {s s' : State} (hs : OneCloser s) {j : Nat}
    (hshut : ∀ j', j' ≠ j → s'.shut j' = s.shut j')
    (hpast : (s'.shut j).pastClose → (s.shut j).pastClose) (hpanic : s'.shut j ≠ .panicked)
    (hdone : s'.done = s.done) : OneCloser s' := by
  have hp : ∀ j', (s'.shut j').pastClose → (s.shut j').pastClose := fun j' h' => by
    by_cases hj : j' = j
    · subst hj; exact hpast h'
    · rwa [hshut j' hj] at h'
  refine ⟨fun j' h' => hdone ▸ hs.done_of_past j' (hp j' h'),
    fun j₁ j₂ h₁ h₂ => hs.unique j₁ j₂ (hp j₁ h₁) (hp j₂ h₂), fun j' => ?_⟩
  by_cases hj : j' = j
  · exact hj ▸ hpanic
  · rw [hshut j' hj]; exact hs.no_panic j'

theorem oneCloser_stepShutdown {s s' : State} {j : Nat} (hi : Inv s) (hs : OneCloser s)
    (h : stepShutdown s j = some s') : OneCloser s' := by
  have hshut : ∀ j', j' ≠ j → s'.shut j' = s.shut j' := fun _ => stepShutdown_shut h
  unfold stepShutdown at h
  split at h
  · split at h <;> cases h
    exact hs.of_step hshut (by simp [ShutPc.pastClose]) (by simp) rfl
  · split at h <;> cases h <;> exact hs.of_step hshut (by simp [ShutPc.pastClose]) (by simp) rfl
  · -- `close(done)`, on a `done` the lock invariant says is open, so no other call is past it
    rename_i hpc
    have hopen := hi.closing_open j hpc
    have honly : ∀ j', (s'.shut j').pastClose → j' = j := fun j' h' => by
      by_contra hj
      rw [hshut j' hj] at h'
      simp [hs.done_of_past j' h'] at hopen
    cases h
    refine ⟨fun _ _ => rfl, fun j₁ j₂ h₁ h₂ => (honly j₁ h₁).trans (honly j₂ h₂).symm, fun j' => ?_⟩
    by_cases e : j' = j
    · subst e; simp [hopen]
    · exact (hshut j' e).trans_ne (hs.no_panic j')
  · -- the steps after `close(done)` keep the call past it
    rename_i hpc
    split at h <;> cases h
    exact hs.of_step hshut (fun _ => by simp [hpc, ShutPc.pastClose]) (by simp) rfl
  · rename_i hpc
    cases h
    exact hs.of_step hshut (fun _ => by simp [hpc, ShutPc.pastClose]) (by simp) rfl
  · rename_i hpc
    cases h
    exact hs.of_step hshut (fun _ => by simp [hpc, ShutPc.pastClose]) (by simp) rfl
  · cases h

theorem oneCloser_step {s s' : State} {e : Event} (hs : Inv s ∧ OneCloser s)
    (h : step s e = some s') : Inv s' ∧ OneCloser s' := by
  refine ⟨inv_step hs.1 h, ?_⟩
  cases e with
  | op i => exact oneCloser_stepOp hs.2 h
  | handle i =>
    obtain ⟨-, rfl⟩ := stepHandle_eq h
    exact ⟨hs.2.done_of_past, hs.2.unique, hs.2.no_panic⟩
  | shutdown j => exact oneCloser_stepShutdown hs.1 hs.2 h

/-- **One `Shutdown` call closes the database.** In every interleaving of any number of operations,
handle calls and `Shutdown` calls, no call panics, and at most one call gets past `close(done)` to
wait, `Close` the database and return its result; every other call that returns has found `done`
closed and returns `ErrNotOpen`. -/
theorem one_shutdown_closes_db {es : List Event} {s : State} (h : run init es = some s) :
    (∀ j, s.shut j ≠ .panicked) ∧ ∀ j j', (s.shut j).pastClose → (s.shut j').pastClose → j = j' :=
  have hs := (run_preserves oneCloser_step ⟨inv_init, oneCloser_init⟩ h).2
  ⟨hs.no_panic, hs.unique⟩

theorem one_shutdown_closes_db_two_calls :
    ∃ s, run init [.op 0, .shutdown 0, .shutdown 0, .op 1, .shutdown 0, .shutdown 0, .shutdown 0,
      .shutdown 0, .shutdown 1, .shutdown 1, .op 0, .op 1] = some s ∧
      ((∀ j, s.shut j ≠ .panicked) ∧ ∀ j j', (s.shut j).pastClose → (s.shut j').pastClose → j = j') := by
  obtain ⟨s, hs⟩ := Option.isSome_iff_exists.mp (by decide : (run init [.op 0, .shutdown 0,
    .shutdown 0, .op 1, .shutdown 0, .shutdown 0, .shutdown 0, .shutdown 0, .shutdown 1, .shutdown 1,
    .op 0, .op 1]).isSome)
  exact ⟨s, hs, one_shutdown_closes_db hs⟩

/-! ### No interleaving deadlocks -/

/-- An operation that has returned: `ErrNotOpen` from its gate, or past its transaction. -/
def OpPc.finished : OpPc → Bool
  | .committed | .notOpen | .afterClose => true
  | _ => false

/-- A handle call that has returned, with its handle or with `ErrNotOpen`. -/
def HandlePc.finished : HandlePc → Bool
  | .handed | .notOpen => true
  | .start => false

/-- A `Shutdown` call that has returned, with `Close`'s result or with `ErrNotOpen`. -/
def ShutPc.finished : ShutPc → Bool
  | .returned | .notOpen => true
  | _ => false

/-- The steps the lock holder has left at most before it returns. -/
def ShutPc.rank : ShutPc → Nat
  | .locked => 5
  | .closing => 4
  | .waiting => 3
  | .closingDb => 2
  | .clearing => 1
  | _ => 0

/-- `p.lock` is held only by a call between its lock and its return, and no operation has added
itself to `wgTx`. -/
structure Held (s : State) : Prop where
  lock_held : ∀ k, s.lock = some k → (s.shut k).holdsLock
  wgTx_zero : s.wgTx = 0

theorem held_init : Held init :=
  ⟨fun _ h => Option.noConfusion h, rfl⟩

theorem held_stepOp {s s' : State} {i : Nat} (hs : Held s) (h : stepOp s i = some s') : Held s' := by
  unfold stepOp at h
  split at h <;> cases h <;> exact ⟨hs.lock_held, hs.wgTx_zero⟩

/-- A step of call `j` keeps `Held` when the lock it leaves to another call was that call's already,
and `j` holds the lock only in its locked part. -/
theorem Held.of_step {s s' : State} (hs : Held s) {j : Nat}
    (hshut : ∀ j', j' ≠ j → s'.shut j' = s.shut j')
    (hlock : ∀ k, k ≠ j → s'.lock = some k → s.lock = some k)
    (hown : s'.lock = some j → (s'.shut j).holdsLock) (hw : s'.wgTx = s.wgTx) : Held s' := by
  refine ⟨fun k hk => ?_, hw.trans hs.wgTx_zero⟩
  by_cases e : k = j
  · exact e ▸ hown (e ▸ hk)
  · rw [hshut k e]
    exact hs.lock_held k (hlock k e hk)

theorem held_stepShutdown {s s' : State} {j : Nat} (hi : Inv s) (hs : Held s)
    (h : stepShutdown s j = some s') : Held s' := by
  have hshut : ∀ j', j' ≠ j → s'.shut j' = s.shut j' := fun _ => stepShutdown_shut h
  unfold stepShutdown at h
  split at h
  · split at h <;> cases h
    exact hs.of_step hshut (fun k hk h' => absurd (Option.some.inj h').symm hk)
      (fun _ => by simp [ShutPc.holdsLock]) rfl
  · split at h <;> cases h
    · exact hs.of_step hshut (fun _ _ h' => by cases h') (fun h' => by cases h') rfl
    · exact hs.of_step hshut (fun _ _ => id) (fun _ => by simp [ShutPc.holdsLock]) rfl
  · rename_i hpc
    cases h
    exact hs.of_step hshut (fun _ _ => id)
      (fun _ => by simp [hi.closing_open j hpc, ShutPc.holdsLock]) rfl
  · split at h <;> cases h
    exact hs.of_step hshut (fun _ _ => id) (fun _ => by simp [ShutPc.holdsLock]) rfl
  · cases h
    exact hs.of_step hshut (fun _ _ => id) (fun _ => by simp [ShutPc.holdsLock]) rfl
  · cases h
    exact hs.of_step hshut (fun _ _ h' => by cases h') (fun h' => by cases h') rfl
  · cases h

theorem held_step {s s' : State} {e : Event} (hs : Inv s ∧ Held s) (h : step s e = some s') :
    Inv s' ∧ Held s' := by
  refine ⟨inv_step hs.1 h, ?_⟩
  cases e with
  | op i => exact held_stepOp hs.2 h
  | handle i =>
    obtain ⟨-, rfl⟩ := stepHandle_eq h
    exact ⟨hs.2.lock_held, hs.2.wgTx_zero⟩
  | shutdown j => exact held_stepShutdown hs.1 hs.2 h

theorem ShutPc.rank_pos {p : ShutPc} (h : p.holdsLock) : 0 < p.rank := by
  cases p <;> simp [ShutPc.holdsLock, ShutPc.rank] at h ⊢

theorem ShutPc.rank_le (p : ShutPc) : p.rank ≤ 5 := by
  cases p <;> simp [ShutPc.rank]

/-- The call that holds the lock can always take its next step: it stays in its locked part, one
step nearer its return, or returns and unlocks. -/
theorem holder_step {s : State} {k : Nat} (hi : Inv s) (hh : Held s) (hpc : (s.shut k).holdsLock) :
    ∃ s', stepShutdown s k = some s' ∧
      ((s'.shut k).holdsLock ∧ (s'.shut k).rank < (s.shut k).rank ∨
        (s'.shut k).finished ∧ s'.lock = none) := by
  cases h : s.shut k with
  | locked =>
    cases hd : s.done <;>
      simp [stepShutdown, h, hd, ShutPc.holdsLock, ShutPc.rank, ShutPc.finished]
  | closing => simp [stepShutdown, h, hi.closing_open k h, ShutPc.holdsLock, ShutPc.rank]
  | waiting => simp [stepShutdown, h, hh.wgTx_zero, ShutPc.holdsLock, ShutPc.rank]
  | closingDb => simp [stepShutdown, h, ShutPc.holdsLock, ShutPc.rank]
  | clearing => simp [stepShutdown, h, ShutPc.finished]
  | _ => simp [h, ShutPc.holdsLock] at hpc

theorem run_append (s : State) (es es' : List Event) :
    run s (es ++ es') = (run s es).bind (run · es') := by
  induction es generalizing s with
  | nil => rfl
  | cons e es ih => simp only [List.cons_append, run, List.append_eq, ih, Option.bind_assoc]

/-- The lock holder runs to its return and unlocks, moving no other `Shutdown` call. -/
theorem holder_returns {k : Nat} :
    ∀ (n : Nat) {s : State}, (s.shut k).rank ≤ n → Inv s → Held s → (s.shut k).holdsLock →
      ∃ es s', run s es = some s' ∧ (s'.shut k).finished ∧ s'.lock = none ∧
        ∀ j, j ≠ k → s'.shut j = s.shut j
  | 0, _, hr, _, _, hpc => absurd hr (Nat.not_le.mpr (ShutPc.rank_pos hpc))
  | n + 1, _, hr, hi, hh, hpc => by
    obtain ⟨s₁, h₁, ⟨hpc₁, hr₁⟩ | ⟨hfin, hlock⟩⟩ := holder_step hi hh hpc
    · obtain ⟨es, s', hrun, hfin, hlock, hsh⟩ := holder_returns n (by omega)
        (inv_stepShutdown hi h₁) (held_stepShutdown hi hh h₁) hpc₁
      exact ⟨.shutdown k :: es, s', by simp [run, step, h₁, hrun], hfin, hlock,
        fun j hj => (hsh j hj).trans (stepShutdown_shut h₁ hj)⟩
    · exact ⟨[.shutdown k], s₁, by simp [run, step, h₁], hfin, hlock,
        fun j hj => stepShutdown_shut h₁ hj⟩

/-- Call `c` has run to its end in `s`: a `Shutdown` call or a handle call has returned, an
operation has returned `ErrNotOpen` from its gate or run its transaction. -/
def Finished (s : State) : Event → Bool
  | .op i => (s.op i).finished
  | .handle i => (s.handle i).finished
  | .shutdown j => (s.shut j).finished

theorem stepOp_eq {s s' : State} {i : Nat} (h : stepOp s i = some s') :
    (s.op i).finished = false ∧ ∃ p, s' = { s with op := Function.update s.op i p } := by
  unfold stepOp at h
  split at h <;> cases h <;> simp_all [OpPc.finished]

/-- A `Shutdown` step moves no operation and no handle call. -/
theorem stepShutdown_op {s s' : State} {j : Nat} (h : stepShutdown s j = some s') :
    s'.op = s.op ∧ s'.handle = s.handle := by
  unfold stepShutdown at h
  split at h <;> (try split at h) <;> cases h <;> exact ⟨rfl, rfl⟩

theorem stepShutdown_unfinished {s s' : State} {j : Nat} (h : stepShutdown s j = some s') :
    (s.shut j).finished = false := by
  cases hpc : s.shut j <;> simp_all [stepShutdown, ShutPc.finished]

/-- A call that has finished takes no further step, and no other call's step moves it. -/
theorem finished_step {s s' : State} {e c : Event} (hc : Finished s c) (h : step s e = some s') :
    Finished s' c := by
  cases e with
  | op i =>
    obtain ⟨hnf, p, rfl⟩ := stepOp_eq h
    cases c with
    | op i' =>
      by_cases e : i' = i
      · subst e
        simp [Finished, hnf] at hc
      · simpa [Finished, Function.update_noteq e] using hc
    | handle _ | shutdown _ => exact hc
  | handle i =>
    obtain ⟨hst, rfl⟩ := stepHandle_eq h
    cases c with
    | handle i' =>
      by_cases e : i' = i
      · subst e
        simp [Finished, hst, HandlePc.finished] at hc
      · simpa [Finished, Function.update_noteq e] using hc
    | op _ | shutdown _ => exact hc
  | shutdown j =>
    cases c with
    | op i' => simpa [Finished, (stepShutdown_op h).1] using hc
    | handle i' => simpa [Finished, (stepShutdown_op h).2] using hc
    | shutdown j' =>
      by_cases e : j' = j
      · subst e
        simp [Finished, stepShutdown_unfinished h] at hc
      · simpa [Finished, stepShutdown_shut h e] using hc

/-- An operation never waits: at most its gate and its transaction are left. -/
theorem op_returns (s : State) (i : Nat) :
    ∃ es s', run s es = some s' ∧ Finished s' (.op i) := by
  have hadmitted : ∀ s : State, s.op i = .admitted →
      ∃ es s', run s es = some s' ∧ Finished s' (.op i) := fun s h =>
    ⟨[.op i], _, by simp only [run, step, stepOp, h]; rfl, by split <;> simp [Finished, OpPc.finished]⟩
  cases h : s.op i with
  | start =>
    cases hd : s.done
    · have h₁ : stepOp s i = some { s with op := Function.update s.op i .admitted } := by
        simp [stepOp, h, hd]
      obtain ⟨es, s', hrun, hf⟩ :=
        hadmitted { s with op := Function.update s.op i .admitted } (Function.update_same _ _ _)
      exact ⟨.op i :: es, s', by simp [run, step, h₁, hrun], hf⟩
    · exact ⟨[.op i], _, by simp only [run, step, stepOp, h, hd]; rfl, by simp [Finished, OpPc.finished]⟩
  | admitted => exact hadmitted s h
  | committed | notOpen | afterClose => exact ⟨[], s, rfl, by simp [Finished, h, OpPc.finished]⟩

/-- A handle call never waits: its gate is all it has. -/
theorem handle_returns (s : State) (i : Nat) :
    ∃ es s', run s es = some s' ∧ Finished s' (.handle i) := by
  cases h : s.handle i with
  | start =>
    exact ⟨[.handle i], _, by simp only [run, step, stepHandle, h]; rfl,
      by split <;> simp [Finished, HandlePc.finished]⟩
  | handed | notOpen => exact ⟨[], s, rfl, by simp [Finished, h, HandlePc.finished]⟩

/-- A call yet to take the lock, with the lock free, takes it and runs to its return. -/
theorem start_returns {s : State} {j : Nat} (hi : Inv s) (hh : Held s) (hl : s.lock = none)
    (hj : s.shut j = .start) : ∃ es s', run s es = some s' ∧ Finished s' (.shutdown j) := by
  have h₁ : stepShutdown s j =
      some { s with lock := some j, shut := Function.update s.shut j .locked } := by
    simp [stepShutdown, hj, hl]
  obtain ⟨es, s', hrun, hfin, -⟩ := holder_returns (k := j) 5 (ShutPc.rank_le _) (inv_stepShutdown hi h₁)
    (held_stepShutdown hi hh h₁) (by simp [ShutPc.holdsLock])
  exact ⟨.shutdown j :: es, s', by simp [run, step, h₁, hrun], hfin⟩

/-- Every `Shutdown` call can return: the holder runs to its return, then a call waiting for the
lock takes it. -/
theorem shut_returns {s : State} (hi : Inv s) (ho : OneCloser s) (hh : Held s) (j : Nat) :
    ∃ es s', run s es = some s' ∧ Finished s' (.shutdown j) := by
  by_cases hpc : (s.shut j).holdsLock
  · obtain ⟨es, s', hrun, hfin, -⟩ := holder_returns 5 (ShutPc.rank_le _) hi hh hpc
    exact ⟨es, s', hrun, hfin⟩
  cases hj : s.shut j with
  | start =>
    cases hl : s.lock with
    | none => exact start_returns hi hh hl hj
    | some k =>
      -- the holder `k` returns first, and leaves `j` where it was
      have hk : j ≠ k := by
        rintro rfl
        simpa [hj, ShutPc.holdsLock] using hh.lock_held j hl
      obtain ⟨es₁, s₁, h₁, -, hl₁, hsh⟩ :=
        holder_returns 5 (ShutPc.rank_le _) hi hh (hh.lock_held k hl)
      have hs₁ := run_preserves held_step ⟨hi, hh⟩ h₁
      obtain ⟨es₂, s₂, h₂, hfin⟩ := start_returns hs₁.1 hs₁.2 hl₁ ((hsh j hk).trans hj)
      exact ⟨es₁ ++ es₂, s₂, by rw [run_append, h₁, Option.some_bind]; exact h₂, hfin⟩
  | returned | notOpen => exact ⟨[], s, rfl, by simp [Finished, hj, ShutPc.finished]⟩
  | panicked => exact absurd hj (ho.no_panic j)
  | locked | closing | waiting | closingDb | clearing => simp [hj, ShutPc.holdsLock] at hpc

theorem good_step {s s' : State} {e : Event} (hs : (Inv s ∧ OneCloser s) ∧ Held s)
    (h : step s e = some s') : (Inv s' ∧ OneCloser s') ∧ Held s' :=
  ⟨oneCloser_step hs.1 h, (held_step ⟨hs.1.1, hs.2⟩ h).2⟩

theorem calls_return_from {s : State} (hs : (Inv s ∧ OneCloser s) ∧ Held s) :
    ∀ cs : List Event, ∃ es s', run s es = some s' ∧ ∀ c ∈ cs, Finished s' c
  | [] => ⟨[], s, rfl, by simp⟩
  | c :: cs => by
    obtain ⟨es₁, s₁, h₁, hc⟩ : ∃ es s', run s es = some s' ∧ Finished s' c := by
      cases c with
      | op i => exact op_returns s i
      | handle i => exact handle_returns s i
      | shutdown j => exact shut_returns hs.1.1 hs.1.2 hs.2 j
    have hs₁ := run_preserves good_step hs h₁
    obtain ⟨es₂, s₂, h₂, hcs⟩ := calls_return_from hs₁ cs
    exact ⟨es₁ ++ es₂, s₂, by rw [run_append, h₁, Option.some_bind]; exact h₂,
      List.forall_mem_cons.mpr ⟨run_preserves finished_step hc h₂, hcs⟩⟩

/-- **No interleaving deadlocks the bolt provider.** From every state a run of any number of
operations, handle calls and `Shutdown` calls reaches, some schedule lets any given calls all run to
their end: an operation or a handle call never waits, the call holding `p.lock` always has its next step (`wgTx` stays at zero,
since no operation adds to it), and a call waiting for the lock takes it once the holder returns. -/
theorem calls_return {es : List Event} {s : State} (h : run init es = some s) (cs : List Event) :
    ∃ es' s', run s es' = some s' ∧ ∀ c ∈ cs, Finished s' c :=
  calls_return_from (run_preserves good_step ⟨⟨inv_init, oneCloser_init⟩, held_init⟩ h) cs

theorem calls_return_lock_held :
    ∃ s, run init [.op 0, .shutdown 0] = some s ∧
      ∃ es' s', run s es' = some s' ∧ ∀ c ∈ [Event.op 0, .shutdown 0, .shutdown 1], Finished s' c := by
  obtain ⟨s, hs⟩ := Option.isSome_iff_exists.mp (by decide : (run init [.op 0, .shutdown 0]).isSome)
  exact ⟨s, hs, calls_return hs _⟩

/-! ### Nothing passes the gate once `done` is closed -/

/-- An operation past its gate: admitted, or its transaction has run. -/
def OpPc.passed : OpPc → Bool
  | .admitted | .committed | .afterClose => true
  | _ => false

theorem stepShutdown_done {s s' : State} {j : Nat} (h : stepShutdown s j = some s')
    (hd : s.done = true) : s'.done = true := by
  unfold stepShutdown at h
  split at h <;> (try split at h) <;> cases h <;> first | rfl | exact hd

/-- Once `done` is closed it stays closed, and a step lets no operation and no handle call past its
gate. -/
theorem passed_step {s s' : State} {e : Event} (hd : s.done = true) (h : step s e = some s') :
    s'.done = true ∧ (∀ i, (s'.op i).passed → (s.op i).passed) ∧
      ∀ i, s'.handle i = .handed → s.handle i = .handed := by
  cases e with
  | op i =>
    change stepOp s i = some s' at h
    unfold stepOp at h
    -- the gate sends `i` to `notOpen`; an admitted `i` had passed already
    split at h <;> cases h <;> refine ⟨hd, fun i' hp => ?_, fun _ => id⟩ <;>
      by_cases e : i' = i <;> simp_all [OpPc.passed, Function.update_apply]
  | handle i =>
    obtain ⟨-, rfl⟩ := stepHandle_eq h
    refine ⟨hd, fun _ => id, fun i' hp => ?_⟩
    by_cases e : i' = i <;> simp_all [Function.update_apply]
  | shutdown j =>
    obtain ⟨hop, hhd⟩ := stepShutdown_op h
    exact ⟨stepShutdown_done h hd, fun i hp => hop ▸ hp, fun i hp => hhd ▸ hp⟩

/-- **Nothing passes the gate once `done` is closed.** From every state in which `done` is closed,
in every interleaving of operations, handle calls and `Shutdown` calls, an operation that had not
passed its gate never does, and a handle call that had not returned its handle never does: each
returns `ErrNotOpen`. The transactions that can still run, on the closed database too
(`tx_runs_after_close`), are those of operations admitted before `close(done)`. -/
theorem no_admission_after_close {s s' : State} {es : List Event} (hd : s.done = true)
    (h : run s es = some s') (i : Nat) :
    ((s'.op i).passed → (s.op i).passed) ∧ (s'.handle i = .handed → s.handle i = .handed) :=
  have hrun := run_preserves (P := fun t => t.done = true ∧ (∀ i, (t.op i).passed → (s.op i).passed) ∧
      ∀ i, t.handle i = .handed → s.handle i = .handed)
    (fun hP ht => (passed_step hP.1 ht).imp_right fun hp =>
      ⟨fun i h => hP.2.1 i (hp.1 i h), fun i h => hP.2.2 i (hp.2 i h)⟩)
    ⟨hd, fun _ => id, fun _ => id⟩ h
  ⟨hrun.2.1 i, hrun.2.2 i⟩

theorem no_admission_after_close_closed_init :
    ∃ s', run { init with done := true } [.op 0, .handle 0] = some s' ∧
      (((s'.op 0).passed → (({ init with done := true } : State).op 0).passed) ∧
        (s'.handle 0 = .handed → ({ init with done := true } : State).handle 0 = .handed)) := by
  obtain ⟨s', hs'⟩ := Option.isSome_iff_exists.mp
    (by decide : (run { init with done := true } [.op 0, .handle 0]).isSome)
  exact ⟨s', hs', no_admission_after_close rfl hs' 0⟩

end Gate

end SurgeMQ.Persistence
