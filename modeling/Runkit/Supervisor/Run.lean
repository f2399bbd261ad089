/-
  Supervisor/Run.lean --- functions that are called again after they fail.

  `supervisor.Run` calls a function until it succeeds, fails fatally, or the context is done.
  Between two calls it waits for a delay that doubles with each failure, up to a limit that
  depends on the error, and that is reset by a call that has run for long enough.

  A call to `Run` is a state machine whose steps are taken at some time of the clock and see
  whether the context is done.  What happens between two steps takes any amount of time, and
  the context may be done at any moment; a `select` with more than one ready case takes
  either.  The panic for deadlocks, which exists only under `go test`, is left out.

  Source: internal/supervisor/supervisor.go, internal/supervisor/jitter.go,
  internal/supervisor/error.go.
-/
import Mathlib.Algebra.Order.Ring.Int
import Mathlib.Tactic.Positivity
import Mathlib.Tactic.Ring
import Runkit.Foundation.Run
import Runkit.MessagePump

set_option autoImplicit false

namespace Runkit.Supervisor

open Runkit.Foundation Runkit.MessagePump

/-! ## Errors -/

/-- What `ctx.Err()` returns once the context is done. -/
inductive ContextError where
  | canceled
  | deadlineExceeded
  deriving DecidableEq, Repr

/-- An error, with the errors that it wraps. -/
inductive Err where
  | text (message : String)
  | context (err : ContextError)
  | wrap (message : String) (err : Err)
  | join (first second : Err)
  /-- The result of `Fatal`. -/
  | fatalError (err : Err)
  /-- The result of `Persistent`. -/
  | persistentError (err : Err)
  deriving DecidableEq, Repr

namespace Err

/-- `errors.AsType[fatalError]`, and the error inside of what it finds. -/
def asFatal : Err → Option Err
  | text _ => none
  | context _ => none
  | wrap _ err => err.asFatal
  | join first second => first.asFatal <|> second.asFatal
  | fatalError err => some err
  | persistentError err => err.asFatal

/-- Whether `errors.AsType[persistentError]` finds an error. -/
def isPersistent : Err → Bool
  | text _ => false
  | context _ => false
  | wrap _ err => err.isPersistent
  | join first second => first.isPersistent || second.isPersistent
  | fatalError err => err.isPersistent
  | persistentError _ => true

/-- `errors.Is`, for an error of a context. -/
def is (target : ContextError) : Err → Bool
  | text _ => false
  | context err => err == target
  | wrap _ err => err.is target
  | join first second => first.is target || second.is target
  | fatalError err => err.is target
  | persistentError err => err.is target

end Err

/-! ## Delays -/

/-- `time.Millisecond`, in nanoseconds. -/
def millisecond : Int := 1000000

/-- `time.Second`. -/
def second : Int := 1000 * millisecond

/-- `time.Minute`. -/
def minute : Int := 60 * second

def baseDelay : Int := 100 * millisecond

def transientMaxDelay : Int := 15 * second

def persistentMaxDelay : Int := 5 * minute

def resetThreshold : Int := 3 * minute

/-- `Jitter`, or `none` if it panics. -/
def jitter (d : Int) (random : Nat) : Option Int :=
  let half := d.tdiv 2
  (randN random (d - half + 1)).map (half + ·)

/-- The limit of the backoff after the given error. -/
def limit (err : Err) : Int :=
  if err.isPersistent then persistentMaxDelay else transientMaxDelay

/-- The local variables of `Run`. -/
structure Vars where
  backoff : Int
  failures : Nat
  deriving DecidableEq, Repr

/-- The variables after a call that failed with `err` has run for `ran`. -/
def Vars.afterFailure (v : Vars) (err : Err) (ran : Int) : Vars :=
  let v : Vars :=
    if v.backoff = 0 ∨ ran ≥ resetThreshold then
      { backoff := baseDelay, failures := 0 }
    else
      { v with backoff := min (2 * v.backoff) (limit err) }
  { v with failures := v.failures + 1 }

/-- A jittered delay is between half and all of the duration. -/
theorem jitter_bounds {d delay : Int} {random : Nat} (hd : 0 ≤ d)
    (h : jitter d random = some delay) : d / 2 ≤ delay ∧ delay ≤ d := by
  obtain ⟨k, hk, rfl⟩ := Option.map_eq_some_iff.mp h
  have hnonneg := randN_nonneg hk
  have hlt : k < d - d.tdiv 2 + 1 := by
    unfold randN at hk
    split at hk
    · rename_i hpositive
      cases hk
      exact Int.emod_lt_of_pos _ hpositive
    · cases hk
  rw [Int.tdiv_eq_ediv_of_nonneg hd] at hlt ⊢
  omega

theorem baseDelay_pos : 0 < baseDelay := by decide

theorem transientMaxDelay_le_limit (err : Err) : transientMaxDelay ≤ limit err := by
  unfold limit
  split
  · decide
  · exact le_refl _

/-! ## The state machine -/

/-- A call of the function. -/
structure Call where
  startedAt : Time
  /-- The context was done when the call began. -/
  contextDone : Bool
  deriving DecidableEq, Repr

/-- A call that has failed, and what `Run` made of it. -/
structure Failure where
  startedAt : Time
  failedAt : Time
  err : Err
  backoff : Int
  delay : Int
  deriving DecidableEq, Repr

/-- How `Run` returned. -/
inductive Exit where
  | succeeded
  /-- The context is done. -/
  | stopped (err : ContextError)
  | fatal (err : Err)
  deriving DecidableEq, Repr

/-- The error that `Run` returned. -/
def Exit.result : Exit → Option Err
  | succeeded => none
  | stopped err => some (.context err)
  | fatal err => some err

inductive Phase where
  /-- The function is executing. -/
  | calling (startedAt : Time)
  /-- The function has returned an error for which it is called again. -/
  | failed (startedAt : Time) (err : Err)
  /-- The failure is logged. -/
  | logging (delay : Int)
  /-- The timer has been started.  `select` takes either case that is ready. -/
  | waiting (retryAt : Time)
  /-- About to return `ctx.Err()`. -/
  | finishing
  | exited (how : Exit)
  deriving DecidableEq, Repr

/-- A call to `Run`, with the calls that it made and those that failed. -/
structure Run where
  vars : Vars
  phase : Phase
  calls : List Call
  failed : List Failure
  deriving DecidableEq, Repr

namespace Run

/-- `Run` has been called, and calls the function. -/
def start (ctx : Option ContextError) (now : Time) : Run where
  vars := { backoff := 0, failures := 0 }
  phase := .calling now
  calls := [⟨now, ctx.isSome⟩]
  failed := []

/-- What follows a call that has returned `err`. -/
def afterCall (ctx : Option ContextError) (startedAt : Time) (err : Option Err) : Phase :=
  if ctx.isSome then .finishing
  else
    match err with
    | none => .finishing
    | some err =>
        match err.asFatal with
        | some fatal => .exited (.fatal fatal)
        | none => .failed startedAt err

/-- The function is called again only if the context was not done when it returned. -/
theorem afterCall_cases (ctx : Option ContextError) (startedAt : Time) (err : Option Err) :
    afterCall ctx startedAt err = .finishing ∨
      (∃ e, afterCall ctx startedAt err = .exited (.fatal e)) ∨
      ctx = none ∧ ∃ e, err = some e ∧ afterCall ctx startedAt err = .failed startedAt e := by
  unfold afterCall
  cases ctx with
  | some ctxErr => exact Or.inl rfl
  | none =>
      cases err with
      | none => exact Or.inl rfl
      | some e =>
          right
          dsimp only [Option.isSome_none]
          cases hfatal : e.asFatal with
          | some fatal => exact Or.inl ⟨fatal, rfl⟩
          | none => exact Or.inr ⟨rfl, e, rfl, rfl⟩

/-- `Run` returns `ctx.Err()`. -/
def finish (ctx : Option ContextError) : Exit :=
  match ctx with
  | none => .succeeded
  | some err => .stopped err

/-- A failure for which the delay has been chosen. -/
def failure (r : Run) (now startedAt : Time) (err : Err) (delay : Int) : Failure where
  startedAt := startedAt
  failedAt := now
  err := err
  backoff := (r.vars.afterFailure err (now - startedAt)).backoff
  delay := delay

/-- The state after the failure. -/
def backOff (r : Run) (now startedAt : Time) (err : Err) (delay : Int) : Run :=
  { r with
    vars := r.vars.afterFailure err (now - startedAt)
    phase := .logging delay
    failed := r.failed ++ [r.failure now startedAt err delay] }

/-- The state after the function is called again. -/
def callAgain (r : Run) (ctx : Option ContextError) (now : Time) : Run :=
  { r with
    phase := .calling now
    calls := r.calls ++ [⟨now, ctx.isSome⟩] }

/-- One step of `Run`, at the given time. -/
inductive Step (ctx : Option ContextError) (now : Time) : Run → Run → Prop where
  | returned {r : Run} {startedAt : Time} (err : Option Err) :
      r.phase = .calling startedAt →
      Step ctx now r { r with phase := afterCall ctx startedAt err }
  | backOff {r : Run} {startedAt : Time} {err : Err} {random : Nat} {delay : Int} :
      r.phase = .failed startedAt err →
      jitter (r.vars.afterFailure err (now - startedAt)).backoff random = some delay →
      Step ctx now r (r.backOff now startedAt err delay)
  | wait {r : Run} {delay : Int} :
      r.phase = .logging delay →
      Step ctx now r { r with phase := .waiting (now + delay) }
  | timer {r : Run} {retryAt : Time} :
      r.phase = .waiting retryAt → retryAt ≤ now →
      Step ctx now r (r.callAgain ctx now)
  | done {r : Run} {retryAt : Time} :
      r.phase = .waiting retryAt → ctx.isSome →
      Step ctx now r { r with phase := .finishing }
  | finish {r : Run} :
      r.phase = .finishing →
      Step ctx now r { r with phase := .exited (finish ctx) }

end Run

/-! ## The backoff -/

/-- The call has not run for long enough to reset the backoff. -/
def Failure.quick (f : Failure) : Bool := f.failedAt - f.startedAt < resetThreshold

/-- The number of failures since the backoff was last reset. -/
def streak (failed : List Failure) : Nat :=
  min failed.length ((failed.reverse.takeWhile Failure.quick).length + 1)

theorem streak_quick {failed : List Failure} {f : Failure} (h : f.quick = true) :
    streak (failed ++ [f]) = streak failed + 1 := by
  simp [streak, h, Nat.add_min_add_right]

theorem streak_long {failed : List Failure} {f : Failure} (h : f.quick = false) :
    streak (failed ++ [f]) = 1 := by
  simp [streak, h]

theorem streak_singleton (f : Failure) : streak [f] = 1 := by
  simp [streak]

theorem streak_pos {failed : List Failure} (h : failed ≠ []) : 0 < streak failed := by
  have hlength := List.length_pos_iff.mpr h
  unfold streak
  omega

/-- The backoff after the given failures: within the bounds for their number, unless nothing
has failed yet. -/
structure Counts (v : Vars) (failed : List Failure) : Prop where
  failures : v.failures = streak failed
  zero : v.backoff = 0 ↔ failed = []
  lower : failed ≠ [] → min (baseDelay * 2 ^ (streak failed - 1)) transientMaxDelay ≤ v.backoff
  upper : v.backoff ≤ baseDelay * 2 ^ (streak failed - 1)

namespace Counts

variable {v : Vars} {failed : List Failure} {f : Failure}

theorem initial : Counts { backoff := 0, failures := 0 } [] where
  failures := rfl
  zero := ⟨fun _ => rfl, fun _ => rfl⟩
  lower := fun h => absurd rfl h
  upper := by decide

/-- Counting starts again with the base delay. -/
theorem reset (h : streak (failed ++ [f]) = 1) :
    Counts { backoff := baseDelay, failures := 1 } (failed ++ [f]) where
  failures := h.symm
  zero := by simp [baseDelay_pos.ne']
  lower := by
    intro _
    simp [h]
  upper := by simp [h]

/-- The next failure after a call that did not reset the backoff doubles it. -/
theorem double (hcounts : Counts v failed) (hfailed : failed ≠ []) (hquick : f.quick = true) :
    Counts { backoff := min (2 * v.backoff) (limit f.err), failures := v.failures + 1 }
      (failed ++ [f]) := by
  have hstreak : streak (failed ++ [f]) = streak failed + 1 := streak_quick hquick
  have hpower : baseDelay * 2 ^ (streak (failed ++ [f]) - 1) =
      2 * (baseDelay * 2 ^ (streak failed - 1)) := by
    obtain ⟨n, hn⟩ := Nat.exists_eq_succ_of_ne_zero (streak_pos hfailed).ne'
    rw [hstreak, hn, Nat.add_sub_cancel, Nat.succ_sub_one, pow_succ]
    ring
  have hlower := hcounts.lower hfailed
  have hupper := hcounts.upper
  have hlimit := transientMaxDelay_le_limit f.err
  have hmax : 0 < transientMaxDelay := by decide
  have hbase : 0 < baseDelay * 2 ^ (streak failed - 1) := by
    have hpos := baseDelay_pos
    positivity
  have hnonempty : failed ++ [f] ≠ [] := by simp
  refine ⟨by rw [hstreak, ← hcounts.failures], ?_, ?_, ?_⟩
  · simp only [hnonempty, iff_false]
    omega
  · intro _
    rw [hpower]
    exact le_min (by omega) (by omega)
  · rw [hpower]
    exact le_trans (min_le_left _ _) (by omega)

/-- The variables count the failures since the last reset. -/
theorem afterFailure (hcounts : Counts v failed) (f : Failure) :
    Counts (v.afterFailure f.err (f.failedAt - f.startedAt)) (failed ++ [f]) ∧
      (v.afterFailure f.err (f.failedAt - f.startedAt)).backoff ≤ limit f.err := by
  have hlimit := transientMaxDelay_le_limit f.err
  unfold Vars.afterFailure
  dsimp only
  split
  · rename_i hreset
    refine ⟨.reset ?_, le_trans (by decide) hlimit⟩
    obtain hzero | hlong := hreset
    · rw [hcounts.zero.mp hzero, List.nil_append, streak_singleton]
    · exact streak_long (decide_eq_false (not_lt.mpr hlong))
  · rename_i hquick
    rw [not_or, not_le] at hquick
    exact ⟨hcounts.double (fun hnil => hquick.1 (hcounts.zero.mpr hnil))
      (decide_eq_true hquick.2), min_le_right _ _⟩

end Counts

/-- The backoff after a failure doubles with the number of failures since the last reset, up to
the limit for the error.  After errors of both kinds it may be less than that, but it is not
less than the transient limit. -/
structure BacksOff (before : List Failure) (f : Failure) : Prop where
  lower : min (baseDelay * 2 ^ (streak (before ++ [f]) - 1)) transientMaxDelay ≤ f.backoff
  upper : f.backoff ≤ min (baseDelay * 2 ^ (streak (before ++ [f]) - 1)) (limit f.err)
  jittered : f.backoff / 2 ≤ f.delay ∧ f.delay ≤ f.backoff

theorem BacksOff.of_counts {v : Vars} {failed : List Failure} {f : Failure} {random : Nat}
    (hcounts : Counts v (failed ++ [f])) (hlimit : v.backoff ≤ limit f.err)
    (hbackoff : f.backoff = v.backoff) (hdelay : jitter v.backoff random = some f.delay) :
    BacksOff failed f := by
  have hlower := hcounts.lower (by simp)
  have hpositive : 0 ≤ v.backoff := by
    refine le_trans (le_min ?_ (by decide)) hlower
    have hbase := baseDelay_pos
    positivity
  constructor
  · exact hbackoff ▸ hlower
  · exact hbackoff ▸ le_min hcounts.upper hlimit
  · exact hbackoff ▸ jitter_bounds hpositive hdelay

/-! ## What every step keeps -/

/-- `Run` is not waiting to call the function again. -/
def Phase.last : Phase → Bool
  | .calling _ | .finishing | .exited _ => true
  | .failed _ _ | .logging _ | .waiting _ => false

/-- When the call began that has not been dealt with yet. -/
def Phase.current : Phase → Option Time
  | .calling startedAt | .failed startedAt _ => some startedAt
  | .logging _ | .waiting _ | .finishing | .exited _ => none

/-- How many calls there may be beyond those that have failed. -/
def Phase.pending : Phase → Nat → Prop
  | .calling _, n | .failed _ _, n => n = 1
  | .logging _, n | .waiting _, n => n = 0
  | .finishing, n | .exited _, n => n ≤ 1

/-- What the phase says about the most recent failure. -/
def Phase.After (now : Time) (phase : Phase) (f : Failure) : Prop :=
  match phase with
  | .logging delay => f.failedAt ≤ now ∧ f.delay = delay
  | .waiting retryAt => f.failedAt + f.delay ≤ retryAt
  | _ => True

/-- What holds of a call to `Run` at the given time. -/
structure Run.Invariant (ctx : Option ContextError) (now : Time) (r : Run) : Prop where
  counts : Counts r.vars r.failed
  backsOff : ∀ k f, r.failed[k]? = some f → BacksOff (r.failed.take k) f
  length : ∃ n, r.calls.length = r.failed.length + n ∧ r.phase.pending n
  started : ∀ (k : Nat) (f : Failure), r.failed[k]? = some f →
    ∃ call : Call, r.calls[k]? = some call ∧ call.startedAt = f.startedAt
  current : ∀ startedAt, r.phase.current = some startedAt →
    ∃ call : Call, r.calls.getLast? = some call ∧ call.startedAt = startedAt
  spaced : ∀ k f call, r.failed[k]? = some f → r.calls[k + 1]? = some call →
    f.failedAt + f.delay ≤ call.startedAt
  after : ∀ f ∈ r.failed.getLast?, r.phase.After now f
  late : (r.calls.filter Call.contextDone).length ≤ 1
  ends : (r.calls.filter Call.contextDone) ≠ [] → ctx.isSome ∧ r.phase.last

namespace Run

variable {ctx ctx' : Option ContextError} {now now' : Time} {r r' : Run}

theorem Invariant.initial : Invariant ctx now (start ctx now) where
  counts := .initial
  backsOff := by
    intro k f hf
    cases hf
  length := ⟨1, rfl, rfl⟩
  started := by
    intro k f hf
    cases hf
  current := by
    intro startedAt hcurrent
    exact ⟨_, rfl, Option.some.inj hcurrent⟩
  spaced := by
    intro k f call hf
    cases hf
  after := by
    intro f hf
    cases hf
  late := List.length_filter_le _ _
  ends := by
    intro hlate
    refine ⟨?_, rfl⟩
    by_contra hctx
    simp [start, hctx] at hlate

/-- Time passes, and the context may become done. -/
theorem Invariant.mono (h : Invariant ctx now r) (hnow : now ≤ now')
    (hctx : ctx.isSome → ctx'.isSome) : Invariant ctx' now' r where
  counts := h.counts
  backsOff := h.backsOff
  length := h.length
  started := h.started
  current := h.current
  spaced := h.spaced
  after := by
    intro f hf
    have hafter := h.after f hf
    cases hphase : r.phase with
    | logging delay =>
        rw [hphase] at hafter
        exact ⟨le_trans hafter.1 hnow, hafter.2⟩
    | waiting retryAt =>
        rw [hphase] at hafter
        exact hafter
    | calling _ | failed _ _ | finishing | exited _ => trivial
  late := h.late
  ends := fun hlate => ⟨hctx (h.ends hlate).1, (h.ends hlate).2⟩

/-- A step that only changes the phase. -/
theorem Invariant.of_phase (h : Invariant ctx now r) {phase : Phase}
    (hpending : ∀ n, r.phase.pending n → phase.pending n)
    (hcurrent : phase.current = none ∨ phase.current = r.phase.current)
    (hafter : ∀ f ∈ r.failed.getLast?, phase.After now f)
    (hlast : r.phase.last → ctx.isSome → phase.last) :
    Invariant ctx now { r with phase := phase } where
  counts := h.counts
  backsOff := h.backsOff
  length := by
    obtain ⟨n, hlength, hn⟩ := h.length
    exact ⟨n, hlength, hpending n hn⟩
  started := h.started
  current := by
    intro startedAt hphase
    obtain hnone | hsame := hcurrent
    · rw [hnone] at hphase
      cases hphase
    · exact h.current startedAt (hsame ▸ hphase)
  spaced := h.spaced
  after := hafter
  late := h.late
  ends := by
    intro hlate
    obtain ⟨hctx, hphase⟩ := h.ends hlate
    exact ⟨hctx, hlast hphase hctx⟩

/-- If the context is not done, no call has begun after it was. -/
theorem Invariant.filter_eq_nil (h : Invariant ctx now r) (hphase : r.phase.last = false) :
    r.calls.filter Call.contextDone = [] := by
  by_contra hlate
  have hlast := (h.ends hlate).2
  rw [hphase] at hlast
  cases hlast

/-- The failure of a call is recorded. -/
theorem Invariant.backOff (h : Invariant ctx now r) {startedAt : Time} {err : Err}
    {random : Nat} {delay : Int} (hphase : r.phase = .failed startedAt err)
    (hdelay : jitter (r.vars.afterFailure err (now - startedAt)).backoff random = some delay) :
    Invariant ctx now (r.backOff now startedAt err delay) := by
  have hfilter := h.filter_eq_nil (by rw [hphase]; rfl)
  obtain ⟨n, hlength, hn⟩ := h.length
  rw [hphase] at hn
  obtain rfl : n = 1 := hn
  obtain ⟨hcounts, hlimit⟩ := h.counts.afterFailure (r.failure now startedAt err delay)
  constructor
  case counts => exact hcounts
  case backsOff =>
    intro k f hf
    obtain ⟨hlt, hold⟩ | ⟨rfl, rfl⟩ := getElem?_concat_eq_some hf
    · have htake : (r.backOff now startedAt err delay).failed.take k = r.failed.take k :=
        List.take_append_of_le_length hlt.le
      rw [htake]
      exact h.backsOff k f hold
    · have htake : (r.backOff now startedAt err delay).failed.take r.failed.length = r.failed :=
        List.take_left
      rw [htake]
      exact .of_counts hcounts hlimit rfl hdelay
  case length => exact ⟨0, by simp [Run.backOff, hlength], rfl⟩
  case started =>
    intro k f hf
    obtain ⟨-, hold⟩ | ⟨rfl, rfl⟩ := getElem?_concat_eq_some hf
    · exact h.started k f hold
    · obtain ⟨call, hcall, hstarted⟩ := h.current startedAt (by rw [hphase]; rfl)
      rw [List.getLast?_eq_getElem?, hlength] at hcall
      exact ⟨call, hcall, hstarted⟩
  case current =>
    intro _ hcurrent
    cases hcurrent
  case spaced =>
    intro k f call hf hcall
    obtain ⟨-, hold⟩ | ⟨rfl, -⟩ := getElem?_concat_eq_some hf
    · exact h.spaced k f call hold hcall
    · have hnone : (r.backOff now startedAt err delay).calls[r.failed.length + 1]? = none :=
        List.getElem?_eq_none hlength.le
      rw [hnone] at hcall
      cases hcall
  case after =>
    intro f hf
    rw [Run.backOff, List.getLast?_concat] at hf
    cases hf
    exact ⟨le_refl _, rfl⟩
  case late => exact h.late
  case ends => exact fun hlate => absurd hfilter hlate

/-- The function is called again. -/
theorem Invariant.callAgain (h : Invariant ctx now r) {retryAt : Time}
    (hphase : r.phase = .waiting retryAt) (hnow : retryAt ≤ now) :
    Invariant ctx now (r.callAgain ctx now) := by
  have hfilter := h.filter_eq_nil (by rw [hphase]; rfl)
  obtain ⟨n, hlength, hn⟩ := h.length
  rw [hphase] at hn
  obtain rfl : n = 0 := hn
  have hcalls : (r.callAgain ctx now).calls.filter Call.contextDone =
      if ctx.isSome then [⟨now, true⟩] else [] := by
    rw [Run.callAgain, List.filter_append, hfilter]
    cases ctx with
    | none => rfl
    | some err => rfl
  constructor
  case counts => exact h.counts
  case backsOff => exact h.backsOff
  case length => exact ⟨1, by simp [Run.callAgain, hlength], rfl⟩
  case started =>
    intro k f hf
    obtain ⟨call, hcall, hstarted⟩ := h.started k f hf
    refine ⟨call, ?_, hstarted⟩
    obtain ⟨hlt, -⟩ := List.getElem?_eq_some_iff.mp hcall
    rw [Run.callAgain, List.getElem?_append_left hlt, hcall]
  case current =>
    intro startedAt hcurrent
    refine ⟨⟨now, ctx.isSome⟩, ?_, Option.some.inj hcurrent⟩
    rw [Run.callAgain, List.getLast?_concat]
  case spaced =>
    intro k f call hf hcall
    obtain ⟨-, hold⟩ | ⟨hlast, rfl⟩ := getElem?_concat_eq_some hcall
    · exact h.spaced k f call hf hold
    · have hgetLast : r.failed.getLast? = some f := by
        rw [List.getLast?_eq_getElem?, ← hf]
        congr 1
        omega
      have hafter := h.after f hgetLast
      rw [hphase] at hafter
      exact le_trans hafter hnow
  case after => exact fun f hf => trivial
  case late =>
    rw [hcalls]
    split
    · exact le_refl _
    · exact Nat.zero_le _
  case ends =>
    rw [hcalls]
    intro hlate
    split at hlate
    · rename_i hctx
      exact ⟨hctx, rfl⟩
    · exact absurd rfl hlate

theorem Invariant.step (h : Invariant ctx now r) (hstep : Step ctx now r r') :
    Invariant ctx now r' := by
  cases hstep with
  | @returned startedAt err hphase =>
      obtain hnext | ⟨e, hnext⟩ | ⟨hctx, e, -, hnext⟩ := afterCall_cases ctx startedAt err
      · rw [hnext]
        refine h.of_phase ?_ (.inl rfl) (fun _ _ => trivial) (fun _ _ => rfl)
        rw [hphase]
        exact fun n hn => le_of_eq hn
      · rw [hnext]
        refine h.of_phase ?_ (.inl rfl) (fun _ _ => trivial) (fun _ _ => rfl)
        rw [hphase]
        exact fun n hn => le_of_eq hn
      · rw [hnext]
        refine h.of_phase ?_ (.inr (by rw [hphase]; rfl)) (fun _ _ => trivial) ?_
        · rw [hphase]
          exact fun n hn => hn
        · rw [hctx]
          intro _ hdone
          cases hdone
  | backOff hphase hdelay => exact h.backOff hphase hdelay
  | wait hphase =>
      refine h.of_phase ?_ (.inl rfl) ?_ ?_
      · rw [hphase]
        exact fun n hn => hn
      · intro f hf
        have hafter := h.after f hf
        rw [hphase] at hafter
        obtain ⟨hfailedAt, rfl⟩ := hafter
        exact add_le_add hfailedAt (le_refl _)
      · rw [hphase]
        intro hlast
        cases hlast
  | timer hphase hnow => exact h.callAgain hphase hnow
  | done hphase hdone =>
      refine h.of_phase ?_ (.inl rfl) (fun _ _ => trivial) (fun _ _ => rfl)
      rw [hphase]
      rintro n rfl
      exact Nat.zero_le _
  | finish hphase =>
      refine h.of_phase ?_ (.inl rfl) (fun _ _ => trivial) (fun _ _ => rfl)
      rw [hphase]
      exact fun n hn => hn

end Run

/-! ## Whole runs -/

/-- A call to `Run`, with the clock and its context. -/
structure Supervision where
  now : Time
  ctx : Option ContextError
  run : Run
  deriving DecidableEq, Repr

namespace Supervision

def start (ctx : Option ContextError) (now : Time) : Supervision where
  now := now
  ctx := ctx
  run := Run.start ctx now

inductive Step : Supervision → Supervision → Prop where
  | tick {s : Supervision} (now : Time) : s.now ≤ now → Step s { s with now := now }
  | cancel {s : Supervision} (err : ContextError) :
      s.ctx = none → Step s { s with ctx := some err }
  | run {s : Supervision} {r : Run} : s.run.Step s.ctx s.now r → Step s { s with run := r }

variable {ctx : Option ContextError} {now : Time} {s : Supervision}

theorem reaches_invariant (h : Relation.ReflTransGen Step (start ctx now) s) :
    s.run.Invariant s.ctx s.now := by
  have hpreserves : ∀ s s' : Supervision, s.run.Invariant s.ctx s.now → Step s s' →
      s'.run.Invariant s'.ctx s'.now := by
    intro s s' hinv hstep
    cases hstep with
    | tick now hnow => exact hinv.mono hnow id
    | cancel err hctx => exact hinv.mono (le_refl _) (fun _ => rfl)
    | run hrun => exact hinv.step hrun
  exact run_preserves hpreserves h .initial

/-- After each failure, `Run` waits for a delay of at least half of the backoff, which doubles
with each failure since it was last reset, up to the limit for the error, before it calls the
function again.  Once the context is done, it calls the function at most once more. -/
theorem restarts_back_off (h : Relation.ReflTransGen Step (start ctx now) s) :
    (∀ k f, s.run.failed[k]? = some f →
      BacksOff (s.run.failed.take k) f ∧
      (∃ call, s.run.calls[k]? = some call ∧ call.startedAt = f.startedAt) ∧
      ∀ next, s.run.calls[k + 1]? = some next → f.failedAt + f.delay ≤ next.startedAt) ∧
    (s.run.calls.filter Call.contextDone).length ≤ 1 := by
  have hinv := reaches_invariant h
  refine ⟨?_, hinv.late⟩
  intro k f hf
  exact ⟨hinv.backsOff k f hf, hinv.started k f hf, fun next => hinv.spaced k f next hf⟩

/-- The function fails at once, and is called again when the delay is over although the
context is done by then. -/
def restarted : Supervision where
  now := 50 * millisecond
  ctx := some .canceled
  run :=
    { vars := { backoff := baseDelay, failures := 1 }
      phase := .calling (50 * millisecond)
      calls := [⟨0, false⟩, ⟨50 * millisecond, true⟩]
      failed := [⟨0, 0, .text "failed", baseDelay, 50 * millisecond⟩] }

theorem restarted_reached : Relation.ReflTransGen Step (start none 0) restarted :=
  Relation.ReflTransGen.refl
    |>.tail (.run (.returned (some (.text "failed")) rfl))
    |>.tail (.run (.backOff rfl (show jitter baseDelay 0 = some (50 * millisecond) from rfl)))
    |>.tail (.run (.wait rfl))
    |>.tail (.cancel .canceled rfl)
    |>.tail (.tick (50 * millisecond) (by decide))
    |>.tail (.run (.timer rfl (by decide)))

theorem restarts_back_off_restarted :
    ∃ f call, restarted.run.failed[0]? = some f ∧ restarted.run.calls[1]? = some call ∧
      BacksOff [] f ∧ f.failedAt + f.delay ≤ call.startedAt ∧
      (restarted.run.calls.filter Call.contextDone).length = 1 := by
  have hfirst := (restarts_back_off restarted_reached).1 0 _ rfl
  exact ⟨_, _, rfl, rfl, hfirst.1, hfirst.2.2 _ rfl, rfl⟩

end Supervision

end Runkit.Supervisor
