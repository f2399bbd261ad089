/-
  Supervisor/Group.lean --- supervised functions that are stopped together.

  A `Group` runs any number of supervised functions, which may be added while others are
  running.  The context of the group is done as soon as one of the functions has failed
  fatally, when the context of the caller is, or when `Wait` has returned.

  Source: internal/supervisor/group.go.
-/
import Runkit.Foundation.ErrGroup
import Runkit.Supervisor.Run

set_option autoImplicit false

namespace Runkit.Supervisor

open Runkit.Foundation

/-! ## The state machine -/

/-- What the goroutine that `Group.Go` starts returns when `Run` has returned `err`. -/
def goReturns (ctx : Option ContextError) (err : Option Err) : Option Err :=
  match ctx, err with
  | some ctxErr, some err => if err.is ctxErr then none else some err
  | _, err => err

/-- A group, with the calls to `Run` of the functions that have been started. -/
structure Group (M : Type) where
  now : Time
  /-- What the `Err` method of the context of the group returns. -/
  ctx : Option ContextError
  group : ErrGroup M Err
  runs : M → Option Run
  /-- `Wait` has returned. -/
  waited : Bool

namespace Group

variable {M : Type}

/-- `WithContext`, with a context for which `Err` returns `ctx`. -/
def withContext (ctx : Option ContextError) (now : Time) : Group M where
  now := now
  ctx := ctx
  group := .start ctx.isSome
  runs := fun _ => none
  waited := false

/-- A context that is done stays as it is. -/
def doneWith (ctx : Option ContextError) (err : ContextError) : Option ContextError :=
  ctx.or (some err)

def withRun [DecidableEq M] (g : Group M) (m : M) (r : Run) : Group M :=
  { g with runs := Function.update g.runs m (some r) }

theorem withRun_runs_of_ne [DecidableEq M] {g : Group M} {m m' : M} {r : Run} (h : m' ≠ m) :
    (g.withRun m r).runs m' = g.runs m' :=
  Function.update_of_ne h ..

/-- The goroutine of a function returns. -/
def ret [DecidableEq M] (g : Group M) (m : M) (err : Option Err) : Group M :=
  { g with
    ctx := if err.isSome then doneWith g.ctx .canceled else g.ctx
    group := g.group.ret m err }

inductive Step [DecidableEq M] : Group M → Group M → Prop where
  | tick {g : Group M} (now : Time) : g.now ≤ now → Step g { g with now := now }
  /-- The context of the caller is done. -/
  | cancel {g : Group M} (err : ContextError) :
      Step g { g with ctx := doneWith g.ctx err, group := g.group.cancel }
  | go {g : Group M} {m : M} : g.runs m = none → g.waited = false →
      Step g (g.withRun m (Run.start g.ctx g.now))
  | run {g : Group M} {m : M} {r r' : Run} : g.runs m = some r → r.Step g.ctx g.now r' →
      Step g (g.withRun m r')
  | ret {g : Group M} {m : M} {r : Run} {how : Exit} : g.runs m = some r →
      r.phase = .exited how → g.group.returned m = none →
      Step g (g.ret m (goReturns g.ctx how.result))
  | wait {g : Group M} : (∀ m, g.runs m ≠ none → g.group.returned m ≠ none) →
      Step g { g with ctx := doneWith g.ctx .canceled, waited := true }

/-! ## What every step keeps -/

/-- What the goroutine of a function that exited in the given way has returned. -/
inductive Returns (g : ErrGroup M Err) : Exit → Option Err → Prop where
  | succeeded : Returns g .succeeded none
  | fatal (err : Err) : Returns g (.fatal err) (some err)
  /-- The context was done. -/
  | done {how : Exit} : g.done = true → Returns g how none

structure Invariant (g : Group M) : Prop where
  runs : ∀ m r, g.runs m = some r → r.Invariant g.ctx g.now
  sound : g.group.Sound
  /-- `Run` returns the error of the context. -/
  stopped : ∀ m r err, g.runs m = some r → r.phase = .exited (.stopped err) → g.ctx = some err
  returned : ∀ m err, g.group.returned m = some err →
    ∃ r how, g.runs m = some r ∧ r.phase = .exited how ∧ Returns g.group how err
  done : g.group.done = true → g.ctx.isSome
  whyDone : g.ctx.isSome → g.group.done = true ∨ g.waited = true
  waited : g.waited = true → ∀ m, g.runs m ≠ none → g.group.returned m ≠ none

theorem Returns.mono {g g' : ErrGroup M Err} {how : Exit} {err : Option Err}
    (h : Returns g how err) (hdone : g.done = true → g'.done = true) : Returns g' how err := by
  cases h with
  | succeeded => exact .succeeded
  | fatal err => exact .fatal err
  | done hg => exact .done (hdone hg)

/-- The error of the context is not returned, and neither is an error that wraps it. -/
theorem goReturns_returns {g : ErrGroup M Err} {ctx : Option ContextError} {how : Exit}
    (hstopped : ∀ err, how = .stopped err → ctx = some err)
    (hdone : ctx.isSome → g.done = true) : Returns g how (goReturns ctx how.result) := by
  cases how with
  | succeeded =>
      cases ctx with
      | none => exact .succeeded
      | some ctxErr => exact .succeeded
  | stopped err =>
      obtain rfl := hstopped err rfl
      have hreturns : goReturns (some err) (Exit.stopped err).result = none := by
        simp [goReturns, Exit.result, Err.is]
      rw [hreturns]
      exact .done (hdone rfl)
  | fatal err =>
      cases ctx with
      | none => exact .fatal err
      | some ctxErr =>
          change Returns g _ (if err.is ctxErr then none else some err)
          split
          · exact .done (hdone rfl)
          · exact .fatal err

@[simp] theorem doneWith_isSome (ctx : Option ContextError) (err : ContextError) :
    (doneWith ctx err).isSome = true := by
  simp [doneWith]

theorem doneWith_eq_some {ctx : Option ContextError} {err ctxErr : ContextError}
    (h : ctx = some ctxErr) : doneWith ctx err = some ctxErr := by
  rw [doneWith, h, Option.some_or]

/-- A function that has returned does nothing any more. -/
theorem not_step_exited {ctx : Option ContextError} {now : Time} {r r' : Run} {how : Exit}
    (hphase : r.phase = .exited how) : ¬ r.Step ctx now r' := by
  intro hstep
  cases hstep with
  | returned _ h | backOff h _ | wait h | timer h _ | done h _ | finish h =>
      rw [hphase] at h
      cases h

/-- `Run` returns the error that the context has at that time. -/
theorem step_stopped {ctx : Option ContextError} {now : Time} {r r' : Run} {err : ContextError}
    (hstep : r.Step ctx now r') (hphase : r'.phase = .exited (.stopped err)) :
    ctx = some err := by
  cases hstep with
  | @returned startedAt e h =>
      obtain hnext | ⟨_, hnext⟩ | ⟨-, _, -, hnext⟩ := Run.afterCall_cases ctx startedAt e
      all_goals
        change Run.afterCall ctx startedAt e = _ at hphase
        rw [hnext] at hphase
        cases hphase
  | backOff _ _ | wait _ | timer _ _ | done _ _ => cases hphase
  | finish _ =>
      cases ctx with
      | none => cases hphase
      | some ctxErr =>
          cases hphase
          rfl

namespace Invariant

variable {g g' : Group M}

theorem initial (ctx : Option ContextError) (now : Time) :
    Invariant (withContext ctx now : Group M) where
  runs := by
    intro m r hr
    cases hr
  sound := .start _
  stopped := by
    intro m r err hr
    cases hr
  returned := by
    intro m err hm
    cases hm
  done := by
    rw [withContext, ErrGroup.start_done]
    exact id
  whyDone := by
    intro hctx
    left
    rw [withContext, ErrGroup.start_done]
    exact hctx
  waited := by
    intro hwaited
    cases hwaited

/-- A function that can take a step has not returned. -/
theorem returned_eq_none (h : g.Invariant) {m : M} {r r' : Run} (hr : g.runs m = some r)
    (hstep : r.Step g.ctx g.now r') : g.group.returned m = none := by
  cases hm : g.group.returned m with
  | none => rfl
  | some err =>
      obtain ⟨r₀, how, hr₀, hphase, -⟩ := h.returned m err hm
      rw [hr] at hr₀
      cases hr₀
      exact absurd hstep (not_step_exited hphase)

/-- A function that has not been started has not returned. -/
theorem returned_eq_none_of_runs (h : g.Invariant) {m : M} (hm : g.runs m = none) :
    g.group.returned m = none := by
  cases hreturned : g.group.returned m with
  | none => rfl
  | some err =>
      obtain ⟨r, how, hr, -⟩ := h.returned m err hreturned
      rw [hm] at hr
      cases hr

/-- The context is done, for one reason or another. -/
theorem withDone (h : g.Invariant) {group : ErrGroup M Err} {waited : Bool}
    (ctxErr : ContextError) (hsound : group.Sound) (hreturned : group.returned = g.group.returned)
    (hdone : g.group.done = true → group.done = true)
    (hwhy : group.done = true ∨ waited = true)
    (hwaited : waited = true → ∀ m, g.runs m ≠ none → g.group.returned m ≠ none) :
    Invariant { g with ctx := doneWith g.ctx ctxErr, group := group, waited := waited } where
  runs := fun m r hr => (h.runs m r hr).mono (le_refl _) (fun _ => doneWith_isSome _ _)
  sound := hsound
  stopped := fun m r err hr hphase => doneWith_eq_some (h.stopped m r err hr hphase)
  returned := by
    intro m err hm
    obtain ⟨r, how, hr, hphase, hreturns⟩ := h.returned m err (hreturned ▸ hm)
    exact ⟨r, how, hr, hphase, hreturns.mono hdone⟩
  done := fun _ => doneWith_isSome _ _
  whyDone := fun _ => hwhy
  waited := by
    intro htrue m hm
    rw [hreturned]
    exact hwaited htrue m hm

section Steps

variable [DecidableEq M]

/-- A function is started or takes a step. -/
theorem withRun (h : g.Invariant) {m : M} {r : Run} (hr : r.Invariant g.ctx g.now)
    (hstopped : ∀ err, r.phase = .exited (.stopped err) → g.ctx = some err)
    (hreturned : g.group.returned m = none) (hwaited : g.waited = false ∨ g.runs m ≠ none) :
    Invariant (g.withRun m r) where
  runs := by
    intro m' r' hr'
    obtain ⟨-, hnew⟩ | ⟨-, hold⟩ := update_eq_some hr'
    · cases hnew
      exact hr
    · exact h.runs m' r' hold
  sound := h.sound
  stopped := by
    intro m' r' err hr' hphase
    obtain ⟨-, hnew⟩ | ⟨-, hold⟩ := update_eq_some hr'
    · cases hnew
      exact hstopped err hphase
    · exact h.stopped m' r' err hold hphase
  returned := by
    intro m' err hm'
    obtain ⟨r', how, hr', hphase, hreturns⟩ := h.returned m' err hm'
    refine ⟨r', how, ?_, hphase, hreturns⟩
    have hne : m' ≠ m := by
      rintro rfl
      exact Option.some_ne_none err (hm'.symm.trans hreturned)
    rw [withRun_runs_of_ne hne, hr']
  done := h.done
  whyDone := h.whyDone
  waited := by
    intro htrue m' hm'
    obtain hfalse | hstarted := hwaited
    · exact absurd (htrue.symm.trans hfalse) (by decide)
    · apply h.waited htrue m'
      by_cases heq : m' = m
      · rwa [heq]
      · rwa [withRun_runs_of_ne heq] at hm'

/-- The goroutine of a function has returned. -/
theorem ret (h : g.Invariant) {m : M} {r : Run} {how : Exit} (hr : g.runs m = some r)
    (hphase : r.phase = .exited how) (hm : g.group.returned m = none) :
    Invariant (g.ret m (goReturns g.ctx how.result)) := by
  have hnotWaited : g.waited ≠ true := by
    intro hwaited
    exact h.waited hwaited m (by simp [hr]) hm
  have hreturns : Returns g.group how (goReturns g.ctx how.result) := by
    refine goReturns_returns ?_ ?_
    · rintro err rfl
      exact h.stopped m r err hr hphase
    · intro hctx
      exact (h.whyDone hctx).resolve_right hnotWaited
  generalize goReturns g.ctx how.result = err at hreturns
  have hctx : g.ctx.isSome → (g.ret m err).ctx.isSome := by
    intro hsome
    unfold Group.ret
    dsimp only
    split
    · exact doneWith_isSome _ _
    · exact hsome
  constructor
  case runs => exact fun m' r' hr' => (h.runs m' r' hr').mono (le_refl _) hctx
  case sound => exact h.sound.ret hm err
  case stopped =>
    intro m' r' ctxErr hr' hphase'
    have hold := h.stopped m' r' ctxErr hr' hphase'
    unfold Group.ret
    dsimp only
    split
    · exact doneWith_eq_some hold
    · exact hold
  case returned =>
    intro m' err' hm'
    by_cases heq : m' = m
    · subst heq
      have herr : err' = err := by
        have hself : (g.ret m' err).group.returned m' = some err := ErrGroup.ret_returned_self
        rw [hself] at hm'
        exact (Option.some.inj hm').symm
      subst herr
      exact ⟨r, how, hr, hphase, hreturns.mono ErrGroup.ret_done⟩
    · have hold : g.group.returned m' = some err' := by
        rw [← hm']
        exact (ErrGroup.ret_returned_of_ne heq).symm
      obtain ⟨r', how', hr', hphase', hreturns'⟩ := h.returned m' err' hold
      exact ⟨r', how', hr', hphase', hreturns'.mono ErrGroup.ret_done⟩
  case done =>
    intro hdone
    cases err with
    | none => exact hctx (h.done (ErrGroup.ret_done_of_none.symm.trans hdone))
    | some e => exact doneWith_isSome _ _
  case whyDone =>
    intro hsome
    left
    cases err with
    | none => exact ErrGroup.ret_done ((h.whyDone hsome).resolve_right hnotWaited)
    | some e => exact ErrGroup.ret_done_of_some e
  case waited => exact fun hwaited => absurd hwaited hnotWaited

theorem step (h : g.Invariant) (hstep : Step g g') : g'.Invariant := by
  cases hstep with
  | tick now hnow =>
      exact ⟨fun m r hr => (h.runs m r hr).mono hnow id, h.sound, h.stopped, h.returned, h.done,
        h.whyDone, h.waited⟩
  | cancel err =>
      exact h.withDone err h.sound.cancel rfl (fun _ => ErrGroup.cancel_done _)
        (.inl (ErrGroup.cancel_done _)) h.waited
  | go hm hwaited =>
      refine h.withRun .initial ?_ (h.returned_eq_none_of_runs hm) (.inl hwaited)
      intro err hphase
      cases hphase
  | run hr hrun =>
      exact h.withRun ((h.runs _ _ hr).step hrun) (fun err => step_stopped hrun)
        (h.returned_eq_none hr hrun) (.inr (by simp [hr]))
  | ret hr hphase hm => exact h.ret hr hphase hm
  | wait hall => exact h.withDone .canceled h.sound rfl id (.inr rfl) (fun _ => hall)

end Steps

end Invariant

variable [DecidableEq M] {g : Group M} {ctx : Option ContextError} {now : Time}

theorem reaches_invariant (h : Relation.ReflTransGen Step (withContext ctx now) g) :
    g.Invariant :=
  run_preserves (fun _ _ hinv hstep => hinv.step hstep) h (.initial ctx now)

/-- Once a function has failed fatally, the context of the group is done and each function is
called at most once more.  When `Wait` has returned, no function is running.  Then it has
returned an error with which one of the functions has failed fatally; or none, and the context
of the caller is done or all functions have succeeded. -/
theorem wait_returns (h : Relation.ReflTransGen Step (withContext ctx now) g) :
    (∀ err, g.group.err = some err → g.ctx.isSome) ∧
    (∀ m r, g.runs m = some r → (r.calls.filter Call.contextDone).length ≤ 1) ∧
    (g.waited = true →
      (∀ m r, g.runs m = some r → ∃ how, r.phase = .exited how) ∧
      (∀ err, g.group.err = some err →
        ∃ m r, g.runs m = some r ∧ r.phase = .exited (.fatal err)) ∧
      (g.group.err = none → g.group.canceled = true ∨
        ∀ m r, g.runs m = some r → r.phase = .exited .succeeded)) := by
  have hinv := reaches_invariant h
  have hreturned : ∀ m r, g.waited = true → g.runs m = some r → ∃ how err,
      g.group.returned m = some err ∧ r.phase = .exited how ∧ Returns g.group how err := by
    intro m r hwaited hr
    obtain ⟨err, herr⟩ := Option.ne_none_iff_exists'.mp
      (hinv.waited hwaited m (by simp [hr]))
    obtain ⟨r', how, hr', hphase, hreturns⟩ := hinv.returned m err herr
    rw [hr] at hr'
    cases hr'
    exact ⟨how, err, herr, hphase, hreturns⟩
  refine ⟨?_, fun m r hr => (hinv.runs m r hr).late, fun hwaited => ⟨?_, ?_, ?_⟩⟩
  · intro err herr
    exact hinv.done (ErrGroup.done_iff.mpr (.inr ⟨err, herr⟩))
  · intro m r hr
    obtain ⟨how, -, -, hphase, -⟩ := hreturned m r hwaited hr
    exact ⟨how, hphase⟩
  · intro err herr
    obtain ⟨m, hm⟩ := hinv.sound.of_some err herr
    obtain ⟨r, how, hr, hphase, hreturns⟩ := hinv.returned m _ hm
    cases hreturns with
    | fatal err => exact ⟨m, r, hr, hphase⟩
  · intro hnone
    by_cases hcanceled : g.group.canceled = true
    · exact Or.inl hcanceled
    · right
      intro m r hr
      obtain ⟨how, err, herr, hphase, hreturns⟩ := hreturned m r hwaited hr
      cases hreturns with
      | succeeded => exact hphase
      | fatal e => cases hinv.sound.of_none hnone m _ herr
      | done hdone =>
          obtain htrue | ⟨e, he⟩ := ErrGroup.done_iff.mp hdone
          · exact absurd htrue hcanceled
          · rw [hnone] at he
            cases he

/-- One of two functions fails fatally, which stops the other. -/
theorem stopped_reached :
    ∃ g : Group Bool, Relation.ReflTransGen Step (withContext none 0) g ∧ g.waited = true ∧
      g.group.err = some (.text "invalid") :=
  ⟨_, Relation.ReflTransGen.refl
    |>.tail (.go (m := true) rfl rfl)
    |>.tail (.go (m := false) rfl rfl)
    |>.tail (.run (m := true) rfl (.returned (some (.fatalError (.text "invalid"))) rfl))
    |>.tail (.ret (m := true) rfl rfl rfl)
    |>.tail (.run (m := false) rfl (.returned (some (.text "failed")) rfl))
    |>.tail (.run (m := false) rfl (.finish rfl))
    |>.tail (.ret (m := false) rfl rfl rfl)
    |>.tail (.wait (by
      intro m _
      cases m with
      | true => exact Option.some_ne_none _
      | false => exact Option.some_ne_none _)), rfl, rfl⟩

theorem wait_returns_stopped :
    ∃ g : Group Bool, g.group.err = some (.text "invalid") ∧ g.ctx.isSome ∧
      (∀ m r, g.runs m = some r → ∃ how, r.phase = .exited how) ∧
      ∃ m r, g.runs m = some r ∧ r.phase = .exited (.fatal (.text "invalid")) := by
  obtain ⟨g, hreached, hwaited, herr⟩ := stopped_reached
  obtain ⟨hctx, -, hmain⟩ := wait_returns hreached
  obtain ⟨hexited, hfatal, -⟩ := hmain hwaited
  exact ⟨g, herr, hctx _ herr, hexited, hfatal _ herr⟩

end Group

end Runkit.Supervisor
