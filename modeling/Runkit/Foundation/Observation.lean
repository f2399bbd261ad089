/-
  Foundation/Observation.lean --- what a transaction program can emit, and when.

      Emits P p           from the text of `p` alone, every observation that it
                          can emit satisfies `P`
      Notes Φ p s         whenever a run of `p` from `s` emits an observation,
                          `Φ` holds of it and of the session at that moment

  `Notes` composes along the structure of a program, and a transaction that has
  emitted an observation keeps what `Φ` says about the locks that it holds
  (`Visits.noted`).
-/
import Runkit.Foundation.Program
import Runkit.Foundation.Run

set_option autoImplicit false

namespace Runkit.Foundation

namespace Tx

variable {K : Type} {V : K → Type} {E ε α β : Type}

/-! ## From the text of a program -/

/-- Every observation that the program can emit satisfies `P`. -/
def Emits (P : E → Prop) : Tx K V E α → Prop
  | .pure _ => True
  | .fail => True
  | .lock _ next => ∀ row, Emits P (next row)
  | .tryLock _ _ next => ∀ row, Emits P (next row)
  | .peek _ next => ∀ row, Emits P (next row)
  | .write _ _ next => Emits P next
  | .sweep _ _ next => Emits P next
  | .emit e next => P e ∧ Emits P next

section Emits

variable {P : E → Prop}

theorem Emits.bind {p : Tx K V E α} {rest : α → Tx K V E β}
    (hp : Emits P p) (hrest : ∀ a, Emits P (rest a)) : Emits P (p.bind rest) := by
  induction p with
  | pure a => exact hrest a
  | fail => exact True.intro
  | lock k next ih => exact fun row => ih row (hp row)
  | tryLock k visible next ih => exact fun row => ih row (hp row)
  | peek k next ih => exact fun row => ih row (hp row)
  | write k row next ih => exact ih hp
  | sweep matching update next ih => exact ih hp
  | emit e next ih => exact ⟨hp.1, ih hp.2⟩

theorem Emits.except_bind {p : Program K V E ε α} {rest : α → Program K V E ε β}
    (hp : Emits P p.run) (hrest : ∀ a, Emits P (rest a).run) : Emits P (p >>= rest).run := by
  apply Emits.bind hp
  intro a
  cases a with
  | ok a => exact hrest a
  | error e => exact True.intro

@[simp] theorem emits_ok {a : α} : Emits P (Pure.pure a : Program K V E ε α).run := True.intro

@[simp] theorem emits_throw {e : ε} : Emits P (throw e : Program K V E ε α).run := True.intro

@[simp] theorem emits_abort : Emits P (Program.abort : Program K V E ε α).run := True.intro

@[simp] theorem emits_lock {k : K} : Emits P (Program.lock k : Program K V E ε _).run :=
  fun _ => True.intro

@[simp] theorem emits_tryLock {k : K} {visible : V k → Bool} :
    Emits P (Program.tryLock k visible : Program K V E ε _).run :=
  fun _ => True.intro

@[simp] theorem emits_peek {k : K} : Emits P (Program.peek k : Program K V E ε _).run :=
  fun _ => True.intro

@[simp] theorem emits_write {k : K} {row : V k} :
    Emits P (Program.write k row : Program K V E ε _).run :=
  True.intro

@[simp] theorem emits_sweep {matching : ∀ k, V k → Bool} {update : ∀ k, V k → V k} :
    Emits P (Program.sweep matching update : Program K V E ε _).run :=
  True.intro

end Emits

variable [DecidableEq K] {rely : Rely K V} {rows : ∀ k, V k}

/-- What is left of a program emits nothing that the program does not. -/
theorem Step.emits {P : E → Prop} {c c' : Tx K V E α × Session K V E}
    (h : Step rely rows c c') (hc : Emits P c.1) : Emits P c'.1 := by
  cases h with
  | emit => exact hc.2
  | lock => exact hc _
  | hit _ => exact hc _
  | miss => exact hc _
  | peek _ _ => exact hc _
  | write _ => exact hc
  | sweep _ _ => exact hc

theorem Visits.emits {P : E → Prop} {p q : Tx K V E α} {s t : Session K V E}
    (h : Visits rely rows p s q t) (hp : Emits P p) : Emits P q := by
  have hstep : ∀ c c' : Tx K V E α × Session K V E, Emits P c.1 → Step rely rows c c' →
      Emits P c'.1 := fun _ _ hc hstep => hstep.emits hc
  exact run_preserves hstep h hp

/-! ## At the moment of the observation -/

section Notes

variable {Φ : E → Session K V E → Prop}

/-- Whenever a run of the program emits an observation, `Φ` holds of it and of the
session at that moment. -/
def Notes (rely : Rely K V) (rows : ∀ k, V k) (Φ : E → Session K V E → Prop)
    (p : Tx K V E α) (s : Session K V E) : Prop :=
  ∀ e next t, Visits rely rows p s (.emit e next) t → Φ e t

theorem Notes.of_emits {P : E → Prop} {p : Tx K V E α} {s : Session K V E}
    (hp : Emits P p) (hP : ∀ e t, P e → Φ e t) : Notes rely rows Φ p s := by
  intro e next t hvisits
  exact hP e t (hvisits.emits hp).1

theorem Notes.bind {p : Tx K V E α} {rest : α → Tx K V E β} {s : Session K V E}
    (hp : Notes rely rows Φ p s)
    (hrest : ∀ a t, Runs rely rows p s a t → Notes rely rows Φ (rest a) t) :
    Notes rely rows Φ (p.bind rest) s := by
  intro e next t hvisits
  obtain ⟨p', hp', hfirst⟩ | ⟨a, u, hruns, hvisits⟩ := visits_bind hvisits
  · -- The first part is about to emit, or it has just returned.
    cases p' with
    | pure a => exact hrest a t hfirst e next t (hp' ▸ .refl)
    | emit e' next' =>
        cases hp'
        exact hp e next' t hfirst
    | _ => cases hp'
  · exact hrest a u hruns e next t hvisits

theorem Notes.except_bind {p : Program K V E ε α} {rest : α → Program K V E ε β}
    {s : Session K V E} (hp : Notes rely rows Φ p.run s)
    (hrest : ∀ a t, Runs rely rows p.run s (.ok a) t → Notes rely rows Φ (rest a).run t) :
    Notes rely rows Φ (p >>= rest).run s := by
  apply Notes.bind hp
  intro a t hruns
  cases a with
  | ok a => exact hrest a t hruns
  | error e => exact .of_emits (P := fun _ => False) True.intro (by simp)

theorem Notes.emit_bind {e : E} {rest : Unit → Program K V E ε β} {s : Session K V E}
    (he : Φ e s) (hrest : Notes rely rows Φ (rest ()).run (s.note e)) :
    Notes rely rows Φ (Program.emit e >>= rest).run s := by
  intro e' next t hvisits
  obtain heq | ⟨c, hstep, hvisits⟩ := Relation.ReflTransGen.cases_head hvisits
  · cases heq
    exact he
  · cases hstep
    exact hrest e' next t hvisits

/-- What a transaction has emitted so far satisfies `Φ` in its present session, if
`Φ` is about the locks that it holds. -/
theorem Visits.noted {p q : Tx K V E α} {s t : Session K V E}
    (h : Visits rely rows p s q t) (hp : Notes rely rows Φ p s)
    (hmono : ∀ e u u', Φ e u → (∀ k, u.locks k = true → u'.locks k = true) → Φ e u')
    (hs : ∀ e ∈ s.trace, Φ e s) : ∀ e ∈ t.trace, Φ e t := by
  unfold Visits at h
  generalize hfinish : (q, t) = finish at h
  induction h generalizing q t with
  | refl =>
      cases hfinish
      exact hs
  | @tail mid last hvisits hlast ih =>
      subst hfinish
      obtain ⟨m, u⟩ := mid
      have hold : ∀ e ∈ u.trace, Φ e t := fun e he =>
        hmono e u t (ih rfl e he) (hlast.locks_mono)
      cases hlast with
      | emit =>
          intro e he
          obtain he | he := List.mem_append.mp he
          · exact hold e he
          · rw [List.mem_singleton] at he
            subst he
            exact hmono _ u _ (hp _ _ _ hvisits) fun _ hk => hk
      | _ => exact hold

end Notes

end Tx

end Runkit.Foundation
