/-
  Foundation/Program.lean --- transaction programs that report errors.

  A statement of a program may fail in two ways.  It may *abort* the
  transaction, which can then only be rolled back, or it may *throw* an error
  that the rest of the program can still react to.  Programs of the second kind
  are written in `ExceptT`.  The lemmas here execute such a program
  symbolically, one statement at a time.
-/
import Runkit.Foundation.Transaction

set_option autoImplicit false

namespace Runkit.Foundation

/-- A transaction program that may throw an `ε`. -/
abbrev Program (K : Type) (V : K → Type) (E ε α : Type) := ExceptT ε (Tx K V E) α

namespace Program

variable {K : Type} {V : K → Type} {E ε α β : Type}

/-- Lock the row at `k`, waiting for it if necessary, and read it. -/
def lock (k : K) : Program K V E ε (V k) := ExceptT.lift (Tx.lock k Tx.pure)

/-- Lock and read the row at `k`, unless it is not visible or is locked by
another transaction. -/
def tryLock (k : K) (visible : V k → Bool) : Program K V E ε (Option (V k)) :=
  ExceptT.lift (Tx.tryLock k visible Tx.pure)

/-- Read the row at `k` without locking it. -/
def peek (k : K) : Program K V E ε (V k) := ExceptT.lift (Tx.peek k Tx.pure)

/-- Write the row at `k`, which must be locked. -/
def write (k : K) (row : V k) : Program K V E ε Unit :=
  ExceptT.lift (Tx.write k row (Tx.pure ()))

/-- Lock and update every row that satisfies `matching`. -/
def sweep (matching : ∀ k, V k → Bool) (update : ∀ k, V k → V k) : Program K V E ε Unit :=
  ExceptT.lift (Tx.sweep matching update (Tx.pure ()))

/-- Record an observation. -/
def emit (e : E) : Program K V E ε Unit := ExceptT.lift (Tx.emit e (Tx.pure ()))

/-- Fail in such a way that the transaction can only be rolled back. -/
def abort : Program K V E ε α := ExceptT.lift Tx.fail

end Program

namespace Tx

variable {K : Type} [DecidableEq K] {V : K → Type} {E ε α β : Type}
variable {rely : Rely K V} {rows : ∀ k, V k}

/-! ## Symbolic execution -/

@[simp] theorem runs_ok {a : α} {r : Except ε α} {s t : Session K V E} :
    Runs rely rows (Pure.pure a : Program K V E ε α).run s r t ↔ r = .ok a ∧ t = s :=
  runs_pure

@[simp] theorem runs_throw {e : ε} {r : Except ε α} {s t : Session K V E} :
    Runs rely rows (throw e : Program K V E ε α).run s r t ↔ r = .error e ∧ t = s :=
  runs_pure

@[simp] theorem runs_abort {r : Except ε α} {s t : Session K V E} :
    Runs rely rows (Program.abort : Program K V E ε α).run s r t ↔ False :=
  runs_fail

/-- A composition of programs stops at the first error. -/
theorem runs_except_bind {p : Program K V E ε α}
    {rest : α → Program K V E ε β} {r : Except ε β} {s u : Session K V E} :
    Runs rely rows (p >>= rest).run s r u ↔
      (∃ e, r = .error e ∧ Runs rely rows p.run s (.error e) u) ∨
      ∃ a t, Runs rely rows p.run s (.ok a) t ∧ Runs rely rows (rest a).run t r u := by
  have hbind : (p >>= rest).run = p.run >>= ExceptT.bindCont rest := rfl
  rw [hbind, runs_bind]
  constructor
  · intro h
    obtain ⟨x, t, hp, hrest⟩ := h
    cases x with
    | error e =>
        obtain ⟨rfl, rfl⟩ := runs_pure.mp hrest
        exact Or.inl ⟨e, rfl, hp⟩
    | ok a => exact Or.inr ⟨a, t, hp, hrest⟩
  · intro h
    obtain ⟨e, rfl, hp⟩ | ⟨a, t, hp, hrest⟩ := h
    · exact ⟨.error e, u, hp, runs_pure.mpr ⟨rfl, rfl⟩⟩
    · exact ⟨.ok a, t, hp, hrest⟩

/-- A composition that has returned a value has not met an error. -/
theorem runs_ok_bind {p : Program K V E ε α} {rest : α → Program K V E ε β} {b : β}
    {s u : Session K V E} (h : Runs rely rows (p >>= rest).run s (.ok b) u) :
    ∃ a t, Runs rely rows p.run s (.ok a) t ∧ Runs rely rows (rest a).run t (.ok b) u := by
  obtain ⟨e, herror, -⟩ | hok := runs_except_bind.mp h
  · cases herror
  · exact hok

/-- A program whose result is wrapped up in what is returned. -/
theorem runs_ok_return {p : Program K V E ε α} {f : α → β} {b : β} {s t : Session K V E}
    (h : Runs rely rows (p >>= fun a => Pure.pure (f a)).run s (.ok b) t) :
    ∃ a, b = f a ∧ Runs rely rows p.run s (.ok a) t := by
  obtain ⟨a, u, hp, hdone⟩ := runs_ok_bind h
  obtain ⟨hr, rfl⟩ := runs_ok.mp hdone
  exact ⟨a, Except.ok.inj hr, hp⟩

section Statements

variable {r : Except ε β} {s t : Session K V E}

@[simp] theorem runs_abort_bind {rest : α → Program K V E ε β} :
    Runs rely rows (Program.abort >>= rest).run s r t ↔ False :=
  runs_fail

@[simp] theorem runs_throw_bind {e : ε} {rest : α → Program K V E ε β} :
    Runs rely rows ((throw e : Program K V E ε α) >>= rest).run s r t ↔
      r = .error e ∧ t = s :=
  runs_pure

@[simp] theorem runs_pure_bind {a : α} {rest : α → Program K V E ε β} :
    Runs rely rows (Pure.pure a >>= rest).run s r t ↔ Runs rely rows (rest a).run s r t :=
  Iff.rfl

@[simp] theorem runs_lock_bind {k : K} {rest : V k → Program K V E ε β} :
    Runs rely rows (Program.lock k >>= rest).run s r t ↔
      Runs rely rows (rest (s.view rows k)).run (s.acquire k) r t :=
  runs_lock

@[simp] theorem runs_tryLock_bind {k : K} {visible : V k → Bool}
    {rest : Option (V k) → Program K V E ε β} :
    Runs rely rows (Program.tryLock k visible >>= rest).run s r t ↔
      (visible (s.view rows k) = true ∧
        Runs rely rows (rest (some (s.view rows k))).run (s.acquire k) r t) ∨
      Runs rely rows (rest none).run s r t :=
  runs_tryLock

@[simp] theorem runs_peek_bind {k : K} {rest : V k → Program K V E ε β} :
    Runs rely rows (Program.peek k >>= rest).run s r t ↔
      ∃ row, rely.allows s.locks k row (rows k) ∧ (s.locks k = true → row = rows k) ∧
        Runs rely rows (rest ((s.pending k).getD row)).run s r t :=
  runs_peek

@[simp] theorem runs_write_bind {k : K} {row : V k} {rest : Unit → Program K V E ε β} :
    Runs rely rows (Program.write k row >>= rest).run s r t ↔
      s.locks k = true ∧ Runs rely rows (rest ()).run (s.put k row) r t :=
  runs_write

@[simp] theorem runs_sweep_bind {matching : ∀ k, V k → Bool} {update : ∀ k, V k → V k}
    {rest : Unit → Program K V E ε β} :
    Runs rely rows (Program.sweep matching update >>= rest).run s r t ↔
      ∃ seen : ∀ k, V k,
        (∀ k, rely.allows s.locks k (seen k) (rows k)) ∧
        (∀ k, (s.sweep seen matching update).locks k = true → seen k = rows k) ∧
        Runs rely rows (rest ()).run (s.sweep seen matching update) r t :=
  runs_sweep

@[simp] theorem runs_emit_bind {e : E} {rest : Unit → Program K V E ε β} :
    Runs rely rows (Program.emit e >>= rest).run s r t ↔
      Runs rely rows (rest ()).run (s.note e) r t :=
  runs_emit

end Statements

section LastStatement

variable {s t : Session K V E}

@[simp] theorem runs_write_last {k : K} {row : V k} {r : Except ε Unit} :
    Runs rely rows (Program.write k row : Program K V E ε Unit).run s r t ↔
      s.locks k = true ∧ r = .ok () ∧ t = s.put k row :=
  runs_write.trans (and_congr_right fun _ => runs_pure)

@[simp] theorem runs_sweep_last {matching : ∀ k, V k → Bool} {update : ∀ k, V k → V k}
    {r : Except ε Unit} :
    Runs rely rows (Program.sweep matching update : Program K V E ε Unit).run s r t ↔
      ∃ seen : ∀ k, V k,
        (∀ k, rely.allows s.locks k (seen k) (rows k)) ∧
        (∀ k, (s.sweep seen matching update).locks k = true → seen k = rows k) ∧
        r = .ok () ∧ t = s.sweep seen matching update :=
  runs_sweep.trans (exists_congr fun _ => and_congr_right fun _ =>
    and_congr_right fun _ => runs_pure)

end LastStatement

/-! ## Inserting several rows -/

section InsertAll

variable {ι : Type} (key : ι → K) (row : ∀ i, V (key i))

/-- The rows after one has been inserted for each of the given items. -/
def insertAll : List ι → (∀ k, V k) → ∀ k, V k
  | [], rows => rows
  | i :: rest, rows => insertAll rest (Function.update rows (key i) (row i))

variable {key row}

theorem insertAll_of_not_mem {items : List ι} {k : K} {rows : ∀ k, V k}
    (hk : ∀ i ∈ items, k ≠ key i) : insertAll key row items rows k = rows k := by
  induction items generalizing rows with
  | nil => rfl
  | cons i rest ih =>
      rw [insertAll, ih (fun j hj => hk j (List.mem_cons_of_mem i hj)),
        Function.update_of_ne (hk i List.mem_cons_self)]

/-- What is at a key after the insertion depends on nothing but what was there
before. -/
theorem insertAll_congr {items : List ι} {k : K} {rows rows' : ∀ k, V k}
    (hrow : rows k = rows' k) :
    insertAll key row items rows k = insertAll key row items rows' k := by
  induction items generalizing rows rows' with
  | nil => exact hrow
  | cons i rest ih =>
      apply ih
      by_cases hk : k = key i
      · subst hk
        rw [Function.update_self, Function.update_self]
      · rw [Function.update_of_ne hk, Function.update_of_ne hk, hrow]

theorem insertAll_of_mem {items : List ι} {i : ι} {rows : ∀ k, V k} (hi : i ∈ items)
    (hdistinct : (items.map key).Nodup) : insertAll key row items rows (key i) = row i := by
  induction items generalizing rows with
  | nil => cases hi
  | cons j rest ih =>
      rw [List.map_cons, List.nodup_cons] at hdistinct
      obtain rfl | hi := List.mem_cons.mp hi
      · rw [insertAll, insertAll_of_not_mem]
        · simp
        · intro j hj heq
          exact hdistinct.1 (heq ▸ List.mem_map_of_mem hj)
      · exact ih hi hdistinct.2

end InsertAll

end Tx

end Runkit.Foundation
