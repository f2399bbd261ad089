/-
  Foundation/Log.lean --- append-only logs, and the pieces of a log that are
  delivered to a reader.

  A log is a list of entries with strictly increasing keys, together with the
  first key that is not in use.  A reader is never given the log itself: it is
  given a sequence of pieces, each covering a half-open range of keys.  This
  file fixes the vocabulary for what such a sequence says about the log:

      window key p lo hi l     the entries of `l` in `[lo, hi)` that satisfy `p`
      Contiguous lo hi at ps   the pieces `ps` follow each other from `at`
      reach hi at ps           the key at which the last piece stops

  The one fact everything else rests on is `flatMap_eq_window`: contiguous
  pieces that are each complete are together complete.
-/
import Mathlib.Data.List.Basic
import Mathlib.Order.Basic

set_option autoImplicit false

namespace Runkit.Foundation

variable {α σ : Type}

/-! ## Windows -/

/-- The entries of `l` whose key is in `[lo, hi)` and that satisfy `p`. -/
def window (key : α → Nat) (p : α → Bool) (lo hi : Nat) (l : List α) : List α :=
  l.filter fun a => decide (lo ≤ key a) && decide (key a < hi) && p a

section Window

variable {key : α → Nat} {p : α → Bool} {lo mid hi : Nat} {l : List α}

theorem mem_window_iff {a : α} :
    a ∈ window key p lo hi l ↔ a ∈ l ∧ lo ≤ key a ∧ key a < hi ∧ p a = true := by
  simp [window, and_assoc]

/-- A range that ends no later than it begins holds nothing. -/
theorem window_eq_nil_of_le (h : hi ≤ lo) : window key p lo hi l = [] := by
  refine List.filter_eq_nil_iff.mpr ?_
  intro a _ htest
  simp only [Bool.and_eq_true, decide_eq_true_eq] at htest
  omega

@[simp] theorem window_self : window key p lo lo l = [] :=
  window_eq_nil_of_le (Nat.le_refl lo)

@[simp] theorem window_nil : window key p lo hi [] = [] := rfl

theorem window_append_list (l l' : List α) :
    window key p lo hi (l ++ l') = window key p lo hi l ++ window key p lo hi l' :=
  List.filter_append ..

/-- A window of a list with increasing keys splits at every key inside it. -/
theorem window_split (hsorted : l.Pairwise fun a b => key a < key b)
    (hlo : lo ≤ mid) (hhi : mid ≤ hi) :
    window key p lo hi l = window key p lo mid l ++ window key p mid hi l := by
  induction l with
  | nil => rfl
  | cons a rest ih =>
      rw [List.pairwise_cons] at hsorted
      obtain ⟨hhead, htail⟩ := hsorted
      have ih' := ih htail
      simp only [window, List.filter_cons] at ih' ⊢
      by_cases hmid : mid ≤ key a
      · -- Once an entry is at `mid` or beyond, nothing after it is below `mid`.
        have hnil : rest.filter (fun b =>
            decide (lo ≤ key b) && decide (key b < mid) && p b) = [] := by
          refine List.filter_eq_nil_iff.mpr ?_
          intro b hb htest
          have := hhead b hb
          simp only [Bool.and_eq_true, decide_eq_true_eq] at htest
          omega
        have hbelow : decide (key a < mid) = false := by simp; omega
        have habove : decide (lo ≤ key a) = true := by simp; omega
        rw [hnil, List.nil_append] at ih'
        simp only [hnil, hbelow, habove, hmid, decide_true, Bool.true_and, Bool.false_and,
          Bool.false_eq_true, if_false, List.nil_append, ih']
      · have hbelow : decide (key a < mid) = true := by simp; omega
        have hbelow' : decide (key a < hi) = true := by simp; omega
        have habove : decide (mid ≤ key a) = false := by simpa using hmid
        simp only [hbelow, hbelow', habove, Bool.and_true, Bool.false_and,
          Bool.false_eq_true, if_false]
        split
        · rw [ih', List.cons_append]
        · exact ih'

theorem window_sublist : (window key p lo hi l).Sublist l := List.filter_sublist

theorem window_pairwise {r : α → α → Prop} (h : l.Pairwise r) :
    (window key p lo hi l).Pairwise r :=
  h.sublist window_sublist

/-- Narrowing a window, and the predicate with it. -/
theorem window_window {q : α → Bool} {lo' hi' : Nat} (hlo : lo ≤ lo') (hhi : hi' ≤ hi)
    (himp : ∀ a ∈ l, q a = true → p a = true) :
    window key q lo' hi' (window key p lo hi l) = window key q lo' hi' l := by
  simp only [window, List.filter_filter]
  refine List.filter_congr ?_
  intro a ha
  by_cases hq : q a = true
  · have hp := himp a ha hq
    by_cases h₁ : lo' ≤ key a
    · by_cases h₂ : key a < hi'
      · have h₃ : lo ≤ key a := by omega
        have h₄ : key a < hi := by omega
        simp [hq, hp, h₁, h₂, h₃, h₄]
      · simp [h₂]
    · simp [h₁]
  · simp [hq]

/-- Filtering a window is the window of the conjunction. -/
theorem filter_window {q : α → Bool} :
    (window key p lo hi l).filter q = window key (fun a => p a && q a) lo hi l := by
  simp only [window, List.filter_filter]
  refine List.filter_congr ?_
  intro a _
  cases p a <;> cases q a <;> simp

end Window

/-! ## Logs -/

/-- An append-only sequence of entries with strictly increasing keys.  `next`
is the first key that no entry uses, which is where the log ends. -/
structure Log (α : Type) (key : α → Nat) where
  entries : List α
  next : Nat
  sorted : entries.Pairwise fun a b => key a < key b
  below : ∀ a ∈ entries, key a < next

namespace Log

variable {key : α → Nat}

/-- The log without entries. -/
def empty (α : Type) (key : α → Nat) : Log α key where
  entries := []
  next := 0
  sorted := List.Pairwise.nil
  below := by intro a ha; cases ha

/-- The entries of the log in `[lo, hi)` that satisfy `p`. -/
def read (log : Log α key) (p : α → Bool) (lo hi : Nat) : List α :=
  window key p lo hi log.entries

/-- `later` holds everything that `log` holds, and nothing else below the key
at which `log` ends. -/
def Extends (log later : Log α key) : Prop :=
  log.next ≤ later.next ∧
    ∃ suffix, later.entries = log.entries ++ suffix ∧ ∀ a ∈ suffix, log.next ≤ key a

theorem Extends.refl (log : Log α key) : log.Extends log :=
  ⟨Nat.le_refl _, [], by simp, by intro a ha; cases ha⟩

theorem Extends.trans {a b c : Log α key} (hab : a.Extends b) (hbc : b.Extends c) :
    a.Extends c := by
  obtain ⟨hnext, s, hs, hkeys⟩ := hab
  obtain ⟨hnext', s', hs', hkeys'⟩ := hbc
  refine ⟨Nat.le_trans hnext hnext', s ++ s', by rw [hs', hs, List.append_assoc], ?_⟩
  intro x hx
  rcases List.mem_append.mp hx with hx | hx
  · exact hkeys x hx
  · exact Nat.le_trans hnext (hkeys' x hx)

/-- One of many logs is extended. -/
theorem Extends.update {ι : Type} [DecidableEq ι] {logs : ι → Log α key} {i : ι}
    {later : Log α key} (h : (logs i).Extends later) (j : ι) :
    (logs j).Extends (Function.update logs i later j) := by
  by_cases heq : j = i
  · subst heq
    rwa [Function.update_self]
  · rw [Function.update_of_ne heq]
    exact .refl _

/-- What was read below the end of a log reads the same from every extension
of it. -/
theorem Extends.read_eq {log later : Log α key} (h : log.Extends later)
    {p : α → Bool} {lo hi : Nat} (hhi : hi ≤ log.next) :
    later.read p lo hi = log.read p lo hi := by
  obtain ⟨_, suffix, hentries, hkeys⟩ := h
  have hnil : window key p lo hi suffix = [] := by
    refine List.filter_eq_nil_iff.mpr ?_
    intro a ha htest
    have := hkeys a ha
    simp only [Bool.and_eq_true, decide_eq_true_eq] at htest
    omega
  rw [read, hentries, window_append_list, hnil, List.append_nil, read]

theorem read_split (log : Log α key) {p : α → Bool} {lo mid hi : Nat}
    (hlo : lo ≤ mid) (hhi : mid ≤ hi) :
    log.read p lo hi = log.read p lo mid ++ log.read p mid hi :=
  window_split log.sorted hlo hhi

@[simp] theorem read_self (log : Log α key) (p : α → Bool) (lo : Nat) :
    log.read p lo lo = [] := window_self

theorem read_pairwise (log : Log α key) (p : α → Bool) (lo hi : Nat) :
    (log.read p lo hi).Pairwise fun a b => key a < key b :=
  window_pairwise log.sorted

theorem mem_read_iff {log : Log α key} {p : α → Bool} {lo hi : Nat} {a : α} :
    a ∈ log.read p lo hi ↔ a ∈ log.entries ∧ lo ≤ key a ∧ key a < hi ∧ p a = true :=
  mem_window_iff

/-- The first entry of what is read splits it at the key that follows. -/
theorem read_cons {log : Log α key} {p : α → Bool} {lo hi : Nat} {a : α} {rest : List α}
    (h : log.read p lo hi = a :: rest) :
    log.read p lo (key a + 1) = [a] ∧ log.read p (key a + 1) hi = rest := by
  have hmem : a ∈ log.read p lo hi := by rw [h]; exact List.mem_cons_self
  obtain ⟨-, hlo, hhi, -⟩ := mem_read_iff.mp hmem
  have hsplit := log.read_split (p := p) (show lo ≤ key a + 1 by omega)
    (show key a + 1 ≤ hi by omega)
  have hpairwise := log.read_pairwise p lo (key a + 1)
  rw [h] at hsplit
  cases hfront : log.read p lo (key a + 1) with
  | nil =>
      rw [hfront, List.nil_append] at hsplit
      have hback : a ∈ log.read p (key a + 1) hi := by rw [← hsplit]; exact List.mem_cons_self
      have := (mem_read_iff.mp hback).2.1
      omega
  | cons b front =>
      rw [hfront, List.cons_append, List.cons.injEq] at hsplit
      obtain ⟨rfl, htail⟩ := hsplit
      rw [hfront, List.pairwise_cons] at hpairwise
      -- Entries in front of `key a + 1` are no later than `a`.
      have hnil : front = [] := by
        refine List.eq_nil_iff_forall_not_mem.mpr ?_
        intro b hb
        have hbelow : b ∈ log.read p lo (key a + 1) := by
          rw [hfront]
          exact List.mem_cons_of_mem _ hb
        have := (mem_read_iff.mp hbelow).2.2.1
        have := hpairwise.1 b hb
        omega
      subst hnil
      exact ⟨rfl, htail.symm⟩

end Log

/-! ## Pieces of a log

`σ` is whatever carries a piece: `lo` and `hi` bound the range it covers and
`items` are the entries it holds. -/

section Pieces

variable (lo hi : σ → Nat) (items : σ → List α)

/-- The pieces follow each other without a gap or an overlap, the first one
beginning at `start`. -/
def Contiguous : Nat → List σ → Prop
  | _, [] => True
  | start, piece :: rest =>
      lo piece = start ∧ lo piece ≤ hi piece ∧ Contiguous (hi piece) rest

/-- Where a sequence of pieces that begins at `start` stops. -/
def reach : Nat → List σ → Nat
  | start, [] => start
  | _, piece :: rest => reach (hi piece) rest

variable {lo hi items}

@[simp] theorem reach_nil (start : Nat) : reach hi start ([] : List σ) = start := rfl

@[simp] theorem reach_cons (start : Nat) (piece : σ) (rest : List σ) :
    reach hi start (piece :: rest) = reach hi (hi piece) rest := rfl

theorem reach_append (start : Nat) (front back : List σ) :
    reach hi start (front ++ back) = reach hi (reach hi start front) back := by
  induction front generalizing start with
  | nil => rfl
  | cons piece rest ih => exact ih (hi piece)

@[simp] theorem reach_concat (start : Nat) (front : List σ) (piece : σ) :
    reach hi start (front ++ [piece]) = hi piece := by
  rw [reach_append]; rfl

theorem contiguous_append {start : Nat} {front back : List σ} :
    Contiguous lo hi start (front ++ back) ↔
      Contiguous lo hi start front ∧ Contiguous lo hi (reach hi start front) back := by
  induction front generalizing start with
  | nil => simp [Contiguous]
  | cons piece rest ih =>
      simp only [List.cons_append, Contiguous, ih, reach_cons, and_assoc]

theorem contiguous_concat {start : Nat} {front : List σ} {piece : σ} :
    Contiguous lo hi start (front ++ [piece]) ↔
      Contiguous lo hi start front ∧ lo piece = reach hi start front ∧ lo piece ≤ hi piece := by
  rw [contiguous_append]
  simp [Contiguous]

theorem start_le_reach {start : Nat} {pieces : List σ}
    (h : Contiguous lo hi start pieces) : start ≤ reach hi start pieces := by
  induction pieces generalizing start with
  | nil => exact Nat.le_refl _
  | cons piece rest ih =>
      obtain ⟨hlo, hle, hrest⟩ := h
      have := ih hrest
      rw [reach_cons]
      omega

/-- Pieces that follow each other can be followed by one that begins where they stop. -/
theorem exists_contiguous_concat {pieces : List σ} {piece : σ}
    (h : ∃ start, Contiguous lo hi start pieces)
    (hlast : ∀ last, pieces.getLast?.map hi = some last → lo piece = last)
    (hle : lo piece ≤ hi piece) : ∃ start, Contiguous lo hi start (pieces ++ [piece]) := by
  obtain ⟨start, hpieces⟩ := h
  rcases List.eq_nil_or_concat pieces with rfl | ⟨front, last, rfl⟩
  · exact ⟨lo piece, rfl, hle, trivial⟩
  · refine ⟨start, contiguous_concat.mpr ⟨hpieces, ?_, hle⟩⟩
    rw [List.concat_eq_append, reach_concat]
    exact hlast _ (by simp)

/-- A piece begins where the one before it stops. -/
theorem lo_eq_of_contiguous {start last : Nat} {front back : List σ} {piece : σ}
    (h : Contiguous lo hi start (front ++ piece :: back))
    (hlast : front.getLast?.map hi = some last) : lo piece = last := by
  obtain ⟨-, hpiece, -⟩ := contiguous_append.mp h
  rcases List.eq_nil_or_concat front with rfl | ⟨init, before, rfl⟩
  · cases hlast
  · rw [List.concat_eq_append, reach_concat] at hpiece
    rw [List.concat_eq_append, List.getLast?_concat, Option.map_some, Option.some.injEq] at hlast
    rw [hpiece, hlast]

/-- Pieces that stand for others, and cover what those cover, are contiguous if those are. -/
theorem contiguous_map {τ : Type} {lo' hi' : τ → Nat} {f : σ → τ}
    (hlo : ∀ piece, lo' (f piece) = lo piece) (hhi : ∀ piece, hi' (f piece) = hi piece)
    {start : Nat} {pieces : List σ} :
    Contiguous lo' hi' start (pieces.map f) ↔ Contiguous lo hi start pieces := by
  induction pieces generalizing start with
  | nil => exact Iff.rfl
  | cons piece rest ih => simp only [List.map_cons, Contiguous, hlo, hhi, ih]

/-- They also stop where those stop. -/
theorem reach_map {τ : Type} {hi' : τ → Nat} {f : σ → τ} (hhi : ∀ piece, hi' (f piece) = hi piece)
    (start : Nat) (pieces : List σ) : reach hi' start (pieces.map f) = reach hi start pieces := by
  induction pieces generalizing start with
  | nil => rfl
  | cons piece rest ih => rw [List.map_cons, reach_cons, reach_cons, ih, hhi]

/-- Contiguous pieces that each hold exactly their own window of a sorted list
together hold exactly the window that they cover. -/
theorem flatMap_eq_window {key : α → Nat} {p : α → Bool} {l : List α}
    (hsorted : l.Pairwise fun a b => key a < key b) {start : Nat} {pieces : List σ}
    (hcontiguous : Contiguous lo hi start pieces)
    (hcomplete : ∀ piece ∈ pieces,
      items piece = window key p (lo piece) (hi piece) l) :
    pieces.flatMap items = window key p start (reach hi start pieces) l := by
  induction pieces generalizing start with
  | nil => simp
  | cons piece rest ih =>
      obtain ⟨hlo, hle, hrest⟩ := hcontiguous
      have htail := ih hrest fun q hq => hcomplete q (List.mem_cons_of_mem _ hq)
      have hhead := hcomplete piece List.mem_cons_self
      have hreach := start_le_reach hrest
      rw [List.flatMap_cons, htail, hhead, hlo, reach_cons]
      exact (window_split hsorted (by omega) hreach).symm

end Pieces

end Runkit.Foundation
