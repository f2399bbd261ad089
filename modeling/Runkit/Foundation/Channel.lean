/-
  Foundation/Channel.lean --- bounded channels, and loops over a set that changes.

  A send never blocks here: it is the `select` with a `default` case of the code
  that is modelled, so a value that does not fit is reported and not sent.  A
  channel has room for at least one value, which is why a value that does not fit
  leaves the channel with something to receive (`trySend_full`).
-/
import Mathlib.Data.List.Nodup

set_option autoImplicit false

namespace Runkit.Foundation

variable {α ι : Type}

/-- A buffered channel. -/
structure Channel (α : Type) where
  capacity : Nat
  buffer : List α
  closed : Bool
  positive : 0 < capacity

/-- What a send that does not block comes to. -/
inductive SendResult (α : Type) where
  | sent (ch : Channel α)
  | full
  /-- The channel is closed. -/
  | panics

/-- What receiving from a channel comes to. -/
inductive Received (α : Type) where
  | value (a : α) (ch : Channel α)
  | closed
  | blocks

namespace Channel

/-- An open channel that holds the given values. -/
def make (capacity : Nat) (buffer : List α) (positive : 0 < capacity) : Channel α where
  capacity := capacity
  buffer := buffer
  closed := false
  positive := positive

/-- Send a value, unless the channel is full. -/
def trySend (ch : Channel α) (a : α) : SendResult α :=
  if ch.closed then .panics
  else if ch.buffer.length < ch.capacity then .sent { ch with buffer := ch.buffer ++ [a] }
  else .full

/-- Receive the oldest value.  What a closed channel holds can still be received. -/
def receive (ch : Channel α) : Received α :=
  match ch.buffer with
  | a :: rest => .value a { ch with buffer := rest }
  | [] => if ch.closed then .closed else .blocks

/-- The channel once it has been closed. -/
def close (ch : Channel α) : Channel α := { ch with closed := true }

@[simp] theorem make_closed {capacity : Nat} {buffer : List α} {positive : 0 < capacity} :
    (make capacity buffer positive).closed = false := rfl

@[simp] theorem make_buffer {capacity : Nat} {buffer : List α} {positive : 0 < capacity} :
    (make capacity buffer positive).buffer = buffer := rfl

@[simp] theorem close_closed (ch : Channel α) : ch.close.closed = true := rfl

@[simp] theorem close_buffer (ch : Channel α) : ch.close.buffer = ch.buffer := rfl

variable {ch ch' : Channel α} {a : α}

theorem trySend_sent (h : ch.trySend a = .sent ch') :
    ch.closed = false ∧ ch'.closed = false ∧ ch'.buffer = ch.buffer ++ [a] := by
  rw [trySend] at h
  split at h
  · cases h
  · rename_i hopen
    split at h
    · cases h
      exact ⟨by simpa using hopen, by simpa using hopen, rfl⟩
    · cases h

theorem trySend_full (h : ch.trySend a = .full) : ch.closed = false ∧ ch.buffer ≠ [] := by
  rw [trySend] at h
  split at h
  · cases h
  · rename_i hopen
    split at h
    · cases h
    · rename_i hroom
      refine ⟨by simpa using hopen, ?_⟩
      intro hnil
      rw [hnil] at hroom
      exact hroom ch.positive

/-- A send panics if, and only if, the channel is closed. -/
theorem trySend_panics : ch.trySend a = .panics ↔ ch.closed = true := by
  rw [trySend]
  split
  · simpa
  · rename_i hopen
    split <;> simp [hopen]

theorem receive_of_cons {rest : List α} (h : ch.buffer = a :: rest) :
    ch.receive = .value a { ch with buffer := rest } := by
  rw [receive, h]

theorem receive_of_nil (h : ch.buffer = []) (hclosed : ch.closed = true) :
    ch.receive = .closed := by
  rw [receive, h]
  exact if_pos hclosed

theorem receive_value (h : ch.receive = .value a ch') :
    ch.buffer = a :: ch'.buffer ∧ ch'.closed = ch.closed := by
  rw [receive] at h
  split at h
  · rename_i first rest hbuffer
    cases h
    exact ⟨hbuffer, rfl⟩
  · split at h <;> cases h

theorem receive_closed (h : ch.receive = .closed) : ch.buffer = [] ∧ ch.closed = true := by
  rw [receive] at h
  split at h
  · cases h
  · rename_i hbuffer
    split at h
    · rename_i hclosed
      exact ⟨hbuffer, hclosed⟩
    · cases h

theorem receive_blocks (h : ch.receive = .blocks) : ch.buffer = [] ∧ ch.closed = false := by
  rw [receive] at h
  split at h
  · cases h
  · rename_i hbuffer
    split at h
    · cases h
    · rename_i hopen
      exact ⟨hbuffer, by simpa using hopen⟩

end Channel

/-! ## Loops over a set

A loop over a set takes its elements in some order, each one once. -/

/-- `rest` are the elements of the set, in some order. -/
structure Enumerates (member : ι → Prop) (rest : List ι) : Prop where
  nodup : rest.Nodup
  mem_iff : ∀ i, i ∈ rest ↔ member i

end Runkit.Foundation
