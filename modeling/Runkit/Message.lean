/-
  Message.lean --- identifiers, messages and envelopes.

  A Dogma message is identified with its packed form, a type ID and its bytes:
  packing and unpacking are inverse to each other wherever unpacking succeeds,
  so the development never needs the unpacked value.  Whether a message can be
  unpacked is decided by the application's types and is therefore a parameter
  of the code that unpacks it.
-/
import Mathlib.Algebra.Order.Ring.Int
import Mathlib.Data.Finset.Basic

set_option autoImplicit false

namespace Runkit

/-- A UUID, as its two 64-bit halves. -/
structure UUID where
  upper : UInt64
  lower : UInt64
  deriving DecidableEq, Repr, Inhabited

/-- The UUID with the given lower half, which is how UUIDs are written in sample runs. -/
def uuid (n : UInt64) : UUID := { upper := 0, lower := n }

/-- The lower-case hexadecimal digits of a number, most significant first. -/
def hexDigits (n : UInt64) : List Char :=
  (List.range 16).map fun i => Nat.digitChar (n.toNat / 16 ^ (15 - i) % 16)

/-- `AsString`: the canonical text of a UUID. -/
def UUID.asString (id : UUID) : String :=
  let upper := hexDigits id.upper
  let lower := hexDigits id.lower
  String.ofList
    (upper.take 8 ++ '-' :: (upper.drop 8).take 4 ++ '-' :: upper.drop 12 ++
      '-' :: lower.take 4 ++ '-' :: lower.drop 4)

/-- Numbers with the same last digits have the same remainder. -/
theorem mod_pow_eq_of_digits {b n m k : Nat}
    (h : ∀ i < k, n / b ^ i % b = m / b ^ i % b) : n % b ^ k = m % b ^ k := by
  induction k with
  | zero => rw [Nat.pow_zero, Nat.mod_one, Nat.mod_one]
  | succ k ih =>
      have hlow := ih fun i hi => h i (by omega)
      rw [Nat.mod_pow_succ, Nat.mod_pow_succ, hlow, h k (by omega)]

theorem digitChar_inj {a b : Nat} (ha : a < 16) (hb : b < 16)
    (h : Nat.digitChar a = Nat.digitChar b) : a = b := by
  have hall : ∀ x y : Fin 16, Nat.digitChar x = Nat.digitChar y → x = y := by decide
  exact congrArg Fin.val (hall ⟨a, ha⟩ ⟨b, hb⟩ h)

theorem hexDigits_length (n : UInt64) : (hexDigits n).length = 16 := by
  simp [hexDigits]

theorem hexDigits_injective : Function.Injective hexDigits := by
  intro n m h
  have hdigits : ∀ i < 16, n.toNat / 16 ^ i % 16 = m.toNat / 16 ^ i % 16 := by
    intro i hi
    have hchar := List.map_inj_left.mp h (15 - i) (by simp; omega)
    rw [show 15 - (15 - i) = i by omega] at hchar
    exact digitChar_inj (Nat.mod_lt _ (by decide)) (Nat.mod_lt _ (by decide)) hchar
  have hn : n.toNat < 16 ^ 16 := n.toNat_lt
  have hm : m.toNat < 16 ^ 16 := m.toNat_lt
  have heq := mod_pow_eq_of_digits hdigits
  rw [Nat.mod_eq_of_lt hn, Nat.mod_eq_of_lt hm] at heq
  exact UInt64.toNat_inj.mp heq

/-- A UUID is known by its text. -/
theorem UUID.asString_injective : Function.Injective UUID.asString := by
  intro a b h
  have hupper := hexDigits_length a.upper
  have hupper' := hexDigits_length b.upper
  have hlower := hexDigits_length a.lower
  have hlower' := hexDigits_length b.lower
  -- The groups of digits are as long in one text as in the other.
  have hlist := String.ofList_injective h
  simp only [List.append_assoc, List.cons_append] at hlist
  obtain ⟨h₁, hlist⟩ := List.append_inj hlist (by simp [hupper, hupper'])
  obtain ⟨h₂, hlist⟩ := List.append_inj (List.cons.inj hlist).2 (by simp [hupper, hupper'])
  obtain ⟨h₃, hlist⟩ := List.append_inj (List.cons.inj hlist).2 (by simp [hupper, hupper'])
  obtain ⟨h₄, hlist⟩ := List.append_inj (List.cons.inj hlist).2 (by simp [hlower, hlower'])
  have h₅ := (List.cons.inj hlist).2
  have hu : hexDigits a.upper = hexDigits b.upper := by
    rw [← List.take_append_drop 8 (hexDigits a.upper),
      ← List.take_append_drop 8 (hexDigits b.upper), h₁,
      ← List.take_append_drop 4 ((hexDigits a.upper).drop 8),
      ← List.take_append_drop 4 ((hexDigits b.upper).drop 8), h₂,
      List.drop_drop, List.drop_drop, h₃]
  have hl : hexDigits a.lower = hexDigits b.lower := by
    rw [← List.take_append_drop 4 (hexDigits a.lower),
      ← List.take_append_drop 4 (hexDigits b.lower), h₄, h₅]
  cases a
  cases b
  rw [UUID.mk.injEq]
  exact ⟨hexDigits_injective hu, hexDigits_injective hl⟩

abbrev Bytes := List UInt8

/-- The bytes of a number, most significant first. -/
def bigEndian (n : UInt64) : Bytes :=
  (List.range 8).map fun i => UInt8.ofNat (n.toNat / 256 ^ (7 - i))

/-- `CopyBytes`: the 16 bytes of a UUID. -/
def UUID.bytes (id : UUID) : Bytes := bigEndian id.upper ++ bigEndian id.lower

/-- A point in time, in nanoseconds.  The database keeps times in microseconds, those of its
columns as well as those that queries are passed.  That they are rounded there is left out:
wherever a time of the database is compared with one of a clock or of a message, the two are
compared as if both were whole microseconds. -/
abbrev Time := Int

/-- A packed command, event or deadline. -/
structure Message where
  typeID : UUID
  data : Bytes
  deriving DecidableEq, Repr, Inhabited

/-- The part of an envelope that is common to all of the messages that one
handler produced while it handled one other message. -/
structure Header where
  correlationID : UUID
  causationID : UUID
  /-- The key of the handler that produced the message. -/
  handlerKey : UUID
  /-- The instance that produced the message, or `""` if there is none. -/
  instanceID : String
  deriving DecidableEq, Repr, Inhabited

/-- The extension that says where in an event stream an event is. -/
structure EventStreamPosition where
  streamID : UUID
  offset : Nat
  deriving DecidableEq, Repr, Inhabited

/-- The part of an envelope that is specific to one message. -/
structure Body where
  messageID : UUID
  message : Message
  scheduledFor : Time := 0
  idempotencyKey : String := ""
  position : Option EventStreamPosition := none
  deriving DecidableEq, Repr, Inhabited

/-- A message together with its meta-data. -/
structure Envelope where
  header : Header
  body : Body
  deriving DecidableEq, Repr, Inhabited

namespace Envelope

/-- The ID of the type of the message in the envelope. -/
def typeID (env : Envelope) : UUID := env.body.message.typeID

/-- The offset of the event in the envelope.  Every envelope in a segment has a
position, so the default is never used there. -/
def offset (env : Envelope) : Nat := (env.body.position.map (·.offset)).getD 0

end Envelope

/-- A set of message types, or `none` for every type. -/
abbrev TypeFilter := Option (Finset UUID)

/-- Whether the filter admits the type. -/
def TypeFilter.has (types : TypeFilter) (typeID : UUID) : Bool :=
  match types with
  | none => true
  | some ids => decide (typeID ∈ ids)

/-- A message to be packed as an effect of another message, with the ID that the
packer generates for it. -/
structure Effect where
  messageID : UUID
  message : Message
  deriving DecidableEq, Repr, Inhabited

/-- `envelope.Packer` of enginekit, which is not part of the repository.  `PackEffects` makes
a packer for the effects of handling the message in `cause`, on behalf of a handler and of one
of its instances (`""` if there is none).  `Seal` returns what that one has packed as a
multi-envelope: one header, and the bodies of the messages.

The operations come first, and then what the engine relies on. -/
structure Packer where
  /-- The header of the multi-envelope that `Seal` returns. -/
  sealedHeader (cause : Envelope) (handlerKey : UUID) (instanceID : String) : Header
  /-- `PackCommand` and `PackEvent`. -/
  packEffect (cause : Envelope) (handlerKey : UUID) (instanceID : String) (effect : Effect) :
    Envelope
  /-- `PackDeadline`, with the option `WithScheduledFor`. -/
  packDeadline (cause : Envelope) (handlerKey : UUID) (instanceID : String) (effect : Effect)
    (t : Time) : Envelope
  /-- An effect belongs to the conversation that its cause belongs to. -/
  correlationID_eq : ∀ cause handlerKey instanceID,
    (sealedHeader cause handlerKey instanceID).correlationID = cause.header.correlationID
  /-- An effect refers to its cause. -/
  causationID_eq : ∀ cause handlerKey instanceID,
    (sealedHeader cause handlerKey instanceID).causationID = cause.body.messageID
  /-- An effect says which handler has produced it. -/
  handlerKey_eq : ∀ cause handlerKey instanceID,
    (sealedHeader cause handlerKey instanceID).handlerKey = handlerKey
  /-- An effect says which instance has produced it. -/
  instanceID_eq : ∀ cause handlerKey instanceID,
    (sealedHeader cause handlerKey instanceID).instanceID = instanceID
  /-- What is packed together has one header. -/
  packEffect_header : ∀ cause handlerKey instanceID effect,
    (packEffect cause handlerKey instanceID effect).header =
      sealedHeader cause handlerKey instanceID
  packDeadline_header : ∀ cause handlerKey instanceID effect t,
    (packDeadline cause handlerKey instanceID effect t).header =
      sealedHeader cause handlerKey instanceID
  /-- The message is packed as it is. -/
  packEffect_message : ∀ cause handlerKey instanceID effect,
    (packEffect cause handlerKey instanceID effect).body.message = effect.message
  /-- It is packed under the ID that has been generated for it. -/
  packEffect_messageID : ∀ cause handlerKey instanceID effect,
    (packEffect cause handlerKey instanceID effect).body.messageID = effect.messageID
  packDeadline_messageID : ∀ cause handlerKey instanceID effect t,
    (packDeadline cause handlerKey instanceID effect t).body.messageID = effect.messageID
  /-- There is no idempotency key without the option `WithIdempotencyKey`, which only
  `Engine.ExecuteCommand` uses. -/
  packEffect_idempotencyKey : ∀ cause handlerKey instanceID effect,
    (packEffect cause handlerKey instanceID effect).body.idempotencyKey = ""

attribute [simp] Packer.correlationID_eq Packer.causationID_eq Packer.handlerKey_eq
  Packer.instanceID_eq Packer.packEffect_header Packer.packDeadline_header
  Packer.packEffect_message Packer.packEffect_messageID Packer.packDeadline_messageID
  Packer.packEffect_idempotencyKey

/-- A packer that sets what the engine relies on and nothing else, for sample runs. -/
def plainPacker : Packer where
  sealedHeader cause handlerKey instanceID :=
    { correlationID := cause.header.correlationID
      causationID := cause.body.messageID
      handlerKey := handlerKey
      instanceID := instanceID }
  packEffect cause handlerKey instanceID effect :=
    { header :=
        { correlationID := cause.header.correlationID
          causationID := cause.body.messageID
          handlerKey := handlerKey
          instanceID := instanceID }
      body :=
        { messageID := effect.messageID
          message := effect.message } }
  packDeadline cause handlerKey instanceID effect t :=
    { header :=
        { correlationID := cause.header.correlationID
          causationID := cause.body.messageID
          handlerKey := handlerKey
          instanceID := instanceID }
      body :=
        { messageID := effect.messageID
          message := effect.message
          scheduledFor := t } }
  correlationID_eq _ _ _ := rfl
  causationID_eq _ _ _ := rfl
  handlerKey_eq _ _ _ := rfl
  instanceID_eq _ _ _ := rfl
  packEffect_header _ _ _ _ := rfl
  packDeadline_header _ _ _ _ _ := rfl
  packEffect_message _ _ _ _ := rfl
  packEffect_messageID _ _ _ _ := rfl
  packDeadline_messageID _ _ _ _ _ := rfl
  packEffect_idempotencyKey _ _ _ _ := rfl

end Runkit
