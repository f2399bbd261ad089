/-
  Engine/IdempotencyKeys.lean --- commands that are executed with an idempotency
  key.

  A key is claimed by the first transaction with the key that commits, and by no
  other (`KeyChange`).  The claim is never given up, so it does not matter whether
  the command is still in the queue.
-/
import Runkit.Engine.Commands

set_option autoImplicit false

namespace Runkit.Engine

open Runkit.Foundation Runkit.Schema Runkit.Schema.Stmt Runkit.MessagePump

variable {ρ : Type}

/-! ## What one transaction does -/

/-- The key with which the transaction executes a command, if it does. -/
def addedKey : Request ρ → Option String
  | .executeCommand env _ => some env.body.idempotencyKey
  | _ => none

/-- How a transaction can change what is stored for a key. -/
inductive KeyChange (key : String) (before : Option UUID) :
    Request ρ → Response → Option UUID → Prop where
  /-- The transaction does not execute a command with the key. -/
  | other {r : Request ρ} {response : Response} (hother : addedKey r ≠ some key) :
      KeyChange key before r response before
  | found {env : Envelope} {now : Time} {original : UUID}
      (hkey : env.body.idempotencyKey = key) (hbefore : before = some original) :
      KeyChange key before (.executeCommand env now) (.added original false) before
  | claimed {env : Envelope} {now : Time} (hkey : env.body.idempotencyKey = key)
      (hbefore : before = none) :
      KeyChange key before (.executeCommand env now) (.added env.body.messageID true)
        (some env.body.messageID)

section Change

variable {app : Application ρ} {before after : Database} {locks : Key → Bool}
  {trace : List (Observation ρ)} {r : Request ρ} {response : Response}

theorem Added.keyChange {env : Envelope} {now : Time} {actual : UUID} {enqueued : Bool}
    (h : Added env now before actual enqueued after) {key : String} (hkey : key ≠ "") :
    KeyChange (ρ := ρ) key (before (.idempotencyKey key)) (.executeCommand env now)
      (.added actual enqueued) (after (.idempotencyKey key)) := by
  cases h with
  | deduplicated _ hclaimed =>
      by_cases hsame : env.body.idempotencyKey = key
      · subst hsame
        exact .found rfl hclaimed
      · exact .other (by simpa [addedKey] using hsame)
  | claimed _ hunclaimed _ =>
      rw [Function.update_of_ne (by simp), Function.update_of_ne (by simp)]
      by_cases hsame : env.body.idempotencyKey = key
      · subst hsame
        rw [Function.update_self]
        exact .claimed rfl hunclaimed
      · rw [Function.update_of_ne (by simpa using Ne.symm hsame)]
        exact .other (by simpa [addedKey] using hsame)
  | keyless hempty _ =>
      rw [Function.update_of_ne (by simp)]
      refine .other ?_
      rw [addedKey, hempty]
      simpa using hkey.symm

/-- How a transaction can change what is stored for a key. -/
theorem Committed.keyChange (h : Committed app before locks trace r response after)
    {key : String} (hkey : key ≠ "") :
    KeyChange key (before (.idempotencyKey key)) r response (after (.idempotencyKey key)) := by
  have hforeign : Process.Foreign (.idempotencyKey key) := ⟨by simp, by simp, by simp⟩
  cases h with
  | executeCommand hadded => exact hadded.keyChange hkey
  | aggregateCommand hcommitted =>
      rw [aggregate_frame hcommitted (by simp) (by simp) (by simp)]
      exact .other (by simp [addedKey])
  | integrationCommand hcommitted =>
      rw [integration_frame hcommitted (by simp) (by simp)]
      exact .other (by simp [addedKey])
  | deadline hcommitted =>
      rw [hcommitted.frame hforeign]
      exact .other (by simp [addedKey])
  | consume hconsumed =>
      rw [hconsumed.frame hforeign (by simp)]
      exact .other (by simp [addedKey])

/-- The commands that a process executes carry no key. -/
theorem invoked_keyless {h : ProcessHandler ρ} {b : Process.Behavior ρ} {cause : Envelope}
    {instanceID : String} {row : ProcessInstanceRow} {scope : Process.Scope ρ}
    (hinvoked : Process.Invoked h b cause instanceID before row scope) :
    ∀ env ∈ scope.commands, env.body.idempotencyKey = "" := by
  intro env henv
  exact (Process.handleMessage_packedBy hinvoked.scope_eq).command_keyless henv

theorem withCommands_keyless {now : Time} {envs : List Envelope} {db : Database}
    {messageID : UUID} {row : CommandRow}
    (hkeys : ∀ env ∈ envs, env.body.idempotencyKey = "")
    (hdistinct : (envs.map (·.body.messageID)).Nodup) (hbefore : db (.command messageID) = none)
    (hafter : Process.withCommands now envs db (.command messageID) = some row) :
    row.envelope.body.idempotencyKey = "" := by
  by_cases hmem : ∃ env ∈ envs, env.body.messageID = messageID
  · obtain ⟨env, henv, rfl⟩ := hmem
    rw [Process.withCommands_of_mem henv hdistinct] at hafter
    cases hafter
    exact hkeys env henv
  · rw [Process.withCommands_of_not_mem fun env henv heq => hmem ⟨env, henv, heq⟩,
      hbefore] at hafter
    cases hafter

/-- The transaction has added a command that carries the key to the queue. -/
def Enqueues (key : String) (messageID : UUID) (before after : Database) : Prop :=
  before (.command messageID) = none ∧
    ∃ row, after (.command messageID) = some row ∧ row.envelope.body.idempotencyKey = key

/-- Process handlers do not add commands that carry a key. -/
theorem deadline_keyless {h : ProcessHandler ρ} {c : Circumstances}
    {a : Process.DeadlineAttempt ρ} {o : Outcome} {key : String} {messageID : UUID}
    (hcommitted : Process.DeadlineCommitted h c a before locks o after)
    (henqueues : Enqueues key messageID before after) : key = "" := by
  obtain ⟨hbefore, row, hafter, rfl⟩ := henqueues
  have hinvoked : ∀ {b : Process.Behavior ρ} {cause : Envelope} {instanceID : String}
      {instance_ : ProcessInstanceRow} {scope : Process.Scope ρ},
      Process.Invoked h b cause instanceID before instance_ scope →
      Process.withCommands b.now scope.commands
        (Process.withInstance h.key instanceID instance_ before) (.command messageID) = some row →
      row.envelope.body.idempotencyKey = "" := by
    intro b cause instanceID instance_ scope hinvoked hrow
    apply withCommands_keyless (invoked_keyless hinvoked) hinvoked.distinct ?_ hrow
    rw [Process.withInstance_of_ne (by simp), hbefore]
  cases hcommitted with
  | idle =>
      rw [hbefore] at hafter
      cases hafter
  | unreadable _ =>
      rw [Function.update_of_ne (by simp), hbefore] at hafter
      cases hafter
  | delivered _ hcompletes _ =>
      cases hcompletes with
      | ended hinv _ =>
          rw [Process.applyScope_command] at hafter
          exact hinvoked hinv hafter
      | saved hinv _ _ _ _ =>
          rw [Function.update_of_ne (by simp), Process.applyScope_command] at hafter
          exact hinvoked hinv hafter
  | failed _ hleaves =>
      rw [Function.update_of_ne (by simp)] at hafter
      cases hleaves with
      | failed =>
          rw [hbefore] at hafter
          cases hafter
      | loaded _ =>
          rw [Process.withInstance_of_ne (by simp), hbefore] at hafter
          cases hafter
      | unsaved hinv _ _ _ => exact hinvoked hinv hafter

theorem consume_keyless {h : ProcessHandler ρ} {call : Process.ConsumeCall ρ} {actual : Nat}
    {key : String} {messageID : UUID}
    (hconsumed : Process.Consumed h call before locks actual trace after)
    (henqueues : Enqueues key messageID before after) : key = "" := by
  obtain ⟨hbefore, row, hafter, rfl⟩ := henqueues
  have hkept : ¬ before (.command messageID) = some row := by
    rw [hbefore]
    exact nofun
  cases hconsumed with
  | conflict _ _ =>
      rw [Process.withCheckpoint_of_ne (by simp)] at hafter
      exact absurd hafter hkept
  | skipped _ _ =>
      rw [Process.withCheckpoint_of_ne (by simp)] at hafter
      exact absurd hafter hkept
  | dispatched _ _ hdispatched =>
      rw [Process.withCheckpoint_of_ne (by simp)] at hafter
      cases hdispatched with
      | unrouted =>
          rw [Process.withCheckpoint_of_ne (by simp)] at hafter
          exact absurd hafter hkept
      | ended _ _ _ =>
          rw [Process.withCheckpoint_of_ne (by simp)] at hafter
          exact absurd hafter hkept
      | handled _ hinvoked _ _ _ _ =>
          rw [Process.applyScope_command] at hafter
          apply withCommands_keyless (invoked_keyless hinvoked) hinvoked.distinct ?_ hafter
          rw [Process.withInstance_of_ne (by simp), Process.withCheckpoint_of_ne (by simp),
            hbefore]

/-- Delivering commands does not add any. -/
theorem CommandChange.outcome_of_added {messageID : UUID} {row : CommandRow} {o : Option Outcome}
    (h : CommandChange messageID none (some row) o) : o = none := by
  cases h with
  | failed hbefore => cases hbefore
  | unreadable hbefore => cases hbefore
  | busy hbefore => cases hbefore
  | unrelated _ => rfl

theorem Added.enqueues {env : Envelope} {now : Time} {actual : UUID} {enqueued : Bool}
    {key : String} {messageID : UUID} (h : Added env now before actual enqueued after)
    (henqueues : Enqueues key messageID before after) :
    env.body.idempotencyKey = key ∧ actual = messageID ∧ enqueued = true := by
  obtain ⟨hbefore, row, hafter, rfl⟩ := henqueues
  cases h with
  | deduplicated _ _ =>
      rw [hbefore] at hafter
      cases hafter
  | claimed _ _ _ =>
      by_cases hid : messageID = env.body.messageID
      · subst hid
        rw [Function.update_self] at hafter
        cases hafter
        exact ⟨rfl, rfl, rfl⟩
      · rw [Function.update_of_ne (by simpa using hid), Function.update_of_ne (by simp),
          Function.update_of_ne (by simp), hbefore] at hafter
        cases hafter
  | keyless _ _ =>
      by_cases hid : messageID = env.body.messageID
      · subst hid
        rw [Function.update_self] at hafter
        cases hafter
        exact ⟨rfl, rfl, rfl⟩
      · rw [Function.update_of_ne (by simpa using hid), hbefore] at hafter
        cases hafter

/-- Only a transaction that claims a key adds a command that carries it. -/
theorem Committed.enqueues (h : Committed app before locks trace r response after)
    {key : String} (hkey : key ≠ "") {messageID : UUID}
    (henqueues : Enqueues key messageID before after) :
    addedKey r = some key ∧ response = .added messageID true := by
  have hcommand := h.command messageID
  rw [henqueues.1] at hcommand
  obtain ⟨row, hafter, -⟩ := henqueues.2
  rw [hafter] at hcommand
  have houtcome := hcommand.outcome_of_added
  cases h with
  | executeCommand hadded =>
      obtain ⟨hsame, rfl, rfl⟩ := hadded.enqueues henqueues
      exact ⟨congrArg some hsame, rfl⟩
  | aggregateCommand _ => cases houtcome
  | integrationCommand _ => cases houtcome
  | deadline hcommitted => exact absurd (deadline_keyless hcommitted henqueues) hkey
  | consume hconsumed => exact absurd (consume_keyless hconsumed henqueues) hkey

/-- A transaction that claims a key adds the command. -/
theorem Committed.claimed {env : Envelope} {now : Time} {actual : UUID}
    (h : Committed app before locks trace (.executeCommand env now) (.added actual true) after) :
    actual = env.body.messageID ∧ Enqueues env.body.idempotencyKey actual before after := by
  cases h with
  | executeCommand hadded =>
      cases hadded with
      | claimed _ _ hnew => exact ⟨rfl, hnew, _, Function.update_self _ _ _, rfl⟩
      | keyless _ hnew => exact ⟨rfl, hnew, _, Function.update_self _ _ _, rfl⟩

end Change

/-! ## What holds in every state -/

/-- The transaction executes a command with the key. -/
def addsWith (key : String) (record : Transaction ρ) : Bool :=
  decide (addedKey record.request = some key)

/-- Whether `commandqueue.add` reports that the command has been enqueued. -/
def enqueued : Response → Bool
  | .added _ enqueued => enqueued
  | _ => false

/-- The transaction executes a command with the key, and the command has been
enqueued. -/
def claimsKey (key : String) (record : Transaction ρ) : Bool :=
  addsWith key record && enqueued record.result

/-- What has happened to a key: no transaction with the key has committed, or exactly
one of them has claimed the key.  Its command is then the only one that was ever
enqueued with the key, and all transactions with the key return its ID. -/
inductive KeyHistory (key : String) (rows : Database) (history : List (Transaction ρ)) : Prop where
  | unclaimed (hrows : rows (.idempotencyKey key) = none)
      (hadds : ∀ record ∈ history, addsWith key record = false)
      (hnone : ∀ record ∈ history, ∀ messageID,
        ¬ Enqueues key messageID record.before record.after)
  | claimed {first : Transaction ρ} {original : UUID}
      (hrows : rows (.idempotencyKey key) = some original)
      (hfirst : history.filter (claimsKey key) = [first])
      (henqueues : Enqueues key original first.before first.after)
      (hadds : ∀ record ∈ history, addsWith key record = true →
        ∃ enqueued, record.result = .added original enqueued)
      (honly : ∀ record ∈ history, ∀ messageID,
        Enqueues key messageID record.before record.after →
          claimsKey key record = true ∧ messageID = original)

section History

variable {app : Application ρ} {record : Transaction ρ} {locks : Key → Bool} {key : String}

theorem claimsKey_of_enqueues
    (h : Committed app record.before locks record.trace record.request record.result
      record.after)
    (hkey : key ≠ "") {messageID : UUID}
    (henqueues : Enqueues key messageID record.before record.after) :
    claimsKey key record = true ∧ record.result = .added messageID true := by
  obtain ⟨hadds, hresult⟩ := h.enqueues hkey henqueues
  refine ⟨?_, hresult⟩
  rw [claimsKey, addsWith, hadds, hresult]
  simp [enqueued]

theorem not_enqueues_of_not_claims
    (h : Committed app record.before locks record.trace record.request record.result
      record.after)
    (hkey : key ≠ "") (hclaims : claimsKey key record = false) (messageID : UUID) :
    ¬ Enqueues key messageID record.before record.after := by
  intro henqueues
  rw [(claimsKey_of_enqueues h hkey henqueues).1] at hclaims
  cases hclaims

/-- One more transaction commits, which does not claim the key. -/
theorem KeyHistory.unaffected {history : List (Transaction ρ)}
    (hinv : KeyHistory key record.before history)
    (hclaims : claimsKey key record = false)
    (hnot : ∀ messageID, ¬ Enqueues key messageID record.before record.after)
    (hafter : record.after (.idempotencyKey key) = record.before (.idempotencyKey key))
    (hadds : addsWith key record = true → ∃ original enqueued,
      record.before (.idempotencyKey key) = some original ∧
        record.result = .added original enqueued) :
    KeyHistory key record.after (history ++ [record]) := by
  cases hinv with
  | unclaimed hrows hnoAdds hnone =>
      refine .unclaimed (hafter.trans hrows)
        (List.forall_mem_append.mpr ⟨hnoAdds, List.forall_mem_singleton.mpr ?_⟩)
        (List.forall_mem_append.mpr ⟨hnone, List.forall_mem_singleton.mpr hnot⟩)
      rw [Bool.eq_false_iff]
      intro hadds'
      obtain ⟨original, enqueued, hbefore, -⟩ := hadds hadds'
      cases hrows.symm.trans hbefore
  | claimed hrows hfirst henqueues hall honly =>
      refine .claimed (hafter.trans hrows) ?_ henqueues
        (List.forall_mem_append.mpr ⟨hall, List.forall_mem_singleton.mpr ?_⟩)
        (List.forall_mem_append.mpr ⟨honly, List.forall_mem_singleton.mpr ?_⟩)
      · rw [List.filter_append, hfirst, List.filter_cons_of_neg (by simp [hclaims])]
        rfl
      · intro hadds'
        obtain ⟨original, enqueued, hbefore, hresult⟩ := hadds hadds'
        cases hrows.symm.trans hbefore
        exact ⟨enqueued, hresult⟩
      · intro messageID h
        exact absurd h (hnot messageID)

/-- One more transaction commits. -/
theorem KeyHistory.commit {history : List (Transaction ρ)}
    (hinv : KeyHistory key record.before history) (hkey : key ≠ "")
    (h : Committed app record.before locks record.trace record.request record.result
      record.after) :
    KeyHistory key record.after (history ++ [record]) := by
  have hchange := h.keyChange hkey
  generalize hafter : record.after (.idempotencyKey key) = stored at hchange
  generalize hrequest : record.request = request at hchange
  generalize hresult : record.result = response at hchange
  cases hchange with
  | other hother =>
      -- The transaction has nothing to do with the key.
      have hadds : addsWith key record = false := by
        rw [addsWith, hrequest]
        exact decide_eq_false hother
      have hclaims : claimsKey key record = false := by rw [claimsKey, hadds, Bool.false_and]
      refine hinv.unaffected hclaims (not_enqueues_of_not_claims h hkey hclaims) hafter ?_
      rw [hadds]
      exact nofun
  | @found env now original hsame hbefore =>
      -- The key was claimed before.
      have hclaims : claimsKey key record = false := by
        rw [claimsKey, hresult, enqueued, Bool.and_false]
      refine hinv.unaffected hclaims (not_enqueues_of_not_claims h hkey hclaims) hafter ?_
      intro _
      exact ⟨original, false, hbefore, hresult⟩
  | @claimed env now hsame hbefore =>
      cases hinv with
      | claimed hrows _ _ _ _ =>
          rw [hrows] at hbefore
          cases hbefore
      | unclaimed hrows hnoAdds hnone =>
          rw [hrequest, hresult] at h
          have henqueues := h.claimed.2
          rw [hsame] at henqueues
          rw [← hrequest, ← hresult] at h
          have hnoClaims : history.filter (claimsKey key) = [] := by
            rw [List.filter_eq_nil_iff]
            intro r hr
            simp [claimsKey, hnoAdds r hr]
          refine .claimed hafter ?_ henqueues
            (List.forall_mem_append.mpr ⟨?_, List.forall_mem_singleton.mpr ?_⟩)
            (List.forall_mem_append.mpr ⟨?_, List.forall_mem_singleton.mpr ?_⟩)
          · rw [List.filter_append, hnoClaims,
              List.filter_cons_of_pos (claimsKey_of_enqueues h hkey henqueues).1]
            rfl
          · intro r hr hadds
            rw [hnoAdds r hr] at hadds
            cases hadds
          · intro _
            exact ⟨true, hresult⟩
          · intro r hr messageID henqueues
            exact absurd henqueues (hnone r hr messageID)
          · intro messageID henqueues'
            obtain ⟨hclaims, hresult'⟩ := claimsKey_of_enqueues h hkey henqueues'
            cases hresult.symm.trans hresult'
            exact ⟨hclaims, rfl⟩

end History

/-! ## Commands without a key -/

section Keyless

variable {app : Application ρ} {db : Database} {env : Envelope} {now : Time}
  {response : Response} {s : Session Key Row (Observation ρ)}

/-- Executing a command without a key depends on nothing but whether its ID is in the
queue. -/
theorem keyless_runs_iff (hkey : env.body.idempotencyKey = "") :
    Tx.Runs databaseRely db (program app (.executeCommand env now)) .start response s ↔
      db (.command env.body.messageID) = none ∧ response = .added env.body.messageID true ∧
        s = CommandQueue.inserted env now .start := by
  rw [program, runs_transact, Tx.runs_except_bind]
  constructor
  · intro h
    obtain ⟨e, hr, -⟩ | ⟨added, u, hadd, hdone⟩ := h
    · cases hr
    obtain ⟨_, hne, -⟩ | ⟨hne, -⟩ | ⟨-, hnone, hr, rfl⟩ := CommandQueue.add_runs hadd
    · exact absurd hkey hne
    · exact absurd hkey hne
    cases hr
    obtain ⟨hr, rfl⟩ := Tx.runs_ok.mp hdone
    cases hr
    exact ⟨hnone, rfl, rfl⟩
  · intro h
    obtain ⟨hnone, rfl, rfl⟩ := h
    refine Or.inr ⟨(env.body.messageID, true), CommandQueue.inserted env now .start, ?_, ?_⟩
    · rw [CommandQueue.add, if_neg (by simp [hkey]), CommandQueue.insert, Tx.runs_lock_bind,
        Session.start_view, hnone]
      exact Tx.runs_write_bind.mpr ⟨Session.acquire_locks_self _ _, Tx.runs_ok.mpr ⟨rfl, rfl⟩⟩
    · exact Tx.runs_ok.mpr ⟨rfl, rfl⟩

/-- It asks for no lock but the one on the row of the command. -/
theorem keyless_asks (hkey : env.body.idempotencyKey = "") :
    Tx.Asks (fun w => w = .row (.command env.body.messageID))
      (program app (.executeCommand env now)) := by
  rw [program, transact]
  refine Tx.Asks.bind (Tx.Asks.except_bind (CommandQueue.add_asks hkey) fun _ => Tx.asks_ok) ?_
  intro r
  cases r with
  | ok a => exact True.intro
  | error e => exact True.intro

end Keyless

/-- Two commands do not affect each other: once one of them has been executed, the
other can be executed if and only if it could be before, with the same response,
and neither waits for a lock of the other. -/
def Unaffected (app : Application ρ) (first second : Request ρ) : Prop :=
  ∀ (db : Database) (response : Response) (s : Session Key Row (Observation ρ)),
    Tx.Runs databaseRely db (program app first) .start response s →
      (∀ response', (∃ t, Tx.Runs databaseRely (s.view db) (program app second) .start
          response' t) ↔
        ∃ t, Tx.Runs databaseRely db (program app second) .start response' t) ∧
      ∀ q t, Tx.Visits databaseRely db (program app second) .start q t →
        ∀ k, t.locks k = true → s.locks k = false

theorem unaffected_of_keyless {app : Application ρ} {first second : Envelope} {now now' : Time}
    (hfirst : first.body.idempotencyKey = "") (hsecond : second.body.idempotencyKey = "")
    (hne : first.body.messageID ≠ second.body.messageID) :
    Unaffected app (.executeCommand first now) (.executeCommand second now') := by
  intro db response s hruns
  obtain ⟨-, -, rfl⟩ := (keyless_runs_iff hfirst).mp hruns
  have hrow : (CommandQueue.inserted (E := Observation ρ) first now .start).view db
      (.command second.body.messageID) = db (.command second.body.messageID) := by
    rw [CommandQueue.inserted, Session.put_view_of_ne _ _ (by simpa using hne.symm)]
    rfl
  refine ⟨?_, ?_⟩
  · intro response'
    constructor
    · intro h
      obtain ⟨t, h⟩ := h
      obtain ⟨hnone, hresponse⟩ := (keyless_runs_iff hsecond).mp h
      exact ⟨t, (keyless_runs_iff hsecond).mpr ⟨hrow.symm.trans hnone, hresponse⟩⟩
    · intro h
      obtain ⟨t, h⟩ := h
      obtain ⟨hnone, hresponse⟩ := (keyless_runs_iff hsecond).mp h
      exact ⟨t, (keyless_runs_iff hsecond).mpr ⟨hrow.trans hnone, hresponse⟩⟩
  · intro q t hvisits k hk
    have hrequests : Tx.Requests databaseRely db
        (fun w _ => w = .row (.command second.body.messageID))
        (program app (.executeCommand second now')) .start :=
      .of_asks (keyless_asks hsecond) fun _ _ hw _ => hw
    have hgranted := hvisits.granted (P := fun k => k = .command second.body.messageID)
      Session.start_disciplined hrequests
      (fun w u k _ hw hcovers => by subst hw; exact Or.inr hcovers) hk
    obtain hk | rfl := hgranted
    · cases hk
    · by_contra hlock
      obtain hid | hlock := (Session.acquire_locks _ _ _).mp (Bool.not_eq_false _ ▸ hlock)
      · exact hne (Key.command.inj hid).symm
      · cases hlock

section Runs

variable {T : Type} [DecidableEq T] {app : Application ρ}
  {allow : List (Request ρ) → Request ρ → Prop} {e : System T ρ}

/-- At most one command with a given key is ever enqueued, and every transaction that
executes a command with the key returns the ID of that one.  Commands without a
key do not affect each other, unless they have the same ID. -/
theorem key_claimed_at_most_once (h : Reaches app allow start e) :
    (∀ key, key ≠ "" → KeyHistory key e.rows e.history) ∧
      ∀ (first second : Envelope) (now now' : Time), first.body.idempotencyKey = "" →
        second.body.idempotencyKey = "" → first.body.messageID ≠ second.body.messageID →
          Unaffected app (.executeCommand first now) (.executeCommand second now') := by
  refine ⟨?_, fun _ _ _ _ hfirst hsecond hne => unaffected_of_keyless hfirst hsecond hne⟩
  intro key hkey
  have hstart : KeyHistory key emptyDatabase ([] : List (Transaction ρ)) :=
    .unclaimed rfl (by simp) (by simp)
  exact (invariant_of_committed (fun _ rows history => KeyHistory key rows history)
    (fun _ _ _ _ hinv _ => hinv) (fun _ _ _ _ hinv _ h => hinv.commit hkey h) h
    start_consistent hstart).2

end Runs

/-- The envelope of a command with an idempotency key. -/
def keyedEnvelope (id : UInt64) (key : String) : Envelope :=
  let env := commandEnvelope id
  { env with body := { env.body with idempotencyKey := key } }

/-- The state in which two commands have been executed with the same key, and the
first of them has been handled before the second was executed. -/
def executedTwice : System Unit Nat :=
  Pool.serve (program counters)
    [.executeCommand (keyedEnvelope 10 "k") 0,
      .aggregateCommand (uuid 50) (finding 10) (recording [20]),
      .executeCommand (keyedEnvelope 11 "k") 0] start

theorem key_claimed_at_most_once_executed :
    executedTwice.history.map (·.result) =
        [.added (uuid 10) true, .delivery (.delivered (uuid 10)), .added (uuid 10) false] ∧
      executedTwice.rows (.command (uuid 10)) = none ∧
      KeyHistory "k" executedTwice.rows executedTwice.history := by
  have hreached : Reaches counters AnyRequest start executedTwice :=
    Pool.serve_run () (fun _ => rfl) (allAllowed_anyRequest _ _)
  exact ⟨by decide, by decide, (key_claimed_at_most_once hreached).1 "k" (by decide)⟩

/-- A command without a key can not be executed while one with the same ID is in the
queue. -/
theorem equal_ids_affect_each_other :
    ¬ Unaffected counters (.executeCommand (commandEnvelope 10) 0)
      (.executeCommand (commandEnvelope 10) 0) := by
  intro h
  have hruns : Tx.Runs databaseRely emptyDatabase
      (program counters (.executeCommand (commandEnvelope 10) 0)) .start (.added (uuid 10) true)
      (CommandQueue.inserted (commandEnvelope 10) 0 .start) :=
    (keyless_runs_iff rfl).mpr ⟨rfl, rfl, rfl⟩
  obtain ⟨t, hagain⟩ := ((h _ _ _ hruns).1 _).mpr ⟨_, hruns⟩
  have hnone := ((keyless_runs_iff rfl).mp hagain).1
  cases hnone

end Runkit.Engine
