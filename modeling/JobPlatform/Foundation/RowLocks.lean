import Mathlib.Data.List.Nodup
import Mathlib.Data.List.Perm.Subperm
import JobPlatform.Foundation.SqlLogic
import JobPlatform.Foundation.ThreadPool

/-!
Contract: concurrent `UPDATE` transactions at READ COMMITTED, one statement to a transaction.

A transaction takes a snapshot of the committed rows, locks the rows it selects one after another,
rechecks its clause on the latest version of each, writes new versions of those that pass, and
commits or rolls back. A row that another transaction has locked is waited for, or skipped.

Owns:
- `Updates`, the statements; `Versions`, the latest committed versions, the transactions in
  progress and the history of commits; `Exec`, one step of a transaction;
- `transaction`, the steps of a statement in order;
- `Sound`: locks exclude each other, and what a transaction has chosen and written stays true until
  it ends;
- `Exec.outcome`: seen from outside a commit is an atomic `UPDATE` of the latest versions, and no
  other step changes a row.

Does not own: inserts, deletes, and statements that read what they do not lock.
-/

namespace JobPlatform.Foundation

/-- The statements that update the rows of a table: their `WHERE` clause and assignment at the time
of the transaction, `ORDER BY`, `LIMIT` and `SKIP LOCKED`. The server refuses a statement it does
not accept. -/
structure Updates (ι κ ρ θ : Type) where
  key : ρ → κ
  clause : ι → θ → ρ → Truth
  set : ι → θ → ρ → ρ
  fixed : ∀ statement now row, key (set statement now row) = key row
  before : ι → ρ → ρ → Prop
  limit : ι → Option Nat
  skips : ι → Prop
  accepts : ι → Prop

/-- The steps of a transaction: `BEGIN`, the snapshot, the lock on one row, the new versions, and
`COMMIT`. -/
inductive RowCall (ι κ : Type) where
  | begin (statement : ι)
  | select (statement : ι)
  | lock (statement : ι) (key : κ)
  | write (statement : ι)
  | commit (statement : ι)

namespace RowCall

variable {ι κ : Type}

/-- The statement of the transaction. -/
def statement : RowCall ι κ → ι
  | begin statement => statement
  | select statement => statement
  | lock statement _ => statement
  | write statement => statement
  | commit statement => statement

/-- What each step returns: the selected keys, whether the locked row still satisfies the clause,
and the rows of `RETURNING`. -/
@[reducible] def Result (ρ : Type) : RowCall ι κ → Type
  | begin _ => Unit
  | select _ => List κ
  | lock .. => Bool
  | write _ => List ρ
  | commit _ => Unit

end RowCall

/-- A transaction in progress. Nobody else sees what it has written. -/
structure Session (ι κ ρ θ : Type) where
  statement : ι
  now : θ
  locked : List κ
  chosen : List κ
  written : List ρ

/-- What the history keeps of a transaction: the versions it replaced, or that a step of it raised.
A commit whose answer is lost has both entries. -/
inductive CommitEntry (ι ρ θ : Type) where
  | committed (statement : ι) (now : θ) (replaced : List ρ)
  | raised (statement : ι)

/-- The statement of an entry. -/
def CommitEntry.statement {ι ρ θ : Type} : CommitEntry ι ρ θ → ι
  | committed statement _ _ => statement
  | raised statement => statement

/-- The committed rows and the transactions in progress. -/
structure Versions (ι κ ρ θ : Type) where
  latest : κ → Option ρ
  sessions : ThreadId → Option (Session ι κ ρ θ)
  history : List (CommitEntry ι ρ θ)

variable {ι κ ρ θ : Type}

namespace Versions

/-- No transaction is in progress, and none was. -/
def initial (latest : κ → Option ρ) : Versions ι κ ρ θ := ⟨latest, fun _ => none, []⟩

/-- A transaction of the thread goes on, or has ended. -/
def setSession (v : Versions ι κ ρ θ) (t : ThreadId) (session : Option (Session ι κ ρ θ)) :
    Versions ι κ ρ θ :=
  { v with sessions := Function.update v.sessions t session }

theorem setSession_setSession (v : Versions ι κ ρ θ) (t : ThreadId)
    (session next : Option (Session ι κ ρ θ)) :
    (v.setSession t session).setSession t next = v.setSession t next :=
  congrArg (fun sessions => ({ v with sessions } : Versions ι κ ρ θ)) (Function.update_idem ..)

/-- The transaction of the thread has rolled back. -/
def abort (v : Versions ι κ ρ θ) (t : ThreadId) (statement : ι) : Versions ι κ ρ θ :=
  { v.setSession t none with history := v.history ++ [.raised statement] }

/-- The versions that the transaction replaces. -/
def replaced (L : Updates ι κ ρ θ) (v : Versions ι κ ρ θ) (session : Session ι κ ρ θ) : List ρ :=
  session.written.filterMap fun new => v.latest (L.key new)

/-- The transaction of the thread commits what it has written. -/
def commit [DecidableEq κ] (L : Updates ι κ ρ θ) (v : Versions ι κ ρ θ) (t : ThreadId)
    (session : Session ι κ ρ θ) : Versions ι κ ρ θ where
  latest key := (session.written.find? fun new => L.key new = key).or (v.latest key)
  sessions := Function.update v.sessions t none
  history := v.history ++ [.committed session.statement session.now (v.replaced L session)]

end Versions

/-- The row is locked, and chosen if it satisfies the clause. -/
def Session.lock (session : Session ι κ ρ θ) (key : κ) (holds : Bool) : Session ι κ ρ θ :=
  { session with
    locked := key :: session.locked
    chosen := if holds then key :: session.chosen else session.chosen }

namespace Updates

variable (L : Updates ι κ ρ θ)

/-- One step of a transaction of thread `t`. Every step may raise, and then the transaction rolls
back; a commit may also take effect without an answer. -/
inductive Exec [DecidableEq κ] (ε : Type) (t : ThreadId) (v : Versions ι κ ρ θ) :
    (c : RowCall ι κ) → Except ε (c.Result ρ) → Versions ι κ ρ θ → Prop where
  | began {statement : ι} (now : θ) (idle : v.sessions t = none) :
      Exec ε t v (.begin statement) (.ok ()) (v.setSession t (some ⟨statement, now, [], [], []⟩))
  | selected {session : Session ι κ ρ θ} {keys : List κ} (isOpen : v.sessions t = some session)
      (accepted : L.accepts session.statement) (distinct : keys.Nodup)
      (selects : ∀ key, key ∈ keys ↔ ∃ row, v.latest key = some row ∧
        (L.clause session.statement session.now row).Holds)
      (ordered : keys.Pairwise fun left right => ∀ one ∈ v.latest left, ∀ other ∈ v.latest right,
        L.before session.statement one other) :
      Exec ε t v (.select session.statement) (.ok keys) v
  | locked {session : Session ι κ ρ θ} {key : κ} {row : ρ} (isOpen : v.sessions t = some session)
      (free : ∀ u other, v.sessions u = some other → key ∉ other.locked)
      (within : ∀ bound, L.limit session.statement = some bound → session.chosen.length < bound)
      (found : v.latest key = some row) :
      Exec ε t v (.lock session.statement key)
        (.ok (decide (L.clause session.statement session.now row).Holds))
        (v.setSession t (some (session.lock key
          (decide (L.clause session.statement session.now row).Holds))))
  | skipped {session other : Session ι κ ρ θ} {u : ThreadId} {key : κ}
      (isOpen : v.sessions t = some session) (skips : L.skips session.statement)
      (isOther : v.sessions u = some other) (apart : u ≠ t) (busy : key ∈ other.locked) :
      Exec ε t v (.lock session.statement key) (.ok false) v
  | wrote {session : Session ι κ ρ θ} {written : List ρ} (isOpen : v.sessions t = some session)
      (covers : (written.map L.key).Perm session.chosen)
      (versions : ∀ new ∈ written, ∃ row, v.latest (L.key new) = some row ∧
        new = L.set session.statement session.now row) :
      Exec ε t v (.write session.statement) (.ok written)
        (v.setSession t (some { session with written }))
  | committed {session : Session ι κ ρ θ} (isOpen : v.sessions t = some session) :
      Exec ε t v (.commit session.statement) (.ok ()) (v.commit L t session)
  | unanswered {session : Session ι κ ρ θ} (isOpen : v.sessions t = some session) (error : ε) :
      Exec ε t v (.commit session.statement) (.error error)
        ((v.commit L t session).abort t session.statement)
  | raised {c : RowCall ι κ} (error : ε) : Exec ε t v c (.error error) (v.abort t c.statement)

section Program

variable {S : Calls} (perform : (c : RowCall ι κ) → Code S (c.Result ρ))

/-- Lock the selected rows in order, until as many as the bound have passed the recheck. -/
def lockRows (statement : ι) : Nat → List κ → Code S Unit
  | 0, _ => pure ()
  | _ + 1, [] => pure ()
  | bound + 1, key :: rest => do
      if ← perform (.lock statement key) then
        lockRows statement bound rest
      else
        lockRows statement (bound + 1) rest

/-- One `UPDATE ... RETURNING` in a transaction of its own. -/
def transaction (statement : ι) : Code S (List ρ) := do
  perform (.begin statement)
  let keys ← perform (.select statement)
  lockRows perform statement ((L.limit statement).getD keys.length) keys
  let rows ← perform (.write statement)
  perform (.commit statement)
  return rows

variable {Q : S.Call → Prop} {statement : ι}

theorem lockRows_only (each : ∀ c : RowCall ι κ, c.statement = statement → Code.Only Q (perform c))
    (bound : Nat) (keys : List κ) : Code.Only Q (lockRows perform statement bound keys) := by
  induction keys generalizing bound with
  | nil => cases bound <;> exact Code.only_pure ()
  | cons key rest inductionHypothesis =>
      cases bound with
      | zero => exact Code.only_pure ()
      | succ bound =>
          refine (each _ rfl).bind fun holds => ?_
          cases holds
          · exact inductionHypothesis (bound + 1)
          · exact inductionHypothesis bound

/-- All steps of a transaction are steps of its statement. -/
theorem transaction_only
    (each : ∀ c : RowCall ι κ, c.statement = statement → Code.Only Q (perform c)) :
    Code.Only Q (L.transaction perform statement) := by
  refine (each _ rfl).bind fun _ => (each _ rfl).bind fun keys => ?_
  refine (lockRows_only perform each _ keys).bind fun _ => (each _ rfl).bind fun rows => ?_
  exact (each _ rfl).bind fun _ => Code.only_pure rows

end Program

end Updates

/-! ### Locks -/

/-- The rows a transaction has chosen satisfy its clause, and what it has written are their new
versions. -/
structure Session.Valid (L : Updates ι κ ρ θ) (latest : κ → Option ρ)
    (session : Session ι κ ρ θ) : Prop where
  chosen : ∀ key ∈ session.chosen, key ∈ session.locked ∧ ∃ row, latest key = some row ∧
    (L.clause session.statement session.now row).Holds
  distinct : session.chosen.Nodup
  within : ∀ bound, L.limit session.statement = some bound → session.chosen.length ≤ bound
  written : ∀ new ∈ session.written, L.key new ∈ session.chosen ∧
    ∃ row, latest (L.key new) = some row ∧ new = L.set session.statement session.now row
  once : (session.written.map L.key).Nodup

/-- Every row is under its key, no row is locked twice, and every transaction is valid. -/
structure Versions.Sound (L : Updates ι κ ρ θ) (v : Versions ι κ ρ θ) : Prop where
  keyed : ∀ {key row}, v.latest key = some row → L.key row = key
  exclusive : ∀ {t u left right key}, v.sessions t = some left → v.sessions u = some right →
    key ∈ left.locked → key ∈ right.locked → t = u
  valid : ∀ {t session}, v.sessions t = some session → session.Valid L v.latest

/-- One `UPDATE` of the latest versions: every row it replaced satisfied the clause. -/
structure AtomicUpdate (L : Updates ι κ ρ θ) (statement : ι) (now : θ) (replaced : List ρ)
    (before after : κ → Option ρ) : Prop where
  found : ∀ row ∈ replaced, before (L.key row) = some row
  holds : ∀ row ∈ replaced, (L.clause statement now row).Holds
  set : ∀ row ∈ replaced, after (L.key row) = some (L.set statement now row)
  other : ∀ key, key ∉ replaced.map L.key → after key = before key
  distinct : (replaced.map L.key).Nodup
  within : ∀ bound, L.limit statement = some bound → replaced.length ≤ bound

section Commit

variable {L : Updates ι κ ρ θ} {v : Versions ι κ ρ θ} {t : ThreadId} {session : Session ι κ ρ θ}

theorem Session.Valid.congr {latest after : κ → Option ρ} (valid : session.Valid L latest)
    (same : ∀ key ∈ session.chosen, after key = latest key) : session.Valid L after where
  chosen key member := by
    rw [same key member]
    exact valid.chosen key member
  distinct := valid.distinct
  within := valid.within
  written new member := by
    obtain ⟨isChosen, row, found, isNew⟩ := valid.written new member
    exact ⟨isChosen, row, (same _ isChosen).trans found, isNew⟩
  once := valid.once

theorem Versions.mem_replaced {row : ρ} : row ∈ v.replaced L session ↔
    ∃ new ∈ session.written, v.latest (L.key new) = some row := List.mem_filterMap

/-- A transaction replaces one version for each it has written. -/
theorem Versions.Sound.map_key_replaced (sound : v.Sound L) (isOpen : v.sessions t = some session) :
    (v.replaced L session).map L.key = session.written.map L.key := by
  unfold Versions.replaced
  rw [List.map_filterMap, ← List.filterMap_eq_map]
  apply List.filterMap_congr
  intro new member
  obtain ⟨_, row, found, _⟩ := (sound.valid isOpen).written new member
  simp [found, sound.keyed found]

variable [DecidableEq κ]

/-- What a transaction has written is there after its commit. -/
theorem Session.Valid.latest_commit (valid : session.Valid L v.latest) {new : ρ}
    (member : new ∈ session.written) : (v.commit L t session).latest (L.key new) = some new := by
  have found : session.written.find? (fun other => L.key other = L.key new) = some new := by
    cases search : session.written.find? fun other => L.key other = L.key new with
    | none =>
        have unfound := List.find?_eq_none.mp search new member
        simp at unfound
    | some other =>
        have sameKey : L.key other = L.key new := by simpa using List.find?_some search
        exact congrArg some (List.inj_on_of_nodup_map valid.once
          (List.mem_of_find?_eq_some search) member sameKey)
  unfold Versions.commit
  simp [found]

theorem Versions.latest_commit_of_not_mem {key : κ} (absent : key ∉ session.written.map L.key) :
    (v.commit L t session).latest key = v.latest key := by
  have none : session.written.find? (fun new => L.key new = key) = none := by
    rw [List.find?_eq_none]
    intro new member isKey
    exact absent (List.mem_map.mpr ⟨new, member, by simpa using isKey⟩)
  unfold Versions.commit
  simp [none]

/-- A commit is an atomic update of the versions it replaced. -/
theorem Versions.Sound.atomic (sound : v.Sound L) (isOpen : v.sessions t = some session) :
    AtomicUpdate L session.statement session.now (v.replaced L session) v.latest
      (v.commit L t session).latest := by
  have valid := sound.valid isOpen
  have sameKeys := sound.map_key_replaced isOpen
  -- every replaced version was chosen, and its new version written
  have replaced : ∀ row ∈ v.replaced L session, ∃ new ∈ session.written, L.key new = L.key row ∧
      v.latest (L.key row) = some row ∧ new = L.set session.statement session.now row := by
    intro row member
    obtain ⟨new, inWritten, isRow⟩ := Versions.mem_replaced.mp member
    obtain ⟨_, old, found, isNew⟩ := valid.written new inWritten
    rw [isRow] at found
    cases found
    have sameKey := sound.keyed isRow
    exact ⟨new, inWritten, sameKey.symm, sameKey ▸ isRow, isNew⟩
  refine ⟨?_, ?_, ?_, ?_, ?_, ?_⟩
  · intro row member
    obtain ⟨_, _, _, found, _⟩ := replaced row member
    exact found
  · intro row member
    obtain ⟨new, inWritten, sameKey, found, _⟩ := replaced row member
    obtain ⟨_, old, isOld, holds⟩ := valid.chosen _ (valid.written new inWritten).1
    rw [sameKey, found] at isOld
    cases isOld
    exact holds
  · intro row member
    obtain ⟨new, inWritten, sameKey, _, isNew⟩ := replaced row member
    rw [← sameKey, valid.latest_commit inWritten, isNew]
  · intro key absent
    rw [sameKeys] at absent
    exact Versions.latest_commit_of_not_mem absent
  · rw [sameKeys]
    exact valid.once
  · intro bound isBound
    have subset : (v.replaced L session).map L.key ⊆ session.chosen := by
      rw [sameKeys]
      intro key member
      obtain ⟨new, inWritten, rfl⟩ := List.mem_map.mp member
      exact (valid.written new inWritten).1
    have fewer := (List.subperm_of_subset (sameKeys ▸ valid.once) subset).length_le
    rw [List.length_map] at fewer
    exact Nat.le_trans fewer (valid.within bound isBound)

end Commit

/-! ### Steps -/

section Steps

variable {L : Updates ι κ ρ θ} {v after : Versions ι κ ρ θ} {t : ThreadId}

theorem Versions.sound_initial {latest : κ → Option ρ}
    (keyed : ∀ {key row}, latest key = some row → L.key row = key) :
    (initial latest : Versions ι κ ρ θ).Sound L :=
  ⟨keyed, nofun, nofun⟩

/-- The others' transactions are as they were, and the thread's own is valid and has only locks
that were free. -/
theorem Versions.Sound.setSession (sound : v.Sound L) {next : Option (Session ι κ ρ θ)}
    (valid : ∀ session, next = some session → session.Valid L v.latest)
    (free : ∀ session, next = some session → ∀ key ∈ session.locked, ∀ u other, u ≠ t →
      v.sessions u = some other → key ∉ other.locked) : (v.setSession t next).Sound L where
  keyed := sound.keyed
  exclusive {u w left right key} isLeft isRight inLeft inRight := by
    simp only [Versions.setSession, Function.update_apply] at isLeft isRight
    split at isLeft
    next sameLeft =>
      split at isRight
      next sameRight => exact sameLeft.trans sameRight.symm
      next apart => exact absurd inRight (free left isLeft key inLeft w right apart isRight)
    next apart =>
      split at isRight
      next => exact absurd inLeft (free right isRight key inRight u left apart isLeft)
      next => exact sound.exclusive isLeft isRight inLeft inRight
  valid {u session} isSession := by
    simp only [Versions.setSession, Function.update_apply] at isSession
    split at isSession
    · exact valid session isSession
    · exact sound.valid isSession

/-- A transaction ends without a commit. -/
theorem Versions.Sound.ended (sound : v.Sound L) : (v.setSession t none).Sound L :=
  sound.setSession (fun _ => nofun) fun _ => nofun

theorem Versions.Sound.abort (sound : v.Sound L) (statement : ι) : (v.abort t statement).Sound L :=
  have ended := sound.ended
  ⟨ended.keyed, ended.exclusive, ended.valid⟩

/-- New versions of rows that no transaction has chosen, under their keys. -/
theorem Versions.Sound.setLatest (sound : v.Sound L) {latest : κ → Option ρ}
    (keyed : ∀ {key row}, latest key = some row → L.key row = key)
    (unchosen : ∀ {u session key}, v.sessions u = some session → key ∈ session.chosen →
      latest key = v.latest key) : ({ v with latest } : Versions ι κ ρ θ).Sound L where
  keyed := keyed
  exclusive := sound.exclusive
  valid isSession := (sound.valid isSession).congr fun _ member => unchosen isSession member

variable [DecidableEq κ] {ε : Type} {c : RowCall ι κ} {reply : Except ε (c.Result ρ)}

theorem Versions.Sound.commit (sound : v.Sound L) {session : Session ι κ ρ θ}
    (isOpen : v.sessions t = some session) : (v.commit L t session).Sound L := by
  have ended := sound.ended (t := t)
  have atomic := sound.atomic isOpen
  refine ⟨fun {key row} found => ?_, ended.exclusive, fun {u other} isOther => ?_⟩
  · by_cases member : key ∈ (v.replaced L session).map L.key
    · obtain ⟨old, inReplaced, rfl⟩ := List.mem_map.mp member
      rw [atomic.set old inReplaced] at found
      cases found
      exact L.fixed _ _ _
    · rw [atomic.other key member] at found
      exact sound.keyed found
  · refine (ended.valid isOther).congr fun key member => ?_
    -- another transaction has the lock on what it has chosen
    apply atomic.other
    rw [sound.map_key_replaced isOpen]
    intro inWritten
    obtain ⟨new, isNew, rfl⟩ := List.mem_map.mp inWritten
    have valid := sound.valid isOpen
    have own := (valid.chosen _ (valid.written new isNew).1).1
    have theirs := ((ended.valid isOther).chosen _ member).1
    simp only [Versions.commit, Function.update_apply] at isOther
    split at isOther
    next => cases isOther
    next apart => exact apart (sound.exclusive isOther isOpen theirs own)

/-- Every step keeps the locks. -/
theorem Versions.Sound.exec (sound : v.Sound L) (ran : L.Exec ε t v c reply after) :
    after.Sound L := by
  cases ran with
  | began now idle =>
      apply sound.setSession
      · rintro _ ⟨⟩
        exact ⟨nofun, List.nodup_nil, fun _ _ => Nat.zero_le _, nofun, List.nodup_nil⟩
      · rintro _ ⟨⟩ key member
        cases member
  | selected => exact sound
  | @locked session key row isOpen free within found =>
      have valid := sound.valid isOpen
      apply sound.setSession
      · rintro _ ⟨⟩
        have unlocked := free t session isOpen
        unfold Session.lock
        by_cases holds : (L.clause session.statement session.now row).Holds
        · simp only [holds, decide_true, if_true]
          refine ⟨fun other member => ?_, ?_, fun bound isBound => within bound isBound, ?_,
            valid.once⟩
          · rcases List.mem_cons.mp member with rfl | old
            · exact ⟨List.mem_cons_self, row, found, holds⟩
            · obtain ⟨isLocked, chosen⟩ := valid.chosen other old
              exact ⟨List.mem_cons_of_mem _ isLocked, chosen⟩
          · exact List.nodup_cons.mpr
              ⟨fun member => unlocked (valid.chosen key member).1, valid.distinct⟩
          · intro new member
            obtain ⟨isChosen, version⟩ := valid.written new member
            exact ⟨List.mem_cons_of_mem _ isChosen, version⟩
        · simp only [holds, decide_false]
          refine ⟨fun other member => ?_, valid.distinct, valid.within, valid.written, valid.once⟩
          obtain ⟨isLocked, chosen⟩ := valid.chosen other member
          exact ⟨List.mem_cons_of_mem _ isLocked, chosen⟩
      · rintro _ ⟨⟩ other member u theirs apart isTheirs inTheirs
        rcases List.mem_cons.mp member with rfl | old
        · exact free u theirs isTheirs inTheirs
        · exact apart (sound.exclusive isTheirs isOpen inTheirs old)
  | skipped => exact sound
  | @wrote session written isOpen covers versions =>
      have valid := sound.valid isOpen
      apply sound.setSession
      · rintro _ ⟨⟩
        refine ⟨valid.chosen, valid.distinct, valid.within, fun new member => ?_, ?_⟩
        · exact ⟨covers.subset (List.mem_map.mpr ⟨new, member, rfl⟩), versions new member⟩
        · exact covers.nodup_iff.mpr valid.distinct
      · rintro _ ⟨⟩ key member u theirs apart isTheirs inTheirs
        exact apart (sound.exclusive isTheirs isOpen inTheirs member)
  | committed isOpen => exact sound.commit isOpen
  | unanswered isOpen => exact (sound.commit isOpen).abort _
  | raised => exact sound.abort _

/-- What a step of a transaction does to the rows and to the history. -/
inductive Updates.Outcome (L : Updates ι κ ρ θ) (ε : Type) (t : ThreadId)
    (v after : Versions ι κ ρ θ) : (c : RowCall ι κ) → Except ε (c.Result ρ) → Prop where
  | quiet {c : RowCall ι κ} {value : c.Result ρ} (rows : after.latest = v.latest)
      (history : after.history = v.history) : Outcome L ε t v after c (.ok value)
  | raised {c : RowCall ι κ} (error : ε) (rows : after.latest = v.latest)
      (history : after.history = v.history ++ [.raised c.statement]) :
      Outcome L ε t v after c (.error error)
  | committed {session : Session ι κ ρ θ} {reply : Except ε Unit}
      (isOpen : v.sessions t = some session)
      (update : AtomicUpdate L session.statement session.now (v.replaced L session) v.latest
        after.latest)
      (history : ∃ lost : List (CommitEntry ι ρ θ),
        after.history = v.history ++
          (.committed session.statement session.now (v.replaced L session) :: lost) ∧
        ∀ entry ∈ lost, entry = .raised session.statement) :
      Outcome L ε t v after (.commit session.statement) reply

theorem Updates.Exec.outcome (sound : v.Sound L) (ran : L.Exec ε t v c reply after) :
    L.Outcome ε t v after c reply := by
  cases ran with
  | began => exact .quiet rfl rfl
  | selected => exact .quiet rfl rfl
  | locked => exact .quiet rfl rfl
  | skipped => exact .quiet rfl rfl
  | wrote => exact .quiet rfl rfl
  | committed isOpen => exact .committed isOpen (sound.atomic isOpen) ⟨[], rfl, nofun⟩
  | @unanswered session isOpen error =>
      refine .committed isOpen (sound.atomic isOpen) ⟨[.raised session.statement], ?_, ?_⟩
      · exact List.append_assoc _ _ _
      · exact fun entry member => List.mem_singleton.mp member
  | raised error => exact .raised error rfl rfl

/-! ### The steps of a known transaction -/

section Known

variable (session : Session ι κ ρ θ)

/-- A snapshot that finds the only row. -/
theorem Updates.Exec.select_only {key : κ} {row : ρ} (isOpen : v.sessions t = some session)
    (accepted : L.accepts session.statement)
    (only : ∀ other, v.latest other = if other = key then some row else none)
    (holds : (L.clause session.statement session.now row).Holds) :
    L.Exec ε t v (.select session.statement) (.ok [key]) v := by
  refine .selected isOpen accepted (List.nodup_singleton _) (fun other => ?_)
    (List.pairwise_singleton _ _)
  rw [List.mem_singleton]
  constructor
  · rintro rfl
    exact ⟨row, (only other).trans (if_pos rfl), holds⟩
  · rintro ⟨found, isFound, _⟩
    by_contra apart
    cases ((only other).trans (if_neg apart)).symm.trans isFound

/-- A free row that satisfies the clause is chosen. -/
theorem Updates.Exec.lock_free {key : κ} {row : ρ} (isOpen : v.sessions t = some session)
    (free : ∀ u other, v.sessions u = some other → key ∉ other.locked)
    (within : ∀ bound, L.limit session.statement = some bound → session.chosen.length < bound)
    (found : v.latest key = some row)
    (holds : (L.clause session.statement session.now row).Holds) :
    L.Exec ε t v (.lock session.statement key) (.ok true)
      (v.setSession t (some (session.lock key true))) := by
  have ran := Exec.locked (L := L) (ε := ε) isOpen free within found
  rwa [decide_eq_true holds] at ran

/-- A free row that no longer satisfies it is not. -/
theorem Updates.Exec.lock_stale {key : κ} (row : ρ) (isOpen : v.sessions t = some session)
    (free : ∀ u other, v.sessions u = some other → key ∉ other.locked)
    (within : ∀ bound, L.limit session.statement = some bound → session.chosen.length < bound)
    (found : v.latest key = some row)
    (fails : ¬ (L.clause session.statement session.now row).Holds) :
    L.Exec ε t v (.lock session.statement key) (.ok false)
      (v.setSession t (some (session.lock key false))) := by
  have ran := Exec.locked (L := L) (ε := ε) isOpen free within found
  rwa [decide_eq_false fails] at ran

theorem Updates.Exec.skip_busy {u : ThreadId} {other : Session ι κ ρ θ} {key : κ}
    (isOpen : v.sessions t = some session) (skips : L.skips session.statement)
    (isOther : v.sessions u = some other) (apart : u ≠ t) (busy : key ∈ other.locked) :
    L.Exec ε t v (.lock session.statement key) (.ok false) v :=
  .skipped isOpen skips isOther apart busy

theorem Updates.Exec.write_rows (written : List ρ) (isOpen : v.sessions t = some session)
    (covers : (written.map L.key).Perm session.chosen)
    (versions : ∀ new ∈ written, ∃ row, v.latest (L.key new) = some row ∧
      new = L.set session.statement session.now row) :
    L.Exec ε t v (.write session.statement) (.ok written)
      (v.setSession t (some { session with written })) :=
  .wrote isOpen covers versions

theorem Updates.Exec.commit_rows (isOpen : v.sessions t = some session) :
    L.Exec ε t v (.commit session.statement) (.ok ()) (v.commit L t session) :=
  .committed isOpen

end Known

/-- What a step adds to the history is of its statement. -/
theorem Updates.Exec.grows (ran : L.Exec ε t v c reply after) :
    ∃ more : List (CommitEntry ι ρ θ), after.history = v.history ++ more ∧
      ∀ entry ∈ more, entry.statement = c.statement := by
  cases ran with
  | committed => exact ⟨_, rfl, fun entry member => by rw [List.mem_singleton.mp member]; rfl⟩
  | unanswered =>
      refine ⟨_, List.append_assoc _ _ _, fun entry member => ?_⟩
      rcases List.mem_cons.mp member with rfl | isRaised
      · rfl
      · rw [List.mem_singleton.mp isRaised]
        rfl
  | raised => exact ⟨_, rfl, fun entry member => by rw [List.mem_singleton.mp member]; rfl⟩
  | _ => exact ⟨[], (List.append_nil _).symm, nofun⟩

/-- An answered step adds nothing to the history before the commit. -/
theorem Updates.Exec.quiet {value : c.Result ρ} (ran : L.Exec ε t v c (.ok value) after)
    (uncommitted : ∀ statement, c ≠ .commit statement) : after.history = v.history := by
  cases ran with
  | committed => exact absurd rfl (uncommitted _)
  | _ => rfl

/-- A step that raised is in the history. -/
theorem Updates.Exec.mem_raised {error : ε} (ran : L.Exec ε t v c (.error error) after) :
    .raised c.statement ∈ after.history := by
  cases ran with
  | unanswered => exact List.mem_append_right _ List.mem_cons_self
  | raised => exact List.mem_append_right _ List.mem_cons_self

/-- The rows a statement returns are what its transaction has written. -/
theorem Updates.Exec.written_of_write {statement : ι} {rows : List ρ}
    (ran : L.Exec ε t v (.write statement) (.ok rows) after) :
    ∃ session, after.sessions t = some session ∧ session.written = rows := by
  cases ran with
  | wrote => exact ⟨_, Function.update_self _ _ _, rfl⟩

/-- A commit that is answered is that of the transaction in progress. -/
theorem Updates.Exec.eq_of_commit {statement : ι}
    (ran : L.Exec ε t v (.commit statement) (.ok ()) after) :
    ∃ session, v.sessions t = some session ∧ session.statement = statement ∧
      after = v.commit L t session := by
  cases ran with
  | committed isOpen => exact ⟨_, isOpen, rfl, rfl⟩

/-- A step leaves the transactions of the others alone. -/
theorem Updates.Exec.sessions_of_ne (ran : L.Exec ε t v c reply after) {u : ThreadId}
    (apart : u ≠ t) : after.sessions u = v.sessions u := by
  cases ran with
  | selected => rfl
  | skipped => rfl
  | unanswered =>
      exact (Function.update_of_ne apart _ _).trans (Function.update_of_ne apart _ _)
  | _ => exact Function.update_of_ne apart _ _

end Steps

end JobPlatform.Foundation
