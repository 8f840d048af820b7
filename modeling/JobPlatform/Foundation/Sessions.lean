import Mathlib.Logic.Function.Basic
import JobPlatform.Foundation.ThreadPool

/-!
Contract: a store that is written through the transactions of its sessions.

Owns:
- `Storage`, what a write does to the data and what a read answers, and the replay of writes;
- the calls of a session, and an advisory lock that a transaction holds until it ends;
- `Exclusive` and `Waits`, the invariant and the guarantee of sessions that take the lock before
  they write.

A statement sees the data committed before it and the writes of its own transaction. A statement
that raises has no effect.

Does not own: what the data is, or which statements a program makes.
-/

namespace JobPlatform.Foundation

/-- What a write does to the data, and what a read of it answers. -/
structure Storage (δ ω ρ ε : Type) where
  apply : ω → δ → Except ε δ
  query : δ → Except ε ρ

/-- The data after some writes. -/
def Storage.replay {δ ω ρ ε : Type} (storage : Storage δ ω ρ ε) (writes : List ω) (data : δ) :
    Except ε δ :=
  writes.foldlM (fun current write => storage.apply write current) data

/-- The committed data, what each session wrote in the transaction it has open, and the session
that holds the lock. -/
structure SessionStore (δ ω : Type) where
  committed : δ
  sessions : ThreadId → Option (List ω)
  lock : Option ThreadId

inductive SessionCall (ω : Type) where
  | begin
  | advisoryLock
  | write (value : ω)
  | read
  | commit
  | rollback
  | close

abbrev SessionCall.Result {ω : Type} (ρ : Type) : SessionCall ω → Type
  | .read => ρ
  | _ => Unit

namespace SessionStore

variable {δ ω ρ ε : Type}

/-- The session ends: its open transaction is undone and its lock is free again. -/
def endSession (t : ThreadId) (store : SessionStore δ ω) : SessionStore δ ω where
  committed := store.committed
  sessions := Function.update store.sessions t none
  lock := if store.lock = some t then none else store.lock

/-- What the session wrote in its open transaction. -/
def setWrites (t : ThreadId) (writes : List ω) (store : SessionStore δ ω) : SessionStore δ ω :=
  { store with sessions := Function.update store.sessions t (some writes) }

/-- A call of session `t`: the reply and the store after it. -/
inductive Performs (storage : Storage δ ω ρ ε) (t : ThreadId) (store : SessionStore δ ω) :
    (c : SessionCall ω) → Except ε (c.Result ρ) → SessionStore δ ω → Prop where
  | began (idle : store.sessions t = none) : Performs storage t store .begin (.ok ())
      (store.setWrites t [])
  | locked {writes : List ω} (opened : store.sessions t = some writes)
      (free : store.lock = none ∨ store.lock = some t) :
      Performs storage t store .advisoryLock (.ok ()) { store with lock := some t }
  | wrote {writes : List ω} {value : ω} {data : δ} (opened : store.sessions t = some writes)
      (applies : storage.replay (writes ++ [value]) store.committed = .ok data) :
      Performs storage t store (.write value) (.ok ()) (store.setWrites t (writes ++ [value]))
  | answered {writes : List ω} {data : δ} (opened : store.sessions t = some writes)
      (seen : storage.replay writes store.committed = .ok data) :
      Performs storage t store .read (storage.query data) store
  | committed {writes : List ω} {data : δ} (opened : store.sessions t = some writes)
      (applies : storage.replay writes store.committed = .ok data) :
      Performs storage t store .commit (.ok ()) { store.endSession t with committed := data }
  | rolledBack {writes : List ω} (opened : store.sessions t = some writes) :
      Performs storage t store .rollback (.ok ()) (store.endSession t)
  | closed : Performs storage t store .close (.ok ()) (store.endSession t)
  | raised {c : SessionCall ω} {error : ε} (statement : c ≠ .close) :
      Performs storage t store c (.error error) store

section Frame

variable {storage : Storage δ ω ρ ε} {t u : ThreadId} {store after : SessionStore δ ω}
  {c : SessionCall ω} {reply : Except ε (c.Result ρ)}

@[simp] theorem endSession_self : (store.endSession t).sessions t = none :=
  Function.update_self _ _ _

theorem endSession_other (other : u ≠ t) :
    (store.endSession t).sessions u = store.sessions u :=
  Function.update_of_ne other _ _

theorem endSession_lock (other : u ≠ t) (holds : store.lock = some u) :
    (store.endSession t).lock = some u := by
  have notOwn : store.lock ≠ some t := by
    rw [holds]
    exact fun same => other (Option.some.inj same)
  exact (if_neg notOwn).trans holds

@[simp] theorem setWrites_self {writes : List ω} :
    (store.setWrites t writes).sessions t = some writes :=
  Function.update_self _ _ _

theorem setWrites_other {writes : List ω} (other : u ≠ t) :
    (store.setWrites t writes).sessions u = store.sessions u :=
  Function.update_of_ne other _ _

/-- A call that raised left the store alone. -/
theorem Performs.error_same {error : ε} (performed : Performs storage t store c (.error error) after) :
    after = store := by
  generalize isReply : (Except.error error : Except ε (c.Result ρ)) = reply at performed
  cases performed with
  | answered opened seen => rfl
  | raised statement => rfl
  | _ => cases isReply

/-- Only a commit changes what is committed. -/
theorem Performs.committed_same (performed : Performs storage t store c reply after)
    (notCommit : c ≠ .commit) : after.committed = store.committed := by
  cases performed with
  | committed opened applies => exact absurd rfl notCommit
  | _ => rfl

/-- A commit that returned replayed the writes of its transaction. -/
theorem Performs.commit_ok (performed : Performs storage t store .commit (.ok ()) after) :
    ∃ writes, store.sessions t = some writes ∧
      storage.replay writes store.committed = .ok after.committed := by
  cases performed with
  | committed opened applies => exact ⟨_, opened, applies⟩

/-- A call leaves the other sessions alone. -/
theorem Performs.sessions_other (performed : Performs storage t store c reply after)
    (other : u ≠ t) : after.sessions u = store.sessions u := by
  cases performed with
  | began idle => exact setWrites_other other
  | wrote opened applies => exact setWrites_other other
  | committed opened applies => exact endSession_other other
  | rolledBack opened => exact endSession_other other
  | closed => exact endSession_other other
  | _ => rfl

/-- No call takes the lock from another session. -/
theorem Performs.lock_other (performed : Performs storage t store c reply after) (other : u ≠ t)
    (holds : store.lock = some u) : after.lock = some u := by
  cases performed with
  | locked opened free =>
      rw [holds] at free
      rcases free with isNone | same
      · cases isNone
      · exact absurd (Option.some.inj same) other
  | committed opened applies => exact endSession_lock other holds
  | rolledBack opened => exact endSession_lock other holds
  | closed => exact endSession_lock other holds
  | _ => exact holds

end Frame

/-! ### Sessions that lock before they write -/

/-- Only the session that holds the lock has written anything. -/
def Exclusive (store : SessionStore δ ω) : Prop :=
  ∀ t writes, store.sessions t = some writes → writes ≠ [] → store.lock = some t

/-- What a session asks of itself: it holds the lock when it writes. -/
def LocksFirst (t : ThreadId) (store : SessionStore δ ω) : SessionCall ω → Prop
  | .write _ => ∀ writes, store.sessions t = some writes → store.lock = some t
  | _ => True

/-- What a session may rely on: nobody but the server ends it, and while it holds the lock nobody
else commits a write. -/
def Waits (t : ThreadId) (store after : SessionStore δ ω) : Prop :=
  after.sessions t = none ∨
    after.sessions t = store.sessions t ∧
      (store.lock = some t → after.lock = some t ∧ after.committed = store.committed)

theorem waits_refl (t : ThreadId) (store : SessionStore δ ω) : Waits t store store :=
  .inr ⟨rfl, fun holds => ⟨holds, rfl⟩⟩

theorem Waits.trans {t : ThreadId} {store middle after : SessionStore δ ω}
    (first : Waits t store middle) (second : Waits t middle after) : Waits t store after := by
  rcases second with ended | ⟨sameAfter, keptAfter⟩
  · exact .inl ended
  rcases first with ended | ⟨same, kept⟩
  · exact .inl (sameAfter.trans ended)
  · refine .inr ⟨sameAfter.trans same, fun holds => ?_⟩
    obtain ⟨still, sameData⟩ := kept holds
    obtain ⟨stillAfter, sameDataAfter⟩ := keptAfter still
    exact ⟨stillAfter, sameDataAfter.trans sameData⟩

section Lock

variable {storage : Storage δ ω ρ ε} {t u : ThreadId} {store after : SessionStore δ ω}
  {c : SessionCall ω} {reply : Except ε (c.Result ρ)}

theorem Exclusive.endSession (exclusive : Exclusive store) (t : ThreadId) :
    Exclusive (store.endSession t) := by
  intro u writes opened written
  have other : u ≠ t := by
    rintro rfl
    rw [endSession_self] at opened
    cases opened
  rw [endSession_other other] at opened
  exact endSession_lock other (exclusive u writes opened written)

theorem Exclusive.setWrites {writes : List ω} (exclusive : Exclusive store)
    (locked : writes ≠ [] → store.lock = some t) : Exclusive (store.setWrites t writes) := by
  intro u others opened written
  by_cases same : u = t
  · subst same
    rw [setWrites_self] at opened
    cases opened
    exact locked written
  · rw [setWrites_other same] at opened
    exact exclusive u others opened written

theorem Exclusive.performs (exclusive : Exclusive store) (allowed : LocksFirst t store c)
    (performed : Performs storage t store c reply after) : Exclusive after := by
  cases performed with
  | began idle => exact exclusive.setWrites fun written => absurd rfl written
  | locked opened free =>
      intro u writes isOpen written
      have holds := exclusive u writes isOpen written
      rcases free with isNone | isOwn
      · rw [isNone] at holds
        cases holds
      · exact isOwn.symm.trans holds
  | wrote opened applies => exact exclusive.setWrites fun _ => allowed _ opened
  | committed opened applies => exact exclusive.endSession t
  | rolledBack opened => exact exclusive.endSession t
  | closed => exact exclusive.endSession t
  | _ => exact exclusive

/-- While another session holds the lock, a commit has nothing to commit. -/
theorem Exclusive.committed_kept (exclusive : Exclusive store)
    (performed : Performs storage t store c reply after) (other : u ≠ t)
    (holds : store.lock = some u) : after.committed = store.committed := by
  cases performed with
  | @committed writes data opened applies =>
      have nothing : writes = [] := by
        by_contra written
        rw [exclusive t writes opened written] at holds
        exact other (Option.some.inj holds).symm
      subst nothing
      exact (Except.ok.inj applies).symm
  | _ => rfl

theorem Exclusive.waits (exclusive : Exclusive store)
    (performed : Performs storage t store c reply after) (other : u ≠ t) : Waits u store after :=
  .inr ⟨performed.sessions_other other, fun holds =>
    ⟨performed.lock_other other holds, exclusive.committed_kept performed other holds⟩⟩

/-- The server ended a session, for instance because its process is gone. -/
theorem endSession_waits (t u : ThreadId) (store : SessionStore δ ω) :
    Waits u store (store.endSession t) := by
  by_cases same : u = t
  · subst same
    exact .inl endSession_self
  · exact .inr ⟨endSession_other same, fun holds => ⟨endSession_lock same holds, rfl⟩⟩

end Lock

end SessionStore

end JobPlatform.Foundation
