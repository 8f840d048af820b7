import Mathlib.Data.List.Induction
import Mathlib.Data.List.FinRange
import JobPlatform.Store.Changes

/-!
Contract: runs of repository transactions, in the order in which they commit.

Owns:
- `Request`, one transaction with all that decides its outcome; `committed`, the contents a list
  of requests leaves;
- `FreshDraws`, the assumption that `uuid4()` never repeats a value;
- the induction rules for properties of every reachable database.

A run is any interleaving of any number of callers: each transaction is one atomic step, and the
arguments of each request are arbitrary.
-/

namespace JobPlatform.Store

open JobPlatform.Foundation
open Repository

/-- One transaction of a run. -/
structure Request where
  call : RepoCall
  inputs : Inputs
  faults : Faults Exn

namespace Request

variable (request : Request) (db : Database)

/-- What the caller gets back. -/
def reply : Except Exn request.call.Result :=
  (request.call.run request.inputs request.faults db).1

/-- The contents afterwards. -/
def after : Database := (request.call.run request.inputs request.faults db).2

/-- The UUIDs the transaction may draw. -/
def drawn : List Uuid := List.ofFn request.inputs.uuid

variable {request db}

/-- A request that raised changed nothing. -/
theorem after_of_error {error : Exn} (raised : request.reply db = .error error) :
    request.after db = db :=
  eq_of_run_error (Prod.ext raised rfl : request.call.run _ _ db = (.error error, request.after db))

/-- A request that returned has its effect. -/
theorem effect {value : request.call.Result} (returned : request.reply db = .ok value) :
    Effect request.inputs db request.call value (request.after db) :=
  effect_of_run (Prod.ext returned rfl : request.call.run _ _ db = (.ok value, request.after db))

/-- A request raises and changes nothing, or returns with its effect. -/
theorem outcome (request : Request) (db : Database) :
    (∃ error, request.reply db = .error error ∧ request.after db = db) ∨
      ∃ value, request.reply db = .ok value ∧
        Effect request.inputs db request.call value (request.after db) := by
  cases replied : request.reply db with
  | error error => exact .inl ⟨error, rfl, after_of_error replied⟩
  | ok value => exact .inr ⟨value, rfl, effect replied⟩

end Request

/-- The contents a list of requests leaves. -/
def committed (db : Database) (requests : List Request) : Database :=
  requests.foldl (fun contents request => request.after contents) db

@[simp] theorem committed_append (db : Database) (first rest : List Request) :
    committed db (first ++ rest) = committed (committed db first) rest :=
  List.foldl_append

@[simp] theorem committed_singleton (db : Database) (request : Request) :
    committed db [request] = request.after db := rfl

/-- All UUIDs a run may have drawn. -/
def drawnBy (requests : List Request) : List Uuid := requests.flatMap Request.drawn

/-- `uuid4()` never gives the same value twice. -/
def FreshDraws (requests : List Request) : Prop := (drawnBy requests).Nodup

/-- The draws of one transaction are new and distinct. -/
structure Inputs.Fresh (inputs : Inputs) (drawn : List Uuid) : Prop where
  distinct : Function.Injective inputs.uuid
  new : ∀ index, inputs.uuid index ∉ drawn

instance (inputs : Inputs) (drawn : List Uuid) : Decidable (inputs.Fresh drawn) :=
  decidable_of_iff ((List.ofFn inputs.uuid).Nodup ∧ ∀ index, inputs.uuid index ∉ drawn)
    ⟨fun fresh => ⟨List.nodup_ofFn.mp fresh.1, fresh.2⟩,
      fun fresh => ⟨List.nodup_ofFn.mpr fresh.distinct, fresh.new⟩⟩

/-- Inputs with numbered draws, no row locked and rows in table order, for concrete runs. -/
def Inputs.numbered (number : Nat) (now : Time) : Inputs where
  uuid index := Uuid.ofInt (3 * number + index)
  now := now
  plan := ⟨fun _ => 0, fun _ => false, fun _ => 0⟩

/-- An invariant of the database alone: every effect keeps it. -/
theorem committed_invariant {P : Database → Prop} {db : Database} (start : P db)
    (keeps : ∀ {inputs contents call value after}, P contents →
      Effect inputs contents call value after → P after)
    (requests : List Request) : P (committed db requests) := by
  induction requests using List.reverseRecOn with
  | nil => exact start
  | append_singleton before request inductionHypothesis =>
      rw [committed_append, committed_singleton]
      rcases request.outcome (committed db before) with
        ⟨_, _, unchanged⟩ | ⟨value, _, effect⟩
      · rw [unchanged]
        exact inductionHypothesis
      · exact keeps inductionHypothesis effect

end JobPlatform.Store
