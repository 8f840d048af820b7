import Mathlib.Data.List.Infix

/-!
Contract: policy documents over named resources, and when they allow a request.

Owns:
- `glob`, patterns with wildcards, and resource names with patterns for them;
- statements: an effect, actions, resources and conditions;
- `allowed`: an explicit deny wins, otherwise some statement has to allow the request;
- `grantsOn`: what documents allow of one service, an upper bound that can be computed.

Does not own who has which documents.
-/

namespace JobPlatform.Foundation.Access

/-! ### Patterns -/

/-- `*` stands for any text and `?` for any character. -/
def glob : List Char → List Char → Bool
  | [], text => text.isEmpty
  | '*' :: rest, text => text.tails.any (glob rest)
  | '?' :: rest, text =>
      match text with
      | [] => false
      | _ :: later => glob rest later
  | c :: rest, text =>
      match text with
      | [] => false
      | first :: later => first = c && glob rest later

/-- A pattern matches itself. -/
theorem glob_self (text : List Char) : glob text text = true := by
  induction text with
  | nil => rfl
  | cons c rest inductionHypothesis =>
      unfold glob
      split
      next => contradiction
      next matched =>
        cases matched
        refine List.any_eq_true.mpr ⟨rest, ?_, inductionHypothesis⟩
        exact (List.mem_tails _ _).mpr (List.suffix_cons _ _)
      next matched =>
        cases matched
        exact inductionHypothesis
      next matched =>
        cases matched
        simpa using inductionHypothesis

theorem glob_star (text : List Char) : glob "*".toList text = true :=
  List.any_eq_true.mpr ⟨[], (List.mem_tails _ _).mpr List.nil_suffix, rfl⟩

/-- Text before a final `*` matches every text that it begins. -/
theorem glob_append_star (text rest : List Char) : glob (text ++ ['*']) (text ++ rest) = true := by
  induction text with
  | nil => exact glob_star rest
  | cons c text inductionHypothesis =>
      rw [List.cons_append, List.cons_append]
      unfold glob
      split
      next => contradiction
      next matched =>
        cases matched
        refine List.any_eq_true.mpr ⟨text ++ rest, ?_, inductionHypothesis⟩
        exact (List.mem_tails _ _).mpr (List.suffix_cons _ _)
      next matched =>
        cases matched
        exact inductionHypothesis
      next matched =>
        cases matched
        simpa using inductionHypothesis

/-- Names of actions are compared without regard to case. -/
def globName (pattern name : String) : Bool :=
  glob (pattern.toList.map Char.toLower) (name.toList.map Char.toLower)

/-- `arn:aws:service:region:account:resource`. -/
structure Arn where
  service : String
  region : String
  account : String
  resource : String
deriving DecidableEq

/-- The name as text. -/
def Arn.str (arn : Arn) : String :=
  "arn:aws:" ++ arn.service ++ ":" ++ arn.region ++ ":" ++ arn.account ++ ":" ++ arn.resource

/-- `*`, or a name with wildcards in its segments. -/
inductive ResourcePattern where
  | any
  | named (pattern : Arn)

namespace ResourcePattern

def covers : ResourcePattern → Arn → Bool
  | any, _ => true
  | named pattern, arn =>
      pattern.service = arn.service && glob pattern.region.toList arn.region.toList &&
        glob pattern.account.toList arn.account.toList &&
        glob pattern.resource.toList arn.resource.toList

theorem covers_self (arn : Arn) : (named arn).covers arn = true := by
  simp [ResourcePattern.covers, glob_self]

/-- The last segment. -/
def path : ResourcePattern → String
  | any => "*"
  | named pattern => pattern.resource

theorem glob_path {pattern : ResourcePattern} {arn : Arn} (matched : pattern.covers arn = true) :
    glob pattern.path.toList arn.resource.toList = true := by
  cases pattern with
  | any => exact glob_star _
  | named pattern =>
      unfold ResourcePattern.covers at matched
      rw [Bool.and_eq_true] at matched
      exact matched.2

end ResourcePattern

/-- `service:name`. -/
structure Action where
  service : String
  name : String

/-- `*`, or names of a service with wildcards. -/
inductive ActionPattern where
  | any
  | of (service : String) (names : List String)

def ActionPattern.covers : ActionPattern → Action → Bool
  | any, _ => true
  | of service names, action =>
      service = action.service && names.any (globName · action.name)

/-! ### Statements -/

/-- What a request says beside its action and resource: the values of each condition key. -/
abbrev Context := String → List String

inductive ConditionTest where
  | stringEquals
  | forAnyValueStringEquals
  | arnNotEquals
deriving DecidableEq

/-- One line of a condition block. -/
structure Condition where
  test : ConditionTest
  key : String
  values : List String

/-- A negated test holds of an absent key, and the others do not. -/
def Condition.holds (condition : Condition) (context : Context) : Bool :=
  match condition.test with
  | .stringEquals => (context condition.key).any (condition.values.contains ·)
  | .forAnyValueStringEquals => (context condition.key).any (condition.values.contains ·)
  | .arnNotEquals =>
      !(context condition.key).any fun value =>
        condition.values.any fun pattern => glob pattern.toList value.toList

inductive Effect where
  | allow
  | deny
deriving DecidableEq

structure Statement where
  sid : String
  effect : Effect
  actions : List ActionPattern
  resources : List ResourcePattern
  conditions : List Condition := []

/-- A call, as the evaluation of policies sees it. -/
structure Request where
  action : Action
  resource : Arn
  context : Context

/-- The statement is about this action. -/
def Statement.covers (statement : Statement) (action : Action) : Bool :=
  statement.actions.any (·.covers action)

def Statement.applies (statement : Statement) (request : Request) : Bool :=
  statement.covers request.action && statement.resources.any (·.covers request.resource) &&
    statement.conditions.all (·.holds request.context)

abbrev PolicyDocument := List Statement

/-- Some statement with this effect applies. -/
def stated (effect : Effect) (documents : List PolicyDocument) (request : Request) : Bool :=
  documents.any fun document => document.any fun statement =>
    statement.effect = effect && statement.applies request

/-- An explicit deny wins, otherwise an allow is needed. -/
def allowed (documents : List PolicyDocument) (request : Request) : Bool :=
  !stated .deny documents request && stated .allow documents request

theorem stated_iff {effect : Effect} {documents : List PolicyDocument} {request : Request} :
    stated effect documents request = true ↔ ∃ document ∈ documents, ∃ statement ∈ document,
      statement.effect = effect ∧ statement.applies request = true := by
  simp [stated]

/-- A list of names covers each of them. -/
theorem ResourcePattern.any_named {resources : List Arn} {resource : Arn}
    (isResource : resource ∈ resources) :
    (resources.map ResourcePattern.named).any (·.covers resource) = true :=
  List.any_eq_true.mpr
    ⟨named resource, List.mem_map_of_mem isResource, ResourcePattern.covers_self resource⟩

/-- A statement without conditions applies to what it lists. -/
theorem Statement.applies_of_listed {statement : Statement} {service name : String} {resource : Arn}
    {context : Context} {names : List String} (actions : statement.actions = [.of service names])
    (isName : name ∈ names) (about : statement.resources.any (·.covers resource) = true)
    (unconditional : statement.conditions = []) :
    statement.applies ⟨⟨service, name⟩, resource, context⟩ = true := by
  have listed : names.any (globName · name) = true :=
    List.any_eq_true.mpr ⟨name, isName, glob_self _⟩
  have covers : statement.covers ⟨service, name⟩ = true := by
    unfold Statement.covers
    rw [actions]
    simp [ActionPattern.covers, listed]
  unfold Statement.applies
  rw [covers, about, unconditional]
  rfl

/-- A statement that denies, found by its name. -/
theorem not_allowed_of_deny {documents : List PolicyDocument} {request : Request}
    {document : PolicyDocument} {statement : Statement} {sid : String}
    (attached : document ∈ documents) (found : document.find? (·.sid = sid) = some statement)
    (denies : statement.effect = .deny) (applies : statement.applies request = true) :
    allowed documents request = false := by
  have denied : stated .deny documents request = true :=
    stated_iff.mpr ⟨document, attached, statement, List.mem_of_find?_eq_some found, denies, applies⟩
  unfold allowed
  rw [denied]
  rfl

/-! ### What documents grant -/

/-- Names of actions, and the last segments of the resources they are allowed on. -/
structure Grant where
  names : List String
  paths : List String

def Grant.permits (grant : Grant) (name path : String) : Bool :=
  grant.names.any (globName · name) && grant.paths.any (glob ·.toList path.toList)

/-- The names of a service that a pattern is about. -/
def ActionPattern.namesOf (service : String) : ActionPattern → Option (List String)
  | any => some ["*"]
  | of own names => if own = service then some names else none

/-- What a statement allows of a service. -/
def Statement.grants (service : String) (statement : Statement) : List Grant :=
  match statement.effect with
  | .deny => []
  | .allow =>
      (statement.actions.filterMap (·.namesOf service)).map
        (⟨·, statement.resources.map ResourcePattern.path⟩)

/-- What documents allow of a service, conditions and denials aside. -/
def grantsOn (service : String) (documents : List PolicyDocument) : List Grant :=
  documents.flatten.flatMap (·.grants service)

theorem ActionPattern.namesOf_of_covers {pattern : ActionPattern} {action : Action}
    (matched : pattern.covers action = true) :
    ∃ names, pattern.namesOf action.service = some names ∧
      names.any (globName · action.name) = true := by
  cases pattern with
  | any =>
      refine ⟨["*"], rfl, List.any_eq_true.mpr ⟨"*", List.mem_singleton_self _, ?_⟩⟩
      exact glob_star _
  | of service names =>
      unfold ActionPattern.covers at matched
      simp only [Bool.and_eq_true, decide_eq_true_eq] at matched
      exact ⟨names, if_pos matched.1, matched.2⟩

/-- What is allowed is granted. -/
theorem granted_of_allowed {documents : List PolicyDocument} {request : Request}
    (isAllowed : allowed documents request = true) :
    ∃ grant ∈ grantsOn request.action.service documents,
      grant.permits request.action.name request.resource.resource = true := by
  unfold allowed at isAllowed
  rw [Bool.and_eq_true] at isAllowed
  obtain ⟨document, attached, statement, member, allows, applies⟩ := stated_iff.mp isAllowed.2
  unfold Statement.applies Statement.covers at applies
  simp only [Bool.and_eq_true, List.any_eq_true] at applies
  obtain ⟨⟨⟨action, isAction, covered⟩, resource, isResource, matched⟩, _⟩ := applies
  obtain ⟨names, found, named⟩ := action.namesOf_of_covers covered
  refine ⟨⟨names, statement.resources.map ResourcePattern.path⟩, ?_, ?_⟩
  · refine List.mem_flatMap.mpr ⟨statement, List.mem_flatten.mpr ⟨document, attached, member⟩, ?_⟩
    unfold Statement.grants
    rw [allows]
    exact List.mem_map_of_mem (List.mem_filterMap.mpr ⟨action, isAction, found⟩)
  · unfold Grant.permits
    rw [Bool.and_eq_true]
    refine ⟨named, List.any_eq_true.mpr ⟨resource.path, List.mem_map_of_mem isResource, ?_⟩⟩
    exact ResourcePattern.glob_path matched

end JobPlatform.Foundation.Access
