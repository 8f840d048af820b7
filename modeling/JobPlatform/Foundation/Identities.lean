import Mathlib.Logic.Function.Basic
import Mathlib.Logic.Relation
import JobPlatform.Foundation.AccessPolicy

/-!
Contract: an account of roles and managed policies, and what a principal can obtain in it by calls
that the policies then in force allow.

Owns:
- roles with their trust, their inline policies and their attached policies;
- the calls that change these, and `Step`: a controlled principal makes an allowed call, or assumes
  a role whose trust names it;
- `sealed_of_reachable`: a principal whose allowed calls do not touch its own policies, in runs in
  which nobody lets it in anywhere, controls nothing but itself.

Does not own any concrete account. A call that fails changes nothing.
-/

namespace JobPlatform.Foundation.Access

/-! ### Trust -/

inductive Principal where
  | aws (arn : Arn)
  | everyone
  | federated (provider : Arn)
  | service (name : String)
deriving DecidableEq

structure TrustStatement where
  sid : String
  effect : Effect
  actions : List ActionPattern
  principals : List Principal
  conditions : List Condition := []

abbrev TrustPolicy := List TrustStatement

/-- What a principal needs for a role. -/
def assumeRole : Action :=
  ⟨"sts", "AssumeRole"⟩

/-- The statement names the principal for `sts:AssumeRole`. -/
def TrustStatement.names (statement : TrustStatement) (who : Arn) (context : Context) : Bool :=
  statement.actions.any (·.covers assumeRole) &&
    (statement.principals.contains (.aws who) || statement.principals.contains .everyone) &&
    statement.conditions.all (·.holds context)

/-- The principal can assume a role with this trust. -/
def admits (trust : TrustPolicy) (who : Arn) (context : Context) : Bool :=
  !trust.any (fun statement => statement.effect = .deny && statement.names who context) &&
    trust.any fun statement => statement.effect = .allow && statement.names who context

/-- A trust that names no principal of the account. -/
theorem admits_of_unnamed {trust : TrustPolicy} {who : Arn}
    (unnamed : ∀ statement ∈ trust, .aws who ∉ statement.principals ∧
      .everyone ∉ statement.principals) (context : Context) : admits trust who context = false := by
  have none : (trust.any fun statement =>
      statement.effect = .allow && statement.names who context) = false := by
    rw [List.any_eq_false]
    intro statement member
    obtain ⟨notAws, notEveryone⟩ := unnamed statement member
    simp [TrustStatement.names, notAws, notEveryone]
  unfold admits
  rw [none, Bool.and_false]

/-! ### Accounts -/

structure Role where
  trust : TrustPolicy
  inline : List (String × PolicyDocument)
  attached : List Arn

/-- A customer-managed policy: its versions, how many there have been, and the default one. -/
structure ManagedPolicy where
  versions : Nat → Option PolicyDocument
  created : Nat
  defaultVersion : Nat

/-- A policy with one version. -/
def ManagedPolicy.new (document : PolicyDocument) : ManagedPolicy :=
  ⟨fun version => if version = 0 then some document else none, 1, 0⟩

structure Account where
  roles : Arn → Option Role
  policies : Arn → Option ManagedPolicy

namespace Account

/-- The document of a managed policy that is in force. -/
def document (account : Account) (policyArn : Arn) : PolicyDocument :=
  ((account.policies policyArn).bind fun policy => policy.versions policy.defaultVersion).getD []

/-- The policies of a role. -/
def documentsOf (account : Account) (who : Arn) : List PolicyDocument :=
  match account.roles who with
  | none => []
  | some role => role.inline.map Prod.snd ++ role.attached.map account.document

def setRole (account : Account) (roleArn : Arn) (role? : Option Role) : Account :=
  { account with roles := Function.update account.roles roleArn role? }

def setPolicy (account : Account) (policyArn : Arn) (policy? : Option ManagedPolicy) : Account :=
  { account with policies := Function.update account.policies policyArn policy? }

/-- Change a role, if there is one. -/
def modifyRole (account : Account) (roleArn : Arn) (change : Role → Role) : Account :=
  account.setRole roleArn ((account.roles roleArn).map change)

/-- Change a managed policy, if there is one. -/
def modifyPolicy (account : Account) (policyArn : Arn)
    (change : ManagedPolicy → ManagedPolicy) : Account :=
  account.setPolicy policyArn ((account.policies policyArn).map change)

variable {account : Account} {roleArn policyArn other : Arn}

@[simp]
theorem setRole_roles_self {role? : Option Role} :
    (account.setRole roleArn role?).roles roleArn = role? :=
  Function.update_self _ _ _

@[simp]
theorem setRole_roles_of_ne {role? : Option Role} (apart : other ≠ roleArn) :
    (account.setRole roleArn role?).roles other = account.roles other :=
  Function.update_of_ne apart _ _

@[simp]
theorem setRole_policies {role? : Option Role} :
    (account.setRole roleArn role?).policies = account.policies := rfl

@[simp]
theorem setPolicy_roles {policy? : Option ManagedPolicy} :
    (account.setPolicy policyArn policy?).roles = account.roles := rfl

@[simp]
theorem setPolicy_policies_of_ne {policy? : Option ManagedPolicy} (apart : other ≠ policyArn) :
    (account.setPolicy policyArn policy?).policies other = account.policies other :=
  Function.update_of_ne apart _ _

/-- Putting back what is there. -/
theorem setPolicy_same : account.setPolicy policyArn (account.policies policyArn) = account := by
  unfold setPolicy
  rw [Function.update_eq_self]

/-- A role after a change was there before, or is the new one. -/
theorem setRole_roles {role? : Option Role} {role : Role}
    (found : (account.setRole roleArn role?).roles other = some role) :
    account.roles other = some role ∨ other = roleArn ∧ role? = some role := by
  by_cases same : other = roleArn
  · subst same
    rw [setRole_roles_self] at found
    exact .inr ⟨rfl, found⟩
  · rw [setRole_roles_of_ne same] at found
    exact .inl found

end Account

/-! ### Calls -/

/-- A call to the account. `other` stands for every call that changes none of its policies. -/
inductive AccountCall where
  | createRole (roleArn : Arn) (trust : TrustPolicy)
  | deleteRole (roleArn : Arn)
  | updateAssumeRolePolicy (roleArn : Arn) (trust : TrustPolicy)
  | putRolePolicy (roleArn : Arn) (policyName : String) (document : PolicyDocument)
  | deleteRolePolicy (roleArn : Arn) (policyName : String)
  | attachRolePolicy (roleArn policyArn : Arn)
  | detachRolePolicy (roleArn policyArn : Arn)
  | createPolicy (policyArn : Arn) (document : PolicyDocument)
  | createPolicyVersion (policyArn : Arn) (document : PolicyDocument) (setAsDefault : Bool)
  | setDefaultPolicyVersion (policyArn : Arn) (version : Nat)
  | deletePolicyVersion (policyArn : Arn) (version : Nat)
  | deletePolicy (policyArn : Arn)
  | other (action : Action) (resource : Arn)

namespace AccountCall

/-- The action a call needs. -/
def action : AccountCall → Action
  | createRole .. => ⟨"iam", "CreateRole"⟩
  | deleteRole _ => ⟨"iam", "DeleteRole"⟩
  | updateAssumeRolePolicy .. => ⟨"iam", "UpdateAssumeRolePolicy"⟩
  | putRolePolicy .. => ⟨"iam", "PutRolePolicy"⟩
  | deleteRolePolicy .. => ⟨"iam", "DeleteRolePolicy"⟩
  | attachRolePolicy .. => ⟨"iam", "AttachRolePolicy"⟩
  | detachRolePolicy .. => ⟨"iam", "DetachRolePolicy"⟩
  | createPolicy .. => ⟨"iam", "CreatePolicy"⟩
  | createPolicyVersion .. => ⟨"iam", "CreatePolicyVersion"⟩
  | setDefaultPolicyVersion .. => ⟨"iam", "SetDefaultPolicyVersion"⟩
  | deletePolicyVersion .. => ⟨"iam", "DeletePolicyVersion"⟩
  | deletePolicy _ => ⟨"iam", "DeletePolicy"⟩
  | other action _ => action

/-- The resource a call is about. -/
def resource : AccountCall → Arn
  | createRole roleArn _ => roleArn
  | deleteRole roleArn => roleArn
  | updateAssumeRolePolicy roleArn _ => roleArn
  | putRolePolicy roleArn _ _ => roleArn
  | deleteRolePolicy roleArn _ => roleArn
  | attachRolePolicy roleArn _ => roleArn
  | detachRolePolicy roleArn _ => roleArn
  | createPolicy policyArn _ => policyArn
  | createPolicyVersion policyArn _ _ => policyArn
  | setDefaultPolicyVersion policyArn _ => policyArn
  | deletePolicyVersion policyArn _ => policyArn
  | deletePolicy policyArn => policyArn
  | other _ resource => resource

/-- The policy an attachment is about. -/
def policyArn? : AccountCall → Option Arn
  | attachRolePolicy _ policyArn => some policyArn
  | detachRolePolicy _ policyArn => some policyArn
  | _ => none

/-- The request of a call: an attachment determines `iam:PolicyARN`. -/
def request (call : AccountCall) (context : Context) : Request :=
  ⟨call.action, call.resource, match call.policyArn? with
    | some policyArn => Function.update context "iam:PolicyARN" [policyArn.str]
    | none => context⟩

/-- The trust a call writes. -/
def trust? : AccountCall → Option TrustPolicy
  | createRole _ trust => some trust
  | updateAssumeRolePolicy _ trust => some trust
  | _ => none

/-- The effect of a call. A creation leaves what is there. -/
def run (call : AccountCall) (account : Account) : Account :=
  match call with
  | createRole roleArn trust =>
      account.setRole roleArn (some ((account.roles roleArn).getD ⟨trust, [], []⟩))
  | deleteRole roleArn => account.setRole roleArn none
  | updateAssumeRolePolicy roleArn trust =>
      account.modifyRole roleArn fun role => { role with trust }
  | putRolePolicy roleArn policyName document =>
      account.modifyRole roleArn fun role =>
        { role with inline := (role.inline.filter fun policy => policy.1 ≠ policyName) ++
            [(policyName, document)] }
  | deleteRolePolicy roleArn policyName =>
      account.modifyRole roleArn fun role =>
        { role with inline := role.inline.filter fun policy => policy.1 ≠ policyName }
  | attachRolePolicy roleArn policyArn =>
      account.modifyRole roleArn fun role =>
        { role with attached := (role.attached.filter (· ≠ policyArn)) ++ [policyArn] }
  | detachRolePolicy roleArn policyArn =>
      account.modifyRole roleArn fun role =>
        { role with attached := role.attached.filter (· ≠ policyArn) }
  | createPolicy policyArn document =>
      account.setPolicy policyArn (some ((account.policies policyArn).getD (.new document)))
  | createPolicyVersion policyArn document setAsDefault =>
      account.modifyPolicy policyArn fun policy =>
        { versions := Function.update policy.versions policy.created (some document)
          created := policy.created + 1
          defaultVersion := if setAsDefault then policy.created else policy.defaultVersion }
  | setDefaultPolicyVersion policyArn version =>
      account.modifyPolicy policyArn fun policy =>
        if (policy.versions version).isSome then { policy with defaultVersion := version } else policy
  | deletePolicyVersion policyArn version =>
      account.modifyPolicy policyArn fun policy =>
        if version = policy.defaultVersion then policy
        else { policy with versions := Function.update policy.versions version none }
  | deletePolicy policyArn => account.setPolicy policyArn none
  | other _ _ => account

end AccountCall

/-! ### Runs -/

/-- An account, and the principals whose credentials are held. -/
structure Foothold where
  account : Account
  controlled : List Arn

/-- One step, by calls that meet a condition. -/
inductive Step (meets : Foothold → AccountCall → Prop) : Foothold → Foothold → Prop where
  | call {foothold : Foothold} (who : Arn) (call : AccountCall) (context : Context)
      (controls : who ∈ foothold.controlled)
      (isAllowed : allowed (foothold.account.documentsOf who) (call.request context) = true)
      (met : meets foothold call) :
      Step meets foothold ⟨call.run foothold.account, foothold.controlled⟩
  | assume {foothold : Foothold} (who roleArn : Arn) (role : Role) (context : Context)
      (controls : who ∈ foothold.controlled) (isRole : foothold.account.roles roleArn = some role)
      (admitted : admits role.trust who context = true)
      (undenied : stated .deny (foothold.account.documentsOf who)
        ⟨assumeRole, roleArn, context⟩ = false) :
      Step meets foothold ⟨foothold.account, roleArn :: foothold.controlled⟩

/-- What some run leads to. -/
def Reachable (meets : Foothold → AccountCall → Prop) (first foothold : Foothold) : Prop :=
  Relation.ReflTransGen (Step meets) first foothold

/-- The call lets no controlled principal in: the trust it writes admits none of them. -/
def LetsNobodyIn (foothold : Foothold) (call : AccountCall) : Prop :=
  ∀ trust, call.trust? = some trust → ∀ who ∈ foothold.controlled, ∀ context,
    admits trust who context = false

/-! ### Calls that leave a principal alone -/

/-- The call changes the role itself or one of its managed policies, other than by its trust. -/
def Touches (who : Arn) (attached : List Arn) : AccountCall → Prop
  | .deleteRole roleArn => roleArn = who
  | .putRolePolicy roleArn _ _ => roleArn = who
  | .deleteRolePolicy roleArn _ => roleArn = who
  | .attachRolePolicy roleArn _ => roleArn = who
  | .detachRolePolicy roleArn _ => roleArn = who
  | .createPolicyVersion policyArn _ _ => policyArn ∈ attached
  | .setDefaultPolicyVersion policyArn _ => policyArn ∈ attached
  | .deletePolicyVersion policyArn _ => policyArn ∈ attached
  | .deletePolicy policyArn => policyArn ∈ attached
  | _ => False

/-- The role is there with these policies, each of which is there. -/
structure Has (account : Account) (who : Arn) (inline : List (String × PolicyDocument))
    (attached : List Arn) : Prop where
  role : ∃ trust, account.roles who = some ⟨trust, inline, attached⟩
  policies : ∀ policyArn ∈ attached, account.policies policyArn ≠ none

section Untouched

variable {account : Account} {who : Arn} {inline : List (String × PolicyDocument)}
  {attached : List Arn}

theorem Has.documentsOf (has : Has account who inline attached) :
    account.documentsOf who = inline.map Prod.snd ++ attached.map account.document := by
  obtain ⟨trust, isRole⟩ := has.role
  unfold Account.documentsOf
  rw [isRole]

/-- A change to another role. -/
theorem Has.setRole (has : Has account who inline attached) {roleArn : Arn} {role? : Option Role}
    (apart : roleArn ≠ who) : Has (account.setRole roleArn role?) who inline attached :=
  ⟨by rw [Account.setRole_roles_of_ne apart.symm]; exact has.role, has.policies⟩

/-- A change to a policy that is not attached. -/
theorem Has.setPolicy (has : Has account who inline attached) {policyArn : Arn}
    {policy? : Option ManagedPolicy} (apart : policyArn ∉ attached) :
    Has (account.setPolicy policyArn policy?) who inline attached ∧ ∀ own ∈ attached,
      (account.setPolicy policyArn policy?).document own = account.document own := by
  have same {own : Arn} (member : own ∈ attached) :
      (account.setPolicy policyArn policy?).policies own = account.policies own := by
    refine Account.setPolicy_policies_of_ne ?_
    rintro rfl
    exact apart member
  refine ⟨⟨has.role, fun own member => ?_⟩, fun own member => ?_⟩
  · rw [same member]
    exact has.policies own member
  · unfold Account.document
    rw [same member]

/-- A call that does not touch a role leaves its policies as they are. -/
theorem Has.run (has : Has account who inline attached) {call : AccountCall}
    (untouched : ¬ Touches who attached call) :
    Has (call.run account) who inline attached ∧ ∀ own ∈ attached,
      (call.run account).document own = account.document own := by
  have kept : ∀ own ∈ attached, account.document own = account.document own := fun _ _ => rfl
  cases call with
  | createRole roleArn trust =>
      by_cases same : roleArn = who
      · subst same
        obtain ⟨own, isRole⟩ := has.role
        refine ⟨⟨⟨own, ?_⟩, has.policies⟩, kept⟩
        simp [AccountCall.run, isRole]
      · exact ⟨has.setRole same, kept⟩
  | updateAssumeRolePolicy roleArn trust =>
      by_cases same : roleArn = who
      · subst same
        obtain ⟨own, isRole⟩ := has.role
        refine ⟨⟨⟨trust, ?_⟩, has.policies⟩, kept⟩
        simp [AccountCall.run, Account.modifyRole, isRole]
      · exact ⟨has.setRole same, kept⟩
  | createPolicy policyArn document =>
      cases found : account.policies policyArn with
      | some policy =>
          have unchanged : (AccountCall.createPolicy policyArn document).run account = account := by
            unfold AccountCall.run
            simp only [found, Option.getD_some]
            rw [← found, Account.setPolicy_same]
          rw [unchanged]
          exact ⟨has, kept⟩
      | none => exact has.setPolicy fun member => has.policies policyArn member found
  | deleteRole roleArn => exact ⟨has.setRole untouched, kept⟩
  | putRolePolicy roleArn policyName document => exact ⟨has.setRole untouched, kept⟩
  | deleteRolePolicy roleArn policyName => exact ⟨has.setRole untouched, kept⟩
  | attachRolePolicy roleArn policyArn => exact ⟨has.setRole untouched, kept⟩
  | detachRolePolicy roleArn policyArn => exact ⟨has.setRole untouched, kept⟩
  | createPolicyVersion policyArn document setAsDefault => exact has.setPolicy untouched
  | setDefaultPolicyVersion policyArn version => exact has.setPolicy untouched
  | deletePolicyVersion policyArn version => exact has.setPolicy untouched
  | deletePolicy policyArn => exact has.setPolicy untouched
  | other action resource => exact ⟨has, kept⟩

/-- A role after a call was there before with this trust, or the call wrote its trust. -/
theorem trust_of_run {call : AccountCall} {roleArn : Arn} {role : Role}
    (found : (call.run account).roles roleArn = some role) :
    (∃ old, account.roles roleArn = some old ∧ old.trust = role.trust) ∨
      call.trust? = some role.trust := by
  have modified {target : Arn} {change : Role → Role}
      (found : (account.modifyRole target change).roles roleArn = some role)
      (keeps : ∀ old, (change old).trust = old.trust) :
      ∃ old, account.roles roleArn = some old ∧ old.trust = role.trust := by
    rcases Account.setRole_roles found with before | ⟨rfl, changed⟩
    · exact ⟨role, before, rfl⟩
    · obtain ⟨old, isOld, rfl⟩ := Option.map_eq_some_iff.mp changed
      exact ⟨old, isOld, (keeps old).symm⟩
  cases call with
  | createRole target trust =>
      rcases Account.setRole_roles found with before | ⟨rfl, created⟩
      · exact .inl ⟨role, before, rfl⟩
      · cases isOld : account.roles roleArn with
        | some old =>
            rw [isOld] at created
            cases created
            exact .inl ⟨_, rfl, rfl⟩
        | none =>
            rw [isOld] at created
            cases created
            exact .inr rfl
  | updateAssumeRolePolicy target trust =>
      rcases Account.setRole_roles found with before | ⟨rfl, changed⟩
      · exact .inl ⟨role, before, rfl⟩
      · obtain ⟨old, _, rfl⟩ := Option.map_eq_some_iff.mp changed
        exact .inr rfl
  | deleteRole target =>
      rcases Account.setRole_roles found with before | ⟨_, deleted⟩
      · exact .inl ⟨role, before, rfl⟩
      · cases deleted
  | putRolePolicy target policyName document => exact .inl (modified found fun _ => rfl)
  | deleteRolePolicy target policyName => exact .inl (modified found fun _ => rfl)
  | attachRolePolicy target policyArn => exact .inl (modified found fun _ => rfl)
  | detachRolePolicy target policyArn => exact .inl (modified found fun _ => rfl)
  | _ => exact .inl ⟨role, found, rfl⟩

end Untouched

/-! ### A principal that is alone -/

/-- The principal controls nothing but itself, has its policies, and no role admits it. -/
structure Sealed (who : Arn) (inline : List (String × PolicyDocument)) (attached : List Arn)
    (documents : List PolicyDocument) (foothold : Foothold) : Prop where
  controlled : foothold.controlled = [who]
  has : Has foothold.account who inline attached
  documents : attached.map foothold.account.document = documents
  closed : ∀ roleArn role, foothold.account.roles roleArn = some role → ∀ context,
    admits role.trust who context = false

section Sealed

variable {who : Arn} {inline : List (String × PolicyDocument)} {attached : List Arn}
  {documents : List PolicyDocument}

theorem Sealed.documentsOf {foothold : Foothold}
    (isSealed : Sealed who inline attached documents foothold) :
    foothold.account.documentsOf who = inline.map Prod.snd ++ documents := by
  rw [isSealed.has.documentsOf, isSealed.documents]

/-- A step that lets nobody in, by a principal whose allowed calls do not touch it. -/
theorem Sealed.step
    (guarded : ∀ call context, allowed (inline.map Prod.snd ++ documents)
      (call.request context) = true → ¬ Touches who attached call) {before after : Foothold}
    (isSealed : Sealed who inline attached documents before)
    (step : Step LetsNobodyIn before after) : Sealed who inline attached documents after := by
  cases step with
  | call caller call context controls isAllowed met =>
      rw [isSealed.controlled, List.mem_singleton] at controls
      subst controls
      rw [isSealed.documentsOf] at isAllowed
      obtain ⟨has, same⟩ := isSealed.has.run (guarded call context isAllowed)
      refine ⟨isSealed.controlled, has, ?_, ?_⟩
      · rw [← isSealed.documents]
        exact List.map_congr_left same
      · intro roleArn role found context
        rcases trust_of_run found with ⟨old, isOld, sameTrust⟩ | written
        · exact sameTrust ▸ isSealed.closed roleArn old isOld context
        · refine met _ written caller ?_ context
          rw [isSealed.controlled]
          exact List.mem_cons_self
  | assume caller roleArn role context controls isRole admitted =>
      rw [isSealed.controlled, List.mem_singleton] at controls
      subst controls
      rw [isSealed.closed _ _ isRole] at admitted
      cases admitted

/-- A principal that starts alone stays alone in every run that lets it in nowhere. -/
theorem sealed_of_reachable
    (guarded : ∀ call context, allowed (inline.map Prod.snd ++ documents)
      (call.request context) = true → ¬ Touches who attached call) {first foothold : Foothold}
    (start : Sealed who inline attached documents first)
    (reached : Reachable LetsNobodyIn first foothold) :
    Sealed who inline attached documents foothold := by
  induction reached with
  | refl => exact start
  | tail _ step inductionHypothesis => exact inductionHypothesis.step guarded step

end Sealed

end JobPlatform.Foundation.Access
