import JobPlatform.Deployment.Bootstrap

/-!
Contract: what Terraform Apply can obtain (`docs/operations/deployment-iam.md`, the identities).

Owns:
- `Protected`: the requests that belong to bootstrap, to the publisher and to the release;
- the policies of Terraform Apply refuse them, and do not let it touch these policies;
- `refused_of_reachable`: so does every run in which it lets nobody into a role.

The denials bind Terraform Apply itself. They do not bind the roles of the development root, whose
trust and inline policies it may write: `escalates` is the run that makes use of this.
-/

namespace JobPlatform.Deployment

open Foundation.Access

/-- What the identities are separated by. -/
inductive Protected (var : Variables) : Request → Prop where
  | bootstrapState {name : String} {object : Arn} {context : Context}
      (isName : name ∈ ["DeleteObject", "GetObject", "PutObject"])
      (isObject : object ∈ var.bootstrapStateObjectArns) :
      Protected var ⟨⟨"s3", name⟩, object, context⟩
  | publish {repository : Arn} {context : Context}
      (isRepository : repository ∈ var.projectEcrRepositoryArns) :
      Protected var ⟨⟨"ecr", "PutImage"⟩, repository, context⟩
  | runTask {resource : Arn} {context : Context} :
      Protected var ⟨⟨"ecs", "RunTask"⟩, resource, context⟩
  | githubRole {name : String} {roleArn : Arn} {context : Context}
      (isName : name ∈ ["UpdateAssumeRolePolicy", "DeleteRolePolicy", "PutRolePolicy"])
      (isRole : roleArn ∈ var.githubProjectRoleArns) :
      Protected var ⟨⟨"iam", name⟩, roleArn, context⟩

/-! ### The policies of Terraform Apply -/

section Apply

variable (var : Variables)

/-- The documents that are attached. -/
def applyDocuments : List PolicyDocument :=
  var.terraformApplyPolicies.map Prod.snd

/-- A denial that is attached refuses what it lists. -/
theorem refused_of_deny (sid : String) {document : PolicyDocument} {statement : Statement}
    {service name : String} {resource : Arn} {context : Context} {names : List String}
    (attached : document ∈ applyDocuments var)
    (found : document.find? (·.sid = sid) = some statement) (denies : statement.effect = .deny)
    (actions : statement.actions = [.of service names]) (isName : name ∈ names)
    (about : statement.resources.any (·.covers resource) = true)
    (unconditional : statement.conditions = []) :
    allowed (applyDocuments var) ⟨⟨service, name⟩, resource, context⟩ = false :=
  not_allowed_of_deny attached found denies
    (Statement.applies_of_listed actions isName about unconditional)

theorem backend_attached :
    var.githubDevelopmentTerraformApplyBackend ∈ applyDocuments var := by
  simp [applyDocuments, Variables.terraformApplyPolicies]

theorem runtime_attached :
    var.githubDevelopmentTerraformApplyRuntime ∈ applyDocuments var := by
  simp [applyDocuments, Variables.terraformApplyPolicies]

theorem boundaries_attached :
    var.githubDevelopmentTerraformApplyDeploymentBoundaries ∈ applyDocuments var := by
  simp [applyDocuments, Variables.terraformApplyPolicies]

/-- The trust of a GitHub role, and whether it is there, are out of reach. -/
theorem administration_refused {name : String} {roleArn : Arn} {context : Context}
    (isName : name ∈ ["DeleteRole", "UpdateAssumeRolePolicy"])
    (isRole : roleArn ∈ var.githubProjectRoleArns) :
    allowed (applyDocuments var) ⟨⟨"iam", name⟩, roleArn, context⟩ = false := by
  refine refused_of_deny var "DenyDeploymentRoleAdministration" (boundaries_attached var) rfl rfl
    rfl ?_ (ResourcePattern.any_named isRole) rfl
  revert isName
  simp only [List.mem_cons, List.not_mem_nil, or_false]
  tauto

/-- So are its inline policies. -/
theorem inline_refused {name : String} {roleArn : Arn} {context : Context}
    (isName : name ∈ ["DeleteRolePolicy", "PutRolePolicy"])
    (isRole : roleArn ∈ var.githubProjectRoleArns) :
    allowed (applyDocuments var) ⟨⟨"iam", name⟩, roleArn, context⟩ = false :=
  refused_of_deny var "DenyDeploymentRoleInlinePolicies" (boundaries_attached var) rfl rfl rfl
    isName (ResourcePattern.any_named isRole) rfl

/-- Terraform Apply itself is refused what is protected. -/
theorem apply_refused {request : Request} (isProtected : Protected var request) :
    allowed (applyDocuments var) request = false := by
  cases isProtected with
  | bootstrapState isName isObject =>
      exact refused_of_deny var "DenyBootstrapStateAccess" (backend_attached var) rfl rfl rfl
        isName (ResourcePattern.any_named isObject) rfl
  | publish isRepository =>
      exact refused_of_deny var "DenyEcrImagePublishing" (runtime_attached var) rfl rfl rfl
        (by simp) (ResourcePattern.any_named isRepository) rfl
  | runTask =>
      exact refused_of_deny var "DenyMigrationTaskExecution" (runtime_attached var) rfl rfl rfl
        (by simp) rfl rfl
  | githubRole isName isRole =>
      rcases List.mem_cons.mp isName with rfl | isInline
      · exact administration_refused var (by simp) isRole
      · exact inline_refused var isInline isRole

/-- What the policies grant of IAM, with the names of any account. -/
def applyGrants : List Grant :=
  grantsOn "iam" (applyDocuments (.withDefaults "" ""))

/-- The grants do not depend on the variables. -/
theorem grantsOn_iam : grantsOn "iam" (applyDocuments var) = applyGrants := rfl

/-- The paths of the policies of Terraform Apply. -/
def applyPaths : List String :=
  (Variables.withDefaults "" "").terraformApplyPolicies.map Prod.fst

theorem paths_eq : var.terraformApplyPolicies.map Prod.fst = applyPaths := rfl

/-- No grant lets anybody write a policy of Terraform Apply. -/
theorem policies_ungranted :
    ∀ name ∈ ["CreatePolicyVersion", "SetDefaultPolicyVersion", "DeletePolicyVersion",
      "DeletePolicy"], ∀ path ∈ applyPaths, ∀ grant ∈ applyGrants,
        grant.permits name path = false := by
  decide +kernel

theorem policy_refused {name : String} {policyArn : Arn} {context : Context}
    (isName : name ∈ ["CreatePolicyVersion", "SetDefaultPolicyVersion", "DeletePolicyVersion",
      "DeletePolicy"]) (isPolicy : policyArn ∈ var.terraformApplyPolicyArns) :
    allowed (applyDocuments var) ⟨⟨"iam", name⟩, policyArn, context⟩ = false := by
  by_contra isAllowed
  rw [Bool.not_eq_false] at isAllowed
  obtain ⟨grant, isGrant, permits⟩ := granted_of_allowed isAllowed
  obtain ⟨policy, isOwn, rfl⟩ := List.mem_map.mp isPolicy
  have isPath : policy.1 ∈ applyPaths := paths_eq var ▸ List.mem_map_of_mem isOwn
  rw [grantsOn_iam] at isGrant
  have refused := policies_ungranted name isName policy.1 isPath grant isGrant
  exact Bool.noConfusion (permits.symm.trans refused)

/-- So are the attachments of Terraform Apply. -/
theorem attachment_refused {name : String} {context : Context}
    (isName : name ∈ ["AttachRolePolicy", "DetachRolePolicy"]) :
    allowed (applyDocuments var)
      ⟨⟨"iam", name⟩, var.githubDevelopmentTerraformApplyRoleArn, context⟩ = false := by
  refine refused_of_deny var "DenyManagedPolicyAttachmentsOutsideApprovedExceptions"
    (boundaries_attached var) rfl rfl rfl isName ?_ rfl
  refine List.any_eq_true.mpr ⟨_, ?_, ResourcePattern.covers_self _⟩
  simp

/-- A call that touches Terraform Apply is refused. -/
theorem touching_refused {call : AccountCall} {context : Context}
    (touches : Touches var.githubDevelopmentTerraformApplyRoleArn var.terraformApplyPolicyArns
      call) : allowed (applyDocuments var) (call.request context) = false := by
  have own : var.githubDevelopmentTerraformApplyRoleArn ∈ var.githubProjectRoleArns := by
    simp [Variables.githubProjectRoleArns]
  cases call with
  | deleteRole roleArn =>
      cases touches
      exact administration_refused var (by simp) own
  | putRolePolicy roleArn policyName document =>
      cases touches
      exact inline_refused var (by simp) own
  | deleteRolePolicy roleArn policyName =>
      cases touches
      exact inline_refused var (by simp) own
  | attachRolePolicy roleArn policyArn =>
      cases touches
      exact attachment_refused var (by simp)
  | detachRolePolicy roleArn policyArn =>
      cases touches
      exact attachment_refused var (by simp)
  | createPolicyVersion policyArn document setAsDefault =>
      exact policy_refused var (by simp) touches
  | setDefaultPolicyVersion policyArn version => exact policy_refused var (by simp) touches
  | deletePolicyVersion policyArn version => exact policy_refused var (by simp) touches
  | deletePolicy policyArn => exact policy_refused var (by simp) touches
  | createRole => cases touches
  | updateAssumeRolePolicy => cases touches
  | createPolicy => cases touches
  | other => cases touches

end Apply

/-! ### The account at the start -/

section Bootstrap

variable (var : Variables) (awsManaged : Arn → Option ManagedPolicy)

theorem paths_nodup : applyPaths.Nodup := by
  decide +kernel

/-- What is listed under a key that is listed once. -/
theorem lookup_of_mem {β : Type} {entries : List (String × β)} {entry : String × β}
    (nodup : (entries.map Prod.fst).Nodup) (member : entry ∈ entries) :
    entries.lookup entry.1 = some entry.2 := by
  obtain ⟨before, after, rfl⟩ := List.append_of_mem member
  refine List.lookup_eq_some_iff.mpr ⟨before, after, rfl, fun other earlier => ?_⟩
  rw [List.map_append, List.map_cons, List.nodup_append] at nodup
  exact bne_iff_ne.mpr fun same =>
    nodup.2.2 _ (List.mem_map_of_mem earlier) _ List.mem_cons_self same.symm

/-- A policy of Terraform Apply is in force as the root wrote it. -/
theorem policies_lookup {policy : String × PolicyDocument}
    (isOwn : policy ∈ var.terraformApplyPolicies) :
    (var.account awsManaged).policies (var.iam policy.1) = some (.new policy.2) := by
  have found : var.terraformApplyPolicies.lookup policy.1 = some policy.2 :=
    lookup_of_mem (paths_eq var ▸ paths_nodup) isOwn
  exact (if_pos rfl).trans (congrArg (Option.map ManagedPolicy.new) found)

/-- The trust of a GitHub role names nobody in the account. -/
theorem githubAssumeRole_closed (sid subject : String) (who : Arn) (context : Context) :
    admits (var.githubAssumeRole sid subject) who context = false := by
  refine admits_of_unnamed ?_ context
  simp [Variables.githubAssumeRole]

/-- The roles of the account are the roles of the root. -/
theorem account_roles {roleArn : Arn} {role : Role}
    (found : (var.account awsManaged).roles roleArn = some role) :
    ∃ path, (path, role) ∈ var.roles := by
  change (if roleArn = var.iam roleArn.resource then var.roles.lookup roleArn.resource
    else none) = some role at found
  by_cases own : roleArn = var.iam roleArn.resource
  · rw [if_pos own] at found
    obtain ⟨before, after, same, _⟩ := List.lookup_eq_some_iff.mp found
    refine ⟨roleArn.resource, ?_⟩
    rw [same]
    simp
  · rw [if_neg own] at found
    cases found

/-- Each of them has such a trust. -/
theorem roles_trust {role : Role} (isRole : ∃ path, (path, role) ∈ var.roles) :
    ∃ sid subject, role.trust = var.githubAssumeRole sid subject := by
  obtain ⟨path, member⟩ := isRole
  unfold Variables.roles at member
  simp only [List.mem_cons, List.not_mem_nil, or_false, Prod.mk.injEq] at member
  rcases member with ⟨_, rfl⟩ | ⟨_, rfl⟩ | ⟨_, rfl⟩ | ⟨_, rfl⟩ | ⟨_, rfl⟩ <;>
    exact ⟨_, _, rfl⟩

/-- Terraform Apply is alone. -/
theorem bootstrap_sealed :
    Sealed var.githubDevelopmentTerraformApplyRoleArn [] var.terraformApplyPolicyArns
      (applyDocuments var) (var.bootstrap awsManaged) where
  controlled := rfl
  has := by
    refine ⟨⟨var.githubDevelopmentTerraformApply.trust, if_pos rfl⟩, ?_⟩
    · intro policyArn attached
      obtain ⟨policy, isOwn, rfl⟩ := List.mem_map.mp attached
      change (var.account awsManaged).policies _ ≠ none
      rw [policies_lookup var awsManaged isOwn]
      exact Option.some_ne_none _
  documents := by
    unfold Variables.terraformApplyPolicyArns applyDocuments
    rw [List.map_map]
    refine List.map_congr_left fun policy isOwn => ?_
    change Account.document (var.account awsManaged) (var.iam policy.1) = _
    unfold Account.document
    rw [policies_lookup var awsManaged isOwn]
    rfl
  closed := by
    intro roleArn role found context
    obtain ⟨sid, subject, isTrust⟩ := roles_trust var (account_roles var awsManaged found)
    rw [isTrust]
    exact githubAssumeRole_closed var sid subject _ context

end Bootstrap

/-! ### Runs -/

/-- In every run in which nobody is let into a role, nobody who is controlled is allowed what is
protected. -/
theorem refused_of_reachable (var : Variables) (awsManaged : Arn → Option ManagedPolicy)
    {foothold : Foothold}
    (reached : Reachable LetsNobodyIn (var.bootstrap awsManaged) foothold) {who : Arn}
    (controls : who ∈ foothold.controlled) {request : Request}
    (isProtected : Protected var request) :
    allowed (foothold.account.documentsOf who) request = false := by
  have isSealed := sealed_of_reachable (fun call context isAllowed touches =>
    Bool.noConfusion (isAllowed.symm.trans (touching_refused var touches)))
    (bootstrap_sealed var awsManaged) reached
  rw [isSealed.controlled, List.mem_singleton] at controls
  subst controls
  rw [isSealed.documentsOf]
  exact apply_refused var isProtected

/-- An account to look at. -/
def sampleVariables : Variables :=
  .withDefaults "123456789012" "pcrp-terraform-state"

def sampleAccount : Account :=
  sampleVariables.account fun _ => none

def sampleApply : Arn :=
  sampleVariables.githubDevelopmentTerraformApplyRoleArn

def sampleTask : Arn :=
  sampleVariables.developmentApiTaskRoleArn

theorem createRole_allowed :
    allowed (sampleAccount.documentsOf sampleApply) ⟨⟨"iam", "CreateRole"⟩, sampleTask,
      fun _ => []⟩ = true := by
  decide +kernel

/-- The trust that the development root gives to its task roles. -/
def trustsTasks : TrustPolicy :=
  [ { sid := ""
      effect := .allow
      actions := [.of "sts" ["AssumeRole"]]
      principals := [.service "ecs-tasks.amazonaws.com"] } ]

theorem runTask_refused_after_createRole :
    allowed
      ((AccountCall.run (.createRole sampleTask trustsTasks) sampleAccount).documentsOf sampleApply)
      ⟨⟨"ecs", "RunTask"⟩, sampleTask, fun _ => []⟩ = false := by
  have nobody : LetsNobodyIn (sampleVariables.bootstrap fun _ => none)
      (.createRole sampleTask trustsTasks) := by
    intro trust written who _ context
    cases written
    exact admits_of_unnamed (by simp [trustsTasks]) context
  exact refused_of_reachable sampleVariables (fun _ => none)
    (.single (.call sampleApply (.createRole sampleTask trustsTasks) (fun _ => [])
      List.mem_cons_self createRole_allowed nobody)) List.mem_cons_self .runTask

/-! ### Letting oneself in -/

/-- A trust that names Terraform Apply. -/
def trustsApply : TrustPolicy :=
  [ { sid := "TrustApply"
      effect := .allow
      actions := [.of "sts" ["AssumeRole"]]
      principals := [.aws sampleApply] } ]

/-- A document that allows everything. -/
def allowsEverything : PolicyDocument :=
  [{ sid := "AllowEverything", effect := .allow, actions := [.any], resources := [.any] }]

/-- The role of the API tasks, created. -/
def createdAccount : Account :=
  AccountCall.run (.createRole sampleTask trustsApply) sampleAccount

/-- The role of the API tasks, opened. -/
def openedAccount : Account :=
  AccountCall.run (.putRolePolicy sampleTask "everything" allowsEverything) createdAccount

/-- Terraform Apply creates the role of the API tasks, with itself in the trust; it writes a policy
for the role that allows everything; it assumes the role. The state of bootstrap is then open. -/
theorem escalates :
    ¬ ∀ foothold, Reachable (fun _ _ => True) (sampleVariables.bootstrap fun _ => none) foothold →
      ∀ who ∈ foothold.controlled, ∀ request, Protected sampleVariables request →
        allowed (foothold.account.documentsOf who) request = false := by
  intro refused
  have created : Step (fun _ _ => True) ⟨sampleAccount, [sampleApply]⟩
      ⟨createdAccount, [sampleApply]⟩ :=
    .call sampleApply (.createRole sampleTask trustsApply) (fun _ => []) List.mem_cons_self
      createRole_allowed trivial
  have opened : Step (fun _ _ => True) ⟨createdAccount, [sampleApply]⟩
      ⟨openedAccount, [sampleApply]⟩ :=
    .call sampleApply (.putRolePolicy sampleTask "everything" allowsEverything) (fun _ => [])
      List.mem_cons_self (by decide +kernel) trivial
  have assumed : Step (fun _ _ => True) ⟨openedAccount, [sampleApply]⟩
      ⟨openedAccount, [sampleTask, sampleApply]⟩ :=
    .assume sampleApply sampleTask ⟨trustsApply, [("everything", allowsEverything)], []⟩
      (fun _ => []) List.mem_cons_self rfl (by decide +kernel) (by decide +kernel)
  have reached := ((Relation.ReflTransGen.single created).tail opened).tail assumed
  have isProtected : Protected sampleVariables
      ⟨⟨"s3", "GetObject"⟩, sampleVariables.stateObject "bootstrap/terraform.tfstate",
        fun _ => []⟩ :=
    .bootstrapState (by simp) (by simp [Variables.bootstrapStateObjectArns])
  have isRefused := refused _ reached sampleTask List.mem_cons_self _ isProtected
  exact absurd isRefused (by decide +kernel)

end JobPlatform.Deployment
