import JobPlatform.Foundation.Identities

/-!
Contract: the variables and the names of the bootstrap root
(`infrastructure/bootstrap/variables.tf`, the `locals` of `main.tf` and `deployment-iam.tf`).

Owns:
- what the operator sets;
- the resource names that the policies of the GitHub roles are written with.

Does not own the policies.
-/

namespace JobPlatform.Deployment

open Foundation.Access

/-- The variables of the root, and the account it is applied to. -/
structure Variables where
  accountId : String
  awsRegion : String
  stateBucketName : String
  githubOidcIssuerUrl : String
  githubOidcAudience : String
  githubDevelopmentSubject : String
  githubDevelopmentPlanSubject : String
  githubDevelopmentApplySubject : String
  githubDevelopmentPublishSubject : String
  githubDevelopmentReleaseSubject : String

/-- The subject that GitHub gives to a job in an environment of the repository. -/
def githubEnvironment (name : String) : String :=
  "repo:Chisom-Eze@215772129/Production-Cloud-Reliability-Platform@1340202037:environment:" ++ name

/-- The defaults of the root; the account and the bucket have none. -/
def Variables.withDefaults (accountId stateBucketName : String) : Variables where
  accountId := accountId
  awsRegion := "us-east-1"
  stateBucketName := stateBucketName
  githubOidcIssuerUrl := "https://token.actions.githubusercontent.com"
  githubOidcAudience := "sts.amazonaws.com"
  githubDevelopmentSubject := githubEnvironment "development"
  githubDevelopmentPlanSubject := githubEnvironment "development-plan"
  githubDevelopmentApplySubject := githubEnvironment "development-apply"
  githubDevelopmentPublishSubject := githubEnvironment "development-publish"
  githubDevelopmentReleaseSubject := githubEnvironment "development-release"

/-! ### Texts -/

def githubDevelopmentDeploymentRoleName : String :=
  "ProductionCloudReliabilityPlatform-GitHubDevelopmentDeployment"

def githubDevelopmentTerraformPlanRoleName : String := "pcrp-GitHubDevelopmentTerraformPlan"

def githubDevelopmentTerraformApplyRoleName : String := "pcrp-GitHubDevelopmentTerraformApply"

def githubDevelopmentEcrPublisherRoleName : String := "pcrp-GitHubDevelopmentEcrPublisher"

def githubDevelopmentEcsReleaseRoleName : String := "pcrp-GitHubDevelopmentEcsRelease"

def developmentEnvironment : String := "development"

def developmentProjectName : String := "production-cloud-reliability-platform"

def developmentProjectSlug : String := "prod-cloud-reliability"

def developmentEdgeProjectSlug : String := "prod-reliability"

def developmentNamePrefix : String := developmentProjectName ++ "-" ++ developmentEnvironment

def developmentWorkloadPrefix : String := developmentProjectSlug ++ "-" ++ developmentEnvironment

def ecrPublishPolicyName : String := "ProductionCloudReliabilityPlatformEcrPublish"

def ecsReleaseRuntimePolicyName : String := "pcrp-GitHubDevelopmentEcsReleaseRuntime"

structure StandardTags where
  owner : String
  application : String
  environment : String
  managedBy : String

def standardTags : StandardTags :=
  ⟨"Chisom", "ProductionCloudReliabilityPlatform", "shared", "Terraform"⟩

def terraformPlanStateKeys : List String :=
  ["shared/container-registry/terraform.tfstate",
   "shared/security-audit/terraform.tfstate",
   "shared/dns/terraform.tfstate",
   "environments/development/terraform.tfstate"]

def terraformPlanLockKeys : List String :=
  terraformPlanStateKeys.map (· ++ ".tflock")

def projectS3BucketArns : List Arn :=
  [⟨"s3", "", "", "production-cloud-reliability-audit-*"⟩,
   ⟨"s3", "", "", "prod-cloud-reliability-dev-artifacts-*"⟩,
   ⟨"s3", "", "", "prod-reliability-dev-alb-logs-*"⟩]

/-! ### Resource names -/

namespace Variables

variable (var : Variables)

/-- `arn:aws:iam::<account>:<resource>`. -/
def iam (resource : String) : Arn :=
  ⟨"iam", "", var.accountId, resource⟩

/-- `arn:aws:<service>:<region>:<account>:<resource>`. -/
def regional (service resource : String) : Arn :=
  ⟨service, var.awsRegion, var.accountId, resource⟩

/-- The bucket with the state of every root. -/
def terraformStateArn : Arn :=
  ⟨"s3", "", "", var.stateBucketName⟩

/-- An object in that bucket. -/
def stateObject (key : String) : Arn :=
  ⟨"s3", "", "", var.stateBucketName ++ "/" ++ key⟩

/-- `replace(var.github_oidc_issuer_url, "https://", "")`. -/
def githubOidcHost : String :=
  var.githubOidcIssuerUrl.replace "https://" ""

def githubActionsProviderArn : Arn :=
  var.iam ("oidc-provider/" ++ var.githubOidcHost)

def terraformPlanStateObjectArns : List Arn :=
  terraformPlanStateKeys.map var.stateObject

def terraformPlanLockObjectArns : List Arn :=
  terraformPlanStateKeys.map fun stateKey => var.stateObject (stateKey ++ ".tflock")

def bootstrapStateObjectArns : List Arn :=
  [var.stateObject "bootstrap/terraform.tfstate",
   var.stateObject "bootstrap/terraform.tfstate.tflock"]

def githubDevelopmentDeploymentRoleArn : Arn :=
  var.iam ("role/" ++ githubDevelopmentDeploymentRoleName)

def githubDevelopmentTerraformPlanRoleArn : Arn :=
  var.iam ("role/" ++ githubDevelopmentTerraformPlanRoleName)

def githubDevelopmentTerraformApplyRoleArn : Arn :=
  var.iam ("role/" ++ githubDevelopmentTerraformApplyRoleName)

def githubDevelopmentEcrPublisherRoleArn : Arn :=
  var.iam ("role/" ++ githubDevelopmentEcrPublisherRoleName)

def githubDevelopmentEcsReleaseRoleArn : Arn :=
  var.iam ("role/" ++ githubDevelopmentEcsReleaseRoleName)

def githubProjectRoleArns : List Arn :=
  [var.githubDevelopmentDeploymentRoleArn,
   var.githubDevelopmentTerraformPlanRoleArn,
   var.githubDevelopmentTerraformApplyRoleArn,
   var.githubDevelopmentEcrPublisherRoleArn,
   var.githubDevelopmentEcsReleaseRoleArn]

def developmentApiExecutionRoleArn : Arn :=
  var.iam ("role/" ++ developmentWorkloadPrefix ++ "-api-execution")

def developmentApiTaskRoleArn : Arn :=
  var.iam ("role/" ++ developmentWorkloadPrefix ++ "-api-task")

def developmentWorkerExecutionRoleArn : Arn :=
  var.iam ("role/" ++ developmentWorkloadPrefix ++ "-worker-execution")

def developmentWorkerTaskRoleArn : Arn :=
  var.iam ("role/" ++ developmentWorkloadPrefix ++ "-worker-task")

def developmentRdsEnhancedMonitoringRoleArn : Arn :=
  var.iam ("role/" ++ developmentNamePrefix ++ "-postgres-em")

def developmentGrafanaRoleArn : Arn := var.iam ("role/" ++ developmentNamePrefix ++ "-grafana")

def developmentWorkloadRoleArns : List Arn :=
  [var.developmentApiExecutionRoleArn,
   var.developmentApiTaskRoleArn,
   var.developmentWorkerExecutionRoleArn,
   var.developmentWorkerTaskRoleArn]

def developmentOwnedIamRoleArns : List Arn :=
  var.developmentWorkloadRoleArns ++
    [var.developmentRdsEnhancedMonitoringRoleArn, var.developmentGrafanaRoleArn]

def ecrPublishPolicyArn : Arn := var.iam ("policy/" ++ ecrPublishPolicyName)

def ecsReleaseRuntimePolicyArn : Arn := var.iam ("policy/" ++ ecsReleaseRuntimePolicyName)

def projectEcrRepositoryArns : List Arn :=
  [var.regional "ecr" "repository/production-cloud-reliability-api",
   var.regional "ecr" "repository/production-cloud-reliability-nginx",
   var.regional "ecr" "repository/production-cloud-reliability-worker"]

def developmentEcsClusterArn : Arn := var.regional "ecs" ("cluster/" ++ developmentNamePrefix)

def developmentEcsServiceArns : List Arn :=
  ["service/" ++ developmentNamePrefix ++ "/" ++ developmentNamePrefix ++ "-api",
   "service/" ++ developmentNamePrefix ++ "/" ++ developmentNamePrefix ++ "-worker"].map
    (var.regional "ecs")

def developmentEcsTaskDefinitionArns : List Arn :=
  [var.regional "ecs" ("task-definition/" ++ developmentNamePrefix ++ "-api:*"),
   var.regional "ecs" ("task-definition/" ++ developmentNamePrefix ++ "-worker:*"),
   var.regional "ecs" ("task-definition/" ++ developmentNamePrefix ++ "-migration:*")]

def developmentEc2ResourceArns : List Arn :=
  [var.regional "ec2" "elastic-ip/*",
   var.regional "ec2" "internet-gateway/*",
   var.regional "ec2" "natgateway/*",
   var.regional "ec2" "network-interface/*",
   var.regional "ec2" "route-table/*",
   var.regional "ec2" "security-group/*",
   var.regional "ec2" "security-group-rule/*",
   var.regional "ec2" "subnet/*",
   var.regional "ec2" "vpc/*",
   var.regional "ec2" "vpc-endpoint/*"]

def developmentAlbArn : Arn :=
  var.regional "elasticloadbalancing"
    ("loadbalancer/app/" ++ developmentEdgeProjectSlug ++ "-" ++ developmentEnvironment ++ "-alb/*")

def developmentElbv2ResourceArns : List Arn :=
  [var.developmentAlbArn,
   var.regional "elasticloadbalancing"
    ("listener/app/" ++ developmentEdgeProjectSlug ++ "-" ++ developmentEnvironment ++ "-alb/*/*"),
   var.regional "elasticloadbalancing"
    ("targetgroup/" ++ developmentEdgeProjectSlug ++ "-" ++ developmentEnvironment ++ "-api/*")]

def developmentAcmCertificateArns : List Arn := [var.regional "acm" "certificate/*"]

def developmentWafWebAclArn : Arn :=
  var.regional "wafv2"
    ("regional/webacl/" ++ developmentEdgeProjectSlug ++ "-" ++ developmentEnvironment ++
      "-web-acl/*")

def developmentRdsResourceArns : List Arn :=
  [var.regional "rds" ("db:" ++ developmentNamePrefix ++ "-postgres"),
   var.regional "rds" ("subgrp:" ++ developmentNamePrefix ++ "-db-subnets")]

def developmentRdsManagedSecretArns : List Arn :=
  [var.regional "secretsmanager" "secret:rds!db-*"]

def projectLogsResourceArns : List Arn :=
  ["log-group:/ecs/production-cloud-reliability/" ++ developmentEnvironment ++ "/api",
   "log-group:/ecs/production-cloud-reliability/" ++ developmentEnvironment ++ "/api:*",
   "log-group:/ecs/production-cloud-reliability/" ++ developmentEnvironment ++ "/nginx",
   "log-group:/ecs/production-cloud-reliability/" ++ developmentEnvironment ++ "/nginx:*",
   "log-group:/ecs/production-cloud-reliability/" ++ developmentEnvironment ++ "/worker",
   "log-group:/ecs/production-cloud-reliability/" ++ developmentEnvironment ++ "/worker:*",
   "log-group:/aws/rds/instance/" ++ developmentNamePrefix ++ "-postgres/*",
   "log-group:/aws/rds/instance/" ++ developmentNamePrefix ++ "-postgres/*:*",
   "log-group:aws-waf-logs-" ++ developmentEdgeProjectSlug ++ "-" ++ developmentEnvironment,
   "log-group:aws-waf-logs-" ++ developmentEdgeProjectSlug ++ "-" ++ developmentEnvironment ++
      ":*"].map
    (var.regional "logs")

def projectCloudtrailArn : Arn :=
  var.regional "cloudtrail" ("trail/" ++ developmentProjectName ++ "-account-audit")

def projectEventbridgeRuleArns : List Arn :=
  [var.regional "events" ("rule/" ++ developmentProjectName ++ "-root-activity-critical"),
   var.regional "events" "rule/pcrp-cloudtrail-tampering-critical",
   var.regional "events" "rule/pcrp-iam-privilege-change-warning",
   var.regional "events" "rule/pcrp-network-perimeter-change-warning",
   var.regional "events" ("rule/" ++ developmentProjectName ++ "-s3-security-change-warning"),
   var.regional "events" "rule/pcrp-console-login-without-mfa-warning"]

def projectSnsTopicArns : List Arn :=
  [var.regional "sns" (developmentProjectName ++ "-security-notifications"),
   var.regional "sns" (developmentNamePrefix ++ "-alarms")]

def projectSqsQueueArns : List Arn :=
  ["ProductionCloudReliabilityPlatform-" ++ developmentEnvironment ++ "-jobs",
   "ProductionCloudReliabilityPlatform-" ++ developmentEnvironment ++ "-jobs-dlq"].map
    (var.regional "sqs")

def projectAmpWorkspaceArns : List Arn := [var.regional "aps" "workspace/*"]

def projectGrafanaWorkspaceArns : List Arn := [var.regional "grafana" "/workspaces/*"]

def projectCloudwatchAlarmArns : List Arn :=
  [var.regional "cloudwatch" ("alarm:" ++ developmentNamePrefix ++ "-*")]

def projectCloudwatchDashboardArns : List Arn :=
  [⟨"cloudwatch", "", var.accountId, "dashboard/" ++ developmentNamePrefix ++ "-operations"⟩]

def projectApplicationAutoscalingTargetArns : List Arn :=
  [var.regional "application-autoscaling" "scalable-target/*"]

def projectIamRoleArns : List Arn :=
  [var.githubDevelopmentDeploymentRoleArn,
   var.githubDevelopmentTerraformPlanRoleArn,
   var.githubDevelopmentTerraformApplyRoleArn,
   var.githubDevelopmentEcrPublisherRoleArn,
   var.githubDevelopmentEcsReleaseRoleArn,
   var.developmentApiExecutionRoleArn,
   var.developmentApiTaskRoleArn,
   var.developmentWorkerExecutionRoleArn,
   var.developmentWorkerTaskRoleArn,
   var.developmentRdsEnhancedMonitoringRoleArn,
   var.developmentGrafanaRoleArn]

def projectIamPolicyArns : List Arn := [var.ecrPublishPolicyArn, var.ecsReleaseRuntimePolicyArn]

end Variables

end JobPlatform.Deployment
