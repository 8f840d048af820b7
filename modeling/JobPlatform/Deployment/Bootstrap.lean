import JobPlatform.Deployment.ApplyPolicies

/-!
Contract: the account that the bootstrap root leaves (`infrastructure/bootstrap`).

Owns:
- the two inline policies of the Terraform Plan role (`main.tf`);
- the trust of the five GitHub roles, and the roles;
- `bootstrap`: the account with these roles and policies, and the Apply role controlled.

Does not own the roles that the development root creates: there are none yet.
-/

namespace JobPlatform.Deployment

open Foundation.Access

namespace Variables

variable (var : Variables)

/-! ### Terraform Plan -/

/-- Approved state, and the locks for it. -/
def githubDevelopmentTerraformPlanBackend : PolicyDocument :=
  [ { sid := "ListApprovedTerraformStatePrefixes"
      effect := .allow
      actions := [.of "s3" ["ListBucket"]]
      resources := [.named var.terraformStateArn]
      conditions :=
        [⟨.stringEquals, "s3:prefix", terraformPlanStateKeys ++ terraformPlanLockKeys⟩] },
    { sid := "ReadApprovedTerraformState"
      effect := .allow
      actions := [.of "s3" ["GetObject"]]
      resources := var.terraformPlanStateObjectArns.map .named },
    { sid := "AcquireAndReleaseApprovedTerraformLocks"
      effect := .allow
      actions := [.of "s3" ["DeleteObject", "GetObject", "PutObject"]]
      resources := var.terraformPlanLockObjectArns.map .named },
    { sid := "DenyBootstrapStateAccess"
      effect := .deny
      actions := [.of "s3" ["DeleteObject", "GetObject", "PutObject"]]
      resources := var.bootstrapStateObjectArns.map .named },
    { sid := "DenyApprovedStateMutation"
      effect := .deny
      actions := [.of "s3" ["DeleteObject", "PutObject"]]
      resources := var.terraformPlanStateObjectArns.map .named } ]

/-- The configuration of what Terraform manages, and no change to it. -/
def githubDevelopmentTerraformPlanRead : PolicyDocument :=
  [ { sid := "ReadEc2VpcAndEndpointConfiguration"
      effect := .allow
      actions :=
        [.of "ec2"
           ["DescribeAddresses", "DescribeAvailabilityZones", "DescribeInternetGateways",
            "DescribeNatGateways", "DescribeNetworkInterfaces", "DescribePrefixLists",
            "DescribeRouteTables", "DescribeSecurityGroupRules", "DescribeSecurityGroups",
            "DescribeSubnets", "DescribeTags", "DescribeVpcAttribute", "DescribeVpcEndpoints",
            "DescribeVpcs"]]
      resources := [.any] },
    { sid := "ReadLoadBalancerConfiguration"
      effect := .allow
      actions :=
        [.of "elasticloadbalancing"
           ["DescribeListenerCertificates", "DescribeListeners",
            "DescribeLoadBalancerAttributes", "DescribeLoadBalancers", "DescribeRules",
            "DescribeTags", "DescribeTargetGroupAttributes", "DescribeTargetGroups",
            "DescribeTargetHealth"]]
      resources := [.any] },
    { sid := "ReadCertificateAndDnsConfiguration"
      effect := .allow
      actions :=
        [.of "acm" ["DescribeCertificate", "ListTagsForCertificate"],
         .of "route53"
           ["GetHostedZone", "ListHostedZones", "ListHostedZonesByName",
            "ListResourceRecordSets", "ListTagsForResource", "ListTagsForResources"]]
      resources := [.any] },
    { sid := "ReadDatabaseConfiguration"
      effect := .allow
      actions :=
        [.of "rds"
           ["DescribeDBInstances", "DescribeDBSubnetGroups",
            "DescribePendingMaintenanceActions", "ListTagsForResource"]]
      resources := [.any] },
    { sid := "ReadQueueConfiguration"
      effect := .allow
      actions := [.of "sqs" ["GetQueueAttributes", "GetQueueUrl", "ListQueueTags"]]
      resources := [.any] },
    { sid := "ReadProjectS3BucketConfiguration"
      effect := .allow
      actions :=
        [.of "s3"
           ["GetAccelerateConfiguration", "GetBucket*", "GetEncryptionConfiguration",
            "GetLifecycleConfiguration", "GetObjectLockConfiguration",
            "GetReplicationConfiguration", "ListBucket"]]
      resources := projectS3BucketArns.map .named },
    { sid := "ReadProjectIamMetadata"
      effect := .allow
      actions :=
        [.of "iam"
           ["GetRole", "GetRolePolicy", "ListAttachedRolePolicies",
            "ListInstanceProfilesForRole", "ListRolePolicies", "ListRoleTags"]]
      resources := var.projectIamRoleArns.map .named },
    { sid := "ReadProjectManagedPolicyMetadata"
      effect := .allow
      actions :=
        [.of "iam" ["GetPolicy", "GetPolicyVersion", "ListPolicyTags", "ListPolicyVersions"]]
      resources := var.projectIamPolicyArns.map .named },
    { sid := "ReadEcsConfiguration"
      effect := .allow
      actions :=
        [.of "ecs"
           ["DescribeClusters", "DescribeServices", "DescribeTaskDefinition",
            "ListTagsForResource"]]
      resources := [.any] },
    { sid := "ReadApplicationAutoScalingConfiguration"
      effect := .allow
      actions :=
        [.of "application-autoscaling"
           ["DescribeScalableTargets", "DescribeScalingActivities", "DescribeScalingPolicies"]]
      resources := [.any] },
    { sid := "ReadCloudWatchAndLogsConfiguration"
      effect := .allow
      actions :=
        [.of "cloudwatch"
           ["DescribeAlarms", "GetDashboard", "ListDashboards", "ListTagsForResource"],
         .of "logs"
           ["DescribeLogGroups", "DescribeLogStreams", "DescribeQueryDefinitions",
            "ListTagsForResource"]]
      resources := [.any] },
    { sid := "ReadWafConfiguration"
      effect := .allow
      actions :=
        [.of "wafv2"
           ["GetLoggingConfiguration", "GetWebACL", "GetWebACLForResource",
            "ListResourcesForWebACL", "ListTagsForResource"]]
      resources := [.any] },
    { sid := "ReadEcrConfiguration"
      effect := .allow
      actions :=
        [.of "ecr"
           ["DescribeImages", "DescribeRepositories", "GetLifecyclePolicy",
            "GetRepositoryPolicy", "ListTagsForResource"]]
      resources := [.any] },
    { sid := "ReadSecurityAuditConfiguration"
      effect := .allow
      actions :=
        [.of "cloudtrail"
           ["DescribeTrails", "GetEventSelectors", "GetInsightSelectors", "GetTrail",
            "GetTrailStatus", "ListTags"],
         .of "events" ["DescribeRule", "ListTagsForResource", "ListTargetsByRule"],
         .of "sns" ["GetTopicAttributes", "ListTagsForResource"]]
      resources := [.any] },
    { sid := "ReadManagedObservabilityConfiguration"
      effect := .allow
      actions :=
        [.of "aps" ["DescribeWorkspace", "ListTagsForResource"],
         .of "grafana" ["DescribeWorkspace", "ListTagsForResource"]]
      resources := [.any] },
    { sid := "ReadSecretMetadataOnly"
      effect := .allow
      actions := [.of "secretsmanager" ["DescribeSecret", "ListSecretVersionIds"]]
      resources := [.any] },
    { sid := "DenyIamMutationAndPassRole"
      effect := .deny
      actions :=
        [.of "iam"
           ["AddRoleToInstanceProfile", "AttachRolePolicy", "CreateAccessKey",
            "CreateInstanceProfile", "CreateOpenIDConnectProvider", "CreatePolicy",
            "CreatePolicyVersion", "CreateRole", "DeleteOpenIDConnectProvider", "DeletePolicy",
            "DeletePolicyVersion", "DeleteRole", "DeleteRolePermissionsBoundary",
            "DeleteRolePolicy", "DetachRolePolicy", "PassRole", "PutRolePermissionsBoundary",
            "PutRolePolicy", "RemoveRoleFromInstanceProfile", "SetDefaultPolicyVersion",
            "TagPolicy", "TagRole", "UntagPolicy", "UntagRole", "UpdateAssumeRolePolicy",
            "UpdateOpenIDConnectProviderThumbprint", "UpdateRole", "UpdateRoleDescription"]]
      resources := [.any] },
    { sid := "DenyEcrPublishingAndRepositoryMutation"
      effect := .deny
      actions :=
        [.of "ecr"
           ["BatchDeleteImage", "CompleteLayerUpload", "DeleteLifecyclePolicy",
            "DeleteRepository", "DeleteRepositoryPolicy", "InitiateLayerUpload", "PutImage",
            "PutImageScanningConfiguration", "PutImageTagMutability", "PutLifecyclePolicy",
            "SetRepositoryPolicy", "UploadLayerPart"]]
      resources := [.any] },
    { sid := "DenyEcsReleaseMutation"
      effect := .deny
      actions :=
        [.of "ecs"
           ["CreateCluster", "CreateService", "DeleteCluster", "DeleteService",
            "DeregisterTaskDefinition", "RegisterTaskDefinition", "RunTask", "StopTask",
            "UpdateService"]]
      resources := [.any] } ]

/-! ### Roles -/

/-- The trust of a GitHub role: a token of the provider with the audience and the subject. -/
def githubAssumeRole (sid subject : String) : TrustPolicy :=
  [ { sid := sid
      effect := .allow
      actions := [.of "sts" ["AssumeRoleWithWebIdentity"]]
      principals := [.federated var.githubActionsProviderArn]
      conditions :=
        [⟨.stringEquals, var.githubOidcHost ++ ":aud", [var.githubOidcAudience]⟩,
         ⟨.stringEquals, var.githubOidcHost ++ ":sub", [subject]⟩] } ]

def githubDevelopmentDeployment : Role where
  trust :=
    var.githubAssumeRole "AllowExactGitHubDevelopmentEnvironment" var.githubDevelopmentSubject
  inline := []
  attached := []

def githubDevelopmentTerraformPlan : Role where
  trust :=
    var.githubAssumeRole "AllowExactGitHubDevelopmentPlanEnvironment"
      var.githubDevelopmentPlanSubject
  inline :=
    [("terraform-plan-backend-state-read-and-lock", var.githubDevelopmentTerraformPlanBackend),
     ("terraform-plan-aws-read-only", var.githubDevelopmentTerraformPlanRead)]
  attached := []

def githubDevelopmentTerraformApply : Role where
  trust :=
    var.githubAssumeRole "AllowExactGitHubDevelopmentApplyEnvironment"
      var.githubDevelopmentApplySubject
  inline := []
  attached := var.terraformApplyPolicyArns

def githubDevelopmentEcrPublisher : Role where
  trust :=
    var.githubAssumeRole "AllowExactGitHubDevelopmentPublishEnvironment"
      var.githubDevelopmentPublishSubject
  inline := []
  attached := []

def githubDevelopmentEcsRelease : Role where
  trust :=
    var.githubAssumeRole "AllowExactGitHubDevelopmentReleaseEnvironment"
      var.githubDevelopmentReleaseSubject
  inline := []
  attached := []

/-! ### The account -/

/-- The roles of the root, by the last segment of their names. -/
def roles : List (String × Role) :=
  [("role/" ++ githubDevelopmentDeploymentRoleName, var.githubDevelopmentDeployment),
   ("role/" ++ githubDevelopmentTerraformPlanRoleName, var.githubDevelopmentTerraformPlan),
   ("role/" ++ githubDevelopmentTerraformApplyRoleName, var.githubDevelopmentTerraformApply),
   ("role/" ++ githubDevelopmentEcrPublisherRoleName, var.githubDevelopmentEcrPublisher),
   ("role/" ++ githubDevelopmentEcsReleaseRoleName, var.githubDevelopmentEcsRelease)]

/-- The account, with the policies that Amazon manages. -/
def account (awsManaged : Arn → Option ManagedPolicy) : Account where
  roles roleArn :=
    if roleArn = var.iam roleArn.resource then var.roles.lookup roleArn.resource else none
  policies policyArn :=
    if policyArn = var.iam policyArn.resource then
      (var.terraformApplyPolicies.lookup policyArn.resource).map ManagedPolicy.new
    else awsManaged policyArn

/-- The Apply role is controlled. -/
def bootstrap (awsManaged : Arn → Option ManagedPolicy) : Foothold :=
  ⟨var.account awsManaged, [var.githubDevelopmentTerraformApplyRoleArn]⟩

end Variables

end JobPlatform.Deployment
