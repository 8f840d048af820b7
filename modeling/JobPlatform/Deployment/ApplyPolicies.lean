import JobPlatform.Deployment.Names

/-!
Contract: the eight managed policies of the Terraform Apply role
(`infrastructure/bootstrap/deployment-iam.tf`), statement by statement.

Owns:
- the policy documents, each under the name of its data source;
- `terraformApplyPolicies`: the names they are attached under (`aws_iam_policy`,
  `aws_iam_role_policy_attachment`).

Does not own what they allow.
-/

namespace JobPlatform.Deployment

open Foundation.Access

namespace Variables

variable (var : Variables)

/-- Approved state and lock files, and never the state of the bootstrap root. -/
def githubDevelopmentTerraformApplyBackend : PolicyDocument :=
  [ { sid := "ListApprovedTerraformStatePrefixes"
      effect := .allow
      actions := [.of "s3" ["ListBucket"]]
      resources := [.named var.terraformStateArn]
      conditions :=
        [⟨.stringEquals, "s3:prefix", terraformPlanStateKeys ++ terraformPlanLockKeys⟩] },
    { sid := "ReadWriteApprovedTerraformState"
      effect := .allow
      actions := [.of "s3" ["GetObject", "PutObject"]]
      resources := var.terraformPlanStateObjectArns.map .named },
    { sid := "AcquireAndReleaseApprovedTerraformLocks"
      effect := .allow
      actions := [.of "s3" ["DeleteObject", "GetObject", "PutObject"]]
      resources := var.terraformPlanLockObjectArns.map .named },
    { sid := "DenyBootstrapStateAccess"
      effect := .deny
      actions := [.of "s3" ["DeleteObject", "GetObject", "PutObject"]]
      resources := var.bootstrapStateObjectArns.map .named },
    { sid := "DenyApprovedTerraformStateDeletion"
      effect := .deny
      actions := [.of "s3" ["DeleteObject"]]
      resources := var.terraformPlanStateObjectArns.map .named } ]

/-- VPC, routes, security groups and endpoints. -/
def githubDevelopmentTerraformApplyNetwork : PolicyDocument :=
  [ { sid := "ReadProviderAndNetworkMetadata"
      effect := .allow
      actions := [.of "sts" ["GetCallerIdentity"], .of "ec2" ["Describe*"]]
      resources := [.any] },
    { sid := "ReadVpcSecurityGroups"
      effect := .allow
      actions := [.of "ec2" ["GetSecurityGroupsForVpc"]]
      resources := [.named (var.regional "ec2" "vpc/*")] },
    { sid := "ManageDevelopmentVpcAndRoutes"
      effect := .allow
      actions :=
        [.of "ec2"
           ["AllocateAddress", "AssociateRouteTable", "AttachInternetGateway",
            "CreateInternetGateway", "CreateNatGateway", "CreateRoute", "CreateRouteTable",
            "CreateSubnet", "CreateTags", "CreateVpc", "DeleteInternetGateway",
            "DeleteNatGateway", "DeleteRoute", "DeleteRouteTable", "DeleteSubnet", "DeleteTags",
            "DeleteVpc", "DetachInternetGateway", "DisassociateRouteTable",
            "ModifySubnetAttribute", "ModifyVpcAttribute", "ReleaseAddress", "ReplaceRoute",
            "ReplaceRouteTableAssociation"]]
      resources := var.developmentEc2ResourceArns.map .named },
    { sid := "ManageDevelopmentSecurityGroups"
      effect := .allow
      actions :=
        [.of "ec2"
           ["AuthorizeSecurityGroupEgress", "AuthorizeSecurityGroupIngress",
            "CreateSecurityGroup", "DeleteSecurityGroup", "ModifySecurityGroupRules",
            "RevokeSecurityGroupEgress", "RevokeSecurityGroupIngress",
            "UpdateSecurityGroupRuleDescriptionsEgress",
            "UpdateSecurityGroupRuleDescriptionsIngress"]]
      resources := var.developmentEc2ResourceArns.map .named },
    { sid := "ManageDevelopmentVpcEndpoints"
      effect := .allow
      actions := [.of "ec2" ["CreateVpcEndpoint", "DeleteVpcEndpoints", "ModifyVpcEndpoint"]]
      resources := var.developmentEc2ResourceArns.map .named } ]

/-- Load balancing, certificates, DNS and WAF. -/
def githubDevelopmentTerraformApplyEdge : PolicyDocument :=
  [ { sid := "ReadEdgeMetadata"
      effect := .allow
      actions :=
        [.of "elasticloadbalancing" ["Describe*", "DescribeWebACLAssociation"],
         .of "acm" ["DescribeCertificate", "ListCertificates", "ListTagsForCertificate"],
         .of "route53"
           ["GetChange", "GetHostedZone", "ListHostedZones", "ListHostedZonesByName",
            "ListResourceRecordSets", "ListTagsForResource", "ListTagsForResources"],
         .of "wafv2" ["CheckCapacity", "ListWebACLs"]]
      resources := [.any] },
    { sid := "ReadDevelopmentWafWebAcl"
      effect := .allow
      actions :=
        [.of "wafv2"
           ["GetLoggingConfiguration", "GetWebACL", "GetWebACLForResource",
            "ListResourcesForWebACL", "ListTagsForResource"]]
      resources := [.named var.developmentWafWebAclArn] },
    { sid := "ReadDevelopmentAlbWebAcl"
      effect := .allow
      actions := [.of "elasticloadbalancing" ["GetLoadBalancerWebACL"]]
      resources := [.named var.developmentAlbArn] },
    { sid := "ManageDevelopmentLoadBalancing"
      effect := .allow
      actions :=
        [.of "elasticloadbalancing"
           ["AddTags", "CreateListener", "CreateLoadBalancer", "CreateTargetGroup",
            "DeleteListener", "DeleteLoadBalancer", "DeleteTargetGroup", "ModifyListener",
            "ModifyLoadBalancerAttributes", "ModifyTargetGroup", "ModifyTargetGroupAttributes",
            "RemoveTags", "SetSecurityGroups", "SetSubnets"]]
      resources := var.developmentElbv2ResourceArns.map .named },
    { sid := "ManageDevelopmentCertificates"
      effect := .allow
      actions :=
        [.of "acm"
           ["AddTagsToCertificate", "DeleteCertificate", "RemoveTagsFromCertificate",
            "RequestCertificate"]]
      resources := var.developmentAcmCertificateArns.map .named },
    { sid := "CreateSharedPublicHostedZone"
      effect := .allow
      actions := [.of "route53" ["CreateHostedZone"]]
      resources := [.any] },
    { sid := "ManageSharedPublicHostedZoneLifecycle"
      effect := .allow
      actions :=
        [.of "route53" ["ChangeTagsForResource", "DeleteHostedZone", "UpdateHostedZoneComment"]]
      resources := [.named ⟨"route53", "", "", "hostedzone/*"⟩] },
    { sid := "ManageDevelopmentDnsRecords"
      effect := .allow
      actions := [.of "route53" ["ChangeResourceRecordSets"]]
      resources := [.named ⟨"route53", "", "", "hostedzone/*"⟩] },
    { sid := "ManageDevelopmentWaf"
      effect := .allow
      actions :=
        [.of "wafv2"
           ["DeleteLoggingConfiguration", "DeleteWebACL", "PutLoggingConfiguration",
            "TagResource", "UntagResource"]]
      resources := [.named var.developmentWafWebAclArn] },
    { sid := "CreateAndUpdateDevelopmentWafWithManagedRules"
      effect := .allow
      actions := [.of "wafv2" ["CreateWebACL", "UpdateWebACL"]]
      resources :=
        [.named var.developmentWafWebAclArn,
         .named (var.regional "wafv2" "regional/managedruleset/*/*")] },
    { sid := "AssociateDevelopmentWafWebAcl"
      effect := .allow
      actions := [.of "wafv2" ["AssociateWebACL"]]
      resources := [.named var.developmentWafWebAclArn] },
    { sid := "AssociateDevelopmentAlbWebAcl"
      effect := .allow
      actions := [.of "elasticloadbalancing" ["CreateWebACLAssociation"]]
      resources := [.named var.developmentAlbArn] },
    { sid := "DisassociateDevelopmentWafWebAcl"
      effect := .allow
      actions := [.of "wafv2" ["DisassociateWebACL"]]
      resources := [.any] },
    { sid := "DisassociateDevelopmentAlbWebAcl"
      effect := .allow
      actions := [.of "elasticloadbalancing" ["DeleteWebACLAssociation"]]
      resources := [.named var.developmentAlbArn] } ]

/-- Buckets, the database, metadata of its secret, and queues. -/
def githubDevelopmentTerraformApplyData : PolicyDocument :=
  [ { sid := "ReadDataConfiguration"
      effect := .allow
      actions :=
        [.of "rds"
           ["DescribeDBInstances", "DescribeDBSubnetGroups",
            "DescribePendingMaintenanceActions", "ListTagsForResource"]]
      resources := [.any] },
    { sid := "ReadProjectS3BucketConfiguration"
      effect := .allow
      actions :=
        [.of "s3"
           ["GetAccelerateConfiguration", "GetBucket*", "GetEncryptionConfiguration",
            "GetLifecycleConfiguration", "GetObjectLockConfiguration",
            "GetReplicationConfiguration", "ListBucket"]]
      resources := projectS3BucketArns.map .named },
    { sid := "ReadProjectQueueConfiguration"
      effect := .allow
      actions :=
        [.of "sqs"
           ["GetQueueAttributes", "GetQueueUrl", "ListDeadLetterSourceQueues", "ListQueueTags"]]
      resources := var.projectSqsQueueArns.map .named },
    { sid := "ListDataPlaneResources"
      effect := .allow
      actions := [.of "s3" ["ListAllMyBuckets"], .of "sqs" ["ListQueues"]]
      resources := [.any] },
    { sid := "ManageProjectS3Buckets"
      effect := .allow
      actions :=
        [.of "s3"
           ["CreateBucket", "DeleteBucket", "DeleteBucketEncryption",
            "DeleteBucketOwnershipControls", "DeleteBucketPolicy", "DeleteBucketTagging",
            "DeleteLifecycleConfiguration", "DeletePublicAccessBlock", "PutBucketPolicy",
            "PutBucketPublicAccessBlock", "PutBucketTagging", "PutBucketVersioning",
            "PutEncryptionConfiguration", "PutLifecycleConfiguration",
            "PutBucketOwnershipControls"]]
      resources := projectS3BucketArns.map .named },
    { sid := "ManageDatabase"
      effect := .allow
      actions :=
        [.of "rds"
           ["AddTagsToResource", "CreateDBInstance", "CreateDBSubnetGroup", "DeleteDBInstance",
            "DeleteDBSubnetGroup", "ModifyDBInstance", "ModifyDBSubnetGroup",
            "RemoveTagsFromResource"]]
      resources := var.developmentRdsResourceArns.map .named },
    { sid := "ReadGeneratedDatabaseSecretMetadata"
      effect := .allow
      actions := [.of "secretsmanager" ["DescribeSecret", "ListSecretVersionIds"]]
      resources := var.developmentRdsManagedSecretArns.map .named },
    { sid := "CreateRdsManagedDatabaseSecrets"
      effect := .allow
      actions := [.of "secretsmanager" ["CreateSecret", "TagResource"]]
      resources := var.developmentRdsManagedSecretArns.map .named },
    { sid := "DescribeRdsManagedSecretKey"
      effect := .allow
      actions := [.of "kms" ["DescribeKey"]]
      resources := [.named (var.regional "kms" "key/*")]
      conditions :=
        [⟨.forAnyValueStringEquals, "kms:ResourceAliases", ["alias/aws/secretsmanager"]⟩] },
    { sid := "CreateProjectQueues"
      effect := .allow
      actions := [.of "sqs" ["CreateQueue"]]
      resources := [.any] },
    { sid := "ManageProjectQueues"
      effect := .allow
      actions := [.of "sqs" ["DeleteQueue", "SetQueueAttributes", "TagQueue", "UntagQueue"]]
      resources := var.projectSqsQueueArns.map .named } ]

/-- ECS, autoscaling and repositories, without publishing and without `RunTask`. -/
def githubDevelopmentTerraformApplyRuntime : PolicyDocument :=
  [ { sid := "ReadRuntimeConfiguration"
      effect := .allow
      actions :=
        [.of "application-autoscaling"
           ["DescribeScalableTargets", "DescribeScalingActivities", "DescribeScalingPolicies"],
         .of "ecs"
           ["DescribeClusters", "DescribeServices", "DescribeTaskDefinition",
            "ListTagsForResource"]]
      resources := [.any] },
    { sid := "ReadProjectEcrConfiguration"
      effect := .allow
      actions :=
        [.of "ecr"
           ["DescribeImages", "DescribeRepositories", "GetLifecyclePolicy",
            "ListTagsForResource"]]
      resources := var.projectEcrRepositoryArns.map .named },
    { sid := "ManageEcsClusterServicesAndTaskDefinitions"
      effect := .allow
      actions :=
        [.of "ecs"
           ["CreateCluster", "CreateService", "DeleteCluster", "DeleteService",
            "DeregisterTaskDefinition", "TagResource", "UntagResource", "UpdateClusterSettings",
            "UpdateService"]]
      resources :=
        ([var.developmentEcsClusterArn] ++ var.developmentEcsServiceArns ++
          var.developmentEcsTaskDefinitionArns).map .named },
    { sid := "RegisterTerraformOwnedTaskDefinitions"
      effect := .allow
      actions := [.of "ecs" ["RegisterTaskDefinition"]]
      resources := [.any] },
    { sid := "ManageApplicationAutoScaling"
      effect := .allow
      actions :=
        [.of "application-autoscaling"
           ["DeleteScalingPolicy", "DeregisterScalableTarget", "PutScalingPolicy",
            "RegisterScalableTarget", "TagResource", "UntagResource"]]
      resources := var.projectApplicationAutoscalingTargetArns.map .named },
    { sid := "ManageEcrRepositoryInfrastructure"
      effect := .allow
      actions :=
        [.of "ecr"
           ["CreateRepository", "DeleteLifecyclePolicy", "DeleteRepository",
            "PutImageScanningConfiguration", "PutImageTagMutability", "PutLifecyclePolicy",
            "TagResource", "UntagResource"]]
      resources := var.projectEcrRepositoryArns.map .named },
    { sid := "DenyEcrImagePublishing"
      effect := .deny
      actions :=
        [.of "ecr" ["CompleteLayerUpload", "InitiateLayerUpload", "PutImage", "UploadLayerPart"]]
      resources := var.projectEcrRepositoryArns.map .named },
    { sid := "DenyMigrationTaskExecution"
      effect := .deny
      actions := [.of "ecs" ["RunTask"]]
      resources := [.any] } ]

/-- Logs, alarms, the audit trail and the observability workspaces. -/
def githubDevelopmentTerraformApplyObservabilityAudit : PolicyDocument :=
  [ { sid := "ReadObservabilityAndAuditMetadata"
      effect := .allow
      actions :=
        [.of "aps" ["DescribeWorkspace", "ListTagsForResource", "ListWorkspaces"],
         .of "cloudtrail"
           ["DescribeTrails", "GetEventSelectors", "GetInsightSelectors", "GetTrail",
            "GetTrailStatus", "ListTags"],
         .of "cloudwatch"
           ["DescribeAlarms", "GetDashboard", "ListDashboards", "ListTagsForResource"],
         .of "events" ["DescribeRule", "ListTagsForResource", "ListTargetsByRule"],
         .of "grafana" ["DescribeWorkspace", "ListTagsForResource", "ListWorkspaces"],
         .of "logs"
           ["DescribeLogGroups", "DescribeLogStreams", "DescribeQueryDefinitions",
            "ListTagsForResource"],
         .of "sns" ["GetTopicAttributes", "ListTagsForResource"]]
      resources := [.any] },
    { sid := "ManageProjectCloudWatchLogs"
      effect := .allow
      actions :=
        [.of "logs"
           ["CreateLogGroup", "DeleteLogGroup", "DeleteRetentionPolicy", "PutRetentionPolicy",
            "TagLogGroup", "TagResource", "UntagLogGroup", "UntagResource"]]
      resources := var.projectLogsResourceArns.map .named },
    { sid := "ManageWafLogDeliveryControlPlane"
      effect := .allow
      actions :=
        [.of "logs"
           ["CreateLogDelivery", "DeleteLogDelivery", "DescribeResourcePolicies",
            "GetLogDelivery", "ListLogDeliveries", "PutResourcePolicy", "UpdateLogDelivery"]]
      resources := [.any] },
    { sid := "ManageProjectCloudWatchAlarmsDashboardsAndQueries"
      effect := .allow
      actions := [.of "logs" ["DeleteQueryDefinition", "PutQueryDefinition"]]
      resources := [.any] },
    { sid := "ManageProjectCloudWatchAlarms"
      effect := .allow
      actions :=
        [.of "cloudwatch" ["DeleteAlarms", "PutMetricAlarm", "TagResource", "UntagResource"]]
      resources := var.projectCloudwatchAlarmArns.map .named },
    { sid := "ManageProjectCloudWatchDashboard"
      effect := .allow
      actions := [.of "cloudwatch" ["DeleteDashboards", "PutDashboard"]]
      resources := var.projectCloudwatchDashboardArns.map .named },
    { sid := "ManageSecurityAuditTrail"
      effect := .allow
      actions :=
        [.of "cloudtrail"
           ["AddTags", "CreateTrail", "DeleteTrail", "PutEventSelectors", "RemoveTags",
            "StartLogging", "StopLogging", "UpdateTrail"]]
      resources := [.named var.projectCloudtrailArn] },
    { sid := "ManageSecurityAuditEventRules"
      effect := .allow
      actions :=
        [.of "events"
           ["DeleteRule", "PutRule", "PutTargets", "RemoveTargets", "TagResource",
            "UntagResource"]]
      resources := var.projectEventbridgeRuleArns.map .named },
    { sid := "ManageProjectSnsTopics"
      effect := .allow
      actions :=
        [.of "sns"
           ["CreateTopic", "DeleteTopic", "SetTopicAttributes", "TagResource", "UntagResource"]]
      resources := var.projectSnsTopicArns.map .named },
    { sid := "CreateManagedObservabilityWorkspaces"
      effect := .allow
      actions := [.of "aps" ["CreateWorkspace"], .of "grafana" ["CreateWorkspace"]]
      resources := [.any] },
    { sid := "TagManagedObservabilityWorkspacesOnCreate"
      effect := .allow
      actions := [.of "aps" ["TagResource"], .of "grafana" ["TagResource"]]
      resources := [.any]
      conditions :=
        [⟨.stringEquals, "aws:RequestTag/Owner", [standardTags.owner]⟩,
         ⟨.stringEquals, "aws:RequestTag/Application", [standardTags.application]⟩,
         ⟨.stringEquals, "aws:RequestTag/Environment", [developmentEnvironment]⟩,
         ⟨.stringEquals, "aws:RequestTag/ManagedBy", [standardTags.managedBy]⟩] },
    { sid := "ManageAmpWorkspace"
      effect := .allow
      actions :=
        [.of "aps" ["DeleteWorkspace", "TagResource", "UntagResource", "UpdateWorkspaceAlias"]]
      resources := var.projectAmpWorkspaceArns.map .named },
    { sid := "ManageGrafanaWorkspace"
      effect := .allow
      actions :=
        [.of "grafana" ["DeleteWorkspace", "TagResource", "UntagResource", "UpdateWorkspace"]]
      resources := var.projectGrafanaWorkspaceArns.map .named } ]

/-- The roles the development root owns, and the publishing policy. -/
def githubDevelopmentTerraformApplyIam : PolicyDocument :=
  [ { sid := "ReadProjectIamRoleMetadata"
      effect := .allow
      actions :=
        [.of "iam"
           ["GetRole", "ListAttachedRolePolicies", "ListInstanceProfilesForRole",
            "ListRolePolicies", "ListRoleTags"]]
      resources := var.projectIamRoleArns.map .named },
    { sid := "ReadDevelopmentOwnedInlinePolicyMetadata"
      effect := .allow
      actions := [.of "iam" ["GetRolePolicy"]]
      resources := var.developmentOwnedIamRoleArns.map .named },
    { sid := "ReadProjectManagedPolicyMetadata"
      effect := .allow
      actions :=
        [.of "iam"
           ["GetPolicy", "GetPolicyVersion", "ListEntitiesForPolicy", "ListPolicyTags",
            "ListPolicyVersions"]]
      resources := var.projectIamPolicyArns.map .named },
    { sid := "ManageDevelopmentOwnedIamRoles"
      effect := .allow
      actions :=
        [.of "iam"
           ["CreateRole", "DeleteRole", "DeleteRolePolicy", "PutRolePolicy", "TagRole",
            "UntagRole", "UpdateAssumeRolePolicy", "UpdateRole", "UpdateRoleDescription"]]
      resources := var.developmentOwnedIamRoleArns.map .named },
    { sid := "AttachRdsEnhancedMonitoringPolicy"
      effect := .allow
      actions := [.of "iam" ["AttachRolePolicy", "DetachRolePolicy"]]
      resources := [.named var.developmentRdsEnhancedMonitoringRoleArn]
      conditions :=
        [⟨.stringEquals, "iam:PolicyARN",
          ["arn:aws:iam::aws:policy/service-role/AmazonRDSEnhancedMonitoringRole"]⟩] },
    { sid := "ManageEcrPublishingManagedPolicy"
      effect := .allow
      actions :=
        [.of "iam"
           ["CreatePolicy", "CreatePolicyVersion", "DeletePolicy", "DeletePolicyVersion",
            "SetDefaultPolicyVersion", "TagPolicy", "UntagPolicy"]]
      resources := [.named var.ecrPublishPolicyArn] },
    { sid := "CreateRequiredServiceLinkedRoles"
      effect := .allow
      actions := [.of "iam" ["CreateServiceLinkedRole"]]
      resources :=
        [.named (var.iam "role/aws-service-role/ecs.amazonaws.com/*"),
         .named (var.iam "role/aws-service-role/ecs.application-autoscaling.amazonaws.com/*"),
         .named (var.iam "role/aws-service-role/elasticloadbalancing.amazonaws.com/*"),
         .named (var.iam "role/aws-service-role/grafana.amazonaws.com/*"),
         .named (var.iam "role/aws-service-role/rds.amazonaws.com/*"),
         .named (var.iam "role/aws-service-role/wafv2.amazonaws.com/*")]
      conditions :=
        [⟨.stringEquals, "iam:AWSServiceName",
          ["ecs.amazonaws.com", "ecs.application-autoscaling.amazonaws.com",
           "elasticloadbalancing.amazonaws.com", "grafana.amazonaws.com", "rds.amazonaws.com",
           "wafv2.amazonaws.com"]⟩] },
    { sid := "PassEcsTaskRolesToEcsTasksOnly"
      effect := .allow
      actions := [.of "iam" ["PassRole"]]
      resources := var.developmentWorkloadRoleArns.map .named
      conditions := [⟨.stringEquals, "iam:PassedToService", ["ecs-tasks.amazonaws.com"]⟩] },
    { sid := "PassRdsEnhancedMonitoringRoleOnly"
      effect := .allow
      actions := [.of "iam" ["PassRole"]]
      resources := [.named var.developmentRdsEnhancedMonitoringRoleArn]
      conditions := [⟨.stringEquals, "iam:PassedToService", ["rds.amazonaws.com"]⟩] },
    { sid := "PassGrafanaWorkspaceRoleOnly"
      effect := .allow
      actions := [.of "iam" ["PassRole"]]
      resources := [.named var.developmentGrafanaRoleArn]
      conditions := [⟨.stringEquals, "iam:PassedToService", ["grafana.amazonaws.com"]⟩] } ]

/-- The two attachments it may make to GitHub roles, and the explicit denies. -/
def githubDevelopmentTerraformApplyDeploymentBoundaries : PolicyDocument :=
  [ { sid := "AttachEcrPublishPolicyToPublisherOnly"
      effect := .allow
      actions := [.of "iam" ["AttachRolePolicy", "DetachRolePolicy"]]
      resources := [.named var.githubDevelopmentEcrPublisherRoleArn]
      conditions := [⟨.stringEquals, "iam:PolicyARN", [var.ecrPublishPolicyArn.str]⟩] },
    { sid := "ManageExactEcsReleaseRuntimeManagedPolicy"
      effect := .allow
      actions :=
        [.of "iam"
           ["CreatePolicy", "CreatePolicyVersion", "DeletePolicy", "DeletePolicyVersion",
            "GetPolicy", "GetPolicyVersion", "ListPolicyVersions", "SetDefaultPolicyVersion",
            "TagPolicy", "UntagPolicy"]]
      resources := [.named var.ecsReleaseRuntimePolicyArn] },
    { sid := "AttachEcsReleaseRuntimePolicyToReleaseOnly"
      effect := .allow
      actions := [.of "iam" ["AttachRolePolicy", "DetachRolePolicy"]]
      resources := [.named var.githubDevelopmentEcsReleaseRoleArn]
      conditions := [⟨.stringEquals, "iam:PolicyARN", [var.ecsReleaseRuntimePolicyArn.str]⟩] },
    { sid := "DenyDeploymentRoleAdministration"
      effect := .deny
      actions :=
        [.of "iam"
           ["DeleteRole", "DeleteRolePermissionsBoundary", "PutRolePermissionsBoundary",
            "TagRole", "UntagRole", "UpdateAssumeRolePolicy", "UpdateRole",
            "UpdateRoleDescription"]]
      resources := var.githubProjectRoleArns.map .named },
    { sid := "DenyDeploymentRoleInlinePolicies"
      effect := .deny
      actions := [.of "iam" ["DeleteRolePolicy", "PutRolePolicy"]]
      resources :=
        [.named var.githubDevelopmentDeploymentRoleArn,
         .named var.githubDevelopmentTerraformPlanRoleArn,
         .named var.githubDevelopmentTerraformApplyRoleArn,
         .named var.githubDevelopmentEcrPublisherRoleArn,
         .named var.githubDevelopmentEcsReleaseRoleArn] },
    { sid := "DenyManagedPolicyAttachmentsOutsideApprovedExceptions"
      effect := .deny
      actions := [.of "iam" ["AttachRolePolicy", "DetachRolePolicy"]]
      resources :=
        [.named var.githubDevelopmentDeploymentRoleArn,
         .named var.githubDevelopmentTerraformPlanRoleArn,
         .named var.githubDevelopmentTerraformApplyRoleArn] },
    { sid := "DenyOtherManagedPoliciesOnPublisher"
      effect := .deny
      actions := [.of "iam" ["AttachRolePolicy", "DetachRolePolicy"]]
      resources := [.named var.githubDevelopmentEcrPublisherRoleArn]
      conditions := [⟨.arnNotEquals, "iam:PolicyARN", [var.ecrPublishPolicyArn.str]⟩] },
    { sid := "DenyOtherManagedPoliciesOnRelease"
      effect := .deny
      actions := [.of "iam" ["AttachRolePolicy", "DetachRolePolicy"]]
      resources := [.named var.githubDevelopmentEcsReleaseRoleArn]
      conditions := [⟨.arnNotEquals, "iam:PolicyARN", [var.ecsReleaseRuntimePolicyArn.str]⟩] },
    { sid := "DenyGitHubOidcProviderMutation"
      effect := .deny
      actions :=
        [.of "iam"
           ["AddClientIDToOpenIDConnectProvider", "DeleteOpenIDConnectProvider",
            "RemoveClientIDFromOpenIDConnectProvider", "TagOpenIDConnectProvider",
            "UntagOpenIDConnectProvider", "UpdateOpenIDConnectProviderThumbprint"]]
      resources := [.named var.githubActionsProviderArn] },
    { sid := "DenyGitHubOidcProviderCreation"
      effect := .deny
      actions := [.of "iam" ["CreateOpenIDConnectProvider"]]
      resources := [.any] } ]

/-- The policies, by the last segment of their names. -/
def terraformApplyPolicies : List (String × PolicyDocument) :=
  [("policy/pcrp-GitHubDevelopmentTerraformApplyBackend",
    var.githubDevelopmentTerraformApplyBackend),
   ("policy/pcrp-GitHubDevelopmentTerraformApplyNetwork",
    var.githubDevelopmentTerraformApplyNetwork),
   ("policy/pcrp-GitHubDevelopmentTerraformApplyEdge",
    var.githubDevelopmentTerraformApplyEdge),
   ("policy/pcrp-GitHubDevelopmentTerraformApplyData",
    var.githubDevelopmentTerraformApplyData),
   ("policy/pcrp-GitHubDevelopmentTerraformApplyRuntime",
    var.githubDevelopmentTerraformApplyRuntime),
   ("policy/pcrp-GitHubDevelopmentTerraformApplyObservabilityAudit",
    var.githubDevelopmentTerraformApplyObservabilityAudit),
   ("policy/pcrp-GitHubDevelopmentTerraformApplyIam",
    var.githubDevelopmentTerraformApplyIam),
   ("policy/pcrp-GitHubDevelopmentTerraformApplyDeploymentBoundaries",
    var.githubDevelopmentTerraformApplyDeploymentBoundaries)]

/-- What is attached to the role. -/
def terraformApplyPolicyArns : List Arn :=
  var.terraformApplyPolicies.map fun policy => var.iam policy.1

end Variables

end JobPlatform.Deployment
