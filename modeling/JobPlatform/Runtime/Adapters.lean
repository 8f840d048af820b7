import JobPlatform.Runtime.Calls

/-!
Contract: `application/shared/adapters.py`.

Owns the publishers, the SQS consumer and the artifact stores as code over the calls, and the
round trip of a job message: what the worker reads is the job the publisher named.
-/

namespace JobPlatform.Runtime

open JobPlatform.Foundation JobPlatform.Store

/-! ### Publishers -/

/-- The publishers: `SqsJobPublisher`, `LocalJobPublisher`, `NoopJobPublisher`. -/
inductive JobPublisher where
  | sqs
  | inProcess
  | noop

/-- The message of `SqsJobPublisher.publish`. -/
def jobMessage (jobId : Uuid) (correlationId : Json) : Json :=
  let base := [("version", .int 1), ("event_type", .str "job.created"), ("job_id", .str jobId.str)]
  if correlationId.truthy then .obj (base ++ [("correlation_id", correlationId)]) else .obj base

/-- `publisher.publish(job_id, correlation_id)`. -/
def JobPublisher.publish (publisher : JobPublisher) (origin : Option (Uuid × Uuid)) (jobId : Uuid)
    (correlationId : Json) : Run Unit :=
  match publisher with
  | sqs => perform (.sendMessage origin (jobMessage jobId correlationId))
  | inProcess => perform (.appendPublished jobId correlationId)
  | noop => return ()

/-- `create_job_publisher`. -/
def createJobPublisher (isCloud directCloudPublish : Bool) : JobPublisher :=
  if isCloud then if directCloudPublish then .sqs else .noop else .inProcess

/-! ### The consumer -/

/-- `payload.get(key)`. -/
def getField (key : String) (fields : List (String × Json)) : Json :=
  (Json.field? key fields).getD .null

/-- The part of `SqsJobConsumer.receive_job` that reads the message. -/
def parseJobMessage : Option Json → Except Exn Uuid
  | none => .error (.other "JSONDecodeError")
  | some (.obj fields) =>
      if !(getField "version" fields).isOne || !(getField "event_type" fields).isStr "job.created" then
        .error .valueError
      else
        match Json.field? "job_id" fields with
        | none => .error .keyError
        | some value =>
            match value.asUuid with
            | some jobId => .ok jobId
            | none => .error .valueError
  | some _ => .error (.other "AttributeError")

/-- `SqsJobConsumer.receive_job`. -/
def receiveJob : Run (Option (Uuid × ReceiptHandle)) := do
  match ← perform .receiveMessage with
  | none => return none
  | some delivery =>
      let jobId ← Code.ofExcept (S := platform) (parseJobMessage delivery.body)
      return some (jobId, delivery.receiptHandle)

/-- The message names the job. -/
def Names (messageBody : Json) (jobId : Uuid) : Prop := parseJobMessage (some messageBody) = .ok jobId

instance (messageBody : Json) (jobId : Uuid) : Decidable (Names messageBody jobId) :=
  match read : parseJobMessage (some messageBody) with
  | .ok named => decidable_of_iff (named = jobId) (by simp [Names, read])
  | .error _ => isFalse (by simp [Names, read])

/-- A published message names its job. -/
theorem names_jobMessage (jobId : Uuid) (correlationId : Json) :
    Names (jobMessage jobId correlationId) jobId := by
  unfold Names jobMessage
  by_cases truthy : correlationId.truthy
  · simp [truthy, parseJobMessage, getField, Json.field?, Json.isOne, Json.isStr]
  · simp [truthy, parseJobMessage, getField, Json.field?, Json.isOne, Json.isStr]

/-! ### Artifact stores -/

/-- `prefix.strip("/")`. -/
def stripSlashes (keyPrefix : String) : String := String.ofList (Uuid.strip ['/'] keyPrefix.toList)

/-- `LocalArtifactStore` or `S3ArtifactStore`: the two differ only in where `putObject` writes. -/
structure ArtifactStore where
  keyPrefix : String

/-- The object key of a report. -/
def ArtifactStore.objectKey (store : ArtifactStore) (jobId reportId : Uuid) : String :=
  stripSlashes store.keyPrefix ++ "/" ++ jobId.str ++ "/" ++ reportId.str ++ ".csv"

/-- `put_csv_report`. -/
def ArtifactStore.putCsvReport (store : ArtifactStore) (jobId : Uuid) (rows : ReportRows) :
    Run (String × String) := do
  let reportId ← perform .uuid4
  let objectKey := store.objectKey jobId reportId
  perform (.putObject objectKey rows)
  return (objectKey, "text/csv")

end JobPlatform.Runtime
