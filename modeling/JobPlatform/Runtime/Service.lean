import JobPlatform.Runtime.Adapters

/-!
Contract: the writing requests of the API, from `application/api/service.py` and `main.py`.

Owns `ApplicationService.create_job` with its second attempt, and the customer endpoint's call.

Does not own HTTP: the mapping of exceptions to status codes changes no state.
-/

namespace JobPlatform.Runtime

open JobPlatform.Foundation JobPlatform.Store

namespace ApplicationService

/-- The two attempts of `ApplicationService.create_job`. -/
def insertJob (jobType : String) (payload : PyJson) (correlationId : Option String) : Run JobRow :=
  tryCatch (repository (.createJob jobType payload correlationId)) fun error =>
    match error with
    | .typeError => repository (.createJob jobType payload none)
    | error => throw error

/-- `ApplicationService.create_job`. -/
def createJob (publisher : JobPublisher) (jobType : String) (payload : PyJson)
    (correlationId : Option String) : Run JobRow := do
  let job ← insertJob jobType payload correlationId
  publisher.publish none job.id (correlationId.elim .null .str)
  return job

/-- Every call a request that creates a job may make. -/
inductive CreateCall (jobType : String) : PlatformCall → Prop where
  | created (payload : PyJson) (correlationId : Option String) :
      CreateCall jobType (.repository (.createJob jobType payload correlationId))
  | sent (origin : Option (Uuid × Uuid)) (messageBody : Json) :
      CreateCall jobType (.sendMessage origin messageBody)
  | appended (jobId : Uuid) (correlationId : Json) :
      CreateCall jobType (.appendPublished jobId correlationId)

theorem createJob_only (publisher : JobPublisher) (jobType : String) (payload : PyJson)
    (correlationId : Option String) :
    Code.Only (CreateCall jobType) (createJob publisher jobType payload correlationId) := by
  unfold createJob insertJob
  apply Code.Only.bind
  · apply Code.Only.tryCatch (Code.only_perform (.created _ _))
    intro error
    cases error with
    | typeError => exact Code.only_perform (.created _ _)
    | _ => exact Code.only_throw _
  · intro job
    apply Code.Only.bind
    · cases publisher with
      | sqs => exact Code.only_perform (.sent _ _)
      | inProcess => exact Code.only_perform (.appended _ _)
      | noop => exact Code.only_pure _
    · exact fun _ => Code.only_pure _

end ApplicationService

end JobPlatform.Runtime
