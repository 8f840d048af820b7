import Mathlib.Data.List.Basic
import JobPlatform.Store.JsonRoundTrip

/-!
Contract: the log of the API, from `application/shared/logging.py`.

Owns:
- `payload`, the fields that `JsonFormatter.format` gives a record, and `stream`, the lines that the
  handler writes;
- `configureLogging`, the level of the root logger, and `LogTask`, a task with its context variables;
- `dispatch`, of `RequestContextMiddleware`: what a request logs, and the headers of its response;
- `log_reads`: a reader of the stream gets the records, whatever texts they hold, and finds those of
  a request or of a trace by its id.

`isoformat`, `formatException` and the clock give any texts and numbers. A handler writes one line
at a time. A request is handled in a task of its own, with its own copy of the context variables.
-/

namespace JobPlatform.Runtime

open JobPlatform.Store

/-! ### Records -/

/-- What the formatter reads of a `LogRecord`. Attributes that `extra` did not set are `none`. -/
structure LogRecord where
  levelname : String
  message : String
  service : Option String := none
  method : Option String := none
  path : Option String := none
  statusCode : Option Int := none
  latencyMs : Option Rat := none
  error : Option String := none
  jobId : Option String := none
  excInfo : Option String := none

/-- The context in which a record is formatted: the time, the two context variables, and the ids of
the current span. -/
structure LogContext where
  timestamp : String
  requestId : Option String
  correlationId : Option String
  traceId : Fin (2 ^ 128)
  spanId : Fin (2 ^ 64)

/-- `span_context.is_valid`. -/
def LogContext.isValid (context : LogContext) : Bool := context.traceId ≠ 0 && context.spanId ≠ 0

/-- A text, or null. -/
def textOrNull (text : Option String) : Json := text.elim .null .str

/-- `format(trace_id, "032x")`. -/
def traceText (traceId : Fin (2 ^ 128)) : String := String.ofList (Uuid.hexDigits 32 traceId)

/-- `format(span_id, "016x")`. -/
def spanText (spanId : Fin (2 ^ 64)) : String := String.ofList (Uuid.hexDigits 16 spanId)

/-- The literal in `JsonFormatter.format`. -/
def basePayload (context : LogContext) (record : LogRecord) : List (String × Json) :=
  [("timestamp", .str context.timestamp), ("level", .str record.levelname),
    ("service", .str (record.service.getD "api")), ("message", .str record.message),
    ("request_id", textOrNull context.requestId),
    ("correlation_id", textOrNull context.correlationId),
    ("trace_id", if context.isValid then .str (traceText context.traceId) else .null),
    ("span_id", if context.isValid then .str (spanText context.spanId) else .null)]

/-- The attributes in the order of the loop. -/
def extraFields (record : LogRecord) : List (String × Option Json) :=
  [("method", record.method.map .str), ("path", record.path.map .str),
    ("status_code", record.statusCode.map .int), ("latency_ms", record.latencyMs.map .float),
    ("error", record.error.map .str), ("job_id", record.jobId.map .str)]

/-- `if value is not None: payload[key] = value`. -/
def setPresent (fields : List (String × Json)) (field : String × Option Json) :
    List (String × Json) :=
  match field.2 with
  | some value => Json.setField fields (field.1, value)
  | none => fields

/-- The payload of `JsonFormatter.format`. -/
def payload (context : LogContext) (record : LogRecord) : List (String × Json) :=
  setPresent ((extraFields record).foldl setPresent (basePayload context record))
    ("error", record.excInfo.map .str)

/-! ### The stream -/

/-- A record with its context. -/
abbrev LogEvent := LogContext × LogRecord

/-- The line of a record. -/
def logLine (F : FloatText) (event : LogEvent) : List Char :=
  (Json.dumps F (.obj (payload event.1 event.2))).toList

/-- What `StreamHandler` writes. -/
def stream (F : FloatText) (events : List LogEvent) : List Char :=
  events.flatMap fun event => logLine F event ++ ['\n']

/-- The lines of a text, each ended by `\n`. -/
def linesOf : List Char → List Char → List (List Char)
  | _, [] => []
  | line, char :: rest =>
      if char = '\n' then line :: linesOf [] rest else linesOf (line ++ [char]) rest

/-- A reader of the log: what each line is as JSON. -/
def readLog (F : FloatText) (text : List Char) : List (Option Json) :=
  (linesOf [] text).map fun line => Json.loads F (String.ofList line)

/-- The line has this text in this field. -/
def hasText (key text : String) : Option Json → Bool
  | some (.obj fields) => (Json.field? key fields).any (Json.isStr text)
  | _ => false

/-- What the line of a record is read as. -/
def LogEvent.read (event : LogEvent) : Option Json := some (.obj (payload event.1 event.2))

/-! ### The root logger -/

/-- The levels that `logging` knows. -/
def levelNumbers : List (String × Nat) :=
  [("CRITICAL", 50), ("FATAL", 50), ("ERROR", 40), ("WARN", 30), ("WARNING", 30), ("INFO", 20),
    ("DEBUG", 10), ("NOTSET", 0)]

/-- `str.upper`, as far as the result is a letter of a level. -/
def upperChar (char : Char) : Char :=
  if char = 'ı' then 'I' else if char = 'ſ' then 'S' else char.toUpper

/-- `configure_logging`: the level that the root logger gets, or its refusal. -/
def configureLogging (level : String) : Except String Nat :=
  match levelNumbers.find? fun known => known.1.toList = level.toList.map upperChar with
  | some known => .ok known.2
  | none => .error ("Unknown level: '" ++ String.ofList (level.toList.map upperChar) ++ "'")

/-- What a record takes from the moment it is made. -/
structure LogStamp where
  timestamp : String
  traceId : Fin (2 ^ 128)
  spanId : Fin (2 ^ 64)

/-- A task: its `request_id_var` and `correlation_id_var`, and what it has logged. -/
structure LogTask where
  requestId : Option String
  correlationId : Option String
  written : List LogEvent

/-- No variable is set, and nothing logged. -/
def LogTask.start : LogTask := ⟨none, none, []⟩

/-- The context of a record that the task makes. -/
def LogTask.context (task : LogTask) (stamp : LogStamp) : LogContext where
  timestamp := stamp.timestamp
  requestId := task.requestId
  correlationId := task.correlationId
  traceId := stamp.traceId
  spanId := stamp.spanId

/-- A logger without a level of its own: the root logger drops what is below its level. -/
def LogTask.log (rootLevel : Nat) (task : LogTask) (made : LogStamp × LogRecord) : LogTask :=
  if rootLevel ≤ (levelNumbers.lookup made.2.levelname).getD 0 then
    { task with written := task.written ++ [(task.context made.1, made.2)] }
  else task

/-! ### Requests -/

/-- How the handling of a request ended. -/
inductive RequestEnd where
  | response (statusCode : Int)
  | raised (error traceback : String)

/-- A request, as the middleware sees it. -/
structure SeenRequest where
  requestIdHeader : Option String
  correlationIdHeader : Option String
  drawn : Uuid
  method : String
  path : String
  ended : RequestEnd
  latencyMs : Rat

/-- `headers.get(name) or other`. -/
def headerOr (header : Option String) (other : String) : String :=
  match header with
  | some text => if text = "" then other else text
  | none => other

def SeenRequest.requestId (request : SeenRequest) : String :=
  headerOr request.requestIdHeader request.drawn.str

def SeenRequest.correlationId (request : SeenRequest) : String :=
  headerOr request.correlationIdHeader request.requestId

/-- The record of the end of a request. -/
def SeenRequest.record (serviceName : String) (request : SeenRequest) : LogRecord :=
  match request.ended with
  | .response statusCode =>
      { levelname := "INFO", message := "request completed", service := some serviceName,
        method := some request.method, path := some request.path, statusCode := some statusCode,
        latencyMs := some request.latencyMs }
  | .raised error traceback =>
      { levelname := "ERROR", message := "request failed", service := some serviceName,
        method := some request.method, path := some request.path,
        latencyMs := some request.latencyMs, error := some error, excInfo := some traceback }

/-- The headers of the response, if there is one. -/
def SeenRequest.responseHeaders (request : SeenRequest) : Option (List (String × String)) :=
  match request.ended with
  | .response _ =>
      some [("x-request-id", request.requestId), ("x-correlation-id", request.correlationId)]
  | .raised .. => none

/-- The variables are set. -/
def LogTask.within (task : LogTask) (request : SeenRequest) : LogTask where
  requestId := some request.requestId
  correlationId := some request.correlationId
  written := task.written

/-- `RequestContextMiddleware.dispatch`: it sets the variables, `call_next` logs what it logs, the end
is logged, and the variables are reset. -/
def dispatch (rootLevel : Nat) (serviceName : String) (request : SeenRequest)
    (callNext : List (LogStamp × LogRecord)) (stamp : LogStamp) (task : LogTask) :
    Option (List (String × String)) × LogTask :=
  let handled := callNext.foldl (LogTask.log rootLevel) (task.within request)
  let ended := handled.log rootLevel (stamp, request.record serviceName)
  (request.responseHeaders,
    { ended with requestId := task.requestId, correlationId := task.correlationId })

/-! ### Payloads -/

section Payloads

variable {F : FloatText} {fields : List (String × Json)} {context : LogContext} {record : LogRecord}

theorem keys_setField (field : String × Json) :
    (Json.setField fields field).map Prod.fst =
      if field.1 ∈ fields.map Prod.fst then fields.map Prod.fst
      else fields.map Prod.fst ++ [field.1] := by
  unfold Json.setField
  by_cases known : field.1 ∈ fields.map Prod.fst
  · rw [if_pos known, if_pos known, List.map_map]
    apply List.map_congr_left
    intro old _
    by_cases same : old.1 = field.1 <;> simp [same]
  · rw [if_neg known, if_neg known, List.map_append]
    rfl

theorem nodup_setField (distinct : (fields.map Prod.fst).Nodup) (field : String × Json) :
    ((Json.setField fields field).map Prod.fst).Nodup := by
  rw [keys_setField]
  by_cases known : field.1 ∈ fields.map Prod.fst
  · rw [if_pos known]
    exact distinct
  · rw [if_neg known]
    exact List.nodup_append.mpr ⟨distinct, by simp, by
      intro key member other isOther
      rw [List.mem_singleton.mp isOther]
      exact fun same => known (same ▸ member)⟩

theorem mem_setField {field old : String × Json} (member : old ∈ Json.setField fields field) :
    old = field ∨ old ∈ fields := by
  unfold Json.setField at member
  by_cases known : field.1 ∈ fields.map Prod.fst
  · rw [if_pos known] at member
    obtain ⟨before, inFields, isOld⟩ := List.mem_map.mp member
    by_cases same : before.1 = field.1
    · rw [if_pos same] at isOld
      exact Or.inl isOld.symm
    · rw [if_neg same] at isOld
      exact Or.inr (isOld ▸ inFields)
  · rw [if_neg known] at member
    exact (List.mem_append.mp member).symm.imp List.mem_singleton.mp id

theorem field?_cons (key : String) (field : String × Json) (rest : List (String × Json)) :
    Json.field? key (field :: rest) =
      if field.1 = key then some field.2 else Json.field? key rest := by
  unfold Json.field?
  by_cases same : field.1 = key <;> simp [same]

/-- A field keeps its value when another is set. -/
theorem field?_setField {key : String} {field : String × Json} (other : key ≠ field.1) :
    Json.field? key (Json.setField fields field) = Json.field? key fields := by
  unfold Json.setField
  by_cases known : field.1 ∈ fields.map Prod.fst
  · rw [if_pos known]
    clear known
    induction fields with
    | nil => rfl
    | cons old fields inductionHypothesis =>
        rw [List.map_cons, field?_cons, field?_cons, inductionHypothesis]
        by_cases replaced : old.1 = field.1
        · rw [if_pos replaced, if_neg (Ne.symm other), if_neg (replaced ▸ Ne.symm other)]
        · rw [if_neg replaced]
  · rw [if_neg known]
    have notNew : ¬ field.1 = key := fun same => other same.symm
    simp [Json.field?, List.find?_append, notNew]

/-! ### Setting all fields -/

/-- What setting any fields keeps, the payload has. -/
theorem payload_keeps {P : List (String × Json) → Prop} (base : P (basePayload context record))
    (step : ∀ fields field, P fields → field ∈ ("error", record.excInfo.map .str) ::
      extraFields record → P (setPresent fields field)) : P (payload context record) := by
  have all : ∀ (rest : List (String × Option Json)) (fields : List (String × Json)), P fields →
      (∀ field ∈ rest, field ∈ extraFields record) → P (rest.foldl setPresent fields) := by
    intro rest
    induction rest with
    | nil => exact fun fields holds _ => holds
    | cons field rest inductionHypothesis =>
        intro fields holds inside
        exact inductionHypothesis _
          (step fields field holds (List.mem_cons_of_mem _ (inside field (by simp))))
          fun other member => inside other (by simp [member])
  exact step _ _ (all _ _ base fun _ member => member) (by simp)

theorem nodup_payload (context : LogContext) (record : LogRecord) :
    ((payload context record).map Prod.fst).Nodup := by
  apply payload_keeps (P := fun fields => (fields.map Prod.fst).Nodup)
  · simp [basePayload]
  · intro fields field distinct _
    unfold setPresent
    cases field.2 with
    | none => exact distinct
    | some value => exact nodup_setField distinct _

/-- The ids are not among what a record may set. -/
theorem field?_payload {key : String} (isBase : key ∈ ["request_id", "correlation_id", "trace_id"]) :
    Json.field? key (payload context record) = Json.field? key (basePayload context record) := by
  apply payload_keeps (P := fun fields =>
    Json.field? key fields = Json.field? key (basePayload context record)) rfl
  intro fields field same isExtra
  have other : key ≠ field.1 := by
    intro isKey
    rw [isKey] at isBase
    have names : field.1 ∈ (("error", record.excInfo.map Json.str) :: extraFields record).map
        Prod.fst := List.mem_map_of_mem isExtra
    have apart : ∀ name ∈ ["error", "method", "path", "status_code", "latency_ms", "error",
        "job_id"], name ∉ ["request_id", "correlation_id", "trace_id"] := by simp
    exact apart field.1 names isBase
  unfold setPresent
  cases field.2 with
  | none => exact same
  | some value => exact (field?_setField other).trans same

/-- The numbers of a record have texts that are read back. -/
structure LogRecord.Readable (F : FloatText) (record : LogRecord) : Prop where
  statusCode : ∀ value, record.statusCode = some value → value.natAbs < 10 ^ maxStrDigits
  latencyMs : ∀ value, record.latencyMs = some value →
    Json.FloatToken (F.repr value) ∧ F.read (F.repr value) = value

theorem readable_textOrNull (text : Option String) : Json.Readable F (textOrNull text) := by
  cases text with
  | none => exact .null
  | some text => exact .str text

theorem readable_extra (readable : record.Readable F) {field : String × Option Json} {value : Json}
    (isExtra : field ∈ ("error", record.excInfo.map .str) :: extraFields record)
    (present : field.2 = some value) : Json.Readable F value := by
  have text : ∀ {text : Option String}, text.map Json.str = some value → Json.Readable F value := by
    intro text isText
    obtain ⟨written, _, rfl⟩ := Option.map_eq_some_iff.mp isText
    exact .str written
  simp only [extraFields, List.mem_cons, List.not_mem_nil, or_false] at isExtra
  rcases isExtra with rfl | rfl | rfl | rfl | rfl | rfl | rfl
  · exact text present
  · exact text present
  · exact text present
  · obtain ⟨number, isNumber, rfl⟩ := Option.map_eq_some_iff.mp present
    exact .int (readable.statusCode number isNumber)
  · obtain ⟨number, isNumber, rfl⟩ := Option.map_eq_some_iff.mp present
    exact .float (readable.latencyMs number isNumber).1 (readable.latencyMs number isNumber).2
  · exact text present
  · exact text present

theorem readable_payload (readable : record.Readable F) :
    Json.Readable F (.obj (payload context record)) := by
  apply Json.Readable.obj (nodup_payload context record)
  apply payload_keeps (P := fun fields => ∀ field ∈ fields, Json.Readable F field.2)
  · intro field member
    have isValue : ∀ text, Json.Readable F
        (if context.isValid then Json.str text else Json.null) := by
      intro text
      by_cases valid : context.isValid = true
      · rw [if_pos valid]
        exact .str text
      · rw [if_neg valid]
        exact .null
    simp only [basePayload, List.mem_cons, List.not_mem_nil, or_false] at member
    rcases member with rfl | rfl | rfl | rfl | rfl | rfl | rfl | rfl
    · exact .str _
    · exact .str _
    · exact .str _
    · exact .str _
    · exact readable_textOrNull _
    · exact readable_textOrNull _
    · exact isValue _
    · exact isValue _
  · intro fields field holds isExtra old member
    unfold setPresent at member
    cases present : field.2 with
    | none =>
        rw [present] at member
        exact holds old member
    | some value =>
        rw [present] at member
        rcases mem_setField member with isNew | isOld
        · rw [isNew]
          exact readable_extra readable isExtra present
        · exact holds old isOld

end Payloads

/-! ### Reading the log -/

section Reading

variable {F : FloatText}

theorem linesOf_line : ∀ (line sofar rest : List Char), '\n' ∉ line →
    linesOf sofar (line ++ '\n' :: rest) = (sofar ++ line) :: linesOf [] rest
  | [], sofar, rest, _ => by simp [linesOf]
  | char :: line, sofar, rest, clean => by
      have other : char ≠ '\n' := fun same => clean (by simp [same])
      show (if char = '\n' then _ else linesOf (sofar ++ [char]) (line ++ '\n' :: rest)) = _
      rw [if_neg other, linesOf_line line (sofar ++ [char]) rest fun member => clean (by simp [member]),
        List.append_assoc]
      rfl

theorem linesOf_stream : ∀ events : List LogEvent, (∀ event ∈ events, event.2.Readable F) →
    linesOf [] (stream F events) = events.map (logLine F)
  | [], _ => rfl
  | event :: events, readable => by
      have clean : '\n' ∉ logLine F event := by
        intro member
        have printable := Json.printable_dumps (readable_payload (readable event (by simp))) _ member
        simp [Json.Printable] at printable
      show linesOf [] ((logLine F event ++ ['\n']) ++ stream F events) = _
      rw [List.append_assoc]
      show linesOf [] (logLine F event ++ '\n' :: stream F events) = _
      rw [linesOf_line _ _ _ clean, linesOf_stream events fun other member =>
        readable other (by simp [member])]
      rfl

/-- The reader gets the payload of each record, in order. -/
theorem readLog_stream (events : List LogEvent) (readable : ∀ event ∈ events, event.2.Readable F) :
    readLog F (stream F events) = events.map LogEvent.read := by
  unfold readLog
  rw [linesOf_stream events readable, List.map_map]
  apply List.map_congr_left
  intro event member
  rw [Function.comp_apply, logLine, String.ofList_toList]
  exact Json.loads_dumps (readable_payload (readable event member))

theorem traceText_injective {left right : Fin (2 ^ 128)} (same : traceText left = traceText right) :
    left = right := by
  have digits : Uuid.hexDigits 32 left = Uuid.hexDigits 32 right := String.ofList_injective same
  have read : ∀ traceId : Fin (2 ^ 128),
      Uuid.readDigits false 0 (Uuid.hexDigits 32 traceId ++ []) = some traceId.val := by
    intro traceId
    have small : traceId.val < 16 ^ 32 := lt_of_lt_of_eq traceId.isLt (by norm_num)
    rw [Uuid.readDigits_hexDigits, Nat.mod_eq_of_lt small]
    simp [Uuid.readDigits]
  have values := read left
  rw [digits, read right] at values
  exact Fin.ext (Option.some.inj values).symm

theorem isStr_textOrNull (text : Option String) (other : String) :
    Json.isStr other (textOrNull text) = decide (text = some other) := by
  cases text <;> simp [textOrNull, Json.isStr]

/-- The reader finds the records whose field holds the text. -/
theorem query_payload (events : List LogEvent) (key text : String) :
    (events.map LogEvent.read).filter (hasText key text) =
      (events.filter fun event => (Json.field? key (payload event.1 event.2)).any
        (Json.isStr text)).map LogEvent.read := by
  rw [List.filter_map]
  rfl

/-- The reader finds the records that were formatted under an id. -/
theorem query_requestId (events : List LogEvent) (requestId : String) :
    (events.map LogEvent.read).filter (hasText "request_id" requestId) =
      (events.filter fun event => event.1.requestId = some requestId).map LogEvent.read := by
  rw [query_payload]
  congr 2
  funext event
  rw [field?_payload (by simp)]
  show Json.isStr requestId (textOrNull event.1.requestId) = _
  exact isStr_textOrNull _ _

end Reading

/-! ### What a request logs -/

section Requests

/-- Logging appends records under the variables of the task, which stay as they are. -/
structure Logs (task after : LogTask) : Prop where
  requestId : after.requestId = task.requestId
  correlationId : after.correlationId = task.correlationId
  written : ∃ more, after.written = task.written ++ more ∧
    ∀ event ∈ more, event.1.requestId = task.requestId

theorem Logs.refl (task : LogTask) : Logs task task :=
  ⟨rfl, rfl, [], by simp, by simp⟩

theorem Logs.trans {middle after : LogTask} (first : Logs task middle) (second : Logs middle after) :
    Logs task after := by
  obtain ⟨more, isMiddle, under⟩ := first.written
  obtain ⟨others, isAfter, alsoUnder⟩ := second.written
  refine ⟨second.requestId.trans first.requestId, second.correlationId.trans first.correlationId,
    more ++ others, by rw [isAfter, isMiddle, List.append_assoc], fun event member => ?_⟩
  rcases List.mem_append.mp member with old | new
  · exact under event old
  · exact (alsoUnder event new).trans first.requestId

theorem logs_log (rootLevel : Nat) (task : LogTask) (made : LogStamp × LogRecord) :
    Logs task (task.log rootLevel made) := by
  unfold LogTask.log
  split
  · exact ⟨rfl, rfl, _, rfl, by simp [LogTask.context]⟩
  · exact .refl task

theorem logs_foldl (rootLevel : Nat) (task : LogTask) (made : List (LogStamp × LogRecord)) :
    Logs task (made.foldl (LogTask.log rootLevel) task) := by
  induction made generalizing task with
  | nil => exact .refl task
  | cons first rest inductionHypothesis =>
      exact (logs_log rootLevel task first).trans (inductionHypothesis _)

variable {rootLevel : Nat} {serviceName : String} {request : SeenRequest}
  {callNext : List (LogStamp × LogRecord)} {stamp : LogStamp}

/-- All that a request logs is logged under its id. -/
theorem dispatch_requestId :
    ∀ event ∈ (dispatch rootLevel serviceName request callNext stamp .start).2.written,
      event.1.requestId = some request.requestId := by
  have handled := logs_foldl rootLevel (LogTask.start.within request) callNext
  have ended := handled.trans (logs_log rootLevel _ (stamp, request.record serviceName))
  obtain ⟨more, isWritten, under⟩ := ended.written
  intro event member
  have inMore : event ∈ [] ++ more := isWritten ▸ member
  exact under event inMore

/-- A request is logged at its end where the root logger takes `INFO`. -/
theorem dispatch_logs_end (informs : rootLevel ≤ 20) :
    ∃ context, (context, request.record serviceName) ∈
      (dispatch rootLevel serviceName request callNext stamp .start).2.written := by
  have isInfo : levelNumbers.lookup "INFO" = some 20 := by decide
  have isError : levelNumbers.lookup "ERROR" = some 40 := by decide
  have level : rootLevel ≤
      (levelNumbers.lookup (request.record serviceName).levelname).getD 0 := by
    unfold SeenRequest.record
    split
    · dsimp only
      rw [isInfo]
      exact informs
    · dsimp only
      rw [isError]
      exact informs.trans (by decide)
  unfold dispatch
  dsimp only
  rw [LogTask.log, if_pos level]
  exact ⟨_, List.mem_append_right _ List.mem_cons_self⟩

end Requests

/-- **No text forges a record.** Whatever the records hold, and however those of different requests
alternate, a reader of the log gets the payload of every record in order and nothing else. The lines
whose `request_id` or `trace_id` is a given one are those of the records with this id. All that a
request has logged is, in order, among those with the id in its response, and unless `LOG_LEVEL` is
above `INFO` its end is. -/
theorem log_reads (F : FloatText) (events : List LogEvent)
    (readable : ∀ event ∈ events, event.2.Readable F) :
    readLog F (stream F events) = events.map LogEvent.read ∧
      (∀ requestId, (readLog F (stream F events)).filter (hasText "request_id" requestId) =
        (events.filter fun event => event.1.requestId = some requestId).map LogEvent.read) ∧
      (∀ traceId, (readLog F (stream F events)).filter (hasText "trace_id" (traceText traceId)) =
        (events.filter fun event => event.1.isValid ∧ event.1.traceId = traceId).map
          LogEvent.read) ∧
      ∀ (rootLevel : Nat) (serviceName : String) (request : SeenRequest)
        (callNext : List (LogStamp × LogRecord)) (stamp : LogStamp) headers (after : LogTask),
        dispatch rootLevel serviceName request callNext stamp .start = (some headers, after) →
        after.written.Sublist events → ∀ requestId,
          headers.lookup "x-request-id" = some requestId →
          (after.written.map LogEvent.read).Sublist
            ((readLog F (stream F events)).filter (hasText "request_id" requestId)) ∧
          (rootLevel ≤ 20 → ∃ context, (context, request.record serviceName) ∈ after.written) := by
  have read := readLog_stream events readable
  refine ⟨read, fun requestId => read ▸ query_requestId events requestId, fun traceId => ?_, ?_⟩
  · rw [read, query_payload]
    congr 2
    funext event
    rw [field?_payload (by simp)]
    show Json.isStr (traceText traceId)
      (if event.1.isValid then .str (traceText event.1.traceId) else .null) = _
    by_cases valid : event.1.isValid = true
    · have sameTrace : traceText event.1.traceId = traceText traceId ↔ event.1.traceId = traceId :=
        ⟨traceText_injective, congrArg traceText⟩
      simp [valid, Json.isStr, sameTrace]
    · simp [valid, Json.isStr]
  · intro rootLevel serviceName request callNext stamp headers after dispatched inStream requestId isId
    have isHeaders : request.responseHeaders = some headers := congrArg Prod.fst dispatched
    have isAfter := congrArg Prod.snd dispatched
    subst isAfter
    have sameId : request.requestId = requestId := by
      unfold SeenRequest.responseHeaders at isHeaders
      split at isHeaders
      · rw [← Option.some.inj isHeaders] at isId
        simpa using isId
      · simp at isHeaders
    refine ⟨?_, fun informs => dispatch_logs_end informs⟩
    rw [read, query_requestId]
    refine List.Sublist.map _ ?_
    have kept := inStream.filter fun event => event.1.requestId = some requestId
    rwa [List.filter_eq_self.mpr fun event member => by
      simp [dispatch_requestId event member, sameId]] at kept

/-- A request whose path has a line end, between the records of another one. -/
theorem log_reads_newline :
    let F : FloatText := ⟨fun _ => ['1', '.', '5'], fun _ => 3 / 2⟩
    let request : SeenRequest := ⟨some "a", none, ⟨0, by decide⟩, "GET", "/jobs\nlevel",
      .response 404, 3 / 2⟩
    let stamp : LogStamp := ⟨"2026-01-01T00:00:00+00:00", 7, 9⟩
    let other : LogEvent := (⟨"2026-01-01T00:00:00+00:00", some "b", some "b", 8, 9⟩,
      { levelname := "INFO", message := "asked" })
    let own := (dispatch 20 "api" request [(stamp, { levelname := "INFO", message := "asked" })] stamp
      .start).2.written
    configureLogging "info" = .ok 20 ∧ (own.map LogEvent.read).Sublist
      ((readLog F (stream F (other :: own ++ [other]))).filter (hasText "request_id" "a")) := by
  intro F request stamp other own
  have isFloat : Json.FloatToken (F.repr (3 / 2)) :=
    ⟨[], ['1'], ['.', '5'], [], rfl, by simp, by simp [Json.IsInteger, Json.Digits], by
      simp [Json.IsFraction, Json.Digits], by simp [Json.IsExponent], by simp⟩
  have plain : LogRecord.Readable F { levelname := "INFO", message := "asked" } := ⟨nofun, nofun⟩
  have ended : (request.record "api").Readable F := by
    refine ⟨fun value isValue => ?_, fun value isValue => ?_⟩
    · rw [← Option.some.inj isValue]
      exact lt_of_lt_of_le (by decide : 404 < 10 ^ 3) (Nat.pow_le_pow_right (by decide) (by decide))
    · rw [← Option.some.inj isValue]
      exact ⟨isFloat, rfl⟩
  have readable : ∀ event ∈ other :: own ++ [other], event.2.Readable F := by
    have isOwn : own = [(_, { levelname := "INFO", message := "asked" }), (_, request.record "api")] :=
      rfl
    intro event member
    rw [isOwn] at member
    simp only [List.cons_append, List.nil_append, List.mem_cons, List.not_mem_nil, or_false] at member
    rcases member with rfl | rfl | rfl | rfl
    · exact plain
    · exact plain
    · exact ended
    · exact plain
  have inside : own.Sublist (other :: own ++ [other]) :=
    (List.sublist_append_left own [other]).trans (List.sublist_cons_self _ _)
  exact ⟨by decide, ((log_reads F _ readable).2.2.2 20 "api" request _ stamp _ _ rfl inside "a"
    (by decide)).1⟩

end JobPlatform.Runtime
