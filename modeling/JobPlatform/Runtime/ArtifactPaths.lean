import JobPlatform.Foundation.PosixPath
import JobPlatform.Runtime.Adapters

/-!
Contract: where the artifact stores of `application/shared/adapters.py` put a report.

Owns:
- `LocalArtifactStore` and `S3ArtifactStore`, with the file and the object they write and the key
  they return, and `createArtifactStore`;
- `KeepsReports`, what a root and a prefix promise about every report, and the condition under
  which they keep it.

The report id that `put_csv_report` draws is an argument. A path that holds a null character is
refused before the operating system sees it, and the file system may refuse a path for its length;
every other write succeeds.
-/

namespace JobPlatform.Runtime

open JobPlatform.Foundation JobPlatform.Store

/-! ### The stores -/

/-- The key both stores build. -/
def reportKey (keyPrefix : String) (jobId reportId : Uuid) : String :=
  keyPrefix ++ "/" ++ jobId.str ++ "/" ++ reportId.str ++ ".csv"

/-- A file on disk. -/
structure ReportFile where
  destination : PosixPath
  rows : ReportRows

/-- An object of a bucket. -/
structure ReportObject where
  bucket : String
  key : String
  rows : ReportRows

/-- A report as `put_csv_report` leaves it: what was written, and the returned key and type. -/
structure StoredReport (α : Type) where
  written : α
  objectKey : String
  objectType : String

structure LocalArtifactStore where
  root : String
  keyPrefix : String

structure S3ArtifactStore where
  bucketName : String
  keyPrefix : String

namespace LocalArtifactStore

/-- `LocalArtifactStore(root, prefix)`. -/
def init (root keyPrefix : String) : LocalArtifactStore := ⟨root, stripSlashes keyPrefix⟩

/-- The text of `self.root / object_key`. -/
def target (store : LocalArtifactStore) (objectKey : String) : List Char :=
  PosixPath.join store.root.toList objectKey.toList

/-- `put_csv_report`. -/
def putCsvReport (store : LocalArtifactStore) (fileSystem : FileSystem) (jobId reportId : Uuid)
    (rows : ReportRows) : Except Exn (StoredReport ReportFile) :=
  let objectKey := reportKey store.keyPrefix jobId reportId
  let target := store.target objectKey
  let destination := PosixPath.parse target
  if '\x00' ∈ target then .error .valueError
  else if fileSystem.Refuses destination then .error (.other "OSError")
  else .ok ⟨⟨destination, rows⟩, objectKey, "text/csv"⟩

end LocalArtifactStore

namespace S3ArtifactStore

/-- `S3ArtifactStore(bucket_name, region_name, prefix)`. -/
def init (bucketName keyPrefix : String) : S3ArtifactStore := ⟨bucketName, stripSlashes keyPrefix⟩

/-- `put_csv_report`. -/
def putCsvReport (store : S3ArtifactStore) (jobId reportId : Uuid) (rows : ReportRows) :
    StoredReport ReportObject :=
  let objectKey := reportKey store.keyPrefix jobId reportId
  ⟨⟨store.bucketName, objectKey, rows⟩, objectKey, "text/csv"⟩

end S3ArtifactStore

/-- `Settings.artifact_backend`. -/
inductive ArtifactBackend where
  | disk
  | s3
deriving DecidableEq

/-- The settings of the artifact store. -/
structure ArtifactSettings where
  awsRegion : String
  artifactBackend : ArtifactBackend
  artifactBucketName : Option String
  artifactPrefix : String
  localArtifactRoot : String

/-- `Settings.validate_artifact_store`. -/
def ArtifactSettings.validateArtifactStore (settings : ArtifactSettings) : Except Exn Unit :=
  if settings.awsRegion = "" ∨ settings.artifactBackend ≠ .s3 ∨
      settings.artifactBucketName.getD "" = "" then .error .valueError
  else .ok ()

/-- `create_artifact_store`. -/
def createArtifactStore (settings : ArtifactSettings) :
    Except Exn (LocalArtifactStore ⊕ S3ArtifactStore) := do
  if settings.artifactBackend = .s3 then
    settings.validateArtifactStore
    return .inr (.init (settings.artifactBucketName.getD "") settings.artifactPrefix)
  else return .inl (.init settings.localArtifactRoot settings.artifactPrefix)

/-- The key of either store is the key the worker stores. -/
theorem objectKey_eq (keyPrefix : String) (jobId reportId : Uuid) :
    ArtifactStore.objectKey ⟨keyPrefix⟩ jobId reportId =
      reportKey (stripSlashes keyPrefix) jobId reportId := rfl

/-! ### The promise -/

/-- The key is the prefix, the job and the report, and does not start with a slash. -/
def WellFormedKey (keyPrefix : String) (jobId reportId : Uuid) (objectKey : String) : Prop :=
  objectKey = reportKey (stripSlashes keyPrefix) jobId reportId ∧ objectKey.toList.head? ≠ some '/'

/-- What a root and a prefix promise about every report, in the store that `create_artifact_store`
makes of them and in its S3 sibling. -/
structure KeepsReports (fileSystem : FileSystem) (root keyPrefix : String) : Prop where
  contained : ∀ jobId reportId rows stored,
    (LocalArtifactStore.init root keyPrefix).putCsvReport fileSystem jobId reportId rows =
        .ok stored →
      PosixPath.StrictlyBelow (.parse root.toList) stored.written.destination ∧
      stored.written.destination = .parse (PosixPath.join root.toList stored.objectKey.toList) ∧
      WellFormedKey keyPrefix jobId reportId stored.objectKey
  formed : ∀ bucketName jobId reportId rows, WellFormedKey keyPrefix jobId reportId
    ((S3ArtifactStore.init bucketName keyPrefix).putCsvReport jobId reportId rows).objectKey
  same : ∀ bucketName jobId reportId rows stored,
    (LocalArtifactStore.init root keyPrefix).putCsvReport fileSystem jobId reportId rows =
        .ok stored →
      ((S3ArtifactStore.init bucketName keyPrefix).putCsvReport jobId reportId rows).objectKey =
        stored.objectKey
  distinct : ∀ bucketName jobId reportId rows otherJob otherReport otherRows,
    ((S3ArtifactStore.init bucketName keyPrefix).putCsvReport jobId reportId rows).objectKey =
      ((S3ArtifactStore.init bucketName keyPrefix).putCsvReport otherJob otherReport
        otherRows).objectKey → jobId = otherJob ∧ reportId = otherReport

/-- The directory of a prefix under a root. -/
def reportRoot (root keyPrefix : String) : PosixPath :=
  .parse (PosixPath.join root.toList (stripSlashes keyPrefix).toList)

/-- No report of the prefix is ever written: its path holds a null character, or with the names of
a job and of a file, of 36 and 40 bytes, it is too long for the file system. -/
def Unwritable (fileSystem : FileSystem) (root keyPrefix : String) : Prop :=
  '\x00' ∈ root.toList ∨ '\x00' ∈ (stripSlashes keyPrefix).toList ∨
    fileSystem.refuses (reportRoot root keyPrefix).anchor
      ((reportRoot root keyPrefix).lengths ++ [36, 40]) = true

instance (fileSystem : FileSystem) (root keyPrefix : String) :
    Decidable (Unwritable fileSystem root keyPrefix) := inferInstanceAs (Decidable (_ ∨ _ ∨ _))

/-- The prefix is more than slashes, and with its `..` resolved it does not lead out of the root,
unless no report of it is ever written. -/
def Guarded (fileSystem : FileSystem) (root keyPrefix : String) : Prop :=
  stripSlashes keyPrefix ≠ "" ∧
    (Unwritable fileSystem root keyPrefix ∨
      PosixPath.Within (.parse root.toList) (reportRoot root keyPrefix))

/-! ### Keys -/

section Keys

variable (keyPrefix : String) (jobId reportId : Uuid)

/-- The name of the file of a report. -/
def reportName : List Char := reportId.str.toList ++ ['.', 'c', 's', 'v']

theorem reportKey_toList : (reportKey keyPrefix jobId reportId).toList =
    keyPrefix.toList ++ '/' :: (jobId.str.toList ++ '/' :: reportName reportId) := by
  simp [reportKey, reportName]

/-- What no written UUID holds. -/
theorem not_mem_str {char : Char} (absent : char ∈ ['/', '.', '\x00']) : char ∉ jobId.str.toList := by
  intro member
  rcases Uuid.mem_str member with rfl | ⟨digit, small, rfl⟩
  · revert absent
    decide
  · revert absent
    interval_cases digit <;> decide

theorem not_mem_reportName {char : Char} (absent : char ∈ ['/', '\x00']) :
    char ∉ reportName reportId := by
  have either : char = '/' ∨ char = '\x00' := by simpa using absent
  have kept : char ∈ ['/', '.', '\x00'] := by rcases either with rfl | rfl <;> decide
  have other : char ∉ ['.', 'c', 's', 'v'] := by rcases either with rfl | rfl <;> decide
  intro member
  exact (List.mem_append.mp member).elim (not_mem_str reportId kept) other

theorem str_long {text : List Char} (short : text.length < 36) : jobId.str.toList ≠ text := by
  rintro rfl
  rw [Uuid.length_str] at short
  exact absurd short (lt_irrefl _)

/-- A written UUID has a byte for each of its characters. -/
theorem byteLength_str : PosixPath.byteLength jobId.str.toList = 36 := by
  rw [PosixPath.byteLength_ascii, Uuid.length_str]
  intro char member
  rcases Uuid.mem_str member with rfl | ⟨digit, small, rfl⟩
  · rfl
  · interval_cases digit <;> rfl

theorem byteLength_reportName : PosixPath.byteLength (reportName reportId) = 40 := by
  rw [reportName, PosixPath.byteLength_append, byteLength_str]
  rfl

theorem reportName_long {text : List Char} (short : text.length < 36) :
    reportName reportId ≠ text := by
  rintro rfl
  rw [reportName, List.length_append, Uuid.length_str] at short
  omega

/-- The components of a key are those of the prefix, the job and the file. -/
theorem partsOf_reportKey : PosixPath.partsOf (reportKey keyPrefix jobId reportId).toList =
    PosixPath.partsOf keyPrefix.toList ++ [jobId.str.toList, reportName reportId] := by
  have job : PosixPath.partsOf jobId.str.toList = [jobId.str.toList] :=
    PosixPath.partsOf_name (not_mem_str jobId (by simp))
      ⟨str_long jobId (by simp), str_long jobId (by simp)⟩
  have report : PosixPath.partsOf (reportName reportId) = [reportName reportId] :=
    PosixPath.partsOf_name (not_mem_reportName reportId (by simp))
      ⟨reportName_long reportId (by simp), reportName_long reportId (by simp)⟩
  rw [reportKey_toList, PosixPath.partsOf_append_slash, PosixPath.partsOf_append_slash, job, report]
  rfl

theorem reportKey_injective {otherJob otherReport : Uuid}
    (same : reportKey keyPrefix jobId reportId = reportKey keyPrefix otherJob otherReport) :
    jobId = otherJob ∧ reportId = otherReport := by
  have texts := congrArg String.toList same
  rw [reportKey_toList, reportKey_toList] at texts
  have rests := List.cons_injective (List.append_cancel_left texts)
  obtain ⟨sameJob, sameRest⟩ := List.append_inj rests (by simp [Uuid.length_str])
  have names := List.cons_injective sameRest
  obtain ⟨sameReport, _⟩ := List.append_inj names (by simp [Uuid.length_str])
  exact ⟨Uuid.str_injective (String.toList_injective sameJob),
    Uuid.str_injective (String.toList_injective sameReport)⟩

end Keys

/-! ### The stripped prefix -/

/-- A stripped text does not start with a slash. -/
theorem head_stripSlashes (keyPrefix : String) :
    (stripSlashes keyPrefix).toList.head? ≠ some '/' := by
  unfold stripSlashes Uuid.strip
  rw [String.toList_ofList]
  intro starts
  have trimmed : ((keyPrefix.toList.dropWhile (· ∈ ['/'])).reverse.dropWhile
      (· ∈ ['/'])).reverse <+: keyPrefix.toList.dropWhile (· ∈ ['/']) := by
    have suffix := List.dropWhile_suffix (· ∈ ['/'])
      (l := (keyPrefix.toList.dropWhile (· ∈ ['/'])).reverse)
    simpa using List.reverse_prefix.mpr suffix
  obtain ⟨rest, isRest⟩ := trimmed
  have first : (keyPrefix.toList.dropWhile (· ∈ ['/'])).head? = some '/' := by
    rw [← isRest, List.head?_append, starts]
    rfl
  have kept := List.head?_dropWhile_not (· ∈ ['/']) keyPrefix.toList
  rw [first] at kept
  simp at kept

/-- A key starts as its prefix does, or with a slash if there is none. -/
theorem head_reportKey (keyPrefix : String) (jobId reportId : Uuid) :
    (reportKey (stripSlashes keyPrefix) jobId reportId).toList.head? = some '/' ↔
      stripSlashes keyPrefix = "" := by
  rw [reportKey_toList, List.head?_append]
  constructor
  · intro starts
    by_contra some
    obtain ⟨first, rest, isText⟩ := List.exists_cons_of_ne_nil
      fun empty => some (String.toList_injective empty)
    have isFirst := head_stripSlashes keyPrefix
    rw [isText] at starts isFirst
    exact isFirst (by simpa using starts)
  · intro empty
    rw [empty]
    rfl

/-! ### The promise kept -/

section Targets

variable (fileSystem : FileSystem) (root keyPrefix : String) (jobId reportId : Uuid)
  (rows : ReportRows)

/-- A report of a prefix lies two names under the directory of the prefix. -/
theorem parse_target (named : stripSlashes keyPrefix ≠ "") :
    PosixPath.parse ((LocalArtifactStore.init root keyPrefix).target
      (reportKey (stripSlashes keyPrefix) jobId reportId)) =
        (reportRoot root keyPrefix).extend [jobId.str.toList, reportName reportId] := by
  have free : (reportKey (stripSlashes keyPrefix) jobId reportId).toList.head? ≠ some '/' :=
    fun starts => named ((head_reportKey _ _ _).mp starts)
  unfold LocalArtifactStore.target reportRoot LocalArtifactStore.init
  rw [PosixPath.parse_join _ free, PosixPath.parse_join _ (head_stripSlashes keyPrefix),
    partsOf_reportKey]
  exact congrArg (PosixPath.mk _) (List.append_assoc _ _ _).symm

/-- The path of a report holds a null character exactly if the root or the prefix does. -/
theorem null_target (named : stripSlashes keyPrefix ≠ "") :
    '\x00' ∈ (LocalArtifactStore.init root keyPrefix).target
        (reportKey (stripSlashes keyPrefix) jobId reportId) ↔
      '\x00' ∈ root.toList ∨ '\x00' ∈ (stripSlashes keyPrefix).toList := by
  constructor
  · intro null
    rcases PosixPath.mem_join null with inRoot | inKey | isSlash
    · exact .inl inRoot
    · rw [reportKey_toList, List.mem_append, List.mem_cons, List.mem_append, List.mem_cons] at inKey
      rcases inKey with inPrefix | isSlash | inJob | isSlash | inReport
      · exact .inr inPrefix
      · exact absurd isSlash (by decide)
      · exact absurd inJob (not_mem_str jobId (by simp))
      · exact absurd isSlash (by decide)
      · exact absurd inReport (not_mem_reportName reportId (by simp))
    · exact absurd isSlash (by decide)
  · intro null
    have free : (reportKey (stripSlashes keyPrefix) jobId reportId).toList.head? ≠ some '/' :=
      fun starts => named ((head_reportKey _ _ _).mp starts)
    refine PosixPath.mem_join_of_mem free (null.imp_right fun inPrefix => ?_)
    rw [reportKey_toList]
    exact List.mem_append_left _ inPrefix

/-- Every report of a prefix is as long as any other. -/
theorem refuses_target (named : stripSlashes keyPrefix ≠ "") :
    fileSystem.Refuses (.parse ((LocalArtifactStore.init root keyPrefix).target
        (reportKey (stripSlashes keyPrefix) jobId reportId))) ↔
      fileSystem.refuses (reportRoot root keyPrefix).anchor
        ((reportRoot root keyPrefix).lengths ++ [36, 40]) = true := by
  have names : [jobId.str.toList, reportName reportId].map PosixPath.byteLength = [36, 40] := by
    simp [byteLength_str, byteLength_reportName]
  rw [parse_target root keyPrefix jobId reportId named, FileSystem.Refuses,
    PosixPath.lengths_extend, names]
  rfl

theorem putCsvReport_eq (named : stripSlashes keyPrefix ≠ "") :
    (LocalArtifactStore.init root keyPrefix).putCsvReport fileSystem jobId reportId rows =
      if '\x00' ∈ root.toList ∨ '\x00' ∈ (stripSlashes keyPrefix).toList then .error .valueError
      else if fileSystem.refuses (reportRoot root keyPrefix).anchor
          ((reportRoot root keyPrefix).lengths ++ [36, 40]) = true then .error (.other "OSError")
      else .ok ⟨⟨(reportRoot root keyPrefix).extend [jobId.str.toList, reportName reportId], rows⟩,
        reportKey (stripSlashes keyPrefix) jobId reportId, "text/csv"⟩ := by
  rw [← parse_target root keyPrefix jobId reportId named,
    ← if_congr (null_target root keyPrefix jobId reportId named) rfl rfl,
    ← if_congr (refuses_target fileSystem root keyPrefix jobId reportId named) rfl rfl]
  rfl

/-- A report is stored unless the prefix is unwritable. -/
theorem putCsvReport_returns (named : stripSlashes keyPrefix ≠ "")
    (stored : StoredReport ReportFile) :
    (LocalArtifactStore.init root keyPrefix).putCsvReport fileSystem jobId reportId rows =
        .ok stored ↔
      ¬ Unwritable fileSystem root keyPrefix ∧
        stored = ⟨⟨(reportRoot root keyPrefix).extend [jobId.str.toList, reportName reportId],
          rows⟩, reportKey (stripSlashes keyPrefix) jobId reportId, "text/csv"⟩ := by
  rw [putCsvReport_eq fileSystem root keyPrefix jobId reportId rows named, Unwritable]
  by_cases null : '\x00' ∈ root.toList ∨ '\x00' ∈ (stripSlashes keyPrefix).toList
  · rw [if_pos null]
    simp [← or_assoc, null]
  · rw [if_neg null, ← or_assoc, or_iff_right null]
    split
    next refused => simp [refused]
    next allowed => simp [allowed, eq_comm]

/-- Two ids of jobs that differ. -/
theorem exists_other_job (folder : List Char) : ∃ jobId : Uuid, jobId.str.toList ≠ folder := by
  by_cases first : (Uuid.ofInt 0).str.toList = folder
  · refine ⟨Uuid.ofInt 1, fun second => ?_⟩
    have same := Uuid.str_injective (String.toList_injective (first.trans second.symm))
    exact absurd same (by decide)
  · exact ⟨Uuid.ofInt 0, first⟩

end Targets

/-- A root and a prefix keep their promise about every report exactly if the prefix is more than
slashes and, with its `..` resolved, leads to the root or below it; or no file is ever written. -/
theorem keepsReports_iff (fileSystem : FileSystem) (root keyPrefix : String) :
    KeepsReports fileSystem root keyPrefix ↔ Guarded fileSystem root keyPrefix := by
  constructor
  · intro kept
    have named : stripSlashes keyPrefix ≠ "" := fun empty =>
      (kept.formed "" (Uuid.ofInt 0) (Uuid.ofInt 0) []).2 ((head_reportKey _ _ _).mpr empty)
    refine ⟨named, ?_⟩
    by_cases unwritable : Unwritable fileSystem root keyPrefix
    · exact .inl unwritable
    · right
      -- the root may be named as one job, but not as every job
      obtain ⟨jobId, other⟩ :=
        exists_other_job ((PosixPath.parse root.toList).resolve.getLast?.getD [])
      have stored := (putCsvReport_returns fileSystem root keyPrefix jobId (Uuid.ofInt 0) [] named
        _).mpr ⟨unwritable, rfl⟩
      have below := (kept.contained _ _ _ _ stored).1
      rcases PosixPath.within_of_strictlyBelow (str_long jobId (by decide))
        (reportName_long _ (by decide)) below with within | isRoot
      · exact within
      · refine absurd ?_ other
        rw [isRoot]
        simp
  · rintro ⟨named, guarded⟩
    refine ⟨?_, ?_, ?_, ?_⟩
    · intro jobId reportId rows stored returned
      obtain ⟨writable, rfl⟩ :=
        (putCsvReport_returns fileSystem root keyPrefix jobId reportId rows named _).mp returned
      have within := guarded.resolve_left writable
      refine ⟨within.strictlyBelow (by simp) ?_, ?_, rfl, ?_⟩
      · have job : jobId.str.toList ≠ PosixPath.parent := str_long jobId (by decide)
        have report : reportName reportId ≠ PosixPath.parent := reportName_long reportId (by decide)
        simp [job.symm, report.symm]
      · exact (parse_target root keyPrefix jobId reportId named).symm
      · exact fun starts => named ((head_reportKey _ _ _).mp starts)
    · intro bucketName jobId reportId rows
      exact ⟨rfl, fun starts => named ((head_reportKey _ _ _).mp starts)⟩
    · intro bucketName jobId reportId rows stored returned
      obtain ⟨_, rfl⟩ :=
        (putCsvReport_returns fileSystem root keyPrefix jobId reportId rows named _).mp returned
      rfl
    · intro bucketName jobId reportId rows otherJob otherReport otherRows same
      exact reportKey_injective _ _ _ same

/-- Where a prefix of one slash puts a report. -/
def slashTarget : List Char :=
  (LocalArtifactStore.init "/app/platform-artifacts" "/").target
    (reportKey "" (Uuid.ofInt 0) (Uuid.ofInt 1))

/-- A prefix of one slash: the report is written outside the root. -/
theorem slash_escapes : ¬ KeepsReports (.limited 255) "/app/platform-artifacts" "/" := by
  intro kept
  have stripped : stripSlashes "/" = "" := by decide +kernel
  have writable : '\x00' ∉ slashTarget := by decide +kernel
  have allowed : ¬ (FileSystem.limited 255).Refuses (.parse slashTarget) := by decide +kernel
  have stored : (LocalArtifactStore.init "/app/platform-artifacts" "/").putCsvReport (.limited 255)
      (Uuid.ofInt 0) (Uuid.ofInt 1) [] =
      .ok ⟨⟨.parse slashTarget, []⟩, reportKey "" (Uuid.ofInt 0) (Uuid.ofInt 1), "text/csv"⟩ := by
    unfold LocalArtifactStore.putCsvReport LocalArtifactStore.init
    rw [stripped]
    exact (if_neg writable).trans (if_neg allowed)
  obtain ⟨_, rest, _, isRest, _⟩ := (kept.contained _ _ _ _ stored).1
  have first : (PosixPath.parse slashTarget).resolve.head? ≠
      (PosixPath.parse "/app/platform-artifacts".toList).resolve.head? := by decide +kernel
  have some : (PosixPath.parse "/app/platform-artifacts".toList).resolve ≠ [] := by decide +kernel
  have firsts := congrArg List.head? isRest
  rw [List.head?_append_of_ne_nil _ some] at firsts
  exact first firsts

end JobPlatform.Runtime
