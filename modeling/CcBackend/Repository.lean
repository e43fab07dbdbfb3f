import CcBackend.Schema
/-
  CcBackend.Repository — the statements the handlers run against the job database
  (`internal/repository`) and the job archive (`pkg/archive`, `metricdata.ArchiveJob`).

  Each statement is atomic: the database is shared by every worker, and a statement
  takes effect at one instant. Reads return rows; writes return the new state. Those
  of `tags.go` (`TagId`, `CreateTag`, the `jobtag` statements of `AddTag`/`RemoveTag`,
  `GetTags`, `CountTags`) follow its SQL. The other repository methods and the archive
  are not under src/ and follow the spec: a job row is found by its id, by its natural
  key or by a partial key; the `tag` table is unique per `(tag_type, tag_name)` and
  `jobtag` per `(job_id, tag_id)`, so a duplicate insert is refused; a deletion removes
  the job row only. A statement may also fail on its own (`Fault`): it then changes
  nothing and returns the fault's message.
-/

namespace CcBackend

/-- A database error: `sql.ErrNoRows`, or any other with its message. -/
inductive DbErr where
  | noRows
  | msg (s : String)
  deriving DecidableEq, Repr

def DbErr.text : DbErr → String
  | .noRows => "sql: no rows in result set"
  | .msg s => s

/-- An injected failure of one statement (`some` message), or none. -/
abbrev Fault := Option String

/-- A statement's own result unless the statement failed. -/
def fallible {α : Type} (f : Fault) (r : Except DbErr α) : Except DbErr α :=
  match f with
  | some e => .error (.msg e)
  | none => r

@[simp] theorem fallible_none {α : Type} (r : Except DbErr α) : fallible none r = r := rfl
@[simp] theorem fallible_some {α : Type} (e : String) (r : Except DbErr α) :
    fallible (some e) r = .error (.msg e) := rfl

/-- The archived `meta.json` of a job: the job record written and its statistics. -/
structure ArchiveMeta where
  job : Job
  statistics : Stats

def upd {β : Type} (f : Int → β) (k : Int) (b : β) : Int → β := fun x => if x = k then b else f x

@[simp] theorem upd_same {β : Type} (f : Int → β) (k : Int) (b : β) : upd f k b k = b := by simp [upd]
theorem upd_ne {β : Type} (f : Int → β) {k x : Int} (b : β) (h : x ≠ k) : upd f k b x = f x := by
  simp [upd, h]

/-- The shared state of the workers: the `job`, `tag` and `jobtag` tables with their
    next auto-increment ids, the file archive (by job id), and `RestApi.RepositoryMutex`. -/
structure St where
  jobs : List JobRow
  nextId : Int
  tags : List Tag
  nextTagId : Int
  jobtag : List (Int × Int)
  archive : Int → Option ArchiveMeta
  mutex : Bool

def St.init : St := ⟨[], 1, [], 1, [], fun _ => none, false⟩

/-- A row as the `Job` value a query returns: no tags loaded. -/
def JobRow.toJob (r : JobRow) : Job := { toJobRow := r, tags := [] }

@[simp] theorem JobRow.toJob_toJobRow (r : JobRow) : r.toJob.toJobRow = r := rfl
@[simp] theorem JobRow.toJob_tags (r : JobRow) : r.toJob.tags = [] := rfl

/-! ## Job rows -/

/-- Modelled from the spec: `JobRepository.FindById` (not under src/) — the row with
    that id; `sql.ErrNoRows` when there is none. -/
def St.findById (s : St) (id : Int) : Except DbErr Job :=
  match s.jobs.find? (·.id == id) with
  | some r => .ok r.toJob
  | none => .error .noRows

/-- Modelled from the spec: `JobRepository.FindAll(&jobId, &cluster, nil)` (not under
    src/) — every row with that job id and cluster. -/
def St.findAll (s : St) (jobId : I64) (cluster : String) : List Job :=
  (s.jobs.filter fun r => r.jobId == jobId && r.cluster == cluster).map JobRow.toJob

/-- Whether a row matches a lookup by job id and, where given, cluster and start time. -/
def JobRow.matches (r : JobRow) (jobId : I64) (cluster : Option String) (startTime : Option I64) : Bool :=
  r.jobId == jobId && cluster.all (r.cluster == ·) && startTime.all (r.startTime == ·)

/-- `JobRepository.Find(jobId, cluster, startTime)`, which is not under src/ and which
    the spec does not describe, modelled from its call sites (`stopJobByRequest` and
    `deleteJobByRequest` pass the cluster and start time only when given) and from
    `QueryRow`: the first row matching the job id and the fields that are given;
    `sql.ErrNoRows` when none does. -/
def St.find (s : St) (jobId : I64) (cluster : Option String) (startTime : Option I64) :
    Except DbErr Job :=
  match s.jobs.find? (·.matches jobId cluster startTime) with
  | some r => .ok r.toJob
  | none => .error .noRows

/-- The row `Start` inserts for a start request, with database id `id`. -/
def JobMeta.toRow (j : JobMeta) (id : Int) : JobRow :=
  { id, jobId := j.jobId, user := j.user, project := j.project, cluster := j.cluster,
    partition := j.partition, numNodes := j.numNodes, numHWThreads := j.numHWThreads,
    numAcc := j.numAcc, startTime := j.startTime, duration := j.duration, walltime := j.walltime,
    state := j.state, monitoringStatus := j.monitoringStatus, metaData := j.metaData,
    statistics := none }

/-- Modelled from the spec: `JobRepository.Start` (not under src/) — inserts the
    request's job with the next database id and returns it. -/
def St.start (s : St) (j : JobMeta) : Int × St :=
  (s.nextId, { s with jobs := s.jobs ++ [j.toRow s.nextId], nextId := s.nextId + 1 })

/-- One row changed, the others as they were (`UPDATE job SET ... WHERE job.id = ?`). -/
def St.update (s : St) (id : Int) (f : JobRow → JobRow) : St :=
  { s with jobs := s.jobs.map fun r => if r.id = id then f r else r }

/-- Modelled from the spec: `JobRepository.Stop` (not under src/) — persists duration,
    state and monitoring status of the row with that id. -/
def St.stop (s : St) (id : Int) (duration : I32) (state : JobState) (ms : MonitoringStatus) : St :=
  s.update id fun r => { r with duration, state, monitoringStatus := ms }

/-- Modelled from the spec: `JobRepository.UpdateMonitoringStatus` (not under src/). -/
def St.updateMonitoringStatus (s : St) (id : Int) (ms : MonitoringStatus) : St :=
  s.update id fun r => { r with monitoringStatus := ms }

/-- Modelled from the spec: `JobRepository.Archive` (not under src/) — the final update
    of an archived job: its monitoring status and statistics. -/
def St.archiveRow (s : St) (id : Int) (ms : MonitoringStatus) (stats : Stats) : St :=
  s.update id fun r => { r with monitoringStatus := ms, statistics := some stats }

/-- Modelled from the spec: `JobRepository.DeleteJobById` (not under src/) — removes
    the row; not-found is an error. -/
def St.deleteJobById (s : St) (id : Int) : Except DbErr St :=
  if s.jobs.any (·.id == id) then .ok { s with jobs := s.jobs.filter (·.id != id) }
  else .error .noRows

/-- Modelled from the spec: `JobRepository.DeleteJobsBefore` (not under src/) — removes
    the rows that started before `ts` and returns how many. -/
def St.deleteJobsBefore (s : St) (ts : I64) : Nat × St :=
  ((s.jobs.filter (·.startTime.val < ts.val)).length,
   { s with jobs := s.jobs.filter fun r => !(r.startTime.val < ts.val) })

/-- Modelled from the spec: `JobRepository.FetchMetadata` (not under src/) — reads the
    row's `meta_data` into the job. -/
def St.fetchMetadata (s : St) (j : Job) : Except DbErr Job :=
  match s.jobs.find? (·.id == j.id) with
  | some r => .ok { j with metaData := r.metaData }
  | none => .error .noRows

/-! ## Tags (`tags.go`) -/

/-- `TagId`: the id of the tag with that type and name (`QueryRow`); any error is
    "absent". -/
def St.tagId (s : St) (tagType tagName : String) : Option Int :=
  (s.tags.find? fun t => t.type == tagType && t.name == tagName).map (·.id)

/-- `CreateTag`: `INSERT INTO tag (tag_type, tag_name)`, returning `LastInsertId`; the
    table's `UNIQUE (tag_type, tag_name)` refuses a second tag of one type and name. -/
def St.createTag (s : St) (tagType tagName : String) : Except DbErr (Int × St) :=
  if s.tags.any (fun t => t.type == tagType && t.name == tagName) then
    .error (.msg "UNIQUE constraint failed: tag.tag_type, tag.tag_name")
  else
    .ok (s.nextTagId, { s with tags := s.tags ++ [⟨s.nextTagId, tagType, tagName⟩],
                               nextTagId := s.nextTagId + 1 })

/-- `AddTag`'s `INSERT INTO jobtag (job_id, tag_id)`; its primary key refuses a pair
    that is there. -/
def St.insertJobTag (s : St) (job tag : Int) : Except DbErr St :=
  if (job, tag) ∈ s.jobtag then .error (.msg "UNIQUE constraint failed: jobtag.job_id, jobtag.tag_id")
  else .ok { s with jobtag := s.jobtag ++ [(job, tag)] }

/-- `RemoveTag`'s `DELETE FROM jobtag WHERE job_id = $1 AND tag_id = $2`. -/
def St.deleteJobTag (s : St) (job tag : Int) : St :=
  { s with jobtag := s.jobtag.filter (· != (job, tag)) }

/-- `GetTags(&job)`: the tags joined to the job through `jobtag`; `GetTags(nil)`: all. -/
def St.getTags (s : St) (job : Option Int) : List Tag :=
  match job with
  | some j => s.tags.filter fun t => (j, t.id) ∈ s.jobtag
  | none => s.tags

/-- A Go `map[string]int` built by assigning its entries in order; a missing key reads 0. -/
def mapGet (m : List (String × Nat)) (k : String) : Nat :=
  ((m.reverse.find? (·.1 == k)).map (·.2)).getD 0

/-- The rows of `tag t LEFT JOIN jobtag jt ON t.id = jt.tag_id` for one tag: one per
    `jobtag` row of the tag, or one with NULL when it has none. -/
def St.leftJoinRows (s : St) (t : Tag) : List (Tag × Option (Int × Int)) :=
  match s.jobtag.filter (·.2 == t.id) with
  | [] => [(t, none)]
  | jts => jts.map fun jt => (t, some jt)

/-- `WHERE jt.job_id IN (SELECT id FROM job WHERE job.user = ?)`: `NULL IN (...)` is
    not true. -/
def St.inUserJobs (s : St) (u : String) (x : Tag × Option (Int × Int)) : Bool :=
  match x.2 with
  | some (j, _) => s.jobs.any fun r => r.id == j && r.user == u
  | none => false

/-- `CountTags(user)`: every tag, and the rows of
    `SELECT t.tag_name, count(jt.tag_id) FROM tag t LEFT JOIN jobtag jt ON t.id = jt.tag_id
    [WHERE ...] GROUP BY t.tag_name` assigned into `counts` by tag name; `count(jt.tag_id)`
    skips NULLs. -/
def St.countTags (s : St) (user : Option String) : List Tag × List (String × Nat) :=
  let joined := s.tags.flatMap s.leftJoinRows
  let kept := match user with
    | none => joined
    | some u => joined.filter (s.inUserJobs u)
  let names := (kept.map (·.1.name)).eraseDups
  (s.tags, names.map fun n => (n, (kept.filter fun x => x.1.name == n && x.2.isSome).length))

/-! ## The job archive -/

/-- Modelled from the spec: `metricdata.ArchiveJob` (not under src/) — writes the job's
    archive, whose meta data is the job record it was given (its tags included), with
    the statistics the metric backend yields, and returns them. The deployment's
    `disable-archive` switch, which keeps the data out of the job-archive, is off. -/
def St.archiveJob (s : St) (j : Job) (stats : Stats) : Stats × St :=
  (stats, { s with archive := upd s.archive j.id (some ⟨j, stats⟩) })

/-- The tag records `UpdateTags` writes: type and name, no id. -/
def archiveTags (tags : List Tag) : List Tag := tags.map fun t => ⟨0, t.type, t.name⟩

/-- Modelled from the spec: `archive.UpdateTags(job, tags)` (not under src/) — when the
    job's monitoring status says it is archived, its archive's tags become `tags`; an
    archived job with no archive is an error; otherwise nothing. -/
def St.updateTags (s : St) (j : Job) (tags : List Tag) : Except DbErr St :=
  if j.monitoringStatus = .archivingSuccessful then
    match s.archive j.id with
    | some m =>
      let m' : ArchiveMeta := { m with job := { m.job with tags := archiveTags tags } }
      .ok { s with archive := upd s.archive j.id (some m') }
    | none => .error (.msg "open meta.json: no such file or directory")
  else .ok s

/-! ## What each statement returns -/

theorem fallible_eq_ok {α : Type} {f : Fault} {r : Except DbErr α} {v : α} :
    fallible f r = .ok v ↔ f = none ∧ r = .ok v := by
  cases f <;> simp [fallible]

theorem fallible_ne_noRows {α : Type} {f : Fault} {v : α} : fallible f (.ok v) ≠ .error .noRows := by
  cases f <;> simp [fallible]

theorem St.findById_ok {s : St} {id : Int} {j : Job} (h : s.findById id = .ok j) :
    ∃ r ∈ s.jobs, r.id = id ∧ j = r.toJob := by
  unfold St.findById at h
  split at h
  · rename_i r hr
    cases h
    exact ⟨r, List.mem_of_find?_eq_some hr, by simpa using List.find?_some hr, rfl⟩
  · cases h

theorem St.find_ok {s : St} {jobId : I64} {cl : Option String} {st : Option I64} {j : Job}
    (h : s.find jobId cl st = .ok j) : ∃ r ∈ s.jobs, r.matches jobId cl st ∧ j = r.toJob := by
  unfold St.find at h
  split at h
  · rename_i r hr
    cases h
    exact ⟨r, List.mem_of_find?_eq_some hr, by simpa using List.find?_some hr, rfl⟩
  · cases h

theorem St.fetchMetadata_ok {s : St} {j j' : Job} (h : s.fetchMetadata j = .ok j') :
    ∃ md, j' = { j with metaData := md } := by
  unfold St.fetchMetadata at h
  split at h
  · cases h; exact ⟨_, rfl⟩
  · cases h

theorem St.tagId_some {s : St} {ty nm : String} {id : Int} (h : s.tagId ty nm = some id) :
    ∃ t ∈ s.tags, t.id = id ∧ t.type = ty ∧ t.name = nm := by
  obtain ⟨t, ht, rfl⟩ := Option.map_eq_some'.mp h
  have := List.find?_some ht
  simp only [Bool.and_eq_true, beq_iff_eq] at this
  exact ⟨t, List.mem_of_find?_eq_some ht, rfl, this⟩

theorem St.createTag_ok {s s' : St} {ty nm : String} {id : Int} (h : s.createTag ty nm = .ok (id, s')) :
    id = s.nextTagId ∧ s' = { s with tags := s.tags ++ [⟨s.nextTagId, ty, nm⟩], nextTagId := s.nextTagId + 1 } ∧
      ∀ t ∈ s.tags, ¬(t.type = ty ∧ t.name = nm) := by
  unfold St.createTag at h
  split at h
  · cases h
  · rename_i hn
    cases h
    refine ⟨rfl, rfl, fun t ht ⟨h1, h2⟩ => hn ?_⟩
    exact List.any_eq_true.mpr ⟨t, ht, by simp [h1, h2]⟩

theorem St.insertJobTag_ok {s s' : St} {j t : Int} (h : s.insertJobTag j t = .ok s') :
    (j, t) ∉ s.jobtag ∧ s' = { s with jobtag := s.jobtag ++ [(j, t)] } := by
  unfold St.insertJobTag at h
  split at h
  · cases h
  · cases h; exact ⟨‹_›, rfl⟩

theorem St.updateTags_ok {s s' : St} {j : Job} {tags : List Tag} (h : s.updateTags j tags = .ok s') :
    s' = s ∨ ∃ m, s.archive j.id = some m ∧
      s' = { s with archive := upd s.archive j.id (some { m with job := { m.job with tags := archiveTags tags } }) } := by
  unfold St.updateTags at h
  split at h
  · split at h
    · cases h; exact .inr ⟨_, ‹_›, rfl⟩
    · cases h
  · cases h; exact .inl rfl

theorem St.deleteJobById_ok {s s' : St} {id : Int} (h : s.deleteJobById id = .ok s') :
    s' = { s with jobs := s.jobs.filter (·.id != id) } := by
  unfold St.deleteJobById at h
  split at h
  · cases h; rfl
  · cases h

/-! ## Frames -/

@[simp] theorem St.start_fst (s : St) (j : JobMeta) : (s.start j).1 = s.nextId := rfl
@[simp] theorem St.start_jobs (s : St) (j : JobMeta) : (s.start j).2.jobs = s.jobs ++ [j.toRow s.nextId] := rfl
@[simp] theorem St.start_nextId (s : St) (j : JobMeta) : (s.start j).2.nextId = s.nextId + 1 := rfl
@[simp] theorem St.start_tags (s : St) (j : JobMeta) : (s.start j).2.tags = s.tags := rfl
@[simp] theorem St.start_jobtag (s : St) (j : JobMeta) : (s.start j).2.jobtag = s.jobtag := rfl
@[simp] theorem St.start_archive (s : St) (j : JobMeta) : (s.start j).2.archive = s.archive := rfl
@[simp] theorem St.start_mutex (s : St) (j : JobMeta) : (s.start j).2.mutex = s.mutex := rfl

@[simp] theorem St.update_jobs (s : St) (id : Int) (f : JobRow → JobRow) :
    (s.update id f).jobs = s.jobs.map fun r => if r.id = id then f r else r := rfl
@[simp] theorem St.update_nextId (s : St) (id : Int) (f : JobRow → JobRow) : (s.update id f).nextId = s.nextId := rfl
@[simp] theorem St.update_tags (s : St) (id : Int) (f : JobRow → JobRow) : (s.update id f).tags = s.tags := rfl
@[simp] theorem St.update_jobtag (s : St) (id : Int) (f : JobRow → JobRow) : (s.update id f).jobtag = s.jobtag := rfl
@[simp] theorem St.update_archive (s : St) (id : Int) (f : JobRow → JobRow) : (s.update id f).archive = s.archive := rfl
@[simp] theorem St.update_mutex (s : St) (id : Int) (f : JobRow → JobRow) : (s.update id f).mutex = s.mutex := rfl

@[simp] theorem St.deleteJobTag_jobs (s : St) (j t : Int) : (s.deleteJobTag j t).jobs = s.jobs := rfl
@[simp] theorem St.deleteJobTag_tags (s : St) (j t : Int) : (s.deleteJobTag j t).tags = s.tags := rfl
@[simp] theorem St.deleteJobTag_archive (s : St) (j t : Int) : (s.deleteJobTag j t).archive = s.archive := rfl
@[simp] theorem St.deleteJobTag_mutex (s : St) (j t : Int) : (s.deleteJobTag j t).mutex = s.mutex := rfl
@[simp] theorem St.deleteJobTag_nextId (s : St) (j t : Int) : (s.deleteJobTag j t).nextId = s.nextId := rfl

@[simp] theorem St.archiveJob_fst (s : St) (j : Job) (st : Stats) : (s.archiveJob j st).1 = st := rfl
@[simp] theorem St.archiveJob_jobs (s : St) (j : Job) (st : Stats) : (s.archiveJob j st).2.jobs = s.jobs := rfl
@[simp] theorem St.archiveJob_nextId (s : St) (j : Job) (st : Stats) : (s.archiveJob j st).2.nextId = s.nextId := rfl
@[simp] theorem St.archiveJob_tags (s : St) (j : Job) (st : Stats) : (s.archiveJob j st).2.tags = s.tags := rfl
@[simp] theorem St.archiveJob_jobtag (s : St) (j : Job) (st : Stats) : (s.archiveJob j st).2.jobtag = s.jobtag := rfl
@[simp] theorem St.archiveJob_mutex (s : St) (j : Job) (st : Stats) : (s.archiveJob j st).2.mutex = s.mutex := rfl
@[simp] theorem St.archiveJob_archive (s : St) (j : Job) (st : Stats) :
    (s.archiveJob j st).2.archive = upd s.archive j.id (some ⟨j, st⟩) := rfl

end CcBackend
