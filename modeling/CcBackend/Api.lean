import CcBackend.Repository
/-
  CcBackend.Api — the job handlers of `internal/api/rest.go` and `AddTag`,
  `RemoveTag`, `AddTagOrCreate` of `tags.go`, as workers that interleave.

  A handler's synchronous preamble (role gate, decoding, path parsing) is a function
  from the request to the worker's first `Pc`. From there the worker runs one
  statement per step (`Pc.run`): each store call of the source is one step, and the
  code between two calls goes with the call before it. `startJob` takes
  `RepositoryMutex` in a step of its own and holds it from `FindAll` to `Start`;
  every other worker takes no lock. The `Stop` step of a stop handler answers 200 and
  starts the archiving goroutine, a worker of its own (`archFetch`). A step that cannot
  run is `none`: `startLock` while the mutex is held, and a finished worker.
-/

namespace CcBackend

/-! ## Requests and responses -/

/-- `auth.User`; a field the request does not set is Go's zero value. -/
structure User where
  username : String
  name : String := ""
  password : String := ""
  email : String := ""
  roles : List String

def User.hasRole (u : User) (role : String) : Bool := u.roles.contains role

def roleApi : String := "api"
def roleAdmin : String := "admin"

/-- The gate of each job handler: `user != nil && !user.HasRole(auth.RoleApi)`. -/
def missingApiRole : Option User → Bool
  | some u => !u.hasRole roleApi
  | none => false

/-- `fmt.Errorf("missing role: %#v", auth.RoleApi)`. -/
def missingApiRoleMsg : String := "missing role: \"api\""

def goQuote (s : String) : String := "\"" ++ s ++ "\""

/-- What a worker wrote back. -/
inductive Resp where
  /-- `handleError`: an `ErrorResponse` with the code's status text and the message. -/
  | error (code : Nat) (msg : String)
  /-- Plain text with that status: `http.Error`, or `rw.Write` (200). -/
  | plain (code : Nat) (msg : String)
  | empty (code : Nat)
  | created (id : Int)
  | job (j : Job)
  | deleted (msg : String)
  | tags (ts : List Tag)
  /-- 200 with data a handler only reads (jobs, metrics, users, a token, a file). -/
  | data

def Resp.status : Resp → Nat
  | .error code _ | .plain code _ | .empty code => code
  | .created _ => 201
  | .job _ | .deleted _ | .tags _ | .data => 200

def decStep (n : Nat) (c : Char) : Nat := 10 * n + (c.toNat - 48)

/-- The digit loop of `strconv.ParseUint(s, 10, 64)`: the first character that is not a
    digit is a syntax error, and the first digit that takes the value past 2^64 - 1 is
    a range error. -/
def parseDigits : Nat → List Char → Except String Nat
  | n, [] => .ok n
  | n, c :: cs =>
    if !c.isDigit then .error "invalid syntax"
    else if 2 ^ 64 ≤ decStep n c then .error "value out of range"
    else parseDigits (decStep n c) cs

/-- `strconv.ParseInt(s, 10, 64)` and `strconv.Atoi(s)` (a 64-bit `int`), which differ
    only in the function name `fn` their errors give. -/
def strconvParse (fn s : String) : Except String I64 :=
  let fail (m : String) : Except String I64 :=
    .error ("strconv." ++ fn ++ ": parsing " ++ goQuote s ++ ": " ++ m)
  let (neg, ds) : Bool × List Char := match s.toList with
    | '-' :: r => (true, r)
    | '+' :: r => (false, r)
    | r => (false, r)
  if ds.isEmpty then fail "invalid syntax" else
  match parseDigits 0 ds with
  | .error m => fail m
  | .ok n =>
    let v : Int := if neg then -(n : Int) else n
    if h : -(2 ^ 64 : Int) ≤ 2 * v ∧ 2 * v < 2 ^ 64 then .ok ⟨v, h⟩ else fail "value out of range"

def parseInt (s : String) : Except String I64 := strconvParse "ParseInt" s

def atoi (s : String) : Except String I64 := strconvParse "Atoi" s

/-- What the handlers take from the deployment, not under src/. The `disable-archive`
    switch of the program's configuration is off: `ArchiveJob` writes the archive. -/
structure Cfg where
  /-- `repository.SanityChecks`: `some` message refuses the job. -/
  sanityChecks : JobMeta → Option String
  metrics : Job → Stats

/-! ## Workers -/

/-- The loop that called `AddTagOrCreate`. -/
inductive Loop where
  | start (id : Int) (rest : List Tag)
  /-- `tagJob`'s loop: the job with the tags so far, the tag being added, the rest. -/
  | tagJob (job : Job) (tag : ApiTag) (rest : List ApiTag)

/-- The caller of `AddTag` or `RemoveTag`. -/
inductive Caller where
  | orCreate (k : Loop) (tagType tagName : String)
  /-- A GraphQL tag mutation (`graph/schema.resolvers.go`, not under src/). -/
  | resolver

/-- Where a worker is. -/
inductive Pc where
  | startLock (req : JobMeta)
  | startFindAll (req : JobMeta)
  | startInsert (req : JobMeta)
  | startTags (id : Int) (rest : List Tag)
  | tagIdLookup (k : Loop) (job : Int) (tagType tagName : String)
  | createTag (k : Loop) (job : Int) (tagType tagName : String)
  | addTagInsert (c : Caller) (job tag : Int)
  | removeTagDelete (c : Caller) (job tag : Int)
  | tagFindById (c : Caller) (job tag : Int)
  | tagGetTags (c : Caller) (job tag : Int) (j : Job)
  | tagUpdate (c : Caller) (job tag : Int) (j : Job) (tags : List Tag)
  | stopFindById (id : I64) (req : StopJobApiRequest)
  | stopFind (jobId : I64) (req : StopJobApiRequest)
  | stopUpdate (job : Job) (req : StopJobApiRequest)
  | archFetch (job : Job)
  | archArchive (job : Job)
  | archFailed (job : Job)
  | archFinal (job : Job) (stats : Stats)
  | tagJobFind (id : I64) (body : Except String (List ApiTag))
  | tagJobGetTags (job : Job) (body : Except String (List ApiTag))
  | tagJobLoop (job : Job) (rest : List ApiTag)
  | deleteById (id : I64) (idText : String)
  | deleteFind (jobId : I64) (req : DeleteJobApiRequest)
  | deleteRow (job : Job)
  | deleteBefore (ts : I64)
  | done (r : Resp)
  | exited

def Pc.status : Pc → Option Nat
  | .done r => some r.status
  | _ => none

def Pc.idle : Pc → Bool
  | .done _ | .exited => true
  | _ => false

def Loop.next : Loop → Int → Pc
  | .start id rest, _ => .startTags id rest
  | .tagJob job t rest, tagId => .tagJobLoop { job with tags := job.tags ++ [⟨tagId, t.type, t.name⟩] } rest

/-- `AddTagOrCreate` returned an error to its loop; `startJob` answers it with
    `http.Error` before its `handleError`, which writes the same code. -/
def Loop.fail : Loop → DbErr → Pc
  | .start _ _, e => .done (.plain 500 e.text)
  | .tagJob _ _ _, e => .done (.plain 500 e.text)

def Caller.ret : Caller → Int → List Tag → Pc
  | .orCreate k _ _, tag, _ => k.next tag
  | .resolver, _, tags => .done (.tags tags)

def Caller.fail : Caller → DbErr → Pc
  | .orCreate k _ _, e => k.fail e
  | .resolver, e => .done (.plain 500 e.text)

/-- `checkAndHandleStopJob` up to the `Stop` update: its sanity checks, and the
    default final state. -/
def checkAndHandleStopJob (job : Job) (req : StopJobApiRequest) : Pc :=
  if req.stopTime.val ≤ job.startTime.val ∨ job.state ≠ .running then
    .done (.error 400 "stopTime must be larger than startTime and only running jobs can be stopped")
  else if req.state ≠ .other "" ∧ req.state.valid = false then
    .done (.error 400 ("invalid job state: " ++ goQuote req.state.str))
  else if req.state = .other "" then .stopUpdate job { req with state := .completed }
  else .stopUpdate job req

/-- The job record `checkAndHandleStopJob` marks as stopped:
    `job.Duration = int32(req.StopTime - job.StartTime.Unix()); job.State = req.State`. -/
def stoppedJob (job : Job) (req : StopJobApiRequest) : Job :=
  { job with duration := (req.stopTime - job.startTime).cast 32, state := req.state }

@[simp] theorem stoppedJob_id (job : Job) (req : StopJobApiRequest) : (stoppedJob job req).id = job.id := rfl
@[simp] theorem stoppedJob_state (job : Job) (req : StopJobApiRequest) :
    (stoppedJob job req).state = req.state := rfl
@[simp] theorem stoppedJob_monitoringStatus (job : Job) (req : StopJobApiRequest) :
    (stoppedJob job req).monitoringStatus = job.monitoringStatus := rfl
@[simp] theorem stoppedJob_startTime (job : Job) (req : StopJobApiRequest) :
    (stoppedJob job req).startTime = job.startTime := rfl

/-- A write whose error the goroutine only logs. -/
def St.unlessFault (s : St) (f : Fault) (s' : St) : St := if f.isSome then s else s'

/-- One step of a worker at `p` on the shared state, with the statement's fault `f`:
    the new state, where the worker is then, and the goroutines it started. -/
def Pc.run (c : Cfg) (s : St) (f : Fault) : Pc → Option (St × Pc × List Pc)
  /- startJob -/
  | .startLock req => if s.mutex then none else some ({ s with mutex := true }, .startFindAll req, [])
  | .startFindAll req =>
    match fallible f (.ok (s.findAll req.jobId req.cluster)) with
    | .error .noRows => some (s, .startInsert req, [])
    | .error e => some ({ s with mutex := false },
        .done (.error 500 ("checking for duplicate failed: " ++ e.text)), [])
    | .ok jobs =>
      match jobs.find? fun j => (req.startTime - j.startTime).val < 86400 with
      | some j => some ({ s with mutex := false }, .done (.error 422
          ("a job with that jobId, cluster and startTime already exists: dbid: " ++ toString j.id)), [])
      | none => some (s, .startInsert req, [])
  | .startInsert req =>
    match fallible f (.ok (s.start req)) with
    | .error e => some ({ s with mutex := false },
        .done (.error 500 ("insert into database failed: " ++ e.text)), [])
    | .ok (id, s') => some ({ s' with mutex := false }, .startTags id req.tags, [])
  | .startTags id tags =>
    match tags with
    | [] => some (s, .done (.created id), [])
    | t :: rest => some (s, .tagIdLookup (.start id rest) id t.type t.name, [])
  /- AddTagOrCreate, AddTag, RemoveTag -/
  | .tagIdLookup k job ty nm =>
    match (if f.isSome then none else s.tagId ty nm) with
    | some id => some (s, .addTagInsert (.orCreate k ty nm) job id, [])
    | none => some (s, .createTag k job ty nm, [])
  | .createTag k job ty nm =>
    match fallible f (s.createTag ty nm) with
    | .error e => some (s, k.fail e, [])
    | .ok (id, s') => some (s', .addTagInsert (.orCreate k ty nm) job id, [])
  | .addTagInsert cl job tag =>
    match fallible f (s.insertJobTag job tag) with
    | .error e => some (s, cl.fail e, [])
    | .ok s' => some (s', .tagFindById cl job tag, [])
  | .removeTagDelete cl job tag =>
    match fallible f (.ok (s.deleteJobTag job tag)) with
    | .error e => some (s, cl.fail e, [])
    | .ok s' => some (s', .tagFindById cl job tag, [])
  | .tagFindById cl job tag =>
    match fallible f (s.findById job) with
    | .error e => some (s, cl.fail e, [])
    | .ok j => some (s, .tagGetTags cl job tag j, [])
  | .tagGetTags cl job tag j =>
    match fallible f (.ok (s.getTags (some job))) with
    | .error e => some (s, cl.fail e, [])
    | .ok tags => some (s, .tagUpdate cl job tag j tags, [])
  | .tagUpdate cl _ tag j tags =>
    match fallible f (s.updateTags j tags) with
    | .error e => some (s, cl.fail e, [])
    | .ok s' => some (s', cl.ret tag tags, [])
  /- stopJobById, stopJobByRequest, checkAndHandleStopJob -/
  | .stopFindById id req =>
    match fallible f (s.findById id.val) with
    | .error e => some (s, .done (.error 422 ("finding job failed: " ++ e.text)), [])
    | .ok job => some (s, checkAndHandleStopJob job req, [])
  | .stopFind jobId req =>
    match fallible f (s.find jobId req.cluster req.startTime) with
    | .error e => some (s, .done (.error 422 ("finding job failed: " ++ e.text)), [])
    | .ok job => some (s, checkAndHandleStopJob job req, [])
  | .stopUpdate job req =>
    let job := stoppedJob job req
    match fallible f (.ok (s.stop job.id job.duration job.state job.monitoringStatus)) with
    | .error e => some (s, .done (.error 500 ("marking job as stopped failed: " ++ e.text)), [])
    | .ok s' => some (s', .done (.job job),
        if job.monitoringStatus = .disabled then [] else [.archFetch job])
  /- the archiving goroutine -/
  | .archFetch job =>
    match fallible f (s.fetchMetadata job) with
    | .error _ => some (s, .archFailed job, [])
    | .ok job => some (s, .archArchive job, [])
  | .archArchive job =>
    match fallible f (.ok (s.archiveJob job (c.metrics job))) with
    | .error _ => some (s, .archFailed job, [])
    | .ok (stats, s') => some (s', .archFinal job stats, [])
  | .archFailed job => some (s.unlessFault f (s.updateMonitoringStatus job.id .archivingFailed), .exited, [])
  | .archFinal job stats =>
    some (s.unlessFault f (s.archiveRow job.id .archivingSuccessful stats), .exited, [])
  /- tagJob -/
  | .tagJobFind id body =>
    match fallible f (s.findById id.val) with
    | .error e => some (s, .done (.plain 404 e.text), [])
    | .ok job => some (s, .tagJobGetTags job body, [])
  | .tagJobGetTags job body =>
    match fallible f (.ok (s.getTags (some job.id))) with
    | .error e => some (s, .done (.plain 500 e.text), [])
    | .ok tags =>
      match body with
      | .error e => some (s, .done (.plain 400 e), [])
      | .ok req => some (s, .tagJobLoop { job with tags } req, [])
  | .tagJobLoop job tags =>
    match tags with
    | [] => some (s, .done (.job job), [])
    | t :: rest => some (s, .tagIdLookup (.tagJob job t rest) job.id t.type t.name, [])
  /- deleteJobById, deleteJobByRequest, deleteJobBefore -/
  | .deleteById id idText =>
    match fallible f (s.deleteJobById id.val) with
    | .error e => some (s, .done (.error 422 ("deleting job failed: " ++ e.text)), [])
    | .ok s' => some (s', .done (.deleted ("Successfully deleted job " ++ idText)), [])
  | .deleteFind jobId req =>
    match fallible f (s.find jobId req.cluster req.startTime) with
    | .error e => some (s, .done (.error 422 ("finding job failed: " ++ e.text)), [])
    | .ok job => some (s, .deleteRow job, [])
  | .deleteRow job =>
    match fallible f (s.deleteJobById job.id) with
    | .error e => some (s, .done (.error 422 ("deleting job failed: " ++ e.text)), [])
    | .ok s' => some (s', .done (.deleted ("Successfully deleted job " ++ toString job.id)), [])
  | .deleteBefore ts =>
    match fallible f (.ok (s.deleteJobsBefore ts)) with
    | .error e => some (s, .done (.error 422 ("deleting jobs failed: " ++ e.text)), [])
    | .ok (cnt, s') => some (s', .done (.deleted ("Successfully deleted " ++ toString cnt ++ " jobs")), [])
  | .done _ => none
  | .exited => none

/-! ## Handlers: from a request to its worker -/

/-- `startJob` up to taking the mutex: gate, decoding, default state, sanity checks. -/
def startJob (c : Cfg) (user : Option User) (body : Except String JobMeta) : Pc :=
  if missingApiRole user then .done (.error 403 missingApiRoleMsg) else
  match body with
  | .error e => .done (.error 400 ("parsing request body failed: " ++ e))
  | .ok req =>
    let req := if req.state = .other "" then { req with state := .running } else req
    match c.sanityChecks req with
    | some e => .done (.error 400 e)
    | none => .startLock req

def stopJobById (user : Option User) (id : String) (body : Except String StopJobApiRequest) : Pc :=
  if missingApiRole user then .done (.error 403 missingApiRoleMsg) else
  match body with
  | .error e => .done (.error 400 ("parsing request body failed: " ++ e))
  | .ok req =>
    match parseInt id with
    | .error e => .done (.error 400 ("integer expected in path for id: " ++ e))
    | .ok id => .stopFindById id req

def stopJobByRequest (user : Option User) (body : Except String StopJobApiRequest) : Pc :=
  if missingApiRole user then .done (.error 403 missingApiRoleMsg) else
  match body with
  | .error e => .done (.error 400 ("parsing request body failed: " ++ e))
  | .ok req =>
    match req.jobId with
    | none => .done (.error 400 "the field \x27jobId\x27 is required")
    | some jobId => .stopFind jobId req

def tagJob (user : Option User) (id : String) (body : Except String (List ApiTag)) : Pc :=
  if missingApiRole user then .done (.error 403 missingApiRoleMsg) else
  match parseInt id with
  | .error e => .done (.plain 400 e)
  | .ok iid => .tagJobFind iid body

def deleteJobById (user : Option User) (id : String) : Pc :=
  if missingApiRole user then .done (.error 403 missingApiRoleMsg) else
  match parseInt id with
  | .error e => .done (.error 400 ("integer expected in path for id: " ++ e))
  | .ok iid => .deleteById iid id

def deleteJobByRequest (user : Option User) (body : Except String DeleteJobApiRequest) : Pc :=
  if missingApiRole user then .done (.error 403 missingApiRoleMsg) else
  match body with
  | .error e => .done (.error 400 ("parsing request body failed: " ++ e))
  | .ok req =>
    match req.jobId with
    | none => .done (.error 400 "the field \x27jobId\x27 is required")
    | some jobId => .deleteFind jobId req

def deleteJobBefore (user : Option User) (ts : String) : Pc :=
  if missingApiRole user then .done (.error 403 missingApiRoleMsg) else
  match parseInt ts with
  | .error e => .done (.error 400 ("integer expected in path for ts: " ++ e))
  | .ok ts => .deleteBefore ts

/-- A request to one of the job routes, with its user, path variables and decoded
    body (a decoding error as its message); and a GraphQL tag mutation. -/
inductive Request where
  | startJob (user : Option User) (body : Except String JobMeta)
  | stopJobById (user : Option User) (id : String) (body : Except String StopJobApiRequest)
  | stopJobByRequest (user : Option User) (body : Except String StopJobApiRequest)
  | tagJob (user : Option User) (id : String) (body : Except String (List ApiTag))
  | deleteJobById (user : Option User) (id : String)
  | deleteJobByRequest (user : Option User) (body : Except String DeleteJobApiRequest)
  | deleteJobBefore (user : Option User) (ts : String)
  | addTag (job tag : Int)
  | removeTag (job tag : Int)

def Request.pc (c : Cfg) : Request → Pc
  | .startJob u b => CcBackend.startJob c u b
  | .stopJobById u id b => CcBackend.stopJobById u id b
  | .stopJobByRequest u b => CcBackend.stopJobByRequest u b
  | .tagJob u id b => CcBackend.tagJob u id b
  | .deleteJobById u id => CcBackend.deleteJobById u id
  | .deleteJobByRequest u b => CcBackend.deleteJobByRequest u b
  | .deleteJobBefore u ts => CcBackend.deleteJobBefore u ts
  | .addTag job tag => .addTagInsert .resolver job tag
  | .removeTag job tag => .removeTagDelete .resolver job tag

end CcBackend
