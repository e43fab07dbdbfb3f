import CcBackend.System
import CcBackend.Query
/-
  CcBackend.Routes — the routes of the REST API (`MountRoutes` of
  `internal/api/rest.go`) and the handlers behind the routes outside the job API:
  users (`getJWT`, `createUser`, `getUsers`, `deleteUser`, `updateUser`), the user's
  configuration (`updateConfiguration`) and machine state (`getMachineState`,
  `putMachineState`).

  A request reaches its handler with the user of its context, its path variables, its
  form values, its body and its query (`getJobs`, `CcBackend.Query`). A job handler goes
  on as a worker of the job API (`Pc`); every other handler answers at once. The user
  store, the JWT provider, `decode`, `UpdateConfig` and the file system are not under
  src/: the user store's operations and the decoders are parameters of the deployment,
  and `UpdateConfig` and each file system call of `putMachineState` may fail
  (`CallFault`).

  Proved (`routes_without_role_keep_state`): for every route but `putMachineState`, a
  request of a user with neither the API role nor the admin role leaves the job
  database, the users, the defaults, the machine-state files and every other user's
  configuration as they were; a job handler answers 403 (`missing role: "api"`) before
  its first step.
  Traces: `putMachineState` checks no role, and such a user writes a machine-state
  file (`putMachineState_without_role`).
-/

namespace CcBackend

/-! ## Routes -/

/-- The handlers `MountRoutes` registers. -/
inductive Handler where
  | startJob | stopJobByRequest | stopJobById | getJobs | tagJob | getJobMetrics
  | deleteJobByRequest | deleteJobById | deleteJobBefore
  | getJWT | createUser | getUsers | deleteUser | updateUser | updateConfiguration
  | getMachineState | putMachineState
  deriving DecidableEq, Repr

/-- A route: its path, its methods and its handler. -/
structure Route where
  path : String
  methods : List String
  handler : Handler
  deriving DecidableEq, Repr

/-- `decode` (not under src/) for each body a job handler reads. -/
structure Decoders where
  start : String → Except String JobMeta
  stop : String → Except String StopJobApiRequest
  delete : String → Except String DeleteJobApiRequest
  tags : String → Except String (List ApiTag)

/-- The user store and the JWT provider of `auth.Authentication` (not under src/): each
    operation gives its result or an error. -/
structure AuthOps where
  addUser : User → List User → Except String (List User)
  delUser : String → List User → Except String (List User)
  addRole : String → String → List User → Except String (List User)
  removeRole : String → String → List User → Except String (List User)
  getUser : String → List User → Except String User
  provideJWT : User → Except String String
  listUsers : Bool → List User → Except String (List User)

/-- The fields of `RestApi` the routes read, and the deployment's collaborators. -/
structure RestApi where
  cfg : Cfg
  /-- `api.Authentication != nil`. -/
  authentication : Bool
  machineStateDir : String
  decode : Decoders
  auth : AuthOps

/-- `MountRoutes` under the `/api` prefix: the job routes always, the user routes when
    there is authentication, the machine-state routes when there is a directory. -/
def RestApi.mountRoutes (api : RestApi) : List Route :=
  [⟨"/api/jobs/start_job/", ["POST", "PUT"], .startJob⟩,
   ⟨"/api/jobs/stop_job/", ["POST", "PUT"], .stopJobByRequest⟩,
   ⟨"/api/jobs/stop_job/{id}", ["POST", "PUT"], .stopJobById⟩,
   ⟨"/api/jobs/", ["GET"], .getJobs⟩,
   ⟨"/api/jobs/tag_job/{id}", ["POST", "PATCH"], .tagJob⟩,
   ⟨"/api/jobs/metrics/{id}", ["GET"], .getJobMetrics⟩,
   ⟨"/api/jobs/delete_job/", ["DELETE"], .deleteJobByRequest⟩,
   ⟨"/api/jobs/delete_job/{id}", ["DELETE"], .deleteJobById⟩,
   ⟨"/api/jobs/delete_job_before/{ts}", ["DELETE"], .deleteJobBefore⟩] ++
  (if api.authentication then
    [⟨"/api/jwt/", ["GET"], .getJWT⟩,
     ⟨"/api/users/", ["POST", "PUT"], .createUser⟩,
     ⟨"/api/users/", ["GET"], .getUsers⟩,
     ⟨"/api/users/", ["DELETE"], .deleteUser⟩,
     ⟨"/api/user/{id}", ["POST"], .updateUser⟩,
     ⟨"/api/configuration/", ["POST"], .updateConfiguration⟩]
  else []) ++
  (if api.machineStateDir != "" then
    [⟨"/api/machine_state/{cluster}/{host}", ["GET"], .getMachineState⟩,
     ⟨"/api/machine_state/{cluster}/{host}", ["PUT", "POST"], .putMachineState⟩]
  else [])

/-! ## Requests and the server -/

/-- What a handler reads from its request. -/
structure HttpReq where
  user : Option User
  vars : List (String × String)
  form : List (String × String)
  body : String
  /-- `r.URL.Query()`, its keys in the map's iteration order. -/
  query : List (String × List String)

/-- A key's value, "" when it is missing (`r.FormValue`, a `mux.Vars` map). -/
def lookupStr (m : List (String × String)) (k : String) : String :=
  ((m.find? (·.1 == k)).map (·.2)).getD ""

/-- `r.URL.Query().Get(k)`: the key's first value, "" when there is none. -/
def queryGet (q : List (String × List String)) (k : String) : String :=
  ((q.find? (·.1 == k)).bind (·.2.head?)).getD ""

/-- The state of the server: the job database, the users, the users' configuration as
    `(username, key, value)`, the defaults of users with no entry, and the
    machine-state files by path. -/
structure Server where
  st : St
  users : List User
  config : List (String × String × String)
  uiDefaults : List (String × String)
  files : List (String × String)

/-- `user.HasRole(role)`; the context's nil user is taken to have no role. -/
def hasRole (user : Option User) (role : String) : Bool :=
  match user with
  | some u => u.hasRole role
  | none => false

/-! ## Users and configuration -/

def RestApi.getJWT (api : RestApi) (srv : Server) (r : HttpReq) : Resp :=
  let username := lookupStr r.form "username"
  let me := match r.user with
    | some u => u.username
    | none => ""
  if !hasRole r.user roleAdmin && username != me then
    .plain 403 "only admins are allowed to sign JWTs not for themselves"
  else
    match api.auth.getUser username srv.users with
    | .error e => .plain 422 e
    | .ok user =>
      match api.auth.provideJWT user with
      | .error e => .plain 422 e
      | .ok jwt => .plain 200 jwt

def RestApi.createUser (api : RestApi) (srv : Server) (r : HttpReq) : Resp × Server :=
  if !hasRole r.user roleAdmin then (.plain 403 "only admins are allowed to create new users", srv) else
  let username := lookupStr r.form "username"
  let password := lookupStr r.form "password"
  let role := lookupStr r.form "role"
  if password.length = 0 && role != roleApi then
    (.plain 400 "only API users are allowed to have a blank password (login will be impossible)", srv)
  else
    match api.auth.addUser { username, name := lookupStr r.form "name", password,
                             email := lookupStr r.form "email", roles := [role] } srv.users with
    | .error e => (.plain 422 e, srv)
    | .ok users => (.plain 200 ("User " ++ goQuote username ++ " successfully created!\n"), { srv with users })

def RestApi.deleteUser (api : RestApi) (srv : Server) (r : HttpReq) : Resp × Server :=
  if !hasRole r.user roleAdmin then (.plain 403 "only admins are allowed to delete a user", srv) else
  match api.auth.delUser (lookupStr r.form "username") srv.users with
  | .error e => (.plain 422 e, srv)
  | .ok users => (.empty 200, { srv with users })

def RestApi.getUsers (api : RestApi) (srv : Server) (r : HttpReq) : Resp :=
  if !hasRole r.user roleAdmin then .plain 403 "only admins are allowed to fetch a list of users" else
  match api.auth.listUsers (queryGet r.query "not-just-user" == "true") srv.users with
  | .error e => .plain 500 e
  | .ok _ => .data

def RestApi.updateUser (api : RestApi) (srv : Server) (r : HttpReq) : Resp × Server :=
  if !hasRole r.user roleAdmin then (.plain 403 "only admins are allowed to update a user", srv) else
  let newrole := lookupStr r.form "add-role"
  let delrole := lookupStr r.form "remove-role"
  let id := lookupStr r.vars "id"
  if newrole != "" then
    match api.auth.addRole id newrole srv.users with
    | .error e => (.plain 422 e, srv)
    | .ok users => (.plain 200 "Add Role Success", { srv with users })
  else if delrole != "" then
    match api.auth.removeRole id delrole srv.users with
    | .error e => (.plain 422 e, srv)
    | .ok users => (.plain 200 "Remove Role Success", { srv with users })
  else (.plain 500 "Not Add or Del?", srv)

/-- `UserCfgRepo.UpdateConfig(key, value, user)` (not under src/): sets the key in the
    configuration of the user it is given, or in the defaults when there is none. -/
def Server.updateConfig (srv : Server) (key value : String) : Option User → Server
  | some u => { srv with config := srv.config.filter (fun e => !(e.1 == u.username && e.2.1 == key)) ++
                                   [(u.username, key, value)] }
  | none => { srv with uiDefaults := srv.uiDefaults.filter (·.1 != key) ++ [(key, value)] }

/-- The call outside the job store that fails while a handler runs, with its error:
    `UpdateConfig` of `updateConfiguration`, or a file system call of `putMachineState`. -/
inductive CallFault where
  | updateConfig (e : String)
  | mkdirAll (e : String)
  | create (e : String)
  | copy (e : String)

def RestApi.updateConfiguration (fs : Option CallFault) (srv : Server) (r : HttpReq) : Resp × Server :=
  match fs with
  | some (.updateConfig e) => (.plain 422 e, srv)
  | _ => (.plain 200 "success", srv.updateConfig (lookupStr r.form "key") (lookupStr r.form "value") r.user)

/-! ## Machine state -/

/-- `filepath.Join` of two parts (its cleaning of the path is not modelled). -/
def joinPath (a b : String) : String := a ++ "/" ++ b

/-- The files after `path` is created or truncated with `content`. -/
def setFile (files : List (String × String)) (path content : String) : List (String × String) :=
  files.filter (·.1 != path) ++ [(path, content)]

def RestApi.putMachineState (api : RestApi) (fs : Option CallFault) (srv : Server) (r : HttpReq) : Resp × Server :=
  if api.machineStateDir = "" then (.plain 404 "not enabled", srv) else
  let dir := joinPath api.machineStateDir (lookupStr r.vars "cluster")
  let filename := joinPath dir (lookupStr r.vars "host" ++ ".json")
  match fs with
  | some (.mkdirAll e) => (.plain 500 e, srv)
  | some (.create e) => (.plain 500 e, srv)
  | some (.copy e) => (.plain 500 e, { srv with files := setFile srv.files filename "" })
  | _ => (.empty 201, { srv with files := setFile srv.files filename r.body })

/-- `http.ServeFile` answers a missing file with 404. -/
def RestApi.getMachineState (api : RestApi) (srv : Server) (r : HttpReq) : Resp :=
  if api.machineStateDir = "" then .plain 404 "not enabled" else
  let filename := joinPath (joinPath api.machineStateDir (lookupStr r.vars "cluster")) (lookupStr r.vars "host" ++ ".json")
  match srv.files.find? (·.1 == filename) with
  | some _ => .data
  | none => .plain 404 "404 page not found"

/-! ## Serving a request -/

/-- What a handler does with a request: go on as a job worker, or answer at once. -/
inductive Outcome where
  | worker (p : Pc)
  | answered (r : Resp) (srv : Server)

def RestApi.serve (api : RestApi) (fs : Option CallFault) (srv : Server) (r : HttpReq) : Handler → Outcome
  | .startJob => .worker ((Request.startJob r.user (api.decode.start r.body)).pc api.cfg)
  | .stopJobByRequest => .worker ((Request.stopJobByRequest r.user (api.decode.stop r.body)).pc api.cfg)
  | .stopJobById =>
    .worker ((Request.stopJobById r.user (lookupStr r.vars "id") (api.decode.stop r.body)).pc api.cfg)
  | .tagJob => .worker ((Request.tagJob r.user (lookupStr r.vars "id") (api.decode.tags r.body)).pc api.cfg)
  | .deleteJobByRequest => .worker ((Request.deleteJobByRequest r.user (api.decode.delete r.body)).pc api.cfg)
  | .deleteJobById => .worker ((Request.deleteJobById r.user (lookupStr r.vars "id")).pc api.cfg)
  | .deleteJobBefore => .worker ((Request.deleteJobBefore r.user (lookupStr r.vars "ts")).pc api.cfg)
  | .getJobs =>
    .answered (match getJobs r.user r.query with
      | .error e => e
      | .ok _ => .data) srv
  | .getJobMetrics => .answered .data srv
  | .getJWT => .answered (api.getJWT srv r) srv
  | .createUser => let a := api.createUser srv r; .answered a.1 a.2
  | .getUsers => .answered (api.getUsers srv r) srv
  | .deleteUser => let a := api.deleteUser srv r; .answered a.1 a.2
  | .updateUser => let a := api.updateUser srv r; .answered a.1 a.2
  | .updateConfiguration => let a := RestApi.updateConfiguration fs srv r; .answered a.1 a.2
  | .getMachineState => .answered (api.getMachineState srv r) srv
  | .putMachineState => let a := api.putMachineState fs srv r; .answered a.1 a.2

/-! ## Requests without a role -/

/-- An outcome that changes nothing but the configuration of user `u`: a job worker
    that has answered 403 for the missing API role before its first step, or an answer
    that leaves the job database, the users, the defaults, the files and the other
    users' configuration as they were. -/
def Outcome.KeepsAllBut (srv : Server) (u : String) : Outcome → Prop
  | .worker p => p = .done (.error 403 missingApiRoleMsg)
  | .answered _ srv' => srv'.st = srv.st ∧ srv'.users = srv.users ∧ srv'.uiDefaults = srv.uiDefaults ∧
      srv'.files = srv.files ∧ srv'.config.filter (·.1 != u) = srv.config.filter (·.1 != u)

theorem Server.updateConfig_others (srv : Server) (key value : String) (u : User) :
    (srv.updateConfig key value (some u)).config.filter (·.1 != u.username) = srv.config.filter (·.1 != u.username) := by
  simp only [Server.updateConfig, List.filter_append, List.filter_filter]
  rw [show List.filter (fun x => x.1 != u.username) [(u.username, key, value)] = [] by simp, List.append_nil]
  exact List.filter_congr fun e _ => by by_cases h : e.1 = u.username <;> simp [h]

theorem routes_without_role_keep_state (api : RestApi) (fs : Option CallFault) (srv : Server) (r : HttpReq)
    (u : User) (hu : r.user = some u) (hapi : u.hasRole roleApi = false) (hadm : u.hasRole roleAdmin = false) :
    ∀ rt ∈ api.mountRoutes, rt.handler ≠ .putMachineState → (api.serve fs srv r rt.handler).KeepsAllBut srv u.username := by
  rintro ⟨path, methods, hd⟩ _ hne
  have hjob : missingApiRole r.user = true := by simp [missingApiRole, hu, hapi]
  have hadmin : hasRole r.user roleAdmin = false := by simp [hasRole, hu, hadm]
  cases hd <;> simp only [RestApi.serve, Outcome.KeepsAllBut, Request.pc, CcBackend.startJob,
    CcBackend.stopJobByRequest, CcBackend.stopJobById, CcBackend.tagJob, CcBackend.deleteJobByRequest,
    CcBackend.deleteJobById, CcBackend.deleteJobBefore, hjob, if_true, RestApi.createUser, RestApi.deleteUser,
    RestApi.updateUser, hadmin, Bool.not_false]
  case updateConfiguration =>
    unfold RestApi.updateConfiguration
    split
    · exact ⟨rfl, rfl, rfl, rfl, rfl⟩
    · simp only [hu]
      exact ⟨rfl, rfl, rfl, rfl, Server.updateConfig_others _ _ _ _⟩
  case putMachineState => exact absurd rfl hne
  all_goals trivial

/-- A user with neither the API nor the admin role. -/
def plainUser : User := { username := "user1", roles := ["user"] }

/-- A deployment with authentication and a machine-state directory, whose decoders and
    user store refuse everything. -/
def exampleApi : RestApi :=
  { cfg := Cfg.plain, authentication := true, machineStateDir := "./var/machine-state",
    decode := ⟨fun _ => .error "EOF", fun _ => .error "EOF", fun _ => .error "EOF", fun _ => .error "EOF"⟩,
    auth := ⟨fun _ _ => .error "", fun _ _ => .error "", fun _ _ _ => .error "", fun _ _ _ => .error "",
             fun _ _ => .error "", fun _ => .error "", fun _ _ => .error ""⟩ }

def emptyServer : Server := ⟨St.init, [], [], [], []⟩

/-- A request of `plainUser` for the machine state of `node1` on `fritz`. -/
def plainReq : HttpReq :=
  ⟨some plainUser, [("cluster", "fritz"), ("host", "node1")], [("key", "k"), ("value", "v")], "state", []⟩

/-- Such a user changes only their own configuration. -/
theorem routes_without_role_keep_state_configuration :
    (exampleApi.serve none emptyServer plainReq .updateConfiguration).KeepsAllBut emptyServer plainUser.username :=
  routes_without_role_keep_state exampleApi none emptyServer plainReq plainUser rfl (by decide) (by decide)
    ⟨"/api/configuration/", ["POST"], .updateConfiguration⟩ (by decide) (by decide)

theorem putMachineState_without_role :
    ⟨"/api/machine_state/{cluster}/{host}", ["PUT", "POST"], .putMachineState⟩ ∈ exampleApi.mountRoutes ∧
    plainUser.hasRole roleApi = false ∧ plainUser.hasRole roleAdmin = false ∧
    exampleApi.serve none emptyServer plainReq .putMachineState =
      .answered (.empty 201) { emptyServer with files := [("./var/machine-state/fritz/node1.json", "state")] } :=
  ⟨by decide, by decide, by decide, rfl⟩

end CcBackend
