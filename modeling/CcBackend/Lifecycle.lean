import CcBackend.Monitoring
/-
  CcBackend.Lifecycle — the lifecycle the spec gives a job (§4.2, and the monitoring
  state machine of its design notes), and the runs of the server that keep to it.

  The spec's machine runs on a job's state and monitoring status: a running job is
  stopped into a terminal state and keeps its status; a stopped job's pending status
  becomes archiving-successful or archiving-failed; disabled is a sink. A job starts
  disabled or pending; its state is the start request's (the spec starts it running,
  `startJob` only when the request gives no state), which the machine's start
  (`Lifecycle.Init`) leaves free. The handlers keep to the machine in serial runs
  (`Serial`): no two stops of one job overlap, from the read of one to the end of the
  other's archiving goroutine; a start request's status is disabled or pending (the
  `JobDefaults` value); and a stop request does not ask for `running`, which
  `checkAndHandleStopJob` accepts as a valid state.

  Proved (`lifecycle_refines`): in every serial run, every step moves each job row by
  at most one transition of the machine, and a row the step inserts starts where the
  machine starts. The proof carries one more invariant (`LifeOk`): a running row is
  disabled or pending; a stop handler about to `Stop` read its row as the row still
  is; an archiving goroutine's row is stopped and pending. A step writes only the row
  of its own job, and in a serial run no other worker relies on that row.
  Proved (`stop_then_archive_alone`): the machine's path of a monitored job, run with
  no other worker in between from any store. A stop of a running job with a stop time
  after its start and a valid state, and the goroutine it starts, leave the store as
  it was but for the job's rows (the requested state, the `int32` duration, archived
  with the metric backend's statistics) and its archive (the stopped job).
  Traces: a stop that asks for `running` is answered 200, leaves the job running and
  archives it, so the job can be stopped and archived again
  (`stop_running_archives_twice`). Two overlapping stops leave the machine as well:
  the second overwrites the terminal state the first wrote, and a stale `Stop` resets
  an archived status to pending (`CcBackend.StopJob`, `CcBackend.Monitoring`).
-/

namespace CcBackend

/-! ## The spec's lifecycle -/

/-- The monitoring statuses a job may start with: disabled, or pending. -/
def MonitoringStatus.initial : MonitoringStatus → Bool
  | .disabled | .runningOrArchiving => true
  | _ => false

/-- A job row's place in the lifecycle: its state and its monitoring status. -/
def JobRow.life (r : JobRow) : JobState × MonitoringStatus := (r.state, r.monitoringStatus)

namespace Lifecycle

/-- Where the machine starts: monitoring disabled or pending, in any state. `startJob`
    stores the state its request gives, `running` only when it gives none. -/
def Init (a : JobState × MonitoringStatus) : Prop := a.2.initial = true

/-- The machine's transitions. -/
inductive Step : JobState × MonitoringStatus → JobState × MonitoringStatus → Prop
  /-- A running job is stopped into a terminal state; its status is persisted as it is. -/
  | stop {t : JobState} (ms : MonitoringStatus) : t.terminal = true → Step (.running, ms) (t, ms)
  /-- A stopped job's pending status becomes archiving-successful. -/
  | archived {t : JobState} : t.terminal = true → Step (t, .runningOrArchiving) (t, .archivingSuccessful)
  | failed {t : JobState} : t.terminal = true → Step (t, .runningOrArchiving) (t, .archivingFailed)

end Lifecycle

/-! ## Serial runs -/

/-- The job of a stop handler about to `Stop`, or of an archiving goroutine. -/
def Pc.stopJob : Pc → Option Job
  | .stopUpdate j _ | .archFetch j | .archArchive j | .archFailed j | .archFinal j _ => some j
  | _ => none

def Pc.startReq : Pc → Option JobMeta
  | .startLock req | .startFindAll req | .startInsert req => some req
  | _ => none

/-- A worker's request keeps to the lifecycle: a start request's status is disabled or
    pending, and a stop request does not ask for `running`. -/
def Pc.serialReq (p : Pc) : Bool :=
  p.startReq.all (·.monitoringStatus.initial) && p.stopReq.all (·.state != .running)

/-- The runs the spec's lifecycle assumes: no two workers between a stop's read and the
    end of its archiving share a job, and every request keeps to the lifecycle. -/
def Serial (s : Sys) : Prop :=
  (s.procs.filterMap fun p => p.stopJob.map (·.id)).Nodup ∧ s.procs.all Pc.serialReq = true

instance : DecidablePred Serial := fun _ => inferInstanceAs (Decidable (_ ∧ _))

theorem Serial.apart {st : St} {l₁ l₂ : List Pc} {p : Pc} (hs : Serial ⟨st, l₁ ++ p :: l₂⟩) {q : Pc}
    (hq : q ∈ l₁ ++ l₂) {a b : Job} (ha : q.stopJob = some a) (hb : p.stopJob = some b) : a.id ≠ b.id := by
  have hn := hs.1
  simp only [List.filterMap_append, List.filterMap_cons, hb, Option.map_some'] at hn
  have hb' := (List.nodup_cons.mp (List.nodup_middle.mp hn)).1
  rintro e
  refine hb' ?_
  rw [← List.filterMap_append, List.mem_filterMap]
  exact ⟨q, hq, by simp [ha, e]⟩

/-! ## What a serial run keeps -/

def St.RowsOf (s : St) (id : Int) (P : JobRow → Prop) : Prop := ∀ r ∈ s.jobs, r.id = id → P r

/-- What a worker of a serial run relies on: a stop handler about to `Stop` read its row
    as the row still is, running; an archiving goroutine's row is stopped and pending. -/
def Pc.LifeOk (s : St) : Pc → Prop
  | .stopUpdate job _ => s.RowsOf job.id fun r => r.state = .running ∧ r.monitoringStatus = job.monitoringStatus
  | .archFetch job | .archArchive job | .archFailed job | .archFinal job _ =>
    s.RowsOf job.id fun r => r.state.terminal = true ∧ r.monitoringStatus = .runningOrArchiving
  | _ => True

structure LifeOk (s : Sys) : Prop where
  running : ∀ r ∈ s.st.jobs, r.state = .running → r.monitoringStatus.initial = true
  pcs : ∀ p ∈ s.procs, p.LifeOk s.st

theorem Pc.lifeOk_of_stopJob {p : Pc} {s : St} (h : p.stopJob = none) : p.LifeOk s := by
  cases p <;> simp only [Pc.stopJob, reduceCtorEq] at h <;> trivial

@[simp] theorem Loop.fail_stopJob (k : Loop) (e : DbErr) : (k.fail e).stopJob = none := by cases k <;> rfl
@[simp] theorem Caller.fail_stopJob (cl : Caller) (e : DbErr) : (cl.fail e).stopJob = none := by
  cases cl with
  | orCreate k => exact k.fail_stopJob e
  | resolver => rfl
@[simp] theorem Caller.ret_stopJob (cl : Caller) (t : Int) (ts : List Tag) : (cl.ret t ts).stopJob = none := by
  cases cl with
  | orCreate k => cases k <;> rfl
  | resolver => rfl

theorem Pc.Writes.stopJob {p : Pc} {r r' : JobRow} (hw : p.Writes r r') : ∃ job, p.stopJob = some job ∧ job.id = r.id := by
  cases p <;> simp only [Pc.Writes] at hw <;> exact ⟨_, rfl, hw.1⟩

theorem Change.rowsOf {p : Pc} {s s' : St} {id : Int} {P : JobRow → Prop} (hc : Change p s s') (hlt : id < s.nextId)
    (hw : ∀ r r', p.Writes r r' → r.id ≠ id) (h : s.RowsOf id P) : s'.RowsOf id P := by
  intro r' hr' e
  rcases hc.row r' hr' with hr | ⟨req, -, rfl⟩ | ⟨r, -, e', hwr⟩
  · exact h r' hr e
  · simp [JobMeta.toRow] at e; omega
  · exact absurd (e'.trans e) (hw r r' hwr)

theorem Pc.Ok.stopJob_lt {p : Pc} {s : St} {job : Job} (hp : p.Ok s) (h : p.stopJob = some job) : job.id < s.nextId := by
  cases p <;> simp only [Pc.stopJob, Option.some.injEq, reduceCtorEq] at h <;> subst h
  case stopUpdate => exact hp.idLt
  case archFinal => exact hp.1.idLt
  all_goals exact hp.idLt

theorem Pc.LifeOk.stable {p q : Pc} {s s' : St} (hq : q.LifeOk s) (hok : q.Ok s) (hc : Change p s s')
    (hw : ∀ job, q.stopJob = some job → ∀ r r', p.Writes r r' → r.id ≠ job.id) : q.LifeOk s' := by
  cases hj : q.stopJob with
  | none => exact Pc.lifeOk_of_stopJob hj
  | some job =>
    have hlt := hok.stopJob_lt hj
    cases q <;> simp only [Pc.stopJob, Option.some.injEq, reduceCtorEq] at hj <;> subst hj <;>
      exact hc.rowsOf hlt (hw _ rfl) hq

/-! ## The stepping worker -/

theorem checkAndHandleStopJob_cases (job : Job) (req : StopJobApiRequest) :
    (∃ r, checkAndHandleStopJob job req = .done r) ∨ ∃ req', checkAndHandleStopJob job req = .stopUpdate job req' := by
  unfold checkAndHandleStopJob
  split_ifs <;> simp

theorem checkAndHandleStopJob_lifeOk {s : St} {r : JobRow} {req : StopJobApiRequest} (hw : s.WF) (hr : r ∈ s.jobs) :
    (checkAndHandleStopJob r.toJob req).LifeOk s := by
  rcases checkAndHandleStopJob_cases r.toJob req with ⟨a, e⟩ | ⟨req', e⟩ <;> rw [e]
  · trivial
  · intro r' hr' hid
    rw [hw.eq_of_id hr' hr hid]
    exact ⟨(checkAndHandleStopJob_stop e).2.1, rfl⟩

theorem StopOk.terminal {s : St} {job : Job} {req : StopJobApiRequest} (hq : StopOk s job req)
    (hr : (Pc.stopUpdate job req).serialReq = true) : req.state.terminal = true := by
  simpa [Pc.serialReq, Pc.startReq, Pc.stopReq, JobState.terminal, hq.valid] using hr

/-- The stepping worker reaches a point whose facts hold, and so does the goroutine it starts. -/
theorem run_lifeOk {c : Cfg} {s s' : St} {f : Fault} {p p' : Pc} {sp : List Pc} (hw : s.WF) (hp : p.Ok s)
    (hl : p.LifeOk s) (hrun : ∀ r ∈ s.jobs, r.state = .running → r.monitoringStatus.initial = true)
    (hreq : p.serialReq = true) (h : p.run c s f = some (s', p', sp)) : p'.LifeOk s' ∧ ∀ q ∈ sp, q.LifeOk s' := by
  cases p
  case stopFindById =>
    simp only [Pc.run] at h
    split at h <;> simp only [Option.some.injEq, Prod.mk.injEq] at h <;> obtain ⟨rfl, rfl, rfl⟩ := h
    · exact ⟨trivial, by simp⟩
    · rename_i hj
      obtain ⟨r, hr, -, rfl⟩ := St.findById_ok (fallible_eq_ok.mp hj).2
      exact ⟨checkAndHandleStopJob_lifeOk hw hr, by simp⟩
  case stopFind =>
    simp only [Pc.run] at h
    split at h <;> simp only [Option.some.injEq, Prod.mk.injEq] at h <;> obtain ⟨rfl, rfl, rfl⟩ := h
    · exact ⟨trivial, by simp⟩
    · rename_i hj
      obtain ⟨r, hr, -, rfl⟩ := St.find_ok (fallible_eq_ok.mp hj).2
      exact ⟨checkAndHandleStopJob_lifeOk hw hr, by simp⟩
  case stopUpdate job req =>
    simp only [Pc.run] at h
    split at h <;> simp only [Option.some.injEq, Prod.mk.injEq] at h <;> obtain ⟨rfl, rfl, rfl⟩ := h
    · exact ⟨trivial, by simp⟩
    · rename_i s₁ hs
      obtain ⟨-, hs⟩ := fallible_eq_ok.mp hs
      cases hs
      refine ⟨trivial, fun q hq => ?_⟩
      split at hq
      · cases hq
      · rename_i hd
        rw [List.mem_singleton.mp hq]
        intro r' hr' hid
        obtain ⟨r₀, hr₀, e₀, rfl⟩ := St.update_mem hr' hid
        obtain ⟨hstate, hms⟩ := hl r₀ hr₀ e₀
        have hinit := hrun r₀ hr₀ hstate
        refine ⟨StopOk.terminal hp hreq, ?_⟩
        simp only [stoppedJob_monitoringStatus] at hd ⊢
        rw [hms] at hinit
        cases hm : job.monitoringStatus <;> simp_all [MonitoringStatus.initial]
  case archFetch job =>
    simp only [Pc.run] at h
    split at h <;> simp only [Option.some.injEq, Prod.mk.injEq] at h <;> obtain ⟨rfl, rfl, rfl⟩ := h
    · exact ⟨hl, by simp⟩
    · rename_i hj
      obtain ⟨md, rfl⟩ := St.fetchMetadata_ok (fallible_eq_ok.mp hj).2
      exact ⟨hl, by simp⟩
  case archArchive job =>
    simp only [Pc.run] at h
    split at h <;> simp only [Option.some.injEq, Prod.mk.injEq] at h <;> obtain ⟨rfl, rfl, rfl⟩ := h
    · exact ⟨hl, by simp⟩
    · rename_i he
      simp only [fallible_eq_ok, Except.ok.injEq, Prod.ext_iff] at he
      rw [← he.2.2]
      exact ⟨hl, by simp⟩
  case archFailed | archFinal =>
    simp only [Pc.run, Option.some.injEq, Prod.mk.injEq] at h
    obtain ⟨-, rfl, rfl⟩ := h
    exact ⟨trivial, by simp⟩
  all_goals
    simp only [Pc.run] at h
    (repeat' split at h) <;> (try simp only [Option.some.injEq, Prod.mk.injEq] at h) <;>
      first
        | (obtain ⟨rfl, rfl, rfl⟩ := h; exact ⟨Pc.lifeOk_of_stopJob (by first | rfl | simp), by simp⟩)
        | cases h

/-! ## Every step of a serial run -/

theorem JobState.terminal_ne_running {t : JobState} (h : t.terminal = true) : t ≠ .running := by
  rintro rfl; cases h

theorem Lifecycle.Step.terminal {a b : JobState × MonitoringStatus} (h : Lifecycle.Step a b) : b.1.terminal = true := by
  cases h <;> assumption

theorem Request.pc_stopJob (c : Cfg) (r : Request) : (r.pc c).stopJob = none := by
  cases r <;> simp only [Request.pc, CcBackend.startJob, CcBackend.stopJobById, CcBackend.stopJobByRequest,
    CcBackend.tagJob, CcBackend.deleteJobById, CcBackend.deleteJobByRequest, CcBackend.deleteJobBefore] <;>
    (repeat' split) <;> rfl

theorem Pc.Writes.life_step {p : Pc} {s : St} {r r' : JobRow} (hw : p.Writes r r') (hr : r ∈ s.jobs) (hp : p.Ok s)
    (hl : p.LifeOk s) (hreq : p.serialReq = true) : Lifecycle.Step r.life r'.life := by
  cases p <;> simp only [Pc.Writes] at hw <;> obtain ⟨e, rfl⟩ := hw
  case stopUpdate job req =>
    obtain ⟨hrun, hms⟩ := hl r hr e.symm
    simp only [JobRow.life, hrun, hms]
    exact .stop _ (StopOk.terminal hp hreq)
  case archFailed job =>
    obtain ⟨ht, hms⟩ := hl r hr e.symm
    simp only [JobRow.life, hms]
    exact .failed ht
  case archFinal job stats =>
    obtain ⟨ht, hms⟩ := hl r hr e.symm
    simp only [JobRow.life, hms]
    exact .archived ht

/-- One step of worker `p`, which stands between `l₁` and `l₂` of a serial state, keeps `LifeOk`. -/
theorem LifeOk.exec {c : Cfg} {st st' : St} {f : Fault} {l₁ l₂ sp : List Pc} {p p' : Pc}
    (hi : Inv ⟨st, l₁ ++ p :: l₂⟩) (hl : LifeOk ⟨st, l₁ ++ p :: l₂⟩) (hs : Serial ⟨st, l₁ ++ p :: l₂⟩)
    (h : p.run c st f = some (st', p', sp)) : LifeOk ⟨st', l₁ ++ p' :: l₂ ++ sp⟩ := by
  have hmem : p ∈ l₁ ++ p :: l₂ := by simp
  have hp := hi.pcs p hmem
  have hlp := hl.pcs p hmem
  have hreq : p.serialReq = true := List.all_eq_true.mp hs.2 p hmem
  have hc := stEff_change (run_stEff h)
  obtain ⟨hl', hsp⟩ := run_lifeOk hi.wf hp hlp hl.running hreq h
  refine ⟨fun r' hr' hrun => ?_, fun q hq => ?_⟩
  · rcases hc.row r' hr' with hr | ⟨req, rfl, rfl⟩ | ⟨r, hr, -, hw⟩
    · exact hl.running r' hr hrun
    · simpa [Pc.serialReq, Pc.startReq, Pc.stopReq, JobMeta.toRow] using hreq
    · have ht := (hw.life_step hr hp hlp hreq).terminal
      exact absurd hrun (JobState.terminal_ne_running ht)
  · have hstable : ∀ q ∈ l₁ ++ l₂, q.LifeOk st' := fun q hq =>
      (hl.pcs q (by simp at hq ⊢; tauto)).stable (hi.pcs q (by simp at hq ⊢; tauto)) hc fun job hj r r' hw => by
        obtain ⟨jp, hjp, e⟩ := hw.stopJob
        exact e ▸ (Serial.apart hs hq hj hjp).symm
    simp only [List.mem_append, List.mem_cons] at hq
    rcases hq with (hq | rfl | hq) | hq
    · exact hstable q (List.mem_append_left _ hq)
    · exact hl'
    · exact hstable q (List.mem_append_right _ hq)
    · exact hsp q hq

theorem LifeOk.step {c : Cfg} {s s' : Sys} {e : Ev} (hl : LifeOk s) (hi : Inv s) (hser : Serial s)
    (hs : Step c s e s') : LifeOk s' := by
  cases hs with
  | arrive r =>
    refine ⟨hl.running, fun q hq => ?_⟩
    rcases List.mem_append.mp hq with hq | hq
    · exact hl.pcs q hq
    · rw [List.mem_singleton.mp hq]; exact Pc.lifeOk_of_stopJob (Request.pc_stopJob c r)
  | exec i p f st p' sp hget hrun =>
    obtain ⟨st0, procs⟩ := s
    obtain ⟨hlt, hpi⟩ := List.getElem?_eq_some_iff.mp hget
    obtain ⟨l₁, l₂, hl', -, hset⟩ := @List.exists_of_set _ _ p' _ hlt
    simp only at hl' hset hpi
    rw [hpi] at hl'
    subst hl'
    simp only [hset]
    exact LifeOk.exec hi hl hser hrun

theorem LifeOk.run {c : Cfg} {s : Sys} {h : List Ev} (hr : Run c Serial s h) : LifeOk s := by
  induction hr with
  | init => exact ⟨fun _ h => (nomatch h), fun _ h => (nomatch h)⟩
  | step hr' hs _ ih => exact ih.step (Inv.reach hr'.reach) hr'.holds hs

theorem lifecycle_refines {c : Cfg} {s s' : Sys} {h : List Ev} {e : Ev} (hr : Run c Serial s h) (hs : Step c s e s') :
    ∀ r' ∈ s'.st.jobs, (∃ r ∈ s.st.jobs, r.id = r'.id ∧ (r'.life = r.life ∨ Lifecycle.Step r.life r'.life)) ∨
      ((∀ r ∈ s.st.jobs, r.id ≠ r'.id) ∧ Lifecycle.Init r'.life) := by
  have hi := Inv.reach hr.reach
  have hl := LifeOk.run hr
  intro r' hr'
  cases hs with
  | arrive => exact .inl ⟨r', hr', rfl, .inl rfl⟩
  | exec i p f st p' sp hget hrun =>
    have hmem := List.getElem?_mem hget
    have hreq : p.serialReq = true := List.all_eq_true.mp hr.holds.2 p hmem
    rcases (stEff_change (run_stEff hrun)).row r' hr' with hr0 | ⟨req, rfl, rfl⟩ | ⟨r, hr0, e, hw⟩
    · exact .inl ⟨r', hr0, rfl, .inl rfl⟩
    · refine .inr ⟨fun r hr0 e => ?_, by simpa [Lifecycle.Init, JobRow.life, Pc.serialReq, Pc.startReq,
        Pc.stopReq, JobMeta.toRow] using hreq⟩
      have := hi.wf.idLt r hr0
      simp [JobMeta.toRow] at e; omega
    · exact .inl ⟨r, hr0, e, .inr (hw.life_step hr0 (hi.pcs p hmem) (hl.pcs p hmem) hreq)⟩

/-! ## Serial traces -/

/-- Job 1 is started and stopped `completed`, and its archiving goroutine has written
    the archive. -/
def archiveActs : List Act :=
  [.arrive (.startJob none (.ok (startAt 1649723812))), .exec 0 none, .exec 0 none, .exec 0 none, .exec 0 none,
   .arrive (.stopJobById none "1" (.ok (stopReq .completed))), .exec 1 none, .exec 1 none, .exec 2 none,
   .exec 2 none]

/-- The goroutine's last step, in a serial run: the job goes from pending to archived. -/
theorem lifecycle_refines_archived :
    (∃ h, Run Cfg.plain Serial (Sys.trace Cfg.plain archiveActs) h) ∧
    ∃ e, Step Cfg.plain (Sys.trace Cfg.plain archiveActs) e (Sys.trace Cfg.plain (archiveActs ++ [.exec 2 none])) ∧
      ∀ r' ∈ (Sys.trace Cfg.plain (archiveActs ++ [.exec 2 none])).st.jobs,
        (∃ r ∈ (Sys.trace Cfg.plain archiveActs).st.jobs, r.id = r'.id ∧ (r'.life = r.life ∨ Lifecycle.Step r.life r'.life)) ∨
        ((∀ r ∈ (Sys.trace Cfg.plain archiveActs).st.jobs, r.id ≠ r'.id) ∧ Lifecycle.Init r'.life) := by
  obtain ⟨h, hr⟩ := Run.trace (by decide) (by decide : (Sys.init.runWhile Cfg.plain Serial archiveActs).isSome = true)
  obtain ⟨e, hstep⟩ := Step.trace_snoc (by decide : (Sys.init.runActs Cfg.plain (archiveActs ++ [.exec 2 none])).isSome = true)
  exact ⟨⟨h, hr⟩, e, hstep, lifecycle_refines hr hstep⟩

/-- Job 1 is started and stopped with the final state `running`; its goroutine archives
    it. -/
def runningStopActs : List Act :=
  [.arrive (.startJob none (.ok (startAt 1649723812))), .exec 0 none, .exec 0 none, .exec 0 none, .exec 0 none,
   .arrive (.stopJobById none "1" (.ok (stopReq .running))), .exec 1 none, .exec 1 none, .exec 2 none,
   .exec 2 none, .exec 2 none]

/-- The job is archived while still running, and a later stop is accepted and starts a
    second archiving. -/
theorem stop_running_archives_twice :
    (∃ h₁ h₂, Reach Cfg.plain (Sys.trace Cfg.plain runningStopActs) h₁ ∧
      Reach Cfg.plain (Sys.trace Cfg.plain (runningStopActs ++
        [.arrive (.stopJobById none "1" (.ok (stopReq .completed))), .exec 3 none, .exec 3 none])) (h₁ ++ h₂)) ∧
    (Sys.trace Cfg.plain runningStopActs).st.jobs.map JobRow.life = [(.running, .archivingSuccessful)] ∧
    (Sys.trace Cfg.plain (runningStopActs ++
        [.arrive (.stopJobById none "1" (.ok (stopReq .completed))), .exec 3 none, .exec 3 none])).procs.countP
      (Pc.answeredJob 1) = 2 ∧
    (Sys.trace Cfg.plain (runningStopActs ++
        [.arrive (.stopJobById none "1" (.ok (stopReq .completed))), .exec 3 none, .exec 3 none])).procs.countP
      (Pc.archiving 1) = 1 :=
  ⟨Reach.trace_append (by decide), by decide, by decide, by decide⟩

/-! ## A stop and its archiving, run alone -/

theorem checkAndHandleStopJob_accepts {job : Job} {req : StopJobApiRequest} (hrun : job.state = .running)
    (ht : job.startTime.val < req.stopTime.val) (hv : req.state.valid = true) :
    checkAndHandleStopJob job req = .stopUpdate job req := by
  have hne : req.state ≠ .other "" := fun e => by simp [e, JobState.valid] at hv
  simp [checkAndHandleStopJob, hrun, not_le.mpr ht, hne, hv]

theorem St.update_find? {s : St} {id : Int} {g : JobRow → JobRow} (hg : ∀ x, (g x).id = x.id) :
    (s.update id g).jobs.find? (·.id == id) = (s.jobs.find? (·.id == id)).map g := by
  have hp : ((·.id == id) ∘ fun x : JobRow => if x.id = id then g x else x) = (·.id == id) := by
    funext x; by_cases e : x.id = id <;> simp [e, hg]
  rw [St.update_jobs, List.find?_map, hp]
  cases h : s.jobs.find? (·.id == id) with
  | none => rfl
  | some r => simp [show r.id = id by simpa using List.find?_some h]

/-- A stop request for a running, monitored job, with a stop time after its start and a
    valid final state, and the archiving goroutine it starts, run from any store with
    nothing in between: the handler answers the stopped job, and the store ends as it
    was but for the job's rows, now stopped with the requested state and the `int32`
    duration and archived with the metric backend's statistics, and for its archive,
    which holds the stopped job. -/
theorem stop_then_archive_alone {c : Cfg} {s : St} {user : Option User} {idText : String} {iid : I64}
    {req : StopJobApiRequest} {r : JobRow} (hu : missingApiRole user = false) (hid : parseInt idText = .ok iid)
    (hf : s.findById iid.val = .ok r.toJob) (hrun : r.state = .running) (ht : r.startTime.val < req.stopTime.val)
    (hv : req.state.valid = true) (hms : r.monitoringStatus ≠ .disabled) :
    Steps c ⟨s, [(Request.stopJobById user idText (.ok req)).pc c]⟩
      ⟨{ s with
          jobs := s.jobs.map fun x => (if x.id = r.id then
            { x with duration := (stoppedJob r.toJob req).duration, state := req.state,
                     monitoringStatus := .archivingSuccessful, statistics := some (c.metrics (stoppedJob r.toJob req)) }
            else x),
          archive := upd s.archive r.id (some ⟨stoppedJob r.toJob req, c.metrics (stoppedJob r.toJob req)⟩) },
        [.done (.job (stoppedJob r.toJob req)), .exited]⟩ := by
  have hfind : s.jobs.find? (·.id == iid.val) = some r := by
    unfold St.findById at hf
    split at hf <;> rename_i r₁ h
    · simp only [Except.ok.injEq] at hf
      rw [h, show r₁ = r from congrArg Job.toJobRow hf]
    · cases hf
  have hrid : r.id = iid.val := by simpa using List.find?_some hfind
  rw [← hrid] at hfind
  set job := stoppedJob r.toJob req
  set stats := c.metrics job
  let s₁ := s.stop r.id job.duration req.state r.monitoringStatus
  let s₂ := (s₁.archiveJob job stats).2
  have hp : (Request.stopJobById user idText (.ok req)).pc c = .stopFindById iid req := by
    simp [Request.pc, stopJobById, hu, hid]
  have h1 : (Pc.stopFindById iid req).run c s none = some (s, .stopUpdate r.toJob req, []) := by
    simp [Pc.run, hf, @checkAndHandleStopJob_accepts r.toJob req hrun ht hv]
  have h2 : (Pc.stopUpdate r.toJob req).run c s none = some (s₁, .done (.job job), [.archFetch job]) := by
    simp [Pc.run, hms, s₁, job]
  have hfetch : s₁.fetchMetadata job = .ok job := by
    have := @St.update_find? s r.id
      (fun x => { x with duration := job.duration, state := req.state, monitoringStatus := r.monitoringStatus }) fun _ => rfl
    simp only [St.fetchMetadata, job, stoppedJob_id, JobRow.toJob]
    simp only [s₁, St.stop, this, hfind, Option.map_some]
    rfl
  have h3 : (Pc.archFetch job).run c s₁ none = some (s₁, .archArchive job, []) := by simp [Pc.run, hfetch]
  have h4 : (Pc.archArchive job).run c s₁ none = some (s₂, .archFinal job stats, []) := rfl
  have h5 : (Pc.archFinal job stats).run c s₂ none = some (s₂.archiveRow r.id .archivingSuccessful stats, .exited, []) :=
    rfl
  refine .head ⟨_, .exec _ 0 (.stopFindById iid req) none s _ [] (by simp [hp]) h1⟩ ?_
  refine Steps.exec_head (i := 0) rfl h2 (Steps.exec_head (i := 1) rfl h3 (Steps.exec_head (i := 1) rfl h4
    (Steps.exec_head (i := 1) rfl h5 ?_)))
  convert (Relation.ReflTransGen.refl : Steps c _ _) using 2
  simp only [s₂, s₁, St.archiveRow, St.archiveJob, St.stop, St.update, List.map_map]
  congr 2
  funext x
  by_cases e : x.id = r.id <;> simp [e]

/-- The API's example job, started and running, is stopped as completed and archived. -/
theorem stop_then_archive_alone_completed :
    ∃ st, Steps Cfg.plain
      ⟨{ St.init with jobs := [(startAt 1649723812).toRow 1], nextId := 2 },
        [(Request.stopJobById none "1" (.ok (stopReq .completed))).pc Cfg.plain]⟩
      ⟨st, [.done (.job (stoppedJob ((startAt 1649723812).toRow 1).toJob (stopReq .completed))), .exited]⟩ :=
  ⟨_, stop_then_archive_alone rfl rfl rfl rfl (by decide) rfl (by decide)⟩

end CcBackend
