import CcBackend.Api
import Mathlib.Logic.Relation
/-
  CcBackend.System — the server as a whole: the shared state and every worker, where
  requests arrive at any time and any worker that can run may take the next step.

  A run is a sequence of events: a request arrives (its worker starts), or worker `i`
  at `p` runs one step with fault `f`. The history records them in order, with the
  `Pc` each step ran at, so that a property of a run can name the steps it took.
  `Run c P` is a run every state of which satisfies `P`; `Reach c` puts no condition.

  What one step can do to the shared state is said once (`run_stEff`); each invariant
  is derived from it and closed by induction on the run (`Reach.induct`). A step that
  answers with an error writes nothing but the release of the mutex
  (`run_error_writes_nothing`).
-/

namespace CcBackend

/-- The server: the shared state and its workers (those that finished included). -/
structure Sys where
  st : St
  procs : List Pc

def Sys.init : Sys := ⟨St.init, []⟩

/-- What happened in one step. -/
inductive Ev where
  | arrive (r : Request)
  | exec (i : Nat) (p : Pc) (f : Fault)

inductive Step (c : Cfg) : Sys → Ev → Sys → Prop
  | arrive (s : Sys) (r : Request) : Step c s (.arrive r) ⟨s.st, s.procs ++ [r.pc c]⟩
  | exec (s : Sys) (i : Nat) (p : Pc) (f : Fault) (st : St) (p' : Pc) (sp : List Pc) :
      s.procs[i]? = some p → p.run c s.st f = some (st, p', sp) →
      Step c s (.exec i p f) ⟨st, s.procs.set i p' ++ sp⟩

/-! ## What one step does to the shared state -/

/-- The shared state after one step of a worker at `p`, by the statement it runs. -/
def Pc.stEff (c : Cfg) (s : St) (f : Fault) (s' : St) : Pc → Prop
  | .startLock _ => s.mutex = false ∧ s' = { s with mutex := true }
  | .startFindAll _ => s' = s ∨ s' = { s with mutex := false }
  | .startInsert req => s' = { s with mutex := false } ∨ (f = none ∧ s' = { (s.start req).2 with mutex := false })
  | .createTag _ _ ty nm => s' = s ∨ ∃ id, s.createTag ty nm = .ok (id, s')
  | .addTagInsert _ job tag => s' = s ∨ s.insertJobTag job tag = .ok s'
  | .removeTagDelete _ job tag => s' = s ∨ s' = s.deleteJobTag job tag
  | .tagUpdate _ _ _ j tags => s' = s ∨ s.updateTags j tags = .ok s'
  | .stopUpdate job req =>
    s' = s ∨ (f = none ∧ s' = s.stop job.id (stoppedJob job req).duration req.state job.monitoringStatus)
  | .archArchive job => s' = s ∨ s' = (s.archiveJob job (c.metrics job)).2
  | .archFailed job => s' = s.unlessFault f (s.updateMonitoringStatus job.id .archivingFailed)
  | .archFinal job stats => s' = s.unlessFault f (s.archiveRow job.id .archivingSuccessful stats)
  | .deleteById id _ => s' = s ∨ s.deleteJobById id.val = .ok s'
  | .deleteRow job => s' = s ∨ s.deleteJobById job.id = .ok s'
  | .deleteBefore ts => s' = s ∨ s' = (s.deleteJobsBefore ts).2
  | _ => s' = s

theorem run_stEff {c : Cfg} {s s' : St} {f : Fault} {p p' : Pc} {sp : List Pc}
    (h : p.run c s f = some (s', p', sp)) : p.stEff c s f s' := by
  cases p <;> simp only [Pc.run] at h <;> (repeat' split at h) <;>
    (try simp only [Option.some.injEq, Prod.mk.injEq] at h) <;>
    (try obtain ⟨rfl, -, -⟩ := h) <;> simp_all [Pc.stEff, fallible_eq_ok]

theorem Caller.ret_done {cl : Caller} {t : Int} {ts : List Tag} {r : Resp} (h : cl.ret t ts = .done r) :
    r = .tags ts := by
  cases cl with
  | orCreate k => cases k <;> cases h
  | resolver => cases h; rfl

/-- A step that answers with an error status writes nothing: at most it gives back the
    mutex, and it starts no goroutine. -/
theorem run_error_writes_nothing {c : Cfg} {s s' : St} {f : Fault} {p : Pc} {r : Resp} {sp : List Pc}
    (h : p.run c s f = some (s', .done r, sp)) (he : 400 ≤ r.status) :
    (s' = s ∨ s' = { s with mutex := false }) ∧ sp = [] := by
  cases p <;> simp only [Pc.run] at h <;> (repeat' split at h) <;>
    simp only [Option.some.injEq, Prod.mk.injEq, reduceCtorEq, false_and, and_false] at h <;>
    obtain ⟨rfl, hp, rfl⟩ := h <;>
    first
      | exact ⟨.inl rfl, rfl⟩
      | exact ⟨.inr rfl, rfl⟩
      | (cases hp; simp [Resp.status] at he)
      | (rw [Caller.ret_done hp] at he; simp [Resp.status] at he)

/-- The runs from the initial state whose every state satisfies `P`, with their history. -/
inductive Run (c : Cfg) (P : Sys → Prop) : Sys → List Ev → Prop
  | init : P Sys.init → Run c P Sys.init []
  | step {s s' : Sys} {h : List Ev} {e : Ev} : Run c P s h → Step c s e s' → P s' → Run c P s' (h ++ [e])

def Reach (c : Cfg) (s : Sys) (h : List Ev) : Prop := Run c (fun _ => True) s h

theorem Run.reach {c : Cfg} {P : Sys → Prop} {s : Sys} {h : List Ev} (hr : Run c P s h) : Reach c s h := by
  induction hr with
  | init _ => exact .init trivial
  | step _ hs _ ih => exact .step ih hs trivial

theorem Run.holds {c : Cfg} {P : Sys → Prop} {s : Sys} {h : List Ev} (hr : Run c P s h) : P s := by
  cases hr with
  | init hp => exact hp
  | step _ _ hp => exact hp

/-- An invariant of every reachable state: it holds initially and each step keeps it. -/
theorem Reach.induct {c : Cfg} (I : Sys → Prop) (h0 : I Sys.init)
    (hs : ∀ s e s' h, Reach c s h → I s → Step c s e s' → I s') {s : Sys} {h : List Ev}
    (hr : Reach c s h) : I s := by
  induction hr with
  | init => exact h0
  | step hr' st _ ih => exact hs _ _ _ _ hr' ih st

/-! ## Running a trace -/

/-- A scheduler's choice: a request arrives, or worker `i` runs with fault `f`. -/
inductive Act where
  | arrive (r : Request)
  | exec (i : Nat) (f : Fault)

/-- The step a choice takes, if it can. -/
def Sys.act (c : Cfg) (s : Sys) : Act → Option (Ev × Sys)
  | .arrive r => some (.arrive r, ⟨s.st, s.procs ++ [r.pc c]⟩)
  | .exec i f =>
    match s.procs[i]? with
    | some p => (p.run c s.st f).map fun r => (.exec i p f, ⟨r.1, s.procs.set i r.2.1 ++ r.2.2⟩)
    | none => none

def Sys.runActs (c : Cfg) : Sys → List Act → Option Sys
  | s, [] => some s
  | s, a :: as =>
    match s.act c a with
    | some (_, s') => s'.runActs c as
    | none => none

theorem Sys.act_step {c : Cfg} {s s' : Sys} {a : Act} {e : Ev} (h : s.act c a = some (e, s')) :
    Step c s e s' := by
  cases a with
  | arrive r => cases h; exact .arrive s r
  | exec i f =>
    simp only [Sys.act] at h
    split at h
    · rename_i p hp
      obtain ⟨⟨st, p', sp⟩, hr, he⟩ := Option.map_eq_some'.mp h
      cases he
      exact .exec s i p f st p' sp hp hr
    · cases h

/-- A trace of choices that runs from a reachable state reaches its end, later in the same run. -/
theorem Reach.runActs {c : Cfg} {s s' : Sys} {h : List Ev} (hr : Reach c s h) {as : List Act}
    (hrun : s.runActs c as = some s') : ∃ h', Reach c s' (h ++ h') := by
  induction as generalizing s h with
  | nil => cases hrun; exact ⟨[], by simpa using hr⟩
  | cons a as ih =>
    simp only [Sys.runActs] at hrun
    split at hrun
    · rename_i e t ha
      obtain ⟨h', hr'⟩ := ih (Run.step hr (Sys.act_step ha) trivial) hrun
      exact ⟨e :: h', by simpa using hr'⟩
    · cases hrun

theorem Sys.runActs_append (c : Cfg) (s : Sys) (as bs : List Act) :
    s.runActs c (as ++ bs) = (s.runActs c as).bind (·.runActs c bs) := by
  induction as generalizing s with
  | nil => rfl
  | cons a as ih => simp only [List.cons_append, Sys.runActs]; split <;> simp [ih]

/-- The state a trace of choices reaches from the initial state. -/
def Sys.trace (c : Cfg) (as : List Act) : Sys := (Sys.init.runActs c as).getD Sys.init

theorem Reach.trace {c : Cfg} {as : List Act} (h : (Sys.init.runActs c as).isSome = true) :
    ∃ hist, Reach c (Sys.trace c as) hist := by
  obtain ⟨s, hs⟩ := Option.isSome_iff_exists.mp h
  simpa [Sys.trace, hs] using Reach.runActs (.init trivial) hs

/-- A trace and its extension reach two states of one run, the second after the first. -/
theorem Reach.trace_append {c : Cfg} {as bs : List Act} (h : (Sys.init.runActs c (as ++ bs)).isSome = true) :
    ∃ h₁ h₂, Reach c (Sys.trace c as) h₁ ∧ Reach c (Sys.trace c (as ++ bs)) (h₁ ++ h₂) := by
  rw [Sys.runActs_append] at h
  obtain ⟨s₂, hs₂⟩ := Option.isSome_iff_exists.mp h
  obtain ⟨s₁, hs₁, hs₁₂⟩ := Option.bind_eq_some.mp hs₂
  obtain ⟨h₁, hr₁⟩ := Reach.runActs (.init trivial) hs₁
  obtain ⟨h₂, hr₂⟩ := Reach.runActs hr₁ hs₁₂
  refine ⟨h₁, h₂, by simpa [Sys.trace, hs₁] using hr₁, ?_⟩
  simpa [Sys.trace, Sys.runActs_append, hs₁, hs₁₂] using hr₂

/-- The last choice of a trace that runs is a step from the state before it. -/
theorem Step.trace_snoc {c : Cfg} {as : List Act} {a : Act} (h : (Sys.init.runActs c (as ++ [a])).isSome = true) :
    ∃ e, Step c (Sys.trace c as) e (Sys.trace c (as ++ [a])) := by
  rw [Sys.runActs_append] at h
  obtain ⟨s₂, hs₂⟩ := Option.isSome_iff_exists.mp h
  obtain ⟨s₁, hs₁, hs₁₂⟩ := Option.bind_eq_some.mp hs₂
  simp only [Sys.runActs] at hs₁₂
  split at hs₁₂
  · rename_i e t ha
    cases hs₁₂
    refine ⟨e, ?_⟩
    simpa [Sys.trace, Sys.runActs_append, hs₁, Sys.runActs, ha] using Sys.act_step ha
  · cases hs₁₂

/-- A trace of choices run from `s` while every state it reaches satisfies `P`. -/
def Sys.runWhile (c : Cfg) (P : Sys → Prop) [DecidablePred P] : Sys → List Act → Option Sys
  | s, [] => some s
  | s, a :: as =>
    match s.act c a with
    | some (_, s') => if P s' then s'.runWhile c P as else none
    | none => none

/-- A trace that keeps to `P` runs as a run of such states continued. -/
theorem Run.runWhile {c : Cfg} {P : Sys → Prop} [DecidablePred P] {s s' : Sys} {h : List Ev} (hr : Run c P s h)
    {as : List Act} (hrun : s.runWhile c P as = some s') : s.runActs c as = some s' ∧ ∃ h', Run c P s' (h ++ h') := by
  induction as generalizing s h with
  | nil => cases hrun; exact ⟨rfl, [], by simpa using hr⟩
  | cons a as ih =>
    simp only [Sys.runWhile] at hrun
    split at hrun
    · rename_i e t ha
      split at hrun
      · obtain ⟨e1, h', hr'⟩ := ih (Run.step hr (Sys.act_step ha) ‹_›) hrun
        exact ⟨by simp [Sys.runActs, ha, e1], e :: h', by simpa using hr'⟩
      · cases hrun
    · cases hrun

/-- A trace from the initial state that keeps to `P` reaches its end in a run of such states. -/
theorem Run.trace {c : Cfg} {P : Sys → Prop} [DecidablePred P] {as : List Act} (h0 : P Sys.init)
    (h : (Sys.init.runWhile c P as).isSome = true) : ∃ hist, Run c P (Sys.trace c as) hist := by
  obtain ⟨s, hs⟩ := Option.isSome_iff_exists.mp h
  obtain ⟨hacts, hist, hr⟩ := Run.runWhile (.init h0) hs
  exact ⟨hist, by simpa [Sys.trace, hacts] using hr⟩

/-- The server's steps from one state to another, any number of them. -/
def Steps (c : Cfg) : Sys → Sys → Prop := Relation.ReflTransGen fun s s' => ∃ e, Step c s e s'

theorem Steps.runActs {c : Cfg} {s s' : Sys} {as : List Act} (h : s.runActs c as = some s') : Steps c s s' := by
  induction as generalizing s with
  | nil => cases h; exact .refl
  | cons a as ih =>
    simp only [Sys.runActs] at h
    split at h
    · rename_i e s₁ ha
      exact .head ⟨e, Sys.act_step ha⟩ (ih h)
    · cases h

/-- A worker's step, and more steps after it. -/
theorem Steps.exec_head {c : Cfg} {s s' : Sys} {i : Nat} {p p' : Pc} {f : Fault} {st : St} {sp : List Pc}
    (hget : s.procs[i]? = some p) (hrun : p.run c s.st f = some (st, p', sp))
    (h : Steps c ⟨st, s.procs.set i p' ++ sp⟩ s') : Steps c s s' :=
  .head ⟨_, .exec s i p f st p' sp hget hrun⟩ h

/-- A trace and its extension are two states of one run, the second after the first. -/
theorem Steps.trace_append {c : Cfg} {as bs : List Act} (h : (Sys.init.runActs c (as ++ bs)).isSome = true) :
    Steps c (Sys.trace c as) (Sys.trace c (as ++ bs)) := by
  rw [Sys.runActs_append] at h
  obtain ⟨s₂, hs₂⟩ := Option.isSome_iff_exists.mp h
  obtain ⟨s₁, hs₁, hs₁₂⟩ := Option.bind_eq_some.mp hs₂
  simpa [Sys.trace, Sys.runActs_append, hs₁, hs₁₂] using Steps.runActs hs₁₂

/-- A deployment whose sanity checks accept every job and whose metric backends return
    no data. -/
def Cfg.plain : Cfg := ⟨fun _ => none, fun _ => []⟩

/-- A start request of the job in the API's examples (job id 123000 on `fritz`), started at `t`. -/
def startAt (t : I64) : JobMeta :=
  { jobId := 123000, user := "user1", project := "", cluster := "fritz", partition := "",
    numNodes := 1, numHWThreads := 1, numAcc := 0, startTime := t, duration := 0, walltime := 0,
    state := .running, monitoringStatus := .runningOrArchiving, metaData := [], tags := [] }

/-! ## A worker alone -/

/-- A worker run alone and without faults for at most `n` steps: the state and where it
    stopped. The goroutines it starts are not run. -/
def Pc.solo (c : Cfg) : Nat → St → Pc → St × Pc
  | 0, s, p => (s, p)
  | n + 1, s, p =>
    match p.run c s none with
    | some (s', p', _) => Pc.solo c n s' p'
    | none => (s, p)

theorem Pc.solo_step {c : Cfg} {n : Nat} {s s' : St} {p p' : Pc} {sp : List Pc}
    (h : p.run c s none = some (s', p', sp)) : Pc.solo c (n + 1) s p = Pc.solo c n s' p' := by
  simp [Pc.solo, h]

/-- A handler that has answered stays where it is. -/
@[simp] theorem Pc.solo_done (c : Cfg) (n : Nat) (s : St) (r : Resp) : Pc.solo c n s (.done r) = (s, .done r) := by
  cases n <;> rfl

end CcBackend
