import CcBackend.System
import Mathlib.Algebra.Order.Group.Unbundled.Int
import Mathlib.Data.List.Nodup
import Mathlib.Tactic.NormNum.Basic
import Mathlib.Tactic.SplitIfs
/-
  CcBackend.Invariant — what every reachable state of the server satisfies.

  `Inv` has four parts: the tables are well formed (row ids below the next id and
  distinct, no two tags of one type and name); `RepositoryMutex` is held exactly when
  one `startJob` worker is between `FindAll` and `Start`; no two jobs with one job id
  and cluster started less than a day apart; and each worker's own facts hold
  (`Pc.Ok`): the duplicate check of a `startJob` about to insert is still true, a stop
  handler about to `Stop` read a running job, an archiving goroutine's job is not
  disabled, and an `AddTagOrCreate` holds the id of the tag of its type and name.

  The proof goes one step at a time. What a step does to the rows is said once
  (`Change`, `Change.row`); the stepping worker reaches a point whose facts hold
  (`run_ok`), and no step breaks the facts of another worker (`ok_stable`), the mutex
  keeping a second `startJob` from inserting between a check and its insert.
-/

namespace CcBackend

/-! ## The invariant -/

/-- The ids of the job rows are below the next id and distinct; no two tags share a
    type and name. -/
structure St.WF (s : St) : Prop where
  idLt : ∀ r ∈ s.jobs, r.id < s.nextId
  idNodup : (s.jobs.map (·.id)).Nodup
  tagKeyNodup : (s.tags.map Tag.key).Nodup

/-- Two start times a day or more apart, as integers. -/
def farApart (a b : I64) : Prop := 86400 ≤ |a.val - b.val|

theorem farApart_iff {a b : I64} : farApart a b ↔ 86400 ≤ a.val - b.val ∨ 86400 ≤ b.val - a.val := by
  unfold farApart
  rw [le_abs]
  omega

theorem farApart_comm {a b : I64} : farApart a b ↔ farApart b a := by
  simp only [farApart_iff]; omega

/-- `startJob`'s check `req.StartTime - job.StartTimeUnix < 86400` on `int64` passes only
    for start times a day or more apart. -/
theorem farApart_of_check {a b : I64} (h : ¬(a - b).val < 86400) : farApart a b := by
  have ha := a.range
  have hb := b.range
  simp only [IntN.sub_val, Int.bmod_def] at h
  norm_num at h ha hb
  rw [farApart_iff]
  split at h <;> omega

/-- The natural key of a row. -/
def JobRow.key (r : JobRow) : I64 × String × I64 := (r.jobId, r.cluster, r.startTime)

/-- Two natural keys that may both be stored: another job id or cluster, or start times
    a day or more apart. -/
def KeysApart (a b : I64 × String × I64) : Prop := a.1 = b.1 → a.2.1 = b.2.1 → farApart a.2.2 b.2.2

def NoNearDuplicates (jobs : List JobRow) : Prop := (jobs.map JobRow.key).Pairwise KeysApart

/-- A `startJob` worker between taking and releasing `RepositoryMutex`. -/
def Pc.holder : Pc → Bool
  | .startFindAll _ | .startInsert _ => true
  | _ => false

/-- The steps of `startJob` that take, hold or give back `RepositoryMutex`. -/
def Pc.locking : Pc → Bool
  | .startLock _ | .startFindAll _ | .startInsert _ => true
  | _ => false

/-- The duplicate check of a `startJob` about to insert `req` holds of the rows. -/
def CheckedFar (s : St) (req : JobMeta) : Prop :=
  ∀ r ∈ s.jobs, r.jobId = req.jobId → r.cluster = req.cluster → farApart r.startTime req.startTime

/-- A stop handler about to `Stop`: the job it read was running and started before the
    stop time, the final state is valid, and the row's monitoring status is disabled
    exactly when the one read is. -/
structure StopOk (s : St) (job : Job) (req : StopJobApiRequest) : Prop where
  running : job.state = .running
  before : job.startTime.val < req.stopTime.val
  valid : req.state.valid = true
  idLt : job.id < s.nextId
  disabled : ∀ r ∈ s.jobs, r.id = job.id → (r.monitoringStatus = .disabled ↔ job.monitoringStatus = .disabled)

/-- An archiving goroutine's job: neither it nor its row is disabled. -/
structure TaskOk (s : St) (job : Job) : Prop where
  notDisabled : job.monitoringStatus ≠ .disabled
  idLt : job.id < s.nextId
  rowNotDisabled : ∀ r ∈ s.jobs, r.id = job.id → r.monitoringStatus ≠ .disabled

/-- Inside `AddTagOrCreate(job, type, name)`: `tag` is the id of a tag of that type and name. -/
def Caller.TagOk (s : St) (tag : Int) : Caller → Prop
  | .orCreate _ ty nm => ∃ t ∈ s.tags, t.id = tag ∧ t.type = ty ∧ t.name = nm
  | .resolver => True

/-- The facts a worker at `p` relies on. -/
def Pc.Ok (s : St) : Pc → Prop
  | .startInsert req => CheckedFar s req
  | .stopUpdate job req => StopOk s job req
  | .archFetch job | .archArchive job | .archFailed job => TaskOk s job
  | .archFinal job _ => TaskOk s job ∧ (s.archive job.id).isSome
  | .addTagInsert cl _ tag | .removeTagDelete cl _ tag | .tagFindById cl _ tag
  | .tagGetTags cl _ tag _ | .tagUpdate cl _ tag _ _ => cl.TagOk s tag
  | _ => True

structure Inv (s : Sys) : Prop where
  wf : s.st.WF
  mutex : s.procs.countP Pc.holder = if s.st.mutex then 1 else 0
  noDup : NoNearDuplicates s.st.jobs
  pcs : ∀ p ∈ s.procs, p.Ok s.st

/-! ## What a step does to the rows -/

/-- The row `r'` is the row `r` as the write of a worker at `p` left it. -/
def Pc.Writes (r r' : JobRow) : Pc → Prop
  | .stopUpdate job req => job.id = r.id ∧
      r' = { r with duration := (stoppedJob job req).duration, state := req.state,
                    monitoringStatus := job.monitoringStatus }
  | .archFailed job => job.id = r.id ∧ r' = { r with monitoringStatus := .archivingFailed }
  | .archFinal job stats => job.id = r.id ∧
      r' = { r with monitoringStatus := .archivingSuccessful, statistics := some stats }
  | _ => False

/-- No write moves a row's id or natural key. -/
theorem Pc.Writes.key_id {p : Pc} {r r' : JobRow} (h : p.Writes r r') : r'.key = r.key ∧ r'.id = r.id := by
  cases p <;> simp only [Pc.Writes] at h <;> obtain ⟨-, rfl⟩ := h <;> exact ⟨rfl, rfl⟩

theorem St.update_map {β : Type} {s : St} {id : Int} {g : JobRow → JobRow} (φ : JobRow → β)
    (h : ∀ r, r.id = id → φ (g r) = φ r) : (s.update id g).jobs.map φ = s.jobs.map φ := by
  simp only [St.update_jobs, List.map_map]
  exact List.map_congr_left fun r _ => by by_cases e : r.id = id <;> simp [e, h]

/-- The kinds of change one step makes to the shared state: only the lock steps of
    `startJob` move the mutex, only its `Start` inserts a job, and a row is rewritten only
    by a write the stepping worker makes. -/
inductive Change (p : Pc) (s : St) : St → Prop
  | none : Change p s s
  | mutex (b : Bool) : (p.holder = true ∨ ∃ req, p = .startLock req) → Change p s { s with mutex := b }
  | insert (req : JobMeta) : p = .startInsert req → Change p s { (s.start req).2 with mutex := false }
  | createTag (ty nm : String) : (∀ t ∈ s.tags, ¬(t.type = ty ∧ t.name = nm)) →
      Change p s { s with tags := s.tags ++ [⟨s.nextTagId, ty, nm⟩], nextTagId := s.nextTagId + 1 }
  | jobtag (jt : List (Int × Int)) :
      (∀ x ∈ jt, x ∈ s.jobtag ∨ ∃ cl job tag, p = .addTagInsert cl job tag ∧ x = (job, tag)) →
      Change p s { s with jobtag := jt }
  | archive (a : Int → Option ArchiveMeta) : (∀ k, (s.archive k).isSome → (a k).isSome) →
      Change p s { s with archive := a }
  | update (id : Int) (g : JobRow → JobRow) : (∀ r, r.id = id → p.Writes r (g r)) →
      Change p s (s.update id g)
  | delete (q : JobRow → Bool) : Change p s { s with jobs := s.jobs.filter q }

theorem St.unlessFault_cases (s s' : St) (f : Fault) : s.unlessFault f s' = s ∨ s.unlessFault f s' = s' := by
  unfold St.unlessFault; split <;> simp

theorem Change.unlessFault {p : Pc} {s s' : St} (f : Fault) (h : Change p s s') :
    Change p s (s.unlessFault f s') := by
  rcases St.unlessFault_cases s s' f with e | e <;> rw [e]
  · exact .none
  · exact h

theorem upd_isSome {β : Type} {a : Int → Option β} {k j : Int} {b : β} (h : (a k).isSome) :
    (upd a j (some b) k).isSome := by
  by_cases e : k = j <;> simp [upd, e, h]

theorem stEff_change {c : Cfg} {s s' : St} {f : Fault} {p : Pc} (he : p.stEff c s f s') : Change p s s' := by
  cases p <;> simp only [Pc.stEff] at he
  case startLock => exact he.2 ▸ .mutex true (.inr ⟨_, rfl⟩)
  case startFindAll => rcases he with rfl | rfl; exacts [.none, .mutex false (.inl rfl)]
  case startInsert req => rcases he with rfl | ⟨-, rfl⟩; exacts [.mutex false (.inl rfl), .insert req rfl]
  case createTag =>
    rcases he with rfl | ⟨_, h⟩
    · exact .none
    · obtain ⟨-, rfl, hn⟩ := St.createTag_ok h; exact .createTag _ _ hn
  case addTagInsert =>
    rcases he with rfl | h
    · exact .none
    · rw [(St.insertJobTag_ok h).2]
      exact .jobtag _ fun x hx => (List.mem_append.mp hx).imp_right fun e => ⟨_, _, _, rfl, List.mem_singleton.mp e⟩
  case removeTagDelete =>
    rcases he with rfl | rfl
    exacts [.none, .jobtag _ fun x hx => .inl (List.mem_filter.mp hx).1]
  case tagUpdate =>
    rcases he with rfl | h
    · exact .none
    · rcases St.updateTags_ok h with rfl | ⟨m, _, rfl⟩
      exacts [.none, .archive _ fun _ => upd_isSome]
  case stopUpdate => rcases he with rfl | ⟨-, rfl⟩; exacts [.none, .update _ _ fun _ h => ⟨h.symm, rfl⟩]
  case archArchive => rcases he with rfl | rfl; exacts [.none, .archive _ fun _ => upd_isSome]
  case archFailed => exact he ▸ Change.unlessFault f (.update _ _ fun _ h => ⟨h.symm, rfl⟩)
  case archFinal => exact he ▸ Change.unlessFault f (.update _ _ fun _ h => ⟨h.symm, rfl⟩)
  case deleteById =>
    rcases he with rfl | h
    · exact .none
    · rw [St.deleteJobById_ok h]; exact .delete _
  case deleteRow =>
    rcases he with rfl | h
    · exact .none
    · rw [St.deleteJobById_ok h]; exact .delete _
  case deleteBefore => rcases he with rfl | rfl; exacts [.none, .delete _]
  all_goals exact he ▸ .none

section Change

variable {p : Pc} {s s' : St}

/-- Each row after a step is a row before it, the row `startJob` inserted, or a row the
    stepping worker rewrote. -/
theorem Change.row (h : Change p s s') : ∀ r' ∈ s'.jobs, r' ∈ s.jobs ∨
    (∃ req, p = .startInsert req ∧ r' = req.toRow s.nextId) ∨ ∃ r ∈ s.jobs, r.id = r'.id ∧ p.Writes r r' := by
  intro r' hr
  cases h
  case insert req hp =>
    rcases List.mem_append.mp hr with h | h
    · exact .inl h
    · exact .inr (.inl ⟨req, hp, List.mem_singleton.mp h⟩)
  case update id g hw =>
    obtain ⟨r, hr0, rfl⟩ := List.mem_map.mp hr
    by_cases e : r.id = id
    · simp only [e, if_true]; exact .inr (.inr ⟨r, hr0, (hw r e).key_id.2.symm, hw r e⟩)
    · simp only [e, if_false]; exact .inl hr0
  case delete => exact .inl (List.mem_filter.mp hr).1
  all_goals exact .inl hr

theorem Change.nextId_le (h : Change p s s') : s.nextId ≤ s'.nextId := by
  cases h <;> simp

theorem Change.tags_sub (h : Change p s s') : ∀ t ∈ s.tags, t ∈ s'.tags := by
  cases h <;> simp +contextual

theorem Change.nextTagId_le (h : Change p s s') : s.nextTagId ≤ s'.nextTagId := by
  cases h <;> first | exact le_refl _ | simp

/-- An association after a step was there before, or is the one the stepping `AddTag` inserted. -/
theorem Change.jobtag_mem (h : Change p s s') :
    ∀ x ∈ s'.jobtag, x ∈ s.jobtag ∨ ∃ cl job tag, p = .addTagInsert cl job tag ∧ x = (job, tag) := by
  cases h
  case jobtag hjt => exact hjt
  all_goals exact fun _ hx => .inl hx

theorem Change.archive_isSome (h : Change p s s') (k : Int) : (s.archive k).isSome → (s'.archive k).isSome := by
  cases h
  case archive a ha => exact ha k
  all_goals exact id

theorem Change.mutex_eq (h : Change p s s') : s'.mutex = s.mutex ∨ p.holder = true ∨ ∃ req, p = .startLock req := by
  cases h
  case mutex hp => exact .inr hp
  case insert req hp => exact .inr (.inl (hp ▸ rfl))
  all_goals exact .inl rfl

theorem Change.wf (hw : s.WF) (h : Change p s s') : s'.WF := by
  cases h
  case insert req _ =>
    refine ⟨fun r hr => ?_, ?_, hw.tagKeyNodup⟩
    · rcases List.mem_append.mp hr with hr | hr
      · have := hw.idLt r hr; simp only [St.start_nextId]; omega
      · rw [List.mem_singleton.mp hr]; simp [JobMeta.toRow]
    · simp only [St.start_jobs, List.map_append, List.map_singleton]
      refine List.nodup_append.mpr ⟨hw.idNodup, List.nodup_singleton _, fun a ha hb => ?_⟩
      obtain ⟨r, hr, rfl⟩ := List.mem_map.mp ha
      have := hw.idLt r hr
      simp [JobMeta.toRow] at hb; omega
  case createTag ty nm hn =>
    refine ⟨hw.idLt, hw.idNodup, ?_⟩
    simp only [List.map_append, List.map_singleton]
    refine List.nodup_append.mpr ⟨hw.tagKeyNodup, List.nodup_singleton _, fun a ha hb => ?_⟩
    obtain ⟨t, ht, rfl⟩ := List.mem_map.mp ha
    simp only [Tag.key, List.mem_singleton, Prod.mk.injEq] at hb
    exact hn t ht hb
  case update id g hw' =>
    refine ⟨fun r' hr => ?_, ?_, hw.tagKeyNodup⟩
    · obtain ⟨r, hr0, rfl⟩ := List.mem_map.mp hr
      have := hw.idLt r hr0
      simp only [St.update_nextId]
      split
      · rwa [(hw' r ‹_›).key_id.2]
      · exact this
    · rw [St.update_map (·.id) fun r e => (hw' r e).key_id.2]; exact hw.idNodup
  case delete =>
    exact ⟨fun r hr => hw.idLt r (List.mem_filter.mp hr).1,
      hw.idNodup.sublist ((List.filter_sublist _).map _), hw.tagKeyNodup⟩
  all_goals exact ⟨hw.idLt, hw.idNodup, hw.tagKeyNodup⟩

/-- Only an insert whose duplicate check still holds adds a key; rewrites keep keys,
    deletions drop some. -/
theorem Change.noDup (hn : NoNearDuplicates s.jobs) (hc : ∀ req, p = .startInsert req → CheckedFar s req)
    (h : Change p s s') : NoNearDuplicates s'.jobs := by
  unfold NoNearDuplicates at *
  cases h
  case insert req hp =>
    simp only [St.start_jobs, List.map_append, List.map_singleton, List.pairwise_append]
    refine ⟨hn, List.pairwise_singleton _ _, fun a ha b hb => ?_⟩
    obtain ⟨r, hr, rfl⟩ := List.mem_map.mp ha
    rw [List.mem_singleton.mp hb]
    exact hc req hp r hr
  case update id g hw => rw [St.update_map JobRow.key fun r e => (hw r e).key_id.1]; exact hn
  case delete => exact hn.sublist ((List.filter_sublist _).map _)
  all_goals exact hn

end Change

/-! ## Which facts a write keeps -/

/-- A write keeps whether its row is disabled. -/
theorem Pc.Writes.disabled {p : Pc} {s : St} {r r' : JobRow} (hp : p.Ok s) (hr : r ∈ s.jobs) (hw : p.Writes r r') :
    r'.monitoringStatus = .disabled ↔ r.monitoringStatus = .disabled := by
  cases p <;> simp only [Pc.Writes] at hw <;> obtain ⟨e, rfl⟩ := hw
  case stopUpdate => exact (hp.disabled r hr e.symm).symm
  case archFailed => simp [(hp.rowNotDisabled r hr e.symm)]
  case archFinal => simp [(hp.1.rowNotDisabled r hr e.symm)]

section Stable

variable {p : Pc} {s s' : St}

/-- Each row of an older job keeps whether it is disabled. -/
theorem Change.disabled (hp : p.Ok s) (h : Change p s s') {r' : JobRow} (hr' : r' ∈ s'.jobs)
    (hlt : r'.id < s.nextId) : ∃ r ∈ s.jobs, r.id = r'.id ∧
      (r'.monitoringStatus = .disabled ↔ r.monitoringStatus = .disabled) := by
  rcases h.row r' hr' with hr | ⟨req, -, rfl⟩ | ⟨r, hr, e, hw⟩
  · exact ⟨r', hr, rfl, .rfl⟩
  · simp [JobMeta.toRow] at hlt
  · exact ⟨r, hr, e, hw.disabled hp hr⟩

theorem StopOk.stable {job : Job} {req : StopJobApiRequest} (hq : StopOk s job req) (hp : p.Ok s)
    (h : Change p s s') : StopOk s' job req := by
  refine ⟨hq.running, hq.before, hq.valid, lt_of_lt_of_le hq.idLt h.nextId_le, fun r' hr' e => ?_⟩
  obtain ⟨r, hr, e', hd⟩ := h.disabled hp hr' (e ▸ hq.idLt)
  exact hd.trans (hq.disabled r hr (e'.trans e))

theorem TaskOk.stable {job : Job} (hq : TaskOk s job) (hp : p.Ok s) (h : Change p s s') : TaskOk s' job := by
  refine ⟨hq.notDisabled, lt_of_lt_of_le hq.idLt h.nextId_le, fun r' hr' e => ?_⟩
  obtain ⟨r, hr, e', hd⟩ := h.disabled hp hr' (e ▸ hq.idLt)
  exact fun h' => hq.rowNotDisabled r hr (e'.trans e) (hd.mp h')

/-- The duplicate check stays true while no other job is inserted. -/
theorem CheckedFar.stable {req : JobMeta} (hq : CheckedFar s req) (hi : ∀ req', p ≠ .startInsert req')
    (h : Change p s s') : CheckedFar s' req := by
  intro r' hr'
  rcases h.row r' hr' with hr | ⟨req', hp, -⟩ | ⟨r, hr, -, hw⟩
  · exact hq r' hr
  · exact absurd hp (hi req')
  · have hk := hw.key_id.1
    simp only [JobRow.key, Prod.mk.injEq] at hk
    rw [hk.1, hk.2.1, hk.2.2]
    exact hq r hr

theorem Caller.TagOk.mono {cl : Caller} {tag : Int} (h : ∀ t ∈ s.tags, t ∈ s'.tags) :
    cl.TagOk s tag → cl.TagOk s' tag := by
  cases cl
  · rintro ⟨t, ht, e⟩; exact ⟨t, h t ht, e⟩
  · exact id

/-- Another worker's step keeps a worker's facts; a second holder of the mutex is what
    would break the duplicate check, and there is none. -/
theorem Pc.Ok.stable {q : Pc} (hq : q.Ok s) (hp : p.Ok s) (h : Change p s s')
    (hx : q.holder = true → p.holder = false) : q.Ok s' := by
  cases q <;> simp only [Pc.Ok] at hq ⊢
  case startInsert => exact hq.stable (fun req e => by simp [e, Pc.holder] at hx) h
  case stopUpdate => exact hq.stable hp h
  case archFetch => exact hq.stable hp h
  case archArchive => exact hq.stable hp h
  case archFailed => exact hq.stable hp h
  case archFinal job _ => exact ⟨hq.1.stable hp h, h.archive_isSome _ hq.2⟩
  all_goals first | trivial | exact Caller.TagOk.mono h.tags_sub hq

end Stable

/-! ## The stepping worker -/

theorem St.WF.eq_of_id {s : St} {r r' : JobRow} (hw : s.WF) (hr : r ∈ s.jobs) (hr' : r' ∈ s.jobs)
    (e : r.id = r'.id) : r = r' :=
  List.inj_on_of_nodup_map hw.idNodup hr hr' e

@[simp] theorem Loop.fail_ok (k : Loop) (e : DbErr) (s : St) : (k.fail e).Ok s := by cases k <;> trivial
@[simp] theorem Caller.fail_ok (cl : Caller) (e : DbErr) (s : St) : (cl.fail e).Ok s := by
  cases cl with
  | orCreate k => exact k.fail_ok e s
  | resolver => trivial
@[simp] theorem Caller.ret_ok (cl : Caller) (t : Int) (ts : List Tag) (s : St) : (cl.ret t ts).Ok s := by
  cases cl with
  | orCreate k => cases k <;> trivial
  | resolver => trivial

/-- What a stop handler holds after reading a running row and passing the checks. -/
theorem StopOk.of_row {s : St} {r : JobRow} {req : StopJobApiRequest} (hw : s.WF) (hr : r ∈ s.jobs)
    (hrun : r.state = .running) (hb : r.startTime.val < req.stopTime.val) (hv : req.state.valid = true) :
    StopOk s r.toJob req :=
  ⟨hrun, hb, hv, hw.idLt r hr, fun r' hr' e => by rw [hw.eq_of_id hr' hr e]; rfl⟩

theorem checkAndHandleStopJob_ok {s : St} {r : JobRow} {req : StopJobApiRequest} (hw : s.WF) (hr : r ∈ s.jobs) :
    (checkAndHandleStopJob r.toJob req).Ok s := by
  unfold checkAndHandleStopJob
  split
  · trivial
  rename_i h1
  simp only [not_or, not_le, ne_eq, not_not] at h1
  split
  · trivial
  split
  · exact StopOk.of_row hw hr h1.2 h1.1 rfl
  · rename_i h2 h3
    exact StopOk.of_row hw hr h1.2 h1.1 (by simpa [h3] using h2)

/-- A duplicate check that found no job within a day leaves a check that holds. -/
theorem CheckedFar.of_find {s : St} {req : JobMeta}
    (h : (s.findAll req.jobId req.cluster).find? (fun j => decide ((req.startTime - j.startTime).val < 86400)) = none) :
    CheckedFar s req := by
  intro r hr e1 e2
  have := List.find?_eq_none.mp h r.toJob (List.mem_map.mpr ⟨r, List.mem_filter.mpr ⟨hr, by simp [e1, e2]⟩, rfl⟩)
  exact farApart_comm.mp (farApart_of_check (by simpa using this))

theorem TaskOk.of_stop {s s' : St} {job : Job} {req : StopJobApiRequest} (hp : StopOk s job req)
    (hd : job.monitoringStatus ≠ .disabled) (hc : Change (.stopUpdate job req) s s') :
    TaskOk s' (stoppedJob job req) := by
  refine ⟨hd, lt_of_lt_of_le hp.idLt hc.nextId_le, fun r' hr' e => ?_⟩
  have hp' : Pc.Ok s (.stopUpdate job req) := hp
  obtain ⟨r, hr, e', hdis⟩ := hc.disabled hp' hr' (e ▸ hp.idLt)
  exact fun h => hd ((hp.disabled r hr (e'.trans e)).mp (hdis.mp h))


/-- The stepping worker reaches a point whose facts hold, and so does any goroutine it starts. -/
theorem run_ok {c : Cfg} {s s' : St} {f : Fault} {p p' : Pc} {sp : List Pc} (hw : s.WF) (hp : p.Ok s)
    (h : p.run c s f = some (s', p', sp)) : p'.Ok s' ∧ ∀ q ∈ sp, q.Ok s' := by
  have hc := stEff_change (run_stEff h)
  cases p <;> simp only [Pc.run] at h <;> (repeat' split at h) <;>
    (try simp only [Option.some.injEq, Prod.mk.injEq] at h) <;> (try obtain ⟨rfl, rfl, rfl⟩ := h) <;>
    (try simp only [Loop.fail_ok, Caller.fail_ok, Caller.ret_ok, List.not_mem_nil, IsEmpty.forall_iff,
      implies_true, and_true, true_and]) <;> (try simp only [Pc.Ok])
  case startFindAll.h_1 => exact absurd ‹_› fallible_ne_noRows
  case startFindAll.h_3.h_2 =>
    rename_i hjobs _ hfind
    obtain ⟨-, ⟨⟩⟩ := fallible_eq_ok.mp hjobs
    exact CheckedFar.of_find hfind
  case tagIdLookup.h_1 hid =>
    split at hid
    · cases hid
    · exact St.tagId_some hid
  case createTag.h_2 hct =>
    obtain ⟨-, hct⟩ := fallible_eq_ok.mp hct
    obtain ⟨rfl, rfl, -⟩ := St.createTag_ok hct
    exact ⟨_, List.mem_append_right _ (List.mem_singleton_self _), rfl, rfl, rfl⟩
  case stopFindById.h_2 hj =>
    obtain ⟨r, hr, -, rfl⟩ := St.findById_ok (fallible_eq_ok.mp hj).2
    exact checkAndHandleStopJob_ok hw hr
  case stopFind.h_2 hj =>
    obtain ⟨r, hr, -, rfl⟩ := St.find_ok (fallible_eq_ok.mp hj).2
    exact checkAndHandleStopJob_ok hw hr
  case stopUpdate.h_2.isFalse hd =>
    refine ⟨trivial, fun q hq => ?_⟩
    rw [List.mem_singleton.mp hq]
    exact TaskOk.of_stop hp (by simpa using hd) hc
  case archFetch.h_2 hj =>
    obtain ⟨md, rfl⟩ := St.fetchMetadata_ok (fallible_eq_ok.mp hj).2
    exact ⟨hp.notDisabled, hp.idLt, hp.rowNotDisabled⟩
  case archArchive.h_2 he =>
    simp only [fallible_eq_ok, Except.ok.injEq, Prod.ext_iff] at he
    refine ⟨TaskOk.stable hp hp hc, ?_⟩
    rw [← he.2.2]
    simp
  all_goals first
    | exact Caller.TagOk.mono hc.tags_sub hp
    | exact TaskOk.stable hp hp hc

@[simp] theorem Loop.fail_holder (k : Loop) (e : DbErr) : (k.fail e).holder = false := by cases k <;> rfl
@[simp] theorem Caller.fail_holder (cl : Caller) (e : DbErr) : (cl.fail e).holder = false := by
  cases cl with
  | orCreate k => exact k.fail_holder e
  | resolver => rfl
@[simp] theorem Caller.ret_holder (cl : Caller) (t : Int) (ts : List Tag) : (cl.ret t ts).holder = false := by
  cases cl with
  | orCreate k => cases k <;> rfl
  | resolver => rfl
@[simp] theorem checkAndHandleStopJob_holder (job : Job) (req : StopJobApiRequest) :
    (checkAndHandleStopJob job req).holder = false := by
  unfold checkAndHandleStopJob; split_ifs <;> rfl

/-- No goroutine starts holding the mutex, and only `startJob`'s steps lead into it. -/
theorem run_next_holder {c : Cfg} {s s' : St} {f : Fault} {p p' : Pc} {sp : List Pc}
    (h : p.run c s f = some (s', p', sp)) : (∀ q ∈ sp, q.holder = false) ∧ (p.locking = false → p'.holder = false) := by
  cases p <;> simp only [Pc.run] at h <;> (repeat' split at h) <;>
    (try simp only [Option.some.injEq, Prod.mk.injEq] at h) <;> (try obtain ⟨rfl, rfl, rfl⟩ := h) <;>
    refine ⟨fun q hq => ?_, fun hl => ?_⟩ <;>
    first
      | (rw [List.mem_singleton.mp hq]; rfl)
      | cases hq
      | rfl
      | simp only [Loop.fail_holder, Caller.fail_holder, Caller.ret_holder, checkAndHandleStopJob_holder]
      | cases hl

/-- Only `startJob` moves the mutex: it takes it, holds it through `FindAll` and gives it
    back when it leaves; every other step leaves the mutex and its holders as they were. -/
theorem run_mutex {c : Cfg} {s s' : St} {f : Fault} {p p' : Pc} {sp : List Pc}
    (h : p.run c s f = some (s', p', sp)) (hh : p.holder = true → s.mutex = true) :
    (∀ q ∈ sp, q.holder = false) ∧
      (if s'.mutex then 1 else 0) + (if p.holder then 1 else 0) =
        (if s.mutex then 1 else 0) + (if p'.holder then 1 else 0) := by
  obtain ⟨hsp, hnext⟩ := run_next_holder h
  refine ⟨hsp, ?_⟩
  cases p
  case startLock req =>
    simp only [Pc.run] at h
    split at h
    · cases h
    · obtain ⟨rfl, rfl, rfl⟩ := h; simp_all [Pc.holder]
  case startFindAll req =>
    have hm : s.mutex = true := hh rfl
    simp only [Pc.run] at h
    repeat' split at h
    all_goals obtain ⟨rfl, rfl, rfl⟩ := h; simp [hm, Pc.holder]
  case startInsert req =>
    have hm : s.mutex = true := hh rfl
    simp only [Pc.run] at h
    split at h <;> obtain ⟨rfl, rfl, rfl⟩ := h <;> simp [hm, Pc.holder]
  all_goals
    rcases (stEff_change (run_stEff h)).mutex_eq with e | e | ⟨_, e⟩
    · rw [e, hnext rfl]; rfl
    · cases e
    · cases e

/-- A request's worker starts outside the mutex, with no facts to keep. -/
theorem Request.pc_entry (c : Cfg) (r : Request) (s : St) : (r.pc c).holder = false ∧ (r.pc c).Ok s := by
  cases r <;> simp only [Request.pc, CcBackend.startJob, CcBackend.stopJobById, CcBackend.stopJobByRequest,
    CcBackend.tagJob, CcBackend.deleteJobById, CcBackend.deleteJobByRequest, CcBackend.deleteJobBefore] <;>
    (repeat' split)
  all_goals exact ⟨rfl, trivial⟩

theorem Inv.init : Inv Sys.init where
  wf := ⟨fun _ h => (nomatch h), .nil, .nil⟩
  mutex := rfl
  noDup := .nil
  pcs := fun _ h => nomatch h

/-- One step of worker `p`, which stands between `l₁` and `l₂`, keeps the invariant. -/
theorem Inv.exec {c : Cfg} {st st' : St} {f : Fault} {l₁ l₂ sp : List Pc} {p p' : Pc}
    (hi : Inv ⟨st, l₁ ++ p :: l₂⟩) (h : p.run c st f = some (st', p', sp)) :
    Inv ⟨st', l₁ ++ p' :: l₂ ++ sp⟩ := by
  have hp : p.Ok st := hi.pcs p (by simp)
  have hc := stEff_change (run_stEff h)
  have hcount := hi.mutex
  simp only [List.countP_append, List.countP_cons] at hcount
  have hx : ∀ q ∈ l₁ ++ l₂, q.holder = true → p.holder = false := by
    intro q hq hqh
    have := List.countP_pos_iff.mpr ⟨q, hq, hqh⟩
    rw [List.countP_append] at this
    by_contra hne
    simp only [Bool.not_eq_false] at hne
    simp only [hne, if_true] at hcount
    split_ifs at hcount <;> omega
  obtain ⟨hsp, hm⟩ := run_mutex h fun hh => by split_ifs at hcount <;> simp_all
  obtain ⟨hok', hoksp⟩ := run_ok hi.wf hp h
  refine ⟨hc.wf hi.wf, ?_, hc.noDup hi.noDup fun req e => by subst e; exact hp, ?_⟩
  · have hsp0 : sp.countP Pc.holder = 0 := List.countP_eq_zero.mpr fun q hq => by simp [hsp q hq]
    simp only [List.countP_append, List.countP_cons, hsp0]
    omega
  · intro q hq
    simp only [List.mem_append, List.mem_cons] at hq
    rcases hq with (hq | rfl | hq) | hq
    · exact (hi.pcs q (by simp [hq])).stable hp hc (hx q (by simp [hq]))
    · exact hok'
    · exact (hi.pcs q (by simp [hq])).stable hp hc (hx q (by simp [hq]))
    · exact hoksp q hq

theorem Inv.step {c : Cfg} {s s' : Sys} {e : Ev} (hi : Inv s) (hs : Step c s e s') : Inv s' := by
  cases hs with
  | arrive r =>
    obtain ⟨hh, hok⟩ := Request.pc_entry c r s.st
    refine ⟨hi.wf, by simp [hh, hi.mutex], hi.noDup, fun q hq => ?_⟩
    rcases List.mem_append.mp hq with hq | hq
    · exact hi.pcs q hq
    · rw [List.mem_singleton.mp hq]; exact hok
  | exec i p f st p' sp hget hrun =>
    obtain ⟨st0, procs⟩ := s
    obtain ⟨hlt, hpi⟩ := List.getElem?_eq_some_iff.mp hget
    obtain ⟨l₁, l₂, hl, -, hset⟩ := @List.exists_of_set _ _ p' _ hlt
    simp only at hl hset hpi
    rw [hpi] at hl
    subst hl
    simp only [hset]
    exact Inv.exec hi hrun

/-- Every reachable state satisfies the invariant. -/
theorem Inv.reach {c : Cfg} {s : Sys} {h : List Ev} (hr : Reach c s h) : Inv s :=
  Reach.induct Inv Inv.init (fun _ _ _ _ _ hi hs => hi.step hs) hr


/-! ## Which steps change a row -/

/-- A row that a step changes was rewritten by the stepping worker. -/
theorem Step.row_change {c : Cfg} {s s' : Sys} {e : Ev} {r r' : JobRow} (hi : Inv s) (hs : Step c s e s')
    (hr : r ∈ s.st.jobs) (hr' : r' ∈ s'.st.jobs) (hid : r.id = r'.id) (hne : r' ≠ r) :
    ∃ i p f, e = .exec i p f ∧ p ∈ s.procs ∧ p.Writes r r' := by
  cases hs with
  | arrive => exact absurd (hi.wf.eq_of_id hr hr' hid).symm hne
  | exec i p f st p' sp hget hrun =>
    rcases (stEff_change (run_stEff hrun)).row r' hr' with h0 | ⟨req, -, rfl⟩ | ⟨r₀, hr₀, e₀, hw⟩
    · exact absurd (hi.wf.eq_of_id hr h0 hid).symm hne
    · have := hi.wf.idLt r hr
      simp [JobMeta.toRow] at hid; omega
    · obtain rfl := hi.wf.eq_of_id hr₀ hr (e₀.trans hid.symm)
      exact ⟨i, p, f, rfl, List.getElem?_mem hget, hw⟩

end CcBackend
