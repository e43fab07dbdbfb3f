import CcBackend.Invariant
import Mathlib.Data.List.Pairwise
/-
  CcBackend.Duplicates — `startJob`'s duplicate check (`internal/api/rest.go`,
  `startJob`).

  `startJob` takes `RepositoryMutex`, reads the jobs with the request's job id and
  cluster (`FindAll`), answers 422 when one of them has
  `req.StartTime - job.StartTimeUnix < 86400` (on `int64`, so the difference wraps),
  and otherwise inserts the job (`Start`); it releases the mutex on every path.

  Proved:
  (1) No near duplicates (`no_near_duplicate_jobs`): in every reachable state, two
      distinct jobs of one job id and cluster started a day or more apart. The mutex
      keeps a second insert out of the window between a check and its insert, and no
      other step inserts a job or moves a start time (`Inv.reach`).
  (2) The check run alone (`startJob_alone_refuses_iff`, `startJob_alone_inserts`):
      `startJob` answers 422, leaving the jobs as they were, exactly when a stored job
      of that job id and cluster has a start time with
      `req.StartTime - start < 86400` on `int64`; otherwise it inserts the job.
  Traces: the check is one-sided. Of two requests a day apart, the later start is
  accepted first and the earlier one is then refused
  (`startJob_refuses_day_earlier`).
-/

namespace CcBackend

/-! ## No near duplicates in any reachable state -/

theorem keysApart_symm : Symmetric KeysApart :=
  fun _ _ h e1 e2 => farApart_comm.mp (h e1.symm e2.symm)

theorem no_near_duplicate_jobs {c : Cfg} {s : Sys} {h : List Ev} (hr : Reach c s h) :
    ∀ r₁ ∈ s.st.jobs, ∀ r₂ ∈ s.st.jobs, r₁ ≠ r₂ → r₁.jobId = r₂.jobId → r₁.cluster = r₂.cluster →
      86400 ≤ |r₁.startTime.val - r₂.startTime.val| := by
  have hn := (Inv.reach hr).noDup
  unfold NoNearDuplicates at hn
  rw [List.pairwise_map] at hn
  intro r₁ h₁ r₂ h₂ hne
  exact hn.forall (fun _ _ h => keysApart_symm h) h₁ h₂ hne

/-- Two starts of one job id and cluster, exactly a day apart, the earlier first. -/
def dayApartActs : List Act :=
  [.arrive (.startJob none (.ok (startAt 1649723812))), .exec 0 none, .exec 0 none, .exec 0 none,
   .exec 0 none, .arrive (.startJob none (.ok (startAt 1649810212))), .exec 1 none, .exec 1 none,
   .exec 1 none, .exec 1 none]

theorem no_near_duplicate_jobs_day_apart :
    86400 ≤ |((Sys.trace Cfg.plain dayApartActs).st.jobs.get ⟨0, by decide⟩).startTime.val -
      ((Sys.trace Cfg.plain dayApartActs).st.jobs.get ⟨1, by decide⟩).startTime.val| := by
  obtain ⟨h, hr⟩ := Reach.trace (by decide : (Sys.init.runActs Cfg.plain dayApartActs).isSome = true)
  exact no_near_duplicate_jobs hr _ (List.get_mem _ _ _) _ (List.get_mem _ _ _)
    (fun e => absurd (congrArg JobRow.id e) (by decide)) (by decide) (by decide)

/-- `RepositoryMutex` is held exactly when one `startJob` is between taking and
    releasing it, and never by two. -/
theorem repositoryMutex_exclusive {c : Cfg} {s : Sys} {h : List Ev} (hr : Reach c s h) :
    s.procs.countP Pc.holder ≤ 1 ∧ (s.st.mutex = true ↔ s.procs.countP Pc.holder = 1) := by
  have hm := (Inv.reach hr).mutex
  cases hb : s.st.mutex <;> rw [hb] at hm <;> simp only [hm] <;> decide

/-- A `startJob` that has taken the mutex. -/
theorem repositoryMutex_exclusive_locked :
    (Sys.trace Cfg.plain [.arrive (.startJob none (.ok (startAt 1649723812))), .exec 0 none]).procs.countP Pc.holder ≤ 1 ∧
    ((Sys.trace Cfg.plain [.arrive (.startJob none (.ok (startAt 1649723812))), .exec 0 none]).st.mutex = true ↔
      (Sys.trace Cfg.plain [.arrive (.startJob none (.ok (startAt 1649723812))), .exec 0 none]).procs.countP Pc.holder = 1) := by
  obtain ⟨h, hr⟩ := Reach.trace (by decide : (Sys.init.runActs Cfg.plain
    [.arrive (.startJob none (.ok (startAt 1649723812))), .exec 0 none]).isSome = true)
  exact repositoryMutex_exclusive hr

/-! ## The check run alone -/

theorem St.findAll_exists {s : St} {jobId : I64} {cluster : String} {P : Job → Prop} :
    (∃ j ∈ s.findAll jobId cluster, P j) ↔ ∃ r ∈ s.jobs, r.jobId = jobId ∧ r.cluster = cluster ∧ P r.toJob := by
  simp only [St.findAll, List.mem_map, List.mem_filter, Bool.and_eq_true, beq_iff_eq]
  constructor
  · rintro ⟨_, ⟨r, ⟨hr, e1, e2⟩, rfl⟩, hp⟩; exact ⟨r, hr, e1, e2, hp⟩
  · rintro ⟨r, hr, e1, e2, hp⟩; exact ⟨_, ⟨r, ⟨hr, e1, e2⟩, rfl⟩, hp⟩

/-- `startJob` from taking the mutex to its insert, with no other worker in between. -/
theorem startJob_alone {c : Cfg} {s : St} {req : JobMeta} (hm : s.mutex = false) :
    Pc.solo c 3 s (.startLock req) =
      match (s.findAll req.jobId req.cluster).find? (fun j => (req.startTime - j.startTime).val < 86400) with
      | some j => ({ s with mutex := false }, .done (.error 422
          ("a job with that jobId, cluster and startTime already exists: dbid: " ++ toString j.id)))
      | none => ({ (s.start req).2 with mutex := false }, .startTags s.nextId req.tags) := by
  have lock : (Pc.startLock req).run c s none = some ({ s with mutex := true }, .startFindAll req, []) := by
    simp [Pc.run, hm]
  rw [Pc.solo_step lock]
  split <;> rename_i j hf
  · have check : (Pc.startFindAll req).run c { s with mutex := true } none = some ({ s with mutex := false },
        .done (.error 422 ("a job with that jobId, cluster and startTime already exists: dbid: " ++ toString j.id)), []) := by
      simp only [Pc.run, fallible_none, St.findAll] at hf ⊢; simp only [hf]
    rw [Pc.solo_step check]; simp
  · have check : (Pc.startFindAll req).run c { s with mutex := true } none =
        some ({ s with mutex := true }, .startInsert req, []) := by
      simp only [Pc.run, fallible_none, St.findAll] at hf ⊢; simp only [hf]
    rw [Pc.solo_step check, Pc.solo_step (by simp [Pc.run, St.start] : (Pc.startInsert req).run c { s with mutex := true } none =
      some ({ (s.start req).2 with mutex := false }, .startTags s.nextId req.tags, []))]
    rfl

theorem startJob_alone_refuses_iff {c : Cfg} {s : St} {req : JobMeta} (hm : s.mutex = false) :
    (Pc.solo c 3 s (.startLock req)).2.status = some 422 ↔
      ∃ r ∈ s.jobs, r.jobId = req.jobId ∧ r.cluster = req.cluster ∧ (req.startTime - r.startTime).val < 86400 := by
  have key := @St.findAll_exists s req.jobId req.cluster fun j => (req.startTime - j.startTime).val < 86400
  simp only [JobRow.toJob_toJobRow] at key
  rw [startJob_alone hm, ← key]
  split <;> rename_i hf
  · simpa [Pc.status, Resp.status] using ⟨_, List.mem_of_find?_eq_some hf, by simpa using List.find?_some hf⟩
  · simpa [Pc.status] using List.find?_eq_none.mp hf

/-- The spec's scenario: a second start 88 s after the first is refused. -/
example : (Pc.solo Cfg.plain 3 { St.init with jobs := [(startAt 1649723812).toRow 1], nextId := 2 }
    (.startLock (startAt 1649723900))).2.status = some 422 := by
  decide

theorem startJob_alone_inserts {c : Cfg} {s : St} {req : JobMeta} (hm : s.mutex = false)
    (hfar : ∀ r ∈ s.jobs, r.jobId = req.jobId → r.cluster = req.cluster → ¬(req.startTime - r.startTime).val < 86400) :
    Pc.solo c 3 s (.startLock req) = ({ (s.start req).2 with mutex := false }, .startTags s.nextId req.tags) := by
  rw [startJob_alone hm]
  split
  · rename_i j hf
    have key := @St.findAll_exists s req.jobId req.cluster fun j => (req.startTime - j.startTime).val < 86400
    have hj := List.find?_some hf
    obtain ⟨r, hr, e1, e2, hlt⟩ := key.mp ⟨j, List.mem_of_find?_eq_some hf, of_decide_eq_true hj⟩
    exact absurd hlt (hfar r hr e1 e2)
  · rfl

/-- The start request of the API's examples at `t`, decoded, run alone from `s`. -/
def startAlone (s : St) (t : I64) : St × Pc := Pc.solo Cfg.plain 4 s (startJob Cfg.plain none (.ok (startAt t)))

/-- The later start first, then the earlier one: a day apart, and refused. -/
theorem startJob_refuses_day_earlier :
    (startAlone St.init 1649810212).2.status = some 201 ∧
      (∀ r ∈ (startAlone St.init 1649810212).1.jobs, r.jobId = 123000 → r.cluster = "fritz" →
        86400 ≤ |1649723812 - r.startTime.val|) ∧
      (startAlone (startAlone St.init 1649810212).1 1649723812).2.status = some 422 := by
  decide

end CcBackend
