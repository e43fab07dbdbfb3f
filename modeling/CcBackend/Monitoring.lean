import CcBackend.StopJob
/-
  CcBackend.Monitoring — the monitoring status of a job (`checkAndHandleStopJob` and
  its archiving goroutine, `internal/api/rest.go`).

  Three writes change a job's monitoring status: a stop handler's `Stop` writes back
  the status its `FindById` read; the archiving goroutine writes `archivingFailed`
  when fetching or archiving fails, and `archivingSuccessful` with the statistics
  once `ArchiveJob` has written the job's archive. A stop of a disabled job starts
  no goroutine.

  Proved (`monitoring_status_changes`): in every step of every run, a job's status is
  disabled after the step exactly when it was before; and a status that changes was
  written by a `Stop` (the status it read), by a goroutine's `archivingFailed`, or
  by a goroutine's `archivingSuccessful` with the job's archive already written.
  Traces: a `Stop` that read the job before another stop's goroutine archived it
  writes its stale status back, and the archived job is pending again
  (`stale_stop_resets_archived_status`).
-/

namespace CcBackend

/-- Which write changes a row's monitoring status, and to what. -/
theorem Pc.Writes.status_change {p : Pc} {r r' : JobRow} (hw : p.Writes r r')
    (hne : r'.monitoringStatus ≠ r.monitoringStatus) :
    (∃ job req, p = .stopUpdate job req ∧ job.id = r.id ∧ r'.monitoringStatus = job.monitoringStatus) ∨
    (∃ job, p = .archFailed job ∧ job.id = r.id ∧ r'.monitoringStatus = .archivingFailed) ∨
    (∃ job stats, p = .archFinal job stats ∧ job.id = r.id ∧ r'.monitoringStatus = .archivingSuccessful) := by
  cases p <;> simp only [Pc.Writes] at hw <;> obtain ⟨e, rfl⟩ := hw
  case stopUpdate job req => exact .inl ⟨job, req, rfl, e, rfl⟩
  case archFailed job => exact .inr (.inl ⟨job, rfl, e, rfl⟩)
  case archFinal job stats => exact .inr (.inr ⟨job, stats, rfl, e, rfl⟩)

theorem monitoring_status_changes {c : Cfg} {s : Sys} {h : List Ev} (hr : Reach c s h) :
    ∀ e s', Step c s e s' → ∀ r ∈ s.st.jobs, ∀ r' ∈ s'.st.jobs, r.id = r'.id →
      (r'.monitoringStatus = .disabled ↔ r.monitoringStatus = .disabled) ∧
      (r'.monitoringStatus ≠ r.monitoringStatus →
        (∃ i job req f, e = .exec i (.stopUpdate job req) f ∧ job.id = r.id ∧
          r'.monitoringStatus = job.monitoringStatus) ∨
        (∃ i job f, e = .exec i (.archFailed job) f ∧ job.id = r.id ∧ r'.monitoringStatus = .archivingFailed) ∨
        (∃ i job stats f, e = .exec i (.archFinal job stats) f ∧ job.id = r.id ∧
          r'.monitoringStatus = .archivingSuccessful ∧ (s.st.archive r.id).isSome)) := by
  intro e s' hs r hr0 r' hr' hid
  have hi := Inv.reach hr
  by_cases hrr : r' = r
  · subst hrr; exact ⟨.rfl, fun h => absurd rfl h⟩
  obtain ⟨i, p, f, rfl, hp, hw⟩ := Step.row_change hi hs hr0 hr' hid hrr
  have ok := hi.pcs p hp
  refine ⟨hw.disabled ok hr0, fun hne => ?_⟩
  rcases hw.status_change hne with ⟨job, req, rfl, hj, hm⟩ | ⟨job, rfl, hj, hm⟩ | ⟨job, stats, rfl, hj, hm⟩
  · exact .inl ⟨i, job, req, f, rfl, hj, hm⟩
  · exact .inr (.inl ⟨i, job, f, rfl, hj, hm⟩)
  · exact .inr (.inr ⟨i, job, stats, f, rfl, hj, hm, hj ▸ ok.2⟩)

/-- Job 1 is started; a `completed` and a `failed` stop read it; the `failed` one
    stops it and its goroutine archives the job. -/
def staleStopActs : List Act :=
  [.arrive (.startJob none (.ok (startAt 1649723812))), .exec 0 none, .exec 0 none, .exec 0 none, .exec 0 none,
   .arrive (.stopJobById none "1" (.ok (stopReq .completed))),
   .arrive (.stopJobById none "1" (.ok (stopReq .failed))), .exec 1 none, .exec 2 none, .exec 2 none,
   .exec 3 none, .exec 3 none, .exec 3 none]

/-- The stale `Stop` below is a step of a run. -/
theorem monitoring_status_changes_stale_stop :
    ∃ e, Step Cfg.plain (Sys.trace Cfg.plain staleStopActs) e (Sys.trace Cfg.plain (staleStopActs ++ [.exec 1 none])) ∧
      ∀ r ∈ (Sys.trace Cfg.plain staleStopActs).st.jobs,
      ∀ r' ∈ (Sys.trace Cfg.plain (staleStopActs ++ [.exec 1 none])).st.jobs, r.id = r'.id →
      (r'.monitoringStatus = .disabled ↔ r.monitoringStatus = .disabled) ∧
      (r'.monitoringStatus ≠ r.monitoringStatus →
        (∃ i job req f, e = .exec i (.stopUpdate job req) f ∧ job.id = r.id ∧
          r'.monitoringStatus = job.monitoringStatus) ∨
        (∃ i job f, e = .exec i (.archFailed job) f ∧ job.id = r.id ∧ r'.monitoringStatus = .archivingFailed) ∨
        (∃ i job stats f, e = .exec i (.archFinal job stats) f ∧ job.id = r.id ∧
          r'.monitoringStatus = .archivingSuccessful ∧ ((Sys.trace Cfg.plain staleStopActs).st.archive r.id).isSome)) := by
  obtain ⟨h, hr⟩ := Reach.trace (by decide : (Sys.init.runActs Cfg.plain staleStopActs).isSome = true)
  obtain ⟨e, hs⟩ := Step.trace_snoc (by decide : (Sys.init.runActs Cfg.plain (staleStopActs ++ [.exec 1 none])).isSome = true)
  exact ⟨e, hs, monitoring_status_changes hr e _ hs⟩

/-- The `completed` stop's `Stop` runs last: the archived job is pending again. -/
theorem stale_stop_resets_archived_status :
    (∃ h₁ h₂, Reach Cfg.plain (Sys.trace Cfg.plain staleStopActs) h₁ ∧
      Reach Cfg.plain (Sys.trace Cfg.plain (staleStopActs ++ [.exec 1 none])) (h₁ ++ h₂)) ∧
    (Sys.trace Cfg.plain staleStopActs).st.jobs.map (·.monitoringStatus) = [.archivingSuccessful] ∧
    (Sys.trace Cfg.plain (staleStopActs ++ [.exec 1 none])).st.jobs.map (·.monitoringStatus) =
      [.runningOrArchiving] :=
  ⟨Reach.trace_append (by decide), by decide, by decide⟩

end CcBackend
