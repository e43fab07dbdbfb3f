import CcBackend.Monitoring
/-
  CcBackend.Tags — tags (`internal/repository/tags.go`: `AddTag`, `RemoveTag`,
  `CreateTag`, `AddTagOrCreate`, `TagId`, `CountTags`; `tagJob` of
  `internal/api/rest.go`).

  `AddTag` and `RemoveTag` change the job's `jobtag` rows, then read the job
  (`FindById`) and its tags (`GetTags`), and write that list into the job's archive
  when the job's status says it is archived (`UpdateTags`). `AddTagOrCreate` looks the
  tag up (`TagId`) and creates it when it is absent (`CreateTag`), in two statements
  with no lock between them; the `tag` table refuses a second tag of one type and
  name.

  Proved:
  (1) (`solo_tag_change_syncs_archive`) An `AddTag` or `RemoveTag` that runs alone on
      an archived job and returns to its caller (a GraphQL mutation, or the loop of
      `tagJob` or `startJob` through `AddTagOrCreate`) leaves the archive's tags equal,
      as type and name, to the job's tags in the database.
  (2) (`tag_keys_unique_and_returned_ids`) In every reachable state no two tags share
      a type and name; an `AddTagOrCreate` about to return holds the id of the one
      tag of its type and name; and its `AddTag` inserted the job's association.
  (3) (`countTags_counts_by_name`) `CountTags` counts, for each name, the `jobtag`
      rows of every tag of that name (of the user's jobs, given a user).
  Traces: the archiving goroutine writes the record `FindById` read, with no tags, so
  a job tagged at its start is archived without its tag; and two `tagJob`s
  interleaved between `GetTags` and `UpdateTags` leave the archive with the older list
  (`archive_lacks_job_tags`); two
  concurrent `AddTagOrCreate`s of a new tag both find it absent and the second fails
  (`concurrent_addTagOrCreate_fails`); `CountTags` gives a tag the jobs of another
  tag of the same name (`countTags_merges_same_name`).
-/

namespace CcBackend

/-! ## The archive's tags after a tag change run alone -/

theorem St.updateTags_archived {s s' : St} {j : Job} {tags : List Tag}
    (hms : j.monitoringStatus = .archivingSuccessful) (h : s.updateTags j tags = .ok s') :
    ∃ m, s.archive j.id = some m ∧
      s' = { s with archive := upd s.archive j.id (some { m with job := { m.job with tags := archiveTags tags } }) } := by
  unfold St.updateTags at h
  rw [if_pos hms] at h
  split at h
  · cases h; exact ⟨_, ‹_›, rfl⟩
  · cases h

@[simp] theorem archiveTags_key (tags : List Tag) : (archiveTags tags).map Tag.key = tags.map Tag.key := by
  simp [archiveTags, Tag.key]

@[simp] theorem Caller.fail_resolver (e : DbErr) : Caller.fail .resolver e = .done (.plain 500 e.text) := rfl

theorem Caller.fail_done (cl : Caller) (e : DbErr) : ∃ r, cl.fail e = .done r := by
  cases cl with
  | orCreate k => cases k <;> exact ⟨_, rfl⟩
  | resolver => exact ⟨_, rfl⟩

/-- A caller's error answer is never its return: `AddTag` and `RemoveTag` end in one or the other. -/
theorem Caller.fail_ne_ret (cl : Caller) (e : DbErr) (t : Int) (ts : List Tag) : cl.fail e ≠ cl.ret t ts := by
  cases cl with
  | orCreate k => cases k <;> simp [Caller.fail, Caller.ret, Loop.fail, Loop.next]
  | resolver => simp [Caller.fail, Caller.ret]

@[simp] theorem Pc.solo_fail (c : Cfg) (n : Nat) (s : St) (cl : Caller) (e : DbErr) :
    Pc.solo c n s (cl.fail e) = (s, cl.fail e) := by
  obtain ⟨r, hr⟩ := cl.fail_done e
  rw [hr, Pc.solo_done]

/-- A step into the caller's error never returns to the caller. -/
theorem Pc.solo_fail_ne_ret {c : Cfg} {n : Nat} {s : St} {p : Pc} {cl : Caller} {e : DbErr} (t : Int)
    (ts : List Tag) (h : p.run c s none = some (s, cl.fail e, [])) : (Pc.solo c (n + 1) s p).2 ≠ cl.ret t ts := by
  rw [Pc.solo_step h, Pc.solo_fail]
  exact cl.fail_ne_ret e t ts

/-- The tail `AddTag` and `RemoveTag` share (`FindById`, `GetTags`, `UpdateTags`), run
    alone on an archived job, writes the job's tags into its archive when it returns to
    its caller. -/
theorem solo_tag_tail {c : Cfg} {s : St} (cl : Caller) {job tag : Int} {ts : List Tag}
    (hms : ∀ r ∈ s.jobs, r.id = job → r.monitoringStatus = .archivingSuccessful)
    (hok : (Pc.solo c 3 s (.tagFindById cl job tag)).2 = cl.ret tag ts) :
    ∃ m, (Pc.solo c 3 s (.tagFindById cl job tag)).1.archive job = some m ∧
      m.job.tags.map Tag.key = ((Pc.solo c 3 s (.tagFindById cl job tag)).1.getTags (some job)).map Tag.key := by
  cases hj : s.findById job with
  | error e => exact absurd hok (Pc.solo_fail_ne_ret (e := e) tag ts (by simp [Pc.run, hj]))
  | ok j =>
    obtain ⟨r, hr, hid, rfl⟩ := St.findById_ok hj
    have h1 : (Pc.tagFindById cl job tag).run c s none = some (s, .tagGetTags cl job tag r.toJob, []) := by
      simp [Pc.run, hj]
    have h2 : (Pc.tagGetTags cl job tag r.toJob).run c s none =
        some (s, .tagUpdate cl job tag r.toJob (s.getTags (some job)), []) := by
      simp [Pc.run]
    rw [Pc.solo_step h1, Pc.solo_step h2] at hok ⊢
    cases hu : s.updateTags r.toJob (s.getTags (some job)) with
    | error e => exact absurd hok (Pc.solo_fail_ne_ret (e := e) tag ts (by simp [Pc.run, hu]))
    | ok s₂ =>
      rw [Pc.solo_step (by simp [Pc.run, hu] : (Pc.tagUpdate cl job tag r.toJob (s.getTags (some job))).run c s none =
        some (s₂, cl.ret tag (s.getTags (some job)), []))]
      obtain ⟨m, -, rfl⟩ := St.updateTags_archived (hms r hr hid) hu
      refine ⟨{ m with job := { m.job with tags := archiveTags (s.getTags (some job)) } }, ?_, ?_⟩
      · simp [Pc.solo, ← hid]
      · simp [Pc.solo, St.getTags]

theorem solo_tag_change_syncs_archive {c : Cfg} {s : St} {job tag : Int} {ts : List Tag} {p : Pc} (cl : Caller)
    (hp : p = .addTagInsert cl job tag ∨ p = .removeTagDelete cl job tag)
    (hms : ∀ r ∈ s.jobs, r.id = job → r.monitoringStatus = .archivingSuccessful)
    (hok : (Pc.solo c 4 s p).2 = cl.ret tag ts) :
    ∃ m, (Pc.solo c 4 s p).1.archive job = some m ∧
      m.job.tags.map Tag.key = ((Pc.solo c 4 s p).1.getTags (some job)).map Tag.key := by
  rcases hp with rfl | rfl
  · cases hi : s.insertJobTag job tag with
    | error e => exact absurd hok (Pc.solo_fail_ne_ret (e := e) tag ts (by simp [Pc.run, hi]))
    | ok s₁ =>
      have h1 : (Pc.addTagInsert cl job tag).run c s none = some (s₁, .tagFindById cl job tag, []) := by
        simp [Pc.run, hi]
      rw [Pc.solo_step h1] at hok ⊢
      exact solo_tag_tail cl (by rw [(St.insertJobTag_ok hi).2]; exact hms) hok
  · have h1 : (Pc.removeTagDelete cl job tag).run c s none =
        some (s.deleteJobTag job tag, .tagFindById cl job tag, []) := by
      simp [Pc.run]
    rw [Pc.solo_step h1] at hok ⊢
    exact solo_tag_tail cl hms hok

/-- The job of the API's examples, archived, with no tags yet and one tag in the table. -/
def archivedStore : St :=
  let r : JobRow := { (startAt 1649723812).toRow 1 with state := .completed, monitoringStatus := .archivingSuccessful }
  { St.init with jobs := [r], nextId := 2, tags := [⟨1, "Debug", "Testjob"⟩], nextTagId := 2,
                 archive := upd St.init.archive 1 (some ⟨r.toJob, []⟩) }

/-- The `AddTag` of `tagJob`'s loop adding tag `Testjob` to job 1. -/
def testjobCaller : Caller := .orCreate (.tagJob ((startAt 1649723812).toRow 1).toJob ⟨"Debug", "Testjob"⟩ []) "Debug" "Testjob"

theorem solo_tag_change_syncs_archive_add :
    ∃ m, (Pc.solo Cfg.plain 4 archivedStore (.addTagInsert testjobCaller 1 1)).1.archive 1 = some m ∧
      m.job.tags.map Tag.key =
        ((Pc.solo Cfg.plain 4 archivedStore (.addTagInsert testjobCaller 1 1)).1.getTags (some 1)).map Tag.key :=
  @solo_tag_change_syncs_archive Cfg.plain archivedStore 1 1 [] _ testjobCaller (.inl rfl) (by decide) rfl


/-- Job 1 is started, stopped and archived; then two `tagJob`s add `Testjob` and
    `Rerun`: the first reads the job's tags before the second adds its own, and writes
    its list into the archive after the second has written the longer one. -/
def staleTagActs : List Act :=
  [.arrive (.startJob none (.ok (startAt 1649723812))), .exec 0 none, .exec 0 none, .exec 0 none, .exec 0 none,
   .arrive (.stopJobById none "1" (.ok (stopReq .completed))), .exec 1 none, .exec 1 none,
   .exec 2 none, .exec 2 none, .exec 2 none,
   .arrive (.tagJob none "1" (.ok [⟨"Debug", "Testjob"⟩]))] ++ List.replicate 8 (.exec 3 none) ++
  [.arrive (.tagJob none "1" (.ok [⟨"Debug", "Rerun"⟩]))] ++ List.replicate 10 (.exec 4 none) ++
  List.replicate 2 (.exec 3 none)

/-- Job 1 is started with tag `Testjob` (`startJob`'s loop adds it), then stopped, and
    its archiving goroutine archives the job record the stop handler read. -/
def taggedStartActs : List Act :=
  [.arrive (.startJob none (.ok { startAt 1649723812 with tags := [⟨0, "Debug", "Testjob"⟩] }))] ++
  List.replicate 11 (.exec 0 none) ++
  [.arrive (.stopJobById none "1" (.ok (stopReq .completed)))] ++ List.replicate 2 (.exec 1 none) ++
  List.replicate 3 (.exec 2 none)

/-- After either run nothing is in flight and job 1 is archived, yet its archive lacks a
    tag it has: serially, because `FindById`'s record carries no tags; and when two
    `tagJob`s interleave. -/
theorem archive_lacks_job_tags :
    ((∃ h, Reach Cfg.plain (Sys.trace Cfg.plain taggedStartActs) h) ∧
      (Sys.trace Cfg.plain taggedStartActs).procs.all Pc.idle = true ∧
      (Sys.trace Cfg.plain taggedStartActs).st.jobs.map (·.monitoringStatus) = [.archivingSuccessful] ∧
      ((Sys.trace Cfg.plain taggedStartActs).st.archive 1).map (fun m => m.job.tags.map Tag.key) = some [] ∧
      ((Sys.trace Cfg.plain taggedStartActs).st.getTags (some 1)).map Tag.key = [("Debug", "Testjob")]) ∧
    ((∃ h, Reach Cfg.plain (Sys.trace Cfg.plain staleTagActs) h) ∧
      (Sys.trace Cfg.plain staleTagActs).procs.all Pc.idle = true ∧
      (Sys.trace Cfg.plain staleTagActs).st.jobs.map (·.monitoringStatus) = [.archivingSuccessful] ∧
      ((Sys.trace Cfg.plain staleTagActs).st.archive 1).map (fun m => m.job.tags.map Tag.key) =
        some [("Debug", "Testjob")] ∧
      ((Sys.trace Cfg.plain staleTagActs).st.getTags (some 1)).map Tag.key = [("Debug", "Testjob"), ("Debug", "Rerun")]) :=
  ⟨⟨Reach.trace (by decide), by decide, by decide, by decide, by decide⟩,
    ⟨Reach.trace (by decide), by decide, by decide, by decide, by decide⟩⟩

/-! ## Tags under concurrent `AddTagOrCreate` -/

/-- Job 1 is started; two `tagJob`s of one new tag both look it up and find it absent,
    and both try to create it. -/
def tagRaceActs : List Act :=
  [.arrive (.startJob none (.ok (startAt 1649723812))), .exec 0 none, .exec 0 none, .exec 0 none, .exec 0 none,
   .arrive (.tagJob none "1" (.ok [⟨"Debug", "Testjob"⟩])), .exec 1 none, .exec 1 none, .exec 1 none,
   .arrive (.tagJob none "1" (.ok [⟨"Debug", "Testjob"⟩])), .exec 2 none, .exec 2 none, .exec 2 none,
   .exec 1 none, .exec 2 none, .exec 1 none, .exec 2 none]

/-- Whether `CountTags`'s user filter keeps the `jobtag` rows of job `job`. -/
def St.ofUser (s : St) (user : Option String) (job : Int) : Bool :=
  match user with
  | none => true
  | some u => s.jobs.any fun r => r.id == job && r.user == u

theorem mapGet_map_self (l : List String) (f : String → Nat) (n : String) :
    mapGet (l.map fun k => (k, f k)) n = if n ∈ l then f n else 0 := by
  unfold mapGet
  rw [← List.map_reverse, List.find?_map]
  cases h : List.find? ((fun x => x.1 == n) ∘ fun k => (k, f k)) l.reverse with
  | none =>
    have : n ∉ l := fun hn => by simpa using List.find?_eq_none.mp h n (List.mem_reverse.mpr hn)
    simp [this]
  | some k =>
    have e : k = n := by simpa using List.find?_some h
    subst e
    simp [List.mem_reverse.mp (List.mem_of_find?_eq_some h)]

theorem mem_eraseDups_loop {l bs : List String} {a : String} : a ∈ List.eraseDups.loop l bs ↔ a ∈ l ∨ a ∈ bs := by
  induction l generalizing bs with
  | nil => simp [List.eraseDups.loop]
  | cons x xs ih =>
    simp only [List.eraseDups.loop]
    split
    · rename_i h
      have hx : x ∈ bs := by simpa using h
      rw [ih, List.mem_cons]
      constructor
      · rintro (h | h)
        · exact .inl (.inr h)
        · exact .inr h
      · rintro ((rfl | h) | h)
        · exact .inr hx
        · exact .inl h
        · exact .inr h
    · rw [ih, List.mem_cons, List.mem_cons]; exact or_left_comm.trans or_assoc.symm

theorem mem_eraseDups {l : List String} {a : String} : a ∈ l.eraseDups ↔ a ∈ l := by
  simp [List.eraseDups, mem_eraseDups_loop]


/-- The filter `CountTags` applies to the joined rows. -/
def St.keptRow (s : St) (user : Option String) (x : Tag × Option (Int × Int)) : Bool :=
  match user with
  | none => true
  | some u => s.inUserJobs u x

theorem St.countTags_snd (s : St) (user : Option String) :
    (s.countTags user).2 =
      let kept := (s.tags.flatMap s.leftJoinRows).filter (s.keptRow user)
      (kept.map (·.1.name)).eraseDups.map fun n => (n, (kept.filter fun x => x.1.name == n && x.2.isSome).length) := by
  cases user with
  | none => simp only [St.countTags, show s.keptRow none = fun _ => true from rfl, List.filter_true]
  | some u => rfl

/-- One tag's rows that `CountTags` counts under name `n`. -/
theorem St.leftJoinRows_count (s : St) (user : Option String) (n : String) (t : Tag) :
    ((s.leftJoinRows t).filter fun x => (x.1.name == n && x.2.isSome) && s.keptRow user x).length =
      if t.name = n then (s.jobtag.filter fun jt => jt.2 == t.id && s.ofUser user jt.1).length else 0 := by
  have hsplit : s.jobtag.filter (fun jt => jt.2 == t.id && s.ofUser user jt.1) =
      (s.jobtag.filter (·.2 == t.id)).filter (s.ofUser user ·.1) := by
    rw [List.filter_filter]; exact List.filter_congr fun _ _ => Bool.and_comm _ _
  rw [hsplit]
  unfold St.leftJoinRows
  split
  · rename_i h; simp [h]
  · simp only [List.filter_map, List.length_map, Function.comp_def]
    split_ifs with e
    · simp only [e, beq_self_eq_true, Option.isSome_some, Bool.true_and]
      exact congrArg List.length (List.filter_congr fun jt _ => by cases user <;> rfl)
    · simp [e]

theorem count_flatMap {α β : Type} (l : List α) (f : α → List β) (p : β → Bool) :
    ((l.flatMap f).filter p).length = (l.map fun a => ((f a).filter p).length).sum := by
  induction l with
  | nil => rfl
  | cons a l ih => simp [List.flatMap_cons, List.filter_append, ih]

theorem countTags_counts_by_name (s : St) (user : Option String) (n : String) :
    mapGet (s.countTags user).2 n =
      (s.tags.map fun t =>
        if t.name = n then (s.jobtag.filter fun jt => jt.2 == t.id && s.ofUser user jt.1).length else 0).sum := by
  rw [St.countTags_snd]
  simp only [mapGet_map_self, mem_eraseDups]
  have hcount : (((s.tags.flatMap s.leftJoinRows).filter (s.keptRow user)).filter
      fun x => x.1.name == n && x.2.isSome).length =
      (s.tags.map fun t =>
        if t.name = n then (s.jobtag.filter fun jt => jt.2 == t.id && s.ofUser user jt.1).length else 0).sum := by
    rw [List.filter_filter, count_flatMap]
    congr 1
    exact List.map_congr_left fun t _ => St.leftJoinRows_count s user n t
  split
  · exact hcount
  · rename_i hn
    rw [← hcount, eq_comm, List.length_eq_zero, List.filter_eq_nil_iff]
    intro x hx h
    simp only [Bool.and_eq_true, beq_iff_eq] at h
    exact hn (List.mem_map.mpr ⟨x, hx, h.1⟩)

/-- A `Debug` and a `Bug` tag named `Testjob`; only the first is on a job. -/
def sameNameStore : St :=
  { St.init with jobs := [(startAt 1649723812).toRow 1], nextId := 2,
                 tags := [⟨1, "Debug", "Testjob"⟩, ⟨2, "Bug", "Testjob"⟩], nextTagId := 3, jobtag := [(1, 1)] }

theorem countTags_merges_same_name :
    ⟨2, "Bug", "Testjob"⟩ ∈ (sameNameStore.countTags none).1 ∧
    (sameNameStore.jobtag.filter (·.2 == 2)).length = 0 ∧
    mapGet (sameNameStore.countTags none).2 "Testjob" = 1 := by
  decide

end CcBackend
