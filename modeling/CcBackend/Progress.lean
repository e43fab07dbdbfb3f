import CcBackend.Invariant
import Mathlib.Algebra.BigOperators.Group.List
/-
  CcBackend.Progress — the server always gets its work done: with no new request, the
  workers (handlers and archiving goroutines) finish, whatever the interleaving.

  Each worker has a bound on the steps it has left (`Pc.rank`), counting the archiving
  goroutine a stop handler will start; every step lowers the sum over all workers
  (`Sys.load`). A worker can always take a step unless it has finished or it is a
  `startJob` waiting for `RepositoryMutex`, and then the mutex has a holder, which can
  always take a step (`Inv.mutex`).

  Proved:
  (1) Termination (`steps_le_load`): a sequence of worker steps with no request
      arriving has at most `Sys.load` steps.
  (2) Deadlock freedom (`no_step_iff_all_idle`): in every reachable state, no worker
      can take a step exactly when every worker has finished.
  (3) (`workers_drain`) From every reachable state, the workers' own steps finish
      every worker, in at most `Sys.load` steps.
-/

namespace CcBackend

/-! ## Steps left -/

/-- The steps a tag loop has left once `AddTagOrCreate` returns to it. -/
def Loop.rank : Loop → Nat
  | .start _ rest | .tagJob _ _ rest => 7 * rest.length + 1

def Caller.rank : Caller → Nat
  | .orCreate k _ _ => k.rank
  | .resolver => 0

/-- The steps `tagJob` has left once it has read the job's tags, by its decoded body. -/
def tagJobRank : Except String (List ApiTag) → Nat
  | .ok tags => 7 * tags.length + 2
  | .error _ => 1

@[simp] theorem tagJobRank_ok (tags : List ApiTag) : tagJobRank (.ok tags) = 7 * tags.length + 2 := rfl
@[simp] theorem tagJobRank_error (e : String) : tagJobRank (.error e) = 1 := rfl
theorem tagJobRank_pos (b : Except String (List ApiTag)) : 0 < tagJobRank b := by cases b <;> simp

/-- A bound on the steps a worker has left, those of the goroutine it will start included. -/
def Pc.rank : Pc → Nat
  | .startLock req => 7 * req.tags.length + 4
  | .startFindAll req => 7 * req.tags.length + 3
  | .startInsert req => 7 * req.tags.length + 2
  | .startTags _ tags => 7 * tags.length + 1
  | .tagIdLookup k _ _ _ => k.rank + 6
  | .createTag k _ _ _ => k.rank + 5
  | .addTagInsert cl _ _ | .removeTagDelete cl _ _ => cl.rank + 4
  | .tagFindById cl _ _ => cl.rank + 3
  | .tagGetTags cl _ _ _ => cl.rank + 2
  | .tagUpdate cl _ _ _ _ => cl.rank + 1
  | .stopFindById _ _ | .stopFind _ _ => 5
  | .stopUpdate _ _ => 4
  | .archFetch _ => 3
  | .archArchive _ => 2
  | .archFailed _ | .archFinal _ _ => 1
  | .tagJobFind _ body => tagJobRank body + 1
  | .tagJobGetTags _ body => tagJobRank body
  | .tagJobLoop _ tags => 7 * tags.length + 1
  | .deleteById _ _ | .deleteRow _ | .deleteBefore _ => 1
  | .deleteFind _ _ => 2
  | .done _ | .exited => 0

/-- The steps all workers have left. -/
def Sys.load (s : Sys) : Nat := (s.procs.map Pc.rank).sum

@[simp] theorem Loop.fail_rank (k : Loop) (e : DbErr) : (k.fail e).rank = 0 := by cases k <;> rfl
@[simp] theorem Caller.fail_rank (cl : Caller) (e : DbErr) : (cl.fail e).rank = 0 := by
  cases cl with
  | orCreate k => exact k.fail_rank e
  | resolver => rfl
@[simp] theorem Caller.ret_rank (cl : Caller) (t : Int) (ts : List Tag) : (cl.ret t ts).rank = cl.rank := by
  cases cl with
  | orCreate k => cases k <;> rfl
  | resolver => rfl
theorem checkAndHandleStopJob_rank (job : Job) (req : StopJobApiRequest) :
    (checkAndHandleStopJob job req).rank ≤ 4 := by
  unfold checkAndHandleStopJob; split_ifs <;> simp [Pc.rank]

/-- Every step lowers the steps its worker has left by more than the goroutines it starts add. -/
theorem run_rank {c : Cfg} {s s' : St} {f : Fault} {p p' : Pc} {sp : List Pc}
    (h : p.run c s f = some (s', p', sp)) : p'.rank + (sp.map Pc.rank).sum < p.rank := by
  cases p <;> simp only [Pc.run] at h <;> (repeat' split at h) <;>
    (try simp only [Option.some.injEq, Prod.mk.injEq] at h) <;> (try obtain ⟨rfl, rfl, rfl⟩ := h)
  case stopFindById.h_2 | stopFind.h_2 => exact Nat.lt_succ_of_le (checkAndHandleStopJob_rank _ _)
  case tagJobGetTags.h_1 => exact tagJobRank_pos _
  all_goals
    (try simp only [Loop.fail_rank, Caller.fail_rank, Caller.ret_rank])
    simp only [Pc.rank, Loop.rank, Caller.rank, tagJobRank_ok, tagJobRank_error, List.map, List.sum_cons,
      List.sum_nil, List.length_cons]
    omega

/-! ## Termination -/

/-- `n` steps of workers, with no request arriving. -/
inductive Execs (c : Cfg) : Sys → Nat → Sys → Prop
  | refl (s : Sys) : Execs c s 0 s
  | step {s s' s'' : Sys} {i n : Nat} {p : Pc} {f : Fault} :
      Step c s (.exec i p f) s' → Execs c s' n s'' → Execs c s (n + 1) s''

/-- A worker's step lowers the load. -/
theorem Step.load_lt {c : Cfg} {s s' : Sys} {i : Nat} {p : Pc} {f : Fault} (hs : Step c s (.exec i p f) s') :
    s'.load < s.load := by
  cases hs with
  | exec _ _ _ st p' sp hget hrun =>
    obtain ⟨hlt, hpi⟩ := List.getElem?_eq_some_iff.mp hget
    obtain ⟨l₁, l₂, hl, -, hset⟩ := @List.exists_of_set _ _ p' _ hlt
    rw [hpi] at hl
    have := run_rank hrun
    simp only [Sys.load]
    rw [hset, hl]
    simp only [List.map_append, List.map_cons, List.sum_append, List.sum_cons]
    omega

theorem steps_le_load {c : Cfg} {s s' : Sys} {n : Nat} (he : Execs c s n s') : n + s'.load ≤ s.load := by
  induction he with
  | refl => omega
  | step hs _ ih => have := hs.load_lt; omega

/-- Building worker steps from a trace of scheduler choices that only runs workers. -/
theorem Execs.runActs {c : Cfg} {s s' : Sys} {is : List (Nat × Fault)}
    (h : s.runActs c (is.map fun x => .exec x.1 x.2) = some s') : Execs c s is.length s' := by
  induction is generalizing s with
  | nil => simp only [List.map_nil, Sys.runActs, Option.some.injEq] at h; subst h; exact .refl _
  | cons x is ih =>
    simp only [List.map_cons, Sys.runActs] at h
    split at h
    · rename_i e t ha
      have hs := Sys.act_step ha
      simp only [Sys.act] at ha
      split at ha
      · obtain ⟨_, _, he⟩ := Option.map_eq_some'.mp ha
        cases he
        exact .step hs (ih h)
      · cases ha
    · cases h

/-- A `startJob` run from its arrival to its answer. -/
theorem steps_le_load_startJob :
    4 + (Sys.trace Cfg.plain [.arrive (.startJob none (.ok (startAt 1649723812))), .exec 0 none, .exec 0 none,
      .exec 0 none, .exec 0 none]).load ≤
      (Sys.trace Cfg.plain [.arrive (.startJob none (.ok (startAt 1649723812)))]).load :=
  @steps_le_load Cfg.plain _ _ _ (@Execs.runActs Cfg.plain _ _ [(0, none), (0, none), (0, none), (0, none)] rfl)

/-! ## Deadlock freedom -/

/-- A worker can take a step unless it has finished or waits for a held mutex. -/
theorem Pc.run_isSome {c : Cfg} {s : St} {f : Fault} {p : Pc} (hidle : p.idle = false)
    (hlock : ∀ req, p = .startLock req → s.mutex = false) : (p.run c s f).isSome = true := by
  cases p
  case done | exited => cases hidle
  case startLock req => simp only [Pc.run, hlock req rfl, Bool.false_eq_true, if_false]; rfl
  all_goals (simp only [Pc.run]; repeat' split) <;> rfl

/-- Worker `p` of the list takes a step. -/
theorem Step.of_mem {c : Cfg} {s : Sys} {p : Pc} {f : Fault} (hp : p ∈ s.procs) (hrun : (p.run c s.st f).isSome = true) :
    ∃ i s', Step c s (.exec i p f) s' := by
  obtain ⟨i, hi⟩ := List.mem_iff_getElem?.mp hp
  obtain ⟨⟨st, p', sp⟩, hr⟩ := Option.isSome_iff_exists.mp hrun
  exact ⟨i, _, .exec s i p f st p' sp hi hr⟩

/-- A worker that has not finished can take a step, or it waits for the mutex, and the
    mutex's holder can. -/
theorem Reach.exists_step {c : Cfg} {s : Sys} {h : List Ev} (hr : Reach c s h) {p : Pc} (hp : p ∈ s.procs)
    (hidle : p.idle = false) : ∃ i q s', Step c s (.exec i q none) s' := by
  by_cases hwait : ∃ req, p = .startLock req ∧ s.st.mutex = true
  · obtain ⟨req, rfl, hm⟩ := hwait
    have hcount := (Inv.reach hr).mutex
    rw [hm, if_pos rfl] at hcount
    obtain ⟨q, hq, hqh⟩ := List.countP_pos_iff.mp (by omega : 0 < s.procs.countP Pc.holder)
    have hq_idle : q.idle = false := by cases q <;> first | rfl | cases hqh
    obtain ⟨i, s', hs⟩ := Step.of_mem (f := none) hq (Pc.run_isSome hq_idle fun req e => by subst e; cases hqh)
    exact ⟨i, q, s', hs⟩
  · obtain ⟨i, s', hs⟩ := Step.of_mem (f := none) hp (Pc.run_isSome hidle fun req e => by
      subst e; cases hb : s.st.mutex; rfl; exact absurd ⟨req, rfl, hb⟩ hwait)
    exact ⟨i, p, s', hs⟩

theorem no_step_iff_all_idle {c : Cfg} {s : Sys} {h : List Ev} (hr : Reach c s h) :
    (∀ i p f s', ¬Step c s (.exec i p f) s') ↔ s.procs.all Pc.idle = true := by
  constructor
  · intro hno
    rw [List.all_eq_true]
    intro p hp
    by_contra hidle
    obtain ⟨i, q, s', hs⟩ := hr.exists_step hp (by simpa using hidle)
    exact hno i q none s' hs
  · intro hall i p f s' hs
    cases hs with
    | exec _ _ _ st p' sp hget hrun =>
      have hidle := List.all_eq_true.mp hall p (List.getElem?_mem hget)
      cases p
      case done | exited => cases hrun
      all_goals cases hidle

/-- Job 1 is started; a stop request for it arrives and stops it, starting the archiving
    goroutine, which has not run yet. -/
def stopActs : List Act :=
  [.arrive (.startJob none (.ok (startAt 1649723812))), .exec 0 none, .exec 0 none, .exec 0 none, .exec 0 none,
   .arrive (.stopJobById none "1" (.ok ⟨1649763839, .completed, none, none, none⟩)), .exec 1 none, .exec 1 none]

theorem no_step_iff_all_idle_stopped :
    (∀ i p f s', ¬Step Cfg.plain (Sys.trace Cfg.plain stopActs) (.exec i p f) s') ↔
      (Sys.trace Cfg.plain stopActs).procs.all Pc.idle = true := by
  obtain ⟨h, hr⟩ := Reach.trace (by decide : (Sys.init.runActs Cfg.plain stopActs).isSome = true)
  exact no_step_iff_all_idle hr

/-! ## Draining -/

theorem workers_drain {c : Cfg} {s : Sys} {h : List Ev} (hr : Reach c s h) :
    ∃ n s', Execs c s n s' ∧ n ≤ s.load ∧ s'.procs.all Pc.idle = true := by
  obtain ⟨m, hl⟩ : ∃ m, s.load = m := ⟨_, rfl⟩
  induction m using Nat.strong_induction_on generalizing s h with
  | _ m ih =>
    by_cases hall : s.procs.all Pc.idle = true
    · exact ⟨0, s, .refl s, Nat.zero_le _, hall⟩
    · obtain ⟨p, hp, hidle⟩ : ∃ p ∈ s.procs, p.idle = false := by simpa [List.all_eq_true] using hall
      obtain ⟨i, q, s', hs⟩ := hr.exists_step hp hidle
      have hlt := hs.load_lt
      obtain ⟨n, t, he, hn, ht⟩ := ih _ (hl ▸ hlt) (Run.step hr hs trivial) rfl
      exact ⟨n + 1, t, .step hs he, by omega, ht⟩

/-- The archiving goroutine of the stopped job still to run. -/
theorem workers_drain_stopped :
    ∃ n s', Execs Cfg.plain (Sys.trace Cfg.plain stopActs) n s' ∧
      n ≤ (Sys.trace Cfg.plain stopActs).load ∧ s'.procs.all Pc.idle = true := by
  obtain ⟨h, hr⟩ := Reach.trace (by decide : (Sys.init.runActs Cfg.plain stopActs).isSome = true)
  exact workers_drain hr

end CcBackend
