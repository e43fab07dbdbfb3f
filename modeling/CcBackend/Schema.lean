import Mathlib.Algebra.Group.Int
import Mathlib.Algebra.Order.Ring.Nat
/-
  CcBackend.Schema — the records the job API reads and writes (`pkg/schema`,
  `internal/api/rest.go`).

  Go's fixed-width integers are `IntN w`: an integer in the two's-complement range of
  `w` bits, with Go's wrapping arithmetic (`IntN.sub`) and conversion (`IntN.cast`).
  A job row holds the columns of the `job` table; the `Job` value a handler carries is a
  row plus the tags the handler loaded into it (`FindById` loads none). `JobState` is a
  string in Go: the six names the API documents, and every other string as `other`.
-/

namespace CcBackend

/-! ## Go integers -/

/-- Go's `intw`: `-2^(w-1) ≤ val < 2^(w-1)`. -/
structure IntN (w : Nat) where
  val : Int
  range : -(2 ^ w : Int) ≤ 2 * val ∧ 2 * val < 2 ^ w

abbrev I64 := IntN 64
abbrev I32 := IntN 32

instance (w : Nat) : DecidableEq (IntN w) := fun a b =>
  decidable_of_iff (a.val = b.val)
    ⟨fun h => by cases a; cases b; cases h; rfl, fun h => h ▸ rfl⟩

theorem bmod_range (x : Int) (w : Nat) :
    -(2 ^ w : Int) ≤ 2 * Int.bmod x (2 ^ w) ∧ 2 * Int.bmod x (2 ^ w) < 2 ^ w := by
  have hp : (0 : Int) < 2 ^ w := by exact_mod_cast Nat.two_pow_pos w
  have h1 := Int.le_bmod (x := x) (m := 2 ^ w) (Nat.two_pow_pos w)
  have h2 := Int.bmod_lt (x := x) (m := 2 ^ w) (Nat.two_pow_pos w)
  push_cast at h1 h2
  omega

/-- Go's wrap-around: the `w`-bit value congruent to `x`. -/
def IntN.ofInt (w : Nat) (x : Int) : IntN w := ⟨Int.bmod x (2 ^ w), bmod_range x w⟩

instance (w n : Nat) : OfNat (IntN w) n := ⟨IntN.ofInt w n⟩

/-- `a - b` on `intw`, wrapping on overflow. -/
def IntN.sub {w : Nat} (a b : IntN w) : IntN w := IntN.ofInt w (a.val - b.val)

instance (w : Nat) : Sub (IntN w) := ⟨IntN.sub⟩

/-- Go's conversion `intv(x)` of a `w`-bit value: keep the low `v` bits. -/
def IntN.cast {w : Nat} (v : Nat) (a : IntN w) : IntN v := IntN.ofInt v a.val

@[simp] theorem IntN.ofInt_val (w : Nat) (x : Int) : (IntN.ofInt w x).val = Int.bmod x (2 ^ w) := rfl
@[simp] theorem IntN.sub_val {w : Nat} (a b : IntN w) : (a - b).val = Int.bmod (a.val - b.val) (2 ^ w) := rfl
@[simp] theorem IntN.cast_val {w : Nat} (v : Nat) (a : IntN w) : (a.cast v).val = Int.bmod a.val (2 ^ v) := rfl

/-- A value already in range is its own wrap. -/
theorem bmod_self {x : Int} {m : Nat} (h : -(m : Int) ≤ 2 * x ∧ 2 * x < m) : Int.bmod x m = x := by
  rw [Int.bmod_def]
  by_cases hx : 0 ≤ x
  · rw [Int.emod_eq_of_lt hx (by omega)]
    split <;> omega
  · have he : x % (m : Int) = x + m := by
      rw [← Int.add_emod_self]
      exact Int.emod_eq_of_lt (by omega) (by omega)
    rw [he]
    split <;> omega

theorem bmod_of_range {x : Int} {w : Nat} (h : -(2 ^ w : Int) ≤ 2 * x ∧ 2 * x < 2 ^ w) :
    Int.bmod x (2 ^ w) = x :=
  bmod_self (by exact_mod_cast h)

/-- Wrapping to `m` and then to a divisor `n` of `m` is wrapping to `n`. -/
theorem bmod_bmod_of_dvd (x : Int) {m n : Nat} (h : (n : Int) ∣ m) : Int.bmod (Int.bmod x m) n = Int.bmod x n := by
  have e : Int.bmod x m % n = x % n := by
    rw [← Int.emod_emod_of_dvd _ h, Int.bmod_emod, Int.emod_emod_of_dvd _ h]
  rw [Int.bmod_def (Int.bmod x m) n, e, Int.bmod_def x n]

/-! ## Job state and monitoring status -/

/-- `schema.JobState`, a string. `other ""` is the empty string: no state given. -/
inductive JobState where
  | running
  | completed
  | failed
  | cancelled
  | stopped
  | timeout
  | other (s : String)
  deriving DecidableEq, Repr

/-- `JobState.Valid` (`pkg/schema`, not under src/): the six states `getJobs` documents
    for its `state` filter (`Enums(running, completed, failed, cancelled, stopped,
    timeout)`), which it checks with `Valid`; any other string is not valid. -/
def JobState.valid : JobState → Bool
  | .other _ => false
  | _ => true

/-- A state a stopped job can be left in. -/
def JobState.terminal (s : JobState) : Bool := s.valid && s != .running

/-- The string Go prints for the state. -/
def JobState.str : JobState → String
  | .running => "running"
  | .completed => "completed"
  | .failed => "failed"
  | .cancelled => "cancelled"
  | .stopped => "stopped"
  | .timeout => "timeout"
  | .other s => s

/-- `schema.MonitoringStatus*` (not under src/): the four values of the spec's
    enumeration; `runningOrArchiving` is "pending". -/
inductive MonitoringStatus where
  | disabled
  | runningOrArchiving
  | archivingFailed
  | archivingSuccessful
  deriving DecidableEq, Repr

/-! ## Records -/

/-- `schema.Tag`: a row of the `tag` table. -/
structure Tag where
  id : Int
  type : String
  name : String
  deriving DecidableEq, Repr

/-- A tag's identity: `(tag_type, tag_name)`. -/
def Tag.key (t : Tag) : String × String := (t.type, t.name)

/-- Summary statistics the archiver computes (`schema.JobStatistics` per metric). -/
abbrev Stats := List (String × Int)

/-- A row of the `job` table. -/
structure JobRow where
  id : Int
  jobId : I64
  user : String
  project : String
  cluster : String
  partition : String
  numNodes : I32
  numHWThreads : I32
  numAcc : I32
  startTime : I64
  duration : I32
  walltime : I64
  state : JobState
  monitoringStatus : MonitoringStatus
  metaData : List (String × String)
  statistics : Option Stats

/-- `schema.Job`: a row and the tags loaded into it. -/
structure Job extends JobRow where
  tags : List Tag

/-- `schema.JobMeta`, the body of `start_job`, decoded over `schema.JobDefaults`. -/
structure JobMeta where
  jobId : I64
  user : String
  project : String
  cluster : String
  partition : String
  numNodes : I32
  numHWThreads : I32
  numAcc : I32
  startTime : I64
  duration : I32
  walltime : I64
  state : JobState
  monitoringStatus : MonitoringStatus
  metaData : List (String × String)
  tags : List Tag

/-- `StopJobApiRequest`. -/
structure StopJobApiRequest where
  stopTime : I64
  state : JobState
  jobId : Option I64
  cluster : Option String
  startTime : Option I64

/-- `DeleteJobApiRequest`. -/
structure DeleteJobApiRequest where
  jobId : Option I64
  cluster : Option String
  startTime : Option I64

/-- `ApiTag`. -/
structure ApiTag where
  type : String
  name : String

end CcBackend
