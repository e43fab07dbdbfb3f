import CcBackend.Api
import Mathlib.Data.List.Nodup
/-
  CcBackend.Query — the query string of `getJobs` (`internal/api/rest.go`): the keys
  `state`, `cluster`, `start-time`, `page`, `items-per-page` and `with-metadata`, read
  into the `JobFilter` and `PageRequest` that `QueryJobs` (not under src/) is given.

  `r.URL.Query()` is a Go map: the handler reads its keys in the map's iteration order,
  which Go leaves unspecified, and stops at the first key it refuses. A query is a list
  of keys with their values in that order; a key's values are those of the URL, and
  there is at least one (`vals[0]`).

  Proved:
  (1) (`getJobs_accepts_iff`) `getJobs` goes on to `QueryJobs` exactly when the caller
      passes the role gate and every key of the query, read on its own from the
      defaults, is accepted: whether a query is accepted does not depend on the
      iteration order.
  (2) (`getJobs_states_valid`) Every state of an accepted filter passes `Valid`, and
      is the state its string names (`JobState.str_ofStr`); `running` is one of them.
  (3) (`getJobs_order_independent`) The filter and page given to `QueryJobs` do not
      depend on the iteration order either: each key writes its own fields
      (`read_eq_merge`), and two distinct keys commute (`merge_comm`). Only the
      message of a refused query can change with the order.
  (4) (`strconvParse_toString`) `strconv.ParseInt` and `strconv.Atoi`, which read the
      path's ids and the query's numbers, read every `int64` back from its decimal form.
-/

namespace CcBackend

/-! ## The query -/

/-- `schema.JobState(s)`: the state a string names. -/
def JobState.ofStr : String → JobState
  | "running" => .running
  | "completed" => .completed
  | "failed" => .failed
  | "cancelled" => .cancelled
  | "stopped" => .stopped
  | "timeout" => .timeout
  | s => .other s

@[simp] theorem JobState.str_ofStr (s : String) : (JobState.ofStr s).str = s := by
  unfold JobState.ofStr; split <;> rfl

/-- The `model.JobFilter` (states, cluster, start-time range), the `model.PageRequest`
    and `withMetadata` that `getJobs` builds; the order (`startTime`, descending) is fixed. -/
structure JobsQuery where
  state : List JobState
  cluster : Option String
  startTime : Option (I64 × I64)
  itemsPerPage : I64
  page : I64
  withMetadata : Bool
  deriving DecidableEq

def JobsQuery.init : JobsQuery := ⟨[], none, none, 25, 1, false⟩

def JobsQuery.addState (q : JobsQuery) (s : String) : Except String JobsQuery :=
  if (JobState.ofStr s).valid then .ok { q with state := q.state ++ [JobState.ofStr s] }
  else .error "invalid query parameter value: state"

/-- The `switch` on one key of the query, with its values. -/
def JobsQuery.read (q : JobsQuery) (key : String) (vals : List String) : Except String JobsQuery :=
  match key with
  | "state" => vals.foldlM JobsQuery.addState q
  | "cluster" => .ok { q with cluster := some (vals.headD "") }
  | "start-time" =>
    match (vals.headD "").splitOn "-" with
    | [a, b] => do
      let ufrom ← parseInt a
      let uto ← parseInt b
      .ok { q with startTime := some (ufrom, uto) }
    | _ => .error "invalid query parameter value: startTime"
  | "page" => do
    let x ← atoi (vals.headD "")
    .ok { q with page := x }
  | "items-per-page" => do
    let x ← atoi (vals.headD "")
    .ok { q with itemsPerPage := x }
  | "with-metadata" => .ok { q with withMetadata := true }
  | _ => .error ("invalid query parameter: " ++ key)

/-- `getJobs` up to `QueryJobs`: the role gate (`handleError`, 403), then the keys of the
    query in iteration order; a refused key answers 400 with its message (`http.Error`). -/
def getJobs (user : Option User) (query : List (String × List String)) : Except Resp JobsQuery :=
  if missingApiRole user then .error (.error 403 missingApiRoleMsg)
  else match query.foldlM (fun (q : JobsQuery) kv => q.read kv.1 kv.2) JobsQuery.init with
    | .ok q => .ok q
    | .error m => .error (.plain 400 m)

/-! ## Which queries are accepted -/

theorem JobsQuery.foldlM_addState (q : JobsQuery) (vals : List String) :
    vals.foldlM JobsQuery.addState q =
      if vals.all fun s => (JobState.ofStr s).valid then .ok { q with state := q.state ++ vals.map JobState.ofStr }
      else .error "invalid query parameter value: state" := by
  induction vals generalizing q with
  | nil => simp; rfl
  | cons v vs ih =>
    simp only [List.foldlM_cons, JobsQuery.addState, List.all_cons, List.map_cons]
    by_cases hv : (JobState.ofStr v).valid = true
    · simp only [hv, if_true, Bool.true_and]
      exact (ih _).trans (by simp)
    · simp only [hv, if_false, Bool.false_and]; rfl

theorem Except.bind_isOk {ε α β : Type} (x : Except ε α) (f : α → Except ε β) :
    (x >>= f).isOk = true ↔ ∃ a, x = .ok a ∧ (f a).isOk = true := by
  cases x <;> simp [Except.isOk, Except.toBool, bind, Except.bind]

theorem JobsQuery.read_isOk (q q' : JobsQuery) (key : String) (vals : List String) :
    (q.read key vals).isOk = (q'.read key vals).isOk := by
  unfold JobsQuery.read
  split
  case h_1 => rw [foldlM_addState, foldlM_addState]; split <;> rfl
  case h_3 =>
    split
    · rename_i a b _; cases parseInt a <;> cases parseInt b <;> rfl
    · rfl
  case h_4 | h_5 => cases atoi (vals.headD "") <;> rfl
  all_goals rfl

theorem JobsQuery.foldlM_read_isOk (q : JobsQuery) (l : List (String × List String)) :
    (l.foldlM (fun (q : JobsQuery) kv => q.read kv.1 kv.2) q).isOk = true ↔
      ∀ kv ∈ l, (JobsQuery.init.read kv.1 kv.2).isOk = true := by
  induction l generalizing q with
  | nil => simp [pure, Except.pure, Except.isOk, Except.toBool]
  | cons kv l ih =>
    rw [List.foldlM_cons, Except.bind_isOk, List.forall_mem_cons, ← read_isOk q]
    constructor
    · rintro ⟨a, ha, hl⟩
      exact ⟨by simp [ha, Except.isOk, Except.toBool], (ih a).mp hl⟩
    · rintro ⟨hk, hl⟩
      obtain ⟨a, ha⟩ : ∃ a, q.read kv.1 kv.2 = .ok a := by
        cases h : q.read kv.1 kv.2 with
        | error e => simp [h, Except.isOk, Except.toBool] at hk
        | ok a => exact ⟨a, rfl⟩
      exact ⟨a, ha, (ih a).mpr hl⟩

theorem getJobs_accepts_iff (user : Option User) (query : List (String × List String)) :
    (getJobs user query).isOk = true ↔
      missingApiRole user = false ∧ ∀ kv ∈ query, (JobsQuery.init.read kv.1 kv.2).isOk = true := by
  rw [← JobsQuery.foldlM_read_isOk JobsQuery.init]
  unfold getJobs
  cases missingApiRole user
  · simp only [Bool.false_eq_true, if_false, true_and]
    split <;> rename_i h <;> simp [h, Except.isOk, Except.toBool]
  · simp [Except.isOk, Except.toBool]

/-! ## The accepted filter -/

theorem JobsQuery.read_states_valid {q r : JobsQuery} {key : String} {vals : List String}
    (hq : ∀ st ∈ q.state, st.valid = true) (h : q.read key vals = .ok r) : ∀ st ∈ r.state, st.valid = true := by
  unfold JobsQuery.read at h
  split at h
  case h_1 =>
    rw [foldlM_addState] at h
    split at h
    · rename_i hall
      cases h
      simp only [List.mem_append, List.mem_map]
      rintro st (hst | ⟨s, hs, rfl⟩)
      · exact hq st hst
      · exact List.all_eq_true.mp hall s hs
    · cases h
  case h_3 =>
    split at h
    · rename_i a b _
      cases ha : parseInt a <;> cases hb : parseInt b <;> simp only [ha, hb] at h <;> cases h; exact hq
    · cases h
  case h_4 | h_5 => cases hx : atoi (vals.headD "") <;> simp only [hx] at h <;> cases h; exact hq
  case h_7 => cases h
  all_goals cases h; exact hq

theorem JobsQuery.foldlM_states_valid (l : List (String × List String)) {q r : JobsQuery}
    (hq : ∀ st ∈ q.state, st.valid = true) (h : l.foldlM (fun (q : JobsQuery) kv => q.read kv.1 kv.2) q = .ok r) :
    ∀ st ∈ r.state, st.valid = true := by
  induction l generalizing q with
  | nil => cases h; exact hq
  | cons kv l ih =>
    rw [List.foldlM_cons] at h
    cases hk : q.read kv.1 kv.2 with
    | error e => rw [hk] at h; cases h
    | ok a => rw [hk] at h; exact ih (read_states_valid hq hk) h

theorem getJobs_states_valid {user : Option User} {query : List (String × List String)} {r : JobsQuery}
    (h : getJobs user query = .ok r) : ∀ st ∈ r.state, st.valid = true := by
  unfold getJobs at h
  split at h
  · cases h
  · cases hf : query.foldlM (fun (q : JobsQuery) kv => q.read kv.1 kv.2) JobsQuery.init with
    | error m => rw [hf] at h; cases h
    | ok r' =>
      rw [hf] at h; cases h
      exact JobsQuery.foldlM_states_valid query (by simp [JobsQuery.init]) hf

/-- `running` is a state filter `getJobs` accepts. -/
example : getJobs none [("state", ["running"]), ("page", ["2"])] = .ok ⟨[.running], none, none, 25, 2, false⟩ := rfl

/-! ## The order of the keys -/

/-- What reading key `k` leaves in the request `q`, given `r`, the key read on its own
    from the defaults: the fields of that key taken from `r`, the states appended. -/
def JobsQuery.merge (q r : JobsQuery) (k : String) : JobsQuery :=
  match k with
  | "state" => { q with state := q.state ++ r.state }
  | "cluster" => { q with cluster := r.cluster }
  | "start-time" => { q with startTime := r.startTime }
  | "page" => { q with page := r.page }
  | "items-per-page" => { q with itemsPerPage := r.itemsPerPage }
  | "with-metadata" => { q with withMetadata := r.withMetadata }
  | _ => q

/-- The request a key reads on its own, from the defaults (the defaults if it is refused). -/
def JobsQuery.own (kv : String × List String) : JobsQuery :=
  (JobsQuery.init.read kv.1 kv.2).toOption.getD JobsQuery.init

/-- A key is read the same way whatever came before it, and only writes its own fields. -/
theorem JobsQuery.read_eq_merge (q : JobsQuery) (k : String) (v : List String) :
    q.read k v = (JobsQuery.init.read k v).map (q.merge · k) := by
  unfold JobsQuery.read JobsQuery.merge
  split
  case h_1 => rw [foldlM_addState, foldlM_addState]; split <;> simp [Except.map, JobsQuery.init]
  case h_3 =>
    split
    · rename_i a b _; cases parseInt a <;> cases parseInt b <;> rfl
    · rfl
  case h_4 | h_5 => cases atoi (v.headD "") <;> rfl
  all_goals rfl

theorem JobsQuery.merge_comm (q r₁ r₂ : JobsQuery) {k₁ k₂ : String} (hk : k₁ ≠ k₂) :
    (q.merge r₁ k₁).merge r₂ k₂ = (q.merge r₂ k₂).merge r₁ k₁ := by
  unfold JobsQuery.merge
  split <;> split <;> first | rfl | contradiction

theorem JobsQuery.foldlM_read_toOption (l : List (String × List String)) (q : JobsQuery) :
    (l.foldlM (fun (q : JobsQuery) kv => q.read kv.1 kv.2) q).toOption =
      if ∀ kv ∈ l, (JobsQuery.init.read kv.1 kv.2).isOk = true then
        some (l.foldl (fun q kv => q.merge (JobsQuery.own kv) kv.1) q)
      else none := by
  induction l generalizing q with
  | nil => rfl
  | cons kv l ih =>
    rw [List.foldlM_cons, read_eq_merge, List.foldl_cons]
    simp only [List.forall_mem_cons]
    cases h : JobsQuery.init.read kv.1 kv.2 with
    | error e =>
      simp only [Except.map, bind, Except.bind, Except.toOption, Except.isOk, Except.toBool,
        Bool.false_eq_true, false_and, if_false]
    | ok r =>
      have hown : JobsQuery.own kv = r := by simp only [JobsQuery.own, h, Except.toOption, Option.getD_some]
      simp only [Except.map, bind, Except.bind, hown]
      exact (ih _).trans (by simp only [Except.isOk, Except.toBool, true_and])

theorem getJobs_toOption (user : Option User) (query : List (String × List String)) :
    (getJobs user query).toOption =
      if missingApiRole user then none
      else (query.foldlM (fun (q : JobsQuery) kv => q.read kv.1 kv.2) JobsQuery.init).toOption := by
  unfold getJobs
  split
  · rfl
  · split <;> rename_i h <;> rw [h] <;> rfl

/-- The keys of a Go map are distinct, so any iteration order gives the same request. -/
theorem getJobs_order_independent (user : Option User) {q₁ q₂ : List (String × List String)}
    (hp : q₁.Perm q₂) (hk : (q₁.map Prod.fst).Nodup) :
    (getJobs user q₁).toOption = (getJobs user q₂).toOption := by
  rw [getJobs_toOption, getJobs_toOption, JobsQuery.foldlM_read_toOption, JobsQuery.foldlM_read_toOption]
  have hall : (∀ kv ∈ q₁, (JobsQuery.init.read kv.1 kv.2).isOk = true) ↔
      ∀ kv ∈ q₂, (JobsQuery.init.read kv.1 kv.2).isOk = true :=
    forall_congr' fun kv => imp_congr_left hp.mem_iff
  have hcomm : ∀ x ∈ q₁, ∀ y ∈ q₁, ∀ z : JobsQuery,
      (z.merge (JobsQuery.own x) x.1).merge (JobsQuery.own y) y.1 =
        (z.merge (JobsQuery.own y) y.1).merge (JobsQuery.own x) x.1 := by
    intro x hx y hy z
    by_cases hxy : x.1 = y.1
    · rw [List.inj_on_of_nodup_map hk hx hy hxy]
    · exact JobsQuery.merge_comm z _ _ hxy
  rw [hp.foldl_eq' hcomm]
  simp only [hall]

theorem getJobs_order_independent_page_first :
    (getJobs none [("state", ["running"]), ("page", ["2"])]).toOption =
      (getJobs none [("page", ["2"]), ("state", ["running"])]).toOption :=
  getJobs_order_independent none (List.Perm.swap _ _ []) (by decide)

/-! ## Go's decimal integers -/

theorem digitChar_decimal : ∀ d, d < 10 → (Nat.digitChar d).isDigit = true ∧ (Nat.digitChar d).toNat - 48 = d := by
  decide

theorem le_foldl_decStep (ds : List Char) (n : Nat) : n ≤ ds.foldl decStep n := by
  induction ds generalizing n with
  | nil => exact le_refl n
  | cons c cs ih => exact le_trans (by unfold decStep; omega) (ih _)

/-- `ParseUint`'s loop reads digits whose value stays below 2^64 as that value. -/
theorem parseDigits_ok : ∀ (ds : List Char) (n : Nat), (∀ c ∈ ds, c.isDigit = true) →
    ds.foldl decStep n < 2 ^ 64 → parseDigits n ds = .ok (ds.foldl decStep n)
  | [], _, _, _ => rfl
  | c :: cs, n, hd, hlt => by
    have hle := le_foldl_decStep cs (decStep n c)
    rw [List.foldl_cons] at hlt ⊢
    rw [parseDigits, hd c (List.mem_cons_self _ _), Bool.not_true, if_neg Bool.false_ne_true, if_neg (by omega)]
    exact parseDigits_ok cs _ (fun x hx => hd x (List.mem_cons_of_mem _ hx)) hlt

/-- `Nat.toDigitsCore 10` with enough fuel puts the digits of `n` before `ds`, which
    `decStep` reads back as `n` and reads on through `ds`. -/
theorem toDigitsCore_decimal : ∀ (fuel n : Nat) (ds : List Char), n < fuel → (∀ c ∈ ds, c.isDigit = true) →
    ∃ c l, Nat.toDigitsCore 10 fuel n ds = c :: l ∧ (∀ x ∈ c :: l, x.isDigit = true) ∧
      (c :: l).foldl decStep 0 = ds.foldl decStep n
  | 0, n, _, h, _ => absurd h (Nat.not_lt_zero n)
  | fuel + 1, n, ds, h, hds => by
    obtain ⟨hdig, hval⟩ := digitChar_decimal (n % 10) (Nat.mod_lt _ (by decide))
    have hds' : ∀ x ∈ Nat.digitChar (n % 10) :: ds, x.isDigit = true := by
      simpa [hdig] using hds
    have hcore : Nat.toDigitsCore 10 (fuel + 1) n ds = if n / 10 = 0 then Nat.digitChar (n % 10) :: ds
        else Nat.toDigitsCore 10 fuel (n / 10) (Nat.digitChar (n % 10) :: ds) := rfl
    rw [hcore]
    split
    · refine ⟨_, _, rfl, hds', ?_⟩
      rw [List.foldl_cons, decStep, hval]
      congr 1; omega
    · obtain ⟨c, l, e, hall, hfold⟩ := toDigitsCore_decimal fuel (n / 10) _ (by omega) hds'
      refine ⟨c, l, e, hall, ?_⟩
      rw [hfold, List.foldl_cons, decStep, hval]
      congr 1; omega

theorem Char.isDigit_ne_sign {c : Char} (h : c.isDigit = true) : c ≠ '-' ∧ c ≠ '+' := by
  constructor <;> rintro rfl <;> simp at h

/-- `strconvParse` of a sign and digits: the value they spell, when in range. -/
theorem strconvParse_digits (fn s : String) (neg : Bool) (c : Char) (l : List Char)
    (hs : s.toList = (if neg then ['-'] else []) ++ c :: l) (hall : ∀ x ∈ c :: l, x.isDigit = true)
    {v : Int} (hv : (if neg then -(((c :: l).foldl decStep 0 : Nat) : Int) else (((c :: l).foldl decStep 0 : Nat) : Int)) = v)
    (hr : -(2 ^ 64 : Int) ≤ 2 * v ∧ 2 * v < 2 ^ 64) :
    strconvParse fn s = .ok ⟨v, hr⟩ := by
  obtain ⟨hc1, hc2⟩ := Char.isDigit_ne_sign (hall c (List.mem_cons_self _ _))
  have hp : parseDigits 0 (c :: l) = .ok ((c :: l).foldl decStep 0) :=
    parseDigits_ok _ 0 hall (by cases neg <;> simp only [Bool.false_eq_true, ite_false, ite_true] at hv <;> omega)
  unfold strconvParse
  split
  rename_i neg' ds heq
  split at heq <;> rename_i r hr' <;> simp only [Prod.mk.injEq] at heq <;> obtain ⟨rfl, rfl⟩ := heq <;>
    cases neg <;> simp only [Bool.false_eq_true, ite_false, ite_true, List.nil_append, List.singleton_append,
      hr', List.cons.injEq] at hs hv
  · exact absurd hs.1.symm hc1
  · obtain ⟨-, rfl⟩ := hs
    subst hv
    simp only [List.isEmpty_cons, Bool.false_eq_true, ite_false]
    rw [hp]
    exact dif_pos hr
  · exact absurd hs.1.symm hc2
  · exact absurd hs.1 (by decide)
  · subst hv
    simp only [hs, List.isEmpty_cons, Bool.false_eq_true, ite_false]
    rw [hp]
    exact dif_pos hr
  · exact absurd hs (r _)

/-- Go's decimal form of an `int64`, as `%d` and the JSON encoder print it, parses back to
    the same value with `strconv.ParseInt` and `strconv.Atoi`: the ids the API answers
    (a new job's `id`) are the ids its path parameters (`stop_job/{id}`, `tag_job/{id}`,
    `delete_job/{id}`) read. -/
theorem strconvParse_toString (fn : String) (i : I64) : strconvParse fn (toString i.val) = .ok i := by
  obtain ⟨v, hv⟩ := i
  cases v with
  | ofNat n =>
    obtain ⟨c, l, e, hall, hfold⟩ := toDigitsCore_decimal (n + 1) n [] (by omega) (by simp)
    exact strconvParse_digits fn _ false c l e hall (congrArg Int.ofNat hfold) hv
  | negSucc n =>
    obtain ⟨c, l, e, hall, hfold⟩ := toDigitsCore_decimal (n + 2) (n + 1) [] (by omega) (by simp)
    have hs : (toString (Int.negSucc n)).toList = '-' :: c :: l := by
      show ['-'] ++ Nat.toDigitsCore 10 (n + 1 + 1) (n + 1) [] = _
      rw [e]; rfl
    exact strconvParse_digits fn _ true c l hs hall (by rw [if_pos rfl, hfold]; rfl) hv

end CcBackend
