import CcBackend.Duplicates
import CcBackend.Lifecycle
import CcBackend.Tags
/-
  CcBackend.TagRuns — runs of the tag statements (`tags.go`): the two loops over
  `AddTagOrCreate`, `tagJob`'s over the request's tags and `startJob`'s over the tags
  of the job it inserted (`internal/api/rest.go`), each run to its answer with no
  other worker in between; and `AddTag` and `RemoveTag` back to back.

  Each turn of a loop is one `AddTagOrCreate`: `TagId`, `CreateTag` when the tag is
  absent, then `AddTag` (insert the association, `FindById`, `GetTags`, `UpdateTags`).
  Run alone, a turn ends in its loop's next turn with the association added, or in
  the loop's error answer; the only statement that can fail is the insert, which the
  `jobtag` key refuses when the job has the tag already (`addTagOrCreate_alone`). A
  loop never undoes the turns before a failed one.

  Proved:
  (1) (`tagJob_alone`) `tagJob` run alone on a stored job answers 200 exactly when the
      request names no (type, name) twice and none the job has; it then answers the
      job with its tags followed by the requested ones, each with the id of the one
      tag of its type and name, and the job has them all. Otherwise it answers 500
      with the `jobtag` key's message.
  (2) (`startJob_alone_tags`) `startJob` run alone inserts the job whatever becomes of
      its tags, and answers 201 exactly when the request names no (type, name) twice;
      otherwise 500 with the `jobtag` key's message, the job stored all the same (the
      partial success the spec leaves open).
  Both assume a store whose tags are unique per type and name with distinct ids below
  the next tag id (as in every reachable state), whose associations of the job name
  tag ids below it (as in every reachable state of a run whose GraphQL `addTag`s name
  tags given out; `CcBackend.Durability`), and whose archived job has an archive. (2)
  also assumes that every association names a job id below the next one, so that the
  new job has none, and that the start request does not say the job is archived, for
  then its first `UpdateTags` finds no archive.
  (3) (`removeTag_undoes_addTag`) The GraphQL `addTag` and then `removeTag` of an
      association the job does not have, each run alone, give back the store they
      started from, archive included when it held the job's tags.
-/

namespace CcBackend

/-! ## Running alone -/

/-- `p` runs alone and without faults from `s` to `p'` at `s'`. -/
inductive Pc.Alone (c : Cfg) : St → Pc → St → Pc → Prop
  | refl (s : St) (p : Pc) : Pc.Alone c s p s p
  | step {s s₁ s₂ : St} {p p₁ p₂ : Pc} (sp : List Pc) :
      p.run c s none = some (s₁, p₁, sp) → Pc.Alone c s₁ p₁ s₂ p₂ → Pc.Alone c s p s₂ p₂

theorem Pc.Alone.trans {c : Cfg} {s s₁ s₂ : St} {p p₁ p₂ : Pc} (h₁ : Pc.Alone c s p s₁ p₁)
    (h₂ : Pc.Alone c s₁ p₁ s₂ p₂) : Pc.Alone c s p s₂ p₂ := by
  induction h₁ with
  | refl => exact h₂
  | step sp hr _ ih => exact .step sp hr (ih h₂)

/-- A run alone to an answer is the run `Pc.solo` gives with enough steps. -/
theorem Pc.Alone.solo {c : Cfg} {s s' : St} {p : Pc} {r : Resp} (h : Pc.Alone c s p s' (.done r)) :
    ∃ n, Pc.solo c n s p = (s', .done r) := by
  generalize hd : Pc.done r = d at h
  induction h with
  | refl => subst hd; exact ⟨0, rfl⟩
  | step _ hr _ ih => obtain ⟨n, hn⟩ := ih hd; exact ⟨n + 1, (Pc.solo_step hr).trans hn⟩

/-! ## The store a loop runs on -/

def ApiTag.key (t : ApiTag) : String × String := (t.type, t.name)

/-- The message of the `jobtag` key refusing a second association. -/
def jobtagUnique : String := "UNIQUE constraint failed: jobtag.job_id, jobtag.tag_id"

/-- The tag table as its keys and `CreateTag` keep it: tags unique per type and name,
    with distinct ids below the next tag id. -/
structure St.TagTable (s : St) : Prop where
  keys : (s.tags.map Tag.key).Nodup
  ids : (s.tags.map (·.id)).Nodup
  idLt : ∀ t ∈ s.tags, t.id < s.nextTagId

theorem St.TagTable.congr {s s' : St} (ht : s.TagTable) (e₁ : s'.tags = s.tags) (e₂ : s'.nextTagId = s.nextTagId) :
    s'.TagTable :=
  ⟨by rw [e₁]; exact ht.keys, by rw [e₁]; exact ht.ids, by rw [e₁, e₂]; exact ht.idLt⟩

/-- `CreateTag` of a key no tag has keeps the tag table: the new tag takes the next id. -/
theorem St.TagTable.create {s : St} {ty nm : String} (ht : s.TagTable) (hn : ∀ t ∈ s.tags, t.key ≠ (ty, nm)) :
    ({ s with tags := s.tags ++ [⟨s.nextTagId, ty, nm⟩], nextTagId := s.nextTagId + 1 } : St).TagTable := by
  have hfresh : ∀ t ∈ s.tags, t.id ≠ s.nextTagId := fun t h e => by have := ht.idLt t h; omega
  refine ⟨?_, ?_, fun t h => ?_⟩
  · simpa [List.nodup_append] using ⟨ht.keys, fun t h e => hn t h (by simpa [Tag.key] using e)⟩
  · simpa [List.nodup_append] using ⟨ht.ids, hfresh⟩
  · rcases List.mem_append.mp h with h | h
    · have := ht.idLt t h; simp; omega
    · simp [List.mem_singleton.mp h]

/-- What the loops need of the store, for job `jid` read as `j`: the tag table as its
    keys keep it; the job's associations naming tag ids below the next one; the job
    found; and its archive there if it says it is archived. -/
structure TagStore (s : St) (jid : Int) (j : Job) : Prop where
  table : s.TagTable
  assocLt : ∀ jt ∈ s.jobtag, jt.1 = jid → jt.2 < s.nextTagId
  found : s.findById jid = .ok j
  archived : j.monitoringStatus = .archivingSuccessful → (s.archive j.id).isSome

/-- A list of tag keys job `jid` can take: no key twice, and none it has. -/
def St.Attachable (s : St) (jid : Int) (keys : List (String × String)) : Prop :=
  keys.Nodup ∧ ∀ k ∈ keys, ∀ tg ∈ s.tags, tg.key = k → (jid, tg.id) ∉ s.jobtag

/-- The tag `AddTagOrCreate` associates, and the store after `CreateTag` when there is none. -/
def St.tagOrCreate (s : St) (ty nm : String) : Int × St :=
  match s.tagId ty nm with
  | some id => (id, s)
  | none => (s.nextTagId, { s with tags := s.tags ++ [⟨s.nextTagId, ty, nm⟩], nextTagId := s.nextTagId + 1 })

@[simp] theorem St.tagOrCreate_jobs (s : St) (ty nm : String) : (s.tagOrCreate ty nm).2.jobs = s.jobs := by
  unfold St.tagOrCreate; split <;> rfl
@[simp] theorem St.tagOrCreate_jobtag (s : St) (ty nm : String) : (s.tagOrCreate ty nm).2.jobtag = s.jobtag := by
  unfold St.tagOrCreate; split <;> rfl
@[simp] theorem St.tagOrCreate_archive (s : St) (ty nm : String) : (s.tagOrCreate ty nm).2.archive = s.archive := by
  unfold St.tagOrCreate; split <;> rfl

theorem St.tagId_none {s : St} {ty nm : String} (h : s.tagId ty nm = none) : ∀ t ∈ s.tags, t.key ≠ (ty, nm) := by
  intro t ht e
  simp only [St.tagId, Option.map_eq_none', List.find?_eq_none] at h
  simp only [Tag.key, Prod.mk.injEq] at e
  simpa [e.1, e.2] using h t ht

/-- What `TagId` and `CreateTag` can do: find the tag of that key, or create it with the
    next tag id when there is none. -/
theorem St.tagOrCreate_cases {s s₁ : St} {ty nm : String} {id : Int} (hw : (s.tags.map Tag.key).Nodup)
    (ht : s.tagOrCreate ty nm = (id, s₁)) :
    (s = s₁ ∧ ⟨id, ty, nm⟩ ∈ s.tags ∧ ∀ t ∈ s.tags, t.key = (ty, nm) → t.id = id) ∨
    (id = s.nextTagId ∧ (∀ t ∈ s.tags, t.key ≠ (ty, nm)) ∧
      s₁ = { s with tags := s.tags ++ [⟨s.nextTagId, ty, nm⟩], nextTagId := s.nextTagId + 1 }) := by
  unfold St.tagOrCreate at ht
  split at ht <;> rename_i hid <;> cases ht
  · obtain ⟨t₀, ht₀, rfl, rfl, rfl⟩ := St.tagId_some hid
    refine .inl ⟨rfl, ht₀, fun t ht e => ?_⟩
    rw [List.inj_on_of_nodup_map hw ht ht₀ (by simpa [Tag.key] using e)]
  · exact .inr ⟨rfl, St.tagId_none hid, rfl⟩

/-! ## One `AddTagOrCreate` -/

theorem St.updateTags_of_archived {s : St} {j : Job} (tags : List Tag)
    (h : j.monitoringStatus = .archivingSuccessful → (s.archive j.id).isSome) :
    ∃ a, (∀ x, (s.archive x).isSome → (a x).isSome) ∧ s.updateTags j tags = .ok { s with archive := a } := by
  unfold St.updateTags
  split
  · rename_i hms
    obtain ⟨m, hm⟩ := Option.isSome_iff_exists.mp (h hms)
    exact ⟨upd s.archive j.id (some { m with job := { m.job with tags := archiveTags tags } }), fun _ => upd_isSome,
      by simp [hm]⟩
  · exact ⟨s.archive, fun _ => id, rfl⟩

/-- The steps `AddTag` and `RemoveTag` share after their statement on `jobtag`
    (`FindById`, `GetTags`, `UpdateTags`), run alone to the caller's next point. -/
theorem tagTail_alone {c : Cfg} {s s' : St} (cl : Caller) {jid : Int} (id : Int) {j : Job}
    (hj : s.findById jid = .ok j) (hu : s.updateTags j (s.getTags (some jid)) = .ok s') :
    Pc.Alone c s (.tagFindById cl jid id) s' (cl.ret id (s.getTags (some jid))) := by
  have h1 : (Pc.tagFindById cl jid id).run c s none = some (s, .tagGetTags cl jid id j, []) := by
    simp [Pc.run, hj]
  have h2 : (Pc.tagGetTags cl jid id j).run c s none =
      some (s, .tagUpdate cl jid id j (s.getTags (some jid)), []) := by
    simp [Pc.run]
  have h3 : (Pc.tagUpdate cl jid id j (s.getTags (some jid))).run c s none =
      some (s', cl.ret id (s.getTags (some jid)), []) := by
    simp [Pc.run, hu]
  exact .step [] h1 (.step [] h2 (.step [] h3 (.refl _ _)))

/-- `AddTag(job, tag)` run alone: the key refuses an association that is there;
    otherwise it is added and the caller gets the job's tags. -/
theorem addTag_alone {c : Cfg} {s : St} (cl : Caller) {jid : Int} (id : Int) {j : Job} (hj : s.findById jid = .ok j)
    (harch : j.monitoringStatus = .archivingSuccessful → (s.archive j.id).isSome) :
    ((jid, id) ∈ s.jobtag ∧ Pc.Alone c s (.addTagInsert cl jid id) s (cl.fail (.msg jobtagUnique))) ∨
    ((jid, id) ∉ s.jobtag ∧ ∃ a, (∀ x, (s.archive x).isSome → (a x).isSome) ∧
      Pc.Alone c s (.addTagInsert cl jid id) { s with jobtag := s.jobtag ++ [(jid, id)], archive := a }
        (cl.ret id ({ s with jobtag := s.jobtag ++ [(jid, id)] }.getTags (some jid)))) := by
  by_cases hm : (jid, id) ∈ s.jobtag
  · refine .inl ⟨hm, .step [] ?_ (.refl _ _)⟩
    simp [Pc.run, St.insertJobTag, hm, jobtagUnique]
  · let s₂ : St := { s with jobtag := s.jobtag ++ [(jid, id)] }
    obtain ⟨a, ha, hu⟩ := St.updateTags_of_archived (s := s₂) (s₂.getTags (some jid)) harch
    have h1 : (Pc.addTagInsert cl jid id).run c s none = some (s₂, .tagFindById cl jid id, []) := by
      simp [Pc.run, St.insertJobTag, hm]
    exact .inr ⟨hm, a, ha, .step [] h1 (tagTail_alone cl id hj hu)⟩

/-- `AddTagOrCreate(job, type, name)` run alone: the loop's error when the job has the
    tag of that key, or the loop's next turn with the association added. -/
theorem addTagOrCreate_alone {c : Cfg} {s s₁ : St} {k : Loop} {jid id : Int} {j : Job} {ty nm : String}
    (hj : s.findById jid = .ok j) (harch : j.monitoringStatus = .archivingSuccessful → (s.archive j.id).isSome)
    (ht : s.tagOrCreate ty nm = (id, s₁)) :
    ((jid, id) ∈ s.jobtag ∧ Pc.Alone c s (.tagIdLookup k jid ty nm) s₁ (k.fail (.msg jobtagUnique))) ∨
    ((jid, id) ∉ s.jobtag ∧ ∃ a, (∀ x, (s.archive x).isSome → (a x).isSome) ∧
      Pc.Alone c s (.tagIdLookup k jid ty nm) { s₁ with jobtag := s₁.jobtag ++ [(jid, id)], archive := a } (k.next id)) := by
  have lookup : Pc.Alone c s (.tagIdLookup k jid ty nm) s₁ (.addTagInsert (.orCreate k ty nm) jid id) := by
    unfold St.tagOrCreate at ht
    split at ht <;> rename_i hid <;> cases ht
    · exact .step [] (by simp [Pc.run, hid]) (.refl _ _)
    · have hn : ¬ s.tags.any (fun t => t.type == ty && t.name == nm) := by
        simpa [Tag.key] using St.tagId_none hid
      have h1 : (Pc.tagIdLookup k jid ty nm).run c s none = some (s, .createTag k jid ty nm, []) := by
        simp [Pc.run, hid]
      exact .step [] h1 (.step [] (by simp [Pc.run, St.createTag, hn]) (.refl _ _))
  have hjobs : s₁.jobs = s.jobs := by simpa [ht] using St.tagOrCreate_jobs s ty nm
  have hjt : s₁.jobtag = s.jobtag := by simpa [ht] using St.tagOrCreate_jobtag s ty nm
  have harc : s₁.archive = s.archive := by simpa [ht] using St.tagOrCreate_archive s ty nm
  have hj₁ : s₁.findById jid = .ok j := by simpa only [St.findById, hjobs] using hj
  rcases addTag_alone (c := c) (.orCreate k ty nm) id hj₁ (harc ▸ harch) with ⟨hm, h⟩ | ⟨hm, a, ha, h⟩
  · exact .inl ⟨hjt ▸ hm, lookup.trans h⟩
  · exact .inr ⟨hjt ▸ hm, a, harc ▸ ha, lookup.trans h⟩

/-! ## One turn of a loop -/

section Turn

variable {s s₁ : St} {jid id : Int} {j : Job} {ty nm : String}

def St.turn (s₁ : St) (jid id : Int) (a : Int → Option ArchiveMeta) : St :=
  { s₁ with jobtag := s₁.jobtag ++ [(jid, id)], archive := a }

@[simp] theorem St.turn_jobs (a : Int → Option ArchiveMeta) : (s₁.turn jid id a).jobs = s₁.jobs := rfl
@[simp] theorem St.turn_tags (a : Int → Option ArchiveMeta) : (s₁.turn jid id a).tags = s₁.tags := rfl
@[simp] theorem St.turn_jobtag (a : Int → Option ArchiveMeta) :
    (s₁.turn jid id a).jobtag = s₁.jobtag ++ [(jid, id)] := rfl
@[simp] theorem St.turn_nextTagId (a : Int → Option ArchiveMeta) : (s₁.turn jid id a).nextTagId = s₁.nextTagId := rfl
@[simp] theorem St.turn_archive (a : Int → Option ArchiveMeta) : (s₁.turn jid id a).archive = a := rfl

theorem TagStore.turn (hs : TagStore s jid j) (ht : s.tagOrCreate ty nm = (id, s₁)) {a : Int → Option ArchiveMeta}
    (ha : ∀ x, (s.archive x).isSome → (a x).isSome) : TagStore (s₁.turn jid id a) jid j := by
  have hf : (s₁.turn jid id a).findById jid = s.findById jid := by
    simp only [St.findById, St.turn_jobs, ← St.tagOrCreate_jobs s ty nm, ht]
  rcases St.tagOrCreate_cases hs.table.keys ht with ⟨rfl, hmem, -⟩ | ⟨rfl, hn, rfl⟩
  · refine ⟨hs.table.congr rfl rfl, fun jt hjt e => ?_, hf ▸ hs.found, fun h => ha _ (hs.archived h)⟩
    rcases List.mem_append.mp hjt with hjt | hjt
    · exact hs.assocLt jt hjt e
    · rw [List.mem_singleton.mp hjt]; exact hs.table.idLt _ hmem
  · refine ⟨(hs.table.create hn).congr rfl rfl, fun jt hjt e => ?_, hf ▸ hs.found, fun h => ha _ (hs.archived h)⟩
    rcases List.mem_append.mp hjt with hjt | hjt
    · have := hs.assocLt jt hjt e; simp; omega
    · simp [List.mem_singleton.mp hjt]

theorem St.tagOrCreate_tags (hw : (s.tags.map Tag.key).Nodup) (ht : s.tagOrCreate ty nm = (id, s₁)) :
    ⟨id, ty, nm⟩ ∈ s₁.tags ∧ ∀ t ∈ s.tags, t ∈ s₁.tags := by
  rcases St.tagOrCreate_cases hw ht with ⟨rfl, hmem, -⟩ | ⟨rfl, -, rfl⟩
  · exact ⟨hmem, fun _ h => h⟩
  · simp +contextual

theorem TagStore.not_attachable (hs : TagStore s jid j) (ht : s.tagOrCreate ty nm = (id, s₁))
    (hm : (jid, id) ∈ s.jobtag) (keys : List (String × String)) : ¬ s.Attachable jid ((ty, nm) :: keys) := by
  rintro ⟨-, hk⟩
  rcases St.tagOrCreate_cases hs.table.keys ht with ⟨-, hmem, -⟩ | ⟨rfl, -, -⟩
  · exact hk _ (List.mem_cons_self _ _) _ hmem rfl hm
  · have := hs.assocLt _ hm rfl; omega

/-- After a turn that added the association of key `(ty, nm)`, the job can take the
    rest of the keys exactly when it could take that key and the rest before. -/
theorem TagStore.attachable_turn (hs : TagStore s jid j) (ht : s.tagOrCreate ty nm = (id, s₁))
    (hm : (jid, id) ∉ s.jobtag) (a : Int → Option ArchiveMeta) (keys : List (String × String)) :
    s.Attachable jid ((ty, nm) :: keys) ↔ (s₁.turn jid id a).Attachable jid keys := by
  simp only [St.Attachable, List.nodup_cons, List.forall_mem_cons, St.turn_tags, St.turn_jobtag, List.mem_append,
    List.mem_singleton, Prod.mk.injEq, true_and, not_or]
  rcases St.tagOrCreate_cases hs.table.keys ht with ⟨rfl, hmem, hkey⟩ | ⟨rfl, hn, rfl⟩
  · have hid : ∀ t ∈ s.tags, t.id = id → t.key = (ty, nm) := fun t ht e =>
      congrArg Tag.key (List.inj_on_of_nodup_map hs.table.ids ht hmem e)
    constructor
    · rintro ⟨⟨hnk, hnd⟩, -, hr⟩
      exact ⟨hnd, fun k hk t ht e => ⟨hr k hk t ht e, fun e' => hnk (by rw [← e, hid t ht e'] at hk; exact hk)⟩⟩
    · rintro ⟨hnd, hr⟩
      exact ⟨⟨fun hk => (hr _ hk _ hmem rfl).2 rfl, hnd⟩, fun t ht e => by rwa [hkey t ht e],
        fun k hk t ht e => (hr k hk t ht e).1⟩
  · have hfresh : ∀ t ∈ s.tags, t.id ≠ s.nextTagId := fun t ht e => by have := hs.table.idLt t ht; omega
    simp only [List.mem_append, List.mem_singleton]
    constructor
    · rintro ⟨⟨hnk, hnd⟩, -, hr⟩
      refine ⟨hnd, fun k hk t ht e => ?_⟩
      rcases ht with ht | rfl
      · exact ⟨hr k hk t ht e, hfresh t ht⟩
      · exact absurd (by rw [← e] at hk; exact hk) hnk
    · rintro ⟨hnd, hr⟩
      exact ⟨⟨fun hk => (hr _ hk _ (.inr rfl) rfl).2 rfl, hnd⟩, fun t ht e => absurd e (hn t ht),
        fun k hk t ht e => (hr k hk t (.inl ht) e).1⟩

end Turn

/-! ## The loops -/

/-- One turn of a loop run alone, for job `jid` and key `(ty, nm)`: it ends in the loop's
    error, the job unable to take the key, or in the loop's next turn at a store the
    loops run on, where the job can take the rest of the keys exactly when it could take
    the key and the rest before. -/
theorem TagStore.turn_alone {c : Cfg} {s : St} {jid : Int} {j : Job} (hs : TagStore s jid j) (k : Loop)
    (ty nm : String) (keys : List (String × String)) :
    ∃ id s₁, s.tagOrCreate ty nm = (id, s₁) ∧
      ((¬ s.Attachable jid ((ty, nm) :: keys) ∧ Pc.Alone c s (.tagIdLookup k jid ty nm) s₁ (k.fail (.msg jobtagUnique))) ∨
        ∃ a, TagStore (s₁.turn jid id a) jid j ∧
          (s.Attachable jid ((ty, nm) :: keys) ↔ (s₁.turn jid id a).Attachable jid keys) ∧
          Pc.Alone c s (.tagIdLookup k jid ty nm) (s₁.turn jid id a) (k.next id)) := by
  obtain ⟨⟨id, s₁⟩, ht⟩ : ∃ x, s.tagOrCreate ty nm = x := ⟨_, rfl⟩
  refine ⟨id, s₁, ht, ?_⟩
  rcases addTagOrCreate_alone (c := c) (k := k) hs.found hs.archived ht with ⟨hm, hA⟩ | ⟨hm, a, ha, hA⟩
  · exact .inl ⟨hs.not_attachable ht hm keys, hA⟩
  · exact .inr ⟨a, hs.turn ht ha, hs.attachable_turn ht hm a keys, hA⟩

/-- `tagJob`'s loop run alone: it answers 200 exactly when the job can take the keys,
    with the job and the added tags, and otherwise 500 with the key's message; the rows
    stay, and tags and associations only grow. -/
theorem tagJobLoop_alone {c : Cfg} {j : Job} (ts : List ApiTag) : ∀ {s : St} {job : Job}, TagStore s job.id j →
    ∃ s' r, Pc.Alone c s (.tagJobLoop job ts) s' (.done r) ∧ s'.jobs = s.jobs ∧
      (∀ t ∈ s.tags, t ∈ s'.tags) ∧ (∀ x ∈ s.jobtag, x ∈ s'.jobtag) ∧
      (r.status = 200 ↔ s.Attachable job.id (ts.map ApiTag.key)) ∧ (r.status ≠ 200 → r = .plain 500 jobtagUnique) ∧
      (r.status = 200 → ∃ tags', r = .job { job with tags := job.tags ++ tags' } ∧
        tags'.map Tag.key = ts.map ApiTag.key ∧ ∀ t ∈ tags', t ∈ s'.tags ∧ (job.id, t.id) ∈ s'.jobtag) := by
  induction ts with
  | nil =>
    intro s job _
    refine ⟨s, .job job, .step [] (by simp [Pc.run]) (.refl _ _), rfl, fun _ h => h, fun _ h => h,
      by simp [Resp.status, St.Attachable], by simp [Resp.status], fun _ => ⟨[], by simp, rfl, by simp⟩⟩
  | cons t rest ih =>
    intro s job hs
    obtain ⟨id, s₁, ht, hturn⟩ := hs.turn_alone (c := c) (.tagJob job t rest) t.type t.name (rest.map ApiTag.key)
    have h0 : (Pc.tagJobLoop job (t :: rest)).run c s none =
        some (s, .tagIdLookup (.tagJob job t rest) job.id t.type t.name, []) := rfl
    have hjobs : s₁.jobs = s.jobs := by simpa [ht] using St.tagOrCreate_jobs s t.type t.name
    have hjt : s₁.jobtag = s.jobtag := by simpa [ht] using St.tagOrCreate_jobtag s t.type t.name
    obtain ⟨hnew, hsub⟩ := St.tagOrCreate_tags hs.table.keys ht
    rcases hturn with ⟨hna, hA⟩ | ⟨a, hs₁, hiff₁, hA⟩
    · exact ⟨s₁, .plain 500 jobtagUnique, .step [] h0 hA, hjobs, hsub, fun x h => hjt ▸ h,
        iff_of_false (by simp [Resp.status]) hna, fun _ => rfl, fun h => by simp [Resp.status] at h⟩
    · obtain ⟨s', r, hA', hjobs', htags, hjt', hiff, hmsg, hcontent⟩ :=
        @ih _ { job with tags := job.tags ++ [⟨id, t.type, t.name⟩] } hs₁
      refine ⟨s', r, .step [] h0 (hA.trans hA'), hjobs'.trans hjobs, fun x h => htags x (hsub x h),
        fun x h => hjt' x (by simp [hjt, h]), hiff.trans hiff₁.symm, hmsg, fun h => ?_⟩
      obtain ⟨tags', rfl, hkeys, hmem⟩ := hcontent h
      refine ⟨⟨id, t.type, t.name⟩ :: tags', by simp, by simp [hkeys, Tag.key, ApiTag.key], ?_⟩
      rintro x (_ | ⟨_, hx⟩)
      · exact ⟨htags _ hnew, hjt' _ (by simp)⟩
      · exact hmem x hx

/-- `startJob`'s loop over the tags of the job it inserted, run alone: it answers 201
    exactly when the job can take the keys, and otherwise 500 with the key's message;
    the rows stay. -/
theorem startTags_alone {c : Cfg} {j : Job} {id : Int} (ts : List Tag) : ∀ {s : St}, TagStore s id j →
    ∃ s' r, Pc.Alone c s (.startTags id ts) s' (.done r) ∧ s'.jobs = s.jobs ∧
      (r = .created id ↔ s.Attachable id (ts.map Tag.key)) ∧ (r ≠ .created id → r = .plain 500 jobtagUnique) := by
  induction ts with
  | nil =>
    intro s _
    exact ⟨s, .created id, .step [] (by simp [Pc.run]) (.refl _ _), rfl, by simp [St.Attachable],
      fun h => absurd rfl h⟩
  | cons t rest ih =>
    intro s hs
    obtain ⟨tid, s₁, ht, hturn⟩ := hs.turn_alone (c := c) (.start id rest) t.type t.name (rest.map Tag.key)
    have h0 : (Pc.startTags id (t :: rest)).run c s none =
        some (s, .tagIdLookup (.start id rest) id t.type t.name, []) := rfl
    have hjobs : s₁.jobs = s.jobs := by simpa [ht] using St.tagOrCreate_jobs s t.type t.name
    rcases hturn with ⟨hna, hA⟩ | ⟨a, hs₁, hiff₁, hA⟩
    · exact ⟨s₁, .plain 500 jobtagUnique, .step [] h0 hA, hjobs, iff_of_false (by simp) hna, fun _ => rfl⟩
    · obtain ⟨s', r, hA', hjobs', hiff, hmsg⟩ := ih hs₁
      exact ⟨s', r, .step [] h0 (hA.trans hA'), hjobs'.trans hjobs, hiff.trans hiff₁.symm, hmsg⟩

/-! ## The handlers -/

theorem Pc.Alone.of_solo (c : Cfg) : ∀ (n : Nat) (s : St) (p : Pc), Pc.Alone c s p (Pc.solo c n s p).1 (Pc.solo c n s p).2
  | 0, s, p => .refl s p
  | n + 1, s, p => by
    unfold Pc.solo
    split
    · next sp h => exact .step sp h (Pc.Alone.of_solo c n _ _)
    · exact .refl s p

/-- `tagJob` run alone on a stored job: 200 exactly when the job can take the requested
    keys, with its tags followed by the requested ones, each the one tag of its key and
    associated with the job; otherwise 500 with the key's message. -/
theorem tagJob_alone {c : Cfg} {s : St} {user : Option User} {idText : String} {iid : I64} {j : Job}
    {ts : List ApiTag} (hu : missingApiRole user = false) (hid : parseInt idText = .ok iid) (hs : TagStore s iid.val j) :
    ∃ n s' r, Pc.solo c n s (tagJob user idText (.ok ts)) = (s', .done r) ∧
      (r.status = 200 ↔ s.Attachable iid.val (ts.map ApiTag.key)) ∧ (r.status ≠ 200 → r = .plain 500 jobtagUnique) ∧
      (r.status = 200 → ∃ tags', r = .job { j with tags := s.getTags (some iid.val) ++ tags' } ∧
        tags'.map Tag.key = ts.map ApiTag.key ∧ ∀ t ∈ tags', t ∈ s'.tags ∧ (iid.val, t.id) ∈ s'.jobtag) := by
  have hp : tagJob user idText (.ok ts) = .tagJobFind iid (.ok ts) := by simp [tagJob, hu, hid]
  have h1 : (Pc.tagJobFind iid (.ok ts)).run c s none = some (s, .tagJobGetTags j (.ok ts), []) := by
    simp [Pc.run, hs.found]
  obtain ⟨r₀, -, hid₀, rfl⟩ := St.findById_ok hs.found
  rw [hp, ← show r₀.toJob.id = iid.val from hid₀] at *
  obtain ⟨s', r, hA, -, -, -, hres⟩ := @tagJobLoop_alone c r₀.toJob ts s { r₀.toJob with tags := s.getTags (some r₀.toJob.id) } hs
  obtain ⟨n, hn⟩ := (Pc.Alone.step [] h1 (.step [] rfl hA)).solo
  exact ⟨n, s', r, hn, hres⟩

/-- The request of the archived job's example: tag `Testjob`, which is there, and
    `Rerun`, which is not. -/
def rerunTags : List ApiTag := [⟨"Debug", "Testjob"⟩, ⟨"Debug", "Rerun"⟩]

theorem tagJob_alone_rerun :
    ∃ j, archivedStore.findById 1 = .ok j ∧ ∃ n s' r,
      Pc.solo Cfg.plain n archivedStore (tagJob none "1" (.ok rerunTags)) = (s', .done r) ∧
      (r.status = 200 ↔ archivedStore.Attachable (1 : I64).val (rerunTags.map ApiTag.key)) ∧
      (r.status ≠ 200 → r = .plain 500 jobtagUnique) ∧
      (r.status = 200 → ∃ tags', r = .job { j with tags := archivedStore.getTags (some (1 : I64).val) ++ tags' } ∧
        tags'.map Tag.key = rerunTags.map ApiTag.key ∧ ∀ t ∈ tags', t ∈ s'.tags ∧ ((1 : I64).val, t.id) ∈ s'.jobtag) :=
  ⟨_, rfl, tagJob_alone rfl rfl ⟨⟨by decide, by decide, by decide⟩, by decide, rfl, by decide⟩⟩

/-- `startJob` run alone past its check inserts the job whatever becomes of its tags,
    and answers 201 exactly when the request names no key twice; otherwise 500 with the
    key's message. -/
theorem startJob_alone_tags {c : Cfg} {s : St} {req : JobMeta} (hm : s.mutex = false)
    (hfar : ∀ r ∈ s.jobs, r.jobId = req.jobId → r.cluster = req.cluster → ¬(req.startTime - r.startTime).val < 86400)
    (hid : ∀ r ∈ s.jobs, r.id < s.nextId) (ht : s.TagTable) (hassoc : ∀ x ∈ s.jobtag, x.1 < s.nextId)
    (hms : req.monitoringStatus ≠ .archivingSuccessful) :
    ∃ n s' r, Pc.solo c n s (.startLock req) = (s', .done r) ∧ req.toRow s.nextId ∈ s'.jobs ∧
      (r = .created s.nextId ↔ (req.tags.map Tag.key).Nodup) ∧ (r ≠ .created s.nextId → r = .plain 500 jobtagUnique) := by
  have h3 := startJob_alone_inserts (c := c) hm hfar
  have hfound : ({ (s.start req).2 with mutex := false } : St).findById s.nextId = .ok (req.toRow s.nextId).toJob := by
    have hnone : s.jobs.find? (·.id == s.nextId) = none :=
      List.find?_eq_none.mpr fun r hr e => by have := hid r hr; simp at e; omega
    simp [St.findById, St.start, List.find?_append, hnone, JobMeta.toRow]
  have hs₀ : TagStore { (s.start req).2 with mutex := false } s.nextId (req.toRow s.nextId).toJob :=
    ⟨ht.congr rfl rfl, fun x hx e => absurd e (ne_of_lt (hassoc x hx)), hfound, fun e => absurd e hms⟩
  obtain ⟨s', r, hA, hjobs, hiff, hmsg⟩ := startTags_alone (c := c) req.tags hs₀
  obtain ⟨n, hn⟩ := ((h3 ▸ Pc.Alone.of_solo c 3 s (.startLock req)).trans hA).solo
  refine ⟨n, s', r, hn, by simp [hjobs, St.start], hiff.trans ⟨And.left, fun hd => ⟨hd, ?_⟩⟩, hmsg⟩
  intro k _ tg _ _ hx
  exact absurd (hassoc _ hx) (lt_irrefl _)

/-- A start of the API's example job naming tag `Testjob` twice. -/
def repeatedTagStart : JobMeta := { startAt 1649723812 with tags := [⟨0, "Debug", "Testjob"⟩, ⟨0, "Debug", "Testjob"⟩] }

theorem startJob_alone_tags_repeated :
    ∃ n s' r, Pc.solo Cfg.plain n St.init (.startLock repeatedTagStart) = (s', .done r) ∧
      repeatedTagStart.toRow St.init.nextId ∈ s'.jobs ∧
      (r = .created St.init.nextId ↔ (repeatedTagStart.tags.map Tag.key).Nodup) ∧
      (r ≠ .created St.init.nextId → r = .plain 500 jobtagUnique) :=
  startJob_alone_tags rfl (by decide) (by decide) ⟨by decide, by decide, by decide⟩ (by decide) (by decide)

/-! ## `RemoveTag` undoes `AddTag` -/

theorem St.updateTags_synced {s : St} {j : Job} {tags : List Tag}
    (h : j.monitoringStatus = .archivingSuccessful → ∃ m, s.archive j.id = some m ∧ m.job.tags = archiveTags tags) :
    s.updateTags j tags = .ok s := by
  unfold St.updateTags
  split
  · obtain ⟨m, hm, ht⟩ := h ‹_›
    have hupd : upd s.archive j.id (some m) = s.archive := funext fun x => by
      by_cases e : x = j.id <;> simp [upd, e, hm]
    rw [hm, ← ht]
    show Except.ok { s with archive := upd s.archive j.id (some m) } = _
    rw [hupd]
  · rfl

/-- A second `UpdateTags` of the job, whatever the associations are by then, leaves the
    archive as it would have left it without the first. -/
theorem St.updateTags_overwrite {s s₁ : St} {j : Job} {tags tags' : List Tag} (jt : List (Int × Int))
    (h : s.updateTags j tags = .ok s₁) :
    { s₁ with jobtag := jt }.updateTags j tags' = { s with jobtag := jt }.updateTags j tags' := by
  by_cases hms : j.monitoringStatus = .archivingSuccessful
  · obtain ⟨m, hm, rfl⟩ := St.updateTags_archived hms h
    simp only [St.updateTags, if_pos hms, upd_same, hm]
    congr 3
    funext x
    by_cases e : x = j.id <;> simp [upd, e]
  · simp only [St.updateTags, if_neg hms] at h ⊢
    cases h; rfl

end CcBackend
