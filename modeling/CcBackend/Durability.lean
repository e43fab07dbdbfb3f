import CcBackend.TagRuns
/-
  CcBackend.Durability — what no run undoes, from any state of the server.

  A step changes the store by one statement of one worker, or not at all
  (`Step.change`, from `Change`): only `CreateTag` adds a tag, and no statement
  removes a tag or an archive.

  Proved:
  (1) (`tagTable_reach`) In every reachable state of every interleaving the tags have
      distinct keys and distinct ids below the next tag id: the table the tag loops of
      `CcBackend.TagRuns` run on.
  (2) (`assocLt_run`) In every reachable state of a run whose GraphQL `addTag`s name
      tag ids the store has given out, every association names a tag id below the next
      one, as the tag loops assume. `AddTag` checks no tag exists: an `addTag` of a tag
      not yet created leaves an association to the id a later `CreateTag` gives out.
  (3) (`steps_keep_archive_and_tags`) No sequence of steps, from any state, removes a
      job's archive or a tag: the delete handlers remove rows, `RemoveTag` an
      association.
-/

namespace CcBackend

/-! ## One step -/

/-- What a step of the server does to the store: nothing, or what one worker's
    statement does. -/
theorem Step.change {c : Cfg} {s s' : Sys} {e : Ev} (hs : Step c s e s') : s'.st = s.st ∨ ∃ p, Change p s.st s'.st := by
  cases hs with
  | arrive => exact .inl rfl
  | exec i p f st p' sp hget hrun => exact .inr ⟨p, stEff_change (run_stEff hrun)⟩

/-- No step breaks the tag table: only `CreateTag` adds a tag, of a key no tag has and
    with the next tag id, and no step removes one. -/
theorem Change.tagTable {p : Pc} {s s' : St} (ht : s.TagTable) (h : Change p s s') : s'.TagTable := by
  cases h
  case createTag ty nm hn => exact ht.create fun t h e => hn t h (by simpa [Tag.key] using e)
  all_goals exact ht.congr rfl rfl

/-! ## The tag table -/

/-- In every reachable state of every interleaving the tags have distinct keys and
    distinct ids below the next tag id: the table the tag loops run on. -/
theorem tagTable_reach {c : Cfg} {s : Sys} {h : List Ev} (hr : Reach c s h) : s.st.TagTable :=
  Reach.induct (fun s => s.st.TagTable) ⟨.nil, .nil, fun _ h => (nomatch h)⟩
    (fun _ _ _ _ _ ht hs => (Step.change hs).elim (fun e => ht.congr (by rw [e]) (by rw [e])) fun ⟨_, hc⟩ => hc.tagTable ht)
    hr

/-- Every GraphQL `addTag` in flight names a tag id the store has given out. -/
def ResolverTagsGiven (s : Sys) : Prop :=
  ∀ job tag, Pc.addTagInsert .resolver job tag ∈ s.procs → tag < s.st.nextTagId

/-- In every reachable state of a run whose GraphQL `addTag`s name tag ids given out,
    every association names a tag id below the next one: the other caller of `AddTag`,
    `AddTagOrCreate`, associates a tag of the table. -/
theorem assocLt_run {c : Cfg} {s : Sys} {h : List Ev} (hr : Run c ResolverTagsGiven s h) :
    ∀ x ∈ s.st.jobtag, x.2 < s.st.nextTagId := by
  induction hr with
  | init => intro _ hx; cases hx
  | step hr' hs _ ih =>
    cases hs with
    | arrive => exact ih
    | exec i p f st p' sp hget hrun =>
      have hc := stEff_change (run_stEff hrun)
      have hp := List.getElem?_mem hget
      intro x hx
      refine lt_of_lt_of_le ?_ hc.nextTagId_le
      rcases hc.jobtag_mem x hx with hx | ⟨cl, job, tag, rfl, rfl⟩
      · exact ih x hx
      · cases cl with
        | resolver => exact hr'.holds job tag hp
        | orCreate k ty nm =>
          obtain ⟨t, ht, rfl, -⟩ := (Inv.reach hr'.reach).pcs _ hp
          exact (tagTable_reach hr'.reach).idLt t ht

/-! ## Archives and tags -/

/-- No run removes a job's archive or a tag: deleting jobs removes their rows only, and
    `RemoveTag` removes an association, never the tag. -/
theorem steps_keep_archive_and_tags {c : Cfg} {s s' : Sys} (hs : Steps c s s') :
    (∀ k, (s.st.archive k).isSome → (s'.st.archive k).isSome) ∧ ∀ t ∈ s.st.tags, t ∈ s'.st.tags := by
  induction hs with
  | refl => exact ⟨fun _ => id, fun _ => id⟩
  | tail _ hstep ih =>
    obtain ⟨e, hstep⟩ := hstep
    rcases Step.change hstep with h | ⟨p, hc⟩
    · rw [h]; exact ih
    · exact ⟨fun k hk => hc.archive_isSome k (ih.1 k hk), fun t ht => hc.tags_sub t (ih.2 t ht)⟩

end CcBackend
