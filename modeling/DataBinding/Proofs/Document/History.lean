/-
  What the history of a document tells of a handle.

  The history of a document are its events from a document without slots on, as in
  `events`.  It tells of every handle that was ever given out what can still be done
  with it.

  * `taken_of_live`: a handle that resolves has been given out;
  * `Recorded.untouched`: if it resolves, nothing has happened to its slot since then;
  * `events_append`: more changes make the history longer.
-/
import DataBinding.Proofs.Document.Handles

namespace DataBinding.Document

variable {L : Type} {d d' : Document L}

/-! ## Longer histories -/

theorem run_append (d : Document L) (edits more : List (Edit L)) :
    d.run (edits ++ more) = (d.run edits).run more :=
  List.foldl_append

theorem run_concat (d : Document L) (edits : List (Edit L)) (e : Edit L) :
    d.run (edits ++ [e]) = (e.apply (d.run edits)).2 :=
  run_append d edits [e]

theorem runEvents_append (more : List (Edit L)) : ∀ (edits : List (Edit L)) (d : Document L),
    d.runEvents (edits ++ more) = d.runEvents edits ++ (d.run edits).runEvents more
  | [], _ => rfl
  | e :: rest, d => by
    rw [List.cons_append, runEvents, runEvents, runEvents_append more rest, List.append_assoc]
    rfl

theorem events_append (forest : List Markup) (edits more : List (Edit L)) :
    events forest (edits ++ more) =
      events forest edits ++ ((ofForest forest).run edits).runEvents more := by
  rw [events, events, runEvents_append, ← List.append_assoc]

/-- What has happened is not undone by more changes. -/
theorem mem_events_append {forest : List Markup} {edits : List (Edit L)} (more : List (Edit L))
    {e : SlotEvent} (h : e ∈ events forest edits) : e ∈ events forest (edits ++ more) := by
  rw [events_append]
  exact List.mem_append_left _ h

/-! ## Handles in a history -/

/-- There is nothing below the document node of a new document, nor elsewhere. -/
theorem children_empty (id : NodeId) : (empty : Document L).children id = [] := by
  obtain ⟨i, generation⟩ := id
  cases i with
  | zero =>
    by_cases h : 0 = generation
    · subst h
      rfl
    · simp [children, node?, empty, alloc, h]
  | succ i => rfl

/-- Every handle that resolves has been given out. -/
theorem taken_of_live {es : List SlotEvent} (h : Trace ⟨#[], []⟩ es d) {id : NodeId}
    (hid : d.Live id) : .taken id ∈ es := by
  induction h with
  | refl => simp [Live, node?] at hid
  | update _ x f ih => exact ih ((live_update x id f).1 hid)
  | alloc h content ih =>
    obtain rfl | hold := (h.recorded.pooled.live_alloc content id).1 hid
    · exact List.mem_append_right _ (List.mem_singleton.2 rfl)
    · exact List.mem_append_left _ (ih hold)
  | vacate h hx ih =>
    refine List.mem_append_left _ (ih ?_)
    rw [Live, node?_vacate hx] at hid
    split at hid
    · cases hid
    · exact hid

/-- **A handle that resolves** is that of the node which took its slot when the handle
    was given out, unless the slot was vacated very often: the handle was given out once,
    and nothing has happened to the slot since. -/
theorem Recorded.untouched {es : List SlotEvent} (h : d.Recorded es) {id : NodeId}
    (htaken : .taken id ∈ es) (hfew : vacations id.index es < UInt32.size) (hid : d.Live id) :
    ∃ before after, es = before ++ .taken id :: after ∧ .taken id ∉ before ∧
      ∀ e ∈ after, e.slot ≠ id.index := by
  obtain ⟨before, after, rfl⟩ := List.append_of_mem htaken
  rw [vacations_append, vacations_taken] at hfew
  have hnone : vacations id.index after = 0 :=
    Nat.eq_zero_of_dvd_of_lt ((h.live_iff rfl).1 hid).2 (by omega)
  refine ⟨before, after, rfl, fun hbefore => ?_, ((h.taken before id after rfl).2 hnone).2⟩
  -- of two events that give out a handle, the first is followed by none of its slot
  obtain ⟨first, between, rfl⟩ := List.append_of_mem hbefore
  rw [List.append_assoc, List.cons_append] at h
  have hsince := (h.live_iff rfl).1 hid
  rw [vacations_append, vacations_taken, hnone, Nat.add_zero] at hsince
  rw [vacations_append, vacations_taken] at hfew
  have hquiet : vacations id.index (between ++ .taken id :: after) = 0 := by
    rw [vacations_append, vacations_taken, hnone, Nat.add_zero]
    exact Nat.eq_zero_of_dvd_of_lt hsince.2 (by omega)
  exact ((h.taken first id _ rfl).2 hquiet).2 (.taken id) (by simp) rfl

end DataBinding.Document
