/-
  Calls that watchers are due.

  A watcher whose expression comes to another value than it has seen is due a call
  (`Store.call?`).  Callbacks act on a stage here, and what they do there is `act`; a
  sequence of calls is played up to the first that fails (`Effect.play`).

  * `Store.CaughtUp`: the store in which watchers have been updated, where none of them
    is due a call any more (`CaughtUp.call?_of_mem`);
  * `CaughtUp.calls_append`: what watchers are due together, repetitions included, is
    what the first ones are due, and the others after them;
  * `Store.Pass`: a pass over watchers, which comes to its end or stops at the first that
    fails; `Pass.cons` is its step.
-/
import DataBinding.Proofs.Reactive.Equality
import DataBinding.Proofs.Reactive.Reentrancy

namespace DataBinding

/-- First occurrences are kept in their order by a filter. -/
theorem eraseDups_filter {α : Type} [BEq α] [LawfulBEq α] (p : α → Bool) :
    ∀ xs : List α, (xs.filter p).eraseDups = xs.eraseDups.filter p
  | [] => rfl
  | x :: xs => by
    have ih := eraseDups_filter p (xs.filter fun y => !y == x)
    rw [List.eraseDups_cons]
    by_cases hx : p x = true
    · rw [List.filter_cons_of_pos hx, List.filter_cons_of_pos hx, List.eraseDups_cons, ← ih,
        List.filter_filter, List.filter_filter]
      simp only [Bool.and_comm]
    · have hfilter : (xs.filter fun y => !y == x).filter p = xs.filter p := by
        rw [List.filter_filter]
        refine List.filter_congr fun y _ => ?_
        by_cases hy : y = x
        · simp [hy, hx]
        · simp [hy]
      rw [List.filter_cons_of_neg hx, List.filter_cons_of_neg hx, ← ih, hfilter]
termination_by xs => xs.length
decreasing_by exact Nat.lt_succ_of_le (List.length_filter_le _ _)

variable {R σ : Type}

/-! ## Calls on a stage -/

namespace Effect

/-- What calls do to the stage, in order, up to the first that fails. -/
def play (act : R → Value → σ → Except Fault Unit × σ) :
    List (R × Value) → σ → Except Fault Unit × σ
  | [], st => (.ok (), st)
  | (label, v) :: calls, st =>
    match act label v st with
    | (.ok (), st) => play act calls st
    | (.error f, st) => (.error f, st)

variable {act : R → Value → σ → Except Fault Unit × σ}

theorem play_append {calls : List (R × Value)} {st st' : σ}
    (h : play act calls st = (.ok (), st')) (more : List (R × Value)) :
    play act (calls ++ more) st = play act more st' := by
  induction calls generalizing st with
  | nil =>
    cases h
    rfl
  | cons call calls ih =>
    obtain ⟨label, v⟩ := call
    rw [List.cons_append, play]
    rw [play] at h
    rcases hfirst : act label v st with ⟨f | ⟨⟩, st₁⟩
    · rw [hfirst] at h
      cases h
    · rw [hfirst] at h
      exact ih h

/-- Callbacks that do not fail are all played. -/
theorem play_of_ok (hact : ∀ label v st, (act label v st).1 = .ok ()) :
    ∀ (calls : List (R × Value)) (st : σ), (play act calls st).1 = .ok ()
  | [], _ => rfl
  | (label, v) :: calls, st => by
    have hfirst := hact label v st
    rw [play]
    rcases h : act label v st with ⟨f | ⟨⟩, st₁⟩
    · rw [h] at hfirst
      cases hfirst
    · exact play_of_ok hact calls st₁

end Effect

/-! ## Watchers that are due -/

namespace Store

/-- Why the expression of a watcher does not resolve, if it does not. -/
def failure? (s : Store R) (w : WatcherId) : Option PathError :=
  (s.watchers[w]?).bind fun watcher =>
    match (s.resolve watcher.root watcher.expression).2 with
    | .error e => some e
    | .ok _ => none

/-- The call that a watcher is due: its callback, and the value of its expression if
    that differs from the value seen last. -/
def call? (s : Store R) (w : WatcherId) : Option (R × Value) :=
  (s.watchers[w]?).bind fun watcher =>
    match (s.resolve watcher.root watcher.expression).2 with
    | .error _ => none
    | .ok v => if v.equal watcher.value then none else some (watcher.reaction, v)

/-- The calls that watchers are due, in the order in which the watchers occur first. -/
def calls (s : Store R) (ws : List WatcherId) : List (R × Value) :=
  ws.eraseDups.filterMap s.call?

/-- Watchers have been updated, as often as they are listed: each has seen the value of
    its expression, and nothing else has changed. -/
structure CaughtUp (s : Store R) (ws : List WatcherId) (s' : Store R) : Prop where
  /-- The mappings are the same. -/
  mappings : s'.mappings = s.mappings
  /-- The slots are the same. -/
  slots : s'.slots = s.slots
  /-- What goes on is the same. -/
  activity : s'.activity = s.activity
  /-- The watchers have been evaluated, and have seen the values that they were due. -/
  watchers : ∀ w, s'.watchers[w]? = (s.watchers[w]?).map fun watcher : Watcher R =>
    { watcher with
      value := if w ∈ ws then (s.call? w).elim watcher.value Prod.snd else watcher.value
      evaluations := watcher.evaluations + ws.count w }

section

variable {s s' s'' : Store R} {ws ws' : List WatcherId} {w : WatcherId}

theorem resolve_of_parts (hmappings : s'.mappings = s.mappings) (hslots : s'.slots = s.slots)
    (root : MappingId) (expression : String) :
    s'.resolve root expression = s.resolve root expression := by
  refine resolve_congr (fun m key => ?_) (fun i => ?_) _ _
  · rw [slot?, slot?, members, members, hmappings]
  · rw [valueAt_eq, valueAt_eq, hslots]

/-- There is nothing to count for a watcher that is not there. -/
theorem counted_of_none (h : s.watchers[w]? = none) : s.counted w = s := by
  have hsame : s.watchers.modify w
      (fun watcher => { watcher with evaluations := watcher.evaluations + 1 }) = s.watchers := by
    refine Array.ext_getElem? fun w' => ?_
    rw [Array.getElem?_modify]
    split
    next hw =>
      subst hw
      rw [h]
      rfl
    next => rfl
  rw [counted, updateWatcher, hsame]

theorem call?_eq {watcher : Watcher R} {v : Value} (hw : s.watchers[w]? = some watcher)
    (hv : (s.resolve watcher.root watcher.expression).2 = .ok v) :
    s.call? w = if v.equal watcher.value then none else some (watcher.reaction, v) := by
  rw [call?, hw]
  dsimp only [Option.bind_some]
  rw [hv]

theorem failure?_of_error {watcher : Watcher R} {e : PathError}
    (hw : s.watchers[w]? = some watcher)
    (hv : (s.resolve watcher.root watcher.expression).2 = .error e) : s.failure? w = some e := by
  rw [failure?, hw]
  dsimp only [Option.bind_some]
  rw [hv]

theorem failure?_of_ok {watcher : Watcher R} {v : Value} (hw : s.watchers[w]? = some watcher)
    (hv : (s.resolve watcher.root watcher.expression).2 = .ok v) : s.failure? w = none := by
  rw [failure?, hw]
  dsimp only [Option.bind_some]
  rw [hv]

theorem exists_of_failure?_eq_none (hw : w < s.watchers.size) (h : s.failure? w = none) :
    ∃ watcher v, s.watchers[w]? = some watcher ∧
      (s.resolve watcher.root watcher.expression).2 = .ok v := by
  have hwatcher := Array.getElem?_eq_getElem hw
  rw [failure?, hwatcher] at h
  dsimp only [Option.bind_some] at h
  cases hv : (s.resolve s.watchers[w].root s.watchers[w].expression).2 with
  | error e =>
    rw [hv] at h
    cases h
  | ok v => exact ⟨_, v, hwatcher, hv⟩

/-- A watcher whose expression resolves is due a call exactly if it is not up to
    date. -/
theorem call?_isSome_iff (hw : w < s.watchers.size) (h : s.failure? w = none) :
    (s.call? w).isSome ↔ ¬ s.UpToDate w := by
  obtain ⟨watcher, v, hwatcher, hv⟩ := exists_of_failure?_eq_none hw h
  have hiff : s.UpToDate w ↔ v.equal watcher.value = true := by
    constructor
    · rintro ⟨watcher', v', hwatcher', hv', hequal⟩
      obtain rfl := Option.some.inj (hwatcher.symm.trans hwatcher')
      rw [hv] at hv'
      exact Except.ok.inj hv' ▸ hequal
    · exact fun hequal => ⟨watcher, v, hwatcher, hv, hequal⟩
  rw [call?_eq hwatcher hv, hiff]
  split <;> simp [*]

namespace CaughtUp

theorem resolve (h : s.CaughtUp ws s') (root : MappingId) (expression : String) :
    s'.resolve root expression = s.resolve root expression :=
  resolve_of_parts h.mappings h.slots root expression

theorem collecting (h : s.CaughtUp ws s') (hs : s.collecting = []) : s'.collecting = [] :=
  (congrArg Activity.collecting h.activity).trans hs

theorem valueAt (h : s.CaughtUp ws s') (i : SlotId) : s'.valueAt i = s.valueAt i := by
  rw [valueAt_eq, valueAt_eq, h.slots]

theorem subscribers (h : s.CaughtUp ws s') (i : SlotId) :
    s'.subscribers i = s.subscribers i := by
  rw [subscribers_eq, subscribers_eq, h.slots]

theorem slot? (h : s.CaughtUp ws s') (m : MappingId) (key : String) :
    s'.slot? m key = s.slot? m key := by
  rw [Store.slot?, Store.slot?, members, members, h.mappings]

theorem proper (h : s.CaughtUp ws s') (hs : s.Proper) : s'.Proper := by
  intro i
  rw [h.valueAt]
  exact hs i

theorem size (h : s.CaughtUp ws s') : s'.watchers.size = s.watchers.size := by
  have hiff (w : WatcherId) : s'.watchers.size ≤ w ↔ s.watchers.size ≤ w := by
    rw [← Array.getElem?_eq_none_iff, ← Array.getElem?_eq_none_iff, h.watchers,
      Option.map_eq_none_iff]
  exact Nat.le_antisymm ((hiff _).2 (Nat.le_refl _)) ((hiff _).1 (Nat.le_refl _))

theorem grounded (h : s.CaughtUp ws s') (hs : s.Grounded) : s'.Grounded where
  slots m key i hi := by
    rw [h.slots]
    exact hs.slots m key i (h.slot? m key ▸ hi)
  watchers i w hw := by
    rw [h.size]
    exact hs.watchers i w (h.subscribers i ▸ hw)

theorem evaluations (h : s.CaughtUp ws s') (hw : w < s.watchers.size) :
    s'.evaluations w = s.evaluations w + ws.count w := by
  rw [Store.evaluations, Store.evaluations, h.watchers, Array.getElem?_eq_getElem hw]
  rfl

theorem watchers_of_not_mem (h : s.CaughtUp ws s') (hw : w ∉ ws) :
    s'.watchers[w]? = s.watchers[w]? := by
  rw [h.watchers, List.count_eq_zero_of_not_mem hw]
  simp only [if_neg hw, Nat.add_zero, Option.map_id']

theorem failure? (h : s.CaughtUp ws s') : s'.failure? w = s.failure? w := by
  rw [Store.failure?, Store.failure?, h.watchers]
  cases s.watchers[w]? with
  | none => rfl
  | some watcher =>
    dsimp only [Option.map_some, Option.bind_some]
    rw [h.resolve]

/-- A watcher that has not been updated is due what it was due. -/
theorem call?_of_not_mem (h : s.CaughtUp ws s') (hw : w ∉ ws) : s'.call? w = s.call? w := by
  rw [call?, call?, h.watchers_of_not_mem hw]
  simp only [h.resolve]

/-- A watcher that has been updated is not due a call. -/
theorem call?_of_mem (h : s.CaughtUp ws s') (hs : s.Proper) (hw : w ∈ ws) :
    s'.call? w = none := by
  cases hwatcher : s.watchers[w]? with
  | none =>
    rw [call?, h.watchers, hwatcher]
    rfl
  | some watcher =>
    have hwatcher' := h.watchers w
    rw [hwatcher, Option.map_some, if_pos hw] at hwatcher'
    cases hv : (s.resolve watcher.root watcher.expression).2 with
    | error e =>
      rw [call?, hwatcher']
      dsimp only [Option.bind_some]
      rw [h.resolve, hv]
    | ok v =>
      rw [call?_eq hwatcher' ((congrArg Prod.snd (h.resolve _ _)).trans hv),
        call?_eq hwatcher hv]
      by_cases hequal : v.equal watcher.value = true
      · rw [if_pos hequal]
        exact if_pos hequal
      · rw [if_neg hequal]
        exact if_pos (Value.equal_refl (hs.resolve hv))

/-- A watcher that has been updated is up to date, if its expression resolves. -/
theorem upToDate (h : s.CaughtUp ws s') (hs : s.Proper) (hw : w ∈ ws)
    (hlt : w < s.watchers.size) (hresolves : s.failure? w = none) : s'.UpToDate w := by
  by_contra hnot
  have hsome := (call?_isSome_iff (h.size ▸ hlt) (h.failure?.trans hresolves)).2 hnot
  rw [h.call?_of_mem hs hw] at hsome
  cases hsome

theorem refl (s : Store R) : s.CaughtUp [] s :=
  ⟨rfl, rfl, rfl, fun w => by simp only [List.not_mem_nil, if_false, List.count_nil,
    Nat.add_zero, Option.map_id']⟩

/-- The calls of watchers are those of the first ones, and those that the others are
    due after them. -/
theorem calls_append (h : s.CaughtUp ws s') (hs : s.Proper) (ws' : List WatcherId) :
    s.calls (ws ++ ws') = s.calls ws ++ s'.calls ws' := by
  rw [calls, List.eraseDups_append, List.filterMap_append, List.removeAll, eraseDups_filter,
    List.filterMap_filter]
  refine congrArg (s.calls ws ++ ·) (List.filterMap_congr fun w _ => ?_)
  by_cases hw : w ∈ ws
  · rw [h.call?_of_mem hs hw, if_neg (by simpa using hw)]
  · rw [h.call?_of_not_mem hw, if_pos (by simpa using hw)]

theorem trans (h : s.CaughtUp ws s') (hs : s.Proper) (h' : s'.CaughtUp ws' s'') :
    s.CaughtUp (ws ++ ws') s'' where
  mappings := h'.mappings.trans h.mappings
  slots := h'.slots.trans h.slots
  activity := h'.activity.trans h.activity
  watchers w := by
    rw [h'.watchers, h.watchers, Option.map_map]
    refine congrArg (fun f => (s.watchers[w]?).map f) (funext fun watcher => ?_)
    dsimp only [Function.comp_apply]
    rw [List.count_append, Nat.add_assoc]
    by_cases hw : w ∈ ws
    · rw [if_pos hw, if_pos (List.mem_append_left ws' hw), h.call?_of_mem hs hw, Option.elim_none,
        ite_self]
    · rw [if_neg hw, h.call?_of_not_mem hw]
      simp only [List.mem_append, hw, false_or]

/-- What happens while a notification is open. -/
theorem of_entered (h : ({ s with depth := s.depth + 1 } : Store R).CaughtUp ws s') :
    s.CaughtUp ws { s' with depth := s'.depth - 1 } where
  mappings := h.mappings
  slots := h.slots
  activity := congrArg (fun a => { a with depth := a.depth - 1 }) h.activity
  watchers w := by
    have hcall : ({ s with depth := s.depth + 1 } : Store R).call? w = s.call? w := by
      have hresolve (root : MappingId) (e : String) :
          ({ s with depth := s.depth + 1 } : Store R).resolve root e = s.resolve root e := by
        refine resolve_of_parts ?_ ?_ root e <;> rfl
      rw [call?, call?]
      simp only [hresolve]
    exact hcall ▸ h.watchers w

/-- A watcher is evaluated that is not due a call. -/
theorem counted (h : s.call? w = none) : s.CaughtUp [w] (s.counted w) where
  mappings := rfl
  slots := rfl
  activity := rfl
  watchers w' := by
    rw [Store.counted, watchers_updateWatcher]
    by_cases hw : w = w'
    · subst hw
      simp [h]
    · simp [hw, Ne.symm hw]

/-- A watcher is evaluated, and has seen the value that it was due. -/
theorem called {label : R} {v : Value} (h : s.call? w = some (label, v)) :
    s.CaughtUp [w] ((s.counted w).updateWatcher w fun watcher => { watcher with value := v }) where
  mappings := rfl
  slots := rfl
  activity := rfl
  watchers w' := by
    rw [Store.counted, watchers_updateWatcher, watchers_updateWatcher]
    by_cases hw : w = w'
    · subst hw
      simp [h, Function.comp_def]
    · simp [hw, Ne.symm hw]

end CaughtUp

end

/-- What the update of a watcher answers, and what it does to the stage. -/
def attend (act : R → Value → σ → Except Fault Unit × σ) (s : Store R) (w : WatcherId) (st : σ) :
    Except Fault Unit × σ :=
  match s.failure? w with
  | some e => (.error (.path e), st)
  | none => Effect.play act (s.call? w).toList st

/-- A pass over watchers, with its answer and what it leaves: it comes to its end, or
    stops at the first watcher that fails. -/
inductive Pass (act : R → Value → σ → Except Fault Unit × σ) (s : Store R)
    (ws : List WatcherId) (st : σ) : Except Stop Unit → Store R → σ → Prop
  /-- Every watcher has been updated. -/
  | completed {s' st'} (resolves : ∀ w ∈ ws, s.failure? w = none)
      (played : Effect.play act (s.calls ws) st = (.ok (), st')) (caught : s.CaughtUp ws s') :
      Pass act s ws st (.ok ()) s' st'
  /-- The watchers before the one that fails have been updated. -/
  | aborted {front w rest s₁ st₁ f st'} (split : ws = front ++ w :: rest) (first : w ∉ front)
      (resolves : ∀ x ∈ front, s.failure? x = none)
      (played : Effect.play act (s.calls front) st = (.ok (), st₁)) (caught : s.CaughtUp front s₁)
      (failed : s.attend act w st₁ = (.error f, st')) :
      Pass act s ws st (.error (.fault f)) (s₁.counted w) st'

section

variable {s s₁ s' : Store R} {act : R → Value → σ → Except Fault Unit × σ} {st st₁ st' : σ}
  {ws : List WatcherId} {w : WatcherId} {r : Except Stop Unit}

theorem attend_eq_ok (h : s.attend act w st = (.ok (), st')) :
    s.failure? w = none ∧ Effect.play act (s.calls [w]) st = (.ok (), st') := by
  unfold attend at h
  cases hfailure : s.failure? w with
  | some e =>
    rw [hfailure] at h
    cases h
  | none =>
    rw [hfailure] at h
    refine ⟨rfl, ?_⟩
    have hcalls : s.calls [w] = (s.call? w).toList := by
      cases hcall : s.call? w <;> simp [calls, List.eraseDups_cons, hcall]
    rw [hcalls]
    exact h

/-- The update of a watcher that has been updated before does not fail. -/
theorem CaughtUp.attend_of_mem (h : s.CaughtUp ws s₁) (hs : s.Proper)
    (hresolves : s.failure? w = none) (hw : w ∈ ws) : s₁.attend act w st = (.ok (), st) := by
  rw [attend, h.failure?, hresolves, h.call?_of_mem hs hw]
  rfl

theorem CaughtUp.attend_of_not_mem (h : s.CaughtUp ws s₁) (hw : w ∉ ws) :
    s₁.attend act w st = s.attend act w st := by
  rw [attend, attend, h.failure?, h.call?_of_not_mem hw]

/-- An update, and a pass over the other watchers. -/
theorem Pass.cons (hs : s.Proper) (hattend : s.attend act w st = (.ok (), st₁))
    (hcaught : s.CaughtUp [w] s₁) (h : s₁.Pass act ws st₁ r s' st') :
    s.Pass act (w :: ws) st r s' st' := by
  obtain ⟨hresolves, hplayed⟩ := attend_eq_ok hattend
  -- the calls that are due after the update of the watcher
  have happend (ws' : List WatcherId) {st' : σ} {a : Except Fault Unit}
      (hplay : Effect.play act (s₁.calls ws') st₁ = (a, st')) :
      Effect.play act (s.calls (w :: ws')) st = (a, st') := by
    rw [show w :: ws' = [w] ++ ws' from rfl, hcaught.calls_append hs, Effect.play_append hplayed]
    exact hplay
  cases h with
  | completed hrest hplay hws =>
    refine .completed (List.forall_mem_cons.2 ⟨hresolves, fun x hx => ?_⟩) (happend ws hplay)
      (hcaught.trans hs hws)
    exact hcaught.failure?.symm.trans (hrest x hx)
  | @aborted front x rest s₂ st₂ f _ hsplit hfirst hfront hplay hws hfailed =>
    have hne : x ≠ w := by
      rintro rfl
      have hagain : s₂.attend act x st₂ = s₁.attend act x st₂ := hws.attend_of_not_mem hfirst
      rw [hfailed, (hcaught.trans hs hws).attend_of_mem hs hresolves List.mem_cons_self] at hagain
      cases hagain
    have hsplit' : w :: ws = (w :: front) ++ x :: rest := congrArg (w :: ·) hsplit
    refine .aborted hsplit' ?_ (List.forall_mem_cons.2 ⟨hresolves, fun y hy => ?_⟩) (happend front hplay)
      (hcaught.trans hs hws) ?_
    · exact fun hmem => (List.mem_cons.1 hmem).elim hne hfirst
    · exact hcaught.failure?.symm.trans (hfront y hy)
    · have hx : x ∉ [w] := fun hmem => hne (List.mem_singleton.1 hmem)
      rw [← hcaught.attend_of_not_mem hx]
      exact hfailed

/-- What happens while a notification is open. -/
theorem Pass.of_entered
    (h : ({ s with depth := s.depth + 1 } : Store R).Pass act ws st r s' st') :
    s.Pass act ws st r { s' with depth := s'.depth - 1 } st' := by
  have hresolve (root : MappingId) (e : String) :
      ({ s with depth := s.depth + 1 } : Store R).resolve root e = s.resolve root e := by
    refine resolve_of_parts ?_ ?_ root e <;> rfl
  have hfailure (w : WatcherId) :
      ({ s with depth := s.depth + 1 } : Store R).failure? w = s.failure? w := by
    simp only [failure?, hresolve]
  have hcall : ({ s with depth := s.depth + 1 } : Store R).call? = s.call? := by
    funext w
    simp only [call?, hresolve]
  cases h with
  | completed hresolves hplayed hcaught =>
    rw [calls, hcall] at hplayed
    exact .completed (fun w hw => (hfailure w).symm.trans (hresolves w hw)) hplayed
      (.of_entered hcaught)
  | @aborted _ x _ s₁ _ _ _ hsplit hfirst hresolves hplayed hcaught hfailed =>
    rw [calls, hcall] at hplayed
    rw [attend, hfailure, hcall] at hfailed
    exact .aborted hsplit hfirst (fun w hw => (hfailure w).symm.trans (hresolves w hw)) hplayed
      (.of_entered hcaught) hfailed

end

end Store

end DataBinding
