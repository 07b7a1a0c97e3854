/-
  Errors of reading and of writing through an expression.

  An error of a reading names the expression.  A write looks up what stands before
  the last dot as an expression of its own: its error names that one if it fails there,
  and the whole expression if it fails at one of the last two keys.

  * `Store.FailsAt`: a reading fails at the last two keys, and a write does alike;
  * `Store.target_eq_error_iff`: a write has the error of the reading only then, or if
    the expression is blank;
  * `Effect.setPath_fails_alike_iff`: the same of the two effects.
-/
import DataBinding.Proofs.Reactive.Invariants
import DataBinding.Proofs.Reactive.Lookup
import DataBinding.Proofs.Reactive.Watching

namespace DataBinding

variable {R σ : Type}

namespace Store

variable {s : Store R} {root m : MappingId} {expression path x key : String} {err : PathError}

/-! ## The last two keys -/

/-- In a mapping, a reading fails at the last two keys of a path, and a write, which
    reads the first of them without the blanks at its end, fails in the same way. -/
inductive FailsAt (s : Store R) (m : MappingId) (x key : String) : Prop
  /-- The first key is absent, and there is nothing under it without the blanks. -/
  | absent (hx : s.slot? m x = none) (htrimmed : s.under m (Text.trimEnd x) = .undefined)
  /-- The second key is empty; under the first one there is a mapping, and something if
      it is without the blanks. -/
  | emptyKey {i} (hkey : key.isEmpty = true) (hx : s.slot? m x = some i)
    (hvalue : (s.valueAt i).isMapping = true)
    (htrimmed : s.under m (Text.trimEnd x) ≠ .undefined)
  /-- Under the first key there is something else than a mapping, and also if it is
      without the blanks. -/
  | notAMapping {i} (hkey : key.isEmpty = false) (hx : s.slot? m x = some i)
    (hvalue : (s.valueAt i).isMapping = false)
    (htrimmed : (s.under m (Text.trimEnd x)).isMapping = false)
    (hpresent : s.under m (Text.trimEnd x) ≠ .undefined)

theorem failsAt_of_none (hi : s.slot? m x = none) :
    s.FailsAt m x key ↔ s.under m (Text.trimEnd x) = .undefined := by
  constructor
  · rintro (⟨-, h⟩ | ⟨-, hi', -, -⟩ | ⟨-, hi', -, -, -⟩)
    · exact h
    · simp [hi] at hi'
    · simp [hi] at hi'
  · exact .absent hi

section

variable {i : SlotId} (hi : s.slot? m x = some i)

include hi

theorem failsAt_of_isMapping (hvalue : (s.valueAt i).isMapping = true) : s.FailsAt m x key ↔
    key.isEmpty = true ∧ s.under m (Text.trimEnd x) ≠ .undefined := by
  constructor
  · rintro (⟨hi', -⟩ | ⟨hkey, -, -, h⟩ | ⟨-, hi', hvalue', -, -⟩)
    · simp [hi] at hi'
    · exact ⟨hkey, h⟩
    · cases Option.some.inj (hi.symm.trans hi')
      simp [hvalue] at hvalue'
  · rintro ⟨hkey, h⟩
    exact .emptyKey hkey hi hvalue h

theorem failsAt_of_not_isMapping (hvalue : (s.valueAt i).isMapping = false) :
    s.FailsAt m x key ↔ key.isEmpty = false ∧
      (s.under m (Text.trimEnd x)).isMapping = false ∧
      s.under m (Text.trimEnd x) ≠ .undefined := by
  constructor
  · rintro (⟨hi', -⟩ | ⟨-, hi', hvalue', -⟩ | ⟨hkey, -, -, h, h'⟩)
    · simp [hi] at hi'
    · cases Option.some.inj (hi.symm.trans hi')
      simp [hvalue] at hvalue'
    · exact ⟨hkey, h, h'⟩
  · rintro ⟨hkey, h, h'⟩
    exact .notAMapping hkey hi hvalue h h'

end

/-- How a reading ends at the last two keys. -/
theorem walk_two_cases (path : String) (hx : x.isEmpty = false) :
    (s.slot? m x = none ∧ (s.walk path (.mapping m) [x, key]).2 = .error (.missingKey path x)) ∨
    (∃ i, s.slot? m x = some i ∧ (s.valueAt i).isMapping = false ∧
      (s.walk path (.mapping m) [x, key]).2 = .error (.notAMapping path key)) ∨
    (∃ i, s.slot? m x = some i ∧ (s.valueAt i).isMapping = true ∧ key.isEmpty = true ∧
      (s.walk path (.mapping m) [x, key]).2 = .error (.missingKey path key)) ∨
    ∃ v, (s.walk path (.mapping m) [x, key]).2 = .ok v := by
  rw [walk, if_neg (by simp [hx])]
  cases hi : s.slot? m x with
  | none => exact .inl ⟨rfl, rfl⟩
  | some i =>
    right
    cases hvalue : s.valueAt i with
    | mapping m' =>
      right
      cases hkey : key.isEmpty with
      | true =>
        refine .inl ⟨i, rfl, by rw [hvalue]; rfl, rfl, ?_⟩
        simp [walk, hkey, hvalue]
      | false => exact .inr ⟨_, by simpa only [hvalue] using walk_one path m' hkey⟩
    | _ =>
      refine .inl ⟨i, rfl, by rw [hvalue]; rfl, ?_⟩
      simp [walk, hvalue]

/-- How a write fails there. -/
theorem target_eq_error_of_cut {parent : String} {front : List String} {visited : List SlotId}
    {v : Value} (c : Text.Cut expression parent front x key)
    (h : s.resolve root parent = (visited, .ok v)) :
    (s.target root expression).2 = .error err ↔
      (v = .undefined ∧ err = .missingKey (Text.trim expression) x) ∨
      (v ≠ .undefined ∧ key.isEmpty = true ∧ err = .missingKey (Text.trim expression) key) ∨
      (v ≠ .undefined ∧ key.isEmpty = false ∧ v.isMapping = false ∧
        err = .notAMapping (Text.trim expression) key) := by
  rw [target_of_cut c, h]
  cases v with
  | undefined => simp [@eq_comm _ _ err]
  | _ => cases hkey : key.isEmpty <;> simp [Value.isMapping, @eq_comm _ _ err]

/-! ## The whole path -/

/-- Where a reading fails at the last two keys, a write has its error exactly if it fails
    in the same way. -/
theorem failsAt_iff {parent : String} {front : List String} {visited : List SlotId}
    (c : Text.Cut expression parent front x key) (hx : x.isEmpty = false)
    (h : s.resolve root parent = (visited, .ok (s.under m (Text.trimEnd x))))
    (hread : (s.walk (Text.trim expression) (.mapping m) [x, key]).2 = .error err) :
    (s.target root expression).2 = .error err ↔ s.FailsAt m x key := by
  have hne : key.isEmpty = true → x ≠ key := by
    rintro hkey rfl
    simp [hx] at hkey
  rw [target_eq_error_of_cut c h]
  rcases walk_two_cases (Text.trim expression) hx with ⟨hi, hr⟩ | ⟨i, hi, hvalue, hr⟩ |
    ⟨i, hi, hvalue, hkey, hr⟩ | ⟨v, hr⟩
  · obtain rfl := Except.error.inj (hr.symm.trans hread)
    rw [failsAt_of_none hi]
    constructor
    · rintro (⟨hv, -⟩ | ⟨-, hkey, herr⟩ | ⟨-, -, -, herr⟩)
      · exact hv
      · exact absurd (PathError.missingKey.inj herr).2 (hne hkey)
      · cases herr
    · exact fun hv => .inl ⟨hv, rfl⟩
  · obtain rfl := Except.error.inj (hr.symm.trans hread)
    rw [failsAt_of_not_isMapping hi hvalue]
    simp [and_left_comm, and_comm]
  · obtain rfl := Except.error.inj (hr.symm.trans hread)
    rw [failsAt_of_isMapping hi hvalue]
    simp [hkey, (hne hkey).symm]
  · rw [hr] at hread
    cases hread

/-- A reading through an expression fails, and a write does so with the same error:
    the expression is blank, or the keys before the last two lead to a mapping and both
    fail there. -/
inductive FailsAlike (s : Store R) (root : MappingId) (expression : String) : Prop
  /-- There is no key. -/
  | blank (h : Text.trim expression = "")
  /-- The last two keys. -/
  | keys {front slots m x key} (hkeys : Text.splitOn '.' (Text.trim expression) = front ++ [x, key])
    (hfront : s.Leads (.mapping root) front slots (.mapping m))
    (hx : (Text.trimEnd x).isEmpty = false) (hlast : s.FailsAt m x key)

/-- **A write has the error of the reading** exactly if both fail alike. -/
theorem target_eq_error_iff (h : (s.resolve root expression).2 = .error err) :
    (s.target root expression).2 = .error err ↔ s.FailsAlike root expression := by
  by_cases hblank : Text.trim expression = ""
  · rw [resolve_of_blank hblank] at h
    obtain rfl := Except.error.inj h
    rw [target_of_blank hblank]
    exact ⟨fun _ => .blank hblank, fun _ => rfl⟩
  rw [resolve_of_not_blank hblank] at h
  obtain ⟨-, hkeys, -⟩ | ⟨parent, front, x, key, c⟩ := Text.cut_cases expression
  · -- a single key does not fail
    rw [hkeys, walk_one _ _ (by simpa using hblank)] at h
    cases h
  rw [c.keys] at h
  rcases hparent : s.resolve root parent with ⟨visited, e | v⟩
  · -- the error names what stands before the last dot
    have htarget : (s.target root expression).2 = .error e := by
      rw [target_of_cut c, hparent]
    constructor
    · intro herr
      obtain rfl := Except.error.inj (htarget.symm.trans herr)
      exact absurd (expression?_of_walk h) (expression?_of_cut c (congrArg Prod.snd hparent))
    · rintro (hno | ⟨hkeys, hfront, hx, -⟩)
      · exact absurd hno hblank
      · obtain ⟨rfl, rfl, rfl⟩ := c.unique hkeys
        have hok := (resolve_of_cut_eq_ok_iff c).2 ⟨_, _, hfront, hx, rfl⟩
        rw [hparent] at hok
        cases hok
  · obtain ⟨slots, m, hfront, htrimmed, rfl⟩ :=
      (resolve_of_cut_eq_ok_iff c).1 (congrArg Prod.snd hparent)
    have hx : x.isEmpty = false := by
      rw [String.isEmpty_eq_false_iff] at htrimmed ⊢
      rintro rfl
      exact htrimmed rfl
    have halike : s.FailsAlike root expression ↔ s.FailsAt m x key := by
      constructor
      · rintro (hno | ⟨hkeys, hfront', -, hat⟩)
        · exact absurd hno hblank
        · obtain ⟨rfl, rfl, rfl⟩ := c.unique hkeys
          obtain ⟨-, hm⟩ := hfront.unique hfront'
          cases hm
          exact hat
      · exact .keys c.keys hfront htrimmed
    rw [hfront.walk_append] at h
    rw [halike]
    exact failsAt_iff c hx hparent h

end Store

namespace Effect

variable {u : World R σ} {root : MappingId} {expression : String} {err : PathError}

/-- The value of a slot stays until the slot is written. -/
theorem kept_valueAt (i : SlotId) (v : Value) :
    Kept (fun u : World R σ => u.store.valueAt i = v) where
  subscribe u slot w h := (u.store.valueAt_subscribe slot w i).trans h
  count _ _ h := h
  collecting _ _ h := h
  depth _ _ h := h
  remember _ _ _ h := h

/-- A write under a key changes what is read there, or it has no error. -/
theorem exists_set_changes (m : MappingId) (key : String) (u : World R σ) :
    ∃ v, (set (fun _ _ => pure ()) m key v u).1 = .ok () ∨
      ∃ i, (set (fun _ _ => pure ()) m key v u).2.store.valueAt i ≠ u.store.valueAt i := by
  cases hslot : u.store.slot? m key with
  | none =>
    refine ⟨.null, .inl ?_⟩
    rw [set_of_none _ hslot]
  | some i =>
    obtain ⟨v, hscalar, hv⟩ : ∃ v : Value, v.isMapping = false ∧ v ≠ u.store.valueAt i := by
      by_cases hnull : u.store.valueAt i = .null
      · exact ⟨.undefined, rfl, by rw [hnull]; nofun⟩
      · exact ⟨.null, rfl, Ne.symm hnull⟩
    refine ⟨v, ?_⟩
    rw [set_of_some _ hslot, if_neg (by simp [hscalar])]
    by_cases hi : i < u.store.slots.size
    · right
      refine ⟨i, ?_⟩
      have hwritten : (u.store.write i v).valueAt i = v := by
        rw [Store.valueAt_write, if_pos ⟨rfl, hi⟩]
      have hkept := (kept_valueAt i v).notify
        (fun _ _ => Preserves.pure () : ∀ _ _, Preserves _ (pure () : Effect R σ Unit))
        i { u with store := u.store.write i v } hwritten
      rw [hkept]
      exact hv
    · left
      rw [notify_of_nil]
      exact (u.store.subscribers_write i v i).trans
        (u.store.subscribers_of_size_le (Nat.le_of_not_lt hi))

/-- **Where a reading fails**, a write through the same expression fails with the same
    error and changes no mapping and no value, whatever is written and whatever watchers
    do, exactly if both fail alike. -/
theorem setPath_fails_alike_iff
    (h : (getPath root expression u).1 = .error (.fault (.path err))) :
    (∀ (react : R → Value → Effect R σ Unit) (v : Value),
      (setPath react root expression v u).1 = .error (.fault (.path err)) ∧
        (setPath react root expression v u).2.store.mappings = u.store.mappings ∧
        ∀ i, (setPath react root expression v u).2.store.valueAt i = u.store.valueAt i) ↔
      u.store.FailsAlike root expression := by
  rw [← Store.target_eq_error_iff (getPath_eq_error_iff.1 h)]
  constructor
  · intro hfails
    cases htarget : (u.store.target root expression).2 with
    | error e =>
      obtain ⟨herr, -⟩ := hfails (fun _ _ => pure ()) .null
      rw [setPath_of_error _ htarget] at herr
      simpa using herr
    | ok target =>
      -- such a write would go on
      obtain ⟨m, key⟩ := target
      obtain ⟨v, hok | ⟨i, hchanges⟩⟩ := exists_set_changes (σ := σ) m key
        { u with store := u.store.trackAll (u.store.target root expression).1 }
      · obtain ⟨herr, -⟩ := hfails (fun _ _ => pure ()) v
        rw [setPath_of_ok _ htarget, hok] at herr
        cases herr
      · obtain ⟨-, -, hvalues⟩ := hfails (fun _ _ => pure ()) v
        rw [setPath_of_ok _ htarget] at hvalues
        exact absurd ((hvalues i).trans (Store.valueAt_trackAll _ _ i).symm) hchanges
  · intro htarget react v
    rw [setPath_of_error react htarget]
    refine ⟨rfl, ?_, ?_⟩
    · exact Store.mappings_trackAll _ _
    · exact Store.valueAt_trackAll _ _

/-- A mapping with a text in it. -/
def greeting : World Unit Unit where
  store := (Store.empty.observe (.object [("message", .string "hi")])).2
  stage := ()

/-- A text has no keys, whether they are read or written. -/
theorem setPath_fails_alike_of_greeting :
    let err := PathError.notAMapping "message.length" "length"
    (getPath 0 "message.length" greeting).1 = .error (.fault (.path err)) ∧
      ∀ (react : Unit → Value → Effect Unit Unit Unit) (v : Value),
        (setPath react 0 "message.length" v greeting).1 = .error (.fault (.path err)) := by
  intro err
  have hread : (getPath 0 "message.length" greeting).1 = .error (.fault (.path err)) := by
    rw [getPath_eq_error_iff]
    unfold Store.resolve
    rfl
  have hkeys : Text.splitOn '.' (Text.trim "message.length") = [] ++ ["message", "length"] := by
    decide +kernel
  have htrim : Text.trimEnd "message" = "message" := by decide +kernel
  have hat : greeting.store.FailsAt 0 "message" "length" :=
    .notAMapping (i := 0) rfl rfl rfl (by rw [htrim]; rfl) (by rw [htrim]; nofun)
  have halike : greeting.store.FailsAlike 0 "message.length" :=
    .keys hkeys (.here _) (by rw [htrim]; rfl) hat
  exact ⟨hread, fun react v => ((setPath_fails_alike_iff hread).2 halike react v).1⟩

/-- Where a key before the last two is absent, the reading names the whole expression, and
    the write what stands before its last dot. -/
theorem setPath_fails_otherwise :
    let u : World Unit Unit := ⟨(Store.empty.observe (.object [])).2, ()⟩
    (getPath 0 "a.b.c" u).1 = .error (.fault (.path (.missingKey "a.b.c" "a"))) ∧
      (setPath (fun _ _ => pure ()) 0 "a.b.c" .null u).1 =
        .error (.fault (.path (.missingKey "a.b" "a"))) := by
  intro u
  have htarget : (u.store.target 0 "a.b.c").2 = .error (.missingKey "a.b" "a") := by
    unfold Store.target Store.resolve
    rfl
  constructor
  · rw [getPath_eq_error_iff]
    unfold Store.resolve
    rfl
  · rw [setPath_of_error _ htarget]

end Effect

end DataBinding
