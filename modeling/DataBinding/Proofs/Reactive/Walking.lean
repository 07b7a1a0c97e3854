/-
  What following a path can come to.

  * `walk_cons_cases`: a path goes on through the slot under its first key, or ends at an
    absent last key, or fails;
  * `walk_ends`: how a path ends at a slot;
  * `forall_mem_walk`, `forall_mem_resolve`: what holds of all slots that can be met holds of
    those on the way;
  * `resolve_ok_cases`: an expression comes to the root, to the undefined value, or to what
    a slot holds.
-/
import DataBinding.Proofs.Reactive.Data

namespace DataBinding.Store

variable {R : Type} {s : Store R} {path segment expression : String} {v w : Value}
  {segments rest : List String} {i : SlotId} {m root : MappingId}

/-! ## Paths -/

theorem walk_nil (s : Store R) (path : String) (v : Value) : s.walk path v [] = ([], .ok v) := by
  cases v <;> rfl

theorem walk_cons (path : String) (rest : List String) (hsegment : segment.isEmpty = false)
    (hi : s.slot? m segment = some i) :
    s.walk path (.mapping m) (segment :: rest) =
      (i :: (s.walk path (s.valueAt i) rest).1, (s.walk path (s.valueAt i) rest).2) := by
  rw [walk, if_neg (ne_true_of_eq_false hsegment), hi]

theorem walk_cons_cases (s : Store R) (path : String) (v : Value) (segment : String)
    (rest : List String) :
    (∃ m i, v = .mapping m ∧ segment.isEmpty = false ∧ s.slot? m segment = some i ∧
      s.walk path v (segment :: rest) =
        (i :: (s.walk path (s.valueAt i) rest).1, (s.walk path (s.valueAt i) rest).2)) ∨
    (∃ m, v = .mapping m ∧ segment.isEmpty = false ∧ s.slot? m segment = none ∧ rest = [] ∧
      s.walk path v (segment :: rest) = ([], .ok .undefined)) ∨
    ∃ e, s.walk path v (segment :: rest) = ([], .error e) := by
  cases v with
  | mapping m =>
    by_cases hsegment : segment.isEmpty = true
    · exact .inr (.inr ⟨_, by rw [walk, if_pos hsegment]⟩)
    have hnonempty : segment.isEmpty = false := Bool.eq_false_iff.2 hsegment
    cases hslot : s.slot? m segment with
    | some i => exact .inl ⟨m, i, rfl, hnonempty, hslot, walk_cons path rest hnonempty hslot⟩
    | none =>
      rw [walk, if_neg hsegment, hslot]
      dsimp only
      cases rest with
      | nil => exact .inr (.inl ⟨m, rfl, hnonempty, hslot, rfl, rfl⟩)
      | cons => exact .inr (.inr ⟨_, rfl⟩)
  | _ => exact .inr (.inr ⟨_, rfl⟩)

/-- A path that goes on does not end where it starts without going through a slot. -/
theorem walk_cons_ne (s : Store R) (path : String) (v : Value) (segment : String)
    (rest : List String) : s.walk path v (segment :: rest) ≠ ([], .ok v) := by
  intro h
  obtain ⟨m, i, rfl, -, -, hwalk⟩ | ⟨m, rfl, -, -, -, hwalk⟩ | ⟨e, hwalk⟩ :=
    walk_cons_cases s path v segment rest <;> cases hwalk.symm.trans h

/-- A path ends at the slot under its only key, or goes on to where the rest of it ends. -/
theorem walk_ends {front : List SlotId}
    (h : s.walk path v (segment :: rest) = (front ++ [i], .ok (s.valueAt i))) :
    ∃ m slot, v = .mapping m ∧ segment.isEmpty = false ∧ s.slot? m segment = some slot ∧
      (front = [] ∧ slot = i ∧ rest = [] ∨ ∃ front', front = slot :: front' ∧
        s.walk path (s.valueAt slot) rest = (front' ++ [i], .ok (s.valueAt i))) := by
  obtain ⟨m, slot, hv, hsegment, hslot, hwalk⟩ | ⟨m, -, -, -, -, hwalk⟩ | ⟨e, hwalk⟩ :=
    walk_cons_cases s path v segment rest
  · refine ⟨m, slot, hv, hsegment, hslot, ?_⟩
    obtain ⟨hslots, hresult⟩ := Prod.mk.inj (hwalk.symm.trans h)
    cases front with
    | nil =>
      obtain ⟨rfl, hnone⟩ := List.cons.inj hslots
      cases rest with
      | nil => exact .inl ⟨rfl, rfl, rfl⟩
      | cons => exact absurd (Prod.ext hnone hresult) (walk_cons_ne _ _ _ _ _)
    | cons first front =>
      obtain ⟨rfl, hlater⟩ := List.cons.inj hslots
      exact .inr ⟨front, rfl, Prod.ext hlater hresult⟩
  · have hnone := congrArg Prod.fst (hwalk.symm.trans h)
    exact absurd hnone.symm (List.append_ne_nil_of_right_ne_nil front (List.cons_ne_nil i []))
  · cases congrArg Prod.snd (hwalk.symm.trans h)

/-- A path that goes through a slot starts at a mapping. -/
theorem isMapping_of_mem_walk (h : i ∈ (s.walk path v segments).1) : v.isMapping = true := by
  cases segments with
  | nil =>
    rw [walk_nil] at h
    cases h
  | cons segment rest =>
    cases v with
    | mapping m => rfl
    | _ => cases h

/-- What holds of the slots under the keys of the mappings that can be met holds of the slots
    on the way of a path. -/
theorem forall_mem_walk {P : SlotId → Prop} {Q : MappingId → Prop}
    (hslot : ∀ m key i, Q m → s.slot? m key = some i → P i)
    (hvalue : ∀ i m, P i → s.valueAt i = .mapping m → Q m) (path : String) :
    ∀ {segments : List String} {v : Value}, (∀ m, v = .mapping m → Q m) →
      ∀ i ∈ (s.walk path v segments).1, P i
  | [], v, _, i, hi => by
    rw [walk_nil] at hi
    cases hi
  | segment :: rest, v, hv, i, hi => by
    obtain ⟨m, slot, rfl, -, hm, hwalk⟩ | ⟨m, -, -, -, -, hwalk⟩ | ⟨e, hwalk⟩ :=
      walk_cons_cases s path v segment rest
    · have hfirst : P slot := hslot m segment slot (hv m rfl) hm
      rw [hwalk] at hi
      rcases List.mem_cons.1 hi with rfl | hi
      · exact hfirst
      · exact forall_mem_walk hslot hvalue path (fun m => hvalue slot m hfirst) i hi
    · rw [hwalk] at hi
      cases hi
    · rw [hwalk] at hi
      cases hi

theorem walk_ok_cases : ∀ {segments : List String} {v : Value},
    (s.walk path v segments).2 = .ok w → w = v ∨ w = .undefined ∨ ∃ i, w = s.valueAt i
  | [], v, h => by
    rw [walk_nil] at h
    exact .inl (Except.ok.inj h).symm
  | segment :: rest, v, h => by
    obtain ⟨m, slot, -, -, -, hwalk⟩ | ⟨m, -, -, -, -, hwalk⟩ | ⟨e, hwalk⟩ :=
      walk_cons_cases s path v segment rest
    · rw [hwalk] at h
      exact .inr ((walk_ok_cases h).elim (fun heq => .inr ⟨slot, heq⟩) id)
    · rw [hwalk] at h
      exact .inr (.inl (Except.ok.inj h).symm)
    · rw [hwalk] at h
      cases h

/-! ## Expressions -/

theorem resolve_of_blank (h : Text.trim expression = "") :
    s.resolve root expression = ([], .error .emptyExpression) := by
  unfold resolve
  rw [h]
  rfl

theorem resolve_of_not_blank (h : Text.trim expression ≠ "") :
    s.resolve root expression = s.walk (Text.trim expression) (.mapping root)
      (Text.splitOn '.' (Text.trim expression)) := by
  unfold resolve
  simp [h]

theorem forall_mem_resolve {P : SlotId → Prop} {Q : MappingId → Prop}
    (hslot : ∀ m key i, Q m → s.slot? m key = some i → P i)
    (hvalue : ∀ i m, P i → s.valueAt i = .mapping m → Q m) (hroot : Q root) :
    ∀ i ∈ (s.resolve root expression).1, P i := by
  intro i hi
  by_cases hblank : Text.trim expression = ""
  · rw [resolve_of_blank hblank] at hi
    cases hi
  · rw [resolve_of_not_blank hblank] at hi
    exact forall_mem_walk hslot hvalue _ (fun m hm => Value.mapping.inj hm ▸ hroot) i hi

theorem resolve_ok_cases (h : (s.resolve root expression).2 = .ok v) :
    v = .mapping root ∨ v = .undefined ∨ ∃ i, v = s.valueAt i := by
  by_cases hblank : Text.trim expression = ""
  · rw [resolve_of_blank hblank] at h
    cases h
  · rw [resolve_of_not_blank hblank] at h
    exact walk_ok_cases h

end DataBinding.Store
