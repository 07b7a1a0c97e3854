/-
  How the keys of an expression are looked up, and where a write goes.

  * `Store.Leads`: keys lead from a value to another one, through slots, one slot for
    each key;
  * `walk_eq_ok_iff`: looking keys up comes to a value exactly if all of them lead
    there, or all but the last lead to a mapping without it (`Store.Finds`);
  * `expression?_of_walk`: an error of a lookup names the path that is looked up;
  * `target_of_single`, `target_of_cut`, `exists_leads_of_target`: where a write goes;
  * `Names.target`: it goes to the slot that the expression ends at, if there are no
    blanks in that.
-/
import DataBinding.Proofs.Reactive.Path

namespace DataBinding

/-- The expression in which a lookup failed, if the error names one. -/
def PathError.expression? : PathError → Option String
  | emptyExpression => none
  | missingKey expression _ => some expression
  | notAMapping expression _ => some expression

namespace Store

variable {R : Type}

/-- Keys lead from a value to another one, through slots, one for each key. -/
inductive Leads (s : Store R) : Value → List String → List SlotId → Value → Prop
  /-- No key leads nowhere else. -/
  | here (v) : Leads s v [] [] v
  /-- A key leads from a mapping to what the slot under it holds. -/
  | on {m key i keys slots v} (hkey : key.isEmpty = false) (hi : s.slot? m key = some i)
      (h : Leads s (s.valueAt i) keys slots v) : Leads s (.mapping m) (key :: keys) (i :: slots) v

/-- What looking keys up comes to, and the slots on the way. -/
inductive Finds (s : Store R) (v : Value) (keys : List String) (slots : List SlotId)
    (w : Value) : Prop
  /-- All keys lead there. -/
  | all (h : s.Leads v keys slots w)
  /-- All keys but the last lead to a mapping, in which the last one is absent. -/
  | butLast {front : List String} {key : String} {m : MappingId} (hkeys : keys = front ++ [key])
      (h : s.Leads v front slots (.mapping m)) (hkey : key.isEmpty = false)
      (habsent : s.slot? m key = none) (hw : w = .undefined)

variable {s : Store R} {v w : Value} {front keys : List String} {slots : List SlotId}

namespace Leads

/-- There is one slot for each key. -/
theorem length (h : s.Leads v keys slots w) : slots.length = keys.length := by
  induction h with
  | here => rfl
  | on _ _ _ ih => simp [ih]

/-- Keys lead to one value, through the same slots. -/
theorem unique {slots' : List SlotId} {w' : Value} (h : s.Leads v keys slots w)
    (h' : s.Leads v keys slots' w') : slots = slots' ∧ w = w' := by
  induction h generalizing slots' with
  | here =>
    cases h'
    exact ⟨rfl, rfl⟩
  | on _ hi _ ih =>
    cases h' with
    | on _ hi' h' =>
      cases Option.some.inj (hi.symm.trans hi')
      obtain ⟨rfl, rfl⟩ := ih h'
      exact ⟨rfl, rfl⟩

theorem concat {m : MappingId} {key : String} {i : SlotId} (h : s.Leads v keys slots (.mapping m))
    (hkey : key.isEmpty = false) (hi : s.slot? m key = some i) :
    s.Leads v (keys ++ [key]) (slots ++ [i]) (s.valueAt i) := by
  generalize hw : Value.mapping m = w at h
  induction h with
  | here =>
    subst hw
    exact .on hkey hi (.here _)
  | on hkey' hi' _ ih => exact .on hkey' hi' (ih hw)

theorem eq_of_nil (h : s.Leads v [] slots w) : slots = [] ∧ w = v := by
  cases h
  exact ⟨rfl, rfl⟩

/-- The last key is looked up in a mapping. -/
theorem of_concat {key : String} (h : s.Leads v (front ++ [key]) slots w) : ∃ slots' m i,
    s.Leads v front slots' (.mapping m) ∧ key.isEmpty = false ∧ s.slot? m key = some i ∧
      slots = slots' ++ [i] ∧ w = s.valueAt i := by
  induction front generalizing v slots with
  | nil =>
    cases h with
    | on hkey hi h =>
      obtain ⟨rfl, rfl⟩ := h.eq_of_nil
      exact ⟨[], _, _, .here _, hkey, hi, rfl, rfl⟩
  | cons first front ih =>
    cases h with
    | on hfirst hi h =>
      obtain ⟨slots', m, i, hfront, hkey, hslot, rfl, rfl⟩ := ih h
      exact ⟨_ :: slots', m, i, .on hfirst hi hfront, hkey, hslot, rfl, rfl⟩

/-- Keys lead to what the last slot on the way holds. -/
theorem eq_valueAt {i : SlotId} (h : s.Leads v keys (slots ++ [i]) w) : w = s.valueAt i := by
  induction keys using List.reverseRecOn with
  | nil =>
    obtain ⟨hslots, -⟩ := h.eq_of_nil
    simp at hslots
  | append_singleton keys key =>
    obtain ⟨slots', m, i', -, -, -, hslots, rfl⟩ := h.of_concat
    obtain ⟨-, hi⟩ := List.append_inj' hslots rfl
    obtain rfl : i = i' := by simpa using hi
    rfl

/-- No key on the way is empty. -/
theorem nonempty (h : s.Leads v keys slots w) : ∀ key ∈ keys, key.isEmpty = false := by
  induction h with
  | here => simp
  | on hkey _ _ ih => exact List.forall_mem_cons.2 ⟨hkey, ih⟩

/-- A lookup goes on where its first keys lead. -/
theorem walk_append (h : s.Leads v front slots w) (path : String) (keys : List String) :
    s.walk path v (front ++ keys) =
      (slots ++ (s.walk path w keys).1, (s.walk path w keys).2) := by
  induction h with
  | here => simp
  | on hkey hi _ ih =>
    rw [List.cons_append, walk_cons path _ hkey hi, ih, List.cons_append]

end Leads

/-- **A lookup comes to a value** exactly if all its keys lead there, or all but an
    absent last one lead to a mapping. -/
theorem walk_eq_ok_iff {path : String} :
    s.walk path v keys = (slots, .ok w) ↔ s.Finds v keys slots w := by
  constructor
  · intro h
    induction keys generalizing v slots with
    | nil =>
      rw [walk_nil] at h
      cases h
      exact .all (.here _)
    | cons key rest ih =>
      obtain ⟨m, i, rfl, hkey, hi, hwalk⟩ | ⟨m, rfl, hkey, habsent, rfl, hwalk⟩ | ⟨e, hwalk⟩ :=
        walk_cons_cases s path v key rest
      · obtain ⟨rfl, hw⟩ := Prod.mk.inj (hwalk.symm.trans h)
        cases ih (Prod.ext rfl hw) with
        | all h => exact .all (.on hkey hi h)
        | butLast hkeys h hlast habsent hw =>
          exact .butLast (congrArg (key :: ·) hkeys) (.on hkey hi h) hlast habsent hw
      · cases hwalk.symm.trans h
        exact .butLast (List.nil_append [key]).symm (.here _) hkey habsent rfl
      · cases congrArg Prod.snd (hwalk.symm.trans h)
  · intro h
    cases h with
    | all h =>
      have := h.walk_append path []
      simpa [walk_nil] using this
    | butLast hkeys h hkey habsent hw =>
      subst hkeys hw
      rw [h.walk_append, walk, if_neg (by simp [hkey]), habsent]
      simp

/-- What a lookup with a last key comes to. -/
theorem finds_concat_iff {key : String} : s.Finds v (front ++ [key]) slots w ↔
    ∃ slots' m, s.Leads v front slots' (.mapping m) ∧ key.isEmpty = false ∧
      ((∃ i, s.slot? m key = some i ∧ slots = slots' ++ [i] ∧ w = s.valueAt i) ∨
        (s.slot? m key = none ∧ slots = slots' ∧ w = .undefined)) := by
  constructor
  · intro h
    cases h with
    | all h =>
      obtain ⟨slots', m, i, hfront, hkey, hi, hslots, hw⟩ := h.of_concat
      exact ⟨slots', m, hfront, hkey, .inl ⟨i, hi, hslots, hw⟩⟩
    | butLast hkeys h hkey habsent hw =>
      obtain ⟨rfl, hlast⟩ := List.append_inj' hkeys rfl
      cases hlast
      exact ⟨slots, _, h, hkey, .inr ⟨habsent, rfl, hw⟩⟩
  · rintro ⟨slots', m, h, hkey, ⟨i, hi, rfl, rfl⟩ | ⟨habsent, rfl, rfl⟩⟩
    · exact .all (h.concat hkey hi)
    · exact .butLast rfl h hkey habsent rfl

/-- The error of a lookup names the path that is looked up. -/
theorem expression?_of_walk {path : String} {e : PathError} :
    ∀ {keys : List String} {v : Value}, (s.walk path v keys).2 = .error e →
      e.expression? = some path
  | [], v, h => by
    rw [walk_nil] at h
    cases h
  | key :: rest, v, h => by
    cases v with
    | mapping m =>
      rw [walk] at h
      split at h
      · cases h
        rfl
      · split at h
        next i hi => exact expression?_of_walk h
        next =>
          split at h
          · cases h
          · cases h
            rfl
    | _ =>
      cases h
      rfl

/-! ## Expressions -/

variable {root : MappingId} {expression : String}

/-- An expression resolves if it is not blank, and its keys are found. -/
theorem resolve_eq_ok_iff : s.resolve root expression = (slots, .ok w) ↔
    Text.trim expression ≠ "" ∧
      s.Finds (.mapping root) (Text.splitOn '.' (Text.trim expression)) slots w := by
  by_cases h : Text.trim expression = ""
  · simp [resolve_of_blank h, h]
  · rw [resolve_of_not_blank h, walk_eq_ok_iff]
    simp [h]

/-! ## What is under a key -/

/-- What is read under a key of a mapping: nothing, if the key is absent. -/
def under (s : Store R) (m : MappingId) (key : String) : Value :=
  (s.slot? m key).elim .undefined s.valueAt

theorem walk_one (path : String) (m : MappingId) {key : String} (hkey : key.isEmpty = false) :
    (s.walk path (.mapping m) [key]).2 = .ok (s.under m key) := by
  rw [walk, if_neg (by simp [hkey]), under]
  cases s.slot? m key with
  | none => rfl
  | some i => simp [walk_nil]

/-! ## Where a write goes -/

theorem target_of_blank (h : Text.trim expression = "") :
    s.target root expression = ([], .error .emptyExpression) := by
  unfold target
  rw [h]
  rfl

/-- A write through a single key goes to the root. -/
theorem target_of_single (h : Text.trim expression ≠ "")
    (hlast : splitLast (Text.trim expression) = none) :
    s.target root expression = ([], .ok (root, Text.trim expression)) := by
  unfold target
  simp [h, hlast]

section

variable {parent x key : String} (c : Text.Cut expression parent front x key)

include c

/-- What stands before the last dot is looked up as a path of its own. -/
theorem resolve_of_cut : s.resolve root parent =
    if front = [] ∧ Text.trimEnd x = "" then ([], .error .emptyExpression)
    else s.walk (Text.trim parent) (.mapping root) (front ++ [Text.trimEnd x]) := by
  split
  next h => exact resolve_of_blank (c.blank.2 h)
  next h => rw [resolve_of_not_blank (mt c.blank.1 h), c.trimmed]

/-- It resolves if the keys before the last two lead to a mapping, and the last but one
    is more than blanks. -/
theorem resolve_of_cut_eq_ok_iff : (s.resolve root parent).2 = .ok w ↔
    ∃ slots m, s.Leads (.mapping root) front slots (.mapping m) ∧
      (Text.trimEnd x).isEmpty = false ∧ w = s.under m (Text.trimEnd x) := by
  constructor
  · intro h
    obtain ⟨-, hfinds⟩ := resolve_eq_ok_iff.1 (show s.resolve root parent = (_, .ok w) from
      Prod.ext rfl h)
    rw [c.trimmed] at hfinds
    obtain ⟨slots, m, hfront, hx, ⟨i, hi, -, rfl⟩ | ⟨habsent, -, rfl⟩⟩ := finds_concat_iff.1 hfinds
    · exact ⟨slots, m, hfront, hx, by simp [under, hi]⟩
    · exact ⟨slots, m, hfront, hx, by simp [under, habsent]⟩
  · rintro ⟨slots, m, hfront, hx, rfl⟩
    rw [resolve_of_cut c, if_neg (by rintro ⟨-, hblank⟩; simp [hblank] at hx),
      hfront.walk_append]
    exact walk_one _ m hx

/-- An error of this lookup does not name the whole path. -/
theorem expression?_of_cut {e : PathError} (h : (s.resolve root parent).2 = .error e) :
    e.expression? ≠ some (Text.trim expression) := by
  rw [resolve_of_cut c] at h
  split at h
  · cases h
    simp [PathError.expression?]
  · rw [expression?_of_walk h]
    simpa using c.shorter

/-- A write through a path with a dot goes to the mapping that stands before it. -/
theorem target_of_cut : s.target root expression = ((s.resolve root parent).1,
    match (s.resolve root parent).2 with
    | .error e => .error e
    | .ok .undefined => .error (.missingKey (Text.trim expression) x)
    | .ok v =>
      if key.isEmpty then .error (.missingKey (Text.trim expression) key)
      else
        match v with
        | .mapping m => .ok (m, key)
        | _ => .error (.notAMapping (Text.trim expression) key)) := by
  have hpath := String.isEmpty_eq_false_iff.2 c.path_ne
  unfold target
  simp only [hpath, c.last, c.before, List.getLast?_concat, Option.getD_some]
  rfl

/-- The write resolves if the keys before the last dot, without the blanks at their
    end, lead to a mapping and the last key is not empty. -/
theorem target_eq_ok_iff {m : MappingId} {key' : String} :
    (s.target root expression).2 = .ok (m, key') ↔ key' = key ∧ key.isEmpty = false ∧
      ∃ slots, s.Leads (.mapping root) (front ++ [Text.trimEnd x]) slots (.mapping m) := by
  have hresolve : (∃ slots, s.resolve root parent = (slots, .ok (.mapping m))) ↔
      ∃ slots, s.Leads (.mapping root) (front ++ [Text.trimEnd x]) slots (.mapping m) := by
    constructor
    · rintro ⟨slots, h⟩
      obtain ⟨-, h⟩ := resolve_eq_ok_iff.1 h
      rw [c.trimmed] at h
      cases h with
      | all h => exact ⟨slots, h⟩
      | butLast _ _ _ _ hw => cases hw
    · rintro ⟨slots, h⟩
      refine ⟨slots, resolve_eq_ok_iff.2 ⟨fun hblank => ?_, ?_⟩⟩
      · have hx := h.nonempty _ (List.mem_append_right front List.mem_cons_self)
        simp [(c.blank.1 hblank).2] at hx
      · rw [c.trimmed]
        exact .all h
  rw [target_of_cut c, ← hresolve]
  generalize s.resolve root parent = found
  obtain ⟨visited, e | v⟩ := found
  · simp
  · cases v <;> cases key.isEmpty <;> simp [and_comm, eq_comm]

end

/-- A write goes to the mapping that the keys of the expression but the last lead to, the
    last of them without the blanks at its end. -/
theorem exists_leads_of_target {m : MappingId} {key : String}
    (h : (s.target root expression).2 = .ok (m, key)) :
    ∃ path slots, Text.Aims expression path key ∧ key.isEmpty = false ∧
      s.Leads (.mapping root) path slots (.mapping m) := by
  by_cases hblank : Text.trim expression = ""
  · rw [target_of_blank hblank] at h
    cases h
  obtain ⟨hlast, hkeys, -⟩ | ⟨parent, front, x, key', c⟩ := Text.cut_cases expression
  · rw [target_of_single hblank hlast] at h
    cases h
    exact ⟨[], [], .one hkeys, by simpa using hblank, .here _⟩
  · obtain ⟨rfl, hkey, slots, hleads⟩ := (target_eq_ok_iff c).1 h
    exact ⟨_, slots, .more c.keys, hkey, hleads⟩

/-! ## Where an expression ends -/

/-- The keys before the last one lead to a mapping, and the slot is under the last one. -/
theorem names_iff {i : SlotId} : s.Names root expression i ↔ Text.trim expression ≠ "" ∧
    ∃ front key slots m, Text.splitOn '.' (Text.trim expression) = front ++ [key] ∧
      key.isEmpty = false ∧ s.Leads (.mapping root) front slots (.mapping m) ∧
      s.slot? m key = some i := by
  constructor
  · rintro ⟨slots, h⟩
    obtain ⟨hblank, hfinds⟩ := resolve_eq_ok_iff.1 h
    refine ⟨hblank, ?_⟩
    cases hfinds with
    | all h =>
      obtain hnil | ⟨front, key, hkeys⟩ := List.eq_nil_or_concat'
        (Text.splitOn '.' (Text.trim expression))
      · have hlength := h.length
        simp [hnil] at hlength
      rw [hkeys] at h
      obtain ⟨slots', m, i', hfront, hkey, hi, hslots, -⟩ := h.of_concat
      obtain ⟨-, hsame⟩ := List.append_inj' hslots rfl
      obtain rfl : i = i' := by simpa using hsame
      exact ⟨front, key, slots', m, hkeys, hkey, hfront, hi⟩
    | butLast _ h _ _ hundefined =>
      rw [← h.eq_valueAt] at hundefined
      cases hundefined
  · rintro ⟨hblank, front, key, slots, m, hkeys, hkey, hfront, hi⟩
    exact ⟨slots, resolve_eq_ok_iff.2 ⟨hblank, hkeys ▸ .all (hfront.concat hkey hi)⟩⟩

/-- **A write through an expression** without blanks in it goes to the slot that the
    expression ends at. -/
theorem Names.target {i : SlotId} (h : s.Names root expression i)
    (hblank : ∀ c ∈ Text.trimChars expression.toList, Text.isBlank c = false) :
    ∃ m key, (s.target root expression).2 = .ok (m, key) ∧ s.slot? m key = some i := by
  obtain ⟨hne, front, key, slots, m, hkeys, hkey, hfront, hi⟩ := names_iff.1 h
  refine ⟨m, key, ?_, hi⟩
  obtain ⟨hlast, hone, -⟩ | ⟨parent, front', x, key', c⟩ := Text.cut_cases expression
  · have hkeys' : [] ++ [Text.trim expression] = front ++ [key] := hone.symm.trans hkeys
    obtain ⟨rfl, hlast'⟩ := List.append_inj' hkeys' rfl
    obtain rfl : Text.trim expression = key := by simpa using hlast'
    obtain ⟨-, hm⟩ := hfront.eq_of_nil
    cases hm
    rw [target_of_single hne hlast]
  · have htrimmed := c.tight.1 (Text.tight_of_not_blank hblank)
    have hkeys' : front ++ [key] = (front' ++ [x]) ++ [key'] := by
      rw [← hkeys, c.keys, List.append_cons]
    obtain ⟨rfl, hlast⟩ := List.append_inj' hkeys' rfl
    obtain rfl : key = key' := by simpa using hlast
    rw [target_eq_ok_iff c, htrimmed]
    exact ⟨rfl, hkey, slots, hfront⟩

end Store

end DataBinding
