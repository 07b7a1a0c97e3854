/-
  The text of dotted paths.

  A reading follows the keys of the whole path.  A write cuts the path at its last dot,
  and follows the keys of what comes before, which is trimmed once more.

  * `Text.trimChars_idempotent`, `Text.splitChars_append`: trimming, and cutting at
    dots;
  * `Store.splitLast_eq`: a path is cut at its last dot, if it has one;
  * `Text.cut_cases`: a path has one key, or it is cut into the keys before the last two,
    the last but one and the last (`Text.Cut`);
  * `Text.Aims`: the keys that a write follows, which are those of the path if no blank
    stands right before its last dot (`Text.Tight`).
-/
import Mathlib.Data.List.DropRight
import DataBinding.Proofs.Reactive.Frame

namespace DataBinding

namespace Text

/-! ## Trimming -/

theorem dropTrailing_eq {α : Type} (p : α → Bool) (l : List α) :
    dropTrailing p l = l.rdropWhile p := rfl

theorem dropWhile_trimChars (cs : List Char) :
    (trimChars cs).dropWhile isBlank = trimChars cs := by
  have hstart := List.dropWhile_idempotent (p := isBlank) cs
  rw [trimChars, dropTrailing_eq]
  rw [List.dropWhile_eq_self_iff] at hstart ⊢
  intro hlength
  have hcut := List.rdropWhile_prefix isBlank (cs.dropWhile isBlank)
  rw [hcut.getElem]
  exact hstart (Nat.lt_of_lt_of_le hlength hcut.length_le)

theorem trimChars_idempotent (cs : List Char) : trimChars (trimChars cs) = trimChars cs := by
  rw [trimChars, dropWhile_trimChars, trimChars, dropTrailing_eq, dropTrailing_eq,
    List.rdropWhile_idempotent]

theorem trim_ofList_trimChars (cs : List Char) :
    trim (String.ofList (trimChars cs)) = trim (String.ofList cs) := by
  simp only [trim, String.toList_ofList, trimChars_idempotent]

/-! ## Cutting at dots -/

theorem splitChars_ne_nil (sep : Char) (cs : List Char) : splitChars sep cs ≠ [] := by
  cases cs with
  | nil => simp [splitChars]
  | cons c rest =>
    rw [splitChars]
    split
    · simp
    · split <;> simp

theorem splitChars_append (sep : Char) (ys : List Char) : ∀ xs : List Char,
    splitChars sep (xs ++ sep :: ys) = splitChars sep xs ++ splitChars sep ys
  | [] => by simp [splitChars]
  | x :: xs => by
    rw [List.cons_append, splitChars, splitChars, splitChars_append sep ys xs]
    split
    · rfl
    · cases hx : splitChars sep xs with
      | nil => exact absurd hx (splitChars_ne_nil sep xs)
      | cons piece pieces => rfl

theorem splitChars_of_not_mem {sep : Char} : ∀ {cs : List Char}, sep ∉ cs →
    splitChars sep cs = [cs]
  | [], _ => rfl
  | c :: rest, h => by
    rw [List.mem_cons, not_or] at h
    rw [splitChars, if_neg (Ne.symm h.1), splitChars_of_not_mem h.2]

end Text

namespace Store

/-- A path is cut at its last dot, if it has one. -/
theorem splitLast_eq (path : String) :
    (splitLast path = none ∧ '.' ∉ path.toList) ∨
      ∃ parent key, splitLast path = some (parent, key) ∧
        path.toList = parent.toList ++ '.' :: key.toList ∧ '.' ∉ key.toList := by
  have hback := List.takeWhile_append_dropWhile (p := fun c => decide (c ≠ '.'))
    (l := path.toList.reverse)
  have hkey : '.' ∉ path.toList.reverse.takeWhile (fun c => decide (c ≠ '.')) := fun hmem => by
    have := List.mem_takeWhile_imp hmem
    simp at this
  have hdrop := congrArg (List.drop (path.toList.reverse.takeWhile
    fun c => decide (c ≠ '.')).length) hback
  rw [List.drop_left] at hdrop
  unfold splitLast
  dsimp only
  rw [← hdrop]
  generalize path.toList.reverse.takeWhile (fun c => decide (c ≠ '.')) = key at *
  cases hrest : path.toList.reverse.dropWhile fun c => decide (c ≠ '.') with
  | nil =>
    refine .inl ⟨rfl, fun hmem => hkey ?_⟩
    rw [hrest, List.append_nil] at hback
    rw [hback]
    exact List.mem_reverse.2 hmem
  | cons dot parent =>
    have hdot : dot = '.' := by
      have := List.head?_dropWhile_not (fun c => decide (c ≠ '.')) path.toList.reverse
      rw [hrest] at this
      simpa using this
    refine .inr ⟨_, _, rfl, ?_, by simpa using hkey⟩
    rw [← List.reverse_reverse path.toList, ← hback, hrest, hdot]
    simp

end Store

/-! ## The keys of a path -/

namespace Text

/-- The text without the blanks at its end. -/
def trimEnd (s : String) : String :=
  String.ofList (dropTrailing isBlank s.toList)

/-- No blank stands right before the last dot of an expression. -/
def Tight (expression : String) : Prop :=
  ∀ front c back, trimChars expression.toList = front ++ c :: '.' :: back → '.' ∉ back →
    isBlank c = false

theorem tight_of_not_blank {expression : String}
    (h : ∀ c ∈ trimChars expression.toList, isBlank c = false) : Tight expression := by
  intro front c back hsplit _
  refine h c ?_
  rw [hsplit]
  simp

theorem not_isBlank_dot : isBlank '.' = false := by decide

/-- A part of a trimmed text from its start on is trimmed at its start. -/
theorem trimChars_of_prefix {cs front back : List Char} (h : trimChars cs = front ++ back) :
    trimChars front = front.rdropWhile isBlank := by
  have hfront : front.dropWhile isBlank = front := by
    have hcs := dropWhile_trimChars cs
    rw [h] at hcs
    cases front with
    | nil => rfl
    | cons c rest =>
      rw [List.cons_append, List.dropWhile_cons] at hcs
      split at hcs
      · have hlength := congrArg List.length hcs
        have hle := (List.dropWhile_suffix (l := rest ++ back) isBlank).length_le
        simp only [List.length_cons] at hlength
        omega
      next hc => rw [List.dropWhile_cons, if_neg hc]
  rw [trimChars, dropTrailing_eq, hfront]

theorem rdropWhile_append_cons {α : Type} {p : α → Bool} {sep : α} (hsep : p sep = false)
    (front back : List α) :
    (front ++ sep :: back).rdropWhile p = front ++ sep :: back.rdropWhile p := by
  induction back using List.reverseRecOn with
  | nil => rw [List.rdropWhile_concat_neg p front sep (by simp [hsep]), List.rdropWhile_nil]
  | append_singleton back c ih =>
    rw [show front ++ sep :: (back ++ [c]) = (front ++ sep :: back) ++ [c] by simp,
      List.rdropWhile_concat, List.rdropWhile_concat]
    split
    · exact ih
    · simp

/-- A text has its last dot, or none. -/
theorem exists_last_dot (cs : List Char) :
    '.' ∉ cs ∨ ∃ front back, cs = front ++ '.' :: back ∧ '.' ∉ back := by
  induction cs using List.reverseRecOn with
  | nil => exact .inl (List.not_mem_nil)
  | append_singleton cs c ih =>
    by_cases hc : c = '.'
    · subst hc
      exact .inr ⟨cs, [], rfl, List.not_mem_nil⟩
    · rcases ih with hcs | ⟨front, back, rfl, hback⟩
      · exact .inl (by simp [hcs, Ne.symm hc])
      · exact .inr ⟨front, back ++ [c], by simp, by simp [hback, Ne.symm hc]⟩

/-- The pieces of a text without the blanks at its end are those of the text, the
    last one without the blanks at its end. -/
theorem splitOn_trimEnd (cs : List Char) : ∃ front x,
    splitOn '.' (String.ofList cs) = front ++ [x] ∧
      splitOn '.' (String.ofList (cs.rdropWhile isBlank)) = front ++ [trimEnd x] ∧
      (cs.rdropWhile isBlank = [] ↔ front = [] ∧ trimEnd x = "") ∧
      (cs.rdropWhile isBlank = cs ↔ trimEnd x = x) := by
  simp only [splitOn, String.toList_ofList, trimEnd, dropTrailing_eq]
  have hsub : ∀ l : List Char, '.' ∉ l → '.' ∉ l.rdropWhile isBlank := by
    intro l hl hmem
    have hcut := List.rdropWhile_prefix isBlank l
    exact hl (hcut.subset hmem)
  rcases exists_last_dot cs with hdot | ⟨front, back, rfl, hdot⟩
  · refine ⟨[], String.ofList cs, ?_, ?_, ?_, ?_⟩
    · rw [splitChars_of_not_mem hdot]
      rfl
    · rw [splitChars_of_not_mem (hsub cs hdot)]
      simp
    · simp
    · simp [← String.toList_inj]
  · rw [rdropWhile_append_cons not_isBlank_dot]
    refine ⟨(splitChars '.' front).map String.ofList, String.ofList back, ?_, ?_, ?_, ?_⟩
    · rw [splitChars_append, splitChars_of_not_mem hdot]
      simp
    · rw [splitChars_append, splitChars_of_not_mem (hsub back hdot)]
      simp
    · simp [splitChars_ne_nil]
    · simp [← String.toList_inj]

/-- A path with a dot, cut into the keys before the last two, the last but one and the
    last one. -/
structure Cut (expression parent : String) (front : List String) (x key : String) : Prop where
  /-- What stands before the last dot. -/
  last : Store.splitLast (trim expression) = some (parent, key)
  /-- The keys of the path. -/
  keys : splitOn '.' (trim expression) = front ++ [x, key]
  /-- The keys before the last dot. -/
  before : splitOn '.' parent = front ++ [x]
  /-- The keys before the last dot, which are trimmed once more. -/
  trimmed : splitOn '.' (trim parent) = front ++ [trimEnd x]
  /-- Nothing is left of them if there is one key only, and it is blank. -/
  blank : trim parent = "" ↔ front = [] ∧ trimEnd x = ""
  /-- They are another path. -/
  shorter : trim parent ≠ trim expression
  /-- They are the same keys if no blank stands right before the last dot. -/
  tight : Tight expression ↔ trimEnd x = x

theorem Cut.path_ne {expression parent : String} {front : List String} {x key : String}
    (c : Cut expression parent front x key) : trim expression ≠ "" := by
  intro h
  have hlast := c.last
  rw [h] at hlast
  cases hlast

/-- There is one last dot. -/
theorem last_dot_unique {front front' back back' : List Char}
    (h : front ++ '.' :: back = front' ++ '.' :: back') (hback : '.' ∉ back)
    (hback' : '.' ∉ back') : front = front' := by
  rcases List.append_eq_append_iff.1 h with ⟨between, rfl, hrest⟩ | ⟨between, rfl, hrest⟩
  · cases between with
    | nil => simp
    | cons c between =>
      rw [List.cons_append] at hrest
      obtain ⟨-, rfl⟩ := List.cons.inj hrest
      simp at hback
  · cases between with
    | nil => simp
    | cons c between =>
      rw [List.cons_append] at hrest
      obtain ⟨-, rfl⟩ := List.cons.inj hrest
      simp at hback'

/-- Whether a blank stands before the last dot is seen at what stands there. -/
theorem tight_iff {expression : String} {before after : List Char}
    (hpath : trimChars expression.toList = before ++ '.' :: after) (hafter : '.' ∉ after) :
    Tight expression ↔ before.rdropWhile isBlank = before := by
  rw [List.rdropWhile_eq_self_iff]
  constructor
  · intro h hne
    rw [Bool.not_eq_true]
    refine h before.dropLast (before.getLast hne) after ?_ hafter
    rw [hpath, List.append_cons, ← List.append_cons, List.append_cons before.dropLast,
      List.dropLast_append_getLast hne]
  · intro h front c back hsplit hback
    have hbefore : front ++ [c] = before := by
      have hsame : (front ++ [c]) ++ '.' :: back = before ++ '.' :: after := by
        rw [← hpath, hsplit, List.append_assoc, List.singleton_append]
      exact last_dot_unique hsame hback hafter
    subst hbefore
    simpa using h (by simp)

/-- **A path has one key, or it is cut.** -/
theorem cut_cases (expression : String) :
    (Store.splitLast (trim expression) = none ∧
      splitOn '.' (trim expression) = [trim expression] ∧ Tight expression) ∨
      ∃ parent front x key, Cut expression parent front x key := by
  have htrim : (trim expression).toList = trimChars expression.toList := by
    rw [trim, String.toList_ofList]
  obtain ⟨hlast, hdot⟩ | ⟨parent, key, hlast, hpath, hdot⟩ := Store.splitLast_eq (trim expression)
  · left
    refine ⟨hlast, ?_, ?_⟩
    · rw [splitOn, splitChars_of_not_mem hdot]
      simp
    · intro front c back hsplit
      rw [htrim, hsplit] at hdot
      simp at hdot
  · right
    obtain ⟨front, x, hbefore, htrimmed, hblank, htight⟩ := splitOn_trimEnd parent.toList
    have hparent : trim parent = String.ofList (parent.toList.rdropWhile isBlank) := by
      rw [trim, trimChars_of_prefix (htrim.symm.trans hpath)]
    rw [String.ofList_toList] at hbefore
    refine ⟨parent, front, x, key, hlast, ?_, hbefore, ?_, ?_, ?_, ?_⟩
    · rw [splitOn, hpath, splitChars_append, splitChars_of_not_mem hdot, List.map_append, ← splitOn,
        hbefore]
      simp
    · rw [hparent, htrimmed]
    · rw [hparent, ← hblank, ← String.toList_inj]
      simp
    · intro hsame
      have hcut := List.rdropWhile_prefix isBlank parent.toList
      have hle := hcut.length_le
      have hlength := congrArg (fun s => s.toList.length) hsame
      simp only [hparent, hpath, String.toList_ofList, List.length_append, List.length_cons]
        at hlength
      omega
    · rw [tight_iff (htrim.symm.trans hpath) hdot, htight]

theorem tight_of_key {expression key : String} (h : splitOn '.' (trim expression) = [key]) :
    Tight expression ∧ trim expression = key := by
  obtain ⟨-, hkeys, htight⟩ | ⟨parent, front, x, key', c⟩ := cut_cases expression
  · exact ⟨htight, by simpa using hkeys.symm.trans h⟩
  · have hlength := congrArg List.length (c.keys.symm.trans h)
    simp at hlength

/-- There is one way to cut a path. -/
theorem Cut.unique {expression parent : String} {front front' : List String}
    {x x' key key' : String} (c : Cut expression parent front x key)
    (h : splitOn '.' (trim expression) = front' ++ [x', key']) :
    front' = front ∧ x' = x ∧ key' = key := by
  obtain ⟨rfl, hlast⟩ := List.append_inj' (h.symm.trans c.keys) rfl
  exact ⟨rfl, by simpa using hlast⟩

/-- A path of two keys or more is cut before the last one. -/
theorem cut_of_keys {expression : String} {front : List String} {x key : String}
    (h : splitOn '.' (trim expression) = front ++ [x, key]) :
    ∃ parent, Cut expression parent front x key := by
  obtain ⟨-, hkeys, -⟩ | ⟨parent, front', x', key', c⟩ := cut_cases expression
  · have hlength := congrArg List.length (hkeys.symm.trans h)
    simp at hlength
  · obtain ⟨rfl, rfl, rfl⟩ := c.unique h
    exact ⟨parent, c⟩

/-- The keys that a write through an expression follows, and the key that it writes: the
    keys of the path, the last but one without the blanks at its end. -/
inductive Aims (expression : String) : List String → String → Prop
  /-- There is one key. -/
  | one {key} (hkeys : splitOn '.' (trim expression) = [key]) : Aims expression [] key
  /-- There are more. -/
  | more {front x key} (hkeys : splitOn '.' (trim expression) = front ++ [x, key]) :
    Aims expression (front ++ [trimEnd x]) key

theorem Aims.path_ne {expression key : String} {path : List String}
    (h : Aims expression path key) (hkey : key.isEmpty = false) : trim expression ≠ "" := by
  cases h with
  | one hkeys =>
    rw [(tight_of_key hkeys).2]
    simpa using hkey
  | more hkeys =>
    obtain ⟨_, c⟩ := cut_of_keys hkeys
    exact c.path_ne

/-- They are the keys of the path, if no blank stands before the last dot. -/
theorem Aims.keys {expression key : String} {path : List String} (h : Aims expression path key)
    (htight : Tight expression) : splitOn '.' (trim expression) = path ++ [key] := by
  cases h with
  | one hkeys => exact hkeys
  | more hkeys =>
    obtain ⟨_, c⟩ := cut_of_keys hkeys
    rw [hkeys, c.tight.1 htight]
    simp

end Text

namespace Store

variable {R : Type} {s : Store R}

/-- Blanks around an expression do not matter. -/
theorem resolve_trimChars (root : MappingId) (cs : List Char) :
    s.resolve root (String.ofList (Text.trimChars cs)) = s.resolve root (String.ofList cs) := by
  unfold resolve
  rw [Text.trim_ofList_trimChars]

end Store

end DataBinding
