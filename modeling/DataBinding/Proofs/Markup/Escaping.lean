/-
  Escaped text, and what becomes of the ends of lines.

  * `escape_eq_iff`: which text is written as it is;
  * `normalizeNewlines_eq_iff`: which text keeps its line ends;
  * `normalizeNewlines_escape_append`: escaping does not touch them.
-/
import DataBinding.Proofs.Markup.Decoding

namespace DataBinding.Markup

variable {cs rest : List Char}

/-! ## Line ends -/

theorem normalizeNewlines_cons {c : Char} (hc : c ≠ '\r') (cs : List Char) :
    normalizeNewlines (c :: cs) = c :: normalizeNewlines cs := by
  rw [normalizeNewlines]
  · exact fun _ heq => absurd heq hc
  · exact hc

theorem normalizeNewlines_append_of_not_mem (h : '\r' ∉ cs) (rest : List Char) :
    normalizeNewlines (cs ++ rest) = cs ++ normalizeNewlines rest := by
  induction cs with
  | nil => rfl
  | cons c cs ih =>
    rw [List.mem_cons, not_or] at h
    rw [List.cons_append, normalizeNewlines_cons (Ne.symm h.1), ih h.2, List.cons_append]

theorem not_mem_normalizeNewlines (cs : List Char) : '\r' ∉ normalizeNewlines cs := by
  fun_induction normalizeNewlines cs with
  | case1 => exact List.not_mem_nil
  | case2 rest ih => exact List.not_mem_cons_of_ne_of_not_mem (by decide) ih
  | case3 rest hrest ih => exact List.not_mem_cons_of_ne_of_not_mem (by decide) ih
  | case4 c rest hpair hc ih => exact List.not_mem_cons_of_ne_of_not_mem (Ne.symm hc) ih

theorem normalizeNewlines_ne_null (h : ∀ c ∈ cs, c.toNat ≠ 0) :
    ∀ c ∈ normalizeNewlines cs, c.toNat ≠ 0 := by
  fun_induction normalizeNewlines cs with
  | case1 => exact h
  | case2 rest ih =>
    exact List.forall_mem_cons.2 ⟨by decide, ih fun c hc => h c (by simp [hc])⟩
  | case3 rest hrest ih =>
    exact List.forall_mem_cons.2 ⟨by decide, ih (List.forall_mem_cons.1 h).2⟩
  | case4 c rest hpair hc ih =>
    obtain ⟨hfirst, hrest⟩ := List.forall_mem_cons.1 h
    exact List.forall_mem_cons.2 ⟨hfirst, ih hrest⟩

/-- Only text without carriage returns keeps its line ends. -/
theorem normalizeNewlines_eq_iff : normalizeNewlines cs = cs ↔ '\r' ∉ cs := by
  refine ⟨fun h => h ▸ not_mem_normalizeNewlines cs, fun h => ?_⟩
  have := normalizeNewlines_append_of_not_mem h []
  rwa [List.append_nil, normalizeNewlines, List.append_nil] at this

theorem normalizeNewlines_length_le (cs : List Char) :
    (normalizeNewlines cs).length ≤ cs.length := by
  fun_induction normalizeNewlines cs with
  | case1 => exact Nat.le_refl _
  | case2 rest ih => exact Nat.succ_le_succ (Nat.le_succ_of_le ih)
  | case3 rest hrest ih => exact Nat.succ_le_succ ih
  | case4 c rest hpair hc ih => exact Nat.succ_le_succ ih

theorem normalizeNewlines_eq_nil : normalizeNewlines cs = [] ↔ cs = [] := by
  fun_cases normalizeNewlines cs <;> simp

/-! ## Escaped text -/

/-- The characters that escape sequences are written with. -/
def escapeLetters : List Char :=
  ['&', 'a', 'm', 'p', 'l', 't', 'g', 'q', 'u', 'o', '#', 'x', '2', '7', ';']

/-- The characters that are escaped. -/
def markupChars : List Char :=
  ['&', '<', '>', '"', '\x27']

theorem escapeChar_cases (c : Char) :
    c ∉ markupChars ∧ escapeChar c = [c] ∨
      c ∈ markupChars ∧ (∃ next more, escapeChar c = '&' :: next :: more) ∧
        ∀ x ∈ escapeChar c, x ∈ escapeLetters := by
  unfold escapeChar
  split_ifs with hand hless hgreater hquote hapostrophe
  any_goals
    subst c
    exact .inr ⟨by decide, ⟨_, _, rfl⟩, by decide⟩
  exact .inl ⟨by simp [markupChars, hand, hless, hgreater, hquote, hapostrophe], rfl⟩

/-- What is escaped, or was there before, stands in escaped text. -/
theorem mem_escape {x : Char} (h : x ∈ escape cs) :
    x ∈ cs ∧ x ∉ markupChars ∨ x ∈ escapeLetters := by
  obtain ⟨c, hc, hx⟩ := List.mem_flatMap.1 h
  rcases escapeChar_cases c with ⟨hnot, heq⟩ | ⟨-, -, hletters⟩
  · rw [heq] at hx
    obtain rfl := List.mem_singleton.1 hx
    exact .inl ⟨hc, hnot⟩
  · exact .inr (hletters x hx)

theorem less_not_mem_escape (cs : List Char) : '<' ∉ escape cs := fun h =>
  (mem_escape h).elim (fun h => h.2 (by decide)) (by decide)

theorem quote_not_mem_escape (cs : List Char) : '"' ∉ escape cs := fun h =>
  (mem_escape h).elim (fun h => h.2 (by decide)) (by decide)

theorem escape_ne_null (h : ∀ c ∈ cs, c.toNat ≠ 0) : ∀ c ∈ escape cs, c.toNat ≠ 0 := fun c hc => by
  have hletters : ∀ c ∈ escapeLetters, c.toNat ≠ 0 := by decide
  rcases mem_escape hc with ⟨hmem, -⟩ | hmem
  · exact h c hmem
  · exact hletters c hmem

theorem length_le_escape (cs : List Char) : cs.length ≤ (escape cs).length := by
  induction cs with
  | nil => exact Nat.le_refl _
  | cons c cs ih =>
    obtain ⟨first, rest, heq, -⟩ := escapeChar_eq_cons c
    rw [escape, List.flatMap_cons, heq, List.length_append, List.length_cons, List.length_cons]
    change cs.length ≤ _ at ih
    exact Nat.le_trans (Nat.succ_le_succ ih) (by rw [escape]; omega)

/-- Only text without characters of markup is written as it is. -/
theorem escape_eq_iff : escape cs = cs ↔ ∀ c ∈ cs, c ∉ markupChars := by
  induction cs with
  | nil => simp [escape]
  | cons c cs ih =>
    rw [List.forall_mem_cons, ← ih, escape, List.flatMap_cons]
    rcases escapeChar_cases c with ⟨hnot, heq⟩ | ⟨hmem, ⟨next, more, heq⟩, -⟩
    · rw [heq, List.singleton_append, List.cons_inj_right]
      exact ⟨fun h => ⟨hnot, h⟩, And.right⟩
    · refine iff_of_false (fun h => ?_) fun h => h.1 hmem
      have hlength := congrArg List.length h
      have := length_le_escape cs
      rw [escape] at this
      simp only [heq, List.length_append, List.length_cons] at hlength
      omega

/-- Escaping does not touch line ends. -/
theorem normalizeNewlines_escape_append (h : Ends rest) (cs : List Char) :
    normalizeNewlines (escape cs ++ rest) =
      escape (normalizeNewlines cs) ++ normalizeNewlines rest := by
  fun_induction normalizeNewlines cs with
  | case1 => rfl
  | case2 after ih =>
    change normalizeNewlines ('\r' :: '\n' :: (escape after ++ rest)) = _
    rw [normalizeNewlines, ih]
    rfl
  | case3 after hafter ih =>
    -- what follows the carriage return is no line feed when it is escaped either
    have hnext : ∀ more, escape after ++ rest ≠ '\n' :: more := by
      intro more heq
      cases after with
      | nil =>
        obtain rfl : rest = '\n' :: more := heq
        exact absurd (h _ rfl) (by decide)
      | cons c after =>
        rw [escape, List.flatMap_cons] at heq
        rcases escapeChar_cases c with ⟨-, hc⟩ | ⟨-, ⟨_, _, hc⟩, -⟩
        · rw [hc] at heq
          exact hafter after (congrArg (· :: after) (List.cons.inj heq).1)
        · rw [hc] at heq
          cases heq
    change normalizeNewlines ('\r' :: (escape after ++ rest)) = _
    rw [normalizeNewlines, ih]
    · rfl
    · exact hnext
  | case4 c after hpair hc ih =>
    have hnot : '\r' ∉ escapeChar c := by
      rcases escapeChar_cases c with ⟨-, heq⟩ | ⟨-, -, hletters⟩
      · rw [heq]
        exact fun hmem => hc (List.mem_singleton.1 hmem).symm
      · exact fun hmem => absurd (hletters _ hmem) (by decide)
    rw [escape, List.flatMap_cons, List.append_assoc, normalizeNewlines_append_of_not_mem hnot]
    rw [← escape, ih, escape, escape, List.flatMap_cons, List.append_assoc]

end DataBinding.Markup
