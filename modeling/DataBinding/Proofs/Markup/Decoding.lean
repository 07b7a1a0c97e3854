/-
  What text with character references stands for.

  * `reference?_append`: a reference does not reach into the tag or the quote that
    follows a text;
  * `decode` reads a text, or the value of an attribute, up to its end;
  * `decode_ne_null`: there is no null character in what it stands for;
  * `decode_escape`: escaped text stands for the text.
-/
import DataBinding.Markup.Token
import DataBinding.Proofs.Markup.Spelling

namespace DataBinding.Markup

/-- What holds of every character of a text is decided along the text, not over all the
    characters there are. -/
instance decidableAllChars (p : Char → Prop) [DecidablePred p] (cs : List Char) :
    Decidable (∀ c, c ∈ cs → p c) :=
  List.decidableBAll p cs

variable {cs rest tail found : List Char} {inAttribute : Bool}

/-! ## References and what follows them -/

theorem Ends.cases (h : Ends tail) :
    tail = [] ∨ (∃ rest, tail = '<' :: rest) ∨ ∃ rest, tail = '"' :: rest := by
  cases tail with
  | nil => exact .inl rfl
  | cons c tail => rcases h c rfl with rfl | rfl <;> simp

section

variable {p : Char → Bool}

theorem takeWhile_append_of_ends (hless : p '<' = false) (hquote : p '"' = false) (h : Ends tail)
    (cs : List Char) : (cs ++ tail).takeWhile p = cs.takeWhile p := by
  induction cs with
  | nil =>
    obtain rfl | ⟨_, rfl⟩ | ⟨_, rfl⟩ := h.cases <;> simp [hless, hquote]
  | cons c cs ih => cases hc : p c <;> simp [hc, ih]

theorem dropWhile_append_of_ends (hless : p '<' = false) (hquote : p '"' = false) (h : Ends tail)
    (cs : List Char) : (cs ++ tail).dropWhile p = cs.dropWhile p ++ tail := by
  induction cs with
  | nil =>
    obtain rfl | ⟨_, rfl⟩ | ⟨_, rfl⟩ := h.cases <;> simp [hless, hquote]
  | cons c cs ih => cases hc : p c <;> simp [hc, ih]

end

theorem dropSemicolon_append (h : Ends tail) (cs : List Char) :
    dropSemicolon (cs ++ tail) = dropSemicolon cs ++ tail := by
  cases cs with
  | nil =>
    obtain rfl | ⟨_, rfl⟩ | ⟨_, rfl⟩ := h.cases <;> rfl
  | cons c cs =>
    unfold dropSemicolon
    by_cases hc : c = ';'
    · subst hc
      rfl
    · simp [hc]

/-- A reference with what follows it. -/
def followedBy {α : Type} (tail : List Char) (r : α × List Char) : α × List Char :=
  (r.1, r.2 ++ tail)

theorem decimalReference?_append (h : Ends tail) (cs : List Char) :
    decimalReference? (cs ++ tail) = (decimalReference? cs).map (followedBy tail) := by
  unfold decimalReference?
  rw [takeWhile_append_of_ends rfl rfl h, dropWhile_append_of_ends rfl rfl h,
    dropSemicolon_append h]
  dsimp only
  split <;> rfl

theorem hexReference?_append (h : Ends tail) (cs : List Char) :
    hexReference? (cs ++ tail) = (hexReference? cs).map (followedBy tail) := by
  unfold hexReference?
  rw [takeWhile_append_of_ends rfl rfl h, dropWhile_append_of_ends rfl rfl h,
    dropSemicolon_append h]
  dsimp only
  split <;> rfl

/-- A name without semicolon is one of those there are, and part of the run. -/
theorem bareName?_eq_some {run : List Char} {r : NamedReference} : ∀ {n : Nat},
    bareName? run n = some r → r ∈ namedReferences ∧ r.name.length ≤ run.length
  | 0, h => by cases h
  | n + 1, h => by
    unfold bareName? at h
    split at h
    next r' hfind =>
      obtain rfl := Option.some.inj h
      have hname := List.find?_some hfind
      rw [Bool.and_eq_true, beq_iff_eq] at hname
      refine ⟨List.mem_of_find?_eq_some hfind, ?_⟩
      rw [hname.2]
      exact List.length_take_le' _ _
    next => exact bareName?_eq_some h

/-- The reference of a run of letters and digits, if a semicolon follows. -/
def closedName? (run : List Char) : List Char → Option (List Char × List Char)
  | ';' :: rest => (namedReferences.find? (·.name == run)).map fun r => (r.expansion, rest)
  | _ => none

theorem closedName?_append (h : Ends tail) (run cs : List Char) :
    closedName? run (cs ++ tail) = (closedName? run cs).map (followedBy tail) := by
  rcases cs with _ | ⟨c, cs⟩
  · obtain rfl | ⟨_, rfl⟩ | ⟨_, rfl⟩ := h.cases <;> rfl
  · by_cases hc : c = ';'
    · subst hc
      rw [List.cons_append, closedName?, closedName?, Option.map_map]
      rfl
    · simp [closedName?, hc]

/-- The reference of a name that no semicolon follows. -/
def openName? (inAttribute : Bool) (cs : List Char) : Option (List Char × List Char) :=
  match bareName? (cs.takeWhile Char.isAlphanum) (cs.takeWhile Char.isAlphanum).length with
  | none => none
  | some r =>
    if inAttribute && (cs.drop r.name.length).head?.any fun c => c = '=' || c.isAlphanum then none
    else some (r.expansion, cs.drop r.name.length)

theorem openName?_append (h : Ends tail) (cs : List Char) :
    openName? inAttribute (cs ++ tail) = (openName? inAttribute cs).map (followedBy tail) := by
  unfold openName?
  rw [takeWhile_append_of_ends rfl rfl h]
  cases hbare : bareName? (cs.takeWhile Char.isAlphanum) (cs.takeWhile Char.isAlphanum).length with
  | none => rfl
  | some r =>
    have hlength : r.name.length ≤ cs.length :=
      Nat.le_trans (bareName?_eq_some hbare).2 (List.takeWhile_prefix _).length_le
    dsimp only
    rw [List.drop_append_of_le_length hlength]
    have hhead : ((cs.drop r.name.length ++ tail).head?.any fun c => c = '=' || c.isAlphanum) =
        (cs.drop r.name.length).head?.any fun c => c = '=' || c.isAlphanum := by
      cases cs.drop r.name.length with
      | cons c after => rfl
      | nil =>
        obtain rfl | ⟨_, rfl⟩ | ⟨_, rfl⟩ := h.cases <;> rfl
    rw [hhead]
    split <;> rfl

theorem namedReference?_eq (cs : List Char) : namedReference? inAttribute cs =
    (closedName? (cs.takeWhile Char.isAlphanum) (cs.dropWhile Char.isAlphanum)).or
      (openName? inAttribute cs) := by
  change (match closedName? (cs.takeWhile Char.isAlphanum) (cs.dropWhile Char.isAlphanum) with
    | some found => some found
    | none => openName? inAttribute cs) = _
  cases closedName? (cs.takeWhile Char.isAlphanum) (cs.dropWhile Char.isAlphanum) <;> rfl

theorem namedReference?_append (h : Ends tail) (cs : List Char) :
    namedReference? inAttribute (cs ++ tail) =
      (namedReference? inAttribute cs).map (followedBy tail) := by
  rw [namedReference?_eq, namedReference?_eq, takeWhile_append_of_ends rfl rfl h,
    dropWhile_append_of_ends rfl rfl h, closedName?_append h, openName?_append h, Option.map_or]

theorem reference?_eq_named (h : cs.head? ≠ some '#') :
    reference? inAttribute cs = namedReference? inAttribute cs := by
  unfold reference?
  split <;> first | rfl | exact absurd rfl h

/-- **A reference does not reach** into what follows a text or a value. -/
theorem reference?_append (h : Ends tail) (cs : List Char) :
    reference? inAttribute (cs ++ tail) = (reference? inAttribute cs).map (followedBy tail) := by
  rcases cs with _ | ⟨c, cs⟩
  · have htail : ([] ++ tail).head? ≠ some '#' := by
      obtain rfl | ⟨_, rfl⟩ | ⟨_, rfl⟩ := h.cases <;> simp
    have hnil : ([] : List Char).head? ≠ some '#' := nofun
    rw [reference?_eq_named htail, reference?_eq_named hnil, namedReference?_append h]
  · by_cases hc : c = '#'
    · subst hc
      rcases cs with _ | ⟨c, cs⟩
      · obtain rfl | ⟨_, rfl⟩ | ⟨_, rfl⟩ := h.cases <;> rfl
      · by_cases hx : c = 'x' ∨ c = 'X'
        · rcases hx with rfl | rfl <;>
          · change (hexReference? (cs ++ tail)).map _ = ((hexReference? cs).map _).map _
            rw [hexReference?_append h, Option.map_map, Option.map_map]
            rfl
        · rw [not_or] at hx
          have hdecimal : ∀ cs : List Char, reference? inAttribute ('#' :: c :: cs) =
              (decimalReference? (c :: cs)).map fun r => ([r.1], r.2) := fun cs => by
            simp [reference?, hx.1, hx.2]
          rw [List.cons_append, List.cons_append, hdecimal, hdecimal, ← List.cons_append,
            decimalReference?_append h, Option.map_map, Option.map_map]
          rfl
    · have hhead : ∀ cs : List Char, (c :: cs).head? ≠ some '#' := fun _ => by simpa using hc
      rw [reference?_eq_named (hhead cs), List.cons_append, reference?_eq_named (hhead _),
        ← List.cons_append, namedReference?_append h]

/-! ## What a reference stands for -/

theorem charOfNumber_ne_null (n : Nat) : (charOfNumber n).toNat ≠ 0 := by
  have hofNat : ∀ n, n ≠ 0 → n < 0xD800 ∨ 0xDFFF < n ∧ n ≤ 0x10FFFF → (Char.ofNat n).toNat ≠ 0 := by
    intro n hn hvalid
    have : n.isValidChar := by
      unfold Nat.isValidChar
      omega
    rw [Char.ofNat, dif_pos this]
    exact hn
  unfold charOfNumber
  split
  · decide
  next hnot =>
    have hn : (Char.ofNat n).toNat ≠ 0 := hofNat n (by omega) (by omega)
    split
    · split
      · exact hn
      next m hm hlegacy =>
        have hmem : m ∈ legacyCodePoints := List.mem_of_getElem? hlegacy
        have hall : ∀ m ∈ legacyCodePoints, m ≠ 0 → (Char.ofNat m).toNat ≠ 0 := by decide
        exact hall m hmem fun heq => hm (heq ▸ rfl)
      · exact hn
    · exact hn

/-- No name stands for a null character. -/
theorem expansion_ne_null {r : NamedReference} (h : r ∈ namedReferences) :
    ∀ c ∈ r.expansion, c.toNat ≠ 0 := by
  rcases List.mem_append.1 h with h | h
  · have hall : ∀ r ∈ markupReferences, ∀ c ∈ r.expansion, c.toNat ≠ 0 := by decide
    exact hall r h
  · obtain ⟨entry, -, rfl⟩ := List.mem_map.1 h
    intro c hc
    obtain ⟨digits, -, rfl⟩ := List.mem_map.1 hc
    exact charOfNumber_ne_null _

theorem dropSemicolon_suffix (cs : List Char) : dropSemicolon cs <:+ cs := by
  unfold dropSemicolon
  split
  · exact List.suffix_cons _ _
  · exact List.suffix_refl _

theorem namedReference?_eq_some (h : namedReference? inAttribute cs = some (found, rest)) :
    rest <:+ cs ∧ ∀ c ∈ found, c.toNat ≠ 0 := by
  rw [namedReference?_eq, Option.or_eq_some_iff] at h
  rcases h with h | ⟨-, h⟩
  · unfold closedName? at h
    split at h
    next after hafter =>
      obtain ⟨r, hr, heq⟩ := Option.map_eq_some_iff.1 h
      cases heq
      have hsuffix := List.dropWhile_suffix (l := cs) Char.isAlphanum
      rw [hafter] at hsuffix
      exact ⟨(List.suffix_cons _ _).trans hsuffix, expansion_ne_null (List.mem_of_find?_eq_some hr)⟩
    next => cases h
  · unfold openName? at h
    split at h
    · cases h
    next r hr =>
      split at h
      · cases h
      · cases h
        exact ⟨List.drop_suffix _ _, expansion_ne_null (bareName?_eq_some hr).1⟩

/-- A reference stands for characters that are not null, and leaves what follows. -/
theorem reference?_eq_some (h : reference? inAttribute cs = some (found, rest)) :
    rest <:+ cs ∧ ∀ c ∈ found, c.toNat ≠ 0 := by
  have hnumber : ∀ {n : Nat} {digits : List Char} {p : Char → Bool} {cs : List Char},
      (if digits.isEmpty then none else some (charOfNumber n, dropSemicolon (cs.dropWhile p))).map
        (fun r => ([r.1], r.2)) = some (found, rest) →
      rest <:+ cs ∧ ∀ c ∈ found, c.toNat ≠ 0 := by
    intro n digits p cs h
    split at h
    · cases h
    · cases h
      exact ⟨(dropSemicolon_suffix _).trans (List.dropWhile_suffix _),
        List.forall_mem_singleton.2 (charOfNumber_ne_null n)⟩
  unfold reference? at h
  split at h
  · obtain ⟨hsuffix, hfound⟩ := hnumber h
    exact ⟨(hsuffix.trans (List.suffix_cons _ _)).trans (List.suffix_cons _ _), hfound⟩
  · obtain ⟨hsuffix, hfound⟩ := hnumber h
    exact ⟨(hsuffix.trans (List.suffix_cons _ _)).trans (List.suffix_cons _ _), hfound⟩
  · obtain ⟨hsuffix, hfound⟩ := hnumber h
    exact ⟨hsuffix.trans (List.suffix_cons _ _), hfound⟩
  · exact namedReference?_eq_some h

/-! ## Text with references -/

/-- What a character stands for that begins no reference: a null character is left
    out of a text and replaced in a value. -/
def literalChar (inAttribute : Bool) (c : Char) : List Char :=
  if inAttribute then [withoutNull c] else if c.toNat = 0 then [] else [c]

/-- What a text, or the value of an attribute, stands for. -/
def decode (inAttribute : Bool) : List Char → List Char
  | [] => []
  | c :: rest =>
    if c = '&' then
      match _h : reference? inAttribute rest with
      | some (found, after) => found ++ decode inAttribute after
      | none => '&' :: decode inAttribute rest
    else literalChar inAttribute c ++ decode inAttribute rest
termination_by cs => cs.length
decreasing_by
  · exact Nat.lt_succ_of_le (reference?_eq_some _h).1.length_le
  · exact Nat.lt_succ_self _
  · exact Nat.lt_succ_self _

@[simp] theorem decode_nil : decode inAttribute [] = [] := by rw [decode]

theorem decode_literal {c : Char} (hc : c ≠ '&') :
    decode inAttribute (c :: cs) = literalChar inAttribute c ++ decode inAttribute cs := by
  rw [decode, if_neg hc]

theorem decode_reference (h : reference? inAttribute cs = some (found, rest)) :
    decode inAttribute ('&' :: cs) = found ++ decode inAttribute rest := by
  rw [decode, if_pos rfl]
  split
  next heq =>
    rw [h] at heq
    cases heq
    rfl
  next heq =>
    rw [h] at heq
    cases heq

theorem withoutNull_ne_null (c : Char) : (withoutNull c).toNat ≠ 0 := by
  unfold withoutNull
  split
  · decide
  · assumption

theorem withoutNull_of_ne_null {c : Char} (hc : c.toNat ≠ 0) : withoutNull c = c := if_neg hc

theorem literalChar_of_ne_null {c : Char} (hc : c.toNat ≠ 0) : literalChar inAttribute c = [c] := by
  rw [literalChar, withoutNull_of_ne_null hc, if_neg hc, ite_self]

/-- There is no null character in what a text or a value stands for. -/
theorem decode_ne_null : ∀ c ∈ decode inAttribute cs, c.toNat ≠ 0 := by
  fun_induction decode inAttribute cs with
  | case1 => nofun
  | case2 rest found after h ih =>
    exact List.forall_mem_append.2 ⟨(reference?_eq_some h).2, ih⟩
  | case3 rest h ih => exact List.forall_mem_cons.2 ⟨by decide, ih⟩
  | case4 c rest hc ih =>
    refine List.forall_mem_append.2 ⟨?_, ih⟩
    unfold literalChar
    split_ifs with hvalue hnull
    · exact List.forall_mem_singleton.2 (withoutNull_ne_null c)
    · nofun
    · exact List.forall_mem_singleton.2 hnull

/-! ## Escaped text -/

/-- The names that escaped text is written with are known. -/
theorem reference?_of_find (name : List Char) {r : NamedReference}
    (hname : ∀ c ∈ name, c.isAlphanum = true)
    (hfind : markupReferences.find? (·.name == name) = some r) (rest : List Char) :
    reference? inAttribute (name ++ ';' :: rest) = some (r.expansion, rest) := by
  have hhead : (name ++ ';' :: rest).head? ≠ some '#' := by
    cases name with
    | nil => exact fun h => absurd (Option.some.inj h) (by decide)
    | cons c name =>
      rintro ⟨⟩
      exact absurd (hname '#' List.mem_cons_self) (by decide)
  have hclosed : closedName? name (';' :: rest) = some (r.expansion, rest) := by
    rw [closedName?, namedReferences, List.find?_append, hfind]
    rfl
  rw [reference?_eq_named hhead, namedReference?_eq, List.takeWhile_append_of_pos hname,
    List.dropWhile_append_of_pos hname, List.takeWhile_cons_of_neg (by decide), List.append_nil,
    List.dropWhile_cons_of_neg (by decide), hclosed]
  rfl

theorem decode_escapeChar {c : Char} (hc : c.toNat ≠ 0) (rest : List Char) :
    decode inAttribute (escapeChar c ++ rest) = c :: decode inAttribute rest := by
  unfold escapeChar
  split_ifs with hand hless hgreater hquote hapostrophe
  · rw [hand]
    exact decode_reference (reference?_of_find ['a', 'm', 'p'] (by decide) rfl rest)
  · rw [hless]
    exact decode_reference (reference?_of_find ['l', 't'] (by decide) rfl rest)
  · rw [hgreater]
    exact decode_reference (reference?_of_find ['g', 't'] (by decide) rfl rest)
  · rw [hquote]
    exact decode_reference (reference?_of_find ['q', 'u', 'o', 't'] (by decide) rfl rest)
  · have hnumber : reference? inAttribute ('#' :: 'x' :: '2' :: '7' :: ';' :: rest) =
        some (['\x27'], rest) := rfl
    rw [hapostrophe]
    exact decode_reference hnumber
  · rw [List.singleton_append, decode_literal hand, literalChar_of_ne_null hc]
    rfl

/-- **Escaped text stands for the text.** -/
theorem decode_escape (h : ∀ c ∈ cs, c.toNat ≠ 0) : decode inAttribute (escape cs) = cs := by
  induction cs with
  | nil => exact decode_nil
  | cons c cs ih =>
    obtain ⟨hc, hcs⟩ := List.forall_mem_cons.1 h
    rw [escape, List.flatMap_cons, decode_escapeChar hc]
    exact congrArg _ (ih hcs)

end DataBinding.Markup
