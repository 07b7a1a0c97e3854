/-
  Texts split into literals and placeholders.

  A placeholder is matched at a position of a text if an inside of at least one
  character, all of it on one line, stands there between double braces; what is read is
  the shortest (`Template.Shortest`), at the first position where one is matched
  (`Template.Splits`).

  * `opening?_eq_some`, `opening?_eq_none`: what the scanner reads at a position;
  * `Splits.scan`: the scanner finds the parts of a text, and `exists_splits`: every text
    has some, and only these (`Splits.unique`);
  * `fillPieces_parts`, `fillPieces_unresolved`: filling in a text that is split, and
    `splits_and_fills` for all that is read off the parts.
-/
import DataBinding.Proofs.Reactive.Watching

namespace DataBinding

namespace Template

/-! ## Matches -/

/-- A text is an inside, of at least one character and on one line, with two closing
    braces and more text after it. -/
structure Closes (text inner rest : List Char) : Prop where
  /-- The parts of the text. -/
  text_eq : text = inner ++ '\x7d' :: '\x7d' :: rest
  /-- The inside is not empty. -/
  nonempty : inner ≠ []
  /-- It is on one line. -/
  line : '\n' ∉ inner

/-- A placeholder can be read at the beginning of a text. -/
def Match (text inner rest : List Char) : Prop :=
  ∃ body, text = '\x7b' :: '\x7b' :: body ∧ Closes body inner rest

/-- The shortest placeholder that can be read at the beginning of a text. -/
def Shortest (text inner rest : List Char) : Prop :=
  Match text inner rest ∧ ∀ other rest', Match text other rest' → inner.length ≤ other.length

/-- No placeholder can be read at the beginning of a text. -/
def Unmatched (text : List Char) : Prop :=
  ∀ inner rest, ¬ Match text inner rest

theorem not_closes_nil {inner rest : List Char} : ¬ Closes [] inner rest := by
  rintro ⟨htext, -, -⟩
  simp at htext

/-- An inside begins with a character that does not end it. -/
theorem closes_cons_iff {c : Char} {text inner rest : List Char} (hline : c ≠ '\n')
    (hopen : text.take 2 ≠ ['\x7d', '\x7d']) :
    Closes (c :: text) inner rest ↔ ∃ tail, inner = c :: tail ∧ Closes text tail rest := by
  constructor
  · rintro ⟨htext, hne, hinner⟩
    obtain ⟨d, tail, rfl⟩ := List.exists_cons_of_ne_nil hne
    obtain ⟨rfl, rfl⟩ := List.cons.inj htext
    refine ⟨tail, rfl, rfl, ?_, fun h => hinner (List.mem_cons_of_mem c h)⟩
    rintro rfl
    exact hopen rfl
  · rintro ⟨tail, rfl, rfl, hne, hinner⟩
    refine ⟨rfl, List.cons_ne_nil c tail, ?_⟩
    simp [hinner, Ne.symm hline]

theorem inside?_eq_none {text : List Char} :
    inside? text = none → ∀ inner rest, ¬ Closes text inner rest := by
  fun_induction inside? text with
  | case1 => exact fun _ _ _ => not_closes_nil
  | case2 rest =>
    rintro - inner rest' ⟨htext, hne, hline⟩
    obtain ⟨d, tail, rfl⟩ := List.exists_cons_of_ne_nil hne
    obtain ⟨rfl, -⟩ := List.cons.inj htext
    exact hline List.mem_cons_self
  | case3 c rest hline hclose => nofun
  | case4 c rest hline hclose ih =>
    intro hnone inner rest' h
    obtain ⟨tail, -, htail⟩ := (closes_cons_iff hline hclose).1 h
    exact ih (Option.map_eq_none_iff.1 hnone) tail rest' htail

theorem inside?_eq_some {text inner : List Char} (h : inside? text = some inner) :
    (∃ rest, Closes text inner rest) ∧
      ∀ other rest, Closes text other rest → inner.length ≤ other.length := by
  fun_induction inside? text generalizing inner with
  | case1 => cases h
  | case2 => cases h
  | case3 c rest hline hclose =>
    cases h
    refine ⟨⟨rest.drop 2, ?_, List.cons_ne_nil c [], ?_⟩, fun other _ hother => ?_⟩
    · have hsplit := List.take_append_drop 2 rest
      rw [hclose] at hsplit
      exact congrArg (c :: ·) hsplit.symm
    · simpa using Ne.symm hline
    · exact List.length_pos_iff.2 hother.nonempty
  | case4 c rest hline hclose ih =>
    obtain ⟨tail, htail, rfl⟩ := Option.map_eq_some_iff.1 h
    obtain ⟨⟨rest', hcloses⟩, hleast⟩ := ih htail
    refine ⟨⟨rest', (closes_cons_iff hline hclose).2 ⟨tail, rfl, hcloses⟩⟩, ?_⟩
    intro other rest'' hother
    obtain ⟨tail', rfl, htail'⟩ := (closes_cons_iff hline hclose).1 hother
    exact Nat.succ_le_succ (hleast tail' rest'' htail')

theorem opening?_eq_none {text : List Char} (h : opening? text = none) : Unmatched text := by
  rintro inner rest ⟨body, rfl, hcloses⟩
  rw [opening?, if_pos ⟨rfl, rfl⟩] at h
  exact inside?_eq_none h inner rest hcloses

theorem opening?_eq_some {text inner : List Char} (h : opening? text = some inner) :
    ∃ rest, Shortest text inner rest := by
  match text, h with
  | a :: b :: body, h =>
    rw [opening?] at h
    split at h
    next hbraces =>
      obtain ⟨rfl, rfl⟩ := hbraces
      obtain ⟨⟨rest, hcloses⟩, hleast⟩ := inside?_eq_some h
      refine ⟨rest, ⟨body, rfl, hcloses⟩, ?_⟩
      rintro other rest' ⟨body', htext, hother⟩
      cases htext
      exact hleast other rest' hother
    next => cases h

theorem Unmatched.opening? {text : List Char} (h : Unmatched text) : opening? text = none := by
  cases hopening : Template.opening? text with
  | none => rfl
  | some inner =>
    obtain ⟨rest, hmatch, -⟩ := opening?_eq_some hopening
    exact absurd hmatch (h inner rest)

/-- Two insides of the same length are the same. -/
theorem Shortest.unique {text inner inner' rest rest' : List Char} (h : Shortest text inner rest)
    (h' : Shortest text inner' rest') : inner = inner' ∧ rest = rest' := by
  obtain ⟨⟨body, rfl, hcloses⟩, hleast⟩ := h
  obtain ⟨⟨body', htext, hcloses'⟩, hleast'⟩ := h'
  cases htext
  have hlength : inner.length = inner'.length :=
    Nat.le_antisymm (hleast inner' rest' ⟨body, rfl, hcloses'⟩)
      (hleast' inner rest ⟨body, rfl, hcloses⟩)
  obtain ⟨rfl, htail⟩ := List.append_inj (hcloses.text_eq.symm.trans hcloses'.text_eq) hlength
  exact ⟨rfl, (List.cons.inj (List.cons.inj htail).2).2⟩

theorem Shortest.opening? {text inner rest : List Char} (h : Shortest text inner rest) :
    opening? text = some inner := by
  cases hopening : Template.opening? text with
  | none => exact absurd h.1 (opening?_eq_none hopening inner rest)
  | some inner' =>
    obtain ⟨rest', h'⟩ := opening?_eq_some hopening
    rw [(h.unique h').1]

/-! ## Parts -/

/-- A text is split into placeholders, each with the literal before it, and the literal
    at the end: a literal ends where the first placeholder can be read, and of those that
    can be read there the shortest is taken. -/
inductive Splits : List Char → List (List Char × List Char) → List Char → Prop
  /-- No placeholder can be read anywhere. -/
  | last {last : List Char} (h : ∀ front back, last = front ++ back → Unmatched back) :
    Splits last [] last
  /-- A literal, a placeholder and the parts of what follows. -/
  | next {literal text inner rest : List Char} {parts : List (List Char × List Char)}
    {last : List Char}
    (hfirst : ∀ front back, literal = front ++ back → back ≠ [] → Unmatched (back ++ text))
    (hshortest : Shortest text inner rest) (hrest : Splits rest parts last) :
    Splits (literal ++ text) ((literal, inner) :: parts) last

/-- The text that has the parts. -/
def joined (parts : List (List Char × List Char)) (last : List Char) : List Char :=
  (parts.flatMap fun part => part.1 ++ '\x7b' :: '\x7b' :: part.2 ++ ['\x7d', '\x7d']) ++ last

/-- The pieces that the parts consist of. -/
def piecesOf (parts : List (List Char × List Char)) (last : List Char) : List Piece :=
  (parts.flatMap fun part => part.1.map Piece.literal ++ [.placeholder part.2]) ++
    last.map Piece.literal

/-- The parts that consist of pieces. -/
def partsOf : List Piece → List (List Char × List Char) × List Char
  | [] => ([], [])
  | .literal c :: rest =>
    match partsOf rest with
    | ([], last) => ([], c :: last)
    | ((literal, inner) :: parts, last) => ((c :: literal, inner) :: parts, last)
  | .placeholder inner :: rest => (([], inner) :: (partsOf rest).1, (partsOf rest).2)

section

variable {text last literal : List Char} {parts : List (List Char × List Char)}

theorem partsOf_literal : ∀ last : List Char, partsOf (last.map .literal) = ([], last)
  | [] => rfl
  | c :: last => by rw [List.map_cons, partsOf, partsOf_literal last]

theorem partsOf_placeholder (inner : List Char) (rest : List Piece) : ∀ literal : List Char,
    partsOf (literal.map .literal ++ .placeholder inner :: rest) =
      ((literal, inner) :: (partsOf rest).1, (partsOf rest).2)
  | [] => rfl
  | c :: literal => by
    rw [List.map_cons, List.cons_append, partsOf, partsOf_placeholder inner rest literal]

theorem piecesOf_cons (literal inner : List Char) :
    piecesOf ((literal, inner) :: parts) last =
      literal.map .literal ++ .placeholder inner :: piecesOf parts last := by
  simp [piecesOf]

theorem partsOf_piecesOf (parts : List (List Char × List Char)) :
    partsOf (piecesOf parts last) = (parts, last) := by
  induction parts with
  | nil => exact partsOf_literal last
  | cons part parts ih =>
    obtain ⟨literal, inner⟩ := part
    rw [piecesOf_cons, partsOf_placeholder, ih]

theorem filterMap_piecesOf (parts : List (List Char × List Char)) :
    (piecesOf parts last).filterMap Piece.expression? =
      parts.map fun part => Text.trim (String.ofList part.2) := by
  have hliteral (literal : List Char) :
      (literal.map Piece.literal).filterMap Piece.expression? = [] := by
    simp [List.filterMap_map, Function.comp_def, Piece.expression?]
  induction parts with
  | nil => exact hliteral last
  | cons part parts ih =>
    obtain ⟨literal, inner⟩ := part
    rw [piecesOf_cons, List.filterMap_append, hliteral, List.nil_append, List.filterMap_cons, ih,
      List.map_cons, Text.trim, String.toList_ofList]
    rfl

end

/-- A text has no placeholder if no expression is listed for it. -/
theorem placeholders_eq_nil {text : String} :
    placeholders text = [] ↔ hasPlaceholder text = false := by
  rw [placeholders, List.filterMap_eq_nil_iff, hasPlaceholder, List.any_eq_false]
  simp only [Bool.not_eq_true, Option.isSome_eq_false_iff, Option.isNone_iff_eq_none]

/-! ## Splitting and scanning -/

section

variable {text last literal : List Char} {parts : List (List Char × List Char)}

/-- What is left of a text after some characters is scanned by itself. -/
theorem scan_eq_drop (skip : Nat) : ∀ text : List Char, scan skip text = scan 0 (text.drop skip) := by
  induction skip with
  | zero => exact fun _ => rfl
  | succ skip ih =>
    intro text
    cases text with
    | nil => rfl
    | cons c rest => exact ih rest

/-- A literal is scanned as it is if no placeholder can be read in it. -/
theorem scan_literal (text : List Char) : ∀ literal : List Char,
    (∀ front back, literal = front ++ back → back ≠ [] → Unmatched (back ++ text)) →
      scan 0 (literal ++ text) = literal.map .literal ++ scan 0 text
  | [], _ => rfl
  | c :: literal, h => by
    have hhere : opening? (c :: (literal ++ text)) = none :=
      (h [] (c :: literal) rfl (List.cons_ne_nil c literal)).opening?
    have hrest := scan_literal text literal fun front back heq =>
      h (c :: front) back (congrArg (c :: ·) heq)
    rw [List.cons_append, scan, hhere]
    dsimp only
    rw [hrest]
    rfl

theorem Shortest.scan {inner rest : List Char} (h : Shortest text inner rest) :
    scan 0 text = .placeholder inner :: scan 0 rest := by
  have hopening := h.opening?
  obtain ⟨⟨body, rfl, htext, -, -⟩, -⟩ := h
  rw [Template.scan, hopening]
  dsimp only
  -- the first brace is consumed already
  have hdrop : ('\x7b' :: body).drop (inner.length + 3) = rest := by
    rw [htext, List.drop_succ_cons, ← List.drop_drop, List.drop_left]
    rfl
  rw [scan_eq_drop, hdrop]

/-- The scanner finds the parts of a text. -/
theorem Splits.scan (h : Splits text parts last) : scan 0 text = piecesOf parts last := by
  induction h with
  | @last last h =>
    have hliteral := scan_literal [] last fun front back heq _ => by
      rw [List.append_nil]
      exact h front back heq
    rw [List.append_nil] at hliteral
    rw [hliteral]
    exact List.append_nil _
  | next hfirst hshortest _ ih =>
    rw [scan_literal _ _ hfirst, hshortest.scan, ih, piecesOf_cons]

/-- A text has one way of being split at most. -/
theorem Splits.unique {parts' : List (List Char × List Char)} {last' : List Char}
    (h : Splits text parts last) (h' : Splits text parts' last') :
    parts' = parts ∧ last' = last := by
  have hparts : partsOf (piecesOf parts' last') = partsOf (piecesOf parts last) := by
    rw [← h.scan, ← h'.scan]
  rw [partsOf_piecesOf, partsOf_piecesOf] at hparts
  exact Prod.mk.inj hparts

theorem Splits.joined (h : Splits text parts last) : joined parts last = text := by
  induction h with
  | last _ => rfl
  | next _ hshortest _ ih =>
    obtain ⟨⟨body, rfl, htext, -, -⟩, -⟩ := hshortest
    rw [htext, ← ih]
    simp [Template.joined]

/-- One more character, at which no placeholder can be read. -/
theorem Splits.cons {c : Char} (hc : Unmatched (c :: text)) (h : Splits text parts last) :
    ∃ parts' last', Splits (c :: text) parts' last' := by
  cases h with
  | last h =>
    refine ⟨[], c :: text, .last fun front back heq => ?_⟩
    rcases List.append_eq_cons_iff.1 heq.symm with ⟨-, rfl⟩ | ⟨front', -, htext⟩
    · exact hc
    · exact h front' back htext
  | @next literal text inner rest parts last hfirst hshortest hrest =>
    have hnext : Splits (c :: literal ++ text) ((c :: literal, inner) :: parts) last := by
      refine .next (fun front back heq hback => ?_) hshortest hrest
      rcases List.append_eq_cons_iff.1 heq.symm with ⟨-, rfl⟩ | ⟨front', -, hliteral⟩
      · exact hc
      · exact hfirst front' back hliteral hback
    exact ⟨_, _, hnext⟩

/-- The expressions are the insides without the blanks around them. -/
theorem Splits.placeholders {text : String} (h : Splits text.toList parts last) :
    placeholders text = parts.map fun part => Text.trim (String.ofList part.2) := by
  rw [Template.placeholders, pieces, h.scan, filterMap_piecesOf]

/-- Every text can be split. -/
theorem exists_splits (text : List Char) : ∃ parts last, Splits text parts last := by
  cases text with
  | nil =>
    refine ⟨[], [], .last fun front back heq inner rest => ?_⟩
    obtain ⟨-, rfl⟩ := List.append_eq_nil_iff.1 heq.symm
    rintro ⟨body, hbody, -⟩
    cases hbody
  | cons c text =>
    cases hopening : opening? (c :: text) with
    | none =>
      obtain ⟨parts, last, h⟩ := exists_splits text
      exact h.cons (opening?_eq_none hopening)
    | some inner =>
      obtain ⟨rest, hshortest⟩ := opening?_eq_some hopening
      have hlength : rest.length ≤ text.length := by
        obtain ⟨⟨body, htext, hcloses⟩, -⟩ := hshortest
        rw [(List.cons.inj htext).2, hcloses.text_eq]
        simp
        omega
      obtain ⟨parts, last, h⟩ := exists_splits rest
      have hnext : Splits ([] ++ c :: text) (([], inner) :: parts) last := by
        refine .next (fun front back heq hback => ?_) hshortest h
        exact absurd (List.append_eq_nil_iff.1 heq.symm).2 hback
      exact ⟨_, _, hnext⟩
termination_by text.length

end

end Template

/-! ## Filling in the parts -/

namespace Store

variable {R : Type} {s : Store R} {root : MappingId}

/-- Filling in depends on what the expressions come to only. -/
theorem fillPieces_congr (pieces : List Template.Piece) : ∀ {s s' : Store R},
    (∀ expression, s'.resolve root expression = s.resolve root expression) →
      (s'.fillPieces root pieces).1 = (s.fillPieces root pieces).1 := by
  induction pieces with
  | nil => exact fun _ => rfl
  | cons piece rest ih =>
    intro s s' h
    cases piece with
    | literal c =>
      rw [fillPieces, fillPieces]
      exact congrArg (Except.map (c :: ·)) (ih h)
    | placeholder inner =>
      rw [fillPieces, fillPieces, evaluate_eq, evaluate_eq, h]
      cases (s.resolve root (String.ofList inner)).2 with
      | error e => rfl
      | ok v =>
        refine congrArg (Except.map (v.display.toList ++ ·)) (ih fun expression => ?_)
        rw [resolve_trackAll, resolve_trackAll, h]

theorem fillPieces_literals (literal : List Char) (rest : List Template.Piece) :
    (s.fillPieces root (literal.map .literal ++ rest)).1 =
      (s.fillPieces root rest).1.map (literal ++ ·) := by
  induction literal with
  | nil =>
    cases h : (s.fillPieces root rest).1 with
    | error e => exact h
    | ok cs => exact h
  | cons c literal ih =>
    rw [List.map_cons, List.cons_append, fillPieces]
    dsimp only
    rw [ih]
    cases (s.fillPieces root rest).1 <;> rfl

theorem fillPieces_placeholder_of_ok {inner : List Char} {v : Value} (rest : List Template.Piece)
    (h : (s.resolve root (String.ofList inner)).2 = .ok v) :
    (s.fillPieces root (.placeholder inner :: rest)).1 =
      (s.fillPieces root rest).1.map (v.display.toList ++ ·) := by
  rw [fillPieces, evaluate_eq, h]
  exact congrArg (Except.map (v.display.toList ++ ·))
    (fillPieces_congr rest (s.resolve_trackAll _ root))

theorem fillPieces_placeholder_of_error {inner : List Char} {e : PathError}
    (rest : List Template.Piece) (h : (s.resolve root (String.ofList inner)).2 = .error e) :
    (s.fillPieces root (.placeholder inner :: rest)).1 = .error e := by
  rw [fillPieces, evaluate_eq, h]

section

variable {parts done rest : List (List Char × List Char)} {last : List Char}

/-- Where every expression has a value, its display is put in its place. -/
theorem fillPieces_parts {value : List Char → Value} :
    (∀ part ∈ parts, (s.resolve root (String.ofList part.2)).2 = .ok (value part.2)) →
      (s.fillPieces root (Template.piecesOf parts last)).1 =
        .ok ((parts.flatMap fun part => part.1 ++ (value part.2).display.toList) ++ last) := by
  induction parts with
  | nil =>
    intro _
    have hlast := @fillPieces_literals R s root last []
    rw [List.append_nil] at hlast
    refine hlast.trans ?_
    simp [fillPieces, Except.map]
  | cons part parts ih =>
    intro h
    obtain ⟨literal, inner⟩ := part
    have hinner := h (literal, inner) List.mem_cons_self
    rw [Template.piecesOf_cons, fillPieces_literals, fillPieces_placeholder_of_ok _ hinner,
      ih fun part hpart => h part (List.mem_cons_of_mem _ hpart)]
    simp [Except.map]

/-- Where an expression has no value, and those before it have, this is the error. -/
theorem fillPieces_unresolved {literal inner : List Char} {e : PathError}
    (hdone : ∀ part ∈ done, ∃ v, (s.resolve root (String.ofList part.2)).2 = .ok v)
    (h : (s.resolve root (String.ofList inner)).2 = .error e) :
    (s.fillPieces root (Template.piecesOf (done ++ (literal, inner) :: rest) last)).1 =
      .error e := by
  induction done with
  | nil =>
    rw [List.nil_append, Template.piecesOf_cons, fillPieces_literals,
      fillPieces_placeholder_of_error _ h]
    rfl
  | cons part done ih =>
    obtain ⟨literal', inner'⟩ := part
    obtain ⟨v, hv⟩ := hdone (literal', inner') List.mem_cons_self
    rw [List.cons_append, Template.piecesOf_cons, fillPieces_literals,
      fillPieces_placeholder_of_ok _ hv,
      ih fun part hpart => hdone part (List.mem_cons_of_mem _ hpart)]
    rfl

end

/-- A text without placeholders is filled in as it is. -/
theorem fill_of_literal (s : Store R) (root : MappingId) {text : String}
    (h : Template.hasPlaceholder text = false) : (s.fill root text).1 = .ok text := by
  obtain ⟨parts, last, hsplits⟩ := Template.exists_splits text.toList
  obtain rfl : parts = [] := by
    have hnone := Template.placeholders_eq_nil.2 h
    rwa [hsplits.placeholders, List.map_eq_nil_iff] at hnone
  obtain rfl : last = text.toList := hsplits.joined
  have hfilled := @fillPieces_parts R s root [] text.toList (fun _ => .null) nofun
  unfold fill Template.pieces
  dsimp only
  rw [hsplits.scan, hfilled]
  exact congrArg Except.ok (String.ofList_toList)

end Store

/-- What is answered for a text is what its pieces are filled in with. -/
theorem Effect.content_fst {R σ : Type} (u : World R σ) (root : MappingId) (text : String) :
    (Effect.content root text u).1 =
      ((u.store.fillPieces root (Template.pieces text)).1.map String.ofList).mapError fun e =>
        .fault (.path e) := by
  rw [content, reading_apply]
  rfl

namespace Template

/-- **Scanning a text and filling it in agree on the one way in which it is split** at the
    leftmost and shortest placeholders: there is a placeholder if there are parts, the
    expressions are the insides without the blanks around them, and, whatever the data are
    and whoever collects, the text is filled in as the literals with the displays of the
    values between them, or fails with the error of the first expression that has no
    value. -/
theorem splits_and_fills (text : String) :
    ∃ parts last, Splits text.toList parts last ∧
      (∀ parts' last', Splits text.toList parts' last' → parts' = parts ∧ last' = last) ∧
      joined parts last = text.toList ∧
      (hasPlaceholder text = true ↔ 0 < parts.length) ∧
      placeholders text = parts.map (fun part => Text.trim (String.ofList part.2)) ∧
      ∀ (R σ : Type) (u : World R σ) (root : MappingId),
        (∀ value : List Char → Value,
          (∀ part ∈ parts,
            (Effect.getPath root (String.ofList part.2) u).1 = .ok (value part.2)) →
          (Effect.content root text u).1 = .ok (String.ofList
            ((parts.flatMap fun part => part.1 ++ (value part.2).display.toList) ++ last))) ∧
        ∀ done literal inner rest stop, parts = done ++ (literal, inner) :: rest →
          (∀ part ∈ done, ∃ v, (Effect.getPath root (String.ofList part.2) u).1 = .ok v) →
          (Effect.getPath root (String.ofList inner) u).1 = .error stop →
          (Effect.content root text u).1 = .error stop := by
  obtain ⟨parts, last, h⟩ := exists_splits text.toList
  have hpieces : pieces text = piecesOf parts last := h.scan
  refine ⟨parts, last, h, fun _ _ h' => h.unique h', h.joined, ?_, h.placeholders, ?_⟩
  · have hnone := @placeholders_eq_nil text
    rw [h.placeholders, List.map_eq_nil_iff] at hnone
    rw [List.length_pos_iff, ne_eq, hnone, Bool.not_eq_false]
  · intro R σ u root
    refine ⟨fun value hvalue => ?_, fun done literal inner rest stop hparts hdone hinner => ?_⟩
    · have hfilled := @Store.fillPieces_parts R u.store root parts last value fun part hpart =>
        Effect.getPath_eq_ok_iff.1 (hvalue part hpart)
      rw [Effect.content_fst, hpieces, hfilled]
      rfl
    · have hresolved : ∀ part ∈ done,
          ∃ v, (u.store.resolve root (String.ofList part.2)).2 = .ok v := by
        intro part hpart
        obtain ⟨v, hv⟩ := hdone part hpart
        exact ⟨v, Effect.getPath_eq_ok_iff.1 hv⟩
      rw [Effect.getPath_apply] at hinner
      rw [Effect.content_fst, hpieces, hparts]
      cases hresolve : (u.store.resolve root (String.ofList inner)).2 with
      | ok v =>
        rw [hresolve] at hinner
        cases hinner
      | error e =>
        rw [hresolve] at hinner
        cases hinner
        rw [Store.fillPieces_unresolved hresolved hresolve]
        rfl

/-- Braces that belong to no placeholder are left where they are. -/
example : partsOf (pieces "\x7b\x7b\x7ba\x7d\x7d\x7d \x7b\x7b\n\x7b\x7bb\x7d\x7d\x7b\x7b\x7d\x7d") =
    ([([], ['\x7b', 'a']), (['\x7d', ' ', '\x7b', '\x7b', '\n'], ['b'])],
      ['\x7b', '\x7b', '\x7d', '\x7d']) := by
  decide +kernel

end Template

end DataBinding
