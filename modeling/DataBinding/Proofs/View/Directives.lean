/-
  The grammar of directive names.

  What follows `v-` has parts: a name, and what follows its first colon, if there is one
  (`Directive.Splits`).  `Directive.Stands` says what an attribute name stands for, with
  one rule for each outcome: no directive, a directive without an argument or with one,
  an argument that is missing, and a name that no directive has.

  * `exists_splits` and `Splits.unique`: every text has parts, and only these;
  * `stands_parse` and `Stands.parse_eq`: `parse` answers by the rules, and no two rules
    answer differently;
  * `parse_display`: what is written for a directive with an argument that is not empty
    is read back, whatever colons there are in the argument.
-/
import DataBinding.Proofs.View.Template

namespace DataBinding

namespace Directive

/-! ## The parts -/

/-- The parts of what follows `v-`: a name without a colon, and the argument. -/
inductive Splits : String → String → Option String → Prop where
  /-- There is no colon, and so no argument. -/
  | bare {name : String} (hname : ':' ∉ name.toList) : Splits name name none
  /-- The argument is all that follows the first colon, further colons included. -/
  | colon {name : String} (hname : ':' ∉ name.toList) (argument : String) :
    Splits (name ++ ":" ++ argument) name (some argument)

section

variable {body name name' : String} {argument? argument?' : Option String}

/-- The text is its parts. -/
theorem Splits.append_eq (h : Splits body name argument?) :
    body = name ++ argument?.elim "" (":" ++ ·) := by
  cases h with
  | bare => exact String.append_empty.symm
  | colon => exact String.append_assoc

/-- The parts are what `parse` takes the text apart into. -/
theorem Splits.takeWhile_eq (h : Splits body name argument?) :
    body.toList.takeWhile (· ≠ ':') = name.toList ∧
      (body.toList.dropWhile (· ≠ ':')).drop 1 = (argument?.getD "").toList := by
  have hne (s : List Char) (hs : ':' ∉ s) : ∀ c ∈ s, decide (c ≠ ':') = true := fun c hc =>
    decide_eq_true fun heq => hs (heq ▸ hc)
  cases h with
  | bare hname =>
    rw [List.takeWhile_eq_self_iff.2 (hne _ hname), List.dropWhile_eq_nil_iff.2 (hne _ hname)]
    exact ⟨rfl, rfl⟩
  | colon hname argument =>
    have hbody : (name ++ ":" ++ argument).toList = name.toList ++ ':' :: argument.toList := by
      simp
    rw [hbody, List.takeWhile_append_of_pos (hne _ hname),
      List.dropWhile_append_of_pos (hne _ hname)]
    simp

/-- Every text has parts. -/
theorem exists_splits (body : String) : ∃ name argument?, Splits body name argument? := by
  by_cases hcolon : ':' ∈ body.toList
  · obtain ⟨s, rest, hbody, hs⟩ := List.eq_append_cons_of_mem hcolon
    refine ⟨String.ofList s, some (String.ofList rest), ?_⟩
    have heq : body = String.ofList s ++ ":" ++ String.ofList rest := by
      rw [← String.toList_inj, hbody]
      simp
    rw [heq]
    exact .colon (by rwa [String.toList_ofList]) _
  · exact ⟨body, none, .bare hcolon⟩

/-- A text has no other parts. -/
theorem Splits.unique (h : Splits body name argument?) (h' : Splits body name' argument?') :
    name' = name ∧ argument?' = argument? := by
  obtain rfl : name' = name :=
    String.toList_inj.1 (h'.takeWhile_eq.1.symm.trans h.takeWhile_eq.1)
  have hrest := (String.append_right_inj _).1 (h'.append_eq.symm.trans h.append_eq)
  match argument?, argument?' with
  | none, none => exact ⟨rfl, rfl⟩
  | none, some x => simp at hrest
  | some x, none => simp at hrest
  | some x, some x' =>
    rw [(String.append_right_inj _).1 hrest]
    exact ⟨rfl, rfl⟩

end

/-! ## The outcomes -/

/-- What an attribute name stands for. -/
inductive Stands : String → Except DirectiveError (Option Directive) → Prop where
  /-- No directive: the name does not begin with `v-`. -/
  | unmarked {name : String} (h : ¬ Marked name) : Stands name (.ok none)
  /-- The text; an argument is not looked at. -/
  | text {body : String} {argument? : Option String} (h : Splits body "text" argument?) :
    Stands ("v-" ++ body) (.ok (some text))
  /-- The markup. -/
  | html {body : String} {argument? : Option String} (h : Splits body "html" argument?) :
    Stands ("v-" ++ body) (.ok (some html))
  /-- The value. -/
  | model {body : String} {argument? : Option String} (h : Splits body "model" argument?) :
    Stands ("v-" ++ body) (.ok (some model))
  /-- The attribute that the argument names. -/
  | bind {body x : String} (h : Splits body "bind" (some x)) (hx : x ≠ "") :
    Stands ("v-" ++ body) (.ok (some (bind x)))
  /-- The event that the argument names. -/
  | on {body x : String} (h : Splits body "on" (some x)) (hx : x ≠ "") :
    Stands ("v-" ++ body) (.ok (some (on x)))
  /-- The directive takes an argument, and there is none or an empty one. -/
  | missing {body name : String} {argument? : Option String} (h : Splits body name argument?)
    (hname : name = "bind" ∨ name = "on") (hargument : argument? = none ∨ argument? = some "") :
    Stands ("v-" ++ body) (.error (.missingArgument name))
  /-- No directive has the name; the refusal tells all that follows `v-`. -/
  | unknown {body name : String} {argument? : Option String} (h : Splits body name argument?)
    (hname : name ∉ ["text", "html", "model", "bind", "on"]) :
    Stands ("v-" ++ body) (.error (.unknown body))

section

variable {body name x : String} {argument? : Option String}

/-- What `parse` answers from the parts. -/
theorem Splits.parse_eq (h : Splits body name argument?) :
    parse ("v-" ++ body) = (ofParts body name (argument?.getD "")).map some := by
  have hbody : ("v-" ++ body).toList = 'v' :: '-' :: body.toList := by simp
  rw [Directive.parse_eq hbody, h.takeWhile_eq.1, h.takeWhile_eq.2]
  simp only [String.ofList_toList]

theorem eq_append_of_marked (h : Marked name) : ∃ body, name = "v-" ++ body := by
  obtain ⟨s, hs⟩ := h
  refine ⟨String.ofList s, ?_⟩
  rw [← String.toList_inj, ← hs]
  simp

theorem ofParts_of_not_mem (h : name ∉ ["text", "html", "model", "bind", "on"]) (x : String) :
    ofParts body name x = .error (.unknown body) := by
  simp only [List.mem_cons, List.not_mem_nil, or_false, not_or] at h
  obtain ⟨htext, hhtml, hmodel, hbind, hon⟩ := h
  rw [ofParts, if_neg htext, if_neg hhtml, if_neg hmodel, if_neg hbind, if_neg hon]

/-- The rules for a directive that takes an argument leave nothing out. -/
theorem Splits.stands_taking (h : Splits body name argument?) {make : String → Directive}
    (hname : name = "bind" ∨ name = "on")
    (hmake : ∀ x, Splits body name (some x) → x ≠ "" →
      Stands ("v-" ++ body) (.ok (some (make x)))) :
    Stands ("v-" ++ body) (Except.map some (if (argument?.getD "").isEmpty
      then .error (.missingArgument name) else .ok (make (argument?.getD "")))) := by
  match argument? with
  | none => exact .missing h hname (.inl rfl)
  | some x =>
    by_cases hx : x = ""
    · subst hx
      exact .missing h hname (.inr rfl)
    · rw [Option.getD_some, if_neg (by simpa using hx)]
      exact hmake x h hx

/-- Parts stand for what is made of them. -/
theorem Splits.stands (h : Splits body name argument?) :
    Stands ("v-" ++ body) ((ofParts body name (argument?.getD "")).map some) := by
  by_cases hknown : name ∈ ["text", "html", "model", "bind", "on"]
  · simp only [List.mem_cons, List.not_mem_nil, or_false] at hknown
    rcases hknown with rfl | rfl | rfl | rfl | rfl
    · exact .text h
    · exact .html h
    · exact .model h
    · exact h.stands_taking (.inl rfl) fun _ => .bind
    · exact h.stands_taking (.inr rfl) fun _ => .on
  · rw [ofParts_of_not_mem hknown]
    exact .unknown h hknown

/-- `parse` answers by the rules. -/
theorem stands_parse (name : String) : Stands name (parse name) := by
  by_cases hmarked : Marked name
  · obtain ⟨body, rfl⟩ := eq_append_of_marked hmarked
    obtain ⟨name, argument?, h⟩ := exists_splits body
    rw [h.parse_eq]
    exact h.stands
  · rw [parse_of_not_marked hmarked]
    exact .unmarked hmarked

/-- A rule leaves `parse` no other answer. -/
theorem Stands.parse_eq {result : Except DirectiveError (Option Directive)}
    (h : Stands name result) : parse name = result := by
  cases h with
  | unmarked h => exact parse_of_not_marked h
  | text h | html h | model h => exact h.parse_eq
  | bind h hx | on h hx =>
    rw [h.parse_eq]
    simp [ofParts, hx, Except.map]
  | missing h hname hargument =>
    rw [h.parse_eq]
    rcases hname with rfl | rfl <;> rcases hargument with rfl | rfl <;> rfl
  | unknown h hname =>
    rw [h.parse_eq, ofParts_of_not_mem hname]
    rfl

end

/-! ## Writing and reading -/

/-- The text for a directive has these parts. -/
theorem splits_display (d : Directive) :
    ∃ body, d.display = "v-" ++ body ∧ Splits body d.name d.argument? := by
  have hname : ':' ∉ d.name.toList := by cases d <;> simp [name]
  unfold display
  cases d.argument? with
  | none => exact ⟨d.name, rfl, .bare hname⟩
  | some x =>
    refine ⟨d.name ++ ":" ++ x, ?_, .colon hname x⟩
    simp only [String.append_assoc]

/-- A directive is what is written for it stands for. -/
theorem stands_display (d : Directive) (h : d.argument? ≠ some "") :
    Stands d.display (.ok (some d)) := by
  obtain ⟨body, hdisplay, hsplits⟩ := splits_display d
  rw [hdisplay]
  cases d with
  | text => exact .text hsplits
  | html => exact .html hsplits
  | model => exact .model hsplits
  | bind x => exact .bind hsplits fun hx => h (congrArg some hx)
  | on x => exact .on hsplits fun hx => h (congrArg some hx)

/-- **`parse` accepts exactly its grammar and inverts `display`.** -/
theorem parse_iff_stands_and_display :
    (∀ name result, parse name = result ↔ Stands name result) ∧
    (∀ body, ∃! parts : String × Option String, Splits body parts.1 parts.2) ∧
    (∀ d : Directive, d.argument? ≠ some "" → parse d.display = .ok (some d)) ∧
    (∀ d e : Directive, d.argument? ≠ some "" → e.argument? ≠ some "" →
      d.display = e.display → d = e) := by
  have hback (d : Directive) (hd : d.argument? ≠ some "") : parse d.display = .ok (some d) :=
    (stands_display d hd).parse_eq
  refine ⟨fun name result => ⟨fun h => h ▸ stands_parse name, Stands.parse_eq⟩, fun body => ?_,
    hback, fun d e hd he heq => ?_⟩
  · obtain ⟨name, argument?, h⟩ := exists_splits body
    refine ⟨(name, argument?), h, fun parts hparts => ?_⟩
    obtain ⟨hname, hargument⟩ := h.unique hparts
    exact Prod.ext hname hargument
  · have hboth := (hback d hd).symm.trans (heq ▸ hback e he)
    exact Option.some.inj (Except.ok.inj hboth)

/-- An argument with colons and the prefix in it comes back whole, and an event is not
    taken for the attribute of its name. -/
theorem parse_display_colons :
    (bind "v-on:a:b").display = "v-bind:v-on:a:b" ∧
      parse (bind "v-on:a:b").display = .ok (some (bind "v-on:a:b")) ∧
      (bind "v-on:a:b").display ≠ (on "v-on:a:b").display := by
  obtain ⟨-, -, hback, hinj⟩ := parse_iff_stands_and_display
  refine ⟨by decide, hback _ (by decide), fun h => ?_⟩
  cases hinj _ _ (by decide) (by decide) h

end Directive

end DataBinding
