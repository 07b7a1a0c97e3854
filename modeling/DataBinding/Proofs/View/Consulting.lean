/-
  What binding reads, apart from what it renders.

  An effect `Consults` the data if it changes neither a value nor the stage, and ends
  with an answer or a fault; another effect, on any other stage, does the same.

  * `Play.readDirective` and `Play.readAttributes` are the parts of a binding that
    consult the data: the watchers are made and the expressions evaluated, and the
    answer is what is to be rendered;
  * `Renders`: an effect does on the data what another one does on the data alone,
    and changes a document, which does not decide what is read.
-/
import DataBinding.Proofs.Document.Rendering
import DataBinding.Proofs.Reactive.Watching
import DataBinding.Proofs.View.Staging

namespace DataBinding

open Effect (mapFault fail each)

variable {R σ τ α β γ δ : Type}

/-! ## Consulting the data -/

/-- A store with the same mappings and values. -/
def Store.SameData (s s' : Store R) : Prop :=
  s'.mappings = s.mappings ∧ ∀ i, s'.valueAt i = s.valueAt i

namespace Store.SameData

variable {s s' s'' : Store R}

theorem refl (s : Store R) : s.SameData s := ⟨rfl, fun _ => rfl⟩

theorem trans (h : s.SameData s') (h' : s'.SameData s'') : s.SameData s'' :=
  ⟨h'.1.trans h.1, fun i => (h'.2 i).trans (h.2 i)⟩

theorem resolve (h : s.SameData s') (root : MappingId) (expression : String) :
    s'.resolve root expression = s.resolve root expression := by
  refine resolve_congr (fun m key => ?_) h.2 root expression
  rw [slot?, members, h.1]
  rfl

theorem trackAll (s : Store R) (slots : List SlotId) : s.SameData (s.trackAll slots) :=
  ⟨mappings_trackAll s slots, valueAt_trackAll slots s⟩

theorem watched (s : Store R) (root : MappingId) (expression : String) (label : R) (v : Value) :
    s.SameData (s.watched root expression label v) :=
  ⟨mappings_watched s root expression label v, valueAt_watched s root expression label v⟩

theorem fillPieces {root : MappingId} : ∀ {pieces : List Template.Piece} {s s' : Store R},
    s.SameData s' → (s'.fillPieces root pieces).1 = (s.fillPieces root pieces).1
  | [], _, _, _ => rfl
  | .literal c :: rest, s, s', h => by
    rw [Store.fillPieces, Store.fillPieces]
    exact congrArg (Except.map (c :: ·)) (fillPieces h)
  | .placeholder inner :: rest, s, s', h => by
    rw [Store.fillPieces, Store.fillPieces, evaluate_eq, evaluate_eq, h.resolve]
    cases (s.resolve root (String.ofList inner)).2 with
    | error e => rfl
    | ok v =>
      have hrest : (s.trackAll (s.resolve root (String.ofList inner)).1).SameData
          (s'.trackAll (s.resolve root (String.ofList inner)).1) :=
        ⟨by rw [mappings_trackAll, mappings_trackAll, h.1],
          fun i => by rw [valueAt_trackAll, valueAt_trackAll, h.2]⟩
      exact congrArg (Except.map (v.display.toList ++ ·)) (fillPieces hrest)

theorem fill (h : s.SameData s') (root : MappingId) (text : String) :
    (s'.fill root text).1 = (s.fill root text).1 :=
  congrArg (Except.map String.ofList) h.fillPieces

end Store.SameData

namespace Effect

/-- An effect that reads the data and makes watchers, and ends; on another stage
    the second effect does the same. -/
def Consults (a : Effect R σ α) (b : Effect R τ α) : Prop :=
  ∀ s x y, ∃ r s', a ⟨s, x⟩ = (r, ⟨s', x⟩) ∧ b ⟨s, y⟩ = (r, ⟨s', y⟩) ∧
    r ≠ .error .exhausted ∧ s.SameData s'

namespace Consults

theorem elim {a : Effect R σ α} {b : Effect R Unit α} (h : Consults a b) {u u' : World R σ}
    {r : Except Stop α} (hu : a u = (r, u')) :
    r ≠ .error .exhausted ∧ u.store.SameData u'.store := by
  obtain ⟨r', s', ha, -, hr, hs⟩ := h u.store u.stage ()
  obtain ⟨rfl, rfl⟩ := Prod.mk.inj (hu.symm.trans ha)
  exact ⟨hr, hs⟩

theorem pure (x : α) : Consults (pure x : Effect R σ α) (pure x : Effect R τ α) :=
  fun s _ _ => ⟨.ok x, s, rfl, rfl, by rintro ⟨⟩, .refl s⟩

theorem fail (f : Fault) : Consults (fail f : Effect R σ α) (fail f : Effect R τ α) :=
  fun s _ _ => ⟨.error (.fault f), s, rfl, rfl, by rintro ⟨⟩, .refl s⟩

theorem bind {a : Effect R σ α} {b : Effect R τ α} {f : α → Effect R σ β} {g : α → Effect R τ β}
    (hab : Consults a b) (hfg : ∀ x, Consults (f x) (g x)) : Consults (a >>= f) (b >>= g) := by
  intro s x y
  obtain ⟨r, s₁, ha, hb, hr, hs⟩ := hab s x y
  rw [bind_apply, bind_apply, ha, hb]
  cases r with
  | error e => exact ⟨.error e, s₁, rfl, rfl, fun h => hr (congrArg _ (Except.error.inj h)), hs⟩
  | ok z =>
    obtain ⟨r, s₂, hf, hg, hr', hs'⟩ := hfg z s₁ x y
    exact ⟨r, s₂, hf, hg, hr', hs.trans hs'⟩

theorem mapFault {a : Effect R σ α} {b : Effect R τ α} (h : Consults a b) (f : Fault → Fault) :
    Consults (mapFault f a) (mapFault f b) := by
  intro s x y
  obtain ⟨r, s', ha, hb, hr, hs⟩ := h s x y
  unfold Effect.mapFault
  rw [ha, hb]
  rcases r with (e | _) | z
  · exact ⟨.error (.fault (f e)), s', rfl, rfl, by rintro ⟨⟩, hs⟩
  · exact absurd rfl hr
  · exact ⟨.ok z, s', rfl, rfl, by rintro ⟨⟩, hs⟩

theorem each {f : α → Effect R σ Unit} {g : α → Effect R τ Unit} (h : ∀ x, Consults (f x) (g x)) :
    ∀ items, Consults (each f items) (each g items)
  | [] => .pure ()
  | x :: rest => (h x).bind fun _ => each h rest

theorem watch (root : MappingId) (expression : String) (label : R) :
    Consults (watch root expression label : Effect R σ WatcherId)
      (watch root expression label : Effect R τ WatcherId) := by
  intro s x y
  cases hv : (s.resolve root expression).2 with
  | error e =>
    exact ⟨_, _, watch_of_error hv, watch_of_error hv, by rintro ⟨⟩, .watched s root expression label .null⟩
  | ok v => exact ⟨_, _, watch_of_ok hv, watch_of_ok hv, by rintro ⟨⟩, .watched s root expression label v⟩

theorem getPath (root : MappingId) (expression : String) :
    Consults (getPath root expression : Effect R σ Value)
      (getPath root expression : Effect R τ Value) := by
  intro s x y
  refine ⟨_, _, getPath_apply, getPath_apply, ?_, .trackAll s _⟩
  dsimp only
  cases (s.resolve root expression).2 <;> rintro ⟨⟩

theorem content (root : MappingId) (text : String) :
    Consults (content root text : Effect R σ String) (content root text : Effect R τ String) := by
  intro s x y
  obtain ⟨slots, hslots⟩ := Store.exists_trackAll_fillPieces root (Template.pieces text) s
  have hstore : (s.fill root text).2 = s.trackAll slots := hslots
  refine ⟨_, _, reading_apply _ _, reading_apply _ _, ?_, hstore ▸ .trackAll s slots⟩
  cases (s.fill root text).1 <;> rintro ⟨⟩

end Consults

/-- What stops goes on to nothing. -/
theorem bind_error {a : Effect R σ α} {g : α → Effect R σ β} {u : World R σ} {e : Stop}
    (h : (a u).1 = .error e) : ((a >>= g) u).1 = .error e := by
  rcases hu : a u with ⟨r, u'⟩
  rw [hu] at h
  obtain rfl : r = .error e := h
  rw [bind_apply, hu]

theorem mapFault_bind (f : Fault → Fault) (a : Effect R σ α) (g : α → Effect R σ β) :
    mapFault f (a >>= g) = mapFault f a >>= fun x => mapFault f (g x) := by
  funext u
  rcases hu : a u with ⟨(_ | _) | x, u'⟩ <;> simp only [mapFault, bind_apply, hu]

theorem bind_assoc (a : Effect R σ α) (f : α → Effect R σ β) (g : β → Effect R σ γ) :
    a >>= f >>= g = a >>= fun x => f x >>= g := by
  funext u
  rcases hu : a u with ⟨e | x, u'⟩ <;> simp only [bind_apply, hu]

end Effect

section

variable {u u' : World R σ} {x : α}

theorem Effect.mapFault_eq_ok {f : Fault → Fault} {a : Effect R σ α} :
    mapFault f a u = (.ok x, u') ↔ a u = (.ok x, u') := by
  unfold mapFault
  rcases a u with ⟨(_ | _) | _, _⟩ <;> simp

theorem Effect.content_ok {root : MappingId} {text filled : String}
    (h : content root text u = (.ok filled, u')) : (u.store.fill root text).1 = .ok filled := by
  obtain ⟨slots, hcontent⟩ := content_tracks root text u
  have hresult := congrArg Prod.fst (hcontent.symm.trans h)
  cases hfill : (u.store.fill root text).1 with
  | ok t =>
    rw [hfill] at hresult
    exact congrArg Except.ok (Except.ok.inj hresult)
  | error e =>
    rw [hfill] at hresult
    cases hresult

end

/-- An attribute that has been bound is none of a directive, and nothing was done; or it is
    one, which was bound and dropped. -/
theorem Play.compileAttribute_eq_ok {id : ViewModelId} {vm : ViewModel} {n : NodeId}
    {entry : String × String} {u u' : World Reaction Stage}
    (h : compileAttribute id vm n entry u = (.ok (), u')) :
    (Directive.parse entry.1 = .ok none ∧ u' = u) ∨
      ∃ directive u₁, Directive.parse entry.1 = .ok (some directive) ∧
        bindDirective id vm n entry.2 directive u = (.ok (), u₁) ∧
        edit vm.document (fun d => d.removeAttribute n entry.1) u₁ = (.ok (), u') := by
  obtain ⟨directive, u₁, hdirective, h⟩ := Effect.bind_eq_ok.1 h
  unfold directiveOf at hdirective
  cases hparse : Directive.parse entry.1 with
  | error e =>
    rw [hparse] at hdirective
    cases hdirective
  | ok found =>
    rw [hparse] at hdirective
    cases hdirective
    cases directive with
    | none =>
      cases h
      exact .inl ⟨rfl, rfl⟩
    | some directive =>
      obtain ⟨⟨⟩, u₂, hbind, hdrop⟩ := Effect.bind_eq_ok.1 h
      exact .inr ⟨directive, u₂, rfl, hbind, Effect.mapFault_eq_ok.1 hdrop⟩

/-! ## What is read for a binding -/

/-- A value and where it is rendered. -/
abbrev Rendering := Facet × Value

namespace Play

variable (vm : ViewModel) (node : NodeId)

/-- Make the watcher of an expression, and evaluate it. -/
def readValue (expression : String) (facet : Facet) : Effect Reaction σ Value :=
  mapFault .binding do
    let _ ← Effect.watch vm.data expression (.render vm.document node facet)
    Effect.getPath vm.data expression

/-- Make the watchers of a text with placeholders, and fill it in. -/
def readTemplate (template : String) (expressions : List String) : Effect Reaction σ Value :=
  mapFault .binding do
    each (fun expression => do
        let _ ← Effect.watch vm.data expression (.fill vm.document node vm.data template))
      expressions
    let text ← Effect.content vm.data template
    pure (.string text)

/-- What the text of a node is to be. -/
def readText (expression : String) : Effect Reaction σ Value :=
  match Template.placeholders expression with
  | [] => readValue vm node expression .text
  | expressions => readTemplate vm node expression expressions

/-- What a directive renders, if it does. -/
def readDirective (expression : String) : Directive → Effect Reaction σ (Option Rendering)
  | .text => do return some (.text, ← readText vm node expression)
  | .html => do return some (.html, ← readValue vm node expression .html)
  | .model => do return some (.model, ← readValue vm node expression .model)
  | .bind target => do
    return some (.attribute target, ← readValue vm node expression (.attribute target))
  | .on _ => pure none

/-- What an attribute renders, if it is a directive that does. -/
def readAttribute (entry : String × String) : Effect Reaction σ (Option Rendering) :=
  match Directive.parse entry.1 with
  | .error e => fail (.directive e)
  | .ok none => pure none
  | .ok (some directive) => readDirective vm node entry.2 directive

/-- What attributes render, in order. -/
def readAttributes : List (String × String) → Effect Reaction σ (List Rendering)
  | [] => pure []
  | entry :: rest => do
    let first ← readAttribute vm node entry
    let others ← readAttributes rest
    return first.toList ++ others

section Consults

open Effect (Consults)

theorem readValue_consults (expression : String) (facet : Facet) :
    Consults (readValue vm node expression facet : Effect Reaction σ Value)
      (readValue vm node expression facet : Effect Reaction τ Value) :=
  .mapFault (.bind (.watch _ _ _) fun _ => .getPath _ _) _

theorem readTemplate_watches (template : String) (expressions : List String) :
    Consults
      (each (fun expression => do
          let _ ← Effect.watch vm.data expression (.fill vm.document node vm.data template))
        expressions : Effect Reaction σ Unit)
      (each (fun expression => do
          let _ ← Effect.watch vm.data expression (.fill vm.document node vm.data template))
        expressions : Effect Reaction τ Unit) :=
  .each (fun _ => .bind (.watch _ _ _) fun _ => .pure ()) _

theorem readText_consults (expression : String) :
    Consults (readText vm node expression : Effect Reaction σ Value)
      (readText vm node expression : Effect Reaction τ Value) := by
  unfold readText
  cases Template.placeholders expression with
  | nil => exact readValue_consults vm node expression .text
  | cons e es =>
    exact .mapFault (.bind (readTemplate_watches vm node expression (e :: es)) fun _ =>
      .bind (.content _ _) fun _ => .pure _) _

theorem readDirective_consults (expression : String) (directive : Directive) :
    Consults (readDirective vm node expression directive : Effect Reaction σ (Option Rendering))
      (readDirective vm node expression directive : Effect Reaction τ (Option Rendering)) := by
  cases directive with
  | text => exact .bind (readText_consults vm node expression) fun _ => .pure _
  | html => exact .bind (readValue_consults vm node expression .html) fun _ => .pure _
  | model => exact .bind (readValue_consults vm node expression .model) fun _ => .pure _
  | bind target =>
    exact .bind (readValue_consults vm node expression (.attribute target)) fun _ => .pure _
  | on eventType => exact .pure none

theorem readAttribute_consults (entry : String × String) :
    Consults (readAttribute vm node entry : Effect Reaction σ (Option Rendering))
      (readAttribute vm node entry : Effect Reaction τ (Option Rendering)) := by
  unfold readAttribute
  rcases Directive.parse entry.1 with e | _ | directive
  · exact .fail _
  · exact .pure none
  · exact readDirective_consults vm node entry.2 directive

theorem readAttributes_consults : ∀ entries : List (String × String),
    Consults (readAttributes vm node entries : Effect Reaction σ (List Rendering))
      (readAttributes vm node entries : Effect Reaction τ (List Rendering))
  | [] => .pure []
  | entry :: rest =>
    .bind (readAttribute_consults vm node entry) fun _ =>
      .bind (readAttributes_consults rest) fun _ => .pure _

end Consults

/-! ## What has been read -/

section

variable {vm node} {u u' : World Reaction σ} {v : Value}

theorem readValue_ok {expression : String} {facet : Facet}
    (h : readValue vm node expression facet u = (.ok v, u')) :
    (u.store.resolve vm.data expression).2 = .ok v := by
  unfold readValue mapFault at h
  rw [Effect.bind_apply] at h
  cases hv : (u.store.resolve vm.data expression).2 with
  | error e =>
    rw [Effect.watch_of_error hv] at h
    cases h
  | ok v' =>
    rw [Effect.watch_of_ok hv] at h
    dsimp only at h
    rw [Effect.getPath_apply, (Store.SameData.watched _ _ _ _ _).resolve, hv] at h
    cases h
    rfl

theorem readValue_of_ok {expression : String} {facet : Facet}
    (h : (u.store.resolve vm.data expression).2 = .ok v) :
    ∃ u', readValue vm node expression facet u = (.ok v, u') := by
  have hfirst : (readValue vm node expression facet u).1 = .ok v := by
    unfold readValue mapFault
    rw [Effect.bind_apply, Effect.watch_of_ok h]
    dsimp only
    rw [Effect.getPath_apply, (Store.SameData.watched _ _ _ _ _).resolve, h]
    rfl
  exact ⟨_, Prod.ext hfirst rfl⟩

theorem readTemplate_ok {template : String} {expressions : List String}
    (h : readTemplate vm node template expressions u = (.ok v, u')) :
    ∃ text, v = .string text ∧ (u.store.fill vm.data template).1 = .ok text := by
  obtain ⟨⟨⟩, u₁, heach, h⟩ := Effect.bind_eq_ok.1 (Effect.mapFault_eq_ok.1 h)
  obtain ⟨text, u₂, hcontent, h⟩ := Effect.bind_eq_ok.1 h
  cases h
  have hsame := (readTemplate_watches vm node template expressions).elim heach
  exact ⟨text, rfl, (hsame.2.fill _ _).symm.trans (Effect.content_ok hcontent)⟩

end

end Play

/-! ## Rendering what has been read -/

/-- A world with other data, and another document on its stage. -/
def World.become (u : World R Stage) (s : Store R) (id : DocumentId) (d : Document Listener) :
    World R Stage :=
  World.put { u with store := s } id d

section Become

variable {u : World R Stage} {s s' : Store R} {id : DocumentId} {d d' : Document Listener}

theorem World.become_become : (u.become s id d).become s' id d' = u.become s' id d' := by
  unfold become put
  rw [Array.setIfInBounds_setIfInBounds]

theorem World.become_store (hstaged : u.stage.documents[id]? = some d) :
    u.become s id d = { u with store := s } :=
  put_eq (u := { u with store := s }) hstaged

theorem World.documents_become (hstaged : u.stage.documents[id]? = some d) (s : Store R)
    (d' : Document Listener) : (u.become s id d').stage.documents[id]? = some d' :=
  documents_put (u := { u with store := s }) hstaged d'

end Become

/-- From a world, an effect does on the data what another one does on the data
    alone, and answers when that answers; besides, it changes a document, of which
    something holds then. -/
def Renders (document : DocumentId) (a : Play Unit) (b : Effect Reaction Unit α)
    (u : World Reaction Stage) (Q : α → Document Listener → Prop) : Prop :=
  match b ⟨u.store, ()⟩ with
  | (.ok x, v) => ∃ d, a u = (.ok (), u.become v.store document d) ∧ Q x d
  | (.error e, v) => ∃ d, a u = (.error e, u.become v.store document d)

namespace Renders

variable {document : DocumentId} {u : World Reaction Stage} {d d' : Document Listener}
  {Q : α → Document Listener → Prop} {Q' : β → Document Listener → Prop}

/-- What is read has been answered. -/
theorem of_ok {a : Play Unit} {b : Effect Reaction Unit α} {x : α} {v : World Reaction Unit}
    (h : Renders document a b u Q) (hb : b ⟨u.store, ()⟩ = (.ok x, v)) :
    ∃ d, a u = (.ok (), u.become v.store document d) ∧ Q x d := by
  unfold Renders at h
  rwa [hb] at h

/-- What is read has failed. -/
theorem of_error {a : Play Unit} {b : Effect Reaction Unit α} {e : Stop} {v : World Reaction Unit}
    (h : Renders document a b u Q) (hb : b ⟨u.store, ()⟩ = (.error e, v)) :
    ∃ d, a u = (.error e, u.become v.store document d) := by
  unfold Renders at h
  rwa [hb] at h

/-- An effect that has answered has read what it renders. -/
theorem answered {a : Play Unit} {b : Effect Reaction Unit α} {u' : World Reaction Stage}
    (h : Renders document a b u Q) (ha : a u = (.ok (), u')) :
    ∃ x v d, b ⟨u.store, ()⟩ = (.ok x, v) ∧ u' = u.become v.store document d ∧ Q x d := by
  rcases hb : b ⟨u.store, ()⟩ with ⟨e | x, v⟩
  · obtain ⟨d, he⟩ := h.of_error hb
    cases ha.symm.trans he
  · obtain ⟨d, hx, hQ⟩ := h.of_ok hb
    cases ha.symm.trans hx
    exact ⟨x, v, d, rfl, rfl, hQ⟩

theorem congr {a a' : Play Unit} {b : Effect Reaction Unit α} (ha : a u = a' u)
    (h : Renders document a' b u Q) : Renders document a b u Q := by
  unfold Renders at h ⊢
  rwa [ha]

theorem mono {a : Play Unit} {b : Effect Reaction Unit α} {Q' : α → Document Listener → Prop}
    (h : Renders document a b u Q) (hQ : ∀ x d, Q x d → Q' x d) : Renders document a b u Q' := by
  unfold Renders
  rcases hb : b ⟨u.store, ()⟩ with ⟨e | x, v⟩
  · exact h.of_error hb
  · obtain ⟨d, ha, hx⟩ := h.of_ok hb
    exact ⟨d, ha, hQ x d hx⟩

theorem pure (hstaged : u.stage.documents[document]? = some d) {x : α} (hx : Q x d) :
    Renders document (pure ()) (pure x) u Q :=
  ⟨d, by rw [World.become_store hstaged]; rfl, hx⟩

theorem fail (hstaged : u.stage.documents[document]? = some d) (f : Fault) :
    Renders document (fail f) (fail f : Effect Reaction Unit α) u Q := by
  refine ⟨d, ?_⟩
  rw [World.become_store hstaged]
  rfl

/-- A change of the document. -/
theorem edit (hstaged : u.stage.documents[document]? = some d) (restate : Fault → Fault)
    (change : Document Listener → Document.Edited Listener) (hchange : change d = (.ok (), d'))
    {x : α} (hx : Q x d') :
    Renders document (mapFault restate (Play.edit document change)) (Pure.pure x) u Q := by
  refine ⟨d', ?_, hx⟩
  unfold mapFault
  rw [Play.edit_apply change hstaged hchange]
  rfl

/-- Something is read first. -/
theorem consult (hstaged : u.stage.documents[document]? = some d) {a : Play β}
    {b : Effect Reaction Unit β} (hab : Effect.Consults a b) {f : β → Play Unit}
    {g : β → Effect Reaction Unit α}
    (h : ∀ x s, Renders document (f x) (g x) { u with store := s } Q) :
    Renders document (a >>= f) (b >>= g) u Q := by
  obtain ⟨r, s, ha, hb, -, -⟩ := hab u.store u.stage ()
  unfold Renders
  simp only [Effect.bind_apply, hb, show a u = (r, ⟨s, u.stage⟩) from ha]
  cases r with
  | error e => exact ⟨d, by rw [World.become_store hstaged]⟩
  | ok x => exact h x s

/-- One effect after the other. -/
theorem bind {a a' : Play Unit} {b : Effect Reaction Unit α} {b' : α → Effect Reaction Unit β}
    (h : Renders document a b u Q)
    (h' : ∀ x d s, Q x d → b ⟨u.store, ()⟩ = (.ok x, ⟨s, ()⟩) →
      Renders document a' (b' x) (u.become s document d) Q') :
    Renders document (a >>= fun _ => a') (b >>= b') u Q' := by
  unfold Renders
  rcases hb : b ⟨u.store, ()⟩ with ⟨e | x, v⟩
  · obtain ⟨d, ha⟩ := h.of_error hb
    simp only [Effect.bind_apply, hb, ha]
    exact ⟨d, rfl⟩
  · obtain ⟨d, ha, hx⟩ := h.of_ok hb
    have hnext := h' x d v.store hx hb
    simp only [Effect.bind_apply, hb, ha]
    rcases hb' : b' x v with ⟨e | y, v'⟩
    · obtain ⟨d', ha'⟩ := hnext.of_error hb'
      exact ⟨d', by rw [ha', World.become_become]⟩
    · obtain ⟨d', ha', hy⟩ := hnext.of_ok hb'
      exact ⟨d', by rw [ha', World.become_become], hy⟩

/-- What has been read is answered in another form. -/
theorem yields {a : Play Unit} {b : Effect Reaction Unit α} (h : Renders document a b u Q) (f : α → β)
    (hf : ∀ x d, Q x d → Q' (f x) d) :
    Renders document a (b >>= fun x => Pure.pure (f x)) u Q' := by
  unfold Renders
  rcases hb : b ⟨u.store, ()⟩ with ⟨e | x, v⟩
  · rw [Effect.bind_apply, hb]
    exact h.of_error hb
  · obtain ⟨d, ha, hx⟩ := h.of_ok hb
    rw [Effect.bind_apply, hb]
    exact ⟨d, ha, hf x d hx⟩

/-- An effect after which nothing more is read. -/
theorem followed {a a' : Play Unit} {b : Effect Reaction Unit α} {Q' : α → Document Listener → Prop}
    (h : Renders document a b u Q)
    (h' : ∀ x d s, Q x d → Renders document a' (Pure.pure x) (u.become s document d) Q') :
    Renders document (a >>= fun _ => a') b u Q' := by
  have hb : b = b >>= Pure.pure := by
    funext v
    rcases hv : b v with ⟨e | x, v'⟩
    · rw [Effect.bind_apply, hv]
    · rw [Effect.bind_apply, hv]
      rfl
  rw [hb]
  exact h.bind fun x d s hx _ => h' x d s hx

end Renders

end DataBinding
