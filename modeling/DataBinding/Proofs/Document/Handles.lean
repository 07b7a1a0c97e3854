/-
  Handles and the history of their slots.

  What happens to the slots of a document are `SlotEvent`s: a slot is taken by a
  new node, or vacated.  `Edit.events` are those of one change and `events` those of
  a document of markup that is changed again and again.  A `Trace` is a sequence of
  the changes of slots that there are, with its events.

  * `trace_apply`: a change is a trace of its events;
  * `Recorded`: the generation of a slot counts how often it was vacated, a slot is
    taken again only after it was vacated, and handles have the generation of that
    time; every trace from a document without slots keeps this (`Trace.recorded`);
  * `Recorded.live_iff`: a handle resolves exactly when its slot is occupied and
    was vacated a multiple of `2 ^ 32` times since;
  * `Stale`: all that can be done with a handle that does not resolve.
-/
import DataBinding.View.Model
import DataBinding.Proofs.Document.Arena
import DataBinding.Proofs.View.Staging

namespace DataBinding

/-- What happens to a slot. -/
inductive SlotEvent where
  /-- It is taken by a new node, with this handle. -/
  | taken (id : NodeId)
  /-- The node of this handle leaves it. -/
  | vacated (id : NodeId)
  deriving DecidableEq

namespace SlotEvent

/-- The slot. -/
def slot : SlotEvent → Nat
  | taken id | vacated id => id.index

/-- The handle of a new node. -/
def taken? : SlotEvent → Option NodeId
  | taken id => some id
  | vacated _ => none

end SlotEvent

/-- How often a slot is vacated. -/
def vacations (i : Nat) (events : List SlotEvent) : Nat :=
  events.countP fun e => e.taken?.isNone && e.slot == i

section Vacations

variable {i : Nat} {id : NodeId} {before after : List SlotEvent}

@[simp]
theorem vacations_nil : vacations i [] = 0 := rfl

@[simp]
theorem vacations_append : vacations i (before ++ after) = vacations i before + vacations i after :=
  List.countP_append

@[simp]
theorem vacations_taken : vacations i (.taken id :: after) = vacations i after :=
  List.countP_cons_of_neg (by simp [SlotEvent.taken?])

@[simp]
theorem vacations_vacated :
    vacations i (.vacated id :: after) = vacations i after + if id.index = i then 1 else 0 := by
  simp [vacations, List.countP_cons, SlotEvent.taken?, SlotEvent.slot]

end Vacations

namespace Document

variable {L : Type} {d d' d'' : Document L}

/-! ## The events of a change -/

mutual

/-- The events of adding a node of markup. -/
def nodeEvents : Markup → Document L → List SlotEvent
  | .text s, d => [.taken (d.alloc (.text s)).1]
  | .comment s, d => [.taken (d.alloc (.comment s)).1]
  | .element tag attributes children, d =>
    .taken (d.alloc (.element ⟨tag, attributes, none⟩)).1 ::
      forestEvents (d.alloc (.element ⟨tag, attributes, none⟩)).1 children
        (d.alloc (.element ⟨tag, attributes, none⟩)).2

/-- The events of adding nodes of markup at the end of a node. -/
def forestEvents (parent : NodeId) : List Markup → Document L → List SlotEvent
  | [], _ => []
  | node :: rest, d =>
    match insertNode parent node d with
    | (.ok (), d') => nodeEvents node d ++ forestEvents parent rest d'
    | _ => nodeEvents node d

end

/-- The events of clearing the children of a node. -/
def clearEvents (d : Document L) (id : NodeId) : List SlotEvent :=
  (d.released id).map .vacated

/-- The events of replacing the children of a node by a text. -/
def replaceEvents (d : Document L) (id : NodeId) (s : String) : List SlotEvent :=
  d.clearEvents id ++
    if s.isEmpty then [] else [.taken ((d.clearChildren id).alloc (.text s)).1]

/-- The events of setting the text of a node. -/
def textEvents (d : Document L) (id : NodeId) (s : String) : List SlotEvent :=
  (d.node? id).elim [] fun node =>
    match node.content with
    | .text _ | .comment _ => []
    | _ => if (d.loneText? node).isSome && !s.isEmpty then [] else d.replaceEvents id s

/-- The events of replacing what is below an element by nodes of markup. -/
def innerEvents (d : Document L) (id : NodeId) (forest : List Markup) : List SlotEvent :=
  (d.element? id).elim [] fun _ =>
    d.clearEvents id ++ forestEvents id forest (d.clearChildren id)

/-- The events of a change. -/
def Edit.events (d : Document L) : Edit L → List SlotEvent
  | createElement tag => [.taken (d.createElement tag).1]
  | createText s => [.taken (d.createText s).1]
  | setText id s => d.textEvents id s
  | setInner id forest => d.innerEvents id forest
  | _ => []

/-- The events of changes, one after the other. -/
def runEvents (d : Document L) : List (Edit L) → List SlotEvent
  | [] => []
  | e :: rest => e.events d ++ (e.apply d).2.runEvents rest

/-- The events of a document of markup that is changed: the document node, the
    nodes of markup, and what the changes do. -/
def events (forest : List Markup) (edits : List (Edit L)) : List SlotEvent :=
  .taken root :: forestEvents root forest (empty : Document L) ++ (ofForest forest).runEvents edits

/-! ## Traces -/

/-- Changes of slots one after the other, with their events: nodes are changed in
    their place, made, or released. -/
inductive Trace (d : Document L) : List SlotEvent → Document L → Prop
  /-- Nothing happens. -/
  | refl : Trace d [] d
  /-- A node is changed in its place. -/
  | update {es : List SlotEvent} {d' : Document L} (h : Trace d es d') (id : NodeId)
      (f : Node L → Node L) : Trace d es (d'.update id f)
  /-- A node is made. -/
  | alloc {es : List SlotEvent} {d' : Document L} (h : Trace d es d') (content : NodeContent) :
      Trace d (es ++ [.taken (d'.alloc content).1]) (d'.alloc content).2
  /-- A node leaves its slot. -/
  | vacate {es : List SlotEvent} {d' : Document L} (h : Trace d es d') {id : NodeId}
      (hid : d'.Live id) : Trace d (es ++ [.vacated id]) (d'.vacate id)

namespace Trace

theorem trans {es es' : List SlotEvent} (h : Trace d es d') (h' : Trace d' es' d'') :
    Trace d (es ++ es') d'' := by
  induction h' with
  | refl => rwa [List.append_nil]
  | update _ id f ih => exact ih.update id f
  | alloc _ content ih => rw [← List.append_assoc]; exact ih.alloc content
  | vacate _ hid ih => rw [← List.append_assoc]; exact ih.vacate hid

end Trace

/-! ## Changes are traces -/

theorem trace_vacateAll {ids : List NodeId} (h : d.AllLive ids) :
    Trace d (ids.map .vacated) (d.vacateAll ids) := by
  induction ids generalizing d with
  | nil => exact .refl
  | cons id rest ih => exact (Trace.refl.vacate (h.2 id List.mem_cons_self)).trans (ih h.tail)

theorem trace_detach (child : NodeId) : Trace d [] (d.detach child).2 := by
  unfold detach
  split
  · exact .refl
  · split
    · exact .refl
    · dsimp only
      split
      · exact Trace.refl.update _ _
      · exact (Trace.refl.update _ _).update _ _

theorem trace_append (parent child : NodeId) : Trace d [] (d.append parent child).2 := by
  have hdetach := trace_detach (d := d) child
  unfold append
  split
  · exact .refl
  split
  · exact .refl
  split
  · exact .refl
  split
  next heq =>
    rw [heq] at hdetach
    exact (hdetach.update _ _).update _ _
  next => exact hdetach

mutual

theorem trace_insertNode (parent : NodeId) : ∀ (m : Markup) (d : Document L),
    Trace d (nodeEvents m d) (d.insertNode parent m).2
  | .text s, d => by
    rw [nodeEvents, insertNode]
    exact (Trace.refl.alloc (.text s)).trans (trace_append _ _)
  | .comment s, d => by
    rw [nodeEvents, insertNode]
    exact (Trace.refl.alloc (.comment s)).trans (trace_append _ _)
  | .element tag attributes children, d => by
    have hforest := trace_insertForest (d.alloc (.element ⟨tag, attributes, none⟩)).1 children
      (d.alloc (.element ⟨tag, attributes, none⟩)).2
    have hall := (Trace.refl.alloc (.element ⟨tag, attributes, none⟩)).trans hforest
    rw [nodeEvents, insertNode_element]
    split
    next d₁ heq =>
      rw [heq] at hall
      simpa using hall.trans (trace_append parent _)
    next => exact hall

theorem trace_insertForest (parent : NodeId) : ∀ (forest : List Markup) (d : Document L),
    Trace d (forestEvents parent forest d) (d.insertForest parent forest).2
  | [], d => by
    rw [forestEvents, insertForest]
    exact .refl
  | m :: rest, d => by
    have hnode := trace_insertNode parent m d
    rw [forestEvents, insertForest]
    cases heq : d.insertNode parent m with
    | mk result d₁ =>
      rw [heq] at hnode
      cases result with
      | ok _ => exact hnode.trans (trace_insertForest parent rest d₁)
      | error e => exact hnode

end

theorem trace_clearChildren (h : d.Joined) (id : NodeId) :
    Trace d (d.clearEvents id) (d.clearChildren id) := by
  cases hn : d.node? id with
  | none =>
    rw [clearEvents, released, clearChildren, hn]
    exact .refl
  | some node =>
    have hlive := allLive_released h.linked id
    have hlive' : (d.childless id).AllLive (d.released id) :=
      ⟨hlive.1, fun y hy => (live_childless y).2 (hlive.2 y hy)⟩
    rw [(clearChildren_released h.linked hn).1]
    exact (Trace.refl.update id _).trans (trace_vacateAll hlive')

theorem trace_replaceByText (h : d.Joined) (id : NodeId) (s : String) :
    Trace d (d.replaceEvents id s) (d.replaceByText id s).2 := by
  have hclear := trace_clearChildren h id
  rw [replaceEvents, replaceByText]
  split
  · rwa [List.append_nil]
  · simpa using (hclear.alloc (.text s)).trans (trace_append id _)

theorem trace_setText (h : d.Joined) (id : NodeId) (s : String) :
    Trace d (d.textEvents id s) (d.setText id s).2 := by
  have hreplace := trace_replaceByText h id s
  rw [textEvents, setText]
  cases hn : d.node? id with
  | none => exact .refl
  | some node =>
    obtain ⟨parent, children, content, listeners⟩ := node
    cases content with
    | text t => exact Trace.refl.update _ _
    | comment t => exact Trace.refl.update _ _
    | _ =>
      dsimp only [Option.elim_some]
      generalize d.loneText? ⟨parent, children, _, listeners⟩ = lone
      cases lone with
      | none => simpa using hreplace
      | some child =>
        by_cases hs : s.isEmpty = true
        · simpa [hs] using hreplace
        · simpa [hs] using Trace.refl.update child _

theorem trace_setInner (h : d.Joined) (id : NodeId) (forest : List Markup) :
    Trace d (d.innerEvents id forest) (d.setInner id forest).2 := by
  rw [innerEvents, setInner, element?]
  cases hn : d.node? id with
  | none => exact .refl
  | some node =>
    obtain ⟨parent, children, content, listeners⟩ := node
    cases content with
    | element e => exact (trace_clearChildren h id).trans (trace_insertForest id forest _)
    | _ => exact .refl

theorem trace_updateElement (id : NodeId) (operation : NodeOperation) (f : Element → Element) :
    Trace d [] (d.updateElement id operation f).2 := by
  unfold updateElement
  split
  · exact .refl
  · split
    · exact Trace.refl.update _ _
    · exact .refl

theorem trace_addListener (id : NodeId) (eventType : String) (listener : L) :
    Trace d [] (d.addListener id eventType listener).2 := by
  unfold addListener
  split
  · exact .refl
  · split
    · exact Trace.refl.update _ _
    · exact .refl

/-- **One change**, done or refused, is a trace of its events. -/
theorem trace_apply (h : d.Joined) (e : Edit L) : Trace d (e.events d) (e.apply d).2 := by
  cases e with
  | createElement tag => exact Trace.refl.alloc _
  | createText s => exact Trace.refl.alloc _
  | append parent child => exact trace_append parent child
  | setText id s => exact trace_setText h id s
  | setInner id forest => exact trace_setInner h id forest
  | setAttribute id name value => exact trace_updateElement id _ _
  | removeAttribute id name => exact trace_updateElement id _ _
  | setValue id value => exact trace_updateElement id _ _
  | addListener id eventType listener => exact trace_addListener id eventType listener

theorem trace_run (h : d.Joined) (edits : List (Edit L)) :
    Trace d (d.runEvents edits) (d.run edits) := by
  induction edits generalizing d with
  | nil => exact .refl
  | cons e rest ih => exact (trace_apply h e).trans (ih (h.apply e))

/-- A run on a document of markup is a trace from a document without slots. -/
theorem trace_events (forest : List Markup) (edits : List (Edit L)) :
    Trace ⟨#[], []⟩ (events forest edits) ((ofForest forest).run edits) := by
  have hroot : Trace (⟨#[], []⟩ : Document L) [.taken root] empty := Trace.refl.alloc .document
  exact (hroot.trans (trace_insertForest root forest empty)).trans
    (trace_run (joined_ofForest forest) edits)

/-! ## What a slot has been through -/

/-- The generation of a slot; that of a slot which is not there yet is `0`. -/
def generationAt (d : Document L) (i : Nat) : UInt32 :=
  (d.slots[i]?).elim 0 NodeSlot.generation

/-- A slot holds a node. -/
def Occupied (d : Document L) (i : Nat) : Prop :=
  ∃ slot, d.slots[i]? = some slot ∧ slot.node.isSome

/-- A handle resolves if its slot holds a node and is of its generation. -/
theorem live_iff_generationAt {id : NodeId} :
    d.Live id ↔ d.Occupied id.index ∧ d.generationAt id.index = id.generation := by
  unfold Live node? Occupied generationAt
  cases d.slots[id.index]? with
  | none => simp
  | some slot => by_cases hg : slot.generation = id.generation <;> simp [hg]

theorem generationAt_eq {id : NodeId} (h : d.Live id) : d.generationAt id.index = id.generation :=
  (live_iff_generationAt.1 h).2

theorem generationAt_update (id : NodeId) (f : Node L → Node L) (i : Nat) :
    (d.update id f).generationAt i = d.generationAt i := by
  simp only [generationAt, update, Array.getElem?_modify]
  by_cases h : id.index = i
  · cases d.slots[i]? with
    | none => simp [h]
    | some slot => by_cases hg : slot.generation = id.generation <;> simp [h, hg]
  · simp [h]

theorem generationAt_vacate {id : NodeId} (hid : d.Live id) (i : Nat) :
    (d.vacate id).generationAt i =
      d.generationAt i + if id.index = i then 1 else 0 := by
  obtain ⟨node, hid⟩ := live_iff.1 hid
  simp only [generationAt, vacate, Array.getElem?_modify]
  by_cases h : id.index = i
  · simp [← h, node?_eq_some.1 hid]
  · simp [h]

theorem generationAt_alloc (h : d.Pooled) (content : NodeContent) (i : Nat) :
    (d.alloc content).2.generationAt i = d.generationAt i := by
  obtain ⟨j, free, g, -, hs, ha⟩ | ⟨-, ha⟩ := h.alloc_cases content
  · simp only [ha, generationAt, Array.getElem?_modify]
    by_cases hij : j = i
    · simp [← hij, hs]
    · simp [hij]
  · simp only [ha, generationAt, Array.getElem?_push]
    by_cases hi : i = d.slots.size <;> simp [hi]

/-- The slots of a document are as events have left them. -/
structure Recorded (d : Document L) (events : List SlotEvent) : Prop where
  /-- The free list names the empty slots. -/
  pooled : d.Pooled
  /-- The generation of a slot is the number of times it was vacated. -/
  generation : ∀ i, d.generationAt i = UInt32.ofNat (vacations i events)
  /-- A new node has a handle of the generation of that time, and holds its slot
      until that is vacated. -/
  taken : ∀ before id after, events = before ++ .taken id :: after →
    id.generation = UInt32.ofNat (vacations id.index before) ∧
      (vacations id.index after = 0 → d.Live id ∧ ∀ e ∈ after, e.slot ≠ id.index)
  /-- So has a released node. -/
  vacated : ∀ before id after, events = before ++ .vacated id :: after →
    id.generation = UInt32.ofNat (vacations id.index before)

/-- Where an event stands in a sequence that ends with one. -/
theorem split_concat {α : Type} {xs before after : List α} {x y : α}
    (h : xs ++ [x] = before ++ y :: after) :
    (xs = before ∧ x = y ∧ after = []) ∨
      ∃ rest, after = rest ++ [x] ∧ xs = before ++ y :: rest := by
  rcases List.eq_nil_or_concat after with rfl | ⟨rest, z, rfl⟩
  · obtain ⟨hxs, hx⟩ := List.append_inj' h rfl
    exact .inl ⟨hxs, List.singleton_inj.1 hx, rfl⟩
  · rw [List.concat_eq_append, ← List.cons_append, ← List.append_assoc] at h
    obtain ⟨hxs, hx⟩ := List.append_inj' h rfl
    rw [List.singleton_inj.1 hx]
    exact .inr ⟨rest, List.concat_eq_append, hxs⟩

namespace Recorded

variable {events : List SlotEvent}

theorem nil : Recorded (⟨#[], []⟩ : Document L) [] where
  pooled := joined_nil.pooled
  generation _ := rfl
  taken before id after h := absurd h.symm (by simp)
  vacated before id after h := absurd h.symm (by simp)

theorem update (h : d.Recorded events) (id : NodeId) (f : Node L → Node L) :
    (d.update id f).Recorded events where
  pooled := h.pooled.update id f
  generation i := (generationAt_update id f i).trans (h.generation i)
  taken before x after heq := by
    rw [live_update]
    exact h.taken before x after heq
  vacated := h.vacated

theorem alloc (h : d.Recorded events) (content : NodeContent) :
    (d.alloc content).2.Recorded (events ++ [.taken (d.alloc content).1]) := by
  have hnew := h.pooled.not_live_alloc content
  have hlive := h.pooled.live_alloc content
  have hgeneration := generationAt_alloc h.pooled content
  have hpooled := h.pooled.alloc content
  generalize d.alloc content = made at *
  obtain ⟨id, d'⟩ := made
  dsimp only at *
  have hid : d'.Live id := (hlive id).2 (.inl rfl)
  refine ⟨hpooled, fun i => ?_, fun before x after heq => ?_, fun before x after heq => ?_⟩
  · rw [hgeneration, h.generation, vacations_append]
    rfl
  · obtain ⟨rfl, hx, rfl⟩ | ⟨rest, rfl, hsplit⟩ := split_concat heq
    · obtain rfl := SlotEvent.taken.inj hx
      refine ⟨?_, fun _ => ⟨hid, by simp⟩⟩
      rw [← generationAt_eq hid, hgeneration, h.generation]
    · obtain ⟨hg, hk⟩ := h.taken before x rest hsplit
      refine ⟨hg, fun hzero => ?_⟩
      obtain ⟨hx, hrest⟩ := hk (by simpa using hzero)
      refine ⟨(hlive x).2 (.inr hx), fun e he => ?_⟩
      rcases List.mem_append.1 he with he | he
      · exact hrest e he
      · -- the slot of a node is not taken by another one
        obtain rfl := List.mem_singleton.1 he
        intro hslot
        exact hnew (eq_of_index_eq hid ((hlive x).2 (.inr hx)) hslot ▸ hx)
  · obtain ⟨-, hx, -⟩ | ⟨rest, rfl, hsplit⟩ := split_concat heq
    · cases hx
    · exact h.vacated before x rest hsplit

theorem vacate (h : d.Recorded events) {id : NodeId} (hid : d.Live id) :
    (d.vacate id).Recorded (events ++ [.vacated id]) where
  pooled := h.pooled.vacate hid
  generation i := by
    rw [generationAt_vacate hid, h.generation, vacations_append, vacations_vacated, vacations_nil,
      Nat.zero_add, UInt32.ofNat_add]
    split <;> rfl
  taken before x after heq := by
    obtain ⟨-, hx, -⟩ | ⟨rest, rfl, hsplit⟩ := split_concat heq
    · cases hx
    · obtain ⟨hg, hk⟩ := h.taken before x rest hsplit
      refine ⟨hg, fun hzero => ?_⟩
      rw [vacations_append, vacations_vacated, vacations_nil] at hzero
      have hne : id.index ≠ x.index := by
        intro heq
        simp [heq] at hzero
      obtain ⟨hx, hrest⟩ := hk (by omega)
      refine ⟨?_, fun e he => ?_⟩
      · have hxid : x ≠ id := fun hxid => hne (congrArg NodeId.index hxid.symm)
        rwa [Live, node?_vacate hid, if_neg hxid]
      · rcases List.mem_append.1 he with he | he
        · exact hrest e he
        · rw [List.mem_singleton.1 he]
          exact hne
  vacated before x after heq := by
    obtain ⟨rfl, hx, rfl⟩ | ⟨rest, rfl, hsplit⟩ := split_concat heq
    · obtain rfl := SlotEvent.vacated.inj hx
      rw [← generationAt_eq hid, h.generation]
    · exact h.vacated before x rest hsplit

/-- **A handle resolves** exactly when its slot holds a node and was vacated a
    multiple of `2 ^ 32` times since the handle was given out. -/
theorem live_iff (h : d.Recorded events) {before after : List SlotEvent} {id : NodeId}
    (heq : events = before ++ .taken id :: after) :
    d.Live id ↔ d.Occupied id.index ∧ UInt32.size ∣ vacations id.index after := by
  rw [live_iff_generationAt, h.generation, (h.taken before id after heq).1, heq, vacations_append,
    vacations_taken, ← UInt32.toNat_inj, UInt32.toNat_ofNat', UInt32.toNat_ofNat', UInt32.size]
  refine and_congr_right fun _ => ?_
  omega

/-- A released handle does not resolve, unless its slot is vacated very often. -/
theorem not_live_of_vacated (h : d.Recorded events) {id : NodeId} (hid : .vacated id ∈ events)
    (hfew : vacations id.index events < UInt32.size) : ¬ d.Live id := by
  obtain ⟨before, after, heq⟩ := List.append_of_mem hid
  intro hlive
  have hnow := generationAt_eq hlive
  rw [h.generation, h.vacated before id after heq, ← UInt32.toNat_inj, UInt32.toNat_ofNat',
    UInt32.toNat_ofNat', Nat.mod_eq_of_lt hfew] at hnow
  rw [heq, vacations_append, vacations_vacated, if_pos rfl] at hnow hfew
  rw [Nat.mod_eq_of_lt (by omega)] at hnow
  omega

end Recorded

/-- Every trace from a document without slots is recorded in the slots. -/
theorem Trace.recorded {es : List SlotEvent} (h : Trace ⟨#[], []⟩ es d) : d.Recorded es := by
  induction h with
  | refl => exact .nil
  | update _ id f ih => exact ih.update id f
  | alloc _ content ih => exact ih.alloc content
  | vacate _ hid ih => exact ih.vacate hid

/-- A handle that has been given out is not given out again, unless its slot is
    vacated very often. -/
theorem Recorded.not_taken_again {es : List SlotEvent} {id : NodeId}
    (h : d.Recorded (es ++ [.taken id])) (hfew : vacations id.index es < UInt32.size) :
    .taken id ∉ es := by
  intro hid
  obtain ⟨before, between, rfl⟩ := List.append_of_mem hid
  rw [vacations_append, vacations_taken] at hfew
  obtain ⟨hfirst, hheld⟩ := h.taken before id (between ++ [.taken id]) (by simp)
  obtain ⟨hsecond, -⟩ := h.taken (before ++ .taken id :: between) id [] rfl
  rw [hfirst, vacations_append, vacations_taken, ← UInt32.toNat_inj, UInt32.toNat_ofNat',
    UInt32.toNat_ofNat', Nat.mod_eq_of_lt hfew, Nat.mod_eq_of_lt (by omega)] at hsecond
  have hnone : vacations id.index (between ++ [.taken id]) = 0 := by
    rw [vacations_append, vacations_taken, vacations_nil]
    omega
  exact (hheld hnone).2 (.taken id) (by simp) rfl

theorem vacations_le_append (i : Nat) (es more : List SlotEvent) :
    vacations i es ≤ vacations i (es ++ more) := by
  rw [vacations_append]
  exact Nat.le_add_right _ _

theorem Trace.nodup_taken {es : List SlotEvent} (h : Trace ⟨#[], []⟩ es d)
    (hfew : ∀ i, vacations i es < UInt32.size) : (es.filterMap SlotEvent.taken?).Nodup := by
  induction h with
  | refl => exact List.nodup_nil
  | update _ id f ih => exact ih hfew
  | @alloc es d h content ih =>
    have hfew' : ∀ i, vacations i es < UInt32.size := fun i =>
      Nat.lt_of_le_of_lt (vacations_le_append i es _) (hfew i)
    have hnew := (h.alloc content).recorded.not_taken_again (hfew' _)
    rw [List.filterMap_append]
    refine (ih hfew').append (List.nodup_singleton _) fun id hid hlast => ?_
    obtain rfl : id = (d.alloc content).1 := by simpa [SlotEvent.taken?] using hlast
    obtain ⟨e, he, heid⟩ := List.mem_filterMap.1 hid
    cases e with
    | taken x => exact hnew (Option.some.inj heid ▸ he)
    | vacated x => cases heid
  | vacate h hid ih =>
    rw [List.filterMap_append]
    rw [show List.filterMap SlotEvent.taken? [.vacated _] = [] from rfl, List.append_nil]
    exact ih fun i => Nat.lt_of_le_of_lt (vacations_le_append i _ _) (hfew i)

/-! ## Handles that do not resolve -/

/-- The node that a change is made on. -/
def Edit.target? : Edit L → Option NodeId
  | createElement _ | createText _ => none
  | append id _ | setText id _ | setInner id _ | setAttribute id _ _ | removeAttribute id _
  | setValue id _ | addListener id _ _ => some id

/-- All that can be done with a handle that does not resolve: readings of it are
    empty, and changes are refused. -/
structure Stale (d : Document L) (id : NodeId) : Prop where
  live : ¬ d.Live id
  children : d.children id = []
  parent : d.parent? id = none
  kind : d.kind? id = none
  element : d.element? id = none
  attributes : d.attributes id = []
  byName : ∀ name, d.attribute? id name = none
  value : d.value? id = none
  listeners : ∀ eventType, d.listeners id eventType = []
  text : d.textContent id = ""
  inner : d.innerHtml? id = .error (.notFound id)
  outer : d.outerHtml? id = .error (.notFound id)
  /-- A change of its node is refused, and changes nothing. -/
  target : ∀ e : Edit L, e.target? = some id → e.apply d = (.error (.notFound id), d)
  /-- So is a move of its node. -/
  child : ∀ parent, ∃ e, d.append parent id = (.error e, d)

theorem stale_of_not_live {id : NodeId} (h : ¬ d.Live id) : d.Stale id := by
  have hnone : d.node? id = none := not_live_iff.1 h
  have hchildren : d.children id = [] := by rw [children, hnone, Option.elim_none]
  have helement : d.element? id = none := by rw [element?, hnone, Option.bind_none]
  have hattributes : d.attributes id = [] := by rw [attributes, helement, Option.elim_none]
  refine ⟨h, hchildren, ?_, ?_, helement, hattributes, ?_, ?_, ?_, ?_, ?_, ?_, ?_, ?_⟩
  · rw [parent?, hnone, Option.bind_none]
  · rw [kind?, hnone, Option.map_none]
  · intro name
    rw [attribute?, hattributes]
    rfl
  · rw [value?, helement, Option.bind_none]
  · intro eventType
    rw [Document.listeners, hnone, Option.elim_none]
  · rw [textContent, markup, outline?, outlineWithin?, hnone]
    rfl
  · rw [innerHtml?, hnone]
  · rw [outerHtml?, hnone]
  · intro e he
    cases e with
    | createElement | createText => cases he
    | append parent child =>
      obtain rfl : parent = id := Option.some.inj he
      simp [Edit.apply, Document.append, hnone]
    | setText x s | setInner x forest | setAttribute x name value | removeAttribute x name
    | setValue x value | addListener x eventType listener =>
      obtain rfl : x = id := Option.some.inj he
      simp [Edit.apply, setText, setInner, setAttribute, removeAttribute, setValue, updateElement,
        addListener, hnone]
  · intro parent
    cases hp : d.node? parent with
    | none => exact ⟨.notFound parent, by simp [Document.append, hp]⟩
    | some node =>
      cases hholds : node.content.holdsChildren with
      | false => exact ⟨.notAnElement parent .appendChild, by simp [Document.append, hp, hholds]⟩
      | true => exact ⟨.notFound id, by simp [Document.append, hp, hholds, hnone]⟩

end Document

/-- A user cannot change a node that is gone, and no event happens on it. -/
theorem Play.refused_of_stale {d : Document Listener} {id : NodeId} (h : d.Stale id)
    {w : World Reaction Stage} {n : DocumentId} (hd : w.stage.documents[n]? = some d)
    (engine : Engine) :
    (∀ text, input engine n id text w = (.error (.fault (.node (.notFound id))), w)) ∧
      ∀ event, dispatch engine n id event w = (.error (.fault (.node (.notFound id))), w) := by
  have hnone : d.node? id = none := Document.not_live_iff.1 h.live
  constructor
  · intro text
    unfold input
    rw [Effect.bind_apply, edit_refused _ hd (h.target (.setValue id text) rfl)]
  · intro event
    unfold dispatch
    rw [Effect.bind_apply, documentAt_apply hd]
    dsimp only
    rw [hnone]
    rfl

namespace Document

/-- **Handles are not confused** when slots are used again, whatever is done to a
    document of markup: a new node has its handle and its slot until the slot is
    vacated, and after that the handle resolves exactly when the slot holds a node
    and was vacated a multiple of `2 ^ 32` times.  While no slot was vacated so
    often, no handle is given out twice, and handles of released nodes are
    stale. -/
theorem handles_run (forest : List Markup) (edits : List (Edit Listener)) :
    Trace ⟨#[], []⟩ (events forest edits) ((ofForest forest).run edits) ∧
      (∀ before id after, events forest edits = before ++ .taken id :: after →
        (vacations id.index after = 0 →
          ((ofForest forest).run edits).Live id ∧ ∀ e ∈ after, e.slot ≠ id.index) ∧
        (((ofForest forest).run edits).Live id ↔
          ((ofForest forest).run edits).Occupied id.index ∧
            UInt32.size ∣ vacations id.index after)) ∧
      ((∀ i, vacations i (events forest edits) < UInt32.size) →
        ((events forest edits).filterMap SlotEvent.taken?).Nodup ∧
        ∀ id, .vacated id ∈ events forest edits →
          ((ofForest forest).run edits).Stale id ∧
          ∀ (engine : Engine) (n : DocumentId) (w : World Reaction Stage),
            w.stage.documents[n]? = some ((ofForest forest).run edits) →
              (∀ text, Play.input engine n id text w =
                (.error (.fault (.node (.notFound id))), w)) ∧
              ∀ event, Play.dispatch engine n id event w =
                (.error (.fault (.node (.notFound id))), w)) := by
  have htrace := trace_events forest edits
  have hrecorded := htrace.recorded
  refine ⟨htrace, fun before id after heq => ⟨?_, hrecorded.live_iff heq⟩, fun hfew =>
    ⟨htrace.nodup_taken hfew, fun id hid => ?_⟩⟩
  · exact (hrecorded.taken before id after heq).2
  · have hstale := stale_of_not_live (hrecorded.not_live_of_vacated hid (hfew _))
    exact ⟨hstale, fun engine n w hd => Play.refused_of_stale hstale hd engine⟩

/-- The text of an element is replaced, and the slot used again. -/
theorem handles_run_of_reuse :
    let forest := [Markup.element "p" [] [.text "a", .comment "b"]]
    let edits : List (Edit Listener) := [.setText ⟨1, 0⟩ "", .createText "c"]
    events forest edits =
        [.taken ⟨0, 0⟩, .taken ⟨1, 0⟩, .taken ⟨2, 0⟩, .taken ⟨3, 0⟩, .vacated ⟨2, 0⟩,
          .vacated ⟨3, 0⟩, .taken ⟨3, 1⟩] ∧
      ((ofForest forest).run edits).Live ⟨3, 1⟩ ∧ ((ofForest forest).run edits).Stale ⟨3, 0⟩ := by
  intro forest edits
  have hevents : events forest edits =
      [.taken ⟨0, 0⟩, .taken ⟨1, 0⟩, .taken ⟨2, 0⟩, .taken ⟨3, 0⟩, .vacated ⟨2, 0⟩,
        .vacated ⟨3, 0⟩, .taken ⟨3, 1⟩] := by decide
  obtain ⟨-, hheld, hstale⟩ := handles_run forest edits
  rw [hevents] at hheld hstale
  have hfew : ∀ i, vacations i [.taken ⟨0, 0⟩, .taken ⟨1, 0⟩, .taken ⟨2, 0⟩, .taken ⟨3, 0⟩,
      .vacated ⟨2, 0⟩, .vacated ⟨3, 0⟩, .taken ⟨3, 1⟩] < UInt32.size := fun i =>
    Nat.lt_of_le_of_lt List.countP_le_length (by decide)
  refine ⟨hevents, ?_, ?_⟩
  · exact ((hheld [.taken ⟨0, 0⟩, .taken ⟨1, 0⟩, .taken ⟨2, 0⟩, .taken ⟨3, 0⟩, .vacated ⟨2, 0⟩,
      .vacated ⟨3, 0⟩] ⟨3, 1⟩ [] rfl).1 rfl).1
  · exact ((hstale hfew).2 ⟨3, 0⟩ (by decide)).1

end Document

end DataBinding
