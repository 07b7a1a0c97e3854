/-
  How many nodes there are, and which handles new ones get.

  The events of a change tell how many nodes it adds and takes away, and the handles
  that it gives out.

  * `Trace.generations`: the generations of slots after changes of them;
  * `Trace.nodeCount_eq`: there is one node more for each slot that is taken, and one
    less for each that is vacated;
  * `forestEvents_eq`: nodes of markup take their slots in document order;
  * `Trace.numbered`: as long as no slot is vacated, new nodes get the slots that follow
    the last one;
  * `not_taken_before`: the handles of new nodes were not given out before, unless a
    slot was vacated very often.
-/
import DataBinding.Proofs.Document.Graft
import DataBinding.Proofs.Document.History

namespace DataBinding

/-! ## Outlines of markup -/

namespace Outline

mutual

theorem length_of_stands : ∀ {o : Outline} {m : Markup}, o.Stands m → o.preorder.length = m.size
  | node _ _ _, .text _, ⟨_, rfl⟩ => rfl
  | node _ _ _, .comment _, ⟨_, rfl⟩ => rfl
  | node _ _ _, .element _ _ _, ⟨_, h⟩ => by
    rw [preorder, List.length_cons, length_of_standAll h, Markup.size, Nat.add_comm]

/-- The outlines of a forest have as many nodes as the forest. -/
theorem length_of_standAll : ∀ {os : List Outline} {forest : List Markup},
    StandAll os forest → (preorderAll os).length = Markup.sizeAll forest
  | [], [], _ => rfl
  | _ :: _, _ :: _, ⟨h, h'⟩ => by
    rw [preorderAll, List.length_append, length_of_stands h, length_of_standAll h', Markup.sizeAll]

end

end Outline

namespace Document

open Outline (preorderAll)

variable {L : Type} {d d' : Document L} {x p : NodeId} {node : Node L}
  {os os' : List Outline}

/-! ## Generations of slots -/

theorem Trace.pooled {es : List SlotEvent} (h : Trace d es d') (hd : d.Pooled) : d'.Pooled := by
  induction h with
  | refl => exact hd
  | update _ id f ih => exact ih.update id f
  | alloc _ content ih => exact ih.alloc content
  | vacate _ hid ih => exact ih.vacate hid

/-- **The generation of a slot** counts how often it is vacated. -/
theorem Trace.generations {es : List SlotEvent} (h : Trace d es d') (hd : d.Pooled) (i : Nat) :
    d'.generationAt i = d.generationAt i + UInt32.ofNat (vacations i es) := by
  induction h with
  | refl =>
    rw [vacations_nil]
    exact (UInt32.add_zero _).symm
  | update _ id f ih => exact (generationAt_update id f i).trans ih
  | alloc h content ih =>
    rw [generationAt_alloc (h.pooled hd), ih, vacations_append, vacations_taken, vacations_nil,
      Nat.add_zero]
  | vacate _ hid ih =>
    rw [generationAt_vacate hid, ih, vacations_append, vacations_vacated, vacations_nil,
      Nat.zero_add, UInt32.ofNat_add, ← UInt32.add_assoc]
    split <;> rfl

/-- A node is gone once its slot has been vacated. -/
theorem Trace.not_live {es : List SlotEvent} (h : Trace d es d') (hd : d.Pooled) (hx : d.Live x)
    (honce : vacations x.index es = 1) : ¬ d'.Live x := by
  intro hx'
  have heq := h.generations hd x.index
  rw [generationAt_eq hx', generationAt_eq hx, honce] at heq
  have hone : UInt32.ofNat 1 = 0 := UInt32.add_eq_left.1 heq.symm
  exact absurd hone (by decide)

mutual

theorem vacations_nodeEvents (i : Nat) : ∀ (m : Markup) (d : Document L),
    vacations i (nodeEvents m d) = 0
  | .text s, d => by rw [nodeEvents, vacations_taken, vacations_nil]
  | .comment s, d => by rw [nodeEvents, vacations_taken, vacations_nil]
  | .element tag attributes children, d => by
    rw [nodeEvents, vacations_taken, vacations_forestEvents]

/-- Adding nodes of markup vacates nothing. -/
theorem vacations_forestEvents (i : Nat) (parent : NodeId) :
    ∀ (forest : List Markup) (d : Document L),
    vacations i (forestEvents parent forest d) = 0
  | [], d => rfl
  | m :: rest, d => by
    rw [forestEvents]
    split
    · rw [vacations_append, vacations_nodeEvents, vacations_forestEvents]
    · exact vacations_nodeEvents i m d

end

/-- Clearing the children of a node vacates the slots of the nodes under it once. -/
theorem vacations_clearEvents (h : d.Linked) (hx : d.Under p x) :
    vacations x.index (d.clearEvents p) = 1 := by
  obtain ⟨hnodup, hlive⟩ := allLive_released h p
  have hmem := (mem_released h).2 hx
  have hcount : vacations x.index (d.clearEvents p) = (d.released p).count x := by
    rw [clearEvents, vacations, List.countP_map, List.count]
    refine List.countP_congr fun y hy => ?_
    have hindex : y.index = x.index ↔ y = x :=
      ⟨eq_of_index_eq (hlive y hy) (hx.live h), congrArg _⟩
    simp [SlotEvent.taken?, SlotEvent.slot, hindex]
  rw [hcount, List.count_eq_one_of_mem hnodup hmem]

/-! ## The number of nodes -/

theorem Pooled.nodeCount_alloc (h : d.Pooled) (content : NodeContent) :
    (d.alloc content).2.nodeCount = d.nodeCount + 1 := by
  have hle := h.free_length_le
  obtain ⟨i, free, g, hf, -, ha⟩ | ⟨hf, ha⟩ := h.alloc_cases content
  · rw [hf, List.length_cons] at hle
    simp only [ha, nodeCount, hf, List.length_cons, Array.size_modify]
    omega
  · simp only [ha, nodeCount, hf, List.length_nil, Array.size_push]
    omega

theorem Pooled.nodeCount_vacate (h : d.Pooled) {id : NodeId} (hid : d.Live id) :
    (d.vacate id).nodeCount + 1 = d.nodeCount := by
  have hle := (h.vacate hid).free_length_le
  have hfree : (d.vacate id).free = id.index :: d.free := rfl
  rw [hfree, List.length_cons, vacate_size] at hle
  rw [nodeCount, nodeCount, hfree, List.length_cons, vacate_size]
  omega

/-- **The number of nodes** is larger by one for each slot that is taken, and smaller by
    one for each that is vacated. -/
theorem Trace.nodeCount_eq {es : List SlotEvent} (h : Trace d es d') (hd : d.Pooled) :
    d'.nodeCount + es.countP (·.taken?.isNone) = d.nodeCount + es.countP (·.taken?.isSome) := by
  induction h with
  | refl => rfl
  | update _ id f ih => rwa [update_nodeCount]
  | @alloc es d₁ h content ih =>
    have hnone : [SlotEvent.taken (d₁.alloc content).1].countP (·.taken?.isNone) = 0 := rfl
    have hsome : [SlotEvent.taken (d₁.alloc content).1].countP (·.taken?.isSome) = 1 := rfl
    rw [(h.pooled hd).nodeCount_alloc, List.countP_append, List.countP_append, hnone, hsome]
    omega
  | @vacate es d₁ h id hid ih =>
    have hnone : [SlotEvent.vacated id].countP (·.taken?.isNone) = 1 := rfl
    have hsome : [SlotEvent.vacated id].countP (·.taken?.isSome) = 0 := rfl
    have hcount := (h.pooled hd).nodeCount_vacate hid
    rw [List.countP_append, List.countP_append, hnone, hsome]
    omega

/-- As long as no slot is vacated, and none is empty at the start, new nodes get the
    slots that follow the last one, in order. -/
theorem Trace.numbered {es : List SlotEvent} (h : Trace d es d') (hd : d.free = [])
    (hes : ∀ e ∈ es, e.taken?.isSome) :
    d'.free = [] ∧ d'.slots.size = d.slots.size + es.length ∧
      es = (List.range' d.slots.size es.length).map fun i => .taken ⟨i, 0⟩ := by
  induction h with
  | refl => exact ⟨hd, rfl, rfl⟩
  | update _ id f ih =>
    rw [update_free, update_size]
    exact ih hes
  | @alloc es d₁ h content ih =>
    obtain ⟨hfree, hsize, heq⟩ := ih fun e he => hes e (List.mem_append_left _ he)
    rw [alloc_nil content hfree]
    refine ⟨rfl, ?_, ?_⟩
    · rw [Array.size_push, hsize, List.length_append, List.length_singleton, Nat.add_assoc]
    · rw [List.length_append, List.length_singleton, List.range'_concat, List.map_append, ← heq,
        hsize, Nat.one_mul]
      rfl
  | @vacate es d₁ h id hid ih =>
    have hlast := hes (.vacated id) (by simp)
    cases hlast

/-! ## Nodes of markup -/

/-- The outlines that have been put below a node are determined by the document. -/
theorem Grafted.unique (h : Grafted d d' p node os) (h' : Grafted d d' p node os') : os = os' := by
  have hids : os.map Outline.id = os'.map Outline.id := by
    have hhere := h.here
    rw [h'.here, Option.some.injEq, Node.mk.injEq] at hhere
    exact (List.append_cancel_left hhere.2.1).symm
  exact Outline.eq_of_ids hids fun o ho o' ho' =>
    (h.fresh o ho).reads.unique (h'.fresh o' ho').reads

mutual

theorem nodeEvents_eq : ∀ (m : Markup) {d d' : Document L} {p : NodeId} {node : Node L}
    {o : Outline}, d.Joined → d.node? p = some node → node.content.holdsChildren = true →
      d.insertNode p m = (.ok (), d') → Grafted d d' p node [o] →
        nodeEvents m d = o.preorder.map .taken
  | .text s, d, d', p, node, o, h, hp, hholds, hd', hg => by
    have hg₀ : Grafted (d.alloc (.text s)).2 _ _ _ [] := .refl (h.alloc (.text s))
      ((h.pooled.node?_alloc (.text s) _).trans (if_pos rfl))
    obtain ⟨d'', hd'', hg'⟩ := Grafted.link h hp hholds (fun _ => rfl) hg₀
    obtain rfl : d'' = d' := congrArg Prod.snd (hd''.symm.trans hd')
    obtain rfl := List.singleton_inj.1 (hg.unique hg')
    rfl
  | .comment s, d, d', p, node, o, h, hp, hholds, hd', hg => by
    have hg₀ : Grafted (d.alloc (.comment s)).2 _ _ _ [] := .refl (h.alloc (.comment s))
      ((h.pooled.node?_alloc (.comment s) _).trans (if_pos rfl))
    obtain ⟨d'', hd'', hg'⟩ := Grafted.link h hp hholds (fun _ => rfl) hg₀
    obtain rfl : d'' = d' := congrArg Prod.snd (hd''.symm.trans hd')
    obtain rfl := List.singleton_inj.1 (hg.unique hg')
    rfl
  | .element tag attributes children, d, d', p, node, o, h, hp, hholds, hd', hg => by
    have hjoined := h.alloc (.element ⟨tag, attributes, none⟩)
    have hnew := (h.pooled.node?_alloc (.element ⟨tag, attributes, none⟩) _).trans (if_pos rfl)
    obtain ⟨d₁, os, hd₁, hg₁, -⟩ := insertForest_grafted children hjoined hnew rfl
    obtain ⟨d'', hd'', hg'⟩ := Grafted.link h hp hholds (fun hnot => by cases hnot) hg₁
    rw [insertNode_element, hd₁] at hd'
    obtain rfl : d'' = d' := congrArg Prod.snd (hd''.symm.trans hd')
    obtain rfl := List.singleton_inj.1 (hg.unique hg')
    rw [nodeEvents, forestEvents_eq children hjoined hnew rfl hd₁ hg₁]
    rfl

/-- **Nodes of markup** take their slots in document order. -/
theorem forestEvents_eq : ∀ (forest : List Markup) {d d' : Document L} {p : NodeId} {node : Node L}
    {os : List Outline}, d.Joined → d.node? p = some node → node.content.holdsChildren = true →
      d.insertForest p forest = (.ok (), d') → Grafted d d' p node os →
        forestEvents p forest d = (preorderAll os).map .taken
  | [], d, d', p, node, os, h, hp, _, hd', hg => by
    obtain rfl : d = d' := congrArg Prod.snd hd'
    obtain rfl := hg.unique (.refl h hp)
    rfl
  | m :: rest, d, d', p, node, os, h, hp, hholds, hd', hg => by
    obtain ⟨d₁, o, hd₁, hg₁, -⟩ := insertNode_grafted m h hp hholds
    obtain ⟨d₂, os', hd₂, hg₂, -⟩ := insertForest_grafted rest hg₁.joined hg₁.here hholds
    rw [insertForest, hd₁] at hd'
    obtain rfl : d₂ = d' := congrArg Prod.snd (hd₂.symm.trans hd')
    obtain rfl := hg.unique (hg₁.trans hp hg₂)
    rw [forestEvents, hd₁]
    dsimp only
    rw [nodeEvents_eq m h hp hholds hd₁ hg₁,
      forestEvents_eq rest hg₁.joined hg₁.here hholds hd₂ hg₂, preorderAll, List.map_append]

end

/-! ## Handles that were not given out before -/

/-- The handles that a change gives out were not given out before, unless a slot was
    vacated very often. -/
theorem not_taken_before {forest : List Markup} {edits : List (Edit L)} {e : Edit L}
    (hfew : ∀ i, vacations i (events forest (edits ++ [e])) < UInt32.size) {x : NodeId}
    (hx : .taken x ∈ e.events ((ofForest forest).run edits)) : .taken x ∉ events forest edits := by
  have hnodup := (trace_events forest (edits ++ [e])).nodup_taken hfew
  rw [events_append, List.filterMap_append, List.nodup_append'] at hnodup
  intro hbefore
  have hmem : ∀ {es : List SlotEvent}, .taken x ∈ es → x ∈ es.filterMap SlotEvent.taken? :=
    fun hes => List.mem_filterMap.2 ⟨.taken x, hes, rfl⟩
  exact hnodup.2.2 (hmem hbefore) (hmem (List.mem_append_left _ hx))

end Document

end DataBinding
