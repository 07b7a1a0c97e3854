/-
  What a write through an expression touches.

  In a `Store.Graph` keys lead to slots and slots to mappings that are there, and no slot
  is under two keys; mappings may be shared, and may hold themselves.

  * `Graph.observe`, `Graph.assign`, `Graph.watched`: plain data is a graph, and writes
    and watchers leave one;
  * `Store.Written`, `Store.Touched`: what is done to the key that is written, and what
    becomes of everything else;
  * `Graph.touched`: a write, and callbacks that neither write nor watch;
  * `Program.setPath_local`: a write through an expression, however it ends.
-/
import DataBinding.Proofs.Reactive.Layers
import DataBinding.Proofs.Reactive.Tame

namespace DataBinding

variable {R : Type}

/-! ## Entries by key -/

namespace Keyed

variable {α : Type} {entries : Keyed α} {key : String}

theorem put_of_get?_eq_none (h : get? entries key = none) (a : α) :
    put entries key a = entries ++ [(key, a)] := by
  induction entries with
  | nil => rfl
  | cons entry rest ih =>
    obtain ⟨k, b⟩ := entry
    rw [get?] at h
    split at h
    · cases h
    next hk => rw [put, if_neg hk, ih h, List.cons_append]

/-- An entry in its place. -/
theorem exists_of_get? {b : α} (h : get? entries key = some b) : ∃ front rest,
    entries = front ++ (key, b) :: rest ∧ key ∉ keys front ∧
      ∀ a, put entries key a = front ++ (key, a) :: rest := by
  induction entries with
  | nil => cases h
  | cons entry rest ih =>
    obtain ⟨k, c⟩ := entry
    rw [get?] at h
    split at h
    next hk =>
      obtain rfl := Option.some.inj h
      refine ⟨[], rest, by simp [hk], by simp [keys], fun a => ?_⟩
      rw [put, if_pos hk]
      simp [hk]
    next hk =>
      obtain ⟨front, rest, rfl, hfront, hput⟩ := ih h
      refine ⟨(k, c) :: front, rest, rfl, ?_, fun a => ?_⟩
      · simp only [keys, List.map_cons, List.mem_cons, not_or] at hfront ⊢
        exact ⟨Ne.symm hk, hfront⟩
      · rw [put, if_neg hk, hput, List.cons_append]

theorem get?_of_not_mem {front rest : Keyed α} (h : key ∉ keys front) (a : α) :
    get? (front ++ (key, a) :: rest) key = some a := by
  induction front with
  | nil => simp [get?]
  | cons entry front ih =>
    obtain ⟨k, b⟩ := entry
    simp only [keys, List.map_cons, List.mem_cons, not_or] at h
    rw [List.cons_append, get?, if_neg (Ne.symm h.1)]
    exact ih h.2

end Keyed

namespace Store

variable {s s' : Store R} {m : MappingId} {key : String} {v : Value}

/-! ## Graphs -/

/-- Keys lead to slots, slots lead to mappings, and no slot is under two keys. -/
structure Graph (s : Store R) : Prop extends Placed s where
  /-- A slot is under one key. -/
  single : ∀ m key m' key' i, s.slot? m key = some i → s.slot? m' key' = some i →
    m' = m ∧ key' = key

/-- A slot that is under no key yet, and leads to a mapping that is there. -/
structure Loose (s : Store R) (i : SlotId) : Prop where
  /-- The slot is there. -/
  lt : i < s.slots.size
  /-- It leads somewhere. -/
  mappings : ∀ id, s.valueAt i = .mapping id → id < s.mappings.size
  /-- It is under no key. -/
  slots : ∀ m key, s.slot? m key ≠ some i

/-- A slot stays loose while data is made beside it. -/
theorem Loose.annexes {i : SlotId} (h : s.Loose i) (hs : s.Annexes s') : s'.Loose i where
  lt := Nat.lt_of_lt_of_le h.lt hs.apart.slots_le
  mappings id hid := by
    rw [hs.valueAt h.lt] at hid
    exact Nat.lt_of_lt_of_le (h.mappings id hid) hs.apart.mappings_le
  slots m key hi := by
    by_cases hm : m < s.mappings.size
    · rw [hs.slot? hm] at hi
      exact h.slots m key hi
    · exact absurd h.lt (Nat.not_lt.2 (hs.apart.members m key i (Nat.le_of_not_lt hm) hi).1)

namespace Graph

/-- The keys and the values are all that matters. -/
theorem congr (h : s.Graph) (hmappings : s'.mappings = s.mappings)
    (hvalues : ∀ i, s'.valueAt i = s.valueAt i) (hsize : s'.slots.size = s.slots.size) :
    s'.Graph := by
  have hslot : ∀ m key, s'.slot? m key = s.slot? m key := by
    intro m key
    simp only [slot?, members, hmappings]
  refine ⟨⟨?_, ?_⟩, ?_⟩
  · intro m key i hi
    rw [hslot] at hi
    rw [hsize]
    exact h.slots m key i hi
  · rintro m id ⟨key, i, hi, hvalue⟩
    rw [hslot] at hi
    rw [hvalues] at hvalue
    rw [hmappings]
    exact h.mappings m id ⟨key, i, hi, hvalue⟩
  · intro m key m' key' i hi hi'
    rw [hslot] at hi hi'
    exact h.single m key m' key' i hi hi'

theorem empty : (Store.empty : Store R).Graph := by
  have hnone : ∀ m key, (Store.empty : Store R).slot? m key = none := fun _ _ => rfl
  refine ⟨⟨?_, ?_⟩, ?_⟩
  · intro m key i hi
    simp [hnone] at hi
  · rintro m id ⟨key, i, hi, -⟩
    simp [hnone] at hi
  · intro m key m' key' i hi
    simp [hnone] at hi

theorem watched (h : s.Graph) (root : MappingId) (expression : String) (label : R) (v : Value) :
    (s.watched root expression label v).Graph :=
  h.congr (mappings_watched s root expression label v)
    (valueAt_watched s root expression label v) (size_slots_watched s root expression label v)

/-- A write of a value that leads to a mapping that is there. -/
theorem assign (h : s.Graph) (hm : m < s.mappings.size)
    (hv : ∀ id, v = .mapping id → id < s.mappings.size) (key : String) :
    (s.assign m key v).Graph := by
  obtain ⟨t, ht, -, -⟩ := h.slot?_assign_self hm key v
  have hself : ∀ i, (s.assign m key v).slot? m key = some i → i = t := fun i hi =>
    Option.some.inj (hi.symm.trans ht)
  have hfresh : ∀ m' key', ¬ (m' = m ∧ key' = key) → s.slot? m' key' ≠ some t := by
    intro m' key' hne hslot
    obtain hold | ⟨-, rfl, -⟩ := slot?_assign s m key v ht
    · exact hne (h.single m key m' key' t hold hslot)
    · exact absurd (h.slots m' key' _ hslot) (Nat.lt_irrefl _)
  refine ⟨h.toPlaced.assign hm hv key, ?_⟩
  intro m₁ key₁ m₂ key₂ i h₁ h₂
  by_cases hkey₁ : m₁ = m ∧ key₁ = key
  · by_cases hkey₂ : m₂ = m ∧ key₂ = key
    · simp [hkey₁, hkey₂]
    · obtain ⟨rfl, rfl⟩ := hkey₁
      rw [slot?_assign_other s _ _ v hkey₂] at h₂
      exact absurd (hself i h₁ ▸ h₂) (hfresh m₂ key₂ hkey₂)
  · rw [slot?_assign_other s _ _ v hkey₁] at h₁
    by_cases hkey₂ : m₂ = m ∧ key₂ = key
    · obtain ⟨rfl, rfl⟩ := hkey₂
      exact absurd (hself i h₂ ▸ h₁) (hfresh m₁ key₁ hkey₁)
    · rw [slot?_assign_other s _ _ v hkey₂] at h₂
      exact h.single m₁ key₁ m₂ key₂ i h₁ h₂

theorem newSlot (h : s.Graph) (v : Value) : (s.newSlot v).2.Graph := by
  have hsize : (s.newSlot v).2.slots.size = s.slots.size + 1 := Array.size_push _
  refine ⟨⟨?_, ?_⟩, h.single⟩
  · intro m key i hi
    exact hsize ▸ Nat.lt_succ_of_lt (h.slots m key i hi)
  · rintro m id ⟨key, i, hi, hvalue⟩
    rw [valueAt_newSlot, if_neg (Nat.ne_of_lt (h.slots m key i hi))] at hvalue
    exact h.mappings m id ⟨key, i, hi, hvalue⟩

/-- A mapping of loose slots. -/
theorem newMapping (h : s.Graph) {slots : Keyed SlotId} (hslots : ∀ entry ∈ slots, s.Loose entry.2)
    (hnodup : (slots.map Prod.snd).Nodup) : (s.newMapping slots).2.Graph := by
  have hslot : ∀ m key i, (s.newMapping slots).2.slot? m key = some i →
      s.slot? m key = some i ∨ m = s.mappings.size ∧ (key, i) ∈ slots := by
    intro m key i hi
    rw [slot?, members, Store.newMapping, Array.getElem?_push] at hi
    split at hi
    next hm => exact .inr ⟨hm, Keyed.mem_of_get? hi⟩
    next => exact .inl hi
  have hsize : (s.newMapping slots).2.mappings.size = s.mappings.size + 1 := Array.size_push _
  refine ⟨⟨?_, ?_⟩, ?_⟩
  · intro m key i hi
    obtain hi | ⟨-, hmem⟩ := hslot m key i hi
    · exact h.slots m key i hi
    · exact (hslots _ hmem).lt
  · rintro m id ⟨key, i, hi, hvalue⟩
    rw [hsize]
    obtain hi | ⟨-, hmem⟩ := hslot m key i hi
    · exact Nat.lt_succ_of_lt (h.mappings m id ⟨key, i, hi, hvalue⟩)
    · exact Nat.lt_succ_of_lt ((hslots _ hmem).mappings id hvalue)
  · intro m key m' key' i hi hi'
    obtain hi | ⟨hm, hmem⟩ := hslot m key i hi
    · obtain hi' | ⟨-, hmem'⟩ := hslot m' key' i hi'
      · exact h.single m key m' key' i hi hi'
      · exact absurd hi ((hslots _ hmem').slots m key)
    · obtain hi' | ⟨hm', hmem'⟩ := hslot m' key' i hi'
      · exact absurd hi' ((hslots _ hmem).slots m' key')
      · have hsame := List.inj_on_of_nodup_map hnodup hmem' hmem rfl
        exact ⟨hm'.trans hm.symm, congrArg Prod.fst hsame⟩

mutual

/-- Plain data is a graph. -/
theorem observe : ∀ (j : Json) {s : Store R}, s.Graph → (s.observe j).2.Graph ∧
    ∀ id, (s.observe j).1 = .mapping id → id < (s.observe j).2.mappings.size
  | .null, _, h | .bool _, _, h | .number _, _, h | .string _, _, h | .array _, _, h =>
    ⟨h, fun _ => nofun⟩
  | .object members, s, h => by
    obtain ⟨h', hloose, hnodup⟩ := observeMembers members h
    refine ⟨h'.newMapping (fun entry hentry => (hloose entry hentry).1) hnodup, fun id hid => ?_⟩
    cases hid
    exact Nat.lt_of_lt_of_eq (Nat.lt_succ_self _) (Array.size_push _).symm

theorem observeMembers : ∀ (members : List (String × Json)) {s : Store R}, s.Graph →
    (s.observeMembers members).2.Graph ∧
      (∀ entry ∈ (s.observeMembers members).1,
        (s.observeMembers members).2.Loose entry.2 ∧ s.slots.size ≤ entry.2) ∧
      ((s.observeMembers members).1.map Prod.snd).Nodup
  | [], _, h => ⟨h, fun _ => nofun, .nil⟩
  | (key, j) :: rest, s, h => by
    obtain ⟨h₁, hvalue⟩ := observe j h
    have hle : s.slots.size ≤ (s.observe j).2.slots.size := (Annexes.observe s j).apart.slots_le
    obtain ⟨h₂, hloose, hnodup⟩ := observeMembers rest (h₁.newSlot (s.observe j).1)
    have hsize : ((s.observe j).2.newSlot (s.observe j).1).2.slots.size =
      (s.observe j).2.slots.size + 1 := Array.size_push _
    -- the new slot is under no key until the mapping is made
    have hfirst : ((s.observe j).2.newSlot (s.observe j).1).2.Loose (s.observe j).2.slots.size := by
      refine ⟨hsize ▸ Nat.lt_succ_self _, ?_, ?_⟩
      · intro id hid
        rw [valueAt_newSlot, if_pos rfl] at hid
        exact hvalue id hid
      · intro m key' hi
        exact absurd (h₁.slots m key' _ hi) (Nat.lt_irrefl _)
    rw [Store.observeMembers]
    refine ⟨h₂, List.forall_mem_cons.2 ⟨⟨hfirst.annexes ⟨.observeMembers _ rest,
      ((Enclosed.start _).observeMembers rest).1⟩, hle⟩, ?_⟩, ?_⟩
    · intro entry hentry
      obtain ⟨hentry, hlt⟩ := hloose entry hentry
      rw [hsize] at hlt
      exact ⟨hentry, Nat.le_trans (Nat.le_succ_of_le hle) hlt⟩
    · refine List.nodup_cons.2 ⟨?_, hnodup⟩
      intro hmem
      obtain ⟨entry, hentry, hsame⟩ := List.mem_map.1 hmem
      have hlt := (hloose entry hentry).2
      rw [hsize, hsame] at hlt
      exact absurd hlt (Nat.not_succ_le_self _)

end

end Graph

/-! ## Writes -/

/-- What a write does to its key. -/
inductive Written (s s' : Store R) (m : MappingId) (key : String) (v : Value) : Prop
  /-- A value other than a mapping goes to the slot that is there, which keeps its
      subscribers. -/
  | kept {i} (hi : s.slot? m key = some i) (hv : v.isMapping = false)
    (hmembers : s'.members m = s.members m) (hvalue : s'.valueAt i = v)
    (hsubscribers : s'.subscribers i = s.subscribers i)
  /-- A mapping goes to a new slot without subscribers, in the place of the one that is
      there. -/
  | renewed {front rest old i} (hbefore : s.members m = front ++ (key, old) :: rest)
    (hfront : key ∉ Keyed.keys front) (hv : v.isMapping = true)
    (hmembers : s'.members m = front ++ (key, i) :: rest) (hnew : s.slots.size ≤ i)
    (hvalue : s'.valueAt i = v) (hsubscribers : s'.subscribers i = [])
  /-- An absent key is put last, with a new slot without subscribers. -/
  | added {i} (habsent : key ∉ s.keys m) (hmembers : s'.members m = s.members m ++ [(key, i)])
    (hnew : s.slots.size ≤ i) (hvalue : s'.valueAt i = v) (hsubscribers : s'.subscribers i = [])

/-- One key of one mapping has been written, and nothing else has changed of what was
    there. -/
structure Touched (s s' : Store R) (m : MappingId) (key : String) (v : Value) : Prop where
  /-- The key. -/
  written : s.Written s' m key v
  /-- The other mappings have the keys and the slots that they had. -/
  members : ∀ m' < s.mappings.size, m' ≠ m → s'.members m' = s.members m'
  /-- The slots under other keys are the same, with their values and their subscribers. -/
  others : ∀ m' key' i, s.slot? m' key' = some i → ¬ (m' = m ∧ key' = key) →
    s'.slot? m' key' = some i ∧ s'.valueAt i = s.valueAt i ∧ s'.subscribers i = s.subscribers i

theorem members_install (hm : m < s.mappings.size) (key : String) (v : Value) :
    (s.install m key v).members m = Keyed.put (s.members m) key s.slots.size := by
  change ((s.mappings.modify m _)[m]?).getD [] = _
  rw [Array.getElem?_modify, if_pos rfl, Store.members, Array.getElem?_eq_getElem hm]
  rfl

theorem members_install_other {m' : MappingId} (hm : m' ≠ m) (key : String) (v : Value) :
    (s.install m key v).members m' = s.members m' := by
  change ((s.mappings.modify m _)[m']?).getD [] = _
  rw [Array.getElem?_modify, if_neg (Ne.symm hm)]
  rfl

theorem members_assign_other {m' : MappingId} (hm : m' ≠ m) (key : String) (v : Value) :
    (s.assign m key v).members m' = s.members m' := by
  unfold assign
  split
  · exact members_install_other hm key v
  · split
    · exact members_install_other hm key v
    · rfl

/-- **A write does to its key** what the key and the value ask for. -/
theorem Placed.written (h : s.Placed) (hm : m < s.mappings.size) (key : String) (v : Value) :
    s.Written (s.assign m key v) m key v := by
  have hsubscribers := s.subscribers_assign m key v
  have hquiet : s.subscribers s.slots.size = [] := s.subscribers_of_size_le (Nat.le_refl _)
  have hmembers := members_install (s := s) hm key v
  have hvalue : (s.install m key v).valueAt s.slots.size = v := by
    rw [valueAt_install, if_pos rfl]
  cases hslot : s.slot? m key with
  | none =>
    have hassign : s.assign m key v = s.install m key v := by rw [Store.assign, hslot]
    rw [Keyed.put_of_get?_eq_none hslot] at hmembers
    have habsent : key ∉ s.keys m := by
      rw [keys, ← Keyed.get?_isSome_iff]
      intro hsome
      rw [slot?] at hslot
      simp [hslot] at hsome
    refine .added habsent (hassign ▸ hmembers) (Nat.le_refl _) (hassign ▸ hvalue) ?_
    rw [hsubscribers, hquiet]
  | some i =>
    have hi := h.slots m key i hslot
    cases hv : v.isMapping with
    | true =>
      have hassign : s.assign m key v = (s.install m key v).write i v := by
        rw [Store.assign, hslot]
        simp [hv]
      obtain ⟨front, rest, hbefore, hfront, hput⟩ := Keyed.exists_of_get? hslot
      rw [hput] at hmembers
      refine .renewed hbefore hfront hv (hassign ▸ hmembers) (Nat.le_refl _) ?_ ?_
      · rw [hassign, valueAt_write, hvalue, ite_self]
      · rw [hsubscribers, hquiet]
    | false =>
      have hassign : s.assign m key v = s.write i v := by
        rw [Store.assign, hslot]
        simp [hv]
      refine .kept hslot hv (hassign ▸ rfl) ?_ (hsubscribers i)
      rw [hassign, valueAt_write, if_pos ⟨rfl, hi⟩]

/-- Whatever else a write leaves as it was. -/
theorem Graph.touched_assign (h : s.Graph) (hm : m < s.mappings.size) (key : String) (v : Value) :
    s.Touched (s.assign m key v) m key v where
  written := h.written hm key v
  members m' _ hne := members_assign_other hne key v
  others m' key' i hi hne := by
    refine ⟨?_, ?_, subscribers_assign s m key v i⟩
    · rw [slot?_assign_other s m key v hne]
      exact hi
    · obtain hsame | ⟨-, rfl | hold⟩ := valueAt_assign s m key v i
      · exact hsame
      · exact absurd (h.slots m' key' _ hi) (Nat.lt_irrefl _)
      · exact absurd (h.single m key m' key' i hold hi) hne

/-- What is done to the key stays while watchers are evaluated. -/
theorem Written.after {s₁ s₂ : Store R} {done : List WatcherId} (h : s.Written s₁ m key v)
    (hafter : s₁.After done s₂) (hm : m < s₁.mappings.size)
    (hslots : ∀ i, s₁.slot? m key = some i → i < s₁.slots.size) : s.Written s₂ m key v := by
  have hmembers := hafter.data.members hm
  have hvalue : ∀ i, s₁.slot? m key = some i → s₂.valueAt i = s₁.valueAt i :=
    fun i hi => hafter.data.valueAt (hslots i hi)
  cases h with
  | @kept i hi hv hmembers₁ hvalue₁ hsubscribers =>
    have hi₁ : s₁.slot? m key = some i := by
      rw [slot?, hmembers₁]
      exact hi
    exact .kept hi hv (hmembers.trans hmembers₁) ((hvalue i hi₁).trans hvalue₁)
      ((hafter.subscribers i).trans hsubscribers)
  | @renewed front rest old i hbefore hfront hv hmembers₁ hnew hvalue₁ hsubscribers =>
    have hi₁ : s₁.slot? m key = some i := by
      rw [slot?, hmembers₁, Keyed.get?_of_not_mem hfront]
    exact .renewed hbefore hfront hv (hmembers.trans hmembers₁) hnew ((hvalue i hi₁).trans hvalue₁)
      ((hafter.subscribers i).trans hsubscribers)
  | @added i habsent hmembers₁ hnew hvalue₁ hsubscribers =>
    have hi₁ : s₁.slot? m key = some i := by
      rw [slot?, hmembers₁, Keyed.get?_of_not_mem habsent]
    exact .added habsent (hmembers.trans hmembers₁) hnew ((hvalue i hi₁).trans hvalue₁)
      ((hafter.subscribers i).trans hsubscribers)

/-- **A write, and evaluations of watchers after it,** touch the key that is written. -/
theorem Graph.touched (h : s.Graph) (hm : m < s.mappings.size) {done : List WatcherId}
    (hafter : (s.assign m key v).After done s') : s.Touched s' m key v := by
  obtain ⟨hwritten, hmembers, hothers⟩ := h.touched_assign hm key v
  have hsize := size_mappings_assign s m key v
  obtain ⟨t, ht, -, hlt⟩ := h.slot?_assign_self hm key v
  refine ⟨hwritten.after hafter (hsize ▸ hm) fun i hi => ?_, fun m' hm' hne => ?_,
    fun m' key' i hi hne => ?_⟩
  · exact Option.some.inj (ht.symm.trans hi) ▸ hlt
  · exact (hafter.data.members (hsize ▸ hm')).trans (hmembers m' hm' hne)
  · obtain ⟨hslot, hvalue, hsubscribers⟩ := hothers m' key' i hi hne
    have hlt : i < (s.assign m key v).slots.size :=
      Nat.lt_of_lt_of_le (h.slots m' key' i hi) (size_slots_assign_le s m key v)
    exact ⟨hafter.data.slot? hslot, (hafter.data.valueAt hlt).trans hvalue,
      (hafter.subscribers i).trans hsubscribers⟩

end Store

namespace Program

variable {K S : Type} {callback : K → Value → Program K S}

/-- **A write through an expression** that does not resolve changes nothing and evaluates
    nothing.  Any other one goes to the key that its keys lead to and, whether or not a
    watcher fails that it notifies, touches nothing else, if callbacks neither write nor
    watch. -/
theorem setPath_local (hcallback : ∀ label v, (callback label v).Tame) (depth : Nat)
    {u : World K (Scene K S)} (hgraph : u.store.Graph) (hidle : u.store.collecting = [])
    {root : MappingId} (hroot : root < u.store.mappings.size) (expression : String) (v : Value) :
    let after := Effect.setPath (reactions callback depth) root expression v u
    (∀ err, (u.store.target root expression).2 = .error err →
      after = (.error (.fault (.path err)), u)) ∧
    ∀ m key, (u.store.target root expression).2 = .ok (m, key) →
      (∃ path slots, Text.Aims expression path key ∧
        u.store.Leads (.mapping root) path slots (.mapping m)) ∧
      u.store.Touched after.2.store m key v := by
  intro after
  have htrack := u.store.trackAll_of_not_collecting hidle (u.store.target root expression).1
  constructor
  · intro err htarget
    change Effect.setPath _ root expression v u = _
    rw [Effect.setPath_of_error _ htarget, htrack]
  · intro m key htarget
    obtain ⟨path, slots, haims, -, hleads⟩ := Store.exists_leads_of_target htarget
    have hm : m < u.store.mappings.size :=
      Store.lt_of_reach (fun _ id _ hc => hgraph.mappings _ id hc) hroot hleads.reach
    refine ⟨⟨path, slots, haims, hleads⟩, ?_⟩
    have hset : after = Effect.set (reactions callback depth) m key v u := by
      change Effect.setPath _ root expression v u = _
      rw [Effect.setPath_of_ok _ htarget, htrack]
    rw [hset]
    cases hslot : u.store.slot? m key with
    | none =>
      rw [Effect.set_assign_of_none _ hslot]
      exact hgraph.touched hm (.refl _)
    | some i =>
      rw [Effect.set_assign_of_some _ hslot]
      have hassigned : (u.store.assign m key v).collecting = [] :=
        (u.store.collecting_assign m key v).trans hidle
      obtain ⟨done, hafter⟩ := Effect.Tame.notify (tame_reactions hcallback depth) i
        { u with store := u.store.assign m key v } hassigned
      exact hgraph.touched hm hafter

/-- A mapping that holds itself, in which a text is watched. -/
def knot : World Unit (Scene Unit Unit) where
  store := ((Store.empty.observe (.object [("a", .object [("b", .string "x")])])).2.assign 1 "self"
    (.mapping 1)).watched 1 "a.b" () (.string "x")
  stage := ⟨(), [], []⟩

/-- A write on a roundabout way, where the watcher fails, touches the text; one that does not
    resolve does nothing. -/
theorem setPath_local_of_knot :
    let react := reactions (fun _ _ => .done (.error (.missing .value)) :
      Unit → Value → Program Unit Unit) 1
    let after := Effect.setPath react 1 "self.self.a.b" (.string "y") knot
    after.1.isOk = false ∧ knot.store.Touched after.2.store 0 "b" (.string "y") ∧
      Effect.setPath react 1 "self.b.c" (.string "y") knot =
        (.error (.fault (.path (.missingKey "self.b.c" "b"))), knot) := by
  intro react after
  have hdata := Store.Graph.empty (R := Unit).observe
    (.object [("a", .object [("b", .string "x")])])
  have hgraph : knot.store.Graph :=
    (hdata.1.assign (m := 1) (by decide) (by rintro id ⟨⟩; decide) "self").watched 1 "a.b" ()
      (.string "x")
  have htame : ∀ label v, ((fun _ _ => .done (.error (.missing .value)) :
      Unit → Value → Program Unit Unit) label v).Tame := fun _ _ => trivial
  have hroot : 1 < knot.store.mappings.size := by decide +kernel
  have hlocal := setPath_local htame 1 hgraph (by decide +kernel) hroot
  refine ⟨by decide +kernel, ?_, ?_⟩
  · exact ((hlocal "self.self.a.b" (.string "y")).2 0 "b" (by with_unfolding_all rfl)).2
  · exact (hlocal "self.b.c" (.string "y")).1 _ (by with_unfolding_all rfl)

end Program

end DataBinding
