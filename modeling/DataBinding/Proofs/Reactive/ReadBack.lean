/-
  Reading what was written through an expression.

  A reading looks up the keys of an expression, a write looks up the last but one
  without the blanks at its end (`Text.Aims`).  On plain data that nobody watches both
  are what they are on the data itself, so that they meet if no blank stands before the
  last dot, and miss each other otherwise.

  * `Json.find?`: a reading of plain data; `find?_put?` and `find?_put?_other` say what
    it comes to after a write;
  * `Store.Unwatched`: a mapping stands for plain data, and nobody watches it;
  * `Unwatched.writeJson`: a write leaves it so, and is a write to the plain data;
  * `Effect.writeJson_read`: what is read through an expression after a write.
-/
import DataBinding.Proofs.Reactive.Layers

namespace DataBinding

variable {R σ : Type}

/-! ## Plain data -/

namespace Json

/-- What is found under keys in plain data: null, if the last one is absent. -/
def find? : List String → Json → Option Json
  | [], j => some j
  | key :: rest, .object members =>
    if key.isEmpty then none
    else
      match Keyed.get? members key with
      | some j => find? rest j
      | none => if rest.isEmpty then some .null else none
  | _ :: _, _ => none

variable {key x x' : String} {new : Json}

/-- What is written is found where it is written. -/
theorem find?_put? : ∀ {path : List String} {j j' : Json}, put? key new path j = some j' →
    (∀ k ∈ path, k.isEmpty = false) → key.isEmpty = false →
      find? (path ++ [key]) j' = some new := by
  intro path
  induction path with
  | nil =>
    intro j j' h _ hkey
    cases j with
    | object members =>
      obtain rfl := Option.some.inj h
      simp [find?, hkey, Keyed.get?_put_self]
    | _ => cases h
  | cons step path ih =>
    intro j j' h hpath hkey
    obtain ⟨hstep, hpath⟩ := List.forall_mem_cons.1 hpath
    cases j with
    | object members =>
      rw [put?] at h
      obtain ⟨j₁, hj₁, h⟩ := Option.bind_eq_some_iff.1 h
      obtain ⟨j₁', hj₁', rfl⟩ := Option.map_eq_some_iff.1 h
      rw [List.cons_append, find?, if_neg (by simp [hstep]), Keyed.get?_put_self]
      exact ih hj₁' hpath hkey
    | _ => cases h

/-- What is written below another key is not met. -/
theorem find?_put?_other (hne : x ≠ x') : ∀ {front : List String} {j j' : Json},
    put? key new (front ++ [x']) j = some j' →
      ∀ keys, find? (front ++ x :: keys) j' = find? (front ++ x :: keys) j := by
  intro front
  induction front with
  | nil =>
    intro j j' h keys
    cases j with
    | object members =>
      rw [List.nil_append, put?] at h
      obtain ⟨j₁, -, h⟩ := Option.bind_eq_some_iff.1 h
      obtain ⟨j₁', -, rfl⟩ := Option.map_eq_some_iff.1 h
      simp only [List.nil_append, find?, Keyed.get?_put_other _ _ hne]
    | _ => cases h
  | cons step front ih =>
    intro j j' h keys
    cases j with
    | object members =>
      rw [List.cons_append, put?] at h
      obtain ⟨j₁, hj₁, h⟩ := Option.bind_eq_some_iff.1 h
      obtain ⟨j₁', hj₁', rfl⟩ := Option.map_eq_some_iff.1 h
      simp only [List.cons_append, find?, Keyed.get?_put_self, hj₁, ih hj₁']
    | _ => cases h

end Json

/-! ## Reactive data -/

namespace Store

variable {s : Store R}

/-- **A reading of a tree** is one of the plain data that it stands for. -/
theorem Tree.find? {path : String} : ∀ {keys : List String} {j : Json} {v : Value}, s.Tree j v →
    (s.walk path v keys).2.toOption.bind s.toJson? = Json.find? keys j := by
  intro keys
  induction keys with
  | nil =>
    intro j v h
    rw [walk_nil]
    exact h.snapshot
  | cons key rest ih =>
    intro j v h
    obtain ⟨cells, h, hnodup⟩ := h
    cases h with
    | @object members m slots cells hm h =>
      rw [walk, Json.find?, slot?_of_holding hm]
      split
      · rfl
      obtain ⟨b⟩ := h.beside key
      cases hi : Keyed.get? slots key with
      | none =>
        rw [b.get?_slots hi]
        cases rest <;> rfl
      | some i =>
        obtain ⟨j, own, hj, hold, -, hown⟩ := b.represents_old i hi
        rw [hj]
        have hnodup' := b.perm.nodup_iff.1 (List.nodup_cons.1 hnodup).2
        rw [hold] at hnodup'
        exact ih ⟨own, hown, (List.nodup_cons.1 (List.nodup_append'.1 hnodup').1).2⟩
    | _ => rfl

/-- A mapping stands for plain data, nobody is subscribed to a slot of it, and nobody
    collects. -/
structure Unwatched (s : Store R) (j : Json) (root : MappingId) : Prop where
  /-- Nobody collects. -/
  collecting : s.collecting = []
  /-- The data. -/
  data : ∃ cells, s.Represents j (.mapping root) cells ∧ cells.Nodup ∧
    ∀ t, .slot t ∈ cells → s.subscribers t = []

namespace Unwatched

variable {j : Json} {root : MappingId}

theorem tree (h : s.Unwatched j root) : s.Tree j (.mapping root) := by
  obtain ⟨cells, hrepresents, hnodup, -⟩ := h.data
  exact ⟨cells, hrepresents, hnodup⟩

/-- Plain data that is made reactive is not watched. -/
theorem of_observe {s' : Store R} (hs : s.collecting = [])
    (h : s.observe j = (.mapping root, s')) : s'.Unwatched j root := by
  obtain ⟨cells, hrepresents, hnodup, hnew⟩ := represents_observe j s
  have hcollecting := (After.observe s j).collecting hs
  have hsubscribers := subscribers_observe s j
  rw [h] at hrepresents hcollecting hsubscribers
  refine ⟨hcollecting, cells, hrepresents, hnodup, fun t ht => ?_⟩
  rw [hsubscribers]
  exact subscribers_of_not_holding s (hnew _ ht)

/-- New data beside it is not watched either. -/
theorem observe (h : s.Unwatched j root) (new : Json) : (s.observe new).2.Unwatched j root := by
  obtain ⟨cells, hrepresents, hnodup, hsubscribers⟩ := h.data
  refine ⟨(After.observe s new).collecting h.collecting, cells,
    hrepresents.of_extends (.observe s new), hnodup, fun t ht => ?_⟩
  rw [subscribers_observe]
  exact hsubscribers t ht

/-- A write of new data where keys lead is a write to the plain data, and notifies
    nobody. -/
theorem assign (h : s.Unwatched j root) (new : Json) {path : List String} {m : MappingId}
    (hreach : (s.observe new).2.reach path (.mapping root) = some m) (key : String) :
    (∀ t, (s.observe new).2.slot? m key = some t → (s.observe new).2.subscribers t = []) ∧
      ∃ j', Json.put? key new path j = some j' ∧
        ((s.observe new).2.assign m key (s.observe new).1).Unwatched j' root := by
  obtain ⟨cells, hrepresents, hnodup, hsubscribers⟩ := h.data
  obtain ⟨own, hnew, hown, hfresh⟩ := represents_observe new s
  have hdisjoint : cells.Disjoint own := fun c hc hc' =>
    Option.isSome_iff_ne_none.1 (hrepresents.present c hc) (hfresh c hc')
  have hrepresents' := hrepresents.of_extends (.observe s new)
  constructor
  · intro t ht
    obtain ⟨slots, hm, -, hslots⟩ := hrepresents'.mem_of_reach hreach
    rw [slot?_of_holding hm] at ht
    rw [subscribers_observe]
    exact hsubscribers t (hslots key t ht)
  obtain ⟨j', cells', hj', hassigned, hnodup', hamong⟩ :=
    hnew.assign hown hrepresents' hnodup hdisjoint hreach
  refine ⟨j', hj', ⟨?_, cells', hassigned, hnodup', fun t ht => ?_⟩⟩
  · rw [collecting_assign]
    exact (h.observe new).collecting
  · rw [subscribers_assign]
    rcases hamong _ ht with hold | hnew | hnone
    · rw [subscribers_observe]
      exact hsubscribers t hold
    · rw [subscribers_observe]
      exact subscribers_of_not_holding s (hfresh _ hnew)
    · exact subscribers_of_not_holding _ hnone

end Unwatched

end Store

/-! ## Writes of plain data -/

/-- A reading of an expression comes to a value that has the plain data as its
    snapshot. -/
def World.Reads (u : World R σ) (root : MappingId) (expression : String) (j : Json) : Prop :=
  ∃ v, (Effect.getPath root expression u).1 = .ok v ∧ u.store.toJson? v = some j

namespace Effect

/-- Make plain data reactive, and write it through an expression. -/
def writeJson (react : R → Value → Effect R σ Unit) (root : MappingId) (expression : String)
    (j : Json) : Effect R σ Unit := do
  let v ← onStore fun s => s.observe j
  setPath react root expression v

variable {u : World R σ} {root : MappingId} {expression : String} {j : Json}

/-- A reading of a tree is one of the plain data. -/
theorem reads_iff (h : u.store.Tree j (.mapping root)) {j' : Json} :
    u.Reads root expression j' ↔ Text.trim expression ≠ "" ∧
      Json.find? (Text.splitOn '.' (Text.trim expression)) j = some j' := by
  have hreads : u.Reads root expression j' ↔
      (u.store.resolve root expression).2.toOption.bind u.store.toJson? = some j' := by
    rw [World.Reads, Option.bind_eq_some_iff]
    refine exists_congr fun v => and_congr_left fun _ => ?_
    rw [getPath_eq_ok_iff]
    cases (u.store.resolve root expression).2 <;> simp [Except.toOption]
  rw [hreads]
  by_cases hblank : Text.trim expression = ""
  · simp [Store.resolve_of_blank hblank, hblank, Except.toOption]
  · rw [Store.resolve_of_not_blank hblank, h.find?]
    simp [hblank]

/-- **A write of plain data** fails and leaves the data as it is, or is a write to the
    plain data. -/
theorem writeJson_cases (react : R → Value → Effect R σ Unit) (h : u.store.Unwatched j root)
    (expression : String) (new : Json) :
    let after := writeJson react root expression new u
    ((∃ stop, after.1 = .error stop) ∧ after.2.store.Unwatched j root) ∨
      after.1 = .ok () ∧ ∃ path key j', Text.Aims expression path key ∧
        (∀ k ∈ path, k.isEmpty = false) ∧ key.isEmpty = false ∧
        Json.put? key new path j = some j' ∧ after.2.store.Unwatched j' root := by
  intro after
  let observed : World R σ := { u with store := (u.store.observe new).2 }
  have hobserved : observed.store.Unwatched j root := h.observe new
  have hafter : after = setPath react root expression (u.store.observe new).1 observed := rfl
  cases htarget : (observed.store.target root expression).2 with
  | error e =>
    left
    rw [hafter, setPath_of_error react htarget,
      Store.trackAll_of_not_collecting _ hobserved.collecting]
    exact ⟨⟨_, rfl⟩, hobserved⟩
  | ok target =>
    right
    obtain ⟨m, key⟩ := target
    obtain ⟨path, slots, haims, hkey, hleads⟩ := Store.exists_leads_of_target htarget
    obtain ⟨hquiet, j', hj', hassigned⟩ := h.assign new hleads.reach key
    have hset : after = (.ok (), { u with
        store := observed.store.assign m key (u.store.observe new).1 }) := by
      rw [hafter, setPath_of_ok react htarget,
        Store.trackAll_of_not_collecting _ hobserved.collecting]
      cases hslot : observed.store.slot? m key with
      | none => exact set_assign_of_none react hslot
      | some i =>
        rw [set_assign_of_some react hslot, notify_of_nil]
        exact (Store.subscribers_assign _ m key _ i).trans (hquiet i hslot)
    rw [hset]
    exact ⟨rfl, path, key, j', haims, hleads.nonempty, hkey, hj', hassigned⟩

/-- Plain data that is written through expressions, one after another, however the
    writes end, stands for plain data and is not watched. -/
theorem unwatched_writes (react : R → Value → Effect R σ Unit) (root : MappingId)
    (writes : List (String × Json)) : ∀ {u : World R σ} {j : Json}, u.store.Unwatched j root →
      ∃ j', (writes.foldl (fun u w => (writeJson react root w.1 w.2 u).2) u).store.Unwatched
        j' root := by
  induction writes with
  | nil =>
    intro u j h
    exact ⟨j, h⟩
  | cons w writes ih =>
    intro u j h
    rcases writeJson_cases react h w.1 w.2 with ⟨-, h⟩ | ⟨-, path, key, j', -, -, -, -, h⟩
    · exact ih h
    · exact ih h

/-- **What is written through an expression** and what is read through it afterwards, in
    plain data that has been made reactive and written to in the same way before, with no
    watchers: if no blank stands before the last dot, the reading comes to what was
    written; otherwise it comes to what it came to before the write. -/
theorem writeJson_read (react : R → Value → Effect R σ Unit) {u : World R σ}
    (hidle : u.store.collecting = []) {members : List (String × Json)} {root : MappingId}
    {s : Store R} (hs : u.store.observe (.object members) = (.mapping root, s))
    (writes : List (String × Json)) (expression : String) (j : Json) :
    let u₁ := writes.foldl (fun u w => (writeJson react root w.1 w.2 u).2) { u with store := s }
    let after := writeJson react root expression j u₁
    after.1 = .ok () →
      (Text.Tight expression → after.2.Reads root expression j) ∧
      (¬ Text.Tight expression → ∀ j', after.2.Reads root expression j' ↔
        u₁.Reads root expression j') := by
  intro u₁ after hok
  obtain ⟨j₁, h₁⟩ := unwatched_writes react root writes (u := { u with store := s })
    (Store.Unwatched.of_observe hidle hs)
  rcases writeJson_cases react h₁ expression j with ⟨⟨stop, hstop⟩, -⟩ |
    ⟨-, path, key, j₂, haims, hpath, hkey, hput, h₂⟩
  · exact absurd (hok.symm.trans hstop) nofun
  have hread (j' : Json) : after.2.Reads root expression j' ↔ _ := reads_iff h₂.tree
  constructor
  · intro htight
    refine (hread j).2 ⟨haims.path_ne hkey, ?_⟩
    rw [haims.keys htight]
    exact Json.find?_put? hput hpath hkey
  · intro hloose j'
    cases haims with
    | one hkeys => exact absurd (Text.tight_of_key hkeys).1 hloose
    | more hkeys =>
      obtain ⟨_, c⟩ := Text.cut_of_keys hkeys
      have hne := Ne.symm (mt c.tight.2 hloose)
      rw [hread, reads_iff h₁.tree, hkeys, Json.find?_put?_other hne hput]

/-- Plain data in which keys are led to. -/
def shelf : Json := .object [("a", .object [("b", .string "x")])]

/-- A write through keys with blanks around them is read back; one with a blank before the
    last dot goes to the key without it, where the reading does not look. -/
theorem writeJson_read_of_shelf :
    let react : Unit → Value → Effect Unit Unit Unit := fun _ _ => pure ()
    let u : World Unit Unit := ⟨(Store.empty.observe shelf).2, ()⟩
    (writeJson react 1 " a.b " (.bool true) u).2.Reads 1 " a.b " (.bool true) ∧
      ∀ j, (writeJson react 1 "a .b" (.bool true) u).2.Reads 1 "a .b" j ↔ u.Reads 1 "a .b" j := by
  intro react u
  have htight : Text.Tight " a.b " := by
    have hpath : Text.trimChars " a.b ".toList = ['a'] ++ '.' :: ['b'] := by decide +kernel
    rw [Text.tight_iff hpath (by decide)]
    decide
  have hloose : ¬ Text.Tight "a .b" := by
    intro h
    have hblank := h ['a'] ' ' ['b'] (by decide +kernel) (by decide)
    cases hblank
  have hobserve : Store.empty.observe shelf = (.mapping 1, u.store) := rfl
  have hread := writeJson_read react (u := ⟨Store.empty, ()⟩) rfl hobserve []
  refine ⟨(hread " a.b " (.bool true) ?_).1 htight, (hread "a .b" (.bool true) ?_).2 hloose⟩
  · with_unfolding_all rfl
  · with_unfolding_all rfl

/-- What is written through an expression with a blank before its last dot is written,
    and cannot be read through it. -/
theorem writeJson_not_read :
    let u : World Unit Unit := ⟨(Store.empty.observe (.object [("a", .object [])])).2, ()⟩
    let after := writeJson (fun _ _ => pure ()) 1 "a .b" (.bool true) u
    after.1 = .ok () ∧
      (getPath 1 "a .b" after.2).1 = .error (.fault (.path (.missingKey "a .b" "a "))) := by
  intro u after
  constructor
  · with_unfolding_all rfl
  · with_unfolding_all rfl

end Effect

end DataBinding
