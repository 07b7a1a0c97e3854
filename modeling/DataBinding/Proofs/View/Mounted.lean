/-
  Mounted bindings while the data is written.

  In a `Mounted` world every binding displays the text that is to be shown, its
  watchers have seen the data, and no collection is going on.  A write of a value
  other than a mapping to a slot that holds none answers and leaves the world
  mounted (`Mounted.set`).  It may be preceded by a write to a node by which the
  binding there already shows the new data, as an input does.
-/
import DataBinding.Proofs.View.Attending

namespace DataBinding

open Binding (pairs)

variable {R : Type}

/-! ## Stores with a value written -/

namespace Store

theorem Names.unique {s : Store R} {root : MappingId} {e : String} {i j : SlotId}
    (hi : s.Names root e i) (hj : s.Names root e j) : i = j := by
  obtain ⟨front, hfront⟩ := hi
  obtain ⟨front', hfront'⟩ := hj
  rw [hfront] at hfront'
  exact (List.append_inj' (Prod.mk.inj hfront').1 rfl).2 |> List.singleton_inj.1

theorem Names.value {s : Store R} {root : MappingId} {e : String} {i : SlotId}
    (hi : s.Names root e i) : (s.resolve root e).2 = .ok (s.valueAt i) := by
  obtain ⟨front, hfront⟩ := hi
  rw [hfront]

section

variable {s : Store R} {root : MappingId} {e : String} {i j : SlotId} {v : Value}

/-- An expression ends at the same slot after a write. -/
theorem Names.write (hj : s.Names root e j) (hi : (s.valueAt i).isMapping = false) :
    (s.write i v).Names root e j := ((Framed.refl s).write hi v).names hj

theorem Holds.write (h : s.Holds root e) (hi : (s.valueAt i).isMapping = false)
    (hv : v.isMapping = false) (hintegral : v.Integral) : (s.write i v).Holds root e := by
  obtain ⟨hblank, j, hj, hlt, hscalar, hj'⟩ := h
  refine ⟨hblank, j, hj.write hi, hlt.trans_eq Array.size_modify.symm, ?_, ?_⟩
  · rw [valueAt_write]
    split
    · exact hv
    · exact hscalar
  · rw [valueAt_write]
    split
    · exact hintegral
    · exact hj'

/-- An expression that ends elsewhere has the same value after a write. -/
theorem alikeAt_write (hj : s.Names root e j) (hi : (s.valueAt i).isMapping = false) (hne : j ≠ i) :
    s.AlikeAt (s.write i v) root e := by
  refine ⟨_, _, hj.value, (hj.write hi).value, ?_⟩
  rw [valueAt_write, if_neg fun h => hne h.1.symm]
  exact .refl _

end

/-- A store with another number of open notifications. -/
def withDepth (s : Store R) (n : Nat) : Store R :=
  { s with depth := n }

@[simp]
theorem resolve_withDepth (s : Store R) (n : Nat) (root : MappingId) (e : String) :
    (s.withDepth n).resolve root e = s.resolve root e := by
  refine resolve_congr ?_ ?_ root e
  · exact fun _ _ => rfl
  · exact fun _ => rfl

@[simp]
theorem names_withDepth (s : Store R) (n : Nat) (root : MappingId) (e : String) (i : SlotId) :
    (s.withDepth n).Names root e i ↔ s.Names root e i := by
  unfold Names
  rw [resolve_withDepth]
  rfl

theorem Holds.withDepth {s : Store R} {root : MappingId} {e : String} (h : s.Holds root e)
    (n : Nat) : (s.withDepth n).Holds root e := by
  obtain ⟨hblank, i, hi, hrest⟩ := h
  exact ⟨hblank, i, (names_withDepth s n root e i).2 hi, hrest⟩

theorem Informed.withDepth {s : Store R} {w : WatcherId} (h : s.Informed w) (n : Nat) :
    (s.withDepth n).Informed w := fun watcher hw => by
  rw [resolve_withDepth]
  exact h watcher hw

theorem Attends.withDepth {s : Store Reaction} {document : DocumentId} {root : MappingId}
    {b : Binding} {e : String} {w : WatcherId} (h : s.Attends document root b e w) (n : Nat) :
    (s.withDepth n).Attends document root b e w where
  watcher := h.watcher
  subscribed i hi := h.subscribed i ((names_withDepth s n root e i).1 hi)

theorem Attended.withDepth {s : Store Reaction} {document : DocumentId} {root : MappingId}
    {ps : List (Binding × String)} (h : s.Attended document root ps) (n : Nat) :
    (s.withDepth n).Attended document root ps where
  sound i w hw := by
    obtain ⟨p, hp, hattends⟩ := h.sound i w hw
    exact ⟨p, hp, hattends.withDepth n⟩
  complete p hp := by
    obtain ⟨w, hw⟩ := h.complete p hp
    exact ⟨w, hw.withDepth n⟩

end Store

/-! ## Mounted worlds -/

/-- A world in which bindings are made, up to what is displayed. -/
structure Standing (document : DocumentId) (root : MappingId) (bs : List Binding)
    (u : World Reaction Stage) : Prop where
  /-- No watcher collects. -/
  quiet : u.store.collecting = []
  /-- A notification may be opened. -/
  room : u.store.depth < u.store.limit
  /-- The expressions have values. -/
  holds : ∀ b ∈ bs, ∀ e ∈ b.expressions, u.store.Holds root e
  /-- The watchers attend to them. -/
  attended : u.store.Attended document root (pairs bs)
  /-- The watchers have seen the values. -/
  informed : ∀ i, ∀ w ∈ u.store.subscribers i, u.store.Informed w

/-- A world in which bindings are made and show the data. -/
structure Mounted (document : DocumentId) (root : MappingId) (bs : List Binding)
    (u : World Reaction Stage) : Prop extends Standing document root bs u where
  /-- Every binding displays the text to be shown. -/
  view : ∃ d, u.stage.documents[document]? = some d ∧ Fitted d root bs [] ∧
    ∀ b ∈ bs, b.Faithful d u.store root

namespace Standing

variable {document : DocumentId} {root : MappingId} {bs : List Binding}
  {u : World Reaction Stage} {i : SlotId} {v : Value} {d : Document Listener}

theorem names (h : Standing document root bs u) {b : Binding} (hb : b ∈ bs) {e : String}
    (he : e ∈ b.expressions) : ∃ j, u.store.Names root e j := by
  obtain ⟨-, j, hj, -⟩ := h.holds b hb e he
  exact ⟨j, hj⟩

/-- After a write of a slot the watchers attend to what they did. -/
theorem attends_write (h : Standing document root bs u) (hi : (u.store.valueAt i).isMapping = false)
    {b : Binding} (hb : b ∈ bs) {e : String} (he : e ∈ b.expressions) {w : WatcherId}
    (hw : u.store.Attends document root b e w) :
    (u.store.write i v).Attends document root b e w := by
  refine ⟨hw.watcher, fun j hj => ?_⟩
  obtain ⟨k, hk⟩ := h.names hb he
  rw [Store.subscribers_write, ← (hk.write hi).unique hj]
  exact hw.subscribed k hk

theorem attended_write (h : Standing document root bs u)
    (hi : (u.store.valueAt i).isMapping = false) :
    (u.store.write i v).Attended document root (pairs bs) where
  sound j w hw := by
    rw [Store.subscribers_write] at hw
    obtain ⟨p, hp, hpw⟩ := h.attended.sound j w hw
    obtain ⟨hb, he⟩ := Binding.mem_pairs.1 hp
    exact ⟨p, hp, h.attends_write hi hb he hpw⟩
  complete p hp := by
    obtain ⟨hb, he⟩ := Binding.mem_pairs.1 hp
    obtain ⟨w, hw⟩ := h.attended.complete p hp
    exact ⟨w, h.attends_write hi hb he hw⟩

/-- After a write of a slot only the watchers subscribed to it may have missed something. -/
theorem informed_write (h : Standing document root bs u) (hi : (u.store.valueAt i).isMapping = false)
    {j : SlotId} {w : WatcherId} (hw : w ∈ u.store.subscribers j) :
    (u.store.write i v).Informed w ∨ w ∈ u.store.subscribers i := by
  obtain ⟨⟨b, e⟩, hp, hw'⟩ := h.attended.sound j w hw
  obtain ⟨hb, he⟩ := Binding.mem_pairs.1 hp
  dsimp only at hb he hw'
  obtain ⟨k, hk⟩ := h.names hb he
  by_cases hki : k = i
  · exact .inr (hki ▸ hw'.subscribed k hk)
  · left
    obtain ⟨x, y, hx, hy, hxy⟩ := Store.alikeAt_write (v := v) hk hi hki
    obtain ⟨x', seen, n, hx', hwatcher, hseen⟩ := hw'.informed.1 (h.informed j w hw)
    obtain rfl : x = x' := Except.ok.inj (hx.symm.trans hx')
    exact (h.attends_write hi hb he hw').informed.2
      ⟨y, seen, n, hy, hwatcher, hxy.symm.trans hseen⟩

/-- A watcher that has missed nothing in a write finds what it found before. -/
theorem alikeAt_of_informed (h : Standing document root bs u)
    (hi : (u.store.valueAt i).isMapping = false) {b : Binding} (hb : b ∈ bs) {e : String}
    (he : e ∈ b.expressions) {j : SlotId} {w : WatcherId} (hsub : w ∈ u.store.subscribers j)
    (hw : u.store.Attends document root b e w) (hinformed : (u.store.write i v).Informed w) :
    u.store.AlikeAt (u.store.write i v) root e := by
  obtain ⟨x, seen, n, hx, hwatcher, hseen⟩ := hw.informed.1 (h.informed j w hsub)
  obtain ⟨y, seen', n', hy, hwatcher', hseen'⟩ := (h.attends_write hi hb he hw).informed.1 hinformed
  rw [show (u.store.write i v).watchers[w]? = u.store.watchers[w]? from rfl, hwatcher,
    Option.some.injEq, Watcher.mk.injEq] at hwatcher'
  obtain ⟨-, -, -, rfl, -⟩ := hwatcher'
  exact ⟨x, y, hx, hy, hseen.trans hseen'.symm⟩

/-- After a write of a slot a binding shows the data still, or one of the watchers
    subscribed to the slot has missed something that the binding shows. -/
theorem faithful_write (h : Standing document root bs u) (hi : (u.store.valueAt i).isMapping = false)
    {b : Binding} (hb : b ∈ bs) (hfaithful : b.Faithful d u.store root) :
    b.Faithful d (u.store.write i v) root ∨ ∃ w ∈ u.store.subscribers i, ∃ e ∈ b.expressions,
      (u.store.write i v).Attends document root b e w ∧ ¬ (u.store.write i v).Informed w := by
  obtain ⟨text, htext, hdisplays⟩ := hfaithful
  by_cases halike : ∀ e ∈ b.expressions, u.store.AlikeAt (u.store.write i v) root e
  · left
    obtain ⟨text', htext', hnew⟩ := Binding.shown_alike halike
    rw [htext] at htext'
    obtain rfl := Except.ok.inj htext'
    exact ⟨text, hnew, hdisplays⟩
  · -- an expression of the binding looks different, so it ends at the slot
    right
    push Not at halike
    obtain ⟨e, he, hnot⟩ := halike
    obtain ⟨k, hk⟩ := h.names hb he
    obtain rfl : k = i := by
      by_contra hki
      exact hnot (Store.alikeAt_write hk hi hki)
    obtain ⟨w, hw⟩ := h.attended.complete (b, e) (Binding.mem_pairs.2 ⟨hb, he⟩)
    have hsub := hw.subscribed k hk
    exact ⟨w, hsub, e, he, h.attends_write hi hb he hw, fun hinformed =>
      hnot (h.alikeAt_of_informed hi hb he hsub hw hinformed)⟩

/-- After a write of a slot the watchers subscribed to it are to be updated. -/
theorem updating (h : Standing document root bs u) (hi : (u.store.valueAt i).isMapping = false)
    (hd : u.stage.documents[document]? = some d) (hfitted : Fitted d root bs [])
    (hview : ∀ b ∈ bs, b.Faithful d u.store root ∨ b.Faithful d (u.store.write i v) root) :
    Updating (u.store.write i v) document root bs (u.store.subscribers i)
      { u with store := u.store.write i v } where
  store := ⟨u.store.watchers, rfl⟩
  attended := h.attended_write hi
  informed j w hw := by
    dsimp only at hw
    rw [Store.subscribers_write] at hw
    exact h.informed_write hi hw
  view := ⟨d, hd, hfitted, fun b hb => (hview b hb).elim (h.faithful_write hi hb) .inl⟩

end Standing

namespace Updating

variable {s : Store Reaction} {document : DocumentId} {root : MappingId} {bs : List Binding}
  {rest : List WatcherId} {u : World Reaction Stage}

theorem withDepth (h : Updating s document root bs rest u)
    (hholds : ∀ b ∈ bs, ∀ e ∈ b.expressions, s.Holds root e) (n : Nat) :
    Updating (s.withDepth n) document root bs rest { u with store := u.store.withDepth n } := by
  obtain ⟨⟨watchers, hstore⟩, hattended, hmissed, d, hd, hfitted, hbs⟩ := h
  refine ⟨⟨watchers, by rw [hstore]; rfl⟩, hattended.withDepth n, fun i w hw => ?_, d, hd, hfitted,
    fun b hb => ?_⟩
  · exact (hmissed i w hw).imp_left fun hinformed => hinformed.withDepth n
  · rcases hbs b hb with ⟨text, htext, hdisplays⟩ | ⟨w, hw, e, he, hattends, hnot⟩
    · left
      obtain ⟨text', htext', hnew⟩ : ∃ text, b.shown u.store root = .ok text ∧
          b.shown (u.store.withDepth n) root = .ok text := Binding.shown_alike fun e he => by
          obtain ⟨v, hv, -⟩ := (hholds b hb e he).resolve
          rw [← Store.resolve_withWatchers s watchers, ← hstore] at hv
          exact ⟨v, v, hv, by rw [Store.resolve_withDepth, hv], .refl v⟩
      obtain rfl := Except.ok.inj (htext.symm.trans htext')
      exact ⟨text, hnew, hdisplays⟩
    · refine .inr ⟨w, hw, e, he, hattends.withDepth n, fun hinformed => hnot ?_⟩
      exact hinformed.withDepth u.store.depth

/-- When no watcher is left to be updated, the world is mounted. -/
theorem mounted (h : Updating s document root bs [] u) (hquiet : s.collecting = [])
    (hroom : s.depth < s.limit) (hholds : ∀ b ∈ bs, ∀ e ∈ b.expressions, s.Holds root e) :
    Mounted document root bs u := by
  obtain ⟨⟨watchers, hstore⟩, hattended, hmissed, d, hd, hfitted, hbs⟩ := h
  refine ⟨⟨by rw [hstore]; exact hquiet, by rw [hstore]; exact hroom, fun b hb e he => ?_, hattended,
    fun i w hw => (hmissed i w hw).resolve_right nofun⟩, d, hd, hfitted, fun b hb => ?_⟩
  · obtain ⟨hblank, i, hi, hrest⟩ := hholds b hb e he
    rw [hstore]
    exact ⟨hblank, i, (Store.names_withWatchers s watchers root e i).2 hi, hrest⟩
  · exact (hbs b hb).resolve_right fun ⟨_, hw, _⟩ => nomatch hw

end Updating

/-- **A write** of a value other than a mapping to a slot that holds none answers
    and leaves the world mounted, with the same mappings. -/
theorem Standing.set {document : DocumentId} {root : MappingId} {bs : List Binding}
    {u : World Reaction Stage} (h : Standing document root bs u) {m : MappingId} {key : String}
    {i : SlotId} {v : Value} {d : Document Listener} (hslot : u.store.slot? m key = some i)
    (hi : (u.store.valueAt i).isMapping = false) (hv : v.isMapping = false)
    (hintegral : v.Integral) (hd : u.stage.documents[document]? = some d)
    (hfitted : Fitted d root bs [])
    (hview : ∀ b ∈ bs, b.Faithful d u.store root ∨ b.Faithful d (u.store.write i v) root)
    (depth : Nat) :
    ∃ u', Effect.set (Engine.ofDepth (depth + 1)).react m key v u = (.ok (), u') ∧
      Mounted document root bs u' ∧ u'.store.mappings = u.store.mappings := by
  have hholds : ∀ b ∈ bs, ∀ e ∈ b.expressions, (u.store.write i v).Holds root e :=
    fun b hb e he => (h.holds b hb e he).write hi hv hintegral
  have hup := h.updating hi hd hfitted hview
  have hsubscribers : (u.store.write i v).subscribers i = u.store.subscribers i :=
    Store.subscribers_write _ _ _ _
  have hset := Effect.set_of_some (Engine.ofDepth (depth + 1)).react (v := v) hslot
  rw [hv, if_neg Bool.false_ne_true] at hset
  by_cases hnil : u.store.subscribers i = []
  · rw [hnil] at hup
    exact ⟨_, hset.trans (Effect.notify_of_nil _ (hsubscribers.trans hnil)),
      hup.mounted h.quiet h.room hholds, rfl⟩
  · have hsome : (u.store.write i v).subscribers i ≠ [] := by rwa [hsubscribers]
    have hnotify := Effect.notify_of_le (Engine.ofDepth (depth + 1)).react
      (u := { u with store := u.store.write i v }) hsome h.room
    have hdeep := hup.withDepth hholds (u.store.depth + 1)
    have hholds' : ∀ b ∈ bs, ∀ e ∈ b.expressions,
        ((u.store.write i v).withDepth (u.store.depth + 1)).Holds root e :=
      fun b hb e he => (hholds b hb e he).withDepth _
    obtain ⟨u₂, hu₂, hdone⟩ := Updating.each (i := i)
      (s := (u.store.write i v).withDepth (u.store.depth + 1)) h.quiet hholds' depth hdeep
      fun w hw => hsubscribers ▸ hw
    have hdone' := hdone.withDepth hholds' u.store.depth
    obtain ⟨watchers, hstore₂⟩ := hdone.store
    refine ⟨_, (hset.trans hnotify).trans ?_, Updating.mounted (s := u.store.write i v) hdone'
      h.quiet h.room hholds, by rw [hstore₂]; rfl⟩
    change (Prod.map id (fun w : World Reaction Stage =>
      { w with store := { w.store with depth := w.store.depth - 1 } })
        (Effect.each (Effect.updateWatcher (Engine.ofDepth (depth + 1)).react)
          ((u.store.write i v).subscribers i) _)) = _
    rw [hsubscribers]
    refine (congrArg _ hu₂).trans ?_
    rw [Prod.map_apply, hstore₂]
    rfl

end DataBinding
