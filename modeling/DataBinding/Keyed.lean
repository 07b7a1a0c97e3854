/-
  Entries by key, in the order in which the keys first came.

  * `Keyed.get?` looks a key up;
  * `Keyed.put` writes an entry: a present key keeps its place and takes the
    new entry, an absent one is appended last;
  * `Keyed.keys` are the keys, in order.

  Object members, the slots of a mapping, attributes and registered methods
  are all kept this way.
-/

namespace DataBinding

universe u v

/-- Entries by key, in order of first insertion. -/
abbrev Keyed (α : Type u) := List (String × α)

namespace Keyed

variable {α : Type u} {β : Type v}

/-- The first entry under a key. -/
def get? (entries : Keyed α) (key : String) : Option α :=
  match entries with
  | [] => none
  | (k, a) :: rest => if k = key then some a else get? rest key

/-- Whether a key is present. -/
def contains (entries : Keyed α) (key : String) : Bool :=
  (get? entries key).isSome

/-- The keys, in order. -/
def keys (entries : Keyed α) : List String :=
  entries.map Prod.fst

/-- Write an entry: in place if the key is present, else last. -/
def put (entries : Keyed α) (key : String) (a : α) : Keyed α :=
  match entries with
  | [] => [(key, a)]
  | (k, b) :: rest => if k = key then (k, a) :: rest else (k, b) :: put rest key a

/-- The entries whose key differs from the given one. -/
def erase (entries : Keyed α) (key : String) : Keyed α :=
  entries.filter fun entry => entry.1 ≠ key

/-- Keyed entries from a list of pairs in which a later pair overwrites. -/
def ofPairs (pairs : List (String × α)) : Keyed α :=
  pairs.foldl (fun entries p => put entries p.1 p.2) []

theorem get?_put_self (entries : Keyed α) (key : String) (a : α) :
    get? (put entries key a) key = some a := by
  induction entries with
  | nil => simp [put, get?]
  | cons p rest ih =>
    obtain ⟨k, b⟩ := p
    by_cases h : k = key <;> simp [put, get?, h, ih]

theorem get?_put_other (entries : Keyed α) {key other : String} (a : α) (h : other ≠ key) :
    get? (put entries key a) other = get? entries other := by
  induction entries with
  | nil => simp [put, get?, Ne.symm h]
  | cons p rest ih =>
    obtain ⟨k, b⟩ := p
    by_cases hk : k = key
    · subst hk; simp [put, get?, Ne.symm h]
    · by_cases ho : k = other
      · subst ho; simp [put, get?, hk]
      · simp [put, get?, hk, ho, ih]

theorem get?_erase_other (entries : Keyed α) {key other : String} (h : other ≠ key) :
    get? (erase entries key) other = get? entries other := by
  induction entries with
  | nil => rfl
  | cons p rest ih =>
    obtain ⟨k, b⟩ := p
    rw [erase, List.filter_cons]
    by_cases hk : k = key
    · rw [if_neg (by simp [hk]), get?, if_neg fun ho => h (ho.symm.trans hk)]
      exact ih
    · rw [if_pos (by simp [hk]), get?, get?]
      exact congrArg _ ih

theorem get?_isSome_iff {entries : Keyed α} {key : String} :
    (get? entries key).isSome ↔ key ∈ keys entries := by
  induction entries with
  | nil => simp [get?, keys]
  | cons p rest ih =>
    obtain ⟨k, b⟩ := p
    by_cases h : k = key
    · simp [get?, keys, h]
    · simp [get?, keys, h, Ne.symm h] at ih ⊢; exact ih

/-- Writing keeps the keys, and appends an absent one. -/
theorem keys_put (entries : Keyed α) (key : String) (a : α) :
    keys (put entries key a) =
      if key ∈ keys entries then keys entries else keys entries ++ [key] := by
  induction entries with
  | nil => simp [put, keys]
  | cons p rest ih =>
    obtain ⟨k, b⟩ := p
    by_cases h : k = key
    · simp [put, keys, h]
    · simp only [keys] at ih
      by_cases hm : key ∈ rest.map Prod.fst <;> simp [put, keys, h, Ne.symm h, ih, hm]

end Keyed

end DataBinding
