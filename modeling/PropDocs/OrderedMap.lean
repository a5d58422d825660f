/-!
# Maps that remember their order

`OrderedMap α` maps strings to values and lists its entries in the order in which their keys were
first seen.  Every key occurs once: that is part of the type.  The one operation that writes is
`alter`, which changes the value of a key where it stands or adds the key at the end.

* `keys_alter`: altering a known key keeps the list of keys, altering a new one appends it;
* `get?_alter`: the altered key reads as the new value, every other key as before.
-/

namespace PropDocs

/-! ### Lists of entries -/

namespace Entries

variable {α : Type}

/-- The keys of a list of entries, in order. -/
def keys (l : List (String × α)) : List String :=
  l.map Prod.fst

/-- Changes the value of a key where it stands, or appends the key. -/
def alter (key : String) (f : Option α → α) : List (String × α) → List (String × α)
  | [] => [(key, f none)]
  | (k, v) :: rest => if k = key then (k, f (some v)) :: rest else (k, v) :: alter key f rest

/-- The value of a key. -/
def get? (key : String) : List (String × α) → Option α
  | [] => none
  | (k, v) :: rest => if k = key then some v else get? key rest

theorem keys_alter (key : String) (f : Option α → α) (l : List (String × α)) :
    keys (alter key f l) = if key ∈ keys l then keys l else keys l ++ [key] := by
  induction l with
  | nil => simp [alter, keys]
  | cons e rest ih =>
    obtain ⟨k, v⟩ := e
    by_cases h : k = key
    · simp [alter, keys, h]
    · have hne : ¬ key = k := fun e => h e.symm
      simp only [keys] at ih
      by_cases hm : key ∈ rest.map Prod.fst <;> simp_all [alter, keys]

theorem nodup_keys_alter (key : String) (f : Option α → α) {l : List (String × α)}
    (h : (keys l).Nodup) : (keys (alter key f l)).Nodup := by
  rw [keys_alter]
  split
  · exact h
  · rename_i hm
    rw [List.nodup_append]
    exact ⟨h, by simp, fun a ha b hb e => hm (by simp_all)⟩

theorem get?_alter (key k : String) (f : Option α → α) (l : List (String × α)) :
    get? k (alter key f l) = if k = key then some (f (get? key l)) else get? k l := by
  induction l with
  | nil => by_cases h : key = k <;> simp [alter, get?, h, eq_comm]
  | cons e rest ih =>
    obtain ⟨k', v⟩ := e
    by_cases h : k' = key
    · by_cases hk : k = key
      · simp [alter, get?, h, hk]
      · have hne : ¬ key = k := fun e => hk e.symm
        simp [alter, get?, h, hk, hne]
    · by_cases hk : k' = k
      · have hne : ¬ k = key := fun e => h (hk.trans e)
        simp [alter, get?, hk, hne]
      · simp [alter, get?, h, hk, ih]

theorem mem_keys_of_isSome_get? {key : String} {l : List (String × α)}
    (h : (get? key l).isSome) : key ∈ keys l := by
  induction l with
  | nil => cases h
  | cons e rest ih =>
    obtain ⟨k, v⟩ := e
    rw [get?] at h
    split at h
    · rename_i hk
      rw [← hk]
      exact List.mem_cons_self
    · exact List.mem_cons_of_mem k (ih h)

theorem nodup_keys_filter (p : String × α → Bool) {l : List (String × α)}
    (h : (keys l).Nodup) : (keys (l.filter p)).Nodup :=
  h.sublist (List.filter_sublist.map Prod.fst)

end Entries

/-! ### The map type -/

/-- **Ordered map.** Entries in the order in which their keys were first seen. -/
structure OrderedMap (α : Type) where
  entries : List (String × α) := []
  nodup : (Entries.keys entries).Nodup := by exact List.nodup_nil

namespace OrderedMap

variable {α : Type}

/-- The map without entries. -/
def empty : OrderedMap α := {}

instance : Inhabited (OrderedMap α) := ⟨empty⟩

/-- The keys in first-seen order. -/
def keys (m : OrderedMap α) : List String :=
  Entries.keys m.entries

/-- The value of a key. -/
def get? (m : OrderedMap α) (key : String) : Option α :=
  Entries.get? key m.entries

/-- Whether a key has a value. -/
def contains (m : OrderedMap α) (key : String) : Bool :=
  (m.get? key).isSome

/-- The map has no entries. -/
def isEmpty (m : OrderedMap α) : Bool :=
  m.entries.isEmpty

/-- **Altering.** Changes the value of a key where it stands, or adds the key at the end; `f`
makes the new value from the old one. -/
def alter (m : OrderedMap α) (key : String) (f : Option α → α) : OrderedMap α :=
  ⟨Entries.alter key f m.entries, Entries.nodup_keys_alter key f m.nodup⟩

/-- Sets the value of a key.  A known key keeps its place. -/
def insert (m : OrderedMap α) (key : String) (value : α) : OrderedMap α :=
  m.alter key fun _ => value

/-- Keeps the entries that satisfy a test, in order. -/
def filter (m : OrderedMap α) (p : String → α → Bool) : OrderedMap α :=
  ⟨m.entries.filter fun e => p e.1 e.2, Entries.nodup_keys_filter _ m.nodup⟩

/-- The map of a list of pairs: the first occurrence of a key gives its place, the last one its
value. -/
def ofList (l : List (String × α)) : OrderedMap α :=
  l.foldl (fun m e => m.insert e.1 e.2) empty

theorem ext_entries {m₁ m₂ : OrderedMap α} (h : m₁.entries = m₂.entries) : m₁ = m₂ := by
  cases m₁; cases m₂; simp_all

instance [DecidableEq α] : DecidableEq (OrderedMap α) := fun m₁ m₂ =>
  if h : m₁.entries = m₂.entries then isTrue (ext_entries h)
  else isFalse fun e => h (e ▸ rfl)

theorem keys_alter (m : OrderedMap α) (key : String) (f : Option α → α) :
    (m.alter key f).keys = if key ∈ m.keys then m.keys else m.keys ++ [key] :=
  Entries.keys_alter key f m.entries

theorem mem_keys_of_contains {m : OrderedMap α} {key : String} (h : m.contains key = true) :
    key ∈ m.keys :=
  Entries.mem_keys_of_isSome_get? h

theorem get?_alter (m : OrderedMap α) (key k : String) (f : Option α → α) :
    (m.alter key f).get? k = if k = key then some (f (m.get? key)) else m.get? k :=
  Entries.get?_alter key k f m.entries

end OrderedMap

end PropDocs
