import Mathlib.Data.List.Forall2
import Mathlib.Data.List.Induction
import PropDocs.Docs.Component
import PropDocs.Program.Members

/-!
# First occurrences

Documents of one name and members of one name are left out but for the first.  The walk that finds
the first ones carries the names seen so far, and what it needs of an item is its key.  This file has
the theory of that walk.

* `firstsFrom`: the items whose keys have not been seen, each key once;
* `firstsFrom_nil`: with nothing seen it is the library's `eraseDupsBy`;
* `firstsFrom_append`: what a first part keeps is what counts as seen for the second one;
* `forall₂_firstsFrom`: lists that are related item by item, with the same keys, stay related;
* `SameFirsts`: two lists are interchangeable wherever repeats are left out later.  It is kept by `++`
  and `flatMap` and holds between a list and its firsts;
* `OrderedMap.keys_foldl_alter`: the keys of a map that was written step by step are the distinct
  keys of the steps, in order of first occurrence;
* `ComponentDoc.dedupeFrom_eq_firstsFrom`, `firstOfEachName_eq_firstsFrom`: documents and members are
  walked in this way.
-/

namespace PropDocs

/-- An item at the end of a list counts when it is new. -/
theorem eraseDups_concat {α : Type} [DecidableEq α] (l : List α) (a : α) :
    (l ++ [a]).eraseDups = if a ∈ l then l.eraseDups else l.eraseDups ++ [a] := by
  rw [List.eraseDups_append, List.removeAll]
  by_cases h : a ∈ l
  · rw [if_pos h, List.filter_cons_of_neg (by simpa using h), List.filter_nil]
    exact List.append_nil _
  · rw [if_neg h, List.filter_cons_of_pos (by simpa using h), List.filter_nil]
    rfl

/-- **First occurrences.** The items of a list whose keys are not in `seen` and did not occur before. -/
def firstsFrom {α : Type} (key : α → String) (seen : List String) : List α → List α
  | [] => []
  | a :: l =>
    if seen.contains (key a) then firstsFrom key seen l
    else a :: firstsFrom key (key a :: seen) l

section

variable {α : Type} {key : α → String} {seen seen' : List String}

theorem firstsFrom_cons_of_mem {a : α} (h : key a ∈ seen) (l : List α) :
    firstsFrom key seen (a :: l) = firstsFrom key seen l := by
  rw [firstsFrom, if_pos (by simpa using h)]

theorem firstsFrom_cons_of_notMem {a : α} (h : key a ∉ seen) (l : List α) :
    firstsFrom key seen (a :: l) = a :: firstsFrom key (key a :: seen) l := by
  rw [firstsFrom, if_neg (by simpa using h)]

/-! ### Keys -/

theorem mem_map_firstsFrom {l : List α} {k : String} :
    k ∈ (firstsFrom key seen l).map key ↔ k ∈ l.map key ∧ k ∉ seen := by
  induction l generalizing seen with
  | nil => simp [firstsFrom]
  | cons a l ih =>
    by_cases ha : key a ∈ seen
    · rw [firstsFrom_cons_of_mem ha, ih, List.map_cons, List.mem_cons]
      grind
    · rw [firstsFrom_cons_of_notMem ha, List.map_cons, List.mem_cons, ih, List.map_cons,
        List.mem_cons]
      grind

theorem nodup_map_firstsFrom (key : α → String) (seen : List String) (l : List α) :
    ((firstsFrom key seen l).map key).Nodup := by
  induction l generalizing seen with
  | nil => exact List.nodup_nil
  | cons a l ih =>
    by_cases ha : key a ∈ seen
    · rw [firstsFrom_cons_of_mem ha]
      exact ih seen
    · rw [firstsFrom_cons_of_notMem ha, List.map_cons, List.nodup_cons, mem_map_firstsFrom]
      exact ⟨fun h => h.2 List.mem_cons_self, ih _⟩

/-- Items whose keys have all been seen leave nothing. -/
theorem firstsFrom_eq_nil {l : List α} (h : ∀ a ∈ l, key a ∈ seen) : firstsFrom key seen l = [] := by
  induction l with
  | nil => rfl
  | cons a l ih =>
    obtain ⟨ha, hl⟩ := List.forall_mem_cons.1 h
    rw [firstsFrom_cons_of_mem ha, ih hl]

/-! ### Parts -/

/-- What a first part keeps is what counts as seen for the second one. -/
theorem firstsFrom_append (xs ys : List α) :
    firstsFrom key seen (xs ++ ys) = firstsFrom key seen xs ++
      firstsFrom key (((firstsFrom key seen xs).map key).reverse ++ seen) ys := by
  induction xs generalizing seen with
  | nil => rfl
  | cons a xs ih =>
    by_cases ha : key a ∈ seen
    · rw [List.cons_append, firstsFrom_cons_of_mem ha, firstsFrom_cons_of_mem ha, ih]
    · rw [List.cons_append, firstsFrom_cons_of_notMem ha, firstsFrom_cons_of_notMem ha, ih]
      simp

/-- Leaving out repeats once more changes nothing, as long as no less counts as seen. -/
theorem firstsFrom_firstsFrom (hseen : seen' ⊆ seen) (l : List α) :
    firstsFrom key seen (firstsFrom key seen' l) = firstsFrom key seen l := by
  induction l generalizing seen seen' with
  | nil => rfl
  | cons a l ih =>
    by_cases ha' : key a ∈ seen'
    · rw [firstsFrom_cons_of_mem ha', firstsFrom_cons_of_mem (hseen ha'), ih hseen]
    · rw [firstsFrom_cons_of_notMem ha']
      by_cases ha : key a ∈ seen
      · rw [firstsFrom_cons_of_mem ha, firstsFrom_cons_of_mem ha,
          ih (List.cons_subset.2 ⟨ha, hseen⟩)]
      · rw [firstsFrom_cons_of_notMem ha, firstsFrom_cons_of_notMem ha,
          ih (List.cons_subset_cons (key a) hseen)]

/-- The firsts are those of the library, among the items whose keys have not been seen. -/
theorem firstsFrom_eq_eraseDupsBy (key : α → String) (seen : List String) (l : List α) :
    firstsFrom key seen l =
      (l.filter fun a => !seen.contains (key a)).eraseDupsBy fun a b => key a == key b := by
  induction l generalizing seen with
  | nil => rfl
  | cons a l ih =>
    by_cases ha : key a ∈ seen
    · rw [firstsFrom_cons_of_mem ha, ih, List.filter_cons_of_neg (by simpa using ha)]
    · rw [firstsFrom_cons_of_notMem ha, ih, List.filter_cons_of_pos (by simpa using ha),
        List.eraseDupsBy_cons, List.filter_filter]
      congr 2
      refine List.filter_congr fun b _ => ?_
      by_cases hb : key b = key a <;> simp [hb]

theorem firstsFrom_nil (key : α → String) (l : List α) :
    firstsFrom key [] l = l.eraseDupsBy fun a b => key a == key b := by
  rw [firstsFrom_eq_eraseDupsBy, List.filter_eq_self.2 (by simp)]

/-- Leaving out repeats looks at keys only. -/
theorem forall₂_firstsFrom {β : Type} {key' : β → String} {R : α → β → Prop}
    (hkey : ∀ a b, R a b → key a = key' b) {xs : List α} {ys : List β} (h : List.Forall₂ R xs ys)
    (seen : List String) : List.Forall₂ R (firstsFrom key seen xs) (firstsFrom key' seen ys) := by
  induction h generalizing seen with
  | nil => exact .nil
  | @cons a b xs ys hab _ ih =>
    rw [firstsFrom, firstsFrom, hkey a b hab]
    split
    · exact ih seen
    · exact .cons hab (ih _)

end

/-! ### Interchangeable lists -/

/-- **Interchangeable lists.** Whatever keys count as seen, the same items are first of their keys. -/
def SameFirsts {α : Type} (key : α → String) (xs ys : List α) : Prop :=
  ∀ seen, firstsFrom key seen xs = firstsFrom key seen ys

namespace SameFirsts

variable {α : Type} {key : α → String}

theorem refl (xs : List α) : SameFirsts key xs xs :=
  fun _ => rfl

theorem firsts (xs : List α) : SameFirsts key (firstsFrom key [] xs) xs :=
  fun seen => firstsFrom_firstsFrom (List.nil_subset seen) xs

theorem append {xs xs' ys ys' : List α} (hx : SameFirsts key xs xs') (hy : SameFirsts key ys ys') :
    SameFirsts key (xs ++ ys) (xs' ++ ys') := by
  intro seen
  rw [firstsFrom_append, firstsFrom_append, hx seen, hy]

theorem flatMap {β : Type} {l : List β} {f g : β → List α}
    (h : ∀ b ∈ l, SameFirsts key (f b) (g b)) : SameFirsts key (l.flatMap f) (l.flatMap g) := by
  induction l with
  | nil => exact refl []
  | cons b l ih =>
    rw [List.flatMap_cons, List.flatMap_cons]
    exact append (h b List.mem_cons_self) (ih fun b' hb' => h b' (List.mem_cons_of_mem b hb'))

end SameFirsts

/-! ### Maps that are written step by step -/

namespace OrderedMap

variable {α β : Type}

/-- **Keys of a written map.** Whatever the steps write, each key stands where it was written
first. -/
theorem keys_foldl_alter (key : β → String) (value : β → Option α → α) (steps : List β) :
    (steps.foldl (fun m b => m.alter (key b) (value b)) empty).keys =
      (steps.map key).eraseDups := by
  induction steps using List.reverseRecOn with
  | nil => rfl
  | append_singleton steps b ih =>
    rw [List.foldl_append, List.foldl_cons, List.foldl_nil, keys_alter, ih, List.map_append,
      List.map_singleton, eraseDups_concat]
    simp only [List.mem_eraseDups]

end OrderedMap

/-! ### Documents and members -/

theorem ComponentDoc.dedupeFrom_eq_firstsFrom (seen : List String) (docs : List ComponentDoc) :
    dedupeFrom seen docs = firstsFrom exportName seen docs := by
  induction docs generalizing seen with
  | nil => rfl
  | cons d docs ih => rw [dedupeFrom, firstsFrom, ih, ih]

theorem ComponentDoc.dedupe_eq_firstsFrom (docs : List ComponentDoc) :
    dedupe docs = firstsFrom exportName [] docs :=
  dedupeFrom_eq_firstsFrom [] docs

theorem firstOfEachName_eq_firstsFrom (seen : List String) (ms : List ScopedMember) :
    firstOfEachName seen ms = firstsFrom ScopedMember.name seen ms := by
  induction ms generalizing seen with
  | nil => rfl
  | cons m ms ih => rw [firstOfEachName, firstsFrom, ih, ih]

end PropDocs
