/-!
# Parts between separators

The lines of a text are its parts between line feeds, and the segments of a path its parts between
slashes, both as `List.splitOn` gives them.

* `exists_splitOn_eq_cons`: there is always a first part;
* `splitOn_cons_self`, `splitOn_cons_of_ne`: the parts of a list, from its first item;
* `splitOn_append`, `splitOn_append_of_notMem`: the parts of two lists, one behind the other;
* `splitOn_inj`: the parts determine the list;
* `mem_of_mem_splitOn`: what a part is made of.
-/

namespace PropDocs

variable {α : Type} [BEq α] [LawfulBEq α] {a : α}

theorem exists_splitOn_eq_cons (a : α) (xs : List α) : ∃ p ps, xs.splitOn a = p :: ps :=
  List.exists_cons_of_ne_nil (List.splitOn_ne_nil a xs)

theorem splitOn_cons_self (a : α) (xs : List α) : (a :: xs).splitOn a = [] :: xs.splitOn a :=
  List.splitOn_append_cons_self [] xs

theorem splitOn_cons_of_ne {x : α} (hx : x ≠ a) {xs p : List α} {ps : List (List α)}
    (h : xs.splitOn a = p :: ps) : (x :: xs).splitOn a = (x :: p) :: ps := by
  rw [List.splitOn_cons_eq_if_modifyHead, if_neg (by simpa using hx), h, List.modifyHead_cons]

/-- The last part of a list goes on with the first part of the list behind it. -/
theorem splitOn_append (xs : List α) {ys p : List α} {ps : List (List α)}
    (hys : ys.splitOn a = p :: ps) :
    ∃ init last, xs.splitOn a = init ++ [last] ∧ (xs ++ ys).splitOn a = init ++ (last ++ p) :: ps := by
  induction xs with
  | nil => exact ⟨[], [], rfl, hys⟩
  | cons x xs ih =>
    obtain ⟨init, last, hxs, hall⟩ := ih
    by_cases hx : x = a
    · refine ⟨[] :: init, last, ?_, ?_⟩
      · rw [hx, splitOn_cons_self, hxs, List.cons_append]
      · rw [hx, List.cons_append, splitOn_cons_self, hall, List.cons_append]
    · cases init with
      | nil => exact ⟨[], x :: last, splitOn_cons_of_ne hx hxs, splitOn_cons_of_ne hx hall⟩
      | cons q init =>
        exact ⟨(x :: q) :: init, last, splitOn_cons_of_ne hx hxs, splitOn_cons_of_ne hx hall⟩

theorem splitOn_append_of_notMem {xs : List α} (h : a ∉ xs) {ys p : List α} {ps : List (List α)}
    (hys : ys.splitOn a = p :: ps) : (xs ++ ys).splitOn a = (xs ++ p) :: ps := by
  obtain ⟨init, last, hxs, hall⟩ := splitOn_append xs hys
  rw [List.splitOn_eq_singleton h] at hxs
  cases init with
  | nil =>
    obtain rfl := List.singleton_inj.1 hxs
    exact hall
  | cons q init => simp at hxs

/-- A list is known from its parts. -/
theorem splitOn_inj {xs ys : List α} : xs.splitOn a = ys.splitOn a ↔ xs = ys := by
  constructor
  · intro h
    have hjoined := congrArg [a].intercalate h
    rwa [List.intercalate_splitOn, List.intercalate_splitOn] at hjoined
  · rintro rfl
    rfl

/-- A part is made of items of the list that are no separators. -/
theorem mem_of_mem_splitOn {xs p : List α} (hp : p ∈ xs.splitOn a) {x : α} (hx : x ∈ p) :
    x ∈ xs ∧ x ≠ a := by
  induction xs generalizing p with
  | nil =>
    rw [List.mem_singleton.1 hp] at hx
    cases hx
  | cons y xs ih =>
    have hlater : ∀ {q}, q ∈ xs.splitOn a → x ∈ q → x ∈ y :: xs ∧ x ≠ a := by
      intro q hq hxq
      obtain ⟨hmem, hne⟩ := ih hq hxq
      exact ⟨List.mem_cons_of_mem y hmem, hne⟩
    by_cases hy : y = a
    · rw [hy, splitOn_cons_self] at hp
      rcases List.mem_cons.1 hp with rfl | hp
      · cases hx
      · exact hlater hp hx
    · obtain ⟨q, qs, hq⟩ := exists_splitOn_eq_cons a xs
      rw [splitOn_cons_of_ne hy hq] at hp
      rcases List.mem_cons.1 hp with rfl | hp
      · rcases List.mem_cons.1 hx with rfl | hx
        · exact ⟨List.mem_cons_self, hy⟩
        · exact hlater (hq ▸ List.mem_cons_self) hx
      · exact hlater (hq ▸ List.mem_cons_of_mem q hp) hx

theorem notMem_of_mem_splitOn {xs p : List α} (hp : p ∈ xs.splitOn a) : a ∉ p :=
  fun ha => (mem_of_mem_splitOn hp ha).2 rfl

end PropDocs
