import PropDocs.Path
import PropDocs.Proofs.SplitTexts

/-!
# Normal paths

A normal path is an absolute path of plain segments: no empty segment, no dot, no double dot.  Every
place of a file system has one normal path, and this file shows which operations on paths give one.

* `segments_root_intercalate`: the segments of a normal path are the ones it was put together from;
* `isNormal_normalize`, `IsNormal.normalize_eq`: normalising an absolute path makes it normal, and
  leaves a normal path as it is;
* `isNormal_append`, `isNormal_join`: an ending behind a path, or a plain segment behind a normal
  one, gives a normal path.
-/

namespace PropDocs.Path

/-! ### Normal form -/

/-- **Plain segment**: a name, and not a step to the same or the upper directory. -/
structure Plain (s : String) : Prop where
  nonempty : s ≠ ""
  not_dot : s ≠ "."
  not_dots : s ≠ ".."
  no_slash : '/' ∉ s.toList

/-- **Normal path**: an absolute path of plain segments. -/
def IsNormal (p : Path) : Prop :=
  ∃ ss, (∀ s ∈ ss, Plain s) ∧ p = "/" ++ "/".intercalate ss

theorem toList_root_append (q : String) : ("/" ++ q).toList = '/' :: q.toList := by
  rw [String.toList_append]
  rfl

theorem splitOn_root_intercalate {ss : List String} (h : ∀ s ∈ ss, Plain s) (hne : ss ≠ []) :
    ("/" ++ "/".intercalate ss).toList.splitOn '/' = [] :: ss.map String.toList := by
  have hslash : "/".toList = ['/'] := rfl
  rw [toList_root_append, splitOn_cons_self, String.toList_intercalate, hslash,
    List.splitOn_intercalate]
  · intro cs hcs
    obtain ⟨s, hs, rfl⟩ := List.mem_map.1 hcs
    exact (h s hs).no_slash
  · simpa using hne

theorem segments_root_intercalate {ss : List String} (h : ∀ s ∈ ss, Plain s) :
    segments ("/" ++ "/".intercalate ss) = ss := by
  rw [segments]
  by_cases hne : ss = []
  · rw [hne]
    rfl
  · rw [splitOn_root_intercalate h hne, List.map_cons, List.map_map,
      List.filter_cons_of_neg (by simp), List.filter_eq_self.2]
    · simp [Function.comp_def]
    · intro s hs
      have hs' : s ∈ ss := by simpa [Function.comp_def] using hs
      simp [(h s hs').nonempty, (h s hs').not_dot]

theorem IsNormal.isAbsolute {p : Path} (h : IsNormal p) : isAbsolute p = true := by
  obtain ⟨ss, -, rfl⟩ := h
  rw [Path.isAbsolute, toList_root_append]
  rfl

theorem IsNormal.segments_plain {p : Path} (h : IsNormal p) : ∀ s ∈ segments p, Plain s := by
  obtain ⟨ss, hss, rfl⟩ := h
  rwa [segments_root_intercalate hss]

theorem IsNormal.eq_join {p : Path} (h : IsNormal p) : p = "/" ++ "/".intercalate (segments p) := by
  obtain ⟨ss, hss, rfl⟩ := h
  rw [segments_root_intercalate hss]

theorem plain_of_mem_segments {p : Path} {s : String} (h : s ∈ segments p) (hs : s ≠ "..") :
    Plain s := by
  obtain ⟨hmem, hkeep⟩ := List.mem_filter.1 h
  obtain ⟨piece, hpiece, rfl⟩ := List.mem_map.1 hmem
  simp only [bne_iff_ne, ne_eq, Bool.and_eq_true] at hkeep
  refine ⟨hkeep.1, hkeep.2, hs, ?_⟩
  rw [String.toList_ofList]
  exact notMem_of_mem_splitOn hpiece

theorem foldSegment_of_ne {s : String} (rooted : Bool) (stack : List String) (h : s ≠ "..") :
    foldSegment rooted stack s = s :: stack := by
  unfold foldSegment
  exact if_neg h

theorem foldSegment_dots_of_ne {top : String} (rest : List String) (h : top ≠ "..") :
    foldSegment true (top :: rest) ".." = rest := by
  unfold foldSegment
  rw [if_pos rfl]
  exact if_neg h

/-- Folding the segments of an absolute path leaves plain segments only. -/
theorem foldl_foldSegment_plain {ss : List String} :
    ∀ stack : List String, (∀ s ∈ ss, s ≠ ".." → Plain s) → (∀ s ∈ stack, Plain s) →
      ∀ s ∈ ss.foldl (foldSegment true) stack, Plain s := by
  induction ss with
  | nil =>
    intro stack _ hstack
    exact hstack
  | cons s ss ih =>
    intro stack hss hstack
    rw [List.foldl_cons]
    apply ih _ (fun t ht => hss t (List.mem_cons_of_mem s ht))
    intro t ht
    by_cases hs : s = ".."
    · cases stack with
      | nil => simp [foldSegment, hs] at ht
      | cons top rest =>
        rw [hs, foldSegment_dots_of_ne rest (hstack top List.mem_cons_self).not_dots] at ht
        exact hstack t (List.mem_cons_of_mem top ht)
    · rw [foldSegment_of_ne true stack hs] at ht
      rcases List.mem_cons.1 ht with rfl | ht
      · exact hss t List.mem_cons_self hs
      · exact hstack t ht

/-- **Normalising** an absolute path makes it normal. -/
theorem isNormal_normalize {p : Path} (h : Path.isAbsolute p = true) : IsNormal (normalize p) := by
  refine ⟨foldSegments true (segments p), ?_, ?_⟩
  · intro s hs
    rw [foldSegments, List.mem_reverse] at hs
    exact foldl_foldSegment_plain [] (fun t ht => plain_of_mem_segments ht) (by simp) s hs
  · rw [normalize, h, if_pos rfl]

theorem foldl_foldSegment_of_plain {ss : List String} :
    ∀ stack : List String, (∀ s ∈ ss, Plain s) →
      ss.foldl (foldSegment true) stack = ss.reverse ++ stack := by
  induction ss with
  | nil =>
    intro stack _
    rfl
  | cons s ss ih =>
    intro stack h
    rw [List.foldl_cons, foldSegment_of_ne true stack (h s List.mem_cons_self).not_dots,
      ih _ fun t ht => h t (List.mem_cons_of_mem s ht)]
    simp

theorem IsNormal.normalize_eq {p : Path} (h : IsNormal p) : normalize p = p := by
  rw [normalize, h.isAbsolute, if_pos rfl, foldSegments,
    foldl_foldSegment_of_plain [] h.segments_plain, List.append_nil, List.reverse_reverse]
  exact h.eq_join.symm

/-! ### Relative paths -/

theorem isAbsolute_append {p : Path} (h : p ≠ "") (q : String) :
    isAbsolute (p ++ q) = isAbsolute p := by
  have hne : p.toList ≠ [] := fun e => h (String.toList_injective e)
  obtain ⟨c, cs, hp⟩ := List.exists_cons_of_ne_nil hne
  rw [isAbsolute, isAbsolute, String.toList_append, hp, List.cons_append]
  by_cases hc : c = '/' <;> simp [hc]

theorem isAbsolute_join_of_ne {p q : Path} (hp : p ≠ "") (hq : isAbsolute q = false) :
    isAbsolute (join p q) = isAbsolute p := by
  rw [join, hq, if_neg (by simp), if_neg hp]
  split
  · exact isAbsolute_append hp q
  · rw [String.append_assoc, isAbsolute_append hp]

/-- Whatever it is seen from, a path is what the joined path ends with. -/
theorem exists_join_eq_append (p q : Path) : ∃ front, join p q = front ++ q := by
  rw [join]
  split
  · exact ⟨"", String.empty_append.symm⟩
  · split
    · exact ⟨"", String.empty_append.symm⟩
    · split
      · exact ⟨p, rfl⟩
      · exact ⟨p ++ "/", rfl⟩

theorem isAbsolute_join {p : Path} (hp : isAbsolute p = true) (q : Path) :
    isAbsolute (join p q) = true := by
  cases hq : isAbsolute q with
  | true => rwa [join, if_pos hq]
  | false =>
    have hne : p ≠ "" := by
      rintro rfl
      cases hp
    rw [isAbsolute_join_of_ne hne hq, hp]

theorem isAbsolute_parent? {p dir : Path} (hp : isAbsolute p = true) (h : parent? p = some dir) :
    isAbsolute dir = true := by
  rw [parent?] at h
  split at h
  · cases h
  · rw [← Option.some.inj h, ofComponents]
    show isAbsolute (if isAbsolute p = true then _ else _) = true
    rw [if_pos hp, isAbsolute, toList_root_append]
    rfl

theorem mem_foldl_foldSegment {rooted : Bool} {ss : List String} {t : String} :
    ∀ stack : List String, t ∈ ss.foldl (foldSegment rooted) stack →
      t ∈ stack ∨ t ∈ ss ∨ t = ".." := by
  induction ss with
  | nil =>
    intro stack h
    exact .inl h
  | cons s ss ih =>
    intro stack h
    rcases ih _ h with h | h | h
    · by_cases hs : s = ".."
      · cases stack with
        | nil => cases rooted <;> simp_all [foldSegment]
        | cons top rest =>
          by_cases htop : top = ".." <;> simp [foldSegment, hs, htop] at h <;> grind
      · rw [foldSegment_of_ne rooted stack hs] at h
        rcases List.mem_cons.1 h with rfl | h
        · exact .inr (.inl List.mem_cons_self)
        · exact .inl h
    · exact .inr (.inl (List.mem_cons_of_mem s h))
    · exact .inr (.inr h)

/-- A relative path stays relative, and does not vanish. -/
theorem not_isAbsolute_normalize {p : Path} (h : Path.isAbsolute p = false) :
    Path.isAbsolute (normalize p) = false ∧ normalize p ≠ "" := by
  rw [normalize, h, if_neg (by simp)]
  split
  · exact ⟨by decide, by decide⟩
  · rename_i hne
    obtain ⟨s, ss, hss⟩ := List.exists_cons_of_ne_nil (by simpa using hne :
      foldSegments false (segments p) ≠ [])
    have hs : s ≠ "" ∧ '/' ∉ s.toList := by
      have hmem : s ∈ foldSegments false (segments p) := hss ▸ List.mem_cons_self
      rw [foldSegments, List.mem_reverse] at hmem
      by_cases hdots : s = ".."
      · rw [hdots]
        exact ⟨by decide, by decide⟩
      · rcases mem_foldl_foldSegment [] hmem with hnil | hseg | hdots'
        · exact absurd hnil List.not_mem_nil
        · exact ⟨(plain_of_mem_segments hseg hdots).nonempty,
            (plain_of_mem_segments hseg hdots).no_slash⟩
        · exact absurd hdots' hdots
    have hjoin : ∃ rest, "/".intercalate (s :: ss) = s ++ rest :=
      ⟨"/".intercalate ("" :: ss), by rw [← String.intercalate_cons_append, String.append_empty]⟩
    obtain ⟨rest, hrest⟩ := hjoin
    rw [hss, hrest, isAbsolute_append hs.1]
    refine ⟨?_, ?_⟩
    · unfold isAbsolute
      split
      · rename_i cs hcs
        exact absurd (hcs ▸ List.mem_cons_self) hs.2
      · rfl
    · intro h
      have := congrArg String.toList h
      rw [String.toList_append] at this
      exact hs.1 (String.toList_injective (List.append_eq_nil_iff.1 this).1)

/-! ### Texts whose last segment is open -/

/-- **Open end**: an absolute path whose segments in front of the last slash are plain. -/
def OpenEnd (p : Path) : Prop :=
  ∃ ss : List String,
    (∀ s ∈ ss, Plain s) ∧ (p.toList.splitOn '/').dropLast = [] :: ss.map String.toList

theorem IsNormal.openEnd {p : Path} (h : IsNormal p) : OpenEnd p := by
  obtain ⟨ss, hss, rfl⟩ := h
  by_cases hne : ss = []
  · exact ⟨[], by simp, by rw [hne]; rfl⟩
  · refine ⟨ss.dropLast, fun s hs => hss s ((List.dropLast_sublist ss).subset hs), ?_⟩
    rw [splitOn_root_intercalate hss hne, List.dropLast_cons_of_ne_nil (by simpa using hne),
      List.map_dropLast]

theorem openEnd_append {p : Path} {text : String} (ht : '/' ∉ text.toList) :
    OpenEnd (p ++ text) ↔ OpenEnd p := by
  obtain ⟨init, last, hp, hall⟩ := splitOn_append p.toList (List.splitOn_eq_singleton ht)
  rw [OpenEnd, OpenEnd, String.toList_append, hp, hall, List.dropLast_concat, List.dropLast_concat]

/-- Three characters behind a segment make it plain, whatever it was: it is then neither empty nor a
dot nor a double dot. -/
theorem plain_append {s text : String} (hs : '/' ∉ s.toList) (ht : '/' ∉ text.toList)
    (hlen : 3 ≤ text.toList.length) : Plain (s ++ text) := by
  have hshort : ∀ t : String, t.toList.length < 3 → s ++ text ≠ t := by
    intro t hlt h
    rw [← h, String.toList_append, List.length_append] at hlt
    omega
  refine ⟨hshort "" (by decide), hshort "." (by decide), hshort ".." (by decide), ?_⟩
  rw [String.toList_append, List.mem_append, not_or]
  exact ⟨hs, ht⟩

theorem isNormal_append {p : Path} {text : String} (h : OpenEnd p) (ht : '/' ∉ text.toList)
    (hlen : 3 ≤ text.toList.length) : IsNormal (p ++ text) := by
  obtain ⟨init, last, hp, hall⟩ := splitOn_append p.toList (List.splitOn_eq_singleton ht)
  obtain ⟨ss, hss, hinit⟩ := h
  rw [hp, List.dropLast_concat] at hinit
  have hlast : '/' ∉ (String.ofList last).toList := by
    rw [String.toList_ofList]
    exact notMem_of_mem_splitOn (hp ▸ List.mem_append_right _ (List.mem_singleton_self last))
  have hplain : ∀ s ∈ ss ++ [String.ofList last ++ text], Plain s := by
    intro s hs
    rcases List.mem_append.1 hs with hs | hs
    · exact hss s hs
    · rw [List.mem_singleton.1 hs]
      exact plain_append hlast ht hlen
  refine ⟨_, hplain, ?_⟩
  apply String.toList_injective
  rw [← splitOn_inj, splitOn_root_intercalate hplain (by simp), String.toList_append, hall, hinit]
  simp [String.toList_append]

theorem isNormal_join {p : Path} {s : String} (h : IsNormal p) (hs : Plain s) :
    IsNormal (join p s) := by
  obtain ⟨ss, hss, rfl⟩ := h
  have hrel : isAbsolute s = false := by
    unfold isAbsolute
    split
    · rename_i rest hs'
      exact absurd (hs' ▸ List.mem_cons_self) hs.no_slash
    · rfl
  have hne : "/" ++ "/".intercalate ss ≠ "" := by
    intro h
    have := congrArg String.toList h
    rw [toList_root_append] at this
    simp at this
  rw [join, hrel, if_neg (by simp), if_neg hne]
  by_cases hnil : ss = []
  · rw [hnil, if_pos (by rfl)]
    exact ⟨[s], by simpa using hs, rfl⟩
  · have hplain : ∀ t ∈ ss ++ [s], Plain t := by
      intro t ht
      rcases List.mem_append.1 ht with ht | ht
      · exact hss t ht
      · rw [List.mem_singleton.1 ht]
        exact hs
    rw [if_neg]
    · refine ⟨ss ++ [s], hplain, ?_⟩
      rw [String.intercalate_append_of_ne_nil hnil (by simp), String.intercalate_singleton]
      simp [String.append_assoc]
    · -- A slash at the end would leave an empty last part.
      intro hslash
      obtain ⟨init, hinit⟩ := List.getLast?_eq_some_iff.1 hslash
      have hparts := splitOn_root_intercalate hss hnil
      rw [hinit, List.splitOn_append_cons_self] at hparts
      have hmem : [] ∈ ss.map String.toList := by
        have hlast := congrArg List.getLast? hparts
        rw [List.getLast?_cons_of_ne_nil (by simpa using hnil)] at hlast
        apply List.mem_of_getLast?
        rw [← hlast]
        simp
      obtain ⟨t, ht, htnil⟩ := List.mem_map.1 hmem
      exact (hss t ht).nonempty (String.toList_injective htnil)

end PropDocs.Path
