import Winnow.Text.Blank

/-!
# Cutting undoes joining

Pieces without the separator come back when they are joined and cut again
(`split_join`), so joining them is injective (`join_injective`).  The pieces of
a cut text never hold the separator, and joined again they are the text
(`join_split`).
-/

namespace Winnow.Text

/-! ## Characters -/

theorem splitChars_of_not_mem {sep : Char} {cs : List Char} (h : sep ∉ cs) :
    splitChars sep cs = [cs] := by
  induction cs with
  | nil => rfl
  | cons c rest ih =>
    obtain ⟨hc, hrest⟩ := not_or.mp (mt List.mem_cons.mpr h)
    rw [splitChars, if_neg (Ne.symm hc), ih hrest]

theorem splitChars_ne_nil (sep : Char) (cs : List Char) : splitChars sep cs ≠ [] := by
  cases cs with
  | nil => exact List.cons_ne_nil _ _
  | cons c rest =>
    rw [splitChars]
    split
    · exact List.cons_ne_nil _ _
    · split <;> exact List.cons_ne_nil _ _

/-- A separator keeps the pieces before it and those after it apart. -/
theorem splitChars_append_sep (sep : Char) (cs rest : List Char) :
    splitChars sep (cs ++ sep :: rest) = splitChars sep cs ++ splitChars sep rest := by
  induction cs with
  | nil => simp [splitChars]
  | cons c cs ih =>
    rw [List.cons_append, splitChars, splitChars, ih]
    split
    · rfl
    · cases hsplit : splitChars sep cs with
      | nil => exact absurd hsplit (splitChars_ne_nil sep cs)
      | cons piece pieces => rfl

theorem not_mem_of_mem_splitChars {sep : Char} {cs piece : List Char}
    (h : piece ∈ splitChars sep cs) : sep ∉ piece := by
  induction cs generalizing piece with
  | nil =>
    rw [splitChars, List.mem_singleton] at h
    subst h
    exact List.not_mem_nil
  | cons c rest ih =>
    rw [splitChars] at h
    by_cases hc : c = sep
    · rw [if_pos hc] at h
      rcases List.mem_cons.mp h with rfl | h
      · exact List.not_mem_nil
      · exact ih h
    · rw [if_neg hc] at h
      -- only the first piece has grown, by a character that is no separator
      cases hsplit : splitChars sep rest with
      | nil =>
        rw [hsplit, List.mem_singleton] at h
        subst h
        simpa using Ne.symm hc
      | cons first pieces =>
        rw [hsplit] at h ih
        rcases List.mem_cons.mp h with rfl | h
        · exact mt List.mem_cons.mp (not_or.mpr ⟨Ne.symm hc, ih List.mem_cons_self⟩)
        · exact ih (List.mem_cons_of_mem first h)

/-! ## Texts -/

theorem split_ne_nil (sep : Char) (s : String) : split sep s ≠ [] :=
  mt List.map_eq_nil_iff.mp (splitChars_ne_nil sep s.toList)

/-- The pieces of a text do not hold the separator. -/
theorem not_mem_of_mem_split {sep : Char} {s piece : String} (h : piece ∈ split sep s) :
    sep ∉ piece.toList := by
  obtain ⟨cs, hcs, rfl⟩ := List.mem_map.mp h
  rw [String.toList_ofList]
  exact not_mem_of_mem_splitChars hcs

theorem split_append_sep (sep : Char) (s t : String) :
    split sep (s ++ String.singleton sep ++ t) = split sep s ++ split sep t := by
  unfold split
  rw [← List.map_append, ← splitChars_append_sep]
  simp

theorem split_of_not_mem {sep : Char} {s : String} (h : sep ∉ s.toList) : split sep s = [s] := by
  unfold split
  rw [splitChars_of_not_mem h, List.map_singleton, String.ofList_toList]

/-- Pieces that are joined with a separator that none of them holds come back. -/
theorem split_join {sep : Char} {pieces : List String} (hne : pieces ≠ [])
    (h : ∀ piece ∈ pieces, sep ∉ piece.toList) :
    split sep (join (String.singleton sep) pieces) = pieces := by
  induction pieces with
  | nil => exact absurd rfl hne
  | cons first rest ih =>
    have hfirst := h first List.mem_cons_self
    by_cases hrest : rest = []
    · rw [hrest, join, String.intercalate_singleton, split_of_not_mem hfirst]
    · have ih := ih hrest fun piece hpiece => h piece (List.mem_cons_of_mem first hpiece)
      unfold join at ih ⊢
      rw [String.intercalate_cons_of_ne_nil hrest, split_append_sep, ih, split_of_not_mem hfirst,
        List.singleton_append]

theorem join_cons_of_ne_nil {sep first : String} {rest : List String} (h : rest ≠ []) :
    join sep (first :: rest) = first ++ sep ++ join sep rest := String.intercalate_cons_of_ne_nil h

/-- The pieces of a text, joined again. -/
theorem join_split (sep : Char) (s : String) :
    join (String.singleton sep) (split sep s) = s := by
  have hchars : ∀ cs : List Char,
      join (String.singleton sep) ((splitChars sep cs).map String.ofList) = String.ofList cs := by
    intro cs
    induction cs with
    | nil => exact String.intercalate_singleton
    | cons c rest ih =>
      rw [splitChars]
      split
      next hsep =>
        have hne : (splitChars sep rest).map String.ofList ≠ [] :=
          mt List.map_eq_nil_iff.mp (splitChars_ne_nil sep rest)
        rw [List.map_cons, join_cons_of_ne_nil hne, ih, hsep]
        apply String.ext
        simp
      next =>
        -- the character goes to the front of the first piece
        cases hsplit : splitChars sep rest with
        | nil => exact absurd hsplit (splitChars_ne_nil sep rest)
        | cons piece pieces =>
          rw [hsplit] at ih
          rw [String.ofList_cons, ← ih]
          simp only [List.map_cons, String.ofList_cons]
          cases pieces with
          | nil =>
            rw [List.map_nil, join, join, String.intercalate_singleton,
              String.intercalate_singleton]
          | cons next others =>
            rw [join_cons_of_ne_nil (by simp), join_cons_of_ne_nil (by simp),
              String.append_assoc, String.append_assoc, String.append_assoc]
  unfold split
  rw [hchars, String.ofList_toList]

theorem split_injective {sep : Char} {s t : String} (h : split sep s = split sep t) : s = t := by
  rw [← join_split sep s, h, join_split]

/-- Pieces at the end can be joined first. -/
theorem join_append_join (sep : String) (front : List String) {back : List String}
    (h : back ≠ []) : join sep (front ++ [join sep back]) = join sep (front ++ back) := by
  induction front with
  | nil => exact String.intercalate_singleton
  | cons first rest ih =>
    rw [List.cons_append, List.cons_append, join_cons_of_ne_nil (by simp), ih,
      join_cons_of_ne_nil (by simp [h])]

/-- Pieces that do not hold the separator are told by the text that they are joined to. -/
theorem join_injective {sep : Char} {pieces others : List String} (hpieces : pieces ≠ [])
    (hothers : others ≠ []) (h : ∀ piece ∈ pieces, sep ∉ piece.toList)
    (h' : ∀ piece ∈ others, sep ∉ piece.toList)
    (heq : join (String.singleton sep) pieces = join (String.singleton sep) others) :
    pieces = others := by
  rw [← split_join hpieces h, heq, split_join hothers h']

/-! ## Blanks -/

theorem trimStartChars_of_head {cs : List Char} (h : ∀ c ∈ cs.head?, isBlank c = false) :
    trimStartChars cs = cs := by
  cases cs with
  | nil => rfl
  | cons c rest => exact List.dropWhile_cons_of_neg (by simp [h c rfl])

theorem head_trimStartChars (cs : List Char) : ∀ c ∈ (trimStartChars cs).head?, isBlank c = false := by
  intro c hc
  unfold trimStartChars at hc
  have := List.head?_dropWhile_not isBlank cs
  rw [hc] at this
  simpa using this

theorem all_isBlank_trimStartChars (cs : List Char) :
    (trimStartChars cs).all isBlank = cs.all isBlank := by
  induction cs with
  | nil => rfl
  | cons c rest ih =>
    unfold trimStartChars at ih ⊢
    rw [List.dropWhile_cons]
    cases hblank : isBlank c with
    | true => rw [if_pos rfl, ih, List.all_cons, hblank, Bool.true_and]
    | false => rw [if_neg Bool.false_ne_true]

/-- Trimming leaves blanks only where there was nothing else. -/
theorem isBlankText_trim (s : String) : isBlankText (trim s) = isBlankText s := by
  unfold isBlankText trim trimChars
  rw [String.toList_ofList, List.all_reverse, all_isBlank_trimStartChars, List.all_reverse,
    all_isBlank_trimStartChars]

/-- A trimmed text has no blanks at its ends. -/
theorem trim_trim (s : String) : trim (trim s) = trim s := by
  have hchars : ∀ cs, trimChars (trimChars cs) = trimChars cs := by
    intro cs
    have hfirst : ∀ c ∈ (trimChars cs).head?, isBlank c = false := by
      intro c hc
      have hbegin : trimChars cs <+: trimStartChars cs := by
        rw [← List.reverse_suffix]
        unfold trimChars
        rw [List.reverse_reverse]
        exact List.dropWhile_suffix _
      refine head_trimStartChars cs c ?_
      obtain ⟨rest, hrest⟩ := hbegin
      rw [← hrest, List.head?_append, hc]
      rfl
    have hlast : ∀ c ∈ (trimChars cs).reverse.head?, isBlank c = false := by
      unfold trimChars
      rw [List.reverse_reverse]
      exact head_trimStartChars _
    rw [trimChars.eq_1 (trimChars cs), trimStartChars_of_head hfirst, trimStartChars_of_head hlast,
      List.reverse_reverse]
  unfold trim
  rw [String.toList_ofList, hchars]

theorem trimChars_trim (s : String) : trimChars (trim s).toList = trimChars s.toList := by
  have hagain : (String.ofList (trimChars (trim s).toList)).toList =
      (String.ofList (trimChars s.toList)).toList := congrArg String.toList (trim_trim s)
  rwa [String.toList_ofList, String.toList_ofList] at hagain

end Winnow.Text
