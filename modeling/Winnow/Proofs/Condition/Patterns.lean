import Winnow.Proofs.Compile.Completeness
import Winnow.Proofs.Engine.Like
import Winnow.Listing.Request
import Winnow.Proofs.Sample

/-!
# Texts that are looked for

The operators that look for a text in a column take it for a pattern, and so
does a search field (`predicate_looksFor`, `searchPredicate_like`).  Wherever
the text itself occurs up to case it is found (`finds_of_occurs`).  It is found
nowhere else exactly when it holds no wildcard: a wildcard in it also stands
for other characters (`texts_found`).
-/

namespace Winnow

open Engine Text

/-! ## Places -/

namespace Operator

/-- The operators that look for a text. -/
def textual : List Operator := [.contains, .beginsWith, .endsWith]

/-- Whether one text is a part of another where the operator looks for it. -/
def Places (operator : Operator) (part whole : List Char) : Prop :=
  match operator with
  | .contains => part <:+: whole
  | .beginsWith => part <+: whole
  | .endsWith => part <:+ whole
  | _ => False

/-- Whether a text occurs, up to case, where the operator looks for it. -/
def Occurs (operator : Operator) (s text : String) : Prop :=
  operator.Places (s.toList.map Text.fold) (text.toList.map Text.fold)

/-- Whether something that a pattern stands for occurs where the operator looks for it. -/
def Matches (operator : Operator) (pattern text : String) : Prop :=
  ∃ part, operator.Places part text.toList ∧ Fits pattern.toList part

/-- A text with wildcards around it, as the operator looks for it. -/
def around (operator : Operator) (s : String) : String :=
  match operator with
  | .contains => "%" ++ s ++ "%"
  | .beginsWith => "" ++ s ++ "%"
  | .endsWith => "%" ++ s ++ ""
  | _ => s

end Operator

/-- Whether a text holds no wildcard. -/
def IsLiteral (s : String) : Prop := '%' ∉ s.toList ∧ '_' ∉ s.toList

/-! ## Pieces -/

namespace Engine

theorem fits_append {first last cs : List Char} :
    Fits (first ++ last) cs ↔ ∃ front back, cs = front ++ back ∧ Fits first front ∧ Fits last back := by
  induction first generalizing cs with
  | nil => simp [fits_nil]
  | cons p first ih =>
    rw [List.cons_append, fits_cons]
    constructor
    · rintro ⟨piece, rest, rfl, hpiece, hrest⟩
      obtain ⟨front, back, rfl, hfront, hback⟩ := ih.mp hrest
      exact ⟨piece ++ front, back, (List.append_assoc ..).symm,
        fits_cons.mpr ⟨piece, front, rfl, hpiece, hfront⟩, hback⟩
    · rintro ⟨front, back, rfl, hfront, hback⟩
      obtain ⟨piece, rest, rfl, hpiece, hrest⟩ := fits_cons.mp hfront
      exact ⟨piece, rest ++ back, List.append_assoc .., hpiece,
        ih.mpr ⟨rest, back, rfl, hrest, hback⟩⟩

theorem fits_percent (cs : List Char) : Fits ['%'] cs :=
  fits_cons.mpr ⟨cs, [], (List.append_nil cs).symm, .anyText cs, fits_nil.mpr rfl⟩

/-- A character stands for itself up to case, also when it is a wildcard. -/
theorem standsFor_of_fold {p c : Char} (h : Text.fold p = Text.fold c) : StandsFor p [c] := by
  by_cases hany : p = '%'
  · subst hany
    exact .anyText [c]
  · exact (standsFor_single hany).mpr ⟨c, rfl, .inr h⟩

theorem fits_of_fold {pattern cs : List Char} (h : pattern.map Text.fold = cs.map Text.fold) :
    Fits pattern cs := by
  induction pattern generalizing cs with
  | nil => exact fits_nil.mpr (List.map_eq_nil_iff.mp h.symm)
  | cons p pattern ih =>
    cases cs with
    | nil => cases h
    | cons c cs =>
      obtain ⟨hhead, htail⟩ := List.cons.inj h
      exact fits_cons.mpr ⟨[c], cs, rfl, standsFor_of_fold hhead, ih htail⟩

/-- Without wildcards there is nothing else that a pattern stands for. -/
theorem fold_of_fits {pattern cs : List Char} (hany : '%' ∉ pattern) (hone : '_' ∉ pattern)
    (h : Fits pattern cs) : pattern.map Text.fold = cs.map Text.fold := by
  induction pattern generalizing cs with
  | nil => rw [fits_nil.mp h]
  | cons p pattern ih =>
    obtain ⟨hp, hany⟩ := not_or.mp (mt List.mem_cons.mpr hany)
    obtain ⟨hp', hone⟩ := not_or.mp (mt List.mem_cons.mpr hone)
    obtain ⟨piece, rest, rfl, hpiece, hrest⟩ := fits_cons.mp h
    obtain ⟨c, rfl, hc⟩ := (standsFor_single (Ne.symm hp)).mp hpiece
    rw [List.singleton_append, List.map_cons, List.map_cons, ih hany hone hrest,
      hc.resolve_left (Ne.symm hp')]

/-- A letter in the place of every wildcard is one of the things that a pattern stands for. -/
def filled (pattern : List Char) : List Char :=
  pattern.map fun p => if p = '%' ∨ p = '_' then 'a' else p

theorem fits_filled (pattern : List Char) : Fits pattern (filled pattern) := by
  induction pattern with
  | nil => exact fits_nil.mpr rfl
  | cons p pattern ih =>
    refine fits_cons.mpr ⟨[if p = '%' ∨ p = '_' then 'a' else p], filled pattern, rfl, ?_, ih⟩
    split
    next hwild =>
      rcases hwild with rfl | rfl
      · exact .anyText _
      · exact .anyChar _
    next => exact standsFor_of_fold rfl

/-- And it is the pattern itself only when there was no wildcard. -/
theorem literal_of_filled {pattern : List Char}
    (h : pattern.map Text.fold = (filled pattern).map Text.fold) : '%' ∉ pattern ∧ '_' ∉ pattern := by
  rw [filled, List.map_map, List.map_inj_left] at h
  constructor
  · intro hmem
    exact absurd (h '%' hmem) (by decide)
  · intro hmem
    exact absurd (h '_' hmem) (by decide)

end Engine

/-! ## Looking for a text -/

namespace Operator

section
variable {operator : Operator} (hop : operator ∈ textual)

include hop

theorem textual_cases : operator = .contains ∨ operator = .beginsWith ∨ operator = .endsWith := by
  simpa [textual] using hop

/-- Parts of a text up to case are parts of the text. -/
theorem places_map_iff {part whole : List Char} (f : Char → Char) :
    operator.Places part (whole.map f) ↔ ∃ found, operator.Places found whole ∧ part = found.map f := by
  rcases textual_cases hop with rfl | rfl | rfl
  · exact List.infix_map_iff
  · exact List.prefix_map_iff
  · exact List.suffix_map_iff

/-- A part as long as the whole is the whole. -/
theorem eq_of_places {part whole : List Char} (h : operator.Places part whole)
    (hlength : part.length = whole.length) : part = whole := by
  rcases textual_cases hop with rfl | rfl | rfl
  · exact List.IsInfix.eq_of_length h hlength
  · exact List.IsPrefix.eq_of_length h hlength
  · exact List.IsSuffix.eq_of_length h hlength

theorem places_self (cs : List Char) : operator.Places cs cs := by
  rcases textual_cases hop with rfl | rfl | rfl
  · exact List.infix_rfl
  · exact List.prefix_rfl
  · exact List.suffix_rfl

theorem like_around (s text : String) :
    like text (operator.around s) = true ↔ operator.Matches s text := by
  have hwild : "%".toList = ['%'] := rfl
  rw [like_iff_fits]
  rcases textual_cases hop with rfl | rfl | rfl
  · show Fits ("%" ++ s ++ "%").toList text.toList ↔ ∃ part, part <:+: text.toList ∧ _
    rw [String.toList_append, String.toList_append, hwild]
    constructor
    · intro h
      obtain ⟨front, back, hcs, hfront, -⟩ := fits_append.mp h
      obtain ⟨before, part, rfl, -, hpart⟩ := fits_append.mp hfront
      exact ⟨part, ⟨before, back, hcs.symm⟩, hpart⟩
    · rintro ⟨part, ⟨before, after, hcs⟩, hpart⟩
      exact fits_append.mpr ⟨before ++ part, after, hcs.symm,
        fits_append.mpr ⟨before, part, rfl, fits_percent before, hpart⟩, fits_percent after⟩
  · show Fits ("" ++ s ++ "%").toList text.toList ↔ ∃ part, part <+: text.toList ∧ _
    rw [String.empty_append, String.toList_append, hwild]
    constructor
    · intro h
      obtain ⟨part, after, hcs, hpart, -⟩ := fits_append.mp h
      exact ⟨part, ⟨after, hcs.symm⟩, hpart⟩
    · rintro ⟨part, ⟨after, hcs⟩, hpart⟩
      exact fits_append.mpr ⟨part, after, hcs.symm, hpart, fits_percent after⟩
  · show Fits ("%" ++ s ++ "").toList text.toList ↔ ∃ part, part <:+ text.toList ∧ _
    rw [String.append_empty, String.toList_append, hwild]
    constructor
    · intro h
      obtain ⟨before, part, hcs, -, hpart⟩ := fits_append.mp h
      exact ⟨part, ⟨before, hcs.symm⟩, hpart⟩
    · rintro ⟨part, ⟨before, hcs⟩, hpart⟩
      exact fits_append.mpr ⟨before, part, hcs.symm, fits_percent before, hpart⟩

/-- A text is found wherever it occurs. -/
theorem matches_of_occurs {s text : String} (h : operator.Occurs s text) : operator.Matches s text := by
  obtain ⟨part, hpart, hfold⟩ := (places_map_iff hop Text.fold).mp h
  exact ⟨part, hpart, fits_of_fold hfold⟩

/-- It is found only there exactly when it holds no wildcard. -/
theorem matches_iff_occurs (s : String) :
    (∀ text, operator.Matches s text ↔ operator.Occurs s text) ↔ IsLiteral s := by
  constructor
  · intro h
    have hfilled : operator.Matches s (String.ofList (filled s.toList)) := by
      refine ⟨filled s.toList, ?_, fits_filled s.toList⟩
      rw [String.toList_ofList]
      exact places_self hop _
    have hoccurs := (h _).mp hfilled
    unfold Occurs at hoccurs
    rw [String.toList_ofList] at hoccurs
    exact literal_of_filled (eq_of_places hop hoccurs (by simp [filled]))
  · rintro ⟨hany, hone⟩ text
    refine ⟨?_, matches_of_occurs hop⟩
    rintro ⟨part, hpart, hfits⟩
    exact (places_map_iff hop Text.fold).mpr ⟨part, hpart, fold_of_fits hany hone hfits⟩

end

end Operator

/-! ## Predicates -/

namespace Operation

section
variable {op : Operation} {s : String} (hs : Value.textOf? op.value = some s)
  (hop : op.operator ∈ Operator.textual)

include hs hop

theorem predicate_looksFor :
    op.predicate = .ok (some (.test (.like op.column (op.operator.around s) false))) := by
  have htext : op.text = .ok s := by
    unfold text
    rw [hs]
  unfold predicate pattern
  rw [htext]
  rcases Operator.textual_cases hop with h | h | h <;> rw [h] <;> rfl

theorem question_looksFor :
    op.question = .ok (some (Value.isLike (op.operator.around s) false)) := by
  have htext : op.text = .ok s := by
    unfold text
    rw [hs]
  unfold question patternQuestion
  rw [htext]
  rcases Operator.textual_cases hop with h | h | h <;> rw [h] <;> rfl

end

end Operation

namespace Listing

open Compile

/-- What a search for a text asks of a field, which may go through relations. -/
theorem ofField_looksFor (db : Dataset) (registry : Registry) (context : CompileContext) (e : Entity)
    (field s : String) :
    Condition.ofField db registry context e field (Filter.plain .text field field) .contains
      (.string s) = .ok (some (Condition.ofPath db registry e (registry.splitPath e field)
        (Value.isLike (Operator.contains.around s) false))) := by
  obtain ⟨owner, howner⟩ := registry.walk_relationSegments e (split '.' field)
  have howner : registry.walk e (registry.splitPath e field).relations = .ok owner := howner
  have hasked : Condition.asked context (owner.columnType? (registry.splitPath e field).column)
      (Filter.plain .text field field) .contains (.string s) field =
        .ok (some (Value.isLike (Operator.contains.around s) false)) :=
    Operation.question_looksFor rfl List.mem_cons_self
  have hparts : (Filter.plain .text field field).dateTimeParts = none := rfl
  unfold Condition.ofField
  rw [hparts]
  simp only [bind, Except.bind, howner, hasked]
  rfl

/-- A search field with a text is looked into for the text, in the field itself or in that of any
visible row that its path of relations reaches. -/
theorem searchPredicate_like (registry : Registry) (context : CompileContext) (q : Query)
    (field s : String) :
    ∃ p, searchPredicate ⟨registry, context, none⟩ q ⟨field, .like⟩ s = .ok (some p) ∧
      ∀ db frame row, Frame.row? frame q.qualifier = some row → predicateHolds db frame p =
        (Condition.reached db registry q.entity (registry.splitPath q.entity field).relations row).any
          fun r => Value.isLike (Operator.contains.around s) false
            (r.value (registry.splitPath q.entity field).column) := by
  have hmeans := fun db => fieldPredicate_means db ⟨registry, context, none⟩ q .unmet
    (fun frame row => frame.row? q.qualifier = some row) (fun _ _ hrow => hrow)
    (Filter.plain .text field field) .contains (.string s) field fun _ => by
      have hunjoined : joinOf? ⟨registry, context, none⟩ q (registry.splitPath q.entity field) = none :=
        ite_self _
      unfold Served
      rw [hunjoined]
      exact .inl rfl
  simp only [ofField_looksFor] at hmeans
  cases hfield : fieldPredicate ⟨registry, context, none⟩ q field (Filter.plain .text field field)
      .contains (.string s) with
  | error e =>
    rw [hfield] at hmeans
    cases hmeans ⟨[]⟩
  | ok found =>
    rw [hfield] at hmeans
    cases found with
    | none => cases hmeans ⟨[]⟩
    | some p =>
      refine ⟨p, ?_, fun db frame row hrow => ?_⟩
      · unfold searchPredicate searchOperation
        simp only [hfield]
      · cases hmeans db with
        | bound h => exact (h frame row hrow).trans (Condition.ofPath_of_any (.inl rfl) _ row)

end Listing

namespace Condition

open Compile Listing

/-- An operator that looks for a text takes every text, and holds of a stored text exactly when that
has, where the operator looks, something that the text stands for as a pattern.  So does a search
field with the text, in the field of some visible row that its path reaches.  Where the text occurs
up to case it is found, and it is found nowhere else exactly when it holds no wildcard. -/
theorem texts_found (s : String) :
    (∀ operator ∈ Operator.textual,
      (∀ (env : Environment) filter declared column value field, Value.textOf? value = some s →
        ∃ p, columnPredicate env column declared filter operator value field = .ok (some p) ∧
          ∀ db frame text, read frame column = .text text →
            (predicateHolds db frame p = true ↔ operator.Matches s text)) ∧
      (∀ text, operator.Occurs s text → operator.Matches s text) ∧
      ((∀ text, operator.Matches s text ↔ operator.Occurs s text) ↔ IsLiteral s)) ∧
    ∀ (registry : Registry) context (q : Query) field,
      ∃ p, searchPredicate ⟨registry, context, none⟩ q ⟨field, .like⟩ s = .ok (some p) ∧
        ∀ db frame row, Frame.row? frame q.qualifier = some row → (predicateHolds db frame p = true ↔
          ∃ r ∈ reached db registry q.entity (registry.splitPath q.entity field).relations row,
            ∃ text, (r.value (registry.splitPath q.entity field).column).text? = some text ∧
              Operator.contains.Matches s text) := by
  have hlike : ∀ operator ∈ Operator.textual, ∀ v : Value,
      Value.isLike (operator.around s) false v = true ↔
        ∃ text, v.text? = some text ∧ operator.Matches s text := by
    intro operator hop v
    unfold Value.isLike
    cases v.text? with
    | none => simp
    | some text => simp [Operator.like_around hop]
  constructor
  · intro operator hop
    refine ⟨?_, fun text => Operator.matches_of_occurs hop, Operator.matches_iff_occurs hop s⟩
    intro env filter declared column value field hs
    refine ⟨_, Operation.predicate_looksFor hs hop, fun db frame text htext => ?_⟩
    rw [asks_like column (operator.around s) false db frame, hlike operator hop, htext]
    simp [Value.text?]
  · intro registry context q field
    obtain ⟨p, hp, hholds⟩ := searchPredicate_like registry context q field s
    refine ⟨p, hp, fun db frame row hrow => ?_⟩
    rw [hholds db frame row hrow, List.any_eq_true]
    exact exists_congr fun r => and_congr_right fun _ => hlike .contains List.mem_cons_self _

/-- A name is found by its beginning, whatever the case. -/
theorem texts_found_sample :
    let env : Environment := ⟨Sample.registry, Sample.context, none⟩
    let frame : Frame := [("contacts", some (Sample.contactRow 1 "Ann" .null))]
    Operator.beginsWith ∈ Operator.textual ∧ Value.textOf? (.string "aN") = some "aN" ∧
      IsLiteral "aN" ∧ read frame (.field "contacts" "name") = .text "Ann" ∧
      ∃ p, columnPredicate env (.field "contacts" "name") (some .text)
          (Filter.plain .text "name" "Name") .beginsWith (.string "aN") "name" = .ok (some p) ∧
        (predicateHolds Sample.dataset frame p = true ↔ Operator.beginsWith.Occurs "aN" "Ann") := by
  intro env frame
  have hread : read frame (.field "contacts" "name") = .text "Ann" := by decide +kernel
  have hliteral : IsLiteral "aN" := by
    unfold IsLiteral
    decide
  obtain ⟨hcolumn, -, hexact⟩ := (texts_found "aN").1 .beginsWith (by decide)
  obtain ⟨p, hp, hholds⟩ := hcolumn env (Filter.plain .text "name" "Name") (some .text)
    (.field "contacts" "name") (.string "aN") "name" rfl
  exact ⟨by decide, rfl, hliteral, hread, p, hp,
    (hholds _ _ _ hread).trans (hexact.mpr hliteral "Ann")⟩

/-- An underscore is found in a name without one, by a rule as well as by a search. -/
theorem underscore_found_anywhere :
    let frame : Frame := [("contacts", some (Sample.contactRow 1 "Ann" .null))]
    ¬ Operator.contains.Occurs "_" "Ann" ∧
    (columnPredicate ⟨Sample.registry, Sample.context, none⟩ (.field "contacts" "name") (some .text)
      (Filter.plain .text "name" "Name") .contains (.string "_") "name").toOption.join.map
        (predicateHolds Sample.dataset frame) = some true ∧
    (request Sample.registry Sample.context {} { searchable := some [⟨"name", .like⟩] }
      { text := some "_" } (Query.ofEntity Sample.contact)).toOption.map (ids Sample.dataset) =
        some [1, 2, 3] := by
  have hoccurs : ¬ Operator.contains.Occurs "_" "Ann" := by
    show ¬ "_".toList.map Text.fold <:+: "Ann".toList.map Text.fold
    decide +kernel
  exact ⟨hoccurs, by decide +kernel, by decide +kernel⟩

end Condition
end Winnow
