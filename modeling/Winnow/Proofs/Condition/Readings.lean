import Winnow.Proofs.Condition.Leaf

/-!
# The two readings of missing rows

A rule reads alike in both ways unless it asks about a field at the end of a
to-one path (`ofLeaf_cases`).  A rule on such a path can hold of a missing row
only where missing rows are null, and only if it accepts null
(`AcceptsMissing`).  So what a tree says with missing rows unmet it says with
missing rows null (`ofTree_monotone`), and it says the same in both readings
where none of its rules accepts a missing row (`ofTree_readings_eq`).
-/

namespace Winnow.Condition

open Engine Compile

section
variable (db : Dataset) (registry : Registry) (context : CompileContext) (filters : FilterSet)
  (e : Entity)

/-- Whether a rule reads a to-one path that reaches nothing from a row, and holds of it when missing
rows are null. -/
def AcceptsMissing (leaf : Rule.Leaf) (row : Row) : Prop :=
  (∃ path, leafPath? filters registry e leaf = some path ∧
    registry.isToOnePath e path.relations = true ∧
      reached db registry e path.relations row = []) ∧
  ∃ c, ofLeaf db registry context filters e leaf = .ok (some c) ∧ c .null row = true

end

theorem map_map_eq_some {α β : Type} {f : α → β} {x : Except CompileError (Option α)} {b : β}
    (h : x.map (·.map f) = .ok (some b)) : ∃ a, b = f a := by
  rcases x with error | _ | a
  · cases h
  · cases h
  · cases h
    exact ⟨a, rfl⟩

section
variable {db : Dataset} {registry : Registry} {context : CompileContext} {filters : FilterSet}
  {e : Entity}

/-! ## Rules -/

theorem ofField_cases {field : String} {filter : Filter} {operator : Operator} {value : Json}
    {c : Condition}
    (h : ofField db registry context e field filter operator value = .ok (some c)) :
    (∀ row, c .null row = c .unmet row) ∨
      (registry.splitPath e field).isRelated = true ∧
        ∃ asks, c = ofPath db registry e (registry.splitPath e field) asks := by
  unfold ofField at h
  cases hparts : filter.dateTimeParts with
  | some parts =>
    rw [hparts] at h
    obtain ⟨asks, rfl⟩ := map_map_eq_some h
    exact .inl fun _ => rfl
  | none =>
    rw [hparts] at h
    simp only [bind, Except.bind] at h
    revert h
    generalize registry.splitPath e field = path
    intro h
    cases hwalk : registry.walk e path.relations with
    | error error => simp [hwalk] at h
    | ok owner =>
      rw [hwalk] at h
      obtain ⟨asks, rfl⟩ := map_map_eq_some h
      cases hrelated : path.isRelated with
      | true => exact .inr ⟨rfl, asks, rfl⟩
      | false =>
        have hnil : path.relations = [] := by simpa [FieldPath.isRelated] using hrelated
        obtain ⟨relations, column⟩ := path
        subst hnil
        exact .inl fun row => by rw [ofPath_nil, ofPath_nil]

theorem ofHasMany_readings {r : Resolved} {value : Json} {c : Condition}
    (h : ofHasMany db registry context e r value = .ok (some c)) (row : Row) :
    c .null row = c .unmet row := by
  unfold ofHasMany at h
  cases hrelation : r.filter.relation with
  | none => simp [hrelation, bind, Except.bind] at h
  | some relation =>
    simp only [hrelation, bind, Except.bind] at h
    cases hrelated : registry.related e relation with
    | error error => simp [hrelated] at h
    | ok pair =>
      rw [hrelated] at h
      obtain ⟨inner, rfl⟩ := map_map_eq_some h
      rfl

theorem ofCount_readings {filter : Filter} {relation : String} {operator : Operator} {value : Json}
    {c : Condition} (h : ofCount db registry e filter relation operator value = .ok (some c))
    (row : Row) : c .null row = c .unmet row := by
  revert h
  unfold ofCount
  simp only [bind, Except.bind]
  cases operator.comparison? with
  | none => exact fun h => by cases h
  | some comparison =>
    rcases Value.ofJson? value .integer with _ | v
    · exact fun h => by cases h
    · cases v with
      | integer count =>
        cases registry.related e relation with
        | error error => exact fun h => by cases h
        | ok pair =>
          intro h
          cases h
          rfl
      | _ => exact fun h => by cases h

theorem ofTags_readings {filter : Filter} {operator : Operator} {value : Json} {c : Condition}
    (h : ofTags db registry context e filter operator value = .ok (some c)) (row : Row) :
    c .null row = c .unmet row := by
  unfold ofTags at h
  cases hrelation : filter.relation with
  | none => simp [hrelation, bind, Except.bind] at h
  | some relation =>
    simp only [hrelation, bind, Except.bind] at h
    cases hrelated : registry.related e relation with
    | error error => simp [hrelated] at h
    | ok pair =>
      rw [hrelated] at h
      cases operator with
      | isNull => cases h; rfl
      | isNotNull => cases h; rfl
      | in_ =>
        obtain ⟨asks, rfl⟩ := map_map_eq_some h
        rfl
      | notIn =>
        obtain ⟨asks, rfl⟩ := map_map_eq_some h
        rfl
      | _ => cases h

/-- A rule reads alike in both ways, or it is a question about a path that rules read. -/
theorem ofLeaf_cases (hplain : filters.Plain) {leaf : Rule.Leaf} {c : Condition}
    (h : ofLeaf db registry context filters e leaf = .ok (some c)) :
    (∀ row, c .null row = c .unmet row) ∨
      ∃ path asks, leafPath? filters registry e leaf = some path ∧
        c = ofPath db registry e path asks := by
  unfold ofLeaf at h
  simp only [bind, Except.bind] at h
  cases hr : resolve filters leaf with
  | error error => simp [hr] at h
  | ok r =>
    rw [hr] at h
    simp only at h
    unfold ofResolved at h
    by_cases hmany : r.filter.kind = .hasMany
    · simp only [hmany, beq_self_eq_true, if_true] at h
      exact .inl (ofHasMany_readings h)
    · simp only [beq_iff_eq, hmany, if_false] at h
      cases hcountable : r.filter.countable with
      | some relation =>
        rw [hcountable] at h
        exact .inl (ofCount_readings h)
      | none =>
        rw [hcountable] at h
        by_cases htags : r.filter.kind = .tags
        · simp only [htags, if_true] at h
          exact .inl (ofTags_readings h)
        · simp only [htags, if_false] at h
          refine (ofField_cases h).imp id fun ⟨hrelated, asks, hc⟩ => ?_
          exact ⟨_, asks, leafPath?_eq_some hr (custom_none_of_plain hplain hr) hmany hcountable
            htags hrelated, hc⟩

/-- A rule that holds when no condition on missing rows does also holds when they are null. -/
theorem ofLeaf_monotone (hplain : filters.Plain) (hunique : UniqueToOne db registry e)
    {leaf : Rule.Leaf} {c : Condition}
    (h : ofLeaf db registry context filters e leaf = .ok (some c)) {row : Row}
    (hrow : row ∈ db.rows e.table) (hunmet : c .unmet row = true) : c .null row = true := by
  rcases ofLeaf_cases hplain h with heq | ⟨path, asks, -, rfl⟩
  · rw [heq, hunmet]
  · cases htoOne : registry.isToOnePath e path.relations with
    | false =>
      rw [ofPath_of_any (.inr htoOne)]
      rwa [ofPath_of_any (.inl rfl)] at hunmet
    | true =>
      have hlength := reached_length_le hunique (.inl rfl) htoOne hrow
      rw [ofPath_of_toOne htoOne]
      rw [ofPath_of_any (.inl rfl)] at hunmet
      revert hlength hunmet
      rcases reached db registry e path.relations row with _ | ⟨r, _ | ⟨r', rest⟩⟩ <;>
        simp [fieldOf]

/-- A rule reads alike in both ways on a row where it does not accept a missing row. -/
theorem ofLeaf_readings_eq (hplain : filters.Plain) (hunique : UniqueToOne db registry e)
    {leaf : Rule.Leaf} {c : Condition}
    (h : ofLeaf db registry context filters e leaf = .ok (some c)) {row : Row}
    (hrow : row ∈ db.rows e.table)
    (haccepts : ¬ AcceptsMissing db registry context filters e leaf row) :
    c .null row = c .unmet row := by
  rcases ofLeaf_cases hplain h with heq | ⟨path, asks, hpath, hc⟩
  · exact heq row
  · cases htoOne : registry.isToOnePath e path.relations with
    | false => rw [hc, ofPath_of_any (.inr htoOne), ofPath_of_any (.inl rfl)]
    | true =>
      cases hreached : reached db registry e path.relations row with
      | nil =>
        have hnull : c .null row = false := by
          rw [← Bool.not_eq_true]
          exact fun hnull => haccepts ⟨⟨path, hpath, htoOne, hreached⟩, c, h, hnull⟩
        rw [hnull, hc, ofPath_of_any (.inl rfl), hreached]
        rfl
      | cons r rest =>
        have hlength := reached_length_le hunique (.inl rfl) htoOne hrow
        rw [hreached, List.length_cons] at hlength
        have hrest : rest = [] := List.length_eq_zero_iff.mp (by omega)
        rw [hc, ofPath_of_toOne htoOne, ofPath_of_any (.inl rfl), hreached, hrest]
        simp [fieldOf]

/-! ## Trees -/

/-- Whether a property of conditions passes to the groups that join them. -/
def PassesToGroups (P : Condition → Prop) : Prop :=
  ∀ connective conditions, (∀ c ∈ conditions, P c) → P (joined connective conditions)

section
variable {P : Condition → Prop}

mutual

/-- What holds of every rule, and of groups with the conditions they join, holds of every node. -/
theorem ofNode_all (hjoined : PassesToGroups P) : (node : Rule.Node) →
    (∀ leaf ∈ node.leaves, ∀ c, ofLeaf db registry context filters e leaf = .ok (some c) → P c) →
      ∀ c, ofNode db registry context filters e node = .ok (some c) → P c
  | .leaf leaf, hleaf, c, h => by
    unfold ofNode at h
    refine hleaf leaf List.mem_cons_self c ?_
    cases hl : ofLeaf db registry context filters e leaf with
    | error error =>
      rw [hl] at h
      simp only [admitted] at h
      split at h <;> cases h
    | ok l =>
      rw [hl] at h
      exact h
  | .group connective children, hleaf, c, h => by
    unfold ofNode at h
    cases hc : ofNodes db registry context filters e children with
    | error error =>
      rw [hc] at h
      cases h
    | ok conditions =>
      rw [hc] at h
      simp only [Except.map, ofGroup, Except.ok.injEq] at h
      split at h
      · cases h
      · cases h
        exact hjoined connective conditions (ofNodes_all hjoined children hleaf conditions hc)

theorem ofNodes_all (hjoined : PassesToGroups P) : (nodes : List Rule.Node) →
    (∀ leaf ∈ Rule.nodeLeaves nodes, ∀ c,
      ofLeaf db registry context filters e leaf = .ok (some c) → P c) →
      ∀ conditions, ofNodes db registry context filters e nodes = .ok conditions →
        ∀ c ∈ conditions, P c
  | [], _, conditions, h => by
    cases h
    simp
  | node :: rest, hleaf, conditions, h => by
    unfold ofNodes at h
    simp only [bind, Except.bind] at h
    cases hn : ofNode db registry context filters e node with
    | error error => simp [hn] at h
    | ok first =>
      cases hr : ofNodes db registry context filters e rest with
      | error error => simp [hn, hr] at h
      | ok others =>
        simp only [hn, hr, Except.ok.injEq] at h
        subst h
        intro c hc
        rcases List.mem_append.mp hc with hc | hc
        · refine ofNode_all hjoined node (fun leaf hl => hleaf leaf ?_) c ?_
          · simp [Rule.nodeLeaves, hl]
          · rw [hn, Option.mem_toList.mp hc]
        · exact ofNodes_all hjoined rest (fun leaf hl => hleaf leaf (by simp [Rule.nodeLeaves, hl]))
            others hr c hc

end

theorem ofTree_all (hjoined : PassesToGroups P) (hfree : P fun _ _ => true) (tree : Rule.Tree)
    (hleaf : ∀ leaf ∈ tree.leaves, ∀ c,
      ofLeaf db registry context filters e leaf = .ok (some c) → P c) {c : Condition}
    (h : ofTree db registry context filters e tree = .ok c) : P c := by
  unfold ofTree at h
  cases hc : ofNodes db registry context filters e tree.children with
  | error error =>
    rw [hc] at h
    cases h
  | ok conditions =>
    rw [hc] at h
    cases h
    show P ((ofGroup tree.condition conditions).getD fun _ _ => true)
    unfold ofGroup
    split
    · exact hfree
    · exact hjoined tree.condition conditions (ofNodes_all hjoined tree.children hleaf conditions hc)

end

section
variable (hplain : filters.Plain) (hunique : UniqueToOne db registry e) {tree : Rule.Tree}
  {c : Condition} (h : ofTree db registry context filters e tree = .ok c) {row : Row}
  (hrow : row ∈ db.rows e.table)

include hplain hunique h hrow

/-- What a tree says when no condition on missing rows holds it also says when they are null. -/
theorem ofTree_monotone (hunmet : c .unmet row = true) : c .null row = true := by
  revert hunmet
  refine ofTree_all (P := fun c => c .unmet row = true → c .null row = true) ?_ id tree ?_ h
  · intro connective conditions hall
    unfold joined
    cases connective with
    | and =>
      simp only [List.all_eq_true]
      exact fun hunmet c hc => hall c hc (hunmet c hc)
    | or =>
      simp only [List.any_eq_true]
      exact fun ⟨c, hc, hunmet⟩ => ⟨c, hc, hall c hc hunmet⟩
  · exact fun leaf _ c hc => ofLeaf_monotone hplain hunique hc hrow

/-- A tree reads alike in both ways on a row where none of its rules accepts a missing row. -/
theorem ofTree_readings_eq
    (haccepts : ∀ leaf ∈ tree.leaves, ¬ AcceptsMissing db registry context filters e leaf row) :
    c .null row = c .unmet row := by
  refine ofTree_all (P := fun c => c .null row = c .unmet row) ?_ rfl tree ?_ h
  · intro connective conditions hall
    unfold joined
    cases connective with
    | and =>
      simp only
      rw [Bool.eq_iff_iff, List.all_eq_true, List.all_eq_true]
      exact forall₂_congr fun c hc => by rw [hall c hc]
    | or =>
      simp only
      rw [Bool.eq_iff_iff, List.any_eq_true, List.any_eq_true]
      exact exists_congr fun c => and_congr_right fun hc => by rw [hall c hc]
  · exact fun leaf hleaf c hc => ofLeaf_readings_eq hplain hunique hc hrow (haccepts leaf hleaf)

end

end

end Winnow.Condition
