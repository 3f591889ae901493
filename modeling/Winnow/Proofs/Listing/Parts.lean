import Winnow.Listing.Request
import Winnow.Listing.Table
import Winnow.Proofs.Success

/-!
# What the parts of listings do

A request is searched, ordered, projected, loaded and limited one after another
(`request_parts`), and a table is sorted column by column.  Each part that
succeeds has done one of a few things to the query, by which everything about
listings and tables is proved.
-/

namespace Winnow.Listing

theorem liftCompile_eq_ok {α : Type} {x : Except CompileError α} {a : α}
    (h : Failure.liftCompile x = .ok a) : x = .ok a := by
  cases x with
  | error error => cases h
  | ok b =>
    cases h
    rfl

section
variable {registry : Registry} {q r : Query}

/-! ## Orders -/

/-- What a sort field does to a query: it sorts by a column, by a name in the form of an
aggregate's, or by a column at the end of a path that is joined. -/
inductive SortStep (registry : Registry) (sort : SortField) (q : Query) : Query → Prop where
  | own (hcolumn : q.entity.hasColumn (Text.trim sort.field) = true) :
      SortStep registry sort q (q.orderByColumn (Text.trim sort.field) sort.direction)
  | named (hcolumn : q.entity.hasColumn (Text.trim sort.field) = false)
      (hform : namesAggregate (Text.trim sort.field) = true) :
      SortStep registry sort q (q.addOrder (.output (Text.trim sort.field)) sort.direction)
  | along {path : FieldPath} {target : Entity} {tableAlias : String} {joined : Query}
      (hcolumn : q.entity.hasColumn (Text.trim sort.field) = false)
      (hform : namesAggregate (Text.trim sort.field) = false)
      (hpath : path = registry.splitPath q.entity (Text.replaceChar '|' "." (Text.trim sort.field)))
      (hrelated : path.isRelated = true) (hwalk : registry.walk q.entity path.relations = .ok target)
      (htarget : target.hasColumn path.column = true)
      (hjoin : q.joinPath registry path.relations = .ok (tableAlias, joined)) :
      SortStep registry sort q
        (joined.addOrder (.column (.field tableAlias path.column)) sort.direction)

theorem orderBy_step {sort : SortField} (h : orderBy registry sort q = .ok r) :
    SortStep registry sort q r := by
  unfold orderBy at h
  simp only at h
  split at h
  next hcolumn =>
    cases h
    exact .own hcolumn
  next hcolumn =>
    rw [Bool.not_eq_true] at hcolumn
    split at h
    next hform =>
      cases h
      exact .named hcolumn hform
    next hform =>
      rw [Bool.not_eq_true] at hform
      split at h
      next hrelated =>
        unfold orderByPath at h
        obtain ⟨target, hwalk, h⟩ := bind_eq_ok h
        split at h
        · cases h
        next htarget =>
          obtain ⟨⟨tableAlias, joined⟩, hjoin, h⟩ := bind_eq_ok h
          cases h
          exact .along hcolumn hform rfl hrelated hwalk (by simpa using htarget) hjoin
      · cases h

/-! ## Requests -/

/-- The parts of a request, one after another. -/
theorem request_parts {context : CompileContext} {settings : QuerySettings} {scope : SearchScope}
    {parameters : Parameters}
    (h : Listing.request registry context settings scope parameters q = .ok r) :
    ∃ searched ordered selected loaded,
      search registry context settings scope parameters q = .ok searched ∧
      requestOrder registry parameters searched = .ok ordered ∧
      requestSelect parameters ordered = .ok selected ∧
      requestLoad registry parameters selected = .ok loaded ∧
      r = requestTake settings parameters loaded := by
  unfold Listing.request at h
  obtain ⟨searched, hsearch, h⟩ := bind_eq_ok h
  obtain ⟨loaded, hloaded, h⟩ := bind_eq_ok h
  obtain ⟨ordered, horder, hloaded⟩ := bind_eq_ok (liftCompile_eq_ok hloaded)
  obtain ⟨selected, hselect, hload⟩ := bind_eq_ok hloaded
  cases h
  exact ⟨searched, ordered, selected, loaded, hsearch, horder, hselect, hload, rfl⟩

theorem requestOrder_cases {parameters : Parameters}
    (h : requestOrder registry parameters q = .ok r) :
    (parameters.order.isEmpty = true ∧ r = q) ∨
      (parameters.order.isEmpty = false ∧
        orderByAll registry parameters.order q.forgetOrders = .ok r) := by
  unfold requestOrder at h
  split at h
  next hnone =>
    cases h
    exact .inl ⟨hnone, rfl⟩
  next hsome => exact .inr ⟨by simpa using hsome, h⟩

theorem requestSelect_cases {parameters : Parameters} (h : requestSelect parameters q = .ok r) :
    r = q ∨ r = q.select (q.entity.primaryKey :: parameters.select) := by
  unfold requestSelect at h
  split at h
  · cases h
    exact .inl rfl
  · split at h
    · cases h
    · cases h
      exact .inr rfl

theorem requestLoad_eq {parameters : Parameters} (h : requestLoad registry parameters q = .ok r) :
    r = q.load parameters.load := by
  unfold requestLoad at h
  obtain ⟨_, -, h⟩ := bind_eq_ok h
  cases h
  rfl

theorem requestTake_cases (settings : QuerySettings) (parameters : Parameters) (q : Query) :
    requestTake settings parameters q = q ∨
      ∃ limit, requestTake settings parameters q = q.take limit := by
  unfold requestTake
  split
  · exact .inr ⟨_, rfl⟩
  · exact .inl rfl

/-! ## Tables -/

/-- What sorting by a column of a table does to a query, and what it sorts by: it counts a relation,
joins a to-one path, or needs nothing for a column of the entity; a path that is not to-one and a
column that is unknown sort by nothing. -/
inductive TargetStep (registry : Registry) (column : TableColumn) (q : Query) :
    Option OrderTarget → Query → Prop where
  | counted {name : String} {r : Query} (hcounts : column.counts = true)
      (hcount : q.countRelated registry column.countRelation = .ok (name, r)) :
      TargetStep registry column q (some (.output name)) r
  | joined {relation tableAlias : String} {r : Query} (hcounts : column.counts = false)
      (hrelation : column.relation = some relation)
      (htoOne : registry.isToOnePath q.entity (Text.split '.' relation) = true)
      (hjoin : q.joinPath registry (Text.split '.' relation) = .ok (tableAlias, r)) :
      TargetStep registry column q
        (some (.column (.field tableAlias (column.relationField.getD column.key)))) r
  | own (hcounts : column.counts = false) (hrelation : column.relation = none)
      (hcolumn : q.entity.hasColumn column.key = true) :
      TargetStep registry column q (some (.column (q.column column.key))) q
  | many {relation : String} (hcounts : column.counts = false)
      (hrelation : column.relation = some relation)
      (htoOne : registry.isToOnePath q.entity (Text.split '.' relation) = false) :
      TargetStep registry column q none q
  | unknown (hcounts : column.counts = false) (hrelation : column.relation = none)
      (hcolumn : q.entity.hasColumn column.key = false) :
      TargetStep registry column q none q

theorem sortTarget_step {column : TableColumn} {target : Option OrderTarget}
    (h : sortTarget registry column q = .ok (target, r)) :
    TargetStep registry column q target r := by
  unfold sortTarget at h
  split at h
  next hcounts =>
    obtain ⟨⟨name, next⟩, hcount, h⟩ := bind_eq_ok h
    cases h
    exact .counted hcounts hcount
  next hcounts =>
    rw [Bool.not_eq_true] at hcounts
    split at h
    next relation hrelation =>
      simp only at h
      split at h
      next hmany =>
        cases h
        exact .many hcounts hrelation (by simpa using hmany)
      next htoOne =>
        obtain ⟨⟨tableAlias, joined⟩, hjoin, h⟩ := bind_eq_ok h
        cases h
        exact .joined hcounts hrelation (by simpa using htoOne) hjoin
    next hrelation =>
      split at h
      next hcolumn =>
        cases h
        exact .own hcounts hrelation hcolumn
      next hcolumn =>
        cases h
        exact .unknown hcounts hrelation (by simpa using hcolumn)

end

end Winnow.Listing
