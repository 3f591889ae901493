import Mathlib.Data.List.Induction
import Mathlib.Order.Basic
import Winnow.Proofs.Engine.Joins
import Winnow.Proofs.Engine.Kleene
import Winnow.Proofs.Sample

/-!
# Sorted listings

Values of one type are ranked by a whole number, by the nanoseconds of an
instant, or by a text (`Value.rankOrder`).  The ranks order all values, and
where values are null or of one type the order for sorting is that of the ranks
(`Value.sortOrder_eq_rankOrder`), which makes it an order there.

Placing a value splits the values placed before in two (`place_split`), so
placing one after another loses none, keeps values in their order unless one
comes before the other, and sorts them when the comparison is an order
(`pairwise_arrange`).  The sort keys of a query, each in its direction and the
first difference deciding, are such an order as long as the values of each key
are of one type, and with it the engine sorts the matching frames
(`execute_sorts`).
-/

namespace Winnow
namespace Value

/-! ## Which value comes first -/

/-- Whether a value sorts among those of a type: it is null, or of the type and no number that is
none. -/
def SortsAs (type : ColumnType) (v : Value) : Prop :=
  v = .null ∨ (v.isOf type = true ∧ v.isNaN = false)

instance (type : ColumnType) : DecidablePred (SortsAs type) := fun v =>
  inferInstanceAs (Decidable (v = .null ∨ (v.isOf type = true ∧ v.isNaN = false)))

/-- Whether a value comes before another from the least to the greatest, null before all others. -/
def Precedes (a b : Value) : Prop := (a = .null ∧ b ≠ .null) ∨ a.compare? b = some .lt

/-- Whether two values are both null, or equal where they are compared. -/
def Alike (a b : Value) : Prop := (a = .null ∧ b = .null) ∨ a.compare? b = some .eq

/-! ## Ranks -/

/-- The whole number that a value is ranked by. -/
def wholeRank : Value → Int
  | .bool b => ofTruth b
  | .integer n => n
  | .decimal x => x.key
  | .date d => d.dayNumber
  | .instant t => t.seconds
  | .null | .text _ => 0

/-- What tells instants of one second apart. -/
def nanosRank : Value → Nat
  | .instant t => t.nanos
  | _ => 0

/-- What texts are ranked by. -/
def textRank : Value → String
  | .text s => s
  | _ => ""

/-- The order of two values that are not null, by their ranks. -/
def rankOrderNonNull : Value → Value → Ordering :=
  compareLex (compareOn wholeRank) (compareLex (compareOn nanosRank) (compareOn textRank))

/-- The order of two values by their ranks, null first. -/
def rankOrder : Value → Value → Ordering := compareLex (compareOn (!·.isNull)) rankOrderNonNull

instance rankOrder_transCmp : Std.TransCmp rankOrder := by
  unfold rankOrder rankOrderNonNull
  infer_instance

/-- Values of one type are compared by their ranks. -/
theorem compare?_eq_rankOrder {type : ColumnType} {a b : Value} (ha : a.isOf type = true)
    (hb : b.isOf type = true) (ha' : a.isNaN = false) (hb' : b.isNaN = false) :
    a.compare? b = some (rankOrderNonNull a b) := by
  have hwhole : ∀ {a b : Value}, nanosRank a = 0 → nanosRank b = 0 → textRank a = "" →
      textRank b = "" → rankOrderNonNull a b = compare (wholeRank a) (wholeRank b) := by
    intro a b hnanos hnanos' htext htext'
    unfold rankOrderNonNull compareLex compareOn
    rw [hnanos, hnanos', htext, htext', Std.ReflOrd.compare_self, Std.ReflOrd.compare_self]
    cases compare (wholeRank a) (wholeRank b) <;> rfl
  cases a <;> cases b
  case decimal.decimal x y =>
    show x.compare? y = _
    unfold Decimal.compare?
    rw [show x.isNaN = false from ha', show y.isNaN = false from hb', hwhole rfl rfl rfl rfl]
    rfl
  case bool.bool | integer.integer | date.date =>
    rw [hwhole rfl rfl rfl rfl]
    rfl
  case text.text s t =>
    show some (compareOfLessAndEq s t) = _
    unfold rankOrderNonNull compareLex compareOn
    rw [show compare (wholeRank (.text s)) (wholeRank (.text t)) = .eq from Std.ReflOrd.compare_self,
      show compare (nanosRank (.text s)) (nanosRank (.text t)) = .eq from Std.ReflOrd.compare_self]
    rfl
  case instant.instant t u =>
    show some (t.order u) = _
    unfold Instant.order rankOrderNonNull compareLex compareOn
    show _ = some ((compare t.seconds u.seconds).then
      ((compare t.nanos u.nanos).then (compare "" "")))
    rw [Std.ReflOrd.compare_self]
    cases compare t.seconds u.seconds <;> cases compare t.nanos u.nanos <;> rfl
  -- values of one type are made alike
  all_goals cases type <;> first | (cases ha; done) | cases hb

/-- Values that are null or of one type sort by their ranks. -/
theorem sortOrder_eq_rankOrder {type : ColumnType} {a b : Value} (ha : a.SortsAs type)
    (hb : b.SortsAs type) : a.sortOrder b = rankOrder a b := by
  unfold sortOrder rankOrder compareLex compareOn
  rcases ha with rfl | ⟨ha, ha'⟩ <;> rcases hb with rfl | ⟨hb, hb'⟩
  · rfl
  · simp only [isNull_of_isOf hb]
    rfl
  · simp only [isNull_of_isOf ha]
    rfl
  · simp only [isNull_of_isOf ha, isNull_of_isOf hb, compare?_eq_rankOrder ha hb ha' hb']
    rfl

/-! ## The order, by cases -/

theorem eq_null_of_isNull {v : Value} (h : v.isNull = true) : v = .null := by
  cases v <;> first | rfl | cases h

theorem precedes_of_sortOrder {a b : Value} (h : a.sortOrder b = .lt) : a.Precedes b := by
  unfold sortOrder at h
  cases ha : a.isNull <;> cases hb : b.isNull <;> simp only [ha, hb, reduceCtorEq] at h
  · right
    cases hcompare : a.compare? b <;> simp_all
  · left
    refine ⟨eq_null_of_isNull ha, ?_⟩
    rintro rfl
    cases hb

theorem alike_of_sortOrder {type : ColumnType} {a b : Value} (ha : a.SortsAs type)
    (hb : b.SortsAs type) (h : a.sortOrder b = .eq) : a.Alike b := by
  rcases ha with rfl | ⟨ha, ha'⟩ <;> rcases hb with rfl | ⟨hb, hb'⟩
  · exact .inl ⟨rfl, rfl⟩
  · simp only [sortOrder, isNull_of_isOf hb] at h
    cases h
  · simp only [sortOrder, isNull_of_isOf ha] at h
    cases h
  · right
    obtain ⟨o, ho⟩ := Option.isSome_iff_exists.mp (compare?_isSome ha hb ha' hb')
    simp only [sortOrder, isNull_of_isOf ha, isNull_of_isOf hb, ho] at h
    exact ho.trans (congrArg some h)

theorem sortOrder_of_alike {a b : Value} (h : a.Alike b) : a.sortOrder b = .eq := by
  rcases h with ⟨rfl, rfl⟩ | h
  · rfl
  · cases a <;> cases b <;> first | cases h | exact congrArg (Option.getD · .eq) h

theorem sortOrder_swap (a b : Value) : (a.sortOrder b).swap = b.sortOrder a := by
  unfold sortOrder
  rw [← compare?_swap a b]
  cases a.isNull <;> cases b.isNull <;> first | rfl | cases a.compare? b <;> rfl

end Value

namespace Engine

/-! ## Placing -/

section
variable {α : Type} (before : α → α → Bool)

/-- A value is placed in front of values that it comes before, and right behind one that it does not
come before, if it is not the first. -/
theorem place_split (x : α) (placed : List α) :
    ∃ front back, placed = front ++ back ∧ place before x placed = front ++ x :: back ∧
      (∀ y ∈ back, before x y = true) ∧
      (front = [] ∨ ∃ others last, front = others ++ [last] ∧ before x last = false) := by
  induction placed with
  | nil => exact ⟨[], [], rfl, rfl, List.forall_mem_nil _, .inl rfl⟩
  | cons y rest ih =>
    unfold place
    split
    next hall => exact ⟨[], y :: rest, rfl, rfl, List.all_eq_true.mp hall, .inl rfl⟩
    next hnot =>
      obtain ⟨front, back, rfl, hplace, hback, hfront⟩ := ih
      refine ⟨y :: front, back, rfl, congrArg (y :: ·) hplace, hback, .inr ?_⟩
      rcases hfront with rfl | ⟨others, last, rfl, hlast⟩
      · refine ⟨[], y, rfl, ?_⟩
        rw [← Bool.not_eq_true]
        intro hy
        exact hnot (List.all_eq_true.mpr (List.forall_mem_cons.mpr ⟨hy, hback⟩))
      · exact ⟨y :: others, last, rfl, hlast⟩

theorem arrange_concat (values : List α) (x : α) :
    arrange before (values ++ [x]) = place before x (arrange before values) := by
  unfold arrange
  rw [List.foldl_append]
  rfl

/-- No value is lost, and none comes twice. -/
theorem arrange_perm (values : List α) : (arrange before values).Perm values := by
  induction values using List.reverseRecOn with
  | nil => exact .nil
  | append_singleton values x ih =>
    obtain ⟨front, back, hplaced, hplace, -, -⟩ := place_split before x (arrange before values)
    rw [arrange_concat, hplace]
    rw [hplaced] at ih
    exact List.perm_middle.trans ((ih.cons x).trans (List.perm_append_singleton x values).symm)

/-- Values none of which comes before an earlier one keep their order. -/
theorem sublist_arrange {values alike : List α} (hsublist : alike.Sublist values)
    (halike : alike.Pairwise fun x y => before y x = false) :
    alike.Sublist (arrange before values) := by
  induction values using List.reverseRecOn generalizing alike with
  | nil => exact hsublist
  | append_singleton values x ih =>
    obtain ⟨front, back, hplaced, hplace, hback, -⟩ := place_split before x (arrange before values)
    obtain ⟨earlier, last, rfl, hearlier, hlast⟩ := List.sublist_append_iff.mp hsublist
    have hall := ih hearlier (List.pairwise_append.mp halike).1
    rw [hplaced] at hall
    rw [arrange_concat, hplace]
    rcases List.sublist_singleton.mp hlast with rfl | rfl
    · rw [List.append_nil]
      exact hall.trans (List.Sublist.append_left (List.sublist_cons_self x back) front)
    · -- the last value comes before all behind it, so the earlier ones are in front of it
      obtain ⟨inFront, behind, rfl, hinFront, hbehind⟩ := List.sublist_append_iff.mp hall
      have hnone : behind = [] := by
        refine List.eq_nil_iff_forall_not_mem.mpr fun y hy => ?_
        have hbefore := hback y (hbehind.subset hy)
        rw [(List.pairwise_append.mp halike).2.2 y (List.mem_append_right _ hy) x
          (List.mem_singleton_self x)] at hbefore
        cases hbefore
      rw [hnone, List.append_nil]
      exact hinFront.append ((List.nil_sublist back).cons_cons x)

/-- When the comparison is an order, the values come out in order. -/
theorem pairwise_arrange (cmp : α → α → Ordering) [Std.TransCmp cmp] (values : List α) :
    (arrange (fun x y => cmp x y == .lt) values).Pairwise fun x y => (cmp x y).isLE = true := by
  induction values using List.reverseRecOn with
  | nil => exact .nil
  | append_singleton values x ih =>
    obtain ⟨front, back, hplaced, hplace, hback, hfront⟩ :=
      place_split (fun x y => cmp x y == .lt) x (arrange _ values)
    rw [hplaced] at ih
    rw [arrange_concat, hplace]
    obtain ⟨hinFront, hbehind, hbetween⟩ := List.pairwise_append.mp ih
    have hx : ∀ y ∈ back, (cmp x y).isLE = true := by
      intro y hy
      rw [eq_of_beq (hback y hy)]
      rfl
    refine List.pairwise_append.mpr ⟨hinFront, List.pairwise_cons.mpr ⟨hx, hbehind⟩, ?_⟩
    intro y hy z hz
    rcases List.mem_cons.mp hz with rfl | hz
    · rcases hfront with rfl | ⟨others, last, rfl, hlast⟩
      · cases hy
      · have hle : (cmp last z).isLE = true := by
          have hswap : cmp last z = (cmp z last).swap := Std.OrientedCmp.eq_swap
          rw [hswap]
          cases hcmp : cmp z last with
          | lt =>
            rw [hcmp] at hlast
            cases hlast
          | eq => rfl
          | gt => rfl
        rcases List.mem_append.mp hy with hy | hy
        · refine Std.TransCmp.isLE_trans ?_ hle
          exact (List.pairwise_append.mp hinFront).2.2 y hy last (List.mem_singleton_self last)
        · rw [List.mem_singleton.mp hy]
          exact hle
    · exact hbetween y hy z hz

theorem place_congr {before' : α → α → Bool} {x : α} {placed : List α}
    (h : ∀ y ∈ placed, before x y = before' x y) : place before x placed = place before' x placed := by
  induction placed with
  | nil => rfl
  | cons y rest ih =>
    have hall : (y :: rest).all (before x) = (y :: rest).all (before' x) := by
      rw [Bool.eq_iff_iff, List.all_eq_true, List.all_eq_true]
      exact forall₂_congr fun z hz => by rw [h z hz]
    unfold place
    rw [hall, ih fun z hz => h z (List.mem_cons_of_mem y hz)]

/-- Only how the values to place compare with each other matters. -/
theorem arrange_congr {before' : α → α → Bool} {values : List α}
    (h : ∀ x ∈ values, ∀ y ∈ values, before x y = before' x y) :
    arrange before values = arrange before' values := by
  induction values using List.reverseRecOn with
  | nil => rfl
  | append_singleton values x ih =>
    have hmem : ∀ {y}, y ∈ values → y ∈ values ++ [x] := fun hy => List.mem_append_left [x] hy
    rw [arrange_concat, arrange_concat, ih fun y hy z hz => h y (hmem hy) z (hmem hz)]
    refine place_congr _ fun y hy => ?_
    exact h x (List.mem_append_right values (List.mem_singleton_self x)) y
      (hmem ((arrange_perm _ values).subset hy))

theorem place_map {β : Type} (f : β → α) (x : β) (placed : List β) :
    place before (f x) (placed.map f) =
      (place (fun x y => before (f x) (f y)) x placed).map f := by
  induction placed with
  | nil => rfl
  | cons y rest ih =>
    have hall : ((y :: rest).map f).all (before (f x)) =
        (y :: rest).all fun y => before (f x) (f y) := List.all_map
    rw [List.map_cons] at hall ⊢
    unfold place
    rw [hall, ih]
    split <;> rfl

/-- Values placed by something else about them are those that it is about, placed alike. -/
theorem arrange_map {β : Type} (f : β → α) (values : List β) :
    arrange before (values.map f) =
      (arrange (fun x y => before (f x) (f y)) values).map f := by
  induction values using List.reverseRecOn with
  | nil => rfl
  | append_singleton values x ih =>
    rw [List.map_append, List.map_singleton, arrange_concat, arrange_concat, ih, place_map]

end

/-! ## Sort keys -/

section
variable (db : Dataset) (q : Query)

/-- What an order sorts a frame by. -/
def sortKey (frame : Frame) (o : Order) : Value :=
  match o.target with
  | .column c => read frame c
  | .output name => (project db q frame).value name

/-- Whether an order puts one of two values first. -/
def Precedes (o : Order) (a b : Value) : Prop :=
  match o.direction with
  | .ascending => a.Precedes b
  | .descending => b.Precedes a

/-- Whether the first order that tells two frames apart puts the one first. -/
inductive ComesBefore : List Order → Frame → Frame → Prop
  | here {o : Order} {orders : List Order} {a b : Frame} :
    Precedes o (sortKey db q a o) (sortKey db q b o) → ComesBefore (o :: orders) a b
  | behind {o : Order} {orders : List Order} {a b : Frame} :
    (sortKey db q a o).Alike (sortKey db q b o) → ComesBefore orders a b →
      ComesBefore (o :: orders) a b

/-- Whether no order tells two frames apart. -/
def AlikeBy (orders : List Order) (a b : Frame) : Prop :=
  ∀ o ∈ orders, (sortKey db q a o).Alike (sortKey db q b o)

/-- The order of two frames by the ranks of their sort keys. -/
def frameOrder : List Order → Frame → Frame → Ordering
  | [] => fun _ _ => .eq
  | o :: orders =>
    compareLex (fun a b => o.direction.apply ((sortKey db q a o).rankOrder (sortKey db q b o)))
      (frameOrder orders)

end

section
variable {db : Dataset} {q : Query}

theorem direction_transCmp {α : Type} (d : Direction) (cmp : α → α → Ordering)
    [Std.TransCmp cmp] : Std.TransCmp fun a b => d.apply (cmp a b) := by
  cases d with
  | ascending => exact ‹Std.TransCmp cmp›
  | descending =>
    have hswap : (fun a b => Direction.descending.apply (cmp a b)) = fun a b => cmp b a := by
      funext a b
      exact Std.OrientedCmp.eq_swap.symm
    rw [hswap]
    infer_instance

instance frameOrder_transCmp : (orders : List Order) → Std.TransCmp (frameOrder db q orders)
  | [] => by
    unfold frameOrder
    exact { eq_swap := rfl, isLE_trans := fun _ _ => rfl }
  | o :: orders => by
    have hrest := frameOrder_transCmp orders
    have hfirst : Std.TransCmp fun a b : Frame =>
        (sortKey db q a o).rankOrder (sortKey db q b o) :=
      { eq_swap := Std.OrientedCmp.eq_swap
        isLE_trans := Std.TransCmp.isLE_trans }
    have := direction_transCmp o.direction
      fun a b : Frame => (sortKey db q a o).rankOrder (sortKey db q b o)
    unfold frameOrder
    infer_instance

/-- The sort keys of two frames compare as the ranks do. -/
theorem keyOrder_eq_frameOrder {orders : List Order} {a b : Frame}
    (h : ∀ o ∈ orders, ∃ type, (sortKey db q a o).SortsAs type ∧ (sortKey db q b o).SortsAs type) :
    keyOrder orders (orders.map (sortKey db q a)) (orders.map (sortKey db q b)) =
      frameOrder db q orders a b := by
  induction orders with
  | nil => rfl
  | cons o orders ih =>
    obtain ⟨⟨type, ha, hb⟩, hrest⟩ := List.forall_mem_cons.mp h
    simp only [List.map_cons, keyOrder, frameOrder, compareLex, ih hrest,
      Value.sortOrder_eq_rankOrder ha hb]
    cases o.direction.apply _ <;> rfl

theorem precedes_of_apply {o : Order} {a b : Value}
    (h : o.direction.apply (a.sortOrder b) = .lt) : Precedes o a b := by
  unfold Precedes
  cases hdirection : o.direction <;> rw [hdirection] at h
  · exact Value.precedes_of_sortOrder h
  · refine Value.precedes_of_sortOrder ?_
    rw [← Value.sortOrder_swap]
    exact h

theorem alike_of_apply {o : Order} {type : ColumnType} {a b : Value} (ha : a.SortsAs type)
    (hb : b.SortsAs type) (h : o.direction.apply (a.sortOrder b) = .eq) : a.Alike b := by
  refine Value.alike_of_sortOrder ha hb ?_
  cases hdirection : o.direction <;> rw [hdirection] at h
  · exact h
  · exact Ordering.swap_eq_eq.mp h

theorem comesBefore_of_frameOrder {orders : List Order} {a b : Frame}
    (hkeys : ∀ o ∈ orders, ∃ type,
      (sortKey db q a o).SortsAs type ∧ (sortKey db q b o).SortsAs type)
    (h : (frameOrder db q orders a b).isLE = true) :
    ComesBefore db q orders a b ∨ AlikeBy db q orders a b := by
  induction orders with
  | nil => exact .inr (List.forall_mem_nil _)
  | cons o orders ih =>
    obtain ⟨⟨type, ha, hb⟩, hrest⟩ := List.forall_mem_cons.mp hkeys
    simp only [frameOrder, compareLex, ← Value.sortOrder_eq_rankOrder ha hb] at h
    cases hfirst : o.direction.apply ((sortKey db q a o).sortOrder (sortKey db q b o)) with
    | lt => exact .inl (.here (precedes_of_apply hfirst))
    | gt =>
      rw [hfirst] at h
      cases h
    | eq =>
      rw [hfirst] at h
      have halike := alike_of_apply ha hb hfirst
      rcases ih hrest h with hbefore | hrest
      · exact .inl (.behind halike hbefore)
      · exact .inr (List.forall_mem_cons.mpr ⟨halike, hrest⟩)

/-- Of two frames that no order tells apart, the second does not sort before the first. -/
theorem keyOrder_of_alikeBy {orders : List Order} {a b : Frame} (h : AlikeBy db q orders a b) :
    keyOrder orders (orders.map (sortKey db q b)) (orders.map (sortKey db q a)) = .eq := by
  induction orders with
  | nil => rfl
  | cons o orders ih =>
    obtain ⟨halike, hrest⟩ := List.forall_mem_cons.mp h
    have heq : o.direction.apply ((sortKey db q b o).sortOrder (sortKey db q a o)) = .eq := by
      rw [← Value.sortOrder_swap, Value.sortOrder_of_alike halike]
      cases o.direction <;> rfl
    simp only [List.map_cons, keyOrder, heq]
    exact ih hrest

end

/-! ## Sorted listings -/

section
variable (db : Dataset)

/-- Whether a frame sorts before another by the keys of a query. -/
def sortsBefore (q : Query) (a b : Frame) : Bool :=
  keyOrder q.orders (q.orders.map (sortKey db q a)) (q.orders.map (sortKey db q b)) == .lt

/-- The listing of a query projects its matching frames, arranged by their keys. -/
theorem listing_eq_arrange (q : Query) :
    listing db q = (arrange (sortsBefore db q) (matchingFrames db q)).map (project db q) := by
  unfold listing
  simp only
  rw [arrange_map, List.map_map]
  rfl

/-- The part of a listing that is shown: some rows are skipped, and so many shown at most. -/
def page (limit offset : Option Nat) (rows : List Row) : List Row :=
  match limit with
  | some limit => (rows.drop (offset.getD 0)).take limit
  | none => rows.drop (offset.getD 0)

/-- When the values of each sort key are null or of one type, the engine gives one row for every
matching frame, by the sort keys in their directions, null before all others from the least to the
greatest; frames that no key tells apart stay in the order of the tables.  A page is a part of these
rows. -/
theorem execute_sorts (q : Query)
    (hkeys : ∀ o ∈ q.orders, ∃ type,
      ∀ frame ∈ matchingFrames db q, (sortKey db q frame o).SortsAs type) :
    ∃ sorted : List Frame,
      sorted.Perm (matchingFrames db q) ∧
      (sorted.Pairwise fun a b =>
        ComesBefore db q q.orders a b ∨ AlikeBy db q q.orders a b) ∧
      (∀ alike : List Frame, alike.Sublist (matchingFrames db q) →
        alike.Pairwise (AlikeBy db q q.orders) → alike.Sublist sorted) ∧
      execute db { q with limit := none, offset := none } = sorted.map (project db q) ∧
      ∀ limit offset, execute db { q with limit := limit, offset := offset } =
        page limit offset (sorted.map (project db q)) := by
  have hboth : ∀ a ∈ matchingFrames db q, ∀ b ∈ matchingFrames db q, ∀ o ∈ q.orders, ∃ type,
      (sortKey db q a o).SortsAs type ∧ (sortKey db q b o).SortsAs type := by
    intro a ha b hb o ho
    obtain ⟨type, htype⟩ := hkeys o ho
    exact ⟨type, htype a ha, htype b hb⟩
  have hranked : arrange (sortsBefore db q) (matchingFrames db q) =
      arrange (fun a b => frameOrder db q q.orders a b == .lt) (matchingFrames db q) := by
    refine arrange_congr _ fun a ha b hb => ?_
    show (keyOrder _ _ _ == .lt) = _
    rw [keyOrder_eq_frameOrder (hboth a ha b hb)]
  have hlisting : ∀ limit offset, execute db { q with limit := limit, offset := offset } =
      page limit offset
        ((arrange (sortsBefore db q) (matchingFrames db q)).map (project db q)) := by
    intro limit offset
    rw [← listing_eq_arrange]
    cases limit <;> rfl
  have hperm := arrange_perm (sortsBefore db q) (matchingFrames db q)
  refine ⟨_, hperm, ?_, ?_, hlisting none none, hlisting⟩
  · have hpairs := pairwise_arrange (frameOrder db q q.orders) (matchingFrames db q)
    rw [← hranked] at hpairs
    refine hpairs.imp_of_mem ?_
    intro a b ha hb hle
    exact comesBefore_of_frameOrder (hboth a (hperm.subset ha) b (hperm.subset hb)) hle
  · intro alike hsublist halike
    refine sublist_arrange _ hsublist (halike.imp fun hab => ?_)
    show (keyOrder _ _ _ == .lt) = false
    rw [keyOrder_of_alikeBy hab]
    rfl

end

end Engine

namespace Sample

open Engine

/-- Contacts by the names of their companies, the last name first, then by their own. -/
def byCompany : Query :=
  { Query.ofEntity contact with
    joins := (Query.relationJoin (Relation.belongsTo "company" "company_id") company "company"
      "contacts" "company").toList
    orders := [⟨.column (.field "company" "name"), .descending⟩, ⟨.output "name", .ascending⟩] }

/-- Both keys of the contacts are texts, or null without a company. -/
theorem execute_sorts_byCompany :
    ∃ sorted : List Frame,
      sorted.Perm (matchingFrames dataset byCompany) ∧
      (sorted.Pairwise fun a b => ComesBefore dataset byCompany byCompany.orders a b ∨
        AlikeBy dataset byCompany byCompany.orders a b) ∧
      (∀ alike : List Frame, alike.Sublist (matchingFrames dataset byCompany) →
        alike.Pairwise (AlikeBy dataset byCompany byCompany.orders) → alike.Sublist sorted) ∧
      execute dataset byCompany = sorted.map (project dataset byCompany) ∧
      ∀ limit offset, execute dataset { byCompany with limit := limit, offset := offset } =
        page limit offset (sorted.map (project dataset byCompany)) := by
  refine execute_sorts dataset byCompany fun o ho => ⟨.text, ?_⟩
  revert o
  decide +kernel

example : (execute dataset byCompany).map (fun row => row.value "name") =
    [.text "Ann", .text "Cid", .text "Ben"] := by
  decide +kernel

end Sample
end Winnow
