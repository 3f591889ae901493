import Winnow.Proofs.Listing.Authorization
import Winnow.Proofs.Text.Cutting

/-!
# Filling in the current user

Filling in the user changes the values of the rules on users and nothing else of
a tree.  In such a value it replaces the items between commas that name the
current user, in strings and the strings of arrays to any depth (`Filled`).  The
text of a number neither has a comma nor reads as `me`, so that no item names the
current user afterwards (`Filled.not_namesUser`), and where none does nothing is
replaced (`Filled.eq_of_not_namesUser`).
-/

namespace Winnow.Rule

open Text

/-! ## What is replaced -/

/-- Whether some item of a value names the current user, in a string or in a string of an array. -/
inductive NamesUser : Json → Prop
  | text {s item : String} (hitem : item ∈ split ',' s) (hme : trim item = "me") :
    NamesUser (.string s)
  | item {items : List Json} {j : Json} (hmem : j ∈ items) (hnames : NamesUser j) :
    NamesUser (.array items)

/-- What a value is when the user has been filled in. -/
inductive Filled (user : Int) : Json → Json → Prop
  | whole : Filled user (.string "me") (.integer user)
  | text {s s' : String} (hs : s ≠ "me")
      (hitems : split ',' s' =
        (split ',' s).map fun item => if trim item = "me" then intText user else item) :
    Filled user (.string s) (.string s')
  | array {items items' : List Json} (hlength : items'.length = items.length)
      (hitems : ∀ (i : Nat) (j j' : Json),
        items[i]? = some j → items'[i]? = some j' → Filled user j j') :
    Filled user (.array items) (.array items')
  | other {j : Json} (htext : j.text? = none) (hitems : j.items? = none) : Filled user j j

/-- Whether the values of a rule are users: its filter selects users, or that of the operand
which the rule selects does. -/
def Leaf.OnUsers (filters : FilterSet) (leaf : Leaf) : Prop :=
  ∃ f, filters.get? leaf.rule = some f ∧
    (f.userSelector = true ∨ ∃ name operand, leaf.operand = some name ∧
      f.operand? name = some operand ∧ operand.filter.userSelector = true)

/-- The rule without its value. -/
def Leaf.withoutValue (leaf : Leaf) : Leaf := { leaf with value := .null }

/-! ## Numbers as items -/

theorem mem_intText {user : Int} {c : Char} (h : c ∈ (intText user).toList) :
    c = '-' ∨ c.isDigit = true := by
  have hdigits : ∀ n : Nat, c ∈ (natText n).toList → c.isDigit = true := by
    intro n hc
    unfold natText at hc
    rw [String.toList_ofList] at hc
    exact Nat.isDigit_of_mem_toDigits (by decide) (by decide) hc
  unfold intText at h
  split at h
  · rw [String.toList_append, List.mem_append] at h
    rcases h with hsign | hdigit
    · left
      simpa using hsign
    · right
      exact hdigits _ hdigit
  · right
    exact hdigits _ h

theorem comma_not_mem_intText (user : Int) : ',' ∉ (intText user).toList := by
  intro h
  have := mem_intText h
  revert this
  decide

theorem mem_of_mem_trim {s : String} {c : Char} (h : c ∈ (trim s).toList) : c ∈ s.toList := by
  unfold trim trimChars trimStartChars at h
  rw [String.toList_ofList, List.mem_reverse] at h
  have hback := (List.dropWhile_sublist isBlank).subset h
  rw [List.mem_reverse] at hback
  exact (List.dropWhile_sublist isBlank).subset hback

theorem trim_intText_ne (user : Int) : trim (intText user) ≠ "me" := by
  intro h
  have hletter : 'm' ∈ (trim (intText user)).toList := by
    rw [h]
    decide
  have := mem_intText (mem_of_mem_trim hletter)
  revert this
  decide

/-! ## Values -/

theorem fillItems_eq_map (user : Int) (items : List Json) :
    fillItems user items = items.map (fillUser user) := by
  induction items with
  | nil => rfl
  | cons j rest ih => rw [fillItems, ih, List.map_cons]

theorem filled_fillText (user : Int) (s : String) : Filled user (.string s) (fillText user s) := by
  have hstands : ∀ item, standsForUser item = true ↔ trim item = "me" := by
    intro item
    show (trim item == "me") = true ↔ trim item = "me"
    exact beq_iff_eq
  unfold fillText
  simp only
  by_cases hme : s = Filter.currentUser
  · rw [if_pos hme, hme]
    exact .whole
  rw [if_neg hme]
  by_cases hany : (split ',' s).any standsForUser = true
  · rw [if_pos hany]
    refine .text hme ?_
    -- neither an item nor the user has a comma, so that cutting the new text gives the new items
    have hne : ((split ',' s).map fun item => if standsForUser item then intText user else item) ≠
        [] :=
      mt List.map_eq_nil_iff.mp (split_ne_nil ',' s)
    have hcut := split_join hne (by
      intro piece hpiece
      obtain ⟨item, hitem, rfl⟩ := List.mem_map.mp hpiece
      split
      · exact comma_not_mem_intText user
      · exact not_mem_of_mem_split hitem)
    simp only [hstands] at hcut ⊢
    exact hcut
  · rw [if_neg hany]
    refine .text hme ?_
    have hkept : ∀ item ∈ split ',' s, (if trim item = "me" then intText user else item) = item := by
      intro item hitem
      rw [if_neg]
      intro hitem'
      exact hany (List.any_eq_true.mpr ⟨item, hitem, (hstands item).mpr hitem'⟩)
    rw [List.map_congr_left hkept, List.map_id']

mutual

theorem filled_fillUser (user : Int) : (j : Json) → Filled user j (fillUser user j)
  | .string s => by
    rw [fillUser]
    exact filled_fillText user s
  | .array items => by
    rw [fillUser, fillItems_eq_map]
    refine .array (List.length_map _) fun i j j' hj hj' => ?_
    rw [List.getElem?_map, hj] at hj'
    cases hj'
    exact filled_fillItems user items j (List.mem_of_getElem? hj)
  | .null => .other rfl rfl
  | .bool _ => .other rfl rfl
  | .integer _ => .other rfl rfl
  | .decimal _ => .other rfl rfl
  | .object _ => .other rfl rfl

theorem filled_fillItems (user : Int) : (items : List Json) →
    ∀ j ∈ items, Filled user j (fillUser user j)
  | [] => fun _ hj => absurd hj List.not_mem_nil
  | first :: rest =>
    List.forall_mem_cons.mpr ⟨filled_fillUser user first, filled_fillItems user rest⟩

end

section
variable {user : Int} {j j' : Json}

/-- Afterwards no item names the current user. -/
theorem Filled.not_namesUser (h : Filled user j j') : ¬NamesUser j' := by
  induction h with
  | whole => rintro ⟨⟩
  | text hs hitems =>
    rintro ⟨hitem, hme⟩
    rw [hitems] at hitem
    obtain ⟨item, -, rfl⟩ := List.mem_map.mp hitem
    split at hme
    next => exact trim_intText_ne user hme
    next hother => exact hother hme
  | array hlength hitems ih =>
    intro h
    cases h with
    | item hmem hnames =>
      obtain ⟨i, hi, rfl⟩ := List.getElem_of_mem hmem
      have hbefore := List.getElem?_eq_getElem (hlength ▸ hi)
      exact ih i _ _ hbefore (List.getElem?_eq_getElem hi) hnames
  | other htext hitems =>
    rintro ⟨⟩
    · cases htext
    · cases hitems

/-- A value in which no item names the current user is kept. -/
theorem Filled.eq_of_not_namesUser (h : Filled user j j') (hnames : ¬NamesUser j) : j' = j := by
  induction h with
  | whole =>
    have hitem : "me" ∈ split ',' "me" := by decide
    exact absurd (.text hitem (by decide)) hnames
  | @text s s' hs hitems =>
    have hkept : ∀ item ∈ split ',' s, (if trim item = "me" then intText user else item) = item :=
      fun item hitem => if_neg fun hme => hnames (.text hitem hme)
    rw [List.map_congr_left hkept, List.map_id'] at hitems
    rw [← join_split ',' s', hitems, join_split]
  | @array items items' hlength hitems ih =>
    congr 1
    apply List.ext_getElem hlength
    intro i hi' hi
    exact ih i _ _ (List.getElem?_eq_getElem hi) (List.getElem?_eq_getElem hi')
      fun hitem => hnames (.item (List.getElem_mem hi) hitem)
  | other => rfl

end

theorem fillUser_fillUser (other user : Int) (j : Json) :
    fillUser other (fillUser user j) = fillUser user j :=
  (filled_fillUser other _).eq_of_not_namesUser (filled_fillUser user j).not_namesUser

/-! ## Rules -/

section
variable {filters : FilterSet} {leaf : Leaf} (user : Int)

theorem selectsUser_iff {f : Filter} (hget : filters.get? leaf.rule = some f) :
    selectsUser f leaf = true ↔ leaf.OnUsers filters := by
  unfold selectsUser Leaf.OnUsers
  rw [hget, Bool.or_eq_true]
  simp only [Option.some.injEq, exists_eq_left']
  refine or_congr_right ?_
  constructor
  · intro h
    split at h
    next operand hoperand =>
      obtain ⟨name, hname, hfound⟩ := Option.bind_eq_some_iff.mp hoperand
      exact ⟨name, operand, hname, hfound, h⟩
    next => cases h
  · rintro ⟨name, operand, hname, hfound, h⟩
    rw [hname, Option.bind_some, hfound]
    exact h

theorem fillLeaf_of_onUsers (h : leaf.OnUsers filters) :
    fillLeaf filters user leaf = { leaf with value := fillUser user leaf.value } := by
  obtain ⟨f, hget, -⟩ := id h
  unfold fillLeaf
  rw [hget]
  simp only
  rw [if_pos ((selectsUser_iff hget).mpr h)]

theorem fillLeaf_of_not_onUsers (h : ¬leaf.OnUsers filters) :
    fillLeaf filters user leaf = leaf := by
  unfold fillLeaf
  cases hget : filters.get? leaf.rule with
  | none => rfl
  | some f =>
    simp only
    rw [if_neg (mt (selectsUser_iff hget).mp h)]

/-- Which rules are on users does not depend on the values. -/
theorem fillLeaf_fillLeaf (other : Int) :
    fillLeaf filters other (fillLeaf filters user leaf) = fillLeaf filters user leaf := by
  by_cases h : leaf.OnUsers filters
  · rw [fillLeaf_of_onUsers user h]
    have hvalue : Leaf.OnUsers filters { leaf with value := fillUser user leaf.value } := h
    rw [fillLeaf_of_onUsers other hvalue]
    simp only
    rw [fillUser_fillUser]
  · rw [fillLeaf_of_not_onUsers user h, fillLeaf_of_not_onUsers other h]

theorem withoutValue_fillLeaf : (fillLeaf filters user leaf).withoutValue = leaf.withoutValue := by
  obtain ⟨value, hvalue⟩ := fillLeaf_eq filters user leaf
  rw [hvalue]
  rfl

end

/-- Filling in the user keeps the tree but for the values of the rules on users.  In these every
item that names the current user becomes the user and the rest is kept, so that filling in a user
again changes nothing.  What a rule becomes depends on the rule, its filter and the user; and
without a user the tree is kept. -/
theorem fillUser_exact (t : Tree) (filters : FilterSet) (user : Int) :
    (t.fillUser filters (some user)).mapLeaves Leaf.withoutValue = t.mapLeaves Leaf.withoutValue ∧
      (∀ (i : Nat) (leaf : Leaf), t.leaves[i]? = some leaf → ∃ value : Json,
        (t.fillUser filters (some user)).leaves[i]? = some { leaf with value := value } ∧
          (leaf.OnUsers filters → Filled user leaf.value value ∧ ¬NamesUser value) ∧
          (¬leaf.OnUsers filters → value = leaf.value)) ∧
      (∀ other : Int, (t.fillUser filters (some user)).fillUser filters (some other) =
        t.fillUser filters (some user)) ∧
      (∀ (t' : Tree) (filters' : FilterSet) (i j : Nat) (leaf : Leaf),
        t.leaves[i]? = some leaf → t'.leaves[j]? = some leaf →
          filters.get? leaf.rule = filters'.get? leaf.rule →
            (t.fillUser filters (some user)).leaves[i]? =
              (t'.fillUser filters' (some user)).leaves[j]?) ∧
      t.fillUser filters none = t := by
  have hleaves : ∀ (t : Tree) (filters : FilterSet), (t.fillUser filters (some user)).leaves =
      t.leaves.map (fillLeaf filters user) :=
    fun t filters => nodeLeaves_mapNodeLeaves (fillLeaf filters user) t.children
  refine ⟨?_, ?_, ?_, ?_, rfl⟩
  · show (t.mapLeaves (fillLeaf filters user)).mapLeaves Leaf.withoutValue = _
    rw [Tree.mapLeaves_mapLeaves]
    exact congrArg (t.mapLeaves ·) (funext fun leaf => withoutValue_fillLeaf user)
  · intro i leaf hleaf
    rw [hleaves, List.getElem?_map, hleaf, Option.map_some]
    by_cases h : leaf.OnUsers filters
    · have hfilled := filled_fillUser user leaf.value
      rw [fillLeaf_of_onUsers user h]
      exact ⟨_, rfl, fun _ => ⟨hfilled, hfilled.not_namesUser⟩, fun hnot => absurd h hnot⟩
    · rw [fillLeaf_of_not_onUsers user h]
      exact ⟨leaf.value, rfl, fun hon => absurd hon h, fun _ => rfl⟩
  · intro other
    show (t.mapLeaves (fillLeaf filters user)).mapLeaves (fillLeaf filters other) =
      t.mapLeaves (fillLeaf filters user)
    rw [Tree.mapLeaves_mapLeaves]
    exact congrArg (t.mapLeaves ·) (funext fun leaf => fillLeaf_fillLeaf user other)
  · intro t' filters' i j leaf hleaf hleaf' hget
    have hsame : fillLeaf filters user leaf = fillLeaf filters' user leaf := by
      unfold fillLeaf
      rw [hget]
    rw [hleaves, hleaves, List.getElem?_map, List.getElem?_map, hleaf, hleaf', Option.map_some,
      Option.map_some, hsame]

/-- The current user is filled in among owners, and not in a title. -/
theorem fillUser_exact_sample :
    let filters : FilterSet :=
      ⟨[Filter.user "owner" "Owner" [], Filter.plain .text "title" "Title"]⟩
    let t : Tree := ⟨.and, [.leaf ⟨"owner", "in", none, .string "7, me"⟩,
      .leaf ⟨"title", "equal", none, .string "me"⟩], by simp⟩
    (∃ value, (t.fillUser filters (some 42)).leaves[0]? = some ⟨"owner", "in", none, value⟩ ∧
      Filled 42 (.string "7, me") value ∧ ¬NamesUser value) ∧
    (t.fillUser filters (some 42)).leaves[1]? = some ⟨"title", "equal", none, .string "me"⟩ := by
  intro filters t
  obtain ⟨-, hleaves, -⟩ := fillUser_exact t filters 42
  constructor
  · obtain ⟨value, hfilled, honUsers, -⟩ := hleaves 0 ⟨"owner", "in", none, .string "7, me"⟩ rfl
    exact ⟨value, hfilled, honUsers ⟨_, rfl, .inl rfl⟩⟩
  · obtain ⟨value, hkept, -, hother⟩ := hleaves 1 ⟨"title", "equal", none, .string "me"⟩ rfl
    have htitle : ¬Leaf.OnUsers filters ⟨"title", "equal", none, .string "me"⟩ := by
      rintro ⟨f, hget, hselects⟩
      cases hget
      rcases hselects with hselects | ⟨name, operand, hname, -⟩
      · cases hselects
      · cases hname
    rw [hkept, hother htitle]

/-- Items that name the user, and a word that begins with its name. -/
example : fillUser 42 (.array [.string "me", .array [.string "7, me ,me"], .string "7,meet"]) =
    .array [.integer 42, .array [.string "7,42,42"], .string "7,meet"] := by
  rfl

end Winnow.Rule
