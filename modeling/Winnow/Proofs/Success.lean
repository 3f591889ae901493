import Mathlib.Data.List.Forall2

/-!
# Steps that succeed

What a run of steps gives, when it gives a result, is read off its steps.
-/

namespace Winnow

theorem bind_eq_ok {ε α β : Type} {x : Except ε α} {f : α → Except ε β} {b : β}
    (h : (x >>= f) = .ok b) : ∃ a, x = .ok a ∧ f a = .ok b := by
  cases x with
  | error error => cases h
  | ok a => exact ⟨a, rfl, h⟩

theorem map_eq_ok {ε α β : Type} {x : Except ε α} {f : α → β} {b : β} (h : x.map f = .ok b) :
    ∃ a, x = .ok a ∧ f a = b := by
  cases x with
  | error error => cases h
  | ok a => exact ⟨a, rfl, Except.ok.inj h⟩

/-- Steps that fail do so at the first or, on its result, at the rest. -/
theorem bind_eq_error {ε α β : Type} {x : Except ε α} {f : α → Except ε β} {error : ε}
    (h : (x >>= f) = .error error) : x = .error error ∨ ∃ a, x = .ok a ∧ f a = .error error := by
  cases x with
  | error found =>
    cases h
    exact .inl rfl
  | ok a => exact .inr ⟨a, rfl, h⟩

theorem ok_of_toOption {ε α : Type} {x : Except ε α} {a : α} (h : x.toOption = some a) :
    x = .ok a := by
  cases x with
  | error error => cases h
  | ok b =>
    cases h
    rfl

theorem ok_of_isOk {ε α : Type} {x : Except ε α} (h : x.isOk = true) : ∃ a, x = .ok a := by
  cases x with
  | error error => cases h
  | ok a => exact ⟨a, rfl⟩

/-- A step succeeds where there is something that it makes its results of. -/
theorem isOk_iff_exists {ε α β : Type} {x : Except ε β} {source : α → Prop} {make : α → β}
    (h : ∀ b, x = .ok b ↔ ∃ a, source a ∧ b = make a) : x.isOk = true ↔ ∃ a, source a := by
  constructor
  · intro hok
    obtain ⟨b, hb⟩ := ok_of_isOk hok
    obtain ⟨a, ha, -⟩ := (h b).mp hb
    exact ⟨a, ha⟩
  · rintro ⟨a, ha⟩
    rw [(h (make a)).mpr ⟨a, ha, rfl⟩]
    rfl

/-- A step for every member of a list succeeds when each of them does. -/
theorem mapM_eq_ok {ε α β : Type} {f : α → Except ε β} {l : List α} {bs : List β}
    (h : l.mapM f = .ok bs) : List.Forall₂ (fun a b => f a = .ok b) l bs := by
  induction l generalizing bs with
  | nil =>
    cases h
    exact .nil
  | cons a l ih =>
    rw [List.mapM_cons] at h
    obtain ⟨b, hb, h⟩ := bind_eq_ok h
    obtain ⟨rest, hrest, h⟩ := bind_eq_ok h
    cases h
    exact .cons hb (ih hrest)

/-- Every result of such steps is that of a member. -/
theorem of_mem_mapM {ε α β : Type} {f : α → Except ε β} {l : List α} {bs : List β}
    (h : l.mapM f = .ok bs) {b : β} (hb : b ∈ bs) : ∃ a ∈ l, f a = .ok b := by
  have hall := mapM_eq_ok h
  clear h
  induction hall with
  | nil => cases hb
  | cons hhead _ ih =>
    rcases List.mem_cons.mp hb with rfl | hb
    · exact ⟨_, List.mem_cons_self, hhead⟩
    · obtain ⟨a, ha, hread⟩ := ih hb
      exact ⟨a, List.mem_cons_of_mem _ ha, hread⟩

/-- Every member has its result among those of such steps. -/
theorem mem_of_mapM {ε α β : Type} {f : α → Except ε β} {l : List α} {bs : List β}
    (h : l.mapM f = .ok bs) {a : α} (ha : a ∈ l) {b : β} (hb : f a = .ok b) : b ∈ bs := by
  have hall := mapM_eq_ok h
  clear h
  induction hall with
  | nil => cases ha
  | cons hhead _ ih =>
    rcases List.mem_cons.mp ha with rfl | ha
    · cases hhead.symm.trans hb
      exact List.mem_cons_self
    · exact List.mem_cons_of_mem _ (ih ha)

/-- Such steps fail at a member. -/
theorem mapM_eq_error {ε α β : Type} {f : α → Except ε β} {l : List α} {error : ε}
    (h : l.mapM f = .error error) : ∃ a ∈ l, f a = .error error := by
  induction l with
  | nil => cases h
  | cons a l ih =>
    rw [List.mapM_cons] at h
    rcases bind_eq_error h with h | ⟨b, -, h⟩
    · exact ⟨a, List.mem_cons_self, h⟩
    · rcases bind_eq_error h with h | ⟨bs, -, h⟩
      · obtain ⟨a', ha', h⟩ := ih h
        exact ⟨a', List.mem_cons_of_mem a ha', h⟩
      · cases h

theorem mapM_isOk_iff {ε α β : Type} {f : α → Except ε β} {l : List α} :
    (l.mapM f).isOk = true ↔ ∀ a ∈ l, (f a).isOk = true := by
  induction l with
  | nil => exact iff_of_true rfl (List.forall_mem_nil _)
  | cons a l ih =>
    rw [List.mapM_cons, List.forall_mem_cons, ← ih]
    cases f a with
    | error error => exact iff_of_false Bool.false_ne_true fun h => Bool.false_ne_true h.1
    | ok b =>
      cases l.mapM f with
      | error error => exact iff_of_false Bool.false_ne_true fun h => Bool.false_ne_true h.2
      | ok bs => exact iff_of_true rfl ⟨rfl, rfl⟩

/-- What every step keeps, a run keeps. -/
theorem foldlM_keeps {ε α β : Type} {step : β → α → Except ε β} {keeps : β → Prop} {l : List α}
    {b r : β} (h : l.foldlM step b = .ok r)
    (hstep : ∀ a ∈ l, ∀ b r, step b a = .ok r → keeps b → keeps r) (hb : keeps b) : keeps r := by
  induction l generalizing b with
  | nil =>
    cases h
    exact hb
  | cons a l ih =>
    rw [List.foldlM_cons] at h
    obtain ⟨next, hnext, h⟩ := bind_eq_ok h
    refine ih h (fun a' ha' => hstep a' (List.mem_cons_of_mem a ha')) ?_
    exact hstep a List.mem_cons_self b next hnext hb

/-- In a run that succeeds every step does, on something that the steps before it keep. -/
theorem foldlM_each {ε α β : Type} {step : β → α → Except ε β} {keeps : β → Prop} {l : List α}
    {b r : β} (h : l.foldlM step b = .ok r)
    (hstep : ∀ a ∈ l, ∀ b r, step b a = .ok r → keeps b → keeps r) (hb : keeps b) :
    ∀ a ∈ l, ∃ b r, keeps b ∧ step b a = .ok r := by
  induction l generalizing b with
  | nil => exact fun a ha => absurd ha List.not_mem_nil
  | cons first l ih =>
    rw [List.foldlM_cons] at h
    obtain ⟨next, hnext, h⟩ := bind_eq_ok h
    intro a ha
    rcases List.mem_cons.mp ha with rfl | ha
    · exact ⟨b, next, hb, hnext⟩
    · exact ih h (fun a' ha' => hstep a' (List.mem_cons_of_mem first ha'))
        (hstep first List.mem_cons_self b next hnext hb) a ha

/-- A run succeeds when every step does, from whatever the steps before it keep. -/
theorem foldlM_ok {ε α β : Type} {step : β → α → Except ε β} {keeps : β → Prop} {l : List α} {b : β}
    (hstep : ∀ a ∈ l, ∀ b, keeps b → ∃ r, step b a = .ok r ∧ keeps r) (hb : keeps b) :
    ∃ r, l.foldlM step b = .ok r := by
  induction l generalizing b with
  | nil => exact ⟨b, rfl⟩
  | cons a l ih =>
    obtain ⟨next, hnext, hkeeps⟩ := hstep a List.mem_cons_self b hb
    obtain ⟨r, hr⟩ := ih (fun a' ha' => hstep a' (List.mem_cons_of_mem a ha')) hkeeps
    refine ⟨r, ?_⟩
    rw [List.foldlM_cons, hnext]
    exact hr

end Winnow
