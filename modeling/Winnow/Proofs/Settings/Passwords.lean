import Winnow.CommandLine.Run

/-!
# Hidden passwords

In a connection text with a user and a password the scheme ends at the first
mark, the user at the first colon after it, and the host starts behind the last
at sign.  A password lies between the colon and the at sign, whatever its
characters, so what is shown of the text is made of the other parts
(`maskPassword_accessText`) and says nothing about the password
(`password_hidden`).
-/

namespace Winnow

/-! ## Cutting a text -/

namespace Text

theorem cutFirst_append {sep : Char} {front : List Char} (h : sep ∉ front) (back : List Char) :
    cutFirst sep (front ++ sep :: back) = some (front, back) := by
  induction front with
  | nil => exact if_pos rfl
  | cons c front ih =>
    obtain ⟨hc, hfront⟩ := not_or.mp (mt List.mem_cons.mpr h)
    rw [List.cons_append, cutFirst, if_neg (Ne.symm hc), ih hfront]
    rfl

theorem cutLast_append {sep : Char} {back : List Char} (h : sep ∉ back) (front : List Char) :
    cutLast sep (front ++ sep :: back) = some (front, back) := by
  have hreverse : (front ++ sep :: back).reverse = back.reverse ++ sep :: front.reverse := by
    simp
  unfold cutLast
  rw [hreverse, cutFirst_append (mt List.mem_reverse.mp h)]
  simp

/-- What follows the last separator of a text, or the whole text when it has none. -/
theorem exists_last_piece (sep : Char) (cs : List Char) :
    ∃ front back, cs = front ++ back ∧ sep ∉ back ∧ (front = [] ∨ ∃ before, front = before ++ [sep]) := by
  induction cs with
  | nil => exact ⟨[], [], rfl, List.not_mem_nil, .inl rfl⟩
  | cons c cs ih =>
    obtain ⟨front, back, rfl, hback, hfront⟩ := ih
    rcases hfront with rfl | ⟨before, rfl⟩
    · by_cases hc : c = sep
      · exact ⟨[c], back, rfl, hback, .inr ⟨[], by rw [hc]; rfl⟩⟩
      · refine ⟨[], c :: back, rfl, ?_, .inl rfl⟩
        intro hmem
        rcases List.mem_cons.mp hmem with heq | hmem
        · exact hc heq.symm
        · exact hback hmem
    · exact ⟨c :: (before ++ [sep]), back, rfl, hback, .inr ⟨c :: before, rfl⟩⟩

end Text

namespace Connection

open Text

/-! ## Connection texts -/

/-- Whether a character may stand in the scheme of a connection text. -/
def isSchemeChar (c : Char) : Bool := c.isAlphanum || c == '+' || c == '-' || c == '.'

/-- A connection text with a user and a password. -/
def accessText (scheme user password rest : String) : String :=
  scheme ++ "://" ++ user ++ ":" ++ password ++ "@" ++ rest

theorem accessText_toList (scheme user password rest : String) :
    (accessText scheme user password rest).toList = scheme.toList ++ ':' :: '/' :: '/' ::
      (user.toList ++ ':' :: (password.toList ++ '@' :: rest.toList)) := by
  simp [accessText]

/-- The mark ends the scheme where it comes first, as no part of it stands in a scheme. -/
theorem cutScheme_append {scheme : List Char} (h : ':' ∉ scheme) (rest : List Char) :
    cutScheme (scheme ++ ':' :: '/' :: '/' :: rest) = some (scheme ++ [':', '/', '/'], rest) := by
  induction scheme with
  | nil => rfl
  | cons c scheme ih =>
    obtain ⟨hc, hscheme⟩ := not_or.mp (mt List.mem_cons.mpr h)
    -- a character other than a colon begins no mark
    rw [List.cons_append, cutScheme.eq_2 c _ fun _ heq => absurd heq.symm hc, ih hscheme]
    rfl

/-- The user ends at the first colon and the host starts behind the last at sign. -/
theorem maskRest?_append {user host : List Char} (huser : ':' ∉ user) (hhost : '@' ∉ host)
    (between : List Char) :
    maskRest? (user ++ ':' :: (between ++ '@' :: host)) =
      some (user ++ [':'] ++ mask ++ ['@'] ++ host) := by
  have hlast : cutLast '@' (user ++ ':' :: (between ++ '@' :: host)) =
      some (user ++ ':' :: between, host) := by
    rw [← List.cons_append, ← List.append_assoc]
    exact cutLast_append hhost _
  unfold maskRest?
  simp only [hlast, bind, Option.bind, cutFirst_append huser]

/-- What is shown of a connection text: its scheme, its user, and of what follows the password the
part behind the last at sign. -/
theorem maskPassword_accessText {scheme user rest : String} {front host : List Char}
    (hscheme : ':' ∉ scheme.toList) (huser : ':' ∉ user.toList)
    (hrest : rest.toList = front ++ host) (hhost : '@' ∉ host)
    (hfront : front = [] ∨ ∃ before, front = before ++ ['@']) (password : String) :
    maskPassword (accessText scheme user password rest) =
      scheme ++ "://" ++ user ++ ":****@" ++ String.ofList host := by
  -- the last at sign ends either the password or a part of what follows it
  have hbetween : ∃ between, password.toList ++ '@' :: rest.toList = between ++ '@' :: host := by
    rcases hfront with rfl | ⟨before, rfl⟩
    · exact ⟨password.toList, by rw [hrest, List.nil_append]⟩
    · exact ⟨password.toList ++ '@' :: before, by rw [hrest]; simp⟩
  obtain ⟨between, hbetween⟩ := hbetween
  have hshown : maskChars (accessText scheme user password rest).toList =
      scheme.toList ++ [':', '/', '/'] ++ (user.toList ++ [':'] ++ mask ++ ['@'] ++ host) := by
    unfold maskChars
    rw [accessText_toList, hbetween, cutScheme_append hscheme]
    simp only [Option.getD_some, maskRest?_append huser hhost]
  unfold maskPassword
  rw [hshown]
  apply String.toList_injective
  simp [mask]

theorem not_mem_of_isSchemeChar {scheme : List Char} (h : ∀ c ∈ scheme, isSchemeChar c = true) :
    ':' ∉ scheme := by
  intro hmem
  have hcolon := h ':' hmem
  revert hcolon
  decide

/-- What is shown of a connection text is its scheme, its user, a mark for the password and the end
of what follows it, which is all of that when there is no at sign in it.  None of these depends on the
password, so neither the settings that are shown nor the failure to reach the storage tell passwords
apart. -/
theorem password_hidden (scheme user rest : String)
    (hscheme : ∀ c ∈ scheme.toList, isSchemeChar c = true) (huser : ':' ∉ user.toList) :
    let text (password : String) := accessText scheme user password rest
    (∃ host, (∀ password, maskPassword (text password) =
        scheme ++ "://" ++ user ++ ":****@" ++ host) ∧
      host.toList <:+ rest.toList ∧ '@' ∉ host.toList ∧ ('@' ∉ rest.toList → host = rest)) ∧
    ∀ p q, maskPassword (text p) = maskPassword (text q) ∧
      ∀ settings : Settings,
        let with_ (url : String) : Settings := { settings with storage.url := url }
        CommandLine.shownSettings (with_ (text p)) = CommandLine.shownSettings (with_ (text q)) ∧
        CommandLine.unreachable (with_ (text p)).storage =
          CommandLine.unreachable (with_ (text q)).storage := by
  intro text
  obtain ⟨front, host, hrest, hhost, hfront⟩ := exists_last_piece '@' rest.toList
  have hshown : ∀ password, maskPassword (text password) =
      scheme ++ "://" ++ user ++ ":****@" ++ String.ofList host :=
    maskPassword_accessText (not_mem_of_isSchemeChar hscheme) huser hrest hhost hfront
  constructor
  · refine ⟨String.ofList host, hshown, ?_, ?_, ?_⟩
    · rw [String.toList_ofList, hrest]
      exact List.suffix_append front host
    · rwa [String.toList_ofList]
    · intro hnone
      rcases hfront with rfl | ⟨before, rfl⟩
      · rw [← String.ofList_toList (s := rest), hrest, List.nil_append]
      · exact absurd (by rw [hrest]; simp) hnone
  · intro p q
    have hsame : maskPassword (text p) = maskPassword (text q) := by rw [hshown, hshown]
    refine ⟨hsame, fun settings => ?_⟩
    simp only [CommandLine.shownSettings, CommandLine.unreachable, hsame, and_self]

/-- A password with colons, slashes and at signs is shown like any other. -/
theorem password_hidden_sample :
    (∀ c ∈ "postgres".toList, isSchemeChar c = true) ∧ ':' ∉ "crm".toList ∧
      maskPassword "postgres://crm:p@ss:/x://y@db/crm" = maskPassword "postgres://crm:secret@db/crm" ∧
      maskPassword "postgres://crm:p@ss:/x://y@db/crm" = "postgres://crm:****@db/crm" := by
  have hall : "postgres".toList.all isSchemeChar = true := by decide
  have hscheme : ∀ c ∈ "postgres".toList, isSchemeChar c = true := List.all_eq_true.mp hall
  have huser : ':' ∉ "crm".toList := by decide
  obtain ⟨⟨host, hshown, -, -, hhost⟩, hsame⟩ :=
    password_hidden "postgres" "crm" "db/crm" hscheme huser
  have hhost : host = "db/crm" := hhost (by decide)
  refine ⟨hscheme, huser, (hsame "p@ss:/x://y" "secret").1, ?_⟩
  exact (hshown "p@ss:/x://y").trans (by rw [hhost]; decide)

end Connection
end Winnow
