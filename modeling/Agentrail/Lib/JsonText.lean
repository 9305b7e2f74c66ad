import Agentrail.Lib.Text

/-!
# The text of JSON strings and objects

A string ends at the first quotation mark that nothing escapes (`Inside`), so a
text that starts with a string starts with one only (`Inside.unique`).  From this
the text of an object whose keys and values are strings says which they are and in
which order (`objectText_inj`), whichever characters a writer escapes.
-/

namespace JsonText

/-- What may stand between the quotation marks. -/
inductive Inside : List Char → Prop
  | nil : Inside []
  | plain {c : Char} {t : List Char} : c ≠ '"' → c ≠ '\\' → Inside t → Inside (c :: t)
  | escaped {c : Char} {t : List Char} : Inside t → Inside ('\\' :: c :: t)

theorem Inside.append {a b : List Char} (ha : Inside a) (hb : Inside b) : Inside (a ++ b) := by
  induction ha with
  | nil => exact hb
  | plain hquote hslash _ ih => exact .plain hquote hslash ih
  | escaped _ ih => exact .escaped ih

/-- A writer that goes character by character. -/
theorem Inside.flatMap {f : Char → List Char} (hf : ∀ c, Inside (f c)) (t : List Char) :
    Inside (t.flatMap f) := by
  induction t with
  | nil => exact .nil
  | cons c t ih =>
    rw [List.flatMap_cons]
    exact (hf c).append ih

theorem Inside.of_forall {t : List Char} (h : ∀ c ∈ t, c ≠ '"' ∧ c ≠ '\\') : Inside t := by
  induction t with
  | nil => exact .nil
  | cons c t ih =>
    rw [List.forall_mem_cons] at h
    exact .plain h.1.1 h.1.2 (ih h.2)

/-- **Strings end in one place.** -/
theorem Inside.unique {a b r s : List Char} (ha : Inside a) (hb : Inside b)
    (h : a ++ '"' :: r = b ++ '"' :: s) : a = b ∧ r = s := by
  induction ha generalizing b with
  | nil =>
    cases hb with
    | nil => exact ⟨rfl, (List.cons.inj h).2⟩
    | plain hquote _ _ => exact absurd (List.cons.inj h).1.symm hquote
    | escaped _ => exact absurd (List.cons.inj h).1 (by decide)
  | plain hquote hslash _ ih =>
    cases hb with
    | nil => exact absurd (List.cons.inj h).1 hquote
    | plain _ _ hb =>
      obtain ⟨rfl, htail⟩ := List.cons.inj h
      obtain ⟨rfl, hrest⟩ := ih hb htail
      exact ⟨rfl, hrest⟩
    | escaped _ => exact absurd (List.cons.inj h).1 hslash
  | escaped _ ih =>
    cases hb with
    | nil => exact absurd (List.cons.inj h).1 (by decide)
    | plain _ hslash _ => exact absurd (List.cons.inj h).1.symm hslash
    | escaped hb =>
      obtain ⟨rfl, htail⟩ := List.cons.inj (List.cons.inj h).2
      obtain ⟨rfl, hrest⟩ := ih hb htail
      exact ⟨rfl, hrest⟩

def IsString (t : List Char) : Prop := ∃ body, Inside body ∧ t = '"' :: (body ++ ['"'])

theorem IsString.unique {a b r s : List Char} (ha : IsString a) (hb : IsString b)
    (h : a ++ r = b ++ s) : a = b ∧ r = s := by
  obtain ⟨x, hx, rfl⟩ := ha
  obtain ⟨y, hy, rfl⟩ := hb
  have hinner : x ++ '"' :: r = y ++ '"' :: s := by
    simpa using (List.cons.inj h).2
  obtain ⟨rfl, hrest⟩ := hx.unique hy hinner
  exact ⟨rfl, hrest⟩

/-! ## Objects -/

/-- The members of an object with a comma before each, and the closing brace. -/
def members : List (List Char × List Char) → List Char
  | [] => ['}']
  | (k, v) :: fields => ',' :: (k ++ ':' :: (v ++ members fields))

/-- An object from its keys and values as they are written. -/
def objectText (fields : List (List Char × List Char)) : List Char := '{' :: (members fields).tail

def AllStrings (fields : List (List Char × List Char)) : Prop :=
  ∀ f ∈ fields, IsString f.1 ∧ IsString f.2

theorem members_inj {fields others : List (List Char × List Char)} (hf : AllStrings fields)
    (ho : AllStrings others) (h : members fields = members others) : fields = others := by
  induction fields generalizing others with
  | nil =>
    cases others with
    | nil => rfl
    | cons g others => exact absurd (List.cons.inj h).1 (by decide)
  | cons f fields ih =>
    cases others with
    | nil => exact absurd (List.cons.inj h).1 (by decide)
    | cons g others =>
      obtain ⟨hfirst, hfields⟩ := List.forall_mem_cons.mp hf
      obtain ⟨hfirst', hothers⟩ := List.forall_mem_cons.mp ho
      obtain ⟨k, v⟩ := f
      obtain ⟨l, w⟩ := g
      obtain ⟨rfl, hcolon⟩ := hfirst.1.unique hfirst'.1 (List.cons.inj h).2
      obtain ⟨rfl, hrest⟩ := hfirst.2.unique hfirst'.2 (List.cons.inj hcolon).2
      rw [ih hfields hothers hrest]

/-- **The text of an object shows its members in their order.** -/
theorem objectText_inj {fields others : List (List Char × List Char)} (hf : AllStrings fields)
    (ho : AllStrings others) (hne : fields ≠ []) (hne' : others ≠ [])
    (h : objectText fields = objectText others) : fields = others := by
  cases fields with
  | nil => exact absurd rfl hne
  | cons f fields =>
    cases others with
    | nil => exact absurd rfl hne'
    | cons g others =>
      refine members_inj hf ho ?_
      exact congrArg (',' :: ·) (List.cons.inj h).2

end JsonText
