import Agentrail.Py.Json

/-!
# Lines of a text

How `str.splitlines` and `str.strip` read back what was written line by line,
and that the readers of texts lose nothing: what `partition`, `split` and
`splitlines` return makes up the text again (`partition_join`, `splitOn1_join`,
`splitlinesAux_line_join`).
-/

namespace Py

/-! ## Lines -/

theorem splitlinesAux_cons (cur : Text) (c : Char) (s : Text)
    (h : ∀ s', c = '\r' → s = '\n' :: s' → False) :
    splitlinesAux cur (c :: s) =
      if isLineBreak c then cur.reverse :: splitlinesAux [] s else splitlinesAux (c :: cur) s := by
  rw [splitlinesAux]
  exact h

/-- After a line break the lines start anew. -/
theorem splitlinesAux_append (cur a b : Text) :
    splitlinesAux cur (a ++ '\n' :: b) = splitlinesAux cur (a ++ ['\n']) ++ splitlines b := by
  have hrest : ∀ (c : Char) (s r : Text), s ≠ [] → (∀ s', c = '\r' → s = '\n' :: s' → False) →
      ∀ s', c = '\r' → s ++ r = '\n' :: s' → False := by
    intro c s r hs hcrlf s' hc he
    obtain ⟨d, s, rfl⟩ := List.exists_cons_of_ne_nil hs
    rw [List.cons_append] at he
    cases he
    exact hcrlf s hc rfl
  fun_induction splitlinesAux cur a with
  | case1 => rfl
  | case2 cur hcur => rfl
  | case3 cur s ih =>
    show cur.reverse :: splitlinesAux [] (s ++ '\n' :: b) =
      cur.reverse :: (splitlinesAux [] (s ++ ['\n']) ++ splitlines b)
    rw [ih]
  | case4 cur c s hcrlf hbreak ih =>
    by_cases hs : s = []
    · subst hs
      by_cases hc : c = '\r'
      · subst hc
        rfl
      · rw [List.cons_append, List.cons_append, splitlinesAux_cons cur c _ fun s' h _ => hc h,
          splitlinesAux_cons cur c _ fun s' h _ => hc h, if_pos hbreak, if_pos hbreak]
        rfl
    · rw [List.cons_append, List.cons_append, splitlinesAux_cons cur c _ (hrest c s _ hs hcrlf),
        splitlinesAux_cons cur c _ (hrest c s _ hs hcrlf), if_pos hbreak, if_pos hbreak, ih]
      rfl
  | case5 cur c s hcrlf hbreak ih =>
    have hc : c ≠ '\r' := by
      rintro rfl
      exact hbreak (by decide)
    rw [List.cons_append, List.cons_append, splitlinesAux_cons cur c _ fun s' h _ => hc h,
      splitlinesAux_cons cur c _ fun s' h _ => hc h, if_neg hbreak, if_neg hbreak, ih]

theorem splitlines_append (a b : Text) :
    splitlines (a ++ '\n' :: b) = splitlines (a ++ ['\n']) ++ splitlines b :=
  splitlinesAux_append [] a b

/-- A line without line breaks is the first of the lines. -/
theorem splitlinesAux_line (cur l rest : Text) (h : ∀ c ∈ l, isLineBreak c = false) :
    splitlinesAux cur (l ++ '\n' :: rest) = (cur.reverse ++ l) :: splitlines rest := by
  induction l generalizing cur with
  | nil =>
    rw [List.append_nil]
    rfl
  | cons c l ih =>
    have hc := h c List.mem_cons_self
    have hne : c ≠ '\r' := by
      rintro rfl
      exact absurd hc (by decide)
    rw [List.cons_append, splitlinesAux_cons cur c _ fun s' h _ => hne h, hc,
      if_neg Bool.false_ne_true, ih (c :: cur) fun d hd => h d (List.mem_cons_of_mem c hd)]
    simp

theorem splitlines_line (l rest : Text) (h : ∀ c ∈ l, isLineBreak c = false) :
    splitlines (l ++ '\n' :: rest) = l :: splitlines rest :=
  splitlinesAux_line [] l rest h

/-- No line ends within a printable text. -/
theorem Printable.not_isLineBreak {t : Text} (h : Printable t) (c : Char) (hc : c ∈ t) :
    isLineBreak c = false := by
  have hrange := h c hc
  have hne : ∀ n : Nat, 0x7e < n → (c.toNat == n) = false := fun n hn =>
    beq_eq_false_iff_ne.mpr (by omega)
  have h1 : ¬c.toNat ≤ 13 := by omega
  have h2 : ¬c.toNat ≤ 30 := by omega
  unfold isLineBreak
  simp [hne, h1, h2]

/-! ## Ends -/

/-- A text without blanks at its ends is its own `strip`. -/
theorem strip_of_ends (c d : Char) (t : Text) (hc : isSpace c = false) (hd : isSpace d = false) :
    strip (c :: (t ++ [d])) = c :: (t ++ [d]) := by
  unfold strip
  rw [List.dropWhile_cons_of_neg (by simp [hc])]
  have hrev : (c :: (t ++ [d])).reverse = d :: (t.reverse ++ [c]) := by simp
  rw [hrev, List.dropWhile_cons_of_neg (by simp [hd]), ← hrev, List.reverse_reverse]

/-- A written dict starts and ends with a bracket. -/
theorem dumps_dict_ends (fields : List (Text × Json)) (h : fields ≠ []) :
    ∃ t, dumps compact (.dict fields) = '{' :: (t ++ ['}']) := by
  have hend : ∀ fields : List (Text × Json), ∃ t, dumpsFields compact fields = t ++ ['}'] := by
    intro fields
    induction fields with
    | nil => exact ⟨[], rfl⟩
    | cons f fields ih =>
      obtain ⟨t, ht⟩ := ih
      rw [dumpsFields, ht, ← List.append_assoc]
      exact ⟨_, rfl⟩
  obtain ⟨⟨k, v⟩, fields, rfl⟩ := List.exists_cons_of_ne_nil h
  obtain ⟨t, ht⟩ := hend fields
  rw [dumps, ht, ← List.append_assoc]
  exact ⟨_, rfl⟩

theorem strip_dumps_dict (fields : List (Text × Json)) (h : fields ≠ []) :
    strip (dumps compact (.dict fields)) = dumps compact (.dict fields) := by
  obtain ⟨t, ht⟩ := dumps_dict_ends fields h
  rw [ht]
  exact strip_of_ends '{' '}' t (by decide) (by decide)

/-! ## Readers that lose nothing -/

theorem utf8Encode_utf8Decode (b : Bytes) (t : Text) (h : utf8Decode b = some t) :
    utf8Encode t = b := by
  unfold utf8Decode at h
  obtain ⟨a, ha, rfl⟩ := Option.map_eq_some_iff.mp h
  have hsome : b.toByteArray.utf8Decode?.isSome := by rw [ha]; rfl
  have hback := ByteArray.utf8Encode_get_utf8Decode? (h := hsome)
  have hget : b.toByteArray.utf8Decode?.get hsome = a := Option.get_of_eq_some hsome ha
  rw [hget] at hback
  have hbytes : (utf8Encode a.toList).toByteArray = b.toByteArray := hback
  have hdata := congrArg (fun x => x.data.toList) hbytes
  simpa using hdata

theorem utf8Encode_append (s t : Text) : utf8Encode (s ++ t) = utf8Encode s ++ utf8Encode t :=
  List.flatMap_append

theorem utf8Encode_newline (t : Text) : utf8Encode ('\n' :: t) = 10 :: utf8Encode t := rfl

theorem utf8Encode_space (t : Text) : utf8Encode (' ' :: t) = 32 :: utf8Encode t := rfl

section
variable {α : Type} [DecidableEq α]

theorem partitionAt_join (sep : List α) (s l r : List α) (h : partitionAt sep s = some (l, r)) :
    s = l ++ sep ++ r := by
  induction s generalizing l with
  | nil =>
    rw [partitionAt] at h
    split at h
    · next hp =>
      cases h
      rw [List.isPrefixOf_iff_prefix, List.prefix_nil] at hp
      rw [hp]
      rfl
    · cases h
  | cons c s ih =>
    rw [partitionAt] at h
    split at h
    · next hp =>
      cases h
      exact (List.prefix_iff_eq_append.mp (List.isPrefixOf_iff_prefix.mp hp)).symm
    · obtain ⟨⟨l', r'⟩, hrest, heq⟩ := Option.map_eq_some_iff.mp h
      cases heq
      rw [ih l' hrest]
      rfl

theorem partition_join (s sep : List α) (h : (partition s sep).2.1 ≠ []) :
    s = (partition s sep).1 ++ sep ++ (partition s sep).2.2 := by
  unfold partition at h ⊢
  split
  · next hsplit => exact partitionAt_join sep s _ _ hsplit
  · next hsplit =>
    rw [hsplit] at h
    exact absurd rfl h

theorem rpartition_join (s sep : List α) (h : (rpartition s sep).2.1 ≠ []) :
    s = (rpartition s sep).1 ++ sep ++ (rpartition s sep).2.2 := by
  unfold rpartition at h ⊢
  split
  · next hsplit =>
    have hrev := congrArg List.reverse (partitionAt_join _ _ _ _ hsplit)
    simpa using hrev
  · next hsplit =>
    rw [hsplit] at h
    exact absurd rfl h

theorem partitionAt_of_notMem (c : α) (l r : List α) (h : c ∉ l) :
    partitionAt [c] (l ++ c :: r) = some (l, r) := by
  induction l with
  | nil => simp [partitionAt, List.isPrefixOf]
  | cons d l ih =>
    rw [List.mem_cons, not_or] at h
    have hd : [c].isPrefixOf (d :: (l ++ c :: r)) = false := by simp [List.isPrefixOf, h.1]
    rw [List.cons_append, partitionAt, hd, if_neg Bool.false_ne_true, ih h.2]
    rfl

/-- A text is parted at the first separator. -/
theorem partition_of_notMem (c : α) (l r : List α) (h : c ∉ l) :
    partition (l ++ c :: r) [c] = (l, [c], r) := by
  unfold partition
  rw [partitionAt_of_notMem c l r h]

theorem splitOn1_eq_splitOn (c : α) (s : List α) : splitOn1 c s = s.splitOn c := by
  induction s with
  | nil => rfl
  | cons d s ih =>
    rw [splitOn1, List.splitOn_cons_eq_if_modifyHead, ih]
    by_cases hd : d = c
    · simp [hd]
    · cases hpieces : s.splitOn c with
      | nil => exact absurd hpieces (List.splitOn_ne_nil c s)
      | cons p ps => simp [hd]

/-- Mapping the letters that are no separator leaves the separators where they are. -/
theorem splitOn1_map {β : Type} [DecidableEq β] {c : α} {d : β} {f : α → β}
    (hf : ∀ x, f x = d ↔ x = c) (s : List α) :
    splitOn1 d (s.map f) = (splitOn1 c s).map (List.map f) := by
  induction s with
  | nil => rfl
  | cons x s ih =>
    rw [List.map_cons, splitOn1, splitOn1, ih]
    by_cases hx : x = c
    · rw [if_pos hx, if_pos ((hf x).mpr hx)]
      rfl
    · rw [if_neg hx, if_neg fun he => hx ((hf x).mp he)]
      cases splitOn1 c s <;> rfl
theorem splitOn1_ne_nil (c : α) (s : List α) : splitOn1 c s ≠ [] := by
  rw [splitOn1_eq_splitOn]
  exact List.splitOn_ne_nil c s

theorem splitOn1_cons_of_notMem (c : α) (l r : List α) (h : c ∉ l) :
    splitOn1 c (l ++ c :: r) = l :: splitOn1 c r := by
  rw [splitOn1_eq_splitOn, splitOn1_eq_splitOn, List.splitOn_append_cons_self,
    List.splitOn_eq_singleton h]
  rfl

/-- The pieces between separators and the separators make up the text. -/
theorem splitOn1_join (c : α) (s : List α) : [c].intercalate (splitOn1 c s) = s := by
  rw [splitOn1_eq_splitOn]
  exact List.intercalate_splitOn c

/-- Parts without the separator are what the text joined from them splits into. -/
theorem splitOn1_intercalate (c : α) (parts : List (List α)) (hparts : parts ≠ [])
    (h : ∀ p ∈ parts, c ∉ p) : splitOn1 c ([c].intercalate parts) = parts := by
  rw [splitOn1_eq_splitOn]
  exact List.splitOn_intercalate c h hparts

end

theorem dot_notMem_toDigits (n : Nat) : '.' ∉ Nat.toDigits 10 n := fun h =>
  absurd (Nat.isDigit_of_mem_toDigits (by omega) (by omega) h) (by decide)

theorem toDigits_injective : Function.Injective (Nat.toDigits 10) := by
  intro m n h
  have hm : Nat.ofDigitChars 10 (Nat.toDigits 10 m) 0 = m := Nat.ofDigitChars_ten_toDigits
  rw [← hm, h]
  exact Nat.ofDigitChars_ten_toDigits

/-- A number after the last separator is read back. -/
theorem append_toDigits_inj {c : Char} (hc : c.isDigit = false) {s t : Text} {m n : Nat}
    (h : s ++ c :: Nat.toDigits 10 m = t ++ c :: Nat.toDigits 10 n) : s = t ∧ m = n := by
  have hnot : ∀ n, c ∉ (Nat.toDigits 10 n).reverse := by
    intro n hin
    have hdigit := Nat.isDigit_of_mem_toDigits (by omega) (by omega) (List.mem_reverse.mp hin)
    rw [hc] at hdigit
    cases hdigit
  have hparts : ∀ (s : Text) (n : Nat), partition (s ++ c :: Nat.toDigits 10 n).reverse [c] =
      ((Nat.toDigits 10 n).reverse, [c], s.reverse) := by
    intro s n
    rw [List.reverse_append, List.reverse_cons, List.append_assoc]
    exact partition_of_notMem c _ _ (hnot n)
  have hboth := hparts s m
  rw [h, hparts t n] at hboth
  obtain ⟨hdigits, hrest⟩ := Prod.mk.inj hboth.symm
  exact ⟨List.reverse_injective (Prod.mk.inj hrest).2,
    toDigits_injective (List.reverse_injective hdigits)⟩

/-- The first of the lines of a text that ends with a line feed, and the rest of the text. -/
theorem splitlinesAux_line_join (s : Text) (cur l : Text) (ls : List Text)
    (hr : '\r' ∉ s) (hend : s.getLast? = some '\n') (h : splitlinesAux cur s = l :: ls) :
    ∃ c rest, isLineBreak c = true ∧ cur.reverse ++ s = l ++ c :: rest ∧ splitlines rest = ls ∧
      '\r' ∉ rest ∧ (c :: rest).getLast? = some '\n' := by
  induction s generalizing cur with
  | nil => cases hend
  | cons c s ih =>
    rw [List.mem_cons, not_or] at hr
    rw [splitlinesAux_cons cur c s fun _ hc _ => hr.1 hc.symm] at h
    split at h
    · next hbreak =>
      cases h
      exact ⟨c, s, hbreak, rfl, rfl, hr.2, hend⟩
    · next hbreak =>
      have hs : s ≠ [] := by
        rintro rfl
        cases hend
        exact hbreak (by decide)
      rw [List.getLast?_cons_of_ne_nil hs] at hend
      obtain ⟨d, rest, hd, heq, hrest⟩ := ih (c :: cur) hr.2 hend h
      refine ⟨d, rest, hd, ?_, hrest⟩
      rw [← heq, List.reverse_cons, List.append_assoc]
      rfl

theorem splitlines_eq_nil (s : Text) (h : splitlines s = []) : s = [] := by
  have hne : ∀ s cur : Text, cur ≠ [] → splitlinesAux cur s ≠ [] := by
    intro s cur hcur
    fun_induction splitlinesAux cur s with
    | case1 => exact absurd rfl hcur
    | case2 => simp
    | case3 => simp
    | case4 => simp
    | case5 cur c s _ _ ih => exact ih (by simp)
  unfold splitlines at h
  fun_cases splitlinesAux [] s with
  | case1 => rfl
  | case2 => rename_i hcur; exact absurd rfl hcur
  | case3 s => cases h
  | case4 c s hcrlf hbreak =>
    rw [splitlinesAux_cons [] c s hcrlf, if_pos hbreak] at h
    cases h
  | case5 c s hcrlf hbreak =>
    rw [splitlinesAux_cons [] c s hcrlf, if_neg hbreak] at h
    exact absurd h (hne s [c] (by simp))

end Py
