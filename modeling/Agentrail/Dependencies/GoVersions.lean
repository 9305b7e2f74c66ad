import Agentrail.Dependencies.Versions
import Agentrail.Py.Lines

/-!
# Versions of a Go proxy list, `go_modules.py`

`stable_go_version` reads the digit class `\d` and `int`, which know the decimal
digits of every script, so a version has as many spellings as its later digits
have scripts.  `asciiDigits` writes each digit in ASCII; a spelling is the
canonical one exactly if it is ASCII, and the rows of a proxy list denote
different versions exactly if they stay different in ASCII
(`stable_versions_canonical_iff`).
-/

namespace Agentrail.GoModules

open Py

def goProxyListMaxVersions : Nat := 20000

/-- The loop of `validate_go_proxy_versions`. -/
def proxyRows (modulePath : PyObject) (seen parsed : List Text) :
    List PyObject → Except PyError (List Text)
  | [] => .ok parsed
  | version :: rows =>
    match validateGoModuleVersion modulePath version, version with
    | some error, _ =>
      .error (.valueError ("Go proxy list contains an unsupported release: " ++ error))
    | none, .str text =>
      if text ∈ seen then
        .error (.valueError ("Go proxy list contains duplicate release row " ++ String.ofList text))
      else proxyRows modulePath (text :: seen) (parsed ++ [text]) rows
    -- the `assert`: only a text is a valid version
    | none, _ => .error (.runtimeError "AssertionError")

def validateGoProxyVersions (modulePath versions : PyObject) : Except PyError (List Text) :=
  match validateGoModulePath modulePath with
  | some error => .error (.valueError error)
  | none =>
    match versions with
    | .list rows | .tuple rows =>
      if rows.isEmpty then .error (.valueError "Go proxy list has no release rows")
      else if rows.length > goProxyListMaxVersions then
        .error (.valueError "Go proxy list exceeds the release-row limit")
      else proxyRows modulePath [] [] rows
    | _ => .error (.valueError "Go proxy list rows must be a bounded sequence")

/-! ## Digits of other scripts -/

/-- The text with every decimal digit written in ASCII. -/
def asciiDigits (s : Text) : Text :=
  s.map fun c => ((decimalValue c).map Nat.digitChar).getD c

/-- The canonical spelling of a version. -/
def renderVersion (a b c : Nat) : Text :=
  'v' :: (Nat.toDigits 10 a ++ '.' :: (Nat.toDigits 10 b ++ '.' :: Nat.toDigits 10 c))

theorem decimalValue_lt (c : Char) (d : Nat) (h : decimalValue c = some d) : d < 10 := by
  obtain ⟨z, hz, rfl⟩ := Option.map_eq_some_iff.mp h
  have hrange := List.find?_some hz
  simp only [Bool.and_eq_true, decide_eq_true_eq] at hrange
  omega

theorem digitChar_isDigit (d : Nat) (h : d < 10) : (Nat.digitChar d).isDigit = true := by
  have hall : ∀ d : Fin 10, (Nat.digitChar d).isDigit = true := by decide
  exact hall ⟨d, h⟩

/-- The only decimal digits of ASCII are the ASCII digits. -/
theorem isDigit_of_ascii (c : Char) (d : Nat) (h : decimalValue c = some d) (hc : c.toNat < 128) :
    c.isDigit = true := by
  obtain ⟨z, hz, -⟩ := Option.map_eq_some_iff.mp h
  have hrange := List.find?_some hz
  have hmem := List.mem_of_find?_eq_some hz
  simp only [Bool.and_eq_true, decide_eq_true_eq] at hrange
  have hall : ∀ z ∈ decimalZeros, z = 48 ∨ 128 ≤ z := by decide
  have h0 : '0'.toNat = 48 := rfl
  have h9 : '9'.toNat = 57 := rfl
  exact Char.isDigit_iff_toNat.mpr (by have := hall z hmem; omega)

theorem asciiDigit_eq_self (c : Char) (h : c.toNat < 128) :
    ((decimalValue c).map Nat.digitChar).getD c = c := by
  cases hv : decimalValue c with
  | none => rfl
  | some d =>
    have hdigit := isDigit_of_ascii c d hv h
    rw [decimalValue_of_isDigit c hdigit] at hv
    cases hv
    exact digitChar_isDigit_value c hdigit

theorem asciiDigit_ascii (c : Char) (h : ((decimalValue c).map Nat.digitChar).getD c = c)
    (hd : isDecimal c = true) : c.toNat < 128 := by
  obtain ⟨d, hv⟩ := Option.isSome_iff_exists.mp hd
  rw [hv] at h
  have hdigit := digitChar_isDigit d (decimalValue_lt c d hv)
  have hc : Nat.digitChar d = c := h
  rw [hc] at hdigit
  have hrange := Char.isDigit_iff_toNat.mp hdigit
  have h9 : '9'.toNat = 57 := rfl
  omega

theorem asciiDigits_append (s t : Text) : asciiDigits (s ++ t) = asciiDigits s ++ asciiDigits t :=
  List.map_append

/-! ## Numerals -/

/-- `int` reads the digits that `asciiDigits` writes. -/
theorem intOfDecimal_asciiDigits (s : Text) (h : ∀ c ∈ s, isDecimal c = true) :
    intOfDecimal s = Nat.ofDigitChars 10 (asciiDigits s) 0 := by
  have hfold : ∀ n, s.foldl (fun n c => 10 * n + (decimalValue c).getD 0) n =
      Nat.ofDigitChars 10 (asciiDigits s) n := by
    induction s with
    | nil => exact fun n => rfl
    | cons c s ih =>
      intro n
      obtain ⟨d, hv⟩ := Option.isSome_iff_exists.mp (h c List.mem_cons_self)
      have hcons : asciiDigits (c :: s) = Nat.digitChar d :: asciiDigits s := by
        show ((decimalValue c).map Nat.digitChar).getD c :: _ = _
        rw [hv]
        rfl
      rw [List.foldl_cons, ih (fun x hx => h x (List.mem_cons_of_mem c hx)), hcons,
        Nat.ofDigitChars_cons_digitChar_of_lt_ten (decimalValue_lt c d hv), hv]
      rfl
  exact hfold 0

theorem asciiDigits_numeral (s : Text) (h : isCanonicalNumeral s = true) :
    asciiDigits s = Nat.toDigits 10 (intOfDecimal s) := by
  have hdecimal := Versions.isDecimal_of_numeral h
  rw [intOfDecimal_asciiDigits s hdecimal]
  have hdigits : ∀ x ∈ asciiDigits s, x.isDigit = true := by
    intro x hx
    obtain ⟨c, hc, rfl⟩ := List.mem_map.mp hx
    obtain ⟨d, hv⟩ := Option.isSome_iff_exists.mp (hdecimal c hc)
    rw [hv]
    exact digitChar_isDigit d (decimalValue_lt c d hv)
  fun_cases isCanonicalNumeral s with
  | case1 => cases h
  | case2 => decide
  | case3 c s hne =>
    rw [isCanonicalNumeral] at h
    · simp only [Bool.and_eq_true, decide_eq_true_eq] at h
      have h1 : 49 ≤ c.toNat := h.1.1
      have h9 : c.toNat ≤ 57 := h.1.2
      have hhead : (asciiDigits (c :: s)).head? ≠ some '0' := by
        intro hzero
        have hc := asciiDigit_eq_self c (by omega)
        have hc0 : ((decimalValue c).map Nat.digitChar).getD c = '0' := Option.some.inj hzero
        rw [hc] at hc0
        subst hc0
        exact absurd h1 (by decide)
      exact (toDigits_ofDigitChars _ hdigits (by simp [asciiDigits]) hhead).2.symm
    · exact hne

/-! ## Versions -/

theorem stableGoVersion_parts (s : Text) (a b c : Nat)
    (h : stableGoVersion (.str s) = some (a, b, c)) :
    ∃ x y z, s = 'v' :: (x ++ '.' :: (y ++ '.' :: z)) ∧ isCanonicalNumeral x = true ∧
      isCanonicalNumeral y = true ∧ isCanonicalNumeral z = true ∧
      a = intOfDecimal x ∧ b = intOfDecimal y ∧ c = intOfDecimal z := by
  simp only [stableGoVersion] at h
  split at h
  · next x y z hgroups =>
    split at h
    · cases h
    · cases h
      unfold stableVersionGroups at hgroups
      split at hgroups
      · next t =>
        split at hgroups
        · next x' y' z' hsplit =>
          split at hgroups
          · next hnumerals =>
            cases hgroups
            simp only [Bool.and_eq_true] at hnumerals
            have hjoin := splitOn1_join '.' t
            rw [hsplit, List.intercalate_cons_cons, List.intercalate_cons_cons,
              List.intercalate_singleton] at hjoin
            refine ⟨x, y, z, ?_, hnumerals.1.1, hnumerals.1.2, hnumerals.2, rfl, rfl, rfl⟩
            rw [← hjoin]
            simp
          · cases hgroups
        · cases hgroups
      · cases hgroups
  · cases h

/-- In ASCII every accepted version is spelled canonically. -/
theorem asciiDigits_version (s : Text) (a b c : Nat)
    (h : stableGoVersion (.str s) = some (a, b, c)) : asciiDigits s = renderVersion a b c := by
  obtain ⟨x, y, z, rfl, hx, hy, hz, rfl, rfl, rfl⟩ := stableGoVersion_parts s a b c h
  have hv : ∀ t, asciiDigits ('v' :: t) = 'v' :: asciiDigits t := fun t => rfl
  have hdot : ∀ t, asciiDigits ('.' :: t) = '.' :: asciiDigits t := fun t => rfl
  unfold renderVersion
  rw [hv, asciiDigits_append, hdot, asciiDigits_append, hdot, asciiDigits_numeral x hx,
    asciiDigits_numeral y hy, asciiDigits_numeral z hz]

theorem asciiDigits_eq_self (s : Text) (h : isAscii s = true) : asciiDigits s = s := by
  have hself : ∀ c ∈ s, ((decimalValue c).map Nat.digitChar).getD c = c := fun c hc =>
    asciiDigit_eq_self c (by simpa using List.all_eq_true.mp h c hc)
  unfold asciiDigits
  rw [List.map_congr_left hself, List.map_id']

/-- A version that is its ASCII spelling is ASCII: what is no digit of it is `v` or a dot. -/
theorem isAscii_of_asciiDigits (s : Text) (a b c : Nat)
    (h : stableGoVersion (.str s) = some (a, b, c)) (hself : asciiDigits s = s) :
    isAscii s = true := by
  obtain ⟨x, y, z, hs, hx, hy, hz, -⟩ := stableGoVersion_parts s a b c h
  refine List.all_eq_true.mpr fun d hd => ?_
  have hd' : ((decimalValue d).map Nat.digitChar).getD d = d := by
    have hmap : s.map (fun c => ((decimalValue c).map Nat.digitChar).getD c) = s.map id := by
      rw [List.map_id]
      exact hself
    exact List.map_inj_left.mp hmap d hd
  simp only [decide_eq_true_eq]
  have hpart : ∀ t, isCanonicalNumeral t = true → d ∈ t → d.toNat < 128 := fun t ht hdt =>
    asciiDigit_ascii d hd' (Versions.isDecimal_of_numeral ht d hdt)
  rw [hs] at hd
  simp only [List.mem_cons, List.mem_append] at hd
  rcases hd with rfl | hd | rfl | hd | rfl | hd
  · decide
  · exact hpart x hx hd
  · decide
  · exact hpart y hy hd
  · decide
  · exact hpart z hz hd

theorem renderVersion_injective (a b c a' b' c' : Nat)
    (h : renderVersion a b c = renderVersion a' b' c') : a = a' ∧ b = b' ∧ c = c' := by
  have hsplit : ∀ a b c, splitOn1 '.' (renderVersion a b c).tail =
      [Nat.toDigits 10 a, Nat.toDigits 10 b, Nat.toDigits 10 c] := fun a b c => by
    show splitOn1 '.' (Nat.toDigits 10 a ++ '.' :: (Nat.toDigits 10 b ++ '.' ::
      Nat.toDigits 10 c)) = _
    rw [splitOn1_cons_of_notMem _ _ _ (dot_notMem_toDigits a),
      splitOn1_cons_of_notMem _ _ _ (dot_notMem_toDigits b),
      splitOn1_of_notMem _ _ (dot_notMem_toDigits c)]
  have hparts := hsplit a b c
  rw [h, hsplit a' b' c'] at hparts
  simp only [List.cons.injEq, and_true] at hparts
  exact ⟨toDigits_injective hparts.1.symm, toDigits_injective hparts.2.1.symm,
    toDigits_injective hparts.2.2.symm⟩

theorem stableGoVersion_eq_iff (s t : Text) (v w : Nat × Nat × Nat)
    (hs : stableGoVersion (.str s) = some v) (ht : stableGoVersion (.str t) = some w) :
    v = w ↔ asciiDigits s = asciiDigits t := by
  obtain ⟨a, b, c⟩ := v
  obtain ⟨a', b', c'⟩ := w
  rw [asciiDigits_version s a b c hs, asciiDigits_version t a' b' c' ht]
  constructor
  · intro h
    cases h
    rfl
  · intro h
    obtain ⟨rfl, rfl, rfl⟩ := renderVersion_injective _ _ _ _ _ _ h
    rfl

/-! ## Proxy lists -/

theorem validateGoModuleVersion_stable (modulePath version : PyObject)
    (h : validateGoModuleVersion modulePath version = none) :
    ∃ v, stableGoVersion version = some v := by
  unfold validateGoModuleVersion at h
  split at h
  · cases h
  · split at h
    · next hv _ => exact ⟨_, hv⟩
    · cases h

/-- The rows that come back are the rows of the list, each a stable version. -/
theorem proxyRows_ok (modulePath : PyObject) (rows : List PyObject)
    (seen parsed versions : List Text) (h : proxyRows modulePath seen parsed rows = .ok versions) :
    ∃ texts, versions = parsed ++ texts ∧ rows = texts.map .str ∧
      ∀ text ∈ texts, ∃ v, stableGoVersion (.str text) = some v := by
  induction rows generalizing seen parsed with
  | nil =>
    cases h
    exact ⟨[], by simp, rfl, by simp⟩
  | cons version rows ih =>
    unfold proxyRows at h
    split at h
    · cases h
    · next text hvalid =>
      split at h
      · cases h
      · obtain ⟨texts, rfl, rfl, hstable⟩ := ih _ _ h
        refine ⟨text :: texts, by simp, rfl, ?_⟩
        intro t ht
        rcases List.mem_cons.mp ht with rfl | ht
        · exact validateGoModuleVersion_stable modulePath _ hvalid
        · exact hstable t ht
    · cases h

theorem validateGoProxyVersions_ok (modulePath versions : PyObject) (accepted : List Text)
    (h : validateGoProxyVersions modulePath versions = .ok accepted) :
    (versions = .list (accepted.map .str) ∨ versions = .tuple (accepted.map .str)) ∧
      ∀ text ∈ accepted, ∃ v, stableGoVersion (.str text) = some v := by
  unfold validateGoProxyVersions at h
  split at h
  · cases h
  · split at h
    · simp only [ite_error_eq_ok] at h
      obtain ⟨texts, rfl, rfl, hstable⟩ := proxyRows_ok _ _ _ _ _ h.2.2
      exact ⟨Or.inl rfl, hstable⟩
    · simp only [ite_error_eq_ok] at h
      obtain ⟨texts, rfl, rfl, hstable⟩ := proxyRows_ok _ _ _ _ _ h.2.2
      exact ⟨Or.inr rfl, hstable⟩
    · cases h

/-- Different rows of the list denote different versions. -/
def DistinctVersions (rows : List Text) : Prop :=
  ∀ s ∈ rows, ∀ t ∈ rows, s ≠ t → stableGoVersion (.str s) ≠ stableGoVersion (.str t)

/-- **When accepted versions are canonical and distinct.**  An accepted version is spelled
canonically exactly if it is ASCII, and the rows of an accepted proxy list denote different
versions exactly if no two of them differ only in the script of their digits. -/
theorem stable_versions_canonical_iff (s : Text) (modulePath versions : PyObject)
    (accepted : List Text) :
    (∀ a b c, stableGoVersion (.str s) = some (a, b, c) →
      (s = renderVersion a b c ↔ isAscii s = true)) ∧
    (validateGoProxyVersions modulePath versions = .ok accepted →
      (versions = .list (accepted.map .str) ∨ versions = .tuple (accepted.map .str)) ∧
      (DistinctVersions accepted ↔
        ∀ s ∈ accepted, ∀ t ∈ accepted, asciiDigits s = asciiDigits t → s = t)) := by
  constructor
  · intro a b c h
    have hrender := asciiDigits_version s a b c h
    constructor
    · intro hs
      exact isAscii_of_asciiDigits s a b c h (hrender.trans hs.symm)
    · intro hascii
      rw [← hrender, asciiDigits_eq_self s hascii]
  · intro h
    obtain ⟨hrows, hstable⟩ := validateGoProxyVersions_ok modulePath versions accepted h
    refine ⟨hrows, ?_, ?_⟩
    · intro hdistinct s hs t ht heq
      obtain ⟨v, hv⟩ := hstable s hs
      obtain ⟨w, hw⟩ := hstable t ht
      by_contra hne
      refine hdistinct s hs t ht hne ?_
      rw [hv, hw, (stableGoVersion_eq_iff s t v w hv hw).mpr heq]
    · intro hascii s hs t ht hne heq
      obtain ⟨v, hv⟩ := hstable s hs
      obtain ⟨w, hw⟩ := hstable t ht
      rw [hv, hw] at heq
      exact hne (hascii s hs t ht ((stableGoVersion_eq_iff s t v w hv hw).mp (Option.some.inj heq)))

/-- ARABIC-INDIC DIGIT THREE -/
def arabicThree : Char := Char.ofNat 0x663

def sampleVersion (digit : Char) : Text := ['v', '1', '.', '1', digit, '.', '0']

/-- An accepted version is not canonical, and the list with both its spellings is accepted. -/
theorem stable_version_two_spellings :
    stableGoVersion (.str (sampleVersion arabicThree)) = some (1, 13, 0) ∧
    sampleVersion arabicThree ≠ renderVersion 1 13 0 ∧
    validateGoProxyVersions (.str "g.co/a".toList)
      (.list [.str (sampleVersion '3'), .str (sampleVersion arabicThree)]) =
      .ok [sampleVersion '3', sampleVersion arabicThree] ∧
    ¬ DistinctVersions [sampleVersion '3', sampleVersion arabicThree] := by
  have h3 : stableGoVersion (.str (sampleVersion '3')) = some (1, 13, 0) := by decide
  have harabic : stableGoVersion (.str (sampleVersion arabicThree)) = some (1, 13, 0) := by decide
  refine ⟨harabic, by decide, by decide +kernel, fun hdistinct => ?_⟩
  exact hdistinct _ (by simp) (sampleVersion arabicThree) (by simp) (by decide)
    (h3.trans harabic.symm)

/-- An ASCII version is the canonical spelling of its numbers. -/
theorem stable_versions_canonical_sample :
    sampleVersion '3' = renderVersion 1 13 0 ↔ isAscii (sampleVersion '3') = true :=
  (stable_versions_canonical_iff (sampleVersion '3') .other .other []).1 1 13 0 (by decide)

end Agentrail.GoModules
