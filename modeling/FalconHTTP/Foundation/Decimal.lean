import Mathlib.Data.List.TakeWhile
import Mathlib.Data.Nat.Notation

/-!
# Decimal numerals as byte strings

`decimal n` is the shortest decimal numeral of `n` in ASCII digits. `readDecimal? bound text` reads
the longest run of digits at the start of `text` as a number below `bound` and returns the number
with the text after the run; it fails when there is no digit, or when the number does not fit. The
two are the printing and the reading of unsigned machine integers, with `bound = 2 ^ width`.

The round trip is `readDecimal?_decimal`: a printed number reads back, up to the first byte after it
that is not a digit.
-/

namespace Decimal

/-- An ASCII digit. -/
def isDigit (c : UInt8) : Bool :=
  48 ≤ c.toNat && c.toNat ≤ 57

/-- The number a run of digits denotes, most significant digit first. -/
def value (digits : List UInt8) : ℕ :=
  digits.foldl (fun acc d ↦ 10 * acc + (d.toNat - 48)) 0

/-- The decimal numeral of a number. -/
def decimal (n : ℕ) : List UInt8 :=
  (Nat.toDigits 10 n).map fun c ↦ UInt8.ofNat c.toNat

/-- Read the longest run of digits at the start of the text as a number below `bound`. -/
def readDecimal? (bound : ℕ) (text : List UInt8) : Option (ℕ × List UInt8) :=
  let digits := text.takeWhile isDigit
  if digits = [] ∨ bound ≤ value digits then none
  else some (value digits, text.dropWhile isDigit)

/-- The characters of a numeral are ASCII digits. -/
private theorem toNat_of_isDigit {c : Char} (h : c.isDigit) : 48 ≤ c.toNat ∧ c.toNat ≤ 57 := by
  rw [Char.isDigit, Bool.and_eq_true, decide_eq_true_eq, decide_eq_true_eq] at h
  exact ⟨UInt32.le_iff_toNat_le.1 h.1, UInt32.le_iff_toNat_le.1 h.2⟩

/-- An ASCII character keeps its code as a byte. -/
private theorem toNat_ofNat_toNat {c : Char} (h : c.toNat ≤ 57) :
    (UInt8.ofNat c.toNat).toNat = c.toNat := by
  rw [UInt8.toNat_ofNat']
  omega

theorem decimal_ne_nil (n : ℕ) : decimal n ≠ [] := by
  rw [decimal, ne_eq, List.map_eq_nil_iff]
  exact Nat.toDigits_ne_nil

/-- A numeral consists of digits. -/
theorem isDigit_of_mem_decimal {n : ℕ} {c : UInt8} (hc : c ∈ decimal n) : isDigit c = true := by
  obtain ⟨d, hd, rfl⟩ := List.mem_map.1 hc
  obtain ⟨hlow, hhigh⟩ := toNat_of_isDigit (Nat.isDigit_of_mem_toDigits (by omega) (by omega) hd)
  simp [isDigit, toNat_ofNat_toNat hhigh, hlow, hhigh]

theorem notMem_decimal {n : ℕ} {c : UInt8} (hc : isDigit c = false) : c ∉ decimal n :=
  fun hmem ↦ absurd (isDigit_of_mem_decimal hmem) (by simp [hc])

/-- **A numeral denotes its number.** -/
theorem value_decimal (n : ℕ) : value (decimal n) = n := by
  have hfold : ∀ (cs : List Char) (acc : ℕ), (∀ c ∈ cs, c.isDigit) →
      (cs.map fun c ↦ UInt8.ofNat c.toNat).foldl (fun acc d ↦ 10 * acc + (d.toNat - 48)) acc =
        Nat.ofDigitChars 10 cs acc := by
    intro cs
    induction cs with
    | nil => exact fun acc _ ↦ Nat.ofDigitChars_nil.symm
    | cons c cs ih =>
      intro acc hcs
      have hc := (toNat_of_isDigit (hcs c (by simp))).2
      rw [List.map_cons, List.foldl_cons, toNat_ofNat_toNat hc, Nat.ofDigitChars_cons,
        ih _ fun d hd ↦ hcs d (by simp [hd])]
      rfl
  rw [value, decimal, hfold _ _ fun c hc ↦ Nat.isDigit_of_mem_toDigits (by omega) (by omega) hc]
  exact Nat.ofDigitChars_ten_toDigits

/-- **Round trip**: a printed number below the bound reads back, and reading stops at the first byte
that is not a digit. -/
theorem readDecimal?_decimal {bound n : ℕ} {t : List UInt8} (hn : n < bound)
    (ht : ∀ c ∈ t.head?, isDigit c = false) :
    readDecimal? bound (decimal n ++ t) = some (n, t) := by
  have hall : ∀ c ∈ decimal n, isDigit c = true := fun c hc ↦ isDigit_of_mem_decimal hc
  have htake : t.takeWhile isDigit = [] := by
    cases t with
    | nil => rfl
    | cons c t => rw [List.takeWhile_cons, ht c rfl]; rfl
  have hdrop : t.dropWhile isDigit = t := by
    cases t with
    | nil => rfl
    | cons c t => rw [List.dropWhile_cons, ht c rfl]; rfl
  rw [readDecimal?, List.takeWhile_append_of_pos hall, List.dropWhile_append_of_pos hall, htake,
    hdrop, List.append_nil, value_decimal]
  exact if_neg (not_or.2 ⟨decimal_ne_nil n, by omega⟩)

/-- The whole of a printed number reads back. -/
theorem readDecimal?_decimal_self {bound n : ℕ} (hn : n < bound) :
    readDecimal? bound (decimal n) = some (n, []) := by
  simpa using readDecimal?_decimal (t := []) hn (by simp)

/-- A text of digits is read whole, when its number is below the bound. -/
theorem readDecimal?_of_forall {bound : ℕ} {text : List UInt8} (hne : text ≠ [])
    (hdigits : ∀ c ∈ text, isDigit c = true) :
    readDecimal? bound text = if bound ≤ value text then none else some (value text, []) := by
  have htake : text.takeWhile isDigit = text := List.takeWhile_eq_self_iff.2 hdigits
  have hdrop : text.dropWhile isDigit = [] := List.dropWhile_eq_nil_iff.2 hdigits
  rw [readDecimal?, htake, hdrop]
  simp only [hne, false_or]

/-- **A text that is read whole** is a numeral of the number that is read. -/
theorem of_readDecimal?_eq_some {bound n : ℕ} {text : List UInt8}
    (h : readDecimal? bound text = some (n, [])) :
    text ≠ [] ∧ (∀ c ∈ text, isDigit c = true) ∧ value text = n := by
  rw [readDecimal?] at h
  split at h
  · exact absurd h (by simp)
  · rename_i hdigits
    obtain ⟨hvalue, hrest⟩ := Prod.mk.inj (Option.some.inj h)
    have hall : text.takeWhile isDigit = text := by
      have := List.takeWhile_append_dropWhile (p := isDigit) (l := text)
      rwa [hrest, List.append_nil] at this
    rw [hall] at hdigits hvalue
    exact ⟨fun hnil ↦ hdigits (Or.inl hnil),
      List.all_eq_true.1 (hall ▸ List.all_takeWhile : text.all isDigit = true), hvalue⟩

end Decimal
