/-
  DECIMAL NUMBERS IN TEXT.

  `decimal n` is the number as `printf` writes it, the high digit first; `readDecimal` reads the
  digits that a text begins with, and `strtoul` is C's function of that name in base 10.  What was
  written reads back, whatever stands behind it that is no digit (`strtoul_decimal`).
-/
import Mathlib.Data.Nat.Digits.Lemmas

namespace Lib

/-- The character of a digit. -/
def digitChar (d : Nat) : Char := Char.ofNat (48 + d)

/-- `%u` -/
def decimal (n : Nat) : List Char :=
  if n = 0 then [digitChar 0] else (Nat.digits 10 n).reverse.map digitChar

/-- The number that a text begins with. -/
def readDecimal (w : List Char) : Nat :=
  (w.takeWhile Char.isDigit).foldl (fun n c => 10 * n + (c.toNat - 48)) 0

/-- `isspace` -/
def isSpace (c : Char) : Bool :=
  c == ' ' || c == '\t' || c == '\n' || c == '\r' || c.toNat == 11 || c.toNat == 12

/-- `strtoul(w, _, 10)`, of an `unsigned long` of 64 bits: blanks, a sign, and digits; a number that
    does not fit is the greatest one. -/
def strtoul (w : List Char) : Nat :=
  match w.dropWhile isSpace with
  | '-' :: w => if 2 ^ 64 ≤ readDecimal w then 2 ^ 64 - 1 else (2 ^ 64 - readDecimal w) % 2 ^ 64
  | '+' :: w => min (readDecimal w) (2 ^ 64 - 1)
  | w => min (readDecimal w) (2 ^ 64 - 1)

theorem digitChar_spec {d : Nat} (hd : d < 10) :
    (digitChar d).isDigit = true ∧ (digitChar d).toNat - 48 = d := by
  interval_cases d <;> decide

/-- The characters of a number are digits. -/
theorem isDigit_decimal {n : Nat} : ∀ c ∈ decimal n, c.isDigit = true := by
  intro c hc
  unfold decimal at hc
  split at hc
  · rw [List.mem_singleton.mp hc]
    decide
  · obtain ⟨d, hd, rfl⟩ := List.mem_map.mp hc
    exact (digitChar_spec (Nat.digits_lt_base (by decide) (List.mem_reverse.mp hd))).1

theorem decimal_ne_nil (n : Nat) : decimal n ≠ [] := by
  unfold decimal
  split
  · exact List.cons_ne_nil _ _
  · rename_i hn
    simpa [Nat.digits_eq_nil_iff_eq_zero] using hn

/-- The value of digits, the high one first. -/
theorem foldl_digits {l : List Nat} (h : ∀ d ∈ l, d < 10) :
    (l.reverse.map digitChar).foldl (fun n c => 10 * n + (c.toNat - 48)) 0
      = Nat.ofDigits 10 l := by
  rw [List.map_reverse, List.foldl_reverse]
  induction l with
  | nil => rfl
  | cons d l ih =>
    have hd := (digitChar_spec (h d List.mem_cons_self)).2
    rw [List.map_cons, List.foldr_cons, ih fun d' hd' => h d' (List.mem_cons_of_mem _ hd'), hd,
      Nat.ofDigits_cons]
    omega

/-- **What was written reads back.** -/
theorem readDecimal_decimal {n : Nat} {rest : List Char}
    (hrest : ∀ c, rest.head? = some c → c.isDigit = false) :
    readDecimal (decimal n ++ rest) = n := by
  have htake : (decimal n ++ rest).takeWhile Char.isDigit = decimal n := by
    rw [List.takeWhile_append_of_pos isDigit_decimal]
    cases rest with
    | nil => simp
    | cons c rest => simp [hrest c rfl]
  unfold readDecimal
  rw [htake]
  unfold decimal
  split
  · rename_i hn
    rw [hn]
    decide
  · rw [foldl_digits fun d hd => Nat.digits_lt_base (by decide) hd, Nat.ofDigits_digits]

/-- **`strtoul` reads it back.** -/
theorem strtoul_decimal {n : Nat} (hn : n < 2 ^ 64) {rest : List Char}
    (hrest : ∀ c, rest.head? = some c → c.isDigit = false) : strtoul (decimal n ++ rest) = n := by
  have hread := readDecimal_decimal (n := n) hrest
  cases hw : decimal n with
  | nil => exact absurd hw (decimal_ne_nil n)
  | cons c w =>
    rw [hw] at hread
    have hdigit : c.isDigit = true := isDigit_decimal c (by rw [hw]; exact List.mem_cons_self)
    have hspace : isSpace c = false := by
      by_contra hc
      simp only [isSpace, Bool.not_eq_false, Bool.or_eq_true, beq_iff_eq] at hc
      simp only [Char.isDigit, Bool.and_eq_true, decide_eq_true_eq, UInt32.le_iff_toNat_le]
        at hdigit
      have hval : c.val.toNat = c.toNat := rfl
      rcases hc with ((((rfl | rfl) | rfl) | rfl) | hc) | hc
      · exact absurd hdigit (by decide)
      · exact absurd hdigit (by decide)
      · exact absurd hdigit (by decide)
      · exact absurd hdigit (by decide)
      · rw [hval, hc] at hdigit
        exact absurd hdigit (by decide)
      · rw [hval, hc] at hdigit
        exact absurd hdigit (by decide)
    unfold strtoul
    rw [List.cons_append, List.dropWhile_cons, if_neg (by rw [hspace]; decide)]
    rw [List.cons_append] at hread
    split
    · rename_i heq
      cases heq
      exact absurd hdigit (by decide)
    · rename_i heq
      cases heq
      exact absurd hdigit (by decide)
    · rw [hread]
      omega

end Lib
