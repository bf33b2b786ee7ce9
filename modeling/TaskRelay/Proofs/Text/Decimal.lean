import Mathlib
import TaskRelay.Text.Digits

/-!
# Decimal texts

A decimal text holds digits only, has the value of its number, and begins with a zero only if it is
that of zero. The value of digits after a number that is read already is never less than that number
(`le_ofDigitChars`), so a bound that holds in the end holds all along.
-/

namespace TaskRelay.Text

theorem isDigit_eq (c : Char) : isDigit c = c.isDigit := by
  rw [Bool.eq_iff_iff]
  simp [isDigit, Char.isDigit, UInt32.le_iff_toNat_le]

theorem isDigit_of_mem_decimal {n : Nat} {c : Char} (h : c ∈ decimal n) : isDigit c := by
  rw [isDigit_eq]
  exact Nat.isDigit_of_mem_toDigits (by decide) (by decide) h

theorem ofDigitChars_decimal (n : Nat) : Nat.ofDigitChars 10 (decimal n) 0 = n :=
  Nat.ofDigitChars_toDigits (by decide) (by decide)

theorem ofDigitChars_digit (c : Char) (cs : List Char) (n : Nat) :
    Nat.ofDigitChars 10 (c :: cs) n = Nat.ofDigitChars 10 cs (10 * n + digitValue c) :=
  Nat.ofDigitChars_cons

theorem le_ofDigitChars (cs : List Char) (n : Nat) : n ≤ Nat.ofDigitChars 10 cs n := by
  induction cs generalizing n with
  | nil => exact Nat.le_refl n
  | cons c cs ih =>
    rw [ofDigitChars_digit]
    exact Nat.le_trans (by omega) (ih (10 * n + digitValue c))

theorem decimal_ne_nil (n : Nat) : decimal n ≠ [] := Nat.toDigits_ne_nil

theorem eq_zero_of_decimal {n : Nat} {cs : List Char} (h : decimal n = '0' :: cs) :
    n = 0 ∧ cs = [] := by
  induction n using Nat.strong_induction_on generalizing cs with
  | _ n ih =>
    rw [decimal, Nat.toDigits_eq_if (by decide)] at h
    split at h
    · next hn =>
      obtain ⟨hd, rfl⟩ := List.cons.inj h
      exact ⟨Nat.digitChar_eq_zero.mp hd, rfl⟩
    · next hn =>
      -- the leading digit is that of a smaller number, which is not zero
      obtain ⟨d, ds, hds⟩ := List.exists_cons_of_ne_nil (decimal_ne_nil (n / 10))
      rw [decimal] at hds
      rw [hds, List.cons_append] at h
      obtain ⟨rfl, -⟩ := List.cons.inj h
      have := (ih (n / 10) (by omega) hds).1
      omega

/-- A decimal text by its first digit. -/
theorem exists_decimal_eq (n : Nat) : ∃ c cs, decimal n = c :: cs ∧ isDigit c ∧
    (∀ d ∈ cs, isDigit d) ∧ Nat.ofDigitChars 10 cs (digitValue c) = n ∧
      (c = '0' → n = 0 ∧ cs = []) := by
  obtain ⟨c, cs, h⟩ := List.exists_cons_of_ne_nil (decimal_ne_nil n)
  have hd : ∀ d ∈ c :: cs, isDigit d := fun d hd => isDigit_of_mem_decimal (h ▸ hd)
  have hv := ofDigitChars_decimal n
  rw [h, ofDigitChars_digit, Nat.mul_zero, Nat.zero_add] at hv
  refine ⟨c, cs, h, hd c (List.mem_cons_self ..), fun d hm => hd d (List.mem_cons_of_mem _ hm), hv,
    ?_⟩
  rintro rfl
  exact eq_zero_of_decimal h

end TaskRelay.Text
