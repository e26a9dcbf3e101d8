/-
HyperCors.Lib.Decimal — natural numbers as strings of decimal digits.

`write` is the shortest numeral of a number, in ASCII, and `read` the
value of a string that is a numeral. `read_write` is the round trip, and
`head_write_ne` says that only zero is written with a leading zero.
-/
import Mathlib.Data.Nat.Basic

namespace Decimal

/-- The ASCII digits. -/
def isDigit (b : UInt8) : Bool := 48 ≤ b && b ≤ 57

/-- The value of one digit or more, read from the left. -/
def read (s : List UInt8) : Option Nat :=
  if !s.isEmpty && s.all isDigit then some (s.foldl (fun n b => 10 * n + (b.toNat - 48)) 0)
  else none

/-- The numeral of a number. -/
def write (n : Nat) : List UInt8 := (Nat.toDigits 10 n).map Char.toUInt8

theorem toNat_toUInt8 {c : Char} (h : c.isDigit = true) : c.toUInt8.toNat = c.toNat := by
  have hle : c.toNat ≤ 57 := by
    simp only [Char.isDigit, Bool.and_eq_true, decide_eq_true_eq] at h
    exact h.2
  have hval : c.toUInt8.toNat = c.toNat % 256 := rfl
  omega

theorem isDigit_toUInt8 {c : Char} (h : c.isDigit = true) : isDigit c.toUInt8 = true := by
  have hval := toNat_toUInt8 h
  simp only [Char.isDigit, Bool.and_eq_true, decide_eq_true_eq] at h
  have hlow : 48 ≤ c.toNat := h.1
  have hhigh : c.toNat ≤ 57 := h.2
  simp only [isDigit, Bool.and_eq_true, decide_eq_true_eq, UInt8.le_iff_toNat_le, hval]
  exact ⟨hlow, hhigh⟩

theorem all_isDigit_write (n : Nat) : (write n).all isDigit = true := by
  rw [List.all_eq_true]
  intro b hb
  obtain ⟨c, hc, rfl⟩ := List.mem_map.mp hb
  exact isDigit_toUInt8 (Nat.isDigit_of_mem_toDigits (by decide) (by decide) hc)

theorem write_ne_nil (n : Nat) : write n ≠ [] := by
  simp [write]

/-- Reading bytes is reading characters. -/
theorem foldl_map_toUInt8 {l : List Char} (h : ∀ c ∈ l, c.isDigit = true) (n : Nat) :
    (l.map Char.toUInt8).foldl (fun n b => 10 * n + (b.toNat - 48)) n =
      Nat.ofDigitChars 10 l n := by
  induction l generalizing n with
  | nil => simp
  | cons c l ih =>
    rw [List.map_cons, List.foldl_cons, Nat.ofDigitChars_cons,
      ih fun c hc => h c (List.mem_cons_of_mem _ hc), toNat_toUInt8 (h c List.mem_cons_self)]
    rfl

/-- What is written is read back. -/
theorem read_write (n : Nat) : read (write n) = some n := by
  have hdigits : ∀ c ∈ Nat.toDigits 10 n, c.isDigit = true := by
    intro c hc
    exact Nat.isDigit_of_mem_toDigits (by decide) (by decide) hc
  rw [read, if_pos (by simp [write_ne_nil, all_isDigit_write]), write, foldl_map_toUInt8 hdigits,
    Nat.ofDigitChars_ten_toDigits]

/-- Only zero starts with a zero. -/
theorem head_write_ne {n : Nat} (h : n ≠ 0) : (write n).head? ≠ some 48 := by
  have hchar : (Nat.toDigits 10 n).head? ≠ some '0' := by
    induction n using Nat.strongRecOn with
    | ind n ih =>
      rw [Nat.toDigits_eq_if (by decide)]
      split
      · simpa using h
      · have hpos : n / 10 ≠ 0 := by omega
        have hfront := ih (n / 10) (by omega) hpos
        obtain ⟨c, l, hl⟩ := List.exists_cons_of_ne_nil
          (Nat.toDigits_ne_nil : Nat.toDigits 10 (n / 10) ≠ [])
        rw [hl] at hfront ⊢
        exact hfront
  intro hhead
  rw [write, List.head?_map] at hhead
  obtain ⟨c, hc, hbyte⟩ := Option.map_eq_some_iff.mp hhead
  have hdigit : c.isDigit = true :=
    Nat.isDigit_of_mem_toDigits (by decide) (by decide) (List.mem_of_mem_head? hc)
  have hval := toNat_toUInt8 hdigit
  rw [hbyte] at hval
  exact hchar (hc.trans (congrArg some (Char.toNat_inj.mp hval.symm)))

end Decimal
