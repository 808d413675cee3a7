import Udpfwd.Text.ParseNumber

/-!
# Numbers as text

What `fmt::format` makes of an unsigned number. The parsers read it back (`decimal_format`,
`parseUInt16_format`).
-/

namespace Text

/-- `{}` of `fmt::format` for an unsigned number. -/
def format (n : ℕ) : Bytes := (Nat.toDigits 10 n).map fun c ↦ c.toNat.toUInt8

section Format

variable {n : ℕ} {c : UInt8}

theorem format_of_lt (h : n < 10) : format n = [(0x30 + n).toUInt8] := by
  rw [format, Nat.toDigits_of_lt_base h, List.map_singleton, Nat.toNat_digitChar_of_lt_ten h]

/-- The last digit is the remainder. -/
theorem format_of_le (h : 10 ≤ n) : format n = format (n / 10) ++ [(0x30 + n % 10).toUInt8] := by
  have hmod : n % 10 < 10 := Nat.mod_lt n (by decide)
  rw [format, Nat.toDigits_of_base_le (by decide) h, List.map_append, List.map_singleton,
    Nat.toNat_digitChar_of_lt_ten hmod, format]

theorem toNat_digit (h : n < 10) : (0x30 + n).toUInt8.toNat = 0x30 + n := by
  show (0x30 + n) % 256 = 0x30 + n
  omega

theorem isdigit_digit (h : n < 10) : isdigit (0x30 + n).toUInt8 = true := by
  rw [isdigit, Bool.and_eq_true, decide_eq_true_eq, decide_eq_true_eq, UInt8.le_iff_toNat_le,
    UInt8.le_iff_toNat_le, toNat_digit h]
  show 48 ≤ 0x30 + n ∧ 0x30 + n ≤ 57
  omega

theorem decimal_concat (s : Bytes) : decimal (s ++ [c]) = 10 * decimal s + (c.toNat - 0x30) := by
  rw [decimal, List.foldl_append]
  rfl

theorem format_ne_nil (n : ℕ) : format n ≠ [] := by
  rcases Nat.lt_or_ge n 10 with h | h
  · rw [format_of_lt h]
    exact List.cons_ne_nil _ _
  · rw [format_of_le h]
    simp

theorem isdigit_of_mem_format (hc : c ∈ format n) : isdigit c = true := by
  induction n using Nat.strongRecOn with
  | _ n ih =>
    rcases Nat.lt_or_ge n 10 with h | h
    · rw [format_of_lt h, List.mem_singleton] at hc
      rw [hc]
      exact isdigit_digit h
    · rw [format_of_le h, List.mem_append, List.mem_singleton] at hc
      rcases hc with hc | rfl
      · exact ih (n / 10) (by omega) hc
      · exact isdigit_digit (Nat.mod_lt n (by decide))

/-- **A number is read back.** -/
theorem decimal_format (n : ℕ) : decimal (format n) = n := by
  induction n using Nat.strongRecOn with
  | _ n ih =>
    rcases Nat.lt_or_ge n 10 with h | h
    · rw [format_of_lt h]
      show 10 * 0 + ((0x30 + n).toUInt8.toNat - 0x30) = n
      rw [toNat_digit h]
      omega
    · rw [format_of_le h, decimal_concat, ih (n / 10) (by omega),
        toNat_digit (Nat.mod_lt n (by decide))]
      omega

/-- **A port is read back**, wherever a NUL follows. -/
theorem parseUInt16_format (port : UInt16) (after : Bytes) :
    parseUInt16 ⟨format port.toNat, 0 :: after⟩ = some port := by
  have hdigits : ∀ c ∈ format port.toNat, isdigit c = true := fun _ ↦ isdigit_of_mem_format
  refine parseUInt16_eq_some_iff.2 (.inr
    ⟨⟨[], .none, format port.toNat, nofun, hdigits, format_ne_nil _⟩, rfl, ?_⟩)
  exact congrArg Nat.cast (decimal_format port.toNat)

end Format

end Text
