import Mathlib.Data.Int.Order.Basic
import Mathlib.Data.List.TakeWhile
import Mathlib.Data.UInt

/-!
# Decimal numbers in text

The parsers of `support/text/ParseNumber.cc` and the `strtol` that they call. A string view is
the characters in it together with what follows them in memory, because `strtol` is given the
start of the view only and reads on until a character stops it.

* `Numeral` — blanks, a sign and digits, the texts that `strtol` reads;
* `strtol_cases` — what `strtol` makes of any text;
* `parseInt32_eq_some_iff`, `parseUInt16_eq_some_iff` — the texts that the parsers accept.
-/

namespace Text

/-- The text of a `std::string`, byte by byte. -/
abbrev Bytes := List UInt8

/-! ### Characters -/

/-- `isspace`, in the C locale. -/
def isspace (c : UInt8) : Bool := c == 0x20 || (0x09 ≤ c && c ≤ 0x0D)

/-- `isdigit`. -/
def isdigit (c : UInt8) : Bool := 0x30 ≤ c && c ≤ 0x39

/-- The number that a string of digits denotes. -/
def decimal (digits : Bytes) : ℕ := digits.foldl (fun n c ↦ 10 * n + (c.toNat - 0x30)) 0

/-- The sign that a number may start with. -/
inductive Sign
  | none
  | plus
  | minus
  deriving DecidableEq, Repr

namespace Sign

/-- A sign as text. -/
def text : Sign → Bytes
  | none => []
  | plus => [0x2B]
  | minus => [0x2D]

/-- The sign at the start of a text. -/
def read : Bytes → Sign
  | 0x2B :: _ => plus
  | 0x2D :: _ => minus
  | _ => none

/-- The number with a sign and a magnitude. -/
def apply : Sign → ℕ → ℤ
  | minus, n => -n
  | _, n => n

end Sign

/-! ### `strtol` -/

/-- `LONG_MIN`. -/
def longMin : ℤ := -2 ^ 63

/-- `LONG_MAX`. -/
def longMax : ℤ := 2 ^ 63 - 1

/-- A number that a `long` cannot represent becomes the nearest limit. -/
def clampLong (v : ℤ) : ℤ := max longMin (min longMax v)

/-- `strtol` in base 10: the value, and how many characters have been read. It reads none if
there are no digits after the blanks and the sign. -/
def strtol (s : Bytes) : ℤ × ℕ :=
  let blanks := s.takeWhile isspace
  let sign := Sign.read (s.dropWhile isspace)
  let digits := ((s.dropWhile isspace).drop sign.text.length).takeWhile isdigit
  if digits = [] then (0, 0)
  else (clampLong (sign.apply (decimal digits)),
    blanks.length + sign.text.length + digits.length)

/-- What `strtol` and its siblings have in common: they convert the sign and the digits, in
their own ways. -/
def strto {α : Type} [Zero α] (convert : Sign → ℕ → α) (s : Bytes) : α × ℕ :=
  let blanks := s.takeWhile isspace
  let sign := Sign.read (s.dropWhile isspace)
  let digits := ((s.dropWhile isspace).drop sign.text.length).takeWhile isdigit
  if digits = [] then (0, 0)
  else (convert sign (decimal digits), blanks.length + sign.text.length + digits.length)

theorem strtol_eq_strto (s : Bytes) :
    strtol s = strto (fun sign magnitude ↦ clampLong (sign.apply magnitude)) s := rfl

/-! ### The parsers -/

/-- A `std::string_view`: its characters, and the memory after them. -/
structure StringView where
  chars : Bytes
  after : Bytes

/-- The view of a `std::string`, which a NUL follows. -/
def StringView.ofString (s : Bytes) : StringView := ⟨s, [0]⟩

/-- `std::numeric_limits<int32_t>::min()`. -/
def int32Min : ℤ := -2 ^ 31

/-- `std::numeric_limits<int32_t>::max()`. -/
def int32Max : ℤ := 2 ^ 31 - 1

/-- `ParseInt32`: the value that is stored, if the result is `true`. -/
def parseInt32 (str : StringView) : Option ℤ :=
  let (result, stop) := strtol (str.chars ++ str.after)
  if stop = str.chars.length then
    if result < int32Min ∨ result > int32Max then none else some result
  else none

/-- `ParseUInt16`. -/
def parseUInt16 (str : StringView) : Option UInt16 :=
  match parseInt32 str with
  | none => none
  | some result => if result < 0 ∨ result > 65535 then none else some (.ofNat result.toNat)

/-! ### Numerals -/

/-- The texts that `strtol` reads: blanks, a sign and digits. -/
structure Numeral where
  blanks : Bytes
  sign : Sign
  digits : Bytes
  isspace_blanks : ∀ c ∈ blanks, isspace c = true
  isdigit_digits : ∀ c ∈ digits, isdigit c = true
  digits_ne_nil : digits ≠ []

namespace Numeral

/-- A numeral as text. -/
def text (n : Numeral) : Bytes := n.blanks ++ (n.sign.text ++ n.digits)

/-- The number that a numeral denotes. -/
def value (n : Numeral) : ℤ := n.sign.apply (decimal n.digits)

end Numeral

section Strtol

variable {s t rest : Bytes} {c : UInt8}

theorem isspace_eq_false_of_isdigit (h : isdigit c = true) : isspace c = false := by
  simp only [isdigit, isspace, Bool.and_eq_true, decide_eq_true_eq, UInt8.le_iff_toNat_le,
    Bool.or_eq_false_iff, beq_eq_false_iff_ne, ne_eq, Bool.and_eq_false_iff,
    decide_eq_false_iff_not, ← UInt8.toNat_inj] at h ⊢
  simp only [UInt8.reduceToNat] at h ⊢
  omega

/-- The longest part with a property ends where it ends. -/
theorem takeWhile_append_eq {p : UInt8 → Bool} (hs : ∀ c ∈ s, p c = true)
    (ht : ∀ c ∈ t.head?, p c = false) : (s ++ t).takeWhile p = s := by
  rw [List.takeWhile_append_of_pos hs]
  rcases t with - | ⟨c, t⟩
  · simp
  · rw [List.takeWhile_cons_of_neg (by simp [ht c rfl]), List.append_nil]

theorem dropWhile_append_eq {p : UInt8 → Bool} (hs : ∀ c ∈ s, p c = true)
    (ht : ∀ c ∈ t.head?, p c = false) : (s ++ t).dropWhile p = t := by
  rw [List.dropWhile_append_of_pos hs]
  rcases t with - | ⟨c, t⟩
  · rfl
  · rw [List.dropWhile_cons_of_neg (by simp [ht c rfl])]

/-- A sign that is read is at the start of the text. -/
theorem Sign.text_read_append (s : Bytes) :
    (Sign.read s).text ++ s.drop (Sign.read s).text.length = s := by
  simp only [Sign.read]
  split <;> rfl

/-- A sign in front of a digit is read. -/
theorem Sign.read_text_append {sign : Sign} (hs : ∀ c ∈ s.head?, isdigit c = true)
    (hne : s ≠ []) : Sign.read (sign.text ++ s) = sign := by
  cases sign with
  | plus => rfl
  | minus => rfl
  | none =>
    obtain ⟨c, s, rfl⟩ := List.exists_cons_of_ne_nil hne
    have hc := hs c rfl
    show Sign.read (c :: s) = _
    simp only [Sign.read]
    split
    · next heq =>
      obtain ⟨rfl, -⟩ := List.cons.inj heq
      cases hc
    · next heq =>
      obtain ⟨rfl, -⟩ := List.cons.inj heq
      cases hc
    · rfl

/-- A text that starts with a sign or a digit does not start with a blank. -/
theorem Sign.isspace_head (sign : Sign) (hs : ∀ c ∈ s.head?, isdigit c = true) :
    ∀ c ∈ (sign.text ++ s).head?, isspace c = false := by
  cases sign with
  | plus => simp [Sign.text, isspace]
  | minus => simp [Sign.text, isspace]
  | none => exact fun c hc ↦ isspace_eq_false_of_isdigit (hs c hc)

section Strto

variable {α : Type} [Zero α] (convert : Sign → ℕ → α)

/-- **A numeral is read** to its end, wherever no further digit follows. -/
theorem strto_text (n : Numeral) (hrest : ∀ c ∈ rest.head?, isdigit c = false) :
    strto convert (n.text ++ rest) = (convert n.sign (decimal n.digits), n.text.length) := by
  have hdigit : ∀ c ∈ (n.digits ++ rest).head?, isdigit c = true := by
    obtain ⟨c, digits, hc⟩ := List.exists_cons_of_ne_nil n.digits_ne_nil
    have hmem : c ∈ n.digits := hc ▸ List.mem_cons_self
    rw [hc]
    rintro c' ⟨⟩
    exact n.isdigit_digits c hmem
  have htext : n.text ++ rest = n.blanks ++ (n.sign.text ++ (n.digits ++ rest)) := by
    simp [Numeral.text]
  have hsign : Sign.read (n.sign.text ++ (n.digits ++ rest)) = n.sign :=
    Sign.read_text_append hdigit (by simp [n.digits_ne_nil])
  have hblanks := takeWhile_append_eq n.isspace_blanks (n.sign.isspace_head hdigit)
  have hafter := dropWhile_append_eq n.isspace_blanks (n.sign.isspace_head hdigit)
  rw [strto, htext, hblanks, hafter, hsign, List.drop_left,
    takeWhile_append_eq n.isdigit_digits hrest, if_neg n.digits_ne_nil]
  simp [Numeral.text, Nat.add_assoc]

/-- **Any text**: a numeral is read, as long as it goes on, or nothing. -/
theorem strto_cases (s : Bytes) :
    strto convert s = (0, 0) ∨ ∃ (n : Numeral) (rest : Bytes), s = n.text ++ rest ∧
      (∀ c ∈ rest.head?, isdigit c = false) ∧
      strto convert s = (convert n.sign (decimal n.digits), n.text.length) := by
  by_cases hdigits : ((s.dropWhile isspace).drop
      (Sign.read (s.dropWhile isspace)).text.length).takeWhile isdigit = []
  · exact .inl (if_pos hdigits)
  · refine .inr ⟨⟨s.takeWhile isspace, Sign.read (s.dropWhile isspace), _,
      fun c hc ↦ List.mem_takeWhile_imp hc, fun c hc ↦ List.mem_takeWhile_imp hc, hdigits⟩,
      ((s.dropWhile isspace).drop
        (Sign.read (s.dropWhile isspace)).text.length).dropWhile isdigit, ?_, fun c hc ↦ ?_, ?_⟩
    · rw [Numeral.text, List.append_assoc, List.append_assoc, List.takeWhile_append_dropWhile,
        Sign.text_read_append, List.takeWhile_append_dropWhile]
    · have hhead := List.head?_dropWhile_not isdigit ((s.dropWhile isspace).drop
        (Sign.read (s.dropWhile isspace)).text.length)
      rwa [Option.mem_def.1 hc] at hhead
    · rw [strto, if_neg hdigits]
      simp [Numeral.text, Nat.add_assoc]

end Strto

/-- **`strtol` reads a numeral** to its end, wherever no further digit follows. -/
theorem strtol_text (n : Numeral) (hrest : ∀ c ∈ rest.head?, isdigit c = false) :
    strtol (n.text ++ rest) = (clampLong n.value, n.text.length) := by
  rw [strtol_eq_strto]
  exact strto_text _ n hrest

/-- **What `strtol` makes of any text**: it reads a numeral, or nothing. -/
theorem strtol_cases (s : Bytes) :
    strtol s = (0, 0) ∨ ∃ (n : Numeral) (rest : Bytes), s = n.text ++ rest ∧
      strtol s = (clampLong n.value, n.text.length) := by
  rw [strtol_eq_strto]
  rcases strto_cases (fun sign magnitude ↦ clampLong (sign.apply magnitude)) s with
    h | ⟨n, rest, hs, -, h⟩
  · exact .inl h
  · exact .inr ⟨n, rest, hs, h⟩

end Strtol

/-! ### What the parsers accept -/

section Parsers

variable {s after : Bytes}

theorem isdigit_head_nul : ∀ c ∈ ((0 :: after : Bytes)).head?, isdigit c = false := by
  rintro c ⟨⟩
  decide

theorem clampLong_eq {v w : ℤ} (hmin : int32Min ≤ w) (hmax : w ≤ int32Max) :
    clampLong v = w ↔ v = w := by
  rw [clampLong, longMin, longMax, int32Min, int32Max] at *
  omega

theorem strtol_nul : strtol (0 :: after) = (0, 0) := rfl

/-- The parser accepts what `strtol` reads to the end of the view, within the range. -/
theorem parseInt32_eq_some_iff_strtol {str : StringView} {v : ℤ} :
    parseInt32 str = some v ↔
      strtol (str.chars ++ str.after) = (v, str.chars.length) ∧ int32Min ≤ v ∧ v ≤ int32Max := by
  rw [parseInt32]
  rcases strtol (str.chars ++ str.after) with ⟨result, stop⟩
  simp only [Option.ite_none_right_eq_some, Option.ite_none_left_eq_some, Option.some.injEq,
    Prod.mk.injEq]
  constructor
  · rintro ⟨rfl, hrange, rfl⟩
    exact ⟨⟨rfl, rfl⟩, by omega⟩
  · rintro ⟨⟨rfl, rfl⟩, hrange⟩
    exact ⟨rfl, by omega, rfl⟩

/-- **`ParseInt32` accepts the empty text, as 0, and the numerals in range.** -/
theorem parseInt32_eq_some_iff {v : ℤ} :
    parseInt32 ⟨s, 0 :: after⟩ = some v ↔
      (s = [] ∧ v = 0) ∨
        ∃ n : Numeral, s = n.text ∧ n.value = v ∧ int32Min ≤ v ∧ v ≤ int32Max := by
  rw [parseInt32_eq_some_iff_strtol]
  show strtol (s ++ 0 :: after) = (v, s.length) ∧ _ ↔ _
  constructor
  · rintro ⟨hstrtol, hrange⟩
    rcases strtol_cases (s ++ 0 :: after) with hnone | ⟨n, rest, htext, hread⟩
    · obtain ⟨hv, hlength⟩ := Prod.mk.inj (hstrtol.symm.trans hnone)
      exact .inl ⟨List.eq_nil_of_length_eq_zero hlength, hv⟩
    · obtain ⟨hv, hlength⟩ := Prod.mk.inj (hstrtol.symm.trans hread)
      obtain ⟨hs, -⟩ := List.append_inj htext hlength
      exact .inr ⟨n, hs, (clampLong_eq hrange.1 hrange.2).1 hv.symm, hrange⟩
  · rintro (⟨rfl, rfl⟩ | ⟨n, rfl, rfl, hrange⟩)
    · exact ⟨strtol_nul, by decide⟩
    · rw [strtol_text n isdigit_head_nul, (clampLong_eq hrange.1 hrange.2).2 rfl]
      exact ⟨rfl, hrange⟩

/-- **`ParseUInt16` accepts the empty text, as 0, and the numerals from 0 to 65535.** -/
theorem parseUInt16_eq_some_iff {v : UInt16} :
    parseUInt16 ⟨s, 0 :: after⟩ = some v ↔
      (s = [] ∧ v = 0) ∨ ∃ n : Numeral, s = n.text ∧ n.value = v.toNat := by
  have hlt := v.toNat_lt
  -- the value is the one of `ParseInt32`, which is in the narrower range
  have hnarrow : parseUInt16 ⟨s, 0 :: after⟩ = some v ↔
      parseInt32 ⟨s, 0 :: after⟩ = some (v.toNat : ℤ) := by
    rw [parseUInt16]
    rcases parseInt32 ⟨s, 0 :: after⟩ with - | result
    · simp
    simp only [Option.ite_none_left_eq_some, Option.some.injEq]
    constructor
    · rintro ⟨hrange, rfl⟩
      rw [UInt16.toNat_ofNat']
      omega
    · rintro rfl
      exact ⟨by omega, by simp⟩
  rw [hnarrow, parseInt32_eq_some_iff]
  refine or_congr (and_congr_right fun _ ↦ ?_) (exists_congr fun n ↦ and_congr_right fun _ ↦ ?_)
  · rw [Int.natCast_eq_zero, ← UInt16.toNat_inj]
    rfl
  · rw [int32Min, int32Max]
    exact ⟨fun h ↦ h.1, fun h ↦ ⟨h, by omega⟩⟩

end Parsers

end Text
