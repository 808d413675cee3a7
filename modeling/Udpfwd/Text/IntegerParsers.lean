import Udpfwd.Text.ParseNumber

/-!
# The integer parsers

All integer parsers of `support/text/ParseNumber.cc`, on a platform whose `long` has 64 bits.
They differ in the range checks: the 64-bit ones have none, and the unsigned 32-bit one looks at
a result that has already been negated modulo 2⁶⁴.

* `parse_eq` — what they have in common: a numeral is converted if it is all of the view;
* `exact_iff` — the numerals for which a parser gives the number exactly if it is in range;
* `parse_eq_parse_iff` — when the memory after the view makes a difference.
-/

namespace Text

/-! ### The functions of the C library -/

/-- `ULONG_MAX`. -/
def ulongMax : ℕ := 2 ^ 64 - 1

/-- What becomes of a number in an unsigned type: a magnitude that is too large becomes the
limit, and after a minus sign the number is negated modulo 2⁶⁴. -/
def toULong (sign : Sign) (magnitude : ℕ) : UInt64 :=
  if magnitude > ulongMax then .ofNat ulongMax
  else
    match sign with
    | .minus => -.ofNat magnitude
    | _ => .ofNat magnitude

/-- `strtoll`; `long long` has 64 bits, like `long`. -/
def strtoll (s : Bytes) : ℤ × ℕ := strtol s

/-- `strtoul` in base 10. -/
def strtoul (s : Bytes) : UInt64 × ℕ := strto toULong s

/-- `strtoull` in base 10. -/
def strtoull (s : Bytes) : UInt64 × ℕ := strtoul s

/-! ### The parsers -/

/-- `ParseInt64`. -/
def parseInt64 (str : StringView) : Option ℤ :=
  let (result, stop) := strtoll (str.chars ++ str.after)
  if stop = str.chars.length then some result else none

/-- `ParseUInt32`. -/
def parseUInt32 (str : StringView) : Option UInt32 :=
  let (result, stop) := strtoul (str.chars ++ str.after)
  if stop = str.chars.length then
    if result > 0xFFFFFFFF then none else some result.toUInt32
  else none

/-- `ParseUInt64`. -/
def parseUInt64 (str : StringView) : Option UInt64 :=
  let (result, stop) := strtoull (str.chars ++ str.after)
  if stop = str.chars.length then some result else none

/-- `std::numeric_limits<int16_t>::min()`. -/
def int16Min : ℤ := -2 ^ 15

/-- `std::numeric_limits<int16_t>::max()`. -/
def int16Max : ℤ := 2 ^ 15 - 1

/-- `ParseInt16`. -/
def parseInt16 (str : StringView) : Option ℤ :=
  match parseInt32 str with
  | none => none
  | some result => if result < int16Min ∨ result > int16Max then none else some result

/-- The integer parsers, by their target types. -/
inductive IntegerParser
  | int16
  | int32
  | int64
  | uint16
  | uint32
  | uint64
  deriving DecidableEq

namespace IntegerParser

/-- The result of a parser as a number. -/
def parse : IntegerParser → StringView → Option ℤ
  | int16, str => parseInt16 str
  | int32, str => parseInt32 str
  | int64, str => parseInt64 str
  | uint16, str => (parseUInt16 str).map fun value ↦ (value.toNat : ℤ)
  | uint32, str => (parseUInt32 str).map fun value ↦ (value.toNat : ℤ)
  | uint64, str => (parseUInt64 str).map fun value ↦ (value.toNat : ℤ)

/-- The least number of the target type. -/
def min : IntegerParser → ℤ
  | int16 => int16Min
  | int32 => int32Min
  | int64 => longMin
  | uint16 | uint32 | uint64 => 0

/-- The greatest number of the target type. -/
def max : IntegerParser → ℤ
  | int16 => int16Max
  | int32 => int32Max
  | int64 => longMax
  | uint16 => 65535
  | uint32 => 2 ^ 32 - 1
  | uint64 => 2 ^ 64 - 1

/-- What a parser makes of a sign and a magnitude. -/
def convert : IntegerParser → Sign → ℕ → Option ℤ
  | int64, sign, magnitude => some (clampLong (sign.apply magnitude))
  | uint32, sign, magnitude =>
    if (toULong sign magnitude).toNat ≤ 2 ^ 32 - 1 then some (toULong sign magnitude).toNat
    else none
  | uint64, sign, magnitude => some (toULong sign magnitude).toNat
  | p, sign, magnitude =>
    if p.min ≤ sign.apply magnitude ∧ sign.apply magnitude ≤ p.max then
      some (sign.apply magnitude)
    else none

end IntegerParser

/-! ### What the parsers have in common -/

/-- The number 0 as sign and magnitude. -/
instance : Zero Sign := ⟨.none⟩

/-- The sign and the magnitude of the numeral at the start of a text, and where it ends. -/
def scan (s : Bytes) : (Sign × ℕ) × ℕ := strto Prod.mk s

section Scan

variable {s after : Bytes}

theorem strto_eq_scan {α : Type} [Zero α] (convert : Sign → ℕ → α)
    (hzero : convert .none 0 = 0) (s : Bytes) :
    strto convert s = (convert (scan s).1.1 (scan s).1.2, (scan s).2) := by
  simp only [scan, strto]
  split
  · exact Prod.ext hzero.symm rfl
  · rfl

theorem strtol_eq_scan (s : Bytes) :
    strtol s = (clampLong ((scan s).1.1.apply (scan s).1.2), (scan s).2) :=
  strto_eq_scan (fun sign magnitude ↦ clampLong (sign.apply magnitude)) rfl s

theorem strtoul_eq_scan (s : Bytes) :
    strtoul s = (toULong (scan s).1.1 (scan s).1.2, (scan s).2) :=
  strto_eq_scan toULong rfl s

/-- `ParseInt32` finds every number that it should not take out of range, although it looks at
the clamped number only. -/
theorem parseInt32_eq (str : StringView) :
    parseInt32 str = if (scan (str.chars ++ str.after)).2 = str.chars.length then
      IntegerParser.int32.convert (scan (str.chars ++ str.after)).1.1
        (scan (str.chars ++ str.after)).1.2
      else none := by
  rw [parseInt32, strtol_eq_scan]
  refine if_congr Iff.rfl ?_ rfl
  show (if _ then _ else _) = if int32Min ≤ Sign.apply _ _ ∧ Sign.apply _ _ ≤ int32Max then _ else _
  generalize Sign.apply _ _ = v
  have hrange : clampLong v < int32Min ∨ clampLong v > int32Max ↔
      ¬(int32Min ≤ v ∧ v ≤ int32Max) := by
    rw [clampLong, longMin, longMax, int32Min, int32Max]
    omega
  rw [if_congr hrange rfl rfl, ite_not]
  split
  · next hv => rw [(clampLong_eq hv.1 hv.2).2 rfl]
  · rfl

/-- A second check leaves the numbers in the narrower range. -/
theorem parseInt32_narrow {lo hi : ℤ} (hlo : int32Min ≤ lo) (hhi : hi ≤ int32Max)
    (str : StringView) :
    (parseInt32 str).bind (fun result ↦ if result < lo ∨ result > hi then none else some result) =
      if (scan (str.chars ++ str.after)).2 = str.chars.length then
        let v := (scan (str.chars ++ str.after)).1.1.apply (scan (str.chars ++ str.after)).1.2
        if lo ≤ v ∧ v ≤ hi then some v else none
      else none := by
  rw [parseInt32_eq, IntegerParser.convert, IntegerParser.min, IntegerParser.max]
  · dsimp only
    generalize Sign.apply _ _ = v
    split
    · have hrange : v < lo ∨ v > hi ↔ ¬(lo ≤ v ∧ v ≤ hi) := by omega
      split
      · rw [Option.bind_some, if_congr hrange rfl rfl, ite_not]
      · rw [Option.bind_none, if_neg (by omega)]
    · rfl
  all_goals exact nofun

/-- **What the parsers have in common**: they convert what is scanned, if that is all of the
view. -/
theorem IntegerParser.parse_eq (p : IntegerParser) (str : StringView) :
    p.parse str = if (scan (str.chars ++ str.after)).2 = str.chars.length then
      p.convert (scan (str.chars ++ str.after)).1.1 (scan (str.chars ++ str.after)).1.2
      else none := by
  cases p with
  | int16 =>
    have hnarrow := parseInt32_narrow (show int32Min ≤ int16Min by decide)
      (show int16Max ≤ int32Max by decide) str
    refine Eq.trans ?_ hnarrow
    rw [parse, parseInt16]
    rcases parseInt32 str <;> rfl
  | int32 => exact parseInt32_eq str
  | int64 =>
    rw [parse, parseInt64, strtoll, strtol_eq_scan]
    rfl
  | uint16 =>
    have hnarrow := parseInt32_narrow (show int32Min ≤ 0 by decide)
      (show 65535 ≤ int32Max by decide) str
    refine Eq.trans ?_ hnarrow
    rw [parse, parseUInt16]
    rcases parseInt32 str with - | result
    · rfl
    · rw [Option.bind_some]
      dsimp only
      split
      · rfl
      · rw [Option.map_some, UInt16.toNat_ofNat']
        congr 1
        omega
  | uint32 =>
    rw [parse, parseUInt32, strtoul_eq_scan]
    dsimp only [convert]
    generalize toULong _ _ = result
    split
    · have hrange : result > 0xFFFFFFFF ↔ ¬result.toNat ≤ 2 ^ 32 - 1 := by
        rw [gt_iff_lt, UInt64.lt_iff_toNat_lt, Nat.not_le]
        exact Iff.rfl
      rw [if_congr hrange rfl rfl, ite_not]
      split
      · rw [Option.map_some, UInt64.toNat_toUInt32]
        congr 2
        omega
      · rfl
    · rfl
  | uint64 =>
    rw [parse, parseUInt64, strtoull, strtoul_eq_scan]
    simp [convert, apply_ite]

/-- A numeral that is all of the view is converted. -/
theorem IntegerParser.parse_text (p : IntegerParser) (n : Numeral)
    (hafter : ∀ c ∈ after.head?, isdigit c = false) :
    p.parse ⟨n.text, after⟩ = p.convert n.sign (decimal n.digits) := by
  rw [parse_eq]
  show (if (scan (n.text ++ after)).2 = n.text.length then _ else _) = _
  rw [scan, strto_text _ n hafter, if_pos rfl]

end Scan

/-! ### Values -/

namespace IntegerParser

/-- The parser gives the number that the text denotes if that is in the range of the target
type, and nothing otherwise. -/
def Exact (p : IntegerParser) (n : Numeral) : Prop :=
  ∀ after, p.parse ⟨n.text, 0 :: after⟩ =
    if p.min ≤ n.value ∧ n.value ≤ p.max then some n.value else none

/-- The numbers that a parser checks as it should: all those up to 32 bits, except negative ones
that become small when they are negated modulo 2⁶⁴, but with 64 bits none out of range. -/
def Checks : IntegerParser → ℤ → Prop
  | int16, _ | int32, _ | uint16, _ => True
  | int64, v => longMin ≤ v ∧ v ≤ longMax
  | uint32, v => ¬(-2 ^ 64 < v ∧ v < -(2 ^ 64 - 2 ^ 32))
  | uint64, v => 0 ≤ v ∧ v ≤ 2 ^ 64 - 1

section Exact

variable {p : IntegerParser} {n : Numeral} {sign : Sign} {magnitude : ℕ}

theorem some_eq_ite_iff {c : Prop} [Decidable c] {v w : ℤ} :
    (some v = if c then some w else none) ↔ c ∧ v = w := by
  rw [eq_comm, Option.ite_none_right_eq_some, Option.some.injEq, eq_comm]

theorem none_eq_ite_iff {c : Prop} [Decidable c] {w : ℤ} :
    (none = if c then some w else none) ↔ ¬c := by
  split <;> simpa

/-- A number in an unsigned type: itself, wrapped around below 0, or the limit. -/
theorem toULong_cases (sign : Sign) (magnitude : ℕ) :
    (0 ≤ sign.apply magnitude ∧ sign.apply magnitude ≤ 2 ^ 64 - 1 ∧
        ((toULong sign magnitude).toNat : ℤ) = sign.apply magnitude) ∨
      (-(2 ^ 64 - 1) ≤ sign.apply magnitude ∧ sign.apply magnitude < 0 ∧
        ((toULong sign magnitude).toNat : ℤ) = sign.apply magnitude + 2 ^ 64) ∨
      ((sign.apply magnitude < -(2 ^ 64 - 1) ∨ 2 ^ 64 - 1 < sign.apply magnitude) ∧
        ((toULong sign magnitude).toNat : ℤ) = 2 ^ 64 - 1) := by
  rcases Nat.lt_or_ge ulongMax magnitude with hlarge | hsmall
  · have hlimit : toULong sign magnitude = .ofNat ulongMax := if_pos hlarge
    rw [hlimit]
    rw [ulongMax] at hlarge
    refine .inr (.inr ⟨?_, by decide⟩)
    cases sign <;> simp only [Sign.apply] <;> omega
  · have hsame : toULong sign magnitude = match sign with
        | .minus => -.ofNat magnitude
        | _ => .ofNat magnitude := if_neg (Nat.not_lt.2 hsmall)
    rw [ulongMax] at hsmall
    rw [hsame]
    cases sign with
    | minus =>
      have hneg : (-UInt64.ofNat magnitude).toNat =
          (2 ^ 64 - magnitude % 2 ^ 64) % 2 ^ 64 := by
        rw [UInt64.toNat_neg, UInt64.toNat_ofNat']
        rfl
      dsimp only [Sign.apply]
      rw [hneg]
      omega
    | none | plus =>
      dsimp only [Sign.apply]
      rw [UInt64.toNat_ofNat']
      omega

/-- **A parser is exact at a numeral** if and only if it checks the number. -/
theorem exact_iff (p : IntegerParser) (n : Numeral) : p.Exact n ↔ p.Checks n.value := by
  have hconvert : p.Exact n ↔ p.convert n.sign (decimal n.digits) =
      if p.min ≤ n.value ∧ n.value ≤ p.max then some n.value else none :=
    ⟨fun h ↦ (p.parse_text n isdigit_head_nul).symm.trans (h []),
      fun h after ↦ (p.parse_text n isdigit_head_nul).trans h⟩
  rw [hconvert, Numeral.value]
  generalize decimal n.digits = magnitude
  have hulong := toULong_cases n.sign magnitude
  cases p with
  | int16 | int32 | uint16 => exact iff_of_true rfl trivial
  | int64 =>
    show (some _ = if _ then some _ else none) ↔ _
    rw [some_eq_ite_iff]
    simp only [min, max, Checks, clampLong, longMin, longMax]
    omega
  | uint32 =>
    show ((if _ then some _ else none) = if _ then some _ else none) ↔ _
    split
    · rw [some_eq_ite_iff]
      simp only [min, max, Checks]
      omega
    · rw [none_eq_ite_iff]
      simp only [min, max, Checks]
      omega
  | uint64 =>
    show (some _ = if _ then some _ else none) ↔ _
    rw [some_eq_ite_iff]
    simp only [min, max, Checks]
    omega

end Exact

/-- `-1`. -/
def minusOne : Numeral := ⟨[], .minus, [0x31], nofun, List.forall_mem_singleton.2 rfl, by decide⟩

/-- `ParseUInt64` takes `-1` for the greatest number of its type. -/
theorem minusOne_not_exact :
    uint64.parse ⟨minusOne.text, [0]⟩ = some (2 ^ 64 - 1) ∧ ¬uint64.Exact minusOne := by
  have hparse : uint64.parse ⟨minusOne.text, [0]⟩ = some (2 ^ 64 - 1) := by decide
  refine ⟨hparse, fun h ↦ ?_⟩
  rw [h []] at hparse
  exact absurd hparse (by decide)

end IntegerParser

/-! ### The end of the view -/

/-- The memory after a view goes on with what the parsers read: with another digit of a numeral
that is all of the view, or with a numeral if the view is empty. -/
def Continues (s after : Bytes) : Prop :=
  ((∃ n : Numeral, s = n.text) ∧ ∃ c ∈ after.head?, isdigit c = true) ∨
    (s = [] ∧ ∃ (n : Numeral) (rest : Bytes), after = n.text ++ rest)

namespace IntegerParser

/-- The numbers that a parser gives something for. -/
def Takes : IntegerParser → ℤ → Prop
  | int64, _ | uint64, _ => True
  | uint32, v => (0 ≤ v ∧ v ≤ 2 ^ 32 - 1) ∨ (-2 ^ 64 < v ∧ v < -(2 ^ 64 - 2 ^ 32))
  | p, v => p.min ≤ v ∧ v ≤ p.max

/-- The texts that a parser gives something for: the empty one, and the numerals of such
numbers. -/
def Accepts (p : IntegerParser) (s : Bytes) : Prop :=
  s = [] ∨ ∃ n : Numeral, s = n.text ∧ p.Takes n.value

end IntegerParser

section View

variable {s after after₁ after₂ : Bytes} {n : Numeral} {p : IntegerParser}

theorem Numeral.text_ne_nil (n : Numeral) : n.text ≠ [] := by
  simp [Numeral.text, n.digits_ne_nil]

/-- What is scanned when that is all of the view. -/
theorem scan_of_length (h : (scan (s ++ after)).2 = s.length) :
    (s = [] ∧ scan (s ++ after) = (0, 0)) ∨ ∃ n : Numeral, s = n.text ∧
      ∀ c ∈ after.head?, isdigit c = false := by
  rcases strto_cases Prod.mk (s ++ after) with hnone | ⟨n, rest, htext, hrest, hscan⟩
  · have hlength : 0 = s.length := (congrArg Prod.snd hnone).symm.trans h
    exact .inl ⟨List.eq_nil_of_length_eq_zero hlength.symm, hnone⟩
  · have hlength : n.text.length = s.length := (congrArg Prod.snd hscan).symm.trans h
    obtain ⟨hs, rfl⟩ := List.append_inj htext hlength.symm
    exact .inr ⟨n, hs, hrest⟩

/-- A numeral is scanned with all the digits that follow. -/
theorem scan_text_append_ne (n : Numeral) (after : Bytes) : (scan (n.text ++ after)).2 ≠ 0 := by
  let n' : Numeral :=
    { n with
      digits := n.digits ++ after.takeWhile isdigit
      isdigit_digits := fun c hc ↦ (List.mem_append.1 hc).elim (n.isdigit_digits c)
        fun hc ↦ List.mem_takeWhile_imp hc
      digits_ne_nil := by simp [n.digits_ne_nil] }
  have htext : n.text ++ after = n'.text ++ after.dropWhile isdigit := by
    simp [n', Numeral.text]
  have hrest : ∀ c ∈ (after.dropWhile isdigit).head?, isdigit c = false := by
    intro c hc
    have hhead := List.head?_dropWhile_not isdigit after
    rwa [Option.mem_def.1 hc] at hhead
  rw [htext, scan, strto_text _ n' hrest]
  exact fun h ↦ n'.text_ne_nil (List.eq_nil_of_length_eq_zero h)

/-- What is scanned is longer than the view. -/
theorem Continues.scan_ne (h : Continues s after) : (scan (s ++ after)).2 ≠ s.length := by
  intro hlength
  rcases h with ⟨⟨n, rfl⟩, c, hc, hdigit⟩ | ⟨rfl, n, rest, rfl⟩
  · rcases scan_of_length hlength with ⟨hnil, -⟩ | ⟨-, -, hhead⟩
    · exact n.text_ne_nil hnil
    · rw [hhead c hc] at hdigit
      exact absurd hdigit (by simp)
  · exact scan_text_append_ne n rest hlength

theorem not_continues_nul : ¬Continues s [0] := by
  rintro (⟨-, c, ⟨⟩, hdigit⟩ | ⟨-, n, rest, htext⟩)
  · exact absurd hdigit (by decide)
  · have hscan := scan_text_append_ne n rest
    rw [← htext] at hscan
    exact hscan rfl

theorem Continues.parse_eq_none (h : Continues s after) : p.parse ⟨s, after⟩ = none :=
  (p.parse_eq _).trans (if_neg h.scan_ne)

/-- What a parser makes of the empty text. -/
theorem convert_zero (p : IntegerParser) : p.convert .none 0 = some 0 := by
  cases p <;> rfl

theorem parse_nil (h : ¬Continues [] after) : p.parse ⟨[], after⟩ = some 0 := by
  have hscan : scan after = (0, 0) := by
    rcases strto_cases Prod.mk after with hnone | ⟨n, rest, htext, -⟩
    · exact hnone
    · exact absurd (.inr ⟨rfl, n, rest, htext⟩) h
  rw [p.parse_eq]
  show (if (scan after).2 = 0 then p.convert (scan after).1.1 (scan after).1.2 else none) = some 0
  rw [hscan]
  exact convert_zero p

/-- A text that is not empty and no numeral is not read to its end. -/
theorem parse_eq_none (hnil : s ≠ []) (hnumeral : ¬∃ n : Numeral, s = n.text) :
    p.parse ⟨s, after⟩ = none := by
  rw [p.parse_eq]
  refine if_neg fun hlength ↦ ?_
  rcases scan_of_length hlength with ⟨hs, -⟩ | ⟨n, hs, -⟩
  · exact hnil hs
  · exact hnumeral ⟨n, hs⟩

/-- **Without that, a view is read like a copy of it.** -/
theorem parse_of_not_continues (h : ¬Continues s after) :
    p.parse ⟨s, after⟩ = p.parse (.ofString s) := by
  by_cases hnumeral : ∃ n : Numeral, s = n.text
  · obtain ⟨n, rfl⟩ := hnumeral
    have hhead : ∀ c ∈ after.head?, isdigit c = false := fun c hc ↦
      Bool.eq_false_iff.2 fun hdigit ↦ h (.inl ⟨⟨n, rfl⟩, c, hc, hdigit⟩)
    rw [p.parse_text n hhead, StringView.ofString, p.parse_text n isdigit_head_nul]
  · by_cases hnil : s = []
    · rw [hnil] at h ⊢
      rw [parse_nil h, StringView.ofString, parse_nil not_continues_nul]
    · rw [StringView.ofString, parse_eq_none hnil hnumeral, parse_eq_none hnil hnumeral]

theorem isSome_convert (p : IntegerParser) (sign : Sign) (magnitude : ℕ) :
    (p.convert sign magnitude).isSome = true ↔ p.Takes (sign.apply magnitude) := by
  cases p with
  | int16 | int32 | uint16 =>
    show (if _ then some _ else none).isSome = true ↔ _
    rw [Option.isSome_ite]
    rfl
  | int64 | uint64 => exact iff_of_true rfl trivial
  | uint32 =>
    have hulong := IntegerParser.toULong_cases sign magnitude
    show (if _ then some _ else none).isSome = true ↔ _
    rw [Option.isSome_ite]
    simp only [IntegerParser.Takes]
    omega

/-- **The texts for which a parser gives something.** -/
theorem isSome_parse_ofString : (p.parse (.ofString s)).isSome = true ↔ p.Accepts s := by
  rw [StringView.ofString]
  constructor
  · intro h
    by_cases hnil : s = []
    · exact .inl hnil
    · by_cases hnumeral : ∃ n : Numeral, s = n.text
      · obtain ⟨n, rfl⟩ := hnumeral
        rw [p.parse_text n isdigit_head_nul, isSome_convert] at h
        exact .inr ⟨n, rfl, h⟩
      · rw [parse_eq_none hnil hnumeral] at h
        exact absurd h (by simp)
  · rintro (rfl | ⟨n, rfl, hn⟩)
    · rw [parse_nil not_continues_nul]
      rfl
    · rw [p.parse_text n isdigit_head_nul, isSome_convert]
      exact hn

/-- **A parser sees only its view**, whatever follows it, exactly if it gives nothing for the
characters of the view anyway, or the memory goes on with what it reads after both views or after
neither. -/
theorem parse_eq_parse_iff (p : IntegerParser) (s after₁ after₂ : Bytes) :
    p.parse ⟨s, after₁⟩ = p.parse ⟨s, after₂⟩ ↔
      (p.Accepts s → (Continues s after₁ ↔ Continues s after₂)) := by
  rw [← isSome_parse_ofString]
  by_cases h₁ : Continues s after₁ <;> by_cases h₂ : Continues s after₂
  · rw [h₁.parse_eq_none, h₂.parse_eq_none]
    simp [h₁, h₂]
  · rw [h₁.parse_eq_none, parse_of_not_continues h₂]
    cases p.parse (.ofString s) <;> simp [h₁, h₂]
  · rw [parse_of_not_continues h₁, h₂.parse_eq_none]
    cases p.parse (.ofString s) <;> simp [h₁, h₂]
  · rw [parse_of_not_continues h₁, parse_of_not_continues h₂]
    simp [h₁, h₂]

end View

/-- `12` is not read in `123`, but a copy of it is. -/
theorem prefix_parse_ne :
    IntegerParser.uint16.parse ⟨[0x31, 0x32], [0x33, 0]⟩ = none ∧
      IntegerParser.uint16.parse (.ofString [0x31, 0x32]) = some 12 := by
  decide

end Text
