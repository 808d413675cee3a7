import Udpfwd.Text.ParseNumber

/-!
# Splitting text

`SplitStringWithRegex` of `support/text/TextUtils.cc`. Every regular expression that it is
given matches one character, so a delimiter is a predicate of characters here. The pieces are
those between the matches, and a last piece that is empty is left out: a text that ends with a
delimiter gives the same pieces as the text without it.
-/

namespace Text

/-- `SplitStringWithRegex`, with the pieces of `std::sregex_token_iterator` for the submatch
-1. Without a match the whole text is the one piece. -/
def splitStringWithRegex (str : Bytes) (delimiter : UInt8 → Bool) : List Bytes :=
  if str.any delimiter = true ∧ (str.splitOnP delimiter).getLast? = some [] then
    (str.splitOnP delimiter).dropLast
  else str.splitOnP delimiter

section Split

variable {str : Bytes} {x : UInt8} {fields : List Bytes}

/-- A trailing delimiter is one more empty field. -/
theorem intercalate_append_nil (h : fields ≠ []) :
    [x].intercalate (fields ++ [[]]) = [x].intercalate fields ++ [x] := by
  induction fields with
  | nil => exact absurd rfl h
  | cons f fields ih =>
    rcases fields with - | ⟨g, fields⟩
    · simp
    · have htail := ih (List.cons_ne_nil g fields)
      rw [List.cons_append, List.intercalate_cons_of_ne_nil (by simp), htail,
        List.intercalate_cons_cons]
      simp

/-- There is no delimiter in a piece. -/
theorem notMem_of_mem_splitOn {f : Bytes} (hf : f ∈ str.splitOn x) : x ∉ f := by
  induction str generalizing f with
  | nil =>
    obtain rfl : f = [] := by simpa using hf
    exact List.not_mem_nil
  | cons c str ih =>
    rw [List.splitOn_cons_eq_if_modifyHead] at hf
    split at hf
    · rcases List.mem_cons.1 hf with rfl | hf
      · exact List.not_mem_nil
      · exact ih hf
    · next hc =>
      obtain ⟨g, fields, hfields⟩ := List.exists_cons_of_ne_nil (List.splitOn_ne_nil x str)
      rw [hfields] at ih hf
      rcases List.mem_cons.1 hf with rfl | hf
      · rintro hx
        rcases List.mem_cons.1 hx with rfl | hx
        · exact hc (beq_self_eq_true x)
        · exact ih List.mem_cons_self hx
      · exact ih (List.mem_cons_of_mem g hf)

/-- The pieces between the delimiters `x` are the fields that `x` separates. -/
theorem splitOn_eq_iff :
    str.splitOn x = fields ↔
      fields ≠ [] ∧ (∀ f ∈ fields, x ∉ f) ∧ str = [x].intercalate fields := by
  constructor
  · rintro rfl
    exact ⟨List.splitOn_ne_nil x str, fun f ↦ notMem_of_mem_splitOn,
      (List.intercalate_splitOn x).symm⟩
  · rintro ⟨hne, hfields, rfl⟩
    exact List.splitOn_intercalate x hfields hne

theorem splitStringWithRegex_beq :
    splitStringWithRegex str (· == x) =
      if x ∈ str ∧ (str.splitOn x).getLast? = some [] then (str.splitOn x).dropLast
      else str.splitOn x :=
  if_congr (and_congr_left' (by simp)) rfl rfl

/-- **What `SplitStringWithRegex` makes of a text**: the fields that the delimiter separates,
the last of which is not empty, or may be empty if a delimiter follows it. -/
theorem splitStringWithRegex_eq_iff :
    splitStringWithRegex str (· == x) = fields ↔
      fields ≠ [] ∧ (∀ f ∈ fields, x ∉ f) ∧
        ((str = [x].intercalate fields ∧ (fields.getLast? = some [] → fields = [[]])) ∨
          str = [x].intercalate fields ++ [x]) := by
  rw [splitStringWithRegex_beq]
  constructor
  · split
    · next hlast =>
      rintro rfl
      obtain ⟨hx, hlast⟩ := hlast
      -- the pieces are the fields and an empty one
      have hpieces : str.splitOn x = (str.splitOn x).dropLast ++ [[]] :=
        (List.dropLast_append_getLast? [] hlast).symm
      generalize (str.splitOn x).dropLast = fields at hpieces
      obtain ⟨-, hfields, hstr⟩ := splitOn_eq_iff.1 hpieces
      have hne : fields ≠ [] := by
        rintro rfl
        rw [hstr] at hx
        simp at hx
      rw [intercalate_append_nil hne] at hstr
      exact ⟨hne, fun f hf ↦ hfields f (List.mem_append_left _ hf), .inr hstr⟩
    · next hlast =>
      intro hpieces
      obtain ⟨hne, hfields, hstr⟩ := splitOn_eq_iff.1 hpieces
      refine ⟨hne, hfields, .inl ⟨hstr, fun hnil ↦ ?_⟩⟩
      have hx : x ∉ str := fun hx ↦ hlast ⟨hx, hpieces ▸ hnil⟩
      rw [List.splitOn_eq_singleton hx] at hpieces
      rw [← hpieces] at hnil ⊢
      exact congrArg (fun piece ↦ [piece]) (Option.some.inj hnil)
  · rintro ⟨hne, hfields, ⟨hstr, hlast⟩ | hstr⟩
    · have hpieces := splitOn_eq_iff.2 ⟨hne, hfields, hstr⟩
      rw [hpieces, if_neg]
      rintro ⟨hx, hnil⟩
      rw [hstr, hlast hnil] at hx
      simp at hx
    · rw [← intercalate_append_nil hne] at hstr
      have hpieces := splitOn_eq_iff.2 ⟨by simp, by
        intro f hf
        rcases List.mem_append.1 hf with hf | hf
        · exact hfields f hf
        · rw [List.mem_singleton.1 hf]
          exact List.not_mem_nil, hstr⟩
      rw [hpieces, if_pos, List.dropLast_concat]
      refine ⟨?_, by simp⟩
      rw [hstr, intercalate_append_nil hne]
      simp

/-- The pieces that are not empty are those between all delimiters. -/
theorem filter_splitStringWithRegex (str : Bytes) (delimiter : UInt8 → Bool) :
    (splitStringWithRegex str delimiter).filter (· ≠ []) =
      (str.splitOnP delimiter).filter (· ≠ []) := by
  rw [splitStringWithRegex]
  split
  · next hlast =>
    conv_rhs => rw [← List.dropLast_append_getLast? [] hlast.2]
    simp
  · rfl

end Split

end Text
