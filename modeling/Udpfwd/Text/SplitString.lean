import Mathlib.Logic.Relation
import Udpfwd.Text.ParseNumber
import Udpfwd.Words.Occurrence

/-!
# Splitting text at a delimiter

`SplitString` and `LastPartOf` of `support/text/TextUtils.cc`. The loop goes on as long as `find`
finds the delimiter in what is left of the text, so nothing bounds the number of its iterations
from the outside: the model takes the number of times that the condition may be tested.

* `IsSplit` — what the loop makes of a text, without the bound and the accumulated result;
* `terminates_iff` — the loop ends unless the delimiter is empty, which `find` finds at once and
  which leaves the text as it is when it is removed;
* `splitString_spec` — the pieces, and where they are cut.
-/

open Words

namespace Text

/-- The local variables of `SplitString`: what is left of the text, and the pieces so far. -/
structure SplitState where
  str : Bytes
  result : List Bytes
  deriving DecidableEq

/-- An iteration of the loop, or `none` if `find` returns `npos`. -/
def SplitState.iterate (delimiter : Bytes) (s : SplitState) : Option SplitState :=
  (find s.str delimiter).map fun pos ↦
    ⟨s.str.drop (pos + delimiter.length), s.result ++ [s.str.take pos]⟩

/-- The loop and what follows it, if the condition is tested at most `fuel` times. -/
def splitLoop (delimiter : Bytes) : ℕ → SplitState → Option (List Bytes)
  | 0, _ => none
  | fuel + 1, s =>
    match s.iterate delimiter with
    | none => some (s.result ++ [s.str])
    | some s' => splitLoop delimiter fuel s'

/-- `SplitString`. -/
def splitString (fuel : ℕ) (str delimiter : Bytes) : Option (List Bytes) :=
  splitLoop delimiter fuel ⟨str, []⟩

/-- `LastPartOf`. -/
def lastPartOf (fuel : ℕ) (str delimiter : Bytes) : Option Bytes :=
  (splitString fuel str delimiter).bind fun parts ↦ parts[parts.length - 1]?

/-- The loop comes to the state `s`. -/
def Reached (str delimiter : Bytes) (s : SplitState) : Prop :=
  Relation.ReflTransGen (fun s s' ↦ s.iterate delimiter = some s') ⟨str, []⟩ s

/-- `SplitString` and `LastPartOf` return, and every iteration on the way leaves less of the
text. -/
structure Terminates (str delimiter : Bytes) : Prop where
  returns : ∃ fuel parts, splitString fuel str delimiter = some parts
  lastPart : ∃ fuel part, lastPartOf fuel str delimiter = some part
  shortens : ∀ s s', Reached str delimiter s → s.iterate delimiter = some s' →
    s'.str.length < s.str.length

/-- The pieces that the loop makes of a text. -/
inductive IsSplit (delimiter : Bytes) : Bytes → List Bytes → Prop
  | last {str : Bytes} (hfind : find str delimiter = none) : IsSplit delimiter str [str]
  | piece {str : Bytes} {pos : ℕ} {pieces : List Bytes} (hfind : find str delimiter = some pos)
      (hrest : IsSplit delimiter (str.drop (pos + delimiter.length)) pieces) :
      IsSplit delimiter str (str.take pos :: pieces)

section SplitString

variable {str delimiter : Bytes} {s s' : SplitState} {fuel : ℕ} {parts pieces : List Bytes}

/-! ### The loop -/

theorem iterate_eq_some_iff :
    s.iterate delimiter = some s' ↔ ∃ pos, find s.str delimiter = some pos ∧
      s' = ⟨s.str.drop (pos + delimiter.length), s.result ++ [s.str.take pos]⟩ := by
  rw [SplitState.iterate, Option.map_eq_some_iff]
  simp only [eq_comm]

theorem iterate_eq_none_iff : s.iterate delimiter = none ↔ find s.str delimiter = none :=
  Option.map_eq_none_iff

/-- **One iteration** shortens the text by the piece and the delimiter. -/
theorem length_iterate (h : s.iterate delimiter = some s') (hd : delimiter ≠ []) :
    s'.str.length < s.str.length := by
  obtain ⟨pos, hfind, rfl⟩ := iterate_eq_some_iff.1 h
  have hend := (find_eq_some_iff.1 hfind).1.add_length_le
  have hpos := List.length_pos_of_ne_nil hd
  show (s.str.drop (pos + delimiter.length)).length < _
  rw [List.length_drop]
  omega

/-- With the empty delimiter an iteration adds an empty piece, and there is always another. -/
theorem iterate_nil (s : SplitState) : s.iterate [] = some ⟨s.str, s.result ++ [[]]⟩ :=
  iterate_eq_some_iff.2 ⟨0, find_nil _, rfl⟩

theorem splitLoop_nil (fuel : ℕ) (s : SplitState) : splitLoop [] fuel s = none := by
  induction fuel generalizing s with
  | zero => rfl
  | succ fuel ih =>
    rw [splitLoop, iterate_nil]
    exact ih _

/-- As many tests as the text has characters, and one more, are enough. -/
theorem exists_splitLoop_eq_some (hd : delimiter ≠ []) (hfuel : s.str.length < fuel) :
    ∃ parts, splitLoop delimiter fuel s = some parts := by
  induction fuel generalizing s with
  | zero => omega
  | succ fuel ih =>
    rw [splitLoop]
    rcases h : s.iterate delimiter with - | s'
    · exact ⟨_, rfl⟩
    · have hshorter := length_iterate h hd
      exact ih (by omega)

/-- What the loop returns is what it had and the pieces of what was left. -/
theorem exists_isSplit_of_splitLoop (h : splitLoop delimiter fuel s = some parts) :
    ∃ pieces, parts = s.result ++ pieces ∧ IsSplit delimiter s.str pieces := by
  induction fuel generalizing s with
  | zero => cases h
  | succ fuel ih =>
    rw [splitLoop] at h
    rcases hiter : s.iterate delimiter with - | s' <;> rw [hiter] at h
    · obtain rfl := Option.some.inj h
      exact ⟨[s.str], rfl, .last (iterate_eq_none_iff.1 hiter)⟩
    · obtain ⟨pos, hfind, rfl⟩ := iterate_eq_some_iff.1 hiter
      obtain ⟨pieces, rfl, hpieces⟩ := ih h
      exact ⟨s.str.take pos :: pieces, List.append_assoc _ _ _, .piece hfind hpieces⟩

theorem isSplit_of_splitString (h : splitString fuel str delimiter = some parts) :
    IsSplit delimiter str parts := by
  obtain ⟨pieces, rfl, hpieces⟩ := exists_isSplit_of_splitLoop h
  exact hpieces

/-! ### The pieces -/

namespace IsSplit

theorem ne_nil (h : IsSplit delimiter str pieces) : pieces ≠ [] := by
  cases h with
  | last => exact List.cons_ne_nil _ _
  | piece => exact List.cons_ne_nil _ _

theorem delimiter_ne_nil (h : IsSplit delimiter str pieces) : delimiter ≠ [] := by
  rintro rfl
  induction h with
  | last hfind =>
    rw [find_nil] at hfind
    cases hfind
  | piece _ _ ih => exact ih

/-- **Joining undoes splitting.** -/
theorem intercalate_eq (h : IsSplit delimiter str pieces) :
    delimiter.intercalate pieces = str := by
  induction h with
  | last => exact List.intercalate_singleton
  | @piece str pos pieces hfind hrest ih =>
    rw [List.intercalate_cons_of_ne_nil hrest.ne_nil, ih, List.append_assoc]
    exact (find_eq_some_iff.1 hfind).1.take_append_append_drop

theorem not_infix (h : IsSplit delimiter str pieces) {piece : Bytes} (hpiece : piece ∈ pieces) :
    ¬delimiter <:+: piece := by
  have hd := h.delimiter_ne_nil
  induction h with
  | last hfind =>
    rw [List.mem_singleton.1 hpiece, infix_iff_exists_occursAt]
    exact not_exists.2 (find_eq_none_iff.1 hfind)
  | piece hfind hrest ih =>
    rcases List.mem_cons.1 hpiece with rfl | hpiece
    · exact not_infix_take hd (find_eq_some_iff.1 hfind).2
    · exact ih hpiece

/-- What is left of a text from `start` on is cut at the leftmost non-overlapping occurrences from
there. -/
theorem exists_leftmost {start : ℕ} (hstart : start ≤ str.length)
    (h : IsSplit delimiter (str.drop start) pieces) :
    ∃ positions, Leftmost delimiter str start positions ∧
      pieces.length = positions.length + 1 ∧
      pieces.getLast? = some (afterLast delimiter str start positions) := by
  generalize hrest : str.drop start = rest at h
  induction h generalizing start with
  | last hfind =>
    subst hrest
    exact ⟨[], .nil_find hstart hfind, rfl, rfl⟩
  | @piece rest pos pieces hfind hpieces ih =>
    subst hrest
    have hend := (find_eq_some_iff.1 hfind).1.add_length_le
    rw [List.length_drop] at hend
    have hbehind : str.drop (start + pos + delimiter.length) =
        (str.drop start).drop (pos + delimiter.length) := by
      rw [List.drop_drop, Nat.add_assoc]
    obtain ⟨positions, hpositions, hlength, hlast⟩ := ih (by omega) hbehind
    refine ⟨(start + pos) :: positions, .cons_find hstart hfind hpositions, ?_, ?_⟩
    · rw [List.length_cons, List.length_cons, hlength]
    · rw [List.getLast?_cons, hlast, afterLast_cons]
      rfl

end IsSplit

/-- `LastPartOf` returns the last of the pieces. -/
theorem lastPartOf_eq_getLast? (h : splitString fuel str delimiter = some parts) :
    lastPartOf fuel str delimiter = parts.getLast? := by
  rw [lastPartOf, h, List.getLast?_eq_getElem?]
  rfl

theorem exists_lastPartOf_eq_some (h : splitString fuel str delimiter = some parts) :
    ∃ part, lastPartOf fuel str delimiter = some part := by
  have hne := (isSplit_of_splitString h).ne_nil
  exact ⟨parts.getLast hne, (lastPartOf_eq_getLast? h).trans (List.getLast?_eq_some_getLast hne)⟩

/-- **`SplitString` is undone by joining.** Whenever it returns, the pieces joined by the delimiter
are the text, and the delimiter is in none of them. The text is cut at the leftmost
non-overlapping occurrences of the delimiter, so there is one piece more than there are of these,
and what `LastPartOf` returns is the text behind the last one. -/
theorem splitString_spec (h : splitString fuel str delimiter = some parts) :
    delimiter.intercalate parts = str ∧ (∀ piece ∈ parts, ¬delimiter <:+: piece) ∧
      (∃ positions, Leftmost delimiter str 0 positions) ∧
      ∀ positions, Leftmost delimiter str 0 positions → parts.length = positions.length + 1 ∧
        lastPartOf fuel str delimiter = some (afterLast delimiter str 0 positions) := by
  have hsplit := isSplit_of_splitString h
  obtain ⟨positions, hpositions, hlength, hlast⟩ := hsplit.exists_leftmost (Nat.zero_le _)
  refine ⟨hsplit.intercalate_eq, fun _ ↦ hsplit.not_infix, ⟨positions, hpositions⟩,
    fun positions' hpositions' ↦ ?_⟩
  obtain rfl := hpositions.unique hpositions'
  exact ⟨hlength, (lastPartOf_eq_getLast? h).trans hlast⟩

/-! ### The end of the loop -/

/-- **The loop ends exactly if the delimiter is not empty.** -/
theorem terminates_iff : Terminates str delimiter ↔ delimiter ≠ [] := by
  constructor
  · rintro h rfl
    obtain ⟨fuel, parts, hparts⟩ := h.returns
    rw [splitString, splitLoop_nil] at hparts
    cases hparts
  · intro hd
    obtain ⟨parts, hparts⟩ :=
      exists_splitLoop_eq_some (s := ⟨str, []⟩) hd (Nat.lt_succ_self str.length)
    obtain ⟨part, hpart⟩ := exists_lastPartOf_eq_some hparts
    exact
      { returns := ⟨_, parts, hparts⟩
        lastPart := ⟨_, part, hpart⟩
        shortens := fun _ _ _ hiter ↦ length_iterate hiter hd }

end SplitString

/-- The delimiter `aa` in `aaabaa`: it overlaps with itself, and the text ends with it. -/
theorem splitString_overlapping :
    let delimiter : Bytes := [0x61, 0x61]
    let str : Bytes := [0x61, 0x61, 0x61, 0x62, 0x61, 0x61]
    splitString 3 str delimiter = some [[], [0x61, 0x62], []] ∧
      delimiter.intercalate [[], [0x61, 0x62], []] = str := by
  have hparts : splitString 3 [0x61, 0x61, 0x61, 0x62, 0x61, 0x61] [0x61, 0x61] =
    some [[], [0x61, 0x62], []] := by decide
  exact ⟨hparts, (splitString_spec hparts).1⟩

/-- With the empty delimiter the text `a` is never split. -/
theorem splitString_empty_delimiter :
    (∀ fuel, splitString fuel [0x61] [] = none) ∧ ¬Terminates [0x61] [] := by
  have hnone : ∀ fuel, splitString fuel [0x61] [] = none := fun fuel ↦ splitLoop_nil fuel _
  refine ⟨hnone, fun h ↦ ?_⟩
  obtain ⟨fuel, parts, hparts⟩ := h.returns
  rw [hnone] at hparts
  cases hparts

end Text
