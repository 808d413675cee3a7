import Udpfwd.Net.SocketAddress
import Udpfwd.Text.ParseNumber

/-!
# Internet addresses in text

`INetAddress::FromString`. The text of the address itself is read by `inet_pton`, which is not
part of the sources: `InetPton` stands for it, and `InetPton.Documented` is what is relied on.

`inet_pton` is given a C string, which ends at the first NUL. A text that goes on after a NUL is
therefore read like the part before it (`LooseAddressText`).
-/

open Text

namespace Net

/-! ### `inet_pton` -/

/-- `isxdigit`. -/
def isxdigit (c : UInt8) : Bool :=
  isdigit c || (0x41 ≤ c && c ≤ 0x46) || (0x61 ≤ c && c ≤ 0x66)

/-- `.` -/
def dot : UInt8 := 0x2E

/-- `:` -/
def colon : UInt8 := 0x3A

/-- `[` -/
def leftBracket : UInt8 := 0x5B

/-- `]` -/
def rightBracket : UInt8 := 0x5D

/-- `inet_pton`, for `AF_INET` and for `AF_INET6`: the bytes of the address, if the result
is 1. -/
structure InetPton where
  v4 : Bytes → Option (Vector UInt8 4)
  v6 : Bytes → Option (Vector UInt8 16)

/-- The characters of an address text. IPv4 addresses are in dotted decimal; IPv6 addresses are
hexadecimal groups separated by colons, and may end in dotted decimal. -/
structure InetPton.Documented (pton : InetPton) : Prop where
  v4_chars : ∀ {s a}, pton.v4 s = some a → ∀ c ∈ s, isdigit c = true ∨ c = dot
  v6_chars : ∀ {s a}, pton.v6 s = some a → ∀ c ∈ s, isxdigit c = true ∨ c = colon ∨ c = dot
  v6_colon : ∀ {s a}, pton.v6 s = some a → colon ∈ s

/-! ### `FromString` -/

/-- The C string that `c_str()` points to. -/
def cStr (s : Bytes) : Bytes := s.takeWhile (· ≠ 0)

/-- An IPv6 address without the brackets around it. -/
def removeBrackets (address : Bytes) : Bytes :=
  if address.head? = some leftBracket ∧ address.getLast? = some rightBracket then
    address.tail.dropLast
  else address

/-- `net::INetAddress::FromString`. -/
def INetAddress.fromString (pton : InetPton) (address : Bytes) : INetAddress :=
  if colon ∉ address then
    match pton.v4 (cStr address) with
    | some mAddr4 => .ipv4 mAddr4
    | .none => .none
  else
    match pton.v6 (cStr (removeBrackets address)) with
    | some mAddr6 => .ipv6 mAddr6
    | .none => .none

/-- An IPv4 address text, or an IPv6 address text, which may be in brackets. -/
inductive AddressText (pton : InetPton) : Bytes → INetAddress → Prop
  | ipv4 {s : Bytes} {a : Vector UInt8 4} (h : pton.v4 s = some a) : AddressText pton s (.ipv4 a)
  | ipv6 {s : Bytes} {a : Vector UInt8 16} (h : pton.v6 s = some a) : AddressText pton s (.ipv6 a)
  | bracketed {s : Bytes} {a : Vector UInt8 16} (h : pton.v6 s = some a) :
      AddressText pton (leftBracket :: (s ++ [rightBracket])) (.ipv6 a)

/-- Nothing, or a NUL and anything after it. -/
def AfterNul (s : Bytes) : Prop := ∀ c ∈ s.head?, c = 0

/-- An address text that may be followed by a NUL and anything else, but in an IPv4 address by no
colon. -/
inductive LooseAddressText (pton : InetPton) : Bytes → INetAddress → Prop
  | ipv4 {s rest : Bytes} {a : Vector UInt8 4} (h : pton.v4 s = some a) (hrest : AfterNul rest)
      (hcolon : colon ∉ rest) : LooseAddressText pton (s ++ rest) (.ipv4 a)
  | ipv6 {s rest : Bytes} {a : Vector UInt8 16} (h : pton.v6 s = some a)
      (hrest : AfterNul rest) : LooseAddressText pton (s ++ rest) (.ipv6 a)
  | bracketed {s rest : Bytes} {a : Vector UInt8 16} (h : pton.v6 s = some a)
      (hrest : AfterNul rest) :
      LooseAddressText pton (leftBracket :: ((s ++ rest) ++ [rightBracket])) (.ipv6 a)

section FromString

variable {pton : InetPton} {s rest : Bytes} {a : INetAddress}

theorem AddressText.loose (h : AddressText pton s a) : LooseAddressText pton s a := by
  have hnil : AfterNul [] := nofun
  cases h with
  | ipv4 h => simpa using LooseAddressText.ipv4 h hnil List.not_mem_nil
  | ipv6 h => simpa using LooseAddressText.ipv6 h hnil
  | bracketed h => simpa using LooseAddressText.bracketed h hnil

theorem cStr_append (hs : 0 ∉ s) (hrest : AfterNul rest) : cStr (s ++ rest) = s :=
  takeWhile_append_eq (fun _ hc ↦ decide_eq_true fun h ↦ hs (h ▸ hc))
    fun c hc ↦ decide_eq_false (not_not.2 (hrest c hc))

/-- A text is its C string and what comes after a NUL. -/
theorem exists_cStr_append (s : Bytes) : ∃ rest, s = cStr s ++ rest ∧ AfterNul rest := by
  refine ⟨s.dropWhile (· ≠ 0), List.takeWhile_append_dropWhile.symm, fun c hc ↦ ?_⟩
  have hhead := List.head?_dropWhile_not (fun c : UInt8 ↦ decide (c ≠ 0)) s
  rw [Option.mem_def.1 hc] at hhead
  exact not_not.1 (of_decide_eq_false hhead)

theorem removeBrackets_bracketed (s : Bytes) :
    removeBrackets (leftBracket :: (s ++ [rightBracket])) = s := by
  have hlast : ((leftBracket :: s) ++ [rightBracket]).getLast? = some rightBracket :=
    List.getLast?_concat
  rw [removeBrackets, if_pos ⟨rfl, hlast⟩]
  exact List.dropLast_concat

theorem removeBrackets_of_head_ne (h : s.head? ≠ some leftBracket) : removeBrackets s = s :=
  if_neg fun hbrackets ↦ h hbrackets.1

/-- The brackets that are removed are around the rest. -/
theorem removeBrackets_cases (s : Bytes) :
    removeBrackets s = s ∨ s = leftBracket :: (removeBrackets s ++ [rightBracket]) := by
  rw [removeBrackets]
  split
  · next hbrackets =>
    obtain ⟨hhead, hlast⟩ := hbrackets
    refine .inr ?_
    rcases s with - | ⟨c, s⟩
    · exact absurd hhead (by simp)
    obtain rfl := Option.some.inj hhead
    have hne : s ≠ [] := by
      rintro rfl
      exact absurd (Option.some.inj hlast) (by decide)
    have hsplit := List.dropLast_append_getLast? _ hlast
    rw [List.dropLast_cons_of_ne_nil hne] at hsplit
    exact hsplit.symm
  · exact .inl rfl

namespace InetPton.Documented

variable (hpton : pton.Documented)

include hpton

theorem v4_notMem {b : Vector UInt8 4} {c : UInt8} (h : pton.v4 s = some b)
    (hdigit : isdigit c = false) (hdot : c ≠ dot) : c ∉ s := by
  intro hc
  rcases hpton.v4_chars h c hc with h | h
  · exact absurd h (by simp [hdigit])
  · exact hdot h

theorem v6_notMem {b : Vector UInt8 16} {c : UInt8} (h : pton.v6 s = some b)
    (hdigit : isxdigit c = false) (hcolon : c ≠ colon) (hdot : c ≠ dot) : c ∉ s := by
  intro hc
  rcases hpton.v6_chars h c hc with h | h | h
  · exact absurd h (by simp [hdigit])
  · exact hcolon h
  · exact hdot h

/-- **`FromString` reads the address texts**, with what follows a NUL left out. -/
theorem fromString_eq_iff :
    INetAddress.fromString pton s = a ∧ a.isValid = true ↔ LooseAddressText pton s a := by
  constructor
  · rintro ⟨rfl, hvalid⟩
    rw [INetAddress.fromString] at hvalid ⊢
    split at hvalid
    · next hcolon =>
      rw [if_pos hcolon]
      obtain ⟨rest, hs, hrest⟩ := exists_cStr_append s
      rcases hread : pton.v4 (cStr s) with - | b
      · simp [hread, INetAddress.isValid, INetAddress.isIpv4, INetAddress.isIpv6] at hvalid
      have hnot : colon ∉ rest := fun hmem ↦ hcolon (hs ▸ List.mem_append_right _ hmem)
      have htext := LooseAddressText.ipv4 hread hrest hnot
      rwa [← hs] at htext
    · next hcolon =>
      rw [if_neg hcolon]
      obtain ⟨rest, hs, hrest⟩ := exists_cStr_append (removeBrackets s)
      rcases hread : pton.v6 (cStr (removeBrackets s)) with - | b
      · simp [hread, INetAddress.isValid, INetAddress.isIpv4, INetAddress.isIpv6] at hvalid
      rcases removeBrackets_cases s with hsame | hbrackets
      · have htext := LooseAddressText.ipv6 hread hrest
        rwa [← hs, hsame] at htext
      · have htext := LooseAddressText.bracketed hread hrest
        rwa [← hs, ← hbrackets] at htext
  · intro h
    cases h with
    | @ipv4 s rest b h hrest hcolon =>
      have hnot : colon ∉ s ++ rest := by
        rw [List.mem_append, not_or]
        exact ⟨hpton.v4_notMem h (by decide) (by decide), hcolon⟩
      rw [INetAddress.fromString, if_pos hnot,
        cStr_append (hpton.v4_notMem h (by decide) (by decide)) hrest, h]
      exact ⟨rfl, rfl⟩
    | @ipv6 s rest b h hrest =>
      have hmem : ¬colon ∉ s ++ rest :=
        not_not.2 (List.mem_append_left _ (hpton.v6_colon h))
      have hhead : (s ++ rest).head? ≠ some leftBracket := by
        obtain ⟨c, t, rfl⟩ := List.exists_cons_of_ne_nil (List.ne_nil_of_mem (hpton.v6_colon h))
        intro hc
        obtain rfl : c = leftBracket := Option.some.inj hc
        exact hpton.v6_notMem h (by decide) (by decide) (by decide) List.mem_cons_self
      rw [INetAddress.fromString, if_neg hmem, removeBrackets_of_head_ne hhead,
        cStr_append (hpton.v6_notMem h (by decide) (by decide) (by decide)) hrest, h]
      exact ⟨rfl, rfl⟩
    | @bracketed s rest b h hrest =>
      have hmem : ¬colon ∉ leftBracket :: ((s ++ rest) ++ [rightBracket]) := by
        simp [hpton.v6_colon h]
      rw [INetAddress.fromString, if_neg hmem, removeBrackets_bracketed,
        cStr_append (hpton.v6_notMem h (by decide) (by decide) (by decide)) hrest, h]
      exact ⟨rfl, rfl⟩

end InetPton.Documented

end FromString

end Net
