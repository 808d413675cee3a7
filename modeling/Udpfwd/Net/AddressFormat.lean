import Udpfwd.Net.AddressText
import Udpfwd.Text.Format

/-!
# Internet addresses as text

`INetAddress::ToString`, and that `FromString` reads its texts back. `INetSocketAddress::ToString`
puts a port behind it. The text is written by
`inet_ntop`, which is not part of the sources: `InetNtop` stands for it, and `ReadsBack` is
what is relied on for one address.
-/

open Text

namespace Net

/-- `inet_ntop`, for `AF_INET` and for `AF_INET6`: the bytes that it writes into the buffer. -/
structure InetNtop where
  v4 : Vector UInt8 4 → Bytes
  v6 : Vector UInt8 16 → Bytes

/-- `net::INetAddress::ToString`. The buffer is zeroed before, and what it holds up to the first
NUL is returned. -/
def INetAddress.toString (ntop : InetNtop) : INetAddress → Bytes
  | .ipv4 mAddr4 => cStr (ntop.v4 mAddr4)
  | .ipv6 mAddr6 => cStr (ntop.v6 mAddr6)
  -- "(none)"
  | .none => [0x28, 0x6E, 0x6F, 0x6E, 0x65, 0x29]

/-- `net::INetSocketAddress::ToString`. -/
def INetSocketAddress.toString (ntop : InetNtop) (a : INetSocketAddress) : Bytes :=
  if a.address.isIpv6 then
    leftBracket :: (a.address.toString ntop ++ [rightBracket]) ++ colon :: format a.port.toNat
  else a.address.toString ntop ++ colon :: format a.port.toNat

/-- `inet_pton` inverts `inet_ntop` at the address `a`; its text has a colon exactly if it is an
IPv6 address, and no bracket. -/
structure ReadsBack (pton : InetPton) (ntop : InetNtop) (a : INetAddress) : Prop where
  v4 : ∀ b, a = .ipv4 b → pton.v4 (a.toString ntop) = some b
  v6 : ∀ b, a = .ipv6 b → pton.v6 (a.toString ntop) = some b
  colon_iff : colon ∈ a.toString ntop ↔ a.isIpv6 = true
  leftBracket_notMem : leftBracket ∉ a.toString ntop

section ToString

variable {pton : InetPton} {ntop : InetNtop} {a : INetAddress}

theorem nul_notMem_cStr (s : Bytes) : 0 ∉ cStr s :=
  fun h ↦ absurd (List.mem_takeWhile_imp h) (by simp)

theorem cStr_eq_self {s : Bytes} (h : 0 ∉ s) : cStr s = s := by
  have hnil : AfterNul [] := nofun
  simpa using cStr_append h hnil

theorem nul_notMem_toString (ntop : InetNtop) (a : INetAddress) : 0 ∉ a.toString ntop := by
  cases a with
  | none =>
    show (0 : UInt8) ∉ [0x28, 0x6E, 0x6F, 0x6E, 0x65, 0x29]
    decide
  | ipv4 b => exact nul_notMem_cStr _
  | ipv6 b => exact nul_notMem_cStr _

/-- **`FromString` inverts `ToString`**, with brackets around an IPv6 address too. -/
theorem ReadsBack.fromString_bracketed (h : ReadsBack pton ntop a) (ha : a.isIpv6 = true) :
    INetAddress.fromString pton (leftBracket :: (a.toString ntop ++ [rightBracket])) = a := by
  have hcolon : ¬colon ∉ leftBracket :: (a.toString ntop ++ [rightBracket]) := by
    simp [h.colon_iff.2 ha]
  rw [INetAddress.fromString, if_neg hcolon, removeBrackets_bracketed,
    cStr_eq_self (nul_notMem_toString ntop a)]
  cases a with
  | none => exact absurd ha (by decide)
  | ipv4 b => exact absurd ha (by simp [INetAddress.isIpv6])
  | ipv6 b => rw [h.v6 b rfl]

theorem ReadsBack.fromString_toString (h : ReadsBack pton ntop a) (ha : a.isValid = true) :
    INetAddress.fromString pton (a.toString ntop) = a := by
  have hcStr := cStr_eq_self (nul_notMem_toString ntop a)
  cases a with
  | none => exact absurd ha (by decide)
  | ipv4 b =>
    have hcolon : colon ∉ INetAddress.toString ntop (.ipv4 b) :=
      fun hmem ↦ absurd (h.colon_iff.1 hmem) (by simp [INetAddress.isIpv6])
    rw [INetAddress.fromString, if_pos hcolon, hcStr, h.v4 b rfl]
  | ipv6 b =>
    have hhead : (INetAddress.toString ntop (.ipv6 b)).head? ≠ some leftBracket :=
      fun hhead ↦ h.leftBracket_notMem (List.mem_of_head? hhead)
    rw [INetAddress.fromString, if_neg (not_not.2 (h.colon_iff.2 rfl)),
      removeBrackets_of_head_ne hhead, hcStr, h.v6 b rfl]

end ToString

end Net
