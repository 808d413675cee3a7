import Udpfwd.Net.AddressFormat
import Udpfwd.Relay.Worker

/-!
# The command line of the relay

`RunWgcfRelay`: the two arguments are an address and a port each, separated by the last colon. The
colons of an IPv6 address come before it, and what is behind it is parsed as the port, up to the
NUL that ends the argument.
-/

open Net Text

namespace WgRelay

/-- `std::string_view::find_last_of`, for one character. -/
def findLastOf (c : UInt8) : Bytes → Option ℕ
  | [] => none
  | d :: s =>
    match findLastOf c s with
    | some pos => some (pos + 1)
    | none => if d = c then some 0 else none

/-- What `RunWgcfRelay` does with each of its arguments: the address, if it is accepted. -/
def parseSocketAddress (pton : InetPton) (addressString : StringView) : Option INetSocketAddress :=
  match findLastOf colon addressString.chars with
  | none => none
  | some pos =>
    let address : INetSocketAddress :=
      { address := .fromString pton (addressString.chars.take pos)
        port := (parseUInt16 ⟨addressString.chars.drop (pos + 1), addressString.after⟩).getD 0 }
    if ¬address.isValid ∨ address.port = 0 then none else some address

/-- What `RunWgcfRelay` logs. -/
inductive StartupMessage
  /-- `Invalid listen address: {}` -/
  | invalidListenAddress (text : Bytes)
  /-- `Invalid forward address: {}` -/
  | invalidForwardAddress (text : Bytes)
  /-- `Failed to setup sockets` -/
  | failedToSetupSockets
  deriving DecidableEq

/-- How far `RunWgcfRelay` gets, and the system calls that it has made. -/
inductive Startup
  | returned (code : ℤ) (log : List StartupMessage) (calls : List Syscall)
  /-- `RunWorker` is entered. -/
  | running (context : WgcfRelayContext) (calls : List Syscall)

/-- `RunWgcfRelay` up to the call of `RunWorker`. -/
def runWgcfRelay (pton : InetPton) (listenAddressString forwardAddressString : StringView)
    (a : SetupAnswers) : Startup :=
  match parseSocketAddress pton listenAddressString with
  | none => .returned 1 [.invalidListenAddress listenAddressString.chars] []
  | some listenAddress =>
    match parseSocketAddress pton forwardAddressString with
    | none => .returned 1 [.invalidForwardAddress forwardAddressString.chars] []
    | some forwardAddress =>
      match setupSockets {} listenAddress forwardAddress a with
      | (.error _, _, calls) => .returned 1 [.failedToSetupSockets] calls
      | (.ok _, context, calls) => .running context calls

section Parsing

variable {pton : InetPton} {ntop : InetNtop} {c : UInt8} {s left right after : Bytes}
  {a : INetSocketAddress}

theorem findLastOf_eq_none (h : c ∉ s) : findLastOf c s = none := by
  induction s with
  | nil => rfl
  | cons d s ih =>
    rw [List.mem_cons, not_or] at h
    rw [findLastOf, ih h.2]
    exact if_neg (Ne.symm h.1)

/-- The last position is the one behind which the character does not occur. -/
theorem findLastOf_append_cons (h : c ∉ right) :
    findLastOf c (left ++ c :: right) = some left.length := by
  induction left with
  | nil =>
    rw [List.nil_append, findLastOf, findLastOf_eq_none h]
    exact if_pos rfl
  | cons d left ih => rw [List.cons_append, findLastOf, ih, List.length_cons]

/-- A character that occurs has a last position. -/
theorem exists_append_cons_of_mem (h : c ∈ s) :
    ∃ left right, s = left ++ c :: right ∧ c ∉ right := by
  obtain ⟨right, left, hs, hright⟩ := List.eq_append_cons_of_mem (List.mem_reverse.2 h)
  refine ⟨left.reverse, right.reverse, ?_, by simpa using hright⟩
  rw [← List.reverse_reverse s, hs]
  simp

/-- **What is accepted**: a text that is read as an address, the last colon, and a text that is read
as a port other than 0. -/
theorem parseSocketAddress_eq_some_iff :
    parseSocketAddress pton ⟨s, after⟩ = some a ↔
      ∃ left right, s = left ++ colon :: right ∧ colon ∉ right ∧
        INetAddress.fromString pton left = a.address ∧ a.isValid = true ∧
        parseUInt16 ⟨right, after⟩ = some a.port ∧ a.port ≠ 0 := by
  -- a text with a colon is parsed on both sides of the last one
  have hsplit : ∀ left right, colon ∉ right →
      (parseSocketAddress pton ⟨left ++ colon :: right, after⟩ = some a ↔
        INetAddress.fromString pton left = a.address ∧ a.isValid = true ∧
          parseUInt16 ⟨right, after⟩ = some a.port ∧ a.port ≠ 0) := by
    intro left right hright
    have hleft : (left ++ colon :: right).take left.length = left := List.take_left
    have hbehind : (left ++ colon :: right).drop (left.length + 1) = right := by
      rw [← List.drop_drop, List.drop_left]
      rfl
    rw [parseSocketAddress, findLastOf_append_cons hright]
    simp only [hleft, hbehind, Option.ite_none_left_eq_some, Option.some.injEq, not_or, not_not]
    constructor
    · rintro ⟨⟨hvalid, hport⟩, rfl⟩
      refine ⟨rfl, hvalid, ?_, hport⟩
      rcases hparse : parseUInt16 ⟨right, after⟩ with - | port
      · rw [hparse] at hport
        exact absurd rfl hport
      · rfl
    · rintro ⟨haddress, hvalid, hparse, hport⟩
      rw [hparse, haddress]
      exact ⟨⟨hvalid, hport⟩, rfl⟩
  constructor
  · intro h
    have hmem : colon ∈ s := by
      by_contra hnot
      rw [parseSocketAddress, findLastOf_eq_none hnot] at h
      cases h
    obtain ⟨left, right, rfl, hright⟩ := exists_append_cons_of_mem hmem
    exact ⟨left, right, rfl, hright, (hsplit left right hright).1 h⟩
  · rintro ⟨left, right, rfl, hright, h⟩
    exact (hsplit left right hright).2 h

/-- The relay runs if both arguments are accepted and the sockets can be set up. -/
theorem runWgcfRelay_eq_running_iff {listen forward : StringView} {answers : SetupAnswers}
    {context : WgcfRelayContext} {calls : List Syscall} :
    runWgcfRelay pton listen forward answers = .running context calls ↔
      ∃ a b, parseSocketAddress pton listen = some a ∧ parseSocketAddress pton forward = some b ∧
        setupSockets {} a b answers = (.ok (), context, calls) := by
  rw [runWgcfRelay]
  rcases parseSocketAddress pton listen with - | a
  · simp
  rcases parseSocketAddress pton forward with - | b
  · simp
  rcases hsetup : setupSockets {} a b answers with ⟨error | done, context', calls'⟩
  · simp [hsetup]
  · simp [hsetup]

/-! ### Addresses that are printed -/

theorem colon_notMem_format (n : ℕ) : colon ∉ format n :=
  fun h ↦ absurd (isdigit_of_mem_format h) (by decide)

/-- What is before the port in `ToString` is read back. -/
theorem exists_toString_eq (h : ReadsBack pton ntop a.address) (ha : a.isValid = true) :
    ∃ left, a.toString ntop = left ++ colon :: format a.port.toNat ∧
      INetAddress.fromString pton left = a.address := by
  rw [INetSocketAddress.toString]
  split
  · next hipv6 => exact ⟨_, rfl, h.fromString_bracketed hipv6⟩
  · exact ⟨_, rfl, h.fromString_toString ha⟩

/-- **Addresses that are printed are accepted on the command line**, and are the same again. -/
theorem parseSocketAddress_toString (h : ReadsBack pton ntop a.address) (ha : a.isValid = true)
    (hport : a.port ≠ 0) : parseSocketAddress pton (.ofString (a.toString ntop)) = some a := by
  obtain ⟨left, htext, haddress⟩ := exists_toString_eq h ha
  exact parseSocketAddress_eq_some_iff.2 ⟨left, format a.port.toNat, htext,
    colon_notMem_format _, haddress, ha, parseUInt16_format _ _, hport⟩

end Parsing

/-- `::ffff:1.2.3.4`: an IPv6 address whose text ends in dotted decimal. -/
def mappedText : Bytes :=
  [0x3A, 0x3A, 0x66, 0x66, 0x66, 0x66, 0x3A, 0x31, 0x2E, 0x32, 0x2E, 0x33, 0x2E, 0x34]

/-- The address `::ffff:1.2.3.4`. -/
def mappedAddress : Vector UInt8 16 := #v[0, 0, 0, 0, 0, 0, 0, 0, 0, 0, 0xFF, 0xFF, 1, 2, 3, 4]

/-- `inet_ntop`, for this address. -/
def mappedNtop : InetNtop where
  v4 _ := []
  v6 _ := mappedText

/-- `inet_pton`, for the text of this address. -/
def mappedPton : InetPton where
  v4 _ := none
  v6 s := if s = mappedText then some mappedAddress else none

theorem mapped_readsBack : ReadsBack mappedPton mappedNtop (.ipv6 mappedAddress) where
  v4 := nofun
  v6 := by rintro b ⟨⟩; decide
  colon_iff := by decide
  leftBracket_notMem := by decide

theorem parse_mapped_toString :
    let a : INetSocketAddress := ⟨.ipv6 mappedAddress, 51820⟩
    a.toString mappedNtop = leftBracket :: (mappedText ++ [rightBracket]) ++
        colon :: [0x35, 0x31, 0x38, 0x32, 0x30] ∧
      parseSocketAddress mappedPton (.ofString (a.toString mappedNtop)) = some a :=
  ⟨by decide, parseSocketAddress_toString (a := ⟨.ipv6 mappedAddress, 51820⟩) mapped_readsBack rfl
    (by decide)⟩

end WgRelay
