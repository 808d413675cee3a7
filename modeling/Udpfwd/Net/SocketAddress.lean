import Mathlib.Data.UInt

/-!
# Internet addresses and socket addresses

`INetAddress` is the tagged union of `common/INetAddress.h`: the tag is the constructor and
the active member of the union is its field, so the `operator==` of the source, which
compares the tags and then the active members, is equality here.

`SockAddr` is what the socket calls exchange: the structures `sockaddr_in` and
`sockaddr_in6` that the source overlays on one buffer and tells apart by `sa_family`, and
an address of any other family. Ports inside a `SockAddr` are in network byte order.
-/

namespace Net

/-- `net::INetAddress`: an address in network byte order, or none. -/
inductive INetAddress
  | none
  | ipv4 (mAddr4 : Vector UInt8 4)
  | ipv6 (mAddr6 : Vector UInt8 16)
  deriving DecidableEq

namespace INetAddress

/-- `net::INetAddress::IsIpv4`. -/
def isIpv4 : INetAddress → Bool
  | ipv4 _ => true
  | _ => false

/-- `net::INetAddress::IsIpv6`. -/
def isIpv6 : INetAddress → Bool
  | ipv6 _ => true
  | _ => false

/-- `net::INetAddress::IsValid`. -/
def isValid (a : INetAddress) : Bool := a.isIpv4 || a.isIpv6

/-- `net::constants::IPV4_ANY`. -/
def ipv4Any : INetAddress := ipv4 (Vector.replicate 4 0)

/-- `net::constants::IPV6_ANY`. -/
def ipv6Any : INetAddress := ipv6 (Vector.replicate 16 0)

end INetAddress

/-- `net::INetSocketAddress`: an address and a port in host byte order. -/
structure INetSocketAddress where
  address : INetAddress := .none
  port : UInt16 := 0
  deriving DecidableEq

/-- `net::INetSocketAddress::IsValid`. -/
def INetSocketAddress.isValid (a : INetSocketAddress) : Bool := a.address.isValid

/-- The socket addresses of the kernel interface. -/
inductive SockAddr
  | in4 (sin_port : UInt16) (sin_addr : Vector UInt8 4)
  | in6 (sin6_port : UInt16) (sin6_flowinfo : UInt32) (sin6_addr : Vector UInt8 16)
      (sin6_scope_id : UInt32)
  | other (sa_family : UInt16)
  deriving DecidableEq

/-- `sa_family`; `AF_INET` is 2 and `AF_INET6` is 10. -/
def SockAddr.family : SockAddr → UInt16
  | in4 .. => 2
  | in6 .. => 10
  | other sa_family => sa_family

/-- `sizeof(sockaddr_in6)`. -/
def sizeofSockaddrIn6 : ℕ := 28

/-- `htons` on a little-endian host: the two bytes are swapped. -/
def htons (port : UInt16) : UInt16 := (port >>> 8) ||| (port <<< 8)

/-- `ntohs` on a little-endian host: the same swap. -/
def ntohs (port : UInt16) : UInt16 := (port >>> 8) ||| (port <<< 8)

/-- `net::ToLinuxSocketAddress`. The structure is zeroed first, so the flow label and the
scope of an IPv6 address are `0`. -/
def toLinuxSocketAddress (a : INetSocketAddress) : Option SockAddr :=
  match a.address with
  | .ipv4 bytes => some (.in4 (htons a.port) bytes)
  | .ipv6 bytes => some (.in6 (htons a.port) 0 bytes 0)
  | .none => none

/-- `net::ToSocketAddress`. -/
def toSocketAddress : SockAddr → Option INetSocketAddress
  | .in4 port bytes => some ⟨.ipv4 bytes, ntohs port⟩
  | .in6 port _ bytes _ => some ⟨.ipv6 bytes, ntohs port⟩
  | .other _ => none

/-- Only addresses with a family convert. -/
theorem isSome_toLinuxSocketAddress (a : INetSocketAddress) :
    (toLinuxSocketAddress a).isSome = a.isValid := by
  rcases a with ⟨- | _ | _, _⟩ <;> rfl

/-! ### The way back to a peer -/

/-- Every bit moves by eight places. -/
theorem getLsbD_ntohs (port : UInt16) {i : ℕ} (hi : i < 16) :
    (ntohs port).toBitVec.getLsbD i = port.toBitVec.getLsbD ((i + 8) % 16) := by
  rw [ntohs, UInt16.toBitVec_or, UInt16.toBitVec_shiftRight, UInt16.toBitVec_shiftLeft]
  rcases Nat.lt_or_ge i 8 with hlow | hhigh
  · have hfrom : (i + 8) % 16 = 8 + i := by omega
    simp [hfrom, hlow]
  · have hfrom : (i + 8) % 16 = i - 8 := by omega
    have hzero : port.toBitVec.getLsbD (8 + i) = false :=
      BitVec.getLsbD_of_ge _ _ (by omega)
    have hbound : i - 8 < 16 := by omega
    simp [hfrom, hi, hhigh.not_gt, hzero, BitVec.getLsbD_eq_getElem hbound]

/-- Swapping the bytes of a port twice. -/
theorem htons_ntohs (port : UInt16) : htons (ntohs port) = port := by
  rw [← UInt16.toBitVec_inj]
  refine BitVec.eq_of_getLsbD_eq fun i hi ↦ ?_
  have hfrom : ((i + 8) % 16 + 8) % 16 = i := by omega
  rw [show htons = ntohs from rfl, getLsbD_ntohs _ hi,
    getLsbD_ntohs _ (Nat.mod_lt _ (by decide)), hfrom]

theorem ntohs_inj {port port' : UInt16} : ntohs port = ntohs port' ↔ port = port' :=
  (Function.LeftInverse.injective htons_ntohs).eq_iff

/-- What identifies the peer that a socket address belongs to; the port is in network byte
order. -/
structure Peer where
  family : UInt16
  port : UInt16
  address : List UInt8
  scopeId : UInt32
  deriving DecidableEq

/-- The peer of a socket address. Only an IPv6 address has a scope. -/
def SockAddr.peer : SockAddr → Peer
  | in4 port bytes => ⟨2, port, bytes.toList, 0⟩
  | in6 port _ bytes scope => ⟨10, port, bytes.toList, scope⟩
  | other family => ⟨family, 0, [], 0⟩

/-- A socket address of the family `AF_INET` or `AF_INET6`, as a datagram socket of one of
these families reports it. -/
def SockAddr.isInternet : SockAddr → Bool
  | in4 .. | in6 .. => true
  | other _ => false

/-- An address is sent to as it was received from, up to the scope. -/
theorem toLinuxSocketAddress_toSocketAddress {sa : SockAddr} (hsa : sa.isInternet) :
    ∃ a sa', toSocketAddress sa = some a ∧ toLinuxSocketAddress a = some sa' ∧
      sa'.peer = { sa.peer with scopeId := 0 } := by
  cases sa with
  | in4 port bytes =>
    refine ⟨_, _, rfl, rfl, ?_⟩
    simp [SockAddr.peer, htons_ntohs]
  | in6 port flowinfo bytes scope =>
    refine ⟨_, _, rfl, rfl, ?_⟩
    simp [SockAddr.peer, htons_ntohs]
  | other => cases hsa

/-- What is sent to an address as it is kept goes to the peer that it was read from, up to the
scope. -/
theorem peer_eq_of_kept {sa sa' : SockAddr} {a : INetSocketAddress}
    (ha : toSocketAddress sa = some a) (hsa' : toLinuxSocketAddress a = some sa') :
    sa'.peer = { sa.peer with scopeId := 0 } := by
  have hsa : sa.isInternet := by
    cases sa with
    | in4 | in6 => rfl
    | other => cases ha
  obtain ⟨b, sb, hb, hsb, hpeer⟩ := toLinuxSocketAddress_toSocketAddress hsa
  obtain rfl : a = b := Option.some.inj (ha.symm.trans hb)
  obtain rfl : sa' = sb := Option.some.inj (hsa'.symm.trans hsb)
  exact hpeer

/-- Two addresses are read alike when they differ in the scope at most. -/
theorem toSocketAddress_eq_iff {sa sb : SockAddr} (hsa : sa.isInternet) (hsb : sb.isInternet) :
    toSocketAddress sa = toSocketAddress sb ↔
      { sa.peer with scopeId := 0 } = { sb.peer with scopeId := 0 } := by
  cases sa with
  | in4 | in6 =>
    cases sb with
    | in4 | in6 =>
      simp [toSocketAddress, SockAddr.peer, ntohs_inj, Vector.toList_inj, and_comm]
    | other => cases hsb
  | other => cases hsa

/-- **Replies go back to the peer, up to its scope.** Whatever address a datagram socket
reports, the conversion to the address that is kept and back succeeds, and the family, the
port and the bytes of the address are those of the peer. The scope of an IPv6 address is not
kept. Two datagrams are taken to be from one address exactly when their peers differ in the
scope at most. -/
theorem reply_reaches_peer {sa : SockAddr} (hsa : sa.isInternet) :
    (∃ a sa', toSocketAddress sa = some a ∧ toLinuxSocketAddress a = some sa' ∧
      sa'.peer = { sa.peer with scopeId := 0 }) ∧
    ∀ sb : SockAddr, sb.isInternet → (toSocketAddress sa = toSocketAddress sb ↔
      { sa.peer with scopeId := 0 } = { sb.peer with scopeId := 0 }) :=
  ⟨toLinuxSocketAddress_toSocketAddress hsa, fun _ hsb ↦ toSocketAddress_eq_iff hsa hsb⟩

/-- The link-local address `fe80::1` on the interface `scope`, with the port 50000. -/
def linkLocal (scope : UInt32) : SockAddr :=
  .in6 (htons 50000) 0 #v[0xfe, 0x80, 0, 0, 0, 0, 0, 0, 0, 0, 0, 0, 0, 0, 0, 1] scope

/-- A peer without a scope is replied to exactly. -/
theorem linkLocal_zero_reached :
    ∃ a sa', toSocketAddress (linkLocal 0) = some a ∧ toLinuxSocketAddress a = some sa' ∧
      sa'.peer = { (linkLocal 0).peer with scopeId := 0 } :=
  (reply_reaches_peer (show (linkLocal 0).isInternet from rfl)).1

/-- The replies to `fe80::1%2` go to no interface in particular, and `fe80::1%3` is taken for
the same peer. -/
theorem linkLocal_scope_lost :
    (linkLocal 2).isInternet ∧ (linkLocal 3).isInternet ∧
      (linkLocal 2).peer ≠ (linkLocal 3).peer ∧
      toSocketAddress (linkLocal 2) = toSocketAddress (linkLocal 3) ∧
      (toSocketAddress (linkLocal 2)).bind toLinuxSocketAddress = some (linkLocal 0) ∧
      (linkLocal 0).peer ≠ (linkLocal 2).peer := by
  decide

end Net
