import Mathlib.Data.Nat.Digits.Defs
import Mathlib.Tactic.IntervalCases
import Udpfwd.Platform.Endian

/-!
# Ethernet frame headers

`EtherFrameHeader` of `veth/EtherPacketStruct.h`: the 16 bytes at the start of a frame, up to an
802.1Q tag. The identifier of a station is made of the six bytes of its MAC, the least significant
first, and the VLAN id above them (`toNat_addressToIdentifier`), so it determines them both
(`identifiers_exact`).
-/

open Endian

namespace Vether

/-- `AddressToIdentifier`. -/
def addressToIdentifier (mac : Vector UInt8 6) (vlanId : UInt16) : UInt64 :=
  mac[0].toUInt64 |||
  mac[1].toUInt64 <<< 8 |||
  mac[2].toUInt64 <<< 16 |||
  mac[3].toUInt64 <<< 24 |||
  mac[4].toUInt64 <<< 32 |||
  mac[5].toUInt64 <<< 40 |||
  vlanId.toUInt64 <<< 48

/-- `vether::EtherFrameHeader`. -/
structure EtherFrameHeader where
  destination : Vector UInt8 6
  source : Vector UInt8 6
  etherType : UInt16
  vlanTag : UInt16

/-- The destination MAC of the bytes of a header. -/
def destinationMac (bytes : Vector UInt8 16) : Vector UInt8 6 :=
  #v[bytes[0], bytes[1], bytes[2], bytes[3], bytes[4], bytes[5]]

/-- The source MAC of the bytes of a header. -/
def sourceMac (bytes : Vector UInt8 16) : Vector UInt8 6 :=
  #v[bytes[6], bytes[7], bytes[8], bytes[9], bytes[10], bytes[11]]

namespace EtherFrameHeader

/-- The header that the bytes in memory are. -/
def ofBytes (bytes : Vector UInt8 16) : EtherFrameHeader where
  destination := destinationMac bytes
  source := sourceMac bytes
  etherType := load16 bytes[12] bytes[13]
  vlanTag := load16 bytes[14] bytes[15]

/-- `GetVlanTag`. -/
def getVlanTag (header : EtherFrameHeader) : UInt16 :=
  if header.etherType = ntoh16 0x8100 then ntoh16 header.vlanTag else 0

/-- `GetVlanId`. -/
def getVlanId (header : EtherFrameHeader) : UInt16 := header.getVlanTag &&& 0x0FFF

/-- `GetDestinationIdentifier`. -/
def getDestinationIdentifier (header : EtherFrameHeader) : UInt64 :=
  addressToIdentifier header.destination header.getVlanId

/-- `GetSourceIdentifier`. -/
def getSourceIdentifier (header : EtherFrameHeader) : UInt64 :=
  addressToIdentifier header.source header.getVlanId

end EtherFrameHeader

/-! ### What an identifier is made of -/

/-- The frame has an 802.1Q tag. -/
def Tagged (bytes : Vector UInt8 16) : Prop := bytes[12] = 0x81 ∧ bytes[13] = 0x00

instance (bytes : Vector UInt8 16) : Decidable (Tagged bytes) :=
  inferInstanceAs (Decidable (_ ∧ _))

/-- The VLAN id of a frame: the low 12 bits of the number in network byte order behind the tag
type, and 0 without a tag. -/
def effectiveVlanId (bytes : Vector UInt8 16) : ℕ :=
  if Tagged bytes then (bytes[14].toNat * 2 ^ 8 + bytes[15].toNat) % 2 ^ 12 else 0

/-- The frames agree in the six bytes from `offset` on, in their type, and in the VLAN id if they
have a tag. -/
structure SameStation (offset : ℕ) (bytes bytes' : Vector UInt8 16) : Prop where
  mac : ∀ i (hi : i < 16), offset ≤ i → i < offset + 6 → bytes[i] = bytes'[i]
  etherType : bytes[12] = bytes'[12] ∧ bytes[13] = bytes'[13]
  vlanId : Tagged bytes → bytes[14].toNat % 2 ^ 4 = bytes'[14].toNat % 2 ^ 4 ∧
    bytes[15] = bytes'[15]

section Identifiers

variable {mac mac' : Vector UInt8 6} {vlanId vlanId' : UInt16} {bytes bytes' : Vector UInt8 16}

/-- The number that the bytes of a MAC are, the first one being the least significant. -/
def macNumber (mac : Vector UInt8 6) : ℕ := Nat.ofDigits (2 ^ 8) (mac.toList.map UInt8.toNat)

theorem digits_lt (mac : Vector UInt8 6) : ∀ n ∈ mac.toList.map UInt8.toNat, n < 2 ^ 8 := by
  intro n hn
  obtain ⟨c, -, rfl⟩ := List.mem_map.1 hn
  exact c.toNat_lt

theorem macNumber_lt (mac : Vector UInt8 6) : macNumber mac < 2 ^ 48 := by
  have hlt := Nat.ofDigits_lt_base_pow_length (by decide) (digits_lt mac)
  rwa [List.length_map, Vector.length_toList] at hlt

theorem macNumber_inj : macNumber mac = macNumber mac' ↔ mac = mac' := by
  constructor
  · intro h
    have hdigits := Nat.ofDigits_inj_of_len_eq (by decide) (by simp) (digits_lt mac)
      (digits_lt mac') h
    exact Vector.toList_inj.1 (List.map_injective_iff.2 (fun _ _ ↦ UInt8.toNat_inj.1) hdigits)
  · rintro rfl
    rfl

/-- The bytes of a MAC, one by one. -/
theorem macNumber_eq (mac : Vector UInt8 6) :
    macNumber mac = mac[0].toNat + mac[1].toNat * 2 ^ 8 + mac[2].toNat * 2 ^ 16 +
      mac[3].toNat * 2 ^ 24 + mac[4].toNat * 2 ^ 32 + mac[5].toNat * 2 ^ 40 := by
  have hbytes : mac.toList = [mac[0], mac[1], mac[2], mac[3], mac[4], mac[5]] := by
    refine List.ext_getElem (by simp) fun i hi _ ↦ ?_
    rw [Vector.length_toList] at hi
    interval_cases i <;> simp
  rw [macNumber, hbytes]
  simp only [List.map_cons, List.map_nil, Nat.ofDigits_cons, Nat.ofDigits_nil]
  omega

/-- **An identifier is the MAC with the VLAN id above it.** -/
theorem toNat_addressToIdentifier :
    (addressToIdentifier mac vlanId).toNat = macNumber mac + vlanId.toNat * 2 ^ 48 := by
  have hmac := macNumber_lt mac
  rw [macNumber_eq] at hmac ⊢
  have h0 := mac[0].toNat_lt
  have h1 := mac[1].toNat_lt
  have h2 := mac[2].toNat_lt
  have h3 := mac[3].toNat_lt
  have h4 := mac[4].toNat_lt
  have hvlanId := vlanId.toNat_lt
  -- each field is put above those that are there already
  have word1 := toNat_or_byte (w := 8) 8 mac[1] rfl
    (UInt8.toNat_toUInt64 mac[0]) h0 (by decide)
  have word2 := toNat_or_byte (w := 16) 16 mac[2] rfl word1 (by omega) (by decide)
  have word3 := toNat_or_byte (w := 24) 24 mac[3] rfl word2 (by omega) (by decide)
  have word4 := toNat_or_byte (w := 32) 32 mac[4] rfl word3 (by omega) (by decide)
  have word5 := toNat_or_byte (w := 40) 40 mac[5] rfl word4 (by omega) (by decide)
  have hfield : vlanId.toUInt64.toNat * 2 ^ 48 < 2 ^ 64 := by
    rw [UInt16.toNat_toUInt64]
    omega
  exact toNat_or_shiftLeft rfl word5 hmac hfield (by decide)

theorem addressToIdentifier_inj :
    addressToIdentifier mac vlanId = addressToIdentifier mac' vlanId' ↔
      mac = mac' ∧ vlanId = vlanId' := by
  rw [← UInt64.toNat_inj, toNat_addressToIdentifier, toNat_addressToIdentifier,
    add_mul_inj (macNumber_lt mac) (macNumber_lt mac'), macNumber_inj, UInt16.toNat_inj]

/-! ### The VLAN id -/

theorem etherType_eq_iff :
    (EtherFrameHeader.ofBytes bytes).etherType = ntoh16 0x8100 ↔ Tagged bytes := by
  rw [show ntoh16 0x8100 = load16 0x81 0x00 from rfl]
  exact load16_inj

/-- `GetVlanTag` reads the tag in network byte order. -/
theorem toNat_getVlanTag : (EtherFrameHeader.ofBytes bytes).getVlanTag.toNat =
    if Tagged bytes then bytes[15].toNat + bytes[14].toNat * 2 ^ 8 else 0 := by
  rw [EtherFrameHeader.getVlanTag, if_congr etherType_eq_iff rfl rfl, apply_ite UInt16.toNat]
  exact if_congr Iff.rfl toNat_ntoh16_load16 rfl

theorem getVlanTag_of_not_tagged (h : ¬Tagged bytes) :
    (EtherFrameHeader.ofBytes bytes).getVlanTag = 0 := by
  rw [← UInt16.toNat_inj, toNat_getVlanTag, if_neg h]
  rfl

/-- **`GetVlanId` is the effective VLAN id.** -/
theorem toNat_getVlanId :
    (EtherFrameHeader.ofBytes bytes).getVlanId.toNat = effectiveVlanId bytes := by
  rw [EtherFrameHeader.getVlanId, UInt16.toNat_and, toNat_getVlanTag, effectiveVlanId]
  show _ &&& 2 ^ 12 - 1 = _
  rw [Nat.and_two_pow_sub_one_eq_mod]
  split
  · rw [Nat.add_comm]
  · rfl

theorem identifier_eq_iff : addressToIdentifier mac (EtherFrameHeader.ofBytes bytes).getVlanId =
    addressToIdentifier mac' (EtherFrameHeader.ofBytes bytes').getVlanId ↔
      mac = mac' ∧ effectiveVlanId bytes = effectiveVlanId bytes' := by
  rw [addressToIdentifier_inj, ← UInt16.toNat_inj, toNat_getVlanId, toNat_getVlanId]

theorem destinationMac_congr (h : ∀ i (hi : i < 6), bytes[i] = bytes'[i]) :
    destinationMac bytes = destinationMac bytes' := by
  simp [destinationMac, h]

theorem sourceMac_congr (h : ∀ i (hi : i < 6), bytes[6 + i] = bytes'[6 + i]) :
    sourceMac bytes = sourceMac bytes' := by
  simp [sourceMac, h 0, h 1, h 2, h 3, h 4, h 5]

namespace SameStation

variable {offset : ℕ}

/-- Of the tag only the VLAN id matters, and nothing behind the type if there is no tag. -/
theorem effectiveVlanId_eq (h : SameStation offset bytes bytes') :
    effectiveVlanId bytes = effectiveVlanId bytes' := by
  have htagged : Tagged bytes ↔ Tagged bytes' := by
    rw [Tagged, Tagged, h.etherType.1, h.etherType.2]
  rw [effectiveVlanId, effectiveVlanId, if_congr htagged.symm rfl rfl]
  split
  · next ht =>
    obtain ⟨hlow, hbyte⟩ := h.vlanId ht
    rw [hbyte]
    omega
  · rfl

end SameStation

/-- **The identifiers are exact keys.** Two frames have the same source identifier exactly if they
have the same source MAC and the same effective VLAN id, and likewise for the destination. So
neither the priority bits of a tag, nor what follows the type of a frame without a tag, nor the
other MAC matters, and a host has the same identifier as a source and as a destination. -/
theorem identifiers_exact (bytes bytes' : Vector UInt8 16) :
    ((EtherFrameHeader.ofBytes bytes).getSourceIdentifier =
        (EtherFrameHeader.ofBytes bytes').getSourceIdentifier ↔
      sourceMac bytes = sourceMac bytes' ∧ effectiveVlanId bytes = effectiveVlanId bytes') ∧
    ((EtherFrameHeader.ofBytes bytes).getDestinationIdentifier =
        (EtherFrameHeader.ofBytes bytes').getDestinationIdentifier ↔
      destinationMac bytes = destinationMac bytes' ∧
        effectiveVlanId bytes = effectiveVlanId bytes') ∧
    ((EtherFrameHeader.ofBytes bytes).getSourceIdentifier =
        (EtherFrameHeader.ofBytes bytes').getDestinationIdentifier ↔
      sourceMac bytes = destinationMac bytes' ∧ effectiveVlanId bytes = effectiveVlanId bytes') ∧
    (SameStation 6 bytes bytes' → (EtherFrameHeader.ofBytes bytes).getSourceIdentifier =
      (EtherFrameHeader.ofBytes bytes').getSourceIdentifier) ∧
    (SameStation 0 bytes bytes' → (EtherFrameHeader.ofBytes bytes).getDestinationIdentifier =
      (EtherFrameHeader.ofBytes bytes').getDestinationIdentifier) :=
  ⟨identifier_eq_iff, identifier_eq_iff, identifier_eq_iff,
    fun h ↦ identifier_eq_iff.2
      ⟨sourceMac_congr fun i hi ↦ h.mac (6 + i) (by omega) (by omega) (by omega),
        h.effectiveVlanId_eq⟩,
    fun h ↦ identifier_eq_iff.2
      ⟨destinationMac_congr fun i hi ↦ h.mac i (by omega) (by omega) (by omega),
        h.effectiveVlanId_eq⟩⟩

end Identifiers

end Vether
