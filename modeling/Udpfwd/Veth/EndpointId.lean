import Mathlib.Data.UInt

/-!
# Endpoint ids

The 64-bit ids of `veth/EndpointId.h`. The header gives them a layout: a type of 8 bits, a
network id of 24 bits and a stream or tap id of 32 bits, from the top down. `GetNetworkId`
shifts by 24 instead of 32, so what it returns is the network id only if this is 0 and the
stream id below it is small (`layoutAt_iff`).
-/

namespace Vether

/-- `vether::EndpointId`. -/
structure EndpointId where
  id : UInt64
  deriving DecidableEq

namespace EndpointId

/-- `GetType`. -/
def getType (e : EndpointId) : UInt8 := (e.id >>> 56).toUInt8

/-- `GetNetworkId`. -/
def getNetworkId (e : EndpointId) : UInt32 := (e.id >>> 24).toUInt32

/-- `GetStreamId`. -/
def getStreamId (e : EndpointId) : UInt32 := e.id.toUInt32

/-- `GetTapId`. -/
def getTapId (e : EndpointId) : UInt32 := e.id.toUInt32

/-- The number composed of what the accessors return. -/
def composed (e : EndpointId) : ℕ :=
  e.getType.toNat * 2 ^ 56 + e.getNetworkId.toNat * 2 ^ 32 + e.getStreamId.toNat

/-- The id that the layout gives to a type, a network id and a stream or tap id. -/
def ofLayout (type networkId streamId : ℕ) : EndpointId :=
  ⟨.ofNat (type * 2 ^ 56 + networkId * 2 ^ 32 + streamId)⟩

/-- The accessors agree with the layout at an id with the given components: they return them,
the id is composed of what they return, and no other id has the same. -/
structure LayoutAt (type networkId streamId : ℕ) : Prop where
  getType : (ofLayout type networkId streamId).getType.toNat = type
  getNetworkId : (ofLayout type networkId streamId).getNetworkId.toNat = networkId
  getStreamId : (ofLayout type networkId streamId).getStreamId.toNat = streamId
  getTapId : (ofLayout type networkId streamId).getTapId.toNat = streamId
  composed : (ofLayout type networkId streamId).composed =
    (ofLayout type networkId streamId).id.toNat
  unique : ∀ e, e.getType = (ofLayout type networkId streamId).getType →
    e.getNetworkId = (ofLayout type networkId streamId).getNetworkId →
      e.getStreamId = (ofLayout type networkId streamId).getStreamId →
        e = ofLayout type networkId streamId

section Accessors

variable (e : EndpointId) {type networkId streamId : ℕ}

/-! ### What the accessors cut out -/

theorem toNat_getType : e.getType.toNat = e.id.toNat / 2 ^ 56 := by
  have hlt := e.id.toNat_lt
  rw [getType, UInt64.toNat_toUInt8, UInt64.toNat_shiftRight, Nat.shiftRight_eq_div_pow]
  show e.id.toNat / 2 ^ 56 % 2 ^ 8 = _
  omega

/-- The 32 bits from bit 24 on, which reach into the stream id. -/
theorem toNat_getNetworkId : e.getNetworkId.toNat = e.id.toNat / 2 ^ 24 % 2 ^ 32 := by
  rw [getNetworkId, UInt64.toNat_toUInt32, UInt64.toNat_shiftRight, Nat.shiftRight_eq_div_pow]
  rfl

theorem toNat_getStreamId : e.getStreamId.toNat = e.id.toNat % 2 ^ 32 := by
  rw [getStreamId, UInt64.toNat_toUInt32]

/-- Equal components make equal ids: together the accessors look at every bit. -/
theorem eq_of_components {e e' : EndpointId} (htype : e.getType = e'.getType)
    (hnetwork : e.getNetworkId = e'.getNetworkId) (hstream : e.getStreamId = e'.getStreamId) :
    e = e' := by
  rw [← UInt8.toNat_inj, toNat_getType, toNat_getType] at htype
  rw [← UInt32.toNat_inj, toNat_getNetworkId, toNat_getNetworkId] at hnetwork
  rw [← UInt32.toNat_inj, toNat_getStreamId, toNat_getStreamId] at hstream
  have hid : e.id.toNat = e'.id.toNat := by omega
  exact congrArg mk (UInt64.toNat_inj.1 hid)

/-- Every id has components. -/
theorem exists_ofLayout : ∃ type networkId streamId, type < 2 ^ 8 ∧ networkId < 2 ^ 24 ∧
    streamId < 2 ^ 32 ∧ e = ofLayout type networkId streamId := by
  have hlt := e.id.toNat_lt
  refine ⟨e.id.toNat / 2 ^ 56, e.id.toNat / 2 ^ 32 % 2 ^ 24, e.id.toNat % 2 ^ 32,
    by omega, by omega, by omega, ?_⟩
  have hsum : e.id.toNat / 2 ^ 56 * 2 ^ 56 + e.id.toNat / 2 ^ 32 % 2 ^ 24 * 2 ^ 32 +
      e.id.toNat % 2 ^ 32 = e.id.toNat := by omega
  rw [ofLayout, hsum, UInt64.ofNat_toNat]

variable (htype : type < 2 ^ 8) (hnetwork : networkId < 2 ^ 24) (hstream : streamId < 2 ^ 32)

include htype hnetwork hstream

theorem toNat_ofLayout : (ofLayout type networkId streamId).id.toNat =
    type * 2 ^ 56 + networkId * 2 ^ 32 + streamId := by
  rw [ofLayout, UInt64.toNat_ofNat']
  omega

theorem toNat_getNetworkId_ofLayout : (ofLayout type networkId streamId).getNetworkId.toNat =
    networkId * 2 ^ 8 + streamId / 2 ^ 24 := by
  rw [toNat_getNetworkId, toNat_ofLayout htype hnetwork hstream]
  omega

/-- **The accessors agree with the layout exactly at the ids whose network id is 0 and whose
stream id has 24 bits.** Every id is one of those that the theorem is about
(`exists_ofLayout`). -/
theorem layoutAt_iff : LayoutAt type networkId streamId ↔ networkId = 0 ∧ streamId < 2 ^ 24 := by
  have hid := toNat_ofLayout htype hnetwork hstream
  have hcut := toNat_getNetworkId_ofLayout htype hnetwork hstream
  constructor
  · intro h
    have hnetwork' := h.getNetworkId
    omega
  · rintro ⟨rfl, hsmall⟩
    have htype' : (ofLayout type 0 streamId).getType.toNat = type := by
      rw [toNat_getType, hid]
      omega
    have hnetwork' : (ofLayout type 0 streamId).getNetworkId.toNat = 0 := by
      rw [hcut]
      omega
    have hstream' : (ofLayout type 0 streamId).getStreamId.toNat = streamId := by
      rw [toNat_getStreamId, hid]
      omega
    exact
      { getType := htype'
        getNetworkId := hnetwork'
        getStreamId := hstream'
        getTapId := hstream'
        composed := by rw [EndpointId.composed, htype', hnetwork', hstream', hid]
        unique := fun _ ↦ eq_of_components }

end Accessors

theorem tap_layoutAt_iff : LayoutAt 1 0 7 ↔ 0 = 0 ∧ 7 < 2 ^ 24 :=
  layoutAt_iff (by decide) (by decide) (by decide)

/-- The stream 7 of the network 1 seems to be in the network 256. -/
theorem stream_not_layoutAt : (ofLayout 2 1 7).getNetworkId = 256 ∧ ¬LayoutAt 2 1 7 := by
  have hcut : (ofLayout 2 1 7).getNetworkId = 256 := by decide
  refine ⟨hcut, fun h ↦ ?_⟩
  have hnetwork := h.getNetworkId
  rw [hcut] at hnetwork
  exact absurd hnetwork (by decide)

end EndpointId

end Vether
