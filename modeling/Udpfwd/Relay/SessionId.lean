import Mathlib.Tactic.Ring
import Udpfwd.Relay.Worker

/-!
# Session ids

The id of a client's session is read off the four bytes of a WireGuard header: the type byte
is shifted out, and what is left, the three reserved bytes, is tagged with a `2` above bit
32. So two valid packets have the same id exactly when they have the same reserved bytes.
-/

namespace WgRelay

/-- Bytes 1 to 3 of a packet, the reserved field of the WireGuard header. -/
def reservedBytes (packet : Packet) : UInt8 × UInt8 × UInt8 :=
  (packet.getD 1 0, packet.getD 2 0, packet.getD 3 0)

/-- Or-ing a byte above what is there already adds it. -/
private theorem or_shiftLeft_eq_add {a b i : ℕ} (h : a < 2 ^ i) :
    a ||| b <<< i = a + b * 2 ^ i := by
  rw [Nat.or_comm, ← Nat.shiftLeft_add_eq_or_of_lt h, Nat.shiftLeft_eq, Nat.add_comm]

/-- The header word, in the byte order of a little-endian host. -/
theorem toNat_typeAndReserved (packet : Packet) :
    (typeAndReserved packet).toNat =
      (packet.getD 0 0).toNat + (packet.getD 1 0).toNat * 2 ^ 8 +
        (packet.getD 2 0).toNat * 2 ^ 16 + (packet.getD 3 0).toNat * 2 ^ 24 := by
  have h₀ := (packet.getD 0 0).toNat_lt
  have h₁ := (packet.getD 1 0).toNat_lt
  have h₂ := (packet.getD 2 0).toNat_lt
  have h₃ := (packet.getD 3 0).toNat_lt
  have hshift : ∀ (b : UInt8) (i : ℕ), i ≤ 24 → b.toNat <<< i % 2 ^ 32 = b.toNat <<< i := by
    intro b i hi
    refine Nat.mod_eq_of_lt ?_
    rw [Nat.shiftLeft_eq]
    calc b.toNat * 2 ^ i < 2 ^ 8 * 2 ^ i := (Nat.mul_lt_mul_right (Nat.two_pow_pos i)).2 b.toNat_lt
      _ ≤ 2 ^ 8 * 2 ^ 24 := Nat.mul_le_mul_left _ (Nat.pow_le_pow_right (by omega) hi)
      _ = 2 ^ 32 := by norm_num
  simp only [typeAndReserved, UInt32.toNat_or, UInt32.toNat_shiftLeft, UInt8.toNat_toUInt32]
  rw [show (8 : UInt32).toNat % 32 = 8 from rfl, show (16 : UInt32).toNat % 32 = 16 from rfl,
    show (24 : UInt32).toNat % 32 = 24 from rfl, hshift _ 8 (by omega), hshift _ 16 (by omega),
    hshift _ 24 (by omega), or_shiftLeft_eq_add h₀]
  have h₀₁ : (packet.getD 0 0).toNat + (packet.getD 1 0).toNat * 2 ^ 8 < 2 ^ 16 := by omega
  rw [or_shiftLeft_eq_add h₀₁, or_shiftLeft_eq_add (by omega)]

/-- The reserved value: the type byte is shifted out. -/
theorem toNat_reservedValue (packet : Packet) :
    (typeAndReserved packet >>> 8).toNat =
      (packet.getD 1 0).toNat + (packet.getD 2 0).toNat * 2 ^ 8 +
        (packet.getD 3 0).toNat * 2 ^ 16 := by
  have h₀ := (packet.getD 0 0).toNat_lt
  rw [UInt32.toNat_shiftRight, toNat_typeAndReserved,
    show (8 : UInt32).toNat % 32 = 8 from rfl, Nat.shiftRight_eq_div_pow]
  omega

/-- The reserved value has 24 bits. -/
theorem reservedValue_lt (packet : Packet) :
    (typeAndReserved packet >>> 8).toNat < 2 ^ 24 := by
  have h₁ := (packet.getD 1 0).toNat_lt
  have h₂ := (packet.getD 2 0).toNat_lt
  have h₃ := (packet.getD 3 0).toNat_lt
  rw [toNat_reservedValue]
  omega

/-- Packets have the same reserved value exactly when they have the same reserved bytes. -/
theorem reservedValue_eq_iff {p q : Packet} :
    typeAndReserved p >>> 8 = typeAndReserved q >>> 8 ↔ reservedBytes p = reservedBytes q := by
  rw [← UInt32.toNat_inj, toNat_reservedValue, toNat_reservedValue]
  simp only [reservedBytes, Prod.mk.injEq, ← UInt8.toNat_inj]
  have hp₁ := (p.getD 1 0).toNat_lt
  have hp₂ := (p.getD 2 0).toNat_lt
  have hp₃ := (p.getD 3 0).toNat_lt
  have hq₁ := (q.getD 1 0).toNat_lt
  have hq₂ := (q.getD 2 0).toNat_lt
  have hq₃ := (q.getD 3 0).toNat_lt
  omega

/-- Tagging a reserved value adds `2 * 2 ^ 32`. -/
theorem toNat_tagged (r : UInt32) :
    (((2 : UInt64) <<< 32) ||| r.toUInt64).toNat = 2 * 2 ^ 32 + r.toNat := by
  rw [UInt64.toNat_or, UInt32.toNat_toUInt64, show ((2 : UInt64) <<< 32).toNat = 2 <<< 32 from rfl,
    ← Nat.shiftLeft_add_eq_or_of_lt r.toNat_lt, Nat.shiftLeft_eq]

/-- **A valid session id**: the packet is long enough, its reserved bytes are not all zero,
and the id is the tagged reserved value. -/
theorem getSessionIdFromClientPacket_ne_zero {packet : Packet} {sid : UInt64}
    (hsid : getSessionIdFromClientPacket packet = sid) (hne : sid ≠ 0) :
    32 ≤ packet.length ∧ typeAndReserved packet >>> 8 ≠ 0 ∧
      sid.toNat = 2 * 2 ^ 32 + (typeAndReserved packet >>> 8).toNat := by
  rw [getSessionIdFromClientPacket] at hsid
  split at hsid
  · exact absurd hsid.symm hne
  next hlen =>
  dsimp only at hsid
  split at hsid
  · next hr => exact ⟨Nat.le_of_not_lt hlen, hr, by rw [← hsid, toNat_tagged]⟩
  · exact absurd hsid.symm hne

/-- The reserved value is zero exactly when the reserved bytes are. -/
theorem reservedValue_eq_zero_iff {packet : Packet} :
    typeAndReserved packet >>> 8 = 0 ↔ reservedBytes packet = (0, 0, 0) := by
  rw [← UInt32.toNat_inj, toNat_reservedValue, show (0 : UInt32).toNat = 0 from rfl]
  simp only [reservedBytes, Prod.mk.injEq, ← UInt8.toNat_inj,
    show (0 : UInt8).toNat = 0 from rfl]
  omega

/-- **Which packets have a session id**: those of at least 32 bytes whose reserved bytes are
not all zero. -/
theorem getSessionIdFromClientPacket_ne_zero_iff {packet : Packet} :
    getSessionIdFromClientPacket packet ≠ 0 ↔
      32 ≤ packet.length ∧ reservedBytes packet ≠ (0, 0, 0) := by
  constructor
  · intro hne
    obtain ⟨hlength, hreserved, -⟩ := getSessionIdFromClientPacket_ne_zero rfl hne
    exact ⟨hlength, reservedValue_eq_zero_iff.not.1 hreserved⟩
  · rintro ⟨hlength, hreserved⟩ hzero
    have hvalue : typeAndReserved packet >>> 8 ≠ 0 := reservedValue_eq_zero_iff.not.2 hreserved
    have htagged := toNat_tagged (typeAndReserved packet >>> 8)
    simp only [getSessionIdFromClientPacket, Nat.not_lt.2 hlength, hvalue, if_false, ne_eq,
      not_false_eq_true, if_true] at hzero
    rw [hzero, show (0 : UInt64).toNat = 0 from rfl] at htagged
    omega

/-- **Session ids are keyed by the reserved bytes.** -/
theorem getSessionIdFromClientPacket_eq_iff {p q : Packet}
    (hp : getSessionIdFromClientPacket p ≠ 0) (hq : getSessionIdFromClientPacket q ≠ 0) :
    getSessionIdFromClientPacket p = getSessionIdFromClientPacket q ↔
      reservedBytes p = reservedBytes q := by
  obtain ⟨-, -, hp'⟩ := getSessionIdFromClientPacket_ne_zero rfl hp
  obtain ⟨-, -, hq'⟩ := getSessionIdFromClientPacket_ne_zero rfl hq
  rw [← reservedValue_eq_iff, ← UInt64.toNat_inj, hp', hq', ← UInt32.toNat_inj]
  omega

end WgRelay
