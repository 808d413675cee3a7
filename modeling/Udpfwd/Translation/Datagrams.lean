import Udpfwd.Platform.Kernel
import Udpfwd.Translation.Translator

/-!
# Datagrams at a translator

The two workers read the source of a datagram with `net::ToSocketAddress` and make the address
they send to with `net::ToLinuxSocketAddress`. At the translator an address is an
`INetSocketAddress`, so a datagram whose source cannot be read is not received there
(`Datagram.reception`), and one for an address without a family is not sent (`encode`).
-/

open Net

/-- An address that was sent to is read back. -/
theorem toSocketAddress_of_toLinuxSocketAddress {a : INetSocketAddress} {sa : SockAddr}
    (h : toLinuxSocketAddress a = some sa) : toSocketAddress sa = some a := by
  rcases a with ⟨- | bytes | bytes, port⟩
  · exact absurd h (by simp [toLinuxSocketAddress])
  · obtain rfl := Option.some.inj h
    show some (INetSocketAddress.mk (.ipv4 bytes) (ntohs (htons port))) = _
    rw [show ntohs (htons port) = port from htons_ntohs port]
  · obtain rfl := Option.some.inj h
    show some (INetSocketAddress.mk (.ipv6 bytes) (ntohs (htons port))) = _
    rw [show ntohs (htons port) = port from htons_ntohs port]

/-- An address that was read can be sent to. -/
theorem exists_toLinuxSocketAddress {a : INetSocketAddress} {sa : SockAddr}
    (h : toSocketAddress sa = some a) : ∃ target, toLinuxSocketAddress a = some target := by
  cases sa with
  | in4 | in6 =>
    obtain rfl := Option.some.inj h
    exact ⟨_, rfl⟩
  | other => exact absurd h (by simp [toSocketAddress])

theorem isValid_of_toSocketAddress {a : INetSocketAddress} {sa : SockAddr}
    (h : toSocketAddress sa = some a) : a.isValid = true := by
  obtain ⟨target, htarget⟩ := exists_toLinuxSocketAddress h
  rw [← isSome_toLinuxSocketAddress, htarget, Option.isSome_some]

/-- What a worker receives on `fd`, when it can read the source. -/
def Datagram.reception (fd : SocketHandle) (d : Datagram) :
    Option (Translation.Reception SocketHandle INetSocketAddress Packet) :=
  if d.addrLen ≤ sizeofSockaddrIn6 then (toSocketAddress d.source).map (⟨fd, ·, d.payload⟩)
  else none

theorem Datagram.reception_of_source (fd : SocketHandle) {d : Datagram}
    {source : INetSocketAddress} (hlen : d.addrLen ≤ sizeofSockaddrIn6)
    (hsource : toSocketAddress d.source = some source) :
    d.reception fd = some ⟨fd, source, d.payload⟩ := by
  rw [reception, if_pos hlen, hsource]
  rfl

theorem Datagram.reception_eq_some {fd : SocketHandle} {d : Datagram}
    {r : Translation.Reception SocketHandle INetSocketAddress Packet} :
    d.reception fd = some r ↔ d.addrLen ≤ sizeofSockaddrIn6 ∧
      toSocketAddress d.source = some r.source ∧ r.socket = fd ∧ r.packet = d.payload := by
  rw [reception, Option.ite_none_right_eq_some, Option.map_eq_some_iff]
  constructor
  · rintro ⟨hlen, source, hsource, rfl⟩
    exact ⟨hlen, hsource, rfl, rfl⟩
  · rintro ⟨hlen, hsource, rfl, hpacket⟩
    exact ⟨hlen, r.source, hsource, by rw [← hpacket]⟩

/-- The call of `sendto` for what leaves the translator. -/
def encode (s : Translation.Sending SocketHandle INetSocketAddress Packet) : Option Sent :=
  (toLinuxSocketAddress s.target).map (⟨s.socket, s.packet, ·⟩)

theorem encode_eq_some {s : Translation.Sending SocketHandle INetSocketAddress Packet}
    {send : Sent} : encode s = some send ↔ send.socket = s.socket ∧ send.payload = s.packet ∧
      toLinuxSocketAddress s.target = some send.target := by
  rw [encode, Option.map_eq_some_iff]
  constructor
  · rintro ⟨target, htarget, rfl⟩
    exact ⟨rfl, rfl, htarget⟩
  · rintro ⟨hsocket, hpayload, htarget⟩
    exact ⟨send.target, htarget, by rw [← hsocket, ← hpayload]⟩

theorem filterMap_encode_singleton
    (s : Translation.Sending SocketHandle INetSocketAddress Packet) :
    [s].filterMap encode =
      (toLinuxSocketAddress s.target).toList.map (⟨s.socket, s.packet, ·⟩) := by
  rcases hs : toLinuxSocketAddress s.target with - | target <;> simp [encode, hs]

/-- The payloads of what is encoded are among the packets, in their order. -/
theorem payloads_sublist
    (l : List (Translation.Sending SocketHandle INetSocketAddress Packet)) :
    ((l.filterMap encode).map (·.payload)).Sublist (l.map (·.packet)) := by
  induction l with
  | nil => exact List.Sublist.refl _
  | cons s l ih =>
    rcases hs : encode s with - | send
    · rw [List.filterMap_cons_none hs]
      exact ih.cons _
    · rw [List.filterMap_cons_some hs, List.map_cons, List.map_cons, (encode_eq_some.1 hs).2.1]
      exact ih.cons_cons _

section Systems

variable {κ : Type} [DecidableEq κ] {key : SocketHandle → Packet → Option κ} {σ ℓ : Type*}
variable {M : LTS σ ℓ} {R : σ → Translation.Table κ SocketHandle INetSocketAddress → Prop}
variable {Matches : ℓ → List (Translation.Event κ SocketHandle INetSocketAddress Packet) → Prop}

/-- **A system that the translator simulates passes payloads on unchanged, in their order, and at
most once.** -/
theorem payloads_sublist_of_simulation
    (hsim : LTS.Simulation M (Translation.translator key) R Matches)
    {receptions : ℓ → List (Translation.Reception SocketHandle INetSocketAddress Packet)}
    {sends : ℓ → List Sent}
    (hreceived : ∀ l es, Matches l es → es.flatMap (·.received) = receptions l)
    (hsent : ∀ l es, Matches l es → (es.flatMap (·.sent)).filterMap encode = sends l) {s t : σ}
    {T : Translation.Table κ SocketHandle INetSocketAddress} (hR : R s T) {h : List ℓ}
    (hrun : M.Run s h t) :
    ((h.flatMap sends).map (·.payload)).Sublist ((h.flatMap receptions).map (·.packet)) := by
  obtain ⟨ess, T', hmatches, hr, -⟩ := hsim.run hR hrun
  have hsends : (ess.flatten.flatMap (·.sent)).filterMap encode = h.flatMap sends := by
    rw [List.filterMap_flatMap]
    refine LTS.Simulation.flatMap_eq (fun l es hmatch ↦ ?_) hmatches
    rw [← hsent l es hmatch, List.filterMap_flatMap]
  rw [← LTS.Simulation.flatMap_eq hreceived hmatches, ← hsends]
  exact (payloads_sublist _).trans (Translation.sent_sublist hr)

end Systems
