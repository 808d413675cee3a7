import Mathlib.Data.Finset.Basic
import Mathlib.Data.Finset.SDiff
import Mathlib.Data.Finset.Insert
import Udpfwd.Net.SocketAddress

/-!
# The kernel interface of the two workers

The workers own no sockets; they ask the kernel for them. A call is recorded together with
the kernel's answer (`Syscall`), so the list of the calls a function makes determines what
happens to the two things the kernel keeps for the process: the descriptors that are open
and the descriptors in the interest set of its epoll instance (`Kernel.replay`).

* `Kernel.Grants` is what the kernel promises: a new descriptor is one that is not open.
* `Kernel.Legal` is what the process must respect: it names only open descriptors.
-/

open Net

/-- A file descriptor; the source's `SocketHandle` is a C `int`. -/
abbrev SocketHandle := Int

/-- The values of `errno` that the source names, and any other one. -/
inductive Errno
  | EINTR
  /-- `EIO`. -/
  | inputOutput
  | EAGAIN
  | EINVAL
  | other (code : ℕ)
  deriving DecidableEq

/-- The bytes of a packet. -/
abbrev Packet := List UInt8

/-- The size of the buffer both workers receive into. -/
def packetBufferSize : ℕ := 65536

/-- A datagram as `recvfrom` takes it off a socket. The length field of UDP has 16 bits, so
a datagram fits into the receive buffer. -/
structure Datagram where
  payload : Packet
  source : SockAddr
  /-- The address length that `recvfrom` reports. -/
  addrLen : ℕ := sizeofSockaddrIn6
  fits : payload.length ≤ packetBufferSize
  deriving DecidableEq

/-- What `recvfrom` leaves in the buffer of the worker. -/
def Datagram.received (d : Datagram) : Packet := d.payload.take packetBufferSize

/-- No byte of a datagram is cut off. -/
@[simp]
theorem Datagram.received_eq (d : Datagram) : d.received = d.payload :=
  List.take_of_length_le d.fits

/-- A call of a worker to the kernel, with the kernel's answer. `epoll_wait` is not among them:
what it returns is the event, or the batch of events, that a worker handles. -/
inductive Syscall
  | socket (family : UInt16) (result : Except Errno SocketHandle)
  | setIpv6Only (fd : SocketHandle) (result : Except Errno Unit)
  | bind (fd : SocketHandle) (address : SockAddr) (result : Except Errno Unit)
  | getsockname (fd : SocketHandle) (result : Except Errno UInt16)
  | epollCreate (result : Except Errno SocketHandle)
  | epollAdd (epoll fd : SocketHandle) (result : Except Errno Unit)
  | epollDel (epoll fd : SocketHandle) (result : Except Errno Unit)
  | recvfrom (fd : SocketHandle) (result : Except Errno Datagram)
  | sendto (fd : SocketHandle) (packet : Packet) (dest : SockAddr)
      (result : Except Errno ℕ)
  | close (fd : SocketHandle)
  | clockGettime (seconds : UInt64)
  deriving DecidableEq

/-- The descriptors that a call names. -/
def Syscall.uses : Syscall → List SocketHandle
  | .socket _ _ | .epollCreate _ | .clockGettime _ => []
  | .setIpv6Only fd _ | .bind fd _ _ | .getsockname fd _ => [fd]
  | .epollAdd epoll fd _ | .epollDel epoll fd _ => [epoll, fd]
  | .recvfrom fd _ | .sendto fd _ _ _ | .close fd => [fd]

/-- A call of `sendto`. -/
structure Sent where
  socket : SocketHandle
  payload : Packet
  target : SockAddr
  deriving DecidableEq

/-- The calls of `sendto` among the calls, whatever their answers. -/
def sentBy (calls : List Syscall) : List Sent :=
  calls.filterMap fun
    | .sendto socket payload target _ => some ⟨socket, payload, target⟩
    | _ => none

@[simp]
theorem sentBy_append (cs₁ cs₂ : List Syscall) : sentBy (cs₁ ++ cs₂) = sentBy cs₁ ++ sentBy cs₂ :=
  List.filterMap_append

/-- What the kernel keeps for the process. -/
structure Kernel where
  /-- The open descriptors. -/
  openFds : Finset SocketHandle
  /-- The descriptors registered in the epoll instance. -/
  interest : Finset SocketHandle
  deriving DecidableEq

namespace Kernel

/-- The effect of one call. Closing the only descriptor of a socket also removes it from
the interest set. -/
def after (k : Kernel) : Syscall → Kernel
  | .socket _ (.ok fd) | .epollCreate (.ok fd) => { k with openFds := insert fd k.openFds }
  | .epollAdd _ fd (.ok _) => { k with interest := insert fd k.interest }
  | .epollDel _ fd (.ok _) => { k with interest := k.interest.erase fd }
  | .close fd => ⟨k.openFds.erase fd, k.interest.erase fd⟩
  | _ => k

section After

variable (k : Kernel) (family : UInt16) (epoll fd : SocketHandle) (e : Errno) (u : Unit)

@[simp]
theorem after_socket_ok :
    k.after (.socket family (.ok fd)) = { k with openFds := insert fd k.openFds } := rfl

@[simp]
theorem after_socket_error : k.after (.socket family (.error e)) = k := rfl

@[simp]
theorem after_epollCreate_ok :
    k.after (.epollCreate (.ok fd)) = { k with openFds := insert fd k.openFds } := rfl

@[simp]
theorem after_epollAdd_ok :
    k.after (.epollAdd epoll fd (.ok u)) = { k with interest := insert fd k.interest } := rfl

@[simp]
theorem after_epollAdd_error : k.after (.epollAdd epoll fd (.error e)) = k := rfl

@[simp]
theorem after_close :
    k.after (.close fd) = ⟨k.openFds.erase fd, k.interest.erase fd⟩ := rfl

variable (result : Except Errno Unit) (port : Except Errno UInt16) (n : Except Errno ℕ)
variable (d : Except Errno Datagram) (addr : SockAddr) (packet : Packet) (now : UInt64)

@[simp]
theorem after_setIpv6Only : k.after (.setIpv6Only fd result) = k := rfl

@[simp]
theorem after_bind : k.after (.bind fd addr result) = k := rfl

@[simp]
theorem after_getsockname : k.after (.getsockname fd port) = k := rfl

@[simp]
theorem after_recvfrom : k.after (.recvfrom fd d) = k := rfl

@[simp]
theorem after_sendto : k.after (.sendto fd packet addr n) = k := rfl

@[simp]
theorem after_clockGettime : k.after (.clockGettime now) = k := rfl

end After

/-- The effect of a list of calls, the first call first. -/
def replay (k : Kernel) (calls : List Syscall) : Kernel := calls.foldl after k

@[simp]
theorem replay_nil (k : Kernel) : k.replay [] = k := rfl

@[simp]
theorem replay_cons (k : Kernel) (c : Syscall) (calls : List Syscall) :
    k.replay (c :: calls) = (k.after c).replay calls := rfl

@[simp]
theorem replay_append (k : Kernel) (cs₁ cs₂ : List Syscall) :
    k.replay (cs₁ ++ cs₂) = (k.replay cs₁).replay cs₂ :=
  List.foldl_append

/-- A descriptor the kernel may hand out: not negative, and not open. -/
def Fresh (k : Kernel) (fd : SocketHandle) : Prop := 0 ≤ fd ∧ fd ∉ k.openFds

instance (k : Kernel) (fd : SocketHandle) : Decidable (k.Fresh fd) :=
  inferInstanceAs (Decidable (_ ∧ _))

/-- The kernel's side of one call. -/
def Grants (k : Kernel) : Syscall → Prop
  | .socket _ (.ok fd) | .epollCreate (.ok fd) => k.Fresh fd
  | _ => True

instance (k : Kernel) : (c : Syscall) → Decidable (k.Grants c)
  | .socket _ (.ok fd) | .epollCreate (.ok fd) => inferInstanceAs (Decidable (k.Fresh fd))
  | .socket _ (.error _) | .epollCreate (.error _) => isTrue trivial
  | .setIpv6Only .. | .bind .. | .getsockname .. | .epollAdd .. | .epollDel ..
  | .recvfrom .. | .sendto .. | .close _ | .clockGettime _ => isTrue trivial

@[simp]
theorem grants_socket_ok {k : Kernel} {family : UInt16} {fd : SocketHandle} :
    k.Grants (.socket family (.ok fd)) ↔ k.Fresh fd := Iff.rfl

@[simp]
theorem grants_epollCreate_ok {k : Kernel} {fd : SocketHandle} :
    k.Grants (.epollCreate (.ok fd)) ↔ k.Fresh fd := Iff.rfl

/-- The kernel's side of a list of calls: every call is granted by the kernel as the calls
before it have left it. -/
def GrantsAll (k : Kernel) : List Syscall → Prop
  | [] => True
  | c :: calls => k.Grants c ∧ (k.after c).GrantsAll calls

instance decidableGrantsAll (k : Kernel) : (calls : List Syscall) → Decidable (k.GrantsAll calls)
  | [] => isTrue trivial
  | c :: calls =>
    haveI := decidableGrantsAll (k.after c) calls
    inferInstanceAs (Decidable (_ ∧ _))

@[simp]
theorem grantsAll_nil {k : Kernel} : k.GrantsAll [] ↔ True := Iff.rfl

@[simp]
theorem grantsAll_cons {k : Kernel} {c : Syscall} {calls : List Syscall} :
    k.GrantsAll (c :: calls) ↔ k.Grants c ∧ (k.after c).GrantsAll calls := Iff.rfl

@[simp]
theorem grantsAll_append {k : Kernel} {cs₁ cs₂ : List Syscall} :
    k.GrantsAll (cs₁ ++ cs₂) ↔ k.GrantsAll cs₁ ∧ (k.replay cs₁).GrantsAll cs₂ := by
  induction cs₁ generalizing k with
  | nil => simp
  | cons c cs₁ ih => simp [ih, and_assoc]

/-- The process's side of one call: the descriptors it names are open. -/
def Legal (k : Kernel) (c : Syscall) : Prop := ∀ fd ∈ c.uses, fd ∈ k.openFds

/-- The process's side of a list of calls: no call names a descriptor that is not open when
the call is made, so nothing is used after it was closed. -/
def LegalAll (k : Kernel) : List Syscall → Prop
  | [] => True
  | c :: calls => k.Legal c ∧ (k.after c).LegalAll calls

@[simp]
theorem legalAll_nil {k : Kernel} : k.LegalAll [] ↔ True := Iff.rfl

@[simp]
theorem legalAll_cons {k : Kernel} {c : Syscall} {calls : List Syscall} :
    k.LegalAll (c :: calls) ↔ k.Legal c ∧ (k.after c).LegalAll calls := Iff.rfl

@[simp]
theorem legalAll_append {k : Kernel} {cs₁ cs₂ : List Syscall} :
    k.LegalAll (cs₁ ++ cs₂) ↔ k.LegalAll cs₁ ∧ (k.replay cs₁).LegalAll cs₂ := by
  induction cs₁ generalizing k with
  | nil => simp
  | cons c cs₁ ih => simp [ih, and_assoc]

end Kernel
