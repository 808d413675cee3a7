import Udpfwd.Forwarder.Config
import Udpfwd.Platform.IoUtils

/-!
# The configuration file

`RunUdpForwarder` reads its configuration with a bound of 1 MB and gives up when this fails.
But `ReadAtMostOrFail` does not fail at a file that is longer than the bound; it reads the start
of it, so that the forwarder may start from a part of its configuration. A successful read is a
read of the whole file exactly when the file is not longer than the bound, and the bound fits
into the signed type that the function counts in (`wholeRead_iff`).
-/

open Net Text IoUtils

namespace UdpForward

/-- `RunUdpForwarder` up to the call of `RunWorker`, for the regular file `file`, unless it is
still reading. -/
def runOnFile (pton : InetPton) (file : Bytes) (a : FileAnswers)
    (epollCreate : Except Errno SocketHandle) (answers : ℕ → TargetAnswers) : Option Startup :=
  (readAsString8AtMostOrFail file (mb 1) a).map fun cfgContent ↦
    runUdpForwarder pton true cfgContent epollCreate answers

/-- A bounded read of the file is a read of the whole file, however `read` delivers it, or it
fails. -/
structure WholeRead (file : Bytes) (max : UInt64) : Prop where
  whole : ∀ a content, readAtMostOrFail file max a = some (.ok content) → content = file
  /-- It does not succeed when the file is too long, -/
  fails : max.toNat < file.length → ∀ a content, readAtMostOrFail file max a ≠ some (.ok content)
  /-- and returns unless it is interrupted all the time. -/
  returns : ∀ a, file.length < a.reads.countP (!·.interrupted) →
    (readAtMostOrFail file max a).isSome
  agrees : ∀ a a' content content', readAtMostOrFail file max a = some (.ok content) →
    readFully file a' = some (.ok content') → content = content'
  /-- The forwarder is started with the targets in the whole file. -/
  starts : max = mb 1 → ∀ pton a epollCreate answers context calls,
    runOnFile pton file a epollCreate answers = some (.running context calls) →
      ∃ targets, parseConfig pton file = .ok targets ∧
        setupSockets {} targets epollCreate answers = (.ok (), context, calls)

section WholeRead

variable {pton : InetPton} {file content : Bytes} {max : UInt64} {a : FileAnswers}
  {epollCreate : Except Errno SocketHandle} {answers : ℕ → TargetAnswers}
  {context : UdpForwardContext} {calls : List Syscall}

/-- A forwarder that starts has read something and has set up the targets in it. -/
theorem runOnFile_eq_running
    (h : runOnFile pton file a epollCreate answers = some (.running context calls)) :
    ∃ content targets, readAtMostOrFail file (mb 1) a = some (.ok content) ∧
      parseConfig pton content = .ok targets ∧
        setupSockets {} targets epollCreate answers = (.ok (), context, calls) := by
  rw [runOnFile, Option.map_eq_some_iff] at h
  obtain ⟨cfgContent, hread, h⟩ := h
  rcases cfgContent with e | content
  · exact absurd h (by simp [runUdpForwarder])
  rcases hparse : parseConfig pton content with log | targets
  · exact absurd h (by simp [runUdpForwarder, hparse])
  rcases hsetup : setupSockets {} targets epollCreate answers with ⟨e | ⟨⟩, context', calls'⟩
  · exact absurd h (by simp [runUdpForwarder, hparse, hsetup])
  · simp only [runUdpForwarder, hparse, hsetup, Bool.not_true, Bool.false_eq_true, if_false,
      Startup.running.injEq] at h
    obtain ⟨rfl, rfl⟩ := h
    exact ⟨content, targets, hread, hparse, hsetup⟩

/-- A forwarder may go on with the first megabyte of a longer file. -/
theorem runOnFile_readable :
    runOnFile pton file (readable (List.replicate (file.length + 1) (.upTo 0))) epollCreate
        answers =
      some (runUdpForwarder pton true (.ok (file.take (2 ^ 20))) epollCreate answers) := by
  rw [runOnFile, readAsString8AtMostOrFail, readAtMostOrFail_readable]
  rfl

/-- **A successful bounded read is a whole read** exactly of the files that are not longer than
the bound, where a file that is not empty needs a bound below 2⁶³. -/
theorem wholeRead_iff :
    WholeRead file max ↔ file.length ≤ max.toNat ∧ (max.toNat < 2 ^ 63 ∨ file = []) := by
  constructor
  · intro h
    -- some way to deliver the file makes the read succeed
    have htake := h.whole _ _ readAtMostOrFail_readable
    rw [List.take_eq_self_iff] at htake
    split at htake
    · next hmax => exact ⟨htake, .inl hmax⟩
    · have hnil := List.eq_nil_of_length_eq_zero (Nat.le_zero.1 htake)
      exact ⟨by rw [hnil]; exact Nat.zero_le _, .inr hnil⟩
  · rintro ⟨hle, hmax⟩
    have hwhole : ∀ a content, readAtMostOrFail file max a = some (.ok content) →
        content = file := by
      intro a content h
      rw [readAtMostOrFail_eq_ok h]
      rcases hmax with hmax | rfl
      · rw [if_pos hmax, List.take_of_length_le hle]
      · exact List.take_nil
    refine
      { whole := hwhole
        fails := fun hlong ↦ absurd hle (Nat.not_le.2 hlong)
        returns := fun a h ↦ isSome_readAtMostOrFail h
        agrees := fun a a' content content' h h' ↦
          (hwhole a content h).trans (readFully_eq_ok h').symm
        starts := ?_ }
    rintro rfl pton a epollCreate answers context calls h
    obtain ⟨content, targets, hread, hparse, hsetup⟩ := runOnFile_eq_running h
    rw [hwhole a content hread] at hparse
    exact ⟨targets, hparse, hsetup⟩

end WholeRead

/-- With a bound of 4 bytes, the first 4 of 5 bytes are read, and 0 is returned. -/
theorem truncated_not_wholeRead :
    readAtMostOrFail (ascii "12345") 4 (readable [.failed .EINTR, .upTo 2, .upTo 7]) =
        some (.ok (ascii "1234")) ∧
      ¬WholeRead (ascii "12345") 4 := by
  have hread : readAtMostOrFail (ascii "12345") 4
      (readable [.failed .EINTR, .upTo 2, .upTo 7]) = some (.ok (ascii "1234")) := by decide
  exact ⟨hread, fun h ↦ absurd (h.whole _ _ hread) (by decide)⟩

end UdpForward
