import Udpfwd.Platform.Kernel
import Udpfwd.Text.ParseNumber

/-!
# Reading files

`ReadFully` and `ReadAtMostOrFail` of `platform/IoUtils.cc`. The file does not change while it is
read; how `read` delivers it is up to the kernel (`ReadAnswer`). Both functions have the same
loop, `readLoop`. It ends for two reasons, at the end of the file and when nothing may be read
any more, and the result does not tell which: what is read is the file as far as the bound
allows (`readLoop_eq_ok`).
-/

open Text

namespace IoUtils

/-- The kernel's answer to one `read`. -/
inductive ReadAnswer
  | failed (e : Errno)
  /-- At most `n + 1` bytes are delivered, and none only at the end of the file. -/
  | upTo (n : ℕ)
  deriving DecidableEq

/-- The kernel's answers for one file. -/
structure FileAnswers where
  stat : Except Errno Unit
  openFile : Except Errno Unit
  reads : List ReadAnswer

/-- `read`, where `rest` is what has not been read of the file. -/
def read (rest : Bytes) (count : ℕ) : ReadAnswer → Except Errno Bytes
  | .failed e => .error e
  | .upTo n => .ok (rest.take (min count (n + 1)))

/-- The size of the buffer that both functions read into. -/
def bufSize : ℕ := 4096

/-- How many bytes `read` is asked for. -/
def readCount : Option ℤ → ℕ
  | none => bufSize
  | some remaining => min remaining.toNat bufSize

/-- The loop of both functions, for the answers that `read` gives; it is still running when it
has used them up. `ReadFully` has no `remaining`. -/
def readLoop (remaining : Option ℤ) (content rest : Bytes) (answers : List ReadAnswer) :
    Option (Except Errno Bytes) :=
  if remaining.any (· ≤ 0) then some (.ok content)
  else
    match answers with
    | [] => none
    | answer :: answers =>
      match read rest (readCount remaining) answer with
      | .error e => if e = .EINTR then readLoop remaining content rest answers else some (.error e)
      | .ok bytes =>
        if bytes = [] then some (.ok content)
        else readLoop (remaining.map (· - bytes.length)) (content ++ bytes)
          (rest.drop bytes.length) answers

/-- `ReadFully`: the content, or the error. -/
def readFully (file : Bytes) (a : FileAnswers) : Option (Except Errno Bytes) :=
  match a.stat, a.openFile with
  | .error e, _ => some (.error e)
  | .ok _, .error e => some (.error e)
  | .ok _, .ok _ => readLoop none [] file a.reads

/-- `ReadAtMostOrFail`: `max` is cast to the signed type of `remaining`. -/
def readAtMostOrFail (file : Bytes) (max : UInt64) (a : FileAnswers) :
    Option (Except Errno Bytes) :=
  match a.stat, a.openFile with
  | .error e, _ => some (.error e)
  | .ok _, .error e => some (.error e)
  | .ok _, .ok _ => readLoop (some max.toInt64.toInt) [] file a.reads

/-- `ReadAsString8AtMostOrFail`. -/
def readAsString8AtMostOrFail (file : Bytes) (max : UInt64) (a : FileAnswers) :
    Option (Except Errno Bytes) :=
  readAtMostOrFail file max a

/-- `operator "" _MB`. -/
def mb (n : UInt64) : UInt64 := n * 1024 * 1024

/-! ### What the loop reads -/

/-- A signal interrupts the `read`. -/
def ReadAnswer.interrupted (answer : ReadAnswer) : Bool := answer = .failed .EINTR

/-- What the loop may read of the rest of the file. -/
def allowed (remaining : Option ℤ) (rest : Bytes) : Bytes :=
  match remaining with
  | none => rest
  | some remaining => rest.take remaining.toNat

section Loop

variable {remaining : Option ℤ} {content rest bytes result : Bytes} {count : ℕ} {e : Errno}
variable {answer : ReadAnswer} {answers : List ReadAnswer}

/-- What `read` delivers is at the start of the rest, and nothing only at the end. -/
theorem read_eq_ok (h : read rest count answer = .ok bytes) :
    bytes <+: rest ∧ bytes.length ≤ count ∧ (bytes = [] → count = 0 ∨ rest = []) := by
  cases answer with
  | failed e => exact absurd h (by simp [read])
  | upTo n =>
    obtain rfl := Except.ok.inj h
    refine ⟨List.take_prefix _ _, ?_, ?_⟩
    · rw [List.length_take]
      omega
    · rw [List.take_eq_nil_iff]
      exact Or.imp_left (by omega)

theorem read_eq_error (h : read rest count answer = .error e) : answer = .failed e := by
  cases answer with
  | failed e' => exact congrArg _ (Except.error.inj h)
  | upTo n => exact absurd h (by simp [read])

/-- The loop asks for something while it runs, and for no more than remains. -/
theorem readCount_spec (hrunning : ¬(remaining.any (· ≤ 0)) = true) :
    readCount remaining ≠ 0 ∧ ∀ r ∈ remaining, 0 < r ∧ readCount remaining ≤ r.toNat := by
  cases remaining with
  | none => exact ⟨by decide, nofun⟩
  | some r =>
    have hpos : 0 < r := by simpa using hrunning
    refine ⟨?_, ?_⟩
    · rw [readCount, bufSize]
      omega
    · rintro _ ⟨⟩
      exact ⟨hpos, min_le_left _ _⟩

/-- What is read and what may still be read are what might be read before. -/
theorem append_allowed (hbytes : bytes <+: rest) (hle : ∀ r ∈ remaining, bytes.length ≤ r.toNat) :
    bytes ++ allowed (remaining.map (· - bytes.length)) (rest.drop bytes.length) =
      allowed remaining rest := by
  obtain ⟨rest, rfl⟩ := hbytes
  rw [List.drop_left]
  cases remaining with
  | none => rfl
  | some r =>
    have hr := hle r rfl
    show bytes ++ rest.take (r - bytes.length).toNat = (bytes ++ rest).take r.toNat
    rw [List.take_append, List.take_of_length_le hr]
    congr 2
    omega

/-- Nothing may be read any more. -/
theorem allowed_eq_nil (hdone : remaining.any (· ≤ 0) = true) : allowed remaining rest = [] := by
  cases remaining with
  | none => exact absurd hdone (by simp)
  | some r =>
    have hr : r ≤ 0 := by simpa using hdone
    rw [allowed, Int.toNat_of_nonpos hr, List.take_zero]

/-- **What the loop returns when it does not fail**: all that it may read. -/
theorem readLoop_eq_ok (h : readLoop remaining content rest answers = some (.ok result)) :
    result = content ++ allowed remaining rest := by
  fun_induction readLoop remaining content rest answers with
  | case1 remaining content rest answers hdone =>
    rw [allowed_eq_nil hdone, List.append_nil]
    exact (Except.ok.inj (Option.some.inj h)).symm
  | case2 => exact absurd h (by simp)
  | case3 remaining content rest hrunning answer answers hread ih => exact ih h
  | case4 => exact absurd h (by simp)
  | case5 remaining content rest hrunning answer answers hread =>
    obtain ⟨-, -, hend⟩ := read_eq_ok hread
    obtain rfl := (hend rfl).resolve_left (readCount_spec hrunning).1
    rw [← Except.ok.inj (Option.some.inj h)]
    cases remaining <;> simp [allowed]
  | case6 remaining content rest hrunning answer answers bytes hread hne ih =>
    obtain ⟨hbytes, hcount, -⟩ := read_eq_ok hread
    have hle : ∀ r ∈ remaining, bytes.length ≤ r.toNat := fun r hr ↦
      hcount.trans ((readCount_spec hrunning).2 r hr).2
    rw [ih h, List.append_assoc, append_allowed hbytes hle]

/-- The loop fails only if a `read` fails, and not because of a signal. -/
theorem readLoop_eq_error (h : readLoop remaining content rest answers = some (.error e)) :
    .failed e ∈ answers ∧ e ≠ .EINTR := by
  fun_induction readLoop remaining content rest answers with
  | case1 => exact absurd h (by simp)
  | case2 => exact absurd h (by simp)
  | case3 remaining content rest hrunning answer answers hread ih =>
    exact ⟨List.mem_cons_of_mem _ (ih h).1, (ih h).2⟩
  | case4 remaining content rest hrunning answer answers e' hread he =>
    obtain rfl := Except.error.inj (Option.some.inj h)
    rw [read_eq_error hread]
    exact ⟨List.mem_cons_self, he⟩
  | case5 => exact absurd h (by simp)
  | case6 remaining content rest hrunning answer answers bytes hread hne ih =>
    exact ⟨List.mem_cons_of_mem _ (ih h).1, (ih h).2⟩

/-- **The loop ends** if more reads than the file has bytes are not interrupted. -/
theorem isSome_readLoop (h : rest.length < answers.countP (!·.interrupted)) :
    (readLoop remaining content rest answers).isSome := by
  fun_induction readLoop remaining content rest answers with
  | case1 => rfl
  | case2 => exact absurd h (by simp)
  | case3 remaining content rest hrunning answer answers hread ih =>
    rw [read_eq_error hread, List.countP_cons_of_neg (by decide)] at h
    exact ih h
  | case4 => rfl
  | case5 => rfl
  | case6 remaining content rest hrunning answer answers bytes hread hne ih =>
    have hpos := List.length_pos_iff.2 hne
    have hle := (read_eq_ok hread).1.length_le
    have hcons := List.countP_cons (p := (!·.interrupted)) (a := answer) (l := answers)
    refine ih ?_
    rw [List.length_drop]
    split at hcons <;> omega

/-- When no `read` fails, the loop returns what it may read. -/
theorem readLoop_replicate {n : ℕ} (h : rest.length < n) :
    readLoop remaining content rest (List.replicate n (.upTo 0)) =
      some (.ok (content ++ allowed remaining rest)) := by
  have hcount : (List.replicate n (ReadAnswer.upTo 0)).countP (!·.interrupted) = n := by
    simp [List.countP_replicate, ReadAnswer.interrupted]
  have hsome : (readLoop remaining content rest (List.replicate n (.upTo 0))).isSome :=
    isSome_readLoop (by rwa [hcount])
  rcases hloop : readLoop remaining content rest (List.replicate n (.upTo 0)) with - | e | result
  · rw [hloop] at hsome
    exact absurd hsome (by simp)
  · exact absurd (List.eq_of_mem_replicate (readLoop_eq_error hloop).1) (by simp)
  · rw [readLoop_eq_ok hloop]

end Loop

/-! ### What the functions return -/

section Functions

variable {file content : Bytes} {max : UInt64} {a : FileAnswers}

/-- What `ReadAtMostOrFail` may read: up to `max` bytes, and nothing if `max` does not fit into
the signed type. -/
theorem toInt_max (max : UInt64) :
    max.toInt64.toInt.toNat = if max.toNat < 2 ^ 63 then max.toNat else 0 := by
  show max.toBitVec.toInt.toNat = _
  rw [BitVec.toInt_eq_toNat_cond]
  have hlt := max.toNat_lt
  show (if 2 * max.toNat < 2 ^ 64 then (max.toNat : ℤ) else max.toNat - (2 ^ 64 : ℕ)).toNat = _
  split <;> split <;> omega

/-- A file can be opened. -/
def readable (reads : List ReadAnswer) : FileAnswers := ⟨.ok (), .ok (), reads⟩

/-- **`ReadFully` reads the file.** -/
theorem readFully_eq_ok (h : readFully file a = some (.ok content)) : content = file := by
  rw [readFully] at h
  split at h
  · exact absurd h (by simp)
  · exact absurd h (by simp)
  · exact readLoop_eq_ok h

/-- **`ReadAtMostOrFail` does not fail at a file that is too long**: it reads the start of it. -/
theorem readAtMostOrFail_eq_ok (h : readAtMostOrFail file max a = some (.ok content)) :
    content = file.take (if max.toNat < 2 ^ 63 then max.toNat else 0) := by
  rw [readAtMostOrFail] at h
  rw [← toInt_max]
  split at h
  · exact absurd h (by simp)
  · exact absurd h (by simp)
  · exact readLoop_eq_ok h

theorem isSome_readAtMostOrFail (h : file.length < a.reads.countP (!·.interrupted)) :
    (readAtMostOrFail file max a).isSome := by
  rw [readAtMostOrFail]
  split
  · rfl
  · rfl
  · exact isSome_readLoop h

theorem readAtMostOrFail_readable :
    readAtMostOrFail file max (readable (List.replicate (file.length + 1) (.upTo 0))) =
      some (.ok (file.take (if max.toNat < 2 ^ 63 then max.toNat else 0))) := by
  rw [← toInt_max]
  exact readLoop_replicate (Nat.lt_succ_self _)

end Functions

end IoUtils
