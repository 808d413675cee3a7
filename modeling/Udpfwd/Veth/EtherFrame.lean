import Udpfwd.Veth.EtherPacketStruct

/-!
# Ethernet frames

`vether::EtherFrame`: a buffer of a fixed size and the number of bytes in it that are the frame.
The accessors overlay the header on the buffer and do not look at the size, while `Clone` copies as
many bytes as the size says into a buffer that the pool hands out as it is. A frame shorter than
its header is therefore read together with what the buffer was used for before.

* `EtherFrame.clone_eq` — what a clone consists of;
* `cloneExact_iff` — the frames whose clones cannot be told from them.
-/

namespace Vether

/-- `BufferPool::kMaxBufferSize`. -/
def kMaxBufferSize : ℕ := 16 * 1024

/-- The contents of a `std::array<uint8_t, kMaxBufferSize>`. -/
abbrev Buffer := Fin kMaxBufferSize → UInt8

/-- What is undefined in the source. -/
inductive Fault
  /-- The data of a frame without a buffer are used. -/
  | nullData
  /-- A copy goes over the end of a buffer. -/
  | outOfBounds
  deriving DecidableEq, Repr

/-- `vether::EtherFrame`. A frame that has been moved from has no buffer. -/
structure EtherFrame where
  mData : Option Buffer
  mSize : ℕ

/-- `memcpy` between two buffers. -/
def memcpy (dst src : Buffer) (n : ℕ) : Except Fault Buffer :=
  if n ≤ kMaxBufferSize then .ok fun i ↦ if i.val < n then src i else dst i
  else .error .outOfBounds

/-- The bytes that a header at the start of a buffer consists of. -/
def headerBytes (data : Buffer) : Vector UInt8 16 :=
  Vector.ofFn fun i ↦ data (i.castLE (by decide))

namespace EtherFrame

/-- `data`. -/
def data (f : EtherFrame) : Except Fault Buffer :=
  match f.mData with
  | some mData => .ok mData
  | none => .error .nullData

/-- `size`. -/
def size (f : EtherFrame) : ℕ := f.mSize

/-- `SetSize`. -/
def setSize (f : EtherFrame) (size : ℕ) : EtherFrame := { f with mSize := min size kMaxBufferSize }

/-- The header that is overlaid on the data. -/
def header (f : EtherFrame) : Except Fault EtherFrameHeader :=
  f.data.map fun data ↦ .ofBytes (headerBytes data)

/-- `GetVlanTag`. -/
def getVlanTag (f : EtherFrame) : Except Fault UInt16 := f.header.map (·.getVlanTag)

/-- `GetVlanId`. -/
def getVlanId (f : EtherFrame) : Except Fault UInt16 := f.header.map (·.getVlanId)

/-- `GetDestinationIdentifier`. -/
def getDestinationIdentifier (f : EtherFrame) : Except Fault UInt64 :=
  f.header.map (·.getDestinationIdentifier)

/-- `GetSourceIdentifier`. -/
def getSourceIdentifier (f : EtherFrame) : Except Fault UInt64 :=
  f.header.map (·.getSourceIdentifier)

/-- `GetDestinationMac`. -/
def getDestinationMac (f : EtherFrame) : Except Fault (Vector UInt8 6) :=
  f.header.map (·.destination)

/-- `GetSourceMac`. -/
def getSourceMac (f : EtherFrame) : Except Fault (Vector UInt8 6) := f.header.map (·.source)

/-- `Clone`, if `ObtainBuffer` hands out a buffer with the contents `another`. -/
def clone (f : EtherFrame) (another : Buffer) : Except Fault EtherFrame :=
  f.data.bind fun data ↦ (memcpy another data f.mSize).map fun another ↦ ⟨some another, f.mSize⟩

/-- A byte of the buffer of a frame. -/
def byte (f : EtherFrame) (i : Fin kMaxBufferSize) : Option UInt8 := f.mData.map (· i)

end EtherFrame

/-- The frames have the same size and the same bytes up to it. -/
structure SameContents (f g : EtherFrame) : Prop where
  size : g.size = f.size
  byte : ∀ i, i.val < f.size → g.byte i = f.byte i

/-- Nothing that can be asked about a frame tells `g` from `f`. -/
structure Indistinguishable (f g : EtherFrame) : Prop extends SameContents f g where
  getVlanTag : g.getVlanTag = f.getVlanTag
  getVlanId : g.getVlanId = f.getVlanId
  getSourceIdentifier : g.getSourceIdentifier = f.getSourceIdentifier
  getDestinationIdentifier : g.getDestinationIdentifier = f.getDestinationIdentifier
  getSourceMac : g.getSourceMac = f.getSourceMac
  getDestinationMac : g.getDestinationMac = f.getDestinationMac

/-- The frame can be cloned into any buffer, and the clone cannot be told from it. -/
def CloneExact (f : EtherFrame) : Prop :=
  ∀ another, ∃ g, f.clone another = .ok g ∧ Indistinguishable f g

/-- The accessors depend only on the first `size` bytes of the frame. -/
def DependsOnContents (f : EtherFrame) : Prop :=
  ∀ g, g.mData.isSome → SameContents f g → Indistinguishable f g

/-- What the accessors use of a header is in its first `size` bytes: all of it, or the MACs and a
type that is not that of a tag, of which one byte may be enough. -/
def HeaderWithin (bytes : Vector UInt8 16) (size : ℕ) : Prop :=
  16 ≤ size ∨ (14 ≤ size ∧ ¬Tagged bytes) ∨ (13 ≤ size ∧ bytes.get 12 ≠ 0x81)

/-- The buffer of a clone: the data up to the size, and what was in the buffer before. -/
def overlay (n : ℕ) (data another : Buffer) : Buffer :=
  fun i ↦ if i.val < n then data i else another i

section Clone

variable {f g : EtherFrame} {data data' another : Buffer} {n : ℕ}

/-- **A clone** has the data up to the size, and behind them what its buffer held before. -/
theorem EtherFrame.clone_eq (hn : n ≤ kMaxBufferSize) :
    (⟨some data, n⟩ : EtherFrame).clone another = .ok ⟨some (overlay n data another), n⟩ := by
  show (memcpy another data n).map _ = _
  rw [memcpy, if_pos hn]
  rfl

/-- The clone has the size of its frame. -/
theorem EtherFrame.size_of_clone (h : f.clone another = .ok g) : g.mSize = f.mSize := by
  obtain ⟨mData, n⟩ := f
  rcases mData with - | data
  · cases h
  · have hcopied : (memcpy another data n).map (fun copy ↦ EtherFrame.mk (some copy) n) = .ok g := h
    rcases hcopy : memcpy another data n with fault | copy <;> rw [hcopy] at hcopied
    · cases hcopied
    · obtain rfl := Except.ok.inj hcopied
      rfl

theorem getElem_headerBytes_overlay (i : ℕ) (hi : i < 16) :
    (headerBytes (overlay n data another))[i] =
      if i < n then (headerBytes data)[i] else (headerBytes another)[i] := by
  simp [headerBytes, overlay]

theorem overlay_eq_of_agree (h : ∀ i : Fin kMaxBufferSize, i.val < n → another i = data i) :
    overlay n data another = another := by
  funext i
  rw [overlay]
  split
  · next hi => exact (h i hi).symm
  · rfl

theorem sameContents_iff : SameContents ⟨some data, n⟩ ⟨some data', n⟩ ↔
    ∀ i : Fin kMaxBufferSize, i.val < n → data' i = data i := by
  constructor
  · intro h i hi
    exact Option.some.inj (h.byte i hi)
  · intro h
    exact ⟨rfl, fun i hi ↦ congrArg some (h i hi)⟩

/-- The clones of a frame are the frames with the same contents. -/
theorem cloneExact_iff_dependsOnContents (hn : n ≤ kMaxBufferSize) :
    CloneExact ⟨some data, n⟩ ↔ DependsOnContents ⟨some data, n⟩ := by
  constructor
  · rintro h ⟨gdata, gsize⟩ hg hsame
    obtain ⟨data', rfl⟩ := Option.isSome_iff_exists.1 hg
    obtain rfl : gsize = n := hsame.size
    obtain ⟨g, hclone, hexact⟩ := h data'
    rw [EtherFrame.clone_eq hn, overlay_eq_of_agree (sameContents_iff.1 hsame)] at hclone
    obtain rfl := Except.ok.inj hclone
    exact hexact
  · intro h another
    refine ⟨_, EtherFrame.clone_eq hn, h _ rfl (sameContents_iff.2 fun i hi ↦ ?_)⟩
    exact if_pos hi

/-- The MACs and the tag are all that the accessors show. -/
theorem indistinguishable_iff (hsame : SameContents ⟨some data, n⟩ ⟨some data', n⟩) :
    Indistinguishable ⟨some data, n⟩ ⟨some data', n⟩ ↔
      destinationMac (headerBytes data') = destinationMac (headerBytes data) ∧
        sourceMac (headerBytes data') = sourceMac (headerBytes data) ∧
        (EtherFrameHeader.ofBytes (headerBytes data')).getVlanTag =
          (EtherFrameHeader.ofBytes (headerBytes data)).getVlanTag := by
  constructor
  · intro h
    exact ⟨Except.ok.inj h.getDestinationMac, Except.ok.inj h.getSourceMac,
      Except.ok.inj h.getVlanTag⟩
  · rintro ⟨hdestination, hsource, htag⟩
    have hid : (EtherFrameHeader.ofBytes (headerBytes data')).getVlanId =
        (EtherFrameHeader.ofBytes (headerBytes data)).getVlanId := congrArg (· &&& 0x0FFF) htag
    exact
      { toSameContents := hsame
        getVlanTag := congrArg Except.ok htag
        getVlanId := congrArg Except.ok hid
        getSourceIdentifier := congrArg Except.ok (congrArg₂ addressToIdentifier hsource hid)
        getDestinationIdentifier :=
          congrArg Except.ok (congrArg₂ addressToIdentifier hdestination hid)
        getSourceMac := congrArg Except.ok hsource
        getDestinationMac := congrArg Except.ok hdestination }

/-! ### Short frames -/

/-- If what is used of the header is in the first `n` bytes, it does not matter what follows. -/
theorem HeaderWithin.eq_of_agree {bytes bytes' : Vector UInt8 16} (h : HeaderWithin bytes n)
    (hagree : ∀ i (hi : i < 16), i < n → bytes'[i] = bytes[i]) :
    destinationMac bytes' = destinationMac bytes ∧ sourceMac bytes' = sourceMac bytes ∧
      (EtherFrameHeader.ofBytes bytes').getVlanTag =
        (EtherFrameHeader.ofBytes bytes).getVlanTag := by
  have huntagged : 13 ≤ n → ¬Tagged bytes → ¬Tagged bytes' →
      destinationMac bytes' = destinationMac bytes ∧ sourceMac bytes' = sourceMac bytes ∧
        (EtherFrameHeader.ofBytes bytes').getVlanTag =
          (EtherFrameHeader.ofBytes bytes).getVlanTag := by
    intro hn hbytes hbytes'
    refine ⟨destinationMac_congr fun i hi ↦ hagree i (by omega) (by omega),
      sourceMac_congr fun i hi ↦ hagree (6 + i) (by omega) (by omega), ?_⟩
    rw [getVlanTag_of_not_tagged hbytes, getVlanTag_of_not_tagged hbytes']
  rcases h with hn | ⟨hn, htype⟩ | ⟨hn, htype⟩
  · have hsame : bytes' = bytes := Vector.ext fun i hi ↦ hagree i hi (by omega)
    rw [hsame]
    exact ⟨rfl, rfl, rfl⟩
  · refine huntagged (by omega) htype fun htype' ↦ htype ?_
    rwa [Tagged, hagree 12 (by decide) (by omega), hagree 13 (by decide) (by omega)] at htype'
  · refine huntagged hn (fun htagged ↦ htype htagged.1) fun htagged ↦ htype ?_
    exact (hagree 12 (by decide) (by omega)).symm.trans htagged.1

/-- The leftovers that show in a clone: another last byte of the source MAC, and a tag that is not
the one of the header. -/
def leftovers (bytes : Vector UInt8 16) : Buffer := fun i ↦
  if i.val = 11 then bytes.get 11 + 1
  else if i.val = 12 then 0x81
  else if i.val = 15 then (EtherFrameHeader.ofBytes bytes).getVlanTag.toUInt8 + 1
  else 0

theorem add_one_ne (x : UInt8) : x + 1 ≠ x := by
  intro h
  have hlt := x.toNat_lt
  rw [← UInt8.toNat_inj, UInt8.toNat_add] at h
  have hmod : (x.toNat + 1) % 2 ^ 8 = x.toNat := h
  omega

/-- Where something of the header is behind the first `n` bytes, the leftovers show. -/
theorem headerWithin_of_leftovers
    (h : Indistinguishable ⟨some data, n⟩
      ⟨some (overlay n data (leftovers (headerBytes data))), n⟩) :
    HeaderWithin (headerBytes data) n := by
  have hbyte : ∀ i (hi : i < 16), (headerBytes (overlay n data (leftovers (headerBytes data))))[i] =
      if i < n then (headerBytes data)[i] else (headerBytes (leftovers (headerBytes data)))[i] :=
    fun i hi ↦ getElem_headerBytes_overlay i hi
  obtain ⟨-, hmac, htag⟩ := (indistinguishable_iff h.toSameContents).1 h
  generalize hbytes : headerBytes data = bytes at *
  generalize headerBytes (overlay n data (leftovers bytes)) = bytes' at *
  by_contra hwithin
  rw [HeaderWithin, not_or, not_or, not_and_not_right, not_and_not_right] at hwithin
  obtain ⟨hshort, htagged, htype⟩ := hwithin
  rcases Nat.lt_or_ge 11 n with hn | hn
  · -- the clone has a tag, the last byte of which is a leftover
    have h12 : bytes'[12] = 0x81 := by
      rw [hbyte]
      split
      · next hlt => exact htype hlt
      · simp [headerBytes, leftovers]
    have h13 : bytes'[13] = 0 := by
      rw [hbyte]
      split
      · next hlt => exact (htagged hlt).2
      · simp [headerBytes, leftovers]
    have h15 : bytes'[15] = (EtherFrameHeader.ofBytes bytes).getVlanTag.toUInt8 + 1 := by
      rw [hbyte, if_neg (by omega)]
      simp [headerBytes, leftovers]
    have hvalue : (EtherFrameHeader.ofBytes bytes').getVlanTag.toNat =
        bytes'[15].toNat + bytes'[14].toNat * 2 ^ 8 := by
      rw [toNat_getVlanTag, if_pos ⟨h12, h13⟩]
    rw [htag] at hvalue
    have hlow : bytes'[15] = (EtherFrameHeader.ofBytes bytes).getVlanTag.toUInt8 := by
      have hlt := bytes'[15].toNat_lt
      rw [← UInt8.toNat_inj, UInt16.toNat_toUInt8, hvalue]
      omega
    exact add_one_ne _ (h15.symm.trans hlow)
  · -- the last byte of the source MAC is a leftover
    have h11 : bytes'[11] = bytes.get 11 + 1 := by
      rw [hbyte, if_neg (by omega)]
      simp [headerBytes, leftovers]
    have hlast : bytes'[11] = bytes.get 11 := congrArg (fun mac : Vector UInt8 6 ↦ mac[5]) hmac
    exact add_one_ne _ (h11.symm.trans hlast)

/-- **A clone cannot be told from its frame exactly if what is used of the header is in the
frame.** The same frames are those whose accessors depend on their contents only. -/
theorem cloneExact_iff (hdata : f.mData = some data) (hsize : f.mSize ≤ kMaxBufferSize) :
    (CloneExact f ↔ HeaderWithin (headerBytes data) f.size) ∧
      (DependsOnContents f ↔ HeaderWithin (headerBytes data) f.size) := by
  obtain ⟨mData, n⟩ := f
  obtain rfl : mData = some data := hdata
  show (_ ↔ HeaderWithin _ n) ∧ (_ ↔ HeaderWithin _ n)
  rw [← cloneExact_iff_dependsOnContents hsize, and_self]
  constructor
  · intro h
    obtain ⟨g, hclone, hexact⟩ := h (leftovers (headerBytes data))
    rw [EtherFrame.clone_eq hsize] at hclone
    obtain rfl := Except.ok.inj hclone
    exact headerWithin_of_leftovers hexact
  · intro h another
    refine ⟨_, EtherFrame.clone_eq hsize, ?_⟩
    have hsame : SameContents ⟨some data, n⟩ ⟨some (overlay n data another), n⟩ :=
      sameContents_iff.2 fun i hi ↦ if_pos hi
    refine (indistinguishable_iff hsame).2 (h.eq_of_agree fun i hi hlt ↦ ?_)
    rw [getElem_headerBytes_overlay, if_pos hlt]

end Clone

/-- A buffer that begins with two MACs and the type of a tag, all other bytes being 0. -/
def taggedData : Buffer := fun i ↦ if i.val = 12 then 0x81 else 0

/-- A frame of 16 bytes has its whole header. -/
theorem clone_tagged_exact : CloneExact ⟨some taggedData, 16⟩ := by
  have hsize : 16 ≤ kMaxBufferSize := by decide
  exact (cloneExact_iff (f := ⟨some taggedData, 16⟩) rfl hsize).1.2 (.inl (Nat.le_refl _))

/-- A frame of 14 bytes that ends with the type of a tag has the tag 0, and its clone has the tag
that is in the buffer of the clone. -/
theorem clone_short_differs :
    let f : EtherFrame := ⟨some taggedData, 14⟩
    let another : Buffer := fun _ ↦ 0xFF
    f.getVlanTag = .ok 0 ∧
      ((f.clone another).bind fun g ↦ g.getVlanTag) = .ok 0xFFFF ∧ ¬CloneExact f := by
  have htag : (EtherFrame.mk (some taggedData) 14).getVlanTag = .ok 0 := rfl
  have hclone : ((EtherFrame.mk (some taggedData) 14).clone fun _ ↦ 0xFF).bind
      (fun g ↦ g.getVlanTag) = .ok 0xFFFF := rfl
  refine ⟨htag, hclone, fun h ↦ ?_⟩
  obtain ⟨g, hg, hexact⟩ := h fun _ ↦ 0xFF
  rw [hg] at hclone
  have hsame : g.getVlanTag = .ok 0 := hexact.getVlanTag.trans htag
  rw [show (Except.ok g).bind (fun g : EtherFrame ↦ g.getVlanTag) = g.getVlanTag from rfl,
    hsame] at hclone
  exact absurd (Except.ok.inj hclone) (by decide)

end Vether
