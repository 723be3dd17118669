import Mathlib.Tactic
import EverythingNet.Node.Convert

/-!
Node entries as values.

* `Entry`: what an entry says, field by field, with the paddings and the bytes after `memSz`
  (`rest`, which holds the strings of `PLAT_Info`). `Entry.bytes E` is its form in the memory of
  a host of byte order `E`; the wire form is `Entry.bytes .be`.
* `Entry.At a`: the paddings are those of an entry at address `a`. `Entry.Sound`: the entry may
  lie at any 8-aligned address, and so may what follows it. `Entry.Complete`: the five strings of
  `PLAT_Info` end inside the entry.
* `Sits E b p e`: the entry lies at the address `p`. Under it each accessor and load of the code is
  computed (`Sits.load_uuid0` and its siblings, `Sits.next`).
* `Reading`, `entryRead`: what a reader finds through the accessors; `Sits.read` says that it is
  what the entry says.
-/

namespace EverythingNet

open CMem

/-- The fields of an entry, the paddings between them and the bytes behind `memSz`. -/
structure Fields where
  distance : Byte
  name : CStr
  namePad : List Byte
  ips : List U32
  ipsPad : List Byte
  uuid : U64 × U64
  ver : CStr
  verPad : List Byte
  cap : U32
  memSz : U32
  rest : List Byte
  deriving DecidableEq

namespace Fields

/-- What decides the places of the fields. -/
def shape (f : Fields) : Shape :=
  ⟨BitVec.ofNat 8 f.ips.length, f.distance, f.name, f.namePad, f.ipsPad, f.ver, f.verPad⟩

/-- The number of bytes of the entry. -/
def length (f : Fields) : ℕ := f.shape.length + f.rest.length

end Fields

/-- An entry whose IP count fits its byte and whose length fits its size field. -/
@[ext]
structure Entry extends Fields where
  ips_lt : ips.length < 256
  length_lt : toFields.length < 65536
  deriving DecidableEq

/-- The key of an entry. -/
abbrev uuidOf (e : Entry) : U64 × U64 := e.uuid

namespace Entry

variable {a : ℕ} {e : Entry}

/-- The numbers of the entry in the byte order `E`. -/
def payload (E : Endian) (e : Entry) : Payload :=
  ⟨E.encode 2 e.length, e.ips.flatMap fun x => E.encode 4 x.toNat, E.encode 8 e.uuid.1.toNat,
    E.encode 8 e.uuid.2.toNat, E.encode 4 e.cap.toNat, E.encode 4 e.memSz.toNat⟩

/-- The entry in memory. -/
def bytes (E : Endian) (e : Entry) : List Byte := e.shape.bytes (e.payload E) ++ e.rest

/-- The paddings are those of an entry at address `a`. -/
structure At (a : ℕ) (e : Entry) : Prop where
  namePad : e.namePad.length = pad 4 (a + 5 + e.name.1.length)
  ipsPad : e.ipsPad.length = pad 8 (a + e.shape.ipsOff + 4 * e.ips.length)
  verPad : e.verPad.length = pad 4 (a + e.shape.verOff + e.ver.1.length + 1)

/-- The entry has the paddings of an 8-aligned address and a length that keeps the alignment. -/
structure Sound (e : Entry) : Prop where
  fits : e.At 0
  dvd : 8 ∣ e.length

/-- The five strings of `PLAT_Info` end inside the entry. -/
def Complete (e : Entry) : Prop := 5 ≤ (cstrings e.rest).length

/-- A sound and complete entry. -/
structure WellFormed (e : Entry) : Prop where
  sound : e.Sound
  complete : e.Complete

lemma toNat_numIp (e : Entry) : e.shape.numIp.toNat = e.ips.length :=
  toNat_ofNat_of_lt e.ips_lt

lemma At.fits (h : e.At a) (E : Endian) : Shape.Fits a e.shape (e.payload E) where
  size := E.encode_length 2 _
  name := e.name.2
  namePad := h.namePad
  ips := by
    rw [e.toNat_numIp, payload, List.length_flatMap]
    simp [mul_comm]
  ipsPad := by
    rw [e.toNat_numIp]
    exact h.ipsPad
  uuid0 := E.encode_length 8 _
  uuid1 := E.encode_length 8 _
  ver := e.ver.2
  verPad := h.verPad
  cap := E.encode_length 4 _
  memSz := E.encode_length 4 _

/-- Entries move between 8-aligned addresses. -/
lemma Sound.at (h : e.Sound) (ha : 8 ∣ a) : e.At a := by
  have hf := (h.fits.fits .le).of_dvd (dvd_zero 8) ha
  refine ⟨hf.namePad, ?_, hf.verPad⟩
  have := hf.ipsPad
  rwa [e.toNat_numIp] at this

/-- The paddings depend on the residue of the address only. -/
lemma At.of_mod {a' : ℕ} (h : e.At a) (ha : a' % 8 = a % 8) : e.At a' := by
  have hname := h.namePad
  have hips := h.ipsPad
  have hver := h.verPad
  rw [pad] at hname hips hver
  refine ⟨?_, ?_, ?_⟩
  · rw [pad]
    omega
  · rw [pad]
    omega
  · rw [pad]
    omega

@[simp] lemma bytes_length (E : Endian) (e : Entry) : (e.bytes E).length = e.length := by
  have hips : (e.payload E).ips.length = 4 * e.ips.length := by
    rw [payload, List.length_flatMap]
    simp [mul_comm]
  have hshape : (e.shape.bytes (e.payload E)).length = e.shape.length := by
    simp only [Shape.bytes, List.length_append, List.length_cons, List.length_nil, hips,
      Shape.length, Shape.capOff, Shape.verOff, Shape.uuidOff, Shape.ipsOff, e.toNat_numIp]
    simp only [payload, Endian.encode_length]
    omega
  rw [bytes, List.length_append, hshape, Fields.length]

lemma length_ge (e : Entry) : 30 ≤ e.length := by
  have := e.shape.length_ge
  rw [Fields.length]
  omega

/-- The fields of an entry follow each other. -/
lemma offsets (e : Entry) : 5 + e.name.1.length ≤ e.shape.ipsOff
    ∧ e.shape.ipsOff + 4 * e.ips.length ≤ e.shape.uuidOff ∧ e.shape.verOff = e.shape.uuidOff + 16
    ∧ e.shape.verOff + e.ver.1.length + 1 ≤ e.shape.capOff ∧ e.shape.capOff + 8 = e.shape.length := by
  have hnum := e.toNat_numIp
  have hname : e.shape.name = e.name.1 := rfl
  have hver : e.shape.ver = e.ver.1 := rfl
  simp only [Shape.length, Shape.capOff, Shape.verOff, Shape.uuidOff, Shape.ipsOff,
    true_and, and_true, hname, hver]
  omega

/-- With all strings empty and all paddings in place an entry still has 48 bytes. -/
lemma WellFormed.length_ge (h : e.WellFormed) : 48 ≤ e.length := by
  have hname := h.sound.fits.namePad
  have hips := h.sound.fits.ipsPad
  have hver := h.sound.fits.verPad
  have hrest : 5 ≤ e.rest.length := h.complete.trans (cstrings_length_le _)
  obtain ⟨n, hn⟩ := h.sound.dvd
  have hlen : e.length = e.shape.capOff + 8 + e.rest.length := by
    rw [Fields.length, Shape.length]
  have hname' : e.shape.name = e.name.1 := rfl
  have hpad : e.shape.namePad.length = e.namePad.length := rfl
  simp only [Shape.capOff, Shape.verOff, Shape.uuidOff, Shape.ipsOff, e.toNat_numIp, pad]
    at hname hips hver hlen
  simp only [Fields.shape] at hname hips hver hlen
  omega

lemma shape_length_le (e : Entry) : e.shape.length ≤ e.length := by
  rw [Fields.length]
  omega

/-- The words of an array are determined by their bytes. -/
lemma words_injective (E : Endian) {l l' : List U32}
    (h : (l.flatMap fun x => E.encode 4 x.toNat) = l'.flatMap fun x => E.encode 4 x.toNat)
    (hlen : l.length = l'.length) : l = l' := by
  induction l generalizing l' with
  | nil => exact (List.length_eq_zero_iff.mp hlen.symm).symm
  | cons x l ih =>
      cases l' with
      | nil => simp at hlen
      | cons y l' =>
          rw [List.flatMap_cons, List.flatMap_cons] at h
          obtain ⟨hx, hl⟩ := List.append_inj h (by simp)
          rw [E.encode_toNat_injective (by norm_num) hx, ih hl (by simpa using hlen)]

/-- An entry is determined by its bytes. -/
lemma eq_of_bytes {E : Endian} {e f : Entry} (he : e.Sound) (hf : f.Sound)
    (h : e.bytes E = f.bytes E) : e = f := by
  have hlen : e.length = f.length := by rw [← e.bytes_length E, h, f.bytes_length]
  simp only [bytes, Shape.bytes, List.append_assoc, payload, List.cons_append, List.nil_append]
    at h
  -- the fields are compared from the front, each one fixing the place of the next
  obtain ⟨-, h⟩ := List.append_inj h (by simp)
  obtain ⟨hnum, h⟩ := List.cons.inj h
  obtain ⟨hdist, h⟩ := List.cons.inj h
  obtain ⟨hname, h⟩ := append_zero_inj e.name.2 f.name.2 h
  have hnamePad : e.shape.namePad.length = f.shape.namePad.length :=
    he.fits.namePad.trans (hname ▸ hf.fits.namePad.symm)
  obtain ⟨hnamePad, h⟩ := List.append_inj h hnamePad
  have hcount : e.ips.length = f.ips.length := by
    rw [← e.toNat_numIp, ← f.toNat_numIp]
    exact congrArg BitVec.toNat hnum
  obtain ⟨hips, h⟩ := List.append_inj h (by simp [List.length_flatMap, hcount])
  have hoff : e.shape.ipsOff = f.shape.ipsOff := by
    rw [Shape.ipsOff, Shape.ipsOff, hnamePad, show e.shape.name = f.shape.name from hname]
  have hipsPad : e.shape.ipsPad.length = f.shape.ipsPad.length := by
    have h1 := he.fits.ipsPad
    rw [hoff, hcount, ← hf.fits.ipsPad] at h1
    exact h1
  obtain ⟨hipsPad, h⟩ := List.append_inj h hipsPad
  obtain ⟨huuid0, h⟩ := List.append_inj h (by simp)
  obtain ⟨huuid1, h⟩ := List.append_inj h (by simp)
  obtain ⟨hver, h⟩ := append_zero_inj e.ver.2 f.ver.2 h
  have hverOff : e.shape.verOff = f.shape.verOff := by
    rw [Shape.verOff, Shape.verOff, Shape.uuidOff, Shape.uuidOff, hoff, hipsPad,
      show e.shape.numIp = f.shape.numIp from hnum]
  have hverPad : e.shape.verPad.length = f.shape.verPad.length := by
    have h1 := he.fits.verPad
    rw [hverOff, hver, ← hf.fits.verPad] at h1
    exact h1
  obtain ⟨hverPad, h⟩ := List.append_inj h hverPad
  obtain ⟨hcap, h⟩ := List.append_inj h (by simp)
  obtain ⟨hmem, hrest⟩ := List.append_inj h (by simp)
  have huuid : e.uuid = f.uuid := Prod.ext (E.encode_toNat_injective (by norm_num) huuid0)
    (E.encode_toNat_injective (by norm_num) huuid1)
  have hfields : e.toFields = f.toFields := by
    cases e with
    | mk fe _ _ =>
        cases f with
        | mk ff _ _ =>
            cases fe
            cases ff
            simp only [Fields.mk.injEq]
            exact ⟨hdist, Subtype.ext hname, hnamePad, words_injective E hips hcount, hipsPad, huuid,
              Subtype.ext hver, hverPad, E.encode_toNat_injective (by norm_num) hcap,
              E.encode_toNat_injective (by norm_num) hmem, hrest⟩
  cases e
  cases f
  subst hfields
  rfl

/-- Converting the numbers of an entry gives its other form. -/
lemma payload_rev (E : Endian) (e : Entry) :
    (e.payload E).rev e.shape.numIp.toNat = e.payload E.flip := by
  rw [e.toNat_numIp, Payload.rev, payload, payload]
  simp only [Endian.encode_reverse, revGroups_flatMap]

end Entry

/-! ### An entry in memory -/

variable {w : ℕ}

/-- The entry lies at the address `p` of a block that leaves the end of the address space free. -/
structure Sits (E : Endian) (b : Block) (p : BitVec w) (e : Entry) : Prop where
  bits : w = 32 ∨ w = 64
  has : b.Has p.toNat (e.bytes E)
  pads : e.At p.toNat
  room : b.base + b.size < 2 ^ w

namespace Sits

variable {E : Endian} {b : Block} {p : BitVec w} {e : Entry}

lemma spot (h : Sits E b p e) : Spot b p e.shape (e.payload E) where
  bits := h.bits
  has := h.has.left
  fits := h.pads.fits E
  room := h.room

lemma end_lt (h : Sits E b p e) : p.toNat + e.length < 2 ^ w := by
  have := h.has.end_le
  rw [Entry.bytes_length] at this
  exact lt_of_le_of_lt this h.room

lemma has_rest (h : Sits E b p e) : b.Has (p.toNat + e.shape.length) e.rest := by
  have h1 := h.has.right
  rwa [h.spot.fits.length_bytes] at h1

/-- `ENTRY_SIZE` gives the length. -/
lemma load_size (h : Sits E b p e) :
    load16 E b (entrySize p) = .ok (BitVec.ofNat 16 e.length) := by
  have hs : b.Has (entrySize p).toNat (e.payload E).size := h.spot.has_size
  have hlt : e.length < 256 ^ 2 := e.length_lt
  rw [load16_has hs h.spot.fits.size, Entry.payload, E.decode_encode hlt]

/-- `ENTRY_NEXT` gives the address behind the entry. -/
lemma next (h : Sits E b p e) : entryNext E b p = .ok (p + BitVec.ofNat w e.length) := by
  have hlt : e.length < 2 ^ 16 := e.length_lt
  have hsize : (BitVec.ofNat 16 e.length).setWidth w = BitVec.ofNat w e.length := by
    apply BitVec.eq_of_toNat_eq
    rw [BitVec.toNat_setWidth, toNat_ofNat_of_lt hlt, BitVec.toNat_ofNat]
  rw [entryNext, h.load_size, ok_bind, pure_eq_ok, hsize]

lemma toNat_next (h : Sits E b p e) :
    (p + BitVec.ofNat w e.length).toNat = p.toNat + e.length := toNat_add_ofNat h.end_lt

/-- `*ENTRY_NUM_IP(e)`. -/
lemma load_numIp (h : Sits E b p e) :
    b.load8 (entryNumIp p).toNat = .ok (BitVec.ofNat 8 e.ips.length) := by
  have : (entryNumIp p).toNat = p.toNat + 2 :=
    h.spot.toNat_off (show 2 ≤ e.shape.length by have := e.shape.length_ge; omega)
  rw [this]
  exact h.spot.has_numIp.load8

/-- `*ENTRY_DISTANCE_FROM_ME(e)`. -/
lemma load_distance (h : Sits E b p e) :
    b.load8 (entryDistanceFromMe p).toNat = .ok e.distance := by
  have : (entryDistanceFromMe p).toNat = p.toNat + 3 :=
    h.spot.toNat_off (show 3 ≤ e.shape.length by have := e.shape.length_ge; omega)
  rw [this]
  exact h.spot.has_distance.load8

/-- The string at `ENTRY_NODE_NAME(e)`. -/
lemma cstr_name (h : Sits E b p e) : b.cstr (entryNodeName p).toNat = .ok e.name := by
  have : (entryNodeName p).toNat = p.toNat + 4 :=
    h.spot.toNat_off (show 4 ≤ e.shape.length by have := e.shape.length_ge; omega)
  rw [this]
  exact h.spot.has_name.cstr e.name.2

/-- `ENTRY_NODE_UUID(e)[0]`. -/
lemma load_uuid0 (h : Sits E b p e) :
    (entryNodeUuid b p >>= load64 E b) = .ok e.uuid.1 := by
  have hk : e.shape.uuidOff ≤ e.shape.length := by
    simp only [Shape.length, Shape.capOff, Shape.verOff]
    omega
  rw [h.spot.uuid, ok_bind,
    load64_has ((h.spot.has_uuid0).congr (h.spot.toNat_off hk)) h.spot.fits.uuid0, Entry.payload,
    E.decode_encode e.uuid.1.isLt, BitVec.ofNat_toNat, BitVec.setWidth_eq]

/-- `ENTRY_NODE_UUID(e)[1]`. -/
lemma load_uuid1 (h : Sits E b p e) :
    (entryNodeUuid b p >>= fun q => load64 E b (q + 8)) = .ok e.uuid.2 := by
  have hk : e.shape.uuidOff + 8 ≤ e.shape.length := by
    simp only [Shape.length, Shape.capOff, Shape.verOff]
    omega
  have hq : (p + BitVec.ofNat w e.shape.uuidOff + 8).toNat = p.toNat + e.shape.uuidOff + 8 := by
    rw [show (8 : BitVec w) = BitVec.ofNat w 8 from rfl, add_ofNat_ofNat, h.spot.toNat_off hk]
    omega
  rw [h.spot.uuid, ok_bind, load64_has ((h.spot.has_uuid1).congr hq) h.spot.fits.uuid1,
    Entry.payload, E.decode_encode e.uuid.2.isLt, BitVec.ofNat_toNat, BitVec.setWidth_eq]

end Sits

/-! ### Reading an entry -/

/-- What the accessors of an entry lead to. -/
structure Reading where
  size : U16
  numIp : Byte
  distance : Byte
  name : List Byte
  ips : List U32
  uuid : U64 × U64
  ver : List Byte
  cap : U32
  memSz : U32
  platName : List Byte
  os : List Byte
  arch : List Byte
  cpu : List Byte
  gpu : List Byte
  deriving DecidableEq

/-- The words of an array. -/
def loadWords (E : Endian) (b : Block) : ℕ → BitVec w → Except Halt (List U32)
  | 0, _ => .ok []
  | n + 1, p => do
    let x ← load32 E b p
    let l ← loadWords E b n (p + 4)
    return x :: l

/-- Read every field through its accessor, as `NODE_DumpEntry` does, and the IP addresses. -/
def entryRead (E : Endian) (b : Block) (p : BitVec w) : Except Halt Reading := do
  let size ← load16 E b (entrySize p)
  let numIp ← b.load8 (entryNumIp p).toNat
  let distance ← b.load8 (entryDistanceFromMe p).toNat
  let name ← b.cstr (entryNodeName p).toNat
  let ips ← entryNodeIps b p >>= loadWords E b numIp.toNat
  let uuid0 ← entryNodeUuid b p >>= load64 E b
  let uuid1 ← entryNodeUuid b p >>= fun q => load64 E b (q + 8)
  let ver ← entryNodeEvrnetVer b p >>= fun q => b.cstr q.toNat
  let cap ← entryNodePlatinfoCap b p >>= load32 E b
  let memSz ← entryNodePlatinfoMemsz b p >>= load32 E b
  let platName ← entryNodePlatinfoName b p >>= fun q => b.cstr q.toNat
  let os ← entryNodePlatinfoOs b p >>= fun q => b.cstr q.toNat
  let arch ← entryNodePlatinfoArch b p >>= fun q => b.cstr q.toNat
  let cpu ← entryNodePlatinfoCpu b p >>= fun q => b.cstr q.toNat
  let gpu ← entryNodePlatinfoGpu b p >>= fun q => b.cstr q.toNat
  return ⟨size, numIp, distance, name, ips, (uuid0, uuid1), ver, cap, memSz, platName, os, arch,
    cpu, gpu⟩

/-- What an entry says. -/
def Entry.reading (e : Entry) : Reading where
  size := BitVec.ofNat 16 e.length
  numIp := BitVec.ofNat 8 e.ips.length
  distance := e.distance
  name := e.name
  ips := e.ips
  uuid := e.uuid
  ver := e.ver
  cap := e.cap
  memSz := e.memSz
  platName := (cstrings e.rest).getD 0 []
  os := (cstrings e.rest).getD 1 []
  arch := (cstrings e.rest).getD 2 []
  cpu := (cstrings e.rest).getD 3 []
  gpu := (cstrings e.rest).getD 4 []

lemma loadWords_has {E : Endian} {b : Block} (hroom : b.base + b.size < 2 ^ w) (l : List U32) :
    ∀ p : BitVec w, b.Has p.toNat (l.flatMap fun x => E.encode 4 x.toNat) →
      loadWords E b l.length p = .ok l := by
  induction l with
  | nil => intro p _; rfl
  | cons x l ih =>
      intro p h
      rw [List.flatMap_cons] at h
      have hx : load32 E b p = .ok x := by
        rw [load32_has h.left (E.encode_length 4 _), E.decode_encode x.isLt, BitVec.ofNat_toNat,
          BitVec.setWidth_eq]
      have hend := h.left.end_le
      have hr := h.right
      rw [E.encode_length] at hend hr
      have hnext : (p + 4).toNat = p.toNat + 4 := toNat_add_ofNat (show p.toNat + 4 < 2 ^ w by omega)
      rw [List.length_cons, loadWords, hx, ok_bind, ih (p + 4) (hr.congr hnext), ok_bind,
        pure_eq_ok]

/-- `afterString` steps over a string and its terminator. -/
lemma afterString_has {b : Block} {q : BitVec w} {s : List Byte} (h : b.Has q.toNat (s ++ [0]))
    (hs : (0 : Byte) ∉ s) : afterString b q = .ok (q + BitVec.ofNat w (s.length + 1)) := by
  rw [afterString, strlen_has h hs, ok_bind, pure_eq_ok]
  exact congrArg _ (add_ofNat_ofNat q s.length 1)

/-- These strings lie one behind the other from `q` on. -/
def StringsAt (b : Block) (q : BitVec w) (t : List (List Byte)) : Prop :=
  ∃ l, b.Has q.toNat l ∧ cstrings l = t

/-- The first string is read, and `afterString` leads to the others. -/
lemma StringsAt.step {b : Block} {q : BitVec w} {s : List Byte} {t : List (List Byte)}
    (hroom : b.base + b.size < 2 ^ w) (h : StringsAt b q (s :: t)) :
    b.cstr q.toNat = .ok s ∧ ∃ q', afterString b q = .ok q' ∧ StringsAt b q' t := by
  obtain ⟨l, hl, hs⟩ := h
  obtain ⟨l', rfl, h0, ht⟩ := cstrings_eq_cons hs
  have hsplit : s ++ 0 :: l' = (s ++ [0]) ++ l' := by simp
  rw [hsplit] at hl
  have hend := hl.left.end_le
  have hr := hl.right
  rw [List.length_append, List.length_singleton] at hend hr
  refine ⟨hl.left.cstr h0, _, afterString_has hl.left h0, l', hr.congr ?_, ht⟩
  exact toNat_add_ofNat (by omega)

/-- The five strings of `PLAT_Info`. -/
lemma Sits.read_strings {E : Endian} {b : Block} {p : BitVec w} {e : Entry} (h : Sits E b p e)
    (hc : e.Complete) :
    (entryNodePlatinfoName b p >>= fun q => b.cstr q.toNat) = .ok e.reading.platName
      ∧ (entryNodePlatinfoOs b p >>= fun q => b.cstr q.toNat) = .ok e.reading.os
      ∧ (entryNodePlatinfoArch b p >>= fun q => b.cstr q.toNat) = .ok e.reading.arch
      ∧ (entryNodePlatinfoCpu b p >>= fun q => b.cstr q.toNat) = .ok e.reading.cpu
      ∧ (entryNodePlatinfoGpu b p >>= fun q => b.cstr q.toNat) = .ok e.reading.gpu := by
  obtain ⟨s0, s1, s2, s3, s4, t, ht⟩ : ∃ s0 s1 s2 s3 s4 t,
      cstrings e.rest = s0 :: s1 :: s2 :: s3 :: s4 :: t := by
    have hc' : 5 ≤ (cstrings e.rest).length := hc
    match hcs : cstrings e.rest, hc' with
    | s0 :: s1 :: s2 :: s3 :: s4 :: t, _ => exact ⟨s0, s1, s2, s3, s4, t, rfl⟩
  have hstr : StringsAt b (p + BitVec.ofNat w e.shape.length) (s0 :: s1 :: s2 :: s3 :: s4 :: t) :=
    ⟨e.rest, h.has_rest.congr (h.spot.toNat_off le_rfl), ht⟩
  obtain ⟨r0, q1, a1, hstr⟩ := hstr.step h.room
  obtain ⟨r1, q2, a2, hstr⟩ := hstr.step h.room
  obtain ⟨r2, q3, a3, hstr⟩ := hstr.step h.room
  obtain ⟨r3, q4, a4, hstr⟩ := hstr.step h.room
  obtain ⟨r4, -⟩ := hstr.step h.room
  have hos : entryNodePlatinfoOs b p = .ok q1 := by
    rw [entryNodePlatinfoOs, h.spot.platinfoName, ok_bind, a1]
  have harch : entryNodePlatinfoArch b p = .ok q2 := by
    rw [entryNodePlatinfoArch, hos, ok_bind, a2]
  have hcpu : entryNodePlatinfoCpu b p = .ok q3 := by
    rw [entryNodePlatinfoCpu, harch, ok_bind, a3]
  have hgpu : entryNodePlatinfoGpu b p = .ok q4 := by
    rw [entryNodePlatinfoGpu, hcpu, ok_bind, a4]
  simp only [Entry.reading, ht]
  refine ⟨?_, ?_, ?_, ?_, ?_⟩
  · rw [h.spot.platinfoName]
    exact r0
  · rw [hos]
    exact r1
  · rw [harch]
    exact r2
  · rw [hcpu]
    exact r3
  · rw [hgpu]
    exact r4

/-- Reading a complete entry gives what it says. -/
lemma Sits.read {E : Endian} {b : Block} {p : BitVec w} {e : Entry} (h : Sits E b p e)
    (hc : e.Complete) : entryRead E b p = .ok e.reading := by
  have hoff : e.shape.ipsOff ≤ e.shape.verOff ∧ e.shape.verOff ≤ e.shape.capOff
      ∧ e.shape.capOff + 8 = e.shape.length := by
    simp only [Shape.length, Shape.capOff, Shape.verOff, Shape.uuidOff, and_true]
    omega
  have hips : (entryNodeIps b p >>= loadWords E b (BitVec.ofNat 8 e.ips.length).toNat)
      = .ok e.ips := by
    rw [h.spot.ips, ok_bind, toNat_ofNat_of_lt e.ips_lt]
    exact loadWords_has h.room e.ips _ (h.spot.has_ips.congr (h.spot.toNat_off (by omega)))
  have hver : (entryNodeEvrnetVer b p >>= fun q => b.cstr q.toNat) = .ok e.ver.1 := by
    rw [h.spot.ver, ok_bind, h.spot.toNat_off (by omega)]
    exact h.spot.has_ver.cstr e.ver.2
  have hcap : (entryNodePlatinfoCap b p >>= load32 E b) = .ok e.cap := by
    rw [h.spot.cap, ok_bind, load32_has (h.spot.has_cap.congr (h.spot.toNat_off (by omega)))
      h.spot.fits.cap, Entry.payload, E.decode_encode e.cap.isLt, BitVec.ofNat_toNat,
      BitVec.setWidth_eq]
  have hmem : (entryNodePlatinfoMemsz b p >>= load32 E b) = .ok e.memSz := by
    have hq : (p + BitVec.ofNat w (e.shape.capOff + 4)).toNat = p.toNat + e.shape.capOff + 4 := by
      rw [h.spot.toNat_off (by omega)]
      omega
    rw [h.spot.memSz, ok_bind, load32_has (h.spot.has_memSz.congr hq) h.spot.fits.memSz,
      Entry.payload, E.decode_encode e.memSz.isLt, BitVec.ofNat_toNat, BitVec.setWidth_eq]
  obtain ⟨hname, hos, harch, hcpu, hgpu⟩ := h.read_strings hc
  rw [entryRead, h.load_size, ok_bind, h.load_numIp, ok_bind, h.load_distance, ok_bind,
    h.cstr_name, ok_bind, hips, ok_bind, h.load_uuid0, ok_bind, h.load_uuid1, ok_bind, hver,
    ok_bind, hcap, ok_bind, hmem, ok_bind, hname, ok_bind, hos, ok_bind, harch, ok_bind, hcpu,
    ok_bind, hgpu, ok_bind, pure_eq_ok]
  rfl

end EverythingNet
