import Mathlib.Tactic
import EverythingNet.Node.Accessor

/-!
The layout of a node entry, as the accessors find it.

* `Shape`: the bytes of an entry that decide where its fields lie (the IP count, the name, the
  version and the paddings between the fields) together with the distance byte. `Payload`: the
  bytes of the fields that are byte-swapped.
* `Shape.bytes`: the entry up to and with `memSz`, the part of an entry that the list functions
  read. `Shape.Fits a`: the lengths are those the accessors expect of an entry at address `a`.
* `Spot`: the entry lies at the address `e` of a block that leaves the end of the address space
  free. Under it every accessor is computed: `Spot.ips` to `Spot.platinfoName`.
* `exists_size`, `exists_ips` and their siblings split the entry around one field, which is how
  a write to the field is computed.
-/

namespace EverythingNet

open CMem

/-- The bytes of an entry that fix the places of its fields, and the distance byte. -/
structure Shape where
  numIp : Byte
  distance : Byte
  name : List Byte
  namePad : List Byte
  ipsPad : List Byte
  ver : List Byte
  verPad : List Byte
  deriving DecidableEq, Repr

/-- The bytes of the fields of an entry that hold numbers of more than one byte. -/
@[ext]
structure Payload where
  size : List Byte
  ips : List Byte
  uuid0 : List Byte
  uuid1 : List Byte
  cap : List Byte
  memSz : List Byte
  deriving DecidableEq, Repr

namespace Shape

/-- An entry up to and with `memSz`. -/
def bytes (s : Shape) (p : Payload) : List Byte :=
  p.size ++ [s.numIp, s.distance] ++ s.name ++ [0] ++ s.namePad ++ p.ips ++ s.ipsPad ++ p.uuid0
    ++ p.uuid1 ++ s.ver ++ [0] ++ s.verPad ++ p.cap ++ p.memSz

/-- The offset of the IP addresses. -/
def ipsOff (s : Shape) : ℕ := 5 + s.name.length + s.namePad.length

/-- The offset of the UUID. -/
def uuidOff (s : Shape) : ℕ := s.ipsOff + 4 * s.numIp.toNat + s.ipsPad.length

/-- The offset of the version string. -/
def verOff (s : Shape) : ℕ := s.uuidOff + 16

/-- The offset of the capabilities. -/
def capOff (s : Shape) : ℕ := s.verOff + s.ver.length + 1 + s.verPad.length

/-- The offset after `memSz`, where the device name starts. -/
def length (s : Shape) : ℕ := s.capOff + 8

/-- The lengths the accessors expect of an entry at address `a`. -/
structure Fits (a : ℕ) (s : Shape) (p : Payload) : Prop where
  size : p.size.length = 2
  name : (0 : Byte) ∉ s.name
  namePad : s.namePad.length = pad 4 (a + 5 + s.name.length)
  ips : p.ips.length = 4 * s.numIp.toNat
  ipsPad : s.ipsPad.length = pad 8 (a + s.ipsOff + 4 * s.numIp.toNat)
  uuid0 : p.uuid0.length = 8
  uuid1 : p.uuid1.length = 8
  ver : (0 : Byte) ∉ s.ver
  verPad : s.verPad.length = pad 4 (a + s.verOff + s.ver.length + 1)
  cap : p.cap.length = 4
  memSz : p.memSz.length = 4

variable {a : ℕ} {s : Shape} {p : Payload}

lemma Fits.length_bytes (h : Fits a s p) : (s.bytes p).length = s.length := by
  simp only [bytes, List.length_append, List.length_cons, List.length_nil, h.size, h.ips, h.uuid0,
    h.uuid1, h.cap, h.memSz, length, capOff, verOff, uuidOff, ipsOff]
  omega

/-- The padding depends on the residue of the address only. -/
lemma Fits.of_dvd {a' : ℕ} (h : Fits a s p) (ha : 8 ∣ a) (ha' : 8 ∣ a') : Fits a' s p := by
  have h4 : 4 ∣ a := dvd_trans (by norm_num) ha
  have h4' : 4 ∣ a' := dvd_trans (by norm_num) ha'
  have e1 := h.namePad
  have e2 := h.ipsPad
  have e3 := h.verPad
  rw [add_assoc, pad_add_of_dvd h4] at e1
  rw [add_assoc, pad_add_of_dvd ha] at e2
  rw [add_assoc, add_assoc, pad_add_of_dvd h4] at e3
  refine { h with namePad := ?_, ipsPad := ?_, verPad := ?_ }
  · rw [e1, add_assoc, pad_add_of_dvd h4']
  · rw [e2, add_assoc, pad_add_of_dvd ha']
  · rw [e3, add_assoc, add_assoc, pad_add_of_dvd h4']

lemma length_ge (s : Shape) : 30 ≤ s.length := by
  simp only [length, capOff, verOff, uuidOff, ipsOff]
  omega

/-! ### The entry around one field -/

lemma exists_size (s : Shape) (p : Payload) :
    ∃ z, ∀ v, s.bytes { p with size := v } = v ++ z :=
  ⟨[s.numIp, s.distance] ++ s.name ++ [0] ++ s.namePad ++ p.ips ++ s.ipsPad ++ p.uuid0
    ++ p.uuid1 ++ s.ver ++ [0] ++ s.verPad ++ p.cap ++ p.memSz, fun v => by simp [bytes]⟩

lemma exists_ips (h : Fits a s p) :
    ∃ x z, x.length = s.ipsOff ∧ ∀ v, s.bytes { p with ips := v } = x ++ v ++ z := by
  refine ⟨p.size ++ [s.numIp, s.distance] ++ s.name ++ [0] ++ s.namePad, s.ipsPad ++ p.uuid0
    ++ p.uuid1 ++ s.ver ++ [0] ++ s.verPad ++ p.cap ++ p.memSz, ?_, fun v => by simp [bytes]⟩
  simp only [List.length_append, List.length_cons, List.length_nil, h.size, ipsOff]
  omega

lemma exists_uuid0 (h : Fits a s p) :
    ∃ x z, x.length = s.uuidOff ∧ ∀ v, s.bytes { p with uuid0 := v } = x ++ v ++ z := by
  refine ⟨p.size ++ [s.numIp, s.distance] ++ s.name ++ [0] ++ s.namePad ++ p.ips ++ s.ipsPad,
    p.uuid1 ++ s.ver ++ [0] ++ s.verPad ++ p.cap ++ p.memSz, ?_, fun v => by simp [bytes]⟩
  simp only [List.length_append, List.length_cons, List.length_nil, h.size, h.ips, uuidOff, ipsOff]
  omega

lemma exists_uuid1 (h : Fits a s p) :
    ∃ x z, x.length = s.uuidOff + 8 ∧ ∀ v, s.bytes { p with uuid1 := v } = x ++ v ++ z := by
  refine ⟨p.size ++ [s.numIp, s.distance] ++ s.name ++ [0] ++ s.namePad ++ p.ips ++ s.ipsPad
    ++ p.uuid0, s.ver ++ [0] ++ s.verPad ++ p.cap ++ p.memSz, ?_, fun v => by simp [bytes]⟩
  simp only [List.length_append, List.length_cons, List.length_nil, h.size, h.ips, h.uuid0,
    uuidOff, ipsOff]
  omega

lemma exists_cap (h : Fits a s p) :
    ∃ x z, x.length = s.capOff ∧ ∀ v, s.bytes { p with cap := v } = x ++ v ++ z := by
  refine ⟨p.size ++ [s.numIp, s.distance] ++ s.name ++ [0] ++ s.namePad ++ p.ips ++ s.ipsPad
    ++ p.uuid0 ++ p.uuid1 ++ s.ver ++ [0] ++ s.verPad, p.memSz, ?_, fun v => by simp [bytes]⟩
  simp only [List.length_append, List.length_cons, List.length_nil, h.size, h.ips, h.uuid0,
    h.uuid1, capOff, verOff, uuidOff, ipsOff]
  omega

lemma exists_memSz (h : Fits a s p) :
    ∃ x, x.length = s.capOff + 4 ∧ ∀ v, s.bytes { p with memSz := v } = x ++ v := by
  refine ⟨p.size ++ [s.numIp, s.distance] ++ s.name ++ [0] ++ s.namePad ++ p.ips ++ s.ipsPad
    ++ p.uuid0 ++ p.uuid1 ++ s.ver ++ [0] ++ s.verPad ++ p.cap, ?_, fun v => by simp [bytes]⟩
  simp only [List.length_append, List.length_cons, List.length_nil, h.size, h.ips, h.uuid0,
    h.uuid1, h.cap, capOff, verOff, uuidOff, ipsOff]
  omega

lemma exists_numIp (h : Fits a s p) : ∃ x z, x.length = 2 ∧ s.bytes p = x ++ [s.numIp] ++ z :=
  ⟨p.size, [s.distance] ++ s.name ++ [0] ++ s.namePad ++ p.ips ++ s.ipsPad ++ p.uuid0
    ++ p.uuid1 ++ s.ver ++ [0] ++ s.verPad ++ p.cap ++ p.memSz, h.size, by simp [bytes]⟩

lemma exists_distance (h : Fits a s p) :
    ∃ x z, x.length = 3 ∧ s.bytes p = x ++ [s.distance] ++ z :=
  ⟨p.size ++ [s.numIp], s.name ++ [0] ++ s.namePad ++ p.ips ++ s.ipsPad ++ p.uuid0
    ++ p.uuid1 ++ s.ver ++ [0] ++ s.verPad ++ p.cap ++ p.memSz, by simp [h.size],
    by simp [bytes]⟩

lemma exists_name (h : Fits a s p) :
    ∃ x z, x.length = 4 ∧ s.bytes p = x ++ (s.name ++ [0]) ++ z :=
  ⟨p.size ++ [s.numIp, s.distance], s.namePad ++ p.ips ++ s.ipsPad ++ p.uuid0
    ++ p.uuid1 ++ s.ver ++ [0] ++ s.verPad ++ p.cap ++ p.memSz, by simp [h.size],
    by simp [bytes]⟩

lemma exists_ver (h : Fits a s p) :
    ∃ x z, x.length = s.verOff ∧ s.bytes p = x ++ (s.ver ++ [0]) ++ z := by
  refine ⟨p.size ++ [s.numIp, s.distance] ++ s.name ++ [0] ++ s.namePad ++ p.ips ++ s.ipsPad
    ++ p.uuid0 ++ p.uuid1, s.verPad ++ p.cap ++ p.memSz, ?_, by simp [bytes]⟩
  simp only [List.length_append, List.length_cons, List.length_nil, h.size, h.ips, h.uuid0,
    h.uuid1, verOff, uuidOff, ipsOff]
  omega

lemma exists_namePad (h : Fits a s p) :
    ∃ x z, x.length = 5 + s.name.length ∧ s.bytes p = x ++ s.namePad ++ z := by
  refine ⟨p.size ++ [s.numIp, s.distance] ++ s.name ++ [0], p.ips ++ s.ipsPad ++ p.uuid0 ++ p.uuid1
    ++ s.ver ++ [0] ++ s.verPad ++ p.cap ++ p.memSz, ?_, by simp [bytes]⟩
  simp only [List.length_append, List.length_cons, List.length_nil, h.size]
  omega

lemma exists_ipsPad (h : Fits a s p) :
    ∃ x z, x.length = s.ipsOff + 4 * s.numIp.toNat ∧ s.bytes p = x ++ s.ipsPad ++ z := by
  refine ⟨p.size ++ [s.numIp, s.distance] ++ s.name ++ [0] ++ s.namePad ++ p.ips, p.uuid0 ++ p.uuid1
    ++ s.ver ++ [0] ++ s.verPad ++ p.cap ++ p.memSz, ?_, by simp [bytes]⟩
  simp only [List.length_append, List.length_cons, List.length_nil, h.size, h.ips, ipsOff]
  omega

lemma exists_verPad (h : Fits a s p) :
    ∃ x z, x.length = s.verOff + s.ver.length + 1 ∧ s.bytes p = x ++ s.verPad ++ z := by
  refine ⟨p.size ++ [s.numIp, s.distance] ++ s.name ++ [0] ++ s.namePad ++ p.ips ++ s.ipsPad
    ++ p.uuid0 ++ p.uuid1 ++ s.ver ++ [0], p.cap ++ p.memSz, ?_, by simp [bytes]⟩
  simp only [List.length_append, List.length_cons, List.length_nil, h.size, h.ips, h.uuid0,
    h.uuid1, verOff, uuidOff, ipsOff]
  omega

end Shape

/-! ### The accessors on a laid out entry -/

/-- An entry of this shape lies at the address `e`. -/
structure Spot {w : ℕ} (b : Block) (e : BitVec w) (s : Shape) (p : Payload) : Prop where
  bits : w = 32 ∨ w = 64
  has : b.Has e.toNat (s.bytes p)
  fits : Shape.Fits e.toNat s p
  room : b.base + b.size < 2 ^ w

namespace Spot

variable {w : ℕ} {b : Block} {e : BitVec w} {s : Shape} {p : Payload}

lemma end_lt (h : Spot b e s p) : e.toNat + s.length < 2 ^ w := by
  have h1 := h.has.end_le
  rw [h.fits.length_bytes] at h1
  exact lt_of_le_of_lt h1 h.room

lemma pow_gt (h : Spot b e s p) : 64 < 2 ^ w := by
  rcases h.bits with rfl | rfl <;> norm_num

/-- An address inside the entry. -/
lemma toNat_off (h : Spot b e s p) {k : ℕ} (hk : k ≤ s.length) :
    (e + BitVec.ofNat w k).toNat = e.toNat + k := by
  have := h.end_lt
  exact toNat_add_ofNat (by omega)

lemma has_size (h : Spot b e s p) : b.Has e.toNat p.size := by
  obtain ⟨z, hz⟩ := s.exists_size p
  exact (hz p.size ▸ h.has : b.Has e.toNat (p.size ++ z)).left

lemma has_numIp (h : Spot b e s p) : b.Has (e.toNat + 2) [s.numIp] := by
  obtain ⟨x, z, hx, hz⟩ := Shape.exists_numIp h.fits
  exact hx ▸ (hz ▸ h.has : b.Has _ _).mid

lemma has_distance (h : Spot b e s p) : b.Has (e.toNat + 3) [s.distance] := by
  obtain ⟨x, z, hx, hz⟩ := Shape.exists_distance h.fits
  exact hx ▸ (hz ▸ h.has : b.Has _ _).mid

lemma has_name (h : Spot b e s p) : b.Has (e.toNat + 4) (s.name ++ [0]) := by
  obtain ⟨x, z, hx, hz⟩ := Shape.exists_name h.fits
  exact hx ▸ (hz ▸ h.has : b.Has _ _).mid

lemma has_ips (h : Spot b e s p) : b.Has (e.toNat + s.ipsOff) p.ips := by
  obtain ⟨x, z, hx, hz⟩ := Shape.exists_ips h.fits
  exact hx ▸ (hz p.ips ▸ h.has : b.Has _ _).mid

lemma has_uuid0 (h : Spot b e s p) : b.Has (e.toNat + s.uuidOff) p.uuid0 := by
  obtain ⟨x, z, hx, hz⟩ := Shape.exists_uuid0 h.fits
  exact hx ▸ (hz p.uuid0 ▸ h.has : b.Has _ _).mid

lemma has_uuid1 (h : Spot b e s p) : b.Has (e.toNat + s.uuidOff + 8) p.uuid1 := by
  obtain ⟨x, z, hx, hz⟩ := Shape.exists_uuid1 h.fits
  have h1 : b.Has (e.toNat + x.length) p.uuid1 := (hz p.uuid1 ▸ h.has : b.Has _ _).mid
  exact h1.congr (by omega)

lemma has_ver (h : Spot b e s p) : b.Has (e.toNat + s.verOff) (s.ver ++ [0]) := by
  obtain ⟨x, z, hx, hz⟩ := Shape.exists_ver h.fits
  exact hx ▸ (hz ▸ h.has : b.Has _ _).mid

lemma has_cap (h : Spot b e s p) : b.Has (e.toNat + s.capOff) p.cap := by
  obtain ⟨x, z, hx, hz⟩ := Shape.exists_cap h.fits
  exact hx ▸ (hz p.cap ▸ h.has : b.Has _ _).mid

lemma has_memSz (h : Spot b e s p) : b.Has (e.toNat + s.capOff + 4) p.memSz := by
  obtain ⟨x, hx, hz⟩ := Shape.exists_memSz h.fits
  have h1 : b.Has e.toNat (x ++ p.memSz) := hz p.memSz ▸ h.has
  exact h1.right.congr (by omega)

lemma has_pads (h : Spot b e s p) : b.Has (e.toNat + (5 + s.name.length)) s.namePad
    ∧ b.Has (e.toNat + (s.ipsOff + 4 * s.numIp.toNat)) s.ipsPad
    ∧ b.Has (e.toNat + (s.verOff + s.ver.length + 1)) s.verPad := by
  refine ⟨?_, ?_, ?_⟩
  · obtain ⟨x, z, hx, hz⟩ := Shape.exists_namePad h.fits
    exact hx ▸ (hz ▸ h.has : b.Has _ _).mid
  · obtain ⟨x, z, hx, hz⟩ := Shape.exists_ipsPad h.fits
    exact hx ▸ (hz ▸ h.has : b.Has _ _).mid
  · obtain ⟨x, z, hx, hz⟩ := Shape.exists_verPad h.fits
    exact hx ▸ (hz ▸ h.has : b.Has _ _).mid

/-- The end of a string that lies inside the entry, aligned to four bytes. -/
lemma align4_string (h : Spot b e s p) {q : BitVec w} {k n : ℕ} (hq : q.toNat = e.toNat + k)
    (hk : k + n + 1 + pad 4 (e.toNat + k + n + 1) ≤ s.length) :
    q + BitVec.ofNat w n + 1 + (4 - (q + BitVec.ofNat w n + 1 % 4)) % 4
      = e + BitVec.ofNat w (k + n + 1 + pad 4 (e.toNat + k + n + 1)) := by
  have hlt := h.end_lt
  have h1 : (q + BitVec.ofNat w n).toNat = e.toNat + k + n := by
    rw [toNat_add_ofNat (by omega), hq]
  have h2 : (q + BitVec.ofNat w n + 1).toNat = e.toNat + k + n + 1 := by
    rw [toNat_add_one (by omega), h1]
  apply BitVec.eq_of_toNat_eq
  rw [one_umod h.bits, toNat_align4 h.bits h2 (by rw [h2]) (by omega), h.toNat_off hk]
  omega

/-- `ENTRY_NODE_IPS`. -/
lemma ips (h : Spot b e s p) : entryNodeIps b e = .ok (e + BitVec.ofNat w s.ipsOff) := by
  have hlen : s.ipsOff ≤ s.length := by
    simp only [Shape.length, Shape.capOff, Shape.verOff, Shape.uuidOff]
    omega
  have hnm : (entryNodeName e).toNat = e.toNat + 4 :=
    h.toNat_off (show 4 ≤ s.length by have := s.length_ge; omega)
  have hstr : strlen b (entryNodeName e) = .ok (BitVec.ofNat w s.name.length) :=
    strlen_has (hnm ▸ h.has_name) h.fits.name
  have hsum : e.toNat + 4 + s.name.length + 1 = e.toNat + 5 + s.name.length := by omega
  have hoff : 4 + s.name.length + 1 + pad 4 (e.toNat + 4 + s.name.length + 1) = s.ipsOff := by
    rw [hsum, Shape.ipsOff, h.fits.namePad]
    omega
  rw [entryNodeIps, hstr, ok_bind, pure_eq_ok, h.align4_string hnm (by rw [hoff]; exact hlen),
    hoff]

/-- The number of bytes of the IP addresses. -/
lemma toNat_setWidth_mul (hw : w = 32 ∨ w = 64) (n : Byte) :
    (n.setWidth w * 4).toNat = 4 * n.toNat := by
  have hbyte : n.toNat < 256 := n.isLt
  have hpow : 256 * 4 < 2 ^ w := by rcases hw with rfl | rfl <;> norm_num
  have h4 : (4 : BitVec w).toNat = 4 := toNat_ofNat_of_lt (show 4 < 2 ^ w by omega)
  have hn : (n.setWidth w).toNat = n.toNat := by
    rw [BitVec.toNat_setWidth, Nat.mod_eq_of_lt (by omega)]
  rw [BitVec.toNat_mul, h4, hn, Nat.mod_eq_of_lt (by omega), mul_comm]

/-- `ENTRY_NODE_UUID`. -/
lemma uuid (h : Spot b e s p) : entryNodeUuid b e = .ok (e + BitVec.ofNat w s.uuidOff) := by
  have hlen : s.uuidOff ≤ s.length := by
    simp only [Shape.length, Shape.capOff, Shape.verOff]
    omega
  have hlt := h.end_lt
  have hpow := h.pow_gt
  have hips : (e + BitVec.ofNat w s.ipsOff).toNat = e.toNat + s.ipsOff :=
    h.toNat_off (by rw [Shape.uuidOff] at hlen; omega)
  have hnum : b.load8 (entryNumIp e).toNat = .ok s.numIp := by
    have : (entryNumIp e).toNat = e.toNat + 2 :=
      h.toNat_off (show 2 ≤ s.length by have := s.length_ge; omega)
    rw [this]
    exact h.has_numIp.load8
  have hoff : s.uuidOff = s.ipsOff + 4 * s.numIp.toNat
      + pad 8 (e.toNat + s.ipsOff + 4 * s.numIp.toNat) := by
    rw [Shape.uuidOff, h.fits.ipsPad]
  have h4 : (s.numIp.setWidth w * 4).toNat = 4 * s.numIp.toNat := toNat_setWidth_mul h.bits s.numIp
  have hx : (e + BitVec.ofNat w s.ipsOff + s.numIp.setWidth w * 4).toNat
      = e.toNat + s.ipsOff + 4 * s.numIp.toNat := by
    rw [toNat_add_of_lt (by omega), hips, h4]
  have hy : (e + BitVec.ofNat w s.ipsOff + s.numIp.setWidth w * 4 % 8).toNat % 8
      = (e.toNat + s.ipsOff + 4 * s.numIp.toNat) % 8 := by
    have h8 : (s.numIp.setWidth w * 4 % 8).toNat = 4 * s.numIp.toNat % 8 := by
      rw [BitVec.toNat_umod, h4, BitVec.ofNat_eq_ofNat, BitVec.toNat_ofNat,
        Nat.mod_eq_of_lt (show 8 < 2 ^ w by omega)]
    rw [toNat_add_of_lt (by omega), hips, h8]
    omega
  rw [entryNodeUuid, h.ips, ok_bind, hnum, ok_bind, pure_eq_ok]
  congr 1
  apply BitVec.eq_of_toNat_eq
  rw [toNat_align8 h.bits hx hy (by omega), h.toNat_off hlen, hoff]
  omega

/-- `ENTRY_NODE_EVRNET_VER`. -/
lemma ver (h : Spot b e s p) : entryNodeEvrnetVer b e = .ok (e + BitVec.ofNat w s.verOff) := by
  have h16 : (8 * 2 : BitVec w) = BitVec.ofNat w 16 := by
    rcases h.bits with rfl | rfl <;> rfl
  rw [entryNodeEvrnetVer, h.uuid, ok_bind, pure_eq_ok, h16, add_ofNat_ofNat, Shape.verOff]

/-- `ENTRY_NODE_PLATINFO_CAP`. -/
lemma cap (h : Spot b e s p) : entryNodePlatinfoCap b e = .ok (e + BitVec.ofNat w s.capOff) := by
  have hlen : s.capOff ≤ s.length := by
    simp only [Shape.length]
    omega
  have hver : (e + BitVec.ofNat w s.verOff).toNat = e.toNat + s.verOff :=
    h.toNat_off (by simp only [Shape.length, Shape.capOff]; omega)
  have hstr : strlen b (e + BitVec.ofNat w s.verOff) = .ok (BitVec.ofNat w s.ver.length) :=
    strlen_has (hver ▸ h.has_ver) h.fits.ver
  have hoff : s.verOff + s.ver.length + 1 + pad 4 (e.toNat + s.verOff + s.ver.length + 1)
      = s.capOff := by
    rw [Shape.capOff, h.fits.verPad]
  rw [entryNodePlatinfoCap, h.ver, ok_bind, hstr, ok_bind, pure_eq_ok,
    h.align4_string hver (by rw [hoff]; exact hlen), hoff]

/-- `ENTRY_NODE_PLATINFO_MEMSZ`. -/
lemma memSz (h : Spot b e s p) :
    entryNodePlatinfoMemsz b e = .ok (e + BitVec.ofNat w (s.capOff + 4)) := by
  rw [entryNodePlatinfoMemsz, h.cap, ok_bind, pure_eq_ok]
  exact congrArg _ (add_ofNat_ofNat e s.capOff 4)

/-- `ENTRY_NODE_PLATINFO_NAME`. -/
lemma platinfoName (h : Spot b e s p) :
    entryNodePlatinfoName b e = .ok (e + BitVec.ofNat w s.length) := by
  rw [entryNodePlatinfoName, h.memSz, ok_bind, pure_eq_ok]
  exact congrArg _ (add_ofNat_ofNat e (s.capOff + 4) 4)

end Spot

end EverythingNet
