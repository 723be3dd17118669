import Mathlib.Tactic
import EverythingNet.Node.Shape

/-!
`include/evrnet/node.h`: what the alignment macros come to.

The `%` of `ALIGN4` and `ALIGN8` is applied to the last operand of their argument only, and their
outer difference wraps. What they add is the padding to the next multiple all the same, because the
residues are right and both 4 and 8 divide the number of addresses.

* `Shifted`: the bytes of an entry lie at a second address, with the same residue modulo 8. Every
  accessor that reads these bytes only is then shifted with them (`Shifted.ips` to `Shifted.gpu`), and
  `ENTRY_CALC_SIZE` is the same.
* `accessors_aligned`: the accessors that use the macros return least multiples, and the offsets of
  all fields depend on the bytes of the entry and on its address modulo 8 alone.
-/

namespace EverythingNet

open CMem

variable {w : ℕ}

/-! ### The macros -/

section

variable {x y d : BitVec w} {n : ℕ}

/-- A padding is not changed by a shift by a multiple of 8. -/
lemma pad_shift (hw : w = 32 ∨ w = 64) {k : ℕ} (hk : k = 4 ∨ k = 8) (hd : d.toNat % 8 = 0) :
    (BitVec.ofNat w k - (y + d)) % BitVec.ofNat w k
      = (BitVec.ofNat w k - y) % BitVec.ofNat w k := by
  apply BitVec.eq_of_toNat_eq
  have hlt := y.isLt
  have hlt' := d.isLt
  rcases hw with rfl | rfl <;> rcases hk with rfl | rfl
  all_goals
    simp only [BitVec.toNat_add, BitVec.toNat_umod, BitVec.toNat_sub, BitVec.toNat_ofNat,
      Nat.reducePow, Nat.reduceMod] at *
    omega

lemma pad4_shift (hw : w = 32 ∨ w = 64) (hd : d.toNat % 8 = 0) :
    (4 - (y + d)) % 4 = (4 - y) % 4 := pad_shift hw (.inl rfl) hd

lemma pad8_shift (hw : w = 32 ∨ w = 64) (hd : d.toNat % 8 = 0) :
    (8 - (y + d)) % 8 = (8 - y) % 8 := pad_shift hw (.inr rfl) hd

lemma add_umod8 (hw : w = 32 ∨ w = 64) (hd : d.toNat % 8 = 0) : (x + d) % 8 = x % 8 := by
  apply BitVec.eq_of_toNat_eq
  rcases hw with rfl | rfl
  all_goals
    simp only [BitVec.ofNat_eq_ofNat, BitVec.toNat_add, BitVec.toNat_umod, BitVec.toNat_ofNat,
      Nat.reducePow, Nat.reduceMod]
    omega

end

/-! ### An entry at two addresses -/

/-- The bytes of the object `b`, an entry at `e`, also lie at `e + d` in the object `b'`, and `d` is a
multiple of 8. No object goes over the end of the address space. -/
structure Shifted (b : Block) (e : BitVec w) (b' : Block) (d : BitVec w) : Prop where
  bits : w = 32 ∨ w = 64
  base : b.base = e.toNat
  has : b'.Has (e + d).toNat b.bytes
  room : b.base + b.size ≤ 2 ^ w
  room' : b'.base + b'.size ≤ 2 ^ w
  dvd : d.toNat % 8 = 0

namespace Shifted

variable {b b' : Block} {e d p q : BitVec w} {l : List Byte}

lemma add_shift (p q d : BitVec w) : p + q + d = p + d + q := by ac_rfl

/-- What lies at `p` in the one object lies at `p + d` in the other. -/
lemma has_at (h : Shifted b e b' d) (hp : b.Has p.toNat l) (hl : 0 < l.length) :
    b'.Has (p + d).toNat l := by
  obtain ⟨pre, post, hb, ha⟩ := hp
  have hmid : b'.Has ((e + d).toNat + pre.length) l := (hb ▸ h.has : b'.Has _ (pre ++ l ++ post)).mid
  have hp' : p = e + BitVec.ofNat w pre.length := by
    apply BitVec.eq_of_toNat_eq
    have := p.isLt
    rw [toNat_add_ofNat (by rw [← h.base]; omega), ha, h.base]
  have haddr : (p + d).toNat = (e + d).toNat + pre.length := by
    have hend := hmid.end_le
    have hroom := h.room'
    rw [hp', add_shift, toNat_add_ofNat (by omega)]
  rwa [haddr]

lemma strlen (h : Shifted b e b' d) (hp : EverythingNet.strlen b p = .ok q) :
    EverythingNet.strlen b' (p + d) = .ok q := by
  obtain ⟨n, hn, hq⟩ := bind_eq_ok.mp hp
  obtain ⟨s, hs, rfl, hhas⟩ := Block.strlen_ok hn
  rw [strlen_has (h.has_at hhas (by simp)) hs]
  exact hq

/-- `ENTRY_NODE_NAME` -/
lemma name (e d : BitVec w) : entryNodeName (e + d) = entryNodeName e + d :=
  add_shift e d 4

/-- The end of a string, aligned. -/
lemma align4 (h : Shifted b e b' d) (p n c : BitVec w) :
    p + d + n + 1 + (4 - (p + d + n + c)) % 4 = p + n + 1 + (4 - (p + n + c)) % 4 + d := by
  have hy : p + d + n + c = p + n + c + d := by ac_rfl
  rw [hy, pad4_shift h.bits h.dvd]
  ac_rfl

lemma ips (h : Shifted b e b' d) (hp : entryNodeIps b e = .ok p) :
    entryNodeIps b' (e + d) = .ok (p + d) := by
  obtain ⟨n, hn, hp⟩ := bind_eq_ok.mp hp
  obtain rfl := Except.ok.inj hp
  rw [entryNodeIps, name, h.strlen hn, ok_bind, pure_eq_ok, h.align4]

lemma uuid (h : Shifted b e b' d) (hp : entryNodeUuid b e = .ok p) :
    entryNodeUuid b' (e + d) = .ok (p + d) := by
  obtain ⟨ips, hips, hp⟩ := bind_eq_ok.mp hp
  obtain ⟨num, hnum, hp⟩ := bind_eq_ok.mp hp
  obtain rfl := Except.ok.inj hp
  have hnum' : b'.load8 (entryNumIp (e + d)).toNat = .ok num := by
    have haddr : entryNumIp (e + d) = entryNumIp e + d := add_shift e d 2
    rw [haddr]
    exact (h.has_at (Block.load8_ok hnum) (by simp)).load8
  have hy : ips + d + num.setWidth w * 4 % 8 = ips + num.setWidth w * 4 % 8 + d :=
    add_shift ..
  rw [entryNodeUuid, h.ips hips, ok_bind, hnum', ok_bind, pure_eq_ok, hy, pad8_shift h.bits h.dvd]
  congr 1
  ac_rfl

/-- `ENTRY_NODE_EVRNET_VER` -/
lemma ver (h : Shifted b e b' d) (hp : entryNodeEvrnetVer b e = .ok p) :
    entryNodeEvrnetVer b' (e + d) = .ok (p + d) := by
  obtain ⟨q, hq, hp⟩ := bind_eq_ok.mp hp
  obtain rfl := Except.ok.inj hp
  rw [entryNodeEvrnetVer, h.uuid hq, ok_bind, pure_eq_ok, add_shift]

lemma cap (h : Shifted b e b' d) (hp : entryNodePlatinfoCap b e = .ok p) :
    entryNodePlatinfoCap b' (e + d) = .ok (p + d) := by
  obtain ⟨ver, hver, hp⟩ := bind_eq_ok.mp hp
  obtain ⟨n, hn, hp⟩ := bind_eq_ok.mp hp
  obtain rfl := Except.ok.inj hp
  rw [entryNodePlatinfoCap, h.ver hver, ok_bind, h.strlen hn, ok_bind, pure_eq_ok, h.align4]

lemma memsz (h : Shifted b e b' d) (hp : entryNodePlatinfoMemsz b e = .ok p) :
    entryNodePlatinfoMemsz b' (e + d) = .ok (p + d) := by
  obtain ⟨q, hq, hp⟩ := bind_eq_ok.mp hp
  obtain rfl := Except.ok.inj hp
  rw [entryNodePlatinfoMemsz, h.cap hq, ok_bind, pure_eq_ok, add_shift]

lemma platinfoName (h : Shifted b e b' d) (hp : entryNodePlatinfoName b e = .ok p) :
    entryNodePlatinfoName b' (e + d) = .ok (p + d) := by
  obtain ⟨q, hq, hp⟩ := bind_eq_ok.mp hp
  obtain rfl := Except.ok.inj hp
  rw [entryNodePlatinfoName, h.memsz hq, ok_bind, pure_eq_ok, add_shift]

lemma afterString (h : Shifted b e b' d) (hp : EverythingNet.afterString b q = .ok p) :
    EverythingNet.afterString b' (q + d) = .ok (p + d) := by
  obtain ⟨n, hn, hp⟩ := bind_eq_ok.mp hp
  obtain rfl := Except.ok.inj hp
  rw [EverythingNet.afterString, h.strlen hn, ok_bind, pure_eq_ok]
  congr 1
  ac_rfl

lemma os (h : Shifted b e b' d) (hp : entryNodePlatinfoOs b e = .ok p) :
    entryNodePlatinfoOs b' (e + d) = .ok (p + d) := by
  obtain ⟨q, hq, hp⟩ := bind_eq_ok.mp hp
  rw [entryNodePlatinfoOs, h.platinfoName hq, ok_bind, h.afterString hp]

lemma arch (h : Shifted b e b' d) (hp : entryNodePlatinfoArch b e = .ok p) :
    entryNodePlatinfoArch b' (e + d) = .ok (p + d) := by
  obtain ⟨q, hq, hp⟩ := bind_eq_ok.mp hp
  rw [entryNodePlatinfoArch, h.os hq, ok_bind, h.afterString hp]

lemma cpu (h : Shifted b e b' d) (hp : entryNodePlatinfoCpu b e = .ok p) :
    entryNodePlatinfoCpu b' (e + d) = .ok (p + d) := by
  obtain ⟨q, hq, hp⟩ := bind_eq_ok.mp hp
  rw [entryNodePlatinfoCpu, h.arch hq, ok_bind, h.afterString hp]

lemma gpu (h : Shifted b e b' d) (hp : entryNodePlatinfoGpu b e = .ok p) :
    entryNodePlatinfoGpu b' (e + d) = .ok (p + d) := by
  obtain ⟨q, hq, hp⟩ := bind_eq_ok.mp hp
  rw [entryNodePlatinfoGpu, h.cpu hq, ok_bind, h.afterString hp]

/-- `ENTRY_CALC_SIZE` -/
lemma calcSize (h : Shifted b e b' d) {v : U16} (hv : entryCalcSize b e = .ok v) :
    entryCalcSize b' (e + d) = .ok v := by
  obtain ⟨gpu, hgpu, hv⟩ := bind_eq_ok.mp hv
  obtain ⟨n, hn, hv⟩ := bind_eq_ok.mp hv
  have hused : gpu + d + n + 1 - (e + d) = gpu + n + 1 - e := by grind
  have hmod : (e + d) % 8 = e % 8 := add_umod8 h.bits h.dvd
  have hy : gpu + d + n + 1 - (e + d) % 8 = gpu + n + 1 - e % 8 + d := by
    rw [hmod]
    grind
  rw [entryCalcSize, h.gpu hgpu, ok_bind, h.strlen hn, ok_bind, hused, hy, pad8_shift h.bits h.dvd]
  exact hv

end Shifted

/-! ### The aligned fields -/

section

variable {b : Block} {e p n : BitVec w}

/-- The end of a string, aligned to four bytes. -/
lemma isLeast_align4 (hw : w = 32 ∨ w = 64) (hroom : p.toNat + n.toNat + 1 + 3 < 2 ^ w) :
    IsLeast {m | 4 ∣ m ∧ p.toNat + n.toNat + 1 ≤ m}
      (p + n + 1 + (4 - (p + n + 1 % 4)) % 4).toNat := by
  have hend : (p + n + 1).toNat = p.toNat + n.toNat + 1 := by
    rw [toNat_add_one (by rw [toNat_add_of_lt (by omega)]; omega), toNat_add_of_lt (by omega)]
  have hpad := pad_lt (show 0 < 4 by norm_num) (p.toNat + n.toNat + 1)
  rw [one_umod hw, toNat_align4 hw hend (by rw [hend]) (by omega)]
  exact isLeast_add_pad (by norm_num) _

lemma entryNodeIps_isLeast (hw : w = 32 ∨ w = 64) (hn : strlen b (entryNodeName e) = .ok n)
    (hroom : e.toNat + 4 + n.toNat + 1 + 3 < 2 ^ w) :
    ∃ p, entryNodeIps b e = .ok p
      ∧ IsLeast {m | 4 ∣ m ∧ e.toNat + 4 + n.toNat + 1 ≤ m} p.toNat := by
  have hname : (entryNodeName e).toNat = e.toNat + 4 := toNat_add_ofNat (k := 4) (by omega)
  refine ⟨_, bind_of_ok hn _, ?_⟩
  rw [← hname] at hroom ⊢
  exact isLeast_align4 hw hroom

lemma entryNodeUuid_isLeast (hw : w = 32 ∨ w = 64) {ips : BitVec w} {num : Byte}
    (hips : entryNodeIps b e = .ok ips) (hnum : b.load8 (entryNumIp e).toNat = .ok num)
    (hroom : ips.toNat + 4 * num.toNat + 7 < 2 ^ w) :
    ∃ p, entryNodeUuid b e = .ok p
      ∧ IsLeast {m | 8 ∣ m ∧ ips.toNat + 4 * num.toNat ≤ m} p.toNat := by
  have h4 := Spot.toNat_setWidth_mul hw num
  have hlt := num.isLt
  have hpow : 8 < 2 ^ w := by rcases hw with rfl | rfl <;> norm_num
  have hx : (ips + num.setWidth w * 4).toNat = ips.toNat + 4 * num.toNat := by
    rw [toNat_add_of_lt (by omega), h4]
  have hy : (ips + num.setWidth w * 4 % 8).toNat % 8 = (ips.toNat + 4 * num.toNat) % 8 := by
    have h8 : (num.setWidth w * 4 % 8).toNat = 4 * num.toNat % 8 := by
      rw [BitVec.toNat_umod, h4, BitVec.ofNat_eq_ofNat, BitVec.toNat_ofNat, Nat.mod_eq_of_lt hpow]
    rw [toNat_add_of_lt (by omega), h8]
    omega
  have hpad := pad_lt (show 0 < 8 by norm_num) (ips.toNat + 4 * num.toNat)
  refine ⟨_, (bind_of_ok hips _).trans (bind_of_ok hnum _), ?_⟩
  rw [toNat_align8 hw hx hy (by omega)]
  exact isLeast_add_pad (by norm_num) _

lemma entryNodePlatinfoCap_isLeast (hw : w = 32 ∨ w = 64) {ver : BitVec w}
    (hver : entryNodeEvrnetVer b e = .ok ver) (hn : strlen b ver = .ok n)
    (hroom : ver.toNat + n.toNat + 1 + 3 < 2 ^ w) :
    ∃ p, entryNodePlatinfoCap b e = .ok p
      ∧ IsLeast {m | 4 ∣ m ∧ ver.toNat + n.toNat + 1 ≤ m} p.toNat :=
  ⟨_, (bind_of_ok hver _).trans (bind_of_ok hn _), isLeast_align4 hw hroom⟩

/-- The used length of an entry, aligned to eight bytes: the outer difference of the macro takes the
address of the entry modulo 8 away from the end of the last string, not from the used length. -/
lemma entryCalcSize_isLeast (hw : w = 32 ∨ w = 64) {gpu : BitVec w}
    (hgpu : entryNodePlatinfoGpu b e = .ok gpu) (hn : strlen b gpu = .ok n)
    (hle : e.toNat ≤ gpu.toNat) (hroom : gpu.toNat + n.toNat < 2 ^ w) :
    ∃ v m, entryCalcSize b e = .ok v
      ∧ IsLeast {m | 8 ∣ m ∧ gpu.toNat + n.toNat + 1 - e.toNat ≤ m} m ∧ v.toNat = m % 2 ^ 16 := by
  have hx : (gpu + n + 1 - e).toNat = (gpu.toNat + n.toNat + 1 - e.toNat) % 2 ^ w := by
    have he := e.isLt
    rcases hw with rfl | rfl
    all_goals
      simp only [BitVec.ofNat_eq_ofNat, BitVec.toNat_add, BitVec.toNat_sub, BitVec.toNat_ofNat] at *
      omega
  have hy : (gpu + n + 1 - e % 8).toNat % 8 = (gpu.toNat + n.toNat + 1 - e.toNat) % 8 := by
    have he := e.isLt
    clear hx
    rcases hw with rfl | rfl
    all_goals
      simp only [BitVec.ofNat_eq_ofNat, BitVec.toNat_add, BitVec.toNat_sub, BitVec.toNat_umod,
        BitVec.toNat_ofNat, Nat.reducePow, Nat.reduceMod] at *
      omega
  have hdvd : 2 ^ 16 ∣ 2 ^ w := by rcases hw with rfl | rfl <;> norm_num
  have halign : (gpu + n + 1 - e + (8 - (gpu + n + 1 - e % 8)) % 8).toNat
      = (gpu.toNat + n.toNat + 1 - e.toNat + pad 8 (gpu.toNat + n.toNat + 1 - e.toNat)) % 2 ^ w :=
    toNat_align_mod hw (.inr rfl) hx hy
  refine ⟨_, _, (bind_of_ok hgpu _).trans (bind_of_ok hn _), isLeast_add_pad (by norm_num) _, ?_⟩
  rw [BitVec.toNat_setWidth, halign, Nat.mod_mod_of_dvd _ hdvd]

end

/-- The accessors of the fields whose offset is not fixed. -/
def fieldAccessors : List (Block → BitVec w → Except Halt (BitVec w)) :=
  [entryNodeIps, entryNodeUuid, entryNodeEvrnetVer, entryNodePlatinfoCap, entryNodePlatinfoMemsz,
    entryNodePlatinfoName, entryNodePlatinfoOs, entryNodePlatinfoArch, entryNodePlatinfoCpu,
    entryNodePlatinfoGpu]

lemma Shifted.fieldAccessors {b b' : Block} {e d : BitVec w} (h : Shifted b e b' d) :
    ∀ f ∈ fieldAccessors, ∀ p, f b e = .ok p → f b' (e + d) = .ok (p + d) := by
  simp only [EverythingNet.fieldAccessors, List.forall_mem_cons]
  exact ⟨fun _ => h.ips, fun _ => h.uuid, fun _ => h.ver, fun _ => h.cap, fun _ => h.memsz,
    fun _ => h.platinfoName, fun _ => h.os, fun _ => h.arch, fun _ => h.cpu, fun _ => h.gpu,
    List.forall_mem_nil _⟩

/-- **The alignment of an entry**, on a machine with addresses of 32 or of 64 bits and wherever the
entry lies. `ENTRY_NODE_IPS` and `ENTRY_NODE_PLATINFO_CAP` return the least multiple of 4 that is not
below the end of the string before, `ENTRY_NODE_UUID` the least multiple of 8 that is not below the
end of the IP addresses, `ENTRY_CALC_SIZE` the least multiple of 8 that is not below the used length,
modulo `2 ^ 16`; each of them unless it wraps. And the bytes `l` of an entry, as far as the accessors
read them, decide with its address modulo 8 about the offsets of all fields and about the size. -/
theorem accessors_aligned (hw : w = 32 ∨ w = 64) :
    (∀ (b : Block) (e n : BitVec w), strlen b (entryNodeName e) = .ok n →
        e.toNat + 4 + n.toNat + 1 + 3 < 2 ^ w →
      ∃ p, entryNodeIps b e = .ok p
        ∧ IsLeast {m | 4 ∣ m ∧ e.toNat + 4 + n.toNat + 1 ≤ m} p.toNat)
    ∧ (∀ (b : Block) (e ips : BitVec w) (num : Byte), entryNodeIps b e = .ok ips →
        b.load8 (entryNumIp e).toNat = .ok num → ips.toNat + 4 * num.toNat + 7 < 2 ^ w →
      ∃ p, entryNodeUuid b e = .ok p
        ∧ IsLeast {m | 8 ∣ m ∧ ips.toNat + 4 * num.toNat ≤ m} p.toNat)
    ∧ (∀ (b : Block) (e ver n : BitVec w), entryNodeEvrnetVer b e = .ok ver →
        strlen b ver = .ok n → ver.toNat + n.toNat + 1 + 3 < 2 ^ w →
      ∃ p, entryNodePlatinfoCap b e = .ok p
        ∧ IsLeast {m | 4 ∣ m ∧ ver.toNat + n.toNat + 1 ≤ m} p.toNat)
    ∧ (∀ (b : Block) (e gpu n : BitVec w), entryNodePlatinfoGpu b e = .ok gpu →
        strlen b gpu = .ok n → e.toNat ≤ gpu.toNat → gpu.toNat + n.toNat < 2 ^ w →
      ∃ v m, entryCalcSize b e = .ok v
        ∧ IsLeast {m | 8 ∣ m ∧ gpu.toNat + n.toNat + 1 - e.toNat ≤ m} m ∧ v.toNat = m % 2 ^ 16)
    ∧ ∀ (l : List Byte) (b : Block) (e e' : BitVec w), e.toNat % 8 = e'.toNat % 8 →
        e.toNat + l.length ≤ 2 ^ w → b.base + b.size ≤ 2 ^ w → b.Has e'.toNat l →
      (∀ f ∈ fieldAccessors, ∀ p, f ⟨e.toNat, l⟩ e = .ok p → f b e' = .ok (e' + (p - e)))
        ∧ ∀ v, entryCalcSize ⟨e.toNat, l⟩ e = .ok v → entryCalcSize b e' = .ok v := by
  refine ⟨fun _ _ _ => entryNodeIps_isLeast hw, fun _ _ _ _ => entryNodeUuid_isLeast hw,
    fun _ _ _ _ => entryNodePlatinfoCap_isLeast hw, fun _ _ _ _ => entryCalcSize_isLeast hw, ?_⟩
  intro l b e e' hmod hroom hroom' hhas
  have hd : (e' - e).toNat % 8 = 0 := by
    have he := e.isLt
    have he' := e'.isLt
    rcases hw with rfl | rfl
    all_goals
      rw [BitVec.toNat_sub]
      omega
  have he' : e + (e' - e) = e' := by grind
  have hshift : Shifted ⟨e.toNat, l⟩ e b (e' - e) := ⟨hw, rfl, he'.symm ▸ hhas, hroom, hroom', hd⟩
  constructor
  · intro f hf p hp
    have hoff : e' + (p - e) = p + (e' - e) := by grind
    have := hshift.fieldAccessors f hf p hp
    rwa [he', ← hoff] at this
  · intro v hv
    have := hshift.calcSize hv
    rwa [he'] at this

/-- An entry of a node `ab` with one IP address and empty platform strings. -/
def alignedSample : List Byte :=
  [48, 0, 1, 0] ++ [97, 98, 0] ++ [0, 0] ++ [10, 0, 0, 1] ++ List.replicate 16 7 ++ [118, 0] ++ [0, 0]
    ++ List.replicate 8 0 ++ List.replicate 5 0

/-- The sample three bytes behind a multiple of 8, and a second time further on. -/
theorem accessors_aligned_sample :
    (∃ p : BitVec 32, entryNodeIps ⟨0x1003, alignedSample⟩ 0x1003 = .ok p
        ∧ IsLeast {m | 4 ∣ m ∧ 0x100a ≤ m} p.toNat)
      ∧ (∃ p : BitVec 32, entryNodeUuid ⟨0x1003, alignedSample⟩ 0x1003 = .ok p
        ∧ IsLeast {m | 8 ∣ m ∧ 0x1010 ≤ m} p.toNat)
      ∧ (∃ p : BitVec 32, entryNodePlatinfoCap ⟨0x1003, alignedSample⟩ 0x1003 = .ok p
        ∧ IsLeast {m | 4 ∣ m ∧ 0x1022 ≤ m} p.toNat)
      ∧ (∃ v m, entryCalcSize ⟨0x1003, alignedSample⟩ (0x1003 : BitVec 32) = .ok v
        ∧ IsLeast {m | 8 ∣ m ∧ 46 ≤ m} m ∧ v.toNat = m % 2 ^ 16)
      ∧ entryNodePlatinfoGpu ⟨0x200a, 9 :: alignedSample⟩ (0x200b : BitVec 32) = .ok 0x2038
      ∧ entryCalcSize ⟨0x200a, 9 :: alignedSample⟩ (0x200b : BitVec 32) = .ok 48 := by
  obtain ⟨hips, huuid, hcap, hsize, hbytes⟩ := accessors_aligned (w := 32) (Or.inl rfl)
  have hhas : (⟨0x200a, 9 :: alignedSample⟩ : Block).Has (0x200b : BitVec 32).toNat alignedSample :=
    ⟨[9], [], by simp, rfl⟩
  obtain ⟨hfields, hcalc⟩ := hbytes alignedSample ⟨0x200a, 9 :: alignedSample⟩ 0x1003 0x200b rfl
    (by decide) (by decide) hhas
  exact ⟨hips ⟨0x1003, alignedSample⟩ 0x1003 2 rfl (by decide),
    huuid ⟨0x1003, alignedSample⟩ 0x1003 0x100c 1 rfl rfl (by decide),
    hcap ⟨0x1003, alignedSample⟩ 0x1003 0x1020 1 rfl rfl (by decide),
    hsize ⟨0x1003, alignedSample⟩ 0x1003 0x1030 0 rfl rfl (by decide) (by decide),
    hfields entryNodePlatinfoGpu (by simp [fieldAccessors]) 0x1030 rfl, hcalc 48 rfl⟩

end EverythingNet
