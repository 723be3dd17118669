import Mathlib.Tactic
import EverythingNet.Node.Init
import EverythingNet.Node.Merge

/-!
The invariant of the node list, in terms of the accessors.

* `entryPlaces`: where the fields of an entry begin and end. `ChainEnds b p n`: they follow each other
  and end within `n` bytes. `Tiles`: entries that fill some bytes. `ListInv`: the whole list.
* `Holds.listInv`: a list of well-formed entries with different UUIDs satisfies it. `Holds.listInv_iff`:
  so does no other list of sound entries.
* `nodeInit_encodes`: what the accessors find after `NODE_Init`.
-/

namespace EverythingNet

open CMem KeyedLog

variable {w : ℕ}

/-! ### The invariant -/

/-- Where the fields of an entry lie. The strings and the array of IP addresses come with their
ends, behind which there may be padding. -/
structure Places (w : ℕ) where
  name : BitVec w
  nameEnd : BitVec w
  ips : BitVec w
  ipsEnd : BitVec w
  uuid : BitVec w
  ver : BitVec w
  verEnd : BitVec w
  cap : BitVec w
  memSz : BitVec w
  platName : BitVec w
  os : BitVec w
  arch : BitVec w
  cpu : BitVec w
  gpu : BitVec w
  gpuEnd : BitVec w

/-- The places in their order. -/
def Places.toList (l : Places w) : List (BitVec w) :=
  [l.name, l.nameEnd, l.ips, l.ipsEnd, l.uuid, l.ver, l.verEnd, l.cap, l.memSz, l.platName,
    l.os, l.arch, l.cpu, l.gpu, l.gpuEnd]

/-- The addresses of the padding of an entry of `n` bytes at `p`. -/
def Places.Padding (l : Places w) (p : BitVec w) (n a : ℕ) : Prop :=
  (l.nameEnd.toNat ≤ a ∧ a < l.ips.toNat) ∨ (l.ipsEnd.toNat ≤ a ∧ a < l.uuid.toNat)
    ∨ (l.verEnd.toNat ≤ a ∧ a < l.cap.toNat) ∨ (l.gpuEnd.toNat ≤ a ∧ a < p.toNat + n)

/-- The chain of the accessors of the entry at `p`. -/
def entryPlaces (b : Block) (p : BitVec w) : Except Halt (Places w) := do
  let nameEnd ← afterString b (entryNodeName p)
  let ips ← entryNodeIps b p
  let numIp ← b.load8 (entryNumIp p).toNat
  let uuid ← entryNodeUuid b p
  let ver ← entryNodeEvrnetVer b p
  let verEnd ← afterString b ver
  let cap ← entryNodePlatinfoCap b p
  let memSz ← entryNodePlatinfoMemsz b p
  let platName ← entryNodePlatinfoName b p
  let os ← entryNodePlatinfoOs b p
  let arch ← entryNodePlatinfoArch b p
  let cpu ← entryNodePlatinfoCpu b p
  let gpu ← entryNodePlatinfoGpu b p
  let gpuEnd ← afterString b gpu
  return ⟨entryNodeName p, nameEnd, ips, ips + numIp.setWidth w * 4, uuid, ver, verEnd, cap, memSz,
    platName, os, arch, cpu, gpu, gpuEnd⟩

/-- The fields of the entry at `p` follow each other and end within `n` bytes. -/
def ChainEnds (b : Block) (p : BitVec w) (n : ℕ) : Prop :=
  ∃ l, entryPlaces b p = .ok l ∧ (p :: l.toList).IsChain (fun x y => x.toNat ≤ y.toNat)
    ∧ l.gpuEnd.toNat ≤ p.toNat + n

/-- From `p` on there are entries, at the addresses `ps`, that fill `n` bytes. -/
inductive Tiles (E : Endian) (b : Block) : BitVec w → ℕ → List (BitVec w) → Prop where
  | nil (p : BitVec w) : Tiles E b p 0 []
  | cons (p : BitVec w) (n : ℕ) (ps : List (BitVec w)) (size : U16)
      (load : load16 E b (entrySize p) = .ok size) (pos : 0 < size.toNat) (dvd : 8 ∣ size.toNat)
      (chain : ChainEnds b p size.toNat) (rest : Tiles E b (p + size.setWidth w) n ps) :
      Tiles E b p (size.toNat + n) (p :: ps)

/-- The UUID of the entry at `p`. -/
def entryUuid (E : Endian) (b : Block) (p : BitVec w) : Except Halt (U64 × U64) := do
  let x ← entryNodeUuid b p >>= load64 E b
  let y ← entryNodeUuid b p >>= fun q => load64 E b (q + 8)
  return (x, y)

/-- The block is a node list: its `len` is its size, entries fill what is behind the header, and no
two of them have the same UUID. -/
def ListInv (t : Target) (b : Block) : Prop :=
  ∃ len ps us, load32 t.endian b (nlLen (BitVec.ofNat t.bits b.base)) = .ok len
    ∧ 8 ≤ len.toNat ∧ b.size = len.toNat
    ∧ Tiles t.endian b (nlEntries (BitVec.ofNat t.bits b.base)) (len.toNat - 8) ps
    ∧ ps.mapM (entryUuid t.endian b) = .ok us ∧ us.Nodup

/-! ### Well-formed lists -/

/-- One string of several, and the address of the next. -/
lemma strings_step {b : Block} {q : BitVec w} {l s : List Byte} {ss : List (List Byte)}
    (hroom : b.base + b.size < 2 ^ w) (hl : b.Has q.toNat l) (hs : cstrings l = s :: ss) :
    strlen b q = .ok (BitVec.ofNat w s.length)
      ∧ ∃ q' l', afterString b q = .ok q' ∧ b.Has q'.toNat l' ∧ cstrings l' = ss
        ∧ q'.toNat = q.toNat + (s.length + 1) ∧ l.length = s.length + 1 + l'.length
        ∧ l' = l.drop (s.length + 1) := by
  obtain ⟨l', rfl, h0, hss⟩ := cstrings_eq_cons hs
  have hsplit : s ++ 0 :: l' = (s ++ [0]) ++ l' := by simp
  rw [hsplit] at hl
  have hend := hl.left.end_le
  have hr := hl.right
  rw [List.length_append, List.length_singleton] at hend hr
  have hq : (q + BitVec.ofNat w (s.length + 1)).toNat = q.toNat + (s.length + 1) :=
    toNat_add_ofNat (by omega)
  refine ⟨strlen_has hl.left h0, _, l', afterString_has hl.left h0, hr.congr hq, hss, hq, ?_, ?_⟩
  · rw [List.length_append, List.length_cons]
    omega
  · rw [hsplit, List.drop_left' (by simp)]

/-- A string that ends inside some bytes is the first of their strings. -/
lemma strings_inside {b : Block} {q q' : BitVec w} {l : List Byte} (hroom : b.base + b.size < 2 ^ w)
    (hl : b.Has q.toNat l) (hafter : afterString b q = .ok q')
      (hend : q'.toNat ≤ q.toNat + l.length) :
    ∃ s l', cstrings l = s :: cstrings l' ∧ b.Has q'.toNat l'
      ∧ q'.toNat + l'.length = q.toNat + l.length := by
  rw [afterString, strlen, bind_assoc] at hafter
  obtain ⟨n, hn, hq'⟩ := bind_eq_ok.mp hafter
  obtain ⟨s, hs, rfl, hhas⟩ := Block.strlen_ok hn
  have hle := hhas.end_le
  rw [List.length_append, List.length_singleton] at hle
  have hnext : (q + BitVec.ofNat w (s.length + 1)).toNat = q.toNat + (s.length + 1) :=
    toNat_add_ofNat (by omega)
  obtain rfl : q + BitVec.ofNat w (s.length + 1) = q' := by
    rw [← add_ofNat_ofNat]
    exact Except.ok.inj hq'
  rw [hnext] at hend
  obtain ⟨l', rfl⟩ := hl.exists_eq_append hhas
    (by rw [List.length_append, List.length_singleton]; omega)
  refine ⟨s, l', ?_, ?_, ?_⟩
  · rw [List.append_assoc, List.singleton_append, cstrings_append hs]
  · refine hl.right.congr ?_
    rw [hnext, List.length_append, List.length_singleton]
  · rw [hnext]
    simp only [List.length_append, List.length_singleton]
    omega

/-- The number of bytes of the five strings of `PLAT_Info`. -/
def Entry.platLen (e : Entry) : ℕ := (((cstrings e.rest).take 5).map fun s => s.length + 1).sum

lemma Entry.platLen_le (e : Entry) : e.platLen ≤ e.rest.length := by
  refine le_trans ?_ (cstrings_sum_le e.rest)
  exact ((List.take_sublist 5 (cstrings e.rest)).map _).sum_le_sum fun _ _ => Nat.zero_le _

namespace Sits

variable {E : Endian} {b : Block} {p : BitVec w} {e : Entry}

/-- The accessors of the five strings and the end of the last one. -/
lemma strings (h : Sits E b p e) (hc : e.Complete) :
    ∃ os arch cpu gpu gpuEnd : BitVec w,
      entryNodePlatinfoOs b p = .ok os ∧ entryNodePlatinfoArch b p = .ok arch
      ∧ entryNodePlatinfoCpu b p = .ok cpu ∧ entryNodePlatinfoGpu b p = .ok gpu
      ∧ afterString b gpu = .ok gpuEnd
      ∧ strlen b gpu = .ok (BitVec.ofNat w e.reading.gpu.length)
      ∧ p.toNat + e.shape.length ≤ os.toNat ∧ os.toNat ≤ arch.toNat ∧ arch.toNat ≤ cpu.toNat
      ∧ cpu.toNat ≤ gpu.toNat ∧ gpuEnd.toNat = gpu.toNat + (e.reading.gpu.length + 1)
      ∧ gpuEnd.toNat = p.toNat + (e.shape.length + e.platLen)
      ∧ b.Has gpuEnd.toNat (e.rest.drop e.platLen) := by
  obtain ⟨s0, s1, s2, s3, s4, ss, hss⟩ : ∃ s0 s1 s2 s3 s4 ss,
      cstrings e.rest = s0 :: s1 :: s2 :: s3 :: s4 :: ss := by
    have hc' : 5 ≤ (cstrings e.rest).length := hc
    match hcs : cstrings e.rest, hc' with
    | s0 :: s1 :: s2 :: s3 :: s4 :: ss, _ => exact ⟨s0, s1, s2, s3, s4, ss, rfl⟩
  have hq0 : (p + BitVec.ofNat w e.shape.length).toNat = p.toNat + e.shape.length :=
    h.spot.toNat_off le_rfl
  obtain ⟨-, q1, l1, a1, hl1, hs1, hq1, hn1, hd1⟩ := strings_step h.room (h.has_rest.congr hq0) hss
  obtain ⟨-, q2, l2, a2, hl2, hs2, hq2, hn2, hd2⟩ := strings_step h.room hl1 hs1
  obtain ⟨-, q3, l3, a3, hl3, hs3, hq3, hn3, hd3⟩ := strings_step h.room hl2 hs2
  obtain ⟨-, q4, l4, a4, hl4, hs4, hq4, hn4, hd4⟩ := strings_step h.room hl3 hs3
  obtain ⟨hgpu, q5, l5, a5, hl5, -, hq5, hn5, hd5⟩ := strings_step h.room hl4 hs4
  have hos : entryNodePlatinfoOs b p = .ok q1 := by
    rw [entryNodePlatinfoOs, h.spot.platinfoName, ok_bind, a1]
  have harch : entryNodePlatinfoArch b p = .ok q2 := by
    rw [entryNodePlatinfoArch, hos, ok_bind, a2]
  have hcpu : entryNodePlatinfoCpu b p = .ok q3 := by
    rw [entryNodePlatinfoCpu, harch, ok_bind, a3]
  have hgpu' : entryNodePlatinfoGpu b p = .ok q4 := by
    rw [entryNodePlatinfoGpu, hcpu, ok_bind, a4]
  have hread : e.reading.gpu = s4 := by
    simp [Entry.reading, hss]
  have hplat : e.platLen = s0.length + 1 + (s1.length + 1 + (s2.length + 1 + (s3.length + 1
      + (s4.length + 1)))) := by
    simp [Entry.platLen, hss]
  have hdrop : l5 = e.rest.drop e.platLen := by
    rw [hd5, hd4, hd3, hd2, hd1, List.drop_drop, List.drop_drop, List.drop_drop,
      List.drop_drop, hplat]
  rw [hread]
  exact ⟨q1, q2, q3, q4, q5, hos, harch, hcpu, hgpu', a5, hgpu, by omega, by omega, by omega,
    by omega, hq5, by omega, hdrop ▸ hl5⟩

/-- Where the fields of an entry lie. -/
lemma places (h : Sits E b p e) (hc : e.Complete) :
    ∃ l : Places w, entryPlaces b p = .ok l
      ∧ l.name.toNat = p.toNat + 4 ∧ l.nameEnd.toNat = p.toNat + 5 + e.name.1.length
      ∧ l.ips.toNat = p.toNat + e.shape.ipsOff
      ∧ l.ipsEnd.toNat = p.toNat + e.shape.ipsOff + 4 * e.ips.length
      ∧ l.uuid.toNat = p.toNat + e.shape.uuidOff ∧ l.ver.toNat = p.toNat + e.shape.verOff
      ∧ l.verEnd.toNat = p.toNat + e.shape.verOff + e.ver.1.length + 1
      ∧ l.cap.toNat = p.toNat + e.shape.capOff ∧ l.memSz.toNat = p.toNat + (e.shape.capOff + 4)
      ∧ l.platName.toNat = p.toNat + e.shape.length ∧ l.platName.toNat ≤ l.os.toNat
      ∧ l.os.toNat ≤ l.arch.toNat ∧ l.arch.toNat ≤ l.cpu.toNat ∧ l.cpu.toNat ≤ l.gpu.toNat
      ∧ l.gpuEnd.toNat = l.gpu.toNat + (e.reading.gpu.length + 1)
      ∧ l.gpuEnd.toNat = p.toNat + (e.shape.length + e.platLen) := by
  obtain ⟨os, arch, cpu, gpu, gpuEnd, hos, harch, hcpu, hgpu, hend, -, h1, h2, h3, h4, h5, h6, -⟩ :=
    h.strings hc
  have hoff := e.offsets
  have hlt := h.end_lt
  have hshape := e.shape_length_le
  have hname : (entryNodeName p).toNat = p.toNat + 4 :=
    h.spot.toNat_off (show 4 ≤ e.shape.length by omega)
  have hips : (p + BitVec.ofNat w e.shape.ipsOff).toNat = p.toNat + e.shape.ipsOff :=
    h.spot.toNat_off (by omega)
  have hipsEnd : (p + BitVec.ofNat w e.shape.ipsOff + (BitVec.ofNat 8 e.ips.length).setWidth w
    * 4).toNat
      = p.toNat + e.shape.ipsOff + 4 * e.ips.length := by
    have hbytes := Spot.toNat_setWidth_mul h.bits (BitVec.ofNat 8 e.ips.length)
    rw [toNat_ofNat_of_lt e.ips_lt] at hbytes
    rw [toNat_add_of_lt (by omega), hips, hbytes]
  have hver : (p + BitVec.ofNat w e.shape.verOff).toNat = p.toNat + e.shape.verOff :=
    h.spot.toNat_off (by omega)
  -- the ends of the name and of the version
  have hnameEnd := afterString_has (hname ▸ h.spot.has_name : b.Has
    (entryNodeName p).toNat _) e.name.2
  have hverEnd := afterString_has (hver ▸ h.spot.has_ver) e.ver.2
  have hname' : (entryNodeName p + BitVec.ofNat w (e.name.1.length + 1)).toNat
      = p.toNat + 5 + e.name.1.length := by
    rw [toNat_add_ofNat (by omega), hname]
    omega
  have hver' : (p + BitVec.ofNat w e.shape.verOff + BitVec.ofNat w (e.ver.1.length + 1)).toNat
      = p.toNat + e.shape.verOff + e.ver.1.length + 1 := by
    rw [toNat_add_ofNat (by omega), hver]
    omega
  refine ⟨⟨entryNodeName p, entryNodeName p + BitVec.ofNat w (e.name.1.length + 1),
    p + BitVec.ofNat w e.shape.ipsOff,
    p + BitVec.ofNat w e.shape.ipsOff + (BitVec.ofNat 8 e.ips.length).setWidth w * 4,
    p + BitVec.ofNat w e.shape.uuidOff, p + BitVec.ofNat w e.shape.verOff,
    p + BitVec.ofNat w e.shape.verOff + BitVec.ofNat w (e.ver.1.length + 1),
    p + BitVec.ofNat w e.shape.capOff, p + BitVec.ofNat w (e.shape.capOff + 4),
    p + BitVec.ofNat w e.shape.length, os, arch, cpu, gpu, gpuEnd⟩, ?_, hname, hname', hips, hipsEnd,
    h.spot.toNat_off (by omega), hver, hver', h.spot.toNat_off (by omega),
      h.spot.toNat_off (by omega),
    h.spot.toNat_off le_rfl, ?_, h2, h3, h4, h5, h6⟩
  · rw [entryPlaces, hnameEnd, ok_bind, h.spot.ips, ok_bind, h.load_numIp, ok_bind,
      h.spot.uuid, ok_bind,
      h.spot.ver, ok_bind, hverEnd, ok_bind, h.spot.cap, ok_bind, h.spot.memSz, ok_bind,
      h.spot.platinfoName, ok_bind, hos, ok_bind, harch, ok_bind, hcpu, ok_bind, hgpu, ok_bind, hend,
      ok_bind, pure_eq_ok]
  · rw [h.spot.toNat_off le_rfl]
    exact h1

/-- The fields of an entry in its place end inside it. -/
lemma chainEnds (h : Sits E b p e) (hc : e.Complete) : ChainEnds b p e.length := by
  obtain ⟨l, hl, hname, hnameEnd, hips, hipsEnd, huuid, hver, hverEnd, hcap, hmem, hplat, h1,
    h2, h3, h4, h5, h6⟩ := h.places hc
  have hlength : e.length = e.shape.length + e.rest.length := rfl
  refine ⟨l, hl, ?_, ?_⟩
  · obtain ⟨o1, o2, o3, o4, o5⟩ := e.offsets
    have hgpu : l.gpu.toNat ≤ l.gpuEnd.toNat := by
      rw [h5]
      exact Nat.le_add_right ..
    simp only [Places.toList, List.isChain_cons_cons, List.isChain_singleton, and_true]
    refine ⟨?_, ?_, ?_, ?_, ?_, ?_, ?_, ?_, ?_, ?_, h1, h2, h3, h4, hgpu⟩
    all_goals
      simp only [hname, hnameEnd, hips, hipsEnd, huuid, hver, hverEnd, hcap, hmem, hplat]
      clear * - o1 o2 o3 o4 o5
      omega
  · rw [h6, hlength]
    exact Nat.add_le_add_left (Nat.add_le_add_left e.platLen_le _) _

/-- An entry in its place whose fields end inside it has its five strings. -/
lemma complete_of_chainEnds (h : Sits E b p e) (hc : ChainEnds b p e.length) : e.Complete := by
  obtain ⟨l, hl, hchain, hend⟩ := hc
  have hplat := h.spot.platinfoName
  have hq : (p + BitVec.ofNat w e.shape.length).toNat = p.toNat + e.shape.length :=
    h.spot.toNat_off le_rfl
  have hlength : e.length = e.shape.length + e.rest.length := rfl
  -- the chain of the accessors, step by step
  simp only [entryPlaces, bind_eq_ok, pure_eq_ok, Except.ok.injEq] at hl
  obtain ⟨nameEnd, -, ips, -, numIp, -, uuid, -, ver, -, verEnd, -, cap, -, memSz, -, q0, h0, q1,
    h1, q2, h2, q3, h3, q4, h4, q5, h5, rfl⟩ := hl
  dsimp only at hend
  obtain rfl : q0 = p + BitVec.ofNat w e.shape.length := Except.ok.inj (h0.symm.trans hplat)
  rw [entryNodePlatinfoOs, hplat, ok_bind] at h1
  rw [entryNodePlatinfoArch, entryNodePlatinfoOs, hplat, ok_bind, h1, ok_bind] at h2
  rw [entryNodePlatinfoCpu, entryNodePlatinfoArch, entryNodePlatinfoOs, hplat, ok_bind, h1,
    ok_bind, h2, ok_bind] at h3
  rw [entryNodePlatinfoGpu, entryNodePlatinfoCpu, entryNodePlatinfoArch, entryNodePlatinfoOs, hplat,
    ok_bind, h1, ok_bind, h2, ok_bind, h3, ok_bind] at h4
  simp only [Places.toList, List.isChain_cons_cons, List.isChain_singleton, and_true] at hchain
  obtain ⟨s0, l1, hs0, hl1, he1⟩ := strings_inside h.room (h.has_rest.congr hq) h1 (by omega)
  obtain ⟨s1, l2, hs1, hl2, he2⟩ := strings_inside h.room hl1 h2 (by omega)
  obtain ⟨s2, l3, hs2, hl3, he3⟩ := strings_inside h.room hl2 h3 (by omega)
  obtain ⟨s3, l4, hs3, hl4, he4⟩ := strings_inside h.room hl3 h4 (by omega)
  obtain ⟨s4, l5, hs4, -, -⟩ := strings_inside h.room hl4 h5 (by omega)
  rw [Entry.Complete, hs0, hs1, hs2, hs3, hs4]
  simp

/-- The UUID of an entry in its place. -/
lemma entryUuid (h : Sits E b p e) : EverythingNet.entryUuid E b p = .ok e.uuid := by
  rw [EverythingNet.entryUuid, h.load_uuid0, ok_bind, h.load_uuid1, ok_bind, pure_eq_ok]

end Sits

namespace Holds

variable {t : Target} {b : Block} {v : U32} {K : List Entry}

/-- The entries of a list fill what is behind its header. -/
lemma tiles (h : Holds t b v K) (hc : ∀ e ∈ K, e.Complete) (rs : List Entry) :
    ∀ (ds : List Entry) (q : BitVec t.bits), K = ds ++ rs → q.toNat = b.base + 8 + total ds →
      ∃ ps, Tiles t.endian b q (total rs) ps
        ∧ ps.mapM (entryUuid t.endian b) = .ok (rs.map uuidOf) := by
  induction rs with
  | nil => exact fun ds q _ _ => ⟨[], .nil q, rfl⟩
  | cons e rs ih =>
      intro ds q hK hq
      have hsits := h.sits_at hK hq
      have hmem : e ∈ K := by simp [hK]
      have hlt : e.length < 2 ^ 16 := e.length_lt
      have hsize : (BitVec.ofNat 16 e.length).toNat = e.length := toNat_ofNat_of_lt hlt
      have hpos := e.length_ge
      have hnext : q + (BitVec.ofNat 16 e.length).setWidth t.bits
        = q + BitVec.ofNat t.bits e.length := by
        congr 1
        apply BitVec.eq_of_toNat_eq
        rw [BitVec.toNat_setWidth, hsize, BitVec.toNat_ofNat]
      obtain ⟨ps, hps, hus⟩ := ih (ds ++ [e]) (q + BitVec.ofNat t.bits e.length) (by simp [hK]) (by
        rw [hsits.toNat_next, hq, total_append, total_cons, total_nil]
        omega)
      refine ⟨q :: ps, ?_, ?_⟩
      · have htiles := Tiles.cons q (total rs) ps (BitVec.ofNat 16 e.length) hsits.load_size
          (by omega) (hsize.symm ▸ (h.sound e hmem).dvd) (hsize.symm ▸ hsits.chainEnds (hc e hmem))
          (hnext.symm ▸ hps)
        rwa [hsize, ← total_cons] at htiles
      · rw [List.mapM_cons, hsits.entryUuid, ok_bind, hus, ok_bind, pure_eq_ok, List.map_cons]

/-- A list of well-formed entries with different UUIDs satisfies the invariant. -/
lemma listInv (h : Holds t b v K) (hc : ∀ e ∈ K, e.Complete) (hn : (K.map uuidOf).Nodup) :
    ListInv t b := by
  have hlt := h.len_lt
  have hlen : (BitVec.ofNat 32 (8 + total K)).toNat = 8 + total K := toNat_ofNat_of_lt hlt
  obtain ⟨ps, hps, hus⟩ := h.tiles hc K [] (nlEntries (BitVec.ofNat t.bits b.base)) rfl (by
    rw [h.toNat_entries, total_nil, Nat.add_zero])
  refine ⟨_, ps, _, h.load_len, by omega, by rw [h.size_eq, hlen], ?_, hus, hn⟩
  rwa [hlen, Nat.add_sub_cancel_left]

/-- Where entries that end with their fields fill what is behind the header, they are those of the
list. -/
lemma of_tiles (h : Holds t b v K) (rs : List Entry) :
    ∀ (ds : List Entry) (q : BitVec t.bits) (n : ℕ) (ps : List (BitVec t.bits)), K = ds ++ rs →
      q.toNat = b.base + 8 + total ds → n = total rs → Tiles t.endian b q n ps →
        (∀ e ∈ rs, e.Complete) ∧ ps.mapM (entryUuid t.endian b) = .ok (rs.map uuidOf) := by
  induction rs with
  | nil =>
      intro ds q n ps _ _ hn hps
      cases hps with
      | nil => exact ⟨by simp, rfl⟩
      | cons _ n ps size load pos dvd chain rest =>
          rw [total_nil] at hn
          omega
  | cons e rs ih =>
      intro ds q n ps hK hq hn hps
      have hsits := h.sits_at hK hq
      have hpos := e.length_ge
      rw [total_cons] at hn
      cases hps with
      | nil => omega
      | cons _ n ps size load pos dvd chain rest =>
          obtain rfl : size = BitVec.ofNat 16 e.length :=
            Except.ok.inj (load.symm.trans hsits.load_size)
          have hsize : (BitVec.ofNat 16 e.length).toNat = e.length := toNat_ofNat_of_lt e.length_lt
          have hnext : entryNext t.endian b q
              = .ok (q + (BitVec.ofNat 16 e.length).setWidth t.bits) := by
            rw [entryNext, load, ok_bind, pure_eq_ok]
          have hnext' := Except.ok.inj (hnext.symm.trans hsits.next)
          rw [hsize] at chain hn
          rw [hnext'] at rest
          obtain ⟨hrs, hus⟩ := ih (ds ++ [e]) _ n ps (by simp [hK]) (by
            rw [hsits.toNat_next, hq, total_append, total_cons, total_nil]
            omega) (by omega) rest
          refine ⟨?_, ?_⟩
          · intro f hf
            cases List.mem_cons.mp hf with
            | inl hfe => exact hfe ▸ hsits.complete_of_chainEnds chain
            | inr hf => exact hrs f hf
          · rw [List.mapM_cons, hsits.entryUuid, ok_bind, hus, ok_bind, pure_eq_ok, List.map_cons]

/-- The invariant says just that the entries are complete and have different UUIDs. -/
lemma listInv_iff (h : Holds t b v K) :
    ListInv t b ↔ (∀ e ∈ K, e.Complete) ∧ (K.map uuidOf).Nodup := by
  constructor
  · rintro ⟨len, ps, us, hlen, -, -, htiles, hus, hnodup⟩
    obtain rfl : len = BitVec.ofNat 32 (8 + total K) := Except.ok.inj (hlen.symm.trans h.load_len)
    have htot : (BitVec.ofNat 32 (8 + total K)).toNat - 8 = total K := by
      rw [toNat_ofNat_of_lt h.len_lt, Nat.add_sub_cancel_left]
    obtain ⟨hc, hus'⟩ := h.of_tiles K [] _ _ ps rfl
      (by rw [h.toNat_entries, total_nil, Nat.add_zero]) htot htiles
    obtain rfl : us = K.map uuidOf := Except.ok.inj (hus.symm.trans hus')
    exact ⟨hc, hnodup⟩
  · exact fun ⟨hc, hn⟩ => h.listInv hc hn

end Holds

/-! ### The local entry -/

/-- With zero paddings every byte between the fields of an entry is zero. -/
lemma Sits.load8_padding {E : Endian} {b : Block} {p : BitVec w} {e : Entry} (h : Sits E b p e)
    (hc : e.Complete)
    (hz : ∀ x ∈ e.namePad ++ e.ipsPad ++ e.verPad ++ e.rest.drop e.platLen, x = 0) {l : Places w}
    (hl : entryPlaces b p = .ok l) {a : ℕ} (ha : l.Padding p e.length a) : b.load8 a = .ok 0 := by
  simp only [List.mem_append] at hz
  -- the padding `pad` from `q` to `r`
  have hpart : ∀ {q r : ℕ} {pad : List Byte}, b.Has q pad → q + pad.length = r → (∀ x ∈ pad, x = 0) →
      q ≤ a → a < r → b.load8 a = .ok 0 := by
    intro q r pad hhas hlen hzero hq hr
    obtain ⟨v, hv, hload⟩ := hhas.load8_mem (n := a - q) (by omega)
    rwa [Nat.add_sub_cancel' hq, hzero v hv] at hload
  obtain ⟨l', hl', -, hnameEnd, hips, hipsEnd, huuid, -, hverEnd, hcap, -, -, -, -, -, -, -, hend⟩ :=
    h.places hc
  obtain rfl : l' = l := Except.ok.inj (hl'.symm.trans hl)
  obtain ⟨-, -, -, -, gpuEnd, -, -, -, -, -, -, -, -, -, -, -, hend', hrest⟩ := h.strings hc
  obtain ⟨hname, hips', hver⟩ := h.spot.has_pads
  have hname' : e.shape.name = e.name.1 := rfl
  have hver' : e.shape.ver = e.ver.1 := rfl
  have hlength : e.length = e.shape.length + e.rest.length := rfl
  have hle := e.platLen_le
  rw [hname'] at hname
  rw [hver'] at hver
  rw [e.toNat_numIp] at hips'
  rcases ha with ⟨hq, hr⟩ | ⟨hq, hr⟩ | ⟨hq, hr⟩ | ⟨hq, hr⟩
  · refine hpart hname ?_ (fun x hx => hz x (.inl (.inl (.inl hx)))) (by omega) hr
    rw [hips, Shape.ipsOff, hname']
    omega
  · refine hpart hips' ?_ (fun x hx => hz x (.inl (.inl (.inr hx)))) (by omega) hr
    rw [huuid, Shape.uuidOff, e.toNat_numIp]
    omega
  · refine hpart hver ?_ (fun x hx => hz x (.inl (.inr hx))) (by omega) hr
    rw [hcap, Shape.capOff, hver']
    omega
  · refine hpart hrest ?_ (fun x hx => hz x (.inr hx)) (by omega) hr
    rw [List.length_drop]
    omega

/-- `ENTRY_CALC_SIZE` of an entry in its place: the bytes up to the end of the last string, and up to
the next multiple of 8. -/
lemma Sits.calcSize {E : Endian} {b : Block} {p : BitVec w} {e : Entry} (h : Sits E b p e)
    (hc : e.Complete) (hp : 8 ∣ p.toNat) (he : 8 ∣ e.length) {n : ℕ}
    (hn : n = e.shape.length + e.platLen) :
    entryCalcSize b p = .ok (BitVec.ofNat 16 (n + pad 8 n)) := by
  obtain ⟨-, -, -, gpu, gpuEnd, -, -, -, hgpu, hafter, hlen, -, -, -, -, -, hend, -⟩ := h.strings hc
  have hlt := h.end_lt
  have hle := e.platLen_le
  have hlength : e.length = e.shape.length + e.rest.length := rfl
  have hfit : n + pad 8 n ≤ e.length := by
    rw [pad]
    omega
  have hsum : gpu + BitVec.ofNat w e.reading.gpu.length + 1 = gpuEnd := by
    rw [afterString, hlen, ok_bind, pure_eq_ok] at hafter
    exact Except.ok.inj hafter
  refine entryCalcSize_of h.bits hp hgpu hlen ?_ (by omega)
  rw [hsum]
  apply BitVec.eq_of_toNat_eq
  rw [hend, toNat_add_ofNat (by omega), hn]

namespace LocalInfo

variable (i : LocalInfo)

lemma cstrings_rest : ∃ ss, cstrings i.entry.rest
    = i.platName.1 :: i.os.1 :: i.arch.1 :: i.cpu.1 :: i.gpu.1 :: ss := by
  have hrest : i.entry.rest = flat i.strs ++ zeros (pad 8 i.used) := rfl
  rw [hrest, cstrings_flat]
  exact ⟨_, rfl⟩

/-- What the accessors find in the local entry. -/
lemma entry_reading : i.entry.reading = ⟨BitVec.ofNat 16 i.entry.length, 0, 0, i.name, [],
    i.uuid, somever, i.cap, i.memSz, i.platName, i.os, i.arch, i.cpu, i.gpu⟩ := by
  obtain ⟨ss, hss⟩ := i.cstrings_rest
  simp only [Entry.reading, hss]
  rfl

lemma entry_platLen : i.entry.platLen = (flat i.strs).length := by
  obtain ⟨ss, hss⟩ := i.cstrings_rest
  rw [Entry.platLen, hss]
  simp [LocalFields.strs, flat]
  omega

lemma entry_padding_zero : ∀ x ∈ i.entry.namePad ++ i.entry.ipsPad ++ i.entry.verPad
    ++ i.entry.rest.drop i.entry.platLen, x = 0 := by
  have hrest : i.entry.rest = flat i.strs ++ zeros (pad 8 i.used) := rfl
  have hname : i.entry.namePad = (blank i.name somever).namePad := rfl
  have hips : i.entry.ipsPad = (blank i.name somever).ipsPad := rfl
  have hver : i.entry.verPad = (blank i.name somever).verPad := rfl
  rw [i.entry_platLen, hrest, List.drop_left, hname, hips, hver]
  intro x hx
  simp only [blank, List.mem_append, List.mem_replicate] at hx
  tauto

end LocalInfo

/-- `NODE_Init` encodes the local information: the accessors return what was written, the size is what
`ENTRY_CALC_SIZE` gives and the least multiple of 8 that takes in the last string, all paddings are
zero, and the list with the one entry satisfies the invariant. -/
theorem nodeInit_encodes {t : Target} {m : Malloc t.bits} (k : ℕ) (i : LocalInfo)
    (hlim : 8 + 4096 ≤ m.limit) :
    ∃ b, nodeInit t m k i.toLocalFields = .ok ⟨b, .unset, none, k + 2, []⟩
      ∧ ∃ e size l, e = nlEntries (BitVec.ofNat t.bits b.base)
        ∧ entryRead t.endian b e = .ok ⟨size, 0, 0, i.name, [], i.uuid, somever, i.cap, i.memSz,
            i.platName, i.os, i.arch, i.cpu, i.gpu⟩
        ∧ entryCalcSize b e = .ok size ∧ entryPlaces b e = .ok l
        ∧ IsLeast {n | 8 ∣ n ∧ l.gpuEnd.toNat ≤ e.toNat + n} size.toNat
        ∧ (∀ a, l.Padding e size.toNat a → b.load8 a = .ok 0)
        ∧ (∃ len, load32 t.endian b (nlLen (BitVec.ofNat t.bits b.base)) = .ok len
          ∧ len.toNat = 8 + size.toNat)
        ∧ ListInv t b := by
  obtain ⟨b, hK, hinit⟩ := nodeInit_spec (t := t) (m := m) (k := k) i hlim
  refine ⟨b, hinit, ?_⟩
  have hw := i.entry_wellFormed
  have hent := hK.toNat_entries
  have hsits : Sits t.endian b (nlEntries (BitVec.ofNat t.bits b.base)) i.entry :=
    hK.sits_at (show [i.entry] = [] ++ i.entry :: [] from rfl) (by rw [hent, total_nil, Nat.add_zero])
  have hsize : (BitVec.ofNat 16 i.entry.length).toNat = i.entry.length :=
    toNat_ofNat_of_lt i.entry.length_lt
  have hused : i.used = i.entry.shape.length + i.entry.platLen := by
    rw [i.entry_platLen, LocalFields.used]
    exact congrArg (· + _) (congrArg Shape.length i.fields_shape.symm)
  have hdvd : 8 ∣ (nlEntries (BitVec.ofNat t.bits b.base)).toNat := by
    rw [hent]
    exact dvd_add hK.dvd dvd_rfl
  obtain ⟨l, hl, -, -, -, -, -, -, -, -, -, -, -, -, -, -, -, hend⟩ := hsits.places hw.complete
  rw [← hused] at hend
  have hlt := hK.len_lt
  have hlen : (BitVec.ofNat 32 (8 + total [i.entry])).toNat = 8 + i.entry.length := by
    rw [toNat_ofNat_of_lt hlt, total_cons, total_nil, Nat.add_zero]
  refine ⟨_, BitVec.ofNat 16 i.entry.length, l, rfl, ?_, ?_, hl, ?_, ?_, ⟨_, hK.load_len, ?_⟩, ?_⟩
  · rw [hsits.read hw.complete, i.entry_reading]
  · rw [i.entry_length]
    exact hsits.calcSize hw.complete hdvd hw.sound.dvd hused
  · rw [hsize, i.entry_length]
    refine ⟨⟨dvd_add_pad _ (by norm_num), by omega⟩, ?_⟩
    rintro n ⟨hn, hle⟩
    rw [pad]
    omega
  · rw [hsize]
    exact fun a ha => hsits.load8_padding hw.complete i.entry_padding_zero hl ha
  · rw [hlen, hsize]
  · exact hK.listInv (fun e he => List.mem_singleton.mp he ▸ hw.complete) (List.nodup_singleton _)

/-- The list of a node with all its names. -/
theorem nodeInit_encodes_sample :
    ∃ b size len, nodeInit .linux64 .spread 1 LocalInfo.desktop.toLocalFields
        = .ok ⟨b, .unset, none, 3, []⟩
      ∧ entryRead .le b (nlEntries (BitVec.ofNat 64 b.base)) = .ok ⟨size, 0, 0,
          LocalInfo.desktop.name, [], (0x0123456789ABCDEF, 0xFEDCBA9876543210), somever, 0x43, 16384,
          LocalInfo.desktop.platName, LocalInfo.desktop.os, LocalInfo.desktop.arch,
          LocalInfo.desktop.cpu, LocalInfo.desktop.gpu⟩
      ∧ load32 .le b (nlLen (BitVec.ofNat 64 b.base)) = .ok len ∧ len.toNat = 8 + size.toNat
      ∧ ListInv .linux64 b := by
  obtain ⟨b, hinit, _, size, _, rfl, hread, -, -, -, -, ⟨len, hlen, hsum⟩, hinv⟩ :=
    nodeInit_encodes (t := .linux64) (m := .spread) 1 LocalInfo.desktop (by decide)
  exact ⟨b, size, len, hinit, hread, hlen, hsum, hinv⟩

end EverythingNet
