import Mathlib.Tactic
import EverythingNet.Node.Shape

/-!
`NODE_EntryToLE` and `NODE_EntryToBE` of `app/node.c`: the byte order of one entry, converted in
place on a little-endian build.

Both functions reverse the bytes of every field that holds a number (`Payload.rev`); they differ
in the order of the fields. `Seat` is an entry inside a block given as a concatenation. Each
single conversion keeps the entry's shape, so the accessors, which the code calls anew for every
field, go on finding the same places: `Seat.swapSize` to `Seat.swapMemsz`, with
`Seat.swapIps` for the loop over the IP addresses. They add up to `Seat.nodeEntryToLE` and
`Seat.nodeEntryToBE`.
-/

namespace EverythingNet

open CMem

variable {w : ℕ}

/-- `*p = f(*p)` for a `uint16_t`. -/
def update16 (b : Block) (p : BitVec w) (f : U16 → U16) : Except Halt Block := do
  store16 .le b p (f (← load16 .le b p))

/-- `*p = f(*p)` for a `uint32_t`. -/
def update32 (b : Block) (p : BitVec w) (f : U32 → U32) : Except Halt Block := do
  store32 .le b p (f (← load32 .le b p))

/-- `*p = f(*p)` for a `uint64_t`. -/
def update64 (b : Block) (p : BitVec w) (f : U64 → U64) : Except Halt Block := do
  store64 .le b p (f (← load64 .le b p))

/-- One round of the loop over the IP addresses of an entry: `i < *ENTRY_NUM_IP(e)` and the
conversion of `ENTRY_NODE_IPS(e)[i]`. -/
def swapIpsStep (e : BitVec w) : Block × ℕ → Except Halt ((Block × ℕ) ⊕ Block)
  | (b, i) => do
    let num ← b.load8 (entryNumIp e).toNat
    if i < num.toNat then
      let ips ← entryNodeIps b e
      let b ← update32 b (ips + BitVec.ofNat w (4 * i)) (beToHost32 .le)
      return .inl (b, i + 1)
    else
      return .inr b

/-- The loop over the IP addresses. The count is one byte, so it takes at most 255 rounds. -/
def swapIps (b : Block) (e : BitVec w) : Except Halt Block := iter (swapIpsStep e) 256 (b, 0)

/-- `*ENTRY_SIZE(e)` converted. -/
def swapSize (b : Block) (e : BitVec w) : Except Halt Block :=
  update16 b (entrySize e) (beToHost16 .le)

/-- `ENTRY_NODE_UUID(e)[0]` converted. -/
def swapUuid0 (b : Block) (e : BitVec w) : Except Halt Block := do
  update64 b (← entryNodeUuid b e) (beToHost64 .le)

/-- `ENTRY_NODE_UUID(e)[1]` converted. -/
def swapUuid1 (b : Block) (e : BitVec w) : Except Halt Block := do
  update64 b ((← entryNodeUuid b e) + 8) (beToHost64 .le)

/-- `*ENTRY_NODE_PLATINFO_CAP(e)` converted. -/
def swapCap (b : Block) (e : BitVec w) : Except Halt Block := do
  update32 b (← entryNodePlatinfoCap b e) (beToHost32 .le)

/-- `*ENTRY_NODE_PLATINFO_MEMSZ(e)` converted. -/
def swapMemsz (b : Block) (e : BitVec w) : Except Halt Block := do
  update32 b (← entryNodePlatinfoMemsz b e) (beToHost32 .le)

/-- `NODE_EntryToLE`. -/
def nodeEntryToLE (b : Block) (e : BitVec w) : Except Halt Block := do
  let b ← swapSize b e
  let b ← swapIps b e
  let b ← swapUuid0 b e
  let b ← swapUuid1 b e
  let b ← swapCap b e
  swapMemsz b e

/-- `NODE_EntryToBE`. -/
def nodeEntryToBE (b : Block) (e : BitVec w) : Except Halt Block := do
  let b ← swapIps b e
  let b ← swapUuid0 b e
  let b ← swapUuid1 b e
  let b ← swapCap b e
  let b ← swapMemsz b e
  swapSize b e

/-! ### A conversion reverses the bytes it covers -/

section

variable {base : ℕ} {pre l post : List Byte} {q : BitVec w}

lemma update16_mk (hq : q.toNat = base + pre.length) (hl : l.length = 2) :
    update16 ⟨base, pre ++ l ++ post⟩ q (beToHost16 .le) = .ok ⟨base, pre ++ l.reverse ++ post⟩ := by
  have hx : (BitVec.ofNat 16 (Endian.le.decode l)).toNat = Endian.le.decode l := by
    have := Endian.le.decode_lt l
    rw [hl] at this
    exact toNat_ofNat_of_lt this
  have henc : Endian.le.encode 2 (beToHost16 .le (BitVec.ofNat 16 (Endian.le.decode l))).toNat
      = l.reverse := by
    rw [hostToBE16_encode, hx, ← hl]
    exact Endian.le.encode_flip_decode l
  rw [update16, load16_has (hq ▸ Block.has_mk base pre l post) hl, ok_bind, store16, henc]
  exact Block.store_mk hq (by simp)

lemma update32_mk (hq : q.toNat = base + pre.length) (hl : l.length = 4) :
    update32 ⟨base, pre ++ l ++ post⟩ q (beToHost32 .le) = .ok ⟨base, pre ++ l.reverse ++ post⟩ := by
  have hx : (BitVec.ofNat 32 (Endian.le.decode l)).toNat = Endian.le.decode l := by
    have := Endian.le.decode_lt l
    rw [hl] at this
    exact toNat_ofNat_of_lt this
  have henc : Endian.le.encode 4 (beToHost32 .le (BitVec.ofNat 32 (Endian.le.decode l))).toNat
      = l.reverse := by
    rw [hostToBE32_encode, hx, ← hl]
    exact Endian.le.encode_flip_decode l
  rw [update32, load32_has (hq ▸ Block.has_mk base pre l post) hl, ok_bind, store32, henc]
  exact Block.store_mk hq (by simp)

lemma update64_mk (hq : q.toNat = base + pre.length) (hl : l.length = 8) :
    update64 ⟨base, pre ++ l ++ post⟩ q (beToHost64 .le) = .ok ⟨base, pre ++ l.reverse ++ post⟩ := by
  have hx : (BitVec.ofNat 64 (Endian.le.decode l)).toNat = Endian.le.decode l := by
    have := Endian.le.decode_lt l
    rw [hl] at this
    exact toNat_ofNat_of_lt this
  have henc : Endian.le.encode 8 (beToHost64 .le (BitVec.ofNat 64 (Endian.le.decode l))).toNat
      = l.reverse := by
    rw [hostToBE64_encode, hx, ← hl]
    exact Endian.le.encode_flip_decode l
  rw [update64, load64_has (hq ▸ Block.has_mk base pre l post) hl, ok_bind, store64, henc]
  exact Block.store_mk hq (by simp)

end

/-! ### The payload with reversed fields -/

/-- The first `n` groups of four bytes, each reversed. -/
def revGroups : ℕ → List Byte → List Byte
  | 0, l => l
  | n + 1, l => (l.take 4).reverse ++ revGroups n (l.drop 4)

lemma revGroups_length (n : ℕ) (l : List Byte) : (revGroups n l).length = l.length := by
  induction n generalizing l with
  | zero => rfl
  | succ n ih =>
      rw [revGroups, List.length_append, List.length_reverse, ih, List.length_take,
        List.length_drop]
      omega

/-- One group more. -/
lemma revGroups_succ {n : ℕ} {l : List Byte} (h : 4 * (n + 1) ≤ l.length) :
    ∃ x g z, x.length = 4 * n ∧ g.length = 4 ∧ revGroups n l = x ++ g ++ z
      ∧ revGroups (n + 1) l = x ++ g.reverse ++ z := by
  induction n generalizing l with
  | zero =>
      refine ⟨[], l.take 4, l.drop 4, rfl, ?_, ?_, ?_⟩
      · rw [List.length_take]
        omega
      · simp [revGroups]
      · simp [revGroups]
  | succ n ih =>
      have h' : 4 * (n + 1) ≤ (l.drop 4).length := by
        rw [List.length_drop]
        omega
      obtain ⟨x, g, z, hx, hg, h1, h2⟩ := ih h'
      refine ⟨(l.take 4).reverse ++ x, g, z, ?_, hg, ?_, ?_⟩
      · rw [List.length_append, List.length_reverse, List.length_take, hx]
        omega
      · rw [revGroups, h1]
        simp
      · rw [revGroups, h2]
        simp

/-- The groups of an array of words in one byte order, reversed, are those of the other order. -/
lemma revGroups_flatMap (E : Endian) (ips : List U32) :
    revGroups ips.length (ips.flatMap fun x => E.encode 4 x.toNat)
      = ips.flatMap fun x => E.flip.encode 4 x.toNat := by
  induction ips with
  | nil => rfl
  | cons x l ih =>
      have h4 : (E.encode 4 x.toNat).length = 4 := E.encode_length 4 _
      rw [List.length_cons, List.flatMap_cons, revGroups, List.take_left' h4, List.drop_left' h4,
        ih, Endian.encode_reverse, List.flatMap_cons]

/-- Every number field with its bytes reversed. -/
def Payload.rev (n : ℕ) (p : Payload) : Payload :=
  ⟨p.size.reverse, revGroups n p.ips, p.uuid0.reverse, p.uuid1.reverse, p.cap.reverse,
    p.memSz.reverse⟩

lemma Shape.Fits.of_length {a : ℕ} {s : Shape} {p p' : Payload} (h : Fits a s p)
    (hsize : p'.size.length = p.size.length) (hips : p'.ips.length = p.ips.length)
    (hu0 : p'.uuid0.length = p.uuid0.length) (hu1 : p'.uuid1.length = p.uuid1.length)
    (hcap : p'.cap.length = p.cap.length) (hmem : p'.memSz.length = p.memSz.length) :
    Fits a s p' :=
  { h with
    size := hsize.trans h.size
    ips := hips.trans h.ips
    uuid0 := hu0.trans h.uuid0
    uuid1 := hu1.trans h.uuid1
    cap := hcap.trans h.cap
    memSz := hmem.trans h.memSz }

/-! ### The conversion of one entry -/

/-- An entry at `e` inside a block that is given as a concatenation. -/
structure Seat (base : ℕ) (pre post : List Byte) (e : BitVec w) (s : Shape) (p : Payload) :
    Prop where
  bits : w = 32 ∨ w = 64
  addr : e.toNat = base + pre.length
  fits : Shape.Fits e.toNat s p
  room : base + pre.length + s.length + post.length < 2 ^ w

namespace Seat

variable {base : ℕ} {pre post : List Byte} {e : BitVec w} {s : Shape} {p p' : Payload}

/-- The block with the entry in its seat. -/
abbrev block (base : ℕ) (pre post : List Byte) (s : Shape) (p : Payload) : Block :=
  ⟨base, pre ++ s.bytes p ++ post⟩

lemma spot (h : Seat base pre post e s p) : Spot (block base pre post s p) e s p where
  bits := h.bits
  has := h.addr ▸ Block.has_mk base pre (s.bytes p) post
  fits := h.fits
  room := by
    have := h.room
    simp only [Block.size_mk, List.length_append, h.fits.length_bytes]
    omega

lemma of_fits (h : Seat base pre post e s p) (hf : Shape.Fits e.toNat s p') :
    Seat base pre post e s p' := { h with fits := hf }

/-- A conversion of the field `v`, which the entry holds between `x` and `z`. -/
lemma around {x z v v' : List Byte} {k : ℕ} (h : Seat base pre post e s p)
    (hx : x.length = k) (hk : k ≤ s.length) (hp : s.bytes p = x ++ v ++ z)
    (hp' : s.bytes p' = x ++ v' ++ z) :
    (e + BitVec.ofNat w k).toNat = base + (pre ++ x).length
      ∧ block base pre post s p = ⟨base, (pre ++ x) ++ v ++ (z ++ post)⟩
      ∧ block base pre post s p' = ⟨base, (pre ++ x) ++ v' ++ (z ++ post)⟩ := by
  refine ⟨?_, by simp [hp], by simp [hp']⟩
  rw [h.spot.toNat_off hk, h.addr, List.length_append, hx]
  omega

/-- A write to the field `v`. -/
lemma store_field {x z v v' : List Byte} {k : ℕ} (h : Seat base pre post e s p)
    (hx : x.length = k) (hk : k ≤ s.length) (hp : s.bytes p = x ++ v ++ z)
    (hp' : s.bytes p' = x ++ v' ++ z) (hl : v'.length = v.length) :
    (block base pre post s p).store (e + BitVec.ofNat w k).toNat v'
      = .ok (block base pre post s p') := by
  obtain ⟨ha, hb, hb'⟩ := h.around hx hk hp hp'
  rw [hb, hb']
  exact Block.store_mk ha hl

lemma swapSize (h : Seat base pre post e s p) :
    EverythingNet.swapSize (block base pre post s p) e
        = .ok (block base pre post s { p with size := p.size.reverse })
      ∧ Seat base pre post e s { p with size := p.size.reverse } := by
  refine ⟨?_, h.of_fits (h.fits.of_length (by simp) rfl rfl rfl rfl rfl)⟩
  obtain ⟨z, hz⟩ := s.exists_size p
  obtain ⟨ha, hb, hb'⟩ := h.around (@List.length_nil Byte) (Nat.zero_le _) (hz p.size)
    (hz p.size.reverse)
  rw [EverythingNet.swapSize, hb, hb']
  exact update16_mk (by rw [← ha]; simp [entrySize]) h.fits.size

lemma swapUuid0 (h : Seat base pre post e s p) :
    EverythingNet.swapUuid0 (block base pre post s p) e
        = .ok (block base pre post s { p with uuid0 := p.uuid0.reverse })
      ∧ Seat base pre post e s { p with uuid0 := p.uuid0.reverse } := by
  refine ⟨?_, h.of_fits (h.fits.of_length rfl rfl (by simp) rfl rfl rfl)⟩
  have hk : s.uuidOff ≤ s.length := by
    simp only [Shape.length, Shape.capOff, Shape.verOff]
    omega
  obtain ⟨x, z, hx, hz⟩ := Shape.exists_uuid0 h.fits
  obtain ⟨ha, hb, hb'⟩ := h.around hx hk (hz p.uuid0) (hz p.uuid0.reverse)
  rw [EverythingNet.swapUuid0, h.spot.uuid, ok_bind, hb, hb']
  exact update64_mk ha h.fits.uuid0

lemma swapUuid1 (h : Seat base pre post e s p) :
    EverythingNet.swapUuid1 (block base pre post s p) e
        = .ok (block base pre post s { p with uuid1 := p.uuid1.reverse })
      ∧ Seat base pre post e s { p with uuid1 := p.uuid1.reverse } := by
  refine ⟨?_, h.of_fits (h.fits.of_length rfl rfl rfl (by simp) rfl rfl)⟩
  have hk : s.uuidOff + 8 ≤ s.length := by
    simp only [Shape.length, Shape.capOff, Shape.verOff]
    omega
  obtain ⟨x, z, hx, hz⟩ := Shape.exists_uuid1 h.fits
  obtain ⟨ha, hb, hb'⟩ := h.around hx hk (hz p.uuid1) (hz p.uuid1.reverse)
  rw [EverythingNet.swapUuid1, h.spot.uuid, ok_bind, hb, hb']
  exact update64_mk ((congrArg _ (add_ofNat_ofNat e s.uuidOff 8)).trans ha) h.fits.uuid1

lemma swapCap (h : Seat base pre post e s p) :
    EverythingNet.swapCap (block base pre post s p) e
        = .ok (block base pre post s { p with cap := p.cap.reverse })
      ∧ Seat base pre post e s { p with cap := p.cap.reverse } := by
  refine ⟨?_, h.of_fits (h.fits.of_length rfl rfl rfl rfl (by simp) rfl)⟩
  have hk : s.capOff ≤ s.length := by
    simp only [Shape.length]
    omega
  obtain ⟨x, z, hx, hz⟩ := Shape.exists_cap h.fits
  obtain ⟨ha, hb, hb'⟩ := h.around hx hk (hz p.cap) (hz p.cap.reverse)
  rw [EverythingNet.swapCap, h.spot.cap, ok_bind, hb, hb']
  exact update32_mk ha h.fits.cap

lemma swapMemsz (h : Seat base pre post e s p) :
    EverythingNet.swapMemsz (block base pre post s p) e
        = .ok (block base pre post s { p with memSz := p.memSz.reverse })
      ∧ Seat base pre post e s { p with memSz := p.memSz.reverse } := by
  refine ⟨?_, h.of_fits (h.fits.of_length rfl rfl rfl rfl rfl (by simp))⟩
  have hk : s.capOff + 4 ≤ s.length := by
    simp only [Shape.length]
    omega
  obtain ⟨x, hx, hz⟩ := Shape.exists_memSz h.fits
  have hz' : ∀ v, s.bytes { p with memSz := v } = x ++ v ++ [] := fun v => by rw [hz]; simp
  obtain ⟨ha, hb, hb'⟩ := h.around hx hk (hz' p.memSz) (hz' p.memSz.reverse)
  rw [EverythingNet.swapMemsz, h.spot.memSz, ok_bind, hb, hb']
  exact update32_mk ha h.fits.memSz

/-- One round of the loop over the IP addresses. -/
lemma swapIpsStep_lt (h : Seat base pre post e s p) {i : ℕ} (hi : i < s.numIp.toNat) :
    swapIpsStep e (block base pre post s { p with ips := revGroups i p.ips }, i)
      = .ok (.inl (block base pre post s { p with ips := revGroups (i + 1) p.ips }, i + 1)) := by
  have hips : 4 * (i + 1) ≤ p.ips.length := by
    rw [h.fits.ips]
    omega
  have hseat : Seat base pre post e s { p with ips := revGroups i p.ips } :=
    h.of_fits (h.fits.of_length rfl (revGroups_length i _) rfl rfl rfl rfl)
  have hnum : (entryNumIp e).toNat = e.toNat + 2 :=
    hseat.spot.toNat_off (show 2 ≤ s.length by have := s.length_ge; omega)
  obtain ⟨x, g, z, hx, hg, h1, h2⟩ := revGroups_succ hips
  obtain ⟨y, t, hy, hz⟩ := Shape.exists_ips h.fits
  have hk : s.ipsOff + 4 * i ≤ s.length := by
    simp only [Shape.length, Shape.capOff, Shape.verOff, Shape.uuidOff]
    omega
  have hyx : (y ++ x).length = s.ipsOff + 4 * i := by rw [List.length_append, hy, hx]
  have hb : s.bytes { p with ips := revGroups i p.ips } = (y ++ x) ++ g ++ (z ++ t) := by
    rw [hz, h1]
    simp
  have hb' : s.bytes { p with ips := revGroups (i + 1) p.ips }
      = (y ++ x) ++ g.reverse ++ (z ++ t) := by
    rw [hz, h2]
    simp
  obtain ⟨ha, hblk, hblk'⟩ := hseat.around hyx hk hb hb'
  rw [swapIpsStep, hnum, hseat.spot.has_numIp.load8, ok_bind, if_pos hi, hseat.spot.ips, ok_bind,
    add_ofNat_ofNat, hblk, update32_mk ha hg, ok_bind, hblk', pure_eq_ok]

/-- The loop over the IP addresses reverses each of them. -/
lemma swapIps (h : Seat base pre post e s p) :
    EverythingNet.swapIps (block base pre post s p) e
        = .ok (block base pre post s { p with ips := revGroups s.numIp.toNat p.ips })
      ∧ Seat base pre post e s { p with ips := revGroups s.numIp.toNat p.ips } := by
  have hrev : ∀ n, Seat base pre post e s { p with ips := revGroups n p.ips } := fun n =>
    h.of_fits (h.fits.of_length rfl (revGroups_length n _) rfl rfl rfl rfl)
  refine ⟨?_, hrev _⟩
  have key : ∀ k i n, i + k = s.numIp.toNat → k < n →
      iter (swapIpsStep e) n (block base pre post s { p with ips := revGroups i p.ips }, i)
        = .ok (block base pre post s { p with ips := revGroups s.numIp.toNat p.ips }) := by
    intro k
    induction k with
    | zero =>
        intro i n hi hn
        obtain ⟨n, rfl⟩ := Nat.exists_eq_add_of_le' hn
        have hnum : (entryNumIp e).toNat = e.toNat + 2 :=
          h.spot.toNat_off (show 2 ≤ s.length by have := s.length_ge; omega)
        rw [Nat.add_zero] at hi
        apply iter_inr
        rw [swapIpsStep, hnum, (hrev i).spot.has_numIp.load8, ok_bind, if_neg (by omega), hi,
          pure_eq_ok]
    | succ k ih =>
        intro i n hi hn
        obtain ⟨n, rfl⟩ := Nat.exists_eq_add_of_le' (show 1 ≤ n by omega)
        rw [iter_inl (h.swapIpsStep_lt (by omega))]
        exact ih (i + 1) n (by omega) (by omega)
  have hlt : s.numIp.toNat < 256 := s.numIp.isLt
  exact key s.numIp.toNat 0 256 (by omega) hlt

/-- `NODE_EntryToLE` reverses every number field of the entry and nothing else. -/
lemma nodeEntryToLE (h : Seat base pre post e s p) :
    EverythingNet.nodeEntryToLE (block base pre post s p) e
        = .ok (block base pre post s (p.rev s.numIp.toNat))
      ∧ Seat base pre post e s (p.rev s.numIp.toNat) := by
  obtain ⟨e1, h1⟩ := h.swapSize
  obtain ⟨e2, h2⟩ := h1.swapIps
  obtain ⟨e3, h3⟩ := h2.swapUuid0
  obtain ⟨e4, h4⟩ := h3.swapUuid1
  obtain ⟨e5, h5⟩ := h4.swapCap
  obtain ⟨e6, h6⟩ := h5.swapMemsz
  refine ⟨?_, h6⟩
  rw [EverythingNet.nodeEntryToLE, e1, ok_bind, e2, ok_bind, e3, ok_bind, e4, ok_bind, e5, ok_bind,
    e6, Payload.rev]

/-- `NODE_EntryToBE` does the same in another order. -/
lemma nodeEntryToBE (h : Seat base pre post e s p) :
    EverythingNet.nodeEntryToBE (block base pre post s p) e
        = .ok (block base pre post s (p.rev s.numIp.toNat))
      ∧ Seat base pre post e s (p.rev s.numIp.toNat) := by
  obtain ⟨e1, h1⟩ := h.swapIps
  obtain ⟨e2, h2⟩ := h1.swapUuid0
  obtain ⟨e3, h3⟩ := h2.swapUuid1
  obtain ⟨e4, h4⟩ := h3.swapCap
  obtain ⟨e5, h5⟩ := h4.swapMemsz
  obtain ⟨e6, h6⟩ := h5.swapSize
  refine ⟨?_, h6⟩
  rw [EverythingNet.nodeEntryToBE, e1, ok_bind, e2, ok_bind, e3, ok_bind, e4, ok_bind, e5, ok_bind,
    e6, Payload.rev]

end Seat

end EverythingNet
