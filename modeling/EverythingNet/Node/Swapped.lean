import Mathlib.Tactic
import EverythingNet.Node.Walks

/-!
`NODE_ListToNative` of `app/node.c` on a list of arbitrary bytes.

* `Ahead`: an address a little behind the start of an entry, where the accessors find the fields. Inside
  the object it has not wrapped (`Ahead.le`), so that a conversion changes nothing before its entry:
  `nodeEntryToLE_frame`.
* `ListIn`: a list in its object, of which nothing but the header is known. `SwapRound`: a round of the
  loop there. Unless it finds an entry of size 0 (`ListIn.spins`) the loop goes forward, and changes
  nothing behind its back (`ListIn.run`).
* `Squeezed`: the loop passes an entry of one byte with another entry behind it. `ListIn.sameWay`: unless
  it does, a walk over the list that is left comes to the entries that it has converted.
-/

namespace EverythingNet

open CMem

variable {w : ℕ}

/-! ### What a conversion leaves alone -/

/-- The address lies at least five bytes behind `e`, and not more than `c` behind the object. -/
def Ahead (b : Block) (e p : BitVec w) (c : ℕ) : Prop :=
  ∃ k, 5 ≤ k ∧ p = e + BitVec.ofNat w k ∧ e.toNat + k ≤ b.base + b.size + c

section

variable {b b' : Block} {e p q : BitVec w} {c j : ℕ}

/-- An address behind `e` that is not before the object has not wrapped. -/
lemma toNat_behind (hroom : b.base + b.size < 2 ^ w) (hc : b.size + c < 2 ^ w) {k : ℕ}
    (hk : e.toNat + k ≤ b.base + b.size + c) (hin : b.base ≤ (e + BitVec.ofNat w k).toNat) :
    (e + BitVec.ofNat w k).toNat = e.toNat + k := by
  rw [BitVec.toNat_add, BitVec.toNat_ofNat, Nat.add_mod_mod] at hin ⊢
  by_cases hwrap : e.toNat + k < 2 ^ w
  · exact Nat.mod_eq_of_lt hwrap
  · rw [Nat.mod_eq_sub_mod (by omega), Nat.mod_eq_of_lt (by omega)] at hin
    omega

lemma Ahead.le (h : Ahead b e p c) (hroom : b.base + b.size < 2 ^ w) (hc : b.size + c < 2 ^ w)
    (hin : b.base ≤ p.toNat) : e.toNat + 5 ≤ p.toNat := by
  obtain ⟨k, hk, rfl, hle⟩ := h
  rw [toNat_behind hroom hc hle hin]
  omega

lemma Ahead.add (h : Ahead b e p c) (q : BitVec w) (hq : q.toNat ≤ j) : Ahead b e (p + q) (c + j) := by
  obtain ⟨k, hk, rfl, hle⟩ := h
  refine ⟨k + q.toNat, by omega, ?_, by omega⟩
  rw [BitVec.ofNat_add, BitVec.ofNat_toNat, BitVec.setWidth_eq, BitVec.add_assoc]

/-- A string lies inside the object. -/
lemma strlen_inside {n : BitVec w} (hroom : b.base + b.size < 2 ^ w) (h : strlen b p = .ok n) :
    b.base ≤ p.toNat ∧ p.toNat + n.toNat + 1 ≤ b.base + b.size := by
  obtain ⟨k, hk, hn⟩ := bind_eq_ok.mp h
  obtain rfl := Except.ok.inj hn
  obtain ⟨s, -, rfl, hhas⟩ := Block.strlen_ok hk
  have hend := hhas.end_le
  rw [List.length_append, List.length_singleton] at hend
  obtain ⟨pre, post, -, hp⟩ := hhas
  rw [toNat_ofNat_of_lt (by omega)]
  omega

/-- The place behind a string, with up to `j` bytes of padding. -/
lemma ahead_string {n : BitVec w} {k : ℕ} (hroom : b.base + b.size < 2 ^ w)
    (hc : b.size + c < 2 ^ w) (hk : 4 ≤ k) (hle : e.toNat + k ≤ b.base + b.size + c)
    (hn : strlen b (e + BitVec.ofNat w k) = .ok n) (hq : q.toNat ≤ j) :
    Ahead b e (e + BitVec.ofNat w k + n + 1 + q) j := by
  obtain ⟨hbase, hend⟩ := strlen_inside hroom hn
  rw [toNat_behind hroom hc hle hbase] at hend
  refine ⟨k + n.toNat + 1 + q.toNat, by omega, ?_, by omega⟩
  simp only [BitVec.ofNat_add, BitVec.ofNat_toNat, BitVec.setWidth_eq, BitVec.add_assoc]
  rfl

/-- What the macros add for the alignment. -/
lemma umod_le {m : ℕ} (hw : w = 32 ∨ w = 64) (hm : 0 < m) (hm' : m ≤ 8) (y : BitVec w) :
    (y % BitVec.ofNat w m).toNat ≤ m - 1 := by
  have hpow : m < 2 ^ w := by rcases hw with rfl | rfl <;> (norm_num; omega)
  rw [BitVec.toNat_umod, toNat_ofNat_of_lt hpow]
  have := Nat.mod_lt y.toNat hm
  omega

lemma ips_ahead (hw : w = 32 ∨ w = 64) (hroom : b.base + b.size < 2 ^ w) (hc : b.size + 4 < 2 ^ w)
    (he : e.toNat ≤ b.base + b.size) (hp : entryNodeIps b e = .ok p) : Ahead b e p 3 := by
  obtain ⟨n, hn, hp⟩ := bind_eq_ok.mp hp
  obtain rfl := Except.ok.inj hp
  exact ahead_string (c := 4) (k := 4) hroom hc le_rfl (by omega) hn
    (umod_le hw (m := 4) (by norm_num) (by norm_num) _)

lemma uuid_ahead (hw : w = 32 ∨ w = 64) (hroom : b.base + b.size < 2 ^ w) (hc : b.size + 4 < 2 ^ w)
    (he : e.toNat ≤ b.base + b.size) (hp : entryNodeUuid b e = .ok p) : Ahead b e p 1030 := by
  obtain ⟨ips, hips, hp⟩ := bind_eq_ok.mp hp
  obtain ⟨num, -, hp⟩ := bind_eq_ok.mp hp
  obtain rfl := Except.ok.inj hp
  have hnum : (num.setWidth w * 4).toNat ≤ 1020 := by
    have := num.isLt
    rw [Spot.toNat_setWidth_mul hw]
    omega
  have h8 := umod_le hw (m := 8) (by norm_num) (by norm_num)
    (8 - (ips + num.setWidth w * 4 % 8))
  exact ((ips_ahead hw hroom hc he hips).add _ hnum).add _ h8

lemma cap_ahead (hw : w = 32 ∨ w = 64) (hroom : b.base + b.size < 2 ^ w)
    (hc : b.size + 1046 < 2 ^ w) (he : e.toNat ≤ b.base + b.size)
    (hp : entryNodePlatinfoCap b e = .ok p) : Ahead b e p 3 := by
  obtain ⟨ver, hver, hp⟩ := bind_eq_ok.mp hp
  obtain ⟨n, hn, hp⟩ := bind_eq_ok.mp hp
  obtain rfl := Except.ok.inj hp
  obtain ⟨uuid, huuid, hver⟩ := bind_eq_ok.mp hver
  obtain rfl := Except.ok.inj hver
  have h16 : (8 * 2 : BitVec w).toNat ≤ 16 := by
    rcases hw with rfl | rfl <;> decide
  obtain ⟨k, hk, heq, hle⟩ := (uuid_ahead hw hroom (by omega) he huuid).add (8 * 2) h16
  rw [heq] at hn ⊢
  exact ahead_string hroom hc (by omega) hle hn (umod_le hw (m := 4) (by norm_num) (by norm_num) _)

lemma memsz_ahead (hw : w = 32 ∨ w = 64) (hroom : b.base + b.size < 2 ^ w)
    (hc : b.size + 1046 < 2 ^ w) (he : e.toNat ≤ b.base + b.size)
    (hp : entryNodePlatinfoMemsz b e = .ok p) : Ahead b e p 7 := by
  obtain ⟨cap, hcap, hp⟩ := bind_eq_ok.mp hp
  obtain rfl := Except.ok.inj hp
  have h4 : (4 : BitVec w).toNat ≤ 4 := by
    rcases hw with rfl | rfl <;> decide
  exact (cap_ahead hw hroom hc he hcap).add 4 h4

end

/-- An entry that starts in an object which leaves some of the address space free. -/
structure Within (b : Block) (e : BitVec w) : Prop where
  bits : w = 32 ∨ w = 64
  room : b.base + b.size < 2 ^ w
  small : b.size + 2048 < 2 ^ w
  le : e.toNat ≤ b.base + b.size

section

variable {b b' : Block} {e p : BitVec w} {c a : ℕ}

lemma Within.same (h : Within b e) (hb : Block.SameBelow a b b') : Within b' e where
  bits := h.bits
  room := by rw [hb.base, hb.size]; exact h.room
  small := by rw [hb.size]; exact h.small
  le := by rw [hb.base, hb.size]; exact h.le

lemma base_le_of_loadN {n : ℕ} {l : List Byte} (h : b.loadN p.toNat n = .ok l) :
    b.base ≤ p.toNat := by
  obtain ⟨⟨pre, post, -, ha⟩, -⟩ := Block.loadN_ok h
  omega

/-- A conversion behind the start of an entry. -/
lemma Within.update32 (h : Within b e) (hp : Ahead b e p c) (hc : c ≤ 2048) {f : U32 → U32}
    (hb : update32 b p f = .ok b') : Block.SameBelow (e.toNat + 5) b b' := by
  have hsmall := h.small
  obtain ⟨x, hx, hstore⟩ := bind_eq_ok.mp hb
  obtain ⟨l, hl, -⟩ := bind_eq_ok.mp hx
  exact .of_store hstore (hp.le h.room (by omega) (base_le_of_loadN hl))

lemma Within.update64 (h : Within b e) (hp : Ahead b e p c) (hc : c ≤ 2048) {f : U64 → U64}
    (hb : update64 b p f = .ok b') : Block.SameBelow (e.toNat + 5) b b' := by
  have hsmall := h.small
  obtain ⟨x, hx, hstore⟩ := bind_eq_ok.mp hb
  obtain ⟨l, hl, -⟩ := bind_eq_ok.mp hx
  exact .of_store hstore (hp.le h.room (by omega) (base_le_of_loadN hl))

lemma Within.swapIps (h : Within b e) (hb : swapIps b e = .ok b') :
    Block.SameBelow (e.toNat + 5) b b' := by
  refine @iter_induct _ _ (swapIpsStep e) (fun s => Block.SameBelow (e.toNat + 5) b s.1)
    (Block.SameBelow (e.toNat + 5) b) ?_ ?_ 256 (b, 0) b' (.refl _ _) hb
  · rintro ⟨b₁, i⟩ ⟨b₂, i'⟩ hsame hstep
    have hin := h.same hsame
    have hsmall := hin.small
    obtain ⟨num, -, hstep⟩ := bind_eq_ok.mp hstep
    split_ifs at hstep with hi
    · obtain ⟨ips, hips, hstep⟩ := bind_eq_ok.mp hstep
      obtain ⟨b₃, hb₃, hstep⟩ := bind_eq_ok.mp hstep
      obtain ⟨rfl, -⟩ : b₃ = b₂ ∧ i + 1 = i' := by simpa using hstep
      have hindex : (BitVec.ofNat w (4 * i)).toNat ≤ 1020 := by
        have := num.isLt
        rw [toNat_ofNat_of_lt (by omega)]
        omega
      have hahead := (ips_ahead hin.bits hin.room (by omega) hin.le hips).add _ hindex
      exact hsame.trans (hin.update32 hahead (by norm_num) hb₃)
    · simp at hstep
  · rintro ⟨b₁, i⟩ b₂ hsame hstep
    obtain ⟨num, -, hstep⟩ := bind_eq_ok.mp hstep
    split_ifs at hstep with hi
    · obtain ⟨ips, -, hstep⟩ := bind_eq_ok.mp hstep
      obtain ⟨b₃, -, hstep⟩ := bind_eq_ok.mp hstep
      simp at hstep
    · obtain rfl : b₁ = b₂ := by simpa using hstep
      exact hsame

lemma Within.swapUuid0 (h : Within b e) (hb : swapUuid0 b e = .ok b') :
    Block.SameBelow (e.toNat + 5) b b' := by
  have hsmall := h.small
  obtain ⟨p, hp, hb⟩ := bind_eq_ok.mp hb
  exact h.update64 (uuid_ahead h.bits h.room (by omega) h.le hp) (by norm_num) hb

lemma Within.swapUuid1 (h : Within b e) (hb : swapUuid1 b e = .ok b') :
    Block.SameBelow (e.toNat + 5) b b' := by
  have hsmall := h.small
  have h8 : (8 : BitVec w).toNat ≤ 8 := by
    rcases h.bits with rfl | rfl <;> decide
  obtain ⟨p, hp, hb⟩ := bind_eq_ok.mp hb
  exact h.update64 ((uuid_ahead h.bits h.room (by omega) h.le hp).add 8 h8) (by norm_num) hb

lemma Within.swapCap (h : Within b e) (hb : swapCap b e = .ok b') :
    Block.SameBelow (e.toNat + 5) b b' := by
  have hsmall := h.small
  obtain ⟨p, hp, hb⟩ := bind_eq_ok.mp hb
  exact h.update32 (cap_ahead h.bits h.room (by omega) h.le hp) (by norm_num) hb

lemma Within.swapMemsz (h : Within b e) (hb : swapMemsz b e = .ok b') :
    Block.SameBelow (e.toNat + 5) b b' := by
  have hsmall := h.small
  obtain ⟨p, hp, hb⟩ := bind_eq_ok.mp hb
  exact h.update32 (memsz_ahead h.bits h.room (by omega) h.le hp) (by norm_num) hb

/-- The conversion of a size. -/
lemma swapSize_frame (hb : swapSize b e = .ok b') :
    ∃ x y, b.Has e.toNat [x, y] ∧ b'.Has e.toNat [y, x] ∧ Block.SameBelow e.toNat b b' := by
  obtain ⟨v, hv, hstore⟩ := bind_eq_ok.mp hb
  obtain ⟨l, hl, -⟩ := bind_eq_ok.mp hv
  obtain ⟨hhas, hlen⟩ := Block.loadN_ok hl
  obtain ⟨x, y, rfl⟩ := List.length_eq_two.mp hlen
  refine ⟨x, y, hhas, ?_, .of_store hstore le_rfl⟩
  obtain ⟨pre, post, hbytes, haddr⟩ := hhas
  have hmk := @update16_mk _ b.base pre _ post _ haddr hlen
  rw [← hbytes] at hmk
  obtain rfl := Except.ok.inj (hb.symm.trans hmk)
  exact ⟨pre, post, rfl, haddr⟩

/-- `NODE_EntryToLE` on any bytes: the size is converted, and nothing before it is changed. -/
lemma nodeEntryToLE_frame (h : Within b e) (hb : nodeEntryToLE b e = .ok b') :
    ∃ x y, b.Has e.toNat [x, y] ∧ b'.Has e.toNat [y, x] ∧ Block.SameBelow e.toNat b b' := by
  obtain ⟨b₁, hb₁, hb⟩ := bind_eq_ok.mp hb
  obtain ⟨b₂, hb₂, hb⟩ := bind_eq_ok.mp hb
  obtain ⟨b₃, hb₃, hb⟩ := bind_eq_ok.mp hb
  obtain ⟨b₄, hb₄, hb⟩ := bind_eq_ok.mp hb
  obtain ⟨b₅, hb₅, hb⟩ := bind_eq_ok.mp hb
  obtain ⟨x, y, hhas, hhas', hsame⟩ := swapSize_frame hb₁
  have h₁ := h.same hsame
  have s₂ := h₁.swapIps hb₂
  have s₃ := s₂.trans ((h₁.same s₂).swapUuid0 hb₃)
  have s₄ := s₃.trans ((h₁.same s₃).swapUuid1 hb₄)
  have s₅ := s₄.trans ((h₁.same s₄).swapCap hb₅)
  have s₆ := s₅.trans ((h₁.same s₅).swapMemsz hb)
  exact ⟨x, y, hhas, s₆.has hhas' (by simp), hsame.trans (s₆.mono (by omega))⟩

end

/-! ### A list of arbitrary bytes -/

/-- A node list in its object, whose end does not wrap. Nothing is said about its entries. -/
structure ListIn (b : Block) (nl body : BitVec w) : Prop where
  bits : w = 32 ∨ w = 64
  room : b.base + b.size < 2 ^ w
  small : b.size + 65536 ≤ 2 ^ w
  start : b.base ≤ nl.toNat
  header : nl.toNat + 8 ≤ b.base + b.size
  body_eq : nlBody .le b nl = .ok body
  bound : (nlEntries nl).toNat + body.toNat < 2 ^ w

section

variable {b b' bf : Block} {nl body e e' : BitVec w} {k : ℕ}

namespace ListIn

lemma toNat_entries (h : ListIn b nl body) : (nlEntries nl).toNat = nl.toNat + 8 := by
  have := h.header
  have := h.room
  exact EverythingNet.toNat_entries (by omega)

lemma base_le (h : ListIn b nl body) (hle : nlEntries nl ≤ e) : b.base ≤ e.toNat := by
  have hstart := h.start
  have hentries := h.toNat_entries
  have hle' := BitVec.le_def.mp hle
  omega

lemma within (h : ListIn b nl body) (hend : e.toNat ≤ b.base + b.size) : Within b e where
  bits := h.bits
  room := h.room
  small := by
    have := h.small
    omega
  le := hend

/-- What is behind the header does not matter. -/
lemma same (h : ListIn b nl body) (hs : Block.SameBelow e.toNat b b') (hle : nlEntries nl ≤ e) :
    ListIn b' nl body where
  bits := h.bits
  room := by rw [hs.base, hs.size]; exact h.room
  small := by rw [hs.size]; exact h.small
  start := by rw [hs.base]; exact h.start
  header := by rw [hs.base, hs.size]; exact h.header
  body_eq := by
    obtain ⟨len, hlen, hbody⟩ := bind_eq_ok.mp h.body_eq
    obtain ⟨l, hl, hval⟩ := bind_eq_ok.mp hlen
    obtain ⟨hhas, h4⟩ := Block.loadN_ok hl
    have hentries := h.toNat_entries
    have hle' := BitVec.le_def.mp hle
    have hhas' := hs.has hhas (by rw [nlLen, h4]; omega)
    rw [nlBody, load32_has hhas' h4, ok_bind, ← hbody]
    obtain rfl := Except.ok.inj hval
    rfl
  bound := h.bound

lemma address (h : ListIn b nl body) (e : BitVec w) :
    addressTest .le b nl e = .ok (decide (e < nlEntries nl + body)) := bind_of_ok h.body_eq _

/-- From its first entry on the tests of the two walks are the same. -/
lemma offset (h : ListIn b nl body) (hle : nlEntries nl ≤ e) :
    offsetTest .le b nl e = .ok (decide (e < nlEntries nl + body)) := by
  refine (bind_of_ok h.body_eq _).trans ?_
  simp only [offset_lt_iff hle, address_lt_iff h.bound]
  rfl

lemma step_out (h : ListIn b nl body) (hout : ¬ e < nlEntries nl + body) :
    nodeListToNativeStep nl (b, e) = .ok (.inr b) := by
  rw [nodeListToNativeStep, h.body_eq, ok_bind, if_neg hout]
  rfl

lemma step_in (h : ListIn b nl body) (hin : e < nlEntries nl + body) :
    nodeListToNativeStep nl (b, e)
      = nodeEntryToLE b e >>= fun b' => entryNext .le b' e >>= fun e' => .ok (.inl (b', e')) := by
  rw [nodeListToNativeStep, h.body_eq, ok_bind, if_pos hin]
  rfl

/-- A round that ends the loop. -/
lemma out (h : ListIn b nl body) (hs : nodeListToNativeStep nl (b, e) = .ok (.inr b')) :
    b' = b ∧ ¬ e < nlEntries nl + body := by
  by_cases hin : e < nlEntries nl + body
  · rw [h.step_in hin] at hs
    obtain ⟨b₁, -, hs⟩ := bind_eq_ok.mp hs
    obtain ⟨e₁, -, hs⟩ := bind_eq_ok.mp hs
    simp at hs
  · rw [h.step_out hin] at hs
    exact ⟨(Sum.inr.inj (Except.ok.inj hs)).symm, hin⟩

end ListIn

/-- A round of the loop at `e` that finds the size `x`, `y` there and goes on at `e'`. -/
structure SwapRound (nl body : BitVec w) (b : Block) (e : BitVec w) (x y : Byte) (b' : Block)
    (e' : BitVec w) : Prop where
  inside : e < nlEntries nl + body
  found : b.Has e.toNat [x, y]
  left : b'.Has e.toNat [y, x]
  same : Block.SameBelow e.toNat b b'
  list : ListIn b' nl body
  next : e' = e + BitVec.ofNat w (256 * x.toNat + y.toNat)

/-- The value of a size in network byte order. -/
lemma decode_size (x y : Byte) : Endian.le.decode [y, x] = 256 * x.toNat + y.toNat := by
  rw [Endian.decode, leVal, leVal, leVal]
  omega

lemma size_lt (x y : Byte) : 256 * x.toNat + y.toNat < 65536 := by
  have := x.isLt
  have := y.isLt
  omega

lemma setWidth_ofNat16 {n : ℕ} (hn : n < 65536) :
    (BitVec.ofNat 16 n).setWidth w = BitVec.ofNat w n := by
  rw [← BitVec.toNat_inj, BitVec.toNat_setWidth, BitVec.toNat_ofNat, BitVec.toNat_ofNat,
    Nat.mod_eq_of_lt (show n < 2 ^ 16 by omega)]

/-- An entry that is converted starts in the object. -/
lemma start_of_swap (h : nodeEntryToLE b e = .ok b') :
    b.base ≤ e.toNat ∧ e.toNat ≤ b.base + b.size := by
  obtain ⟨b₁, hb₁, -⟩ := bind_eq_ok.mp h
  obtain ⟨x, y, hhas, -⟩ := swapSize_frame hb₁
  have hend := hhas.end_le
  obtain ⟨pre, post, -, haddr⟩ := hhas
  simp only [List.length_cons, List.length_nil] at hend
  omega

namespace ListIn

lemma round (h : ListIn b nl body) (hle : nlEntries nl ≤ e)
    (hs : nodeListToNativeStep nl (b, e) = .ok (.inl (b', e'))) :
    ∃ x y, SwapRound nl body b e x y b' e' := by
  by_cases hin : e < nlEntries nl + body
  · rw [h.step_in hin] at hs
    obtain ⟨b₁, hb₁, hs⟩ := bind_eq_ok.mp hs
    obtain ⟨e₁, he₁, hs⟩ := bind_eq_ok.mp hs
    obtain ⟨rfl, rfl⟩ : b₁ = b' ∧ e₁ = e' := by simpa using hs
    have hend : e.toNat ≤ b.base + b.size := (start_of_swap hb₁).2
    obtain ⟨x, y, hfound, hleft, hsame⟩ := nodeEntryToLE_frame (h.within hend) hb₁
    refine ⟨x, y, hin, hfound, hleft, hsame, h.same hsame hle, ?_⟩
    rw [entryNext, entrySize, load16_has hleft rfl, ok_bind, decode_size] at he₁
    rw [← Except.ok.inj he₁, setWidth_ofNat16 (size_lt x y)]
  · rw [h.step_out hin] at hs
    simp at hs

/-- If a later round ends the loop, the address of the next entry has not wrapped. -/
lemma behind (h : ListIn b nl body) {x y : Byte}
    (hr : SwapRound nl body b e x y b' e')
    (hrun : iter (nodeListToNativeStep nl) k (b', e') = .ok bf) :
    e'.toNat = e.toNat + (256 * x.toNat + y.toNat) := by
  have hsize := size_lt x y
  have hsmall := h.small
  have hend := hr.found.end_le
  rw [List.length_cons, List.length_singleton] at hend
  have hbase : b.base ≤ e'.toNat := by
    by_cases hin : e' < nlEntries nl + body
    · cases k with
      | zero => simp at hrun
      | succ k =>
          cases hb : nodeEntryToLE b' e' with
          | error x =>
              rw [iter_error (by rw [hr.list.step_in hin, hb, error_bind])] at hrun
              simp at hrun
          | ok b'' =>
              have := (start_of_swap hb).1
              rwa [hr.same.base] at this
    · refine h.base_le (BitVec.le_def.mpr ?_)
      rw [address_lt_iff h.bound] at hin
      omega
  rw [hr.next] at hbase ⊢
  exact toNat_behind h.room (c := 65536 - 2) (by omega) (by omega) hbase

lemma next_le (h : ListIn b nl body) (hle : nlEntries nl ≤ e) {x y : Byte}
    (hr : SwapRound nl body b e x y b' e')
    (hrun : iter (nodeListToNativeStep nl) k (b', e') = .ok bf) : nlEntries nl ≤ e' := by
  have hnext := h.behind hr hrun
  have := BitVec.le_def.mp hle
  rw [BitVec.le_def]
  omega

/-- What is before an entry when the loop comes to it stays so. -/
lemma run (h : ListIn b nl body) (hle : nlEntries nl ≤ e)
    (hrun : iter (nodeListToNativeStep nl) k (b, e) = .ok bf) :
    Block.SameBelow e.toNat b bf := by
  induction k generalizing b e with
  | zero => simp at hrun
  | succ k ih =>
      cases hs : nodeListToNativeStep nl (b, e) with
      | error x => rw [iter_error hs] at hrun; simp at hrun
      | ok r =>
          cases r with
          | inr b' =>
              rw [iter_inr hs] at hrun
              obtain ⟨rfl, -⟩ := h.out hs
              rw [← Except.ok.inj hrun]
              exact .refl _ _
          | inl s' =>
              rw [iter_inl hs] at hrun
              obtain ⟨x, y, hr⟩ := h.round hle hs
              have hnext := h.behind hr hrun
              exact hr.same.trans ((ih hr.list (h.next_le hle hr hrun) hrun).mono (by omega))

/-- An entry of size 0 is converted for ever. -/
lemma spins (h : ListIn b nl body) (hle : nlEntries nl ≤ e) (hin : e < nlEntries nl + body)
    (hzero : b.Has e.toNat [0, 0]) : iter (nodeListToNativeStep nl) k (b, e) ≠ .ok bf := by
  induction k generalizing b with
  | zero => simp
  | succ k ih =>
      cases hs : nodeListToNativeStep nl (b, e) with
      | error x => rw [iter_error hs]; simp
      | ok r =>
          cases r with
          | inr b' => exact absurd hin (h.out hs).2
          | inl s' =>
              obtain ⟨x, y, hr⟩ := h.round hle hs
              obtain ⟨r, hxy⟩ := hr.found.exists_eq_append hzero le_rfl
              obtain ⟨rfl, rfl, -⟩ : x = 0 ∧ y = 0 ∧ r = [] := by simpa using hxy
              have hsame : s' = (s'.1, e) := Prod.ext rfl (by rw [hr.next]; simp)
              rw [iter_inl hs, hsame]
              exact ih hr.list hr.left

/-- The loop goes forward. -/
lemma lt_next (h : ListIn b nl body) (hle : nlEntries nl ≤ e) {x y : Byte}
    (hr : SwapRound nl body b e x y b' e')
    (hrun : iter (nodeListToNativeStep nl) k (b', e') = .ok bf) : e.toNat < e'.toNat := by
  have hnext := h.behind hr hrun
  by_contra hnot
  obtain rfl : x = 0 := BitVec.eq_of_toNat_eq (show x.toNat = 0 by omega)
  obtain rfl : y = 0 := BitVec.eq_of_toNat_eq (show y.toNat = 0 by omega)
  have hsame : e' = e := BitVec.eq_of_toNat_eq (by omega)
  rw [hsame] at hrun
  exact hr.list.spins hle hr.inside hr.left hrun

/-- It converts no entry twice. -/
lemma nodup (h : ListIn b nl body) (hle : nlEntries nl ≤ e)
    (hrun : iter (nodeListToNativeStep nl) k (b, e) = .ok bf) (n : ℕ) :
    (∀ q ∈ (visits (nodeListToNativeStep nl) n (b, e)).map Prod.snd, e.toNat ≤ q.toNat)
      ∧ ((visits (nodeListToNativeStep nl) n (b, e)).map Prod.snd).Nodup := by
  induction k generalizing b e n with
  | zero => simp at hrun
  | succ k ih =>
      cases hs : nodeListToNativeStep nl (b, e) with
      | error x => rw [iter_error hs] at hrun; simp at hrun
      | ok r =>
          cases r with
          | inr b' => simp [visits_eq_nil hs]
          | inl s' =>
              rw [iter_inl hs] at hrun
              obtain ⟨x, y, hr⟩ := h.round hle hs
              have hlt := h.lt_next hle hr hrun
              cases n with
              | zero => simp
              | succ n =>
                  obtain ⟨hge, hnodup⟩ := ih hr.list (h.next_le hle hr hrun) hrun n
                  rw [visits_inl hs, List.map_cons, List.forall_mem_cons, List.nodup_cons]
                  refine ⟨⟨le_rfl, fun q hq => hlt.le.trans (hge q hq)⟩, fun hmem => ?_, hnodup⟩
                  exact absurd (hge e hmem) (by omega)

end ListIn

/-! ### What a walk over the converted list comes to -/

/-- The loop is at an entry of one byte with another entry behind it. The conversion of that one
overwrites half of the size of the first. -/
def Squeezed (nl : BitVec w) (s : Block × BitVec w) : Prop :=
  load16 .be s.1 (entrySize s.2) = .ok 1 ∧ addressTest .le s.1 nl (s.2 + 1) = .ok true

/-- A walk over the list that is left comes to the entries that the loop converts. -/
def SameWay (nl : BitVec w) (b : Block) (e : BitVec w) (bf : Block) : Prop :=
  ∀ n, offsetWalk .le bf nl n e = (visits (nodeListToNativeStep nl) n (b, e)).map Prod.snd

namespace SwapRound

variable {b'' : Block} {e'' : BitVec w} {x z : Byte}

/-- Behind an entry of one byte the next one finds half of its size converted. -/
lemma squeezed (hr : SwapRound nl body b e 0 1 b' e') (hnext : e'.toNat = e.toNat + 1)
    (hr' : SwapRound nl body b' e' x z b'' e'') : x = 0 ∧ b''.Has e.toNat [1, z] := by
  have hzero : b'.Has e'.toNat [0] := hnext ▸ Block.Has.right (l := [1]) hr.left
  obtain ⟨r, hx⟩ := hr'.found.exists_eq_append hzero (by simp)
  obtain ⟨rfl, -⟩ : x = 0 ∧ [z] = r := by simpa using hx
  refine ⟨rfl, Block.Has.append (l := [1]) ?_ ?_⟩
  · exact hr'.same.has (Block.Has.left (l := [1]) hr.left) (by rw [hnext]; simp)
  · exact hnext ▸ Block.Has.left (l := [z]) hr'.left

lemma squeezed_iff (hr : SwapRound nl body b e x z b' e') (h : ListIn b nl body) :
    Squeezed nl (b, e) ↔ (x = 0 ∧ z = 1) ∧ e + 1 < nlEntries nl + body := by
  have hload : load16 .be b (entrySize e) = .ok (BitVec.ofNat 16 (Endian.be.decode [x, z])) :=
    load16_has hr.found rfl
  have hdecode : Endian.be.decode [x, z] = 256 * x.toNat + z.toNat := decode_size x z
  have hval : BitVec.ofNat 16 (Endian.be.decode [x, z]) = 1 ↔ x = 0 ∧ z = 1 := by
    have hz := z.isLt
    have h0 : (0 : Byte).toNat = 0 := rfl
    have h1 : (1 : Byte).toNat = 1 := rfl
    have h1' : (1 : U16).toNat = 1 := rfl
    rw [← BitVec.toNat_inj, hdecode, toNat_ofNat_of_lt (size_lt x z), ← BitVec.toNat_inj,
      ← BitVec.toNat_inj (y := (1 : Byte)), h0, h1, h1']
    omega
  rw [Squeezed, hload, h.address, Except.ok.injEq, Except.ok.injEq, decide_eq_true_iff, hval]

end SwapRound

namespace ListIn

/-- A round whose size is still there at the end. -/
lemma sameWay_iff (h : ListIn bf nl body) (hle : nlEntries nl ≤ e) (hin : e < nlEntries nl + body)
    (hs : nodeListToNativeStep nl (b, e) = .ok (.inl (b', e')))
    (hnext : entryNext .le bf e = .ok e') : SameWay nl b e bf ↔ SameWay nl b' e' bf := by
  have hwalk : ∀ n, offsetWalk .le bf nl (n + 1) e = e :: offsetWalk .le bf nl n e' := fun n =>
    visits_inl (walkStep_true ((h.offset hle).trans (by rw [decide_eq_true hin])) hnext) n
  constructor
  · intro hsame n
    have := hsame (n + 1)
    rw [hwalk, visits_inl hs, List.map_cons, List.cons.injEq] at this
    exact this.2
  · intro hsame n
    cases n with
    | zero => rfl
    | succ n => rw [hwalk, visits_inl hs, List.map_cons, hsame n]

/-- In any other round the size that the conversion leaves is there to the end. -/
lemma kept (h : ListIn b nl body) (hle : nlEntries nl ≤ e) {x y : Byte}
    (hr : SwapRound nl body b e x y b' e') (hsq : ¬ Squeezed nl (b, e))
    (hrun : iter (nodeListToNativeStep nl) k (b', e') = .ok bf) : entryNext .le bf e = .ok e' := by
  have hnext := h.behind hr hrun
  have hlt := h.lt_next hle hr hrun
  have hleft : bf.Has e.toNat [y, x] := by
    by_cases h2 : 2 ≤ 256 * x.toNat + y.toNat
    · exact (hr.list.run (h.next_le hle hr hrun) hrun).has hr.left (by
        rw [List.length_cons, List.length_singleton]
        omega)
    · obtain rfl : x = 0 := BitVec.eq_of_toNat_eq (show x.toNat = 0 by omega)
      obtain rfl : y = 1 := BitVec.eq_of_toNat_eq (show y.toNat = 1 by omega)
      have hout : ¬ e' < nlEntries nl + body := by
        intro hin
        have hone : e' = e + 1 := hr.next
        exact hsq ((hr.squeezed_iff h).mpr ⟨⟨rfl, rfl⟩, hone ▸ hin⟩)
      cases k with
      | zero => simp at hrun
      | succ k =>
          rw [iter_inr (hr.list.step_out hout)] at hrun
          rw [← Except.ok.inj hrun]
          exact hr.left
  rw [entryNext, entrySize, load16_has hleft rfl, ok_bind, decode_size,
    setWidth_ofNat16 (size_lt x y), hr.next]
  rfl

/-- The size of an entry with another one directly behind it is gone at the end. -/
lemma overwritten (h : ListIn b nl body) (hle : nlEntries nl ≤ e)
    (hr : SwapRound nl body b e 0 1 b' e') (hin : e' < nlEntries nl + body)
    (hrun : iter (nodeListToNativeStep nl) k (b', e') = .ok bf) :
    ∃ z : Byte, z.toNat ≠ 0 ∧ ListIn bf nl body
      ∧ (∃ s, nodeListToNativeStep nl (b', e') = .ok (.inl s))
      ∧ entryNext .le bf e = .ok (e + BitVec.ofNat w (256 * z.toNat + (1 : Byte).toNat)) := by
  have hnext : e'.toNat = e.toNat + 1 := h.behind hr hrun
  have hle' := h.next_le hle hr hrun
  cases k with
  | zero => simp at hrun
  | succ k =>
      cases hs' : nodeListToNativeStep nl (b', e') with
      | error x => rw [iter_error hs'] at hrun; simp at hrun
      | ok r =>
          cases r with
          | inr b'' => exact absurd hin (hr.list.out hs').2
          | inl s'' =>
              obtain ⟨x, z, hr'⟩ := hr.list.round hle' hs'
              obtain ⟨rfl, hsize⟩ := hr.squeezed hnext hr'
              have hz : z.toNat ≠ 0 := by
                intro hz
                obtain rfl : z = 0 := BitVec.eq_of_toNat_eq hz
                exact hr.list.spins hle' hin hr'.found hrun
              rw [iter_inl hs'] at hrun
              have hnext' : s''.2.toNat = e'.toNat + (256 * 0 + z.toNat) :=
                hr.list.behind hr' hrun
              have hle'' := hr.list.next_le hle' hr' hrun
              have hrun' := hr'.list.run hle'' hrun
              have hfin := hrun'.has hsize (by
                rw [List.length_cons, List.length_singleton]
                omega)
              refine ⟨z, hz, hr'.list.same hrun' hle'', ⟨s'', rfl⟩, ?_⟩
              rw [entryNext, entrySize, load16_has hfin rfl, ok_bind, decode_size,
                setWidth_ofNat16 (size_lt z 1)]
              rfl

/-- So the walk goes on somewhere else. -/
lemma not_sameWay (h : ListIn b nl body) (hle : nlEntries nl ≤ e)
    (hs : nodeListToNativeStep nl (b, e) = .ok (.inl (b', e')))
    (hr : SwapRound nl body b e 0 1 b' e') (hin : e' < nlEntries nl + body)
    (hrun : iter (nodeListToNativeStep nl) k (b', e') = .ok bf) : ¬ SameWay nl b e bf := by
  obtain ⟨z, hz, hlist, ⟨s, hs'⟩, hnext⟩ := h.overwritten hle hr hin hrun
  have htest : offsetTest .le bf nl e = .ok true :=
    (hlist.offset hle).trans (by rw [decide_eq_true hr.inside])
  intro hsame
  have h2 := hsame 2
  rw [offsetWalk, visits_inl (walkStep_true htest hnext), visits_inl hs, visits_inl hs',
    List.map_cons, List.map_cons, List.cons.injEq] at h2
  rcases @visits_one _ _ (walkStep (offsetTest .le bf nl) .le bf)
    (e + BitVec.ofNat w (256 * z.toNat + (1 : Byte).toNat)) with hnil | hone
  · rw [hnil] at h2
    simp at h2
  · rw [hone] at h2
    have heq := (List.cons.inj h2.2).1
    rw [hr.next, BitVec.add_right_inj, ← BitVec.toNat_inj] at heq
    have hsize := size_lt z 1
    have hsize' := size_lt 0 1
    have hsmall := h.small
    have hzero : (0 : Byte).toNat = 0 := rfl
    rw [toNat_ofNat_of_lt (by omega), toNat_ofNat_of_lt (by omega)] at heq
    omega

/-- A walk over the converted list comes to the entries that the loop converts just if the loop passes
no entry of one byte with another one directly behind it. -/
lemma sameWay (h : ListIn b nl body) (hle : nlEntries nl ≤ e)
    (hrun : iter (nodeListToNativeStep nl) k (b, e) = .ok bf) :
    SameWay nl b e bf
      ↔ ∀ n, ∀ s ∈ visits (nodeListToNativeStep nl) n (b, e), ¬ Squeezed nl s := by
  induction k generalizing b e with
  | zero => simp at hrun
  | succ k ih =>
      cases hs : nodeListToNativeStep nl (b, e) with
      | error x => rw [iter_error hs] at hrun; simp at hrun
      | ok r =>
          cases r with
          | inr b' =>
              rw [iter_inr hs] at hrun
              obtain ⟨rfl, hout⟩ := h.out hs
              obtain rfl := Except.ok.inj hrun
              have hwalk : ∀ n, offsetWalk .le b' nl n e = [] :=
                visits_eq_nil (walkStep_false ((h.offset hle).trans (by rw [decide_eq_false hout])))
              simp [SameWay, hwalk, visits_eq_nil hs]
          | inl s' =>
              rw [iter_inl hs] at hrun
              obtain ⟨x, y, hr⟩ := h.round hle hs
              have hle' := h.next_le hle hr hrun
              rw [forall_visits_inl hs]
              by_cases hsq : Squeezed nl (b, e)
              · obtain ⟨⟨rfl, rfl⟩, hin⟩ := (hr.squeezed_iff h).mp hsq
                have : s'.2 = e + 1 := hr.next
                rw [← this] at hin
                simp [h.not_sameWay hle hs hr hin hrun, hsq]
              · have hfin := hr.list.run hle' hrun
                rw [← ih hr.list hle' hrun]
                have hnext := h.kept hle hr hsq hrun
                rw [(hr.list.same hfin hle').sameWay_iff hle hr.inside hs hnext]
                simp [hsq]

end ListIn

end

end EverythingNet
