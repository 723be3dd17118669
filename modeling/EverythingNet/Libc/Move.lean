import Mathlib.Tactic
import EverythingNet.Host.Target

/-!
`plat/common/libc/string.c`: `memmove` of the internal C library.

* `memmove`: the function, with one loop for each direction of the copy.
* `Moved S`: of the bytes that are to be moved those with an index in `S` have been, and nothing else
  has changed. One copied byte enlarges `S` (`Moved.copy`), as long as its source has not been
  overwritten yet.
* `memmove_spec`: whatever the overlap, the destination holds what the source held.
-/

namespace EverythingNet.Libc

open CMem

/-- The memory: a byte at every address. -/
abbrev Memory (w : ℕ) := BitVec w → Byte

variable {w : ℕ}

/-- `dst[i] = srcTmp[i];` -/
def copyByte (dst srcTmp : BitVec w) (m : Memory w) (i : BitVec w) : Memory w :=
  Function.update m (dst + i) (m (srcTmp + i))

/-- A round of the loop that copies from the front. -/
def memmoveUpStep (dst srcTmp n : BitVec w) (s : Memory w × BitVec w) :
    Except Halt ((Memory w × BitVec w) ⊕ Memory w) :=
  if s.2 < n then .ok (.inl (copyByte dst srcTmp s.1 s.2, s.2 + 1)) else .ok (.inr s.1)

/-- A round of the loop that copies from the back. -/
def memmoveDownStep (dst srcTmp : BitVec w) (s : Memory w × BitVec w) :
    Except Halt ((Memory w × BitVec w) ⊕ Memory w) :=
  if s.2 ≠ 0 then .ok (.inl (copyByte dst srcTmp s.1 (s.2 - 1), s.2 - 1)) else .ok (.inr s.1)

/-- `memmove`: the memory it leaves and what it returns. -/
def memmove (k : ℕ) (m : Memory w) (dest src n : BitVec w) : Except Halt (Memory w × BitVec w) := do
  let m ←
    if dest < src then iter (memmoveUpStep dest src n) k (m, 0)
    else iter (memmoveDownStep dest src) k (m, n)
  return (m, dest)

/-! ### What has been moved -/

/-- The bytes with an index in `S` have been moved from `src` to `dst` and nothing else has changed. -/
structure Moved (m : Memory w) (dst src : BitVec w) (S : Set ℕ) (m' : Memory w) : Prop where
  copied : ∀ i ∈ S, m' (dst + BitVec.ofNat w i) = m (src + BitVec.ofNat w i)
  frame : ∀ a, (∀ i ∈ S, a ≠ dst + BitVec.ofNat w i) → m' a = m a

section

variable {m m' : Memory w} {dst src : BitVec w} {S : Set ℕ} {n : ℕ}

lemma Moved.start (m : Memory w) (dst src : BitVec w) : Moved m dst src ∅ m where
  copied i hi := absurd hi (Set.notMem_empty i)
  frame _ _ := rfl

/-- In ranges that do not wrap addresses are equal just if their numbers are. -/
lemma add_index_eq_iff {p q : BitVec w} (hp : p.toNat + n ≤ 2 ^ w) (hq : q.toNat + n ≤ 2 ^ w)
    {i j : ℕ} (hi : i < n) (hj : j < n) :
    p + BitVec.ofNat w i = q + BitVec.ofNat w j ↔ p.toNat + i = q.toNat + j := by
  rw [← BitVec.toNat_inj, toNat_add_ofNat (by omega), toNat_add_ofNat (by omega)]

/-- Copying one byte more, whose source is not among the bytes written so far. -/
lemma Moved.copy (h : Moved m dst src S m') (hd : dst.toNat + n ≤ 2 ^ w) (hS : ∀ i ∈ S, i < n)
    {j : ℕ} (hj : j < n) (hsrc : ∀ i ∈ S, src + BitVec.ofNat w j ≠ dst + BitVec.ofNat w i) :
    Moved m dst src (insert j S) (copyByte dst src m' (BitVec.ofNat w j)) where
  copied i hi := by
    rw [copyByte]
    by_cases hij : i = j
    · rw [hij, Function.update_self]
      exact h.frame _ hsrc
    · have hiS : i ∈ S := Set.mem_of_mem_insert_of_ne hi hij
      have hne : dst + BitVec.ofNat w i ≠ dst + BitVec.ofNat w j :=
        fun heq => hij (Nat.add_left_cancel ((add_index_eq_iff hd hd (hS i hiS) hj).mp heq))
      rw [Function.update_of_ne hne]
      exact h.copied i hiS
  frame a ha := by
    rw [copyByte, Function.update_of_ne (ha j (Set.mem_insert j S))]
    exact h.frame a fun i hi => ha i (Set.mem_insert_of_mem j hi)

end

/-! ### The two directions -/

section

variable {m : Memory w} {dst src n : BitVec w}

/-- From the front: what has been written lies before the bytes still to be read. -/
lemma memmoveUp_spec (hd : dst.toNat + n.toNat ≤ 2 ^ w) (hs : src.toNat + n.toNat ≤ 2 ^ w)
    (hlt : dst.toNat < src.toNat) :
    ∃ m', Settles (fun k => iter (memmoveUpStep dst src n) k (m, 0)) (.ok m')
      ∧ Moved m dst src (Set.Iio n.toNat) m' := by
  -- the bytes before the counter have been moved; the list counts the rounds to come
  have key := @iter_list _ _ _ (memmoveUpStep dst src n)
    (fun (l : List Unit) s => s.2.toNat + l.length = n.toNat
      ∧ Moved m dst src (Set.Iio s.2.toNat) s.1)
    (Moved m dst src (Set.Iio n.toNat)) ?_ ?_
  · obtain ⟨m', hm', hmoved⟩ := key (List.replicate n.toNat ()) (m, 0) (n.toNat + 1)
      ⟨by simp, by simpa using Moved.start m dst src⟩ (by simp)
    exact ⟨m', (Steady.loop _ _).settles hm' (by simp), hmoved⟩
  · rintro u l ⟨m', i⟩ ⟨hlen, hmoved⟩
    rw [List.length_cons] at hlen
    dsimp only at hlen hmoved
    have hi : i < n := by
      rw [BitVec.lt_def]
      omega
    have hnext : (i + 1).toNat = i.toNat + 1 := toNat_add_one (by omega)
    have hunread : ∀ j ∈ Set.Iio i.toNat,
        src + BitVec.ofNat w i.toNat ≠ dst + BitVec.ofNat w j := by
      intro j hj heq
      rw [Set.mem_Iio] at hj
      have hnat := (add_index_eq_iff hs hd (by omega) (by omega)).mp heq
      omega
    have hcopy := hmoved.copy hd (fun j hj => lt_trans hj (by omega)) (by omega) hunread
    rw [BitVec.ofNat_toNat, BitVec.setWidth_eq] at hcopy
    refine Or.inl ⟨(copyByte dst src m' i, i + 1), ?_, ?_, ?_⟩
    · rw [memmoveUpStep, if_pos hi]
    · dsimp only
      omega
    · dsimp only
      rwa [hnext, ← Order.succ_eq_add_one, Order.Iio_succ_eq_insert]
  · rintro ⟨m', i⟩ ⟨hlen, hmoved⟩
    dsimp only [List.length_nil] at hlen hmoved
    have hi : ¬ i < n := by
      rw [BitVec.lt_def]
      omega
    refine ⟨m', ?_, ?_⟩
    · rw [memmoveUpStep, if_neg hi]
    · rwa [← hlen]

/-- From the back: what has been written lies behind the bytes still to be read. -/
lemma memmoveDown_spec (hd : dst.toNat + n.toNat ≤ 2 ^ w) (hs : src.toNat + n.toNat ≤ 2 ^ w)
    (hle : src.toNat ≤ dst.toNat) :
    ∃ m', Settles (fun k => iter (memmoveDownStep dst src) k (m, n)) (.ok m')
      ∧ Moved m dst src (Set.Iio n.toNat) m' := by
  -- the bytes from the counter on have been moved; the list counts the rounds to come
  have key := @iter_list _ _ _ (memmoveDownStep dst src)
    (fun (l : List Unit) s => s.2.toNat = l.length ∧ s.2.toNat ≤ n.toNat
      ∧ Moved m dst src (Set.Ico s.2.toNat n.toNat) s.1)
    (Moved m dst src (Set.Iio n.toNat)) ?_ ?_
  · obtain ⟨m', hm', hmoved⟩ := key (List.replicate n.toNat ()) (m, n) (n.toNat + 1)
      ⟨by simp, le_rfl, by simpa using Moved.start m dst src⟩ (by simp)
    exact ⟨m', (Steady.loop _ _).settles hm' (by simp), hmoved⟩
  · rintro u l ⟨m', i⟩ ⟨hlen, hin, hmoved⟩
    rw [List.length_cons] at hlen
    dsimp only at hlen hin hmoved
    have hi : i ≠ 0 := by
      rintro rfl
      simp at hlen
    have hprev : (i - 1).toNat = l.length := by
      have hone : (1 : BitVec w).toNat = 1 := toNat_ofNat_of_lt (n := 1) (by omega)
      rw [BitVec.toNat_sub_of_le (by rw [BitVec.le_def]; omega), hone]
      omega
    have hunread : ∀ j ∈ Set.Ico i.toNat n.toNat,
        src + BitVec.ofNat w (i - 1).toNat ≠ dst + BitVec.ofNat w j := by
      intro j hj heq
      rw [Set.mem_Ico] at hj
      have hnat := (add_index_eq_iff hs hd (by omega) (by omega)).mp heq
      omega
    have hcopy := hmoved.copy hd (fun j hj => hj.2) (by omega) hunread
    rw [BitVec.ofNat_toNat, BitVec.setWidth_eq] at hcopy
    refine Or.inl ⟨(copyByte dst src m' (i - 1), i - 1), ?_, hprev, ?_, ?_⟩
    · rw [memmoveDownStep, if_pos hi]
    · dsimp only
      omega
    · have hset : Set.Ico (i - 1).toNat n.toNat
          = insert (i - 1).toNat (Set.Ico i.toNat n.toNat) := by
        ext j
        rw [Set.mem_insert_iff, Set.mem_Ico, Set.mem_Ico]
        omega
      rwa [← hset] at hcopy
  · rintro ⟨m', i⟩ ⟨hlen, -, hmoved⟩
    dsimp only [List.length_nil] at hlen hmoved
    have hi : ¬ i ≠ 0 := not_not.mpr (BitVec.eq_of_toNat_eq (by simpa using hlen))
    refine ⟨m', ?_, ?_⟩
    · rw [memmoveDownStep, if_neg hi]
    · rwa [hlen, ← Nat.bot_eq_zero, Set.Ico_bot] at hmoved

end

/-- `memmove` moves: for ranges that do not wrap, however they overlap, it ends, the destination
then holds what the source held, no other byte has changed, and the destination is returned. -/
theorem memmove_spec (m : Memory w) (dest src n : BitVec w) (hd : dest.toNat + n.toNat ≤ 2 ^ w)
    (hs : src.toNat + n.toNat ≤ 2 ^ w) :
    ∃ m', Settles (fun k => memmove k m dest src n) (.ok (m', dest))
      ∧ (∀ i < n.toNat, m' (dest + BitVec.ofNat w i) = m (src + BitVec.ofNat w i))
      ∧ ∀ a, (∀ i < n.toNat, a ≠ dest + BitVec.ofNat w i) → m' a = m a := by
  by_cases h : dest < src
  · obtain ⟨m', hm', hmoved⟩ := memmoveUp_spec (m := m) hd hs h
    refine ⟨m', ?_, hmoved.copied, hmoved.frame⟩
    simp only [memmove, if_pos h]
    exact hm'.map fun m' => pure (m', dest)
  · obtain ⟨m', hm', hmoved⟩ := memmoveDown_spec (m := m) hd hs (not_lt.mp h)
    refine ⟨m', ?_, hmoved.copied, hmoved.frame⟩
    simp only [memmove, if_neg h]
    exact hm'.map fun m' => pure (m', dest)

/-- Three bytes that are moved up by two, so that the copy goes over the last of them. -/
theorem memmove_spec_overlap :
    ∃ m', Settles (fun k => memmove k (fun a : BitVec 32 => a.setWidth 8) 2 0 3) (.ok (m', 2))
      ∧ m' 2 = 0 ∧ m' 3 = 1 ∧ m' 4 = 2 ∧ m' 5 = 5 := by
  obtain ⟨m', hm', hcopied, hframe⟩ :=
    memmove_spec (fun a : BitVec 32 => a.setWidth 8) 2 0 3 (by decide) (by decide)
  exact ⟨m', hm', hcopied 0 (by decide), hcopied 1 (by decide), hcopied 2 (by decide),
    hframe 5 (by decide)⟩

end EverythingNet.Libc
