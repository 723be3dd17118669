import Mathlib.Tactic
import EverythingNet.Libc.Move
import EverythingNet.Libc.Search

/-!
`plat/common/libc/string.c`: the functions of the internal C library that write, and `strcmp`.

* `memcpy`: over the flat memory of `memmove`. `Periodic`: what a copy from the front leaves, also
  where its ranges overlap, and `memcpy_iff`: when that is what `memmove` leaves.
* `memset`, `strcpy`, `strcat`: over arrays of cells. `copyStr_settles_iff`: the loop that copies a
  string, and `writes_iff`: the functions leave what the C library that the ports build on leaves.
* `strcmp_order`: `strcmp` orders strings as the numbers of their characters do.
-/

namespace EverythingNet.Libc

open CMem

/-! ### The functions -/

/-- `memcpy`, whose loop is the one that `memmove` has for a copy from the front. -/
def memcpy {w : ℕ} (k : ℕ) (m : Memory w) (dest src n : BitVec w) :
    Except Halt (Memory w × BitVec w) := do
  let m ← iter (memmoveUpStep dest src n) k (m, 0)
  return (m, dest)

/-- A round of the loop of `memset`: the array, where `p` points, and `len`. -/
def memsetStep (c : BitVec 32) : Cells × ℕ × ℕ → Except Halt ((Cells × ℕ × ℕ) ⊕ Cells)
  | (s, p, len) => do
    if 0 < len then
      let s ← write s p [c.setWidth 8]
      return .inl (s, p + 1, len - 1)
    else return .inr s

/-- `memset`. -/
def memset (k : ℕ) (s : Cells) (c : BitVec 32) (len : ℕ) : Except Halt Cells :=
  iter (memsetStep c) k (s, 0, len)

/-- A round of the loop that copies a string: the array, and where the two pointers point. -/
def copyStrStep (src : Cells) : Cells × ℕ × ℕ → Except Halt ((Cells × ℕ × ℕ) ⊕ Cells)
  | (dest, p, i) => do
    let c ← fetch (src.drop i)
    if c ≠ 0 then
      let dest ← write dest p [c]
      return .inl (dest, p + 1, i + 1)
    else
      let dest ← write dest p [0]
      return .inr dest

/-- `strcpy`. -/
def strcpy (k : ℕ) (dest : Option Cells) (src : Cells) : Except Halt (Option Cells) :=
  match dest with
  | none => .ok none
  | some dest => do
    let dest ← iter (copyStrStep src) k (dest, 0, 0)
    return some dest

/-- `strcat`. -/
def strcat (k : ℕ) (dest src : Cells) : Except Halt Cells := do
  let ptr ← strlen k dest
  iter (copyStrStep src) k (dest, ptr, 0)

/-- A round of the loop of `strcmp`; both pointers are as far from the start. -/
def strcmpStep (str1 str2 : Cells) (i : ℕ) : Except Halt (ℕ ⊕ ℕ) := do
  let c ← fetch (str1.drop i)
  if c = 0 then return .inr i
  else
    let d ← fetch (str2.drop i)
    if c ≠ d then return .inr i else return .inl (i + 1)

/-- `strcmp`. -/
def strcmp (k : ℕ) (str1 str2 : Cells) : Except Halt ℤ := do
  let i ← iter (strcmpStep str1 str2) k 0
  let c ← fetch (str1.drop i)
  let d ← fetch (str2.drop i)
  return c.toNat - d.toNat

/-! ### Copies from the front -/

section

variable {w : ℕ} {m m' : Memory w} {dest src n : BitVec w}

/-- The first `i` bytes behind `dest` are those behind `src`, over and over with the distance `d`, and
nothing else has changed. -/
structure Periodic (m : Memory w) (dest src : BitVec w) (d i : ℕ) (m' : Memory w) : Prop where
  copied : ∀ j < i, m' (dest + BitVec.ofNat w j) = m (src + BitVec.ofNat w (j % d))
  frame : ∀ a, (∀ j < i, a ≠ dest + BitVec.ofNat w j) → m' a = m a

/-- A byte more. It is read behind what has been written, or where the copy has come by. -/
lemma Periodic.copy {d i : ℕ} (h : Periodic m dest src d i m')
    (hd : dest.toNat + n.toNat ≤ 2 ^ w) (hs : src.toNat + n.toNat ≤ 2 ^ w)
    (hdist : dest.toNat = src.toNat + d) (hi : i < n.toNat) :
    Periodic m dest src d (i + 1) (copyByte dest src m' (BitVec.ofNat w i)) where
  copied j hj := by
    rw [copyByte]
    rcases Nat.lt_succ_iff_lt_or_eq.mp hj with hlt | rfl
    · have hne : dest + BitVec.ofNat w j ≠ dest + BitVec.ofNat w i := by
        rw [Ne, add_index_eq_iff hd hd (by omega) hi]
        omega
      rw [Function.update_of_ne hne]
      exact h.copied j hlt
    · rw [Function.update_self]
      by_cases hjd : j < d
      · have hunwritten : ∀ l < j, src + BitVec.ofNat w j ≠ dest + BitVec.ofNat w l := by
          intro l hl
          rw [Ne, add_index_eq_iff hs hd hi (by omega)]
          omega
        rw [h.frame _ hunwritten, Nat.mod_eq_of_lt hjd]
      · by_cases hd0 : d = 0
        · -- the byte is copied over itself
          have hunwritten : ∀ l < j, src + BitVec.ofNat w j ≠ dest + BitVec.ofNat w l := by
            intro l hl
            rw [Ne, add_index_eq_iff hs hd hi (by omega)]
            omega
          rw [h.frame _ hunwritten, hd0, Nat.mod_zero]
        · have hread : src + BitVec.ofNat w j = dest + BitVec.ofNat w (j - d) := by
            rw [add_index_eq_iff hs hd hi (by omega)]
            omega
          rw [hread, h.copied _ (by omega), Nat.mod_eq_sub_mod (by omega : d ≤ j)]
  frame a ha := by
    rw [copyByte, Function.update_of_ne (ha i (Nat.lt_succ_self i))]
    exact h.frame a fun j hj => ha j (by omega)

/-- What a copy to a place behind its source leaves. -/
lemma memmoveUp_periodic {d : ℕ} (hd : dest.toNat + n.toNat ≤ 2 ^ w)
    (hs : src.toNat + n.toNat ≤ 2 ^ w) (hdist : dest.toNat = src.toNat + d) :
    ∃ m', Settles (fun k => iter (memmoveUpStep dest src n) k (m, 0)) (.ok m')
      ∧ Periodic m dest src d n.toNat m' := by
  -- the list counts the rounds to come
  have key := @iter_list _ _ _ (memmoveUpStep dest src n)
    (fun (l : List Unit) s => s.2.toNat + l.length = n.toNat
      ∧ Periodic m dest src d s.2.toNat s.1)
    (Periodic m dest src d n.toNat) ?_ ?_
  · have hstart : Periodic m dest src d (0 : BitVec w).toNat m := by
      refine ⟨fun j hj => ?_, fun a _ => rfl⟩
      simp at hj
    obtain ⟨m', hm', hperiodic⟩ := key (List.replicate n.toNat ()) (m, 0) (n.toNat + 1)
      ⟨by simp, hstart⟩ (by simp)
    exact ⟨m', (Steady.loop _ _).settles hm' (by simp), hperiodic⟩
  · rintro u l ⟨m', i⟩ ⟨hlen, hperiodic⟩
    rw [List.length_cons] at hlen
    dsimp only at hlen hperiodic
    have hi : i < n := by
      rw [BitVec.lt_def]
      omega
    have hnext : (i + 1).toNat = i.toNat + 1 := toNat_add_one (by omega)
    have hcopy := hperiodic.copy hd hs hdist (by omega)
    rw [BitVec.ofNat_toNat, BitVec.setWidth_eq] at hcopy
    refine Or.inl ⟨(copyByte dest src m' i, i + 1), ?_, ?_, ?_⟩
    · rw [memmoveUpStep, if_pos hi]
    · dsimp only
      omega
    · dsimp only
      rwa [hnext]
  · rintro ⟨m', i⟩ ⟨hlen, hperiodic⟩
    dsimp only [List.length_nil] at hlen hperiodic
    have hi : ¬ i < n := by
      rw [BitVec.lt_def]
      omega
    refine ⟨m', ?_, ?_⟩
    · rw [memmoveUpStep, if_neg hi]
    · rwa [← hlen]

/-- `memcpy` always ends and changes nothing but the destination, which then holds what the source
held, as after `memmove`, just if it does not start behind the source or the source repeats itself
with the distance between them. -/
theorem memcpy_iff (m : Memory w) (dest src n : BitVec w) (hd : dest.toNat + n.toNat ≤ 2 ^ w)
    (hs : src.toNat + n.toNat ≤ 2 ^ w) :
    ∃ m', Settles (fun k => memcpy k m dest src n) (.ok (m', dest))
      ∧ (∀ a, (∀ i < n.toNat, a ≠ dest + BitVec.ofNat w i) → m' a = m a)
      ∧ ((∀ i < n.toNat, m' (dest + BitVec.ofNat w i) = m (src + BitVec.ofNat w i))
        ↔ dest.toNat ≤ src.toNat ∨ ∀ i < n.toNat,
          m (src + BitVec.ofNat w (i % (dest.toNat - src.toNat))) = m (src + BitVec.ofNat w i)) := by
  rcases Nat.lt_or_ge dest.toNat src.toNat with hlt | hge
  · obtain ⟨m', hm', hmoved⟩ := memmoveUp_spec (m := m) hd hs hlt
    exact ⟨m', hm'.map fun m' => pure (m', dest), hmoved.frame,
      iff_of_true hmoved.copied (Or.inl hlt.le)⟩
  · obtain ⟨m', hm', hperiodic⟩ := memmoveUp_periodic (m := m) hd hs
      (by omega : dest.toNat = src.toNat + (dest.toNat - src.toNat))
    refine ⟨m', hm'.map fun m' => pure (m', dest), hperiodic.frame, ?_, ?_⟩
    · intro hcopied
      exact Or.inr fun i hi => (hperiodic.copied i hi).symm.trans (hcopied i hi)
    · rintro (hle | hrepeats) i hi
      · rw [hperiodic.copied i hi, show dest.toNat - src.toNat = 0 by omega, Nat.mod_zero]
      · rw [hperiodic.copied i hi, hrepeats i hi]

/-- Three different bytes that are copied up by two: the last one is lost. -/
theorem memcpy_iff_overlap :
    ∃ m', Settles (fun k => memcpy k (fun a : BitVec 32 => a.setWidth 8) 2 0 3) (.ok (m', 2))
      ∧ ¬ ∀ i < 3, m' (2 + BitVec.ofNat 32 i) = (0 + BitVec.ofNat 32 i).setWidth 8 := by
  obtain ⟨m', hm', -, hiff⟩ :=
    memcpy_iff (fun a : BitVec 32 => a.setWidth 8) 2 0 3 (by decide) (by decide)
  refine ⟨m', hm', fun hcopied => ?_⟩
  rcases hiff.mp hcopied with hle | hrepeats
  · exact absurd hle (by decide)
  · exact absurd (hrepeats 2 (by decide)) (by decide)

end

/-! ### Arrays -/

section

variable {a a' s d src : Cells} {l l' : List Byte} {p : ℕ}

/-- Bytes are written one part after the other. -/
lemma write_append (a : Cells) (p : ℕ) (l l' : List Byte) :
    write a p (l ++ l') = write a p l >>= fun a' => write a' (p + l.length) l' := by
  by_cases h : p + l.length ≤ a.length
  · have hlen : (a.take p ++ stored l).length = p + l.length := by
      rw [List.length_append, List.length_take, stored_length]
      omega
    have htake : (a.take p ++ stored l ++ a.drop (p + l.length)).take (p + l.length)
        = a.take p ++ stored l := List.take_left' hlen
    have hdrop : (a.take p ++ stored l ++ a.drop (p + l.length)).drop (p + l.length + l'.length)
        = a.drop (p + l.length + l'.length) := by
      rw [← List.drop_drop, List.drop_left' hlen, List.drop_drop]
    have hfirst : write a p l = .ok (a.take p ++ stored l ++ a.drop (p + l.length)) := if_pos h
    rw [hfirst, ok_bind, write, write, htake, hdrop, List.length_append, List.length_append, hlen,
      List.length_drop, stored_append]
    by_cases h' : p + (l.length + l'.length) ≤ a.length
    · rw [if_pos h', if_pos (by omega), Nat.add_assoc]
      simp only [List.append_assoc]
    · rw [if_neg h', if_neg (by omega)]
  · rw [write_eq_error (l := l) (by omega), error_bind, write_eq_error]
    rw [List.length_append]
    omega

/-- The loop that copies a string leaves an array just if the string ends and fits. -/
lemma copyStr_settles_iff (src d : Cells) (hp : p ≤ a.length) :
    Settles (fun k => iter (copyStrStep src) k (a, p, 0)) (.ok d)
      ↔ ∃ s, strText src = .ok s ∧ write a p (s ++ [0]) = .ok d := by
  constructor
  · rintro ⟨N, hN⟩
    -- what has been read is on its way to the terminator, and has been written
    refine iter_induct
      (I := fun x => ∃ s src', (0 : Byte) ∉ s ∧ src = stored s ++ src' ∧ x.2.2 = s.length
        ∧ x.2.1 = p + s.length ∧ write a p s = .ok x.1)
      (Q := fun d => ∃ s, strText src = .ok s ∧ write a p (s ++ [0]) = .ok d) ?_ ?_
      N (a, p, 0) d ?_ (hN N le_rfl)
    · rintro ⟨a₁, p₁, i⟩ x ⟨s, src', hs, hsrc, hi, hp, hwrite⟩ hstep
      dsimp only at hi hp hwrite
      obtain ⟨c, hc, hstep⟩ := bind_eq_ok.mp hstep
      rw [hsrc, hi, ← stored_length s, List.drop_left] at hc
      obtain ⟨src'', rfl⟩ := fetch_eq_ok hc
      split_ifs at hstep with h0
      · obtain ⟨a₂, ha₂, hstep⟩ := bind_eq_ok.mp hstep
        obtain rfl := Sum.inl.inj (Except.ok.inj hstep)
        refine ⟨s ++ [c], src'', ?_, ?_, ?_, ?_, ?_⟩
        · rw [List.mem_append, List.mem_singleton, not_or]
          exact ⟨hs, Ne.symm h0⟩
        · rw [hsrc, stored_append, List.append_assoc]
          rfl
        · rw [List.length_append, hi, List.length_singleton]
        · dsimp only
          rw [hp, List.length_append, List.length_singleton]
          omega
        · rw [write_append, hwrite, ok_bind, ← hp]
          exact ha₂
      · obtain ⟨a₂, ha₂, hstep⟩ := bind_eq_ok.mp hstep
        simp at hstep
    · rintro ⟨a₁, p₁, i⟩ r ⟨s, src', hs, hsrc, hi, hp, hwrite⟩ hstep
      dsimp only at hi hp hwrite
      obtain ⟨c, hc, hstep⟩ := bind_eq_ok.mp hstep
      rw [hsrc, hi, ← stored_length s, List.drop_left] at hc
      obtain ⟨src'', rfl⟩ := fetch_eq_ok hc
      split_ifs at hstep with h0
      · obtain ⟨a₂, ha₂, hstep⟩ := bind_eq_ok.mp hstep
        simp at hstep
      · obtain rfl := not_not.mp h0
        obtain ⟨a₂, ha₂, hstep⟩ := bind_eq_ok.mp hstep
        obtain rfl := Sum.inr.inj (Except.ok.inj hstep)
        refine ⟨s, by rw [hsrc, strText_stored hs], ?_⟩
        rw [write_append, hwrite, ok_bind, ← hp]
        exact ha₂
    · exact ⟨[], src, by simp, rfl, rfl, rfl, by simp [write, hp]⟩
  · rintro ⟨s, hs, hwrite⟩
    obtain ⟨hs0, src', rfl⟩ := strText_eq_ok hs
    -- the string in two parts: what has been copied and what has not
    have key : ∀ (l l' : List Byte) (a₁ : Cells), s = l ++ l' → write a p l = .ok a₁ →
        Settles (fun k => iter (copyStrStep (stored s ++ some 0 :: src')) k
          (a₁, p + l.length, l.length)) (.ok d) := by
      intro l l'
      induction l' generalizing l with
      | nil =>
          intro a₁ hl ha₁
          rw [List.append_nil] at hl
          subst hl
          rw [write_append, ha₁, ok_bind] at hwrite
          refine settles_iter_inr ?_
          rw [copyStrStep, fetch_drop_stored, ok_bind, if_neg (not_not.mpr rfl), hwrite]
          rfl
      | cons c l' ih =>
          intro a₁ hl ha₁
          have hc0 : c ≠ 0 := by
            rintro rfl
            exact hs0 (hl ▸ List.mem_append_right l (List.mem_cons_self ..))
          obtain ⟨a₂, ha₂⟩ : ∃ a₂, write a₁ (p + l.length) [c] = .ok a₂ := by
            have hsplit : s ++ [0] = l ++ ([c] ++ (l' ++ [0])) := by
              rw [hl]
              simp
            rw [hsplit, write_append, ha₁, ok_bind, write_append] at hwrite
            obtain ⟨a₂, ha₂, -⟩ := bind_eq_ok.mp hwrite
            exact ⟨a₂, ha₂⟩
          have hfetch : fetch ((stored s ++ some 0 :: src').drop l.length) = .ok c := by
            rw [hl, stored_append, List.append_assoc, ← stored_length l, List.drop_left]
            rfl
          have hstep : copyStrStep (stored s ++ some 0 :: src') (a₁, p + l.length, l.length)
              = .ok (.inl (a₂, p + l.length + 1, l.length + 1)) := by
            rw [copyStrStep, hfetch, ok_bind, if_pos hc0, ha₂]
            rfl
          rw [settles_iter_inl hstep]
          have hnext := ih (l ++ [c]) a₂ (by rw [hl]; simp)
            (by rw [write_append, ha₁, ok_bind, ha₂])
          rwa [List.length_append, List.length_singleton, ← Nat.add_assoc] at hnext
    exact key [] s a rfl (by simp [write, hp])

/-- The loop of `memset` writes its bytes one by one. -/
lemma memsetStep_settles (c : BitVec 32) (len : ℕ) :
    ∀ {p : ℕ} {a : Cells}, p ≤ a.length → Settles (fun k => iter (memsetStep c) k (a, p, len))
      (write a p (List.replicate len (c.setWidth 8))) := by
  induction len with
  | zero =>
      intro p a hp
      have hwrite : write a p [] = .ok a := by simp [write, hp]
      rw [List.replicate_zero, hwrite]
      exact settles_iter_inr rfl
  | succ len ih =>
      intro p a hp
      rw [List.replicate_succ, ← List.singleton_append, write_append]
      cases hwrite : write a p [c.setWidth 8] with
      | error e =>
          refine settles_iter_error ?_
          rw [memsetStep, if_pos (Nat.succ_pos len), hwrite]
          rfl
      | ok a' =>
          have hstep : memsetStep c (a, p, len + 1) = .ok (.inl (a', p + 1, len)) := by
            rw [memsetStep, if_pos (Nat.succ_pos len), hwrite]
            rfl
          have hlen : p + 1 ≤ a.length := by
            by_contra h
            rw [write_eq_error (by rw [List.length_singleton]; omega)] at hwrite
            simp at hwrite
          rw [settles_iter_inl hstep]
          exact ih (by rw [write_length hwrite]; exact hlen)

/-- `strlen` measures just what is a string. -/
lemma strlen_settles_iff (a : Cells) (n : ℕ) :
    Settles (fun k => strlen k a) (.ok n) ↔ CMem.strlen a = .ok n := by
  constructor
  · rintro ⟨N, hN⟩
    refine iter_induct (I := fun i => ∃ s a', (0 : Byte) ∉ s ∧ a = stored s ++ a' ∧ i = s.length)
      (Q := fun n => CMem.strlen a = .ok n) ?_ ?_ N 0 n ⟨[], a, by simp, rfl, rfl⟩ (hN N le_rfl)
    · rintro i j ⟨s, a', hs, ha, rfl⟩ hstep
      obtain ⟨c, hc, hstep⟩ := bind_eq_ok.mp hstep
      rw [ha, ← stored_length s, List.drop_left] at hc
      obtain ⟨a'', rfl⟩ := fetch_eq_ok hc
      split_ifs at hstep with h0
      · obtain rfl := Sum.inl.inj (Except.ok.inj hstep)
        refine ⟨s ++ [c], a'', ?_, ?_, ?_⟩
        · rw [List.mem_append, List.mem_singleton, not_or]
          exact ⟨hs, Ne.symm h0⟩
        · rw [ha, stored_append, List.append_assoc]
          rfl
        · rw [List.length_append, List.length_singleton]
      · simp at hstep
    · rintro i n ⟨s, a', hs, ha, rfl⟩ hstep
      obtain ⟨c, hc, hstep⟩ := bind_eq_ok.mp hstep
      rw [ha, ← stored_length s, List.drop_left] at hc
      obtain ⟨a'', rfl⟩ := fetch_eq_ok hc
      split_ifs at hstep with h0
      · simp at hstep
      · obtain rfl := not_not.mp h0
        obtain rfl := Sum.inr.inj (Except.ok.inj hstep)
        rw [ha, CMem.strlen_stored hs]
  · intro h
    obtain ⟨s, a', hs, rfl, rfl⟩ := strlen_eq_ok h
    exact strlen_settles hs a'

/-- The functions that write leave what those of the C library that the ports are built on leave, and
come to an end just where these do. -/
theorem writes_iff (dest src d : Cells) (c : BitVec 32) (len : ℕ) :
    (Settles (fun k => strcpy k (some dest) src) (.ok (some d)) ↔ CMem.strcpy dest src = .ok d)
    ∧ (Settles (fun k => strcat k dest src) (.ok d)
      ↔ ∃ s, strText src = .ok s ∧ CMem.strcat dest s = .ok d)
    ∧ (Settles (fun k => memset k dest c len) (.ok d)
      ↔ write dest 0 (List.replicate len (c.setWidth 8)) = .ok d) := by
  refine ⟨?_, ?_, ?_⟩
  · have hcpy : Settles (fun k => strcpy k (some dest) src) (.ok (some d))
        ↔ Settles (fun k => iter (copyStrStep src) k (dest, 0, 0)) (.ok d) := by
      constructor
      · rintro ⟨N, hN⟩
        refine ⟨N, fun k hk => ?_⟩
        obtain ⟨d', hd', hsome⟩ := bind_eq_ok.mp (hN k hk)
        rwa [Option.some.inj (Except.ok.inj hsome)] at hd'
      · intro h
        exact h.map fun d => pure (some d)
    rw [hcpy, copyStr_settles_iff src d (Nat.zero_le _)]
    exact bind_eq_ok.symm
  · constructor
    · rintro ⟨N, hN⟩
      obtain ⟨j, hj, hcopy⟩ := bind_eq_ok.mp (hN N le_rfl)
      have hlen : CMem.strlen dest = .ok j :=
        (strlen_settles_iff dest j).mp ((Steady.loop _ _).settles hj (by simp))
      obtain ⟨s, a', -, rfl, rfl⟩ := strlen_eq_ok hlen
      have hsettles := (Steady.loop (copyStrStep src) _).settles hcopy (by simp)
      obtain ⟨t, ht, hwrite⟩ := (copyStr_settles_iff src d (by simp)).mp hsettles
      exact ⟨t, ht, bind_eq_ok.mpr ⟨_, hlen, hwrite⟩⟩
    · rintro ⟨t, ht, hcat⟩
      obtain ⟨j, hlen, hwrite⟩ := bind_eq_ok.mp hcat
      refine ((strlen_settles_iff dest j).mpr hlen).bind ?_
      obtain ⟨s, a', -, rfl, rfl⟩ := strlen_eq_ok hlen
      exact (copyStr_settles_iff src d (by simp)).mpr ⟨t, ht, hwrite⟩
  · have hsettles := memsetStep_settles c len (Nat.zero_le dest.length)
    constructor
    · exact fun h => hsettles.unique h
    · exact fun h => h ▸ hsettles

end

/-! ### The order of strings -/

section

variable {s t : List Byte}

/-- Two lists have a common start, behind which they differ if both go on. -/
lemma exists_common (s t : List Byte) : ∃ p s' t', s = p ++ s' ∧ t = p ++ t'
    ∧ ∀ c s'' d t'', s' = c :: s'' → t' = d :: t'' → c ≠ d := by
  induction s generalizing t with
  | nil => exact ⟨[], [], t, rfl, rfl, fun c s'' d t'' h => absurd h (by simp)⟩
  | cons c s ih =>
      rcases t with _ | ⟨d, t⟩
      · exact ⟨[], c :: s, [], rfl, rfl, fun c s'' d t'' _ h => absurd h (by simp)⟩
      · by_cases hcd : c = d
        · obtain ⟨p, s', t', hs, ht, hne⟩ := ih t
          exact ⟨c :: p, s', t', by rw [hs, List.cons_append], by rw [ht, hcd, List.cons_append],
            hne⟩
        · refine ⟨[], c :: s, d :: t, rfl, rfl, fun c' s'' d' t'' hs ht => ?_⟩
          rwa [(List.cons.inj hs).1, (List.cons.inj ht).1] at hcd

/-- A common start does not matter for the order. -/
lemma append_lt_append (p s t : List Byte) : p ++ s < p ++ t ↔ s < t := by
  induction p with
  | nil => rfl
  | cons c p ih => simp [ih]

/-- `strcmp` stops behind a common start. -/
lemma strcmp_settles {p : List Byte} (hp : (0 : Byte) ∉ p) {x y : Byte} (hxy : x = 0 ∨ x ≠ y)
    (a b : Cells) :
    Settles (fun k => strcmp k (stored p ++ some x :: a) (stored p ++ some y :: b))
      (.ok (x.toNat - y.toNat)) := by
  have hloop : Settles (fun k => iter (strcmpStep (stored p ++ some x :: a)
      (stored p ++ some y :: b)) k 0) (.ok p.length) := by
    refine settles_iter_count (n := p.length) (fun i hi => ?_) ?_
    · rw [strcmpStep, fetch_drop_getElem _ hi, ok_bind, if_neg (getElem_ne_zero hp hi),
        fetch_drop_getElem _ hi, ok_bind, if_neg (not_not.mpr rfl)]
      rfl
    · rw [strcmpStep, fetch_drop_stored, fetch_drop_stored, ok_bind]
      rcases hxy with h0 | hne
      · rw [if_pos h0]
        rfl
      · rw [ok_bind, if_pos hne]
        split_ifs <;> rfl
  refine hloop.bind ?_
  simp only [fetch_drop_stored, ok_bind, pure_eq_ok]
  exact Settles.const _

/-- `strcmp` tells strings apart, and which of two comes first by the numbers of their characters. -/
theorem strcmp_order (hs : (0 : Byte) ∉ s) (ht : (0 : Byte) ∉ t) (a b : Cells) :
    ∃ r, Settles (fun k => strcmp k (stored s ++ some 0 :: a) (stored t ++ some 0 :: b)) (.ok r)
      ∧ (r = 0 ↔ s = t) ∧ (r < 0 ↔ s < t) := by
  obtain ⟨p, s', t', rfl, rfl, hne⟩ := exists_common s t
  rw [List.mem_append, not_or] at hs ht
  rw [append_lt_append, List.append_right_inj, stored_append, stored_append, List.append_assoc,
    List.append_assoc]
  rcases s' with _ | ⟨c, s'⟩ <;> rcases t' with _ | ⟨d, t'⟩
  · refine ⟨_, strcmp_settles hs.1 (Or.inl rfl) a b, ?_, ?_⟩ <;> simp
  · have hd0 : d ≠ 0 := fun h => ht.2 (h ▸ List.mem_cons_self ..)
    have hd : d.toNat ≠ 0 := fun h => hd0 (BitVec.eq_of_toNat_eq h)
    refine ⟨_, strcmp_settles hs.1 (Or.inl rfl) a (stored t' ++ some 0 :: b), ?_, ?_⟩
    · simpa using hd
    · simpa using Nat.pos_of_ne_zero hd
  · have hc : c ≠ 0 := fun h => hs.2 (h ▸ List.mem_cons_self ..)
    refine ⟨_, strcmp_settles hs.1 (Or.inr hc) (stored s' ++ some 0 :: a) b, ?_, ?_⟩
    · simp [BitVec.toNat_eq] at hc ⊢
      omega
    · simp
  · have hcd := hne c s' d t' rfl rfl
    have hnat : c.toNat ≠ d.toNat := fun h => hcd (BitVec.eq_of_toNat_eq h)
    refine ⟨_, strcmp_settles hs.1 (Or.inr hcd) (stored s' ++ some 0 :: a)
      (stored t' ++ some 0 :: b), ?_, ?_⟩
    · rw [List.cons.injEq]
      constructor
      · omega
      · exact fun h => absurd h.1 hcd
    · rw [List.cons_lt_cons_iff, BitVec.lt_def]
      constructor
      · intro h
        exact Or.inl (by omega)
      · rintro (h | ⟨h, -⟩)
        · omega
        · exact absurd h hcd

theorem strcmp_order_sample :
    ∃ r, Settles (fun k => strcmp k (stored (chars "cpu") ++ [some 0])
        (stored (chars "cpus") ++ [some 0])) (.ok r) ∧ r < 0 := by
  obtain ⟨r, hr, -, hlt⟩ :=
    strcmp_order (s := chars "cpu") (t := chars "cpus") (by decide) (by decide) [] []
  exact ⟨r, hr, hlt.mpr (by decide)⟩

end

end EverythingNet.Libc
