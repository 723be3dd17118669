import Mathlib.Tactic

/-!
Bytes, byte orders and C strings.

* `leBytes`, `leVal`: the little-endian code of a natural number in a given number of bytes and
  its reading, inverse to each other (`leVal_leBytes`, `leBytes_leVal`).
* `Endian.encode`, `Endian.decode`: the same for either byte order, `Endian.encode_reverse`
  being the change of order. `leBytes_eq_map_byteAt` writes the code of a word as the list of
  its bytes, which is how the byte swaps of a program are checked.
* `CStr`: a list of bytes without a zero byte, `cstrlen`, the distance to the first zero, and
  `cstrings`, the strings that lie in some bytes one behind the other.
* `AgreeOutside S l l'`: bytes that differ at the positions `S` only.
* `pad`: the number of bytes to the next multiple, the least one that is not below
  (`isLeast_add_pad`).
-/

namespace CMem

abbrev Byte := BitVec 8

/-- Byte orders. -/
inductive Endian where
  | le
  | be
  deriving DecidableEq, Repr

/-! ### Little-endian code -/

/-- The `n` low bytes of `v`, least significant first. -/
def leBytes : ℕ → ℕ → List Byte
  | 0, _ => []
  | n + 1, v => BitVec.ofNat 8 v :: leBytes n (v / 256)

/-- The number with these bytes, least significant first. -/
def leVal : List Byte → ℕ
  | [] => 0
  | b :: l => b.toNat + 256 * leVal l

@[simp] lemma leBytes_length (n v : ℕ) : (leBytes n v).length = n := by
  induction n generalizing v with
  | zero => rfl
  | succ n ih => rw [leBytes, List.length_cons, ih]

lemma leVal_leBytes (n v : ℕ) : leVal (leBytes n v) = v % 256 ^ n := by
  induction n generalizing v with
  | zero => simp [leBytes, leVal, Nat.mod_one]
  | succ n ih =>
      have h8 : (2 : ℕ) ^ 8 = 256 := rfl
      rw [leBytes, leVal, ih, BitVec.toNat_ofNat, h8, pow_succ', Nat.mod_mul]

lemma leBytes_leVal (l : List Byte) : leBytes l.length (leVal l) = l := by
  induction l with
  | nil => rfl
  | cons b l ih =>
      have hb : b.toNat < 256 := b.isLt
      have hq : (b.toNat + 256 * leVal l) / 256 = leVal l := by omega
      rw [List.length_cons, leVal, leBytes, hq, ih]
      congr 1
      apply BitVec.eq_of_toNat_eq
      rw [BitVec.toNat_ofNat]
      omega

lemma leVal_lt (l : List Byte) : leVal l < 256 ^ l.length := by
  induction l with
  | nil => simp [leVal]
  | cons b l ih =>
      have hb : b.toNat < 256 := b.isLt
      rw [leVal, List.length_cons, pow_succ]
      omega

/-- The byte of a word at a position, counted from the least significant one. -/
def byteAt {w : ℕ} (x : BitVec w) (i : ℕ) : Byte := x.extractLsb' (8 * i) 8

/-- The code of a word is the list of its bytes. -/
lemma leBytes_eq_map_byteAt {w : ℕ} (x : BitVec w) (n : ℕ) :
    leBytes n x.toNat = (List.range n).map (byteAt x) := by
  have key : ∀ k, leBytes n (x.toNat / 256 ^ k) = (List.range' k n).map (byteAt x) := by
    induction n with
    | zero => intro k; rfl
    | succ n ih =>
        intro k
        rw [leBytes, List.range'_succ, List.map_cons, Nat.div_div_eq_div_mul, ← pow_succ,
          ih (k + 1)]
        congr 1
        apply BitVec.eq_of_toNat_eq
        rw [byteAt, BitVec.toNat_ofNat, BitVec.extractLsb'_toNat, Nat.shiftRight_eq_div_pow,
          pow_mul]
        norm_num
  simpa [List.range_eq_range'] using key 0

/-! ### Either byte order -/

namespace Endian

/-- The other byte order. -/
def flip : Endian → Endian
  | le => be
  | be => le

@[simp] lemma flip_le : le.flip = be := rfl

@[simp] lemma flip_be : be.flip = le := rfl

@[simp] lemma flip_flip (E : Endian) : E.flip.flip = E := by cases E <;> rfl

/-- The `n` bytes that hold `v` in this byte order. -/
def encode (E : Endian) (n v : ℕ) : List Byte :=
  match E with
  | le => leBytes n v
  | be => (leBytes n v).reverse

/-- The number that bytes hold in this byte order. -/
def decode (E : Endian) (l : List Byte) : ℕ :=
  match E with
  | le => leVal l
  | be => leVal l.reverse

@[simp] lemma encode_length (E : Endian) (n v : ℕ) : (E.encode n v).length = n := by
  cases E <;> simp [encode]

lemma encode_zero (E : Endian) (n : ℕ) : E.encode n 0 = List.replicate n 0 := by
  have hle : leBytes n 0 = List.replicate n 0 := by
    induction n with
    | zero => rfl
    | succ n ih => rw [leBytes, Nat.zero_div, ih, List.replicate_succ]; rfl
  cases E <;> simp [encode, hle]

lemma encode_reverse (E : Endian) (n v : ℕ) : (E.encode n v).reverse = E.flip.encode n v := by
  cases E <;> simp [encode]

lemma decode_encode (E : Endian) {n v : ℕ} (h : v < 256 ^ n) : E.decode (E.encode n v) = v := by
  cases E <;> simp [encode, decode, leVal_leBytes, Nat.mod_eq_of_lt h]

lemma decode_lt (E : Endian) (l : List Byte) : E.decode l < 256 ^ l.length := by
  cases E with
  | le => exact leVal_lt l
  | be => simpa [decode] using leVal_lt l.reverse

lemma encode_decode (E : Endian) (l : List Byte) : E.encode l.length (E.decode l) = l := by
  cases E with
  | le => exact leBytes_leVal l
  | be =>
      have h := leBytes_leVal l.reverse
      rw [List.length_reverse] at h
      rw [encode, decode, h, List.reverse_reverse]

/-- Bytes read as a word and written again. -/
lemma encode_ofNat_decode (E : Endian) {n w : ℕ} {l : List Byte} (hl : l.length = n)
    (hw : 2 ^ w = 256 ^ n) : E.encode n (BitVec.ofNat w (E.decode l)).toNat = l := by
  have hlt := E.decode_lt l
  rw [hl, ← hw] at hlt
  rw [BitVec.toNat_ofNat, Nat.mod_eq_of_lt hlt, ← hl, encode_decode]

/-- Decoding in one order and encoding in the other reverses the bytes. -/
lemma encode_flip_decode (E : Endian) (l : List Byte) :
    E.flip.encode l.length (E.decode l) = l.reverse := by
  rw [← encode_reverse, encode_decode]

lemma encode_injective (E : Endian) {n v v' : ℕ} (hv : v < 256 ^ n) (hv' : v' < 256 ^ n)
    (h : E.encode n v = E.encode n v') : v = v' := by
  rw [← E.decode_encode hv, h, E.decode_encode hv']

/-- A word is determined by its bytes. -/
lemma encode_toNat_injective (E : Endian) {n w : ℕ} {x y : BitVec w} (hw : 2 ^ w = 256 ^ n)
    (h : E.encode n x.toNat = E.encode n y.toNat) : x = y :=
  BitVec.eq_of_toNat_eq (E.encode_injective (hw ▸ x.isLt) (hw ▸ y.isLt) h)

end Endian

/-! ### C strings -/

/-- The content of a C string: it has no zero byte. -/
abbrev CStr := {l : List Byte // (0 : Byte) ∉ l}

/-- The number of bytes before the first zero, if there is one. -/
def cstrlen : List Byte → Option ℕ
  | [] => none
  | b :: l => if b = 0 then some 0 else (cstrlen l).map (· + 1)

lemma cstrlen_append {s : List Byte} (hs : (0 : Byte) ∉ s) (l : List Byte) :
    cstrlen (s ++ 0 :: l) = some s.length := by
  induction s with
  | nil => simp [cstrlen]
  | cons b s ih =>
      have hb : b ≠ 0 := fun h => hs (by simp [h])
      rw [List.cons_append, cstrlen, if_neg hb, ih fun h => hs (List.mem_cons_of_mem b h)]
      rfl

/-- The terminator says where a string ends. -/
lemma append_zero_inj {s s' l l' : List Byte} (hs : (0 : Byte) ∉ s) (hs' : (0 : Byte) ∉ s')
    (h : s ++ 0 :: l = s' ++ 0 :: l') : s = s' ∧ l = l' := by
  have hlen : s.length = s'.length := by
    have h1 := cstrlen_append hs l
    rw [h, cstrlen_append hs' l'] at h1
    exact (Option.some.inj h1).symm
  obtain ⟨h1, h2⟩ := List.append_inj h hlen
  exact ⟨h1, (List.cons.inj h2).2⟩

/-- A string that is found splits the bytes at its terminator. -/
lemma cstrlen_eq_some {l : List Byte} {n : ℕ} (h : cstrlen l = some n) :
    ∃ s t, l = s ++ 0 :: t ∧ (0 : Byte) ∉ s ∧ s.length = n := by
  induction l generalizing n with
  | nil => simp [cstrlen] at h
  | cons b l ih =>
      rw [cstrlen] at h
      split_ifs at h with hb
      · exact ⟨[], l, by simp [hb], by simp, by simpa using h⟩
      · obtain ⟨m, hm, rfl⟩ := Option.map_eq_some_iff.mp h
        obtain ⟨s, t, rfl, hs, rfl⟩ := ih hm
        refine ⟨b :: s, t, rfl, ?_, rfl⟩
        intro hmem
        rcases List.mem_cons.mp hmem with h0 | h0
        · exact hb h0.symm
        · exact hs h0

/-- The C strings that lie in a list of bytes one behind the other, without their terminators. -/
def cstrings : List Byte → List (List Byte)
  | [] => []
  | b :: l =>
    if b = 0 then [] :: cstrings l
    else
      match cstrings l with
      | [] => []
      | s :: t => (b :: s) :: t

lemma cstrings_append {s : List Byte} (hs : (0 : Byte) ∉ s) (l : List Byte) :
    cstrings (s ++ 0 :: l) = s :: cstrings l := by
  induction s with
  | nil => simp [cstrings]
  | cons b s ih =>
      have hb : b ≠ 0 := fun h => hs (by simp [h])
      rw [List.cons_append, cstrings, if_neg hb, ih fun h => hs (List.mem_cons_of_mem b h)]

/-- Strings one behind the other, each with its terminator. -/
def flat (strs : List CStr) : List Byte := strs.flatMap fun s => s.1 ++ [0]

@[simp] lemma flat_nil : flat [] = [] := rfl

lemma flat_append (strs : List CStr) (s : CStr) : flat (strs ++ [s]) = flat strs ++ (s.1 ++ [0]) := by
  simp [flat]

lemma cstrings_flat (strs : List CStr) (l : List Byte) :
    cstrings (flat strs ++ l) = strs.map (fun s => s.1) ++ cstrings l := by
  induction strs with
  | nil => rfl
  | cons s strs ih =>
      have hsplit : flat (s :: strs) ++ l = s.1 ++ 0 :: (flat strs ++ l) := by simp [flat]
      rw [hsplit, cstrings_append s.2, ih, List.map_cons, List.cons_append]

/-- Each string takes at least its terminator. -/
lemma cstrings_length_le (l : List Byte) : (cstrings l).length ≤ l.length := by
  induction l with
  | nil => exact le_rfl
  | cons b l ih =>
      rw [cstrings]
      split_ifs with hb
      · simpa using ih
      · cases hl : cstrings l with
        | nil => simp
        | cons s t =>
            rw [hl] at ih
            simp only [List.length_cons] at ih ⊢
            omega

/-- The strings with their terminators are no longer than the bytes. -/
lemma cstrings_sum_le (l : List Byte) : ((cstrings l).map fun s => s.length + 1).sum ≤ l.length := by
  induction l with
  | nil => exact le_rfl
  | cons b l ih =>
      rw [cstrings]
      split_ifs with hb
      · simp only [List.map_cons, List.sum_cons, List.length_nil, List.length_cons]
        omega
      · cases hl : cstrings l with
        | nil => simp
        | cons s t =>
            rw [hl] at ih
            simp only [List.map_cons, List.sum_cons, List.length_cons] at ih ⊢
            omega

/-- The first string splits the bytes at its terminator. -/
lemma cstrings_eq_cons {l s : List Byte} {t : List (List Byte)} (h : cstrings l = s :: t) :
    ∃ l', l = s ++ 0 :: l' ∧ (0 : Byte) ∉ s ∧ cstrings l' = t := by
  induction l generalizing s t with
  | nil => simp [cstrings] at h
  | cons b l ih =>
      rw [cstrings] at h
      split_ifs at h with hb
      · obtain ⟨rfl, rfl⟩ := List.cons.inj h
        exact ⟨l, by simp [hb], by simp, rfl⟩
      · cases hl : cstrings l with
        | nil => rw [hl] at h; simp at h
        | cons u v =>
            rw [hl] at h
            obtain ⟨rfl, rfl⟩ := List.cons.inj h
            obtain ⟨l', rfl, hu, hv⟩ := ih hl
            refine ⟨l', rfl, ?_, hv⟩
            intro hmem
            rcases List.mem_cons.mp hmem with h0 | h0
            · exact hb h0.symm
            · exact hu h0

/-- Bytes that differ at the positions `S` only. -/
structure AgreeOutside (S : Set ℕ) (l l' : List Byte) : Prop where
  length : l.length = l'.length
  get : ∀ i, i ∉ S → l[i]? = l'[i]?

namespace AgreeOutside

variable {S T : Set ℕ} {l l' r r' : List Byte}

lemma refl (S : Set ℕ) (l : List Byte) : AgreeOutside S l l := ⟨rfl, fun _ _ => rfl⟩

lemma mono (h : AgreeOutside S l l') (hST : S ⊆ T) : AgreeOutside T l l' :=
  ⟨h.length, fun i hi => h.get i fun hS => hi (hST hS)⟩

/-- Any bytes at all, if all their positions are in the set. -/
lemma of_length (hlen : l.length = l'.length) (h : ∀ i < l.length, i ∈ S) : AgreeOutside S l l' := by
  refine ⟨hlen, fun i hi => ?_⟩
  have hle : l.length ≤ i := not_lt.mp fun hlt => hi (h i hlt)
  rw [List.getElem?_eq_none hle, List.getElem?_eq_none (hlen ▸ hle)]

/-- One part behind the other. -/
lemma append (h : AgreeOutside S l l') (hr : AgreeOutside {i | l.length + i ∈ S} r r') :
    AgreeOutside S (l ++ r) (l' ++ r') := by
  refine ⟨by rw [List.length_append, List.length_append, h.length, hr.length], fun i hi => ?_⟩
  rcases lt_or_ge i l.length with hlt | hge
  · rw [List.getElem?_append_left hlt, List.getElem?_append_left (h.length ▸ hlt)]
    exact h.get i hi
  · rw [List.getElem?_append_right hge, List.getElem?_append_right (h.length ▸ hge), ← h.length]
    refine hr.get _ fun hmem => hi ?_
    rwa [Set.mem_ofPred_eq, Nat.add_sub_cancel' hge] at hmem

end AgreeOutside

/-- The bytes of a list around a position. -/
lemma exists_append {l : List Byte} {n : ℕ} (h : n ≤ l.length) :
    ∃ x y, l = x ++ y ∧ x.length = n :=
  ⟨l.take n, l.drop n, (List.take_append_drop n l).symm, by rw [List.length_take]; omega⟩

/-! ### Alignment -/

/-- The number of bytes from `x` to the next multiple of `k`. -/
def pad (k x : ℕ) : ℕ := (k - x % k) % k

lemma pad_lt {k : ℕ} (hk : 0 < k) (x : ℕ) : pad k x < k := Nat.mod_lt _ hk

lemma pad_add_of_dvd {k a : ℕ} (h : k ∣ a) (x : ℕ) : pad k (a + x) = pad k x := by
  obtain ⟨c, rfl⟩ := h
  rw [pad, pad, Nat.mul_add_mod]

lemma dvd_add_pad {k : ℕ} (x : ℕ) (hk : 0 < k) : k ∣ x + pad k x := by
  have hx : x % k < k := Nat.mod_lt x hk
  have h1 : k ∣ x % k + pad k x := by
    rw [pad]
    rcases Nat.eq_zero_or_pos (x % k) with h0 | h0
    · simp [h0]
    · rw [Nat.mod_eq_of_lt (show k - x % k < k by omega)]
      exact ⟨1, by omega⟩
  have h2 : x + pad k x = k * (x / k) + (x % k + pad k x) := by
    have := Nat.div_add_mod x k
    omega
  rw [h2]
  exact dvd_add (Dvd.intro _ rfl) h1

/-- The next multiple is the least one that is not below. -/
lemma isLeast_add_pad {k : ℕ} (hk : 0 < k) (x : ℕ) : IsLeast {m | k ∣ m ∧ x ≤ m} (x + pad k x) := by
  refine ⟨⟨dvd_add_pad x hk, Nat.le_add_right ..⟩, ?_⟩
  rintro m ⟨hdvd, hle⟩
  by_contra hlt
  -- two multiples that are less than `k` apart
  have hgap : k ∣ x + pad k x - m := Nat.dvd_sub (dvd_add_pad x hk) hdvd
  have hpad := pad_lt hk x
  have := Nat.le_of_dvd (by omega) hgap
  omega

end CMem
