import Mathlib.Data.Nat.Digits.Defs
import Mathlib.Data.Nat.Digits.Lemmas
import Mathlib.Tactic
import EverythingNet.Lib.Bytes

/-!
Numerals: numbers as characters, in any base up to 36.

* `digitsOf b v`: the digits of `v` from the least one on, at least one. `digitsOf_step` is how a
  division by the base takes one off, `length_digitsOf_le` how many there are.
* `numeral`: the characters of a number, its most significant digit first. `valueOf` reads them;
  `valueOf_numeral` and `valueOf_zeros` are the round trip.
* `isDigit_of_mem_numeral`: the characters of a decimal numeral.
-/

namespace Numeral

open CMem

/-- The digits of a number, the least significant first. -/
def digitsOf (b v : ℕ) : List ℕ := if v = 0 then [0] else Nat.digits b v

/-- The character of a digit. -/
def digitChar (upper : Bool) (d : ℕ) : Byte :=
  BitVec.ofNat 8 (if d < 10 then 48 + d else (if upper then 65 else 97) + d - 10)

/-- The digit of a character, in either case. -/
def charDigit (c : Byte) : ℕ :=
  if c.toNat < 58 then c.toNat - 48 else if c.toNat < 91 then c.toNat - 55 else c.toNat - 87

/-- A number in the base `b`. -/
def numeral (b : ℕ) (upper : Bool) (v : ℕ) : List Byte :=
  ((digitsOf b v).map (digitChar upper)).reverse

/-- The number that the characters stand for. -/
def valueOf (b : ℕ) (l : List Byte) : ℕ := l.foldl (fun v c => v * b + charDigit c) 0

section

variable {b v d n : ℕ} {upper : Bool} {l l' : List Byte}

/-! ### Digits -/

lemma digitsOf_ne_nil (b v : ℕ) : digitsOf b v ≠ [] := by
  rw [digitsOf]
  split_ifs with h
  · exact List.cons_ne_nil _ _
  · exact Nat.digits_ne_nil_iff_ne_zero.mpr h

lemma length_digitsOf_pos (b v : ℕ) : 0 < (digitsOf b v).length :=
  List.length_pos_iff.mpr (digitsOf_ne_nil b v)

/-- The last digit is the remainder, the others are those of the quotient. -/
lemma digitsOf_step (hb : 2 ≤ b) (v : ℕ) :
    digitsOf b v = v % b :: if v / b = 0 then [] else digitsOf b (v / b) := by
  by_cases hv : v = 0
  · rw [hv, digitsOf, if_pos rfl, Nat.zero_mod, Nat.zero_div, if_pos rfl]
  · rw [digitsOf, if_neg hv, Nat.digits_def' (by omega) (by omega), digitsOf]
    by_cases hq : v / b = 0
    · rw [if_pos hq, hq, Nat.digits_zero]
    · rw [if_neg hq, if_neg hq]

lemma digitsOf_lt (hb : 2 ≤ b) (hd : d ∈ digitsOf b v) : d < b := by
  rw [digitsOf] at hd
  split_ifs at hd
  · rw [List.mem_singleton.mp hd]
    omega
  · exact Nat.digits_lt_base (by omega) hd

lemma ofDigits_digitsOf (b v : ℕ) : Nat.ofDigits b (digitsOf b v) = v := by
  rw [digitsOf]
  split_ifs with h
  · simp [h]
  · exact Nat.ofDigits_digits b v

lemma length_digitsOf_le (hb : 2 ≤ b) (hn : 0 < n) : (digitsOf b v).length ≤ n ↔ v < b ^ n := by
  rw [digitsOf]
  split_ifs with h
  · have hpos : 0 < b ^ n := Nat.pow_pos (by omega)
    rw [h, List.length_singleton]
    omega
  · exact Nat.digits_length_le_iff (by omega) v

/-- The last digits are those of the remainder. -/
lemma ofDigits_take (hb : 2 ≤ b) (v n : ℕ) :
    Nat.ofDigits b ((digitsOf b v).take n) = v % b ^ n := by
  conv_rhs => rw [← ofDigits_digitsOf b v]
  exact (Nat.ofDigits_mod_pow_eq_ofDigits_take n (by omega) _ fun d hd => digitsOf_lt hb hd).symm

/-! ### Characters -/

lemma toNat_digitChar (hd : d < 36) :
    (digitChar upper d).toNat = if d < 10 then 48 + d else (if upper then 65 else 97) + d - 10 := by
  rw [digitChar, BitVec.toNat_ofNat, Nat.mod_eq_of_lt]
  split_ifs <;> omega

lemma charDigit_digitChar (hd : d < 36) : charDigit (digitChar upper d) = d := by
  rw [charDigit, toNat_digitChar hd]
  cases upper <;> grind

lemma digitChar_ne_zero (hd : d < 36) : digitChar upper d ≠ 0 := by
  intro h
  have hval := congrArg BitVec.toNat h
  rw [toNat_digitChar hd] at hval
  change _ = 0 at hval
  cases upper <;> grind

/-! ### Values -/

lemma foldl_valueOf (l : List Byte) (v : ℕ) :
    l.foldl (fun v c => v * b + charDigit c) v = v * b ^ l.length + valueOf b l := by
  induction l generalizing v with
  | nil => simp [valueOf]
  | cons c l ih =>
      rw [valueOf, List.foldl_cons, List.foldl_cons, ih, ih (0 * b + charDigit c), List.length_cons]
      ring

lemma valueOf_append : valueOf b (l ++ l') = valueOf b l * b ^ l'.length + valueOf b l' := by
  rw [valueOf, List.foldl_append, ← valueOf, foldl_valueOf]

lemma valueOf_cons (c : Byte) (l : List Byte) :
    valueOf b (c :: l) = charDigit c * b ^ l.length + valueOf b l := by
  rw [valueOf, List.foldl_cons, foldl_valueOf, Nat.zero_mul, Nat.zero_add]

/-- Digits that come least significant first. -/
lemma valueOf_reverse (hb : b ≤ 36) {ds : List ℕ} (hds : ∀ d ∈ ds, d < b) :
    valueOf b (ds.map (digitChar upper)).reverse = Nat.ofDigits b ds := by
  induction ds with
  | nil => rfl
  | cons d ds ih =>
      have hd : d < 36 := (hds d (List.mem_cons_self ..)).trans_le hb
      rw [List.map_cons, List.reverse_cons, valueOf_append,
        ih fun d' hd' => hds d' (List.mem_cons_of_mem _ hd'), valueOf_cons, charDigit_digitChar hd,
        Nat.ofDigits_cons]
      simp only [List.length_nil, List.length_singleton, valueOf, List.foldl_nil]
      ring

/-- A numeral is read as what it was written for. -/
lemma valueOf_numeral (hb : 2 ≤ b) (hb' : b ≤ 36) : valueOf b (numeral b upper v) = v := by
  rw [numeral, valueOf_reverse hb' fun d hd => digitsOf_lt hb hd, ofDigits_digitsOf]

/-- Zeros before a numeral do not matter. -/
lemma valueOf_zeros (k : ℕ) : valueOf b (List.replicate k 48 ++ l) = valueOf b l := by
  have hzero : ∀ k, valueOf b (List.replicate k (48 : Byte)) = 0 := by
    intro k
    induction k with
    | zero => rfl
    | succ k ih => rw [List.replicate_succ, valueOf_cons, ih]; simp [charDigit]
  rw [valueOf_append, hzero, Nat.zero_mul, Nat.zero_add]

lemma numeral_length_pos (b : ℕ) (upper : Bool) (v : ℕ) : 0 < (numeral b upper v).length := by
  rw [numeral, List.length_reverse, List.length_map]
  exact length_digitsOf_pos b v

lemma numeral_length_le (hb : 2 ≤ b) (hn : 0 < n) :
    (numeral b upper v).length ≤ n ↔ v < b ^ n := by
  rw [numeral, List.length_reverse, List.length_map, length_digitsOf_le hb hn]

/-- A numeral has no zero byte in it. -/
lemma numeral_noZero (hb : 2 ≤ b) (hb' : b ≤ 36) : (0 : Byte) ∉ numeral b upper v := by
  intro h
  rw [numeral, List.mem_reverse] at h
  obtain ⟨d, hd, heq⟩ := List.mem_map.mp h
  exact digitChar_ne_zero ((digitsOf_lt hb hd).trans_le hb') heq

/-- A numeral of a number other than zero does not start with a zero. -/
lemma exists_numeral_eq_cons (hb : 2 ≤ b) (hv : v ≠ 0) :
    ∃ d l, numeral b upper v = digitChar upper d :: l ∧ 0 < d ∧ d < b := by
  have hne : Nat.digits b v ≠ [] := Nat.digits_ne_nil_iff_ne_zero.mpr hv
  refine ⟨(Nat.digits b v).getLast hne, ((Nat.digits b v).dropLast.map (digitChar upper)).reverse,
    ?_, Nat.pos_of_ne_zero (Nat.getLast_digit_ne_zero b hv),
    Nat.digits_lt_base (by omega) (List.getLast_mem hne)⟩
  rw [numeral, digitsOf, if_neg hv]
  conv_lhs => rw [← List.dropLast_append_getLast hne]
  simp

/-- All characters of a decimal numeral are decimal digits. -/
lemma isDigit_of_mem_numeral {c : Byte} (hc : c ∈ numeral 10 upper v) :
    48 ≤ c.toNat ∧ c.toNat ≤ 57 := by
  rw [numeral, List.mem_reverse] at hc
  obtain ⟨d, hd, rfl⟩ := List.mem_map.mp hc
  have hlt := digitsOf_lt (by norm_num) hd
  rw [toNat_digitChar (by omega), if_pos hlt]
  omega

end

end Numeral
