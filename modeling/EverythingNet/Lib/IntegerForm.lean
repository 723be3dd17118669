import Mathlib.Tactic
import EverythingNet.Lib.Numeral

/-!
Conversions of integers as the C language defines them.

* `converted`: the value of an argument in the type that it is converted to.
* `IntegerForm`: what a conversion specification says. `sign`, `digits`, `layout`: the characters for a
  number, the zeros of a precision among the digits.
* `layout_length`, `count_zero_layout`, `minus_mem_layout`: how many characters there are, how many
  zeros, and when a minus. `layout_unsigned`: a number without a sign and a precision.
-/

open CMem Numeral

/-- The value of an argument in a signed or unsigned type of `n` bits. -/
def converted (signed : Bool) (n : ℕ) {w : ℕ} (v : BitVec w) : ℤ :=
  if signed then (v.setWidth n).toInt else (v.setWidth n).toNat

lemma converted_nonneg {n w : ℕ} (v : BitVec w) : 0 ≤ converted false n v := by
  rw [converted, if_neg (by decide)]
  exact Int.natCast_nonneg _

/-- A number that is not negative is the same in both types. -/
lemma converted_eq_of_nonneg {n w : ℕ} {v : BitVec w} (h : 0 ≤ converted true n v) :
    converted true n v = converted false n v := by
  simp only [converted, if_true, Bool.false_eq_true, if_false] at h ⊢
  have hcases := (v.setWidth n).toInt_eq_toNat_cond
  have hlt := (v.setWidth n).isLt
  split_ifs at hcases <;> omega

lemma natAbs_converted_lt (signed : Bool) {n w : ℕ} (hn : 0 < n) (v : BitVec w) :
    (converted signed n v).natAbs < 2 ^ n := by
  rw [converted]
  split_ifs
  · have hlt := (v.setWidth n).isLt
    have hcases := (v.setWidth n).toInt_eq_toNat_cond
    have hpow : 2 ^ n = 2 * 2 ^ (n - 1) := by
      rw [← Nat.pow_succ', Nat.succ_eq_add_one, Nat.sub_add_cancel hn]
    split_ifs at hcases <;> omega
  · rw [Int.natAbs_natCast]
    exact (v.setWidth n).isLt

/-- A conversion of an integer: whether its type is signed, its base, the flags that are given, the
width and the precision. -/
structure IntegerForm where
  signed : Bool
  base : ℕ
  upper : Bool
  minus : Bool
  zero : Bool
  plus : Bool
  space : Bool
  width : ℕ
  precision : Option ℕ

namespace IntegerForm

variable (f : IntegerForm) (z : ℤ)

/-- `-`, `+` or a space, of a signed type only. -/
def sign : List Byte :=
  if ¬ f.signed then []
  else if z < 0 then [45] else if f.plus then [43] else if f.space then [32] else []

/-- The digits, at least as many as the precision says. Zero has none with the precision zero. -/
def digits : List Byte :=
  let bare := if z = 0 ∧ f.precision = some 0 then [] else numeral f.base f.upper z.natAbs
  List.replicate (f.precision.getD 1 - bare.length) 48 ++ bare

/-- The whole field: `0` is ignored where there is `-` or a precision. -/
def layout : List Byte :=
  let pad := f.width - ((f.sign z).length + (f.digits z).length)
  if f.minus then f.sign z ++ f.digits z ++ List.replicate pad 32
  else if f.zero ∧ f.precision = none then f.sign z ++ List.replicate pad 48 ++ f.digits z
  else List.replicate pad 32 ++ f.sign z ++ f.digits z

/-- A field is never narrower than its width. -/
lemma layout_length :
    (f.layout z).length = max f.width ((f.sign z).length + (f.digits z).length) := by
  rw [layout]
  split_ifs <;> (simp only [List.length_append, List.length_replicate]; omega)

lemma sign_length_le : (f.sign z).length ≤ 1 := by
  rw [sign]
  split_ifs <;> simp

lemma count_zero_sign : (f.sign z).count 48 = 0 := by
  rw [sign]
  split_ifs <;> decide

/-- Where a field is padded with spaces its zeros are those of the digits. -/
lemma count_zero_layout (h : f.minus = true ∨ ¬ (f.zero = true ∧ f.precision = none)) :
    (f.layout z).count 48 = (f.digits z).count 48 := by
  have hspaces : ∀ n, (List.replicate n (32 : Byte)).count 48 = 0 := fun n => by
    rw [List.count_replicate, if_neg (by decide)]
  rw [layout]
  split_ifs with hminus hzero
  · simp only [List.count_append, hspaces, f.count_zero_sign, Nat.zero_add, Nat.add_zero]
  · exact absurd hzero (h.resolve_left hminus)
  · simp only [List.count_append, hspaces, f.count_zero_sign, Nat.zero_add]

variable {f z}

/-- Without a precision the digits are those of the number. -/
lemma digits_of_none (h : f.precision = none) :
    f.digits z = numeral f.base f.upper z.natAbs := by
  have hpos := numeral_length_pos f.base f.upper z.natAbs
  rw [digits, if_neg (by simp [h]), h, Option.getD_none, Nat.sub_eq_zero_of_le hpos,
    List.replicate_zero, List.nil_append]

/-- A number without a sign behind its padding. -/
lemma layout_unsigned (hsigned : f.signed = false) (hminus : f.minus = false)
    (hprec : f.precision = none) :
    f.layout z = List.replicate (f.width - (numeral f.base f.upper z.natAbs).length)
        (if f.zero then 48 else 32) ++ numeral f.base f.upper z.natAbs := by
  have hsign : f.sign z = [] := if_pos (by simp [hsigned])
  rw [layout, hsign, digits_of_none hprec, if_neg (by simp [hminus]), List.length_nil, Nat.zero_add,
    List.nil_append, List.append_nil, hprec]
  cases f.zero <;> rfl

lemma minus_mem_layout (hsigned : f.signed = true) (hneg : z < 0) : 45 ∈ f.layout z := by
  have hsign : f.sign z = [45] := by
    rw [sign, if_neg (by simp [hsigned]), if_pos hneg]
  rw [layout]
  split_ifs <;> simp [hsign]

end IntegerForm
