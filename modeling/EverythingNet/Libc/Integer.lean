import Mathlib.Tactic
import EverythingNet.Lib.IntegerForm
import EverythingNet.Libc.Directive

/-!
The conversions of integers against those of the C language.

* `IntegerConversion`, `IntegerSize`: the conversions and types that the language has, with
  `IntegerConversion.form` its reading of a directive.
* `Follows`: the flags of the code are those of a form. `settings_integer`, `integerFlags_follows`:
  that is so of every directive. `integerArg_converted`: the code takes the number of the language.
* `HasRoom`: the digits, zeros and the sign fit the 32 characters of the buffer. `ntoaText_layout_iff`:
  when the code puts out what the language defines. `integer_layout_iff` is this for the directive in a
  format.
-/

namespace EverythingNet.Printf

open CMem Numeral

/-! ### The directives of the language -/

/-- The conversions of integers. -/
inductive IntegerConversion where
  | d
  | i
  | u
  | x
  | X
  | o
  deriving DecidableEq

/-- The types of integers, by their modifiers. -/
inductive IntegerSize where
  | hh
  | h
  | int
  | l
  | ll
  deriving DecidableEq

namespace IntegerSize

variable {D : DataModel} {R : Reals}

def modifier : IntegerSize → Option Modifier
  | hh => some .hh
  | h => some .h
  | int => none
  | l => some .l
  | ll => some .ll

/-- The width of the type. -/
def bits (D : DataModel) : IntegerSize → ℕ
  | hh => 8
  | h => 16
  | int => 32
  | l => D.long.bits
  | ll => 64

/-- The width of an argument of the type, which is an `int` at least. -/
def passed (D : DataModel) : IntegerSize → ℕ
  | l => D.long.bits
  | ll => 64
  | _ => 32

/-- An argument of the type. -/
def arg : (s : IntegerSize) → BitVec (s.passed D) → Arg D R
  | hh, v => .int v
  | h, v => .int v
  | int, v => .int v
  | l, v => .long v
  | ll, v => .longLong v

/-- Whether the signed conversions take a number of the type as a signed one. -/
def charSigned (D : DataModel) : IntegerSize → Bool
  | hh => D.charSigned
  | _ => true

end IntegerSize

namespace IntegerConversion

def char : IntegerConversion → Byte
  | d => ch 'd'
  | i => ch 'i'
  | u => ch 'u'
  | x => ch 'x'
  | X => ch 'X'
  | o => ch 'o'

def signed (c : IntegerConversion) : Bool := c = d ∨ c = i

def base : IntegerConversion → ℕ
  | x => 16
  | X => 16
  | o => 8
  | _ => 10

/-- A directive with a width and a precision that are written in the format. -/
def directive (c : IntegerConversion) (s : IntegerSize) (fs : List FlagChar) (width : Option ℕ)
    (precision : Option (Option ℕ)) : Directive :=
  ⟨fs, width.map .number, precision.map (Option.map .number), s.modifier, c.char⟩

/-- What the language reads in it: a dot alone is the precision zero. -/
def form (c : IntegerConversion) (fs : List FlagChar) (width : Option ℕ)
    (precision : Option (Option ℕ)) : IntegerForm where
  signed := c.signed
  base := c.base
  upper := c = X
  minus := fs.contains .minus
  zero := fs.contains .zero
  plus := fs.contains .plus
  space := fs.contains .space
  width := width.getD 0
  precision := precision.map (Option.getD · 0)

lemma base_cases (c : IntegerConversion) : c.base = 8 ∨ c.base = 10 ∨ c.base = 16 := by
  cases c <;> simp [base]

lemma isInteger_char (c : IntegerConversion) : isInteger c.char := by
  cases c <;> decide

lemma isSigned_char (c : IntegerConversion) : isSigned c.char ↔ c.signed = true := by
  cases c <;> decide

lemma baseOf_char (c : IntegerConversion) : baseOf c.char = c.base := by
  cases c <;> rfl

lemma char_eq_X (c : IntegerConversion) : c.char = ch 'X' ↔ c = X := by
  cases c <;> decide

end IntegerConversion

/-! ### What the code reads -/

/-- The flags and the precision of the code are those of a form. -/
structure Follows (flags : Flags) (prec : ℕ) (f : IntegerForm) : Prop where
  hash : flags.hash = false
  upper : flags.uppercase = f.upper
  left : flags.left = f.minus
  zeropad : flags.zeropad = (f.zero && f.precision.isNone)
  plus : flags.plus = (f.signed && f.plus)
  space : flags.space = (f.signed && f.space)
  precision : flags.precision = f.precision.isSome
  prec_eq : prec = f.precision.getD 0

section

variable {D : DataModel} {R : Reals} {c : IntegerConversion} {s : IntegerSize} {fs : List FlagChar}
  {width : Option ℕ} {precision : Option (Option ℕ)} {flags : Flags} {prec : ℕ} {f : IntegerForm}
  {z : ℤ}

/-- Every flag that stands in a directive is set, and no other. -/
lemma foldl_set (fs : List FlagChar) :
    ∀ flags : Flags, fs.foldl FlagChar.set flags = { flags with
      zeropad := flags.zeropad || fs.contains .zero
      left := flags.left || fs.contains .minus
      plus := flags.plus || fs.contains .plus
      space := flags.space || fs.contains .space
      hash := flags.hash || fs.contains .hash } := by
  induction fs with
  | nil => intro flags; simp
  | cons a fs ih =>
      intro flags
      rw [List.foldl_cons, ih]
      cases a <;> simp [FlagChar.set]

/-- The flags of a directive before its modifier. -/
def givenFlags (fs : List FlagChar) (precision : Bool) : Flags where
  zeropad := fs.contains .zero
  left := fs.contains .minus
  plus := fs.contains .plus
  space := fs.contains .space
  hash := fs.contains .hash
  precision := precision

/-- The flags of a directive. -/
def sizedFlags (s : IntegerSize) (fs : List FlagChar) (precision : Bool) : Flags :=
  { givenFlags fs precision with
    char := s = .hh
    short := s = .hh ∨ s = .h
    long := s = .l ∨ s = .ll
    longLong := s = .ll }

lemma settings_integer (va : List (Arg D R)) :
    (c.directive s fs width precision).settings va
      = .ok (sizedFlags s fs precision.isSome, width.getD 0,
          (precision.map (Option.getD · 0)).getD 0, va) := by
  have hset : fs.foldl FlagChar.set {} = givenFlags fs false := by
    rw [foldl_set]
    simp [givenFlags]
  have hsize : ∀ flags : Flags, flags.char = false → flags.short = false → flags.long = false →
      flags.longLong = false → s.modifier.elim flags (Modifier.set D flags) = { flags with
        char := s = .hh
        short := s = .hh ∨ s = .h
        long := s = .l ∨ s = .ll
        longLong := s = .ll } := by
    rintro ⟨⟩ h1 h2 h3 h4
    cases s <;> simp_all [IntegerSize.modifier, Modifier.set]
  rw [Directive.settings, IntegerConversion.directive, hset]
  rcases width with _ | n <;> rcases precision with _ | _ | p <;>
    exact congrArg Except.ok (Prod.ext (hsize _ rfl rfl rfl rfl) rfl)

/-- What is left of the flags are those of the form. -/
lemma integerFlags_follows (hfs : .hash ∉ fs) :
    Follows (integerFlags c.char (sizedFlags s fs precision.isSome))
      ((precision.map (Option.getD · 0)).getD 0) (c.form fs width precision) := by
  have hhash : fs.contains .hash = false := by simpa using hfs
  have hsigned : ¬ isSigned c.char ↔ c.signed = false := by simp [c.isSigned_char]
  cases precision <;> constructor <;>
    simp only [integerFlags, sizedFlags, givenFlags, IntegerConversion.form, c.baseOf_char,
      c.char_eq_X, hsigned, hhash, Option.isSome_none, Option.isSome_some, Option.map_none,
      Option.map_some, Option.isNone_none, Option.isNone_some] <;>
    grind

/-- The negation wraps for the least number, to its magnitude. -/
lemma magnitude_toNat {w : ℕ} (v : BitVec w) : (magnitude v).toNat = v.toInt.natAbs := by
  have hlt := v.isLt
  have hneg : (0 - v).toNat = (2 ^ w - v.toNat) % 2 ^ w := by simp
  rw [magnitude]
  split_ifs with hpos
  · rw [BitVec.toInt_eq_toNat_cond] at hpos ⊢
    split_ifs at hpos ⊢ <;> omega
  · rw [hneg]
    rw [BitVec.toInt_eq_toNat_cond] at hpos ⊢
    split_ifs at hpos ⊢ with h
    · obtain h0 : v.toNat = 0 := by omega
      simp [h0]
    · rw [Nat.mod_eq_of_lt (by omega)]
      omega

lemma signedInt_toInt (flags : Flags) (v : U32) :
    (signedInt D flags v).toInt = if flags.char then converted D.charSigned 8 v
      else if flags.short then converted true 16 v else converted true 32 v := by
  have hwiden : ∀ x : BitVec 8, (x.setWidth 32).toInt = x.toNat := fun x => by
    have hlt := x.isLt
    rw [BitVec.toInt_eq_toNat_of_lt (by rw [BitVec.toNat_setWidth]; omega), BitVec.toNat_setWidth,
      Nat.mod_eq_of_lt (by omega)]
  simp only [signedInt, converted, if_true, BitVec.setWidth_eq]
  split_ifs
  · exact BitVec.toInt_signExtend_of_le (by norm_num)
  · exact hwiden _
  · exact BitVec.toInt_signExtend_of_le (by norm_num)
  · rfl

lemma unsignedInt_toNat (flags : Flags) (v : U32) :
    ((unsignedInt flags v).toNat : ℤ) = if flags.char then converted false 8 v
      else if flags.short then converted false 16 v else converted false 32 v := by
  have hwiden : ∀ {n : ℕ} (x : BitVec n), n ≤ 32 → (x.setWidth 32).toNat = x.toNat := fun x hn => by
    rw [BitVec.toNat_setWidth,
      Nat.mod_eq_of_lt (x.isLt.trans_le (Nat.pow_le_pow_right (by norm_num) hn))]
  simp only [unsignedInt, converted, Bool.false_eq_true, if_false, BitVec.setWidth_eq]
  split_ifs
  · rw [hwiden _ (by norm_num)]
  · rw [hwiden _ (by norm_num)]
  · rfl

/-- The number of which the code takes the magnitude and the sign. -/
lemma integerArg_eq {w : ℕ} {signed : Prop} [Decidable signed] {x y : BitVec w}
    (hz : (if signed then x.toInt else (y.toNat : ℤ)) = z) (va : List (Arg D R)) :
    (if signed then pure ((magnitude x).toNat, decide (x.toInt < 0), va)
      else pure (y.toNat, false, va) : Except Halt (ℕ × Bool × List (Arg D R)))
      = .ok (z.natAbs, decide (z < 0), va) := by
  subst hz
  split_ifs
  · rw [magnitude_toNat]
    rfl
  · simp

lemma integerArg_int {c : Byte} (hlong : flags.long = false) (hlongLong : flags.longLong = false)
    {v : U32} (hz : (if isSigned c then (signedInt D flags v).toInt
      else ((unsignedInt flags v).toNat : ℤ)) = z) (va : List (Arg D R)) :
    integerArg c flags (.int v :: va) = .ok (z.natAbs, decide (z < 0), va) := by
  rw [integerArg, if_neg (by simp [hlongLong]), if_neg (by simp [hlong]), vaInt, ok_bind]
  exact integerArg_eq hz va

lemma integerArg_long {c : Byte} (hlong : flags.long = true) (hlongLong : flags.longLong = false)
    {v : BitVec D.long.bits} (hz : (if isSigned c then v.toInt else (v.toNat : ℤ)) = z)
    (va : List (Arg D R)) :
    integerArg c flags (.long v :: va) = .ok (z.natAbs, decide (z < 0), va) := by
  rw [integerArg, if_neg (by simp [hlongLong]), if_pos hlong, vaLong, ok_bind]
  exact integerArg_eq hz va

lemma integerArg_longLong {c : Byte} (hlongLong : flags.longLong = true) {v : U64}
    (hz : (if isSigned c then v.toInt else (v.toNat : ℤ)) = z) (va : List (Arg D R)) :
    integerArg c flags (.longLong v :: va) = .ok (z.natAbs, decide (z < 0), va) := by
  rw [integerArg, if_pos hlongLong, vaLongLong, ok_bind]
  exact integerArg_eq hz va

/-- The number that the code takes: that of the language, or where `char` is unsigned that of an
`unsigned char`. -/
lemma integerArg_converted (p : Bool) (v : BitVec (s.passed D)) (va : List (Arg D R)) :
    integerArg c.char (integerFlags c.char (sizedFlags s fs p)) (s.arg v :: va)
      = .ok ((converted (c.signed && s.charSigned D) (s.bits D) v).natAbs,
          decide (converted (c.signed && s.charSigned D) (s.bits D) v < 0), va) := by
  have hsize : (integerFlags c.char (sizedFlags s fs p)).char = decide (s = .hh)
      ∧ (integerFlags c.char (sizedFlags s fs p)).short = decide (s = .hh ∨ s = .h)
      ∧ (integerFlags c.char (sizedFlags s fs p)).long = decide (s = .l ∨ s = .ll)
      ∧ (integerFlags c.char (sizedFlags s fs p)).longLong = decide (s = .ll) := by
    simp only [integerFlags]
    split_ifs <;> exact ⟨rfl, rfl, rfl, rfl⟩
  obtain ⟨hchar, hshort, hlong, hlongLong⟩ := hsize
  generalize integerFlags c.char (sizedFlags s fs p) = flags at *
  have hwhole : ∀ {w : ℕ} (x : BitVec w), (if isSigned c.char then x.toInt else (x.toNat : ℤ))
      = converted (c.signed && true) w x := by
    intro w x
    simp only [c.isSigned_char, converted, BitVec.setWidth_eq, Bool.and_true]
  have hint : ∀ x : U32, (if isSigned c.char then (signedInt D flags x).toInt
        else ((unsignedInt flags x).toNat : ℤ))
      = if flags.char then converted (c.signed && D.charSigned) 8 x
        else if flags.short then converted (c.signed && true) 16 x
        else converted (c.signed && true) 32 x := by
    intro x
    rw [signedInt_toInt, unsignedInt_toNat]
    cases hc : c.signed <;> simp [c.isSigned_char, hc]
  cases s with
  | hh =>
      refine integerArg_int (by simp [hlong]) (by simp [hlongLong]) ((hint v).trans ?_) va
      rw [if_pos (by simp [hchar])]
      rfl
  | h =>
      refine integerArg_int (by simp [hlong]) (by simp [hlongLong]) ((hint v).trans ?_) va
      rw [if_neg (by simp [hchar]), if_pos (by simp [hshort])]
      rfl
  | int =>
      refine integerArg_int (by simp [hlong]) (by simp [hlongLong]) ((hint v).trans ?_) va
      rw [if_neg (by simp [hchar]), if_neg (by simp [hshort])]
      rfl
  | l => exact integerArg_long (by simp [hlong]) (by simp [hlongLong]) (hwhole v) va
  | ll => exact integerArg_longLong (by simp [hlongLong]) (hwhole v) va
/-! ### What the code puts out -/

lemma numeral_zero (base : ℕ) (upper : Bool) : numeral base upper 0 = [ch '0'] := by
  rw [numeral, digitsOf, if_pos rfl]
  rfl

lemma Follows.sign (h : Follows flags prec f) (hz : f.signed = false → 0 ≤ z) :
    signText (decide (z < 0)) flags = f.sign z := by
  rw [signText, IntegerForm.sign, h.plus, h.space]
  cases hs : f.signed with
  | false =>
      have hpos := hz hs
      simp [hpos]
  | true =>
      by_cases hneg : z < 0 <;> simp [hneg] <;> rfl

/-- The digits of the language are those of the code with the zeros of the precision. -/
lemma Follows.digits (h : Follows flags prec f)
    (hlen : (numeral f.base f.upper z.natAbs).length ≤ 32) :
    f.digits z = List.replicate (prec - (writtenDigits z.natAbs f.base flags).length) (ch '0')
      ++ (writtenDigits z.natAbs f.base flags).reverse := by
  rw [← h.upper] at hlen
  have hrev := writtenDigits_reverse hlen
  have hwlen := congrArg List.length hrev
  have hpos := numeral_length_pos f.base f.upper z.natAbs
  rw [List.length_reverse] at hwlen
  rw [hwlen, hrev, h.precision, h.upper, h.prec_eq, IntegerForm.digits]
  cases hp : f.precision with
  | none =>
      simp only [reduceCtorEq, and_false, if_false, Option.getD_none, Option.isSome_none, 
        Bool.false_eq_true, false_and, Nat.zero_sub]
      rw [Nat.sub_eq_zero_of_le hpos]
      rfl
  | some p =>
      simp only [Option.some.injEq, Option.getD_some, Option.isSome_some, true_and, Int.natAbs_eq_zero]
      by_cases h0 : z = 0
      · rw [if_pos h0]
        rcases p with _ | k
        · rw [if_pos ⟨h0, rfl⟩]
          rfl
        · rw [if_neg (by simp), h0, Int.natAbs_zero, numeral_zero, List.append_nil, List.length_nil,
            List.length_singleton, Nat.sub_zero, Nat.add_sub_cancel, List.replicate_succ']
          rfl
      · rw [if_neg h0, if_neg (fun hh => h0 hh.1)]
        rfl

/-- The digits, the zeros of the precision and the sign have a place in the buffer. A precision before
padding on the right adds no zeros, and a sign that does not fit can only be made up for by padding. -/
def HasRoom (f : IntegerForm) (z : ℤ) : Prop :=
  if f.minus then
    ∀ p ∈ f.precision, p ≤ if z = 0 then 0 else (numeral f.base f.upper z.natAbs).length
  else if f.zero ∧ f.precision = none then f.width ≤ 32
  else (f.sign z).length + f.precision.getD 0 ≤ 32
    ∨ (f.sign z = [32] ∧ f.precision = some 32 ∧ 32 < f.width)

instance (f : IntegerForm) (z : ℤ) : Decidable (HasRoom f z) :=
  inferInstanceAs (Decidable (ite _ _ _))

lemma signed_length_le {buf : List Byte} (h : buf.length ≤ 32) (negative : Bool) (flags : Flags) :
    (signed buf negative flags).length ≤ 32 := by
  have hsign : (signText negative flags).length ≤ 1 := by
    rw [signText]
    split_ifs <;> simp
  rw [signed_eq, List.length_append]
  split_ifs
  · omega
  · simpa using h

section

variable (h : Follows flags prec f) (hz : f.signed = false → 0 ≤ z)
  (hlen : (writtenDigits z.natAbs f.base flags).length ≤ 22)

include h hz

/-- Padding on the left. -/
lemma Follows.text_right (hleft : f.minus = false) (hzero : ¬ (f.zero = true ∧ f.precision = none)) :
    ntoaText z.natAbs (decide (z < 0)) f.base prec f.width flags
      = List.replicate (f.width - ((if (zeros prec (writtenDigits z.natAbs f.base flags)).length < 32
            then f.sign z else []).length
          + (zeros prec (writtenDigits z.natAbs f.base flags)).length)) (ch ' ')
        ++ ((if (zeros prec (writtenDigits z.natAbs f.base flags)).length < 32 then f.sign z else [])
        ++ (List.replicate (min prec 32 - (writtenDigits z.natAbs f.base flags).length) (ch '0')
          ++ (writtenDigits z.natAbs f.base flags).reverse)) := by
  have hl : flags.left = false := h.left.trans hleft
  have hzp : flags.zeropad = false := by
    rw [h.zeropad]
    cases hp : f.precision <;> simp_all
  have hsigned : ∀ buf : List Byte, (signed buf (decide (z < 0)) flags).reverse
      = (if buf.length < 32 then f.sign z else []) ++ buf.reverse := by
    intro buf
    rw [signed_eq, List.reverse_append, ← h.sign hz]
    split_ifs
    · rw [signText_reverse]
    · rfl
  have hslen : ∀ buf : List Byte, (signed buf (decide (z < 0)) flags).length
      = (if buf.length < 32 then f.sign z else []).length + buf.length := by
    intro buf
    rw [← List.length_reverse, hsigned, List.length_append, List.length_reverse]
  rw [ntoaText, digitFlags_plain h.hash, filled_plain h.hash, if_neg (by simp [hzp]),
    if_pos (by simp [hl]), revText, innerWidth_plain (Or.inr hzp), hsigned, hslen, zeros_reverse,
    if_pos ⟨by simp [hl], by simp [hzp]⟩, if_neg (show ¬ flags.left = true by simp [hl]),
    List.append_nil]

include hlen

/-- Padding on the right. -/
lemma Follows.text_left (hleft : f.minus = true) :
    ntoaText z.natAbs (decide (z < 0)) f.base prec f.width flags
      = f.sign z ++ (writtenDigits z.natAbs f.base flags).reverse
        ++ List.replicate (f.width - ((f.sign z).length
          + (writtenDigits z.natAbs f.base flags).length)) (ch ' ') := by
  have hl : flags.left = true := h.left.trans hleft
  have hone := f.sign_length_le z
  have hroom : (writtenDigits z.natAbs f.base flags).length
      + (signText (decide (z < 0)) flags).length ≤ 32 := by
    rw [h.sign hz]
    omega
  rw [ntoaText, digitFlags_plain h.hash, filled_plain h.hash, if_neg (by simp [hl]),
    if_neg (by simp [hl]), revText, innerWidth_plain (Or.inl hl), signed_reverse hroom,
    signed_length hroom, if_neg (by simp [hl]), if_pos hl, h.sign hz, List.nil_append]

/-- Padding with zeros. -/
lemma Follows.text_zero (hleft : f.minus = false) (hzero : f.zero = true)
    (hprec : f.precision = none) (hwidth : f.width ≤ 32) :
    ntoaText z.natAbs (decide (z < 0)) f.base prec f.width flags
      = f.sign z ++ List.replicate (f.width - ((f.sign z).length
          + (writtenDigits z.natAbs f.base flags).length)) (ch '0')
        ++ (writtenDigits z.natAbs f.base flags).reverse := by
  have hl : flags.left = false := h.left.trans hleft
  have hzp : flags.zeropad = true := by rw [h.zeropad, hzero, hprec]; rfl
  have hp : prec = 0 := by rw [h.prec_eq, hprec]; rfl
  have hone := f.sign_length_le z
  have hnone : zeros 0 (writtenDigits z.natAbs f.base flags)
      = writtenDigits z.natAbs f.base flags := by simp [zeros]
  have hroom : (zeros (f.width - (f.sign z).length) (writtenDigits z.natAbs f.base flags)).length
      + (signText (decide (z < 0)) flags).length ≤ 32 := by
    rw [zeros_length (by omega), h.sign hz]
    omega
  rw [ntoaText, digitFlags_plain h.hash, filled_plain h.hash, if_pos ⟨by simp [hl], hzp⟩,
    if_pos (by simp [hl]), innerWidth_zeropad hl hzp, h.sign hz, hp, hnone, revText,
    signed_reverse hroom, zeros_reverse, h.sign hz, if_neg (by simp [hzp]), if_neg (by simp [hl]),
    List.nil_append, List.append_nil, List.append_assoc]
  congr 3
  omega

end

/-- Spaces before a sign are as many as without it only if the sign is one of them. -/
lemma replicate_sub_eq {n : ℕ} {sign : List Byte} (hsign : sign.length = 1) (c : Byte) :
    List.replicate (n - 32) c = List.replicate (n - 33) c ++ sign ↔ sign = [c] ∧ 32 < n := by
  constructor
  · intro heq
    have hlen := congrArg List.length heq
    rw [List.length_append, List.length_replicate, List.length_replicate, hsign] at hlen
    obtain ⟨x, rfl⟩ := List.length_eq_one_iff.mp hsign
    have hx : x ∈ List.replicate (n - 32) c := by simp [heq]
    rw [(List.mem_replicate.mp hx).2]
    exact ⟨rfl, by omega⟩
  · rintro ⟨rfl, hn⟩
    rw [← List.replicate_succ']
    congr 1
    omega

lemma count_zero_spaces (n : ℕ) : (List.replicate n (ch ' ')).count (ch '0') = 0 := by
  rw [List.count_replicate, if_neg (by decide)]

section

variable (h : Follows flags prec f) (hz : f.signed = false → 0 ≤ z)
  (hlen : (writtenDigits z.natAbs f.base flags).length ≤ 22)
  (hdigits : f.digits z
    = List.replicate (prec - (writtenDigits z.natAbs f.base flags).length) (ch '0')
      ++ (writtenDigits z.natAbs f.base flags).reverse)

include h hz hlen hdigits

/-- The zeros of a precision are left out before padding on the right. -/
lemma Follows.left_iff (hleft : f.minus = true) :
    ntoaText z.natAbs (decide (z < 0)) f.base prec f.width flags = f.layout z
      ↔ prec ≤ (writtenDigits z.natAbs f.base flags).length := by
  have htext := h.text_left hz hlen hleft
  constructor
  · intro heq
    have hcount : (f.layout z).count (ch '0') = (f.digits z).count (ch '0') :=
      f.count_zero_layout z (Or.inl hleft)
    have hsign : (f.sign z).count (ch '0') = 0 := f.count_zero_sign z
    rw [← heq, htext, hdigits] at hcount
    simp only [List.count_append, count_zero_spaces, hsign, List.count_replicate_self] at hcount
    omega
  · intro hle
    rw [htext, IntegerForm.layout, if_pos hleft, hdigits, Nat.sub_eq_zero_of_le hle,
      List.replicate_zero, List.nil_append, List.length_reverse]
    rfl

/-- Zeros up to the width are put into the buffer, as far as it goes. -/
lemma Follows.zero_iff (hleft : f.minus = false) (hzero : f.zero = true)
    (hprec : f.precision = none) :
    ntoaText z.natAbs (decide (z < 0)) f.base prec f.width flags = f.layout z ↔ f.width ≤ 32 := by
  have hl : flags.left = false := h.left.trans hleft
  have hzp : flags.zeropad = true := by
    rw [h.zeropad, hzero, hprec]
    rfl
  have hp : prec = 0 := by
    rw [h.prec_eq, hprec]
    rfl
  constructor
  · intro heq
    have hlong := congrArg List.length heq
    have hbuf : ∀ n, (zeros n (writtenDigits z.natAbs f.base flags)).length ≤ 32 := fun n => by
      rw [zeros_length (by omega)]
      omega
    have hnone : zeros 0 (writtenDigits z.natAbs f.base flags)
        = writtenDigits z.natAbs f.base flags := by simp [zeros]
    have hbound := signed_length_le (hbuf (innerWidth (decide (z < 0)) f.width flags))
      (decide (z < 0)) flags
    rw [f.layout_length, ntoaText, digitFlags_plain h.hash, filled_plain h.hash,
      if_pos ⟨by simp [hl], hzp⟩, if_pos (by simp [hl]), hp, hnone, revText_length,
      if_pos ⟨by simp [hl], hzp⟩] at hlong
    omega
  · intro hwidth
    rw [h.text_zero hz hlen hleft hzero hprec hwidth, IntegerForm.layout, if_neg (by simp [hleft]),
      if_pos ⟨hzero, hprec⟩, hdigits, hp, Nat.zero_sub, List.replicate_zero, List.nil_append,
      List.length_reverse]
    rfl

/-- The zeros of a precision and the sign are put into the buffer, as far as it goes. -/
lemma Follows.right_iff (hleft : f.minus = false)
    (hzero : ¬ (f.zero = true ∧ f.precision = none)) :
    ntoaText z.natAbs (decide (z < 0)) f.base prec f.width flags = f.layout z
      ↔ (f.sign z).length + prec ≤ 32 ∨ (f.sign z = [32] ∧ prec = 32 ∧ 32 < f.width) := by
  have htext := h.text_right hz hleft hzero
  have hblen := zeros_length (n := prec)
    (show (writtenDigits z.natAbs f.base flags).length ≤ 32 by omega)
  have hone := f.sign_length_le z
  have hlayout : f.layout z = List.replicate (f.width - ((f.sign z).length
      + (f.digits z).length)) (ch ' ') ++ f.sign z ++ f.digits z := by
    rw [IntegerForm.layout, if_neg (by simp [hleft]), if_neg hzero]
    rfl
  have hdlen := congrArg List.length hdigits
  rw [List.length_append, List.length_replicate, List.length_reverse] at hdlen
  rcases Nat.lt_or_ge 32 ((f.sign z).length + prec) with hover | hroom
  · rcases Nat.lt_or_ge 32 prec with hlong | hshort
    · -- some of the zeros have no place
      refine iff_of_false (fun heq => ?_) (by omega)
      have hcount : (f.layout z).count (ch '0') = (f.digits z).count (ch '0') :=
        f.count_zero_layout z (Or.inr hzero)
      have hsign : (f.sign z).count (ch '0') = 0 := f.count_zero_sign z
      rw [← heq, htext, hdigits, if_neg (by omega)] at hcount
      simp only [List.count_append, count_zero_spaces, List.count_replicate_self,
        List.count_nil] at hcount
      omega
    · -- the sign has none
      have hprec : prec = 32 := by omega
      have hsign : (f.sign z).length = 1 := by omega
      rw [htext, hlayout, if_neg (by omega), hdlen, hdigits, hblen, hsign, hprec, Nat.min_self,
        List.nil_append, List.length_nil, List.append_left_inj,
        show f.width - (0 + max (writtenDigits z.natAbs f.base flags).length 32) = f.width - 32 by
          omega,
        show f.width - (1 + (32 - (writtenDigits z.natAbs f.base flags).length
          + (writtenDigits z.natAbs f.base flags).length)) = f.width - 33 by omega,
        replicate_sub_eq hsign]
      constructor
      · rintro ⟨hspace, hwidth⟩
        exact Or.inr ⟨hspace, rfl, hwidth⟩
      · rintro (hle | ⟨hspace, -, hwidth⟩)
        · omega
        · exact ⟨hspace, hwidth⟩
  · refine iff_of_true ?_ (Or.inl hroom)
    have hserved : (if (zeros prec (writtenDigits z.natAbs f.base flags)).length < 32 then f.sign z
        else []) = f.sign z := by
      split_ifs with hlt
      · rfl
      · exact (List.eq_nil_of_length_eq_zero (by omega)).symm
    rw [htext, hserved, hlayout, hblen, hdlen, hdigits, Nat.min_eq_left (by omega : prec ≤ 32),
      List.append_assoc]
    congr 2
    omega

end

/-- When the code puts out a number as the language defines it. -/
lemma ntoaText_layout_iff (h : Follows flags prec f) (hz : f.signed = false → 0 ≤ z)
    (hbase : 8 ≤ f.base) (hlt : z.natAbs < 2 ^ 64) :
    ntoaText z.natAbs (decide (z < 0)) f.base prec f.width flags = f.layout z ↔ HasRoom f z := by
  have hnum : (numeral f.base f.upper z.natAbs).length ≤ 22 := by
    have hpow : 8 ^ 22 ≤ f.base ^ 22 := Nat.pow_le_pow_left hbase 22
    exact (numeral_length_le (by omega) (by norm_num)).mpr (by omega)
  have hwlen : (writtenDigits z.natAbs f.base flags).length
      = if f.precision.isSome ∧ z = 0 then 0 else (numeral f.base f.upper z.natAbs).length := by
    rw [← List.length_reverse, writtenDigits_reverse (by rw [h.upper]; omega), h.upper, h.precision,
      apply_ite List.length]
    simp only [Int.natAbs_eq_zero, List.length_nil]
  have hlen : (writtenDigits z.natAbs f.base flags).length ≤ 22 := by
    rw [hwlen]
    split_ifs
    · exact Nat.zero_le _
    · exact hnum
  have hdigits := h.digits (z := z) (by omega)
  rw [HasRoom]
  by_cases hminus : f.minus = true
  · rw [if_pos hminus, h.left_iff hz hlen hdigits hminus, hwlen, h.prec_eq]
    cases f.precision with
    | none => simp
    | some p => simp
  · have hleft : f.minus = false := by simpa using hminus
    rw [if_neg hminus]
    by_cases hzero : f.zero = true ∧ f.precision = none
    · rw [if_pos hzero, h.zero_iff hz hlen hdigits hleft hzero.1 hzero.2]
    · rw [if_neg hzero, h.right_iff hz hlen hdigits hleft hzero, h.prec_eq]
      cases f.precision with
      | none => simp
      | some p => simp

/-- What the code puts out for a directive. -/
lemma pieceText_integer (v : BitVec (s.passed D)) (va : List (Arg D R)) :
    (Piece.directive (c.directive s fs width precision)).text (s.arg v :: va)
      = .ok (va, ntoaText (converted (c.signed && s.charSigned D) (s.bits D) v).natAbs
          (decide (converted (c.signed && s.charSigned D) (s.bits D) v < 0)) c.base
          ((precision.map (Option.getD · 0)).getD 0) (width.getD 0)
          (integerFlags c.char (sizedFlags s fs precision.isSome))) := by
  rw [Piece.text, settings_integer, ok_bind]
  dsimp only
  rw [show (c.directive s fs width precision).specifier = c.char from rfl, convertText,
    if_pos c.isInteger_char]
  dsimp only
  rw [integerArg_converted, ok_bind, c.baseOf_char]
  rfl

lemma IntegerSize.bits_le (D : DataModel) (s : IntegerSize) : 0 < s.bits D ∧ s.bits D ≤ 64 := by
  cases s <;> simp only [IntegerSize.bits] <;> first | omega | cases D.long <;> decide

/-- What a directive puts out for a number that the code takes as the language does. -/
lemma pieceText_layout_iff (c : IntegerConversion) (s : IntegerSize) {fs : List FlagChar}
    (width : Option ℕ) (precision : Option (Option ℕ)) (hfs : .hash ∉ fs)
    (v : BitVec (s.passed D)) (va : List (Arg D R)) :
    (Piece.directive (c.directive s fs width precision)).text (s.arg v :: va)
      = .ok (va, (c.form fs width precision).layout (converted c.signed (s.bits D) v))
      ↔ (s = .hh → c.signed = true → D.charSigned = false → 0 ≤ converted true 8 v)
        ∧ HasRoom (c.form fs width precision) (converted c.signed (s.bits D) v) := by
  have hfollows : Follows (integerFlags c.char (sizedFlags s fs precision.isSome))
      ((precision.map (Option.getD · 0)).getD 0) (c.form fs width precision) :=
    integerFlags_follows hfs
  have hbase : 8 ≤ c.base ∧ c.base ≤ 36 := by
    rcases c.base_cases with hb | hb | hb <;> omega
  have hiff : ∀ z : ℤ, (c.signed = false → 0 ≤ z) → z.natAbs < 2 ^ 64 →
      (ntoaText z.natAbs (decide (z < 0)) c.base ((precision.map (Option.getD · 0)).getD 0)
        (width.getD 0) (integerFlags c.char (sizedFlags s fs precision.isSome))
        = (c.form fs width precision).layout z ↔ HasRoom (c.form fs width precision) z) :=
    fun z hz hlt => by
      have h := ntoaText_layout_iff hfollows hz hbase.1 hlt
      exact h
  obtain ⟨hpos, hle⟩ := s.bits_le D
  have hlt := (natAbs_converted_lt c.signed hpos v).trans_le (Nat.pow_le_pow_right (by norm_num) hle)
  have hnonneg : c.signed = false → 0 ≤ converted c.signed (s.bits D) v := by
    intro hc
    rw [hc]
    exact converted_nonneg v
  rw [pieceText_integer, Except.ok.injEq, Prod.mk.injEq, and_iff_right rfl]
  by_cases hchar : s = .hh ∧ c.signed = true ∧ D.charSigned = false
  · obtain ⟨rfl, hsigned, hcharSigned⟩ := hchar
    have htaken : (c.signed && IntegerSize.hh.charSigned D) = false := by
      rw [hsigned]
      exact hcharSigned
    rw [htaken]
    rcases lt_or_ge (converted true 8 v) 0 with hneg | hge
    · -- the sign is missing
      refine iff_of_false (fun heq => ?_) fun h => absurd (h.1 rfl hsigned hcharSigned) (by omega)
      have hminus : ch '-' ∈ (c.form fs width precision).layout (converted c.signed 8 v) :=
        (c.form fs width precision).minus_mem_layout hsigned (by rw [hsigned]; exact hneg)
      have hnat := converted_nonneg (n := 8) v
      rw [show IntegerSize.hh.bits D = 8 from rfl] at heq
      rw [← heq] at hminus
      have hnegative := negative_of_minus_mem (by omega) hbase.2 hfollows.hash hminus
      exact absurd (of_decide_eq_true hnegative) (by omega)
    · have hsame : converted false (IntegerSize.hh.bits D) v
          = converted c.signed (IntegerSize.hh.bits D) v := by
        rw [hsigned]
        exact (converted_eq_of_nonneg hge).symm
      rw [hsame, hiff _ hnonneg hlt]
      exact ⟨fun h => ⟨fun _ _ _ => hge, h⟩, fun h => h.2⟩
  · have hsame : (c.signed && s.charSigned D) = c.signed := by
      cases hc : c.signed with
      | false => rfl
      | true =>
          cases s with
          | hh =>
              have hyes : D.charSigned = true := by
                by_contra hno
                exact hchar ⟨rfl, hc, by simpa using hno⟩
              exact hyes
          | _ => rfl
    rw [hsame, hiff _ hnonneg hlt]
    exact ⟨fun h => ⟨fun h1 h2 h3 => absurd ⟨h1, h2, h3⟩ hchar, h⟩, fun h => h.2⟩

/-- When a directive for an integer puts out what the language defines: if the number is not a
negative `signed char` where `char` is unsigned, and there is room for it in the buffer. The least
`int`, `long` and `long long` are negated beyond their type in the source, here with a wrap. -/
theorem integer_layout_iff (c : IntegerConversion) (s : IntegerSize) {fs : List FlagChar}
    (width : Option ℕ) (precision : Option (Option ℕ)) (hfs : .hash ∉ fs)
    (hd : (c.directive s fs width precision).Ok)
    (v : BitVec (s.passed D)) (va : List (Arg D R)) (rest : List Byte) :
    textOf (ch '%' :: ((c.directive s fs width precision).bytes ++ 0 :: rest)) (s.arg v :: va)
      = .ok ((c.form fs width precision).layout (converted c.signed (s.bits D) v))
      ↔ (s = .hh → c.signed = true → D.charSigned = false → 0 ≤ converted true 8 v)
        ∧ HasRoom (c.form fs width precision) (converted c.signed (s.bits D) v) := by
  have hps : ∀ p ∈ [Piece.directive (c.directive s fs width precision)], p.Ok :=
    List.forall_mem_singleton.mpr hd
  have htext := textOf_terminated hps rest (s.arg v :: va)
  rw [List.flatMap_singleton, Piece.bytes, List.cons_append, meaning] at htext
  rw [htext, ← pieceText_layout_iff c s width precision hfs v va]
  rw [pieceText_integer, ok_bind]
  simp [meaning, Except.map]

/-- `%+.3d` of -7, and `%-5.3d`, where the zeros are missing. -/
theorem integer_layout_iff_sample :
    textOf (chars "%+.3d" ++ [0]) [(.int (-7) : Arg lp64 noReals)] = .ok (chars "-007")
      ∧ textOf (chars "%-5.3d" ++ [0]) [(.int 7 : Arg lp64 noReals)] ≠ .ok (chars "007  ") := by
  have hplus : FlagChar.hash ∉ [FlagChar.plus] := by decide
  have hminus : FlagChar.hash ∉ [FlagChar.minus] := by decide
  constructor
  · exact (integer_layout_iff .d .int none (some (some 3)) hplus (by decide) (-7) [] []).mpr
      ⟨by simp, by decide⟩
  · intro h
    have hroom := ((integer_layout_iff .d .int (some 5) (some (some 3)) hminus (by decide)
      7 [] []).mp h).2
    exact absurd hroom (by decide)

end

end EverythingNet.Printf
