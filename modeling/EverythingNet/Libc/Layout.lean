import Mathlib.Tactic
import EverythingNet.Libc.PrintfText

/-!
What the conversions of integers look like.

* `signText`, `writtenDigits_reverse`, `filled_plain`: the sign, the digits, and what is put into the
  buffer without `#`.
* `integer_value`: what is put out is a numeral, with the last 32 digits of the number, between padding.
  `negative_of_minus_mem`: a minus is put out for negative numbers only.
* `standardAlternative`: the form of `#`. `alternative_form_iff`: when the code puts out that one.
-/

namespace EverythingNet.Printf

open CMem Numeral

/-- The sign of a number. -/
def signText (negative : Bool) (flags : Flags) : List Byte :=
  if negative then [ch '-'] else if flags.plus then [ch '+']
  else if flags.space then [ch ' '] else []

section

variable {buf : List Byte} {base prec width value n : ℕ} {negative : Bool} {flags : Flags}

/-! ### Without `#` -/

lemma digitFlags_plain (h : flags.hash = false) : digitFlags value flags = flags := by
  rw [digitFlags]
  split_ifs
  · rw [← h]
  · rfl

/-- What is put into the buffer, the last character first. -/
lemma filled_plain (h : flags.hash = false) :
    filled buf negative base prec width flags
      = signed (if ¬ flags.left ∧ flags.zeropad then
          zeros (innerWidth negative width flags) (if ¬ flags.left then zeros prec buf else buf)
        else if ¬ flags.left then zeros prec buf else buf) negative flags := by
  simp [filled, h]

lemma signed_reverse (h : buf.length + (signText negative flags).length ≤ 32) :
    (signed buf negative flags).reverse = signText negative flags ++ buf.reverse := by
  rw [signText] at h ⊢
  rw [signed]
  split_ifs at h ⊢ with hneg hplus hspace
  · rw [cap, if_pos (by simp at h; omega)]
    simp
  · rw [cap, if_pos (by simp at h; omega)]
    simp
  · rw [cap, if_pos (by simp at h; omega)]
    simp
  · simp

lemma signed_length (h : buf.length + (signText negative flags).length ≤ 32) :
    (signed buf negative flags).length = (signText negative flags).length + buf.length := by
  have hrev := congrArg List.length (signed_reverse h)
  rwa [List.length_reverse, List.length_append, List.length_reverse] at hrev

lemma zeros_reverse (n : ℕ) (buf : List Byte) :
    (zeros n buf).reverse = List.replicate (min n 32 - buf.length) (ch '0') ++ buf.reverse := by
  rw [zeros, List.reverse_append, List.reverse_replicate]

/-- The sign takes a place of the width. -/
lemma innerWidth_zeropad (hleft : flags.left = false) (hzero : flags.zeropad = true) :
    innerWidth negative width flags = width - (signText negative flags).length := by
  rw [innerWidth, signText]
  cases negative <;> cases hplus : flags.plus <;> cases hspace : flags.space <;> grind

lemma innerWidth_plain (h : flags.left = true ∨ flags.zeropad = false) :
    innerWidth negative width flags = width := by
  rw [innerWidth, if_neg]
  rcases h with h | h <;> simp [h]

lemma writtenDigits_reverse (hlen : (numeral base flags.uppercase value).length ≤ 32) :
    (writtenDigits value base flags).reverse
      = if flags.precision ∧ value = 0 then [] else numeral base flags.uppercase value := by
  rw [numeral, List.length_reverse, List.length_map] at hlen
  rw [writtenDigits, lastDigits, List.take_of_length_le hlen, numeral]
  by_cases h : flags.precision = true ∧ value = 0
  · rw [if_pos h, if_neg (by simp [h.1, h.2]), List.reverse_nil]
  · rw [if_neg h, if_pos (by simpa [or_iff_not_imp_left] using h)]

/-! ### The value of what is put out -/

lemma signed_eq (buf : List Byte) (negative : Bool) (flags : Flags) :
    signed buf negative flags
      = buf ++ if buf.length < 32 then signText negative flags else [] := by
  rw [signed, signText]
  simp only [cap]
  split_ifs <;> simp

lemma signText_reverse (negative : Bool) (flags : Flags) :
    (signText negative flags).reverse = signText negative flags := by
  rw [signText]
  split_ifs <;> rfl

lemma mem_signText {c : Byte} (hc : c ∈ signText negative flags) :
    c = ch ' ' ∨ c = ch '+' ∨ c = ch '-' := by
  rw [signText] at hc
  split_ifs at hc <;> simp_all

lemma minus_mem_signText : ch '-' ∈ signText negative flags ↔ negative = true := by
  have hplus : ch '-' ≠ ch '+' := by decide
  have hspace : ch '-' ≠ ch ' ' := by decide
  rw [signText]
  split_ifs <;> simp_all

/-- The digits in the buffer are those of the number, or its last 32, and zeros. -/
lemma valueOf_written (hb : 2 ≤ base) (hb' : base ≤ 36) (k : ℕ) :
    valueOf base (List.replicate k (ch '0') ++ (writtenDigits value base flags).reverse)
      = value % base ^ 32 := by
  have hzeros := @valueOf_zeros base (writtenDigits value base flags).reverse k
  rw [show ch '0' = (48 : Byte) from rfl, hzeros, writtenDigits]
  split_ifs with h
  · rw [lastDigits, valueOf_reverse hb' fun d hd => digitsOf_lt hb (List.mem_of_mem_take hd),
      ofDigits_take hb]
  · rw [not_or, not_not] at h
    rw [not_not.mp h.2, Nat.zero_mod]
    rfl

lemma mem_written (hb : 2 ≤ base) {c : Byte} {k : ℕ}
    (hc : c ∈ List.replicate k (ch '0') ++ (writtenDigits value base flags).reverse) :
    ∃ d < base, c = digitChar flags.uppercase d := by
  rcases List.mem_append.mp hc with hc | hc
  · exact ⟨0, by omega, (List.mem_replicate.mp hc).2⟩
  · rw [List.mem_reverse, writtenDigits] at hc
    split_ifs at hc
    · obtain ⟨d, hd, rfl⟩ := List.mem_map.mp hc
      exact ⟨d, digitsOf_lt hb (List.mem_of_mem_take hd), rfl⟩
    · exact absurd hc List.not_mem_nil

lemma revText_eq (buf : List Byte) (width : ℕ) (flags : Flags) :
    ∃ a b, revText buf width flags
      = List.replicate a (ch ' ') ++ buf.reverse ++ List.replicate b (ch ' ') := by
  rw [revText]
  split_ifs
  · exact ⟨_, _, rfl⟩
  · exact ⟨_, 0, rfl⟩
  · exact ⟨0, _, rfl⟩
  · exact ⟨0, 0, rfl⟩

/-- The buffer before the sign: the digits and zeros. -/
lemma filled_eq (hhash : flags.hash = false) (buf : List Byte) :
    ∃ k, filled buf negative base prec width flags
      = signed (buf ++ List.replicate k (ch '0')) negative flags := by
  rw [filled_plain hhash]
  split_ifs with h1 h2
  · exact ⟨_, rfl⟩
  · obtain ⟨k, hk⟩ : ∃ k, zeros (innerWidth negative width flags) (zeros prec buf)
        = buf ++ List.replicate k (ch '0') := by
      refine ⟨min prec 32 - buf.length + (min (innerWidth negative width flags) 32
        - (zeros prec buf).length), ?_⟩
      rw [List.replicate_add, ← List.append_assoc]
      rfl
    exact ⟨k, by rw [hk]⟩
  · exact ⟨0, by simp⟩
  · exact ⟨_, rfl⟩

lemma digitChar_ne_minus {upper : Bool} {d : ℕ} (hd : d < 36) : digitChar upper d ≠ ch '-' := by
  intro heq
  have hval := congrArg BitVec.toNat heq
  rw [toNat_digitChar hd] at hval
  change _ = 45 at hval
  cases upper <;> grind

/-- A minus is put out for negative numbers only. -/
lemma negative_of_minus_mem (hb : 2 ≤ base) (hb' : base ≤ 36) (hhash : flags.hash = false)
    (h : ch '-' ∈ ntoaText value negative base prec width flags) : negative = true := by
  have hspace : ch '-' ≠ ch ' ' := by decide
  obtain ⟨k, hk⟩ := @filled_eq base prec width negative flags hhash
    (writtenDigits value base flags)
  obtain ⟨a, b, hab⟩ := revText_eq (filled (writtenDigits value base flags) negative base prec width
    flags) (innerWidth negative width flags) flags
  rw [ntoaText, digitFlags_plain hhash, hab, hk, signed_eq, List.reverse_append,
    List.reverse_append, List.reverse_replicate, List.mem_append, List.mem_append, List.mem_append,
    List.mem_replicate, List.mem_replicate] at h
  rcases h with (⟨-, h⟩ | h | h) | ⟨-, h⟩
  · exact absurd h hspace
  · rw [List.mem_reverse] at h
    split_ifs at h
    · exact minus_mem_signText.mp h
    · exact absurd h List.not_mem_nil
  · obtain ⟨d, hd, heq⟩ := mem_written hb h
    exact absurd heq.symm (digitChar_ne_minus (by omega))
  · exact absurd h hspace

/-- Whatever the width, the precision and the flags but `#`: what is put out for a number is a
numeral between its sign and padding, and has the value of the number, or in base 2 that of its last
32 digits. -/
theorem integer_value (hb : 2 ≤ base) (hb' : base ≤ 36) (hhash : flags.hash = false)
    (value prec width : ℕ) (negative : Bool) :
    ∃ front digits back,
      ntoaText value negative base prec width flags = front ++ digits ++ back
      ∧ (∀ c ∈ front, c = ch ' ' ∨ c = ch '+' ∨ c = ch '-') ∧ (∀ c ∈ back, c = ch ' ')
      ∧ (∀ c ∈ digits, ∃ d < base, c = digitChar flags.uppercase d)
      ∧ valueOf base digits = value % base ^ 32
      ∧ (ch '-' ∈ front ↔ negative = true ∧ digits.length < 32) := by
  obtain ⟨k, hk⟩ := @filled_eq base prec width negative flags hhash
    (writtenDigits value base flags)
  obtain ⟨a, b, hab⟩ := revText_eq (filled (writtenDigits value base flags) negative base prec width
    flags) (innerWidth negative width flags) flags
  have hreverse : (writtenDigits value base flags ++ List.replicate k (ch '0')).reverse
      = List.replicate k (ch '0') ++ (writtenDigits value base flags).reverse := by
    rw [List.reverse_append, List.reverse_replicate]
  have hlen := congrArg List.length hreverse
  rw [List.length_reverse] at hlen
  have hminus : ch '-' ≠ ch ' ' := by decide
  refine ⟨List.replicate a (ch ' ') ++ if (List.replicate k (ch '0')
      ++ (writtenDigits value base flags).reverse).length < 32 then signText negative flags else [],
    List.replicate k (ch '0') ++ (writtenDigits value base flags).reverse,
    List.replicate b (ch ' '), ?_, ?_, ?_, fun c hc => mem_written hb hc,
    valueOf_written hb hb' k, ?_⟩
  · rw [ntoaText, digitFlags_plain hhash, hab, hk, signed_eq, List.reverse_append, hreverse, hlen,
      apply_ite List.reverse, signText_reverse, List.reverse_nil]
    simp only [List.append_assoc]
  · intro c hc
    rcases List.mem_append.mp hc with hc | hc
    · exact Or.inl (List.mem_replicate.mp hc).2
    · split_ifs at hc
      · exact mem_signText hc
      · exact absurd hc List.not_mem_nil
  · exact fun c hc => (List.mem_replicate.mp hc).2
  · rw [List.mem_append, List.mem_replicate, or_iff_right fun h => hminus h.2]
    split_ifs with hroom
    · rw [minus_mem_signText, and_iff_left hroom]
    · exact ⟨fun h => absurd h List.not_mem_nil, fun h => absurd h.2 hroom⟩

theorem integer_value_sample :
    ∃ front digits back, ntoaText (2 ^ 40 + 5) false 2 0 0 {} = front ++ digits ++ back
      ∧ valueOf 2 digits = 5 := by
  have hhash : ({} : Flags).hash = false := rfl
  obtain ⟨front, digits, back, htext, -, -, -, hvalue, -⟩ := integer_value le_rfl (by norm_num)
    hhash (2 ^ 40 + 5) 0 0 false
  exact ⟨front, digits, back, htext, hvalue.trans (by norm_num)⟩

/-! ### With `#` -/

/-- What `#` puts before a number. -/
def alternative (base : ℕ) (upper : Bool) : List Byte :=
  if base = 16 then [ch '0', if upper then ch 'X' else ch 'x'] else [ch '0']

/-- The form of `#` as the language defines it. -/
def standardAlternative (base value width : ℕ) (flags : Flags) : List Byte :=
  let front := alternative base flags.uppercase
  let digits := numeral base flags.uppercase value
  let pad := width - (front.length + digits.length)
  if flags.left then front ++ digits ++ List.replicate pad (ch ' ')
  else if flags.zeropad then front ++ List.replicate pad (ch '0') ++ digits
  else List.replicate pad (ch ' ') ++ front ++ digits

/-- The flags of `%#o`, `%#x` and `%#X` without a precision. -/
structure Alternative (flags : Flags) : Prop where
  hash : flags.hash = true
  precision : flags.precision = false
  plus : flags.plus = false
  space : flags.space = false

lemma standardAlternative_length (base value width : ℕ) (flags : Flags) :
    (standardAlternative base value width flags).length
      = max width ((alternative base flags.uppercase).length
        + (numeral base flags.uppercase value).length) := by
  rw [standardAlternative]
  split_ifs <;> (simp only [List.length_append, List.length_replicate]; omega)

lemma revText_length (buf : List Byte) (width : ℕ) (flags : Flags) :
    (revText buf width flags).length
      = if ¬ flags.left ∧ flags.zeropad then buf.length else max width buf.length := by
  rw [revText]
  cases flags.left <;> cases flags.zeropad <;> simp <;> omega

lemma takenBack_keep (h : buf.length ≠ 0 → buf.length ≠ prec ∧ buf.length ≠ width) :
    takenBack buf base prec width flags = buf := by
  rw [takenBack, if_neg]
  rintro ⟨-, hne, hlen | hlen⟩
  · exact (h hne).1 hlen
  · exact (h hne).2 hlen

/-- As many digits are taken back as characters are to come. -/
lemma takenBack_strip (hbase : base = 8 ∨ base = 16) (hprec : flags.precision = false)
    (hne : buf.length ≠ 0) (hlen : buf.length = width) :
    takenBack buf base prec width flags
      = buf.take (buf.length - (alternative base flags.uppercase).length) := by
  rw [takenBack, if_pos ⟨by simp [hprec], hne, Or.inr hlen⟩, alternative]
  rcases hbase with rfl | rfl
  · rw [if_neg (by norm_num), if_neg (by norm_num), List.dropLast_eq_take]
    rfl
  · rw [if_pos rfl]
    by_cases h : buf.dropLast.length ≠ 0 ∧ 16 = 16
    · rw [if_pos h, List.dropLast_eq_take, List.dropLast_eq_take, List.take_take, List.length_take]
      congr 1
      simp only [List.length_cons, List.length_nil]
      omega
    · rw [if_neg h, List.dropLast_eq_take]
      rw [List.length_dropLast] at h
      congr 1
      simp only [List.length_cons, List.length_nil]
      omega

lemma marked_eq (hbase : base = 8 ∨ base = 16)
    (hroom : buf.length + (alternative base flags.uppercase).length ≤ 32) :
    marked buf base flags = buf ++ (alternative base flags.uppercase).reverse := by
  rcases hbase with rfl | rfl
  · rw [alternative, if_neg (by norm_num), List.length_singleton] at hroom
    have hlt : buf.length < 32 := by omega
    simp [marked, alternative, cap, hlt]
  · rw [alternative, if_pos rfl, List.length_cons, List.length_singleton] at hroom
    have hlt : buf.length < 32 := by omega
    have hlt' : buf.length + 1 < 32 := by omega
    cases hup : flags.uppercase <;> simp [marked, alternative, cap, hup, hlt, hlt']

/-- A buffer that is full gets nothing more. -/
lemma marked_full (hbase : base = 8 ∨ base = 16) (hfull : buf.length = 32) :
    marked buf base flags = buf := by
  rcases hbase with rfl | rfl
  · simp [marked, cap, hfull]
  · cases hup : flags.uppercase <;> simp [marked, cap, hup, hfull]

lemma alternative_length (hbase : base = 8 ∨ base = 16) (upper : Bool) :
    1 ≤ (alternative base upper).length ∧ (alternative base upper).length ≤ 2 := by
  rcases hbase with rfl | rfl
  · simp [alternative]
  · simp [alternative]

/-- What is put out with `#`, from the digits in the buffer. -/
lemma ntoaText_alternative (h : Alternative flags) (hvalue : value ≠ 0) :
    ntoaText value false base 0 width flags
      = revText (marked (takenBack (if ¬ flags.left ∧ flags.zeropad then
          zeros width (writtenDigits value base flags)
        else writtenDigits value base flags) base 0 width flags) base flags) width flags := by
  have hdigit : digitFlags value flags = flags := if_neg hvalue
  have hinner : innerWidth false width flags = width := by
    rw [innerWidth, if_neg (by simp [h.plus, h.space])]
  have hnone : zeros 0 (writtenDigits value base flags) = writtenDigits value base flags := by
    simp [zeros]
  have hsigned : ∀ buf, signed buf false flags = buf := by
    intro buf
    simp [signed, h.plus, h.space]
  rw [ntoaText, hdigit, hinner, filled, hsigned, hinner, hnone, if_pos h.hash, ite_self, hashed]

end

end EverythingNet.Printf
