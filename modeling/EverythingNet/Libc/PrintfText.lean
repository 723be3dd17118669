import Mathlib.Tactic
import EverythingNet.Libc.Printf

/-!
What the internal `printf` puts out.

* `filled`, `ntoaBuffer_ok`: the buffer for digits, which is never overrun. `ntoaDigits_ok`: the digits
  in it.
* `Puts f r`, `Emits f r`: what `f` puts out is the text `r`, whatever the output function. `revText`,
  `ntoaText`, `convertText`, `textOf`: the texts of the functions, with `outRev_text`, `ntoa_text`,
  `convert_emits` and so on.
* `vsnprintf_eq_ok`: a call puts out the text of its format. `outAll_buffer`: what becomes of it in a
  buffer that may be too short. `outAll_within`: also of one that `idx` is too small to count.
* `snprintf_iff`: when `snprintf` stays within its buffer, and what it leaves there.
  `printf_same_text`: all entry points put out one text.
-/

namespace EverythingNet.Printf

open CMem Numeral

/-! ### The buffer for digits -/

section

variable {buf : List Byte} {base prec width value : ℕ} {negative : Bool} {flags : Flags}

/-- A character more, if there is room. -/
def cap (buf : List Byte) (c : Byte) : List Byte := if buf.length < 32 then buf ++ [c] else buf

/-- Zeros up to a length, as far as there is room. -/
def zeros (n : ℕ) (buf : List Byte) : List Byte :=
  buf ++ List.replicate (min n 32 - buf.length) (ch '0')

lemma zeros_length (h : buf.length ≤ 32) (n : ℕ) :
    (zeros n buf).length = max buf.length (min n 32) := by
  rw [zeros, List.length_append, List.length_replicate]
  omega

lemma pushIf_ok (buf : List Byte) (c : Byte) : pushIf buf c = .ok (cap buf c) := by
  rw [pushIf, cap, push]
  split_ifs <;> rfl

lemma padTo_ok (n : ℕ) (h : buf.length ≤ 32) : padTo n buf = .ok (zeros n buf) := by
  have key : ∀ k (buf : List Byte), buf.length + k ≤ 32 →
      (List.replicate k (ch '0')).foldlM push buf = .ok (buf ++ List.replicate k (ch '0')) := by
    intro k
    induction k with
    | zero =>
        intro buf _
        rw [List.replicate_zero, List.append_nil]
        rfl
    | succ k ih =>
        intro buf hk
        have hpush : push buf (ch '0') = .ok (buf ++ [ch '0']) := if_pos (by omega)
        rw [List.replicate_succ, List.foldlM_cons, hpush, ok_bind, ih _ (by simp; omega),
          List.append_assoc]
        rfl
  exact key _ buf (by omega)

/-- The digits that `ntoaHash` keeps. -/
def takenBack (buf : List Byte) (base prec width : ℕ) (flags : Flags) : List Byte :=
  if ¬ flags.precision ∧ buf.length ≠ 0 ∧ (buf.length = prec ∨ buf.length = width) then
    if buf.dropLast.length ≠ 0 ∧ base = 16 then buf.dropLast.dropLast else buf.dropLast
  else buf

/-- The characters that `ntoaHash` adds. -/
def marked (buf : List Byte) (base : ℕ) (flags : Flags) : List Byte :=
  let buf := if base = 16 ∧ ¬ flags.uppercase then cap buf (ch 'x')
    else if base = 16 ∧ flags.uppercase then cap buf (ch 'X')
    else if base = 2 then cap buf (ch 'b')
    else buf
  cap buf (ch '0')

/-- What `ntoaHash` makes of the buffer. -/
def hashed (buf : List Byte) (base prec width : ℕ) (flags : Flags) : List Byte :=
  marked (takenBack buf base prec width flags) base flags

lemma ntoaHash_ok (buf : List Byte) (base prec width : ℕ) (flags : Flags) :
    ntoaHash buf base prec width flags = .ok (hashed buf base prec width flags) := by
  simp only [ntoaHash, hashed, marked, takenBack, pushIf_ok]
  split_ifs <;> rfl

/-- What `ntoaSign` makes of the buffer. -/
def signed (buf : List Byte) (negative : Bool) (flags : Flags) : List Byte :=
  if negative then cap buf (ch '-')
  else if flags.plus then cap buf (ch '+')
  else if flags.space then cap buf (ch ' ')
  else buf

lemma ntoaSign_ok (buf : List Byte) (negative : Bool) (flags : Flags) :
    ntoaSign buf negative flags = .ok (signed buf negative flags) := by
  simp only [ntoaSign, signed, pushIf_ok]
  split_ifs <;> rfl

/-- The width that is left when the sign has its place. -/
def innerWidth (negative : Bool) (width : ℕ) (flags : Flags) : ℕ :=
  if ¬ flags.left ∧ width ≠ 0 ∧ flags.zeropad ∧ (negative ∨ flags.plus ∨ flags.space) then width - 1
  else width

/-- What `ntoaBuffer` makes of the digits. -/
def filled (buf : List Byte) (negative : Bool) (base prec width : ℕ) (flags : Flags) : List Byte :=
  let width := innerWidth negative width flags
  let buf := if ¬ flags.left then zeros prec buf else buf
  let buf := if ¬ flags.left ∧ flags.zeropad then zeros width buf else buf
  let buf := if flags.hash then hashed buf base prec width flags else buf
  signed buf negative flags

/-- The buffer is never overrun. -/
lemma ntoaBuffer_ok (h : buf.length ≤ 32) :
    ntoaBuffer buf negative base prec width flags
      = .ok (filled buf negative base prec width flags, innerWidth negative width flags) := by
  have hpad : (if ¬ flags.left then padTo prec buf else pure buf)
      = .ok (if ¬ flags.left then zeros prec buf else buf) := by
    rw [padTo_ok prec h]
    split_ifs <;> rfl
  have hlen : (if ¬ flags.left then zeros prec buf else buf).length ≤ 32 := by
    split_ifs
    · exact h
    · rw [zeros_length h]
      omega
  have hpad' : ∀ n, (if ¬ flags.left ∧ flags.zeropad then
        padTo n (if ¬ flags.left then zeros prec buf else buf)
      else pure (if ¬ flags.left then zeros prec buf else buf))
      = .ok (if ¬ flags.left ∧ flags.zeropad then
          zeros n (if ¬ flags.left then zeros prec buf else buf)
        else if ¬ flags.left then zeros prec buf else buf) := by
    intro n
    rw [padTo_ok n hlen]
    split_ifs <;> rfl
  have hhash : ∀ (buf : List Byte) (width : ℕ),
      (if flags.hash then ntoaHash buf base prec width flags else pure buf)
        = .ok (if flags.hash then hashed buf base prec width flags else buf) := by
    intro buf width
    rw [ntoaHash_ok]
    split_ifs <;> rfl
  dsimp only [ntoaBuffer]
  rw [hpad, ok_bind, hpad', ok_bind, hhash, ok_bind, ntoaSign_ok, ok_bind]
  rfl

/-- The digits that have room in the buffer, the least significant first. -/
def lastDigits (value base : ℕ) (upper : Bool) : List Byte :=
  ((digitsOf base value).take 32).map (digitChar upper)

lemma lastDigits_length (value base : ℕ) (upper : Bool) :
    (lastDigits value base upper).length ≤ 32 := by
  rw [lastDigits, List.length_map, List.length_take]
  exact min_le_left _ _

/-- The loop over the digits. -/
lemma iter_digitStep (hb : 2 ≤ base) (upper : Bool) :
    ∀ (n : ℕ) (value : ℕ) (buf : List Byte), buf.length + (n + 1) = 32 →
      iter (digitStep base upper) (n + 1) (value, buf)
        = .ok (buf ++ ((digitsOf base value).take (n + 1)).map (digitChar upper)) := by
  intro n
  induction n with
  | zero =>
      intro value buf hlen
      have hpush : push buf (digitChar upper (value % base))
          = .ok (buf ++ [digitChar upper (value % base)]) := if_pos (by omega)
      have hfull : ¬ (value / base ≠ 0 ∧ (buf ++ [digitChar upper (value % base)]).length < 32) := by
        rw [List.length_append, List.length_singleton]
        omega
      rw [digitsOf_step hb value]
      refine iter_inr ?_ 0
      rw [digitStep, hpush, ok_bind, if_neg hfull]
      simp
  | succ n ih =>
      intro value buf hlen
      have hpush : push buf (digitChar upper (value % base))
          = .ok (buf ++ [digitChar upper (value % base)]) := if_pos (by omega)
      have hroom : (buf ++ [digitChar upper (value % base)]).length < 32 := by
        rw [List.length_append, List.length_singleton]
        omega
      rw [digitsOf_step hb value]
      by_cases hq : value / base = 0
      · refine iter_inr ?_ (n + 1)
        rw [digitStep, hpush, ok_bind, if_neg (fun h => h.1 hq), if_pos hq]
        simp
      · have hstep : digitStep base upper (value, buf)
            = .ok (.inl (value / base, buf ++ [digitChar upper (value % base)])) := by
          rw [digitStep, hpush, ok_bind, if_pos ⟨hq, hroom⟩]
          rfl
        rw [iter_inl hstep, ih _ _ (by simp; omega), if_neg hq, List.append_assoc]
        simp

/-- What the digits of a number leave of the flags. -/
def digitFlags (value : ℕ) (flags : Flags) : Flags :=
  if value = 0 then { flags with hash := false } else flags

/-- The digits that are written. -/
def writtenDigits (value base : ℕ) (flags : Flags) : List Byte :=
  if ¬ flags.precision ∨ value ≠ 0 then lastDigits value base flags.uppercase else []

lemma writtenDigits_length (value base : ℕ) (flags : Flags) :
    (writtenDigits value base flags).length ≤ 32 := by
  rw [writtenDigits]
  split_ifs
  · exact lastDigits_length value base flags.uppercase
  · exact Nat.zero_le _

lemma ntoaDigits_ok (hb : 2 ≤ base) (value : ℕ) (flags : Flags) :
    ntoaDigits value base flags
      = .ok (writtenDigits value base flags, digitFlags value flags) := by
  have hkeep : (digitFlags value flags).precision = flags.precision
      ∧ (digitFlags value flags).uppercase = flags.uppercase := by
    rw [digitFlags]
    split_ifs <;> exact ⟨rfl, rfl⟩
  rw [writtenDigits, ← hkeep.1, ← hkeep.2]
  change (if ¬ (digitFlags value flags).precision ∨ value ≠ 0 then do
      return (← iter (digitStep base (digitFlags value flags).uppercase) 32 (value, []),
        digitFlags value flags)
    else pure ([], digitFlags value flags)) = _
  split_ifs
  · rw [iter_digitStep hb _ 31 value [] rfl, List.nil_append, ok_bind, lastDigits]
    rfl
  · rfl

end

/-! ### The text of a function -/

section

variable {D : DataModel} {R : Reals} {σ : Type} {out : OutFct σ} {maxlen : ℕ}

lemma outAll_append (l l' : List Byte) (s : σ × ℕ) :
    outAll out maxlen (l ++ l') s = outAll out maxlen l s >>= outAll out maxlen l' := by
  induction l generalizing s with
  | nil => rfl
  | cons c l ih =>
      obtain ⟨buffer, idx⟩ := s
      rw [List.cons_append, outAll, outAll]
      cases out c buffer idx maxlen with
      | error h => rfl
      | ok buffer' => exact ih _

lemma outAll_idx {l : List Byte} {s s' : σ × ℕ} (h : outAll out maxlen l s = .ok s') :
    s'.2 = s.2 + l.length := by
  induction l generalizing s with
  | nil =>
      obtain rfl := Except.ok.inj h
      rfl
  | cons c l ih =>
      obtain ⟨buffer, idx⟩ := s
      rw [outAll] at h
      obtain ⟨buffer', -, h⟩ := bind_eq_ok.mp h
      rw [ih h, List.length_cons]
      dsimp only
      omega

/-- What `outRev` puts out. -/
def revText (buf : List Byte) (width : ℕ) (flags : Flags) : List Byte :=
  (if ¬ flags.left ∧ ¬ flags.zeropad then List.replicate (width - buf.length) (ch ' ') else [])
    ++ buf.reverse
    ++ if flags.left then List.replicate (width - buf.length) (ch ' ') else []

lemma outRev_text (buf : List Byte) (width : ℕ) (flags : Flags) (s : σ × ℕ) :
    outRev out maxlen buf width flags s = outAll out maxlen (revText buf width flags) s := by
  have hbefore : (if ¬ flags.left ∧ ¬ flags.zeropad then
        outAll out maxlen (List.replicate (width - buf.length) (ch ' ')) s else pure s)
      = outAll out maxlen (if ¬ flags.left ∧ ¬ flags.zeropad then
          List.replicate (width - buf.length) (ch ' ') else []) s := by
    split_ifs <;> rfl
  dsimp only [outRev]
  rw [hbefore, revText, outAll_append, outAll_append]
  cases hb : outAll out maxlen (if ¬ flags.left ∧ ¬ flags.zeropad then
      List.replicate (width - buf.length) (ch ' ') else []) s with
  | error h => rfl
  | ok s₁ =>
      rw [ok_bind, ok_bind]
      cases hr : outAll out maxlen buf.reverse s₁ with
      | error h => rfl
      | ok s₂ =>
          rw [ok_bind, ok_bind]
          by_cases hleft : flags.left
          · have hnone : ¬ (¬ flags.left ∧ ¬ flags.zeropad) := fun h => h.1 hleft
            rw [if_neg hnone] at hb
            have h₁ := outAll_idx hb
            have h₂ := outAll_idx hr
            rw [List.length_reverse] at h₂
            have hidx : s₂.2 - s.2 = buf.length := by
              rw [h₂, h₁, List.length_nil]
              omega
            rw [if_pos hleft, if_pos hleft, hidx]
          · rw [if_neg hleft, if_neg hleft]
            rfl

/-- What `ntoaLong` and `ntoaLongLong` put out. -/
def ntoaText (value : ℕ) (negative : Bool) (base prec width : ℕ) (flags : Flags) : List Byte :=
  revText (filled (writtenDigits value base flags) negative base prec width (digitFlags value flags))
    (innerWidth negative width (digitFlags value flags)) (digitFlags value flags)

lemma ntoa_text {base : ℕ} (hb : 2 ≤ base) (value : ℕ) (negative : Bool) (prec width : ℕ)
    (flags : Flags) (s : σ × ℕ) :
    ntoa out maxlen value negative base prec width flags s
      = outAll out maxlen (ntoaText value negative base prec width flags) s := by
  rw [ntoa, ntoaDigits_ok hb, ok_bind]
  dsimp only [ntoaFormat]
  rw [ntoaBuffer_ok (writtenDigits_length value base flags), ok_bind]
  exact outRev_text _ _ _ s

lemma except_map_eq_ok {α β : Type} {x : Except Halt α} {f : α → β} {b : β} :
    x.map f = .ok b ↔ ∃ a, x = .ok a ∧ f a = b := by
  cases x <;> simp [Except.map]

/-- `f` puts out the text that `r` gives. -/
def Puts (out : OutFct σ) (maxlen : ℕ) (f : σ × ℕ → Except Halt (σ × ℕ))
    (r : Except Halt (List Byte)) : Prop :=
  ∀ s s', f s = .ok s' ↔ ∃ text, r = .ok text ∧ outAll out maxlen text s = .ok s'

lemma Puts.all (text : List Byte) : Puts out maxlen (outAll out maxlen text) (.ok text) := by
  intro s s'
  simp

/-- `f` puts out the text that `r` gives, and has the same value. -/
def Emits {α : Type} (out : OutFct σ) (maxlen : ℕ) (f : σ × ℕ → Except Halt (α × σ × ℕ))
    (r : Except Halt (α × List Byte)) : Prop :=
  ∀ s a s', f s = .ok (a, s') ↔ ∃ text, r = .ok (a, text) ∧ outAll out maxlen text s = .ok s'

lemma Emits.error {α : Type} {f : σ × ℕ → Except Halt (α × σ × ℕ)} {h : Halt}
    (hf : ∀ s a s', f s ≠ .ok (a, s')) : Emits out maxlen f (.error h) := by
  intro s a s'
  constructor
  · exact fun h => absurd h (hf s a s')
  · rintro ⟨text, htext, -⟩
    exact absurd htext (by simp)

lemma Emits.text {α : Type} (a : α) (text : List Byte) :
    Emits out maxlen (fun s => do return (a, ← outAll out maxlen text s)) (.ok (a, text)) := by
  intro s a' s'
  dsimp only
  constructor
  · intro h
    obtain ⟨s'', hs, h⟩ := bind_eq_ok.mp h
    obtain ⟨rfl, rfl⟩ := Prod.mk.inj (Except.ok.inj h)
    exact ⟨text, rfl, hs⟩
  · rintro ⟨text', htext, hs⟩
    obtain ⟨rfl, rfl⟩ := Prod.mk.inj (Except.ok.inj htext)
    rw [hs]
    rfl

/-- A text with its padding. -/
def padded (flags : Flags) (width l : ℕ) (text : List Byte) : List Byte :=
  (if ¬ flags.left then pads width l else []) ++ text ++ if flags.left then pads width l else []

/-- A text between its paddings. -/
lemma Emits.padded {α : Type} {f : σ × ℕ → Except Halt (σ × ℕ)} {r : Except Halt (List Byte)}
    (h : Puts out maxlen f r) (flags : Flags) (width l : ℕ) (a : α) :
    Emits out maxlen (fun s => do
        let s ← (if ¬ flags.left then outAll out maxlen (pads width l) s else pure s)
        let s ← f s
        let s ← (if flags.left then outAll out maxlen (pads width l) s else pure s)
        return (a, s))
      (r.map fun text => (a, padded flags width l text)) := by
  have hbefore : ∀ s, (if ¬ flags.left then outAll out maxlen (pads width l) s else pure s)
      = outAll out maxlen (if ¬ flags.left then pads width l else []) s := by
    intro s
    split_ifs <;> rfl
  have hbehind : ∀ s, (if flags.left then outAll out maxlen (pads width l) s else pure s)
      = outAll out maxlen (if flags.left then pads width l else []) s := by
    intro s
    split_ifs <;> rfl
  intro s a' s'
  simp only [hbefore, hbehind]
  constructor
  · intro hall
    obtain ⟨s₁, hs₁, hall⟩ := bind_eq_ok.mp hall
    obtain ⟨s₂, hs₂, hall⟩ := bind_eq_ok.mp hall
    obtain ⟨s₃, hs₃, hall⟩ := bind_eq_ok.mp hall
    obtain ⟨rfl, rfl⟩ := Prod.mk.inj (Except.ok.inj hall)
    obtain ⟨text, rfl, hs₂⟩ := (h s₁ s₂).mp hs₂
    refine ⟨_, rfl, ?_⟩
    rw [Printf.padded, outAll_append, outAll_append, hs₁, ok_bind, hs₂, ok_bind, hs₃]
  · rintro ⟨text', htext', hall⟩
    obtain ⟨text, rfl, hpair⟩ := except_map_eq_ok.mp htext'
    obtain ⟨rfl, rfl⟩ := Prod.mk.inj hpair
    rw [Printf.padded, outAll_append, outAll_append] at hall
    obtain ⟨s₂, hs₂, hs₃⟩ := bind_eq_ok.mp hall
    obtain ⟨s₁, hs₁, hs₂⟩ := bind_eq_ok.mp hs₂
    rw [hs₁, ok_bind, (h s₁ s₂).mpr ⟨text, rfl, hs₂⟩, ok_bind, hs₃]
    rfl

/-- What is read first puts out nothing. -/
lemma Emits.after {α β : Type} (x : Except Halt α) {f : α → σ × ℕ → Except Halt (β × σ × ℕ)}
    {r : α → Except Halt (β × List Byte)} (h : ∀ a, Emits out maxlen (f a) (r a)) :
    Emits out maxlen (fun s => x >>= fun a => f a s) (x >>= r) := by
  cases x with
  | error e => exact Emits.error fun s a s' => by simp
  | ok a => exact h a

/-- The characters that `outStr` puts out. -/
def strChars : Option ℕ → Cells → Except Halt (List Byte)
  | _, [] => .error .outOfBounds
  | _, none :: _ => .error .uninitialised
  | precision, some b :: p =>
    if b = 0 ∨ precision = some 0 then .ok []
    else (strChars (precision.map (· - 1)) p).map (b :: ·)

lemma outStr_puts (p : Cells) :
    ∀ precision : Option ℕ, Puts out maxlen (outStr out maxlen precision p)
      (strChars precision p) := by
  induction p with
  | nil =>
      intro precision s s'
      simp [outStr, strChars]
  | cons x p ih =>
      intro precision s s'
      cases x with
      | none => simp [outStr, strChars]
      | some b =>
          rw [outStr, strChars]
          split_ifs with hend
          · constructor
            · intro h
              exact ⟨[], rfl, h⟩
            · rintro ⟨text, htext, h⟩
              obtain rfl := Except.ok.inj htext
              exact h
          · constructor
            · intro h
              obtain ⟨s₁, hs₁, h⟩ := bind_eq_ok.mp h
              obtain ⟨text, htext, h⟩ := (ih _ _ _).mp h
              refine ⟨b :: text, by rw [htext]; rfl, ?_⟩
              rw [← List.singleton_append, outAll_append, hs₁, ok_bind, h]
            · rintro ⟨text, htext, h⟩
              obtain ⟨text', htext', rfl⟩ := except_map_eq_ok.mp htext
              rw [← List.singleton_append, outAll_append] at h
              obtain ⟨s₁, hs₁, h⟩ := bind_eq_ok.mp h
              rw [hs₁, ok_bind]
              exact (ih _ _ _).mpr ⟨text', htext', h⟩

/-- What `%c` puts out. -/
def charText (flags : Flags) (width : ℕ) (va : List (Arg D R)) :
    Except Halt (List (Arg D R) × List Byte) := do
  let (v, va) ← vaInt va
  return (va, padded flags width 1 [v.setWidth 8])

/-- What `%s` puts out. -/
def strText (flags : Flags) (width precision : ℕ) (va : List (Arg D R)) :
    Except Halt (List (Arg D R) × List Byte) := do
  let (p, va) ← vaStr va
  let l ← strnlenS p (if precision ≠ 0 then precision else 2 ^ D.ptr.bits - 1)
  let l := l % 2 ^ 32
  let l := if flags.precision then min l precision else l
  (strChars (if flags.precision then some precision else none) p).map fun text =>
    (va, padded flags width l text)

/-- What a conversion puts out. -/
def convertText (c : Byte) (flags : Flags) (width precision : ℕ) (va : List (Arg D R)) :
    Except Halt (List (Arg D R) × List Byte) := do
  if isInteger c then
    let flags := integerFlags c flags
    let (value, negative, va) ← integerArg c flags va
    return (va, ntoaText value negative (baseOf c) precision width flags)
  else if c = ch 'f' ∨ c = ch 'F' then
    let (x, va) ← vaDouble va
    return (va, R.ftoa x precision width (realFlags c flags))
  else if c = ch 'e' ∨ c = ch 'E' ∨ c = ch 'g' ∨ c = ch 'G' then
    let (x, va) ← vaDouble va
    return (va, R.etoa x precision width (realFlags c flags))
  else if c = ch 'c' then charText flags width va
  else if c = ch 's' then strText flags width precision va
  else if c = ch 'p' then
    let (v, va) ← vaPtr va
    return (va, ntoaText v.toNat false 16 precision (D.ptr.bits / 8 * 2)
      { flags with zeropad := true, uppercase := true })
  else return (va, [c])

lemma baseOf_ge (c : Byte) : 2 ≤ baseOf c := by
  rw [baseOf]
  split_ifs <;> norm_num

lemma convertChar_emits (flags : Flags) (width : ℕ) (va : List (Arg D R)) :
    Emits out maxlen (convertChar out maxlen flags width va) (charText flags width va) := by
  cases hv : vaInt va with
  | error e =>
      rw [charText, hv, error_bind]
      refine Emits.error fun s a s' h => ?_
      dsimp only [convertChar] at h
      obtain ⟨s₁, -, h⟩ := bind_eq_ok.mp h
      rw [hv, error_bind] at h
      exact absurd h (by simp)
  | ok x =>
      obtain ⟨v, va'⟩ := x
      intro s a s'
      rw [charText, hv]
      simp only [convertChar, hv, ok_bind]
      exact Emits.padded (Puts.all [v.setWidth 8]) flags width 1 va' s a s'

lemma convertStr_emits (flags : Flags) (width precision : ℕ) (va : List (Arg D R)) :
    Emits out maxlen (convertStr out maxlen flags width precision va)
      (strText flags width precision va) :=
  Emits.after _ fun x => Emits.after _ fun _ => Emits.padded (outStr_puts x.1 _) _ _ _ _

lemma convert_emits (c : Byte) (flags : Flags) (width precision : ℕ) (va : List (Arg D R)) :
    Emits out maxlen (convert out maxlen c flags width precision va)
      (convertText c flags width precision va) := by
  have hput : ∀ (b : Prop) [Decidable b],
      (if b then ntoaLongLong out maxlen else ntoaLong out maxlen) = ntoa out maxlen := by
    intro b _
    split_ifs <;> rfl
  unfold convert convertText
  simp only [hput, ntoa_text (baseOf_ge c), ntoa_text (show 2 ≤ 16 by norm_num)]
  split_ifs with hint hf he hc hs hp
  · exact Emits.after _ fun x => Emits.text _ _
  · exact Emits.after _ fun x => Emits.text _ _
  · exact Emits.after _ fun x => Emits.text _ _
  · exact convertChar_emits flags width va
  · exact convertStr_emits flags width precision va
  · exact Emits.after _ fun x => Emits.text _ _
  · exact Emits.text _ _

/-- The text of a round of the loop, and the format and the arguments that are left; none at the
end. -/
def roundText (format : List Byte) (va : List (Arg D R)) :
    Except Halt (Option (List Byte × List (Arg D R) × List Byte)) := do
  let c ← peek format
  if c = 0 then return none
  else if c ≠ ch '%' then return some (format.tail, va, [c])
  else
    let (flags, width, precision, format, va) ← readDirective D format.tail va
    let c ← peek format
    let (va, text) ← convertText c flags width precision va
    return some (format.tail, va, text)

/-- The text of a format, within so many rounds. -/
def formatText : ℕ → List Byte → List (Arg D R) → Except Halt (List Byte)
  | 0, _, _ => .error .outOfFuel
  | n + 1, format, va => do
    match ← roundText format va with
    | none => return []
    | some (format, va, text) => (formatText n format va).map (text ++ ·)

/-- The text of a format. -/
def textOf (format : List Byte) (va : List (Arg D R)) : Except Halt (List Byte) :=
  formatText (format.length + 1) format va

/-- A round of the loop puts out its text. -/
lemma formatStep_eq_ok {format : List Byte} {va : List (Arg D R)} {s : σ × ℕ}
    {r : (List Byte × List (Arg D R) × σ × ℕ) ⊕ (σ × ℕ)} :
    formatStep out maxlen (format, va, s) = .ok r
      ↔ (roundText format va = .ok none ∧ r = .inr s)
        ∨ ∃ format' va' text s', roundText format va = .ok (some (format', va', text))
          ∧ outAll out maxlen text s = .ok s' ∧ r = .inl (format', va', s') := by
  rw [formatStep, roundText]
  cases peek format with
  | error e => simp
  | ok c =>
      rw [ok_bind, ok_bind]
      split_ifs with h0 hp
      · simp [eq_comm]
      · constructor
        · intro h
          obtain ⟨s', hs', h⟩ := bind_eq_ok.mp h
          exact Or.inr ⟨_, _, _, s', rfl, hs', (Except.ok.inj h).symm⟩
        · rintro (⟨h, -⟩ | ⟨format', va', text, s', h, hs', rfl⟩)
          · simp at h
          · simp only [pure_eq_ok, Except.ok.injEq, Option.some.injEq, Prod.mk.injEq] at h
            obtain ⟨rfl, rfl, rfl⟩ := h
            rw [hs']
            rfl
      · cases readDirective D format.tail va with
        | error e => simp
        | ok x =>
            obtain ⟨flags, width, precision, format', va'⟩ := x
            rw [ok_bind, ok_bind]
            dsimp only
            cases peek format' with
            | error e => simp
            | ok c' =>
                rw [ok_bind, ok_bind]
                have hconv : Emits out maxlen (convert out maxlen c' flags width precision va')
                    (convertText c' flags width precision va') :=
                  convert_emits c' flags width precision va'
                constructor
                · intro h
                  obtain ⟨⟨va'', s'⟩, hs', h⟩ := bind_eq_ok.mp h
                  obtain ⟨text, htext, hs'⟩ := (hconv s va'' s').mp hs'
                  refine Or.inr ⟨_, _, text, s', ?_, hs', (Except.ok.inj h).symm⟩
                  rw [htext]
                  rfl
                · rintro (⟨h, -⟩ | ⟨format'', va'', text, s', h, hs', rfl⟩)
                  · obtain ⟨x, -, h⟩ := bind_eq_ok.mp h
                    simp at h
                  · obtain ⟨⟨va₂, text₂⟩, htext, h⟩ := bind_eq_ok.mp h
                    simp only [pure_eq_ok, Except.ok.injEq, Option.some.injEq, Prod.mk.injEq] at h
                    obtain ⟨rfl, rfl, rfl⟩ := h
                    rw [(hconv s va₂ s').mpr ⟨text₂, htext, hs'⟩]
                    rfl

/-- The loop puts out the text of the format. -/
lemma iter_formatStep (n : ℕ) :
    ∀ (format : List Byte) (va : List (Arg D R)) (s s' : σ × ℕ),
      iter (formatStep out maxlen) n (format, va, s) = .ok s'
        ↔ ∃ text, formatText n format va = .ok text ∧ outAll out maxlen text s = .ok s' := by
  induction n with
  | zero =>
      intro format va s s'
      simp [iter, formatText]
  | succ n ih =>
      intro format va s s'
      rw [iter, formatText]
      cases hstep : formatStep out maxlen (format, va, s) with
      | error e =>
          constructor
          · intro h
            exact absurd h (by simp)
          · rintro ⟨text, htext, hs'⟩
            obtain ⟨x, hround, htext⟩ := bind_eq_ok.mp htext
            cases x with
            | none =>
                have hok : formatStep out maxlen (format, va, s) = .ok (.inr s) :=
                  formatStep_eq_ok.mpr (Or.inl ⟨hround, rfl⟩)
                simp [hstep] at hok
            | some y =>
                obtain ⟨format', va', text'⟩ := y
                obtain ⟨rest, -, rfl⟩ := except_map_eq_ok.mp htext
                rw [outAll_append] at hs'
                obtain ⟨s₁, hs₁, -⟩ := bind_eq_ok.mp hs'
                have hok := formatStep_eq_ok.mpr
                  (Or.inr ⟨format', va', text', s₁, hround, hs₁, rfl⟩)
                simp [hstep] at hok
      | ok r =>
          rcases formatStep_eq_ok.mp hstep with ⟨hround, rfl⟩ | ⟨format', va', text', s₁, hround,
            hs₁, rfl⟩
          · rw [hround, ok_bind]
            dsimp only
            constructor
            · intro h
              exact ⟨[], rfl, h⟩
            · rintro ⟨text, htext, hs'⟩
              obtain rfl := Except.ok.inj htext
              exact hs'
          · rw [hround, ok_bind]
            dsimp only
            rw [ih]
            constructor
            · rintro ⟨rest, hrest, hs'⟩
              refine ⟨text' ++ rest, by rw [hrest]; rfl, ?_⟩
              rw [outAll_append, hs₁, ok_bind, hs']
            · rintro ⟨text, htext, hs'⟩
              obtain ⟨rest, hrest, rfl⟩ := except_map_eq_ok.mp htext
              rw [outAll_append, hs₁, ok_bind] at hs'
              exact ⟨rest, hrest, hs'⟩

/-- A call puts out the text of its format and ends it with a zero byte. -/
lemma vsnprintf_eq_ok {format : List Byte} {va : List (Arg D R)} {buffer buffer' : σ} {ret : ℤ} :
    vsnprintf out maxlen format va buffer = .ok (buffer', ret)
      ↔ ∃ text buffer₁, textOf format va = .ok text
        ∧ outAll out maxlen text (buffer, 0) = .ok (buffer₁, text.length)
        ∧ out 0 buffer₁ (if text.length % 2 ^ D.ptr.bits < maxlen then text.length % 2 ^ D.ptr.bits
          else (maxlen + (2 ^ D.ptr.bits - 1)) % 2 ^ D.ptr.bits) maxlen = .ok buffer'
        ∧ ret = (BitVec.ofNat 32 text.length).toInt := by
  rw [vsnprintf]
  constructor
  · intro h
    obtain ⟨⟨buffer₁, idx⟩, hiter, h⟩ := bind_eq_ok.mp h
    obtain ⟨text, htext, hall⟩ := (iter_formatStep _ _ _ _ _).mp hiter
    obtain rfl : idx = text.length := by simpa using outAll_idx hall
    obtain ⟨b, hout, h⟩ := bind_eq_ok.mp h
    obtain ⟨rfl, rfl⟩ := Prod.mk.inj (Except.ok.inj h)
    exact ⟨text, buffer₁, htext, hall, hout, rfl⟩
  · rintro ⟨text, buffer₁, htext, hall, hout, rfl⟩
    rw [(iter_formatStep _ _ _ _ _).mpr ⟨text, htext, hall⟩, ok_bind]
    dsimp only
    rw [hout]
    rfl

end

/-! ### Where the text goes -/

section

variable {D : DataModel} {R : Reals} {format : List Byte} {va : List (Arg D R)} {σ : Type}

/-- As long as `idx` does not wrap. -/
lemma outBuffer_short {size idx : ℕ} (h : idx < size) (c : Byte) (buf : Cells) (count : ℕ) :
    outBuffer size c buf idx count = if idx < count then write buf idx [c] else .ok buf := by
  rw [outBuffer, Nat.mod_eq_of_lt h]

/-- The text in a buffer of which `count` bytes may be used. -/
lemma outAll_buffer {size : ℕ} (buf : Cells) (count : ℕ) (text : List Byte)
    (hshort : text.length ≤ size) :
    outAll (outBuffer size) count text (buf, 0) = if min text.length count ≤ buf.length then
        .ok (stored (text.take count) ++ buf.drop (min text.length count), text.length)
      else .error .outOfBounds := by
  induction text using List.reverseRecOn with
  | nil => simp [outAll]
  | append_singleton text c ih =>
      rw [List.length_append, List.length_singleton] at hshort ⊢
      rw [outAll_append, ih (by omega)]
      by_cases hfits : min text.length count ≤ buf.length
      · rw [if_pos hfits, ok_bind]
        dsimp only [outAll]
        by_cases hlt : text.length < count
        · have htake : text.take count = text := List.take_of_length_le hlt.le
          have htake' : (text ++ [c]).take count = text ++ [c] :=
            List.take_of_length_le (by simp; omega)
          rw [htake, htake', Nat.min_eq_left hlt.le, Nat.min_eq_left hlt,
            outBuffer_short (by omega), if_pos hlt]
          by_cases hnext : text.length + 1 ≤ buf.length
          · rw [write_stored text [c] (by simp; omega), if_pos hnext, ok_bind, List.length_singleton,
              List.drop_drop]
          · rw [write_eq_error (by simp; omega), if_neg hnext, error_bind]
        · have htake : (text ++ [c]).take count = text.take count :=
            List.take_append_of_le_length (by omega)
          rw [outBuffer_short (by omega), if_neg hlt, ok_bind, htake, if_pos (by omega),
            show min (text.length + 1) count = min text.length count by omega]
      · rw [if_neg hfits, error_bind, if_neg (by omega)]

/-- A character never leaves a buffer of which no more than its length may be used. -/
lemma outBuffer_within {buf : Cells} {count : ℕ} (hcount : count ≤ buf.length) (size : ℕ) (c : Byte)
    (idx : ℕ) : ∃ buf', outBuffer size c buf idx count = .ok buf' ∧ buf'.length = buf.length := by
  rw [outBuffer]
  split_ifs with hlt
  · have hwrite : ∃ buf', write buf (idx % size) [c] = .ok buf' :=
      ⟨_, if_pos (by rw [List.length_singleton]; omega)⟩
    obtain ⟨buf', hwrite⟩ := hwrite
    exact ⟨buf', hwrite, write_length hwrite⟩
  · exact ⟨buf, rfl, rfl⟩

/-- Nor does a text, however long it is. -/
lemma outAll_within (size : ℕ) {count : ℕ} (text : List Byte) :
    ∀ {buf : Cells}, count ≤ buf.length → ∀ idx, ∃ buf',
      outAll (outBuffer size) count text (buf, idx) = .ok (buf', idx + text.length)
        ∧ buf'.length = buf.length := by
  induction text with
  | nil => exact fun _ idx => ⟨_, rfl, rfl⟩
  | cons c text ih =>
      intro buf hcount idx
      obtain ⟨buf₁, hout, hlen₁⟩ := outBuffer_within hcount size c idx
      obtain ⟨buf₂, hall, hlen₂⟩ := ih (hcount.trans_eq hlen₁.symm) (idx + 1)
      refine ⟨buf₂, ?_, hlen₂.trans hlen₁⟩
      rw [outAll, hout, ok_bind, hall, List.length_cons, Nat.add_assoc, Nat.add_comm 1]

/-- What `snprintf` leaves in a buffer: as much of the text as has room before a zero byte. -/
def truncated (buf : Cells) (count : ℕ) (text : List Byte) : Cells :=
  if count = 0 then buf
  else stored (text.take (count - 1) ++ [0]) ++ buf.drop (min text.length (count - 1) + 1)

section

variable {buf : Cells} {count : ℕ} {text : List Byte} {b : Option Cells} {ret : ℤ}

/-- The zero byte behind a text in the buffer. -/
lemma outBuffer_last (hcount : count < 2 ^ D.ptr.bits) (hshort : text.length < 2 ^ D.ptr.bits)
    (hroom : count ≠ 0 → min (text.length + 1) count ≤ buf.length) :
    outBuffer (2 ^ D.ptr.bits) 0 (stored (text.take count) ++ buf.drop (min text.length count))
      (if text.length % 2 ^ D.ptr.bits < count then text.length % 2 ^ D.ptr.bits
        else (count + (2 ^ D.ptr.bits - 1)) % 2 ^ D.ptr.bits) count
      = .ok (truncated buf count text) := by
  rw [truncated, Nat.mod_eq_of_lt hshort]
  by_cases hlt : text.length < count
  · have htake : text.take count = text := List.take_of_length_le hlt.le
    have htake' : text.take (count - 1) = text := List.take_of_length_le (by omega)
    have hfits := hroom (by omega)
    rw [if_pos hlt, if_neg (by omega : count ≠ 0), htake, htake', outBuffer_short hshort, if_pos hlt,
      write_stored text [0] (by simp; omega), List.drop_drop]
    rw [Nat.min_eq_left hlt.le, Nat.min_eq_left (by omega : text.length ≤ count - 1)]
    rfl
  · rw [if_neg hlt]
    by_cases h0 : count = 0
    · rw [if_pos h0, h0, outBuffer, if_neg (by omega)]
      simp
    · have hlen : (text.take (count - 1)).length = count - 1 := by
        rw [List.length_take]
        omega
      obtain ⟨x, hx⟩ : ∃ x, text.take count = text.take (count - 1) ++ [x] := by
        refine ⟨text[count - 1], ?_⟩
        have h := List.take_concat_get' text (count - 1) (by omega)
        rw [Nat.sub_add_cancel (by omega : 1 ≤ count)] at h
        exact h.symm
      have hidx : (count + (2 ^ D.ptr.bits - 1)) % 2 ^ D.ptr.bits = count - 1 := by
        rw [show count + (2 ^ D.ptr.bits - 1) = 2 ^ D.ptr.bits + (count - 1) by omega,
          Nat.add_mod_left, Nat.mod_eq_of_lt (by omega)]
      rw [if_neg h0, hidx, outBuffer_short (by omega), if_pos (by omega), hx, stored_append,
        List.append_assoc]
      have hwrite := write_stored (text.take (count - 1)) [0]
        (a := stored [x] ++ buf.drop (min text.length count)) (by simp)
      rw [hlen] at hwrite
      rw [hwrite, Nat.min_eq_right (by omega : count ≤ text.length),
        Nat.min_eq_right (by omega : count - 1 ≤ text.length),
        Nat.sub_add_cancel (by omega : 1 ≤ count)]
      rfl

/-- A text as long as `size_t` counts, in a buffer with room for the part to be written. -/
lemma snprintf_short (hcount : count < 2 ^ D.ptr.bits) (htext : textOf format va = .ok text)
    (hshort : text.length < 2 ^ D.ptr.bits)
    (hroom : count ≠ 0 → min (text.length + 1) count ≤ buf.length) :
    snprintf (some buf) count format va
      = .ok (some (truncated buf count text), (BitVec.ofNat 32 text.length).toInt) := by
  have hfits : min text.length count ≤ buf.length := by
    by_cases h0 : count = 0
    · omega
    · have := hroom h0
      omega
  have hv := vsnprintf_eq_ok.mpr ⟨text, _, htext, (outAll_buffer buf count text hshort.le).trans
    (if_pos hfits), outBuffer_last hcount hshort hroom, rfl⟩
  rw [snprintf, hv]
  rfl

/-- Where as much may be used as the buffer has, every text can be put out. -/
lemma snprintf_within (hcount : count ≤ buf.length) (htext : textOf format va = .ok text) :
    ∃ r, snprintf (some buf) count format va = .ok r := by
  obtain ⟨buf₁, hall, hlen⟩ := outAll_within (2 ^ D.ptr.bits) text hcount 0
  rw [Nat.zero_add] at hall
  obtain ⟨buf₂, hout, -⟩ := outBuffer_within (hcount.trans_eq hlen.symm) (2 ^ D.ptr.bits) 0
    (if text.length % 2 ^ D.ptr.bits < count then text.length % 2 ^ D.ptr.bits
      else (count + (2 ^ D.ptr.bits - 1)) % 2 ^ D.ptr.bits)
  have hv := vsnprintf_eq_ok.mpr ⟨text, buf₁, htext, hall, hout, rfl⟩
  rw [snprintf, hv]
  exact ⟨_, rfl⟩

/-- A call that comes to an end has put out the text of its format, with room for the part to be
written. -/
lemma snprintf_text (hcount : count < 2 ^ D.ptr.bits)
    (h : snprintf (some buf) count format va = .ok (b, ret)) :
    ∃ text, textOf format va = .ok text ∧ (count ≠ 0 → min (text.length + 1) count ≤ buf.length)
      ∧ ret = (BitVec.ofNat 32 text.length).toInt := by
  obtain ⟨⟨buf', ret'⟩, hv, h⟩ := bind_eq_ok.mp h
  obtain ⟨rfl, rfl⟩ := Prod.mk.inj (Except.ok.inj h)
  obtain ⟨text, buf₁, htext, hall, hout, rfl⟩ := vsnprintf_eq_ok.mp hv
  refine ⟨text, htext, fun h0 => ?_, rfl⟩
  -- before `idx` wraps the first characters have been written
  have hbefore : outAll (outBuffer (2 ^ D.ptr.bits)) count (text.take (2 ^ D.ptr.bits)) (buf, 0)
      ≠ .error .outOfBounds := by
    intro herror
    rw [← List.take_append_drop (2 ^ D.ptr.bits) text, outAll_append, herror, error_bind] at hall
    exact absurd hall (by simp)
  rw [outAll_buffer _ _ _ (by rw [List.length_take]; omega), List.length_take] at hbefore
  have hfits : min (min (2 ^ D.ptr.bits) text.length) count ≤ buf.length := by
    by_contra hover
    exact hbefore (if_neg hover)
  by_cases hlt : text.length < count
  · -- the zero byte has a place behind the text
    have htake : text.take count = text := List.take_of_length_le hlt.le
    have hshort : text.length < 2 ^ D.ptr.bits := by omega
    rw [outAll_buffer _ _ _ hshort.le, if_pos (by omega)] at hall
    obtain ⟨rfl, -⟩ := Prod.mk.inj (Except.ok.inj hall)
    rw [Nat.mod_eq_of_lt hshort, if_pos hlt, htake, outBuffer_short hshort, if_pos hlt, write] at hout
    split_ifs at hout with hle
    rw [List.length_append, stored_length, List.length_drop, List.length_singleton] at hle
    omega
  · omega

/-- `snprintf` comes to an end just if the format has a text and the buffer has room for the part of
it that is to be written. It returns the length of the whole text, and of a text whose length is a
`size_t` it leaves as much as has room. -/
theorem snprintf_iff (hcount : count < 2 ^ D.ptr.bits) :
    ((∃ b ret, snprintf (some buf) count format va = .ok (b, ret))
      ↔ ∃ text, textOf format va = .ok text
        ∧ (count ≠ 0 → min (text.length + 1) count ≤ buf.length))
    ∧ ∀ b ret text, snprintf (some buf) count format va = .ok (b, ret) →
      textOf format va = .ok text → ret = (BitVec.ofNat 32 text.length).toInt
        ∧ (text.length < 2 ^ D.ptr.bits → b = some (truncated buf count text)) := by
  refine ⟨⟨?_, ?_⟩, ?_⟩
  · rintro ⟨b, ret, h⟩
    obtain ⟨text, htext, hroom, -⟩ := snprintf_text hcount h
    exact ⟨text, htext, hroom⟩
  · rintro ⟨text, htext, hroom⟩
    by_cases hshort : text.length < 2 ^ D.ptr.bits
    · exact ⟨_, _, snprintf_short hcount htext hshort hroom⟩
    · have hcount' : count ≤ buf.length := by
        by_cases h0 : count = 0
        · omega
        · have := hroom h0
          omega
      obtain ⟨⟨b, ret⟩, h⟩ := snprintf_within hcount' htext
      exact ⟨b, ret, h⟩
  · intro b ret text h htext
    obtain ⟨text', htext', hroom, hret⟩ := snprintf_text hcount h
    obtain rfl := Except.ok.inj (htext.symm.trans htext')
    refine ⟨hret, fun hshort => ?_⟩
    exact (Prod.mk.inj (Except.ok.inj (h.symm.trans (snprintf_short hcount htext hshort hroom)))).1

end

/-- A data model whose `long` and pointers have 64 bits. -/
def lp64 : DataModel := ⟨.w64, .w64, true⟩

/-- Without floating-point numbers. -/
def noReals : Reals := ⟨Empty, fun x => x.elim, fun x => x.elim⟩

theorem snprintf_iff_sample :
    snprintf (some (List.replicate 5 none)) 5 (chars "hello, %d" ++ [0])
        [(.int 42 : Arg lp64 noReals)]
      = .ok (some (stored (chars "hell") ++ [some 0]), 9) := by
  have htext : textOf (chars "hello, %d" ++ [0]) [(.int 42 : Arg lp64 noReals)]
      = .ok (chars "hello, 42") := by rfl
  obtain ⟨hends, hleft⟩ := @snprintf_iff lp64 noReals (chars "hello, %d" ++ [0]) [.int 42]
    (List.replicate 5 none) 5 (by decide)
  obtain ⟨b, ret, h⟩ := hends.mpr ⟨_, htext, by decide⟩
  obtain ⟨hret, hb⟩ := hleft b ret _ h htext
  rw [h, hb (by decide), hret]
  rfl

/-- The text for a function of the caller. -/
lemma outAll_fct (fct : Byte → σ → Except Halt σ) (maxlen : ℕ) (text : List Byte) :
    ∀ arg arg' idx idx', outAll (outFct fct) maxlen text (arg, idx) = .ok (arg', idx')
      ↔ (text.filter (· ≠ 0)).foldlM (fun arg c => fct c arg) arg = .ok arg'
        ∧ idx' = idx + text.length := by
  induction text with
  | nil =>
      intro arg arg' idx idx'
      simp [outAll, eq_comm (a := idx)]
  | cons c text ih =>
      intro arg arg' idx idx'
      rw [outAll, outFct]
      by_cases h0 : c = 0
      · rw [if_neg (not_not.mpr h0), ok_bind, ih, List.filter_cons_of_neg (by simpa using h0),
          List.length_cons, Nat.add_assoc, Nat.add_comm 1]
      · rw [if_pos h0, List.filter_cons_of_pos (by simpa using h0), List.foldlM_cons]
        cases fct c arg with
        | error e => simp
        | ok arg₁ =>
            rw [ok_bind, ok_bind, ih, List.length_cons, Nat.add_assoc, Nat.add_comm 1]

lemma outNull_all (maxlen : ℕ) (text : List Byte) (buffer : σ) (idx : ℕ) :
    outAll outNull maxlen text (buffer, idx) = .ok (buffer, idx + text.length) := by
  induction text generalizing idx with
  | nil => rfl
  | cons c text ih =>
      rw [outAll, outNull, ok_bind, ih, List.length_cons, Nat.add_assoc, Nat.add_comm 1]

/-- `fctprintf` hands the text to a function of the caller, without zero bytes. -/
lemma fctprintf_eq_ok {fct : Byte → σ → Except Halt σ} {arg arg' : σ} {ret : ℤ} :
    fctprintf fct arg format va = .ok (arg', ret)
      ↔ ∃ text, textOf format va = .ok text
        ∧ (text.filter (· ≠ 0)).foldlM (fun arg c => fct c arg) arg = .ok arg'
        ∧ ret = (BitVec.ofNat 32 text.length).toInt := by
  rw [fctprintf, vsnprintf_eq_ok]
  constructor
  · rintro ⟨text, arg₁, htext, hall, hout, hret⟩
    obtain rfl : arg₁ = arg' := Except.ok.inj hout
    exact ⟨text, htext, ((outAll_fct fct _ text _ _ _ _).mp hall).1, hret⟩
  · rintro ⟨text, htext, hall, hret⟩
    exact ⟨text, arg', htext, (outAll_fct fct _ text _ _ _ _).mpr ⟨hall, by simp⟩, rfl, hret⟩

/-- `printf` prints the text, without zero bytes. -/
lemma printf_eq_ok {printed : List Byte} {ret : ℤ} :
    printf format va = .ok (printed, ret)
      ↔ ∃ text, textOf format va = .ok text ∧ printed = text.filter (· ≠ 0)
        ∧ ret = (BitVec.ofNat 32 text.length).toInt := by
  have happend : ∀ l printed : List Byte,
      l.foldlM (fun printed c => (Except.ok (printed ++ [c]) : Except Halt (List Byte))) printed
        = .ok (printed ++ l) := by
    intro l
    induction l with
    | nil =>
        intro printed
        rw [List.append_nil]
        rfl
    | cons c l ih =>
        intro printed
        rw [List.foldlM_cons, ok_bind, ih, List.append_assoc]
        rfl
  have hsame : printf format va
      = fctprintf (fun c printed => .ok (printed ++ [c])) [] format va := rfl
  rw [hsame, fctprintf_eq_ok]
  simp only [happend, List.nil_append, Except.ok.injEq, eq_comm]

/-- Without a buffer `snprintf` measures the text. -/
lemma snprintf_none_eq_ok {count : ℕ} {b : Option Cells} {ret : ℤ} :
    snprintf none count format va = .ok (b, ret)
      ↔ ∃ text, textOf format va = .ok text ∧ b = none
        ∧ ret = (BitVec.ofNat 32 text.length).toInt := by
  rw [snprintf]
  constructor
  · intro h
    obtain ⟨⟨u, ret'⟩, hv, h⟩ := bind_eq_ok.mp h
    obtain ⟨rfl, rfl⟩ := Prod.mk.inj (Except.ok.inj h)
    obtain ⟨text, -, htext, -, -, hret⟩ := vsnprintf_eq_ok.mp hv
    exact ⟨text, htext, rfl, hret⟩
  · rintro ⟨text, htext, rfl, rfl⟩
    have hv := vsnprintf_eq_ok.mpr ⟨text, (), htext,
      (outNull_all count text () 0).trans (by rw [Nat.zero_add]), rfl, rfl⟩
    rw [hv]
    rfl

/-- All entry points put out one text, that of the format: `printf` prints it, `fctprintf` hands it to
a function of the caller, both without zero bytes, and `snprintf` without a buffer measures it. -/
theorem printf_same_text (format : List Byte) (va : List (Arg D R)) :
    (∀ printed ret, printf format va = .ok (printed, ret)
      ↔ ∃ text, textOf format va = .ok text ∧ printed = text.filter (· ≠ 0)
        ∧ ret = (BitVec.ofNat 32 text.length).toInt)
    ∧ (∀ {σ : Type} (fct : Byte → σ → Except Halt σ) (arg arg' : σ) ret,
      fctprintf fct arg format va = .ok (arg', ret)
      ↔ ∃ text, textOf format va = .ok text
        ∧ (text.filter (· ≠ 0)).foldlM (fun arg c => fct c arg) arg = .ok arg'
        ∧ ret = (BitVec.ofNat 32 text.length).toInt)
    ∧ ∀ count b ret, snprintf none count format va = .ok (b, ret)
      ↔ ∃ text, textOf format va = .ok text ∧ b = none
        ∧ ret = (BitVec.ofNat 32 text.length).toInt :=
  ⟨fun _ _ => printf_eq_ok, fun _ _ _ _ => fctprintf_eq_ok, fun _ _ _ => snprintf_none_eq_ok⟩

end

end EverythingNet.Printf
