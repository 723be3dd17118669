import Mathlib.Tactic
import EverythingNet.Lib.CString
import EverythingNet.Lib.Numeral
import EverythingNet.Plat.Timers

/-!
The internal `printf`: `plat/common/sane_printf.c`.

* `OutFct`, `outAll`: the output functions, and what they are called with. `outRev`, `ntoaFormat`,
  `ntoaLong`, `ntoaLongLong`: putting out a number.
* `Arg`, `vaInt` and so on: the arguments of variable type. `readDirective`: a directive up to its
  specifier. `convert`: the conversions; those of floating-point numbers are a parameter (`Reals`).
* `formatStep`, `vsnprintf`: the loop over the format. `snprintf`, `sprintf`, `printf`, `fctprintf`:
  the entry points.

A pointer into the format is the list of the bytes from there on, with the terminator and whatever
is behind it in memory. `idx` counts the characters put out; the `size_t` of the source has its residue,
so that is what `outBuffer` and the last step of `vsnprintf` go by.
-/
namespace EverythingNet.Printf

open CMem Numeral

/-! ### The code -/

/-- A character of the source. -/
def ch (c : Char) : Byte := BitVec.ofNat 8 c.toNat

/-- `FLAGS_ZEROPAD` and so on. -/
structure Flags where
  zeropad : Bool := false
  left : Bool := false
  plus : Bool := false
  space : Bool := false
  hash : Bool := false
  uppercase : Bool := false
  char : Bool := false
  short : Bool := false
  long : Bool := false
  longLong : Bool := false
  precision : Bool := false
  adaptExp : Bool := false
  deriving DecidableEq

/-- The widths of `long` and of pointers, `size_t` and `ptrdiff_t`, and whether `char` is signed. -/
structure DataModel where
  long : Width
  ptr : Width
  charSigned : Bool

/-- What `_ftoa` and `_etoa` put out for a `double`, a precision, a width and flags. -/
structure Reals where
  double : Type
  ftoa : double → ℕ → ℕ → Flags → List Byte
  etoa : double → ℕ → ℕ → Flags → List Byte

/-- An argument of variable type. -/
inductive Arg (D : DataModel) (R : Reals) where
  | int (v : U32)
  | long (v : BitVec D.long.bits)
  | longLong (v : U64)
  | ptr (v : BitVec D.ptr.bits)
  | str (p : Option Cells)
  | double (x : R.double)

/-- `out_fct_type`: a function of the character, the buffer, `idx` and `maxlen`. -/
abbrev OutFct (σ : Type) := Byte → σ → ℕ → ℕ → Except Halt σ

/-- `_out_buffer`, where a `size_t` has `size` values. -/
def outBuffer (size : ℕ) : OutFct Cells := fun character buffer idx maxlen =>
  if idx % size < maxlen then write buffer (idx % size) [character] else .ok buffer

section

variable {σ : Type} (out : OutFct σ) (maxlen : ℕ)

/-- `_out_null`. -/
def outNull : OutFct σ := fun _ buffer _ _ => .ok buffer

/-- `_out_char`, where the buffer is what has been printed. -/
def outChar : OutFct (List Byte) := fun character printed _ _ =>
  if character ≠ 0 then .ok (printed ++ [character]) else .ok printed

/-- `_out_fct`. -/
def outFct (fct : Byte → σ → Except Halt σ) : OutFct σ := fun character arg _ _ =>
  if character ≠ 0 then fct character arg else .ok arg

/-- Some characters are put out, one after the other, each with `idx++`. -/
def outAll : List Byte → σ × ℕ → Except Halt (σ × ℕ)
  | [], s => .ok s
  | c :: cs, (buffer, idx) => do
    let buffer ← out c buffer idx maxlen
    outAll cs (buffer, idx + 1)

/-- `_strnlen_s`. -/
def strnlenS : Cells → ℕ → Except Halt ℕ
  | [], _ => .error .outOfBounds
  | none :: _, _ => .error .uninitialised
  | some b :: s, maxsize =>
    if b ≠ 0 ∧ maxsize ≠ 0 then (strnlenS s (maxsize - 1)).map (· + 1) else .ok 0

/-- `_is_digit`. -/
def isDigit (c : Byte) : Prop := 48 ≤ c.toNat ∧ c.toNat ≤ 57

instance (c : Byte) : Decidable (isDigit c) := inferInstanceAs (Decidable (_ ∧ _))

/-- `_atoi`: the number read and the rest of the string. -/
def atoi : U32 → List Byte → Except Halt (U32 × List Byte)
  | _, [] => .error .outOfBounds
  | i, c :: str =>
    if isDigit c then atoi (i * 10 + BitVec.ofNat 32 (c.toNat - 48)) str else .ok (i, c :: str)

/-- `_out_rev`. -/
def outRev (buf : List Byte) (width : ℕ) (flags : Flags) (s : σ × ℕ) : Except Halt (σ × ℕ) := do
  let startIdx := s.2
  let s ← (if ¬ flags.left ∧ ¬ flags.zeropad then
      outAll out maxlen (List.replicate (width - buf.length) (ch ' ')) s
    else pure s)
  let s ← outAll out maxlen buf.reverse s
  if flags.left then outAll out maxlen (List.replicate (width - (s.2 - startIdx)) (ch ' ')) s
  else pure s

/-- `buf[len++] = c`. -/
def push (buf : List Byte) (c : Byte) : Except Halt (List Byte) :=
  if buf.length < 32 then .ok (buf ++ [c]) else .error .outOfBounds

/-- `if (len < PRINTF_NTOA_BUFFER_SIZE) buf[len++] = c`. -/
def pushIf (buf : List Byte) (c : Byte) : Except Halt (List Byte) :=
  if buf.length < 32 then push buf c else pure buf

/-- `while ((len < n) && (len < PRINTF_NTOA_BUFFER_SIZE)) buf[len++] = '0'`. -/
def padTo (n : ℕ) (buf : List Byte) : Except Halt (List Byte) :=
  (List.replicate (min n 32 - buf.length) (ch '0')).foldlM push buf

/-- The part of `_ntoa_format` for `FLAGS_HASH`. -/
def ntoaHash (buf : List Byte) (base prec width : ℕ) (flags : Flags) :
    Except Halt (List Byte) := do
  let buf := if ¬ flags.precision ∧ buf.length ≠ 0 ∧ (buf.length = prec ∨ buf.length = width) then
      if buf.dropLast.length ≠ 0 ∧ base = 16 then buf.dropLast.dropLast else buf.dropLast
    else buf
  let buf ← (if base = 16 ∧ ¬ flags.uppercase then pushIf buf (ch 'x')
    else if base = 16 ∧ flags.uppercase then pushIf buf (ch 'X')
    else if base = 2 then pushIf buf (ch 'b')
    else pure buf)
  pushIf buf (ch '0')

/-- The part of `_ntoa_format` for the sign. -/
def ntoaSign (buf : List Byte) (negative : Bool) (flags : Flags) : Except Halt (List Byte) :=
  if negative then pushIf buf (ch '-')
  else if flags.plus then pushIf buf (ch '+')
  else if flags.space then pushIf buf (ch ' ')
  else pure buf

/-- `_ntoa_format` before it calls `_out_rev`: the buffer and the width. -/
def ntoaBuffer (buf : List Byte) (negative : Bool) (base prec width : ℕ) (flags : Flags) :
    Except Halt (List Byte × ℕ) := do
  let width := if ¬ flags.left ∧ width ≠ 0 ∧ flags.zeropad
      ∧ (negative ∨ flags.plus ∨ flags.space) then width - 1 else width
  let buf ← (if ¬ flags.left then padTo prec buf else pure buf)
  let buf ← (if ¬ flags.left ∧ flags.zeropad then padTo width buf else pure buf)
  let buf ← (if flags.hash then ntoaHash buf base prec width flags else pure buf)
  let buf ← ntoaSign buf negative flags
  return (buf, width)

/-- `_ntoa_format`. -/
def ntoaFormat (buf : List Byte) (negative : Bool) (base prec width : ℕ) (flags : Flags)
    (s : σ × ℕ) : Except Halt (σ × ℕ) := do
  let (buf, width) ← ntoaBuffer buf negative base prec width flags
  outRev out maxlen buf width flags s

/-- A round of the loop over the digits. -/
def digitStep (base : ℕ) (uppercase : Bool) :
    ℕ × List Byte → Except Halt ((ℕ × List Byte) ⊕ List Byte)
  | (value, buf) => do
    let buf ← push buf (digitChar uppercase (value % base))
    if value / base ≠ 0 ∧ buf.length < 32 then return .inl (value / base, buf)
    else return .inr buf

/-- The digits of a number, and the flags that are left. -/
def ntoaDigits (value base : ℕ) (flags : Flags) : Except Halt (List Byte × Flags) := do
  let flags := if value = 0 then { flags with hash := false } else flags
  if ¬ flags.precision ∨ value ≠ 0 then
    return (← iter (digitStep base flags.uppercase) 32 (value, []), flags)
  else return ([], flags)

/-- `_ntoa_long` and `_ntoa_long_long`, which differ in the type of `value` only. -/
def ntoa (value : ℕ) (negative : Bool) (base prec width : ℕ) (flags : Flags) (s : σ × ℕ) :
    Except Halt (σ × ℕ) := do
  let (buf, flags) ← ntoaDigits value base flags
  ntoaFormat out maxlen buf negative base prec width flags s

/-- `_ntoa_long`. -/
def ntoaLong := ntoa out maxlen

/-- `_ntoa_long_long`. -/
def ntoaLongLong := ntoa out maxlen

end

/-! ### The arguments and the format -/

section

variable {D : DataModel} {R : Reals}

/-- `va_arg(va, int)` and `va_arg(va, unsigned int)`. -/
def vaInt : List (Arg D R) → Except Halt (U32 × List (Arg D R))
  | .int v :: va => .ok (v, va)
  | _ => .error .outOfBounds

/-- `va_arg(va, long)` and `va_arg(va, unsigned long)`. -/
def vaLong : List (Arg D R) → Except Halt (BitVec D.long.bits × List (Arg D R))
  | .long v :: va => .ok (v, va)
  | _ => .error .outOfBounds

/-- `va_arg(va, long long)` and `va_arg(va, unsigned long long)`. -/
def vaLongLong : List (Arg D R) → Except Halt (U64 × List (Arg D R))
  | .longLong v :: va => .ok (v, va)
  | _ => .error .outOfBounds

/-- `va_arg(va, void*)`. -/
def vaPtr : List (Arg D R) → Except Halt (BitVec D.ptr.bits × List (Arg D R))
  | .ptr v :: va => .ok (v, va)
  | _ => .error .outOfBounds

/-- `va_arg(va, char*)`, of which something is read. -/
def vaStr : List (Arg D R) → Except Halt (Cells × List (Arg D R))
  | .str (some p) :: va => .ok (p, va)
  | .str none :: _ => .error .nullPointer
  | _ => .error .outOfBounds

/-- `va_arg(va, double)`. -/
def vaDouble : List (Arg D R) → Except Halt (R.double × List (Arg D R))
  | .double x :: va => .ok (x, va)
  | _ => .error .outOfBounds

/-- `*format`. -/
def peek : List Byte → Except Halt Byte
  | [] => .error .outOfBounds
  | c :: _ => .ok c

/-- The flags of a directive. -/
def readFlags : Flags → List Byte → Except Halt (Flags × List Byte)
  | _, [] => .error .outOfBounds
  | flags, c :: format =>
    if c = ch '0' then readFlags { flags with zeropad := true } format
    else if c = ch '-' then readFlags { flags with left := true } format
    else if c = ch '+' then readFlags { flags with plus := true } format
    else if c = ch ' ' then readFlags { flags with space := true } format
    else if c = ch '#' then readFlags { flags with hash := true } format
    else .ok (flags, c :: format)

/-- The width of a directive. -/
def readWidth (flags : Flags) (format : List Byte) (va : List (Arg D R)) :
    Except Halt (Flags × ℕ × List Byte × List (Arg D R)) := do
  let c ← peek format
  if isDigit c then
    let (width, format) ← atoi 0 format
    return (flags, width.toNat, format, va)
  else if c = ch '*' then
    let (w, va) ← vaInt va
    if w.toInt < 0 then return ({ flags with left := true }, (-w).toNat, format.tail, va)
    else return (flags, w.toNat, format.tail, va)
  else return (flags, 0, format, va)

/-- The precision of a directive. -/
def readPrecision (flags : Flags) (format : List Byte) (va : List (Arg D R)) :
    Except Halt (Flags × ℕ × List Byte × List (Arg D R)) := do
  let c ← peek format
  if c = ch '.' then
    let flags := { flags with precision := true }
    let format := format.tail
    let c ← peek format
    if isDigit c then
      let (precision, format) ← atoi 0 format
      return (flags, precision.toNat, format, va)
    else if c = ch '*' then
      let (prec, va) ← vaInt va
      return (flags, if 0 < prec.toInt then prec.toNat else 0, format.tail, va)
    else return (flags, 0, format, va)
  else return (flags, 0, format, va)

/-- `FLAGS_LONG` for a type as wide as `long`, else `FLAGS_LONG_LONG`. -/
def Flags.sized (flags : Flags) (w long : Width) : Flags :=
  if w = long then { flags with long := true } else { flags with longLong := true }

/-- The length modifier of a directive. -/
def readLength (D : DataModel) (flags : Flags) (format : List Byte) :
    Except Halt (Flags × List Byte) := do
  let c ← peek format
  if c = ch 'l' then
    let flags := { flags with long := true }
    if (← peek format.tail) = ch 'l' then return ({ flags with longLong := true }, format.tail.tail)
    else return (flags, format.tail)
  else if c = ch 'h' then
    let flags := { flags with short := true }
    if (← peek format.tail) = ch 'h' then return ({ flags with char := true }, format.tail.tail)
    else return (flags, format.tail)
  else if c = ch 't' then return (flags.sized D.ptr D.long, format.tail)
  else if c = ch 'j' then return (flags.sized .w64 D.long, format.tail)
  else if c = ch 'z' then return (flags.sized D.ptr D.long, format.tail)
  else return (flags, format)

/-- A directive up to its specifier: the flags, the width, the precision and the rest of the format
and of the arguments. -/
def readDirective (D : DataModel) {R : Reals} (format : List Byte) (va : List (Arg D R)) :
    Except Halt (Flags × ℕ × ℕ × List Byte × List (Arg D R)) := do
  let (flags, format) ← readFlags {} format
  let (flags, width, format, va) ← readWidth flags format va
  let (flags, precision, format, va) ← readPrecision flags format va
  let (flags, format) ← readLength D flags format
  return (flags, width, precision, format, va)

/-! ### The conversions -/

/-- `d`, `i`, `u`, `x`, `X`, `o` and `b`. -/
def isInteger (c : Byte) : Prop := c ∈ [ch 'd', ch 'i', ch 'u', ch 'x', ch 'X', ch 'o', ch 'b']

instance (c : Byte) : Decidable (isInteger c) := inferInstanceAs (Decidable (_ ∈ _))

/-- `d` and `i`. -/
def isSigned (c : Byte) : Prop := c = ch 'i' ∨ c = ch 'd'

instance (c : Byte) : Decidable (isSigned c) := inferInstanceAs (Decidable (_ ∨ _))

/-- The base of a conversion. -/
def baseOf (c : Byte) : ℕ :=
  if c = ch 'x' ∨ c = ch 'X' then 16 else if c = ch 'o' then 8 else if c = ch 'b' then 2 else 10

/-- The flags that a conversion of an integer keeps. -/
def integerFlags (c : Byte) (flags : Flags) : Flags :=
  let flags := if baseOf c = 10 then { flags with hash := false } else flags
  let flags := if c = ch 'X' then { flags with uppercase := true } else flags
  let flags := if ¬ isSigned c then { flags with plus := false, space := false } else flags
  if flags.precision then { flags with zeropad := false } else flags

/-- `value > 0 ? value : 0 - value`. The subtraction overflows for the least number in the source, and
wraps here. -/
def magnitude {w : ℕ} (v : BitVec w) : BitVec w := if 0 < v.toInt then v else 0 - v

/-- The value of a signed conversion without `l`. -/
def signedInt (D : DataModel) (flags : Flags) (v : U32) : U32 :=
  if flags.char then
    if D.charSigned then (v.setWidth 8).signExtend 32 else (v.setWidth 8).setWidth 32
  else if flags.short then (v.setWidth 16).signExtend 32 else v

/-- The value of an unsigned conversion without `l`. -/
def unsignedInt (flags : Flags) (v : U32) : U32 :=
  if flags.char then (v.setWidth 8).setWidth 32
  else if flags.short then (v.setWidth 16).setWidth 32 else v

/-- The number that a conversion of an integer takes from the arguments, and whether it is
negative. -/
def integerArg (c : Byte) (flags : Flags) (va : List (Arg D R)) :
    Except Halt (ℕ × Bool × List (Arg D R)) := do
  if flags.longLong then
    let (v, va) ← vaLongLong va
    if isSigned c then return ((magnitude v).toNat, decide (v.toInt < 0), va)
    else return (v.toNat, false, va)
  else if flags.long then
    let (v, va) ← vaLong va
    if isSigned c then return ((magnitude v).toNat, decide (v.toInt < 0), va)
    else return (v.toNat, false, va)
  else
    let (v, va) ← vaInt va
    if isSigned c then
      return ((magnitude (signedInt D flags v)).toNat, decide ((signedInt D flags v).toInt < 0), va)
    else return ((unsignedInt flags v).toNat, false, va)

variable {σ : Type} (out : OutFct σ) (maxlen : ℕ)

/-- `while ((*p != 0) && (!(flags & FLAGS_PRECISION) || precision--)) out(*(p++), ..)`. -/
def outStr : Option ℕ → Cells → σ × ℕ → Except Halt (σ × ℕ)
  | _, [], _ => .error .outOfBounds
  | _, none :: _, _ => .error .uninitialised
  | precision, some b :: p, s =>
    if b = 0 ∨ precision = some 0 then .ok s
    else do
      let s ← outAll out maxlen [b] s
      outStr (precision.map (· - 1)) p s

/-- The padding of `%c` and `%s` for a text of the length `l`. -/
def pads (width l : ℕ) : List Byte := List.replicate (width - l) (ch ' ')

/-- The conversion `%c`. -/
def convertChar (flags : Flags) (width : ℕ) (va : List (Arg D R)) (s : σ × ℕ) :
    Except Halt (List (Arg D R) × σ × ℕ) := do
  let s ← (if ¬ flags.left then outAll out maxlen (pads width 1) s else pure s)
  let (v, va) ← vaInt va
  let s ← outAll out maxlen [v.setWidth 8] s
  let s ← (if flags.left then outAll out maxlen (pads width 1) s else pure s)
  return (va, s)

/-- The conversion `%s`. -/
def convertStr (flags : Flags) (width precision : ℕ) (va : List (Arg D R)) (s : σ × ℕ) :
    Except Halt (List (Arg D R) × σ × ℕ) := do
  let (p, va) ← vaStr va
  let l ← strnlenS p (if precision ≠ 0 then precision else 2 ^ D.ptr.bits - 1)
  let l := l % 2 ^ 32
  let l := if flags.precision then min l precision else l
  let s ← (if ¬ flags.left then outAll out maxlen (pads width l) s else pure s)
  let s ← outStr out maxlen (if flags.precision then some precision else none) p s
  let s ← (if flags.left then outAll out maxlen (pads width l) s else pure s)
  return (va, s)

/-- The flags with which a conversion of a floating-point number is made. -/
def realFlags (c : Byte) (flags : Flags) : Flags :=
  let flags := if c = ch 'g' ∨ c = ch 'G' then { flags with adaptExp := true } else flags
  if c = ch 'F' ∨ c = ch 'E' ∨ c = ch 'G' then { flags with uppercase := true } else flags

/-- The conversion by the specifier `c`. -/
def convert (c : Byte) (flags : Flags) (width precision : ℕ) (va : List (Arg D R)) (s : σ × ℕ) :
    Except Halt (List (Arg D R) × σ × ℕ) := do
  if isInteger c then
    let flags := integerFlags c flags
    let (value, negative, va) ← integerArg c flags va
    let put := if flags.longLong then ntoaLongLong out maxlen else ntoaLong out maxlen
    return (va, ← put value negative (baseOf c) precision width flags s)
  else if c = ch 'f' ∨ c = ch 'F' then
    let (x, va) ← vaDouble va
    return (va, ← outAll out maxlen (R.ftoa x precision width (realFlags c flags)) s)
  else if c = ch 'e' ∨ c = ch 'E' ∨ c = ch 'g' ∨ c = ch 'G' then
    let (x, va) ← vaDouble va
    return (va, ← outAll out maxlen (R.etoa x precision width (realFlags c flags)) s)
  else if c = ch 'c' then convertChar out maxlen flags width va s
  else if c = ch 's' then convertStr out maxlen flags width precision va s
  else if c = ch 'p' then
    let flags := { flags with zeropad := true, uppercase := true }
    let (v, va) ← vaPtr va
    let put := if D.ptr = .w64 then ntoaLongLong out maxlen else ntoaLong out maxlen
    return (va, ← put v.toNat false 16 precision (D.ptr.bits / 8 * 2) flags s)
  else return (va, ← outAll out maxlen [c] s)

/-- A round of the loop of `_vsnprintf`: a character of the format, or a directive. -/
def formatStep : List Byte × List (Arg D R) × σ × ℕ →
    Except Halt ((List Byte × List (Arg D R) × σ × ℕ) ⊕ (σ × ℕ))
  | (format, va, s) => do
    let c ← peek format
    if c = 0 then return .inr s
    else if c ≠ ch '%' then return .inl (format.tail, va, ← outAll out maxlen [c] s)
    else
      let (flags, width, precision, format, va) ← readDirective D format.tail va
      let c ← peek format
      let (va, s) ← convert out maxlen c flags width precision va s
      return .inl (format.tail, va, s)

/-- `_vsnprintf`. Every round takes a character of the format at least. -/
def vsnprintf (format : List Byte) (va : List (Arg D R)) (buffer : σ) : Except Halt (σ × ℤ) := do
  let (buffer, idx) ← iter (formatStep out maxlen) (format.length + 1) (format, va, buffer, 0)
  let size := 2 ^ D.ptr.bits
  let buffer ← out 0 buffer
    (if idx % size < maxlen then idx % size else (maxlen + (size - 1)) % size) maxlen
  return (buffer, (BitVec.ofNat 32 idx).toInt)

/-- `snprintf_` and `vsnprintf_`. -/
def snprintf (buffer : Option Cells) (count : ℕ) (format : List Byte) (va : List (Arg D R)) :
    Except Halt (Option Cells × ℤ) :=
  match buffer with
  | none => do
    let ((), ret) ← vsnprintf outNull count format va ()
    return (none, ret)
  | some buffer => do
    let (buffer, ret) ← vsnprintf (outBuffer (2 ^ D.ptr.bits)) count format va buffer
    return (some buffer, ret)

/-- `sprintf_`. -/
def sprintf (buffer : Option Cells) (format : List Byte) (va : List (Arg D R)) :
    Except Halt (Option Cells × ℤ) := snprintf buffer (2 ^ D.ptr.bits - 1) format va

/-- `printf_` and `vprintf_`: what is printed and the result. -/
def printf (format : List Byte) (va : List (Arg D R)) : Except Halt (List Byte × ℤ) :=
  vsnprintf outChar (2 ^ D.ptr.bits - 1) format va []

/-- `fctprintf`. -/
def fctprintf (fct : Byte → σ → Except Halt σ) (arg : σ) (format : List Byte)
    (va : List (Arg D R)) : Except Halt (σ × ℤ) :=
  vsnprintf (outFct fct) (2 ^ D.ptr.bits - 1) format va arg

end

end EverythingNet.Printf
