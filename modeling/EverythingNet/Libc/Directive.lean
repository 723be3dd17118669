import Mathlib.Tactic
import EverythingNet.Libc.Layout

/-!
Formats of `printf`.

* `Directive`, `Piece`: a format in its parts, `Directive.bytes` and `Piece.bytes` how it is written.
  `Directive.settings`, `meaning`: what it says.
* `atoi_numeral`, `readFlags_bytes`, `readWidth_bytes`, `readPrecision_bytes`, `readLength_bytes`:
  each part is read as what was written. `readDirective_bytes` is the round trip of a directive.
* `textOf_pieces`: what is put out for a format is what its parts say, and `printf_pieces`.
* `roundText_shorter`: a round takes a character of the format at least, so that the loop ends
  (`formatText_fuel`). `percent_overruns`: a format that ends with `%` is read beyond its end.
-/

namespace EverythingNet.Printf

open CMem Numeral

/-! ### Formats -/

/-- A flag of a directive. -/
inductive FlagChar where
  | zero
  | minus
  | plus
  | space
  | hash
  deriving DecidableEq

/-- A width or a precision: a number, or `*` for one of the arguments. -/
inductive Amount where
  | number (n : ℕ)
  | star
  deriving DecidableEq

/-- A length modifier. -/
inductive Modifier where
  | hh
  | h
  | l
  | ll
  | t
  | j
  | z
  deriving DecidableEq

/-- A directive; a precision may be a dot alone. -/
structure Directive where
  flags : List FlagChar
  width : Option Amount
  precision : Option (Option Amount)
  modifier : Option Modifier
  specifier : Byte

/-- A part of a format. -/
inductive Piece where
  | literal (c : Byte)
  | directive (d : Directive)

namespace FlagChar

def char : FlagChar → Byte
  | zero => ch '0'
  | minus => ch '-'
  | plus => ch '+'
  | space => ch ' '
  | hash => ch '#'

/-- What a flag sets. -/
def set (flags : Flags) : FlagChar → Flags
  | zero => { flags with zeropad := true }
  | minus => { flags with left := true }
  | plus => { flags with plus := true }
  | space => { flags with space := true }
  | hash => { flags with hash := true }

end FlagChar

namespace Amount

def bytes : Amount → List Byte
  | number n => numeral 10 false n
  | star => [ch '*']

/-- How an amount is written, if there is one. -/
def optBytes (a : Option Amount) : List Byte := (a.map bytes).getD []

end Amount

namespace Modifier

def bytes : Modifier → List Byte
  | hh => [ch 'h', ch 'h']
  | h => [ch 'h']
  | l => [ch 'l']
  | ll => [ch 'l', ch 'l']
  | t => [ch 't']
  | j => [ch 'j']
  | z => [ch 'z']

/-- What a modifier sets. -/
def set (D : DataModel) (flags : Flags) : Modifier → Flags
  | hh => { flags with short := true, char := true }
  | h => { flags with short := true }
  | l => { flags with long := true }
  | ll => { flags with long := true, longLong := true }
  | t => flags.sized D.ptr D.long
  | j => flags.sized .w64 D.long
  | z => flags.sized D.ptr D.long

/-- How a modifier is written, if there is one. -/
def optBytes (m : Option Modifier) : List Byte := (m.map bytes).getD []

end Modifier

/-- How a precision is written, if there is one. -/
def precisionBytes : Option (Option Amount) → List Byte
  | none => []
  | some a => ch '.' :: Amount.optBytes a

/-- How a directive is written behind `%`. -/
def Directive.bytes (d : Directive) : List Byte :=
  d.flags.map FlagChar.char ++ (Amount.optBytes d.width ++ (precisionBytes d.precision
    ++ (Modifier.optBytes d.modifier ++ [d.specifier])))

def Piece.bytes : Piece → List Byte
  | literal c => [c]
  | directive d => ch '%' :: d.bytes

/-- A character that means something before the specifier. -/
def Reserved (c : Byte) : Prop :=
  isDigit c ∨ c ∈ [ch '-', ch '+', ch ' ', ch '#', ch '*', ch '.', ch 'l', ch 'h', ch 't', ch 'j',
    ch 'z']

instance (c : Byte) : Decidable (Reserved c) := inferInstanceAs (Decidable (_ ∨ _))

/-- A number is in range, if there is one. -/
def Amount.InRange (least : ℕ) : Option Amount → Prop
  | some (number n) => least ≤ n ∧ n < 2 ^ 32
  | _ => True

instance (least : ℕ) : (a : Option Amount) → Decidable (Amount.InRange least a)
  | some (.number _) => inferInstanceAs (Decidable (_ ∧ _))
  | some .star => inferInstanceAs (Decidable True)
  | none => inferInstanceAs (Decidable True)

/-- A directive that can be written: its numbers fit, and its specifier is none of the characters
before. -/
structure Directive.Ok (d : Directive) : Prop where
  width : Amount.InRange 1 d.width
  precision : Amount.InRange 0 d.precision.join
  specifier : ¬ Reserved d.specifier

instance (d : Directive) : Decidable d.Ok :=
  decidable_of_iff (Amount.InRange 1 d.width ∧ Amount.InRange 0 d.precision.join
      ∧ ¬ Reserved d.specifier)
    ⟨fun h => ⟨h.1, h.2.1, h.2.2⟩, fun h => ⟨h.width, h.precision, h.specifier⟩⟩

def Piece.Ok : Piece → Prop
  | literal c => c ≠ 0 ∧ c ≠ ch '%'
  | directive d => d.Ok

instance : (p : Piece) → Decidable p.Ok
  | .literal _ => inferInstanceAs (Decidable (_ ∧ _))
  | .directive d => inferInstanceAs (Decidable d.Ok)

/-! ### What formats say -/

section

variable {D : DataModel} {R : Reals}

/-- The width: a negative one is a flag and a positive one. -/
def widthOf (flags : Flags) (va : List (Arg D R)) :
    Option Amount → Except Halt (Flags × ℕ × List (Arg D R))
  | none => .ok (flags, 0, va)
  | some (.number n) => .ok (flags, n, va)
  | some .star => do
    let (w, va) ← vaInt va
    if w.toInt < 0 then return ({ flags with left := true }, (-w).toNat, va)
    else return (flags, w.toNat, va)

/-- The precision: a negative one is zero. -/
def precisionOf (flags : Flags) (va : List (Arg D R)) :
    Option (Option Amount) → Except Halt (Flags × ℕ × List (Arg D R))
  | none => .ok (flags, 0, va)
  | some none => .ok ({ flags with precision := true }, 0, va)
  | some (some (.number n)) => .ok ({ flags with precision := true }, n, va)
  | some (some .star) => do
    let (p, va) ← vaInt va
    return ({ flags with precision := true }, if 0 < p.toInt then p.toNat else 0, va)

/-- The flags, the width and the precision of a directive. -/
def Directive.settings (d : Directive) (va : List (Arg D R)) :
    Except Halt (Flags × ℕ × ℕ × List (Arg D R)) := do
  let (flags, width, va) ← widthOf (d.flags.foldl FlagChar.set {}) va d.width
  let (flags, precision, va) ← precisionOf flags va d.precision
  return (d.modifier.elim flags (Modifier.set D flags), width, precision, va)

/-- What a part of a format puts out. -/
def Piece.text : Piece → List (Arg D R) → Except Halt (List (Arg D R) × List Byte)
  | literal c, va => .ok (va, [c])
  | directive d, va => do
    let (flags, width, precision, va) ← d.settings va
    convertText d.specifier flags width precision va

/-- What the parts of a format put out. -/
def meaning : List Piece → List (Arg D R) → Except Halt (List (Arg D R) × List Byte)
  | [], va => .ok (va, [])
  | p :: ps, va => do
    let (va, text) ← p.text va
    (meaning ps va).map fun x => (x.1, text ++ x.2)

/-! ### The parts of a directive -/

/-- The text starts with a character that has the property. -/
def Starts (p : Byte → Prop) (l : List Byte) : Prop := ∃ c l', l = c :: l' ∧ p c

lemma Starts.mono {p q : Byte → Prop} {l : List Byte} (h : Starts p l) (hpq : ∀ c, p c → q c) :
    Starts q l := by
  obtain ⟨c, l', rfl, hc⟩ := h
  exact ⟨c, l', rfl, hpq c hc⟩

/-- No flag. -/
def NoFlag (c : Byte) : Prop := c ∉ [ch '0', ch '-', ch '+', ch ' ', ch '#']

/-- Neither a flag nor the start of a width. -/
def NoWidth (c : Byte) : Prop := NoFlag c ∧ ¬ isDigit c ∧ c ≠ ch '*'

/-- Nor the start of a precision. -/
def NoPrecision (c : Byte) : Prop := NoWidth c ∧ c ≠ ch '.'

lemma noPrecision_of_not_reserved {c : Byte} (h : ¬ Reserved c) : NoPrecision c := by
  rw [Reserved, not_or] at h
  obtain ⟨hdigit, hmem⟩ := h
  simp only [List.mem_cons, List.not_mem_nil, or_false, not_or] at hmem
  refine ⟨⟨?_, hdigit, hmem.2.2.2.2.1⟩, hmem.2.2.2.2.2.1⟩
  simp only [NoFlag, List.mem_cons, List.not_mem_nil, or_false, not_or]
  refine ⟨?_, hmem.1, hmem.2.1, hmem.2.2.1, hmem.2.2.2.1⟩
  rintro rfl
  exact hdigit (by decide)

lemma readFlags_bytes (fs : List FlagChar) {l : List Byte} (hl : Starts NoFlag l) :
    ∀ flags : Flags, readFlags flags (fs.map FlagChar.char ++ l)
      = .ok (fs.foldl FlagChar.set flags, l) := by
  induction fs with
  | nil =>
      intro flags
      obtain ⟨c, l', rfl, hc⟩ := hl
      simp only [NoFlag, List.mem_cons, List.not_mem_nil, or_false, not_or] at hc
      obtain ⟨h0, h1, h2, h3, h4⟩ := hc
      rw [List.map_nil, List.nil_append, readFlags, if_neg h0, if_neg h1, if_neg h2, if_neg h3,
        if_neg h4]
      rfl
  | cons f fs ih =>
      intro flags
      rw [List.map_cons, List.cons_append, List.foldl_cons, ← ih]
      cases f <;> rfl

/-- Digits are read as the number they stand for. -/
lemma atoi_digits {ds : List Byte} (hds : ∀ c ∈ ds, isDigit c) {l : List Byte}
    (hl : Starts (fun c => ¬ isDigit c) l) :
    ∀ i : U32, atoi i (ds ++ l)
      = .ok (i * BitVec.ofNat 32 (10 ^ ds.length) + BitVec.ofNat 32 (valueOf 10 ds), l) := by
  induction ds with
  | nil =>
      intro i
      obtain ⟨c, l', rfl, hc⟩ := hl
      rw [List.nil_append, atoi, if_neg hc]
      simp [valueOf]
  | cons c ds ih =>
      intro i
      have hc := hds c (List.mem_cons_self ..)
      have hdigit : charDigit c = c.toNat - 48 := by
        rw [charDigit, if_pos (by have := hc.2; omega)]
      rw [List.cons_append, atoi, if_pos hc, ih fun c hc => hds c (List.mem_cons_of_mem _ hc),
        valueOf_cons, hdigit, List.length_cons, Nat.pow_succ]
      simp only [BitVec.ofNat_add, BitVec.ofNat_mul]
      congr 2
      rw [BitVec.add_mul, BitVec.mul_assoc, BitVec.add_assoc, BitVec.mul_comm (10 : U32)]
      rfl

/-- A numeral is read as its number. -/
lemma atoi_numeral {n : ℕ} {l : List Byte} (hl : Starts (fun c => ¬ isDigit c) l) :
    atoi 0 (numeral 10 false n ++ l) = .ok (BitVec.ofNat 32 n, l) := by
  rw [atoi_digits (fun c hc => isDigit_of_mem_numeral hc) hl,
    valueOf_numeral (by norm_num) (by norm_num)]
  simp

/-- What follows an amount is told apart from it. -/
lemma exists_numeral_digit (n : ℕ) : ∃ c l, numeral 10 false n = c :: l ∧ isDigit c := by
  obtain ⟨c, l, h⟩ := List.exists_cons_of_length_pos (numeral_length_pos 10 false n)
  exact ⟨c, l, h, isDigit_of_mem_numeral (by rw [h]; exact List.mem_cons_self ..)⟩

lemma readWidth_bytes {a : Option Amount} (ha : Amount.InRange 1 a)
    {l : List Byte} (hl : Starts NoWidth l) (flags : Flags) (va : List (Arg D R)) :
    readWidth flags (Amount.optBytes a ++ l) va
      = (widthOf flags va a).map fun x => (x.1, x.2.1, l, x.2.2) := by
  rcases a with _ | n | _
  · obtain ⟨c, l', rfl, -, hdigit, hstar⟩ := hl
    dsimp only [Amount.optBytes, readWidth]
    rw [Option.map_none, Option.getD_none, List.nil_append, peek, ok_bind, if_neg hdigit,
      if_neg hstar]
    rfl
  · obtain ⟨c, ds, hc, hdigit⟩ := exists_numeral_digit n
    have hpeek : peek (numeral 10 false n ++ l) = .ok c := by
      rw [hc]
      rfl
    dsimp only [Amount.optBytes, readWidth]
    rw [Option.map_some, Option.getD_some, Amount.bytes, hpeek, ok_bind, if_pos hdigit,
      atoi_numeral (hl.mono fun c hc => hc.2.1), ok_bind]
    dsimp only
    rw [BitVec.toNat_ofNat, Nat.mod_eq_of_lt ha.2]
    rfl
  · dsimp only [Amount.optBytes, readWidth, widthOf]
    rw [Option.map_some, Option.getD_some, Amount.bytes, List.singleton_append, peek, ok_bind,
      if_neg (by decide), if_pos rfl]
    cases vaInt va with
    | error e => rfl
    | ok x =>
        obtain ⟨w, va'⟩ := x
        rw [ok_bind, ok_bind]
        split_ifs <;> rfl

lemma readPrecision_bytes {p : Option (Option Amount)}
    (hp : Amount.InRange 0 p.join) {l : List Byte}
    (hl : Starts NoPrecision l) (flags : Flags) (va : List (Arg D R)) :
    readPrecision flags (precisionBytes p ++ l) va
      = (precisionOf flags va p).map fun x => (x.1, x.2.1, l, x.2.2) := by
  rcases p with _ | _ | n | _
  · obtain ⟨c, l', rfl, -, hdot⟩ := hl
    dsimp only [precisionBytes, readPrecision]
    rw [List.nil_append, peek, ok_bind, if_neg hdot]
    rfl
  · obtain ⟨c, l', rfl, ⟨-, hdigit, hstar⟩, -⟩ := hl
    dsimp only [precisionBytes, readPrecision]
    rw [List.cons_append, peek, ok_bind, if_pos rfl, List.tail_cons, Amount.optBytes,
      Option.map_none, Option.getD_none, List.nil_append, peek, ok_bind, if_neg hdigit,
      if_neg hstar]
    rfl
  · obtain ⟨c, ds, hc, hdigit⟩ := exists_numeral_digit n
    have hpeek : peek (numeral 10 false n ++ l) = .ok c := by
      rw [hc]
      rfl
    dsimp only [precisionBytes, readPrecision]
    rw [List.cons_append, peek, ok_bind, if_pos rfl, List.tail_cons, Amount.optBytes,
      Option.map_some, Option.getD_some, Amount.bytes, hpeek, ok_bind, if_pos hdigit,
      atoi_numeral (hl.mono fun c hc => hc.1.2.1), ok_bind]
    dsimp only
    rw [BitVec.toNat_ofNat, Nat.mod_eq_of_lt hp.2]
    rfl
  · dsimp only [precisionBytes, readPrecision, precisionOf]
    rw [List.cons_append, peek, ok_bind, if_pos rfl, List.tail_cons, Amount.optBytes,
      Option.map_some, Option.getD_some, Amount.bytes, List.singleton_append, peek, ok_bind,
      if_neg (by decide), if_pos rfl]
    cases vaInt va <;> rfl

lemma readLength_bytes (m : Option Modifier) {c : Byte} (hc : ¬ Reserved c) (rest : List Byte)
    (flags : Flags) :
    readLength D flags (Modifier.optBytes m ++ c :: rest)
      = .ok (m.elim flags (Modifier.set D flags), c :: rest) := by
  rw [Reserved, not_or] at hc
  have hmem := hc.2
  simp only [List.mem_cons, List.not_mem_nil, or_false, not_or] at hmem
  obtain ⟨-, -, -, -, -, -, hl, hh, ht, hj, hz⟩ := hmem
  rcases m with _ | m
  · rw [Modifier.optBytes, Option.map_none, Option.getD_none, List.nil_append, readLength, peek,
      ok_bind, if_neg hl, if_neg hh, if_neg ht, if_neg hj, if_neg hz]
    rfl
  · rw [Modifier.optBytes, Option.map_some, Option.getD_some]
    cases m with
    | h =>
        simp only [Modifier.bytes, List.singleton_append, readLength, peek, ok_bind,
          List.tail_cons, if_neg hh]
        rfl
    | l =>
        simp only [Modifier.bytes, List.singleton_append, readLength, peek, ok_bind,
          List.tail_cons, if_neg hl]
        rfl
    | hh => rfl
    | ll => rfl
    | t => rfl
    | j => rfl
    | z => rfl

/-- What follows the width, the precision and the modifier. -/
lemma starts_modifier (m : Option Modifier) {c : Byte} (hc : ¬ Reserved c) (rest : List Byte) :
    Starts NoPrecision (Modifier.optBytes m ++ c :: rest) := by
  rcases m with _ | m
  · exact ⟨c, rest, rfl, noPrecision_of_not_reserved hc⟩
  · cases m <;> exact ⟨_, _, rfl, by unfold NoPrecision NoWidth NoFlag; decide⟩

lemma starts_precision (p : Option (Option Amount)) {l : List Byte} (hl : Starts NoPrecision l) :
    Starts NoWidth (precisionBytes p ++ l) := by
  cases p with
  | none => exact hl.mono fun c hc => hc.1
  | some a => exact ⟨_, _, rfl, by unfold NoWidth NoFlag; decide⟩

lemma starts_width {a : Option Amount} (ha : Amount.InRange 1 a) {l : List Byte}
    (hl : Starts NoWidth l) : Starts NoFlag (Amount.optBytes a ++ l) := by
  rcases a with _ | n | _
  · exact hl.mono fun c hc => hc.1
  · obtain ⟨d, ds, hn, hd, hd'⟩ : ∃ d ds, numeral 10 false n = digitChar false d :: ds
        ∧ 0 < d ∧ d < 10 := exists_numeral_eq_cons (by norm_num) (by have := ha.1; omega)
    refine ⟨digitChar false d, ds ++ l, by rw [Amount.optBytes, Option.map_some, Option.getD_some,
      Amount.bytes, hn, List.cons_append], ?_⟩
    interval_cases d <;> unfold NoFlag <;> decide
  · exact ⟨_, _, rfl, by unfold NoFlag; decide⟩

/-- A directive is read as what it was written for. -/
lemma readDirective_bytes {d : Directive} (hd : d.Ok) (rest : List Byte) (va : List (Arg D R)) :
    readDirective D (d.bytes ++ rest) va = (d.settings va).map fun x =>
      (x.1, x.2.1, x.2.2.1, d.specifier :: rest, x.2.2.2) := by
  have hmodifier := starts_modifier d.modifier hd.specifier rest
  have hprecision := starts_precision d.precision hmodifier
  rw [readDirective, Directive.bytes, List.append_assoc, List.append_assoc, List.append_assoc,
    List.append_assoc, List.singleton_append,
    readFlags_bytes _ (starts_width hd.width hprecision), ok_bind]
  dsimp only
  rw [readWidth_bytes hd.width hprecision, Directive.settings]
  cases widthOf (d.flags.foldl FlagChar.set {}) va d.width with
  | error e => rfl
  | ok x =>
      obtain ⟨flags, width, va'⟩ := x
      rw [Except.map, ok_bind, ok_bind]
      dsimp only
      rw [readPrecision_bytes hd.precision hmodifier]
      cases precisionOf flags va' d.precision with
      | error e => rfl
      | ok x =>
          obtain ⟨flags', precision, va''⟩ := x
          rw [Except.map, ok_bind, ok_bind]
          dsimp only
          rw [readLength_bytes d.modifier hd.specifier]
          rfl

/-! ### The loop over the format -/

lemma readFlags_length (format : List Byte) :
    ∀ {flags flags' : Flags} {format' : List Byte},
      readFlags flags format = .ok (flags', format') → format'.length ≤ format.length := by
  induction format with
  | nil =>
      intro flags flags' format' h
      exact absurd h (by simp [readFlags])
  | cons c format ih =>
      intro flags flags' format' h
      rw [readFlags] at h
      rw [List.length_cons]
      split_ifs at h
      iterate 5
        have := ih h
        omega
      obtain ⟨-, rfl⟩ := Prod.mk.inj (Except.ok.inj h)
      exact le_rfl

lemma atoi_length (format : List Byte) :
    ∀ {i n : U32} {format' : List Byte},
      atoi i format = .ok (n, format') → format'.length ≤ format.length := by
  induction format with
  | nil =>
      intro i n format' h
      exact absurd h (by simp [atoi])
  | cons c format ih =>
      intro i n format' h
      rw [atoi] at h
      rw [List.length_cons]
      split_ifs at h
      · have := ih h
        omega
      · obtain ⟨-, rfl⟩ := Prod.mk.inj (Except.ok.inj h)
        exact le_rfl

lemma readWidth_length {flags flags' : Flags} {format format' : List Byte} {width : ℕ}
    {va va' : List (Arg D R)}
    (h : readWidth flags format va = .ok (flags', width, format', va')) :
    format'.length ≤ format.length := by
  obtain ⟨c, -, h⟩ := bind_eq_ok.mp h
  split_ifs at h
  · obtain ⟨x, hx, h⟩ := bind_eq_ok.mp h
    obtain ⟨-, -, rfl, -⟩ := by simpa using h
    exact atoi_length format hx
  · obtain ⟨x, -, h⟩ := bind_eq_ok.mp h
    dsimp only at h
    split_ifs at h <;> obtain ⟨-, -, rfl, -⟩ := by simpa using h
    all_goals simp
  · obtain ⟨-, -, rfl, -⟩ := by simpa using h
    exact le_rfl

lemma readPrecision_length {flags flags' : Flags} {format format' : List Byte} {precision : ℕ}
    {va va' : List (Arg D R)}
    (h : readPrecision flags format va = .ok (flags', precision, format', va')) :
    format'.length ≤ format.length := by
  obtain ⟨c, -, h⟩ := bind_eq_ok.mp h
  split_ifs at h with hdot
  · obtain ⟨c', -, h⟩ := bind_eq_ok.mp h
    have htail : format.tail.length ≤ format.length := by simp
    split_ifs at h
    · obtain ⟨x, hx, h⟩ := bind_eq_ok.mp h
      obtain ⟨-, -, rfl, -⟩ := by simpa using h
      exact (atoi_length _ hx).trans htail
    · obtain ⟨x, -, h⟩ := bind_eq_ok.mp h
      obtain ⟨-, -, rfl, -⟩ := by simpa using h
      simp
      omega
    · obtain ⟨-, -, rfl, -⟩ := by simpa using h
      exact htail
  · obtain ⟨-, -, rfl, -⟩ := by simpa using h
    exact le_rfl

lemma readLength_length {flags flags' : Flags} {format format' : List Byte}
    (h : readLength D flags format = .ok (flags', format')) : format'.length ≤ format.length := by
  have htail : format.tail.length ≤ format.length := by simp
  have htail' : format.tail.tail.length ≤ format.length := by simp; omega
  obtain ⟨c, -, h⟩ := bind_eq_ok.mp h
  split_ifs at h
  · obtain ⟨c', -, h⟩ := bind_eq_ok.mp h
    split_ifs at h <;> obtain ⟨-, rfl⟩ := by simpa using h
    · exact htail'
    · exact htail
  · obtain ⟨c', -, h⟩ := bind_eq_ok.mp h
    split_ifs at h <;> obtain ⟨-, rfl⟩ := by simpa using h
    · exact htail'
    · exact htail
  all_goals obtain ⟨-, rfl⟩ := by simpa using h
  · exact htail
  · exact htail
  · exact htail
  · exact le_rfl

lemma readDirective_length {format format' : List Byte} {va va' : List (Arg D R)} {flags : Flags}
    {width precision : ℕ}
    (h : readDirective D format va = .ok (flags, width, precision, format', va')) :
    format'.length ≤ format.length := by
  obtain ⟨⟨flags₁, format₁⟩, hflags, h⟩ := bind_eq_ok.mp h
  obtain ⟨⟨flags₂, width₂, format₂, va₂⟩, hwidth, h⟩ := bind_eq_ok.mp h
  obtain ⟨⟨flags₃, precision₃, format₃, va₃⟩, hprecision, h⟩ := bind_eq_ok.mp h
  obtain ⟨⟨flags₄, format₄⟩, hlength, h⟩ := bind_eq_ok.mp h
  obtain ⟨-, -, -, rfl, -⟩ := by simpa using h
  exact (readLength_length hlength).trans ((readPrecision_length hprecision).trans
    ((readWidth_length hwidth).trans (readFlags_length format hflags)))

/-- A round takes a character of the format at least. -/
lemma roundText_shorter {format format' : List Byte} {va va' : List (Arg D R)} {text : List Byte}
    (h : roundText format va = .ok (some (format', va', text))) :
    format'.length < format.length := by
  have htail : ∀ {l : List Byte} {c : Byte}, peek l = .ok c → l.tail.length < l.length := by
    intro l c hl
    cases l with
    | nil => simp [peek] at hl
    | cons c l => simp
  obtain ⟨c, hc, h⟩ := bind_eq_ok.mp h
  have hlt := htail hc
  split_ifs at h
  · simp at h
  · obtain ⟨rfl, -, -⟩ := by simpa using h
    exact hlt
  · obtain ⟨⟨flags, width, precision, format₁, va₁⟩, hread, h⟩ := bind_eq_ok.mp h
    obtain ⟨c', hc', h⟩ := bind_eq_ok.mp h
    obtain ⟨x, -, h⟩ := bind_eq_ok.mp h
    obtain ⟨rfl, -, -⟩ := by simpa using h
    have := readDirective_length hread
    have := htail hc'
    omega

/-- More rounds than the format has characters do not matter. -/
lemma formatText_fuel (n : ℕ) :
    ∀ {m : ℕ} {format : List Byte} (va : List (Arg D R)), format.length < n → format.length < m →
      formatText n format va = formatText m format va := by
  induction n with
  | zero =>
      intro m format va hn
      omega
  | succ n ih =>
      intro m format va hn hm
      obtain ⟨m, rfl⟩ : ∃ m', m = m' + 1 := ⟨m - 1, by omega⟩
      rw [formatText, formatText]
      cases hround : roundText format va with
      | error e => rfl
      | ok x =>
          rw [ok_bind, ok_bind]
          rcases x with _ | ⟨format', va', text⟩
          · rfl
          · have hlt := roundText_shorter hround
            dsimp only
            rw [ih (m := m) va' (by omega) (by omega)]

/-- The text of a format is that of a round and that of what is left. -/
lemma textOf_round (format : List Byte) (va : List (Arg D R)) :
    textOf format va = roundText format va >>= fun x =>
      match x with
      | none => .ok []
      | some (format, va, text) => (textOf format va).map (text ++ ·) := by
  rw [textOf, formatText]
  cases hround : roundText format va with
  | error e => rfl
  | ok x =>
      rw [ok_bind, ok_bind]
      rcases x with _ | ⟨format', va', text⟩
      · rfl
      · have hlt := roundText_shorter hround
        dsimp only
        rw [textOf, formatText_fuel _ va' hlt (Nat.lt_succ_self _)]

/-- A round reads a part of a format. -/
lemma roundText_piece {p : Piece} (hp : p.Ok) (rest : List Byte) (va : List (Arg D R)) :
    roundText (p.bytes ++ rest) va = (p.text va).map fun x => some (rest, x.1, x.2) := by
  cases p with
  | literal c =>
      rw [Piece.bytes, List.singleton_append, roundText, peek, ok_bind, if_neg hp.1, if_pos hp.2]
      rfl
  | directive d =>
      rw [Piece.bytes, List.cons_append, roundText, peek, ok_bind, if_neg (by decide),
        if_neg (by decide), List.tail_cons, readDirective_bytes hp, Piece.text]
      cases d.settings va with
      | error e => rfl
      | ok x =>
          obtain ⟨flags, width, precision, va'⟩ := x
          rw [Except.map, ok_bind, ok_bind]
          dsimp only
          rw [peek, ok_bind]
          cases convertText d.specifier flags width precision va' <;> rfl

/-- What is put out for a format that starts with some parts is what these say, and then what is put
out for the rest with the arguments that are left. -/
lemma textOf_pieces {ps : List Piece} (hps : ∀ p ∈ ps, p.Ok) (rest : List Byte)
    (va : List (Arg D R)) :
    textOf (ps.flatMap Piece.bytes ++ rest) va
      = meaning ps va >>= fun x => (textOf rest x.1).map (x.2 ++ ·) := by
  induction ps generalizing va with
  | nil =>
      rw [List.flatMap_nil, List.nil_append, meaning, ok_bind]
      cases textOf rest va <;> rfl
  | cons p ps ih =>
      rw [List.flatMap_cons, List.append_assoc, textOf_round,
        roundText_piece (hps p (List.mem_cons_self ..)), meaning]
      cases p.text va with
      | error e => rfl
      | ok x =>
          rw [Except.map, ok_bind, ok_bind]
          dsimp only
          rw [ih fun p hp => hps p (List.mem_cons_of_mem _ hp)]
          cases meaning ps x.1 with
          | error e => rfl
          | ok y =>
              rw [Except.map, ok_bind, ok_bind]
              dsimp only
              cases textOf rest y.1 with
              | error e => rfl
              | ok text => simp [Except.map]

/-- What is put out for a format of parts. -/
lemma textOf_terminated {ps : List Piece} (hps : ∀ p ∈ ps, p.Ok) (rest : List Byte)
    (va : List (Arg D R)) :
    textOf (ps.flatMap Piece.bytes ++ 0 :: rest) va = (meaning ps va).map (·.2) := by
  have hend : ∀ va : List (Arg D R), textOf (0 :: rest) va = .ok [] := fun va => rfl
  rw [textOf_pieces hps]
  cases meaning ps va with
  | error e => rfl
  | ok x => rw [ok_bind, hend, Except.map, Except.map, List.append_nil]

/-- `printf` prints what the parts of its format say, whatever is behind the format in memory. -/
theorem printf_pieces {ps : List Piece} (hps : ∀ p ∈ ps, p.Ok) (rest : List Byte)
    (va : List (Arg D R)) (printed : List Byte) (ret : ℤ) :
    printf (ps.flatMap Piece.bytes ++ 0 :: rest) va = .ok (printed, ret)
      ↔ ∃ va' text, meaning ps va = .ok (va', text) ∧ printed = text.filter (· ≠ 0)
        ∧ ret = (BitVec.ofNat 32 text.length).toInt := by
  rw [printf_eq_ok, textOf_terminated hps]
  constructor
  · rintro ⟨text, htext, hprinted, hret⟩
    obtain ⟨⟨va', text⟩, hmeaning, rfl⟩ := except_map_eq_ok.mp htext
    exact ⟨va', text, hmeaning, hprinted, hret⟩
  · rintro ⟨va', text, hmeaning, hprinted, hret⟩
    exact ⟨text, except_map_eq_ok.mpr ⟨_, hmeaning, rfl⟩, hprinted, hret⟩

theorem printf_pieces_sample :
    printf (chars "=%-4d|" ++ 0 :: chars "%s") [(.int 42 : Arg lp64 noReals)]
      = .ok (chars "=42  |", 6) := by
  have hps : ∀ p ∈ [.literal (ch '='), .directive ⟨[.minus], some (.number 4), none, none, ch 'd'⟩,
      .literal (ch '|')], Piece.Ok p := by decide
  exact (printf_pieces hps (chars "%s") [(.int 42 : Arg lp64 noReals)] _ _).mpr
    ⟨[], chars "=42  |", rfl, rfl, rfl⟩

/-- A format that ends within a directive is read beyond its end: the zero byte is put out as the
specifier would be, and then what the bytes behind it say. -/
theorem percent_overruns {ps : List Piece} (hps : ∀ p ∈ ps, p.Ok) (fs : List FlagChar)
    (rest : List Byte) (va : List (Arg D R)) :
    textOf (ps.flatMap Piece.bytes ++ ch '%' :: fs.map FlagChar.char ++ 0 :: rest) va
      = meaning ps va >>= fun x => (textOf rest x.1).map (x.2 ++ 0 :: ·) := by
  let p := Piece.directive ⟨fs, none, none, none, 0⟩
  have hp : p.Ok := ⟨trivial, trivial, (by decide : ¬ Reserved 0)⟩
  have htext : ∀ va : List (Arg D R), meaning [p] va = .ok (va, [0]) := fun va => rfl
  have hformat : ps.flatMap Piece.bytes ++ ch '%' :: fs.map FlagChar.char ++ 0 :: rest
      = ps.flatMap Piece.bytes ++ ([p].flatMap Piece.bytes ++ rest) := by
    simp [p, Piece.bytes, Directive.bytes, Amount.optBytes, precisionBytes, Modifier.optBytes]
  rw [hformat, textOf_pieces hps]
  cases meaning ps va with
  | error e => rfl
  | ok x =>
      rw [ok_bind, ok_bind, textOf_pieces (List.forall_mem_singleton.mpr hp), htext, ok_bind]
      cases textOf rest x.1 <;> rfl

theorem percent_overruns_sample :
    textOf (chars "9%" ++ 0 :: chars "%s" ++ [0]) ([] : List (Arg lp64 noReals))
      = .error .outOfBounds := by
  have hps : ∀ p ∈ [Piece.literal (ch '9')], p.Ok := by decide
  have h := percent_overruns hps [] (chars "%s" ++ [0]) ([] : List (Arg lp64 noReals))
  refine Eq.trans (congrArg (textOf · _) ?_) (h.trans ?_)
  · rfl
  · rfl

end

end EverythingNet.Printf
