import Mathlib.Data.List.TakeWhile
import Mathlib.Tactic
import EverythingNet.Lib.CString

/-!
The name of the CPU: `plat/linux/info_cpu.c` and `plat/common/arm-cpu-list.c`.

* `cpuinfoFindLine`: the lookup of a line in the text of `/proc/cpuinfo`. `Looked`: what it is to
  find. `Left` says of the line buffer which of its bytes are zero behind the lines that were copied
  into it, and `find_iff` goes through the text line by line. `Readable`: the texts for which the
  lookup is right (`cpuinfoFindLine_iff`); `blankLine_halts` is one for which it is not.
* `armConvertName`: the loop over `armCPUNames` that makes a readable name of a device-tree
  identifier. `Comparable s t`: one of the two strings is the start of the other; the loop breaks at
  the first row for which that is so (`armFindName_stored`). `armConvertName_iff`: when that is a row
  for the identifier.
-/

namespace EverythingNet

open CMem

/-! ### The names of ARM CPUs -/

/-- A row of `armCPUNames`: the identifier and the readable name. -/
abbrev CpuName := CStr × CStr

/-- `armCPUNames`, without the row that ends it. -/
def armCPUNames : List CpuName :=
  [(⟨chars "arm,cortex-a53", by decide⟩, ⟨chars "ARM Cortex A53", by decide⟩),
   (⟨chars "arm,cortex-a57", by decide⟩, ⟨chars "ARM Cortex A57", by decide⟩),
   (⟨chars "arm,cortex-a78", by decide⟩, ⟨chars "ARM Cortex A78", by decide⟩)]

/-- The loop over the table, up to where it breaks. -/
def armFindName (tmp : Cells) : List CpuName → Except Halt (Option CpuName)
  | [] => .ok none
  | row :: rows => do
    let len ← CMem.strlen tmp
    let len := if row.1.1.length < len then row.1.1.length else len
    if ← strncmp len tmp row.1.1 then return some row
    else armFindName tmp rows

/-- The conversion: the row that is found, and the contents of `tmp`. -/
def armConvertName (tmp : Cells) (names : List CpuName) :
    Except Halt (Option CpuName × Cells) := do
  match ← armFindName tmp names with
  | none => return (none, tmp)
  | some row => return (some row, ← CMem.strcpy tmp (stored row.2.1 ++ [some 0]))

/-- One of the two strings is the start of the other. -/
def Comparable (s t : List Byte) : Prop := s <+: t ∨ t <+: s

instance (s t : List Byte) : Decidable (Comparable s t) := inferInstanceAs (Decidable (_ ∨ _))

section

variable {s t : List Byte} {a : Cells} {names : List CpuName}

/-- A comparison up to the length of the shorter string. -/
lemma take_shorter_iff :
    s.take (if t.length < s.length then t.length else s.length)
        = t.take (if t.length < s.length then t.length else s.length)
      ↔ Comparable s t := by
  by_cases h : t.length < s.length
  · rw [if_pos h, List.take_length]
    constructor
    · intro heq
      exact Or.inr (heq ▸ List.take_prefix _ _)
    · rintro (hpre | hpre)
      · exact absurd hpre.length_le (by omega)
      · exact (List.prefix_iff_eq_take.mp hpre).symm
  · rw [if_neg h, List.take_length]
    constructor
    · intro heq
      exact Or.inl (heq ▸ List.take_prefix _ _)
    · rintro (hpre | hpre)
      · exact List.prefix_iff_eq_take.mp hpre
      · have hlen : s.length = t.length := by
          have := hpre.length_le
          omega
        rw [hpre.eq_of_length hlen.symm, List.take_length]

/-- The loop breaks at the first row that is comparable. -/
lemma armFindName_stored (hs : (0 : Byte) ∉ s) (names : List CpuName) :
    armFindName (stored s ++ some 0 :: a) names
      = .ok (names.find? fun row => decide (Comparable s row.1.1)) := by
  induction names with
  | nil => rfl
  | cons row names ih =>
      have hcmp : ∀ n, strncmp n (stored s ++ some 0 :: a) row.1.1
          = .ok (decide (s.take n = row.1.1.take n)) := fun n => strncmp_stored n hs row.1.2
      rw [armFindName, strlen_stored hs, ok_bind]
      dsimp only
      rw [hcmp, ok_bind, decide_eq_decide.mpr take_shorter_iff, List.find?_cons]
      by_cases h : Comparable s row.1.1
      · rw [decide_eq_true h]
        rfl
      · rw [decide_eq_false h]
        exact ih

/-- The conversion of an identifier for which a row is found. -/
lemma armConvertName_some {row : CpuName} (hs : (0 : Byte) ∉ s)
    (hfind : (names.find? fun row => decide (Comparable s row.1.1)) = some row) :
    armConvertName (stored s ++ some 0 :: a) names
      = if row.2.1.length ≤ s.length + a.length then
          .ok (some row, stored (row.2.1 ++ [0]) ++ (stored s ++ some 0 :: a).drop
            (row.2.1.length + 1))
        else .error .outOfBounds := by
  have hsize : (stored s ++ some 0 :: a).length = s.length + a.length + 1 := by
    rw [List.length_append, stored_length, List.length_cons]
    omega
  rw [armConvertName, armFindName_stored hs, hfind, ok_bind]
  dsimp only
  split_ifs with hfits
  · rw [strcpy_stored row.2.2 (by omega)]
    rfl
  · rw [strcpy_overflow row.2.2 (by omega)]
    rfl

/-- The loop makes a name of the identifier `s` only through a row that has it, and leaves it alone
if there is none, just if the first row that is comparable with it is such a row and its name fits
the buffer. -/
theorem armConvertName_iff (s : CStr) (a : Cells) (names : List CpuName) :
    (∃ hit tmp, armConvertName (stored s.1 ++ some 0 :: a) names = .ok (hit, tmp)
        ∧ (∀ row, hit = some row → row ∈ names ∧ row.1 = s
          ∧ ∃ b, tmp = stored row.2.1 ++ some 0 :: b)
        ∧ ((∀ row ∈ names, row.1 ≠ s) → tmp = stored s.1 ++ some 0 :: a))
      ↔ ∀ row, names.find? (fun row => decide (Comparable s.1 row.1.1)) = some row →
        row.1 = s ∧ row.2.1.length ≤ s.1.length + a.length := by
  cases hfind : names.find? fun row => decide (Comparable s.1 row.1.1) with
  | none =>
      refine ⟨fun _ row hrow => by simp at hrow, fun _ => ⟨none, stored s.1 ++ some 0 :: a, ?_, ?_⟩⟩
      · rw [armConvertName, armFindName_stored s.2, hfind, ok_bind]
        rfl
      · exact ⟨fun row hrow => by simp at hrow, fun _ => rfl⟩
  | some row =>
      have hmem := List.mem_of_find?_eq_some hfind
      constructor
      · rintro ⟨hit, tmp, hconv, hrow, -⟩ row' hrow'
        obtain rfl := Option.some.inj hrow'
        rw [armConvertName_some s.2 hfind] at hconv
        split_ifs at hconv with hfits
        obtain ⟨rfl, -⟩ := Prod.mk.inj (Except.ok.inj hconv)
        exact ⟨(hrow row rfl).2.1, hfits⟩
      · intro h
        obtain ⟨hrow, hfits⟩ := h row rfl
        refine ⟨some row, _, by rw [armConvertName_some s.2 hfind, if_pos hfits], ?_, ?_⟩
        · intro row' hrow'
          obtain rfl := Option.some.inj hrow'
          exact ⟨hmem, hrow, _, by rw [stored_append, List.append_assoc]; rfl⟩
        · exact fun hnone => absurd hrow (hnone row hmem)

end

/-- An identifier that the table does not list is the start of one that it lists. -/
theorem cortexA7_mistaken :
    ∃ row tmp, armConvertName (stored (chars "arm,cortex-a7") ++ some 0 :: List.replicate 498 none)
        armCPUNames = .ok (some row, tmp)
      ∧ row.1.1 = chars "arm,cortex-a78" ∧ row.2.1 = chars "ARM Cortex A78"
      ∧ ∀ row ∈ armCPUNames, row.1.1 ≠ chars "arm,cortex-a7" := by
  have hfind : (armCPUNames.find? fun row => decide (Comparable (chars "arm,cortex-a7") row.1.1))
      = some (⟨chars "arm,cortex-a78", by decide⟩, ⟨chars "ARM Cortex A78", by decide⟩) := by
    decide
  have hconv := armConvertName_some (a := List.replicate 498 none) (by decide) hfind
  rw [if_pos (by rw [List.length_replicate]; decide)] at hconv
  exact ⟨_, _, hconv, rfl, rfl, by decide⟩

/-! ### Looking up a line of `/proc/cpuinfo` -/

/-- A line is copied into the line buffer, and loses its carriage return. -/
def copyLine (line buf : Cells) (size : ℕ) : Except Halt Cells := do
  -- the source copies it twice
  let line ← memcpy line buf size
  let line ← memcpy line buf size
  let line ← write line size [0]
  let last ← index line (size - 1)
  if last = 0x0D ∨ last = 0x0A then write line (size - 1) [0] else return line

/-- The line in the line buffer is compared: the place `next` to go on at, or the result. -/
def matchLine (out : Cells) (lineToFind : List Byte) (line : Cells) (next : ℕ) :
    Except Halt ((Cells × ℕ) ⊕ (ℤ × Cells)) := do
  if ← strncmp lineToFind.length line lineToFind then
    match ← strchr 0x3A line with
    | none => return .inl (line, next)
    | some colon => return .inr (0, ← CMem.strcpy out (line.drop (colon + 2)))
  else return .inl (line, next)

/-- What is done with the line at `buf`. -/
def scanLine (cpuinfo out : Cells) (lineToFind : List Byte) (line : Cells) (buf : ℕ) :
    Except Halt ((Cells × ℕ) ⊕ (ℤ × Cells)) := do
  match ← strchr 0x0A (cpuinfo.drop buf) with
  | none => return .inr (-1, out)
  | some size =>
    let line ← copyLine line (cpuinfo.drop buf) size
    matchLine out lineToFind line (buf + size)

/-- A round of the loop: a line feed at `buf` is passed over first. -/
def findStep (cpuinfo out : Cells) (lineToFind : List Byte) :
    Cells × ℕ → Except Halt ((Cells × ℕ) ⊕ (ℤ × Cells))
  | (line, buf) => do
    let b ← fetch (cpuinfo.drop buf)
    scanLine cpuinfo out lineToFind line (if b = 0x0A then buf + 1 else buf)

/-- `cpuinfoFindLine`. `line` is what `malloc` gives it. -/
def cpuinfoFindLine (fuel : ℕ) (line : Option Cells) (cpuinfo out : Cells)
    (lineToFind : List Byte) : Except Halt (ℤ × Cells) :=
  match line with
  | none => .ok (-1, out)
  | some line => iter (findStep cpuinfo out lineToFind) fuel (line, 0)

/-- What `read` leaves in the buffer for `/proc/cpuinfo`. -/
def cpuinfoCells (c : List Byte) : Cells := stored c ++ List.replicate (1024 * 1024 - c.length) none

/-- What `malloc` gives for the line buffer, if there is memory. -/
def lineBuf (memory : Bool) : Option Cells := if memory then some (List.replicate 512 none) else none

/-- The call for the text `c` that `read` has given. -/
def cpuinfoLookup (memory : Bool) (c key : List Byte) (fuel : ℕ) : Except Halt (ℤ × Cells) :=
  cpuinfoFindLine fuel (lineBuf memory) (cpuinfoCells c) (List.replicate 512 none) key

/-! ### What it is to find -/

/-- The lines of a text that have their line feed. -/
def lines : List Byte → List (List Byte)
  | [] => []
  | b :: u =>
    if b = 0x0A then [] :: lines u
    else
      match lines u with
      | [] => []
      | l :: ls => (b :: l) :: ls

/-- A line without a carriage return at its end. -/
def chop (l : List Byte) : List Byte := if l.getLast? = some 0x0D then l.dropLast else l

/-- The line starts with the key and has a colon. -/
def Hit (key l : List Byte) : Prop := key <+: chop l ∧ 0x3A ∈ chop l

instance (key l : List Byte) : Decidable (Hit key l) := inferInstanceAs (Decidable (_ ∧ _))

/-- What a line says behind its colon and the separator that follows. -/
def value (l : List Byte) : List Byte := ((chop l).dropWhile (· ≠ 0x3A)).drop 2

/-- The call gives 0 just if there is such a line, and what the first one says. -/
structure Looked (key : List Byte) (ls : List (List Byte)) (r : ℤ × Cells) : Prop where
  ret : r.1 = 0 ↔ ∃ l ∈ ls, Hit key l
  out : ∀ l, ls.find? (fun l => decide (Hit key l)) = some l →
    ∃ a, r.2 = stored (value l) ++ some 0 :: a

/-! ### Where the code finds it -/

/-- The lines before the first zero byte. -/
def textLines (c : List Byte) : List (List Byte) := lines (c.takeWhile (· ≠ 0))

/-- The first elements of a list, up to one for which `p` holds. -/
def upTo {α : Type} (p : α → Bool) : List α → List α
  | [] => []
  | x :: l => if p x then [x] else x :: upTo p l

/-- The lines that the code looks at, up to the one that it finds. -/
def passed (key c : List Byte) : List (List Byte) :=
  upTo (fun l => decide (Hit key l)) (textLines c)

/-- Behind the lines `xs` the line buffer has a zero byte at index `k`: the last line that reaches
so far ends there. -/
def Stale (xs : List (List Byte)) (k : ℕ) : Prop :=
  ∃ before x after, xs = before ++ x :: after ∧ (∀ y ∈ after, y.length < k) ∧ k ≤ x.length
    ∧ (chop x).length ≤ k

/-- Something stands behind the colon of the line, if not in the line itself then in the line
buffer, as the end of an earlier line. -/
def ColonOk (xs : List (List Byte)) (l : List Byte) : Prop :=
  2 ≤ (l.dropWhile (· ≠ 0x3A)).length ∨ Stale xs (l.length + 1)

/-- A text that the code can read: the lines it looks at are short, all but the first are not blank,
and either there is one to be found, before any zero byte and with something behind its colon, or
there is none at all and the text has a zero byte. -/
structure Readable (key c : List Byte) : Prop where
  short : ∀ l ∈ passed key c, l.length < 512
  nonblank : ∀ l ∈ (passed key c).tail, l ≠ []
  colon : ∀ before l, passed key c = before ++ [l] → Hit key l → ColonOk before l
  ended : (∃ l ∈ textLines c, Hit key l) ∨ (0 ∈ c ∧ ∀ l ∈ lines c, ¬ Hit key l)

/-- `Readable` for a text none of whose lines may be blank, behind the lines `xs`. -/
structure ReadableFrom (key : List Byte) (xs : List (List Byte)) (u : List Byte) : Prop where
  short : ∀ l ∈ passed key u, l.length < 512
  nonblank : ∀ l ∈ passed key u, l ≠ []
  colon : ∀ before l, passed key u = before ++ [l] → Hit key l → ColonOk (xs ++ before) l
  ended : (∃ l ∈ textLines u, Hit key l) ∨ (0 ∈ u ∧ ∀ l ∈ lines u, ¬ Hit key l)

section

variable {s u l key : List Byte} {xs ls : List (List Byte)} {r : ℤ × Cells} {k : ℕ}

/-! ### Lines -/

lemma lines_append (hs : (0x0A : Byte) ∉ s) (u : List Byte) :
    lines (s ++ 0x0A :: u) = s :: lines u := by
  induction s with
  | nil => rw [List.nil_append, lines, if_pos rfl]
  | cons b s ih =>
      rw [List.mem_cons, not_or] at hs
      rw [List.cons_append, lines, if_neg (Ne.symm hs.1), ih hs.2]

lemma lines_unended (hs : (0x0A : Byte) ∉ s) : lines s = [] := by
  induction s with
  | nil => rfl
  | cons b s ih =>
      rw [List.mem_cons, not_or] at hs
      rw [lines, if_neg (Ne.symm hs.1), ih hs.2]

lemma textLines_append (hs : (0x0A : Byte) ∉ s) (hs0 : (0 : Byte) ∉ s) (u : List Byte) :
    textLines (s ++ 0x0A :: u) = s :: textLines u := by
  rw [textLines, takeWhile_text hs0, List.takeWhile_cons_of_pos (by simp), lines_append hs,
    ← textLines]

lemma textLines_zero (hs : (0x0A : Byte) ∉ s) (hs0 : (0 : Byte) ∉ s) (u : List Byte) :
    textLines (s ++ 0 :: u) = [] := by
  rw [textLines, takeWhile_ended hs0, lines_unended hs]

lemma textLines_unended (hs : (0x0A : Byte) ∉ s) (hs0 : (0 : Byte) ∉ s) : textLines s = [] := by
  rw [textLines, takeWhile_unended hs0, lines_unended hs]

/-- A text is a line and a rest, or it has neither a line feed before a zero byte. -/
lemma text_cases (u : List Byte) : ∃ s v, u = s ++ v ∧ (0x0A : Byte) ∉ s ∧ (0 : Byte) ∉ s
    ∧ (v = [] ∨ (∃ u', v = 0 :: u') ∨ ∃ u', v = 0x0A :: u') := by
  induction u with
  | nil => exact ⟨[], [], rfl, by simp, by simp, Or.inl rfl⟩
  | cons b u ih =>
      by_cases h0 : b = 0
      · exact ⟨[], b :: u, rfl, by simp, by simp, Or.inr (Or.inl ⟨u, by rw [h0]⟩)⟩
      · by_cases h10 : b = 0x0A
        · exact ⟨[], b :: u, rfl, by simp, by simp, Or.inr (Or.inr ⟨u, by rw [h10]⟩)⟩
        · obtain ⟨s, v, rfl, hs, hs0, hv⟩ := ih
          refine ⟨b :: s, v, rfl, ?_, ?_, hv⟩
          · rw [List.mem_cons, not_or]
            exact ⟨Ne.symm h10, hs⟩
          · rw [List.mem_cons, not_or]
            exact ⟨Ne.symm h0, hs0⟩

/-! ### The line buffer -/

/-- A line is what `chop` leaves of it, and at most a carriage return. -/
lemma chop_cases (l : List Byte) : chop l = l ∨ l = chop l ++ [0x0D] := by
  rw [chop]
  split_ifs with h
  · refine Or.inr ?_
    obtain ⟨l', rfl⟩ := List.getLast?_eq_some_iff.mp h
    rw [List.dropLast_concat]
  · exact Or.inl rfl

lemma chop_subset (l : List Byte) : chop l ⊆ l := by
  rw [chop]
  split_ifs
  · exact List.dropLast_subset l
  · exact fun b hb => hb

lemma chop_length_le (l : List Byte) : (chop l).length ≤ l.length := by
  obtain h | h := chop_cases l
  · rw [h]
  · have := congrArg List.length h
    rw [List.length_append, List.length_singleton] at this
    omega

/-- A line with its terminators, in the line buffer. -/
def padded (l : List Byte) : List Byte :=
  chop l ++ List.replicate (l.length + 1 - (chop l).length) 0

lemma padded_length (l : List Byte) : (padded l).length = l.length + 1 := by
  have := chop_length_le l
  rw [padded, List.length_append, List.length_replicate]
  omega

/-- The first terminator is behind what `chop` leaves. -/
lemma padded_eq (l : List Byte) : ∃ z, padded l = chop l ++ 0 :: z := by
  have := chop_length_le l
  obtain ⟨n, hn⟩ : ∃ n, l.length + 1 - (chop l).length = n + 1 :=
    ⟨l.length - (chop l).length, by omega⟩
  exact ⟨List.replicate n 0, by rw [padded, hn, List.replicate_succ]⟩

/-- Which bytes of a line in the buffer are zero. -/
lemma padded_zero (hs : (0 : Byte) ∉ s) (hk : k ≤ s.length) :
    (padded s)[k]? = some 0 ↔ (chop s).length ≤ k := by
  rw [padded]
  by_cases h : (chop s).length ≤ k
  · rw [List.getElem?_append_right h, List.getElem?_replicate, if_pos (by omega)]
    exact ⟨fun _ => h, fun _ => rfl⟩
  · rw [List.getElem?_append_left (by omega)]
    refine ⟨fun h0 => ?_, fun h' => absurd h' h⟩
    exact absurd (chop_subset s (List.mem_of_getElem? h0)) hs

/-- The line buffer behind the lines `xs`: where it has zero bytes. -/
structure Left (a : Cells) (xs : List (List Byte)) : Prop where
  size : a.length = 512
  zero : ∀ k : ℕ, a[k]? = some (some 0) ↔ Stale xs k

lemma stale_nil : ¬ Stale [] k := by
  rintro ⟨before, x, after, h, -⟩
  simp at h

/-- The last line decides. -/
lemma stale_concat : Stale (xs ++ [s]) k
    ↔ (k ≤ s.length ∧ (chop s).length ≤ k) ∨ (s.length < k ∧ Stale xs k) := by
  constructor
  · rintro ⟨before, x, after, hsplit, hafter, hk, hchop⟩
    rcases List.eq_nil_or_concat after with rfl | ⟨after, y, rfl⟩
    · obtain ⟨rfl, hx⟩ := List.append_inj' hsplit rfl
      obtain rfl : s = x := by simpa using hx
      exact Or.inl ⟨hk, hchop⟩
    · rw [List.concat_eq_append] at hsplit hafter
      rw [← List.cons_append, ← List.append_assoc] at hsplit
      obtain ⟨rfl, hy⟩ := List.append_inj' hsplit rfl
      obtain rfl : s = y := by simpa using hy
      exact Or.inr ⟨hafter s (by simp), before, x, after, rfl,
        fun y hy => hafter y (List.mem_append_left _ hy), hk, hchop⟩
  · rintro (⟨hk, hchop⟩ | ⟨hlt, before, x, after, rfl, hafter, hk, hchop⟩)
    · exact ⟨xs, s, [], rfl, by simp, hk, hchop⟩
    · refine ⟨before, x, after ++ [s], by simp, ?_, hk, hchop⟩
      intro y hy
      rcases List.mem_append.mp hy with hy | hy
      · exact hafter y hy
      · rwa [List.mem_singleton.mp hy]

/-- A blank line leaves the buffer as it is. -/
lemma stale_blank (hk : 0 < k) : Stale ([] :: xs) k ↔ Stale xs k := by
  constructor
  · rintro ⟨before, x, after, hsplit, hafter, hkx, hchop⟩
    cases before with
    | nil =>
        obtain ⟨rfl, -⟩ := List.cons.inj hsplit
        simp at hkx
        omega
    | cons y before =>
        obtain ⟨-, rfl⟩ := List.cons.inj hsplit
        exact ⟨before, x, after, rfl, hafter, hkx, hchop⟩
  · rintro ⟨before, x, after, rfl, hafter, hkx, hchop⟩
    exact ⟨[] :: before, x, after, rfl, hafter, hkx, hchop⟩

lemma left_start : Left (List.replicate 512 none) [] := by
  refine ⟨List.length_replicate, fun k => ⟨fun h => ?_, fun h => absurd h stale_nil⟩⟩
  rw [List.getElem?_replicate] at h
  split_ifs at h
  simp at h

/-- The buffer with one more line in it. -/
lemma Left.concat {line : Cells} (h : Left line xs) (hs : (0 : Byte) ∉ s) (hlen : s.length < 512) :
    Left (stored (padded s) ++ line.drop (s.length + 1)) (xs ++ [s]) := by
  refine ⟨?_, fun k => ?_⟩
  · rw [List.length_append, stored_length, padded_length, List.length_drop, h.size]
    omega
  · rw [stale_concat, ← h.zero]
    by_cases hk : k ≤ s.length
    · rw [List.getElem?_append_left (by rw [stored_length, padded_length]; omega), stored,
        List.getElem?_map, Option.map_eq_some_iff]
      simp only [Option.some.injEq, exists_eq_right, padded_zero hs hk]
      constructor
      · exact fun hchop => Or.inl ⟨hk, hchop⟩
      · rintro (⟨-, hchop⟩ | ⟨hlt, -⟩)
        · exact hchop
        · omega
    · rw [List.getElem?_append_right (by rw [stored_length, padded_length]; omega), stored_length,
        padded_length, List.getElem?_drop, Nat.add_sub_cancel' (by omega)]
      constructor
      · exact fun h0 => Or.inr ⟨by omega, h0⟩
      · rintro (⟨hle, -⟩ | ⟨-, h0⟩)
        · exact absurd hle hk
        · exact h0

/-! ### A line in the buffer -/

variable {cells out cpuinfo rest b : Cells} {q : ℕ}

lemma copyLine_eq (hne : s ≠ []) (hs : (0x0A : Byte) ∉ s) (hlt : s.length < cells.length) :
    copyLine cells (stored s ++ b) s.length
      = .ok (stored (padded s) ++ cells.drop (s.length + 1)) := by
  obtain ⟨s', c, rfl⟩ : ∃ s' c, s = s' ++ [c] := by
    obtain h | ⟨s', c, h⟩ := List.eq_nil_or_concat s
    · exact absurd h hne
    · exact ⟨s', c, by rw [h, List.concat_eq_append]⟩
  have hsize : (s' ++ [c]).length = s'.length + 1 := by
    rw [List.length_append, List.length_singleton]
  have hterm : write (stored (s' ++ [c]) ++ cells.drop (s' ++ [c]).length) (s' ++ [c]).length [0]
      = .ok (stored (s' ++ [c] ++ [0]) ++ cells.drop ((s' ++ [c]).length + 1)) := by
    rw [write_stored _ [0] (by rw [List.length_drop, List.length_singleton]; omega), List.drop_drop,
      List.length_singleton]
  have hlast : index (stored (s' ++ [c] ++ [0]) ++ cells.drop ((s' ++ [c]).length + 1))
      (((s' ++ [c]).length : ℤ) - 1) = .ok c := by
    have hindex : ((s' ++ [c]).length : ℤ) - 1 = s'.length := by
      rw [hsize]
      omega
    rw [hindex, List.append_assoc, stored_append, List.append_assoc]
    exact index_stored s' c _
  rw [copyLine, memcpy_stored (by omega), ok_bind, memcpy_again, ok_bind, hterm, ok_bind, hlast,
    ok_bind]
  have hc : c ≠ 0x0A := fun h => hs (by simp [h])
  by_cases hcr : c = 0x0D
  · have hchop : chop (s' ++ [c]) = s' := by
      rw [chop, List.getLast?_concat, hcr, if_pos rfl, List.dropLast_concat]
    have hwrite := write_stored (a := some c :: some 0 :: cells.drop ((s' ++ [c]).length + 1)) s' [0]
      (by simp)
    rw [if_pos (Or.inl hcr), padded, hchop, hsize, Nat.add_sub_cancel]
    rw [hsize] at hwrite
    have hcells : stored (s' ++ [c] ++ [0]) ++ cells.drop (s'.length + 1 + 1)
        = stored s' ++ (some c :: some 0 :: cells.drop (s'.length + 1 + 1)) := by
      simp
    have hcount : s'.length + 1 + 1 - s'.length = 2 := by omega
    rw [hcells, hwrite, hcount]
    simp [List.replicate_succ]
  · have hchop : chop (s' ++ [c]) = s' ++ [c] := by
      rw [chop, List.getLast?_concat, if_neg]
      exact fun h => hcr (Option.some.inj h)
    rw [if_neg (not_or.mpr ⟨hcr, hc⟩), padded, hchop, Nat.add_sub_cancel_left]
    rfl

/-- A blank line or a long one cannot be copied. -/
lemma copyLine_halt (h : s = [] ∨ cells.length ≤ s.length) :
    copyLine cells (stored s ++ b) s.length = .error .outOfBounds := by
  rw [copyLine]
  by_cases hle : s.length ≤ cells.length
  · rw [memcpy_stored hle, ok_bind, memcpy_again, ok_bind]
    by_cases hlt : s.length < cells.length
    · obtain rfl : s = [] := by
        rcases h with h | h
        · exact h
        · omega
      have hterm := write_zero (a := cells) [0] hlt
      rw [stored_nil, List.nil_append, List.length_nil, List.drop_zero, hterm]
      rfl
    · have hterm : write (stored s ++ cells.drop s.length) s.length [0] = .error .outOfBounds := by
        refine write_eq_error ?_
        rw [List.length_append, stored_length, List.length_drop, List.length_singleton]
        omega
      rw [hterm, error_bind]
  · rw [memcpy_overflow (by omega), error_bind]

/-- A line that starts with the key but has no colon, or does not start with it. -/
lemma matchLine_miss (hs0 : (0 : Byte) ∉ s) (hkey : (0 : Byte) ∉ key) (h : ¬ Hit key s) :
    matchLine out key (stored (padded s) ++ b) q = .ok (.inl (stored (padded s) ++ b, q)) := by
  obtain ⟨z, hz⟩ := padded_eq s
  have hchop : (0 : Byte) ∉ chop s := fun hmem => hs0 (chop_subset s hmem)
  have hcells : stored (padded s) ++ b = stored (chop s) ++ some 0 :: (stored z ++ b) := by
    rw [hz, stored_append, List.append_assoc]
    rfl
  have hprefix : (chop s).take key.length = key.take key.length ↔ key <+: chop s := by
    rw [List.take_length, eq_comm, ← List.prefix_iff_eq_take]
  rw [matchLine, hcells, strncmp_stored _ hchop hkey, ok_bind, decide_eq_decide.mpr hprefix]
  by_cases hpre : key <+: chop s
  · have hcolon : (0x3A : Byte) ∉ chop s := fun hmem => h ⟨hpre, hmem⟩
    rw [if_pos (decide_eq_true hpre), strchr_none hchop hcolon (by decide), ok_bind]
    rfl
  · rw [if_neg (by simpa using hpre)]
    rfl

/-- A line to be found: what stands behind its colon is copied. -/
lemma matchLine_hit {p v : List Byte} (hs0 : (0 : Byte) ∉ s) (hkey : (0 : Byte) ∉ key)
    (h : Hit key s) (hp : (0x3A : Byte) ∉ p) (hchop : chop s = p ++ 0x3A :: v) :
    matchLine out key (stored (padded s) ++ b) q
      = (CMem.strcpy out ((stored (padded s) ++ b).drop (p.length + 2))).map fun out =>
        .inr (0, out) := by
  obtain ⟨z, hz⟩ := padded_eq s
  have hchop0 : (0 : Byte) ∉ chop s := fun hmem => hs0 (chop_subset s hmem)
  have hcells : stored (padded s) ++ b = stored (chop s) ++ some 0 :: (stored z ++ b) := by
    rw [hz, stored_append, List.append_assoc]
    rfl
  have hprefix : (chop s).take key.length = key.take key.length ↔ key <+: chop s := by
    rw [List.take_length, eq_comm, ← List.prefix_iff_eq_take]
  have hcolon : strchr 0x3A (stored (padded s) ++ b) = .ok (some p.length) := by
    have hp0 : (0 : Byte) ∉ p := fun hmem => hchop0 (by rw [hchop]; exact List.mem_append_left _ hmem)
    rw [hcells, hchop, stored_append, stored_cons, List.append_assoc, List.cons_append]
    exact strchr_stored hp0 hp
  have hcmp : strncmp key.length (stored (padded s) ++ b) key = .ok true := by
    rw [hcells, strncmp_stored _ hchop0 hkey, decide_eq_decide.mpr hprefix, decide_eq_true h.1]
  rw [matchLine, hcmp, ok_bind, if_pos rfl, hcolon, ok_bind]
  dsimp only
  cases CMem.strcpy out ((stored (padded s) ++ b).drop (p.length + 2)) <;> rfl

lemma dropWhile_colon {p : List Byte} (hp : (0x3A : Byte) ∉ p) (v : List Byte) :
    (p ++ 0x3A :: v).dropWhile (· ≠ 0x3A) = 0x3A :: v := by
  induction p with
  | nil => rw [List.nil_append, List.dropWhile_cons_of_neg (by simp)]
  | cons b p ih =>
      rw [List.mem_cons, not_or] at hp
      rw [List.cons_append, List.dropWhile_cons_of_pos (by simpa using Ne.symm hp.1), ih hp.2]

/-- A string is copied with its terminator. -/
lemma strcpy_text {v : List Byte} (hv : (0 : Byte) ∉ v) (hlt : v.length < out.length) (a : Cells) :
    ∃ d, CMem.strcpy out (stored v ++ some 0 :: a) = .ok (stored v ++ some 0 :: d) := by
  refine ⟨out.drop (v.length + 1), ?_⟩
  rw [strcpy_stored hv hlt, stored_append, List.append_assoc]
  rfl

section

variable {p v : List Byte} {c : Byte}

/-- Something stands behind the colon: it is what is copied. -/
lemma behind_colon (hchop : chop s = p ++ 0x3A :: c :: v) (b : Cells) :
    ∃ a, (stored (padded s) ++ b).drop (p.length + 2) = stored v ++ some 0 :: a := by
  obtain ⟨z, hz⟩ := padded_eq s
  have hsplit : stored (padded s) ++ b
      = stored (p ++ [0x3A, c]) ++ (stored v ++ some 0 :: (stored z ++ b)) := by
    rw [hz, hchop]
    simp
  have hcount : p.length + 2 = (stored (p ++ [0x3A, c])).length := by simp
  exact ⟨stored z ++ b, by rw [hsplit, hcount, List.drop_left]⟩

lemma colonOk_of_behind (hp : (0x3A : Byte) ∉ p) (hchop : chop s = p ++ 0x3A :: c :: v) :
    ColonOk xs s := by
  refine Or.inl ?_
  obtain h | h := chop_cases s
  · rw [← h, hchop, dropWhile_colon hp]
    simp
  · rw [h, hchop, List.append_assoc, List.cons_append, dropWhile_colon hp]
    simp

/-- The colon is the last byte of the line: what is copied is left from earlier lines. -/
lemma behind_last_colon (h : chop s = s) (hchop : chop s = p ++ [0x3A]) (b : Cells) :
    (stored (padded s) ++ b).drop (p.length + 2) = b := by
  have hcount : p.length + 2 = (stored (padded s)).length := by
    rw [stored_length, padded_length, ← h, hchop, List.length_append, List.length_singleton]
  rw [hcount, List.drop_left]

lemma colonOk_iff_stale (hline : Left cells xs) (hp : (0x3A : Byte) ∉ p) (h : chop s = s)
    (hchop : chop s = p ++ [0x3A]) :
    ColonOk xs s ↔ (cells.drop (s.length + 1)).head? = some (some 0) := by
  rw [ColonOk, ← hline.zero, List.head?_drop, ← h, hchop, dropWhile_colon hp]
  simp

/-- A carriage return behind the colon has become a second terminator. -/
lemma behind_return (h : s = chop s ++ [0x0D]) (hchop : chop s = p ++ [0x3A]) (b : Cells) :
    (stored (padded s) ++ b).drop (p.length + 2) = some 0 :: b := by
  have hzeros : padded s = chop s ++ [0, 0] := by
    have hcount : s.length + 1 - (chop s).length = 2 := by
      have := congrArg List.length h
      rw [List.length_append, List.length_singleton] at this
      omega
    rw [padded, hcount]
    rfl
  have hsplit : stored (padded s) ++ b = stored (chop s ++ [0]) ++ some 0 :: b := by
    rw [hzeros]
    simp
  have hcount : p.length + 2 = (stored (chop s ++ [0])).length := by
    rw [hchop]
    simp
  rw [hsplit, hcount, List.drop_left]

lemma colonOk_of_return (hp : (0x3A : Byte) ∉ p) (h : s = chop s ++ [0x0D])
    (hchop : chop s = p ++ [0x3A]) : ColonOk xs s := by
  refine Or.inl ?_
  rw [h, hchop, List.append_assoc, List.singleton_append, dropWhile_colon hp]
  simp

/-- What is copied from behind the colon is what the line says, just if something stands there. -/
lemma strcpy_value (hline : Left cells xs) (hout : out.length = 512)
    (hs0 : (0 : Byte) ∉ s) (hlt : s.length < 512) (hp : (0x3A : Byte) ∉ p)
    (hchop : chop s = p ++ 0x3A :: v) :
    (ColonOk xs s → ∃ a, CMem.strcpy out
        ((stored (padded s) ++ cells.drop (s.length + 1)).drop (p.length + 2))
      = .ok (stored (value s) ++ some 0 :: a))
    ∧ (¬ ColonOk xs s → ∀ o, CMem.strcpy out
        ((stored (padded s) ++ cells.drop (s.length + 1)).drop (p.length + 2)) = .ok o →
      ¬ ∃ a, o = stored (value s) ++ some 0 :: a) := by
  have hvalue : value s = v.drop 1 := by
    rw [value, hchop, dropWhile_colon hp]
    rfl
  have hnil : ∀ a, ∃ d, CMem.strcpy out (some 0 :: a) = .ok (some 0 :: d) :=
    strcpy_text (v := []) (by simp) (by simp [hout])
  rw [hvalue]
  cases v with
  | cons c v =>
      have hv0 : (0 : Byte) ∉ v := fun hmem => by
        refine hs0 (chop_subset s ?_)
        rw [hchop]
        exact List.mem_append_right _ (List.mem_cons_of_mem _ (List.mem_cons_of_mem _ hmem))
      have hlen : v.length < out.length := by
        have hle := chop_length_le s
        rw [hchop, List.length_append, List.length_cons, List.length_cons] at hle
        omega
      obtain ⟨a, ha⟩ := behind_colon hchop (cells.drop (s.length + 1))
      rw [ha, List.drop_one, List.tail_cons]
      exact ⟨fun _ => strcpy_text hv0 hlen a, fun h => absurd (colonOk_of_behind hp hchop) h⟩
  | nil =>
      rw [List.drop_nil, stored_nil]
      obtain h | h := chop_cases s
      · rw [behind_last_colon h hchop, colonOk_iff_stale hline hp h hchop]
        refine ⟨fun h0 => ?_, fun h0 o ho => ?_⟩
        · obtain ⟨a, ha⟩ := List.head?_eq_some_iff.mp h0
          rw [ha]
          exact hnil a
        · obtain ⟨u, src, hu0, hsrc, rfl⟩ := strcpy_eq_ok ho
          rintro ⟨a, ha⟩
          cases u with
          | nil => exact h0 (by rw [hsrc]; rfl)
          | cons c u =>
              obtain ⟨hc, -⟩ := List.cons.inj ha
              exact hu0 (by rw [Option.some.inj hc]; exact List.mem_cons_self ..)
      · rw [behind_return h hchop]
        exact ⟨fun _ => hnil _, fun hbad => absurd (colonOk_of_return hp h hchop) hbad⟩

end

/-! ### Line by line -/

lemma looked_hit (h : Hit key s) : Looked key (s :: ls) r
    ↔ r.1 = 0 ∧ ∃ a, r.2 = stored (value s) ++ some 0 :: a := by
  have hfind : (s :: ls).find? (fun l => decide (Hit key l)) = some s := by
    rw [List.find?_cons, decide_eq_true h]
  constructor
  · intro hr
    exact ⟨hr.ret.mpr ⟨s, List.mem_cons_self .., h⟩, hr.out s hfind⟩
  · rintro ⟨hret, hout⟩
    refine ⟨⟨fun _ => ⟨s, List.mem_cons_self .., h⟩, fun _ => hret⟩, fun l hl => ?_⟩
    rw [hfind] at hl
    obtain rfl := Option.some.inj hl
    exact hout

lemma looked_miss (h : ¬ Hit key s) : Looked key (s :: ls) r ↔ Looked key ls r := by
  have hfind : (s :: ls).find? (fun l => decide (Hit key l))
      = ls.find? (fun l => decide (Hit key l)) := by
    rw [List.find?_cons, decide_eq_false h]
  have hex : (∃ l ∈ s :: ls, Hit key l) ↔ ∃ l ∈ ls, Hit key l := by
    rw [List.exists_mem_cons_iff, or_iff_right h]
  constructor
  · exact fun hr => ⟨hr.ret.trans hex, hfind ▸ hr.out⟩
  · exact fun hr => ⟨hr.ret.trans hex.symm, hfind ▸ hr.out⟩

/-- The search without a result is right if there is no such line. -/
lemma looked_fails (out : Cells) : Looked key ls (-1, out) ↔ ∀ l ∈ ls, ¬ Hit key l := by
  constructor
  · intro hr l hl hhit
    exact absurd (hr.ret.mpr ⟨l, hl, hhit⟩) (by simp)
  · intro h
    refine ⟨⟨fun h0 => absurd h0 (by simp), ?_⟩, fun l hl => ?_⟩
    · rintro ⟨l, hl, hhit⟩
      exact absurd hhit (h l hl)
    · exact absurd (by simpa using List.find?_some hl) (h l (List.mem_of_find?_eq_some hl))

lemma passed_hit (hs : (0x0A : Byte) ∉ s) (hs0 : (0 : Byte) ∉ s) (h : Hit key s) :
    passed key (s ++ 0x0A :: u) = [s] := by
  rw [passed, textLines_append hs hs0, upTo, if_pos (decide_eq_true h)]

lemma passed_miss (hs : (0x0A : Byte) ∉ s) (hs0 : (0 : Byte) ∉ s) (h : ¬ Hit key s) :
    passed key (s ++ 0x0A :: u) = s :: passed key u := by
  rw [passed, textLines_append hs hs0, upTo, if_neg (by simpa using h), passed]

lemma readableFrom_hit (hs : (0x0A : Byte) ∉ s) (hs0 : (0 : Byte) ∉ s) (h : Hit key s) :
    ReadableFrom key xs (s ++ 0x0A :: u) ↔ s ≠ [] ∧ s.length < 512 ∧ ColonOk xs s := by
  have hpassed := passed_hit (u := u) hs hs0 h
  have hmem : s ∈ passed key (s ++ 0x0A :: u) := by
    rw [hpassed]
    exact List.mem_cons_self ..
  constructor
  · intro hr
    have hcolon := hr.colon [] s (by rw [hpassed, List.nil_append]) h
    rw [List.append_nil] at hcolon
    exact ⟨hr.nonblank s hmem, hr.short s hmem, hcolon⟩
  · rintro ⟨hne, hlt, hcolon⟩
    refine ⟨fun l hl => ?_, fun l hl => ?_, fun before l hl _ => ?_, ?_⟩
    · rw [hpassed, List.mem_singleton] at hl
      rwa [hl]
    · rw [hpassed, List.mem_singleton] at hl
      rwa [hl]
    · rw [hpassed, ← List.nil_append [s]] at hl
      obtain ⟨rfl, hsl⟩ := List.append_inj' hl rfl
      obtain rfl : s = l := by simpa using hsl
      rwa [List.append_nil]
    · exact Or.inl ⟨s, by rw [textLines_append hs hs0]; exact List.mem_cons_self .., h⟩

lemma readableFrom_miss (hs : (0x0A : Byte) ∉ s) (hs0 : (0 : Byte) ∉ s) (h : ¬ Hit key s) :
    ReadableFrom key xs (s ++ 0x0A :: u)
      ↔ s ≠ [] ∧ s.length < 512 ∧ ReadableFrom key (xs ++ [s]) u := by
  have hpassed := passed_miss (u := u) hs hs0 h
  have hmem : s ∈ passed key (s ++ 0x0A :: u) := by
    rw [hpassed]
    exact List.mem_cons_self ..
  have hended : ((∃ l ∈ textLines (s ++ 0x0A :: u), Hit key l)
        ∨ (0 ∈ s ++ 0x0A :: u ∧ ∀ l ∈ lines (s ++ 0x0A :: u), ¬ Hit key l))
      ↔ (∃ l ∈ textLines u, Hit key l) ∨ (0 ∈ u ∧ ∀ l ∈ lines u, ¬ Hit key l) := by
    have hzero : (0 : Byte) ∈ s ++ 0x0A :: u ↔ 0 ∈ u := by
      rw [List.mem_append, or_iff_right hs0, List.mem_cons, or_iff_right (by decide)]
    rw [textLines_append hs hs0, lines_append hs, List.exists_mem_cons_iff, or_iff_right h,
      List.forall_mem_cons, and_iff_right h, hzero]
  constructor
  · intro hr
    refine ⟨hr.nonblank s hmem, hr.short s hmem, ?_⟩
    refine ⟨fun l hl => hr.short l ?_, fun l hl => hr.nonblank l ?_, fun before l hl hhit => ?_,
      hended.mp hr.ended⟩
    · rw [hpassed]
      exact List.mem_cons_of_mem _ hl
    · rw [hpassed]
      exact List.mem_cons_of_mem _ hl
    · have := hr.colon (s :: before) l (by rw [hpassed, hl, List.cons_append]) hhit
      rwa [List.append_assoc, List.singleton_append]
  · rintro ⟨hne, hlt, hr⟩
    refine ⟨?_, ?_, fun before l hl hhit => ?_, hended.mpr hr.ended⟩
    · rw [hpassed, List.forall_mem_cons]
      exact ⟨hlt, hr.short⟩
    · rw [hpassed, List.forall_mem_cons]
      exact ⟨hne, hr.nonblank⟩
    · rw [hpassed] at hl
      cases before with
      | nil =>
          obtain ⟨rfl, -⟩ := List.cons.inj hl
          exact absurd hhit h
      | cons x before =>
          obtain ⟨rfl, htail⟩ := List.cons.inj hl
          have hcolon := hr.colon before l htail hhit
          rwa [List.append_assoc, List.singleton_append] at hcolon

/-- The text behind the last line. -/
lemma readableFrom_end (hu : textLines u = []) :
    ReadableFrom key xs u ↔ 0 ∈ u ∧ ∀ l ∈ lines u, ¬ Hit key l := by
  have hpassed : passed key u = [] := by rw [passed, hu, upTo]
  constructor
  · intro hr
    obtain ⟨l, hl, -⟩ | h := hr.ended
    · rw [hu] at hl
      simp at hl
    · exact h
  · intro h
    refine ⟨by simp [hpassed], by simp [hpassed], fun before l hl => ?_, Or.inr h⟩
    rw [hpassed] at hl
    simp at hl

/-- The line feed at the start of a text is passed over. -/
lemma readable_feed (hkey : key ≠ []) : Readable key (0x0A :: u) ↔ ReadableFrom key [] u := by
  have hblank : ¬ Hit key [] := fun h => hkey (List.prefix_nil.mp h.1)
  have hpassed : passed key (0x0A :: u) = [] :: passed key u :=
    passed_miss (by simp) (by simp) hblank
  have htext : textLines (0x0A :: u) = [] :: textLines u :=
    textLines_append (s := []) (by simp) (by simp) u
  have hlines : lines (0x0A :: u) = [] :: lines u := lines_append (s := []) (by simp) u
  have hended : ((∃ l ∈ textLines (0x0A :: u), Hit key l)
        ∨ (0 ∈ 0x0A :: u ∧ ∀ l ∈ lines (0x0A :: u), ¬ Hit key l))
      ↔ (∃ l ∈ textLines u, Hit key l) ∨ (0 ∈ u ∧ ∀ l ∈ lines u, ¬ Hit key l) := by
    have hzero : (0 : Byte) ∈ 0x0A :: u ↔ 0 ∈ u := by
      rw [List.mem_cons, or_iff_right (by decide)]
    rw [htext, hlines, List.exists_mem_cons_iff, or_iff_right hblank, List.forall_mem_cons,
      and_iff_right hblank, hzero]
  have hcolon : ∀ before l, Hit key l → (ColonOk ([] :: before) l ↔ ColonOk before l) :=
    fun before l _ => or_congr_right (stale_blank (Nat.succ_pos _))
  constructor
  · intro hr
    refine ⟨fun l hl => hr.short l ?_, fun l hl => hr.nonblank l ?_, fun before l hl hhit => ?_,
      hended.mp hr.ended⟩
    · rw [hpassed]
      exact List.mem_cons_of_mem _ hl
    · rw [hpassed]
      exact hl
    · exact (hcolon before l hhit).mp (hr.colon ([] :: before) l (by rw [hpassed, hl]; rfl) hhit)
  · intro hr
    refine ⟨?_, ?_, fun before l hl hhit => ?_, hended.mpr hr.ended⟩
    · rw [hpassed, List.forall_mem_cons]
      exact ⟨by simp, hr.short⟩
    · rw [hpassed]
      exact hr.nonblank
    · rw [hpassed] at hl
      cases before with
      | nil =>
          obtain ⟨rfl, -⟩ := List.cons.inj hl
          exact absurd hhit hblank
      | cons x before =>
          obtain ⟨rfl, htail⟩ := List.cons.inj hl
          exact (hcolon before l hhit).mpr (hr.colon before l htail hhit)

/-- A text that does not start with a line feed. -/
lemma readable_text {b : Byte} (hb : b ≠ 0x0A) :
    Readable key (b :: u) ↔ ReadableFrom key [] (b :: u) := by
  have hfirst : ∀ l ∈ (passed key (b :: u)).head?, l ≠ [] := by
    obtain ⟨s, v, hu, hs, hs0, hv⟩ := text_cases (b :: u)
    rw [hu]
    rcases hv with rfl | ⟨u', rfl⟩ | ⟨u', rfl⟩
    · rw [List.append_nil, passed, textLines_unended hs hs0]
      simp [upTo]
    · rw [passed, textLines_zero hs hs0]
      simp [upTo]
    · have hne : s ≠ [] := by
        rintro rfl
        exact hb (List.cons.inj hu).1
      rw [passed, textLines_append hs hs0, upTo]
      split_ifs <;> simpa using hne
  constructor
  · intro hr
    refine ⟨hr.short, fun l hl => ?_, hr.colon, hr.ended⟩
    cases hp : passed key (b :: u) with
    | nil =>
        rw [hp] at hl
        simp at hl
    | cons x ls =>
        have hnonblank := hr.nonblank
        rw [hp, List.mem_cons] at hl
        rw [hp] at hfirst hnonblank
        rcases hl with rfl | hl
        · exact hfirst l rfl
        · exact hnonblank l hl
  · exact fun hr => ⟨hr.short, fun l hl => hr.nonblank l (List.mem_of_mem_tail hl),
      hr.colon, hr.ended⟩

/-! ### The search -/

/-- A round at a place from where on there is no line feed. -/
lemma scanLine_fails (hs : (0x0A : Byte) ∉ s) (hs0 : (0 : Byte) ∉ s)
    (hdrop : cpuinfo.drop q = stored s ++ some 0 :: rest) :
    scanLine cpuinfo out key cells q = .ok (.inr (-1, out)) := by
  rw [scanLine, hdrop, strchr_none hs0 hs (by decide), ok_bind]
  rfl

/-- A round that cannot see the end of its line. -/
lemma scanLine_unread (hs : (0x0A : Byte) ∉ s) (hs0 : (0 : Byte) ∉ s)
    (hrest : ∃ h, fetch rest = .error h) (hdrop : cpuinfo.drop q = stored s ++ rest) :
    ∃ h, scanLine cpuinfo out key cells q = .error h := by
  obtain ⟨h, hchr⟩ := strchr_unread hs0 hs hrest
  exact ⟨h, by rw [scanLine, hdrop, hchr, error_bind]⟩

/-- A round with a line before it. -/
lemma scanLine_line (hs : (0x0A : Byte) ∉ s) (hs0 : (0 : Byte) ∉ s)
    (hdrop : cpuinfo.drop q = stored s ++ some 0x0A :: rest) :
    scanLine cpuinfo out key cells q
      = copyLine cells (stored s ++ some 0x0A :: rest) s.length >>=
        fun line => matchLine out key line (q + s.length) := by
  rw [scanLine, hdrop, strchr_stored hs0 hs, ok_bind]

variable (cells out key) in
/-- Where the next round starts: at the line feed, which it passes over. -/
lemma findStep_feed (hdrop : cpuinfo.drop q = stored s ++ some 0x0A :: rest) :
    findStep cpuinfo out key (cells, q + s.length)
        = scanLine cpuinfo out key cells (q + s.length + 1)
      ∧ cpuinfo.drop (q + s.length + 1) = rest := by
  have hfeed : cpuinfo.drop (q + s.length) = some 0x0A :: rest := by
    rw [← List.drop_drop, hdrop, ← stored_length s, List.drop_left]
  refine ⟨?_, by rw [← List.drop_drop, hfeed]; rfl⟩
  rw [findStep, hfeed, fetch, ok_bind, if_pos rfl]

/-- A round that finds the line: it is right just if something stands behind the colon. -/
lemma find_hit {st : Cells × ℕ} {q' : ℕ} (hleft : Left cells xs) (hout : out.length = 512)
    (hs0 : (0 : Byte) ∉ s) (hkey : (0 : Byte) ∉ key) (hlt : s.length < 512) (hhit : Hit key s)
    (hline : findStep cpuinfo out key st
      = matchLine out key (stored (padded s) ++ cells.drop (s.length + 1)) q') :
    (∃ r, Settles (fun k => iter (findStep cpuinfo out key) k st) (.ok r) ∧ Looked key (s :: ls) r)
      ↔ ColonOk xs s := by
  obtain ⟨p, v, hchop, hp⟩ := List.eq_append_cons_of_mem hhit.2
  obtain ⟨hgood, hbad⟩ := strcpy_value hleft hout hs0 hlt hp hchop
  rw [matchLine_hit hs0 hkey hhit hp hchop] at hline
  cases hcopy : CMem.strcpy out
      ((stored (padded s) ++ cells.drop (s.length + 1)).drop (p.length + 2)) with
  | error h =>
      rw [hcopy] at hline hgood
      refine iff_of_false (iter_error_result hline _) fun hcolon => ?_
      obtain ⟨a, ha⟩ := hgood hcolon
      simp at ha
  | ok o =>
      rw [hcopy] at hline hgood
      rw [iter_inr_result hline, looked_hit hhit, and_iff_right rfl]
      constructor
      · exact fun ho => not_not.mp fun hcolon => hbad hcolon o hcopy ho
      · intro hcolon
        obtain ⟨a, ha⟩ := hgood hcolon
        exact ⟨a, Except.ok.inj ha⟩

/-- The search from a round on that looks at the line at `q`, behind the lines `xs`: it is right
just if the lines there can be read. -/
lemma find_iff (hkey : (0 : Byte) ∉ key) (hout : out.length = 512)
    (hrest : ∃ h, fetch rest = .error h) (n : ℕ) :
    ∀ {u xs cells p q}, u.length = n → Left cells xs → cpuinfo.drop q = stored u ++ rest →
      findStep cpuinfo out key (cells, p) = scanLine cpuinfo out key cells q →
      ((∃ r, Settles (fun k => iter (findStep cpuinfo out key) k (cells, p)) (.ok r)
          ∧ Looked key (lines u) r)
        ↔ ReadableFrom key xs u) := by
  induction n using Nat.strong_induction_on with
  | h n ih =>
      intro u xs cells p q hn hleft hdrop hstep
      obtain ⟨s, v, rfl, hs, hs0, hv⟩ := text_cases u
      rw [stored_append, List.append_assoc] at hdrop
      rcases hv with rfl | ⟨u', rfl⟩ | ⟨u', rfl⟩
      · -- the text ends in the middle of a line
        have hnot : ¬ ReadableFrom key xs (s ++ []) := by
          rw [List.append_nil, readableFrom_end (textLines_unended hs hs0)]
          exact fun h => hs0 h.1
        obtain ⟨h, hh⟩ : ∃ h, scanLine cpuinfo out key cells q = .error h :=
          scanLine_unread hs hs0 hrest hdrop
        exact iff_of_false (iter_error_result (hstep.trans hh) _) hnot
      · -- a zero byte ends the search
        have hfail := hstep.trans (scanLine_fails hs hs0 hdrop)
        rw [iter_inr_result hfail, looked_fails, readableFrom_end (textLines_zero hs hs0 u'),
          and_iff_right (by simp)]
      · have hline := hstep.trans (scanLine_line hs hs0 hdrop)
        by_cases hfits : s ≠ [] ∧ s.length < 512
        · obtain ⟨hne, hlt⟩ := hfits
          rw [copyLine_eq hne hs (by rw [hleft.size]; exact hlt), ok_bind] at hline
          by_cases hhit : Hit key s
          · -- the line is found
            rw [lines_append hs, find_hit hleft hout hs0 hkey hlt hhit hline,
              readableFrom_hit hs hs0 hhit, and_iff_right hne, and_iff_right hlt]
          · -- it is not, and the search goes on behind it
            rw [matchLine_miss hs0 hkey hhit] at hline
            obtain ⟨hnext, hdrop'⟩ := findStep_feed
              key (stored (padded s) ++ cells.drop (s.length + 1)) out hdrop
            have hgo := ih u'.length (by rw [← hn]; simp; omega) rfl
              (hleft.concat hs0 hlt) hdrop' hnext
            rw [lines_append hs, readableFrom_miss hs hs0 hhit, and_iff_right hne,
              and_iff_right hlt, ← hgo]
            simp only [settles_iter_inl hline, looked_miss hhit]
        · -- it cannot be copied
          have hlong : s = [] ∨ cells.length ≤ s.length := by
            rw [hleft.size]
            rw [not_and_or, not_not, Nat.not_lt] at hfits
            exact hfits
          rw [copyLine_halt hlong, error_bind] at hline
          refine iff_of_false (iter_error_result hline _) ?_
          by_cases hhit : Hit key s
          · rw [readableFrom_hit hs hs0 hhit]
            exact fun h => hfits ⟨h.1, h.2.1⟩
          · rw [readableFrom_miss hs hs0 hhit]
            exact fun h => hfits ⟨h.1, h.2.1⟩

end

/-- Whatever `out` holds, the call finds what it is to find just if it can read the text up to
there. -/
lemma findLine_memory (key : CStr) (hkey : key.1 ≠ []) (c : List Byte) {out : Cells}
    (hout : out.length = 512) :
    (∃ r, Settles (fun k => cpuinfoFindLine k (lineBuf true) (cpuinfoCells c) out key.1) (.ok r)
        ∧ Looked key.1 (lines c) r)
      ↔ Readable key.1 c := by
  have hrest := fetch_unread (1024 * 1024 - c.length)
  have hrun : (fun k => cpuinfoFindLine k (lineBuf true) (cpuinfoCells c) out key.1)
      = fun k => iter (findStep (cpuinfoCells c) out key.1) k (List.replicate 512 none, 0) := rfl
  rw [hrun]
  cases c with
  | nil =>
      have hstep : findStep (cpuinfoCells []) out key.1 (List.replicate 512 none, 0)
          = .error .uninitialised := rfl
      refine iff_of_false ?_ fun h => ?_
      · rintro ⟨r, hr, -⟩
        have := (settles_iter_error hstep).unique hr
        simp at this
      · obtain ⟨l, hl, -⟩ | ⟨h0, -⟩ := h.ended
        · simp [textLines, lines] at hl
        · simp at h0
  | cons b u =>
      by_cases hb : b = 0x0A
      · subst hb
        have hblank : ¬ Hit key.1 [] := fun h => hkey (List.prefix_nil.mp h.1)
        have hlines : lines (0x0A :: u) = [] :: lines u := lines_append (s := []) (by simp) u
        rw [readable_feed hkey, hlines]
        simp only [looked_miss hblank]
        exact find_iff (q := 1) key.2 hout hrest u.length rfl left_start rfl rfl
      · have hfetch : fetch (cpuinfoCells (b :: u)) = .ok b := rfl
        rw [readable_text hb]
        refine find_iff (q := 0) key.2 hout hrest (b :: u).length rfl left_start rfl ?_
        rw [findStep, List.drop_zero, hfetch, ok_bind, if_neg hb]

/-- The call of `cpuinfoLookup` is one of them. -/
lemma cpuinfoLookup_memory (key : CStr) (hkey : key.1 ≠ []) (c : List Byte) :
    (∃ r, Settles (cpuinfoLookup true c key.1) (.ok r) ∧ Looked key.1 (lines c) r)
      ↔ Readable key.1 c :=
  findLine_memory key hkey c List.length_replicate

/-- `cpuinfoFindLine` finds what it is to find just if it has memory for a line and can read the text
up to there, or has no memory and there is nothing to be found. -/
theorem cpuinfoFindLine_iff (memory : Bool) (key : CStr) (hkey : key.1 ≠ []) (c : List Byte) :
    (∃ r, Settles (cpuinfoLookup memory c key.1) (.ok r) ∧ Looked key.1 (lines c) r)
      ↔ if memory then Readable key.1 c else ∀ l ∈ lines c, ¬ Hit key.1 l := by
  cases memory with
  | true => exact cpuinfoLookup_memory key hkey c
  | false =>
      have hrun : Settles (cpuinfoLookup false c key.1) (.ok (-1, List.replicate 512 none)) :=
        Settles.const _
      rw [if_neg (by simp), ← looked_fails (List.replicate 512 none)]
      constructor
      · rintro ⟨r, hr, hlooked⟩
        rwa [← Except.ok.inj (hrun.unique hr)] at hlooked
      · exact fun hlooked => ⟨_, hrun, hlooked⟩

/-- A text with two lines before the one that is looked for. -/
theorem cpuinfoFindLine_first :
    chars "cpu" ≠ []
      ∧ ∃ r, Settles (cpuinfoLookup true (chars "processor : 0\nmodel : B\ncpu : A\r\n") (chars "cpu"))
          (.ok r)
        ∧ Looked (chars "cpu") (lines (chars "processor : 0\nmodel : B\ncpu : A\r\n")) r := by
  refine ⟨by decide, (cpuinfoFindLine_iff true ⟨chars "cpu", by decide⟩ (by decide) _).mpr ?_⟩
  have hpassed : passed (chars "cpu") (chars "processor : 0\nmodel : B\ncpu : A\r\n")
      = [chars "processor : 0", chars "model : B"] ++ [chars "cpu : A\r"] := by
    decide +kernel
  refine ⟨?_, ?_, fun before l hl _ => ?_, Or.inl (by decide +kernel)⟩
  · rw [hpassed]
    decide
  · rw [hpassed]
    decide
  · dsimp only at hl
    rw [hpassed] at hl
    obtain ⟨rfl, hl⟩ := List.append_inj' hl rfl
    obtain rfl : chars "cpu : A\r" = l := by simpa using hl
    exact Or.inl (by decide)

/-- The line is not found in a text with a blank line before it: there the byte before the line buffer
is read. -/
theorem blankLine_halts :
    ¬ ∃ r, Settles (cpuinfoLookup true (chars "processor : 0\n\ncpu : A\n") (chars "cpu")) (.ok r)
      ∧ Looked (chars "cpu") (lines (chars "processor : 0\n\ncpu : A\n")) r := by
  have hkey : chars "cpu" ≠ [] := by decide
  have hblank : [] ∈ (passed (chars "cpu") (chars "processor : 0\n\ncpu : A\n")).tail := by decide
  have hiff := cpuinfoLookup_memory ⟨chars "cpu", by decide⟩ hkey (chars "processor : 0\n\ncpu : A\n")
  exact fun h => (hiff.mp h).nonblank [] hblank rfl

end EverythingNet
