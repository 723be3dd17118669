import Mathlib.Tactic
import EverythingNet.Lib.CString

/-!
`plat/common/libc/string.c`: the functions of the internal C library that search.

* `memcmp`, `strlen`, `strnlen`, `strchr`, `strstr`: the functions, one definition for a round of
  each loop. A pointer into an array is the list of its cells from there on.
* `memcmp_settles`, `strlen_settles`, `strchr_settles`, `strstr_settles`, `strnlen_settles_iff`: what
  the functions return. The first two are as ISO C has them.
* `StrnlenMeets`, `StrchrMeets`, `StrstrMeets`: what ISO C asks of the other three on one input, and
  `searches_meet_iff`: the inputs on which they do it.
-/

namespace EverythingNet.Libc

open CMem

/-! ### The functions -/

/-- A round of the loop of `memcmp`. -/
def memcmpStep (a b : Cells) (n i : ℕ) : Except Halt (ℕ ⊕ ℤ) :=
  if i < n then do
    let x ← fetch (a.drop i)
    let y ← fetch (b.drop i)
    if x ≠ y then return .inr (x.toNat - y.toNat) else return .inl (i + 1)
  else .ok (.inr 0)

/-- `memcmp`. -/
def memcmp (k : ℕ) (s1 s2 : Cells) (n : ℕ) : Except Halt ℤ := iter (memcmpStep s1 s2 n) k 0

/-- A round of the loop of `strlen`. -/
def strlenStep (str : Cells) (i : ℕ) : Except Halt (ℕ ⊕ ℕ) := do
  let c ← fetch (str.drop i)
  if c ≠ 0 then return .inl (i + 1) else return .inr i

/-- `strlen`. -/
def strlen (k : ℕ) (str : Cells) : Except Halt ℕ := iter (strlenStep str) k 0

/-- A round of the loop of `strnlen`. -/
def strnlenStep (str : Cells) (maxlen i : ℕ) : Except Halt (ℕ ⊕ ℕ) := do
  let c ← fetch (str.drop i)
  if c ≠ 0 ∨ i ≠ maxlen then return .inl (i + 1) else return .inr i

/-- `strnlen`. -/
def strnlen (k : ℕ) (str : Cells) (maxlen : ℕ) : Except Halt ℕ := iter (strnlenStep str maxlen) k 0

/-- A `char` as the `int` it is promoted to. Whether `char` is signed depends on the port. -/
def promote (charSigned : Bool) (b : Byte) : BitVec 32 :=
  if charSigned then b.signExtend 32 else b.setWidth 32

/-- A round of the loop of `strchr`; the pointer `s` is its distance from the start. -/
def strchrStep (charSigned : Bool) (str : Cells) (c : BitVec 32) (s : ℕ) :
    Except Halt (ℕ ⊕ Option ℕ) := do
  let ch ← fetch (str.drop s)
  if ch = 0 then return .inr none
  else if promote charSigned ch = c then return .inr (some s)
  else return .inl (s + 1)

/-- `strchr`. -/
def strchr (charSigned : Bool) (k : ℕ) (s : Cells) (c : BitVec 32) : Except Halt (Option ℕ) :=
  iter (strchrStep charSigned s c) k 0

/-- A round of the loop of `strstr`; the pointer `haystack` is its distance from the start. -/
def strstrStep (str needle : Cells) (size k haystack : ℕ) : Except Halt (ℕ ⊕ Option ℕ) := do
  let c ← fetch (str.drop haystack)
  if c = 0 then return .inr none
  else
    let r ← memcmp k (str.drop haystack) needle size
    if r = 0 then return .inr (some haystack) else return .inl (haystack + 1)

/-- `strstr`. -/
def strstr (k : ℕ) (haystack needle : Cells) : Except Halt (Option ℕ) := do
  let size ← strlen k needle
  iter (strstrStep haystack needle size k) k 0

/-! ### What they return -/

section

variable {s n : List Byte} {a b : Cells}

/-- The bytes of a string before its terminator. -/
lemma getElem_ne_zero (hs : (0 : Byte) ∉ s) {i : ℕ} (hi : i < s.length) : s[i] ≠ 0 :=
  fun h => hs (h ▸ List.getElem_mem hi)

lemma strlen_settles (hs : (0 : Byte) ∉ s) (a : Cells) :
    Settles (fun k => strlen k (stored s ++ some 0 :: a)) (.ok s.length) := by
  refine settles_iter_count (n := s.length) (fun i hi => ?_) ?_
  · rw [strlenStep, fetch_drop_getElem _ hi, ok_bind, if_pos (getElem_ne_zero hs hi)]
    rfl
  · rw [strlenStep, fetch_drop_stored]
    rfl

/-- Where a string differs from the start of another one. -/
lemma exists_mismatch (hn : (0 : Byte) ∉ n) (h : ¬ n <+: s) :
    ∃ p c n' d s', n = p ++ c :: n' ∧ s ++ [0] = p ++ d :: s' ∧ d ≠ c := by
  induction n generalizing s with
  | nil => exact absurd List.nil_prefix h
  | cons c n ih =>
      rw [List.mem_cons, not_or] at hn
      cases s with
      | nil => exact ⟨[], c, n, 0, [], rfl, rfl, hn.1⟩
      | cons d s =>
          by_cases hdc : d = c
          · rw [← hdc, List.cons_prefix_cons] at h
            obtain ⟨p, x, n', y, s', hn', hs', hne⟩ := ih hn.2 fun hpre => h ⟨rfl, hpre⟩
            exact ⟨c :: p, x, n', y, s', by rw [hn', List.cons_append],
              by rw [List.cons_append, hs', hdc, List.cons_append], hne⟩
          · exact ⟨[], c, n, d, s ++ [0], rfl, rfl, hdc⟩

/-- `memcmp` with a string stops at the first difference, so that it stays inside both. -/
lemma memcmp_settles (hn : (0 : Byte) ∉ n) (a b : Cells) :
    ∃ r, Settles (fun k => memcmp k (stored s ++ some 0 :: a) (stored n ++ b) n.length) (.ok r)
      ∧ (r = 0 ↔ n <+: s) := by
  by_cases h : n <+: s
  · obtain ⟨u, rfl⟩ := h
    refine ⟨0, settles_iter_count (n := n.length) (fun i hi => ?_) ?_,
      iff_of_true rfl (List.prefix_append n u)⟩
    · have hx : fetch ((stored (n ++ u) ++ some 0 :: a).drop i) = .ok n[i] := by
        rw [fetch_drop_getElem _ (by rw [List.length_append]; omega), List.getElem_append_left hi]
      rw [memcmpStep, if_pos hi, hx, ok_bind, fetch_drop_getElem _ hi, ok_bind,
        if_neg (not_not.mpr rfl)]
      rfl
    · rw [memcmpStep, if_neg (lt_irrefl _)]
  · obtain ⟨p, c, n', d, s', rfl, hs, hne⟩ := exists_mismatch hn h
    have hcells : stored s ++ some 0 :: a = stored (p ++ d :: s') ++ a := by
      rw [← hs, stored_append, List.append_assoc]
      rfl
    have hlt : p.length < (p ++ c :: n').length := by
      rw [List.length_append, List.length_cons]
      omega
    refine ⟨d.toNat - c.toNat, settles_iter_count (n := p.length) (fun i hi => ?_) ?_, ?_⟩
    · have hx : ∀ (e : Byte) (l : List Byte) (z : Cells),
          fetch ((stored (p ++ e :: l) ++ z).drop i) = .ok p[i] := by
        intro e l z
        rw [fetch_drop_getElem _ (by rw [List.length_append]; omega), List.getElem_append_left hi]
      rw [memcmpStep, if_pos (hi.trans hlt), hcells, hx, ok_bind, hx, ok_bind,
        if_neg (not_not.mpr rfl)]
      rfl
    · have hx : ∀ (e : Byte) (l : List Byte) (z : Cells),
          fetch ((stored (p ++ e :: l) ++ z).drop p.length) = .ok e := by
        intro e l z
        rw [stored_append, List.append_assoc]
        exact fetch_drop_stored p e _
      rw [memcmpStep, if_pos hlt, hcells, hx, ok_bind, hx, ok_bind, if_pos hne]
      rfl
    · have hne' : d.toNat ≠ c.toNat := fun heq => hne (BitVec.eq_of_toNat_eq heq)
      exact iff_of_false (by omega) h

lemma strchr_settles (charSigned : Bool) (hs : (0 : Byte) ∉ s) (a : Cells) (c : BitVec 32) :
    Settles (fun k => strchr charSigned k (stored s ++ some 0 :: a) c)
      (.ok (s.findIdx? fun b => promote charSigned b = c)) := by
  have hpass : ∀ {i : ℕ} (hi : i < s.length), promote charSigned s[i] ≠ c →
      strchrStep charSigned (stored s ++ some 0 :: a) c i = .ok (.inl (i + 1)) := by
    intro i hi hne
    rw [strchrStep, fetch_drop_getElem _ hi, ok_bind, if_neg (getElem_ne_zero hs hi), if_neg hne]
    rfl
  cases hf : s.findIdx? (fun b => promote charSigned b = c) with
  | none =>
      rw [List.findIdx?_eq_none_iff] at hf
      refine settles_iter_count (n := s.length) (fun i hi => hpass hi ?_) ?_
      · simpa using hf s[i] (List.getElem_mem hi)
      · rw [strchrStep, fetch_drop_stored]
        rfl
  | some i =>
      obtain ⟨hi, hfound, hbefore⟩ := List.findIdx?_eq_some_iff_getElem.mp hf
      refine settles_iter_count (n := i) (fun j hj => hpass (hj.trans hi) ?_) ?_
      · simpa using hbefore j hj
      · rw [strchrStep, fetch_drop_getElem _ hi, ok_bind, if_neg (getElem_ne_zero hs hi),
          if_pos (of_decide_eq_true hfound)]
        rfl

/-- A round of `strstr` before the terminator. -/
lemma strstrStep_settles (hs : (0 : Byte) ∉ s) (hn : (0 : Byte) ∉ n) (a b : Cells) {i : ℕ}
    (hi : i < s.length) :
    Settles (fun k => strstrStep (stored s ++ some 0 :: a) (stored n ++ some 0 :: b) n.length k i)
      (.ok (if n <+: s.drop i then .inr (some i) else .inl (i + 1))) := by
  obtain ⟨r, ⟨N, hN⟩, hiff⟩ := memcmp_settles (s := s.drop i) hn a (some 0 :: b)
  refine ⟨N, fun k hk => ?_⟩
  dsimp only at hN ⊢
  rw [strstrStep, fetch_drop_getElem _ hi, ok_bind, if_neg (getElem_ne_zero hs hi),
    drop_stored _ hi.le, hN k hk, ok_bind]
  by_cases hr : r = 0
  · rw [if_pos hr, if_pos (hiff.mp hr)]
    rfl
  · rw [if_neg hr, if_neg (mt hiff.mpr hr)]
    rfl

/-- `strstr` finds what there is, except that it looks for nothing in an empty string. -/
lemma strstr_settles (hs : (0 : Byte) ∉ s) (hn : (0 : Byte) ∉ n) (a b : Cells) :
    Settles (fun k => strstr k (stored s ++ some 0 :: a) (stored n ++ some 0 :: b))
      (.ok (if s = [] then none else firstAt n s)) := by
  refine (strlen_settles hn b).bind (LoopSettles.settles ?_)
  have hend : LoopSettles
      (strstrStep (stored s ++ some 0 :: a) (stored n ++ some 0 :: b) n.length) s.length
      (.ok none) := by
    refine .done ((Settles.const _).congr fun k => ?_)
    rw [strstrStep, fetch_drop_stored]
    rfl
  by_cases hnil : s = []
  · rw [if_pos hnil]
    rwa [hnil] at hend ⊢
  · rw [if_neg hnil]
    cases hf : firstAt n s with
    | none =>
        refine .count (fun i hi => ?_) hend
        have hround := strstrStep_settles hs hn a b hi
        rwa [if_neg (firstAt_none hf hi.le)] at hround
    | some i =>
        obtain ⟨hle, hpre, hmin⟩ := firstAt_pos hf
        have hi : i < s.length := by
          rcases hle.lt_or_eq with hlt | rfl
          · exact hlt
          · -- what occurs behind the last character is empty and occurs at the start
            rw [List.drop_length, List.prefix_nil] at hpre
            rw [hpre] at hmin
            exact absurd List.nil_prefix (hmin 0 (List.length_pos_of_ne_nil hnil))
        refine .count (n := i) (fun j hj => ?_) (.done ?_)
        · have hround := strstrStep_settles hs hn a b (hj.trans hi)
          rwa [if_neg (hmin j hj)] at hround
        · have hround := strstrStep_settles hs hn a b hi
          rwa [if_pos hpre] at hround

/-- A round of `strnlen` behind the bytes it has passed. -/
lemma strnlenStep_eq_ok {l : List Byte} {maxlen : ℕ} {x : ℕ ⊕ ℕ}
    (h : strnlenStep (stored l ++ a) maxlen l.length = .ok x) :
    ∃ c a', a = some c :: a'
      ∧ x = if c ≠ 0 ∨ l.length ≠ maxlen then .inl (l.length + 1) else .inr l.length := by
  rw [strnlenStep, ← stored_length l, List.drop_left, stored_length] at h
  obtain ⟨c, hc, hx⟩ := bind_eq_ok.mp h
  obtain ⟨a', rfl⟩ := fetch_eq_ok hc
  refine ⟨c, a', rfl, ?_⟩
  by_cases hcond : c ≠ 0 ∨ l.length ≠ maxlen
  · rw [if_pos hcond] at hx ⊢
    exact (Except.ok.inj hx).symm
  · rw [if_neg hcond] at hx ⊢
    exact (Except.ok.inj hx).symm

/-- `strnlen` returns just if there is a zero byte at the limit itself; it then returns the limit. -/
lemma strnlen_settles_iff (str : Cells) (maxlen r : ℕ) :
    Settles (fun k => strnlen k str maxlen) (.ok r) ↔
      r = maxlen ∧ ∃ l a, l.length = maxlen ∧ str = stored l ++ some 0 :: a := by
  constructor
  · rintro ⟨N, hN⟩
    refine @iter_induct _ _ (strnlenStep str maxlen)
      (fun i => ∃ l a, l.length = i ∧ str = stored l ++ a)
      (fun r => r = maxlen ∧ ∃ l a, l.length = maxlen ∧ str = stored l ++ some 0 :: a)
      ?_ ?_ N 0 r ⟨[], str, rfl, rfl⟩ (hN N le_rfl)
    · rintro i i' ⟨l, a, rfl, rfl⟩ hstep
      obtain ⟨c, a', rfl, hx⟩ := strnlenStep_eq_ok hstep
      split_ifs at hx with hcond
      obtain rfl := Sum.inl.inj hx
      exact ⟨l ++ [c], a', by simp, by simp⟩
    · rintro i q ⟨l, a, rfl, rfl⟩ hstep
      obtain ⟨c, a', rfl, hx⟩ := strnlenStep_eq_ok hstep
      split_ifs at hx with hcond
      obtain ⟨rfl, rfl⟩ : c = 0 ∧ l.length = maxlen := by simpa using hcond
      exact ⟨Sum.inr.inj hx, l, a', rfl, rfl⟩
  · rintro ⟨rfl, l, a, rfl, rfl⟩
    refine settles_iter_count (n := l.length) (fun i hi => ?_) ?_
    · rw [strnlenStep, fetch_drop_getElem _ hi, ok_bind, if_pos (Or.inr hi.ne)]
      rfl
    · rw [strnlenStep, fetch_drop_stored, ok_bind, if_neg (by simp)]
      rfl

end

/-! ### What ISO C asks -/

/-- `strnlen` on a string, or on a buffer that starts with its characters and has no terminator before
index `maxlen`: the smaller of both lengths, whatever lies at index `maxlen` and behind. -/
def StrnlenMeets (s : CStr) (maxlen : ℕ) : Prop :=
  ∀ a, Settles (fun k => strnlen k (stored ((s.1 ++ [0]).take maxlen) ++ a) maxlen)
    (.ok (min s.1.length maxlen))

/-- `strchr`: the first place of the character `(char)c`, the terminator included, whatever lies behind
the terminator. -/
def StrchrMeets (charSigned : Bool) (s : CStr) (c : BitVec 32) : Prop :=
  ∀ a, Settles (fun k => strchr charSigned k (stored s.1 ++ some 0 :: a) c)
    (.ok ((s.1 ++ [0]).idxOf? (c.setWidth 8)))

/-- `strstr`: the first place of the needle, whatever lies behind the terminators. -/
def StrstrMeets (haystack needle : CStr) : Prop :=
  ∀ a b, Settles
    (fun k => strstr k (stored haystack.1 ++ some 0 :: a) (stored needle.1 ++ some 0 :: b))
    (.ok (firstAt needle.1 haystack.1))

/-- With nothing behind index `maxlen` the loop of `strnlen` leaves the buffer. -/
lemma not_strnlenMeets (s : CStr) (maxlen : ℕ) : ¬ StrnlenMeets s maxlen := by
  intro h
  obtain ⟨-, l, a, hl, heq⟩ := (strnlen_settles_iff _ _ _).mp (h [])
  have hle : (stored ((s.1 ++ [0]).take maxlen) ++ []).length ≤ maxlen := by
    rw [List.append_nil, stored_length]
    exact List.length_take_le ..
  rw [heq, List.length_append, stored_length, List.length_cons] at hle
  omega

/-- The character of a promoted character. -/
lemma setWidth_promote (charSigned : Bool) (b : Byte) : (promote charSigned b).setWidth 8 = b := by
  cases charSigned with
  | false => rw [promote, if_neg (by decide), BitVec.setWidth_setWidth_of_le b (by decide),
      BitVec.setWidth_eq]
  | true =>
      rw [promote, if_pos rfl]
      ext i hi
      rw [BitVec.getElem_setWidth, BitVec.getLsbD_signExtend]
      have h32 : i < 32 := by omega
      simp [hi, h32]

/-- Only the character `(char)c` can compare equal to `c`. -/
lemma eq_of_promote_eq {charSigned : Bool} {b : Byte} {c : BitVec 32} (h : promote charSigned b = c) :
    b = c.setWidth 8 := by
  rw [← h, setWidth_promote]

lemma strchrMeets_iff (charSigned : Bool) (s : CStr) (c : BitVec 32) :
    StrchrMeets charSigned s c ↔
      c.setWidth 8 ≠ 0 ∧ (promote charSigned (c.setWidth 8) = c ∨ c.setWidth 8 ∉ s.1) := by
  have hmeets : StrchrMeets charSigned s c ↔
      (s.1.findIdx? fun b => promote charSigned b = c) = (s.1 ++ [0]).idxOf? (c.setWidth 8) := by
    constructor
    · exact fun h => Except.ok.inj ((strchr_settles charSigned s.2 [] c).unique (h []))
    · exact fun h a => h ▸ strchr_settles charSigned s.2 a c
  rw [hmeets]
  by_cases h0 : c.setWidth 8 = 0
  · -- the terminator is looked for, which the loop never compares
    have hidx : (s.1 ++ [0]).idxOf? (c.setWidth 8) ≠ none := by
      rw [h0, ne_eq, List.idxOf?_eq_none_iff]
      simp
    have hfind : (s.1.findIdx? fun b => promote charSigned b = c) = none := by
      rw [List.findIdx?_eq_none_iff]
      exact fun b hb => decide_eq_false fun h => s.2 ((h0 ▸ eq_of_promote_eq h) ▸ hb)
    rw [hfind]
    exact iff_of_false hidx.symm fun h => h.1 h0
  · have hlast : (s.1 ++ [0]).idxOf? (c.setWidth 8) = s.1.idxOf? (c.setWidth 8) := by
      have hne : ((0 : Byte) == c.setWidth 8) = false := beq_eq_false_iff_ne.mpr (Ne.symm h0)
      rw [List.idxOf?, List.findIdx?_append, List.findIdx?_singleton, hne]
      simp
    rw [hlast]
    by_cases hc : promote charSigned (c.setWidth 8) = c
    · have hsame : (fun b => decide (promote charSigned b = c)) = fun b => b == c.setWidth 8 := by
        funext b
        rw [Bool.eq_iff_iff, decide_eq_true_iff, beq_iff_eq]
        exact ⟨eq_of_promote_eq, fun h => h ▸ hc⟩
      rw [hsame]
      exact iff_of_true rfl ⟨h0, Or.inl hc⟩
    · have hfind : (s.1.findIdx? fun b => promote charSigned b = c) = none := by
        rw [List.findIdx?_eq_none_iff]
        exact fun b hb => decide_eq_false fun h => hc (eq_of_promote_eq h ▸ h)
      rw [hfind, eq_comm, List.idxOf?_eq_none_iff]
      exact ⟨fun h => ⟨h0, Or.inr h⟩, fun h => h.2.resolve_left hc⟩

lemma strstrMeets_iff (haystack needle : CStr) :
    StrstrMeets haystack needle ↔ ¬ (haystack.1 = [] ∧ needle.1 = []) := by
  have hmeets : StrstrMeets haystack needle ↔
      (if haystack.1 = [] then none else firstAt needle.1 haystack.1)
        = firstAt needle.1 haystack.1 := by
    constructor
    · exact fun h => Except.ok.inj ((strstr_settles haystack.2 needle.2 [] []).unique (h [] []))
    · exact fun h a b => h ▸ strstr_settles haystack.2 needle.2 a b
  rw [hmeets]
  by_cases hs : haystack.1 = []
  · rw [if_pos hs, eq_comm, firstAt_eq_none, hs]
    constructor
    · rintro h ⟨-, hn⟩
      exact h [] [] (by rw [hn]; rfl)
    · intro h p t heq
      have hn : needle.1 = [] := by
        rw [eq_comm, List.append_eq_nil_iff, List.append_eq_nil_iff] at heq
        exact heq.1.2
      exact h ⟨rfl, hn⟩
  · rw [if_neg hs]
    exact iff_of_true rfl fun h => hs h.1

/-- The inputs on which the searching functions do what ISO C asks of them: `strnlen` on none,
`strchr` if it is not asked for the terminator and `c` has the value of a character (or has that of
no character of the string), `strstr` unless it is asked for nothing in nothing. -/
theorem searches_meet_iff (s haystack needle : CStr) (maxlen : ℕ) (charSigned : Bool)
    (c : BitVec 32) :
    ¬ StrnlenMeets s maxlen
      ∧ (StrchrMeets charSigned s c ↔
        c.setWidth 8 ≠ 0 ∧ (promote charSigned (c.setWidth 8) = c ∨ c.setWidth 8 ∉ s.1))
      ∧ (StrstrMeets haystack needle ↔ ¬ (haystack.1 = [] ∧ needle.1 = [])) :=
  ⟨not_strnlenMeets s maxlen, strchrMeets_iff charSigned s c, strstrMeets_iff haystack needle⟩

/-- `strnlen("a", 5)`, `strchr("a", '\0')`, `strchr("\xe9", 0xe9)` where `char` is signed, and
`strstr("", "")`. -/
theorem searches_do_not_meet :
    ¬ StrnlenMeets ⟨[97], by decide⟩ 5
      ∧ ¬ StrchrMeets true ⟨[97], by decide⟩ 0
      ∧ ¬ StrchrMeets true ⟨[0xe9], by decide⟩ 0xe9
      ∧ ¬ StrstrMeets ⟨[], by decide⟩ ⟨[], by decide⟩ := by
  refine ⟨not_strnlenMeets _ _, ?_, ?_, ?_⟩
  · rw [strchrMeets_iff]
    decide
  · rw [strchrMeets_iff]
    decide
  · rw [strstrMeets_iff]
    decide

end EverythingNet.Libc
