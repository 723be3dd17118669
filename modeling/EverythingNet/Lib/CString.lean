import Mathlib.Data.List.TakeWhile
import Mathlib.Tactic
import EverythingNet.Lib.Bytes
import EverythingNet.Lib.Outcome

/-!
C strings in arrays some of whose bytes have no value.

A pointer into an array is the list of the cells from there on (`Cells`): a cell that was never
written is `none`. An access of such a cell, or behind the last one, halts.

* `strlen`, `strchr`, `strncmp`, `strcmp`, `readN`, `strText`: the functions that read. What each of them does
  on an array that starts with a string `s` is `strlen_stored` and so on, if the string has its
  terminator; `strchr_unread` and `strcmp_unread` say when they run into a cell without a value if it
  has none.
* `write`, `memcpy`, `strcpy`, `strcat`, `strncat`: the functions that write. `write_stored` and
  `strncat_stored` say what is then in the array, `write_eq_error` when it is too short.
-/

namespace CMem

/-- The cells of an array from a pointer on. -/
abbrev Cells := List (Option Byte)

/-- Cells with these values. -/
def stored (l : List Byte) : Cells := l.map some

@[simp] lemma stored_nil : stored [] = [] := rfl

@[simp] lemma stored_cons (b : Byte) (l : List Byte) : stored (b :: l) = some b :: stored l := rfl

@[simp] lemma stored_append (l l' : List Byte) : stored (l ++ l') = stored l ++ stored l' :=
  List.map_append

@[simp] lemma stored_length (l : List Byte) : (stored l).length = l.length := List.length_map ..

/-! ### Up to the terminator -/

section

variable {s l : List Byte}

lemma takeWhile_text (hs : (0 : Byte) ∉ s) (l : List Byte) :
    (s ++ l).takeWhile (· ≠ 0) = s ++ l.takeWhile (· ≠ 0) :=
  List.takeWhile_append_of_pos fun b hb => by simpa using fun h : b = 0 => hs (h ▸ hb)

lemma takeWhile_unended (hs : (0 : Byte) ∉ s) : s.takeWhile (· ≠ 0) = s := by
  simpa using takeWhile_text hs []

lemma takeWhile_ended (hs : (0 : Byte) ∉ s) (l : List Byte) :
    (s ++ 0 :: l).takeWhile (· ≠ 0) = s := by
  rw [takeWhile_text hs, List.takeWhile_cons_of_neg (by simp), List.append_nil]

/-- Zeros behind some bytes do not change the string. -/
lemma takeWhile_padded (l : List Byte) (k : ℕ) :
    (l ++ List.replicate k 0).takeWhile (· ≠ 0) = l.takeWhile (· ≠ 0) := by
  by_cases h0 : (0 : Byte) ∈ l
  · obtain ⟨s, t, rfl, hs⟩ := List.eq_append_cons_of_mem h0
    rw [List.append_assoc, List.cons_append, takeWhile_ended hs, takeWhile_ended hs]
  · rw [takeWhile_text h0, takeWhile_unended h0, List.takeWhile_replicate_eq_filter]
    simp

/-- Bytes with a zero byte among them are a string. -/
lemma stored_takeWhile (h : (0 : Byte) ∈ l) (a : Cells) :
    ∃ b, stored l ++ a = stored (l.takeWhile (· ≠ 0)) ++ some 0 :: b := by
  obtain ⟨s, t, rfl, hs⟩ := List.eq_append_cons_of_mem h
  rw [takeWhile_ended hs]
  exact ⟨stored t ++ a, by rw [stored_append, List.append_assoc]; rfl⟩

end

/-! ### Occurrences -/

section

variable {n h : List Byte} {i : ℕ}

/-- Where `n` occurs in `h` for the first time. -/
def firstAt (n h : List Byte) : Option ℕ := (h.dropInfix? n).map fun q => q.1.length

/-- Where `n` occurs. -/
lemma occurs_iff : (∃ p s, h = p ++ n ++ s ∧ p.length = i) ↔ i ≤ h.length ∧ n <+: h.drop i := by
  constructor
  · rintro ⟨p, s, rfl, rfl⟩
    refine ⟨by simp only [List.length_append]; omega, ?_⟩
    rw [List.append_assoc, List.drop_left]
    exact List.prefix_append n s
  · rintro ⟨hi, s, hs⟩
    refine ⟨h.take i, s, ?_, List.length_take_of_le hi⟩
    rw [List.append_assoc, hs, List.take_append_drop]

lemma firstAt_eq_some : firstAt n h = some i ↔
    (∃ p s, h = p ++ n ++ s ∧ p.length = i) ∧ ∀ p s, h = p ++ n ++ s → i ≤ p.length := by
  rw [firstAt, Option.map_eq_some_iff]
  constructor
  · rintro ⟨⟨p, s⟩, hq, rfl⟩
    obtain ⟨⟨n', rfl, hn⟩, hmin⟩ := List.dropInfix?_eq_some_iff.mp hq
    obtain rfl := eq_of_beq hn
    exact ⟨⟨p, s, rfl, rfl⟩, fun p' s' heq => hmin p' n' s' heq (beq_self_eq_true n')⟩
  · rintro ⟨⟨p, s, rfl, rfl⟩, hmin⟩
    refine ⟨(p, s), List.dropInfix?_eq_some_iff.mpr ⟨⟨n, rfl, beq_self_eq_true n⟩, ?_⟩, rfl⟩
    intro p' n' s' heq hn
    obtain rfl := eq_of_beq hn
    exact hmin p' s' heq

/-- What occurs occurs for a first time. -/
lemma exists_firstAt {p s : List Byte} (hps : h = p ++ n ++ s) : ∃ i, firstAt n h = some i := by
  classical
  have hex : ∃ i p s, h = p ++ n ++ s ∧ p.length = i := ⟨p.length, p, s, hps, rfl⟩
  refine ⟨Nat.find hex, firstAt_eq_some.mpr ⟨Nat.find_spec hex, ?_⟩⟩
  exact fun p' s' heq => Nat.find_min' hex ⟨p', s', heq, rfl⟩

lemma firstAt_eq_none : firstAt n h = none ↔ ∀ p s, h ≠ p ++ n ++ s := by
  constructor
  · intro hno p s heq
    obtain ⟨i, hi⟩ := exists_firstAt heq
    simp [hno] at hi
  · intro hno
    cases hi : firstAt n h with
    | none => rfl
    | some i =>
        obtain ⟨⟨p, s, heq, -⟩, -⟩ := firstAt_eq_some.mp hi
        exact absurd heq (hno p s)

/-- The first occurrence, by positions. -/
lemma firstAt_pos (hi : firstAt n h = some i) :
    i ≤ h.length ∧ n <+: h.drop i ∧ ∀ j < i, ¬ n <+: h.drop j := by
  obtain ⟨hocc, hmin⟩ := firstAt_eq_some.mp hi
  obtain ⟨hle, hpre⟩ := occurs_iff.mp hocc
  refine ⟨hle, hpre, fun j hj hpre' => ?_⟩
  obtain ⟨p, s, heq, rfl⟩ := occurs_iff.mpr ⟨by omega, hpre'⟩
  exact absurd (hmin p s heq) (by omega)

lemma firstAt_of_pos (hi : i ≤ h.length) (hpre : n <+: h.drop i) (hmin : ∀ j < i, ¬ n <+: h.drop j) :
    firstAt n h = some i := by
  refine firstAt_eq_some.mpr ⟨occurs_iff.mpr ⟨hi, hpre⟩, fun p s heq => ?_⟩
  by_contra hlt
  exact hmin p.length (by omega) (occurs_iff.mp ⟨p, s, heq, rfl⟩).2

lemma firstAt_none (hno : firstAt n h = none) {j : ℕ} (hj : j ≤ h.length) : ¬ n <+: h.drop j := by
  intro hpre
  obtain ⟨p, s, heq, -⟩ := occurs_iff.mpr ⟨hj, hpre⟩
  exact firstAt_eq_none.mp hno p s heq

/-- `n` cannot begin inside `p`, whatever is behind `p`. -/
def Apart (n p : List Byte) : Prop := ∀ i < p.length, ¬ p.drop i <+: n ∧ ¬ n <+: p.drop i

instance (n p : List Byte) : Decidable (Apart n p) :=
  inferInstanceAs (Decidable (∀ i < p.length, _))

/-- What cannot begin inside the first part is looked for behind it. -/
lemma firstAt_append {p : List Byte} (hp : Apart n p) (h : List Byte) :
    firstAt n (p ++ h) = (firstAt n h).map (p.length + ·) := by
  have hbefore : ∀ j < p.length, ¬ n <+: (p ++ h).drop j := by
    intro j hj hpre
    obtain ⟨hno, hno'⟩ := hp j hj
    rw [List.drop_append_of_le_length hj.le] at hpre
    rcases Nat.le_total (p.drop j).length n.length with hle | hle
    · exact hno (List.prefix_of_prefix_length_le (List.prefix_append _ _) hpre hle)
    · exact hno' (List.prefix_of_prefix_length_le hpre (List.prefix_append _ _) hle)
  have hbehind : ∀ j, (p ++ h).drop (p.length + j) = h.drop j := by
    intro j
    rw [← List.drop_drop, List.drop_left]
  cases hi : firstAt n h with
  | some i =>
      obtain ⟨hle, hpre, hmin⟩ := firstAt_pos hi
      rw [Option.map_some]
      refine firstAt_of_pos ?_ (by rwa [hbehind]) fun j hj hpre' => ?_
      · rw [List.length_append]
        omega
      · rcases Nat.lt_or_ge j p.length with hlt | hge
        · exact hbefore j hlt hpre'
        · obtain ⟨k, rfl⟩ := Nat.exists_eq_add_of_le hge
          rw [hbehind] at hpre'
          exact hmin k (by omega) hpre'
  | none =>
      refine firstAt_eq_none.mpr fun q r heq => ?_
      obtain ⟨hle, hpre⟩ := occurs_iff.mp ⟨q, r, heq, rfl⟩
      rcases Nat.lt_or_ge q.length p.length with hlt | hge
      · exact hbefore _ hlt hpre
      · obtain ⟨k, hk⟩ := Nat.exists_eq_add_of_le hge
        rw [hk, hbehind] at hpre
        rw [List.length_append] at hle
        exact firstAt_none hi (by omega) hpre

end

/-- The bytes of a text. -/
def chars (s : String) : List Byte := s.toList.map fun c => BitVec.ofNat 8 c.toNat

/-! ### Reading -/

/-- `*p`. -/
def fetch : Cells → Except Halt Byte
  | [] => .error .outOfBounds
  | none :: _ => .error .uninitialised
  | some b :: _ => .ok b

/-- The cell behind some stored ones. -/
lemma fetch_drop_stored (s : List Byte) (b : Byte) (a : Cells) :
    fetch ((stored s ++ some b :: a).drop s.length) = .ok b := by
  rw [← stored_length s, List.drop_left]
  rfl

/-- A cell that can be read holds a byte. -/
lemma fetch_eq_ok {a : Cells} {b : Byte} (h : fetch a = .ok b) : ∃ a', a = some b :: a' := by
  cases a with
  | nil => simp [fetch] at h
  | cons x a =>
      cases x with
      | none => simp [fetch] at h
      | some c => exact ⟨a, by rw [Except.ok.inj h]⟩

/-- The rest of a string. -/
lemma drop_stored {l : List Byte} (a : Cells) {i : ℕ} (hi : i ≤ l.length) :
    (stored l ++ a).drop i = stored (l.drop i) ++ a := by
  rw [List.drop_append_of_le_length (by rwa [stored_length])]
  exact congrArg (· ++ a) (List.map_drop ..).symm

/-- One of some stored bytes. -/
lemma fetch_drop_getElem {l : List Byte} (a : Cells) {i : ℕ} (hi : i < l.length) :
    fetch ((stored l ++ a).drop i) = .ok l[i] := by
  rw [drop_stored a hi.le, List.drop_eq_getElem_cons hi]
  rfl

/-- Bytes that nobody wrote. -/
lemma fetch_unread (n : ℕ) : ∃ h, fetch (List.replicate n none) = .error h := by
  cases n with
  | zero => exact ⟨_, rfl⟩
  | succ n => exact ⟨_, rfl⟩

/-- `strlen`. -/
def strlen : Cells → Except Halt ℕ
  | [] => .error .outOfBounds
  | none :: _ => .error .uninitialised
  | some b :: a => if b = 0 then .ok 0 else (strlen a).map (· + 1)

/-- `strchr` for a character that is not the terminator: the place where it is found. -/
def strchr (c : Byte) : Cells → Except Halt (Option ℕ)
  | [] => .error .outOfBounds
  | none :: _ => .error .uninitialised
  | some b :: a =>
    if b = c then .ok (some 0)
    else if b = 0 then .ok none
    else (strchr c a).map (Option.map (· + 1))

/-- `strncmp` with a string: whether it says that both are equal. -/
def strncmp : ℕ → Cells → List Byte → Except Halt Bool
  | 0, _, _ => .ok true
  | _ + 1, [], _ => .error .outOfBounds
  | _ + 1, none :: _, _ => .error .uninitialised
  | _ + 1, some b :: _, [] => .ok (decide (b = 0))
  | n + 1, some b :: a, c :: t => if b = c then strncmp n a t else .ok false

/-- `strcmp` with a string: it comes to its terminator at the latest. -/
def strcmp (a : Cells) (t : List Byte) : Except Halt Bool := strncmp (t.length + 1) a t

/-- The bytes that `memcpy` takes. -/
def readN : ℕ → Cells → Except Halt (List Byte)
  | 0, _ => .ok []
  | _ + 1, [] => .error .outOfBounds
  | _ + 1, none :: _ => .error .uninitialised
  | n + 1, some b :: a => (readN n a).map (b :: ·)

/-- `a[i]`. -/
def index (a : Cells) (i : ℤ) : Except Halt Byte :=
  if i < 0 then .error .outOfBounds else fetch (a.drop i.toNat)

/-- The characters that `strncat` takes: up to the terminator, but not more than `n`. -/
def strnText : ℕ → Cells → Except Halt (List Byte)
  | 0, _ => .ok []
  | _ + 1, [] => .error .outOfBounds
  | _ + 1, none :: _ => .error .uninitialised
  | n + 1, some b :: a => if b = 0 then .ok [] else (strnText n a).map (b :: ·)

/-- The characters that `strcpy` takes. -/
def strText (a : Cells) : Except Halt (List Byte) :=
  (strlen a).bind fun n => strnText n a

/-- `strstr` for a string: the place where it is found. -/
def strstr (a : Cells) (n : List Byte) : Except Halt (Option ℕ) := (strText a).map (firstAt n)

section

variable {s t : List Byte} {a : Cells} {b c : Byte} {n : ℕ}

lemma strlen_stored (hs : (0 : Byte) ∉ s) : strlen (stored s ++ some 0 :: a) = .ok s.length := by
  induction s with
  | nil => simp [strlen]
  | cons b s ih =>
      rw [List.mem_cons, not_or] at hs
      rw [stored_cons, List.cons_append, strlen, if_neg (Ne.symm hs.1), ih hs.2]
      rfl

lemma strchr_stored (hs : (0 : Byte) ∉ s) (hc : c ∉ s) :
    strchr c (stored s ++ some c :: a) = .ok (some s.length) := by
  induction s with
  | nil => simp [strchr]
  | cons b s ih =>
      rw [List.mem_cons, not_or] at hs hc
      rw [stored_cons, List.cons_append, strchr, if_neg (Ne.symm hc.1), if_neg (Ne.symm hs.1),
        ih hs.2 hc.2]
      rfl

/-- A string without the character. -/
lemma strchr_none (hs : (0 : Byte) ∉ s) (hc : c ∉ s) (h0 : c ≠ 0) :
    strchr c (stored s ++ some 0 :: a) = .ok none := by
  induction s with
  | nil => rw [stored_nil, List.nil_append, strchr, if_neg (Ne.symm h0), if_pos rfl]
  | cons b s ih =>
      rw [List.mem_cons, not_or] at hs hc
      rw [stored_cons, List.cons_append, strchr, if_neg (Ne.symm hc.1), if_neg (Ne.symm hs.1),
        ih hs.2 hc.2]
      rfl

/-- Without the character and without a terminator the search does not stop. -/
lemma strchr_unread (hs : (0 : Byte) ∉ s) (hc : c ∉ s) (ha : ∃ h, fetch a = .error h) :
    ∃ h, strchr c (stored s ++ a) = .error h := by
  induction s with
  | nil =>
      obtain ⟨h, ha⟩ := ha
      cases a with
      | nil => exact ⟨_, rfl⟩
      | cons x a =>
          cases x with
          | none => exact ⟨_, rfl⟩
          | some b => exact absurd ha (by simp [fetch])
  | cons b s ih =>
      rw [List.mem_cons, not_or] at hs hc
      obtain ⟨h, ih⟩ := ih hs.2 hc.2
      refine ⟨h, ?_⟩
      rw [stored_cons, List.cons_append, strchr, if_neg (Ne.symm hc.1), if_neg (Ne.symm hs.1), ih]
      rfl

/-- On a string with its terminator `strncmp` compares what is before the `n`-th character. -/
lemma strncmp_stored (n : ℕ) :
    ∀ {s t : List Byte}, (0 : Byte) ∉ s → (0 : Byte) ∉ t →
      strncmp n (stored s ++ some 0 :: a) t = .ok (decide (s.take n = t.take n)) := by
  induction n with
  | zero =>
      intro s t _ _
      simp [strncmp]
  | succ n ih =>
      intro s t hs ht
      cases s with
      | nil =>
          cases t with
          | nil => simp [strncmp]
          | cons c t =>
              rw [List.mem_cons, not_or] at ht
              rw [stored_nil, List.nil_append, strncmp, if_neg ht.1]
              simp
      | cons b s =>
          rw [List.mem_cons, not_or] at hs
          cases t with
          | nil =>
              rw [stored_cons, List.cons_append, strncmp, decide_eq_false (Ne.symm hs.1)]
              simp
          | cons c t =>
              rw [List.mem_cons, not_or] at ht
              rw [stored_cons, List.cons_append, strncmp]
              by_cases hbc : b = c
              · rw [if_pos hbc, ih hs.2 ht.2]
                simp [hbc]
              · rw [if_neg hbc]
                simp [hbc]

/-- Two strings are the same just if `strcmp` says so. -/
lemma strcmp_stored (hs : (0 : Byte) ∉ s) (ht : (0 : Byte) ∉ t) :
    strcmp (stored s ++ some 0 :: a) t = .ok (decide (s = t)) := by
  rw [strcmp, strncmp_stored _ hs ht]
  congr 1
  rw [decide_eq_decide]
  constructor
  · intro h
    rw [List.take_of_length_le (Nat.le_succ t.length)] at h
    have hlen : s.length ≤ t.length := by
      have := congrArg List.length h
      rw [List.length_take] at this
      omega
    rwa [List.take_of_length_le (by omega)] at h
  · rintro rfl
    rfl

/-- Without a terminator `strcmp` reads on just if it has not found a difference. -/
lemma strcmp_unread (hs : (0 : Byte) ∉ s) (ha : ∃ h, fetch a = .error h) :
    (s <+: t → ∃ h, strcmp (stored s ++ a) t = .error h)
      ∧ (¬ s <+: t → strcmp (stored s ++ a) t = .ok false) := by
  induction s generalizing t with
  | nil =>
      refine ⟨fun _ => ?_, fun h => absurd List.nil_prefix h⟩
      obtain ⟨h, ha⟩ := ha
      cases a with
      | nil => exact ⟨_, rfl⟩
      | cons x a =>
          cases x with
          | none => exact ⟨_, rfl⟩
          | some b => exact absurd ha (by simp [fetch])
  | cons b s ih =>
      rw [List.mem_cons, not_or] at hs
      cases t with
      | nil =>
          refine ⟨fun h => by simp at h, fun _ => ?_⟩
          rw [strcmp, stored_cons, List.cons_append, List.length_nil, strncmp,
            decide_eq_false (Ne.symm hs.1)]
      | cons c t =>
          rw [strcmp, List.length_cons, stored_cons, List.cons_append, strncmp]
          obtain ⟨hpre, hnot⟩ := ih hs.2 (t := t)
          rw [List.cons_prefix_cons]
          by_cases hbc : b = c
          · rw [if_pos hbc]
            exact ⟨fun h => hpre h.2, fun h => hnot fun h' => h ⟨hbc, h'⟩⟩
          · rw [if_neg hbc]
            exact ⟨fun h => absurd h.1 hbc, fun _ => rfl⟩

lemma readN_stored : readN s.length (stored s ++ a) = .ok s := by
  induction s with
  | nil => rfl
  | cons b s ih =>
      rw [stored_cons, List.cons_append, List.length_cons, readN, ih]
      rfl

/-- The byte behind some stored ones. -/
lemma index_stored (s : List Byte) (b : Byte) (a : Cells) :
    index (stored s ++ some b :: a) (s.length : ℤ) = .ok b := by
  rw [index, if_neg (by omega), Int.toNat_natCast, fetch_drop_stored]

lemma strnText_stored (n : ℕ) :
    ∀ {s : List Byte}, (0 : Byte) ∉ s → strnText n (stored s ++ some 0 :: a) = .ok (s.take n) := by
  induction n with
  | zero => intro s _; simp [strnText]
  | succ n ih =>
      intro s hs
      cases s with
      | nil => simp [strnText]
      | cons b s =>
          rw [List.mem_cons, not_or] at hs
          rw [stored_cons, List.cons_append, strnText, if_neg (Ne.symm hs.1), ih hs.2]
          rfl

lemma strText_stored (hs : (0 : Byte) ∉ s) : strText (stored s ++ some 0 :: a) = .ok s := by
  have hbind : strText (stored s ++ some 0 :: a) = strnText s.length (stored s ++ some 0 :: a) := by
    rw [strText, strlen_stored hs]
    rfl
  rw [hbind, strnText_stored _ hs, List.take_length]

lemma strstr_stored (hs : (0 : Byte) ∉ s) (n : List Byte) :
    strstr (stored s ++ some 0 :: a) n = .ok (firstAt n s) := by
  rw [strstr, strText_stored hs]
  rfl

/-- What `memcpy` takes is in the array. -/
lemma readN_eq_ok {l : List Byte} (h : readN n a = .ok l) : l.length = n ∧ ∃ a', a = stored l ++ a' := by
  induction n generalizing a l with
  | zero =>
      obtain rfl := Except.ok.inj h
      exact ⟨rfl, a, rfl⟩
  | succ n ih =>
      cases a with
      | nil => simp [readN] at h
      | cons x a =>
          cases x with
          | none => simp [readN] at h
          | some b =>
              rw [readN] at h
              cases hl : readN n a with
              | error e => simp [hl, Except.map] at h
              | ok l' =>
                  obtain ⟨rfl, a', rfl⟩ := ih hl
                  rw [hl] at h
                  obtain rfl := Except.ok.inj h
                  exact ⟨rfl, a', rfl⟩

/-- What `strlen` measures is in the array, with its terminator. -/
lemma strlen_eq_ok {a : Cells} {n : ℕ} (h : strlen a = .ok n) :
    ∃ s a', (0 : Byte) ∉ s ∧ s.length = n ∧ a = stored s ++ some 0 :: a' := by
  induction a generalizing n with
  | nil => simp [strlen] at h
  | cons x a ih =>
      cases x with
      | none => simp [strlen] at h
      | some b =>
          rw [strlen] at h
          by_cases hb : b = 0
          · rw [if_pos hb] at h
            exact ⟨[], a, by simp, by simpa using h, by simp [hb]⟩
          · rw [if_neg hb] at h
            cases hn : strlen a with
            | error e => simp [hn, Except.map] at h
            | ok m =>
                obtain ⟨s, a', hs, hlen, ha⟩ := ih hn
                have hnot : (0 : Byte) ∉ b :: s := by
                  rw [List.mem_cons, not_or]
                  exact ⟨Ne.symm hb, hs⟩
                rw [hn] at h
                obtain rfl := Except.ok.inj h
                exact ⟨b :: s, a', hnot, by rw [List.length_cons, hlen], by rw [ha]; rfl⟩

/-- A string that a function reads is in the array, with its terminator. -/
lemma strText_eq_ok {a : Cells} {s : List Byte} (h : strText a = .ok s) :
    (0 : Byte) ∉ s ∧ ∃ a', a = stored s ++ some 0 :: a' := by
  cases hn : strlen a with
  | error e => simp [strText, hn, Except.bind] at h
  | ok n =>
      obtain ⟨s', a', hs', -, rfl⟩ := strlen_eq_ok hn
      rw [strText_stored hs'] at h
      obtain rfl := Except.ok.inj h
      exact ⟨hs', a', rfl⟩

/-- What `strncat` takes has no terminator in it. -/
lemma strnText_eq_ok {a : Cells} {u : List Byte} (h : strnText n a = .ok u) : (0 : Byte) ∉ u := by
  induction n generalizing a u with
  | zero =>
      obtain rfl := Except.ok.inj h
      simp
  | succ n ih =>
      cases a with
      | nil => simp [strnText] at h
      | cons x a =>
          cases x with
          | none => simp [strnText] at h
          | some b =>
              rw [strnText] at h
              by_cases hb : b = 0
              · rw [if_pos hb] at h
                obtain rfl := Except.ok.inj h
                simp
              · rw [if_neg hb] at h
                cases hu : strnText n a with
                | error e => simp [hu, Except.map] at h
                | ok u' =>
                    rw [hu] at h
                    obtain rfl := Except.ok.inj h
                    rw [List.mem_cons, not_or]
                    exact ⟨Ne.symm hb, ih hu⟩

/-- The string at the start of an array. -/
def readStr (a : Cells) : Except Halt CStr :=
  match h : strText a with
  | .error e => .error e
  | .ok s => .ok ⟨s, (strText_eq_ok h).1⟩

lemma readStr_eq_ok {a : Cells} {s : CStr} : readStr a = .ok s ↔ strText a = .ok s.1 := by
  rw [readStr]
  split
  · next e h => simp [h]
  · next s' h => simp [h, Subtype.ext_iff]

lemma readStr_eq_error {a : Cells} {e : Halt} (h : strText a = .error e) : readStr a = .error e := by
  rw [readStr]
  split
  · next e' h' => rw [h] at h'; exact congrArg _ (Except.error.inj h').symm
  · next s h' => simp [h] at h'

/-- Bytes without a zero byte among them are read to their end, and on. -/
lemma strText_unended (hs : (0 : Byte) ∉ s) : strText (stored s) = .error .outOfBounds := by
  have hlen : strlen (stored s) = .error .outOfBounds := by
    induction s with
    | nil => rfl
    | cons b s ih =>
        rw [List.mem_cons, not_or] at hs
        rw [stored_cons, strlen, if_neg (Ne.symm hs.1), ih hs.2]
        rfl
  rw [strText, hlen]
  rfl

/-- What is read of some stored bytes: the string in front of their first zero byte, if there is one. -/
lemma strText_stored_iff {l : List Byte} :
    strText (stored l) = .ok s ↔ (0 : Byte) ∈ l ∧ l.takeWhile (· ≠ 0) = s := by
  constructor
  · intro h
    obtain ⟨hs, a', ha⟩ := strText_eq_ok h
    obtain ⟨l₁, l₂, rfl, hl₁, hl₂⟩ := List.map_eq_append_iff.mp ha
    obtain rfl := List.map_injective_iff.mpr (Option.some_injective _) hl₁
    obtain ⟨x, l₃, rfl, hx, -⟩ := List.map_eq_cons_iff.mp hl₂
    obtain rfl := Option.some.inj hx
    exact ⟨by simp, takeWhile_ended hs l₃⟩
  · rintro ⟨h0, rfl⟩
    obtain ⟨b, hb⟩ := stored_takeWhile h0 []
    rw [List.append_nil] at hb
    rw [hb]
    exact strText_stored fun h => by simpa using List.mem_takeWhile_imp h

end

/-! ### Writing -/

/-- Bytes are written to an array from index `j` on. -/
def write (a : Cells) (j : ℕ) (l : List Byte) : Except Halt Cells :=
  if j + l.length ≤ a.length then .ok (a.take j ++ stored l ++ a.drop (j + l.length))
  else .error .outOfBounds

/-- `memcpy(dst, src, n)`. -/
def memcpy (dst src : Cells) (n : ℕ) : Except Halt Cells :=
  (readN n src).bind fun l => write dst 0 l

/-- `strcpy(dst, src)`. -/
def strcpy (dst src : Cells) : Except Halt Cells :=
  (strText src).bind fun s => write dst 0 (s ++ [0])

/-- `strcat` of a string. -/
def strcat (dst : Cells) (s : List Byte) : Except Halt Cells :=
  (strlen dst).bind fun j => write dst j (s ++ [0])

/-- `strncpy(dst, src, n)`: what is behind a shorter string is filled with zeros. -/
def strncpy (dst src : Cells) (n : ℕ) : Except Halt Cells :=
  (strnText n src).bind fun s => write dst 0 (s ++ List.replicate (n - s.length) 0)

/-- `strncat(dst, src, n)`. -/
def strncat (dst src : Cells) (n : ℕ) : Except Halt Cells :=
  (strlen dst).bind fun j => (strnText n src).bind fun s => write dst j (s ++ [0])

section

variable {a a' : Cells} {l s : List Byte} {j n : ℕ}

lemma write_eq_error (h : a.length < j + l.length) : write a j l = .error .outOfBounds := by
  rw [write, if_neg (by omega)]

lemma write_length (h : write a j l = .ok a') : a'.length = a.length := by
  rw [write] at h
  split_ifs at h with hle
  obtain rfl := Except.ok.inj h
  simp only [List.length_append, List.length_take, List.length_drop, stored_length]
  omega

/-- Writing behind some stored cells. -/
lemma write_stored (s l : List Byte) (h : l.length ≤ a.length) :
    write (stored s ++ a) s.length l = .ok (stored (s ++ l) ++ a.drop l.length) := by
  have hlen : s.length + l.length ≤ (stored s ++ a).length := by
    rw [List.length_append, stored_length]
    omega
  have htake : (stored s ++ a).take s.length = stored s := by
    rw [← stored_length s, List.take_left]
  have hdrop : (stored s ++ a).drop (s.length + l.length) = a.drop l.length := by
    rw [← stored_length s, ← List.drop_drop, List.drop_left]
  rw [write, if_pos hlen, htake, hdrop, stored_append]

/-- Writing over the start of an array. -/
lemma write_zero (l : List Byte) (h : l.length ≤ a.length) :
    write a 0 l = .ok (stored l ++ a.drop l.length) := by
  have hwrite := write_stored (a := a) [] l h
  rwa [stored_nil, List.nil_append, List.length_nil, List.nil_append] at hwrite

lemma memcpy_stored {b : Cells} (h : s.length ≤ a.length) :
    memcpy a (stored s ++ b) s.length = .ok (stored s ++ a.drop s.length) := by
  rw [memcpy, readN_stored]
  exact write_zero s h

/-- A copy that is already there. -/
lemma memcpy_again {b : Cells} : memcpy (stored s ++ a) (stored s ++ b) s.length
    = .ok (stored s ++ a) := by
  have hdrop : (stored s ++ a).drop s.length = a := by
    rw [← stored_length s, List.drop_left]
  rw [memcpy_stored (by rw [List.length_append, stored_length]; omega), hdrop]

lemma memcpy_overflow {b : Cells} (h : a.length < s.length) :
    memcpy a (stored s ++ b) s.length = .error .outOfBounds := by
  rw [memcpy, readN_stored]
  exact write_eq_error (by omega)

/-- Copying a string over the start of an array. -/
lemma strcpy_stored (hs : (0 : Byte) ∉ s) {b : Cells} (h : s.length < a.length) :
    strcpy a (stored s ++ some 0 :: b) = .ok (stored (s ++ [0]) ++ a.drop (s.length + 1)) := by
  have hwrite := write_zero (a := a) (s ++ [0])
    (by rw [List.length_append, List.length_singleton]; omega)
  rw [List.length_append, List.length_singleton] at hwrite
  rw [strcpy, strText_stored hs]
  exact hwrite

lemma strcpy_overflow (hs : (0 : Byte) ∉ s) {b : Cells} (h : a.length ≤ s.length) :
    strcpy a (stored s ++ some 0 :: b) = .error .outOfBounds := by
  rw [strcpy, strText_stored hs]
  refine write_eq_error ?_
  rw [List.length_append, List.length_singleton]
  omega

lemma strncpy_stored (hs : (0 : Byte) ∉ s) {b : Cells} (h : a.length = n) :
    strncpy a (stored s ++ some 0 :: b) n
      = .ok (stored (s.take n ++ List.replicate (n - s.length) 0)) := by
  have hlen : (s.take n ++ List.replicate (n - (s.take n).length) 0).length = a.length := by
    rw [List.length_append, List.length_replicate, List.length_take]
    omega
  have hpad : n - (s.take n).length = n - s.length := by
    rw [List.length_take]
    omega
  have hwrite := write_zero (a := a) _ hlen.le
  rw [hlen, List.drop_length, List.append_nil, hpad] at hwrite
  rw [strncpy, strnText_stored _ hs]
  exact (congrArg (fun k => write a 0 (s.take n ++ List.replicate k 0)) hpad).trans hwrite

/-- What is copied is a string. -/
lemma strcpy_eq_ok {src : Cells} (h : strcpy a src = .ok a') :
    ∃ s src', (0 : Byte) ∉ s ∧ src = stored s ++ some 0 :: src'
      ∧ a' = stored s ++ some 0 :: a.drop (s.length + 1) := by
  cases hs : strText src with
  | error e => simp [strcpy, hs, Except.bind] at h
  | ok s =>
      obtain ⟨hs0, src', rfl⟩ := strText_eq_ok hs
      refine ⟨s, src', hs0, rfl, ?_⟩
      rcases Nat.lt_or_ge s.length a.length with hlt | hge
      · rw [strcpy_stored hs0 hlt, stored_append, List.append_assoc] at h
        exact (Except.ok.inj h).symm
      · rw [strcpy_overflow hs0 hge] at h
        simp at h

lemma strcat_stored {u : List Byte} (hs : (0 : Byte) ∉ s) (h : u.length ≤ a.length) :
    strcat (stored s ++ some 0 :: a) u = .ok (stored (s ++ (u ++ [0])) ++ a.drop u.length) := by
  have hwrite := write_stored (a := some 0 :: a) s (u ++ [0])
    (by rw [List.length_append, List.length_singleton, List.length_cons]; omega)
  rw [List.length_append, List.length_singleton, List.drop_succ_cons] at hwrite
  rw [strcat, strlen_stored hs]
  exact hwrite

lemma strcat_overflow {u : List Byte} (hs : (0 : Byte) ∉ s) (h : a.length < u.length) :
    strcat (stored s ++ some 0 :: a) u = .error .outOfBounds := by
  rw [strcat, strlen_stored hs]
  refine write_eq_error ?_
  rw [List.length_append, List.length_cons, stored_length, List.length_append, List.length_singleton]
  omega

/-- Appending to a string what fits behind it. -/
lemma strncat_stored {u : List Byte} (hs : (0 : Byte) ∉ s) (hu : (0 : Byte) ∉ u) {b : Cells}
    (hn : u.length ≤ n) (h : u.length ≤ a.length) :
    strncat (stored s ++ some 0 :: a) (stored u ++ some 0 :: b) n
      = .ok (stored (s ++ (u ++ [0])) ++ a.drop u.length) := by
  have hwrite := write_stored (a := some 0 :: a) s (u ++ [0])
    (by rw [List.length_append, List.length_singleton, List.length_cons]; omega)
  rw [List.length_append, List.length_singleton, List.drop_succ_cons] at hwrite
  rw [strncat, strlen_stored hs, strnText_stored _ hu, List.take_of_length_le hn]
  exact hwrite

/-- Appending to a string what does not fit behind it. -/
lemma strncat_overflow {u : List Byte} (hs : (0 : Byte) ∉ s) (hu : (0 : Byte) ∉ u) {b : Cells}
    (hn : u.length ≤ n) (h : a.length < u.length) :
    strncat (stored s ++ some 0 :: a) (stored u ++ some 0 :: b) n = .error .outOfBounds := by
  rw [strncat, strlen_stored hs, strnText_stored _ hu, List.take_of_length_le hn]
  refine write_eq_error ?_
  rw [List.length_append, List.length_cons, stored_length, List.length_append, List.length_singleton]
  omega

/-- Whatever fits, `strncat` leaves a string. -/
lemma strncat_eq_ok {src : Cells} (h : strncat a src n = .ok a') :
    a'.length = a.length ∧ ∃ s, strText a' = .ok s := by
  rw [strncat] at h
  obtain ⟨j, hj, h⟩ := bind_eq_ok.mp h
  obtain ⟨u, hu, h⟩ := bind_eq_ok.mp h
  refine ⟨write_length h, ?_⟩
  obtain ⟨s, b, hs, rfl, rfl⟩ := strlen_eq_ok hj
  rcases Nat.lt_or_ge (some 0 :: b).length (u ++ [0]).length with hlt | hle
  · rw [write_eq_error (by rw [List.length_append, stored_length]; omega)] at h
    simp at h
  · rw [write_stored s _ hle, stored_append, stored_append, List.append_assoc, List.append_assoc,
      ← List.append_assoc, ← stored_append] at h
    obtain rfl := Except.ok.inj h
    exact ⟨_, strText_stored fun h => (List.mem_append.mp h).elim hs (strnText_eq_ok hu)⟩

end

end CMem
