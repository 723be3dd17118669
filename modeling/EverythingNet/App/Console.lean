import Mathlib.Tactic
import EverythingNet.Libc.Integer
import EverythingNet.Libc.Typed

/-!
What the application says when it starts: `app/cap.c` and the start of `main` in `app/main.c`.

* `capCap2Str`: `CAP_Cap2Str`. `capText`: the names of the capabilities, with bars between them.
  `joined_inj`: texts without a bar are told apart behind each other, and `capCap2Str_iff`: the string
  has all of the capabilities in it, and fits just the buffers that are long enough.
* `memorySize`: the memory size in a unit in which it is short, `memorySize_spec`.
* `say`, `puts`: what a call of `printf` or `puts` prints. `say_str`: a string between two texts.
* `mainBanner_iff`: the start says all about the machine, just if all of it are strings.
-/

namespace EverythingNet

open CMem Numeral Printf

/-! ### The code -/

/-- `doAppend`: the string and `isFirst`. -/
def doAppend (out : Cells) (str : String) (isFirst : Bool) : Except Halt (Cells × Bool) := do
  let out ← (if ¬ isFirst then CMem.strcat out (chars " | ") else pure out)
  let out ← CMem.strcat out (chars str)
  return (out, false)

/-- `CAP_HOST` and so on, with what they are called. -/
def capNames : List (U32 × String) :=
  [(1 <<< 0, "Application Host"), (1 <<< 1, "Display Other Apps"),
    (1 <<< 2, "Graphics Acceleration"), (1 <<< 3, "Sound Output"), (1 <<< 4, "Input"),
    (1 <<< 5, "Relative Input (Mouse, Joystick, etc)"),
    (1 <<< 6, "Absolute Input (Touchscreen, Tablet, etc)")]

/-- `if (cap & CAP_..) doAppend(out, .., &isFirst)`. -/
def capStep (cap : U32) (s : Cells × Bool) (c : U32 × String) : Except Halt (Cells × Bool) :=
  if cap &&& c.1 ≠ 0 then doAppend s.1 c.2 s.2 else .ok s

/-- `CAP_Cap2Str`. -/
def capCap2Str (cap : U32) : Option Cells → Except Halt (Option Cells)
  | none => .ok none
  | some out => do
    let out ← write out 0 [0]
    let (out, isFirst) ← capNames.foldlM (capStep cap) (out, true)
    if isFirst then return some (← CMem.strcpy out (stored (chars "None") ++ [some 0]))
    else return some out

/-! ### Texts with bars between them -/

/-- The texts, with bars between them. -/
def joined (ls : List (List Byte)) : List Byte := List.intercalate (chars " | ") ls

lemma joined_cons {l : List Byte} {ls : List (List Byte)} (h : ls ≠ []) :
    joined (l :: ls) = l ++ ch ' ' :: ch '|' :: ch ' ' :: joined ls := by
  rw [joined, List.intercalate_cons_of_ne_nil h, List.append_assoc]
  rfl

lemma takeWhile_joined {l : List Byte} (hl : ch '|' ∉ l) (ls : List (List Byte)) :
    (joined (l :: ls)).takeWhile (· ≠ ch '|') = if ls = [] then l else l ++ [ch ' '] := by
  have hall : ∀ c ∈ l, decide (c ≠ ch '|') = true := by
    intro c hc
    have hne : c ≠ ch '|' := fun h => hl (h ▸ hc)
    simpa using hne
  split_ifs with h
  · rw [h, joined, List.intercalate_singleton, List.takeWhile_eq_self_iff]
    exact hall
  · rw [joined_cons h, List.takeWhile_append_of_pos hall]
    congr 1

/-- Texts without a bar are told apart. -/
lemma joined_inj {ls ls' : List (List Byte)} (hls : ∀ l ∈ ls, ch '|' ∉ l) (hls' : ∀ l ∈ ls', ch '|' ∉ l)
    (hne : ls ≠ []) (hne' : ls' ≠ []) : joined ls = joined ls' ↔ ls = ls' := by
  refine ⟨fun h => ?_, fun h => h ▸ rfl⟩
  induction ls generalizing ls' with
  | nil => exact absurd rfl hne
  | cons l ls ih =>
      obtain ⟨l', ls', rfl⟩ := List.exists_cons_of_ne_nil hne'
      obtain ⟨hl, htail⟩ := List.forall_mem_cons.mp hls
      obtain ⟨hl', htail'⟩ := List.forall_mem_cons.mp hls'
      have hstart := congrArg (List.takeWhile (· ≠ ch '|')) h
      have hlen := congrArg List.length h
      rw [takeWhile_joined hl, takeWhile_joined hl'] at hstart
      by_cases hnil : ls = []
      · by_cases hnil' : ls' = []
        · rw [if_pos hnil, if_pos hnil'] at hstart
          rw [hstart, hnil, hnil']
        · rw [if_pos hnil, if_neg hnil'] at hstart
          rw [hnil, joined, List.intercalate_singleton, joined_cons hnil', hstart] at hlen
          simp at hlen
      · by_cases hnil' : ls' = []
        · rw [if_neg hnil, if_pos hnil'] at hstart
          rw [hnil', joined_cons hnil, joined, joined, List.intercalate_singleton, ← hstart] at hlen
          simp at hlen
        · rw [if_neg hnil, if_neg hnil'] at hstart
          obtain rfl := List.append_cancel_right hstart
          rw [joined_cons hnil, joined_cons hnil', List.append_right_inj] at h
          simp only [List.cons.injEq, true_and] at h
          rw [ih htail htail' hnil hnil' h]

/-! ### The capabilities -/

/-- The names of the capabilities that are there. -/
def capParts (cap : U32) : List (List Byte) :=
  (capNames.filter fun c => cap &&& c.1 ≠ 0).map fun c => chars c.2

/-- What is said about the capabilities. -/
def capText (cap : U32) : List Byte :=
  joined (if capParts cap = [] then [chars "None"] else capParts cap)

/-- The string with this text at the start of an array. -/
def holding (out : Cells) (t : List Byte) : Cells :=
  stored (t ++ [0]) ++ out.drop (t.length + 1)

section

variable {out : Cells} {t u : List Byte}

lemma drop_holding {n : ℕ} (hn : t.length + 1 ≤ n) : (holding out t).drop n = out.drop n := by
  have hlen : (stored (t ++ [0])).length = t.length + 1 := by simp
  rw [holding, List.drop_append, hlen, List.drop_of_length_le (by omega), List.nil_append,
    List.drop_drop, Nat.add_sub_cancel' hn]

/-- Copying a string over another one that is not longer. -/
lemma strcpy_holding (hu : (0 : Byte) ∉ u) (hlt : t.length < out.length)
    (hle : t.length ≤ u.length) :
    CMem.strcpy (holding out t) (stored u ++ [some 0])
      = if u.length < out.length then .ok (holding out u) else .error .outOfBounds := by
  have hlen : (holding out t).length = out.length := by
    rw [holding, List.length_append, stored_length, List.length_append, List.length_singleton,
      List.length_drop]
    omega
  split_ifs with hfits
  · rw [strcpy_stored hu (by omega), drop_holding (by omega), holding]
  · exact strcpy_overflow hu (by omega)

/-- Appending to a string at the start of an array. -/
lemma strcat_holding (ht : (0 : Byte) ∉ t) (hlt : t.length < out.length) (u : List Byte) :
    CMem.strcat (holding out t) u
      = if (t ++ u).length < out.length then .ok (holding out (t ++ u)) else .error .outOfBounds := by
  have hcells : holding out t = stored t ++ some 0 :: out.drop (t.length + 1) := by
    rw [holding, stored_append, List.append_assoc]
    rfl
  rw [hcells, List.length_append]
  by_cases h : t.length + u.length < out.length
  · rw [if_pos h, strcat_stored ht (by rw [List.length_drop]; omega), holding, List.drop_drop,
      ← List.append_assoc, List.length_append,
      show t.length + 1 + u.length = t.length + u.length + 1 by omega]
  · rw [if_neg h, strcat_overflow ht (by rw [List.length_drop]; omega)]

/-- A text behind another one, with a bar between them. -/
def appended (t : List Byte) (isFirst : Bool) (u : List Byte) : List Byte :=
  if isFirst then t ++ u else t ++ chars " | " ++ u

lemma zero_notMem_append (ht : (0 : Byte) ∉ t) (hu : (0 : Byte) ∉ u) : (0 : Byte) ∉ t ++ u := by
  rw [List.mem_append, not_or]
  exact ⟨ht, hu⟩

lemma doAppend_holding (ht : (0 : Byte) ∉ t) (hlt : t.length < out.length) (str : String)
    (isFirst : Bool) :
    doAppend (holding out t) str isFirst
      = if (appended t isFirst (chars str)).length < out.length then
          .ok (holding out (appended t isFirst (chars str)), false)
        else .error .outOfBounds := by
  dsimp only [doAppend, appended]
  cases isFirst with
  | true =>
      simp only [not_true_eq_false, if_false, if_true, pure_eq_ok, ok_bind]
      rw [strcat_holding ht hlt]
      split_ifs <;> rfl
  | false =>
      have hbar : (0 : Byte) ∉ t ++ chars " | " := zero_notMem_append ht (by decide)
      simp only [Bool.false_eq_true, not_false_eq_true, if_true, if_false]
      rw [strcat_holding ht hlt]
      by_cases hfits : (t ++ chars " | ").length < out.length
      · rw [if_pos hfits, ok_bind, strcat_holding hbar hfits]
        split_ifs <;> rfl
      · rw [if_neg hfits, error_bind, if_neg (by rw [List.length_append]; omega)]

/-- Some names behind a text. -/
def namesBehind (t : List Byte) (isFirst : Bool) (l : List (U32 × String)) : List Byte × Bool :=
  l.foldl (fun s c => (appended s.1 s.2 (chars c.2), false)) (t, isFirst)

lemma length_le_namesBehind (l : List (U32 × String)) :
    ∀ (t : List Byte) (isFirst : Bool), t.length ≤ (namesBehind t isFirst l).1.length := by
  induction l with
  | nil =>
      intro t isFirst
      exact le_rfl
  | cons c l ih =>
      intro t isFirst
      refine le_trans ?_ (ih (appended t isFirst (chars c.2)) false)
      rw [appended]
      split_ifs <;> simp

/-- The string comes to its end just if all names of it fit. -/
lemma capStep_foldlM (cap : U32) (l : List (U32 × String)) (hl : ∀ c ∈ l, (0 : Byte) ∉ chars c.2) :
    ∀ {t : List Byte} {isFirst : Bool}, (0 : Byte) ∉ t → t.length < out.length →
      l.foldlM (capStep cap) (holding out t, isFirst)
        = (let r := namesBehind t isFirst (l.filter fun c => cap &&& c.1 ≠ 0)
          if r.1.length < out.length then .ok (holding out r.1, r.2) else .error .outOfBounds) := by
  induction l with
  | nil =>
      intro t isFirst ht hlt
      exact (if_pos hlt).symm
  | cons c l ih =>
      intro t isFirst ht hlt
      obtain ⟨hc, hl⟩ := List.forall_mem_cons.mp hl
      rw [List.foldlM_cons, capStep]
      by_cases hbit : cap &&& c.1 ≠ 0
      · have hname : (0 : Byte) ∉ appended t isFirst (chars c.2) := by
          rw [appended]
          split_ifs
          · exact zero_notMem_append ht hc
          · exact zero_notMem_append (zero_notMem_append ht (by decide)) hc
        rw [if_pos hbit, doAppend_holding ht hlt, List.filter_cons_of_pos (by simpa using hbit)]
        by_cases hfits : (appended t isFirst (chars c.2)).length < out.length
        · rw [if_pos hfits, ok_bind, ih hl hname hfits]
          rfl
        · have hle := length_le_namesBehind (l.filter fun c => cap &&& c.1 ≠ 0)
            (appended t isFirst (chars c.2)) false
          rw [if_neg hfits, error_bind]
          exact (if_neg fun h => hfits (lt_of_le_of_lt hle h)).symm
      · rw [if_neg hbit, ok_bind, ih hl ht hlt, List.filter_cons_of_neg (by simpa using hbit)]

/-- The names in a row are the names with bars between them. -/
lemma namesBehind_joined (l : List (U32 × String)) :
    (namesBehind [] true l).2 = decide (l = [])
      ∧ (namesBehind [] true l).1 = joined (l.map fun c => chars c.2) := by
  have key : ∀ (l : List (U32 × String)) (c : U32 × String) (t : List Byte),
      (namesBehind (t ++ chars c.2) false l).2 = false
        ∧ (namesBehind (t ++ chars c.2) false l).1
          = t ++ joined ((c :: l).map fun c => chars c.2) := by
    intro l
    induction l with
    | nil =>
        intro c t
        exact ⟨rfl, by rw [List.map_singleton, joined, List.intercalate_singleton]; rfl⟩
    | cons d l ih =>
        intro c t
        obtain ⟨h₁, h₂⟩ := ih d (t ++ chars c.2 ++ chars " | ")
        refine ⟨h₁, h₂.trans ?_⟩
        have hcons : joined ((c :: d :: l).map fun c => chars c.2)
            = chars c.2 ++ (chars " | " ++ joined ((d :: l).map fun c => chars c.2)) :=
          joined_cons (List.cons_ne_nil _ _)
        rw [hcons, List.append_assoc, List.append_assoc]
  cases l with
  | nil => exact ⟨rfl, rfl⟩
  | cons c l =>
      obtain ⟨h₁, h₂⟩ := key l c []
      exact ⟨h₁, h₂⟩

/-- The string is there in the end, if it fits. -/
lemma capCap2Str_eq (cap : U32) (out : Cells) :
    capCap2Str cap (some out) = if (capText cap).length < out.length then
      .ok (some (holding out (capText cap))) else .error .outOfBounds := by
  have hzero : ∀ c ∈ capNames, (0 : Byte) ∉ chars c.2 := by decide
  obtain ⟨hfirst, hjoined⟩ := namesBehind_joined (capNames.filter fun c => cap &&& c.1 ≠ 0)
  rw [capCap2Str]
  rcases Nat.eq_zero_or_pos out.length with h0 | hpos
  · rw [write_eq_error (by rw [h0]; decide), error_bind, if_neg (by omega)]
  have hstart : write out 0 [0] = .ok (holding out []) := write_zero [0] hpos
  have hempty : ([] : List Byte).length < out.length := hpos
  rw [hstart, ok_bind, capStep_foldlM cap capNames hzero (by simp) hempty]
  dsimp only
  rw [hfirst, hjoined, capText, capParts]
  by_cases hnone : capNames.filter (fun c => cap &&& c.1 ≠ 0) = []
  · have hnil : joined [] = [] := rfl
    rw [hnone, List.map_nil, hnil, if_pos hempty, ok_bind]
    simp only [decide_true, if_true]
    rw [strcpy_holding (by decide) hempty (Nat.zero_le _), joined, List.intercalate_singleton]
    split_ifs <;> rfl
  · rw [if_neg (mt List.map_eq_nil_iff.mp hnone), decide_eq_false hnone]
    split_ifs <;> rfl

end

lemma mem_capParts {cap : U32} {l : List Byte} (hl : l ∈ capParts cap) :
    ∃ c ∈ capNames, cap &&& c.1 ≠ 0 ∧ l = chars c.2 := by
  obtain ⟨c, hc, rfl⟩ := List.mem_map.mp hl
  obtain ⟨hmem, hbit⟩ := List.mem_filter.mp hc
  exact ⟨c, hmem, by simpa using hbit, rfl⟩

/-- Capabilities are there together with their names. -/
lemma capParts_iff {cap : U32} {c : U32 × String} (hc : c ∈ capNames) :
    chars c.2 ∈ capParts cap ↔ cap &&& c.1 ≠ 0 := by
  have hnames : ∀ c ∈ capNames, ∀ d ∈ capNames, chars c.2 = chars d.2 → c = d := by decide
  constructor
  · intro h
    obtain ⟨d, hd, hbit, heq⟩ := mem_capParts h
    rwa [hnames c hc d hd heq]
  · intro h
    exact List.mem_map.mpr ⟨c, List.mem_filter.mpr ⟨hc, by simpa using h⟩, rfl⟩

/-- The names tell the seven capabilities. -/
lemma capParts_inj (cap cap' : U32) : capParts cap = capParts cap' ↔ cap &&& 127 = cap' &&& 127 := by
  constructor
  · intro h
    have hbits : ∀ i < 7, cap.getLsbD i = cap'.getLsbD i := by
      intro i hi
      have hmem : ∀ i < 7, ∃ c ∈ capNames, c.1 = BitVec.twoPow 32 i := by decide
      obtain ⟨c, hc, hbit⟩ := hmem i hi
      have hpow : BitVec.twoPow 32 i ≠ 0 := by interval_cases i <;> decide
      have hiff : cap &&& c.1 ≠ 0 ↔ cap' &&& c.1 ≠ 0 := by
        rw [← capParts_iff hc, ← capParts_iff hc, h]
      rw [hbit, BitVec.and_twoPow, BitVec.and_twoPow] at hiff
      cases hx : cap.getLsbD i <;> cases hy : cap'.getLsbD i <;> simp_all
    have hmask : ∀ i < 32, (127 : U32).getLsbD i = decide (i < 7) := by decide
    refine BitVec.eq_of_getLsbD_eq fun i hi => ?_
    rw [BitVec.getLsbD_and, BitVec.getLsbD_and, hmask i hi]
    by_cases h7 : i < 7
    · rw [hbits i h7]
    · simp [h7]
  · intro h
    have hmask : ∀ c ∈ capNames, 127 &&& c.1 = c.1 := by decide
    have hbits : ∀ c ∈ capNames, decide (cap &&& c.1 ≠ 0) = decide (cap' &&& c.1 ≠ 0) := by
      intro c hc
      have hboth : cap &&& c.1 = cap' &&& c.1 := by
        rw [← hmask c hc, ← BitVec.and_assoc, ← BitVec.and_assoc, h]
      rw [hboth]
    rw [capParts, capParts, List.filter_congr hbits]

lemma joined_length {ls : List (List Byte)} (h : ls ≠ []) :
    (joined ls).length + 3 = (ls.map fun l => l.length + 3).sum := by
  induction ls with
  | nil => exact absurd rfl h
  | cons l ls ih =>
      by_cases hnil : ls = []
      · rw [hnil, joined, List.intercalate_singleton, List.map_singleton, List.sum_singleton]
      · rw [joined_cons hnil, List.map_cons, List.sum_cons, ← ih hnil]
        simp only [List.length_append, List.length_cons]
        omega

/-- No set of capabilities needs more than 169 bytes. -/
lemma capText_length_le (cap : U32) : (capText cap).length ≤ 168 := by
  rw [capText]
  by_cases hnil : capParts cap = []
  · rw [if_pos hnil]
    decide
  · have hsub : (capParts cap).Sublist (capNames.map fun c => chars c.2) :=
      List.filter_sublist.map _
    have hsum := (hsub.map fun l => l.length + 3).sum_le_sum (by simp)
    have hall : ((capNames.map fun c => chars c.2).map fun l => l.length + 3).sum = 171 := by decide
    rw [if_neg hnil]
    have := joined_length hnil
    omega

/-- `CAP_Cap2Str` puts the names of the capabilities into just those buffers that have room for them,
169 bytes always being enough, and the names tell the seven capabilities. -/
theorem capCap2Str_iff (cap : U32) (out : Cells) :
    (∀ out', capCap2Str cap (some out) = .ok (some out')
      ↔ (capText cap).length < out.length ∧ out' = holding out (capText cap))
    ∧ (capText cap).length ≤ 168
    ∧ ∀ cap', capText cap = capText cap' ↔ cap &&& 127 = cap' &&& 127 := by
  refine ⟨fun out' => ?_, ?_, fun cap' => ?_⟩
  · rw [capCap2Str_eq]
    split_ifs with hfits
    · simp [hfits, eq_comm]
    · simp [hfits]
  · exact capText_length_le cap
  · have hbar : ∀ cap, ∀ l ∈ (if capParts cap = [] then [chars "None"] else capParts cap),
        ch '|' ∉ l := by
      have hnames : ∀ c ∈ capNames, ch '|' ∉ chars c.2 := by decide
      intro cap l hl
      split_ifs at hl
      · rw [List.mem_singleton.mp hl]
        decide
      · obtain ⟨c, hc, -, rfl⟩ := mem_capParts hl
        exact hnames c hc
    have hne : ∀ cap, (if capParts cap = [] then [chars "None"] else capParts cap) ≠ [] := by
      intro cap
      split_ifs with h
      · exact List.cons_ne_nil _ _
      · exact h
    have hnone : ∀ cap, [chars "None"] ≠ capParts cap := by
      have hnames : ∀ c ∈ capNames, chars "None" ≠ chars c.2 := by decide
      intro cap h
      obtain ⟨c, hc, -, heq⟩ := mem_capParts (h ▸ List.mem_singleton_self (chars "None"))
      exact hnames c hc heq
    rw [capText, capText, joined_inj (hbar cap) (hbar cap') (hne cap) (hne cap'), ← capParts_inj]
    constructor
    · intro h
      split_ifs at h with h₁ h₂ h₂
      · rw [h₁, h₂]
      · exact absurd h (hnone cap')
      · exact absurd h.symm (hnone cap)
      · exact h
    · intro h
      rw [h]

/-! ### The memory size -/

/-- A round of the loop over the units. -/
def memoryStep (s : U32 × ℕ) : U32 × ℕ :=
  if 10240 ≤ s.1.toInt then (s.1.sdiv 1024, s.2 + 1) else s

/-- `memSz` and `suffixNum` behind the loop. -/
def memorySize (memSz : U32) : U32 × ℕ := memoryStep (memoryStep (memSz, 0))

/-- The unit is the first one in which the size has no more than four digits, or is below 10240. -/
lemma memorySize_spec (memSz : U32) :
    (memorySize memSz).2 ≤ 2
      ∧ (memorySize memSz).1.toInt = memSz.toInt / 1024 ^ (memorySize memSz).2
      ∧ (memorySize memSz).1.toInt < 10240
      ∧ ∀ j < (memorySize memSz).2, 10240 ≤ memSz.toInt / 1024 ^ j := by
  have hdiv : ∀ v : U32, 0 ≤ v.toInt → (v.sdiv 1024).toInt = v.toInt / 1024 := by
    intro v hv
    rw [BitVec.toInt_sdiv_of_ne_or_ne _ _ (Or.inr (by decide)), Int.tdiv_eq_ediv_of_nonneg hv]
    rfl
  have hlt := BitVec.toInt_lt (x := memSz)
  rw [memorySize, memoryStep, memoryStep]
  by_cases h₁ : 10240 ≤ memSz.toInt
  · have hkb := hdiv memSz (by omega)
    rw [if_pos h₁]
    dsimp only
    by_cases h₂ : 10240 ≤ (memSz.sdiv 1024).toInt
    · have hmb := hdiv (memSz.sdiv 1024) (by omega)
      rw [if_pos h₂]
      dsimp only
      rw [hkb] at h₂ hmb
      refine ⟨le_rfl, ?_, ?_, ?_⟩
      · rw [hmb]
        omega
      · rw [hmb]
        omega
      · intro j hj
        interval_cases j
        · omega
        · omega
    · rw [if_neg h₂]
      dsimp only
      rw [hkb] at h₂ ⊢
      refine ⟨by omega, by omega, by omega, fun j hj => ?_⟩
      interval_cases j
      omega
  · rw [if_neg h₁]
    dsimp only
    rw [if_neg h₁]
    exact ⟨Nat.zero_le 2, by simp, not_le.mp h₁, fun j hj => absurd hj (by simp)⟩

/-! ### What is printed -/

/-- `platInfo_t`. -/
structure PlatInfo where
  name : Option Cells
  os : Option Cells
  arch : Option Cells
  cpu : Option Cells
  gpu : Option Cells
  memSz : U32
  cap : U32

/-- A string of the source. -/
def literal (s : String) : Cells := stored (chars s) ++ [some 0]

/-- `puts` of the internal C library. -/
def puts (s : Cells) : Except Halt (List Byte) := (CMem.strText s).map (· ++ chars "\r\n")

/-- What a call of `printf` prints. -/
def say (D : DataModel) (R : Reals) (format : String) (va : List (Arg D R)) :
    Except Halt (List Byte) := (printf (chars format ++ [0]) va).map Prod.fst

/-- What `main` prints before its loop. -/
def mainBanner (D : DataModel) (R : Reals) (info : PlatInfo) : Except Halt (List Byte) := do
  let start ← puts (literal "EverythingNet starting up on...")
  let name ← say D R "Machine: %s\r\n" [.str info.name]
  let os ← say D R "OS: %s\r\n" [.str info.os]
  let cpu ← say D R "CPU: %s\r\n" [.str info.cpu]
  let arch ← say D R "CPU Architecture: %s\r\n" [.str info.arch]
  let size := memorySize info.memSz
  let suffix := ["KB", "MB", "GB"][size.2]?
  let memory ← say D R "Memory Size: %d%s\r\n" [.int size.1, .str (suffix.map literal)]
  let gpu ← say D R "GPU: %s\r\n" [.str info.gpu]
  let capStr ← capCap2Str info.cap (some (List.replicate 256 none))
  let cap ← say D R "Capabilities: %s\r\n" [.str capStr]
  return start ++ name ++ os ++ cpu ++ arch ++ memory ++ gpu ++ cap

/-- The string that a pointer leads to. -/
def strOf : Option Cells → Except Halt (List Byte)
  | none => .error .nullPointer
  | some a => CMem.strText a

section

variable {D : DataModel} {R : Reals}

/-- Without a precision `%s` reads what `strcpy` would. -/
lemma strChars_none (a : Cells) (s : List Byte) :
    strChars none a = .ok s ↔ CMem.strText a = .ok s := by
  constructor
  · have key : ∀ a s, strChars none a = .ok s →
        (0 : Byte) ∉ s ∧ ∃ a', a = stored s ++ some 0 :: a' := by
      intro a
      induction a with
      | nil => simp [strChars]
      | cons x a ih =>
          intro s h
          cases x with
          | none => simp [strChars] at h
          | some b =>
              rw [strChars] at h
              by_cases hb : b = 0
              · rw [if_pos (Or.inl hb)] at h
                obtain rfl := Except.ok.inj h
                exact ⟨List.not_mem_nil, a, by rw [hb]; rfl⟩
              · rw [if_neg (by simpa using hb)] at h
                obtain ⟨s', hs', rfl⟩ := except_map_eq_ok.mp h
                obtain ⟨hnot, a', rfl⟩ := ih s' hs'
                refine ⟨?_, a', rfl⟩
                rw [List.mem_cons, not_or]
                exact ⟨Ne.symm hb, hnot⟩
    intro h
    obtain ⟨hs, a', rfl⟩ := key a s h
    exact strText_stored hs
  · intro h
    obtain ⟨hs, a', rfl⟩ := strText_eq_ok h
    clear h
    induction s with
    | nil => rfl
    | cons b s ih =>
        rw [List.mem_cons, not_or] at hs
        have hend : ¬ (b = 0 ∨ (none : Option ℕ) = some 0) := by simpa using Ne.symm hs.1
        rw [stored_cons, List.cons_append, strChars, if_neg hend, Option.map_none, ih hs.2]
        rfl

/-- What `%s` alone puts out. -/
lemma strText_plain (p : Option Cells) (va : List (Arg D R)) (r : List (Arg D R) × List Byte) :
    Printf.strText {} 0 0 (.str p :: va) = .ok r ↔ ∃ s, strOf p = .ok s ∧ r = (va, s) := by
  have hplain : ∀ l s, Printf.padded {} 0 l s = s := by
    intro l s
    simp [Printf.padded, pads]
  cases p with
  | none => simp [Printf.strText, vaStr, strOf]
  | some a =>
      rw [Printf.strText, vaStr, ok_bind, strOf]
      constructor
      · intro h
        obtain ⟨l, -, h⟩ := bind_eq_ok.mp h
        obtain ⟨s, hs, rfl⟩ := except_map_eq_ok.mp h
        exact ⟨s, (strChars_none a s).mp hs, by rw [hplain]⟩
      · rintro ⟨s, hs, rfl⟩
        obtain ⟨-, a', ha⟩ := strText_eq_ok hs
        obtain ⟨l, hl⟩ := strnlenS_terminated s a' (2 ^ D.ptr.bits - 1)
        rw [← ha] at hl
        dsimp only
        rw [if_neg (by simp), hl, ok_bind, if_neg (by simp), if_neg (by simp),
          (strChars_none a s).mpr hs, Except.map, hplain]

/-- A directive without anything before its specifier. -/
def bare (c : Char) : Piece := .directive ⟨[], none, none, none, ch c⟩

/-- The characters of a format that stand for themselves. -/
def Verbatim (l : List Byte) : Prop := ∀ c ∈ l, c ≠ 0 ∧ c ≠ ch '%'

instance (l : List Byte) : Decidable (Verbatim l) := inferInstanceAs (Decidable (∀ c ∈ l, _ ∧ _))

lemma flatMap_literal (l : List Byte) : (l.map Piece.literal).flatMap Piece.bytes = l := by
  induction l with
  | nil => rfl
  | cons c l ih => rw [List.map_cons, List.flatMap_cons, ih]; rfl

/-- What stands for itself is put out before the rest. -/
lemma meaning_literal (l : List Byte) (ps : List Piece) (va : List (Arg D R)) :
    meaning (l.map Piece.literal ++ ps) va = (meaning ps va).map fun x => (x.1, l ++ x.2) := by
  induction l with
  | nil => cases h : meaning ps va <;> simp [h, Except.map]
  | cons c l ih =>
      rw [List.map_cons, List.cons_append, meaning, Piece.text, ok_bind]
      dsimp only
      rw [ih]
      cases meaning ps va <;> rfl

/-- What is printed for a format of parts. -/
lemma say_pieces {ps : List Piece} (hps : ∀ p ∈ ps, p.Ok) {format : String}
    (hformat : chars format = ps.flatMap Piece.bytes) (va : List (Arg D R)) (t : List Byte) :
    say D R format va = .ok t
      ↔ ∃ va' text, meaning ps va = .ok (va', text) ∧ t = text.filter (· ≠ 0) := by
  rw [say, hformat, except_map_eq_ok]
  constructor
  · rintro ⟨⟨printed, ret⟩, h, rfl⟩
    obtain ⟨text, htext, hprinted, -⟩ := printf_eq_ok.mp h
    rw [textOf_terminated hps] at htext
    obtain ⟨⟨va', text⟩, hmeaning, rfl⟩ := except_map_eq_ok.mp htext
    exact ⟨va', text, hmeaning, hprinted⟩
  · rintro ⟨va', text, hmeaning, rfl⟩
    refine ⟨(_, _), printf_eq_ok.mpr ⟨text, ?_, rfl, rfl⟩, rfl⟩
    rw [textOf_terminated hps, hmeaning]
    rfl

lemma literal_ok {l : List Byte} (hl : Verbatim l) : ∀ p ∈ l.map Piece.literal, p.Ok := by
  intro p hp
  obtain ⟨c, hc, rfl⟩ := List.mem_map.mp hp
  exact hl c hc

lemma bare_ok {c : Char} (hc : ¬ Reserved (ch c)) : (bare c).Ok :=
  ⟨trivial, trivial, hc⟩

lemma filter_text {t : List Byte} (ht : (0 : Byte) ∉ t) : t.filter (· ≠ 0) = t := by
  rw [List.filter_eq_self]
  intro c hc
  have hne : c ≠ 0 := fun h => ht (h ▸ hc)
  simpa using hne

lemma Verbatim.noZero {l : List Byte} (hl : Verbatim l) : (0 : Byte) ∉ l := fun h => (hl 0 h).1 rfl

lemma strOf_noZero {p : Option Cells} {s : List Byte} (h : strOf p = .ok s) : (0 : Byte) ∉ s := by
  cases p with
  | none => simp [strOf] at h
  | some a => exact (strText_eq_ok h).1

/-- The text of `%s` at the end of some parts, and what stands behind it. -/
lemma meaning_str (p : Option Cells) (post : List Byte) (r : List (Arg D R) × List Byte) :
    meaning (bare 's' :: post.map Piece.literal) [(.str p : Arg D R)] = .ok r
      ↔ ∃ s, strOf p = .ok s ∧ r = ([], s ++ post) := by
  have htext : (bare 's').text [(.str p : Arg D R)]
      = Printf.strText {} 0 0 [(.str p : Arg D R)] := rfl
  have hpost : meaning (post.map Piece.literal) ([] : List (Arg D R)) = .ok ([], post) := by
    have h := meaning_literal post [] ([] : List (Arg D R))
    rw [List.append_nil] at h
    rw [h]
    simp [meaning, Except.map]
  rw [meaning, htext]
  constructor
  · intro h
    obtain ⟨x, hx, h⟩ := bind_eq_ok.mp h
    obtain ⟨s, hs, rfl⟩ := (strText_plain p [] x).mp hx
    dsimp only at h
    rw [hpost] at h
    exact ⟨s, hs, (Except.ok.inj h).symm⟩
  · rintro ⟨s, hs, rfl⟩
    rw [(strText_plain p [] _).mpr ⟨s, hs, rfl⟩, ok_bind]
    dsimp only
    rw [hpost]
    rfl

/-- A string between two texts. -/
lemma say_str {pre post : List Byte} (hpre : Verbatim pre) (hpost : Verbatim post) {format : String}
    (hformat : chars format = pre ++ (chars "%s" ++ post)) (p : Option Cells) (t : List Byte) :
    say D R format [.str p] = .ok t ↔ ∃ s, strOf p = .ok s ∧ t = pre ++ s ++ post := by
  have hps : ∀ q ∈ pre.map Piece.literal ++ bare 's' :: post.map Piece.literal, q.Ok := by
    intro q hq
    rcases List.mem_append.mp hq with hq | hq
    · exact literal_ok hpre q hq
    · rcases List.mem_cons.mp hq with rfl | hq
      · exact bare_ok (by decide)
      · exact literal_ok hpost q hq
  have hbytes : chars format
      = (pre.map Piece.literal ++ bare 's' :: post.map Piece.literal).flatMap Piece.bytes := by
    rw [hformat, List.flatMap_append, flatMap_literal, List.flatMap_cons, flatMap_literal]
    rfl
  rw [say_pieces hps hbytes, meaning_literal]
  constructor
  · rintro ⟨va', text, h, rfl⟩
    obtain ⟨x, hx, h⟩ := except_map_eq_ok.mp h
    obtain ⟨s, hs, rfl⟩ := (meaning_str p post x).mp hx
    obtain ⟨rfl, rfl⟩ := Prod.mk.inj h
    refine ⟨s, hs, ?_⟩
    rw [← List.append_assoc, filter_text (zero_notMem_append
      (zero_notMem_append hpre.noZero (strOf_noZero hs)) hpost.noZero)]
  · rintro ⟨s, hs, rfl⟩
    refine ⟨[], _, ?_, (filter_text (zero_notMem_append
      (zero_notMem_append hpre.noZero (strOf_noZero hs)) hpost.noZero)).symm⟩
    rw [(meaning_str p post _).mpr ⟨s, hs, rfl⟩, List.append_assoc]
    rfl

/-- An integer in decimal. -/
def inDecimal (z : ℤ) : List Byte := signText (decide (z < 0)) {} ++ numeral 10 false z.natAbs

lemma inDecimal_noZero (z : ℤ) : (0 : Byte) ∉ inDecimal z := by
  refine zero_notMem_append ?_ fun h => ?_
  · rw [signText]
    split_ifs <;> decide
  · exact absurd (isDigit_of_mem_numeral h).1 (by decide)

/-- What `%d` alone puts out. -/
lemma pieceText_inDecimal (v : U32) (va : List (Arg D R)) :
    (bare 'd').text (.int v :: va) = .ok (va, inDecimal v.toInt) := by
  have hvalue : converted true 32 v = v.toInt := by
    rw [converted, if_pos rfl, BitVec.setWidth_eq]
  have hsign : signText (decide (v.toInt < 0)) {}
      = (IntegerConversion.d.form [] none none).sign v.toInt := by
    by_cases hneg : v.toInt < 0
    · rw [signText, if_pos (decide_eq_true hneg), IntegerForm.sign, if_neg (by decide), if_pos hneg]
      rfl
    · rw [signText, if_neg (by simpa using hneg), IntegerForm.sign, if_neg (by decide), if_neg hneg]
      rfl
  have hlayout : (IntegerConversion.d.form [] none none).layout v.toInt = inDecimal v.toInt := by
    rw [IntegerForm.layout, IntegerForm.digits_of_none rfl, inDecimal, hsign, if_neg (by decide),
      if_neg (by decide)]
    simp [IntegerConversion.form, IntegerConversion.base]
  have hroom : HasRoom (IntegerConversion.d.form [] none none) (converted true 32 v) := by
    rw [HasRoom, if_neg (by decide), if_neg (by decide)]
    have hone := (IntegerConversion.d.form [] none none).sign_length_le (converted true 32 v)
    exact Or.inl (hone.trans (by norm_num))
  rw [← hlayout, ← hvalue]
  exact (pieceText_layout_iff .d .int none none List.not_mem_nil v va).mpr
    ⟨fun h => absurd h (by decide), hroom⟩

/-- The parts of a format put out a text for the first arguments, and leave the others. -/
structure Says (ps : List Piece) (va va' : List (Arg D R)) (t : List Byte) : Prop where
  ok : ∀ p ∈ ps, p.Ok
  put : meaning ps va = .ok (va', t)
  noZero : (0 : Byte) ∉ t

namespace Says

variable {ps : List Piece} {va va' va₁ : List (Arg D R)} {t u : List Byte}

lemma nil (va : List (Arg D R)) : Says [] va va [] :=
  ⟨by simp, rfl, List.not_mem_nil⟩

/-- A part before the others. -/
lemma part (h : Says ps va₁ va' u) {p : Piece} (hp : p.Ok) (htext : p.text va = .ok (va₁, t))
    (ht : (0 : Byte) ∉ t) : Says (p :: ps) va va' (t ++ u) where
  ok := List.forall_mem_cons.mpr ⟨hp, h.ok⟩
  put := by
    rw [meaning, htext, ok_bind]
    dsimp only
    rw [h.put]
    rfl
  noZero := zero_notMem_append ht h.noZero

/-- What stands for itself before the others. -/
lemma literal (h : Says ps va va' u) {l : List Byte} (hl : Verbatim l) :
    Says (l.map Piece.literal ++ ps) va va' (l ++ u) where
  ok := by
    intro p hp
    rcases List.mem_append.mp hp with hp | hp
    · exact literal_ok hl p hp
    · exact h.ok p hp
  put := by
    rw [meaning_literal, h.put]
    rfl
  noZero := zero_notMem_append hl.noZero h.noZero

/-- A string before the others. -/
lemma str (h : Says ps va va' u) {p : Option Cells} {s : List Byte} (hs : strOf p = .ok s) :
    Says (bare 's' :: ps) (.str p :: va) va' (s ++ u) :=
  h.part (bare_ok (by decide)) ((strText_plain p va _).mpr ⟨s, hs, rfl⟩) (strOf_noZero hs)

/-- A signed number before the others. -/
lemma int (h : Says ps va va' u) (v : U32) :
    Says (bare 'd' :: ps) (.int v :: va) va' (inDecimal v.toInt ++ u) :=
  h.part (bare_ok (by decide)) (pieceText_inDecimal v va) (inDecimal_noZero _)

/-- What is printed is what the parts put out. -/
lemma say (h : Says ps va va' t) {format : String}
    (hformat : chars format = ps.flatMap Piece.bytes) :
    EverythingNet.say D R format va = .ok t :=
  (say_pieces h.ok hformat va t).mpr ⟨va', t, h.put, (filter_text h.noZero).symm⟩

end Says

lemma strOf_literal {s : String} (hs : Verbatim (chars s)) :
    strOf (some (literal s)) = .ok (chars s) := strText_stored hs.noZero

/-- The line about the memory. -/
lemma say_memory (v : U32) {suffix : String} (hs : Verbatim (chars suffix)) :
    say D R "Memory Size: %d%s\r\n" [.int v, .str (some (literal suffix))]
      = .ok (chars "Memory Size: " ++ (inDecimal v.toInt ++ (chars suffix ++ chars "\r\n"))) := by
  have hend : Says ((chars "\r\n").map Piece.literal ++ []) ([] : List (Arg D R)) [] _ :=
    (Says.nil []).literal (by decide)
  have h := ((hend.str (strOf_literal hs)).int v).literal (l := chars "Memory Size: ") (by decide)
  rw [h.say (by decide), List.append_nil]

/-- The units of the memory size. -/
def unit (n : ℕ) : String := if n = 0 then "KB" else if n = 1 then "MB" else "GB"

/-- A line about a property of the machine. -/
def line (label : String) (s : List Byte) : List Byte := chars label ++ s ++ chars "\r\n"

/-- A line with a string in it. -/
lemma say_line {label format : String} (hlabel : Verbatim (chars label))
    (hformat : chars format = chars label ++ (chars "%s" ++ chars "\r\n")) (p : Option Cells)
    (t : List Byte) :
    say D R format [.str p] = .ok t ↔ ∃ s, strOf p = .ok s ∧ t = line label s :=
  say_str hlabel (by decide) hformat p t

lemma capText_noZero (cap : U32) : (0 : Byte) ∉ capText cap := by
  have hjoined : ∀ ls : List (List Byte), (∀ l ∈ ls, (0 : Byte) ∉ l) → (0 : Byte) ∉ joined ls := by
    intro ls
    induction ls with
    | nil => exact fun _ => List.not_mem_nil
    | cons l ls ih =>
        intro h
        obtain ⟨hl, hls⟩ := List.forall_mem_cons.mp h
        by_cases hnil : ls = []
        · rwa [hnil, joined, List.intercalate_singleton]
        · rw [joined_cons hnil]
          exact zero_notMem_append hl (by simpa [ch] using ih hls)
  refine hjoined _ fun l hl => ?_
  split_ifs at hl
  · rw [List.mem_singleton.mp hl]
    decide
  · have hnames : ∀ c ∈ capNames, (0 : Byte) ∉ chars c.2 := by decide
    obtain ⟨c, hc, -, rfl⟩ := mem_capParts hl
    exact hnames c hc

/-- The capabilities as `main` has them in its buffer. -/
lemma capStr_eq (cap : U32) : ∃ a, capCap2Str cap (some (List.replicate 256 none)) = .ok (some a)
    ∧ strOf (some a) = .ok (capText cap) := by
  have hle := capText_length_le cap
  refine ⟨holding (List.replicate 256 none) (capText cap), ?_, ?_⟩
  · rw [capCap2Str_eq, if_pos (by rw [List.length_replicate]; omega)]
  · rw [strOf, holding, stored_append, List.append_assoc]
    exact strText_stored (capText_noZero cap)

/-- The first unit in which a size is below 10240 is the one of `memorySize`. -/
lemma memorySize_unique {memSz : U32} {n : ℕ} (hlt : memSz.toInt / 1024 ^ n < 10240)
    (hmin : ∀ j < n, 10240 ≤ memSz.toInt / 1024 ^ j) : (memorySize memSz).2 = n := by
  obtain ⟨-, hval, hlt', hmin'⟩ := memorySize_spec memSz
  rcases lt_trichotomy (memorySize memSz).2 n with h | h | h
  · have := hmin _ h
    omega
  · exact h
  · have := hmin' _ h
    omega

/-- The line about the memory as `main` prints it. -/
lemma say_memorySize (memSz : U32) :
    say D R "Memory Size: %d%s\r\n" [.int (memorySize memSz).1,
        .str ((["KB", "MB", "GB"][(memorySize memSz).2]?).map literal)]
      = .ok (line "Memory Size: " (inDecimal (memSz.toInt / 1024 ^ (memorySize memSz).2)
          ++ chars (unit (memorySize memSz).2))) := by
  obtain ⟨hle, hval, -, -⟩ := memorySize_spec memSz
  have hunit : ∀ n ≤ 2, (["KB", "MB", "GB"][n]?).map literal = some (literal (unit n))
      ∧ Verbatim (chars (unit n)) := by
    intro n hn
    interval_cases n <;> exact ⟨rfl, by decide⟩
  rw [(hunit _ hle).1, say_memory _ (hunit _ hle).2, hval, line]
  simp only [List.append_assoc]

/-- What `main` prints before its loop says what the machine is, with the memory size in the first
unit in which it is below 10240, and comes to an end just if all of it are strings. -/
theorem mainBanner_iff (info : PlatInfo) (text : List Byte) :
    mainBanner D R info = .ok text
      ↔ ∃ name os cpu arch gpu n, strOf info.name = .ok name ∧ strOf info.os = .ok os
        ∧ strOf info.cpu = .ok cpu ∧ strOf info.arch = .ok arch ∧ strOf info.gpu = .ok gpu
        ∧ info.memSz.toInt / 1024 ^ n < 10240 ∧ (∀ j < n, 10240 ≤ info.memSz.toInt / 1024 ^ j)
        ∧ text = line "EverythingNet starting up on..." [] ++ line "Machine: " name
          ++ line "OS: " os ++ line "CPU: " cpu ++ line "CPU Architecture: " arch
          ++ line "Memory Size: " (inDecimal (info.memSz.toInt / 1024 ^ n) ++ chars (unit n))
          ++ line "GPU: " gpu ++ line "Capabilities: " (capText info.cap) := by
  have hname : ∀ p t, say D R "Machine: %s\r\n" [.str p] = .ok t
      ↔ ∃ s, strOf p = .ok s ∧ t = line "Machine: " s := say_line (by decide) (by decide)
  have hos : ∀ p t, say D R "OS: %s\r\n" [.str p] = .ok t
      ↔ ∃ s, strOf p = .ok s ∧ t = line "OS: " s := say_line (by decide) (by decide)
  have hcpu : ∀ p t, say D R "CPU: %s\r\n" [.str p] = .ok t
      ↔ ∃ s, strOf p = .ok s ∧ t = line "CPU: " s := say_line (by decide) (by decide)
  have harch : ∀ p t, say D R "CPU Architecture: %s\r\n" [.str p] = .ok t
      ↔ ∃ s, strOf p = .ok s ∧ t = line "CPU Architecture: " s := say_line (by decide) (by decide)
  have hgpu : ∀ p t, say D R "GPU: %s\r\n" [.str p] = .ok t
      ↔ ∃ s, strOf p = .ok s ∧ t = line "GPU: " s := say_line (by decide) (by decide)
  have hstart : puts (literal "EverythingNet starting up on...")
      = .ok (line "EverythingNet starting up on..." []) := by
    rw [puts, literal, strText_stored (by decide)]
    rfl
  obtain ⟨a, hcap, hstr⟩ := capStr_eq info.cap
  have hsay : say D R "Capabilities: %s\r\n" [.str (some a)]
      = .ok (line "Capabilities: " (capText info.cap)) :=
    (say_line (by decide) (by decide) _ _).mpr ⟨_, hstr, rfl⟩
  rw [mainBanner, hstart, ok_bind]
  constructor
  · intro h
    obtain ⟨t₁, h₁, h⟩ := bind_eq_ok.mp h
    obtain ⟨t₂, h₂, h⟩ := bind_eq_ok.mp h
    obtain ⟨t₃, h₃, h⟩ := bind_eq_ok.mp h
    obtain ⟨t₄, h₄, h⟩ := bind_eq_ok.mp h
    dsimp only at h
    rw [say_memorySize, ok_bind] at h
    obtain ⟨t₅, h₅, h⟩ := bind_eq_ok.mp h
    rw [hcap, ok_bind, hsay, ok_bind] at h
    obtain ⟨name, hs₁, rfl⟩ := (hname _ _).mp h₁
    obtain ⟨os, hs₂, rfl⟩ := (hos _ _).mp h₂
    obtain ⟨cpu, hs₃, rfl⟩ := (hcpu _ _).mp h₃
    obtain ⟨arch, hs₄, rfl⟩ := (harch _ _).mp h₄
    obtain ⟨gpu, hs₅, rfl⟩ := (hgpu _ _).mp h₅
    obtain ⟨-, hval, hlt, hmin⟩ := memorySize_spec info.memSz
    exact ⟨name, os, cpu, arch, gpu, _, hs₁, hs₂, hs₃, hs₄, hs₅, by omega, hmin,
      (Except.ok.inj h).symm⟩
  · rintro ⟨name, os, cpu, arch, gpu, n, hs₁, hs₂, hs₃, hs₄, hs₅, hlt, hmin, rfl⟩
    obtain rfl := memorySize_unique hlt hmin
    rw [(hname _ _).mpr ⟨name, hs₁, rfl⟩, ok_bind, (hos _ _).mpr ⟨os, hs₂, rfl⟩, ok_bind,
      (hcpu _ _).mpr ⟨cpu, hs₃, rfl⟩, ok_bind, (harch _ _).mpr ⟨arch, hs₄, rfl⟩, ok_bind]
    dsimp only
    rw [say_memorySize, ok_bind, (hgpu _ _).mpr ⟨gpu, hs₅, rfl⟩, ok_bind, hcap, ok_bind, hsay]
    rfl

end

end EverythingNet
