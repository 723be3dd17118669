import Mathlib.Tactic
import EverythingNet.Libc.Directive

/-!
The types of the arguments of `printf`.

* `Kind`: the type of an argument; `Directive.kinds`, `Piece.kinds`: those that a part of a format
  takes.
* `Takes`: a computation comes to an end just if the arguments it takes are of its kinds, and leaves
  those behind them. `Takes.bind` composes two of them.
* `widthOf_takes`, `precisionOf_takes`, `convertText_takes`: the steps of a directive.
  `settings_sized`: the flags that decide the kind of an integer are those of the modifier.
* `meaning_takes`: a format takes the kinds of its parts. `snprintf_ends_iff`: where its buffer has
  room, a call of `snprintf` comes to an end just if the types of its arguments are those of its
  format.
-/

namespace EverythingNet.Printf

open CMem Numeral

/-- The type of an argument. -/
inductive Kind where
  | int
  | long
  | longLong
  | ptr
  | str
  | double
  deriving DecidableEq

section

variable {D : DataModel} {R : Reals}

def Arg.kind : Arg D R → Kind
  | int _ => .int
  | long _ => .long
  | longLong _ => .longLong
  | ptr _ => .ptr
  | str _ => .str
  | double _ => .double

/-- A string ends with a zero byte. -/
def Arg.Terminated : Arg D R → Prop
  | str p => ∃ s rest, p = some (stored s ++ some 0 :: rest)
  | _ => True

end

/-- The argument that an amount takes. -/
def Amount.kinds (a : Option Amount) : List Kind := if a = some star then [.int] else []

/-- The argument that a conversion takes. -/
def conversionKinds (flags : Flags) (c : Byte) : List Kind :=
  if isInteger c then [if flags.longLong then .longLong else if flags.long then .long else .int]
  else if c ∈ [ch 'f', ch 'F', ch 'e', ch 'E', ch 'g', ch 'G'] then [.double]
  else if c = ch 'c' then [.int]
  else if c = ch 's' then [.str]
  else if c = ch 'p' then [.ptr]
  else []

/-- The arguments that a directive takes. -/
def Directive.kinds (D : DataModel) (d : Directive) : List Kind :=
  Amount.kinds d.width ++ Amount.kinds d.precision.join
    ++ conversionKinds (d.modifier.elim {} (Modifier.set D {})) d.specifier

/-- The arguments that a part of a format takes. -/
def Piece.kinds (D : DataModel) : Piece → List Kind
  | literal _ => []
  | directive d => d.kinds D

section

variable {D : DataModel} {R : Reals} {va : List (Arg D R)} {ks ks' : List Kind} {β γ : Type}

/-! ### Computations that take arguments -/

/-- `r` comes to an end just if the first arguments are of the kinds `ks`, and leaves the others. -/
def Takes (ks : List Kind) (va : List (Arg D R)) (left : β → List (Arg D R))
    (r : Except Halt β) : Prop :=
  (ks <+: va.map Arg.kind → ∃ b, r = .ok b)
    ∧ ∀ b, r = .ok b → ks <+: va.map Arg.kind ∧ left b = va.drop ks.length

lemma append_prefix_iff {α : Type} {l₁ l₂ l : List α} :
    l₁ ++ l₂ <+: l ↔ l₁ <+: l ∧ l₂ <+: l.drop l₁.length := by
  constructor
  · rintro ⟨t, rfl⟩
    exact ⟨⟨l₂ ++ t, by simp⟩, ⟨t, by simp⟩⟩
  · rintro ⟨⟨t, rfl⟩, h⟩
    rw [List.drop_left] at h
    exact List.prefix_append_right_inj l₁ |>.mpr h

lemma Takes.ok {left : β → List (Arg D R)} {b : β} (h : left b = va) :
    Takes [] va left (.ok b) :=
  ⟨fun _ => ⟨b, rfl⟩, fun b' hb => ⟨List.nil_prefix, by rw [← Except.ok.inj hb, h]; rfl⟩⟩

lemma Takes.bind {left : β → List (Arg D R)} {left' : γ → List (Arg D R)} {r : Except Halt β}
    {f : β → Except Halt γ} (h : Takes ks va left r)
    (hf : ∀ b, r = .ok b → Takes ks' (va.drop ks.length) left' (f b)) :
    Takes (ks ++ ks') va left' (r >>= f) := by
  constructor
  · intro hkinds
    obtain ⟨hks, hks'⟩ := append_prefix_iff.mp hkinds
    obtain ⟨b, rfl⟩ := h.1 hks
    rw [ok_bind]
    exact (hf b rfl).1 (by rwa [List.map_drop])
  · intro c hc
    obtain ⟨b, rfl, hc⟩ := bind_eq_ok.mp hc
    obtain ⟨hks', hleft⟩ := (hf b rfl).2 c hc
    refine ⟨append_prefix_iff.mpr ⟨(h.2 b rfl).1, by rwa [← List.map_drop]⟩, ?_⟩
    rw [hleft, List.drop_drop, List.length_append]

/-- What is done with the result takes nothing more. -/
lemma Takes.then {left : β → List (Arg D R)} {left' : γ → List (Arg D R)} {r : Except Halt β}
    (h : Takes ks va left r) {f : β → Except Halt γ}
    (hf : ∀ b, ∃ c, f b = .ok c ∧ left' c = left b) : Takes ks va left' (r >>= f) := by
  have hbind : Takes (ks ++ []) va left' (r >>= f) := h.bind fun b hb => by
    obtain ⟨c, hc, hleft⟩ := hf b
    rw [hc]
    exact Takes.ok (hleft.trans (h.2 b hb).2)
  rwa [List.append_nil] at hbind

lemma vaInt_takes (va : List (Arg D R)) : Takes [.int] va (·.2) (vaInt va) := by
  rcases va with _ | ⟨a, va⟩
  · simp [Takes, vaInt]
  · cases a <;> simp [Takes, vaInt, Arg.kind]

lemma vaLong_takes (va : List (Arg D R)) : Takes [.long] va (·.2) (vaLong va) := by
  rcases va with _ | ⟨a, va⟩
  · simp [Takes, vaLong]
  · cases a <;> simp [Takes, vaLong, Arg.kind]

lemma vaLongLong_takes (va : List (Arg D R)) : Takes [.longLong] va (·.2) (vaLongLong va) := by
  rcases va with _ | ⟨a, va⟩
  · simp [Takes, vaLongLong]
  · cases a <;> simp [Takes, vaLongLong, Arg.kind]

lemma vaPtr_takes (va : List (Arg D R)) : Takes [.ptr] va (·.2) (vaPtr va) := by
  rcases va with _ | ⟨a, va⟩
  · simp [Takes, vaPtr]
  · cases a <;> simp [Takes, vaPtr, Arg.kind]

lemma vaDouble_takes (va : List (Arg D R)) : Takes [.double] va (·.2) (vaDouble va) := by
  rcases va with _ | ⟨a, va⟩
  · simp [Takes, vaDouble]
  · cases a <;> simp [Takes, vaDouble, Arg.kind]

lemma vaStr_takes (hva : ∀ a ∈ va, a.Terminated) : Takes [.str] va (·.2) (vaStr va) := by
  rcases va with _ | ⟨a, va⟩
  · simp [Takes, vaStr]
  · cases a with
    | str p =>
        obtain ⟨s, rest, rfl⟩ := hva _ (List.mem_cons_self ..)
        simp [Takes, vaStr, Arg.kind]
    | _ => simp [Takes, vaStr, Arg.kind]

/-! ### The steps of a directive -/

lemma widthOf_takes (a : Option Amount) (flags : Flags) (va : List (Arg D R)) :
    Takes (Amount.kinds a) va (·.2.2) (widthOf flags va a) := by
  rcases a with _ | n | _
  · exact Takes.ok rfl
  · exact Takes.ok rfl
  · refine (vaInt_takes va).then fun x => ?_
    obtain ⟨w, va'⟩ := x
    dsimp only
    split_ifs <;> exact ⟨_, rfl, rfl⟩

lemma precisionOf_takes (a : Option (Option Amount)) (flags : Flags) (va : List (Arg D R)) :
    Takes (Amount.kinds a.join) va (·.2.2) (precisionOf flags va a) := by
  rcases a with _ | _ | n | _
  · exact Takes.ok rfl
  · exact Takes.ok rfl
  · exact Takes.ok rfl
  · exact (vaInt_takes va).then fun x => ⟨_, rfl, rfl⟩

lemma settings_takes (d : Directive) (va : List (Arg D R)) :
    Takes (Amount.kinds d.width ++ Amount.kinds d.precision.join) va (·.2.2.2) (d.settings va) := by
  refine (widthOf_takes d.width _ va).bind fun x hx => ?_
  have hleft := ((widthOf_takes d.width _ va).2 x hx).2
  rw [← hleft]
  exact (precisionOf_takes d.precision x.1 x.2.2).then fun y => ⟨_, rfl, rfl⟩

/-- `FLAGS_LONG` and `FLAGS_LONG_LONG` are the same. -/
def SameSize (flags flags' : Flags) : Prop :=
  flags.long = flags'.long ∧ flags.longLong = flags'.longLong

lemma conversionKinds_congr {flags flags' : Flags} (h : SameSize flags flags') (c : Byte) :
    conversionKinds flags c = conversionKinds flags' c := by
  rw [conversionKinds, conversionKinds, h.1, h.2]

lemma foldl_set_sized (fs : List FlagChar) (flags : Flags) :
    SameSize (fs.foldl FlagChar.set flags) flags := by
  induction fs generalizing flags with
  | nil => exact ⟨rfl, rfl⟩
  | cons f fs ih =>
      obtain ⟨h₁, h₂⟩ := ih (FlagChar.set flags f)
      rw [List.foldl_cons]
      cases f <;> exact ⟨h₁, h₂⟩

lemma modifier_set_sized {flags flags' : Flags} (h : SameSize flags flags') (m : Modifier) :
    SameSize (Modifier.set D flags m) (Modifier.set D flags' m) := by
  have hsized : ∀ w w' : Width, SameSize (flags.sized w w') (flags'.sized w w') := by
    intro w w'
    rw [Flags.sized, Flags.sized]
    split_ifs
    · exact ⟨rfl, h.2⟩
    · exact ⟨h.1, rfl⟩
  cases m with
  | hh => exact h
  | h => exact h
  | l => exact ⟨rfl, h.2⟩
  | ll => exact ⟨rfl, rfl⟩
  | t => exact hsized _ _
  | j => exact hsized _ _
  | z => exact hsized _ _

lemma widthOf_sized {a : Option Amount} {flags : Flags} {x : Flags × ℕ × List (Arg D R)}
    (h : widthOf flags va a = .ok x) : SameSize x.1 flags := by
  rcases a with _ | n | _
  · obtain rfl := Except.ok.inj h
    exact ⟨rfl, rfl⟩
  · obtain rfl := Except.ok.inj h
    exact ⟨rfl, rfl⟩
  · obtain ⟨⟨w, va'⟩, -, h⟩ := bind_eq_ok.mp h
    dsimp only at h
    split_ifs at h <;> obtain rfl := Except.ok.inj h <;> exact ⟨rfl, rfl⟩

lemma precisionOf_sized {a : Option (Option Amount)} {flags : Flags}
    {x : Flags × ℕ × List (Arg D R)} (h : precisionOf flags va a = .ok x) :
    SameSize x.1 flags := by
  rcases a with _ | _ | n | _
  · obtain rfl := Except.ok.inj h
    exact ⟨rfl, rfl⟩
  · obtain rfl := Except.ok.inj h
    exact ⟨rfl, rfl⟩
  · obtain rfl := Except.ok.inj h
    exact ⟨rfl, rfl⟩
  · obtain ⟨y, -, h⟩ := bind_eq_ok.mp h
    obtain rfl := Except.ok.inj h
    exact ⟨rfl, rfl⟩

/-- The flags that decide the kind of an integer are those of the modifier. -/
lemma settings_sized {d : Directive} {x : Flags × ℕ × ℕ × List (Arg D R)}
    (h : d.settings va = .ok x) :
    SameSize x.1 (d.modifier.elim {} (Modifier.set D {})) := by
  obtain ⟨y, hy, h⟩ := bind_eq_ok.mp h
  obtain ⟨z, hz, h⟩ := bind_eq_ok.mp h
  obtain rfl := Except.ok.inj h
  have hflags := foldl_set_sized d.flags {}
  have hwidth := widthOf_sized hy
  have hprecision := precisionOf_sized hz
  have hall : SameSize z.1 {} := ⟨hprecision.1.trans (hwidth.1.trans hflags.1),
    hprecision.2.trans (hwidth.2.trans hflags.2)⟩
  cases d.modifier with
  | none => exact hall
  | some m => exact modifier_set_sized hall m

lemma integerFlags_sized (c : Byte) (flags : Flags) : SameSize (integerFlags c flags) flags := by
  dsimp only [integerFlags]
  split_ifs <;> exact ⟨rfl, rfl⟩

lemma integerArg_takes (c : Byte) (flags : Flags) (va : List (Arg D R)) :
    Takes [if flags.longLong then .longLong else if flags.long then .long else .int] va (·.2.2)
      (integerArg c flags va) := by
  rw [integerArg]
  by_cases hll : flags.longLong
  · rw [if_pos hll, if_pos hll]
    refine (vaLongLong_takes va).then fun x => ?_
    split_ifs <;> exact ⟨_, rfl, rfl⟩
  rw [if_neg hll, if_neg hll]
  by_cases hl : flags.long
  · rw [if_pos hl, if_pos hl]
    refine (vaLong_takes va).then fun x => ?_
    split_ifs <;> exact ⟨_, rfl, rfl⟩
  rw [if_neg hl, if_neg hl]
  refine (vaInt_takes va).then fun x => ?_
  split_ifs <;> exact ⟨_, rfl, rfl⟩

lemma strnlenS_terminated (s : List Byte) (rest : Cells) :
    ∀ maxsize, ∃ l, strnlenS (stored s ++ some 0 :: rest) maxsize = .ok l := by
  induction s with
  | nil =>
      intro maxsize
      exact ⟨0, by simp [stored, strnlenS]⟩
  | cons b s ih =>
      intro maxsize
      rw [stored_cons, List.cons_append, strnlenS]
      split_ifs
      · obtain ⟨l, hl⟩ := ih (maxsize - 1)
        exact ⟨l + 1, by rw [hl]; rfl⟩
      · exact ⟨0, rfl⟩

lemma strChars_terminated (s : List Byte) (rest : Cells) :
    ∀ precision, ∃ text, strChars precision (stored s ++ some 0 :: rest) = .ok text := by
  induction s with
  | nil =>
      intro precision
      exact ⟨[], by simp [stored, strChars]⟩
  | cons b s ih =>
      intro precision
      rw [stored_cons, List.cons_append, strChars]
      split_ifs
      · exact ⟨[], rfl⟩
      · obtain ⟨text, htext⟩ := ih (precision.map (· - 1))
        exact ⟨b :: text, by rw [htext]; rfl⟩

lemma strText_takes (flags : Flags) (width precision : ℕ) (hva : ∀ a ∈ va, a.Terminated) :
    Takes [.str] va (·.1) (strText flags width precision va) := by
  have h := vaStr_takes hva
  refine ⟨fun hkinds => ?_, fun b hb => ?_⟩
  · rcases va with _ | ⟨a, va⟩
    · simp at hkinds
    · cases a with
      | str p =>
          obtain ⟨s, rest, rfl⟩ := hva _ (List.mem_cons_self ..)
          obtain ⟨l, hl⟩ := strnlenS_terminated s rest
            (if precision ≠ 0 then precision else 2 ^ D.ptr.bits - 1)
          obtain ⟨text, htext⟩ := strChars_terminated s rest
            (if flags.precision then some precision else none)
          rw [strText, vaStr, ok_bind]
          dsimp only
          rw [hl, ok_bind, htext]
          exact ⟨_, rfl⟩
      | _ => simp [Arg.kind] at hkinds
  · obtain ⟨x, hx, hb⟩ := bind_eq_ok.mp hb
    obtain ⟨l, -, hb⟩ := bind_eq_ok.mp hb
    obtain ⟨text, -, rfl⟩ := except_map_eq_ok.mp hb
    exact h.2 x hx

lemma convertText_takes (c : Byte) (flags : Flags) (width precision : ℕ)
    (hva : ∀ a ∈ va, a.Terminated) :
    Takes (conversionKinds flags c) va (·.1) (convertText c flags width precision va) := by
  rw [conversionKinds, convertText]
  by_cases hint : isInteger c
  · rw [if_pos hint, if_pos hint, ← (integerFlags_sized c flags).1, ← (integerFlags_sized c flags).2]
    exact (integerArg_takes c _ va).then fun x => ⟨_, rfl, rfl⟩
  rw [if_neg hint, if_neg hint]
  by_cases hf : c = ch 'f' ∨ c = ch 'F'
  · rw [if_pos hf, if_pos (by simp; tauto)]
    exact (vaDouble_takes va).then fun x => ⟨_, rfl, rfl⟩
  rw [if_neg hf]
  by_cases he : c = ch 'e' ∨ c = ch 'E' ∨ c = ch 'g' ∨ c = ch 'G'
  · rw [if_pos he, if_pos (by simp; tauto)]
    exact (vaDouble_takes va).then fun x => ⟨_, rfl, rfl⟩
  rw [if_neg he, if_neg (by simp; tauto)]
  by_cases hc : c = ch 'c'
  · rw [if_pos hc, if_pos hc]
    exact (vaInt_takes va).then fun x => ⟨_, rfl, rfl⟩
  rw [if_neg hc, if_neg hc]
  by_cases hs : c = ch 's'
  · rw [if_pos hs, if_pos hs]
    exact strText_takes flags width precision hva
  rw [if_neg hs, if_neg hs]
  by_cases hp : c = ch 'p'
  · rw [if_pos hp, if_pos hp]
    exact (vaPtr_takes va).then fun x => ⟨_, rfl, rfl⟩
  rw [if_neg hp, if_neg hp]
  exact Takes.ok rfl

/-! ### Formats -/

lemma pieceText_takes (p : Piece) (hva : ∀ a ∈ va, a.Terminated) :
    Takes (p.kinds D) va (·.1) (p.text va) := by
  cases p with
  | literal c => exact Takes.ok rfl
  | directive d =>
      refine (settings_takes d va).bind fun x hx => ?_
      have hleft : x.2.2.2 = va.drop _ := ((settings_takes d va).2 x hx).2
      rw [← conversionKinds_congr (settings_sized hx), ← hleft]
      refine convertText_takes d.specifier x.1 x.2.1 x.2.2.1 fun a ha => hva a ?_
      rw [hleft] at ha
      exact List.mem_of_mem_drop ha

/-- A format takes the arguments that its parts take, one after the other. -/
lemma meaning_takes (ps : List Piece) (hva : ∀ a ∈ va, a.Terminated) :
    Takes (ps.flatMap (Piece.kinds D)) va (·.1) (meaning ps va) := by
  induction ps generalizing va with
  | nil => exact Takes.ok rfl
  | cons p ps ih =>
      rw [List.flatMap_cons]
      refine (pieceText_takes p hva).bind fun x hx => ?_
      have hleft : x.1 = va.drop _ := ((pieceText_takes p hva).2 x hx).2
      rw [← hleft]
      have hrest : ∀ a ∈ x.1, a.Terminated := by
        intro a ha
        rw [hleft] at ha
        exact hva a (List.mem_of_mem_drop ha)
      have hps := ih hrest
      have hmap : (meaning ps x.1).map (fun y => (y.1, x.2 ++ y.2))
          = meaning ps x.1 >>= fun y => .ok (y.1, x.2 ++ y.2) := by
        cases meaning ps x.1 <;> rfl
      change Takes _ _ _ ((meaning ps x.1).map fun y => (y.1, x.2 ++ y.2))
      rw [hmap]
      exact hps.then fun y => ⟨_, rfl, rfl⟩

/-- With room in the buffer, a call of `snprintf` comes to an end just if its first arguments are of
the types that its format takes. -/
theorem snprintf_ends_iff {ps : List Piece} (hps : ∀ p ∈ ps, p.Ok) (rest : List Byte)
    (hva : ∀ a ∈ va, a.Terminated) {buf : Cells} {count : ℕ} (hcount : count ≤ buf.length)
    (hsize : count < 2 ^ D.ptr.bits) :
    (∃ r, snprintf (some buf) count (ps.flatMap Piece.bytes ++ 0 :: rest) va = .ok r)
      ↔ ps.flatMap (Piece.kinds D) <+: va.map Arg.kind := by
  have htakes := meaning_takes ps hva
  constructor
  · rintro ⟨⟨b, ret⟩, h⟩
    obtain ⟨text, htext, -, -⟩ := snprintf_text hsize h
    rw [textOf_terminated hps] at htext
    obtain ⟨x, hx, -⟩ := except_map_eq_ok.mp htext
    exact (htakes.2 x hx).1
  · intro hkinds
    obtain ⟨x, hx⟩ := htakes.1 hkinds
    have htext : textOf (ps.flatMap Piece.bytes ++ 0 :: rest) va = .ok x.2 := by
      rw [textOf_terminated hps, hx]
      rfl
    exact snprintf_within hcount htext

theorem snprintf_ends_iff_sample :
    ∃ r, snprintf (some (List.replicate 8 none)) 8 (chars "%zu%*s" ++ [0])
        [(.long 7 : Arg lp64 noReals), .int 3, .str (some (stored (chars "x") ++ [some 0]))]
      = .ok r := by
  have hps : ∀ p ∈ [.directive ⟨[], none, none, some .z, ch 'u'⟩,
      .directive ⟨[], some .star, none, none, ch 's'⟩], Piece.Ok p := by decide
  refine (snprintf_ends_iff hps [] ?_ (by decide) (by decide)).mpr (by decide)
  intro a ha
  simp only [List.mem_cons, List.not_mem_nil, or_false] at ha
  rcases ha with rfl | rfl | rfl
  · trivial
  · trivial
  · exact ⟨chars "x", [], rfl⟩

end

end EverythingNet.Printf
