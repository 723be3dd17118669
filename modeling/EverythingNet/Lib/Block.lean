import Mathlib.Tactic
import EverythingNet.Lib.Outcome
import EverythingNet.Lib.Bytes

/-!
Memory objects.

A `Block` is one object of the C machine: the address of its first byte and its bytes. Every
access names an absolute address, and an access outside the object is the halt `outOfBounds`.

* `Block.load8`, `Block.loadN`, `Block.strlen`, `Block.cstr` read, `Block.store` writes.
* `Block.Has b a l`: the bytes `l` lie at address `a`. It splits over appends (`Has.left`,
  `Has.right`), and each read has one lemma that computes it from `Has`.
* `Block.store_mk` computes a write on a block given as a concatenation.
* `Block.load8_ok`, `Block.strlen_ok`, `Block.loadN_ok` go the other way: a read that succeeds
  shows how the bytes of the block split.
* `SameBelow a`: two states of one object with the same bytes before the address `a`.
* `Grows`, with `Reads` and `Writes`: a computation that stays inside an object does the same in a larger
  one. The property passes through sequences and loops (`Grows.comp`, `Reads.bind`, `Grows.iter`).
-/

namespace CMem

/-- One memory object: its address and its bytes. -/
@[ext]
structure Block where
  base : ℕ
  bytes : List Byte
  deriving DecidableEq, Repr

namespace Block

/-- The number of bytes of the object. -/
def size (b : Block) : ℕ := b.bytes.length

/-- Read `n` bytes. -/
def loadN (b : Block) (a n : ℕ) : Except Halt (List Byte) :=
  if b.base ≤ a ∧ a - b.base + n ≤ b.size then
    .ok ((b.bytes.drop (a - b.base)).take n)
  else .error .outOfBounds

/-- Read one byte. -/
def load8 (b : Block) (a : ℕ) : Except Halt Byte :=
  if b.base ≤ a then
    match b.bytes[a - b.base]? with
    | some v => .ok v
    | none => .error .outOfBounds
  else .error .outOfBounds

/-- The length of the C string at an address. -/
def strlen (b : Block) (a : ℕ) : Except Halt ℕ :=
  if b.base ≤ a then
    match cstrlen (b.bytes.drop (a - b.base)) with
    | some n => .ok n
    | none => .error .outOfBounds
  else .error .outOfBounds

/-- The content of the C string at an address. -/
def cstr (b : Block) (a : ℕ) : Except Halt (List Byte) := do
  let n ← b.strlen a
  b.loadN a n

/-- Overwrite bytes. -/
def store (b : Block) (a : ℕ) (l : List Byte) : Except Halt Block :=
  if b.base ≤ a ∧ a - b.base + l.length ≤ b.size then
    .ok { b with
      bytes := b.bytes.take (a - b.base) ++ l ++ b.bytes.drop (a - b.base + l.length) }
  else .error .outOfBounds

/-- The bytes `l` lie at address `a`. -/
def Has (b : Block) (a : ℕ) (l : List Byte) : Prop :=
  ∃ pre post, b.bytes = pre ++ l ++ post ∧ a = b.base + pre.length

lemma has_mk (base : ℕ) (pre l post : List Byte) :
    Has ⟨base, pre ++ l ++ post⟩ (base + pre.length) l := ⟨pre, post, rfl, rfl⟩

variable {b b' : Block} {a n : ℕ} {l l' s : List Byte}

namespace Has

lemma left (h : b.Has a (l ++ l')) : b.Has a l := by
  obtain ⟨pre, post, hb, ha⟩ := h
  exact ⟨pre, l' ++ post, by simp [hb], ha⟩

lemma right (h : b.Has a (l ++ l')) : b.Has (a + l.length) l' := by
  obtain ⟨pre, post, hb, ha⟩ := h
  exact ⟨pre ++ l, post, by simp [hb], by simp [ha]; omega⟩

lemma mid {x y z : List Byte} (h : b.Has a (x ++ y ++ z)) : b.Has (a + x.length) y := by
  rw [List.append_assoc] at h
  exact h.right.left

/-- Bytes that lie one behind the other. -/
lemma append (h : b.Has a l) (h' : b.Has (a + l.length) l') : b.Has a (l ++ l') := by
  obtain ⟨pre, post, hb, ha⟩ := h
  obtain ⟨pre', post', hb', ha'⟩ := h'
  have hlen : (pre ++ l).length = pre'.length := by
    rw [List.length_append]
    omega
  rw [List.append_assoc pre'] at hb'
  obtain ⟨-, hpost⟩ := List.append_inj (hb.symm.trans hb') hlen
  exact ⟨pre, post', by rw [hb, hpost, List.append_assoc, List.append_assoc, List.append_assoc], ha⟩

lemma congr (h : b.Has a l) {a' : ℕ} (ha : a' = a) : b.Has a' l := ha ▸ h

lemma end_le (h : b.Has a l) : a + l.length ≤ b.base + b.size := by
  obtain ⟨pre, post, hb, ha⟩ := h
  rw [size, hb, ha]
  simp only [List.length_append]
  omega

/-- The shorter of two strings of bytes at one address is the start of the longer. -/
lemma exists_eq_append (h : b.Has a l) (h' : b.Has a l') (hle : l'.length ≤ l.length) :
    ∃ r, l = l' ++ r := by
  obtain ⟨pre, post, hb, ha⟩ := h
  obtain ⟨pre', post', hb', ha'⟩ := h'
  rw [List.append_assoc] at hb hb'
  obtain ⟨-, hsame⟩ := List.append_inj (hb.symm.trans hb') (by omega)
  obtain ⟨r, hr⟩ := List.prefix_of_prefix_length_le (hsame ▸ List.prefix_append l' post')
    (List.prefix_append l post) hle
  exact ⟨r, hr.symm⟩

lemma loadN (h : b.Has a l) : b.loadN a l.length = .ok l := by
  obtain ⟨pre, post, hb, ha⟩ := h
  have hoff : a - b.base = pre.length := by omega
  have hlen : b.base ≤ a ∧ a - b.base + l.length ≤ b.size := by
    rw [size, hb]
    simp only [List.length_append]
    omega
  rw [Block.loadN, if_pos hlen, hoff, hb]
  simp

lemma load8 {v : Byte} (h : b.Has a [v]) : b.load8 a = .ok v := by
  obtain ⟨pre, post, hb, ha⟩ := h
  have hoff : a - b.base = pre.length := by omega
  rw [Block.load8, if_pos (by omega), hoff, hb]
  simp

/-- One byte of several. -/
lemma load8_mem (h : b.Has a l) {n : ℕ} (hn : n < l.length) : ∃ v ∈ l, b.load8 (a + n) = .ok v := by
  have hsplit : l = l.take n ++ [l[n]] ++ l.drop (n + 1) := by
    rw [List.append_assoc, List.singleton_append, List.getElem_cons_drop, List.take_append_drop]
  rw [hsplit] at h
  have hmid := h.mid
  rw [List.length_take, Nat.min_eq_left hn.le] at hmid
  exact ⟨l[n], List.getElem_mem hn, hmid.load8⟩

lemma strlen (h : b.Has a (s ++ [0])) (hs : (0 : Byte) ∉ s) : b.strlen a = .ok s.length := by
  obtain ⟨pre, post, hb, ha⟩ := h
  have hoff : a - b.base = pre.length := by omega
  have hdrop : b.bytes.drop pre.length = s ++ 0 :: post := by simp [hb]
  rw [Block.strlen, if_pos (by omega), hoff, hdrop, cstrlen_append hs]

lemma cstr (h : b.Has a (s ++ [0])) (hs : (0 : Byte) ∉ s) : b.cstr a = .ok s := by
  rw [Block.cstr, h.strlen hs, ok_bind]
  exact h.left.loadN

end Has

/-- A write over bytes of the same number. -/
lemma store_mk {base : ℕ} {pre l l' post : List Byte} (ha : a = base + pre.length)
    (hl : l'.length = l.length) :
    (⟨base, pre ++ l ++ post⟩ : Block).store a l' = .ok ⟨base, pre ++ l' ++ post⟩ := by
  have hoff : a - base = pre.length := by omega
  have hcond : base ≤ a ∧ a - base + l'.length ≤ (⟨base, pre ++ l ++ post⟩ : Block).size := by
    simp only [size, List.length_append]
    omega
  rw [store, if_pos hcond]
  simp only [hoff, hl]
  simp [← List.drop_drop]

@[simp] lemma size_mk (base : ℕ) (l : List Byte) : (⟨base, l⟩ : Block).size = l.length := rfl

lemma load8_ok {v : Byte} (h : b.load8 a = .ok v) : b.Has a [v] := by
  rw [load8] at h
  split_ifs at h with hb
  cases hv : b.bytes[a - b.base]? with
  | none => rw [hv] at h; simp at h
  | some u =>
      rw [hv] at h
      obtain rfl : u = v := by simpa using h
      obtain ⟨hlt, hget⟩ := List.getElem?_eq_some_iff.mp hv
      refine ⟨b.bytes.take (a - b.base), b.bytes.drop (a - b.base + 1), ?_, ?_⟩
      · rw [← hget, List.append_assoc, List.singleton_append, List.getElem_cons_drop,
          List.take_append_drop]
      · rw [List.length_take]
        omega

lemma loadN_ok (h : b.loadN a n = .ok l) : b.Has a l ∧ l.length = n := by
  rw [loadN] at h
  split_ifs at h with hb
  obtain rfl := Except.ok.inj h
  rw [size] at hb
  refine ⟨⟨b.bytes.take (a - b.base), b.bytes.drop (a - b.base + n), ?_, ?_⟩, ?_⟩
  · rw [List.append_assoc, ← List.drop_drop, List.take_append_drop, List.take_append_drop]
  · rw [List.length_take]
    omega
  · rw [List.length_take, List.length_drop]
    omega

lemma strlen_ok (h : b.strlen a = .ok n) :
    ∃ s, (0 : Byte) ∉ s ∧ s.length = n ∧ b.Has a (s ++ [0]) := by
  rw [strlen] at h
  split_ifs at h with hb
  cases hc : cstrlen (b.bytes.drop (a - b.base)) with
  | none => rw [hc] at h; simp at h
  | some m =>
      rw [hc] at h
      obtain rfl : m = n := by simpa using h
      obtain ⟨s, t, hd, hs, hn⟩ := cstrlen_eq_some hc
      refine ⟨s, hs, hn, b.bytes.take (a - b.base), t, ?_, ?_⟩
      · conv_lhs => rw [← List.take_append_drop (a - b.base) b.bytes]
        rw [hd]
        simp
      · have hlen := congrArg List.length hd
        simp only [List.length_drop, List.length_append, List.length_cons] at hlen
        rw [List.length_take]
        omega

lemma store_ok (h : b.store a l = .ok b') :
    b'.base = b.base ∧ b'.size = b.size ∧ a + l.length ≤ b.base + b.size := by
  rw [store] at h
  split_ifs at h with hb
  obtain rfl := Except.ok.inj h
  rw [size] at hb
  refine ⟨rfl, ?_, by rw [size]; omega⟩
  simp only [size, List.length_append, List.length_take, List.length_drop]
  omega

/-! ### What lies before an address -/

/-- Two states of one object, with the same bytes before the address `a`. -/
structure SameBelow (a : ℕ) (b b' : Block) : Prop where
  base : b'.base = b.base
  size : b'.size = b.size
  bytes : b'.bytes.take (a - b.base) = b.bytes.take (a - b.base)

namespace SameBelow

variable {b'' : Block} {a' : ℕ}

lemma refl (a : ℕ) (b : Block) : SameBelow a b b := ⟨rfl, rfl, rfl⟩

lemma trans (h : SameBelow a b b') (h' : SameBelow a b' b'') : SameBelow a b b'' where
  base := h'.base.trans h.base
  size := h'.size.trans h.size
  bytes := by
    have := h'.bytes
    rw [h.base] at this
    exact this.trans h.bytes

lemma mono (h : SameBelow a b b') (ha : a' ≤ a) : SameBelow a' b b' where
  base := h.base
  size := h.size
  bytes := by
    have := congrArg (List.take (a' - b.base)) h.bytes
    rwa [List.take_take, List.take_take, Nat.min_eq_left (by omega)] at this

lemma of_store {p : ℕ} (h : b.store p l = .ok b') (ha : a ≤ p) : SameBelow a b b' where
  base := (store_ok h).1
  size := (store_ok h).2.1
  bytes := by
    rw [store] at h
    split_ifs at h with hb
    obtain rfl := Except.ok.inj h
    rw [Block.size] at hb
    dsimp only
    rw [List.append_assoc, List.take_append_of_le_length (by rw [List.length_take]; omega),
      List.take_take, Nat.min_eq_left (by omega)]

/-- Bytes before the address are in both states. -/
lemma has (h : SameBelow a b b') {p : ℕ} (hp : b.Has p l) (ha : p + l.length ≤ a) : b'.Has p l := by
  obtain ⟨pre, post, hb, rfl⟩ := hp
  have hlen : (pre ++ l).length ≤ a - b.base := by
    rw [List.length_append]
    omega
  obtain ⟨r, hr⟩ : pre ++ l <+: b'.bytes := by
    refine List.IsPrefix.trans ?_ (List.take_prefix (a - b.base) b'.bytes)
    rw [h.bytes, List.prefix_take_iff, hb]
    exact ⟨List.prefix_append .., hlen⟩
  exact ⟨pre, r, hr.symm, by rw [h.base]⟩

end SameBelow

/-! ### Larger objects -/

/-- The object with more bytes behind it. -/
def extend (tail : List Byte) (b : Block) : Block := ⟨b.base, b.bytes ++ tail⟩

lemma Has.extend (h : b.Has a l) (tail : List Byte) : (b.extend tail).Has a l := by
  obtain ⟨pre, post, hb, ha⟩ := h
  exact ⟨pre, post ++ tail, by rw [Block.extend, hb, List.append_assoc], ha⟩

end Block

section

variable {α β γ σ ρ : Type} {x : List Byte → α → α} {y : List Byte → β → β} {z : List Byte → γ → γ}

/-- What `f` makes of `a` it also makes of `a` with more bytes behind its object: `x` and `y` say where
the object is in the argument and in the result. -/
def Grows (x : List Byte → α → α) (y : List Byte → β → β) (f : α → Except Halt β) : Prop :=
  ∀ tail a b, f a = .ok b → f (x tail a) = .ok (y tail b)

/-- A computation that reads an object. -/
abbrev Reads (f : Block → Except Halt α) : Prop := Grows Block.extend (fun _ a => a) f

/-- A computation that changes an object. -/
abbrev Writes (f : Block → Except Halt Block) : Prop := Grows Block.extend Block.extend f

lemma Grows.comp {f : α → Except Halt β} {g : β → Except Halt γ} (hf : Grows x y f)
    (hg : Grows y z g) :
    Grows x z fun a => f a >>= g := by
  intro tail a c h
  obtain ⟨b, hb, hc⟩ := bind_eq_ok.mp h
  exact bind_eq_ok.mpr ⟨_, hf tail a b hb, hg tail b c hc⟩

/-- What was read decides how the object is used next. -/
lemma Reads.bind {f : Block → Except Halt α} {g : α → Block → Except Halt β} (hf : Reads f)
    (hg : ∀ a, Grows Block.extend y (g a)) :
    Grows Block.extend y fun b => f b >>= fun a => g a b := by
  intro tail b c h
  obtain ⟨a, ha, hc⟩ := bind_eq_ok.mp h
  exact bind_eq_ok.mpr ⟨a, hf tail b a ha, hg a tail b c hc⟩

lemma Reads.const (r : Except Halt α) : Reads fun _ => r := fun _ _ _ h => h

lemma Grows.ite {c : Prop} [Decidable c] {f g : α → Except Halt β} (hf : Grows x y f)
    (hg : Grows x y g) :
    Grows x y fun a => if c then f a else g a := by
  by_cases hc : c
  · simpa only [if_pos hc] using hf
  · simpa only [if_neg hc] using hg

/-- The rule of a loop that carries the object in its state. -/
lemma Grows.iter {step : α → Except Halt (α ⊕ β)}
    (h : Grows x (fun tail => Sum.map (x tail) (y tail)) step) (n : ℕ) : Grows x y (iter step n) := by
  intro tail
  induction n with
  | zero => intro a b hab; simp at hab
  | succ n ih =>
      intro a b hab
      cases hs : step a with
      | error e => rw [iter_error hs] at hab; simp at hab
      | ok r =>
          cases r with
          | inl a' =>
              rw [iter_inl hs] at hab
              rw [iter_inl (h tail a _ hs)]
              exact ih a' b hab
          | inr b' =>
              rw [iter_inr hs] at hab
              rw [iter_inr (h tail a _ hs), Except.ok.inj hab]

/-- The rule of a loop that only looks at the object. -/
lemma Reads.iter {step : Block → σ → Except Halt (σ ⊕ ρ)} (h : ∀ s, Reads fun b => step b s) (n : ℕ) :
    ∀ s, Reads fun b => iter (step b) n s := by
  induction n with
  | zero => intro s; exact Reads.const _
  | succ n ih =>
      intro s tail b r hr
      dsimp only at hr ⊢
      cases hs : step b s with
      | error e => rw [iter_error hs] at hr; simp at hr
      | ok q =>
          cases q with
          | inl s' =>
              rw [iter_inl hs] at hr
              rw [iter_inl (h s tail b _ hs)]
              exact ih s' tail b r hr
          | inr r' =>
              rw [iter_inr hs] at hr
              rw [iter_inr (h s tail b _ hs), Except.ok.inj hr]

end

namespace Block

lemma reads_loadN (a n : ℕ) : Reads fun b => b.loadN a n := by
  intro tail b l h
  obtain ⟨hhas, hlen⟩ := loadN_ok h
  have := (hhas.extend tail).loadN
  rwa [hlen] at this

lemma reads_load8 (a : ℕ) : Reads fun b => b.load8 a :=
  fun tail _ _ h => ((load8_ok h).extend tail).load8

lemma reads_strlen (a : ℕ) : Reads fun b => b.strlen a := by
  intro tail b n h
  obtain ⟨s, hs, rfl, hhas⟩ := strlen_ok h
  exact (hhas.extend tail).strlen hs

lemma reads_cstr (a : ℕ) : Reads fun b => b.cstr a :=
  (reads_strlen a).bind fun n => reads_loadN a n

lemma writes_store (a : ℕ) (l : List Byte) : Writes fun b => b.store a l := by
  intro tail b b' h
  dsimp only at h ⊢
  rw [store] at h ⊢
  split_ifs at h with hin
  obtain rfl := Except.ok.inj h
  rw [size] at hin
  have hin' : (b.extend tail).base ≤ a
      ∧ a - (b.extend tail).base + l.length ≤ (b.extend tail).size := by
    rw [size, extend, List.length_append]
    dsimp only
    omega
  rw [if_pos hin', extend, extend]
  have htake : (b.bytes ++ tail).take (a - b.base) = b.bytes.take (a - b.base) :=
    List.take_append_of_le_length (by omega)
  have hdrop : (b.bytes ++ tail).drop (a - b.base + l.length)
      = b.bytes.drop (a - b.base + l.length) ++ tail := List.drop_append_of_le_length hin.2
  simp only [htake, hdrop, List.append_assoc]

end Block

end CMem
