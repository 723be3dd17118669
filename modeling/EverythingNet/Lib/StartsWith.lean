import Mathlib.Tactic
import EverythingNet.Lib.CString

/-!
Arrays that start with a C string.

* `StartsWith a v`: the array `a` starts with the string `v` and its terminator. `strlen`, `strText`,
  `strchr`, `strchr_none`: what is read of it. `strcpy`, `strcat`, `strncat`, `cut`: what is written, with
  `strcpy_long` and `strcat_long` where there is no room.
* `takeWhile_first`, `split_before`: a text up to the first place of a character.
-/

namespace CMem

/-- An array that starts with a string. -/
structure StartsWith (a : Cells) (v : List Byte) : Prop where
  text : (0 : Byte) ∉ v
  cells : ∃ b, a = stored v ++ some 0 :: b

section

variable {a d : Cells} {u v p q : List Byte} {x : Byte} {i : ℕ}

/-! ### A character in a text -/

lemma takeWhile_first (hp : x ∉ p) (q : List Byte) : (p ++ x :: q).takeWhile (· ≠ x) = p := by
  rw [List.takeWhile_append_of_pos fun b hb => by simpa using fun h : b = x => hp (h ▸ hb),
    List.takeWhile_cons_of_neg (by simp), List.append_nil]

/-- There is a character before the first place of one that is not the first itself. -/
lemma split_before (hx : x ∈ v) (hne : v.head? ≠ some x) :
    ∃ p y q, v = p ++ [y] ++ x :: q ∧ x ∉ p ++ [y] := by
  obtain ⟨p, q, rfl, hp⟩ := List.eq_append_cons_of_mem hx
  rcases List.eq_nil_or_concat p with rfl | ⟨p, y, rfl⟩
  · exact absurd rfl hne
  · rw [List.concat_eq_append] at hp ⊢
    exact ⟨p, y, q, rfl, hp⟩

namespace StartsWith

/-! ### Reading -/

lemma length_lt (h : StartsWith a v) : v.length < a.length := by
  obtain ⟨b, rfl⟩ := h.cells
  simp

lemma strText (h : StartsWith a v) : strText a = .ok v := by
  obtain ⟨b, rfl⟩ := h.cells
  exact strText_stored h.text

lemma strlen (h : StartsWith a v) : CMem.strlen a = .ok v.length := by
  obtain ⟨b, rfl⟩ := h.cells
  exact strlen_stored h.text

/-- The first place of a character. -/
lemma strchr (h : StartsWith a (p ++ x :: q)) (hp : x ∉ p) :
    CMem.strchr x a = .ok (some p.length) := by
  obtain ⟨b, rfl⟩ := h.cells
  have hp0 : (0 : Byte) ∉ p := fun h0 => h.text (List.mem_append_left _ h0)
  rw [stored_append, stored_cons, List.append_assoc, List.cons_append]
  exact strchr_stored hp0 hp

lemma strchr_none (h : StartsWith a v) (hx : x ∉ v) (h0 : x ≠ 0) : CMem.strchr x a = .ok none := by
  obtain ⟨b, rfl⟩ := h.cells
  exact CMem.strchr_none h.text hx h0

/-- The first bytes of the string. -/
lemma readN (h : StartsWith a v) (hi : i ≤ v.length) : CMem.readN i a = .ok (v.take i) := by
  obtain ⟨b, rfl⟩ := h.cells
  have hread : CMem.readN (v.take i).length (stored (v.take i) ++ (stored (v.drop i) ++ some 0 :: b))
      = .ok (v.take i) := readN_stored
  rwa [List.length_take_of_le hi, ← List.append_assoc, ← stored_append, List.take_append_drop] at hread

/-! ### Writing -/

/-- A string is copied to an array that has room for it. -/
lemma strcpy (h : StartsWith a v) (hlt : v.length < d.length) :
    ∃ d', CMem.strcpy d a = .ok d' ∧ StartsWith d' v ∧ d'.length = d.length := by
  obtain ⟨b, rfl⟩ := h.cells
  refine ⟨_, strcpy_stored h.text hlt, ⟨h.text, d.drop (v.length + 1), ?_⟩, ?_⟩
  · rw [stored_append, List.append_assoc]
    rfl
  · rw [List.length_append, stored_length, List.length_append, List.length_singleton, List.length_drop]
    omega

lemma strcpy_long (h : StartsWith a v) (hle : d.length ≤ v.length) :
    CMem.strcpy d a = .error .outOfBounds := by
  obtain ⟨b, rfl⟩ := h.cells
  exact strcpy_overflow h.text hle

/-- Another string is appended, if there is room for both. -/
lemma strcat (h : StartsWith a v) (hu : (0 : Byte) ∉ u) (hlt : (v ++ u).length < a.length) :
    ∃ d, CMem.strcat a u = .ok d ∧ StartsWith d (v ++ u) ∧ d.length = a.length := by
  obtain ⟨b, rfl⟩ := h.cells
  simp only [List.length_append, List.length_cons, stored_length] at hlt
  refine ⟨_, strcat_stored h.text (by omega), ⟨?_, b.drop u.length, ?_⟩, ?_⟩
  · rw [List.mem_append, not_or]
    exact ⟨h.text, hu⟩
  · simp
  · simp
    omega

lemma strcat_long (h : StartsWith a v) (hle : a.length ≤ (v ++ u).length) :
    CMem.strcat a u = .error .outOfBounds := by
  obtain ⟨b, rfl⟩ := h.cells
  simp only [List.length_append, List.length_cons, stored_length] at hle
  exact strcat_overflow h.text (by omega)

/-- As much of a string is appended as `n` says. -/
lemma strncat {b : Cells} {n : ℕ} (h : StartsWith a v) (hb : StartsWith b u) (hn : u.length ≤ n)
    (hlt : (v ++ u).length < a.length) :
    ∃ d, CMem.strncat a b n = .ok d ∧ StartsWith d (v ++ u) ∧ d.length = a.length := by
  obtain ⟨rest, rfl⟩ := h.cells
  obtain ⟨rest', rfl⟩ := hb.cells
  simp only [List.length_append, List.length_cons, stored_length] at hlt
  refine ⟨_, strncat_stored h.text hb.text hn (by omega), ⟨?_, rest.drop u.length, ?_⟩, ?_⟩
  · rw [List.mem_append, not_or]
    exact ⟨h.text, hb.text⟩
  · simp
  · simp
    omega

/-- The string is cut off. -/
lemma cut (h : StartsWith a v) (hi : i ≤ v.length) :
    ∃ d, write a i [0] = .ok d ∧ StartsWith d (v.take i) ∧ d.length = a.length := by
  have hlt := h.length_lt
  have hwrite : write a i [0] = .ok (a.take i ++ stored [0] ++ a.drop (i + [(0 : Byte)].length)) :=
    if_pos (by rw [List.length_singleton]; omega)
  refine ⟨_, hwrite, ⟨fun h0 => h.text (List.mem_of_mem_take h0), ?_⟩, write_length hwrite⟩
  obtain ⟨b, rfl⟩ := h.cells
  have htake : (stored v ++ some 0 :: b).take i = stored (v.take i) := by
    rw [List.take_append_of_le_length (by rwa [stored_length]), stored, stored, List.map_take]
  rw [htake, List.append_assoc]
  exact ⟨_, rfl⟩

end StartsWith

end

end CMem
