import Mathlib.Tactic
import EverythingNet.Host.Target
import EverythingNet.Plat.Device

/-!
The operating system's name on Mac OS X: the part of `plat/osx/info.c` that reads `SystemVersion.plist`.

* `findTag`: the search for a key, the `<string>` behind it and its `</string>`. `gatherProductName` and
  `gatherProductVersion` are the two copies of the code around it, `joinOs` puts `PLAT_Info.os` together.
* `plistField`: what the two names are to be. `findTag_text` and `plistText_eq` lead from the search of
  the code to it.
* `osxVersion_iff`: when the code gives all three strings.
-/

namespace EverythingNet

open CMem

/-! ### The code -/

def openTag : List Byte := chars "<string>"

def closeTag : List Byte := chars "</string>"

def productNameKey : List Byte := chars "<key>ProductName</key>"

def productVersionKey : List Byte := chars "<key>ProductVersion</key>"

def macOsX : List Byte := chars "Mac OS X"

def unknownVersion : List Byte := chars "[Unknown Version]"

/-- Bytes with a zero byte behind them. -/
abbrev ended (s : List Byte) : Cells := stored s ++ [some 0]

/-- Where the pointers of a search point to, as places in `buf`. -/
inductive TagSearch where
  | noKey
  | noOpen
  | opened (ptr : ℕ) (ptrEnd : Option ℕ)
  deriving DecidableEq

/-- The three searches: for the key, for `<string>` from there on, and for `</string>` from there on. -/
def findTag (buf : Cells) (key : List Byte) : Except Halt TagSearch := do
  match ← strstr buf key with
  | none => return .noKey
  | some k =>
    match ← strstr (buf.drop k) openTag with
    | none => return .noOpen
    | some j =>
      let ptrEnd ← strstr (buf.drop (k + j)) closeTag
      return .opened (k + j) (ptrEnd.map (k + j + ·))

/-- The number of bytes that are copied: the difference of the pointers, as an `int` and then as the
`size_t` of `memcpy`. `buf` lies at the address `p`; a `ptrEnd` that is `NULL` is not noticed. -/
def copySize {w : ℕ} (p : BitVec w) (ptr : ℕ) (ptrEnd : Option ℕ) : ℕ :=
  let ptrEnd : BitVec w := match ptrEnd with
    | none => 0
    | some e => p + BitVec.ofNat w e
  let size : U32 := (ptrEnd - (p + BitVec.ofNat w ptr)).setWidth 32
  (size.signExtend w).toNat

/-- What is copied into one of the two arrays, which is cleared before. -/
def copyText {w : ℕ} (p : BitVec w) (buf : Cells) (ptr : ℕ) (ptrEnd : Option ℕ) : Except Halt Cells :=
  let ptr := ptr + 8
  memcpy (stored (List.replicate 64 0)) (buf.drop ptr) (copySize p ptr ptrEnd)

/-- The first copy: `productName`. -/
def gatherProductName {w : ℕ} (p : BitVec w) (buf : Cells) : Except Halt Cells := do
  match ← findTag buf productNameKey with
  | .noKey => CMem.strcpy (List.replicate 64 none) (ended macOsX)
  | .noOpen => CMem.strcpy (List.replicate 64 none) (ended macOsX)
  -- after the last search it is `ptr` that is tested once more
  | .opened ptr ptrEnd => copyText p buf ptr ptrEnd

/-- The second copy: `productName` and `productVersion`. Without a `<string>` it writes to the first. -/
def gatherProductVersion {w : ℕ} (p : BitVec w) (buf productName : Cells) :
    Except Halt (Cells × Cells) := do
  match ← findTag buf productVersionKey with
  | .noKey =>
    let productVersion ← CMem.strcpy (List.replicate 64 none) (ended unknownVersion)
    return (productName, productVersion)
  | .noOpen =>
    let productName ← CMem.strcpy productName (ended unknownVersion)
    return (productName, List.replicate 64 none)
  | .opened ptr ptrEnd =>
    let productVersion ← copyText p buf ptr ptrEnd
    return (productName, productVersion)

/-- `strncat(PLAT_Info.os, src, 128 - strlen(PLAT_Info.os))`. -/
def catOs (os src : Cells) : Except Halt Cells := do
  let n ← CMem.strlen os
  strncat os src (128 - n)

/-- `PLAT_Info.os`. -/
def joinOs (productName productVersion : Cells) (release : CStr) : Except Halt Cells := do
  let os ← CMem.strcpy (List.replicate 128 none) productName
  let os ← catOs os (ended (chars " "))
  let os ← catOs os productVersion
  let os ← catOs os (ended (chars " w/ Darwin "))
  catOs os (ended release.1)

/-- The three arrays of characters. -/
structure OsxVersion where
  productName : Cells
  productVersion : Cells
  os : Cells

/-- The part of `OSX_GatherInfo` from `buf` on: `buf` lies at the address `p`. -/
def osxVersion {w : ℕ} (p : BitVec w) (buf : Cells) (release : CStr) : Except Halt OsxVersion := do
  let productName ← gatherProductName p buf
  let (productName, productVersion) ← gatherProductVersion p buf productName
  let os ← joinOs productName productVersion release
  return ⟨productName, productVersion, os⟩

/-! ### What the strings are to be -/

/-- The text of the file, which ends at a zero byte. -/
def plistOf (c : List Byte) : List Byte := c.takeWhile (· ≠ 0)

/-- The text between the first `<string>` behind the key and the next `</string>`. -/
def plistText (key t : List Byte) : Option (List Byte) := do
  let k ← firstAt key t
  let j ← firstAt openTag (t.drop (k + key.length))
  let s := t.drop (k + key.length + j + 8)
  let e ← firstAt closeTag s
  return s.take e

/-- What a name is to be: this text, as far as there is room for it, or what stands in for it. -/
def plistField (key fallback t : List Byte) : List Byte :=
  ((plistText key t).map (List.take 63)).getD fallback

/-! ### The searches -/

/-- The searches in a text. -/
def lookTag (key t : List Byte) : TagSearch :=
  match firstAt key t with
  | none => .noKey
  | some k =>
    match firstAt openTag (t.drop k) with
    | none => .noOpen
    | some j => .opened (k + j) ((firstAt closeTag (t.drop (k + j))).map (k + j + ·))

/-- The text between the places of a search. -/
def TagSearch.text (t : List Byte) : TagSearch → Option (List Byte)
  | .noKey => none
  | .noOpen => none
  | .opened _ none => none
  | .opened ptr (some e) => some ((t.drop (ptr + 8)).take (e - (ptr + 8)))

section

variable {key fallback t : List Byte} {rest : Cells}

lemma strstr_drop (ht : (0 : Byte) ∉ t) {k : ℕ} (hk : k ≤ t.length) (n : List Byte) :
    strstr ((stored t ++ some 0 :: rest).drop k) n = .ok (firstAt n (t.drop k)) := by
  rw [drop_stored _ hk]
  exact strstr_stored (fun h => ht (List.mem_of_mem_drop h)) n

/-- In a file the code searches its text. -/
lemma findTag_text (ht : (0 : Byte) ∉ t) (key : List Byte) :
    findTag (stored t ++ some 0 :: rest) key = .ok (lookTag key t) := by
  rw [findTag, lookTag, strstr_stored ht, ok_bind]
  cases hk : firstAt key t with
  | none => rfl
  | some k =>
      have hk' := (firstAt_pos hk).1
      dsimp only
      rw [strstr_drop ht hk', ok_bind]
      cases hj : firstAt openTag (t.drop k) with
      | none => rfl
      | some j =>
          have hj' := (firstAt_pos hj).1
          rw [List.length_drop] at hj'
          dsimp only
          rw [strstr_drop ht (by omega), ok_bind]
          rfl

/-- What occurs is followed by the rest of the text. -/
lemma drop_firstAt {n h : List Byte} {i : ℕ} (hi : firstAt n h = some i) :
    h.drop i = n ++ h.drop (i + n.length) := by
  obtain ⟨-, ⟨s, hs⟩, -⟩ := firstAt_pos hi
  rw [← List.drop_drop, ← hs, List.drop_left]

/-- The code finds the text between the tags. -/
lemma plistText_eq (hkey : Apart openTag key) (t : List Byte) :
    plistText key t = (lookTag key t).text t := by
  rw [plistText, lookTag]
  cases hk : firstAt key t with
  | none => rfl
  | some k =>
      have hopen : firstAt openTag (t.drop k)
          = (firstAt openTag (t.drop (k + key.length))).map (key.length + ·) := by
        rw [drop_firstAt hk, firstAt_append hkey]
      dsimp only
      rw [hopen]
      cases hj : firstAt openTag (t.drop (k + key.length)) with
      | none => simp [hj, TagSearch.text]
      | some j =>
          have hdrop := drop_firstAt hj
          rw [List.drop_drop, List.drop_drop] at hdrop
          have hclose : firstAt closeTag (t.drop (k + (key.length + j)))
              = (firstAt closeTag (t.drop (k + key.length + j + 8))).map (8 + ·) := by
            rw [← add_assoc, hdrop, firstAt_append (by decide)]
            rfl
          simp only [Option.map_some, hclose]
          cases he : firstAt closeTag (t.drop (k + key.length + j + 8)) with
          | none => simp [hj, he, TagSearch.text]
          | some e =>
              have hplace : k + (key.length + j) + 8 = k + key.length + j + 8 := by omega
              have hsize : k + (key.length + j) + (8 + e) - (k + key.length + j + 8) = e := by omega
              simp [hj, he, TagSearch.text, hplace, hsize]

/-- The places lie in the text. -/
lemma lookTag_opened {ptr : ℕ} {ptrEnd : Option ℕ} (h : lookTag key t = .opened ptr ptrEnd) :
    ptr + 8 ≤ t.length ∧ ∀ e, ptrEnd = some e → ptr + 8 ≤ e ∧ e ≤ t.length := by
  rw [lookTag] at h
  cases hk : firstAt key t with
  | none => simp [hk] at h
  | some k =>
      simp only [hk] at h
      cases hj : firstAt openTag (t.drop k) with
      | none => simp [hj] at h
      | some j =>
          simp only [hj, TagSearch.opened.injEq] at h
          obtain ⟨rfl, rfl⟩ := h
          have hdrop := drop_firstAt hj
          rw [List.drop_drop] at hdrop
          have hopen : k + j + 8 ≤ t.length := by
            have hlen := congrArg List.length hdrop
            have h8 : openTag.length = 8 := rfl
            rw [List.length_append, List.length_drop, h8] at hlen
            omega
          refine ⟨hopen, fun e he => ?_⟩
          obtain ⟨i, hi, rfl⟩ := Option.map_eq_some_iff.mp he
          have hle := (firstAt_pos hi).1
          rw [List.length_drop] at hle
          rw [hdrop, firstAt_append (by decide)] at hi
          obtain ⟨i', -, rfl⟩ := Option.map_eq_some_iff.mp hi
          have h8 : openTag.length = 8 := rfl
          omega

end

/-! ### The copies -/

section

variable {w : ℕ} {p : BitVec w} {f : List Byte}

/-- With both ends the number of bytes is that of the text. -/
lemma copySize_some (hw : w = 32 ∨ w = 64) (p : BitVec w) {ptr e : ℕ} (hle : ptr ≤ e)
    (he : e < 2 ^ 31) : copySize p ptr (some e) = e - ptr := by
  obtain ⟨d, rfl⟩ := Nat.exists_eq_add_of_le hle
  have hsub : p + BitVec.ofNat w (ptr + d) - (p + BitVec.ofNat w ptr) = BitVec.ofNat w d := by
    rw [BitVec.ofNat_add]
    grind
  have hsize : (BitVec.ofNat w d).setWidth 32 = BitVec.ofNat 32 d := by
    rcases hw with rfl | rfl
    · exact BitVec.setWidth_eq _
    · rw [← BitVec.toNat_inj, BitVec.toNat_setWidth, BitVec.toNat_ofNat, BitVec.toNat_ofNat]
      omega
  have hmsb : (BitVec.ofNat 32 d).msb = false := by
    rw [BitVec.msb_eq_false_iff_two_mul_lt, toNat_ofNat_of_lt (by omega)]
    omega
  rw [copySize, hsub, hsize, BitVec.signExtend_eq_setWidth_of_msb_false hmsb, BitVec.toNat_setWidth,
    toNat_ofNat_of_lt (by omega)]
  rcases hw with rfl | rfl <;> omega

/-- What is copied into the cleared array reads as the string `f`. -/
lemma copied_iff (hlen : f.length ≤ 63) {src : Cells} {n : ℕ} :
    (∃ a, memcpy (stored (List.replicate 64 0)) src n = .ok a ∧ strText a = .ok f)
      ↔ ∃ l, readN n src = .ok l ∧ n ≤ 64 ∧ l.takeWhile (· ≠ 0) = f := by
  have hcopy : ∀ l, readN n src = .ok l → n ≤ 64 →
      memcpy (stored (List.replicate 64 0)) src n
        = .ok (stored (l ++ List.replicate (64 - n) 0)) := by
    intro l hl hn
    obtain ⟨rfl, -⟩ := readN_eq_ok hl
    have hwrite := write_zero (a := stored (List.replicate 64 0)) l (by simpa using hn)
    have hdrop : (stored (List.replicate 64 (0 : Byte))).drop l.length
        = stored (List.replicate (64 - l.length) 0) := by
      rw [stored, stored, List.map_replicate, List.map_replicate, List.drop_replicate]
    rw [hdrop, ← stored_append] at hwrite
    rw [memcpy, hl]
    exact hwrite
  constructor
  · rintro ⟨a, ha, htext⟩
    cases hl : readN n src with
    | error e => simp [memcpy, hl, Except.bind] at ha
    | ok l =>
        by_cases hn : n ≤ 64
        · rw [hcopy l hl hn] at ha
          obtain rfl := Except.ok.inj ha
          obtain ⟨-, htext⟩ := strText_stored_iff.mp htext
          rw [takeWhile_padded] at htext
          exact ⟨l, rfl, hn, htext⟩
        · obtain ⟨rfl, a', rfl⟩ := readN_eq_ok hl
          rw [memcpy_overflow (by simpa using hn)] at ha
          simp at ha
  · rintro ⟨l, hl, hn, hf'⟩
    refine ⟨_, hcopy l hl hn, strText_stored_iff.mpr ⟨?_, by rw [takeWhile_padded, hf']⟩⟩
    obtain ⟨rfl, -⟩ := readN_eq_ok hl
    by_contra h0
    have hall := takeWhile_unended h0
    rw [takeWhile_padded, hf'] at hall
    have hlen' := congrArg List.length hall
    rw [List.length_append, List.length_replicate] at hlen'
    omega

end

/-! ### The name of the system -/

/-- The name, a space, the version, and that of Darwin. -/
def osName (name version release : List Byte) : List Byte :=
  name ++ chars " " ++ version ++ chars " w/ Darwin " ++ release

section

variable {os src a b : Cells} {s u name version : List Byte}

/-- Appending to `PLAT_Info.os` what fits behind it. -/
lemma catOs_fits (hos : NameIs os s) (hs : (0 : Byte) ∉ s) (hsrc : strText src = .ok u)
    (hfit : s.length + u.length ≤ 127) :
    ∃ os', catOs os src = .ok os' ∧ NameIs os' (s ++ u) ∧ (0 : Byte) ∉ s ++ u := by
  obtain ⟨hu, b, rfl⟩ := strText_eq_ok hsrc
  obtain ⟨hlen, a, rfl⟩ := hos
  rw [List.length_append, stored_length, List.length_cons] at hlen
  have hcat : catOs (stored s ++ some 0 :: a) (stored u ++ some 0 :: b)
      = .ok (stored (s ++ (u ++ [0])) ++ a.drop u.length) := by
    rw [catOs, strlen_stored hs, ok_bind]
    exact strncat_stored hs hu (by omega) (by omega)
  refine ⟨_, hcat, ⟨?_, a.drop u.length, by simp⟩, fun h => (List.mem_append.mp h).elim hs hu⟩
  simp only [List.length_append, stored_length, List.length_drop, List.length_singleton]
  omega

/-- The limit is one too large: what does not fit overwrites the byte behind. -/
lemma catOs_overflow (hos : NameIs os s) (hs : (0 : Byte) ∉ s) (hsrc : strText src = .ok u)
    (hfit : 127 < s.length + u.length) : catOs os src = .error .outOfBounds := by
  obtain ⟨hu, b, rfl⟩ := strText_eq_ok hsrc
  obtain ⟨hlen, a, rfl⟩ := hos
  rw [List.length_append, stored_length, List.length_cons] at hlen
  have hwrite : write (stored s ++ some 0 :: a) s.length (u.take (128 - s.length) ++ [0])
      = .error .outOfBounds := by
    refine write_eq_error ?_
    simp only [List.length_append, stored_length, List.length_cons, List.length_take,
      List.length_nil]
    omega
  rw [catOs, strlen_stored hs, ok_bind, strncat, strlen_stored hs, strnText_stored _ hu]
  exact hwrite

lemma strText_nameIs (hos : NameIs os s) (hs : (0 : Byte) ∉ s) : strText os = .ok s := by
  obtain ⟨-, a, rfl⟩ := hos
  exact strText_stored hs

lemma strText_ended (hs : (0 : Byte) ∉ s) : strText (ended s) = .ok s := strText_stored hs

/-- Appending pieces one behind the other, if they all fit. -/
lemma catAll_fits {pieces : List (Cells × List Byte)} (hpieces : ∀ q ∈ pieces, strText q.1 = .ok q.2)
    (hos : NameIs os s) (hs : (0 : Byte) ∉ s)
    (hfit : (s ++ pieces.flatMap (·.2)).length ≤ 127) :
    ∃ os', pieces.foldlM (fun os q => catOs os q.1) os = .ok os'
      ∧ strText os' = .ok (s ++ pieces.flatMap (·.2)) := by
  induction pieces generalizing os s with
  | nil => exact ⟨os, rfl, by simpa using strText_nameIs hos hs⟩
  | cons q pieces ih =>
      rw [List.forall_mem_cons] at hpieces
      rw [List.flatMap_cons, ← List.append_assoc] at hfit ⊢
      obtain ⟨os₁, hcat, hos₁, hs₁⟩ := catOs_fits hos hs hpieces.1 (by
        rw [List.length_append, List.length_append] at hfit
        omega)
      rw [List.foldlM_cons, hcat, ok_bind]
      exact ih hpieces.2 hos₁ hs₁ hfit

/-- Somewhere among pieces that do not all fit the code writes too far. -/
lemma catAll_overflow {pieces : List (Cells × List Byte)}
    (hpieces : ∀ q ∈ pieces, strText q.1 = .ok q.2) (hos : NameIs os s) (hs : (0 : Byte) ∉ s)
    (hlong : 127 < (s ++ pieces.flatMap (·.2)).length) :
    pieces.foldlM (fun os q => catOs os q.1) os = .error .outOfBounds := by
  induction pieces generalizing os s with
  | nil =>
      obtain ⟨hlen, a, rfl⟩ := hos
      rw [List.flatMap_nil, List.append_nil] at hlong
      rw [List.length_append, stored_length, List.length_cons] at hlen
      omega
  | cons q pieces ih =>
      rw [List.forall_mem_cons] at hpieces
      rw [List.flatMap_cons, ← List.append_assoc] at hlong
      rw [List.foldlM_cons]
      by_cases hfit : s.length + q.2.length ≤ 127
      · obtain ⟨os₁, hcat, hos₁, hs₁⟩ := catOs_fits hos hs hpieces.1 hfit
        rw [hcat, ok_bind]
        exact ih hpieces.2 hos₁ hs₁ hlong
      · exact bind_of_error (catOs_overflow hos hs hpieces.1 (not_le.mp hfit)) _

/-- Two names that fit their arrays, and the name of the system. -/
lemma joinOs_iff (ha : strText a = .ok name) (hname : name.length ≤ 63) (hb : strText b = .ok version)
    (release : CStr) :
    (∃ os, joinOs a b release = .ok os
        ∧ strText os = .ok ((osName name version release.1).take 127))
      ↔ (osName name version release.1).length ≤ 127 := by
  obtain ⟨hname0, a', rfl⟩ := strText_eq_ok ha
  have hcopy := strcpy_stored (a := List.replicate 128 none) hname0 (b := a') (by simp; omega)
  have hos : NameIs (stored (name ++ [0]) ++ (List.replicate 128 none).drop (name.length + 1))
      name := by
    refine ⟨?_, (List.replicate 128 none).drop (name.length + 1), by simp⟩
    simp only [List.length_append, stored_length, List.length_drop, List.length_replicate,
      List.length_singleton]
    omega
  -- what is appended to the first name
  obtain ⟨pieces, hpieces⟩ : ∃ pieces : List (Cells × List Byte), pieces = [(ended (chars " "), chars " "),
      (b, version), (ended (chars " w/ Darwin "), chars " w/ Darwin "), (ended release.1, release.1)] :=
    ⟨_, rfl⟩
  have htexts : ∀ q ∈ pieces, strText q.1 = .ok q.2 := by
    simp only [hpieces, List.forall_mem_cons]
    exact ⟨strText_ended (by decide), hb, strText_ended (by decide), strText_ended release.2,
      List.forall_mem_nil _⟩
  have hjoin : joinOs (stored name ++ some 0 :: a') b release
      = pieces.foldlM (fun os q => catOs os q.1)
        (stored (name ++ [0]) ++ (List.replicate 128 none).drop (name.length + 1)) := by
    rw [joinOs, hcopy, ok_bind, hpieces]
    simp only [List.foldlM_cons, List.foldlM_nil, bind_pure]
  have hall : name ++ pieces.flatMap (·.2) = osName name version release.1 := by
    simp [hpieces, osName]
  rw [hjoin, ← hall]
  by_cases hfit : (name ++ pieces.flatMap (·.2)).length ≤ 127
  · rw [List.take_of_length_le hfit]
    exact iff_of_true (catAll_fits htexts hos hname0 hfit) hfit
  · rw [catAll_overflow htexts hos hname0 (not_le.mp hfit)]
    exact iff_of_false (by simp) hfit

end

/-! ### When the code finds the strings -/

/-- Where a `<string>` has no `</string>`, the bytes that are copied all the same spell the text that
stands in for the name. -/
def Spells {w : ℕ} (p : BitVec w) (buf : Cells) (fallback : List Byte) (ptr : ℕ) : Prop :=
  ∃ l, readN (copySize p (ptr + 8) none) (buf.drop (ptr + 8)) = .ok l
    ∧ copySize p (ptr + 8) none ≤ 64 ∧ l.takeWhile (· ≠ 0) = fallback

/-- The text between the tags fits its array with a terminator, and no `</string>` is missing (unless the
bytes that are copied then are right by chance). -/
structure FieldOk {w : ℕ} (p : BitVec w) (c key fallback : List Byte) : Prop where
  fits : ∀ s, plistText key (plistOf c) = some s → s.length ≤ 63
  closed : ∀ ptr, lookTag key (plistOf c) = .opened ptr none → Spells p (ended c) fallback ptr

section

variable {w : ℕ} {p : BitVec w} {c key fallback : List Byte} {ptr : ℕ} {ptrEnd : Option ℕ}

lemma plistOf_zero (c : List Byte) : (0 : Byte) ∉ plistOf c := fun h => by
  simpa using List.mem_takeWhile_imp h

/-- The buffer holds the text of the file and a zero byte. -/
lemma ended_plistOf (c : List Byte) : ∃ rest, ended c = stored (plistOf c) ++ some 0 :: rest := by
  obtain ⟨rest, hrest⟩ := stored_takeWhile (l := c ++ [0]) (by simp) []
  have hpad := takeWhile_padded c 1
  rw [List.replicate_one] at hpad
  rw [hpad, List.append_nil, stored_append] at hrest
  exact ⟨rest, hrest⟩

lemma findTag_ended (c key : List Byte) : findTag (ended c) key = .ok (lookTag key (plistOf c)) := by
  obtain ⟨rest, hrest⟩ := ended_plistOf c
  rw [hrest, findTag_text (plistOf_zero c)]

/-- Without a text the name is what stands in for it. -/
lemma plistField_none {t : List Byte} (h : plistText key t = none) : plistField key fallback t = fallback := by
  rw [plistField, h]
  rfl

lemma plistField_length_le (hfall : fallback.length ≤ 63) (t : List Byte) :
    (plistField key fallback t).length ≤ 63 := by
  rw [plistField]
  cases plistText key t with
  | none => exact hfall
  | some s => exact List.length_take_le _ _

/-- Without a key or a `<string>` there is nothing to copy. -/
lemma fieldOk_of_text (hkey : Apart openTag key)
    (hlook : ∀ ptr ptrEnd, lookTag key (plistOf c) ≠ .opened ptr ptrEnd) :
    plistText key (plistOf c) = none ∧ FieldOk p c key fallback := by
  have hnone : plistText key (plistOf c) = none := by
    rw [plistText_eq hkey]
    cases hl : lookTag key (plistOf c) with
    | noKey => rfl
    | noOpen => rfl
    | opened ptr ptrEnd => exact absurd hl (hlook ptr ptrEnd)
  refine ⟨hnone, fun s hs => ?_, fun ptr hptr => absurd hptr (hlook ptr none)⟩
  rw [hnone] at hs
  simp at hs

/-- What is copied is right just if the field is. -/
lemma copyText_iff (hw : w = 32 ∨ w = 64) (hc : c.length < 2 ^ 31) (hkey : Apart openTag key)
    (hfall : fallback.length ≤ 63) (hlook : lookTag key (plistOf c) = .opened ptr ptrEnd) :
    (∃ a, copyText p (ended c) ptr ptrEnd = .ok a
        ∧ strText a = .ok (plistField key fallback (plistOf c)))
      ↔ FieldOk p c key fallback := by
  obtain ⟨hptr, hend⟩ := lookTag_opened hlook
  have htext := plistText_eq hkey (plistOf c)
  rw [hlook] at htext
  cases ptrEnd with
  | none =>
      have hcopied := @copied_iff _ hfall ((ended c).drop (ptr + 8)) (copySize p (ptr + 8) none)
      rw [plistField_none htext]
      refine hcopied.trans ⟨fun hspells => ⟨fun s hs => ?_, fun ptr' hptr' => ?_⟩, fun hok =>
        hok.closed ptr hlook⟩
      · rw [htext] at hs
        simp [TagSearch.text] at hs
      · obtain ⟨rfl, -⟩ := TagSearch.opened.inj (hlook.symm.trans hptr')
        exact hspells
  | some e =>
      obtain ⟨hle, hlen⟩ := hend e rfl
      have htlen : (plistOf c).length ≤ c.length := (List.takeWhile_prefix _).length_le
      -- the bytes that are copied are those of the text
      obtain ⟨s, hs⟩ : ∃ s, s = ((plistOf c).drop (ptr + 8)).take (e - (ptr + 8)) := ⟨_, rfl⟩
      have hslen : s.length = e - (ptr + 8) := by
        rw [hs, List.length_take, List.length_drop]
        omega
      have hs0 : (0 : Byte) ∉ s := fun h =>
        plistOf_zero c (List.mem_of_mem_drop (List.mem_of_mem_take (hs ▸ h)))
      have hread : readN s.length ((ended c).drop (ptr + 8)) = .ok s := by
        obtain ⟨rest, hrest⟩ := ended_plistOf c
        have hsplit : (plistOf c).drop (ptr + 8)
            = s ++ ((plistOf c).drop (ptr + 8)).drop (e - (ptr + 8)) := by
          rw [hs, List.take_append_drop]
        rw [hrest, drop_stored _ hptr, hsplit, stored_append, List.append_assoc]
        exact readN_stored
      have htext' : plistText key (plistOf c) = some s := by
        rw [htext, TagSearch.text, hs]
      have hfield : plistField key fallback (plistOf c) = s.take 63 := by
        rw [plistField, htext']
        rfl
      have hcopied := @copied_iff (s.take 63) (List.length_take_le _ _) ((ended c).drop (ptr + 8))
        s.length
      rw [copyText, copySize_some hw p hle (by omega), ← hslen, hfield]
      refine hcopied.trans ⟨?_, fun hok => ⟨s, hread, ?_, ?_⟩⟩
      · rintro ⟨l, hl, -, htake⟩
        obtain rfl := Except.ok.inj (hl.symm.trans hread)
        rw [takeWhile_unended hs0] at htake
        refine ⟨fun s' hs' => ?_, fun ptr' hptr' => ?_⟩
        · obtain rfl := Option.some.inj (hs'.symm.trans htext')
          rw [htake]
          exact List.length_take_le _ _
        · simp [hlook] at hptr'
      · have := hok.fits s htext'
        omega
      · rw [takeWhile_unended hs0, List.take_of_length_le (hok.fits s htext')]

lemma strcpy_ended {a : Cells} (hs : (0 : Byte) ∉ key) (h : key.length < a.length) :
    ∃ a', CMem.strcpy a (ended key) = .ok a' ∧ strText a' = .ok key := by
  refine ⟨_, strcpy_stored hs h, ?_⟩
  rw [stored_append, List.append_assoc]
  exact strText_stored hs

lemma strText_unwritten (n : ℕ) (s : List Byte) : strText (List.replicate n none) ≠ .ok s := by
  intro h
  obtain ⟨-, a', ha⟩ := strText_eq_ok h
  have hmem : some (0 : Byte) ∈ List.replicate n none := ha ▸ by simp
  simp at hmem

/-- The first copy finds the name just if the field is right. -/
lemma gatherProductName_iff (hw : w = 32 ∨ w = 64) (hc : c.length < 2 ^ 31) :
    (∃ a, gatherProductName p (ended c) = .ok a
        ∧ strText a = .ok (plistField productNameKey macOsX (plistOf c)))
      ↔ FieldOk p c productNameKey macOsX := by
  have hnone : (∀ ptr ptrEnd, lookTag productNameKey (plistOf c) ≠ .opened ptr ptrEnd) →
      ((∃ a, CMem.strcpy (List.replicate 64 none) (ended macOsX) = .ok a
          ∧ strText a = .ok (plistField productNameKey macOsX (plistOf c)))
        ↔ FieldOk p c productNameKey macOsX) := by
    intro hlook
    obtain ⟨htext, hok⟩ := @fieldOk_of_text w p c productNameKey macOsX (by decide) hlook
    rw [plistField_none htext]
    exact iff_of_true (strcpy_ended (by decide) (by decide)) hok
  rw [gatherProductName, findTag_ended, ok_bind]
  cases hlook : lookTag productNameKey (plistOf c) with
  | noKey => exact hnone (by simp [hlook])
  | noOpen => exact hnone (by simp [hlook])
  | opened ptr ptrEnd => exact copyText_iff hw hc (by decide) (by decide) hlook

/-- A copy of the version that can be read leaves the name alone. -/
lemma gatherProductVersion_name {a a' b : Cells} {s : List Byte}
    (h : gatherProductVersion p (ended c) a = .ok (a', b)) (hb : strText b = .ok s) : a' = a := by
  rw [gatherProductVersion, findTag_ended, ok_bind] at h
  cases hlook : lookTag productVersionKey (plistOf c) with
  | noKey =>
      rw [hlook] at h
      obtain ⟨b', -, h⟩ := bind_eq_ok.mp h
      exact (Prod.ext_iff.mp (Except.ok.inj h)).1.symm
  | noOpen =>
      rw [hlook] at h
      obtain ⟨a'', -, h⟩ := bind_eq_ok.mp h
      obtain rfl := (Prod.ext_iff.mp (Except.ok.inj h)).2
      exact absurd hb (strText_unwritten 64 s)
  | opened ptr ptrEnd =>
      rw [hlook] at h
      obtain ⟨b', -, h⟩ := bind_eq_ok.mp h
      exact (Prod.ext_iff.mp (Except.ok.inj h)).1.symm

/-- The second copy finds the version just if the field is right and a key is followed by a `<string>`. -/
lemma gatherProductVersion_iff (hw : w = 32 ∨ w = 64) (hc : c.length < 2 ^ 31) (a : Cells) :
    (∃ b, gatherProductVersion p (ended c) a = .ok (a, b)
        ∧ strText b = .ok (plistField productVersionKey unknownVersion (plistOf c)))
      ↔ FieldOk p c productVersionKey unknownVersion
        ∧ lookTag productVersionKey (plistOf c) ≠ .noOpen := by
  rw [gatherProductVersion, findTag_ended, ok_bind]
  cases hlook : lookTag productVersionKey (plistOf c) with
  | noKey =>
      obtain ⟨htext, hok⟩ := @fieldOk_of_text w p c productVersionKey unknownVersion
        (by decide) (by simp [hlook])
      obtain ⟨b, hb, hread⟩ := @strcpy_ended unknownVersion (List.replicate 64 none)
        (by decide) (by decide)
      rw [plistField_none htext]
      exact iff_of_true ⟨b, bind_of_ok hb _, hread⟩ ⟨hok, by simp⟩
  | noOpen =>
      refine iff_of_false ?_ fun h => h.2 rfl
      rintro ⟨b, hb, hread⟩
      obtain ⟨a', -, hb⟩ := bind_eq_ok.mp hb
      obtain rfl := (Prod.ext_iff.mp (Except.ok.inj hb)).2
      exact strText_unwritten 64 _ hread
  | opened ptr ptrEnd =>
      have hcopy := copyText_iff (p := p) hw hc (by decide) (by decide : unknownVersion.length ≤ 63) hlook
      simp only [ne_eq, reduceCtorEq, not_false_eq_true, and_true]
      rw [← hcopy]
      constructor
      · rintro ⟨b, hb, hread⟩
        obtain ⟨b', hb', hb⟩ := bind_eq_ok.mp hb
        obtain rfl := (Prod.ext_iff.mp (Except.ok.inj hb)).2
        exact ⟨b', hb', hread⟩
      · rintro ⟨b, hb, hread⟩
        exact ⟨b, bind_of_ok hb _, hread⟩

/-- The code reads both names and puts the name of the system together just if both fields are right, no
key of the version is without a `<string>` behind it, and the name of the system fits its 128 bytes. -/
theorem osxVersion_iff (hw : w = 32 ∨ w = 64) (p : BitVec w) (hc : c.length < 2 ^ 31) (release : CStr) :
    (∃ v, osxVersion p (ended c) release = .ok v
        ∧ strText v.productName = .ok (plistField productNameKey macOsX (plistOf c))
        ∧ strText v.productVersion = .ok (plistField productVersionKey unknownVersion (plistOf c))
        ∧ strText v.os = .ok ((osName (plistField productNameKey macOsX (plistOf c))
          (plistField productVersionKey unknownVersion (plistOf c)) release.1).take 127))
      ↔ FieldOk p c productNameKey macOsX ∧ FieldOk p c productVersionKey unknownVersion
        ∧ lookTag productVersionKey (plistOf c) ≠ .noOpen
        ∧ (osName (plistField productNameKey macOsX (plistOf c))
          (plistField productVersionKey unknownVersion (plistOf c)) release.1).length ≤ 127 := by
  constructor
  · rintro ⟨v, hv, hname, hversion, hos⟩
    obtain ⟨a, ha, hv⟩ := bind_eq_ok.mp hv
    obtain ⟨⟨a', b⟩, hb, hv⟩ := bind_eq_ok.mp hv
    obtain ⟨os, hjoin, hv⟩ := bind_eq_ok.mp hv
    obtain rfl := Except.ok.inj hv
    dsimp only at hname hversion hos hjoin
    obtain rfl := gatherProductVersion_name hb hversion
    have hnameOk := (gatherProductName_iff hw hc).mp ⟨a', ha, hname⟩
    have hversionOk := (gatherProductVersion_iff hw hc a').mp ⟨b, hb, hversion⟩
    have hfits := (joinOs_iff hname (plistField_length_le (by decide) _) hversion release).mp
      ⟨os, hjoin, hos⟩
    exact ⟨hnameOk, hversionOk.1, hversionOk.2, hfits⟩
  · rintro ⟨hnameOk, hversionOk, hopen, hfits⟩
    obtain ⟨a, ha, hname⟩ := (gatherProductName_iff hw hc).mpr hnameOk
    obtain ⟨b, hb, hversion⟩ := (gatherProductVersion_iff hw hc a).mpr ⟨hversionOk, hopen⟩
    obtain ⟨os, hjoin, hos⟩ :=
      (joinOs_iff hname (plistField_length_le (by decide) _) hversion release).mpr hfits
    have hok : osxVersion p (ended c) release = .ok ⟨a, b, os⟩ := by
      rw [osxVersion, ha, ok_bind, hb, ok_bind]
      exact bind_of_ok hjoin _
    exact ⟨_, hok, hname, hversion, hos⟩

end

/-- The version of a kernel. -/
def darwin : CStr := ⟨chars "9.8.0", by decide⟩

/-- A file with both names. -/
def leopard : List Byte :=
  chars "<key>ProductName</key><string>Mac OS X</string>"
    ++ chars "<key>ProductVersion</key><string>10.5.8</string>"

/-- A name between both tags is right if there is room for it. -/
lemma FieldOk.of_closed {w : ℕ} {p : BitVec w} {c key fallback s : List Byte} {ptr ptrEnd : ℕ}
    (htext : plistText key (plistOf c) = some s) (hlen : s.length ≤ 63)
    (hlook : lookTag key (plistOf c) = .opened ptr (some ptrEnd)) : FieldOk p c key fallback := by
  refine ⟨fun s' hs' => ?_, fun ptr' hptr' => ?_⟩
  · rwa [← Option.some.inj (htext.symm.trans hs')]
  · simp [hlook] at hptr'

lemma leopard_name : plistText productNameKey (plistOf leopard) = some (chars "Mac OS X") := by
  decide +kernel

lemma leopard_version : plistText productVersionKey (plistOf leopard) = some (chars "10.5.8") := by
  decide +kernel

lemma leopard_looks : lookTag productNameKey (plistOf leopard) = .opened 22 (some 38)
    ∧ lookTag productVersionKey (plistOf leopard) = .opened 72 (some 86) := by
  decide +kernel

/-- Both names are found, and put together with the version of the kernel. -/
theorem osxVersion_iff_leopard :
    ∃ v, osxVersion (0x1000 : BitVec 32) (ended leopard) darwin = .ok v
      ∧ strText v.productName = .ok (chars "Mac OS X")
      ∧ strText v.productVersion = .ok (chars "10.5.8")
      ∧ strText v.os = .ok (chars "Mac OS X 10.5.8 w/ Darwin 9.8.0") := by
  have hname : FieldOk (0x1000 : BitVec 32) leopard productNameKey macOsX :=
    .of_closed leopard_name (by decide) leopard_looks.1
  have hversion : FieldOk (0x1000 : BitVec 32) leopard productVersionKey unknownVersion :=
    .of_closed leopard_version (by decide) leopard_looks.2
  have hopen : lookTag productVersionKey (plistOf leopard) ≠ .noOpen := by
    simp [leopard_looks.2]
  have hfieldName : plistField productNameKey macOsX (plistOf leopard) = chars "Mac OS X" := by
    rw [plistField, leopard_name]
    rfl
  have hfieldVersion :
      plistField productVersionKey unknownVersion (plistOf leopard) = chars "10.5.8" := by
    rw [plistField, leopard_version]
    rfl
  have hiff := osxVersion_iff (.inl rfl) (0x1000 : BitVec 32) (c := leopard) (by decide) darwin
  rw [hfieldName, hfieldVersion] at hiff
  exact hiff.mpr ⟨hname, hversion, hopen, by decide⟩

/-- A file that ends in the name. -/
def cutPlist : List Byte := chars "<key>ProductName</key><string>Mac OS X"

lemma cutPlist_overflows : gatherProductName (0x1000 : BitVec 64) (ended cutPlist)
    = .error .outOfBounds := by
  decide

/-- Nobody notices that the end of this name is missing, and the rest of the address space is copied. -/
theorem cutPlist_halts :
    ¬ ∃ v, osxVersion (0x1000 : BitVec 64) (ended cutPlist) darwin = .ok v
        ∧ strText v.productName = .ok (plistField productNameKey macOsX (plistOf cutPlist))
        ∧ strText v.productVersion
          = .ok (plistField productVersionKey unknownVersion (plistOf cutPlist))
        ∧ strText v.os = .ok ((osName (plistField productNameKey macOsX (plistOf cutPlist))
          (plistField productVersionKey unknownVersion (plistOf cutPlist)) darwin.1).take 127) := by
  rintro ⟨v, hv, -⟩
  rw [osxVersion, cutPlist_overflows, error_bind] at hv
  simp at hv

end EverythingNet
