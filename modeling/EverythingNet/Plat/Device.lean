import Mathlib.Data.List.TakeWhile
import Mathlib.Tactic
import EverythingNet.Lib.CString

/-!
The name of the device on x86 Linux: `plat/linux/info_device.c`.

* `gatherDeviceInfo`: the vendor (`gatherVendor`), and the loop over `dmiPaths` for the model
  (`tryGetModel`). `deviceName`: what the name is to be, for the files that a system has.
* `ModelFound`: among the model files there is one whose text the loop accepts, and it passes over
  those before. `isGarbageName_stored` and `isGarbageName_unread` are the filter on a terminated text
  and on one that is not; `tryGetModel_accepts`, `tryGetModel_garbage` and `tryGetModel_halts` are the
  three ways of a round.
* `gatherDeviceInfo_iff`: the device gets its name just if the vendor fits it and a model is found.
  Without a model the loop leaves the table (`noModel_halts`).
-/

namespace EverythingNet

open CMem

/-! ### The code -/

/-- What comes of opening a file and reading it. -/
inductive FileOutcome where
  | closed
  | readError
  | content (c : List Byte)
  deriving DecidableEq

/-- The file with the vendor. -/
def sysVendor : String := "/sys/devices/virtual/dmi/id/sys_vendor"

/-- `dmiPaths`, with the `NULL` that ends it. -/
def dmiPaths : List (Option String) :=
  [some "/sys/devices/virtual/dmi/id/product_version",
   some "/sys/devices/virtual/dmi/id/product_name",
   some "/sys/devices/virtual/dmi/id/product_family",
   none]

/-- The names that `isGarbageName` compares with, in its order. -/
def garbageNames : List (List Byte) :=
  [chars "To be filled by OEM",
   chars "To be filled by O.E.M.",
   chars "To be filled by O.E.M",
   chars "System Product Name",
   chars "Default string",
   chars "Default String",
   chars "",
   chars " "]

/-- Whether `toCheck` is one of the names. -/
def isOneOf (toCheck : Cells) : List (List Byte) → Except Halt Bool
  | [] => .ok false
  | name :: names => do
    if ← strcmp toCheck name then return true
    else isOneOf toCheck names

def isGarbageName (toCheck : Cells) : Except Halt Bool := isOneOf toCheck garbageNames

/-- A line end that was read last is removed. -/
def removeNewline (a : Cells) (ret : ℕ) : Except Halt Cells :=
  if ret = 0 then .ok a
  else do
    let last ← index a (ret - 1)
    if last = 0x0D ∨ last = 0x0A then write a (ret - 1) [0] else return a

/-- The vendor, if there is one, with the space behind it. -/
def gatherVendor (vendor : FileOutcome) (name : Cells) : Except Halt Cells :=
  match vendor with
  | .closed => .ok name
  | .readError => write name 0 (List.replicate 128 0)
  | .content c => do
    let ret := min c.length 128
    let name ← write name 0 (c.take ret)
    let name ← removeNewline name ret
    let name ← write name ret [0]
    strcat name (chars " ")

/-- `tryNextPath`. -/
def tryNextPath (dmiPathIdx : ℕ) (scratchBuf : Cells) :
    Except Halt ((ℕ × Cells) ⊕ Cells) := do
  match dmiPaths[dmiPathIdx + 1]? with
  | none => .error .outOfBounds
  | some none =>
    let scratchBuf ← CMem.strcpy scratchBuf (stored (chars "Unknown Model") ++ [some 0])
    return .inl (dmiPathIdx + 1, scratchBuf)
  | some (some _) => return .inl (dmiPathIdx + 1, scratchBuf)

/-- The sanity check of what was read, and what follows it. -/
def checkModel (name : Cells) (curLen dmiPathIdx ret : ℕ) (scratchBuf : Cells) :
    Except Halt ((ℕ × Cells) ⊕ Cells) := do
  if ← isGarbageName scratchBuf then tryNextPath dmiPathIdx scratchBuf
  else
    let scratchBuf ← write scratchBuf ret [0]
    let name ← strncat name scratchBuf (128 - curLen)
    return .inr name

/-- `tryGetModel`, up to where it is gone to again. What `scratchBuf` still holds behind the bytes
that are read counts as never written: no part of the file was read there. -/
def tryGetModel (files : String → FileOutcome) (name : Cells) (curLen : ℕ) :
    ℕ × Cells → Except Halt ((ℕ × Cells) ⊕ Cells)
  | (dmiPathIdx, scratchBuf) =>
    match dmiPaths[dmiPathIdx]? with
    | none => .error .outOfBounds
    -- a path that is `NULL`
    | some none => .error .nullPointer
    | some (some path) =>
      match files path with
      | .closed => tryNextPath dmiPathIdx scratchBuf
      | .readError => tryNextPath dmiPathIdx scratchBuf
      | .content c => do
        let ret := min c.length (128 - curLen)
        let scratchBuf ← write (List.replicate 256 none) 0 (c.take ret)
        let scratchBuf ← removeNewline scratchBuf ret
        checkModel name curLen dmiPathIdx ret scratchBuf

/-- What `malloc` gives for the name, if there is memory. -/
def nameBuf (memory : Bool) : Option Cells := if memory then some (List.replicate 128 none) else none

/-- `LINUX_GatherDeviceInfo`: the result and the name. `name` is what `malloc` gives for it. -/
def gatherDeviceInfo (files : String → FileOutcome) (name : Option Cells) (fuel : ℕ) :
    Except Halt (ℤ × Option Cells) :=
  match name with
  -- `-ENOMEM`
  | none => .ok (-12, none)
  | some name => do
    let name ← write name 0 (List.replicate 128 0)
    let name ← gatherVendor (files sysVendor) name
    let curLen ← CMem.strlen name
    let name ← iter (tryGetModel files name curLen) fuel (0, List.replicate 256 none)
    return (0, some name)

/-! ### What the name is to be -/

/-- The last byte of a text is a line end. -/
def EndsLine (c : List Byte) : Prop := c.getLast? = some 0x0D ∨ c.getLast? = some 0x0A

instance (c : List Byte) : Decidable (EndsLine c) := inferInstanceAs (Decidable (_ ∨ _))

/-- The text in a file: without a line end at its end, and up to a zero byte. -/
def fileText (c : List Byte) : List Byte :=
  (if EndsLine c then c.dropLast else c).takeWhile (· ≠ 0)

/-- The vendor, if it was read, and a space. -/
def vendorName : FileOutcome → List Byte
  | .closed => []
  | .readError => []
  | .content c => fileText c ++ chars " "

/-- The first model that is not garbage. -/
def modelName : List FileOutcome → List Byte
  | [] => chars "Unknown Model"
  | .closed :: os => modelName os
  | .readError :: os => modelName os
  | .content c :: os => if fileText c ∈ garbageNames then modelName os else fileText c

/-- What comes of the model files. -/
def modelFiles (files : String → FileOutcome) : List FileOutcome :=
  (dmiPaths.filterMap id).map files

/-- The name of the device, as far as there is room for it. -/
def deviceName (files : String → FileOutcome) : List Byte :=
  (vendorName (files sysVendor) ++ modelName (modelFiles files)).take 127

/-- The string `s` is in the 128 bytes of the name. -/
def NameIs (name : Cells) (s : List Byte) : Prop :=
  name.length = 128 ∧ ∃ a, name = stored s ++ some 0 :: a

/-! ### Where the code gives it -/

/-- The vendor and the space fit the name. -/
def VendorFits : FileOutcome → Prop
  | .closed => True
  | .readError => True
  | .content c => c.length < 128 ∧ (fileText c).length < 127

/-- The bytes that were read of a file have an end: a zero byte or a line end. -/
def Terminated (s : List Byte) : Prop := 0 ∈ s ∨ EndsLine s

instance (s : List Byte) : Decidable (Terminated s) := inferInstanceAs (Decidable (_ ∨ _))

/-- With room for `m` bytes the name in a file is accepted: it is not garbage, and if it has no end
then there is room for one, and it cannot be taken for the start of garbage. -/
def Accepted (m : ℕ) (c : List Byte) : Prop :=
  if Terminated (c.take m) then fileText (c.take m) ∉ garbageNames
  else c.length < m ∧ ∀ g ∈ garbageNames, ¬ c <+: g

/-- With room for `m` bytes the model in a file is passed over, and it is garbage: it has an end, and
no more than that was read of it. -/
def PassedOver (m : ℕ) (c : List Byte) : Prop :=
  Terminated (c.take m) ∧ fileText (c.take m) ∈ garbageNames ∧ (c.length ≤ m ∨ 0 ∈ c.take m)

/-- Among the files there is a model that is accepted, and those before it are passed over. -/
def ModelFound (m : ℕ) : List FileOutcome → Prop
  | [] => False
  | .closed :: os => ModelFound m os
  | .readError :: os => ModelFound m os
  | .content c :: os => Accepted m c ∨ (PassedOver m c ∧ ModelFound m os)

section

variable {c s g l : List Byte} {a name : Cells} {m ret : ℕ}

/-! ### Texts -/

lemma fileText_zero (c : List Byte) : (0 : Byte) ∉ fileText c := fun h => by
  simpa using List.mem_takeWhile_imp h

/-- What the removal of a line end makes of a text. -/
def nulled (c : List Byte) : List Byte := if EndsLine c then c.dropLast ++ [0] else c

lemma endsLine_cases (h : EndsLine c) : ∃ s b, c = s ++ [b] ∧ (b = 0x0D ∨ b = 0x0A) := by
  rcases h with h | h
  · obtain ⟨s, rfl⟩ := List.getLast?_eq_some_iff.mp h
    exact ⟨s, 0x0D, rfl, Or.inl rfl⟩
  · obtain ⟨s, rfl⟩ := List.getLast?_eq_some_iff.mp h
    exact ⟨s, 0x0A, rfl, Or.inr rfl⟩

lemma nulled_length (c : List Byte) : (nulled c).length = c.length := by
  rw [nulled]
  split_ifs with h
  · obtain ⟨s, b, rfl, -⟩ := endsLine_cases h
    rw [List.dropLast_concat, List.length_append, List.length_append, List.length_singleton,
      List.length_singleton]
  · rfl

lemma nulled_takeWhile (c : List Byte) : (nulled c).takeWhile (· ≠ 0) = fileText c := by
  rw [nulled, fileText]
  split_ifs with h
  · by_cases h0 : (0 : Byte) ∈ c.dropLast
    · obtain ⟨s, t, hst, hs⟩ := List.eq_append_cons_of_mem h0
      rw [hst, List.append_assoc, List.cons_append, takeWhile_ended hs, takeWhile_ended hs]
    · rw [takeWhile_ended h0, takeWhile_unended h0]
  · rfl

lemma nulled_zero : (0 : Byte) ∈ nulled c ↔ Terminated c := by
  rw [nulled, Terminated]
  split_ifs with h
  · exact ⟨fun _ => Or.inr h, fun _ => by simp⟩
  · rw [or_iff_left h]

lemma removeNewline_eq (c : List Byte) (a : Cells) :
    removeNewline (stored c ++ a) c.length = .ok (stored (nulled c) ++ a) := by
  obtain rfl | ⟨s, b, rfl⟩ := List.eq_nil_or_concat c
  · rfl
  · rw [List.concat_eq_append]
    have hlen : (s ++ [b]).length = s.length + 1 := by
      rw [List.length_append, List.length_singleton]
    have hcells : stored (s ++ [b]) ++ a = stored s ++ some b :: a := by
      rw [stored_append, List.append_assoc]
      rfl
    have hlast : index (stored (s ++ [b]) ++ a) (((s ++ [b]).length : ℤ) - 1) = .ok b := by
      have hpos : ((s ++ [b]).length : ℤ) - 1 = s.length := by
        rw [hlen]
        omega
      rw [hpos, hcells, index_stored]
    have hends : EndsLine (s ++ [b]) ↔ b = 0x0D ∨ b = 0x0A := by
      rw [EndsLine, List.getLast?_concat]
      simp
    rw [removeNewline, if_neg (by omega), hlast, ok_bind, nulled]
    by_cases hb : b = 0x0D ∨ b = 0x0A
    · rw [if_pos hb, if_pos (hends.mpr hb), List.dropLast_concat, hlen, Nat.add_sub_cancel, hcells]
      exact write_stored s [0] (by simp)
    · rw [if_neg hb, if_neg (fun h => hb (hends.mp h))]
      rfl

/-! ### The filter -/

lemma garbageNames_zero : ∀ g ∈ garbageNames, (0 : Byte) ∉ g := by decide

lemma isOneOf_stored (hs : (0 : Byte) ∉ s) {names : List (List Byte)}
    (hnames : ∀ g ∈ names, (0 : Byte) ∉ g) :
    isOneOf (stored s ++ some 0 :: a) names = .ok (decide (s ∈ names)) := by
  induction names with
  | nil => simp [isOneOf]
  | cons g names ih =>
      rw [List.forall_mem_cons] at hnames
      rw [isOneOf, strcmp_stored hs hnames.1, ok_bind]
      by_cases h : s = g
      · simp [h]
      · rw [decide_eq_false h, ih hnames.2]
        simp [h]

/-- A terminated text is taken for garbage just if it is. -/
lemma isGarbageName_stored (hs : (0 : Byte) ∉ s) :
    isGarbageName (stored s ++ some 0 :: a) = .ok (decide (s ∈ garbageNames)) :=
  isOneOf_stored hs garbageNames_zero

lemma isOneOf_unread (hs : (0 : Byte) ∉ s) (ha : ∃ h, fetch a = .error h)
    (names : List (List Byte)) :
    ((∃ g ∈ names, s <+: g) → ∃ h, isOneOf (stored s ++ a) names = .error h)
      ∧ ((∀ g ∈ names, ¬ s <+: g) → isOneOf (stored s ++ a) names = .ok false) := by
  induction names with
  | nil => exact ⟨fun h => by simp at h, fun _ => rfl⟩
  | cons g names ih =>
      obtain ⟨hpre, hnot⟩ := strcmp_unread (t := g) hs ha
      rw [List.exists_mem_cons_iff, List.forall_mem_cons, isOneOf]
      by_cases h : s <+: g
      · obtain ⟨e, he⟩ := hpre h
        rw [he]
        exact ⟨fun _ => ⟨e, rfl⟩, fun hall => absurd h hall.1⟩
      · rw [hnot h, or_iff_right h, and_iff_right h]
        exact ih

/-- A text that is not terminated is not garbage if none starts like it; else the filter reads on
behind it. -/
lemma isGarbageName_unread (hs : (0 : Byte) ∉ s) (ha : ∃ h, fetch a = .error h) :
    ((∃ g ∈ garbageNames, s <+: g) → ∃ h, isGarbageName (stored s ++ a) = .error h)
      ∧ ((∀ g ∈ garbageNames, ¬ s <+: g) → isGarbageName (stored s ++ a) = .ok false) :=
  isOneOf_unread hs ha garbageNames

/-- A text that gets a terminator behind its last byte. -/
lemma closed_text (c : List Byte) (a : Cells) :
    ∃ b, stored (nulled c ++ [0]) ++ a = stored (fileText c) ++ some 0 :: b
      ∧ (fileText c).length + b.length = c.length + a.length := by
  obtain ⟨b, hb⟩ := stored_takeWhile (l := nulled c ++ [0]) (by simp) a
  have htake : (nulled c ++ [0]).takeWhile (· ≠ 0) = fileText c := by
    rw [← nulled_takeWhile]
    by_cases h0 : (0 : Byte) ∈ nulled c
    · obtain ⟨s, t, hst, hs⟩ := List.eq_append_cons_of_mem h0
      rw [hst, List.append_assoc, List.cons_append, takeWhile_ended hs, takeWhile_ended hs]
    · rw [takeWhile_ended h0, takeWhile_unended h0]
  rw [htake] at hb
  refine ⟨b, hb, ?_⟩
  have hlen := congrArg List.length hb
  simp only [List.length_append, stored_length, nulled_length, List.length_cons,
    List.length_nil] at hlen
  omega

/-! ### The vendor -/

/-- A vendor that fits with its terminator is in the name, and gets a space. -/
lemma gatherVendor_text (h : c.length < 128) :
    ∃ b, gatherVendor (.content c) (stored (List.replicate 128 0))
        = strcat (stored (fileText c) ++ some 0 :: b) (chars " ")
      ∧ (fileText c).length + b.length = 127 := by
  have hread := write_zero (a := stored (List.replicate 128 0)) c (by simp; omega)
  have hclose := write_stored (a := (stored (List.replicate 128 0)).drop c.length) (nulled c) [0]
    (by simp; omega)
  obtain ⟨b, hb, hsize⟩ := closed_text c
    (((stored (List.replicate 128 0)).drop c.length).drop [(0 : Byte)].length)
  rw [nulled_length, hb] at hclose
  rw [List.length_drop, List.length_drop, stored_length, List.length_replicate,
    List.length_singleton] at hsize
  refine ⟨b, ?_, by omega⟩
  rw [gatherVendor, min_eq_left (by omega), List.take_length, hread, ok_bind, removeNewline_eq,
    ok_bind, hclose, ok_bind]

/-- The name when the vendor is in it. -/
lemma gatherVendor_fits {o : FileOutcome} (h : VendorFits o) :
    ∃ a, gatherVendor o (stored (List.replicate 128 0)) = .ok (stored (vendorName o) ++ some 0 :: a)
      ∧ (vendorName o).length + a.length = 127 := by
  have hzeros : stored (List.replicate 128 0)
      = stored [] ++ some 0 :: stored (List.replicate 127 0) := rfl
  cases o with
  | closed => exact ⟨_, congrArg _ hzeros, by simp [vendorName]⟩
  | readError =>
      have hmemset := write_zero (a := stored (List.replicate 128 0)) (List.replicate 128 0) (by simp)
      rw [← stored_length (List.replicate 128 0), List.drop_length, List.append_nil] at hmemset
      exact ⟨_, hmemset.trans (congrArg _ hzeros), by simp [vendorName]⟩
  | content c =>
      have hspace : (chars " ").length = 1 := by decide
      obtain ⟨b, htext, hsize⟩ := gatherVendor_text h.1
      have hlt := h.2
      have hcat := strcat_stored (a := b) (u := chars " ") (fileText_zero c) (by omega)
      refine ⟨b.drop (chars " ").length, ?_, ?_⟩
      · rw [htext, hcat, vendorName, ← List.append_assoc, stored_append _ [0], List.append_assoc]
        rfl
      · rw [vendorName, List.length_append, List.length_drop]
        omega

/-- There is no room for the vendor, or none for the space behind it. -/
lemma gatherVendor_halt {o : FileOutcome} (h : ¬ VendorFits o) :
    gatherVendor o (stored (List.replicate 128 0)) = .error .outOfBounds := by
  cases o with
  | closed => exact absurd trivial h
  | readError => exact absurd trivial h
  | content c =>
      by_cases hlen : c.length < 128
      · have hspace : (chars " ").length = 1 := by decide
        have hge : ¬ (fileText c).length < 127 := fun hlt => h ⟨hlen, hlt⟩
        obtain ⟨b, htext, hsize⟩ := gatherVendor_text hlen
        rw [htext, strcat_overflow (fileText_zero c) (by omega)]
      · -- the terminator does not fit
        have htake : (c.take 128).length = 128 := by
          rw [List.length_take, min_eq_left (by omega)]
        have hread := write_zero (a := stored (List.replicate 128 0)) (c.take 128) (by simp)
        have hnone : (stored (List.replicate 128 0)).drop (c.take 128).length = [] := by
          rw [htake]
          rfl
        have hremove := removeNewline_eq (c.take 128) []
        have hclose : write (stored (nulled (c.take 128)) ++ []) 128 [0] = .error .outOfBounds := by
          refine write_eq_error ?_
          rw [List.append_nil, stored_length, nulled_length, htake, List.length_singleton]
          omega
        rw [htake] at hremove
        rw [gatherVendor, min_eq_right (by omega), hread, ok_bind, hnone, hremove, ok_bind, hclose,
          error_bind]

/-! ### A model -/

lemma fileText_append_zero (hs : (0 : Byte) ∉ s) (l : List Byte) : fileText (s ++ 0 :: l) = s := by
  rw [fileText]
  split_ifs with h
  · obtain rfl | hne := eq_or_ne l []
    · rw [EndsLine, List.getLast?_concat] at h
      simp at h
    · have hdrop : (s ++ 0 :: l).dropLast = s ++ 0 :: l.dropLast := by
        rw [List.dropLast_append_of_ne_nil (List.cons_ne_nil 0 l), List.dropLast_cons_of_ne_nil hne]
      rw [hdrop, takeWhile_ended hs]
  · exact takeWhile_ended hs l

/-- A file with a zero byte among those that are read says what was read. -/
lemma fileText_take_zero (h : (0 : Byte) ∈ c.take m) : fileText (c.take m) = fileText c := by
  obtain ⟨s, t, hst, hs⟩ := List.eq_append_cons_of_mem h
  have hc : c = s ++ 0 :: (t ++ c.drop m) := by
    calc c = c.take m ++ c.drop m := (List.take_append_drop m c).symm
      _ = s ++ 0 :: (t ++ c.drop m) := by rw [hst, List.append_assoc, List.cons_append]
  rw [hst, fileText_append_zero hs, hc, fileText_append_zero hs]

/-- A file of which was read up to the end of a line says more. -/
lemma fileText_take_line (hlen : m < c.length) (h0 : (0 : Byte) ∉ c.take m)
    (hend : EndsLine (c.take m)) :
    (fileText (c.take m)).length + 1 = m
      ∧ ∃ b l, (b = 0x0D ∨ b = 0x0A) ∧ fileText c = fileText (c.take m) ++ b :: l := by
  obtain ⟨s, b, hs, hb⟩ := endsLine_cases hend
  have hs0 : (0 : Byte) ∉ s := fun h => h0 (by rw [hs]; exact List.mem_append_left _ h)
  have hb0 : b ≠ 0 := by rcases hb with rfl | rfl <;> decide
  have hread : fileText (c.take m) = s := by
    rw [fileText, if_pos hend, hs, List.dropLast_concat, takeWhile_unended hs0]
  have hc : c = s ++ b :: c.drop m := by
    calc c = c.take m ++ c.drop m := (List.take_append_drop m c).symm
      _ = s ++ b :: c.drop m := by rw [hs, List.append_assoc, List.singleton_append]
  have hne : c.drop m ≠ [] := by
    rw [Ne, List.drop_eq_nil_iff]
    omega
  have hall : ∀ x ∈ s, (x ≠ 0 : Bool) = true := fun x hx => by
    simpa using fun h : x = 0 => hs0 (h ▸ hx)
  have htext : ∀ l, (s ++ b :: l).takeWhile (· ≠ 0) = s ++ b :: l.takeWhile (· ≠ 0) := fun l => by
    rw [List.takeWhile_append_of_pos hall, List.takeWhile_cons_of_pos (by simpa using hb0)]
  rw [hread]
  constructor
  · have hlen' := congrArg List.length hs
    rw [List.length_take, min_eq_left (by omega), List.length_append, List.length_singleton] at hlen'
    exact hlen'.symm
  · rw [fileText]
    split_ifs
    · have hdrop : c.dropLast = s ++ b :: (c.drop m).dropLast := by
        conv_lhs => rw [hc]
        rw [List.dropLast_append_of_ne_nil (List.cons_ne_nil b _), List.dropLast_cons_of_ne_nil hne]
      exact ⟨b, _, hb, by rw [hdrop, htext]⟩
    · refine ⟨b, (c.drop m).takeWhile (· ≠ 0), hb, ?_⟩
      conv_lhs => rw [hc]
      exact htext _

variable {files : String → FileOutcome} {path : String} {i curLen : ℕ} {scratch : Cells}
  {p : List Byte}

/-- The loop at a model file, with what is read of it. -/
lemma tryGetModel_read (hpath : dmiPaths[i]? = some (some path))
    (hfile : files path = .content c) (hm : m = 128 - curLen) :
    tryGetModel files name curLen (i, scratch)
      = checkModel name curLen i (c.take m).length
        (stored (nulled (c.take m)) ++ List.replicate (256 - (c.take m).length) none) := by
  have hret : min c.length (128 - curLen) = (c.take m).length := by
    rw [List.length_take, hm, min_comm]
  have htake : c.take (min c.length (128 - curLen)) = c.take m := by
    rw [hret, List.length_take]
    rcases Nat.le_total m c.length with h | h
    · rw [min_eq_left h]
    · rw [min_eq_right h, List.take_length, List.take_of_length_le h]
  have hread := write_zero (a := List.replicate 256 none) (c.take m)
    (by rw [List.length_take, List.length_replicate]; omega)
  rw [List.drop_replicate] at hread
  rw [tryGetModel, hpath]
  dsimp only
  rw [hfile]
  dsimp only
  rw [htake, hread, ok_bind, hret, removeNewline_eq, ok_bind]

/-- What is read of a file with an end is a string. -/
lemma read_terminated (h : Terminated s) (a : Cells) :
    ∃ b, stored (nulled s) ++ a = stored (fileText s) ++ some 0 :: b := by
  rw [← nulled_takeWhile]
  exact stored_takeWhile (nulled_zero.mpr h) a

/-- What is read of a file without one stays as it is. -/
lemma read_unterminated (h : ¬ Terminated s) :
    (0 : Byte) ∉ s ∧ nulled s = s ∧ fileText s = s := by
  rw [Terminated, not_or] at h
  obtain ⟨h0, hend⟩ := h
  exact ⟨h0, by rw [nulled, if_neg hend], by rw [fileText, if_neg hend, takeWhile_unended h0]⟩

lemma fileText_length_le (s : List Byte) : (fileText s).length ≤ s.length := by
  rw [← nulled_takeWhile, ← nulled_length s]
  exact List.Sublist.length_le (List.takeWhile_sublist _)

/-- A text with an end is shorter than what was read. -/
lemma fileText_length_lt (h : Terminated s) : (fileText s).length < s.length := by
  obtain ⟨b, hb⟩ := read_terminated h []
  have hlen := congrArg List.length hb
  simp only [List.length_append, stored_length, nulled_length, List.length_cons,
    List.length_nil] at hlen
  omega

/-- A file in which the loop finds garbage. -/
lemma tryGetModel_garbage (hpath : dmiPaths[i]? = some (some path))
    (hfile : files path = .content c) (hm : m = 128 - curLen) (hend : Terminated (c.take m))
    (hgarbage : fileText (c.take m) ∈ garbageNames) :
    ∃ scratch', scratch'.length = 256 ∧
      tryGetModel files name curLen (i, scratch) = tryNextPath i scratch' := by
  refine ⟨stored (nulled (c.take m)) ++ List.replicate (256 - (c.take m).length) none, ?_, ?_⟩
  · rw [List.length_append, stored_length, nulled_length, List.length_replicate, List.length_take]
    omega
  · obtain ⟨b, hb⟩ := read_terminated hend (List.replicate (256 - (c.take m).length) none)
    rw [tryGetModel_read hpath hfile hm, checkModel, hb, isGarbageName_stored (fileText_zero _),
      decide_eq_true hgarbage, ok_bind, if_pos rfl]

variable (scratch) in
/-- A file whose text is appended to the name. -/
lemma tryGetModel_accepts (hpath : dmiPaths[i]? = some (some path))
    (hfile : files path = .content c) (hp : (0 : Byte) ∉ p)
    (hsize : p.length + a.length = 127) (h : Accepted (128 - p.length) c) :
    ∃ b, tryGetModel files (stored p ++ some 0 :: a) p.length (i, scratch)
        = .ok (.inr (stored (p ++ fileText (c.take (128 - p.length))) ++ some 0 :: b))
      ∧ (p ++ fileText (c.take (128 - p.length))).length + b.length = 127 := by
  have hread := List.length_take (i := 128 - p.length) (l := c)
  obtain ⟨s, hs⟩ : ∃ s, s = c.take (128 - p.length) := ⟨_, rfl⟩
  rw [Accepted, ← hs] at h
  rw [← hs] at hread ⊢
  -- it is no garbage, and there is room for its terminator
  obtain ⟨hgarbage, hlen⟩ : isGarbageName
      (stored (nulled s) ++ List.replicate (256 - s.length) none) = .ok false
        ∧ (fileText s).length ≤ a.length := by
    split_ifs at h with hend
    · obtain ⟨b, hb⟩ := read_terminated hend (List.replicate (256 - s.length) none)
      have := fileText_length_lt hend
      rw [hb, isGarbageName_stored (fileText_zero _), decide_eq_false h]
      exact ⟨rfl, by omega⟩
    · obtain ⟨h0, hnulled, htext⟩ := read_unterminated hend
      have hall : s = c := by rw [hs, List.take_of_length_le h.1.le]
      rw [hnulled, htext]
      exact ⟨(isGarbageName_unread h0 (fetch_unread _)).2 (hall ▸ h.2), by omega⟩
  have hclose := write_stored (a := List.replicate (256 - s.length) none) (nulled s) [0]
    (by rw [List.length_replicate, List.length_singleton]; omega)
  obtain ⟨b, hb, -⟩ := closed_text s
    ((List.replicate (256 - s.length) (none : Option Byte)).drop [(0 : Byte)].length)
  have hcat := strncat_stored (n := 128 - p.length) (b := b) hp (fileText_zero s) (by omega) hlen
  rw [nulled_length, hb] at hclose
  refine ⟨a.drop (fileText s).length, ?_, ?_⟩
  · rw [tryGetModel_read hpath hfile rfl, ← hs, checkModel, hgarbage, ok_bind,
      if_neg (by simp), hclose,
      ok_bind, hcat, ← List.append_assoc, stored_append _ [0], List.append_assoc]
    rfl
  · rw [List.length_append, List.length_drop]
    omega

variable (scratch) in
/-- A file that the loop does not come to the end of: it takes what is behind it for its text, or has
no room for its terminator. -/
lemma tryGetModel_halts (hpath : dmiPaths[i]? = some (some path))
    (hfile : files path = .content c) (hp : (0 : Byte) ∉ p)
    (hsize : p.length + a.length = 127) (hend : ¬ Terminated (c.take (128 - p.length)))
    (h : ¬ Accepted (128 - p.length) c) :
    ∃ h, tryGetModel files (stored p ++ some 0 :: a) p.length (i, scratch) = .error h := by
  have hread := List.length_take (i := 128 - p.length) (l := c)
  obtain ⟨s, hs⟩ : ∃ s, s = c.take (128 - p.length) := ⟨_, rfl⟩
  rw [Accepted, ← hs] at h
  rw [← hs] at hread hend
  rw [if_neg hend] at h
  obtain ⟨h0, hnulled, htext⟩ := read_unterminated hend
  obtain ⟨hpre, hnot⟩ := isGarbageName_unread h0 (fetch_unread (256 - s.length))
  rw [tryGetModel_read hpath hfile rfl, ← hs, hnulled, checkModel]
  by_cases hstart : ∃ g ∈ garbageNames, s <+: g
  · obtain ⟨e, he⟩ := hpre hstart
    exact ⟨e, by rw [he, error_bind]⟩
  · have hfull : s.length = 128 - p.length := by
      by_contra hlt
      have hall : s = c := by rw [hs, List.take_of_length_le (by omega)]
      exact h ⟨by omega, fun g hg hcg => hstart ⟨g, hg, hall ▸ hcg⟩⟩
    have hclose := write_stored (a := List.replicate (256 - s.length) none) s [0]
      (by rw [List.length_replicate, List.length_singleton]; omega)
    rw [stored_append s, List.append_assoc] at hclose
    have hcat := strncat_overflow (n := 128 - p.length) (a := a)
      (b := (List.replicate (256 - s.length) (none : Option Byte)).drop [(0 : Byte)].length)
      hp h0 hfull.le (by omega)
    refine ⟨.outOfBounds, ?_⟩
    rw [hnot fun g hg hsg => hstart ⟨g, hg, hsg⟩, ok_bind, if_neg (by simp), hclose, ok_bind]
    exact bind_of_error hcat _

/-! ### The loop -/

lemma garbageNames_line : ∀ g ∈ garbageNames, (0x0D : Byte) ∉ g ∧ (0x0A : Byte) ∉ g := by decide

/-- A text with a line end in it is not garbage. -/
lemma line_notGarbage {b : Byte} (hb : b = 0x0D ∨ b = 0x0A) (s l : List Byte) :
    s ++ b :: l ∉ garbageNames := by
  intro h
  obtain ⟨hcr, hlf⟩ := garbageNames_line _ h
  rcases hb with rfl | rfl
  · exact hcr (by simp)
  · exact hlf (by simp)

lemma Accepted.notGarbage (h : Accepted m c) : fileText (c.take m) ∉ garbageNames := by
  rw [Accepted] at h
  split_ifs at h with hend
  · exact h
  · obtain ⟨-, -, htext⟩ := read_unterminated hend
    rw [htext, List.take_of_length_le h.1.le]
    exact fun hg => h.2 c hg (List.prefix_refl c)

/-- A text of which more was there to be read than there was room for. -/
lemma modelName_line {os : List FileOutcome} (hp : p.length ≤ 127) (hlen : 128 - p.length < c.length)
    (h0 : (0 : Byte) ∉ c.take (128 - p.length)) (hend : EndsLine (c.take (128 - p.length))) :
    (p ++ modelName (.content c :: os)).take 127 = p ++ fileText (c.take (128 - p.length)) := by
  obtain ⟨hm, b, l, hb, htext⟩ := fileText_take_line hlen h0 hend
  have hcount : (p ++ fileText (c.take (128 - p.length))).length = 127 := by
    rw [List.length_append]
    omega
  rw [modelName, htext, if_neg (line_notGarbage hb _ _), ← List.append_assoc, ← hcount,
    List.take_left]

/-- The text that the loop appends to the name is the first model. -/
lemma modelName_accepted {os : List FileOutcome} (hp : p.length ≤ 127)
    (h : Accepted (128 - p.length) c) :
    (p ++ modelName (.content c :: os)).take 127 = p ++ fileText (c.take (128 - p.length)) := by
  by_cases hall : c.length ≤ 128 - p.length ∨ (0 : Byte) ∈ c.take (128 - p.length)
  · have htext : fileText (c.take (128 - p.length)) = fileText c := by
      rcases hall with hle | h0
      · rw [List.take_of_length_le hle]
      · exact fileText_take_zero h0
    have hlt : (fileText (c.take (128 - p.length))).length < 128 - p.length := by
      have hread := List.length_take (i := 128 - p.length) (l := c)
      rw [Accepted] at h
      split_ifs at h with hend
      · have := fileText_length_lt hend
        omega
      · have := fileText_length_le (c.take (128 - p.length))
        omega
    have hnot := h.notGarbage
    rw [htext] at hnot hlt ⊢
    rw [modelName, if_neg hnot, List.take_of_length_le (by rw [List.length_append]; omega)]
  · rw [not_or, Nat.not_le] at hall
    obtain ⟨hlen, h0⟩ := hall
    have hend : Terminated (c.take (128 - p.length)) := by
      by_contra hend
      rw [Accepted, if_neg hend] at h
      omega
    exact modelName_line hp hlen h0 (hend.resolve_left h0)

/-- A model that the loop passes over is garbage. -/
lemma modelName_passedOver {os : List FileOutcome} (h : PassedOver m c) :
    modelName (.content c :: os) = modelName os := by
  obtain ⟨-, hgarbage, hall⟩ := h
  have htext : fileText (c.take m) = fileText c := by
    rcases hall with hle | h0
    · rw [List.take_of_length_le hle]
    · exact fileText_take_zero h0
  rw [modelName, if_pos (htext ▸ hgarbage)]

/-- The next path. -/
lemma tryNextPath_eq {paths : List String}
    (hdrop : dmiPaths.drop i = (path :: paths).map some ++ [none])
    (hsize : scratch.length = 256) :
    ∃ scratch', scratch'.length = 256 ∧ tryNextPath i scratch = .ok (.inl (i + 1, scratch'))
      ∧ dmiPaths.drop (i + 1) = paths.map some ++ [none] := by
  have hnext : dmiPaths.drop (i + 1) = paths.map some ++ [none] := by
    rw [← List.drop_drop, hdrop]
    rfl
  have hget : dmiPaths[i + 1]? = (paths.map some ++ [none]).head? := by
    rw [← hnext, List.head?_drop]
  rw [tryNextPath, hget]
  cases paths with
  | nil =>
      have hlen : (chars "Unknown Model").length = 13 := by decide
      have hcopy := strcpy_stored (a := scratch) (s := chars "Unknown Model") (b := []) (by decide)
        (by omega)
      refine ⟨_, ?_, by simp only [List.map_nil, List.nil_append, List.head?_cons, hcopy]; rfl, hnext⟩
      rw [List.length_append, stored_length, List.length_append, List.length_singleton,
        List.length_drop]
      omega
  | cons path' paths => exact ⟨scratch, hsize, rfl, hnext⟩

lemma tryNextPath_inl (i : ℕ) (scratch r : Cells) : tryNextPath i scratch ≠ .ok (.inr r) := by
  rw [tryNextPath]
  cases dmiPaths[i + 1]? with
  | none => simp
  | some path =>
      cases path with
      | none => cases CMem.strcpy scratch (stored (chars "Unknown Model") ++ [some 0]) <;> simp
      | some path => simp

/-- Whatever the loop ends with, the text that it appends is not garbage. -/
lemma tryGetModel_inr (hp : (0 : Byte) ∉ p) (hsize : p.length + a.length = 127) {r : Cells}
    (h : tryGetModel files (stored p ++ some 0 :: a) p.length (i, scratch) = .ok (.inr r)) :
    ∃ u b, u ∉ garbageNames ∧ (0 : Byte) ∉ u ∧ r = stored (p ++ u) ++ some 0 :: b := by
  cases hget : dmiPaths[i]? with
  | none => simp [tryGetModel, hget] at h
  | some entry =>
      cases entry with
      | none => simp [tryGetModel, hget] at h
      | some path =>
          have hnext : ∀ scratch', tryGetModel files (stored p ++ some 0 :: a) p.length (i, scratch)
              ≠ tryNextPath i scratch' := fun scratch' h' => tryNextPath_inl i scratch' r (h' ▸ h)
          cases hfile : files path with
          | closed => exact absurd (by simp [tryGetModel, hget, hfile]) (hnext scratch)
          | readError => exact absurd (by simp [tryGetModel, hget, hfile]) (hnext scratch)
          | content c =>
              by_cases hacc : Accepted (128 - p.length) c
              · obtain ⟨b, hok, -⟩ := tryGetModel_accepts scratch hget hfile hp hsize hacc
                rw [hok] at h
                obtain rfl := Sum.inr.inj (Except.ok.inj h)
                exact ⟨_, b, hacc.notGarbage, fileText_zero _, rfl⟩
              · by_cases hend : Terminated (c.take (128 - p.length))
                · rw [Accepted, if_pos hend, not_not] at hacc
                  obtain ⟨scratch', -, hskip⟩ := tryGetModel_garbage hget hfile rfl hend hacc
                  exact absurd hskip (hnext scratch')
                · obtain ⟨e, he⟩ := tryGetModel_halts scratch hget hfile hp hsize hend hacc
                  rw [he] at h
                  simp at h

/-- The string in the name is determined. -/
lemma NameIs.unique {s t : List Byte} (hs : NameIs name s) (ht : NameIs name t) (hs0 : (0 : Byte) ∉ s)
    (ht0 : (0 : Byte) ∉ t) : s = t := by
  obtain ⟨-, b, rfl⟩ := hs
  obtain ⟨-, b', hb'⟩ := ht
  have htext := strText_stored hs0 (a := b)
  rw [hb', strText_stored ht0] at htext
  exact (Except.ok.inj htext).symm

/-- The loop does not end with garbage in the name. -/
lemma iter_notGarbage (hp : (0 : Byte) ∉ p) (hsize : p.length + a.length = 127) {n : ℕ}
    {s : ℕ × Cells} {r : Cells}
    (h : iter (tryGetModel files (stored p ++ some 0 :: a) p.length) n s = .ok r)
    (hr : NameIs r (p ++ g)) (hg : (0 : Byte) ∉ g) : g ∉ garbageNames := by
  have happ : ∀ {u : List Byte}, (0 : Byte) ∉ u → (0 : Byte) ∉ p ++ u := fun hu => by
    rw [List.mem_append, not_or]
    exact ⟨hp, hu⟩
  obtain ⟨u, b, hu, hu0, rfl⟩ := iter_induct (I := fun _ => True)
    (Q := fun r => ∃ u b, u ∉ garbageNames ∧ (0 : Byte) ∉ u ∧ r = stored (p ++ u) ++ some 0 :: b)
    (fun _ _ _ _ => trivial) (fun _ _ _ hinr => tryGetModel_inr hp hsize hinr) n s r trivial h
  have hsame := hr.unique ⟨hr.1, b, rfl⟩ (happ hg) (happ hu0)
  rwa [List.append_cancel_left hsame]

variable (files) in
/-- The loop over the rest of the table: it gives the device its name just if a model is found. -/
lemma tryGetModel_iff (hp : (0 : Byte) ∉ p) (hsize : p.length + a.length = 127)
    (paths : List String) :
    ∀ {i scratch}, dmiPaths.drop i = paths.map some ++ [none] → scratch.length = 256 →
      ((∃ r, Settles (fun k => iter (tryGetModel files (stored p ++ some 0 :: a) p.length) k
            (i, scratch)) (.ok r)
          ∧ NameIs r ((p ++ modelName (paths.map files)).take 127))
        ↔ ModelFound (128 - p.length) (paths.map files)) := by
  induction paths with
  | nil =>
      intro i scratch hdrop _
      have hget : dmiPaths[i]? = some none := by
        rw [← List.head?_drop, hdrop]
        rfl
      have hstep : tryGetModel files (stored p ++ some 0 :: a) p.length (i, scratch)
          = .error .nullPointer := by
        rw [tryGetModel, hget]
      exact iff_of_false (iter_error_result hstep _) fun h => h
  | cons path paths ih =>
      intro i scratch hdrop hscratch
      have hget : dmiPaths[i]? = some (some path) := by
        rw [← List.head?_drop, hdrop]
        rfl
      -- where the loop goes on at the next path
      have hnext : ∀ scratch' : Cells, scratch'.length = 256 →
          tryGetModel files (stored p ++ some 0 :: a) p.length (i, scratch)
            = tryNextPath i scratch' →
          ((∃ r, Settles (fun k => iter (tryGetModel files (stored p ++ some 0 :: a) p.length) k
                (i, scratch)) (.ok r)
              ∧ NameIs r ((p ++ modelName (paths.map files)).take 127))
            ↔ ModelFound (128 - p.length) (paths.map files)) := by
        intro scratch' hsize' hstep
        obtain ⟨next, hlen, htry, hrest⟩ := tryNextPath_eq hdrop hsize'
        simp only [settles_iter_inl (hstep.trans htry)]
        exact ih hrest hlen
      rw [List.map_cons]
      cases hfile : files path with
      | closed =>
          refine hnext scratch hscratch ?_
          rw [tryGetModel, hget]
          dsimp only
          rw [hfile]
      | readError =>
          refine hnext scratch hscratch ?_
          rw [tryGetModel, hget]
          dsimp only
          rw [hfile]
      | content c =>
          by_cases hacc : Accepted (128 - p.length) c
          · obtain ⟨b, hok, hlen⟩ := tryGetModel_accepts scratch hget hfile hp hsize hacc
            refine iff_of_true ⟨_, settles_iter_inr hok, ?_⟩ (Or.inl hacc)
            rw [modelName_accepted (by omega) hacc]
            refine ⟨?_, b, rfl⟩
            rw [List.length_append, stored_length, List.length_cons]
            omega
          · by_cases hend : Terminated (c.take (128 - p.length))
            · have hgarbage := hacc
              rw [Accepted, if_pos hend, not_not] at hgarbage
              obtain ⟨scratch', hlen, hstep⟩ := tryGetModel_garbage hget hfile rfl hend hgarbage
              by_cases hall : c.length ≤ 128 - p.length ∨ (0 : Byte) ∈ c.take (128 - p.length)
              · have hpass : PassedOver (128 - p.length) c := ⟨hend, hgarbage, hall⟩
                rw [modelName_passedOver hpass, ModelFound, or_iff_right hacc, and_iff_right hpass]
                exact hnext scratch' hlen hstep
              · -- it is no garbage, but the part of it that was read is
                refine iff_of_false ?_ ?_
                · rintro ⟨r, ⟨N, hN⟩, hr⟩
                  rw [not_or, Nat.not_le] at hall
                  rw [modelName_line (by omega) hall.1 hall.2 (hend.resolve_left hall.2)] at hr
                  exact iter_notGarbage hp hsize (hN N le_rfl) hr (fileText_zero _) hgarbage
                · rintro (h | ⟨h, -⟩)
                  · exact hacc h
                  · exact hall h.2.2
            · obtain ⟨e, he⟩ := tryGetModel_halts scratch hget hfile hp hsize hend hacc
              refine iff_of_false (iter_error_result he _) ?_
              rintro (h | ⟨h, -⟩)
              · exact hacc h
              · exact hend h.1

end

lemma vendorName_zero (o : FileOutcome) : (0 : Byte) ∉ vendorName o := by
  cases o with
  | closed => simp [vendorName]
  | readError => simp [vendorName]
  | content c =>
      rw [vendorName, List.mem_append, not_or]
      exact ⟨fileText_zero c, by decide⟩

/-- The name before the vendor is read. -/
lemma gatherDeviceInfo_zeroed (files : String → FileOutcome) (k : ℕ) :
    gatherDeviceInfo files (nameBuf true) k
      = (do
        let name ← gatherVendor (files sysVendor) (stored (List.replicate 128 0))
        let curLen ← CMem.strlen name
        let name ← iter (tryGetModel files name curLen) k (0, List.replicate 256 none)
        return (0, some name)) := by
  have hmemset := write_zero (a := List.replicate 128 none) (List.replicate 128 0) (by simp)
  have hnone : (List.replicate 128 (none : Option Byte)).drop
      (List.replicate 128 (0 : Byte)).length = [] := by simp
  rw [hnone, List.append_nil] at hmemset
  rw [nameBuf, if_pos rfl, gatherDeviceInfo, hmemset, ok_bind]

/-- With a vendor that fits the loop decides. -/
lemma gatherDeviceInfo_loop (files : String → FileOutcome) (h : VendorFits (files sysVendor)) :
    ∃ a : Cells, (vendorName (files sysVendor)).length + a.length = 127 ∧
      gatherDeviceInfo files (nameBuf true) = fun k =>
        iter (tryGetModel files (stored (vendorName (files sysVendor)) ++ some 0 :: a)
            (vendorName (files sysVendor)).length) k (0, List.replicate 256 none) >>=
          fun name => .ok (0, some name) := by
  obtain ⟨a, hvendor, hsize⟩ := gatherVendor_fits h
  refine ⟨a, hsize, funext fun k => ?_⟩
  rw [gatherDeviceInfo_zeroed, hvendor, ok_bind, strlen_stored (vendorName_zero _), ok_bind]
  rfl

/-- The device gets its name just if there is memory for it, the vendor fits it, and among the models
there is one that is accepted and those before it are passed over. -/
theorem gatherDeviceInfo_iff (memory : Bool) (files : String → FileOutcome) :
    (∃ name, Settles (gatherDeviceInfo files (nameBuf memory)) (.ok (0, some name))
        ∧ NameIs name (deviceName files))
      ↔ memory = true ∧ VendorFits (files sysVendor)
        ∧ ModelFound (128 - (vendorName (files sysVendor)).length) (modelFiles files) := by
  cases memory with
  | false =>
      have hrun : Settles (gatherDeviceInfo files (nameBuf false)) (.ok (-12, none)) :=
        Settles.const _
      refine iff_of_false ?_ (by simp)
      rintro ⟨name, hname, -⟩
      have := hrun.unique hname
      simp at this
  | true =>
      rw [and_iff_right rfl]
      by_cases hfits : VendorFits (files sysVendor)
      · obtain ⟨a, hsize, hrun⟩ := gatherDeviceInfo_loop files hfits
        have hloop := tryGetModel_iff files (vendorName_zero _) hsize
          (dmiPaths.filterMap id) (i := 0) rfl
          (List.length_replicate (n := 256) (a := (none : Option Byte)))
        rw [and_iff_right hfits, modelFiles, deviceName, modelFiles, hrun]
        refine Iff.trans ?_ hloop
        constructor
        · rintro ⟨name, ⟨N, hN⟩, hname⟩
          refine ⟨name, ⟨N, fun k hk => ?_⟩, hname⟩
          obtain ⟨name', hname', heq⟩ := bind_eq_ok.mp (hN k hk)
          obtain rfl : name' = name := by simpa using heq
          exact hname'
        · rintro ⟨name, hname, hholds⟩
          exact ⟨name, hname.map _, hholds⟩
      · refine iff_of_false ?_ fun h => hfits h.1
        rintro ⟨name, hname, -⟩
        have hrun : Settles (gatherDeviceInfo files (nameBuf true)) (.error .outOfBounds) :=
          ⟨0, fun k _ => by rw [gatherDeviceInfo_zeroed, gatherVendor_halt hfits, error_bind]⟩
        have := hrun.unique hname
        simp at this

/-- Without a file for the model the loop comes to the `NULL` of the table, and opens it. -/
lemma tryGetModel_null (files : String → FileOutcome) (name : Cells) (curLen : ℕ)
    (paths : List String) (hfiles : ∀ path ∈ paths, files path = .closed) :
    ∀ {i : ℕ} {scratch : Cells}, dmiPaths.drop i = paths.map some ++ [none] → scratch.length = 256 →
      Settles (fun k => iter (tryGetModel files name curLen) k (i, scratch))
        (.error .nullPointer) := by
  induction paths with
  | nil =>
      intro i scratch hdrop _
      refine settles_iter_error ?_
      rw [tryGetModel, ← List.head?_drop, hdrop]
      rfl
  | cons path paths ih =>
      intro i scratch hdrop hsize
      rw [List.forall_mem_cons] at hfiles
      obtain ⟨next, hlen, htry, hrest⟩ := tryNextPath_eq hdrop hsize
      have hstep : tryGetModel files name curLen (i, scratch) = .ok (.inl (i + 1, next)) := by
        rw [tryGetModel, ← List.head?_drop, hdrop, List.map_cons, List.cons_append, List.head?_cons]
        dsimp only
        rw [hfiles.1]
        exact htry
      rw [settles_iter_inl hstep]
      exact ih hfiles.2 hrest hlen

/-- A system that has no file with a model. -/
theorem noModel_halts :
    Settles (gatherDeviceInfo (fun _ => .closed) (nameBuf true)) (.error .nullPointer)
      ∧ deviceName (fun _ => .closed) = chars "Unknown Model"
      ∧ ¬ ∃ name, Settles (gatherDeviceInfo (fun _ => .closed) (nameBuf true)) (.ok (0, some name))
        ∧ NameIs name (deviceName fun _ => .closed) := by
  obtain ⟨a, -, hrun⟩ := gatherDeviceInfo_loop (fun _ => .closed) trivial
  have hnull := tryGetModel_null (fun _ => .closed) (stored (vendorName .closed) ++ some 0 :: a)
    (vendorName .closed).length (dmiPaths.filterMap id)
    (fun _ _ => rfl) (i := 0) rfl (List.length_replicate (n := 256) (a := (none : Option Byte)))
  rw [hrun]
  refine ⟨hnull.map _, by decide, ?_⟩
  rintro ⟨name, hname, -⟩
  have := (hnull.map _).unique hname
  simp at this

end EverythingNet
