import Mathlib.Tactic
import EverythingNet.Lib.StartsWith
import EverythingNet.Plat.CpuInfo
import EverythingNet.Plat.GatherInfo

/-!
The names of the processor and, on PowerPC, of the machine: `LINUX_GatherCPUInfo` in
`plat/linux/info_cpu.c`, on every architecture.

* `linuxGatherCPUInfo`: the code. `gatherName` is what it does for an architecture, `cleanCpuName` what
  it then cuts off.
* `found`: what the line with a key says. `findLine_none`, `findLine_some`: a call of
  `cpuinfoFindLine` on a text that it can read (`Legible`) gives that, whatever is in its buffer.
* `cleaned`: the name without its clock and its graphics. `cleaned_start`, `cleaned_noClock`,
  `cleanCpuName_stored`.
* `cpuOf`, `modelOf`: the names that the files of a system give. `gatherName_some`, `gatherName_none`,
  `gatherName_noRoom`: what the code then has in its buffers. `gatherCPUInfo_cases`,
  `gatherCPUInfo_iff`: when the names come out of it.
-/

namespace EverythingNet

open CMem

/-! ### The code -/

/-- The architectures that the code tells apart. -/
inductive CpuArch where
  | x86
  | ppc
  | arm
  | other
  deriving DecidableEq

/-- What comes of opening `/proc/cpuinfo` and reading it, with `errno` behind it. -/
inductive ProcFile where
  | closed (errno : ℤ)
  | readError (errno : ℤ)
  | content (errno : ℤ) (c : List Byte)

/-- What comes of opening a file of the device tree, of `fstat` and of reading it: `st_size` and the
file. -/
inductive DtFile where
  | closed
  | noStat
  | readError
  | content (stSize : ℕ) (c : List Byte)

/-- What the code finds on a system: whether there is memory for its buffers, for the line buffer in
the call of `cpuinfoFindLine` for a key and for the name, and the files that it reads. `native` is
`PLAT_STR_NATIVE`. -/
structure CpuSystem where
  native : CStr
  buffers : Bool
  cpuinfo : ProcFile
  lineMemory : String → Bool
  compatible : DtFile
  nameMemory : Bool

/-- A call of `cpuinfoFindLine` for the text `c`. -/
def findLine (s : CpuSystem) (k : ℕ) (c : List Byte) (tmp : Cells) (key : String) :
    Except Halt (ℤ × Cells) :=
  cpuinfoFindLine k (lineBuf (s.lineMemory key)) (cpuinfoCells c) tmp (chars key)

/-- The keys of the lines with the model of a PowerPC machine, in the order of the code. -/
def modelKeys : List String := ["machine", "model", "platform", "motherboard", "detected as"]

/-- The search for the model, up to `ppcGotModel`. -/
def ppcGetModel (s : CpuSystem) (k : ℕ) (c : List Byte) : List String → Cells → Except Halt Cells
  | [], tmp => CMem.strcpy tmp (ended (chars "Unknown"))
  | key :: keys, tmp => do
    let (ret, tmp) ← findLine s k c tmp key
    if ret = 0 then return tmp else ppcGetModel s k c keys tmp

/-- A file of the device tree is read to `tmp`: whether all of it is there. -/
def readDt (tmp : Cells) : DtFile → Except Halt (Bool × Cells)
  | .closed => .ok (false, tmp)
  | .noStat => .ok (false, tmp)
  | .readError => .ok (false, tmp)
  | .content stSize c => do
    let ret := min c.length stSize
    let tmp ← write tmp 0 (c.take ret)
    return (decide (ret = stSize), tmp)

/-- `armTryCpuInfo`. -/
def armTryCpuInfo (s : CpuSystem) (k : ℕ) (c : List Byte) (tmp : Cells) : Except Halt Cells := do
  let (ret, tmp) ← findLine s k c tmp "model name"
  if ret = 0 then return tmp else CMem.strcpy tmp (ended (chars "Unknown"))

/-- What the code does for an architecture: it returns, with what is then in `PLAT_Info.name` and
`PLAT_Info.cpu`, or it goes on with `cpuName` and `PLAT_Info.name`. -/
def gatherName (arch : CpuArch) (s : CpuSystem) (k : ℕ) (c : List Byte) (cpuName tmp : Cells)
    (name : Option Cells) : Except Halt ((ℤ × Option Cells × Option Cells) ⊕ (Cells × Option Cells)) :=
  match arch with
  | .x86 => do
    let (ret, tmp) ← findLine s k c tmp "model name"
    -- `-ENODATA`
    if ret < 0 then return .inl (-61, name, some (ended (chars "Unknown")))
    let cpuName ← (if ret = 0 then CMem.strcpy cpuName tmp else pure cpuName)
    return .inr (cpuName, name)
  | .ppc => do
    let (ret, tmp) ← findLine s k c tmp "cpu"
    let cpuName ← (if ret < 0 then CMem.strcpy cpuName (ended (chars "Unknown")) else pure cpuName)
    let cpuName ← (if ret = 0 then CMem.strcpy cpuName tmp else pure cpuName)
    let tmp ← ppcGetModel s k c modelKeys tmp
    match name with
    | none => .error .nullPointer
    | some name => return .inr (cpuName, some (← CMem.strcpy name tmp))
  | .arm => do
    let (all, tmp) ← readDt tmp s.compatible
    let tmp ← (if all then (armConvertName tmp armCPUNames).map Prod.snd else armTryCpuInfo s k c tmp)
    return .inr (← CMem.strcpy cpuName tmp, name)
  | .other => do
    let cpuName ← CMem.strcpy cpuName (ended (chars "Unknown (" ++ s.native.1 ++ chars ")"))
    return .inr (cpuName, name)

/-- What is cut off the names of some processors. -/
def radeon : List Byte := chars " with Radeon Graphics"

/-- `if (tmp) *tmp = '\0'`. -/
def cutAt (cpuName : Cells) : Option ℕ → Except Halt Cells
  | none => .ok cpuName
  | some i => write cpuName i [0]

/-- `if (tmp) tmp[-1] = '\0'`. -/
def cutBefore (cpuName : Cells) : Option ℕ → Except Halt Cells
  | none => .ok cpuName
  | some 0 => .error .outOfBounds
  | some (i + 1) => write cpuName i [0]

/-- The clean-up of `cpuName`. -/
def cleanCpuName (cpuName : Cells) : Except Halt Cells := do
  let len ← CMem.strlen cpuName
  let tmp ← (if radeon.length < len then CMem.strstr cpuName radeon else pure none)
  let cpuName ← cutAt cpuName tmp
  let tmp ← CMem.strchr 0x40 cpuName
  cutBefore cpuName tmp

/-- `malloc(strlen(str) + 1)` and `strcpy`: the copy of a string that stays. -/
def copyString (memory : Bool) (str : Cells) : Except Halt Cells := do
  let len ← CMem.strlen str
  if memory then CMem.strcpy (List.replicate (len + 1) none) str else .error .nullPointer

/-- What follows `gatherName`. -/
def finishName (memory : Bool) :
    (ℤ × Option Cells × Option Cells) ⊕ (Cells × Option Cells) →
      Except Halt (ℤ × Option Cells × Option Cells)
  | .inl r => .ok r
  | .inr (cpuName, name) => do
    let cpuName ← cleanCpuName cpuName
    let cpu ← copyString memory cpuName
    return (0, name, some cpu)

/-- `LINUX_GatherCPUInfo`: the result, and what is then in `PLAT_Info.name` and `PLAT_Info.cpu`. -/
def linuxGatherCPUInfo (arch : CpuArch) (s : CpuSystem) (k : ℕ) (name : Option Cells) :
    Except Halt (ℤ × Option Cells × Option Cells) :=
  -- `-ENOMEM`
  if ¬ s.buffers then .ok (-12, name, none)
  else match s.cpuinfo with
  | .closed errno => .ok (-errno, name, none)
  | .readError errno => .ok (-errno, name, none)
  | .content errno c =>
    if min c.length (1024 * 1024) = 0 then .ok (-errno, name, none)
    else gatherName arch s k (c.take (1024 * 1024)) (List.replicate 512 none)
      (List.replicate 512 none) name >>= finishName s.nameMemory

/-! ### What a line says -/

/-- What the first line with the key says, if there is memory to look for it. -/
def found (s : CpuSystem) (c : List Byte) (key : String) : Option (List Byte) :=
  if s.lineMemory key then
    ((lines c).find? fun l => decide (Hit (chars key) l)).map value
  else none

/-- The text can be read where the line with the key is looked for. -/
def Legible (s : CpuSystem) (c : List Byte) (key : String) : Prop :=
  s.lineMemory key = true → Readable (chars key) c

section

variable {a a' out tmp : Cells} {u v c key : List Byte} {k : ℕ} {s : CpuSystem} {r : ℤ × Cells}

lemma startsWith_ended (hv : (0 : Byte) ∉ v) : StartsWith (ended v) v := ⟨hv, [], rfl⟩

/-! ### The lookup -/

lemma findStep_result {cpuinfo : Cells} {st : Cells × ℕ}
    (h : findStep cpuinfo out key st = .ok (.inr r)) :
    r = (-1, out) ∨ (r.1 = 0 ∧ r.2.length = out.length) := by
  obtain ⟨line, buf⟩ := st
  obtain ⟨b, -, h⟩ := bind_eq_ok.mp h
  obtain ⟨size, -, h⟩ := bind_eq_ok.mp h
  cases size with
  | none => exact Or.inl (Sum.inr.inj (Except.ok.inj h)).symm
  | some size =>
      obtain ⟨line', -, h⟩ := bind_eq_ok.mp h
      obtain ⟨same, -, h⟩ := bind_eq_ok.mp h
      cases same with
      | false => simp at h
      | true =>
          obtain ⟨colon, -, h⟩ := bind_eq_ok.mp h
          cases colon with
          | none => simp at h
          | some colon =>
              obtain ⟨o, ho, h⟩ := bind_eq_ok.mp h
              obtain rfl := Sum.inr.inj (Except.ok.inj h)
              exact Or.inr ⟨rfl, strcpy_length ho⟩

/-- The lookup leaves `out` alone if it finds nothing. -/
lemma cpuinfoFindLine_result {line : Option Cells} {cpuinfo : Cells}
    (h : cpuinfoFindLine k line cpuinfo out key = .ok r) :
    r = (-1, out) ∨ (r.1 = 0 ∧ r.2.length = out.length) := by
  cases line with
  | none => exact Or.inl (Except.ok.inj h).symm
  | some line =>
      exact iter_induct (I := fun _ => True) (fun _ _ _ _ => trivial)
        (fun _ _ _ hr => findStep_result hr) k (line, 0) r trivial h

lemma lines_subset {l : List Byte} (hl : l ∈ lines u) : l ⊆ u := by
  induction u generalizing l with
  | nil => simp [lines] at hl
  | cons b u ih =>
      rw [lines] at hl
      split_ifs at hl with hb
      · rcases List.mem_cons.mp hl with rfl | hl
        · exact List.nil_subset _
        · exact fun x hx => List.mem_cons_of_mem b (ih hl hx)
      · split at hl
        · simp at hl
        · next l' ls hls =>
            rw [hls] at ih
            rcases List.mem_cons.mp hl with rfl | hl
            · exact List.cons_subset_cons b (ih (List.mem_cons_self ..))
            · exact fun x hx => List.mem_cons_of_mem b (ih (List.mem_cons_of_mem _ hl) hx)

/-- The lines of a text come first among those of a longer one. -/
lemma lines_append_start (u w : List Byte) : lines u <+: lines (u ++ w) := by
  induction u with
  | nil => exact List.nil_prefix
  | cons b u ih =>
      rw [List.cons_append, lines, lines]
      split_ifs with hb
      · exact (List.prefix_cons_inj []).mpr ih
      · cases hu : lines u with
        | nil => exact List.nil_prefix
        | cons l ls =>
            rw [hu] at ih
            obtain ⟨rest, hrest⟩ := ih
            rw [← hrest]
            exact ⟨rest, rfl⟩

lemma value_subset (l : List Byte) : value l ⊆ l := fun _ hb =>
  chop_subset l (List.dropWhile_subset _ (List.drop_subset 2 _ hb))

/-- What the first line with the key says has no zero byte, if the text can be read. -/
lemma value_noZero (h : Readable key c) {l : List Byte}
    (hl : (lines c).find? (fun l => decide (Hit key l)) = some l) : (0 : Byte) ∉ value l := by
  have hhit : Hit key l := by simpa using List.find?_some hl
  obtain ⟨l', hl', hhit'⟩ | ⟨-, hno⟩ := h.ended
  · have hpre : textLines c <+: lines c := by
      have := lines_append_start (c.takeWhile (· ≠ 0)) (c.dropWhile (· ≠ 0))
      rwa [List.takeWhile_append_dropWhile] at this
    cases hfirst : (textLines c).find? fun l => decide (Hit key l) with
    | none => exact absurd hhit' (by simpa using List.find?_eq_none.mp hfirst l' hl')
    | some l'' =>
        have hsame := List.IsPrefix.find?_eq_some hpre hfirst
        obtain rfl : l'' = l := Option.some.inj (hsame.symm.trans hl)
        intro h0
        have hmem := lines_subset (List.mem_of_find?_eq_some hfirst) (value_subset l'' h0)
        simpa using List.mem_takeWhile_imp hmem
  · exact absurd hhit (hno l (List.mem_of_find?_eq_some hl))

/-- Nothing is found. -/
lemma findLine_none {name : String} (hkey : (0 : Byte) ∉ chars name) (hne : chars name ≠ [])
    (hlegible : Legible s c name) (htmp : tmp.length = 512) (h : found s c name = none) :
    Settles (fun k => findLine s k c tmp name) (.ok (-1, tmp)) := by
  rw [found] at h
  cases hmem : s.lineMemory name with
  | false =>
      have hrun : ∀ k, findLine s k c tmp name = .ok (-1, tmp) := fun k => by
        rw [findLine, hmem]
        rfl
      exact (Settles.const _).congr hrun
  | true =>
      rw [if_pos hmem, Option.map_eq_none_iff] at h
      obtain ⟨r, hr, hlooked⟩ :=
        (findLine_memory ⟨chars name, hkey⟩ hne c htmp).mpr (hlegible hmem)
      have hret : r.1 ≠ 0 := fun h0 => by
        obtain ⟨l, hl, hhit⟩ := hlooked.ret.mp h0
        exact absurd hhit (by simpa using List.find?_eq_none.mp h l hl)
      obtain ⟨N, hN⟩ := hr
      obtain rfl | ⟨h0, -⟩ := cpuinfoFindLine_result (hN N le_rfl)
      · exact Settles.congr ⟨N, hN⟩ fun k => by rw [findLine, hmem]
      · exact absurd h0 hret

/-- A line is found. -/
lemma findLine_some {name : String} (hkey : (0 : Byte) ∉ chars name) (hne : chars name ≠ [])
    (hlegible : Legible s c name) (htmp : tmp.length = 512) (h : found s c name = some v) :
    ∃ a, Settles (fun k => findLine s k c tmp name) (.ok (0, a)) ∧ StartsWith a v
      ∧ a.length = 512 := by
  rw [found] at h
  split_ifs at h with hmem
  obtain ⟨l, hl, rfl⟩ := Option.map_eq_some_iff.mp h
  obtain ⟨⟨ret, a⟩, ⟨N, hN⟩, hlooked⟩ :=
    (findLine_memory ⟨chars name, hkey⟩ hne c htmp).mpr (hlegible hmem)
  have hhit : Hit (chars name) l := by simpa using List.find?_some hl
  obtain rfl : ret = 0 := hlooked.ret.mpr ⟨l, List.mem_of_find?_eq_some hl, hhit⟩
  refine ⟨a, Settles.congr ⟨N, hN⟩ fun k => by rw [findLine, hmem],
    ⟨value_noZero (hlegible hmem) hl, hlooked.out l hl⟩, ?_⟩
  obtain hr | ⟨-, hlen⟩ := cpuinfoFindLine_result (hN N le_rfl)
  · simp at hr
  · exact hlen.trans htmp

end

/-! ### The clean-up -/

/-- A name without what comes from " with Radeon Graphics" on, if there is more in it. -/
def cutGraphics (v : List Byte) : List Byte :=
  if radeon.length < v.length then
    match firstAt radeon v with
    | none => v
    | some i => v.take i
  else v

/-- A name without its graphics, and without its clock and the character before the `@`. -/
def cleaned (v : List Byte) : List Byte :=
  if (cutGraphics v).contains 0x40 then ((cutGraphics v).takeWhile (· ≠ 0x40)).dropLast else cutGraphics v

section

variable {a : Cells} {v : List Byte} {i : ℕ}

lemma cutGraphics_start (v : List Byte) : cutGraphics v <+: v := by
  rw [cutGraphics]
  split_ifs
  · split
    · exact List.prefix_rfl
    · exact List.take_prefix _ _
  · exact List.prefix_rfl

lemma cleaned_start_cut (v : List Byte) : cleaned v <+: cutGraphics v := by
  rw [cleaned]
  split_ifs
  · exact (List.dropLast_prefix _).trans (List.takeWhile_prefix _)
  · exact List.prefix_rfl

/-- Nothing is added to a name, -/
lemma cleaned_start (v : List Byte) : cleaned v <+: v :=
  (cleaned_start_cut v).trans (cutGraphics_start v)

/-- there is no clock left in it, -/
lemma cleaned_noClock (v : List Byte) : (0x40 : Byte) ∉ cleaned v := by
  rw [cleaned]
  split_ifs with h
  · intro hmem
    simpa using List.mem_takeWhile_imp (List.dropLast_subset _ hmem)
  · exact fun hmem => h (List.contains_iff_mem.mpr hmem)

/-- and no graphics, unless there is nothing else in it. -/
lemma cleaned_noGraphics (hlen : radeon.length < v.length) : ¬ radeon <:+: cleaned v := by
  intro h
  have hcut := h.trans (cleaned_start_cut v).isInfix
  rw [cutGraphics, if_pos hlen] at hcut
  split at hcut
  · next hnone =>
      obtain ⟨p, q, hpq⟩ := hcut
      exact firstAt_eq_none.mp hnone p q hpq.symm
  · next i hi =>
      obtain ⟨p, q, hpq⟩ := hcut
      have hsize := congrArg List.length hpq
      have hpos : 0 < radeon.length := by decide
      simp only [List.length_append, List.length_take] at hsize
      have hocc : v = p ++ radeon ++ (q ++ v.drop i) := by
        rw [← List.append_assoc, hpq, List.take_append_drop]
      have hfirst := (firstAt_eq_some.mp hi).2 p _ hocc
      omega

/-- The first thing that is cut off. -/
lemma cutGraphics_stored (h : StartsWith a v) :
    ∃ d, (CMem.strlen a >>= fun len =>
        (if radeon.length < len then CMem.strstr a radeon else pure none) >>= cutAt a) = .ok d
      ∧ StartsWith d (cutGraphics v) ∧ d.length = a.length := by
  have hfind : CMem.strstr a radeon = .ok (firstAt radeon v) := by
    rw [CMem.strstr, h.strText]
    rfl
  rw [h.strlen, ok_bind, cutGraphics]
  split_ifs
  · rw [hfind, ok_bind]
    cases hi : firstAt radeon v with
    | none => exact ⟨a, rfl, h, rfl⟩
    | some i => exact h.cut (firstAt_pos hi).1
  · exact ⟨a, rfl, h, rfl⟩

/-- A name that starts with its clock still does without its graphics. -/
lemma cutGraphics_head : (cutGraphics v).head? = some 0x40 ↔ v.head? = some 0x40 := by
  rw [cutGraphics]
  split_ifs
  · split
    · rfl
    · next i hi =>
        cases i with
        | succ i => cases v <;> rfl
        | zero =>
            obtain ⟨w, hw⟩ := (firstAt_pos hi).2.1
            rw [List.drop_zero] at hw
            rw [← hw]
            simp [radeon, chars]
  · rfl

lemma cleanCpuName_eq (a : Cells) :
    cleanCpuName a = (CMem.strlen a >>= fun len =>
      (if radeon.length < len then CMem.strstr a radeon else pure none) >>= cutAt a)
        >>= fun d => CMem.strchr 0x40 d >>= cutBefore d := by
  rw [cleanCpuName, bind_assoc]
  simp only [bind_assoc]

/-- The clean-up leaves a name clean, if there is a character before its `@`. -/
lemma cleanCpuName_stored (h : StartsWith a v) (hne : v.head? ≠ some 0x40) :
    ∃ d, cleanCpuName a = .ok d ∧ StartsWith d (cleaned v) ∧ d.length = a.length := by
  obtain ⟨d, hd, hcut, hlen⟩ := cutGraphics_stored h
  rw [cleanCpuName_eq, hd, ok_bind, cleaned]
  by_cases hmem : (0x40 : Byte) ∈ cutGraphics v
  · obtain ⟨p, c, q, hpq, hp⟩ := split_before hmem (mt cutGraphics_head.mp hne)
    rw [if_pos (List.contains_iff_mem.mpr hmem), hpq, takeWhile_first hp, List.dropLast_concat]
    rw [hpq] at hcut
    obtain ⟨d', hd', hcut', hlen'⟩ := hcut.cut (i := p.length) (by simp)
    rw [List.append_assoc, List.take_left] at hcut'
    rw [hcut.strchr hp, ok_bind, List.length_append, List.length_singleton]
    exact ⟨d', hd', hcut', hlen'.trans hlen⟩
  · rw [if_neg (mt List.contains_iff_mem.mp hmem), hcut.strchr_none hmem (by decide)]
    exact ⟨d, rfl, hcut, hlen⟩

/-- It writes before a name that starts with its clock. -/
lemma cleanCpuName_clock (h : StartsWith a v) (hclock : v.head? = some 0x40) :
    cleanCpuName a = .error .outOfBounds := by
  obtain ⟨d, hd, hcut, -⟩ := cutGraphics_stored h
  obtain ⟨q, hq⟩ := List.head?_eq_some_iff.mp (cutGraphics_head.mpr hclock)
  rw [hq] at hcut
  have hchr : CMem.strchr 0x40 d = .ok (some 0) := StartsWith.strchr (p := []) hcut (by simp)
  rw [cleanCpuName_eq, hd, ok_bind, hchr]
  rfl

/-- The copy that stays is the string and its terminator. -/
lemma copyString_stored (h : StartsWith a v) : copyString true a = .ok (ended v) := by
  obtain ⟨b, hb⟩ := h.cells
  have hcopy : CMem.strcpy (List.replicate (v.length + 1) none) a
      = .ok (stored (v ++ [0]) ++ (List.replicate (v.length + 1) none).drop (v.length + 1)) := by
    rw [hb]
    exact strcpy_stored h.text (by simp)
  have hrest : (List.replicate (v.length + 1) (none : Option Byte)).drop (v.length + 1) = [] := by
    simp
  rw [copyString, h.strlen, ok_bind, if_pos rfl, hcopy, hrest, List.append_nil, stored_append]
  rfl

lemma copyString_noMemory (h : StartsWith a v) :
    copyString false a = .error .nullPointer := by
  rw [copyString, h.strlen, ok_bind]
  rfl

end

/-! ### The names that the files give -/

/-- The text of `/proc/cpuinfo`, if the code gets to it. -/
def CpuSystem.read (s : CpuSystem) : Option (List Byte) :=
  match s.cpuinfo with
  | .closed _ => none
  | .readError _ => none
  | .content _ c => if s.buffers ∧ c ≠ [] then some (c.take (1024 * 1024)) else none

/-- What a file of the device tree says, if all of it is there. -/
def DtFile.text : DtFile → Option (List Byte)
  | .closed => none
  | .noStat => none
  | .readError => none
  | .content stSize c => if stSize ≤ c.length then some ((c.take stSize).takeWhile (· ≠ 0)) else none

/-- A file of the device tree that fits a buffer of `n` bytes, and has an end if all of it is there. -/
def DtFile.Fits (n : ℕ) : DtFile → Prop
  | .closed => True
  | .noStat => True
  | .readError => True
  | .content stSize c => min c.length stSize ≤ n ∧ (stSize ≤ c.length → 0 ∈ c.take stSize)

/-- The name that the code has for an identifier of the device tree. -/
def armName (ident : List Byte) : List Byte :=
  match armCPUNames.find? fun row => decide (Comparable ident row.1.1) with
  | none => ident
  | some row => row.2.1

/-- The name of the processor, before it is cleaned. -/
def cpuOf (s : CpuSystem) (c : List Byte) : CpuArch → Option (List Byte)
  | .x86 => found s c "model name"
  | .ppc => some ((found s c "cpu").getD (chars "Unknown"))
  | .arm => some (match s.compatible.text with
    | some ident => armName ident
    | none => (found s c "model name").getD (chars "Unknown"))
  | .other => some (chars "Unknown (" ++ s.native.1 ++ chars ")")

/-- The model of a machine with one of the keys: what the first of them that is there says. -/
def modelOf (s : CpuSystem) (c : List Byte) (keys : List String) : List Byte :=
  (keys.findSome? (found s c)).getD (chars "Unknown")

/-- The text can be read for each of the keys that are looked for. -/
def LegibleUpTo (s : CpuSystem) (c : List Byte) : List String → Prop
  | [] => True
  | key :: keys => Legible s c key ∧ (found s c key = none → LegibleUpTo s c keys)

/-- The files can be read for all that is looked for, and what is to be the name of the processor fits
its buffer. -/
def FilesLegible (s : CpuSystem) (c : List Byte) : CpuArch → Prop
  | .x86 => Legible s c "model name"
  | .ppc => Legible s c "cpu" ∧ LegibleUpTo s c modelKeys
  | .arm => s.compatible.Fits 512 ∧ (s.compatible.text = none → Legible s c "model name")
  | .other => s.native.1.length ≤ 501

/-- There is room for the model of the machine in `n` bytes. -/
def RoomFor (s : CpuSystem) (c : List Byte) (n : ℕ) : CpuArch → Prop
  | .ppc => (modelOf s c modelKeys).length < n
  | _ => True

/-- `PLAT_Info.name` is the model of the machine on PowerPC, and otherwise what it was. -/
def Named (s : CpuSystem) (c : List Byte) (name name' : Cells) : CpuArch → Prop
  | .ppc => StartsWith name' (modelOf s c modelKeys) ∧ name'.length = name.length
  | _ => name' = name

section

variable {s : CpuSystem} {c u v : List Byte} {tmp cpuName name : Cells} {key : String}
  {arch : CpuArch}

lemma unknown_text : (0 : Byte) ∉ chars "Unknown" := by decide

lemma strcpy_unknown (htmp : tmp.length = 512) :
    ∃ d, CMem.strcpy tmp (ended (chars "Unknown")) = .ok d ∧ StartsWith d (chars "Unknown")
      ∧ d.length = 512 := by
  have hshort : (chars "Unknown").length = 7 := rfl
  obtain ⟨d, hd, hstart, hlen⟩ := (startsWith_ended unknown_text).strcpy (d := tmp) (by omega)
  exact ⟨d, hd, hstart, hlen.trans htmp⟩

/-- The model is in the buffer. -/
lemma ppcGetModel_spec (htmp : tmp.length = 512) {keys : List String}
    (hkeys : ∀ key ∈ keys, (0 : Byte) ∉ chars key ∧ chars key ≠ [])
    (h : LegibleUpTo s c keys) :
    ∃ d, Settles (fun k => ppcGetModel s k c keys tmp) (.ok d) ∧ StartsWith d (modelOf s c keys)
      ∧ d.length = 512 := by
  induction keys with
  | nil =>
      obtain ⟨d, hd, hstart, hlen⟩ := strcpy_unknown htmp
      exact ⟨d, hd ▸ Settles.const _, hstart, hlen⟩
  | cons key keys ih =>
      obtain ⟨⟨hkey, hne⟩, hkeys⟩ := List.forall_mem_cons.mp hkeys
      cases hfound : found s c key with
      | none =>
          have hmodel : modelOf s c (key :: keys) = modelOf s c keys := by
            rw [modelOf, List.findSome?_cons, hfound, modelOf]
          obtain ⟨d, hd, hstart, hlen⟩ := ih hkeys (h.2 hfound)
          rw [hmodel]
          exact ⟨d, (findLine_none hkey hne h.1 htmp hfound).bind hd, hstart, hlen⟩
      | some v =>
          have hmodel : modelOf s c (key :: keys) = v := by
            rw [modelOf, List.findSome?_cons, hfound, Option.getD_some]
          obtain ⟨d, hd, hstart, hlen⟩ := findLine_some hkey hne h.1 htmp hfound
          rw [hmodel]
          exact ⟨d, hd.bind (Settles.const _), hstart, hlen⟩

/-- A file of the device tree is in the buffer if all of it is there. -/
lemma readDt_spec {f : DtFile} (htmp : tmp.length = 512) (hfits : f.Fits 512) :
    ∃ d, readDt tmp f = .ok (f.text.isSome, d) ∧ d.length = 512
      ∧ ∀ ident, f.text = some ident → StartsWith d ident := by
  have hfails : ∃ d, (.ok (false, tmp) : Except Halt (Bool × Cells)) = .ok (false, d)
      ∧ d.length = 512 ∧ ∀ ident, (none : Option (List Byte)) = some ident → StartsWith d ident :=
    ⟨tmp, rfl, htmp, fun ident h => by simp at h⟩
  cases f with
  | closed => exact hfails
  | noStat => exact hfails
  | readError => exact hfails
  | content stSize c =>
      obtain ⟨hroom, hend⟩ := hfits
      have hlen : (c.take (min c.length stSize)).length = min c.length stSize := by
        rw [List.length_take]
        omega
      have hwrite := write_zero (a := tmp) (c.take (min c.length stSize)) (by omega)
      refine ⟨_, bind_of_ok hwrite _ |>.trans ?_, (write_length hwrite).trans htmp, ?_⟩
      · have hall : decide (min c.length stSize = stSize) = (DtFile.content stSize c).text.isSome := by
          rw [DtFile.text]
          split_ifs with hle
          · exact decide_eq_true (min_eq_right hle)
          · exact decide_eq_false fun h => hle (min_eq_right_iff.mp h)
        rw [hall]
        rfl
      · intro ident hident
        rw [DtFile.text] at hident
        split_ifs at hident with hle
        obtain rfl := Option.some.inj hident
        rw [min_eq_right hle]
        exact ⟨fun h => by simpa using List.mem_takeWhile_imp h, stored_takeWhile (hend hle) _⟩

/-- An identifier is replaced by the name that the code has for it. -/
lemma armConvertName_stored (h : StartsWith tmp v) (htmp : tmp.length = 512) :
    ∃ d, (armConvertName tmp armCPUNames).map Prod.snd = .ok d ∧ StartsWith d (armName v)
      ∧ d.length = 512 := by
  obtain ⟨b, rfl⟩ := h.cells
  have hlen : v.length + b.length + 1 = 512 := by
    rw [← htmp]
    simp
    omega
  cases hfind : armCPUNames.find? fun row => decide (Comparable v row.1.1) with
  | none =>
      refine ⟨_, ?_, ?_, htmp⟩
      · rw [armConvertName, armFindName_stored h.text, hfind, ok_bind]
        rfl
      · rw [armName, hfind]
        exact h
  | some row =>
      have hshort : ∀ row ∈ armCPUNames, row.2.1.length = 14 := by decide
      have hrow := hshort row (List.mem_of_find?_eq_some hfind)
      have hname : armName v = row.2.1 := by rw [armName, hfind]
      rw [armConvertName_some h.text hfind, if_pos (by omega), hname]
      refine ⟨_, rfl, ⟨row.2.2, ?_⟩, ?_⟩
      · rw [stored_append, List.append_assoc]
        exact ⟨_, rfl⟩
      · simp
        omega

/-- Without a device tree the name comes from `/proc/cpuinfo`. -/
lemma armTryCpuInfo_spec (htmp : tmp.length = 512) (h : Legible s c "model name") :
    ∃ d, Settles (fun k => armTryCpuInfo s k c tmp) (.ok d)
      ∧ StartsWith d ((found s c "model name").getD (chars "Unknown")) ∧ d.length = 512 := by
  have hkey : (0 : Byte) ∉ chars "model name" := by decide
  have hne : chars "model name" ≠ [] := by decide
  cases hfound : found s c "model name" with
  | none =>
      obtain ⟨d, hd, hstart, hlen⟩ := strcpy_unknown htmp
      exact ⟨d, (findLine_none hkey hne h htmp hfound).bind (hd ▸ Settles.const _), hstart, hlen⟩
  | some v =>
      obtain ⟨d, hd, hstart, hlen⟩ := findLine_some hkey hne h htmp hfound
      exact ⟨d, hd.bind (Settles.const _), hstart, hlen⟩

/-- The name of the processor on PowerPC. -/
lemma ppcCpu_spec (hcpuName : cpuName.length = 512) (htmp : tmp.length = 512)
    (h : Legible s c "cpu") :
    ∃ ret a d, Settles (fun k => findLine s k c tmp "cpu") (.ok (ret, a)) ∧ a.length = 512
      ∧ ((if ret < 0 then CMem.strcpy cpuName (ended (chars "Unknown")) else pure cpuName)
        >>= fun cpuName => (if ret = 0 then CMem.strcpy cpuName a else pure cpuName)) = .ok d
      ∧ StartsWith d ((found s c "cpu").getD (chars "Unknown")) ∧ d.length = 512 := by
  have hkey : (0 : Byte) ∉ chars "cpu" := by decide
  have hne : chars "cpu" ≠ [] := by decide
  cases hfound : found s c "cpu" with
  | none =>
      obtain ⟨d, hd, hstart, hsize⟩ := strcpy_unknown hcpuName
      exact ⟨-1, tmp, d, findLine_none hkey hne h htmp hfound, htmp, bind_of_ok hd _, hstart, hsize⟩
  | some v =>
      obtain ⟨a, ha, hstart, hlen⟩ := findLine_some hkey hne h htmp hfound
      obtain ⟨d, hd, hcopy, hsize⟩ := hstart.strcpy (d := cpuName)
        (by rw [hcpuName, ← hlen]; exact hstart.length_lt)
      exact ⟨0, a, d, ha, hlen, hd, hcopy, hsize.trans hcpuName⟩

/-- On PowerPC the code comes to the copy of the model. -/
lemma gatherName_ppc (name : Cells) (hcpuName : cpuName.length = 512) (htmp : tmp.length = 512)
    (h : FilesLegible s c .ppc) :
    ∃ d m, StartsWith d ((found s c "cpu").getD (chars "Unknown")) ∧ d.length = 512
      ∧ StartsWith m (modelOf s c modelKeys)
      ∧ Settles (fun k => gatherName .ppc s k c cpuName tmp (some name))
        ((CMem.strcpy name m).map fun name => .inr (d, some name)) := by
  have hkeys : ∀ key ∈ modelKeys, (0 : Byte) ∉ chars key ∧ chars key ≠ [] := by decide
  obtain ⟨ret, a, d, ha, hlen, hd, hcopy, hsize⟩ := ppcCpu_spec hcpuName htmp h.1
  obtain ⟨d₁, hd₁, hd⟩ := bind_eq_ok.mp hd
  obtain ⟨m, hm, hmodel, -⟩ := ppcGetModel_spec hlen hkeys h.2
  refine ⟨d, m, hcopy, hsize, hmodel, ha.bind ?_⟩
  refine Settles.congr (hm.bind (g := fun _ m => (CMem.strcpy name m).map fun name =>
    .inr (d, some name)) (Settles.const _)) fun k => ?_
  dsimp only
  rw [bind_of_ok hd₁, bind_of_ok hd]
  refine congrArg (ppcGetModel s k c modelKeys a >>= ·) (funext fun m => ?_)
  cases CMem.strcpy name m <;> rfl

/-- What the code comes to for an architecture, if it goes on. -/
lemma gatherName_some (hcpuName : cpuName.length = 512) (htmp : tmp.length = 512)
    (hlegible : FilesLegible s c arch) (hroom : RoomFor s c name.length arch) (h : cpuOf s c arch = some v) :
    ∃ d name', Settles (fun k => gatherName arch s k c cpuName tmp (some name))
        (.ok (.inr (d, some name')))
      ∧ StartsWith d v ∧ d.length = 512 ∧ Named s c name name' arch := by
  cases arch with
  | x86 =>
      obtain ⟨a, ha, hstart, hlen⟩ := findLine_some (by decide) (by decide) hlegible htmp h
      obtain ⟨d, hd, hcopy, hsize⟩ := hstart.strcpy (d := cpuName)
        (by rw [hcpuName, ← hlen]; exact hstart.length_lt)
      refine ⟨d, name, ha.bind (Settles.congr (Settles.const _) fun k => ?_), hcopy,
        hsize.trans hcpuName, rfl⟩
      exact bind_of_ok hd _
  | ppc =>
      obtain rfl := Option.some.inj h
      obtain ⟨d, m, hcopy, hlen, hmodel, hrun⟩ := gatherName_ppc name hcpuName htmp hlegible
      obtain ⟨name', hname', hnamed, hsize⟩ := hmodel.strcpy hroom
      rw [hname'] at hrun
      exact ⟨d, name', hrun, hcopy, hlen, hnamed, hsize⟩
  | arm =>
      obtain rfl := Option.some.inj h
      obtain ⟨hfits, hlegible⟩ := hlegible
      obtain ⟨d, hread, hlen, htext⟩ := readDt_spec htmp hfits
      -- the name in `tmp`, from the device tree or from the text
      obtain ⟨a, ha, hstart, hsize⟩ : ∃ a, Settles (fun k => (if s.compatible.text.isSome then
            (armConvertName d armCPUNames).map Prod.snd else armTryCpuInfo s k c d)) (.ok a)
          ∧ StartsWith a (match s.compatible.text with
            | some ident => armName ident
            | none => (found s c "model name").getD (chars "Unknown"))
          ∧ a.length = 512 := by
        cases hident : s.compatible.text with
        | none => exact armTryCpuInfo_spec hlen (hlegible hident)
        | some ident =>
            obtain ⟨a, ha, hstart, hsize⟩ := armConvertName_stored (htext ident hident) hlen
            exact ⟨a, ha ▸ Settles.const _, hstart, hsize⟩
      obtain ⟨d', hd', hcopy, hlen'⟩ := hstart.strcpy (d := cpuName)
        (by rw [hcpuName, ← hsize]; exact hstart.length_lt)
      refine ⟨d', name, ?_, hcopy, hlen'.trans hcpuName, rfl⟩
      refine Settles.congr (ha.bind (g := fun _ tmp => CMem.strcpy cpuName tmp >>= fun cpuName =>
        pure (.inr (cpuName, some name))) ?_) fun k => bind_of_ok hread _
      exact (bind_of_ok hd' _) ▸ Settles.const _
  | other =>
      obtain rfl := Option.some.inj h
      have htext : (0 : Byte) ∉ chars "Unknown (" ++ s.native.1 ++ chars ")" := by
        simp only [List.mem_append, not_or]
        exact ⟨⟨by decide, s.native.2⟩, by decide⟩
      have hlen : (chars "Unknown (" ++ s.native.1 ++ chars ")").length = s.native.1.length + 10 := by
        simp [chars]
      have hshort : s.native.1.length ≤ 501 := hlegible
      obtain ⟨d, hd, hcopy, hsize⟩ := (startsWith_ended htext).strcpy (d := cpuName) (by omega)
      refine ⟨d, name, Settles.congr (Settles.const _) fun k => ?_, hcopy, hsize.trans hcpuName, rfl⟩
      exact bind_of_ok hd _

/-- The code gives up only on x86, without a model name in the text. -/
lemma gatherName_none (htmp : tmp.length = 512) (hlegible : FilesLegible s c arch)
    (h : cpuOf s c arch = none) :
    Settles (fun k => gatherName arch s k c cpuName tmp (some name))
      (.ok (.inl (-61, some name, some (ended (chars "Unknown"))))) := by
  cases arch with
  | x86 => exact (findLine_none (by decide) (by decide) hlegible htmp h).bind (Settles.const _)
  | ppc => simp [cpuOf] at h
  | arm => simp [cpuOf] at h
  | other => simp [cpuOf] at h

/-- There is no room for the model of a PowerPC machine. -/
lemma gatherName_noRoom (hcpuName : cpuName.length = 512) (htmp : tmp.length = 512)
    (hlegible : FilesLegible s c arch) (h : ¬ RoomFor s c name.length arch) :
    Settles (fun k => gatherName arch s k c cpuName tmp (some name)) (.error .outOfBounds) := by
  cases arch with
  | ppc =>
      obtain ⟨d, m, -, -, hmodel, hrun⟩ := gatherName_ppc name hcpuName htmp hlegible
      rwa [hmodel.strcpy_long (not_lt.mp h)] at hrun
  | x86 => exact absurd trivial h
  | arm => exact absurd trivial h
  | other => exact absurd trivial h

/-! ### The names that come out -/

lemma gatherCPUInfo_read (h : s.read = some c) (k : ℕ) (name : Option Cells) :
    linuxGatherCPUInfo arch s k name
      = gatherName arch s k c (List.replicate 512 none) (List.replicate 512 none) name
        >>= finishName s.nameMemory := by
  rw [CpuSystem.read] at h
  rw [linuxGatherCPUInfo]
  cases hfile : s.cpuinfo with
  | closed errno => simp [hfile] at h
  | readError errno => simp [hfile] at h
  | content errno c' =>
      simp only [hfile] at h
      split_ifs at h with hread
      obtain rfl := Option.some.inj h
      have hne : min c'.length (1024 * 1024) ≠ 0 := by
        have := List.length_pos_iff.mpr hread.2
        omega
      rw [if_neg (by simp [hread.1])]
      dsimp only
      rw [if_neg hne]

/-- Where the code goes on, the name comes out clean. -/
lemma finishName_stored (name : Cells) {d : Cells} (h : StartsWith d v)
    (hclock : v.head? ≠ some 0x40) :
    finishName true (.inr (d, some name)) = .ok (0, some name, some (ended (cleaned v))) := by
  obtain ⟨d', hd', hclean, -⟩ := cleanCpuName_stored h hclock
  exact (bind_of_ok hd' _).trans (bind_of_ok (copyString_stored hclean) _)

lemma finishName_halts (name : Cells) {d : Cells} (h : StartsWith d v) {memory : Bool}
    (hno : ¬ (memory = true ∧ v.head? ≠ some 0x40)) :
    ∃ e, finishName memory (.inr (d, some name)) = .error e := by
  by_cases hclock : v.head? = some 0x40
  · exact ⟨_, bind_of_error (cleanCpuName_clock h hclock) _⟩
  · obtain ⟨d', hd', hclean, -⟩ := cleanCpuName_stored h hclock
    have hmemory : memory = false := by simpa using fun hm => hno ⟨hm, hclock⟩
    rw [hmemory]
    exact ⟨_, (bind_of_ok hd' _).trans (bind_of_error (copyString_noMemory hclean) _)⟩

/-- The files name the processor `v`, there is a character before its clock, and there is memory for
its name and room for that of the machine in `n` bytes. -/
structure CpuNamed (s : CpuSystem) (c : List Byte) (arch : CpuArch) (n : ℕ) (v : List Byte) :
    Prop where
  memory : s.nameMemory = true
  room : RoomFor s c n arch
  cpu : cpuOf s c arch = some v
  clock : v.head? ≠ some 0x40

/-- Of files that it can read, the code makes the names, or it does not succeed. -/
lemma gatherCPUInfo_cases (hread : s.read = some c) (hlegible : FilesLegible s c arch)
    (name : Cells) :
    (∃ v name', CpuNamed s c arch name.length v ∧ (0 : Byte) ∉ v ∧ v.length < 512
        ∧ Settles (fun k => linuxGatherCPUInfo arch s k (some name))
          (.ok (0, some name', some (ended (cleaned v))))
        ∧ Named s c name name' arch)
      ∨ (∀ v, ¬ CpuNamed s c arch name.length v)
        ∧ ∃ r, Settles (fun k => linuxGatherCPUInfo arch s k (some name)) r
          ∧ ∀ x, r ≠ .ok (0, x) := by
  have hbuf : (List.replicate 512 (none : Option Byte)).length = 512 := List.length_replicate
  have hrun : ∀ {r}, Settles (fun k => gatherName arch s k c (List.replicate 512 none)
        (List.replicate 512 none) (some name)) r →
      Settles (fun k => linuxGatherCPUInfo arch s k (some name)) (r >>= finishName s.nameMemory) :=
    fun h => (h.map _).congr fun k => gatherCPUInfo_read hread k _
  cases hcpu : cpuOf s c arch with
  | none =>
      refine Or.inr ⟨fun v h => ?_, _, hrun (gatherName_none hbuf hlegible hcpu), fun x h => ?_⟩
      · simpa [hcpu] using h.cpu
      · simpa using congrArg Prod.fst (Except.ok.inj h)
  | some v =>
      by_cases hroom : RoomFor s c name.length arch
      · obtain ⟨d, name', hgather, hstart, hlen, hnamed⟩ :=
          gatherName_some hbuf hbuf hlegible hroom hcpu
        have hall := hrun hgather
        rw [ok_bind] at hall
        by_cases hends : s.nameMemory = true ∧ v.head? ≠ some 0x40
        · rw [hends.1, finishName_stored name' hstart hends.2] at hall
          exact Or.inl ⟨v, name', ⟨hends.1, hroom, hcpu, hends.2⟩, hstart.text,
            hlen ▸ hstart.length_lt, hall, hnamed⟩
        · obtain ⟨e, he⟩ := finishName_halts name' hstart hends
          refine Or.inr ⟨fun v' h => ?_, _, hall, fun x h => ?_⟩
          · obtain rfl := Option.some.inj (hcpu.symm.trans h.cpu)
            exact hends ⟨h.memory, h.clock⟩
          · simp [he] at h
      · refine Or.inr ⟨fun v h => hroom h.room, _, hrun (gatherName_noRoom hbuf hbuf hlegible hroom),
          fun x h => ?_⟩
        simp at h

end

/-- The line of `/proc/cpuinfo` on a machine with x86. -/
def modelLine : List Byte := chars "model name\t: Intel(R) Xeon(R) CPU E5-2680 v4 @ 2.40GHz"

/-- Such a machine, with nothing else in the file. -/
def xeon : CpuSystem where
  native := x86
  buffers := true
  cpuinfo := .content 0 (modelLine ++ [0x0A])
  lineMemory _ := true
  compatible := .closed
  nameMemory := true

lemma xeon_read : xeon.read = some (modelLine ++ [0x0A]) := by
  have hlen : (modelLine ++ [0x0A]).length ≤ 1024 * 1024 := by decide
  have htake := List.take_of_length_le hlen
  simp only [CpuSystem.read, xeon, true_and]
  rw [htake, if_pos (by decide)]

lemma xeon_legible : FilesLegible xeon (modelLine ++ [0x0A]) .x86 := by
  intro _
  have hfeed : (0x0A : Byte) ∉ modelLine := by decide
  have hzero : (0 : Byte) ∉ modelLine := by decide
  have hhit : Hit (chars "model name") modelLine := by decide
  have hfrom : ReadableFrom (chars "model name") [] (modelLine ++ [0x0A]) :=
    (readableFrom_hit hfeed hzero hhit).mpr ⟨by decide, by decide, Or.inl (by decide)⟩
  exact (readable_text (by decide)).mpr hfrom

lemma xeon_cpu : cpuOf xeon (modelLine ++ [0x0A]) .x86
    = some (chars "Intel(R) Xeon(R) CPU E5-2680 v4 @ 2.40GHz") := by
  decide

end EverythingNet
