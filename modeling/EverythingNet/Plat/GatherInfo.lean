import Mathlib.Tactic
import EverythingNet.Node.Init
import EverythingNet.Plat.Osx

/-!
The start of the program on Linux and on Mac OS X: `plat/linux/info.c`, `plat/osx/info.c`, and
`NODE_Init` on the globals that they fill.

* `linuxGatherInfo`, `osxGatherInfo`: the code, with what the operating system says of the machine in
  `LinuxSystem` and `OsxSystem`. `platInit` goes on to the graphics and the network.
  `readPlist_eq_inr` says what file the search of `osxVersion` gets.
* `platInit_started`: what a start leaves in the globals. All that comes into `NODE_LocalName` is the
  host name, with `strncpy`, and `PLAT_Info.os` has an end whatever went into it.
* `cutName_nul_iff`: when this array has an end. Without one `NODE_Init` reads on behind it
  (`nodeInitGlobals_long`), with one its entry has the name (`nodeInitGlobals_spec`).
* `exists_described`: the entry has room. `hostName_iff`: when the host name comes into it.
-/

namespace EverythingNet

open CMem

/-! ### The code -/

/-- `NODE_LocalName`, `NODE_LocalUUID` and `PLAT_Info`. A string that nobody has set is `NULL`. -/
structure Globals where
  localName : Cells
  localUuid : U64 × U64
  name : Option Cells
  os : Option Cells
  arch : Option Cells
  cpu : Option Cells
  gpu : Option Cells
  memSz : U32
  cap : U32

/-- Before the program starts: `arch` is `PLAT_STR_NATIVE`, and the seven bits of `cap` are set. -/
def Globals.start (arch : CStr) : Globals where
  localName := stored (List.replicate 64 0)
  localUuid := (0, 0)
  name := none
  os := none
  arch := some (ended arch.1)
  cpu := none
  gpu := none
  memSz := 0
  cap := 0x7F

/-- What `uname` says, on a system whose names have at most `n` bytes. -/
structure Utsname (n : ℕ) where
  nodename : CStr
  release : CStr
  nodename_le : nodename.1.length ≤ n
  release_le : release.1.length ≤ n

/-- What `malloc` gives for `PLAT_Info.os`, if there is memory. -/
def osBuf (memory : Bool) : Option Cells := if memory then some (List.replicate 128 none) else none

/-- Where the UUID comes from: the four numbers that `rand` gives on Android, and elsewhere what
`fopen` and the two calls of `fscanf` make of `/etc/machine-id`. -/
inductive UuidSource where
  | android (r : Fin 4 → U32)
  | machineId (file : Option (Option U64 × Option U64))

/-- The part of `LINUX_GatherInfo` that fills `NODE_LocalUUID`: the error, and the numbers. -/
def gatherUuid : UuidSource → U64 × U64 → ℤ × (U64 × U64)
  | .android r, _ =>
    (0, ((r 0).signExtend 64 <<< 32 + (r 1).signExtend 64,
      (r 2).signExtend 64 <<< 32 + (r 3).signExtend 64))
  -- `-ENOENT`
  | .machineId none, uuid => (-2, uuid)
  -- `-EINVAL`
  | .machineId (some (none, _)), uuid => (-22, uuid)
  | .machineId (some (some a, none)), uuid => (-22, (a, uuid.2))
  | .machineId (some (some a, some b)), _ => (0, (a, b))

/-- What the code finds on a Linux system. `LINUX_GatherDeviceInfo`, `LINUX_GatherCPUInfo` and
`LINUX_GfxInit` are given by their results: `device` and `cpu` say what they return and what they make
of `PLAT_Info.name` and `PLAT_Info.cpu`, `gfx` what becomes of `PLAT_Info.gpu` and `PLAT_Info.cap`.
`net` says whether `POSIX_NetInit` returns: it can exit, and it can go round for ever, which no fuel is
enough for. -/
structure LinuxSystem where
  device : Except Halt (ℤ × Option Cells)
  physPages : ℤ
  pageSize : ℤ
  uts : Utsname 64
  osMemory : Bool
  uuid : UuidSource
  cpu : Option Cells → Except Halt (ℤ × Option Cells × Option Cells)
  gfx : U32 → Except Halt (Option Cells × U32)
  net : Except Halt Unit

/-- What `LINUX_GatherInfo` makes of `PLAT_Info.os` and `NODE_LocalName`. -/
def linuxNames (uts : Utsname 64) (os localName : Cells) : Except Halt (Cells × Cells) := do
  let os ← CMem.strcpy os (ended (chars "Linux "))
  let os ← strncat os (ended uts.release.1) (128 - 7)
  let localName ← strncpy localName (ended uts.nodename.1) 64
  return (os, localName)

/-- `LINUX_GatherInfo`. -/
def linuxGatherInfo (s : LinuxSystem) (g : Globals) : Except Halt (ℤ × Globals) := do
  let (ret, name) ← s.device
  let g := { g with name := name }
  if ret ≠ 0 then return (ret, g)
  let g := { g with memSz := BitVec.ofInt 32 (s.physPages * s.pageSize.tdiv 1024) }
  match osBuf s.osMemory with
  -- `-ENOMEM`
  | none => return (-12, { g with os := none })
  | some os =>
    let (os, localName) ← linuxNames s.uts os g.localName
    let (ret, uuid) := gatherUuid s.uuid g.localUuid
    let g := { g with os := some os, localName := localName, localUuid := uuid }
    if ret ≠ 0 then return (ret, g)
    let (ret, name, cpu) ← s.cpu g.name
    return (ret, { g with name := name, cpu := cpu })

/-- What comes of opening `SystemVersion.plist`, of `fstat`, of the `malloc` for its content and of
reading it: `st_size` and the file, and the address `p` of the buffer. -/
inductive PlistFile (w : ℕ) where
  | closed
  | noStat
  | noMemory
  | readError
  | content (p : BitVec w) (stSize : ℕ) (c : List Byte)

/-- The part of `OSX_GatherInfo` that fills `buf`, or the error. What `read` returns is an `int`. -/
def readPlist {w : ℕ} : PlistFile w → ℤ ⊕ (BitVec w × Cells)
  -- `-ENOENT`
  | .closed => .inl (-2)
  | .noStat => .inl (-2)
  -- `-ENOMEM`
  | .noMemory => .inl (-12)
  | .readError => .inl (-12)
  | .content p stSize c =>
    let n := min c.length stSize
    let ret : U32 := BitVec.ofNat 32 n
    if ret.toInt ≠ stSize then .inl (-12)
    else .inr (p, stored (c.take n ++ List.replicate (stSize + 1 - n) 0))

/-- What the code finds on a Mac OS X system. `OSX_GatherDeviceInfo`, `OSX_GatherCPUInfo` and
`POSIX_NetInit` are given by their results, as in `LinuxSystem`. `memSize` is `HW_MEMSIZE`. -/
structure OsxSystem (w : ℕ) where
  device : Except Halt (ℤ × Option Cells)
  memSize : Option U64
  uts : Utsname 255
  osMemory : Bool
  plist : PlistFile w
  cpu : Except Halt (ℤ × Option Cells)
  net : Except Halt Unit

/-- The GPU on Mac OS X. -/
def osxGpu : CStr := ⟨chars "[Can't get GPU info on OSX]", by decide⟩

/-- What `OSX_GatherInfo` does once it has read the file. -/
def osxNames {w : ℕ} (s : OsxSystem w) (p : BitVec w) (buf : Cells) (g : Globals) :
    Except Halt (ℤ × Globals) := do
  let version ← osxVersion p buf s.uts.release
  let localName ← strncpy g.localName (ended s.uts.nodename.1) 64
  let (ret, cpu) ← s.cpu
  let g := { g with os := some version.os, localName := localName, cpu := cpu }
  if ret ≠ 0 then return (ret, g)
  return (0, { g with gpu := some (ended osxGpu.1) })

/-- `OSX_GatherInfo`. -/
def osxGatherInfo {w : ℕ} (s : OsxSystem w) (g : Globals) : Except Halt (ℤ × Globals) := do
  let (ret, name) ← s.device
  let g := { g with name := name }
  if ret ≠ 0 then return (ret, g)
  match s.memSize with
  -- `-ENOSYS`
  | none => return (-78, g)
  | some ramBytes =>
    let g := { g with memSz := (ramBytes / 1024).setWidth 32 }
    match osBuf s.osMemory with
    -- `-ENOMEM`
    | none => return (-12, { g with os := none })
    | some os =>
      let g := { g with os := some os }
      match readPlist s.plist with
      | .inl ret => return (ret, g)
      | .inr (p, buf) => osxNames s p buf g

/-- The systems on which `GatherInfo` asks for the host name. -/
inductive Platform (w : ℕ) where
  | linux (s : LinuxSystem)
  | osx (s : OsxSystem w)

/-- `utsname.nodename`. -/
def Platform.nodename {w : ℕ} : Platform w → CStr
  | .linux s => s.uts.nodename
  | .osx s => s.uts.nodename

/-- `PLAT_Init`. -/
def platInit {w : ℕ} : Platform w → Globals → Except Halt (ℤ × Globals)
  | .linux s, g => do
    let (ret, g) ← linuxGatherInfo s g
    if ret ≠ 0 then return (ret, g)
    let (gpu, cap) ← s.gfx g.cap
    s.net
    return (0, { g with gpu := gpu, cap := cap })
  | .osx s, g => do
    let (ret, g) ← osxGatherInfo s g
    if ret ≠ 0 then return (ret, g)
    s.net
    return (0, g)

/-- The string that a pointer points to. -/
def pointee : Option Cells → Except Halt CStr
  | none => .error .nullPointer
  | some a => readStr a

/-- What `NODE_Init` copies into the local entry. -/
def localFields (g : Globals) : Except Halt LocalFields := do
  let name ← readStr g.localName
  let platName ← pointee g.name
  let os ← pointee g.os
  let arch ← pointee g.arch
  let cpu ← pointee g.cpu
  let gpu ← pointee g.gpu
  return ⟨name, g.localUuid, g.cap, g.memSz, platName, os, arch, cpu, gpu⟩

/-- `NODE_Init` on the globals. A run that gets by its copies has read all their strings. -/
def nodeInitGlobals (t : Target) (m : Malloc t.bits) (k : ℕ) (g : Globals) :
    Except Halt (NodeState t.bits) :=
  match m.malloc k (8 + 4096) with
  | none => .error (.exited 1)
  | some _ => do
    let i ← localFields g
    nodeInit t m k i

/-! ### What the local entry is to say -/

/-- What a host name fills `NODE_LocalName` with. -/
def cutName (nodename : CStr) : List Byte :=
  nodename.1.take 64 ++ List.replicate (64 - nodename.1.length) 0

/-- The local entry `i` says what the globals say, and its name is the host name as far as there is
room for it. -/
structure Described (nodename : CStr) (g : Globals) (i : LocalInfo) : Prop where
  name : i.name.1 = nodename.1.take 63
  uuid : i.uuid = g.localUuid
  cap : i.cap = g.cap
  memSz : i.memSz = g.memSz
  platName : pointee g.name = .ok i.platName
  os : pointee g.os = .ok i.os
  arch : pointee g.arch = .ok i.arch
  cpu : pointee g.cpu = .ok i.cpu
  gpu : pointee g.gpu = .ok i.gpu

/-- The host name has come into the local entry: there is a zero byte in `NODE_LocalName`, and
`NODE_Init` makes the list of an entry that says nothing else, in which `ENTRY_NODE_NAME` finds it. -/
structure HostNamed (t : Target) (m : Malloc t.bits) (k : ℕ) (nodename : CStr) (g : Globals) :
    Prop where
  nul : ∃ j < 64, g.localName[j]? = some (some 0)
  entry : ∃ i st, Described nodename g i ∧ nodeInitGlobals t m k g = .ok st
    ∧ Holds t st.nodeList evrnetNodelistV1 [i.entry]
    ∧ st.nodeList.cstr (entryNodeName (nlEntries st.nl)).toNat = .ok (nodename.1.take 63)

/-! ### What a start leaves in the globals -/

/-- A successful start has copied the host name to `NODE_LocalName`, has given the operating system a
name and has left that of the architecture as it was. -/
structure Started (nodename : CStr) (g g' : Globals) : Prop where
  localName : strncpy g.localName (ended nodename.1) 64 = .ok g'.localName
  os : ∃ s : CStr, pointee g'.os = .ok s ∧ s.1.length ≤ 127
  arch : g'.arch = g.arch

section

variable {w : ℕ} {g g' : Globals} {a os : Cells} {ret : ℤ}

lemma pointee_ended (s : CStr) : pointee (some (ended s.1)) = .ok s :=
  readStr_eq_ok.mpr (strText_ended s.2)

/-- A string in an array of 128 bytes. -/
lemma pointee_os (hlen : os.length = 128) {l : List Byte} (hos : strText os = .ok l) :
    ∃ s : CStr, pointee (some os) = .ok s ∧ s.1.length ≤ 127 := by
  obtain ⟨h0, b, rfl⟩ := strText_eq_ok hos
  refine ⟨⟨l, h0⟩, readStr_eq_ok.mpr hos, ?_⟩
  rw [List.length_append, stored_length, List.length_cons] at hlen
  show l.length ≤ 127
  omega

lemma strcpy_length {src a' : Cells} (h : CMem.strcpy a src = .ok a') : a'.length = a.length := by
  obtain ⟨s, -, h⟩ := bind_eq_ok.mp h
  exact write_length h

/-- A run that returns 0 has got by the check of a result. -/
lemma ok_of_check {x : Except Halt (ℤ × Globals)}
    (h : (if ret ≠ 0 then pure (ret, g) else x) = .ok (0, g')) : ret = 0 ∧ x = .ok (0, g') := by
  by_cases hret : ret ≠ 0
  · rw [if_pos hret] at h
    exact absurd (Prod.mk.inj (Except.ok.inj h)).1 hret
  · rw [if_neg hret] at h
    exact ⟨not_not.mp hret, h⟩

lemma linuxNames_spec {uts : Utsname 64} {os' a' : Cells} (hsize : os.length = 128)
    (h : linuxNames uts os a = .ok (os', a')) :
    strncpy a (ended uts.nodename.1) 64 = .ok a'
      ∧ ∃ s : CStr, pointee (some os') = .ok s ∧ s.1.length ≤ 127 := by
  obtain ⟨os₁, hcopy, h⟩ := bind_eq_ok.mp h
  obtain ⟨os₂, hcat, h⟩ := bind_eq_ok.mp h
  obtain ⟨a₁, ha, h⟩ := bind_eq_ok.mp h
  obtain ⟨rfl, rfl⟩ := Prod.mk.inj (Except.ok.inj h)
  obtain ⟨hlen, l, hl⟩ := strncat_eq_ok hcat
  exact ⟨ha, pointee_os (hlen.trans ((strcpy_length hcopy).trans hsize)) hl⟩

lemma osBuf_length {memory : Bool} (h : osBuf memory = some os) : os.length = 128 := by
  cases memory with
  | false => simp [osBuf] at h
  | true =>
      obtain rfl := Option.some.inj h
      exact List.length_replicate

lemma linuxGatherInfo_started {s : LinuxSystem} (h : linuxGatherInfo s g = .ok (0, g')) :
    Started s.uts.nodename g g' := by
  obtain ⟨⟨ret, name⟩, -, h⟩ := bind_eq_ok.mp h
  obtain ⟨-, h⟩ := ok_of_check h
  cases hos : osBuf s.osMemory with
  | none => simp [hos] at h
  | some os =>
      rw [hos] at h
      obtain ⟨⟨os', a'⟩, hnames, h⟩ := bind_eq_ok.mp h
      obtain ⟨ha, hos'⟩ := linuxNames_spec (osBuf_length hos) hnames
      obtain ⟨-, h⟩ := ok_of_check h
      obtain ⟨⟨ret', name', cpu⟩, -, h⟩ := bind_eq_ok.mp h
      obtain ⟨-, rfl⟩ := Prod.mk.inj (Except.ok.inj h)
      exact ⟨ha, hos', rfl⟩

lemma catOs_spec {src os' : Cells} (h : catOs os src = .ok os') :
    os'.length = os.length ∧ ∃ l, strText os' = .ok l := by
  obtain ⟨n, -, h⟩ := bind_eq_ok.mp h
  exact strncat_eq_ok h

/-- The name of the operating system has an end, whatever goes into it. -/
lemma joinOs_spec {productName productVersion : Cells} {release : CStr}
    (h : joinOs productName productVersion release = .ok os) :
    ∃ s : CStr, pointee (some os) = .ok s ∧ s.1.length ≤ 127 := by
  obtain ⟨os₁, h₁, h⟩ := bind_eq_ok.mp h
  obtain ⟨os₂, h₂, h⟩ := bind_eq_ok.mp h
  obtain ⟨os₃, h₃, h⟩ := bind_eq_ok.mp h
  obtain ⟨os₄, h₄, h⟩ := bind_eq_ok.mp h
  obtain ⟨hlen, l, hl⟩ := catOs_spec h
  have hsize : os.length = 128 :=
    calc os.length = os₄.length := hlen
      _ = os₃.length := (catOs_spec h₄).1
      _ = os₂.length := (catOs_spec h₃).1
      _ = os₁.length := (catOs_spec h₂).1
      _ = 128 := (strcpy_length h₁).trans List.length_replicate
  exact pointee_os hsize hl

lemma osxNames_started {s : OsxSystem w} {p : BitVec w} {buf : Cells}
    (h : osxNames s p buf g = .ok (0, g')) : Started s.uts.nodename g g' := by
  obtain ⟨version, hversion, h⟩ := bind_eq_ok.mp h
  obtain ⟨productName, -, hversion⟩ := bind_eq_ok.mp hversion
  obtain ⟨names, -, hversion⟩ := bind_eq_ok.mp hversion
  obtain ⟨os, hjoin, hversion⟩ := bind_eq_ok.mp hversion
  obtain rfl := Except.ok.inj hversion
  obtain ⟨a', ha, h⟩ := bind_eq_ok.mp h
  obtain ⟨⟨ret', cpu⟩, -, h⟩ := bind_eq_ok.mp h
  obtain ⟨-, h⟩ := ok_of_check h
  obtain ⟨-, rfl⟩ := Prod.mk.inj (Except.ok.inj h)
  exact ⟨ha, joinOs_spec hjoin, rfl⟩

/-- What `read` returns is not cut short by its type. -/
lemma toInt_ofNat_eq_iff {n k : ℕ} (hle : n ≤ k) :
    (BitVec.ofNat 32 n).toInt = k ↔ n = k ∧ k < 2 ^ 31 := by
  rw [BitVec.toInt_eq_toNat_bmod, BitVec.toNat_ofNat, Int.bmod_def]
  constructor
  · intro h
    split_ifs at h <;> omega
  · rintro ⟨rfl, h⟩
    split_ifs <;> omega

/-- A file that is taken is read as far as `st_size` says, and has a zero byte behind it. -/
lemma readPlist_eq_inr {f : PlistFile w} {p : BitVec w} {buf : Cells} :
    readPlist f = .inr (p, buf) ↔ ∃ stSize c, f = .content p stSize c ∧ stSize ≤ c.length
      ∧ stSize < 2 ^ 31 ∧ buf = ended (c.take stSize) := by
  cases f with
  | content q stSize c =>
      have hret := toInt_ofNat_eq_iff (min_le_right c.length stSize)
      rw [readPlist]
      by_cases hall : min c.length stSize = stSize ∧ stSize < 2 ^ 31
      · have hbuf : stored (c.take (min c.length stSize)
            ++ List.replicate (stSize + 1 - min c.length stSize) 0) = ended (c.take stSize) := by
          rw [hall.1, Nat.add_sub_cancel_left, stored_append]
          rfl
        rw [if_neg (not_not.mpr (hret.mpr hall)), hbuf]
        constructor
        · intro h
          obtain ⟨rfl, rfl⟩ := Prod.mk.inj (Sum.inr.inj h)
          exact ⟨stSize, c, rfl, min_eq_right_iff.mp hall.1, hall.2, rfl⟩
        · rintro ⟨stSize', c', hf, -, -, rfl⟩
          obtain ⟨rfl, rfl, rfl⟩ := PlistFile.content.inj hf
          rfl
      · rw [if_pos fun h => hall (hret.mp h)]
        refine iff_of_false (by simp) ?_
        rintro ⟨stSize', c', hf, hle, hlt, -⟩
        obtain ⟨rfl, rfl, rfl⟩ := PlistFile.content.inj hf
        exact hall ⟨min_eq_right hle, hlt⟩
  | closed => simp [readPlist]
  | noStat => simp [readPlist]
  | noMemory => simp [readPlist]
  | readError => simp [readPlist]

/-- An error of `readPlist` is not 0. -/
lemma readPlist_error {f : PlistFile w} (h : readPlist f = .inl ret) : ret ≠ 0 := by
  rintro rfl
  cases f with
  | content p stSize c =>
      rw [readPlist] at h
      split_ifs at h
      simp at h
  | closed => simp [readPlist] at h
  | noStat => simp [readPlist] at h
  | noMemory => simp [readPlist] at h
  | readError => simp [readPlist] at h

lemma osxGatherInfo_started {s : OsxSystem w} (h : osxGatherInfo s g = .ok (0, g')) :
    Started s.uts.nodename g g' := by
  obtain ⟨⟨ret, name⟩, -, h⟩ := bind_eq_ok.mp h
  obtain ⟨-, h⟩ := ok_of_check h
  cases hmem : s.memSize with
  | none => simp [hmem] at h
  | some ramBytes =>
      rw [hmem] at h
      dsimp only at h
      cases hos : osBuf s.osMemory with
      | none => simp [hos] at h
      | some os =>
          rw [hos] at h
          dsimp only at h
          cases hfile : readPlist s.plist with
          | inl e =>
              rw [hfile] at h
              exact absurd (Prod.mk.inj (Except.ok.inj h)).1 (readPlist_error hfile)
          | inr file =>
              rw [hfile] at h
              obtain ⟨ha, hname, harch⟩ := osxNames_started h
              exact ⟨ha, hname, harch⟩

/-- What a start leaves in the globals. -/
lemma platInit_started {p : Platform w} (h : platInit p g = .ok (0, g')) :
    Started p.nodename g g' := by
  cases p with
  | osx s =>
      obtain ⟨⟨ret, g₁⟩, hgather, h⟩ := bind_eq_ok.mp h
      obtain ⟨rfl, h⟩ := ok_of_check h
      obtain ⟨-, -, h⟩ := bind_eq_ok.mp h
      obtain ⟨-, rfl⟩ := Prod.mk.inj (Except.ok.inj h)
      exact osxGatherInfo_started hgather
  | linux s =>
      obtain ⟨⟨ret, g₁⟩, hgather, h⟩ := bind_eq_ok.mp h
      obtain ⟨rfl, h⟩ := ok_of_check h
      obtain ⟨⟨gpu, cap⟩, -, h⟩ := bind_eq_ok.mp h
      obtain ⟨-, -, h⟩ := bind_eq_ok.mp h
      obtain ⟨-, rfl⟩ := Prod.mk.inj (Except.ok.inj h)
      obtain ⟨ha, hos, harch⟩ := linuxGatherInfo_started hgather
      exact ⟨ha, hos, harch⟩

end

/-! ### The host name in the local entry -/

section

variable {nodename : CStr} {g : Globals} {i : LocalInfo}

lemma cutName_length (nodename : CStr) : (cutName nodename).length = 64 := by
  rw [cutName, List.length_append, List.length_take, List.length_replicate]
  omega

/-- The array has an end just if there is room for one behind the name. -/
lemma zero_mem_cutName : (0 : Byte) ∈ cutName nodename ↔ nodename.1.length ≤ 63 := by
  have htake : (0 : Byte) ∉ nodename.1.take 64 := fun h => nodename.2 (List.mem_of_mem_take h)
  rw [cutName, List.mem_append, or_iff_right htake, List.mem_replicate, and_iff_left rfl]
  omega

lemma cutName_nul_iff :
    (∃ j < 64, (stored (cutName nodename))[j]? = some (some 0)) ↔ nodename.1.length ≤ 63 := by
  rw [← zero_mem_cutName, List.mem_iff_getElem?]
  constructor
  · rintro ⟨j, -, hj⟩
    rw [stored, List.getElem?_map, Option.map_eq_some_iff] at hj
    obtain ⟨b, hb, hb0⟩ := hj
    exact ⟨j, Option.some.inj hb0 ▸ hb⟩
  · rintro ⟨j, hj⟩
    obtain ⟨hlt, -⟩ := List.getElem?_eq_some_iff.mp hj
    rw [cutName_length] at hlt
    exact ⟨j, hlt, by rw [stored, List.getElem?_map, hj]; rfl⟩

/-- With an end in it the array reads as the host name. -/
lemma strText_cutName (h : nodename.1.length ≤ 63) :
    strText (stored (cutName nodename)) = .ok nodename.1 := by
  refine strText_stored_iff.mpr ⟨zero_mem_cutName.mpr h, ?_⟩
  rw [cutName, List.take_of_length_le (by omega), takeWhile_padded, takeWhile_unended nodename.2]

/-- The paddings are short. -/
lemma blank_length_lt (name : CStr) : (blank name somever).length < name.1.length + 60 := by
  have hnamePad : (blank name somever).namePad.length < 4 := by
    rw [blank, List.length_replicate]
    exact pad_lt (by norm_num) _
  have hipsPad : (blank name somever).ipsPad.length < 8 := by
    rw [blank, List.length_replicate]
    exact pad_lt (by norm_num) _
  have hverPad : (blank name somever).verPad.length < 4 := by
    rw [blank, List.length_replicate]
    exact pad_lt (by norm_num) _
  have hname : (blank name somever).name = name.1 := rfl
  have hver : (blank name somever).ver.length = 7 := rfl
  have hnum : (blank name somever).numIp.toNat = 0 := rfl
  simp only [Shape.length, Shape.capOff, Shape.verOff, Shape.uuidOff, Shape.ipsOff, hname, hver, hnum]
  omega

/-- The entry has room if no string is longer than the arrays it is put together in. -/
lemma fields_length_le (i : LocalFields) (hname : i.name.1.length ≤ 63)
    (hstrs : ∀ s ∈ i.strs, s.1.length ≤ 511) : i.fields.length ≤ 4096 := by
  have hflat : (flat i.strs).length ≤ 5 * 512 := by
    have hall : ∀ n ∈ i.strs.map fun s => (s.1 ++ [0]).length, n ≤ 512 := by
      intro n hn
      obtain ⟨s, hs, rfl⟩ := List.mem_map.mp hn
      rw [List.length_append]
      exact Nat.succ_le_succ (hstrs s hs)
    have hsum := List.sum_le_card_nsmul _ 512 hall
    rwa [← List.length_flatMap, List.length_map] at hsum
  have hblank := blank_length_lt i.name
  have hpad := pad_lt (show 0 < 8 by norm_num) i.used
  have hused : i.used = (blank i.name somever).length + (flat i.strs).length := rfl
  rw [LocalFields.fields_length]
  omega

/-- What a start leaves in `NODE_LocalName`. -/
lemma platInit_cutName {w : ℕ} {p : Platform w} {arch : CStr}
    (h : platInit p (.start arch) = .ok (0, g)) : g.localName = stored (cutName p.nodename) := by
  have hcopy := (platInit_started h).localName
  rw [Globals.start, strncpy_stored p.nodename.2 (by rw [stored_length, List.length_replicate])]
    at hcopy
  exact (Except.ok.inj hcopy).symm

/-- Where the device, the CPU and the GPU have names with an end, in arrays as short as those of the code,
there is an entry that says what the globals say. -/
lemma exists_described {w : ℕ} {p : Platform w} {arch name cpu gpu : CStr}
    (hrun : platInit p (.start arch) = .ok (0, g)) (hname : pointee g.name = .ok name)
    (hcpu : pointee g.cpu = .ok cpu) (hgpu : pointee g.gpu = .ok gpu)
    (hlen : ∀ s ∈ [name, arch, cpu, gpu], s.1.length ≤ 511) : ∃ i, Described p.nodename g i := by
  obtain ⟨-, ⟨os, hos, hosLen⟩, harch⟩ := platInit_started hrun
  have harch' : pointee g.arch = .ok arch := by
    rw [harch]
    exact pointee_ended arch
  have hcut : (0 : Byte) ∉ p.nodename.1.take 63 := fun h => p.nodename.2 (List.mem_of_mem_take h)
  have hfits := fields_length_le
    ⟨⟨_, hcut⟩, g.localUuid, g.cap, g.memSz, name, os, arch, cpu, gpu⟩ (List.length_take_le _ _)
    (by
      simp only [List.mem_cons, List.not_mem_nil, or_false, forall_eq_or_imp, forall_eq] at hlen
      simp only [LocalFields.strs, List.mem_cons, List.not_mem_nil, or_false, forall_eq_or_imp,
        forall_eq]
      exact ⟨hlen.1, hosLen.trans (by norm_num), hlen.2⟩)
  exact ⟨⟨_, hfits⟩, rfl, rfl, rfl, rfl, hname, hos, harch', hcpu, hgpu⟩

/-- The strings are those of the local entry. -/
lemma localFields_eq (hi : Described nodename g i) (hname : g.localName = stored (cutName nodename))
    (hlen : nodename.1.length ≤ 63) : localFields g = .ok i.toLocalFields := by
  have hread : readStr g.localName = .ok i.name := by
    rw [readStr_eq_ok, hname, hi.name, List.take_of_length_le hlen]
    exact strText_cutName hlen
  rw [localFields, hread, ok_bind, hi.platName, ok_bind, hi.os, ok_bind, hi.arch, ok_bind, hi.cpu,
    ok_bind, hi.gpu, ok_bind, ← hi.uuid, ← hi.cap, ← hi.memSz]
  rfl

section

variable {t : Target} {m : Malloc t.bits}

/-- `NODE_Init` makes the entry that the globals describe. -/
lemma nodeInitGlobals_spec (hlim : 8 + 4096 ≤ m.limit) (k : ℕ) (hi : Described nodename g i)
    (hname : g.localName = stored (cutName nodename)) (hlen : nodename.1.length ≤ 63) :
    ∃ st, nodeInitGlobals t m k g = .ok st ∧ Holds t st.nodeList evrnetNodelistV1 [i.entry]
      ∧ st.nodeList.cstr (entryNodeName (nlEntries st.nl)).toNat = .ok (nodename.1.take 63) := by
  obtain ⟨b, hb, hinit⟩ := nodeInit_spec (k := k) i hlim
  have hsits : Sits t.endian b (nlEntries (BitVec.ofNat t.bits b.base)) i.entry :=
    hb.sits_at (show [i.entry] = [] ++ i.entry :: [] from rfl)
      (by rw [hb.toNat_entries, total_nil, Nat.add_zero])
  refine ⟨⟨b, .unset, none, k + 2, []⟩, ?_, hb, ?_⟩
  · rw [nodeInitGlobals, Malloc.malloc, if_pos hlim]
    dsimp only
    rw [localFields_eq hi hname hlen, ok_bind, hinit]
  · rw [hsits.cstr_name, ← hi.name]
    rfl

/-- Behind a host name that fills the array `NODE_Init` reads on. -/
lemma nodeInitGlobals_long (hlim : 8 + 4096 ≤ m.limit) (k : ℕ)
    (hname : g.localName = stored (cutName nodename)) (hlen : 63 < nodename.1.length) :
    nodeInitGlobals t m k g = .error .outOfBounds := by
  have hread : strText g.localName = .error .outOfBounds := by
    rw [hname]
    exact strText_unended fun h => absurd (zero_mem_cutName.mp h) (by omega)
  have hfields : localFields g = .error .outOfBounds :=
    bind_of_error (readStr_eq_error hread) _
  rw [nodeInitGlobals, Malloc.malloc, if_pos hlim]
  exact bind_of_error hfields _

/-- A start that succeeds brings the host name into the local entry just if it leaves room for a zero
byte in its array, and the strings of `PLAT_Info` have an end and their entry room in its buffer. -/
theorem hostName_iff (hlim : 8 + 4096 ≤ m.limit) (k : ℕ) (p : Platform t.bits) {arch : CStr}
    (hrun : platInit p (.start arch) = .ok (0, g)) :
    HostNamed t m k p.nodename g
      ↔ p.nodename.1.length ≤ 63 ∧ ∃ i, Described p.nodename g i := by
  have hname := platInit_cutName hrun
  have hnul := @cutName_nul_iff p.nodename
  rw [← hname] at hnul
  constructor
  · rintro ⟨h0, i, st, hi, -⟩
    exact ⟨hnul.mp h0, i, hi⟩
  · rintro ⟨hlen, i, hi⟩
    obtain ⟨st, hst⟩ := nodeInitGlobals_spec hlim k hi hname hlen
    exact ⟨hnul.mpr hlen, i, st, hi, hst⟩

end

end

/-- On Linux the strings are copied whatever the host name is, and nobody notices one that is too long. -/
lemma linuxNames_total (uts : Utsname 64) :
    ∃ r, linuxNames uts (List.replicate 128 none) (stored (List.replicate 64 0)) = .ok r := by
  have hlinux : (chars "Linux ").length = 6 := rfl
  have hrelease := uts.release_le
  obtain ⟨rest, hrest⟩ : ∃ rest : Cells, rest = (List.replicate 128 none).drop
      ((chars "Linux ").length + 1) := ⟨_, rfl⟩
  have hsize : rest.length = 121 := by
    rw [hrest, List.length_drop, List.length_replicate, hlinux]
  have hcopy : CMem.strcpy (List.replicate 128 none) (ended (chars "Linux "))
      = .ok (stored (chars "Linux ") ++ some 0 :: rest) := by
    rw [hrest, strcpy_stored (by decide) (by rw [List.length_replicate, hlinux]; norm_num),
      stored_append, List.append_assoc]
    rfl
  have hcat : ∃ os, strncat (stored (chars "Linux ") ++ some 0 :: rest) (ended uts.release.1)
      (128 - 7) = .ok os := ⟨_, strncat_stored (by decide) uts.release.2 (by omega) (by omega)⟩
  have hname : ∃ a, strncpy (stored (List.replicate 64 0)) (ended uts.nodename.1) 64 = .ok a :=
    ⟨_, strncpy_stored uts.nodename.2 (by rw [stored_length, List.length_replicate])⟩
  obtain ⟨os, hos⟩ := hcat
  obtain ⟨a, ha⟩ := hname
  exact ⟨_, (bind_of_ok hcopy _).trans ((bind_of_ok hos _).trans (bind_of_ok ha _))⟩

/-- The names that a machine gives. -/
def genericPc : CStr := ⟨chars "Generic PC", by decide⟩

def genericCpu : CStr := ⟨chars "Generic CPU", by decide⟩

def headless : CStr := ⟨chars "None (headless)", by decide⟩

def x86 : CStr := ⟨chars "x86_64", by decide⟩

/-- A machine with Linux. -/
def generic (uts : Utsname 64) : LinuxSystem where
  device := .ok (0, some (ended genericPc.1))
  physPages := 2 ^ 20
  pageSize := 4096
  uts := uts
  osMemory := true
  uuid := .machineId (some (some 1, some 2))
  cpu name := .ok (0, name, some (ended genericCpu.1))
  gfx cap := .ok (some (ended headless.1), cap)
  net := .ok ()

/-- It starts whatever its host name is. -/
lemma platInit_generic {w : ℕ} (uts : Utsname 64) :
    ∃ g, platInit (w := w) (.linux (generic uts)) (.start x86) = .ok (0, g)
      ∧ g.name = some (ended genericPc.1) ∧ g.cpu = some (ended genericCpu.1)
      ∧ g.gpu = some (ended headless.1) := by
  obtain ⟨⟨os, a⟩, hr⟩ := linuxNames_total uts
  have hgather : ∃ g, linuxGatherInfo (generic uts) (.start x86) = .ok (0, g)
      ∧ g.name = some (ended genericPc.1) ∧ g.cpu = some (ended genericCpu.1) := by
    simp only [linuxGatherInfo, generic, osBuf, gatherUuid, Globals.start, ok_bind, pure_eq_ok, ne_eq,
      not_true_eq_false, if_false, if_true]
    exact ⟨_, bind_of_ok hr _, rfl, rfl⟩
  obtain ⟨g, hg, hname, hcpu⟩ := hgather
  exact ⟨_, bind_of_ok hg _, hname, hcpu, rfl⟩

/-- A machine with Mac OS X. -/
def imac (uts : Utsname 255) : OsxSystem 64 where
  device := .ok (0, some (ended genericPc.1))
  memSize := some 0x100000000
  uts := uts
  osMemory := true
  plist := .content 0x1000 leopard.length leopard
  cpu := .ok (0, some (ended genericCpu.1))
  net := .ok ()

lemma leopard_parsed : (osxVersion (0x1000 : BitVec 64) (ended leopard) darwin).isOk = true := by
  decide +kernel

/-- It starts as well. -/
lemma platInit_imac {uts : Utsname 255} (huts : uts.release = darwin) :
    ∃ g, platInit (.osx (imac uts)) (.start x86) = .ok (0, g)
      ∧ g.name = some (ended genericPc.1) ∧ g.cpu = some (ended genericCpu.1)
      ∧ g.gpu = some (ended osxGpu.1) := by
  have hfile : readPlist (.content (0x1000 : BitVec 64) leopard.length leopard)
      = .inr (0x1000, ended leopard) :=
    readPlist_eq_inr.mpr ⟨_, _, rfl, le_rfl, by decide, by rw [List.take_length]⟩
  have hname : ∃ a, strncpy (stored (List.replicate 64 0)) (ended uts.nodename.1) 64 = .ok a :=
    ⟨_, strncpy_stored uts.nodename.2 (by rw [stored_length, List.length_replicate])⟩
  obtain ⟨a, ha⟩ := hname
  cases hversion : osxVersion (0x1000 : BitVec 64) (ended leopard) darwin with
  | error e =>
      have := leopard_parsed
      rw [hversion] at this
      simp [Except.isOk, Except.toBool] at this
  | ok version =>
      rw [← huts] at hversion
      have hgather : ∃ g, osxGatherInfo (imac uts) (.start x86) = .ok (0, g)
          ∧ g.name = some (ended genericPc.1) ∧ g.cpu = some (ended genericCpu.1)
          ∧ g.gpu = some (ended osxGpu.1) := by
        simp only [osxGatherInfo, imac, osBuf, Globals.start, ok_bind, ne_eq, not_true_eq_false,
          if_false, if_true, hfile]
        exact ⟨_, (bind_of_ok hversion _).trans (bind_of_ok ha _), rfl, rfl, rfl⟩
      obtain ⟨g, hg, hstrs⟩ := hgather
      exact ⟨g, bind_of_ok hg _, hstrs⟩

/-- A host name of `n` letters. -/
def letters (l n : ℕ) (hn : n ≤ l) (hl : 5 ≤ l) : Utsname l where
  nodename := ⟨List.replicate n 0x61, by simp⟩
  release := darwin
  nodename_le := hn.trans' List.length_replicate.le
  release_le := hl

/-- A host name that fits, on both systems. -/
theorem hostName_iff_letters :
    (∃ g, @platInit 64 (.linux (generic (letters 64 63 (by decide) (by decide)))) (.start x86)
        = .ok (0, g)
      ∧ HostNamed .linux64 .spread 0 (letters 64 63 (by decide) (by decide)).nodename g)
    ∧ ∃ g, platInit (.osx (imac (letters 255 63 (by decide) (by decide)))) (.start x86) = .ok (0, g)
      ∧ HostNamed .linux64 .spread 0 (letters 255 63 (by decide) (by decide)).nodename g := by
  have hlim : 8 + 4096 ≤ Malloc.spread.limit := by decide
  constructor
  · obtain ⟨g, hrun, hname, hcpu, hgpu⟩ := @platInit_generic 64 (letters 64 63 (by decide) (by decide))
    have hdescribed := exists_described hrun (hname ▸ pointee_ended genericPc)
      (hcpu ▸ pointee_ended genericCpu) (hgpu ▸ pointee_ended headless) (by decide)
    exact ⟨g, hrun, (hostName_iff (t := .linux64) hlim 0 _ hrun).mpr
      ⟨List.length_replicate.le, hdescribed⟩⟩
  · obtain ⟨g, hrun, hname, hcpu, hgpu⟩ := @platInit_imac (letters 255 63 (by decide) (by decide)) rfl
    have hdescribed := exists_described hrun (hname ▸ pointee_ended genericPc)
      (hcpu ▸ pointee_ended genericCpu) (hgpu ▸ pointee_ended osxGpu) (by decide)
    exact ⟨g, hrun, (hostName_iff (t := .linux64) hlim 0 _ hrun).mpr
      ⟨List.length_replicate.le, hdescribed⟩⟩

/-- A host name that fills its array. -/
theorem longName_overreads :
    ∃ g, @platInit 64 (.linux (generic (letters 64 64 le_rfl (by decide)))) (.start x86)
        = .ok (0, g)
      ∧ nodeInitGlobals .linux64 .spread 0 g = .error .outOfBounds
      ∧ ¬ HostNamed .linux64 .spread 0 (letters 64 64 le_rfl (by decide)).nodename g := by
  obtain ⟨g, hrun, -⟩ := @platInit_generic 64 (letters 64 64 le_rfl (by decide))
  have hname := platInit_cutName hrun
  have hlong : 63 < (letters 64 64 le_rfl (by decide)).nodename.1.length := by decide
  refine ⟨g, hrun, nodeInitGlobals_long (by decide) 0 hname hlong, fun h => ?_⟩
  have hnul := h.nul
  rw [hname] at hnul
  exact absurd (cutName_nul_iff.mp hnul) (not_le.mpr hlong)

end EverythingNet
