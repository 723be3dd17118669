import Mathlib.Tactic
import EverythingNet.Plat.Device
import EverythingNet.Plat.Gfx

/-!
The start of the program on a Linux machine, from its files to the local entry: `PLAT_Init` of
`plat/linux/init.c` with the parts of `LINUX_GatherInfo` put together, and `NODE_Init`.

* `linuxGatherDeviceInfo`: the device on every architecture. `device_spec`: its name.
* `LinuxMachine`: all that the code finds on a machine, and `LinuxMachine.system`: what becomes of it.
  `platInit_linux_iff`: a start succeeds just if each of its parts does.
* `Works`: what a machine must have. `Told`: what the local entry then says.
  `linux_introduces_iff`: a machine starts and says this just if it has that.
-/

namespace EverythingNet

open CMem

/-! ### The device -/

/-- What `LINUX_GatherDeviceInfo` does with the memory that `malloc` gives, where it does not look for
a vendor: `f` fills the zeros. -/
def fillName (name : Option Cells) (f : Cells → Except Halt Cells) : Except Halt (ℤ × Option Cells) :=
  match name with
  -- `-ENOMEM`
  | none => .ok (-12, none)
  | some name => do
    let name ← write name 0 (List.replicate 128 0)
    let name ← f name
    return (0, some name)

/-- The model in the device tree of an ARM machine. -/
def armModel (model : DtFile) (name : Cells) : Except Halt Cells := do
  let (all, name) ← readDt name model
  if all then return name else CMem.strcpy name (ended (chars "Unknown"))

/-- `LINUX_GatherDeviceInfo` on every architecture. -/
def linuxGatherDeviceInfo (arch : CpuArch) (dmi : String → FileOutcome) (model : DtFile)
    (name : Option Cells) (k : ℕ) : Except Halt (ℤ × Option Cells) :=
  match arch with
  | .x86 => gatherDeviceInfo dmi name k
  | .ppc => fillName name fun name => .ok name
  | .arm => fillName name (armModel model)
  | .other => fillName name fun name => CMem.strcpy name (ended (chars "Unknown"))

/-- All that the code finds on a machine. `model` is the file of the device tree with its model,
`cpu.native` is `PLAT_STR_NATIVE`, and `net` is what `POSIX_NetInit` comes to. -/
structure LinuxMachine where
  arch : CpuArch
  dmi : String → FileOutcome
  model : DtFile
  deviceMemory : Bool
  physPages : ℤ
  pageSize : ℤ
  uts : Utsname 64
  osMemory : Bool
  uuid : UuidSource
  cpu : CpuSystem
  build : GfxBuild
  env : GfxEnv
  net : Except Halt Unit

namespace LinuxMachine

/-- What the parts of `PLAT_Init` come to on the machine. -/
def system (M : LinuxMachine) (k : ℕ) : LinuxSystem where
  device := linuxGatherDeviceInfo M.arch M.dmi M.model (nameBuf M.deviceMemory) k
  physPages := M.physPages
  pageSize := M.pageSize
  uts := M.uts
  osMemory := M.osMemory
  uuid := M.uuid
  cpu := linuxGatherCPUInfo M.arch M.cpu k
  gfx cap := (linuxGfxInit M.build M.env ⟨cap, none, linuxCallbacks, [], []⟩).map fun r =>
    (r.2.gpu, r.2.cap)
  net := M.net

/-- `PLAT_Init` on the machine. -/
def init (M : LinuxMachine) (w k : ℕ) : Except Halt (ℤ × Globals) :=
  platInit (w := w) (.linux (M.system k)) (.start M.cpu.native)

/-- The name of the device, with the text `c` of `/proc/cpuinfo`. -/
def device (M : LinuxMachine) (c : List Byte) : List Byte :=
  match M.arch with
  | .x86 => deviceName M.dmi
  | .ppc => modelOf M.cpu c modelKeys
  | .arm => M.model.text.getD (chars "Unknown")
  | .other => chars "Unknown"

end LinuxMachine

/-- A file of the device tree that fits `n` zeros, and leaves one of them or has one if all of it is
there. -/
def DtFile.FitsZeros (n : ℕ) : DtFile → Prop
  | .closed => True
  | .noStat => True
  | .readError => True
  | .content stSize c => min c.length stSize ≤ n
    ∧ (stSize ≤ c.length → stSize < n ∨ 0 ∈ c.take stSize)

/-- The files for the device can be read. -/
def LinuxMachine.DeviceLegible (M : LinuxMachine) : Prop :=
  match M.arch with
  | .x86 => VendorFits (M.dmi sysVendor)
    ∧ ModelFound (128 - (vendorName (M.dmi sysVendor)).length) (modelFiles M.dmi)
  | .ppc => True
  | .arm => M.model.FitsZeros 128
  | .other => True

section

variable {a : Cells} {f : DtFile} {M : LinuxMachine} {c : List Byte}

/-- The zeros that a name starts with. -/
def nameZeros : Cells := stored (List.replicate 128 0)

lemma nameZeros_length : nameZeros.length = 128 := by
  rw [nameZeros, stored_length, List.length_replicate]

lemma fillName_zeros (f : Cells → Except Halt Cells) :
    fillName (nameBuf true) f = (f nameZeros).map fun name => (0, some name) := by
  have hwrite : write (List.replicate 128 none) 0 (List.replicate 128 0) = .ok nameZeros := by
    rw [write_zero _ (by simp), nameZeros]
    simp
  refine (bind_of_ok hwrite _).trans ?_
  cases f nameZeros <;> rfl

/-- Bytes that are written over zeros are a string. -/
lemma startsWith_zeros {l : List Byte} (hle : l.length ≤ 128) (h : l.length < 128 ∨ 0 ∈ l) :
    ∃ d, write nameZeros 0 l = .ok d ∧ StartsWith d (l.takeWhile (· ≠ 0)) ∧ d.length = 128 := by
  have hwrite := write_zero (a := nameZeros) l (by rw [nameZeros_length]; exact hle)
  have hdrop : stored l ++ nameZeros.drop l.length
      = stored (l ++ List.replicate (128 - l.length) 0) := by
    rw [nameZeros, stored, stored, stored, List.map_append, ← List.map_drop, List.drop_replicate]
  refine ⟨_, hwrite, ⟨fun h0 => by simpa using List.mem_takeWhile_imp h0, ?_⟩,
    (write_length hwrite).trans nameZeros_length⟩
  have hzero : (0 : Byte) ∈ l ++ List.replicate (128 - l.length) 0 := by
    rw [List.mem_append, List.mem_replicate]
    rcases h with h | h
    · exact Or.inr ⟨by omega, rfl⟩
    · exact Or.inl h
  obtain ⟨b, hb⟩ := stored_takeWhile hzero []
  rw [List.append_nil, takeWhile_padded] at hb
  exact ⟨b, hdrop.trans hb⟩

lemma strcpy_unknownName {d : Cells} (hd : d.length = 128) :
    ∃ d', CMem.strcpy d (ended (chars "Unknown")) = .ok d' ∧ StartsWith d' (chars "Unknown")
      ∧ d'.length = 128 := by
  have hshort : (chars "Unknown").length = 7 := rfl
  obtain ⟨d', hd', hstart, hlen⟩ := (startsWith_ended unknown_text).strcpy (d := d) (by omega)
  exact ⟨d', hd', hstart, hlen.trans hd⟩

/-- The model of an ARM machine is in the name. -/
lemma armModel_spec (h : f.FitsZeros 128) :
    ∃ d, armModel f nameZeros = .ok d ∧ StartsWith d (f.text.getD (chars "Unknown"))
      ∧ d.length = 128 := by
  have hfails : ∀ f : DtFile, readDt nameZeros f = .ok (false, nameZeros) → f.text = none →
      ∃ d, armModel f nameZeros = .ok d ∧ StartsWith d (f.text.getD (chars "Unknown"))
        ∧ d.length = 128 := by
    intro f hread htext
    obtain ⟨d, hd, hstart, hsize⟩ := strcpy_unknownName nameZeros_length
    exact ⟨d, (bind_of_ok hread _).trans hd, by rwa [htext], hsize⟩
  cases f with
  | closed => exact hfails _ rfl rfl
  | noStat => exact hfails _ rfl rfl
  | readError => exact hfails _ rfl rfl
  | content stSize c =>
      obtain ⟨hroom, hend⟩ := h
      have hlen : (c.take (min c.length stSize)).length = min c.length stSize := by
        rw [List.length_take]
        omega
      by_cases hle : stSize ≤ c.length
      · obtain ⟨d, hd, hstart, hsize⟩ := startsWith_zeros (l := c.take (min c.length stSize))
          (by omega) (by rw [hlen, min_eq_right hle]; exact hend hle)
        have htext : (DtFile.content stSize c).text.getD (chars "Unknown")
            = (c.take (min c.length stSize)).takeWhile (· ≠ 0) := by
          rw [DtFile.text, if_pos hle, Option.getD_some, min_eq_right hle]
        rw [htext]
        refine ⟨d, ?_, hstart, hsize⟩
        have hread : readDt nameZeros (.content stSize c) = .ok (true, d) := by
          refine (bind_of_ok hd _).trans ?_
          rw [decide_eq_true (min_eq_right hle)]
          rfl
        exact bind_of_ok hread _
      · have hwrite := write_zero (a := nameZeros) (c.take (min c.length stSize))
          (by rw [nameZeros_length]; omega)
        obtain ⟨d, hd, hstart, hsize⟩ :=
          strcpy_unknownName ((write_length hwrite).trans nameZeros_length)
        have htext : (DtFile.content stSize c).text.getD (chars "Unknown") = chars "Unknown" := by
          rw [DtFile.text, if_neg hle, Option.getD_none]
        rw [htext]
        refine ⟨d, ?_, hstart, hsize⟩
        have hread : readDt nameZeros (.content stSize c)
            = .ok (false, stored (c.take (min c.length stSize))
              ++ nameZeros.drop (c.take (min c.length stSize)).length) := by
          refine (bind_of_ok hwrite _).trans ?_
          rw [decide_eq_false fun h => hle (min_eq_right_iff.mp h)]
          rfl
        exact (bind_of_ok hread _).trans hd

/-- Among the files of an x86 machine there is one with its model. -/
lemma gatherDeviceInfo_found {dmi : String → FileOutcome} (hfits : VendorFits (dmi sysVendor))
    (hfound : ModelFound (128 - (vendorName (dmi sysVendor)).length) (modelFiles dmi)) :
    ∃ name, Settles (gatherDeviceInfo dmi (nameBuf true)) (.ok (0, some name))
      ∧ NameIs name (deviceName dmi) := by
  obtain ⟨a, hsize, hrun⟩ := gatherDeviceInfo_loop dmi hfits
  obtain ⟨name, hname, hholds⟩ := (tryGetModel_iff dmi (vendorName_zero _) hsize
    (dmiPaths.filterMap id) (i := 0) rfl
    (List.length_replicate (n := 256) (a := (none : Option Byte)))).mpr hfound
  exact ⟨name, hrun ▸ hname.map _, hholds⟩

lemma modelName_zero (os : List FileOutcome) : (0 : Byte) ∉ modelName os := by
  induction os with
  | nil => decide
  | cons o os ih =>
      cases o with
      | closed => exact ih
      | readError => exact ih
      | content c =>
          rw [modelName]
          split_ifs
          · exact ih
          · exact fileText_zero c

lemma deviceName_zero (dmi : String → FileOutcome) : (0 : Byte) ∉ deviceName dmi := fun h =>
  (List.mem_append.mp (List.mem_of_mem_take h)).elim (vendorName_zero _) (modelName_zero _)

/-- With memory the device gets its name, but on PowerPC only zeros. -/
lemma device_spec (h : M.DeviceLegible) (c : List Byte) :
    ∃ name, Settles (linuxGatherDeviceInfo M.arch M.dmi M.model (nameBuf true)) (.ok (0, some name))
      ∧ name.length = 128 ∧ (M.arch ≠ .ppc → StartsWith name (M.device c)) := by
  rw [LinuxMachine.DeviceLegible] at h
  rw [LinuxMachine.device]
  cases harch : M.arch with
  | x86 =>
      rw [harch] at h
      obtain ⟨name, hname, hlen, hcells⟩ := gatherDeviceInfo_found h.1 h.2
      exact ⟨name, hname, hlen, fun _ => ⟨deviceName_zero _, hcells⟩⟩
  | ppc =>
      refine ⟨nameZeros, ?_, nameZeros_length, fun hne => absurd rfl hne⟩
      exact (Settles.const _).congr fun k => fillName_zeros _
  | arm =>
      rw [harch] at h
      obtain ⟨d, hd, hstart, hlen⟩ := armModel_spec h
      refine ⟨d, (Settles.const _).congr fun k => ?_, hlen, fun _ => hstart⟩
      exact (fillName_zeros _).trans (by rw [hd]; rfl)
  | other =>
      obtain ⟨d, hd, hstart, hlen⟩ := strcpy_unknownName nameZeros_length
      refine ⟨d, (Settles.const _).congr fun k => ?_, hlen, fun _ => hstart⟩
      exact (fillName_zeros _).trans (by rw [hd]; rfl)

end

/-! ### The start -/

section

variable {w : ℕ} {s : LinuxSystem} {g : Globals} {os a : Cells} {arch : CStr}

/-- The name of the operating system. -/
def linuxOs (uts : Utsname 64) : List Byte := chars "Linux " ++ uts.release.1

/-- Both names are copied, whatever they are. -/
lemma linuxNames_eq (uts : Utsname 64) :
    ∃ os, linuxNames uts (List.replicate 128 none) (stored (List.replicate 64 0))
        = .ok (os, stored (cutName uts.nodename))
      ∧ StartsWith os (linuxOs uts) := by
  have hlinux : (chars "Linux ").length = 6 := rfl
  have hrelease := uts.release_le
  obtain ⟨os₁, h₁, hstart₁, hlen₁⟩ := (startsWith_ended (v := chars "Linux ") (by decide)).strcpy
    (d := List.replicate 128 none) (by rw [List.length_replicate, hlinux]; norm_num)
  rw [List.length_replicate] at hlen₁
  obtain ⟨os₂, h₂, hstart₂, -⟩ := hstart₁.strncat (n := 128 - 7) (startsWith_ended uts.release.2)
    (by omega) (by rw [List.length_append, hlinux]; omega)
  have hname : strncpy (stored (List.replicate 64 0)) (ended uts.nodename.1) 64
      = .ok (stored (cutName uts.nodename)) :=
    strncpy_stored uts.nodename.2 (by rw [stored_length, List.length_replicate])
  exact ⟨os₂, (bind_of_ok h₁ _).trans ((bind_of_ok h₂ _).trans (bind_of_ok hname _)), hstart₂⟩

/-- A start on Linux succeeds just if each of its parts does. -/
lemma platInit_linux_iff :
    platInit (w := w) (.linux s) (.start arch) = .ok (0, g)
      ↔ s.osMemory = true ∧ (gatherUuid s.uuid (0, 0)).1 = 0
        ∧ ∃ name os localName name' cpu gpu cap, s.device = .ok (0, name)
          ∧ linuxNames s.uts (List.replicate 128 none) (stored (List.replicate 64 0))
            = .ok (os, localName)
          ∧ s.cpu name = .ok (0, name', cpu) ∧ s.gfx 0x7F = .ok (gpu, cap) ∧ s.net = .ok ()
          ∧ g = ⟨localName, (gatherUuid s.uuid (0, 0)).2, name', some os, some (ended arch.1), cpu, gpu,
            BitVec.ofInt 32 (s.physPages * s.pageSize.tdiv 1024), cap⟩ := by
  constructor
  · intro h
    obtain ⟨⟨ret, g₁⟩, hgather, h⟩ := bind_eq_ok.mp h
    obtain ⟨rfl, h⟩ := ok_of_check h
    obtain ⟨⟨gpu, cap⟩, hgfx, h⟩ := bind_eq_ok.mp h
    obtain ⟨⟨⟩, hnet, h⟩ := bind_eq_ok.mp h
    obtain ⟨-, rfl⟩ := Prod.mk.inj (Except.ok.inj h)
    obtain ⟨⟨ret, name⟩, hdevice, hgather⟩ := bind_eq_ok.mp hgather
    obtain ⟨rfl, hgather⟩ := ok_of_check hgather
    cases hmem : s.osMemory with
    | false => simp [hmem, osBuf] at hgather
    | true =>
        rw [hmem] at hgather
        obtain ⟨⟨os, localName⟩, hnames, hgather⟩ := bind_eq_ok.mp hgather
        obtain ⟨huuid, hgather⟩ := ok_of_check hgather
        obtain ⟨⟨ret', name', cpu⟩, hcpu, hgather⟩ := bind_eq_ok.mp hgather
        obtain ⟨rfl, rfl⟩ := Prod.mk.inj (Except.ok.inj hgather)
        exact ⟨rfl, huuid, name, os, localName, name', cpu, gpu, cap, hdevice, hnames, hcpu, hgfx, hnet,
          rfl⟩
  · rintro ⟨hmem, huuid, name, os, localName, name', cpu, gpu, cap, hdevice, hnames, hcpu, hgfx, hnet,
      rfl⟩
    obtain ⟨⟨ret, uuid⟩, hsource⟩ : ∃ u, gatherUuid s.uuid (Globals.start arch).localUuid = u :=
      ⟨_, rfl⟩
    have hzero : gatherUuid s.uuid (0, 0) = (ret, uuid) := hsource
    rw [hzero] at huuid ⊢
    obtain rfl : ret = 0 := huuid
    have hgather : linuxGatherInfo s (.start arch) = .ok (0, ⟨localName, uuid, name', some os,
        some (ended arch.1), cpu, none, BitVec.ofInt 32 (s.physPages * s.pageSize.tdiv 1024),
        0x7F⟩) := by
      refine (bind_of_ok hdevice _).trans ?_
      simp only [ne_eq, not_true_eq_false, if_false, hmem, osBuf, if_true]
      refine (bind_of_ok hnames _).trans ?_
      simp only [hsource, not_true_eq_false, if_false]
      exact bind_of_ok hcpu _
    exact (bind_of_ok hgather _).trans ((bind_of_ok hgfx _).trans (bind_of_ok hnet _))

end

/-! ### What the machine says of itself -/

/-- The files of a machine that can be read, with the text `c` of `/proc/cpuinfo`. -/
structure LinuxMachine.Legible (M : LinuxMachine) (c : List Byte) : Prop where
  device : M.DeviceLegible
  read : M.cpu.read = some c
  cpu : FilesLegible M.cpu c M.arch

/-- There is memory, an identity, a host name that leaves room for its terminator, a name for the
processor `v` and the GPU, and a network that can be started. -/
structure LinuxMachine.Works (M : LinuxMachine) (c v gpu : List Byte) (cap : U32) : Prop where
  name : M.uts.nodename.1.length ≤ 63
  device : M.deviceMemory = true
  os : M.osMemory = true
  uuid : (gatherUuid M.uuid (0, 0)).1 = 0
  cpu : CpuNamed M.cpu c M.arch 128 v
  gfx : GfxNamed M.build M.env 0x7F gpu cap
  net : M.net = .ok ()

/-- The local entry says what the machine is. -/
structure LinuxMachine.Told (M : LinuxMachine) (c : List Byte) (i : LocalInfo) : Prop where
  name : i.name = M.uts.nodename
  uuid : i.uuid = (gatherUuid M.uuid (0, 0)).2
  memSz : i.memSz = BitVec.ofInt 32 (M.physPages * M.pageSize.tdiv 1024)
  platName : i.platName.1 = M.device c
  os : i.os.1 = linuxOs M.uts
  arch : i.arch = M.cpu.native
  cpu : ∃ v, cpuOf M.cpu c M.arch = some v ∧ i.cpu.1 = cleaned v
  gfx : GfxNamed M.build M.env 0x7F i.gpu.1 i.cap

section

variable {t : Target} {m : Malloc t.bits} {M : LinuxMachine} {c v gpu : List Byte} {cap : U32}
  {a : Cells} {g : Globals} {k : ℕ}

/-- Without memory there is no name for the device. -/
lemma device_noMemory (h : M.deviceMemory = false) (k : ℕ) :
    (M.system k).device = .ok (-12, none) := by
  rw [LinuxMachine.system, h]
  cases harch : M.arch <;> rfl

/-- With the model of a PowerPC machine the device has its name. -/
lemma named_device {name name' : Cells} (hname : M.arch ≠ .ppc → StartsWith name (M.device c))
    (hlen : name.length = 128) (h : Named M.cpu c name name' M.arch) :
    StartsWith name' (M.device c) ∧ name'.length = 128 := by
  cases harch : M.arch with
  | ppc =>
      rw [harch] at h
      rw [LinuxMachine.device, harch]
      exact ⟨h.1, h.2.trans hlen⟩
  | x86 =>
      rw [harch] at h hname
      obtain rfl : name' = name := h
      exact ⟨hname (by simp), hlen⟩
  | arm =>
      rw [harch] at h hname
      obtain rfl : name' = name := h
      exact ⟨hname (by simp), hlen⟩
  | other =>
      rw [harch] at h hname
      obtain rfl : name' = name := h
      exact ⟨hname (by simp), hlen⟩

/-- A pointer to an array that starts with a string. -/
def PointsTo (p : Option Cells) (s : List Byte) : Prop := ∃ a, p = some a ∧ StartsWith a s

lemma PointsTo.read {p : Option Cells} (h : PointsTo p v) : ∃ s : CStr, pointee p = .ok s ∧ s.1 = v := by
  obtain ⟨a, rfl, ha⟩ := h
  exact ⟨⟨v, ha.text⟩, readStr_eq_ok.mpr ha.strText, rfl⟩

/-- A string that is read is the one that is there. -/
lemma PointsTo.eq {p : Option Cells} (h : PointsTo p v) {s : CStr} (hs : pointee p = .ok s) :
    s.1 = v := by
  obtain ⟨s', hs', rfl⟩ := h.read
  rw [hs] at hs'
  exact congrArg Subtype.val (Except.ok.inj hs')

/-- What a start that succeeds leaves in the globals. -/
structure LinuxMachine.Filled (M : LinuxMachine) (c v gpu : List Byte) (cap : U32) (g : Globals) :
    Prop where
  short : ∀ s ∈ [M.device c, cleaned v, gpu], s.length ≤ 511
  localUuid : g.localUuid = (gatherUuid M.uuid (0, 0)).2
  name : PointsTo g.name (M.device c)
  os : PointsTo g.os (linuxOs M.uts)
  arch : g.arch = some (ended M.cpu.native.1)
  cpu : PointsTo g.cpu (cleaned v)
  gpu : PointsTo g.gpu gpu
  memSz : g.memSz = BitVec.ofInt 32 (M.physPages * M.pageSize.tdiv 1024)
  cap : g.cap = cap

/-- The results of the graphics. -/
lemma system_gfx {g : Option Cells} :
    (M.system k).gfx 0x7F = .ok (g, cap)
      ↔ ∃ gpu, g = some (ended gpu) ∧ GfxNamed M.build M.env 0x7F gpu cap := by
  have hiff := linuxGfxInit_iff M.build M.env ⟨0x7F, none, linuxCallbacks, [], []⟩ g cap
  rw [← hiff, LinuxMachine.system]
  dsimp only
  cases linuxGfxInit M.build M.env ⟨0x7F, none, linuxCallbacks, [], []⟩ with
  | error e => simp [Except.map]
  | ok r =>
      constructor
      · intro h
        obtain ⟨rfl, rfl⟩ := Prod.mk.inj (Except.ok.inj h)
        exact ⟨r.1, r.2, rfl, rfl, rfl⟩
      · rintro ⟨ret, st', hr, rfl, rfl⟩
        obtain rfl := Except.ok.inj hr
        rfl

/-- A machine that has what it needs starts. -/
lemma init_fills (h : M.Legible c) (hM : M.Works c v gpu cap) :
    ∃ g, Settles (M.init t.bits) (.ok (0, g)) ∧ M.Filled c v gpu cap g := by
  obtain ⟨name, ⟨N, hdevice⟩, hlen, hname⟩ := device_spec h.device c
  obtain ⟨os, hnames, hos⟩ := linuxNames_eq M.uts
  have hcpu := hM.cpu
  rw [← hlen] at hcpu
  obtain ⟨v', name', hv', hv0, hlt, ⟨N', hgather⟩, hnamed⟩ | ⟨hno, -⟩ :=
    gatherCPUInfo_cases h.read h.cpu name
  · obtain rfl := Option.some.inj (hcpu.cpu.symm.trans hv'.cpu)
    obtain ⟨hstart, hlen'⟩ := named_device hname hlen hnamed
    obtain ⟨hgpu0, hgpuLen⟩ := hM.gfx.text
    have hclean : (0 : Byte) ∉ cleaned v := fun h0 => hv0 ((cleaned_start v).subset h0)
    have hcleanLen := (cleaned_start v).length_le
    have hshort : ∀ s ∈ [M.device c, cleaned v, gpu], s.length ≤ 511 := by
      have := hstart.length_lt
      simp only [List.mem_cons, List.not_mem_nil, or_false, forall_eq_or_imp, forall_eq]
      exact ⟨by omega, by omega, by omega⟩
    refine ⟨⟨stored (cutName M.uts.nodename), (gatherUuid M.uuid (0, 0)).2, some name', some os,
      some (ended M.cpu.native.1), some (ended (cleaned v)), some (ended gpu),
      BitVec.ofInt 32 (M.physPages * M.pageSize.tdiv 1024), cap⟩, ⟨max N N', fun k hk => ?_⟩,
      ⟨hshort, rfl, ⟨name', rfl, hstart⟩, ⟨os, rfl, hos⟩, rfl, ⟨_, rfl, startsWith_ended hclean⟩,
        ⟨_, rfl, startsWith_ended hgpu0⟩, rfl, rfl⟩⟩
    refine platInit_linux_iff.mpr ⟨hM.os, hM.uuid, some name, os, _, some name', _, _, cap, ?_, hnames,
      hgather k (le_of_max_le_right hk), system_gfx.mpr ⟨gpu, rfl, hM.gfx⟩, hM.net, rfl⟩
    rw [LinuxMachine.system, hM.device]
    exact hdevice k (le_of_max_le_left hk)
  · exact absurd hcpu (hno v)

/-- A machine that starts has what it needs. -/
lemma works_of_init (h : M.Legible c) (hlen : M.uts.nodename.1.length ≤ 63)
    (hrun : Settles (M.init t.bits) (.ok (0, g))) : ∃ v gpu cap, M.Works c v gpu cap := by
  obtain ⟨K, hK⟩ := hrun
  obtain ⟨name, ⟨N, hdevice⟩, hsize, -⟩ := device_spec h.device c
  have hmem : M.deviceMemory = true := by
    obtain ⟨-, -, name', os, localName, name'', cpu, g', cap, hd, -⟩ :=
      platInit_linux_iff.mp (hK K le_rfl)
    by_contra hno
    rw [device_noMemory (Bool.eq_false_iff.mpr hno)] at hd
    simp at hd
  have hat : ∀ k, N ≤ k → (M.system k).device = .ok (0, some name) := fun k hk => by
    rw [LinuxMachine.system, hmem]
    exact hdevice k hk
  obtain ⟨v, name', hv, -⟩ | ⟨-, r, ⟨N', hr⟩, hne⟩ := gatherCPUInfo_cases h.read h.cpu name
  · obtain ⟨hos, huuid, name₁, os, localName, name₂, cpu, g', cap, -, -, -, hgfx, hnet, -⟩ :=
      platInit_linux_iff.mp (hK K le_rfl)
    obtain ⟨gpu, -, hgfx⟩ := system_gfx.mp hgfx
    rw [hsize] at hv
    exact ⟨v, gpu, cap, hlen, hmem, hos, huuid, hv, hgfx, hnet⟩
  · -- far enough on, all of the start is settled
    obtain ⟨-, -, name₁, os, localName, name₂, cpu, g', cap, hd, -, hcpu, -⟩ :=
      platInit_linux_iff.mp (hK (max K (max N N')) (le_max_left ..))
    rw [hat _ (le_trans (le_max_left ..) (le_max_right ..))] at hd
    obtain ⟨-, rfl⟩ := Prod.mk.inj (Except.ok.inj hd)
    have hsettled := hr (max K (max N N')) (le_trans (le_max_right ..) (le_max_right ..))
    exact absurd (hsettled.symm.trans hcpu) (hne _)

/-- The entry says what is in the globals. -/
lemma told_of_described {i : LocalInfo} (hM : M.Works c v gpu cap) (hg : M.Filled c v gpu cap g)
    (hi : Described M.uts.nodename g i) : M.Told c i where
  name := Subtype.ext (hi.name.trans (List.take_of_length_le hM.name))
  uuid := hi.uuid.trans hg.localUuid
  memSz := hi.memSz.trans hg.memSz
  platName := hg.name.eq hi.platName
  os := hg.os.eq hi.os
  arch := by
    have harch := hi.arch
    rw [hg.arch, pointee_ended] at harch
    exact (Except.ok.inj harch).symm
  cpu := ⟨v, hM.cpu.cpu, hg.cpu.eq hi.cpu⟩
  gfx := by
    rw [hg.gpu.eq hi.gpu, hi.cap, hg.cap]
    exact hM.gfx

/-- It leaves what a local entry needs, and that says what the machine is. -/
lemma exists_told (h : M.Legible c) (hM : M.Works c v gpu cap)
    (hnative : M.cpu.native.1.length ≤ 511) :
    ∃ g i, Settles (M.init t.bits) (.ok (0, g)) ∧ g.localName = stored (cutName M.uts.nodename)
      ∧ Described M.uts.nodename g i ∧ M.Told c i := by
  obtain ⟨g, hrun, hg⟩ := init_fills (t := t) h hM
  obtain ⟨K, hK⟩ := id hrun
  obtain ⟨name, hname, hnameEq⟩ := hg.name.read
  obtain ⟨cpu, hcpu, hcpuEq⟩ := hg.cpu.read
  obtain ⟨gpu', hgpu, hgpuEq⟩ := hg.gpu.read
  have hlen : ∀ s ∈ [name, M.cpu.native, cpu, gpu'], s.1.length ≤ 511 := by
    have hshort := hg.short
    simp only [List.mem_cons, List.not_mem_nil, or_false, forall_eq_or_imp, forall_eq] at hshort ⊢
    rw [hnameEq, hcpuEq, hgpuEq]
    exact ⟨hshort.1, hnative, hshort.2⟩
  obtain ⟨i, hi⟩ := exists_described (hK K le_rfl) hname hcpu hgpu hlen
  exact ⟨g, i, hrun, platInit_cutName (hK K le_rfl), hi, told_of_described hM hg hi⟩

end

/-- The DMI files of a server. -/
def serverDmi (path : String) : FileOutcome :=
  if path = sysVendor then .content (chars "Dell Inc.\n")
  else if path = "/sys/devices/virtual/dmi/id/product_name" then .content (chars "PowerEdge R630\n")
  else .closed

/-- A server without a display. -/
def server : LinuxMachine where
  arch := .x86
  dmi := serverDmi
  model := .closed
  deviceMemory := true
  physPages := 2 ^ 20
  pageSize := 4096
  uts := ⟨⟨chars "rack1", by decide⟩, ⟨chars "6.1.0", by decide⟩, by decide, by decide⟩
  osMemory := true
  uuid := .machineId (some (some 1, some 2))
  cpu := xeon
  build := ⟨false, true, false, false⟩
  env := ⟨false, false, .noDisplay⟩
  net := .ok ()

lemma server_legible : server.Legible (modelLine ++ [0x0A]) := by
  have hvendor : VendorFits (serverDmi sysVendor) := by
    have hfits : VendorFits (.content (chars "Dell Inc.\n")) := ⟨by decide, by decide⟩
    exact hfits
  have hfiles : modelFiles serverDmi = [.closed, .content (chars "PowerEdge R630\n"), .closed] := by
    decide
  have hmodel : ModelFound (128 - (vendorName (serverDmi sysVendor)).length)
      (modelFiles serverDmi) := by
    have haccepted : Accepted (128 - (vendorName (serverDmi sysVendor)).length)
        (chars "PowerEdge R630\n") := by
      rw [Accepted, if_pos (by decide)]
      decide
    rw [hfiles]
    exact Or.inl haccepted
  exact ⟨⟨hvendor, hmodel⟩, xeon_read, xeon_legible⟩

lemma server_works : server.Works (modelLine ++ [0x0A])
    (chars "Intel(R) Xeon(R) CPU E5-2680 v4 @ 2.40GHz") (chars "None (headless)")
    (headlessCap 0x7F) where
  name := by decide
  device := rfl
  os := rfl
  uuid := rfl
  cpu := ⟨rfl, trivial, xeon_cpu, by decide⟩
  gfx := Or.inr ⟨by decide, rfl, rfl⟩
  net := rfl

end EverythingNet
