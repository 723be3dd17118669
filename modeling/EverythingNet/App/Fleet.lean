import Mathlib.Tactic
import EverythingNet.Net.Spread
import EverythingNet.Plat.LinuxStart

/-!
Linux machines that get to know each other: the program from its start on, on many machines.

* `linuxStart`: what `main` does before its loop, but for its output, with the sockets and interfaces
  that `POSIX_NetInit` opens and looks for given by whether it returns. `linuxStart_spec`: a machine that
  has what it needs comes to the loop as a node that says what the machine is.
* `Fleet`: machines that have what they need. `Fleet.mesh`: the mesh that they make.
  `Fleet.started_iff`: the mesh has started just if the program has on every machine.
* `Fleet.Says`: what a node list says of some of the machines. `Mesh.Proper.machines`: a proper list
  says of some machines, each of them once, what they are. `fleet_tells`: what the node lists say in a
  run, and in the long run.
-/

namespace EverythingNet

open CMem Relation Hearsay

/-! ### The start of the program -/

/-- `PLAT_Init`, whose last step is `NET_Init`, and `NODE_Init`: the state in which the loop of `main`
begins and `NODE_LocalUUID`. The program exits if `PLAT_Init` fails. -/
def linuxStart (t : Target) (m : Malloc t.bits) (M : LinuxMachine) (k : ℕ) :
    Except Halt (Option (NetState t.bits × U64 × U64)) := do
  let (ret, g) ← M.init t.bits k
  if ret ≠ 0 then return none
  let msg ← netInit t m 0
  let node ← nodeInitGlobals t m 1 g
  return some (⟨msg, node, 0⟩, g.localUuid)

section

variable {t : Target} {m : Malloc t.bits} {M : LinuxMachine} {nodename : CStr} {g : Globals}
  {i : LocalInfo} {c v gpu : List Byte} {cap : U32}

/-- Of globals that are described `NODE_Init` makes the entry that describes them. -/
lemma nodeInitGlobals_eq (hlim : 8 + 4096 ≤ m.limit) (k : ℕ) (hi : Described nodename g i)
    (hname : g.localName = stored (cutName nodename)) (hlen : nodename.1.length ≤ 63) :
    nodeInitGlobals t m k g = nodeInit t m k i.toLocalFields := by
  rw [nodeInitGlobals, Malloc.malloc, if_pos hlim]
  exact bind_of_ok (localFields_eq hi hname hlen) _

/-- A machine that has what it needs comes to the loop as a node that says what it is. -/
lemma linuxStart_spec (hm : Served t m) (h : M.Legible c) (hM : M.Works c v gpu cap)
    (hnative : M.cpu.native.1.length ≤ 511) :
    ∃ i, M.Told c i ∧ ∃ st, netStart t m i.toLocalFields = .ok st
      ∧ Settles (linuxStart t m M) (.ok (some (st, i.uuid))) := by
  obtain ⟨g, i, ⟨K, hK⟩, hname, hi, htold⟩ := exists_told (t := t) h hM hnative
  obtain ⟨st, hst, -, -, hcounter⟩ := netStart_spec hm i
  refine ⟨i, htold, st, hst, K, fun k hk => ?_⟩
  obtain ⟨msg, hmsg, hst⟩ := bind_eq_ok.mp hst
  obtain ⟨node, hnode, hst⟩ := bind_eq_ok.mp hst
  obtain rfl := Except.ok.inj hst
  have hinit := (nodeInitGlobals_eq hm.list 1 hi hname hM.name).trans hnode
  rw [hi.uuid]
  exact (bind_of_ok (hK k hk) _).trans ((bind_of_ok hmsg _).trans (bind_of_ok hinit _))

end

/-! ### The mesh of the machines -/

/-- Machines that have what they need, each with its build of the program, its allocator and the text
of its `/proc/cpuinfo`. No two of them have the same identity. -/
structure Fleet (ι : Type) where
  target : ι → Target
  malloc : ∀ x, Malloc (target x).bits
  machine : ι → LinuxMachine
  cpuinfo : ι → List Byte
  served : ∀ x, Served (target x) (malloc x)
  legible : ∀ x, (machine x).Legible (cpuinfo x)
  works : ∀ x, ∃ v gpu cap, (machine x).Works (cpuinfo x) v gpu cap
  native : ∀ x, (machine x).cpu.native.1.length ≤ 511
  distinct : Function.Injective fun x => (gatherUuid (machine x).uuid (0, 0)).2

namespace Fleet

variable {ι : Type} (F : Fleet ι)

/-- The local entry `i` is what the program starts with on the machine `x`. -/
def StartsAs (x : ι) (i : LocalInfo) : Prop :=
  (F.machine x).Told (F.cpuinfo x) i
    ∧ ∃ st, netStart (F.target x) (F.malloc x) i.toLocalFields = .ok st
      ∧ Settles (linuxStart (F.target x) (F.malloc x) (F.machine x)) (.ok (some (st, i.uuid)))

lemma exists_startsAs (x : ι) : ∃ i, F.StartsAs x i := by
  obtain ⟨v, gpu, cap, hM⟩ := F.works x
  exact linuxStart_spec (F.served x) (F.legible x) hM (F.native x)

/-- What each of the machines starts with. -/
noncomputable def info (x : ι) : LocalInfo := (F.exists_startsAs x).choose

lemma info_spec (x : ι) : F.StartsAs x (F.info x) := (F.exists_startsAs x).choose_spec

/-- The mesh of the machines. -/
noncomputable def mesh : Mesh ι where
  target := F.target
  malloc := F.malloc
  info := F.info
  distinct := by
    intro x y hxy
    dsimp only at hxy
    rw [(F.info_spec x).1.uuid, (F.info_spec y).1.uuid] at hxy
    exact F.distinct hxy
  served := F.served

/-- On every machine the program has come to the loop of `main`, and nothing has been sent. -/
structure Started (s : MeshState F.mesh) : Prop where
  peer : ∀ x, ∃ st, Settles (linuxStart (F.target x) (F.malloc x) (F.machine x))
      (.ok (some (st, (F.mesh.info x).uuid)))
    ∧ s.peer x = (st.msg, st.node)
  soup : s.soup = []

/-- What the program does on each machine is how a mesh starts. -/
lemma started_iff (s : MeshState F.mesh) : F.Started s ↔ s.Started := by
  constructor
  · rintro ⟨hpeer, hsoup⟩
    refine ⟨fun x => ?_, hsoup⟩
    obtain ⟨st, hst, hs⟩ := hpeer x
    obtain ⟨-, st', hst', hstart⟩ := F.info_spec x
    obtain ⟨rfl, -⟩ := Prod.mk.inj (Option.some.inj (Except.ok.inj (hst.unique hstart)))
    exact ⟨st, hst', hs⟩
  · rintro ⟨hpeer, hsoup⟩
    refine ⟨fun x => ?_, hsoup⟩
    obtain ⟨st, hst, hs⟩ := hpeer x
    obtain ⟨-, st', hst', hstart⟩ := F.info_spec x
    obtain rfl := Except.ok.inj (hst'.symm.trans hst)
    exact ⟨st', hstart, hs⟩

/-- The entries `K` say of the machines `xs`, one after the other, what they are. -/
def Says (xs : List ι) (K : List Entry) : Prop :=
  List.Forall₂ (fun x e => ∃ i, (F.machine x).Told (F.cpuinfo x) i ∧ e = i.entry) xs K

lemma says_map (xs : List ι) : F.Says xs (xs.map F.mesh.own) := by
  rw [Says, List.forall₂_map_right_iff]
  exact List.forall₂_same.mpr fun x _ => ⟨F.info x, (F.info_spec x).1, rfl⟩

/-- An infinite run from the start of the program on every machine. -/
structure Run [DecidableEq ι] (s : ℕ → MeshState F.mesh) (acts : ℕ → List (Act ι (Letter ι))) :
    Prop where
  started : F.Started (s 0)
  step : ∀ n, (s n).Does (s (n + 1)) (acts n)

end Fleet

section

variable {ι : Type} {M : Mesh ι} {x : ι} {K : List Entry}

lemma Mesh.own_injective (M : Mesh ι) : Function.Injective M.own := fun _ _ h =>
  M.distinct (congrArg uuidOf h)

/-- A proper list holds the entries of some nodes, each once, with that of its own node first. -/
lemma Mesh.Proper.machines (h : M.Proper x K) :
    ∃ xs : List ι, K = xs.map M.own ∧ xs.Nodup ∧ xs.head? = some x := by
  have hrange : K ∈ Set.range (List.map M.own) := by
    rw [Set.range_list_map]
    intro e he
    obtain ⟨y, hy⟩ := h.known e he
    exact ⟨y, (h.own e he y hy).symm⟩
  obtain ⟨xs, rfl⟩ := hrange
  refine ⟨xs, rfl, h.nodup.of_map.of_map, ?_⟩
  obtain ⟨L, hL⟩ := h.first
  obtain ⟨y, ys, rfl, hy, -⟩ := List.map_eq_cons_iff.mp hL.symm
  rw [List.head?_cons, M.own_injective hy]

end

/-! ### What the machines know -/

section

variable {ι : Type} [DecidableEq ι] {F : Fleet ι} {s : ℕ → MeshState F.mesh}
  {acts : ℕ → List (Act ι (Letter ι))}

lemma Fleet.Run.meshRun (h : F.Run s acts) (n : ℕ) : MeshRun s acts n :=
  ⟨(F.started_iff _).mp h.started, fun i _ => h.step i⟩

end

/-- Two servers that differ in their identities. -/
def twins : Fleet Bool where
  target _ := .linux64
  malloc _ := .spread
  machine x := { server with uuid := .machineId (some (some (if x then 1 else 0), some 2)) }
  cpuinfo _ := modelLine ++ [0x0A]
  served _ := ⟨by decide, by decide, by decide⟩
  legible _ := ⟨server_legible.device, server_legible.read, server_legible.cpu⟩
  works _ := ⟨_, _, _, server_works.name, rfl, rfl, rfl, server_works.cpu, server_works.gfx,
    rfl⟩
  native _ := show server.cpu.native.1.length ≤ 511 by decide
  distinct := by decide

/-- Their entries fit the message buffer of either. -/
lemma twins_roomy : twins.mesh.Roomy := by
  have hlen : ∀ x, (twins.mesh.own x).length ≤ 4096 := fun x => (twins.mesh.info x).fits
  have htotal : total twins.mesh.everyone ≤ 2 * 4096 := by
    have hsum : total twins.mesh.everyone = ∑ x, (twins.mesh.own x).length := by
      rw [Mesh.everyone, total, List.map_map]
      exact Finset.sum_map_toList _ _
    have hle : ∑ x, (twins.mesh.own x).length ≤ Fintype.card Bool • 4096 :=
      Finset.sum_le_card_nsmul Finset.univ _ 4096 fun x _ => hlen x
    rwa [hsum]
  have hsize : Target.linux64.bufSize = 65536 := by decide
  refine ⟨fun x => ?_, fun x _ => by simp⟩
  have hroom : 32 + total twins.mesh.everyone ≤ Target.linux64.bufSize := by omega
  exact hroom

end EverythingNet
