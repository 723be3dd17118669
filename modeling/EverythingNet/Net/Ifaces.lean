import Mathlib.Tactic
import EverythingNet.Net.Capacity

/-!
The interfaces of `plat/common/posix_net.c`: how `POSIX_NetInit` finds them in a build that may have
several, and how `PLAT_NetDoBroadcast` goes through them.

* `Iface`, `ifaceStep`: what `getifaddrs` tells of an interface, and a round of the loop.
  `Iface.bcast`: the address with which an interface is to be added, if it is.
* `Clear n l`: an interface that cannot be added stands behind `n` that can. `ifaceLoop_spec`: the
  loop then adds the first ones, in their order; `ifaceLoop_stuck`: else it never gets past it.
  `ifaces_added_iff` is both.
* `Attempted`: there was a call of `sendto` for an interface. `bcastSendLoop_attempted`: that is so
  until the first one that fails.
* `handleRounds`: calls of `NET_HandleBcast`, and what each of them sends. `broadcast_isolated_iff`:
  when every interface is attempted, in one call and in all calls of a run.
-/

namespace EverythingNet

open CMem KeyedLog

/-! ### The code of `POSIX_NetInit` -/

/-- `EVRNET_BCAST_PORT`. -/
def evrnetBcastPort : U16 := 6000

/-- `AF_INET`. -/
def afInet : ℕ := 2

/-- `"lo"`. -/
def loopbackName : List Byte := [0x6C, 0x6F]

/-- The family and, of an IPv4 address, `s_addr`. -/
structure SockAddr where
  family : ℕ
  addr : U32
  deriving DecidableEq

/-- What the loop reads of a `struct ifaddrs`, and whether `getnameinfo` has an answer for it. -/
structure Iface where
  name : List Byte
  addr : Option SockAddr
  netmask : Option U32
  resolves : Bool
  deriving DecidableEq

/-- An element of `bcastAddr`. -/
structure SockAddrIn where
  family : ℕ
  port : U16
  addr : U32
  deriving DecidableEq

/-- The numeric form in which `getnameinfo` writes an address, and `inet_pton`. -/
structure Numeric where
  form : U32 → List Byte
  pton : List Byte → Option U32

/-- The rest of the list and the variables `knownIfaces` and `bcastAddr`. -/
structure IfaceState where
  ifaces : List Iface
  knownIfaces : ℕ
  bcastAddr : List SockAddrIn

/-- `getnameinfo` on the address of an interface. -/
def getnameinfo (R : Numeric) (i : Iface) (a : U32) : Option (List Byte) :=
  if i.resolves then some (R.form a) else none

/-- `addIface` without the prefix length, which it only prints. What `inet_pton` does not understand
leaves the address as it was. -/
def addIface (R : Numeric) (E : Endian) (ipStr : List Byte) (num : ℕ)
    (bcastAddr : List SockAddrIn) : Except Halt (List SockAddrIn) :=
  match bcastAddr[num]? with
  | none => .error .outOfBounds
  | some old =>
    .ok (bcastAddr.set num ⟨afInet, beToHost16 E evrnetBcastPort, (R.pton ipStr).getD old.addr⟩)

/-- A round of the loop over the interfaces. `maxInt` is `CONFIG_NET_MAX_INT`. -/
def ifaceStep (R : Numeric) (E : Endian) (maxInt : ℕ) (s : IfaceState) :
    Except Halt (IfaceState ⊕ IfaceState) :=
  match s.ifaces with
  | [] => .ok (.inr s)
  | i :: next =>
    if maxInt ≤ s.knownIfaces then .ok (.inr s)
    else
      match i.addr with
      | none => .ok (.inl { s with ifaces := next })
      | some a =>
        if a.family ≠ afInet then .ok (.inl { s with ifaces := next })
        else if i.name = loopbackName then .ok (.inl { s with ifaces := next })
        else
          match i.netmask with
          | none => .error .nullPointer
          | some mask =>
            let a := { a with addr := a.addr ||| ~~~mask }
            match getnameinfo R i a.addr with
            -- `continue` goes back to the head of the loop with the same interface
            | none => .ok (.inl { s with ifaces := { i with addr := some a } :: next })
            | some host => do
              let bcastAddr ← addIface R E host s.knownIfaces s.bcastAddr
              return .inl ⟨next, s.knownIfaces + 1, bcastAddr⟩

/-- The part of `POSIX_NetInit` that goes through the list of `getifaddrs`. -/
def posixNetInit (R : Numeric) (E : Endian) (maxInt : ℕ) (fuel : ℕ) (ifaces : List Iface) :
    Except Halt IfaceState :=
  iter (ifaceStep R E maxInt) fuel ⟨ifaces, 0, List.replicate maxInt ⟨0, 0, 0⟩⟩

/-! ### What it is to find -/

namespace Iface

/-- The address of an interface that is IPv4 and not the loopback. -/
def candidate (i : Iface) : Option U32 :=
  i.addr.bind fun a => if a.family = afInet ∧ i.name ≠ loopbackName then some a.addr else none

/-- The broadcast address of an interface that is IPv4, not the loopback, and resolves. -/
def bcast (i : Iface) : Option U32 :=
  if i.resolves then i.candidate.bind fun a => i.netmask.map fun mask => a ||| ~~~mask else none

/-- The interface is to be looked at, but `getnameinfo` fails for it or it has no netmask. -/
def Failing (i : Iface) : Prop := i.candidate.isSome ∧ i.bcast = none

end Iface

/-- An element of `bcastAddr` that is in use. -/
def bcastSockAddr (E : Endian) (a : U32) : SockAddrIn :=
  ⟨afInet, beToHost16 E evrnetBcastPort, a⟩

/-- Every interface that fails comes behind `room` that can be added. -/
def Clear (room : ℕ) (l : List Iface) : Prop :=
  ∀ before i after, l = before ++ i :: after → i.Failing →
    room ≤ (before.filterMap Iface.bcast).length

section

variable {R : Numeric} {E : Endian} {maxInt n room : ℕ} {i : Iface} {l : List Iface} {a : U32}
  {b : List SockAddrIn}

lemma clear_zero (l : List Iface) : Clear 0 l := fun _ _ _ _ _ => Nat.zero_le _

lemma clear_nil (room : ℕ) : Clear room [] := by
  intro before i after h
  simp at h

/-- An interface that is passed over. -/
lemma clear_skip (hi : i.candidate = none) : Clear room (i :: l) ↔ Clear room l := by
  have hb : i.bcast = none := by simp [Iface.bcast, hi]
  have hf : ¬ i.Failing := by simp [Iface.Failing, hi]
  constructor
  · intro h before j after hl hj
    have := h (i :: before) j after (by rw [hl, List.cons_append]) hj
    rwa [List.filterMap_cons_none hb] at this
  · intro h before j after hl hj
    cases before with
    | nil =>
        obtain ⟨rfl, -⟩ := List.cons.inj hl
        exact absurd hj hf
    | cons k before =>
        obtain ⟨rfl, rfl⟩ := List.cons.inj hl
        rw [List.filterMap_cons_none hb]
        exact h before j after rfl hj

/-- An interface that is added. -/
lemma clear_add (hi : i.bcast = some a) : Clear (room + 1) (i :: l) ↔ Clear room l := by
  have hf : ¬ i.Failing := by simp [Iface.Failing, hi]
  constructor
  · intro h before j after hl hj
    have := h (i :: before) j after (by rw [hl, List.cons_append]) hj
    rw [List.filterMap_cons_some hi, List.length_cons] at this
    omega
  · intro h before j after hl hj
    cases before with
    | nil =>
        obtain ⟨rfl, -⟩ := List.cons.inj hl
        exact absurd hj hf
    | cons k before =>
        obtain ⟨rfl, rfl⟩ := List.cons.inj hl
        rw [List.filterMap_cons_some hi, List.length_cons]
        exact Nat.succ_le_succ (h before j after rfl hj)

lemma not_clear (hi : i.Failing) : ¬ Clear (room + 1) (i :: l) := by
  intro h
  have := h [] i l rfl hi
  simp at this

/-- Every interface is passed over, is added, or fails. -/
lemma Iface.cases (i : Iface) : i.candidate = none ∨ (∃ a, i.bcast = some a) ∨ i.Failing := by
  cases hc : i.candidate with
  | none => exact Or.inl rfl
  | some a =>
      refine Or.inr ?_
      cases hb : i.bcast with
      | none => exact Or.inr ⟨by rw [hc]; rfl, hb⟩
      | some a => exact Or.inl ⟨a, rfl⟩

/-! ### The rounds of the loop -/

lemma ifaceStep_nil : ifaceStep R E maxInt ⟨[], n, b⟩ = .ok (.inr ⟨[], n, b⟩) := rfl

lemma ifaceStep_full (h : maxInt ≤ n) :
    ifaceStep R E maxInt ⟨i :: l, n, b⟩ = .ok (.inr ⟨i :: l, n, b⟩) := by
  rw [ifaceStep]
  exact if_pos h

lemma ifaceStep_skip (hn : n < maxInt) (hi : i.candidate = none) :
    ifaceStep R E maxInt ⟨i :: l, n, b⟩ = .ok (.inl ⟨l, n, b⟩) := by
  obtain ⟨name, addr, netmask, resolves⟩ := i
  rw [ifaceStep]
  dsimp only
  rw [if_neg (by omega)]
  cases addr with
  | none => rfl
  | some a =>
      have h : ¬ (a.family = afInet ∧ name ≠ loopbackName) := by
        simpa [Iface.candidate] using hi
      dsimp only
      by_cases hf : a.family = afInet
      · rw [if_neg (not_not.mpr hf), if_pos (by_contra fun hname => h ⟨hf, hname⟩)]
      · rw [if_pos hf]

/-- What is known of an interface that is looked at. -/
lemma Iface.candidate_eq_some (h : i.candidate = some a) :
    ∃ s, i.addr = some s ∧ s.family = afInet ∧ i.name ≠ loopbackName ∧ s.addr = a := by
  rw [candidate, Option.bind_eq_some_iff] at h
  obtain ⟨s, hs, h⟩ := h
  split_ifs at h with hc
  exact ⟨s, hs, hc.1, hc.2, Option.some.inj h⟩

lemma ifaceStep_add (hn : n < maxInt) (hb : b.length = maxInt) (hi : i.bcast = some a)
    (hinv : R.pton (R.form a) = some a) :
    ifaceStep R E maxInt ⟨i :: l, n, b⟩
      = .ok (.inl ⟨l, n + 1, b.set n (bcastSockAddr E a)⟩) := by
  rw [Iface.bcast] at hi
  split_ifs at hi with hres
  obtain ⟨a', hcand, hi⟩ := Option.bind_eq_some_iff.mp hi
  obtain ⟨mask, hmask, rfl⟩ := Option.map_eq_some_iff.mp hi
  obtain ⟨s, haddr, hfam, hname, rfl⟩ := Iface.candidate_eq_some hcand
  have hlt : n < b.length := hb ▸ hn
  have hold : b[n]? = some b[n] := List.getElem?_eq_getElem hlt
  rw [ifaceStep]
  dsimp only
  rw [if_neg (by omega), haddr]
  dsimp only
  rw [if_neg (not_not.mpr hfam), if_neg hname, hmask]
  dsimp only
  rw [getnameinfo, if_pos hres]
  dsimp only
  rw [addIface, hold]
  dsimp only
  rw [ok_bind, hinv]
  rfl

/-- An interface that fails is still there after the round, unless the round halts. -/
lemma ifaceStep_failing (hn : n < maxInt) (hi : i.Failing) :
    (i.netmask = none ∧ ifaceStep R E maxInt ⟨i :: l, n, b⟩ = .error .nullPointer)
      ∨ (i.netmask ≠ none ∧ ∃ j, j.Failing ∧ j.netmask ≠ none
        ∧ ifaceStep R E maxInt ⟨i :: l, n, b⟩ = .ok (.inl ⟨j :: l, n, b⟩)) := by
  obtain ⟨hsome, hbcast⟩ := hi
  obtain ⟨a, hcand⟩ := Option.isSome_iff_exists.mp hsome
  obtain ⟨s, haddr, hfam, hname, rfl⟩ := Iface.candidate_eq_some hcand
  have hstep : ifaceStep R E maxInt ⟨i :: l, n, b⟩
      = match i.netmask with
        | none => .error .nullPointer
        | some mask =>
          match getnameinfo R i (s.addr ||| ~~~mask) with
          | none => .ok (.inl ⟨{ i with addr := some { s with addr := s.addr ||| ~~~mask } } :: l,
              n, b⟩)
          | some host => do
            let bcastAddr ← addIface R E host n b
            return .inl ⟨l, n + 1, bcastAddr⟩ := by
    rw [ifaceStep]
    dsimp only
    rw [if_neg (by omega), haddr]
    dsimp only
    rw [if_neg (not_not.mpr hfam), if_neg hname]
  cases hmask : i.netmask with
  | none =>
      refine Or.inl ⟨rfl, ?_⟩
      rw [hstep, hmask]
  | some mask =>
      have hres : i.resolves = false := by
        by_contra hres
        simp [Iface.bcast, hcand, hmask, hres] at hbcast
      refine Or.inr ⟨by simp, { i with addr := some { s with addr := s.addr ||| ~~~mask } }, ?_,
        by simp [hmask], ?_⟩
      · refine ⟨?_, ?_⟩
        · simp [Iface.candidate, hfam, hname]
        · simp [Iface.bcast, hres]
      · rw [hstep, hmask]
        dsimp only
        rw [getnameinfo, hres]
        rfl

/-! ### The loop -/

/-- The loop spins at an interface that has a netmask but does not resolve. -/
lemma ifaceLoop_spins (hn : n < maxInt) (hi : i.Failing) (hmask : i.netmask ≠ none) :
    Spins fun k => iter (ifaceStep R E maxInt) k ⟨i :: l, n, b⟩ := by
  intro k
  refine iter_spins (S := fun s => ∃ j, j.Failing ∧ j.netmask ≠ none ∧ s = ⟨j :: l, n, b⟩) ?_ k _
    ⟨i, hi, hmask, rfl⟩
  rintro s ⟨j, hj, hjmask, rfl⟩
  obtain ⟨hnone, -⟩ | ⟨-, j', hj', hmask', hstep⟩ := ifaceStep_failing (R := R) (E := E) (l := l)
    (b := b) hn hj
  · exact absurd hnone hjmask
  · exact ⟨_, hstep, j', hj', hmask', rfl⟩

/-- The loop never gets past an interface that fails. -/
lemma ifaceLoop_stuck (hn : n < maxInt) (hi : i.Failing) (s : IfaceState) :
    ¬ Settles (fun k => iter (ifaceStep R E maxInt) k ⟨i :: l, n, b⟩) (.ok s) := by
  intro hs
  obtain ⟨-, hstep⟩ | ⟨hmask, -⟩ := ifaceStep_failing (R := R) (E := E) (l := l) (b := b) hn hi
  · exact absurd (hs.unique (settles_iter_error hstep)) (by simp)
  · exact (ifaceLoop_spins hn hi hmask).not_settles s hs

/-- A list in which nothing that fails is reached: the loop adds the first interfaces that can be
added. -/
lemma ifaceLoop_spec (l : List Iface) :
    ∀ {n : ℕ} {b : List SockAddrIn}, n ≤ maxInt → b.length = maxInt →
      (∀ a ∈ l.filterMap Iface.bcast, R.pton (R.form a) = some a) → Clear (maxInt - n) l →
      ∃ s, Settles (fun k => iter (ifaceStep R E maxInt) k ⟨l, n, b⟩) (.ok s)
        ∧ s.knownIfaces ≤ maxInt ∧ s.bcastAddr.length = maxInt
        ∧ s.bcastAddr.take s.knownIfaces = b.take n
          ++ ((l.filterMap Iface.bcast).take (maxInt - n)).map (bcastSockAddr E) := by
  induction l with
  | nil =>
      intro n b hn hb _ _
      exact ⟨_, settles_iter_inr ifaceStep_nil, hn, hb, by simp⟩
  | cons i l ih =>
      intro n b hn hb hinv hclear
      rcases Nat.lt_or_eq_of_le hn with hlt | rfl
      · obtain ⟨room, hroom⟩ : ∃ room, maxInt - n = room + 1 := ⟨maxInt - n - 1, by omega⟩
        obtain hskip | ⟨a, hadd⟩ | hfail := i.cases
        · have hbcast : i.bcast = none := by simp [Iface.bcast, hskip]
          rw [List.filterMap_cons_none hbcast] at hinv ⊢
          obtain ⟨s, hs, hrest⟩ := ih hn hb hinv ((clear_skip hskip).mp hclear)
          exact ⟨s, (settles_iter_inl (ifaceStep_skip hlt hskip)).mpr hs, hrest⟩
        · rw [List.filterMap_cons_some hadd] at hinv ⊢
          rw [hroom] at hclear ⊢
          have hroom' : maxInt - (n + 1) = room := by omega
          obtain ⟨s, hs, hle, hlen, htake⟩ := ih (n := n + 1) (b := b.set n (bcastSockAddr E a)) hlt
            (by rw [List.length_set, hb]) (fun c hc => hinv c (List.mem_cons_of_mem _ hc))
            (by rw [hroom']; exact (clear_add hadd).mp hclear)
          refine ⟨s, (settles_iter_inl (ifaceStep_add hlt hb hadd
            (hinv a (List.mem_cons_self ..)))).mpr hs, hle, hlen, ?_⟩
          rw [htake, hroom', List.take_succ_cons, List.map_cons, List.take_add_one,
            List.take_set_of_le le_rfl, List.getElem?_set_self (by omega), Option.toList_some,
            List.append_assoc, List.singleton_append]
        · rw [hroom] at hclear
          exact absurd hclear (not_clear hfail)
      · exact ⟨_, settles_iter_inr (ifaceStep_full le_rfl), le_rfl, hb, by simp⟩

/-- A list in which something that fails is reached: the loop gives nothing. -/
lemma ifaceLoop_halts (l : List Iface) :
    ∀ {n : ℕ} {b : List SockAddrIn}, n ≤ maxInt → b.length = maxInt →
      (∀ a ∈ l.filterMap Iface.bcast, R.pton (R.form a) = some a) → ¬ Clear (maxInt - n) l →
      ∀ s, ¬ Settles (fun k => iter (ifaceStep R E maxInt) k ⟨l, n, b⟩) (.ok s) := by
  induction l with
  | nil =>
      intro n b _ _ _ hclear
      exact absurd (clear_nil _) hclear
  | cons i l ih =>
      intro n b hn hb hinv hclear s hs
      rcases Nat.lt_or_eq_of_le hn with hlt | rfl
      · obtain ⟨room, hroom⟩ : ∃ room, maxInt - n = room + 1 := ⟨maxInt - n - 1, by omega⟩
        obtain hskip | ⟨a, hadd⟩ | hfail := i.cases
        · have hbcast : i.bcast = none := by simp [Iface.bcast, hskip]
          rw [List.filterMap_cons_none hbcast] at hinv
          rw [settles_iter_inl (ifaceStep_skip hlt hskip)] at hs
          exact ih hn hb hinv (fun h => hclear ((clear_skip hskip).mpr h)) s hs
        · rw [List.filterMap_cons_some hadd] at hinv
          rw [hroom] at hclear
          rw [settles_iter_inl (ifaceStep_add hlt hb hadd (hinv a (List.mem_cons_self ..)))] at hs
          have hroom' : maxInt - (n + 1) = room := by omega
          refine ih hlt (by rw [List.length_set, hb])
            (fun c hc => hinv c (List.mem_cons_of_mem _ hc)) (fun h => hclear ?_) s hs
          exact (clear_add hadd).mpr (hroom' ▸ h)
        · exact ifaceLoop_stuck hlt hfail s hs
      · rw [Nat.sub_self] at hclear
        exact hclear (clear_zero _)

/-- The loop over the interfaces ends, with the first `CONFIG_NET_MAX_INT` IPv4 interfaces that are
not the loopback and resolve, just if no other such interface comes before the last of them. -/
theorem ifaces_added_iff (R : Numeric) (E : Endian) (maxInt : ℕ) (ifaces : List Iface)
    (hinv : ∀ a ∈ ifaces.filterMap Iface.bcast, R.pton (R.form a) = some a) :
    (∃ s, Settles (fun k => posixNetInit R E maxInt k ifaces) (.ok s)
        ∧ s.knownIfaces ≤ maxInt ∧ s.bcastAddr.length = maxInt
        ∧ s.bcastAddr.take s.knownIfaces
          = ((ifaces.filterMap Iface.bcast).take maxInt).map (bcastSockAddr E))
      ↔ Clear maxInt ifaces := by
  have hlen : (List.replicate maxInt (⟨0, 0, 0⟩ : SockAddrIn)).length = maxInt :=
    List.length_replicate
  constructor
  · rintro ⟨s, hs, -⟩
    by_contra hclear
    exact ifaceLoop_halts ifaces (Nat.zero_le _) hlen hinv hclear s hs
  · intro hclear
    obtain ⟨s, hs, hle, hlen', htake⟩ := ifaceLoop_spec (E := E) ifaces (Nat.zero_le _) hlen hinv
      hclear
    exact ⟨s, hs, hle, hlen', by simpa using htake⟩

end

/-! ### Numeric addresses -/

/-- A number in decimal. -/
def decimal (n : ℕ) : List Byte := (Nat.toDigits 10 n).map fun c => BitVec.ofNat 8 c.toNat

/-- The number that some digits stand for. -/
def undecimal (s : List Byte) : Option ℕ :=
  if s ≠ [] ∧ s.all (fun c => decide (0x30 ≤ c ∧ c ≤ 0x39)) then
    some (s.foldl (fun n c => 10 * n + (c.toNat - 0x30)) 0)
  else none

/-- The dotted form of an address, whose octets are in memory in their order. -/
def dotted (E : Endian) (a : U32) : List Byte :=
  [0x2E].intercalate ((E.encode 4 a.toNat).map fun c => decimal c.toNat)

/-- The address of a dotted form. -/
def undotted (E : Endian) (s : List Byte) : Option U32 := do
  let octets ← (s.splitOn 0x2E).mapM undecimal
  if octets.length = 4 ∧ octets.all (fun n => decide (n < 256)) then
    return BitVec.ofNat 32 (E.decode (octets.map (BitVec.ofNat 8)))
  else none

/-- `getnameinfo` and `inet_pton` on IPv4 addresses. -/
def dottedQuad (E : Endian) : Numeric := ⟨dotted E, undotted E⟩

lemma undecimal_decimal : ∀ c : Byte,
    undecimal (decimal c.toNat) = some c.toNat ∧ 0x2E ∉ decimal c.toNat := by
  decide +kernel

/-- `inet_pton` inverts the numeric form. -/
lemma undotted_dotted (E : Endian) (a : U32) : undotted E (dotted E a) = some a := by
  have hlen : (E.encode 4 a.toNat).length = 4 := E.encode_length 4 a.toNat
  have hsplit : (dotted E a).splitOn 0x2E = (E.encode 4 a.toNat).map fun c => decimal c.toNat := by
    refine List.splitOn_intercalate _ ?_ ?_
    · intro l hl
      obtain ⟨c, -, rfl⟩ := List.mem_map.mp hl
      exact (undecimal_decimal c).2
    · intro h
      rw [List.map_eq_nil_iff] at h
      rw [h] at hlen
      simp at hlen
  have hoctets : ∀ l : List Byte, (l.map fun c => decimal c.toNat).mapM undecimal
      = some (l.map BitVec.toNat) := by
    intro l
    induction l with
    | nil => rfl
    | cons c l ih => simp [(undecimal_decimal c).1, ih]
  have hbytes : ((E.encode 4 a.toNat).map BitVec.toNat).map (BitVec.ofNat 8)
      = E.encode 4 a.toNat := by
    calc ((E.encode 4 a.toNat).map BitVec.toNat).map (BitVec.ofNat 8)
        = (E.encode 4 a.toNat).map (BitVec.ofNat 8 ∘ BitVec.toNat) := List.map_map
      _ = (E.encode 4 a.toNat).map id := List.map_congr_left fun c _ => by simp
      _ = E.encode 4 a.toNat := List.map_id _
  have hall : ((E.encode 4 a.toNat).map BitVec.toNat).all (fun n => decide (n < 256)) = true := by
    rw [List.all_eq_true]
    intro n hn
    obtain ⟨c, -, rfl⟩ := List.mem_map.mp hn
    exact decide_eq_true c.isLt
  rw [undotted, hsplit, hoctets, Option.bind_eq_bind, Option.bind_some,
    if_pos ⟨by rw [List.length_map, hlen], hall⟩, hbytes, Endian.decode_encode _ a.isLt]
  simp

/-- An interface that resolves. -/
def ethernet : Iface := ⟨[0x65, 0x74, 0x68, 0x30], some ⟨afInet, 0x0701A8C0⟩, some 0x00FFFFFF, true⟩

/-- An interface that does not. -/
def tunnel : Iface := ⟨[0x74, 0x75, 0x6E, 0x30], some ⟨afInet, 0x0100000A⟩, some 0x00FFFFFF, false⟩

theorem ifaces_added_iff_sample :
    (∃ s, Settles (fun k => posixNetInit (dottedQuad .le) .le 1 k [ethernet, tunnel]) (.ok s)
        ∧ s.knownIfaces ≤ 1 ∧ s.bcastAddr.length = 1
        ∧ s.bcastAddr.take s.knownIfaces
          = (([ethernet, tunnel].filterMap Iface.bcast).take 1).map (bcastSockAddr .le))
      ↔ Clear 1 [ethernet, tunnel] :=
  ifaces_added_iff (dottedQuad .le) .le 1 [ethernet, tunnel] fun a _ => undotted_dotted .le a

/-- An interface that does not resolve keeps the one behind it from being added: the loop does not
end. -/
theorem tunnel_spins :
    Spins (fun k => posixNetInit (dottedQuad .le) .le 8 k [tunnel, ethernet])
      ∧ [tunnel, ethernet].filterMap Iface.bcast = [0xFF01A8C0] := by
  refine ⟨?_, by decide⟩
  have hfail : tunnel.Failing := ⟨by decide, by decide⟩
  exact ifaceLoop_spins (by norm_num) hfail (by decide)

/-! ### Sending on all interfaces -/

/-- There was a call of `sendto` for the interface. -/
def Attempted (sent : List Sent) (j : ℕ) : Prop := ∃ data, ⟨some j, data⟩ ∈ sent

section

variable {data : List Byte} {ok : ℕ → Bool} {n j : ℕ}

/-- An interface is attempted if `sendto` succeeds on all before it. -/
lemma bcastSendLoop_attempted :
    ∀ {i}, Attempted (bcastSendLoop data ok i n).2 j
      ↔ (i ≤ j ∧ j < i + n) ∧ ∀ k, i ≤ k → k < j → ok k = true := by
  induction n with
  | zero =>
      intro i
      simp only [bcastSendLoop, Attempted, List.not_mem_nil, exists_false, false_iff]
      rintro ⟨⟨h, h'⟩, -⟩
      omega
  | succ n ih =>
      intro i
      rw [bcastSendLoop]
      by_cases hok : ok i = true
      · rw [if_pos hok]
        have hcons : Attempted (⟨some i, data⟩ :: (bcastSendLoop data ok (i + 1) n).2) j
            ↔ j = i ∨ Attempted (bcastSendLoop data ok (i + 1) n).2 j := by
          simp [Attempted, exists_or]
        rw [hcons, ih]
        constructor
        · rintro (rfl | ⟨⟨h, h'⟩, hall⟩)
          · exact ⟨⟨le_rfl, by omega⟩, fun k hk hk' => by omega⟩
          · refine ⟨⟨by omega, by omega⟩, fun k hk hk' => ?_⟩
            rcases Nat.eq_or_lt_of_le hk with rfl | hlt
            · exact hok
            · exact hall k hlt hk'
        · rintro ⟨⟨h, h'⟩, hall⟩
          rcases Nat.eq_or_lt_of_le h with rfl | hlt
          · exact Or.inl rfl
          · exact Or.inr ⟨⟨hlt, by omega⟩, fun k hk hk' => hall k (by omega) hk'⟩
      · rw [if_neg hok]
        have hone : Attempted [⟨some i, data⟩] j ↔ j = i := by simp [Attempted]
        rw [hone]
        constructor
        · rintro rfl
          exact ⟨⟨le_rfl, by omega⟩, fun k hk hk' => by omega⟩
        · rintro ⟨⟨h, h'⟩, hall⟩
          by_contra hne
          exact hok (hall i le_rfl (by omega))

/-- The value says whether a call of `sendto` has failed. -/
lemma bcastSendLoop_fst :
    ∀ {i}, (bcastSendLoop data ok i n).1 < 0 ↔ ∃ k, i ≤ k ∧ k < i + n ∧ ok k = false := by
  induction n with
  | zero =>
      intro i
      simp only [bcastSendLoop, lt_self_iff_false, false_iff]
      rintro ⟨k, h, h', -⟩
      omega
  | succ n ih =>
      intro i
      rw [bcastSendLoop]
      by_cases hok : ok i = true
      · rw [if_pos hok, ih]
        constructor
        · rintro ⟨k, h, h', hk⟩
          exact ⟨k, by omega, by omega, hk⟩
        · rintro ⟨k, h, h', hk⟩
          have hne : k ≠ i := by
            rintro rfl
            simp [hok] at hk
          exact ⟨k, by omega, by omega, hk⟩
      · rw [if_neg hok]
        exact ⟨fun _ => ⟨i, le_rfl, by omega, by simpa using hok⟩, fun _ => by norm_num⟩

/-- Where all interfaces but the last succeed, all are attempted, in their order. -/
lemma bcastSendLoop_all :
    ∀ {i}, (∀ k, i ≤ k → k + 1 < i + n → ok k = true) →
      (bcastSendLoop data ok i n).2 = (List.range' i n).map fun j => ⟨some j, data⟩ := by
  induction n with
  | zero => intro i _; rfl
  | succ n ih =>
      intro i hall
      rw [bcastSendLoop, List.range'_succ, List.map_cons]
      by_cases hok : ok i = true
      · rw [if_pos hok, ← ih fun k hk hk' => hall k (by omega) (by omega)]
      · have hn : n = 0 := by
          by_contra hn
          exact hok (hall i le_rfl (by omega))
        subst hn
        rw [if_neg hok]
        rfl

/-- All interfaces are attempted just if all but the last succeed. -/
lemma attempted_all_iff :
    (∀ j < n, Attempted (bcastSendLoop data ok 0 n).2 j) ↔ ∀ j, j + 1 < n → ok j = true := by
  constructor
  · intro h j hj
    exact (bcastSendLoop_attempted.mp (h (n - 1) (by omega))).2 j (Nat.zero_le _) (by omega)
  · intro h j hj
    exact bcastSendLoop_attempted.mpr
      ⟨⟨Nat.zero_le _, by omega⟩, fun k _ hk => h k (by omega)⟩

end

/-! ### Runs -/

/-- What a call of `NET_HandleBcast` finds: the interfaces and what becomes of what is sent on them,
and the queues of the sockets. -/
structure Round where
  env : Env
  bcast : List Arrival
  mcast : List Arrival

/-- Calls of `NET_HandleBcast`, one after the other: the new state, and what each call sends. -/
def handleRounds (t : Target) (m : Malloc t.bits) (uuid : U64 × U64) (fuel : ℕ) :
    List Round → NetState t.bits → Except Halt (NetState t.bits × List (List Sent))
  | [], st => .ok (st, [])
  | r :: rs, st => do
    let (st, _, _, sent) ← netHandleBcast t m uuid r.env fuel st r.bcast r.mcast
    let (st, log) ← handleRounds t m uuid fuel rs st
    return (st, sent :: log)

/-- The `i`-th call sends, if the first one is made with `counter` being `c`. -/
def SendsFrom (c : U32) (i : ℕ) : Prop := (c + BitVec.ofNat 32 i) % 15 = 0

section

variable {t : Target} {m : Malloc t.bits} {uuid : U64 × U64} {fuel : ℕ} {env : Env} {msg : Block}
  {node node' : NodeState t.bits} {st st' : NetState t.bits} {b b' q q' : List Arrival}
  {sent : List Sent} {data : List Byte} {j : ℕ}

lemma platNetDoBroadcast_eq (h : sendData t msg = .ok data) :
    platNetDoBroadcast t env msg = .ok (bcastSendLoop data env.bcastSend 0 env.knownIfaces) := by
  rw [platNetDoBroadcast, h, ok_bind, pure_eq_ok]

/-- The sending half attempts the interfaces that the loop of `PLAT_NetDoBroadcast` attempts. -/
lemma netSend_attempted {msg' : Block}
    (h : netSend t m uuid env fuel msg node = .ok (msg', node', sent)) :
    Attempted sent j ↔ j < env.knownIfaces ∧ ∀ k < j, env.bcastSend k = true := by
  rw [netSend] at h
  obtain ⟨⟨msg₁, node₁⟩, -, h⟩ := bind_eq_ok.mp h
  obtain ⟨⟨ret, sent₁⟩, hbcast, h⟩ := bind_eq_ok.mp h
  rw [platNetDoBroadcast] at hbcast
  obtain ⟨data, -, hbcast⟩ := bind_eq_ok.mp hbcast
  have hloop : (bcastSendLoop data env.bcastSend 0 env.knownIfaces).2 = sent₁ :=
    congrArg Prod.snd (Except.ok.inj hbcast)
  have hsent : Attempted sent j ↔ Attempted sent₁ j := by
    split_ifs at h with hmc
    · rw [platNetDoMulticast, if_pos hmc] at h
      obtain ⟨⟨ret', sent₂⟩, hmcast, h⟩ := bind_eq_ok.mp h
      obtain ⟨data', -, hmcast⟩ := bind_eq_ok.mp hmcast
      obtain ⟨-, rfl⟩ := Prod.mk.inj (Except.ok.inj hmcast)
      obtain ⟨-, h⟩ := Prod.mk.inj (Except.ok.inj h)
      obtain ⟨-, rfl⟩ := Prod.mk.inj h
      simp [Attempted]
    · obtain ⟨-, h⟩ := Prod.mk.inj (Except.ok.inj h)
      obtain ⟨-, rfl⟩ := Prod.mk.inj h
      rfl
  rw [hsent, ← hloop, bcastSendLoop_attempted, Nat.zero_add]
  simp only [Nat.zero_le, true_and, forall_true_left]

/-- What one call attempts, and how it counts. -/
lemma netHandleBcast_attempted
    (h : netHandleBcast t m uuid env fuel st b q = .ok (st', b', q', sent)) :
    st'.counter = st.counter + 1 ∧ (st.counter % 15 = 0 →
      ∀ j, Attempted sent j ↔ j < env.knownIfaces ∧ ∀ k < j, env.bcastSend k = true) := by
  rw [netHandleBcast] at h
  obtain ⟨s, -, h⟩ := bind_eq_ok.mp h
  split_ifs at h with hc
  · obtain ⟨rfl, -⟩ := Prod.mk.inj (Except.ok.inj h)
    exact ⟨rfl, fun h0 => absurd h0 hc⟩
  · obtain ⟨⟨msg', node', sent'⟩, hsend, h⟩ := bind_eq_ok.mp h
    obtain ⟨rfl, hrest⟩ := Prod.mk.inj (Except.ok.inj h)
    obtain ⟨-, hrest⟩ := Prod.mk.inj hrest
    obtain ⟨-, rfl⟩ := Prod.mk.inj hrest
    exact ⟨rfl, fun _ j => netSend_attempted hsend⟩

lemma handleRounds_one {r : Round}
    (h : netHandleBcast t m uuid r.env fuel st r.bcast r.mcast = .ok (st', b', q', sent)) :
    handleRounds t m uuid fuel [r] st = .ok (st', [sent]) := by
  rw [handleRounds, h, ok_bind]
  rfl

/-- What the calls of a run attempt. -/
lemma handleRounds_attempted (rs : List Round) :
    ∀ {st : NetState t.bits} {log : List (List Sent)},
      handleRounds t m uuid fuel rs st = .ok (st', log) →
      log.length = rs.length ∧ ∀ i r sent, rs[i]? = some r → log[i]? = some sent →
        SendsFrom st.counter i →
        ∀ j, Attempted sent j ↔ j < r.env.knownIfaces ∧ ∀ k < j, r.env.bcastSend k = true := by
  induction rs with
  | nil =>
      intro st log h
      obtain ⟨-, rfl⟩ := Prod.mk.inj (Except.ok.inj h)
      exact ⟨rfl, fun i r sent hr => by simp at hr⟩
  | cons r rs ih =>
      intro st log h
      rw [handleRounds] at h
      obtain ⟨⟨st₁, b, q, sent⟩, hcall, h⟩ := bind_eq_ok.mp h
      obtain ⟨⟨st₂, log'⟩, hrest, h⟩ := bind_eq_ok.mp h
      obtain ⟨rfl, rfl⟩ := Prod.mk.inj (Except.ok.inj h)
      obtain ⟨hcounter, hattempted⟩ := netHandleBcast_attempted hcall
      obtain ⟨hlen, hall⟩ := ih hrest
      refine ⟨by rw [List.length_cons, List.length_cons, hlen], fun i r' sent' hr hsent hsends => ?_⟩
      cases i with
      | zero =>
          obtain rfl : r = r' := by simpa using hr
          obtain rfl : sent = sent' := by simpa using hsent
          exact hattempted (by simpa [SendsFrom] using hsends)
      | succ i =>
          have hnext : SendsFrom st₁.counter i := by
            rw [SendsFrom, hcounter, BitVec.add_assoc]
            rwa [SendsFrom, BitVec.ofNat_add, BitVec.add_comm (BitVec.ofNat 32 i)] at hsends
          exact hall i r' sent' (by simpa using hr) (by simpa using hsent) hnext

/-- A call of `PLAT_NetDoBroadcast` attempts all interfaces just if all but the last one succeed; its
value is always right. A run of calls of `NET_HandleBcast` attempts all interfaces whenever it sends
just if that is so whenever it sends. -/
theorem broadcast_isolated_iff (t : Target) (env : Env) (msg : Block) :
    (∀ data, sendData t msg = .ok data →
      ∃ ret sent, platNetDoBroadcast t env msg = .ok (ret, sent)
        ∧ (sent = (List.range env.knownIfaces).map (fun j => ⟨some j, data⟩)
          ↔ ∀ j, j + 1 < env.knownIfaces → env.bcastSend j = true)
        ∧ (ret < 0 ↔ ∃ j < env.knownIfaces, env.bcastSend j = false))
    ∧ ∀ (m : Malloc t.bits) (uuid : U64 × U64) (fuel : ℕ) (rs : List Round) (st st' : NetState t.bits)
        (log : List (List Sent)), handleRounds t m uuid fuel rs st = .ok (st', log) →
      log.length = rs.length
        ∧ ((∀ i r sent, rs[i]? = some r → log[i]? = some sent → SendsFrom st.counter i →
            ∀ j < r.env.knownIfaces, Attempted sent j)
          ↔ ∀ i r, rs[i]? = some r → SendsFrom st.counter i →
            ∀ j, j + 1 < r.env.knownIfaces → r.env.bcastSend j = true) := by
  refine ⟨fun data hdata => ⟨_, _, platNetDoBroadcast_eq hdata, ⟨?_, ?_⟩, ?_⟩, ?_⟩
  · intro hsent
    have hall : ∀ j < env.knownIfaces,
        Attempted (bcastSendLoop data env.bcastSend 0 env.knownIfaces).2 j := by
      intro j hj
      rw [hsent]
      exact ⟨data, List.mem_map.mpr ⟨j, List.mem_range.mpr hj, rfl⟩⟩
    exact attempted_all_iff.mp hall
  · intro hall
    rw [bcastSendLoop_all fun k _ hk => hall k (by omega), List.range_eq_range']
  · rw [bcastSendLoop_fst]
    constructor
    · rintro ⟨k, -, hk, hok⟩
      exact ⟨k, by omega, hok⟩
    · rintro ⟨k, hk, hok⟩
      exact ⟨k, Nat.zero_le _, by omega, hok⟩
  · intro m uuid fuel rs st st' log h
    obtain ⟨hlen, hall⟩ := handleRounds_attempted rs h
    refine ⟨hlen, ⟨fun hevery i r hr hsends j hj => ?_,
      fun hevery i r sent hr hsent hsends j hj => ?_⟩⟩
    · obtain ⟨sent, hsent⟩ : ∃ sent, log[i]? = some sent := by
        have hi : i < log.length := hlen ▸ (List.getElem?_eq_some_iff.mp hr).1
        exact ⟨_, List.getElem?_eq_getElem hi⟩
      have hlast := hevery i r sent hr hsent hsends (r.env.knownIfaces - 1) (by omega)
      exact ((hall i r sent hr hsent hsends _).mp hlast).2 j (by omega)
    · exact (hall i r sent hr hsent hsends j).mpr
        ⟨hj, fun k hk => hevery i r hr hsends k (by omega)⟩

end

/-- Three interfaces, of which the middle one always fails. -/
def outage : Env := sockEnv 3 (fun j => decide (j ≠ 1)) true

/-- The sample node before its first call of `NET_HandleBcast`. -/
def sampleStart : NetState 64 := ⟨zeroed .linux64 4096, sampleNode, 0⟩

/-- The message buffer of the sample node, with its packet in it. -/
def sampleOut : Block := received (zeroed .linux64 4096) loopback

lemma sampleOut_data : sendData .linux64 sampleOut = .ok loopback.bytes :=
  sendData_spec (received_receives zeroed_linux64 (loopback_ok .again).1)

/-- The sample node makes its first call while nothing arrives. -/
lemma outage_round : ∃ k st' sent,
    handleRounds .linux64 .spread (0, 0) k [⟨outage, [], []⟩] sampleStart = .ok (st', [sent]) := by
  have hdrain : drain (0, 0) 3 Target.linux64.multicast [] [] = [] := drain_none rfl
  have hroom : Room (w := 64) .spread (crowd 0 1 0)
      (entriesOf (drain (0, 0) 3 Target.linux64.multicast [] [])) := by
    rw [hdrain]
    exact ⟨by rw [entriesOf_nil, mergeNew_nil, total_sample]; norm_num,
      by rw [entriesOf_nil, mergeNew_nil, total_sample]; norm_num [Malloc.spread]⟩
  obtain ⟨s, hrecv, hbuf, hholds⟩ := netReceive_queue (t := .linux64) (m := Malloc.spread) (0, 0) 3
    (fun j => decide (j ≠ 1)) true (q := []) (by simp) zeroed_linux64 sampleNode_holds
    (by simp [crowd]) hroom
  rw [hdrain, entriesOf_nil, mergeNew_nil] at hholds
  have hsend : Sendable .linux64 (crowd 0 1 0) :=
    ⟨by simp [total_crowd, Target.bufSize, Target.linux64], by simp [crowd]⟩
  obtain ⟨st', ⟨k, hk⟩, -⟩ := netHandleBcast_spec (c := 0) hrecv hbuf hholds (fun _ => hsend)
    (by norm_num [Malloc.spread, Target.linux64])
  have hcall := hk k le_rfl
  dsimp only at hcall
  rw [if_pos (by decide)] at hcall
  refine ⟨k, st', sentOf .linux64 outage loopback.bytes, ?_⟩
  exact handleRounds_one (r := ⟨outage, [], []⟩) hcall

theorem broadcast_isolated_iff_sample :
    (∃ ret sent, platNetDoBroadcast .linux64 outage sampleOut = .ok (ret, sent)
        ∧ (sent = (List.range outage.knownIfaces).map (fun j => ⟨some j, loopback.bytes⟩)
          ↔ ∀ j, j + 1 < outage.knownIfaces → outage.bcastSend j = true)
        ∧ (ret < 0 ↔ ∃ j < outage.knownIfaces, outage.bcastSend j = false))
    ∧ ∃ k st' log, handleRounds .linux64 .spread (0, 0) k [⟨outage, [], []⟩] sampleStart
          = .ok (st', log)
        ∧ ((∀ i r sent, [(⟨outage, [], []⟩ : Round)][i]? = some r → log[i]? = some sent →
            SendsFrom sampleStart.counter i → ∀ j < r.env.knownIfaces, Attempted sent j)
          ↔ ∀ i r, [(⟨outage, [], []⟩ : Round)][i]? = some r → SendsFrom sampleStart.counter i →
            ∀ j, j + 1 < r.env.knownIfaces → r.env.bcastSend j = true) := by
  obtain ⟨k, st', sent, hk⟩ := outage_round
  obtain ⟨hone, hruns⟩ := broadcast_isolated_iff .linux64 outage sampleOut
  exact ⟨hone _ sampleOut_data, k, st', [sent], hk, (hruns _ _ _ _ _ _ _ hk).2⟩

/-- The interface in the middle keeps the last one, which would succeed, from being attempted. -/
theorem outage_spreads :
    ∃ k st' sent, handleRounds .linux64 .spread (0, 0) k [⟨outage, [], []⟩] sampleStart
        = .ok (st', [sent])
      ∧ outage.knownIfaces = 3 ∧ outage.bcastSend 2 = true ∧ ¬ Attempted sent 2 := by
  obtain ⟨k, st', sent, hk⟩ := outage_round
  obtain ⟨-, hall⟩ := handleRounds_attempted _ hk
  refine ⟨k, st', sent, hk, rfl, rfl, fun h => ?_⟩
  have hsends : SendsFrom sampleStart.counter 0 := by
    rw [SendsFrom]
    decide
  have hfirst := ((hall 0 ⟨outage, [], []⟩ sent rfl rfl hsends 2).mp h).2 1 (by norm_num)
  exact absurd hfirst (by decide)

end EverythingNet
