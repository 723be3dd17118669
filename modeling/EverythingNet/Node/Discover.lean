import Mathlib.Tactic
import EverythingNet.Lib.KeyedLog
import EverythingNet.Net.Gate

/-!
`NODE_MaybeAddEntry` and `NODE_CheckForNewNodes` of `app/node.c`: taking the nodes of a message
into the node list.

* `NodeState`: the variables of `app/node.c`. `nodeMaybeAddEntry` looks for the UUID of an entry
  in the node list, and if it is not there finds the last entry, reallocates the list and copies
  the entry behind it. `nodeCheckForNewNodes` does so for each entry of a message.
* `Holds t b v K`: the block `b` is a node list with the sound entries `K`. The loops are
  `Holds.known_loop` and `Holds.last_loop`.
* `nodeMaybeAddEntry_known`, `nodeMaybeAddEntry_new`: what the function does to a list it keeps
  and to one it extends. `nodeMaybeAddEntry_unknown` takes an entry with a new UUID as far as the
  reallocation. `Between` is the invariant of the walk over a message, `Between.step` one
  round of it. `nodeCheckForNewNodes_spec`: the code merges the message into the list,
  `KeyedLog.mergeNew` with the UUID as the key.
-/

namespace EverythingNet

open CMem KeyedLog

/-- `nodeDiscoverySrc_t`, and the value before the variable is first set. -/
inductive DiscoverySrc where
  | unset
  | broadcast
  | multicast
  | otherNode
  deriving DecidableEq, Repr

/-- `discoverySrcToStr`. -/
def discoverySrcToStr : DiscoverySrc → String
  | .broadcast => "Broadcast"
  | .multicast => "Multicast"
  | .otherNode => "Other Node"
  | .unset => "Unknown"

/-- What is printed about a new node: its name, the discovery source and, if the name of the node
that told of it is printed, that name. -/
structure Found where
  name : List Byte
  source : String
  discoveredBy : Option (List Byte)
  deriving DecidableEq

/-- The variables `NODE_NodeList`, `NODE_DiscoverySource` and `NODE_DiscoverySourceNode`, the
number of requests the allocator has served and what has been printed. -/
structure NodeState (w : ℕ) where
  nodeList : Block
  source : DiscoverySrc
  sourceNode : Option (BitVec w)
  allocs : ℕ
  found : List Found

/-- The pointer `NODE_NodeList`. -/
abbrev NodeState.nl {w : ℕ} (st : NodeState w) : BitVec w := BitVec.ofNat w st.nodeList.base

variable {w : ℕ}

/-! ### The code -/

/-- The comparison of the UUIDs of an entry of the message and an entry of the list. -/
def sameUuid (E : Endian) (msg b : Block) (e knownEntry : BitVec w) : Except Halt Bool := do
  let x ← entryNodeUuid msg e >>= load64 E msg
  let y ← entryNodeUuid b knownEntry >>= load64 E b
  if x = y then
    let x ← entryNodeUuid msg e >>= fun q => load64 E msg (q + 8)
    let y ← entryNodeUuid b knownEntry >>= fun q => load64 E b (q + 8)
    return decide (x = y)
  else
    return false

/-- A round of the loop that looks for the UUID. -/
def knownStep (E : Endian) (msg b : Block) (e nl knownEntry : BitVec w) :
    Except Halt (BitVec w ⊕ Bool) := do
  if knownEntry < nlEntries nl + (← nlBody E b nl) then
    if ← sameUuid E msg b e knownEntry then
      return .inr true
    else
      return .inl (← entryNext E b knownEntry)
  else
    return .inr false

/-- A round of the loop that looks for the last entry. `lastEntry` has no value before the first
round. -/
def lastStep (E : Endian) (b : Block) (nl : BitVec w) :
    Option (BitVec w) × BitVec w →
      Except Halt ((Option (BitVec w) × BitVec w) ⊕ Option (BitVec w))
  | (lastEntry, knownEntry) => do
    if knownEntry - nlEntries nl < (← nlBody E b nl) then
      return .inl (some knownEntry, ← entryNext E b knownEntry)
    else
      return .inr lastEntry

/-- The name of the node that told of a new one, if it is to be printed. -/
def discoveredBy (msg : Block) (st : NodeState w) : Except Halt (Option (List Byte)) :=
  match st.source, st.sourceNode with
  | .otherNode, some q => do return some (← msg.cstr (entryNodeName q).toNat)
  | _, _ => .ok none

/-- `NODE_MaybeAddEntry`. -/
def nodeMaybeAddEntry (t : Target) (m : Malloc t.bits) (fuel : ℕ) (msg : Block)
    (e : BitVec t.bits) (st : NodeState t.bits) : Except Halt (NodeState t.bits) := do
  let b := st.nodeList
  let nl := st.nl
  if ← iter (knownStep t.endian msg b e nl) fuel (nlEntries nl) then
    return st
  else
    match ← iter (lastStep t.endian b nl) fuel (none, nlEntries nl) with
    | none => .error .uninitialised
    | some lastEntry =>
      let lastEntryOffset : U32 := (lastEntry - nlEntries nl).setWidth 32
      let size ← load16 t.endian msg (entrySize e)
      let len := (← load32 t.endian b (nlLen nl)) + size.setWidth 32
      let b ← store32 t.endian b (nlLen nl) len
      match m.realloc st.allocs b len.toNat with
      | none => .error .nullPointer
      | some b =>
        let nl := BitVec.ofNat t.bits b.base
        let lastEntry := nlEntries nl + lastEntryOffset.setWidth t.bits
        let knownEntry ← entryNext t.endian b lastEntry
        let b ← b.store knownEntry.toNat (← msg.loadN e.toNat size.toNat)
        let name ← msg.cstr (entryNodeName e).toNat
        let other ← discoveredBy msg st
        return { st with
          nodeList := b
          allocs := st.allocs + 1
          found := st.found ++ [⟨name, discoverySrcToStr st.source, other⟩] }

/-- A round of the loop of `NODE_CheckForNewNodes`. -/
def checkStep (t : Target) (m : Malloc t.bits) (fuel : ℕ) (msg : Block) (nl : BitVec t.bits) :
    NodeState t.bits × BitVec t.bits →
      Except Halt ((NodeState t.bits × BitVec t.bits) ⊕ NodeState t.bits)
  | (st, e) => do
    if e - nlEntries nl < (← nlBody t.endian msg nl) then
      let st ← nodeMaybeAddEntry t m fuel msg e st
      let e ← entryNext t.endian msg e
      return .inl ({ st with source := .otherNode, sourceNode := some (nlEntries nl) }, e)
    else
      return .inr st

/-- `NODE_CheckForNewNodes`: the message, converted in place, and the new state. -/
def nodeCheckForNewNodes (t : Target) (m : Malloc t.bits) (fuel : ℕ) (msg : Block)
    (st : NodeState t.bits) : Except Halt (Block × NodeState t.bits) := do
  let nl := msgNodeList (BitVec.ofNat t.bits msg.base)
  let msg ← nodeListToNative t.endian fuel msg nl
  let st ← iter (checkStep t m fuel msg nl) fuel (st, nlEntries nl)
  return (msg, st)

lemma nodeMaybeAddEntry_steady (t : Target) (m : Malloc t.bits) (msg : Block) (e : BitVec t.bits)
    (st : NodeState t.bits) : Steady fun fuel => nodeMaybeAddEntry t m fuel msg e st := by
  refine (Steady.loop _ _).bind fun known => ?_
  refine Steady.ite (fun _ => Steady.const _) fun _ => ?_
  exact (Steady.loop _ _).bind fun last => Steady.const _

lemma nodeCheckForNewNodes_steady (t : Target) (m : Malloc t.bits) (msg : Block)
    (st : NodeState t.bits) : Steady fun fuel => nodeCheckForNewNodes t m fuel msg st := by
  refine (nodeListToNative_steady _ _ _).bind fun msg' => ?_
  refine Steady.bind (Steady.iter (fun s => ?_) _) fun st' => Steady.const _
  refine (Steady.const _).bind fun body => Steady.ite (fun _ => ?_) fun _ => Steady.const _
  exact (nodeMaybeAddEntry_steady t m msg' s.2 s.1).bind fun st' => Steady.const _

/-! ### A node list in its block -/

/-- The block is a node list with these sound entries. -/
structure Holds (t : Target) (b : Block) (v : U32) (K : List Entry) : Prop where
  bytes : b.bytes = listBytes t.endian v K
  sound : ∀ e ∈ K, e.Sound
  pos : 0 < b.base
  dvd : 8 ∣ b.base
  len_lt : 8 + total K < 2 ^ 32
  room : b.base + b.size < 2 ^ t.bits

namespace Holds

variable {t : Target} {b : Block} {v : U32} {K : List Entry}

lemma size_eq (h : Holds t b v K) : b.size = 8 + total K := by
  rw [Block.size, h.bytes, listBytes_length]

lemma toNat_nl (h : Holds t b v K) : (BitVec.ofNat t.bits b.base).toNat = b.base :=
  toNat_ofNat_of_lt (by have := h.room; omega)

lemma frame (h : Holds t b v K) :
    Frame b.base [] [] (BitVec.ofNat t.bits b.base) (total K) where
  bits := t.bits_eq
  addr := by rw [h.toNat_nl, List.length_nil, Nat.add_zero]
  len_lt := h.len_lt
  room := by
    have := h.room
    rw [h.size_eq] at this
    simp only [List.length_nil]
    omega

lemma eq_mk (h : Holds t b v K) : b = ⟨b.base, [] ++ (listBytes t.endian v K ++ [])⟩ := by
  rw [List.nil_append, List.append_nil, ← h.bytes]

lemma laid (h : Holds t b v K) : Laid (b.base + 8) K :=
  Laid.of_sound h.sound (dvd_add h.dvd (by norm_num))

lemma laid_nl (h : Holds t b v K) : Laid ((BitVec.ofNat t.bits b.base).toNat + 8) K :=
  h.toNat_nl.symm ▸ h.laid

/-- The bytes of a list determine its entries. -/
lemma unique {v' : U32} {K' : List Entry} (h : Holds t b v K) (h' : Holds t b v' K') : K = K' := by
  have hbytes := h.bytes.symm.trans h'.bytes
  refine eq_of_entriesBytes h.sound h'.sound (E := t.endian) ?_
  exact (List.append_inj hbytes (by rw [listHeader_length, listHeader_length])).2

lemma nlBody (h : Holds t b v K) :
    EverythingNet.nlBody t.endian b (BitVec.ofNat t.bits b.base)
      = .ok (BitVec.ofNat t.bits (total K)) := by
  have := h.frame.nlBody_list (v := v) (E := t.endian) rfl
  rwa [← h.eq_mk] at this

/-- An entry of the list lies where the walks find it. -/
lemma sits_at (h : Holds t b v K) {ds rs : List Entry} {e : Entry} {q : BitVec t.bits}
    (hK : K = ds ++ e :: rs) (hq : q.toNat = b.base + 8 + total ds) : Sits t.endian b q e := by
  subst hK
  have hlaid : Laid (b.base + 8 + total ds) (e :: rs) := h.laid.append.2
  have hq' : q.toNat = (BitVec.ofNat t.bits b.base).toNat + 8 + total ds := by
    rw [h.toNat_nl, hq]
  have hs := h.frame.sits_at (v := v) (E := t.endian) rfl hq' (hq.symm ▸ hlaid.1)
  rwa [← h.eq_mk] at hs

lemma addr_lt (h : Holds t b v K) {q : BitVec t.bits} {k : ℕ} (hq : q.toNat = b.base + 8 + k) :
    q < nlEntries (BitVec.ofNat t.bits b.base) + BitVec.ofNat t.bits (total K) ↔ k < total K :=
  h.frame.addr_lt (by rw [h.toNat_nl, hq])

lemma offset_lt (h : Holds t b v K) {q : BitVec t.bits} {k : ℕ} (hq : q.toNat = b.base + 8 + k)
    (hk : k ≤ total K) :
    q - nlEntries (BitVec.ofNat t.bits b.base) < BitVec.ofNat t.bits (total K) ↔ k < total K :=
  h.frame.offset_lt (by rw [h.toNat_nl, hq]) hk

lemma toNat_entries (h : Holds t b v K) :
    (nlEntries (BitVec.ofNat t.bits b.base)).toNat = b.base + 8 := by
  rw [h.frame.toNat_entries, h.toNat_nl]

end Holds

/-! ### The loops of `NODE_MaybeAddEntry` -/

/-- The comparison of the code compares the UUIDs. -/
lemma sameUuid_spec {E : Endian} {msg b : Block} {p q : BitVec w} {e f : Entry}
    (he : Sits E msg p e) (hf : Sits E b q f) :
    sameUuid E msg b p q = .ok (decide (e.uuid = f.uuid)) := by
  rw [sameUuid, he.load_uuid0, ok_bind, hf.load_uuid0, ok_bind]
  split_ifs with h
  · rw [he.load_uuid1, ok_bind, hf.load_uuid1, ok_bind, pure_eq_ok]
    simp [Prod.ext_iff, h]
  · rw [pure_eq_ok]
    simp [Prod.ext_iff, h]

namespace Holds

variable {t : Target} {b : Block} {v : U32} {K : List Entry}

/-- The first loop finds out whether the UUID is in the list. -/
lemma known_loop (h : Holds t b v K) {msg : Block} {p : BitVec t.bits} {e : Entry}
    (he : Sits t.endian msg p e) {k : ℕ} (hk : K.length < k) :
    iter (knownStep t.endian msg b p (BitVec.ofNat t.bits b.base)) k
        (nlEntries (BitVec.ofNat t.bits b.base))
      = .ok (decide (e.uuid ∈ K.map uuidOf)) := by
  -- the UUID is not among those of the entries `ds` behind the pointer
  let I : List Entry → BitVec t.bits → Prop := fun rs q =>
    ∃ ds, K = ds ++ rs ∧ q.toNat = b.base + 8 + total ds ∧ e.uuid ∉ ds.map uuidOf
  have hinit : I K (nlEntries (BitVec.ofNat t.bits b.base)) := by
    refine ⟨[], rfl, ?_, by simp⟩
    rw [h.toNat_entries, total_nil, Nat.add_zero]
  suffices hloop : ∃ r, iter (knownStep t.endian msg b p (BitVec.ofNat t.bits b.base)) k
      (nlEntries (BitVec.ofNat t.bits b.base)) = .ok r
      ∧ r = decide (e.uuid ∈ K.map uuidOf) by
    obtain ⟨r, hr, rfl⟩ := hloop
    exact hr
  refine iter_list ?_ ?_ K _ k hinit hk
  · rintro f rs q ⟨ds, hK, hq, hds⟩
    have hsits := h.sits_at hK hq
    have htot : total K = total ds + (f.length + total rs) := by
      rw [hK, total_append, total_cons]
    have hpos := f.length_ge
    have hlt := (h.addr_lt hq).mpr (by omega)
    by_cases huuid : e.uuid = f.uuid
    · right
      refine ⟨true, ?_, ?_⟩
      · rw [knownStep, h.nlBody, ok_bind, if_pos hlt, sameUuid_spec he hsits, ok_bind,
          if_pos (by simpa using huuid), pure_eq_ok]
      · simp [hK, huuid]
    · left
      refine ⟨q + BitVec.ofNat t.bits f.length, ?_, ds ++ [f], by simpa using hK, ?_, ?_⟩
      · rw [knownStep, h.nlBody, ok_bind, if_pos hlt, sameUuid_spec he hsits, ok_bind,
          if_neg (by simpa using huuid), hsits.next, ok_bind, pure_eq_ok]
      · rw [hsits.toNat_next, hq, total_append, total_cons, total_nil]
        omega
      · rw [List.map_append, List.mem_append]
        simpa [huuid] using hds
  · rintro q ⟨ds, hK, hq, hds⟩
    rw [List.append_nil] at hK
    subst hK
    refine ⟨false, ?_, by simpa using hds⟩
    rw [knownStep, h.nlBody, ok_bind, if_neg (by rw [h.addr_lt hq]; omega), pure_eq_ok]

/-- The second loop finds the last entry. -/
lemma last_loop (h : Holds t b v K) {ks : List Entry} {l : Entry} (hK : K = ks ++ [l]) {k : ℕ}
    (hk : K.length < k) :
    ∃ q : BitVec t.bits, q.toNat = b.base + 8 + total ks
      ∧ iter (lastStep t.endian b (BitVec.ofNat t.bits b.base)) k
          (none, nlEntries (BitVec.ofNat t.bits b.base)) = .ok (some q) := by
  -- `lastEntry` points to the entry before the pointer, if there is one
  let I : List Entry → Option (BitVec t.bits) × BitVec t.bits → Prop := fun rs s =>
    ∃ ds, K = ds ++ rs ∧ s.2.toNat = b.base + 8 + total ds
      ∧ ∀ ds' f, ds = ds' ++ [f] → ∃ q, s.1 = some q ∧ q.toNat = b.base + 8 + total ds'
  have hinit : I K (none, nlEntries (BitVec.ofNat t.bits b.base)) := by
    refine ⟨[], rfl, ?_, by simp⟩
    rw [h.toNat_entries, total_nil, Nat.add_zero]
  suffices hloop : ∃ r, iter (lastStep t.endian b (BitVec.ofNat t.bits b.base)) k
      (none, nlEntries (BitVec.ofNat t.bits b.base)) = .ok r
      ∧ ∃ q, r = some q ∧ q.toNat = b.base + 8 + total ks by
    obtain ⟨r, hr, q, rfl, hq⟩ := hloop
    exact ⟨q, hq, hr⟩
  refine iter_list ?_ ?_ K _ k hinit hk
  · rintro f rs ⟨last, q⟩ ⟨ds, hK, hq, -⟩
    dsimp only at hq
    have hsits := h.sits_at hK hq
    have htot : total K = total ds + (f.length + total rs) := by
      rw [hK, total_append, total_cons]
    have hpos := f.length_ge
    have hlt := (h.offset_lt hq (by omega)).mpr (by omega)
    left
    refine ⟨(some q, q + BitVec.ofNat t.bits f.length), ?_, ds ++ [f], by simpa using hK, ?_, ?_⟩
    · rw [lastStep, h.nlBody, ok_bind, if_pos hlt, hsits.next, ok_bind, pure_eq_ok]
    · rw [hsits.toNat_next, hq, total_append, total_cons, total_nil]
      omega
    · intro ds' g hds
      obtain ⟨rfl, -⟩ := List.append_inj' hds rfl
      exact ⟨q, rfl, hq⟩
  · rintro ⟨last, q⟩ ⟨ds, hKds, hq, hlast⟩
    rw [List.append_nil] at hKds
    subst hKds
    dsimp only at hq
    refine ⟨last, ?_, hlast ks l hK⟩
    rw [lastStep, h.nlBody, ok_bind, if_neg (by rw [h.offset_lt hq le_rfl]; omega), pure_eq_ok]

end Holds

/-! ### One entry -/

section

variable {t : Target} {m : Malloc t.bits} {st : NodeState t.bits} {msg : Block}
  {p : BitVec t.bits} {e : Entry} {v : U32} {K : List Entry} {k : ℕ}

/-- An entry with a known UUID changes nothing. -/
lemma nodeMaybeAddEntry_known (h : Holds t st.nodeList v K) (he : Sits t.endian msg p e)
    (hk : K.length < k) (hmem : e.uuid ∈ K.map uuidOf) :
    nodeMaybeAddEntry t m k msg p st = .ok st := by
  rw [nodeMaybeAddEntry, NodeState.nl, h.known_loop he hk, ok_bind, if_pos (by simpa using hmem),
    pure_eq_ok]

/-- The offset of an entry survives its `uint32_t`. -/
lemma Holds.lastEntryOffset {b : Block} (h : Holds t b v K) {q : BitVec t.bits} {j : ℕ}
    (hq : q.toNat = b.base + 8 + j) (hj : j ≤ total K) :
    (((q - nlEntries (BitVec.ofNat t.bits b.base)).setWidth 32).setWidth t.bits).toNat = j := by
  have hent := h.toNat_entries
  have hlt := h.len_lt
  have hpow := h.frame.pow_ge
  have hsub : b.base + 8 + j - (b.base + 8) = j := by omega
  rw [BitVec.toNat_setWidth, BitVec.toNat_setWidth,
    BitVec.toNat_sub_of_le (by rw [BitVec.le_def]; omega), hq, hent, hsub,
    Nat.mod_eq_of_lt (show j < 2 ^ 32 by omega), Nat.mod_eq_of_lt (by omega)]

/-- `nl->len += *ENTRY_SIZE(e)`. -/
lemma len_add (n : ℕ) (e : Entry) :
    BitVec.ofNat 32 n + (BitVec.ofNat 16 e.length).setWidth 32 = BitVec.ofNat 32 (n + e.length) := by
  have hlt := e.length_lt
  apply BitVec.eq_of_toNat_eq
  simp only [BitVec.toNat_add, BitVec.toNat_ofNat, BitVec.toNat_setWidth]
  omega

/-- The `len` of the node list. -/
lemma Holds.load_len {t : Target} {b : Block} {v : U32} {K : List Entry} (h : Holds t b v K) :
    load32 t.endian b (nlLen (BitVec.ofNat t.bits b.base))
      = .ok (BitVec.ofNat 32 (8 + total K)) := by
  have hhas : Block.Has b (nlLen (BitVec.ofNat t.bits b.base)).toNat
      (t.endian.encode 4 (8 + total K)) := by
    refine ⟨[], t.endian.encode 4 v.toNat ++ entriesBytes t.endian K, ?_, ?_⟩
    · rw [h.bytes, listBytes, listHeader]
      simp
    · rw [List.length_nil, Nat.add_zero]
      exact h.toNat_nl
  rw [load32_has hhas (t.endian.encode_length 4 _), t.endian.decode_encode h.len_lt]

/-- `nl->len` can be set. -/
lemma Holds.store_len {b : Block} (h : Holds t b v K) (x : U32) :
    ∃ b', store32 t.endian b (nlLen (BitVec.ofNat t.bits b.base)) x = .ok b'
      ∧ b'.size = 8 + total K := by
  have hle : b.base ≤ b.base ∧ b.base - b.base + 4 ≤ b.size := by
    rw [h.size_eq]
    omega
  have hstore : ∃ b', store32 t.endian b (nlLen (BitVec.ofNat t.bits b.base)) x = .ok b' := by
    rw [store32, nlLen, h.toNat_nl, Block.store, Endian.encode_length, if_pos hle]
    exact ⟨_, rfl⟩
  obtain ⟨b', hb'⟩ := hstore
  exact ⟨b', hb', by rw [(Block.store_ok hb').2.1, h.size_eq]⟩

/-- The rest of `NODE_MaybeAddEntry` behind the reallocation, given what that returns. -/
def copyEntry (t : Target) (msg : Block) (e : BitVec t.bits) (st : NodeState t.bits)
    (lastEntryOffset : U32) (size : U16) : Option Block → Except Halt (NodeState t.bits)
  | none => .error .nullPointer
  | some b => do
    let lastEntry := nlEntries (BitVec.ofNat t.bits b.base) + lastEntryOffset.setWidth t.bits
    let knownEntry ← entryNext t.endian b lastEntry
    let b ← b.store knownEntry.toNat (← msg.loadN e.toNat size.toNat)
    let name ← msg.cstr (entryNodeName e).toNat
    let other ← discoveredBy msg st
    return { st with
      nodeList := b
      allocs := st.allocs + 1
      found := st.found ++ [⟨name, discoverySrcToStr st.source, other⟩] }

/-- With a new UUID the function sets `nl->len`, reallocates the list and copies the entry behind
the last one, whose offset it has kept. -/
lemma nodeMaybeAddEntry_unknown {ks : List Entry} {f : Entry} {b : Block}
    (h : Holds t st.nodeList v (ks ++ [f])) (he : Sits t.endian msg p e)
    (hk : (ks ++ [f]).length < k) (hnew : e.uuid ∉ (ks ++ [f]).map uuidOf)
    (hstore : store32 t.endian st.nodeList (nlLen (BitVec.ofNat t.bits st.nodeList.base))
      (BitVec.ofNat 32 (8 + total (ks ++ [f]) + e.length)) = .ok b) :
    ∃ offset : U32, (offset.setWidth t.bits).toNat = total ks
      ∧ nodeMaybeAddEntry t m k msg p st
        = copyEntry t msg p st offset (BitVec.ofNat 16 e.length)
          (m.realloc st.allocs b
            (BitVec.ofNat 32 (8 + total (ks ++ [f]) + e.length)).toNat) := by
  obtain ⟨q, hq, hlast⟩ := h.last_loop rfl hk
  have htot : total (ks ++ [f]) = total ks + f.length := by simp
  refine ⟨_, h.lastEntryOffset hq (by omega), ?_⟩
  rw [nodeMaybeAddEntry, NodeState.nl, h.known_loop he hk, ok_bind, if_neg (by simpa using hnew),
    hlast, ok_bind]
  dsimp only
  rw [he.load_size, ok_bind, h.load_len, ok_bind, len_add, hstore, ok_bind]
  cases m.realloc st.allocs b (BitVec.ofNat 32 (8 + total (ks ++ [f]) + e.length)).toNat with
  | none => rfl
  | some b' => rfl

/-- The list after its `len` has been set and the block has been reallocated: the entries are in
place and the block has room for `x`. -/
def grown (E : Endian) (v : U32) (K : List Entry) (base : ℕ) (x : List Byte) : Block :=
  ⟨base, (listHeader E v (total K + x.length) ++ entriesBytes E K) ++ x⟩

/-- `nl->len += n` and the reallocation. -/
lemma realloc_grown {b : Block} (h : Holds t b v K) {j n : ℕ} (hlen : 8 + total K + n < 2 ^ 32)
    (hlim : 8 + total K + n ≤ m.limit) :
    ∃ b' x, store32 t.endian b (nlLen (BitVec.ofNat t.bits b.base))
          (BitVec.ofNat 32 (8 + total K + n)) = .ok b'
      ∧ x.length = n
      ∧ m.realloc j b' (8 + total K + n)
        = some (grown t.endian v K (m.place j (8 + total K + n)) x) := by
  have haddr : (nlLen (BitVec.ofNat t.bits b.base)).toNat = b.base + ([] : List Byte).length :=
    h.toNat_nl
  have hbytes := h.bytes
  obtain ⟨base, bytes⟩ := b
  dsimp only at hbytes haddr ⊢
  have hold : bytes = [] ++ t.endian.encode 4 (8 + total K)
      ++ (t.endian.encode 4 v.toNat ++ entriesBytes t.endian K) := by
    rw [hbytes, List.nil_append, ← List.append_assoc, ← listHeader, ← listBytes]
  rw [hold]
  refine ⟨⟨base, [] ++ t.endian.encode 4 (8 + total K + n)
    ++ (t.endian.encode 4 v.toNat ++ entriesBytes t.endian K)⟩,
    (List.range n).map (m.junk j), ?_, by simp, ?_⟩
  · rw [store32, toNat_ofNat_of_lt hlen]
    exact Block.store_mk haddr (by simp)
  · have hsize : ([] ++ t.endian.encode 4 (8 + total K + n)
        ++ (t.endian.encode 4 v.toNat ++ entriesBytes t.endian K)).length = 8 + total K := by
      simp only [List.length_append, List.length_nil, Endian.encode_length, entriesBytes_length]
      omega
    have hgrow : 8 + total K + n - (8 + total K) = n := by omega
    rw [Malloc.realloc, if_pos hlim, Block.size_mk, hsize, hgrow,
      List.take_of_length_le (le_of_eq_of_le hsize (by omega))]
    simp [grown, listHeader, add_assoc]

/-- The copy of an entry behind the last one of the grown list. -/
lemma grown_store {ks : List Entry} {f : Entry} (hf : f.Sound) (hks : ∀ g ∈ ks, g.Sound)
    {base : ℕ} {x l : List Byte} (hdvd : 8 ∣ base)
    (hroom : base + (8 + total (ks ++ [f]) + x.length) < 2 ^ t.bits)
    (hl : l.length = x.length) {q : BitVec t.bits} (hq : q.toNat = base + 8 + total ks) :
    ∃ q', entryNext t.endian (grown t.endian v (ks ++ [f]) base x) q = .ok q'
      ∧ (grown t.endian v (ks ++ [f]) base x).store q'.toNat l
        = .ok (grown t.endian v (ks ++ [f]) base l) := by
  have hq8 : 8 ∣ q.toNat := by
    rw [hq]
    exact dvd_add (dvd_add hdvd (by norm_num)) (dvd_total hks)
  have htot : total (ks ++ [f]) = total ks + f.length := by simp
  have hb : ∀ y, grown t.endian v (ks ++ [f]) base y
      = ⟨base, (listHeader t.endian v (total (ks ++ [f]) + y.length) ++ entriesBytes t.endian ks)
        ++ f.bytes t.endian ++ y⟩ := fun y => by
    simp [grown]
  have hsits : Sits t.endian (grown t.endian v (ks ++ [f]) base x) q f := by
    rw [hb]
    refine sits_mk t.bits_eq ?_ (hf.at hq8) ?_
    · simp only [List.length_append, listHeader_length, entriesBytes_length]
      omega
    · simp only [List.length_append, listHeader_length, entriesBytes_length]
      omega
  refine ⟨_, hsits.next, ?_⟩
  have haddr : (q + BitVec.ofNat t.bits f.length).toNat
      = base + (listHeader t.endian v (total (ks ++ [f]) + x.length)
        ++ entriesBytes t.endian (ks ++ [f])).length := by
    rw [hsits.toNat_next, hq, List.length_append, listHeader_length, entriesBytes_length, htot]
    omega
  have hstore := @Block.store_mk _ base _ x l [] haddr hl
  rw [List.append_nil, List.append_nil] at hstore
  rw [grown, grown, hl]
  exact hstore

/-- The grown list with the entry at its end. -/
lemma Holds.grown {b : Block} {base : ℕ} (h : Holds t b v K) (hsound : e.Sound)
    (hlen : 8 + total K + e.length < 2 ^ 32) (hpos : 0 < base) (hdvd : 8 ∣ base)
    (hplace : base + (8 + total K + e.length) < 2 ^ t.bits) :
    Holds t (EverythingNet.grown t.endian v K base (e.bytes t.endian)) v (K ++ [e]) := by
  have hbytes : (EverythingNet.grown t.endian v K base (e.bytes t.endian)).bytes
      = listBytes t.endian v (K ++ [e]) := by
    simp [EverythingNet.grown, listBytes]
  refine ⟨hbytes, ?_, hpos, hdvd, ?_, ?_⟩
  · intro g hg
    rcases List.mem_append.mp hg with hg | hg
    · exact h.sound g hg
    · exact List.mem_singleton.mp hg ▸ hsound
  · rw [total_append, total_cons, total_nil]
    omega
  · rw [Block.size, hbytes, listBytes_length, total_append, total_cons, total_nil]
    exact lt_of_eq_of_lt (by simp only [EverythingNet.grown]; omega) hplace

/-- A sound entry with a new UUID is appended. -/
lemma nodeMaybeAddEntry_new (h : Holds t st.nodeList v K) (he : Sits t.endian msg p e)
    (hsound : e.Sound) (hK : K ≠ []) (hk : K.length < k)
    (hnew : e.uuid ∉ K.map uuidOf) (hlen : 8 + total K + e.length < 2 ^ 32)
    (hlim : 8 + total K + e.length ≤ m.limit) {other : Option (List Byte)}
    (hother : discoveredBy msg st = .ok other) :
    ∃ b, Holds t b v (K ++ [e]) ∧ nodeMaybeAddEntry t m k msg p st = .ok { st with
      nodeList := b
      allocs := st.allocs + 1
      found := st.found ++ [⟨e.name, discoverySrcToStr st.source, other⟩] } := by
  obtain ⟨ks, f, rfl⟩ := List.eq_nil_or_concat K |>.resolve_left hK
  rw [List.concat_eq_append] at *
  obtain ⟨b, x, hstore, hx, hrealloc⟩ := realloc_grown (j := st.allocs) h hlen hlim
  obtain ⟨offset, hoff, hadd⟩ := nodeMaybeAddEntry_unknown (m := m) h he hk hnew hstore
  have hsize := e.length_lt
  have htot : total (ks ++ [f]) = total ks + f.length := by simp
  have hpow := h.frame.pow_ge
  have hplace := m.place_lt st.allocs _ hlim
  have hdvd := m.place_dvd st.allocs (8 + total (ks ++ [f]) + e.length)
  have hpos := m.place_pos st.allocs (8 + total (ks ++ [f]) + e.length)
  generalize m.place st.allocs (8 + total (ks ++ [f]) + e.length) = base at *
  have hbase : (BitVec.ofNat t.bits base).toNat = base := toNat_ofNat_of_lt (by omega)
  have hent : (nlEntries (BitVec.ofNat t.bits base)).toNat = base + 8 := by
    have : (nlEntries (BitVec.ofNat t.bits base)).toNat = (BitVec.ofNat t.bits base).toNat + 8 :=
      toNat_add_ofNat (show (BitVec.ofNat t.bits base).toNat + 8 < 2 ^ t.bits by omega)
    rw [this, hbase]
  have hlastNew : (nlEntries (BitVec.ofNat t.bits base) + offset.setWidth t.bits).toNat
      = base + 8 + total ks := by
    rw [toNat_add_of_lt (by omega), hent, hoff]
  obtain ⟨q', hnext, hcopy⟩ := grown_store (v := v) (h.sound f (by simp))
    (fun g hg => h.sound g (by simp [hg])) hdvd (x := x) (l := e.bytes t.endian)
    (by omega) (by rw [Entry.bytes_length, hx]) hlastNew
  refine ⟨grown t.endian v (ks ++ [f]) base (e.bytes t.endian),
    h.grown hsound hlen hpos hdvd hplace, ?_⟩
  have hentry : msg.loadN p.toNat e.length = .ok (e.bytes t.endian) := by
    have := he.has.loadN
    rwa [Entry.bytes_length] at this
  have hsz : (BitVec.ofNat 16 e.length).toNat = e.length := toNat_ofNat_of_lt hsize
  have hbase' : (grown t.endian v (ks ++ [f]) base x).base = base := rfl
  rw [hadd, toNat_ofNat_of_lt (show _ < 2 ^ 32 from hlen), hrealloc, copyEntry]
  rw [hbase', hnext, ok_bind, hsz, hentry, ok_bind, hcopy, ok_bind, he.cstr_name, ok_bind, hother,
    ok_bind, pure_eq_ok]

/-- Where the allocator gives no memory, the list is lost. -/
lemma nodeMaybeAddEntry_null (st : NodeState t.bits) (h : Holds t st.nodeList v K)
    (he : Sits t.endian msg p e) (hK : K ≠ []) (hk : K.length < k) (hnew : e.uuid ∉ K.map uuidOf)
    (hlim : m.limit < (BitVec.ofNat 32 (8 + total K + e.length)).toNat) :
    nodeMaybeAddEntry t m k msg p st = .error .nullPointer := by
  obtain ⟨ks, f, rfl⟩ := List.eq_nil_or_concat K |>.resolve_left hK
  rw [List.concat_eq_append] at *
  obtain ⟨b, hstore, -⟩ := h.store_len (BitVec.ofNat 32 (8 + total (ks ++ [f]) + e.length))
  obtain ⟨offset, -, hadd⟩ := nodeMaybeAddEntry_unknown (m := m) h he hk hnew hstore
  have hnone : m.realloc st.allocs b
      (BitVec.ofNat 32 (8 + total (ks ++ [f]) + e.length)).toNat = none :=
    if_neg (Nat.not_le.mpr hlim)
  rw [hadd, hnone, copyEntry]

/-- A read at an address that is not in the block with the next byte. -/
lemma load16_outOfBounds {w : ℕ} {E : Endian} {b : Block} {q : BitVec w}
    (h : ¬ (b.base ≤ q.toNat ∧ q.toNat - b.base + 2 ≤ b.size)) :
    load16 E b q = .error .outOfBounds := by
  rw [load16, Block.loadN, if_neg h, error_bind]

/-- Where the new `len` wraps, the list is cut off before its last entry. -/
lemma nodeMaybeAddEntry_wrap (st : NodeState t.bits) (h : Holds t st.nodeList v K)
    (he : Sits t.endian msg p e) (hK : K ≠ []) (hk : K.length < k) (hnew : e.uuid ∉ K.map uuidOf)
    (hlen : 2 ^ 32 ≤ 8 + total K + e.length) (hlim : 8 + total K + e.length - 2 ^ 32 ≤ m.limit) :
    nodeMaybeAddEntry t m k msg p st = .error .outOfBounds := by
  obtain ⟨ks, f, rfl⟩ := List.eq_nil_or_concat K |>.resolve_left hK
  rw [List.concat_eq_append] at *
  obtain ⟨b, hstore, hb⟩ := h.store_len (BitVec.ofNat 32 (8 + total (ks ++ [f]) + e.length))
  obtain ⟨offset, hoff, hadd⟩ := nodeMaybeAddEntry_unknown (m := m) h he hk hnew hstore
  have hlt := h.len_lt
  have hsize := e.length_lt
  have hsize' := f.length_lt
  have htot : total (ks ++ [f]) = total ks + f.length := by simp
  have hpow := h.frame.pow_ge
  obtain ⟨n, hn⟩ : ∃ n, n = 8 + total (ks ++ [f]) + e.length - 2 ^ 32 := ⟨_, rfl⟩
  have hnew' : (BitVec.ofNat 32 (8 + total (ks ++ [f]) + e.length)).toNat = n := by
    rw [BitVec.toNat_ofNat]
    omega
  have hrealloc : m.realloc st.allocs b n = some ⟨m.place st.allocs n, b.bytes.take n⟩ := by
    have h0 : n - b.size = 0 := by omega
    rw [Malloc.realloc, if_pos (hn ▸ hlim), h0]
    simp
  have hcut : (b.bytes.take n).length = n := by
    rw [List.length_take]
    rw [Block.size] at hb
    omega
  have hplace := m.place_lt st.allocs n (hn ▸ hlim)
  generalize m.place st.allocs n = base at hplace hrealloc
  have hbase : (BitVec.ofNat t.bits base).toNat = base := toNat_ofNat_of_lt (by omega)
  have haddr : (nlEntries (BitVec.ofNat t.bits base) + offset.setWidth t.bits).toNat
      = (base + 8 + total ks) % 2 ^ t.bits := by
    have h8 : (8 : BitVec t.bits).toNat = 8 := toNat_ofNat_of_lt (show 8 < 2 ^ t.bits by omega)
    rw [BitVec.toNat_add, hoff, nlEntries, BitVec.toNat_add, hbase, h8, Nat.mod_add_mod]
  have hout : ¬ (base ≤ (base + 8 + total ks) % 2 ^ t.bits
      ∧ (base + 8 + total ks) % 2 ^ t.bits - base + 2 ≤ n) := by
    rcases lt_or_ge (base + 8 + total ks) (2 ^ t.bits) with hw | hw
    · rw [Nat.mod_eq_of_lt hw]
      omega
    · rw [Nat.mod_eq_sub_mod hw, Nat.mod_eq_of_lt (by omega)]
      omega
  rw [hadd, hnew', hrealloc, copyEntry]
  dsimp only
  rw [entryNext, load16_outOfBounds (by rw [Block.size_mk, hcut, entrySize, haddr]; exact hout),
    error_bind, error_bind]

/-- An entry for which there is no room is not taken in. -/
lemma nodeMaybeAddEntry_full (st : NodeState t.bits) (h : Holds t st.nodeList v K)
    (he : Sits t.endian msg p e) (hK : K ≠ []) (hk : K.length < k) (hnew : e.uuid ∉ K.map uuidOf)
    (hfull : ¬ (8 + total K + e.length < 2 ^ 32 ∧ 8 + total K + e.length ≤ m.limit)) :
    ∃ x, nodeMaybeAddEntry t m k msg p st = .error x ∧ x ≠ .outOfFuel := by
  have hlt := h.len_lt
  have hsize := e.length_lt
  rcases lt_or_ge m.limit (BitVec.ofNat 32 (8 + total K + e.length)).toNat with hlim | hlim
  · exact ⟨_, nodeMaybeAddEntry_null st h he hK hk hnew hlim, by simp⟩
  · rw [BitVec.toNat_ofNat] at hlim
    refine ⟨_, nodeMaybeAddEntry_wrap st h he hK hk hnew (by omega) (by omega), by simp⟩

end

/-! ### A whole message -/

/-- What is printed about an entry that comes behind `ds` in a message: the sender's own entry is
attributed to the way the message came, all others to the sender. -/
def report (src : DiscoverySrc) : List Entry → Entry → Found
  | [], e => ⟨e.name, discoverySrcToStr src, none⟩
  | f :: _, e => ⟨e.name, discoverySrcToStr .otherNode, some f.name⟩

/-- What is printed about the entries `rs` that come behind `ds`, when the list is `K`. -/
def reports (src : DiscoverySrc) : List Entry → List Entry → List Entry → List Found
  | _, _, [] => []
  | K, ds, e :: rs =>
    if e.uuid ∈ K.map uuidOf then reports src K (ds ++ [e]) rs
    else report src ds e :: reports src (K ++ [e]) (ds ++ [e]) rs

lemma total_le_of_prefix {K L : List Entry} (h : K <+: L) : total K ≤ total L := by
  obtain ⟨M, rfl⟩ := h
  rw [total_append]
  omega

lemma mergeNew_ne_nil {K L : List Entry} (h : K ≠ []) : mergeNew uuidOf K L ≠ [] := by
  rw [mergeNew_eq_append]
  exact List.append_ne_nil_of_left_ne_nil h _

/-- The merged list fits its 32-bit `len`, and the allocator serves it. -/
structure Room (m : Malloc w) (K L : List Entry) : Prop where
  len_lt : 8 + total (mergeNew uuidOf K L) < 2 ^ 32
  limit : 8 + total (mergeNew uuidOf K L) ≤ m.limit

/-- There is room for the first part of what there is room for. -/
lemma Room.of_append {m : Malloc w} {K L M : List Entry} (h : Room m K (L ++ M)) : Room m K L := by
  have hle : total (mergeNew uuidOf K L) ≤ total (mergeNew uuidOf K (L ++ M)) := by
    rw [mergeNew_append]
    exact total_le_of_prefix prefix_mergeNew
  exact ⟨lt_of_le_of_lt (Nat.add_le_add_left hle 8) h.len_lt,
    (Nat.add_le_add_left hle 8).trans h.limit⟩

/-- One log after the other takes as much room as both at once. -/
lemma room_mergeNew {m : Malloc w} {K L M : List Entry} :
    Room m (mergeNew uuidOf K L) M ↔ Room m K (L ++ M) := by
  have hsplit : mergeNew uuidOf (mergeNew uuidOf K L) M = mergeNew uuidOf K (L ++ M) :=
    mergeNew_append.symm
  constructor
  · exact fun h => ⟨hsplit ▸ h.len_lt, hsplit ▸ h.limit⟩
  · exact fun h => ⟨hsplit ▸ h.len_lt, hsplit ▸ h.limit⟩

/-- A message that the list can take in: the list has an entry, what is new is sound, and there is
room for it. -/
structure Mergeable (m : Malloc w) (K L : List Entry) : Prop where
  nonempty : K ≠ []
  sound : ∀ e ∈ fresh uuidOf (K.map uuidOf) L, e.Sound
  room : Room m K L

lemma Mergeable.of_append {m : Malloc w} {K L M : List Entry} (h : Mergeable m K (L ++ M)) :
    Mergeable m K L :=
  ⟨h.nonempty, fun e he => h.sound e (fresh_append.subset he), h.room.of_append⟩

/-- The state between two entries of a message: `ds` are behind the pointer `q`, `rs` from it
on. -/
structure Between (t : Target) (st : NodeState t.bits) (v : U32) (K : List Entry)
    (nl : BitVec t.bits) (L ds rs : List Entry) (s : NodeState t.bits) (q : BitVec t.bits) :
    Prop where
  list : L = ds ++ rs
  holds : Holds t s.nodeList v (mergeNew uuidOf K ds)
  addr : q.toNat = nl.toNat + 8 + total ds
  laid : Laid q.toNat rs
  first : ds = [] → s.source = st.source ∧ s.sourceNode = none
  later : ds ≠ [] → s.source = .otherNode ∧ s.sourceNode = some (nlEntries nl)
  found : s.found ++ reports st.source (mergeNew uuidOf K ds) ds rs
    = st.found ++ reports st.source K [] L

section

variable {t : Target} {m : Malloc t.bits} {st : NodeState t.bits} {base : ℕ}
  {hdr tail : List Byte} {nl : BitVec t.bits} {v u : U32} {K L : List Entry} {k : ℕ}

lemma Between.length_lt {ds rs : List Entry} {s : NodeState t.bits} {q : BitVec t.bits}
    (h : Between t st v K nl L ds rs s q) (hk : K.length + L.length < k) :
    (mergeNew uuidOf K ds).length < k := by
  have hle := @length_mergeNew_le _ _ _ uuidOf K ds
  have hL : L.length = ds.length + rs.length := by rw [h.list, List.length_append]
  omega

/-- The name printed along with a new entry. -/
lemma Between.discoveredBy (hf : Frame base hdr tail nl (total L)) {ds rs : List Entry}
    {s : NodeState t.bits} {q : BitVec t.bits} (h : Between t st v K nl L ds rs s q) {e : Entry}
    (hlaid : Laid (nl.toNat + 8) L) :
    ∃ other, EverythingNet.discoveredBy ⟨base, hdr ++ (listBytes t.endian u L ++ tail)⟩ s = .ok other
      ∧ (⟨e.name, discoverySrcToStr s.source, other⟩ : Found) = report st.source ds e := by
  cases ds with
  | nil =>
      obtain ⟨hsrc, hnode⟩ := h.first rfl
      refine ⟨none, ?_, ?_⟩
      · rw [EverythingNet.discoveredBy, hnode]
        split <;> simp_all
      · rw [hsrc]
        rfl
  | cons f ds =>
      obtain ⟨hsrc, hnode⟩ := h.later (by simp)
      have hlist : L = [] ++ f :: (ds ++ rs) := h.list
      have hsits : Sits t.endian ⟨base, hdr ++ (listBytes t.endian u L ++ tail)⟩
        (nlEntries nl) f := by
        subst hlist
        have hq : (nlEntries nl).toNat = nl.toNat + 8 + total [] := by
          rw [hf.toNat_entries, total_nil, Nat.add_zero]
        refine hf.sits_at rfl hq ?_
        rw [hf.toNat_entries]
        exact hlaid.1
      refine ⟨some f.name, ?_, ?_⟩
      · rw [EverythingNet.discoveredBy, hnode, hsrc]
        dsimp only
        rw [hsits.cstr_name, ok_bind, pure_eq_ok]
      · rw [hsrc]
        rfl

/-- One entry of a message is looked at, and taken in if it is new. -/
lemma Between.maybeAdd (hf : Frame base hdr tail nl (total L)) {ds rs : List Entry} {e : Entry}
    (hm : Mergeable m K (ds ++ [e])) (hlaid : Laid (nl.toNat + 8) L)
    (hk : K.length + L.length < k) {s : NodeState t.bits} {q : BitVec t.bits}
    (h : Between t st v K nl L ds (e :: rs) s q)
    (hsits : Sits t.endian ⟨base, hdr ++ (listBytes t.endian u L ++ tail)⟩ q e) :
    ∃ s', nodeMaybeAddEntry t m k ⟨base, hdr ++ (listBytes t.endian u L ++ tail)⟩ q s = .ok s'
      ∧ Holds t s'.nodeList v (mergeNew uuidOf K (ds ++ [e]))
      ∧ s'.found ++ reports st.source (mergeNew uuidOf K (ds ++ [e])) (ds ++ [e]) rs
        = st.found ++ reports st.source K [] L := by
  have hlen := h.length_lt hk
  have hfound := h.found
  have hlt := hm.room.len_lt
  have hlim := hm.room.limit
  rw [reports] at hfound
  rw [mergeNew_concat, addNew] at hlt hlim ⊢
  split_ifs at hfound hlt hlim ⊢ with hmem
  · exact ⟨s, nodeMaybeAddEntry_known h.holds hsits hlen hmem, h.holds, hfound⟩
  · obtain ⟨other, hother, hrep⟩ := h.discoveredBy (u := u) hf hlaid (e := e)
    have hsound : e.Sound := hm.sound e (mem_fresh_of_notMem hmem)
    rw [total_append, total_cons, total_nil, Nat.add_zero, ← add_assoc] at hlt hlim
    obtain ⟨b, hb, hok⟩ := nodeMaybeAddEntry_new h.holds hsits hsound
      (mergeNew_ne_nil hm.nonempty) hlen hmem hlt hlim hother
    refine ⟨_, hok, hb, ?_⟩
    rw [← hfound, ← hrep]
    simp

/-- The next entry of the message lies where the walk is. -/
lemma Between.sits (hf : Frame base hdr tail nl (total L)) {ds rs : List Entry} {e : Entry}
    {s : NodeState t.bits} {q : BitVec t.bits} (h : Between t st v K nl L ds (e :: rs) s q) :
    Sits t.endian ⟨base, hdr ++ (listBytes t.endian u L ++ tail)⟩ q e
      ∧ q - nlEntries nl < BitVec.ofNat t.bits (total L) := by
  have hlist := h.list
  have htot : total L = total ds + (e.length + total rs) := by
    rw [hlist, total_append, total_cons]
  have hpos := e.length_ge
  refine ⟨?_, (hf.offset_lt h.addr (by omega)).mpr (by omega)⟩
  rw [hlist]
  exact hf.sits_at (hlist ▸ rfl) h.addr h.laid.1

/-- One round of the loop of `NODE_CheckForNewNodes`. -/
lemma Between.step (hf : Frame base hdr tail nl (total L)) {ds rs : List Entry} {e : Entry}
    (hm : Mergeable m K (ds ++ [e])) (hlaid : Laid (nl.toNat + 8) L)
    (hk : K.length + L.length < k) {s : NodeState t.bits} {q : BitVec t.bits}
    (h : Between t st v K nl L ds (e :: rs) s q) :
    ∃ s' q', checkStep t m k ⟨base, hdr ++ (listBytes t.endian u L ++ tail)⟩ nl (s, q)
        = .ok (.inl (s', q'))
      ∧ Between t st v K nl L (ds ++ [e]) rs s' q' := by
  obtain ⟨hsits, hin⟩ := h.sits (u := u) hf
  obtain ⟨s', hadd, hholds, hfound⟩ := h.maybeAdd (u := u) hf hm hlaid hk hsits
  refine ⟨{ s' with source := .otherNode, sourceNode := some (nlEntries nl) },
    q + BitVec.ofNat t.bits e.length, ?_, ?_⟩
  · rw [checkStep, hf.nlBody_list rfl, ok_bind, if_pos hin, hadd, ok_bind, hsits.next, ok_bind,
      pure_eq_ok]
  · refine ⟨by simpa using h.list, hholds, ?_, ?_, by simp, fun _ => ⟨rfl, rfl⟩, hfound⟩
    · rw [hsits.toNat_next, h.addr, total_append, total_cons, total_nil]
      omega
    · rw [hsits.toNat_next]
      exact h.laid.2

/-- The first state of the walk. -/
lemma Between.first_state (h : Holds t st.nodeList v K) (hf : Frame base hdr tail nl (total L))
    (hlaid : Laid (nl.toNat + 8) L) (hsrc : st.sourceNode = none) :
    Between t st v K nl L [] L st (nlEntries nl) := by
  refine ⟨rfl, h, ?_, ?_, fun _ => ⟨rfl, hsrc⟩, fun h0 => absurd rfl h0, rfl⟩
  · rw [hf.toNat_entries, total_nil, Nat.add_zero]
  · rw [hf.toNat_entries]
    exact hlaid

/-- `NODE_CheckForNewNodes` merges the entries of a message into the node list. -/
lemma nodeCheckForNewNodes_spec (h : Holds t st.nodeList v K)
    (hf : Frame base hdr tail (msgNodeList (BitVec.ofNat t.bits base)) (total L))
    (hlaid : Laid ((msgNodeList (BitVec.ofNat t.bits base)).toNat + 8) L) (hm : Mergeable m K L)
    (hsrc : st.sourceNode = none) (hk : K.length + L.length < k) :
    ∃ st', nodeCheckForNewNodes t m k ⟨base, hdr ++ (listBytes .be u L ++ tail)⟩ st
        = .ok (⟨base, hdr ++ (listBytes t.endian u L ++ tail)⟩, st')
      ∧ Holds t st'.nodeList v (mergeNew uuidOf K L)
      ∧ st'.found = st.found ++ reports st.source K [] L := by
  obtain ⟨nl, hnl⟩ : ∃ nl, nl = msgNodeList (BitVec.ofNat t.bits base) := ⟨_, rfl⟩
  rw [← hnl] at hf hlaid
  let I : List Entry → NodeState t.bits × BitVec t.bits → Prop := fun rs s =>
    ∃ ds, Between t st v K nl L ds rs s.1 s.2
  have hinit : I L (st, nlEntries nl) := ⟨[], Between.first_state h hf hlaid hsrc⟩
  have hloop : ∃ st', iter (checkStep t m k ⟨base, hdr ++ (listBytes t.endian u L ++ tail)⟩ nl) k
        (st, nlEntries nl) = .ok st'
      ∧ Holds t st'.nodeList v (mergeNew uuidOf K L)
      ∧ st'.found = st.found ++ reports st.source K [] L := by
    refine iter_list ?_ ?_ L _ k hinit (by omega)
    · rintro e rs ⟨s, q⟩ ⟨ds, hb⟩
      have hm' : Mergeable m K (ds ++ [e]) := by
        refine Mergeable.of_append (M := rs) ?_
        rw [List.append_assoc, List.singleton_append, ← hb.list]
        exact hm
      obtain ⟨s', q', hstep, hb'⟩ := hb.step (u := u) hf hm' hlaid hk
      exact Or.inl ⟨_, hstep, ds ++ [e], hb'⟩
    · rintro ⟨s, q⟩ ⟨ds, hb⟩
      have hlist : L = ds := by simpa using hb.list
      subst hlist
      refine ⟨s, ?_, hb.holds, by simpa [reports] using hb.found⟩
      rw [checkStep, hf.nlBody_list rfl, ok_bind,
        if_neg (by rw [hf.offset_lt hb.addr le_rfl]; omega), pure_eq_ok]
  obtain ⟨st', hiter, hrest⟩ := hloop
  refine ⟨st', ?_, hrest⟩
  rw [nodeCheckForNewNodes]
  dsimp only
  rw [← hnl, hf.nodeListToNative rfl hlaid (by omega), ok_bind, hiter, ok_bind, pure_eq_ok]

/-- A message for which there is no room halts `NODE_CheckForNewNodes`. -/
lemma nodeCheckForNewNodes_full (h : Holds t st.nodeList v K)
    (hf : Frame base hdr tail (msgNodeList (BitVec.ofNat t.bits base)) (total L))
    (hlaid : Laid ((msgNodeList (BitVec.ofNat t.bits base)).toNat + 8) L) (hne : K ≠ [])
    (hsound : ∀ e ∈ fresh uuidOf (K.map uuidOf) L, e.Sound) (hlim : 8 + total K ≤ m.limit)
    (hfull : ¬ Room m K L) (hsrc : st.sourceNode = none) :
    ∃ x, x ≠ .outOfFuel ∧ Settles (fun k => nodeCheckForNewNodes t m k
        ⟨base, hdr ++ (listBytes .be u L ++ tail)⟩ st) (.error x) := by
  obtain ⟨nl, hnl⟩ : ∃ nl, nl = msgNodeList (BitVec.ofNat t.bits base) := ⟨_, rfl⟩
  rw [← hnl] at hf hlaid
  obtain ⟨k, hk⟩ : ∃ k, K.length + L.length < k := ⟨_, Nat.lt_succ_self _⟩
  -- so far there has been room
  let I : List Entry → NodeState t.bits × BitVec t.bits → Prop := fun rs s =>
    ∃ ds, Between t st v K nl L ds rs s.1 s.2 ∧ Room m K ds
  have hinit : I L (st, nlEntries nl) :=
    ⟨[], Between.first_state h hf hlaid hsrc, ⟨h.len_lt, hlim⟩⟩
  have hloop : ∃ x, iter (checkStep t m k ⟨base, hdr ++ (listBytes t.endian u L ++ tail)⟩ nl) k
      (st, nlEntries nl) = .error x ∧ x ≠ .outOfFuel := by
    refine iter_list_halt ?_ ?_ L _ k hinit (by omega)
    · rintro e rs ⟨s, q⟩ ⟨ds, hb, hroom⟩
      by_cases hroom' : Room m K (ds ++ [e])
      · have hm : Mergeable m K (ds ++ [e]) := by
          refine ⟨hne, fun f hf => hsound f ?_, hroom'⟩
          rw [hb.list, ← List.singleton_append, ← List.append_assoc]
          exact fresh_append.subset hf
        obtain ⟨s', q', hstep, hb'⟩ := hb.step (u := u) hf hm hlaid hk
        exact Or.inl ⟨(s', q'), hstep, ds ++ [e], hb', hroom'⟩
      · right
        have hnew : e.uuid ∉ (mergeNew uuidOf K ds).map uuidOf := by
          intro hmem
          have hsame : mergeNew uuidOf K (ds ++ [e]) = mergeNew uuidOf K ds := by
            rw [mergeNew_concat, addNew_of_mem hmem]
          exact hroom' ⟨hsame ▸ hroom.len_lt, hsame ▸ hroom.limit⟩
        obtain ⟨hsits, hin⟩ := hb.sits (u := u) hf
        have htot : 8 + total (mergeNew uuidOf K (ds ++ [e]))
            = 8 + total (mergeNew uuidOf K ds) + e.length := by
          rw [mergeNew_concat, addNew, if_neg hnew, total_append, total_cons, total_nil,
            Nat.add_zero, add_assoc]
        obtain ⟨x, hx, hx'⟩ := nodeMaybeAddEntry_full (m := m) s hb.holds hsits
          (mergeNew_ne_nil hne) (hb.length_lt hk) hnew
          fun h0 => hroom' ⟨htot ▸ h0.1, htot ▸ h0.2⟩
        refine ⟨x, ?_, hx'⟩
        rw [checkStep, hf.nlBody_list rfl, ok_bind, if_pos hin]
        exact bind_of_error hx _
    · rintro ⟨s, q⟩ ⟨ds, hb, hroom⟩
      have hlist : L = ds := by simpa using hb.list
      exact hfull (hlist ▸ hroom)
  obtain ⟨x, hiter, hx⟩ := hloop
  refine ⟨x, hx, (nodeCheckForNewNodes_steady t m _ st).settles (k := k) ?_ (by simpa using hx)⟩
  rw [nodeCheckForNewNodes]
  dsimp only
  rw [← hnl, hf.nodeListToNative rfl hlaid (by omega), ok_bind, hiter, error_bind]

end

end EverythingNet
