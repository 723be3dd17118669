import Mathlib.Tactic
import EverythingNet.Node.Init

/-!
The refinement of `NODE_CheckForNewNodes`: on well-formed lists it is `KeyedLog.mergeNew`.

* `Carries t E msg hdr u L tail`: the message buffer holds a node list, between the header of the
  message and what an earlier message has left behind.
* `checkForNewNodes_merges`: the node list afterwards, byte by byte and as its readers see it.
* The two ways the code fails to merge: `nodeMaybeAddEntry_empty`, a list without a last entry, and
  `nodeMaybeAddEntry_wrap`, a list that outgrows its 32-bit `len`.
-/

namespace EverythingNet

open CMem KeyedLog

/-- The message buffer holds a node list with the entries `L` in the byte order `E`. -/
structure Carries (t : Target) (E : Endian) (msg : Block) (hdr : List Byte) (u : U32)
    (L : List Entry) (tail : List Byte) : Prop where
  bytes : msg.bytes = hdr ++ (listBytes E u L ++ tail)
  hdr : hdr.length = 24
  dvd : 8 ∣ msg.base
  len_lt : 8 + total L < 2 ^ 32
  room : msg.base + msg.size < 2 ^ t.bits

namespace Carries

variable {t : Target} {E : Endian} {msg : Block} {hdr tail : List Byte} {u : U32} {L : List Entry}

lemma eq_mk (h : Carries t E msg hdr u L tail) :
    msg = ⟨msg.base, hdr ++ (listBytes E u L ++ tail)⟩ := by
  rw [← h.bytes]

lemma size_eq (h : Carries t E msg hdr u L tail) : msg.size = 32 + total L + tail.length := by
  rw [Block.size, h.bytes]
  simp only [List.length_append, h.hdr, listBytes_length]
  omega

lemma toNat_nl (h : Carries t E msg hdr u L tail) :
    (msgNodeList (BitVec.ofNat t.bits msg.base)).toNat = msg.base + 24 := by
  have hroom := h.room
  have hsize := h.size_eq
  have hbase : (BitVec.ofNat t.bits msg.base).toNat = msg.base := toNat_ofNat_of_lt (by omega)
  have : (msgNodeList (BitVec.ofNat t.bits msg.base)).toNat
      = (BitVec.ofNat t.bits msg.base).toNat + 24 :=
    toNat_add_ofNat (show (BitVec.ofNat t.bits msg.base).toNat + 24 < 2 ^ t.bits by omega)
  rw [this, hbase]

lemma frame (h : Carries t E msg hdr u L tail) :
    Frame msg.base hdr tail (msgNodeList (BitVec.ofNat t.bits msg.base)) (total L) where
  bits := t.bits_eq
  addr := by rw [h.toNat_nl, h.hdr]
  len_lt := h.len_lt
  room := by
    have := h.room
    rw [h.size_eq] at this
    rw [h.hdr]
    omega

lemma laid (h : Carries t E msg hdr u L tail) (hL : ∀ e ∈ L, e.Sound) :
    Laid ((msgNodeList (BitVec.ofNat t.bits msg.base)).toNat + 8) L := by
  rw [h.toNat_nl]
  refine Laid.of_sound hL ?_
  exact dvd_add (dvd_add h.dvd (by norm_num)) (by norm_num)

/-- The same message in the other byte order. -/
lemma convert (h : Carries t E msg hdr u L tail) (F : Endian) :
    Carries t F ⟨msg.base, hdr ++ (listBytes F u L ++ tail)⟩ hdr u L tail := by
  refine ⟨rfl, h.hdr, h.dvd, h.len_lt, ?_⟩
  have hroom := h.room
  rw [h.size_eq] at hroom
  simp only [Block.size_mk, List.length_append, h.hdr, listBytes_length]
  omega

/-- Reading the list of a message. -/
lemma listRead (h : Carries t E msg hdr u L tail) (hL : ∀ e ∈ L, e.WellFormed) :
    Settles (fun k => EverythingNet.listRead E k msg (msgNodeList (BitVec.ofNat t.bits msg.base)))
      (.ok (L.map Entry.reading)) := by
  refine ⟨L.length + 1, fun k hk => ?_⟩
  have hread := h.frame.listRead (E := E) (v := u) rfl (h.laid fun e he => (hL e he).sound)
    (fun e he => (hL e he).complete) (show L.length < k by omega)
  rwa [← h.eq_mk] at hread

end Carries

/-- Reading the node list. -/
lemma Holds.listRead {t : Target} {b : Block} {v : U32} {K : List Entry} (h : Holds t b v K)
    (hK : ∀ e ∈ K, e.Complete) :
    Settles (fun k => EverythingNet.listRead t.endian k b (BitVec.ofNat t.bits b.base))
      (.ok (K.map Entry.reading)) := by
  refine ⟨K.length + 1, fun k hk => ?_⟩
  have hread := h.frame.listRead (E := t.endian) (v := v) rfl (h.toNat_nl.symm ▸ h.laid) hK
    (show K.length < k by omega)
  rwa [← h.eq_mk] at hread

/-! ### The refinement -/

section

variable {t : Target} {m : Malloc t.bits} {msg b : Block} {hdr tail : List Byte} {u v : U32}
  {K L : List Entry}

/-- `NODE_CheckForNewNodes` merges the entries of a message into the node list, given enough
fuel. -/
lemma nodeCheckForNewNodes_settles (st : NodeState t.bits) (h : Holds t st.nodeList v K)
    (hmsg : Carries t .be msg hdr u L tail)
    (hlaid : Laid ((msgNodeList (BitVec.ofNat t.bits msg.base)).toNat + 8) L)
    (hm : Mergeable m K L) (hsrc : st.sourceNode = none) :
    ∃ st', Settles (fun k => nodeCheckForNewNodes t m k msg st)
        (.ok (⟨msg.base, hdr ++ (listBytes t.endian u L ++ tail)⟩, st'))
      ∧ Holds t st'.nodeList v (mergeNew uuidOf K L)
      ∧ st'.found = st.found ++ reports st.source K [] L := by
  obtain ⟨st', hok, hrest⟩ := nodeCheckForNewNodes_spec (u := u) h hmsg.frame hlaid hm hsrc
    (Nat.lt_succ_self _)
  rw [← hmsg.eq_mk] at hok
  exact ⟨st', (nodeCheckForNewNodes_steady t m msg st).settles hok (by simp), hrest⟩

/-- `NODE_CheckForNewNodes` on a message from a socket leaves the encoding of the merged list. -/
theorem checkForNewNodes_merges (hK : Holds t b v K) (hKw : ∀ e ∈ K, e.WellFormed)
    (hKn : (K.map uuidOf).Nodup) (hmsg : Carries t .be msg hdr u L tail)
    (hL : ∀ e ∈ L, e.WellFormed) (hne : K ≠ [])
    (hlen : 8 + total (K ++ fresh uuidOf (K.map uuidOf) L) < 2 ^ 32)
    (hlim : 8 + total (K ++ fresh uuidOf (K.map uuidOf) L) ≤ m.limit)
    (src : DiscoverySrc) (allocs : ℕ) (found : List Found) :
    ∃ msg' st', Settles (fun k => nodeCheckForNewNodes t m k msg ⟨b, src, none, allocs, found⟩)
        (.ok (msg', st'))
      ∧ st'.nodeList.bytes = listBytes t.endian v (K ++ fresh uuidOf (K.map uuidOf) L)
      ∧ 8 ∣ st'.nodeList.base
      ∧ ((K ++ fresh uuidOf (K.map uuidOf) L).map uuidOf).Nodup
      ∧ (∃ x y, load32 t.endian b (nlLen (BitVec.ofNat t.bits b.base)) = .ok x
        ∧ load32 t.endian st'.nodeList (nlLen st'.nl) = .ok y
        ∧ y.toNat = x.toNat + total (fresh uuidOf (K.map uuidOf) L))
      ∧ st'.nodeList.bytes.drop 8
        = b.bytes.drop 8 ++ entriesBytes t.endian (fresh uuidOf (K.map uuidOf) L)
      ∧ Settles (fun k => listRead t.endian k msg'
          (msgNodeList (BitVec.ofNat t.bits msg'.base))) (.ok (L.map Entry.reading))
      ∧ Settles (fun k => listRead t.endian k st'.nodeList st'.nl)
          (.ok (K.map Entry.reading ++ (fresh uuidOf (K.map uuidOf) L).map Entry.reading)) := by
  rw [← mergeNew_eq_append] at hlen hlim
  have hLs : ∀ e ∈ L, e.Sound := fun e he => (hL e he).sound
  have hm : Mergeable m K L := ⟨hne, fun e he => hLs e (fresh_sublist.subset he), hlen, hlim⟩
  obtain ⟨st', hok, hholds, -⟩ := nodeCheckForNewNodes_settles
    ⟨b, src, none, allocs, found⟩ hK hmsg (hmsg.laid hLs) hm rfl
  have hnodup := nodup_mergeNew (L := L) hKn
  have hwf : ∀ e ∈ mergeNew uuidOf K L, e.Complete := fun e he =>
    (mem_of_mem_mergeNew he).elim (fun h => (hKw e h).complete) fun h => (hL e h).complete
  have hread := hholds.listRead hwf
  have htot := hholds.len_lt
  have hload := hholds.load_len
  have hbytes := hholds.bytes
  rw [mergeNew_eq_append] at hnodup hread htot hload hbytes
  rw [List.map_append] at hread
  refine ⟨_, st', hok, hbytes, hholds.dvd, hnodup, ⟨_, _, hK.load_len, hload, ?_⟩, ?_,
    (hmsg.convert t.endian).listRead hL, hread⟩
  · rw [toNat_ofNat_of_lt htot, toNat_ofNat_of_lt hK.len_lt, total_append]
    omega
  · have hdrop : ∀ M : List Entry, (listBytes t.endian v M).drop 8 = entriesBytes t.endian M :=
      fun M => List.drop_left' (listHeader_length _ _ _)
    rw [hbytes, hK.bytes, hdrop, hdrop, entriesBytes_append]

end

section

variable {t : Target} {base : ℕ} {u v : U32} {K L : List Entry}

/-- A node list at an address. -/
lemma holds_mk (hK : ∀ e ∈ K, e.Sound) (hpos : 0 < base) (hdvd : 8 ∣ base)
    (hlen : 8 + total K < 2 ^ 32) (hroom : base + (8 + total K) < 2 ^ t.bits) :
    Holds t ⟨base, listBytes t.endian v K⟩ v K :=
  ⟨rfl, hK, hpos, hdvd, hlen, by rw [Block.size_mk, listBytes_length]; exact hroom⟩

/-- A message at an address. -/
lemma carries_mk {E : Endian} {hdr tail : List Byte} (hhdr : hdr.length = 24) (hdvd : 8 ∣ base)
    (hlen : 8 + total L < 2 ^ 32) (hroom : base + (32 + total L + tail.length) < 2 ^ t.bits) :
    Carries t E ⟨base, hdr ++ (listBytes E u L ++ tail)⟩ hdr u L tail := by
  refine ⟨rfl, hhdr, hdvd, hlen, ?_⟩
  simp only [Block.size_mk, List.length_append, hhdr, listBytes_length]
  omega

end

/-- A node list on the sample machine. -/
def sampleList (K : List Entry) : Block := ⟨4096, listBytes .le evrnetNodelistV1 K⟩

/-- A message on the sample machine. -/
def sampleMsg (L : List Entry) : Block :=
  ⟨2 ^ 40, zeros 24 ++ (listBytes .be evrnetNodelistV1 L ++ [])⟩

lemma sampleList_holds {K : List Entry} (hK : ∀ e ∈ K, e.WellFormed)
    (hlen : 8 + total K < 2 ^ 32) :
    Holds .linux64 (sampleList K) evrnetNodelistV1 K :=
  holds_mk (fun e he => (hK e he).sound) (by norm_num) (by norm_num) hlen
    (show 4096 + (8 + total K) < 2 ^ 64 by omega)

lemma sampleMsg_carries {L : List Entry} (hlen : 8 + total L < 2 ^ 32) :
    Carries .linux64 .be (sampleMsg L) (zeros 24) evrnetNodelistV1 L [] :=
  carries_mk List.length_replicate (by norm_num) hlen
    (show 2 ^ 40 + (32 + total L + 0) < 2 ^ 64 by omega)

lemma fresh_crowd : fresh uuidOf ((crowd 1 1 0).map uuidOf) (crowd 0 2 0) = crowd 0 1 0 := by
  simp [fresh, crowd, List.range_succ, uuidOf, LocalInfo.sample, LocalInfo.entry,
    LocalFields.fields]

theorem checkForNewNodes_merges_sample :
    ∃ msg' st', Settles (fun k => nodeCheckForNewNodes .linux64 .spread k (sampleMsg (crowd 0 2 0))
          ⟨sampleList (crowd 1 1 0), .broadcast, none, 2, []⟩) (.ok (msg', st'))
      ∧ st'.nodeList.bytes = listBytes .le evrnetNodelistV1 (crowd 1 1 0 ++ crowd 0 1 0) := by
  have hwf : ∀ a n, ∀ e ∈ crowd a n 0, e.WellFormed := fun a n e => wellFormed_of_mem_crowd
  have htot : 8 + total (crowd 1 1 0 ++ fresh uuidOf ((crowd 1 1 0).map uuidOf) (crowd 0 2 0))
      = 104 := by
    rw [fresh_crowd]
    simp [total_crowd]
  have hK := sampleList_holds (hwf 1 1) (by simp [total_crowd])
  have hL := sampleMsg_carries (L := crowd 0 2 0) (by simp [total_crowd])
  obtain ⟨msg', st', hok, hbytes, -⟩ := checkForNewNodes_merges (m := Malloc.spread) hK (hwf 1 1)
    (nodup_crowd (by norm_num)) hL (hwf 0 2) (by simp [crowd]) (by rw [htot]; norm_num)
    (by rw [htot]; norm_num [Malloc.spread]) .broadcast 2 []
  exact ⟨msg', st', hok, fresh_crowd ▸ hbytes⟩

/-! ### Where the code does not merge -/

section

variable {t : Target} {m : Malloc t.bits} {st : NodeState t.bits} {msg : Block}
  {p : BitVec t.bits} {e : Entry} {v : U32} {K : List Entry} {k : ℕ}

/-- In an empty list the last entry is never found. -/
lemma nodeMaybeAddEntry_empty (st : NodeState t.bits) (h : Holds t st.nodeList v [])
    (he : Sits t.endian msg p e)
    (hk : 0 < k) : nodeMaybeAddEntry t m k msg p st = .error .uninitialised := by
  obtain ⟨k, rfl⟩ := Nat.exists_eq_add_of_le' hk
  have hent : (nlEntries (BitVec.ofNat t.bits st.nodeList.base)).toNat
      = st.nodeList.base + 8 + 0 := h.toNat_entries
  have hstop := h.offset_lt hent le_rfl
  have hlast : lastStep t.endian st.nodeList st.nl (none, nlEntries st.nl) = .ok (.inr none) := by
    rw [lastStep, h.nlBody, ok_bind, if_neg (by rw [hstop]; simp), pure_eq_ok]
  rw [nodeMaybeAddEntry, NodeState.nl, h.known_loop he hk, ok_bind]
  dsimp only
  rw [if_neg (by simp), iter_inr hlast, ok_bind]

/-- The walk over a message stops at its first entry, if that cannot be taken in. -/
lemma nodeCheckForNewNodes_first {hdr tail : List Byte} {u : U32} {L : List Entry} {x : Halt}
    (hmsg : Carries t .be msg hdr u (e :: L) tail) (hL : ∀ f ∈ e :: L, f.Sound)
    (hx : x ≠ .outOfFuel)
    (hadd : ∀ p : BitVec t.bits,
      Sits t.endian ⟨msg.base, hdr ++ (listBytes t.endian u (e :: L) ++ tail)⟩ p e →
        ∃ k, nodeMaybeAddEntry t m k
          ⟨msg.base, hdr ++ (listBytes t.endian u (e :: L) ++ tail)⟩ p st = .error x) :
    Settles (fun k => nodeCheckForNewNodes t m k msg st) (.error x) := by
  have hlaid := hmsg.laid hL
  have hf := hmsg.frame
  have hq : (nlEntries (msgNodeList (BitVec.ofNat t.bits msg.base))).toNat
      = (msgNodeList (BitVec.ofNat t.bits msg.base)).toNat + 8 + total [] := hf.toNat_entries
  have hsits := hf.sits_at (E := t.endian) (v := u) (show total ([] ++ e :: L) = _ from rfl) hq
    (by rw [hf.toNat_entries]; exact hlaid.1)
  obtain ⟨k, hk⟩ := hadd _ hsits
  have hadd' := (nodeMaybeAddEntry_steady t m _ _ st).settles hk (by simpa using hx)
  obtain ⟨N, hN⟩ := hadd'
  refine ⟨max N (L.length + 2), fun k hk => ?_⟩
  obtain ⟨j, rfl⟩ := Nat.exists_eq_add_of_le' (show 1 ≤ k by omega)
  have hpos := e.length_ge
  have hin : nlEntries (msgNodeList (BitVec.ofNat t.bits msg.base))
      - nlEntries (msgNodeList (BitVec.ofNat t.bits msg.base))
        < BitVec.ofNat t.bits (total (e :: L)) :=
    (hf.offset_lt hq (by simp)).mpr (by rw [total_cons, total_nil]; omega)
  have hstep : checkStep t m (j + 1)
      ⟨msg.base, hdr ++ (listBytes t.endian u (e :: L) ++ tail)⟩
      (msgNodeList (BitVec.ofNat t.bits msg.base))
      (st, nlEntries (msgNodeList (BitVec.ofNat t.bits msg.base))) = .error x := by
    rw [checkStep, hf.nlBody_list rfl, ok_bind, if_pos hin]
    exact bind_of_error (hN _ (by omega)) _
  have hconv := hf.nodeListToNative (E := t.endian) (v := u) rfl hlaid
    (show (e :: L).length < j + 1 by rw [List.length_cons]; omega)
  rw [← hmsg.eq_mk] at hconv
  dsimp only [nodeCheckForNewNodes]
  rw [hconv, ok_bind, iter_error hstep, error_bind]

end

/-- A message with one new node. -/
def newcomer : List Entry := crowd (2 ^ 63) 1 0

/-- As many nodes as fit a list, up to sixteen bytes. -/
def full : List Entry := crowd 0 89478485 0

/-- The newcomer meets lists that cannot take it in. -/
lemma newcomer_halts {K : List Entry} {x : Halt} (hx : x ≠ .outOfFuel)
    (h : ∀ (msg : Block) (p : BitVec 64) (e : Entry), e ∈ newcomer → Sits .le msg p e →
      ∃ k, nodeMaybeAddEntry .linux64 .spread k msg p
        ⟨sampleList K, .broadcast, none, 2, []⟩ = .error x) :
    Settles (fun k => nodeCheckForNewNodes .linux64 .spread k (sampleMsg newcomer)
      ⟨sampleList K, .broadcast, none, 2, []⟩) (.error x) := by
  have hcarries : Carries .linux64 .be (sampleMsg newcomer) (zeros 24) evrnetNodelistV1 newcomer [] :=
    sampleMsg_carries (by simp [newcomer, total_crowd])
  have hsound : ∀ e ∈ newcomer, e.Sound := fun e he => (wellFormed_of_mem_crowd he).sound
  exact nodeCheckForNewNodes_first hcarries hsound hx fun p hp => h _ p _ (List.mem_cons_self ..) hp

lemma newcomer_length {e : Entry} (he : e ∈ newcomer) : e.length = 48 := by
  obtain ⟨i, -, rfl⟩ := List.mem_map.mp he
  exact LocalInfo.sample_length _ _

lemma newcomer_carries :
    Carries .linux64 .be (sampleMsg newcomer) (zeros 24) evrnetNodelistV1 newcomer [] :=
  sampleMsg_carries (by simp [newcomer, total_crowd])

lemma newcomer_empty : Settles (fun k => nodeCheckForNewNodes .linux64 .spread k
    (sampleMsg newcomer) ⟨sampleList [], .broadcast, none, 2, []⟩) (.error .uninitialised) := by
  have hempty := sampleList_holds (K := []) (by simp) (by norm_num [total_nil])
  refine newcomer_halts (by simp) fun msg p _ _ hsits => ⟨1, ?_⟩
  exact nodeMaybeAddEntry_empty ⟨sampleList [], .broadcast, none, 2, []⟩ hempty hsits
    Nat.one_pos

lemma newcomer_wrap {K : List Entry} (hK : ∀ e ∈ K, e.WellFormed) (htot : total K = 4294967280)
    (hnew : ∀ e ∈ newcomer, e.uuid ∉ K.map uuidOf) :
    Settles (fun k => nodeCheckForNewNodes .linux64 .spread k (sampleMsg newcomer)
      ⟨sampleList K, .broadcast, none, 2, []⟩) (.error .outOfBounds) := by
  have hne : K ≠ [] := by
    rintro rfl
    simp at htot
  have hholds := sampleList_holds hK (by rw [htot]; norm_num)
  refine newcomer_halts (by simp) fun msg p e he hsits => ⟨K.length + 1, ?_⟩
  refine nodeMaybeAddEntry_wrap ⟨sampleList K, .broadcast, none, 2, []⟩ hholds hsits hne
    (Nat.lt_add_one _) (hnew e he) ?_ ?_
  · rw [htot, newcomer_length he]
    norm_num
  · rw [htot, newcomer_length he]
    norm_num [Malloc.spread]

lemma total_full : total full = 4294967280 := by simp [full, total_crowd]

lemma full_wellFormed : ∀ e ∈ full, e.WellFormed := fun _ => wellFormed_of_mem_crowd

lemma newcomer_new : ∀ e ∈ newcomer, e.uuid ∉ full.map uuidOf := by
  intro e he hmem
  obtain ⟨i, hi, rfl⟩ := List.mem_map.mp he
  rw [full, keys_crowd, List.mem_map] at hmem
  obtain ⟨j, hj, hij⟩ := hmem
  rw [List.mem_range] at hi hj
  have h1 : (BitVec.ofNat 64 (0 + j)).toNat = (BitVec.ofNat 64 (2 ^ 63 + i)).toNat :=
    congrArg BitVec.toNat (Prod.ext_iff.mp hij).1
  rw [toNat_ofNat_of_lt (by omega), toNat_ofNat_of_lt (by omega)] at h1
  omega

/-- Two well-formed lists that a well-formed message is not merged into: the empty one, and one of
almost `2 ^ 32` bytes. -/
theorem checkForNewNodes_not_merges :
    Carries .linux64 .be (sampleMsg newcomer) (zeros 24) evrnetNodelistV1 newcomer []
    ∧ (∀ e ∈ newcomer, e.WellFormed)
    ∧ (Holds .linux64 (sampleList []) evrnetNodelistV1 []
      ∧ Settles (fun k => nodeCheckForNewNodes .linux64 .spread k (sampleMsg newcomer)
          ⟨sampleList [], .broadcast, none, 2, []⟩) (.error .uninitialised))
    ∧ (Holds .linux64 (sampleList full) evrnetNodelistV1 full
      ∧ (∀ e ∈ full, e.WellFormed) ∧ (full.map uuidOf).Nodup
      ∧ Settles (fun k => nodeCheckForNewNodes .linux64 .spread k (sampleMsg newcomer)
          ⟨sampleList full, .broadcast, none, 2, []⟩) (.error .outOfBounds)) := by
  refine ⟨newcomer_carries, fun _ => wellFormed_of_mem_crowd, ⟨?_, newcomer_empty⟩, ?_,
    full_wellFormed, nodup_crowd (by norm_num), newcomer_wrap full_wellFormed total_full newcomer_new⟩
  · exact sampleList_holds (by simp) (by norm_num [total_nil])
  · exact sampleList_holds full_wellFormed (by rw [total_full]; norm_num)

end EverythingNet
