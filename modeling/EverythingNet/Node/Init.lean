import Mathlib.Tactic
import EverythingNet.Node.Discover

/-!
`NODE_Init` of `app/node.c`: the node list with the local entry.

* `LocalInfo`: the globals `NODE_LocalName`, `NODE_LocalUUID` and `PLAT_Info`, with the room their
  entry has in the buffer of 4096 bytes. `LocalInfo.entry`: that entry, all paddings zero.
* `nodeInit`: the code. It builds the entry in zeroed memory, where every accessor already finds
  an entry with empty strings, so each write is computed on an entry in its seat
  (`Seat.store_field`, `strcpy_zeros`).
* `nodeInit_spec`: the list has the one entry `LocalInfo.entry`.
-/

namespace EverythingNet

open CMem

/-- `n` zero bytes. -/
abbrev zeros (n : ℕ) : List Byte := List.replicate n 0

/-- The version string every node announces. -/
def somever : CStr := ⟨[0x73, 0x6f, 0x6d, 0x65, 0x76, 0x65, 0x72], by decide⟩

lemma zeros_add (j n : ℕ) : zeros (j + n) = zeros j ++ zeros n := List.replicate_add _ _ _

/-- An entry without IP addresses and with zero paddings, at an 8-aligned address. -/
def blank (name ver : CStr) : Shape :=
  let nameEnd := 5 + name.1.length
  let ipsOff := nameEnd + pad 4 nameEnd
  let verEnd := ipsOff + pad 8 ipsOff + 16 + ver.1.length + 1
  ⟨0, 0, name, zeros (pad 4 nameEnd), zeros (pad 8 ipsOff), ver, zeros (pad 4 verEnd)⟩

/-- `NODE_LocalName`, `NODE_LocalUUID` and `PLAT_Info`. -/
structure LocalFields where
  name : CStr
  uuid : U64 × U64
  cap : U32
  memSz : U32
  platName : CStr
  os : CStr
  arch : CStr
  cpu : CStr
  gpu : CStr
  deriving DecidableEq

namespace LocalFields

/-- The strings of `PLAT_Info`. -/
def strs (i : LocalFields) : List CStr := [i.platName, i.os, i.arch, i.cpu, i.gpu]

/-- The number of bytes the local entry uses. -/
def used (i : LocalFields) : ℕ := (blank i.name somever).length + (flat i.strs).length

/-- The fields of the local entry. -/
def fields (i : LocalFields) : Fields where
  distance := 0
  name := i.name
  namePad := (blank i.name somever).namePad
  ips := []
  ipsPad := (blank i.name somever).ipsPad
  uuid := i.uuid
  ver := somever
  verPad := (blank i.name somever).verPad
  cap := i.cap
  memSz := i.memSz
  rest := flat i.strs ++ zeros (pad 8 i.used)

end LocalFields

/-- The local information, with an entry that fits the buffer of `NODE_Init`. -/
@[ext]
structure LocalInfo extends LocalFields where
  fits : toLocalFields.fields.length ≤ 4096

/-- `EVRNET_NODELIST_V1`. -/
def evrnetNodelistV1 : U32 := 1

/-- The part of `NODE_Init` that copies the strings of `PLAT_Info`. -/
def nodeInitStrings {w : ℕ} (b : Block) (e : BitVec w) (i : LocalFields) : Except Halt Block := do
  let b ← entryNodePlatinfoName b e >>= fun q => strcpy b q i.platName
  let b ← entryNodePlatinfoOs b e >>= fun q => strcpy b q i.os
  let b ← entryNodePlatinfoArch b e >>= fun q => strcpy b q i.arch
  let b ← entryNodePlatinfoCpu b e >>= fun q => strcpy b q i.cpu
  entryNodePlatinfoGpu b e >>= fun q => strcpy b q i.gpu

/-- The part of `NODE_Init` that sets up the local entry. -/
def nodeInitEntry {w : ℕ} (E : Endian) (b : Block) (e : BitVec w) (i : LocalFields) :
    Except Halt Block := do
  let b ← b.store (entryNumIp e).toNat [0]
  let b ← b.store (entryDistanceFromMe e).toNat [0]
  let b ← strcpy b (entryNodeName e) i.name
  let b ← entryNodeUuid b e >>= fun q => store64 E b q i.uuid.1
  let b ← entryNodeUuid b e >>= fun q => store64 E b (q + 8) i.uuid.2
  let b ← entryNodeEvrnetVer b e >>= fun q => strcpy b q somever
  let b ← entryNodePlatinfoCap b e >>= fun q => store32 E b q i.cap
  let b ← entryNodePlatinfoMemsz b e >>= fun q => store32 E b q i.memSz
  let b ← nodeInitStrings b e i
  entryCalcSize b e >>= store16 E b (entrySize e)

/-- `NODE_Init`, with the requests `k` and `k + 1` to the allocator. -/
def nodeInit (t : Target) (m : Malloc t.bits) (k : ℕ) (i : LocalFields) :
    Except Halt (NodeState t.bits) :=
  match m.malloc k (8 + 4096) with
  | none => .error (.exited 1)
  | some b => do
    let nl := BitVec.ofNat t.bits b.base
    let b ← store32 t.endian b (nlLen nl) 8
    let b ← store32 t.endian b (nlVersion nl) evrnetNodelistV1
    let b ← b.store (nl + 8).toNat (zeros 4096)
    let e := nlEntries nl
    let b ← nodeInitEntry t.endian b e i
    let len := (← load32 t.endian b (nlLen nl))
      + (← load16 t.endian b (entrySize e)).setWidth 32
    let b ← store32 t.endian b (nlLen nl) len
    match m.realloc (k + 1) b len.toNat with
    | none => .error .nullPointer
    | some b => return ⟨b, .unset, none, k + 2, []⟩

/-! ### The local entry -/

section

variable {name ver : CStr} {a : ℕ} {p : Payload}

lemma blank_fits (ha : 8 ∣ a) (hsize : p.size.length = 2) (hips : p.ips = [])
    (hu0 : p.uuid0.length = 8) (hu1 : p.uuid1.length = 8) (hcap : p.cap.length = 4)
    (hmem : p.memSz.length = 4) : Shape.Fits a (blank name ver) p where
  size := hsize
  name := name.2
  namePad := by
    rw [add_assoc, pad_add_of_dvd (dvd_trans (by norm_num) ha)]
    simp [blank]
  ips := by simp [hips, blank]
  ipsPad := by
    rw [add_assoc, pad_add_of_dvd ha]
    simp [blank, Shape.ipsOff]
  uuid0 := hu0
  uuid1 := hu1
  ver := ver.2
  verPad := by
    rw [add_assoc, add_assoc, pad_add_of_dvd (dvd_trans (by norm_num) ha)]
    simp [blank, Shape.verOff, Shape.uuidOff, Shape.ipsOff, add_assoc]
  cap := hcap
  memSz := hmem

end

namespace LocalFields

variable (i : LocalFields)

lemma fields_shape : i.fields.shape = blank i.name somever := by
  simp [Fields.shape, fields, blank]

lemma fields_length : i.fields.length = i.used + pad 8 i.used := by
  rw [Fields.length, fields_shape]
  simp only [fields, List.length_append, List.length_replicate, used]
  omega

end LocalFields

namespace LocalInfo

variable (i : LocalInfo)

/-- The entry of the local node. -/
def entry : Entry where
  toFields := i.fields
  ips_lt := by simp [LocalFields.fields]
  length_lt := lt_of_le_of_lt i.fits (by norm_num)

lemma entry_length : i.entry.length = i.used + pad 8 i.used := i.fields_length

lemma used_le : i.used ≤ 4096 := by
  have h1 := i.fits
  have h2 := i.fields_length
  omega

/-- The local entry is sound and complete. -/
lemma entry_wellFormed : i.entry.WellFormed where
  sound := by
    have hf := @blank_fits i.name somever 0 (i.entry.payload .le) (dvd_zero 8)
      (by simp [Entry.payload])
      (by simp [Entry.payload, entry, LocalFields.fields]) (by simp [Entry.payload])
      (by simp [Entry.payload]) (by simp [Entry.payload]) (by simp [Entry.payload])
    have hs : i.entry.shape = blank i.name somever := i.fields_shape
    refine ⟨⟨hf.namePad, ?_, ?_⟩, ?_⟩
    · rw [hs]
      exact hf.ipsPad
    · rw [hs]
      exact hf.verPad
    · rw [i.entry_length]
      exact dvd_add_pad _ (by norm_num)
  complete := by
    have hrest : i.entry.rest = flat i.strs ++ zeros (pad 8 i.used) := rfl
    rw [Entry.Complete, hrest, cstrings_flat]
    simp [LocalFields.strs]

instance : NeZero 507 := ⟨by decide⟩

/-- A node without names, but with a device name that makes its entry `48 + 8 * j` bytes long. -/
def sample (u : U64 × U64) (j : Fin 507) : LocalInfo where
  name := ⟨[], by simp⟩
  uuid := u
  cap := 0
  memSz := 0
  platName := ⟨List.replicate (8 * j + 3) 0x61, by simp⟩
  os := ⟨[], by simp⟩
  arch := ⟨[], by simp⟩
  cpu := ⟨[], by simp⟩
  gpu := ⟨[], by simp⟩
  fits := by
    rw [LocalFields.fields_length]
    simp [LocalFields.used, LocalFields.strs, flat, blank, somever, pad, Shape.length,
      Shape.capOff, Shape.verOff, Shape.uuidOff, Shape.ipsOff]
    omega

lemma sample_length (u : U64 × U64) (j : Fin 507) :
    (sample u j).entry.length = 48 + 8 * j := by
  rw [entry_length]
  simp [LocalFields.used, LocalFields.strs, flat, blank, somever, pad, Shape.length,
    Shape.capOff, Shape.verOff, Shape.uuidOff, Shape.ipsOff, sample]
  omega

/-- A node with all its names. -/
def desktop : LocalInfo where
  name := ⟨[0x64, 0x65, 0x73, 0x6B], by decide⟩
  uuid := (0x0123456789ABCDEF, 0xFEDCBA9876543210)
  cap := 0x43
  memSz := 16384
  platName := ⟨[0x41, 0x54, 0x58], by decide⟩
  os := ⟨[0x4C, 0x69, 0x6E, 0x75, 0x78], by decide⟩
  arch := ⟨[0x78, 0x38, 0x36], by decide⟩
  cpu := ⟨[0x52, 0x79, 0x7A, 0x65, 0x6E], by decide⟩
  gpu := ⟨[0x41, 0x72, 0x63], by decide⟩
  fits := by decide

end LocalInfo

/-- The entries of `n` sample nodes whose UUIDs count up from `a`. -/
def crowd (a n : ℕ) (j : Fin 507) : List Entry :=
  (List.range n).map fun i => (LocalInfo.sample (BitVec.ofNat 64 (a + i), 0) j).entry

section

variable {a n : ℕ} {j : Fin 507} {e : Entry}

lemma total_crowd : total (crowd a n j) = n * (48 + 8 * j) := by
  induction n with
  | zero => simp [crowd]
  | succ n ih =>
      rw [crowd] at ih
      rw [crowd, List.range_succ, List.map_append, total_append, ih, List.map_singleton,
        total_cons, total_nil, LocalInfo.sample_length]
      ring

lemma wellFormed_of_mem_crowd (h : e ∈ crowd a n j) : e.WellFormed := by
  obtain ⟨i, -, rfl⟩ := List.mem_map.mp h
  exact LocalInfo.entry_wellFormed _

lemma keys_crowd : (crowd a n j).map uuidOf
    = (List.range n).map fun i => ((BitVec.ofNat 64 (a + i), 0) : U64 × U64) := by
  rw [crowd, List.map_map]
  rfl

lemma crowd_append (k : ℕ) : crowd a n j ++ crowd (a + n) k j = crowd a (n + k) j := by
  rw [crowd, crowd, crowd, List.range_add, List.map_append, List.map_map]
  congr 2
  funext i
  simp [add_assoc]

lemma nodup_crowd (h : a + n ≤ 2 ^ 64) : ((crowd a n j).map uuidOf).Nodup := by
  rw [keys_crowd]
  refine List.Nodup.map_on ?_ List.nodup_range
  intro x hx y hy hxy
  rw [List.mem_range] at hx hy
  have h1 := congrArg BitVec.toNat (Prod.ext_iff.mp hxy).1
  rw [toNat_ofNat_of_lt (by omega), toNat_ofNat_of_lt (by omega)] at h1
  omega

end

/-! ### Writing into zeroed memory -/

/-- The empty string. -/
def emptyStr : CStr := ⟨[], by simp⟩

/-- The entry grows when its version is written. -/
lemma blank_length_le (name : CStr) :
    (blank name emptyStr).length ≤ (blank name somever).length := by
  have hpad := pad_lt (show 0 < 4 by norm_num) ((blank name emptyStr).verOff + 1)
  have hverPad : (blank name emptyStr).verPad.length = pad 4 ((blank name emptyStr).verOff + 1) := by
    simp [blank, emptyStr, Shape.verOff, Shape.uuidOff, Shape.ipsOff]
  have hoff : (blank name somever).verOff = (blank name emptyStr).verOff := rfl
  have hver : (blank name emptyStr).ver.length = 0 := rfl
  have hsome : (blank name somever).ver.length = 7 := rfl
  simp only [Shape.length, Shape.capOff, hoff, hver, hsome, hverPad]
  omega

/-- The numbers of an entry without IP addresses. -/
def blankPayload (E : Endian) (size u0 u1 cap mem : ℕ) : Payload :=
  ⟨E.encode 2 size, [], E.encode 8 u0, E.encode 8 u1, E.encode 4 cap, E.encode 4 mem⟩

/-- The place of the local entry: an 8-aligned block with a header and a buffer of 4096 bytes. -/
structure Site {w : ℕ} (base : ℕ) (H : List Byte) (e : BitVec w) : Prop where
  bits : w = 32 ∨ w = 64
  header : H.length = 8
  addr : e.toNat = base + 8
  dvd : 8 ∣ base
  room : base + (8 + 4096) < 2 ^ w

/-- A string written into zeroed memory. -/
lemma strcpy_zeros {w base n : ℕ} {x : List Byte} {q : BitVec w} {s : CStr}
    (hq : q.toNat = base + x.length) :
    strcpy ⟨base, x ++ zeros (s.1.length + 1 + n)⟩ q s =
      .ok ⟨base, x ++ (s.1 ++ [0]) ++ zeros n⟩ := by
  have hb : x ++ zeros (s.1.length + 1 + n) = x ++ zeros (s.1.length + 1) ++ zeros n := by
    rw [List.append_assoc, List.replicate_append_replicate]
  rw [hb]
  exact Block.store_mk hq (by simp)

/-- A zero written into zeroed memory. -/
lemma store_zero {base j n a : ℕ} {x : List Byte} (ha : a = base + x.length + j) (hj : j < n) :
    (⟨base, x ++ zeros n⟩ : Block).store a [0] = .ok ⟨base, x ++ zeros n⟩ := by
  have hb : x ++ zeros n = (x ++ zeros j) ++ [0] ++ zeros (n - j - 1) := by
    have h1 : zeros n = zeros j ++ (zeros 1 ++ zeros (n - j - 1)) := by
      rw [List.replicate_append_replicate, List.replicate_append_replicate]
      congr 1
      omega
    rw [h1]
    simp
  rw [hb]
  exact Block.store_mk (by simp; omega) rfl

/-- With empty strings and numbers the entry is a name among zeros. -/
lemma blank_bytes_name (E : Endian) (name : CStr) :
    (blank name emptyStr).bytes (blankPayload E 0 0 0 0 0)
      = zeros 4 ++ (name.1 ++ [0]) ++ zeros ((blank name emptyStr).length - 5 - name.1.length) := by
  obtain ⟨i, hi⟩ : ∃ i, i = (blank name emptyStr).namePad.length := ⟨_, rfl⟩
  obtain ⟨j, hj⟩ : ∃ j, j = (blank name emptyStr).ipsPad.length := ⟨_, rfl⟩
  obtain ⟨k, hk⟩ : ∃ k, k = (blank name emptyStr).verPad.length := ⟨_, rfl⟩
  have hbytes : (blank name emptyStr).bytes (blankPayload E 0 0 0 0 0)
      = zeros 2 ++ zeros 2 ++ name.1 ++ zeros 1 ++ zeros i ++ [] ++ zeros j ++ zeros 8 ++ zeros 8
        ++ [] ++ zeros 1 ++ zeros k ++ zeros 4 ++ zeros 4 := by
    have hi' : (blank name emptyStr).namePad = zeros i := by simp [hi, blank]
    have hj' : (blank name emptyStr).ipsPad = zeros j := by simp [hj, blank]
    have hk' : (blank name emptyStr).verPad = zeros k := by simp [hk, blank]
    rw [Shape.bytes, hi', hj', hk']
    simp only [blankPayload, Endian.encode_zero]
    rfl
  have hlen : (blank name emptyStr).length - 5 - name.1.length = i + j + 25 + k := by
    have hname : (blank name emptyStr).name = name.1 := rfl
    have hver : (blank name emptyStr).ver = [] := rfl
    have hnum : (blank name emptyStr).numIp.toNat = 0 := rfl
    simp only [Shape.length, Shape.capOff, Shape.verOff, Shape.uuidOff, Shape.ipsOff, hname, hver,
      hnum, hi, hj, hk, List.length_nil]
    omega
  have hone : ([0] : List Byte) = zeros 1 := rfl
  rw [hbytes, hlen, hone]
  simp only [List.append_assoc, List.nil_append, List.replicate_append_replicate,
    -List.reduceReplicate]
  have hsum : 1 + i + j + 8 + 8 + 1 + k + 4 + 4 = 1 + (i + j + 25 + k) := by omega
  rw [hsum]

/-- The bytes of an entry before its version string. -/
def blankHead (E : Endian) (name : CStr) (size u0 u1 : ℕ) : List Byte :=
  E.encode 2 size ++ [0, 0] ++ name.1 ++ [0] ++ (blank name emptyStr).namePad
    ++ (blank name emptyStr).ipsPad ++ E.encode 8 u0 ++ E.encode 8 u1

lemma blankHead_length (E : Endian) (name ver : CStr) (size u0 u1 : ℕ) :
    (blankHead E name size u0 u1).length = (blank name ver).verOff := by
  simp only [blankHead, List.length_append, Endian.encode_length, List.length_cons, List.length_nil,
    Shape.verOff, Shape.uuidOff, Shape.ipsOff, blank]
  simp
  omega

/-- Without capabilities and memory size the version is the last thing among zeros. -/
lemma blank_bytes_ver (E : Endian) (name ver : CStr) (size u0 u1 : ℕ) :
    (blank name ver).bytes (blankPayload E size u0 u1 0 0)
      = blankHead E name size u0 u1 ++ (ver.1 ++ [0])
        ++ zeros ((blank name ver).verPad.length + (4 + 4)) := by
  simp only [List.replicate_add]
  simp [Shape.bytes, blank, blankPayload, blankHead, Endian.encode_zero]

namespace Site

variable {w base : ℕ} {H R : List Byte} {e : BitVec w} {E : Endian} {name ver : CStr}
  {size u0 u1 cap mem : ℕ}

/-- The local entry in its buffer, followed by `R`. -/
abbrev draft (base : ℕ) (H : List Byte) (E : Endian) (name ver : CStr) (size u0 u1 cap mem : ℕ)
    (R : List Byte) : Block :=
  Seat.block base H R (blank name ver) (blankPayload E size u0 u1 cap mem)

lemma seat (h : Site base H e) (hR : (blank name ver).length + R.length = 4096) :
    Seat base H R e (blank name ver) (blankPayload E size u0 u1 cap mem) where
  bits := h.bits
  addr := by rw [h.addr, h.header]
  fits := by
    refine blank_fits ?_ (E.encode_length 2 _) rfl (E.encode_length 8 _) (E.encode_length 8 _)
      (E.encode_length 4 _) (E.encode_length 4 _)
    rw [h.addr]
    exact dvd_add h.dvd (by norm_num)
  room := by
    have := h.room
    rw [h.header]
    omega

lemma toNat_off (h : Site base H e) {k : ℕ} (hk : k ≤ 4096) :
    (e + BitVec.ofNat w k).toNat = base + 8 + k := by
  have := h.room
  rw [toNat_add_ofNat (by rw [h.addr]; omega), h.addr]

/-- `strcpy(ENTRY_NODE_NAME(e), NODE_LocalName)`. -/
lemma storeName (h : Site base H e) {n : ℕ} (hn : (blank name emptyStr).length + n = 4096) :
    strcpy ⟨base, H ++ zeros 4096⟩ (entryNodeName e) name
      = .ok (draft base H E name emptyStr 0 0 0 0 0 (zeros n)) := by
  have hlen : 5 + name.1.length ≤ (blank name emptyStr).length := by
    have hname : (blank name emptyStr).name = name.1 := rfl
    simp only [Shape.length, Shape.capOff, Shape.verOff, Shape.uuidOff, Shape.ipsOff, hname]
    omega
  have hb : H ++ zeros 4096 = (H ++ zeros 4)
      ++ zeros (name.1.length + 1 + ((blank name emptyStr).length - 5 - name.1.length + n)) := by
    rw [List.append_assoc, List.replicate_append_replicate]
    congr 2
    omega
  have hq : (entryNodeName e).toNat = base + (H ++ zeros 4).length := by
    have := h.toNat_off (show 4 ≤ 4096 by norm_num)
    rw [List.length_append, h.header, List.length_replicate]
    exact this
  rw [hb, strcpy_zeros hq, draft, Seat.block, blank_bytes_name]
  rw [zeros_add]
  simp only [List.append_assoc]

/-- `ENTRY_NODE_UUID(e)[0] = …`. -/
lemma storeUuid0 (h : Site base H e) (hR : (blank name ver).length + R.length = 4096) (u : U64) :
    (entryNodeUuid (draft base H E name ver size u0 u1 cap mem R) e
        >>= fun q => store64 E (draft base H E name ver size u0 u1 cap mem R) q u)
      = .ok (draft base H E name ver size u.toNat u1 cap mem R) := by
  have hs : Seat base H R e (blank name ver) (blankPayload E size u0 u1 cap mem) := h.seat hR
  have hk : (blank name ver).uuidOff ≤ (blank name ver).length := by
    simp only [Shape.length, Shape.capOff, Shape.verOff]
    omega
  obtain ⟨x, z, hx, hz⟩ := Shape.exists_uuid0 hs.fits
  rw [hs.spot.uuid, ok_bind, store64]
  exact hs.store_field hx hk (hz _) (hz _) (by simp)

/-- `ENTRY_NODE_UUID(e)[1] = …`. -/
lemma storeUuid1 (h : Site base H e) (hR : (blank name ver).length + R.length = 4096) (u : U64) :
    (entryNodeUuid (draft base H E name ver size u0 u1 cap mem R) e
        >>= fun q => store64 E (draft base H E name ver size u0 u1 cap mem R) (q + 8) u)
      = .ok (draft base H E name ver size u0 u.toNat cap mem R) := by
  have hs : Seat base H R e (blank name ver) (blankPayload E size u0 u1 cap mem) := h.seat hR
  have hk : (blank name ver).uuidOff + 8 ≤ (blank name ver).length := by
    simp only [Shape.length, Shape.capOff, Shape.verOff]
    omega
  have hq : e + BitVec.ofNat w (blank name ver).uuidOff + 8
      = e + BitVec.ofNat w ((blank name ver).uuidOff + 8) := add_ofNat_ofNat e _ 8
  obtain ⟨x, z, hx, hz⟩ := Shape.exists_uuid1 hs.fits
  rw [hs.spot.uuid, ok_bind, hq, store64]
  exact hs.store_field hx hk (hz _) (hz _) (by simp)

/-- `*ENTRY_NODE_PLATINFO_CAP(e) = …`. -/
lemma storeCap (h : Site base H e) (hR : (blank name ver).length + R.length = 4096) (c : U32) :
    (entryNodePlatinfoCap (draft base H E name ver size u0 u1 cap mem R) e
        >>= fun q => store32 E (draft base H E name ver size u0 u1 cap mem R) q c)
      = .ok (draft base H E name ver size u0 u1 c.toNat mem R) := by
  have hs : Seat base H R e (blank name ver) (blankPayload E size u0 u1 cap mem) := h.seat hR
  have hk : (blank name ver).capOff ≤ (blank name ver).length := by
    simp only [Shape.length]
    omega
  obtain ⟨x, z, hx, hz⟩ := Shape.exists_cap hs.fits
  rw [hs.spot.cap, ok_bind, store32]
  exact hs.store_field hx hk (hz _) (hz _) (by simp)

/-- `*ENTRY_NODE_PLATINFO_MEMSZ(e) = …`. -/
lemma storeMemsz (h : Site base H e) (hR : (blank name ver).length + R.length = 4096) (c : U32) :
    (entryNodePlatinfoMemsz (draft base H E name ver size u0 u1 cap mem R) e
        >>= fun q => store32 E (draft base H E name ver size u0 u1 cap mem R) q c)
      = .ok (draft base H E name ver size u0 u1 cap c.toNat R) := by
  have hs : Seat base H R e (blank name ver) (blankPayload E size u0 u1 cap mem) := h.seat hR
  have hk : (blank name ver).capOff + 4 ≤ (blank name ver).length := by
    simp only [Shape.length]
    omega
  obtain ⟨x, hx, hz⟩ := Shape.exists_memSz hs.fits
  have hz' : ∀ v, (blank name ver).bytes { blankPayload E size u0 u1 cap mem with memSz := v }
      = x ++ v ++ [] := fun v => by rw [hz, List.append_nil]
  rw [hs.spot.memSz, ok_bind, store32]
  exact hs.store_field hx hk (hz' _) (hz' _) (by simp)

/-- `*ENTRY_SIZE(e) = …`. -/
lemma storeSize (h : Site base H e) (hR : (blank name ver).length + R.length = 4096) (n : U16) :
    store16 E (draft base H E name ver size u0 u1 cap mem R) (entrySize e) n
      = .ok (draft base H E name ver n.toNat u0 u1 cap mem R) := by
  have hs : Seat base H R e (blank name ver) (blankPayload E size u0 u1 cap mem) := h.seat hR
  obtain ⟨z, hz⟩ := (blank name ver).exists_size (blankPayload E size u0 u1 cap mem)
  have hq : entrySize e = e + BitVec.ofNat w 0 := by simp [entrySize]
  have hl : (E.encode 2 n.toNat).length = (E.encode 2 size).length := by simp
  rw [hq, store16]
  exact hs.store_field (@List.length_nil Byte) (Nat.zero_le _) (hz _) (hz _) hl

/-- `strcpy(ENTRY_NODE_EVRNET_VER(e), …)`. -/
lemma storeVer (h : Site base H e) {j n : ℕ} (hj : (blank name emptyStr).length + j = 4096)
    (hn : (blank name ver).length + n = 4096) :
    (entryNodeEvrnetVer (draft base H E name emptyStr size u0 u1 0 0 (zeros j)) e
        >>= fun q => strcpy (draft base H E name emptyStr size u0 u1 0 0 (zeros j)) q ver)
      = .ok (draft base H E name ver size u0 u1 0 0 (zeros n)) := by
  have hs : Seat base H (zeros j) e (blank name emptyStr) (blankPayload E size u0 u1 0 0) :=
    h.seat (by rw [List.length_replicate]; exact hj)
  have hlen : ∀ v : CStr, (blank name v).length
      = (blank name emptyStr).verOff + v.1.length + 1 + ((blank name v).verPad.length + (4 + 4)) :=
    fun v => by
      have hoff : (blank name v).verOff = (blank name emptyStr).verOff := rfl
      have hver : (blank name v).ver = v.1 := rfl
      simp only [Shape.length, Shape.capOff, hoff, hver]
      omega
  have hempty : emptyStr.1.length = 0 := rfl
  have hlen0 := hlen emptyStr
  have hlenv := hlen ver
  have hb : draft base H E name emptyStr size u0 u1 0 0 (zeros j)
      = ⟨base, (H ++ blankHead E name size u0 u1)
        ++ zeros (ver.1.length + 1 + ((blank name ver).verPad.length + (4 + 4) + n))⟩ := by
    have hsum : ver.1.length + 1 + ((blank name ver).verPad.length + (4 + 4) + n)
        = 1 + (((blank name emptyStr).verPad.length + (4 + 4)) + j) := by omega
    have hone : emptyStr.1 ++ [0] = zeros 1 := rfl
    rw [draft, Seat.block, blank_bytes_ver, hsum, hone, zeros_add 1, zeros_add _ j]
    simp only [List.append_assoc]
  have hq : (e + BitVec.ofNat w (blank name emptyStr).verOff).toNat
      = base + (H ++ blankHead E name size u0 u1).length := by
    rw [hs.spot.toNat_off (by omega), h.addr, List.length_append, h.header,
      blankHead_length E name emptyStr]
    omega
  rw [hs.spot.ver, ok_bind, hb, strcpy_zeros hq, draft, Seat.block, blank_bytes_ver,
    zeros_add _ n]
  simp only [List.append_assoc]

end Site

/-! ### The strings of `PLAT_Info` -/

/-- The accessors of the five strings, each by the one before it. -/
def platinfoString {w : ℕ} (b : Block) (e : BitVec w) : ℕ → Except Halt (BitVec w)
  | 0 => entryNodePlatinfoName b e
  | n + 1 => do afterString b (← platinfoString b e n)

section

variable {w base : ℕ} {H R : List Byte} {e : BitVec w} {s : Shape} {p : Payload}
  {strs : List CStr}

/-- The string behind `strs` in memory. -/
lemma has_string {x : CStr} (h : Seat base H (flat strs ++ (x.1 ++ [0] ++ R)) e s p) :
    (Seat.block base H (flat strs ++ (x.1 ++ [0] ++ R)) s p).Has
      (e + BitVec.ofNat w (s.length + (flat strs).length)).toNat (x.1 ++ [0]) := by
  have hroom := h.room
  rw [List.length_append] at hroom
  refine ⟨H ++ s.bytes p ++ flat strs, R, by simp, ?_⟩
  show _ = base + _
  rw [toNat_add_ofNat (by rw [h.addr]; omega), h.addr, List.length_append, List.length_append,
    h.fits.length_bytes]
  omega

/-- The string with this number starts behind those before it. -/
lemma platinfoString_spec (h : Seat base H (flat strs ++ R) e s p) :
    platinfoString (Seat.block base H (flat strs ++ R) s p) e strs.length
      = .ok (e + BitVec.ofNat w (s.length + (flat strs).length)) := by
  induction strs using List.reverseRecOn generalizing R with
  | nil =>
      rw [List.length_nil, platinfoString, h.spot.platinfoName, flat_nil, List.length_nil,
        Nat.add_zero]
  | append_singleton strs x ih =>
      have hR : flat (strs ++ [x]) ++ R = flat strs ++ (x.1 ++ [0] ++ R) := by
        rw [flat_append, List.append_assoc]
      rw [hR] at h ⊢
      rw [List.length_append, List.length_singleton, platinfoString, ih h, ok_bind,
        afterString_has (has_string h) x.2, add_ofNat_ofNat, flat_append, List.length_append,
        List.length_append, List.length_singleton, add_assoc]

/-- The next string is copied behind those before it. -/
lemma storeString {n : ℕ} {x : CStr}
    (h : Seat base H (flat strs ++ zeros (x.1.length + 1 + n)) e s p) :
    (platinfoString (Seat.block base H (flat strs ++ zeros (x.1.length + 1 + n)) s p) e strs.length
        >>= fun q => strcpy (Seat.block base H (flat strs ++ zeros (x.1.length + 1 + n)) s p) q x)
      = .ok (Seat.block base H (flat (strs ++ [x]) ++ zeros n) s p) := by
  have hroom := h.room
  have hb : Seat.block base H (flat strs ++ zeros (x.1.length + 1 + n)) s p
      = ⟨base, (H ++ s.bytes p ++ flat strs) ++ zeros (x.1.length + 1 + n)⟩ := by
    rw [Seat.block]
    simp only [List.append_assoc]
  have hb' : Seat.block base H (flat (strs ++ [x]) ++ zeros n) s p
      = ⟨base, (H ++ s.bytes p ++ flat strs) ++ (x.1 ++ [0]) ++ zeros n⟩ := by
    rw [Seat.block, flat_append]
    simp only [List.append_assoc]
  have hq : (e + BitVec.ofNat w (s.length + (flat strs).length)).toNat
      = base + (H ++ s.bytes p ++ flat strs).length := by
    rw [List.length_append] at hroom
    rw [toNat_add_ofNat (by rw [h.addr]; omega), h.addr, List.length_append, List.length_append,
      h.fits.length_bytes]
    omega
  rw [platinfoString_spec h, ok_bind, hb, hb', strcpy_zeros hq]

/-- `ENTRY_CALC_SIZE` where the last string ends `n` bytes behind the start of the entry: that many
bytes, up to the next multiple of 8. -/
lemma entryCalcSize_of {b : Block} {gpu len : BitVec w} {n : ℕ} (hw : w = 32 ∨ w = 64)
    (he : 8 ∣ e.toNat) (hgpu : entryNodePlatinfoGpu b e = .ok gpu) (hlen : strlen b gpu = .ok len)
    (hend : gpu + len + 1 = e + BitVec.ofNat w n) (hroom : e.toNat + n + pad 8 n < 2 ^ w) :
    entryCalcSize b e = .ok (BitVec.ofNat 16 (n + pad 8 n)) := by
  have hn' : (e + BitVec.ofNat w n).toNat = e.toNat + n := toNat_add_ofNat (by omega)
  have hsub : (e + BitVec.ofNat w n - e).toNat = n := by
    rw [BitVec.toNat_sub_of_le (by rw [BitVec.le_def]; omega), hn']
    omega
  have he8 : e % 8 = 0#w := by
    apply BitVec.eq_of_toNat_eq
    have h8 : (8 : BitVec w).toNat = 8 :=
      toNat_ofNat_of_lt (show 8 < 2 ^ w by rcases hw with rfl | rfl <;> norm_num)
    rw [BitVec.toNat_umod, h8, Nat.mod_eq_zero_of_dvd he, BitVec.toNat_ofNat, Nat.zero_mod]
  have hmod : (e + BitVec.ofNat w n - e % 8).toNat % 8 = n % 8 := by
    rw [he8, BitVec.sub_zero, hn']
    omega
  rw [entryCalcSize, hgpu, ok_bind, hlen, ok_bind, pure_eq_ok, hend]
  congr 1
  apply BitVec.eq_of_toNat_eq
  rw [BitVec.toNat_setWidth, toNat_align8 hw hsub hmod (by omega), BitVec.toNat_ofNat]

/-- `ENTRY_CALC_SIZE` on an entry in its seat. -/
lemma entryCalcSize_spec {x : CStr} (h : Seat base H (flat (strs ++ [x]) ++ R) e s p)
    (hfour : strs.length = 4) (he : 8 ∣ e.toNat) {n : ℕ}
    (hn : n = s.length + (flat (strs ++ [x])).length)
    (hroom : base + H.length + n + pad 8 n < 2 ^ w) :
    entryCalcSize (Seat.block base H (flat (strs ++ [x]) ++ R) s p) e
      = .ok (BitVec.ofNat 16 (n + pad 8 n)) := by
  have hR : flat (strs ++ [x]) ++ R = flat strs ++ (x.1 ++ [0] ++ R) := by
    rw [flat_append, List.append_assoc]
  have hlen : (flat (strs ++ [x])).length = (flat strs).length + (x.1.length + 1) := by
    rw [flat_append]
    simp
  have haddr := h.addr
  rw [hR] at h ⊢
  have hgpu : entryNodePlatinfoGpu (Seat.block base H (flat strs ++ (x.1 ++ [0] ++ R)) s p) e
      = .ok (e + BitVec.ofNat w (s.length + (flat strs).length)) := by
    have := platinfoString_spec h
    rw [hfour] at this
    exact this
  have hend : e + BitVec.ofNat w (s.length + (flat strs).length) + BitVec.ofNat w x.1.length + 1
      = e + BitVec.ofNat w n := by
    rw [add_ofNat_ofNat]
    refine (add_ofNat_ofNat e _ 1).trans ?_
    rw [hn, hlen]
    congr 2
    omega
  exact entryCalcSize_of h.bits he hgpu (strlen_has (has_string h) x.2) hend (by omega)

end

/-! ### The whole function -/

section

variable {t : Target} {m : Malloc t.bits} {k : ℕ}

/-- `len`, `version` and the `memset`. -/
lemma init_header {base : ℕ} {l : List Byte} (hl : l.length = 8 + 4096)
    (hroom : base + (8 + 4096) < 2 ^ t.bits) :
    (do
      let b ← store32 t.endian ⟨base, l⟩ (nlLen (BitVec.ofNat t.bits base)) 8
      let b ← store32 t.endian b (nlVersion (BitVec.ofNat t.bits base)) evrnetNodelistV1
      b.store (BitVec.ofNat t.bits base + 8).toNat (zeros 4096))
      = .ok ⟨base, listHeader t.endian evrnetNodelistV1 0 ++ zeros 4096⟩ := by
  have hbase : (BitVec.ofNat t.bits base).toNat = base := toNat_ofNat_of_lt (by omega)
  have hlen : (nlLen (BitVec.ofNat t.bits base)).toNat = base + ([] : List Byte).length := hbase
  have hver : (nlVersion (BitVec.ofNat t.bits base)).toNat
      = base + (t.endian.encode 4 8).length := by
    have : (nlVersion (BitVec.ofNat t.bits base)).toNat = (BitVec.ofNat t.bits base).toNat + 4 :=
      toNat_add_ofNat (show (BitVec.ofNat t.bits base).toNat + 4 < 2 ^ t.bits by omega)
    rw [this, hbase, Endian.encode_length]
  have hent : (BitVec.ofNat t.bits base + 8).toNat
      = base + (t.endian.encode 4 8 ++ t.endian.encode 4 1).length := by
    have : (BitVec.ofNat t.bits base + 8).toNat = (BitVec.ofNat t.bits base).toNat + 8 :=
      toNat_add_ofNat (show (BitVec.ofNat t.bits base).toNat + 8 < 2 ^ t.bits by omega)
    rw [this, hbase, List.length_append, Endian.encode_length, Endian.encode_length]
  have hsplit : l = [] ++ l.take 4 ++ ((l.drop 4).take 4 ++ (l.drop 4).drop 4) := by
    rw [List.take_append_drop, List.nil_append, List.take_append_drop]
  have h4 : (l.take 4).length = 4 := by
    rw [List.length_take]
    omega
  have h4' : ((l.drop 4).take 4).length = 4 := by
    rw [List.length_take, List.length_drop]
    omega
  have h1 : store32 t.endian ⟨base, l⟩ (nlLen (BitVec.ofNat t.bits base)) 8
      = .ok ⟨base, [] ++ t.endian.encode 4 8 ++ ((l.drop 4).take 4 ++ (l.drop 4).drop 4)⟩ := by
    conv_lhs => rw [hsplit]
    exact Block.store_mk hlen ((t.endian.encode_length 4 _).trans h4.symm)
  have h2 : store32 t.endian
        ⟨base, t.endian.encode 4 8 ++ (l.drop 4).take 4 ++ (l.drop 4).drop 4⟩
        (nlVersion (BitVec.ofNat t.bits base)) evrnetNodelistV1
      = .ok ⟨base, (t.endian.encode 4 8 ++ t.endian.encode 4 1) ++ (l.drop 4).drop 4 ++ []⟩ := by
    rw [store32, List.append_nil]
    exact Block.store_mk hver ((t.endian.encode_length 4 _).trans h4'.symm)
  have h3 : (⟨base, (t.endian.encode 4 8 ++ t.endian.encode 4 1) ++ (l.drop 4).drop 4 ++ []⟩ :
        Block).store (BitVec.ofNat t.bits base + 8).toNat (zeros 4096)
      = .ok ⟨base, (t.endian.encode 4 8 ++ t.endian.encode 4 1) ++ zeros 4096 ++ []⟩ := by
    refine Block.store_mk hent ?_
    rw [List.length_replicate, List.length_drop, List.length_drop]
    omega
  rw [h1, ok_bind, List.nil_append, ← List.append_assoc, h2, ok_bind, h3, List.append_nil]
  rfl

/-- The strings are copied one behind the other. -/
lemma nodeInitStrings_spec {w base n : ℕ} {H : List Byte} {e : BitVec w} {s : Shape} {p : Payload}
    (i : LocalFields) (h : Seat base H (zeros ((flat i.strs).length + n)) e s p) :
    nodeInitStrings (Seat.block base H (zeros ((flat i.strs).length + n)) s p) e i
      = .ok (Seat.block base H (flat i.strs ++ zeros n) s p) := by
  -- the room behind the strings written so far
  obtain ⟨n5, h5⟩ : ∃ n5, n5 = i.gpu.1.length + 1 + n := ⟨_, rfl⟩
  obtain ⟨n4, h4⟩ : ∃ n4, n4 = i.cpu.1.length + 1 + n5 := ⟨_, rfl⟩
  obtain ⟨n3, h3⟩ : ∃ n3, n3 = i.arch.1.length + 1 + n4 := ⟨_, rfl⟩
  obtain ⟨n2, h2⟩ : ∃ n2, n2 = i.os.1.length + 1 + n3 := ⟨_, rfl⟩
  obtain ⟨n1, h1⟩ : ∃ n1, n1 = i.platName.1.length + 1 + n2 := ⟨_, rfl⟩
  have hn : (flat i.strs).length + n = n1 := by
    simp only [flat, LocalFields.strs, List.flatMap_cons, List.flatMap_nil, List.length_append,
      List.length_singleton, List.length_nil]
    omega
  rw [hn] at h ⊢
  have hstr : ∀ (strs : List CStr) (x : CStr) (j k : ℕ), j = x.1.length + 1 + k →
      (flat strs ++ zeros j).length = n1 →
      (platinfoString (Seat.block base H (flat strs ++ zeros j) s p) e strs.length
          >>= fun q => strcpy (Seat.block base H (flat strs ++ zeros j) s p) q x)
        = .ok (Seat.block base H (flat (strs ++ [x]) ++ zeros k) s p) := by
    rintro strs x j k rfl hj
    refine storeString { h with room := ?_ }
    rw [hj]
    simpa using h.room
  have g1 := hstr [] i.platName n1 n2 h1 (by simp)
  have g2 := hstr [i.platName] i.os n2 n3 h2 (by simp [flat]; omega)
  have g3 := hstr [i.platName, i.os] i.arch n3 n4 h3 (by simp [flat]; omega)
  have g4 := hstr [i.platName, i.os, i.arch] i.cpu n4 n5 h4 (by simp [flat]; omega)
  have g5 := hstr [i.platName, i.os, i.arch, i.cpu] i.gpu n5 n h5 (by simp [flat]; omega)
  exact (bind_of_ok g1 _).trans ((bind_of_ok g2 _).trans ((bind_of_ok g3 _).trans
    ((bind_of_ok g4 _).trans g5)))

/-- The local entry is written into the zeroed buffer. -/
lemma nodeInitEntry_spec {w base : ℕ} {H : List Byte} {e : BitVec w} (h : Site base H e)
    (E : Endian) (i : LocalInfo) :
    nodeInitEntry E ⟨base, H ++ zeros 4096⟩ e i.toLocalFields
      = .ok (Site.draft base H E i.name somever i.entry.length i.uuid.1.toNat i.uuid.2.toNat
          i.cap.toNat i.memSz.toNat (flat i.strs ++ zeros (4096 - i.used))) := by
  have hfits := i.used_le
  have hused : i.used = (blank i.name somever).length + (flat i.strs).length := rfl
  have hver : (blank i.name somever).length + ((flat i.strs).length + (4096 - i.used)) = 4096 := by
    omega
  have hver' : (blank i.name somever).length
      + (zeros ((flat i.strs).length + (4096 - i.used))).length = 4096 := by
    rwa [List.length_replicate]
  obtain ⟨n0, h0⟩ : ∃ n0, (blank i.name emptyStr).length + n0 = 4096 := by
    have := blank_length_le i.name
    exact ⟨4096 - (blank i.name emptyStr).length, by omega⟩
  have h0' : (blank i.name emptyStr).length + (zeros n0).length = 4096 := by
    rwa [List.length_replicate]
  have hnum : (entryNumIp e).toNat = base + H.length + 2 := by
    rw [h.header]
    exact h.toNat_off (show 2 ≤ 4096 by norm_num)
  have hdist : (entryDistanceFromMe e).toNat = base + H.length + 3 := by
    rw [h.header]
    exact h.toNat_off (show 3 ≤ 4096 by norm_num)
  have hend : (blank i.name somever).length + (flat i.strs ++ zeros (4096 - i.used)).length
      = 4096 := by
    rwa [List.length_append, List.length_replicate]
  have hstrs : i.strs = [i.platName, i.os, i.arch, i.cpu] ++ [i.gpu] := rfl
  have hfit : i.used + pad 8 i.used ≤ 4096 := i.fields_length ▸ i.fits
  have hcalc : entryCalcSize (Site.draft base H E i.name somever 0 i.uuid.1.toNat i.uuid.2.toNat
      i.cap.toNat i.memSz.toNat (flat i.strs ++ zeros (4096 - i.used))) e
      = .ok (BitVec.ofNat 16 i.entry.length) := by
    have hseat : Seat base H (flat i.strs ++ zeros (4096 - i.used)) e (blank i.name somever)
        (blankPayload E 0 i.uuid.1.toNat i.uuid.2.toNat i.cap.toNat i.memSz.toNat) := h.seat hend
    have hroom := h.room
    have he : 8 ∣ e.toNat := h.addr ▸ dvd_add h.dvd (by norm_num)
    have hsite := h.header
    rw [i.entry_length]
    rw [hstrs] at hseat ⊢
    exact entryCalcSize_spec hseat rfl he (by rw [hused, hstrs]) (by omega)
  rw [nodeInitEntry, store_zero hnum (by norm_num), ok_bind, store_zero hdist (by norm_num),
    ok_bind, h.storeName (E := E) h0, ok_bind, h.storeUuid0 h0', ok_bind, h.storeUuid1 h0', ok_bind,
    h.storeVer h0 hver, ok_bind, h.storeCap hver', ok_bind, h.storeMemsz hver', ok_bind,
    nodeInitStrings_spec i.toLocalFields (h.seat hver'), ok_bind, hcalc, ok_bind,
    h.storeSize hend, toNat_ofNat_of_lt i.entry.length_lt]

/-- The filled buffer, with `len` as its header says. -/
def LocalInfo.buffer (i : LocalInfo) (base : ℕ) (E : Endian) (len : ℕ) : Block :=
  ⟨base, [] ++ E.encode 4 len ++ (E.encode 4 1
    ++ (i.entry.bytes E ++ zeros (4096 - i.entry.length)))⟩

namespace LocalInfo

variable {base : ℕ} {E : Endian}

/-- When the entry is written the header is that of an empty list. -/
lemma draft_eq (i : LocalInfo) (base : ℕ) (E : Endian) :
    Site.draft base (listHeader E evrnetNodelistV1 0) E i.name somever i.entry.length
        i.uuid.1.toNat i.uuid.2.toNat i.cap.toNat i.memSz.toNat
        (flat i.strs ++ zeros (4096 - i.used))
      = i.buffer base E 8 := by
  have hlen := i.entry_length
  have hfits : i.entry.length ≤ 4096 := i.fits
  have hsplit : 4096 - i.used = pad 8 i.used + (4096 - i.entry.length) := by omega
  have hpay : i.entry.payload E = blankPayload E i.entry.length i.uuid.1.toNat i.uuid.2.toNat
      i.cap.toNat i.memSz.toNat := rfl
  have hbytes : i.entry.bytes E
      = (blank i.name somever).bytes (blankPayload E i.entry.length i.uuid.1.toNat i.uuid.2.toNat
          i.cap.toNat i.memSz.toNat) ++ (flat i.strs ++ zeros (pad 8 i.used)) := by
    rw [Entry.bytes, hpay]
    exact congrArg (fun s : Shape => s.bytes _ ++ _) i.fields_shape
  rw [buffer, hbytes, hsplit, zeros_add]
  simp [listHeader, evrnetNodelistV1]

/-- With the `len` of the entry it begins with the list of this entry. -/
lemma buffer_eq (i : LocalInfo) (base : ℕ) (E : Endian) :
    i.buffer base E (8 + i.entry.length)
      = ⟨base, listBytes E evrnetNodelistV1 [i.entry] ++ zeros (4096 - i.entry.length)⟩ := by
  simp [buffer, listBytes, listHeader, evrnetNodelistV1]

section

variable {w : ℕ} {nl : BitVec w}

lemma buffer_load_len (i : LocalInfo) (hnl : nl.toNat = base) :
    load32 E (i.buffer base E 8) (nlLen nl) = .ok (BitVec.ofNat 32 8) := by
  have hlen : (nlLen nl).toNat = base + ([] : List Byte).length := hnl
  rw [buffer, load32_has ((Block.has_mk base [] _ _).congr hlen) (E.encode_length 4 _),
    E.decode_encode (by norm_num)]

lemma buffer_load_size (i : LocalInfo)
    (hsite : Site base (listHeader E evrnetNodelistV1 0) (nlEntries nl)) :
    load16 E (i.buffer base E 8) (entrySize (nlEntries nl))
      = .ok (BitVec.ofNat 16 i.entry.length) := by
  have hroom := hsite.room
  have hfits : i.entry.length ≤ 4096 := i.fits
  have he : 8 ∣ (nlEntries nl).toNat := hsite.addr ▸ dvd_add hsite.dvd (by norm_num)
  have hsits : Sits E ⟨base, (E.encode 4 8 ++ E.encode 4 1) ++ i.entry.bytes E
      ++ zeros (4096 - i.entry.length)⟩ (nlEntries nl) i.entry := by
    refine sits_mk hsite.bits (by simp [hsite.addr]) (i.entry_wellFormed.sound.at he) ?_
    simp only [List.length_append, Endian.encode_length, List.length_replicate]
    omega
  rw [← hsits.load_size, buffer]
  simp

lemma buffer_store_len (i : LocalInfo) (hnl : nl.toNat = base) :
    store32 E (i.buffer base E 8) (nlLen nl) (BitVec.ofNat 32 (8 + i.entry.length))
      = .ok (i.buffer base E (8 + i.entry.length)) := by
  have hfits : i.entry.length ≤ 4096 := i.fits
  have hlen : (nlLen nl).toNat = base + ([] : List Byte).length := hnl
  rw [store32, toNat_ofNat_of_lt (show _ < 2 ^ 32 by omega)]
  exact Block.store_mk hlen (by rw [Endian.encode_length, Endian.encode_length])

/-- What is behind the list is given back. -/
lemma buffer_realloc (i : LocalInfo) {m : Malloc w} {k : ℕ} (hlim : 8 + i.entry.length ≤ m.limit) :
    m.realloc k (i.buffer base E (8 + i.entry.length)) (8 + i.entry.length)
      = some ⟨m.place k (8 + i.entry.length), listBytes E evrnetNodelistV1 [i.entry]⟩ := by
  have hlength : (listBytes E evrnetNodelistV1 [i.entry]).length = 8 + i.entry.length := by
    rw [listBytes_length, total_cons, total_nil]
    omega
  have hnone : 8 + i.entry.length
      - (listBytes E evrnetNodelistV1 [i.entry] ++ zeros (4096 - i.entry.length)).length = 0 := by
    rw [List.length_append]
    omega
  rw [Malloc.realloc, if_pos hlim, i.buffer_eq, Block.size_mk, hnone, List.range_zero, List.map_nil,
    List.append_nil, List.take_left' hlength]

end

/-- The one-entry list, wherever `realloc` puts it. -/
lemma holds (i : LocalInfo) {t : Target} {m : Malloc t.bits} {k : ℕ}
    (hlim : 8 + i.entry.length ≤ m.limit) :
    Holds t ⟨m.place k (8 + i.entry.length), listBytes t.endian evrnetNodelistV1 [i.entry]⟩
      evrnetNodelistV1
      [i.entry] := by
  have hlen : i.entry.length ≤ 4096 := i.fits
  refine ⟨rfl, ?_, m.place_pos _ _, m.place_dvd _ _, ?_, ?_⟩
  · intro e he
    exact List.mem_singleton.mp he ▸ i.entry_wellFormed.sound
  · rw [total_cons, total_nil]
    omega
  · rw [Block.size_mk, listBytes_length, total_cons, total_nil]
    exact m.place_lt _ _ hlim

end LocalInfo

/-- `NODE_Init` leaves the list with the local entry. -/
lemma nodeInit_spec (i : LocalInfo) (hlim : 8 + 4096 ≤ m.limit) :
    ∃ b, Holds t b evrnetNodelistV1 [i.entry]
      ∧ nodeInit t m k i.toLocalFields = .ok ⟨b, .unset, none, k + 2, []⟩ := by
  have hplace := m.place_lt k _ hlim
  have hdvd := m.place_dvd k (8 + 4096)
  have hlen : i.entry.length ≤ 4096 := i.fits
  have hlim' : 8 + i.entry.length ≤ m.limit := by omega
  obtain ⟨l, hl⟩ : ∃ l, l = (List.range (8 + 4096)).map (m.junk k) := ⟨_, rfl⟩
  have hl' : l.length = 8 + 4096 := by simp [hl]
  have hmalloc : m.malloc k (8 + 4096) = some ⟨m.place k (8 + 4096), l⟩ := by
    rw [Malloc.malloc, if_pos hlim, hl]
  generalize m.place k (8 + 4096) = base at *
  have hbase : (BitVec.ofNat t.bits base).toNat = base := toNat_ofNat_of_lt (by omega)
  have hsite : Site base (listHeader t.endian evrnetNodelistV1 0)
      (nlEntries (BitVec.ofNat t.bits base)) := by
    refine ⟨t.bits_eq, listHeader_length _ _ _, ?_, hdvd, hplace⟩
    have : (nlEntries (BitVec.ofNat t.bits base)).toNat = (BitVec.ofNat t.bits base).toNat + 8 :=
      toNat_add_ofNat (show (BitVec.ofNat t.bits base).toNat + 8 < 2 ^ t.bits by omega)
    rw [this, hbase]
  refine ⟨⟨m.place (k + 1) (8 + i.entry.length), _⟩, i.holds hlim', ?_⟩
  have hentry := nodeInitEntry_spec hsite t.endian i
  rw [i.draft_eq] at hentry
  obtain ⟨b1, h1, hrest⟩ := bind_eq_ok.mp (init_header (t := t) hl' hplace)
  obtain ⟨b2, h2, h3⟩ := bind_eq_ok.mp hrest
  rw [nodeInit, hmalloc]
  dsimp only
  rw [h1, ok_bind, h2, ok_bind, h3, ok_bind, hentry, ok_bind, i.buffer_load_len hbase, ok_bind,
    i.buffer_load_size hsite, ok_bind, len_add, i.buffer_store_len hbase, ok_bind,
    toNat_ofNat_of_lt (show 8 + i.entry.length < 2 ^ 32 by omega), i.buffer_realloc hlim']
  rfl

end

end EverythingNet
