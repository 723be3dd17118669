import Mathlib.Tactic
import EverythingNet.Node.Entry

/-!
`NODE_ListToBE` and `NODE_ListToNative` of `app/node.c`: the byte order of a node list.

* `nodeListToBE`, `nodeListToNative`: the code. Both are the identity on a big-endian build. The
  first collects the addresses of all entries before it converts any of them, the second converts
  each entry before it steps over it.
* `listBytes E v es`: the bytes of a node list of version `v` with the entries `es`.
  `Laid a es`: the paddings of all entries are those of entries laid one behind the other from
  address `a` on.
* `Frame`: where a list lies. Under it the two functions are computed, `Frame.nodeListToNative`
  and `Frame.nodeListToBE`: they change between the byte orders and do nothing else. The loops
  are followed entry by entry, `nodeListToNativeStep_lt`, `entryPtrsStep_lt` and `convert_entry`
  being the steps. `Frame.nodeListToBE_overflow`: the table has room for 512 entries only.
* `listRead`: the readings of the entries of a list, `Frame.listRead` computes it.
-/

namespace EverythingNet

open CMem

variable {w : ℕ}

/-! ### The code -/

/-- `nl->len - sizeof(nodeList_t)`. -/
def nlBody (E : Endian) (b : Block) (nl : BitVec w) : Except Halt (BitVec w) := do
  return (← load32 E b (nlLen nl)).setWidth w - 8

/-- A round of the loop of `NODE_ListToBE` that fills the table `entryPtrs` of 512 pointers. -/
def entryPtrsStep (b : Block) (nl : BitVec w) :
    BitVec w × List (BitVec w) → Except Halt ((BitVec w × List (BitVec w)) ⊕ List (BitVec w))
  | (e, entryPtrs) => do
    if e - nlEntries nl < (← nlBody .le b nl) then
      if entryPtrs.length < 512 then
        return .inl (← entryNext .le b e, entryPtrs ++ [e])
      else .error .outOfBounds
    else
      return .inr entryPtrs

/-- `NODE_ListToBE`, with its table as the `k`-th request to the allocator. -/
def nodeListToBE (t : Target) (m : Malloc t.bits) (k fuel : ℕ) (b : Block) (nl : BitVec t.bits) :
    Except Halt Block :=
  match t.endian with
  | .be => .ok b
  | .le =>
    match m.malloc k (t.bits / 8 * 512) with
    | none => .error (.exited 1)
    | some _ => do
      let entryPtrs ← iter (entryPtrsStep b nl) fuel (nlEntries nl, [])
      let b ← entryPtrs.foldlM nodeEntryToBE b
      let b ← update32 b (nlVersion nl) (beToHost32 .le)
      update32 b (nlLen nl) (beToHost32 .le)

/-- A round of the loop of `NODE_ListToNative`. -/
def nodeListToNativeStep (nl : BitVec w) :
    Block × BitVec w → Except Halt ((Block × BitVec w) ⊕ Block)
  | (b, e) => do
    if e < nlEntries nl + (← nlBody .le b nl) then
      let b ← nodeEntryToLE b e
      return .inl (b, ← entryNext .le b e)
    else
      return .inr b

/-- `NODE_ListToNative`. -/
def nodeListToNative (E : Endian) (fuel : ℕ) (b : Block) (nl : BitVec w) : Except Halt Block :=
  match E with
  | .be => .ok b
  | .le => do
    let b ← update32 b (nlVersion nl) (beToHost32 .le)
    let b ← update32 b (nlLen nl) (beToHost32 .le)
    iter (nodeListToNativeStep nl) fuel (b, nlEntries nl)

lemma nodeListToNative_steady (E : Endian) (b : Block) (nl : BitVec w) :
    Steady fun fuel => nodeListToNative E fuel b nl := by
  cases E with
  | be => exact Steady.const _
  | le =>
      refine (Steady.const _).bind fun b => (Steady.const _).bind fun b => ?_
      exact Steady.loop _ _

lemma nodeListToBE_steady (t : Target) (m : Malloc t.bits) (k : ℕ) (b : Block)
    (nl : BitVec t.bits) : Steady fun fuel => nodeListToBE t m k fuel b nl := by
  unfold nodeListToBE
  cases t.endian with
  | be => exact Steady.const _
  | le =>
      cases m.malloc k (t.bits / 8 * 512) with
      | none => exact Steady.const _
      | some _ =>
          refine Steady.bind ?_ fun ptrs => Steady.const _
          exact Steady.loop _ _

/-- A round of a walk that reads the entries of a list. -/
def listReadStep (E : Endian) (b : Block) (nl : BitVec w) :
    BitVec w × List Reading → Except Halt ((BitVec w × List Reading) ⊕ List Reading)
  | (e, rs) => do
    if e - nlEntries nl < (← nlBody E b nl) then
      let r ← entryRead E b e
      return .inl (← entryNext E b e, rs ++ [r])
    else
      return .inr rs

/-- Read the entries of a list, going from one to the next as the walks of the code do. -/
def listRead (E : Endian) (fuel : ℕ) (b : Block) (nl : BitVec w) : Except Halt (List Reading) :=
  iter (listReadStep E b nl) fuel (nlEntries nl, [])

/-! ### Lists of entries -/

/-- The number of bytes of some entries. -/
def total (es : List Entry) : ℕ := (es.map fun e => e.length).sum

@[simp] lemma total_nil : total [] = 0 := rfl

@[simp] lemma total_cons (e : Entry) (es : List Entry) : total (e :: es) = e.length + total es := by
  simp [total]

@[simp] lemma total_append (es fs : List Entry) : total (es ++ fs) = total es + total fs := by
  simp [total]

/-- Entries of at least `n` bytes each. -/
lemma mul_length_le_total {n : ℕ} {es : List Entry} (h : ∀ e ∈ es, n ≤ e.length) :
    n * es.length ≤ total es := by
  induction es with
  | nil => simp
  | cons e es ih =>
      have he := h e (List.mem_cons_self ..)
      have hes := ih fun f hf => h f (List.mem_cons_of_mem e hf)
      rw [total_cons, List.length_cons, Nat.mul_succ]
      omega

lemma length_le_total (es : List Entry) : 30 * es.length ≤ total es :=
  mul_length_le_total fun e _ => e.length_ge

/-- Entries one behind the other. -/
def entriesBytes (E : Endian) (es : List Entry) : List Byte := es.flatMap (Entry.bytes E)

@[simp] lemma entriesBytes_nil (E : Endian) : entriesBytes E [] = [] := rfl

@[simp] lemma entriesBytes_cons (E : Endian) (e : Entry) (es : List Entry) :
    entriesBytes E (e :: es) = e.bytes E ++ entriesBytes E es := rfl

@[simp] lemma entriesBytes_append (E : Endian) (es fs : List Entry) :
    entriesBytes E (es ++ fs) = entriesBytes E es ++ entriesBytes E fs := List.flatMap_append

@[simp] lemma entriesBytes_length (E : Endian) (es : List Entry) :
    (entriesBytes E es).length = total es := by
  induction es with
  | nil => rfl
  | cons e es ih => rw [entriesBytes_cons, List.length_append, ih, Entry.bytes_length, total_cons]

/-- The fields `len` and `version` of a list with so many bytes of entries. -/
def listHeader (E : Endian) (v : U32) (n : ℕ) : List Byte := E.encode 4 (8 + n) ++ E.encode 4 v.toNat

@[simp] lemma listHeader_length (E : Endian) (v : U32) (n : ℕ) : (listHeader E v n).length = 8 := by
  simp [listHeader]

/-- A node list in memory. -/
def listBytes (E : Endian) (v : U32) (es : List Entry) : List Byte :=
  listHeader E v (total es) ++ entriesBytes E es

@[simp] lemma listBytes_length (E : Endian) (v : U32) (es : List Entry) :
    (listBytes E v es).length = 8 + total es := by
  simp [listBytes]

/-- The paddings are those of entries laid one behind the other from `a` on. -/
def Laid : ℕ → List Entry → Prop
  | _, [] => True
  | a, e :: es => e.At a ∧ Laid (a + e.length) es

lemma Laid.of_sound {es : List Entry} (h : ∀ e ∈ es, e.Sound) {a : ℕ} (ha : 8 ∣ a) : Laid a es := by
  induction es generalizing a with
  | nil => trivial
  | cons e es ih =>
      have he := h e (List.mem_cons_self ..)
      exact ⟨he.at ha, ih (fun f hf => h f (List.mem_cons_of_mem e hf)) (dvd_add ha he.dvd)⟩

/-- Entries one behind the other can be moved by multiples of 8. -/
lemma Laid.of_mod {es : List Entry} {a a' : ℕ} (h : Laid a es) (ha : a' % 8 = a % 8) :
    Laid a' es := by
  induction es generalizing a a' with
  | nil => trivial
  | cons e es ih => exact ⟨h.1.of_mod ha, ih h.2 (by omega)⟩

lemma dvd_total {es : List Entry} (h : ∀ e ∈ es, e.Sound) : 8 ∣ total es := by
  induction es with
  | nil => simp
  | cons e es ih =>
      rw [total_cons]
      exact dvd_add (h e (List.mem_cons_self ..)).dvd
        (ih fun f hf => h f (List.mem_cons_of_mem e hf))

lemma bytes_take (E : Endian) (e : Entry) : (e.bytes E).take 2 = E.encode 2 e.length := by
  rw [Entry.bytes]
  simp only [Shape.bytes, List.append_assoc, Entry.payload]
  exact List.take_left' (E.encode_length 2 _)

/-- Entries one behind the other are determined by their bytes. -/
lemma eq_of_entriesBytes {E : Endian} {es fs : List Entry} (hes : ∀ e ∈ es, e.Sound)
    (hfs : ∀ f ∈ fs, f.Sound) (h : entriesBytes E es = entriesBytes E fs) : es = fs := by
  induction es generalizing fs with
  | nil =>
      have hlen := congrArg List.length h
      rw [entriesBytes_length, entriesBytes_length, total_nil] at hlen
      have := length_le_total fs
      exact (List.length_eq_zero_iff.mp (by omega)).symm
  | cons e es ih =>
      cases fs with
      | nil =>
          have hlen := congrArg List.length h
          rw [entriesBytes_length, entriesBytes_length, total_nil, total_cons] at hlen
          have := e.length_ge
          omega
      | cons f fs =>
          rw [entriesBytes_cons, entriesBytes_cons] at h
          have hsize : e.length = f.length := by
            have h2 := congrArg (List.take 2) h
            have he := e.length_ge
            have hf := f.length_ge
            rw [List.take_append_of_le_length (by rw [Entry.bytes_length]; omega),
              List.take_append_of_le_length (by rw [Entry.bytes_length]; omega),
              bytes_take, bytes_take] at h2
            exact E.encode_injective e.length_lt f.length_lt h2
          obtain ⟨hef, hrest⟩ := List.append_inj h
            (by rw [Entry.bytes_length, Entry.bytes_length, hsize])
          rw [Entry.eq_of_bytes (hes e (List.mem_cons_self ..)) (hfs f (List.mem_cons_self ..)) hef,
            ih (fun g hg => hes g (List.mem_cons_of_mem e hg))
              (fun g hg => hfs g (List.mem_cons_of_mem f hg)) hrest]

lemma Laid.append {es fs : List Entry} {a : ℕ} (h : Laid a (es ++ fs)) :
    Laid a es ∧ Laid (a + total es) fs := by
  induction es generalizing a with
  | nil => exact ⟨trivial, by simpa using h⟩
  | cons e es ih =>
      obtain ⟨he, hes⟩ := h
      obtain ⟨h1, h2⟩ := ih hes
      refine ⟨⟨he, h1⟩, ?_⟩
      rwa [total_cons, ← add_assoc]

/-! ### Conversions -/

section

variable {base : ℕ} {pre post : List Byte} {q : BitVec w} {e : Entry} {E : Endian}

/-- An entry of either byte order in its place. -/
lemma seat_entry (hw : w = 32 ∨ w = 64) (hq : q.toNat = base + pre.length) (he : e.At q.toNat)
    (hroom : base + pre.length + e.length + post.length < 2 ^ w) :
    Seat base pre (e.rest ++ post) q e.shape (e.payload E) where
  bits := hw
  addr := hq
  fits := he.fits E
  room := by
    rw [Fields.length] at hroom
    rw [List.length_append]
    omega

/-- Both conversions of an entry change it between the byte orders. -/
lemma convert_entry (hw : w = 32 ∨ w = 64) (hq : q.toNat = base + pre.length) (he : e.At q.toNat)
    (hroom : base + pre.length + e.length + post.length < 2 ^ w) :
    nodeEntryToLE ⟨base, pre ++ e.bytes E ++ post⟩ q
        = .ok ⟨base, pre ++ e.bytes E.flip ++ post⟩
      ∧ nodeEntryToBE ⟨base, pre ++ e.bytes E ++ post⟩ q
        = .ok ⟨base, pre ++ e.bytes E.flip ++ post⟩ := by
  have hs := @seat_entry w base pre post q e E hw hq he hroom
  have hb : ∀ F : Endian, (⟨base, pre ++ e.bytes F ++ post⟩ : Block)
      = Seat.block base pre (e.rest ++ post) e.shape (e.payload F) := fun F => by
    simp [Entry.bytes]
  have hrev := e.payload_rev E
  rw [hb, hb, ← hrev]
  exact ⟨hs.nodeEntryToLE.1, hs.nodeEntryToBE.1⟩

/-- An entry that lies in a block given as a concatenation. -/
lemma sits_mk (hw : w = 32 ∨ w = 64) (hq : q.toNat = base + pre.length) (he : e.At q.toNat)
    (hroom : base + pre.length + e.length + post.length < 2 ^ w) :
    Sits E ⟨base, pre ++ e.bytes E ++ post⟩ q e where
  bits := hw
  has := hq ▸ Block.has_mk base pre (e.bytes E) post
  pads := he
  room := by
    simp only [Block.size_mk, List.length_append, Entry.bytes_length]
    omega

end

/-- The `len` of a node list, less its header. -/
lemma nlBody_has {b : Block} {nl : BitVec w} {E : Endian} {l : List Byte} (h : b.Has nl.toNat l)
    (hl : l.length = 4) : nlBody E b nl = .ok ((BitVec.ofNat 32 (E.decode l)).setWidth w - 8) := by
  have hload : load32 E b (nlLen nl) = .ok (BitVec.ofNat 32 (E.decode l)) := load32_has h hl
  rw [nlBody, hload, ok_bind, pure_eq_ok]

/-- A place for a node list with `n` bytes of entries at `nl`, between `pre` and `post`. -/
structure Frame (base : ℕ) (pre post : List Byte) (nl : BitVec w) (n : ℕ) : Prop where
  bits : w = 32 ∨ w = 64
  addr : nl.toNat = base + pre.length
  len_lt : 8 + n < 2 ^ 32
  room : base + pre.length + 8 + n + post.length < 2 ^ w

namespace Frame

variable {base : ℕ} {pre post : List Byte} {nl : BitVec w} {n : ℕ} {v : U32} {E : Endian}

lemma pow_ge (h : Frame base pre post nl n) : 2 ^ 32 ≤ 2 ^ w := by
  rcases h.bits with rfl | rfl <;> norm_num

lemma toNat_entries (h : Frame base pre post nl n) : (nlEntries nl).toNat = nl.toNat + 8 := by
  have := h.room
  have := h.addr
  exact toNat_add_ofNat (show nl.toNat + 8 < 2 ^ w by omega)

/-- `nl->len - sizeof(nodeList_t)` does not wrap. -/
lemma nlBody_mk (h : Frame base pre post nl n) (l : List Byte) :
    nlBody E ⟨base, pre ++ (listHeader E v n ++ l)⟩ nl = .ok (BitVec.ofNat w n) := by
  have hlt := h.len_lt
  have hpow := h.pow_ge
  have hhas : Block.Has ⟨base, pre ++ (listHeader E v n ++ l)⟩ nl.toNat (E.encode 4 (8 + n)) := by
    have := Block.has_mk base pre (E.encode 4 (8 + n)) (E.encode 4 v.toNat ++ l)
    rw [← h.addr] at this
    simpa [listHeader] using this
  rw [nlBody_has hhas (E.encode_length 4 _), E.decode_encode hlt]
  congr 1
  apply BitVec.eq_of_toNat_eq
  rw [BitVec.toNat_sub, BitVec.toNat_setWidth, toNat_ofNat_of_lt hlt,
    show (8 : BitVec w).toNat = 8 from toNat_ofNat_of_lt (show 8 < 2 ^ w by omega),
    BitVec.toNat_ofNat, Nat.mod_eq_of_lt (show 8 + n < 2 ^ w by omega)]
  have hsum : 2 ^ w - 8 + (8 + n) = 2 ^ w + n := by omega
  rw [hsum, Nat.add_mod_left]

/-- The offset-bounded test of the walks. -/
lemma offset_lt (h : Frame base pre post nl n) {q : BitVec w} {k : ℕ}
    (hq : q.toNat = nl.toNat + 8 + k) (hk : k ≤ n) :
    q - nlEntries nl < BitVec.ofNat w n ↔ k < n := by
  have hlt := h.len_lt
  have hpow := h.pow_ge
  have he := h.toNat_entries
  rw [BitVec.lt_def, BitVec.toNat_sub_of_le (by rw [BitVec.le_def]; omega),
    toNat_ofNat_of_lt (show n < 2 ^ w by omega), he, hq]
  omega

/-- The address-bounded test of the walks. -/
lemma addr_lt (h : Frame base pre post nl n) {q : BitVec w} {k : ℕ}
    (hq : q.toNat = nl.toNat + 8 + k) :
    q < nlEntries nl + BitVec.ofNat w n ↔ k < n := by
  have hroom := h.room
  have haddr := h.addr
  have he := h.toNat_entries
  rw [BitVec.lt_def, toNat_add_ofNat (by omega), he, hq]
  omega

/-- The list halfway through a conversion: the entries `ds` are in the byte order `A` already,
`rs` are not. -/
def midway (base : ℕ) (pre post : List Byte) (v : U32) (n : ℕ) (A : Endian) (ds rs : List Entry) :
    Block :=
  ⟨base, pre ++ (listHeader .le v n ++ (entriesBytes A ds ++ (entriesBytes A.flip rs ++ post)))⟩

section

variable {A : Endian} {ds rs : List Entry} {e : Entry} {q : BitVec w}

/-- The next entry is converted, and can be stepped over afterwards. -/
lemma midway_convert (h : Frame base pre post nl n) (hn : total ds + e.length + total rs = n)
    (hq : q.toNat = nl.toNat + 8 + total ds) (he : e.At q.toNat) :
    nodeEntryToLE (midway base pre post v n A ds (e :: rs)) q
        = .ok (midway base pre post v n A (ds ++ [e]) rs)
      ∧ nodeEntryToBE (midway base pre post v n A ds (e :: rs)) q
        = .ok (midway base pre post v n A (ds ++ [e]) rs)
      ∧ Sits A (midway base pre post v n A (ds ++ [e]) rs) q e
      ∧ Sits A.flip (midway base pre post v n A ds (e :: rs)) q e := by
  have hroom := h.room
  have haddr := h.addr
  have hb : midway base pre post v n A ds (e :: rs)
      = ⟨base, (pre ++ listHeader .le v n ++ entriesBytes A ds) ++ e.bytes A.flip
        ++ (entriesBytes A.flip rs ++ post)⟩ := by
    simp [midway]
  have hb' : midway base pre post v n A (ds ++ [e]) rs
      = ⟨base, (pre ++ listHeader .le v n ++ entriesBytes A ds) ++ e.bytes A
        ++ (entriesBytes A.flip rs ++ post)⟩ := by
    simp [midway]
  have hq' : q.toNat = base + (pre ++ listHeader .le v n ++ entriesBytes A ds).length := by
    simp only [List.length_append, listHeader_length, entriesBytes_length]
    omega
  have hroom' : base + (pre ++ listHeader .le v n ++ entriesBytes A ds).length + e.length
      + (entriesBytes A.flip rs ++ post).length < 2 ^ w := by
    simp only [List.length_append, listHeader_length, entriesBytes_length]
    omega
  obtain ⟨h1, h2⟩ := @convert_entry w base _ _ q e A.flip h.bits hq' he hroom'
  rw [Endian.flip_flip] at h1 h2
  rw [hb, hb']
  exact ⟨h1, h2, sits_mk h.bits hq' he hroom', sits_mk h.bits hq' he hroom'⟩

/-- A round of the loop of `NODE_ListToNative` inside the list. -/
lemma nodeListToNativeStep_lt (h : Frame base pre post nl n)
    (hn : total ds + e.length + total rs = n) (hq : q.toNat = nl.toNat + 8 + total ds)
    (he : e.At q.toNat) :
    nodeListToNativeStep nl (midway base pre post v n .le ds (e :: rs), q)
      = .ok (.inl (midway base pre post v n .le (ds ++ [e]) rs, q + BitVec.ofNat w e.length)) := by
  have hpos := e.length_ge
  obtain ⟨hc, -, hs, -⟩ := h.midway_convert (v := v) (A := .le) hn hq he
  rw [nodeListToNativeStep, midway, h.nlBody_mk, ok_bind, if_pos ((h.addr_lt hq).mpr (by omega)),
    ← midway, hc, ok_bind, hs.next, ok_bind, pure_eq_ok]

/-- The loop of `NODE_ListToNative`. -/
lemma nodeListToNative_loop (h : Frame base pre post nl n) {es : List Entry} (hn : total es = n)
    (hlaid : Laid (nl.toNat + 8) es) {k : ℕ} (hk : es.length < k) :
    iter (nodeListToNativeStep nl) k (midway base pre post v n .le [] es, nlEntries nl)
      = .ok (midway base pre post v n .le es []) := by
  have hroom := h.room
  have haddr := h.addr
  -- the entries `ds` behind the pointer are converted, the entries `rs` from it on are not
  let I : List Entry → Block × BitVec w → Prop := fun rs s =>
    ∃ ds, es = ds ++ rs ∧ s.1 = midway base pre post v n .le ds rs
      ∧ s.2.toNat = nl.toNat + 8 + total ds ∧ Laid s.2.toNat rs
  have hinit : I es (midway base pre post v n .le [] es, nlEntries nl) :=
    ⟨[], rfl, rfl, h.toNat_entries, h.toNat_entries.symm ▸ hlaid⟩
  suffices hloop : ∃ r, iter (nodeListToNativeStep nl) k
      (midway base pre post v n .le [] es, nlEntries nl) = .ok r
      ∧ r = midway base pre post v n .le es [] by
    obtain ⟨r, hr, rfl⟩ := hloop
    exact hr
  refine iter_list ?_ ?_ es _ k hinit hk
  · rintro e rs ⟨b, q⟩ ⟨ds, hes, rfl, hq, hlaid⟩
    dsimp only at hq hlaid
    rw [hes, total_append, total_cons] at hn
    have hq' : (q + BitVec.ofNat w e.length).toNat = q.toNat + e.length :=
      toNat_add_ofNat (by omega)
    refine Or.inl ⟨_, h.nodeListToNativeStep_lt (by omega) hq hlaid.1, ds ++ [e], ?_, rfl, ?_, ?_⟩
    · simpa using hes
    · rw [hq', hq, total_append, total_cons, total_nil]
      omega
    · exact hq'.symm ▸ hlaid.2
  · rintro ⟨b, q⟩ ⟨ds, hes, rfl, hq, -⟩
    rw [List.append_nil] at hes
    subst hes
    refine ⟨_, ?_, rfl⟩
    have hnot : ¬ q < nlEntries nl + BitVec.ofNat w n := by
      rw [h.addr_lt hq]
      omega
    rw [nodeListToNativeStep, midway, h.nlBody_mk, ok_bind, if_neg hnot, pure_eq_ok]

end

/-- The conversion of `version` and `len`. -/
lemma swap_header (h : Frame base pre post nl n) (l : List Byte) :
    (update32 ⟨base, pre ++ (listHeader E v n ++ l)⟩ (nlVersion nl) (beToHost32 .le)
        >>= fun b => update32 b (nlLen nl) (beToHost32 .le))
      = .ok ⟨base, pre ++ (listHeader E.flip v n ++ l)⟩ := by
  have hroom := h.room
  have haddr := h.addr
  have hb : (⟨base, pre ++ (listHeader E v n ++ l)⟩ : Block)
      = ⟨base, (pre ++ E.encode 4 (8 + n)) ++ E.encode 4 v.toNat ++ l⟩ := by
    simp [listHeader]
  have hmid : (⟨base, (pre ++ E.encode 4 (8 + n)) ++ (E.encode 4 v.toNat).reverse ++ l⟩ : Block)
      = ⟨base, pre ++ E.encode 4 (8 + n) ++ ((E.encode 4 v.toNat).reverse ++ l)⟩ := by
    simp
  have hb' : (⟨base, pre ++ (listHeader E.flip v n ++ l)⟩ : Block)
      = ⟨base, pre ++ (E.encode 4 (8 + n)).reverse ++ ((E.encode 4 v.toNat).reverse ++ l)⟩ := by
    simp [listHeader, Endian.encode_reverse]
  have hver : (nlVersion nl).toNat = base + (pre ++ E.encode 4 (8 + n)).length := by
    have : (nlVersion nl).toNat = nl.toNat + 4 :=
      toNat_add_ofNat (show nl.toNat + 4 < 2 ^ w by omega)
    rw [this, List.length_append, E.encode_length]
    omega
  have hlen : (nlLen nl).toNat = base + pre.length := haddr
  rw [hb, update32_mk hver (E.encode_length 4 _), ok_bind, hmid,
    update32_mk hlen (E.encode_length 4 _), hb']

/-- `NODE_ListToNative` turns the wire form of a list into the form of the host. -/
lemma nodeListToNative (h : Frame base pre post nl n) {es : List Entry} (hn : total es = n)
    (hlaid : Laid (nl.toNat + 8) es) {k : ℕ} (hk : es.length < k) :
    EverythingNet.nodeListToNative E k ⟨base, pre ++ (listBytes .be v es ++ post)⟩ nl
      = .ok ⟨base, pre ++ (listBytes E v es ++ post)⟩ := by
  cases E with
  | be => rfl
  | le =>
      have hb : (⟨base, pre ++ (listBytes .be v es ++ post)⟩ : Block)
          = ⟨base, pre ++ (listHeader .be v n ++ (entriesBytes .be es ++ post))⟩ := by
        simp [listBytes, hn]
      have hb' : (⟨base, pre ++ (listBytes .le v es ++ post)⟩ : Block)
          = midway base pre post v n .le es [] := by
        simp [midway, listBytes, hn]
      have hloop := h.nodeListToNative_loop (v := v) hn hlaid hk
      have hswap := h.swap_header (E := .be) (v := v) (entriesBytes .be es ++ post)
      have hmid : midway base pre post v n .le [] es
          = ⟨base, pre ++ (listHeader .le v n ++ (entriesBytes .be es ++ post))⟩ := by
        simp [midway]
      rw [EverythingNet.nodeListToNative, hb, ← bind_assoc, hswap, ok_bind, hb',
        Endian.flip_be, ← hmid, hloop]

/-- The addresses of entries one behind the other. -/
def ptrsFrom : BitVec w → List Entry → List (BitVec w)
  | _, [] => []
  | q, e :: es => q :: ptrsFrom (q + BitVec.ofNat w e.length) es

/-- An entry of a list in memory. -/
lemma sits_at (h : Frame base pre post nl n) {ds rs : List Entry} {e : Entry} {q : BitVec w}
    (hn : total (ds ++ e :: rs) = n) (hq : q.toNat = nl.toNat + 8 + total ds)
    (he : e.At q.toNat) :
    Sits E ⟨base, pre ++ (listBytes E v (ds ++ e :: rs) ++ post)⟩ q e := by
  have hroom := h.room
  have haddr := h.addr
  have hb : pre ++ (listBytes E v (ds ++ e :: rs) ++ post)
      = (pre ++ listHeader E v n ++ entriesBytes E ds) ++ e.bytes E
        ++ (entriesBytes E rs ++ post) := by
    simp [listBytes, ← hn]
  rw [total_append, total_cons] at hn
  rw [hb]
  refine sits_mk h.bits ?_ he ?_
  · simp only [List.length_append, listHeader_length, entriesBytes_length]
    omega
  · simp only [List.length_append, listHeader_length, entriesBytes_length]
    omega

/-- `nl->len - sizeof(nodeList_t)` is the number of bytes of the entries. -/
lemma nlBody_list (h : Frame base pre post nl n) {es : List Entry} (hn : total es = n) :
    nlBody E ⟨base, pre ++ (listBytes E v es ++ post)⟩ nl = .ok (BitVec.ofNat w n) := by
  have hb : pre ++ (listBytes E v es ++ post)
      = pre ++ (listHeader E v n ++ (entriesBytes E es ++ post)) := by
    simp [listBytes, hn]
  rw [hb, h.nlBody_mk]

/-- Reading a list gives what its entries say. -/
lemma listRead (h : Frame base pre post nl n) {es : List Entry} (hn : total es = n)
    (hlaid : Laid (nl.toNat + 8) es) (hc : ∀ e ∈ es, e.Complete) {k : ℕ} (hk : es.length < k) :
    EverythingNet.listRead E k ⟨base, pre ++ (listBytes E v es ++ post)⟩ nl
      = .ok (es.map Entry.reading) := by
  have hroom := h.room
  have haddr := h.addr
  let I : List Entry → BitVec w × List Reading → Prop := fun rs s =>
    ∃ ds, es = ds ++ rs ∧ s.2 = ds.map Entry.reading ∧ s.1.toNat = nl.toNat + 8 + total ds
      ∧ Laid s.1.toNat rs
  have hinit : I es (nlEntries nl, []) :=
    ⟨[], rfl, rfl, h.toNat_entries, h.toNat_entries.symm ▸ hlaid⟩
  suffices hloop : ∃ r, iter (listReadStep E ⟨base, pre ++ (listBytes E v es ++ post)⟩ nl) k
      (nlEntries nl, []) = .ok r ∧ r = es.map Entry.reading by
    obtain ⟨r, hr, rfl⟩ := hloop
    exact hr
  refine iter_list ?_ ?_ es _ k hinit hk
  · rintro e rs ⟨q, done⟩ ⟨ds, hes, rfl, hq, hlaid⟩
    dsimp only at hq hlaid
    have hsits := h.sits_at (E := E) (v := v) (hes ▸ hn) hq hlaid.1
    rw [← hes] at hsits
    have htot : total ds + (e.length + total rs) = n := by
      rw [← hn, hes, total_append, total_cons]
    have hpos := e.length_ge
    have hq' := hsits.toNat_next
    refine Or.inl ⟨(q + BitVec.ofNat w e.length, ds.map Entry.reading ++ [e.reading]), ?_,
      ds ++ [e], by simpa using hes, by simp, ?_, ?_⟩
    · rw [listReadStep, h.nlBody_list hn, ok_bind,
        if_pos ((h.offset_lt hq (by omega)).mpr (by omega)), hsits.read (hc e (by simp [hes])),
        ok_bind, hsits.next, ok_bind, pure_eq_ok]
    · rw [hq', hq, total_append, total_cons, total_nil]
      omega
    · exact hq'.symm ▸ hlaid.2
  · rintro ⟨q, done⟩ ⟨ds, hes, rfl, hq, -⟩
    rw [List.append_nil] at hes
    refine ⟨_, ?_, by rw [hes]⟩
    rw [← hes] at hq
    have hnot : ¬ q - nlEntries nl < BitVec.ofNat w n := by
      rw [h.offset_lt hq (by omega)]
      omega
    rw [listReadStep, h.nlBody_list hn, ok_bind, if_neg hnot, pure_eq_ok]

/-- A round of the loop that fills the table, inside the list. -/
lemma entryPtrsStep_lt (h : Frame base pre post nl n) {ds rs : List Entry} {e : Entry}
    {q : BitVec w} (hn : total (ds ++ e :: rs) = n) (hq : q.toNat = nl.toNat + 8 + total ds)
    (he : e.At q.toNat) (ptrs : List (BitVec w)) :
    entryPtrsStep ⟨base, pre ++ (listBytes .le v (ds ++ e :: rs) ++ post)⟩ nl (q, ptrs)
      = if ptrs.length < 512 then .ok (.inl (q + BitVec.ofNat w e.length, ptrs ++ [q]))
        else .error .outOfBounds := by
  have hsits := h.sits_at (E := .le) (v := v) hn hq he
  have hpos := e.length_ge
  have htot : total ds + (e.length + total rs) = n := by
    rw [← hn, total_append, total_cons]
  rw [entryPtrsStep, h.nlBody_list hn, ok_bind,
    if_pos ((h.offset_lt hq (by omega)).mpr (by omega)), hsits.next]
  rfl

/-- The loop of `NODE_ListToBE` that fills the table. -/
lemma entryPtrs_loop (h : Frame base pre post nl n) {es : List Entry} (hn : total es = n)
    (hlaid : Laid (nl.toNat + 8) es) {k : ℕ} (hk : es.length < k) (hcap : es.length ≤ 512) :
    iter (entryPtrsStep ⟨base, pre ++ (listBytes .le v es ++ post)⟩ nl) k (nlEntries nl, [])
      = .ok (ptrsFrom (nlEntries nl) es) := by
  have hroom := h.room
  have haddr := h.addr
  let I : List Entry → BitVec w × List (BitVec w) → Prop := fun rs s =>
    ∃ ds, es = ds ++ rs ∧ s.2 ++ ptrsFrom s.1 rs = ptrsFrom (nlEntries nl) es
      ∧ s.2.length = ds.length ∧ s.1.toNat = nl.toNat + 8 + total ds ∧ Laid s.1.toNat rs
  have hinit : I es (nlEntries nl, []) :=
    ⟨[], rfl, rfl, rfl, h.toNat_entries, h.toNat_entries.symm ▸ hlaid⟩
  suffices hloop : ∃ r, iter (entryPtrsStep ⟨base, pre ++ (listBytes .le v es ++ post)⟩ nl) k
      (nlEntries nl, []) = .ok r ∧ r = ptrsFrom (nlEntries nl) es by
    obtain ⟨r, hr, rfl⟩ := hloop
    exact hr
  refine iter_list ?_ ?_ es _ k hinit hk
  · rintro e rs ⟨q, ptrs⟩ ⟨ds, hes, hptrs, hlen, hq, hlaid⟩
    dsimp only at hlen hq hlaid
    have hstep := h.entryPtrsStep_lt (v := v) (hes ▸ hn) hq hlaid.1 ptrs
    rw [← hes] at hstep
    have hslot : ptrs.length < 512 := by
      rw [hes, List.length_append, List.length_cons] at hcap
      omega
    rw [if_pos hslot] at hstep
    have htot : total ds + (e.length + total rs) = n := by
      rw [← hn, hes, total_append, total_cons]
    have hq' : (q + BitVec.ofNat w e.length).toNat = q.toNat + e.length :=
      toNat_add_ofNat (by omega)
    refine Or.inl ⟨_, hstep, ds ++ [e], ?_, ?_, ?_, ?_, ?_⟩
    · simpa using hes
    · simpa [ptrsFrom] using hptrs
    · simpa using hlen
    · rw [hq', hq, total_append, total_cons, total_nil]
      omega
    · exact hq'.symm ▸ hlaid.2
  · rintro ⟨q, ptrs⟩ ⟨ds, hes, hptrs, -, hq, -⟩
    rw [List.append_nil] at hes
    refine ⟨ptrs, ?_, by simpa [ptrsFrom] using hptrs⟩
    rw [← hes] at hq
    have hnot : ¬ q - nlEntries nl < BitVec.ofNat w n := by
      rw [h.offset_lt hq (by omega)]
      omega
    rw [entryPtrsStep, h.nlBody_list hn, ok_bind, if_neg hnot, pure_eq_ok]

/-- More than 512 entries overflow the table. -/
lemma entryPtrs_overflow (h : Frame base pre post nl n) {es : List Entry} (hn : total es = n)
    (hlaid : Laid (nl.toNat + 8) es) {k : ℕ} (hk : es.length ≤ k) (hcap : 512 < es.length) :
    iter (entryPtrsStep ⟨base, pre ++ (listBytes .le v es ++ post)⟩ nl) k (nlEntries nl, [])
      = .error .outOfBounds := by
  have hroom := h.room
  have haddr := h.addr
  let I : List Entry → BitVec w × List (BitVec w) → Prop := fun rs s =>
    ∃ ds, es = ds ++ rs ∧ s.2.length = ds.length ∧ s.2.length ≤ 512
      ∧ s.1.toNat = nl.toNat + 8 + total ds ∧ Laid s.1.toNat rs
  have hinit : I es (nlEntries nl, []) :=
    ⟨[], rfl, rfl, by simp, h.toNat_entries, h.toNat_entries.symm ▸ hlaid⟩
  suffices hloop : ∃ x, iter (entryPtrsStep ⟨base, pre ++ (listBytes .le v es ++ post)⟩ nl) k
      (nlEntries nl, []) = .error x ∧ x = .outOfBounds by
    obtain ⟨x, hx, rfl⟩ := hloop
    exact hx
  refine iter_list_halt ?_ ?_ es _ k hinit hk
  · rintro e rs ⟨q, ptrs⟩ ⟨ds, hes, hlen, hle, hq, hlaid⟩
    dsimp only at hlen hle hq hlaid
    have hstep := h.entryPtrsStep_lt (v := v) (hes ▸ hn) hq hlaid.1 ptrs
    rw [← hes] at hstep
    have htot : total ds + (e.length + total rs) = n := by
      rw [← hn, hes, total_append, total_cons]
    have hq' : (q + BitVec.ofNat w e.length).toNat = q.toNat + e.length :=
      toNat_add_ofNat (by omega)
    by_cases hfull : ptrs.length < 512
    · rw [if_pos hfull] at hstep
      refine Or.inl ⟨_, hstep, ds ++ [e], by simpa using hes, by simpa using hlen, ?_, ?_, ?_⟩
      · simp only [List.length_append, List.length_singleton]
        omega
      · rw [hq', hq, total_append, total_cons, total_nil]
        omega
      · exact hq'.symm ▸ hlaid.2
    · rw [if_neg hfull] at hstep
      exact Or.inr ⟨_, hstep, rfl⟩
  · rintro ⟨q, ptrs⟩ ⟨ds, hes, hlen, hle, -⟩
    dsimp only at hlen hle
    rw [List.append_nil] at hes
    subst hes
    omega

/-- The loop of `NODE_ListToBE` over the table. -/
lemma nodeEntryToBE_foldlM (h : Frame base pre post nl n) (rs : List Entry) :
    ∀ (ds : List Entry) (q : BitVec w), total ds + total rs = n →
      q.toNat = nl.toNat + 8 + total ds → Laid q.toNat rs →
      (ptrsFrom q rs).foldlM nodeEntryToBE (midway base pre post v n .be ds rs)
        = .ok (midway base pre post v n .be (ds ++ rs) []) := by
  have hroom := h.room
  have haddr := h.addr
  induction rs with
  | nil =>
      intro ds q _ _ _
      rw [ptrsFrom, List.foldlM_nil, pure_eq_ok, List.append_nil]
  | cons e rs ih =>
      intro ds q hn hq hlaid
      rw [total_cons] at hn
      have hq' : (q + BitVec.ofNat w e.length).toNat = q.toNat + e.length :=
        toNat_add_ofNat (by omega)
      have hsum : total ds + e.length + total rs = n := by omega
      obtain ⟨-, hc, -⟩ := h.midway_convert (v := v) (A := .be) hsum hq hlaid.1
      rw [ptrsFrom, List.foldlM_cons, hc, ok_bind, ih (ds ++ [e]) _ (by simp; omega)
        (by rw [hq', hq]; simp; omega) (hq'.symm ▸ hlaid.2)]
      simp

/-- `NODE_ListToBE` turns a list of at most 512 entries into its wire form. -/
lemma nodeListToBE {t : Target} {m : Malloc t.bits} {nl : BitVec t.bits}
    (h : Frame base pre post nl n) {es : List Entry} (hn : total es = n)
    (hlaid : Laid (nl.toNat + 8) es) {j k : ℕ} (hk : es.length < k)
      (hcap : t.endian = .le → es.length ≤ 512)
    (hlim : t.bits / 8 * 512 ≤ m.limit) :
    EverythingNet.nodeListToBE t m j k ⟨base, pre ++ (listBytes t.endian v es ++ post)⟩ nl
      = .ok ⟨base, pre ++ (listBytes .be v es ++ post)⟩ := by
  rw [EverythingNet.nodeListToBE]
  cases hE : t.endian with
  | be => rfl
  | le =>
      have hb : (⟨base, pre ++ (listBytes .le v es ++ post)⟩ : Block)
          = midway base pre post v n .be [] es := by
        simp [midway, listBytes, hn]
      have hb' : (⟨base, pre ++ (listBytes .be v es ++ post)⟩ : Block)
          = ⟨base, pre ++ (listHeader .be v n ++ (entriesBytes .be es ++ post))⟩ := by
        simp [listBytes, hn]
      have hent := h.toNat_entries
      have hptrs := h.entryPtrs_loop (v := v) hn hlaid hk (hcap hE)
      have hfold := h.nodeEntryToBE_foldlM (v := v) es [] (nlEntries nl) (by simpa using hn)
        (by simpa using hent) (hent.symm ▸ hlaid)
      have hswap := h.swap_header (E := .le) (v := v) (entriesBytes .be es ++ post)
      rw [List.nil_append] at hfold
      have hmid : midway base pre post v n .be es []
          = ⟨base, pre ++ (listHeader .le v n ++ (entriesBytes .be es ++ post))⟩ := by
        simp [midway]
      simp only [Malloc.malloc, if_pos hlim]
      rw [hptrs, ok_bind, hb, hfold, ok_bind, hmid, hswap, hb', Endian.flip_le]

/-- On a little-endian build a list of more than 512 entries overflows the table. -/
lemma nodeListToBE_overflow {t : Target} {m : Malloc t.bits} {nl : BitVec t.bits}
    (h : Frame base pre post nl n) {es : List Entry} (hn : total es = n)
    (hlaid : Laid (nl.toNat + 8) es) {j k : ℕ} (hk : es.length ≤ k) (hcap : 512 < es.length)
    (hle : t.endian = .le) (hlim : t.bits / 8 * 512 ≤ m.limit) :
    EverythingNet.nodeListToBE t m j k ⟨base, pre ++ (listBytes .le v es ++ post)⟩ nl
      = .error .outOfBounds := by
  rw [EverythingNet.nodeListToBE, hle]
  simp only [Malloc.malloc, if_pos hlim]
  rw [h.entryPtrs_overflow hn hlaid hk hcap, error_bind]

end Frame

end EverythingNet
