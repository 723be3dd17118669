import Mathlib.Tactic
import EverythingNet.Node.Swapped
import EverythingNet.Net.Accepted

/-!
The list of an accepted message between `NODE_ListToNative` and `NODE_CheckForNewNodes`, on a
little-endian build.

* `Passed.exists_header`: what the checks say about the bytes of a message. `AtLoop`: the message where
  the loop of `NODE_ListToNative` starts. `AtLoop.bound_iff`: the end of its list does not wrap if 32
  bytes were received, and only then.
* `Converts`: a datagram is taken for a message and its list is converted.
* `SwappedOnce`: every entry that the node looks at has been converted, and only once.
* `converts_packet`: a packet of sound entries is converted without passing an entry of one byte.
* `walkers_agree_iff`: when the walks of the code come to the same entries.
-/

namespace EverythingNet

open CMem KeyedLog

/-! ### The header of the list -/

section

variable {w : ℕ} {nl : BitVec w} {base : ℕ} {pre a v post : List Byte}

/-- `NODE_ListToNative` up to its loop. -/
def swapListHeader (b : Block) (nl : BitVec w) : Except Halt Block := do
  let b ← update32 b (nlVersion nl) (beToHost32 .le)
  update32 b (nlLen nl) (beToHost32 .le)

lemma nodeListToNative_le (k : ℕ) (b : Block) (nl : BitVec w) :
    nodeListToNative .le k b nl
      = swapListHeader b nl >>= fun b => iter (nodeListToNativeStep nl) k (b, nlEntries nl) := by
  rw [nodeListToNative, swapListHeader, bind_assoc]

lemma swapListHeader_mk (hnl : nl.toNat = base + pre.length) (hroom : nl.toNat + 8 < 2 ^ w)
    (ha : a.length = 4) (hv : v.length = 4) :
    swapListHeader ⟨base, pre ++ (a ++ (v ++ post))⟩ nl
      = .ok ⟨base, pre ++ (a.reverse ++ (v.reverse ++ post))⟩ := by
  have hver := @update32_mk _ base (pre ++ a) v post (nlVersion nl)
    (by rw [nlVersion, List.length_append, ha, ← add_assoc, ← hnl]
        exact toNat_add_ofNat (k := 4) (by omega)) hv
  have hlen := @update32_mk _ base pre a (v.reverse ++ post) (nlLen nl) hnl ha
  simp only [List.append_assoc] at hver hlen
  rw [swapListHeader, hver, ok_bind, hlen]

/-- The `len` that is left when the header is swapped. -/
lemma nlBody_swapped (hnl : nl.toNat = base + pre.length) (ha : a.length = 4) :
    nlBody .le ⟨base, pre ++ (a.reverse ++ post)⟩ nl
      = .ok ((BitVec.ofNat 32 (Endian.be.decode a)).setWidth w - 8) := by
  have hhas := Block.has_mk base pre a.reverse post
  rw [List.append_assoc] at hhas
  exact nlBody_has (hhas.congr hnl) (by rw [List.length_reverse, ha])

end

/-! ### What the checks say about a message -/

/-- `&msg->nodeList`. -/
abbrev msgList (t : Target) (msg : Block) : BitVec t.bits := msgNodeList (BitVec.ofNat t.bits msg.base)

section

variable {t : Target} {d : List Byte} {msg : Block}

/-- A message is a header and a list, whose `len` fits the received bytes in the arithmetic of the
check. -/
lemma Passed.exists_header (h : Passed t d msg) :
    ∃ (p : Packet) (a v r : List Byte), msg.bytes = p.hdr .be ++ (a ++ (v ++ r))
      ∧ a.length = 4 ∧ v.length = 4
      ∧ (Endian.be.decode a + 24) % 2 ^ t.bits = (d.take t.bufSize).length := by
  obtain ⟨hmagic, hlen⟩ := h.shows
  have hsize := h.buffer.size
  have hge := t.bufSize_ge
  obtain ⟨base, bytes⟩ := msg
  rw [Block.size_mk] at hsize
  dsimp only at hmagic hlen ⊢
  obtain ⟨m, r, rfl, hm⟩ := exists_append (l := bytes) (n := 4) (by omega)
  obtain ⟨c, r, rfl, hc⟩ := exists_append (l := r) (n := 4) (by
    rw [List.length_append] at hsize; omega)
  obtain ⟨x, r, rfl, hx⟩ := exists_append (l := r) (n := 8) (by
    simp only [List.length_append] at hsize; omega)
  obtain ⟨y, r, rfl, hy⟩ := exists_append (l := r) (n := 8) (by
    simp only [List.length_append] at hsize; omega)
  obtain ⟨a, r, rfl, ha⟩ := exists_append (l := r) (n := 4) (by
    simp only [List.length_append] at hsize; omega)
  obtain ⟨v, r, rfl, hv⟩ := exists_append (l := r) (n := 4) (by
    simp only [List.length_append] at hsize; omega)
  refine ⟨⟨(BitVec.ofNat 64 (Endian.be.decode x), BitVec.ofNat 64 (Endian.be.decode y)),
    BitVec.ofNat 32 (Endian.be.decode c), 0, []⟩, a, v, r, ?_, ha, hv, ?_⟩
  · rw [List.take_left' hm] at hmagic
    have hm' : Endian.be.encode 4 evrnetBcastMagic.toNat = m := by
      rw [← hmagic, ← hm, Endian.encode_decode]
    simp only [Packet.hdr, hm', Endian.encode_ofNat_decode _ hc (by norm_num : 2 ^ 32 = 256 ^ 4),
      Endian.encode_ofNat_decode _ hx (by norm_num : 2 ^ 64 = 256 ^ 8),
      Endian.encode_ofNat_decode _ hy (by norm_num : 2 ^ 64 = 256 ^ 8), List.append_assoc]
  · have hpre : (m ++ (c ++ (x ++ y))).length = 24 := by
      simp only [List.length_append, hm, hc, hx, hy]
    have hdrop : ((m ++ (c ++ (x ++ (y ++ (a ++ (v ++ r)))))).drop 24).take 4 = a := by
      have hrest : ((m ++ (c ++ (x ++ y))) ++ (a ++ (v ++ r))).drop 24 = a ++ (v ++ r) :=
        List.drop_left' hpre
      simp only [List.append_assoc] at hrest
      rw [hrest, List.take_left' ha]
    rwa [hdrop] at hlen

/-- The message behind the conversions of its two headers, with the `len` that the check has seen. -/
structure AtLoop (t : Target) (d : List Byte) (msg msg₂ : Block) : Prop where
  buffer : Buffer t msg₂
  base : msg₂.base = msg.base
  len : ∃ len : U32, nlBody .le msg₂ (msgList t msg) = .ok (len.setWidth t.bits - 8)
    ∧ (len.toNat + 24) % 2 ^ t.bits = (d.take t.bufSize).length

/-- Both headers of an accepted message are converted. -/
lemma Passed.swap (h : Passed t d msg) (hE : t.endian = .le) :
    ∃ msg₁ msg₂, netSwapHeader t msg = .ok msg₁ ∧ swapListHeader msg₁ (msgList t msg) = .ok msg₂
      ∧ AtLoop t d msg msg₂ := by
  obtain ⟨p, a, v, r, hbytes, ha, hv, hlen⟩ := h.exists_header
  have hbuf := h.buffer
  have hsize := hbuf.size
  have hroom := hbuf.room
  have hge := t.bufSize_ge
  obtain ⟨base, bytes⟩ := msg
  dsimp only at hbytes
  subst hbytes
  simp only [Block.size_mk, List.length_append, Packet.hdr_length, ha, hv] at hsize hroom
  have hnl : (msgNodeList (BitVec.ofNat t.bits base)).toNat = base + (p.hdr .le).length := by
    rw [Packet.hdr_length]
    exact toNat_msg_add (by omega) le_rfl
  have hheader := @netSwapHeader_spec t base p (a ++ (v ++ r)) (by omega)
  rw [hE] at hheader
  refine ⟨_, _, hheader, swapListHeader_mk hnl (by rw [hnl, Packet.hdr_length]; omega) ha hv,
    ⟨?_, hbuf.dvd, ?_⟩, rfl, _, nlBody_swapped hnl ha, ?_⟩
  · simp only [Block.size_mk, List.length_append, List.length_reverse, Packet.hdr_length, ha, hv]
    omega
  · simp only [Block.size_mk, List.length_append, List.length_reverse, Packet.hdr_length, ha, hv]
    omega
  · have hlt := Endian.be.decode_lt a
    rw [ha] at hlt
    rwa [toNat_ofNat_of_lt (by omega)]

namespace AtLoop

variable {msg₂ : Block}

/-- The end of the list does not wrap if a whole header was received, and only then. -/
lemma bound_iff (h : AtLoop t d msg msg₂) :
    ∃ body, nlBody .le msg₂ (msgList t msg) = .ok body
      ∧ ((nlEntries (msgList t msg)).toNat + body.toNat < 2 ^ t.bits
        ↔ 32 ≤ (d.take t.bufSize).length)
      ∧ (32 ≤ (d.take t.bufSize).length →
        ListIn msg₂ (msgList t msg) body) := by
  obtain ⟨hbuf, hbase, len, hbody, hlen⟩ := h
  have hsize := hbuf.size
  have hroom := hbuf.room
  have hge := t.bufSize_ge
  have hlt := t.bufSize_lt
  have hpow := t.pow_bits_ge
  have hle := List.length_take_le t.bufSize d
  have hlen' := len.isLt
  have hnl : (msgList t msg).toNat = msg.base + 24 :=
    toNat_msg_add (by omega) le_rfl
  have hbound : (nlEntries (msgList t msg)).toNat
      + (len.setWidth t.bits - 8).toNat < 2 ^ t.bits ↔ 32 ≤ (d.take t.bufSize).length := by
    rw [bound_lt_iff t.bits_eq (by omega), hnl]
    -- a `len` that wraps in the check is larger than what is left of the address space
    clear hbody hnl
    rcases t.bits_eq with hb | hb
    · rw [hb] at hroom hlen hpow ⊢
      omega
    · rw [hb] at hroom hlen hpow ⊢
      omega
  refine ⟨_, hbody, hbound, fun h32 => ?_⟩
  exact ⟨t.bits_eq, hroom, by omega, by omega, by omega, hbody, hbound.mpr h32⟩

/-- If the end of the list wraps, the walks do not even begin with the same entry. -/
lemma step_out (h : AtLoop t d msg msg₂) (h32 : ¬ 32 ≤ (d.take t.bufSize).length) :
    nodeListToNativeStep (msgList t msg) (msg₂, nlEntries (msgList t msg)) = .ok (.inr msg₂)
      ∧ offsetTest .le msg₂ (msgList t msg) (nlEntries (msgList t msg)) = .ok true := by
  obtain ⟨body, hbody, hbound, -⟩ := h.bound_iff
  obtain ⟨hout, hin⟩ := tests_wrap (not_lt.mp (hbound.not.mpr h32))
  refine ⟨?_, (bind_of_ok hbody _).trans ?_⟩
  · rw [nodeListToNativeStep, hbody, ok_bind, if_neg hout]
    rfl
  · rw [decide_eq_true hin]
    rfl

end AtLoop

/-- The list of an accepted datagram is converted, on a little-endian build: `msg₁` is the message behind
the conversion of its own header, `msg₂` behind the one of the header of the list, and `msg'` is what
`NODE_ListToNative` leaves. -/
structure Converts (t : Target) (env : Env) (s : RecvState t.bits) (src : DiscoverySrc) (d : List Byte)
    (bcast mcast : List Arrival) (k : ℕ) (msg msg₁ msg₂ msg' : Block) : Prop where
  endian : t.endian = .le
  buffer : Buffer t s.msg
  takes : Takes t env s src d msg bcast mcast
  header : netSwapHeader t msg = .ok msg₁
  list : swapListHeader msg₁ (msgList t msg) = .ok msg₂
  native : nodeListToNative t.endian k msg₁ (msgList t msg) = .ok msg'

namespace Converts

variable {env : Env} {s : RecvState t.bits} {src : DiscoverySrc} {bcast mcast : List Arrival} {k : ℕ}
  {msg₁ msg₂ msg' : Block}

lemma loop (h : Converts t env s src d bcast mcast k msg msg₁ msg₂ msg') :
    iter (nodeListToNativeStep (msgList t msg)) k
      (msg₂, nlEntries (msgList t msg)) = .ok msg' := by
  have hnative := h.native
  rw [h.endian, nodeListToNative_le, h.list, ok_bind] at hnative
  exact hnative

lemma start (h : Converts t env s src d bcast mcast k msg msg₁ msg₂ msg') :
    AtLoop t d msg msg₂ := by
  obtain ⟨m₁, m₂, hheader, hlist, hrest⟩ := (h.takes.passed h.buffer).swap h.endian
  obtain rfl := Except.ok.inj (hheader.symm.trans h.header)
  obtain rfl := Except.ok.inj (hlist.symm.trans h.list)
  exact hrest

end Converts

/-- Every entry that `NODE_CheckForNewNodes` hands to `NODE_MaybeAddEntry` has been converted, and only
once. -/
def SwappedOnce (t : Target) (nl : BitVec t.bits) (k : ℕ) (msg₂ msg' : Block) : Prop :=
  ∀ (m : Malloc t.bits) (fuel n : ℕ) (st : NodeState t.bits),
    ∀ s ∈ visits (checkStep t m fuel msg' nl) n (st, nlEntries nl),
      ((visits (nodeListToNativeStep nl) k (msg₂, nlEntries nl)).map Prod.snd).count s.2 = 1

namespace Converts

variable {env : Env} {s : RecvState t.bits} {src : DiscoverySrc} {bcast mcast : List Arrival} {k : ℕ}
  {msg₁ msg₂ msg' : Block}

/-- If the walks go the same way, each entry is converted once. -/
lemma swappedOnce (h : Converts t env s src d bcast mcast k msg msg₁ msg₂ msg')
    (h32 : 32 ≤ (d.take t.bufSize).length)
    (hsame : SameWay (msgList t msg) msg₂
      (nlEntries (msgList t msg)) msg') :
    SwappedOnce t (msgList t msg) k msg₂ msg' := by
  intro m fuel n st q hq
  obtain ⟨body, -, -, hlist⟩ := h.start.bound_iff
  have hwalk := @checkStep_walk t m fuel msg' (msgList t msg) n (st, nlEntries (msgList t msg))
  rw [h.endian, hsame n] at hwalk
  have hmem := ((visits_final h.loop n).map Prod.snd).subset
    (hwalk.subset (List.mem_map_of_mem hq))
  exact List.count_eq_one_of_mem ((hlist h32).nodup (BitVec.le_refl _) h.loop k).2 hmem

/-- If the end of the list wraps, nothing is converted, and the other walk finds an entry. -/
lemma none_swapped (h : Converts t env s src d bcast mcast k msg msg₁ msg₂ msg')
    (h32 : ¬ 32 ≤ (d.take t.bufSize).length) :
    (∀ n, visits (nodeListToNativeStep (msgList t msg)) n (msg₂, nlEntries (msgList t msg)) = [])
      ∧ offsetTest .le msg' (msgList t msg) (nlEntries (msgList t msg)) = .ok true := by
  obtain ⟨hout, htest⟩ := h.start.step_out h32
  have hloop := h.loop
  cases k with
  | zero => simp at hloop
  | succ k =>
      rw [iter_inr hout] at hloop
      obtain rfl := Except.ok.inj hloop
      exact ⟨visits_eq_nil hout, htest⟩

lemma not_sameWay (h : Converts t env s src d bcast mcast k msg msg₁ msg₂ msg')
    (h32 : ¬ 32 ≤ (d.take t.bufSize).length) :
    ¬ SameWay (msgList t msg) msg₂ (nlEntries (msgList t msg)) msg' := by
  intro hsame
  obtain ⟨hnone, htest⟩ := h.none_swapped h32
  obtain ⟨l, hl⟩ := walk_entered (E := .le) (b := msg') htest 0
  have h1 := hsame 1
  rw [offsetWalk, hl, hnone] at h1
  simp at h1

/-- When the walks over the list of a message come to the same entries. -/
lemma agree_iff (h : Converts t env s src d bcast mcast k msg msg₁ msg₂ msg') :
    (SameWay (msgList t msg) msg₂
          (nlEntries (msgList t msg)) msg'
        ∧ SwappedOnce t (msgList t msg) k msg₂ msg')
      ↔ 32 ≤ (d.take t.bufSize).length
        ∧ ∀ n, ∀ s ∈ visits (nodeListToNativeStep (msgList t msg)) n
          (msg₂, nlEntries (msgList t msg)),
            ¬ Squeezed (msgList t msg) s := by
  obtain ⟨body, -, -, hlist⟩ := h.start.bound_iff
  by_cases h32 : 32 ≤ (d.take t.bufSize).length
  · have hiff := (hlist h32).sameWay (BitVec.le_refl _) h.loop
    rw [← hiff]
    exact ⟨fun hagree => ⟨h32, hagree.1⟩, fun hsame => ⟨hsame.2, h.swappedOnce h32 hsame.2⟩⟩
  · exact ⟨fun hagree => absurd hagree.1 (h.not_sameWay h32), fun hcond => absurd hcond.1 h32⟩

end Converts

end

/-! ### Packets of sound entries -/

section

variable {w : ℕ} {base : ℕ} {pre post : List Byte} {nl : BitVec w} {n : ℕ} {v : U32}

/-- The conversion of sound entries passes none of one byte. -/
lemma Frame.unsqueezed (h : Frame base pre post nl n) {es : List Entry} (hn : total es = n)
    (hlaid : Laid (nl.toNat + 8) es) (k : ℕ) :
    ∀ s ∈ visits (nodeListToNativeStep nl) k (midway base pre post v n .le [] es, nlEntries nl),
      ¬ Squeezed nl s := by
  have hroom := h.room
  have haddr := h.addr
  have key : ∀ (rs ds : List Entry) (q : BitVec w), es = ds ++ rs →
      q.toNat = nl.toNat + 8 + total ds → Laid q.toNat rs →
      ∀ k, ∀ s ∈ visits (nodeListToNativeStep nl) k (midway base pre post v n .le ds rs, q),
        ¬ Squeezed nl s := by
    intro rs
    induction rs with
    | nil =>
        intro ds q hes hq _ k s hs
        obtain rfl : es = ds := by simpa using hes
        have hnot : ¬ q < nlEntries nl + BitVec.ofNat w n := by
          rw [h.addr_lt hq]
          omega
        have hout : nodeListToNativeStep nl (midway base pre post v n .le es [], q)
            = .ok (.inr (midway base pre post v n .le es [])) := by
          rw [nodeListToNativeStep, midway, h.nlBody_mk, ok_bind, if_neg hnot, pure_eq_ok]
        rw [visits_eq_nil hout] at hs
        exact absurd hs List.not_mem_nil
    | cons e rs ih =>
        intro ds q hes hq hlaid k s hs
        have hsum : total ds + e.length + total rs = n := by
          rw [← hn, hes, total_append, total_cons, add_assoc]
        have hq' : (q + BitVec.ofNat w e.length).toNat = q.toNat + e.length :=
          toNat_add_ofNat (by omega)
        cases k with
        | zero => exact absurd hs List.not_mem_nil
        | succ k =>
            rw [visits_inl (h.nodeListToNativeStep_lt hsum hq hlaid.1)] at hs
            rcases List.mem_cons.mp hs with rfl | hs
            · rintro ⟨hone, -⟩
              obtain ⟨-, -, -, hsits⟩ := h.midway_convert (v := v) (A := .le) hsum hq hlaid.1
              rw [Endian.flip_le] at hsits
              have hsize := congrArg BitVec.toNat (Except.ok.inj (hsits.load_size.symm.trans hone))
              have hge := e.length_ge
              rw [toNat_ofNat_of_lt e.length_lt] at hsize
              have h1 : (1 : U16).toNat = 1 := rfl
              omega
            · refine ih (ds ++ [e]) _ (by simpa using hes) ?_ (hq'.symm ▸ hlaid.2) k s hs
              rw [hq', hq, total_append, total_cons, total_nil]
              omega
  exact key es [] _ rfl h.toNat_entries (h.toNat_entries.symm ▸ hlaid) k

end

/-- A packet of sound entries is converted, and meets the condition. -/
lemma converts_packet {t : Target} {msg : Block} {p : Packet} (hE : t.endian = .le)
    (hm : Buffer t msg) (node : NodeState t.bits) (hfit : p.Fits t) (hp : ∀ e ∈ p.entries, e.Sound)
    (bs : ℕ → Bool) (ms : Bool) {k : ℕ} (hk : p.entries.length < k) :
    ∃ msg' msg₁ msg₂ msg₃, Converts t (sockEnv 1 bs ms) (arrived msg node p.bytes) .broadcast p.bytes
        [] [] k msg' msg₁ msg₂ msg₃
      ∧ 32 ≤ (p.bytes.take t.bufSize).length
      ∧ ∀ n, ∀ s ∈ visits (nodeListToNativeStep (msgList t msg')) n
          (msg₂, nlEntries (msgList t msg')), ¬ Squeezed (msgList t msg') s := by
  have hvalid := Packet.valid hfit
  have htakes := takes_valid node hm hvalid bs ms
  have htaken := htakes.taken hm
  have hframed : Framed t p.bytes p :=
    ⟨Packet.take_bytes hfit, Laid.of_sound hp (by norm_num [sizeofBcastMsg])⟩
  obtain ⟨tail, hmsg⟩ := htaken.receives hframed
  have hsize := hmsg.buffer.size
  have hroom := hmsg.buffer.room
  have hlt := t.bufSize_lt
  have heq := hmsg.eq_mk
  have hlist : listHeader .be p.version (total p.entries) ++ (entriesBytes .be p.entries ++ tail)
      = listBytes .be p.version p.entries ++ tail := by
    rw [listBytes, List.append_assoc]
  rw [heq, Block.size_mk, List.length_append, List.length_append, Packet.hdr_length,
    listBytes_length] at hsize hroom
  dsimp only at hroom
  have hnl : (msgNodeList (BitVec.ofNat t.bits msg.base)).toNat = msg.base + 24 :=
    toNat_msg_add (by omega) le_rfl
  have hframe : Frame msg.base (p.hdr .le) tail (msgNodeList (BitVec.ofNat t.bits msg.base))
      (total p.entries) :=
    ⟨t.bits_eq, by rw [hnl, Packet.hdr_length], by omega, by rw [Packet.hdr_length]; omega⟩
  have hlaid : Laid ((msgNodeList (BitVec.ofNat t.bits msg.base)).toNat + 8) p.entries := by
    rw [hnl]
    exact hframed.laid_msg hm
  have hroom : msg.base + 24 < 2 ^ t.bits := by omega
  have hheader := netSwapHeader_spec (t := t) (d := p)
    (l := listBytes .be p.version p.entries ++ tail) hroom
  rw [← heq, hE] at hheader
  have hmid : Frame.midway msg.base (p.hdr .le) tail p.version (total p.entries) .le [] p.entries
      = ⟨msg.base, p.hdr .le ++ (listHeader Endian.be.flip p.version (total p.entries)
        ++ (entriesBytes .be p.entries ++ tail))⟩ := by
    simp [Frame.midway]
  have hswap := hframe.swap_header (E := .be) (v := p.version) (entriesBytes .be p.entries ++ tail)
  rw [hlist, ← hmid, ← swapListHeader] at hswap
  obtain ⟨msg₃, hnative⟩ : ∃ msg₃, nodeListToNative t.endian k
      ⟨msg.base, p.hdr .le ++ (listBytes .be p.version p.entries ++ tail)⟩
      (msgNodeList (BitVec.ofNat t.bits msg.base)) = .ok msg₃ :=
    ⟨_, hframe.nodeListToNative rfl hlaid hk⟩
  exact ⟨_, _, _, msg₃, ⟨hE, hm, htakes, hheader, hswap, hnative⟩, hvalid.1,
    hframe.unsqueezed rfl hlaid⟩

/-! ### The walks of the code -/

/-- The loops come to the entries of their walks, as far as they go on: the first loop of
`NODE_MaybeAddEntry` to those of the address-bounded one, its second loop and those of `NODE_ListToBE`
and `NODE_CheckForNewNodes` to those of the offset-bounded one. -/
def LoopsWalk (t : Target) : Prop :=
  (∀ msg b (nl e : BitVec t.bits) n q,
      visits (knownStep t.endian msg b e nl) n q <+: addressWalk t.endian b nl n q)
    ∧ (∀ b (nl : BitVec t.bits) n s,
      (visits (lastStep t.endian b nl) n s).map Prod.snd <+: offsetWalk t.endian b nl n s.2)
    ∧ (∀ b (nl : BitVec t.bits) n s,
      (visits (entryPtrsStep b nl) n s).map Prod.fst <+: offsetWalk .le b nl n s.1)
    ∧ ∀ (m : Malloc t.bits) fuel msg (nl : BitVec t.bits) n s,
      (visits (checkStep t m fuel msg nl) n s).map Prod.snd <+: offsetWalk t.endian msg nl n s.2

lemma loopsWalk (t : Target) : LoopsWalk t :=
  ⟨fun msg _ _ e n q => knownStep_walk msg e n q, fun _ _ n s => lastStep_walk n s,
    fun _ _ n s => entryPtrsStep_walk n s, fun _ _ _ _ n s => checkStep_walk n s⟩

/-- The two walks over a list come to the same entries just if neither its end nor an address at which
an entry starts wraps. What `NODE_CheckForNewNodes` looks at in a message has been converted, and only
once, just if a whole header was received and `NODE_ListToNative` passes no entry of one byte with
another one directly behind it. -/
theorem walkers_agree_iff (t : Target) :
    LoopsWalk t
      ∧ (∀ (b : Block) (nl : BitVec t.bits) (len : U32), load32 t.endian b (nlLen nl) = .ok len →
        nl.toNat + 8 < 2 ^ t.bits →
          ((∀ n, addressWalk t.endian b nl n (nlEntries nl)
              = offsetWalk t.endian b nl n (nlEntries nl))
            ↔ 8 ≤ len.toNat ∧ nl.toNat + len.toNat < 2 ^ t.bits
              ∧ ∀ e, Starts t.endian b nl len.toNat e → nlEntries nl ≤ e))
      ∧ ∀ env s src d bcast mcast k msg msg₁ msg₂ msg',
        Converts t env s src d bcast mcast k msg msg₁ msg₂ msg' →
          ((SameWay (msgList t msg) msg₂ (nlEntries (msgList t msg)) msg'
              ∧ SwappedOnce t (msgList t msg) k msg₂ msg')
            ↔ 32 ≤ (d.take t.bufSize).length
              ∧ ∀ n, ∀ s ∈ visits (nodeListToNativeStep (msgList t msg)) n
                (msg₂, nlEntries (msgList t msg)), ¬ Squeezed (msgList t msg) s) :=
  ⟨loopsWalk t, fun _ _ _ hlen hroom => walks_agree_iff t.bits_eq hlen hroom,
    fun _ _ _ _ _ _ _ _ _ _ _ h => h.agree_iff⟩

/-- The packet of a newcomer is walked over as it should be. -/
theorem walkers_agree_iff_greeting :
    ∃ st msg msg₁ msg₂ msg₃, netStart .linux64 .spread sampleInfo.toLocalFields = .ok st
      ∧ Converts .linux64 (sockEnv 1 (fun _ => true) true) (arrived st.msg st.node greeting.bytes)
        .broadcast greeting.bytes [] [] 2 msg msg₁ msg₂ msg₃
      ∧ SameWay (msgList .linux64 msg) msg₂ (nlEntries (msgList .linux64 msg)) msg₃
      ∧ SwappedOnce .linux64 (msgList .linux64 msg) 2 msg₂ msg₃ := by
  obtain ⟨st, hst, hK⟩ := sample_starts (P := fun _ => True) trivial
  obtain ⟨msg, msg₁, msg₂, msg₃, h, h32, hsq⟩ := converts_packet rfl hK.buffer st.node greeting_fits
    (fun e he => (wellFormed_of_mem_crowd he).sound) (fun _ => true) true
    (show greeting.entries.length < 2 by decide)
  obtain ⟨hsame, honce⟩ := ((walkers_agree_iff .linux64).2.2 _ _ _ _ _ _ _ _ _ _ _ h).mpr ⟨h32, hsq⟩
  exact ⟨st, msg, msg₁, msg₂, msg₃, hst, h, hsame, honce⟩

/-- A message that ends behind the `len` of its list: with 28 bytes, `len` is 4. -/
def stub : List Byte := stranger.hdr .be ++ Endian.be.encode 4 4

lemma stub_shows (old : List Byte) : Shows 64 (overlay stub old) stub.length := by
  refine ⟨?_, ?_⟩
  · rw [overlay_take (by decide)]
    decide
  · rw [overlay_drop_take (by decide)]
    decide

/-- Such a message is accepted, and `NODE_ListToNative` converts nothing in it. -/
lemma stub_converts :
    ∃ st msg msg₁ msg₂, netStart .linux64 .spread sampleInfo.toLocalFields = .ok st
      ∧ Converts .linux64 (sockEnv 1 (fun _ => true) true) (arrived st.msg st.node stub) .broadcast stub
        [] [] 1 msg msg₁ msg₂ msg₂ := by
  obtain ⟨st, hst, hK⟩ := sample_starts (P := fun _ => True) trivial
  have htake : stub.take Target.linux64.bufSize = stub := List.take_of_length_le (by decide)
  have htakes := takes_shows st.node hK.buffer (by rw [htake]; decide)
    (by rw [htake]; exact stub_shows _) (fun _ => true) true
  obtain ⟨msg₁, msg₂, hheader, hlist, hstart⟩ := (htakes.passed hK.buffer).swap rfl
  refine ⟨st, _, msg₁, msg₂, hst, rfl, hK.buffer, htakes, hheader, hlist, ?_⟩
  have hout := (hstart.step_out (by rw [htake]; decide)).1
  rw [show Target.linux64.endian = .le from rfl, nodeListToNative_le]
  exact (bind_of_ok hlist _).trans (iter_inr hout 0)

/-- In such a message nothing is converted, but the node looks at an entry. -/
theorem walkers_disagree :
    ∃ st msg msg₁ msg₂, netStart .linux64 .spread sampleInfo.toLocalFields = .ok st
      ∧ Converts .linux64 (sockEnv 1 (fun _ => true) true) (arrived st.msg st.node stub) .broadcast stub
        [] [] 1 msg msg₁ msg₂ msg₂
      ∧ ¬ SameWay (msgList .linux64 msg) msg₂ (nlEntries (msgList .linux64 msg)) msg₂
      ∧ ¬ SwappedOnce .linux64 (msgList .linux64 msg) 1 msg₂ msg₂ := by
  obtain ⟨st, msg, msg₁, msg₂, hst, h⟩ := stub_converts
  have h32 : ¬ 32 ≤ (stub.take Target.linux64.bufSize).length := by
    rw [List.take_of_length_le (by decide)]
    decide
  obtain ⟨hnone, htest⟩ := h.none_swapped h32
  refine ⟨st, msg, msg₁, msg₂, hst, h, h.not_sameWay h32, fun honce => ?_⟩
  have hentered : ∀ r, checkStep .linux64 .spread 0 msg₂ (msgList .linux64 msg)
      (st.node, nlEntries (msgList .linux64 msg)) ≠ .ok (.inr r) := by
    intro r hr
    obtain ⟨body, hbody, htest⟩ := bind_eq_ok.mp htest
    obtain ⟨body', hbody', hr⟩ := bind_eq_ok.mp hr
    obtain rfl := Except.ok.inj (hbody.symm.trans hbody')
    rw [if_pos (of_decide_eq_true (Except.ok.inj htest))] at hr
    obtain ⟨st', -, hr⟩ := bind_eq_ok.mp hr
    obtain ⟨e, -, hr⟩ := bind_eq_ok.mp hr
    simp at hr
  obtain ⟨l, hl⟩ := visits_entered hentered 0
  have hone := honce .spread 0 1 st.node _ (hl ▸ List.mem_cons_self ..)
  rw [hnone] at hone
  simp at hone

end EverythingNet
