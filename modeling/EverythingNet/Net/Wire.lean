import Mathlib.Tactic
import EverythingNet.Node.Merge
import EverythingNet.Net.Handle

/-!
Packets: what a node broadcasts and what becomes of it at the other end.

* `Packet`: a message as a value, `Packet.bytes` its bytes on the wire. `Packet.valid`: a packet
  that fits the buffer is a well-formed datagram, so both checks accept it.
* `netSwapHeader_spec`, `netHandleMsg_own`, `netHandleMsg_other`: the receiver. A packet of its own
  changes nothing, a packet of another node is merged. `netHandleMsg_self` and `netHandleMsg_walk` say
  the same of a header with any bytes behind it.
* `sentOf`: what a transmission of some bytes puts on the sockets, up to the first interface that
  fails. `bcastSendLoop_reached`: the sending loop does that.
* `Sendable`: the capacities of the sender. `netSend_spec`: a sender within them sends the packet
  with its list.
* `cross_endian`: the wire form depends on the list only, and every receiver reads what the sender
  has.
-/

namespace EverythingNet

open CMem KeyedLog

/-! ### Packets -/

/-- A message: the UUID of its sender and a node list. -/
structure Packet where
  uuid : U64 × U64
  crc : U32
  version : U32
  entries : List Entry

namespace Packet

/-- The header. -/
def hdr (E : Endian) (d : Packet) : List Byte :=
  E.encode 4 evrnetBcastMagic.toNat ++ E.encode 4 d.crc.toNat ++ E.encode 8 d.uuid.1.toNat
    ++ E.encode 8 d.uuid.2.toNat

/-- The datagram. -/
def bytes (d : Packet) : List Byte := d.hdr .be ++ listBytes .be d.version d.entries

/-- The datagram fits the message buffer. -/
def Fits (t : Target) (d : Packet) : Prop := 32 + total d.entries ≤ t.bufSize

/-- The entries are well-formed. -/
def WellFormed (d : Packet) : Prop := ∀ e ∈ d.entries, e.WellFormed

variable {t : Target} {d : Packet}

@[simp] lemma hdr_length (E : Endian) (d : Packet) : (d.hdr E).length = 24 := by
  simp [hdr]

@[simp] lemma bytes_length (d : Packet) : d.bytes.length = 32 + total d.entries := by
  rw [bytes, List.length_append, hdr_length, listBytes_length]
  omega

lemma take_bytes (h : d.Fits t) : d.bytes.take t.bufSize = d.bytes :=
  List.take_of_length_le (by rw [bytes_length]; exact h)

lemma len_lt (h : d.Fits t) : 8 + total d.entries < 2 ^ 32 := by
  have := t.bufSize_lt
  rw [Fits] at h
  omega

/-- A header with the right `len` makes a well-formed datagram, whatever comes behind it. -/
lemma header_valid (d : Packet) (v : U32) {n : ℕ} {l : List Byte} (hl : l.length = n)
    (hfit : 32 + n ≤ t.bufSize) : Valid t (d.hdr .be ++ (listHeader .be v n ++ l)) := by
  have hlt := t.bufSize_lt
  have hlen : (d.hdr .be ++ (listHeader .be v n ++ l)).length = 32 + n := by
    simp only [List.length_append, hdr_length, listHeader_length, hl]
    omega
  rw [Valid, List.take_of_length_le (by omega : _ ≤ t.bufSize), hlen]
  refine ⟨by omega, ?_, ?_⟩
  · have htake : (d.hdr .be ++ (listHeader .be v n ++ l)).take 4
        = Endian.be.encode 4 evrnetBcastMagic.toNat := by
      simp only [hdr, List.append_assoc]
      exact List.take_left' (Endian.encode_length _ _ _)
    rw [htake, Endian.decode_encode _ evrnetBcastMagic.isLt]
  · have hdrop : ((d.hdr .be ++ (listHeader .be v n ++ l)).drop 24).take 4
      = Endian.be.encode 4 (8 + n) := by
      rw [List.drop_left' (hdr_length .be d), listHeader, List.append_assoc]
      exact List.take_left' (Endian.encode_length _ _ _)
    rw [hdrop, Endian.decode_encode _ (show 8 + n < 256 ^ 4 by omega)]
    omega

/-- A packet that fits is a well-formed datagram. -/
lemma valid (h : d.Fits t) : Valid t d.bytes :=
  header_valid d d.version (entriesBytes_length .be d.entries) h

/-- The checks accept it, whatever the buffer held before. -/
lemma shows (h : d.Fits t) (old : List Byte) :
    Shows t.bits (overlay d.bytes old) d.bytes.length := by
  have hlen : 32 ≤ (d.bytes.take t.bufSize).length := by
    rw [take_bytes h, bytes_length]
    omega
  have hshows : Shows t.bits (overlay (d.bytes.take t.bufSize) old)
      (d.bytes.take t.bufSize).length := (shows_iff_valid hlen).mpr (valid h)
  rwa [take_bytes h] at hshows

lemma bytes_ne_nil (d : Packet) : d.bytes ≠ [] := by
  intro h
  have := congrArg List.length h
  rw [bytes_length, List.length_nil] at this
  omega

end Packet

/-! ### The header of a received packet -/

section

variable {w base : ℕ} {pre post : List Byte} {q : BitVec w} {v : ℕ}

/-- `E_BEToHost_32` on a field of the header. -/
lemma convert32_mk (E : Endian) (hq : q.toNat = base + pre.length) (hv : v < 256 ^ 4) :
    convert32 E ⟨base, pre ++ Endian.be.encode 4 v ++ post⟩ q
      = .ok ⟨base, pre ++ E.encode 4 v ++ post⟩ := by
  have hlen : (Endian.be.encode 4 v).length = 4 := Endian.encode_length _ _ _
  have hx : (beToHost32 E (BitVec.ofNat 32 (E.decode (Endian.be.encode 4 v)))).toNat = v := by
    rw [beToHost32_decode E hlen, Endian.decode_encode _ hv]
  rw [convert32, load32_has (hq ▸ Block.has_mk base pre _ post) hlen, ok_bind, store32, hx]
  exact Block.store_mk hq (by rw [Endian.encode_length, Endian.encode_length])

/-- `E_BEToHost_64` on a field of the header. -/
lemma convert64_mk (E : Endian) (hq : q.toNat = base + pre.length) (hv : v < 256 ^ 8) :
    convert64 E ⟨base, pre ++ Endian.be.encode 8 v ++ post⟩ q
      = .ok ⟨base, pre ++ E.encode 8 v ++ post⟩ := by
  have hlen : (Endian.be.encode 8 v).length = 8 := Endian.encode_length _ _ _
  have hx : (beToHost64 E (BitVec.ofNat 64 (E.decode (Endian.be.encode 8 v)))).toNat = v := by
    rw [beToHost64_decode E hlen, Endian.decode_encode _ hv]
  rw [convert64, load64_has (hq ▸ Block.has_mk base pre _ post) hlen, ok_bind, store64, hx]
  exact Block.store_mk hq (by rw [Endian.encode_length, Endian.encode_length])

end

section

variable {t : Target} {base : ℕ} {d : Packet} {l : List Byte}

/-- The header fields of a message lie in the address space. -/
lemma toNat_msg_add (hroom : base + 24 < 2 ^ t.bits) {k : ℕ} (hk : k ≤ 24) :
    (BitVec.ofNat t.bits base + BitVec.ofNat t.bits k).toNat = base + k := by
  have hbase : (BitVec.ofNat t.bits base).toNat = base := toNat_ofNat_of_lt (by omega)
  rw [toNat_add_ofNat (by omega), hbase]

/-- The header is turned into the byte order of the host. -/
lemma netSwapHeader_spec (hroom : base + 24 < 2 ^ t.bits) :
    netSwapHeader t ⟨base, d.hdr .be ++ l⟩ = .ok ⟨base, d.hdr t.endian ++ l⟩ := by
  obtain ⟨E, hE⟩ : ∃ E, E = t.endian := ⟨_, rfl⟩
  have h4 : ∀ (F : Endian) (v : ℕ), (F.encode 4 v).length = 4 := fun F v => F.encode_length 4 v
  have h8 : ∀ (F : Endian) (v : ℕ), (F.encode 8 v).length = 8 := fun F v => F.encode_length 8 v
  have hmagic := @convert32_mk _ base []
    (Endian.be.encode 4 d.crc.toNat ++ Endian.be.encode 8 d.uuid.1.toNat
      ++ Endian.be.encode 8 d.uuid.2.toNat ++ l) (msgMagic (BitVec.ofNat t.bits base)) _ E
    (toNat_ofNat_of_lt (by omega)) evrnetBcastMagic.isLt
  have hcrc := @convert32_mk _ base (E.encode 4 evrnetBcastMagic.toNat)
    (Endian.be.encode 8 d.uuid.1.toNat ++ Endian.be.encode 8 d.uuid.2.toNat ++ l)
    (msgCrc (BitVec.ofNat t.bits base)) _ E
    (by rw [h4]; exact toNat_msg_add hroom (by norm_num)) d.crc.isLt
  have huuid0 := @convert64_mk _ base (E.encode 4 evrnetBcastMagic.toNat ++ E.encode 4 d.crc.toNat)
    (Endian.be.encode 8 d.uuid.2.toNat ++ l) (msgUuid0 (BitVec.ofNat t.bits base)) _ E
    (by rw [List.length_append, h4, h4]; exact toNat_msg_add hroom (by norm_num)) d.uuid.1.isLt
  have huuid1 := @convert64_mk _ base (E.encode 4 evrnetBcastMagic.toNat ++ E.encode 4 d.crc.toNat
      ++ E.encode 8 d.uuid.1.toNat) l (msgUuid1 (BitVec.ofNat t.bits base)) _ E
    (by rw [List.length_append, List.length_append, h4, h4, h8]
        exact toNat_msg_add hroom (by norm_num)) d.uuid.2.isLt
  simp only [List.nil_append, List.append_assoc] at hmagic hcrc huuid0 huuid1
  rw [netSwapHeader, ← hE, Packet.hdr, Packet.hdr]
  simp only [List.append_assoc]
  rw [hmagic, ok_bind, hcrc, ok_bind, huuid0, ok_bind, huuid1]

/-- The UUID of a converted header. -/
lemma load_header_uuid (hroom : base + 24 < 2 ^ t.bits) :
    load64 t.endian ⟨base, d.hdr t.endian ++ l⟩ (msgUuid0 (BitVec.ofNat t.bits base))
        = .ok d.uuid.1
      ∧ load64 t.endian ⟨base, d.hdr t.endian ++ l⟩ (msgUuid1 (BitVec.ofNat t.bits base))
        = .ok d.uuid.2 := by
  obtain ⟨E, hE⟩ : ∃ E, E = t.endian := ⟨_, rfl⟩
  rw [← hE]
  have hlen0 : (E.encode 4 evrnetBcastMagic.toNat ++ E.encode 4 d.crc.toNat).length = 8 := by
    simp
  have hlen1 : (E.encode 4 evrnetBcastMagic.toNat ++ E.encode 4 d.crc.toNat
      ++ E.encode 8 d.uuid.1.toNat).length = 16 := by
    simp
  have hhas0 := Block.has_mk base (E.encode 4 evrnetBcastMagic.toNat ++ E.encode 4 d.crc.toNat)
    (E.encode 8 d.uuid.1.toNat) (E.encode 8 d.uuid.2.toNat ++ l)
  have hhas1 := Block.has_mk base (E.encode 4 evrnetBcastMagic.toNat ++ E.encode 4 d.crc.toNat
    ++ E.encode 8 d.uuid.1.toNat) (E.encode 8 d.uuid.2.toNat) l
  rw [hlen0] at hhas0
  rw [hlen1] at hhas1
  simp only [List.append_assoc] at hhas0 hhas1
  rw [Packet.hdr]
  simp only [List.append_assoc]
  have hq0 : (msgUuid0 (BitVec.ofNat t.bits base)).toNat = base + 8 :=
    toNat_msg_add hroom (by norm_num)
  have hq1 : (msgUuid1 (BitVec.ofNat t.bits base)).toNat = base + 16 :=
    toNat_msg_add hroom (by norm_num)
  constructor
  · rw [load64_has (hhas0.congr hq0) (E.encode_length 8 _), E.decode_encode d.uuid.1.isLt,
      BitVec.ofNat_toNat, BitVec.setWidth_eq]
  · rw [load64_has (hhas1.congr hq1) (E.encode_length 8 _), E.decode_encode d.uuid.2.isLt,
      BitVec.ofNat_toNat, BitVec.setWidth_eq]

end

/-! ### Handling a packet -/

/-- The message buffer after the packet has been read into it. -/
structure Receives (t : Target) (msg : Block) (d : Packet) (tail : List Byte) : Prop where
  buffer : Buffer t msg
  bytes : msg.bytes = d.bytes ++ tail

namespace Receives

variable {t : Target} {msg : Block} {d : Packet} {tail : List Byte}

lemma fits (h : Receives t msg d tail) : d.Fits t := by
  have hsize := h.buffer.size
  rw [Block.size, h.bytes, List.length_append, d.bytes_length] at hsize
  rw [Packet.Fits]
  omega

/-- The converted message. -/
lemma carries (h : Receives t msg d tail) (E F : Endian) :
    Carries t F ⟨msg.base, d.hdr E ++ (listBytes F d.version d.entries ++ tail)⟩ (d.hdr E)
      d.version d.entries tail := by
  refine carries_mk (d.hdr_length E) h.buffer.dvd (Packet.len_lt h.fits) ?_
  have hroom := h.buffer.room
  rw [Block.size, h.bytes, List.length_append, d.bytes_length] at hroom
  exact hroom

lemma eq_mk (h : Receives t msg d tail) :
    msg = ⟨msg.base, d.hdr .be ++ (listBytes .be d.version d.entries ++ tail)⟩ := by
  rw [← List.append_assoc, ← Packet.bytes, ← h.bytes]

/-- The message buffer stays the message buffer. -/
lemma buffer_of (h : Receives t msg d tail) (E F : Endian) :
    Buffer t ⟨msg.base, d.hdr E ++ (listBytes F d.version d.entries ++ tail)⟩ := by
  have hsize := h.buffer.size
  have hlen : (⟨msg.base, d.hdr E ++ (listBytes F d.version d.entries ++ tail)⟩ : Block).size
      = msg.size := by
    rw [Block.size, Block.size, h.bytes]
    simp only [List.length_append, Packet.hdr_length, listBytes_length, Packet.bytes_length]
    omega
  exact ⟨hlen.trans hsize, h.buffer.dvd, by rw [hlen]; exact h.buffer.room⟩

lemma room (h : Receives t msg d tail) : msg.base + 24 < 2 ^ t.bits := by
  have hroom := h.buffer.room
  have hsize := h.buffer.size
  have := t.bufSize_ge
  omega

end Receives

section

variable {t : Target} {m : Malloc t.bits} {uuid : U64 × U64} {msg : Block} {d : Packet}
  {tail : List Byte} {node : NodeState t.bits} {v : U32} {K : List Entry}

/-- A message under its own UUID tells a node nothing, whatever comes behind the header. -/
lemma netHandleMsg_self {base : ℕ} (l : List Byte) (hroom : base + 24 < 2 ^ t.bits)
    (hown : d.uuid = uuid) (k : ℕ) :
    netHandleMsg t m uuid k ⟨base, d.hdr .be ++ l⟩ node
      = .ok (true, ⟨base, d.hdr t.endian ++ l⟩, node) := by
  obtain ⟨hx, hy⟩ := load_header_uuid (d := d) (l := l) hroom
  rw [netHandleMsg]
  dsimp only
  rw [netSwapHeader_spec hroom, ok_bind, hx, ok_bind, hy, ok_bind, if_pos (by simp [hown]),
    pure_eq_ok]

/-- Of a message under another UUID the entries are looked at. -/
lemma netHandleMsg_walk {base : ℕ} (l : List Byte) (hroom : base + 24 < 2 ^ t.bits)
    (hother : d.uuid ≠ uuid) (k : ℕ) :
    netHandleMsg t m uuid k ⟨base, d.hdr .be ++ l⟩ node
      = nodeCheckForNewNodes t m k ⟨base, d.hdr t.endian ++ l⟩ node
          >>= fun s => .ok (false, s.1, s.2) := by
  obtain ⟨hx, hy⟩ := load_header_uuid (d := d) (l := l) hroom
  have hne : ¬ (d.uuid.1 = uuid.1 ∧ d.uuid.2 = uuid.2) := fun h0 => hother (Prod.ext h0.1 h0.2)
  rw [netHandleMsg]
  dsimp only
  rw [netSwapHeader_spec hroom, ok_bind, hx, ok_bind, hy, ok_bind, if_neg hne]
  rfl

/-- A packet of its own tells a node nothing. -/
lemma netHandleMsg_own (h : Receives t msg d tail) (hown : d.uuid = uuid) (k : ℕ) :
    netHandleMsg t m uuid k msg node
      = .ok (true, ⟨msg.base, d.hdr t.endian ++ (listBytes .be d.version d.entries ++ tail)⟩,
          node) := by
  rw [h.eq_mk]
  exact netHandleMsg_self _ h.room hown k

/-- Where the walk over the entries of a packet halts, so does the receiver. -/
lemma netHandleMsg_halt {x : Halt} (h : Receives t msg d tail) (hother : d.uuid ≠ uuid)
    (hx : Settles (fun k => nodeCheckForNewNodes t m k
      ⟨msg.base, d.hdr t.endian ++ (listBytes .be d.version d.entries ++ tail)⟩ node) (.error x)) :
    Settles (fun k => netHandleMsg t m uuid k msg node) (.error x) := by
  rw [h.eq_mk]
  exact (hx.map _).congr fun k => netHandleMsg_walk _ h.room hother k

/-- The packet of another node is merged into the node list. -/
lemma netHandleMsg_other (h : Receives t msg d tail) (hother : d.uuid ≠ uuid)
    (hK : Holds t node.nodeList v K) (hlaid : Laid (msg.base + 32) d.entries)
    (hm : Mergeable m K d.entries) (hsrc : node.sourceNode = none) :
    ∃ node', Settles (fun k => netHandleMsg t m uuid k msg node)
        (.ok (false,
          ⟨msg.base, d.hdr t.endian ++ (listBytes t.endian d.version d.entries ++ tail)⟩, node'))
      ∧ Holds t node'.nodeList v (mergeNew uuidOf K d.entries)
      ∧ node'.found = node.found ++ reports node.source K [] d.entries := by
  have hcarries := h.carries t.endian .be
  have hlaid' : Laid ((msgNodeList (BitVec.ofNat t.bits msg.base)).toNat + 8) d.entries := by
    have := hcarries.toNat_nl
    dsimp only at this
    rw [this]
    exact hlaid
  obtain ⟨node', hok, hrest⟩ := nodeCheckForNewNodes_settles node hK hcarries hlaid' hm hsrc
  refine ⟨node', ?_, hrest⟩
  rw [h.eq_mk]
  exact (hok.map _).congr fun k => netHandleMsg_walk _ h.room hother k

/-- A packet for which there is no room halts the receiver. -/
lemma netHandleMsg_full (h : Receives t msg d tail) (hother : d.uuid ≠ uuid)
    (hK : Holds t node.nodeList v K) (hne : K ≠ []) (hd : ∀ e ∈ d.entries, e.Sound)
    (hlim : 8 + total K ≤ m.limit) (hfull : ¬ Room m K d.entries) (hsrc : node.sourceNode = none) :
    ∃ x, Settles (fun k => netHandleMsg t m uuid k msg node) (.error x) := by
  have hcarries := h.carries t.endian .be
  obtain ⟨x, -, hx⟩ := nodeCheckForNewNodes_full hK hcarries.frame (hcarries.laid hd) hne
    (fun e he => hd e (fresh_sublist.subset he)) hlim hfull hsrc
  exact ⟨x, netHandleMsg_halt h hother hx⟩

end

/-! ### Sending -/

/-- The packet with a node list. -/
def announce (uuid : U64 × U64) (v : U32) (K : List Entry) : Packet := ⟨uuid, 0, v, K⟩

/-- The list is within the capacities of the sender: it fits the message buffer, and on a
little-endian build also the table of `NODE_ListToBE`. -/
structure Sendable (t : Target) (K : List Entry) : Prop where
  fits : 32 + total K ≤ t.bufSize
  table : t.endian = .le → K.length ≤ 512

section

variable {t : Target} {m : Malloc t.bits} {uuid : U64 × U64} {env : Env} {msg : Block}
  {node : NodeState t.bits} {v : U32} {K : List Entry} {k : ℕ}

/-- The header is written over the first 24 bytes of the buffer. -/
lemma netHeader_spec (hm : Buffer t msg) :
    netHeader t uuid msg
      = .ok ⟨msg.base, (announce uuid v K).hdr .be ++ msg.bytes.drop 24⟩ := by
  have hsize := hm.size
  have hge := t.bufSize_ge
  have hroom := hm.room
  obtain ⟨base, bytes⟩ := msg
  simp only [Block.size_mk] at hsize hroom
  have hroom' : base + 24 < 2 ^ t.bits := by omega
  obtain ⟨a, r, rfl, ha⟩ := exists_append (l := bytes) (n := 4) (by omega)
  obtain ⟨c, r, rfl, hc⟩ := exists_append (l := r) (n := 4) (by
    rw [List.length_append] at hsize; omega)
  obtain ⟨x, r, rfl, hx⟩ := exists_append (l := r) (n := 8) (by
    simp only [List.length_append] at hsize; omega)
  obtain ⟨y, r, rfl, hy⟩ := exists_append (l := r) (n := 8) (by
    simp only [List.length_append] at hsize; omega)
  obtain ⟨E, hE⟩ : ∃ E, E = t.endian := ⟨_, rfl⟩
  have h4 : ∀ v : ℕ, (Endian.be.encode 4 v).length = 4 := fun v => Endian.encode_length _ 4 v
  have h8 : ∀ v : ℕ, (Endian.be.encode 8 v).length = 8 := fun v => Endian.encode_length _ 8 v
  have hmagic := @Block.store_mk (msgMagic (BitVec.ofNat t.bits base)).toNat base [] a
    (Endian.be.encode 4 evrnetBcastMagic.toNat) (c ++ x ++ y ++ r)
    (toNat_ofNat_of_lt (by omega)) (by rw [h4, ha])
  have huuid0 := @Block.store_mk (msgUuid0 (BitVec.ofNat t.bits base)).toNat base
    (Endian.be.encode 4 evrnetBcastMagic.toNat ++ c) x (Endian.be.encode 8 uuid.1.toNat) (y ++ r)
    (by rw [List.length_append, h4, hc]; exact toNat_msg_add hroom' (by norm_num)) (by rw [h8, hx])
  have huuid1 := @Block.store_mk (msgUuid1 (BitVec.ofNat t.bits base)).toNat base
    (Endian.be.encode 4 evrnetBcastMagic.toNat ++ c ++ Endian.be.encode 8 uuid.1.toNat) y
    (Endian.be.encode 8 uuid.2.toNat) r
    (by rw [List.length_append, List.length_append, h4, hc, h8]
        exact toNat_msg_add hroom' (by norm_num)) (by rw [h8, hy])
  have hcrc := @Block.store_mk (msgCrc (BitVec.ofNat t.bits base)).toNat base
    (Endian.be.encode 4 evrnetBcastMagic.toNat) c (Endian.be.encode 4 0)
    (Endian.be.encode 8 uuid.1.toNat ++ Endian.be.encode 8 uuid.2.toNat ++ r)
    (by rw [h4]; exact toNat_msg_add hroom' (by norm_num)) (by rw [h4, hc])
  have hzero : E.encode 4 (0 : U32).toNat = Endian.be.encode 4 0 := by
    exact (Endian.encode_zero E 4).trans (Endian.encode_zero .be 4).symm
  have hdrop : (a ++ (c ++ (x ++ (y ++ r)))).drop 24 = r := by
    have hlen : (a ++ c ++ x ++ y).length = 24 := by
      simp only [List.length_append, ha, hc, hx, hy]
    have hdrop : (a ++ c ++ x ++ y ++ r).drop 24 = r := List.drop_left' hlen
    simpa only [List.append_assoc] using hdrop
  simp only [List.nil_append, List.append_assoc] at hmagic huuid0 huuid1 hcrc
  rw [netHeader, ← hE, hdrop]
  simp only [store32, store64, hostToBE32_encode, hostToBE64_encode, hzero]
  rw [hmagic, ok_bind, huuid0, ok_bind, huuid1, ok_bind, hcrc]
  simp [Packet.hdr, announce]

/-- A list of at most 512 entries, or on a big-endian build any list, is turned into its wire form
where it lies. -/
lemma Holds.nodeListToBE {b : Block} (hK : Holds t b v K) (hcap : t.endian = .le → K.length ≤ 512)
    (hlim : t.bits / 8 * 512 ≤ m.limit) (j : ℕ) (hk : K.length < k) :
    EverythingNet.nodeListToBE t m j k b (BitVec.ofNat t.bits b.base)
      = .ok ⟨b.base, listBytes .be v K⟩ := by
  have hrun := hK.frame.nodeListToBE (v := v) (m := m) rfl hK.laid_nl (j := j) hk hcap hlim
  rwa [← hK.eq_mk, List.nil_append, List.append_nil] at hrun

/-- More than 512 entries are too many for the table of a little-endian build. -/
lemma Holds.nodeListToBE_overflow {b : Block} (hK : Holds t b v K) (hle : t.endian = .le)
    (hlong : 512 < K.length) (hlim : t.bits / 8 * 512 ≤ m.limit) (j : ℕ) (hk : K.length ≤ k) :
    EverythingNet.nodeListToBE t m j k b (BitVec.ofNat t.bits b.base) = .error .outOfBounds := by
  have hrun := hK.frame.nodeListToBE_overflow (v := v) (m := m) rfl hK.laid_nl (j := j) hk
    hlong hle hlim
  rw [← hle] at hrun
  rwa [← hK.eq_mk] at hrun

/-- The wire form of a list is turned into the form of the host where it lies. -/
lemma Holds.nodeListToNative {b : Block} (hK : Holds t b v K) (hk : K.length < k) :
    EverythingNet.nodeListToNative t.endian k ⟨b.base, listBytes .be v K⟩ (BitVec.ofNat t.bits b.base)
      = .ok b := by
  have hrun := hK.frame.nodeListToNative (v := v) (E := t.endian) rfl hK.laid_nl hk
  rwa [← hK.eq_mk, List.nil_append, List.append_nil] at hrun

/-- The reads of the node list while it is in network byte order. -/
lemma Holds.load_wire {b : Block} (hK : Holds t b v K) :
    ∃ len, load32 t.endian ⟨b.base, listBytes .be v K⟩ (nlLen (BitVec.ofNat t.bits b.base)) = .ok len
      ∧ (beToHost32 t.endian len).toNat = 8 + total K
      ∧ (⟨b.base, listBytes .be v K⟩ : Block).loadN (BitVec.ofNat t.bits b.base).toNat (8 + total K)
        = .ok (listBytes .be v K) := by
  have hhas : Block.Has ⟨b.base, listBytes .be v K⟩ (BitVec.ofNat t.bits b.base).toNat
      (listBytes .be v K) := ⟨[], [], by simp, hK.toNat_nl⟩
  have hlen : Block.Has ⟨b.base, listBytes .be v K⟩ (nlLen (BitVec.ofNat t.bits b.base)).toNat
      (Endian.be.encode 4 (8 + total K)) :=
    ⟨[], Endian.be.encode 4 v.toNat ++ entriesBytes .be K, by simp [listBytes, listHeader],
      hK.toNat_nl⟩
  have hconv := beToHost32_decode t.endian (Endian.encode_length .be 4 (8 + total K))
  rw [Endian.decode_encode _ hK.len_lt] at hconv
  refine ⟨_, load32_has hlen (Endian.encode_length _ _ _), hconv, ?_⟩
  have hload := hhas.loadN
  rwa [listBytes_length] at hload

/-- The packet is made: the header, the list in network byte order and the rest of the buffer. The
node list itself is as before. -/
lemma netBuild_spec (hm : Buffer t msg) (hK : Holds t node.nodeList v K) (hs : Sendable t K)
    (hlim : t.bits / 8 * 512 ≤ m.limit) (hk : K.length < k) :
    netBuild t m uuid k msg node
      = .ok (⟨msg.base, (announce uuid v K).bytes ++ msg.bytes.drop (32 + total K)⟩,
          { node with allocs := node.allocs + 1 }) := by
  have hsize := hm.size
  have hge := t.bufSize_ge
  have hroom := hm.room
  have hfits := hs.fits
  rw [Block.size] at hsize hroom
  have htoBE := hK.nodeListToBE (m := m) hs.table hlim node.allocs hk
  have htoNative := hK.nodeListToNative hk
  obtain ⟨len, hlen, hconv, hdata⟩ := hK.load_wire
  have hstore := @Block.store_mk (msgNodeList (BitVec.ofNat t.bits msg.base)).toNat msg.base
    ((announce uuid v K).hdr .be) ((msg.bytes.drop 24).take (8 + total K)) (listBytes .be v K)
    (msg.bytes.drop (32 + total K))
    (by rw [Packet.hdr_length]; exact toNat_msg_add (by omega) (by norm_num))
    (by rw [listBytes_length, List.length_take, List.length_drop]; omega)
  have hsplit : (msg.bytes.drop 24).take (8 + total K) ++ msg.bytes.drop (32 + total K)
      = msg.bytes.drop 24 := by
    have := List.take_append_drop (8 + total K) (msg.bytes.drop 24)
    rw [List.drop_drop] at this
    have h32 : 24 + (8 + total K) = 32 + total K := by omega
    rwa [h32] at this
  rw [List.append_assoc, hsplit] at hstore
  dsimp only [netBuild]
  rw [netHeader_spec (v := v) (K := K) hm, ok_bind, htoBE, ok_bind, hlen, ok_bind, hconv, hdata,
    ok_bind, hstore, ok_bind, htoNative, ok_bind, pure_eq_ok]
  rfl

/-- What goes out is the packet, not what lies behind it in the buffer. -/
lemma sendData_spec {d : Packet} {tail : List Byte} (h : Receives t msg d tail) :
    sendData t msg = .ok d.bytes := by
  have hcarries := h.carries .be .be
  rw [← h.eq_mk] at hcarries
  have hlt := hcarries.len_lt
  have hpow := t.pow_bits_ge
  have hbufSize := t.bufSize_lt
  have hfits := h.fits
  rw [Packet.Fits] at hfits
  have hlen : load32 t.endian msg (nlLen (msgNodeList (BitVec.ofNat t.bits msg.base)))
      = .ok (BitVec.ofNat 32 (t.endian.decode (Endian.be.encode 4 (8 + total d.entries)))) := by
    refine load32_has ?_ (Endian.encode_length _ _ _)
    refine ⟨d.hdr .be, Endian.be.encode 4 d.version.toNat ++ entriesBytes .be d.entries ++ tail,
      ?_, ?_⟩
    · simp [h.bytes, Packet.bytes, listBytes, listHeader]
    · rw [Packet.hdr_length]
      exact hcarries.toNat_nl
  have hconv := beToHost32_decode t.endian (Endian.encode_length .be 4 (8 + total d.entries))
  rw [Endian.decode_encode _ hlt] at hconv
  have hsize : ((beToHost32 t.endian (BitVec.ofNat 32
      (t.endian.decode (Endian.be.encode 4 (8 + total d.entries))))).setWidth t.bits
        + (32 - 8)).toNat = d.bytes.length := by
    have h24 : (32 - 8 : BitVec t.bits).toNat = 24 := by
      rcases t.bits_eq with hb | hb <;> (rw [hb]; rfl)
    rw [BitVec.toNat_add, h24, BitVec.toNat_setWidth, hconv, Packet.bytes_length, Nat.mod_add_mod,
      Nat.mod_eq_of_lt (by omega)]
    omega
  have hhas : msg.Has (BitVec.ofNat t.bits msg.base).toNat d.bytes := by
    refine ⟨[], tail, by rw [h.bytes]; rfl, ?_⟩
    rw [List.length_nil, Nat.add_zero]
    exact toNat_ofNat_of_lt (by have := h.room; omega)
  rw [sendData]
  dsimp only
  rw [hlen, ok_bind, hsize, hhas.loadN]

/-- The interfaces among the first `n` for which `sendto` is called: those before which it fails for
none. -/
def reachedIfaces (ok : ℕ → Bool) (n : ℕ) : List ℕ :=
  (List.range n).filter fun i => (List.range i).all ok

/-- The calls of `sendto` that announce a list: on the interfaces, and on the multicast socket in a
build that has one. -/
def sentOf (t : Target) (env : Env) (data : List Byte) : List Sent :=
  ((reachedIfaces env.bcastSend env.knownIfaces).map fun i => ⟨some i, data⟩)
    ++ if t.multicast then [⟨none, data⟩] else []

/-- Past an interface for which `sendto` fails none is reached. -/
lemma filter_unreached {ok : ℕ → Bool} {i : ℕ} (hi : ok i = false) (n : ℕ) :
    ((List.range' (i + 1) n).filter fun j => (List.range j).all ok) = [] := by
  rw [List.filter_eq_nil_iff]
  intro j hj
  obtain ⟨hij, -⟩ := List.mem_range'_1.mp hj
  rw [List.all_eq_true]
  intro hall
  rw [hall i (List.mem_range.mpr hij)] at hi
  exact absurd hi (by decide)

/-- The loop of `PLAT_NetDoBroadcast` calls `sendto` for the interfaces that are reached. -/
lemma bcastSendLoop_reached (data : List Byte) (ok : ℕ → Bool) (n : ℕ) :
    ∀ i, (∀ j < i, ok j = true) → (bcastSendLoop data ok i n).2
      = ((List.range' i n).filter fun j => (List.range j).all ok).map fun j => ⟨some j, data⟩ := by
  induction n with
  | zero => intro i _; rfl
  | succ n ih =>
      intro i hbefore
      have hreached : (List.range i).all ok = true :=
        List.all_eq_true.mpr fun j hj => hbefore j (List.mem_range.mp hj)
      rw [bcastSendLoop, List.range'_succ, List.filter_cons, if_pos hreached,
        List.map_cons]
      split_ifs with hi
      · have hnext : ∀ j < i + 1, ok j = true := fun j hj =>
          (Nat.lt_succ_iff_lt_or_eq.mp hj).elim (hbefore j) fun h => h ▸ hi
        rw [← ih (i + 1) hnext]
      · rw [filter_unreached (by simpa using hi), List.map_nil]

lemma bcastSendLoop_sent (t : Target) (env : Env) (data : List Byte) :
    (bcastSendLoop data env.bcastSend 0 env.knownIfaces).2
      ++ (if t.multicast then [⟨none, data⟩] else []) = sentOf t env data := by
  rw [bcastSendLoop_reached _ _ _ _ (by simp), sentOf, reachedIfaces, List.range_eq_range']

/-- As long as `sendto` succeeds every interface is reached. -/
lemma reachedIfaces_all (n : ℕ) : reachedIfaces (fun _ => true) n = List.range n := by
  rw [reachedIfaces, List.filter_eq_self]
  simp

lemma bytes_of_mem_sentOf {data : List Byte} {s : Sent} (h : s ∈ sentOf t env data) :
    s.bytes = data := by
  rcases List.mem_append.mp h with h | h
  · obtain ⟨i, -, rfl⟩ := List.mem_map.mp h
    rfl
  · split_ifs at h
    · rw [List.mem_singleton.mp h]
    · simp at h

/-- A sender within its capacities announces its list on all sockets. -/
lemma netSend_spec (uuid : U64 × U64) (env : Env) (hm : Buffer t msg)
    (hK : Holds t node.nodeList v K) (hs : Sendable t K)
    (hlim : t.bits / 8 * 512 ≤ m.limit) (hk : K.length < k) :
    ∃ msg', Receives t msg' (announce uuid v K) (msg.bytes.drop (32 + total K))
      ∧ netSend t m uuid env k msg node = .ok (msg', { node with allocs := node.allocs + 1 },
          sentOf t env (announce uuid v K).bytes) := by
  have hsize := hm.size
  have hfits := hs.fits
  rw [Block.size] at hsize
  have hrecv : Receives t ⟨msg.base, (announce uuid v K).bytes ++ msg.bytes.drop (32 + total K)⟩
      (announce uuid v K) (msg.bytes.drop (32 + total K)) := by
    refine ⟨⟨?_, hm.dvd, ?_⟩, rfl⟩
    · rw [Block.size_mk, List.length_append, Packet.bytes_length, List.length_drop, announce]
      dsimp only
      omega
    · have hroom := hm.room
      rw [Block.size] at hroom
      rw [Block.size_mk, List.length_append, Packet.bytes_length, List.length_drop, announce]
      dsimp only
      omega
  refine ⟨_, hrecv, ?_⟩
  rw [netSend, netBuild_spec hm hK hs hlim hk, ok_bind]
  dsimp only
  rw [platNetDoBroadcast, platNetDoMulticast, sendData_spec hrecv, ok_bind, pure_eq_ok, ok_bind,
    ← bcastSendLoop_sent]
  cases t.multicast <;> simp

end

/-! ### From one machine to another -/

section

variable {t : Target} {msg : Block} {d : Packet} {errno : Errno} {q : List Arrival}

/-- A packet in the message buffer, over what was there before. -/
def received (msg : Block) (d : Packet) : Block :=
  ⟨msg.base, d.bytes ++ msg.bytes.drop d.bytes.length⟩

lemma received_receives (hm : Buffer t msg) (hd : d.Fits t) :
    Receives t (received msg d) d (msg.bytes.drop d.bytes.length) := by
  obtain ⟨-, hbuf⟩ := recvfrom_datagram hm d.bytes .again []
  rw [Packet.take_bytes hd] at hbuf
  exact ⟨hbuf, rfl⟩

lemma verdict_packet {β : Type} (hd : d.Fits t) (no err yes : β) :
    verdict t.bits msg.bytes (d.bytes.take t.bufSize) errno no err yes = yes := by
  rw [Packet.take_bytes hd, verdict, if_neg d.bytes_ne_nil, if_pos (Packet.shows hd _)]

lemma bcastRead_packet (hm : Buffer t msg) (hd : d.Fits t) :
    bcastRead t msg (.datagram d.bytes errno :: q) = .ok (some 1, received msg d, q) := by
  rw [bcastRead_datagram hm, verdict_packet hd, Packet.take_bytes hd]
  rfl

/-- `PLAT_NetCheckBcastData` takes the packet. -/
lemma bcast_packet (hm : Buffer t msg) (hd : d.Fits t) {poll : List Arrival → Poll} {n : ℕ}
    (hpoll : poll (.datagram d.bytes errno :: q) = .ready) :
    platNetCheckBcastData t poll (n + 1) msg (.datagram d.bytes errno :: q)
      = .ok (1, received msg d, q) := by
  rw [platNetCheckBcastData, hpoll]
  dsimp only
  rw [bcastLoop, bcastRead_packet hm hd]
  rfl

/-- `PLAT_NetCheckMcastData` takes the packet. -/
lemma mcast_packet (hm : Buffer t msg) (hd : d.Fits t) (hmc : t.multicast = true)
    {poll : List Arrival → Poll} (hpoll : poll (.datagram d.bytes errno :: q) = .ready) :
    platNetCheckMcastData t poll msg (.datagram d.bytes errno :: q)
      = .ok (1, received msg d, q) := by
  have hread := mcast_datagram (q := q) hm hmc hpoll
  rw [verdict_packet hd, Packet.take_bytes hd] at hread
  exact hread

/-- After the conversions a reader finds what the packet says. -/
lemma convert_packet (hm : Buffer t msg) (hd : d.Fits t) (hw : d.WellFormed) :
    ∃ msg₁ msg₂, netSwapHeader t (received msg d) = .ok msg₁
      ∧ load64 t.endian msg₁ (msgUuid0 (BitVec.ofNat t.bits msg₁.base)) = .ok d.uuid.1
      ∧ load64 t.endian msg₁ (msgUuid1 (BitVec.ofNat t.bits msg₁.base)) = .ok d.uuid.2
      ∧ Settles (fun k => nodeListToNative t.endian k msg₁
          (msgNodeList (BitVec.ofNat t.bits msg₁.base))) (.ok msg₂)
      ∧ Settles (fun k => listRead t.endian k msg₂
          (msgNodeList (BitVec.ofNat t.bits msg₂.base))) (.ok (d.entries.map Entry.reading)) := by
  have hrecv := received_receives hm hd
  have hcarries := hrecv.carries t.endian .be
  have hlaid := hcarries.laid fun e he => (hw e he).sound
  have hswap := netSwapHeader_spec (t := t) (d := d)
    (l := listBytes .be d.version d.entries ++ msg.bytes.drop d.bytes.length) hrecv.room
  rw [← hrecv.eq_mk] at hswap
  obtain ⟨hx, hy⟩ := load_header_uuid (t := t) (d := d)
    (l := listBytes .be d.version d.entries ++ msg.bytes.drop d.bytes.length) hrecv.room
  refine ⟨_, _, hswap, hx, hy, ⟨d.entries.length + 1, fun k hk => ?_⟩,
    (hrecv.carries t.endian t.endian).listRead hw⟩
  exact hcarries.frame.nodeListToNative rfl hlaid hk

end

/-- Senders of both byte orders make the same datagram of a list, and receivers of both take it
and read what the sender has. -/
theorem cross_endian (uuid : U64 × U64) (v : U32) {K : List Entry} (hK : ∀ e ∈ K, e.WellFormed)
    (hcap : K.length ≤ 512) :
    ∃ d : List Byte,
      (∀ (t : Target) (m : Malloc t.bits) (env : Env) (msg : Block) (node : NodeState t.bits),
        32 + total K ≤ t.bufSize → t.bits / 8 * 512 ≤ m.limit → Buffer t msg →
        Holds t node.nodeList v K →
        ∃ msg' node', Settles (fun k => netSend t m uuid env k msg node)
            (.ok (msg', node', sentOf t env d))
          ∧ node'.nodeList = node.nodeList
          ∧ Settles (fun k => listRead t.endian k node.nodeList node.nl)
            (.ok (K.map Entry.reading)))
      ∧ ∀ (t : Target) (poll : List Arrival → Poll) (n : ℕ) (msg : Block) (errno : Errno),
        32 + total K ≤ t.bufSize → Buffer t msg → poll [.datagram d errno] = .ready →
        ∃ msg₁ msg₂ msg₃,
          platNetCheckBcastData t poll (n + 1) msg [.datagram d errno] = .ok (1, msg₁, [])
          ∧ (t.multicast = true →
            platNetCheckMcastData t poll msg [.datagram d errno] = .ok (1, msg₁, []))
          ∧ netSwapHeader t msg₁ = .ok msg₂
          ∧ load64 t.endian msg₂ (msgUuid0 (BitVec.ofNat t.bits msg₂.base)) = .ok uuid.1
          ∧ load64 t.endian msg₂ (msgUuid1 (BitVec.ofNat t.bits msg₂.base)) = .ok uuid.2
          ∧ Settles (fun k => nodeListToNative t.endian k msg₂
              (msgNodeList (BitVec.ofNat t.bits msg₂.base))) (.ok msg₃)
          ∧ Settles (fun k => listRead t.endian k msg₃
              (msgNodeList (BitVec.ofNat t.bits msg₃.base))) (.ok (K.map Entry.reading)) := by
  refine ⟨(announce uuid v K).bytes, ?_, ?_⟩
  · intro t m env msg node hfits hlim hm hholds
    obtain ⟨msg', -, hsend⟩ := netSend_spec uuid env hm hholds
      ⟨hfits, fun _ => hcap⟩ hlim (Nat.lt_succ_self _)
    exact ⟨msg', _, (netSend_steady t m uuid env msg node).settles hsend (by simp), rfl,
      hholds.listRead fun e he => (hK e he).complete⟩
  · intro t poll n msg errno hfits hm hpoll
    have hd : (announce uuid v K).Fits t := hfits
    obtain ⟨msg₂, msg₃, hswap, hx, hy, hconv, hread⟩ := convert_packet hm hd hK
    exact ⟨_, msg₂, msg₃, bcast_packet hm hd hpoll, fun hmc => mcast_packet hm hd hmc hpoll,
      hswap, hx, hy, hconv, hread⟩

/-- A big-endian node reads what a little-endian one has sent. -/
theorem cross_endian_sample :
    ∃ d msg' node' msg₁ msg₂ msg₃,
      Settles (fun k => netSend .linux64 .spread (5, 7) ⟨fun _ => .idle, fun _ => .idle, 1,
            fun _ => true, true⟩ k (zeroed .linux64 4096)
            ⟨sampleList (crowd 0 3 0), .broadcast, none, 2, []⟩)
          (.ok (msg', node', [⟨some 0, d⟩, ⟨none, d⟩]))
        ∧ platNetCheckBcastData .powerpc32 (fun _ => .ready) 1 (zeroed .powerpc32 4096)
          [.datagram d .again] = .ok (1, msg₁, [])
        ∧ netSwapHeader .powerpc32 msg₁ = .ok msg₂
        ∧ Settles (fun k => nodeListToNative .be k msg₂ (msgNodeList (BitVec.ofNat 32 msg₂.base)))
          (.ok msg₃)
        ∧ Settles (fun k => listRead .be k msg₃ (msgNodeList (BitVec.ofNat 32 msg₃.base)))
          (.ok ((crowd 0 3 0).map Entry.reading)) := by
  have hK : ∀ e ∈ crowd 0 3 0, e.WellFormed := fun _ => wellFormed_of_mem_crowd
  have htot : total (crowd 0 3 0) = 144 := by simp [total_crowd]
  obtain ⟨d, hsend, hrecv⟩ := cross_endian (5, 7) evrnetNodelistV1 hK (by simp [crowd])
  obtain ⟨msg', node', hok, -⟩ := hsend .linux64 .spread ⟨fun _ => .idle, fun _ => .idle, 1,
    fun _ => true, true⟩ (zeroed .linux64 4096) ⟨sampleList (crowd 0 3 0), .broadcast, none, 2, []⟩
    (by rw [htot]; decide) (by decide) zeroed_linux64
    (sampleList_holds hK (by rw [htot]; norm_num))
  have hm : Buffer .powerpc32 (zeroed .powerpc32 4096) := zeroed_buffer (by norm_num) (by decide)
  obtain ⟨msg₁, msg₂, msg₃, hcheck, -, hswap, -, -, hconv, hread⟩ := hrecv .powerpc32
    (fun _ => .ready) 0 (zeroed .powerpc32 4096) .again (by rw [htot]; decide) hm rfl
  exact ⟨d, msg', node', msg₁, msg₂, msg₃, hok, hcheck, hswap, hconv, hread⟩

end EverythingNet
