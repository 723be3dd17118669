import Mathlib.Tactic
import EverythingNet.Net.Reach
import EverythingNet.Node.Invariant
import EverythingNet.Node.Locality

/-!
What a datagram that passes the checks does to a node.

The checks look at the magic number and at the length of the whole message. What is inside, each entry
says about itself.

* `reached_listInv`: as long as the entries that a node takes in are well-formed the node list keeps its
  invariant. `unended_taken`: an entry whose last string ends behind it is taken in as well.
* `round_ends`: as long as the entries have the sizes they say, every round of the receiving loop ends.
  `hollow_spins`: an entry of size 0 keeps a node busy for ever.
* `handled_within`: then the received bytes are all that is read and written of the message, if there is
  also room for the list. `cut_outOfBounds`: an entry that is cut off is read beyond them.
-/

namespace EverythingNet

open CMem KeyedLog

/-! ### A sample node -/

/-- The sample node starts. -/
lemma sample_starts {P : Entry → Prop} (hi : P sampleInfo.entry) :
    ∃ st, netStart .linux64 .spread sampleInfo.toLocalFields = .ok st
      ∧ Kept (t := .linux64) .spread P [sampleInfo.entry] st.msg st.node := by
  obtain ⟨st, hst, -⟩ := netStart_spec spread_served sampleInfo
  exact ⟨st, hst, Kept.start spread_served hi hst⟩

/-- A little is always taken in. -/
lemma sample_room {L : List Entry} (hL : total L ≤ 4096) :
    Room Malloc.spread [sampleInfo.entry] L := by
  have hle := total_mergeNew_le [sampleInfo.entry] L
  have hlen : sampleInfo.entry.length ≤ 4096 := sampleInfo.fits
  rw [total_cons, total_nil] at hle
  refine ⟨by omega, ?_⟩
  norm_num [Malloc.spread]
  omega

lemma greeting_fits : greeting.Fits .linux64 := (greeting_ok .again).1

lemma greeting_room : Room Malloc.spread [sampleInfo.entry] greeting.entries :=
  sample_room (by simp [greeting, announce, newcomer, total_crowd])

/-- The packet of another node meets any condition that its entries meet. -/
lemma greeting_meets {Q : List Entry → List Entry → Prop} {b msg : Block}
    (hQ : ∀ v K, Holds .linux64 b v K → Q K greeting.entries) :
    Meets .linux64 sampleInfo.uuid Q b greeting.bytes msg := by
  refine .inr ⟨greeting, ⟨Packet.take_bytes greeting_fits, ?_⟩, hQ⟩
  exact Laid.of_sound (fun e he => (wellFormed_of_mem_crowd he).sound) (by norm_num [sizeofBcastMsg])

/-! ### The invariant -/

section

variable {t : Target} {m : Malloc t.bits} {i : LocalInfo} {msg : Block} {node : NodeState t.bits}

/-- In a run whose messages are the node's own or packets whose new entries are well-formed, the node list
satisfies its invariant in every state. -/
theorem reached_listInv (hm : Served t m)
    (h : Reached t m i (Meets t i.uuid (NewAre Entry.WellFormed)) msg node) :
      ListInv t node.nodeList := by
  obtain ⟨K, hK⟩ := h.kept hm (fun _ he => he.sound) i.entry_wellFormed
  exact hK.list.listInv (fun e he => (hK.all e he).complete) hK.nodup

end

/-- The sample node after a packet of another node. -/
theorem reached_listInv_sample :
    ∃ msg node, Reached .linux64 .spread sampleInfo
        (Meets .linux64 sampleInfo.uuid (NewAre Entry.WellFormed)) msg node
      ∧ node.nodeList.size = 104 ∧ ListInv .linux64 node.nodeList := by
  have hwf : ∀ e ∈ greeting.entries, e.WellFormed := fun _ => wellFormed_of_mem_crowd
  obtain ⟨st, hst, hK⟩ := sample_starts sampleInfo.entry_wellFormed
  obtain ⟨s, hs, hK'⟩ := hK.round_packet (fun _ he => he.sound) greeting_fits
    (show greeting.uuid ≠ sampleInfo.uuid by decide) hwf greeting_room (fun _ => true) true
  have hreach : Reached .linux64 .spread sampleInfo
      (Meets .linux64 sampleInfo.uuid (NewAre Entry.WellFormed)) s.msg s.node := by
    refine .receive _ _ _ (.start st hst) (fun src d msg q q' h => ?_) hs
    rw [h.eq_datagram]
    exact greeting_meets fun _ _ _ e he => hwf e (fresh_sublist.subset he)
  refine ⟨s.msg, s.node, hreach, ?_, reached_listInv spread_served hreach⟩
  have hsize := hK'.list.size_eq
  rw [show mergeNew uuidOf [sampleInfo.entry] greeting.entries = crowd 0 1 0 ++ newcomer from
    merge_greeting] at hsize
  rw [hsize]
  simp [newcomer, total_crowd]

/-- An entry with four zeros behind `memSz`, so that the fifth string of `PLAT_Info` lies behind it. -/
def unended : Entry where
  distance := 0
  name := emptyStr
  namePad := zeros 3
  ips := []
  ipsPad := []
  uuid := (1, 0)
  ver := emptyStr
  verPad := zeros 3
  cap := 0
  memSz := 0
  rest := zeros 4
  ips_lt := by decide
  length_lt := by decide

lemma unended_sound : unended.Sound := ⟨⟨rfl, rfl, rfl⟩, by decide⟩

lemma unended_not_complete : ¬ unended.Complete := show ¬ 5 ≤ (cstrings (zeros 4)).length by decide

/-- A packet with this entry. -/
def unendedPacket : Packet := announce (1, 0) evrnetNodelistV1 [unended]

/-- A node takes the entry in, and its list no longer satisfies the invariant. -/
theorem unended_taken :
    ∃ st msg s, netStart .linux64 .spread sampleInfo.toLocalFields = .ok st
      ∧ ListInv .linux64 st.node.nodeList
      ∧ Takes .linux64 (sockEnv 1 (fun _ => true) true) (arrived st.msg st.node unendedPacket.bytes)
          .broadcast unendedPacket.bytes msg [] []
      ∧ Settles (fun k => recvStep .linux64 .spread sampleInfo.uuid (sockEnv 1 (fun _ => true) true) k
          (arrived st.msg st.node unendedPacket.bytes)) (.ok (.inl s))
      ∧ ¬ ListInv .linux64 s.node.nodeList := by
  have hfits : unendedPacket.Fits .linux64 := show 32 + total [unended] ≤ 64 * 1024 by decide
  obtain ⟨st, hst, hK⟩ := sample_starts sampleInfo.entry_wellFormed.sound
  obtain ⟨s, hs, hK'⟩ := hK.round_packet (fun _ he => he) hfits
    (show unendedPacket.uuid ≠ sampleInfo.uuid by decide)
    (fun e he => List.mem_singleton.mp he ▸ unended_sound) (sample_room (by decide)) (fun _ => true)
    true
  refine ⟨st, _, s, hst, ?_, takes_valid st.node hK.buffer (Packet.valid hfits) _ _, hs,
    fun hinv => ?_⟩
  · refine hK.list.listInv (fun e he => ?_) hK.nodup
    exact List.mem_singleton.mp he ▸ sampleInfo.entry_wellFormed.complete
  · refine unended_not_complete ((hK'.list.listInv_iff.mp hinv).1 unended ?_)
    rw [mergeNew_eq_append]
    exact List.mem_append_right _ (by decide)

/-! ### Termination -/

section

variable {t : Target} {m : Malloc t.bits} {i : LocalInfo} {env : Env} {s : RecvState t.bits}

/-- In a run whose messages are the node's own or packets whose new entries are sound, a round of the
receiving loop that takes such a message comes to an end, with all the walks it makes. -/
theorem round_ends (hm : Served t m) (h : Reached t m i (Meets t i.uuid (NewAre Entry.Sound))
    s.msg s.node)
    (hs : ∀ src d msg bcast mcast, Takes t env s src d msg bcast mcast →
      Meets t i.uuid (NewAre Entry.Sound) s.node.nodeList d msg) :
    Ends fun k => recvStep t m i.uuid env k s := by
  obtain ⟨K, hK⟩ := h.kept hm (fun _ he => he) i.entry_wellFormed.sound
  rcases hK.round (fun _ he => he) hs with ⟨r, -, hok, -⟩ | ⟨x, hx, hhalt⟩
  · exact hok.ends
  · exact ⟨.error x, by simpa using hx, hhalt⟩

end

/-- A packet of another node meets the sample node. -/
theorem round_ends_sample :
    ∃ st, netStart .linux64 .spread sampleInfo.toLocalFields = .ok st
      ∧ Ends fun k => recvStep .linux64 .spread sampleInfo.uuid (sockEnv 1 (fun _ => true) true) k
        (arrived st.msg st.node greeting.bytes) := by
  obtain ⟨st, hst, -⟩ := sample_starts sampleInfo.entry_wellFormed.sound
  have hsound : ∀ e ∈ greeting.entries, e.Sound := fun e he => (wellFormed_of_mem_crowd he).sound
  refine ⟨st, hst, round_ends (s := arrived st.msg st.node greeting.bytes) spread_served
    (.start st hst) ?_⟩
  intro src d msg q q' h
  rw [h.eq_datagram]
  exact greeting_meets fun _ _ _ e he => hsound e (fresh_sublist.subset he)

/-! ### Messages that are not packets -/

/-- The header of a message of another node. -/
def stranger : Packet := announce (1, 0) evrnetNodelistV1 []

/-- A message of another node whose list is `l`, whatever that may be. -/
def message (l : List Byte) : List Byte :=
  stranger.hdr .be ++ (listHeader .be evrnetNodelistV1 l.length ++ l)

section

variable {l : List Byte}

/-- The checks let it pass, it is not the node's own, and so its bytes are looked at as entries. -/
lemma message_walked (hl : l.length ≤ 4096) :
    ∃ st msg base tail, netStart .linux64 .spread sampleInfo.toLocalFields = .ok st
      ∧ Takes .linux64 (sockEnv 1 (fun _ => true) true) (arrived st.msg st.node (message l))
          .broadcast (message l) msg [] []
      ∧ netSwapHeader .linux64 msg = .ok ⟨base, stranger.hdr .le
          ++ (listHeader .be evrnetNodelistV1 l.length ++ (l ++ tail))⟩
      ∧ (∀ k node, netHandleMsg .linux64 .spread sampleInfo.uuid k msg node
        = nodeCheckForNewNodes .linux64 .spread k ⟨base, stranger.hdr .le
            ++ (listHeader .be evrnetNodelistV1 l.length ++ (l ++ tail))⟩ node
          >>= fun s => .ok (false, s.1, s.2))
      ∧ 8 ∣ base ∧ base + (32 + l.length + tail.length) < 2 ^ 64 := by
  have hlen : (message l).length = 32 + l.length := by
    simp only [message, List.length_append, Packet.hdr_length, listHeader_length]
    omega
  have hbufSize : Target.linux64.bufSize = 65536 := rfl
  have htake : (message l).take Target.linux64.bufSize = message l :=
    List.take_of_length_le (by omega)
  obtain ⟨st, hst, hK⟩ := sample_starts (P := fun _ => True) trivial
  have hv : Valid .linux64 (message l) :=
    Packet.header_valid stranger evrnetNodelistV1 rfl (by omega)
  have htakes := takes_valid st.node hK.buffer hv (fun _ => true) true
  have hbuf := (htakes.taken hK.buffer).buffer
  rw [htake] at htakes hbuf
  have hroom : st.msg.base + (overlay (message l) st.msg.bytes).length < 2 ^ 64 := hbuf.room
  have hsplit : overlay (message l) st.msg.bytes = stranger.hdr .be
      ++ (listHeader .be evrnetNodelistV1 l.length
        ++ (l ++ st.msg.bytes.drop (message l).length)) := by
    simp [overlay, message]
  rw [hsplit] at htakes hroom
  simp only [List.length_append, Packet.hdr_length, listHeader_length] at hroom
  have h24 : st.msg.base + 24 < 2 ^ Target.linux64.bits := show _ < 2 ^ 64 by omega
  exact ⟨st, _, st.msg.base, _, hst, htakes, netSwapHeader_spec h24,
    fun k node => netHandleMsg_walk _ h24 (show stranger.uuid ≠ sampleInfo.uuid by decide) k,
      hbuf.dvd, by omega⟩

/-- The place of such a list. -/
lemma message_frame {base : ℕ} {tail : List Byte} (hl : l.length ≤ 4096)
    (hroom : base + (32 + l.length + tail.length) < 2 ^ 64) :
    Frame (w := 64) base (stranger.hdr .le) tail (msgNodeList (BitVec.ofNat 64 base)) l.length where
  bits := .inr rfl
  addr := by
    rw [Packet.hdr_length]
    exact toNat_msg_add (t := .linux64) (show base + 24 < 2 ^ 64 by omega) le_rfl
  len_lt := by omega
  room := by
    rw [Packet.hdr_length]
    omega

end

/-- The zeros of an entry without size, name, addresses and version. -/
def hollowShape : Shape := ⟨0, 0, [], zeros 3, [], [], zeros 3⟩

/-- The numbers of this entry are zero, too. -/
def hollowPayload : Payload := ⟨zeros 2, [], zeros 8, zeros 8, zeros 4, zeros 4⟩

/-- Looking at an entry of size 0 leads nowhere. -/
lemma hollow_step {base : ℕ} {pre post : List Byte} {nl : BitVec 64} {v : U32}
    (h : Frame base pre post nl 40) (hdvd : 8 ∣ nl.toNat) :
    nodeListToNativeStep nl (⟨base, pre ++ (listHeader .le v 40 ++ (zeros 40 ++ post))⟩, nlEntries nl)
      = .ok (.inl (⟨base, pre ++ (listHeader .le v 40 ++ (zeros 40 ++ post))⟩, nlEntries nl)) := by
  have hent := h.toNat_entries
  have hroom := h.room
  have haddr := h.addr
  have hin : nlEntries nl < nlEntries nl + BitVec.ofNat 64 40 :=
    (h.addr_lt (k := 0) hent).mpr (by norm_num)
  have hseat : Seat base (pre ++ listHeader .le v 40) (zeros 4 ++ post) (nlEntries nl) hollowShape
      hollowPayload := by
    have hshape : hollowShape.length = 36 := rfl
    refine ⟨h.bits, ?_, ?_, ?_⟩
    · rw [hent, haddr, List.length_append, listHeader_length, add_assoc]
    · have hfits : Shape.Fits 0 hollowShape hollowPayload :=
        ⟨rfl, by decide, rfl, rfl, rfl, rfl, rfl, by decide, rfl, rfl, rfl⟩
      exact hfits.of_dvd (dvd_zero 8) (hent ▸ dvd_add hdvd dvd_rfl)
    · simp only [List.length_append, listHeader_length, List.length_replicate, hshape]
      omega
  have hblock : (⟨base, pre ++ (listHeader .le v 40 ++ (zeros 40 ++ post))⟩ : Block)
      = Seat.block base (pre ++ listHeader .le v 40) (zeros 4 ++ post) hollowShape hollowPayload := by
    have hzeros : zeros 40 = hollowShape.bytes hollowPayload ++ zeros 4 := rfl
    simp [hzeros]
  have hconv := hseat.nodeEntryToLE.1
  rw [show hollowPayload.rev hollowShape.numIp.toNat = hollowPayload from rfl] at hconv
  have hsize : load16 .le (Seat.block base (pre ++ listHeader .le v 40) (zeros 4 ++ post)
    hollowShape hollowPayload)
      (entrySize (nlEntries nl)) = .ok 0 := load16_has hseat.spot.has_size rfl
  have hnext : nlEntries nl + (0 : U16).setWidth 64 = nlEntries nl := by simp
  rw [nodeListToNativeStep, h.nlBody_mk, ok_bind, if_pos hin, hblock, hconv, ok_bind, entryNext,
    hsize, ok_bind, pure_eq_ok, ok_bind, hnext, pure_eq_ok]

/-- A message with an entry of size 0 keeps the node busy for ever. -/
theorem hollow_spins :
    ∃ st msg, netStart .linux64 .spread sampleInfo.toLocalFields = .ok st
      ∧ Takes .linux64 (sockEnv 1 (fun _ => true) true) (arrived st.msg st.node (message (zeros 40)))
          .broadcast (message (zeros 40)) msg [] []
      ∧ ¬ Ends fun k => recvStep .linux64 .spread sampleInfo.uuid (sockEnv 1 (fun _ => true) true) k
          (arrived st.msg st.node (message (zeros 40))) := by
  obtain ⟨st, msg, base, tail, hst, htakes, -, hwalk, hdvd, hroom⟩ :=
    @message_walked (zeros 40) (by decide)
  have hframe := message_frame (l := zeros 40) (by decide) hroom
  have hnl : 8 ∣ (msgNodeList (BitVec.ofNat 64 base)).toNat := by
    rw [hframe.addr, Packet.hdr_length]
    exact dvd_add hdvd (by norm_num)
  have hspin : ∀ k, nodeListToNative .le k ⟨base, stranger.hdr .le
      ++ (listHeader .be evrnetNodelistV1 (zeros 40).length ++ (zeros 40 ++ tail))⟩
        (msgNodeList (BitVec.ofNat 64 base)) = .error .outOfFuel := by
    intro k
    have hswap := hframe.swap_header (E := .be) (v := evrnetNodelistV1) (zeros 40 ++ tail)
    rw [nodeListToNative, ← bind_assoc, hswap, ok_bind]
    refine iter_spins (S := fun s => s = _) ?_ k _ rfl
    rintro s rfl
    exact ⟨_, hollow_step hframe hnl, rfl⟩
  refine ⟨st, msg, hst, htakes, Spins.not_ends fun k => ?_⟩
  have hhandle : ∀ node, netHandleMsg .linux64 .spread sampleInfo.uuid k msg node
    = .error .outOfFuel :=
    fun node => (hwalk k node).trans (bind_of_error (bind_of_error (hspin k) _) _)
  calc _ = netHandleMsg .linux64 .spread sampleInfo.uuid k msg
          { st.node with source := .broadcast, sourceNode := none } >>= fun r =>
            .ok (roundEnd [] [] r) :=
        @Takes.recvStep .linux64 .spread _ _ _ _ _ _ _ _ htakes k
    _ = .error .outOfFuel := bind_of_error (hhandle _) _

/-! ### Memory -/

/-- What is new is sound, and there is room for it. -/
def Fitting {w : ℕ} (m : Malloc w) (K L : List Entry) : Prop := NewAre Entry.Sound K L ∧ Room m K L

/-- The allocation of a node list has as many bytes as its `len` says. -/
def AllocLen (t : Target) (b : Block) : Prop :=
  ∃ len, load32 t.endian b (nlLen (BitVec.ofNat t.bits b.base)) = .ok len ∧ b.size = len.toNat

section

variable {t : Target} {m : Malloc t.bits} {i : LocalInfo} {env : Env} {s : RecvState t.bits}
  {src : DiscoverySrc} {d : List Byte} {msg : Block} {bcast mcast : List Arrival} {K : List Entry}
  {node : NodeState t.bits}

lemma Holds.allocLen {b : Block} {v : U32} (h : Holds t b v K) : AllocLen t b :=
  ⟨_, h.load_len, by rw [h.size_eq, toNat_ofNat_of_lt h.len_lt]⟩

/-- The entries of a packet are looked at within its bytes. -/
lemma Kept.walk_within (h : Kept m Entry.Sound K msg node) {p : Packet} {tail : List Byte}
    (hmsg : Receives t msg p tail) (hp : Framed t d p) (hL : Fitting m K p.entries)
    (hsrc : node.sourceNode = none) :
    ∃ node', Settles (fun k => nodeCheckForNewNodes t m k
        ⟨msg.base, p.hdr t.endian ++ listBytes .be p.version p.entries⟩ node)
          (.ok (⟨msg.base, p.hdr t.endian ++ listBytes t.endian p.version p.entries⟩, node'))
      ∧ Kept m Entry.Sound (mergeNew uuidOf K p.entries) msg node' := by
  have hroom := h.buffer.room
  have hfits := hmsg.fits
  rw [h.buffer.size] at hroom
  rw [Packet.Fits] at hfits
  have hcarries : Carries t .be ⟨msg.base, p.hdr t.endian
    ++ (listBytes .be p.version p.entries ++ [])⟩
      (p.hdr t.endian) p.version p.entries [] := by
    refine carries_mk (p.hdr_length _) h.buffer.dvd (Packet.len_lt hmsg.fits) ?_
    rw [List.length_nil]
    omega
  have hlaid : Laid ((msgNodeList (BitVec.ofNat t.bits msg.base)).toNat + 8) p.entries := by
    have hnl := hcarries.toNat_nl
    dsimp only at hnl
    rw [hnl]
    exact hp.laid_msg h.buffer
  have hm : Mergeable m K p.entries := ⟨h.nonempty, hL.1, hL.2⟩
  obtain ⟨node', hok, hholds, -⟩ := nodeCheckForNewNodes_settles node h.list hcarries hlaid hm hsrc
  rw [List.append_nil, List.append_nil] at hok
  exact ⟨node', hok, h.buffer, hholds, mergeNew_ne_nil h.nonempty, nodup_mergeNew h.nodup, hL.2.limit,
    h.all_mergeNew hL.1⟩

/-- In a run whose messages are the node's own or packets whose new entries are sound and find room, a
message is handled as if the buffer ended with the received bytes: `NODE_CheckForNewNodes` runs through on
these bytes alone, with the same result. The allocation of the node list has the size that its `len`
says, before and after. -/
theorem handled_within (hm : Served t m) (h : Reached t m i (Meets t i.uuid (Fitting m)) s.msg s.node)
    (htakes : Takes t env s src d msg bcast mcast)
    (hg : Meets t i.uuid (Fitting m) s.node.nodeList d msg) :
    ∃ own msg' node', Settles (fun k => netHandleMsg t m i.uuid k msg
          { s.node with source := src, sourceNode := none }) (.ok (own, msg', node'))
      ∧ (own = false → ∃ msg₁ x, netSwapHeader t msg = .ok msg₁
        ∧ Settles (fun k => nodeCheckForNewNodes t m k
            ⟨msg₁.base, msg₁.bytes.take (d.take t.bufSize).length⟩
            { s.node with source := src, sourceNode := none }) (.ok (⟨msg₁.base, x⟩, node'))
        ∧ x.length = (d.take t.bufSize).length
        ∧ msg' = ⟨msg₁.base, x ++ msg₁.bytes.drop (d.take t.bufSize).length⟩)
      ∧ AllocLen t s.node.nodeList ∧ AllocLen t node'.nodeList := by
  have hsound : ∀ K L, Fitting m K L → NewAre Entry.Sound K L := fun _ _ hKL => hKL.1
  obtain ⟨K, hK⟩ := (h.mono fun _ _ _ => Meets.mono hsound).kept hm (fun _ he => he)
    i.entry_wellFormed.sound
  have htaken := htakes.taken hK.buffer
  have hkept : Kept m Entry.Sound K msg { s.node with source := src, sourceNode := none } :=
    { hK with buffer := htaken.buffer, list := hK.list }
  have hself : FromSelf i.uuid msg → ∃ msg', (∀ k, netHandleMsg t m i.uuid k msg
      { s.node with source := src, sourceNode := none }
        = .ok (true, msg', { s.node with source := src, sourceNode := none })) := by
    intro hself
    obtain ⟨msg', hok, -⟩ := hkept.handle_self hself
    exact ⟨msg', hok⟩
  by_cases hown : FromSelf i.uuid msg
  · obtain ⟨msg', hok⟩ := hself hown
    exact ⟨true, msg', _, ⟨0, fun k _ => hok k⟩, by simp, hK.list.allocLen, hK.list.allocLen⟩
  · obtain ⟨p, hp, hL⟩ := hg.resolve_left hown
    obtain ⟨tail, hmsg⟩ := htaken.receives hp
    have hother : p.uuid ≠ i.uuid := fun huuid =>
      hown ⟨p, _, by rw [hmsg.bytes, Packet.bytes, List.append_assoc], huuid⟩
    obtain ⟨node', hok, hkept'⟩ := hkept.walk_within hmsg hp (hL _ K hK.list) rfl
    -- the run on the received bytes is the run on the whole buffer
    have hfull : Settles (fun k => netHandleMsg t m i.uuid k msg
        { s.node with source := src, sourceNode := none })
        (.ok (false, ⟨msg.base, p.hdr t.endian ++ listBytes t.endian p.version p.entries ++ tail⟩,
          node')) := by
      obtain ⟨N, hN⟩ := hok
      refine ⟨N, fun k hk => ?_⟩
      dsimp only
      rw [hmsg.eq_mk, netHandleMsg_walk _ hmsg.room hother, ← List.append_assoc]
      exact bind_of_ok (nodeCheckForNewNodes_grows t m k _ tail _ _ (hN k hk)) _
    have hret : (d.take t.bufSize).length = 32 + total p.entries := by
      rw [hp.bytes, Packet.bytes_length]
    have hlen : ∀ E, (p.hdr t.endian ++ listBytes E p.version p.entries).length
      = 32 + total p.entries := by
      intro E
      rw [List.length_append, Packet.hdr_length, listBytes_length]
      omega
    refine ⟨false, _, node', hfull, fun _ => ?_, hK.list.allocLen, hkept'.list.allocLen⟩
    refine ⟨⟨msg.base, p.hdr t.endian ++ listBytes .be p.version p.entries ++ tail⟩,
      p.hdr t.endian ++ listBytes t.endian p.version p.entries, ?_, ?_, ?_, ?_⟩
    · rw [hmsg.eq_mk, netSwapHeader_spec hmsg.room, List.append_assoc]
    · rw [hret, List.take_left' (hlen .be)]
      exact hok
    · rw [hlen, hret]
    · rw [hret, List.drop_left' (hlen .be)]

end

/-- A packet of another node is handled within its 80 bytes. -/
theorem handled_within_sample :
    ∃ st msg own msg' node', netStart .linux64 .spread sampleInfo.toLocalFields = .ok st
      ∧ Takes .linux64 (sockEnv 1 (fun _ => true) true) (arrived st.msg st.node greeting.bytes)
          .broadcast greeting.bytes msg [] []
      ∧ Settles (fun k => netHandleMsg .linux64 .spread sampleInfo.uuid k msg
          { st.node with source := .broadcast, sourceNode := none }) (.ok (own, msg', node'))
      ∧ AllocLen .linux64 node'.nodeList := by
  obtain ⟨st, hst, hK⟩ := sample_starts sampleInfo.entry_wellFormed.sound
  have hsound : ∀ e ∈ greeting.entries, e.Sound := fun e he => (wellFormed_of_mem_crowd he).sound
  have htakes := takes_valid st.node hK.buffer (Packet.valid greeting_fits) (fun _ => true) true
  have hmeets : ∀ msg, Meets .linux64 sampleInfo.uuid (Fitting Malloc.spread) st.node.nodeList
    greeting.bytes
      msg := by
    refine fun msg => greeting_meets fun v K hb => ?_
    obtain rfl := hK.list.unique hb
    exact ⟨fun e he => hsound e (fresh_sublist.subset he), greeting_room⟩
  obtain ⟨own, msg', node', hok, -, -, halloc⟩ := @handled_within .linux64 .spread sampleInfo
    (sockEnv 1 (fun _ => true) true) (arrived st.msg st.node greeting.bytes) _ _ _ _ _ spread_served
    (.start st hst) htakes (hmeets _)
  exact ⟨st, _, own, msg', node', hst, htakes, hok, halloc⟩

/-- The size of an entry of which only the first byte has come lies behind this byte. -/
lemma cut_step {base : ℕ} {pre : List Byte} {nl : BitVec 64} {v : U32} (h : Frame base pre [] nl 1) :
    nodeListToNativeStep nl (⟨base, pre ++ (listHeader .le v 1 ++ (zeros 1 ++ []))⟩, nlEntries nl)
      = .error .outOfBounds := by
  have hent := h.toNat_entries
  have haddr := h.addr
  have hin : nlEntries nl < nlEntries nl + BitVec.ofNat 64 1 :=
    (h.addr_lt (k := 0) hent).mpr (by norm_num)
  have hout : load16 .le ⟨base, pre ++ (listHeader .le v 1 ++ (zeros 1 ++ []))⟩
    (entrySize (nlEntries nl))
      = .error .outOfBounds := by
    refine load16_outOfBounds fun hle => ?_
    simp only [Block.size_mk, List.length_append, listHeader_length, List.length_replicate,
      List.length_nil] at hle
    have hsize : (entrySize (nlEntries nl)).toNat = (nlEntries nl).toNat := rfl
    omega
  rw [nodeListToNativeStep, h.nlBody_mk, ok_bind, if_pos hin, nodeEntryToLE, swapSize, update16, hout]
  rfl

/-- Of a packet with such an entry, bytes behind the received ones are read. -/
theorem cut_outOfBounds :
    ∃ st msg msg₁, netStart .linux64 .spread sampleInfo.toLocalFields = .ok st
      ∧ Takes .linux64 (sockEnv 1 (fun _ => true) true) (arrived st.msg st.node (message (zeros 1)))
          .broadcast (message (zeros 1)) msg [] []
      ∧ netSwapHeader .linux64 msg = .ok msg₁
      ∧ (∀ k node, netHandleMsg .linux64 .spread sampleInfo.uuid k msg node
        = nodeCheckForNewNodes .linux64 .spread k msg₁ node >>= fun s => .ok (false, s.1, s.2))
      ∧ ∀ node, Settles (fun k => nodeCheckForNewNodes .linux64 .spread k
          ⟨msg₁.base, msg₁.bytes.take (message (zeros 1)).length⟩ node) (.error .outOfBounds) := by
  obtain ⟨st, msg, base, tail, hst, htakes, hheader, hwalk, -, hroom⟩ :=
    @message_walked (zeros 1) (by decide)
  have hframe := @message_frame (zeros 1) base [] (by decide) (by rw [List.length_nil]; omega)
  refine ⟨st, msg, _, hst, htakes, hheader, hwalk, fun node => ?_⟩
  have htake : (stranger.hdr .le
      ++ (listHeader .be evrnetNodelistV1 (zeros 1).length ++ (zeros 1 ++ tail))).take
        (message (zeros 1)).length
        = stranger.hdr .le ++ (listHeader .be evrnetNodelistV1 (zeros 1).length
          ++ (zeros 1 ++ [])) := by
    rw [← List.append_assoc (listHeader _ _ _), ← List.append_assoc, List.append_nil]
    refine List.take_left' ?_
    simp only [message, List.length_append, Packet.hdr_length, listHeader_length]
  dsimp only
  rw [htake]
  -- on a little-endian host the list is converted first
  have hswap := hframe.swap_header (E := .be) (v := evrnetNodelistV1) (zeros 1 ++ [])
  have hconv : Settles (fun k => nodeListToNative .le k ⟨base, stranger.hdr .le
      ++ (listHeader .be evrnetNodelistV1 (zeros 1).length ++ (zeros 1 ++ []))⟩
        (msgNodeList (BitVec.ofNat 64 base))) (.error .outOfBounds) := by
    refine (settles_iter_error (@cut_step _ _ _ evrnetNodelistV1 hframe)).congr fun k => ?_
    rw [nodeListToNative, ← bind_assoc, hswap, ok_bind]
    rfl
  exact hconv.bind_halt

end EverythingNet
