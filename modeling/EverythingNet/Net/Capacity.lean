import Mathlib.Tactic
import EverythingNet.Net.Run

/-!
How much a node can send: runs of a node from its start.

* `netStart`, `handleAll`: the start and the calls of `NET_HandleBcast`. `known i cs`: the entries
  that the node `i` has after the calls `cs`.
* `netSend_overflow`: a sender beyond its capacities writes past the table of `NODE_ListToBE` or past
  the message buffer.
* `Comes`: the calls come to an end, since there is room for the list and each list sent is within
  the capacities. `handleAll_cases`: a run whose calls come to an end reaches the state with the list
  `known`, any other run halts.
* `send_fits_iff`: when the list fits the message buffer at every send. `crowd_overflows`: two
  packets with which it does not.
* `entryPtrs_fit_iff`: when the entries fit the table of `NODE_ListToBE`. `longList_overflows`: a
  list that fits the packet but not the table.
-/

namespace EverythingNet

open CMem KeyedLog

/-! ### The code -/

/-- `PLAT_Init` and `NODE_Init`: the state in which the calls of `NET_HandleBcast` begin. -/
def netStart (t : Target) (m : Malloc t.bits) (i : LocalFields) :
    Except Halt (NetState t.bits) := do
  let msg ← netInit t m 0
  let node ← nodeInit t m 1 i
  return ⟨msg, node, 0⟩

/-- A call of `NET_HandleBcast` with what surrounds it. -/
def handleCall (t : Target) (m : Malloc t.bits) (uuid : U64 × U64) (fuel : ℕ)
    (st : NetState t.bits) (c : Call) : Except Halt (NetState t.bits) := do
  let (st, _, _, _) ← netHandleBcast t m uuid c.env fuel st (c.bcast.map Item.arrival)
    (c.mcast.map Item.arrival)
  return st

/-- The calls, one after the other. -/
def handleAll (t : Target) (m : Malloc t.bits) (uuid : U64 × U64) (cs : List Call) (fuel : ℕ)
    (st : NetState t.bits) : Except Halt (NetState t.bits) :=
  cs.foldlM (handleCall t m uuid fuel) st

/-- The entries that a node has after some calls. -/
def known (t : Target) (i : LocalInfo) (cs : List Call) : List Entry :=
  mergeNew uuidOf [i.entry] (entriesOf (handledBy t i.uuid cs))

/-- The call with this number sends: `counter % 15` is zero. -/
def Sends (n : ℕ) : Prop := BitVec.ofNat 32 n % (15 : U32) = 0

instance : DecidablePred Sends := fun _ => inferInstanceAs (Decidable (_ = _))

/-- The allocator serves the requests that the code checks. -/
structure Served (t : Target) (m : Malloc t.bits) : Prop where
  msg : t.bufSize ≤ m.limit
  list : 8 + 4096 ≤ m.limit
  table : t.bits / 8 * 512 ≤ m.limit

/-! ### The start -/

section

variable {t : Target} {m : Malloc t.bits} {i : LocalInfo}

lemma netInit_spec {k : ℕ} (hlim : t.bufSize ≤ m.limit) :
    ∃ msg, netInit t m k = .ok msg ∧ Buffer t msg := by
  have hplace := m.place_lt k _ hlim
  have hstore := @Block.store_mk (m.place k t.bufSize) (m.place k t.bufSize) []
    ((List.range t.bufSize).map (m.junk k)) (List.replicate t.bufSize 0) [] rfl (by simp)
  rw [List.nil_append, List.append_nil, List.nil_append, List.append_nil] at hstore
  refine ⟨zeroed t (m.place k t.bufSize), ?_, zeroed_buffer (m.place_dvd k _) hplace⟩
  rw [netInit, Malloc.malloc, if_pos hlim]
  exact hstore

lemma netStart_spec (h : Served t m) (i : LocalInfo) :
    ∃ st, netStart t m i.toLocalFields = .ok st ∧ Buffer t st.msg
      ∧ Holds t st.node.nodeList evrnetNodelistV1 (known t i []) ∧ st.counter = 0 := by
  obtain ⟨msg, hmsg, hbuf⟩ := netInit_spec (k := 0) h.msg
  obtain ⟨b, hb, hnode⟩ := nodeInit_spec (t := t) (m := m) (k := 1) i h.list
  refine ⟨⟨msg, ⟨b, .unset, none, 3, []⟩, 0⟩, ?_, hbuf, hb, rfl⟩
  rw [netStart, hmsg, ok_bind, hnode, ok_bind, pure_eq_ok]

lemma known_ne_nil {cs : List Call} : known t i cs ≠ [] := mergeNew_ne_nil (List.cons_ne_nil _ _)

lemma known_append {cs cs' : List Call} :
    known t i (cs ++ cs') = mergeNew uuidOf (known t i cs) (entriesOf (handledBy t i.uuid cs')) := by
  rw [known, known, handledBy_append, entriesOf_append, mergeNew_append]

end

/-! ### A list that is not within the capacities -/

section

variable {t : Target} {m : Malloc t.bits} {uuid : U64 × U64} {env : Env} {msg : Block}
  {node : NodeState t.bits} {v : U32} {K : List Entry}

/-- A write that does not fit its object. -/
lemma store_outOfBounds {b : Block} {a : ℕ} {l : List Byte} (h : b.base + b.size < a + l.length) :
    b.store a l = .error .outOfBounds :=
  if_neg fun h' => by omega

/-- The copy of a list that does not fit the message buffer. -/
lemma netBuild_overflow (hm : Buffer t msg) (hK : Holds t node.nodeList v K)
    (htable : t.endian = .le → K.length ≤ 512) (hlim : t.bits / 8 * 512 ≤ m.limit)
    (hfull : t.bufSize < 32 + total K) {k : ℕ} (hk : K.length < k) :
    netBuild t m uuid k msg node = .error .outOfBounds := by
  have hroom := hm.room
  have hsize := hm.size
  have hge := t.bufSize_ge
  have htoBE := hK.nodeListToBE (m := m) htable hlim node.allocs hk
  obtain ⟨len, hlen, hconv, hdata⟩ := hK.load_wire
  have hstore : Block.store ⟨msg.base, (announce uuid v K).hdr .be ++ msg.bytes.drop 24⟩
      (msgNodeList (BitVec.ofNat t.bits msg.base)).toNat (listBytes .be v K)
      = .error .outOfBounds := by
    have haddr : (msgNodeList (BitVec.ofNat t.bits msg.base)).toNat = msg.base + 24 :=
      toNat_msg_add (by omega) le_rfl
    refine store_outOfBounds ?_
    rw [Block.size] at hsize
    rw [Block.size_mk, haddr, listBytes_length, List.length_append, Packet.hdr_length,
      List.length_drop]
    dsimp only
    omega
  dsimp only [netBuild]
  rw [netHeader_spec (v := v) (K := K) hm, ok_bind, htoBE, ok_bind, hlen, ok_bind, hconv, hdata,
    ok_bind, hstore, error_bind]

variable (uuid env) in
/-- A sender beyond its capacities writes past the end of an object. -/
lemma netSend_overflow (hm : Buffer t msg) (hK : Holds t node.nodeList v K)
    (hlim : t.bits / 8 * 512 ≤ m.limit) (hs : ¬ Sendable t K) :
    Settles (fun k => netSend t m uuid env k msg node) (.error .outOfBounds) := by
  refine Settles.bind_halt ⟨K.length + 1, fun k hk => ?_⟩
  by_cases htable : t.endian = .le → K.length ≤ 512
  · refine netBuild_overflow hm hK htable hlim ?_ hk
    by_contra hfits
    exact hs ⟨by omega, htable⟩
  · push Not at htable
    have htoBE := hK.nodeListToBE_overflow htable.1 htable.2 hlim node.allocs (Nat.le_of_succ_le hk)
    dsimp only [netBuild]
    rw [netHeader_spec (v := v) (K := K) hm, ok_bind, htoBE, error_bind]

end

/-! ### Runs -/

/-- The lists that are sent are within the capacities. -/
def SendsOk (t : Target) (i : LocalInfo) (cs : List Call) : Prop :=
  ∀ pre c post, cs = pre ++ c :: post → Sends pre.length → Sendable t (known t i (pre ++ [c]))

/-- The calls come to an end: there is room for the list, and the lists that are sent are within the
capacities. -/
structure Comes (t : Target) (m : Malloc t.bits) (i : LocalInfo) (cs : List Call) : Prop where
  room : Room m [i.entry] (entriesOf (handledBy t i.uuid cs))
  sends : SendsOk t i cs

section

variable {t : Target} {m : Malloc t.bits} {i : LocalInfo} {cs : List Call} {c : Call}

lemma sendsOk_concat :
    SendsOk t i (cs ++ [c])
      ↔ SendsOk t i cs ∧ (Sends cs.length → Sendable t (known t i (cs ++ [c]))) := by
  constructor
  · intro h
    refine ⟨fun pre c' post hcs => h pre c' (post ++ [c]) (by simp [hcs]), h cs c [] rfl⟩
  · rintro ⟨h, hc⟩ pre c' post hcs
    cases post using List.reverseRecOn with
    | nil =>
        obtain ⟨rfl, hc'⟩ := List.append_inj' hcs rfl
        obtain rfl : c = c' := by simpa using hc'
        exact hc
    | append_singleton post c'' =>
        rw [← List.cons_append, ← List.append_assoc] at hcs
        exact h pre c' post (List.append_inj' hcs rfl).1

lemma room_concat :
    Room m [i.entry] (entriesOf (handledBy t i.uuid (cs ++ [c])))
      ↔ Room m (known t i cs) (entriesOf (c.handled t i.uuid)) := by
  rw [known, room_mergeNew]
  simp

lemma known_concat :
    known t i (cs ++ [c]) = mergeNew uuidOf (known t i cs) (entriesOf (c.handled t i.uuid)) := by
  rw [known_append]
  simp

lemma comes_concat :
    Comes t m i (cs ++ [c]) ↔ Comes t m i cs
      ∧ Room m (known t i cs) (entriesOf (c.handled t i.uuid))
      ∧ (Sends cs.length → Sendable t (known t i (cs ++ [c]))) := by
  constructor
  · rintro ⟨hroom, hsends⟩
    obtain ⟨h, hc⟩ := sendsOk_concat.mp hsends
    refine ⟨⟨?_, h⟩, room_concat.mp hroom, hc⟩
    rw [handledBy_append, entriesOf_append] at hroom
    exact hroom.of_append
  · rintro ⟨⟨-, h⟩, hroom, hc⟩
    exact ⟨room_concat.mpr hroom, sendsOk_concat.mpr ⟨h, hc⟩⟩

/-- The state of the node `i` after the calls `cs`. -/
structure After (t : Target) (i : LocalInfo) (cs : List Call) (st : NetState t.bits) : Prop where
  msg : Buffer t st.msg
  list : Holds t st.node.nodeList evrnetNodelistV1 (known t i cs)
  counter : st.counter = BitVec.ofNat 32 cs.length

lemma After.sends_iff {st : NetState t.bits} (h : After t i cs st) :
    st.counter % 15 = 0 ↔ Sends cs.length := by
  rw [h.counter, Sends]

/-- The receiving half of the next call gets to the next list. -/
lemma After.receive {st : NetState t.bits} (h : After t i cs st) (hc : c.Ok t)
    (hroom : Room m (known t i cs) (entriesOf (c.handled t i.uuid))) :
    ∃ s, Settles (fun k => netReceive t m i.uuid c.env k
          ⟨st.msg, st.node, c.bcast.map Item.arrival, c.mcast.map Item.arrival⟩) (.ok s)
      ∧ Buffer t s.msg
      ∧ Holds t s.node.nodeList evrnetNodelistV1 (known t i (cs ++ [c])) := by
  rw [known_concat]
  exact netReceive_call i.uuid hc h.msg h.list known_ne_nil hroom

/-- The receiving half of the next call halts if there is no room. -/
lemma After.full {st : NetState t.bits} (h : After t i cs st) (hc : c.Ok t)
    (hlim : 8 + total (known t i cs) ≤ m.limit)
    (hroom : ¬ Room m (known t i cs) (entriesOf (c.handled t i.uuid))) :
    ∃ x, Settles (fun k => netReceive t m i.uuid c.env k
      ⟨st.msg, st.node, c.bcast.map Item.arrival, c.mcast.map Item.arrival⟩) (.error x) := by
  obtain ⟨x, hloop⟩ := netReceive_full i.uuid c.ifaces c.bcastSend c.mcastSend c.bcast c.mcast
    hc.bcast hc.mcast h.msg h.list known_ne_nil hlim hroom
  exact ⟨x, hloop.settles⟩

/-- A call. -/
lemma After.call {st : NetState t.bits} (hm : Served t m) (h : After t i cs st) (hc : c.Ok t)
    (hroom : Room m (known t i cs) (entriesOf (c.handled t i.uuid)))
    (hsend : Sends cs.length → Sendable t (known t i (cs ++ [c]))) :
    ∃ st', Settles (fun k => handleCall t m i.uuid k st c) (.ok st') ∧ After t i (cs ++ [c]) st' := by
  obtain ⟨s, hs, hbuf, hholds⟩ := h.receive hc hroom
  obtain ⟨st', hst', hbuf', hlist, hcounter⟩ := netHandleBcast_spec (c := st.counter) hs hbuf hholds
    (fun h0 => hsend (h.sends_iff.mp h0)) hm.table
  refine ⟨st', hst'.map _, hbuf', hlist ▸ hholds, ?_⟩
  rw [hcounter, h.counter, List.length_append, List.length_singleton, BitVec.ofNat_add]
  rfl

/-- A call that sends a list beyond the capacities. -/
lemma After.overflow {st : NetState t.bits} (hm : Served t m) (h : After t i cs st) (hc : c.Ok t)
    (hroom : Room m (known t i cs) (entriesOf (c.handled t i.uuid))) (hsends : Sends cs.length)
    (hs : ¬ Sendable t (known t i (cs ++ [c]))) :
    Settles (fun k => handleCall t m i.uuid k st c) (.error .outOfBounds) := by
  obtain ⟨s, hs', hbuf, hholds⟩ := h.receive hc hroom
  have hsend := netSend_overflow i.uuid c.env hbuf hholds hm.table hs
  have hcounter : ¬ st.counter % 15 ≠ 0 := not_not.mpr (h.sends_iff.mpr hsends)
  obtain ⟨N, hN⟩ := hs'
  obtain ⟨M, hM⟩ := hsend
  refine ⟨max N M, fun k hk => ?_⟩
  have hN' := hN k (by omega)
  have hM' := hM k (by omega)
  dsimp only [handleCall, netHandleBcast] at hN' hM' ⊢
  rw [hN', ok_bind, if_neg hcounter, hM', error_bind, error_bind]

variable (cs) in
/-- A run whose calls come to an end reaches the state with the list `known`, any other run
halts. -/
lemma handleAll_cases (hm : Served t m) (hcs : ∀ c ∈ cs, c.Ok t) {st : NetState t.bits}
    (hst : After t i [] st) :
    (Comes t m i cs ∧ ∃ st', Settles (fun k => handleAll t m i.uuid cs k st) (.ok st')
        ∧ After t i cs st')
      ∨ (¬ Comes t m i cs ∧ ∃ x, Settles (fun k => handleAll t m i.uuid cs k st) (.error x)) := by
  induction cs using List.reverseRecOn with
  | nil =>
      have hlen : i.entry.length ≤ 4096 := i.fits
      have hlist := hm.list
      refine Or.inl ⟨⟨⟨?_, ?_⟩, fun pre c post h => absurd h (by simp)⟩, st, ⟨0, fun _ _ => rfl⟩, hst⟩
      · simp only [handledBy_nil, entriesOf_nil, mergeNew_nil, total_cons, total_nil]
        omega
      · simp only [handledBy_nil, entriesOf_nil, mergeNew_nil, total_cons, total_nil]
        omega
  | append_singleton cs c ih =>
      have hc := hcs c (by simp)
      rcases ih fun c' hc' => hcs c' (by simp [hc']) with ⟨hcomes, st', hs, hafter⟩ | ⟨hnot, x, hx⟩
      · by_cases hroom : Room m (known t i cs) (entriesOf (c.handled t i.uuid))
        · by_cases hsend : Sends cs.length → Sendable t (known t i (cs ++ [c]))
          · obtain ⟨st'', hs', hafter'⟩ := hafter.call hm hc hroom hsend
            exact Or.inl ⟨comes_concat.mpr ⟨hcomes, hroom, hsend⟩, st'', hs.concat hs', hafter'⟩
          · push Not at hsend
            refine Or.inr ⟨fun h => hsend.2 ((comes_concat.mp h).2.2 hsend.1), .outOfBounds, ?_⟩
            exact hs.concat (hafter.overflow hm hc hroom hsend.1 hsend.2)
        · obtain ⟨x, hx⟩ := hafter.full hc hcomes.room.limit hroom
          refine Or.inr ⟨fun h => hroom (comes_concat.mp h).2.1, x, ?_⟩
          exact hs.concat (Settles.bind_halt (Settles.bind_halt hx))
      · exact Or.inr ⟨fun h => hnot (comes_concat.mp h).1, x, hx.concat_halt⟩

/-- In a run of a node the list fits the message buffer whenever it is sent, just if at every send
that the run gets to, the own entry and the entries with new UUIDs among the packets handled take at
most as many bytes as the buffer has behind the header. -/
theorem send_fits_iff (hm : Served t m) (i : LocalInfo) (hcs : ∀ c ∈ cs, c.Ok t) :
    ∃ st, netStart t m i.toLocalFields = .ok st
      ∧ ((∀ pre c post st' s, cs = pre ++ c :: post →
            Settles (fun k => handleAll t m i.uuid pre k st) (.ok st') → st'.counter % 15 = 0 →
            Settles (fun k => netReceive t m i.uuid c.env k
              ⟨st'.msg, st'.node, c.bcast.map Item.arrival, c.mcast.map Item.arrival⟩) (.ok s) →
            ∃ len, load32 t.endian s.node.nodeList (nlLen s.node.nl) = .ok len
              ∧ len.toNat + 24 ≤ t.bufSize)
        ↔ ∀ pre c post, cs = pre ++ c :: post → Sends pre.length → SendsOk t i pre →
            Room m [i.entry] (entriesOf (handledBy t i.uuid (pre ++ [c]))) →
            32 + total (known t i (pre ++ [c])) ≤ t.bufSize) := by
  obtain ⟨st, hst, hbuf, hholds, hcounter⟩ := netStart_spec hm i
  have hafter : After t i [] st := ⟨hbuf, hholds, hcounter⟩
  refine ⟨st, hst, ?_, ?_⟩
  · intro h pre c post hsplit hsends hok hroom
    have hc := hcs c (by simp [hsplit])
    have hcomes : Comes t m i pre := by
      refine ⟨?_, hok⟩
      rw [handledBy_append, entriesOf_append] at hroom
      exact hroom.of_append
    obtain ⟨-, st', hs, hafter'⟩ | ⟨hnot, -⟩ := handleAll_cases pre hm
      (fun c hc => hcs c (by simp [hsplit, hc])) hafter
    · obtain ⟨s, hrecv, -, hholds'⟩ := hafter'.receive hc (room_concat.mp hroom)
      obtain ⟨len, hlen, hfits⟩ := h pre c post st' s hsplit hs (hafter'.sends_iff.mpr hsends) hrecv
      obtain rfl := Except.ok.inj (hlen.symm.trans hholds'.load_len)
      rw [toNat_ofNat_of_lt hholds'.len_lt] at hfits
      omega
    · exact absurd hcomes hnot
  · intro h pre c post st' s hsplit hs hsends hrecv
    have hc := hcs c (by simp [hsplit])
    obtain ⟨hcomes, st'', hs', hafter'⟩ | ⟨-, x, hx⟩ := handleAll_cases pre hm
      (fun c hc => hcs c (by simp [hsplit, hc])) hafter
    · obtain rfl : st'' = st' := Except.ok.inj (hs'.unique hs)
      by_cases hroom : Room m (known t i pre) (entriesOf (c.handled t i.uuid))
      · obtain ⟨s', hrecv', -, hholds'⟩ := hafter'.receive hc hroom
        obtain rfl : s' = s := Except.ok.inj (hrecv'.unique hrecv)
        have hfits := h pre c post hsplit (hafter'.sends_iff.mp hsends) hcomes.sends
          (room_concat.mpr hroom)
        refine ⟨_, hholds'.load_len, ?_⟩
        rw [toNat_ofNat_of_lt hholds'.len_lt]
        omega
      · obtain ⟨x, hx⟩ := hafter'.full hc hcomes.room.limit hroom
        exact absurd (hrecv.unique hx) (by simp)
    · exact absurd (hs.unique hx) (by simp)

end

/-! ### A list that outgrows the message buffer -/

/-- The information of the sample node. -/
def sampleInfo : LocalInfo := LocalInfo.sample (0, 0) 0

lemma spread_served : Served .linux64 .spread :=
  ⟨by norm_num [Malloc.spread, Target.bufSize, Target.linux64], by norm_num [Malloc.spread],
    by norm_num [Malloc.spread, Target.linux64]⟩

lemma greeting_call_ok : ∀ c ∈ [find [greeting]], c.Ok .linux64 :=
  (@find_delivers [greeting] [[greeting]] (by simp)).ok
    fun d hd => sample_packets d (by simp_all)

theorem send_fits_iff_sample :
    ∃ st, netStart .linux64 .spread sampleInfo.toLocalFields = .ok st
      ∧ ((∀ pre c post st' s, [find [greeting]] = pre ++ c :: post →
            Settles (fun k => handleAll .linux64 .spread sampleInfo.uuid pre k st) (.ok st') →
            st'.counter % 15 = 0 →
            Settles (fun k => netReceive .linux64 .spread sampleInfo.uuid c.env k
              ⟨st'.msg, st'.node, c.bcast.map Item.arrival, c.mcast.map Item.arrival⟩) (.ok s) →
            ∃ len, load32 Target.linux64.endian s.node.nodeList (nlLen s.node.nl) = .ok len
              ∧ len.toNat + 24 ≤ Target.linux64.bufSize)
        ↔ ∀ pre c post, [find [greeting]] = pre ++ c :: post → Sends pre.length →
            SendsOk .linux64 sampleInfo pre →
            Room Malloc.spread [sampleInfo.entry]
              (entriesOf (handledBy .linux64 sampleInfo.uuid (pre ++ [c]))) →
            32 + total (known .linux64 sampleInfo (pre ++ [c])) ≤ Target.linux64.bufSize) :=
  send_fits_iff spread_served sampleInfo greeting_call_ok

/-- A packet with eight new nodes, whose entries are as long as `NODE_Init` can make them. -/
def heavy (a : ℕ) : Packet :=
  announce (BitVec.ofNat 64 a, 0) evrnetNodelistV1 (crowd a 8 506)

/-- A call that finds two such packets. -/
def heavyCall : Call := find [heavy 1, heavy 9]

lemma heavy_ok : ∀ d ∈ [heavy 1, heavy 9], d.Fits .linux64 ∧ d.WellFormed ∧ d.uuid ≠ (0, 0) := by
  have hfits : ∀ a, (heavy a).Fits .linux64 := fun a => by
    simp [Packet.Fits, heavy, announce, total_crowd, Target.bufSize, Target.linux64]
  intro d hd
  rcases List.mem_cons.mp hd with rfl | hd
  · exact ⟨hfits 1, fun _ => wellFormed_of_mem_crowd, by simp [heavy, announce]⟩
  · obtain rfl := List.mem_singleton.mp hd
    exact ⟨hfits 9, fun _ => wellFormed_of_mem_crowd, by simp [heavy, announce]⟩

lemma heavyCall_ok : heavyCall.Ok .linux64 :=
  (@find_delivers [heavy 1, heavy 9] [[heavy 1, heavy 9]] (by simp)).ok heavy_ok _
    (List.mem_singleton_self _)

lemma entriesOf_heavyCall :
    entriesOf (heavyCall.handled .linux64 sampleInfo.uuid) = crowd 1 16 506 := by
  calc entriesOf (heavyCall.handled .linux64 sampleInfo.uuid) = entriesOf [heavy 1, heavy 9] :=
        congrArg entriesOf (find_handled heavy_ok)
    _ = crowd 1 8 506 ++ crowd 9 8 506 := by
        rw [entriesOf_cons, entriesOf_cons, entriesOf_nil, List.append_nil]
        rfl
    _ = crowd 1 16 506 := crowd_append 8

lemma known_heavyCall :
    known .linux64 sampleInfo [heavyCall] = sampleInfo.entry :: crowd 1 16 506 := by
  have hfresh : fresh uuidOf ([sampleInfo.entry].map uuidOf) (crowd 1 16 506) = crowd 1 16 506 := by
    refine fresh_eq_self (nodup_crowd (by norm_num)) fun e he hmem => ?_
    obtain ⟨k, hk, rfl⟩ := List.mem_map.mp he
    rw [List.mem_range] at hk
    have h1 : BitVec.ofNat 64 (1 + k) = 0 := (Prod.ext_iff.mp (List.mem_singleton.mp hmem)).1
    have h2 : (BitVec.ofNat 64 (1 + k)).toNat = 0 := congrArg BitVec.toNat h1
    rw [toNat_ofNat_of_lt (by omega)] at h2
    omega
  calc known .linux64 sampleInfo [heavyCall]
      = mergeNew uuidOf [sampleInfo.entry] (crowd 1 16 506) := by
        rw [known, handledBy_cons, handledBy_nil, List.append_nil, entriesOf_heavyCall]
    _ = [sampleInfo.entry] ++ crowd 1 16 506 := by rw [mergeNew_eq_append, hfresh]
    _ = sampleInfo.entry :: crowd 1 16 506 := List.singleton_append

lemma total_heavyCall : total (known .linux64 sampleInfo [heavyCall]) = 65584 := by
  calc total (known .linux64 sampleInfo [heavyCall])
      = sampleInfo.entry.length + total (crowd 1 16 506) := by rw [known_heavyCall, total_cons]
    _ = 48 + 16 * 4096 := by
        rw [total_crowd, sampleInfo, LocalInfo.sample_length]
        rfl

/-- After the first sixteen long entries the list is larger than the message buffer, and the call
writes past its end. -/
theorem crowd_overflows :
    ∃ st s len, netStart .linux64 .spread sampleInfo.toLocalFields = .ok st ∧ st.counter % 15 = 0
      ∧ heavyCall.Ok .linux64
      ∧ Settles (fun k => netReceive .linux64 .spread sampleInfo.uuid heavyCall.env k
          ⟨st.msg, st.node, heavyCall.bcast.map Item.arrival, heavyCall.mcast.map Item.arrival⟩)
        (.ok s)
      ∧ load32 .le s.node.nodeList (nlLen s.node.nl) = .ok len
      ∧ Target.linux64.bufSize < len.toNat + 24
      ∧ Settles (fun k => handleAll .linux64 .spread sampleInfo.uuid [heavyCall] k st)
        (.error .outOfBounds) := by
  obtain ⟨st, hst, hbuf, hholds, hcounter⟩ := netStart_spec spread_served sampleInfo
  have hafter : After .linux64 sampleInfo [] st := ⟨hbuf, hholds, hcounter⟩
  have htotal := total_heavyCall
  have hroom : Room Malloc.spread (known .linux64 sampleInfo [])
      (entriesOf (heavyCall.handled .linux64 sampleInfo.uuid)) := by
    have hmerged : total (mergeNew uuidOf (known .linux64 sampleInfo [])
        (entriesOf (heavyCall.handled .linux64 sampleInfo.uuid))) = 65584 := by
      calc _ = total (known .linux64 sampleInfo ([] ++ [heavyCall])) := by rw [known_concat]
        _ = 65584 := htotal
    exact ⟨by omega, by rw [hmerged]; norm_num [Malloc.spread]⟩
  obtain ⟨s, hs, -, hlist⟩ := hafter.receive heavyCall_ok hroom
  have hlt := hlist.len_lt
  refine ⟨st, s, _, hst, hafter.sends_iff.mpr rfl, heavyCall_ok, hs, hlist.load_len, ?_, ?_⟩
  · rw [toNat_ofNat_of_lt hlt, List.nil_append, htotal]
    decide
  · refine Settles.concat (l := []) (Settles.const _)
      (hafter.overflow spread_served heavyCall_ok hroom rfl ?_)
    intro h
    have hfits := h.fits
    rw [List.nil_append, htotal] at hfits
    exact absurd hfits (by decide)

/-! ### The table of `NODE_ListToBE` -/

/-- When `NODE_ListToBE` stays within its table: on a big-endian build there is none, elsewhere it
takes 512 entries. A list of less than 513 times 48 bytes has no more than that. -/
theorem entryPtrs_fit_iff {t : Target} {m : Malloc t.bits} {b : Block} {v : U32} {K : List Entry}
    (j : ℕ) (hK : Holds t b v K) (hlim : t.bits / 8 * 512 ≤ m.limit) :
    ((∃ b', Settles (fun k => nodeListToBE t m j k b (BitVec.ofNat t.bits b.base)) (.ok b'))
        ↔ (t.endian = .le → K.length ≤ 512))
      ∧ (¬ (t.endian = .le → K.length ≤ 512) →
        Settles (fun k => nodeListToBE t m j k b (BitVec.ofNat t.bits b.base)) (.error .outOfBounds))
      ∧ ((∀ e ∈ K, e.Complete) → total K < 513 * 48 → K.length ≤ 512) := by
  have hover : ¬ (t.endian = .le → K.length ≤ 512) →
      Settles (fun k => nodeListToBE t m j k b (BitVec.ofNat t.bits b.base))
        (.error .outOfBounds) := by
    intro hcap
    obtain ⟨hle, hlong⟩ := Classical.not_imp.mp hcap
    exact ⟨K.length, fun k hk => hK.nodeListToBE_overflow hle (not_le.mp hlong) hlim j hk⟩
  refine ⟨⟨?_, fun hcap => ?_⟩, hover, fun hc hlt => ?_⟩
  · rintro ⟨b', hb'⟩
    by_contra hcap
    exact absurd (hb'.unique (hover hcap)) (by simp)
  · exact ⟨_, K.length + 1, fun k hk => hK.nodeListToBE hcap hlim j hk⟩
  · have hmin : 48 * K.length ≤ total K :=
      mul_length_le_total fun e he => Entry.WellFormed.length_ge ⟨hK.sound e he, hc e he⟩
    omega

/-- A list of `n` entries with all strings empty. -/
def crowdList (n : ℕ) : Block :=
  ⟨4096, listBytes Target.linux64.endian evrnetNodelistV1 (crowd 0 n 0)⟩

lemma crowdList_holds {n : ℕ} (hn : n ≤ 513) :
    Holds .linux64 (crowdList n) evrnetNodelistV1 (crowd 0 n 0) where
  bytes := rfl
  sound := fun _ he => (wellFormed_of_mem_crowd he).sound
  pos := by norm_num [crowdList]
  dvd := by norm_num [crowdList]
  len_lt := by
    rw [total_crowd]
    omega
  room := by
    rw [crowdList, Block.size_mk, listBytes_length, total_crowd]
    norm_num [Target.linux64]
    omega

/-- A list that fills the table is converted. -/
theorem entryPtrs_fit_iff_sample :
    Holds .linux64 (crowdList 512) evrnetNodelistV1 (crowd 0 512 0)
      ∧ (crowd 0 512 0).length = 512
      ∧ ∃ b', Settles (fun k => nodeListToBE .linux64 .spread 0 k (crowdList 512)
        (BitVec.ofNat 64 (crowdList 512).base)) (.ok b') := by
  have hholds := crowdList_holds (n := 512) (by norm_num)
  have hlen : (crowd 0 512 0).length = 512 := by simp [crowd]
  obtain ⟨h, -⟩ := entryPtrs_fit_iff (m := Malloc.spread) 0 hholds (by decide)
  exact ⟨hholds, hlen, h.mpr fun _ => hlen.le⟩

/-- A list of one entry more. -/
def longList : Block := crowdList 513

lemma longList_holds : Holds .linux64 longList evrnetNodelistV1 (crowd 0 513 0) :=
  crowdList_holds le_rfl

/-- The list fits the packet, and yet its entries do not fit the table. -/
theorem longList_overflows :
    (∀ e ∈ crowd 0 513 0, e.WellFormed) ∧ ((crowd 0 513 0).map uuidOf).Nodup
      ∧ Holds .linux64 longList evrnetNodelistV1 (crowd 0 513 0)
      ∧ Target.linux64.netMaxPktKB = 64
      ∧ 8 + total (crowd 0 513 0) + 24 ≤ Target.linux64.netMaxPktKB * 1024
      ∧ ∀ j, Settles (fun k => nodeListToBE .linux64 .spread j k longList
          (BitVec.ofNat 64 longList.base)) (.error .outOfBounds) := by
  refine ⟨fun _ => wellFormed_of_mem_crowd, nodup_crowd (by norm_num), longList_holds, rfl, ?_,
    fun j => ⟨_, fun k hk => longList_holds.nodeListToBE_overflow rfl (by simp [crowd]) (by decide)
      j hk⟩⟩
  rw [total_crowd]
  decide

end EverythingNet
