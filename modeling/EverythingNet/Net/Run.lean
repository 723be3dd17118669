import Mathlib.Tactic
import EverythingNet.Net.Drain

/-!
Runs of `NET_HandleBcast`: the calls, one after the other, each with the queues it finds.

* `Call`: what surrounds one call, `Call.handled` the packets of other nodes that it handles.
* `receiveAll`: the receiving halves of some calls. `receiveAll_spec`: they merge the packets handled
  into the node list, in the order in which they are handled.
* `Delivers t ds cs`: the calls `cs` find the packets `ds`, in any order and any number of times.
  `receive_order`: what a node knows afterwards does not depend on that order.
-/

namespace EverythingNet

open CMem KeyedLog

/-- A call of `NET_HandleBcast`: the queues it finds, the number of known interfaces and what
becomes of what it sends. -/
structure Call where
  bcast : List Item
  mcast : List Item
  ifaces : ℕ
  bcastSend : ℕ → Bool
  mcastSend : Bool

namespace Call

/-- The sockets. -/
def env (c : Call) : Env := sockEnv c.ifaces c.bcastSend c.mcastSend

/-- The items in the queues are what they are said to be. -/
structure Ok (t : Target) (c : Call) : Prop where
  bcast : ∀ i ∈ c.bcast, i.Ok t
  mcast : ∀ i ∈ c.mcast, i.Ok t

/-- The packets of other nodes that the call handles. -/
def handled (t : Target) (uuid : U64 × U64) (c : Call) : List Packet :=
  drain uuid c.ifaces t.multicast c.bcast c.mcast

end Call

/-- The packets of other nodes that some calls handle. -/
def handledBy (t : Target) (uuid : U64 × U64) (cs : List Call) : List Packet :=
  cs.flatMap (Call.handled t uuid)

@[simp] lemma handledBy_append (t : Target) (uuid : U64 × U64) (cs cs' : List Call) :
    handledBy t uuid (cs ++ cs') = handledBy t uuid cs ++ handledBy t uuid cs' :=
  List.flatMap_append

@[simp] lemma handledBy_cons (t : Target) (uuid : U64 × U64) (c : Call) (cs : List Call) :
    handledBy t uuid (c :: cs) = c.handled t uuid ++ handledBy t uuid cs := rfl

@[simp] lemma handledBy_nil (t : Target) (uuid : U64 × U64) : handledBy t uuid [] = [] := rfl

/-- The receiving half of a call. -/
def receiveCall (t : Target) (m : Malloc t.bits) (uuid : U64 × U64) (fuel : ℕ)
    (s : Block × NodeState t.bits) (c : Call) : Except Halt (Block × NodeState t.bits) := do
  let r ← netReceive t m uuid c.env fuel
    ⟨s.1, s.2, c.bcast.map Item.arrival, c.mcast.map Item.arrival⟩
  return (r.msg, r.node)

/-- The receiving halves of some calls. -/
def receiveAll (t : Target) (m : Malloc t.bits) (uuid : U64 × U64) (cs : List Call) (fuel : ℕ)
    (s : Block × NodeState t.bits) : Except Halt (Block × NodeState t.bits) :=
  cs.foldlM (receiveCall t m uuid fuel) s

lemma total_le_of_sublist {K L : List Entry} (h : List.Sublist K L) : total K ≤ total L :=
  (h.map _).sum_le_sum fun _ _ => Nat.zero_le _

lemma total_mergeNew_le (K L : List Entry) :
    total (mergeNew uuidOf K L) ≤ total K + total L := by
  rw [mergeNew_eq_append, total_append]
  exact Nat.add_le_add_left (total_le_of_sublist fresh_sublist) _

section

variable {t : Target} {m : Malloc t.bits} {msg : Block} {node : NodeState t.bits} {v : U32}
  {K : List Entry} {c : Call} {cs cs' : List Call} {ds : List Packet}

/-- One call. -/
lemma netReceive_call (uuid : U64 × U64) (hc : c.Ok t) (hm : Buffer t msg)
    (hK : Holds t node.nodeList v K) (hne : K ≠ [])
    (hroom : Room m K (entriesOf (c.handled t uuid))) :
    ∃ s, Settles (fun k => netReceive t m uuid c.env k
          ⟨msg, node, c.bcast.map Item.arrival, c.mcast.map Item.arrival⟩) (.ok s)
      ∧ Buffer t s.msg
      ∧ Holds t s.node.nodeList v (mergeNew uuidOf K (entriesOf (c.handled t uuid))) := by
  obtain ⟨s, hloop, hbuf, hholds, -⟩ := netReceive_drain uuid c.ifaces c.bcastSend c.mcastSend
    c.bcast c.mcast hc.bcast hc.mcast hm hK hne hroom
  exact ⟨s, hloop.settles, hbuf, hholds⟩

/-- The calls merge the packets that they handle. -/
lemma receiveAll_spec (uuid : U64 × U64) (hcs : ∀ c ∈ cs, c.Ok t) (hm : Buffer t msg)
    (hK : Holds t node.nodeList v K) (hne : K ≠ [])
    (hroom : Room m K (entriesOf (handledBy t uuid cs))) :
    ∃ s, Settles (fun k => receiveAll t m uuid cs k (msg, node)) (.ok s)
      ∧ Buffer t s.1
      ∧ Holds t s.2.nodeList v (mergeNew uuidOf K (entriesOf (handledBy t uuid cs))) := by
  let I : List Call → Block × NodeState t.bits → Prop := fun pre s => Buffer t s.1
    ∧ Holds t s.2.nodeList v (mergeNew uuidOf K (entriesOf (handledBy t uuid pre)))
  refine Settles.run_all (I := I) ⟨hm, hK⟩ ?_
  rintro pre c post s rfl - ⟨hm', hK'⟩
  have hsplit : entriesOf (handledBy t uuid (pre ++ [c]))
      = entriesOf (handledBy t uuid pre) ++ entriesOf (c.handled t uuid) := by simp
  have hroom' : Room m K (entriesOf (handledBy t uuid (pre ++ [c]))) := by
    refine Room.of_append (M := entriesOf (handledBy t uuid post)) ?_
    rw [← entriesOf_append, ← handledBy_append, List.append_assoc, List.singleton_append]
    exact hroom
  obtain ⟨s', hs', hbuf, hholds⟩ := netReceive_call (m := m) uuid (hcs c (by simp)) hm' hK'
    (mergeNew_ne_nil hne) (room_mergeNew.mpr (hsplit ▸ hroom'))
  refine ⟨(s'.msg, s'.node), hs'.map _, hbuf, ?_⟩
  rw [hsplit, mergeNew_append]
  exact hholds

/-! ### Packets in any order -/

lemma mem_others {uuid : U64 × U64} {q : List Item} {d : Packet} :
    d ∈ others uuid q ↔ (∃ errno, .packet d errno ∈ q) ∧ d.uuid ≠ uuid := by
  rw [others, List.mem_filterMap]
  constructor
  · rintro ⟨i, hi, hid⟩
    cases i with
    | packet d' errno =>
        dsimp only at hid
        split_ifs at hid with hown
        obtain rfl : d' = d := Option.some.inj hid
        exact ⟨⟨errno, hi⟩, hown⟩
    | junk bytes errno => simp at hid
    | empty errno => simp at hid
    | failure errno => simp at hid
  · rintro ⟨⟨errno, hi⟩, hown⟩
    exact ⟨_, hi, if_neg hown⟩

/-- From queues that hold nothing but packets of other nodes a call takes everything. -/
lemma drain_packets {uuid : U64 × U64} {n : ℕ} {mc : Bool} {bq mq : List Item} (hn : 0 < n)
    (hbq : ∀ i ∈ bq, ∃ d errno, i = .packet d errno ∧ d.uuid ≠ uuid)
    (hmq : ∀ i ∈ mq, ∃ d errno, i = .packet d errno ∧ d.uuid ≠ uuid) (hmc : mc = false → mq = []) :
    drain uuid n mc bq mq = others uuid bq ++ others uuid mq := by
  obtain ⟨n, rfl⟩ := Nat.exists_eq_add_of_le' hn
  induction bq with
  | cons i bq ih =>
      obtain ⟨d, errno, rfl, hother⟩ := hbq i (List.mem_cons_self ..)
      have hnext : nextPacket (n + 1) mc (.packet d errno :: bq) mq = (some d, bq, mq) := rfl
      rw [drain_other hnext hother, ih fun i hi => hbq i (List.mem_cons_of_mem _ hi)]
      simp [others, hother]
  | nil =>
      induction mq with
      | nil =>
          have hnext : nextPacket (n + 1) mc [] [] = (none, [], []) := by cases mc <;> rfl
          rw [drain_none hnext]
          rfl
      | cons i mq ih =>
          obtain ⟨d, errno, rfl, hother⟩ := hmq i (List.mem_cons_self ..)
          cases mc with
          | false => exact absurd (hmc rfl) (List.cons_ne_nil _ _)
          | true =>
              have hnext : nextPacket (n + 1) true [] (.packet d errno :: mq) = (some d, [], mq) :=
                rfl
              rw [drain_other hnext hother, ih (fun i hi => hmq i (List.mem_cons_of_mem _ hi))
                (by simp)]
              simp [others, hother]

/-- The calls find the packets `ds`, each at least once, in any order, on either socket, and
nothing else. -/
structure Delivers (t : Target) (ds : List Packet) (cs : List Call) : Prop where
  only : ∀ c ∈ cs, ∀ i ∈ c.bcast ++ c.mcast, ∃ d ∈ ds, ∃ errno, i = .packet d errno
  all : ∀ d ∈ ds, ∃ c ∈ cs, ∃ errno, .packet d errno ∈ c.bcast ++ c.mcast
  ifaces : ∀ c ∈ cs, 0 < c.ifaces
  mcast : t.multicast = false → ∀ c ∈ cs, c.mcast = []

namespace Delivers

variable {uuid : U64 × U64}

lemma ok (h : Delivers t ds cs) (hds : ∀ d ∈ ds, d.Fits t ∧ d.WellFormed ∧ d.uuid ≠ uuid) :
    ∀ c ∈ cs, c.Ok t := by
  intro c hc
  have hall : ∀ i ∈ c.bcast ++ c.mcast, i.Ok t := by
    intro i hi
    obtain ⟨d, hd, errno, rfl⟩ := h.only c hc i hi
    exact ⟨(hds d hd).1, (hds d hd).2.1⟩
  exact ⟨fun i hi => hall i (List.mem_append_left _ hi),
    fun i hi => hall i (List.mem_append_right _ hi)⟩

/-- Just the packets `ds` are handled. -/
lemma mem_handledBy (h : Delivers t ds cs)
    (hds : ∀ d ∈ ds, d.Fits t ∧ d.WellFormed ∧ d.uuid ≠ uuid) {d : Packet} :
    d ∈ handledBy t uuid cs ↔ d ∈ ds := by
  have hitems : ∀ c ∈ cs, ∀ i ∈ c.bcast ++ c.mcast,
      ∃ d errno, i = .packet d errno ∧ d.uuid ≠ uuid := by
    intro c hc i hi
    obtain ⟨d, hd, errno, rfl⟩ := h.only c hc i hi
    exact ⟨d, errno, rfl, (hds d hd).2.2⟩
  have hdrain : ∀ c ∈ cs, c.handled t uuid = others uuid c.bcast ++ others uuid c.mcast :=
    fun c hc => drain_packets (h.ifaces c hc)
      (fun i hi => hitems c hc i (List.mem_append_left _ hi))
      (fun i hi => hitems c hc i (List.mem_append_right _ hi)) fun hmc => h.mcast hmc c hc
  rw [handledBy, List.mem_flatMap]
  constructor
  · rintro ⟨c, hc, hd⟩
    rw [hdrain c hc, List.mem_append, mem_others, mem_others] at hd
    obtain ⟨errno, hi⟩ : ∃ errno, Item.packet d errno ∈ c.bcast ++ c.mcast := by
      rcases hd with ⟨⟨errno, hi⟩, -⟩ | ⟨⟨errno, hi⟩, -⟩
      · exact ⟨errno, List.mem_append_left _ hi⟩
      · exact ⟨errno, List.mem_append_right _ hi⟩
    obtain ⟨d', hd', errno', heq⟩ := h.only c hc _ hi
    obtain ⟨rfl, -⟩ := Item.packet.inj heq
    exact hd'
  · intro hd
    obtain ⟨c, hc, errno, hi⟩ := h.all d hd
    refine ⟨c, hc, ?_⟩
    rw [hdrain c hc, List.mem_append, mem_others, mem_others]
    rcases List.mem_append.mp hi with hi | hi
    · exact Or.inl ⟨⟨errno, hi⟩, (hds d hd).2.2⟩
    · exact Or.inr ⟨⟨errno, hi⟩, (hds d hd).2.2⟩

lemma mem_entriesOf (h : Delivers t ds cs)
    (hds : ∀ d ∈ ds, d.Fits t ∧ d.WellFormed ∧ d.uuid ≠ uuid) {e : Entry} :
    e ∈ entriesOf (handledBy t uuid cs) ↔ e ∈ entriesOf ds := by
  simp only [entriesOf, List.mem_flatMap, h.mem_handledBy hds]

end Delivers

/-- What a node knows after some packets are the UUIDs it knew and those of the packets, for every
order in which they come. If the entries with one UUID are all the same, the lists after two orders
differ in the order of the new entries only. -/
theorem receive_order (uuid : U64 × U64)
    (hds : ∀ d ∈ ds, d.Fits t ∧ d.WellFormed ∧ d.uuid ≠ uuid) (hm : Buffer t msg)
    (hK : Holds t node.nodeList v K) (hne : K ≠ [])
    (hcs : Delivers t ds cs) (hroom : Room m K (entriesOf (handledBy t uuid cs)))
    (hcs' : Delivers t ds cs') (hroom' : Room m K (entriesOf (handledBy t uuid cs'))) :
    ∃ s s' K₁ K₂, Settles (fun k => receiveAll t m uuid cs k (msg, node)) (.ok s)
      ∧ Settles (fun k => receiveAll t m uuid cs' k (msg, node)) (.ok s')
      ∧ Holds t s.2.nodeList v K₁ ∧ Holds t s'.2.nodeList v K₂
      ∧ (∀ u, u ∈ K₁.map uuidOf ↔ u ∈ K.map uuidOf ∨ u ∈ (entriesOf ds).map uuidOf)
      ∧ (∀ u, u ∈ K₂.map uuidOf ↔ u ∈ K.map uuidOf ∨ u ∈ (entriesOf ds).map uuidOf)
      ∧ ((∀ e ∈ K ++ entriesOf ds, ∀ f ∈ K ++ entriesOf ds, e.uuid = f.uuid →
          e.bytes t.endian = f.bytes t.endian) → K₁.Perm K₂ ∧ K <+: K₁ ∧ K <+: K₂) := by
  obtain ⟨s, hs, -, hholds⟩ := receiveAll_spec uuid (hcs.ok hds) hm hK hne hroom
  obtain ⟨s', hs', -, hholds'⟩ := receiveAll_spec uuid (hcs'.ok hds) hm hK hne hroom'
  have hkeys : ∀ {cs : List Call}, Delivers t ds cs → ∀ u,
      u ∈ (mergeNew uuidOf K (entriesOf (handledBy t uuid cs))).map uuidOf
        ↔ u ∈ K.map uuidOf ∨ u ∈ (entriesOf ds).map uuidOf := by
    intro cs hcs u
    rw [mem_keys_mergeNew]
    simp only [List.mem_map, hcs.mem_entriesOf hds]
  refine ⟨s, s', _, _, hs, hs', hholds, hholds', hkeys hcs, hkeys hcs', fun hagree => ?_⟩
  have hsound : ∀ e ∈ K ++ entriesOf ds, e.Sound := by
    intro e he
    rcases List.mem_append.mp he with he | he
    · exact hK.sound e he
    · obtain ⟨d, hd, he⟩ := List.mem_flatMap.mp he
      exact ((hds d hd).2.1 e he).sound
  have hmem : ∀ e, e ∈ K ++ entriesOf (handledBy t uuid cs) → e ∈ K ++ entriesOf ds := by
    intro e he
    rwa [List.mem_append, hcs.mem_entriesOf hds, ← List.mem_append] at he
  have hagree' : Agree uuidOf (K ++ entriesOf (handledBy t uuid cs)) := fun e he f hf huuid =>
    Entry.eq_of_bytes (hsound e (hmem e he)) (hsound f (hmem f hf))
      (hagree e (hmem e he) f (hmem f hf) huuid)
  refine ⟨perm_mergeNew hagree' fun e => ?_, prefix_mergeNew, prefix_mergeNew⟩
  rw [hcs.mem_entriesOf hds, hcs'.mem_entriesOf hds]

end

/-- The packet of a second node that the sample node does not know yet. -/
def second : Packet := announce (1, 0) evrnetNodelistV1 (crowd 1 1 0)

/-- A call that finds some packets on its broadcast socket. -/
def find (ds : List Packet) : Call := ⟨ds.map (.packet · .again), [], 1, fun _ => true, true⟩

lemma find_delivers {ds : List Packet} (dss : List (List Packet))
    (h : ∀ d, d ∈ ds ↔ ∃ l ∈ dss, d ∈ l) : Delivers .linux64 ds (dss.map find) where
  only c hc i hi := by
    obtain ⟨l, hl, rfl⟩ := List.mem_map.mp hc
    obtain ⟨d, hd, rfl⟩ : ∃ d ∈ l, Item.packet d .again = i := by simpa [find] using hi
    exact ⟨d, (h d).mpr ⟨l, hl, hd⟩, .again, rfl⟩
  all d hd := by
    obtain ⟨l, hl, hd⟩ := (h d).mp hd
    exact ⟨find l, List.mem_map_of_mem hl, .again, by simp [find, hd]⟩
  ifaces c hc := by
    obtain ⟨l, -, rfl⟩ := List.mem_map.mp hc
    exact Nat.one_pos
  mcast hmc := absurd hmc (by decide)

lemma sample_packets : ∀ d ∈ [greeting, second],
    d.Fits .linux64 ∧ d.WellFormed ∧ d.uuid ≠ (0, 0) := by
  have hgreeting := greeting_ok .again
  have hsecond : second.Fits .linux64 := by
    simp [Packet.Fits, second, announce, total_crowd, Target.bufSize, Target.linux64]
  intro d hd
  rcases List.mem_cons.mp hd with rfl | hd
  · exact ⟨hgreeting.1, hgreeting.2, by simp [greeting, announce]⟩
  · obtain rfl := List.mem_singleton.mp hd
    exact ⟨hsecond, fun _ => wellFormed_of_mem_crowd, by simp [second, announce]⟩

/-- A call takes everything it finds. -/
lemma find_handled {uuid : U64 × U64} {ds : List Packet}
    (h : ∀ d ∈ ds, d.Fits .linux64 ∧ d.WellFormed ∧ d.uuid ≠ uuid) :
    (find ds).handled .linux64 uuid = ds := by
  have hfound : ∀ i ∈ (find ds).bcast, ∃ d errno, i = .packet d errno ∧ d.uuid ≠ uuid := by
    intro i hi
    obtain ⟨d, hd, rfl⟩ := List.mem_map.mp hi
    exact ⟨d, .again, rfl, (h d hd).2.2⟩
  calc (find ds).handled .linux64 uuid = others uuid (find ds).bcast ++ others uuid (find ds).mcast :=
        drain_packets (show 0 < (find ds).ifaces from Nat.one_pos) hfound
          (fun i hi => absurd hi List.not_mem_nil) fun _ => rfl
    _ = ds.filterMap fun d => if d.uuid = uuid then none else some d := by
        rw [find, others, others, List.filterMap_map, List.filterMap_nil, List.append_nil]
        rfl
    _ = ds.filterMap some := List.filterMap_congr fun d hd => if_neg (h d hd).2.2
    _ = ds := List.filterMap_some

theorem receive_order_sample :
    ∃ s s' K₁ K₂, Settles (fun k => receiveAll .linux64 .spread (0, 0)
          ([[greeting, second]].map find) k (zeroed .linux64 4096, sampleNode)) (.ok s)
      ∧ Settles (fun k => receiveAll .linux64 .spread (0, 0)
          ([[second], [greeting, second]].map find) k (zeroed .linux64 4096, sampleNode)) (.ok s')
      ∧ Holds .linux64 s.2.nodeList evrnetNodelistV1 K₁
      ∧ Holds .linux64 s'.2.nodeList evrnetNodelistV1 K₂
      ∧ ∀ u, u ∈ K₁.map uuidOf ↔ u ∈ K₂.map uuidOf := by
  have hroom : ∀ dss : List (List Packet), (∀ l ∈ dss, ∀ d ∈ l, d ∈ [greeting, second]) →
      dss.flatten.length ≤ 3 →
      Room (w := 64) .spread (crowd 0 1 0)
        (entriesOf (handledBy .linux64 (0, 0) (dss.map find))) := by
    intro dss hdss hlen
    have hhandled : handledBy .linux64 (0, 0) (dss.map find) = dss.flatten := by
      rw [handledBy, List.flatMap_map, List.flatten_eq_flatMap]
      exact List.flatMap_congr fun l hl =>
        find_handled fun d hd => sample_packets d (hdss l hl d hd)
    have htotal : ∀ ds : List Packet, (∀ d ∈ ds, d ∈ [greeting, second]) →
        total (entriesOf ds) ≤ 48 * ds.length := by
      intro ds hds
      induction ds with
      | nil => simp [entriesOf]
      | cons d ds ih =>
          have hd : total d.entries = 48 := by
            rcases List.mem_cons.mp (hds d (List.mem_cons_self ..)) with rfl | h
            · simp [greeting, announce, newcomer, total_crowd]
            · obtain rfl := List.mem_singleton.mp h
              simp [second, announce, total_crowd]
          have := ih fun d' hd' => hds d' (List.mem_cons_of_mem _ hd')
          rw [entriesOf] at this
          rw [entriesOf, List.flatMap_cons, total_append, hd, List.length_cons]
          omega
    have hle := total_mergeNew_le (crowd 0 1 0) (entriesOf dss.flatten)
    have hK : total (crowd 0 1 0) = 48 := by simp [total_crowd]
    have := htotal dss.flatten fun d hd => by
      obtain ⟨l, hl, hd⟩ := List.mem_flatten.mp hd
      exact hdss l hl d hd
    rw [hhandled]
    exact ⟨by omega, by simp only [Malloc.spread]; omega⟩
  obtain ⟨s, s', K₁, K₂, hs, hs', hholds, hholds', h₁, h₂, -⟩ := receive_order (m := .spread) (0, 0)
    sample_packets zeroed_linux64 sampleNode_holds (by simp [crowd])
    (find_delivers [[greeting, second]] (by simp)) (hroom _ (by simp) (by simp))
    (find_delivers [[second], [greeting, second]] (by simp))
    (hroom _ (by simp) (by simp))
  exact ⟨s, s', K₁, K₂, hs, hs', hholds, hholds', fun u => (h₁ u).trans (h₂ u).symm⟩

/-- The greeting cannot be taken in: the call that finds it halts. -/
lemma greeting_halts {K : List Entry} {x : Halt} (hx : x ≠ .outOfFuel)
    (hadd : ∀ (msg : Block) (p : BitVec 64) (e : Entry), e ∈ newcomer → Sits .le msg p e →
      ∃ k, nodeMaybeAddEntry .linux64 .spread k msg p
        ⟨sampleList K, .broadcast, none, 3, []⟩ = .error x) :
    Settles (fun k => receiveAll .linux64 .spread (0, 0) [find [greeting]] k
      (zeroed .linux64 4096, ⟨sampleList K, .unset, none, 3, []⟩)) (.error x) := by
  have hfits := (greeting_ok .again).1
  have hrecv := received_receives zeroed_linux64 hfits
  have hsound : ∀ e ∈ newcomer, e.Sound := fun e he => (wellFormed_of_mem_crowd he).sound
  have hcarries : Carries .linux64 .be _ _ _ newcomer _ := hrecv.carries .le .be
  have hwalk := @nodeCheckForNewNodes_first .linux64 .spread
    ⟨sampleList K, .broadcast, none, 3, []⟩ _ _ _ _ _ _ x hcarries hsound hx
    fun p hp => hadd _ p _ (List.mem_cons_self ..) hp
  have hother : greeting.uuid ≠ (0, 0) := (sample_packets greeting (by simp)).2.2
  have hmsg := @netHandleMsg_halt .linux64 .spread (0, 0) _ _ _
    ⟨sampleList K, .broadcast, none, 3, []⟩ x hrecv hother hwalk
  have hloop : LoopSettles (recvStep .linux64 .spread (0, 0) (find [greeting]).env)
      ⟨zeroed .linux64 4096, ⟨sampleList K, .unset, none, 3, []⟩,
        [.datagram greeting.bytes .again], []⟩ (.error x) := by
    refine LoopSettles.halt ?_
    obtain ⟨N, hN⟩ := hmsg
    refine ⟨N, fun k hk => ?_⟩
    dsimp only [recvStep]
    rw [show (find [greeting]).env.knownIfaces = 0 + 1 from rfl,
      bcast_packet zeroed_linux64 hfits rfl, ok_bind, if_pos rfl]
    exact bind_of_error (hN k hk) _
  obtain ⟨N, hN⟩ := hloop.settles
  exact ⟨N, fun k hk => bind_of_error (bind_of_error (hN k hk) _) _⟩

lemma greeting_empty : Settles (fun k => receiveAll .linux64 .spread (0, 0) [find [greeting]] k
    (zeroed .linux64 4096, ⟨sampleList [], .unset, none, 3, []⟩)) (.error .uninitialised) := by
  have hempty := sampleList_holds (K := []) (by simp) (by norm_num [total_nil])
  exact greeting_halts (by simp) fun msg p _ _ hsits =>
    ⟨1, nodeMaybeAddEntry_empty ⟨sampleList [], .broadcast, none, 3, []⟩ hempty hsits Nat.one_pos⟩

lemma greeting_wrap {K : List Entry} (hK : ∀ e ∈ K, e.WellFormed) (htot : total K = 4294967280)
    (hnew : ∀ e ∈ newcomer, e.uuid ∉ K.map uuidOf) :
    Settles (fun k => receiveAll .linux64 .spread (0, 0) [find [greeting]] k
      (zeroed .linux64 4096, ⟨sampleList K, .unset, none, 3, []⟩)) (.error .outOfBounds) := by
  have hne : K ≠ [] := by
    rintro rfl
    simp at htot
  have hholds := sampleList_holds hK (by rw [htot]; norm_num)
  refine greeting_halts (by simp) fun msg p e he hsits => ⟨K.length + 1, ?_⟩
  refine nodeMaybeAddEntry_wrap ⟨sampleList K, .broadcast, none, 3, []⟩ hholds hsits hne
    (Nat.lt_add_one _) (hnew e he) ?_ ?_
  · rw [htot, newcomer_length he]
    norm_num
  · rw [htot, newcomer_length he]
    norm_num [Malloc.spread]

/-- Two lists with which a node does not get to know what a well-formed packet tells: the empty one,
and one of almost `2 ^ 32` bytes. -/
theorem receive_order_halts :
    (∀ d ∈ [greeting], d.Fits .linux64 ∧ d.WellFormed ∧ d.uuid ≠ (0, 0))
    ∧ Delivers .linux64 [greeting] [find [greeting]]
    ∧ (Holds .linux64 (sampleList []) evrnetNodelistV1 []
      ∧ Settles (fun k => receiveAll .linux64 .spread (0, 0) [find [greeting]] k
          (zeroed .linux64 4096, ⟨sampleList [], .unset, none, 3, []⟩)) (.error .uninitialised))
    ∧ (Holds .linux64 (sampleList full) evrnetNodelistV1 full
      ∧ (∀ e ∈ full, e.WellFormed) ∧ (full.map uuidOf).Nodup
      ∧ Settles (fun k => receiveAll .linux64 .spread (0, 0) [find [greeting]] k
          (zeroed .linux64 4096, ⟨sampleList full, .unset, none, 3, []⟩))
        (.error .outOfBounds)) := by
  refine ⟨fun d hd => sample_packets d (by simp_all), find_delivers [[greeting]] (by simp),
    ⟨?_, greeting_empty⟩, ?_, full_wellFormed, nodup_crowd (by norm_num),
    greeting_wrap full_wellFormed total_full newcomer_new⟩
  · exact sampleList_holds (by simp) (by norm_num [total_nil])
  · exact sampleList_holds full_wellFormed (by rw [total_full]; norm_num)

end EverythingNet
