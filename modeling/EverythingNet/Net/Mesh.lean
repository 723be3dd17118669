import Mathlib.Tactic
import EverythingNet.Lib.Gossip
import EverythingNet.Net.Capacity

/-!
A mesh: nodes on machines of all kinds that send each other their node lists.

* `Mesh`: the nodes. `MeshState`: their memory, and the datagrams with the network, each as a
  `Letter` that remembers whose list it carries. `MeshState.Sends` and `MeshState.Gets`: the sending
  and the receiving half of `NET_HandleBcast` at one node. A datagram that has been sent may be
  received by anybody, at any time, any number of times or never.
* `Sim`: the memory of the nodes holds the logs of a gossip. `Sim.sends` and `Sim.gets`: what a node
  does is a step of that gossip.
* `mesh_safety`: what holds in every state of a mesh.
-/

namespace EverythingNet

open CMem KeyedLog Relation

variable {ι : Type} [DecidableEq ι]

/-! ### The code in a mesh -/

/-- The nodes of a mesh: their machines, and what each knows of itself. -/
structure Mesh (ι : Type) where
  target : ι → Target
  malloc : ∀ x, Malloc (target x).bits
  info : ι → LocalInfo
  distinct : Function.Injective fun x => (info x).uuid
  served : ∀ x, Served (target x) (malloc x)

/-- A datagram with the network, who sent it, and the node list of the sender at that time. -/
structure Letter (ι : Type) where
  sender : ι
  list : Block
  data : List Byte

/-- The message buffers and the node states, and the datagrams with the network. -/
structure MeshState (M : Mesh ι) where
  peer : ∀ x, Block × NodeState (M.target x).bits
  soup : List (Letter ι)

/-- The socket at which a datagram arrives. -/
inductive Route where
  | broadcast
  | multicast

/-- The queues of both sockets when something has arrived. -/
def Route.queues {β : Type} (a : β) : Route → List β × List β
  | broadcast => ([a], [])
  | multicast => ([], [a])

namespace MeshState

variable {M : Mesh ι}

/-- All nodes are at their start, and nothing has been sent. -/
structure Started (s : MeshState M) : Prop where
  peer : ∀ x, ∃ st, netStart (M.target x) (M.malloc x) (M.info x).toLocalFields = .ok st
    ∧ s.peer x = (st.msg, st.node)
  soup : s.soup = []

/-- The node `x` sends its list: the sending half of `NET_HandleBcast`. -/
def Sends (s : MeshState M) (x : ι) (s' : MeshState M) : Prop :=
  ∃ env msg node sent,
    Settles (fun k => netSend (M.target x) (M.malloc x) (M.info x).uuid env k (s.peer x).1
      (s.peer x).2) (.ok (msg, node, sent))
    ∧ s' = ⟨Function.update s.peer x (msg, node),
        sent.map (fun a => ⟨x, (s.peer x).2.nodeList, a.bytes⟩) ++ s.soup⟩

/-- The node `y` receives a datagram that fits its message buffer: the receiving half of
`NET_HandleBcast`. -/
def Gets (s : MeshState M) (l : Letter ι) (y : ι) (s' : MeshState M) : Prop :=
  l ∈ s.soup ∧ l.data.length ≤ (M.target y).bufSize
  ∧ ∃ route errno n bs ms r,
    (route = Route.multicast → (M.target y).multicast = true)
    ∧ Settles (fun k => netReceive (M.target y) (M.malloc y) (M.info y).uuid
        (sockEnv (n + 1) bs ms) k ⟨(s.peer y).1, (s.peer y).2,
          (route.queues (Arrival.datagram l.data errno)).1,
          (route.queues (Arrival.datagram l.data errno)).2⟩) (.ok r)
    ∧ s' = ⟨Function.update s.peer y (r.msg, r.node), s.soup⟩

/-- A step of the mesh. -/
inductive Step : MeshState M → MeshState M → Prop where
  | sends {s s' : MeshState M} (x : ι) (h : s.Sends x s') : Step s s'
  | gets {s s' : MeshState M} (l : Letter ι) (y : ι) (h : s.Gets l y s') : Step s s'

/-- The node list of `x` has these entries. -/
def Knows (s : MeshState M) (x : ι) (K : List Entry) : Prop :=
  Holds (M.target x) (s.peer x).2.nodeList evrnetNodelistV1 K

end MeshState

/-! ### One datagram -/

section

variable {t : Target} {m : Malloc t.bits} {uuid : U64 × U64} {n : ℕ} {bs : ℕ → Bool} {ms : Bool}
  {msg : Block} {node : NodeState t.bits} {v : U32} {K : List Entry} {d : Packet} {route : Route}
  {errno : Errno}

/-- Of a single packet the call gets to hear, unless it is its own. -/
lemma drain_route (hroute : route = .multicast → t.multicast = true) :
    drain uuid (n + 1) t.multicast (route.queues (Item.packet d errno)).1
        (route.queues (Item.packet d errno)).2
      = if d.uuid = uuid then [] else [d] := by
  have hnext : nextPacket (n + 1) t.multicast (route.queues (Item.packet d errno)).1
      (route.queues (Item.packet d errno)).2 = (some d, [], []) := by
    cases route with
    | broadcast => rfl
    | multicast =>
        rw [hroute rfl]
        rfl
  have hend : nextPacket (n + 1) t.multicast [] [] = (none, [], []) := by
    cases t.multicast <;> rfl
  have hnone : drain uuid (n + 1) t.multicast [] [] = [] := drain_none hend
  split_ifs with hown
  · exact drain_own hnext hown
  · rw [drain_other hnext hown, hnone]

variable (route) in
/-- What a node makes of a packet: it merges the entries, if it is not its own and there is room,
and halts if there is none. -/
lemma netReceive_route (uuid : U64 × U64) (n : ℕ) (bs : ℕ → Bool) (ms : Bool) (errno : Errno)
    (hroute : route = .multicast → t.multicast = true) (hm : Buffer t msg)
    (hK : Holds t node.nodeList v K) (hne : K ≠ []) (hlim : 8 + total K ≤ m.limit) (hd : d.Fits t)
    (hw : d.WellFormed) :
    (Room m K (if d.uuid = uuid then [] else d.entries)
        ∧ ∃ r, Settles (fun k => netReceive t m uuid (sockEnv (n + 1) bs ms) k ⟨msg, node,
            (route.queues (Arrival.datagram d.bytes errno)).1,
            (route.queues (Arrival.datagram d.bytes errno)).2⟩) (.ok r)
          ∧ Buffer t r.msg
          ∧ Holds t r.node.nodeList v (mergeNew uuidOf K (if d.uuid = uuid then [] else d.entries)))
      ∨ (¬ Room m K (if d.uuid = uuid then [] else d.entries)
        ∧ ∃ x, Settles (fun k => netReceive t m uuid (sockEnv (n + 1) bs ms) k ⟨msg, node,
            (route.queues (Arrival.datagram d.bytes errno)).1,
            (route.queues (Arrival.datagram d.bytes errno)).2⟩) (.error x)) := by
  have hitem : (Item.packet d errno).Ok t := ⟨hd, hw⟩
  have hbq : ∀ i ∈ (route.queues (Item.packet d errno)).1, i.Ok t := by
    cases route <;> simp [Route.queues, hitem]
  have hmq : ∀ i ∈ (route.queues (Item.packet d errno)).2, i.Ok t := by
    cases route <;> simp [Route.queues, hitem]
  have hqueues : (route.queues (Arrival.datagram d.bytes errno)).1
        = (route.queues (Item.packet d errno)).1.map Item.arrival
      ∧ (route.queues (Arrival.datagram d.bytes errno)).2
        = (route.queues (Item.packet d errno)).2.map Item.arrival := by
    cases route <;> exact ⟨rfl, rfl⟩
  have hentries : entriesOf (drain uuid (n + 1) t.multicast
        (route.queues (Item.packet d errno)).1 (route.queues (Item.packet d errno)).2)
      = if d.uuid = uuid then [] else d.entries := by
    rw [drain_route hroute]
    split_ifs <;> simp
  rw [hqueues.1, hqueues.2, ← hentries]
  by_cases hroom : Room m K (entriesOf (drain uuid (n + 1) t.multicast
      (route.queues (Item.packet d errno)).1 (route.queues (Item.packet d errno)).2))
  · obtain ⟨r, hloop, hbuf, hholds, -⟩ := netReceive_drain uuid (n + 1) bs ms _ _ hbq hmq hm hK
      hne hroom
    exact Or.inl ⟨hroom, r, hloop.settles, hbuf, hholds⟩
  · obtain ⟨x, hloop⟩ := netReceive_full uuid (n + 1) bs ms _ _ hbq hmq hm hK hne hlim hroom
    exact Or.inr ⟨hroom, x, hloop.settles⟩

end

/-! ### The simulation -/

/-- The entry with which a node starts. -/
abbrev Mesh.own (M : Mesh ι) (x : ι) : Entry := (M.info x).entry

/-- The memory of the nodes holds the logs of a gossip, and the datagrams its messages. -/
structure Sim {M : Mesh ι} (s : MeshState M) (g : Gossip.Net ι Entry) : Prop where
  msg : ∀ x, Buffer (M.target x) (s.peer x).1
  knows : ∀ x, s.Knows x (g.log x)
  limit : ∀ x, 8 + total (g.log x) ≤ (M.malloc x).limit
  letters : ∀ l ∈ s.soup, ∃ L, (l.sender, L) ∈ g.soup
    ∧ Holds (M.target l.sender) l.list evrnetNodelistV1 L
    ∧ l.data = (announce (M.info l.sender).uuid evrnetNodelistV1 L).bytes

section

variable {M : Mesh ι} {s s' : MeshState M} {g : Gossip.Net ι Entry}

omit [DecidableEq ι] in
lemma Sim.start (h : s.Started) : Sim s (Gossip.start M.own) := by
  have hpeer : ∀ x, Buffer (M.target x) (s.peer x).1 ∧ s.Knows x [M.own x] := by
    intro x
    obtain ⟨st, hst, hs⟩ := h.peer x
    obtain ⟨st', hst', hbuf, hholds, -⟩ := netStart_spec (M.served x) (M.info x)
    obtain rfl : st' = st := Except.ok.inj (hst'.symm.trans hst)
    rw [MeshState.Knows, hs]
    exact ⟨hbuf, hholds⟩
  refine ⟨fun x => (hpeer x).1, fun x => (hpeer x).2, fun x => ?_, fun l hl => ?_⟩
  · have hlen : (M.own x).length ≤ 4096 := (M.info x).fits
    have hlim := (M.served x).list
    have htotal : total ((Gossip.start M.own).log x) = (M.own x).length := by
      rw [Gossip.start, total_cons, total_nil, Nat.add_zero]
    rw [htotal]
    omega
  · rw [h.soup] at hl
    exact absurd hl List.not_mem_nil

omit [DecidableEq ι] in
lemma Sim.wellFormed (hinv : Gossip.Inv uuidOf M.own g) {x : ι} {L : List Entry}
    (hL : (x, L) ∈ g.soup) : ∀ e ∈ L, e.WellFormed := by
  intro e he
  obtain ⟨y, rfl⟩ := hinv.owned x e ((hinv.letters x L hL).2.subset he)
  exact LocalInfo.entry_wellFormed _

omit [DecidableEq ι] in
lemma Sim.ne_nil (hinv : Gossip.Inv uuidOf M.own g) (x : ι) : g.log x ≠ [] := by
  intro h
  have hfirst := hinv.first x
  rw [h] at hfirst
  exact absurd (List.prefix_nil.mp hfirst) (List.cons_ne_nil _ _)

/-- What a node sends is its log. -/
lemma Sim.sends (h : Sim s g) {x : ι} (hs : s.Sends x s') :
    Sim s' ⟨g.log, (x, g.log x) :: g.soup⟩ := by
  obtain ⟨env, msg, node, sent, hsend, rfl⟩ := hs
  have hK : Holds (M.target x) (s.peer x).2.nodeList evrnetNodelistV1 (g.log x) := h.knows x
  have hcap : Sendable (M.target x) (g.log x) := by
    by_contra hcap
    have hover := netSend_overflow (M.info x).uuid env (h.msg x) hK
      (M.served x).table hcap
    exact absurd (hsend.unique hover) (by simp)
  obtain ⟨msg', hrecv, hok⟩ := netSend_spec (M.info x).uuid env (h.msg x) hK hcap
    (M.served x).table (Nat.lt_succ_self _)
  have hok' := (netSend_steady _ _ (M.info x).uuid env _ _).settles hok (by simp)
  obtain ⟨rfl, hrest⟩ := Prod.mk.inj (Except.ok.inj (hsend.unique hok'))
  obtain ⟨rfl, rfl⟩ := Prod.mk.inj hrest
  refine ⟨fun y => ?_, fun y => ?_, h.limit, fun l hl => ?_⟩
  · by_cases hy : y = x
    · subst hy
      simpa using hrecv.buffer
    · simpa [Function.update_of_ne hy] using h.msg y
  · by_cases hy : y = x
    · subst hy
      simpa [MeshState.Knows] using hK
    · simpa [MeshState.Knows, Function.update_of_ne hy] using h.knows y
  · rcases List.mem_append.mp hl with hl | hl
    · obtain ⟨a, ha, rfl⟩ := List.mem_map.mp hl
      exact ⟨g.log x, List.mem_cons_self .., hK, bytes_of_mem_sentOf ha⟩
    · obtain ⟨L, hL, hrest⟩ := h.letters l hl
      exact ⟨L, List.mem_cons_of_mem _ hL, hrest⟩

omit [DecidableEq ι] in
/-- The sender is known by its UUID. -/
lemma Mesh.uuid_eq_iff (M : Mesh ι) {x y : ι} : (M.info x).uuid = (M.info y).uuid ↔ x = y :=
  M.distinct.eq_iff

/-- The entries that a node takes from a message are those of the gossip. -/
lemma Mesh.hear_eq (M : Mesh ι) (x y : ι) (K L : List Entry) :
    mergeNew uuidOf K (if (announce (M.info x).uuid evrnetNodelistV1 L).uuid = (M.info y).uuid
        then [] else (announce (M.info x).uuid evrnetNodelistV1 L).entries)
      = Gossip.hear uuidOf x y K L := by
  have hiff : (announce (M.info x).uuid evrnetNodelistV1 L).uuid = (M.info y).uuid ↔ x = y :=
    M.uuid_eq_iff
  rw [Gossip.hear]
  by_cases hxy : x = y
  · rw [if_pos (hiff.mpr hxy), if_pos hxy, mergeNew_nil]
  · rw [if_neg fun h => hxy (hiff.mp h), if_neg hxy]
    rfl

/-- What a node receives is a message of the gossip. -/
lemma Sim.gets (hinv : Gossip.Inv uuidOf M.own g) (h : Sim s g) {l : Letter ι} {y : ι}
    (hs : s.Gets l y s') :
    ∃ L, (l.sender, L) ∈ g.soup ∧ Holds (M.target l.sender) l.list evrnetNodelistV1 L
      ∧ Sim s' ⟨Function.update g.log y (Gossip.hear uuidOf l.sender y (g.log y) L), g.soup⟩ := by
  obtain ⟨hl, hfits, route, errno, n, bs, ms, r, hroute, hr, rfl⟩ := hs
  obtain ⟨L, hL, hlist, hdata⟩ := h.letters l hl
  refine ⟨L, hL, hlist, ?_⟩
  rw [hdata] at hr hfits
  rw [Packet.bytes_length] at hfits
  have hK : Holds (M.target y) (s.peer y).2.nodeList evrnetNodelistV1 (g.log y) := h.knows y
  have hw : (announce (M.info l.sender).uuid evrnetNodelistV1 L).WellFormed := Sim.wellFormed hinv hL
  rcases netReceive_route _ (M.info y).uuid n bs ms errno hroute (h.msg y) hK (Sim.ne_nil hinv y)
    (h.limit y) hfits hw with ⟨hroom, r', hr', hbuf, hholds⟩ | ⟨-, x, hx⟩
  · obtain rfl : r' = r := Except.ok.inj (hr'.unique hr)
    have hlim := hroom.limit
    rw [M.hear_eq] at hlim hholds
    refine ⟨fun z => ?_, fun z => ?_, fun z => ?_, h.letters⟩
    · by_cases hz : z = y
      · subst hz
        simpa using hbuf
      · simpa [Function.update_of_ne hz] using h.msg z
    · by_cases hz : z = y
      · subst hz
        simpa [MeshState.Knows] using hholds
      · simpa [MeshState.Knows, Function.update_of_ne hz] using h.knows z
    · by_cases hz : z = y
      · subst hz
        simpa using hlim
      · simpa [Function.update_of_ne hz] using h.limit z
  · exact absurd (hr.unique hx) (by simp)

/-- A step of the mesh is a step of the gossip. -/
lemma Sim.step (hinv : Gossip.Inv uuidOf M.own g) (h : Sim s g) (hs : MeshState.Step s s') :
    ∃ g', Gossip.Step uuidOf g g' ∧ Sim s' g' := by
  cases hs with
  | sends x hs => exact ⟨_, Gossip.Step.send g x, h.sends hs⟩
  | gets l y hs =>
      obtain ⟨L, hL, -, hsim⟩ := h.gets hinv hs
      exact ⟨_, Gossip.Step.deliver g l.sender y L hL, hsim⟩

/-- A run of the mesh is a run of the gossip. -/
lemma Sim.steps (hinv : Gossip.Inv uuidOf M.own g) (h : Sim s g)
    (hs : ReflTransGen MeshState.Step s s') :
    ∃ g', ReflTransGen (Gossip.Step uuidOf) g g' ∧ Sim s' g' := by
  induction hs with
  | refl => exact ⟨g, .refl, h⟩
  | tail _ hstep ih =>
      obtain ⟨g', hsteps, h'⟩ := ih
      obtain ⟨g'', hstep', h''⟩ := h'.step (hinv.steps hsteps) hstep
      exact ⟨g'', hsteps.tail hstep', h''⟩

/-- Every state that is reached holds the logs of a gossip. -/
lemma MeshState.Started.sim {s₀ : MeshState M} (h₀ : s₀.Started)
    (hs : ReflTransGen MeshState.Step s₀ s) :
    ∃ g, Gossip.Inv uuidOf M.own g ∧ Sim s g := by
  obtain ⟨g, hsteps, h⟩ := (Sim.start h₀).steps Gossip.Inv.start hs
  exact ⟨g, Gossip.Inv.start.steps hsteps, h⟩

end

/-! ### Safety -/

/-- A list as it may be at the node `x`: it begins with the entry of `x`, has no UUID twice, and
every entry is that of the node with its UUID. -/
structure Mesh.Proper (M : Mesh ι) (x : ι) (K : List Entry) : Prop where
  first : [M.own x] <+: K
  nodup : (K.map uuidOf).Nodup
  known : ∀ e ∈ K, ∃ y, uuidOf e = (M.info y).uuid
  own : ∀ e ∈ K, ∀ y, uuidOf e = (M.info y).uuid → e = M.own y

section

variable {M : Mesh ι} {s s' : MeshState M} {g : Gossip.Net ι Entry}

omit [DecidableEq ι] in
lemma Sim.proper (hinv : Gossip.Inv uuidOf M.own g) (x : ι) : M.Proper x (g.log x) where
  first := hinv.first x
  nodup := hinv.nodup x
  known := by
    intro e he
    obtain ⟨y, rfl⟩ := hinv.owned x e he
    exact ⟨y, rfl⟩
  own := fun _ he _ hkey => hinv.eq_own M.distinct he hkey

omit [DecidableEq ι] in
/-- A beginning of a proper list that has the first entry is proper. -/
lemma Mesh.Proper.start {x : ι} {K L : List Entry} (h : M.Proper x K) (hfirst : [M.own x] <+: L)
    (hL : L <+: K) : M.Proper x L where
  first := hfirst
  nodup := h.nodup.sublist (hL.sublist.map _)
  known := fun e he => h.known e (hL.subset he)
  own := fun e he => h.own e (hL.subset he)

/-- A node within its capacities can send, and with an interface to send on its list goes out. -/
lemma Sim.can_send (h : Sim s g) {x : ι} (hcap : Sendable (M.target x) (g.log x)) :
    ∃ s', s.Sends x s' ∧ ∃ l ∈ s'.soup, l.sender = x ∧ l.list = (s.peer x).2.nodeList := by
  have hK : Holds (M.target x) (s.peer x).2.nodeList evrnetNodelistV1 (g.log x) := h.knows x
  obtain ⟨env, henv⟩ : ∃ env : Env, env = sockEnv 1 (fun _ => true) true := ⟨_, rfl⟩
  obtain ⟨msg, -, hsend⟩ := netSend_spec (M.info x).uuid env (h.msg x) hK hcap
    (M.served x).table (Nat.lt_succ_self _)
  have hsettles := (netSend_steady _ _ (M.info x).uuid env _ _).settles hsend (by simp)
  have hsent : ⟨some 0, (announce (M.info x).uuid evrnetNodelistV1 (g.log x)).bytes⟩
      ∈ sentOf (M.target x) env (announce (M.info x).uuid evrnetNodelistV1 (g.log x)).bytes := by
    rw [henv, sentOf, sockEnv, reachedIfaces_all]
    exact List.mem_append_left _ (List.mem_singleton_self _)
  exact ⟨_, ⟨env, msg, _, _, hsettles, rfl⟩, _,
    List.mem_append_left _ (List.mem_map_of_mem hsent), rfl, rfl⟩

/-- A node can get every message that fits its buffer, as long as its list stays within it too. -/
lemma Sim.can_get (hinv : Gossip.Inv uuidOf M.own g) (h : Sim s g) {l : Letter ι} {y : ι}
    {L : List Entry} (hl : l ∈ s.soup) (hfits : l.data.length ≤ (M.target y).bufSize)
    (hL : Holds (M.target l.sender) l.list evrnetNodelistV1 L)
    (hroom : 32 + total (mergeNew uuidOf (g.log y) L) ≤ (M.target y).bufSize) :
    ∃ s', s.Gets l y s' := by
  have hlt := (M.target y).bufSize_lt
  have hmsg := (M.served y).msg
  obtain ⟨L', hL', hlist, hdata⟩ := h.letters l hl
  obtain rfl := hlist.unique hL
  have hd : (announce (M.info l.sender).uuid evrnetNodelistV1 L').Fits (M.target y) := by
    rw [hdata, Packet.bytes_length] at hfits
    exact hfits
  have hall : Room (M.malloc y) (g.log y) ([] ++ L') := ⟨by rw [List.nil_append]; omega,
    by rw [List.nil_append]; omega⟩
  have hsome : Room (M.malloc y) (g.log y)
      (if (announce (M.info l.sender).uuid evrnetNodelistV1 L').uuid = (M.info y).uuid then []
        else (announce (M.info l.sender).uuid evrnetNodelistV1 L').entries) := by
    split_ifs
    · exact hall.of_append
    · exact hall
  rcases netReceive_route .broadcast (M.info y).uuid 0 (fun _ => true) true .again
    (by simp) (h.msg y) (h.knows y) (Sim.ne_nil hinv y) (h.limit y) hd (Sim.wellFormed hinv hL')
    with ⟨-, r, hr, -⟩ | ⟨hnot, -⟩
  · rw [← hdata] at hr
    exact ⟨_, hl, hfits, .broadcast, .again, 0, _, _, r, by simp, hr, rfl⟩
  · exact absurd hsome hnot

end

/-- Mesh safety: every list of every node and in every datagram is proper, lists grow at their ends
only, and whoever has got a datagram knows what its sender knew. Steps within the capacities are
always possible. -/
theorem mesh_safety (M : Mesh ι) {s₀ s : MeshState M} (h₀ : s₀.Started)
    (hs : ReflTransGen MeshState.Step s₀ s) :
    (∀ x, s₀.Knows x [M.own x])
      ∧ (∀ x, ∃ K, s.Knows x K ∧ M.Proper x K)
      ∧ (∀ l ∈ s.soup, ∃ L, Holds (M.target l.sender) l.list evrnetNodelistV1 L
          ∧ M.Proper l.sender L
          ∧ l.data = (announce (M.info l.sender).uuid evrnetNodelistV1 L).bytes)
      ∧ (∀ s', ReflTransGen MeshState.Step s s' →
          ∀ x K K', s.Knows x K → s'.Knows x K' → K <+: K')
      ∧ (∀ l y s', s.Gets l y s' →
          ∀ L K', Holds (M.target l.sender) l.list evrnetNodelistV1 L → s'.Knows y K' →
            L.map uuidOf ⊆ K'.map uuidOf)
      ∧ (∀ x K, s.Knows x K → Sendable (M.target x) K →
          ∃ s', s.Sends x s' ∧ ∃ l ∈ s'.soup, l.sender = x ∧ l.list = (s.peer x).2.nodeList)
      ∧ ∀ l ∈ s.soup, ∀ y L K, Holds (M.target l.sender) l.list evrnetNodelistV1 L → s.Knows y K →
          l.data.length ≤ (M.target y).bufSize →
          32 + total (mergeNew uuidOf K L) ≤ (M.target y).bufSize → ∃ s', s.Gets l y s' := by
  obtain ⟨g, hinv, h⟩ := h₀.sim hs
  refine ⟨(Sim.start h₀).knows, fun x => ⟨g.log x, h.knows x, Sim.proper hinv x⟩, ?_, ?_, ?_, ?_, ?_⟩
  · intro l hl
    obtain ⟨L, hL, hlist, hdata⟩ := h.letters l hl
    obtain ⟨hfirst, hprefix⟩ := hinv.letters l.sender L hL
    exact ⟨L, hlist, (Sim.proper hinv l.sender).start hfirst hprefix, hdata⟩
  · intro s' hs' x K K' hK hK'
    obtain ⟨g', hsteps, h'⟩ := h.steps hinv hs'
    obtain rfl := (h.knows x).unique hK
    obtain rfl := (h'.knows x).unique hK'
    exact Gossip.prefix_of_steps hsteps x
  · intro l y s' hgets L K' hL hK' u hu
    obtain ⟨L', hmem, hlist, h'⟩ := h.gets hinv hgets
    obtain rfl := hlist.unique hL
    obtain rfl := (h'.knows y).unique hK'
    dsimp only
    rw [Function.update_self]
    exact hinv.hears hmem hu
  · intro x K hK hcap
    obtain rfl := (h.knows x).unique hK
    exact h.can_send hcap
  · intro l hl y L K hL hK hfits hroom
    obtain rfl := (h.knows y).unique hK
    exact h.can_get hinv hl hfits hL hroom

/-- The allocator of a small machine. -/
def Malloc.small : Malloc 32 where
  limit := 2 ^ 20 - 8192
  place k _ := 4096 + 2 ^ 20 * (k % 4095)
  junk _ _ := 0
  place_pos k _ := by omega
  place_dvd k _ := by omega
  place_lt k n h := by omega

/-- Two nodes on machines that differ in byte order and in the width of a pointer. -/
def pair : Mesh Bool where
  target x := if x then .linux64 else .powerpc32
  malloc
    | true => .spread
    | false => .small
  info x := .sample (if x then 1 else 0, 0) 0
  distinct := by decide
  served
    | true => ⟨by decide, by decide, by decide⟩
    | false => ⟨by decide, by decide, by decide⟩

/-- One node tells the other about itself. -/
theorem mesh_safety_pair : ∃ s₀ s₁ s₂ : MeshState pair, ∃ l,
    s₀.Started ∧ s₀.Sends true s₁ ∧ s₁.Gets l false s₂
      ∧ ∃ K, s₂.Knows false K ∧ pair.Proper false K ∧ (1, 0) ∈ K.map uuidOf := by
  obtain ⟨stF, hstF, -⟩ := netStart_spec (pair.served false) (pair.info false)
  obtain ⟨stT, hstT, -⟩ := netStart_spec (pair.served true) (pair.info true)
  let s₀ : MeshState pair :=
    ⟨fun | true => (stT.msg, stT.node) | false => (stF.msg, stF.node), []⟩
  have h₀ : s₀.Started := ⟨fun | true => ⟨stT, hstT, rfl⟩ | false => ⟨stF, hstF, rfl⟩, rfl⟩
  have htotal : ∀ x, total [pair.own x] = 48 := by
    intro x
    rw [total_cons, total_nil, Nat.add_zero]
    exact LocalInfo.sample_length _ 0
  have hmerge : total (mergeNew uuidOf [pair.own false] [pair.own true]) ≤ 96 := by
    have hle := total_mergeNew_le [pair.own false] [pair.own true]
    rwa [htotal, htotal] at hle
  -- the first node sends
  obtain ⟨hknows, -, -, -, -, hsend, -⟩ := mesh_safety pair h₀ .refl
  obtain ⟨s₁, hs₁, ⟨x, list, data⟩, hl, hsender, hlist⟩ :=
    hsend true [pair.own true] (hknows true) ⟨by rw [htotal]; decide, fun _ => by simp⟩
  dsimp only at hsender hlist
  subst hsender
  have hlist' : Holds .linux64 list evrnetNodelistV1 [pair.own true] := hlist ▸ hknows true
  -- the second one gets what was sent
  have hs₀₁ : ReflTransGen MeshState.Step s₀ s₁ := .single (.sends true hs₁)
  obtain ⟨-, -, hletters, -, -, -, hget⟩ := mesh_safety pair h₀ hs₀₁
  obtain ⟨L, hL, -, hdata⟩ := hletters _ hl
  obtain rfl := hlist'.unique hL
  have hknows' : s₁.Knows false [pair.own false] := by
    obtain ⟨env, msg, node, sent, -, rfl⟩ := hs₁
    exact hknows false
  obtain ⟨s₂, hs₂⟩ := hget _ hl false _ _ hlist' hknows'
    (by rw [hdata, Packet.bytes_length, announce, htotal]; decide)
    (le_trans (Nat.add_le_add_left hmerge 32) (by decide))
  -- and knows it
  obtain ⟨-, hproper, -⟩ := mesh_safety pair h₀ (hs₀₁.tail (.gets _ false hs₂))
  obtain ⟨-, -, -, -, hhears, -⟩ := mesh_safety pair h₀ hs₀₁
  obtain ⟨K, hK, hKproper⟩ := hproper false
  refine ⟨s₀, s₁, s₂, _, h₀, hs₁, hs₂, K, hK, hKproper, ?_⟩
  exact hhears _ false s₂ hs₂ _ K hlist' hK (List.mem_singleton_self _)

end EverythingNet
