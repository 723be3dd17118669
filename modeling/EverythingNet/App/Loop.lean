import Mathlib.Tactic
import EverythingNet.Net.Attribution
import EverythingNet.Net.Capacity

/-!
The loop of `main` in `app/main.c`: `NET_HandleBcast` again and again, while datagrams keep arriving
on the sockets.

* `mainTurn`, `mainLoop`: the network side of the loop. What a call leaves in the queues is there
  for the next one. The clock is in `Plat/Timers`.
* `remaining`: the queues that a call leaves behind, `netReceive_remaining` that it does.
  `drain_account`: everything before that has been handled, in its order.
* `waiting`, `finds`: the queues after some turns, and the calls with the queues that they find.
  `mainLoop_cases`: a run of the loop does what those calls do.
* `main_settles`: a run whose lists can be sent comes to no halt.
* `main_loses_nothing`: what becomes of all that arrives. `main_catches_up`: when nothing arrives any
  more, everything is handled after as many turns as there are datagrams. These and the results below
  are about runs in which each datagram that arrives is a packet with well formed entries that fits, or
  one that is never accepted (`Call.Ok`).
* `main_transmits`: what is sent, and in which turns. `main_reports_once`: what is printed.
-/

namespace EverythingNet

open CMem KeyedLog

/-! ### The code -/

/-- The state of the network, the queues of the two sockets and what each turn so far has sent. -/
structure LoopState (w : ℕ) where
  net : NetState w
  bcast : List Arrival
  mcast : List Arrival
  sent : List (List Sent)

/-- A turn of the loop of `main`; the queues of `c` are what has arrived since the last one. -/
def mainTurn (t : Target) (m : Malloc t.bits) (uuid : U64 × U64) (fuel : ℕ) (s : LoopState t.bits)
    (c : Call) : Except Halt (LoopState t.bits) := do
  let (net, bcast, mcast, sent) ← netHandleBcast t m uuid c.env fuel s.net
    (s.bcast ++ c.bcast.map Item.arrival) (s.mcast ++ c.mcast.map Item.arrival)
  return ⟨net, bcast, mcast, s.sent ++ [sent]⟩

/-- Some turns of the loop. -/
def mainLoop (t : Target) (m : Malloc t.bits) (uuid : U64 × U64) (cs : List Call) (fuel : ℕ)
    (s : LoopState t.bits) : Except Halt (LoopState t.bits) :=
  cs.foldlM (mainTurn t m uuid fuel) s

/-- `main` up to the loop. -/
def mainStart (t : Target) (m : Malloc t.bits) (i : LocalFields) :
    Except Halt (LoopState t.bits) := do
  let net ← netStart t m i
  return ⟨net, [], [], []⟩

/-! ### What a call leaves -/

set_option linter.unusedVariables false in
/-- The queues that a call of `NET_HandleBcast` leaves behind. -/
def remaining (uuid : U64 × U64) (n : ℕ) (mc : Bool) (bq mq : List Item) :
    List Item × List Item :=
  match hnext : nextPacket n mc bq mq with
  | (none, bq', mq') => (bq', mq')
  | (some d, bq', mq') => if d.uuid = uuid then (bq', mq') else remaining uuid n mc bq' mq'
termination_by bq.length + mq.length
decreasing_by exact nextPacket_length_lt hnext

/-- The packets that came over a channel. -/
def ofChannel (src : DiscoverySrc) (ds : List (DiscoverySrc × Packet)) : List Packet :=
  (ds.filter fun p => p.1 = src).map Prod.snd

@[simp] lemma ofChannel_nil (src : DiscoverySrc) : ofChannel src [] = [] := rfl

@[simp] lemma ofChannel_append (src : DiscoverySrc) (ds ds' : List (DiscoverySrc × Packet)) :
    ofChannel src (ds ++ ds') = ofChannel src ds ++ ofChannel src ds' := by
  rw [ofChannel, List.filter_append, List.map_append]
  rfl

lemma ofChannel_cons (src : DiscoverySrc) (p : DiscoverySrc × Packet)
    (ds : List (DiscoverySrc × Packet)) :
    ofChannel src (p :: ds) = (if p.1 = src then [p.2] else []) ++ ofChannel src ds := by
  rw [ofChannel, List.filter_cons]
  split_ifs with h <;> simp_all [ofChannel]

@[simp] lemma others_nil (uuid : U64 × U64) : others uuid [] = [] := rfl

@[simp] lemma others_append (uuid : U64 × U64) (q q' : List Item) :
    others uuid (q ++ q') = others uuid q ++ others uuid q' := List.filterMap_append

section

variable {uuid : U64 × U64} {n k : ℕ} {mc : Bool} {bq mq bq' mq' q : List Item} {d : Packet}

lemma remaining_none (h : nextPacket n mc bq mq = (none, bq', mq')) :
    remaining uuid n mc bq mq = (bq', mq') := by
  rw [remaining]
  split <;> simp_all

lemma remaining_own (h : nextPacket n mc bq mq = (some d, bq', mq')) (hown : d.uuid = uuid) :
    remaining uuid n mc bq mq = (bq', mq') := by
  rw [remaining]
  split <;> simp_all

lemma remaining_other (h : nextPacket n mc bq mq = (some d, bq', mq')) (hother : d.uuid ≠ uuid) :
    remaining uuid n mc bq mq = remaining uuid n mc bq' mq' := by
  rw [remaining]
  split <;> simp_all

lemma others_cons_packet (uuid : U64 × U64) (d : Packet) (errno : Errno) (q : List Item) :
    others uuid (.packet d errno :: q) = (if d.uuid = uuid then [] else [d]) ++ others uuid q := by
  rw [others, others]
  by_cases h : d.uuid = uuid <;> simp [h]

/-- What a call of `PLAT_NetCheckBcastData` has read. -/
lemma scan_split (uuid : U64 × U64) (k : ℕ) (q : List Item) :
    ∃ c, q = c ++ (scan k q).2
      ∧ others uuid c = (scan k q).1.elim [] fun d => if d.uuid = uuid then [] else [d] := by
  induction k generalizing q with
  | zero => exact ⟨[], rfl, rfl⟩
  | succ k ih =>
      -- an item without a packet, behind which the call goes on or ends
      have hskip : ∀ (i : Item) (q : List Item) (more : Bool), (∀ d errno, i ≠ .packet d errno) →
          ∃ c, i :: q = c ++ (if more then scan k q else (none, q)).2
            ∧ others uuid c = (if more then scan k q else (none, q)).1.elim []
              fun d => if d.uuid = uuid then [] else [d] := by
        intro i q more hi
        have hone : ∀ c, others uuid (i :: c) = others uuid c := by
          intro c
          cases i with
          | packet d errno => exact absurd rfl (hi d errno)
          | junk bytes errno => rfl
          | empty errno => rfl
          | failure errno => rfl
        cases more with
        | false => exact ⟨[i], rfl, hone []⟩
        | true =>
            obtain ⟨c, hq, hc⟩ := ih q
            exact ⟨i :: c, congrArg _ hq, (hone c).trans hc⟩
      cases q with
      | nil => exact ⟨[], rfl, rfl⟩
      | cons i q =>
          cases i with
          | packet d errno =>
              exact ⟨[.packet d errno], rfl, by rw [others_cons_packet]; simp [scan]⟩
          | junk bytes errno => exact hskip _ q true (by simp)
          | empty errno => exact hskip _ q errno.isAgain (by simp)
          | failure errno => exact hskip _ q errno.isAgain (by simp)

/-- What a round of the loop of `NET_HandleBcast` has read from each queue. -/
lemma nextPacket_split (uuid : U64 × U64) {r : Option Packet}
    (h : nextPacket n mc bq mq = (r, bq', mq')) :
    ∃ cb cm, bq = cb ++ bq' ∧ mq = cm ++ mq'
      ∧ ∀ src, src = .broadcast ∨ src = .multicast →
        others uuid (if src = .broadcast then cb else cm)
          = r.elim [] fun d => if nextSource n bq = src then if d.uuid = uuid then [] else [d]
            else [] := by
  obtain ⟨cb, hcb, hothers⟩ := scan_split uuid n bq
  rw [nextPacket] at h
  rw [nextSource]
  split at h
  · next d q hscan =>
      rw [hscan] at hcb hothers ⊢
      simp only [Prod.mk.injEq] at h
      obtain ⟨rfl, rfl, rfl⟩ := h
      refine ⟨cb, [], hcb, rfl, ?_⟩
      rintro src (rfl | rfl)
      · simpa using hothers
      · simp
  · next q hscan =>
      rw [hscan] at hcb hothers ⊢
      split_ifs at h with hmc
      · simp only [Prod.mk.injEq] at h
        obtain ⟨rfl, rfl, rfl⟩ := h
        -- a call of `PLAT_NetCheckMcastData` reads one item at most
        have hmcast : ∃ cm, mq = cm ++ (scanMcast mq).2 ∧ others uuid cm
            = (scanMcast mq).1.elim [] fun d => if d.uuid = uuid then [] else [d] := by
          cases mq with
          | nil => exact ⟨[], rfl, rfl⟩
          | cons i mq =>
              cases i with
              | packet d errno =>
                  exact ⟨[.packet d errno], rfl, by rw [others_cons_packet]; simp [scanMcast]⟩
              | junk bytes errno => exact ⟨[.junk bytes errno], rfl, rfl⟩
              | empty errno => exact ⟨[.empty errno], rfl, rfl⟩
              | failure errno => exact ⟨[.failure errno], rfl, rfl⟩
        obtain ⟨cm, hcm, hothers'⟩ := hmcast
        refine ⟨cb, cm, hcb, hcm, ?_⟩
        rintro src (rfl | rfl)
        · cases (scanMcast mq).1 <;> simpa using hothers
        · simpa using hothers'
      · simp only [Prod.mk.injEq] at h
        obtain ⟨rfl, rfl, rfl⟩ := h
        refine ⟨cb, [], hcb, rfl, ?_⟩
        rintro src (rfl | rfl)
        · simpa using hothers
        · simp

/-- A call has handled, of each queue, all packets of other nodes before what it leaves, in their
order. -/
lemma drain_account (uuid : U64 × U64) (n : ℕ) (mc : Bool) (bq mq : List Item) :
    ∃ cb cm, bq = cb ++ (remaining uuid n mc bq mq).1 ∧ mq = cm ++ (remaining uuid n mc bq mq).2
      ∧ ofChannel .broadcast (drainFrom uuid n mc bq mq) = others uuid cb
      ∧ ofChannel .multicast (drainFrom uuid n mc bq mq) = others uuid cm := by
  induction bq, mq using drain.induct uuid n mc with
  | case1 bq mq bq' mq' hnext =>
      obtain ⟨cb, cm, hcb, hcm, hothers⟩ := nextPacket_split uuid hnext
      have hb := hothers .broadcast (Or.inl rfl)
      have hm := hothers .multicast (Or.inr rfl)
      rw [drainFrom_none hnext, remaining_none hnext]
      exact ⟨cb, cm, hcb, hcm, by simpa using hb.symm, by simpa using hm.symm⟩
  | case2 bq mq d bq' mq' hnext hown =>
      obtain ⟨cb, cm, hcb, hcm, hothers⟩ := nextPacket_split uuid hnext
      have hb := hothers .broadcast (Or.inl rfl)
      have hm := hothers .multicast (Or.inr rfl)
      rw [drainFrom_own hnext hown, remaining_own hnext hown]
      exact ⟨cb, cm, hcb, hcm, by simpa [hown] using hb.symm, by simpa [hown] using hm.symm⟩
  | case3 bq mq d bq' mq' hnext hother ih =>
      obtain ⟨cb, cm, hcb, hcm, hothers⟩ := nextPacket_split uuid hnext
      obtain ⟨cb', cm', hcb', hcm', hb', hm'⟩ := ih
      have hb := hothers .broadcast (Or.inl rfl)
      have hm := hothers .multicast (Or.inr rfl)
      rw [drainFrom_other hnext hother, remaining_other hnext hother]
      refine ⟨cb ++ cb', cm ++ cm', ?_, ?_, ?_, ?_⟩
      · rw [List.append_assoc, ← hcb', ← hcb]
      · rw [List.append_assoc, ← hcm', ← hcm]
      · rw [ofChannel_cons, others_append, ← hb']
        simpa [hother] using hb.symm
      · rw [ofChannel_cons, others_append, ← hm']
        simpa [hother] using hm.symm

/-- A round without a packet reads something, unless there is nothing to read. -/
lemma nextPacket_none_lt (hn : 0 < n) (h : nextPacket n mc bq mq = (none, bq', mq'))
    (hne : bq ≠ [] ∨ (mc = true ∧ mq ≠ [])) :
    bq'.length + mq'.length < bq.length + mq.length := by
  obtain ⟨n, rfl⟩ := Nat.exists_eq_add_of_le' hn
  have hle := (scan_suffix (n + 1) bq).length_le
  have hscan : bq ≠ [] → (scan (n + 1) bq).2.length < bq.length := by
    intro hbq
    obtain ⟨i, q, rfl⟩ := List.exists_cons_of_ne_nil hbq
    have hq := (scan_suffix n q).length_le
    cases i with
    | packet d errno => simp [scan]
    | junk bytes errno => exact Nat.lt_succ_of_le hq
    | empty errno =>
        rw [scan]
        split_ifs
        · exact Nat.lt_succ_of_le hq
        · exact Nat.lt_succ_self _
    | failure errno =>
        rw [scan]
        split_ifs
        · exact Nat.lt_succ_of_le hq
        · exact Nat.lt_succ_self _
  have hmcast : mq ≠ [] → (scanMcast mq).2.length < mq.length := by
    intro hmq
    obtain ⟨i, q, rfl⟩ := List.exists_cons_of_ne_nil hmq
    cases i <;> simp [scanMcast]
  have hmle : (scanMcast mq).2.length ≤ mq.length := by
    by_cases hmq : mq = []
    · simp [hmq, scanMcast]
    · exact (hmcast hmq).le
  rw [nextPacket] at h
  split at h
  · simp at h
  · next q hq =>
      rw [hq] at hle hscan
      dsimp only at hle hscan
      split_ifs at h with hmc
      · simp only [Prod.mk.injEq] at h
        obtain ⟨-, rfl, rfl⟩ := h
        rcases hne with hbq | ⟨-, hmq⟩
        · have := hscan hbq
          omega
        · have := hmcast hmq
          omega
      · simp only [Prod.mk.injEq] at h
        obtain ⟨-, rfl, rfl⟩ := h
        have := hscan (hne.resolve_right fun h => hmc h.1)
        omega

/-- A call reads something, unless there is nothing to read. -/
lemma remaining_lt (hn : 0 < n) (hne : bq ≠ [] ∨ (mc = true ∧ mq ≠ [])) :
    (remaining uuid n mc bq mq).1.length + (remaining uuid n mc bq mq).2.length
      < bq.length + mq.length := by
  induction bq, mq using drain.induct uuid n mc with
  | case1 bq mq bq' mq' hnext =>
      rw [remaining_none hnext]
      exact nextPacket_none_lt hn hnext hne
  | case2 bq mq d bq' mq' hnext hown =>
      rw [remaining_own hnext hown]
      exact nextPacket_length_lt hnext
  | case3 bq mq d bq' mq' hnext hother ih =>
      have hlt := nextPacket_length_lt hnext
      obtain ⟨cb, cm, hcb, hcm, -⟩ := drain_account uuid n mc bq' mq'
      have hb := congrArg List.length hcb
      have hm := congrArg List.length hcm
      rw [List.length_append] at hb hm
      rw [remaining_other hnext hother]
      omega

end

/-! ### One call -/

section

variable {t : Target} {m : Malloc t.bits} {uuid : U64 × U64} {n : ℕ} {bs : ℕ → Bool} {ms : Bool}
  {msg : Block} {node : NodeState t.bits} {v : U32} {K : List Entry}

/-- The receiving loop leaves the queues `remaining`. -/
lemma netReceive_remaining (uuid : U64 × U64) (n : ℕ) (bs : ℕ → Bool) (ms : Bool)
    (bq mq : List Item) :
    ∀ {K : List Entry} {msg : Block} {node : NodeState t.bits},
      (∀ i ∈ bq, i.Ok t) → (∀ i ∈ mq, i.Ok t) → Buffer t msg → Holds t node.nodeList v K → K ≠ [] →
      Room m K (entriesOf (drain uuid n t.multicast bq mq)) →
      ∃ s, LoopSettles (recvStep t m uuid (sockEnv n bs ms))
          ⟨msg, node, bq.map Item.arrival, mq.map Item.arrival⟩ (.ok s)
        ∧ s.bcast = (remaining uuid n t.multicast bq mq).1.map Item.arrival
        ∧ s.mcast = (remaining uuid n t.multicast bq mq).2.map Item.arrival := by
  induction bq, mq using drain.induct uuid n t.multicast with
  | case1 bq mq bq' mq' hnext =>
      intro K msg node hbq hmq hm _ _ _
      obtain ⟨s, hstep, -, -, -, hb, hmc⟩ := recvStep_none hm hbq hmq hnext
      rw [remaining_none hnext]
      exact ⟨s, LoopSettles.done ⟨0, fun k _ => hstep k⟩, hb, hmc⟩
  | case2 bq mq d bq' mq' hnext hown =>
      intro K msg node hbq hmq hm hK _ _
      obtain ⟨msg', node', hstep, -⟩ := recvStep_some (n := n) hm hbq hmq hnext hK
        fun h => absurd hown h
      rw [if_pos hown] at hstep
      rw [remaining_own hnext hown]
      exact ⟨_, LoopSettles.done hstep, rfl, rfl⟩
  | case3 bq mq d bq' mq' hnext hother ih =>
      intro K msg node hbq hmq hm hK hne hroom
      rw [drain_other hnext hother, entriesOf_cons] at hroom
      have hmerge : Mergeable m K d.entries :=
        ⟨hne, fun e he => (nextPacket_wellFormed hbq hmq hnext e (fresh_sublist.subset he)).sound,
          hroom.of_append⟩
      obtain ⟨msg', node', hstep, hbuf, hholds, -⟩ := recvStep_some (n := n) hm hbq hmq hnext
        hK fun _ => hmerge
      rw [if_neg hother] at hstep hholds
      obtain ⟨hbq', hmq'⟩ := nextPacket_ok hbq hmq hnext
      obtain ⟨s, hloop, hb, hmc⟩ := ih hbq' hmq' hbuf hholds (mergeNew_ne_nil hne)
        (room_mergeNew.mpr hroom)
      rw [remaining_other hnext hother]
      exact ⟨s, LoopSettles.more hstep hloop, hb, hmc⟩

/-- Sending prints nothing and leaves what is known of the last message. -/
lemma netSend_kept {env : Env} {k : ℕ} {r : Block × NodeState t.bits × List Sent}
    (h : netSend t m uuid env k msg node = .ok r) :
    r.2.1.found = node.found ∧ r.2.1.sourceNode = node.sourceNode := by
  rw [netSend] at h
  obtain ⟨⟨msg', node'⟩, hbuild, h⟩ := bind_eq_ok.mp h
  have hnode : node'.found = node.found ∧ node'.sourceNode = node.sourceNode := by
    rw [netBuild] at hbuild
    obtain ⟨msg₁, -, hbuild⟩ := bind_eq_ok.mp hbuild
    obtain ⟨b₁, -, hbuild⟩ := bind_eq_ok.mp hbuild
    obtain ⟨len, -, hbuild⟩ := bind_eq_ok.mp hbuild
    obtain ⟨data, -, hbuild⟩ := bind_eq_ok.mp hbuild
    obtain ⟨msg₂, -, hbuild⟩ := bind_eq_ok.mp hbuild
    obtain ⟨b₂, -, hbuild⟩ := bind_eq_ok.mp hbuild
    rw [← (Prod.mk.inj (Except.ok.inj hbuild)).2]
    exact ⟨rfl, rfl⟩
  obtain ⟨⟨ret, sent⟩, -, h⟩ := bind_eq_ok.mp h
  rw [← hnode.1, ← hnode.2]
  dsimp only at h
  split_ifs at h
  · obtain ⟨⟨ret', sent'⟩, -, h⟩ := bind_eq_ok.mp h
    obtain rfl := Except.ok.inj h
    exact ⟨rfl, rfl⟩
  · obtain rfl := Except.ok.inj h
    exact ⟨rfl, rfl⟩

/-- What a call of `NET_HandleBcast` prints is printed by its receiving loop. -/
lemma netHandleBcast_found {env : Env} {st : NetState t.bits} {bq mq : List Arrival}
    {s : RecvState t.bits} {r : NetState t.bits × List Arrival × List Arrival × List Sent}
    (hrecv : Settles (fun k => netReceive t m uuid env k ⟨st.msg, st.node, bq, mq⟩) (.ok s))
    (h : Settles (fun k => netHandleBcast t m uuid env k st bq mq) (.ok r)) :
    r.1.node.found = s.node.found := by
  obtain ⟨N, hN⟩ := hrecv
  obtain ⟨N', hN'⟩ := h
  have h := hN' (max N N') (le_max_right N N')
  have hrecv := hN (max N N') (le_max_left N N')
  dsimp only [netHandleBcast] at h hrecv
  rw [hrecv, ok_bind] at h
  split_ifs at h
  · obtain rfl := Except.ok.inj h
    rfl
  · obtain ⟨⟨msg', node', sent⟩, hsend, h⟩ := bind_eq_ok.mp h
    have hfound := (netSend_kept hsend).1
    obtain rfl := Except.ok.inj h
    exact hfound

end

/-! ### The calls of a run -/

/-- A call with what has been left in the queues before what has arrived. -/
def Call.after (c : Call) (q : List Item × List Item) : Call :=
  { c with bcast := q.1 ++ c.bcast, mcast := q.2 ++ c.mcast }

/-- What a call leaves in the queues. -/
def Call.leaves (t : Target) (uuid : U64 × U64) (c : Call) : List Item × List Item :=
  remaining uuid c.ifaces t.multicast c.bcast c.mcast

/-- The packets that a call handles, each with its channel. -/
def Call.handledFrom (t : Target) (uuid : U64 × U64) (c : Call) : List (DiscoverySrc × Packet) :=
  drainFrom uuid c.ifaces t.multicast c.bcast c.mcast

/-- The queues after some turns, and the calls that these turns have made. -/
def track (t : Target) (uuid : U64 × U64) (cs : List Call) :
    (List Item × List Item) × List Call :=
  cs.foldl (fun s c => ((c.after s.1).leaves t uuid, s.2 ++ [c.after s.1])) (([], []), [])

/-- The queues after some turns. -/
def waiting (t : Target) (uuid : U64 × U64) (cs : List Call) : List Item × List Item :=
  (track t uuid cs).1

/-- The calls that some turns make, each with the queues that it finds. -/
def finds (t : Target) (uuid : U64 × U64) (cs : List Call) : List Call := (track t uuid cs).2

/-- The packets that some turns handle, each with its channel. -/
def merged (t : Target) (uuid : U64 × U64) (cs : List Call) : List (DiscoverySrc × Packet) :=
  (finds t uuid cs).flatMap (Call.handledFrom t uuid)

section

variable {t : Target} {uuid : U64 × U64} {cs : List Call} {c : Call}

@[simp] lemma waiting_nil : waiting t uuid [] = ([], []) := rfl

@[simp] lemma finds_nil : finds t uuid [] = [] := rfl

lemma waiting_concat :
    waiting t uuid (cs ++ [c]) = (c.after (waiting t uuid cs)).leaves t uuid := by
  rw [waiting, track, List.foldl_append]
  rfl

lemma finds_concat :
    finds t uuid (cs ++ [c]) = finds t uuid cs ++ [c.after (waiting t uuid cs)] := by
  rw [finds, track, List.foldl_append]
  rfl

@[simp] lemma merged_nil : merged t uuid [] = [] := rfl

lemma merged_concat :
    merged t uuid (cs ++ [c])
      = merged t uuid cs ++ (c.after (waiting t uuid cs)).handledFrom t uuid := by
  rw [merged, finds_concat, List.flatMap_append, List.flatMap_singleton]
  rfl

lemma finds_length : (finds t uuid cs).length = cs.length := by
  induction cs using List.reverseRecOn with
  | nil => rfl
  | append_singleton cs c ih => rw [finds_concat, List.length_append, ih]; simp

/-- The packets are those that the calls handle. -/
lemma merged_packets : (merged t uuid cs).map Prod.snd = handledBy t uuid (finds t uuid cs) := by
  rw [merged, handledBy, List.map_flatMap]
  exact List.flatMap_congr fun c _ => drainFrom_packets uuid c.ifaces t.multicast c.bcast c.mcast

/-- Of each queue the turns have handled all packets of other nodes before what is left, in their
order. -/
lemma merged_account (t : Target) (uuid : U64 × U64) (cs : List Call) :
    ∃ cb cm, cs.flatMap Call.bcast = cb ++ (waiting t uuid cs).1
      ∧ cs.flatMap Call.mcast = cm ++ (waiting t uuid cs).2
      ∧ ofChannel .broadcast (merged t uuid cs) = others uuid cb
      ∧ ofChannel .multicast (merged t uuid cs) = others uuid cm := by
  induction cs using List.reverseRecOn with
  | nil => exact ⟨[], [], rfl, rfl, rfl, rfl⟩
  | append_singleton cs c ih =>
      obtain ⟨cb, cm, hcb, hcm, hb, hm⟩ := ih
      obtain ⟨cb', cm', hcb', hcm', hb', hm'⟩ := drain_account uuid c.ifaces t.multicast
        (c.after (waiting t uuid cs)).bcast (c.after (waiting t uuid cs)).mcast
      refine ⟨cb ++ cb', cm ++ cm', ?_, ?_, ?_, ?_⟩
      · rw [List.flatMap_append, List.flatMap_singleton, hcb, waiting_concat, List.append_assoc,
          List.append_assoc]
        exact congrArg _ hcb'
      · rw [List.flatMap_append, List.flatMap_singleton, hcm, waiting_concat, List.append_assoc,
          List.append_assoc]
        exact congrArg _ hcm'
      · rw [merged_concat, ofChannel_append, others_append, hb, ← hb']
        rfl
      · rw [merged_concat, ofChannel_append, others_append, hm, ← hm']
        rfl

lemma waiting_ok (hcs : ∀ c ∈ cs, c.Ok t) :
    (∀ i ∈ (waiting t uuid cs).1, i.Ok t) ∧ ∀ i ∈ (waiting t uuid cs).2, i.Ok t := by
  obtain ⟨cb, cm, hcb, hcm, -⟩ := merged_account t uuid cs
  constructor
  · intro i hi
    have hmem : i ∈ cs.flatMap Call.bcast := hcb ▸ List.mem_append_right _ hi
    obtain ⟨c, hc, hi⟩ := List.mem_flatMap.mp hmem
    exact (hcs c hc).bcast i hi
  · intro i hi
    have hmem : i ∈ cs.flatMap Call.mcast := hcm ▸ List.mem_append_right _ hi
    obtain ⟨c, hc, hi⟩ := List.mem_flatMap.mp hmem
    exact (hcs c hc).mcast i hi

/-- The call that the next turn makes has queues as they should be. -/
lemma after_ok (hcs : ∀ c ∈ cs, c.Ok t) (hc : c.Ok t) : (c.after (waiting t uuid cs)).Ok t := by
  obtain ⟨hb, hm⟩ : (∀ i ∈ (waiting t uuid cs).1, i.Ok t) ∧ ∀ i ∈ (waiting t uuid cs).2, i.Ok t :=
    waiting_ok hcs
  refine ⟨fun i hi => ?_, fun i hi => ?_⟩
  · exact (List.mem_append.mp hi).elim (hb i) (hc.bcast i)
  · exact (List.mem_append.mp hi).elim (hm i) (hc.mcast i)

/-- When nothing arrives, a turn leaves less than it finds. -/
lemma waiting_quiet (hif : 0 < c.ifaces) (hb : c.bcast = []) (hm : c.mcast = []) {k : ℕ}
    (hmc : t.multicast = false → (waiting t uuid cs).2 = [])
    (hlen : (waiting t uuid cs).1.length + (waiting t uuid cs).2.length ≤ k + 1) :
    (waiting t uuid (cs ++ [c])).1.length + (waiting t uuid (cs ++ [c])).2.length ≤ k := by
  rw [waiting_concat, Call.leaves, Call.after]
  dsimp only
  rw [hb, hm, List.append_nil, List.append_nil]
  by_cases hne : (waiting t uuid cs).1 ≠ [] ∨ (t.multicast = true ∧ (waiting t uuid cs).2 ≠ [])
  · have hlt : (remaining uuid c.ifaces t.multicast (waiting t uuid cs).1 (waiting t uuid cs).2).1.length
        + (remaining uuid c.ifaces t.multicast (waiting t uuid cs).1 (waiting t uuid cs).2).2.length
        < _ := remaining_lt hif hne
    omega
  · push Not at hne
    obtain ⟨hb', hm'⟩ := hne
    have hm'' : (waiting t uuid cs).2 = [] := by
      cases hmc' : t.multicast with
      | false => exact hmc hmc'
      | true => exact hm' hmc'
    obtain ⟨cb, cm, hcb, hcm, -⟩ := drain_account uuid c.ifaces t.multicast [] []
    rw [hb', hm'', (List.append_eq_nil_iff.mp hcb.symm).2, (List.append_eq_nil_iff.mp hcm.symm).2]
    simp

end

/-! ### What a run does -/

/-- What the turn behind some turns sends. -/
def transmits (t : Target) (i : LocalInfo) (cs : List Call) (c : Call) : List Sent :=
  if Sends cs.length then
    sentOf t c.env (announce i.uuid evrnetNodelistV1 (known t i (finds t i.uuid (cs ++ [c])))).bytes
  else []

/-- The state of the loop after the turns `cs`. -/
structure Turned (t : Target) (i : LocalInfo) (cs : List Call) (s : LoopState t.bits) : Prop where
  after : After t i (finds t i.uuid cs) s.net
  bcast : s.bcast = (waiting t i.uuid cs).1.map Item.arrival
  mcast : s.mcast = (waiting t i.uuid cs).2.map Item.arrival
  found : s.net.node.found = told [i.entry] (merged t i.uuid cs)
  sent_length : s.sent.length = cs.length
  sent : ∀ pre c post, cs = pre ++ c :: post → s.sent[pre.length]? = some (transmits t i pre c)

section

variable {t : Target} {m : Malloc t.bits} {i : LocalInfo} {cs : List Call} {c : Call}
  {s : LoopState t.bits}

lemma mainStart_spec (hm : Served t m) (i : LocalInfo) :
    ∃ s, mainStart t m i.toLocalFields = .ok s ∧ Turned t i [] s := by
  obtain ⟨st, hst, hbuf, hholds, hcounter⟩ := netStart_spec hm i
  have hfound : st.node.found = [] := by
    obtain ⟨b, -, hnode⟩ := nodeInit_spec (t := t) (m := m) (k := 1) i hm.list
    rw [netStart] at hst
    obtain ⟨msg, -, hst⟩ := bind_eq_ok.mp hst
    rw [hnode, ok_bind] at hst
    rw [← Except.ok.inj hst]
  refine ⟨⟨st, [], [], []⟩, ?_, ⟨hbuf, hholds, hcounter⟩, rfl, rfl, hfound, rfl, ?_⟩
  · rw [mainStart, hst, ok_bind, pure_eq_ok]
  · intro pre c post h
    exact absurd h (by simp)

/-- The queues that a turn finds. -/
lemma Turned.queues (h : Turned t i cs s) (c : Call) :
    s.bcast ++ c.bcast.map Item.arrival
        = (c.after (waiting t i.uuid cs)).bcast.map Item.arrival
      ∧ s.mcast ++ c.mcast.map Item.arrival
        = (c.after (waiting t i.uuid cs)).mcast.map Item.arrival := by
  rw [h.bcast, h.mcast, ← List.map_append, ← List.map_append]
  exact ⟨rfl, rfl⟩

/-- A turn. -/
lemma Turned.turn (hm : Served t m) (h : Turned t i cs s)
    (hc : (c.after (waiting t i.uuid cs)).Ok t)
    (hroom : Room m (known t i (finds t i.uuid cs))
      (entriesOf ((c.after (waiting t i.uuid cs)).handled t i.uuid)))
    (hsend : Sends cs.length → Sendable t (known t i (finds t i.uuid (cs ++ [c])))) :
    ∃ s', Settles (fun k => mainTurn t m i.uuid k s c) (.ok s') ∧ Turned t i (cs ++ [c]) s' := by
  obtain ⟨hqb, hqm⟩ := h.queues c
  obtain ⟨r, hloop, hbuf, hholds, hfound⟩ := netReceive_drain i.uuid c.ifaces c.bcastSend
    c.mcastSend _ _ hc.bcast hc.mcast h.after.msg h.after.list known_ne_nil hroom
  obtain ⟨r', hloop', hrb, hrm⟩ := netReceive_remaining i.uuid c.ifaces c.bcastSend
    c.mcastSend _ _ hc.bcast hc.mcast h.after.msg h.after.list known_ne_nil hroom
  obtain rfl : r' = r := Except.ok.inj (hloop'.settles.unique hloop.settles)
  have hknown : known t i (finds t i.uuid (cs ++ [c]))
      = mergeNew uuidOf (known t i (finds t i.uuid cs))
        (entriesOf ((c.after (waiting t i.uuid cs)).handled t i.uuid)) := by
    rw [finds_concat, known_concat]
  have hsends : s.net.counter % 15 = 0 ↔ Sends cs.length := by
    rw [h.after.sends_iff, finds_length]
  have hholds' : Holds t r'.node.nodeList evrnetNodelistV1
      (known t i (finds t i.uuid (cs ++ [c]))) := by
    rw [hknown]
    exact hholds
  have hrecv : Settles (fun k => netReceive t m i.uuid c.env k ⟨s.net.msg, s.net.node,
      (c.after (waiting t i.uuid cs)).bcast.map Item.arrival,
      (c.after (waiting t i.uuid cs)).mcast.map Item.arrival⟩) (.ok r') := hloop.settles
  obtain ⟨st, hst, hbuf', hlist, hcounter⟩ := netHandleBcast_spec
    (c := s.net.counter) hrecv hbuf hholds' (fun h0 => hsend (hsends.mp h0)) hm.table
  have hst' : Settles (fun k => netHandleBcast t m i.uuid c.env k s.net
      (s.bcast ++ c.bcast.map Item.arrival) (s.mcast ++ c.mcast.map Item.arrival)) _ :=
    hst.congr fun k => by rw [hqb, hqm]
  refine ⟨_, hst'.map _, ⟨hbuf', hlist ▸ hholds', ?_⟩, ?_, ?_, ?_, ?_, ?_⟩
  · dsimp only
    rw [hcounter, h.after.counter, finds_length, finds_length, List.length_append,
      List.length_singleton, BitVec.ofNat_add]
    rfl
  · rw [waiting_concat]
    exact hrb
  · rw [waiting_concat]
    exact hrm
  · have hmerged : known t i (finds t i.uuid cs)
        = mergeNew uuidOf [i.entry] (entriesOf ((merged t i.uuid cs).map Prod.snd)) := by
      rw [merged_packets, known]
    dsimp only
    rw [netHandleBcast_found hloop.settles hst, hfound, h.found, merged_concat, told_append,
      ← hmerged]
    rfl
  · simp [h.sent_length]
  · intro pre c' post hsplit
    dsimp only
    cases post using List.reverseRecOn with
    | nil =>
        obtain ⟨rfl, hc'⟩ := List.append_inj' hsplit rfl
        obtain rfl : c = c' := by simpa using hc'
        rw [← h.sent_length, List.getElem?_concat_length, transmits]
        simp only [hsends]
    | append_singleton post c'' =>
        rw [← List.cons_append, ← List.append_assoc] at hsplit
        obtain ⟨hcs, -⟩ := List.append_inj' hsplit rfl
        have hlt : pre.length < s.sent.length := by
          rw [h.sent_length, hcs, List.length_append, List.length_cons]
          omega
        rw [List.getElem?_append_left hlt]
        exact h.sent pre c' post hcs

/-- A call that halts is a turn that halts. -/
lemma Turned.halt (h : Turned t i cs s) {x : Halt}
    (hx : Settles (fun k => handleCall t m i.uuid k s.net (c.after (waiting t i.uuid cs)))
      (.error x)) :
    Settles (fun k => mainTurn t m i.uuid k s c) (.error x) := by
  obtain ⟨hqb, hqm⟩ := h.queues c
  obtain ⟨N, hN⟩ := hx
  refine ⟨N, fun k hk => ?_⟩
  have hcall := hN k hk
  dsimp only [handleCall] at hcall
  dsimp only [mainTurn]
  rw [hqb, hqm]
  cases hres : netHandleBcast t m i.uuid (c.after (waiting t i.uuid cs)).env k s.net
      ((c.after (waiting t i.uuid cs)).bcast.map Item.arrival)
      ((c.after (waiting t i.uuid cs)).mcast.map Item.arrival) with
  | ok r =>
      rw [hres, ok_bind, pure_eq_ok] at hcall
      exact absurd hcall (by simp)
  | error y =>
      rw [hres, error_bind] at hcall
      obtain rfl := Except.error.inj hcall
      exact bind_of_error hres _

variable (cs) in
/-- The loop does what the calls with the queues `finds` do: if these come to an end, it gets to the
state after them, else it halts. -/
lemma mainLoop_cases (hm : Served t m) (hcs : ∀ c ∈ cs, c.Ok t) (hs : Turned t i [] s) :
    (Comes t m i (finds t i.uuid cs)
        ∧ ∃ s', Settles (fun k => mainLoop t m i.uuid cs k s) (.ok s') ∧ Turned t i cs s')
      ∨ (¬ Comes t m i (finds t i.uuid cs)
        ∧ ∃ x, Settles (fun k => mainLoop t m i.uuid cs k s) (.error x)) := by
  induction cs using List.reverseRecOn with
  | nil =>
      have hlen : i.entry.length ≤ 4096 := i.fits
      have hlist := hm.list
      refine Or.inl ⟨⟨⟨?_, ?_⟩, fun pre c post h => absurd h (by simp)⟩, s, ⟨0, fun _ _ => rfl⟩, hs⟩
      · simp only [finds_nil, handledBy_nil, entriesOf_nil, mergeNew_nil, total_cons, total_nil]
        omega
      · simp only [finds_nil, handledBy_nil, entriesOf_nil, mergeNew_nil, total_cons, total_nil]
        omega
  | append_singleton cs c ih =>
      have hcs' : ∀ c ∈ cs, c.Ok t := fun c' hc' => hcs c' (by simp [hc'])
      have hc : (c.after (waiting t i.uuid cs)).Ok t := after_ok hcs' (hcs c (by simp))
      rw [finds_concat]
      rcases ih hcs' with ⟨hcomes, s', hrun, hturned⟩ | ⟨hnot, x, hx⟩
      · by_cases hroom : Room m (known t i (finds t i.uuid cs))
          (entriesOf ((c.after (waiting t i.uuid cs)).handled t i.uuid))
        · by_cases hsend : Sends cs.length →
            Sendable t (known t i (finds t i.uuid cs ++ [c.after (waiting t i.uuid cs)]))
          · obtain ⟨s'', hturn, hturned'⟩ := hturned.turn hm hc hroom (finds_concat ▸ hsend)
            refine Or.inl ⟨comes_concat.mpr ⟨hcomes, hroom, ?_⟩, s'', hrun.concat hturn, hturned'⟩
            rwa [finds_length]
          · push Not at hsend
            have hsends : Sends (finds t i.uuid cs).length := by
              rw [finds_length]
              exact hsend.1
            refine Or.inr ⟨fun h => hsend.2 ((comes_concat.mp h).2.2 hsends), .outOfBounds, ?_⟩
            exact hrun.concat (hturned.halt (hturned.after.overflow hm hc hroom hsends hsend.2))
        · obtain ⟨x, hx⟩ := hturned.after.full hc hcomes.room.limit hroom
          refine Or.inr ⟨fun h => hroom (comes_concat.mp h).2.1, x, ?_⟩
          exact hrun.concat (hturned.halt (Settles.bind_halt (Settles.bind_halt hx)))
      · exact Or.inr ⟨fun h => hnot (comes_concat.mp h).1, x, hx.concat_halt⟩

/-- A run of the loop that comes to no halt. -/
lemma Turned.of_settles (hm : Served t m) (hcs : ∀ c ∈ cs, c.Ok t) {s₀ : LoopState t.bits}
    (hs₀ : Turned t i [] s₀) (h : Settles (fun k => mainLoop t m i.uuid cs k s₀) (.ok s)) :
    Turned t i cs s := by
  rcases mainLoop_cases cs hm hcs hs₀ with ⟨-, s', hrun, hturned⟩ | ⟨-, x, hx⟩
  · obtain rfl := Except.ok.inj (hrun.unique h)
    exact hturned
  · exact absurd (hx.unique h) (by simp)

/-! ### What is printed -/

/-- The name that is printed of an entry. -/
def nameOf (e : Entry) : List Byte := e.name

/-- What is printed about a packet are the names of its new entries, in their order. -/
lemma reports_names (src : DiscoverySrc) (L : List Entry) :
    ∀ {K ds : List Entry}, (reports src K ds L).map Found.name
      = (fresh uuidOf (K.map uuidOf) L).map nameOf := by
  induction L with
  | nil =>
      intro K ds
      rfl
  | cons e L ih =>
      intro K ds
      have hname : (report src ds e).name = e.name := by cases ds <;> rfl
      rw [reports, fresh]
      by_cases hmem : e.uuid ∈ K.map uuidOf
      · rw [if_pos hmem, if_pos hmem, ih]
      · rw [if_neg hmem, if_neg hmem, List.map_cons, List.map_cons, ih, hname, List.map_append,
          List.map_singleton]
        rfl

/-- What is printed about packets one after the other are the names of the entries that they add to
the list. -/
lemma told_names (ds : List (DiscoverySrc × Packet)) :
    ∀ {K : List Entry}, K.map nameOf ++ (told K ds).map Found.name
      = (mergeNew uuidOf K (entriesOf (ds.map Prod.snd))).map nameOf := by
  induction ds with
  | nil =>
      intro K
      simp [told]
  | cons p ds ih =>
      intro K
      rw [told, List.map_append, reports_names, ← List.append_assoc, ← List.map_append,
        ← mergeNew_eq_append, ih, List.map_cons, entriesOf_cons, mergeNew_append]

/-! ### Runs within the capacities -/

lemma mem_known {e : Entry} (he : e ∈ known t i cs) :
    e ∈ i.entry :: entriesOf (handledBy t i.uuid cs) := by
  rcases mem_of_mem_mergeNew he with he | he
  · exact List.mem_cons.mpr (Or.inl (List.mem_singleton.mp he))
  · exact List.mem_cons_of_mem _ he

lemma known_nodup : ((known t i cs).map uuidOf).Nodup := nodup_mergeNew (List.nodup_singleton _)

/-- The calls come to an end if whatever is known of the entries that they handle can be sent. -/
lemma comes_of_sendable (hm : Served t m)
    (h : ∀ K : List Entry, (K.map uuidOf).Nodup →
      K ⊆ i.entry :: entriesOf (handledBy t i.uuid cs) → Sendable t K) : Comes t m i cs := by
  refine ⟨?_, ?_⟩
  · have hfits := (h (known t i cs) known_nodup fun e he => mem_known he).fits
    have hmsg := hm.msg
    have hlt := t.bufSize_lt
    rw [known] at hfits
    exact ⟨by omega, by omega⟩
  · rintro pre c post rfl -
    refine h _ known_nodup fun e he => ?_
    have hpre : pre ++ c :: post = (pre ++ [c]) ++ post := by simp
    rw [hpre, handledBy_append, entriesOf_append]
    exact List.cons_subset_cons _ (List.subset_append_left _ _) (mem_known he)

/-- All packets that the turns handle have arrived. -/
lemma mem_handledBy_finds {d : Packet} (hd : d ∈ handledBy t i.uuid (finds t i.uuid cs)) :
    d ∈ others i.uuid (cs.flatMap Call.bcast ++ cs.flatMap Call.mcast) := by
  obtain ⟨cb, cm, hcb, hcm, hb, hmc⟩ := merged_account t i.uuid cs
  rw [← merged_packets] at hd
  obtain ⟨⟨src, d'⟩, hp, rfl⟩ := List.mem_map.mp hd
  rw [others_append, List.mem_append, hcb, hcm, others_append, others_append, ← hb, ← hmc]
  have hmem : ∀ src', src = src' → d' ∈ ofChannel src' (merged t i.uuid cs) := by
    rintro src' rfl
    exact List.mem_map.mpr ⟨_, List.mem_filter.mpr ⟨hp, by simp⟩, rfl⟩
  obtain ⟨c, -, hc⟩ := List.mem_flatMap.mp hp
  rcases mem_drainFrom _ _ _ _ _ _ hc with ⟨hsrc, -⟩ | ⟨hsrc, -⟩
  · exact Or.inl (List.mem_append_left _ (hmem _ hsrc))
  · exact Or.inr (List.mem_append_left _ (hmem _ hsrc))

/-- A run comes to no halt if whatever it can know can be sent. -/
lemma main_settles (hm : Served t m) (i : LocalInfo) (hcs : ∀ c ∈ cs, c.Ok t)
    (hfits : ∀ K : List Entry, (K.map uuidOf).Nodup →
      K ⊆ i.entry :: entriesOf (others i.uuid (cs.flatMap Call.bcast ++ cs.flatMap Call.mcast)) →
      Sendable t K) :
    ∃ s₀ s, mainStart t m i.toLocalFields = .ok s₀
      ∧ Settles (fun k => mainLoop t m i.uuid cs k s₀) (.ok s) ∧ Turned t i cs s := by
  have hcomes : Comes t m i (finds t i.uuid cs) := by
    refine comes_of_sendable hm fun K hnodup hK => hfits K hnodup fun e he => ?_
    rcases List.mem_cons.mp (hK he) with rfl | he
    · exact List.mem_cons_self ..
    · obtain ⟨d, hd, he⟩ := List.mem_flatMap.mp he
      exact List.mem_cons_of_mem _ (List.mem_flatMap.mpr ⟨d, mem_handledBy_finds hd, he⟩)
  obtain ⟨s₀, hs₀, hturned₀⟩ := mainStart_spec hm i
  rcases mainLoop_cases cs hm hcs hturned₀ with ⟨-, s, hrun, hturned⟩ | ⟨hnot, -⟩
  · exact ⟨s₀, s, hs₀, hrun, hturned⟩
  · exact absurd hcomes hnot

/-- When the queues are empty, all packets of other nodes that have arrived have been handled. -/
lemma mem_handledBy_iff (hempty : waiting t i.uuid cs = ([], [])) {d : Packet} :
    d ∈ handledBy t i.uuid (finds t i.uuid cs)
      ↔ d ∈ others i.uuid (cs.flatMap Call.bcast ++ cs.flatMap Call.mcast) := by
  refine ⟨mem_handledBy_finds, fun hd => ?_⟩
  obtain ⟨cb, cm, hcb, hcm, hb, hmc⟩ := merged_account t i.uuid cs
  rw [hempty, List.append_nil] at hcb hcm
  rw [others_append, List.mem_append, hcb, hcm, ← hb, ← hmc] at hd
  rw [← merged_packets]
  rcases hd with hd | hd
  · obtain ⟨p, hp, rfl⟩ := List.mem_map.mp hd
    exact List.mem_map_of_mem (List.mem_filter.mp hp).1
  · obtain ⟨p, hp, rfl⟩ := List.mem_map.mp hd
    exact List.mem_map_of_mem (List.mem_filter.mp hp).1

/-- Without multicast nothing is ever left on that socket. -/
lemma waiting_mcast {uuid : U64 × U64} (hcs : ∀ c ∈ cs, c.mcast = []) :
    (waiting t uuid cs).2 = [] := by
  obtain ⟨cb, cm, -, hcm, -⟩ := merged_account t uuid cs
  have hnone : cs.flatMap Call.mcast = [] := List.flatMap_eq_nil_iff.mpr hcs
  exact (List.append_eq_nil_iff.mp (hcm.symm.trans hnone)).2

/-- Every quiet turn leaves less, until nothing is left. -/
lemma waiting_quiet_all {quiet : List Call}
    (hquiet : ∀ c ∈ quiet, c.bcast = [] ∧ c.mcast = [] ∧ 0 < c.ifaces)
    (hmc : t.multicast = false → ∀ c ∈ cs, c.mcast = []) {k : ℕ}
    (hlen : (waiting t i.uuid cs).1.length + (waiting t i.uuid cs).2.length
      ≤ k + quiet.length) :
    (waiting t i.uuid (cs ++ quiet)).1.length + (waiting t i.uuid (cs ++ quiet)).2.length ≤ k := by
  induction quiet using List.reverseRecOn generalizing k with
  | nil =>
      rw [List.append_nil]
      simpa using hlen
  | append_singleton quiet c ih =>
      obtain ⟨hb, hm, hif⟩ := hquiet c (by simp)
      have hquiet' : ∀ c ∈ quiet, c.bcast = [] ∧ c.mcast = [] ∧ 0 < c.ifaces :=
        fun c hc => hquiet c (by simp [hc])
      rw [← List.append_assoc]
      refine waiting_quiet hif hb hm (fun h => waiting_mcast fun c hc => ?_) (ih hquiet' ?_)
      · exact (List.mem_append.mp hc).elim (hmc h c) fun hc => (hquiet' c hc).2.1
      · rw [List.length_append, List.length_singleton] at hlen
        omega

/-! ### When a turn sends -/

lemma sends_iff {n : ℕ} : Sends n ↔ n % 2 ^ 32 % 15 = 0 := by
  rw [Sends, ← BitVec.toNat_inj, BitVec.toNat_umod, BitVec.toNat_ofNat]
  rfl

/-- One of 15 turns on end sends, also at the wrap of the counter. -/
lemma exists_sends (k : ℕ) : ∃ j, k ≤ j ∧ j < k + 15 ∧ j % 2 ^ 32 % 15 = 0 := by
  by_cases hwrap : k % 2 ^ 32 + 14 < 2 ^ 32
  · obtain ⟨d, hd, hmod⟩ : ∃ d, d < 15 ∧ (k % 2 ^ 32 + d) % 15 = 0 :=
      ⟨(15 - k % 2 ^ 32 % 15) % 15, by omega, by omega⟩
    have hadd : (k + d) % 2 ^ 32 = k % 2 ^ 32 + d := by omega
    exact ⟨k + d, by omega, by omega, by rw [hadd, hmod]⟩
  · by_cases h0 : k % 2 ^ 32 = 0
    · exact ⟨k, by omega, by omega, by omega⟩
    · exact ⟨k + (2 ^ 32 - k % 2 ^ 32), by omega, by omega, by omega⟩

/-- A run that halts halts whatever would come then. -/
lemma mainLoop_append_halt {s : LoopState t.bits} {uuid : U64 × U64} {x : Halt}
    (h : Settles (fun k => mainLoop t m uuid cs k s) (.error x)) (cs' : List Call) :
    Settles (fun k => mainLoop t m uuid (cs ++ cs') k s) (.error x) := by
  obtain ⟨N, hN⟩ := h
  refine ⟨N, fun k hk => ?_⟩
  have hhalt := hN k hk
  dsimp only [mainLoop] at hhalt ⊢
  rw [List.foldlM_append, hhalt, error_bind]

/-! ### The results -/

/-- A list of the own entry and the one in `greeting` can be sent. -/
lemma greeting_sendable {K : List Entry} (hnodup : (K.map uuidOf).Nodup)
    (hK : K ⊆ sampleInfo.entry :: entriesOf [greeting]) : Sendable .linux64 K := by
  obtain ⟨L, hperm, hsub⟩ := List.subperm_of_subset hnodup.of_map hK
  have htotal : total L = total K := (hperm.map _).sum_eq
  have hle := total_le_of_sublist hsub
  have hlen := hsub.length_le
  have hsum : total (sampleInfo.entry :: entriesOf [greeting]) = 96 := by
    rw [total_cons, sampleInfo, LocalInfo.sample_length, entriesOf_cons, entriesOf_nil,
      List.append_nil]
    simp [greeting, announce, newcomer, total_crowd]
  have htwo : (sampleInfo.entry :: entriesOf [greeting]).length = 2 := rfl
  refine ⟨?_, fun _ => ?_⟩
  · simp only [Target.bufSize, Target.linux64]
    omega
  · rw [← hperm.length_eq]
    omega

lemma greeting_others : others sampleInfo.uuid ([find [greeting]].flatMap Call.bcast
    ++ [find [greeting]].flatMap Call.mcast) = [greeting] := by
  simp [find, others, greeting, announce, sampleInfo, LocalInfo.sample]

/-- The run that receives `greeting` in its first turn comes to no halt. -/
lemma greeting_settles :
    ∃ s₀ s, mainStart .linux64 .spread sampleInfo.toLocalFields = .ok s₀
      ∧ Settles (fun k => mainLoop .linux64 .spread sampleInfo.uuid [find [greeting]] k s₀)
        (.ok s) := by
  obtain ⟨s₀, s, hs₀, hs, -⟩ := main_settles spread_served sampleInfo greeting_call_ok fun K hnodup hK =>
    greeting_sendable hnodup (greeting_others ▸ hK)
  exact ⟨s₀, s, hs₀, hs⟩

/-- Whenever it arrives, as long as each datagram is a packet that fits, with well formed entries, or
is never accepted (`Call.Ok`), no turn loses, repeats or reorders one. On each socket what has arrived
is what has been read and what is still in the queue, all packets of other nodes that have been read
have been merged into the list, those of a socket in the order in which they came, and what has been
printed is printed about them. -/
theorem main_loses_nothing (hm : Served t m) (i : LocalInfo) (hcs : ∀ c ∈ cs, c.Ok t) :
    ∃ s₀, mainStart t m i.toLocalFields = .ok s₀
      ∧ ∀ s, Settles (fun k => mainLoop t m i.uuid cs k s₀) (.ok s) →
        ∃ cb cm lb lm ds, cs.flatMap Call.bcast = cb ++ lb ∧ cs.flatMap Call.mcast = cm ++ lm
          ∧ s.bcast = lb.map Item.arrival ∧ s.mcast = lm.map Item.arrival
          ∧ (∀ p ∈ ds, p.1 = .broadcast ∨ p.1 = .multicast)
          ∧ ofChannel .broadcast ds = others i.uuid cb
          ∧ ofChannel .multicast ds = others i.uuid cm
          ∧ Holds t s.net.node.nodeList evrnetNodelistV1
            (mergeNew uuidOf [i.entry] (entriesOf (ds.map Prod.snd)))
          ∧ s.net.node.found = told [i.entry] ds := by
  obtain ⟨s₀, hs₀, hturned₀⟩ := mainStart_spec hm i
  refine ⟨s₀, hs₀, fun s hs => ?_⟩
  have hturned := hturned₀.of_settles hm hcs hs
  obtain ⟨cb, cm, hcb, hcm, hb, hmc⟩ := merged_account t i.uuid cs
  refine ⟨cb, cm, _, _, merged t i.uuid cs, hcb, hcm, hturned.bcast, hturned.mcast, ?_, hb, hmc, ?_,
    hturned.found⟩
  · intro p hp
    obtain ⟨c, -, hp⟩ := List.mem_flatMap.mp hp
    exact (mem_drainFrom _ _ _ _ _ p hp).imp And.left And.left
  · rw [merged_packets]
    exact hturned.after.list

theorem main_loses_nothing_sample :
    ∃ s₀ s, mainStart .linux64 .spread sampleInfo.toLocalFields = .ok s₀
      ∧ Settles (fun k => mainLoop .linux64 .spread sampleInfo.uuid [find [greeting]] k s₀) (.ok s)
      ∧ ∃ ds, s.net.node.found = told [sampleInfo.entry] ds
        ∧ Holds .linux64 s.net.node.nodeList evrnetNodelistV1
          (mergeNew uuidOf [sampleInfo.entry] (entriesOf (ds.map Prod.snd))) := by
  obtain ⟨s₀, s, hs₀, hs⟩ := greeting_settles
  obtain ⟨s₁, hs₁, h⟩ := main_loses_nothing spread_served sampleInfo greeting_call_ok
  obtain rfl : s₀ = s₁ := Except.ok.inj (hs₀.symm.trans hs₁)
  obtain ⟨cb, cm, lb, lm, ds, -, -, -, -, -, -, -, hholds, hfound⟩ := h s hs
  exact ⟨s₀, s, hs₀, hs, ds, hfound, hholds⟩

/-- When nothing arrives any more, and an interface is known, the queues are empty after as many turns
as datagrams have arrived, and the node knows itself and all that it has been told of, whatever it has
been told of first. What has arrived is as `Call.Ok` says, and without multicast nothing is on that
socket. -/
theorem main_catches_up (hm : Served t m) (i : LocalInfo) (hcs : ∀ c ∈ cs, c.Ok t)
    (hmc : t.multicast = false → ∀ c ∈ cs, c.mcast = [])
    (hfits : ∀ K : List Entry, (K.map uuidOf).Nodup →
      K ⊆ i.entry :: entriesOf (others i.uuid (cs.flatMap Call.bcast ++ cs.flatMap Call.mcast)) →
      Sendable t K)
    {quiet : List Call} (hquiet : ∀ c ∈ quiet, c.bcast = [] ∧ c.mcast = [] ∧ 0 < c.ifaces)
    (hlen : (cs.flatMap Call.bcast ++ cs.flatMap Call.mcast).length ≤ quiet.length) :
    ∃ s₀ s K, mainStart t m i.toLocalFields = .ok s₀
      ∧ Settles (fun k => mainLoop t m i.uuid (cs ++ quiet) k s₀) (.ok s)
      ∧ s.bcast = [] ∧ s.mcast = []
      ∧ Holds t s.net.node.nodeList evrnetNodelistV1 K
      ∧ ∀ u, u ∈ K.map uuidOf ↔ u = i.uuid
        ∨ ∃ d ∈ others i.uuid (cs.flatMap Call.bcast ++ cs.flatMap Call.mcast),
          u ∈ d.entries.map uuidOf := by
  have harrive : (cs ++ quiet).flatMap Call.bcast ++ (cs ++ quiet).flatMap Call.mcast
      = cs.flatMap Call.bcast ++ cs.flatMap Call.mcast := by
    have hb : quiet.flatMap Call.bcast = [] :=
      List.flatMap_eq_nil_iff.mpr fun c hc => (hquiet c hc).1
    have hm : quiet.flatMap Call.mcast = [] :=
      List.flatMap_eq_nil_iff.mpr fun c hc => (hquiet c hc).2.1
    rw [List.flatMap_append, List.flatMap_append, hb, hm, List.append_nil, List.append_nil]
  have hok : ∀ c ∈ cs ++ quiet, c.Ok t := by
    intro c hc
    rcases List.mem_append.mp hc with hc | hc
    · exact hcs c hc
    · obtain ⟨hb, hm, -⟩ := hquiet c hc
      exact ⟨by simp [hb], by simp [hm]⟩
  obtain ⟨s₀, s, hs₀, hrun, hturned⟩ := main_settles hm i hok (harrive ▸ hfits)
  have hempty : waiting t i.uuid (cs ++ quiet) = ([], []) := by
    obtain ⟨cb, cm, hcb, hcm, -⟩ := merged_account t i.uuid cs
    rw [List.length_append, hcb, hcm, List.length_append, List.length_append] at hlen
    have hnone := waiting_quiet_all (i := i) (k := 0) hquiet hmc (by omega)
    exact Prod.ext (List.length_eq_zero_iff.mp (by omega))
      (List.length_eq_zero_iff.mp (by omega))
  refine ⟨s₀, s, _, hs₀, hrun, ?_, ?_, hturned.after.list, fun u => ?_⟩
  · rw [hturned.bcast, hempty, List.map_nil]
  · rw [hturned.mcast, hempty, List.map_nil]
  · rw [known, mem_keys_mergeNew, List.map_singleton, List.mem_singleton, ← harrive]
    refine or_congr Iff.rfl ?_
    simp only [List.mem_map, entriesOf, List.mem_flatMap, mem_handledBy_iff hempty]
    constructor
    · rintro ⟨e, ⟨d, hd, he⟩, rfl⟩
      exact ⟨d, hd, e, he, rfl⟩
    · rintro ⟨d, hd, e, he, rfl⟩
      exact ⟨e, ⟨d, hd, he⟩, rfl⟩

theorem main_catches_up_sample :
    ∃ s₀ s K, mainStart .linux64 .spread sampleInfo.toLocalFields = .ok s₀
      ∧ Settles (fun k => mainLoop .linux64 .spread sampleInfo.uuid
          ([find [loopback, greeting]] ++ [find [], find []]) k s₀) (.ok s)
      ∧ s.bcast = [] ∧ Holds .linux64 s.net.node.nodeList evrnetNodelistV1 K
      ∧ ∀ u, u ∈ K.map uuidOf ↔ u = (0, 0) ∨ u ∈ newcomer.map uuidOf := by
  have hok : ∀ c ∈ [find [loopback, greeting]], c.Ok .linux64 := by
    intro c hc
    obtain rfl := List.mem_singleton.mp hc
    exact ⟨sample_queue_ok, by simp [find]⟩
  have hothers : others sampleInfo.uuid ([find [loopback, greeting]].flatMap Call.bcast
      ++ [find [loopback, greeting]].flatMap Call.mcast) = [greeting] := sample_others
  have hfits : ∀ K : List Entry, (K.map uuidOf).Nodup →
      K ⊆ sampleInfo.entry :: entriesOf (others sampleInfo.uuid
        ([find [loopback, greeting]].flatMap Call.bcast
          ++ [find [loopback, greeting]].flatMap Call.mcast)) → Sendable .linux64 K := by
    rw [hothers]
    exact fun K => greeting_sendable
  have hquiet : ∀ c ∈ [find [], find []], c.bcast = [] ∧ c.mcast = [] ∧ 0 < c.ifaces := by
    simp [find]
  obtain ⟨s₀, s, K, hs₀, hrun, hb, -, hholds, hkeys⟩ := main_catches_up spread_served sampleInfo hok
    (by simp [Target.linux64]) hfits hquiet (by simp [find])
  refine ⟨s₀, s, K, hs₀, hrun, hb, hholds, fun u => ?_⟩
  rw [hkeys u, hothers]
  simp [greeting, announce, sampleInfo, LocalInfo.sample]

/-- What has been printed are the names of the list behind the own entry. -/
lemma Turned.names (h : Turned t i cs s) :
    ∃ K, Holds t s.net.node.nodeList evrnetNodelistV1 (i.entry :: K)
      ∧ ((i.entry :: K).map uuidOf).Nodup
      ∧ s.net.node.found.map Found.name = K.map nameOf := by
  have hfirst : [i.entry] <+: known t i (finds t i.uuid cs) := prefix_mergeNew
  obtain ⟨K, hK⟩ : ∃ K, i.entry :: K = known t i (finds t i.uuid cs) := hfirst
  refine ⟨K, hK ▸ h.after.list, hK ▸ known_nodup, ?_⟩
  have hnames := told_names (merged t i.uuid cs) (K := [i.entry])
  rw [merged_packets, ← known, ← hK, ← h.found] at hnames
  exact (List.append_right_inj [nameOf i.entry]).mp hnames

/-- In a run in which what arrives is as `Call.Ok` says, each node but the own one is printed once, when
it is found: the names printed are those of the list behind the own entry, in the order of the list,
which holds no UUID twice. -/
theorem main_reports_once (hm : Served t m) (i : LocalInfo) (hcs : ∀ c ∈ cs, c.Ok t) :
    ∃ s₀, mainStart t m i.toLocalFields = .ok s₀
      ∧ ∀ s, Settles (fun k => mainLoop t m i.uuid cs k s₀) (.ok s) →
        ∃ K, Holds t s.net.node.nodeList evrnetNodelistV1 (i.entry :: K)
          ∧ ((i.entry :: K).map uuidOf).Nodup
          ∧ s.net.node.found.map Found.name = K.map nameOf := by
  obtain ⟨s₀, hs₀, hturned₀⟩ := mainStart_spec hm i
  exact ⟨s₀, hs₀, fun s hs => (hturned₀.of_settles hm hcs hs).names⟩

theorem main_reports_once_sample :
    ∃ s₀ s K, mainStart .linux64 .spread sampleInfo.toLocalFields = .ok s₀
      ∧ Settles (fun k => mainLoop .linux64 .spread sampleInfo.uuid [find [greeting]] k s₀) (.ok s)
      ∧ Holds .linux64 s.net.node.nodeList evrnetNodelistV1 (sampleInfo.entry :: K)
      ∧ s.net.node.found.map Found.name = K.map nameOf := by
  obtain ⟨s₀, s, hs₀, hs⟩ := greeting_settles
  obtain ⟨s₁, hs₁, h⟩ := main_reports_once spread_served sampleInfo greeting_call_ok
  obtain rfl : s₀ = s₁ := Except.ok.inj (hs₀.symm.trans hs₁)
  obtain ⟨K, hholds, -, hnames⟩ := h s hs
  exact ⟨s₀, s, K, hs₀, hs, hholds, hnames⟩

end

end EverythingNet
