import Mathlib.Tactic
import EverythingNet.Net.Run

/-!
Where the nodes that a call of `NET_HandleBcast` finds are said to come from.

* `Introduces d s`: the entries of the packet `d` start with the entry `s` of its sender.
  `attribution`: what is to be printed about a new entry of such a packet.
* `reports_introduces`: what is printed about a packet is that, whatever the list knows already.
* `told_append`: what is printed about packets one after the other. `drainFrom_packets`,
  `mem_drainFrom`: the packets are those of `drain`, each from the queue of its channel.
* `discovery_attribution`: what is printed in the receiving loop, packet by packet.
-/

namespace EverythingNet

open CMem KeyedLog

/-- The entries start with that of the sender. -/
def Introduces (d : Packet) (s : Entry) : Prop := d.entries.head? = some s ∧ s.uuid = d.uuid

/-- What is to be printed about the new entry `e` of a packet whose sender has the entry `s`: the
sender itself comes over the channel, all others are known from it. -/
def attribution (src : DiscoverySrc) (d : Packet) (s e : Entry) : Found :=
  if e.uuid = d.uuid then ⟨e.name, discoverySrcToStr src, none⟩
  else ⟨e.name, discoverySrcToStr .otherNode, some s.name⟩

/-- A channel is printed for the sender's own entry, and for no other. -/
lemma attribution_source {src : DiscoverySrc} {d : Packet} {s e : Entry}
    (hsrc : src = .broadcast ∨ src = .multicast) :
    (attribution src d s e).source = discoverySrcToStr src ↔ e.uuid = d.uuid := by
  have hne : discoverySrcToStr .otherNode ≠ discoverySrcToStr src := by
    rcases hsrc with rfl | rfl <;> decide
  rw [attribution]
  split_ifs with h
  · exact ⟨fun _ => h, fun _ => rfl⟩
  · exact ⟨fun h' => absurd h' hne, fun h' => absurd h' h⟩

/-! ### One packet -/

section

variable {src : DiscoverySrc} {s : Entry} {K L ds : List Entry} {d : Packet}

/-- Behind the sender's entry, whatever is new is attributed to the sender. -/
lemma reports_behind (L : List Entry) :
    ∀ {K ds : List Entry}, reports src K (s :: ds) L
      = (fresh uuidOf (K.map uuidOf) L).map
        fun e => ⟨e.name, discoverySrcToStr .otherNode, some s.name⟩ := by
  induction L with
  | nil =>
      intro K ds
      rfl
  | cons e L ih =>
      intro K ds
      rw [reports, fresh]
      by_cases hmem : e.uuid ∈ K.map uuidOf
      · rw [if_pos hmem, if_pos hmem, List.cons_append, ih]
      · rw [if_neg hmem, if_neg hmem, List.cons_append, ih, List.map_cons, List.map_append,
          List.map_singleton]
        rfl

/-- What is printed about the packet of a sender that introduces itself. -/
lemma reports_introduces (hs : Introduces d s) :
    reports src K [] d.entries
      = (fresh uuidOf (K.map uuidOf) d.entries).map (attribution src d s) := by
  obtain ⟨hhead, huuid⟩ := hs
  obtain ⟨L, hL⟩ : ∃ L, d.entries = s :: L := List.head?_eq_some_iff.mp hhead
  -- an entry that is not the sender's has another key, once the sender's is taken in
  have hothers : ∀ seen, s.uuid ∈ seen → (fresh uuidOf seen L).map (attribution src d s)
      = (fresh uuidOf seen L).map
        fun e => ⟨e.name, discoverySrcToStr .otherNode, some s.name⟩ := by
    intro seen hseen
    refine List.map_congr_left fun e he => ?_
    have hne : e.uuid ≠ d.uuid := fun h =>
      key_notMem_of_mem_fresh he (show e.uuid ∈ seen by rw [h, ← huuid]; exact hseen)
    rw [attribution, if_neg hne]
  rw [hL, reports, fresh]
  by_cases hmem : s.uuid ∈ K.map uuidOf
  · rw [if_pos hmem, if_pos hmem, List.nil_append, reports_behind, hothers _ hmem]
  · rw [if_neg hmem, if_neg hmem, List.nil_append, reports_behind, List.map_cons,
      hothers _ (List.mem_append_right _ (List.mem_singleton_self _)), List.map_append,
      List.map_singleton, attribution, if_pos huuid]
    rfl

end

/-! ### The packets of a call -/

/-- What is printed about packets that come one after the other. -/
lemma told_append (ds ds' : List (DiscoverySrc × Packet)) :
    ∀ {K : List Entry}, told K (ds ++ ds')
      = told K ds ++ told (mergeNew uuidOf K (entriesOf (ds.map Prod.snd))) ds' := by
  induction ds with
  | nil =>
      intro K
      rfl
  | cons p ds ih =>
      intro K
      rw [List.cons_append, told, told, ih, List.append_assoc, List.map_cons, entriesOf_cons,
        mergeNew_append]

section

variable {uuid : U64 × U64} {n : ℕ} {mc : Bool} {bq mq bq' mq' : List Item} {d : Packet}

/-- The packets are those that `drain` lists. -/
lemma drainFrom_packets (uuid : U64 × U64) (n : ℕ) (mc : Bool) (bq mq : List Item) :
    (drainFrom uuid n mc bq mq).map Prod.snd = drain uuid n mc bq mq := by
  induction bq, mq using drain.induct uuid n mc with
  | case1 bq mq bq' mq' hnext => rw [drainFrom_none hnext, drain_none hnext, List.map_nil]
  | case2 bq mq d bq' mq' hnext hown =>
      rw [drainFrom_own hnext hown, drain_own hnext hown, List.map_nil]
  | case3 bq mq d bq' mq' hnext hother ih =>
      rw [drainFrom_other hnext hother, drain_other hnext hother, List.map_cons, ih]

/-- Where a packet of a call lies: in the queue of its channel. -/
def FromQueue (bq mq : List Item) (p : DiscoverySrc × Packet) : Prop :=
  (p.1 = .broadcast ∧ ∃ errno, .packet p.2 errno ∈ bq)
    ∨ (p.1 = .multicast ∧ ∃ errno, .packet p.2 errno ∈ mq)

/-- The packet that a round gets lies in the queue of the channel that the round reports, and what
lies in the rest of the queues lies in them. -/
lemma nextPacket_fromQueue (h : nextPacket n mc bq mq = (some d, bq', mq')) :
    FromQueue bq mq (nextSource n bq, d)
      ∧ ∀ p, FromQueue bq' mq' p → FromQueue bq mq p := by
  rw [nextPacket] at h
  rw [nextSource]
  split at h
  · next d' q hscan =>
      simp only [Prod.mk.injEq, Option.some.injEq] at h
      obtain ⟨rfl, rfl, rfl⟩ := h
      obtain ⟨junk, errno, hq, -⟩ := scan_some (k := n) (q := bq) (d := d') (by rw [hscan])
      have hsub : q ⊆ bq := by
        have hsuffix := (scan_suffix n bq).subset
        rwa [hscan] at hsuffix
      rw [hscan]
      refine ⟨Or.inl ⟨rfl, errno, hq ▸ by simp⟩, ?_⟩
      rintro p (⟨hp, errno', hmem⟩ | hp)
      · exact Or.inl ⟨hp, errno', hsub hmem⟩
      · exact Or.inr hp
  · next q hscan =>
      rw [hscan]
      split_ifs at h
      · simp only [Prod.mk.injEq] at h
        obtain ⟨hd, rfl, rfl⟩ := h
        have hsub : q ⊆ bq := by
          have hsuffix := (scan_suffix n bq).subset
          rwa [hscan] at hsuffix
        cases mq with
        | nil => simp [scanMcast] at hd
        | cons i mq =>
            cases i with
            | packet d' errno =>
                obtain rfl : d' = d := by simpa [scanMcast] using hd
                refine ⟨Or.inr ⟨rfl, errno, List.mem_cons_self ..⟩, ?_⟩
                rintro p (⟨hp, errno', hmem⟩ | ⟨hp, errno', hmem⟩)
                · exact Or.inl ⟨hp, errno', hsub hmem⟩
                · exact Or.inr ⟨hp, errno', List.mem_cons_of_mem _ hmem⟩
            | junk bytes errno => simp [scanMcast] at hd
            | empty errno => simp [scanMcast] at hd
            | failure errno => simp [scanMcast] at hd
      · simp at h

/-- All packets of a call lie in the queues of their channels. -/
lemma mem_drainFrom (uuid : U64 × U64) (n : ℕ) (mc : Bool) (bq mq : List Item) :
    ∀ p ∈ drainFrom uuid n mc bq mq, FromQueue bq mq p := by
  induction bq, mq using drain.induct uuid n mc with
  | case1 bq mq bq' mq' hnext => simp [drainFrom_none hnext]
  | case2 bq mq d bq' mq' hnext hown => simp [drainFrom_own hnext hown]
  | case3 bq mq d bq' mq' hnext hother ih =>
      intro p hp
      rw [drainFrom_other hnext hother] at hp
      obtain ⟨hfirst, hrest⟩ := nextPacket_fromQueue hnext
      rcases List.mem_cons.mp hp with rfl | hp
      · exact hfirst
      · exact hrest p (ih p hp)

end

/-! ### The receiving loop -/

section

variable {t : Target} {m : Malloc t.bits} {uuid : U64 × U64} {n : ℕ} {bs : ℕ → Bool} {ms : Bool}
  {msg : Block} {node : NodeState t.bits} {v : U32} {K : List Entry}

/-- A receiving loop that comes to its end has merged the packets of `drain` into the list. It has
printed, for each of them that starts with its sender's entry and whatever came before and after
it, just the attributions of the entries that were new. -/
theorem discovery_attribution (uuid : U64 × U64) (n : ℕ) (bs : ℕ → Bool) (ms : Bool)
    (bq mq : List Item) (hbq : ∀ i ∈ bq, i.Ok t) (hmq : ∀ i ∈ mq, i.Ok t) (hm : Buffer t msg)
    (hK : Holds t node.nodeList v K) (hne : K ≠ []) (hlim : 8 + total K ≤ m.limit)
    {r : RecvState t.bits}
    (hr : Settles (fun k => netReceive t m uuid (sockEnv n bs ms) k
      ⟨msg, node, bq.map Item.arrival, mq.map Item.arrival⟩) (.ok r)) :
    Holds t r.node.nodeList v (mergeNew uuidOf K (entriesOf (drain uuid n t.multicast bq mq)))
      ∧ (drainFrom uuid n t.multicast bq mq).map Prod.snd = drain uuid n t.multicast bq mq
      ∧ (∀ p ∈ drainFrom uuid n t.multicast bq mq, FromQueue bq mq p)
      ∧ ∀ before src d after s, drainFrom uuid n t.multicast bq mq = before ++ (src, d) :: after →
        Introduces d s →
        (r.node.found = node.found ++ told K before
          ++ (fresh uuidOf ((mergeNew uuidOf K (entriesOf (before.map Prod.snd))).map uuidOf)
            d.entries).map (attribution src d s)
          ++ told (mergeNew uuidOf K (entriesOf ((before ++ [(src, d)]).map Prod.snd))) after)
        ∧ ∀ e, (attribution src d s e).source = discoverySrcToStr src ↔ e.uuid = d.uuid := by
  have hroom : Room m K (entriesOf (drain uuid n t.multicast bq mq)) := by
    by_contra hfull
    obtain ⟨x, hloop⟩ := netReceive_full uuid n bs ms bq mq hbq hmq hm hK hne hlim hfull
    exact absurd (hr.unique hloop.settles) (by simp)
  obtain ⟨r', hloop, -, hholds, hfound⟩ := netReceive_drain uuid n bs ms bq mq hbq hmq hm hK hne
    hroom
  obtain rfl : r' = r := Except.ok.inj (hloop.settles.unique hr)
  have hmem := mem_drainFrom uuid n t.multicast bq mq
  refine ⟨hholds, drainFrom_packets uuid n t.multicast bq mq, hmem, ?_⟩
  intro before src d after s hsplit hs
  have hsrc : src = .broadcast ∨ src = .multicast := by
    rcases hmem (src, d) (by rw [hsplit]; simp) with h | h
    · exact Or.inl h.1
    · exact Or.inr h.1
  refine ⟨?_, fun e => attribution_source hsrc⟩
  calc r'.node.found
      = node.found ++ told K (before ++ (src, d) :: after) := by rw [hfound, hsplit]
    _ = node.found ++ told K before
          ++ reports src (mergeNew uuidOf K (entriesOf (before.map Prod.snd))) [] d.entries
          ++ told (mergeNew uuidOf (mergeNew uuidOf K (entriesOf (before.map Prod.snd))) d.entries)
            after := by
        rw [told_append, told]
        simp only [List.append_assoc]
    _ = _ := by
        rw [reports_introduces hs, ← mergeNew_append, List.map_append, entriesOf_append,
          List.map_singleton, entriesOf_cons, entriesOf_nil, List.append_nil]

end

/-- The packet of a node that introduces itself and another node. -/
def hearsay : Packet := announce (1, 0) evrnetNodelistV1 (crowd 1 2 0)

lemma hearsay_ok (errno : Errno) : (Item.packet hearsay errno).Ok .linux64 := by
  refine ⟨?_, fun _ => wellFormed_of_mem_crowd⟩
  simp [Packet.Fits, hearsay, announce, total_crowd, Target.bufSize, Target.linux64]

lemma hearsay_drain : drainFrom (0, 0) 1 true [] [Item.packet hearsay .again]
    = [(.multicast, hearsay)] := by
  have hother : hearsay.uuid ≠ (0, 0) := by simp [hearsay, announce]
  rw [drainFrom_other (d := hearsay) (by rfl) hother, drainFrom_none (by rfl)]
  rfl

lemma hearsay_room : Room (w := 64) .spread (crowd 0 1 0)
    (entriesOf (drain (0, 0) 1 true [] [Item.packet hearsay .again])) := by
  have hle := total_mergeNew_le (crowd 0 1 0) (crowd 1 2 0)
  have htotal : total (crowd 0 1 0) + total (crowd 1 2 0) = 144 := by simp [total_crowd]
  have hentries : hearsay.entries = crowd 1 2 0 := rfl
  rw [← drainFrom_packets, hearsay_drain, List.map_singleton, entriesOf_cons, entriesOf_nil,
    List.append_nil, hentries]
  refine ⟨by omega, ?_⟩
  simp only [Malloc.spread]
  omega

theorem discovery_attribution_sample :
    ∃ r e₁ e₂, crowd 1 2 0 = [e₁, e₂]
      ∧ Settles (fun k => netReceive .linux64 .spread (0, 0) (sockEnv 1 (fun _ => true) true) k
          ⟨zeroed .linux64 4096, sampleNode, [].map Item.arrival,
            [Item.packet hearsay .again].map Item.arrival⟩) (.ok r)
      ∧ r.node.found
        = [⟨e₁.name, "Multicast", none⟩, ⟨e₂.name, "Other Node", some e₁.name⟩] := by
  have hlim : 8 + total (crowd 0 1 0) ≤ Malloc.spread.limit := by
    rw [total_sample]
    norm_num [Malloc.spread]
  have hmq : ∀ i ∈ [Item.packet hearsay .again], i.Ok .linux64 := by simp [hearsay_ok]
  obtain ⟨r, hloop, -⟩ := netReceive_drain (m := Malloc.spread) (0, 0) 1 (fun _ => true) true
    [] [Item.packet hearsay .again] (by simp) hmq zeroed_linux64 sampleNode_holds
    (by simp [crowd]) hearsay_room
  have hr : Settles (fun k => netReceive .linux64 .spread (0, 0) (sockEnv 1 (fun _ => true) true) k
      ⟨zeroed .linux64 4096, sampleNode, [].map Item.arrival,
        [Item.packet hearsay .again].map Item.arrival⟩) (.ok r) := hloop.settles
  obtain ⟨-, -, -, hspec⟩ := discovery_attribution (t := .linux64) (m := Malloc.spread) (0, 0) 1
    (fun _ => true) true [] [Item.packet hearsay .again] (by simp) hmq zeroed_linux64
    sampleNode_holds (by simp [crowd]) hlim hr
  obtain ⟨e₁, e₂, hentries⟩ : ∃ e₁ e₂, crowd 1 2 0 = [e₁, e₂] := ⟨_, _, rfl⟩
  have huuids : e₁.uuid = (1, 0) ∧ e₂.uuid = (2, 0) := by
    have hkeys := keys_crowd (a := 1) (n := 2) (j := 0)
    rw [hentries] at hkeys
    simpa [List.range_succ, uuidOf] using hkeys
  obtain ⟨hfound, -⟩ := hspec [] .multicast hearsay [] e₁ hearsay_drain
    ⟨(congrArg List.head? hentries).trans rfl, huuids.1⟩
  refine ⟨r, e₁, e₂, hentries, hr, ?_⟩
  have hnew : fresh uuidOf ((crowd 0 1 0).map uuidOf) [e₁, e₂] = [e₁, e₂] := by
    simp [fresh, keys_crowd, uuidOf, huuids]
  rw [hfound, show hearsay.entries = [e₁, e₂] from hentries, List.map_nil, entriesOf_nil,
    mergeNew_nil, hnew]
  simp [told, attribution, huuids, hearsay, announce, discoverySrcToStr, sampleNode]

end EverythingNet
