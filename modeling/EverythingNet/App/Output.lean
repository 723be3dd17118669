import Mathlib.Tactic
import EverythingNet.App.Report

/-!
The loop of `main` in `app/main.c` with what it writes to standard output, all of which comes from
`NODE_MaybeAddEntry` in `app/node.c`. What `perror` says of failing sockets goes to standard error, but
for the Switch, whose own `perror` uses `printf`; it is left out.

* `netHandleMsgOut`, `recvStepOut`, `netReceiveOut`, `netHandleBcastOut`, `mainTurnOut`, `mainLoopOut`:
  the functions of `Net/Handle` and `App/Loop` with the output so far, which they add to.
* `printed`: the output is the lines of the reports. Every function keeps to that, and does what it
  does without regard to its output (`netReceiveOut_alike`, `mainTurnOut_alike`).
* `mainLoopOut_settles`: what a run prints. `main_prints`: these are lines that name the nodes of the
  list, and the reports can be read off them.
-/

namespace EverythingNet

open CMem Printf KeyedLog

/-! ### The code -/

section

variable (D : DataModel) (R : Reals) (t : Target) (m : Malloc t.bits) (uuid : U64 × U64)

/-- `netHandleMsg` with its output, which comes last. -/
def netHandleMsgOut (fuel : ℕ) (msg : Block) (node : NodeState t.bits) (out : List Byte) :
    Except Halt (Bool × Block × NodeState t.bits × List Byte) := do
  let p := BitVec.ofNat t.bits msg.base
  let msg ← netSwapHeader t msg
  let x ← load64 t.endian msg (msgUuid0 p)
  let y ← load64 t.endian msg (msgUuid1 p)
  if x = uuid.1 ∧ y = uuid.2 then
    return (true, msg, node, out)
  else
    let (msg, node, out) ← nodeCheckForNewNodesOut D R t m fuel msg node out
    return (false, msg, node, out)

/-- A round of the loop of `NET_HandleBcast` with its output. -/
def recvStepOut (env : Env) (fuel : ℕ) : RecvState t.bits × List Byte →
    Except Halt (RecvState t.bits × List Byte ⊕ RecvState t.bits × List Byte)
  | (s, out) => do
    let node := { s.node with source := .broadcast, sourceNode := none }
    let (ret, msg, bcast) ← platNetCheckBcastData t env.bcastPoll env.knownIfaces s.msg s.bcast
    if ret = 1 then
      let (own, msg, node, out) ← netHandleMsgOut D R t m uuid fuel msg node out
      if own then
        return .inr (⟨msg, node, bcast, s.mcast⟩, out)
      else
        return .inl (⟨msg, node, bcast, s.mcast⟩, out)
    else if t.multicast then
      let node := { node with source := .multicast }
      let (ret, msg, mcast) ← platNetCheckMcastData t env.mcastPoll msg s.mcast
      if ret = 1 then
        let (own, msg, node, out) ← netHandleMsgOut D R t m uuid fuel msg node out
        if own then
          return .inr (⟨msg, node, bcast, mcast⟩, out)
        else
          return .inl (⟨msg, node, bcast, mcast⟩, out)
      else
        return .inr (⟨msg, node, bcast, mcast⟩, out)
    else
      return .inr (⟨msg, node, bcast, s.mcast⟩, out)

/-- The loop of `NET_HandleBcast` with its output. -/
def netReceiveOut (env : Env) (fuel : ℕ) (s : RecvState t.bits × List Byte) :
    Except Halt (RecvState t.bits × List Byte) :=
  iter (recvStepOut D R t m uuid env fuel) fuel s

/-- `NET_HandleBcast` with its output. -/
def netHandleBcastOut (env : Env) (fuel : ℕ) (st : NetState t.bits) (bcast mcast : List Arrival)
    (out : List Byte) :
    Except Halt ((NetState t.bits × List Arrival × List Arrival × List Sent) × List Byte) := do
  let (s, out) ← netReceiveOut D R t m uuid env fuel (⟨st.msg, st.node, bcast, mcast⟩, out)
  if st.counter % 15 ≠ 0 then
    return ((⟨s.msg, s.node, st.counter + 1⟩, s.bcast, s.mcast, []), out)
  else
    let (msg, node, sent) ← netSend t m uuid env fuel s.msg s.node
    return ((⟨msg, node, st.counter + 1⟩, s.bcast, s.mcast, sent), out)

/-- A turn of the loop of `main` with its output. -/
def mainTurnOut (fuel : ℕ) : LoopState t.bits × List Byte → Call →
    Except Halt (LoopState t.bits × List Byte)
  | (s, out), c => do
    let ((net, bcast, mcast, sent), out) ← netHandleBcastOut D R t m uuid c.env fuel s.net
      (s.bcast ++ c.bcast.map Item.arrival) (s.mcast ++ c.mcast.map Item.arrival) out
    return (⟨net, bcast, mcast, s.sent ++ [sent]⟩, out)

/-- Some turns of the loop with their output. -/
def mainLoopOut (cs : List Call) (fuel : ℕ) (s : LoopState t.bits × List Byte) :
    Except Halt (LoopState t.bits × List Byte) :=
  cs.foldlM (mainTurnOut D R t m uuid fuel) s

end

/-! ### The output is the lines of the reports -/

/-- What has been printed behind `out₀`: the lines about what the node has found. -/
def printed {w : ℕ} (out₀ : List Byte) (node : NodeState w) : List Byte :=
  out₀ ++ transcript node.found

section

variable {D : DataModel} {R : Reals} {t : Target} {m : Malloc t.bits} {uuid : U64 × U64}
  {env : Env} {fuel : ℕ} (out₀ : List Byte)

/-- A state with the output that it should have. -/
def WithOutput {σ : Type} (node : σ → NodeState t.bits) (s : σ) (s' : σ × List Byte) : Prop :=
  s' = (s, printed out₀ (node s))

lemma nodeCheckForNewNodesOut_printed (msg : Block) (st : NodeState t.bits) :
    Alike (fun r r' => r' = (r.1, r.2, printed out₀ r.2)) (nodeCheckForNewNodes t m fuel msg st)
      (nodeCheckForNewNodesOut D R t m fuel msg st (printed out₀ st)) := by
  refine (nodeCheckForNewNodesOut_alike (Tells.refl st (printed out₀ st))).mono ?_
  rintro ⟨msg', st'⟩ ⟨msg'', st'', out⟩ ⟨hmsg, hst, fs, hfs, hout⟩
  refine Prod.ext hmsg (Prod.ext hst ?_)
  dsimp only at hfs hout ⊢
  rw [hout, printed, printed, hfs, transcript, transcript, transcript, List.flatMap_append,
    List.append_assoc]

lemma netHandleMsgOut_alike (msg : Block) (node : NodeState t.bits) :
    Alike (fun r r' => r' = (r.1, r.2.1, r.2.2, printed out₀ r.2.2))
      (netHandleMsg t m uuid fuel msg node)
      (netHandleMsgOut D R t m uuid fuel msg node (printed out₀ node)) := by
  refine Alike.bind_same fun msg => Alike.bind_same fun x => Alike.bind_same fun y => ?_
  refine Alike.ite (fun _ => .ok rfl) fun _ => ?_
  refine (nodeCheckForNewNodesOut_printed out₀ msg node).bind ?_
  rintro r _ rfl
  exact .ok rfl

/-- A round of the receiving loop with its output goes as the round does. -/
lemma recvStepOut_alike {s : RecvState t.bits} {s' : RecvState t.bits × List Byte}
    (h : WithOutput out₀ RecvState.node s s') :
    Alike (Sum.LiftRel (WithOutput out₀ RecvState.node) (WithOutput out₀ RecvState.node))
      (recvStep t m uuid env fuel s) (recvStepOut D R t m uuid env fuel s') := by
  obtain rfl := h
  refine Alike.bind_same fun a => Alike.ite (fun _ => ?_) fun _ => ?_
  · refine (netHandleMsgOut_alike out₀ _ _).bind ?_
    rintro r _ rfl
    exact Alike.ite (fun _ => .ok (.inr rfl)) fun _ => .ok (.inl rfl)
  · refine Alike.ite (fun _ => ?_) fun _ => .ok (.inr rfl)
    refine Alike.bind_same fun b => Alike.ite (fun _ => ?_) fun _ => .ok (.inr rfl)
    refine (netHandleMsgOut_alike out₀ _ _).bind ?_
    rintro r _ rfl
    exact Alike.ite (fun _ => .ok (.inr rfl)) fun _ => .ok (.inl rfl)

/-- The receiving loop with its output goes as the loop does. -/
lemma netReceiveOut_alike (s : RecvState t.bits) :
    Alike (WithOutput out₀ RecvState.node) (netReceive t m uuid env fuel s)
      (netReceiveOut D R t m uuid env fuel (s, printed out₀ s.node)) :=
  Alike.iter (fun _ _ => recvStepOut_alike out₀) fuel _ _ rfl

/-- A call with its output goes as the call does, as sending prints nothing. -/
lemma netHandleBcastOut_alike (st : NetState t.bits) (bcast mcast : List Arrival) :
    Alike (fun r r' => r' = (r, printed out₀ r.1.node))
      (netHandleBcast t m uuid env fuel st bcast mcast)
      (netHandleBcastOut D R t m uuid env fuel st bcast mcast (printed out₀ st.node)) := by
  refine (netReceiveOut_alike out₀ ⟨st.msg, st.node, bcast, mcast⟩).bind ?_
  rintro s _ rfl
  refine Alike.ite (fun _ => .ok rfl) fun _ => ?_
  have hsame : Alike (fun r r' => r' = r ∧ r.2.1.found = s.node.found)
      (netSend t m uuid env fuel s.msg s.node) (netSend t m uuid env fuel s.msg s.node) :=
    Alike.same fun r hr => ⟨rfl, (netSend_kept hr).1⟩
  refine hsame.bind ?_
  rintro r _ ⟨rfl, hfound⟩
  refine .ok (Prod.ext rfl ?_)
  rw [printed, printed]
  exact congrArg (out₀ ++ transcript ·) hfound.symm

/-- A turn with its output goes as the turn does. -/
lemma mainTurnOut_alike {s : LoopState t.bits} {s' : LoopState t.bits × List Byte}
    (h : WithOutput out₀ (fun s => s.net.node) s s') (c : Call) :
    Alike (WithOutput out₀ fun s => s.net.node) (mainTurn t m uuid fuel s c)
      (mainTurnOut D R t m uuid fuel s' c) := by
  obtain rfl := h
  refine (netHandleBcastOut_alike out₀ s.net _ _).bind ?_
  rintro r _ rfl
  exact .ok rfl

/-- What a run prints are the lines about what it finds, and nothing about its output makes it go
another way. -/
lemma mainLoopOut_settles {cs : List Call} {s₀ : LoopState t.bits} (h₀ : s₀.net.node.found = [])
    (r : LoopState t.bits × List Byte) :
    Settles (fun k => mainLoopOut D R t m uuid cs k (s₀, out₀)) (.ok r)
      ↔ ∃ s, Settles (fun k => mainLoop t m uuid cs k s₀) (.ok s)
        ∧ r = (s, out₀ ++ transcript s.net.node.found) := by
  have hstart : WithOutput out₀ (fun s : LoopState t.bits => s.net.node) s₀ (s₀, out₀) := by
    rw [WithOutput, printed, h₀, transcript, List.flatMap_nil, List.append_nil]
  have hrun : ∀ k, Alike (WithOutput out₀ fun s => s.net.node) (mainLoop t m uuid cs k s₀)
      (mainLoopOut D R t m uuid cs k (s₀, out₀)) :=
    fun k => Alike.foldlM (fun _ _ c h => mainTurnOut_alike out₀ h c) cs _ _ hstart
  exact Alike.settles_iff (fun _ _ h => (Prod.mk.inj h).1) hrun

end

/-! ### What a run prints -/

/-- The report about an entry behind some others names only what is in the packet. -/
lemma plainReport_report {src : DiscoverySrc} {ds : List Entry} {e : Entry}
    (hds : ∀ d ∈ ds, PlainName d.name) (he : PlainName e.name) : PlainReport (report src ds e) := by
  cases ds with
  | nil => exact ⟨he, ⟨src, rfl⟩, fun s hs => absurd hs (by simp [report])⟩
  | cons d ds =>
      refine ⟨he, ⟨.otherNode, rfl⟩, fun s hs => ?_⟩
      obtain rfl := Option.some.inj hs
      exact hds d (List.mem_cons_self ..)

lemma plainReport_reports {src : DiscoverySrc} (L : List Entry) :
    ∀ {K ds : List Entry}, (∀ e ∈ ds ++ L, PlainName e.name) →
      ∀ f ∈ reports src K ds L, PlainReport f := by
  induction L with
  | nil => exact fun _ f hf => absurd hf List.not_mem_nil
  | cons e L ih =>
      intro K ds hnames f hf
      have hmove : ds ++ e :: L = ds ++ [e] ++ L := by simp
      rw [reports] at hf
      split_ifs at hf
      · exact ih (hmove ▸ hnames) f hf
      · rcases List.mem_cons.mp hf with rfl | hf
        · exact plainReport_report (fun d hd => hnames d (List.mem_append_left _ hd))
            (hnames e (by simp))
        · exact ih (hmove ▸ hnames) f hf

/-- What is printed about packets with plain names can be read off. -/
lemma plainReport_told (ds : List (DiscoverySrc × Packet)) :
    ∀ {K : List Entry}, (∀ p ∈ ds, ∀ e ∈ p.2.entries, PlainName e.name) →
      ∀ f ∈ told K ds, PlainReport f := by
  induction ds with
  | nil => exact fun _ f hf => absurd hf List.not_mem_nil
  | cons p ds ih =>
      intro K hnames f hf
      obtain ⟨hp, hds⟩ := List.forall_mem_cons.mp hnames
      rw [told] at hf
      rcases List.mem_append.mp hf with hf | hf
      · exact plainReport_reports p.2.entries hp f hf
      · exact ih hds f hf

section

variable {D : DataModel} {R : Reals} {t : Target} {m : Malloc t.bits} {cs : List Call}

/-- A run prints a line for each node of its list but itself, in the order of the list and each with the
name of its node. If the nodes that it is told of have plain names, the reports can be read off: no
others have the same lines. What arrives is as `Call.Ok` says. -/
theorem main_prints (hm : Served t m) (i : LocalInfo) (hcs : ∀ c ∈ cs, c.Ok t)
    (hplain : ∀ d ∈ others i.uuid (cs.flatMap Call.bcast ++ cs.flatMap Call.mcast),
      ∀ e ∈ d.entries, PlainName e.name) :
    ∃ s₀, mainStart t m i.toLocalFields = .ok s₀
      ∧ (∀ out₀ r, Settles (fun k => mainLoopOut D R t m i.uuid cs k (s₀, out₀)) (.ok r)
        ↔ ∃ s, Settles (fun k => mainLoop t m i.uuid cs k s₀) (.ok s)
          ∧ r = (s, out₀ ++ transcript s.net.node.found))
      ∧ ∀ s, Settles (fun k => mainLoop t m i.uuid cs k s₀) (.ok s) →
        (∃ K, Holds t s.net.node.nodeList evrnetNodelistV1 (i.entry :: K)
          ∧ ((i.entry :: K).map uuidOf).Nodup
          ∧ s.net.node.found.map Found.name = K.map nameOf
          ∧ (transcript s.net.node.found).count (ch '\n') = K.length)
        ∧ ∀ fs, (∀ f ∈ fs, PlainReport f) →
          (transcript s.net.node.found = transcript fs ↔ s.net.node.found = fs) := by
  obtain ⟨s₀, hs₀, hturned₀⟩ := mainStart_spec hm i
  refine ⟨s₀, hs₀, fun out₀ => mainLoopOut_settles out₀ hturned₀.found, fun s hs => ?_⟩
  have hturned := hturned₀.of_settles hm hcs hs
  have hfound : ∀ f ∈ s.net.node.found, PlainReport f := by
    rw [hturned.found]
    refine plainReport_told _ fun p hp => hplain p.2 ?_
    have hp' : p.2 ∈ handledBy t i.uuid (finds t i.uuid cs) := by
      rw [← merged_packets]
      exact List.mem_map_of_mem hp
    exact mem_handledBy_finds hp'
  obtain ⟨K, hholds, hnodup, hnames⟩ := hturned.names
  have hlen := congrArg List.length hnames
  rw [List.length_map, List.length_map] at hlen
  exact ⟨⟨K, hholds, hnodup, hnames, (count_transcript hfound).trans hlen⟩,
    fun fs hfs => transcript_inj hfound hfs⟩

theorem main_prints_sample :
    ∃ s₀ s K, mainStart .linux64 .spread sampleInfo.toLocalFields = .ok s₀
      ∧ Settles (fun k => mainLoopOut Printf.lp64 noReals .linux64 .spread sampleInfo.uuid
        [find [greeting]] k (s₀, [])) (.ok (s, transcript s.net.node.found))
      ∧ Holds .linux64 s.net.node.nodeList evrnetNodelistV1 (sampleInfo.entry :: K)
      ∧ s.net.node.found.map Found.name = K.map nameOf
      ∧ (transcript s.net.node.found).count (ch '\n') = K.length := by
  have hplain : ∀ d ∈ others sampleInfo.uuid ([find [greeting]].flatMap Call.bcast
      ++ [find [greeting]].flatMap Call.mcast), ∀ e ∈ d.entries, PlainName e.name := by
    rw [greeting_others]
    decide
  obtain ⟨s₀, s, hs₀, hs⟩ := greeting_settles
  obtain ⟨s₁, hs₁, hout, h⟩ := main_prints (D := Printf.lp64) (R := noReals) spread_served sampleInfo
    greeting_call_ok hplain
  obtain rfl : s₀ = s₁ := Except.ok.inj (hs₀.symm.trans hs₁)
  obtain ⟨⟨K, hholds, -, hnames, hcount⟩, -⟩ := h s hs
  exact ⟨s₀, s, K, hs₀, (hout [] _).mpr ⟨s, hs, rfl⟩, hholds, hnames, hcount⟩

end

end EverythingNet
