import Mathlib.Tactic
import EverythingNet.Lib.Hearsay
import EverythingNet.Net.Mesh

/-!
How the nodes of a mesh get to know of each other.

* `MeshState.Does`: a step of the mesh with what happens in it, datagrams that are sent and got.
  `MeshRun`: a run with all that happens in it.
* `Spreads`: the memory of the nodes holds what hearsay can have brought them. `Spreads.sends` and
  `Spreads.gets`: so it does after each half of `NET_HandleBcast`.
* `knows_iff_told`: a node knows of another one just if a chain of datagrams leads from that one to
  it. `knows_all_of_exchanges`: how many exchanges it takes until every node knows of every other
  one. `settled_of_told`: from then on no list changes. `mesh_changes_le`: how often one changes in a
  run.
* `Roomy`: a mesh whose nodes all fit the capacities of each. `roomy_never_stuck`,
  `exists_fair_run`: no node of it ever halts. `fair_run_settles`: in a fair run all lists become
  complete and stay as they are.
-/

namespace EverythingNet

open CMem KeyedLog Relation Hearsay

variable {ι : Type} [DecidableEq ι]

/-! ### Runs -/

/-- What happens in a step: the datagrams that are new with the network are sent, or a node gets
one. -/
inductive MeshState.Does {M : Mesh ι} (s s' : MeshState M) : List (Act ι (Letter ι)) → Prop where
  | sends (x : ι) (ls : List (Letter ι)) (h : s.Sends x s') (hls : s'.soup = ls ++ s.soup) :
      Does s s' (ls.map .send)
  | gets (l : Letter ι) (y : ι) (h : s.Gets l y s') : Does s s' [.get l y]

/-- A run of `n` steps. -/
structure MeshRun {M : Mesh ι} (s : ℕ → MeshState M) (acts : ℕ → List (Act ι (Letter ι)))
    (n : ℕ) : Prop where
  started : (s 0).Started
  step : ∀ i < n, (s i).Does (s (i + 1)) (acts i)

/-- The memory of the nodes holds the logs of a gossip, and these tell of whom hearsay has told, as
do the datagrams. -/
structure Spreads {M : Mesh ι} (as : List (Act ι (Letter ι))) (s : MeshState M)
    (g : Gossip.Net ι Entry) : Prop where
  inv : Gossip.Inv uuidOf M.own g
  sim : Sim s g
  known : ∀ x y, (M.info x).uuid ∈ (g.log y).map uuidOf ↔ Told Letter.sender as x y
  carried : ∀ l ∈ s.soup, ∀ L, Holds (M.target l.sender) l.list evrnetNodelistV1 L → ∀ x,
    (M.info x).uuid ∈ L.map uuidOf ↔ Brings Letter.sender as l x
  sent : ∀ l x, Brings Letter.sender as l x → l ∈ s.soup

section

variable {M : Mesh ι} {s s' : MeshState M} {as : List (Act ι (Letter ι))} {g : Gossip.Net ι Entry}
  {x y : ι} {l : Letter ι} {ls : List (Letter ι)}

omit [DecidableEq ι] in
lemma Spreads.start (h : s.Started) : Spreads [] s (Gossip.start M.own) where
  inv := Gossip.Inv.start
  sim := Sim.start h
  known x y := by
    rw [told_nil, Gossip.start, List.map_singleton, List.mem_singleton]
    exact M.uuid_eq_iff
  carried l hl := by
    rw [h.soup] at hl
    exact absurd hl List.not_mem_nil
  sent l x hc := absurd hc not_brings_nil

/-- All datagrams of a step carry the list that the node has. -/
lemma MeshState.Sends.letters (h : s.Sends x s') (hls : s'.soup = ls ++ s.soup) :
    ∀ l ∈ ls, l.sender = x ∧ l.list = (s.peer x).2.nodeList := by
  obtain ⟨env, msg, node, sent, -, rfl⟩ := h
  obtain rfl := List.append_cancel_right hls
  intro l hl
  obtain ⟨a, -, rfl⟩ := List.mem_map.mp hl
  exact ⟨rfl, rfl⟩

/-- A node sends. -/
lemma Spreads.sends (h : Spreads as s g) (hs : s.Sends x s') (hls : s'.soup = ls ++ s.soup) :
    Spreads (ls.map .send ++ as) s' ⟨g.log, (x, g.log x) :: g.soup⟩ where
  inv := h.inv.step (Gossip.Step.send g x)
  sim := h.sim.sends hs
  known y z := by
    rw [told_sends]
    exact h.known y z
  carried l hl L hL z := by
    rw [brings_sends]
    by_cases hnew : l ∈ ls
    · obtain ⟨rfl, hlist⟩ := hs.letters hls l hnew
      have hK : Holds (M.target l.sender) l.list evrnetNodelistV1 (g.log l.sender) :=
        hlist ▸ h.sim.knows l.sender
      obtain rfl := hK.unique hL
      rw [h.known z l.sender]
      refine ⟨fun ht => Or.inr ⟨hnew, ht⟩, ?_⟩
      rintro (hc | ⟨-, ht⟩)
      · exact (h.known z _).mp ((h.carried l (h.sent l z hc) _ hK z).mpr hc)
      · exact ht
    · have hold : l ∈ s.soup := by
        rw [hls] at hl
        exact (List.mem_append.mp hl).resolve_left hnew
      rw [h.carried l hold L hL z]
      simp [hnew]
  sent l z hc := by
    rw [hls]
    rcases brings_sends.mp hc with hc | ⟨hnew, -⟩
    · exact List.mem_append_right _ (h.sent l z hc)
    · exact List.mem_append_left _ hnew

/-- A node gets a datagram. -/
lemma Spreads.gets (h : Spreads as s g) (hs : s.Gets l y s') :
    ∃ g', Spreads (.get l y :: as) s' g' := by
  obtain ⟨L, hL, hlist, hsim⟩ := h.sim.gets h.inv hs
  have hsoup : s'.soup = s.soup := by
    obtain ⟨-, -, route, errno, n, bs, ms, r, -, -, rfl⟩ := hs
    rfl
  refine ⟨_, h.inv.step (Gossip.Step.deliver g l.sender y L hL), hsim, fun x z => ?_, ?_, ?_⟩
  · rw [told_get, ← h.known x z]
    dsimp only
    by_cases hz : z = y
    · subst hz
      rw [Function.update_self, h.inv.mem_keys_hear hL, h.carried l hs.1 L hlist x]
      simp
    · rw [Function.update_of_ne hz]
      simp [hz]
  · intro l' hl' L' hL' x
    rw [brings_get]
    exact h.carried l' (hsoup ▸ hl') L' hL' x
  · intro l' x hc
    rw [hsoup]
    exact h.sent l' x (brings_get.mp hc)

lemma Spreads.does (h : Spreads as s g) {bs : List (Act ι (Letter ι))} (hs : s.Does s' bs) :
    ∃ g', Spreads (bs ++ as) s' g' := by
  cases hs with
  | sends x ls hs hls => exact ⟨_, h.sends hs hls⟩
  | gets l y hs => exact h.gets hs

end

section

variable {M : Mesh ι} {s : ℕ → MeshState M} {acts : ℕ → List (Act ι (Letter ι))} {n k : ℕ}

omit [DecidableEq ι] in
lemma MeshRun.take [DecidableEq ι] (h : MeshRun s acts n) (hk : k ≤ n) : MeshRun s acts k :=
  ⟨h.started, fun i hi => h.step i (hi.trans_le hk)⟩

/-- After a run hearsay has come where it can. -/
lemma MeshRun.spreads (h : MeshRun s acts n) : ∃ g, Spreads (history acts n) (s n) g := by
  induction n with
  | zero => exact ⟨_, Spreads.start h.started⟩
  | succ n ih =>
      obtain ⟨g, hg⟩ := ih (h.take (Nat.le_succ n))
      exact hg.does (h.step n (Nat.lt_succ_self n))

/-- A run is a run without what happens in it. -/
lemma MeshState.Does.step {s s' : MeshState M} {as : List (Act ι (Letter ι))} (h : s.Does s' as) :
    MeshState.Step s s' := by
  cases h with
  | sends x ls hs hls => exact .sends x hs
  | gets l y hs => exact .gets l y hs

lemma MeshRun.steps (h : MeshRun s acts n) (hk : k ≤ n) :
    ReflTransGen MeshState.Step (s k) (s n) := by
  induction hk with
  | refl => exact .refl
  | @step n _ ih => exact (ih (h.take (Nat.le_succ n))).tail (h.step n (Nat.lt_succ_self n)).step

end

/-! ### Complete lists -/

section

variable [Fintype ι]

/-- The entries of all nodes. -/
noncomputable def Mesh.everyone (M : Mesh ι) : List Entry := Finset.univ.toList.map M.own

variable {M : Mesh ι} {x : ι} {K : List Entry}

omit [DecidableEq ι] in
lemma Mesh.length_everyone (M : Mesh ι) : M.everyone.length = Fintype.card ι := by
  rw [everyone, List.length_map, Finset.length_toList, Finset.card_univ]

omit [DecidableEq ι] in
lemma Mesh.own_mem_everyone (M : Mesh ι) (x : ι) : M.own x ∈ M.everyone :=
  List.mem_map_of_mem (Finset.mem_toList.mpr (Finset.mem_univ x))

omit [DecidableEq ι] in
/-- A proper list holds some of the entries. -/
lemma Mesh.Proper.subperm (h : M.Proper x K) : K.Subperm M.everyone := by
  refine List.subperm_of_subset h.nodup.of_map fun e he => ?_
  obtain ⟨y, hy⟩ := h.known e he
  rw [h.own e he y hy]
  exact M.own_mem_everyone y

omit [DecidableEq ι] in
lemma Mesh.Proper.length_le (h : M.Proper x K) : K.length ≤ Fintype.card ι :=
  M.length_everyone ▸ h.subperm.length_le

omit [DecidableEq ι] in
lemma Mesh.Proper.total_le (h : M.Proper x K) : total K ≤ total M.everyone := by
  obtain ⟨L, hperm, hsub⟩ := h.subperm
  have hsum : total L = total K := (hperm.map _).sum_eq
  exact hsum ▸ total_le_of_sublist hsub

omit [DecidableEq ι] in
/-- A proper list with the UUIDs of all nodes holds their entries, in some order. -/
lemma Mesh.Proper.perm (h : M.Proper x K) (hall : ∀ y, (M.info y).uuid ∈ K.map uuidOf) :
    K.Perm M.everyone := by
  refine h.subperm.perm_of_length_le ?_
  have hmem : M.everyone ⊆ K := by
    intro e he
    obtain ⟨y, -, rfl⟩ := List.mem_map.mp he
    obtain ⟨f, hf, hkey⟩ := List.mem_map.mp (hall y)
    exact h.own f hf y hkey ▸ hf
  have hnodup : M.everyone.Nodup :=
    (Finset.nodup_toList _).map fun y z hyz => M.distinct (congrArg uuidOf hyz)
  exact (List.subperm_of_subset hnodup hmem).length_le

end

section

variable [Fintype ι] {M : Mesh ι} {s : ℕ → MeshState M} {acts : ℕ → List (Act ι (Letter ι))}
  {E : ι → ι → Prop} {n : ℕ}

omit [Fintype ι] in
/-- A step lets the lists grow. -/
lemma Spreads.prefix_of_does {s s' : MeshState M} {as as' bs : List (Act ι (Letter ι))}
    {g g' : Gossip.Net ι Entry} (h : Spreads as s g) (h' : Spreads as' s' g') (hs : s.Does s' bs)
    (x : ι) : g.log x <+: g'.log x := by
  obtain ⟨g'', hstep, hsim⟩ := h.sim.step h.inv hs.step
  rw [(h'.sim.knows x).unique (hsim.knows x)]
  exact hstep.prefix_log x

end

/-! ### Meshes within their capacities -/

/-- The entries of all nodes together are within the capacities of each node. -/
structure Mesh.Roomy [Fintype ι] (M : Mesh ι) : Prop where
  fits : ∀ x, 32 + total M.everyone ≤ (M.target x).bufSize
  table : ∀ x, (M.target x).endian = .le → Fintype.card ι ≤ 512

section

variable [Fintype ι] {M : Mesh ι} {s s' : MeshState M} {as : List (Act ι (Letter ι))}
  {g : Gossip.Net ι Entry} {x y : ι} {l : Letter ι}

omit [DecidableEq ι] in
lemma Spreads.sendable (hM : M.Roomy) (h : Spreads as s g) (x : ι) :
    Sendable (M.target x) (g.log x) := by
  have hproper := Sim.proper h.inv x
  refine ⟨?_, fun hle => hproper.length_le.trans (hM.table x hle)⟩
  have := hproper.total_le
  have := hM.fits x
  omega

omit [DecidableEq ι] in
/-- What a node makes of a datagram of a roomy mesh stays within its capacities. -/
lemma Spreads.room (hM : M.Roomy) (h : Spreads as s g) (y : ι) {L : List Entry}
    (hL : (x, L) ∈ g.soup) :
    32 + total (mergeNew uuidOf (g.log y) L) ≤ (M.target y).bufSize
      ∧ 32 + total L ≤ (M.target y).bufSize := by
  have hproper : M.Proper y (mergeNew uuidOf (g.log y) L) := by
    refine ⟨(h.inv.first y).trans prefix_mergeNew, nodup_mergeNew (h.inv.nodup y), ?_, ?_⟩
    · intro e he
      rcases mem_of_mem_mergeNew he with he | he
      · exact (Sim.proper h.inv y).known e he
      · exact (Sim.proper h.inv x).known e ((h.inv.letters x L hL).2.subset he)
    · intro e he
      rcases mem_of_mem_mergeNew he with he | he
      · exact (Sim.proper h.inv y).own e he
      · exact (Sim.proper h.inv x).own e ((h.inv.letters x L hL).2.subset he)
  have hLproper := (Sim.proper h.inv x).start (h.inv.letters x L hL).1 (h.inv.letters x L hL).2
  have := hproper.total_le
  have := hLproper.total_le
  have := hM.fits y
  omega

omit [DecidableEq ι] in
/-- No node of a roomy mesh ever halts: whatever becomes of the datagrams that it sends, it sends its
list, and whatever datagram of the mesh it gets, on whatever socket, it takes it in. -/
lemma Spreads.never_stuck (hM : M.Roomy) (h : Spreads as s g) :
    (∀ x env, ∃ r, Settles (fun k => netSend (M.target x) (M.malloc x) (M.info x).uuid env k
        (s.peer x).1 (s.peer x).2) (.ok r))
    ∧ ∀ l ∈ s.soup, ∀ y route errno n bs ms,
        (route = Route.multicast → (M.target y).multicast = true) →
        ∃ r, Settles (fun k => netReceive (M.target y) (M.malloc y) (M.info y).uuid
          (sockEnv (n + 1) bs ms) k ⟨(s.peer y).1, (s.peer y).2,
            (route.queues (Arrival.datagram l.data errno)).1,
            (route.queues (Arrival.datagram l.data errno)).2⟩) (.ok r) := by
  constructor
  · intro x env
    obtain ⟨msg, -, hsend⟩ := netSend_spec (M.info x).uuid env (h.sim.msg x) (h.sim.knows x)
      (h.sendable hM x) (M.served x).table (Nat.lt_succ_self _)
    exact ⟨_, (netSend_steady _ _ (M.info x).uuid env _ _).settles hsend (by simp)⟩
  · intro l hl y route errno n bs ms hroute
    obtain ⟨L, hL, -, hdata⟩ := h.sim.letters l hl
    obtain ⟨hmerge, hfits⟩ := h.room hM y hL
    have hlt := (M.target y).bufSize_lt
    have hmsg := (M.served y).msg
    have hsome : Room (M.malloc y) (g.log y)
        (if (announce (M.info l.sender).uuid evrnetNodelistV1 L).uuid = (M.info y).uuid then []
          else (announce (M.info l.sender).uuid evrnetNodelistV1 L).entries) := by
      have hall : Room (M.malloc y) (g.log y) ([] ++ L) :=
        ⟨by rw [List.nil_append]; omega, by rw [List.nil_append]; omega⟩
      split_ifs
      · exact hall.of_append
      · exact hall
    have hd : (announce (M.info l.sender).uuid evrnetNodelistV1 L).Fits (M.target y) := hfits
    have hw : (announce (M.info l.sender).uuid evrnetNodelistV1 L).WellFormed :=
      Sim.wellFormed h.inv hL
    rw [hdata]
    rcases netReceive_route route (M.info y).uuid n bs ms errno hroute (h.sim.msg y)
      (h.sim.knows y) (Sim.ne_nil h.inv y) (h.sim.limit y) hd hw
      with ⟨-, r, hr, -⟩ | ⟨hnot, -⟩
    · exact ⟨r, hr⟩
    · exact absurd hsome hnot

/-- A node with an interface sends something. -/
lemma Spreads.sends_some (hM : M.Roomy) (h : Spreads as s g) (x : ι) :
    ∃ s' l ls, s.Sends x s' ∧ s'.soup = (l :: ls) ++ s.soup := by
  obtain ⟨env, henv⟩ : ∃ env : Env, env = sockEnv 1 (fun _ => true) true := ⟨_, rfl⟩
  obtain ⟨msg, -, hsend⟩ := netSend_spec (M.info x).uuid env (h.sim.msg x) (h.sim.knows x)
    (h.sendable hM x) (M.served x).table (Nat.lt_succ_self _)
  have hsettles := (netSend_steady _ _ (M.info x).uuid env _ _).settles hsend (by simp)
  obtain ⟨a, sent, hsent⟩ : ∃ a sent, sentOf (M.target x) env
      (announce (M.info x).uuid evrnetNodelistV1 (g.log x)).bytes = a :: sent := by
    rw [henv, sentOf, sockEnv, reachedIfaces_all]
    exact ⟨_, _, rfl⟩
  rw [hsent] at hsettles
  exact ⟨_, ⟨x, (s.peer x).2.nodeList, a.bytes⟩, _, ⟨env, msg, _, _, hsettles, rfl⟩, rfl⟩

/-- A node can get every datagram. -/
lemma Spreads.gets_some (hM : M.Roomy) (h : Spreads as s g) (hl : l ∈ s.soup) (y : ι) :
    ∃ s', s.Gets l y s' := by
  obtain ⟨L, hL, hlist, hdata⟩ := h.sim.letters l hl
  obtain ⟨hmerge, hfits⟩ := h.room hM y hL
  refine h.sim.can_get h.inv hl ?_ hlist hmerge
  rw [hdata, Packet.bytes_length]
  exact hfits

/-- A node sends and another one gets what it has sent. -/
lemma Spreads.exchange (hM : M.Roomy) (h : Spreads as s g) (x y : ι) :
    ∃ s₁ s₂ bs l, s.Does s₁ bs ∧ .send l ∈ bs ∧ l.sender = x ∧ s₁.Does s₂ [.get l y]
      ∧ ∃ as' g', Spreads as' s₂ g' := by
  obtain ⟨s₁, l, ls, hs₁, hsoup⟩ := h.sends_some hM x
  have hspreads := h.sends hs₁ hsoup
  obtain ⟨s₂, hs₂⟩ := hspreads.gets_some hM (l := l) (by simp [hsoup]) y
  obtain ⟨g', hg'⟩ := hspreads.gets hs₂
  exact ⟨s₁, s₂, _, l, .sends x _ hs₁ hsoup, by simp,
    (hs₁.letters hsoup l (List.mem_cons_self ..)).1, .gets l y hs₂, _, g', hg'⟩

end

section

variable [Fintype ι] {M : Mesh ι} {s : ℕ → MeshState M} {acts : ℕ → List (Act ι (Letter ι))}
  {E : ι → ι → Prop} {n : ℕ}

omit [DecidableEq ι] [Fintype ι] in
lemma Mesh.exists_started (M : Mesh ι) : ∃ s : MeshState M, s.Started := by
  have hex : ∀ x, ∃ st, netStart (M.target x) (M.malloc x) (M.info x).toLocalFields = .ok st := by
    intro x
    obtain ⟨st, hst, -⟩ := netStart_spec (M.served x) (M.info x)
    exact ⟨st, hst⟩
  choose st hst using hex
  exact ⟨⟨fun x => ((st x).msg, (st x).node), []⟩, fun x => ⟨st x, hst x, rfl⟩, rfl⟩

/-- A mesh whose entries fit the capacities of every node has a run that goes on for ever and is fair
to all. -/
lemma exists_fair_run [Nonempty ι] (hM : M.Roomy) :
    ∃ (s : ℕ → MeshState M) (acts : ℕ → List (Act ι (Letter ι))),
      (∀ n, MeshRun s acts n) ∧ Fair Letter.sender (fun _ _ => True) acts := by
  obtain ⟨s₀, h₀⟩ := M.exists_started
  obtain ⟨edge, hedge⟩ := exists_schedule (ι × ι)
  -- each edge of the schedule takes two steps
  have hex : ∀ (s : { s : MeshState M // ∃ as g, Spreads as s g }) (p : ι × ι),
      ∃ (s₁ : MeshState M) (s₂ : { s : MeshState M // ∃ as g, Spreads as s g })
        (bs : List (Act ι (Letter ι))) (l : Letter ι),
        s.1.Does s₁ bs ∧ .send l ∈ bs ∧ l.sender = p.1 ∧ s₁.Does s₂.1 [.get l p.2] := by
    rintro ⟨s, as, g, hg⟩ ⟨x, y⟩
    obtain ⟨s₁, s₂, bs, l, h₁, hmem, hx, h₂, hs₂⟩ := hg.exchange hM x y
    exact ⟨s₁, ⟨s₂, hs₂⟩, bs, l, h₁, hmem, hx, h₂⟩
  choose mid next bs l hmid hmem hsender hnext using hex
  let S : ℕ → { s : MeshState M // ∃ as g, Spreads as s g } :=
    fun n => Nat.rec ⟨s₀, [], _, Spreads.start h₀⟩ (fun i s => next s (edge i)) n
  have hS : ∀ i, S (i + 1) = next (S i) (edge i) := fun i => rfl
  let s : ℕ → MeshState M := fun n =>
    if n % 2 = 0 then (S (n / 2)).1 else mid (S (n / 2)) (edge (n / 2))
  let acts : ℕ → List (Act ι (Letter ι)) := fun n =>
    if n % 2 = 0 then bs (S (n / 2)) (edge (n / 2))
    else [.get (l (S (n / 2)) (edge (n / 2))) (edge (n / 2)).2]
  have heven : ∀ i, s (2 * i) = (S i).1 ∧ acts (2 * i) = bs (S i) (edge i) := by
    intro i
    have hmod : 2 * i % 2 = 0 := by omega
    have hdiv : 2 * i / 2 = i := by omega
    exact ⟨by simp only [s, hmod, hdiv, if_true], by simp only [acts, hmod, hdiv, if_true]⟩
  have hodd : ∀ i, s (2 * i + 1) = mid (S i) (edge i)
      ∧ acts (2 * i + 1) = [.get (l (S i) (edge i)) (edge i).2] := by
    intro i
    have hmod : (2 * i + 1) % 2 ≠ 0 := by omega
    have hdiv : (2 * i + 1) / 2 = i := by omega
    exact ⟨by simp only [s, if_neg hmod, hdiv], by simp only [acts, if_neg hmod, hdiv]⟩
  refine ⟨s, acts, fun n => ⟨h₀, fun i _ => ?_⟩, fun x y _ n => ?_⟩
  · obtain ⟨k, rfl | rfl⟩ := Nat.even_or_odd' i
    · rw [(heven k).1, (heven k).2, (hodd k).1]
      exact hmid (S k) (edge k)
    · rw [(hodd k).1, (hodd k).2, show 2 * k + 1 + 1 = 2 * (k + 1) by ring, (heven (k + 1)).1, hS]
      exact hnext (S k) (edge k)
  · obtain ⟨i, hi, hxy⟩ := hedge (x, y) n
    refine ⟨2 * i, 2 * i + 1, l (S i) (edge i), by omega, by omega, ?_, ?_, ?_⟩
    · rw [hsender, hxy]
    · rw [(heven i).2]
      exact hmem (S i) (edge i)
    · rw [(hodd i).2, hxy]
      exact List.mem_singleton_self _

end

/-! ### Two nodes -/

lemma pair_roomy : pair.Roomy := by
  have htotal : total pair.everyone = 96 := by
    have hlen : ∀ x, (pair.own x).length = 48 := fun x => LocalInfo.sample_length _ 0
    have hsum : total pair.everyone = ∑ x, (pair.own x).length := by
      rw [Mesh.everyone, total, List.map_map]
      exact Finset.sum_map_toList _ _
    rw [hsum]
    simp [hlen]
  refine ⟨fun x => ?_, fun x _ => by simp⟩
  rw [htotal]
  cases x <;> decide

/-- One of the nodes sends and the other one gets what it has sent. -/
lemma exists_pair_run : ∃ (s : ℕ → MeshState pair) (acts : ℕ → List (Act Bool (Letter Bool))) (l : _),
    MeshRun s acts 2 ∧ l.sender = true ∧ .send l ∈ acts 0 ∧ acts 1 = [.get l false] := by
  obtain ⟨s₀, h₀⟩ := pair.exists_started
  obtain ⟨s₁, s₂, bs, l, h₁, hsend, hl, h₂, -⟩ := (Spreads.start h₀).exchange pair_roomy true false
  refine ⟨fun | 0 => s₀ | 1 => s₁ | _ => s₂, fun | 0 => bs | _ => [.get l false], l, ⟨h₀, ?_⟩, hl,
    hsend, rfl⟩
  intro i hi
  obtain rfl | rfl : i = 0 ∨ i = 1 := by omega
  · exact h₁
  · exact h₂

/-- What the nodes of the pair know of each other before and after. -/
lemma pair_run_knows {s : ℕ → MeshState pair} {acts : ℕ → List (Act Bool (Letter Bool))}
    {l : Letter Bool} (h : MeshRun s acts 2) (hl : l.sender = true) (hsend : .send l ∈ acts 0)
    (hget : acts 1 = [.get l false]) :
    ∃ K K', (s 1).Knows false K ∧ (s 2).Knows false K' ∧ (1, 0) ∉ K.map uuidOf
      ∧ (1, 0) ∈ K'.map uuidOf := by
  obtain ⟨g, hg⟩ := (h.take one_le_two).spreads
  obtain ⟨g', hg'⟩ := h.spreads
  refine ⟨_, _, hg.sim.knows false, hg'.sim.knows false, fun hmem => ?_, ?_⟩
  · -- sending tells nobody anything
    have htold := (hg.known true false).mp hmem
    simp only [history, List.append_nil] at htold
    have hstep := h.step 0 two_pos
    generalize acts 0 = as at htold hstep
    cases hstep with
    | sends x ls =>
        rw [← List.append_nil (ls.map Act.send), told_sends, told_nil] at htold
        exact absurd htold (by decide)
    | gets l y hs =>
        have hsoup := hs.1
        rw [h.started.soup] at hsoup
        exact absurd hsoup List.not_mem_nil
  · refine (hg'.known true false).mpr ?_
    obtain ⟨cs, bs, hcs⟩ := List.mem_iff_append.mp hsend
    simp only [history, hget, hcs]
    have hself : Told Letter.sender bs true l.sender := hl ▸ .self _ _
    simpa using Told.letter hself cs [] false

/-! ### What the nodes know -/

section

variable {M : Mesh ι} {s : ℕ → MeshState M} {acts : ℕ → List (Act ι (Letter ι))}
  {E : ι → ι → Prop} {n : ℕ}

/-- A node knows of another one just if there is a chain of datagrams from that one to it, each sent
after the one before had been received. -/
theorem knows_iff_told (h : MeshRun s acts n) {x y : ι} {K : List Entry} (hK : (s n).Knows y K) :
    (M.info x).uuid ∈ K.map uuidOf ↔ Told Letter.sender (history acts n) x y := by
  obtain ⟨g, hg⟩ := h.spreads
  obtain rfl := (hg.sim.knows y).unique hK
  exact hg.known x y

theorem knows_iff_told_pair : ∃ (s : ℕ → MeshState pair) (acts : ℕ → List (Act Bool (Letter Bool))),
    MeshRun s acts 2 ∧ ∀ K, (s 2).Knows false K →
      ((1, 0) ∈ K.map uuidOf ↔ Told Letter.sender (history acts 2) true false) := by
  obtain ⟨s, acts, l, h, -⟩ := exists_pair_run
  exact ⟨s, acts, h, fun K hK => knows_iff_told h (x := true) hK⟩

/-- When along every edge of a strongly connected graph datagrams have been exchanged as often as
there are other nodes, every node knows every node, whatever else has happened. -/
theorem knows_all_of_exchanges [Fintype ι] (h : MeshRun s acts n) (hE : ∀ x y, ReflTransGen E x y)
    {rounds : List (List (Act ι (Letter ι)))} {as : List (Act ι (Letter ι))}
    (hacts : history acts n = rounds.flatten ++ as)
    (hr : ∀ r ∈ rounds, Exchange Letter.sender E r)
    (hlen : Fintype.card ι - 1 ≤ rounds.length) {y : ι} {K : List Entry} (hK : (s n).Knows y K) :
    K.Perm M.everyone := by
  obtain ⟨g, hg⟩ := h.spreads
  obtain rfl := (hg.sim.knows y).unique hK
  refine (Sim.proper hg.inv y).perm fun x => (hg.known x y).mpr ?_
  have hpath := (within_of_reflTransGen (hE x y)).mono hlen
  rw [hacts]
  exact told_of_exchanges hr hpath as

theorem knows_all_of_exchanges_pair :
    ∃ (s : ℕ → MeshState pair) (acts : ℕ → List (Act Bool (Letter Bool))) (n : ℕ),
      MeshRun s acts n ∧ ∀ y K, (s n).Knows y K → K.Perm pair.everyone := by
  obtain ⟨s, acts, h, hf⟩ := exists_fair_run pair_roomy
  obtain ⟨n, rounds, hacts, hr, hlen⟩ := hf.exchanges 1
  refine ⟨s, acts, n, h n, fun y K hK => ?_⟩
  have hsplit : history acts n = rounds.flatten ++ [] := by
    rw [hacts, List.append_nil]
  exact knows_all_of_exchanges (h n) (fun x y => .single trivial) hsplit hr (by simp [hlen]) hK

/-- A run changes node lists in no more than `N * (N - 1)` of its steps. -/
theorem mesh_changes_le [Fintype ι] (h : MeshRun s acts n) (T : Finset ℕ)
    (hT : ∀ i ∈ T, i < n ∧ ∃ x K K', (s i).Knows x K ∧ (s (i + 1)).Knows x K' ∧ K ≠ K') :
    T.card ≤ Fintype.card ι * (Fintype.card ι - 1) := by
  have hex : ∀ i, ∃ g, i ≤ n → Spreads (history acts i) (s i) g := by
    intro i
    by_cases hi : i ≤ n
    · obtain ⟨g, hg⟩ := (h.take hi).spreads
      exact ⟨g, fun _ => hg⟩
    · exact ⟨⟨fun _ => [], []⟩, fun hi' => absurd hi' hi⟩
  choose g hg using hex
  have hgrown : ∀ i < n, ∀ x, (g i).log x <+: (g (i + 1)).log x := fun i hi x =>
    (hg i hi.le).prefix_of_does (hg (i + 1) hi) (h.step i hi) x
  -- the measure is the number of all entries in all lists
  refine card_changes_le (f := fun i => ∑ x, ((g i).log x).length) (n := n) ?_ ?_ T ?_
  · exact fun i hi => Finset.sum_le_sum fun x _ => (hgrown i hi x).length_le
  · have hfirst : Fintype.card ι ≤ ∑ x, ((g 0).log x).length := by
      have hone : ∀ x ∈ Finset.univ, 1 ≤ ((g 0).log x).length := fun x _ =>
        ((hg 0 (Nat.zero_le n)).inv.first x).length_le
      simpa using Finset.card_nsmul_le_sum Finset.univ _ 1 hone
    have hlast : ∑ x, ((g n).log x).length ≤ Fintype.card ι * Fintype.card ι := by
      have hle : ∀ x ∈ Finset.univ, ((g n).log x).length ≤ Fintype.card ι := fun x _ =>
        (Sim.proper (hg n le_rfl).inv x).length_le
      simpa using Finset.sum_le_card_nsmul Finset.univ _ _ hle
    have hmul : Fintype.card ι * Fintype.card ι
        ≤ Fintype.card ι + Fintype.card ι * (Fintype.card ι - 1) := by
      cases Fintype.card ι with
      | zero => simp
      | succ N => rw [Nat.add_sub_cancel, Nat.mul_succ (N + 1) N, Nat.add_comm]
    omega
  · intro i hi
    obtain ⟨hin, x, K, K', hK, hK', hne⟩ := hT i hi
    refine ⟨hin, Finset.sum_lt_sum (fun y _ => (hgrown i hin y).length_le)
      ⟨x, Finset.mem_univ x, ?_⟩⟩
    obtain rfl := ((hg i hin.le).sim.knows x).unique hK
    obtain rfl := ((hg (i + 1) hin).sim.knows x).unique hK'
    refine lt_of_le_of_ne (hgrown i hin x).length_le fun hlen => hne ?_
    exact (hgrown i hin x).eq_of_length hlen

theorem mesh_changes_le_pair :
    ∃ (s : ℕ → MeshState pair) (acts : ℕ → List (Act Bool (Letter Bool))),
      MeshRun s acts 2
        ∧ (∃ x K K', (s 1).Knows x K ∧ (s 2).Knows x K' ∧ K ≠ K')
        ∧ ({1} : Finset ℕ).card ≤ Fintype.card Bool * (Fintype.card Bool - 1) := by
  obtain ⟨s, acts, l, h, hl, hsend, hget⟩ := exists_pair_run
  obtain ⟨K, K', hK, hK', hnot, hmem⟩ := pair_run_knows h hl hsend hget
  have hchange : ∃ x K K', (s 1).Knows x K ∧ (s 2).Knows x K' ∧ K ≠ K' :=
    ⟨false, K, K', hK, hK', fun heq => hnot (heq ▸ hmem)⟩
  refine ⟨s, acts, h, hchange, mesh_changes_le h {1} fun i hi => ?_⟩
  obtain rfl := Finset.mem_singleton.mp hi
  exact ⟨one_lt_two, hchange⟩

/-- In a run of a mesh whose entries fit the capacities of every node no node halts: whatever becomes
of the datagrams that it sends, it sends its list, and whatever datagram of the mesh it gets, on
whatever socket, it takes it in. -/
theorem roomy_never_stuck [Fintype ι] (hM : M.Roomy) (h : MeshRun s acts n) :
    (∀ x env, ∃ r, Settles (fun k => netSend (M.target x) (M.malloc x) (M.info x).uuid env k
        ((s n).peer x).1 ((s n).peer x).2) (.ok r))
    ∧ ∀ l ∈ (s n).soup, ∀ y route errno k bs ms,
        (route = Route.multicast → (M.target y).multicast = true) →
        ∃ r, Settles (fun f => netReceive (M.target y) (M.malloc y) (M.info y).uuid
          (sockEnv (k + 1) bs ms) f ⟨((s n).peer y).1, ((s n).peer y).2,
            (route.queues (Arrival.datagram l.data errno)).1,
            (route.queues (Arrival.datagram l.data errno)).2⟩) (.ok r) := by
  obtain ⟨g, hg⟩ := h.spreads
  exact hg.never_stuck hM

theorem roomy_never_stuck_pair :
    ∃ (s : ℕ → MeshState pair) (acts : ℕ → List (Act Bool (Letter Bool))),
      MeshRun s acts 2 ∧ ∀ x env, ∃ r, Settles (fun k => netSend (pair.target x) (pair.malloc x)
        (pair.info x).uuid env k ((s 2).peer x).1 ((s 2).peer x).2) (.ok r) := by
  obtain ⟨s, acts, l, h, -⟩ := exists_pair_run
  exact ⟨s, acts, h, (roomy_never_stuck pair_roomy h).1⟩

/-- From when on hearsay has come to every node from every node, the lists are complete and stay as
they are. -/
lemma settled_of_told [Fintype ι] (h : ∀ n, MeshRun s acts n) {T : ℕ}
    (hT : ∀ n ≥ T, ∀ x y, Told Letter.sender (history acts n) x y) :
    ∀ n ≥ T, ∀ y K, (s n).Knows y K → K.Perm M.everyone ∧ (s T).Knows y K := by
  have hcomplete : ∀ n ≥ T, ∀ g, Spreads (history acts n) (s n) g → ∀ y,
      (g.log y).Perm M.everyone := fun n hn g hg y =>
    (Sim.proper hg.inv y).perm fun x => (hg.known x y).mpr (hT n hn x y)
  intro n hn y K hK
  obtain ⟨g, hg⟩ := (h n).spreads
  obtain ⟨g₀, hg₀⟩ := (h T).spreads
  obtain rfl := (hg.sim.knows y).unique hK
  have hperm := hcomplete n hn g hg y
  refine ⟨hperm, ?_⟩
  -- the list at the time `T` has the same length
  obtain ⟨g', hsteps, hsim⟩ := hg₀.sim.steps hg₀.inv ((h n).steps hn)
  have hgrown := Gossip.prefix_of_steps hsteps y
  rw [← (hg.sim.knows y).unique (hsim.knows y)] at hgrown
  have hlen : (g₀.log y).length = (g.log y).length :=
    (hcomplete T le_rfl g₀ hg₀ y).length_eq.trans hperm.length_eq.symm
  rw [← hgrown.eq_of_length hlen]
  exact hg₀.sim.knows y

/-- In a fair run over a strongly connected graph there is a time after which every node knows every
node and no list changes any more. -/
theorem fair_run_settles [Fintype ι] (h : ∀ n, MeshRun s acts n) (hf : Fair Letter.sender E acts)
    (hE : ∀ x y, ReflTransGen E x y) :
    ∃ T, ∀ n ≥ T, ∀ y K, (s n).Knows y K → K.Perm M.everyone ∧ (s T).Knows y K := by
  obtain ⟨T, hT⟩ := hf.told_all
  exact ⟨T, settled_of_told h fun n hn x y => hT n hn x y (hE x y)⟩

theorem fair_run_settles_pair :
    ∃ (s : ℕ → MeshState pair) (acts : ℕ → List (Act Bool (Letter Bool))) (T : ℕ),
      (∀ n, MeshRun s acts n)
        ∧ ∀ n ≥ T, ∀ y K, (s n).Knows y K → K.Perm pair.everyone ∧ (s T).Knows y K := by
  obtain ⟨s, acts, h, hf⟩ := exists_fair_run pair_roomy
  obtain ⟨T, hT⟩ := fair_run_settles h hf fun x y => .single trivial
  exact ⟨s, acts, T, h, hT⟩

end

end EverythingNet
