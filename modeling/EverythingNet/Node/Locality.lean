import Mathlib.Tactic
import EverythingNet.Node.Discover

/-!
What the functions on entries and lists do to an object, they also do to a larger one.

A run of the code on a message that is cut off behind the received bytes halts at the first access behind
them. If it does not halt, it is the run on the whole buffer: `nodeListToNative_writes`,
`nodeMaybeAddEntry_reads` and `nodeCheckForNewNodes_grows`, with one lemma for each function they call.
-/

namespace EverythingNet

open CMem

variable {w : ℕ}

/-! ### Reads -/

section

variable (E : Endian) (p : BitVec w)

lemma load16_reads : Reads fun b => load16 E b p :=
  (Block.reads_loadN _ _).bind fun _ => Reads.const _

lemma load32_reads : Reads fun b => load32 E b p :=
  (Block.reads_loadN _ _).bind fun _ => Reads.const _

lemma load64_reads : Reads fun b => load64 E b p :=
  (Block.reads_loadN _ _).bind fun _ => Reads.const _

lemma strlen_reads : Reads fun b => strlen b p := (Block.reads_strlen _).bind fun _ => Reads.const _

lemma entryNodeIps_reads : Reads fun b => entryNodeIps b p :=
  (strlen_reads _).bind fun _ => Reads.const _

lemma entryNodeUuid_reads : Reads fun b => entryNodeUuid b p :=
  (entryNodeIps_reads p).bind fun _ => (Block.reads_load8 _).bind fun _ => Reads.const _

lemma entryNodeEvrnetVer_reads : Reads fun b => entryNodeEvrnetVer b p :=
  (entryNodeUuid_reads p).bind fun _ => Reads.const _

lemma entryNodePlatinfoCap_reads : Reads fun b => entryNodePlatinfoCap b p :=
  (entryNodeEvrnetVer_reads p).bind fun _ => (strlen_reads _).bind fun _ => Reads.const _

lemma entryNodePlatinfoMemsz_reads : Reads fun b => entryNodePlatinfoMemsz b p :=
  (entryNodePlatinfoCap_reads p).bind fun _ => Reads.const _

lemma entryNext_reads : Reads fun b => entryNext E b p :=
  (load16_reads E _).bind fun _ => Reads.const _

lemma nlBody_reads : Reads fun b => nlBody E b p := (load32_reads E _).bind fun _ => Reads.const _

end

/-! ### `NODE_EntryToLE` and `NODE_ListToNative` -/

section

variable (p : BitVec w)

lemma update16_writes (f : U16 → U16) : Writes fun b => update16 b p f :=
  (load16_reads .le p).bind fun _ => Block.writes_store _ _

lemma update32_writes (f : U32 → U32) : Writes fun b => update32 b p f :=
  (load32_reads .le p).bind fun _ => Block.writes_store _ _

lemma update64_writes (f : U64 → U64) : Writes fun b => update64 b p f :=
  (load64_reads .le p).bind fun _ => Block.writes_store _ _

lemma swapSize_writes : Writes fun b => swapSize b p := update16_writes _ _

lemma swapUuid0_writes : Writes fun b => swapUuid0 b p :=
  (entryNodeUuid_reads p).bind fun _ => update64_writes _ _

lemma swapUuid1_writes : Writes fun b => swapUuid1 b p :=
  (entryNodeUuid_reads p).bind fun _ => update64_writes _ _

lemma swapCap_writes : Writes fun b => swapCap b p :=
  (entryNodePlatinfoCap_reads p).bind fun _ => update32_writes _ _

lemma swapMemsz_writes : Writes fun b => swapMemsz b p :=
  (entryNodePlatinfoMemsz_reads p).bind fun _ => update32_writes _ _

/-- An object in the state of a loop. -/
abbrev extendFst {σ : Type} (tail : List Byte) (s : Block × σ) : Block × σ := (s.1.extend tail, s.2)

lemma swapIpsStep_grows :
    Grows extendFst (fun tail => Sum.map (extendFst tail) (Block.extend tail)) (swapIpsStep p) := by
  rintro tail ⟨b, i⟩ r h
  rw [swapIpsStep] at h ⊢
  obtain ⟨num, hnum, h⟩ := bind_eq_ok.mp h
  refine bind_eq_ok.mpr ⟨num, Block.reads_load8 _ tail b num hnum, ?_⟩
  split_ifs at h ⊢ with hi
  · obtain ⟨ips, hips, h⟩ := bind_eq_ok.mp h
    obtain ⟨b', hb', h⟩ := bind_eq_ok.mp h
    rw [← Except.ok.inj h]
    refine bind_eq_ok.mpr ⟨ips, entryNodeIps_reads p tail b ips hips, ?_⟩
    exact bind_eq_ok.mpr ⟨_, update32_writes _ _ tail b b' hb', rfl⟩
  · rw [← Except.ok.inj h]
    rfl

lemma swapIps_writes : Writes fun b => swapIps b p :=
  fun tail b b' h => (swapIpsStep_grows p).iter 256 tail (b, 0) b' h

/-- `NODE_EntryToLE`. -/
lemma nodeEntryToLE_writes : Writes fun b => nodeEntryToLE b p :=
  (swapSize_writes p).comp <| (swapIps_writes p).comp <| (swapUuid0_writes p).comp <|
    (swapUuid1_writes p).comp <| (swapCap_writes p).comp <| swapMemsz_writes p

lemma nodeListToNativeStep_grows (nl : BitVec w) :
    Grows extendFst (fun tail => Sum.map (extendFst tail) (Block.extend tail))
      (nodeListToNativeStep nl) := by
  rintro tail ⟨b, e⟩ r h
  rw [nodeListToNativeStep] at h ⊢
  obtain ⟨body, hbody, h⟩ := bind_eq_ok.mp h
  refine bind_eq_ok.mpr ⟨body, nlBody_reads .le nl tail b body hbody, ?_⟩
  split_ifs at h ⊢ with hin
  · obtain ⟨b', hb', h⟩ := bind_eq_ok.mp h
    obtain ⟨e', he', h⟩ := bind_eq_ok.mp h
    rw [← Except.ok.inj h]
    refine bind_eq_ok.mpr ⟨_, nodeEntryToLE_writes e tail b b' hb', ?_⟩
    exact bind_eq_ok.mpr ⟨e', entryNext_reads .le e tail b' e' he', rfl⟩
  · rw [← Except.ok.inj h]
    rfl

/-- `NODE_ListToNative`. -/
lemma nodeListToNative_writes (E : Endian) (k : ℕ) (nl : BitVec w) :
    Writes fun b => nodeListToNative E k b nl := by
  cases E with
  | be => exact fun tail b b' h => congrArg _ (congrArg (Block.extend tail) (Except.ok.inj h))
  | le =>
      refine (update32_writes _ _).comp ((update32_writes _ _).comp ?_)
      exact fun tail b b' h => (nodeListToNativeStep_grows nl).iter k tail (b, nlEntries nl) b' h

end

/-! ### `NODE_MaybeAddEntry` and `NODE_CheckForNewNodes` -/

lemma sameUuid_reads (E : Endian) (b : Block) (e knownEntry : BitVec w) :
    Reads fun msg => sameUuid E msg b e knownEntry := by
  have hload : ∀ f : BitVec w → BitVec w,
      Reads fun msg => entryNodeUuid msg e >>= fun q => load64 E msg (f q) :=
    fun f => (entryNodeUuid_reads e).bind fun q => load64_reads E (f q)
  refine Reads.bind (hload id) fun x => (Reads.const _).bind fun y => ?_
  exact Grows.ite (Reads.bind (hload (· + 8)) fun x => Reads.const _) (Reads.const _)

lemma knownStep_reads (E : Endian) (b : Block) (e nl knownEntry : BitVec w) :
    Reads fun msg => knownStep E msg b e nl knownEntry := by
  refine (Reads.const _).bind fun body => Grows.ite ?_ (Reads.const _)
  exact (sameUuid_reads E b e knownEntry).bind fun same => Reads.const _

lemma discoveredBy_reads (st : NodeState w) : Reads fun msg => discoveredBy msg st := by
  intro tail msg name h
  dsimp only [discoveredBy] at h ⊢
  split at h
  · obtain ⟨s, hs, h⟩ := bind_eq_ok.mp h
    exact bind_eq_ok.mpr ⟨s, Block.reads_cstr _ tail msg s hs, h⟩
  · exact h

section

variable (t : Target) (m : Malloc t.bits) (k : ℕ)

/-- `NODE_MaybeAddEntry` looks at the message. -/
lemma nodeMaybeAddEntry_reads (e : BitVec t.bits) (st : NodeState t.bits) :
    Reads fun msg => nodeMaybeAddEntry t m k msg e st := by
  refine (Reads.iter (fun s => knownStep_reads t.endian st.nodeList e st.nl s) k _).bind
    fun known => ?_
  refine Grows.ite (Reads.const _) ?_
  refine (Reads.const _).bind fun last => ?_
  cases last with
  | none => exact Reads.const _
  | some lastEntry =>
      refine (load16_reads t.endian _).bind fun size => (Reads.const _).bind fun len => ?_
      refine (Reads.const _).bind fun b => ?_
      generalize m.realloc st.allocs b _ = b'
      cases b' with
      | none => exact Reads.const _
      | some b =>
          refine (Reads.const _).bind fun q => (Block.reads_loadN _ _).bind fun data => ?_
          refine (Reads.const _).bind fun b => (Block.reads_cstr _).bind fun name => ?_
          exact (discoveredBy_reads st).bind fun other => Reads.const _

lemma checkStep_reads (nl : BitVec t.bits) (s : NodeState t.bits × BitVec t.bits) :
    Reads fun msg => checkStep t m k msg nl s := by
  refine (nlBody_reads t.endian nl).bind fun body => Grows.ite ?_ (Reads.const _)
  refine (nodeMaybeAddEntry_reads t m k s.2 s.1).bind fun st => ?_
  exact (entryNext_reads t.endian s.2).bind fun e => Reads.const _

/-- `NODE_CheckForNewNodes` converts the message and looks at it. -/
lemma nodeCheckForNewNodes_grows (st : NodeState t.bits) :
    Grows Block.extend extendFst fun msg => nodeCheckForNewNodes t m k msg st := by
  intro tail msg r h
  dsimp only [nodeCheckForNewNodes] at h ⊢
  obtain ⟨msg', hmsg', h⟩ := bind_eq_ok.mp h
  obtain ⟨st', hst', h⟩ := bind_eq_ok.mp h
  rw [← Except.ok.inj h]
  refine bind_eq_ok.mpr ⟨_, nodeListToNative_writes t.endian k _ tail msg msg' hmsg', ?_⟩
  refine bind_eq_ok.mpr ⟨st', ?_, rfl⟩
  exact Reads.iter (fun s => checkStep_reads t m k _ s) k _ tail msg' st' hst'

end

end EverythingNet
