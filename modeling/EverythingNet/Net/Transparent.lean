import Mathlib.Tactic
import EverythingNet.Net.Capacity

/-!
The way of a node list into network byte order and back.

* `swappedIn K`: the positions of the numbers in a list with the entries `K`.
  `agreeOutside_listBytes`: both forms of the list agree everywhere else.
* `thereAndBack` and `backAndThere`: the two conversions in either order.
* `transparent_iff`: they undo each other as long as the table has room for the entries, and the
  sending half leaves the list as it is and sends `announce` of the list and the UUID, whatever the
  message buffer holds, as long as the list fits that buffer too. `long_not_transparent`: lists that
  are too long.
-/

namespace EverythingNet

open CMem

/-! ### Where the two forms differ -/

/-- The positions of the numbers of an entry of more than one byte. -/
def Entry.swapped (e : Entry) : Set ℕ :=
  {i | i < 2 ∨ (e.shape.ipsOff ≤ i ∧ i < e.shape.ipsOff + 4 * e.ips.length)
    ∨ (e.shape.uuidOff ≤ i ∧ i < e.shape.uuidOff + 16)
    ∨ (e.shape.capOff ≤ i ∧ i < e.shape.capOff + 8)}

/-- The positions of `len` and `version` and of the numbers of the entries. -/
def swappedIn (K : List Entry) : Set ℕ :=
  {n | n < 8 ∨ ∃ ds e rs, K = ds ++ e :: rs ∧ ∃ i ∈ e.swapped, n = 8 + total ds + i}

/-- Strings, paddings, the IP count and the distance are the same in both forms of an entry. -/
lemma Entry.agreeOutside_bytes (e : Entry) (E F : Endian) :
    AgreeOutside e.swapped (e.bytes E) (e.bytes F) := by
  have hips : ∀ E, (e.payload E).ips.length = 4 * e.ips.length := fun E => by
    simp [Entry.payload, List.length_flatMap, mul_comm]
  have hlen : ∀ E, (e.payload E).size.length = 2 ∧ (e.payload E).uuid0.length = 8
      ∧ (e.payload E).uuid1.length = 8 ∧ (e.payload E).cap.length = 4
      ∧ (e.payload E).memSz.length = 4 := fun E => by simp [Entry.payload]
  obtain ⟨hsize, huuid0, huuid1, hcap, hmem⟩ := hlen E
  obtain ⟨hsize', huuid0', huuid1', hcap', hmem'⟩ := hlen F
  have hnum := e.toNat_numIp
  simp only [Entry.bytes, Shape.bytes, List.append_assoc]
  -- field by field, the numbers over their positions and the rest as it is
  refine (AgreeOutside.of_length (hsize.trans hsize'.symm) ?_).append
    ((AgreeOutside.refl _ _).append ((AgreeOutside.refl _ _).append ((AgreeOutside.refl _ _).append
    ((AgreeOutside.refl _ _).append ((AgreeOutside.of_length ((hips E).trans (hips F).symm) ?_).append
    ((AgreeOutside.refl _ _).append ((AgreeOutside.of_length (huuid0.trans huuid0'.symm) ?_).append
    ((AgreeOutside.of_length (huuid1.trans huuid1'.symm) ?_).append
    ((AgreeOutside.refl _ _).append ((AgreeOutside.refl _ _).append ((AgreeOutside.refl _ _).append
    ((AgreeOutside.of_length (hcap.trans hcap'.symm) ?_).append
    ((AgreeOutside.of_length (hmem.trans hmem'.symm) ?_).append (AgreeOutside.refl _ _))))))))))))))
  all_goals
    intro i hi
    simp only [Entry.swapped, Set.mem_ofPred_eq, List.length_cons, List.length_nil, Shape.capOff,
      Shape.verOff, Shape.uuidOff, Shape.ipsOff, hnum, hips, hsize, huuid0, huuid1, hcap,
        hmem] at hi ⊢
    omega

/-- Outside these positions both forms of a list agree. -/
lemma agreeOutside_entriesBytes (K : List Entry) (E F : Endian) :
    AgreeOutside {n | ∃ ds e rs, K = ds ++ e :: rs ∧ ∃ i ∈ e.swapped, n = total ds + i}
      (entriesBytes E K) (entriesBytes F K) := by
  induction K with
  | nil =>
      rw [entriesBytes_nil, entriesBytes_nil]
      exact AgreeOutside.refl _ _
  | cons e K ih =>
      rw [entriesBytes_cons, entriesBytes_cons]
      refine AgreeOutside.append ((e.agreeOutside_bytes E F).mono ?_) (ih.mono ?_)
      · intro i hi
        exact ⟨[], e, K, rfl, i, hi, by simp⟩
      · rintro n ⟨ds, f, rs, rfl, i, hi, rfl⟩
        exact ⟨e :: ds, f, rs, rfl, i, hi, by simp [add_assoc]⟩

lemma agreeOutside_listBytes (K : List Entry) (v : U32) (E F : Endian) :
    AgreeOutside (swappedIn K) (listBytes E v K) (listBytes F v K) := by
  rw [listBytes, listBytes]
  refine AgreeOutside.append (AgreeOutside.of_length (by simp) fun i hi => ?_)
    ((agreeOutside_entriesBytes K E F).mono ?_)
  · rw [listHeader_length] at hi
    exact Or.inl hi
  · rintro n ⟨ds, e, rs, hK, i, hi, rfl⟩
    refine Or.inr ⟨ds, e, rs, hK, i, hi, ?_⟩
    rw [listHeader_length, add_assoc]

/-! ### There and back -/

/-- `NODE_ListToNative` after `NODE_ListToBE`. -/
def thereAndBack (t : Target) (m : Malloc t.bits) (j fuel : ℕ) (b : Block) (nl : BitVec t.bits) :
    Except Halt Block := do
  let b ← nodeListToBE t m j fuel b nl
  nodeListToNative t.endian fuel b nl

/-- `NODE_ListToBE` after `NODE_ListToNative`. -/
def backAndThere (t : Target) (m : Malloc t.bits) (j fuel : ℕ) (b : Block) (nl : BitVec t.bits) :
    Except Halt Block := do
  let b ← nodeListToNative t.endian fuel b nl
  nodeListToBE t m j fuel b nl

/-- A list of the byte order `E` between other bytes. -/
abbrev placed (base : ℕ) (pre post : List Byte) (E : Endian) (v : U32) (K : List Entry) : Block :=
  ⟨base, pre ++ (listBytes E v K ++ post)⟩

section

variable {t : Target} {m : Malloc t.bits} {base : ℕ} {pre post : List Byte} {nl : BitVec t.bits}
  {v : U32} {K : List Entry}

lemma Frame.settles_toNative (hf : Frame base pre post nl (total K)) (hlaid : Laid (nl.toNat + 8) K) :
    Settles (fun k => EverythingNet.nodeListToNative t.endian k (placed base pre post .be v K) nl)
      (.ok (placed base pre post t.endian v K)) :=
  ⟨K.length + 1, fun _ hk => hf.nodeListToNative rfl hlaid hk⟩

lemma Frame.settles_toBE (hf : Frame base pre post nl (total K)) (hlaid : Laid (nl.toNat + 8) K)
    (hlim : t.bits / 8 * 512 ≤ m.limit) (j : ℕ) (hcap : t.endian = .le → K.length ≤ 512) :
    Settles (fun k => EverythingNet.nodeListToBE t m j k (placed base pre post t.endian v K) nl)
      (.ok (placed base pre post .be v K)) :=
  ⟨K.length + 1, fun _ hk => hf.nodeListToBE rfl hlaid hk hcap hlim⟩

lemma Frame.settles_overflow (hf : Frame base pre post nl (total K)) (hlaid : Laid (nl.toNat + 8) K)
    (hlim : t.bits / 8 * 512 ≤ m.limit) (j : ℕ) (hcap : ¬ (t.endian = .le → K.length ≤ 512)) :
    Settles (fun k => EverythingNet.nodeListToBE t m j k (placed base pre post t.endian v K) nl)
      (.error .outOfBounds) := by
  obtain ⟨hle, hlong⟩ := Classical.not_imp.mp hcap
  rw [hle]
  exact ⟨K.length, fun k hk => hf.nodeListToBE_overflow rfl hlaid hk (not_le.mp hlong) hle hlim⟩

/-- The conversions undo each other exactly if the table has room for the entries. -/
lemma Frame.thereAndBack_iff (hf : Frame base pre post nl (total K))
    (hlaid : Laid (nl.toNat + 8) K) (hlim : t.bits / 8 * 512 ≤ m.limit) (j : ℕ) :
    Settles (fun k => thereAndBack t m j k (placed base pre post t.endian v K) nl)
        (.ok (placed base pre post t.endian v K))
      ↔ (t.endian = .le → K.length ≤ 512) := by
  constructor
  · intro h
    by_contra hcap
    have hover := Settles.bind_halt (g := fun k b => EverythingNet.nodeListToNative t.endian k b nl)
      (hf.settles_overflow (v := v) hlaid hlim j hcap)
    exact absurd (h.unique hover) (by simp)
  · intro hcap
    exact (hf.settles_toBE hlaid hlim j hcap).bind (hf.settles_toNative hlaid)

lemma Frame.backAndThere_iff (hf : Frame base pre post nl (total K))
    (hlaid : Laid (nl.toNat + 8) K) (hlim : t.bits / 8 * 512 ≤ m.limit) (j : ℕ) :
    Settles (fun k => backAndThere t m j k (placed base pre post .be v K) nl)
        (.ok (placed base pre post .be v K))
      ↔ (t.endian = .le → K.length ≤ 512) := by
  constructor
  · intro h
    by_contra hcap
    have hover := (hf.settles_toNative hlaid).bind (g := fun k b =>
      EverythingNet.nodeListToBE t m j k b nl)
      (hf.settles_overflow (v := v) hlaid hlim j hcap)
    exact absurd (h.unique hover) (by simp)
  · intro hcap
    exact (hf.settles_toNative hlaid).bind (hf.settles_toBE hlaid hlim j hcap)

end

/-- A list of too many entries does not come back into its wire form. -/
lemma Holds.backAndThere_overflow {t : Target} {m : Malloc t.bits} {b : Block} {v : U32}
    {K : List Entry} (hK : Holds t b v K) (hlim : t.bits / 8 * 512 ≤ m.limit) (j : ℕ)
    (hcap : ¬ (t.endian = .le → K.length ≤ 512)) :
    Settles (fun k => backAndThere t m j k (placed b.base [] [] .be v K) (BitVec.ofNat t.bits b.base))
      (.error .outOfBounds) :=
  (hK.frame.settles_toNative hK.laid_nl).bind (hK.frame.settles_overflow hK.laid_nl hlim j hcap)

/-- The sending half leaves the list as it is and sends the packet of the list and the UUID, whatever
the message buffer holds, exactly if the list is within the capacities of the sender. -/
lemma netSend_transparent_iff {t : Target} {m : Malloc t.bits} {v : U32} {K : List Entry}
    {msg : Block} (uuid : U64 × U64) (node : NodeState t.bits) (env : Env)
    (hK : Holds t node.nodeList v K) (hbuf : Buffer t msg) (hlim : t.bits / 8 * 512 ≤ m.limit) :
    (∃ msg' node', Settles (fun k => netSend t m uuid env k msg node)
          (.ok (msg', node', sentOf t env (announce uuid v K).bytes))
        ∧ sendData t msg' = .ok (announce uuid v K).bytes ∧ node'.nodeList = node.nodeList)
      ↔ Sendable t K := by
  constructor
  · rintro ⟨msg', node', hsend, -, -⟩
    by_contra hcap
    exact absurd (hsend.unique (netSend_overflow _ _ hbuf hK hlim hcap)) (by simp)
  · intro hcap
    obtain ⟨msg', hrecv, hsend⟩ := netSend_spec uuid env hbuf hK hcap hlim (Nat.lt_succ_self _)
    exact ⟨msg', _, (netSend_steady t m uuid env msg node).settles hsend (by simp),
      sendData_spec hrecv, rfl⟩

/-- Sending is transparent: the conversions undo each other as long as the table has room for the
entries, only the numbers differ in between, and within the capacities of the sender the sending half
leaves the list as it is and sends the packet of the list and the UUID. -/
theorem transparent_iff {t : Target} {m : Malloc t.bits} (v : U32) (K : List Entry) (j : ℕ)
    (hlim : t.bits / 8 * 512 ≤ m.limit) :
    (∀ (base : ℕ) (pre post : List Byte) (nl : BitVec t.bits), Frame base pre post nl (total K) →
        Laid (nl.toNat + 8) K →
        (Settles (fun k => thereAndBack t m j k (placed base pre post t.endian v K) nl)
            (.ok (placed base pre post t.endian v K))
          ↔ (t.endian = .le → K.length ≤ 512))
        ∧ (Settles (fun k => backAndThere t m j k (placed base pre post .be v K) nl)
            (.ok (placed base pre post .be v K))
          ↔ (t.endian = .le → K.length ≤ 512))
        ∧ (∀ b, Settles (fun k => nodeListToBE t m j k (placed base pre post t.endian v K) nl)
          (.ok b) →
            ∃ l, b = ⟨base, pre ++ (l ++ post)⟩
              ∧ AgreeOutside (swappedIn K) (listBytes t.endian v K) l)
        ∧ ∀ b, Settles (fun k => nodeListToNative t.endian k (placed base pre post .be v K) nl)
          (.ok b) →
            ∃ l, b = ⟨base, pre ++ (l ++ post)⟩ ∧ AgreeOutside (swappedIn K) (listBytes .be v K) l)
      ∧ ∀ uuid : U64 × U64, (announce uuid v K).bytes.length = (8 + total K) + 24
        ∧ ∀ (node : NodeState t.bits) (env : Env) (msg : Block), Holds t node.nodeList v K →
          Buffer t msg →
          ((∃ msg' node', Settles (fun k => netSend t m uuid env k msg node)
                (.ok (msg', node', sentOf t env (announce uuid v K).bytes))
              ∧ sendData t msg' = .ok (announce uuid v K).bytes
              ∧ node'.nodeList = node.nodeList)
            ↔ Sendable t K) := by
  refine ⟨fun base pre post nl hf hlaid => ⟨hf.thereAndBack_iff hlaid hlim j,
    hf.backAndThere_iff hlaid hlim j, fun b hb => ?_, fun b hb => ?_⟩, fun uuid => ⟨?_,
    fun node env msg hK hbuf => netSend_transparent_iff uuid node env hK hbuf hlim⟩⟩
  · by_cases hcap : t.endian = .le → K.length ≤ 512
    · obtain rfl := Except.ok.inj (hb.unique (hf.settles_toBE hlaid hlim j hcap))
      exact ⟨_, rfl, agreeOutside_listBytes K v _ _⟩
    · exact absurd (hb.unique (hf.settles_overflow hlaid hlim j hcap)) (by simp)
  · obtain rfl := Except.ok.inj (hb.unique (hf.settles_toNative hlaid))
    exact ⟨_, rfl, agreeOutside_listBytes K v _ _⟩
  · rw [Packet.bytes_length]
    show 32 + total K = 8 + total K + 24
    omega

/-- A router with two addresses. -/
def gateway : Entry where
  distance := 1
  name := ⟨[0x67, 0x77], by decide⟩
  namePad := [0]
  ips := [0xC0A80001, 0x0A000001]
  ipsPad := []
  uuid := (0x1122334455667788, 0x99AABBCCDDEEFF00)
  ver := somever
  verPad := []
  cap := 0x5
  memSz := 512
  rest := [0x57, 0x52, 0x54, 0, 0x4C, 0x69, 0x6E, 0x75, 0x78, 0, 0x61, 0x72, 0x6D, 0, 0x41, 0x37, 0,
    0, 0, 0, 0, 0, 0, 0]
  ips_lt := by decide
  length_lt := by decide

lemma gateway_wellFormed : gateway.WellFormed := by
  refine ⟨⟨⟨?_, ?_, ?_⟩, ?_⟩, show 5 ≤ (cstrings gateway.rest).length from ?_⟩
  all_goals decide

/-- The list of a desktop that knows a router. -/
def household : List Entry := [LocalInfo.desktop.entry, gateway]

lemma household_wellFormed : ∀ e ∈ household, e.WellFormed := by
  intro e he
  obtain rfl | rfl : e = LocalInfo.desktop.entry ∨ e = gateway := by simpa [household] using he
  · exact LocalInfo.desktop.entry_wellFormed
  · exact gateway_wellFormed

lemma total_household : total household = 144 := by decide

lemma household_holds : Holds .linux64 (sampleList household) evrnetNodelistV1 household :=
  sampleList_holds household_wellFormed (by rw [total_household]; norm_num)

/-- The list comes back from its wire form, and the desktop sends the same packet whatever the
message buffer holds. -/
theorem transparent_iff_sample :
    Settles (fun k => thereAndBack .linux64 .spread 0 k
        (placed 4096 [] [] .le evrnetNodelistV1 household) (BitVec.ofNat 64 4096))
      (.ok (placed 4096 [] [] .le evrnetNodelistV1 household))
    ∧ Settles (fun k => backAndThere .linux64 .spread 0 k
        (placed 4096 [] [] .be evrnetNodelistV1 household) (BitVec.ofNat 64 4096))
      (.ok (placed 4096 [] [] .be evrnetNodelistV1 household))
    ∧ ∀ msg, Buffer .linux64 msg → ∃ msg' node',
      Settles (fun k => netSend .linux64 .spread LocalInfo.desktop.uuid
          (sockEnv 2 (fun _ => true) true) k msg ⟨sampleList household, .unset, none, 3, []⟩)
        (.ok (msg', node',
          [⟨some 0, (announce LocalInfo.desktop.uuid evrnetNodelistV1 household).bytes⟩,
            ⟨some 1, (announce LocalInfo.desktop.uuid evrnetNodelistV1 household).bytes⟩,
            ⟨none, (announce LocalInfo.desktop.uuid evrnetNodelistV1 household).bytes⟩]))
      ∧ node'.nodeList = sampleList household := by
  obtain ⟨hconv, hsend⟩ := transparent_iff (t := .linux64) (m := .spread) evrnetNodelistV1 household 0
    (by decide)
  obtain ⟨hthere, hback, -, -⟩ := hconv _ [] [] _ household_holds.frame household_holds.laid_nl
  obtain ⟨-, hsend⟩ := hsend LocalInfo.desktop.uuid
  have hroom : Sendable .linux64 household :=
    ⟨by rw [total_household]; decide, by simp [household]⟩
  refine ⟨hthere.mpr (by simp [household]), hback.mpr (by simp [household]), fun msg hbuf => ?_⟩
  obtain ⟨msg', node', hsent, -, hlist⟩ := (hsend ⟨sampleList household, .unset, none, 3, []⟩
    (sockEnv 2 (fun _ => true) true) msg household_holds hbuf).mpr hroom
  exact ⟨msg', node', hsent, hlist⟩

/-- A list of 513 entries that fits a packet does not come back from its wire form and forth, and a
list of 16 entries that does not fit one is not sent. -/
theorem long_not_transparent :
    (∀ e ∈ crowd 0 513 0, e.WellFormed) ∧ 32 + total (crowd 0 513 0) ≤ Target.linux64.bufSize
      ∧ (∀ j, Settles (fun k => backAndThere .linux64 .spread j k
          (placed longList.base [] [] .be evrnetNodelistV1 (crowd 0 513 0))
          (BitVec.ofNat 64 longList.base))
          (.error .outOfBounds))
      ∧ (∀ e ∈ crowd 0 16 506, e.WellFormed) ∧ (crowd 0 16 506).length ≤ 512
      ∧ ∀ (uuid : U64 × U64) (env : Env) (msg : Block) (node : NodeState 64), Buffer .linux64 msg →
        Holds .linux64 node.nodeList evrnetNodelistV1 (crowd 0 16 506) →
        Settles (fun k => netSend .linux64 .spread uuid env k msg node) (.error .outOfBounds) := by
  have hcap : ¬ (Target.linux64.endian = .le → (crowd 0 513 0).length ≤ 512) := by
    simp [crowd, Target.linux64]
  refine ⟨fun _ => wellFormed_of_mem_crowd, ?_, fun j => ?_, fun _ => wellFormed_of_mem_crowd,
    by simp [crowd], fun uuid env msg node hbuf hK => ?_⟩
  · rw [total_crowd]
    decide
  · exact longList_holds.backAndThere_overflow (by decide) j hcap
  · refine netSend_overflow _ _ hbuf hK (by decide) fun h => ?_
    have hfits := h.fits
    rw [total_crowd] at hfits
    exact absurd hfits (by decide)

end EverythingNet
