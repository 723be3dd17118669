import Mathlib.Tactic
import EverythingNet.Net.Capacity

/-!
The states that a node can reach, whatever arrives at its sockets.

* `Takes`: what a round of the loop of `NET_HandleBcast` takes for a message, out of queues that hold
  anything. `bcastLoop_takes` and `Takes.passed`: it is a datagram of the queue, over what the message
  buffer held before, and has passed the checks.
* `Takes.recvStep`, `recvStep_rest`: a round hands the message on, or it ends the loop and leaves the
  node list alone.
* `Reached Good`: the states of the runs in which every datagram taken for a message is `Good`.
* `Meets`: the datagram is the node's own, or its entries lie one behind the other, each with its fields
  inside its size. `Kept.handle`: handling such a message keeps the list or halts. `Reached.kept`: so
  does a whole run.
-/

namespace EverythingNet

open CMem KeyedLog

/-! ### What a round takes for a message -/

/-- In this state of the sockets a round of the loop of `NET_HandleBcast` takes the datagram `d` for a
message: the way it came, the message buffer with it, and what is left at the two sockets. -/
inductive Takes (t : Target) (env : Env) (s : RecvState t.bits) :
    DiscoverySrc → List Byte → Block → List Arrival → List Arrival → Prop where
  | bcast (pre : List Arrival) (d : List Byte) (errno : Errno) (msg : Block) (q : List Arrival)
      (queue : s.bcast = pre ++ .datagram d errno :: q)
      (check : platNetCheckBcastData t env.bcastPoll env.knownIfaces s.msg s.bcast
        = .ok (1, msg, q)) :
      Takes t env s .broadcast d msg q s.mcast
  | mcast (ret : ℤ) (d : List Byte) (errno : Errno) (msg₁ msg : Block) (q q' : List Arrival)
      (check : platNetCheckBcastData t env.bcastPoll env.knownIfaces s.msg s.bcast
        = .ok (ret, msg₁, q))
      (ne : ret ≠ 1) (multicast : t.multicast = true) (queue : s.mcast = .datagram d errno :: q')
      (check' : platNetCheckMcastData t env.mcastPoll msg₁ s.mcast = .ok (1, msg, q')) :
      Takes t env s .multicast d msg q q'

/-- The message buffer holds the received part of the datagram, over older bytes. -/
structure Taken (t : Target) (d : List Byte) (msg : Block) : Prop where
  buffer : Buffer t msg
  bytes : ∃ old, msg.bytes = overlay (d.take t.bufSize) old

/-- The checks have let it pass. -/
structure Passed (t : Target) (d : List Byte) (msg : Block) : Prop extends Taken t d msg where
  shows : Shows t.bits msg.bytes (d.take t.bufSize).length

section

variable {t : Target} {msg : Block}

lemma recvfrom_taken (hm : Buffer t msg) (d : List Byte) :
    Taken t d ⟨msg.base, overlay (d.take t.bufSize) msg.bytes⟩ :=
  ⟨(recvfrom_datagram hm d .again []).2, _, rfl⟩

/-- A datagram that the checks take for a message has passed them. -/
lemma passed_of_verdict {β : Type} {errno : Errno} {no err yes : β} (hm : Buffer t msg)
    (d : List Byte) (hno : no ≠ yes) (herr : err ≠ yes)
    (h : verdict t.bits msg.bytes (d.take t.bufSize) errno no err yes = yes) :
    Passed t d ⟨msg.base, overlay (d.take t.bufSize) msg.bytes⟩ := by
  refine ⟨recvfrom_taken hm d, ?_⟩
  rw [verdict] at h
  split_ifs at h with hnil hagain hshows
  · exact absurd h hno
  · exact absurd h herr
  · exact hshows
  · exact absurd h hno

/-- A round of the loop over the interfaces: the buffer stays a buffer, and only a datagram can be a
message. -/
lemma bcastRead_takes (hm : Buffer t msg) (q : List Arrival) :
    ∃ r msg' pre q', bcastRead t msg q = .ok (r, msg', q') ∧ q = pre ++ q' ∧ Buffer t msg'
      ∧ (r = some 1 → ∃ d errno, pre = [.datagram d errno] ∧ Passed t d msg') := by
  cases q with
  | nil =>
      refine ⟨none, msg, [], [], ?_, rfl, hm, by simp⟩
      rw [bcastRead, recvfrom, ok_bind]
      rfl
  | cons a q =>
      cases a with
      | datagram d errno =>
          exact ⟨_, _, [_], q, bcastRead_datagram hm, rfl, (recvfrom_taken hm d).buffer, fun h =>
            ⟨d, errno, rfl, passed_of_verdict hm d (by simp) (by simp) h⟩⟩
      | error errno =>
          refine ⟨_, msg, [_], q, bcastRead_failure, rfl, hm, fun h => ?_⟩
          split_ifs at h
          simp at h

/-- The loop over the interfaces. -/
lemma bcastLoop_takes (n : ℕ) (hm : Buffer t msg) (q : List Arrival) :
    ∃ ret msg' q', bcastLoop t n msg q = .ok (ret, msg', q') ∧ Buffer t msg'
      ∧ (ret = 1 → ∃ pre d errno, q = pre ++ .datagram d errno :: q' ∧ Passed t d msg') := by
  induction n generalizing msg q with
  | zero => exact ⟨0, msg, q, rfl, hm, by simp⟩
  | succ n ih =>
      obtain ⟨r, msg₁, pre, q₁, hread, hq, hm₁, hone⟩ := bcastRead_takes hm q
      cases r with
      | none =>
          obtain ⟨ret, msg', q', hloop, hm', hret⟩ := ih hm₁ q₁
          refine ⟨ret, msg', q', ?_, hm', fun h => ?_⟩
          · rw [bcastLoop, hread, ok_bind]
            exact hloop
          · obtain ⟨pre', d, errno, hq₁, htaken⟩ := hret h
            exact ⟨pre ++ pre', d, errno, by rw [hq, hq₁, List.append_assoc], htaken⟩
      | some ret =>
          refine ⟨ret, msg₁, q₁, ?_, hm₁, fun h => ?_⟩
          · rw [bcastLoop, hread, ok_bind]
            rfl
          · obtain ⟨d, errno, rfl, htaken⟩ := hone (congrArg some h)
            exact ⟨[], d, errno, hq, htaken⟩

/-- `PLAT_NetCheckBcastData` on a queue that holds anything. -/
lemma platNetCheckBcastData_takes (poll : List Arrival → Poll) (n : ℕ) (hm : Buffer t msg)
    (q : List Arrival) :
    ∃ ret msg' q', platNetCheckBcastData t poll n msg q = .ok (ret, msg', q') ∧ Buffer t msg'
      ∧ (ret = 1 → ∃ pre d errno, q = pre ++ .datagram d errno :: q' ∧ Passed t d msg') := by
  rw [platNetCheckBcastData]
  cases poll q with
  | failed => exact ⟨-1, msg, q, rfl, hm, by simp⟩
  | idle => exact ⟨0, msg, q, rfl, hm, by simp⟩
  | ready => exact bcastLoop_takes n hm q

/-- `PLAT_NetCheckMcastData` on a queue that holds anything. -/
lemma platNetCheckMcastData_takes (poll : List Arrival → Poll) (hm : Buffer t msg)
    (q : List Arrival) :
    ∃ ret msg' q', platNetCheckMcastData t poll msg q = .ok (ret, msg', q') ∧ Buffer t msg'
      ∧ (ret = 1 → ∃ d errno, q = .datagram d errno :: q' ∧ Passed t d msg') := by
  by_cases hmc : t.multicast = true
  · cases hpoll : poll q with
    | failed =>
        refine ⟨-1, msg, q, ?_, hm, by simp⟩
        rw [platNetCheckMcastData, if_pos hmc, hpoll]
    | idle =>
        refine ⟨0, msg, q, ?_, hm, by simp⟩
        rw [platNetCheckMcastData, if_pos hmc, hpoll]
    | ready =>
        cases q with
        | nil =>
            refine ⟨0, msg, [], ?_, hm, by simp⟩
            rw [platNetCheckMcastData, if_pos hmc, hpoll]
            rfl
        | cons a q =>
            cases a with
            | datagram d errno =>
                exact ⟨_, _, q, mcast_datagram hm hmc hpoll, (recvfrom_taken hm d).buffer, fun h =>
                  ⟨d, errno, rfl, passed_of_verdict hm d (by simp) (by simp) h⟩⟩
            | error errno =>
                refine ⟨if errno.isAgain then 0 else -1, msg, q, ?_, hm, fun h => ?_⟩
                · rw [platNetCheckMcastData, if_pos hmc, hpoll]
                  cases errno <;> rfl
                · split_ifs at h
                  simp at h
  · refine ⟨0, msg, q, ?_, hm, by simp⟩
    rw [platNetCheckMcastData, if_neg hmc]

end

/-! ### A round of the receiving loop -/

/-- How a round ends: the loop is left after a message of the node's own. -/
def roundEnd {w : ℕ} (bcast mcast : List Arrival) (r : Bool × Block × NodeState w) :
    RecvState w ⊕ RecvState w :=
  if r.1 then .inr ⟨r.2.1, r.2.2, bcast, mcast⟩ else .inl ⟨r.2.1, r.2.2, bcast, mcast⟩

section

variable {t : Target} {m : Malloc t.bits} {uuid : U64 × U64} {env : Env} {s : RecvState t.bits}
  {src : DiscoverySrc} {d : List Byte} {msg : Block} {bcast mcast : List Arrival}

/-- The message is in the buffer, and the checks have let it pass. -/
lemma Takes.passed (h : Takes t env s src d msg bcast mcast) (hm : Buffer t s.msg) :
    Passed t d msg := by
  cases h with
  | bcast pre _ errno _ _ queue check =>
      obtain ⟨ret, msg', q', hcheck, -, hone⟩ :=
        platNetCheckBcastData_takes env.bcastPoll env.knownIfaces hm s.bcast
      rw [check] at hcheck
      obtain ⟨rfl, rfl, rfl⟩ : 1 = ret ∧ msg = msg' ∧ bcast = q' := by simpa using hcheck
      obtain ⟨pre', d', errno', hq, hpassed⟩ := hone rfl
      -- the rest of the queue fixes the datagram before it
      have hsame : pre ++ [Arrival.datagram d errno] = pre' ++ [.datagram d' errno'] := by
        rw [← List.append_left_inj bcast, List.append_assoc, List.append_assoc, List.singleton_append,
          List.singleton_append, ← hq, queue]
      have hlast := (List.append_inj' hsame rfl).2
      obtain ⟨rfl, -⟩ : d = d' ∧ errno = errno' := by simpa using hlast
      exact hpassed
  | mcast ret _ errno msg₁ _ _ _ check ne multicast queue check' =>
      obtain ⟨ret', msg', q', hcheck, hm₁, -⟩ :=
        platNetCheckBcastData_takes env.bcastPoll env.knownIfaces hm s.bcast
      rw [check] at hcheck
      obtain ⟨-, rfl, -⟩ : ret = ret' ∧ msg₁ = msg' ∧ bcast = q' := by simpa using hcheck
      obtain ⟨ret'', msg'', q'', hcheck', -, hone⟩ :=
        platNetCheckMcastData_takes env.mcastPoll hm₁ s.mcast
      rw [check'] at hcheck'
      obtain ⟨rfl, rfl, rfl⟩ : 1 = ret'' ∧ msg = msg'' ∧ mcast = q'' := by simpa using hcheck'
      obtain ⟨d', errno', hq, hpassed⟩ := hone rfl
      rw [queue] at hq
      obtain ⟨⟨rfl, -⟩, -⟩ : (d = d' ∧ errno = errno') ∧ mcast = mcast := by simpa using hq
      exact hpassed

lemma Takes.taken (h : Takes t env s src d msg bcast mcast) (hm : Buffer t s.msg) :
    Taken t d msg := (h.passed hm).toTaken

/-- The round hands the message on. -/
lemma Takes.recvStep (h : Takes t env s src d msg bcast mcast) (k : ℕ) :
    EverythingNet.recvStep t m uuid env k s
      = netHandleMsg t m uuid k msg { s.node with source := src, sourceNode := none }
          >>= fun r => .ok (roundEnd bcast mcast r) := by
  have hend : ∀ {w : ℕ} (r : Bool × Block × NodeState w),
      (if r.1 then pure (.inr ⟨r.2.1, r.2.2, bcast, mcast⟩) else
        pure (.inl ⟨r.2.1, r.2.2, bcast, mcast⟩))
        = (.ok (roundEnd bcast mcast r) : Except Halt (RecvState w ⊕ RecvState w)) := by
    intro w r
    rw [roundEnd]
    split_ifs <;> rfl
  cases h with
  | bcast pre _ errno _ _ queue check =>
      rw [EverythingNet.recvStep]
      dsimp only
      rw [check, ok_bind]
      dsimp only
      rw [if_pos rfl]
      exact bind_congr fun r => hend r
  | mcast ret _ errno msg₁ _ _ _ check ne multicast queue check' =>
      rw [EverythingNet.recvStep]
      dsimp only
      rw [check, ok_bind]
      dsimp only
      rw [if_neg ne, if_pos multicast, check', ok_bind]
      dsimp only
      rw [if_pos rfl]
      exact bind_congr fun r => hend r

variable (m uuid env) in
/-- A round that takes nothing for a message ends the loop. -/
lemma recvStep_rest (hm : Buffer t s.msg) :
    (∃ src d msg bcast mcast, Takes t env s src d msg bcast mcast)
      ∨ ∃ s', (∀ k, recvStep t m uuid env k s = .ok (.inr s')) ∧ Buffer t s'.msg
        ∧ s'.node.nodeList = s.node.nodeList := by
  obtain ⟨ret, msg₁, q, hcheck, hm₁, hone⟩ :=
    platNetCheckBcastData_takes env.bcastPoll env.knownIfaces hm s.bcast
  by_cases hret : ret = 1
  · obtain ⟨pre, d, errno, hq, -⟩ := hone hret
    subst hret
    exact .inl ⟨_, _, _, _, _, .bcast pre d errno msg₁ q hq hcheck⟩
  by_cases hmc : t.multicast = true
  · obtain ⟨ret', msg₂, q', hcheck', hm₂, hone'⟩ := platNetCheckMcastData_takes env.mcastPoll
      hm₁ s.mcast
    by_cases hret' : ret' = 1
    · obtain ⟨d, errno, hq, -⟩ := hone' hret'
      subst hret'
      exact .inl ⟨_, _, _, _, _, .mcast ret d errno msg₁ msg₂ q q' hcheck hret hmc hq hcheck'⟩
    · refine .inr ⟨⟨msg₂, { s.node with source := .multicast, sourceNode := none }, q, q'⟩,
        fun k => ?_, hm₂, rfl⟩
      rw [recvStep]
      dsimp only
      rw [hcheck, ok_bind]
      dsimp only
      rw [if_neg hret, if_pos hmc, hcheck', ok_bind]
      dsimp only
      rw [if_neg hret', pure_eq_ok]
  · refine .inr ⟨⟨msg₁, { s.node with source := .broadcast, sourceNode := none }, q, s.mcast⟩,
      fun k => ?_, hm₁, rfl⟩
    rw [recvStep]
    dsimp only
    rw [hcheck, ok_bind]
    dsimp only
    rw [if_neg hret, if_neg hmc, pure_eq_ok]

end

/-! ### Runs -/

/-- The state in which a round leaves the loop or goes on. -/
abbrev roundState {w : ℕ} : RecvState w ⊕ RecvState w → RecvState w := Sum.elim id id

/-- The message buffer and the node state after a start, rounds of the receiving loop and sends, in a run
in which every datagram that a round takes for a message is `Good` for the node list it meets. Between
two steps anything may arrive at the sockets. -/
inductive Reached (t : Target) (m : Malloc t.bits) (i : LocalInfo)
    (Good : Block → List Byte → Block → Prop) : Block → NodeState t.bits → Prop where
  | start (st : NetState t.bits) (start : netStart t m i.toLocalFields = .ok st) :
      Reached t m i Good st.msg st.node
  | receive (env : Env) (s : RecvState t.bits) (r : RecvState t.bits ⊕ RecvState t.bits)
      (before : Reached t m i Good s.msg s.node)
      (good : ∀ src d msg bcast mcast, Takes t env s src d msg bcast mcast →
        Good s.node.nodeList d msg)
      (round : Settles (fun k => recvStep t m i.uuid env k s) (.ok r)) :
      Reached t m i Good (roundState r).msg (roundState r).node
  | send (env : Env) (msg msg' : Block) (node node' : NodeState t.bits) (sent : List Sent)
      (before : Reached t m i Good msg node)
      (sends : Settles (fun k => netSend t m i.uuid env k msg node) (.ok (msg', node', sent))) :
      Reached t m i Good msg' node'

lemma Reached.mono {t : Target} {m : Malloc t.bits} {i : LocalInfo}
    {Good Good' : Block → List Byte → Block → Prop}
    {msg : Block} {node : NodeState t.bits} (hg : ∀ b d msg, Good b d msg → Good' b d msg)
    (h : Reached t m i Good msg node) : Reached t m i Good' msg node := by
  induction h with
  | start st start => exact .start st start
  | receive env s r _ good round ih =>
      exact .receive env s r ih (fun src d msg q q' h => hg _ _ _ (good src d msg q q' h)) round
  | send env msg msg' node node' sent _ sends ih => exact .send env msg msg' node node' sent ih sends

/-! ### Messages that the receiver can trust -/

/-- The message in the buffer has the header of the node itself. -/
def FromSelf (uuid : U64 × U64) (msg : Block) : Prop :=
  ∃ (p : Packet) (l : List Byte), msg.bytes = p.hdr .be ++ l ∧ p.uuid = uuid

/-- The received bytes are those of a packet whose entries lie one behind the other, the fields of each
inside its size and aligned. -/
structure Framed (t : Target) (d : List Byte) (p : Packet) : Prop where
  bytes : d.take t.bufSize = p.bytes
  laid : Laid sizeofBcastMsg p.entries

/-- The message is the node's own, or it is a packet of entries which, next to those of the node list,
are as `Q` demands. -/
def Meets (t : Target) (uuid : U64 × U64) (Q : List Entry → List Entry → Prop) (b : Block)
    (d : List Byte) (msg : Block) : Prop :=
  FromSelf uuid msg ∨ ∃ p, Framed t d p ∧ ∀ v K, Holds t b v K → Q K p.entries

/-- The entries with new UUIDs have the property. -/
def NewAre (P : Entry → Prop) (K L : List Entry) : Prop := ∀ e ∈ fresh uuidOf (K.map uuidOf) L, P e

section

variable {t : Target} {uuid : U64 × U64} {Q Q' : List Entry → List Entry → Prop} {b msg : Block}
  {d : List Byte} {p : Packet}

lemma Meets.mono (hQ : ∀ K L, Q K L → Q' K L) (h : Meets t uuid Q b d msg) :
    Meets t uuid Q' b d msg :=
  h.imp id fun ⟨p, hp, hK⟩ => ⟨p, hp, fun v K hb => hQ K p.entries (hK v K hb)⟩

/-- The packet is in the message buffer. -/
lemma Taken.receives (h : Taken t d msg) (hp : Framed t d p) : ∃ tail, Receives t msg p tail := by
  obtain ⟨old, hold⟩ := h.bytes
  exact ⟨_, h.buffer, by rw [hold, overlay, hp.bytes]⟩

/-- Its entries lie in their places there. -/
lemma Framed.laid_msg (hp : Framed t d p) (hm : Buffer t msg) : Laid (msg.base + 32) p.entries := by
  refine hp.laid.of_mod ?_
  have hdvd := hm.dvd
  rw [sizeofBcastMsg]
  omega

end

/-! ### What every run keeps -/

/-- The node list holds different entries with the property `P`, the node's own among them. -/
structure Kept {t : Target} (m : Malloc t.bits) (P : Entry → Prop) (K : List Entry) (msg : Block)
    (node : NodeState t.bits) : Prop where
  buffer : Buffer t msg
  list : Holds t node.nodeList evrnetNodelistV1 K
  nonempty : K ≠ []
  nodup : (K.map uuidOf).Nodup
  limit : 8 + total K ≤ m.limit
  all : ∀ e ∈ K, P e

section

variable {t : Target} {m : Malloc t.bits} {P : Entry → Prop} {K L : List Entry} {msg : Block}
  {node : NodeState t.bits} {i : LocalInfo}

lemma Kept.all_mergeNew (h : Kept m P K msg node) (hL : NewAre P K L) :
    ∀ e ∈ mergeNew uuidOf K L, P e := by
  intro e he
  rw [mergeNew_eq_append] at he
  cases List.mem_append.mp he with
  | inl hK => exact h.all e hK
  | inr hnew => exact hL e hnew

/-- A message under the node's own UUID. -/
lemma Kept.handle_self (h : Kept m P K msg node) {uuid : U64 × U64} (hself : FromSelf uuid msg) :
    ∃ msg', (∀ k, netHandleMsg t m uuid k msg node = .ok (true, msg', node))
      ∧ Kept m P K msg' node := by
  obtain ⟨p, l, hbytes, hown⟩ := hself
  have hbuf := h.buffer
  have hge := t.bufSize_ge
  obtain ⟨base, bytes⟩ := msg
  dsimp only at hbytes
  subst hbytes
  have hsize : (⟨base, p.hdr t.endian ++ l⟩ : Block).size
    = (⟨base, p.hdr .be ++ l⟩ : Block).size := by
    simp
  have hroom : base + 24 < 2 ^ t.bits := by
    have hlt := hbuf.room
    rw [hbuf.size] at hlt
    dsimp only at hlt
    omega
  refine ⟨⟨base, p.hdr t.endian ++ l⟩, netHandleMsg_self l hroom hown, { h with buffer := ?_ }⟩
  exact ⟨hsize.trans hbuf.size, hbuf.dvd, by rw [hsize]; exact hbuf.room⟩

/-- The packet of another node, for which there is room. -/
lemma Kept.handle_packet (h : Kept m P K msg node) (hP : ∀ e, P e → e.Sound) {d : List Byte}
    {p : Packet}
    {uuid : U64 × U64} {tail : List Byte} (hmsg : Receives t msg p tail) (hp : Framed t d p)
    (hother : p.uuid ≠ uuid) (hL : NewAre P K p.entries) (hroom : Room m K p.entries)
    (hsrc : node.sourceNode = none) :
    ∃ node', Settles (fun k => netHandleMsg t m uuid k msg node) (.ok (false,
        ⟨msg.base, p.hdr t.endian ++ (listBytes t.endian p.version p.entries ++ tail)⟩, node'))
      ∧ Kept m P (mergeNew uuidOf K p.entries)
        ⟨msg.base, p.hdr t.endian ++ (listBytes t.endian p.version p.entries ++ tail)⟩ node' := by
  have hm : Mergeable m K p.entries := ⟨h.nonempty, fun e he => hP e (hL e he), hroom⟩
  obtain ⟨node', hok, hholds, -⟩ := netHandleMsg_other hmsg hother h.list
    (hp.laid_msg h.buffer) hm hsrc
  refine ⟨node', hok, hmsg.buffer_of _ _, hholds, mergeNew_ne_nil h.nonempty, nodup_mergeNew h.nodup,
    hroom.limit, h.all_mergeNew hL⟩

/-- The packet of another node, for which there is no room. -/
lemma Kept.handle_full (h : Kept m P K msg node) (hP : ∀ e, P e → e.Sound) {d : List Byte}
    {p : Packet}
    {uuid : U64 × U64} {tail : List Byte} (hmsg : Receives t msg p tail) (hp : Framed t d p)
    (hother : p.uuid ≠ uuid) (hL : NewAre P K p.entries) (hroom : ¬ Room m K p.entries)
    (hsrc : node.sourceNode = none) :
    ∃ x, x ≠ .outOfFuel ∧ Settles (fun k => netHandleMsg t m uuid k msg node) (.error x) := by
  have hcarries := hmsg.carries t.endian .be
  have hlaid : Laid ((msgNodeList (BitVec.ofNat t.bits msg.base)).toNat + 8) p.entries := by
    have hnl := hcarries.toNat_nl
    dsimp only at hnl
    rw [hnl]
    exact hp.laid_msg h.buffer
  obtain ⟨x, hx, hhalt⟩ := nodeCheckForNewNodes_full h.list hcarries.frame hlaid h.nonempty
    (fun e he => hP e (hL e he)) h.limit hroom hsrc
  exact ⟨x, hx, netHandleMsg_halt hmsg hother hhalt⟩

/-- A message that meets the condition is handled, and the list is kept, or the node halts. -/
lemma Kept.handle (h : Kept m P K msg node) (hP : ∀ e, P e → e.Sound) {d : List Byte}
    {uuid : U64 × U64} (ht : Taken t d msg) (hg : Meets t uuid (NewAre P) node.nodeList d msg)
    (hsrc : node.sourceNode = none) :
    (∃ r K', Settles (fun k => netHandleMsg t m uuid k msg node) (.ok r) ∧ Kept m P K' r.2.1 r.2.2)
      ∨ ∃ x, x ≠ .outOfFuel ∧ Settles (fun k => netHandleMsg t m uuid k msg node) (.error x) := by
  have hself : FromSelf uuid msg →
      ∃ r K', Settles (fun k => netHandleMsg t m uuid k msg node) (.ok r)
        ∧ Kept m P K' r.2.1 r.2.2 := by
    intro hself
    obtain ⟨msg', hok, hkept⟩ := h.handle_self (t := t) hself
    exact ⟨(true, msg', node), K, ⟨0, fun k _ => hok k⟩, hkept⟩
  rcases hg with hown | ⟨p, hp, hL⟩
  · exact .inl (hself hown)
  · obtain ⟨tail, hmsg⟩ := ht.receives hp
    by_cases hown : p.uuid = uuid
    · exact .inl (hself ⟨p, _, by rw [hmsg.bytes, Packet.bytes, List.append_assoc], hown⟩)
    by_cases hroom : Room m K p.entries
    · obtain ⟨node', hok, hkept⟩ := h.handle_packet hP hmsg hp hown (hL _ K h.list) hroom hsrc
      exact .inl ⟨_, _, hok, hkept⟩
    · exact .inr (h.handle_full hP hmsg hp hown (hL _ K h.list) hroom hsrc)

/-- A node after its start. -/
lemma Kept.start (hm : Served t m) (hi : P i.entry) {st : NetState t.bits}
    (h : netStart t m i.toLocalFields = .ok st) : Kept m P [i.entry] st.msg st.node := by
  obtain ⟨st', hst, hbuf, hlist, -⟩ := netStart_spec hm i
  obtain rfl : st = st' := Except.ok.inj (h.symm.trans hst)
  have hlim := hm.list
  have hfits : i.entry.length ≤ 4096 := i.fits
  refine ⟨hbuf, hlist, by simp, by simp, ?_, fun e he => List.mem_singleton.mp he ▸ hi⟩
  rw [total_cons, total_nil]
  omega

/-- A send leaves the list alone, if the node outlives it. -/
lemma Kept.send (hm : Served t m) (h : Kept m P K msg node) {uuid : U64 × U64} {env : Env}
    {msg' : Block} {node' : NodeState t.bits} {sent : List Sent}
    (hs : Settles (fun k => netSend t m uuid env k msg node) (.ok (msg', node', sent))) :
    Kept m P K msg' node' := by
  by_cases hcap : Sendable t K
  · obtain ⟨msg'', hrecv, hsend⟩ := netSend_spec uuid env h.buffer h.list hcap hm.table
      (Nat.lt_succ_self _)
    have hsame := hs.unique ((netSend_steady t m uuid env msg node).settles hsend (by simp))
    obtain ⟨rfl, rfl, -⟩ : msg' = msg'' ∧ node' = { node with allocs := node.allocs + 1 }
        ∧ sent = _ := by simpa using hsame
    exact { h with buffer := hrecv.buffer, list := h.list }
  · have hsame := hs.unique (netSend_overflow uuid env h.buffer h.list hm.table hcap)
    simp at hsame

/-- A round keeps the list, if the node outlives it. -/
lemma Kept.round (h : ∀ e, P e → e.Sound) {uuid : U64 × U64} {env : Env} {s : RecvState t.bits}
    (hs : Kept m P K s.msg s.node)
    (hg : ∀ src d msg bcast mcast, Takes t env s src d msg bcast mcast →
      Meets t uuid (NewAre P) s.node.nodeList d msg) :
    (∃ r K', Settles (fun k => recvStep t m uuid env k s) (.ok r)
        ∧ Kept m P K' (roundState r).msg (roundState r).node)
      ∨ ∃ x, x ≠ .outOfFuel ∧ Settles (fun k => recvStep t m uuid env k s) (.error x) := by
  rcases recvStep_rest m uuid env hs.buffer with ⟨src, d, msg, q, q', htakes⟩ |
    ⟨s', hend, hbuf, hlist⟩
  · have htaken := htakes.taken hs.buffer
    have hkept : Kept m P K msg { s.node with source := src, sourceNode := none } :=
      { hs with buffer := htaken.buffer, list := hs.list }
    rcases hkept.handle h htaken (hg _ _ _ _ _ htakes) rfl with ⟨r, K', hok, hr⟩ | ⟨x, hx, hhalt⟩
    · refine .inl ⟨roundEnd q q' r, K', (hok.map _).congr fun k => htakes.recvStep k, ?_⟩
      rw [roundEnd]
      split_ifs
      · exact hr
      · exact hr
    · exact .inr ⟨x, hx, (hhalt.map _).congr fun k => htakes.recvStep k⟩
  · exact .inl ⟨.inr s', K, ⟨0, fun k _ => hend k⟩,
      { hs with buffer := hbuf, list := hlist ▸ hs.list }⟩

/-- What holds after every run whose messages meet the condition. -/
lemma Reached.kept (hm : Served t m) (hP : ∀ e, P e → e.Sound) (hi : P i.entry)
    (h : Reached t m i (Meets t i.uuid (NewAre P)) msg node) : ∃ K, Kept m P K msg node := by
  induction h with
  | start st start => exact ⟨_, Kept.start hm hi start⟩
  | receive env s r _ good round ih =>
      obtain ⟨K, hK⟩ := ih
      rcases hK.round hP good with ⟨r', K', hok, hr⟩ | ⟨x, -, hhalt⟩
      · obtain rfl : r = r' := Except.ok.inj (round.unique hok)
        exact ⟨K', hr⟩
      · exact absurd (round.unique hhalt) (by simp)
  | send env msg msg' node node' sent _ sends ih =>
      obtain ⟨K, hK⟩ := ih
      exact ⟨K, hK.send hm sends⟩

end

/-! ### A single datagram -/

section

variable {t : Target} {m : Malloc t.bits} {env : Env} {msg msg' : Block} {node : NodeState t.bits}
  {d d' : List Byte} {errno : Errno} {src : DiscoverySrc} {bcast mcast : List Arrival}

/-- A state in which one datagram has arrived by broadcast. -/
abbrev arrived {w : ℕ} (msg : Block) (node : NodeState w) (d : List Byte) : RecvState w :=
  ⟨msg, node, [.datagram d .again], []⟩

/-- Nothing but this datagram can be taken for a message. -/
lemma Takes.eq_datagram (h : Takes t env (arrived msg node d) src d' msg' bcast mcast) : d' = d := by
  cases h with
  | bcast pre _ errno' _ _ queue _ =>
      cases pre with
      | nil =>
          obtain ⟨⟨rfl, -⟩, -⟩ : (d = d' ∧ Errno.again = errno') ∧ [] = bcast := by simpa using queue
          rfl
      | cons a pre => simp at queue
  | mcast _ _ _ _ _ _ _ _ _ _ queue _ => simp at queue

/-- A datagram that passes the checks is taken. -/
lemma takes_shows (node : NodeState t.bits) (hm : Buffer t msg) (hne : d.take t.bufSize ≠ [])
    (hs : Shows t.bits (overlay (d.take t.bufSize) msg.bytes) (d.take t.bufSize).length) (bs : ℕ → Bool)
    (ms : Bool) :
    Takes t (sockEnv 1 bs ms) (arrived msg node d) .broadcast d
      ⟨msg.base, overlay (d.take t.bufSize) msg.bytes⟩ [] [] := by
  have hcheck := @bcast_datagram t msg d .again hm sockPoll 0 rfl
  rw [verdict, if_neg hne, if_pos hs] at hcheck
  exact .bcast [] d .again _ [] rfl hcheck

/-- A well-formed datagram is taken. -/
lemma takes_valid (node : NodeState t.bits) (hm : Buffer t msg) (hv : Valid t d) (bs : ℕ → Bool)
    (ms : Bool) :
    Takes t (sockEnv 1 bs ms) (arrived msg node d) .broadcast d
      ⟨msg.base, overlay (d.take t.bufSize) msg.bytes⟩ [] [] := by
  have hne : d.take t.bufSize ≠ [] := by
    intro h
    have h32 := hv.1
    rw [h, List.length_nil] at h32
    omega
  exact takes_shows node hm hne ((shows_iff_valid hv.1).mpr hv) bs ms

/-- A packet for which there is room is taken in. -/
lemma Kept.round_packet {P : Entry → Prop} {K : List Entry} (h : Kept m P K msg node)
    (hP : ∀ e, P e → e.Sound) {p : Packet} {uuid : U64 × U64} (hfit : p.Fits t)
      (hother : p.uuid ≠ uuid)
    (hp : ∀ e ∈ p.entries, P e) (hroom : Room m K p.entries) (bs : ℕ → Bool) (ms : Bool) :
    ∃ s', Settles (fun k => recvStep t m uuid (sockEnv 1 bs ms) k (arrived msg node p.bytes))
      (.ok (.inl s'))
      ∧ Kept m P (mergeNew uuidOf K p.entries) s'.msg s'.node := by
  have hbytes := Packet.take_bytes hfit
  have htakes := takes_valid node h.buffer (Packet.valid hfit) bs ms
  have htaken := htakes.taken h.buffer
  have hframed : Framed t p.bytes p :=
    ⟨hbytes, Laid.of_sound (fun e he => hP e (hp e he)) (by norm_num [sizeofBcastMsg])⟩
  obtain ⟨tail, hmsg⟩ := htaken.receives hframed
  have hkept : Kept m P K _ { node with source := .broadcast, sourceNode := none } :=
    { h with buffer := htaken.buffer, list := h.list }
  obtain ⟨node', hok, hkept'⟩ := hkept.handle_packet hP hmsg hframed hother
    (fun e he => hp e (fresh_sublist.subset he)) hroom rfl
  exact ⟨_, (hok.map _).congr fun k => htakes.recvStep k, hkept'⟩

end

end EverythingNet
