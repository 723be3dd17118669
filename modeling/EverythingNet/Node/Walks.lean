import Mathlib.Tactic
import EverythingNet.Node.Discover

/-!
`app/node.c`: the two ways in which the code goes through a node list.

* `addressTest`, `offsetTest`: the conditions of its loops, one on the address of an entry, the other
  on its offset. `walkStep`: going from entry to entry under one of them.
* `visits_walk`: a loop under one of the conditions comes to the entries of that walk, as far as it
  goes on. `knownStep_walk`, `lastStep_walk`, `entryPtrsStep_walk` and `checkStep_walk` are the loops of
  `NODE_MaybeAddEntry`, `NODE_ListToBE` and `NODE_CheckForNewNodes`.
* `Starts`: the addresses at which the sizes in a list say that entries start.
* `walks_agree_iff`: the two walks come to the same entries just if neither the bound nor one of these
  addresses wraps.
-/

namespace EverythingNet

open CMem

variable {w : ℕ}

/-! ### The walks -/

/-- `(uintptr_t)e < (uintptr_t)nl->entries + (nl->len - sizeof(nodeList_t))` -/
def addressTest (E : Endian) (b : Block) (nl e : BitVec w) : Except Halt Bool := do
  return decide (e < nlEntries nl + (← nlBody E b nl))

/-- `(uintptr_t)e - (uintptr_t)nl->entries < nl->len - sizeof(nodeList_t)` -/
def offsetTest (E : Endian) (b : Block) (nl e : BitVec w) : Except Halt Bool := do
  return decide (e - nlEntries nl < (← nlBody E b nl))

/-- A round of a walk from entry to entry. -/
def walkStep (test : BitVec w → Except Halt Bool) (E : Endian) (b : Block) (e : BitVec w) :
    Except Halt (BitVec w ⊕ Unit) := do
  if ← test e then return .inl (← entryNext E b e) else return .inr ()

/-- The entries that `n` rounds of the address-bounded walk come to, from `e` on. -/
def addressWalk (E : Endian) (b : Block) (nl : BitVec w) (n : ℕ) (e : BitVec w) : List (BitVec w) :=
  visits (walkStep (addressTest E b nl) E b) n e

/-- The entries that `n` rounds of the offset-bounded walk come to, from `e` on. -/
def offsetWalk (E : Endian) (b : Block) (nl : BitVec w) (n : ℕ) (e : BitVec w) : List (BitVec w) :=
  visits (walkStep (offsetTest E b nl) E b) n e

/-! ### The loops of the code -/

section

variable {σ ρ : Type} {E : Endian} {b : Block} {nl : BitVec w} {test : BitVec w → Except Halt Bool}

lemma walkStep_true {e e' : BitVec w} (ht : test e = .ok true) (hn : entryNext E b e = .ok e') :
    walkStep test E b e = .ok (.inl e') := by
  rw [walkStep, ht, ok_bind, if_pos rfl, hn]
  rfl

lemma walkStep_false {e : BitVec w} (ht : test e = .ok false) :
    walkStep test E b e = .ok (.inr ()) := by
  rw [walkStep, ht]
  rfl

lemma walkStep_halt {e : BitVec w} {h : Halt} (ht : test e = .ok true)
    (hn : entryNext E b e = .error h) : walkStep test E b e = .error h := by
  rw [walkStep, ht, ok_bind, if_pos rfl, hn]
  rfl

/-- A walk that is still in the list comes to its next entry. -/
lemma walk_entered {e : BitVec w} (ht : test e = .ok true) (n : ℕ) :
    ∃ l, visits (walkStep test E b) (n + 1) e = e :: l := by
  refine visits_entered (fun r hr => ?_) n
  rw [walkStep, ht, ok_bind, if_pos rfl] at hr
  obtain ⟨e', -, hr⟩ := bind_eq_ok.mp hr
  simp at hr

/-- Where two tests say the same the walks go the same way. -/
lemma walk_congr {test' : BitVec w → Except Halt Bool} {e : BitVec w} {c : Bool} {n : ℕ}
    (ht : test e = .ok c) (ht' : test' e = .ok c)
    (hnext : c = true → ∀ e', entryNext E b e = .ok e' →
      visits (walkStep test E b) n e' = visits (walkStep test' E b) n e') :
    visits (walkStep test E b) (n + 1) e = visits (walkStep test' E b) (n + 1) e := by
  cases c with
  | false => rw [visits_inr (walkStep_false ht), visits_inr (walkStep_false ht')]
  | true =>
      cases hn : entryNext E b e with
      | error h => rw [visits_error (walkStep_halt ht hn), visits_error (walkStep_halt ht' hn)]
      | ok e' =>
          rw [visits_inl (walkStep_true ht hn), visits_inl (walkStep_true ht' hn), hnext rfl e' hn]

/-- A loop that begins its rounds with the test, and goes on with the next entry if it goes on. -/
lemma visits_walk {f : σ → BitVec w} {step : σ → Except Halt (σ ⊕ ρ)}
    (body : σ → Except Halt (σ ⊕ ρ)) (out : σ → ρ)
    (hstep : ∀ s, step s = test (f s) >>= fun c => if c then body s else .ok (.inr (out s)))
    (hbody : ∀ s s', body s = .ok (.inl s') → entryNext E b (f s) = .ok (f s')) (n : ℕ) (s : σ) :
    (visits step n s).map f <+: visits (walkStep test E b) n (f s) := by
  refine visits_map_prefix (fun s s' hs => ?_) (fun s e hs r hr => ?_) n s
  · rw [hstep] at hs
    obtain ⟨c, hc, hs⟩ := bind_eq_ok.mp hs
    cases c with
    | false => simp at hs
    | true => exact walkStep_true hc (hbody s s' hs)
  · rw [walkStep] at hr
    obtain ⟨c, hc, hr⟩ := bind_eq_ok.mp hr
    cases c with
    | false =>
        rw [hstep, hc] at hs
        simp at hs
    | true =>
        obtain ⟨e', -, hr⟩ := bind_eq_ok.mp hr
        simp at hr

/-- The first loop of `NODE_MaybeAddEntry`. -/
lemma knownStep_walk (msg : Block) (e : BitVec w) (n : ℕ) (q : BitVec w) :
    visits (knownStep E msg b e nl) n q <+: addressWalk E b nl n q := by
  have h := @visits_walk w (BitVec w) Bool E b (addressTest E b nl) id (knownStep E msg b e nl)
    (fun q => do
      if ← sameUuid E msg b e q then return .inr true else return .inl (← entryNext E b q))
    (fun _ => false) ?_ ?_ n q
  · rwa [List.map_id] at h
  · intro q
    rw [knownStep, addressTest]
    cases nlBody E b nl with
    | error h => rfl
    | ok body => simp
  · intro q q' hq
    obtain ⟨same, -, hq⟩ := bind_eq_ok.mp hq
    cases same with
    | true => simp at hq
    | false =>
        obtain ⟨q'', hq'', hq⟩ := bind_eq_ok.mp hq
        obtain rfl : q'' = q' := by simpa using hq
        exact hq''

/-- The second loop of `NODE_MaybeAddEntry`. -/
lemma lastStep_walk (n : ℕ) (s : Option (BitVec w) × BitVec w) :
    (visits (lastStep E b nl) n s).map Prod.snd <+: offsetWalk E b nl n s.2 := by
  refine visits_walk (fun s => do return .inl (some s.2, ← entryNext E b s.2)) Prod.fst ?_ ?_ n s
  · rintro ⟨last, q⟩
    rw [lastStep, offsetTest]
    cases nlBody E b nl with
    | error h => rfl
    | ok body => simp
  · intro s s' hs
    obtain ⟨q', hq', hs⟩ := bind_eq_ok.mp hs
    obtain rfl : (some s.2, q') = s' := by simpa using hs
    exact hq'

/-- The first loop of `NODE_ListToBE`. -/
lemma entryPtrsStep_walk (n : ℕ) (s : BitVec w × List (BitVec w)) :
    (visits (entryPtrsStep b nl) n s).map Prod.fst <+: offsetWalk .le b nl n s.1 := by
  refine visits_walk (fun s => if s.2.length < 512 then do
    return .inl (← entryNext .le b s.1, s.2 ++ [s.1]) else .error .outOfBounds) Prod.snd ?_ ?_ n s
  · rintro ⟨q, ptrs⟩
    rw [entryPtrsStep, offsetTest]
    cases nlBody .le b nl with
    | error h => rfl
    | ok body => simp
  · intro s s' hs
    split_ifs at hs with hlen
    obtain ⟨q', hq', hs⟩ := bind_eq_ok.mp hs
    obtain rfl : (q', s.2 ++ [s.1]) = s' := by simpa using hs
    exact hq'

/-- The loop of `NODE_CheckForNewNodes`. -/
lemma checkStep_walk {t : Target} {m : Malloc t.bits} {fuel : ℕ} {msg : Block} {nl : BitVec t.bits}
    (n : ℕ) (s : NodeState t.bits × BitVec t.bits) :
    (visits (checkStep t m fuel msg nl) n s).map Prod.snd <+: offsetWalk t.endian msg nl n s.2 := by
  refine visits_walk (fun s => do
    let st ← nodeMaybeAddEntry t m fuel msg s.2 s.1
    let e ← entryNext t.endian msg s.2
    return .inl ({ st with source := .otherNode, sourceNode := some (nlEntries nl) }, e))
    Prod.fst ?_ ?_ n s
  · rintro ⟨st, q⟩
    rw [checkStep, offsetTest]
    cases nlBody t.endian msg nl with
    | error h => rfl
    | ok body => simp
  · intro s s' hs
    obtain ⟨st, -, hs⟩ := bind_eq_ok.mp hs
    obtain ⟨q', hq', hs⟩ := bind_eq_ok.mp hs
    obtain rfl : ({ st with source := .otherNode, sourceNode := some (nlEntries nl) }, q') = s' := by
      simpa using hs
    exact hq'

end

/-! ### When the walks agree -/

/-- The addresses at which the sizes in a list with this `len` say that entries start, the address
after the last entry being one of them. -/
inductive Starts (E : Endian) (b : Block) (nl : BitVec w) (len : ℕ) : BitVec w → Prop where
  | first : Starts E b nl len (nlEntries nl)
  | next {e : BitVec w} {size : U16} (start : Starts E b nl len e)
      (inside : e.toNat < nl.toNat + len) (hsize : load16 E b (entrySize e) = .ok size) :
      Starts E b nl len (e + size.setWidth w)

section

variable {E : Endian} {b : Block} {nl e body : BitVec w}

/-- Where the bound does not wrap both tests say whether the entry lies before the end of the list,
as long as it does not lie before its start. -/
lemma address_lt_iff (hbound : (nlEntries nl).toNat + body.toNat < 2 ^ w) :
    e < nlEntries nl + body ↔ e.toNat < (nlEntries nl).toNat + body.toNat := by
  rw [BitVec.lt_def, toNat_add_of_lt hbound]

lemma offset_lt_iff (hle : nlEntries nl ≤ e) :
    e - nlEntries nl < body ↔ e.toNat < (nlEntries nl).toNat + body.toNat := by
  have hle' := BitVec.le_def.mp hle
  rw [BitVec.lt_def, BitVec.toNat_sub_of_le hle]
  omega

/-- Before the start of the list the tests differ. -/
lemma tests_before (hlt : e < nlEntries nl) (hbound : (nlEntries nl).toNat + body.toNat < 2 ^ w) :
    e < nlEntries nl + body ∧ ¬ e - nlEntries nl < body := by
  rw [BitVec.lt_def] at hlt
  rw [BitVec.lt_def, BitVec.lt_def, toNat_add_of_lt hbound, BitVec.toNat_sub,
    Nat.mod_eq_of_lt (by omega)]
  omega

/-- Where the bound wraps they differ at the first entry. -/
lemma tests_wrap (hbound : 2 ^ w ≤ (nlEntries nl).toNat + body.toNat) :
    ¬ nlEntries nl < nlEntries nl + body ∧ nlEntries nl - nlEntries nl < body := by
  have hlt := body.isLt
  have hlt' := (nlEntries nl).isLt
  rw [BitVec.lt_def, BitVec.lt_def, BitVec.toNat_add, BitVec.sub_self, BitVec.toNat_ofNat,
    Nat.zero_mod, Nat.mod_eq_sub_mod hbound, Nat.mod_eq_of_lt (by omega)]
  omega

lemma toNat_entries (hroom : nl.toNat + 8 < 2 ^ w) : (nlEntries nl).toNat = nl.toNat + 8 :=
  toNat_add_ofNat (k := 8) hroom

/-- `nl->len - sizeof(nodeList_t)` where it does not wrap. -/
lemma toNat_body (hw : w = 32 ∨ w = 64) {len : U32} (h8 : 8 ≤ len.toNat) :
    (len.setWidth w - 8).toNat = len.toNat - 8 := by
  have hlen := len.isLt
  rcases hw with rfl | rfl
  all_goals
    simp only [BitVec.ofNat_eq_ofNat, BitVec.toNat_sub, BitVec.toNat_setWidth, BitVec.toNat_ofNat,
      Nat.reducePow, Nat.reduceMod] at *
    omega

/-- The bound wraps if `len` is less than the size of the header, or the list too long. -/
lemma bound_lt_iff (hw : w = 32 ∨ w = 64) {len : U32} (hroom : nl.toNat + 8 < 2 ^ w) :
    (nlEntries nl).toNat + (len.setWidth w - 8).toNat < 2 ^ w ↔
      8 ≤ len.toNat ∧ nl.toNat + len.toNat < 2 ^ w := by
  have hlen := len.isLt
  rw [toNat_entries hroom]
  rcases hw with rfl | rfl
  all_goals
    simp only [BitVec.ofNat_eq_ofNat, BitVec.toNat_sub, BitVec.toNat_setWidth, BitVec.toNat_ofNat,
      Nat.reducePow, Nat.reduceMod] at *
    omega

section

variable {len : U32}

lemma addressTest_eq (hlen : load32 E b (nlLen nl) = .ok len) (e : BitVec w) :
    addressTest E b nl e = .ok (decide (e < nlEntries nl + (len.setWidth w - 8))) :=
  bind_of_ok (show nlBody E b nl = .ok (len.setWidth w - 8) from bind_of_ok hlen _) _

lemma offsetTest_eq (hlen : load32 E b (nlLen nl) = .ok len) (e : BitVec w) :
    offsetTest E b nl e = .ok (decide (e - nlEntries nl < len.setWidth w - 8)) :=
  bind_of_ok (show nlBody E b nl = .ok (len.setWidth w - 8) from bind_of_ok hlen _) _

/-- In a list that does not wrap both tests compare with its end. -/
lemma tests_eq (hw : w = 32 ∨ w = 64) (hlen : load32 E b (nlLen nl) = .ok len)
    (hroom : nl.toNat + 8 < 2 ^ w) (h8 : 8 ≤ len.toNat) (hfit : nl.toNat + len.toNat < 2 ^ w)
    (hle : nlEntries nl ≤ e) :
    addressTest E b nl e = .ok (decide (e.toNat < nl.toNat + len.toNat))
      ∧ offsetTest E b nl e = .ok (decide (e.toNat < nl.toNat + len.toNat)) := by
  have hend : (nlEntries nl).toNat + (len.setWidth w - 8).toNat = nl.toNat + len.toNat := by
    rw [toNat_entries hroom, toNat_body hw h8]
    omega
  rw [addressTest_eq hlen, offsetTest_eq hlen]
  constructor
  · simp only [address_lt_iff ((bound_lt_iff hw hroom).mpr ⟨h8, hfit⟩), hend]
  · simp only [offset_lt_iff hle, hend]

/-- Walks that agree come from tests that do. -/
lemma tests_of_agree {x y : Bool} (hx : addressTest E b nl e = .ok x) (hy : offsetTest E b nl e = .ok y)
    (hagree : ∀ n, addressWalk E b nl n e = offsetWalk E b nl n e) : x = y := by
  have h1 := hagree 1
  rw [addressWalk, offsetWalk] at h1
  cases x with
  | true =>
      cases y with
      | true => rfl
      | false =>
          obtain ⟨l, hl⟩ := walk_entered (E := E) (b := b) hx 0
          rw [hl, visits_inr (walkStep_false hy)] at h1
          simp at h1
  | false =>
      cases y with
      | true =>
          obtain ⟨l, hl⟩ := walk_entered (E := E) (b := b) hy 0
          rw [hl, visits_inr (walkStep_false hx)] at h1
          simp at h1
      | false => rfl

/-- Walks that agree agree from the next entry on. -/
lemma agree_next {e' : BitVec w} (hx : addressTest E b nl e = .ok true)
    (hy : offsetTest E b nl e = .ok true) (hnext : entryNext E b e = .ok e')
    (hagree : ∀ n, addressWalk E b nl n e = offsetWalk E b nl n e) (n : ℕ) :
    addressWalk E b nl n e' = offsetWalk E b nl n e' := by
  have hn := hagree (n + 1)
  rw [addressWalk, offsetWalk, visits_inl (walkStep_true hx hnext),
    visits_inl (walkStep_true hy hnext), List.cons.injEq] at hn
  exact hn.2

/-- Walks that agree never come before the start of the list. -/
lemma starts_of_agree (hw : w = 32 ∨ w = 64) (hlen : load32 E b (nlLen nl) = .ok len)
    (hroom : nl.toNat + 8 < 2 ^ w) (h8 : 8 ≤ len.toNat) (hfit : nl.toNat + len.toNat < 2 ^ w)
    (hagree : ∀ n, addressWalk E b nl n (nlEntries nl) = offsetWalk E b nl n (nlEntries nl))
    (he : Starts E b nl len.toNat e) :
    nlEntries nl ≤ e ∧ ∀ n, addressWalk E b nl n e = offsetWalk E b nl n e := by
  induction he with
  | first => exact ⟨BitVec.le_refl _, hagree⟩
  | @next e size _ hin hsize ih =>
      obtain ⟨hle, hsame⟩ := ih
      obtain ⟨ha, ho⟩ := tests_eq hw hlen hroom h8 hfit hle
      rw [decide_eq_true hin] at ha ho
      have hnext : entryNext E b e = .ok (e + size.setWidth w) := bind_of_ok hsize _
      have hsame' := agree_next ha ho hnext hsame
      refine ⟨?_, hsame'⟩
      by_contra hlt
      obtain ⟨haddr, hoff⟩ :=
        tests_before (BitVec.not_le.mp hlt) ((bound_lt_iff hw hroom).mpr ⟨h8, hfit⟩)
      have htests := tests_of_agree (addressTest_eq hlen _) (offsetTest_eq hlen _) hsame'
      rw [decide_eq_true haddr, decide_eq_false hoff] at htests
      exact absurd htests (by decide)

/-- Walks whose entries lie behind the start of the list agree. -/
lemma agree_of_starts (hw : w = 32 ∨ w = 64) (hlen : load32 E b (nlLen nl) = .ok len)
    (hroom : nl.toNat + 8 < 2 ^ w) (h8 : 8 ≤ len.toNat) (hfit : nl.toNat + len.toNat < 2 ^ w)
    (hstarts : ∀ e, Starts E b nl len.toNat e → nlEntries nl ≤ e) (n : ℕ)
    (he : Starts E b nl len.toNat e) : addressWalk E b nl n e = offsetWalk E b nl n e := by
  induction n generalizing e with
  | zero => rfl
  | succ n ih =>
      obtain ⟨ha, ho⟩ := tests_eq hw hlen hroom h8 hfit (hstarts e he)
      refine walk_congr ha ho fun hin e' hnext => ?_
      obtain ⟨size, hsize, hnext⟩ := bind_eq_ok.mp hnext
      obtain rfl := Except.ok.inj hnext
      exact ih (he.next (of_decide_eq_true hin) hsize)

/-- The walks agree just if neither the end of the list nor an address at which an entry starts wraps. -/
lemma walks_agree_iff (hw : w = 32 ∨ w = 64) (hlen : load32 E b (nlLen nl) = .ok len)
    (hroom : nl.toNat + 8 < 2 ^ w) :
    (∀ n, addressWalk E b nl n (nlEntries nl) = offsetWalk E b nl n (nlEntries nl)) ↔
      8 ≤ len.toNat ∧ nl.toNat + len.toNat < 2 ^ w
        ∧ ∀ e, Starts E b nl len.toNat e → nlEntries nl ≤ e := by
  constructor
  · intro hagree
    have htests := tests_of_agree (addressTest_eq hlen _) (offsetTest_eq hlen _) hagree
    have hbound : (nlEntries nl).toNat + (len.setWidth w - 8).toNat < 2 ^ w := by
      by_contra hwrap
      obtain ⟨haddr, hoff⟩ := tests_wrap (not_lt.mp hwrap)
      rw [decide_eq_false haddr, decide_eq_true hoff] at htests
      exact absurd htests (by decide)
    obtain ⟨h8, hfit⟩ := (bound_lt_iff hw hroom).mp hbound
    exact ⟨h8, hfit, fun e he => (starts_of_agree hw hlen hroom h8 hfit hagree he).1⟩
  · rintro ⟨h8, hfit, hstarts⟩ n
    exact agree_of_starts hw hlen hroom h8 hfit hstarts n .first

end

end

end EverythingNet
