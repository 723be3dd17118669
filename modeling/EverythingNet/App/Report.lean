import Mathlib.Tactic
import EverythingNet.App.Loop
import EverythingNet.App.Console

/-!
What is printed about new nodes: the end of `NODE_MaybeAddEntry` in `app/node.c`.

* `sayNewNode`, `sayNewNode_iff`: the line about a new node has its report in it, as `reportText`
  writes it.
* `transcript`: the lines about some reports. `transcript_inj`: reports whose names have neither a
  line feed nor a bracket in them are read off their lines, `transcript_imitated` that others are not.
* `nodeCheckForNewNodesOut`: `NODE_CheckForNewNodes` with what it prints. `checkForNewNodes_prints`:
  it prints the lines of the reports that it adds.
-/

namespace EverythingNet

open CMem Numeral Printf KeyedLog

/-! ### The line about a new node -/

/-- The memory from an address on. -/
def cellsAt (b : Block) (a : ℕ) : Cells :=
  if b.base ≤ a then stored (b.bytes.drop (a - b.base)) else []

/-- `NODE_DiscoverySourceNode`, if it is another node that has told of this one. -/
def toldBy {w : ℕ} (st : NodeState w) : Option (BitVec w) :=
  match st.source, st.sourceNode with
  | .otherNode, some q => some q
  | _, _ => none

section

variable {w : ℕ} (D : DataModel) (R : Reals)

/-- What is printed about the node that has told of this one. -/
def sayToldBy (format : String) (msg : Block) (st : NodeState w) : Except Halt (List Byte) :=
  match toldBy st with
  | some q => say D R format [.str (some (cellsAt msg (entryNodeName q).toNat))]
  | none => .ok []

/-- What `NODE_MaybeAddEntry` prints about a new node. -/
def sayNewNode (msg : Block) (e : BitVec w) (st : NodeState w) : Except Halt (List Byte) := do
  let node ← say D R "Found new node: %s" [.str (some (cellsAt msg (entryNodeName e).toNat))]
  let source ← say D R " [discovery source: %s"
    [.str (some (literal (discoverySrcToStr st.source)))]
  let other ← sayToldBy D R ", discovered by node: %s" msg st
  let close ← puts (literal "]")
  return node ++ source ++ other ++ close

end

/-- The node that told of a new one, as it is printed. -/
def otherText (label close : String) : Option (List Byte) → List Byte
  | none => []
  | some s => chars label ++ s ++ chars close

/-- The line about a new node. -/
def reportText (f : Found) : List Byte :=
  chars "Found new node: " ++ f.name ++ (chars " [discovery source: " ++ chars f.source)
    ++ otherText ", discovered by node: " "" f.discoveredBy ++ chars "]\r\n"

section

variable {w : ℕ} {D : DataModel} {R : Reals}

/-- The string at an address is what a reader finds there. -/
lemma strOf_cellsAt {b : Block} {a : ℕ} {s : List Byte} :
    strOf (some (cellsAt b a)) = .ok s ↔ b.cstr a = .ok s := by
  constructor
  · intro h
    obtain ⟨hs, x, hx⟩ := strText_eq_ok h
    rw [cellsAt] at hx
    split_ifs at hx with hle
    · obtain ⟨s', hs', hx'⟩ : ∃ l, b.bytes.drop (a - b.base) = s ++ 0 :: l ∧ stored l = x := by
        obtain ⟨l₁, l₂, hl, h₁, h₂⟩ := List.map_eq_append_iff.mp hx
        obtain rfl : l₁ = s := List.map_injective_iff.mpr (Option.some_injective _) h₁
        obtain ⟨c, l, rfl, hc, hl'⟩ := List.map_eq_cons_iff.mp h₂
        exact ⟨l, by rw [hl, Option.some.inj hc], hl'⟩
      have hhas : b.Has a (s ++ [0]) := by
        refine ⟨b.bytes.take (a - b.base), s', ?_, ?_⟩
        · conv_lhs => rw [← List.take_append_drop (a - b.base) b.bytes]
          rw [hs']
          simp
        · have hlen := congrArg List.length hs'
          simp only [List.length_drop, List.length_append, List.length_cons] at hlen
          rw [List.length_take]
          omega
      exact hhas.cstr hs
    · exact absurd hx (by simp)
  · intro h
    obtain ⟨n, hn, hload⟩ := bind_eq_ok.mp h
    obtain ⟨s', hs', -, hhas⟩ := Block.strlen_ok hn
    obtain rfl : s' = s := Except.ok.inj ((hhas.cstr hs').symm.trans h)
    obtain ⟨pre, post, hbytes, rfl⟩ := hhas
    have hdrop : b.bytes.drop (b.base + pre.length - b.base) = s' ++ 0 :: post := by
      rw [hbytes, Nat.add_sub_cancel_left, List.append_assoc, List.drop_left]
      simp
    rw [strOf, cellsAt, if_pos (by omega), hdrop, stored_append]
    exact strText_stored hs'

lemma verbatim_discoverySrc (src : DiscoverySrc) : Verbatim (chars (discoverySrcToStr src)) := by
  cases src <;> decide

/-- A string behind a text. -/
lemma say_behind {label format : String} (hlabel : Verbatim (chars label))
    (hformat : chars format = chars label ++ (chars "%s" ++ [])) (p : Option Cells) (t : List Byte) :
    say D R format [.str p] = .ok t ↔ ∃ s, strOf p = .ok s ∧ t = chars label ++ s := by
  have hnil : Verbatim [] := by decide
  simpa using say_str hlabel hnil hformat p t

lemma discoveredBy_eq (msg : Block) (st : NodeState w) : discoveredBy msg st
    = (toldBy st).elim (.ok none) fun q => some <$> msg.cstr (entryNodeName q).toNat := by
  have hmap : ∀ x : Except Halt (List Byte), (do return some (← x)) = some <$> x := by
    intro x
    cases x <;> rfl
  rw [discoveredBy, toldBy]
  cases st.source with
  | otherNode =>
      cases st.sourceNode with
      | some q => exact hmap _
      | none => rfl
  | unset => rfl
  | broadcast => rfl
  | multicast => rfl

/-- What is printed about the node that has told of this one is its name. -/
lemma sayToldBy_iff (label close : String) {format : String} (hlabel : Verbatim (chars label))
    (hclose : Verbatim (chars close))
    (hformat : chars format = chars label ++ (chars "%s" ++ chars close)) (msg : Block)
    (st : NodeState w) (t : List Byte) :
    sayToldBy D R format msg st = .ok t
      ↔ ∃ other, discoveredBy msg st = .ok other ∧ t = otherText label close other := by
  rw [sayToldBy, discoveredBy_eq]
  cases toldBy st with
  | none => simp [otherText, eq_comm]
  | some q =>
      dsimp only [Option.elim]
      rw [say_str hlabel hclose hformat]
      constructor
      · rintro ⟨s, hs, rfl⟩
        exact ⟨some s, by rw [strOf_cellsAt.mp hs]; rfl, rfl⟩
      · rintro ⟨other, h, rfl⟩
        obtain ⟨s, hs, rfl⟩ := except_map_eq_ok.mp h
        exact ⟨s, strOf_cellsAt.mpr hs, rfl⟩

/-- The line about a new node has its report in it. -/
lemma sayNewNode_iff (msg : Block) (e : BitVec w) (st : NodeState w) (t : List Byte) :
    sayNewNode D R msg e st = .ok t
      ↔ ∃ name other, msg.cstr (entryNodeName e).toNat = .ok name ∧ discoveredBy msg st = .ok other
        ∧ t = reportText ⟨name, discoverySrcToStr st.source, other⟩ := by
  have hnode : ∀ p t, say D R "Found new node: %s" [.str p] = .ok t
      ↔ ∃ s, strOf p = .ok s ∧ t = chars "Found new node: " ++ s := say_behind (by decide) (by decide)
  have hsource : say D R " [discovery source: %s" [.str (some (literal (discoverySrcToStr st.source)))]
      = .ok (chars " [discovery source: " ++ chars (discoverySrcToStr st.source)) :=
    (say_behind (by decide) (by decide) _ _).mpr
      ⟨_, strOf_literal (verbatim_discoverySrc st.source), rfl⟩
  have hclose : puts (literal "]") = .ok (chars "]\r\n") := by
    rw [puts, literal, strText_stored (by decide)]
    rfl
  have hother : ∀ t, sayToldBy D R ", discovered by node: %s" msg st = .ok t
      ↔ ∃ other, discoveredBy msg st = .ok other
        ∧ t = otherText ", discovered by node: " "" other :=
    sayToldBy_iff _ _ (by decide) (by decide) (by decide) msg st
  rw [sayNewNode]
  constructor
  · intro h
    obtain ⟨t₁, h₁, h⟩ := bind_eq_ok.mp h
    obtain ⟨name, hname, rfl⟩ := (hnode _ _).mp h₁
    rw [hsource, ok_bind] at h
    obtain ⟨t₂, h₂, h⟩ := bind_eq_ok.mp h
    obtain ⟨other, hby, rfl⟩ := (hother _).mp h₂
    rw [hclose, ok_bind] at h
    exact ⟨name, other, strOf_cellsAt.mp hname, hby, (Except.ok.inj h).symm⟩
  · rintro ⟨name, other, hname, hby, rfl⟩
    rw [(hnode _ _).mpr ⟨name, strOf_cellsAt.mpr hname, rfl⟩, ok_bind, hsource, ok_bind,
      (hother _).mpr ⟨other, hby, rfl⟩, ok_bind, hclose]
    rfl

/-- `NODE_MaybeAddEntry` leaves everything as it is, or adds a report, whose line is what is printed. -/
lemma nodeMaybeAddEntry_says {t : Target} {m : Malloc t.bits} {fuel : ℕ} {msg : Block}
    {e : BitVec t.bits} {st st' : NodeState t.bits}
    (h : nodeMaybeAddEntry t m fuel msg e st = .ok st') :
    st' = st ∨ ∃ f, st'.found = st.found ++ [f] ∧ st'.allocs = st.allocs + 1
      ∧ sayNewNode D R msg e st = .ok (reportText f) := by
  rw [nodeMaybeAddEntry] at h
  obtain ⟨known, -, h⟩ := bind_eq_ok.mp h
  cases known with
  | true => exact Or.inl (Except.ok.inj h).symm
  | false =>
      right
      obtain ⟨last, -, h⟩ := bind_eq_ok.mp h
      cases last with
      | none => simp at h
      | some lastEntry =>
          obtain ⟨size, -, h⟩ := bind_eq_ok.mp h
          obtain ⟨len, -, h⟩ := bind_eq_ok.mp h
          obtain ⟨b, -, h⟩ := bind_eq_ok.mp h
          dsimp only at h
          split at h
          · simp at h
          · obtain ⟨next, -, h⟩ := bind_eq_ok.mp h
            obtain ⟨l, -, h⟩ := bind_eq_ok.mp h
            obtain ⟨b', -, h⟩ := bind_eq_ok.mp h
            obtain ⟨name, hname, h⟩ := bind_eq_ok.mp h
            obtain ⟨other, hother, h⟩ := bind_eq_ok.mp h
            obtain rfl := Except.ok.inj h
            exact ⟨_, rfl, rfl, (sayNewNode_iff msg e st _).mpr ⟨name, other, hname, hother, rfl⟩⟩

end

/-! ### What many lines tell -/

/-- The lines about some reports. -/
def transcript (fs : List Found) : List Byte := fs.flatMap reportText

/-- A name that is told apart from the text around it. -/
def PlainName (s : List Byte) : Prop := ch '\n' ∉ s ∧ ch '[' ∉ s

instance (s : List Byte) : Decidable (PlainName s) := inferInstanceAs (Decidable (_ ∧ _))

/-- A report with such names, and a source that there is. -/
structure PlainReport (f : Found) : Prop where
  name : PlainName f.name
  source : ∃ src, f.source = discoverySrcToStr src
  other : ∀ s, f.discoveredBy = some s → PlainName s

/-- A separator that is on neither side splits a list in one way. -/
lemma append_sep_inj {α : Type} {c : α} {s s' t t' : List α} (hs : c ∉ s) (hs' : c ∉ s')
    (h : s ++ c :: t = s' ++ c :: t') : s = s' ∧ t = t' := by
  induction s generalizing s' with
  | nil =>
      cases s' with
      | nil => exact ⟨rfl, (List.cons.inj h).2⟩
      | cons a s' =>
          obtain ⟨rfl, -⟩ := List.cons.inj h
          exact absurd (List.mem_cons_self ..) hs'
  | cons a s ih =>
      cases s' with
      | nil =>
          obtain ⟨rfl, -⟩ := List.cons.inj h
          exact absurd (List.mem_cons_self ..) hs
      | cons a' s' =>
          rw [List.mem_cons, not_or] at hs hs'
          obtain ⟨rfl, htail⟩ := List.cons.inj h
          obtain ⟨rfl, rfl⟩ := ih hs.2 hs'.2 htail
          exact ⟨rfl, rfl⟩

lemma discoverySrcToStr_inj {src src' : DiscoverySrc}
    (h : chars (discoverySrcToStr src) = chars (discoverySrcToStr src')) :
    discoverySrcToStr src = discoverySrcToStr src' := by
  cases src <;> cases src' <;> first | rfl | exact absurd h (by decide)

/-- The line of a report without its line feed. -/
def reportBody (f : Found) : List Byte :=
  chars "Found new node: " ++ (f.name ++ (chars " [discovery source: " ++ (chars f.source
    ++ (otherText ", discovered by node: " "" f.discoveredBy ++ chars "]\r"))))

lemma reportText_body (f : Found) : reportText f = reportBody f ++ [ch '\n'] := by
  have hend : chars "]\r\n" = chars "]\r" ++ [ch '\n'] := by decide
  rw [reportText, reportBody, hend]
  simp only [List.append_assoc]

lemma PlainReport.body {f : Found} (h : PlainReport f) : ch '\n' ∉ reportBody f := by
  obtain ⟨src, hsrc⟩ := h.source
  have hsource : ch '\n' ∉ chars f.source := by
    rw [hsrc]
    cases src <;> decide
  have hother : ch '\n' ∉ otherText ", discovered by node: " "" f.discoveredBy := by
    cases hby : f.discoveredBy with
    | none => exact List.not_mem_nil
    | some s =>
        rw [otherText, List.mem_append, List.mem_append, not_or, not_or]
        exact ⟨⟨by decide, (h.other s hby).1⟩, by decide⟩
  simp only [reportBody, List.mem_append, not_or]
  exact ⟨by decide, h.name.1, by decide, hsource, hother, by decide⟩

/-- A source ends where the node that told of it, or the end of the line, begins. -/
lemma source_inj {src src' : DiscoverySrc} {other other' : Option (List Byte)}
    (h : chars (discoverySrcToStr src) ++ (otherText ", discovered by node: " "" other ++ chars "]\r")
      = chars (discoverySrcToStr src')
        ++ (otherText ", discovered by node: " "" other' ++ chars "]\r")) :
    discoverySrcToStr src = discoverySrcToStr src' ∧ other = other' := by
  have htake : ∀ src other, (chars (discoverySrcToStr src)
      ++ (otherText ", discovered by node: " "" other ++ chars "]\r")).takeWhile
        (fun c => c ≠ ch ',' ∧ c ≠ ch ']') = chars (discoverySrcToStr src) := by
    intro src other
    have hall : ∀ c ∈ chars (discoverySrcToStr src), decide (c ≠ ch ',' ∧ c ≠ ch ']') = true := by
      cases src <;> decide
    rw [List.takeWhile_append_of_pos hall]
    cases other with
    | none => exact List.append_nil _
    | some s => exact List.append_nil _
  have hsource := congrArg (List.takeWhile fun c => decide (c ≠ ch ',' ∧ c ≠ ch ']')) h
  rw [htake, htake] at hsource
  rw [hsource, List.append_right_inj, List.append_left_inj] at h
  refine ⟨discoverySrcToStr_inj hsource, ?_⟩
  cases other with
  | none =>
      cases other' with
      | none => rfl
      | some s => exact absurd h.symm (by simp [otherText, chars])
  | some s =>
      cases other' with
      | none => exact absurd h (by simp [otherText, chars])
      | some s' =>
          rw [otherText, otherText, List.append_left_inj, List.append_right_inj] at h
          rw [h]

/-- A report with plain names is read off its line. -/
lemma reportBody_inj {f g : Found} (hf : PlainReport f) (hg : PlainReport g)
    (h : reportBody f = reportBody g) : f = g := by
  obtain ⟨name, source, other⟩ := f
  obtain ⟨name', source', other'⟩ := g
  obtain ⟨src, hsrc⟩ := hf.source
  obtain ⟨src', hsrc'⟩ := hg.source
  have hsep : ∀ l : List Byte, chars " [discovery source: " ++ l
      = [ch ' '] ++ ch '[' :: (chars "discovery source: " ++ l) := by
    intro l
    rfl
  have hspace : ∀ {s : List Byte}, PlainName s → ch '[' ∉ s ++ [ch ' '] := by
    intro s hs
    rw [List.mem_append, not_or]
    exact ⟨hs.2, by decide⟩
  dsimp only [reportBody] at h
  rw [List.append_right_inj, hsep, hsep, ← List.append_assoc name, ← List.append_assoc name'] at h
  obtain ⟨hname, hrest⟩ := append_sep_inj (hspace hf.name) (hspace hg.name) h
  dsimp only at hsrc hsrc' hrest hname
  rw [List.append_right_inj, hsrc, hsrc'] at hrest
  obtain ⟨hs, hby⟩ := source_inj hrest
  rw [List.append_left_inj] at hname
  rw [hname, hsrc, hsrc', hs, hby]

/-- Reports with plain names are read off their lines. -/
lemma transcript_inj {fs gs : List Found} (hfs : ∀ f ∈ fs, PlainReport f)
    (hgs : ∀ g ∈ gs, PlainReport g) : transcript fs = transcript gs ↔ fs = gs := by
  have hcons : ∀ f fs, transcript (f :: fs) = reportBody f ++ ch '\n' :: transcript fs := by
    intro f fs
    rw [transcript, List.flatMap_cons, reportText_body, List.append_assoc]
    rfl
  refine ⟨fun h => ?_, fun h => h ▸ rfl⟩
  induction fs generalizing gs with
  | nil =>
      cases gs with
      | nil => rfl
      | cons g gs => exact absurd h.symm (by rw [hcons]; simp [transcript])
  | cons f fs ih =>
      cases gs with
      | nil => exact absurd h (by rw [hcons]; simp [transcript])
      | cons g gs =>
          obtain ⟨hf, hfs⟩ := List.forall_mem_cons.mp hfs
          obtain ⟨hg, hgs⟩ := List.forall_mem_cons.mp hgs
          rw [hcons, hcons] at h
          obtain ⟨hbody, htail⟩ := append_sep_inj hf.body hg.body h
          rw [reportBody_inj hf hg hbody, ih hfs hgs htail]

/-- There is a line for each report. -/
lemma count_transcript {fs : List Found} (hfs : ∀ f ∈ fs, PlainReport f) :
    (transcript fs).count (ch '\n') = fs.length := by
  induction fs with
  | nil => rfl
  | cons f fs ih =>
      obtain ⟨hf, hfs⟩ := List.forall_mem_cons.mp hfs
      have hcount : (reportText f).count (ch '\n') = 1 := by
        rw [reportText_body, List.count_append, List.count_eq_zero_of_not_mem hf.body]
        rfl
      rw [transcript, List.flatMap_cons, List.count_append, hcount, ← transcript, ih hfs,
        List.length_cons]
      omega

/-- Any lines that end with a report about a direct discovery are the line of one node, whose name
has them in it. -/
lemma transcript_imitated (fs : List Found) {f : Found} (hf : f.discoveredBy = none) :
    ∃ name, transcript (fs ++ [f]) = reportText ⟨name, f.source, none⟩ := by
  cases fs with
  | nil => exact ⟨f.name, by rw [← hf]; exact List.append_nil _⟩
  | cons g gs =>
      refine ⟨g.name ++ (chars " [discovery source: " ++ chars g.source)
        ++ otherText ", discovered by node: " "" g.discoveredBy ++ chars "]\r\n" ++ transcript gs
        ++ chars "Found new node: " ++ f.name, ?_⟩
      simp only [transcript, List.cons_append, List.flatMap_cons, List.flatMap_append,
        List.flatMap_nil, List.append_nil, reportText, hf, List.append_assoc]

/-! ### What is printed about a message -/

section

variable (D : DataModel) (R : Reals) (t : Target) (m : Malloc t.bits) (fuel : ℕ)

/-- `NODE_MaybeAddEntry` with its output, which comes last: a line, unless it has returned before. -/
def nodeMaybeAddEntryOut (msg : Block) (e : BitVec t.bits) :
    NodeState t.bits × List Byte → Except Halt (NodeState t.bits × List Byte)
  | (st, out) => do
    let st' ← nodeMaybeAddEntry t m fuel msg e st
    if st'.allocs = st.allocs then
      return (st', out)
    else
      return (st', out ++ (← sayNewNode D R msg e st))

/-- A round of the loop of `NODE_CheckForNewNodes` with its output. -/
def checkStepOut (msg : Block) (nl : BitVec t.bits) :
    (NodeState t.bits × List Byte) × BitVec t.bits → Except Halt
      ((NodeState t.bits × List Byte) × BitVec t.bits ⊕ NodeState t.bits × List Byte)
  | (s, e) => do
    if e - nlEntries nl < (← nlBody t.endian msg nl) then
      let (st, out) ← nodeMaybeAddEntryOut D R t m fuel msg e s
      let e ← entryNext t.endian msg e
      return .inl (({ st with source := .otherNode, sourceNode := some (nlEntries nl) }, out), e)
    else
      return .inr s

/-- `NODE_CheckForNewNodes` with its output. -/
def nodeCheckForNewNodesOut (msg : Block) (st : NodeState t.bits) (out : List Byte) :
    Except Halt (Block × NodeState t.bits × List Byte) := do
  let nl := msgNodeList (BitVec.ofNat t.bits msg.base)
  let msg ← nodeListToNative t.endian fuel msg nl
  let s ← iter (checkStepOut D R t m fuel msg nl) fuel ((st, out), nlEntries nl)
  return (msg, s)

end

/-- The output is ahead by the lines of the reports that have come since. -/
def Tells {w : ℕ} (st : NodeState w) (out : List Byte) (st' : NodeState w) (s : NodeState w × List Byte) :
    Prop :=
  s.1 = st' ∧ ∃ fs, st'.found = st.found ++ fs ∧ s.2 = out ++ transcript fs

section

variable {D : DataModel} {R : Reals} {t : Target} {m : Malloc t.bits} {fuel : ℕ} {msg : Block}

lemma Tells.refl {w : ℕ} (st : NodeState w) (out : List Byte) : Tells st out st (st, out) :=
  ⟨rfl, [], by simp, by simp [transcript]⟩

lemma Tells.trans {w : ℕ} {st₀ st st' : NodeState w} {out₀ out : List Byte}
    {s : NodeState w × List Byte} (h : Tells st₀ out₀ st (st, out)) (h' : Tells st out st' s) :
    Tells st₀ out₀ st' s := by
  obtain ⟨-, fs, hfs, rfl⟩ := h
  obtain ⟨hst, fs', hfs', hout⟩ := h'
  refine ⟨hst, fs ++ fs', by rw [hfs', hfs, List.append_assoc], ?_⟩
  rw [hout, transcript, transcript, transcript, List.flatMap_append, List.append_assoc]

/-- The function with its output does what the function does, and tells the report. -/
lemma nodeMaybeAddEntryOut_iff (e : BitVec t.bits) (st : NodeState t.bits) (out : List Byte)
    (s : NodeState t.bits × List Byte) :
    nodeMaybeAddEntryOut D R t m fuel msg e (st, out) = .ok s
      ↔ ∃ st', nodeMaybeAddEntry t m fuel msg e st = .ok st' ∧ Tells st out st' s := by
  rw [nodeMaybeAddEntryOut]
  constructor
  · intro h
    obtain ⟨st', hadd, h⟩ := bind_eq_ok.mp h
    refine ⟨st', hadd, ?_⟩
    rcases nodeMaybeAddEntry_says (D := D) (R := R) hadd with rfl | ⟨f, hf, hallocs, hsay⟩
    · rw [if_pos rfl] at h
      obtain rfl := Except.ok.inj h
      exact Tells.refl st' out
    · rw [if_neg (by omega), hsay, ok_bind] at h
      obtain rfl := Except.ok.inj h
      exact ⟨rfl, [f], hf, by simp [transcript]⟩
  · rintro ⟨st', hadd, rfl, fs, hfs, hout⟩
    rw [hadd, ok_bind]
    rcases nodeMaybeAddEntry_says (D := D) (R := R) hadd with heq | ⟨f, hf, hallocs, hsay⟩
    · obtain rfl : fs = [] := by simpa [heq] using hfs
      rw [if_pos (by rw [heq])]
      exact congrArg Except.ok (Prod.ext rfl (by rw [hout]; simp [transcript]))
    · obtain rfl : fs = [f] := List.append_cancel_left (hfs.symm.trans hf)
      rw [if_neg (by omega), hsay, ok_bind]
      exact congrArg Except.ok (Prod.ext rfl (by rw [hout]; simp [transcript]))

/-- The function with its output goes as the function does. -/
lemma nodeMaybeAddEntryOut_alike (e : BitVec t.bits) (st : NodeState t.bits) (out : List Byte) :
    Alike (Tells st out) (nodeMaybeAddEntry t m fuel msg e st)
      (nodeMaybeAddEntryOut D R t m fuel msg e (st, out)) := by
  cases hadd : nodeMaybeAddEntry t m fuel msg e st with
  | ok st' =>
      have htells : ∃ s, Tells st out st' s := by
        rcases nodeMaybeAddEntry_says (D := D) (R := R) hadd with rfl | ⟨f, hf, -, -⟩
        · exact ⟨_, Tells.refl st' out⟩
        · exact ⟨(st', out ++ transcript [f]), rfl, [f], hf, rfl⟩
      obtain ⟨s, hs⟩ := htells
      rw [(nodeMaybeAddEntryOut_iff e st out s).mpr ⟨st', hadd, hs⟩]
      exact .ok hs
  | error h =>
      rw [nodeMaybeAddEntryOut, hadd, error_bind]
      exact .error h

/-- The loop with its output is where the loop is, and has told what that has found. -/
def InStep {w : ℕ} (st₀ : NodeState w) (out₀ : List Byte) (s : NodeState w × BitVec w)
    (s' : (NodeState w × List Byte) × BitVec w) : Prop :=
  Tells st₀ out₀ s.1 s'.1 ∧ s.2 = s'.2

variable {st₀ : NodeState t.bits} {out₀ : List Byte}

/-- A round with its output goes as the round does. -/
lemma checkStepOut_alike {nl : BitVec t.bits} {s : NodeState t.bits × BitVec t.bits}
    {s' : (NodeState t.bits × List Byte) × BitVec t.bits} (h : InStep st₀ out₀ s s') :
    Alike (Sum.LiftRel (InStep st₀ out₀) (Tells st₀ out₀)) (checkStep t m fuel msg nl s)
      (checkStepOut D R t m fuel msg nl s') := by
  obtain ⟨st, e⟩ := s
  obtain ⟨⟨st', out⟩, e'⟩ := s'
  obtain ⟨htells, rfl⟩ := h
  obtain rfl : st' = st := htells.1
  refine Alike.bind_same fun body => Alike.ite (fun _ => ?_) fun _ => .ok (.inr htells)
  refine (nodeMaybeAddEntryOut_alike e st' out).bind fun st₁ s₁ hadded => ?_
  obtain ⟨st₂, out₂⟩ := s₁
  obtain rfl : st₂ = st₁ := hadded.1
  exact Alike.bind_same fun e₁ => .ok (.inl ⟨⟨rfl, (htells.trans hadded).2⟩, rfl⟩)

/-- The function with its output goes as the function does, and tells the reports. -/
lemma nodeCheckForNewNodesOut_alike {st : NodeState t.bits} {out : List Byte}
    (h : Tells st₀ out₀ st (st, out)) :
    Alike (fun r r' => r'.1 = r.1 ∧ Tells st₀ out₀ r.2 r'.2) (nodeCheckForNewNodes t m fuel msg st)
      (nodeCheckForNewNodesOut D R t m fuel msg st out) := by
  refine Alike.bind_same fun msg' => ?_
  refine (Alike.iter (fun s s' => checkStepOut_alike) fuel _ _ ⟨h, rfl⟩).bind fun st' s hs => ?_
  exact .ok ⟨rfl, hs⟩

/-- For each message, `NODE_CheckForNewNodes` prints the lines of the reports that it adds, in their
order and with nothing between them, and nothing about what it prints makes it stop. -/
theorem checkForNewNodes_prints (st : NodeState t.bits) (out : List Byte)
    (r : Block × NodeState t.bits × List Byte) :
    nodeCheckForNewNodesOut D R t m fuel msg st out = .ok r
      ↔ ∃ st' fs, nodeCheckForNewNodes t m fuel msg st = .ok (r.1, st')
        ∧ st'.found = st.found ++ fs ∧ r.2 = (st', out ++ transcript fs) := by
  have halike : Alike (fun r r' => r'.1 = r.1 ∧ Tells st out r.2 r'.2)
      (nodeCheckForNewNodes t m fuel msg st) (nodeCheckForNewNodesOut D R t m fuel msg st out) :=
    nodeCheckForNewNodesOut_alike (Tells.refl st out)
  constructor
  · intro h
    obtain ⟨⟨msg', st'⟩, hcheck, hmsg, hst, fs, hfs, hout⟩ := halike.eq_ok h
    obtain rfl : r.1 = msg' := hmsg
    exact ⟨st', fs, hcheck, hfs, Prod.ext hst hout⟩
  · rintro ⟨st', fs, hcheck, hfs, hr⟩
    obtain ⟨r', hr', hmsg, hst, fs', hfs', hout⟩ := halike.of_eq_ok hcheck
    obtain rfl : fs = fs' := List.append_cancel_left (hfs.symm.trans hfs')
    rw [hr']
    exact congrArg Except.ok (Prod.ext hmsg ((Prod.ext hst hout).trans hr.symm))

end

end EverythingNet
