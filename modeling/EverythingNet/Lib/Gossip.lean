import Mathlib.Tactic
import EverythingNet.Lib.KeyedLog

/-!
Gossip: parties that tell each other everything they know.

Each party has a record of its own and keeps an append-only log of records with keys. It sends its
whole log, and merges the logs it receives. A message that has been sent stays with the network for
ever: it may be delivered to anybody, in any order, any number of times or never.

* `Net`: the logs and the messages with the network. `Step`: a party sends or gets a message.
* `Inv`: each log begins with the record of its party, has no key twice and holds records of
  parties only; each message is a beginning of its sender's log. `Inv.start` and `Inv.step`, from
  which `Inv.steps`.
* `prefix_of_steps`: logs grow at their ends only. `Inv.hears`: whoever gets a message knows what
  its sender knew.
-/

namespace Gossip

open KeyedLog Relation

variable {ι α κ : Type*} [DecidableEq ι] [DecidableEq κ]

/-- The logs of the parties and the messages, each with its sender. -/
structure Net (ι α : Type*) where
  log : ι → List α
  soup : List (ι × List α)

variable (key : α → κ) (own : ι → α)

/-- Each party knows its own record. -/
def start : Net ι α := ⟨fun x => [own x], []⟩

/-- The log `K` of `y` after it gets the log `L` from `x`. It does not listen to itself. -/
def hear (x y : ι) (K L : List α) : List α := if x = y then K else mergeNew key K L

/-- A party sends its log, or gets a message. -/
inductive Step : Net ι α → Net ι α → Prop where
  | send (g : Net ι α) (x : ι) : Step g ⟨g.log, (x, g.log x) :: g.soup⟩
  | deliver (g : Net ι α) (x y : ι) (L : List α) (h : (x, L) ∈ g.soup) :
      Step g ⟨Function.update g.log y (hear key x y (g.log y) L), g.soup⟩

/-- What holds in every state that can be reached. -/
structure Inv (g : Net ι α) : Prop where
  first : ∀ x, [own x] <+: g.log x
  nodup : ∀ x, ((g.log x).map key).Nodup
  owned : ∀ x, ∀ e ∈ g.log x, ∃ y, e = own y
  letters : ∀ x L, (x, L) ∈ g.soup → [own x] <+: L ∧ L <+: g.log x

variable {key own} {g g' : Net ι α}

lemma prefix_hear {x y : ι} {K L : List α} : K <+: hear key x y K L := by
  rw [hear]
  split_ifs
  · exact List.prefix_rfl
  · exact prefix_mergeNew

/-- Logs grow at their ends. -/
lemma Step.prefix_log (h : Step key g g') (x : ι) : g.log x <+: g'.log x := by
  cases h with
  | send y => exact List.prefix_rfl
  | deliver y z L hL =>
      dsimp only
      by_cases hx : x = z
      · rw [hx, Function.update_self]
        exact prefix_hear
      · rw [Function.update_of_ne hx]

lemma prefix_of_steps (h : ReflTransGen (Step key) g g') (x : ι) : g.log x <+: g'.log x := by
  induction h with
  | refl => exact List.prefix_rfl
  | tail _ hstep ih => exact ih.trans (hstep.prefix_log x)

omit [DecidableEq ι] [DecidableEq κ] in
lemma Inv.start : Inv key own (start own) where
  first _ := List.prefix_rfl
  nodup _ := List.nodup_singleton _
  owned x _ he := ⟨x, List.mem_singleton.mp he⟩
  letters _ _ h := absurd h List.not_mem_nil

/-- One step keeps the invariant. -/
lemma Inv.step (h : Inv key own g) (hstep : Step key g g') : Inv key own g' := by
  have hgrow := hstep.prefix_log
  cases hstep with
  | send y =>
      refine ⟨h.first, h.nodup, h.owned, fun x L hL => ?_⟩
      rcases List.mem_cons.mp hL with heq | hL
      · obtain ⟨rfl, rfl⟩ := Prod.mk.inj heq
        exact ⟨h.first x, List.prefix_rfl⟩
      · exact h.letters x L hL
  | deliver y z L hL =>
      -- the new log of the receiver
      have hnodup : ((hear key y z (g.log z) L).map key).Nodup := by
        rw [hear]
        split_ifs
        · exact h.nodup z
        · exact nodup_mergeNew (h.nodup z)
      have howned : ∀ e ∈ hear key y z (g.log z) L, ∃ o, e = own o := by
        intro e he
        rw [hear] at he
        split_ifs at he
        · exact h.owned z e he
        · rcases mem_of_mem_mergeNew he with he | he
          · exact h.owned z e he
          · exact h.owned y e ((h.letters y L hL).2.subset he)
      refine ⟨fun x => (h.first x).trans (hgrow x), fun x => ?_, fun x => ?_, fun x M hM => ?_⟩
      · dsimp only
        by_cases hx : x = z
        · rw [hx, Function.update_self]
          exact hnodup
        · rw [Function.update_of_ne hx]
          exact h.nodup x
      · dsimp only
        by_cases hx : x = z
        · rw [hx, Function.update_self]
          exact howned
        · rw [Function.update_of_ne hx]
          exact h.owned x
      · obtain ⟨hfirst, hprefix⟩ := h.letters x M hM
        exact ⟨hfirst, hprefix.trans (hgrow x)⟩

/-- A run keeps the invariant. -/
lemma Inv.steps (h : Inv key own g) (hsteps : ReflTransGen (Step key) g g') : Inv key own g' := by
  induction hsteps with
  | refl => exact h
  | tail _ hstep ih => exact ih.step hstep

omit [DecidableEq ι] [DecidableEq κ] in
/-- With keys that belong to one party each, a record is that of the party with its key. -/
lemma Inv.eq_own (h : Inv key own g) (hinj : Function.Injective fun x => key (own x)) {x y : ι}
    {e : α} (he : e ∈ g.log x) (hkey : key e = key (own y)) : e = own y := by
  obtain ⟨z, rfl⟩ := h.owned x e he
  rw [hinj hkey]

/-- After a message the receiver knows what it knew and what the message tells. -/
lemma Inv.mem_keys_hear (h : Inv key own g) {x y : ι} {L : List α} (hL : (x, L) ∈ g.soup) {k : κ} :
    k ∈ (hear key x y (g.log y) L).map key ↔ k ∈ (g.log y).map key ∨ k ∈ L.map key := by
  rw [hear]
  split_ifs with hxy
  · subst hxy
    refine ⟨Or.inl, ?_⟩
    rintro (hk | hk)
    · exact hk
    · exact ((h.letters x L hL).2.map key).subset hk
  · exact mem_keys_mergeNew

/-- After a message the receiver knows all keys that its sender knew. -/
lemma Inv.hears (h : Inv key own g) {x y : ι} {L : List α} (hL : (x, L) ∈ g.soup) {k : κ}
    (hk : k ∈ L.map key) : k ∈ (hear key x y (g.log y) L).map key :=
  (h.mem_keys_hear hL).mpr (Or.inr hk)

end Gossip
