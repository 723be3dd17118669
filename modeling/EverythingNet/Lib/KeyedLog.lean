import Mathlib.Tactic

/-!
Append-only logs of records with keys.

A log takes a record in when it holds none with the same key (`addNew`), and merges another log
by taking its records in one after the other (`mergeNew`).

* `mergeNew_eq_append`: merging appends the records whose key is new, the first of each key
  (`fresh`), so a merge extends the log (`prefix_mergeNew`).
* `mem_keys_mergeNew`: the keys of a merge are those of both logs; `nodup_mergeNew`: no key is
  there twice.
* `mergeNew_append`: merging one log after another is merging their concatenation, and
  `mergeNew_of_subset`: a log whose keys are there already changes nothing.
* `Agree`: records with the same key are the same. Under it `perm_mergeNew` says that the merge of
  logs with the same records does not depend on their order.
-/

namespace KeyedLog

variable {α κ : Type*} [DecidableEq κ] (key : α → κ)

/-- Take a record in if its key is new. -/
def addNew (K : List α) (e : α) : List α := if key e ∈ K.map key then K else K ++ [e]

/-- Take in the records of `L`, one after the other. -/
def mergeNew (K L : List α) : List α := L.foldl (addNew key) K

/-- The records of `L` whose key is neither in `seen` nor the key of an earlier record. -/
def fresh : List κ → List α → List α
  | _, [] => []
  | seen, e :: L =>
    if key e ∈ seen then fresh seen L else e :: fresh (seen ++ [key e]) L

variable {key} {K L M : List α} {e : α} {k : κ} {seen : List κ}

@[simp] lemma mergeNew_nil : mergeNew key K [] = K := rfl

lemma mergeNew_cons : mergeNew key K (e :: L) = mergeNew key (addNew key K e) L := rfl

lemma mergeNew_append : mergeNew key K (L ++ M) = mergeNew key (mergeNew key K L) M :=
  List.foldl_append

/-- A merge appends what is new. -/
lemma mergeNew_eq_append : mergeNew key K L = K ++ fresh key (K.map key) L := by
  induction L generalizing K with
  | nil => simp [fresh]
  | cons e L ih =>
      rw [mergeNew_cons, ih, addNew, fresh]
      split_ifs with h
      · rfl
      · simp

lemma prefix_mergeNew : K <+: mergeNew key K L :=
  ⟨fresh key (K.map key) L, mergeNew_eq_append.symm⟩

/-! ### What is new -/

lemma fresh_sublist : List.Sublist (fresh key seen L) L := by
  induction L generalizing seen with
  | nil => exact List.Sublist.slnil
  | cons e L ih =>
      rw [fresh]
      split_ifs with h
      · exact ih.cons e
      · exact ih.cons_cons e

lemma key_notMem_of_mem_fresh (h : e ∈ fresh key seen L) : key e ∉ seen := by
  induction L generalizing seen with
  | nil => simp [fresh] at h
  | cons f L ih =>
      rw [fresh] at h
      split_ifs at h with hf
      · exact ih h
      · rcases List.mem_cons.mp h with rfl | h
        · exact hf
        · exact fun hs => ih h (List.mem_append_left _ hs)

lemma mem_keys_fresh : k ∈ (fresh key seen L).map key ↔ k ∈ L.map key ∧ k ∉ seen := by
  induction L generalizing seen with
  | nil => simp [fresh]
  | cons e L ih =>
      rw [fresh, List.map_cons, List.mem_cons]
      split_ifs with h
      · rw [ih]
        constructor
        · rintro ⟨h1, h2⟩
          exact ⟨Or.inr h1, h2⟩
        · rintro ⟨rfl | h1, h2⟩
          · exact absurd h h2
          · exact ⟨h1, h2⟩
      · rw [List.map_cons, List.mem_cons, ih, List.mem_append, List.mem_singleton]
        by_cases hk : k = key e
        · simp [hk, h]
        · simp [hk]

lemma nodup_fresh : ((fresh key seen L).map key).Nodup := by
  induction L generalizing seen with
  | nil => simp [fresh]
  | cons e L ih =>
      rw [fresh]
      split_ifs with h
      · exact ih
      · rw [List.map_cons, List.nodup_cons]
        refine ⟨fun hmem => ?_, ih⟩
        exact (mem_keys_fresh.mp hmem).2 (by simp)

lemma fresh_eq_nil (h : ∀ e ∈ L, key e ∈ seen) : fresh key seen L = [] := by
  induction L with
  | nil => rfl
  | cons e L ih =>
      rw [fresh, if_pos (h e (List.mem_cons_self ..))]
      exact ih fun f hf => h f (List.mem_cons_of_mem e hf)

/-- A log with new keys, each only once, is new as a whole. -/
lemma fresh_eq_self (hL : (L.map key).Nodup) (h : ∀ e ∈ L, key e ∉ seen) :
    fresh key seen L = L := by
  induction L generalizing seen with
  | nil => rfl
  | cons e L ih =>
      rw [List.map_cons, List.nodup_cons] at hL
      rw [fresh, if_neg (h e (List.mem_cons_self ..)), ih hL.2]
      intro f hf hmem
      rcases List.mem_append.mp hmem with hmem | hmem
      · exact h f (List.mem_cons_of_mem e hf) hmem
      · exact hL.1 (List.mem_singleton.mp hmem ▸ List.mem_map_of_mem hf)

/-! ### The keys of a merge -/

lemma mem_keys_mergeNew : k ∈ (mergeNew key K L).map key ↔ k ∈ K.map key ∨ k ∈ L.map key := by
  rw [mergeNew_eq_append, List.map_append, List.mem_append, mem_keys_fresh]
  tauto

lemma nodup_mergeNew (h : (K.map key).Nodup) : ((mergeNew key K L).map key).Nodup := by
  rw [mergeNew_eq_append, List.map_append, List.nodup_append]
  refine ⟨h, nodup_fresh, ?_⟩
  rintro x hx y hy rfl
  exact (mem_keys_fresh.mp hy).2 hx

lemma mergeNew_concat : mergeNew key K (L ++ [e]) = addNew key (mergeNew key K L) e := by
  rw [mergeNew_append, mergeNew_cons, mergeNew_nil]

/-- A record whose key has not come up before it is one of the new ones. -/
lemma mem_fresh_of_notMem (h : key e ∉ (mergeNew key K L).map key) :
    e ∈ fresh key (K.map key) (L ++ e :: M) := by
  have hmem : e ∈ mergeNew key K (L ++ e :: M) := by
    rw [mergeNew_append, mergeNew_cons, addNew, if_neg h]
    exact prefix_mergeNew.subset (by simp)
  rw [mergeNew_eq_append, List.mem_append] at hmem
  refine hmem.resolve_left fun hK => h ?_
  exact mem_keys_mergeNew.mpr (Or.inl (List.mem_map_of_mem hK))

/-- What is new in the first part of a log is new in the log. -/
lemma fresh_append : fresh key seen L <+: fresh key seen (L ++ M) := by
  induction L generalizing seen with
  | nil => exact List.nil_prefix
  | cons e L ih =>
      rw [List.cons_append, fresh, fresh]
      split_ifs with h
      · exact ih
      · exact List.cons_prefix_cons.mpr ⟨rfl, ih⟩

/-- A record with a known key changes nothing. -/
lemma addNew_of_mem (h : key e ∈ K.map key) : addNew key K e = K := if_pos h

lemma length_mergeNew_le : (mergeNew key K L).length ≤ K.length + L.length := by
  rw [mergeNew_eq_append, List.length_append]
  exact Nat.add_le_add_left fresh_sublist.length_le _

lemma mem_of_mem_mergeNew (h : e ∈ mergeNew key K L) : e ∈ K ∨ e ∈ L := by
  rw [mergeNew_eq_append, List.mem_append] at h
  exact h.imp_right fun hf => fresh_sublist.subset hf

/-- A log whose keys are there already changes nothing. -/
lemma mergeNew_of_subset (h : ∀ e ∈ L, key e ∈ K.map key) : mergeNew key K L = K := by
  rw [mergeNew_eq_append, fresh_eq_nil h, List.append_nil]

/-- A merge changes something exactly if it brings a new key. -/
lemma mergeNew_eq_self_iff : mergeNew key K L = K ↔ ∀ e ∈ L, key e ∈ K.map key := by
  constructor
  · intro h e he
    have hk : key e ∈ (mergeNew key K L).map key :=
      mem_keys_mergeNew.mpr (Or.inr (List.mem_map_of_mem he))
    rwa [h] at hk
  · exact mergeNew_of_subset

/-! ### Independence of the order -/

/-- Records with the same key are the same. -/
def Agree (key : α → κ) (S : List α) : Prop := ∀ x ∈ S, ∀ y ∈ S, key x = key y → x = y

/-- Logs with the same records append the same records, in some order. -/
lemma perm_fresh (h : Agree key (K ++ L)) (hLM : ∀ x, x ∈ L ↔ x ∈ M) :
    (fresh key (K.map key) L).Perm (fresh key (K.map key) M) := by
  have hmem : ∀ N : List α, (∀ x, x ∈ L ↔ x ∈ N) → ∀ x,
      x ∈ fresh key (K.map key) N ↔ x ∈ L ∧ key x ∉ K.map key := by
    intro N hN x
    constructor
    · intro hx
      exact ⟨(hN x).mpr (fresh_sublist.subset hx), key_notMem_of_mem_fresh hx⟩
    · rintro ⟨hx, hxk⟩
      have hk : key x ∈ (fresh key (K.map key) N).map key :=
        mem_keys_fresh.mpr ⟨List.mem_map_of_mem ((hN x).mp hx), hxk⟩
      obtain ⟨y, hy, hkey⟩ := List.mem_map.mp hk
      have hyL : y ∈ L := (hN y).mpr (fresh_sublist.subset hy)
      have hyx : y = x :=
        h y (List.mem_append_right K hyL) x (List.mem_append_right K hx) hkey
      exact hyx ▸ hy
  rw [List.perm_ext_iff_of_nodup nodup_fresh.of_map nodup_fresh.of_map]
  intro x
  rw [hmem L (fun _ => Iff.rfl), hmem M hLM]

lemma perm_mergeNew (h : Agree key (K ++ L)) (hLM : ∀ x, x ∈ L ↔ x ∈ M) :
    (mergeNew key K L).Perm (mergeNew key K M) := by
  rw [mergeNew_eq_append, mergeNew_eq_append]
  exact (perm_fresh h hLM).append_left K

end KeyedLog
