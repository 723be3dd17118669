import Mathlib.Tactic

/-!
Hearsay: who can know of whom when parties send each other letters.

A history is the list of what has happened, the last act first. The news of a party starts with that
party. A letter carries the news that has come to its writer when it is sent, and brings them to
whoever gets it, at any later time and as often as it is got.

* `Told`: a chain of letters leads from one party to another, each sent after the one before it had
  been got. `told_send` and `told_get`: what one act adds.
* `Exchange`: an act list in which along every edge of a graph a letter is sent and got.
  `told_of_exchanges`: after `n` exchanges the news have come `n` edges far, and
  `within_of_reflTransGen`: with `n` parties no path needs more than `n - 1` edges.
* `Fair`: along every edge letters are sent and got again and again. `Fair.told`: the news come
  everywhere.
* `card_changes_le`: something that grows within a finite set changes only so many times.
-/

namespace Hearsay

open Relation

variable {ι μ : Type*}

/-- A letter is sent, or somebody gets it. -/
inductive Act (ι μ : Type*) where
  | send (m : μ)
  | get (m : μ) (y : ι)

/-- The news of `x` has come to `y`: it is `y`, or there is a letter that `y` got and that was sent
when the news of `x` had come to its writer. -/
inductive Told (writer : μ → ι) : List (Act ι μ) → ι → ι → Prop where
  | self (as : List (Act ι μ)) (x : ι) : Told writer as x x
  | letter {bs : List (Act ι μ)} {x : ι} {m : μ} (h : Told writer bs x (writer m))
      (cs ds : List (Act ι μ)) (y : ι) : Told writer (ds ++ .get m y :: (cs ++ .send m :: bs)) x y

/-- The letter was sent when the news of `x` had come to its writer. -/
def Brings (writer : μ → ι) (as : List (Act ι μ)) (m : μ) (x : ι) : Prop :=
  ∃ cs bs, as = cs ++ .send m :: bs ∧ Told writer bs x (writer m)

section

variable {writer : μ → ι} {as bs : List (Act ι μ)} {m m' : μ} {x y z : ι}

/-! ### One act -/

lemma Told.append (h : Told writer as x y) (bs : List (Act ι μ)) : Told writer (bs ++ as) x y := by
  cases h with
  | self => exact .self _ _
  | letter h cs ds =>
      rw [← List.append_assoc]
      exact .letter h cs (bs ++ ds) y

lemma Told.cons (h : Told writer as x y) (a : Act ι μ) : Told writer (a :: as) x y := h.append [a]

lemma Brings.get (h : Brings writer as m x) (y : ι) : Told writer (.get m y :: as) x y := by
  obtain ⟨cs, bs, rfl, h⟩ := h
  exact .letter h cs [] y

/-- At first everybody has the news of oneself only. -/
@[simp] lemma told_nil : Told writer [] x y ↔ x = y := by
  constructor
  · intro h
    generalize has : ([] : List (Act ι μ)) = as at h
    cases h with
    | self => rfl
    | letter h cs ds => simp at has
  · rintro rfl
    exact .self _ _

/-- A letter that is sent brings nothing yet. -/
@[simp] lemma told_send : Told writer (.send m :: as) x y ↔ Told writer as x y := by
  refine ⟨fun h => ?_, fun h => h.cons _⟩
  generalize has : Act.send m :: as = as' at h
  cases h with
  | self => exact .self _ _
  | letter h cs ds =>
      cases ds with
      | nil => simp at has
      | cons d ds =>
          obtain ⟨-, rfl⟩ := List.cons.inj has
          exact .letter h cs ds y

/-- Who gets a letter gets the news that it carries, and nobody else gets any. -/
lemma told_get :
    Told writer (.get m z :: as) x y ↔ Told writer as x y ∨ (y = z ∧ Brings writer as m x) := by
  constructor
  · intro h
    generalize has : Act.get m z :: as = as' at h
    cases h with
    | self => exact Or.inl (.self _ _)
    | letter h cs ds =>
        cases ds with
        | nil =>
            obtain ⟨hget, rfl⟩ := List.cons.inj has
            obtain ⟨rfl, rfl⟩ := Act.get.inj hget
            exact Or.inr ⟨rfl, cs, _, rfl, h⟩
        | cons d ds =>
            obtain ⟨-, rfl⟩ := List.cons.inj has
            exact Or.inl (.letter h cs ds y)
  · rintro (h | ⟨rfl, h⟩)
    · exact h.cons _
    · exact h.get y

@[simp] lemma not_brings_nil : ¬ Brings writer [] m x := by
  rintro ⟨cs, bs, h, -⟩
  simp at h

lemma brings_send :
    Brings writer (.send m' :: as) m x
      ↔ Brings writer as m x ∨ (m = m' ∧ Told writer as x (writer m)) := by
  constructor
  · rintro ⟨cs, bs, has, h⟩
    cases cs with
    | nil =>
        obtain ⟨hsend, rfl⟩ := List.cons.inj has
        exact Or.inr ⟨(Act.send.inj hsend).symm, h⟩
    | cons c cs =>
        obtain ⟨-, rfl⟩ := List.cons.inj has
        exact Or.inl ⟨cs, bs, rfl, h⟩
  · rintro (⟨cs, bs, rfl, h⟩ | ⟨rfl, h⟩)
    · exact ⟨.send m' :: cs, bs, rfl, h⟩
    · exact ⟨[], as, rfl, h⟩

@[simp] lemma brings_get :
    Brings writer (.get m' y :: as) m x ↔ Brings writer as m x := by
  constructor
  · rintro ⟨cs, bs, has, h⟩
    cases cs with
    | nil => simp at has
    | cons c cs =>
        obtain ⟨-, rfl⟩ := List.cons.inj has
        exact ⟨cs, bs, rfl, h⟩
  · rintro ⟨cs, bs, rfl, h⟩
    exact ⟨.get m' y :: cs, bs, rfl, h⟩

@[simp] lemma told_sends {ms : List μ} :
    Told writer (ms.map .send ++ as) x y ↔ Told writer as x y := by
  induction ms with
  | nil => rfl
  | cons m ms ih => rw [List.map_cons, List.cons_append, told_send, ih]

lemma brings_sends {ms : List μ} :
    Brings writer (ms.map .send ++ as) m x
      ↔ Brings writer as m x ∨ (m ∈ ms ∧ Told writer as x (writer m)) := by
  induction ms with
  | nil => simp
  | cons m' ms ih =>
      rw [List.map_cons, List.cons_append, brings_send, ih, told_sends, List.mem_cons]
      tauto

/-- What happens on the way from `bs` does not take anything from a letter. -/
lemma Told.append_get (h : Told writer bs x (writer m)) (cs ds es : List (Act ι μ)) (y : ι) :
    Told writer (ds ++ .get m y :: (cs ++ .send m :: es) ++ bs) x y := by
  have hes := h.append es
  have hchain : Told writer (ds ++ .get m y :: (cs ++ .send m :: (es ++ bs))) x y :=
    .letter hes cs ds y
  simpa using hchain

end

/-! ### Exchanges -/

/-- Along every edge a letter is sent, and got after that. -/
def Exchange (writer : μ → ι) (E : ι → ι → Prop) (as : List (Act ι μ)) : Prop :=
  ∀ x y, E x y → ∃ m, writer m = x ∧ ∃ bs cs ds, as = ds ++ .get m y :: (cs ++ .send m :: bs)

/-- A path of at most `n` edges. -/
def Within (E : ι → ι → Prop) : ℕ → ι → ι → Prop
  | 0, x, y => x = y
  | n + 1, x, y => Within E n x y ∨ ∃ z, Within E n x z ∧ E z y

section

variable {writer : μ → ι} {E : ι → ι → Prop} {as bs : List (Act ι μ)} {x y z : ι} {n k : ℕ}

lemma Within.mono (h : Within E n x y) (hk : n ≤ k) : Within E k x y := by
  induction hk with
  | refl => exact h
  | step _ ih => exact Or.inl ih

lemma Told.exchange (h : Told writer bs x z) (hE : E z y) (has : Exchange writer E as) :
    Told writer (as ++ bs) x y := by
  obtain ⟨m, rfl, es, cs, ds, rfl⟩ := has z y hE
  exact h.append_get cs ds es y

/-- After `n` exchanges the news have come along all paths of `n` edges. -/
lemma told_of_exchanges {rounds : List (List (Act ι μ))}
    (hr : ∀ as ∈ rounds, Exchange writer E as) (h : Within E rounds.length x y)
    (bs : List (Act ι μ)) : Told writer (rounds.flatten ++ bs) x y := by
  induction rounds generalizing y with
  | nil =>
      obtain rfl : x = y := h
      exact .self _ _
  | cons as rounds ih =>
      have hr' := fun bs hbs => hr bs (List.mem_cons_of_mem as hbs)
      rw [List.flatten_cons, List.append_assoc]
      rcases h with h | ⟨z, h, hE⟩
      · exact (ih hr' h).append as
      · exact (ih hr' h).exchange hE (hr as (List.mem_cons_self ..))

/-- Paths that need not be longer than `n` edges if they need not be one longer are never longer. -/
lemma within_of_stable (hn : ∀ y, Within E (n + 1) x y → Within E n x y)
    (h : ReflTransGen E x y) : Within E n x y := by
  induction h with
  | refl => exact Within.mono (n := 0) rfl (Nat.zero_le n)
  | tail _ hE ih => exact hn _ (Or.inr ⟨_, ih, hE⟩)

/-- No path needs more edges than there are other parties. -/
lemma within_of_reflTransGen [Fintype ι] (h : ReflTransGen E x y) :
    Within E (Fintype.card ι - 1) x y := by
  classical
  -- as long as some path needs another edge, each edge more comes to another party
  have hgrow : ∀ n, (∃ k ≤ n, ∀ y, Within E (k + 1) x y → Within E k x y)
      ∨ n + 1 < (Finset.univ.filter (Within E (n + 1) x)).card := by
    intro n
    induction n with
    | zero =>
        by_cases hs : ∀ y, Within E 1 x y → Within E 0 x y
        · exact Or.inl ⟨0, le_rfl, hs⟩
        · push Not at hs
          obtain ⟨y, hy, hxy⟩ := hs
          right
          refine Finset.one_lt_card.mpr ⟨x, ?_, y, ?_, hxy⟩
          · simpa using Within.mono (n := 0) (k := 1) rfl (Nat.zero_le 1)
          · simpa using hy
    | succ n ih =>
        rcases ih with ⟨k, hk, hs⟩ | hlt
        · exact Or.inl ⟨k, hk.trans (Nat.le_succ n), hs⟩
        · by_cases hs : ∀ y, Within E (n + 2) x y → Within E (n + 1) x y
          · exact Or.inl ⟨n + 1, le_rfl, hs⟩
          · push Not at hs
            obtain ⟨y, hy, hny⟩ := hs
            refine Or.inr (lt_of_le_of_lt hlt (Finset.card_lt_card ?_))
            refine (Finset.ssubset_iff_of_subset fun z hz => ?_).mpr
              ⟨y, by simpa using hy, by simpa using hny⟩
            have hz' : Within E (n + 1) x z := by simpa using hz
            simpa using Within.mono hz' (Nat.le_succ _)
  rcases hgrow (Fintype.card ι - 1) with ⟨k, hk, hs⟩ | hlt
  · exact (within_of_stable hs h).mono hk
  · have hle := Finset.card_le_univ (Finset.univ.filter (Within E (Fintype.card ι - 1 + 1) x))
    omega

end

/-! ### Fair runs -/

/-- What has happened before the time `n`, when at the time `i` the acts `acts i` happen. -/
def history (acts : ℕ → List (Act ι μ)) : ℕ → List (Act ι μ)
  | 0 => []
  | n + 1 => acts n ++ history acts n

/-- Along every edge, after any time a letter is sent that is got later on. -/
def Fair (writer : μ → ι) (E : ι → ι → Prop) (acts : ℕ → List (Act ι μ)) : Prop :=
  ∀ x y, E x y → ∀ n, ∃ i j m, n ≤ i ∧ i < j ∧ writer m = x
    ∧ .send m ∈ acts i ∧ .get m y ∈ acts j

section

variable {writer : μ → ι} {E : ι → ι → Prop} {acts : ℕ → List (Act ι μ)} {x y z : ι} {n k : ℕ}

lemma exists_history_eq (acts : ℕ → List (Act ι μ)) (h : n ≤ k) :
    ∃ as, history acts k = as ++ history acts n := by
  induction h with
  | refl => exact ⟨[], rfl⟩
  | @step k _ ih =>
      obtain ⟨as, has⟩ := ih
      exact ⟨acts k ++ as, by rw [history, has, List.append_assoc]⟩

/-- What has happened after an act and before it. -/
lemma mem_history {a : Act ι μ} {i : ℕ} (ha : a ∈ acts i) (hi : i < n) :
    ∃ ds es, history acts n = ds ++ a :: (es ++ history acts i) := by
  obtain ⟨as, has⟩ := exists_history_eq acts (Nat.succ_le_of_lt hi)
  obtain ⟨ds, es, hds⟩ := List.mem_iff_append.mp ha
  exact ⟨as ++ ds, es, by rw [has, history, hds]; simp⟩

/-- News do not get lost. -/
lemma Told.later (h : Told writer (history acts n) x y) (hn : n ≤ k) :
    Told writer (history acts k) x y := by
  obtain ⟨as, has⟩ := exists_history_eq acts hn
  rw [has]
  exact h.append as

lemma Told.fair (h : Told writer (history acts n) x z) (hE : E z y) (hf : Fair writer E acts) :
    ∃ k, Told writer (history acts k) x y := by
  obtain ⟨i, j, m, hi, hj, rfl, hsend, hget⟩ := hf z y hE n
  obtain ⟨ds, es, hds⟩ := mem_history hget (Nat.lt_succ_self j)
  obtain ⟨cs, fs, hcs⟩ := mem_history hsend hj
  refine ⟨j + 1, ?_⟩
  rw [hds, hcs, ← List.append_assoc]
  exact .letter ((h.later hi).append fs) (es ++ cs) ds y

/-- A list in which everything comes again and again. -/
lemma exists_schedule (α : Type*) [Countable α] [Nonempty α] :
    ∃ f : ℕ → α, ∀ a n, ∃ i ≥ n, f i = a := by
  obtain ⟨e, he⟩ := exists_surjective_nat α
  refine ⟨fun i => e (Nat.unpair i).1, fun a n => ?_⟩
  obtain ⟨k, rfl⟩ := he a
  exact ⟨Nat.pair k n, Nat.right_le_pair k n, by simp⟩

/-- In a fair run the news come along every path. -/
lemma Fair.told (hf : Fair writer E acts) (h : ReflTransGen E x y) :
    ∃ n, Told writer (history acts n) x y := by
  induction h with
  | refl => exact ⟨0, .self _ _⟩
  | tail _ hE ih =>
      obtain ⟨n, hn⟩ := ih
      exact hn.fair hE hf

/-- In a fair run there is a time after which all news have come along all paths. -/
lemma Fair.told_all [Finite ι] (hf : Fair writer E acts) :
    ∃ n, ∀ k ≥ n, ∀ x y, ReflTransGen E x y → Told writer (history acts k) x y := by
  have hex : ∀ p : ι × ι, ∃ n, ReflTransGen E p.1 p.2 → Told writer (history acts n) p.1 p.2 := by
    intro p
    by_cases hp : ReflTransGen E p.1 p.2
    · obtain ⟨n, hn⟩ := hf.told hp
      exact ⟨n, fun _ => hn⟩
    · exact ⟨0, fun h => absurd h hp⟩
  choose N hN using hex
  obtain ⟨n, hn⟩ := (Set.finite_range N).bddAbove
  refine ⟨n, fun k hk x y hxy => ?_⟩
  exact (hN (x, y) hxy).later ((hn ⟨(x, y), rfl⟩).trans hk)

end

/-! ### Exchanges in fair runs -/

section

variable {writer : μ → ι} {E : ι → ι → Prop} {acts : ℕ → List (Act ι μ)} {n : ℕ}

/-- After any time there is a whole exchange. -/
lemma Fair.exchange [Finite ι] (hf : Fair writer E acts) (n : ℕ) :
    ∃ k as, history acts k = as ++ history acts n ∧ Exchange writer E as := by
  have hex : ∀ p : ι × ι, ∃ j, E p.1 p.2 → ∃ i m, n ≤ i ∧ i < j ∧ writer m = p.1
      ∧ .send m ∈ acts i ∧ .get m p.2 ∈ acts j := by
    intro p
    by_cases hp : E p.1 p.2
    · obtain ⟨i, j, m, h⟩ := hf p.1 p.2 hp n
      exact ⟨j, fun _ => ⟨i, m, h⟩⟩
    · exact ⟨0, fun h => absurd h hp⟩
  choose J hJ using hex
  obtain ⟨k, hk⟩ := (Set.finite_range J).bddAbove
  obtain ⟨as, has⟩ := exists_history_eq acts (le_max_left n (k + 1))
  refine ⟨max n (k + 1), as, has, fun x y hxy => ?_⟩
  obtain ⟨i, m, hi, hij, hm, hsend, hget⟩ := hJ (x, y) hxy
  have hjk : J (x, y) < max n (k + 1) := lt_max_of_lt_right (Nat.lt_succ_of_le (hk ⟨_, rfl⟩))
  -- what has happened since the time `n`, from the end to the letter
  obtain ⟨ds, es, hds⟩ := mem_history hget hjk
  obtain ⟨cs, fs, hcs⟩ := mem_history hsend hij
  obtain ⟨bs, hbs⟩ := exists_history_eq acts hi
  refine ⟨m, hm, fs ++ bs, es ++ cs, ds, (List.append_left_inj (history acts n)).mp ?_⟩
  rw [← has, hds, hcs, hbs]
  simp

/-- In a fair run there are as many exchanges as one wants. -/
lemma Fair.exchanges [Finite ι] (hf : Fair writer E acts) (k : ℕ) :
    ∃ (n : ℕ) (rounds : List (List (Act ι μ))), history acts n = rounds.flatten
      ∧ (∀ as ∈ rounds, Exchange writer E as) ∧ rounds.length = k := by
  induction k with
  | zero => exact ⟨0, [], rfl, by simp, rfl⟩
  | succ k ih =>
      obtain ⟨n, rounds, hn, hr, hlen⟩ := ih
      obtain ⟨n', as, has, hex⟩ := hf.exchange n
      refine ⟨n', as :: rounds, by rw [has, hn, List.flatten_cons], ?_, by simp [hlen]⟩
      intro bs hbs
      rcases List.mem_cons.mp hbs with rfl | hbs
      · exact hex
      · exact hr bs hbs

end

/-! ### Changes -/

/-- A measure that never falls and stays below a bound rises only so many times. -/
lemma card_changes_le {f : ℕ → ℕ} {n b : ℕ} (hmono : ∀ i < n, f i ≤ f (i + 1))
    (hb : f n ≤ f 0 + b) (T : Finset ℕ) (hT : ∀ i ∈ T, i < n ∧ f i < f (i + 1)) : T.card ≤ b := by
  have hle : ∀ k ≤ n, f 0 + (T.filter (· < k)).card ≤ f k := by
    intro k hk
    induction k with
    | zero => simp
    | succ k ih =>
        have ih' := ih (by omega)
        by_cases hkT : k ∈ T
        · have hr := (hT k hkT).2
          have hins : T.filter (· < k + 1) = insert k (T.filter (· < k)) := by
            ext i
            simp only [Finset.mem_filter, Finset.mem_insert]
            grind
          rw [hins, Finset.card_insert_of_notMem (by simp)]
          omega
        · have hm := hmono k hk
          have hsame : T.filter (· < k + 1) = T.filter (· < k) := by
            ext i
            simp only [Finset.mem_filter]
            grind
          rw [hsame]
          omega
  have hall : T.filter (· < n) = T := Finset.filter_true_of_mem fun i hi => (hT i hi).1
  have := hle n le_rfl
  rw [hall] at this
  omega

end Hearsay
