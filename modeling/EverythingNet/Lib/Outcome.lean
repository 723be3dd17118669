import Mathlib.Tactic

/-!
Outcomes of C-like computations and fuelled loops.

A computation ends with a value or with a `Halt`: an access outside its object, a use of an
uninitialised variable, a null pointer, a call of `exit`, or the end of the fuel that bounds
the loops of the model.

* `Settles f r`: with enough fuel the computation `f` always gives `r`; `Settles.unique` says
  that `r` is then determined.
* `iter`: a loop, given by the function that performs one iteration and says whether to go on
  (`inl`) or to leave with a result (`inr`). `iter_list` is the rule of a loop that goes through
  a list (`iter_list_halt` if it halts on the way), `settles_iter_inl` goes round once, `iter_spins`
  is the rule of a loop that never leaves a set of states.
* `visits`: the states in which the body of a loop is entered; `visits_map_prefix` compares two loops.
* `Steady f`: more fuel does not change what `f` gives. It passes through sequences and loops
  (`Steady.bind`, `Steady.iter`), and turns one result into a settled one (`Steady.settles`).
* `Alike R x y`: two computations halt alike or come to related values. It passes through sequences,
  loops and runs of calls (`Alike.bind`, `Alike.iter`, `Alike.foldlM`).
* `LoopSettles`: the settling of a loop whose body itself takes fuel, with the three rules
  `LoopSettles.done`, `LoopSettles.more` and `LoopSettles.halt`. `LoopSettles.count` and
  `settles_iter_count` are the rule of a loop that counts up to where it is left.
* `Settles.run`: the invariant rule of a run of calls, `List.foldlM` over what the calls are given.
-/

namespace CMem

/-- Why a computation stops without a value. -/
inductive Halt where
  | outOfBounds
  | uninitialised
  | nullPointer
  | exited (status : ℕ)
  | outOfFuel
  deriving DecidableEq, Repr

variable {α β σ ρ : Type}

@[simp] lemma ok_bind (a : α) (f : α → Except Halt β) : (Except.ok a >>= f) = f a := rfl

@[simp] lemma error_bind (h : Halt) (f : α → Except Halt β) :
    ((Except.error h : Except Halt α) >>= f) = .error h := rfl

@[simp] lemma pure_eq_ok (a : α) : (pure a : Except Halt α) = .ok a := rfl

lemma bind_of_ok {x : Except Halt α} {a : α} (h : x = .ok a) (f : α → Except Halt β) :
    (x >>= f) = f a := by
  rw [h, ok_bind]

lemma bind_of_error {x : Except Halt α} {h : Halt} (hx : x = .error h) (f : α → Except Halt β) :
    (x >>= f) = .error h := by
  rw [hx, error_bind]

/-- A sequence gives a value only if both its parts do. -/
lemma bind_eq_ok {x : Except Halt α} {f : α → Except Halt β} {b : β} :
    (x >>= f) = .ok b ↔ ∃ a, x = .ok a ∧ f a = .ok b := by
  cases x with
  | error h => simp
  | ok a => simp

/-! ### Settling -/

/-- With enough fuel the computation gives `r`. -/
def Settles (f : ℕ → Except Halt α) (r : Except Halt α) : Prop :=
  ∃ N, ∀ k, N ≤ k → f k = r

/-- The computation ends: it settles on something else than the end of the fuel. -/
def Ends (f : ℕ → Except Halt α) : Prop :=
  ∃ r, r ≠ .error .outOfFuel ∧ Settles f r

/-- No amount of fuel is enough. -/
def Spins (f : ℕ → Except Halt α) : Prop :=
  ∀ k, f k = .error .outOfFuel

lemma Settles.unique {f : ℕ → Except Halt α} {r r' : Except Halt α}
    (h : Settles f r) (h' : Settles f r') : r = r' := by
  obtain ⟨N, hN⟩ := h
  obtain ⟨M, hM⟩ := h'
  rw [← hN (max N M) (le_max_left _ _), hM (max N M) (le_max_right _ _)]

lemma Settles.const (r : Except Halt α) : Settles (fun _ => r) r := ⟨0, fun _ _ => rfl⟩

lemma Settles.bind {f : ℕ → Except Halt α} {g : ℕ → α → Except Halt β} {a : α}
    {r : Except Halt β} (hf : Settles f (.ok a)) (hg : Settles (fun k => g k a) r) :
    Settles (fun k => f k >>= g k) r := by
  obtain ⟨N, hN⟩ := hf
  obtain ⟨M, hM⟩ := hg
  refine ⟨max N M, fun k hk => ?_⟩
  have h1 := hN k (le_trans (le_max_left _ _) hk)
  have h2 := hM k (le_trans (le_max_right _ _) hk)
  simp only [h1, ok_bind]
  exact h2

/-- What follows without fuel of its own. -/
lemma Settles.map {f : ℕ → Except Halt α} {r : Except Halt α} (h : Settles f r)
    (g : α → Except Halt β) : Settles (fun k => f k >>= g) (r >>= g) := by
  obtain ⟨N, hN⟩ := h
  exact ⟨N, fun k hk => congrArg (· >>= g) (hN k hk)⟩

lemma Settles.bind_halt {f : ℕ → Except Halt α} {g : ℕ → α → Except Halt β} {h : Halt}
    (hf : Settles f (.error h)) : Settles (fun k => f k >>= g k) (.error h) := by
  obtain ⟨N, hN⟩ := hf
  exact ⟨N, fun k hk => by simp only [hN k hk, error_bind]⟩

lemma Settles.congr {f g : ℕ → Except Halt α} {r : Except Halt α} (h : Settles f r)
    (hfg : ∀ k, g k = f k) : Settles g r := by
  obtain ⟨N, hN⟩ := h
  exact ⟨N, fun k hk => by rw [hfg, hN k hk]⟩

lemma Settles.ends {f : ℕ → Except Halt α} {a : α} (h : Settles f (.ok a)) : Ends f :=
  ⟨.ok a, by simp, h⟩

lemma Spins.not_settles {f : ℕ → Except Halt α} (h : Spins f) (a : α) : ¬ Settles f (.ok a) := by
  rintro ⟨N, hN⟩
  exact absurd (hN N le_rfl) (by rw [h N]; simp)

lemma Spins.not_ends {f : ℕ → Except Halt α} (h : Spins f) : ¬ Ends f := by
  rintro ⟨r, hr, N, hN⟩
  exact hr (by rw [← hN N le_rfl, h N])

/-! ### Loops -/

/-- A loop that performs `step` until it says `inr`, for at most so many iterations. -/
def iter (step : σ → Except Halt (σ ⊕ ρ)) : ℕ → σ → Except Halt ρ
  | 0, _ => .error .outOfFuel
  | n + 1, s =>
    match step s with
    | .error h => .error h
    | .ok (.inl s') => iter step n s'
    | .ok (.inr r) => .ok r

section

variable {step : σ → Except Halt (σ ⊕ ρ)}

@[simp] lemma iter_zero (s : σ) : iter step 0 s = .error .outOfFuel := rfl

lemma iter_inl {s s' : σ} (h : step s = .ok (.inl s')) (n : ℕ) :
    iter step (n + 1) s = iter step n s' := by
  rw [iter, h]

lemma iter_inr {s : σ} {r : ρ} (h : step s = .ok (.inr r)) (n : ℕ) :
    iter step (n + 1) s = .ok r := by
  rw [iter, h]

lemma iter_error {s : σ} {e : Halt} (h : step s = .error e) (n : ℕ) :
    iter step (n + 1) s = .error e := by
  rw [iter, h]

/-- What holds of the first state and is kept by every iteration holds where the loop leaves. -/
lemma iter_induct {I : σ → Prop} {Q : ρ → Prop}
    (hl : ∀ s s', I s → step s = .ok (.inl s') → I s')
    (hr : ∀ s r, I s → step s = .ok (.inr r) → Q r) :
    ∀ (n : ℕ) (s : σ) (r : ρ), I s → iter step n s = .ok r → Q r := by
  intro n
  induction n with
  | zero => intro s r _ h; simp at h
  | succ n ih =>
      intro s r hI h
      cases hs : step s with
      | error e => rw [iter_error hs] at h; simp at h
      | ok x =>
          cases x with
          | inl s' => rw [iter_inl hs] at h; exact ih s' r (hl s s' hI hs) h
          | inr q =>
              rw [iter_inr hs] at h
              rw [← Except.ok.inj h]
              exact hr s q hI hs

/-- A loop that goes through a list, one element an iteration, and may leave early: what holds of
the list and the first state, and is handed on from element to element, holds at the end. -/
lemma iter_list {I : List α → σ → Prop} {Q : ρ → Prop}
    (hcons : ∀ a l s, I (a :: l) s →
      (∃ s', step s = .ok (.inl s') ∧ I l s') ∨ ∃ r, step s = .ok (.inr r) ∧ Q r)
    (hnil : ∀ s, I [] s → ∃ r, step s = .ok (.inr r) ∧ Q r) :
    ∀ (l : List α) (s : σ) (n : ℕ), I l s → l.length < n → ∃ r, iter step n s = .ok r ∧ Q r := by
  intro l
  induction l with
  | nil =>
      intro s n hI hn
      obtain ⟨n, rfl⟩ := Nat.exists_eq_add_of_le' hn
      obtain ⟨r, hr, hQ⟩ := hnil s hI
      exact ⟨r, iter_inr hr n, hQ⟩
  | cons a l ih =>
      intro s n hI hn
      rw [List.length_cons] at hn
      obtain ⟨n, rfl⟩ := Nat.exists_eq_add_of_le' (show 1 ≤ n by omega)
      rcases hcons a l s hI with ⟨s', hs, hI'⟩ | ⟨r, hr, hQ⟩
      · obtain ⟨r, hr, hQ⟩ := ih s' n hI' (by omega)
        exact ⟨r, by rw [iter_inl hs, hr], hQ⟩
      · exact ⟨r, iter_inr hr n, hQ⟩

/-- A loop that goes through a list and is sure to halt before its end. -/
lemma iter_list_halt {I : List α → σ → Prop} {P : Halt → Prop}
    (hcons : ∀ a l s, I (a :: l) s →
      (∃ s', step s = .ok (.inl s') ∧ I l s') ∨ ∃ h, step s = .error h ∧ P h)
    (hnil : ∀ s, ¬ I [] s) :
    ∀ (l : List α) (s : σ) (n : ℕ), I l s → l.length ≤ n → ∃ h, iter step n s = .error h ∧ P h := by
  intro l
  induction l with
  | nil => intro s _ hI; exact absurd hI (hnil s)
  | cons a l ih =>
      intro s n hI hn
      rw [List.length_cons] at hn
      obtain ⟨n, rfl⟩ := Nat.exists_eq_add_of_le' (show 1 ≤ n by omega)
      rcases hcons a l s hI with ⟨s', hs, hI'⟩ | ⟨h, hs, hP⟩
      · rw [iter_inl hs]
        exact ih s' n hI' (by omega)
      · exact ⟨h, iter_error hs n, hP⟩

/-- What a loop settles on is what it settles on after a round. -/
lemma settles_iter_inl {s s' : σ} {r : Except Halt ρ} (h : step s = .ok (.inl s')) :
    Settles (fun k => iter step k s) r ↔ Settles (fun k => iter step k s') r := by
  constructor
  · rintro ⟨N, hN⟩
    exact ⟨N, fun k hk => (iter_inl h k).symm.trans (hN (k + 1) (by omega))⟩
  · rintro ⟨N, hN⟩
    refine ⟨N + 1, fun k hk => ?_⟩
    obtain ⟨k, rfl⟩ := Nat.exists_eq_add_of_le' (show 1 ≤ k by omega)
    dsimp only
    rw [iter_inl h k]
    exact hN k (by omega)

/-- A loop that is left in its first round. -/
lemma settles_iter_inr {s : σ} {r : ρ} (h : step s = .ok (.inr r)) :
    Settles (fun k => iter step k s) (.ok r) := by
  refine ⟨1, fun k hk => ?_⟩
  obtain ⟨k, rfl⟩ := Nat.exists_eq_add_of_le' hk
  exact iter_inr h k

/-- A loop that halts in its first round. -/
lemma settles_iter_error {s : σ} {e : Halt} (h : step s = .error e) :
    Settles (fun k => iter step k s) (.error e) := by
  refine ⟨1, fun k hk => ?_⟩
  obtain ⟨k, rfl⟩ := Nat.exists_eq_add_of_le' hk
  exact iter_error h k

/-- A loop that halts in its first round has no result. -/
lemma iter_error_result {s : σ} {e : Halt} (h : step s = .error e) (P : ρ → Prop) :
    ¬ ∃ r, Settles (fun k => iter step k s) (.ok r) ∧ P r := by
  rintro ⟨r, hr, -⟩
  have := (settles_iter_error h).unique hr
  simp at this

/-- A loop that is left in its first round has the result it is left with. -/
lemma iter_inr_result {s : σ} {r : ρ} (h : step s = .ok (.inr r)) (P : ρ → Prop) :
    (∃ r', Settles (fun k => iter step k s) (.ok r') ∧ P r') ↔ P r := by
  constructor
  · rintro ⟨r', hr, hP⟩
    rwa [Except.ok.inj ((settles_iter_inr h).unique hr)]
  · exact fun hP => ⟨r, settles_iter_inr h, hP⟩

/-- A loop that stays in a set of states for ever runs out of any fuel. -/
lemma iter_spins {S : σ → Prop} (h : ∀ s, S s → ∃ s', step s = .ok (.inl s') ∧ S s') :
    ∀ (n : ℕ) (s : σ), S s → iter step n s = .error .outOfFuel := by
  intro n
  induction n with
  | zero => intro s _; rfl
  | succ n ih =>
      intro s hs
      obtain ⟨s', hstep, hs'⟩ := h s hs
      rw [iter_inl hstep]
      exact ih s' hs'

end

/-! ### The states a loop comes to -/

/-- The states in which the body of a loop is entered, in so many rounds. A body that halts has been
entered. -/
def visits (step : σ → Except Halt (σ ⊕ ρ)) : ℕ → σ → List σ
  | 0, _ => []
  | n + 1, s =>
    match step s with
    | .ok (.inl s') => s :: visits step n s'
    | .ok (.inr _) => []
    | .error _ => [s]

section

variable {τ ρ' : Type} {step : σ → Except Halt (σ ⊕ ρ)} {step' : τ → Except Halt (τ ⊕ ρ')}

@[simp] lemma visits_zero (s : σ) : visits step 0 s = [] := rfl

lemma visits_inl {s s' : σ} (h : step s = .ok (.inl s')) (n : ℕ) :
    visits step (n + 1) s = s :: visits step n s' := by
  rw [visits, h]

lemma visits_inr {s : σ} {r : ρ} (h : step s = .ok (.inr r)) (n : ℕ) :
    visits step (n + 1) s = [] := by
  rw [visits, h]

lemma visits_error {s : σ} {e : Halt} (h : step s = .error e) (n : ℕ) :
    visits step (n + 1) s = [s] := by
  rw [visits, h]

/-- A loop that is left at once comes to nothing. -/
lemma visits_eq_nil {s : σ} {r : ρ} (h : step s = .ok (.inr r)) (n : ℕ) : visits step n s = [] := by
  cases n with
  | zero => rfl
  | succ n => exact visits_inr h n

/-- What is said of all states to come. -/
lemma forall_visits_inl {s s' : σ} (h : step s = .ok (.inl s')) (P : σ → Prop) :
    (∀ n, ∀ x ∈ visits step n s, P x) ↔ P s ∧ ∀ n, ∀ x ∈ visits step n s', P x := by
  constructor
  · intro hall
    have hcons : ∀ n, ∀ x ∈ s :: visits step n s', P x := fun n => visits_inl h n ▸ hall (n + 1)
    exact ⟨hcons 0 s (List.mem_cons_self ..), fun n x hx => hcons n x (List.mem_cons_of_mem s hx)⟩
  · rintro ⟨hs, hall⟩ n
    cases n with
    | zero => simp
    | succ n =>
        rw [visits_inl h]
        exact List.forall_mem_cons.mpr ⟨hs, hall n⟩

/-- A loop that has been left comes to nothing more. -/
lemma visits_final {k : ℕ} {s : σ} {r : ρ} (h : iter step k s = .ok r) (n : ℕ) :
    visits step n s <+: visits step k s := by
  induction k generalizing s n with
  | zero => simp at h
  | succ k ih =>
      cases hs : step s with
      | error e => rw [iter_error hs] at h; simp at h
      | ok x =>
          cases x with
          | inr q =>
              rw [visits_eq_nil hs n]
              exact List.nil_prefix
          | inl s' =>
              rw [iter_inl hs] at h
              rw [visits_inl hs]
              cases n with
              | zero => exact List.nil_prefix
              | succ n =>
                  rw [visits_inl hs, List.cons_prefix_cons]
                  exact ⟨rfl, ih h n⟩

/-- A single round. -/
lemma visits_one (s : σ) : visits step 1 s = [] ∨ visits step 1 s = [s] := by
  cases hs : step s with
  | error e => exact .inr (visits_error hs 0)
  | ok x =>
      cases x with
      | inl s' => exact .inr (visits_inl hs 0)
      | inr r => exact .inl (visits_inr hs 0)

/-- A loop whose body is entered comes to its first state. -/
lemma visits_entered {s : σ} (h : ∀ r, step s ≠ .ok (.inr r)) (n : ℕ) :
    ∃ l, visits step (n + 1) s = s :: l := by
  cases hs : step s with
  | error e => exact ⟨[], visits_error hs n⟩
  | ok x =>
      cases x with
      | inl s' => exact ⟨_, visits_inl hs n⟩
      | inr r => exact absurd hs (h r)

/-- A loop that does what another one does, as far as it goes on, comes to the states of that one,
perhaps not to all of them. -/
lemma visits_map_prefix {f : σ → τ}
    (hl : ∀ s s', step s = .ok (.inl s') → step' (f s) = .ok (.inl (f s')))
    (he : ∀ s e, step s = .error e → ∀ r, step' (f s) ≠ .ok (.inr r)) :
    ∀ (n : ℕ) (s : σ), (visits step n s).map f <+: visits step' n (f s) := by
  intro n
  induction n with
  | zero => exact fun s => List.nil_prefix
  | succ n ih =>
      intro s
      cases hs : step s with
      | error e =>
          obtain ⟨l, hl'⟩ := visits_entered (he s e hs) n
          rw [visits_error hs, hl']
          exact ⟨l, rfl⟩
      | ok x =>
          cases x with
          | inl s' =>
              rw [visits_inl hs, visits_inl (hl s s' hs), List.map_cons, List.cons_prefix_cons]
              exact ⟨rfl, ih s'⟩
          | inr r =>
              rw [visits_inr hs]
              exact List.nil_prefix

end

/-! ### More fuel changes nothing -/

/-- Whatever the computation gives before its fuel ends, it also gives with more fuel. -/
def Steady (f : ℕ → Except Halt α) : Prop :=
  ∀ k k', k ≤ k' → f k ≠ .error .outOfFuel → f k' = f k

namespace Steady

lemma const (r : Except Halt α) : Steady fun _ => r := fun _ _ _ _ => rfl

lemma settles {f : ℕ → Except Halt α} (h : Steady f) {k : ℕ} {r : Except Halt α} (hk : f k = r)
    (hr : r ≠ .error .outOfFuel) : Settles f r :=
  ⟨k, fun k' hk' => (h k k' hk' (hk ▸ hr)).trans hk⟩

lemma bind {f : ℕ → Except Halt α} {g : ℕ → α → Except Halt β} (hf : Steady f)
    (hg : ∀ a, Steady fun k => g k a) : Steady fun k => f k >>= g k := by
  intro k k' hk h
  cases hfk : f k with
  | error e =>
      simp only [hfk, error_bind] at h
      have hne : f k ≠ .error .outOfFuel := by
        rw [hfk]
        exact fun h0 => h (congrArg _ (Except.error.inj h0))
      simp only [hf k k' hk hne, hfk, error_bind]
  | ok a =>
      simp only [hfk, ok_bind] at h
      have hne : f k ≠ .error .outOfFuel := by simp [hfk]
      simp only [hf k k' hk hne, hfk, ok_bind]
      exact hg a k k' hk h

lemma ite {c : Prop} [Decidable c] {f g : ℕ → Except Halt α} (hf : c → Steady f)
    (hg : ¬ c → Steady g) : Steady fun k => if c then f k else g k := by
  by_cases hc : c
  · simpa only [if_pos hc] using hf hc
  · simpa only [if_neg hc] using hg hc

/-- The rule of a loop whose body takes fuel as well. -/
lemma iter {step : ℕ → σ → Except Halt (σ ⊕ ρ)} (h : ∀ s, Steady fun k => step k s) (s : σ) :
    Steady fun k => CMem.iter (step k) k s := by
  have key : ∀ k k', k ≤ k' → ∀ n n', n ≤ n' → ∀ s,
      CMem.iter (step k) n s ≠ .error .outOfFuel →
        CMem.iter (step k') n' s = CMem.iter (step k) n s := by
    intro k k' hk n
    induction n with
    | zero => intro n' _ s hne; exact absurd rfl hne
    | succ n ih =>
        intro n' hn s hne
        obtain ⟨n', rfl⟩ := Nat.exists_eq_add_of_le' (show 1 ≤ n' by omega)
        cases hs : step k s with
        | error e =>
            rw [iter_error hs] at hne ⊢
            have hne' : step k s ≠ .error .outOfFuel := by
              rw [hs]
              exact fun h0 => hne (congrArg _ (Except.error.inj h0))
            exact iter_error ((h s k k' hk hne').trans hs) n'
        | ok x =>
            have hs' : step k' s = .ok x := (h s k k' hk (by simp [hs])).trans hs
            cases x with
            | inl s' =>
                rw [iter_inl hs] at hne ⊢
                rw [iter_inl hs']
                exact ih n' (by omega) s' hne
            | inr r => rw [iter_inr hs, iter_inr hs']
  exact fun k k' hk => key k k' hk k k' hk s

/-- The rule of a loop whose body takes no fuel. -/
lemma loop (step : σ → Except Halt (σ ⊕ ρ)) (s : σ) : Steady fun k => CMem.iter step k s :=
  @iter _ _ (fun _ => step) (fun s => const (step s)) s

end Steady

/-! ### Computations that go alike -/

/-- Two computations halt alike, or come to values that are related. -/
inductive Alike (R : α → β → Prop) : Except Halt α → Except Halt β → Prop where
  | ok {a : α} {b : β} (h : R a b) : Alike R (.ok a) (.ok b)
  | error (e : Halt) : Alike R (.error e) (.error e)

namespace Alike

variable {γ δ : Type} {R : α → β → Prop} {x : Except Halt α} {y : Except Halt β}

/-- A computation goes like itself. -/
lemma same {R : α → α → Prop} (h : ∀ a, x = .ok a → R a a) : Alike R x x := by
  cases x with
  | ok a => exact ok (h a rfl)
  | error e => exact error e

lemma mono {S : α → β → Prop} (h : Alike R x y) (hRS : ∀ a b, R a b → S a b) : Alike S x y := by
  cases h with
  | ok h => exact ok (hRS _ _ h)
  | error e => exact error e

lemma bind {S : γ → δ → Prop} {f : α → Except Halt γ} {g : β → Except Halt δ} (h : Alike R x y)
    (hfg : ∀ a b, R a b → Alike S (f a) (g b)) : Alike S (x >>= f) (y >>= g) := by
  cases h with
  | ok h => exact hfg _ _ h
  | error e => exact error e

/-- Two computations that begin with the same one. -/
lemma bind_same {S : γ → δ → Prop} {f : α → Except Halt γ} {g : α → Except Halt δ}
    (h : ∀ a, Alike S (f a) (g a)) : Alike S (x >>= f) (x >>= g) :=
  (same (R := Eq) fun _ _ => rfl).bind fun a _ hab => hab ▸ h a

lemma ite {c : Prop} [Decidable c] {x' : Except Halt α} {y' : Except Halt β} (h : c → Alike R x y)
    (h' : ¬ c → Alike R x' y') : Alike R (if c then x else x') (if c then y else y') := by
  split_ifs with hc
  · exact h hc
  · exact h' hc

/-- Loops whose rounds go alike. -/
lemma iter {τ ρ' : Type} {step : σ → Except Halt (σ ⊕ ρ)} {step' : τ → Except Halt (τ ⊕ ρ')}
    {I : σ → τ → Prop} {Q : ρ → ρ' → Prop}
    (h : ∀ s s', I s s' → Alike (Sum.LiftRel I Q) (step s) (step' s')) (n : ℕ) :
    ∀ s s', I s s' → Alike Q (CMem.iter step n s) (CMem.iter step' n s') := by
  induction n with
  | zero => exact fun _ _ _ => error .outOfFuel
  | succ n ih =>
      intro s s' hI
      have hround := h s s' hI
      rw [CMem.iter, CMem.iter]
      generalize step s = x at hround ⊢
      generalize step' s' = y at hround ⊢
      cases hround with
      | ok hrel =>
          cases hrel with
          | inl hI' => exact ih _ _ hI'
          | inr hQ => exact ok hQ
      | error e => exact error e

/-- Runs of calls that go alike. -/
lemma foldlM {I : σ → β → Prop} {f : σ → α → Except Halt σ} {g : β → α → Except Halt β}
    (h : ∀ s s' a, I s s' → Alike I (f s a) (g s' a)) (l : List α) :
    ∀ s s', I s s' → Alike I (l.foldlM f s) (l.foldlM g s') := by
  induction l with
  | nil => exact fun _ _ hI => ok hI
  | cons a l ih =>
      intro s s' hI
      rw [List.foldlM_cons, List.foldlM_cons]
      exact (h s s' a hI).bind ih

/-- What the second computation gives. -/
lemma eq_ok (h : Alike R x y) {b : β} (hy : y = .ok b) : ∃ a, x = .ok a ∧ R a b := by
  cases h with
  | ok h => exact ⟨_, rfl, Except.ok.inj hy ▸ h⟩
  | error e => exact absurd hy (by simp)

/-- What the second computation gives for what the first one does. -/
lemma of_eq_ok (h : Alike R x y) {a : α} (hx : x = .ok a) : ∃ b, y = .ok b ∧ R a b := by
  cases h with
  | ok h => exact ⟨_, rfl, Except.ok.inj hx ▸ h⟩
  | error e => exact absurd hx (by simp)

/-- What settles, if the value of either computation determines that of the other. -/
lemma settles_iff {f : ℕ → Except Halt α} {g : ℕ → Except Halt β} {F : α → β}
    (hF : Function.Injective F) (h : ∀ k, Alike (fun a b => b = F a) (f k) (g k)) {b : β} :
    Settles g (.ok b) ↔ ∃ a, Settles f (.ok a) ∧ b = F a := by
  constructor
  · rintro ⟨N, hN⟩
    obtain ⟨a, -, rfl⟩ := (h N).eq_ok (hN N le_rfl)
    refine ⟨a, ⟨N, fun k hk => ?_⟩, rfl⟩
    obtain ⟨a', ha', heq⟩ := (h k).eq_ok (hN k hk)
    rw [ha', hF heq]
  · rintro ⟨a, ⟨N, hN⟩, rfl⟩
    refine ⟨N, fun k hk => ?_⟩
    obtain ⟨b, hb, rfl⟩ := (h k).of_eq_ok (hN k hk)
    exact hb

end Alike

/-! ### Loops whose body takes fuel -/

/-- The loop with a body that takes fuel itself gives `r`, once both fuels are large enough. -/
def LoopSettles (step : ℕ → σ → Except Halt (σ ⊕ ρ)) (s : σ) (r : Except Halt ρ) : Prop :=
  ∃ N, ∀ k n, N ≤ k → N ≤ n → iter (step k) n s = r

namespace LoopSettles

variable {step : ℕ → σ → Except Halt (σ ⊕ ρ)} {s s' : σ} {r : Except Halt ρ}

lemma settles (h : LoopSettles step s r) : Settles (fun k => iter (step k) k s) r := by
  obtain ⟨N, hN⟩ := h
  exact ⟨N, fun k hk => hN k k hk hk⟩

lemma done {q : ρ} (h : Settles (fun k => step k s) (.ok (.inr q))) :
    LoopSettles step s (.ok q) := by
  obtain ⟨N, hN⟩ := h
  refine ⟨N + 1, fun k n hk hn => ?_⟩
  obtain ⟨n, rfl⟩ := Nat.exists_eq_add_of_le' (show 1 ≤ n by omega)
  exact iter_inr (hN k (by omega)) n

lemma more (h : Settles (fun k => step k s) (.ok (.inl s'))) (h' : LoopSettles step s' r) :
    LoopSettles step s r := by
  obtain ⟨N, hN⟩ := h
  obtain ⟨M, hM⟩ := h'
  refine ⟨max N M + 1, fun k n hk hn => ?_⟩
  obtain ⟨n, rfl⟩ := Nat.exists_eq_add_of_le' (show 1 ≤ n by omega)
  rw [iter_inl (hN k (by omega))]
  exact hM k n (by omega) (by omega)

lemma halt {e : Halt} (h : Settles (fun k => step k s) (.error e)) :
    LoopSettles step s (.error e) := by
  obtain ⟨N, hN⟩ := h
  refine ⟨N + 1, fun k n hk hn => ?_⟩
  obtain ⟨n, rfl⟩ := Nat.exists_eq_add_of_le' (show 1 ≤ n by omega)
  exact iter_error (hN k (by omega)) n

/-- A loop that counts: what it gives from where the counting ends it gives from the start. -/
lemma count {step : ℕ → ℕ → Except Halt (ℕ ⊕ ρ)} {n : ℕ}
    (hgo : ∀ i < n, Settles (fun k => step k i) (.ok (.inl (i + 1)))) (hend : LoopSettles step n r) :
    LoopSettles step 0 r := by
  have key : ∀ i ≤ n, LoopSettles step (n - i) r := by
    intro i
    induction i with
    | zero => exact fun _ => hend
    | succ i ih =>
        intro hi
        have hnext : n - (i + 1) + 1 = n - i := by omega
        have hstep := hgo (n - (i + 1)) (by omega)
        rw [hnext] at hstep
        exact more hstep (ih (by omega))
  have h := key n le_rfl
  rwa [Nat.sub_self] at h

end LoopSettles

/-- A loop that counts and whose body takes no fuel. -/
lemma settles_iter_count {step : ℕ → Except Halt (ℕ ⊕ ρ)} {n : ℕ} {q : ρ}
    (hgo : ∀ i < n, step i = .ok (.inl (i + 1))) (hend : step n = .ok (.inr q)) :
    Settles (fun k => iter step k 0) (.ok q) := by
  have hloop : LoopSettles (fun _ => step) 0 (.ok q) :=
    LoopSettles.count (fun i hi => hgo i hi ▸ Settles.const _) (.done (hend ▸ Settles.const _))
  exact hloop.settles

/-! ### Runs -/

section

variable {f : ℕ → σ → α → Except Halt σ} {l : List α} {a : α} {s s' : σ} {r : Except Halt σ}

/-- One call more. -/
lemma Settles.concat (h : Settles (fun k => l.foldlM (f k) s) (.ok s'))
    (ha : Settles (fun k => f k s' a) r) :
    Settles (fun k => (l ++ [a]).foldlM (f k) s) r := by
  refine (h.bind (g := fun k s => f k s a) ha).congr fun k => ?_
  have hone : ∀ s, [a].foldlM (f k) s = f k s a := fun s => by
    rw [List.foldlM_cons]
    exact bind_pure _
  rw [List.foldlM_append]
  exact bind_congr hone

/-- A run that has halted stays so. -/
lemma Settles.concat_halt {h : Halt} (hl : Settles (fun k => l.foldlM (f k) s) (.error h)) :
    Settles (fun k => (l ++ [a]).foldlM (f k) s) (.error h) :=
  (Settles.bind_halt (g := fun k s => [a].foldlM (f k) s) hl).congr fun _ => List.foldlM_append

/-- The rule of a run of calls: what holds at first, and is handed on by every call that meets it in
a state the run reaches, holds after every part of the run. -/
lemma Settles.run {I : List α → σ → Prop} (h0 : I [] s)
    (hstep : ∀ pre a post s', l = pre ++ a :: post →
      Settles (fun k => pre.foldlM (f k) s) (.ok s') → I pre s' →
        ∃ s'', Settles (fun k => f k s' a) (.ok s'') ∧ I (pre ++ [a]) s'') :
    ∀ pre post, l = pre ++ post →
      ∃ s', Settles (fun k => pre.foldlM (f k) s) (.ok s') ∧ I pre s' := by
  intro pre
  induction pre using List.reverseRecOn with
  | nil => exact fun _ _ => ⟨s, Settles.const _, h0⟩
  | append_singleton pre a ih =>
      intro post h
      obtain ⟨s', hs', hI⟩ := ih (a :: post) (by simpa using h)
      obtain ⟨s'', hs'', hI'⟩ := hstep pre a post s' (by simpa using h) hs' hI
      exact ⟨s'', hs'.concat hs'', hI'⟩

/-- The rule at the end of a run. -/
lemma Settles.run_all {I : List α → σ → Prop} (h0 : I [] s)
    (hstep : ∀ pre a post s', l = pre ++ a :: post →
      Settles (fun k => pre.foldlM (f k) s) (.ok s') → I pre s' →
        ∃ s'', Settles (fun k => f k s' a) (.ok s'') ∧ I (pre ++ [a]) s'') :
    ∃ s', Settles (fun k => l.foldlM (f k) s) (.ok s') ∧ I l s' :=
  Settles.run h0 hstep l [] (List.append_nil l).symm

end

end CMem
