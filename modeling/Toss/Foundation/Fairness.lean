import Toss.Foundation.Run

/-!
# Fair behaviours

Infinite behaviours of a labelled step relation, which may rest at any place,
and the rules that say where they lead.

* `Behaviour step` — the states and labels of one infinite behaviour;
* `Behaviour.invariant_of_guard` — what guarded steps preserve holds as long as
  the steps are guarded;
* `Behaviour.WeaklyFair A` — the `A` steps do not stay enabled and untaken;
* `Behaviour.leadsTo_of_rank` — a rank that every step keeps and every fair step
  lowers leads to the goal;
* `Behaviour.ofExec` — a finite execution, followed by rest.
-/

namespace Toss.Foundation

variable {σ α : Type*}

structure Behaviour (step : σ → α → σ → Prop) where
  state : Nat → σ
  label : Nat → Option α
  step_of_label : ∀ n a, label n = some a → step (state n) a (state (n + 1))
  rest_of_none : ∀ n, label n = none → state (n + 1) = state n

namespace Behaviour

variable {step : σ → α → σ → Prop}

/-- Whenever `P` holds, `Q` holds then or later. -/
def LeadsTo (b : Behaviour step) (P Q : σ → Prop) : Prop :=
  ∀ n, P (b.state n) → ∃ m, n ≤ m ∧ Q (b.state m)

/-- Where an `A` step is possible from some place on for ever, one is taken. -/
def WeaklyFair (b : Behaviour step) (A : α → Prop) : Prop :=
  ∀ n, (∀ m, n ≤ m → ∃ a t, A a ∧ step (b.state m) a t) →
    ∃ m, n ≤ m ∧ ∃ a, b.label m = some a ∧ A a

variable {b : Behaviour step}

/-- Invariant induction, as far as the steps are guarded. -/
theorem invariant_of_guard {inv : σ → Prop} {guard : σ → α → Prop}
    (hstep : ∀ s a t, inv s → guard s a → step s a t → inv t) (hinit : inv (b.state 0))
    {n : Nat} (hguard : ∀ k, k < n → ∀ a, b.label k = some a → guard (b.state k) a) :
    inv (b.state n) := by
  induction n with
  | zero => exact hinit
  | succ n ih =>
    have hinv : inv (b.state n) := ih fun k hk => hguard k (by omega)
    cases hlabel : b.label n with
    | none =>
      rw [b.rest_of_none n hlabel]
      exact hinv
    | some a =>
      exact hstep _ a _ hinv (hguard n (by omega) a hlabel) (b.step_of_label n a hlabel)

/-- Steps keep the rank or lower it, and a fair step lowers it, so it cannot
stay above the goal for ever. The fair steps may depend on the rank. -/
theorem leadsTo_of_rank {P : Nat → σ → Prop} {Q I : σ → Prop} {A : Nat → α → Prop}
    (hinv : ∀ n, I (b.state n)) (hfair : ∀ k, b.WeaklyFair (A k))
    (hstep : ∀ k s a t, I s → I t → P k s → step s a t →
      Q t ∨ ∃ j, j ≤ k ∧ P j t ∧ (A k a → j < k))
    (henabled : ∀ k s, I s → P k s → Q s ∨ ∃ a t, A k a ∧ step s a t) (k : Nat) :
    b.LeadsTo (P k) Q := by
  induction k using Nat.strongRecOn with
  | _ k ih =>
    intro n hP
    apply Classical.byContradiction
    intro hnever
    have hnot : ∀ m, n ≤ m → ¬ Q (b.state m) := fun m hm hQ => hnever ⟨m, hm, hQ⟩
    -- below rank `k` the goal would be reached
    have hnotLower : ∀ j m, j < k → n ≤ m → ¬ P j (b.state m) := by
      intro j m hj hm hPj
      rcases ih j hj m hPj with ⟨l, hl, hQ⟩
      exact hnot l (Nat.le_trans hm hl) hQ
    have hkept : ∀ d, P k (b.state (n + d)) := by
      intro d
      induction d with
      | zero => exact hP
      | succ d ihd =>
        cases hlabel : b.label (n + d) with
        | none =>
          have hrest := b.rest_of_none (n + d) hlabel
          rw [← Nat.add_assoc, hrest]
          exact ihd
        | some a =>
          rcases hstep k _ a _ (hinv _) (hinv _) ihd (b.step_of_label _ a hlabel)
            with hQ | ⟨j, hj, hPj, -⟩
          · exact absurd hQ (hnot _ (by omega))
          rcases Nat.eq_or_lt_of_le hj with heq | hlt
          · rw [heq] at hPj
            exact hPj
          · exact absurd hPj (hnotLower j _ hlt (by omega))
    have hforever : ∀ m, n ≤ m → ∃ a t, A k a ∧ step (b.state m) a t := by
      intro m hm
      have hPm := hkept (m - n)
      rw [Nat.add_sub_cancel' hm] at hPm
      rcases henabled k _ (hinv m) hPm with hQ | hstep
      · exact absurd hQ (hnot m hm)
      · exact hstep
    rcases hfair k n hforever with ⟨m, hm, a, hlabel, hA⟩
    have hPm := hkept (m - n)
    rw [Nat.add_sub_cancel' hm] at hPm
    rcases hstep k _ a _ (hinv _) (hinv _) hPm (b.step_of_label m a hlabel)
      with hQ | ⟨j, -, hPj, hlower⟩
    · exact hnot (m + 1) (by omega) hQ
    · exact hnotLower j (m + 1) (hlower hA) (by omega) hPj

/-! ## Finite executions -/

def ofExec (step : σ → α → Option σ) (s : σ) (as : List α)
    (h : (exec step s as).isSome = true) : Behaviour (fun s a t => step s a = some t) where
  state n := (exec step s (as.take n)).getD s
  label n := as[n]?
  step_of_label := by
    intro n a hlabel
    rcases Option.isSome_iff_exists.mp (exec_take h n) with ⟨t, ht⟩
    rcases Option.isSome_iff_exists.mp (exec_take h (n + 1)) with ⟨u, hu⟩
    have hlast : exec step t [a] = some u := by
      have hsplit : exec step s (as.take n ++ [a]) = _ := exec_append s (as.take n) [a]
      rw [ht, Option.bind_some] at hsplit
      rw [← hsplit, ← hu, List.take_add_one, hlabel]
      rfl
    rw [ht, hu]
    simpa [exec] using hlast
  rest_of_none := by
    intro n hlabel
    have hsame : as.take (n + 1) = as.take n := by
      rw [List.take_add_one, hlabel]
      simp
    simp only [hsame]

variable {step : σ → α → Option σ} {s t : σ} {as : List α} {h : (exec step s as).isSome = true}

/-- After its last label the behaviour rests where the execution ended. -/
theorem ofExec_state (hend : exec step s as = some t) {n : Nat} (hn : as.length ≤ n) :
    (ofExec step s as h).state n = t := by
  simp [ofExec, List.take_of_length_le hn, hend]

/-- It is fair to the steps that are not possible at its end. -/
theorem ofExec_weaklyFair {A : α → Prop} (hend : exec step s as = some t)
    (hidle : ∀ a u, A a → step t a ≠ some u) : (ofExec step s as h).WeaklyFair A := by
  intro n hforever
  rcases hforever (max n as.length) (Nat.le_max_left _ _) with ⟨a, u, hA, hstep⟩
  rw [ofExec_state hend (Nat.le_max_right _ _)] at hstep
  exact absurd hstep (hidle a u hA)

end Behaviour

end Toss.Foundation
