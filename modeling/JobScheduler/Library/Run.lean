/-
  JobScheduler.Library.Run
  ────────────────────────
  Finite runs of a deterministic labelled step function `σ → α → Option σ`,
  recorded as the list of (state before, action) pairs they pass through.

  A run is built at its END (`snoc`), so an invariant that one step preserves
  is carried along a run by the induction principle itself.  Conditions of a
  claim "in every run whose steps all meet ..." are predicates on the recorded
  pairs, hence on the state BEFORE each step.
-/
import Mathlib.Data.List.Induction
import Mathlib.Tactic.Common

namespace Transition

variable {σ α : Type}

/-! ## §1. Runs. -/

/-- `Run step s₀ tr s`: from `s₀` the recorded steps `tr` lead to `s`. -/
inductive Run (step : σ → α → Option σ) (s₀ : σ) : List (σ × α) → σ → Prop
  | nil : Run step s₀ [] s₀
  | snoc {tr : List (σ × α)} {s s' : σ} {a : α} :
      Run step s₀ tr s → step s a = some s' → Run step s₀ (tr ++ [(s, a)]) s'

/-- Execute a list of actions. -/
def exec (step : σ → α → Option σ) : σ → List α → Option σ
  | s, [] => some s
  | s, a :: as => (step s a).bind (fun s' => exec step s' as)

/-- The pairs that executing a list of actions passes through. -/
def trace (step : σ → α → Option σ) : σ → List α → List (σ × α)
  | _, [] => []
  | s, a :: as => (s, a) :: ((step s a).map (fun s' => trace step s' as)).getD []

variable {step : σ → α → Option σ} {s₀ s s' : σ} {tr tr' : List (σ × α)}

theorem Run.append (h : Run step s₀ tr s) (h' : Run step s tr' s') :
    Run step s₀ (tr ++ tr') s' := by
  induction h' with
  | nil => simpa using h
  | snoc _ hstep ih => rw [← List.append_assoc]; exact ih.snoc hstep

theorem Run.single {a : α} (h : step s a = some s') : Run step s [(s, a)] s' :=
  Run.nil.snoc h

/-- Executing actions is a run. -/
theorem run_of_exec (as : List α) : ∀ (s s' : σ), exec step s as = some s' →
    Run step s (trace step s as) s' := by
  induction as with
  | nil =>
      intro s s' h
      obtain rfl := Option.some.inj h
      exact Run.nil
  | cons a as ih =>
      intro s s' h
      obtain ⟨t, ht, hrest⟩ := Option.bind_eq_some_iff.mp h
      have hone : Run step s [(s, a)] t := Run.single ht
      simpa [trace, ht] using hone.append (ih t s' hrest)

/-- The state that executing a list of actions leads to; the start, if one of
the actions is not possible. -/
def play (step : σ → α → Option σ) (s : σ) (as : List α) : σ := (exec step s as).getD s

/-- A list of actions that is carried out is a run. -/
theorem run_of_play (step : σ → α → Option σ) (s : σ) (as : List α)
    (h : (exec step s as).isSome = true) : Run step s (trace step s as) (play step s as) := by
  obtain ⟨s', hs⟩ := Option.isSome_iff_exists.mp h
  have hplay : play step s as = s' := by rw [play, hs]; rfl
  exact hplay ▸ run_of_exec as s s' hs

theorem step_of_play {a : α} {s : σ} (h : (step s a).isSome = true) :
    step s a = some (play step s [a]) := by
  obtain ⟨s', hs⟩ := Option.isSome_iff_exists.mp h
  simp [play, exec, hs]

/-- Two lists of actions, one after the other. -/
theorem exec_append (as bs : List α) (s : σ) :
    exec step s (as ++ bs) = (exec step s as).bind (fun t => exec step t bs) := by
  induction as generalizing s with
  | nil => rfl
  | cons a as ih =>
      cases ht : step s a with
      | none => simp [exec, ht]
      | some t => simpa [exec, ht] using ih t

/-- Executing actions is a run that records each of them in the state where it
was taken. -/
theorem run_of_play_at (step : σ → α → Option σ) (s : σ) (as : List α) (a : α) (bs : List α)
    (h : (exec step s (as ++ a :: bs)).isSome = true) :
    Run step s (trace step s as ++ (play step s as, a) :: trace step (play step s (as ++ [a])) bs)
      (play step s (as ++ a :: bs)) := by
  obtain ⟨s', hs⟩ := Option.isSome_iff_exists.mp h
  rw [exec_append] at hs
  obtain ⟨t, ht, hrest⟩ := Option.bind_eq_some_iff.mp hs
  obtain ⟨u, hu, hlast⟩ := Option.bind_eq_some_iff.mp hrest
  have hplay : play step s as = t := by rw [play, ht]; rfl
  have hnext : play step s (as ++ [a]) = u := by
    simp [play, exec_append, ht, exec, hu]
  have hend : play step s (as ++ a :: bs) = s' := by
    rw [play, exec_append, ht]
    simp [exec, hu, hlast]
  rw [hplay, hnext, hend, ← List.singleton_append, ← List.append_assoc]
  exact ((run_of_exec as s t ht).snoc hu).append (run_of_exec bs u s' hlast)

/-! ## §2. Splitting a run at a recorded step. -/

/-- A run over `tr₁ ++ tr₂` passes through an intermediate state. -/
theorem Run.split (tr₁ : List (σ × α)) :
    ∀ (tr₂ : List (σ × α)) {s : σ}, Run step s₀ (tr₁ ++ tr₂) s →
      ∃ t, Run step s₀ tr₁ t ∧ Run step t tr₂ s := by
  intro tr₂
  induction tr₂ using List.reverseRecOn with
  | nil => intro s h; exact ⟨s, by simpa using h, Run.nil⟩
  | append_singleton tr₂ p ih =>
      intro s h
      rw [← List.append_assoc] at h
      generalize hw : tr₁ ++ tr₂ ++ [p] = w at h
      cases h with
      | nil => simp at hw
      | snoc hpre hstep =>
          obtain ⟨rfl, hp⟩ := List.append_inj' hw rfl
          obtain ⟨t, ht₁, ht₂⟩ := ih hpre
          obtain rfl := List.singleton_inj.mp hp
          exact ⟨t, ht₁, ht₂.snoc hstep⟩

/-- An empty run ends where it starts. -/
theorem Run.eq_of_nil (h : Run step s₀ [] s) : s = s₀ := by
  generalize hw : ([] : List (σ × α)) = w at h
  cases h with
  | nil => rfl
  | snoc _ _ => simp at hw

/-- A recorded pair is a state of the run and the step that was taken there. -/
theorem Run.split_cons {tr₁ tr₂ : List (σ × α)} {t : σ} {a : α}
    (h : Run step s₀ (tr₁ ++ (t, a) :: tr₂) s) :
    ∃ t', Run step s₀ tr₁ t ∧ step t a = some t' ∧ Run step t' tr₂ s := by
  rw [← List.singleton_append, ← List.append_assoc] at h
  obtain ⟨t', h₁, h₂⟩ := h.split _ _
  generalize hw : tr₁ ++ [(t, a)] = w at h₁
  cases h₁ with
  | nil => simp at hw
  | snoc hpre hstep =>
      obtain ⟨rfl, hp⟩ := List.append_inj' hw rfl
      obtain ⟨rfl, rfl⟩ := Prod.mk.injEq .. ▸ List.singleton_inj.mp hp
      exact ⟨t', hpre, hstep, h₂⟩

/-- The recorded steps determine the end. -/
theorem Run.unique (h : Run step s₀ tr s) (h' : Run step s₀ tr s') : s = s' := by
  cases h with
  | nil => exact h'.eq_of_nil.symm
  | snoc _ hstep =>
      obtain ⟨u, _, hstep', hrest⟩ := h'.split_cons
      rw [hrest.eq_of_nil]
      exact Option.some.inj (hstep.symm.trans hstep')

/-- The first recorded state is the start. -/
theorem Run.start_eq {t : σ} {a : α} (h : Run step s₀ ((t, a) :: tr) s) : t = s₀ := by
  obtain ⟨_, hnil, _, _⟩ := (show Run step s₀ ([] ++ (t, a) :: tr) s from h).split_cons
  exact hnil.eq_of_nil

theorem Run.of_mem {t : σ} {a : α} (h : Run step s₀ tr s) (hm : (t, a) ∈ tr) :
    ∃ tr₁ t', Run step s₀ tr₁ t ∧ (∀ p ∈ tr₁, p ∈ tr) ∧ step t a = some t' := by
  obtain ⟨tr₁, tr₂, rfl⟩ := List.append_of_mem hm
  obtain ⟨t', h₁, hstep, _⟩ := h.split_cons
  exact ⟨tr₁, t', h₁, fun p hp => List.mem_append_left _ hp, hstep⟩

/-! ## §3. Invariants. -/

/-- **Invariant rule.**  A predicate that every admissible step preserves holds
at the end of every run whose steps are all admissible. -/
theorem Run.invariant {I : σ → Prop} {G : σ → α → Prop}
    (hstep : ∀ s a s', I s → G s a → step s a = some s' → I s')
    (h : Run step s₀ tr s) (hG : ∀ p ∈ tr, G p.1 p.2) (h₀ : I s₀) : I s := by
  induction h with
  | nil => exact h₀
  | snoc _ hs ih =>
      have hpre := ih (fun p hp => hG p (List.mem_append_left _ hp))
      exact hstep _ _ _ hpre (hG _ (List.mem_append_right _ (List.mem_singleton_self _))) hs

/-- The invariant also holds BEFORE every recorded step. -/
theorem Run.invariant_at {I : σ → Prop} {G : σ → α → Prop}
    (hstep : ∀ s a s', I s → G s a → step s a = some s' → I s')
    (h : Run step s₀ tr s) (hG : ∀ p ∈ tr, G p.1 p.2) (h₀ : I s₀) :
    ∀ p ∈ tr, I p.1 := by
  rintro ⟨t, a⟩ hp
  obtain ⟨tr₁, _, hpre, hsub, _⟩ := h.of_mem hp
  exact hpre.invariant hstep (fun q hq => hG q (hsub q hq)) h₀

/-- **Change rule.**  A predicate that fails at the start and holds at the end
of a run was established by one recorded step. -/
theorem Run.exists_change {P : σ → Prop} (h : Run step s₀ tr s)
    (h₀ : ¬ P s₀) (h₁ : P s) :
    ∃ tr₁ t a tr₂ t', tr = tr₁ ++ (t, a) :: tr₂ ∧ Run step s₀ tr₁ t ∧ ¬ P t ∧
      step t a = some t' ∧ P t' := by
  induction h with
  | nil => exact absurd h₁ h₀
  | @snoc tr s s' a hpre hs ih =>
      by_cases hP : P s
      · obtain ⟨tr₁, t, b, tr₂, t', rfl, hrest⟩ := ih hP
        exact ⟨tr₁, t, b, tr₂ ++ [(s, a)], t', by simp, hrest⟩
      · exact ⟨tr, s, a, [], s', rfl, hpre, hP, hs, h₁⟩

/-! ## §4. Projection onto a component. -/

section
variable {τ β : Type} {local' : τ → β → Option τ} {view : σ → Option τ} {label : σ → α → Option β}

/-- The steps of a component among the recorded ones. -/
def project (view : σ → Option τ) (label : σ → α → Option β) (tr : List (σ × α)) : List (τ × β) :=
  tr.filterMap (fun p => (view p.1).bind (fun t => (label p.1 p.2).map (fun b => (t, b))))

/-- **Projection rule.**  When every step leaves a component alone or is a step
of its own step function, a run of the whole projects onto a run of the
component. -/
theorem Run.project
    (hstep : ∀ s a s' t, view s = some t → step s a = some s' →
      (label s a = none ∧ view s' = some t) ∨
      ∃ b t', label s a = some b ∧ local' t b = some t' ∧ view s' = some t')
    (h : Run step s₀ tr s) {t₀ : τ} (h₀ : view s₀ = some t₀) :
    ∃ t, view s = some t ∧ Run local' t₀ (Transition.project view label tr) t := by
  induction h with
  | nil => exact ⟨t₀, h₀, Run.nil⟩
  | @snoc tr s s' a _ hs ih =>
      obtain ⟨t, ht, hrun⟩ := ih
      have hsnoc : Transition.project view label (tr ++ [(s, a)])
          = Transition.project view label tr ++ ((label s a).map (fun b => (t, b))).toList := by
        unfold Transition.project
        rw [List.filterMap_append, List.filterMap_cons, List.filterMap_nil, ht]
        cases label s a <;> rfl
      rw [hsnoc]
      rcases hstep s a s' t ht hs with ⟨hl, hv⟩ | ⟨b, t', hl, hloc, hv⟩
      · exact ⟨t, hv, by simpa [hl] using hrun⟩
      · exact ⟨t', hv, by simpa [hl] using hrun.snoc hloc⟩

end

/-! ## §5. Conditions on a step and its history. -/

section
variable {β : Type} {P : List β → β → Prop}

/-- `P` holds of every recorded step and the steps recorded before it. -/
def AtEach (P : List β → β → Prop) (tr : List β) : Prop :=
  ∀ i (h : i < tr.length), P (tr.take i) tr[i]

instance [∀ before p, Decidable (P before p)] (tr : List β) : Decidable (AtEach P tr) :=
  inferInstanceAs (Decidable (∀ i (h : i < tr.length), P (tr.take i) tr[i]))

theorem atEach_nil : AtEach P [] := by
  intro i h
  exact absurd h (Nat.not_lt_zero i)

theorem atEach_snoc {tr : List β} {p : β} : AtEach P (tr ++ [p]) ↔ AtEach P tr ∧ P tr p := by
  constructor
  · intro h
    refine ⟨fun i hi => ?_, ?_⟩
    · have hlt : i < (tr ++ [p]).length := by rw [List.length_append]; omega
      have hat := h i hlt
      rwa [List.take_append_of_le_length (Nat.le_of_lt hi), List.getElem_append_left hi] at hat
    · have hlt : tr.length < (tr ++ [p]).length := by simp
      have hat := h tr.length hlt
      rwa [List.take_left, List.getElem_concat_length rfl] at hat
  · rintro ⟨h, hp⟩ i hi
    rcases Nat.lt_or_ge i tr.length with hlt | hge
    · rw [List.take_append_of_le_length (Nat.le_of_lt hlt), List.getElem_append_left hlt]
      exact h i hlt
    · obtain rfl : i = tr.length := by
        rw [List.length_append, List.length_singleton] at hi
        omega
      rwa [List.take_left, List.getElem_concat_length rfl]

end

end Transition
